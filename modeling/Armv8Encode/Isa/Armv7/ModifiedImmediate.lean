/-
  Armv8Encode.Isa.Armv7.ModifiedImmediate — the constants of Thumb-2.

  A 12-bit field stands for a byte, for one of three patterns of a repeated
  byte, or for a byte with its top bit set that is rotated right by 8 to 31.
  The encoder finds the field by trying the patterns and then every rotation.
  It also tries the rotations by 1 to 7, whose numbers mean a pattern to the
  decoder: a value that wraps around bit 31 gets a field that stands for
  another value.

  Main results:
    * `rotationForm_eq_some_iff` — what the search for a rotation finds.
    * `thumbExpandImmInverse_exact_iff` — the inverse is exact at a value
      unless the value is a byte rotated right by 1 to 7.
-/
import Armv8Encode.Isa.Armv7.ThumbEncode

namespace Armv8Encode.Armv7.Thumb

/-! ## §1. What a field stands for. -/

/-- The constant that a 12-bit field stands for. -/
def thumbExpandImm (imm12 : Word) : Word :=
  let imm12 := imm12 &&& 0xfff
  let high2 := (imm12 >>> 10) &&& 3
  let low8 := imm12 &&& 0xff
  if high2 = 0 then
    let pattern := (imm12 >>> 8) &&& 3
    if pattern = 0 then low8
    else if pattern = 1 then (low8 <<< 16) ||| low8
    else if pattern = 2 then (low8 <<< 24) ||| (low8 <<< 8)
    else (low8 <<< 24) ||| (low8 <<< 16) ||| (low8 <<< 8) ||| low8
  else
    let unrotated := 0x80 ||| (imm12 &&& 0x7f)
    let rot := (imm12 >>> 7) &&& 0x1f
    unrotated.rotateRight rot.toNat

/-! ## §2. Rotations. -/

/-- A byte with its top bit set. -/
def IsTopByte (c : Word) : Prop := c >>> 8 = 0 ∧ c &&& 0x80 ≠ 0

instance (c : Word) : Decidable (IsTopByte c) := inferInstanceAs (Decidable (_ ∧ _))

theorem getLsbD_rotateLeft (v : Word) {rot i : Nat} (hrot : rot < 32) (hi : i < 32) :
    (v.rotateLeft rot).getLsbD i = v.getLsbD ((i + 32 - rot) % 32) := by
  rw [BitVec.getLsbD_rotateLeft_of_le hrot]
  by_cases hlow : i < rot
  · simp [hlow, show (i + 32 - rot) % 32 = 32 - rot + i by omega]
  · simp [hlow, hi, show (i + 32 - rot) % 32 = i - rot by omega]

theorem getLsbD_rotateRight (v : Word) {rot i : Nat} (hrot : rot < 32) (hi : i < 32) :
    (v.rotateRight rot).getLsbD i = v.getLsbD ((i + rot) % 32) := by
  rw [BitVec.getLsbD_rotateRight_of_lt hrot]
  by_cases hlow : i < 32 - rot
  · simp [hlow, show (i + rot) % 32 = rot + i by omega]
  · simp [hlow, hi, show (i + rot) % 32 = i - (32 - rot) by omega]

theorem rotateRight_rotateLeft (v : Word) {rot : Nat} (hrot : rot < 32) :
    (v.rotateLeft rot).rotateRight rot = v := by
  apply BitVec.eq_of_getLsbD_eq
  intro i hi
  rw [getLsbD_rotateRight _ hrot hi, getLsbD_rotateLeft _ hrot (by omega)]
  rw [show ((i + rot) % 32 + 32 - rot) % 32 = i by omega]

theorem rotateLeft_rotateRight (v : Word) {rot : Nat} (hrot : rot < 32) :
    (v.rotateRight rot).rotateLeft rot = v := by
  apply BitVec.eq_of_getLsbD_eq
  intro i hi
  rw [getLsbD_rotateLeft _ hrot hi, getLsbD_rotateRight _ hrot (by omega)]
  rw [show ((i + 32 - rot) % 32 + rot) % 32 = i by omega]

theorem IsTopByte.high {c : Word} (h : IsTopByte c) {i : Nat} (hi : 8 ≤ i) :
    c.getLsbD i = false := by
  have hbit := congrArg (fun w => w.getLsbD (i - 8)) h.1
  simpa [BitVec.getLsbD_ushiftRight, show 8 + (i - 8) = i by omega] using hbit

theorem IsTopByte.top {c : Word} (h : IsTopByte c) : c.getLsbD 7 = true := by
  by_contra hfalse
  refine h.2 (BitVec.eq_of_getLsbD_eq fun i hi => ?_)
  have hmask : ∀ j < 32, (0x80 : Word).getLsbD j = decide (j = 7) := by decide
  rw [BitVec.getLsbD_and, hmask i hi]
  by_cases h7 : i = 7
  · subst h7
    simpa using hfalse
  · simp [h7]

/-- No two rotations of a value are bytes with their top bits set. -/
theorem IsTopByte.rot_unique {v : Word} {r s : Nat} (hr : r < 32) (hs : s < 32)
    (hvr : IsTopByte (v.rotateLeft r)) (hvs : IsTopByte (v.rotateLeft s)) : r = s := by
  -- the bit that one rotation brings to the top stays in the byte of the other
  have hkept {r s : Nat} (hr : r < 32) (hs : s < 32) (hvr : IsTopByte (v.rotateLeft r))
      (hvs : IsTopByte (v.rotateLeft s)) : (39 + s - r) % 32 < 8 := by
    by_contra hout
    have htop := hvr.top
    have hzero := hvs.high (i := (39 + s - r) % 32) (by omega)
    rw [getLsbD_rotateLeft v hr (by omega)] at htop
    rw [getLsbD_rotateLeft v hs (by omega)] at hzero
    rw [show ((39 + s - r) % 32 + 32 - s) % 32 = (7 + 32 - r) % 32 by omega, htop] at hzero
    exact Bool.noConfusion hzero
  have hrs := hkept hr hs hvr hvs
  have hsr := hkept hs hr hvs hvr
  omega

/-- The field that the search makes of a rotation and a byte. -/
def rotationField (rot : Nat) (c : Word) : Word := (BitVec.ofNat 32 rot <<< 7) ||| (c &&& 0x7f)

/-- What the search makes of one rotation. -/
def rotationAt (v : Word) (rot : Nat) : Option Word :=
  if IsTopByte (v.rotateLeft rot) then some (rotationField rot (v.rotateLeft rot)) else none

theorem rotationForm_eq (v : Word) : rotationForm v = (List.range 32).findSome? (rotationAt v) :=
  rfl

theorem rotationAt_eq_some {v raw : Word} {rot : Nat} (h : rotationAt v rot = some raw) :
    IsTopByte (v.rotateLeft rot) ∧ raw = rotationField rot (v.rotateLeft rot) := by
  unfold rotationAt at h
  split at h
  · next htop => exact ⟨htop, (Option.some.inj h).symm⟩
  · cases h

/-- The search finds the rotation that brings the value into a byte. -/
theorem rotationForm_eq_some_iff {v raw : Word} :
    rotationForm v = some raw ↔
      ∃ rot < 32, IsTopByte (v.rotateLeft rot) ∧ raw = rotationField rot (v.rotateLeft rot) := by
  rw [rotationForm_eq]
  constructor
  · intro h
    obtain ⟨rot, hrot, hfound⟩ := List.exists_of_findSome?_eq_some h
    exact ⟨rot, List.mem_range.mp hrot, rotationAt_eq_some hfound⟩
  · intro h
    obtain ⟨rot, hrot, htop, hraw⟩ := h
    have hat : rotationAt v rot = some raw := by rw [rotationAt, if_pos htop, hraw]
    have hsome : ((List.range 32).findSome? (rotationAt v)).isSome = true := by
      rw [List.findSome?_isSome_iff]
      exact ⟨rot, List.mem_range.mpr hrot, by rw [hat]; rfl⟩
    obtain ⟨first, hfirst⟩ := Option.isSome_iff_exists.mp hsome
    obtain ⟨rot', hrot', hfound⟩ := List.exists_of_findSome?_eq_some hfirst
    have hsame := IsTopByte.rot_unique (List.mem_range.mp hrot') hrot
      (rotationAt_eq_some hfound).1 htop
    rw [hsame, hat] at hfound
    rw [hfirst, hfound]

/-! ## §3. Fields of rotations. -/

theorem getLsbD_rotationField {rot i : Nat} (c : Word) (hi : i < 32) :
    (rotationField rot c).getLsbD i = if i < 7 then c.getLsbD i else rot.testBit (i - 7) := by
  have hmask : ∀ j < 32, (0x7f : Word).getLsbD j = decide (j < 7) := by decide
  rw [rotationField, BitVec.getLsbD_or, BitVec.getLsbD_shiftLeft, BitVec.getLsbD_and, hmask i hi,
    BitVec.getLsbD_ofNat]
  by_cases hlow : i < 7
  · simp [hlow]
  · simp [hlow, hi, show i - 7 < 32 by omega]

theorem rotationField_lt {rot : Nat} (c : Word) (hrot : rot < 32) :
    (rotationField rot c).toNat < 4096 := by
  refine Nat.lt_pow_two_of_testBit (n := 12) _ fun i hi => ?_
  rw [BitVec.testBit_toNat]
  by_cases h32 : i < 32
  · have hle : rot < 2 ^ (i - 7) :=
      Nat.lt_of_lt_of_le hrot (Nat.pow_le_pow_right (by decide : 0 < 2) (by omega : 5 ≤ _))
    rw [getLsbD_rotationField c h32, if_neg (by omega), Nat.testBit_lt_two_pow hle]
  · exact BitVec.getLsbD_of_ge _ i (by omega)

theorem rotationField_and_fff {rot : Nat} (c : Word) (hrot : rot < 32) :
    rotationField rot c &&& 0xfff = rotationField rot c := by
  have hlt := rotationField_lt c hrot
  apply BitVec.eq_of_toNat_eq
  rw [BitVec.toNat_and]
  exact (Nat.and_two_pow_sub_one_eq_mod _ 12).trans (Nat.mod_eq_of_lt hlt)

/-- The number of the rotation. -/
theorem rotationField_rot {rot : Nat} (c : Word) (hrot : rot < 32) :
    ((rotationField rot c >>> 7) &&& 0x1f).toNat = rot := by
  have hmask : ∀ j < 32, (0x1f : Word).getLsbD j = decide (j < 5) := by decide
  apply Nat.eq_of_testBit_eq
  intro i
  rw [BitVec.testBit_toNat]
  by_cases h5 : i < 5
  · rw [BitVec.getLsbD_and, BitVec.getLsbD_ushiftRight, getLsbD_rotationField c (by omega),
      if_neg (by omega), hmask i (by omega), Nat.add_sub_cancel_left]
    simp [h5]
  · have hle : rot < 2 ^ i :=
      Nat.lt_of_lt_of_le hrot (Nat.pow_le_pow_right (by decide : 0 < 2) (by omega : 5 ≤ _))
    rw [Nat.testBit_lt_two_pow hle, BitVec.getLsbD_and]
    by_cases h32 : i < 32
    · rw [hmask i h32]
      simp [h5]
    · rw [BitVec.getLsbD_of_ge 0x1f i (by omega), Bool.and_false]

/-- The byte without its top bit, which is put back. -/
theorem rotationField_byte {rot : Nat} {c : Word} (htop : IsTopByte c) :
    0x80 ||| (rotationField rot c &&& 0x7f) = c := by
  have hmask : ∀ j < 32, (0x7f : Word).getLsbD j = decide (j < 7) := by decide
  have htopMask : ∀ j < 32, (0x80 : Word).getLsbD j = decide (j = 7) := by decide
  apply BitVec.eq_of_getLsbD_eq
  intro i hi
  rw [BitVec.getLsbD_or, BitVec.getLsbD_and, getLsbD_rotationField c hi, hmask i hi,
    htopMask i hi]
  obtain hlow | rfl | hhigh := Nat.lt_trichotomy i 7
  · simp [hlow, show i ≠ 7 by omega]
  · simp [htop.top]
  · simp [show ¬ i < 7 by omega, show i ≠ 7 by omega, htop.high hhigh]

/-- The rotations by 0 to 7 have the numbers of the patterns. -/
theorem rotationField_high2 {rot : Nat} (c : Word) (hrot : rot < 32) :
    (rotationField rot c >>> 10) &&& 3 = 0 ↔ rot < 8 := by
  have hfield := rotationField_rot c hrot
  have hshift : (rotationField rot c >>> 10) &&& (3 : Word)
      = ((rotationField rot c >>> 7) &&& 0x1f) >>> 3 := by
    have hmask : ∀ j < 32, (3 : Word).getLsbD j = (0x1f : Word).getLsbD (3 + j) := by decide
    apply BitVec.eq_of_getLsbD_eq
    intro i hi
    rw [BitVec.getLsbD_ushiftRight, BitVec.getLsbD_and, BitVec.getLsbD_and,
      BitVec.getLsbD_ushiftRight, BitVec.getLsbD_ushiftRight, hmask i hi,
      show 7 + (3 + i) = 10 + i by omega]
  rw [hshift, ← BitVec.toNat_inj, BitVec.toNat_ushiftRight, hfield, Nat.shiftRight_eq_div_pow]
  show rot / 8 = 0 ↔ rot < 8
  omega

/-- From a rotation by 8 on, the field stands for the rotated byte. -/
theorem thumbExpandImm_rotationField {rot : Nat} {c : Word} (h8 : 8 ≤ rot) (hrot : rot < 32)
    (htop : IsTopByte c) : thumbExpandImm (rotationField rot c) = c.rotateRight rot := by
  have hform : ¬ (rotationField rot c >>> 10) &&& 3 = 0 := by
    rw [rotationField_high2 c hrot]
    omega
  simp only [thumbExpandImm, rotationField_and_fff c hrot, if_neg hform, rotationField_byte htop,
    rotationField_rot c hrot]

/-! ## §4. The inverse. -/

/-- A byte with its top bit set, rotated right by 1 to 7 so that it wraps around. -/
def WrapsAround (v : Int) : Prop :=
  ∃ rot c, 1 ≤ rot ∧ rot < 8 ∧ IsTopByte c ∧ 0x100 ≤ (c.rotateRight rot).toNat ∧
    v = (c.rotateRight rot).toNat

/-- A field stands for the value. -/
def IsExpanded (v : Int) : Prop :=
  ∃ raw : Word, raw.toNat < 4096 ∧ ((thumbExpandImm raw).toNat : Int) = v

/-- The inverse finds a field for the value exactly when there is one, and what
it finds stands for the value. -/
def ExactAt (v : Int) : Prop :=
  ((thumbExpandImmInverse v).isSome = true ↔ IsExpanded v) ∧
    ∀ raw, thumbExpandImmInverse v = some raw →
      raw.toNat < 4096 ∧ ((thumbExpandImm raw).toNat : Int) = v

theorem eq_ofNat_and_ff (v : Word) : ∃ n < 256, v &&& 0xff = BitVec.ofNat 32 n := by
  refine ⟨v.toNat % 256, Nat.mod_lt _ (by decide), BitVec.eq_of_toNat_eq ?_⟩
  rw [BitVec.toNat_and, BitVec.toNat_ofNat]
  have hmod : v.toNat &&& (0xff : Word).toNat = v.toNat % 256 := Nat.and_two_pow_sub_one_eq_mod _ 8
  rw [hmod]
  omega

/-- The fields of the patterns stand for the bytes repeated. -/
theorem thumbExpandImm_patterns : ∀ n < 256,
    thumbExpandImm (BitVec.ofNat 32 n) = BitVec.ofNat 32 n ∧
    thumbExpandImm ((1 <<< 8) ||| BitVec.ofNat 32 n)
      = (BitVec.ofNat 32 n <<< 16) ||| BitVec.ofNat 32 n ∧
    thumbExpandImm ((2 <<< 8) ||| BitVec.ofNat 32 n)
      = (BitVec.ofNat 32 n <<< 24) ||| (BitVec.ofNat 32 n <<< 8) ∧
    thumbExpandImm ((3 <<< 8) ||| BitVec.ofNat 32 n)
      = (BitVec.ofNat 32 n <<< 24) ||| (BitVec.ofNat 32 n <<< 16) ||| (BitVec.ofNat 32 n <<< 8)
        ||| BitVec.ofNat 32 n := by
  decide +kernel

theorem patternField_lt : ∀ n < 256, (BitVec.ofNat 32 n).toNat < 4096 ∧
    ((1 <<< 8) ||| BitVec.ofNat 32 n).toNat < 4096 ∧
    ((2 <<< 8) ||| BitVec.ofNat 32 n).toNat < 4096 ∧
    ((3 <<< 8) ||| BitVec.ofNat 32 n).toNat < 4096 := by
  intro n hn
  have hbyte : (BitVec.ofNat 32 n).toNat < 2 ^ 12 := by
    rw [BitVec.toNat_ofNat]
    omega
  have hor : ∀ k : Word, k.toNat < 2 ^ 12 → (k ||| BitVec.ofNat 32 n).toNat < 2 ^ 12 := by
    intro k hk
    rw [BitVec.toNat_or]
    exact Nat.or_lt_two_pow hk hbyte
  exact ⟨hbyte, hor _ (by decide), hor _ (by decide), hor _ (by decide)⟩

/-- A found field stands for the value, unless the search took a small rotation. -/
theorem thumbExpandImmInverse_sound {v : Int} {raw : Word}
    (h : thumbExpandImmInverse v = some raw) (hwraps : ¬WrapsAround v) :
    raw.toNat < 4096 ∧ ((thumbExpandImm raw).toNat : Int) = v := by
  unfold thumbExpandImmInverse at h
  simp only [] at h
  split at h
  · cases h
  next hrange =>
  obtain ⟨w, rfl⟩ : ∃ w : Word, v = w.toNat :=
    ⟨BitVec.ofInt 32 v, by rw [BitVec.toNat_ofInt]; omega⟩
  rw [BitVec.ofInt_natCast, BitVec.ofNat_toNat, BitVec.setWidth_eq] at h
  obtain ⟨low, hlow, hlow8⟩ := eq_ofNat_and_ff w
  obtain ⟨second, hsecond, hlow8b⟩ := eq_ofNat_and_ff (w >>> 8)
  rw [hlow8, hlow8b] at h
  split at h
  · next hbyte =>
    rw [← Option.some.inj h]
    have hlt : w.toNat < 256 := by
      have hle : w.toNat ≤ 255 := hbyte
      omega
    have heq : BitVec.ofNat 32 w.toNat = w := by rw [BitVec.ofNat_toNat, BitVec.setWidth_eq]
    have hexpand := (thumbExpandImm_patterns w.toNat hlt).1
    rw [heq] at hexpand
    exact ⟨by omega, by rw [hexpand]⟩
  next hbyte =>
  split at h
  · next hpattern =>
    cases h
    rw [(thumbExpandImm_patterns low hlow).2.1, ← hpattern]
    exact ⟨(patternField_lt low hlow).2.1, rfl⟩
  split at h
  · next hpattern =>
    cases h
    rw [(thumbExpandImm_patterns second hsecond).2.2.1, ← hpattern.1]
    exact ⟨(patternField_lt second hsecond).2.2.1, rfl⟩
  split at h
  · next hpattern =>
    cases h
    rw [(thumbExpandImm_patterns low hlow).2.2.2, ← hpattern]
    exact ⟨(patternField_lt low hlow).2.2.2, rfl⟩
  · obtain ⟨rot, hrot, htop, rfl⟩ := rotationForm_eq_some_iff.mp h
    have hback := rotateRight_rotateLeft w hrot
    by_cases h8 : 8 ≤ rot
    · refine ⟨rotationField_lt _ hrot, ?_⟩
      rw [thumbExpandImm_rotationField h8 hrot htop, hback]
    · have hlarge : 0x100 ≤ w.toNat := by
        have hnot : ¬ w.toNat ≤ 255 := hbyte
        omega
      obtain rfl | hpos := Nat.eq_zero_or_pos rot
      · -- without a rotation the value is a byte
        have hsame : w.rotateLeft 0 = w := by
          apply BitVec.eq_of_getLsbD_eq
          intro i hi
          rw [getLsbD_rotateLeft w hrot hi, show (i + 32 - 0) % 32 = i by omega]
        rw [hsame] at htop
        have hzero := congrArg BitVec.toNat htop.1
        rw [BitVec.toNat_ushiftRight, Nat.shiftRight_eq_div_pow] at hzero
        have hdiv : w.toNat / 256 = 0 := hzero
        omega
      · refine absurd ?_ hwraps
        refine ⟨rot, w.rotateLeft rot, hpos, by omega, htop, ?_, ?_⟩
        · rw [hback]
          exact hlarge
        · rw [hback]

/-- Every pattern is found. -/
theorem inverse_patterns : ∀ n < 1024,
    (thumbExpandImmInverse (thumbExpandImm (BitVec.ofNat 32 n)).toNat).isSome = true := by
  decide +kernel

theorem isTopByte_of_low7 : ∀ n < 128, IsTopByte (0x80 ||| BitVec.ofNat 32 n) := by
  intro n hn
  have hbyte : (0x80 ||| BitVec.ofNat 32 n : Word).toNat < 2 ^ 8 := by
    rw [BitVec.toNat_or]
    refine Nat.or_lt_two_pow (by decide) ?_
    rw [BitVec.toNat_ofNat]
    omega
  constructor
  · apply BitVec.eq_of_toNat_eq
    rw [BitVec.toNat_ushiftRight, Nat.shiftRight_eq_div_pow, Nat.div_eq_of_lt hbyte]
    rfl
  · intro hzero
    have htop := congrArg (fun w : Word => w.getLsbD 7) hzero
    simp at htop

/-- The inverse is not `none` where the last attempt succeeds. -/
theorem inverse_of_rotationForm {w : Word} (h : (rotationForm w).isSome = true) :
    (thumbExpandImmInverse w.toNat).isSome = true := by
  unfold thumbExpandImmInverse
  have hlt := w.isLt
  rw [if_neg (by omega), BitVec.ofInt_natCast, BitVec.ofNat_toNat, BitVec.setWidth_eq]
  simp only []
  split
  · rfl
  split
  · rfl
  split
  · rfl
  split
  · rfl
  · exact h

theorem thumbExpandImmInverse_complete {v : Int} (h : IsExpanded v) :
    (thumbExpandImmInverse v).isSome = true := by
  obtain ⟨raw, hraw, rfl⟩ := h
  by_cases hpattern : raw.toNat < 1024
  · have hfound := inverse_patterns raw.toNat hpattern
    rwa [BitVec.ofNat_toNat, BitVec.setWidth_eq] at hfound
  · -- a field from 1024 on is that of a rotation
    have hmask : raw &&& 0xfff = raw := by
      apply BitVec.eq_of_toNat_eq
      rw [BitVec.toNat_and]
      exact (Nat.and_two_pow_sub_one_eq_mod _ 12).trans (Nat.mod_eq_of_lt hraw)
    have hhigh : ¬ (raw >>> 10) &&& 3 = 0 := by
      intro hzero
      have hnat := congrArg BitVec.toNat hzero
      rw [BitVec.toNat_and, BitVec.toNat_ushiftRight, Nat.shiftRight_eq_div_pow] at hnat
      have hmod : raw.toNat / 2 ^ 10 % 2 ^ 2 = 0 :=
        (Nat.and_two_pow_sub_one_eq_mod _ 2).symm.trans hnat
      omega
    have hexpand : thumbExpandImm raw = (0x80 ||| (raw &&& 0x7f)).rotateRight
        ((raw >>> 7) &&& 0x1f).toNat := by
      simp only [thumbExpandImm, hmask, if_neg hhigh]
    have hrot : ((raw >>> 7) &&& 0x1f).toNat < 32 := by
      rw [BitVec.toNat_and]
      exact Nat.lt_of_le_of_lt Nat.and_le_right (by decide)
    have htop : IsTopByte (0x80 ||| (raw &&& 0x7f)) := by
      have hlt : (raw &&& 0x7f).toNat < 128 := by
        rw [BitVec.toNat_and]
        exact Nat.lt_of_le_of_lt Nat.and_le_right (by decide)
      have hofNat := isTopByte_of_low7 _ hlt
      rwa [BitVec.ofNat_toNat, BitVec.setWidth_eq] at hofNat
    have hback := rotateLeft_rotateRight (0x80 ||| (raw &&& 0x7f)) hrot
    rw [← hexpand] at hback
    rw [← hback] at htop
    have hfound := rotationForm_eq_some_iff.mpr ⟨_, hrot, htop, rfl⟩
    exact inverse_of_rotationForm (by rw [hfound]; rfl)

/-- A value that wraps around gets a field that stands for another value. -/
theorem inverse_wrapped : ∀ rot < 8, ∀ n < 128,
    256 ≤ ((0x80 ||| BitVec.ofNat 32 n).rotateRight rot).toNat →
    thumbExpandImmInverse ((0x80 ||| BitVec.ofNat 32 n).rotateRight rot).toNat
        = some (rotationField rot (0x80 ||| BitVec.ofNat 32 n)) ∧
      thumbExpandImm (rotationField rot (0x80 ||| BitVec.ofNat 32 n))
        ≠ (0x80 ||| BitVec.ofNat 32 n).rotateRight rot := by
  decide +kernel

theorem not_exactAt_of_wrapsAround {v : Int} (h : WrapsAround v) : ¬ExactAt v := by
  intro hexact
  obtain ⟨rot, c, hpos, h8, htop, hlarge, rfl⟩ := h
  have hlt : (rotationField rot c &&& 0x7f).toNat < 128 := by
    rw [BitVec.toNat_and]
    exact Nat.lt_of_le_of_lt Nat.and_le_right (by decide)
  have hbyte : 0x80 ||| BitVec.ofNat 32 (rotationField rot c &&& 0x7f).toNat = c := by
    rw [BitVec.ofNat_toNat, BitVec.setWidth_eq]
    exact rotationField_byte htop
  have hwrapped := inverse_wrapped rot h8 _ hlt
  rw [hbyte] at hwrapped
  obtain ⟨hfound, hother⟩ := hwrapped hlarge
  have hvalue := (hexact.2 _ hfound).2
  exact hother (BitVec.eq_of_toNat_eq (by exact_mod_cast hvalue))

/-- The inverse of the modified immediate is exact at a value unless the value
is a byte with its top bit set that a rotation by 1 to 7 wraps around. -/
theorem thumbExpandImmInverse_exact_iff (v : Int) : ExactAt v ↔ ¬WrapsAround v := by
  constructor
  · intro hexact hwraps
    exact not_exactAt_of_wrapsAround hwraps hexact
  · intro hwraps
    refine ⟨⟨fun hsome => ?_, thumbExpandImmInverse_complete⟩,
      fun raw hraw => thumbExpandImmInverse_sound hraw hwraps⟩
    obtain ⟨raw, hraw⟩ := Option.isSome_iff_exists.mp hsome
    exact ⟨raw, thumbExpandImmInverse_sound hraw hwraps⟩

/-- The value `0x80000040` gets the field of the byte `0x81`. -/
theorem wrapped_notExact : ¬ExactAt 0x80000040 := by
  intro hexact
  have hvalue := (hexact.2 0x81 (by decide)).2
  exact absurd hvalue (by decide)

end Armv8Encode.Armv7.Thumb

/-
  Armv8Encode.Isa.Armv7.ThumbFields — letters that the Thumb encoder inverts.

  A letter carries its bits if the decoder makes one operand of them and the
  encoder, given that operand, puts the same bits into the word whatever the
  word was.  `carriedMask` names the bits of each such letter; a letter that
  the encoder passes over carries none.
-/
import Armv8Encode.Isa.Armv7.Fields
import Armv8Encode.Isa.Armv7.ThumbEncode

namespace Armv8Encode.Armv7.Thumb

open Lib

/-! ## §1. The bits of a letter. -/

def blMask : Word :=
  rangeMask 26 26 ||| rangeMask 16 25 ||| rangeMask 13 13 ||| rangeMask 11 11 ||| rangeMask 0 10

def bCondMask : Word :=
  rangeMask 26 26 ||| rangeMask 16 21 ||| rangeMask 13 13 ||| rangeMask 11 11 ||| rangeMask 0 10

def imm12Mask : Word := rangeMask 0 7 ||| rangeMask 12 14 ||| rangeMask 26 26

/-- A letter with a bit range. -/
def rangedMask (letter : Char) (lo hi : Nat) : Option Word :=
  if 32 ≤ hi then none
  else
    match letter with
    | 'r' | 'R' | 'S' | 'd' | 'D' | 'W' | 'H' | 'a' =>
      if hi - lo < 8 then some (rangeMask lo hi) else none
    | 'B' => if hi - lo < 16 then some (rangeMask lo hi) else none
    | _ => none

/-- A letter without one. -/
def fixedMask (letter : Char) (width : ThumbWidth) : Option Word :=
  match letter, width with
  | 'B', .word => some blMask
  | 'b', .halfword => some b16Mask
  | 'S', .halfword => some (rangeMask 3 5 ||| rangeMask 6 6)
  | 'S', .word => some sMask
  | 'D', .halfword => some (rangeMask 0 2 ||| rangeMask 7 7)
  | 'M', .halfword => some (rangeMask 0 7)
  | 'M', .word => some mImmMask
  | 'N', _ | 'O', _ => some (rangeMask 0 7 ||| rangeMask 8 8)
  | 'I', .halfword => some i16Mask
  | 'I', .word => some imm12Mask
  | 'J', .word => some (imm12Mask ||| rangeMask 16 19)
  | 's', .halfword => some s16Mask
  | 'm', .word | 'n', .word => some mMask
  | 'E', .word | 'F', .word => some eMask
  | 'V', .word | 'K', .word | 'P', .word | 'Q', .word | 'U', .word | 'Y', .word | 'Z', .word
  | 'G', .word | 'H', .word => some 0
  | _, _ => none

/-- The bits that a letter carries, if the encoder inverts it. -/
def carriedMask (bitfield : List Char) (letter : Char) (width : ThumbWidth) : Option Word :=
  match parseBitfield bitfield with
  | some (lo, hi) => rangedMask letter lo hi
  | none => if bitfield.isEmpty then fixedMask letter width else none

/-! ## §2. Branch fields. -/

theorem branchDisplacement_add (address d : U64) : branchDisplacement (address + 4 + d) address = d := by
  unfold branchDisplacement
  bv_omega

theorem toInt_emod_two {x : U64} (h : x.getLsbD 0 = false) : x.toInt % 2 = 0 := by
  have hlow : x.toNat % 2 = 0 := by
    have := Nat.testBit_zero x.toNat
    rw [BitVec.testBit_toNat, h] at this
    simpa using this.symm
  rw [BitVec.toInt_eq_toNat_cond]
  split <;> omega

/-- The low 25 bits of a displacement, where `packBlTarget` takes them. -/
theorem signExtended_and (r : Word) :
    ((r <<< 7).sshiftRight 7) &&& (0x1ffffff : Word) = r &&& (0x1ffffff : Word) := by
  apply BitVec.eq_of_getLsbD_eq
  intro i hi
  interval_cases i <;> simp [BitVec.getElem_sshiftRight]

theorem signExtended_sign (r : Word) :
    (((r <<< 7).sshiftRight 7) >>> 24) &&& (1 : Word) = (r >>> 24) &&& (1 : Word) := by
  apply BitVec.eq_of_getLsbD_eq
  intro i hi
  interval_cases i <;> simp [BitVec.getElem_sshiftRight]

theorem blRaw_and (word : Word) : blRaw word &&& (0x1ffffff : Word) = blRaw word := by
  apply BitVec.eq_of_getLsbD_eq
  intro i hi
  unfold blRaw
  interval_cases i <;> simp

theorem packBlTarget_decode (word base : Word) (address : U64) (slot : Nat) :
    packBlTarget base (decodeBlBTarget word address) address slot
      = .ok (splice base word blMask) := by
  unfold packBlTarget decodeBlBTarget
  dsimp only
  rw [branchDisplacement_add]
  have hodd : ((((blRaw word <<< 7).sshiftRight 7).signExtend 64)).toInt % 2 = 0 := by
    apply toInt_emod_two
    simp [BitVec.getElem_signExtend, BitVec.getElem_sshiftRight, blRaw]
  obtain ⟨hlo, hhi⟩ := toInt_signExtended (blRaw word) 7 (by omega)
  rw [if_neg (by omega), setWidth_signExtend, signExtended_sign, signExtended_and, blRaw_and]
  rw [placeField_of_eq base word (by omega), placeField_of_eq _ word (by omega),
    placeField_of_eq _ word (by omega), placeField_of_eq _ word (by omega),
    placeField_of_eq _ word (by omega)]
  · simp only [splice_splice]
    rfl
  all_goals
    apply BitVec.eq_of_getLsbD_eq
    intro i hi
    rw [extractField, getLsbD_field word (by omega)]
    unfold blRaw
    interval_cases i <;> simp

/-- A sign-extended value of `n` bits: its range, and twice it. -/
theorem toInt_signExtend (v : U64) {n : Nat} (hpos : 0 < n) (hn : n < 63) :
    -2 ^ (n - 1) ≤ (signExtend v n).toInt ∧ (signExtend v n).toInt < 2 ^ (n - 1)
      ∧ (signExtend v n * 2).toInt = (signExtend v n).toInt * 2 := by
  have hv : signExtend v n = (v <<< (64 - n)).sshiftRight (64 - n) := by
    rw [signExtend, if_neg (by omega)]
  have hlo := BitVec.le_toInt (v <<< (64 - n))
  have hhi := BitVec.toInt_lt (x := v <<< (64 - n))
  have hsplit : (2 : Int) ^ 63 = 2 ^ (n - 1) * 2 ^ (64 - n) := by
    rw [← pow_add]
    congr 1
    omega
  have hscale : (0 : Int) < 2 ^ (64 - n) := by positivity
  have hsmall : (2 : Int) ^ (n - 1) ≤ 2 ^ 61 := pow_le_pow_right₀ (by norm_num) (by omega)
  have hrange : -2 ^ (n - 1) ≤ (signExtend v n).toInt
      ∧ (signExtend v n).toInt < 2 ^ (n - 1) := by
    rw [hv, BitVec.toInt_sshiftRight, Int.shiftRight_eq_div_pow]
    simp only [Nat.reduceSub] at hlo hhi
    push_cast
    constructor
    · rw [Int.le_ediv_iff_mul_le hscale, neg_mul, ← hsplit]
      exact hlo
    · rw [Int.ediv_lt_iff_lt_mul hscale, ← hsplit]
      exact hhi
  refine ⟨hrange.1, hrange.2, ?_⟩
  rw [BitVec.toInt_mul, show (2 : U64).toInt = 2 from rfl]
  apply Int.bmod_eq_of_le <;> norm_num <;> omega

theorem getLsbD_signExtend (v : U64) {n i : Nat} (hn : n < 64) (hi : i < n) :
    (signExtend v n).getLsbD i = v.getLsbD i := by
  have h1 : ¬ 64 ≤ i := by omega
  have h2 : 64 - n + i < 64 := by omega
  have h3 : ¬ 64 - n + i < 64 - n := by omega
  rw [signExtend, if_neg (by omega), BitVec.getLsbD_sshiftRight]
  simp only [h1, decide_false, Bool.not_false, Bool.true_and, h2, ↓reduceIte,
    BitVec.getLsbD_shiftLeft, h3, decide_true, Nat.add_sub_cancel_left]

theorem packShortBranch_decode (word base : Word) (address : U64) (slot : Nat) {lo hi : Nat}
    (hhi : hi < 32) :
    packShortBranch base lo hi
        (address + 4 + signExtend ((extractField word lo hi).setWidth 64) (hi - lo + 1) * 2)
        address slot
      = .ok (splice base word (rangeMask lo hi)) := by
  obtain ⟨hmin, hmax, htwice⟩ := toInt_signExtend ((extractField word lo hi).setWidth 64)
    (n := hi - lo + 1) (by omega) (by omega)
  unfold packShortBranch
  dsimp only
  rw [branchDisplacement_add, htwice, if_neg (by omega), Int.mul_ediv_cancel _ (by omega),
    if_neg (by omega), ofInt_toInt, placeField_of_eq base word hhi]
  apply BitVec.eq_of_getLsbD_eq
  intro i hi32
  rw [BitVec.getLsbD_and, getLsbD_ones (by omega)]
  by_cases hi : i < hi - lo + 1
  · rw [BitVec.getLsbD_setWidth, getLsbD_signExtend _ (by omega) hi, BitVec.getLsbD_setWidth]
    simp [hi32, hi, show i < 64 by omega]
  · rw [extractField, getLsbD_field word (by omega)]
    simp [hi]

/-- The bits that a conditional branch writes.  The encoder takes J1 and J2 one bit too
low in the displacement, so these are not always the bits of the word. -/
theorem packBCondWideTarget_ok (base : Word) {target address : U64} (slot : Nat)
    (heven : (branchDisplacement target address).toInt % 2 = 0)
    (hlo : -2 ^ 20 ≤ (branchDisplacement target address).toInt)
    (hhi : (branchDisplacement target address).toInt < 2 ^ 20) :
    ∃ x, packBCondWideTarget base target address slot = .ok (splice base x bCondMask) := by
  unfold packBCondWideTarget
  dsimp only
  rw [if_neg (by omega)]
  simp only [placeField_eq_splice, splice_splice_source]
  exact ⟨_, rfl⟩

theorem toInt_bCondTarget (word : Word) (address : U64) :
    (branchDisplacement (decodeBCondWideTarget word address) address).toInt
      = (signExtend ((bCondRaw word).setWidth 64) 20).toInt * 2 := by
  unfold decodeBCondWideTarget
  rw [branchDisplacement_add]
  exact (toInt_signExtend _ (by omega) (by omega)).2.2

theorem packBCondWideTarget_decode (word base : Word) (address : U64) (slot : Nat) :
    ∃ x, packBCondWideTarget base (decodeBCondWideTarget word address) address slot
      = .ok (splice base x bCondMask) := by
  obtain ⟨hmin, hmax, -⟩ := toInt_signExtend ((bCondRaw word).setWidth 64)
    (n := 20) (by omega) (by omega)
  apply packBCondWideTarget_ok
  all_goals
    rw [toInt_bCondTarget]
    omega

/-! ## §3. Letters. -/

/-- The decoder makes one operand of the letter's bits and the encoder packs it as
those bits. -/
def Carries (bitfield : List Char) (letter : Char) (width : ThumbWidth) (mask : Word) : Prop :=
  ∀ (word : Word) (address : U64), ∃ operand,
    decodeCode bitfield letter word address width = [operand]
      ∧ ∀ (base : Word) (slot : Nat),
        packOperand bitfield letter operand slot base address width
          = .ok (splice base word mask)

theorem ranged_of_parse {bitfield : List Char} {lo hi : Nat}
    (h : parseBitfield bitfield = some (lo, hi)) (f : Nat → Nat → DecodedOperand) :
    ranged bitfield f = [f lo hi] := by
  unfold ranged
  rw [h]

theorem packOperand_ranged {bitfield : List Char} {letter : Char} {width : ThumbWidth}
    {lo hi : Nat} (h : parseBitfield bitfield = some (lo, hi))
    (hletter : isRangedLetter letter width = true) (operand : DecodedOperand) (slot : Nat)
    (base : Word) (address : U64) :
    packOperand bitfield letter operand slot base address width
      = packRanged letter lo hi operand slot base address := by
  unfold packOperand unwrapBitfield
  rw [isEmpty_of_parseBitfield h, hletter, h]
  rfl

theorem packRegister_extractField (word base : Word) (slot : Nat) {lo hi : Nat} (hhi : hi < 32)
    (hlen : hi - lo < 8) :
    packRegister base lo hi ⟨.r, (extractField word lo hi).setWidth 8⟩ slot
      = .ok (splice base word (rangeMask lo hi)) := by
  have hlt := toNat_extractField_lt word lo hhi
  unfold packRegister
  dsimp only
  rw [toNat_byte_extractField word lo hhi hlen, if_neg (by omega),
    setWidth_byte_extractField word hhi hlen, placeField_extractField word base hhi]

/-- A field scaled when decoded and divided when packed. -/
theorem packScaled_extractField (word base : Word) (slot : Nat) {lo hi scale : Nat}
    (hhi : hi < 32) (hlen : hi - lo < 8) (hpos : 0 < scale) (hscale : scale ≤ 4) :
    packScaled base lo hi ((extractField word lo hi * BitVec.ofNat 32 scale).toNat : Int) scale slot
      = .ok (splice base word (rangeMask lo hi)) := by
  have hlt := toNat_extractField_lt word lo hhi
  have hle : 2 ^ (hi - lo + 1) ≤ 2 ^ 8 := Nat.pow_le_pow_right (by omega) (by omega)
  have hnat : (extractField word lo hi * BitVec.ofNat 32 scale).toNat
      = (extractField word lo hi).toNat * scale := by
    rw [BitVec.toNat_mul, BitVec.toNat_ofNat, Nat.mod_eq_of_lt (a := scale) (by omega)]
    apply Nat.mod_eq_of_lt
    calc (extractField word lo hi).toNat * scale ≤ 2 ^ 8 * 4 := Nat.mul_le_mul (by omega) hscale
      _ < 2 ^ 32 := by omega
  unfold packScaled
  rw [hnat, Nat.cast_mul, if_neg (by simp), Int.mul_ediv_cancel _ (by omega)]
  exact placeUnsigned_extractField word base slot hhi

theorem packForward_extractField (word base : Word) (slot : Nat) {lo hi : Nat} (hhi : hi < 32)
    (hlen : hi - lo < 8) :
    packForward base lo hi (((extractField word lo hi).setWidth 64 * 4 : U64).toInt) 4 slot
      = .ok (splice base word (rangeMask lo hi)) := by
  have hlt := toNat_extractField_lt word lo hhi
  have hle : 2 ^ (hi - lo + 1) ≤ 2 ^ 8 := Nat.pow_le_pow_right (by omega) (by omega)
  have hnat : ((extractField word lo hi).setWidth 64 * (4 : U64)).toNat
      = (extractField word lo hi).toNat * 4 := by
    rw [BitVec.toNat_mul, BitVec.toNat_setWidth, show (4 : U64).toNat = 4 from rfl]
    omega
  have hint : ((extractField word lo hi).setWidth 64 * (4 : U64)).toInt
      = ((extractField word lo hi).toNat : Int) * 4 := by
    rw [BitVec.toInt_eq_toNat_of_lt (by omega), hnat]
    push_cast
    rfl
  unfold packForward
  dsimp only
  rw [hint, if_neg (by omega), Int.mul_ediv_cancel _ (by omega), ofInt_toNat, if_neg (by omega),
    placeField_extractField word base hhi]

theorem packRanged_D {v : Int} (hv : 1 ≤ v) (lo hi slot : Nat) (base : Word) (address : U64) :
    packRanged 'D' lo hi (.immediate v) slot base address
      = placeUnsigned base lo hi (v - 1) slot := by
  show (if v < 1 then Except.error (EncodeError.immediateOutOfRange slot v (hi - lo + 1))
    else placeUnsigned base lo hi (v - 1) slot) = _
  rw [if_neg (by omega)]

/-- The letters whose bit range the decoder reads whatever the width of the row is. -/
theorem decodeCode_ranged {bitfield : List Char} {lo hi : Nat}
    (h : parseBitfield bitfield = some (lo, hi)) (word : Word) (address : U64)
    (width : ThumbWidth) :
    decodeCode bitfield 'S' word address width = [registerOperand word lo hi]
      ∧ decodeCode bitfield 'D' word address width
        = [.immediate ((extractField word lo hi).toNat + 1)]
      ∧ decodeCode bitfield 'H' word address width
        = [immediateOf (extractField word lo hi * 2)]
      ∧ decodeCode bitfield 'a' word address width
        = [.pcRelative (((address + 4) &&& ~~~ 3#64)
            + (extractField word lo hi).setWidth 64 * 4)] := by
  have hbits := isEmpty_of_parseBitfield h
  simp only [decodeCode, hbits, Bool.not_false, if_true]
  exact ⟨ranged_of_parse h _, ranged_of_parse h _, ranged_of_parse h _, ranged_of_parse h _⟩

theorem ranged_carries {bitfield : List Char} {letter : Char} {lo hi : Nat} {mask : Word}
    (h : parseBitfield bitfield = some (lo, hi)) (hmask : rangedMask letter lo hi = some mask)
    (width : ThumbWidth) : Carries bitfield letter width mask := by
  intro word address
  unfold rangedMask at hmask
  split at hmask
  · cases hmask
  have hhi : hi < 32 := by omega
  obtain ⟨hS, hD, hH, ha⟩ := decodeCode_ranged h word address width
  split at hmask
  · -- r
    obtain ⟨hlen, ⟨⟩⟩ := Option.ite_none_right_eq_some.mp hmask
    refine ⟨_, ranged_of_parse h _, fun base slot => ?_⟩
    rw [packOperand_ranged h rfl]
    exact packRegister_extractField word base slot hhi hlen
  · -- R
    obtain ⟨hlen, ⟨⟩⟩ := Option.ite_none_right_eq_some.mp hmask
    refine ⟨_, ranged_of_parse h _, fun base slot => ?_⟩
    rw [packOperand_ranged h rfl]
    exact packRegister_extractField word base slot hhi hlen
  · -- S
    obtain ⟨hlen, ⟨⟩⟩ := Option.ite_none_right_eq_some.mp hmask
    refine ⟨_, hS, fun base slot => ?_⟩
    rw [packOperand_ranged h rfl]
    exact packRegister_extractField word base slot hhi hlen
  · -- d
    obtain ⟨hlen, ⟨⟩⟩ := Option.ite_none_right_eq_some.mp hmask
    refine ⟨_, ranged_of_parse h _, fun base slot => ?_⟩
    rw [packOperand_ranged h rfl]
    exact placeUnsigned_extractField word base slot hhi
  · -- D
    obtain ⟨hlen, ⟨⟩⟩ := Option.ite_none_right_eq_some.mp hmask
    refine ⟨_, hD, fun base slot => ?_⟩
    rw [packOperand_ranged h rfl]
    rw [packRanged_D (by omega), Int.add_sub_cancel]
    exact placeUnsigned_extractField word base slot hhi
  · -- W
    obtain ⟨hlen, ⟨⟩⟩ := Option.ite_none_right_eq_some.mp hmask
    refine ⟨_, ranged_of_parse h _, fun base slot => ?_⟩
    rw [packOperand_ranged h rfl]
    exact packScaled_extractField word base slot hhi hlen (by omega : 0 < 4) (by omega : 4 ≤ 4)
  · -- H
    obtain ⟨hlen, ⟨⟩⟩ := Option.ite_none_right_eq_some.mp hmask
    refine ⟨_, hH, fun base slot => ?_⟩
    rw [packOperand_ranged h rfl]
    exact packScaled_extractField word base slot hhi hlen (by omega : 0 < 2) (by omega : 2 ≤ 4)
  · -- a
    obtain ⟨hlen, ⟨⟩⟩ := Option.ite_none_right_eq_some.mp hmask
    refine ⟨_, ha, fun base slot => ?_⟩
    rw [packOperand_ranged h rfl]
    show packForward base lo hi (_ - _ : U64).toInt 4 slot = _
    rw [BitVec.add_comm, BitVec.add_sub_cancel]
    exact packForward_extractField word base slot hhi hlen
  · -- B
    obtain ⟨hlen, ⟨⟩⟩ := Option.ite_none_right_eq_some.mp hmask
    refine ⟨.branchTarget (address + 4
      + signExtend ((extractField word lo hi).setWidth 64) (hi - lo + 1) * 2), ?_,
      fun base slot => ?_⟩
    · simp only [decodeCode, h]
    · rw [packOperand_ranged h rfl]
      exact packShortBranch_decode word base address slot hhi
  · cases hmask

theorem packImm12 {v : Word} (word base : Word)
    (hlow : v &&& (0xff : Word) = word &&& (0xff : Word))
    (hmid : (v >>> 8) &&& (7 : Word) = (word >>> 12) &&& (7 : Word))
    (htop : (v >>> 11) &&& (1 : Word) = (word >>> 26) &&& (1 : Word)) :
    placeImm12 base v = splice base word imm12Mask := by
  unfold placeImm12
  dsimp only
  rw [hlow, hmid, htop, placeField_of_eq base word (by omega)]
  · rw [placeField_splice _ _ (by omega)]
    · rw [placeField_splice _ _ (by omega)]
      · rfl
      · apply BitVec.eq_of_getLsbD_eq
        intro i hi
        rw [extractField, getLsbD_field word (by omega)]
        interval_cases i <;> simp
    · apply BitVec.eq_of_getLsbD_eq
      intro i hi
      rw [extractField, getLsbD_field word (by omega)]
      interval_cases i <;> simp
  · apply BitVec.eq_of_getLsbD_eq
    intro i hi
    rw [extractField, getLsbD_field word (by omega)]
    interval_cases i <;> simp

/-- A register whose number is split over three bits and a fourth. -/
theorem placeRegister_split {word base : Word} {r : Byte} {lo hi top : Nat} (hlo : hi = lo + 2)
    (hhi : hi < 32) (htop : top < 32)
    (hr : r = ((((word >>> top) &&& (1 : Word)) <<< 3)
      ||| ((word >>> lo) &&& (7 : Word))).setWidth 8) :
    placeField (placeField base lo hi ((r &&& 7).setWidth 32)) top top
        (((r >>> 3) &&& 1).setWidth 32)
      = splice base word (rangeMask lo hi ||| rangeMask top top) := by
  subst hlo hr
  rw [placeField_of_eq base word hhi]
  · rw [placeField_splice _ _ htop]
    apply BitVec.eq_of_getLsbD_eq
    intro i hi
    rw [extractField, getLsbD_field word (by omega)]
    interval_cases i <;> simp
  · apply BitVec.eq_of_getLsbD_eq
    intro i hi
    rw [extractField, getLsbD_field word (by omega)]
    interval_cases i <;> simp

theorem opaque_carries {bitfield : List Char} {letter : Char} {width : ThumbWidth} {mask : Word}
    (hdecode : ∀ word address, decodeCode bitfield letter word address width
      = [opaqueOf word mask])
    (hpack : ∀ operand slot base address, packOperand bitfield letter operand slot base address
      width = packOpaque operand slot "OpaqueBits-expected" base) :
    Carries bitfield letter width mask := by
  intro word address
  refine ⟨_, hdecode word address, fun base slot => ?_⟩
  rw [hpack]
  show Except.ok (splice base (word &&& mask) mask) = _
  rw [splice_and_self]

/-- A letter that the encoder passes over. -/
theorem skipped_carries {letter : Char} {width : ThumbWidth}
    (hdecode : ∀ word address, ∃ operand, decodeCode [] letter word address width = [operand])
    (hpack : ∀ operand slot base address, packOperand [] letter operand slot base address
      width = .ok base) : Carries [] letter width 0#32 := by
  intro word address
  obtain ⟨operand, h⟩ := hdecode word address
  refine ⟨operand, h, fun base slot => ?_⟩
  rw [hpack, splice_zero]

/-- The low registers of a list, as a byte of the word. -/
theorem registerByte_carries : Carries [] 'M' .halfword (rangeMask 0 7) := by
  intro word address
  refine ⟨.registerList ((word &&& 0xff).setWidth 16), rfl, fun base slot => ?_⟩
  have hlow : (word &&& (0xff : Word)).setWidth 16 &&& ~~~ 0xff#16 = 0#16 := by
    apply BitVec.eq_of_getLsbD_eq
    intro i hi
    interval_cases i <;> simp
  show (if (word &&& (0xff : Word)).setWidth 16 &&& ~~~ 0xff#16 ≠ 0
      then Except.error (EncodeError.immediateOutOfRange slot _ 8)
      else .ok (placeField base 0 7 (((word &&& (0xff : Word)).setWidth 16).setWidth 32))) = _
  rw [hlow, if_neg (by simp), placeField_of_eq base word (by omega)]
  apply BitVec.eq_of_getLsbD_eq
  intro i hi
  rw [extractField, getLsbD_field word (by omega)]
  interval_cases i <;> simp

/-- The low registers of a list and one more bit, which stands for a high register. -/
theorem placeRegisterList {word base : Word} {mask : BitVec 16} {top : Nat}
    (hmask : mask = ((word &&& 0xff#32) ||| (((word >>> 8) &&& 1#32) <<< top)).setWidth 16)
    (htop : top = 14 ∨ top = 15) :
    placeField (placeField base 0 7 ((mask &&& 0xff).setWidth 32)) 8 8
        (((mask >>> top) &&& 1).setWidth 32)
      = splice base word (rangeMask 0 7 ||| rangeMask 8 8) := by
  subst hmask
  rw [placeField_of_eq base word (by omega)]
  · rw [placeField_splice _ _ (by omega)]
    apply BitVec.eq_of_getLsbD_eq
    intro i hi
    rw [extractField, getLsbD_field word (by omega)]
    rcases htop with rfl | rfl <;> interval_cases i <;> simp
  · apply BitVec.eq_of_getLsbD_eq
    intro i hi
    rw [extractField, getLsbD_field word (by omega)]
    rcases htop with rfl | rfl <;> interval_cases i <;> simp

theorem imm12_carries : Carries [] 'I' .word imm12Mask := by
  intro word address
  let v : Word := (((word >>> 26) &&& (1 : Word)) <<< (3 + 8))
    ||| (((word >>> 12) &&& (7 : Word)) <<< 8) ||| (word &&& (0xff : Word))
  have hv : v.toNat < 2 ^ 12 := by
    apply toNat_lt_of_high_zero
    intro i hlo hi
    interval_cases i <;> simp [v]
  refine ⟨.immediate v.toNat, rfl, fun base slot => ?_⟩
  show (if (v.toNat : Int) < 0 ∨ 0xfff < (v.toNat : Int)
      then Except.error (EncodeError.immediateOutOfRange slot _ 12)
      else .ok (placeImm12 base (BitVec.ofInt 32 v.toNat))) = _
  rw [if_neg (by omega), ofInt_toNat, packImm12 word]
  all_goals
    apply BitVec.eq_of_getLsbD_eq
    intro i hi
    interval_cases i <;> simp [v]

theorem imm16_carries : Carries [] 'J' .word (imm12Mask ||| rangeMask 16 19) := by
  intro word address
  let v : Word := (((word >>> 16) &&& (0xf : Word)) <<< 12)
    ||| (((word >>> 26) &&& (1 : Word)) <<< 11) ||| (((word >>> 12) &&& (7 : Word)) <<< 8)
    ||| (word &&& (0xff : Word))
  have hv : v.toNat < 2 ^ 16 := by
    apply toNat_lt_of_high_zero
    intro i hlo hi
    interval_cases i <;> simp [v]
  refine ⟨.immediate v.toNat, rfl, fun base slot => ?_⟩
  show (if (v.toNat : Int) < 0 ∨ 0xffff < (v.toNat : Int)
      then Except.error (EncodeError.immediateOutOfRange slot _ 16)
      else .ok (placeField (placeImm12 base (BitVec.ofInt 32 v.toNat)) 16 19
        ((BitVec.ofInt 32 v.toNat >>> 12) &&& (0xf : Word)))) = _
  rw [if_neg (by omega), ofInt_toNat, packImm12 word, placeField_splice _ _ (by omega)]
  · apply BitVec.eq_of_getLsbD_eq
    intro i hi
    rw [extractField, getLsbD_field word (by omega)]
    interval_cases i <;> simp [v]
  all_goals
    apply BitVec.eq_of_getLsbD_eq
    intro i hi
    interval_cases i <;> simp [v]

theorem packOperand_B_word (target : U64) (base : Word) (address : U64) (slot : Nat) :
    packOperand [] 'B' (.branchTarget target) slot base address .word
      = packBlTarget base target address slot := rfl

theorem packOperand_b_word (target : U64) (base : Word) (address : U64) (slot : Nat) :
    packOperand [] 'b' (.branchTarget target) slot base address .word
      = packBCondWideTarget base target address slot := rfl

/-- The letters without a bit range that the encoder inverts. -/
theorem fixed_carries {letter : Char} {width : ThumbWidth} {mask : Word}
    (hmask : fixedMask letter width = some mask) : Carries [] letter width mask := by
  unfold fixedMask at hmask
  split at hmask <;> cases hmask
  · -- B
    intro word address
    exact ⟨.branchTarget (decodeBlBTarget word address), rfl, fun base slot =>
      (packOperand_B_word _ base address slot).trans (packBlTarget_decode word base address slot)⟩
  · -- b
    exact opaque_carries (fun _ _ => rfl) (fun _ _ _ _ => rfl)
  · -- S, a high register
    intro word address
    exact ⟨_, rfl, fun base slot => congrArg Except.ok
      (placeRegister_split (by omega) (by omega) (by omega) rfl)⟩
  · -- S, a shifted register
    intro word address
    refine ⟨_, rfl, fun base slot => ?_⟩
    show Except.ok (splice base (word &&& sMask) sMask) = _
    rw [splice_and_self]
  · -- D
    intro word address
    exact ⟨_, rfl, fun base slot => congrArg Except.ok
      (placeRegister_split (by omega) (by omega) (by omega) rfl)⟩
  · exact registerByte_carries
  · -- M, a modified immediate
    intro word address
    refine ⟨_, rfl, fun base slot => ?_⟩
    show Except.ok (splice base (word &&& mImmMask) mImmMask) = _
    rw [splice_and_self]
  · -- N
    intro word address
    exact ⟨_, rfl, fun base slot => congrArg Except.ok (placeRegisterList rfl (.inl rfl))⟩
  · -- O
    intro word address
    exact ⟨_, rfl, fun base slot => congrArg Except.ok (placeRegisterList rfl (.inr rfl))⟩
  · -- I
    exact opaque_carries (fun _ _ => rfl) (fun _ _ _ _ => rfl)
  · exact imm12_carries
  · exact imm16_carries
  · exact opaque_carries (fun _ _ => rfl) (fun _ _ _ _ => rfl)
  · exact opaque_carries (fun _ _ => rfl) (fun _ _ _ _ => rfl)
  · exact opaque_carries (fun _ _ => rfl) (fun _ _ _ _ => rfl)
  · exact opaque_carries (fun _ _ => rfl) (fun _ _ _ _ => rfl)
  · exact opaque_carries (fun _ _ => rfl) (fun _ _ _ _ => rfl)
  all_goals exact skipped_carries (fun _ _ => ⟨_, rfl⟩) (fun _ _ _ _ => rfl)

theorem carriedMask_carries {bitfield : List Char} {letter : Char} {width : ThumbWidth}
    {mask : Word} (hmask : carriedMask bitfield letter width = some mask) :
    Carries bitfield letter width mask := by
  unfold carriedMask at hmask
  split at hmask
  · exact ranged_carries ‹_› hmask width
  · split at hmask
    · have hempty : bitfield = [] := List.isEmpty_iff.mp ‹_›
      subst hempty
      exact fixed_carries hmask
    · cases hmask

end Armv8Encode.Armv7.Thumb

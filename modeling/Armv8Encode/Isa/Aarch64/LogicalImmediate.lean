/-
  Armv8Encode.Isa.Aarch64.LogicalImmediate — which bitmask immediates encode.

  The encoder searches the `N:immr:imms` triples for one that decodes to the
  value.  What a triple decodes to is a run of ones, rotated within an element
  of `2 ^ k` bits and repeated.  The decoder takes `N = 1` for a 32-bit
  register too and cuts its 64-bit pattern, so besides the bitmask immediates
  the encoder accepts zero and all ones there, with an encoding the
  architecture reserves.

  Main results:
    * `getLsbD_logicalPattern` — the bits of a decoded pattern.
    * `decodes_iff` — which values some triple decodes to.
    * `encodeLogicalImmediate_exact_iff` — when the encoder is exact.
-/
import Armv8Encode.Isa.Aarch64.BranchCodec
import Armv8Encode.Lib.Runs

namespace Armv8Encode

open Lib

/-! ## §1. The bits of the decoder's pattern. -/

theorem getLsbD_onesOf {n i : Nat} (h : n ≤ 64) : (onesOf n).getLsbD i = decide (i < n) :=
  getLsbD_ones h

theorem getLsbD_rotateRightWithWidth {value : U64} {rotate width : Nat} (hwidth : width ≤ 64)
    (hrotate : rotate < width) (hvalue : ∀ i, width ≤ i → value.getLsbD i = false) (i : Nat) :
    (rotateRightWithWidth value rotate width).getLsbD i
      = (decide (i < width) && value.getLsbD ((i + rotate) % width)) := by
  unfold rotateRightWithWidth
  rw [Nat.mod_eq_of_lt hrotate]
  by_cases hi : i < width
  swap
  · by_cases hzero : rotate = 0 <;> simp [hzero, getLsbD_onesOf hwidth, hi]
  by_cases hzero : rotate = 0
  · simp [hzero, getLsbD_onesOf hwidth, hi, Nat.mod_eq_of_lt hi]
  · rw [mod_of_lt_two_mul (show i + rotate < 2 * width by omega)]
    simp only [hzero, if_false, BitVec.getLsbD_and, BitVec.getLsbD_or, BitVec.getLsbD_ushiftRight,
      BitVec.getLsbD_shiftLeft, getLsbD_onesOf hwidth, hi, decide_true, Bool.and_true,
      Bool.true_and, show i < 64 by omega]
    -- the bits that fall out at the bottom come back in at the top
    by_cases hwrap : i + rotate < width
    · simp [hwrap, show i < width - rotate by omega, Nat.add_comm rotate i]
    · have hout : value.getLsbD (rotate + i) = false := hvalue _ (by omega)
      simp [hwrap, show ¬ i < width - rotate by omega, hout,
        show i - (width - rotate) = i + rotate - width by omega]

theorem getLsbD_foldl_or {α : Type} (f : α → U64) (l : List α) (start : U64) (i : Nat) :
    (l.foldl (fun result k => result ||| f k) start).getLsbD i
      = (start.getLsbD i || l.any (fun k => (f k).getLsbD i)) := by
  induction l generalizing start with
  | nil => simp
  | cons k l ih => simp [ih, Bool.or_assoc]

theorem getLsbD_replicateTo64 {value : U64} {width i : Nat} (hwidth : 0 < width)
    (hdvd : width ∣ 64) (hvalue : ∀ j, width ≤ j → value.getLsbD j = false) (hi : i < 64) :
    (replicateTo64 value width).getLsbD i = value.getLsbD (i % width) := by
  unfold replicateTo64
  rw [getLsbD_foldl_or]
  have hcopy : i / width < 64 / width := Nat.div_lt_div_of_lt_of_dvd hdvd hi
  have hdiv := Nat.div_add_mod i width
  rw [Nat.mul_comm] at hdiv
  have hown : (value <<< (i / width * width)).getLsbD i = value.getLsbD (i % width) := by
    rw [BitVec.getLsbD_shiftLeft, show i - i / width * width = i % width by omega]
    simp [hi, show ¬ i < i / width * width by omega]
  rw [show BitVec.getLsbD (0 : U64) i = false from BitVec.getLsbD_zero, Bool.false_or,
    Bool.eq_iff_iff, List.any_eq_true]
  constructor
  · intro ⟨k, _, hbit⟩
    -- a copy with bit `i` set is the one that covers `i`
    rw [BitVec.getLsbD_shiftLeft] at hbit
    simp only [hi, decide_true, Bool.true_and, Bool.and_eq_true, Bool.not_eq_true',
      decide_eq_false_iff_not, Nat.not_lt] at hbit
    have hinside : i - k * width < width := by
      by_contra hpast
      rw [hvalue _ (by omega)] at hbit
      simp at hbit
    have hk : i / width = k := by
      rw [Nat.div_eq_iff hwidth]
      omega
    rw [← hown, hk, BitVec.getLsbD_shiftLeft]
    simp [hi, hbit]
  · intro hbit
    exact ⟨i / width, List.mem_range.mpr hcopy, hown.trans hbit⟩

/-- The pattern of a triple: `ones` set bits, rotated within `2 ^ k`. -/
def logicalPattern (k ones rotate : Nat) : U64 :=
  replicateTo64 (rotateRightWithWidth (onesOf ones) rotate (2 ^ k)) (2 ^ k)

theorem getLsbD_logicalPattern {k ones rotate i : Nat} (hk : k ≤ 6) (hones : ones ≤ 2 ^ k)
    (hrotate : rotate < 2 ^ k) (hi : i < 64) :
    (logicalPattern k ones rotate).getLsbD i = runBit (2 ^ k) ones rotate i := by
  have hle : 2 ^ k ≤ 64 := Nat.pow_le_pow_right (by omega) hk
  have hdvd : 2 ^ k ∣ 64 := Nat.pow_dvd_pow 2 hk
  have hpos : 0 < 2 ^ k := Nat.two_pow_pos k
  have hhigh : ∀ j, 2 ^ k ≤ j → (onesOf ones).getLsbD j = false := by
    intro j hj
    rw [getLsbD_onesOf (by omega), decide_eq_false_iff_not]
    omega
  have hrotated := getLsbD_rotateRightWithWidth hle hrotate hhigh
  unfold logicalPattern
  rw [getLsbD_replicateTo64 hpos hdvd _ hi, hrotated]
  · have hmod := Nat.mod_lt i hpos
    rw [getLsbD_onesOf (by omega), Nat.mod_add_mod]
    simp [hmod, runBit]
  · intro j hj
    rw [hrotated]
    simp [show ¬ j < 2 ^ k by omega]

/-! ## §2. What a triple decodes to. -/

/-- The fields `N`, `immr` and `imms`. -/
def logicalFields (n immr imms : Nat) : Word := placeAt n 22 ||| placeAt immr 16 ||| placeAt imms 10

theorem mem_logicalImmediateFields {fields : Word} :
    fields ∈ logicalImmediateFields ↔
      ∃ n < 2, ∃ immr < 64, ∃ imms < 64, logicalFields n immr imms = fields := by
  simp [logicalImmediateFields, logicalFields]

section Fields

variable {n immr imms : Nat}

/-- The word the search decodes for a triple. -/
def logicalCandidate (word : Word) (n immr imms : Nat) : Word :=
  (word &&& placeAt 1 31) ||| logicalFields n immr imms

theorem vacant_sf (word : Word) {lo len : Nat} (h : lo + len ≤ 31) :
    Vacant (word &&& placeAt 1 31) lo len := by
  unfold Vacant
  have hone : (BitVec.ofNat 32 1).toNat < 2 ^ 1 := by decide
  rw [BitVec.extractLsb'_and, placeAt, extractLsb'_shiftLeft_disjoint hone (.inr h),
    BitVec.and_zero]

theorem logicalCandidate_eq (word : Word) (n immr imms : Nat) :
    logicalCandidate word n immr imms
      = ((word &&& placeAt 1 31) ||| placeAt n 22 ||| placeAt immr 16) ||| placeAt imms 10 := by
  unfold logicalCandidate logicalFields
  simp only [BitVec.or_assoc]

/-- The fields of a candidate read back, and its register width is the word's. -/
theorem logicalCandidate_bits (word : Word) (hn : n < 2) (himmr : immr < 64) (himms : imms < 64) :
    bitsOf (logicalCandidate word n immr imms) 22 1 = n ∧
    bitsOf (logicalCandidate word n immr imms) 16 6 = immr ∧
    bitsOf (logicalCandidate word n immr imms) 10 6 = imms ∧
    (logicalCandidate word n immr imms).getLsbD 31 = word.getLsbD 31 := by
  have hn' : n < 2 ^ 1 := hn
  have himmr' : immr < 2 ^ 6 := himmr
  have himms' : imms < 2 ^ 6 := himms
  rw [logicalCandidate_eq]
  refine ⟨?_, ?_, ?_, ?_⟩
  · rw [bitsOf_congr (by omega) (extract_or_placeAt _ himms' (.inl (by omega))),
      bitsOf_congr (by omega) (extract_or_placeAt _ himmr' (.inl (by omega))),
      bitsOf_placeAt (vacant_sf word (by omega)) hn' (by omega)]
  · rw [bitsOf_congr (by omega) (extract_or_placeAt _ himms' (.inl (by omega))), bitsOf_placeAt _
      himmr' (by omega)]
    unfold Vacant
    rw [extract_or_placeAt _ hn' (.inr (by omega))]
    exact vacant_sf word (by omega)
  · rw [bitsOf_placeAt _ himms' (by omega)]
    unfold Vacant
    rw [extract_or_placeAt _ himmr' (.inr (by omega)), extract_or_placeAt _ hn' (.inr (by omega))]
    exact vacant_sf word (by omega)
  · rw [getLsbD_eq_bitsOf, bitsOf_congr (by omega) (extract_or_placeAt _ himms' (.inl (by omega))),
      bitsOf_congr (by omega) (extract_or_placeAt _ himmr' (.inl (by omega))),
      bitsOf_congr (by omega) (extract_or_placeAt _ hn' (.inl (by omega))), ← getLsbD_eq_bitsOf]
    simp [placeAt]

end Fields

/-- The element size a triple names. -/
theorem highestSetBit_N_clear : ∀ value < 64, (highestSetBit value).all (· ≤ 5) = true := by decide

theorem highestSetBit_N_set : ∀ value < 64, highestSetBit (64 + value) = some 6 := by decide

/-- The triple of an element size and a run length, read back. -/
theorem highestSetBit_of_run : ∀ k < 7, 1 ≤ k → ∀ s < 2 ^ k - 1,
    (64 - 2 ^ (k + 1)) + s < 64 ∧ ((64 - 2 ^ (k + 1)) + s) % 2 ^ k = s ∧
    highestSetBit (k / 6 * 64 + (63 - ((64 - 2 ^ (k + 1)) + s))) = some k := by decide

/-! ## §3. Which values decode. -/

/-- The register width a word's `sf` bit selects. -/
def operandWidth (word : Word) : Nat := if word.getLsbD 31 then 64 else 32

/-- A bitmask immediate of a register width: a rotated run of at least one and
not all ones, repeated over elements of a power of two of bits. -/
def IsBitmaskImmediate (width : Nat) (v : U64) : Prop :=
  ∃ k ones rotate, 1 ≤ k ∧ 2 ^ k ≤ width ∧ 0 < ones ∧ ones < 2 ^ k ∧ rotate < 2 ^ k ∧
    ∀ i < 64, v.getLsbD i = (decide (i < width) && runBit (2 ^ k) ones rotate i)

/-- Some `immr:imms` decodes to the value under this `N`. -/
def SomeDecodes (word : Word) (n : Nat) (v : U64) : Prop :=
  ∃ immr < 64, ∃ imms < 64, logicalImmediate (logicalCandidate word n immr imms) = some v.toInt

section Decoding

variable {word : Word} {n : Nat} {v : U64}

theorem eq_setWidth_iff {x : BitVec 32} : (x.toNat : Int) = v.toInt ↔ v = x.setWidth 64 := by
  have hx := x.isLt
  constructor
  · intro h
    apply BitVec.eq_of_toNat_eq
    rw [BitVec.toNat_setWidth, Nat.mod_eq_of_lt (by omega)]
    rw [BitVec.toInt_eq_toNat_cond] at h
    have hv := v.isLt
    split at h <;> omega
  · intro h
    have hv : v.toNat = x.toNat := by
      rw [h, BitVec.toNat_setWidth, Nat.mod_eq_of_lt (by omega)]
    rw [BitVec.toInt_eq_toNat_cond, if_pos (by omega), hv]

/-- A pattern, cut to the register, is the value when their bits agree. -/
theorem cut_eq_iff (p : U64) :
    (if word.getLsbD 31 = true then p.toInt else ((p.setWidth 32).toNat : Int)) = v.toInt ↔
      ∀ i < 64, v.getLsbD i = (decide (i < operandWidth word) && p.getLsbD i) := by
  unfold operandWidth
  by_cases hsf : word.getLsbD 31 = true
  · rw [if_pos hsf, if_pos hsf, BitVec.toInt_inj]
    constructor
    · intro h i hi
      simp [h, hi]
    · intro h
      refine BitVec.eq_of_getLsbD_eq (fun i hi => ?_)
      rw [h i hi, decide_eq_true hi, Bool.true_and]
  · rw [if_neg hsf, if_neg hsf, eq_setWidth_iff]
    constructor
    · intro h i hi
      simp [h, hi]
    · intro h
      refine BitVec.eq_of_getLsbD_eq (fun i hi => ?_)
      rw [h i hi, BitVec.getLsbD_setWidth, BitVec.getLsbD_setWidth, decide_eq_true hi,
        Bool.true_and]

/-- The decoder on a candidate whose element size is known. -/
theorem logicalImmediate_candidate {immr imms k : Nat} (hn : n < 2) (himmr : immr < 64)
    (himms : imms < 64) (hk : highestSetBit (n * 64 + (63 - imms)) = some k) :
    logicalImmediate (logicalCandidate word n immr imms)
      = if imms % 2 ^ k = 2 ^ k - 1 then none
        else some (if word.getLsbD 31 = true
          then (logicalPattern k (imms % 2 ^ k + 1) (immr % 2 ^ k)).toInt
          else (((logicalPattern k (imms % 2 ^ k + 1) (immr % 2 ^ k)).setWidth 32).toNat : Int)) := by
  have ⟨hN, hR, hS, hsf⟩ := logicalCandidate_bits word hn himmr himms
  unfold logicalImmediate
  simp only [hN, hR, hS, hsf, hk, Nat.and_two_pow_sub_one_eq_mod, logicalPattern]
  by_cases hlevels : imms % 2 ^ k = 2 ^ k - 1
  · simp only [hlevels, if_true]
  · simp only [hlevels, if_false]
    by_cases hwide : word.getLsbD 31 = true
    · simp only [hwide, if_true]
    · simp only [hwide]
      rfl

/-- Under each `N` the decoder reaches the runs of its element sizes. -/
theorem someDecodes_iff (hn : n < 2) :
    SomeDecodes word n v ↔ ∃ k ones rotate, 1 ≤ k ∧ k ≤ 6 ∧ n = k / 6 ∧ 0 < ones ∧ ones < 2 ^ k ∧
      rotate < 2 ^ k ∧
      ∀ i < 64, v.getLsbD i = (decide (i < operandWidth word) && runBit (2 ^ k) ones rotate i) := by
  constructor
  · intro ⟨immr, himmr, imms, himms, hdecode⟩
    have hsize : ∃ k, highestSetBit (n * 64 + (63 - imms)) = some k ∧ k ≤ 6 ∧ n = k / 6 := by
      by_cases hset : n = 1
      · refine ⟨6, ?_, by omega, by omega⟩
        rw [hset, Nat.one_mul]
        exact highestSetBit_N_set _ (by omega)
      · have hzero : n = 0 := by omega
        have hclear := highestSetBit_N_clear (63 - imms) (by omega)
        cases hbit : highestSetBit (63 - imms) with
        | none =>
          have ⟨hN, _, hS, _⟩ := logicalCandidate_bits word hn himmr himms
          unfold logicalImmediate at hdecode
          simp only [hN, hS] at hdecode
          rw [show n * 64 + (63 - imms) = 63 - imms by omega] at hdecode
          simp [hbit] at hdecode
        | some k =>
          rw [hbit, Option.all_some, decide_eq_true_eq] at hclear
          refine ⟨k, ?_, by omega, by omega⟩
          rw [hzero, Nat.zero_mul, Nat.zero_add, hbit]
    have ⟨k, hk, hle, hN⟩ := hsize
    have hpos : 0 < 2 ^ k := Nat.two_pow_pos k
    have hones := Nat.mod_lt imms hpos
    have hrotate := Nat.mod_lt immr hpos
    rw [logicalImmediate_candidate hn himmr himms hk] at hdecode
    by_cases hlevels : imms % 2 ^ k = 2 ^ k - 1
    · rw [if_pos hlevels] at hdecode
      exact nomatch hdecode
    rw [if_neg hlevels, Option.some.injEq, cut_eq_iff] at hdecode
    have hk1 : 1 ≤ k := by
      by_contra hzero
      rw [show k = 0 by omega, Nat.pow_zero, Nat.mod_one] at hlevels
      exact hlevels rfl
    refine ⟨k, imms % 2 ^ k + 1, immr % 2 ^ k, hk1, hle, hN, by omega, by omega, hrotate, ?_⟩
    intro i hi
    rw [hdecode i hi, getLsbD_logicalPattern hle (by omega) hrotate hi]
  · intro ⟨k, ones, rotate, hk1, hk6, hN, hpos, hones, hrotate, hbits⟩
    have hle : 2 ^ k ≤ 64 := Nat.pow_le_pow_right (by omega) hk6
    have ⟨himms, hmod, hsize⟩ := highestSetBit_of_run k (by omega) hk1 (ones - 1) (by omega)
    refine ⟨rotate, by omega, 64 - 2 ^ (k + 1) + (ones - 1), himms, ?_⟩
    rw [logicalImmediate_candidate hn (by omega) himms (hN ▸ hsize), hmod, if_neg (by omega),
      Nat.mod_eq_of_lt hrotate, show ones - 1 + 1 = ones by omega, Option.some.injEq, cut_eq_iff]
    intro i hi
    rw [hbits i hi, getLsbD_logicalPattern hk6 (by omega) hrotate hi]

/-- A 64-bit register: some triple decodes to exactly the bitmask immediates. -/
theorem wide_decodes_iff (hsf : operandWidth word = 64) :
    (SomeDecodes word 0 v ∨ SomeDecodes word 1 v) ↔ IsBitmaskImmediate (operandWidth word) v := by
  rw [someDecodes_iff (by omega), someDecodes_iff (by omega), hsf]
  constructor
  · intro h
    have hany : ∃ k ones rotate, 1 ≤ k ∧ k ≤ 6 ∧ 0 < ones ∧ ones < 2 ^ k ∧ rotate < 2 ^ k ∧
        ∀ i < 64, v.getLsbD i = (decide (i < 64) && runBit (2 ^ k) ones rotate i) := by
      by_cases hlow : ∃ k ones rotate, 1 ≤ k ∧ k ≤ 6 ∧ 0 = k / 6 ∧ 0 < ones ∧ ones < 2 ^ k ∧
          rotate < 2 ^ k ∧
          ∀ i < 64, v.getLsbD i = (decide (i < 64) && runBit (2 ^ k) ones rotate i)
      · have ⟨k, ones, rotate, hk1, hk6, _, hrest⟩ := hlow
        exact ⟨k, ones, rotate, hk1, hk6, hrest⟩
      · have ⟨k, ones, rotate, hk1, hk6, _, hrest⟩ := h.resolve_left hlow
        exact ⟨k, ones, rotate, hk1, hk6, hrest⟩
    have ⟨k, ones, rotate, hk1, hk6, hrest⟩ := hany
    exact ⟨k, ones, rotate, hk1, Nat.pow_le_pow_right (by omega) hk6, hrest⟩
  · intro ⟨k, ones, rotate, hk1, hle, hrest⟩
    have hk6 : k ≤ 6 := (Nat.pow_le_pow_iff_right (by omega)).mp (show 2 ^ k ≤ 2 ^ 6 from hle)
    by_cases hlast : k = 6
    · exact .inr ⟨k, ones, rotate, hk1, hk6, by omega, hrest⟩
    · exact .inl ⟨k, ones, rotate, hk1, hk6, by omega, hrest⟩

/-- A 32-bit register: with `N` clear the same. -/
theorem narrow_decodes_iff (hsf : operandWidth word = 32) :
    SomeDecodes word 0 v ↔ IsBitmaskImmediate (operandWidth word) v := by
  rw [someDecodes_iff (by omega), hsf]
  constructor
  · intro ⟨k, ones, rotate, hk1, hk6, hN, hrest⟩
    exact ⟨k, ones, rotate, hk1, Nat.pow_le_pow_right (by omega) (show k ≤ 5 by omega), hrest⟩
  · intro ⟨k, ones, rotate, hk1, hle, hrest⟩
    have hk5 : k ≤ 5 := (Nat.pow_le_pow_iff_right (by omega)).mp (show 2 ^ k ≤ 2 ^ 5 from hle)
    exact ⟨k, ones, rotate, hk1, by omega, by omega, hrest⟩

/-- With `N` set the cut pattern is a bitmask immediate, zero or all ones. -/
theorem narrow_reserved_iff (hsf : operandWidth word = 32) :
    SomeDecodes word 1 v → IsBitmaskImmediate 32 v ∨ v = 0 ∨ v = 0xffffffff#64 := by
  rw [someDecodes_iff (by omega), hsf]
  intro ⟨k, ones, rotate, hk1, hk6, hN, hpos, hones, hrotate, hbits⟩
  have hk : k = 6 := by omega
  subst hk
  have hhalf := runBit_half (show ones < 2 * 32 from hones) (show rotate < 2 * 32 from hrotate)
  by_cases hnone : ∀ i < 32, runBit (2 * 32) ones rotate i = false
  · refine .inr (.inl (BitVec.eq_of_getLsbD_eq (fun i hi => ?_)))
    rw [hbits i hi, show BitVec.getLsbD (0 : U64) i = false from BitVec.getLsbD_zero]
    by_cases hlow : i < 32
    · rw [show (2 : Nat) ^ 6 = 2 * 32 from rfl, hnone i hlow, Bool.and_false]
    · simp [hlow]
  by_cases hall : ∀ i < 32, runBit (2 * 32) ones rotate i = true
  · refine .inr (.inr (BitVec.eq_of_getLsbD_eq (fun i hi => ?_)))
    rw [hbits i hi, show (0xffffffff#64 : U64) = onesOf 32 from rfl, getLsbD_onesOf (by omega)]
    by_cases hlow : i < 32
    · rw [show (2 : Nat) ^ 6 = 2 * 32 from rfl, hall i hlow, Bool.and_true]
    · simp [hlow]
  · have ⟨ones', rotate', hpos', hones', hrotate', hsame⟩ :=
      (hhalf.resolve_left hnone).resolve_left hall
    refine .inl ⟨5, ones', rotate', by omega, by omega, hpos', hones', hrotate', fun i hi => ?_⟩
    rw [hbits i hi]
    by_cases hlow : i < 32
    · rw [show (2 : Nat) ^ 6 = 2 * 32 from rfl, hsame i hlow]
      rfl
    · simp [hlow]

/-- Zero and all ones of a 32-bit register do decode, with `N` set. -/
theorem narrow_reserved (hsf : operandWidth word = 32) :
    SomeDecodes word 1 0#64 ∧ SomeDecodes word 1 0xffffffff#64 := by
  rw [someDecodes_iff (by omega), someDecodes_iff (by omega), hsf]
  refine ⟨⟨6, 1, 1, by omega, by omega, rfl, by omega, by omega, by omega, ?_⟩,
    ⟨6, 32, 0, by omega, by omega, rfl, by omega, by omega, by omega, ?_⟩⟩
  · decide
  · decide

/-- Neither of the two is a bitmask immediate. -/
theorem not_isBitmaskImmediate (h : v = 0 ∨ v = 0xffffffff#64) : ¬ IsBitmaskImmediate 32 v := by
  intro ⟨k, ones, rotate, _, hle, hpos, hones, hrotate, hbits⟩
  by_cases hzero : v = 0
  · have ⟨i, hi, hset⟩ := exists_runBit_true hpos hrotate
    have hbit := hbits i (by omega)
    rw [hset, hzero] at hbit
    simp [show i < 32 by omega] at hbit
  · have hall := h.resolve_left hzero
    have ⟨i, hi, hclear⟩ := exists_runBit_false hones hrotate
    have hbit := hbits i (by omega)
    rw [hclear, hall, show (0xffffffff#64 : U64) = onesOf 32 from rfl,
      getLsbD_onesOf (by omega)] at hbit
    simp [show i < 32 by omega] at hbit

end Decoding

/-! ## §4. The search. -/

/-- The encoder is exact on an operand that denotes `v`: it accepts the
bitmask immediates of the register, with an encoding that decodes back, and
with `N` clear for a 32-bit register. -/
structure ExactImmediate (kind : Aarch64Opnd) (operand : DecodedOperand) (v : U64) (word : Word) :
    Prop where
  accepted : (∃ fields, encodeLogicalImmediate kind operand word = .ok fields) ↔
    IsBitmaskImmediate (operandWidth word) v
  decodes : ∀ fields, encodeLogicalImmediate kind operand word = .ok fields →
    logicalImmediate ((word &&& placeAt 1 31) ||| fields) = some v.toInt ∧
      (operandWidth word = 32 → bitsOf fields 22 1 = 0)

section Search

variable {kind : Aarch64Opnd} {word : Word} {v : U64}

/-- The first triple that decodes to the value. -/
def firstHit (word : Word) (v : U64) : Option Word :=
  logicalImmediateFields.find? fun fields =>
    logicalImmediate ((word &&& placeAt 1 31) ||| fields) == some v.toInt

theorem encode_immediate_iff {fields : Word} :
    encodeLogicalImmediate kind (.immediate v.toInt) word = .ok fields ↔
      firstHit word v = some fields := by
  unfold encodeLogicalImmediate
  dsimp only
  rw [← firstHit]
  cases firstHit word v with
  | none => simp [invalidOperand]
  | some hit => simp

theorem encode_unsigned_iff {fields : Word} :
    encodeLogicalImmediate kind (.unsignedImmediate v) word = .ok fields ↔
      v.toNat < 2 ^ 63 ∧ firstHit word v = some fields := by
  by_cases hlow : v.toNat < 2 ^ 63
  · have hvalue : (v.toNat : Int) = v.toInt := by
      rw [BitVec.toInt_eq_toNat_cond, if_pos (by omega)]
    have hsame : encodeLogicalImmediate kind (.unsignedImmediate v) word
        = encodeLogicalImmediate kind (.immediate v.toInt) word := by
      simp only [encodeLogicalImmediate, hlow, if_true, hvalue]
    rw [hsame, encode_immediate_iff]
    exact ⟨fun h => ⟨hlow, h⟩, fun h => h.2⟩
  · have herror : encodeLogicalImmediate kind (.unsignedImmediate v) word
        = invalidOperand kind := by
      simp only [encodeLogicalImmediate, hlow, if_false]
    rw [herror]
    exact ⟨(fun h => nomatch h), fun h => absurd h.1 hlow⟩

theorem firstHit_isSome_iff :
    (∃ fields, firstHit word v = some fields) ↔ SomeDecodes word 0 v ∨ SomeDecodes word 1 v := by
  rw [← Option.isSome_iff_exists, firstHit, List.find?_isSome]
  constructor
  · intro ⟨fields, hmem, hhit⟩
    have ⟨n, hn, immr, himmr, imms, himms, hfields⟩ := mem_logicalImmediateFields.mp hmem
    have hdecode : logicalImmediate (logicalCandidate word n immr imms) = some v.toInt := by
      simpa [logicalCandidate, hfields] using hhit
    by_cases hzero : n = 0
    · exact .inl ⟨immr, himmr, imms, himms, hzero ▸ hdecode⟩
    · have hone : n = 1 := by omega
      exact .inr ⟨immr, himmr, imms, himms, hone ▸ hdecode⟩
  · intro h
    by_cases hzero : SomeDecodes word 0 v
    · have ⟨immr, himmr, imms, himms, hdecode⟩ := hzero
      exact ⟨_, mem_logicalImmediateFields.mpr ⟨0, by omega, immr, himmr, imms, himms, rfl⟩,
        by simpa [logicalCandidate] using hdecode⟩
    · have ⟨immr, himmr, imms, himms, hdecode⟩ := h.resolve_left hzero
      exact ⟨_, mem_logicalImmediateFields.mpr ⟨1, by omega, immr, himmr, imms, himms, rfl⟩,
        by simpa [logicalCandidate] using hdecode⟩

theorem firstHit_decodes {fields : Word} (h : firstHit word v = some fields) :
    logicalImmediate ((word &&& placeAt 1 31) ||| fields) = some v.toInt := by
  simpa using List.find?_some h

theorem bitsOf_logicalFields {n immr imms : Nat} (hn : n < 2) (himmr : immr < 64)
    (himms : imms < 64) : bitsOf (logicalFields n immr imms) 22 1 = n := by
  have hfields : logicalCandidate 0#32 n immr imms = logicalFields n immr imms := by
    simp [logicalCandidate]
  rw [← hfields, (logicalCandidate_bits 0#32 hn himmr himms).1]

/-- Triples with `N` clear are tried first, so `N` is clear if one of them hits. -/
theorem firstHit_N_clear {fields : Word} (h : firstHit word v = some fields)
    (hzero : SomeDecodes word 0 v) : bitsOf fields 22 1 = 0 := by
  have hblocks : logicalImmediateFields
      = (List.range 64).flatMap (fun immr => (List.range 64).map (logicalFields 0 immr))
        ++ (List.range 64).flatMap (fun immr => (List.range 64).map (logicalFields 1 immr)) := by
    show (List.range 2).flatMap (fun n => (List.range 64).flatMap (fun immr =>
      (List.range 64).map (logicalFields n immr))) = _
    rw [show List.range 2 = [0, 1] from rfl, List.flatMap_cons, List.flatMap_singleton]
  have ⟨immr, himmr, imms, himms, hdecode⟩ := hzero
  have hsome : (((List.range 64).flatMap (fun immr =>
      (List.range 64).map (logicalFields 0 immr))).find? fun fields =>
        logicalImmediate ((word &&& placeAt 1 31) ||| fields) == some v.toInt).isSome = true := by
    rw [List.find?_isSome]
    refine ⟨logicalFields 0 immr imms, ?_, by simpa [logicalCandidate] using hdecode⟩
    simp only [List.mem_flatMap, List.mem_map, List.mem_range]
    exact ⟨immr, himmr, imms, himms, rfl⟩
  have ⟨hit, hfound⟩ := Option.isSome_iff_exists.mp hsome
  have hfirst : firstHit word v = some hit := by
    unfold firstHit
    rw [hblocks, List.find?_append, hfound, Option.some_or]
  have hsame : hit = fields := Option.some.inj (hfirst.symm.trans h)
  have hmem := List.mem_of_find?_eq_some hfound
  simp only [List.mem_flatMap, List.mem_map, List.mem_range] at hmem
  have ⟨immr', himmr', imms', himms', hfields⟩ := hmem
  rw [← hsame, ← hfields, bitsOf_logicalFields (by omega) himmr' himms']

theorem operandWidth_cases (word : Word) : operandWidth word = 64 ∨ operandWidth word = 32 := by
  unfold operandWidth
  by_cases hsf : word.getLsbD 31 = true
  · exact .inl (if_pos hsf)
  · exact .inr (if_neg hsf)

/-- The search is exact but for zero and all ones of a 32-bit register. -/
theorem firstHit_exact (hclean : ¬ (operandWidth word = 32 ∧ (v = 0 ∨ v = 0xffffffff#64))) :
    ((∃ fields, firstHit word v = some fields) ↔ IsBitmaskImmediate (operandWidth word) v) ∧
    ∀ fields, firstHit word v = some fields →
      operandWidth word = 32 → bitsOf fields 22 1 = 0 := by
  rw [firstHit_isSome_iff]
  by_cases hsf : operandWidth word = 64
  · refine ⟨wide_decodes_iff hsf, fun fields _ hnarrow => ?_⟩
    omega
  have hnarrow : operandWidth word = 32 := (operandWidth_cases word).resolve_left hsf
  have hone : SomeDecodes word 1 v → IsBitmaskImmediate (operandWidth word) v := by
    intro h
    rw [hnarrow]
    exact (narrow_reserved_iff hnarrow h).resolve_right (fun hv => hclean ⟨hnarrow, hv⟩)
  have haccepted : (SomeDecodes word 0 v ∨ SomeDecodes word 1 v) ↔
      IsBitmaskImmediate (operandWidth word) v := by
    constructor
    · intro h
      by_cases hzero : SomeDecodes word 0 v
      · exact (narrow_decodes_iff hnarrow).mp hzero
      · exact hone (h.resolve_left hzero)
    · intro h
      exact .inl ((narrow_decodes_iff hnarrow).mpr h)
  refine ⟨haccepted, fun fields h _ => firstHit_N_clear h ?_⟩
  exact (narrow_decodes_iff hnarrow).mpr (haccepted.mp (firstHit_isSome_iff.mp ⟨fields, h⟩))

/-- There the search finds an encoding, of a value that has none. -/
theorem firstHit_reserved (hnarrow : operandWidth word = 32) (hv : v = 0 ∨ v = 0xffffffff#64) :
    (∃ fields, firstHit word v = some fields) ∧ ¬ IsBitmaskImmediate (operandWidth word) v := by
  have hreserved := narrow_reserved hnarrow
  refine ⟨firstHit_isSome_iff.mpr (.inr ?_), ?_⟩
  · by_cases hzero : v = 0
    · exact hzero ▸ hreserved.1
    · exact (hv.resolve_left hzero) ▸ hreserved.2
  · rw [hnarrow]
    exact not_isBitmaskImmediate hv

theorem exact_immediate_iff :
    ExactImmediate kind (.immediate v.toInt) v word ↔
      ¬ (operandWidth word = 32 ∧ (v = 0 ∨ v = 0xffffffff#64)) := by
  constructor
  · intro hexact ⟨hnarrow, hv⟩
    have ⟨⟨fields, hfields⟩, hnot⟩ := firstHit_reserved hnarrow hv
    exact hnot (hexact.accepted.mp ⟨fields, encode_immediate_iff.mpr hfields⟩)
  · intro hclean
    have ⟨haccepted, hclear⟩ := firstHit_exact hclean
    refine ⟨?_, ?_⟩
    · simp only [encode_immediate_iff]
      exact haccepted
    · intro fields h
      have hhit := encode_immediate_iff.mp h
      exact ⟨firstHit_decodes hhit, hclear fields hhit⟩

theorem exact_unsigned_iff :
    ExactImmediate kind (.unsignedImmediate v) v word ↔
      ¬ (operandWidth word = 32 ∧ (v = 0 ∨ v = 0xffffffff#64)) ∧
        ¬ (2 ^ 63 ≤ v.toNat ∧ IsBitmaskImmediate (operandWidth word) v) := by
  constructor
  · intro hexact
    refine ⟨?_, ?_⟩
    · intro ⟨hnarrow, hv⟩
      have ⟨⟨fields, hfields⟩, hnot⟩ := firstHit_reserved hnarrow hv
      have hlow : v.toNat < 2 ^ 63 := by
        by_cases hzero : v = 0
        · rw [hzero]
          decide
        · rw [hv.resolve_left hzero]
          decide
      exact hnot (hexact.accepted.mp ⟨fields, encode_unsigned_iff.mpr ⟨hlow, hfields⟩⟩)
    · intro ⟨hhigh, hvalid⟩
      have ⟨fields, hfields⟩ := hexact.accepted.mpr hvalid
      have hlow := (encode_unsigned_iff.mp hfields).1
      omega
  · intro ⟨hclean, hlow⟩
    have ⟨haccepted, hclear⟩ := firstHit_exact hclean
    refine ⟨?_, ?_⟩
    · simp only [encode_unsigned_iff]
      constructor
      · intro ⟨fields, _, hhit⟩
        exact haccepted.mp ⟨fields, hhit⟩
      · intro hvalid
        have ⟨fields, hhit⟩ := haccepted.mpr hvalid
        exact ⟨fields, Nat.lt_of_not_le (fun hle => hlow ⟨hle, hvalid⟩), hhit⟩
    · intro fields h
      have hhit := (encode_unsigned_iff.mp h).2
      exact ⟨firstHit_decodes hhit, hclear fields hhit⟩

end Search

/-- Exactly when the encoder is exact, for both forms of the operand. -/
theorem encodeLogicalImmediate_exact_iff (kind : Aarch64Opnd) (word : Word) (v : U64) :
    (ExactImmediate kind (.immediate v.toInt) v word ↔
      ¬ (operandWidth word = 32 ∧ (v = 0 ∨ v = 0xffffffff#64))) ∧
    (ExactImmediate kind (.unsignedImmediate v) v word ↔
      ¬ (operandWidth word = 32 ∧ (v = 0 ∨ v = 0xffffffff#64)) ∧
        ¬ (2 ^ 63 ≤ v.toNat ∧ IsBitmaskImmediate (operandWidth word) v)) :=
  ⟨exact_immediate_iff, exact_unsigned_iff⟩

/-- `and w0, w0, #0` is given an encoding, with `N` set. -/
theorem encodeLogicalImmediate_reserved :
    (∃ fields, encodeLogicalImmediate .limm (.immediate 0) 0x12000000#32 = .ok fields) ∧
      ¬ IsBitmaskImmediate (operandWidth 0x12000000#32) 0#64 := by
  have hnarrow : operandWidth 0x12000000#32 = 32 := by decide
  have ⟨⟨fields, hfields⟩, hnot⟩ := firstHit_reserved hnarrow (.inl (Eq.refl (0 : U64)))
  have hzero : (0 : Int) = (0 : U64).toInt := rfl
  rw [hzero]
  exact ⟨⟨fields, encode_immediate_iff.mpr hfields⟩, hnot⟩

end Armv8Encode

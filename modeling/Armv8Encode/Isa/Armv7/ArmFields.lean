/-
  Armv8Encode.Isa.Armv7.ArmFields — letters that the ARM-mode encoder inverts.

  As in Thumb mode, a letter carries its bits if the encoder, given the operand
  that the decoder made of them, puts them back.  The exception is `blx`: its
  halfword bit is added to a word offset that the encoder gets by a division
  rounding towards zero, so a negative offset loses it.
-/
import Armv8Encode.Isa.Armv7.ArmCodec
import Armv8Encode.Isa.Armv7.Fields

namespace Armv8Encode.Armv7.Arm

open Lib

/-! ## §1. Branch offsets. -/

theorem toInt_ofInt_small {n : Int} (hlo : -2 ^ 63 ≤ n) (hhi : n < 2 ^ 63) :
    (BitVec.ofInt 64 n).toInt = n := by
  rw [BitVec.toInt_ofInt]
  apply Int.bmod_eq_of_le <;> norm_num <;> omega

theorem wordOffset_range (word : Word) :
    -2 ^ 23 ≤ (wordOffset word).toInt ∧ (wordOffset word).toInt < 2 ^ 23 :=
  toInt_signExtended (word &&& 0xffffff) 8 (by omega)

theorem setWidth_wordOffset (word : Word) :
    (wordOffset word).setWidth 32 &&& BitVec.ofNat 32 (2 ^ (23 - 0 + 1) - 1)
      = extractField word 0 23 := by
  rw [wordOffset, setWidth_signExtend]
  apply BitVec.eq_of_getLsbD_eq
  intro i hi
  rw [extractField, getLsbD_field word (by omega)]
  interval_cases i <;> simp [BitVec.getElem_sshiftRight]

/-- The halfword bit. -/
def halfwordBit (word : Word) : Int := if word.getLsbD 24 then 1 else 0

theorem branchDisplacement_add (address : U64) {n : Int} (hlo : -2 ^ 63 ≤ n) (hhi : n < 2 ^ 63) :
    branchDisplacement (address + 8 + BitVec.ofInt 64 n) address = n := by
  have hdiff : address + 8 + BitVec.ofInt 64 n - address - 8 = BitVec.ofInt 64 n := by
    generalize BitVec.ofInt 64 n = d
    bv_omega
  rw [branchDisplacement, hdiff, toInt_ofInt_small hlo hhi]

theorem wordOffset_mul_four (word : Word) :
    wordOffset word * 4 = BitVec.ofInt 64 ((wordOffset word).toInt * 4) := by
  rw [BitVec.ofInt_mul, BitVec.ofInt_toInt]
  rfl

theorem blxOffset_eq (word : Word) :
    wordOffset word * (4 : U64) + ((word >>> 24) &&& 1#32).setWidth 64 * (2 : U64)
      = BitVec.ofInt 64 ((wordOffset word).toInt * 4 + halfwordBit word * 2) := by
  have hbit : ((word >>> 24) &&& 1#32).setWidth 64 = BitVec.ofInt 64 (halfwordBit word) := by
    rw [BitVec.and_one_eq_setWidth_ofBool_getLsbD, BitVec.getLsbD_ushiftRight, halfwordBit,
      Nat.add_zero]
    cases word.getLsbD 24 <;> rfl
  rw [BitVec.ofInt_add, BitVec.ofInt_mul, BitVec.ofInt_mul, BitVec.ofInt_toInt, hbit]
  rfl

theorem packBranch_decode (word base : Word) (address : U64) (slot : Nat) :
    packBranch base (address + 8 + wordOffset word * 4) address slot
      = .ok (splice base word (rangeMask 0 23)) := by
  obtain ⟨hlo, hhi⟩ := wordOffset_range word
  unfold packBranch
  dsimp only
  rw [wordOffset_mul_four, branchDisplacement_add address (by omega) (by omega),
    if_neg (by omega), Int.mul_tdiv_cancel _ (by omega), if_neg (by omega), ofInt_toInt,
    placeField_of_eq base word (by omega) (setWidth_wordOffset word)]

def blxMask : Word := rangeMask 0 23 ||| rangeMask 24 24

/-- The word offset as the encoder computes it. -/
def blxWords (word : Word) : Int :=
  ((wordOffset word).toInt * 4 + halfwordBit word * 2).tdiv 4

theorem halfwordBit_cases (word : Word) :
    word.getLsbD 24 = false ∧ halfwordBit word = 0
      ∨ word.getLsbD 24 = true ∧ halfwordBit word = 1 := by
  unfold halfwordBit
  cases word.getLsbD 24 <;> simp

theorem wordOffset_neg_iff (word : Word) :
    (wordOffset word).toInt < 0 ↔ word.getLsbD 23 = true := by
  have hmsb : (wordOffset word).msb = word.getLsbD 23 := by
    rw [wordOffset, BitVec.msb_eq_getLsbD_last]
    simp [BitVec.getElem_signExtend, BitVec.getElem_sshiftRight, BitVec.msb_eq_getLsbD_last]
  rw [← hmsb, BitVec.msb_eq_toInt, decide_eq_true_eq]

/-- The division rounds towards zero, so a negative offset with the halfword bit comes out
one word too high. -/
theorem blxWords_eq (word : Word) :
    blxWords word = (wordOffset word).toInt
      + if word.getLsbD 24 = true ∧ word.getLsbD 23 = true then 1 else 0 := by
  have hneg := wordOffset_neg_iff word
  unfold blxWords
  rw [Int.tdiv_eq_ediv, show (4 : Int).sign = 1 from rfl]
  rcases halfwordBit_cases word with ⟨h24, h⟩ | ⟨h24, h⟩
  · rw [h, if_pos (.inr (by omega)), if_neg (fun hbits => by rw [h24] at hbits; cases hbits.1)]
    omega
  · rw [h]
    by_cases hw : (wordOffset word).toInt < 0
    · rw [if_neg (by omega), if_pos ⟨h24, hneg.mp hw⟩]
      omega
    · rw [if_pos (by omega), if_neg (fun hbits => hw (hneg.mpr hbits.2))]
      omega

/-- The bit that the encoder takes for the halfword bit. -/
theorem halfword_of_displacement (word : Word) :
    (BitVec.ofInt 32 ((wordOffset word).toInt * 4 + halfwordBit word * 2) &&& (2 : Word)) >>> 1
      = (word >>> 24) &&& 1#32 := by
  have hshift : ∀ x : Word, (x &&& (2 : Word)) >>> 1 = (x >>> 1) &&& 1#32 := by
    intro x
    apply BitVec.eq_of_getLsbD_eq
    intro i hi
    interval_cases i <;> simp
  rw [hshift, BitVec.and_one_eq_setWidth_ofBool_getLsbD,
    BitVec.and_one_eq_setWidth_ofBool_getLsbD, BitVec.getLsbD_ushiftRight,
    BitVec.getLsbD_ushiftRight]
  congr 2
  rw [Nat.add_zero, Nat.add_zero, BitVec.getLsbD, BitVec.toNat_ofInt, Nat.testBit_eq_decide_div_mod_eq]
  rcases halfwordBit_cases word with ⟨h24, h⟩ | ⟨h24, h⟩
  · rw [h, h24, decide_eq_false_iff_not]
    omega
  · rw [h, h24, decide_eq_true_iff]
    omega

theorem packBlx_decode (word base : Word) (address : U64) (slot : Nat) :
    packBlx base (address + (8 : U64)
        + (wordOffset word * (4 : U64) + ((word >>> 24) &&& 1#32).setWidth 64 * (2 : U64)))
        address slot
      = .ok (placeField (placeField base 0 23 (BitVec.ofInt 32 (blxWords word))) 24 24
          ((word >>> 24) &&& 1#32)) := by
  obtain ⟨hlo, hhi⟩ := wordOffset_range word
  have hneg := wordOffset_neg_iff word
  have hbound : -2 ^ 23 ≤ blxWords word ∧ blxWords word < 2 ^ 23 := by
    rw [blxWords_eq]
    split
    · rename_i hbits
      have := hneg.mpr hbits.2
      omega
    · omega
  have hbit : halfwordBit word = 0 ∨ halfwordBit word = 1 := by
    rcases halfwordBit_cases word with ⟨-, h⟩ | ⟨-, h⟩ <;> omega
  unfold packBlx
  dsimp only
  rw [blxOffset_eq, branchDisplacement_add address (by omega) (by omega), if_neg (by omega),
    halfword_of_displacement]
  show (if blxWords word < -2 ^ 23 ∨ 2 ^ 23 ≤ blxWords word
    then Except.error (EncodeError.branchOutOfRange slot _ 25)
    else Except.ok (placeField (placeField base 0 23 (BitVec.ofInt 32 (blxWords word))) 24 24
          ((word >>> 24) &&& 1#32))) = _
  rw [if_neg (by omega)]

/-- A branch to a halfword keeps its bits if its word offset is not negative. -/
theorem blxWords_kept {word : Word} (base : Word)
    (h : ¬ (word.getLsbD 24 = true ∧ word.getLsbD 23 = true)) :
    placeField (placeField base 0 23 (BitVec.ofInt 32 (blxWords word))) 24 24
        ((word >>> 24) &&& 1#32) = splice base word blxMask := by
  rw [blxWords_eq, if_neg h, Int.add_zero, ofInt_toInt,
    placeField_of_eq base word (by omega) (setWidth_wordOffset word), placeField_splice _ _ (by omega)]
  · rfl
  · apply BitVec.eq_of_getLsbD_eq
    intro i hi
    rw [extractField, getLsbD_field word (by omega)]
    interval_cases i <;> simp

/-- Otherwise its lowest bit changes. -/
theorem blxWords_lost {word : Word} (base : Word)
    (h : word.getLsbD 24 = true ∧ word.getLsbD 23 = true) :
    placeField (placeField base 0 23 (BitVec.ofInt 32 (blxWords word))) 24 24
        ((word >>> 24) &&& 1#32) ≠ word := by
  have hlow : (BitVec.ofInt 32 (wordOffset word).toInt).getLsbD 0 = word.getLsbD 0 := by
    rw [ofInt_toInt, wordOffset, setWidth_signExtend]
    simp [BitVec.getElem_sshiftRight]
  have hflip : (BitVec.ofInt 32 ((wordOffset word).toInt + 1)).getLsbD 0
      = !(BitVec.ofInt 32 (wordOffset word).toInt).getLsbD 0 := by
    simp only [BitVec.getLsbD, BitVec.toNat_ofInt, Nat.testBit_zero]
    rw [← decide_not, decide_eq_decide]
    omega
  intro heq
  have hbit := congrArg (fun w : Word => w.getLsbD 0) heq
  rw [blxWords_eq, if_pos h] at hbit
  simp only [placeField_eq_splice, getLsbD_splice] at hbit
  rw [show (rangeMask 24 24).getLsbD 0 = false from rfl,
    show (rangeMask 0 23).getLsbD 0 = true from rfl] at hbit
  simp only [cond_false, cond_true, BitVec.shiftLeft_zero] at hbit
  rw [hflip, hlow] at hbit
  cases hw : word.getLsbD 0 <;> rw [hw] at hbit <;> cases hbit

/-! ## §2. The bits of a letter. -/

/-- A letter with a bit range. -/
def rangedMask (letter : Char) (lo hi : Nat) : Option Word :=
  if 32 ≤ hi then none
  else
    match letter with
    | 'r' | 'R' | 'T' => if hi - lo < 7 then some (rangeMask lo hi) else none
    | 'd' | 'x' | 'X' | 'W' => some (rangeMask lo hi)
    | _ => none

/-- A letter without one. -/
def fixedMask (letter : Char) : Option Word :=
  match letter with
  | 'b' => some (rangeMask 0 23)
  | 'm' => some (rangeMask 0 15)
  | 'o' => some oMask
  | 's' => some sMask
  | 'V' => some (rangeMask 0 11 ||| rangeMask 16 19)
  | 'e' => some (rangeMask 0 7 ||| rangeMask 8 19)
  | 'U' => some (rangeMask 0 3)
  | _ => none

/-- The bits that a letter carries, if the encoder inverts it. -/
def carriedMask (bitfield : List Char) (letter : Char) : Option Word :=
  match parseBitfield bitfield with
  | some (lo, hi) => rangedMask letter lo hi
  | none => if bitfield.isEmpty then fixedMask letter else none

/-- The decoder makes one operand of the letter's bits and the encoder packs it as
those bits. -/
def Carries (bitfield : List Char) (letter : Char) (mask : Word) : Prop :=
  ∀ (word : Word) (address : U64), ∃ operand,
    decodeCode bitfield letter word address = [operand]
      ∧ ∀ (base : Word) (slot : Nat),
        packOperand bitfield letter operand slot base address = .ok (splice base word mask)

theorem ranged_of_parse {bitfield : List Char} {lo hi : Nat}
    (h : parseBitfield bitfield = some (lo, hi)) (f : Nat → Nat → DecodedOperand) :
    ranged bitfield f = [f lo hi] := by
  unfold ranged
  rw [h]

theorem packOperand_ranged {bitfield : List Char} {letter : Char} {lo hi : Nat}
    (h : parseBitfield bitfield = some (lo, hi)) (hletter : isRangedLetter letter = true)
    (operand : DecodedOperand) (slot : Nat) (base : Word) (address : U64) :
    packOperand bitfield letter operand slot base address
      = packRanged letter lo hi operand slot base := by
  unfold packOperand unwrapBitfield
  rw [isEmpty_of_parseBitfield h, hletter, h]
  rfl

theorem packRegister_extractField (word base : Word) (slot : Nat) {lo hi : Nat} (hhi : hi < 32)
    (hlen : hi - lo < 8) :
    packRegister base lo hi ((extractField word lo hi).setWidth 8) slot
      = .ok (splice base word (rangeMask lo hi)) := by
  have hlt := toNat_extractField_lt word lo hhi
  unfold packRegister
  dsimp only
  rw [toNat_byte_extractField word lo hhi hlen, if_neg (by omega),
    setWidth_byte_extractField word hhi hlen, placeField_extractField word base hhi]

theorem packRanged_T {index : Byte} (hindex : index ≠ 0) (lo hi slot : Nat) (base : Word) :
    packRanged 'T' lo hi (.register ⟨.r, index⟩) slot base
      = packRegister base lo hi (index - 1) slot := by
  show (if index = 0 then Except.error
      (EncodeError.registerOutOfRange slot index (2 ^ (hi - lo + 1) - 1))
    else packRegister base lo hi (index - 1) slot) = _
  rw [if_neg hindex]

theorem packRanged_W {v : Int} (hv : 1 ≤ v) (lo hi slot : Nat) (base : Word) :
    packRanged 'W' lo hi (.immediate v) slot base = placeUnsigned base lo hi (v - 1) slot := by
  show (if v < 1 then Except.error (EncodeError.immediateOutOfRange slot v (hi - lo + 1))
    else placeUnsigned base lo hi (v - 1) slot) = _
  rw [if_neg (by omega)]

theorem ranged_carries {bitfield : List Char} {letter : Char} {lo hi : Nat} {mask : Word}
    (h : parseBitfield bitfield = some (lo, hi)) (hmask : rangedMask letter lo hi = some mask) :
    Carries bitfield letter mask := by
  intro word address
  unfold rangedMask at hmask
  split at hmask
  · cases hmask
  have hhi : hi < 32 := by omega
  split at hmask
  · -- r
    obtain ⟨hlen, ⟨⟩⟩ := Option.ite_none_right_eq_some.mp hmask
    refine ⟨_, ranged_of_parse h _, fun base slot => ?_⟩
    rw [packOperand_ranged h rfl]
    exact packRegister_extractField word base slot hhi (by omega)
  · -- R
    obtain ⟨hlen, ⟨⟩⟩ := Option.ite_none_right_eq_some.mp hmask
    refine ⟨_, ranged_of_parse h _, fun base slot => ?_⟩
    rw [packOperand_ranged h rfl]
    exact packRegister_extractField word base slot hhi (by omega)
  · -- T
    obtain ⟨hlen, ⟨⟩⟩ := Option.ite_none_right_eq_some.mp hmask
    refine ⟨_, ranged_of_parse h _, fun base slot => ?_⟩
    have hlt := toNat_byte_extractField word lo hhi (by omega)
    have hsmall := toNat_extractField_lt word lo hhi
    have hle : 2 ^ (hi - lo + 1) ≤ 2 ^ 7 := Nat.pow_le_pow_right (by omega) (by omega)
    rw [packOperand_ranged h rfl, packRanged_T]
    · rw [BitVec.add_sub_cancel]
      exact packRegister_extractField word base slot hhi (by omega)
    · intro hzero
      have := congrArg BitVec.toNat hzero
      rw [BitVec.toNat_add, show (1 : Byte).toNat = 1 from rfl,
        show (0 : Byte).toNat = 0 from rfl] at this
      omega
  · -- d
    cases hmask
    refine ⟨_, ranged_of_parse h _, fun base slot => ?_⟩
    rw [packOperand_ranged h rfl]
    exact placeUnsigned_extractField word base slot hhi
  · -- x
    cases hmask
    refine ⟨_, ranged_of_parse h _, fun base slot => ?_⟩
    rw [packOperand_ranged h rfl]
    exact placeUnsigned_extractField word base slot hhi
  · -- X
    cases hmask
    refine ⟨_, ranged_of_parse h _, fun base slot => ?_⟩
    rw [packOperand_ranged h rfl]
    exact placeUnsigned_extractField word base slot hhi
  · -- W
    cases hmask
    refine ⟨_, ranged_of_parse h _, fun base slot => ?_⟩
    rw [packOperand_ranged h rfl, packRanged_W (by omega), Int.add_sub_cancel]
    exact placeUnsigned_extractField word base slot hhi
  · cases hmask

theorem opaque_carries {letter : Char} {mask : Word}
    (hdecode : ∀ word address, decodeCode [] letter word address = [opaqueOf word mask])
    (hpack : ∀ bits m slot base address, packOperand [] letter (.opaqueBits bits m) slot base address
      = .ok (splice base bits m)) : Carries [] letter mask := by
  intro word address
  refine ⟨_, hdecode word address, fun base slot => ?_⟩
  show packOperand [] letter (.opaqueBits (word &&& mask) mask) slot base address = _
  rw [hpack, splice_and_self]

theorem packOperand_b (target : U64) (base : Word) (address : U64) (slot : Nat) :
    packOperand [] 'b' (.branchTarget target) slot base address
      = packBranch base target address slot := rfl

theorem imm16_carries : Carries [] 'V' (rangeMask 0 11 ||| rangeMask 16 19) := by
  intro word address
  let v : Word := (((word >>> 16) &&& (0xf : Word)) <<< 12) ||| (word &&& (0xfff : Word))
  have hv : v.toNat < 2 ^ 16 := by
    apply toNat_lt_of_high_zero
    intro i hlo hi
    interval_cases i <;> simp [v]
  refine ⟨.immediate v.toNat, rfl, fun base slot => ?_⟩
  show (if (v.toNat : Int) < 0 ∨ 0xffff < (v.toNat : Int)
      then Except.error (EncodeError.immediateOutOfRange slot _ 16)
      else .ok (placeField (placeField base 0 11 (BitVec.ofInt 32 v.toNat &&& (0xfff : Word))) 16 19
        ((BitVec.ofInt 32 v.toNat >>> 12) &&& (0xf : Word)))) = _
  rw [if_neg (by omega), ofInt_toNat, placeField_of_eq base word (by omega),
    placeField_splice _ _ (by omega)]
  all_goals
    apply BitVec.eq_of_getLsbD_eq
    intro i hi
    rw [extractField, getLsbD_field word (by omega)]
    interval_cases i <;> simp [v]

theorem imm20_carries : Carries [] 'e' (rangeMask 0 7 ||| rangeMask 8 19) := by
  intro word address
  let v : Word := (((word >>> 8) &&& (0xfff : Word)) <<< 8) ||| (word &&& (0xff : Word))
  have hv : v.toNat < 2 ^ 20 := by
    apply toNat_lt_of_high_zero
    intro i hlo hi
    interval_cases i <;> simp [v]
  refine ⟨.immediate v.toNat, rfl, fun base slot => ?_⟩
  show (if (v.toNat : Int) < 0 ∨ 0xfffff < (v.toNat : Int)
      then Except.error (EncodeError.immediateOutOfRange slot _ 20)
      else .ok (placeField (placeField base 0 7 (BitVec.ofInt 32 v.toNat &&& (0xff : Word))) 8 19
        ((BitVec.ofInt 32 v.toNat >>> 8) &&& (0xfff : Word)))) = _
  rw [if_neg (by omega), ofInt_toNat, placeField_of_eq base word (by omega),
    placeField_splice _ _ (by omega)]
  all_goals
    apply BitVec.eq_of_getLsbD_eq
    intro i hi
    rw [extractField, getLsbD_field word (by omega)]
    interval_cases i <;> simp [v]

theorem option_carries : Carries [] 'U' (rangeMask 0 3) := by
  intro word address
  have hand : word &&& (0xf : Word) = extractField word 0 3 := by
    apply BitVec.eq_of_getLsbD_eq
    intro i hi
    rw [extractField, getLsbD_field word (by omega)]
    interval_cases i <;> simp
  have hlt := toNat_extractField_lt word 0 (by omega : 3 < 32)
  refine ⟨immediateOf (word &&& (0xf : Word)), rfl, fun base slot => ?_⟩
  rw [hand]
  show (if ((extractField word 0 3).toNat : Int) < 0 ∨ 15 < ((extractField word 0 3).toNat : Int)
      then Except.error (EncodeError.immediateOutOfRange slot _ 4)
      else .ok (placeField base 0 3 (BitVec.ofInt 32 (extractField word 0 3).toNat))) = _
  rw [if_neg (by omega), ofInt_toNat, placeField_extractField word base (by omega)]

theorem registerList_carries : Carries [] 'm' (rangeMask 0 15) := by
  intro word address
  refine ⟨.registerList ((word &&& (0xffff : Word)).setWidth 16), rfl, fun base slot => ?_⟩
  show Except.ok (placeField base 0 15 (((word &&& (0xffff : Word)).setWidth 16).setWidth 32)) = _
  rw [placeField_of_eq base word (by omega)]
  apply BitVec.eq_of_getLsbD_eq
  intro i hi
  rw [extractField, getLsbD_field word (by omega)]
  interval_cases i <;> simp

/-- The letters without a bit range that the encoder inverts. -/
theorem fixed_carries {letter : Char} {mask : Word} (hmask : fixedMask letter = some mask) :
    Carries [] letter mask := by
  unfold fixedMask at hmask
  split at hmask <;> cases hmask
  · -- b
    intro word address
    exact ⟨.branchTarget (address + 8 + wordOffset word * 4), rfl, fun base slot =>
      (packOperand_b _ base address slot).trans (packBranch_decode word base address slot)⟩
  · exact registerList_carries
  · exact opaque_carries (fun _ _ => rfl) (fun _ _ _ _ _ => rfl)
  · exact opaque_carries (fun _ _ => rfl) (fun _ _ _ _ _ => rfl)
  · exact imm16_carries
  · exact imm20_carries
  · exact option_carries

theorem carriedMask_carries {bitfield : List Char} {letter : Char} {mask : Word}
    (hmask : carriedMask bitfield letter = some mask) : Carries bitfield letter mask := by
  unfold carriedMask at hmask
  split at hmask
  · exact ranged_carries ‹_› hmask
  · split at hmask
    · have hempty : bitfield = [] := List.isEmpty_iff.mp ‹_›
      subst hempty
      exact fixed_carries hmask
    · cases hmask

end Armv8Encode.Armv7.Arm

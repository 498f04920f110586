/-
  Armv8Encode.Isa.Armv7.Fields — packing what was extracted.

  A field that is packed with the value extracted from a word turns into the
  bits of that word: the result is a splice under the field's mask.
-/
import Armv8Encode.Isa.Armv7.Operand
import Mathlib.Tactic.IntervalCases

namespace Armv8Encode.Armv7

open Lib

/-- The bits `lo` to `hi`. -/
def rangeMask (lo hi : Nat) : Word := fieldMask 32 lo (hi - lo + 1)

variable {word base : Word} {lo hi slot : Nat}

theorem placeField_eq_splice (base v : Word) (lo hi : Nat) :
    placeField base lo hi v = splice base (v <<< lo) (rangeMask lo hi) :=
  setField_eq_splice base lo _ v

theorem placeField_extractField (word base : Word) (hhi : hi < 32) :
    placeField base lo hi (extractField word lo hi) = splice base word (rangeMask lo hi) :=
  setField_field base word (by omega)

theorem toNat_extractField_lt (word : Word) (lo : Nat) (hhi : hi < 32) :
    (extractField word lo hi).toNat < 2 ^ (hi - lo + 1) := by
  rw [extractField, toNat_field word (by omega)]
  exact BitVec.isLt _

theorem ofInt_toNat (v : Word) : BitVec.ofInt 32 (v.toNat : Int) = v := by
  rw [BitVec.ofInt_natCast, BitVec.ofNat_toNat, BitVec.setWidth_eq]

theorem placeUnsigned_extractField (word base : Word) (slot : Nat) (hhi : hi < 32) :
    placeUnsigned base lo hi (extractField word lo hi).toNat slot
      = .ok (splice base word (rangeMask lo hi)) := by
  have hlt := toNat_extractField_lt word lo hhi
  have hfits : ¬ (((extractField word lo hi).toNat : Int) < 0
      ∨ 2 ^ (hi - lo + 1) ≤ ((extractField word lo hi).toNat : Int)) := by
    have hcast : ((extractField word lo hi).toNat : Int) < 2 ^ (hi - lo + 1) := by
      exact_mod_cast hlt
    omega
  rw [placeUnsigned, if_neg hfits, ofInt_toNat, placeField_extractField word base hhi]

theorem toNat_lt_of_high_zero {v : Word} {k : Nat}
    (h : ∀ i, k ≤ i → i < 32 → v.getLsbD i = false) : v.toNat < 2 ^ k := by
  apply Nat.lt_pow_two_of_testBit
  intro i hi
  rw [BitVec.testBit_toNat]
  by_cases h32 : i < 32
  · exact h i hi h32
  · exact BitVec.getLsbD_of_ge v i (Nat.le_of_not_lt h32)

/-- A byte-sized field, through the byte that a register or condition is kept in. -/
theorem setWidth_byte_extractField (word : Word) (hhi : hi < 32) (hlen : hi - lo < 8) :
    ((extractField word lo hi).setWidth 8).setWidth 32 = extractField word lo hi := by
  apply BitVec.eq_of_toNat_eq
  have hlt := toNat_extractField_lt word lo hhi
  have hle : 2 ^ (hi - lo + 1) ≤ 2 ^ 8 := Nat.pow_le_pow_right (by omega) (by omega)
  simp only [BitVec.toNat_setWidth]
  omega

theorem toNat_byte_extractField (word : Word) (lo : Nat) (hhi : hi < 32) (hlen : hi - lo < 8) :
    ((extractField word lo hi).setWidth 8).toNat = (extractField word lo hi).toNat := by
  have hlt := toNat_extractField_lt word lo hhi
  have hle : 2 ^ (hi - lo + 1) ≤ 2 ^ 8 := Nat.pow_le_pow_right (by omega) (by omega)
  rw [BitVec.toNat_setWidth]
  omega

/-- The bits of a word under a mask, carried as they stand. -/
theorem splice_and_self (base word mask : Word) :
    splice base (word &&& mask) mask = splice base word mask := by
  apply splice_congr
  rw [BitVec.and_assoc, BitVec.and_self]

theorem isEmpty_of_parseBitfield {bitfield : List Char} {p : Nat × Nat}
    (h : parseBitfield bitfield = some p) : bitfield.isEmpty = false := by
  cases bitfield with
  | nil => exact absurd h (by simp [parseBitfield])
  | cons c tail => rfl

/-! ## Fields at a fixed place. -/

/-- A field placed where the word has the same bits. -/
theorem placeField_of_eq {v : Word} (base word : Word) (hhi : hi < 32)
    (h : v &&& BitVec.ofNat 32 (2 ^ (hi - lo + 1) - 1) = extractField word lo hi) :
    placeField base lo hi v = splice base word (rangeMask lo hi) :=
  setField_of_field_eq (by omega) h

/-- Fields of one word placed one after the other. -/
theorem placeField_splice {word v : Word} {lo hi : Nat} (base mask : Word) (hhi : hi < 32)
    (h : v &&& BitVec.ofNat 32 (2 ^ (hi - lo + 1) - 1) = extractField word lo hi) :
    placeField (splice base word mask) lo hi v = splice base word (mask ||| rangeMask lo hi) := by
  rw [placeField_of_eq _ word hhi h, splice_splice]

/-! ## Signed fields. -/

/-- A value of `k + 1` bits, sign-extended: its range. -/
theorem toInt_signExtended (r : Word) (k : Nat) (hk : k < 32) :
    -2 ^ (31 - k) ≤ (((r <<< k).sshiftRight k).signExtend 64).toInt
      ∧ (((r <<< k).sshiftRight k).signExtend 64).toInt < 2 ^ (31 - k) := by
  rw [BitVec.toInt_signExtend_of_le (by omega), BitVec.toInt_sshiftRight, Int.shiftRight_eq_div_pow]
  have hlo := BitVec.le_toInt (r <<< k)
  have hhi := BitVec.toInt_lt (x := r <<< k)
  have hsplit : (2 : Int) ^ 31 = 2 ^ (31 - k) * 2 ^ k := by
    rw [← pow_add, Nat.sub_add_cancel (by omega)]
  have hpos : (0 : Int) < 2 ^ k := by positivity
  simp only [Nat.reduceSub] at hlo hhi
  push_cast
  constructor
  · rw [Int.le_ediv_iff_mul_le hpos, neg_mul, ← hsplit]
    exact hlo
  · rw [Int.ediv_lt_iff_lt_mul hpos, ← hsplit]
    exact hhi

theorem setWidth_signExtend (x : Word) : (x.signExtend 64).setWidth 32 = x := by
  apply BitVec.eq_of_getLsbD_eq
  intro i hi
  simp only [BitVec.getLsbD_setWidth, BitVec.getLsbD_signExtend, hi, decide_true, Bool.true_and,
    ↓reduceIte]
  simp [show i < 64 by omega]

theorem ofInt_toInt (x : U64) : BitVec.ofInt 32 x.toInt = x.setWidth 32 := by
  rw [← setWidth_ofInt x.toInt (by omega : 32 ≤ 64), BitVec.ofInt_toInt]

/-! ## Slots. -/

variable {operands rest : List DecodedOperand} {consumed : Nat}

theorem operandAt_of_drop {operand : DecodedOperand}
    (h : operands.drop consumed = operand :: rest) :
    operandAt operands consumed = .ok operand := by
  have hget : operands[consumed]? = some operand := by
    have h0 : (operands.drop consumed)[0]? = operands[consumed + 0]? := List.getElem?_drop
    rw [h] at h0
    exact h0.symm
  unfold operandAt
  rw [hget]

/-- What stands behind the operands of one escape. -/
theorem drop_add_length {xs ys zs : List DecodedOperand}
    (h : operands.drop consumed = xs ++ (ys ++ zs)) :
    operands.drop (consumed + xs.length) = ys ++ zs := by
  rw [← List.drop_drop, h, List.drop_left]

end Armv8Encode.Armv7

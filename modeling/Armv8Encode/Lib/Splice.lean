/-
  Armv8Encode.Lib.Splice — overwriting the masked bits of a word.

  A word is often built field by field, each write clearing some bits and
  setting them anew.  As long as all writes take their bits from one source,
  only the union of the masks counts: the result is the first word with the
  bits of the source under that union.
-/
import Armv8Encode.Lib.Words

namespace Armv8Encode.Lib

variable {n : Nat}

/-! ## §1. Masked bits. -/

/-- The word `w` with the bits of `x` under the mask. -/
def splice (w x mask : BitVec n) : BitVec n := (w &&& ~~~mask) ||| (x &&& mask)

theorem getLsbD_splice (w x mask : BitVec n) (i : Nat) :
    (splice w x mask).getLsbD i = bif mask.getLsbD i then x.getLsbD i else w.getLsbD i := by
  by_cases hi : i < n
  · simp only [splice, BitVec.getLsbD_or, BitVec.getLsbD_and, BitVec.getLsbD_not, hi,
      decide_true, Bool.true_and]
    cases mask.getLsbD i <;> simp
  · have hge : n ≤ i := Nat.le_of_not_lt hi
    simp [BitVec.getLsbD_of_ge _ i hge]

theorem splice_zero (w x : BitVec n) : splice w x 0#n = w := by
  simp [splice]

/-- Two writes from one source are one write. -/
theorem splice_splice (w x m k : BitVec n) :
    splice (splice w x m) x k = splice w x (m ||| k) := by
  apply BitVec.eq_of_getLsbD_eq
  intro i _
  simp only [getLsbD_splice, BitVec.getLsbD_or]
  cases m.getLsbD i <;> cases k.getLsbD i <;> rfl

/-- Two writes are one write of what the second leaves of the first and its own bits. -/
theorem splice_splice_source (w x y m k : BitVec n) :
    splice (splice w x m) y k = splice w (splice x y k) (m ||| k) := by
  apply BitVec.eq_of_getLsbD_eq
  intro i _
  simp only [getLsbD_splice, BitVec.getLsbD_or]
  cases m.getLsbD i <;> cases k.getLsbD i <;> rfl

/-- Only the masked bits of the source count. -/
theorem splice_congr {x y mask : BitVec n} (w : BitVec n) (h : x &&& mask = y &&& mask) :
    splice w x mask = splice w y mask := by
  rw [splice, splice, h]

/-- The bits outside a mask are the old ones. -/
theorem splice_and_of_disjoint {w x mask keep : BitVec n} (h : mask &&& keep = 0#n) :
    splice w x mask &&& keep = w &&& keep := by
  apply BitVec.eq_of_getLsbD_eq
  intro i hi
  have hbit : (mask &&& keep).getLsbD i = false := by rw [h, BitVec.getLsbD_zero]
  rw [BitVec.getLsbD_and] at hbit
  simp only [BitVec.getLsbD_and, getLsbD_splice]
  cases hm : mask.getLsbD i
  · rfl
  · rw [hm, Bool.true_and] at hbit
    simp [hbit]

/-- Bits on which the two words agree are theirs after the write. -/
theorem splice_and_congr {w x mask keep : BitVec n} (h : w &&& keep = x &&& keep) :
    splice w x mask &&& keep = x &&& keep := by
  apply BitVec.eq_of_getLsbD_eq
  intro i _
  have hbit : (w &&& keep).getLsbD i = (x &&& keep).getLsbD i := by rw [h]
  simp only [BitVec.getLsbD_and, getLsbD_splice] at hbit ⊢
  cases mask.getLsbD i
  · exact hbit
  · rfl

/-- A write gives the source back if and only if the two words agree outside the mask. -/
theorem splice_eq_iff {w x mask : BitVec n} :
    splice w x mask = x ↔ w &&& ~~~mask = x &&& ~~~mask := by
  constructor
  · intro h
    have hkeep : splice w x mask &&& ~~~mask = w &&& ~~~mask :=
      splice_and_of_disjoint (by simp)
    rw [← hkeep, h]
  · intro h
    rw [splice, h]
    apply BitVec.eq_of_getLsbD_eq
    intro i hi
    simp only [BitVec.getLsbD_or, BitVec.getLsbD_and, BitVec.getLsbD_not, hi, decide_true,
      Bool.true_and]
    cases mask.getLsbD i <;> simp

/-! ## §2. Fields. -/

/-- The word `w` with a value in the `len` bits from bit `lo` on. -/
def setField (w : BitVec n) (lo len : Nat) (v : BitVec n) : BitVec n :=
  (w &&& ~~~ fieldMask n lo len) ||| ((v &&& BitVec.ofNat n (2 ^ len - 1)) <<< lo)

theorem shiftLeft_and_fieldMask (v : BitVec n) (lo len : Nat) :
    (v &&& BitVec.ofNat n (2 ^ len - 1)) <<< lo = (v <<< lo) &&& fieldMask n lo len := by
  rw [fieldMask, BitVec.shiftLeft_and_distrib]

theorem setField_eq_splice (w : BitVec n) (lo len : Nat) (v : BitVec n) :
    setField w lo len v = splice w (v <<< lo) (fieldMask n lo len) := by
  rw [setField, splice, shiftLeft_and_fieldMask]

/-- A field read from a word and placed where it was read. -/
theorem setField_field (w x : BitVec n) {lo len : Nat} (hlen : len ≤ n) :
    setField w lo len (field x lo len) = splice w x (fieldMask n lo len) := by
  rw [setField_eq_splice]
  apply splice_congr
  rw [field_shiftLeft x hlen, BitVec.and_assoc, BitVec.and_self]

/-- A field read at one place and placed at another carries the bits of a word that
has the same field there. -/
theorem setField_of_field_eq {w v x : BitVec n} {lo len : Nat} (hlen : len ≤ n)
    (h : v &&& BitVec.ofNat n (2 ^ len - 1) = field x lo len) :
    setField w lo len v = splice w x (fieldMask n lo len) := by
  rw [← setField_field w x hlen, setField, setField, h]
  congr 2
  apply BitVec.eq_of_getLsbD_eq
  intro i hi
  simp only [BitVec.getLsbD_and, getLsbD_field x hlen, getLsbD_ones hlen]
  cases decide (i < len) <;> simp

end Armv8Encode.Lib

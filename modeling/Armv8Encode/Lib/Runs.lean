/-
  Armv8Encode.Lib.Runs — a run of ones, rotated and repeated.

  A bit pattern of period `size` whose first `ones` bits are set, rotated
  right by `rotate`.  The file has what a reader of such patterns needs: the
  pattern seen through half of its period is constant or again such a
  pattern.
-/
import Mathlib.Data.Nat.Bitwise

namespace Armv8Encode.Lib

/-- Bit `i` of `ones` set bits, rotated right by `rotate` within `size` bits,
repeated without end. -/
def runBit (size ones rotate i : Nat) : Bool := decide ((i + rotate) % size < ones)

theorem mod_of_lt_two_mul {n size : Nat} (h : n < 2 * size) :
    n % size = if n < size then n else n - size := by
  by_cases hlt : n < size
  · rw [if_pos hlt, Nat.mod_eq_of_lt hlt]
  · rw [if_neg hlt, Nat.mod_eq_sub_mod (by omega), Nat.mod_eq_of_lt (by omega)]

theorem runBit_eq {size ones rotate i : Nat} (hi : i < size) (hrotate : rotate < size) :
    runBit size ones rotate i
      = decide ((if i + rotate < size then i + rotate else i + rotate - size) < ones) := by
  unfold runBit
  rw [mod_of_lt_two_mul (by omega)]

/-- A run that leaves a bit clear is not all ones. -/
theorem exists_runBit_false {size ones rotate : Nat} (hones : ones < size)
    (hrotate : rotate < size) : ∃ i < size, runBit size ones rotate i = false := by
  by_cases h : ones < rotate
  · refine ⟨size - rotate + ones, by omega, ?_⟩
    rw [runBit_eq (by omega) hrotate, if_neg (by omega)]
    simp only [decide_eq_false_iff_not]
    omega
  · refine ⟨ones - rotate, by omega, ?_⟩
    rw [runBit_eq (by omega) hrotate, if_pos (by omega)]
    simp only [decide_eq_false_iff_not]
    omega

theorem exists_runBit_true {size ones rotate : Nat} (hones : 0 < ones)
    (hrotate : rotate < size) : ∃ i < size, runBit size ones rotate i = true := by
  by_cases h : rotate = 0
  · refine ⟨0, by omega, ?_⟩
    rw [runBit_eq (by omega) hrotate, if_pos (by omega)]
    simp only [decide_eq_true_eq]
    omega
  · refine ⟨size - rotate, by omega, ?_⟩
    rw [runBit_eq (by omega) hrotate, if_neg (by omega)]
    simp only [decide_eq_true_eq]
    omega

/-- The low half of a period: no bit, every bit, or a run of half the size. -/
theorem runBit_half {half ones rotate : Nat} (hones : ones < 2 * half)
    (hrotate : rotate < 2 * half) :
    (∀ i < half, runBit (2 * half) ones rotate i = false) ∨
    (∀ i < half, runBit (2 * half) ones rotate i = true) ∨
    ∃ ones' rotate', 0 < ones' ∧ ones' < half ∧ rotate' < half ∧
      ∀ i < half, runBit (2 * half) ones rotate i = runBit half ones' rotate' i := by
  have hbit : ∀ i < half, runBit (2 * half) ones rotate i = decide
      ((if i + rotate < 2 * half then i + rotate else i + rotate - 2 * half) < ones) :=
    fun i hi => runBit_eq (by omega) hrotate
  by_cases hlow : rotate ≤ half
  · -- the half starts inside the run or behind it, and nothing wraps around
    by_cases hnone : ones ≤ rotate
    · refine .inl (fun i hi => ?_)
      rw [hbit i hi, if_pos (by omega), decide_eq_false_iff_not]
      omega
    by_cases hall : half ≤ ones - rotate
    · refine .inr (.inl (fun i hi => ?_))
      rw [hbit i hi, if_pos (by omega), decide_eq_true_eq]
      omega
    · refine .inr (.inr ⟨ones - rotate, 0, by omega, by omega, by omega, fun i hi => ?_⟩)
      rw [hbit i hi, runBit_eq hi (by omega), if_pos (by omega), if_pos (by omega),
        decide_eq_decide]
      omega
  · -- the run starts again inside the half, at `2 * half - rotate`
    by_cases hzero : ones = 0
    · refine .inl (fun i hi => ?_)
      rw [hbit i hi, decide_eq_false_iff_not]
      omega
    by_cases hshort : ones ≤ rotate
    · refine .inr (.inr ⟨min ones (rotate - half), rotate - half, by omega, by omega, by omega,
        fun i hi => ?_⟩)
      rw [hbit i hi, runBit_eq hi (by omega), decide_eq_decide]
      by_cases hwrap : i + rotate < 2 * half
      · rw [if_pos hwrap, if_pos (by omega)]
        omega
      · rw [if_neg hwrap, if_neg (by omega)]
        omega
    · refine .inr (.inr ⟨ones - half, rotate - half, by omega, by omega, by omega,
        fun i hi => ?_⟩)
      rw [hbit i hi, runBit_eq hi (by omega), decide_eq_decide]
      by_cases hwrap : i + rotate < 2 * half
      · rw [if_pos hwrap, if_pos (by omega)]
        omega
      · rw [if_neg hwrap, if_neg (by omega)]
        omega

end Armv8Encode.Lib

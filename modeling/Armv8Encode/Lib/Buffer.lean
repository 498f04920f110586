/-
  Armv8Encode.Lib.Buffer — offsets rounded up, pieces written front to back.

  A file writer knows two things about an offset: the next multiple of an
  alignment, and how far the pieces written so far reach.  The pieces are of
  any type; `size` says how many bytes each one takes.  `RunAt` is the
  statement about a written file that the writers' proofs work with: these
  pieces stand in a row from that offset on.
-/
import Mathlib.Algebra.BigOperators.Group.List.Basic
import Mathlib.Algebra.GroupWithZero.Nat

namespace Armv8Encode.Lib

/-! ## §1. Rounding up. -/

/-- The least multiple of `align` at or above `value`. -/
def alignUp (value align : Nat) : Nat :=
  if value % align = 0 then value else value + (align - value % align)

theorem le_alignUp (value align : Nat) : value ≤ alignUp value align := by
  unfold alignUp
  split <;> omega

theorem alignUp_one (value : Nat) : alignUp value 1 = value := by
  simp [alignUp, Nat.mod_one]

theorem dvd_alignUp {align : Nat} (value : Nat) (h : 0 < align) :
    align ∣ alignUp value align := by
  unfold alignUp
  split
  · exact Nat.dvd_of_mod_eq_zero (by assumption)
  · have hlt := Nat.mod_lt value h
    have hdiv := Nat.div_add_mod value align
    refine ⟨value / align + 1, ?_⟩
    rw [Nat.mul_add, Nat.mul_one]
    omega

theorem alignUp_of_dvd {value align : Nat} (h : align ∣ value) : alignUp value align = value := by
  unfold alignUp
  rw [if_pos (Nat.mod_eq_zero_of_dvd h)]

/-- No multiple of `align` lies between a value and the value rounded up. -/
theorem alignUp_le_of_dvd {value align x : Nat} (hdvd : align ∣ x) (h : value ≤ x) :
    alignUp value align ≤ x := by
  unfold alignUp
  split
  · exact h
  · next hrem =>
    obtain ⟨k, rfl⟩ := hdvd
    have hdiv := Nat.div_add_mod value align
    have hlt : align * (value / align) < align * k := by omega
    have hk : value / align + 1 ≤ k := Nat.lt_of_mul_lt_mul_left hlt
    have hmul := Nat.mul_le_mul_left align hk
    rw [Nat.mul_add, Nat.mul_one] at hmul
    omega

theorem alignUp_mono {a b align : Nat} (halign : 0 < align) (h : a ≤ b) :
    alignUp a align ≤ alignUp b align :=
  alignUp_le_of_dvd (dvd_alignUp b halign) (Nat.le_trans h (le_alignUp b align))

/-- Rounding up by masking and by the remainder agree. -/
theorem alignUp_eq_div {align : Nat} (value : Nat) (h : 0 < align) :
    alignUp value align = (value + align - 1) / align * align := by
  have hdiv := Nat.div_add_mod value align
  have hlt := Nat.mod_lt value h
  unfold alignUp
  split
  · next hzero =>
    have hq : (value + align - 1) / align = value / align := by
      rw [Nat.div_eq_iff h]
      rw [Nat.mul_comm] at hdiv
      omega
    rw [hq, Nat.mul_comm]
    omega
  · next hne =>
    have hq : (value + align - 1) / align = value / align + 1 := by
      rw [Nat.div_eq_iff h, Nat.add_mul, Nat.one_mul]
      rw [Nat.mul_comm] at hdiv
      omega
    rw [hq, Nat.add_mul, Nat.one_mul, Nat.mul_comm]
    omega

/-! ## §2. Pieces in a row. -/

section Pieces

variable {α : Type} (size : α → Nat)

/-- Bytes that the pieces take, written one after the other. -/
def extent (xs : List α) : Nat := (xs.map size).sum

@[simp] theorem extent_nil : extent size [] = 0 := rfl

@[simp] theorem extent_cons (x : α) (xs : List α) :
    extent size (x :: xs) = size x + extent size xs := rfl

@[simp] theorem extent_append (xs ys : List α) :
    extent size (xs ++ ys) = extent size xs + extent size ys := by
  simp [extent]

/-- Pieces of one size take that size each. -/
theorem extent_of_size {n : Nat} {xs : List α} (h : ∀ x ∈ xs, size x = n) :
    extent size xs = xs.length * n := by
  induction xs with
  | nil => simp
  | cons x xs ih =>
    rw [extent_cons, h x List.mem_cons_self, ih fun y hy => h y (List.mem_cons_of_mem x hy),
      List.length_cons, Nat.add_mul, Nat.one_mul, Nat.add_comm]

/-- In the file `xs` the pieces `run` stand in a row from `offset` on. -/
def RunAt (xs : List α) (offset : Nat) (run : List α) : Prop :=
  ∃ before after, xs = before ++ run ++ after ∧ extent size before = offset

variable {size}

theorem RunAt.append {xs run : List α} {offset : Nat} (h : RunAt size xs offset run)
    (ys : List α) : RunAt size (xs ++ ys) offset run := by
  obtain ⟨before, after, rfl, hoffset⟩ := h
  exact ⟨before, after ++ ys, by simp, hoffset⟩

theorem runAt_end (xs run : List α) : RunAt size (xs ++ run) (extent size xs) run :=
  ⟨xs, [], by simp, rfl⟩

end Pieces

/-! ## §3. Ranges placed by a cursor that only moves forward. -/

/-- The ranges `(start, length)` can be passed one after the other from `cursor` on. -/
def Forward : Nat → List (Nat × Nat) → Prop
  | _, [] => True
  | cursor, r :: rest => cursor ≤ r.1 ∧ Forward (r.1 + r.2) rest

theorem Forward.start_le {cursor : Nat} {rs : List (Nat × Nat)} (h : Forward cursor rs)
    {r : Nat × Nat} (hr : r ∈ rs) : cursor ≤ r.1 := by
  induction rs generalizing cursor with
  | nil => cases hr
  | cons q rs ih =>
    obtain ⟨hle, hrest⟩ := h
    obtain rfl | hr := List.mem_cons.mp hr
    · exact hle
    · have hnext := ih hrest hr
      omega

/-- Passing is possible when the ranges lie past the cursor, in order. -/
theorem forward_iff {cursor : Nat} {rs : List (Nat × Nat)} :
    Forward cursor rs
      ↔ (∀ r ∈ rs, cursor ≤ r.1) ∧ rs.Pairwise fun r q => r.1 + r.2 ≤ q.1 := by
  induction rs generalizing cursor with
  | nil => simp [Forward]
  | cons r rs ih =>
    constructor
    · intro h
      have hmem : ∀ q ∈ r :: rs, cursor ≤ q.1 := fun q hq => h.start_le hq
      refine ⟨hmem, List.pairwise_cons.mpr ⟨?_, (ih.mp h.2).2⟩⟩
      intro q hq
      exact Forward.start_le h.2 hq
    · rintro ⟨hmem, hpairs⟩
      obtain ⟨hhead, htail⟩ := List.pairwise_cons.mp hpairs
      exact ⟨hmem r List.mem_cons_self, ih.mpr ⟨hhead, htail⟩⟩

end Armv8Encode.Lib

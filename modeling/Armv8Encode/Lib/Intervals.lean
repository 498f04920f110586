/-
  Armv8Encode.Lib.Intervals — half-open ranges of natural numbers.

  A list of ranges covers a set.  A long run is a stretch of covered numbers of
  a given length; a stretch cannot cross a number that is not covered
  (`LongRun.split`).  A list cuts ranges out of an interval when it lists what
  is left of the interval, in order and without empty pieces.
-/
import Mathlib.Order.Interval.Set.LinearOrder
import Mathlib.Data.Nat.Basic

namespace Armv8Encode.Lib

/-! ## §1. What ranges cover. -/

/-- The numbers in some range `[start, stop)` of a list. -/
def covered (ranges : List (Nat × Nat)) : Set Nat := {x | ∃ r ∈ ranges, x ∈ Set.Ico r.1 r.2}

theorem mem_covered {ranges : List (Nat × Nat)} {x : Nat} :
    x ∈ covered ranges ↔ ∃ r ∈ ranges, r.1 ≤ x ∧ x < r.2 := Iff.rfl

@[simp] theorem covered_nil : covered [] = ∅ := by
  ext x
  simp [mem_covered]

theorem covered_cons (r : Nat × Nat) (ranges : List (Nat × Nat)) :
    covered (r :: ranges) = Set.Ico r.1 r.2 ∪ covered ranges := by
  ext x
  simp [mem_covered]

theorem covered_perm {ranges ranges' : List (Nat × Nat)} (h : List.Perm ranges ranges') :
    covered ranges = covered ranges' := by
  ext x
  simp only [mem_covered, h.mem_iff]

/-- What is covered lies at or past the least start. -/
theorem le_of_mem_covered {ranges : List (Nat × Nat)} {least x : Nat}
    (hleast : ∀ r ∈ ranges, least ≤ r.1) (hx : x ∈ covered ranges) : least ≤ x := by
  obtain ⟨r, hr, hge, -⟩ := mem_covered.mp hx
  exact Nat.le_trans (hleast r hr) hge

/-- Every range stops at or before the start of the later ones. -/
def Ascending (ranges : List (Nat × Nat)) : Prop := ranges.Pairwise fun a b => a.2 ≤ b.1

/-! ## §2. Long runs. -/

/-- A stretch of `length` numbers of a set. -/
def LongRun (length : Nat) (S : Set Nat) : Prop := ∃ start, Set.Ico start (start + length) ⊆ S

theorem LongRun.mono {length : Nat} {S T : Set Nat} (h : LongRun length S) (hST : S ⊆ T) :
    LongRun length T := by
  obtain ⟨start, hrun⟩ := h
  exact ⟨start, hrun.trans hST⟩

/-- An interval that has a long run is as long. -/
theorem LongRun.le_of_Ico {length start stop : Nat} (hpos : 0 < length)
    (h : LongRun length (Set.Ico start stop)) : length ≤ stop - start := by
  obtain ⟨first, hrun⟩ := h
  have hfirst : first ∈ Set.Ico start stop := hrun ⟨Nat.le_refl _, by omega⟩
  have hlast : first + length - 1 ∈ Set.Ico start stop := hrun ⟨by omega, by omega⟩
  have := hfirst.1
  have := hlast.2
  omega

/-- A long run lies on one side of a number that is missing. -/
theorem LongRun.split {length gap : Nat} {S : Set Nat} (h : LongRun length S) (hgap : gap ∉ S) :
    LongRun length (S ∩ Set.Iio gap) ∨ LongRun length (S ∩ Set.Ioi gap) := by
  obtain ⟨start, hrun⟩ := h
  by_cases hle : start + length ≤ gap
  · exact .inl ⟨start, fun x hx => ⟨hrun hx, Nat.lt_of_lt_of_le hx.2 hle⟩⟩
  · by_cases hlt : gap < start
    · exact .inr ⟨start, fun x hx => ⟨hrun hx, Nat.lt_of_lt_of_le hlt hx.1⟩⟩
    · exact absurd (hrun ⟨by omega, by omega⟩) hgap

/-! ## §3. Cutting ranges out of an interval. -/

/-- Pieces that list what ranges leave of an interval. -/
structure CutsOut (pieces ranges : List (Nat × Nat)) (start stop : Nat) : Prop where
  nonempty : ∀ piece ∈ pieces, piece.1 < piece.2
  ascending : Ascending pieces
  covers : covered pieces = Set.Ico start stop \ covered ranges

namespace CutsOut

variable {pieces ranges : List (Nat × Nat)} {start stop : Nat}

/-- Only what the ranges cover inside the interval matters. -/
theorem congr {ranges' : List (Nat × Nat)} (h : CutsOut pieces ranges start stop)
    (hsame : ∀ x ∈ Set.Ico start stop, x ∈ covered ranges ↔ x ∈ covered ranges') :
    CutsOut pieces ranges' start stop where
  nonempty := h.nonempty
  ascending := h.ascending
  covers := by
    rw [h.covers]
    ext x
    simp only [Set.mem_sdiff]
    refine and_congr_right fun hx => ?_
    rw [hsame x hx]

theorem bounds (h : CutsOut pieces ranges start stop) {piece : Nat × Nat} (hpiece : piece ∈ pieces) :
    start ≤ piece.1 ∧ piece.2 ≤ stop := by
  have hlt := h.nonempty piece hpiece
  have hfirst : piece.1 ∈ covered pieces := ⟨piece, hpiece, Nat.le_refl _, hlt⟩
  have hlast : piece.2 - 1 ∈ covered pieces := ⟨piece, hpiece, by omega, by omega⟩
  rw [h.covers] at hfirst hlast
  have := hfirst.1.1
  have := hlast.1.2
  omega

/-- Nothing is left of an empty interval. -/
theorem of_stop_le (h : stop ≤ start) : CutsOut [] ranges start stop where
  nonempty := by simp
  ascending := .nil
  covers := by
    rw [covered_nil, Set.Ico_eq_empty (by omega), Set.empty_sdiff]

/-- Without ranges the whole interval is left. -/
theorem whole (h : start < stop) : CutsOut [(start, stop)] [] start stop where
  nonempty := by simpa using h
  ascending := List.pairwise_singleton _ _
  covers := by simp [covered_cons]

/-- A range that starts after the interval does leaves a piece before it. -/
theorem piece {first last : Nat} (hfirst : start < first)
    (hlater : ∀ r ∈ ranges, first ≤ r.1)
    (h : CutsOut pieces ranges (max (min last stop) (min first stop)) stop) (hstop : start < stop)
    (hle : first ≤ last) :
    CutsOut ((start, min first stop) :: pieces) ((first, last) :: ranges) start stop where
  nonempty := by
    intro piece hpiece
    rcases List.mem_cons.mp hpiece with rfl | hrest
    · simp only
      omega
    · exact h.nonempty piece hrest
  ascending := by
    refine .cons (fun piece hpiece => ?_) h.ascending
    have := (h.bounds hpiece).1
    simp only
    omega
  covers := by
    rw [covered_cons, h.covers, covered_cons]
    ext x
    have hbefore : x < first → x ∉ covered ranges := by
      intro hx hcovered
      have := le_of_mem_covered hlater hcovered
      omega
    simp only [Set.mem_union, Set.mem_sdiff, Set.mem_Ico, not_or, not_and, not_lt]
    by_cases hx : x < first
    · have := hbefore hx
      constructor
      · rintro (hx' | ⟨hx', -⟩)
        · exact ⟨by omega, by omega, this⟩
        · exact ⟨by omega, by omega, this⟩
      · rintro ⟨hx', -, -⟩
        exact .inl (by omega)
    · constructor
      · rintro (hx' | ⟨hx', hout⟩)
        · omega
        · exact ⟨by omega, by omega, hout⟩
      · rintro ⟨hx', hafter, hout⟩
        exact .inr ⟨by omega, hout⟩

/-- A range that starts at or before the interval moves its start. -/
theorem skip {first last : Nat} (hfirst : first ≤ start)
    (h : CutsOut pieces ranges (max last start) stop) :
    CutsOut pieces ((first, last) :: ranges) start stop where
  nonempty := h.nonempty
  ascending := h.ascending
  covers := by
    rw [h.covers, covered_cons]
    ext x
    simp only [Set.mem_union, Set.mem_sdiff, Set.mem_Ico, not_or, not_and, not_lt]
    constructor
    · rintro ⟨hx, hout⟩
      exact ⟨by omega, by omega, hout⟩
    · rintro ⟨hx, hafter, hout⟩
      have := hafter (by omega)
      exact ⟨by omega, hout⟩

end CutsOut

end Armv8Encode.Lib

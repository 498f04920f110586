/-
  Armv8Encode.Lib.FreePool — pieces cut out of a pool.

  A pool is a list of disjoint pieces of some whole.  An allocation replaces a
  piece by a part of it and hands another part out.  `CutFrom` says that what
  is still free and what was handed out are disjoint parts of the pool; it is
  kept by every way of cutting a piece, by taking a cut back, and when what was
  handed out shrinks.
-/
import Mathlib.Data.List.Perm.Basic
import Mathlib.Data.List.MinMax
import Mathlib.Order.Disjoint

namespace Armv8Encode.Lib

variable {α : Type} [PartialOrder α] [OrderBot α]

/-- Disjoint pieces, free or taken, each inside a piece of the pool. -/
structure CutFrom (pool free taken : List α) : Prop where
  apart : (free ++ taken).Pairwise Disjoint
  inside : ∀ x ∈ free ++ taken, ∃ whole ∈ pool, x ≤ whole

namespace CutFrom

theorem refl {pool : List α} (h : pool.Pairwise Disjoint) : CutFrom pool pool [] where
  apart := by
    rw [List.append_nil]
    exact h
  inside := by
    intro x hx
    rw [List.append_nil] at hx
    exact ⟨x, hx, le_refl x⟩

theorem disjoint_perm {xs ys : List α} (h : List.Perm xs ys) :
    xs.Pairwise Disjoint ↔ ys.Pairwise Disjoint :=
  h.pairwise_iff fun hxy => hxy.symm

/-- Only what is free and what is taken matters, not where it stands. -/
theorem perm {pool free taken free' taken' : List α} (h : CutFrom pool free taken)
    (hperm : List.Perm (free ++ taken) (free' ++ taken')) : CutFrom pool free' taken' where
  apart := (disjoint_perm hperm).mp h.apart
  inside := fun x hx => h.inside x (hperm.mem_iff.mpr hx)

/-- A piece may be replaced by disjoint parts of it, free or taken. -/
theorem split {pool free taken : List α} {whole : α}
    (h : CutFrom pool (whole :: free) taken) (parts : List α) (hparts : ∀ x ∈ parts, x ≤ whole)
    (hapart : parts.Pairwise Disjoint) : CutFrom pool (parts ++ free) taken := by
  have hrest := h.apart
  rw [List.cons_append, List.pairwise_cons] at hrest
  constructor
  · rw [List.append_assoc, List.pairwise_append]
    refine ⟨hapart, hrest.2, ?_⟩
    intro x hx y hy
    exact (hrest.1 y hy).mono_left (hparts x hx)
  · intro x hx
    rw [List.append_assoc, List.mem_append] at hx
    cases hx with
    | inl hpart =>
      obtain ⟨o, ho, hle⟩ := h.inside whole (by simp)
      exact ⟨o, ho, le_trans (hparts x hpart) hle⟩
    | inr hold => exact h.inside x (List.mem_cons_of_mem _ hold)

/-- What was handed out may shrink. -/
theorem shrink {pool free taken smaller : List α} (h : CutFrom pool free taken)
    (hle : List.Forall₂ (· ≤ ·) smaller taken) : CutFrom pool free smaller := by
  have hmem : ∀ x ∈ smaller, ∃ y ∈ taken, x ≤ y := by
    intro x hx
    obtain ⟨i, hi, rfl⟩ := List.getElem_of_mem hx
    have hlen := hle.length_eq
    exact ⟨taken[i], List.getElem_mem _, (List.forall₂_iff_get.mp hle).2 i hi (hlen ▸ hi)⟩
  obtain ⟨hfree, htaken, hcross⟩ := List.pairwise_append.mp h.apart
  constructor
  · rw [List.pairwise_append]
    refine ⟨hfree, ?_, ?_⟩
    · clear hmem hcross h
      induction hle with
      | nil => exact .nil
      | cons hxy hrest ih =>
        rw [List.pairwise_cons] at htaken ⊢
        refine ⟨?_, ih htaken.2⟩
        intro z hz
        obtain ⟨i, hi, rfl⟩ := List.getElem_of_mem hz
        have hlen := hrest.length_eq
        have hzy := (List.forall₂_iff_get.mp hrest).2 i hi (hlen ▸ hi)
        exact (htaken.1 _ (List.getElem_mem _)).mono hxy hzy
    · intro x hx y hy
      obtain ⟨z, hz, hyz⟩ := hmem y hy
      exact (hcross x hx z hz).mono_right hyz
  · intro x hx
    rw [List.mem_append] at hx
    cases hx with
    | inl hx => exact h.inside x (List.mem_append_left _ hx)
    | inr hx =>
      obtain ⟨y, hy, hxy⟩ := hmem x hx
      obtain ⟨o, ho, hyo⟩ := h.inside y (List.mem_append_right _ hy)
      exact ⟨o, ho, le_trans hxy hyo⟩

/-- The whole piece at a place is used up, and a part of it is taken. -/
theorem takeLast {pool free taken : List α} {i : Nat} {whole part : α}
    (h : CutFrom pool free taken) (hi : free[i]? = some whole) (hpart : part ≤ whole) :
    CutFrom pool (free.eraseIdx i) (taken ++ [part]) := by
  obtain ⟨hlt, rfl⟩ := List.getElem?_eq_some_iff.mp hi
  have hcons : CutFrom pool (free[i] :: free.eraseIdx i) taken :=
    h.perm ((List.getElem_cons_eraseIdx_perm hlt).symm.append_right taken)
  have hsplit := hcons.split [part] (by simpa using hpart) (List.pairwise_singleton _ _)
  refine hsplit.perm ?_
  rw [List.singleton_append, List.cons_append, ← List.append_assoc]
  exact (List.perm_append_singleton part (free.eraseIdx i ++ taken)).symm

/-- A place keeps one part of its piece, and a disjoint part is taken. -/
theorem takePart {pool free taken : List α} {i : Nat} {whole rest part : α}
    (h : CutFrom pool free taken) (hi : free[i]? = some whole) (hrest : rest ≤ whole)
    (hpart : part ≤ whole) (hapart : Disjoint rest part) :
    CutFrom pool (free.set i rest) (taken ++ [part]) := by
  obtain ⟨hlt, rfl⟩ := List.getElem?_eq_some_iff.mp hi
  have hcons : CutFrom pool (free[i] :: free.eraseIdx i) taken :=
    h.perm ((List.getElem_cons_eraseIdx_perm hlt).symm.append_right taken)
  have hsplit := hcons.split [rest, part] (by simp [hrest, hpart]) (by simp [hapart])
  refine hsplit.perm ?_
  have hset : List.Perm (rest :: free.eraseIdx i) (free.set i rest) := by
    have hlt' : i < (free.set i rest).length := by
      rw [List.length_set]
      exact hlt
    have := List.getElem_cons_eraseIdx_perm hlt'
    rwa [List.getElem_set_self, List.eraseIdx_set_eq] at this
  have hswap : List.Perm ([rest, part] ++ free.eraseIdx i ++ taken)
      (part :: (rest :: free.eraseIdx i ++ taken)) := List.Perm.swap _ _ _
  have hend := (List.perm_append_singleton part (rest :: free.eraseIdx i ++ taken)).symm
  have hplaced := (hset.append_right taken).append_right [part]
  rw [List.append_assoc (free.set i rest)] at hplaced
  exact (hswap.trans hend).trans hplaced

/-- The last piece taken may be given back in the place of any free piece. -/
theorem giveBack {pool free taken : List α} {j : Nat} {part : α} (hj : j < free.length)
    (h : CutFrom pool free (taken ++ [part])) : CutFrom pool (free.set j part) taken := by
  have hset : List.Perm (part :: free.eraseIdx j) (free.set j part) := by
    have hlt : j < (free.set j part).length := by
      rw [List.length_set]
      exact hj
    have hperm := List.getElem_cons_eraseIdx_perm hlt
    rwa [List.getElem_set_self, List.eraseIdx_set_eq] at hperm
  have hsub : List.Sublist (free.eraseIdx j ++ taken ++ [part]) (free ++ (taken ++ [part])) := by
    rw [List.append_assoc]
    exact (List.eraseIdx_sublist free j).append_right _
  have hperm : List.Perm (free.eraseIdx j ++ taken ++ [part]) (free.set j part ++ taken) :=
    (List.perm_append_singleton part _).trans (hset.append_right taken)
  constructor
  · exact (disjoint_perm hperm).mp (h.apart.sublist hsub)
  · intro x hx
    exact h.inside x (hsub.mem (hperm.mem_iff.mpr hx))

/-- Nothing free meets anything taken. -/
theorem free_taken {pool free taken : List α} (h : CutFrom pool free taken) {x y : α}
    (hx : x ∈ free) (hy : y ∈ taken) : Disjoint x y :=
  (List.pairwise_append.mp h.apart).2.2 x hx y hy

end CutFrom

end Armv8Encode.Lib

/-
  Armv8Encode.Rewrite.Editor.Holes — freed ranges of text as a pool.

  A hole is a freed range `[vaddr, vaddr + size)`.  A request takes whole words
  from the start of the smallest hole that fits; a rest of less than a word is
  dropped.  `reserveHole` does the same and records how to undo it.

  Main results:
    * `takeHole_cases` — what a request takes, and what it leaves.
    * `releaseHole_eq_iff` — when undoing a reservation restores the pool.

  Addresses and sizes are natural numbers; the hole a request takes from is
  never extended, so no address passes the end of a hole.
-/
import Mathlib.Data.List.MinMax
import Armv8Encode.Lib.Buffer

namespace Armv8Encode.Editor

open Lib

/-! ## §1. Taking and giving back. -/

structure Hole where
  vaddr : Nat
  size : Nat
  deriving Repr, DecidableEq

/-- The first of the smallest holes that have room, with its position. -/
def bestHole (holes : List Hole) (need : Nat) : Option (Hole × Nat) :=
  (holes.zipIdx.filter fun h => decide (need ≤ h.1.size)).argmin fun h => h.1.size

/-- The hole after `need` bytes were taken from its start. -/
def Hole.rest (h : Hole) (need : Nat) : Hole := ⟨h.vaddr + need, h.size - need⟩

/-- The pool after `need` bytes were taken from the hole at a position. -/
def afterTaking (holes : List Hole) (h : Hole) (idx need : Nat) : List Hole :=
  if (h.rest need).size < 4 then holes.eraseIdx idx else holes.set idx (h.rest need)

/-- Best-fit allocation of whole words; none for nothing at all. -/
def takeHole (holes : List Hole) (need : Nat) : Option (Nat × List Hole) :=
  let need := alignUp need 4
  if need = 0 then none
  else
    match bestHole holes need with
    | none => none
    | some (h, idx) => some (h.vaddr, afterTaking holes h idx need)

/-- What undoes a reservation: the hole that was removed, if it was used up. -/
structure HoleReservation where
  va : Nat
  need : Nat
  removed : Option (Nat × Hole)
  deriving Repr, DecidableEq

def reserveHole (holes : List Hole) (need : Nat) : Option (Nat × HoleReservation × List Hole) :=
  let need := alignUp need 4
  if need = 0 then none
  else
    match bestHole holes need with
    | none => none
    | some (h, idx) =>
      let removed := if (h.rest need).size < 4 then some (idx, h) else none
      some (h.vaddr, ⟨h.vaddr, need, removed⟩, afterTaking holes h idx need)

/-- Put a used-up hole back where it was; grow a shrunk one, the first hole
that starts where the reserved bytes end. -/
def releaseHole (holes : List Hole) (r : HoleReservation) : List Hole :=
  match r.removed with
  | some (idx, entry) => holes.insertIdx (min idx holes.length) entry
  | none =>
    match holes.findIdx? fun h => h.vaddr == r.va + r.need with
    | none => holes
    | some j => holes.modify j fun h => ⟨r.va, h.size + r.need⟩

/-! ## §2. What a request takes. -/

/-- The hole at a position is the one a request of whole words takes from. -/
structure Chosen (holes : List Hole) (need : Nat) (h : Hole) (idx : Nat) : Prop where
  pos : 0 < need
  at_idx : holes[idx]? = some h
  fits : need ≤ h.size

theorem bestHole_some {holes : List Hole} {need idx : Nat} {h : Hole} (hpos : 0 < need)
    (hbest : bestHole holes need = some (h, idx)) : Chosen holes need h idx := by
  have hmem := List.argmin_mem (show (h, idx) ∈ List.argmin _ _ from hbest)
  rw [List.mem_filter] at hmem
  exact ⟨hpos, List.mem_zipIdx_iff_getElem?.mp hmem.1, of_decide_eq_true hmem.2⟩

/-- A request takes the start of one hole that has room. -/
theorem takeHole_cases {holes rest : List Hole} {need va : Nat}
    (h : takeHole holes need = some (va, rest)) :
    ∃ hole idx, bestHole holes (alignUp need 4) = some (hole, idx)
      ∧ Chosen holes (alignUp need 4) hole idx ∧ va = hole.vaddr
      ∧ rest = afterTaking holes hole idx (alignUp need 4) := by
  simp only [takeHole] at h
  split at h
  · cases h
  · next hpos =>
    split at h
    · cases h
    · next hole idx hbest =>
      cases h
      exact ⟨hole, idx, hbest, bestHole_some (Nat.pos_of_ne_zero hpos) hbest, rfl, rfl⟩

/-- A reservation takes what a plain request takes. -/
theorem takeHole_of_reserveHole {holes rest : List Hole} {need va : Nat} {r : HoleReservation}
    (h : reserveHole holes need = some (va, r, rest)) : takeHole holes need = some (va, rest) := by
  simp only [reserveHole] at h
  simp only [takeHole]
  split at h
  · cases h
  · next hpos =>
    rw [if_neg hpos]
    split at h
    · cases h
    · next hole idx hbest =>
      cases h
      rfl

theorem reserveHole_cases {holes rest : List Hole} {need va : Nat} {r : HoleReservation}
    (h : reserveHole holes need = some (va, r, rest)) :
    ∃ hole idx, bestHole holes (alignUp need 4) = some (hole, idx)
      ∧ Chosen holes (alignUp need 4) hole idx ∧ va = hole.vaddr
      ∧ rest = afterTaking holes hole idx (alignUp need 4)
      ∧ r = ⟨va, alignUp need 4,
          if (hole.rest (alignUp need 4)).size < 4 then some (idx, hole) else none⟩ := by
  simp only [reserveHole] at h
  split at h
  · cases h
  · next hpos =>
    split at h
    · cases h
    · next hole idx hbest =>
      cases h
      exact ⟨hole, idx, hbest, bestHole_some (Nat.pos_of_ne_zero hpos) hbest, rfl, rfl, rfl⟩

theorem reserveHole_eq_none {holes : List Hole} {need : Nat} :
    reserveHole holes need = none ↔ takeHole holes need = none := by
  simp only [reserveHole, takeHole]
  by_cases hzero : alignUp need 4 = 0
  · rw [if_pos hzero, if_pos hzero]
    simp
  · rw [if_neg hzero, if_neg hzero]
    cases bestHole holes (alignUp need 4) with
    | none => simp
    | some p => simp

/-- Bytes of all holes together. -/
def freeBytes (holes : List Hole) : Nat := (holes.map Hole.size).sum

theorem freeBytes_perm {holes holes' : List Hole} (h : List.Perm holes holes') :
    freeBytes holes = freeBytes holes' := (h.map Hole.size).sum_eq

/-- A request that is served leaves fewer free bytes. -/
theorem freeBytes_afterTaking {holes : List Hole} {h : Hole} {idx need : Nat}
    (hc : Chosen holes need h idx) : freeBytes (afterTaking holes h idx need) < freeBytes holes := by
  obtain ⟨hlt, rfl⟩ := List.getElem?_eq_some_iff.mp hc.at_idx
  have hpos := hc.pos
  have hfits := hc.fits
  have hall := freeBytes_perm (List.getElem_cons_eraseIdx_perm hlt)
  have hcons : freeBytes (holes[idx] :: holes.eraseIdx idx)
      = holes[idx].size + freeBytes (holes.eraseIdx idx) := List.sum_cons
  unfold afterTaking
  split
  · omega
  · have hset : freeBytes (holes.set idx (holes[idx].rest need))
        = (holes[idx].rest need).size + freeBytes (holes.eraseIdx idx) := by
      have hlt' : idx < (holes.set idx (holes[idx].rest need)).length := by
        rw [List.length_set]
        exact hlt
      have hperm := freeBytes_perm (List.getElem_cons_eraseIdx_perm hlt')
      rw [List.getElem_set_self, List.eraseIdx_set_eq] at hperm
      rw [← hperm]
      exact List.sum_cons
    rw [hset]
    show holes[idx].size - need + freeBytes (holes.eraseIdx idx) < _
    omega

/-- A request that is served changes the pool. -/
theorem afterTaking_ne {holes : List Hole} {h : Hole} {idx need : Nat}
    (hc : Chosen holes need h idx) : afterTaking holes h idx need ≠ holes := by
  intro heq
  have hlt := freeBytes_afterTaking hc
  rw [heq] at hlt
  exact Nat.lt_irrefl _ hlt

theorem freeBytes_takeHole {holes rest : List Hole} {need va : Nat}
    (h : takeHole holes need = some (va, rest)) : freeBytes rest < freeBytes holes := by
  obtain ⟨hole, idx, -, hc, -, rfl⟩ := takeHole_cases h
  exact freeBytes_afterTaking hc

/-- Holes for several requests in a row: their addresses, and what is left. -/
def takeHoles (holes : List Hole) : List Nat → Option (List Nat × List Hole)
  | [] => some ([], holes)
  | need :: needs =>
    match takeHole holes need with
    | none => none
    | some (va, holes) =>
      match takeHoles holes needs with
      | none => none
      | some (vas, holes) => some (va :: vas, holes)

theorem takeHoles_cons {holes rest : List Hole} {need : Nat} {needs vas : List Nat}
    (h : takeHoles holes (need :: needs) = some (vas, rest)) :
    ∃ va after vas', takeHole holes need = some (va, after)
      ∧ takeHoles after needs = some (vas', rest) ∧ vas = va :: vas' := by
  rw [takeHoles] at h
  split at h
  · cases h
  · next va after htake =>
    split at h
    · cases h
    · next vas' rest' hrest =>
      cases h
      exact ⟨va, after, vas', htake, hrest, rfl⟩

theorem takeHoles_length {holes rest : List Hole} {needs vas : List Nat}
    (h : takeHoles holes needs = some (vas, rest)) : vas.length = needs.length := by
  induction needs generalizing holes vas with
  | nil =>
    cases h
    rfl
  | cons need needs ih =>
    obtain ⟨va, after, vas', -, hrest, rfl⟩ := takeHoles_cons h
    rw [List.length_cons, List.length_cons, ih hrest]

theorem freeBytes_takeHoles {holes rest : List Hole} {needs vas : List Nat}
    (h : takeHoles holes needs = some (vas, rest)) : freeBytes rest ≤ freeBytes holes := by
  induction needs generalizing holes vas with
  | nil =>
    cases h
    exact Nat.le_refl _
  | cons need needs ih =>
    obtain ⟨va, after, vas', htake, hrest, -⟩ := takeHoles_cons h
    exact Nat.le_trans (ih hrest) (Nat.le_of_lt (freeBytes_takeHole htake))

/-- Requests that are served change the pool. -/
theorem takeHoles_ne {holes rest : List Hole} {needs vas : List Nat}
    (h : takeHoles holes needs = some (vas, rest)) (hne : needs ≠ []) : rest ≠ holes := by
  intro heq
  cases needs with
  | nil => exact hne rfl
  | cons need needs =>
    obtain ⟨va, after, vas', htake, hrest, -⟩ := takeHoles_cons h
    have hlt := freeBytes_takeHole htake
    have hle := freeBytes_takeHoles hrest
    rw [heq] at hle
    exact Nat.lt_irrefl _ (Nat.lt_of_le_of_lt hle hlt)

/-! ## §3. Undoing a reservation. -/

/-- No hole before the chosen one starts where the reserved bytes end. -/
def EndsApart (holes : List Hole) (h : Hole) (idx need : Nat) : Prop :=
  ∀ j < idx, ∀ g, holes[j]? = some g → g.vaddr ≠ h.vaddr + need

/-- A used-up hole goes back to its place. -/
theorem insertIdx_eraseIdx {holes : List Hole} {h : Hole} {idx : Nat}
    (hat : holes[idx]? = some h) :
    (holes.eraseIdx idx).insertIdx (min idx (holes.eraseIdx idx).length) h = holes := by
  obtain ⟨hlt, rfl⟩ := List.getElem?_eq_some_iff.mp hat
  have hlen := List.length_eraseIdx_of_lt hlt
  rw [hlen, Nat.min_eq_left (by omega)]
  exact List.insertIdx_eraseIdx_getElem hlt

/-- The first hole that starts where the reserved bytes end, after they were
reserved: the shrunk one, unless an earlier one starts there. -/
theorem findIdx?_set_rest {holes : List Hole} {h : Hole} {idx : Nat} (need : Nat)
    (hat : holes[idx]? = some h) :
    ∃ j ≤ idx, (holes.set idx (h.rest need)).findIdx? (fun g => g.vaddr == h.vaddr + need) = some j
      ∧ (j = idx ↔ EndsApart holes h idx need) := by
  obtain ⟨hlt, rfl⟩ := List.getElem?_eq_some_iff.mp hat
  have hself : (holes.set idx (holes[idx].rest need))[idx]? = some (holes[idx].rest need) :=
    List.getElem?_set_self hlt
  cases hfind : (holes.set idx (holes[idx].rest need)).findIdx?
      (fun g => g.vaddr == holes[idx].vaddr + need) with
  | none =>
    rw [List.findIdx?_eq_none_iff] at hfind
    have := hfind _ (List.mem_of_getElem? hself)
    simp [Hole.rest] at this
  | some j =>
    obtain ⟨hj, hmatch, hbefore⟩ := List.findIdx?_eq_some_iff_getElem.mp hfind
    have hle : j ≤ idx := by
      by_contra hgt
      have := hbefore idx (by omega)
      rw [List.getElem_set_self] at this
      simp [Hole.rest] at this
    refine ⟨j, hle, rfl, ?_⟩
    constructor
    · intro heq i hi g hg hstart
      have hlen : i < holes.length := by omega
      have := hbefore i (by omega)
      rw [List.getElem_set_ne (by omega)] at this
      rw [List.getElem?_eq_getElem hlen] at hg
      cases hg
      simp [hstart] at this
    · intro hapart
      by_contra hne
      have hji : j < idx := by omega
      have hlen : j < holes.length := by omega
      rw [List.getElem_set_ne (by omega)] at hmatch
      exact hapart j hji holes[j] (List.getElem?_eq_getElem hlen) (by simpa using hmatch)

/-- Releasing right after reserving gives the pool back exactly when the hole
was used up, or no earlier hole starts where the reserved bytes end. -/
theorem releaseHole_eq_iff {holes rest : List Hole} {need va : Nat} {r : HoleReservation}
    {hole : Hole} {idx : Nat} (h : reserveHole holes need = some (va, r, rest))
    (hbest : bestHole holes (alignUp need 4) = some (hole, idx)) :
    releaseHole rest r = holes
      ↔ (hole.rest (alignUp need 4)).size < 4 ∨ EndsApart holes hole idx (alignUp need 4) := by
  obtain ⟨hole', idx', hbest', hc, rfl, rfl, rfl⟩ := reserveHole_cases h
  rw [hbest] at hbest'
  cases hbest'
  by_cases hsmall : (hole.rest (alignUp need 4)).size < 4
  · have hgone : releaseHole (afterTaking holes hole idx (alignUp need 4))
        ⟨hole.vaddr, alignUp need 4, some (idx, hole)⟩ = holes := by
      rw [afterTaking, if_pos hsmall]
      exact insertIdx_eraseIdx hc.at_idx
    rw [if_pos hsmall]
    exact iff_of_true hgone (.inl hsmall)
  · rw [if_neg hsmall, afterTaking, if_neg hsmall]
    obtain ⟨j, hle, hfind, hj⟩ := findIdx?_set_rest (alignUp need 4) hc.at_idx
    obtain ⟨hlt, hget⟩ := List.getElem?_eq_some_iff.mp hc.at_idx
    have hfits := hc.fits
    have hpos := hc.pos
    have hrel : releaseHole (holes.set idx (hole.rest (alignUp need 4)))
        ⟨hole.vaddr, alignUp need 4, none⟩
        = (holes.set idx (hole.rest (alignUp need 4))).modify j
          fun g => ⟨hole.vaddr, g.size + alignUp need 4⟩ := by
      simp only [releaseHole, hfind]
    rw [hrel, or_iff_right hsmall, ← hj]
    constructor
    · intro heq
      by_contra hne
      -- an earlier hole was grown, and the chosen one stays shrunk
      have hentry := congrArg (fun hs => hs[idx]?) heq
      simp only [List.getElem?_modify, List.getElem?_set_self hlt, hc.at_idx] at hentry
      have hsame : (if j = idx then Hole.mk hole.vaddr
            ((hole.rest (alignUp need 4)).size + alignUp need 4)
          else hole.rest (alignUp need 4)) = hole := Option.some.inj hentry
      rw [if_neg hne] at hsame
      have hstart : hole.vaddr + alignUp need 4 = hole.vaddr := congrArg Hole.vaddr hsame
      omega
    · intro heq
      subst heq
      refine List.ext_getElem? fun i => ?_
      rw [List.getElem?_modify]
      by_cases hi : j = i
      · subst hi
        rw [List.getElem?_set_self hlt, hc.at_idx]
        show some (if j = j then _ else _) = _
        rw [if_pos rfl]
        refine congrArg some ?_
        show Hole.mk hole.vaddr (hole.size - alignUp need 4 + alignUp need 4) = hole
        rw [Nat.sub_add_cancel hfits]
      · rw [List.getElem?_set_ne (by omega)]
        cases holes[i]? with
        | none => rfl
        | some g =>
          show some (if j = i then _ else _) = _
          rw [if_neg hi]

end Armv8Encode.Editor

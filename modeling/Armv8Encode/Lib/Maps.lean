/-
  Armv8Encode.Lib.Maps — finite maps built from a list of entries.

  A map is the function it denotes, `κ → Option ν`.  There are two ways to
  build one: collecting an iterator of pairs keeps the LAST entry for a key,
  inserting only into vacant entries keeps the FIRST.  Both are a lookup in
  an association list, and the lemmas below say when an entry is found.
-/
import Mathlib.Data.List.Nodup

namespace Armv8Encode.Lib

/-- A finite map, as the function it denotes. -/
abbrev Map (κ ν : Type) := κ → Option ν

variable {κ ν : Type} [DecidableEq κ]

/-- The map in which the first entry for a key wins. -/
def firstWins (entries : List (κ × ν)) : Map κ ν := fun k => entries.lookup k

/-- The map in which the last entry for a key wins. -/
def lastWins (entries : List (κ × ν)) : Map κ ν := fun k => entries.reverse.lookup k

theorem mem_of_lookup_eq_some {entries : List (κ × ν)} {k : κ} {v : ν}
    (h : entries.lookup k = some v) : (k, v) ∈ entries := by
  induction entries with
  | nil => simp at h
  | cons e rest ih =>
    obtain ⟨k', v'⟩ := e
    rw [List.lookup_cons] at h
    by_cases hk : k = k'
    · subst hk
      simp only [beq_self_eq_true, Option.some.injEq] at h
      subst h
      exact List.mem_cons_self
    · rw [beq_eq_false_iff_ne.mpr hk] at h
      exact List.mem_cons_of_mem _ (ih h)

theorem lookup_eq_none_iff {entries : List (κ × ν)} {k : κ} :
    entries.lookup k = none ↔ ∀ v, (k, v) ∉ entries := by
  induction entries with
  | nil => simp
  | cons e rest ih =>
    obtain ⟨k', v'⟩ := e
    rw [List.lookup_cons]
    by_cases hk : k = k'
    · subst hk
      simp only [beq_self_eq_true, reduceCtorEq, false_iff, not_forall, not_not]
      exact ⟨v', List.mem_cons_self⟩
    · rw [beq_eq_false_iff_ne.mpr hk]
      simp [ih, hk]

theorem mem_of_lastWins {entries : List (κ × ν)} {k : κ} {v : ν}
    (h : lastWins entries k = some v) : (k, v) ∈ entries :=
  List.mem_reverse.mp (mem_of_lookup_eq_some h)

/-- Entries with distinct keys are all in the map. -/
theorem lastWins_iff_of_nodup {entries : List (κ × ν)} (h : (entries.map Prod.fst).Nodup) {k : κ}
    {v : ν} : lastWins entries k = some v ↔ (k, v) ∈ entries := by
  refine ⟨mem_of_lastWins, fun hmem => ?_⟩
  cases hfound : lastWins entries k with
  | none =>
    have hnone := lookup_eq_none_iff.mp hfound
    exact absurd (List.mem_reverse.mpr hmem) (hnone v)
  | some v' =>
    have hpair := List.inj_on_of_nodup_map h (mem_of_lastWins hfound) hmem rfl
    exact congrArg some (Prod.mk.inj hpair).2

/-- In a map that a counting loop fills, the last index that gives a key wins. -/
theorem lastWins_filterMap_range {f : Nat → Option κ} {g : Nat → ν} {n : Nat} {k : κ} {v : ν} :
    lastWins ((List.range n).filterMap fun i => (f i).map fun key => (key, g i)) k = some v
      ↔ ∃ i < n, f i = some k ∧ (∀ j < n, i < j → f j ≠ some k) ∧ g i = v := by
  unfold lastWins
  induction n with
  | zero => simp
  | succ n ih =>
    rw [List.range_succ, List.filterMap_append, List.reverse_append]
    by_cases hlast : f n = some k
    · have hhead : (([n].filterMap fun i => (f i).map fun key => (key, g i)).reverse)
          = [(k, g n)] := by
        simp [hlast]
      rw [hhead, List.singleton_append, List.lookup_cons, beq_self_eq_true]
      constructor
      · intro h
        refine ⟨n, by omega, hlast, fun j hj hlt => ?_, Option.some.inj h⟩
        omega
      · rintro ⟨i, hi, _, hlater, rfl⟩
        by_cases hin : i = n
        · rw [hin]
        · exact absurd hlast (hlater n (by omega) (by omega))
    · have hskip : ((([n].filterMap fun i => (f i).map fun key => (key, g i)).reverse
          ++ ((List.range n).filterMap fun i => (f i).map fun key => (key, g i)).reverse).lookup k)
          = ((List.range n).filterMap fun i => (f i).map fun key => (key, g i)).reverse.lookup k := by
        cases hf : f n with
        | none => simp [hf]
        | some key =>
          have hne : k ≠ key := by
            rintro rfl
            exact hlast hf
          simp [hf, List.lookup_cons, beq_eq_false_iff_ne.mpr hne]
      rw [hskip, ih]
      constructor
      · rintro ⟨i, hi, hkey, hlater, hval⟩
        refine ⟨i, by omega, hkey, fun j hj hlt => ?_, hval⟩
        by_cases hjn : j = n
        · rw [hjn]
          exact hlast
        · exact hlater j (by omega) hlt
      · rintro ⟨i, hi, hkey, hlater, hval⟩
        have hin : i ≠ n := by
          rintro rfl
          exact hlast hkey
        exact ⟨i, by omega, hkey, fun j hj hlt => hlater j (by omega) hlt, hval⟩

end Armv8Encode.Lib

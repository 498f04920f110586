/-
  Armv8Encode.Lib.Rounds — loops that repeat a round until it changes nothing.

  A round either fails, or returns the next state and whether it changed the
  one it was given.  `Settles` is what the rounds come to without a limit on
  their number; `repeatRounds` gives up after a number of rounds.

  Main results:
    * `Settles.repeatRounds` — the loop with a limit against the one without.
    * `settles_or_fails` — rounds that use up a measure come to an end.
-/

namespace Armv8Encode.Lib

section Rounds

variable {σ ε : Type} (round : σ → Except ε (σ × Bool))

/-- From a state, after so many rounds that change it, a round that returns a
state and changes nothing. -/
inductive Settles : σ → Nat → σ → Prop where
  | still {s t : σ} (hround : round s = .ok (t, false)) : Settles s 0 t
  | changed {s s' t : σ} {n : Nat} (hround : round s = .ok (s', true)) (hrest : Settles s' n t) :
      Settles s (n + 1) t

/-- From a state, after so many rounds that change it, a round that fails. -/
inductive Fails : σ → Nat → ε → Prop where
  | now {s : σ} {e : ε} (hround : round s = .error e) : Fails s 0 e
  | changed {s s' : σ} {n : Nat} {e : ε} (hround : round s = .ok (s', true))
      (hrest : Fails s' n e) : Fails s (n + 1) e

/-- At most `fuel` rounds, then the error for giving up. -/
def repeatRounds (giveUp : ε) : Nat → σ → Except ε σ
  | 0, _ => .error giveUp
  | fuel + 1, s => do
    let next ← round s
    if next.2 then repeatRounds giveUp fuel next.1 else pure next.1

variable {round} {giveUp : ε}

theorem repeatRounds_still {s t : σ} (h : round s = .ok (t, false)) (fuel : Nat) :
    repeatRounds round giveUp (fuel + 1) s = .ok t := by
  simp [repeatRounds, h, bind, Except.bind, pure, Except.pure]

theorem repeatRounds_changed {s s' : σ} (h : round s = .ok (s', true)) (fuel : Nat) :
    repeatRounds round giveUp (fuel + 1) s = repeatRounds round giveUp fuel s' := by
  simp [repeatRounds, h, bind, Except.bind]

theorem repeatRounds_error {s : σ} {e : ε} (h : round s = .error e) (fuel : Nat) :
    repeatRounds round giveUp (fuel + 1) s = .error e := by
  simp [repeatRounds, h, bind, Except.bind]

/-- The loop returns what the rounds settle on when its limit lies above the
number of rounds that change something, and gives up otherwise. -/
theorem Settles.repeatRounds {s t : σ} {n : Nat} (h : Settles round s n t) (fuel : Nat) :
    (n < fuel → repeatRounds round giveUp fuel s = .ok t) ∧
      (fuel ≤ n → repeatRounds round giveUp fuel s = .error giveUp) := by
  induction h generalizing fuel with
  | still hround =>
    cases fuel with
    | zero => exact ⟨fun hlt => absurd hlt (Nat.not_lt_zero _), fun _ => rfl⟩
    | succ fuel => exact ⟨fun _ => repeatRounds_still hround fuel, fun hle => by omega⟩
  | @changed s s' t n hround hrest ih =>
    cases fuel with
    | zero => exact ⟨fun hlt => by omega, fun _ => rfl⟩
    | succ fuel =>
      rw [repeatRounds_changed hround]
      have ⟨hreturns, hgivesUp⟩ := ih fuel
      exact ⟨fun hlt => hreturns (by omega), fun hle => hgivesUp (by omega)⟩

/-- A loop that returns has settled below its limit. -/
theorem settles_of_repeatRounds {fuel : Nat} {s t : σ}
    (h : repeatRounds round giveUp fuel s = .ok t) : ∃ n, n < fuel ∧ Settles round s n t := by
  induction fuel generalizing s with
  | zero => cases h
  | succ fuel ih =>
    cases hround : round s with
    | error e =>
      rw [repeatRounds_error hround] at h
      cases h
    | ok next =>
      have ⟨s', moved⟩ := next
      cases moved with
      | false =>
        rw [repeatRounds_still hround] at h
        cases h
        exact ⟨0, Nat.succ_pos _, .still hround⟩
      | true =>
        rw [repeatRounds_changed hround] at h
        have ⟨n, hn, hrest⟩ := ih h
        exact ⟨n + 1, Nat.succ_lt_succ hn, .changed hround hrest⟩

section Measure

-- A measure that every round that changes something uses up.
variable {measure : σ → Nat}
  (hless : ∀ s s', round s = .ok (s', true) → measure s' < measure s)

include hless

theorem Settles.rounds_le {s t : σ} {n : Nat} (h : Settles round s n t) : n ≤ measure s := by
  induction h with
  | still hround => exact Nat.zero_le _
  | changed hround hrest ih => exact Nat.lt_of_le_of_lt ih (hless _ _ hround)

/-- A loop that gives up has used up its limit. -/
theorem le_measure_of_giveUp (hnever : ∀ s, round s ≠ .error giveUp) {fuel : Nat} {s : σ}
    (h : repeatRounds round giveUp fuel s = .error giveUp) : fuel ≤ measure s := by
  induction fuel generalizing s with
  | zero => exact Nat.zero_le _
  | succ fuel ih =>
    cases hround : round s with
    | error e =>
      rw [repeatRounds_error hround] at h
      cases h
      exact absurd hround (hnever s)
    | ok next =>
      have ⟨s', moved⟩ := next
      cases moved with
      | false =>
        rw [repeatRounds_still hround] at h
        cases h
      | true =>
        rw [repeatRounds_changed hround] at h
        exact Nat.lt_of_le_of_lt (ih h) (hless s s' hround)

/-- Without a limit the rounds settle or fail. -/
theorem settles_or_fails (s : σ) :
    (∃ n t, Settles round s n t) ∨ ∃ n e, Fails round s n e := by
  induction hm : measure s using Nat.strongRecOn generalizing s with
  | ind m ih =>
    cases hround : round s with
    | error e => exact .inr ⟨0, e, .now hround⟩
    | ok next =>
      have ⟨s', moved⟩ := next
      cases moved with
      | false => exact .inl ⟨0, s', .still hround⟩
      | true =>
        have hs' := ih (measure s') (hm ▸ hless s s' hround) s' rfl
        by_cases hrest : ∃ n t, Settles round s' n t
        · have ⟨n, t, hsettles⟩ := hrest
          exact .inl ⟨n + 1, t, .changed hround hsettles⟩
        · have ⟨n, e, hfails⟩ := hs'.resolve_left hrest
          exact .inr ⟨n + 1, e, .changed hround hfails⟩

end Measure

end Rounds

end Armv8Encode.Lib

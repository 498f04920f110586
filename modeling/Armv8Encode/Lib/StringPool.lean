/-
  Armv8Encode.Lib.StringPool — terminated strings, each put into a pool once.

  A string that is in the pool already keeps its offset; another one goes
  behind all others, with its terminator.  The pool only grows, so every
  offset that was given out stays good.
-/
import Mathlib.Data.List.Forall2

namespace Armv8Encode.Lib

variable {α : Type} {z : α}

/-- The string stands at an offset, and the terminator behind it. -/
def StandsAt (z : α) (symbols : List α) (offset : Nat) (s : List α) : Prop :=
  ∃ before after, symbols = before ++ (s ++ z :: after) ∧ before.length = offset

theorem StandsAt.drop {symbols s : List α} {offset : Nat} (h : StandsAt z symbols offset s) :
    ∃ after, symbols.drop offset = s ++ z :: after := by
  obtain ⟨before, after, rfl, rfl⟩ := h
  exact ⟨after, List.drop_left⟩

theorem StandsAt.lt {symbols s : List α} {offset : Nat} (h : StandsAt z symbols offset s) :
    offset < symbols.length := by
  obtain ⟨before, after, rfl, rfl⟩ := h
  rw [List.length_append, List.length_append, List.length_cons]
  omega

theorem StandsAt.append {symbols s : List α} {offset : Nat} (h : StandsAt z symbols offset s)
    (more : List α) : StandsAt z (symbols ++ more) offset s := by
  obtain ⟨before, after, rfl, hlength⟩ := h
  exact ⟨before, after ++ more, by simp [List.append_assoc], hlength⟩

/-- The pool, and where the strings in it stand. -/
structure Pool (α : Type) where
  symbols : List α
  seen : List (List α × Nat)
  deriving Repr

namespace Pool

def empty : Pool α := ⟨[], []⟩

variable [DecidableEq α]

/-- The offset of a string, which goes into the pool if it is not there. -/
def intern (z : α) (pool : Pool α) (s : List α) : Nat × Pool α :=
  match pool.seen.lookup s with
  | some offset => (offset, pool)
  | none =>
    (pool.symbols.length, ⟨pool.symbols ++ (s ++ [z]), (s, pool.symbols.length) :: pool.seen⟩)

def internAll (z : α) : Pool α → List (List α) → List Nat × Pool α
  | pool, [] => ([], pool)
  | pool, s :: strings =>
    let first := pool.intern z s
    let rest := first.2.internAll z strings
    (first.1 :: rest.1, rest.2)

/-- What was seen stands where it was put. -/
def Sound (z : α) (pool : Pool α) : Prop :=
  ∀ s offset, pool.seen.lookup s = some offset → StandsAt z pool.symbols offset s

theorem sound_empty : (empty : Pool α).Sound z := by
  intro s offset h
  cases h

/-- **One string**: the pool grows at its end only. -/
theorem Sound.intern {pool : Pool α} (h : pool.Sound z) (s : List α) :
    (pool.intern z s).2.Sound z ∧ StandsAt z (pool.intern z s).2.symbols (pool.intern z s).1 s
      ∧ ∃ more, (pool.intern z s).2.symbols = pool.symbols ++ more := by
  unfold Pool.intern
  cases hlookup : pool.seen.lookup s with
  | some offset => exact ⟨h, h s offset hlookup, [], (List.append_nil _).symm⟩
  | none =>
    have hnew : StandsAt z (pool.symbols ++ (s ++ [z])) pool.symbols.length s :=
      ⟨pool.symbols, [], rfl, rfl⟩
    refine ⟨?_, hnew, _, rfl⟩
    intro t offset ht
    change ((s, pool.symbols.length) :: pool.seen).lookup t = some offset at ht
    show StandsAt z (pool.symbols ++ (s ++ [z])) offset t
    rw [List.lookup_cons] at ht
    by_cases heq : t = s
    · subst heq
      rw [beq_self_eq_true] at ht
      cases ht
      exact hnew
    · rw [beq_eq_false_iff_ne.mpr heq] at ht
      exact (h t offset ht).append _

/-- **All strings** stand at their offsets in the pool that comes out. -/
theorem Sound.internAll {pool : Pool α} (h : pool.Sound z) (strings : List (List α)) :
    List.Forall₂ (StandsAt z (pool.internAll z strings).2.symbols) (pool.internAll z strings).1
        strings
      ∧ ∃ more, (pool.internAll z strings).2.symbols = pool.symbols ++ more := by
  induction strings generalizing pool with
  | nil => exact ⟨.nil, [], (List.append_nil _).symm⟩
  | cons s strings ih =>
    obtain ⟨hsound, hstands, more, hmore⟩ := h.intern s
    obtain ⟨hrest, later, hlater⟩ := ih hsound
    refine ⟨.cons ?_ hrest, more ++ later, ?_⟩
    · show StandsAt z ((pool.intern z s).2.internAll z strings).2.symbols _ s
      rw [hlater]
      exact hstands.append later
    · show ((pool.intern z s).2.internAll z strings).2.symbols = _
      rw [hlater, hmore, List.append_assoc]

end Pool

end Armv8Encode.Lib

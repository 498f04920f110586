/-
  Armv8Encode.Lib.Tiling — tiles laid end to end.

  A tile has an address and a size; `Tiled a tiles b` says that the tiles
  start at `a`, that each one starts where the one before it ends, and that
  the last one ends at `b`.  Addresses may wrap: all that is used of them is
  that they form an additive commutative monoid.
-/
import Mathlib.Algebra.BigOperators.Group.List.Basic

namespace Armv8Encode.Lib

variable {A : Type} [AddCommMonoid A]

/-- Tiles `(address, size)` laid end to end from one address to another. -/
inductive Tiled : A → List (A × A) → A → Prop where
  | nil (a : A) : Tiled a [] a
  | cons {a size stop : A} {rest : List (A × A)} (h : Tiled (a + size) rest stop) :
      Tiled a ((a, size) :: rest) stop

namespace Tiled

theorem append {a b c : A} {xs ys : List (A × A)} (hx : Tiled a xs b) (hy : Tiled b ys c) :
    Tiled a (xs ++ ys) c := by
  induction hx with
  | nil a => exact hy
  | cons _ ih => exact .cons (ih hy)

/-- Tiles end at their start plus the sum of their sizes. -/
theorem stop_eq {a b : A} {tiles : List (A × A)} (h : Tiled a tiles b) :
    b = a + (tiles.map Prod.snd).sum := by
  induction h with
  | nil a => simp
  | cons _ ih => rw [ih, List.map_cons, List.sum_cons, add_assoc]

/-- A tile starts at the common start plus the sizes of the tiles before it. -/
theorem address_eq {a b address size : A} {before after : List (A × A)}
    (h : Tiled a (before ++ (address, size) :: after) b) :
    address = a + (before.map Prod.snd).sum := by
  induction before generalizing a with
  | nil =>
    cases h with
    | cons _ => simp
  | cons tile before ih =>
    cases h with
    | cons h' => rw [ih h', List.map_cons, List.sum_cons, add_assoc]

end Tiled

end Armv8Encode.Lib

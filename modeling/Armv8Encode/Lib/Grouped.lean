/-
  Armv8Encode.Lib.Grouped — lists whose elements of one key stand together.

  In such a list the elements of a key are a block.  A search for something of
  that key may start at the first of them and stop at the end of the block
  (`findIdx?_eq_block`).
-/
import Mathlib.Data.List.TakeWhile
import Mathlib.Tactic.Conv

namespace Armv8Encode.Lib

variable {α κ : Type} [DecidableEq κ] {key : α → κ}

/-- Between two elements of one key there are only elements of that key. -/
def Grouped (key : α → κ) (xs : List α) : Prop :=
  ∀ (i j k : Nat) (a b c : α), xs[i]? = some a → xs[j]? = some b → xs[k]? = some c → i ≤ j → j ≤ k →
    key a = key c → key b = key a

/-- The elements up to the first one of a key. -/
def beforeKey (key : α → κ) (k : κ) (xs : List α) : List α :=
  xs.takeWhile fun x => decide (key x ≠ k)

/-- The block of a key, when the list starts with it. -/
def block (key : α → κ) (k : κ) (xs : List α) : List α := xs.takeWhile fun x => decide (key x = k)

namespace Grouped

omit [DecidableEq κ] in
theorem tail {x : α} {xs : List α} (h : Grouped key (x :: xs)) : Grouped key xs := by
  intro i j k a b c ha hb hc hij hjk
  exact h (i + 1) (j + 1) (k + 1) a b c ha hb hc (Nat.succ_le_succ hij) (Nat.succ_le_succ hjk)

omit [DecidableEq κ] in
/-- An element of the first one's key is reached through that key alone. -/
theorem second {x y z : α} {xs : List α} (h : Grouped key (x :: y :: xs)) (hz : z ∈ y :: xs)
    (hkey : key z = key x) : key y = key x := by
  obtain ⟨k, hk⟩ := List.mem_iff_getElem?.mp hz
  exact h 0 1 (k + 1) x y z rfl rfl hk (Nat.zero_le _) (Nat.succ_le_succ (Nat.zero_le _)) hkey.symm

/-- Past the block of the first element there is nothing of its key. -/
theorem not_mem_after {k : κ} {x : α} {xs : List α} (h : Grouped key (x :: xs)) (hx : key x = k) :
    ∀ z ∈ (x :: xs).dropWhile fun y => decide (key y = k), key z ≠ k := by
  induction xs generalizing x with
  | nil => simp [hx]
  | cons y xs ih =>
    intro z hz
    rw [List.dropWhile_cons_of_pos (by simpa using hx)] at hz
    by_cases hy : key y = k
    · exact ih h.tail hy z hz
    · rw [List.dropWhile_cons_of_neg (by simpa using hy)] at hz
      intro hkey
      exact hy ((h.second hz (hkey.trans hx.symm)).trans hx)

omit [DecidableEq κ] in
theorem dropWhile {p : α → Bool} {xs : List α} (h : Grouped key xs) :
    Grouped key (xs.dropWhile p) := by
  induction xs with
  | nil => exact h
  | cons x xs ih =>
    by_cases hx : p x = true
    · rw [List.dropWhile_cons_of_pos hx]
      exact ih h.tail
    · rw [List.dropWhile_cons_of_neg hx]
      exact h

end Grouped

/-- What follows the elements up to a key. -/
theorem drop_beforeKey (k : κ) (xs : List α) :
    xs.drop (beforeKey key k xs).length = xs.dropWhile fun x => decide (key x ≠ k) := by
  conv_lhs => rw [← List.takeWhile_append_dropWhile (p := fun x => decide (key x ≠ k)) (l := xs)]
  unfold beforeKey
  rw [List.drop_append, List.drop_eq_nil_of_le]
  · simp
  · simp

/-- **A search for something of one key stays in the block of that key.** -/
theorem findIdx?_eq_block {xs : List α} (h : Grouped key xs) {p : α → Bool} {k : κ}
    (hp : ∀ x, p x = true → key x = k) :
    xs.findIdx? p
      = ((block key k (xs.drop (beforeKey key k xs).length)).findIdx? p).map
          (· + (beforeKey key k xs).length) := by
  have hbefore : (beforeKey key k xs).findIdx? p = none := by
    rw [List.findIdx?_eq_none_iff]
    intro x hx
    have hkey := List.mem_takeWhile_imp hx
    rw [decide_eq_true_eq] at hkey
    exact Bool.eq_false_iff.mpr fun hpx => hkey (hp x hpx)
  rw [drop_beforeKey]
  conv_lhs => rw [← List.takeWhile_append_dropWhile (p := fun x => decide (key x ≠ k)) (l := xs)]
  rw [List.findIdx?_append]
  show ((beforeKey key k xs).findIdx? p).or _ = _
  rw [hbefore, Option.none_or]
  cases hrest : xs.dropWhile fun x => decide (key x ≠ k) with
  | nil => rfl
  | cons x rest =>
    have hx : key x = k := by
      have hhead := List.head?_dropWhile_not (fun x => decide (key x ≠ k)) xs
      rw [hrest] at hhead
      simpa using hhead
    have hgrouped : Grouped key (x :: rest) := hrest ▸ h.dropWhile
    have hafter : ((x :: rest).dropWhile fun y => decide (key y = k)).findIdx? p = none := by
      rw [List.findIdx?_eq_none_iff]
      intro z hz
      exact Bool.eq_false_iff.mpr fun hpz => hgrouped.not_mem_after hx z hz (hp z hpz)
    have hsplit : (x :: rest).findIdx? p = (block key k (x :: rest)).findIdx? p := by
      conv_lhs => rw [← List.takeWhile_append_dropWhile (p := fun y => decide (key y = k))
        (l := x :: rest)]
      rw [List.findIdx?_append, hafter, Option.map_none, Option.or_none]
      rfl
    rw [hsplit]
    rfl

end Armv8Encode.Lib

/-
  Armv8Encode.Lib.Lists — cutting lists at an index.
-/
import Mathlib.Data.List.Forall2

namespace Armv8Encode.Lib

universe u v w

variable {α : Type u} {β : Type v} {γ : Type w}

/-- A list, cut at an index that holds an element. -/
theorem eq_take_cons_drop {xs : List α} {k : Nat} {x : α} (h : xs[k]? = some x) :
    xs = xs.take k ++ x :: xs.drop (k + 1) := by
  obtain ⟨hk, hx⟩ := List.getElem?_eq_some_iff.mp h
  conv_lhs => rw [← List.take_append_drop k xs, List.drop_eq_getElem_cons hk, hx]

/-- Groups of one length, flattened. -/
theorem length_flatten_of_forall {xss : List (List α)} {k : Nat}
    (h : ∀ xs ∈ xss, xs.length = k) : xss.flatten.length = xss.length * k := by
  induction xss with
  | nil => simp
  | cons xs xss ih =>
    rw [List.flatten_cons, List.length_append, List.length_cons, h xs List.mem_cons_self,
      ih fun ys hys => h ys (List.mem_cons_of_mem _ hys), Nat.add_comm, ← Nat.succ_mul]

/-- Lists related by equal images have equal lists of images. -/
theorem map_eq_map_of_forall₂ {f : α → γ} {g : β → γ} {xs : List α} {ys : List β}
    (h : List.Forall₂ (fun x y => f x = g y) xs ys) : xs.map f = ys.map g := by
  induction h with
  | nil => rfl
  | cons hxy _ ih => rw [List.map_cons, List.map_cons, hxy, ih]

/-- Related groups, flattened, are related element by element. -/
theorem forall₂_flatMap_flatten {R : β → γ → Prop} {f : α → List β} {xs : List α}
    {yss : List (List γ)} (h : List.Forall₂ (fun x ys => List.Forall₂ R (f x) ys) xs yss) :
    List.Forall₂ R (xs.flatMap f) yss.flatten := by
  induction h with
  | nil => exact .nil
  | cons hx _ ih =>
    rw [List.flatMap_cons, List.flatten_cons]
    exact List.rel_append hx ih

/-- Groups of equal lengths are related when their flattenings are. -/
theorem forall₂_of_flatMap_flatten {R : β → γ → Prop} {f : α → List β} {xs : List α}
    {yss : List (List γ)} (hlen : List.Forall₂ (fun x ys => (f x).length = ys.length) xs yss)
    (h : List.Forall₂ R (xs.flatMap f) yss.flatten) :
    List.Forall₂ (fun x ys => List.Forall₂ R (f x) ys) xs yss := by
  induction hlen with
  | nil => exact .nil
  | @cons x ys xs yss hx _ ih =>
    rw [List.flatMap_cons, List.flatten_cons] at h
    have hhead := List.forall₂_take ys.length h
    have htail := List.forall₂_drop ys.length h
    rw [List.take_left, ← hx, List.take_left] at hhead
    rw [List.drop_left, ← hx, List.drop_left] at htail
    exact .cons hhead (ih htail)

/-- Elements related to a concatenation are related to its parts in turn. -/
theorem exists_of_forall₂_append {R : α → β → Prop} {xs ys : List α} {zs : List β}
    (h : List.Forall₂ R (xs ++ ys) zs) :
    ∃ us vs, zs = us ++ vs ∧ List.Forall₂ R xs us ∧ List.Forall₂ R ys vs := by
  induction xs generalizing zs with
  | nil => exact ⟨[], zs, rfl, .nil, h⟩
  | cons x xs ih =>
    cases h with
    | cons hx hrest =>
      obtain ⟨us, vs, rfl, hus, hvs⟩ := ih hrest
      exact ⟨_ :: us, vs, rfl, .cons hx hus, hvs⟩

theorem exists_getElem?_of_forall₂ {R : α → β → Prop} {xs : List α} {ys : List β}
    (h : List.Forall₂ R xs ys) {i : Nat} {x : α} (hx : xs[i]? = some x) :
    ∃ y, ys[i]? = some y ∧ R x y := by
  induction h generalizing i with
  | nil => cases hx
  | cons hxy _ ih =>
    cases i with
    | zero =>
      cases hx
      exact ⟨_, rfl, hxy⟩
    | succ i => exact ih hx

/-- The first elements that pass, in related lists. -/
theorem find?_of_forall₂ {R : α → β → Prop} {xs : List α} {ys : List β} {p : α → Bool}
    {q : β → Bool} (h : List.Forall₂ R xs ys) (hpq : ∀ x y, R x y → p x = q y) :
    Option.Rel R (xs.find? p) (ys.find? q) := by
  induction h with
  | nil => exact .none
  | @cons x y xs ys hxy _ ih =>
    rw [List.find?_cons, List.find?_cons, ← hpq x y hxy]
    cases p x with
    | true => exact .some hxy
    | false => exact ih

/-- One related element may be exchanged for another. -/
theorem forall₂_exchange {R : α → β → Prop} {xs : List α} {us vs : List β} {y z : β}
    (h : List.Forall₂ R xs (us ++ y :: vs)) (hyz : ∀ x, R x y → R x z) :
    List.Forall₂ R xs (us ++ z :: vs) := by
  induction us generalizing xs with
  | nil =>
    cases h with
    | cons hx hrest => exact .cons (hyz _ hx) hrest
  | cons u us ih =>
    cases h with
    | cons hx hrest => exact .cons hx (ih hrest)

/-- Related lists: an element on the right has a partner on the left. -/
theorem exists_mem_of_forall₂ {R : α → β → Prop} {xs : List α} {ys : List β}
    (h : List.Forall₂ R xs ys) {y : β} (hy : y ∈ ys) : ∃ x ∈ xs, R x y := by
  induction h with
  | nil => cases hy
  | cons hxy _ ih =>
    obtain rfl | hy := List.mem_cons.mp hy
    · exact ⟨_, List.mem_cons_self, hxy⟩
    · obtain ⟨x, hx, hr⟩ := ih hy
      exact ⟨x, List.mem_cons_of_mem _ hx, hr⟩

/-- The first result over a list laid out in pairs: it comes from a first half, or
from a second half whose first half has none, or from what follows the pairs. -/
theorem findSome_pairs {f : β → Option γ} {first second : α → β} {pairs : List α} {rest : List β}
    {c : γ}
    (h : (pairs.flatMap (fun p => [first p, second p]) ++ rest).findSome? f = some c) :
    (∃ p ∈ pairs, f (first p) = some c ∨ f (first p) = none ∧ f (second p) = some c) ∨
      rest.findSome? f = some c := by
  induction pairs with
  | nil => exact .inr h
  | cons p pairs ih =>
    rw [List.flatMap_cons, List.cons_append, List.cons_append, List.findSome?_cons] at h
    cases hfirst : f (first p) with
    | some c' =>
      rw [hfirst] at h
      cases h
      exact .inl ⟨p, List.mem_cons_self, .inl hfirst⟩
    | none =>
      rw [hfirst, List.cons_append, List.cons_append, List.findSome?_cons] at h
      cases hsecond : f (second p) with
      | some c' =>
        rw [hsecond] at h
        cases h
        exact .inl ⟨p, List.mem_cons_self, .inr ⟨hfirst, hsecond⟩⟩
      | none =>
        rw [hsecond] at h
        obtain ⟨q, hq, hcases⟩ | hrest := ih h
        · exact .inl ⟨q, List.mem_cons_of_mem _ hq, hcases⟩
        · exact .inr hrest

/-- Related lists stay related when both change at one index. -/
theorem forall₂_modify {R : α → β → Prop} {xs : List α} {ys : List β} {f : α → α} {g : β → β}
    {b : Nat} (h : List.Forall₂ R xs ys)
    (hfg : ∀ x y, xs[b]? = some x → ys[b]? = some y → R x y → R (f x) (g y)) :
    List.Forall₂ R (xs.modify b f) (ys.modify b g) := by
  induction h generalizing b with
  | nil => simp
  | cons hxy hrest ih =>
    cases b with
    | zero => exact .cons (hfg _ _ rfl rfl hxy) hrest
    | succ b => exact .cons hxy (ih hfg)

/-- Mapping commutes with a change at an index. -/
theorem map_modify {f : α → β} {g : α → α} {g' : β → β} (h : ∀ x, f (g x) = g' (f x)) (xs : List α)
    (b : Nat) : (xs.modify b g).map f = (xs.map f).modify b g' := by
  induction xs generalizing b with
  | nil => simp
  | cons x xs ih =>
    cases b with
    | zero => simp [h]
    | succ b => simp [ih]

/-- A list of groups, flattened and cut at one element. -/
theorem flatten_cut {xss : List (List α)} {b j : Nat} {xs : List α} {x : α} (hxs : xss[b]? = some xs)
    (hx : xs[j]? = some x) :
    xss.flatten = ((xss.take b).flatten ++ xs.take j)
      ++ (x :: (xs.drop (j + 1) ++ (xss.drop (b + 1)).flatten)) := by
  conv_lhs => rw [eq_take_cons_drop hxs, List.flatten_append, List.flatten_cons, eq_take_cons_drop hx]
  simp

/-- A list with several elements in the place of the one at an index. -/
def replaceAt (j : Nat) (new xs : List α) : List α := xs.take j ++ new ++ xs.drop (j + 1)

@[simp] theorem replaceAt_zero (new : List α) (x : α) (xs : List α) :
    replaceAt 0 new (x :: xs) = new ++ xs := rfl

@[simp] theorem replaceAt_succ (j : Nat) (new : List α) (x : α) (xs : List α) :
    replaceAt (j + 1) new (x :: xs) = x :: replaceAt j new xs := rfl

theorem map_replaceAt (f : α → β) (j : Nat) (new xs : List α) :
    (replaceAt j new xs).map f = replaceAt j (new.map f) (xs.map f) := by
  simp [replaceAt]

/-- Replacing within one group of a list of groups, flattened. -/
theorem flatten_modify_replaceAt {xss : List (List α)} {b j : Nat} {xs : List α}
    (h : xss[b]? = some xs) (new : List α) :
    (xss.modify b (replaceAt j new)).flatten
      = ((xss.take b).flatten ++ xs.take j) ++ new
        ++ (xs.drop (j + 1) ++ (xss.drop (b + 1)).flatten) := by
  induction xss generalizing b with
  | nil => cases h
  | cons ys xss ih =>
    cases b with
    | zero =>
      cases h
      simp [replaceAt]
    | succ b => simp [ih h]

end Armv8Encode.Lib

/-
  Armv8Encode.Lib.Collect — lists of optional results, lists in the order of a key.

  A pass over a list that may fail at each element has a result if every
  element has one.  A list in the order of a key is the elements of key zero,
  then those of key one, and so on.
-/
import Mathlib.Data.List.Dedup
import Mathlib.Data.List.Forall2
import Mathlib.Data.List.Perm.Basic
import Armv8Encode.Lib.Lists

namespace Armv8Encode.Lib

variable {α β γ : Type}

/-! ## §1. Optional results. -/

theorem mapM_eq_some_iff {f : α → Option β} {xs : List α} {ys : List β} :
    xs.mapM f = some ys ↔ List.Forall₂ (fun x y => f x = some y) xs ys := by
  induction xs generalizing ys with
  | nil =>
    rw [List.mapM_nil, List.forall₂_nil_left_iff]
    show some [] = some ys ↔ _
    rw [Option.some.injEq, eq_comm]
  | cons x xs ih =>
    rw [List.mapM_cons]
    constructor
    · intro h
      obtain ⟨y, hy, h⟩ := Option.bind_eq_some_iff.mp h
      obtain ⟨zs, hzs, h⟩ := Option.bind_eq_some_iff.mp h
      cases h
      exact .cons hy (ih.mp hzs)
    · intro h
      cases h with
      | cons hy hzs =>
        rw [hy, ih.mpr hzs]
        rfl

/-- An element of the result comes from an element of the list. -/
theorem exists_of_mem_mapM {f : α → Option β} {xs : List α} {ys : List β}
    (h : xs.mapM f = some ys) {y : β} (hy : y ∈ ys) : ∃ x ∈ xs, f x = some y := by
  induction xs generalizing ys with
  | nil =>
    cases h
    cases hy
  | cons x xs ih =>
    have hall := mapM_eq_some_iff.mp h
    cases hall with
    | cons hx hrest =>
      obtain rfl | hy := List.mem_cons.mp hy
      · exact ⟨x, List.mem_cons_self, hx⟩
      · obtain ⟨x', hx', hy'⟩ := ih (mapM_eq_some_iff.mpr hrest) hy
        exact ⟨x', List.mem_cons_of_mem _ hx', hy'⟩

/-- Every element of the list has its result. -/
theorem exists_mem_of_mapM {f : α → Option β} {xs : List α} {ys : List β}
    (h : xs.mapM f = some ys) {x : α} (hx : x ∈ xs) : ∃ y ∈ ys, f x = some y := by
  induction xs generalizing ys with
  | nil => cases hx
  | cons x' xs ih =>
    have hall := mapM_eq_some_iff.mp h
    cases hall with
    | @cons _ y' _ ys' hx' hrest =>
      obtain rfl | hx := List.mem_cons.mp hx
      · exact ⟨y', List.mem_cons_self, hx'⟩
      · obtain ⟨y, hy, hfx⟩ := ih (mapM_eq_some_iff.mpr hrest) hx
        exact ⟨y, List.mem_cons_of_mem _ hy, hfx⟩

theorem exists_mapM {f : α → Option β} {xs : List α} (h : ∀ x ∈ xs, ∃ y, f x = some y) :
    ∃ ys, xs.mapM f = some ys := by
  induction xs with
  | nil => exact ⟨[], rfl⟩
  | cons x xs ih =>
    obtain ⟨y, hy⟩ := h x List.mem_cons_self
    obtain ⟨ys, hys⟩ := ih fun x' hx' => h x' (List.mem_cons_of_mem _ hx')
    exact ⟨y :: ys, mapM_eq_some_iff.mpr (.cons hy (mapM_eq_some_iff.mp hys))⟩

theorem mapM_congr {f g : α → Option β} {xs : List α} (h : ∀ x ∈ xs, f x = g x) :
    xs.mapM f = xs.mapM g := by
  induction xs with
  | nil => rfl
  | cons x xs ih =>
    rw [List.mapM_cons, List.mapM_cons, h x List.mem_cons_self,
      ih fun x' hx' => h x' (List.mem_cons_of_mem _ hx')]

/-- Each result is the image of the other pass's. -/
theorem mapM_map_of_forall {f : α → Option γ} {g : α → Option β} {k : β → γ} {xs : List α}
    (h : ∀ x ∈ xs, f x = (g x).map k) : xs.mapM f = (xs.mapM g).map (List.map k) := by
  induction xs with
  | nil => rfl
  | cons x xs ih =>
    rw [List.mapM_cons, List.mapM_cons, h x List.mem_cons_self,
      ih fun x' hx' => h x' (List.mem_cons_of_mem _ hx')]
    cases g x with
    | none => rfl
    | some y =>
      cases xs.mapM g with
      | none => rfl
      | some ys => rfl

/-- Two steps one after the other whose results are images. -/
theorem bind_map_of_forall {δ : Type} {x' : Option β} {x : Option α} {k : α → β}
    {f' : β → Option δ} {f : α → Option γ} {g : γ → δ} (hx : x' = x.map k)
    (hf : ∀ a, x = some a → f' (k a) = (f a).map g) : (x' >>= f') = (x >>= f).map g := by
  subst hx
  cases x with
  | none => rfl
  | some a => exact hf a rfl

theorem mapM_of_forall₂ {f : α → Option γ} {g : β → Option γ} {xs : List α}
    {ys : List β} (h : List.Forall₂ (fun x y => f x = g y) xs ys) : xs.mapM f = ys.mapM g := by
  induction h with
  | nil => rfl
  | cons hxy _ ih => rw [List.mapM_cons, List.mapM_cons, hxy, ih]

/-- A pass over groups, group by group or all at once. -/
theorem mapM_flatMap (f : β → Option γ) (g : α → List β) (xs : List α) :
    (xs.flatMap g).mapM f = (xs.mapM fun x => (g x).mapM f).map List.flatten := by
  induction xs with
  | nil => rfl
  | cons x xs ih =>
    rw [List.flatMap_cons, List.mapM_append, List.mapM_cons, ih]
    cases (g x).mapM f with
    | none => rfl
    | some ys =>
      cases xs.mapM fun x => (g x).mapM f with
      | none => rfl
      | some zs => rfl

/-- A pass over the indices of a list that finds its elements. -/
theorem mapM_range_eq_some {f : Nat → Option β} {ys : List β}
    (h : ∀ i y, ys[i]? = some y → f i = some y) : (List.range ys.length).mapM f = some ys := by
  refine mapM_eq_some_iff.mpr (List.forall₂_iff_get.mpr ⟨List.length_range, fun i hi hi' => ?_⟩)
  simp only [List.get_eq_getElem, List.getElem_range]
  exact h i _ (List.getElem?_eq_getElem hi')

theorem length_of_mapM {f : α → Option β} {xs : List α} {ys : List β} (h : xs.mapM f = some ys) :
    ys.length = xs.length := (mapM_eq_some_iff.mp h).length_eq.symm

/-- A pass over as many indices as the list has. -/
theorem mapM_range_eq_some_iff {f : Nat → Option β} {n : Nat} {ys : List β} :
    (List.range n).mapM f = some ys ↔ n = ys.length ∧ ∀ i y, ys[i]? = some y → f i = some y := by
  constructor
  · intro h
    have hn := length_of_mapM h
    rw [List.length_range] at hn
    refine ⟨hn.symm, fun i y hy => ?_⟩
    have hi := (List.getElem?_eq_some_iff.mp hy).1
    obtain ⟨y', hy', hf⟩ := exists_getElem?_of_forall₂ (mapM_eq_some_iff.mp h)
      (List.getElem?_range (show i < n by omega))
    rw [hy] at hy'
    cases hy'
    exact hf
  · rintro ⟨rfl, h⟩
    exact mapM_range_eq_some h

/-- A fold over what a pass gives, done along with the pass. -/
theorem foldlM_of_mapM {σ : Type} {f : α → Option β} {g : σ → α → Option σ}
    {step : σ → β → Option σ} {xs : List α} {ys : List β} (hmap : xs.mapM f = some ys)
    (h : ∀ x y s, f x = some y → g s x = step s y) (s : σ) :
    xs.foldlM g s = ys.foldlM step s := by
  have hall := mapM_eq_some_iff.mp hmap
  clear hmap
  induction hall generalizing s with
  | nil => rfl
  | @cons x y xs ys hxy _ ih =>
    rw [List.foldlM_cons, List.foldlM_cons, h x y s hxy]
    cases step s y with
    | none => rfl
    | some s' => exact ih s'

/-- A fold over groups, group by group. -/
theorem foldlM_flatten {σ : Type} (step : σ → β → Option σ) (yss : List (List β))
    (s : σ) :
    yss.flatten.foldlM step s = yss.foldlM (fun s ys => ys.foldlM step s) s := by
  induction yss generalizing s with
  | nil => rfl
  | cons ys yss ih =>
    rw [List.flatten_cons, List.foldlM_append, List.foldlM_cons]
    cases ys.foldlM step s with
    | none => rfl
    | some s' => exact ih s'

/-! ## §2. In the order of a key. -/

theorem filter_lt_succ {key : α → Nat} {xs : List α}
    (h : xs.Pairwise fun a b => key a ≤ key b) (n : Nat) :
    xs.filter (fun x => decide (key x < n + 1))
      = xs.filter (fun x => decide (key x < n)) ++ xs.filter (fun x => decide (key x = n)) := by
  induction xs with
  | nil => rfl
  | cons x xs ih =>
    obtain ⟨hx, hxs⟩ := List.pairwise_cons.mp h
    have hrest := ih hxs
    by_cases hlt : key x < n
    · rw [List.filter_cons_of_pos (by rw [decide_eq_true_eq]; omega),
        List.filter_cons_of_pos (by rw [decide_eq_true_eq]; exact hlt),
        List.filter_cons_of_neg (by rw [decide_eq_true_eq]; omega), hrest, List.cons_append]
    · -- From here on no key is below `n`.
      have hnone : (x :: xs).filter (fun x => decide (key x < n)) = [] := by
        rw [List.filter_eq_nil_iff]
        intro y hy
        obtain rfl | hy := List.mem_cons.mp hy
        · simpa using hlt
        · have := hx y hy
          rw [decide_eq_true_eq]
          omega
      rw [hnone, List.nil_append]
      rw [List.filter_cons_of_neg (by rw [decide_eq_true_eq]; exact hlt)] at hnone
      rw [hnone, List.nil_append] at hrest
      by_cases heq : key x = n
      · rw [List.filter_cons_of_pos (by rw [decide_eq_true_eq]; omega),
          List.filter_cons_of_pos (by rw [decide_eq_true_eq]; exact heq), hrest]
      · rw [List.filter_cons_of_neg (by rw [decide_eq_true_eq]; omega),
          List.filter_cons_of_neg (by rw [decide_eq_true_eq]; exact heq), hrest]

theorem range_flatMap_filter {key : α → Nat} {xs : List α}
    (h : xs.Pairwise fun a b => key a ≤ key b) (n : Nat) :
    ((List.range n).flatMap fun i => xs.filter fun x => decide (key x = i))
      = xs.filter fun x => decide (key x < n) := by
  induction n with
  | zero => simp
  | succ n ih =>
    rw [List.range_succ, List.flatMap_append, ih, filter_lt_succ h, List.flatMap_cons,
      List.flatMap_nil, List.append_nil]

/-- Looking up from the end finds the only entry of a key. -/
theorem toList_find?_reverse {key : α → Nat} {xs : List α}
    (h : xs.Pairwise fun a b => key a < key b) (i : Nat) :
    (xs.reverse.find? fun x => key x == i).toList = xs.filter fun x => decide (key x = i) := by
  have hfilter : (xs.filter fun x => key x == i) = xs.filter fun x => decide (key x = i) :=
    List.filter_congr fun x _ => rfl
  rw [← List.head?_filter, List.filter_reverse, List.head?_reverse, hfilter]
  cases hxs : xs.filter fun x => decide (key x = i) with
  | nil => rfl
  | cons x rest =>
    cases rest with
    | nil => rfl
    | cons y rest =>
      -- Two entries of one key are not in order.
      have hpairs := h.filter fun x => decide (key x = i)
      have hall : ∀ z ∈ xs.filter fun x => decide (key x = i), key z = i := fun z hz =>
        of_decide_eq_true (List.mem_filter.mp hz).2
      rw [hxs] at hpairs hall
      have hlt := List.rel_of_pairwise_cons hpairs List.mem_cons_self
      have hx := hall x List.mem_cons_self
      have hy := hall y (List.mem_cons_of_mem _ List.mem_cons_self)
      omega

theorem zipIdx_map_range (g : Nat → α) (n : Nat) :
    ((List.range n).map g).zipIdx = (List.range n).map fun i => (g i, i) := by
  apply List.ext_getElem?
  intro i
  rw [List.getElem?_zipIdx, List.getElem?_map, List.getElem?_map]
  by_cases hi : i < n
  · rw [List.getElem?_range hi]
    simp
  · rw [List.getElem?_eq_none (by simpa using hi)]
    rfl

/-! ## §3. Elements by their keys. -/

/-- The elements of a list by their keys, key by key. -/
theorem flatMap_filter_perm {κ : Type} [DecidableEq κ] (key : α → κ) (xs : List α) :
    ((xs.map key).dedup.flatMap fun k => xs.filter fun x => key x = k).Perm xs := by
  have hkeys : ∀ ks : List κ, ks.Nodup →
      (ks.flatMap fun k => xs.filter fun x => key x = k).Perm (xs.filter fun x => key x ∈ ks) := by
    intro ks hnodup
    induction ks with
    | nil => simp
    | cons k ks ih =>
      have ⟨hk, hks⟩ := List.nodup_cons.mp hnodup
      have hfirst : xs.filter (fun x => key x = k)
          = (xs.filter fun x => key x ∈ k :: ks).filter fun x => key x = k := by
        rw [List.filter_filter]
        apply List.filter_congr
        intro x _
        by_cases hx : key x = k
        · simp [hx]
        · simp [hx]
      have hothers : xs.filter (fun x => key x ∈ ks)
          = (xs.filter fun x => key x ∈ k :: ks).filter fun x => !decide (key x = k) := by
        rw [List.filter_filter]
        apply List.filter_congr
        intro x _
        by_cases hx : key x = k
        · simp [hx, hk]
        · simp [hx]
      rw [List.flatMap_cons]
      refine ((ih hks).append_left _).trans ?_
      rw [hfirst, hothers]
      exact List.filter_append_perm _ _
  have hall := hkeys (xs.map key).dedup (List.nodup_dedup _)
  rwa [List.filter_eq_self.mpr] at hall
  intro x hx
  exact decide_eq_true (List.mem_dedup.mpr (List.mem_map_of_mem hx))

/-- What the groups of a list hold together, up to the order within each. -/
theorem map_flatten_perm {R : α → List β → Prop} {p : β → γ} {g : α → List γ} {xs : List α}
    {yss : List (List β)} (h : List.Forall₂ R xs yss)
    (hg : ∀ x ys, R x ys → (ys.map p).Perm (g x)) :
    (yss.flatten.map p).Perm (xs.flatMap g) := by
  induction h with
  | nil => exact .nil
  | @cons x ys xs yss hx _ ih =>
    rw [List.flatten_cons, List.map_append, List.flatMap_cons]
    exact (hg x ys hx).append ih

end Armv8Encode.Lib

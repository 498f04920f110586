/-
  Armv8Encode.Lib.DepthFirst — a depth-first walk that remembers nothing.

  The walk takes a node off its stack and puts the node's children there, the
  first on top.  It keeps no record of the nodes it has visited: over a graph
  with a cycle it comes back to the same node for ever.  A node can also stop
  the walk or break it.

  Main result:
    * `dfs_ends_iff` — where finitely many nodes have children, the walk comes
      to a regular end exactly when everything in reach is sound and free of
      cycles, or so is everything to the left of a path to a node that stops it.
-/
import Mathlib.Logic.Relation
import Mathlib.Data.Set.Card

namespace Armv8Encode.Lib

open Relation

/-! ## §1. The walk. -/

/-- What visiting a node gives. -/
inductive Visited (α : Type) where
  | onward (children : List α)
  /-- The walk ends here. -/
  | stop
  /-- The walk breaks here. -/
  | broken
  deriving Repr, DecidableEq

/-- How a walk ended. -/
inductive WalkEnd where
  | done
  | stopped
  | broke
  deriving Repr, DecidableEq

section DepthFirst

variable {α : Type} (visit : α → Visited α)

/-- The walk over a stack of nodes; `none` when the fuel is used up. -/
def dfs : Nat → List α → Option WalkEnd
  | _, [] => some .done
  | 0, _ :: _ => none
  | fuel + 1, a :: stack =>
    match visit a with
    | .onward children => dfs fuel (children ++ stack)
    | .stop => some .stopped
    | .broken => some .broke

/-- The walk comes to an end that is no break. -/
def Ends (stack : List α) : Prop :=
  ∃ fuel, dfs visit fuel stack = some .done ∨ dfs visit fuel stack = some .stopped

/-- `b` is a child of `a`. -/
def Edge (a b : α) : Prop := ∃ children, visit a = .onward children ∧ b ∈ children

/-- Every node in reach has its children, and none is on a cycle. -/
def Clean (a : α) : Prop :=
  ∀ b, ReflTransGen (Edge visit) a b →
    (∃ children, visit b = .onward children) ∧ ¬ TransGen (Edge visit) b b

/-- A path leads to a node that stops the walk, and everything to its left is
clean. -/
inductive StopsAt : α → Prop
  | here {a : α} : visit a = .stop → StopsAt a
  | onPath {a c : α} {before after : List α} : visit a = .onward (before ++ c :: after) →
      (∀ b ∈ before, Clean visit b) → StopsAt c → StopsAt a

variable {visit}

/-! ## §2. Clean nodes. -/

theorem Clean.child {a b : α} (h : Clean visit a) (hedge : Edge visit a b) : Clean visit b :=
  fun c hc => h c (hc.head hedge)

theorem clean_of_children {a : α} {children : List α} (hvisit : visit a = .onward children)
    (h : ∀ b ∈ children, Clean visit b) : Clean visit a := by
  have hedge : ∀ {b}, Edge visit a b → Clean visit b := by
    intro b ⟨children', hvisit', hb⟩
    rw [hvisit, Visited.onward.injEq] at hvisit'
    exact h b (hvisit' ▸ hb)
  intro b hb
  rcases ReflTransGen.cases_head hb with heq | ⟨c, hac, hcb⟩
  · subst heq
    refine ⟨⟨children, hvisit⟩, fun hcycle => ?_⟩
    -- a cycle through `a` goes through a child that reaches `a`
    have ⟨c, hac, hca⟩ := TransGen.head'_iff.mp hcycle
    exact (hedge hac a hca).2 hcycle
  · exact hedge hac b hcb

/-- Where finitely many nodes have children, what holds of a node when it
holds of its children holds of every clean node: following edges, the set of
nodes in reach gets smaller. -/
theorem Clean.induction (hfinite : {a | ∃ children, visit a = .onward children}.Finite)
    {P : α → Prop} (step : ∀ a, Clean visit a → (∀ b, Edge visit a b → P b) → P a) :
    ∀ a, Clean visit a → P a := by
  have hbelow : ∀ n, ∀ a, Clean visit a → {b | TransGen (Edge visit) a b}.ncard = n → P a := by
    intro n
    induction n using Nat.strong_induction_on with
    | _ n ih =>
      intro a ha hn
      refine step a ha (fun b hedge => ?_)
      have hsubset : {c | TransGen (Edge visit) b c} ⊂ {c | TransGen (Edge visit) a c} := by
        refine Set.ssubset_iff_subset_ne.mpr ⟨fun c hc => TransGen.head hedge hc, fun heq => ?_⟩
        have hcycle : b ∈ {c | TransGen (Edge visit) b c} := heq ▸ TransGen.single hedge
        exact ((ha.child hedge) b ReflTransGen.refl).2 hcycle
      have hreach : {c | TransGen (Edge visit) a c}.Finite :=
        hfinite.subset (fun c hc => (ha c hc.to_reflTransGen).1)
      exact ih _ (hn ▸ Set.ncard_lt_ncard hsubset hreach) b (ha.child hedge) rfl
  exact fun a ha => hbelow _ a ha rfl

/-! ## §3. When the walk ends. -/

/-- The walk gets past the nodes, whatever is below them on the stack. -/
def Passes (visit : α → Visited α) (nodes : List α) : Prop :=
  ∃ fuel, ∀ more stack, dfs visit (fuel + more) (nodes ++ stack) = dfs visit more stack

theorem passes_nil : Passes visit [] := ⟨0, fun more stack => by simp⟩

theorem Passes.append {nodes nodes' : List α} (h : Passes visit nodes)
    (h' : Passes visit nodes') : Passes visit (nodes ++ nodes') := by
  have ⟨fuel, hpass⟩ := h
  have ⟨fuel', hpass'⟩ := h'
  refine ⟨fuel + fuel', fun more stack => ?_⟩
  rw [List.append_assoc, Nat.add_assoc, hpass, hpass']

theorem passes_of_forall {nodes : List α} (h : ∀ a ∈ nodes, Passes visit [a]) :
    Passes visit nodes := by
  induction nodes with
  | nil => exact passes_nil
  | cons a nodes ih =>
    exact (h a List.mem_cons_self).append (ih (fun b hb => h b (List.mem_cons_of_mem _ hb)))

theorem passes_of_onward {a : α} {children : List α} (hvisit : visit a = .onward children)
    (h : Passes visit children) : Passes visit [a] := by
  have ⟨fuel, hpass⟩ := h
  refine ⟨fuel + 1, fun more stack => ?_⟩
  show dfs visit (fuel + 1 + more) (a :: stack) = _
  rw [Nat.add_right_comm]
  simp only [dfs, hvisit]
  exact hpass more stack

theorem Clean.passes (hfinite : {a | ∃ children, visit a = .onward children}.Finite) {a : α}
    (h : Clean visit a) : Passes visit [a] := by
  have hall : ∀ a, Clean visit a → Passes visit [a] := by
    refine Clean.induction hfinite (fun a ha ih => ?_)
    have ⟨children, hvisit⟩ := (ha a ReflTransGen.refl).1
    exact passes_of_onward hvisit (passes_of_forall (fun b hb => ih b ⟨children, hvisit, hb⟩))
  exact hall a h

theorem StopsAt.stops (hfinite : {a | ∃ children, visit a = .onward children}.Finite) {a : α}
    (h : StopsAt visit a) : ∃ fuel, ∀ stack, dfs visit fuel (a :: stack) = some .stopped := by
  induction h with
  | here hvisit => exact ⟨1, fun stack => by simp only [dfs, hvisit]⟩
  | @onPath a c before after hvisit hbefore _ ih =>
    have ⟨fuel, hpass⟩ := passes_of_forall (fun b hb => (hbefore b hb).passes hfinite)
    have ⟨fuel', hstop⟩ := ih
    refine ⟨fuel + fuel' + 1, fun stack => ?_⟩
    simp only [dfs, hvisit]
    rw [List.append_assoc, hpass, List.cons_append, hstop]

/-- The stack holds clean nodes, then one that stops the walk. -/
def StackStops (visit : α → Visited α) (stack : List α) : Prop :=
  ∃ before c after, stack = before ++ c :: after ∧ (∀ b ∈ before, Clean visit b) ∧
    StopsAt visit c

theorem StackStops.cons {a : α} {stack : List α} (ha : Clean visit a)
    (h : StackStops visit stack) : StackStops visit (a :: stack) := by
  have ⟨before, c, after, hstack, hbefore, hstop⟩ := h
  refine ⟨a :: before, c, after, by rw [hstack, List.cons_append], ?_, hstop⟩
  intro b hb
  by_cases heq : b = a
  · exact heq ▸ ha
  · exact hbefore b ((List.mem_cons.mp hb).resolve_left heq)

/-- A stopping stack in two parts stops in the first, or passes it. -/
theorem StackStops.append {nodes stack : List α} (h : StackStops visit (nodes ++ stack)) :
    StackStops visit nodes ∨ (∀ a ∈ nodes, Clean visit a) ∧ StackStops visit stack := by
  induction nodes with
  | nil => exact .inr ⟨by simp, h⟩
  | cons a nodes ih =>
    have ⟨before, c, after, hsplit, hbefore, hstop⟩ := h
    cases before with
    | nil =>
      have hhead : a = c := (List.cons.inj hsplit).1
      exact .inl ⟨[], a, nodes, rfl, by simp, hhead ▸ hstop⟩
    | cons b before =>
      have ⟨hhead, htail⟩ := List.cons.inj hsplit
      have ha : Clean visit a := hhead ▸ hbefore b List.mem_cons_self
      have hrest : StackStops visit (nodes ++ stack) :=
        ⟨before, c, after, htail, fun d hd => hbefore d (List.mem_cons_of_mem _ hd), hstop⟩
      rcases ih hrest with hnodes | ⟨hclean, hstack⟩
      · exact .inl (hnodes.cons ha)
      · refine .inr ⟨fun d hd => ?_, hstack⟩
        by_cases heq : d = a
        · exact heq ▸ ha
        · exact hclean d ((List.mem_cons.mp hd).resolve_left heq)

/-- A walk that ended found its nodes clean up to the one that stopped it. -/
theorem of_dfs (fuel : Nat) (stack : List α) :
    (dfs visit fuel stack = some .done → ∀ a ∈ stack, Clean visit a) ∧
    (dfs visit fuel stack = some .stopped → StackStops visit stack) := by
  induction fuel generalizing stack with
  | zero =>
    cases stack with
    | nil => simp [dfs]
    | cons a stack => simp [dfs]
  | succ fuel ih =>
    cases stack with
    | nil => simp [dfs]
    | cons a stack =>
      simp only [dfs]
      cases hvisit : visit a with
      | stop => exact ⟨by simp, fun _ => ⟨[], a, stack, rfl, by simp, .here hvisit⟩⟩
      | broken => simp
      | onward children =>
        have ⟨hdone, hstopped⟩ := ih (children ++ stack)
        refine ⟨fun h => ?_, fun h => ?_⟩
        · have hall := hdone h
          have ha := clean_of_children hvisit
            (fun b hb => hall b (List.mem_append_left _ hb))
          intro b hb
          by_cases heq : b = a
          · exact heq ▸ ha
          · exact hall b (List.mem_append_right _ ((List.mem_cons.mp hb).resolve_left heq))
        · rcases (hstopped h).append with ⟨before, c, after, hsplit, hbefore, hstop⟩ | hpassed
          · exact ⟨[], a, stack, rfl, by simp, .onPath (hsplit ▸ hvisit) hbefore hstop⟩
          · exact hpassed.2.cons (clean_of_children hvisit hpassed.1)

theorem dfs_ends_iff (hfinite : {a | ∃ children, visit a = .onward children}.Finite) (a : α) :
    Ends visit [a] ↔ Clean visit a ∨ StopsAt visit a := by
  constructor
  · intro ⟨fuel, h⟩
    have ⟨hdone, hstopped⟩ : (dfs visit fuel [a] = some .done → ∀ b ∈ [a], Clean visit b) ∧
        (dfs visit fuel [a] = some .stopped → StackStops visit [a]) :=
      of_dfs fuel [a]
    by_cases hend : dfs visit fuel [a] = some .done
    · exact .inl (hdone hend a List.mem_cons_self)
    · have ⟨before, c, after, hsplit, _, hstop⟩ := hstopped (h.resolve_left hend)
      have hnil : before = [] ∧ c = a ∧ after = [] := by
        cases before with
        | nil => simpa [eq_comm] using hsplit
        | cons b before => simp at hsplit
      exact .inr (hnil.2.1 ▸ hstop)
  · intro h
    by_cases hclean : Clean visit a
    · have ⟨fuel, hpass⟩ := hclean.passes hfinite
      exact ⟨fuel + 0, .inl (by simpa [dfs] using hpass 0 [])⟩
    · have ⟨fuel, hstop⟩ := (h.resolve_left hclean).stops hfinite
      exact ⟨fuel, .inr (hstop [])⟩

end DepthFirst

end Armv8Encode.Lib

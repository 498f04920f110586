/-
  Armv8Encode.Lib.Worklist — walking a graph with a worklist.

  Visiting a node gives a result, some nodes to queue and perhaps one node to
  walk on to.  The walk follows the latter as long as it meets new nodes, then
  takes the next node from the worklist.  It visits exactly the nodes that the
  roots reach (`run_status`), and it ends when only finitely many nodes are
  allowed (`run_done`).
-/
import Mathlib.Order.Bounds.Defs
import Armv8Encode.Lib.Maps

namespace Armv8Encode.Lib

/-! ## §1. The walk. -/

/-- What visiting a node gives. -/
structure Visit (α σ : Type) where
  result : σ
  queued : List α
  next : Option α
  deriving Repr, DecidableEq

/-- A walk in progress: the nodes still queued, the last one first, the node
walked to, and the results of the nodes visited so far. -/
structure Walk (α σ : Type) where
  worklist : List α
  walking : Option α
  status : Map α σ

namespace Walk

variable {α σ : Type} [DecidableEq α] (allowed : α → Bool) (visit : α → Visit α σ)

/-- The walk before its first step. -/
def start (roots : List α) : Walk α σ := ⟨(roots.filter allowed).reverse, none, fun _ => none⟩

/-- Nothing is queued and nothing is walked to. -/
def isDone (walk : Walk α σ) : Bool := walk.worklist.isEmpty && walk.walking.isNone

/-- The walk after a node was visited. -/
def visited (walk : Walk α σ) (a : α) : Walk α σ :=
  { worklist := ((visit a).queued.filter allowed).reverse ++ walk.worklist
    walking := (visit a).next
    status := Function.update walk.status a (some (visit a).result) }

/-- One turn of the loop: visit the node walked to unless it is not allowed or
was visited before, or take the next node from the worklist. -/
def step (walk : Walk α σ) : Walk α σ :=
  match walk.walking with
  | some a =>
    if !allowed a || (walk.status a).isSome then { walk with walking := none }
    else walk.visited allowed visit a
  | none =>
    match walk.worklist with
    | [] => walk
    | a :: rest => { walk with worklist := rest, walking := some a }

/-- Turn after turn, until the walk is done or the fuel is used up. -/
def run : Nat → Walk α σ → Walk α σ
  | 0, walk => walk
  | fuel + 1, walk => if walk.isDone then walk else run fuel (walk.step allowed visit)

end Walk

/-! ## §2. Reachable nodes. -/

/-- The least set that holds the allowed roots and every allowed successor of
its members. -/
inductive Reach {α : Type} (allowed : α → Bool) (successor : α → α → Prop) (roots : List α) :
    α → Prop where
  | root {a : α} (hroot : a ∈ roots) (hallowed : allowed a = true) :
      Reach allowed successor roots a
  | step {a b : α} (ha : Reach allowed successor roots a) (hstep : successor a b)
      (hallowed : allowed b = true) : Reach allowed successor roots b

namespace Reach

variable {α : Type} {allowed : α → Bool} {successor successor' : α → α → Prop}
  {roots roots' : List α}

theorem isAllowed {a : α} (h : Reach allowed successor roots a) : allowed a = true := by
  cases h with
  | root hroot hallowed => exact hallowed
  | step ha hstep hallowed => exact hallowed

/-- More roots and more successors reach more nodes. -/
theorem mono (hroots : ∀ a ∈ roots, a ∈ roots')
    (hsuccessor : ∀ a b, Reach allowed successor roots a → successor a b → successor' a b) {a : α}
    (h : Reach allowed successor roots a) : Reach allowed successor' roots' a := by
  induction h with
  | root hroot hallowed => exact .root (hroots _ hroot) hallowed
  | step ha hstep hallowed ih => exact .step ih (hsuccessor _ _ ha hstep) hallowed

theorem congr_roots (hroots : ∀ a, a ∈ roots ↔ a ∈ roots') {a : α} :
    Reach allowed successor roots a ↔ Reach allowed successor roots' a :=
  ⟨mono (fun a ha => (hroots a).mp ha) (fun _ _ _ h => h),
    mono (fun a ha => (hroots a).mpr ha) (fun _ _ _ h => h)⟩

/-- The sets that hold the allowed roots and every allowed successor of their members. -/
def ClosedSets (allowed : α → Bool) (successor : α → α → Prop) (roots : List α) : Set (Set α) :=
  {S | (∀ a ∈ roots, allowed a = true → a ∈ S) ∧
    ∀ a b, a ∈ S → successor a b → allowed b = true → b ∈ S}

/-- What is reached is the least of them. -/
theorem isLeast : IsLeast (ClosedSets allowed successor roots)
    {a | Reach allowed successor roots a} := by
  constructor
  · exact ⟨fun a hroot hallowed => Reach.root hroot hallowed,
      fun a b ha hstep hallowed => Reach.step ha hstep hallowed⟩
  · rintro S ⟨hroots, hclosed⟩ a ha
    induction ha with
    | root hroot hallowed => exact hroots _ hroot hallowed
    | step _ hstep hallowed ih => exact hclosed _ _ ih hstep hallowed

end Reach

/-- The nodes that visiting a node queues or walks on to. -/
def Visit.Follows {α σ : Type} (v : Visit α σ) (b : α) : Prop := b ∈ v.queued ∨ v.next = some b

namespace Walk

variable {α σ : Type} [DecidableEq α] {allowed : α → Bool} {visit : α → Visit α σ}

/-! ## §3. The invariant. -/

/-- A node the walk has visited or still has to look at. -/
def Known (walk : Walk α σ) (a : α) : Prop :=
  (walk.status a).isSome = true ∨ a ∈ walk.worklist ∨ walk.walking = some a

/-- Only reachable nodes are known, each visited node with its own result, and
the allowed roots and successors of visited nodes are known. -/
structure Inv (allowed : α → Bool) (visit : α → Visit α σ) (roots : List α) (walk : Walk α σ) :
    Prop where
  result : ∀ a r, walk.status a = some r →
    r = (visit a).result ∧ Reach allowed (fun a => (visit a).Follows) roots a
  queued : ∀ a ∈ walk.worklist, Reach allowed (fun a => (visit a).Follows) roots a
  walked : ∀ a, walk.walking = some a → allowed a = true →
    Reach allowed (fun a => (visit a).Follows) roots a
  roots : ∀ a ∈ roots, allowed a = true → walk.Known a
  closed : ∀ a b, (walk.status a).isSome = true → (visit a).Follows b → allowed b = true →
    walk.Known b

omit [DecidableEq α] in
theorem start_inv (roots : List α) : Inv allowed visit roots (start allowed roots) where
  result := by
    intro a r h
    cases h
  queued := by
    intro a ha
    obtain ⟨hroot, hallowed⟩ := List.mem_filter.mp (List.mem_reverse.mp ha)
    exact .root hroot hallowed
  walked := by
    intro a h
    cases h
  roots := by
    intro a hroot hallowed
    exact .inr (.inl (List.mem_reverse.mpr (List.mem_filter.mpr ⟨hroot, hallowed⟩)))
  closed := by
    intro a b h
    cases h

omit [DecidableEq α] in
/-- A node that is not visited again is dropped. -/
theorem Inv.dropped {roots : List α} {walk : Walk α σ} {a : α} (h : Inv allowed visit roots walk)
    (hwalking : walk.walking = some a)
    (hskip : allowed a = false ∨ (walk.status a).isSome = true) :
    Inv allowed visit roots { walk with walking := none } := by
  have hknown : ∀ b, allowed b = true → walk.Known b →
      Known { walk with walking := none } b := by
    intro b hb hb'
    rcases hb' with hsome | hqueued | hwalked
    · exact .inl hsome
    · exact .inr (.inl hqueued)
    · rw [hwalking] at hwalked
      cases hwalked
      rcases hskip with hnot | hsome
      · rw [hb] at hnot
        cases hnot
      · exact .inl hsome
  exact
    { result := h.result
      queued := h.queued
      walked := by
        intro b hb
        cases hb
      roots := fun b hb hallowed => hknown b hallowed (h.roots b hb hallowed)
      closed := fun b c hb hfollows hallowed =>
        hknown c hallowed (h.closed b c hb hfollows hallowed) }

theorem visited_status (walk : Walk α σ) (a b : α) :
    (walk.visited allowed visit a).status b
      = if b = a then some (visit a).result else walk.status b := by
  show Function.update walk.status a (some (visit a).result) b = _
  by_cases hb : b = a
  · subst hb
    rw [Function.update_self, if_pos rfl]
  · rw [Function.update_of_ne hb, if_neg hb]

/-- Visiting a new node keeps the invariant. -/
theorem Inv.visited {roots : List α} {walk : Walk α σ} {a : α} (h : Inv allowed visit roots walk)
    (hwalking : walk.walking = some a) (hallowed : allowed a = true) :
    Inv allowed visit roots (walk.visited allowed visit a) := by
  have hreach := h.walked a hwalking hallowed
  have hknown : ∀ b, walk.Known b → (walk.visited allowed visit a).Known b := by
    intro b hb
    by_cases hba : b = a
    · subst hba
      left
      rw [visited_status, if_pos rfl]
      rfl
    · rcases hb with hsome | hqueued | hwalked
      · left
        rw [visited_status, if_neg hba]
        exact hsome
      · exact .inr (.inl (List.mem_append_right _ hqueued))
      · rw [hwalking] at hwalked
        exact absurd (Option.some.inj hwalked).symm hba
  constructor
  case result =>
    intro b r hb
    rw [visited_status] at hb
    split at hb
    · next heq =>
      cases hb
      subst heq
      exact ⟨rfl, hreach⟩
    · exact h.result b r hb
  case queued =>
    intro b hb
    rcases List.mem_append.mp hb with hnew | hold
    · obtain ⟨hmem, hb'⟩ := List.mem_filter.mp (List.mem_reverse.mp hnew)
      exact .step hreach (.inl hmem) hb'
    · exact h.queued b hold
  case walked =>
    intro b hb hb'
    exact .step hreach (.inr hb) hb'
  case roots => exact fun b hb hb' => hknown b (h.roots b hb hb')
  case closed =>
    intro b c hb hfollows hc
    by_cases hba : b = a
    · subst hba
      rcases hfollows with hqueued | hnext
      · have hmem := List.mem_reverse.mpr (List.mem_filter.mpr ⟨hqueued, hc⟩)
        exact .inr (.inl (List.mem_append_left _ hmem))
      · exact .inr (.inr hnext)
    · rw [visited_status, if_neg hba] at hb
      exact hknown c (h.closed b c hb hfollows hc)

/-- One turn of the loop keeps the invariant. -/
theorem Inv.step {roots : List α} {walk : Walk α σ} (h : Inv allowed visit roots walk) :
    Inv allowed visit roots (walk.step allowed visit) := by
  unfold Walk.step
  split
  · next a hwalking =>
    split
    · next hskip =>
      refine h.dropped hwalking ?_
      simpa using hskip
    · next hskip =>
      simp only [Bool.or_eq_true, Bool.not_eq_true', not_or, Bool.not_eq_false] at hskip
      exact h.visited hwalking hskip.1
  · next hwalking =>
    split
    · exact h
    · next a rest hqueue =>
      have hknown : ∀ b, walk.Known b →
          Known { walk with worklist := rest, walking := some a } b := by
        intro b hb
        rcases hb with hsome | hqueued | hwalked
        · exact .inl hsome
        · rw [hqueue] at hqueued
          rcases List.mem_cons.mp hqueued with rfl | hrest
          · exact .inr (.inr rfl)
          · exact .inr (.inl hrest)
        · rw [hwalking] at hwalked
          cases hwalked
      constructor
      case result => exact h.result
      case queued => exact fun b hb => h.queued b (hqueue ▸ List.mem_cons_of_mem a hb)
      case walked =>
        intro b hb _
        cases hb
        exact h.queued a (hqueue ▸ List.mem_cons_self)
      case roots => exact fun b hb hb' => hknown b (h.roots b hb hb')
      case closed => exact fun b c hb hfollows hc => hknown c (h.closed b c hb hfollows hc)

theorem Inv.run {roots : List α} {walk : Walk α σ} (h : Inv allowed visit roots walk)
    (fuel : Nat) : Inv allowed visit roots (walk.run allowed visit fuel) := by
  induction fuel generalizing walk with
  | zero => exact h
  | succ fuel ih =>
    unfold Walk.run
    split
    · exact h
    · exact ih h.step

omit [DecidableEq α] in
/-- **A finished walk has visited exactly the reachable nodes.** -/
theorem Inv.status_iff {roots : List α} {walk : Walk α σ} (h : Inv allowed visit roots walk)
    (hdone : walk.isDone = true) (a : α) (r : σ) :
    walk.status a = some r ↔
      Reach allowed (fun a => (visit a).Follows) roots a ∧ r = (visit a).result := by
  obtain ⟨hempty, hnone⟩ : walk.worklist = [] ∧ walk.walking = none := by
    simpa [isDone] using hdone
  have hknown : ∀ b, walk.Known b → (walk.status b).isSome = true := by
    intro b hb
    rcases hb with hsome | hqueued | hwalked
    · exact hsome
    · rw [hempty] at hqueued
      cases hqueued
    · rw [hnone] at hwalked
      cases hwalked
  have hreached : ∀ b, Reach allowed (fun a => (visit a).Follows) roots b →
      (walk.status b).isSome = true := by
    intro b hb
    induction hb with
    | root hroot hallowed => exact hknown _ (h.roots _ hroot hallowed)
    | step ha hstep hallowed ih => exact hknown _ (h.closed _ _ ih hstep hallowed)
  constructor
  · intro hstatus
    obtain ⟨hr, hreach⟩ := h.result a r hstatus
    exact ⟨hreach, hr⟩
  · rintro ⟨hreach, rfl⟩
    obtain ⟨r, hr⟩ := Option.isSome_iff_exists.mp (hreached a hreach)
    rw [hr, (h.result a r hr).1]

/-! ## §4. Enough fuel. -/

/-- The nodes of a list that are not visited yet. -/
def unvisited (walk : Walk α σ) (nodes : List α) : Nat :=
  nodes.countP (fun a => (walk.status a).isNone)

/-- Visiting a node of the list leaves fewer unvisited. -/
theorem unvisited_visited {walk : Walk α σ} {nodes : List α} {a : α} (ha : a ∈ nodes)
    (hnew : walk.status a = none) :
    (walk.visited allowed visit a).unvisited nodes < walk.unvisited nodes := by
  unfold unvisited
  induction nodes with
  | nil => cases ha
  | cons b rest ih =>
    have hle : rest.countP (fun b => ((walk.visited allowed visit a).status b).isNone)
        ≤ rest.countP (fun b => (walk.status b).isNone) := by
      refine List.countP_mono_left fun c _ hc => ?_
      rw [visited_status] at hc
      split at hc
      · cases hc
      · exact hc
    rw [List.countP_cons, List.countP_cons]
    by_cases hba : b = a
    · subst hba
      rw [visited_status, if_pos rfl, hnew]
      simp only [Option.isNone_some, Option.isNone_none, Bool.false_eq_true, if_false, if_true]
      omega
    · have hrest := ih ((List.mem_cons.mp ha).resolve_left (fun h => hba h.symm))
      rw [visited_status, if_neg hba]
      omega

/-- Turns still to take, when every visit queues at most one node. -/
def measure (nodes : List α) (walk : Walk α σ) : Nat :=
  3 * walk.unvisited nodes + 2 * walk.worklist.length + walk.walking.toList.length

variable (allowed visit) in
/-- One turn of an unfinished walk lowers the measure. -/
theorem measure_step {nodes : List α} (hnodes : ∀ a, allowed a = true → a ∈ nodes)
    (hqueued : ∀ a, (visit a).queued.length ≤ 1) {walk : Walk α σ} (hdone : walk.isDone = false) :
    (walk.step allowed visit).measure nodes < walk.measure nodes := by
  unfold step
  split
  · next a hwalking =>
    split
    · unfold measure unvisited
      rw [hwalking]
      simp
    · next hskip =>
      simp only [Bool.or_eq_true, Bool.not_eq_true', not_or, Bool.not_eq_false,
        Option.isSome_iff_ne_none, ne_eq, not_not] at hskip
      have hless : (walk.visited allowed visit a).unvisited nodes < walk.unvisited nodes :=
        unvisited_visited (hnodes a hskip.1) hskip.2
      have hlist : (walk.visited allowed visit a).worklist.length ≤ 1 + walk.worklist.length := by
        show (((visit a).queued.filter allowed).reverse ++ walk.worklist).length ≤ _
        rw [List.length_append, List.length_reverse]
        have := List.length_filter_le allowed (visit a).queued
        have := hqueued a
        omega
      have hnext : (walk.visited allowed visit a).walking.toList.length ≤ 1 := by
        cases (walk.visited allowed visit a).walking <;> simp
      unfold measure
      rw [hwalking]
      simp only [Option.toList_some, List.length_singleton]
      omega
  · next hwalking =>
    split
    · next hqueue =>
      rw [isDone, hqueue, hwalking] at hdone
      cases hdone
    · next a rest hqueue =>
      unfold measure unvisited
      rw [hqueue, hwalking]
      simp only [List.length_cons, Option.toList_some, Option.toList_none, List.length_nil]
      omega

/-- **With finitely many nodes the walk ends.** -/
theorem run_done {nodes : List α} (hnodes : ∀ a, allowed a = true → a ∈ nodes)
    (hqueued : ∀ a, (visit a).queued.length ≤ 1) {fuel : Nat} {walk : Walk α σ}
    (hfuel : walk.measure nodes ≤ fuel) : (walk.run allowed visit fuel).isDone = true := by
  induction fuel generalizing walk with
  | zero =>
    have hzero : walk.worklist.length = 0 ∧ walk.walking.toList.length = 0 := by
      unfold measure at hfuel
      omega
    show (walk.worklist.isEmpty && walk.walking.isNone) = true
    rw [List.eq_nil_of_length_eq_zero hzero.1]
    cases hwalking : walk.walking with
    | none => rfl
    | some a =>
      rw [hwalking] at hzero
      simp at hzero
  | succ fuel ih =>
    unfold run
    split
    · next hdone => exact hdone
    · next hdone =>
      have hless := measure_step allowed visit hnodes hqueued (Bool.eq_false_iff.mpr hdone)
      exact ih (by omega)

omit [DecidableEq α] in
/-- The measure of a walk that has not begun. -/
theorem measure_start (nodes roots : List α) :
    (start allowed roots : Walk α σ).measure nodes ≤ 3 * nodes.length + 2 * roots.length := by
  have hnodes : (start allowed roots : Walk α σ).unvisited nodes ≤ nodes.length :=
    List.countP_le_length
  have hroots : (start allowed roots : Walk α σ).worklist.length ≤ roots.length := by
    show ((roots.filter allowed).reverse).length ≤ roots.length
    rw [List.length_reverse]
    exact List.length_filter_le allowed roots
  unfold measure
  have hwalking : (start allowed roots : Walk α σ).walking.toList.length = 0 := rfl
  omega

/-- **What a whole walk visits**: exactly the nodes the roots reach, each with
its own result. -/
theorem run_status {nodes : List α} (hnodes : ∀ a, allowed a = true → a ∈ nodes)
    (hqueued : ∀ a, (visit a).queued.length ≤ 1) (roots : List α) {fuel : Nat}
    (hfuel : 3 * nodes.length + 2 * roots.length ≤ fuel) (a : α) (r : σ) :
    ((start allowed roots).run allowed visit fuel).status a = some r ↔
      Reach allowed (fun a => (visit a).Follows) roots a ∧ r = (visit a).result :=
  ((start_inv roots).run fuel).status_iff
    (run_done hnodes hqueued (Nat.le_trans (measure_start nodes roots) hfuel)) a r

end Walk

end Armv8Encode.Lib

/-
  Armv8Encode.Rewrite.ElfEditor.InitOrder — what initialisers are meant to do.

  A loader runs the slots of `.init_array` in order.  A body installed first
  runs before the chain of the first slot, one installed last before the
  chain of the last slot, and an appended one gets a slot of its own.  The
  file states the order this gives over a whole run: everything runs once,
  appended bodies run last, and the first bodies run first as long as no
  later call chains onto the same slot.
-/
import Armv8Encode.Rewrite.ElfEditor.State

namespace Armv8Encode.Elf

/-! ## §1. Chains of routines. -/

/-- Per original slot, the routines it runs, and the bodies with slots of their own. -/
structure InitOrder (α : Type) where
  slots : List (List α)
  appended : List α

namespace InitOrder

variable {α : Type}

/-- Every slot runs its constructor. -/
def start (ctors : List α) : InitOrder α := ⟨ctors.map fun c => [c], []⟩

def install (o : InitOrder α) (b : InitialiserPosition × α) : InitOrder α :=
  match b.1 with
  | .first => { o with slots := o.slots.modify 0 (b.2 :: ·) }
  | .last => { o with slots := o.slots.modify (o.slots.length - 1) (b.2 :: ·) }
  | .append => { o with appended := o.appended ++ [b.2] }

def installAll (o : InitOrder α) (bs : List (InitialiserPosition × α)) : InitOrder α :=
  bs.foldl install o

/-- What the loader runs, in order. -/
def trace (o : InitOrder α) : List α := o.slots.flatten ++ o.appended

end InitOrder

/-! ## §2. The intended order. -/

section Order

variable {α : Type}

/-- Bodies installed at a position, in call order. -/
def bodiesAt (p : InitialiserPosition) (bs : List (InitialiserPosition × α)) : List α :=
  (bs.filter fun b => b.1 = p).map Prod.snd

/-- Bodies that chain onto a slot there was. -/
def hijacks (bs : List (InitialiserPosition × α)) : List α :=
  (bs.filter fun b => b.1 ≠ .append).map Prod.snd

/-- Everything runs once; first bodies before everything, the latest first;
appended bodies after everything, in call order. -/
structure RunsInOrder (ctors : List α) (bs : List (InitialiserPosition × α))
    (trace : List α) : Prop where
  once : trace.Perm (ctors ++ bs.map Prod.snd)
  first : ∃ rest, trace = (bodiesAt .first bs).reverse ++ rest
  append : ∃ front, trace = front ++ bodiesAt .append bs
    ∧ front.Perm (ctors ++ hijacks bs)

/-- No call installs a last body over a first one: with one slot only, both
chain onto it. -/
def LastKeepsFirst (slots : Nat) (ps : List InitialiserPosition) : Prop :=
  ∀ before after, ps = before ++ .last :: after → .first ∈ before → 2 ≤ slots

theorem LastKeepsFirst.of_append {slots : Nat} {ps qs : List InitialiserPosition}
    (h : LastKeepsFirst slots (ps ++ qs)) : LastKeepsFirst slots ps := by
  intro before after hps hmem
  apply h before (after ++ qs) ?_ hmem
  rw [hps, List.append_assoc, List.cons_append]

end Order

/-! ## §3. Installing keeps to it. -/

namespace InitOrder

variable {α : Type} {ctors : List α} {bs : List (InitialiserPosition × α)}

theorem installAll_snoc (o : InitOrder α) (bs : List (InitialiserPosition × α))
    (b : InitialiserPosition × α) :
    o.installAll (bs ++ [b]) = (o.installAll bs).install b := by
  unfold installAll
  rw [List.foldl_append]
  rfl

theorem install_slots_length (o : InitOrder α) (b : InitialiserPosition × α) :
    (o.install b).slots.length = o.slots.length := by
  unfold install
  split
  · exact List.length_modify ..
  · exact List.length_modify ..
  · rfl

theorem installAll_slots_length (o : InitOrder α) (bs : List (InitialiserPosition × α)) :
    (o.installAll bs).slots.length = o.slots.length := by
  induction bs using List.reverseRecOn with
  | nil => rfl
  | append_singleton bs b ih => rw [installAll_snoc, install_slots_length, ih]

/-- Chaining onto a slot adds one routine. -/
theorem flatten_modify_perm {slots : List (List α)} {i : Nat} (h : i < slots.length) (b : α) :
    (slots.modify i (b :: ·)).flatten.Perm (b :: slots.flatten) := by
  induction slots generalizing i with
  | nil => exact absurd h (Nat.not_lt_zero i)
  | cons s slots ih =>
    cases i with
    | zero => exact List.Perm.refl _
    | succ i =>
      rw [List.modify_succ_cons, List.flatten_cons, List.flatten_cons]
      have ih' := ih (Nat.lt_of_succ_lt_succ h)
      exact (ih'.append_left s).trans List.perm_middle

theorem installAll_appended (o : InitOrder α) (bs : List (InitialiserPosition × α)) :
    (o.installAll bs).appended = o.appended ++ bodiesAt .append bs := by
  induction bs using List.reverseRecOn with
  | nil => exact (List.append_nil _).symm
  | append_singleton bs b ih =>
    obtain ⟨p, b⟩ := b
    rw [installAll_snoc]
    unfold install bodiesAt
    rw [List.filter_append, List.map_append, ← List.append_assoc]
    cases p with
    | first => simpa [bodiesAt] using ih
    | last => simpa [bodiesAt] using ih
    | append =>
      show (o.installAll bs).appended ++ [b] = _
      rw [ih]
      rfl

/-- The slots run the constructors and the hijacking bodies. -/
theorem installAll_slots_perm (hslots : ∀ b ∈ bs, b.1 ≠ .append → ctors ≠ []) :
    ((start ctors).installAll bs).slots.flatten.Perm (ctors ++ hijacks bs) := by
  induction bs using List.reverseRecOn with
  | nil =>
    show (ctors.map fun c => [c]).flatten.Perm (ctors ++ [])
    rw [List.append_nil, ← List.flatMap_def, List.flatMap_singleton']
  | append_singleton bs b ih =>
    obtain ⟨p, b⟩ := b
    have ih' := ih fun q hq => hslots q (List.mem_append_left _ hq)
    have hlen : ((start ctors).installAll bs).slots.length = ctors.length := by
      rw [installAll_slots_length]
      exact List.length_map _
    have hchained : ∀ {i : Nat}, p ≠ .append → i < ctors.length →
        (((start ctors).installAll bs).slots.modify i (b :: ·)).flatten.Perm
          (ctors ++ hijacks (bs ++ [(p, b)])) := by
      intro i hp hi
      have hmore : hijacks (bs ++ [(p, b)]) = hijacks bs ++ [b] := by
        simp [hijacks, hp]
      rw [hmore, ← List.append_assoc]
      refine (flatten_modify_perm (by omega) b).trans ?_
      exact (ih'.cons b).trans (List.perm_append_singleton b _).symm
    have hpos : p ≠ .append → 0 < ctors.length := by
      intro hp
      exact List.length_pos_of_ne_nil (hslots (p, b) (by simp) hp)
    rw [installAll_snoc]
    unfold install
    cases p with
    | first => exact hchained (by decide) (hpos (by decide))
    | last =>
      dsimp only
      rw [hlen]
      have hpos' := hpos (by decide)
      exact hchained (by decide) (by omega)
    | append =>
      have hsame : hijacks (bs ++ [(.append, b)]) = hijacks bs := by
        simp [hijacks]
      rw [hsame]
      exact ih'

theorem bodiesAt_append_singleton (p q : InitialiserPosition)
    (bs : List (InitialiserPosition × α)) (b : α) :
    bodiesAt p (bs ++ [(q, b)]) = bodiesAt p bs ++ (if q = p then [b] else []) := by
  unfold bodiesAt
  rw [List.filter_append, List.map_append]
  by_cases hq : q = p
  · simp [hq]
  · simp [hq]

theorem bodiesAt_eq_nil {p : InitialiserPosition} (h : p ∉ bs.map Prod.fst) :
    bodiesAt p bs = [] := by
  unfold bodiesAt
  rw [List.map_eq_nil_iff, List.filter_eq_nil_iff]
  intro b hb heq
  rw [decide_eq_true_eq] at heq
  exact h (heq ▸ List.mem_map_of_mem hb)

/-- The first slot begins with the first bodies. -/
theorem installAll_first (hne : ctors ≠ [])
    (hkeeps : LastKeepsFirst ctors.length (bs.map Prod.fst)) :
    ∃ chain slots, ((start ctors).installAll bs).slots
      = ((bodiesAt .first bs).reverse ++ chain) :: slots := by
  induction bs using List.reverseRecOn with
  | nil =>
    cases ctors with
    | nil => exact absurd rfl hne
    | cons c ctors => exact ⟨[c], ctors.map fun c => [c], rfl⟩
  | append_singleton bs b ih =>
    obtain ⟨p, b⟩ := b
    rw [List.map_append] at hkeeps
    obtain ⟨chain, slots, hslots⟩ := ih hkeeps.of_append
    have hlen : ((start ctors).installAll bs).slots.length = ctors.length := by
      rw [installAll_slots_length]
      exact List.length_map _
    rw [installAll_snoc, bodiesAt_append_singleton]
    unfold install
    cases p with
    | first =>
      refine ⟨chain, slots, ?_⟩
      rw [hslots]
      simp
    | last =>
      dsimp only
      rw [hlen]
      rw [hslots, List.length_cons] at hlen
      cases slots with
      | nil =>
        -- the only slot: no first body is on it yet
        have hnone : .first ∉ bs.map Prod.fst := by
          intro hmem
          have htwo := hkeeps (bs.map Prod.fst) [] rfl hmem
          rw [← hlen] at htwo
          simp at htwo
        rw [bodiesAt_eq_nil hnone] at hslots ⊢
        refine ⟨b :: chain, [], ?_⟩
        rw [hslots, ← hlen]
        rfl
      | cons s slots =>
        refine ⟨chain, (s :: slots).modify slots.length (b :: ·), ?_⟩
        rw [hslots, ← hlen, List.length_cons]
        simp
    | append =>
      refine ⟨chain, slots, ?_⟩
      rw [hslots]
      simp

/-- **The order over a whole run.** -/
theorem installAll_runsInOrder (hslots : ∀ b ∈ bs, b.1 ≠ .append → ctors ≠ [])
    (hkeeps : LastKeepsFirst ctors.length (bs.map Prod.fst)) :
    RunsInOrder ctors bs ((start ctors).installAll bs).trace := by
  have hperm := installAll_slots_perm hslots
  have happended : ((start ctors).installAll bs).appended = bodiesAt .append bs :=
    installAll_appended (start ctors) bs
  unfold trace
  rw [happended]
  constructor
  case once =>
    have hsplit : (hijacks bs ++ bodiesAt .append bs).Perm (bs.map Prod.snd) := by
      unfold hijacks bodiesAt
      rw [← List.map_append]
      apply List.Perm.map
      have hnot : (fun b : InitialiserPosition × α => decide (b.1 = .append))
          = fun b => !decide (b.1 ≠ .append) := by
        funext b
        simp
      rw [hnot]
      exact List.filter_append_perm _ bs
    refine (hperm.append_right _).trans ?_
    rw [List.append_assoc]
    exact hsplit.append_left ctors
  case first =>
    by_cases hne : ctors = []
    · have hnone : .first ∉ bs.map Prod.fst := by
        intro hmem
        obtain ⟨b, hb, hfirst⟩ := List.mem_map.mp hmem
        exact hslots b hb (by rw [hfirst]; decide) hne
      rw [bodiesAt_eq_nil hnone]
      exact ⟨_, rfl⟩
    · obtain ⟨chain, slots, heq⟩ := installAll_first hne hkeeps
      rw [heq, List.flatten_cons, List.append_assoc, List.append_assoc]
      exact ⟨_, rfl⟩
  case append => exact ⟨_, rfl, hperm⟩

/-- With one slot, every hijack chains onto it. -/
theorem installAll_single (c : α) (bs : List (InitialiserPosition × α)) :
    ((start [c]).installAll bs).slots = [(hijacks bs).reverse ++ [c]] := by
  induction bs using List.reverseRecOn with
  | nil => rfl
  | append_singleton bs b ih =>
    obtain ⟨p, b⟩ := b
    rw [installAll_snoc]
    unfold install hijacks
    unfold hijacks at ih
    cases p <;> simp [ih]

theorem mem_of_mem_bodiesAt {p : InitialiserPosition} {b : α} (h : b ∈ bodiesAt p bs) :
    (p, b) ∈ bs := by
  unfold bodiesAt at h
  obtain ⟨⟨q, _⟩, hq, rfl⟩ := List.mem_map.mp h
  obtain ⟨hmem, hpos⟩ := List.mem_filter.mp hq
  have hqp : q = p := by simpa using hpos
  rw [← hqp]
  exact hmem

/-- A last body over a first one shows: the slot runs it before. -/
theorem lastKeepsFirst_of_suffix {slots : Nat} (hnodup : (bs.map Prod.snd).Nodup)
    (hsuffix : bodiesAt .first bs <:+ hijacks bs) :
    LastKeepsFirst slots (bs.map Prod.fst) := by
  intro before after hps hmem
  exfalso
  obtain ⟨bs₁, rest, rfl, hbefore, hrest⟩ := List.map_eq_append_iff.mp hps
  obtain ⟨⟨p, l⟩, bs₂, rfl, hlast, _⟩ := List.map_eq_cons_iff.mp hrest
  obtain rfl : p = .last := hlast
  rw [← hbefore] at hmem
  obtain ⟨⟨q, f⟩, hf, hfirst⟩ := List.mem_map.mp hmem
  obtain rfl : q = .first := hfirst
  rw [List.map_append, List.map_cons, List.nodup_append] at hnodup
  obtain ⟨_, hnodup₂, hdisjoint⟩ := hnodup
  have hfirstBody : f ∈ bodiesAt .first (bs₁ ++ (.last, l) :: bs₂) := by
    unfold bodiesAt
    apply List.mem_map.mpr
    exact ⟨(.first, f), List.mem_filter.mpr ⟨List.mem_append_left _ hf, rfl⟩, rfl⟩
  have hlastSuffix : l :: hijacks bs₂ <:+ hijacks (bs₁ ++ (.last, l) :: bs₂) := by
    refine ⟨hijacks bs₁, ?_⟩
    unfold hijacks
    simp
  have hnotIn : f ∉ l :: hijacks bs₂ := by
    intro hin
    obtain rfl | hin := List.mem_cons.mp hin
    · exact hdisjoint f (List.mem_map_of_mem hf) f List.mem_cons_self rfl
    · unfold hijacks at hin
      obtain ⟨b, hb, rfl⟩ := List.mem_map.mp hin
      exact hdisjoint _ (List.mem_map_of_mem hf) _
        (List.mem_cons_of_mem _ (List.mem_map_of_mem (List.mem_filter.mp hb).1)) rfl
  obtain hle | hle := List.suffix_or_suffix_of_suffix hsuffix hlastSuffix
  · exact hnotIn (hle.subset hfirstBody)
  · have hl := mem_of_mem_bodiesAt (hle.subset List.mem_cons_self)
    obtain hl | hl := List.mem_append.mp hl
    · exact hdisjoint l (List.mem_map_of_mem hl) l List.mem_cons_self rfl
    · obtain hl | hl := List.mem_cons.mp hl
      · cases hl
      · exact (List.nodup_cons.mp hnodup₂).1 (List.mem_map.mpr ⟨_, hl, rfl⟩)

/-- Only runs that keep the first bodies in front have the intended order. -/
theorem lastKeepsFirst_of_runsInOrder (hslots : ∀ b ∈ bs, b.1 ≠ .append → ctors ≠ [])
    (hnodup : (bs.map Prod.snd).Nodup)
    (h : RunsInOrder ctors bs ((start ctors).installAll bs).trace) :
    LastKeepsFirst ctors.length (bs.map Prod.fst) := by
  match hctors : ctors with
  | [] =>
    intro before after hps _
    have hmem : InitialiserPosition.last ∈ bs.map Prod.fst := by
      rw [hps]
      simp
    obtain ⟨b, hb, hlast⟩ := List.mem_map.mp hmem
    exact absurd rfl (hslots b hb (by rw [hlast]; decide))
  | [c] =>
    obtain ⟨rest, hrest⟩ := h.first
    apply lastKeepsFirst_of_suffix hnodup
    unfold trace at hrest
    rw [installAll_single, List.flatten_singleton, List.append_assoc] at hrest
    have hfirsts : (bodiesAt .first bs).length ≤ (hijacks bs).length := by
      unfold bodiesAt hijacks
      rw [List.length_map, List.length_map]
      apply List.Sublist.length_le
      apply List.monotone_filter_right
      intro b hb
      have hpos : b.1 = .first := by simpa using hb
      rw [hpos]
      rfl
    rw [← List.reverse_prefix]
    apply List.prefix_of_prefix_length_le ⟨rest, hrest.symm⟩ (List.prefix_append _ _)
    rw [List.length_reverse, List.length_reverse]
    exact hfirsts
  | c :: d :: ctors =>
    intro _ _ _ _
    rw [List.length_cons, List.length_cons]
    omega

theorem runsInOrder_iff (hslots : ∀ b ∈ bs, b.1 ≠ .append → ctors ≠ [])
    (hnodup : (bs.map Prod.snd).Nodup) :
    RunsInOrder ctors bs ((start ctors).installAll bs).trace
      ↔ LastKeepsFirst ctors.length (bs.map Prod.fst) :=
  ⟨lastKeepsFirst_of_runsInOrder hslots hnodup, installAll_runsInOrder hslots⟩

end InitOrder

end Armv8Encode.Elf

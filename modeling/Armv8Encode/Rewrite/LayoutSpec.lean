/-
  Armv8Encode.Rewrite.LayoutSpec — what a successful layout guarantees.

  A layout that is returned comes from a round in which nothing grew, so its
  ops stand exactly where the last address assignment put them.  Two facts
  carry every later argument: the ops tile the address range from the base
  (`LaidOut.tiled`), and every op reserves its source size, or the widened
  size when it was widened (`LaidOut.reserved`).
-/
import Armv8Encode.Lib.Except
import Armv8Encode.Lib.Lists
import Armv8Encode.Lib.Tiling
import Armv8Encode.Rewrite.Layout

namespace Armv8Encode

open Lib

variable {Mn Rg Op E Mk Di : Type}

/-! ## §1. Address assignment. -/

/-- Address and size of a laid-out op. -/
def InstructionLayout.tile (l : InstructionLayout) : U64 × U64 := (l.address, l.size)

theorem assignBlock_tiled (current : U64) (ls : List InstructionLayout) :
    Tiled current ((assignBlock current ls).1.map InstructionLayout.tile)
      (assignBlock current ls).2 := by
  induction ls generalizing current with
  | nil => exact .nil current
  | cons l ls ih => exact .cons (ih (current + l.size))

theorem assignBlocks_tiled (current : U64) (layouts : List (List InstructionLayout)) :
    Tiled current ((assignBlocks current layouts).1.flatten.map InstructionLayout.tile)
      (assignBlocks current layouts).2.2 := by
  induction layouts generalizing current with
  | nil => exact .nil current
  | cons block rest ih =>
    rw [assignBlocks, List.flatten_cons, List.map_append]
    exact (assignBlock_tiled current block).append (ih _)

/-- The address after a block is its size further on. -/
theorem assignBlock_stop (current : U64) (ls : List InstructionLayout) :
    (assignBlock current ls).2 = current + (ls.map InstructionLayout.size).sum := by
  induction ls generalizing current with
  | nil => simp [assignBlock]
  | cons l ls ih => simp [assignBlock, ih, BitVec.add_assoc]

/-- Each block address is where the tiles of that block start. -/
theorem assignBlocks_blockAddress (current : U64) (layouts : List (List InstructionLayout))
    (b : Nat) (hb : b < layouts.length) :
    (assignBlocks current layouts).2.1[b]?
      = some (current + ((layouts.take b).flatten.map InstructionLayout.size).sum) := by
  induction layouts generalizing current b with
  | nil => exact absurd hb (by simp)
  | cons block rest ih =>
    cases b with
    | zero => simp [assignBlocks]
    | succ b =>
      have hb' : b < rest.length := by simpa using hb
      simp only [assignBlocks, List.getElem?_cons_succ, ih _ b hb', List.take_succ_cons,
        List.flatten_cons, List.map_append, List.sum_append, assignBlock_stop, BitVec.add_assoc]

/-! ## §2. What an op reserves. -/

/-- Strategy and size agree: source size when normal, the widened size for an
instruction whose mnemonic has an inverse otherwise. -/
def Reserves (I : Isa Mn Rg Op E Mk Di) (op : RewriteOp Mn Rg Op Mk) (l : InstructionLayout) :
    Prop :=
  match l.strategy with
  | .normal => l.size = I.sourceByteSize op
  | .invertedConditional => l.size = I.widenedConditionalSize ∧
      ∃ i, op = .instruction i ∧ (I.invertConditionalBranch i.mnemonic).isSome

/-- The layouts have the shape of the plan and every op reserves its size. -/
def ReservesAll (I : Isa Mn Rg Op E Mk Di) (blocks : List (RewriteBlock Mn Rg Op Mk))
    (layouts : List (List InstructionLayout)) : Prop :=
  List.Forall₂ (fun block ls => List.Forall₂ (Reserves I) block.ops ls) blocks layouts

variable {I : Isa Mn Rg Op E Mk Di}

theorem initialLayouts_reserves (plan : RewritePlan Mn Rg Op Mk) :
    ReservesAll I plan.blocks (initialLayouts I plan) := by
  unfold ReservesAll initialLayouts
  rw [List.forall₂_map_right_iff]
  apply List.forall₂_same.mpr
  intro block _
  rw [List.forall₂_map_right_iff]
  exact List.forall₂_same.mpr (fun op _ => rfl)

theorem assignBlock_reserves {ops : List (RewriteOp Mn Rg Op Mk)} {ls : List InstructionLayout}
    (h : List.Forall₂ (Reserves I) ops ls) (current : U64) :
    List.Forall₂ (Reserves I) ops (assignBlock current ls).1 := by
  induction h generalizing current with
  | nil => exact .nil
  | cons hop _ ih => exact .cons hop (ih _)

theorem assignBlocks_reserves {blocks : List (RewriteBlock Mn Rg Op Mk)}
    {layouts : List (List InstructionLayout)} (h : ReservesAll I blocks layouts) (current : U64) :
    ReservesAll I blocks (assignBlocks current layouts).1 := by
  unfold ReservesAll at h
  induction h generalizing current with
  | nil => exact .nil
  | cons hblock _ ih => exact .cons (assignBlock_reserves hblock current) (ih _)

/-! ## §3. The out-of-range pass. -/

variable {blockAddresses : List U64} {container : Option Container} {sizeProbe : Bool}

/-- What the pass does to one op: nothing, or it widens a normal op. -/
theorem widenOp_cases {op : RewriteOp Mn Rg Op Mk} {l l' : InstructionLayout} {grew : Bool}
    (h : widenOp I blockAddresses container sizeProbe op l = .ok (l', grew)) :
    (l' = l ∧ grew = false) ∨
      (grew = true ∧ l.strategy = .normal ∧
        l' = { l with strategy := .invertedConditional, size := I.widenedConditionalSize } ∧
        ∃ i, op = .instruction i ∧ (I.invertConditionalBranch i.mnemonic).isSome) := by
  unfold widenOp at h
  split at h
  · exact .inl ⟨congrArg Prod.fst (Except.ok.inj h).symm, congrArg Prod.snd (Except.ok.inj h).symm⟩
  · exact .inl ⟨congrArg Prod.fst (Except.ok.inj h).symm, congrArg Prod.snd (Except.ok.inj h).symm⟩
  · next i =>
    split at h
    · cases h; exact .inl ⟨rfl, rfl⟩
    · split at h
      · cases h; exact .inl ⟨rfl, rfl⟩
      · cases h
      · split at h
        · cases h; exact .inl ⟨rfl, rfl⟩
        · dsimp only at h
          split at h
          · cases h; exact .inl ⟨rfl, rfl⟩
          · split at h
            · next hs =>
              split at h
              · next hinv =>
                cases h
                exact .inr ⟨rfl, hs, rfl, i, rfl, hinv⟩
              · split at h
                · cases h; exact .inl ⟨rfl, rfl⟩
                · cases h
            · split at h
              · cases h; exact .inl ⟨rfl, rfl⟩
              · cases h

theorem widenOp_reserves {op : RewriteOp Mn Rg Op Mk} {l l' : InstructionLayout} {grew : Bool}
    (h : widenOp I blockAddresses container sizeProbe op l = .ok (l', grew))
    (hl : Reserves I op l) : Reserves I op l' := by
  rcases widenOp_cases h with ⟨rfl, -⟩ | ⟨-, -, rfl, hinv⟩
  · exact hl
  · exact ⟨rfl, hinv⟩

/-- The pass over a block keeps its shape and, when nothing grew, its layouts. -/
theorem widenBlock_spec {ops : List (RewriteOp Mn Rg Op Mk)} {ls ls' : List InstructionLayout}
    {grew : Bool} (hls : List.Forall₂ (Reserves I) ops ls)
    (h : widenBlock I blockAddresses container sizeProbe ops ls = .ok (ls', grew)) :
    List.Forall₂ (Reserves I) ops ls' ∧ (grew = false → ls' = ls) := by
  induction hls generalizing ls' grew with
  | nil =>
    cases h
    exact ⟨.nil, fun _ => rfl⟩
  | @cons op l ops ls hop hrest ih =>
    rw [widenBlock] at h
    cases hhead : widenOp I blockAddresses container sizeProbe op l with
    | error e => rw [hhead] at h; cases h
    | ok head =>
      rw [hhead] at h
      cases htail : widenBlock I blockAddresses container sizeProbe ops ls with
      | error e => simp only [htail, bind, Except.bind] at h; cases h
      | ok tail =>
        simp only [htail, bind, Except.bind, pure, Except.pure, Except.ok.injEq,
          Prod.mk.injEq] at h
        obtain ⟨rfl, rfl⟩ := h
        obtain ⟨hall, hsame⟩ := ih htail
        refine ⟨.cons (widenOp_reserves hhead hop) hall, ?_⟩
        intro hgrew
        rw [Bool.or_eq_false_iff] at hgrew
        rcases widenOp_cases hhead with ⟨hl, -⟩ | ⟨ht, -⟩
        · rw [hl, hsame hgrew.2]
        · rw [ht] at hgrew
          cases hgrew.1

theorem widenBlocks_spec {blocks : List (RewriteBlock Mn Rg Op Mk)}
    {layouts layouts' : List (List InstructionLayout)} {grew : Bool}
    (hls : ReservesAll I blocks layouts)
    (h : widenBlocks I blockAddresses container sizeProbe blocks layouts = .ok (layouts', grew)) :
    ReservesAll I blocks layouts' ∧ (grew = false → layouts' = layouts) := by
  unfold ReservesAll at hls ⊢
  induction hls generalizing layouts' grew with
  | nil =>
    cases h
    exact ⟨.nil, fun _ => rfl⟩
  | @cons block ls blocks layouts hblock hrest ih =>
    rw [widenBlocks] at h
    cases hhead : widenBlock I blockAddresses container sizeProbe block.ops ls with
    | error e => rw [hhead] at h; cases h
    | ok head =>
      rw [hhead] at h
      cases htail : widenBlocks I blockAddresses container sizeProbe blocks layouts with
      | error e => simp only [htail, bind, Except.bind] at h; cases h
      | ok tail =>
        simp only [htail, bind, Except.bind, pure, Except.pure, Except.ok.injEq,
          Prod.mk.injEq] at h
        obtain ⟨rfl, rfl⟩ := h
        obtain ⟨hhd, hhdSame⟩ := widenBlock_spec hblock hhead
        obtain ⟨htl, htlSame⟩ := ih htail
        refine ⟨.cons hhd htl, ?_⟩
        intro hgrew
        rw [Bool.or_eq_false_iff] at hgrew
        rw [hhdSame hgrew.1, htlSame hgrew.2]

/-- When nothing grew in a block, nothing grew at any of its ops. -/
theorem widenBlock_at {ops : List (RewriteOp Mn Rg Op Mk)} {ls ls' : List InstructionLayout}
    (h : widenBlock I blockAddresses container sizeProbe ops ls = .ok (ls', false)) {i : Nat}
    {op : RewriteOp Mn Rg Op Mk} {l : InstructionLayout} (hop : ops[i]? = some op)
    (hl : ls[i]? = some l) :
    ∃ l', widenOp I blockAddresses container sizeProbe op l = .ok (l', false) := by
  induction ops generalizing ls ls' i with
  | nil => cases hop
  | cons first ops ih =>
    cases ls with
    | nil => cases hl
    | cons l₁ ls =>
      rw [widenBlock] at h
      have ⟨head, hhead, h⟩ := bind_eq_ok.mp h
      have ⟨tail, htail, h⟩ := bind_eq_ok.mp h
      have hgrew := (Prod.mk.inj (Except.ok.inj h)).2
      have ⟨hheadGrew, htailGrew⟩ := Bool.or_eq_false_iff.mp hgrew
      cases i with
      | zero =>
        cases hop
        cases hl
        exact ⟨head.1, by rw [hhead, ← hheadGrew]⟩
      | succ i =>
        have htail' : widenBlock I blockAddresses container sizeProbe ops ls
            = .ok (tail.1, false) := by
          rw [htail, ← htailGrew]
        exact ih htail' hop hl

theorem widenBlocks_at {blocks : List (RewriteBlock Mn Rg Op Mk)}
    {layouts layouts' : List (List InstructionLayout)}
    (h : widenBlocks I blockAddresses container sizeProbe blocks layouts = .ok (layouts', false))
    {b i : Nat} {block : RewriteBlock Mn Rg Op Mk} {ls : List InstructionLayout}
    {op : RewriteOp Mn Rg Op Mk} {l : InstructionLayout} (hblock : blocks[b]? = some block)
    (hls : layouts[b]? = some ls) (hop : block.ops[i]? = some op) (hl : ls[i]? = some l) :
    ∃ l', widenOp I blockAddresses container sizeProbe op l = .ok (l', false) := by
  induction blocks generalizing layouts layouts' b with
  | nil => cases hblock
  | cons first blocks ih =>
    cases layouts with
    | nil => cases hls
    | cons ls₁ layouts =>
      rw [widenBlocks] at h
      have ⟨head, hhead, h⟩ := bind_eq_ok.mp h
      have ⟨tail, htail, h⟩ := bind_eq_ok.mp h
      have hgrew := (Prod.mk.inj (Except.ok.inj h)).2
      have ⟨hheadGrew, htailGrew⟩ := Bool.or_eq_false_iff.mp hgrew
      cases b with
      | zero =>
        cases hblock
        cases hls
        have hhead' : widenBlock I blockAddresses container sizeProbe block.ops ls
            = .ok (head.1, false) := by
          rw [hhead, ← hheadGrew]
        exact widenBlock_at hhead' hop hl
      | succ b =>
        have htail' : widenBlocks I blockAddresses container sizeProbe blocks layouts
            = .ok (tail.1, false) := by
          rw [htail, ← htailGrew]
        exact ih htail' hblock hls

/-- A branch that is left as it is has its target in range. -/
theorem inRange_of_widenOp {i : RewriteInstruction Mn Op} {l l' : InstructionLayout} {t : Target}
    {target : U64} {range : Int} (htarget : pcRelativeBranchTarget i = some t)
    (hresolve : resolveTarget t blockAddresses container = .ok target)
    (hrange : effectiveRange I i.mnemonic l.strategy = some range)
    (h : widenOp I blockAddresses container false (.instruction i) l = .ok (l', false)) :
    -range ≤ displacement target l.address ∧ displacement target l.address < range := by
  by_contra hout
  unfold widenOp at h
  simp only [htarget, hresolve, hrange] at h
  rw [if_neg hout] at h
  cases hstrategy : l.strategy with
  | normal =>
    rw [hstrategy] at h
    by_cases hinverse : (I.invertConditionalBranch i.mnemonic).isSome
    · simp [hinverse] at h
    · simp [hinverse] at h
  | invertedConditional =>
    rw [hstrategy] at h
    simp at h

/-! ## §4. The returned layout. -/

/-- What a returned layout satisfies. -/
structure LaidOut (I : Isa Mn Rg Op E Mk Di) (plan : RewritePlan Mn Rg Op Mk) (base : U64)
    (container : Option Container) (sizeProbe : Bool) (layout : Layout) : Prop where
  baseAddress : layout.baseAddress = base
  reserved : ReservesAll I plan.blocks layout.instructionLayouts
  /-- The ops tile the range from the base, and the total is its length. -/
  tiled : Tiled base (layout.instructionLayouts.flatten.map InstructionLayout.tile)
    (base + layout.totalSize)
  blockAddress : ∀ b, b < plan.blocks.length → layout.blockAddresses[b]? =
    some (base + ((layout.instructionLayouts.take b).flatten.map InstructionLayout.size).sum)
  /-- The last out-of-range pass found nothing to widen. -/
  settled : widenOutOfRange I plan layout.instructionLayouts layout.blockAddresses container
    sizeProbe = .ok (layout.instructionLayouts, false)

theorem assignBlocks_sizes (current : U64) (layouts : List (List InstructionLayout)) (b : Nat) :
    (((assignBlocks current layouts).1.take b).flatten.map InstructionLayout.size)
      = ((layouts.take b).flatten.map InstructionLayout.size) := by
  have hblock : ∀ (cur : U64) (ls : List InstructionLayout),
      (assignBlock cur ls).1.map InstructionLayout.size = ls.map InstructionLayout.size := by
    intro cur ls
    induction ls generalizing cur with
    | nil => rfl
    | cons l ls ih => simp only [assignBlock, List.map_cons, ih]
  induction layouts generalizing current b with
  | nil => simp [assignBlocks]
  | cons block rest ih =>
    cases b with
    | zero => simp
    | succ b => simp [assignBlocks, hblock, ih]

/-- A round that returns, returns a settled layout; the induction is on the
rounds left, and what it carries is that every op reserves its size. -/
theorem layOutRounds_laidOut {plan : RewritePlan Mn Rg Op Mk} {base : U64} {fuel : Nat}
    {layouts : List (List InstructionLayout)} {layout : Layout}
    (hls : ReservesAll I plan.blocks layouts)
    (h : layOutRounds I plan base container sizeProbe fuel layouts = .ok layout) :
    LaidOut I plan base container sizeProbe layout := by
  induction fuel generalizing layouts with
  | zero => cases h
  | succ fuel ih =>
    rw [layOutRounds] at h
    have hassigned := assignBlocks_reserves hls base
    cases hw : widenOutOfRange I plan (assignAddresses layouts base).1
        (assignAddresses layouts base).2.1 container sizeProbe with
    | error e => simp only [hw, bind, Except.bind] at h; cases h
    | ok widened =>
      obtain ⟨hres, hsame⟩ := widenBlocks_spec hassigned hw
      simp only [hw, bind, Except.bind] at h
      split at h
      · exact ih hres h
      · next hgrew =>
        have hfalse : widened.2 = false := by simpa using hgrew
        have heq : widened.1 = (assignBlocks base layouts).1 := hsame hfalse
        simp only [pure, Except.pure, Except.ok.injEq] at h
        subst h
        refine ⟨rfl, hres, ?_, ?_, ?_⟩
        · rw [heq]
          have ht := assignBlocks_tiled base layouts
          have hstop : base + (assignAddresses layouts base).2.2
              = (assignBlocks base layouts).2.2 := by
            simp only [assignAddresses]
            rw [BitVec.add_comm, BitVec.sub_add_cancel]
          rw [hstop]
          exact ht
        · intro b hb
          have hlen : b < layouts.length := by
            rw [← List.Forall₂.length_eq hls]
            exact hb
          rw [heq, assignBlocks_sizes]
          exact assignBlocks_blockAddress base layouts b hlen
        · have hw' : widened = ((assignBlocks base layouts).1, false) := Prod.ext heq hfalse
          rw [heq]
          rw [hw'] at hw
          exact hw

/-- **Spec of layout**: what is returned is laid out. -/
theorem layOut_laidOut {plan : RewritePlan Mn Rg Op Mk} {base : U64} {layout : Layout}
    (h : layOut I plan base container = .ok layout) :
    LaidOut I plan base container false layout :=
  layOutRounds_laidOut (initialLayouts_reserves plan) h

/-! ## §5. A layout that settles at once. -/

theorem assignBlock_append (current : U64) (xs ys : List InstructionLayout) :
    assignBlock current (xs ++ ys)
      = ((assignBlock current xs).1 ++ (assignBlock (assignBlock current xs).2 ys).1,
          (assignBlock (assignBlock current xs).2 ys).2) := by
  induction xs generalizing current with
  | nil => rfl
  | cons l xs ih => simp only [List.cons_append, assignBlock, ih]

/-- Assigning block by block places the ops as one list of ops. -/
theorem assignBlocks_flatten (current : U64) (layouts : List (List InstructionLayout)) :
    (assignBlocks current layouts).1.flatten = (assignBlock current layouts.flatten).1 := by
  induction layouts generalizing current with
  | nil => rfl
  | cons block rest ih =>
    rw [assignBlocks, List.flatten_cons, List.flatten_cons, assignBlock_append, ih]

/-- The out-of-range pass leaves the op as it is. -/
def Keeps (I : Isa Mn Rg Op E Mk Di) (blockAddresses : List U64) (container : Option Container)
    (sizeProbe : Bool) (op : RewriteOp Mn Rg Op Mk) (l : InstructionLayout) : Prop :=
  widenOp I blockAddresses container sizeProbe op l = .ok (l, false)

theorem widenBlock_keeps {ops : List (RewriteOp Mn Rg Op Mk)} {ls : List InstructionLayout}
    (h : List.Forall₂ (Keeps I blockAddresses container sizeProbe) ops ls) :
    widenBlock I blockAddresses container sizeProbe ops ls = .ok (ls, false) := by
  induction h with
  | nil => rfl
  | cons hop _ ih =>
    rw [widenBlock, hop, ih]
    rfl

theorem widenBlocks_keeps {blocks : List (RewriteBlock Mn Rg Op Mk)}
    {layouts : List (List InstructionLayout)}
    (h : List.Forall₂ (fun block ls =>
      List.Forall₂ (Keeps I blockAddresses container sizeProbe) block.ops ls) blocks layouts) :
    widenBlocks I blockAddresses container sizeProbe blocks layouts = .ok (layouts, false) := by
  induction h with
  | nil => rfl
  | cons hblock _ ih =>
    rw [widenBlocks, widenBlock_keeps hblock, ih]
    rfl

/-- What the first round of layout assigns. -/
def firstLayout (I : Isa Mn Rg Op E Mk Di) (plan : RewritePlan Mn Rg Op Mk) (base : U64) :
    Layout where
  baseAddress := base
  totalSize := (assignAddresses (initialLayouts I plan) base).2.2
  blockAddresses := (assignAddresses (initialLayouts I plan) base).2.1
  instructionLayouts := (assignAddresses (initialLayouts I plan) base).1

/-- The ops of the first round, as one list placed from the base. -/
theorem firstLayout_flatten (plan : RewritePlan Mn Rg Op Mk) (base : U64) :
    (firstLayout I plan base).instructionLayouts.flatten
      = (assignBlock base ((plan.blocks.flatMap RewriteBlock.ops).map
          (fun op => ⟨0, I.sourceByteSize op, .normal⟩))).1 := by
  rw [firstLayout, assignAddresses, assignBlocks_flatten, initialLayouts, List.map_flatMap,
    List.flatMap_def]

/-- **Layout settles in its first round** when no op is out of range there. -/
theorem layOut_of_keeps {plan : RewritePlan Mn Rg Op Mk} {base : U64}
    (h : List.Forall₂ (Keeps I (firstLayout I plan base).blockAddresses container false)
      (plan.blocks.flatMap RewriteBlock.ops)
      (firstLayout I plan base).instructionLayouts.flatten) :
    layOut I plan base container = .ok (firstLayout I plan base) := by
  have hshape := assignBlocks_reserves (initialLayouts_reserves (I := I) plan) base
  have hblocks := widenBlocks_keeps
    (forall₂_of_flatMap_flatten (hshape.imp fun _ _ hblock => hblock.length_eq) h)
  have hround : widenOutOfRange I plan (assignAddresses (initialLayouts I plan) base).1
      (assignAddresses (initialLayouts I plan) base).2.1 container false
        = .ok ((assignAddresses (initialLayouts I plan) base).1, false) := hblocks
  rw [layOut, layOutInner, maxLayoutIterations, layOutRounds, hround]
  rfl

end Armv8Encode

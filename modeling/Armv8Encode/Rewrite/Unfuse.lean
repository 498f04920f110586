/-
  Armv8Encode.Rewrite.Unfuse — a macro taken apart in place.

  Splitting a macro puts its original instructions in its place.  Layout
  reserves for a macro what it reserves for them together, so the plan lays
  out as before (`layOut_unfuse`), and emit appends the same output before
  and after them (`emit_unfuse`).  Whether the whole plan comes out alike is
  then a question about the one macro (`alikeUnfused_iff`).
-/
import Armv8Encode.Rewrite.Edit
import Armv8Encode.Rewrite.EmitSpec

namespace Armv8Encode

open Lib

variable {Mn Rg Op E Mk Di : Type}

/-! ## §1. Layout. -/

variable {I : Isa Mn Rg Op E Mk Di}

/-- Parts of the same total size leave the rest of a block where it is. -/
theorem assignBlock_replaceAt {ls parts : List InstructionLayout} {j : Nat} {l : InstructionLayout}
    {current : U64} (hl : (assignBlock current ls).1[j]? = some l)
    (hsize : l.size = (parts.map InstructionLayout.size).sum) :
    assignBlock current (replaceAt j parts ls)
      = (replaceAt j (assignBlock l.address parts).1 (assignBlock current ls).1,
          (assignBlock current ls).2) := by
  induction ls generalizing current j with
  | nil => cases hl
  | cons first ls ih =>
    cases j with
    | zero =>
      cases hl
      have hstop : (assignBlock current parts).2 = current + first.size := by
        rw [assignBlock_stop]
        exact congrArg (current + ·) hsize.symm
      rw [replaceAt_zero, assignBlock_append, hstop]
      rfl
    | succ j =>
      have hrest := ih hl
      rw [replaceAt_succ, assignBlock, hrest]
      rfl

theorem assignBlocks_replaceAt {layouts : List (List InstructionLayout)}
    {parts ls : List InstructionLayout} {b j : Nat} {l : InstructionLayout} {current : U64}
    (hls : (assignBlocks current layouts).1[b]? = some ls) (hl : ls[j]? = some l)
    (hsize : l.size = (parts.map InstructionLayout.size).sum) :
    assignBlocks current (layouts.modify b (replaceAt j parts))
      = ((assignBlocks current layouts).1.modify b (replaceAt j (assignBlock l.address parts).1),
          (assignBlocks current layouts).2) := by
  induction layouts generalizing current b with
  | nil => cases hls
  | cons block rest ih =>
    cases b with
    | zero =>
      cases hls
      rw [List.modify_zero_cons, assignBlocks, assignBlock_replaceAt hl hsize]
      rfl
    | succ b =>
      have hrest := ih hls
      rw [List.modify_succ_cons, assignBlocks, hrest]
      rfl

section Widen

variable {blockAddresses : List U64} {container : Option Container} {sizeProbe : Bool}

/-- Instructions without a branch operand are left alone by the out-of-range pass. -/
theorem widenBlock_still {originals : List (RewriteInstruction Mn Op)}
    (hstill : ∀ i ∈ originals, pcRelativeBranchTarget i = none) {parts : List InstructionLayout}
    (hlen : originals.length = parts.length) (ops : List (RewriteOp Mn Rg Op Mk))
    (ls : List InstructionLayout) :
    widenBlock I blockAddresses container sizeProbe (originals.map .instruction ++ ops) (parts ++ ls)
      = (widenBlock I blockAddresses container sizeProbe ops ls).map
          fun r => (parts ++ r.1, r.2) := by
  induction originals generalizing parts with
  | nil =>
    cases parts with
    | nil => cases h : widenBlock I blockAddresses container sizeProbe ops ls <;> simp [h, Except.map]
    | cons part parts => cases hlen
  | cons i originals ih =>
    cases parts with
    | nil => cases hlen
    | cons part parts =>
      have hhead : widenOp I blockAddresses container sizeProbe
          (.instruction i : RewriteOp Mn Rg Op Mk) part = .ok (part, false) := by
        simp [widenOp, hstill i List.mem_cons_self]
      have hrest := ih (fun i' hi' => hstill i' (List.mem_cons_of_mem _ hi')) (Nat.succ.inj hlen)
      rw [List.map_cons, List.cons_append, List.cons_append, widenBlock, hhead, hrest]
      cases widenBlock I blockAddresses container sizeProbe ops ls <;> rfl

variable {m : MacroOp Mn Rg Op Mk} {parts : List InstructionLayout} {b j : Nat}

theorem widenBlock_replaceAt (hstill : ∀ i ∈ m.originalInstructions, pcRelativeBranchTarget i = none)
    (hlen : m.originalInstructions.length = parts.length) {ops : List (RewriteOp Mn Rg Op Mk)}
    {ls : List InstructionLayout} (hop : ops[j]? = some (.macroOp m)) (hl : j < ls.length) :
    widenBlock I blockAddresses container sizeProbe
        (replaceAt j (m.originalInstructions.map .instruction) ops) (replaceAt j parts ls)
      = (widenBlock I blockAddresses container sizeProbe ops ls).map
          fun r => (replaceAt j parts r.1, r.2) := by
  induction ops generalizing ls j with
  | nil => cases hop
  | cons op ops ih =>
    cases ls with
    | nil => cases hl
    | cons l ls =>
      cases j with
      | zero =>
        cases hop
        rw [replaceAt_zero, replaceAt_zero, widenBlock_still hstill hlen, widenBlock, widenOp]
        cases widenBlock I blockAddresses container sizeProbe ops ls <;> rfl
      | succ j =>
        have hrest := ih hop (Nat.lt_of_succ_lt_succ hl)
        rw [replaceAt_succ, replaceAt_succ, widenBlock, widenBlock, hrest]
        cases widenOp I blockAddresses container sizeProbe op l with
        | error e => rfl
        | ok head => cases widenBlock I blockAddresses container sizeProbe ops ls <;> rfl

theorem widenBlocks_replaceAt (hstill : ∀ i ∈ m.originalInstructions, pcRelativeBranchTarget i = none)
    (hlen : m.originalInstructions.length = parts.length) {blocks : List (RewriteBlock Mn Rg Op Mk)}
    {layouts : List (List InstructionLayout)} {block : RewriteBlock Mn Rg Op Mk}
    {ls : List InstructionLayout} (hblock : blocks[b]? = some block)
    (hop : block.ops[j]? = some (.macroOp m)) (hls : layouts[b]? = some ls) (hl : j < ls.length) :
    widenBlocks I blockAddresses container sizeProbe
        (blocks.modify b fun block =>
          { block with ops := replaceAt j (m.originalInstructions.map .instruction) block.ops })
        (layouts.modify b (replaceAt j parts))
      = (widenBlocks I blockAddresses container sizeProbe blocks layouts).map
          fun r => (r.1.modify b (replaceAt j parts), r.2) := by
  induction blocks generalizing layouts b with
  | nil => cases hblock
  | cons first blocks ih =>
    cases layouts with
    | nil => cases hls
    | cons ls₁ layouts =>
      cases b with
      | zero =>
        cases hblock
        cases hls
        rw [List.modify_zero_cons, List.modify_zero_cons, widenBlocks, widenBlocks,
          widenBlock_replaceAt hstill hlen hop hl]
        cases widenBlock I blockAddresses container sizeProbe block.ops ls with
        | error e => rfl
        | ok head => cases widenBlocks I blockAddresses container sizeProbe blocks layouts <;> rfl
      | succ b =>
        have hrest := ih hblock hls
        rw [List.modify_succ_cons, List.modify_succ_cons, widenBlocks, widenBlocks, hrest]
        cases widenBlock I blockAddresses container sizeProbe first.ops ls₁ with
        | error e => rfl
        | ok head => cases widenBlocks I blockAddresses container sizeProbe blocks layouts <;> rfl

end Widen

/-! ## §2. Rounds. -/

/-- Where the instructions of a macro stand when it begins at an address. -/
def Isa.placedOriginals (I : Isa Mn Rg Op E Mk Di) (m : MacroOp Mn Rg Op Mk) (address : U64) :
    List InstructionLayout :=
  (assignBlock address (m.originalInstructions.map fun i => ⟨0, I.sizeOf i, .normal⟩)).1

/-- The layout with the macro at a position taken apart. -/
def Layout.unfuse (I : Isa Mn Rg Op E Mk Di) (layout : Layout) (b j : Nat) (m : MacroOp Mn Rg Op Mk)
    (address : U64) : Layout :=
  { layout with
    instructionLayouts := layout.instructionLayouts.modify b (replaceAt j (I.placedOriginals m address)) }

/-- Placing twice is placing once. -/
theorem assignBlock_assignBlock (current other : U64) (ls : List InstructionLayout) :
    assignBlock current (assignBlock other ls).1 = assignBlock current ls := by
  induction ls generalizing current other with
  | nil => rfl
  | cons l ls ih => simp [assignBlock, ih]

theorem placedOriginals_length (m : MacroOp Mn Rg Op Mk) (address : U64) :
    (I.placedOriginals m address).length = m.originalInstructions.length := by
  have hlength : ∀ (current : U64) (ls : List InstructionLayout),
      (assignBlock current ls).1.length = ls.length := by
    intro current ls
    induction ls generalizing current with
    | nil => rfl
    | cons l ls ih => simp [assignBlock, ih]
  rw [Isa.placedOriginals, hlength, List.length_map]

theorem Reserves.size_macro {m : MacroOp Mn Rg Op Mk} {l : InstructionLayout}
    (h : Reserves I (.macroOp m) l) : l.size = I.macroSourceSize m.originalInstructions := by
  unfold Reserves at h
  cases hs : l.strategy with
  | normal =>
    rw [hs] at h
    exact h
  | invertedConditional =>
    rw [hs] at h
    obtain ⟨-, i, hi, -⟩ := h
    cases hi

theorem layOutRounds_unfuse {plan : RewritePlan Mn Rg Op Mk} {base : U64}
    {container : Option Container} {sizeProbe : Bool} {fuel b j : Nat}
    {layouts : List (List InstructionLayout)} {layout : Layout} {m : MacroOp Mn Rg Op Mk}
    {block : RewriteBlock Mn Rg Op Mk} (hblock : plan.blocks[b]? = some block)
    (hop : block.ops[j]? = some (.macroOp m))
    (hstill : ∀ i ∈ m.originalInstructions, pcRelativeBranchTarget i = none)
    (hreserved : ReservesAll I plan.blocks layouts)
    (h : layOutRounds I plan base container sizeProbe fuel layouts = .ok layout)
    {parts : List InstructionLayout} (hparts : ∀ address, assignBlock address parts
      = assignBlock address (m.originalInstructions.map fun i => ⟨0, I.sizeOf i, .normal⟩))
    (hlen : m.originalInstructions.length = parts.length) :
    ∃ l, OpAt plan layout b j (.macroOp m) l ∧
      layOutRounds I (plan.replaceOp b j (m.originalInstructions.map .instruction)) base container
          sizeProbe fuel (layouts.modify b (replaceAt j parts))
        = .ok (layout.unfuse I b j m l.address) := by
  induction fuel generalizing layouts parts with
  | zero => cases h
  | succ fuel ih =>
    rw [layOutRounds] at h
    obtain ⟨widened, hwidened, h⟩ := bind_eq_ok.mp h
    have hassigned := assignBlocks_reserves hreserved base
    obtain ⟨ls, hls, hfits⟩ := exists_getElem?_of_forall₂ hassigned hblock
    obtain ⟨l, hl, hfit⟩ := exists_getElem?_of_forall₂ hfits hop
    obtain ⟨hreserved', hsame⟩ := widenBlocks_spec hassigned hwidened
    have hsize : l.size = (parts.map InstructionLayout.size).sum := by
      have hstop := congrArg Prod.snd (hparts 0)
      rw [assignBlock_stop, assignBlock_stop] at hstop
      rw [hfit.size_macro, (BitVec.add_right_inj _).mp hstop, Isa.macroSourceSize, List.map_map]
      rfl
    have hplaced : (assignBlock l.address parts).1 = I.placedOriginals m l.address :=
      congrArg Prod.fst (hparts l.address)
    have hassign : assignAddresses (layouts.modify b (replaceAt j parts)) base
        = ((assignAddresses layouts base).1.modify b (replaceAt j (I.placedOriginals m l.address)),
            (assignAddresses layouts base).2) := by
      rw [assignAddresses, assignBlocks_replaceAt hls hl hsize, hplaced]
      rfl
    have hwiden : widenOutOfRange I (plan.replaceOp b j (m.originalInstructions.map .instruction))
          (assignAddresses (layouts.modify b (replaceAt j parts)) base).1
          (assignAddresses (layouts.modify b (replaceAt j parts)) base).2.1 container sizeProbe
        = .ok (widened.1.modify b (replaceAt j (I.placedOriginals m l.address)), widened.2) := by
      rw [hassign]
      refine (widenBlocks_replaceAt hstill (placedOriginals_length m l.address).symm hblock hop hls
        (List.getElem?_eq_some_iff.mp hl).1).trans ?_
      exact congrArg (Except.map fun r =>
        (r.1.modify b (replaceAt j (I.placedOriginals m l.address)), r.2)) hwidened
    cases hgrew : widened.2 with
    | true =>
      rw [hgrew, if_pos rfl] at h
      obtain ⟨l', hat, hrest⟩ := ih hreserved' h (fun address => assignBlock_assignBlock _ _ _)
        (placedOriginals_length m l.address).symm
      refine ⟨l', hat, ?_⟩
      rw [layOutRounds]
      refine bind_eq_ok.mpr ⟨_, hwiden, ?_⟩
      rw [hgrew]
      exact hrest
    | false =>
      rw [hgrew] at h
      cases h
      rw [hsame hgrew] at hwiden ⊢
      refine ⟨l, ⟨block, ls, hblock, hop, hls, hl⟩, ?_⟩
      rw [layOutRounds]
      refine bind_eq_ok.mpr ⟨_, hwiden, ?_⟩
      rw [hgrew, hassign]
      rfl

variable {plan : RewritePlan Mn Rg Op Mk} {base : U64} {container : Option Container} {b j : Nat}
  {layout : Layout} {m : MacroOp Mn Rg Op Mk}

/-- **A macro taken apart lays out as it did whole**: its instructions stand where
it stood, and everything else stays. -/
theorem layOut_unfuse (hop : plan.opAtIndex b j = some (.macroOp m))
    (hstill : ∀ i ∈ m.originalInstructions, pcRelativeBranchTarget i = none)
    (h : layOut I plan base container = .ok layout) :
    ∃ l, OpAt plan layout b j (.macroOp m) l ∧
      layOut I (plan.replaceOp b j (m.originalInstructions.map .instruction)) base container
        = .ok (layout.unfuse I b j m l.address) := by
  obtain ⟨block, hblock, hop⟩ := Option.bind_eq_some_iff.mp hop
  have hinitial : initialLayouts I (plan.replaceOp b j (m.originalInstructions.map .instruction))
      = (initialLayouts I plan).modify b
          (replaceAt j (m.originalInstructions.map fun i => ⟨0, I.sizeOf i, .normal⟩)) := by
    refine map_modify (fun block => ?_) plan.blocks b
    rw [map_replaceAt, List.map_map]
    rfl
  obtain ⟨l, hat, hrounds⟩ := layOutRounds_unfuse hblock hop hstill (initialLayouts_reserves plan) h
    (fun _ => rfl) (List.length_map _).symm
  refine ⟨l, hat, ?_⟩
  rw [layOut, layOutInner, hinitial]
  exact hrounds

/-! ## §3. Emission. -/

section Emit

variable [DecidableEq Mn] [DecidableEq Op] {ctx : EmitContext}

/-- What a run appends does not depend on what was emitted before it. -/
theorem emitOps_frame (hframe : I.MacroFrame) (ops : List (RewriteOp Mn Rg Op Mk))
    (ls : List InstructionLayout) (out : EmitOutput) :
    emitOps I ctx ops ls out = (emitOps I ctx ops ls .empty).map out.append := by
  induction ops generalizing ls out with
  | nil => simp [emitOps, Except.map]
  | cons op ops ih =>
    cases ls with
    | nil => rfl
    | cons l ls =>
      simp only [emitOps, bind]
      rw [emitOp_append hframe]
      cases emitOp I op l ctx .empty with
      | error e => rfl
      | ok piece =>
        simp only [Except.map, Except.bind]
        rw [ih ls (out.append piece), ih ls piece]
        cases emitOps I ctx ops ls .empty with
        | error e => rfl
        | ok rest => simp [Except.map, EmitOutput.append_assoc]

/-- Two outputs that differ in the order of their relocations at most. -/
def EmitOutput.Alike (a b : EmitOutput) : Prop :=
  a.bytes = b.bytes ∧ a.relocations.Perm b.relocations

/-- Outputs with a common beginning and a common end are alike exactly when the
parts between are. -/
theorem EmitOutput.alike_append_iff {before piece piece' rest : EmitOutput} :
    ((before.append piece').append rest).Alike ((before.append piece).append rest)
      ↔ piece'.Alike piece := by
  unfold Alike
  have hbytes : ((before.append piece').append rest).bytes = ((before.append piece).append rest).bytes
      ↔ piece'.bytes = piece.bytes := by
    simp [List.append_assoc]
  rw [hbytes]
  refine and_congr_right fun hsame => ?_
  have hshift : Function.Injective fun r : EmittedRelocation =>
      { r with offset := BitVec.ofNat 64 before.bytes.length + r.offset } := by
    intro r r' h
    obtain ⟨offset, kind, symbol, addend⟩ := r
    obtain ⟨offset', kind', symbol', addend'⟩ := r'
    simp only [EmittedRelocation.mk.injEq] at h ⊢
    exact ⟨(BitVec.add_right_inj _).mp h.1, h.2⟩
  simp only [append, hsame, List.append_assoc, List.perm_append_left_iff, List.perm_append_right_iff]
  exact List.map_perm_map_iff hshift

/-- A run over three stretches of ops, each emitted by itself. -/
theorem emitOps_around (hframe : I.MacroFrame) {pre mid post : List (RewriteOp Mn Rg Op Mk)}
    {lpre lmid lpost : List InstructionLayout} (hpre : pre.length = lpre.length)
    (hmid : mid.length = lmid.length) :
    emitOps I ctx (pre ++ mid ++ post) (lpre ++ lmid ++ lpost) .empty
      = (emitOps I ctx pre lpre .empty).bind fun before =>
          (emitOps I ctx mid lmid .empty).bind fun piece =>
            (emitOps I ctx post lpost .empty).map fun rest =>
              (before.append piece).append rest := by
  rw [List.append_assoc, List.append_assoc, emitOps_append hpre]
  cases emitOps I ctx pre lpre .empty with
  | error e => rfl
  | ok before =>
    simp only [Except.bind]
    rw [emitOps_append hmid, emitOps_frame hframe mid lmid before]
    cases emitOps I ctx mid lmid .empty with
    | error e => rfl
    | ok piece => exact emitOps_frame hframe post lpost (before.append piece)

/-- **Emitting a macro taken apart**: the outputs before and after it are those
of the whole macro. -/
theorem emit_unfuse (hframe : I.MacroFrame) {l : InstructionLayout} {out : EmitOutput}
    (hshape : List.Forall₂ (fun block ls => block.ops.length = ls.length)
      plan.blocks layout.instructionLayouts)
    (hat : OpAt plan layout b j (.macroOp m) l) (hemit : emit I plan layout container = .ok out) :
    ∃ before piece rest : EmitOutput,
      emitOp I (.macroOp m) l (layout.context container) .empty = .ok piece ∧
      out = (before.append piece).append rest ∧
      emit I (plan.replaceOp b j (m.originalInstructions.map .instruction))
          (layout.unfuse I b j m l.address) container
        = (emitOps I (layout.context container) (m.originalInstructions.map .instruction)
            (I.placedOriginals m l.address) .empty).map
              fun piece => (before.append piece).append rest := by
  obtain ⟨block, ls, hblock, hop, hls, hl⟩ := hat
  have hops : (plan.blocks.map RewriteBlock.ops)[b]? = some block.ops := by
    rw [List.getElem?_map, hblock]
    rfl
  have hlengths : List.Forall₂ (fun ops ls => ops.length = ls.length)
      (plan.blocks.map RewriteBlock.ops) layout.instructionLayouts :=
    List.forall₂_map_left_iff.mpr hshape
  have hparts : (m.originalInstructions.map .instruction : List (RewriteOp Mn Rg Op Mk)).length
      = (I.placedOriginals m l.address).length := by
    rw [List.length_map, placedOriginals_length]
  have hshape' : List.Forall₂ (fun block ls => block.ops.length = ls.length)
      (plan.replaceOp b j (m.originalInstructions.map .instruction)).blocks
      (layout.unfuse I b j m l.address).instructionLayouts := by
    refine forall₂_modify hshape fun block ls hblock hls hlen => ?_
    simp only [replaceAt, List.length_append, List.length_take, List.length_drop, hparts, hlen]
  have hmap : (plan.replaceOp b j (m.originalInstructions.map .instruction)).blocks.map
        RewriteBlock.ops
      = (plan.blocks.map RewriteBlock.ops).modify b
          (replaceAt j (m.originalInstructions.map .instruction)) := by
    refine map_modify (fun block => ?_) plan.blocks b
    rfl
  have hlen : (((plan.blocks.map RewriteBlock.ops).take b).flatten ++ block.ops.take j).length
      = ((layout.instructionLayouts.take b).flatten ++ ls.take j).length := by
    have htake := map_eq_map_of_forall₂ (List.forall₂_take b hlengths)
    have hown : block.ops.length = ls.length := by
      obtain ⟨ls', hls', hlength⟩ := exists_getElem?_of_forall₂ hshape hblock
      cases hls.symm.trans hls'
      exact hlength
    rw [List.length_append, List.length_append, List.length_flatten, List.length_flatten, htake,
      List.length_take, List.length_take, hown]
  rw [emit_flat hshape, List.flatMap_def, flatten_cut hops hop, flatten_cut hls hl,
    List.append_cons, List.append_cons _ l, emitOps_around hframe hlen rfl] at hemit
  obtain ⟨before, hbefore, hemit⟩ := bind_eq_ok.mp hemit
  obtain ⟨piece, hpiece, hemit⟩ := bind_eq_ok.mp hemit
  obtain ⟨rest, hrest, rfl⟩ := map_eq_ok.mp hemit
  obtain ⟨piece', hsingle, hnil⟩ := bind_eq_ok.mp hpiece
  cases hnil
  refine ⟨before, piece, rest, hsingle, rfl, ?_⟩
  have hlayouts : (layout.unfuse I b j m l.address).instructionLayouts.flatten
      = ((layout.instructionLayouts.take b).flatten ++ ls.take j) ++ I.placedOriginals m l.address
        ++ (ls.drop (j + 1) ++ (layout.instructionLayouts.drop (b + 1)).flatten) :=
    flatten_modify_replaceAt hls _
  rw [emit_flat hshape', List.flatMap_def, hmap, flatten_modify_replaceAt hops, hlayouts,
    emitOps_around hframe hlen hparts]
  have hcontext : (layout.unfuse I b j m l.address).context container = layout.context container :=
    rfl
  rw [hcontext, hbefore, hrest]
  cases emitOps I (layout.context container) (m.originalInstructions.map .instruction)
    (I.placedOriginals m l.address) .empty <;> rfl

/-- The plan with its macro taken apart comes out alike. -/
def AlikeUnfused (I : Isa Mn Rg Op E Mk Di) (plan : RewritePlan Mn Rg Op Mk) (address base : U64)
    (container : Option Container) (out : EmitOutput) : Prop :=
  ∃ layout' out', layOut I (plan.unfuseMacroAt address) base container = .ok layout' ∧
    emit I (plan.unfuseMacroAt address) layout' container = .ok out' ∧ out'.Alike out

theorem OpAt.opAtIndex {op : RewriteOp Mn Rg Op Mk} {l : InstructionLayout}
    (h : OpAt plan layout b j op l) : plan.opAtIndex b j = some op := by
  obtain ⟨block, -, hblock, hop, -⟩ := h
  exact Option.bind_eq_some_iff.mpr ⟨block, hblock, hop⟩

theorem OpAt.unique {op op' : RewriteOp Mn Rg Op Mk} {l l' : InstructionLayout}
    (h : OpAt plan layout b j op l) (h' : OpAt plan layout b j op' l') : op = op' ∧ l = l' := by
  obtain ⟨block, ls, hblock, hop, hls, hl⟩ := h
  obtain ⟨block', ls', hblock', hop', hls', hl'⟩ := h'
  cases hblock.symm.trans hblock'
  cases hls.symm.trans hls'
  exact ⟨Option.some.inj (hop.symm.trans hop'), Option.some.inj (hl.symm.trans hl')⟩

/-- **A whole plan comes out alike** exactly when the one macro does. -/
theorem alikeUnfused_iff (hframe : I.MacroFrame) {address : U64} {l : InstructionLayout}
    {out : EmitOutput} (hlocate : plan.locate address = some (b, j))
    (hat : OpAt plan layout b j (.macroOp m) l)
    (hbegins : m.originalInstructions.head?.bind RewriteInstruction.originalAddress = some address)
    (hstill : ∀ i ∈ m.originalInstructions, pcRelativeBranchTarget i = none)
    (hlayout : layOut I plan base container = .ok layout)
    (hemit : emit I plan layout container = .ok out) :
    ∃ piece, emitOp I (.macroOp m) l (layout.context container) .empty = .ok piece ∧
      (AlikeUnfused I plan address base container out ↔
        ∃ piece', emitOps I (layout.context container) (m.originalInstructions.map .instruction)
          (I.placedOriginals m l.address) .empty = .ok piece' ∧ piece'.Alike piece) := by
  have hop := hat.opAtIndex
  have hplan : plan.unfuseMacroAt address
      = plan.replaceOp b j (m.originalInstructions.map .instruction) := by
    simp only [RewritePlan.unfuseMacroAt, hlocate, hop, hbegins, if_true]
  obtain ⟨l', hat', hlayout'⟩ := layOut_unfuse hop hstill hlayout
  obtain ⟨-, rfl⟩ := hat.unique hat'
  obtain ⟨before, piece, rest, hpiece, rfl, hemit'⟩ :=
    emit_unfuse hframe (layOut_laidOut hlayout).reserved.shape hat hemit
  refine ⟨piece, hpiece, ?_⟩
  rw [AlikeUnfused, hplan]
  constructor
  · intro h
    obtain ⟨layout'', out', hlayout'', hout', halike⟩ := h
    cases hlayout'.symm.trans hlayout''
    rw [hemit'] at hout'
    obtain ⟨piece', hpiece', rfl⟩ := map_eq_ok.mp hout'
    exact ⟨piece', hpiece', EmitOutput.alike_append_iff.mp halike⟩
  · intro h
    obtain ⟨piece', hpiece', halike⟩ := h
    refine ⟨_, _, hlayout', ?_, EmitOutput.alike_append_iff.mpr halike⟩
    rw [hemit', hpiece']
    rfl

end Emit

end Armv8Encode

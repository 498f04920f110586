/-
  Armv8Encode.Rewrite.EmitSpec — what emit appends, and where it lands.

  Emit runs over the ops of a plan with one growing output.  What one op
  appends does not depend on the output so far (`emitOp_append`), so a run
  over a list of ops splits at any op, and the position of an op's bytes is
  the number of bytes appended by the ops before it.

  The second half compares those positions with a layout.  `EmittedAsLaidOut`
  says that every op's bytes stand exactly where the layout put the op, and
  `emittedAsLaidOut_iff` reduces it to one question per op: does it append as
  many bytes as the layout reserved?
-/
import Armv8Encode.Lib.Except
import Armv8Encode.Lib.Lists
import Armv8Encode.Rewrite.LayoutSpec
import Armv8Encode.Rewrite.Emit

namespace Armv8Encode

open Lib

variable {Mn Rg Op E Mk Di : Type} [DecidableEq Mn] [DecidableEq Op]

/-! ## §1. The ways an instruction is emitted. -/

/-- How an instruction was emitted: copied from its source bytes, as a
relocation placeholder, or encoded from its operands. -/
inductive EmittedAs (I : Isa Mn Rg Op E Mk Di) (ctx : EmitContext) (i : RewriteInstruction Mn Op)
    (l : InstructionLayout) (out : EmitOutput) (out' : EmitOutput) : Prop where
  | verbatim (reloc : Option (SymbolId × PcRelKind)) (raw : List Byte)
      (relocation : ctx.relocationOf (E := E) i = .ok reloc)
      (keeps : (ctx.isRelocatable && reloc.isSome) = false)
      (copied : verbatimBytes I i l.address ctx.blockAddresses ctx.container = some raw)
      (output : out' = { out with bytes := out.bytes ++ raw })
  | placeholder (symbol : SymbolId) (kind : PcRelKind)
      (relocation : ctx.relocationOf (E := E) i = .ok (some (symbol, kind)))
      (notCopied : ctx.isRelocatable = true ∨
        verbatimBytes I i l.address ctx.blockAddresses ctx.container = none)
      (output : emitWithRelocation I i l.address symbol kind out = .ok out')
  | encoded (bytes : List Byte) (relocation : ctx.relocationOf (E := E) i = .ok none)
      (notCopied : verbatimBytes I i l.address ctx.blockAddresses ctx.container = none)
      (encoding : emitEncoded I i l ctx = .ok bytes)
      (output : out' = { out with bytes := out.bytes ++ bytes })

/-- An instruction is emitted in one of the ways, and each way succeeds. -/
theorem emitInstruction_iff {I : Isa Mn Rg Op E Mk Di} {ctx : EmitContext}
    {i : RewriteInstruction Mn Op} {l : InstructionLayout} {out out' : EmitOutput} :
    emitInstruction I i l ctx out = .ok out' ↔ EmittedAs I ctx i l out out' := by
  constructor
  · intro h
    obtain ⟨reloc, hreloc, h⟩ := bind_eq_ok.mp h
    simp only at h
    split at h
    · next raw hraw =>
      cases h
      split at hraw
      · cases hraw
      · next hkeeps => exact .verbatim reloc raw hreloc (by simpa using hkeeps) hraw rfl
    · next hverb =>
      cases reloc with
      | some r =>
        refine .placeholder r.1 r.2 hreloc ?_ h
        cases hrel : ctx.isRelocatable with
        | true => exact .inl rfl
        | false => exact .inr (by simpa [hrel] using hverb)
      | none =>
        obtain ⟨bytes, hbytes, h⟩ := bind_eq_ok.mp h
        cases h
        exact .encoded bytes hreloc (by simpa using hverb) hbytes rfl
  · intro h
    cases h with
    | verbatim reloc raw hreloc hkeeps hraw hout =>
      simp only [emitInstruction, hreloc, bind, Except.bind, hkeeps, Bool.false_eq_true, if_false,
        hraw, pure, Except.pure, hout]
    | placeholder symbol kind hreloc hnot hout =>
      have hverb : (if (ctx.isRelocatable && (some (symbol, kind)).isSome) = true then none
          else verbatimBytes I i l.address ctx.blockAddresses ctx.container) = none := by
        rcases hnot with h | h
        · rw [h]
          rfl
        · rw [h, ite_self]
      simp only [emitInstruction, hreloc, bind, Except.bind, hverb, hout]
    | encoded bytes hreloc hnot hbytes hout =>
      simp only [emitInstruction, hreloc, bind, Except.bind, hnot, ite_self, hbytes, pure,
        Except.pure, hout]

omit [DecidableEq Mn] [DecidableEq Op] in
/-- Looking for a relocation fails in the layout, never in the encoder. -/
theorem relocationOf_ne_encode {ctx : EmitContext} {i : RewriteInstruction Mn Op} {e : E} :
    ctx.relocationOf i ≠ .error (.encode e) := by
  have hin : ∀ (c : Container) (operands : List (RewriteOperand Op)),
      needsRelocationIn c ctx.currentSection operands ≠ .error (.encode e) := by
    intro c operands
    induction operands with
    | nil =>
      intro h
      cases h
    | cons operand rest ih =>
      intro h
      rw [needsRelocationIn] at h
      split at h
      · split at h
        · cases h
        · cases h
        · exact ih h
      · exact ih h
  intro h
  cases hc : ctx.container with
  | none =>
    rw [EmitContext.relocationOf, hc] at h
    cases h
  | some c =>
    rw [EmitContext.relocationOf, hc] at h
    exact hin c i.operands h

omit [DecidableEq Mn] [DecidableEq Op] in
/-- What an encoded instruction is made of. -/
theorem emitEncoded_eq_ok {I : Isa Mn Rg Op E Mk Di} {ctx : EmitContext}
    {i : RewriteInstruction Mn Op} {l : InstructionLayout} {bytes : List Byte} :
    emitEncoded I i l ctx = .ok bytes ↔
      (l.strategy = .normal ∧ ∃ operands, lowerOperands (E := E) I ctx.blockAddresses ctx.container
          i.operands = .ok operands ∧ I.encode i.mnemonic operands l.address = .ok bytes) ∨
      (l.strategy = .invertedConditional ∧ ∃ target far, i.pcRelativeTarget = some target ∧
        resolveTarget target ctx.blockAddresses ctx.container = .ok far ∧
        I.encodeWidenedConditional i.mnemonic (lowerOperandsWithPlaceholder i) l.address far
          = .ok bytes) := by
  unfold emitEncoded
  cases l.strategy with
  | normal =>
    simp only [true_and, reduceCtorEq, false_and, or_false]
    rw [bind_eq_ok]
    refine exists_congr fun operands => and_congr_right fun _ => ?_
    cases I.encode i.mnemonic operands l.address <;> simp
  | invertedConditional =>
    simp only [reduceCtorEq, false_and, false_or, true_and]
    cases i.pcRelativeTarget with
    | none => simp
    | some target =>
      cases hfar : resolveTarget target ctx.blockAddresses ctx.container with
      | error e => simp [hfar]
      | ok far =>
        cases hbytes : I.encodeWidenedConditional i.mnemonic (lowerOperandsWithPlaceholder i)
            l.address far <;> simp [hfar, hbytes]

/-! ## §2. The frame property. -/

/-- The macro emitter of an instruction set only appends, and what it appends
does not depend on what is there. -/
def Isa.MacroFrame (I : Isa Mn Rg Op E Mk Di) : Prop :=
  ∀ m here ctx out, I.emitMacro m here ctx out = (I.emitMacro m here ctx .empty).map out.append

variable {I : Isa Mn Rg Op E Mk Di} {ctx : EmitContext}

omit [DecidableEq Mn] [DecidableEq Op] in
theorem emitWithRelocation_append (i : RewriteInstruction Mn Op) (here : U64) (symbol : SymbolId)
    (kind : PcRelKind) (out : EmitOutput) :
    emitWithRelocation I i here symbol kind out
      = (emitWithRelocation I i here symbol kind .empty).map out.append := by
  unfold emitWithRelocation
  cases I.relocationKindFor i.mnemonic kind with
  | none => rfl
  | some relocKind =>
    cases I.encode i.mnemonic (i.operands.map (placeholderOperand I here)) here with
    | error e => rfl
    | ok bytes => simp [Except.map, EmitOutput.append, EmitOutput.empty]

theorem emitInstruction_append (i : RewriteInstruction Mn Op) (l : InstructionLayout)
    (out : EmitOutput) :
    emitInstruction I i l ctx out = (emitInstruction I i l ctx .empty).map out.append := by
  unfold emitInstruction
  cases ctx.relocationOf (E := E) i with
  | error e => rfl
  | ok reloc =>
    simp only [bind, Except.bind]
    split
    · simp [pure, Except.pure, Except.map, EmitOutput.append, EmitOutput.empty]
    · cases reloc with
      | some r => exact emitWithRelocation_append i l.address r.1 r.2 out
      | none =>
        simp only
        cases emitEncoded I i l ctx with
        | error e => rfl
        | ok bytes => simp [pure, Except.pure, Except.map, EmitOutput.append, EmitOutput.empty]

/-- **Frame property of emit**: an op appends the same output whatever was
emitted before it. -/
theorem emitOp_append (hframe : I.MacroFrame) (op : RewriteOp Mn Rg Op Mk)
    (l : InstructionLayout) (out : EmitOutput) :
    emitOp I op l ctx out = (emitOp I op l ctx .empty).map out.append := by
  cases op with
  | instruction i => exact emitInstruction_append i l out
  | macroOp m =>
    simp only [emitOp]
    rw [hframe m l.address ctx out]
    cases I.emitMacro m l.address ctx .empty with
    | error e => rfl
    | ok piece => rfl
  | raw bytes => simp [emitOp, Except.map, EmitOutput.append, EmitOutput.empty]

/-! ## §3. Splitting a run. -/

/-- A run over two stretches of ops is a run over the first, then the second. -/
theorem emitOps_append {opsA opsB : List (RewriteOp Mn Rg Op Mk)}
    {lsA lsB : List InstructionLayout} (hlen : opsA.length = lsA.length) (out : EmitOutput) :
    emitOps I ctx (opsA ++ opsB) (lsA ++ lsB) out
      = (emitOps I ctx opsA lsA out).bind (fun mid => emitOps I ctx opsB lsB mid) := by
  induction opsA generalizing lsA out with
  | nil =>
    cases lsA with
    | nil => rfl
    | cons l ls => simp at hlen
  | cons op ops ih =>
    cases lsA with
    | nil => simp at hlen
    | cons l ls =>
      simp only [List.cons_append, emitOps, bind]
      cases emitOp I op l ctx out with
      | error e => rfl
      | ok out' => exact ih (by simpa using hlen) out'

/-- Emitting blocks is emitting their ops one after another. -/
theorem emitBlocks_flat {blocks : List (RewriteBlock Mn Rg Op Mk)}
    {layouts rest : List (List InstructionLayout)}
    (hshape : List.Forall₂ (fun block ls => block.ops.length = ls.length) blocks layouts)
    (out : EmitOutput) :
    emitBlocks I ctx blocks (layouts ++ rest) out
      = emitOps I ctx (blocks.flatMap RewriteBlock.ops) layouts.flatten out := by
  induction hshape generalizing out with
  | nil => cases rest <;> rfl
  | @cons block ls blocks layouts hlen _ ih =>
    rw [List.flatMap_cons, List.flatten_cons, emitOps_append hlen, List.cons_append]
    simp only [emitBlocks, bind]
    cases emitOps I ctx block.ops ls out with
    | error e => rfl
    | ok out' => exact ih out'

/-- A run over two stretches of blocks is a run over the first, then the second. -/
theorem emitBlocks_append {blocksA blocksB : List (RewriteBlock Mn Rg Op Mk)}
    {layoutsA layoutsB : List (List InstructionLayout)}
    (hshape : List.Forall₂ (fun block ls => block.ops.length = ls.length) blocksA layoutsA)
    (out : EmitOutput) :
    emitBlocks I ctx (blocksA ++ blocksB) (layoutsA ++ layoutsB) out
      = (emitBlocks I ctx blocksA layoutsA out).bind
          (fun mid => emitBlocks I ctx blocksB layoutsB mid) := by
  induction hshape generalizing out with
  | nil => rfl
  | @cons block ls blocks layouts hlen _ ih =>
    simp only [List.cons_append, emitBlocks, bind]
    cases emitOps I ctx block.ops ls out with
    | error e => rfl
    | ok out' => exact ih out'

/-- A successful run only appends. -/
theorem emitOps_prefix (hframe : I.MacroFrame) {ops : List (RewriteOp Mn Rg Op Mk)}
    {ls : List InstructionLayout} {out out' : EmitOutput}
    (h : emitOps I ctx ops ls out = .ok out') : out.bytes <+: out'.bytes := by
  induction ops generalizing ls out with
  | nil =>
    cases h
    exact List.prefix_refl _
  | cons op ops ih =>
    cases ls with
    | nil => cases h
    | cons l ls =>
      simp only [emitOps, bind] at h
      rw [emitOp_append hframe] at h
      cases hop : emitOp I op l ctx .empty with
      | error e => rw [hop] at h; cases h
      | ok piece =>
        rw [hop] at h
        have htail := ih h
        rw [EmitOutput.bytes_append] at htail
        exact (List.prefix_append _ _).trans htail

/-- A run emits its first op, then the rest. -/
theorem emitOps_cons {op : RewriteOp Mn Rg Op Mk} {ops : List (RewriteOp Mn Rg Op Mk)}
    {l : InstructionLayout} {ls : List InstructionLayout} {out mid : EmitOutput}
    (h : emitOp I op l ctx out = .ok mid) :
    emitOps I ctx (op :: ops) (l :: ls) out = emitOps I ctx ops ls mid := by
  rw [emitOps, h]
  rfl

/-- A run emits the ops of its first block, then the remaining blocks. -/
theorem emitBlocks_cons {block : RewriteBlock Mn Rg Op Mk} {blocks : List (RewriteBlock Mn Rg Op Mk)}
    {ls : List InstructionLayout} {rest : List (List InstructionLayout)} {out mid : EmitOutput}
    (h : emitOps I ctx block.ops ls out = .ok mid) :
    emitBlocks I ctx (block :: blocks) (ls :: rest) out = emitBlocks I ctx blocks rest mid := by
  rw [emitBlocks, h]
  rfl

/-- A block of one instruction emits what the instruction emits. -/
theorem emitBlocks_cons_single {id : BasicBlockId} {i : RewriteInstruction Mn Op}
    {blocks : List (RewriteBlock Mn Rg Op Mk)} {l : InstructionLayout}
    {rest : List (List InstructionLayout)} {out mid : EmitOutput}
    (h : emitInstruction I i l ctx out = .ok mid) :
    emitBlocks I ctx (⟨id, [.instruction i]⟩ :: blocks) ([l] :: rest) out
      = emitBlocks I ctx blocks rest mid := by
  have hop : emitOp I (.instruction i : RewriteOp Mn Rg Op Mk) l ctx out = .ok mid := h
  exact emitBlocks_cons ((emitOps_cons hop).trans rfl)

/-- A plan of one op emits what the op emits. -/
theorem emit_single {id : BasicBlockId} {op : RewriteOp Mn Rg Op Mk} {layout : Layout}
    {container : Option Container} {l : InstructionLayout} {out : EmitOutput}
    (hl : layout.instructionLayouts = [[l]])
    (h : emitOp I op l (layout.context container) .empty = .ok out) :
    emit I ⟨[⟨id, [op]⟩]⟩ layout container = .ok out := by
  have hops : emitOps I (layout.context container) [op] [l] .empty = .ok out :=
    (emitOps_cons h).trans rfl
  rw [emit, hl, emitBlocks_cons hops]
  rfl

/-! ## §4. Positions. -/

/-- The op appends as many bytes as its layout reserves. -/
def Fits (I : Isa Mn Rg Op E Mk Di) (ctx : EmitContext) (op : RewriteOp Mn Rg Op Mk)
    (l : InstructionLayout) : Prop :=
  ∀ piece, emitOp I op l ctx .empty = .ok piece → l.size = BitVec.ofNat 64 piece.bytes.length

/-- A run of ops that all fit appends the sum of their sizes. -/
theorem emitOps_length (hframe : I.MacroFrame) {ops : List (RewriteOp Mn Rg Op Mk)}
    {ls : List InstructionLayout} (hfits : List.Forall₂ (Fits I ctx) ops ls)
    {out out' : EmitOutput} (h : emitOps I ctx ops ls out = .ok out') :
    BitVec.ofNat 64 out'.bytes.length
      = BitVec.ofNat 64 out.bytes.length + (ls.map InstructionLayout.size).sum := by
  induction hfits generalizing out with
  | nil =>
    cases h
    simp
  | @cons op l ops ls hfit _ ih =>
    simp only [emitOps, bind] at h
    rw [emitOp_append hframe] at h
    cases hop : emitOp I op l ctx .empty with
    | error e => rw [hop] at h; cases h
    | ok piece =>
      rw [hop] at h
      rw [ih h, EmitOutput.bytes_append, List.length_append, List.map_cons, List.sum_cons,
        hfit piece hop, BitVec.ofNat_add, BitVec.add_assoc]

/-- The op and layout that stand at a block and op index. -/
def OpAt (plan : RewritePlan Mn Rg Op Mk) (layout : Layout) (b i : Nat)
    (op : RewriteOp Mn Rg Op Mk) (l : InstructionLayout) : Prop :=
  ∃ block ls, plan.blocks[b]? = some block ∧ block.ops[i]? = some op
    ∧ layout.instructionLayouts[b]? = some ls ∧ ls[i]? = some l

/-- The part of a plan emitted before op `i` of block `b`. -/
def RewritePlan.blocksBefore (plan : RewritePlan Mn Rg Op Mk) (b i : Nat) :
    List (RewriteBlock Mn Rg Op Mk) :=
  plan.blocks.take b
    ++ (plan.blocks[b]?.map (fun block => { block with ops := block.ops.take i })).toList

/-- The bytes of every op stand where the layout put the op: emission reaches
the op with `address - base` bytes, and the op then appends `size` bytes,
which stay in the final output. -/
def EmittedAsLaidOut (I : Isa Mn Rg Op E Mk Di) (plan : RewritePlan Mn Rg Op Mk)
    (layout : Layout) (container : Option Container) (out : EmitOutput) : Prop :=
  layout.totalSize = BitVec.ofNat 64 out.bytes.length ∧
    ∀ b i op l, OpAt plan layout b i op l →
      ∃ before after piece,
        emitBlocks I (layout.context container) (plan.blocksBefore b i)
            layout.instructionLayouts .empty = .ok before ∧
        emitOp I op l (layout.context container) before = .ok after ∧
        after.bytes = before.bytes ++ piece ∧
        after.bytes <+: out.bytes ∧
        l.address = layout.baseAddress + BitVec.ofNat 64 before.bytes.length ∧
        l.size = BitVec.ofNat 64 piece.length

/-- Every op of the plan fits its layout. -/
def AllFit (I : Isa Mn Rg Op E Mk Di) (plan : RewritePlan Mn Rg Op Mk) (layout : Layout)
    (container : Option Container) : Prop :=
  ∀ b i op l, OpAt plan layout b i op l → Fits I (layout.context container) op l

variable {plan : RewritePlan Mn Rg Op Mk} {layout : Layout} {container : Option Container}
  {base : U64}

omit [DecidableEq Mn] [DecidableEq Op] in
theorem ReservesAll.shape {blocks : List (RewriteBlock Mn Rg Op Mk)}
    {layouts : List (List InstructionLayout)} (h : ReservesAll I blocks layouts) :
    List.Forall₂ (fun block ls => block.ops.length = ls.length) blocks layouts :=
  h.imp (fun _ _ hblock => hblock.length_eq)

omit [DecidableEq Mn] [DecidableEq Op] in
/-- At every op position of the plan a returned layout has an entry. -/
theorem LaidOut.exists_layout {sizeProbe : Bool}
    (h : LaidOut I plan base container sizeProbe layout) {b i : Nat}
    {block : RewriteBlock Mn Rg Op Mk} {op : RewriteOp Mn Rg Op Mk}
    (hblock : plan.blocks[b]? = some block) (hop : block.ops[i]? = some op) :
    ∃ l, OpAt plan layout b i op l ∧ Reserves I op l := by
  have hall := List.forall₂_iff_get.mp h.reserved
  obtain ⟨hb, hbget⟩ := List.getElem?_eq_some_iff.mp hblock
  have hb' : b < layout.instructionLayouts.length := hall.1 ▸ hb
  have hin := List.forall₂_iff_get.mp (hall.2 b hb hb')
  simp only [List.get_eq_getElem, hbget] at hin
  obtain ⟨hi, higet⟩ := List.getElem?_eq_some_iff.mp hop
  have hi' : i < (layout.instructionLayouts[b]).length := hin.1 ▸ hi
  have hres := hin.2 i hi hi'
  rw [higet] at hres
  exact ⟨_, ⟨block, _, hblock, hop, List.getElem?_eq_getElem hb', List.getElem?_eq_getElem hi'⟩,
    hres⟩

omit [DecidableEq Mn] [DecidableEq Op] in
/-- The layout of a returned layout at an op position reserves the op's size. -/
theorem LaidOut.reserves_of_opAt {sizeProbe : Bool}
    (h : LaidOut I plan base container sizeProbe layout) {b i : Nat}
    {op : RewriteOp Mn Rg Op Mk} {l : InstructionLayout} (hat : OpAt plan layout b i op l) :
    Reserves I op l := by
  obtain ⟨block, ls, hblock, hop, hls, hl⟩ := hat
  obtain ⟨l', ⟨block', ls', hblock', -, hls', hl'⟩, hres⟩ := h.exists_layout hblock hop
  rw [hls] at hls'
  cases hls'
  rw [hl] at hl'
  cases hl'
  exact hres

variable (I ctx) in
/-- The run before an op position, as a run over a flat list of ops. -/
theorem emitBlocks_before
    (hshape : List.Forall₂ (fun block ls => block.ops.length = ls.length)
      plan.blocks layout.instructionLayouts)
    {b i : Nat} {block : RewriteBlock Mn Rg Op Mk} {ls : List InstructionLayout}
    (hblock : plan.blocks[b]? = some block) (hls : layout.instructionLayouts[b]? = some ls)
    (hi : i ≤ block.ops.length) (hi' : i ≤ ls.length) (out : EmitOutput) :
    emitBlocks I ctx (plan.blocksBefore b i) layout.instructionLayouts out
      = emitOps I ctx ((plan.blocks.take b).flatMap RewriteBlock.ops ++ block.ops.take i)
          ((layout.instructionLayouts.take b).flatten ++ ls.take i) out := by
  have hlayouts := eq_take_cons_drop hls
  have htake : List.Forall₂ (fun block ls => block.ops.length = ls.length)
      (plan.blocks.take b) (layout.instructionLayouts.take b) := List.forall₂_take b hshape
  rw [RewritePlan.blocksBefore, hblock]
  conv_lhs => rw [hlayouts]
  rw [emitBlocks_append htake]
  rw [emitOps_append (by
    rw [List.length_flatMap, List.length_flatten]
    exact congrArg List.sum (map_eq_map_of_forall₂ htake)) out]
  rw [← List.append_nil (layout.instructionLayouts.take b), emitBlocks_flat htake]
  simp only [List.append_nil]
  cases emitOps I ctx ((plan.blocks.take b).flatMap RewriteBlock.ops)
      (layout.instructionLayouts.take b).flatten out with
  | error e => rfl
  | ok mid =>
    -- the layouts of the block are longer than the ops taken from it
    have hcut : emitOps I ctx (block.ops.take i ++ []) (ls.take i ++ ls.drop i) mid
        = (emitOps I ctx (block.ops.take i) (ls.take i) mid).bind
            (fun out => emitOps I ctx [] (ls.drop i) out) :=
      emitOps_append (by simp [hi, hi']) mid
    rw [List.append_nil, List.take_append_drop] at hcut
    simp only [Option.map_some, Option.toList_some, emitBlocks, bind, Except.bind, hcut]
    cases emitOps I ctx (block.ops.take i) (ls.take i) mid <;> rfl

/-! ## §4. Placement. -/

omit [DecidableEq Mn] [DecidableEq Op] in
/-- A relation that holds at every position holds along the flat lists. -/
theorem forall₂_of_positions {R : RewriteOp Mn Rg Op Mk → InstructionLayout → Prop}
    {blocks : List (RewriteBlock Mn Rg Op Mk)} {layouts : List (List InstructionLayout)}
    (hshape : List.Forall₂ (fun block ls => block.ops.length = ls.length) blocks layouts)
    (h : ∀ (b i : Nat) (block : RewriteBlock Mn Rg Op Mk) (ls : List InstructionLayout) op l,
      blocks[b]? = some block → block.ops[i]? = some op → layouts[b]? = some ls →
      ls[i]? = some l → R op l) :
    List.Forall₂ R (blocks.flatMap RewriteBlock.ops) layouts.flatten := by
  apply forall₂_flatMap_flatten
  obtain ⟨hlen, hget⟩ := List.forall₂_iff_get.mp hshape
  apply List.forall₂_iff_get.mpr
  refine ⟨hlen, fun b hb hb' => ?_⟩
  apply List.forall₂_iff_get.mpr
  refine ⟨hget b hb hb', fun i hi hi' => ?_⟩
  exact h b i blocks[b] layouts[b] _ _ (List.getElem?_eq_getElem hb)
    (List.getElem?_eq_getElem hi) (List.getElem?_eq_getElem hb') (List.getElem?_eq_getElem hi')

/-- Every op that stands before op `i` of block `b` fits its layout. -/
def FitBefore (I : Isa Mn Rg Op E Mk Di) (plan : RewritePlan Mn Rg Op Mk) (layout : Layout)
    (container : Option Container) (b i : Nat) : Prop :=
  ∀ b' i' op l, OpAt plan layout b' i' op l → (b' < b ∨ (b' = b ∧ i' < i)) →
    Fits I (layout.context container) op l

/-- Fitting before a position, as a relation between flat lists. -/
theorem FitBefore.flat {b i : Nat} (h : FitBefore I plan layout container b i)
    (hshape : List.Forall₂ (fun block ls => block.ops.length = ls.length)
      plan.blocks layout.instructionLayouts)
    {block : RewriteBlock Mn Rg Op Mk} {ls : List InstructionLayout}
    (hblock : plan.blocks[b]? = some block) (hls : layout.instructionLayouts[b]? = some ls) :
    List.Forall₂ (Fits I (layout.context container))
      ((plan.blocks.take b).flatMap RewriteBlock.ops ++ block.ops.take i)
      ((layout.instructionLayouts.take b).flatten ++ ls.take i) := by
  refine List.rel_append ?_ ?_
  · refine forall₂_of_positions (List.forall₂_take b hshape) ?_
    intro b' i' block' ls' op l hblock' hop hls' hl
    have hlt : b' < b := by
      have := (List.getElem?_eq_some_iff.mp hblock').1
      rw [List.length_take] at this
      omega
    rw [List.getElem?_take_of_lt hlt] at hblock' hls'
    exact h b' i' op l ⟨block', ls', hblock', hop, hls', hl⟩ (.inl hlt)
  · have hlen : block.ops.length = ls.length := by
      obtain ⟨hb, hbget⟩ := List.getElem?_eq_some_iff.mp hblock
      obtain ⟨hb', hbget'⟩ := List.getElem?_eq_some_iff.mp hls
      have := (List.forall₂_iff_get.mp hshape).2 b hb hb'
      simpa only [List.get_eq_getElem, hbget, hbget'] using this
    apply List.forall₂_iff_get.mpr
    refine ⟨by rw [List.length_take, List.length_take, hlen], fun i' hi hi' => ?_⟩
    have hlt : i' < i := by
      rw [List.length_take] at hi
      omega
    rw [List.length_take] at hi hi'
    refine h b i' _ _ ⟨block, ls, hblock, ?_, hls, ?_⟩ (.inr ⟨rfl, hlt⟩)
    · rw [List.getElem?_eq_getElem (by omega)]
      simp
    · rw [List.getElem?_eq_getElem (by omega)]
      simp

/-- Emitting a plan is emitting its ops one after another. -/
theorem emit_flat
    (hshape : List.Forall₂ (fun block ls => block.ops.length = ls.length)
      plan.blocks layout.instructionLayouts) :
    emit I plan layout container
      = emitOps I (layout.context container) (plan.blocks.flatMap RewriteBlock.ops)
          layout.instructionLayouts.flatten .empty := by
  unfold emit
  rw [← List.append_nil layout.instructionLayouts, emitBlocks_flat hshape, List.append_nil]

variable (I container) in
/-- Emitting a plan is emitting up to an op position, then the op and the rest. -/
theorem emit_split
    (hshape : List.Forall₂ (fun block ls => block.ops.length = ls.length)
      plan.blocks layout.instructionLayouts)
    {b i : Nat} {block : RewriteBlock Mn Rg Op Mk} {ls : List InstructionLayout}
    {op : RewriteOp Mn Rg Op Mk} {l : InstructionLayout} (hblock : plan.blocks[b]? = some block)
    (hop : block.ops[i]? = some op) (hls : layout.instructionLayouts[b]? = some ls)
    (hl : ls[i]? = some l) :
    ∃ opsB lsB,
      layout.instructionLayouts.flatten
        = ((layout.instructionLayouts.take b).flatten ++ ls.take i) ++ l :: lsB ∧
      emitBlocks I (layout.context container) (plan.blocksBefore b i)
          layout.instructionLayouts .empty
        = emitOps I (layout.context container)
            ((plan.blocks.take b).flatMap RewriteBlock.ops ++ block.ops.take i)
            ((layout.instructionLayouts.take b).flatten ++ ls.take i) .empty ∧
      emit I plan layout container
        = (emitBlocks I (layout.context container) (plan.blocksBefore b i)
              layout.instructionLayouts .empty).bind
            (fun before => emitOps I (layout.context container) (op :: opsB) (l :: lsB) before) := by
  have hops := eq_take_cons_drop hop
  have hlss := eq_take_cons_drop hl
  have hi : i < block.ops.length := (List.getElem?_eq_some_iff.mp hop).1
  have hi' : i < ls.length := (List.getElem?_eq_some_iff.mp hl).1
  have htake : List.Forall₂ (fun block ls => block.ops.length = ls.length)
      (plan.blocks.take b) (layout.instructionLayouts.take b) := List.forall₂_take b hshape
  have hflatOps : plan.blocks.flatMap RewriteBlock.ops
      = ((plan.blocks.take b).flatMap RewriteBlock.ops ++ block.ops.take i)
        ++ op :: (block.ops.drop (i + 1)
          ++ (plan.blocks.drop (b + 1)).flatMap RewriteBlock.ops) := by
    conv_lhs => rw [eq_take_cons_drop hblock, List.flatMap_append, List.flatMap_cons, hops]
    simp
  have hflatLs : layout.instructionLayouts.flatten
      = ((layout.instructionLayouts.take b).flatten ++ ls.take i)
        ++ l :: (ls.drop (i + 1) ++ (layout.instructionLayouts.drop (b + 1)).flatten) := by
    conv_lhs => rw [eq_take_cons_drop hls, List.flatten_append, List.flatten_cons, hlss]
    simp
  have hlen : ((plan.blocks.take b).flatMap RewriteBlock.ops ++ block.ops.take i).length
      = ((layout.instructionLayouts.take b).flatten ++ ls.take i).length := by
    rw [List.length_append, List.length_append, List.length_flatMap, List.length_flatten,
      map_eq_map_of_forall₂ htake, List.length_take, List.length_take]
    omega
  have hbefore := emitBlocks_before I (layout.context container) hshape hblock hls hi.le
    hi'.le .empty
  refine ⟨block.ops.drop (i + 1) ++ (plan.blocks.drop (b + 1)).flatMap RewriteBlock.ops, _, hflatLs,
    hbefore, ?_⟩
  rw [hbefore, emit_flat hshape, hflatOps, hflatLs, emitOps_append hlen]

/-- A run cut at an op position: the output before the op, after it, and the
ops and layouts on either side. -/
theorem emit_cut (hframe : I.MacroFrame)
    (hshape : List.Forall₂ (fun block ls => block.ops.length = ls.length)
      plan.blocks layout.instructionLayouts)
    {out : EmitOutput} (he : emit I plan layout container = .ok out)
    {b i : Nat} {block : RewriteBlock Mn Rg Op Mk} {ls : List InstructionLayout}
    {op : RewriteOp Mn Rg Op Mk} {l : InstructionLayout} (hblock : plan.blocks[b]? = some block)
    (hop : block.ops[i]? = some op) (hls : layout.instructionLayouts[b]? = some ls)
    (hl : ls[i]? = some l) :
    ∃ lsB before piece,
      layout.instructionLayouts.flatten
        = ((layout.instructionLayouts.take b).flatten ++ ls.take i) ++ l :: lsB ∧
      emitBlocks I (layout.context container) (plan.blocksBefore b i)
        layout.instructionLayouts .empty = .ok before ∧
      emitOps I (layout.context container)
        ((plan.blocks.take b).flatMap RewriteBlock.ops ++ block.ops.take i)
        ((layout.instructionLayouts.take b).flatten ++ ls.take i) .empty = .ok before ∧
      emitOp I op l (layout.context container) .empty = .ok piece ∧
      (before.append piece).bytes <+: out.bytes := by
  obtain ⟨opsB, lsB, hflatLs, hflat, hsplit⟩ :=
    emit_split I container hshape hblock hop hls hl
  rw [hsplit] at he
  cases hbefore : emitBlocks I (layout.context container) (plan.blocksBefore b i)
      layout.instructionLayouts .empty with
  | error e => rw [hbefore] at he; cases he
  | ok before =>
    rw [hbefore] at he
    simp only [Except.bind, emitOps, bind] at he
    rw [emitOp_append hframe] at he
    cases hpiece : emitOp I op l (layout.context container) .empty with
    | error e => rw [hpiece] at he; cases he
    | ok piece =>
      rw [hpiece] at he
      exact ⟨lsB, before, piece, hflatLs, rfl, hflat.symm.trans hbefore, rfl,
        emitOps_prefix hframe he⟩

/-- When the ops before a position fit, the op there starts at its address. -/
theorem emit_position (hframe : I.MacroFrame) {sizeProbe : Bool}
    (hlaid : LaidOut I plan base container sizeProbe layout) {out : EmitOutput}
    (he : emit I plan layout container = .ok out) {b i : Nat} {op : RewriteOp Mn Rg Op Mk}
    {l : InstructionLayout} (hat : OpAt plan layout b i op l)
    (hfit : FitBefore I plan layout container b i) :
    ∃ before piece,
      emitBlocks I (layout.context container) (plan.blocksBefore b i)
        layout.instructionLayouts .empty = .ok before ∧
      emitOp I op l (layout.context container) .empty = .ok piece ∧
      (before.append piece).bytes <+: out.bytes ∧
      l.address = layout.baseAddress + BitVec.ofNat 64 before.bytes.length := by
  have hshape := hlaid.reserved.shape
  obtain ⟨block, ls, hblock, hop, hls, hl⟩ := hat
  obtain ⟨lsB, before, piece, hlsEq, hbefore, hrun, hpiece, hprefix⟩ :=
    emit_cut hframe hshape he hblock hop hls hl
  have hlen := emitOps_length hframe (hfit.flat hshape hblock hls) hrun
  have htiled := hlaid.tiled
  rw [hlsEq, List.map_append, List.map_cons] at htiled
  have haddress := htiled.address_eq
  rw [List.map_map] at haddress
  have haddress' : l.address = base
      + (((layout.instructionLayouts.take b).flatten ++ ls.take i).map
          InstructionLayout.size).sum := haddress
  refine ⟨before, piece, hbefore, hpiece, hprefix, ?_⟩
  rw [hlaid.baseAddress, hlen]
  simpa using haddress'

/-- **Layout and emit agree** exactly when every op fits its layout. -/
theorem emittedAsLaidOut_iff (hframe : I.MacroFrame) {sizeProbe : Bool}
    (hlaid : LaidOut I plan base container sizeProbe layout) {out : EmitOutput}
    (he : emit I plan layout container = .ok out) :
    EmittedAsLaidOut I plan layout container out ↔ AllFit I plan layout container := by
  have hshape := hlaid.reserved.shape
  constructor
  · rintro ⟨-, hops⟩ b i op l hat piece hpiece
    obtain ⟨before, after, bytes, -, hafter, hbytes, -, -, hsize⟩ := hops b i op l hat
    rw [emitOp_append hframe, hpiece] at hafter
    have heq : before.append piece = after := Except.ok.inj hafter
    rw [← heq, EmitOutput.bytes_append, List.append_cancel_left_eq] at hbytes
    rw [hsize, hbytes]
  · intro hfit
    have hflat : List.Forall₂ (Fits I (layout.context container))
        (plan.blocks.flatMap RewriteBlock.ops) layout.instructionLayouts.flatten :=
      forall₂_of_positions hshape fun b i block ls op l hblock hop hls hl =>
        hfit b i op l ⟨block, ls, hblock, hop, hls, hl⟩
    refine ⟨?_, ?_⟩
    · have hlen := emitOps_length hframe hflat ((emit_flat hshape).symm.trans he)
      have hstop := hlaid.tiled.stop_eq
      rw [List.map_map] at hstop
      have htotal : layout.totalSize
          = (layout.instructionLayouts.flatten.map InstructionLayout.size).sum :=
        (BitVec.add_right_inj base).mp hstop
      rw [htotal, hlen]
      simp
    · intro b i op l hat
      obtain ⟨before, piece, hbefore, hpiece, hprefix, haddress⟩ :=
        emit_position hframe hlaid he hat (fun b' i' op l hat' _ => hfit b' i' op l hat')
      refine ⟨before, before.append piece, piece.bytes, hbefore, ?_, rfl, hprefix, haddress,
        hfit b i op l hat piece hpiece⟩
      rw [emitOp_append hframe, hpiece]
      rfl

/-- When every op fits its layout, every block starts at its address. -/
theorem emit_blockStart (hframe : I.MacroFrame) {sizeProbe : Bool}
    (hlaid : LaidOut I plan base container sizeProbe layout) {out : EmitOutput}
    (he : emit I plan layout container = .ok out) (hfit : AllFit I plan layout container)
    {b : Nat} (hb : b < plan.blocks.length) :
    ∃ before,
      emitBlocks I (layout.context container) (plan.blocks.take b)
        (layout.instructionLayouts.take b) .empty = .ok before ∧
      before.bytes <+: out.bytes ∧
      layout.blockAddresses[b]? = some (layout.baseAddress + BitVec.ofNat 64 before.bytes.length) := by
  have hshape := hlaid.reserved.shape
  have htake : List.Forall₂ (fun block ls => block.ops.length = ls.length)
      (plan.blocks.take b) (layout.instructionLayouts.take b) := List.forall₂_take b hshape
  have hflat : List.Forall₂ (Fits I (layout.context container))
      ((plan.blocks.take b).flatMap RewriteBlock.ops)
      (layout.instructionLayouts.take b).flatten := by
    refine forall₂_of_positions htake fun b' i block ls op l hblock hop hls hl => ?_
    have hlt : b' < b := by
      have := (List.getElem?_eq_some_iff.mp hblock).1
      rw [List.length_take] at this
      omega
    rw [List.getElem?_take_of_lt hlt] at hblock hls
    exact hfit b' i op l ⟨block, ls, hblock, hop, hls, hl⟩
  have hsplit : emit I plan layout container
      = (emitBlocks I (layout.context container) (plan.blocks.take b)
            (layout.instructionLayouts.take b) .empty).bind
          (fun before => emitBlocks I (layout.context container) (plan.blocks.drop b)
            (layout.instructionLayouts.drop b) before) := by
    rw [← emitBlocks_append htake, List.take_append_drop, List.take_append_drop]
    rfl
  rw [hsplit] at he
  cases hbefore : emitBlocks I (layout.context container) (plan.blocks.take b)
      (layout.instructionLayouts.take b) .empty with
  | error e => rw [hbefore] at he; cases he
  | ok before =>
    rw [hbefore] at he
    have hrun := hbefore
    rw [← List.append_nil (layout.instructionLayouts.take b), emitBlocks_flat htake] at hrun
    have hrest : emitOps I (layout.context container)
        ((plan.blocks.drop b).flatMap RewriteBlock.ops)
        (layout.instructionLayouts.drop b).flatten before = .ok out := by
      have hdrop : List.Forall₂ (fun block ls => block.ops.length = ls.length)
          (plan.blocks.drop b) (layout.instructionLayouts.drop b) := List.forall₂_drop b hshape
      have hflatRest : emitBlocks I (layout.context container) (plan.blocks.drop b)
          (layout.instructionLayouts.drop b ++ []) before = _ := emitBlocks_flat hdrop before
      rw [List.append_nil] at hflatRest
      exact hflatRest.symm.trans he
    refine ⟨before, rfl, emitOps_prefix hframe hrest, ?_⟩
    rw [hlaid.blockAddress b hb, hlaid.baseAddress, emitOps_length hframe hflat hrun]
    simp

/-! ## §5. Where emission stops. -/

/-- Emission comes to op `i` of block `b`: everything before it was emitted. -/
def Reached (I : Isa Mn Rg Op E Mk Di) (plan : RewritePlan Mn Rg Op Mk) (layout : Layout)
    (container : Option Container) (b i : Nat) : Prop :=
  ∃ before, emitBlocks I (layout.context container) (plan.blocksBefore b i)
    layout.instructionLayouts .empty = .ok before

/-- Emission comes to op `i` of block `b` and the op fails. -/
def FailsAt (I : Isa Mn Rg Op E Mk Di) (plan : RewritePlan Mn Rg Op Mk) (layout : Layout)
    (container : Option Container) (b i : Nat) (op : RewriteOp Mn Rg Op Mk) (e : EmitError E) :
    Prop :=
  ∃ l, OpAt plan layout b i op l ∧ Reached I plan layout container b i ∧
    emitOp I op l (layout.context container) .empty = .error e

omit [DecidableEq Mn] [DecidableEq Op] in
theorem map_eq_error {α β : Type} {x : Except (EmitError E) α} {f : α → β} {e : EmitError E} :
    x.map f = .error e ↔ x = .error e := by
  cases x <;> simp [Except.map]

/-- A run of ops fails where it comes to an op that fails. -/
theorem emitOps_error {ops : List (RewriteOp Mn Rg Op Mk)} {ls : List InstructionLayout}
    (hlen : ops.length = ls.length) {out : EmitOutput} {e : EmitError E}
    (h : emitOps I ctx ops ls out = .error e) :
    ∃ i op l before, ops[i]? = some op ∧ ls[i]? = some l ∧
      emitOps I ctx (ops.take i) ls out = .ok before ∧ emitOp I op l ctx before = .error e := by
  induction ops generalizing ls out with
  | nil => cases h
  | cons op ops ih =>
    cases ls with
    | nil => simp at hlen
    | cons l ls =>
      rcases bind_eq_error.mp h with hop | ⟨mid, hmid, hrest⟩
      · exact ⟨0, op, l, out, rfl, rfl, rfl, hop⟩
      · obtain ⟨i, op', l', before, hop, hl, hbefore, hfails⟩ := ih (by simpa using hlen) hrest
        refine ⟨i + 1, op', l', before, hop, hl, ?_, hfails⟩
        rw [List.take_succ_cons, emitOps_cons hmid]
        exact hbefore

/-- A run of blocks fails where it comes to an op that fails. -/
theorem emitBlocks_error {blocks : List (RewriteBlock Mn Rg Op Mk)}
    {layouts : List (List InstructionLayout)}
    (hshape : List.Forall₂ (fun block ls => block.ops.length = ls.length) blocks layouts)
    {out : EmitOutput} {e : EmitError E} (h : emitBlocks I ctx blocks layouts out = .error e) :
    ∃ b i block ls op l before, blocks[b]? = some block ∧ layouts[b]? = some ls ∧
      block.ops[i]? = some op ∧ ls[i]? = some l ∧
      emitBlocks I ctx (RewritePlan.blocksBefore ⟨blocks⟩ b i) layouts out = .ok before ∧
      emitOp I op l ctx before = .error e := by
  induction hshape generalizing out with
  | nil => cases h
  | @cons block ls blocks layouts hlen _ ih =>
    rcases bind_eq_error.mp h with hops | ⟨mid, hmid, hrest⟩
    · obtain ⟨i, op, l, before, hop, hl, hbefore, hfails⟩ := emitOps_error hlen hops
      refine ⟨0, i, block, ls, op, l, before, rfl, rfl, hop, hl, ?_, hfails⟩
      show emitBlocks I ctx [{ block with ops := block.ops.take i }] (ls :: layouts) out = _
      rw [emitBlocks_cons hbefore]
      cases layouts <;> rfl
    · obtain ⟨b, i, block', ls', op, l, before, hblock, hls, hop, hl, hbefore, hfails⟩ := ih hrest
      refine ⟨b + 1, i, block', ls', op, l, before, hblock, hls, hop, hl, ?_, hfails⟩
      show emitBlocks I ctx (block :: RewritePlan.blocksBefore ⟨blocks⟩ b i) (ls :: layouts) out = _
      rw [emitBlocks_cons hmid]
      exact hbefore

/-- **Emission fails exactly where it comes to an op that fails.** -/
theorem emit_eq_error_iff (hframe : I.MacroFrame)
    (hshape : List.Forall₂ (fun block ls => block.ops.length = ls.length)
      plan.blocks layout.instructionLayouts) {e : EmitError E} :
    emit I plan layout container = .error e ↔
      ∃ b i op, FailsAt I plan layout container b i op e := by
  constructor
  · intro h
    obtain ⟨b, i, block, ls, op, l, before, hblock, hls, hop, hl, hbefore, hfails⟩ :=
      emitBlocks_error hshape h
    rw [emitOp_append hframe, map_eq_error] at hfails
    exact ⟨b, i, op, l, ⟨block, ls, hblock, hop, hls, hl⟩, ⟨before, hbefore⟩, hfails⟩
  · rintro ⟨b, i, op, l, ⟨block, ls, hblock, hop, hls, hl⟩, ⟨before, hbefore⟩, hfails⟩
    obtain ⟨opsB, lsB, -, -, hsplit⟩ :=
      emit_split I container hshape hblock hop hls hl
    have hop' : emitOp I op l (layout.context container) before = .error e := by
      rw [emitOp_append hframe, map_eq_error]
      exact hfails
    rw [hsplit, hbefore]
    show emitOps I (layout.context container) (op :: opsB) (l :: lsB) before = .error e
    rw [emitOps, hop']
    rfl

end Armv8Encode

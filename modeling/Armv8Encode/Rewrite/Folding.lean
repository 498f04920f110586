/-
  Armv8Encode.Rewrite.Folding — when emit records no relocation.

  An instruction folds its references when none of its symbols needs a
  relocation, or when its source bytes are copied as they are; raw bytes have
  none; a macro is asked of its instruction set.  The output of a plan is
  without relocations exactly when every op of the plan folds at its place.
-/
import Armv8Encode.Rewrite.EmitSpec

namespace Armv8Encode

open Lib

variable {Mn Rg Op E Mk Di : Type} [DecidableEq Mn] [DecidableEq Op]

/-- No symbolic operand needs a relocation, or the source bytes are copied. -/
def InstructionFolds (I : Isa Mn Rg Op E Mk Di) (ctx : EmitContext) (i : RewriteInstruction Mn Op)
    (l : InstructionLayout) : Prop :=
  ctx.relocationOf (E := E) i = .ok none ∨
    (ctx.isRelocatable = false ∧
      (verbatimBytes I i l.address ctx.blockAddresses ctx.container).isSome = true)

/-- Emitted at its place, an op records no relocation. -/
def OpFolds (I : Isa Mn Rg Op E Mk Di) (ctx : EmitContext) (op : RewriteOp Mn Rg Op Mk)
    (l : InstructionLayout) : Prop :=
  match op with
  | .instruction i => InstructionFolds I ctx i l
  | .macroOp m =>
    ∀ piece, I.emitMacro m l.address ctx .empty = .ok piece → piece.relocations = []
  | .raw _ => True

/-- Every op of a plan folds where the layout puts it. -/
def PlanFolds (I : Isa Mn Rg Op E Mk Di) (plan : RewritePlan Mn Rg Op Mk) (layout : Layout)
    (container : Option Container) : Prop :=
  ∀ b i op l, OpAt plan layout b i op l → OpFolds I (layout.context container) op l

variable {I : Isa Mn Rg Op E Mk Di} {ctx : EmitContext}

omit [DecidableEq Mn] [DecidableEq Op] in
theorem emitWithRelocation_ok {i : RewriteInstruction Mn Op} {here : U64} {symbol : SymbolId}
    {kind : PcRelKind} {relocKind : RelocationKind} {bytes : List Byte} (out : EmitOutput)
    (hkind : I.relocationKindFor i.mnemonic kind = some relocKind)
    (hencode : I.encode i.mnemonic (i.operands.map (placeholderOperand I here)) here = .ok bytes) :
    emitWithRelocation I i here symbol kind out
      = .ok ⟨out.bytes ++ bytes,
          out.relocations ++ [⟨BitVec.ofNat 64 out.bytes.length, relocKind, symbol, 0⟩]⟩ := by
  rw [emitWithRelocation, hkind, hencode]

omit [DecidableEq Mn] [DecidableEq Op] in
theorem emitWithRelocation_relocations {i : RewriteInstruction Mn Op} {here : U64}
    {symbol : SymbolId} {kind : PcRelKind} {out out' : EmitOutput}
    (h : emitWithRelocation I i here symbol kind out = .ok out') : out'.relocations ≠ [] := by
  unfold emitWithRelocation at h
  split at h
  · cases h
  split at h
  · cases h
  · cases h
    simp

/-- What an op emitted on its own is without relocations when it folds. -/
theorem emitOp_relocations {op : RewriteOp Mn Rg Op Mk} {l : InstructionLayout}
    {piece : EmitOutput} (h : emitOp I op l ctx .empty = .ok piece) :
    piece.relocations = [] ↔ OpFolds I ctx op l := by
  cases op with
  | instruction i =>
    cases emitInstruction_iff.mp h with
    | verbatim reloc raw hreloc hkeeps hraw hout =>
      subst hout
      refine iff_of_true rfl ?_
      cases reloc with
      | none => exact .inl hreloc
      | some r => exact .inr ⟨by simpa using hkeeps, by rw [hraw]; rfl⟩
    | placeholder symbol kind hreloc hnot hout =>
      refine iff_of_false (emitWithRelocation_relocations hout) ?_
      rintro (hnone | ⟨hlinked, hcopied⟩)
      · cases hreloc.symm.trans hnone
      · obtain hrelocatable | hverbatim := hnot
        · cases hrelocatable.symm.trans hlinked
        · rw [hverbatim] at hcopied
          cases hcopied
    | encoded bytes hreloc hnot hencoded hout =>
      subst hout
      exact iff_of_true rfl (.inl hreloc)
  | macroOp m =>
    have hmacro : I.emitMacro m l.address ctx .empty = .ok piece := by
      simp only [emitOp] at h
      split at h
      · cases h
      · next out' hout =>
        cases h
        exact hout
    constructor
    · intro hnone piece' hpiece
      rw [Except.ok.inj (hpiece.symm.trans hmacro)]
      exact hnone
    · intro hfolds
      exact hfolds piece hmacro
  | raw bytes =>
    cases h
    exact iff_of_true rfl trivial

theorem relocations_append_eq_nil {a b : EmitOutput} :
    (a.append b).relocations = [] ↔ a.relocations = [] ∧ b.relocations = [] := by
  simp [EmitOutput.append]

/-- A run records nothing exactly when nothing was there and every op folds. -/
theorem emitOps_relocations (hframe : I.MacroFrame) {ops : List (RewriteOp Mn Rg Op Mk)}
    {ls : List InstructionLayout} {out out' : EmitOutput}
    (h : emitOps I ctx ops ls out = .ok out') :
    out'.relocations = [] ↔ out.relocations = [] ∧
      ∀ (i : Nat) op l, ops[i]? = some op → ls[i]? = some l → OpFolds I ctx op l := by
  induction ops generalizing ls out with
  | nil =>
    cases h
    simp
  | cons op ops ih =>
    cases ls with
    | nil => cases h
    | cons l ls =>
      simp only [emitOps, bind] at h
      rw [emitOp_append hframe] at h
      cases hop : emitOp I op l ctx .empty with
      | error e =>
        rw [hop] at h
        cases h
      | ok piece =>
        rw [hop] at h
        rw [ih h, relocations_append_eq_nil, emitOp_relocations hop]
        constructor
        · rintro ⟨⟨hout, hfirst⟩, hrest⟩
          refine ⟨hout, fun i op' l' hop' hl' => ?_⟩
          cases i with
          | zero =>
            cases hop'
            cases hl'
            exact hfirst
          | succ i => exact hrest i op' l' hop' hl'
        · rintro ⟨hout, hall⟩
          exact ⟨⟨hout, hall 0 op l rfl rfl⟩, fun i op' l' hop' hl' =>
            hall (i + 1) op' l' hop' hl'⟩

theorem emitBlocks_relocations (hframe : I.MacroFrame) {blocks : List (RewriteBlock Mn Rg Op Mk)}
    {layouts : List (List InstructionLayout)} {out out' : EmitOutput}
    (h : emitBlocks I ctx blocks layouts out = .ok out') :
    out'.relocations = [] ↔ out.relocations = [] ∧
      ∀ (b : Nat) (block : RewriteBlock Mn Rg Op Mk) (ls : List InstructionLayout) (i : Nat) op l,
        blocks[b]? = some block → layouts[b]? = some ls →
        block.ops[i]? = some op → ls[i]? = some l → OpFolds I ctx op l := by
  induction blocks generalizing layouts out with
  | nil =>
    cases h
    simp
  | cons block blocks ih =>
    cases layouts with
    | nil =>
      simp only [emitBlocks] at h
      split at h
      · rw [ih h]
        simp
      · cases h
    | cons ls layouts =>
      obtain ⟨mid, hmid, h⟩ := bind_eq_ok.mp h
      rw [ih h, emitOps_relocations hframe hmid]
      constructor
      · rintro ⟨⟨hout, hfirst⟩, hrest⟩
        refine ⟨hout, fun b block' ls' i op l hblock hls => ?_⟩
        cases b with
        | zero =>
          cases hblock
          cases hls
          exact hfirst i op l
        | succ b => exact hrest b block' ls' i op l hblock hls
      · rintro ⟨hout, hall⟩
        exact ⟨⟨hout, fun i op l => hall 0 block ls i op l rfl rfl⟩,
          fun b block' ls' i op l hblock hls => hall (b + 1) block' ls' i op l hblock hls⟩

/-- An emitted plan is without relocations exactly when it folds. -/
theorem emit_relocations_iff (hframe : I.MacroFrame) {plan : RewritePlan Mn Rg Op Mk}
    {layout : Layout} {container : Option Container} {out : EmitOutput}
    (h : emit I plan layout container = .ok out) :
    out.relocations = [] ↔ PlanFolds I plan layout container := by
  rw [emitBlocks_relocations hframe h]
  constructor
  · rintro ⟨-, hall⟩ b i op l ⟨block, ls, hblock, hop, hls, hl⟩
    exact hall b block ls i op l hblock hls hop hl
  · intro hfolds
    exact ⟨rfl, fun b block ls i op l hblock hls hop hl =>
      hfolds b i op l ⟨block, ls, hblock, hop, hls, hl⟩⟩

end Armv8Encode

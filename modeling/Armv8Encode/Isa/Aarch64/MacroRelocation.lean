/-
  Armv8Encode.Isa.Aarch64.MacroRelocation — which test a reference meets.

  Whether a reference to a symbol is folded or kept as a relocation is decided
  twice: once for the operands of an instruction, once for a fused pair.  The
  two tests have the same cases in another order.  Only the first one knows
  the trampolines of a Mach-O image, and only the first one folds a section
  symbol in code that belongs to no section.

  Main results:
    * `decisions_eq_iff` — where the two tests answer alike.
    * `pair_relocations` — with one answer, a pair and its halves agree on
      whether relocations appear.
    * `sameDecision_iff` — the law of the two tests, and where it holds.
-/
import Armv8Encode.Isa.Aarch64.MacroSplit
import Armv8Encode.Rewrite.Folding

namespace Armv8Encode

open Lib

/-! ## §1. The two tests. -/

variable {c : Container} {id : SymbolId} {current : Option SectionId}

/-- The macro's test misses a case: an import with a Mach-O trampoline and no
PLT stub, or a section symbol that code of no section refers to. -/
def MacroTestMisses (c : Container) (id : SymbolId) (current : Option SectionId) : Prop :=
  ∃ s, c.symbol id = some s ∧
    ((s.isUndefined = true ∧ c.pltStub id = none ∧ (c.machoStub id).isSome = true) ∨
      (s.isUndefined = false ∧ s.kind = .sectionSymbol ∧ current = none))

theorem decisions_eq_iff :
    symbolNeedsRelocation c id current = macroSymbolNeedsRelocation c id current ↔
      ¬MacroTestMisses c id current := by
  unfold symbolNeedsRelocation macroSymbolNeedsRelocation MacroTestMisses
  cases hsymbol : c.symbol id with
  | none => simp
  | some s =>
    simp only [bind, Option.bind_some, Option.some.injEq, exists_eq_left']
    cases hundefined : s.isUndefined with
    | true =>
      cases hplt : c.pltStub id with
      | none => cases hmacho : c.machoStub id <;> simp
      | some stub => simp
    | false =>
      by_cases hkind : s.kind = .sectionSymbol
      · cases current <;> simp [hkind]
      · cases current with
        | none => simp [hkind]
        | some home =>
          refine iff_of_true ?_ (by simp [hkind])
          cases s.sectionId <;> simp [hkind]

/-! ## §2. A pair and its halves. -/

/-- A macro of the AArch64 instruction set folds when it is copied as it is, or
its symbol needs no relocation. -/
theorem aarchMacro_relocations_iff {m : AarchMacro} {here : U64} {ctx : EmitContext}
    {piece : EmitOutput} (h : emitAarchMacro m here ctx .empty = .ok piece) :
    piece.relocations = [] ↔
      (verbatimMacro m here ctx).isSome = true ∨ macroRelocation m ctx = .ok none := by
  unfold emitAarchMacro at h
  cases hverbatim : verbatimMacro m here ctx with
  | some raw =>
    rw [hverbatim] at h
    cases h
    exact iff_of_true rfl (.inl rfl)
  | none =>
    rw [hverbatim] at h
    have hrelocated : ∀ relocation, macroRelocation m ctx = .ok relocation →
        (piece.relocations = [] ↔ relocation = none) →
        (piece.relocations = [] ↔
          (none : Option (List Byte)).isSome = true ∨ macroRelocation m ctx = .ok none) := by
      intro relocation hrelocation hiff
      rw [hiff, hrelocation]
      simp
    cases hkind : m.kind with
    | loadAddress =>
      rw [hkind] at h
      obtain ⟨relocation, hrelocation, h⟩ := bind_eq_ok.mp h
      refine hrelocated relocation hrelocation ?_
      cases relocation with
      | some symbol =>
        obtain ⟨adrp, -, h⟩ := bind_eq_ok.mp h
        obtain ⟨add, -, h⟩ := bind_eq_ok.mp h
        cases h
        simp [EmitOutput.push]
      | none =>
        simp only at h
        split at h
        · cases h
        · obtain ⟨adrp, -, h⟩ := bind_eq_ok.mp h
          obtain ⟨add, -, h⟩ := bind_eq_ok.mp h
          cases h
          simp [EmitOutput.push]
    | accessValue =>
      rw [hkind] at h
      simp only [emitAccessValue] at h
      split at h
      · obtain ⟨relocation, hrelocation, h⟩ := bind_eq_ok.mp h
        refine hrelocated relocation hrelocation ?_
        cases relocation with
        | some symbol =>
          obtain ⟨adrp, -, h⟩ := bind_eq_ok.mp h
          obtain ⟨companion, -, h⟩ := bind_eq_ok.mp h
          split at h
          · cases h
          · cases h
            simp [EmitOutput.push]
        | none =>
          obtain ⟨adrp, -, h⟩ := bind_eq_ok.mp h
          obtain ⟨companion, -, h⟩ := bind_eq_ok.mp h
          cases h
          simp [EmitOutput.push]
      · cases h

/-- A fused pair: an `adrp` to a symbol and a companion without a target. -/
structure IsPair (m : AarchMacro) (id : SymbolId) (adrp companion : AarchInstruction) : Prop where
  target : m.target = .symbol id
  originals : m.originalInstructions = [adrp, companion]
  page : ∃ rd, adrp.operands = [.decoded rd, .page (.symbol id)]
  plain : ∃ operands : List DecodedOperand, companion.operands = operands.map .decoded

theorem relocationOf_page {adrp : AarchInstruction} {rd : DecodedOperand} {ctx : EmitContext}
    (hctx : ctx.container = some c) (hpage : adrp.operands = [.decoded rd, .page (.symbol id)]) :
    ctx.relocationOf (E := EncodeError) adrp
      = match symbolNeedsRelocation c id ctx.currentSection with
        | none => .error (.layout .indexOutOfBounds)
        | some true => .ok (some (id, .page))
        | some false => .ok none := by
  unfold EmitContext.relocationOf needsRelocation
  cases hneeds : symbolNeedsRelocation c id ctx.currentSection with
  | none => simp [hctx, hpage, needsRelocationIn, RewriteOperand.symbolic?, hneeds]
  | some needed =>
    cases needed <;> simp [hctx, hpage, needsRelocationIn, RewriteOperand.symbolic?, hneeds]

theorem relocationOf_plain {companion : AarchInstruction} {operands : List DecodedOperand}
    {ctx : EmitContext} (hctx : ctx.container = some c)
    (hplain : companion.operands = operands.map .decoded) :
    ctx.relocationOf (E := EncodeError) companion = .ok none := by
  unfold EmitContext.relocationOf needsRelocation
  rw [hctx, hplain]
  exact needsRelocationIn_decoded c ctx.currentSection operands

/-- A final image copies the pair exactly when it copies the `adrp` by itself. -/
def CopiedAlike (m : AarchMacro) (adrp : AarchInstruction) (here : U64) (ctx : EmitContext) : Prop :=
  ctx.isRelocatable = false → (verbatimMacro m here ctx).isSome
    = (verbatimBytes aarch64 adrp here ctx.blockAddresses ctx.container).isSome

/-- The pair and its halves, emitted at the same place, agree on whether
relocations appear. -/
def PairsAgree (c : Container) (id : SymbolId) (current : Option SectionId) : Prop :=
  ∀ (m : AarchMacro) (adrp companion : AarchInstruction) (here : U64) (first second : InstructionLayout)
    (ctx : EmitContext) (fused head tail : EmitOutput),
    IsPair m id adrp companion → ctx.container = some c → ctx.currentSection = current →
    first.address = here → CopiedAlike m adrp here ctx →
    emitAarchMacro m here ctx .empty = .ok fused →
    emitInstruction aarch64 adrp first ctx .empty = .ok head →
    emitInstruction aarch64 companion second ctx .empty = .ok tail →
    (fused.relocations = [] ↔ head.relocations = [] ∧ tail.relocations = [])

theorem isRelocatable_of_container {ctx : EmitContext} (hctx : ctx.container = some c) :
    ctx.isRelocatable = decide (c.kind = .relocatable) := by
  rw [EmitContext.isRelocatable, hctx]
  rfl

/-- A macro that needs a relocation is not copied in a relocatable object. -/
theorem verbatimMacro_relocatable {m : AarchMacro} {here : U64} {ctx : EmitContext}
    (hctx : ctx.container = some c) (hkind : c.kind = .relocatable) (htarget : m.target = .symbol id)
    (hneeds : macroSymbolNeedsRelocation c id ctx.currentSection = some true) :
    verbatimMacro m here ctx = none := by
  have hkeeps : keepsRelocation m c ctx.currentSection = true := by
    simp only [keepsRelocation, hkind, htarget, hneeds, beq_self_eq_true]
  unfold verbatimMacro
  cases m.originalAddresses.head? with
  | none => rfl
  | some start =>
    simp only [bind, Option.bind_some, hctx, hkeeps, if_true]
    split <;> rfl

/-- With one answer of the two tests, a pair and its halves agree. -/
theorem pair_relocations
    (hsame : symbolNeedsRelocation c id current = macroSymbolNeedsRelocation c id current) :
    PairsAgree c id current := by
  intro m adrp companion here first second ctx fused head tail hpair hctx hcurrent hhere hcopied
    hfused hhead htail
  subst hhere
  subst hcurrent
  obtain ⟨rd, hpage⟩ := hpair.page
  obtain ⟨operands, hplain⟩ := hpair.plain
  have hadrp := relocationOf_page (c := c) hctx hpage
  have htailOp : emitOp aarch64 (.instruction companion) second ctx EmitOutput.empty = .ok tail :=
    htail
  have hheadOp : emitOp aarch64 (.instruction adrp) first ctx EmitOutput.empty = .ok head := hhead
  have hcompanion : tail.relocations = [] :=
    (emitOp_relocations htailOp).mpr
      (.inl (relocationOf_plain hctx hplain))
  have hhalf : head.relocations = [] ↔ InstructionFolds aarch64 ctx adrp first :=
    emitOp_relocations hheadOp
  have hfirst := aarchMacro_relocations_iff hfused
  have hrelocation : macroRelocation m ctx
      = match macroSymbolNeedsRelocation c id ctx.currentSection with
        | none => .error .indexOutOfBounds
        | some true => .ok (some id)
        | some false => .ok none := by
    unfold macroRelocation
    cases hneeds : macroSymbolNeedsRelocation c id ctx.currentSection with
    | none => simp only [hpair.target, hctx, hneeds]
    | some needed => cases needed <;> simp only [hpair.target, hctx, hneeds]
  rw [hfirst, hhalf, and_iff_left hcompanion]
  unfold InstructionFolds
  rw [hadrp, hrelocation, ← hsame]
  cases hneeds : symbolNeedsRelocation c id ctx.currentSection with
  | none =>
    -- an id without a symbol is an error of the `adrp`
    obtain ⟨reloc, hreloc, -⟩ := bind_eq_ok.mp hhead
    rw [hadrp, hneeds] at hreloc
    cases hreloc
  | some needs =>
    cases needs with
    | false => simp
    | true =>
      simp only [reduceCtorEq, or_false, false_or, Except.ok.injEq]
      cases hrelocatable : ctx.isRelocatable with
      | true =>
        have hkind := hrelocatable
        rw [isRelocatable_of_container hctx, decide_eq_true_eq] at hkind
        rw [verbatimMacro_relocatable hctx hkind hpair.target (hsame ▸ hneeds)]
        simp
      | false =>
        rw [hcopied hrelocatable]
        simp

/-! ## §3. The law. -/

/-- A defined symbol, or an import with a trampoline. -/
def IsBound (c : Container) (id : SymbolId) : Prop :=
  ∃ s, c.symbol id = some s ∧
    (s.isUndefined = false ∨ (c.pltStub id).isSome = true ∨ (c.machoStub id).isSome = true)

/-- The two tests are one decision. -/
structure SameDecision (c : Container) (id : SymbolId) (current : Option SectionId) : Prop where
  same : symbolNeedsRelocation c id current = macroSymbolNeedsRelocation c id current
  pairs : PairsAgree c id current
  /-- Code without a section in a final image asks for no relocation. -/
  final : c.kind ≠ .relocatable → current = none → IsBound c id →
    symbolNeedsRelocation c id current = some false ∧
      macroSymbolNeedsRelocation c id current = some false

/-- In code without a section the instruction's test folds what is bound. -/
theorem symbolNeedsRelocation_bound (h : IsBound c id) :
    symbolNeedsRelocation c id none = some false := by
  obtain ⟨s, hsymbol, hbound⟩ := h
  unfold symbolNeedsRelocation
  rw [hsymbol]
  simp only [bind, Option.bind_some]
  cases hundefined : s.isUndefined with
  | false => rfl
  | true =>
    rw [hundefined] at hbound
    obtain hfalse | hplt | hmacho := hbound
    · cases hfalse
    · simp [hplt]
    · simp [hmacho]

/-- A final image that loads the address of an import, with its trampoline. -/
def stubbedImage : Container :=
  { externObject with
    format := .macho
    kind := .sharedObject
    machoImage := some ⟨[(⟨0⟩, 0x4000)]⟩ }

end Armv8Encode

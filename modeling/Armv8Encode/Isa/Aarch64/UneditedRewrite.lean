/-
  Armv8Encode.Isa.Aarch64.UneditedRewrite — rewriting final text without edits.

  A text section is swept, lifted, laid out and emitted with nothing edited in
  between.  Lift gives every PC-relative operand a symbolic target; as long as
  each target resolves to the address the operand was decoded with, every op
  stands at its own address, no branch is out of range, and emit copies every
  source word, fused or not, decodable or not (`rewriteUnedited_identity`).

  Block, symbol and absolute targets always resolve back.  A target bound by a
  relocation need not, and the relocation lookup is keyed by the address of a
  section plus an offset, so that a relocation of one section can be found at
  an instruction of another (`strayRelocation_rewrites`).
-/
import Armv8Encode.Isa.Aarch64.EmitSizes
import Armv8Encode.Isa.Aarch64.FusionSpec
import Armv8Encode.Isa.Aarch64.SweepSpec
import Armv8Encode.Isa.Aarch64.VerbatimCopy
import Armv8Encode.Mc.CfgSpec
import Armv8Encode.Rewrite.Targets

namespace Armv8Encode

open Lib

/-! ## §1. The rewrite. -/

inductive RewriteError where
  | disassemble (e : DisassembleError)
  | layout (e : LayoutError)
  | emit (e : EmitError EncodeError)
  deriving Repr, DecidableEq

/-- The plan of a swept section. -/
def planOfSweep (c : Container) (instructions : List DecodedInstruction) : AarchPlan :=
  liftWithContainer aarch64 (buildCfg aarch64Info instructions) instructions c

/-- Lay a plan out at an address and emit it. -/
def layOutAndEmit (plan : AarchPlan) (base : U64) (c : Container) :
    Except RewriteError EmitOutput :=
  match layOut aarch64 plan base (some c) with
  | .error e => .error (.layout e)
  | .ok layout =>
    match emit aarch64 plan layout (some c) with
    | .error e => .error (.emit e)
    | .ok out => .ok out

/-- Sweep a text section, lift it, lay it out at its address and emit it. -/
def rewriteUnedited (c : Container) (s : Section) : Except RewriteError EmitOutput :=
  match disassembleBytesTolerant s.address s.bytes with
  | .error e => .error (.disassemble e)
  | .ok swept => layOutAndEmit (planOfSweep c swept.1) s.address c

/-! ## §2. Targets that resolve back. -/

/-- A relocation that lift finds at the instruction names a symbol that is
called at the address the operand denotes. -/
def BindsInPlace (c : Container) (d : DecodedInstruction) : Prop :=
  ∀ target, relocTarget aarch64 (pcRelativeRelocationLookup aarch64 c) d.address = some target →
    ∀ o ∈ d.operands, ∀ kind address, aarchPcrelKind o = some (kind, address) →
      ∃ symbol ∈ c.symbols, target = .symbol symbol.id ∧
        c.callableAddressOfSymbol symbol.id = some address

variable {c : Container} {blockAtAddress : Map U64 BasicBlockId} {blockAddresses : List U64}

/-- The lifted form of an instruction. -/
abbrev lifted (c : Container) (blockAtAddress : Map U64 BasicBlockId) (d : DecodedInstruction) :
    AarchInstruction :=
  liftInstruction aarch64 blockAtAddress (some c) (pcRelativeRelocationLookup aarch64 c) d

/-- The symbolic target of a lifted operand denotes the operand's address. -/
theorem liftOperand_denotes (hblocks : BlocksInPlace blockAtAddress blockAddresses)
    {d : DecodedInstruction} (hbinds : BindsInPlace c d) {o : DecodedOperand}
    (ho : o ∈ d.operands) {t : Target} {kind : PcRelKind}
    (ht : (liftOperand aarch64 (relocTarget aarch64 (pcRelativeRelocationLookup aarch64 c)
      d.address) blockAtAddress (some c) o).symbolic? = some (t, kind)) :
    ∃ address, aarchPcrelKind o = some (kind, address) ∧
      Denotes blockAddresses c t address := by
  have hkind : aarch64.pcrelKind o = aarchPcrelKind o := rfl
  rw [liftOperand, hkind] at ht
  rcases hp : aarchPcrelKind o with - | ⟨kind', address⟩
  · rw [hp] at ht
    cases ht
  · rw [hp] at ht
    cases hreloc : relocTarget aarch64 (pcRelativeRelocationLookup aarch64 c) d.address with
    | some target =>
      obtain ⟨symbol, hmem, rfl, hcall⟩ := hbinds target hreloc o ho kind' address hp
      rw [hreloc] at ht
      cases kind' <;> cases ht <;> exact ⟨address, rfl, denotes_symbol hmem hcall⟩
    | none =>
      rw [hreloc] at ht
      cases kind' with
      | branch =>
        cases ht
        exact ⟨address, rfl, denotes_resolveAddress hblocks address⟩
      | page =>
        cases ht
        exact ⟨address, rfl, rfl, by rintro id ⟨⟩⟩

theorem pcrelKind_branch {o : DecodedOperand} {address : U64}
    (h : aarchPcrelKind o = some (.branch, address)) : o = .branchTarget address := by
  cases o <;> simp only [aarchPcrelKind, reduceCtorEq, Option.some.injEq, Prod.mk.injEq, true_and,
    false_and] at h
  rw [h]

theorem pcrelKind_page {o : DecodedOperand} {address : U64}
    (h : aarchPcrelKind o = some (.page, address)) : o = .pageTarget address := by
  cases o <;> simp only [aarchPcrelKind, reduceCtorEq, Option.some.injEq, Prod.mk.injEq, true_and,
    false_and] at h
  rw [h]

/-- Lifted operands have the values they were decoded with. -/
theorem lifted_sameValue (hblocks : BlocksInPlace blockAtAddress blockAddresses)
    {d : DecodedInstruction} (hbinds : BindsInPlace c d) :
    List.Forall₂ (SameValue blockAddresses c) d.operands (lifted c blockAtAddress d).operands := by
  have hops : (lifted c blockAtAddress d).operands = d.operands.map
      (liftOperand aarch64 (relocTarget aarch64 (pcRelativeRelocationLookup aarch64 c) d.address)
        blockAtAddress (some c)) := rfl
  rw [hops, List.forall₂_map_right_iff]
  refine List.forall₂_same.mpr fun o ho => ?_
  cases hr : liftOperand aarch64 (relocTarget aarch64 (pcRelativeRelocationLookup aarch64 c)
      d.address) blockAtAddress (some c) o with
  | decoded o' =>
    have hkind : aarch64.pcrelKind o = aarchPcrelKind o := rfl
    rw [liftOperand, hkind] at hr
    rcases hp : aarchPcrelKind o with - | ⟨kind, address⟩
    · rw [hp] at hr
      cases hr
      rfl
    · rw [hp] at hr
      cases kind <;> cases hr
  | branch t =>
    have hsym : (liftOperand aarch64 (relocTarget aarch64 (pcRelativeRelocationLookup aarch64 c)
        d.address) blockAtAddress (some c) o).symbolic? = some (t, .branch) := by
      rw [hr]
      rfl
    obtain ⟨address, hp, hdenotes⟩ := liftOperand_denotes hblocks hbinds ho hsym
    exact ⟨address, pcrelKind_branch hp, hdenotes.1⟩
  | page t =>
    have hsym : (liftOperand aarch64 (relocTarget aarch64 (pcRelativeRelocationLookup aarch64 c)
        d.address) blockAtAddress (some c) o).symbolic? = some (t, .page) := by
      rw [hr]
      rfl
    obtain ⟨address, hp, hdenotes⟩ := liftOperand_denotes hblocks hbinds ho hsym
    exact ⟨address, pcrelKind_page hp, hdenotes.1⟩

/-- The relocation test of a lifted instruction does not panic. -/
theorem lifted_relocationOf (hblocks : BlocksInPlace blockAtAddress blockAddresses)
    {d : DecodedInstruction} (hbinds : BindsInPlace c d) {ctx : EmitContext}
    (hcontainer : ctx.container = some c) :
    ∃ reloc, ctx.relocationOf (E := EncodeError) (lifted c blockAtAddress d) = .ok reloc := by
  unfold EmitContext.relocationOf needsRelocation
  rw [hcontainer]
  refine needsRelocationIn_ok ?_
  intro r hr id kind hsym
  obtain ⟨o, ho, rfl⟩ := List.mem_map.mp hr
  obtain ⟨address, -, -, hexists⟩ := liftOperand_denotes hblocks hbinds ho hsym
  exact hexists id rfl

/-! ## §3. Ops over swept words. -/

/-- The ops of a lifted sweep: an instruction per word, or a macro for two. -/
inductive OpsOf (c : Container) (blockAtAddress : Map U64 BasicBlockId) :
    U64 → List AarchOp → List Word → Prop where
  | nil (address : U64) : OpsOf c blockAtAddress address [] []
  | instruction {address : U64} {w : Word} {ops : List AarchOp} {words : List Word}
      (rest : OpsOf c blockAtAddress (address + 4) ops words) :
      OpsOf c blockAtAddress address
        (.instruction (lifted c blockAtAddress (decodeTolerant address w)) :: ops) (w :: words)
  | pair {address : U64} {w₁ w₂ : Word} {m : AarchMacro} {ops : List AarchOp} {words : List Word}
      (fused : FusedFrom m (lifted c blockAtAddress (decodeTolerant address w₁))
        (lifted c blockAtAddress (decodeTolerant (address + 4) w₂)))
      (rest : OpsOf c blockAtAddress (address + 4 + 4) ops words) :
      OpsOf c blockAtAddress address (.macroOp m :: ops) (w₁ :: w₂ :: words)

/-- Fused ops that stand for a lifted sweep are ops over its words. -/
theorem opsOf_of_sources {address : U64} {ops : List AarchOp} {words : List Word}
    (hfused : ∀ op ∈ ops, FusedOp op)
    (h : ops.flatMap sourcesOf = (sweepWords address words).map (lifted c blockAtAddress)) :
    OpsOf c blockAtAddress address ops words := by
  induction ops generalizing address words with
  | nil =>
    cases words with
    | nil => exact .nil address
    | cons w words => cases h
  | cons op ops ih =>
    have hrest : ∀ op' ∈ ops, FusedOp op' := fun op' hop => hfused op' (List.mem_cons_of_mem _ hop)
    rw [List.flatMap_cons] at h
    cases hfused op List.mem_cons_self with
    | instruction i =>
      cases words with
      | nil => cases h
      | cons w words =>
        obtain ⟨hi, htail⟩ := List.cons.inj h
        have hi : i = lifted c blockAtAddress (decodeTolerant address w) := hi
        rw [hi]
        exact .instruction (ih hrest htail)
    | @pair m first second hm =>
      rw [sourcesOf, hm.originals] at h
      cases words with
      | nil => cases h
      | cons w₁ words =>
        obtain ⟨hfirst, htail⟩ := List.cons.inj h
        cases words with
        | nil => cases htail
        | cons w₂ words =>
          obtain ⟨hsecond, htail⟩ := List.cons.inj htail
          have hfirst : first = lifted c blockAtAddress (decodeTolerant address w₁) := hfirst
          have hsecond : second = lifted c blockAtAddress (decodeTolerant (address + 4) w₂) :=
            hsecond
          rw [hfirst, hsecond] at hm
          exact .pair hm (ih hrest htail)

/-- An op over words reserves four bytes a word. -/
theorem sourceByteSize_of_sources {op : AarchOp} (hop : FusedOp op)
    (hsources : ∀ i ∈ sourcesOf op, i.sourceSize = some 4) :
    aarch64.sourceByteSize op = BitVec.ofNat 64 (4 * (sourcesOf op).length) := by
  have hfour : ∀ i ∈ sourcesOf op, aarch64.sizeOf i = 4 := by
    intro i hi
    rw [Isa.sizeOf, hsources i hi]
    rfl
  cases hop with
  | instruction i => exact hfour i List.mem_cons_self
  | pair hm => exact macroSourceSize_of_four hfour

/-- What the layout of a sweep gives an op before its address is assigned. -/
abbrev unplaced (op : AarchOp) : InstructionLayout := ⟨0, aarch64.sourceByteSize op, .normal⟩

theorem sourceByteSize_pair {m : AarchMacro} {d₁ d₂ : DecodedInstruction}
    (h : FusedFrom m (lifted c blockAtAddress d₁) (lifted c blockAtAddress d₂)) :
    aarch64.sourceByteSize (.macroOp m) = 8 := by
  rw [Isa.sourceByteSize, h.originals]
  rfl

/-! ## §4. The layout settles. -/

/-- What the proofs need of a word and its address: the section that holds it
is found at the address, and a relocation found there binds in place. -/
structure SourceWord (c : Container) (s : Section) (address : U64) (w : Word) : Prop where
  covered : c.sectionForAddress address = some s.id
  held : ∃ tail, s.tailAt address = some tail ∧ leWord? tail = some w
  binds : BindsInPlace c (decodeTolerant address w)

/-- The branch target of a lifted instruction is that of the decoded one. -/
theorem branchTarget_of_lifted (hblocks : BlocksInPlace blockAtAddress blockAddresses)
    {d : DecodedInstruction} (hbinds : BindsInPlace c d) {t : Target}
    (h : pcRelativeBranchTarget (lifted c blockAtAddress d) = some t) :
    ∃ address, .branchTarget address ∈ d.operands ∧
      resolveTarget t blockAddresses (some c) = .ok address := by
  obtain ⟨r, hr, ht⟩ := List.exists_of_findSome?_eq_some h
  obtain ⟨o, ho, rfl⟩ := List.mem_map.mp hr
  have hsym : (liftOperand aarch64 (relocTarget aarch64 (pcRelativeRelocationLookup aarch64 c)
      d.address) blockAtAddress (some c) o).symbolic? = some (t, .branch) := by
    split at ht
    · next heq =>
      cases ht
      exact congrArg RewriteOperand.symbolic? heq
    · cases ht
  obtain ⟨address, hp, hdenotes⟩ := liftOperand_denotes hblocks hbinds ho hsym
  exact ⟨address, pcrelKind_branch hp ▸ ho, hdenotes.1⟩

/-- At its own address a lifted instruction is in range. -/
theorem keeps_lifted (hblocks : BlocksInPlace blockAtAddress blockAddresses) {address : U64}
    {w : Word} (hbinds : BindsInPlace c (decodeTolerant address w)) (size : U64) :
    Keeps aarch64 blockAddresses (some c) false
      (.instruction (lifted c blockAtAddress (decodeTolerant address w)))
      ⟨address, size, .normal⟩ := by
  unfold Keeps
  simp only [widenOp]
  cases htarget : pcRelativeBranchTarget (lifted c blockAtAddress (decodeTolerant address w)) with
  | none => rfl
  | some t =>
    obtain ⟨targetAddress, hmem, hresolve⟩ := branchTarget_of_lifted hblocks hbinds htarget
    simp only [hresolve]
    cases hrange : effectiveRange aarch64
        (lifted c blockAtAddress (decodeTolerant address w)).mnemonic .normal with
    | none => rfl
    | some range =>
      -- a placeholder has no operands, so the word decodes
      have hdecode : decodeInstruction address w = .ok (decodeTolerant address w) := by
        rcases hd : decodeInstruction address w with e | d
        · rw [decodeTolerant_of_error hd] at hmem
          cases hmem
        · exact congrArg Except.ok (decodeTolerant_of_ok hd).symm
      have hin := displacement_of_decode hdecode hmem hrange
      simp only [if_pos hin]

/-- Every op over source words is in range where the first round puts it. -/
theorem keeps_of_opsOf {s : Section} (hblocks : BlocksInPlace blockAtAddress blockAddresses)
    {address : U64} {ops : List AarchOp} {words : List Word}
    (hops : OpsOf c blockAtAddress address ops words)
    (hwords : SweptFrom (SourceWord c s) address words) :
    List.Forall₂ (Keeps aarch64 blockAddresses (some c) false) ops
      (assignBlock address (ops.map unplaced)).1 := by
  induction hops with
  | nil address => exact .nil
  | instruction rest ih =>
    cases hwords with
    | cons head tail => exact .cons (keeps_lifted hblocks head.binds _) (ih tail)
  | @pair address w₁ w₂ m ops words fused rest ih =>
    cases hwords with
    | cons head tail =>
      cases tail with
      | cons head' tail' =>
        have hsize : address + aarch64.sourceByteSize (.macroOp m) = address + 4 + 4 := by
          rw [sourceByteSize_pair fused, BitVec.add_assoc]
          rfl
        rw [List.map_cons, assignBlock, hsize]
        exact .cons rfl (ih tail')

/-! ## §5. Emit copies every word. -/

theorem textWordAt_of_sourceWord {s : Section} (hs : s ∈ c.sections) (htext : s.kind = .text)
    {address : U64} {w : Word} (h : SourceWord c s address w) :
    c.textWordAt address = some w := by
  obtain ⟨tail, htail, hword⟩ := h.held
  have htextTail : c.textTailAt address = some tail := by
    simp [Container.textTailAt, h.covered, Container.sectionOf_id hs, htext, htail, bind]
  rw [Container.textWordAt, htextTail, Option.bind_some, hword]

/-- An unedited instruction at its own address is emitted as its source word. -/
theorem emitInstruction_lifted {s : Section} (hs : s ∈ c.sections) (htext : s.kind = .text)
    {ctx : EmitContext} (hcontainer : ctx.container = some c)
    (hfinal : ctx.isRelocatable = false)
    (hblocks : BlocksInPlace blockAtAddress ctx.blockAddresses) {address : U64} {w : Word}
    (h : SourceWord c s address w) (size : U64) (out : EmitOutput) :
    emitInstruction aarch64 (lifted c blockAtAddress (decodeTolerant address w))
        ⟨address, size, .normal⟩ ctx out
      = .ok { out with bytes := out.bytes ++ toLeBytes w } := by
  have hword := textWordAt_of_sourceWord hs htext h
  have horiginal : (lifted c blockAtAddress (decodeTolerant address w)).originalAddress
      = some address := congrArg some (decodeTolerant_address address w)
  obtain ⟨reloc, hreloc⟩ := lifted_relocationOf hblocks h.binds hcontainer
  have hcopied : verbatimBytes aarch64 (lifted c blockAtAddress (decodeTolerant address w))
      address ctx.blockAddresses (some c) = some (toLeBytes w) := by
    rcases hd : decodeInstruction address w with e | d
    · rw [verbatimBytes_undecodable horiginal hword hd]
      simp
    · refine (verbatimBytes_decodable horiginal hword hd).mpr ⟨rfl, ?_, ?_, .inl rfl⟩
      · rw [← decodeTolerant_of_ok hd]
        rfl
      · rw [← decodeTolerant_of_ok hd]
        exact lifted_sameValue hblocks h.binds
  refine emitInstruction_iff.mpr (.verbatim reloc _ hreloc (by rw [hfinal]; rfl) ?_ rfl)
  rw [hcontainer]
  exact hcopied

theorem macroResolveTarget_of_ok {t : Target} {address : U64} {container : Option Container}
    (h : resolveTarget t blockAddresses container = .ok address) :
    macroResolveTarget t blockAddresses container = some address := by
  cases t with
  | block id =>
    simp only [resolveTarget] at h
    simp only [macroResolveTarget]
    split at h
    · next heq =>
      cases h
      exact heq
    · cases h
  | symbol id =>
    cases container with
    | none => cases h
    | some c =>
      simp only [resolveTarget] at h
      simp only [macroResolveTarget, Option.bind_some]
      split at h
      · next heq =>
        cases h
        exact heq
      · cases h
  | constant id => cases h
  | absolute address' =>
    cases h
    rfl

/-- What counts as unmodified for an instruction counts for a macro's too. -/
theorem macroOperandsUnmodified_of_sameValue {ds : List DecodedOperand} {rs : List AarchOperand}
    (h : List.Forall₂ (SameValue blockAddresses c) ds rs) :
    macroOperandsUnmodified blockAddresses c ds rs = true := by
  induction h with
  | nil => rfl
  | @cons d r ds rs hdr _ ih =>
    rw [macroOperandsUnmodified, ih, Bool.and_true]
    cases r with
    | decoded o =>
      have ho : o = d := hdr
      simp [macroOperandUnmodified, ho]
    | branch t =>
      obtain ⟨address, rfl, ht⟩ := hdr
      simp [macroOperandUnmodified, macroResolveTarget_of_ok ht]
    | page t =>
      obtain ⟨address, rfl, ht⟩ := hdr
      simp [macroOperandUnmodified, macroResolveTarget_of_ok ht]

/-- One half of a fused pair is copied. -/
theorem verbatimMacroWord_lifted {s : Section}
    (hblocks : BlocksInPlace blockAtAddress blockAddresses) {address : U64} {w : Word}
    (h : SourceWord c s address w) (hdecodes : (decodeTolerant address w).mnemonic ≠ .nop) :
    verbatimMacroWord blockAddresses c s address
        (lifted c blockAtAddress (decodeTolerant address w)) = some (toLeBytes w) := by
  obtain ⟨tail, htail, hword⟩ := h.held
  have hdecode := decode_of_decodeTolerant hdecodes
  have hsame := macroOperandsUnmodified_of_sameValue (lifted_sameValue hblocks h.binds)
  have hle : leWord? (toLeBytes w) = some w := by simpa using leWord?_toLeBytes_append w []
  simp only [verbatimMacroWord, htail, bind, Option.bind_some, takeExact_four hword, hle]
  rw [hdecode]
  exact if_pos ⟨rfl, hsame⟩

/-- A fused pair at its own address is copied. -/
theorem verbatimMacro_pair {s : Section} (hs : s ∈ c.sections) (htext : s.kind = .text)
    {ctx : EmitContext} (hcontainer : ctx.container = some c)
    (hfinal : c.kind ≠ .relocatable)
    (hblocks : BlocksInPlace blockAtAddress ctx.blockAddresses) {address : U64} {w₁ w₂ : Word}
    {m : AarchMacro} (hm : FusedFrom m (lifted c blockAtAddress (decodeTolerant address w₁))
      (lifted c blockAtAddress (decodeTolerant (address + 4) w₂)))
    (h₁ : SourceWord c s address w₁) (h₂ : SourceWord c s (address + 4) w₂) :
    verbatimMacro m address ctx = some (toLeBytes w₁ ++ toLeBytes w₂) := by
  have hhead : m.originalAddresses.head? = some address := by
    rw [hm.addresses]
    exact congrArg some (decodeTolerant_address address w₁)
  have hkeeps : keepsRelocation m c ctx.currentSection = false := by
    unfold keepsRelocation
    split
    · next hkind _ => exact absurd hkind hfinal
    · rfl
  have hfirst : (decodeTolerant address w₁).mnemonic ≠ .nop := by
    rw [show (decodeTolerant address w₁).mnemonic = .adrp from hm.adrp]
    decide
  have hsecond : (decodeTolerant (address + 4) w₂).mnemonic ≠ .nop := by
    intro hnop
    have hmem : (decodeTolerant (address + 4) w₂).mnemonic ∈ companionMnemonics := hm.companion
    rw [hnop] at hmem
    revert hmem
    decide
  simp only [verbatimMacro, hhead, bind, Option.bind_some, ne_eq, not_true, if_false, hcontainer,
    hkeeps, Bool.false_eq_true, h₁.covered, Container.sectionOf_id hs, htext, hm.originals,
    verbatimMacroWords, verbatimMacroWord_lifted hblocks h₁ hfirst,
    verbatimMacroWord_lifted hblocks h₂ hsecond]
  rfl

/-- **A run over source words copies them.** -/
theorem emitOps_of_opsOf {s : Section} (hs : s ∈ c.sections) (htext : s.kind = .text)
    {ctx : EmitContext} (hcontainer : ctx.container = some c) (hfinal : c.kind ≠ .relocatable)
    (hblocks : BlocksInPlace blockAtAddress ctx.blockAddresses) {address : U64}
    {ops : List AarchOp} {words : List Word} (hops : OpsOf c blockAtAddress address ops words)
    (hwords : SweptFrom (SourceWord c s) address words) (out : EmitOutput) :
    emitOps aarch64 ctx ops (assignBlock address (ops.map unplaced)).1 out
      = .ok { out with bytes := out.bytes ++ words.flatMap toLeBytes } := by
  have hrelocatable : ctx.isRelocatable = false := by
    simp [EmitContext.isRelocatable, hcontainer, hfinal]
  induction hops generalizing out with
  | nil address => simp [emitOps]
  | @instruction address w ops words rest ih =>
    cases hwords with
    | cons head tail =>
      have hop : emitOp aarch64 (.instruction (lifted c blockAtAddress (decodeTolerant address w)))
          ⟨address, 4, .normal⟩ ctx out = .ok { out with bytes := out.bytes ++ toLeBytes w } :=
        emitInstruction_lifted hs htext hcontainer hrelocatable hblocks head 4 out
      have hsize : unplaced (.instruction (lifted c blockAtAddress (decodeTolerant address w)))
          = ⟨0, 4, .normal⟩ := rfl
      rw [List.map_cons, hsize, assignBlock, emitOps_cons hop, ih tail]
      simp [List.append_assoc]
  | @pair address w₁ w₂ m ops words fused rest ih =>
    cases hwords with
    | cons head tail =>
      cases tail with
      | cons head' tail' =>
        have hsize : address + aarch64.sourceByteSize (.macroOp m) = address + 4 + 4 := by
          rw [sourceByteSize_pair fused, BitVec.add_assoc]
          rfl
        have hcopied := verbatimMacro_pair hs htext hcontainer hfinal hblocks fused head head'
        have hop : emitOp aarch64 (.macroOp m)
            ⟨address, aarch64.sourceByteSize (.macroOp m), .normal⟩ ctx out
              = .ok { out with bytes := out.bytes ++ (toLeBytes w₁ ++ toLeBytes w₂) } := by
          have hfused : emitAarchMacro m address ctx out
              = .ok (out.push (toLeBytes w₁ ++ toLeBytes w₂) none) := by
            rw [emitAarchMacro, hcopied]
          simp only [emitOp]
          rw [show aarch64.emitMacro m address ctx out = emitAarchMacro m address ctx out from rfl,
            hfused]
          simp [EmitOutput.push]
        rw [List.map_cons, assignBlock, hsize, emitOps_cons hop, ih tail']
        simp [List.append_assoc]

/-! ## §6. The lifted plan. -/

/-- The blocks of a lifted plan stand for the instructions of their slices. -/
theorem liftBlocks_sources (c : Container) (blockAtAddress : Map U64 BasicBlockId)
    (instructions : List DecodedInstruction) (blocks : List BasicBlock) :
    ((blocks.map (liftBlock aarch64 blockAtAddress (some c)
        (pcRelativeRelocationLookup aarch64 c) instructions)).flatMap
          RewriteBlock.ops).flatMap sourcesOf
      = (blocks.flatMap (fun b => b.slice instructions)).map (lifted c blockAtAddress) := by
  induction blocks with
  | nil => rfl
  | cons b blocks ih =>
    rw [List.map_cons, List.flatMap_cons, List.flatMap_append, ih, List.flatMap_cons,
      List.map_append]
    congr 1
    exact fuseMacros_sources _

theorem liftBlocks_fusedOp (c : Container) (blockAtAddress : Map U64 BasicBlockId)
    (instructions : List DecodedInstruction) (blocks : List BasicBlock) :
    ∀ op ∈ (blocks.map (liftBlock aarch64 blockAtAddress (some c)
        (pcRelativeRelocationLookup aarch64 c) instructions)).flatMap RewriteBlock.ops,
      FusedOp op := by
  intro op hop
  obtain ⟨block, hblock, hop⟩ := List.mem_flatMap.mp hop
  obtain ⟨b, -, rfl⟩ := List.mem_map.mp hblock
  exact fuseMacros_fusedOp _ op hop

/-- Lifted ops reserve four bytes for each instruction they stand for. -/
theorem sum_sourceByteSize {ops : List AarchOp} (hfused : ∀ op ∈ ops, FusedOp op)
    (hsources : ∀ i ∈ ops.flatMap sourcesOf, i.sourceSize = some 4) :
    (ops.map aarch64.sourceByteSize).sum
      = BitVec.ofNat 64 (4 * (ops.flatMap sourcesOf).length) := by
  induction ops with
  | nil => rfl
  | cons op ops ih =>
    have hhead := sourceByteSize_of_sources (hfused op List.mem_cons_self) fun i hi =>
      hsources i (List.mem_flatMap.mpr ⟨op, List.mem_cons_self, hi⟩)
    have htail := ih (fun op' hop => hfused op' (List.mem_cons_of_mem _ hop)) fun i hi => by
      obtain ⟨op', hop', hi'⟩ := List.mem_flatMap.mp hi
      exact hsources i (List.mem_flatMap.mpr ⟨op', List.mem_cons_of_mem _ hop', hi'⟩)
    rw [List.map_cons, List.sum_cons, hhead, htail, List.flatMap_cons, List.length_append,
      Nat.mul_add, BitVec.ofNat_add]

/-- The first round of layout puts every block at the address it was swept from. -/
theorem blocksInPlace_firstLayout (c : Container) (base : U64) (words : List Word) :
    BlocksInPlace (blockStarts (buildCfg aarch64Info (sweepWords base words)).blocks)
      (firstLayout aarch64 (planOfSweep c (sweepWords base words)) base).blockAddresses := by
  intro address id hid
  have htiles := buildCfg_tiles aarch64Info (sweepWords base words)
  obtain ⟨j, b, hb, rfl, rfl⟩ := blockStarts_some htiles hid
  obtain ⟨-, hfirst, head, hhead, hstart⟩ := htiles.getElem? hb
  have hlen : j < (initialLayouts aarch64 (planOfSweep c (sweepWords base words))).length := by
    rw [initialLayouts, planOfSweep, liftWithContainer, liftInner, List.length_map, List.length_map]
    exact (List.getElem?_eq_some_iff.mp hb).1
  have hsizes : (((initialLayouts aarch64 (planOfSweep c (sweepWords base words))).take j).flatten.map
      InstructionLayout.size).sum = BitVec.ofNat 64 (4 * b.firstIndex) := by
    rw [initialLayouts, planOfSweep, liftWithContainer, liftInner, ← List.map_take, ← List.map_take,
      ← List.flatMap_def, List.map_flatMap]
    have hops := sum_sourceByteSize (liftBlocks_fusedOp c
        (blockStarts (buildCfg aarch64Info (sweepWords base words)).blocks) (sweepWords base words)
        ((buildCfg aarch64Info (sweepWords base words)).blocks.take j)) (by
      intro i hi
      rw [liftBlocks_sources] at hi
      obtain ⟨d, -, rfl⟩ := List.mem_map.mp hi
      rfl)
    rw [liftBlocks_sources, List.length_map, List.map_flatMap] at hops
    rw [hfirst, Nat.zero_add, ← hops]
    simp only [List.map_map, Function.comp_def]
    rfl
  have haddress := assignBlocks_blockAddress base
    (initialLayouts aarch64 (planOfSweep c (sweepWords base words))) j hlen
  rw [Nat.zero_add]
  refine haddress.trans ?_
  rw [hsizes, hstart]
  exact congrArg some (sweepWords_getElem? hhead).symm

/-- The ops of the plan of a sweep are ops over its words. -/
theorem opsOf_planOfSweep (c : Container) (base : U64) (words : List Word) :
    OpsOf c (blockStarts (buildCfg aarch64Info (sweepWords base words)).blocks) base
      ((planOfSweep c (sweepWords base words)).blocks.flatMap RewriteBlock.ops) words := by
  refine opsOf_of_sources (liftBlocks_fusedOp _ _ _ _) ?_
  refine (liftBlocks_sources _ _ _ _).trans ?_
  rw [(buildCfg_tiles aarch64Info (sweepWords base words)).flatMap_slice, List.drop_zero]

/-! ## §7. The rewrite is the identity. -/

/-- Every word of the section is found at its address. -/
theorem sourceWords_of_section {s : Section} (hs : s ∈ c.sections) (hfirst : FirstCovering c s)
    (hbinds : ∀ d ∈ sweepWords s.address (chunkWords s.bytes), BindsInPlace c d) :
    SweptFrom (SourceWord c s) s.address (chunkWords s.bytes) := by
  have hbinds' : SweptFrom (fun a w => BindsInPlace c (decodeTolerant a w)) s.address
      (chunkWords s.bytes) := by
    generalize s.address = address, chunkWords s.bytes = words at hbinds
    induction words generalizing address with
    | nil => exact .nil address
    | cons w words ih =>
      exact .cons (hbinds _ List.mem_cons_self)
        (ih _ fun d hd => hbinds d (List.mem_cons_of_mem _ hd))
  refine (SweptFrom.and (sweptFrom_of_getElem? fun k w hw => ?_) hbinds').imp
    fun a w (h : (c.sectionForAddress a = some s.id ∧
      ∃ tail, s.tailAt a = some tail ∧ leWord? tail = some w) ∧ _) => ⟨h.1.1, h.1.2, h.2⟩
  obtain ⟨hlt, hword⟩ := chunkWords_getElem? hw
  exact ⟨hfirst _ hlt, s.bytes.drop (4 * k), hfirst.tailAt hs hlt, hword⟩

/-- **Rewriting final text without edits is the identity** when every
relocation found at an instruction binds it where it already points. -/
theorem rewriteUnedited_identity (c : Container)
    (hkind : c.kind = .sharedObject ∨ c.kind = .executable) (s : Section) (hs : s ∈ c.sections)
    (htext : s.kind = .text) (hlength : s.bytes.length % 4 = 0) (hfirst : FirstCovering c s)
    (hbinds : ∀ d ∈ sweepWords s.address (chunkWords s.bytes), BindsInPlace c d) :
    rewriteUnedited c s = .ok ⟨s.bytes, []⟩ := by
  have hfinal : c.kind ≠ .relocatable := by
    rcases hkind with h | h <;> rw [h] <;> decide
  have hwords := sourceWords_of_section hs hfirst hbinds
  have hops := opsOf_planOfSweep c s.address (chunkWords s.bytes)
  have hblocks := blocksInPlace_firstLayout c s.address (chunkWords s.bytes)
  have hkeeps := keeps_of_opsOf hblocks hops hwords
  have hflat := firstLayout_flatten (I := aarch64)
    (planOfSweep c (sweepWords s.address (chunkWords s.bytes))) s.address
  have hlayout : layOut aarch64 (planOfSweep c (sweepWords s.address (chunkWords s.bytes)))
      s.address (some c) = .ok (firstLayout aarch64
        (planOfSweep c (sweepWords s.address (chunkWords s.bytes))) s.address) := by
    refine layOut_of_keeps ?_
    rw [hflat]
    exact hkeeps
  have hshape := (layOut_laidOut hlayout).reserved.shape
  have hemit : emit aarch64 (planOfSweep c (sweepWords s.address (chunkWords s.bytes)))
      (firstLayout aarch64 (planOfSweep c (sweepWords s.address (chunkWords s.bytes))) s.address)
      (some c) = .ok ⟨s.bytes, []⟩ := by
    rw [emit, ← List.append_nil (firstLayout aarch64 (planOfSweep c (sweepWords s.address
      (chunkWords s.bytes))) s.address).instructionLayouts, emitBlocks_flat hshape, hflat]
    refine (emitOps_of_opsOf hs htext rfl hfinal hblocks hops hwords .empty).trans ?_
    rw [chunkWords_bytes hlength]
    rfl
  rw [rewriteUnedited, disassembleBytesTolerant, if_neg (not_not.mpr hlength)]
  simp only [layOutAndEmit, hlayout, hemit]

/-! ## §8. A relocation of another section. -/

/-- The text section of the image below: a branch to itself. -/
def loopSection : Section := ⟨⟨1⟩, 0x2000, 4, [0x00, 0x00, 0x00, 0x14], .text⟩

/-- A linked image that keeps the relocation of `.init` at its file offset, so
that it is found at the branch in `.text`; its symbol stands at `address`. -/
def strayRelocationImage (address : U64) : Container where
  format := .elf
  architecture := .aarch64
  kind := .executable
  sections := [⟨⟨0⟩, 0x1000, 4, [0x00, 0x00, 0x00, 0x14], .text⟩, loopSection]
  symbols := [⟨⟨0⟩, "start", address, .function, some ⟨0⟩, false⟩]
  relocations := [⟨⟨0⟩, ⟨0⟩, 0x1000, .branch26, 26, 0, some ⟨0⟩⟩]
  elfImage := none
  machoImage := none
  sectionIds := rfl
  symbolIds := rfl
  relocationSections := by simp

theorem sweep_loopSection : sweepWords loopSection.address (chunkWords loopSection.bytes)
    = [⟨0x2000, 0x14000000#32, .b, [.branchTarget 0x2000]⟩] := by
  decide +kernel

theorem firstCovering_loopSection (address : U64) :
    FirstCovering (strayRelocationImage address) loopSection := by
  intro k hk
  have hk : k < 4 := hk
  have hcovers : ∀ k < 4, (strayRelocationImage 0).sectionForAddress
      (loopSection.address + BitVec.ofNat 64 k) = some loopSection.id := by decide
  exact hcovers k hk

/-- With the symbol where the branch points, the rewrite is the identity. -/
theorem boundInPlace_identity :
    rewriteUnedited (strayRelocationImage 0x2000) loopSection = .ok ⟨loopSection.bytes, []⟩ := by
  refine rewriteUnedited_identity _ (.inr rfl) _ (by simp [strayRelocationImage]) rfl rfl
    (firstCovering_loopSection _) ?_
  rw [sweep_loopSection]
  intro d hd target htarget o ho kind address hkind
  cases List.mem_singleton.mp hd
  cases List.mem_singleton.mp ho
  cases hkind
  cases htarget
  exact ⟨_, List.mem_singleton_self _, rfl, rfl⟩

/-- The branch of `.text`, lifted to the symbol of the stray relocation. -/
def strayBranch : AarchInstruction := ⟨.b, [.branch (.symbol ⟨0⟩)], some 0x2000, some 4⟩

def strayLayout : Layout := ⟨0x2000, 4, [0x2000], [[⟨0x2000, 4, .normal⟩]]⟩

theorem planOfSweep_stray : planOfSweep (strayRelocationImage 0x1000)
    [⟨0x2000, 0x14000000#32, .b, [.branchTarget 0x2000]⟩]
      = ⟨[⟨⟨0⟩, [.instruction strayBranch]⟩]⟩ := by
  decide

theorem layOut_stray : layOut aarch64 ⟨[⟨⟨0⟩, [.instruction strayBranch]⟩]⟩ loopSection.address
    (some (strayRelocationImage 0x1000)) = .ok strayLayout := by
  decide

theorem encode_strayBranch : encodeInstruction ⟨0x2000, .b, [.branchTarget 0x1000]⟩
    = .ok 0x17fffc00#32 := by
  rw [encodeInstruction, opcodesForMnemonic_branch rfl]
  decide

/-- Nothing was edited, no relocation applies to `.text`, and the branch of
`.text` is rewritten to reach the symbol that `.init` refers to. -/
theorem strayRelocation_rewrites :
    (strayRelocationImage 0x1000).relocationsFor loopSection.id = [] ∧
      FirstCovering (strayRelocationImage 0x1000) loopSection ∧
      rewriteUnedited (strayRelocationImage 0x1000) loopSection
        = .ok ⟨toLeBytes 0x17fffc00#32, []⟩ ∧
      toLeBytes 0x17fffc00#32 ≠ loopSection.bytes := by
  refine ⟨by decide, firstCovering_loopSection _, ?_, by decide⟩
  have hnot : verbatimBytes aarch64 strayBranch 0x2000 [0x2000]
      (some (strayRelocationImage 0x1000)) = none := by
    decide +kernel
  have hencoded : emitEncoded aarch64 strayBranch ⟨0x2000, 4, .normal⟩
      (strayLayout.context (some (strayRelocationImage 0x1000)))
        = .ok (toLeBytes 0x17fffc00#32) := emitEncoded_of_word rfl rfl encode_strayBranch
  have hop : emitInstruction aarch64 strayBranch ⟨0x2000, 4, .normal⟩
      (strayLayout.context (some (strayRelocationImage 0x1000))) .empty
        = .ok ⟨[] ++ toLeBytes 0x17fffc00#32, []⟩ :=
    emitInstruction_iff.mpr (.encoded _ rfl hnot hencoded rfl)
  have hemit : emit aarch64 ⟨[⟨⟨0⟩, [.instruction strayBranch]⟩]⟩ strayLayout
      (some (strayRelocationImage 0x1000)) = .ok ⟨toLeBytes 0x17fffc00#32, []⟩ :=
    emit_single rfl hop
  have hswept : disassembleBytesTolerant loopSection.address loopSection.bytes
      = .ok (sweepWords loopSection.address (chunkWords loopSection.bytes),
          undecodableWords loopSection.address (chunkWords loopSection.bytes)) :=
    if_neg (by decide)
  rw [rewriteUnedited, hswept]
  simp only [sweep_loopSection, planOfSweep_stray, layOutAndEmit, layOut_stray, hemit]

end Armv8Encode

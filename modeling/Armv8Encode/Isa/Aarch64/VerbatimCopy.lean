/-
  Armv8Encode.Isa.Aarch64.VerbatimCopy — when emit copies source bytes.

  The fast path compares an instruction with what its source word decodes to.
  A word that decodes is copied when the mnemonic and every operand still have
  the decoded value, and, away from its own address, when no operand is
  PC-relative.  A word that does not decode is copied whenever the instruction
  stands at its own address, whatever the instruction now is.
-/
import Armv8Encode.Rewrite.EmitSpec
import Armv8Encode.Rewrite.Plan
import Armv8Encode.Isa.Aarch64.IsaImpl

namespace Armv8Encode

open Lib

/-! ## §1. Operands with the decoded value. -/

/-- A rewrite operand has the value of a decoded one: it is that operand, or a
target of the same kind that resolves to its address. -/
def SameValue (blockAddresses : List U64) (c : Container) (d : DecodedOperand) :
    AarchOperand → Prop
  | .decoded o => o = d
  | .branch t =>
    ∃ address, d = .branchTarget address ∧ resolveTarget t blockAddresses (some c) = .ok address
  | .page t =>
    ∃ address, d = .pageTarget address ∧ resolveTarget t blockAddresses (some c) = .ok address

theorem toOption_eq_some {ε α : Type} {x : Except ε α} {a : α} :
    x.toOption = some a ↔ x = .ok a := by
  cases x with
  | error e => simp [Except.toOption]
  | ok b => simp [Except.toOption]

theorem operandUnmodified_iff {blockAddresses : List U64} {c : Container} {d : DecodedOperand}
    {r : AarchOperand} :
    operandUnmodified aarch64 blockAddresses c d r = true ↔ SameValue blockAddresses c d r := by
  cases r with
  | decoded o => simp [operandUnmodified, SameValue]
  | branch t =>
    cases d <;>
      simp [operandUnmodified, SameValue, aarch64, aarchPcrelKind, toOption_eq_some, eq_comm]
  | page t =>
    cases d <;>
      simp [operandUnmodified, SameValue, aarch64, aarchPcrelKind, toOption_eq_some, eq_comm]

theorem operandsUnmodified_iff {blockAddresses : List U64} {c : Container}
    {ds : List DecodedOperand} {rs : List AarchOperand} :
    operandsUnmodified aarch64 blockAddresses c ds rs = true ↔
      List.Forall₂ (SameValue blockAddresses c) ds rs := by
  induction ds generalizing rs with
  | nil =>
    cases rs with
    | nil => simp [operandsUnmodified]
    | cons r rs => simp [operandsUnmodified]
  | cons d ds ih =>
    cases rs with
    | nil => simp [operandsUnmodified]
    | cons r rs =>
      rw [operandsUnmodified, Bool.and_eq_true, operandUnmodified_iff, ih, List.forall₂_cons]

/-! ## §2. The copy. -/

theorem takeExact_four {tail : List Byte} {word : Word} (h : leWord? tail = some word) :
    takeExact 4 tail = some (toLeBytes word) := by
  match tail, h with
  | b0 :: b1 :: b2 :: b3 :: rest, h =>
    cases h
    rw [toLeBytes_fromLeBytes, takeExact, if_pos (by simp)]
    rfl

theorem takeExact_four_eq_none {tail : List Byte} (h : leWord? tail = none) :
    takeExact 4 tail = none := by
  match tail, h with
  | [], _ => rfl
  | [_], _ => rfl
  | [_, _], _ => rfl
  | [_, _, _], _ => rfl

/-- The word a container holds at an address of a text section. -/
def Container.textWordAt (c : Container) (address : U64) : Option Word :=
  (c.textTailAt address).bind leWord?

variable {c : Container} {i : AarchInstruction} {original : U64} {word : Word}
  {blockAddresses : List U64}

/-- Without a source word there is nothing to copy. -/
theorem verbatimBytes_noWord (hi : i.originalAddress = some original)
    (hword : c.textWordAt original = none) (address : U64) :
    verbatimBytes aarch64 i address blockAddresses (some c) = none := by
  have hsize : aarch64.instructionSourceSize i.mnemonic = 4#64 := rfl
  cases htail : c.textTailAt original with
  | none => simp [verbatimBytes, hi, htail, bind]
  | some tail =>
    rw [Container.textWordAt, htail, Option.bind_some] at hword
    have hnone : aarch64.decode original tail = none := by
      show aarchDecode original tail = none
      simp [aarchDecode, hword]
    simp only [verbatimBytes, hi, htail, bind, Option.bind_some, hnone, hsize]
    rw [show (4#64).toNat = 4 from rfl, takeExact_four_eq_none hword, ite_self]

/-- Copied bytes come from a source word. -/
theorem exists_word_of_verbatimBytes {address : U64} {container : Option Container}
    {raw : List Byte} (h : verbatimBytes aarch64 i address blockAddresses container = some raw) :
    ∃ c original word, container = some c ∧ i.originalAddress = some original ∧
      c.textWordAt original = some word := by
  cases hi : i.originalAddress with
  | none => simp [verbatimBytes, hi, bind] at h
  | some original =>
    cases container with
    | none => simp [verbatimBytes, hi, bind] at h
    | some c =>
      cases hword : c.textWordAt original with
      | none =>
        rw [verbatimBytes_noWord hi hword] at h
        cases h
      | some word => exact ⟨c, original, word, rfl, rfl, hword⟩

/-- An undecodable source word is copied at its own address and nowhere else. -/
theorem verbatimBytes_undecodable (hi : i.originalAddress = some original)
    (hword : c.textWordAt original = some word) {e : DecodeError}
    (hdecode : decodeInstruction original word = .error e) (address : U64) :
    verbatimBytes aarch64 i address blockAddresses (some c)
      = if original ≠ address then none else some (toLeBytes word) := by
  obtain ⟨tail, htail, hword⟩ := Option.bind_eq_some_iff.mp hword
  have hnone : aarch64.decode original tail = none := by
    show aarchDecode original tail = none
    simp [aarchDecode, hword, hdecode, Except.toOption]
  have hsize : aarch64.instructionSourceSize i.mnemonic = 4#64 := rfl
  simp only [verbatimBytes, hi, htail, bind, Option.bind_some, hnone, hsize]
  rw [show (4#64).toNat = 4 from rfl, takeExact_four hword]

/-- A decodable source word is copied when nothing about the instruction has
changed, and it does not move or has no PC-relative operand. -/
theorem verbatimBytes_decodable (hi : i.originalAddress = some original)
    (hword : c.textWordAt original = some word) {d : DecodedInstruction}
    (hdecode : decodeInstruction original word = .ok d) {address : U64} {raw : List Byte} :
    verbatimBytes aarch64 i address blockAddresses (some c) = some raw ↔
      raw = toLeBytes word ∧ d.mnemonic = i.mnemonic ∧
        List.Forall₂ (SameValue blockAddresses c) d.operands i.operands ∧
        (original = address ∨ d.operands.any (fun o => (aarchPcrelKind o).isSome) = false) := by
  obtain ⟨tail, htail, hword⟩ := Option.bind_eq_some_iff.mp hword
  have hsome : aarch64.decode original tail = some d := by
    show aarchDecode original tail = some d
    simp [aarchDecode, hword, hdecode, Except.toOption]
  have hsize : (aarch64.decodedSize d).toNat = 4 := rfl
  rw [← operandsUnmodified_iff]
  simp only [verbatimBytes, hi, htail, bind, Option.bind_some, hsome, hsize,
    takeExact_four hword]
  show (if d.mnemonic ≠ i.mnemonic then none
    else if (!operandsUnmodified aarch64 blockAddresses c d.operands i.operands) = true then none
    else if original ≠ address ∧ d.operands.any (fun o => (aarchPcrelKind o).isSome) = true then none
    else some (toLeBytes word)) = some raw ↔ _
  have hcopy : (some (toLeBytes word) = some raw) ↔ raw = toLeBytes word := by
    rw [Option.some.injEq]
    exact eq_comm
  by_cases hm : d.mnemonic = i.mnemonic
  · cases ho : operandsUnmodified aarch64 blockAddresses c d.operands i.operands with
    | false => simp [hm]
    | true =>
      by_cases ha : original = address
      · simp [hm, ha, hcopy]
      · cases hp : d.operands.any (fun o => (aarchPcrelKind o).isSome) with
        | false => simp [hm, hcopy]
        | true => simp [hm, ha]
  · simp [hm]

/-! ## §3. Edited instructions. -/

/-- The instruction differs from the lifted one in its mnemonic or in some operand. -/
def EditOf (lifted i : AarchInstruction) : Prop :=
  i.mnemonic ≠ lifted.mnemonic ∨ i.operands ≠ lifted.operands

/-- What an instruction is emitted as when its source bytes play no part: a
relocation placeholder, or the encoding of its operands. -/
def emitFromOperands (i : AarchInstruction) (l : InstructionLayout) (ctx : EmitContext)
    (out : EmitOutput) : Except (EmitError EncodeError) EmitOutput := do
  match ← ctx.relocationOf i with
  | some (symbol, kind) => emitWithRelocation aarch64 i l.address symbol kind out
  | none =>
    let bytes ← emitEncoded aarch64 i l ctx
    pure { out with bytes := out.bytes ++ bytes }

/-- Emit does not copy the source word, and whatever it emits comes from the
instruction's own operands. -/
def EmitsOwnOperands (ctx : EmitContext) (i : AarchInstruction) (l : InstructionLayout) : Prop :=
  ∀ out out', emitInstruction aarch64 i l ctx out = .ok out' →
    verbatimBytes aarch64 i l.address ctx.blockAddresses ctx.container = none ∧
      emitFromOperands i l ctx out = .ok out'

/-- The source word, if there is one, decodes, and the instruction does not
have its mnemonic with operands of the decoded values. -/
def DiffersFromSource (ctx : EmitContext) (c : Container) (i : AarchInstruction)
    (address : U64) : Prop :=
  ∀ word, c.textWordAt address = some word →
    ∃ d, decodeInstruction address word = .ok d ∧
      ¬ (d.mnemonic = i.mnemonic ∧
        List.Forall₂ (SameValue ctx.blockAddresses c) d.operands i.operands)

theorem emitInstruction_eq_fromOperands {ctx : EmitContext} {l : InstructionLayout}
    (h : verbatimBytes aarch64 i l.address ctx.blockAddresses ctx.container = none)
    (out : EmitOutput) : emitInstruction aarch64 i l ctx out = emitFromOperands i l ctx out := by
  refine bind_congr fun reloc => ?_
  have hnone : (if ctx.isRelocatable && reloc.isSome then none
      else verbatimBytes aarch64 i l.address ctx.blockAddresses ctx.container) = none := by
    rw [h]
    split <;> rfl
  dsimp only
  cases reloc <;> rw [hnone] <;> rfl

/-- At its own address an instruction is copied unless it differs from its
source word. -/
theorem verbatimBytes_inPlace {ctx : EmitContext} {address : U64}
    (hi : i.originalAddress = some address) :
    verbatimBytes aarch64 i address ctx.blockAddresses (some c) = none ↔
      DiffersFromSource ctx c i address := by
  unfold DiffersFromSource
  cases hword : c.textWordAt address with
  | none => simp [verbatimBytes_noWord hi hword]
  | some word =>
    cases hdecode : decodeInstruction address word with
    | error e =>
      rw [verbatimBytes_undecodable hi hword hdecode address]
      simp [hdecode]
    | ok d =>
      rw [Option.eq_none_iff_forall_ne_some]
      simp only [ne_eq, verbatimBytes_decodable hi hword hdecode, true_or, and_true, not_and]
      constructor
      · intro hnone word' hword'
        cases hword'
        exact ⟨d, hdecode, fun hm ho => hnone _ rfl hm ho⟩
      · rintro h raw - hm ho
        obtain ⟨d', hd', hdiffers⟩ := h word rfl
        rw [hdecode] at hd'
        cases hd'
        exact hdiffers hm ho

/-- **Edits and stale bytes**: at its own address in a linked image, an edited
instruction is emitted from its own operands exactly when, if it is an edit,
the source word decodes and differs from it, or its relocation test fails. -/
theorem emit_edit_iff (c : Container) (hkind : c.kind = .sharedObject ∨ c.kind = .executable)
    (ctx : EmitContext) (hcontainer : ctx.container = some c) (address : U64) (word : Word)
    (blockAtAddress : Map U64 BasicBlockId) (relocations : Map U64 FusionRelocationInfo)
    (i : AarchInstruction) (hi : i.originalAddress = some address) (l : InstructionLayout)
    (hplace : l.address = address) :
    (EditOf (liftInstruction aarch64 blockAtAddress (some c) relocations
        (decodeTolerant address word)) i → EmitsOwnOperands ctx i l) ↔
      (EditOf (liftInstruction aarch64 blockAtAddress (some c) relocations
          (decodeTolerant address word)) i →
        DiffersFromSource ctx c i address ∨
          ∃ e, ctx.relocationOf (E := EncodeError) i = .error e) := by
  refine imp_congr_right fun _ => ?_
  have hfinal : ctx.isRelocatable = false := by
    rcases hkind with h | h <;> simp [EmitContext.isRelocatable, hcontainer, h]
  rw [← verbatimBytes_inPlace hi]
  constructor
  · intro hown
    cases hreloc : ctx.relocationOf (E := EncodeError) i with
    | error e => exact .inr ⟨e, rfl⟩
    | ok reloc =>
      left
      cases hverb : verbatimBytes aarch64 i address ctx.blockAddresses (some c) with
      | none => rfl
      | some raw =>
        -- then emit succeeds with the copied bytes
        have hcopied : verbatimBytes aarch64 i l.address ctx.blockAddresses ctx.container
            = some raw := by rw [hplace, hcontainer, hverb]
        have hemit : emitInstruction aarch64 i l ctx .empty = .ok ⟨[] ++ raw, []⟩ :=
          emitInstruction_iff.mpr
            (.verbatim reloc raw hreloc (by rw [hfinal]; rfl) hcopied rfl)
        rw [(hown _ _ hemit).1] at hcopied
        cases hcopied
  · rintro (hnone | ⟨e, herror⟩) out out' hemit
    · have hverb : verbatimBytes aarch64 i l.address ctx.blockAddresses ctx.container = none := by
        rw [hplace, hcontainer, hnone]
      rw [emitInstruction_eq_fromOperands hverb] at hemit
      exact ⟨hverb, hemit⟩
    · rw [emitInstruction, herror] at hemit
      cases hemit

/-! ## §4. A patch that is lost. -/

/-- A linked image whose only text word does not decode. -/
def dataInText : Container where
  format := .elf
  architecture := .aarch64
  kind := .executable
  sections := [⟨⟨0⟩, 0x1000, 4, [0x00, 0x00, 0x00, 0x00], .text⟩]
  symbols := []
  relocations := []
  elfImage := none
  machoImage := none
  sectionIds := rfl
  symbolIds := rfl
  relocationSections := by simp

/-- The placeholder at `0x1000`, patched to return. -/
def patchedReturn : AarchInstruction := .new .ret [.decoded (.register (xReg 30))] (some 0x1000)

def patchedContext : EmitContext := ⟨[0x1000], some dataInText, some ⟨0⟩⟩

def patchedLayout : InstructionLayout := ⟨0x1000, 4, .normal⟩

theorem dataInText_undecodable : decodeInstruction 0x1000 0x00000000#32
    = .error (.noMatchingOpcode 0x00000000#32) := by
  decide +kernel

/-- The patch is an edit, and emit writes the source word in its place. -/
theorem patchedReturn_stale :
    EditOf (liftInstruction aarch64 (fun _ => none) (some dataInText) (fun _ => none)
        (decodeTolerant 0x1000 0x00000000#32)) patchedReturn ∧
      emitInstruction aarch64 patchedReturn patchedLayout patchedContext .empty
        = .ok ⟨toLeBytes 0x00000000#32, []⟩ ∧
      ¬ EmitsOwnOperands patchedContext patchedReturn patchedLayout := by
  have hcopied : verbatimBytes aarch64 patchedReturn 0x1000 [0x1000] (some dataInText)
      = some (toLeBytes 0x00000000#32) :=
    verbatimBytes_undecodable rfl (by decide) dataInText_undecodable 0x1000
  have hemit : emitInstruction aarch64 patchedReturn patchedLayout patchedContext .empty
      = .ok ⟨toLeBytes 0x00000000#32, []⟩ :=
    emitInstruction_iff.mpr (.verbatim none _ rfl rfl hcopied rfl)
  have hedit : patchedReturn.mnemonic ≠ (liftInstruction aarch64 (fun _ => none)
      (some dataInText) (fun _ => none) (decodeTolerant 0x1000 0x00000000#32)).mnemonic := by
    rw [decodeTolerant_of_error dataInText_undecodable]
    exact (by decide : Aarch64Mnemonic.ret ≠ .nop)
  have hstale : ¬ EmitsOwnOperands patchedContext patchedReturn patchedLayout := by
    intro hown
    have hnone := hcopied.symm.trans (hown _ _ hemit).1
    cases hnone
  exact ⟨Or.inl hedit, hemit, hstale⟩

/-- The condition on this patch, whose source word does not decode. -/
theorem patchedReturn_edit_iff :
    (EditOf (liftInstruction aarch64 (fun _ => none) (some dataInText) (fun _ => none)
        (decodeTolerant 0x1000 0x00000000#32)) patchedReturn →
      EmitsOwnOperands patchedContext patchedReturn patchedLayout) ↔
      (EditOf (liftInstruction aarch64 (fun _ => none) (some dataInText) (fun _ => none)
          (decodeTolerant 0x1000 0x00000000#32)) patchedReturn →
        DiffersFromSource patchedContext dataInText patchedReturn 0x1000 ∨
          ∃ e, patchedContext.relocationOf (E := EncodeError) patchedReturn = .error e) :=
  emit_edit_iff dataInText (.inr rfl) patchedContext rfl 0x1000 0x00000000#32 (fun _ => none)
    (fun _ => none) patchedReturn rfl patchedLayout rfl

end Armv8Encode

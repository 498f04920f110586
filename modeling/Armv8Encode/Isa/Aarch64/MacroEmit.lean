/-
  Armv8Encode.Isa.Aarch64.MacroEmit — expanding fused macros back into bytes.

  A macro that still matches its source bytes at its own address is copied.
  Otherwise it is expanded: against a relocation when its target needs one,
  else against the resolved target.  The macro side has its own test of which
  symbols need a relocation, and it differs from the instruction side.
-/
import Armv8Encode.Rewrite.Emit
import Armv8Encode.Isa.Aarch64.Fusion

namespace Armv8Encode

open Lib

/-! ## §1. Targets. -/

/-- The macro emitter's own target resolution. -/
def macroResolveTarget (target : Target) (blockAddresses : List U64)
    (container : Option Container) : Option U64 :=
  match target with
  | .block id => blockAddresses[id.index]?
  | .absolute address => some address
  | .symbol id => container.bind (fun c => c.callableAddressOfSymbol id)
  | .constant _ => none

/-- The macro emitter's own relocation test: only a PLT stub excuses an
undefined symbol, and a section symbol always needs a relocation. -/
def macroSymbolNeedsRelocation (c : Container) (id : SymbolId)
    (currentSection : Option SectionId) : Option Bool := do
  let symbol ← c.symbol id
  if symbol.isUndefined then pure !(c.pltStub id).isSome
  else if symbol.kind = .sectionSymbol then pure true
  else
    match currentSection with
    | none => pure false
    | some current =>
      match symbol.sectionId with
      | none => pure false
      | some symbolSection =>
        if symbolSection = current then pure false
        else
          let address := ((c.sections.find? (fun s => s.id == current)).map
            Section.address).getD 0
          pure (address == 0)

/-- The symbol a macro must be relocated against, if any. -/
def macroRelocation (m : AarchMacro) (ctx : EmitContext) :
    Except (MacroEmitError EncodeError) (Option SymbolId) :=
  match m.target, ctx.container with
  | .symbol id, some c =>
    match macroSymbolNeedsRelocation c id ctx.currentSection with
    | none => .error .indexOutOfBounds
    | some true => .ok (some id)
    | some false => .ok none
  | _, _ => .ok none

/-! ## §2. Verbatim copies. -/

/-- An operand still matches what the source word decodes to. -/
def macroOperandUnmodified (blockAddresses : List U64) (c : Container) (d : DecodedOperand) :
    AarchOperand → Bool
  | .decoded o => decide (o = d)
  | .branch t =>
    match d with
    | .branchTarget address => decide (macroResolveTarget t blockAddresses (some c) = some address)
    | _ => false
  | .page t =>
    match d with
    | .pageTarget address => decide (macroResolveTarget t blockAddresses (some c) = some address)
    | _ => false

def macroOperandsUnmodified (blockAddresses : List U64) (c : Container) :
    List DecodedOperand → List AarchOperand → Bool
  | [], [] => true
  | d :: ds, r :: rs =>
    macroOperandUnmodified blockAddresses c d r && macroOperandsUnmodified blockAddresses c ds rs
  | _, _ => false

/-- The four source bytes of one instruction of a macro, if it is unmodified. -/
def verbatimMacroWord (blockAddresses : List U64) (c : Container) (s : Section) (address : U64)
    (i : AarchInstruction) : Option (List Byte) := do
  let tail ← s.tailAt address
  let raw ← takeExact 4 tail
  let word ← leWord? raw
  match decodeInstruction address word with
  | .error _ => none
  | .ok decoded =>
    if decoded.mnemonic = i.mnemonic
        ∧ macroOperandsUnmodified blockAddresses c decoded.operands i.operands then some raw
    else none

/-- The source bytes of consecutive instructions, if all are unmodified. -/
def verbatimMacroWords (blockAddresses : List U64) (c : Container) (s : Section) (address : U64) :
    List AarchInstruction → Option (List Byte)
  | [] => some []
  | i :: rest => do
    let raw ← verbatimMacroWord blockAddresses c s address i
    let tail ← verbatimMacroWords blockAddresses c s (address + 4) rest
    some (raw ++ tail)

/-- In a relocatable object a macro that needs a relocation keeps it. -/
def keepsRelocation (m : AarchMacro) (c : Container) (currentSection : Option SectionId) : Bool :=
  match c.kind, m.target with
  | .relocatable, .symbol id => macroSymbolNeedsRelocation c id currentSection == some true
  | _, _ => false

/-- The source bytes of a macro that is unmodified and in place. -/
def verbatimMacro (m : AarchMacro) (here : U64) (ctx : EmitContext) : Option (List Byte) := do
  let first ← m.originalAddresses.head?
  if here ≠ first then none
  else do
    let c ← ctx.container
    if keepsRelocation m c ctx.currentSection then none
    else do
      let id ← c.sectionForAddress first
      let s ← c.sectionOf id
      if s.kind ≠ .text then none
      else verbatimMacroWords ctx.blockAddresses c s first m.originalInstructions

/-! ## §3. Expansion. -/

def buildAdrpTemplate (rd : Register) (targetPage address : U64) : InstructionTemplate :=
  ⟨address, .adrp, [.register rd, .pageTarget targetPage]⟩

def buildAddImmediateTemplate (rd : Register) (immediate : Int) : InstructionTemplate :=
  ⟨0, .add, [.register rd, .register rd, .immediate immediate]⟩

/-- An operand re-emitted without its symbolic target. -/
def decodedFromRewriteOperand : AarchOperand → DecodedOperand
  | .decoded d => d
  | .branch _ => .branchTarget 0
  | .page _ => .pageTarget 0

/-- An original instruction of a macro, re-emitted at an address. -/
def originalTemplate (i : AarchInstruction) (address : U64) : InstructionTemplate :=
  ⟨address, i.mnemonic, i.operands.map decodedFromRewriteOperand⟩

def ldstAccessWidthBytes (i : AarchInstruction) : Option Nat :=
  match i.operands.head? with
  | some (.decoded (.register r)) =>
    match r.regClass with
    | .w => some 4
    | .x => some 8
    | _ => none
  | _ => none

/-- Encode a template for the macro emitter. -/
def encodeTemplate (t : InstructionTemplate) : Except (MacroEmitError EncodeError) (List Byte) :=
  match encodeInstruction t with
  | .ok word => .ok (toLeBytes word)
  | .error e => .error (.encode e)

/-- Append bytes to an output, with a relocation at their start if given. -/
def EmitOutput.push (out : EmitOutput) (bytes : List Byte)
    (reloc : Option (RelocationKind × SymbolId)) : EmitOutput where
  bytes := out.bytes ++ bytes
  relocations := out.relocations ++
    (match reloc with
     | some (kind, symbol) => [⟨BitVec.ofNat 64 out.bytes.length, kind, symbol, 0⟩]
     | none => [])

def emitLoadAddress (m : AarchMacro) (here : U64) (ctx : EmitContext) (out : EmitOutput) :
    Except (MacroEmitError EncodeError) EmitOutput := do
  match ← macroRelocation m ctx with
  | some symbol =>
    let adrp ← encodeTemplate (buildAdrpTemplate m.register (here &&& ~~~0xfff#64) here)
    let out := out.push adrp (some (.adrpPage21, symbol))
    let add ← encodeTemplate (buildAddImmediateTemplate m.register 0)
    pure (out.push add (some (.addPageOffset12, symbol)))
  | none =>
    match macroResolveTarget m.target ctx.blockAddresses ctx.container with
    | none => .error .malformed
    | some target =>
      let adrp ← encodeTemplate (buildAdrpTemplate m.register (target &&& ~~~0xfff#64) here)
      let add ← encodeTemplate
        (buildAddImmediateTemplate m.register (target &&& 0xfff#64).toNat)
      pure ((out.push adrp none).push add none)

def emitAccessValue (m : AarchMacro) (here : U64) (ctx : EmitContext) (out : EmitOutput) :
    Except (MacroEmitError EncodeError) EmitOutput :=
  match m.originalInstructions with
  | [originalAdrp, originalCompanion] => do
    match ← macroRelocation m ctx with
    | some symbol =>
      let adrp ← encodeTemplate (buildAdrpTemplate m.register (here &&& ~~~0xfff#64) here)
      let out := out.push adrp (some (.adrpPage21, symbol))
      let companion ← encodeTemplate (originalTemplate originalCompanion (here + 4))
      match ldstAccessWidthBytes originalCompanion with
      | none => .error .noRelocationForMnemonic
      | some width => pure (out.push companion (some (.loadStorePageOffset12 width, symbol)))
    | none =>
      let adrp ← encodeTemplate (originalTemplate originalAdrp here)
      let companion ← encodeTemplate (originalTemplate originalCompanion (here + 4))
      pure ((out.push adrp none).push companion none)
  | _ => .error .malformed

/-- Emit a fused macro: copied when unmodified in place, else expanded. -/
def emitAarchMacro (m : AarchMacro) (here : U64) (ctx : EmitContext) (out : EmitOutput) :
    Except (MacroEmitError EncodeError) EmitOutput :=
  match verbatimMacro m here ctx with
  | some raw => .ok (out.push raw none)
  | none =>
    match m.kind with
    | .loadAddress => emitLoadAddress m here ctx out
    | .accessValue => emitAccessValue m here ctx out

end Armv8Encode

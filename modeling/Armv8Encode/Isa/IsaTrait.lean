/-
  Armv8Encode.Isa.IsaTrait — the interface the rewrite layer is generic over.

  Lift, layout and emit call into per-ISA logic only through `Isa`: branch
  geometry, encoding, operand introspection, relocation mapping and macro
  fusion.  The associated types of the Rust trait are parameters here:
  mnemonics `Mn`, registers `Rg`, decoded operands `Op`, encoder errors `E`,
  macro kinds `Mk` and decoded instructions `Di`.
-/
import Armv8Encode.Rewrite.Ir

namespace Armv8Encode

open Lib

/-- Classification of a PC-relative operand. -/
inductive PcRelKind where
  | branch
  | page
  deriving Repr, DecidableEq

/-- Per-instruction relocation summary used during lift and fusion. -/
structure FusionRelocationInfo where
  kind : RelocationKind
  symbol : Option SymbolId
  deriving Repr, DecidableEq

/-- A fix-up the rewriter wants the linker to apply. -/
structure EmittedRelocation where
  offset : U64
  kind : RelocationKind
  symbol : SymbolId
  addend : Int
  deriving Repr, DecidableEq

/-- Bytes produced by the emit pass plus the relocations the linker needs. -/
structure EmitOutput where
  bytes : List Byte
  relocations : List EmittedRelocation
  deriving Repr, DecidableEq

/-- Where an address points: a block of the graph, a symbol, or nowhere known. -/
def resolveAddress (address : U64) (blockAtAddress : Map U64 BasicBlockId)
    (container : Option Container) : Target :=
  match blockAtAddress address with
  | some id => .block id
  | none =>
    match container.bind (fun c => c.symbolAtAddress address) with
    | some symbol => .symbol symbol.id
    | none => .absolute address

/-- Error from `Isa.emitMacro`. -/
inductive MacroEmitError (E : Type) where
  | encode (e : E)
  | malformed
  | noRelocationForMnemonic
  /-- The source indexes past the end of the symbol list and panics. -/
  | indexOutOfBounds
  deriving Repr, DecidableEq

/-- Where a macro or instruction is emitted: its address, the final block
addresses, the container, and the section being re-emitted, if any. -/
structure EmitContext where
  blockAddresses : List U64
  container : Option Container
  currentSection : Option SectionId

/-- The architecture-neutral interface of an instruction set. -/
structure Isa (Mn Rg Op E Mk Di : Type) where
  decodedAddress : Di → U64
  decodedMnemonic : Di → Mn
  decodedOperands : Di → List Op
  decodedSize : Di → U64
  /-- Decode one instruction from raw little-endian bytes. -/
  decode : U64 → List Byte → Option Di
  pcrelKind : Op → Option (PcRelKind × U64)
  makePcrelOperand : PcRelKind → U64 → Op
  pcrelRangeBytes : Mn → Option Int
  invertConditionalBranch : Mn → Option Mn
  widenedConditionalSize : U64
  widenedConditionalRange : Int
  encode : Mn → List Op → U64 → Except E (List Byte)
  encodeWidenedConditional : Mn → List Op → U64 → U64 → Except E (List Byte)
  relocationKindFor : Mn → PcRelKind → Option RelocationKind
  isPcRelativeRelocation : RelocationKind → Bool
  isLiftRelevantRelocation : RelocationKind → Bool
  fuseMacros : List (RewriteInstruction Mn Op) → Map U64 BasicBlockId → Option Container →
    Map U64 FusionRelocationInfo → List (RewriteOp Mn Rg Op Mk)
  instructionSourceSize : Mn → U64
  /-- Emit a fused macro at an address, appending to the output. -/
  emitMacro : MacroOp Mn Rg Op Mk → U64 → EmitContext → EmitOutput →
    Except (MacroEmitError E) EmitOutput

variable {Mn Rg Op E Mk Di : Type}

namespace Isa

variable (I : Isa Mn Rg Op E Mk Di)

/-- Bytes one instruction reserves: its decoded length when known, else the
size the mnemonic implies. -/
def sizeOf (i : RewriteInstruction Mn Op) : U64 :=
  i.sourceSize.getD (I.instructionSourceSize i.mnemonic)

/-- Bytes a macro reserves: the sum over the instructions it was built from. -/
def macroSourceSize (originals : List (RewriteInstruction Mn Op)) : U64 :=
  (originals.map I.sizeOf).sum

/-- Bytes an op reserves before any widening. -/
def sourceByteSize : RewriteOp Mn Rg Op Mk → U64
  | .instruction i => I.sizeOf i
  | .macroOp m => I.macroSourceSize m.originalInstructions
  | .raw bytes => BitVec.ofNat 64 bytes.length

end Isa

/-- The part of an output appended to another: bytes concatenate and the
relocation offsets of the second part move past the bytes of the first. -/
def EmitOutput.append (a b : EmitOutput) : EmitOutput where
  bytes := a.bytes ++ b.bytes
  relocations := a.relocations ++ b.relocations.map
    (fun r => { r with offset := BitVec.ofNat 64 a.bytes.length + r.offset })

/-- The empty output. -/
def EmitOutput.empty : EmitOutput := ⟨[], []⟩

namespace EmitOutput

@[simp] theorem bytes_empty : EmitOutput.empty.bytes = [] := rfl

@[simp] theorem relocations_empty : EmitOutput.empty.relocations = [] := rfl

@[simp] theorem bytes_append (a b : EmitOutput) : (a.append b).bytes = a.bytes ++ b.bytes := rfl

@[simp] theorem append_empty (a : EmitOutput) : a.append .empty = a := by
  simp [append, empty]

theorem append_assoc (a b c : EmitOutput) :
    (a.append b).append c = a.append (b.append c) := by
  simp [append, BitVec.ofNat_add, BitVec.add_assoc, Function.comp_def]

end EmitOutput

end Armv8Encode

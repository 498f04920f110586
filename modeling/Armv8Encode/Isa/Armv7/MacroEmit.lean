/-
  Armv8Encode.Isa.Armv7.MacroEmit — expanding a `movw`/`movt` pair.

  Thumb and ARM mode load a 32-bit address by one instruction for each half.
  When the target needs a relocation both halves are zero and carry one;
  otherwise they hold the halves of the resolved address.  Lift never builds
  such a macro; an edit may.
-/
import Armv8Encode.Isa.Aarch64.MacroEmit
import Armv8Encode.Isa.Armv7.ArmCodec
import Armv8Encode.Isa.Armv7.ThumbEncode

namespace Armv8Encode.Armv7

open Lib

/-- The two bytes of a halfword. -/
def halfwordBytes (h : Word) : List Byte := [h.setWidth 8, (h >>> 8).setWidth 8]

/-- A 32-bit Thumb word in memory: the first halfword is its high half. -/
def wordBytes (word : Word) : List Byte := halfwordBytes (word >>> 16) ++ halfwordBytes word

@[simp] theorem length_wordBytes (word : Word) : (wordBytes word).length = 4 := rfl

/-- An instruction set's two halves: their encoders and their relocations. -/
structure MovwMovt where
  movw : Register → Int → Except EncodeError (List Byte)
  movt : Register → Int → Except EncodeError (List Byte)
  movwRelocation : RelocationKind
  movtRelocation : RelocationKind

/-- The symbol a pair must be relocated against, if any. -/
def relocationOfTarget (target : Target) (ctx : EmitContext) :
    Except (MacroEmitError EncodeError) (Option SymbolId) :=
  match target, ctx.container with
  | .symbol id, some c =>
    match macroSymbolNeedsRelocation c id ctx.currentSection with
    | none => .error .indexOutOfBounds
    | some true => .ok (some id)
    | some false => .ok none
  | _, _ => .ok none

/-- Expand a pair for a target register. -/
def MovwMovt.emit (halves : MovwMovt) (register : Register) (target : Target) (ctx : EmitContext)
    (out : EmitOutput) : Except (MacroEmitError EncodeError) EmitOutput := do
  match ← relocationOfTarget target ctx with
  | some symbol =>
    let movw ← (halves.movw register 0).mapError MacroEmitError.encode
    let movt ← (halves.movt register 0).mapError MacroEmitError.encode
    pure ((out.push movw (some (halves.movwRelocation, symbol))).push movt
      (some (halves.movtRelocation, symbol)))
  | none =>
    match macroResolveTarget target ctx.blockAddresses ctx.container with
    | none => .error .malformed
    | some address =>
      let movw ← (halves.movw register (address &&& 0xffff).toNat).mapError MacroEmitError.encode
      let movt ← (halves.movt register ((address >>> 16) &&& 0xffff).toNat).mapError
        MacroEmitError.encode
      pure ((out.push movw none).push movt none)

/-! ## §1. Thumb. -/

namespace Thumb

inductive MacroKind where
  | movwMovt
  deriving Repr, DecidableEq

/-- The row with the given fixed bits. -/
def findRow (opcode mask : Word) : Option ThumbOpcode :=
  thumbOpcodeTable.find? fun row => row.opcode == opcode && row.mask == mask

/-- One half by the row with the given fixed bits; a row that is missing from
the table makes the source panic. -/
def encodeHalf (opcode mask : Word) (rd : Register) (imm16 : Int) :
    Except EncodeError (List Byte) :=
  match findRow opcode mask with
  | none => .error (.noMatchingForm "<thumb-mnemonic>" 2)
  | some row => do
    let encoded ← encodeWithRow row [.register rd, .immediate imm16] 0
    pure (wordBytes encoded.1)

def movwMovt : MovwMovt where
  movw := encodeHalf 0xf2400000 0xfbf08000
  movt := encodeHalf 0xf2c00000 0xfbf08000
  movwRelocation := .thumbMovwAbsNc
  movtRelocation := .thumbMovtAbs

def emitMacro (m : MacroOp ThumbMnemonic Register DecodedOperand MacroKind) (_here : U64)
    (ctx : EmitContext) (out : EmitOutput) : Except (MacroEmitError EncodeError) EmitOutput :=
  match m.kind with
  | .movwMovt => movwMovt.emit m.register m.target ctx out

end Thumb

/-! ## §2. ARM mode. -/

namespace Arm

inductive MacroKind where
  | movwMovt
  deriving Repr, DecidableEq

/-- The row with the given fixed bits. -/
def findRow (opcode mask : Word) : Option ArmOpcode :=
  armOpcodeTable.find? fun row => row.opcode == opcode && row.mask == mask

/-- One half, always executed, by the row with the given fixed bits. -/
def encodeHalf (opcode mask : Word) (rd : Register) (imm16 : Int) :
    Except EncodeError (List Byte) :=
  match findRow opcode mask with
  | none => .error (.noMatchingForm "<arm-mnemonic>" 3)
  | some row => do
    let word ← encodeWithRow row [.condition 14, .register rd, .immediate imm16] 0
    pure (toLeBytes word)

def movwMovt : MovwMovt where
  movw := encodeHalf 0x03000000 0x0ff00000
  movt := encodeHalf 0x03400000 0x0ff00000
  movwRelocation := .armMovwAbsNc
  movtRelocation := .armMovtAbs

def emitMacro (m : MacroOp ArmMnemonic Register DecodedOperand MacroKind) (_here : U64)
    (ctx : EmitContext) (out : EmitOutput) : Except (MacroEmitError EncodeError) EmitOutput :=
  match m.kind with
  | .movwMovt => movwMovt.emit m.register m.target ctx out

end Arm

end Armv8Encode.Armv7

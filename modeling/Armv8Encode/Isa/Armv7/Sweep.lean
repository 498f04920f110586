/-
  Armv8Encode.Isa.Armv7.Sweep — linear sweeps of Thumb and ARM-mode text.

  Both sweeps look a word up in their own table and in the NEON table, Thumb
  after its own and ARM mode before it.  A NEON, VFP or coprocessor word is
  kept whole: its mnemonic is a placeholder and its one operand carries all
  the bits.  A Thumb instruction gets one more operand, the bits that the
  row's mask leaves open.
-/
import Armv8Encode.Isa.Armv7.ArmCodec
import Armv8Encode.Isa.Armv7.NeonRows
import Armv8Encode.Isa.Armv7.ThumbDecode

namespace Armv8Encode.Armv7

open Lib

/-! ## §1. The NEON table. -/

/-- A Thumb NEON word in its ARM form. -/
def normaliseNeonThumb (given : Word) : Option Word :=
  if given &&& 0xef000000 = 0xef000000 then
    let g := given &&& 0x00ffffff
    some (g ||| (if given &&& (1 <<< 28) ≠ 0 then 0xf3000000 else 0xf2000000))
  else if given &&& 0xff000000 = 0xf9000000 then some (given ^^^ (0xf9000000 ^^^ 0xf4000000))
  else if given &&& 0xff000000 = 0xfe000000 ∨ given &&& 0xff000000 = 0xfc000000 then some given
  else if given &&& 0xff900f5f = 0xee800b10 then some given
  else none

/-- A row whose mask leaves the high bits open asks for 0xe there. -/
def NeonOpcode.matchesNormalised (row : NeonOpcode) (norm : Word) : Bool :=
  row.isa == .neon &&
    (if row.mask &&& 0xf0000000 = 0 then
      norm &&& (row.mask ||| 0xf0000000) == row.opcode ||| 0xe0000000
    else norm &&& row.mask == row.opcode)

def NeonOpcode.matchesCoprocessor (row : NeonOpcode) (word : Word) : Bool :=
  row.isa != .neon && row.isa != .arm &&
    word &&& (row.mask ||| 0xf0000000) == row.opcode ||| 0xe0000000

def matchNeonThumb (word : Word) : Option NeonOpcode :=
  ((normaliseNeonThumb word).bind fun norm =>
      neonOpcodeTable.find? fun row => row.matchesNormalised norm).or
    (neonOpcodeTable.find? fun row =>
      row.matchesCoprocessor ((word &&& 0x0fffffff) ||| 0xe0000000))

def matchNeonArm (word : Word) : Option NeonOpcode :=
  neonOpcodeTable.find? fun row => row.isa != .thumb && word &&& row.mask == row.opcode

/-! ## §2. Thumb. -/

namespace Thumb

structure DecodedInstruction where
  address : U64
  word : Word
  width : ThumbWidth
  mnemonic : ThumbMnemonic
  operands : List DecodedOperand
  row : Option ThumbOpcode
  neonRow : Option NeonOpcode
  deriving Repr, DecidableEq

def sizeBytes : ThumbWidth → Nat
  | .halfword => 2
  | .word => 4

inductive DisassembleError where
  | truncated (offset available : Nat)
  | noMatch (address : U64) (word : Word) (width : ThumbWidth)
  deriving Repr, DecidableEq

def matchGenerated (word : Word) (width : ThumbWidth) : Option ThumbOpcode :=
  thumbOpcodeTable.find? fun row => row.width == width && word &&& row.mask == row.opcode

/-- The bits that a row's mask leaves open. -/
def tailMask (row : ThumbOpcode) : Word :=
  match row.width with
  | .halfword => 0xffff &&& ~~~(row.mask &&& 0xffff)
  | .word => ~~~row.mask

/-- The operand that carries them, if there are any. -/
def tailOperand (row : ThumbOpcode) (word : Word) : List DecodedOperand :=
  if tailMask row = 0 then [] else [.opaqueBits (word &&& tailMask row) (tailMask row)]

/-- The operands of a word that matches a row. -/
def rowOperands (row : ThumbOpcode) (word : Word) (address : U64) : List DecodedOperand :=
  decodeOperandsFromFormat row.format word address row.width ++ tailOperand row word

def decodeOne (address : U64) (word : Word) (width : ThumbWidth) :
    Except DisassembleError DecodedInstruction :=
  match matchGenerated word width with
  | some row =>
    .ok ⟨address, word, width, row.mnemonic, rowOperands row word address, some row, none⟩
  | none =>
    match width with
    | .halfword => .error (.noMatch address word width)
    | .word =>
      match matchNeonThumb word with
      | some neonRow =>
        .ok ⟨address, word, width, .nop, [.opaqueBits word 0xffffffff], none, some neonRow⟩
      | none => .error (.noMatch address word width)

def halfwordOf (b0 b1 : Byte) : Word := b0.setWidth 32 ||| (b1.setWidth 32 <<< 8)

/-- A first halfword that announces a second one. -/
def isWide (hw1 : Word) : Bool := [0b11101, 0b11110, 0b11111].contains (hw1 >>> 11).toNat

/-- Decode instruction after instruction; `offset` counts from the base address. -/
def disassembleFrom (base : U64) (offset : Nat) :
    List Byte → Except DisassembleError (List DecodedInstruction)
  | [] => .ok []
  | [_] => .error (.truncated offset 1)
  | b0 :: b1 :: rest =>
    if isWide (halfwordOf b0 b1) then
      match rest with
      | b2 :: b3 :: rest => do
        let word := (halfwordOf b0 b1 <<< 16) ||| halfwordOf b2 b3
        let d ← decodeOne (base + BitVec.ofNat 64 offset) word .word
        let tail ← disassembleFrom base (offset + 4) rest
        pure (d :: tail)
      | [_] => .error (.truncated offset 3)
      | [] => .error (.truncated offset 2)
    else do
      let d ← decodeOne (base + BitVec.ofNat 64 offset) (halfwordOf b0 b1) .halfword
      let tail ← disassembleFrom base (offset + 2) rest
      pure (d :: tail)

def disassembleBytes (base : U64) (bytes : List Byte) :
    Except DisassembleError (List DecodedInstruction) :=
  disassembleFrom base 0 bytes

end Thumb

/-! ## §3. ARM mode. -/

namespace Arm

structure DecodedInstruction where
  address : U64
  word : Word
  mnemonic : ArmMnemonic
  operands : List DecodedOperand
  row : Option ArmOpcode
  neonRow : Option NeonOpcode
  deriving Repr, DecidableEq

inductive DisassembleError where
  | unalignedLength (length : Nat)
  | noMatch (address : U64) (word : Word)
  deriving Repr, DecidableEq

def matchGenerated (word : Word) : Option ArmOpcode :=
  armOpcodeTable.find? fun row => word &&& row.mask == row.opcode

def decodeOne (address : U64) (word : Word) : Except DisassembleError DecodedInstruction :=
  match matchNeonArm word with
  | some neonRow =>
    .ok ⟨address, word, .nop, [.opaqueBits word 0xffffffff], none, some neonRow⟩
  | none =>
    match matchGenerated word with
    | some row =>
      .ok ⟨address, word, row.mnemonic, decodeOperandsFromFormat row.format word address, some row,
        none⟩
    | none => .error (.noMatch address word)

/-- Decode word after word; `offset` counts from the base address. -/
def disassembleFrom (base : U64) (offset : Nat) :
    List Byte → Except DisassembleError (List DecodedInstruction)
  | b0 :: b1 :: b2 :: b3 :: rest => do
    let d ← decodeOne (base + BitVec.ofNat 64 offset) (fromLeBytes b0 b1 b2 b3)
    let tail ← disassembleFrom base (offset + 4) rest
    pure (d :: tail)
  | _ => .ok []

def disassembleBytes (base : U64) (bytes : List Byte) :
    Except DisassembleError (List DecodedInstruction) :=
  if bytes.length % 4 ≠ 0 then .error (.unalignedLength bytes.length)
  else disassembleFrom base 0 bytes

end Arm

end Armv8Encode.Armv7

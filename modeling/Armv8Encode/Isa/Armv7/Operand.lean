/-
  Armv8Encode.Isa.Armv7.Operand — decoded operands, codec errors, bit fields.

  Thumb and ARM mode share their operand type.  Bits that no kind of operand
  describes are carried as they stand in the word (`opaqueBits`), with the
  mask of the bits that the operand owns.
-/
import Armv8Encode.Isa.Armv7.Format
import Armv8Encode.Lib.Splice

namespace Armv8Encode.Armv7

open Lib

/-! ## §1. Operands. -/

inductive RegisterClass where
  | r | low | s | d | q
  deriving Repr, DecidableEq

structure Register where
  regClass : RegisterClass
  index : Byte
  deriving Repr, DecidableEq

inductive DecodedOperand where
  | register (r : Register)
  | immediate (value : Int)
  | branchTarget (address : U64)
  | pcRelative (address : U64)
  | registerList (mask : BitVec 16)
  | condition (cond : Byte)
  | opaqueBits (bits mask : Word)
  deriving Repr, DecidableEq

def operandKind : DecodedOperand → String
  | .register _ => "Register"
  | .immediate _ => "Immediate"
  | .branchTarget _ => "BranchTarget"
  | .pcRelative _ => "PcRelative"
  | .registerList _ => "RegisterList"
  | .condition _ => "Condition"
  | .opaqueBits _ _ => "OpaqueBits"

/-! ## §2. Errors. -/

inductive EncodeError where
  | noMatchingForm (mnemonic : String) (operandCount : Nat)
  | operandShapeMismatch (slot : Nat) (formatCode got : String)
  | immediateOutOfRange (slot : Nat) (value : Int) (bits : Nat)
  | registerOutOfRange (slot : Nat) (index : Byte) (max : Nat)
  | branchOutOfRange (slot : Nat) (displacement : Int) (bits : Nat)
  | unsupportedFormatCode (formatCode : String)
  | arityMismatch (formatSlots operands : Nat)
  deriving Repr, DecidableEq

/-- The error of a letter that has no inverse. -/
def unsupportedCode (bitfield : List Char) (letter : Char) : EncodeError :=
  .unsupportedFormatCode (String.ofList ('%' :: bitfield ++ [letter]))

/-! ## §3. Fields. -/

/-- Bits `lo` to `hi` of a word. -/
def extractField (word : Word) (lo hi : Nat) : Word := field word lo (hi - lo + 1)

/-- The word with a value in the bits `lo` to `hi`. -/
def placeField (word : Word) (lo hi : Nat) (value : Word) : Word :=
  setField word lo (hi - lo + 1) value

def placeUnsigned (word : Word) (lo hi : Nat) (value : Int) (slot : Nat) :
    Except EncodeError Word :=
  if value < 0 ∨ 2 ^ (hi - lo + 1) ≤ value then
    .error (.immediateOutOfRange slot value (hi - lo + 1))
  else .ok (placeField word lo hi (BitVec.ofInt 32 value))

/-- Sign extension of the low `bits` bits. -/
def signExtend (value : U64) (bits : Nat) : U64 :=
  if bits = 0 ∨ 64 ≤ bits then value else (value <<< (64 - bits)).sshiftRight (64 - bits)

/-! ## §4. What a letter expects. -/

def unwrapBitfield (bitfield : List Char) (slot : Nat) (code : String) :
    Except EncodeError (Nat × Nat) :=
  match parseBitfield bitfield with
  | some range => .ok range
  | none => .error (.operandShapeMismatch slot code "bad bitfield")

def shapeMismatch (operand : DecodedOperand) (slot : Nat) (code : String) : EncodeError :=
  .operandShapeMismatch slot code (operandKind operand)

def expectRegister (operand : DecodedOperand) (slot : Nat) (code : String) :
    Except EncodeError Register :=
  match operand with
  | .register r => .ok r
  | _ => .error (shapeMismatch operand slot code)

def expectImmediate (operand : DecodedOperand) (slot : Nat) (code : String) :
    Except EncodeError Int :=
  match operand with
  | .immediate value => .ok value
  | _ => .error (shapeMismatch operand slot code)

def expectBranchTarget (operand : DecodedOperand) (slot : Nat) (code : String) :
    Except EncodeError U64 :=
  match operand with
  | .branchTarget address => .ok address
  | _ => .error (shapeMismatch operand slot code)

def expectPcRelative (operand : DecodedOperand) (slot : Nat) (code : String) :
    Except EncodeError U64 :=
  match operand with
  | .pcRelative address => .ok address
  | _ => .error (shapeMismatch operand slot code)

def expectRegisterList (operand : DecodedOperand) (slot : Nat) (code : String) :
    Except EncodeError (BitVec 16) :=
  match operand with
  | .registerList mask => .ok mask
  | _ => .error (shapeMismatch operand slot code)

def expectCondition (operand : DecodedOperand) (slot : Nat) (code : String) :
    Except EncodeError Byte :=
  match operand with
  | .condition cond => .ok cond
  | _ => .error (shapeMismatch operand slot code)

/-- An operand that the decoder carried as bits, put back into the word. -/
def packOpaque (operand : DecodedOperand) (slot : Nat) (code : String) (word : Word) :
    Except EncodeError Word :=
  match operand with
  | .opaqueBits bits mask => .ok (splice word bits mask)
  | _ => .error (shapeMismatch operand slot code)

/-- The operand in a slot. -/
def operandAt (operands : List DecodedOperand) (slot : Nat) : Except EncodeError DecodedOperand :=
  match operands[slot]? with
  | some operand => .ok operand
  | none => .error (.arityMismatch (slot + 1) operands.length)

end Armv8Encode.Armv7

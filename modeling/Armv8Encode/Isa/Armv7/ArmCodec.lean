/-
  Armv8Encode.Isa.Armv7.ArmCodec — ARM-mode operands and words.

  The same walk as in Thumb mode with ARM mode's letters.  A condition is an
  operand of every conditional row.  No operand carries the bits that the
  row's mask leaves open and that no escape describes, and operands left over
  after the walk are ignored.
-/
import Armv8Encode.Isa.Armv7.ArmRows
import Armv8Encode.Isa.Armv7.Operand

namespace Armv8Encode.Armv7.Arm

open Lib

/-! ## §1. Decoding. -/

def oMask : Word := 0x02100fff
def aMask : Word := 0x03af0fff
def sMask : Word := 0x02ef0f0f

def opaqueOf (word mask : Word) : DecodedOperand := .opaqueBits (word &&& mask) mask

def registerOperand (word : Word) (lo hi : Nat) : DecodedOperand :=
  .register ⟨.r, (extractField word lo hi).setWidth 8⟩

def immediateOf (v : Word) : DecodedOperand := .immediate v.toNat

/-- The signed 24-bit word offset. -/
def wordOffset (word : Word) : U64 := (((word &&& 0xffffff) <<< 8).sshiftRight 8).signExtend 64

/-- The literal that a load with an immediate offset from the program counter reads. -/
def literalTarget (word : Word) (address : U64) : List DecodedOperand :=
  if (word >>> 16) &&& 0xf = 15 ∧ (word >>> 25) &&& 1 = 0 then
    let imm12 : U64 := (word &&& 0xfff).setWidth 64
    let signed := if (word >>> 23) &&& 1 = 1 then imm12 else -imm12
    [.pcRelative (address + 8 + signed)]
  else []

/-- The operand of a letter with a bit range; none without one. -/
def ranged (bitfield : List Char) (f : Nat → Nat → DecodedOperand) : List DecodedOperand :=
  match parseBitfield bitfield with
  | some (lo, hi) => [f lo hi]
  | none => []

/-- The letters that take no bit range. -/
def decodeFixed (letter : Char) (word : Word) (address : U64) : List DecodedOperand :=
  match letter with
  | 'c' => [.condition (((word >>> 28) &&& 0xf).setWidth 8)]
  | 'b' => [.branchTarget (address + 8 + wordOffset word * 4)]
  | 'B' =>
    let h : U64 := ((word >>> 24) &&& 1).setWidth 64
    [.branchTarget (address + 8 + (wordOffset word * 4 + h * 2))]
  | 'm' => [.registerList ((word &&& 0xffff).setWidth 16)]
  | 'o' => [opaqueOf word oMask]
  | 'a' => opaqueOf word aMask :: literalTarget word address
  | 's' => [opaqueOf word sMask]
  | 'V' => [immediateOf ((((word >>> 16) &&& 0xf) <<< 12) ||| (word &&& 0xfff))]
  | 'E' =>
    let lsb := (word >>> 7) &&& 0x1f
    let msb := (word >>> 16) &&& 0x1f
    [immediateOf lsb, .immediate (((msb.toNat - lsb.toNat) + 1 : Nat) : Int)]
  | 'e' => [immediateOf ((((word >>> 8) &&& 0xfff) <<< 8) ||| (word &&& 0xff))]
  | 'U' => [immediateOf (word &&& 0xf)]
  | _ => []

/-- The operands that an escape of a row describes. -/
def decodeCode (bitfield : List Char) (letter : Char) (word : Word) (address : U64) :
    List DecodedOperand :=
  match letter with
  | 'r' | 'R' => ranged bitfield (registerOperand word)
  | 'T' => ranged bitfield fun lo hi =>
    .register ⟨.r, (extractField word lo hi).setWidth 8 + 1⟩
  | 'd' | 'x' | 'X' => ranged bitfield fun lo hi => immediateOf (extractField word lo hi)
  | 'W' => ranged bitfield fun lo hi => .immediate ((extractField word lo hi).toNat + 1)
  | _ => if bitfield.isEmpty then decodeFixed letter word address else []

mutual

def decodeEscape (word : Word) (address : U64) : Escape → List DecodedOperand
  | .code bitfield letter => decodeCode bitfield letter word address
  | .wrapper inner => decodeEscapes word address inner

def decodeEscapes (word : Word) (address : U64) : List Escape → List DecodedOperand
  | [] => []
  | e :: rest => decodeEscape word address e ++ decodeEscapes word address rest

end

/-- The operands that a format string describes. -/
def decodeOperandsFromFormat (format : String) (word : Word) (address : U64) :
    List DecodedOperand :=
  decodeEscapes word address (escapes format)

/-! ## §2. One operand. -/

/-- The distance from the program counter, which reads 8 bytes ahead. -/
def branchDisplacement (target address : U64) : Int := (target - address - 8).toInt

/-- `%b`: 24 bits of words. -/
def packBranch (word : Word) (target address : U64) (slot : Nat) : Except EncodeError Word :=
  let d := branchDisplacement target address
  if d % 4 ≠ 0 then .error (.branchOutOfRange slot d 24)
  else
    let words := d.tdiv 4
    if words < -2 ^ 23 ∨ 2 ^ 23 ≤ words then .error (.branchOutOfRange slot d 24)
    else .ok (placeField word 0 23 (BitVec.ofInt 32 words))

/-- `%B`: the same with a halfword bit.  The division rounds towards zero. -/
def packBlx (word : Word) (target address : U64) (slot : Nat) : Except EncodeError Word :=
  let d := branchDisplacement target address
  if d % 2 ≠ 0 then .error (.branchOutOfRange slot d 25)
  else
    let h := (BitVec.ofInt 32 d &&& 2) >>> 1
    let words := d.tdiv 4
    if words < -2 ^ 23 ∨ 2 ^ 23 ≤ words then .error (.branchOutOfRange slot d 25)
    else .ok (placeField (placeField word 0 23 (BitVec.ofInt 32 words)) 24 24 h)

def packRegister (word : Word) (lo hi : Nat) (index : Byte) (slot : Nat) :
    Except EncodeError Word :=
  let max := 2 ^ (hi - lo + 1) - 1
  if max < index.toNat then .error (.registerOutOfRange slot index max)
  else .ok (placeField word lo hi (index.setWidth 32))

/-- A letter with a bit range. -/
def packRanged (letter : Char) (lo hi : Nat) (operand : DecodedOperand) (slot : Nat)
    (word : Word) : Except EncodeError Word :=
  match letter with
  | 'r' | 'R' => do packRegister word lo hi (← expectRegister operand slot "r/R/T").index slot
  -- the field holds the register's number less one
  | 'T' => do
    let r ← expectRegister operand slot "r/R/T"
    if r.index = 0 then .error (.registerOutOfRange slot r.index (2 ^ (hi - lo + 1) - 1))
    else packRegister word lo hi (r.index - 1) slot
  | 'W' => do
    let v ← expectImmediate operand slot "W"
    if v < 1 then .error (.immediateOutOfRange slot v (hi - lo + 1))
    else placeUnsigned word lo hi (v - 1) slot
  | _ => do placeUnsigned word lo hi (← expectImmediate operand slot (String.singleton letter)) slot

/-- The letters that take no bit range. -/
def packFixed (letter : Char) (operand : DecodedOperand) (slot : Nat) (word : Word)
    (address : U64) : Except EncodeError Word :=
  match letter with
  | 'b' => do packBranch word (← expectBranchTarget operand slot "b") address slot
  | 'B' => do packBlx word (← expectBranchTarget operand slot "B") address slot
  | 'm' => do
    let mask ← expectRegisterList operand slot "m"
    .ok (placeField word 0 15 (mask.setWidth 32))
  | 'o' => packOpaque operand slot "o" word
  | 'a' => packOpaque operand slot "a" word
  | 's' => packOpaque operand slot "s" word
  | 'V' => do
    let v ← expectImmediate operand slot "V"
    if v < 0 ∨ 0xffff < v then .error (.immediateOutOfRange slot v 16)
    else
      let raw := BitVec.ofInt 32 v
      .ok (placeField (placeField word 0 11 (raw &&& 0xfff)) 16 19 ((raw >>> 12) &&& 0xf))
  -- only the low bit's number is packed; the width is left to a later escape
  | 'E' => do
    let v ← expectImmediate operand slot "E"
    if v < 0 ∨ 31 < v then .error (.immediateOutOfRange slot v 5)
    else .ok (placeField word 7 11 (BitVec.ofInt 32 v))
  | 'e' => do
    let v ← expectImmediate operand slot "e"
    if v < 0 ∨ 0xfffff < v then .error (.immediateOutOfRange slot v 20)
    else
      let raw := BitVec.ofInt 32 v
      .ok (placeField (placeField word 0 7 (raw &&& 0xff)) 8 19 ((raw >>> 8) &&& 0xfff))
  | 'U' => do
    let v ← expectImmediate operand slot "U"
    if v < 0 ∨ 15 < v then .error (.immediateOutOfRange slot v 4)
    else .ok (placeField word 0 3 (BitVec.ofInt 32 v))
  | _ => .error (unsupportedCode [] letter)

/-- The letters that need a bit range. -/
def isRangedLetter (letter : Char) : Bool := ['r', 'R', 'T', 'd', 'W', 'x', 'X'].contains letter

/-- What an error calls a letter. -/
def letterName (letter : Char) : String :=
  if ['r', 'R', 'T'].contains letter then "r/R/T" else String.singleton letter

/-- Pack one operand into the word. -/
def packOperand (bitfield : List Char) (letter : Char) (operand : DecodedOperand) (slot : Nat)
    (word : Word) (address : U64) : Except EncodeError Word :=
  if bitfield.isEmpty then packFixed letter operand slot word address
  else if isRangedLetter letter then do
    let (lo, hi) ← unwrapBitfield bitfield slot (letterName letter)
    packRanged letter lo hi operand slot word
  else .error (unsupportedCode bitfield letter)

/-! ## §3. The walk. -/

/-- Escapes that only concern the display. -/
def isDisplay (bitfield : List Char) (letter : Char) : Bool :=
  ['C', 'x', 'X', '%', 'p', 't', 'q'].contains letter && bitfield.isEmpty

/-- One letter of the walk: a condition, a display escape, or any other operand. -/
def encodeCode (operands : List DecodedOperand) (address : U64) (word : Word) (consumed : Nat)
    (bitfield : List Char) (letter : Char) : Except EncodeError (Word × Nat) :=
  if letter = 'c' ∧ bitfield.isEmpty then do
    let cond ← expectCondition (← operandAt operands consumed) consumed "c"
    pure (placeField word 28 31 (cond.setWidth 32), consumed + 1)
  else if isDisplay bitfield letter then .ok (word, consumed)
  else do
    let word ← packOperand bitfield letter (← operandAt operands consumed) consumed word address
    pure (word, consumed + 1)

mutual

def encodeEscape (operands : List DecodedOperand) (address : U64) (word : Word)
    (consumed : Nat) : Escape → Except EncodeError (Word × Nat)
  | .wrapper inner => do
    let (word, c) ← encodeWalk (operands.drop consumed) address word 0 inner
    pure (word, consumed + c)
  | .code bitfield letter => encodeCode operands address word consumed bitfield letter

/-- The walk; it is the same inside a wrapper. -/
def encodeWalk (operands : List DecodedOperand) (address : U64) (word : Word) (consumed : Nat) :
    List Escape → Except EncodeError (Word × Nat)
  | [] => .ok (word, consumed)
  | e :: rest => do
    let (word, consumed) ← encodeEscape operands address word consumed e
    encodeWalk operands address word consumed rest

end

def encodeWithFormat (format : String) (opcodeBase : Word) (operands : List DecodedOperand)
    (address : U64) : Except EncodeError Word := do
  let (word, _) ← encodeWalk operands address opcodeBase 0 (escapes format)
  pure word

/-! ## §4. Rows. -/

def encodeWithRow (row : ArmOpcode) (operands : List DecodedOperand) (address : U64) :
    Except EncodeError Word :=
  encodeWithFormat row.format row.opcode operands address

/-- The first row of the list that takes the operands; else the error of the last one. -/
def encodeAmong (operands : List DecodedOperand) (address : U64) (lastErr : EncodeError) :
    List ArmOpcode → Except EncodeError Word
  | [] => .error lastErr
  | row :: rest =>
    match encodeWithRow row operands address with
    | .ok word => .ok word
    | .error e => encodeAmong operands address e rest

/-- Encode by mnemonic: the first row of the mnemonic that takes the operands. -/
def encode (mnemonic : ArmMnemonic) (operands : List DecodedOperand) (address : U64) :
    Except EncodeError Word :=
  encodeAmong operands address (.noMatchingForm "<arm-mnemonic>" operands.length)
    (armOpcodeTable.filter fun row => row.mnemonic == mnemonic)

end Armv8Encode.Armv7.Arm

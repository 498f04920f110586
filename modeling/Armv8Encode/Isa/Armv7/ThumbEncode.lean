/-
  Armv8Encode.Isa.Armv7.ThumbEncode — Thumb words from operands.

  The encoder walks the same escapes as the decoder and takes the operands in
  order.  Operands left over after the walk are ignored, except that bits
  carried as they stood are put back: the sweep appends such an operand for
  all the bits that the row's mask leaves open.
-/
import Armv8Encode.Isa.Armv7.ThumbDecode

namespace Armv8Encode.Armv7.Thumb

open Lib

/-! ## §1. Branch fields. -/

/-- The distance from the program counter, which reads 4 bytes ahead. -/
def branchDisplacement (target address : U64) : U64 := target - address - 4

def packBlTarget (word : Word) (target address : U64) (slot : Nat) : Except EncodeError Word :=
  let displacement := branchDisplacement target address
  let d := displacement.toInt
  if d % 2 ≠ 0 ∨ d < -2 ^ 24 ∨ 2 ^ 24 ≤ d then .error (.branchOutOfRange slot d 25)
  else
    let raw : Word := displacement.setWidth 32 &&& 0x1ffffff
    let s : Word := (displacement.setWidth 32 >>> 24) &&& 1
    let j1 := (~~~((raw >>> 23) &&& 1) ^^^ s) &&& 1
    let j2 := (~~~((raw >>> 22) &&& 1) ^^^ s) &&& 1
    let word := placeField word 26 26 s
    let word := placeField word 16 25 ((raw >>> 12) &&& 0x3ff)
    let word := placeField word 13 13 j1
    let word := placeField word 11 11 j2
    .ok (placeField word 0 10 ((raw >>> 1) &&& 0x7ff))

def packBCondWideTarget (word : Word) (target address : U64) (slot : Nat) :
    Except EncodeError Word :=
  let displacement := branchDisplacement target address
  let d := displacement.toInt
  if d % 2 ≠ 0 ∨ d < -2 ^ 20 ∨ 2 ^ 20 ≤ d then .error (.branchOutOfRange slot d 21)
  else
    let raw : Word := displacement.setWidth 32 &&& 0x1fffff
    let s : Word := (displacement.setWidth 32 >>> 20) &&& 1
    let word := placeField word 26 26 s
    let word := placeField word 16 21 ((raw >>> 12) &&& 0x3f)
    let word := placeField word 13 13 ((raw >>> 17) &&& 1)
    let word := placeField word 11 11 ((raw >>> 18) &&& 1)
    .ok (placeField word 0 10 ((raw >>> 1) &&& 0x7ff))

/-- A signed displacement in halfwords. -/
def packShortBranch (word : Word) (lo hi : Nat) (target address : U64) (slot : Nat) :
    Except EncodeError Word :=
  let d := (branchDisplacement target address).toInt
  let bits := hi - lo + 1
  if d % 2 ≠ 0 then .error (.branchOutOfRange slot d bits)
  else
    let halfwords := d / 2
    if halfwords < -2 ^ (bits - 1) ∨ 2 ^ (bits - 1) ≤ halfwords then
      .error (.branchOutOfRange slot halfwords bits)
    else .ok (placeField word lo hi (BitVec.ofInt 32 halfwords))

/-- A displacement forwards, in units of `scale` bytes. -/
def packForward (word : Word) (lo hi : Nat) (d : Int) (scale : Int) (slot : Nat) :
    Except EncodeError Word :=
  let bits := hi - lo + 1
  if d < 0 ∨ d % scale ≠ 0 then .error (.branchOutOfRange slot d bits)
  else
    let units := BitVec.ofInt 32 (d / scale)
    if 2 ^ bits ≤ units.toNat then .error (.branchOutOfRange slot d bits)
    else .ok (placeField word lo hi units)

/-! ## §2. Immediates. -/

/-- An immediate in units of `scale`. -/
def packScaled (word : Word) (lo hi : Nat) (v scale : Int) (slot : Nat) :
    Except EncodeError Word :=
  if v % scale ≠ 0 then .error (.immediateOutOfRange slot v (hi - lo + 1))
  else placeUnsigned word lo hi (v / scale) slot

/-- The 12 bits of a Thumb-2 immediate. -/
def placeImm12 (word v : Word) : Word :=
  let word := placeField word 0 7 (v &&& 0xff)
  let word := placeField word 12 14 ((v >>> 8) &&& 7)
  placeField word 26 26 ((v >>> 11) &&& 1)

/-- The first rotation that brings the value into 8 bits with the top one set. -/
def rotationForm (v : Word) : Option Word :=
  (List.range 32).findSome? fun rot =>
    let candidate := v.rotateLeft rot
    if candidate >>> 8 = 0 ∧ candidate &&& 0x80 ≠ 0 then
      some ((BitVec.ofNat 32 rot <<< 7) ||| (candidate &&& 0x7f))
    else none

/-- The 12-bit form of a modified immediate. -/
def thumbExpandImmInverse (value : Int) : Option Word :=
  if value < 0 ∨ 2 ^ 32 ≤ value then none
  else
    let v := BitVec.ofInt 32 value
    let low8 := v &&& 0xff
    let low8b := (v >>> 8) &&& 0xff
    if v ≤ 0xff then some v
    else if v = (low8 <<< 16) ||| low8 then some ((1 <<< 8) ||| low8)
    else if v = (low8b <<< 24) ||| (low8b <<< 8) ∧ v &&& 0xff = 0 then some ((2 <<< 8) ||| low8b)
    else if v = (low8 <<< 24) ||| (low8 <<< 16) ||| (low8 <<< 8) ||| low8 then
      some ((3 <<< 8) ||| low8)
    else rotationForm v

/-! ## §3. One operand. -/

/-- A register in a field. -/
def packRegister (word : Word) (lo hi : Nat) (r : Register) (slot : Nat) :
    Except EncodeError Word :=
  let max := 2 ^ (hi - lo + 1) - 1
  if max < r.index.toNat then .error (.registerOutOfRange slot r.index max)
  else .ok (placeField word lo hi (r.index.setWidth 32))

/-- A letter with a bit range. -/
def packRanged (letter : Char) (lo hi : Nat) (operand : DecodedOperand) (slot : Nat)
    (word : Word) (address : U64) : Except EncodeError Word :=
  match letter with
  | 'r' | 'R' | 'S' => do packRegister word lo hi (← expectRegister operand slot "r/R/S") slot
  | 'd' => do placeUnsigned word lo hi (← expectImmediate operand slot "d") slot
  | 'x' => do placeUnsigned word lo hi (← expectImmediate operand slot "x") slot
  | 'D' => do
    let v ← expectImmediate operand slot "D"
    if v < 1 then .error (.immediateOutOfRange slot v (hi - lo + 1))
    else placeUnsigned word lo hi (v - 1) slot
  | 'W' => do packScaled word lo hi (← expectImmediate operand slot "W") 4 slot
  | 'H' => do packScaled word lo hi (← expectImmediate operand slot "H") 2 slot
  | 'B' => do packShortBranch word lo hi (← expectBranchTarget operand slot "B") address slot
  | 'b' => do
    let target ← expectBranchTarget operand slot "b"
    packForward word lo hi (branchDisplacement target address).toInt 2 slot
  | 'a' => do
    let target ← expectPcRelative operand slot "a"
    packForward word lo hi (target - ((address + 4) &&& ~~~ 3#64)).toInt 4 slot
  | _ => .error (unsupportedCode [] letter)

/-- The letters whose field is the same in every row that uses them. -/
def packFixed (bitfield : List Char) (letter : Char) (operand : DecodedOperand) (slot : Nat)
    (word : Word) (address : U64) (width : ThumbWidth) : Except EncodeError Word :=
  match letter, width with
  | 'B', .word => do packBlTarget word (← expectBranchTarget operand slot "B") address slot
  | 'b', .word => do
    packBCondWideTarget word (← expectBranchTarget operand slot "b") address slot
  | 'S', .halfword => do
    let r ← expectRegister operand slot "S"
    let word := placeField word 3 5 ((r.index &&& 7).setWidth 32)
    .ok (placeField word 6 6 (((r.index >>> 3) &&& 1).setWidth 32))
  | 'S', .word => packOpaque operand slot "S" word
  | 'D', .halfword => do
    let r ← expectRegister operand slot "D"
    let word := placeField word 0 2 ((r.index &&& 7).setWidth 32)
    .ok (placeField word 7 7 (((r.index >>> 3) &&& 1).setWidth 32))
  | 'M', .halfword => do
    let mask ← expectRegisterList operand slot "M"
    if mask &&& ~~~ 0xff#16 ≠ 0 then .error (.immediateOutOfRange slot mask.toNat 8)
    else .ok (placeField word 0 7 (mask.setWidth 32))
  | 'N', _ => do
    let mask ← expectRegisterList operand slot "N"
    let word := placeField word 0 7 ((mask &&& 0xff).setWidth 32)
    .ok (placeField word 8 8 (((mask >>> 14) &&& 1).setWidth 32))
  | 'O', _ => do
    let mask ← expectRegisterList operand slot "O"
    let word := placeField word 0 7 ((mask &&& 0xff).setWidth 32)
    .ok (placeField word 8 8 (((mask >>> 15) &&& 1).setWidth 32))
  | 'I', .word => do
    let v ← expectImmediate operand slot "I"
    if v < 0 ∨ 0xfff < v then .error (.immediateOutOfRange slot v 12)
    else .ok (placeImm12 word (BitVec.ofInt 32 v))
  | 'M', .word =>
    match operand with
    | .opaqueBits bits mask => .ok (splice word bits mask)
    | .immediate v =>
      match thumbExpandImmInverse v with
      | some raw => .ok (placeImm12 word raw)
      | none => .error (.unsupportedFormatCode "%M (rotation form not yet invertible)")
    | _ => .error (shapeMismatch operand slot "M")
  | 'J', .word => do
    let v ← expectImmediate operand slot "J"
    if v < 0 ∨ 0xffff < v then .error (.immediateOutOfRange slot v 16)
    else
      let raw := BitVec.ofInt 32 v
      .ok (placeField (placeImm12 word raw) 16 19 ((raw >>> 12) &&& 0xf))
  | 'a', _ | 'b', .halfword | 'I', .halfword => packOpaque operand slot "OpaqueBits-expected" word
  | 'H', _ | 'R', _ => .ok word
  | _, _ => .error (unsupportedCode bitfield letter)

/-- The letters that carry bits as they stand, or that the encoder passes over although
it takes an operand for them, with or without a bit range. -/
def packOther (bitfield : List Char) (letter : Char) (operand : DecodedOperand) (slot : Nat)
    (word : Word) : Except EncodeError Word :=
  match letter with
  | 's' | 'L' | 'E' | 'F' | 'm' | 'n' => packOpaque operand slot "OpaqueBits-expected" word
  | 'G' | 'V' | 'K' | 'P' | 'Q' | 'U' | 'W' | 'Y' | 'Z' => .ok word
  | _ => .error (unsupportedCode bitfield letter)

/-- The letters that read a bit range if they have one. -/
def isRangedLetter (letter : Char) (width : ThumbWidth) : Bool :=
  ['r', 'R', 'S', 'd', 'D', 'W', 'H', 'x', 'B', 'a'].contains letter
    || (letter == 'b' && width == .halfword)

/-- What an error calls a letter. -/
def letterName (letter : Char) : String :=
  if ['r', 'R', 'S'].contains letter then "r/R/S" else String.singleton letter

/-- The letters whose field does not depend on a bit range. -/
def isFixedLetter (letter : Char) : Bool :=
  ['B', 'b', 'S', 'D', 'M', 'N', 'O', 'I', 'J', 'a', 'H', 'R'].contains letter

/-- Pack one operand into the word. -/
def packOperand (bitfield : List Char) (letter : Char) (operand : DecodedOperand) (slot : Nat)
    (word : Word) (address : U64) (width : ThumbWidth) : Except EncodeError Word :=
  if !bitfield.isEmpty && isRangedLetter letter width then do
    let (lo, hi) ← unwrapBitfield bitfield slot (letterName letter)
    packRanged letter lo hi operand slot word address
  else if isFixedLetter letter then packFixed bitfield letter operand slot word address width
  else packOther bitfield letter operand slot word

/-! ## §4. The walk. -/

/-- Escapes that only concern the display. -/
def isDisplay (bitfield : List Char) (letter : Char) : Bool :=
  ['c', 'C', 'x', 'X', '%', 't'].contains letter
    || (['w', 'W'].contains letter && bitfield.isEmpty)

/-- Pack the operand that stands next, at `consumed`. -/
def packNext (bitfield : List Char) (letter : Char) (operands : List DecodedOperand)
    (consumed : Nat) (word : Word) (address : U64) (width : ThumbWidth) :
    Except EncodeError (Word × Nat) := do
  let operand ← operandAt operands consumed
  let word ← packOperand bitfield letter operand consumed word address width
  pure (word, consumed + 1)

mutual

/-- The walk inside a wrapper, where a condition is never an operand. -/
def encodeInnerEscape (operands : List DecodedOperand) (address : U64) (width : ThumbWidth)
    (word : Word) (consumed : Nat) : Escape → Except EncodeError (Word × Nat)
  | .wrapper inner => do
    let (word, c) ← encodeWalkInner (operands.drop consumed) address width word 0 inner
    pure (word, consumed + c)
  | .code bitfield letter =>
    if isDisplay bitfield letter then .ok (word, consumed)
    else packNext bitfield letter operands consumed word address width

def encodeWalkInner (operands : List DecodedOperand) (address : U64) (width : ThumbWidth)
    (word : Word) (consumed : Nat) : List Escape → Except EncodeError (Word × Nat)
  | [] => .ok (word, consumed)
  | e :: rest => do
    let (word, consumed) ← encodeInnerEscape operands address width word consumed e
    encodeWalkInner operands address width word consumed rest

end

/-- One escape of the outer walk. -/
def encodeEscape (operands : List DecodedOperand) (address : U64) (width : ThumbWidth)
    (word : Word) (consumed : Nat) : Escape → Except EncodeError (Word × Nat)
  | .wrapper inner => do
    let (word, c) ← encodeWalkInner (operands.drop consumed) address width word 0 inner
    pure (word, consumed + c)
  | .code bitfield letter =>
    match letter, parseBitfield bitfield with
    | 'c', some (lo, hi) => do
      let cond ← expectCondition (← operandAt operands consumed) consumed "c"
      pure (placeField word lo hi (cond.setWidth 32), consumed + 1)
    | _, _ =>
      if isDisplay bitfield letter then .ok (word, consumed)
      else packNext bitfield letter operands consumed word address width

def encodeWalk (operands : List DecodedOperand) (address : U64) (width : ThumbWidth)
    (word : Word) (consumed : Nat) : List Escape → Except EncodeError (Word × Nat)
  | [] => .ok (word, consumed)
  | e :: rest => do
    let (word, consumed) ← encodeEscape operands address width word consumed e
    encodeWalk operands address width word consumed rest

/-- The bits carried by operands that no escape took. -/
def spliceTail (word : Word) (operands : List DecodedOperand) : Word :=
  operands.foldl (fun word operand =>
    match operand with
    | .opaqueBits bits mask => splice word bits mask
    | _ => word) word

def encodeWithFormat (format : String) (opcodeBase : Word) (operands : List DecodedOperand)
    (address : U64) (width : ThumbWidth) : Except EncodeError Word := do
  let (word, consumed) ← encodeWalk operands address width opcodeBase 0 (escapes format)
  pure (spliceTail word (operands.drop consumed))

/-! ## §5. Rows. -/

def encodeWithRow (row : ThumbOpcode) (operands : List DecodedOperand) (address : U64) :
    Except EncodeError (Word × ThumbWidth) := do
  let word ← encodeWithFormat row.format row.opcode operands address row.width
  pure (word, row.width)

/-- The first row of the list that takes the operands; else the error of the last one. -/
def encodeAmong (operands : List DecodedOperand) (address : U64) (lastErr : EncodeError) :
    List ThumbOpcode → Except EncodeError (Word × ThumbWidth)
  | [] => .error lastErr
  | row :: rest =>
    match encodeWithRow row operands address with
    | .ok encoded => .ok encoded
    | .error e => encodeAmong operands address e rest

/-- Encode by mnemonic: the first row of the mnemonic that takes the operands. -/
def encode (mnemonic : ThumbMnemonic) (operands : List DecodedOperand) (address : U64) :
    Except EncodeError (Word × ThumbWidth) :=
  encodeAmong operands address (.noMatchingForm "<thumb-mnemonic>" operands.length)
    (thumbOpcodeTable.filter fun row => row.mnemonic == mnemonic)

end Armv8Encode.Armv7.Thumb

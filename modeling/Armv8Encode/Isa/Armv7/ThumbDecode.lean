/-
  Armv8Encode.Isa.Armv7.ThumbDecode — Thumb operands by format string.

  Each escape of a row's format string yields the operands that it describes:
  mostly one, none for display escapes, two for an address that is also
  PC-relative.  Of the source's two results only the operands are kept; the
  list of escapes it could not handle is read by nothing here.
-/
import Armv8Encode.Isa.Armv7.Operand
import Armv8Encode.Isa.Armv7.ThumbRows

namespace Armv8Encode.Armv7.Thumb

open Lib

/-! ## §1. Branch targets. -/

/-- The 32-bit `bl` and unconditional `b.w`: a 25-bit displacement S:I1:I2:imm10:imm11:0. -/
def blRaw (word : Word) : Word :=
  let s := (word >>> 26) &&& 1
  let j1 := (word >>> 13) &&& 1
  let j2 := (word >>> 11) &&& 1
  let i1 := ~~~(j1 ^^^ s) &&& 1
  let i2 := ~~~(j2 ^^^ s) &&& 1
  (s <<< 24) ||| (i1 <<< 23) ||| (i2 <<< 22) ||| (((word >>> 16) &&& 0x3ff) <<< 12)
    ||| ((word &&& 0x7ff) <<< 1)

def decodeBlBTarget (word : Word) (address : U64) : U64 :=
  let signed : Word := (blRaw word <<< 7).sshiftRight 7
  address + 4 + signed.signExtend 64

/-- The 32-bit conditional `b.w`, in halfwords: S:J2:J1:imm6:imm11. -/
def bCondRaw (word : Word) : Word :=
  let s := (word >>> 26) &&& 1
  let j1 := (word >>> 13) &&& 1
  let j2 := (word >>> 11) &&& 1
  (s <<< 19) ||| (j2 <<< 18) ||| (j1 <<< 17) ||| (((word >>> 16) &&& 0x3f) <<< 11)
    ||| (word &&& 0x7ff)

def decodeBCondWideTarget (word : Word) (address : U64) : U64 :=
  address + 4 + signExtend ((bCondRaw word).setWidth 64) 20 * 2

/-- The offset of a low-overhead loop: bits 10:1 over bit 11. -/
def loopOffset (word : Word) : Word :=
  (((word >>> 1) &&& 0x3ff) <<< 2) ||| (((word >>> 11) &&& 1) <<< 1)

/-- The displacement of a branch-future target, with `immABits` bits of immA. -/
def branchFutureOffset (word immAMask : Word) (signBit : Nat) : Int :=
  let raw := (((word >>> 16) &&& immAMask) <<< 12) ||| (((word >>> 1) &&& 0x3ff) <<< 2)
    ||| (((word >>> 11) &&& 1) <<< 1)
  if raw.getLsbD signBit then (raw.toNat : Int) - 2 ^ (signBit + 1) else raw.toNat

/-! ## §2. One escape. -/

def registerOperand (word : Word) (lo hi : Nat) : DecodedOperand :=
  .register ⟨.r, (extractField word lo hi).setWidth 8⟩

def immediateOf (v : Word) : DecodedOperand := .immediate v.toNat

/-- The masked bits of the word, as they stand. -/
def opaqueOf (word mask : Word) : DecodedOperand := .opaqueBits (word &&& mask) mask

def sMask : Word := 0x001070ff
def mImmMask : Word := 0x040070ff
def aMask : Word := 0x00ef0fff
def lMask : Word := 0x03af00ff
def mMask : Word := 0x0020ffff
def eMask : Word := 0x0000709f
def i16Mask : Word := 0x00ff
def s16Mask : Word := 0x07c0
def b16Mask : Word := 0x02f8

/-- The address that an offset from the program counter denotes, if the base is the
program counter. -/
def literalTarget (word : Word) (address : U64) (offset : Word) : List DecodedOperand :=
  if (word >>> 16) &&& 0xf = 0xf then
    let signed : U64 :=
      if (word >>> 23) &&& 1 = 1 then offset.setWidth 64 else -(offset.setWidth 64)
    [.pcRelative ((address &&& ~~~ 3#64) + 4 + signed)]
  else []

/-- The operand of a letter with a bit range; none without one. -/
def ranged (bitfield : List Char) (f : Nat → Nat → DecodedOperand) : List DecodedOperand :=
  match parseBitfield bitfield with
  | some (lo, hi) => [f lo hi]
  | none => []

/-- The 16-bit immediate spread over a word. -/
def scattered (high mid low : Word) (midBits lowBits : Nat) : DecodedOperand :=
  immediateOf ((high <<< (midBits + lowBits)) ||| (mid <<< lowBits) ||| low)

/-- The letters that only 32-bit forms use, without a bit range. -/
def decodeWordCode (letter : Char) (word : Word) (address : U64) : List DecodedOperand :=
  match letter with
  | 'E' | 'F' => [opaqueOf word eMask]
  | 'L' => opaqueOf word lMask :: literalTarget word address ((word &&& 0xff) * 4)
  | 'a' => opaqueOf word aMask :: literalTarget word address (word &&& 0xfff)
  | 'S' => [opaqueOf word sMask]
  -- ssat and usat: no operand for a shift by zero
  | 's' =>
    let imm5 := (((word >>> 12) &&& 7) <<< 2) ||| ((word >>> 6) &&& 3)
    if imm5 = 0 then [] else [immediateOf imm5]
  | 'U' => [immediateOf (word &&& 0xf)]
  | 'P' => [.branchTarget (address + 4 - (loopOffset word).setWidth 64)]
  | 'Q' => [.branchTarget (address + 4 + (loopOffset word).setWidth 64)]
  | 'G' => [immediateOf (((word >>> 23) &&& 0xf) <<< 1)]
  | 'Y' => [.branchTarget (address + 4 + BitVec.ofInt 64 (branchFutureOffset word 0x7f 18))]
  | 'Z' => [.branchTarget (address + 4 + BitVec.ofInt 64 (branchFutureOffset word 1 12))]
  | _ => []

/-- The operands that an escape of a row describes. -/
def decodeCode (bitfield : List Char) (letter : Char) (word : Word) (address : U64)
    (width : ThumbWidth) : List DecodedOperand :=
  match letter with
  | 'c' => ranged bitfield fun lo hi => .condition ((extractField word lo hi).setWidth 8)
  | 'r' | 'R' => ranged bitfield (registerOperand word)
  | 'd' | 'x' => ranged bitfield fun lo hi => immediateOf (extractField word lo hi)
  | 'W' => ranged bitfield fun lo hi => immediateOf (extractField word lo hi * 4)
  -- bit 8 stands for the link register, or for the program counter
  | 'N' =>
    [.registerList (((word &&& 0xff#32) ||| (((word >>> 8) &&& 1#32) <<< 14)).setWidth 16)]
  | 'O' =>
    [.registerList (((word &&& 0xff#32) ||| (((word >>> 8) &&& 1#32) <<< 15)).setWidth 16)]
  | 'M' =>
    match width with
    | .halfword => [.registerList ((word &&& 0xff).setWidth 16)]
    | .word => [opaqueOf word mImmMask]
  | 'I' =>
    match width with
    | .halfword => [opaqueOf word i16Mask]
    | .word =>
      [scattered ((word >>> 26) &&& 1) ((word >>> 12) &&& 7) (word &&& 0xff) 3 8]
  | 'B' =>
    match parseBitfield bitfield, width with
    | some (lo, hi), _ =>
      [.branchTarget (address + 4
        + signExtend ((extractField word lo hi).setWidth 64) (hi - lo + 1) * 2)]
    | none, .word => [.branchTarget (decodeBlBTarget word address)]
    | none, .halfword => []
  | 'b' =>
    match width with
    | .word => [.branchTarget (decodeBCondWideTarget word address)]
    | .halfword =>
      if bitfield.isEmpty then [opaqueOf word b16Mask]
      else ranged bitfield fun lo hi =>
        .branchTarget (address + 4 + (extractField word lo hi).setWidth 64 * 2)
  | 'J' =>
    match width with
    | .word =>
      [immediateOf ((((word >>> 16) &&& 0xf) <<< 12) ||| (((word >>> 26) &&& 1) <<< 11)
        ||| (((word >>> 12) &&& 7) <<< 8) ||| (word &&& 0xff))]
    | .halfword => []
  | 'K' =>
    match width with
    | .word => [scattered (word &&& 0xf) ((word >>> 16) &&& 0xf) ((word >>> 4) &&& 0xff) 4 8]
    | .halfword => []
  | 'V' =>
    match width with
    | .word => [immediateOf ((((word >>> 16) &&& 0xf) <<< 12) ||| (word &&& 0xfff))]
    | .halfword => []
  | 'm' | 'n' =>
    match width with
    | .word => [opaqueOf word mMask]
    | .halfword => []
  | 'S' =>
    if !bitfield.isEmpty then ranged bitfield (registerOperand word)
    else
      match width with
      -- the register's high bit is bit 6
      | .halfword =>
        [.register ⟨.r, ((((word >>> 6) &&& 1) <<< 3) ||| ((word >>> 3) &&& 7)).setWidth 8⟩]
      | .word => decodeWordCode letter word address
  | 'D' =>
    if !bitfield.isEmpty then
      ranged bitfield fun lo hi => .immediate ((extractField word lo hi).toNat + 1)
    else
      match width with
      -- the register's high bit is bit 7
      | .halfword =>
        [.register ⟨.r, ((((word >>> 7) &&& 1) <<< 3) ||| (word &&& 7)).setWidth 8⟩]
      | .word => []
  | 'H' =>
    if !bitfield.isEmpty then
      ranged bitfield fun lo hi => immediateOf (extractField word lo hi * 2)
    else
      match width with
      | .word => [immediateOf (((word &&& 0xf) <<< 12) ||| ((word >>> 16) &&& 0xfff))]
      | .halfword => []
  | 'a' =>
    if !bitfield.isEmpty then
      ranged bitfield fun lo hi =>
        .pcRelative (((address + 4) &&& ~~~ 3#64) + (extractField word lo hi).setWidth 64 * 4)
    else
      match width with
      | .word => decodeWordCode letter word address
      | .halfword => []
  | 's' =>
    if !bitfield.isEmpty then []
    else
      match width with
      | .word => decodeWordCode letter word address
      | .halfword => [opaqueOf word s16Mask]
  | _ =>
    match bitfield, width with
    | [], .word => decodeWordCode letter word address
    | _, _ => []

/-! ## §3. The walk. -/

mutual

/-- The operands of one escape: those of its letter, or of a wrapper's text. -/
def decodeEscape (word : Word) (address : U64) (width : ThumbWidth) :
    Escape → List DecodedOperand
  | .code bitfield letter => decodeCode bitfield letter word address width
  | .wrapper inner => decodeEscapes word address width inner

def decodeEscapes (word : Word) (address : U64) (width : ThumbWidth) :
    List Escape → List DecodedOperand
  | [] => []
  | e :: rest => decodeEscape word address width e ++ decodeEscapes word address width rest

end

/-- The operands that a format string describes. -/
def decodeOperandsFromFormat (format : String) (word : Word) (address : U64)
    (width : ThumbWidth) : List DecodedOperand :=
  decodeEscapes word address width (escapes format)

end Armv8Encode.Armv7.Thumb

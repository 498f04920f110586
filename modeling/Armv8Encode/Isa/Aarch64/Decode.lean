/-
  Armv8Encode.Isa.Aarch64.Decode — operand decoders and instruction decode.

  `decodeInstruction` matches the word against the opcode table and decodes
  each operand slot of the row from the word's bits.  A PC-relative operand
  is shown as the absolute address it denotes at the instruction's address.
-/
import Armv8Encode.Isa.Aarch64.Operand

namespace Armv8Encode

open Lib

/-! ## §1. Fields of a word. -/

/-- The value of a field, as a number. -/
def bitsOf (w : Word) (lo len : Nat) : Nat := (field w lo len).toNat

/-- The value of a field, read as a two's complement number. -/
def signedBitsOf (w : Word) (lo len : Nat) : Int := ((w >>> lo).setWidth len).toInt

def xReg (reg : Nat) : Register := ⟨.x, reg⟩

def wReg (reg : Nat) : Register := ⟨.w, reg⟩

def xOrSp (reg : Nat) : Register := ⟨.xOrSp, reg⟩

/-- A general register whose width is the `sf` bit. -/
def gpReg (reg : Nat) (w : Word) : Register :=
  if w.getLsbD 31 then xReg reg else wReg reg

def gpOrSp (reg : Nat) (w : Word) : Register :=
  if w.getLsbD 31 then xOrSp reg else ⟨.wOrSp, reg⟩

/-! ## §2. General registers. -/

def isCasp (mnemonic : String) : Bool :=
  ["casp", "caspa", "caspl", "caspal"].contains mnemonic

def isCrc32 (mnemonic : String) : Bool :=
  ["crc32b", "crc32h", "crc32w", "crc32x", "crc32cb", "crc32ch", "crc32cw",
    "crc32cx"].contains mnemonic

def is32BitCrc32Source (mnemonic : String) : Bool :=
  ["crc32b", "crc32h", "crc32w", "crc32cb", "crc32ch", "crc32cw"].contains mnemonic

def has32BitMultiplyInputs (mnemonic : String) : Bool :=
  ["smaddl", "smsubl", "smull", "smnegl", "umaddl", "umsubl", "umull",
    "umnegl"].contains mnemonic

/-- Register of a compare-and-swap pair; bit 30 is its width. -/
def lsePairReg (reg : Nat) (w : Word) : Register :=
  if w.getLsbD 30 then xReg reg else wReg reg

/-- Width class and scale of a single SIMD&FP load or store. -/
def fpLdstWidth (w : Word) : RegisterClass × Nat :=
  match bitsOf w 23 1 * 4 + bitsOf w 30 2 with
  | 0 => (.b, 0)
  | 1 => (.h, 1)
  | 2 => (.s, 2)
  | 3 => (.d, 3)
  | _ => (.q, 4)

def fpLdstReg (reg : Nat) (w : Word) : Register := ⟨(fpLdstWidth w).1, reg⟩

/-- Register of a SIMD&FP load or store pair, width from bits 31:30. -/
def fpLoadStoreReg (reg : Nat) (w : Word) : Register :=
  match bitsOf w 30 2 with
  | 0 => ⟨.s, reg⟩
  | 1 => ⟨.d, reg⟩
  | _ => ⟨.q, reg⟩

/-- Register of an FP data-processing operand, width from bits 23:22. -/
def fpReg (reg : Nat) (w : Word) : Register :=
  if bitsOf w 22 2 = 1 then ⟨.d, reg⟩ else ⟨.s, reg⟩

def isPairClass (c : Aarch64InsnClass) : Bool :=
  match c with
  | .ldstnapairOffs | .ldstpairOff | .ldstpairIndexed => true
  | _ => false

def isSingleLdstClass (c : Aarch64InsnClass) : Bool :=
  match c with
  | .ldstImm9 | .ldstPos | .ldstRegoff | .ldstUnscaled => true
  | _ => false

def ftReg (reg : Nat) (w : Word) (row : Aarch64Opcode) : Register :=
  if isPairClass row.iclass then fpLoadStoreReg reg w else fpLdstReg reg w

/-- The transfer register of a load or store: the first arm that applies. -/
def rtReg (w : Word) (row : Aarch64Opcode) : Register :=
  let reg := bitsOf w 0 5
  let n := row.name
  if isCasp n then lsePairReg reg w
  else if n = "cbz" ∨ n = "cbnz" then gpReg reg w
  else if (n = "str" ∨ n = "ldr") ∧ bitsOf w 26 6 = 0b111101 then fpLdstReg reg w
  else if n = "ldr" ∧ bitsOf w 30 2 = 0 then wReg reg
  else if (n = "str" ∨ n = "ldr") ∧ bitsOf w 30 2 = 0b10 then wReg reg
  else if ["strb", "ldrb", "strh", "ldrh", "sturb", "ldurb", "sturh", "ldurh"].contains n
    then wReg reg
  else if (n = "stur" ∨ n = "ldur") ∧ bitsOf w 30 2 = 0b10 then wReg reg
  else xReg reg

def rsReg (w : Word) (row : Aarch64Opcode) : Register :=
  if isCasp row.name then lsePairReg (bitsOf w 16 5) w else wReg (bitsOf w 16 5)

/-- The second register of a compare-and-swap pair: one past the first. -/
def pairReg (w : Word) (operandIndex : Nat) : Register :=
  let even := match operandIndex with
    | 1 => bitsOf w 16 5
    | 3 => bitsOf w 0 5
    | _ => 31
  lsePairReg (even + 1) w

/-- Element size of an `imm5` field: its lowest set bit. -/
def elementSizeFromImm5 (imm5 : Nat) : VectorElementSize :=
  if imm5 % 2 = 1 then .b
  else if imm5 % 4 = 2 then .h
  else if imm5 % 8 = 4 then .s
  else .d

def rdReg (w : Word) (row : Aarch64Opcode) : Register :=
  let reg := bitsOf w 0 5
  let n := row.name
  if n = "adr" ∨ n = "adrp" then xReg reg
  else if isCrc32 n then wReg reg
  else if (n = "mov" ∨ n = "umov" ∨ n = "smov") ∧ row.iclass = .asimdins then
    match elementSizeFromImm5 (bitsOf w 16 5) with
    | .d => xReg reg
    | _ => wReg reg
  else gpReg reg w

def rnReg (w : Word) (row : Aarch64Opcode) : Register :=
  if has32BitMultiplyInputs row.name || isCrc32 row.name then wReg (bitsOf w 5 5)
  else gpReg (bitsOf w 5 5) w

def rmReg (w : Word) (row : Aarch64Opcode) : Register :=
  if has32BitMultiplyInputs row.name || is32BitCrc32Source row.name then wReg (bitsOf w 16 5)
  else gpReg (bitsOf w 16 5) w

def shiftKindOf : Nat → ShiftKind
  | 0 => .lsl
  | 1 => .lsr
  | 2 => .asr
  | _ => .ror

def rmShifted (w : Word) : ShiftedRegister :=
  ⟨gpReg (bitsOf w 16 5) w, ⟨shiftKindOf (bitsOf w 22 2), bitsOf w 10 6⟩⟩

def extendKindOf : Nat → ExtendKind
  | 0 => .uxtb
  | 1 => .uxth
  | 2 => .uxtw
  | 3 => .uxtx
  | 4 => .sxtb
  | 5 => .sxth
  | 6 => .sxtw
  | _ => .sxtx

def rmExtended (w : Word) : ExtendedRegister :=
  let extend := extendKindOf (bitsOf w 13 3)
  let register := match extend with
    | .uxtx | .sxtx => xReg (bitsOf w 16 5)
    | _ => wReg (bitsOf w 16 5)
  ⟨register, extend, bitsOf w 10 3⟩

/-! ## §3. Vector registers, elements and lists. -/

def vectorArrangementFromParts (q size : Nat) : VectorArrangement :=
  match q, size with
  | 0, 0 => .b8
  | 1, 0 => .b16
  | 0, 1 => .h4
  | 1, 1 => .h8
  | 0, 2 => .s2
  | 1, 2 => .s4
  | 0, 3 => .d1
  | _, _ => .d2

def vectorArrangement (w : Word) : VectorArrangement :=
  vectorArrangementFromParts (bitsOf w 30 1) (bitsOf w 22 2)

def simdModifiedImmediateArrangement (w : Word) : VectorArrangement :=
  let q := bitsOf w 30 1
  let op := bitsOf w 29 1
  let cmode := bitsOf w 12 4
  if 0x8 ≤ cmode ∧ cmode ≤ 0xb then vectorArrangementFromParts q 1
  else if cmode = 0xe ∧ op = 0 then vectorArrangementFromParts q 0
  else if cmode = 0xf ∧ op = 1 then .d2
  else vectorArrangementFromParts q 2

/-- Log2 of the element size in bytes that a shift's `immh` selects. -/
def immhSize (immh : Nat) : Nat :=
  if immh = 1 then 0
  else if immh = 2 ∨ immh = 3 then 1
  else if 4 ≤ immh ∧ immh ≤ 7 then 2
  else 3

def vectorShiftArrangement (w : Word) : VectorArrangement :=
  vectorArrangementFromParts (bitsOf w 30 1) (immhSize (bitsOf w 19 4))

def arrangementFromElementSizeAndQ (size : VectorElementSize) (w : Word) : VectorArrangement :=
  match size, w.getLsbD 30 with
  | .b, false => .b8
  | .b, true => .b16
  | .h, false => .h4
  | .h, true => .h8
  | .s, false => .s2
  | .s, true => .s4
  | .d, false => .d1
  | .d, true => .d2

def shllArrangement (w : Word) : VectorArrangement :=
  match bitsOf w 22 2 with
  | 0 => .h8
  | 1 => .s4
  | _ => .d2

def vectorReg (reg : Nat) (w : Word) (row : Aarch64Opcode) : VectorRegister :=
  let arrangement :=
    if row.iclass = .asimdimm then simdModifiedImmediateArrangement w
    else if row.iclass = .asimdins ∧ row.name = "dup" then
      arrangementFromElementSizeAndQ (elementSizeFromImm5 (bitsOf w 16 5)) w
    else if row.iclass = .asimdshf then vectorShiftArrangement w
    else if row.name = "shll" then shllArrangement w
    else vectorArrangement w
  ⟨reg, arrangement⟩

def simdScalarReg (reg : Nat) (w : Word) (row : Aarch64Opcode) : Register :=
  if row.iclass = .asimdimm then ⟨.d, reg⟩
  else
    match bitsOf w 22 2 with
    | 0 => ⟨.b, reg⟩
    | 1 => ⟨.h, reg⟩
    | 2 => ⟨.s, reg⟩
    | _ => ⟨.d, reg⟩

def elementSizeShift : VectorElementSize → Nat
  | .b => 0
  | .h => 1
  | .s => 2
  | .d => 3

/-- Destination element: size and lane from `imm5`. -/
def edElement (w : Word) : VectorElement :=
  let imm5 := bitsOf w 16 5
  let size := elementSizeFromImm5 imm5
  ⟨bitsOf w 0 5, imm5 / 2 ^ (elementSizeShift size + 1), size⟩

/-- Rows whose first operand is `Ed` keep the source lane in `imm4`. -/
def usesSourceImm4 (row : Aarch64Opcode) : Bool := row.operands.head? == some .ed

def enElement (w : Word) (row : Aarch64Opcode) : VectorElement :=
  let imm5 := bitsOf w 16 5
  let size := elementSizeFromImm5 imm5
  let element :=
    if usesSourceImm4 row then bitsOf w 11 4 / 2 ^ elementSizeShift size
    else if size = .b then imm5 / 2
    else imm5 / 2 ^ (elementSizeShift size + 1)
  ⟨bitsOf w 5 5, element, size⟩

def emElement (w : Word) : VectorElement :=
  let h := bitsOf w 11 1
  let l := bitsOf w 21 1
  let m := bitsOf w 20 1
  if bitsOf w 22 2 = 1 then ⟨bitsOf w 16 5, h * 4 + l * 2 + m, .h⟩
  else ⟨bitsOf w 16 5, h * 2 + l, .s⟩

def vectorListOf (w : Word) : VectorList :=
  ⟨bitsOf w 5 5, bitsOf w 13 2 + 1, vectorArrangement w, none⟩

def simdLdstList (w : Word) : VectorList :=
  ⟨bitsOf w 0 5, (simdLdstListCount w).getD 1,
    vectorArrangementFromParts (bitsOf w 30 1) (bitsOf w 10 2), none⟩

def simdLdstElementCount (mnemonic : String) : Nat :=
  match mnemonic with
  | "ld2" | "st2" => 2
  | "ld3" | "st3" => 3
  | "ld4" | "st4" => 4
  | _ => 1

/-- Size and lane of a single-structure load or store. -/
def simdLdstElement (w : Word) : VectorElementSize × Nat :=
  let q := bitsOf w 30 1
  let s := bitsOf w 12 1
  match bitsOf w 10 2 with
  | 3 => (.b, q * 8 + s * 4 + bitsOf w 10 2)
  | 2 => (.h, q * 4 + s * 2 + bitsOf w 11 1)
  | 0 => (.s, q * 2 + s)
  | _ => (.d, q)

def arrangementForElementSize : VectorElementSize → VectorArrangement
  | .b => .b8
  | .h => .h4
  | .s => .s2
  | .d => .d1

def simdLdstElementList (w : Word) (row : Aarch64Opcode) : VectorList :=
  let sizeElement := simdLdstElement w
  ⟨bitsOf w 0 5, simdLdstElementCount row.name, arrangementForElementSize sizeElement.1,
    some sizeElement.2⟩

/-! ## §4. Immediates. -/

def vectorShiftElementWidth (immh : Nat) : Nat :=
  if immh = 1 then 8
  else if immh = 2 ∨ immh = 3 then 16
  else if 4 ≤ immh ∧ immh ≤ 7 then 32
  else 64

def immVlsl (w : Word) : Int :=
  (bitsOf w 19 4 * 8 + bitsOf w 16 3 : Int) - vectorShiftElementWidth (bitsOf w 19 4)

def immVlsr (w : Word) : Int :=
  (vectorShiftElementWidth (bitsOf w 19 4) * 2 : Int) - (bitsOf w 19 4 * 8 + bitsOf w 16 3)

def simdImm8 (w : Word) : Nat := bitsOf w 16 3 * 32 + bitsOf w 5 5

/-- The 64-bit mask with one byte of ones for each set bit of `imm8`. -/
def expandImm8 (imm8 : Nat) : U64 :=
  (List.range 8).foldl
    (fun value bit => if imm8.testBit bit then value ||| (0xff#64 <<< (bit * 8)) else value) 0

def simdImm (w : Word) : DecodedOperand :=
  if bitsOf w 29 1 = 1 ∧ bitsOf w 12 4 = 0xe then .unsignedImmediate (expandImm8 (simdImm8 w))
  else .immediate (simdImm8 w)

def simdImmSft (w : Word) : ShiftedImmediate :=
  let cmode := bitsOf w 12 4
  let shift :=
    if cmode = 0x2 ∨ cmode = 0x3 ∨ cmode = 0xa ∨ cmode = 0xb then 8
    else if cmode = 0x4 ∨ cmode = 0x5 then 16
    else if cmode = 0x6 ∨ cmode = 0x7 then 24
    else 0
  ⟨simdImm8 w, shift⟩

/-- Eight decimal digits of a number below `10 ^ 8`. -/
def eightDigits (n : Nat) : List Char :=
  let digits := Nat.toDigits 10 n
  List.replicate (8 - digits.length) '0' ++ digits

/-- An 8-bit floating immediate, printed with eight decimals.  Its value is
`(16 + fraction) / 16 * 2 ^ exponent` with an exponent of at least -3, so
`10 ^ 8` times the value is a whole number and the printed text is exact. -/
def formatFpimm8 (imm8 : Nat) : String :=
  let sign := if imm8.testBit 7 then ['-'] else []
  let low := (imm8 / 16) % 4
  -- the exponent plus three
  let scale := if imm8.testBit 6 then low else low + 4
  let scaled := (16 + imm8 % 16) * 781250 * 2 ^ scale
  String.ofList (sign ++ Nat.toDigits 10 (scaled / 10 ^ 8) ++ ['.']
    ++ eightDigits (scaled % 10 ^ 8))

def aimm (w : Word) : Int :=
  if w.getLsbD 22 then (bitsOf w 10 12 : Int) * 4096 else bitsOf w 10 12

def half (w : Word) : ShiftedImmediate := ⟨bitsOf w 5 16, bitsOf w 21 2 * 16⟩

def immMov (w : Word) : Int :=
  let shifted : U64 := (field w 5 16).setWidth 64 <<< (bitsOf w 21 2 * 16)
  if bitsOf w 29 2 = 0 then
    if w.getLsbD 31 then (~~~shifted).toInt else ((~~~shifted).setWidth 32).toInt
  else shifted.toInt

def bitfieldMax (w : Word) : Nat := if w.getLsbD 31 then 63 else 31

/-- Aliases that extract a field: `immr` holds its position. -/
def isExtractAlias (mnemonic : String) : Bool := ["ubfx", "sbfx", "bfxil"].contains mnemonic

/-- Aliases that insert a field: `immr` holds its negated position. -/
def isInsertAlias (mnemonic : String) : Bool := ["bfi", "ubfiz", "sbfiz"].contains mnemonic

def bitfieldImm (w : Word) (row : Aarch64Opcode) : Int :=
  let immr := bitsOf w 16 6
  let max := bitfieldMax w
  let regsize : Int := max + 1
  if row.name = "lsl" then (max : Int) - bitsOf w 10 6
  else if isInsertAlias row.name then (regsize - immr).tmod regsize
  else immr

def bitfieldWidth (w : Word) (row : Aarch64Opcode) : Int :=
  if isExtractAlias row.name then (bitsOf w 10 6 : Int) - bitsOf w 16 6 + 1
  else bitsOf w 10 6 + 1

/-- The highest set bit of a seven-bit value. -/
def highestSetBit (value : Nat) : Option Nat :=
  (List.range 7).reverse.find? (fun bit => value.testBit bit)

def onesOf (width : Nat) : U64 := BitVec.ofNat 64 (2 ^ width - 1)

def rotateRightWithWidth (value : U64) (rotate width : Nat) : U64 :=
  let mask := onesOf width
  let r := rotate % width
  if r = 0 then value &&& mask
  else ((value >>> r) ||| (value <<< (width - r))) &&& mask

def replicateTo64 (value : U64) (width : Nat) : U64 :=
  (List.range (64 / width)).foldl (fun result k => result ||| (value <<< (k * width))) 0

/-- The bitmask immediate of `N:immr:imms`, if it is a valid one. -/
def logicalImmediate (w : Word) : Option Int :=
  let imms := bitsOf w 10 6
  match highestSetBit (bitsOf w 22 1 * 64 + (63 - imms)) with
  | none => none
  | some len =>
    let size := 2 ^ len
    let levels := size - 1
    let s := imms &&& levels
    let r := bitsOf w 16 6 &&& levels
    if s = levels then none
    else
      let value := replicateTo64 (rotateRightWithWidth (onesOf (s + 1)) r size) size
      if w.getLsbD 31 then some value.toInt else some (value.setWidth 32).toNat

def conditionName (condition : Nat) : String :=
  match condition with
  | 0x0 => "eq"
  | 0x1 => "ne"
  | 0x2 => "hs"
  | 0x3 => "lo"
  | 0x4 => "mi"
  | 0x5 => "pl"
  | 0x6 => "vs"
  | 0x7 => "vc"
  | 0x8 => "hi"
  | 0x9 => "ls"
  | 0xa => "ge"
  | 0xb => "lt"
  | 0xc => "gt"
  | 0xd => "le"
  | 0xe => "al"
  | _ => "nv"

def condition (w : Word) : String := conditionName (bitsOf w 12 4)

def invertedCondition (w : Word) : String := conditionName (bitsOf w 12 4 ^^^ 1)

/-! ## §5. Addresses. -/

/-- The address at a signed byte offset from another. -/
def branchTarget (address : U64) (offset : Int) : U64 := address + BitVec.ofInt 64 offset

def imm14 (w : Word) : Int := signedBitsOf w 5 14 * 4

def imm19 (w : Word) : Int := signedBitsOf w 5 19 * 4

def imm26 (w : Word) : Int := signedBitsOf w 0 26 * 4

/-- The 21-bit displacement of `adr` and `adrp`: low two bits in 30:29. -/
def imm21 (w : Word) : Int :=
  ((((field w 5 19) <<< 2) ||| field w 29 2).setWidth 21).toInt

def adrpTarget (address : U64) (w : Word) : U64 :=
  (address &&& ~~~0xfff#64) + BitVec.ofInt 64 (imm21 w * 4096)

/-- Offset of a load or store pair, scaled by the access width. -/
def simm7PairOffset (w : Word) : Int :=
  let opc := bitsOf w 30 2
  let scale := if w.getLsbD 26 then 2 + opc else 2 + opc / 2
  signedBitsOf w 15 7 * 2 ^ scale

def simm9Offset (w : Word) : Int := signedBitsOf w 12 9

def simm9AddressingMode (w : Word) : AddressingMode :=
  match bitsOf w 10 2 with
  | 0b01 => .postIndex
  | 0b11 => .preIndex
  | _ => .offset

def pairAddressingMode (w : Word) : AddressingMode :=
  match bitsOf w 23 2 with
  | 0b01 => .postIndex
  | 0b11 => .preIndex
  | _ => .offset

/-- Log2 of the access width of a single load or store. -/
def ldstScale (w : Word) : Nat :=
  if w.getLsbD 26 then (fpLdstWidth w).2 else bitsOf w 30 2

def uimm12Offset (w : Word) : Int := bitsOf w 10 12 * 2 ^ ldstScale w

def regoffShift (w : Word) : Option Shift :=
  if !w.getLsbD 12 then none
  else if ldstScale w = 0 then none
  else some ⟨.lsl, ldstScale w⟩

def elementSizeBytes : VectorElementSize → Int
  | .b => 1
  | .h => 2
  | .s => 4
  | .d => 8

def simdPostIndexImmediate (w : Word) (row : Aarch64Opcode) : Int :=
  if row.operands.head? = some .let then
    simdLdstElementCount row.name * elementSizeBytes (simdLdstElement w).1
  else
    match bitsOf w 12 4 with
    | 0xc => 1
    | 0xa => 32
    | _ => 16

def simdAddrPost (w : Word) (row : Aarch64Opcode) : MemoryOperand :=
  let postRegister := bitsOf w 16 5
  let offset :=
    if postRegister = 31 then .immediate (simdPostIndexImmediate w row)
    else .register (xReg postRegister) none
  ⟨xOrSp (bitsOf w 5 5), offset, .postIndex⟩

/-! ## §6. System operands. -/

/-- Lower-case hexadecimal digits. -/
def hexText (n : Nat) : List Char := Nat.toDigits 16 n

def decimalText (n : Nat) : List Char := Nat.toDigits 10 n

def barrierName (value : Nat) : String :=
  match value with
  | 0x1 => "oshld"
  | 0x2 => "oshst"
  | 0x3 => "osh"
  | 0x5 => "nshld"
  | 0x6 => "nshst"
  | 0x7 => "nsh"
  | 0x9 => "ishld"
  | 0xa => "ishst"
  | 0xb => "ish"
  | 0xd => "ld"
  | 0xe => "st"
  | 0xf => "sy"
  | value => String.ofList (['#', '0', 'x'] ++ hexText value)

def barrierIsbName (value : Nat) : String :=
  if value = 0xf then "sy" else String.ofList ('#' :: decimalText value)

def pstateFieldName (op1 op2 : Nat) : String :=
  if op1 = 3 ∧ op2 = 6 then "DAIFSet"
  else if op1 = 3 ∧ op2 = 7 then "DAIFClr"
  else String.ofList ("pstate:".toList ++ decimalText op1 ++ [':'] ++ decimalText op2)

def sysregName (op0 op1 crn crm op2 : Nat) : String :=
  if (op0, op1, crn, crm, op2) = (3, 3, 4, 2, 0) then "NZCV"
  else if (op0, op1, crn, crm, op2) = (3, 3, 13, 0, 2) then "TPIDR_EL0"
  else if (op0, op1, crn, crm, op2) = (3, 3, 14, 0, 2) then "CNTVCT_EL0"
  else
    String.ofList (['S'] ++ decimalText op0 ++ ['_'] ++ decimalText op1 ++ ['_', 'C']
      ++ decimalText crn ++ ['_', 'C'] ++ decimalText crm ++ ['_'] ++ decimalText op2)

def sysreg (w : Word) : String :=
  sysregName (bitsOf w 19 2) (bitsOf w 16 3) (bitsOf w 12 4) (bitsOf w 8 4) (bitsOf w 5 3)

/-- Fields op1, CRn, CRm, op2 as numbers. -/
def sysOpFields (w : Word) : Nat × Nat × Nat × Nat :=
  (bitsOf w 16 3, bitsOf w 12 4, bitsOf w 8 4, bitsOf w 5 3)

/-- The named operations of `at`, `dc`, `ic` and `tlbi`. -/
def sysOpNames : List (String × String × (Nat × Nat × Nat × Nat)) :=
  [("at", "s1e1r", (0, 7, 8, 0)), ("dc", "zva", (3, 7, 4, 1)), ("ic", "ivau", (3, 7, 5, 1)),
    ("ic", "iallu", (0, 7, 5, 0)), ("tlbi", "vale1", (0, 8, 7, 5)),
    ("tlbi", "vmalle1", (0, 8, 7, 0))]

def formatSysOp (opPrefix : String) (fields : Nat × Nat × Nat × Nat) : String :=
  String.ofList (opPrefix.toList ++ [':', '#'] ++ decimalText fields.1 ++ [':', 'c']
    ++ decimalText fields.2.1 ++ [':', 'c'] ++ decimalText fields.2.2.1 ++ [':', '#']
    ++ decimalText fields.2.2.2)

/-- A system operation: its name when it has one, else its fields. -/
def sysregOp (opPrefix : String) (w : Word) : String :=
  match sysOpNames.find? (fun e => e.1 == opPrefix && e.2.2 == sysOpFields w) with
  | some e => e.2.1
  | none => formatSysOp opPrefix (sysOpFields w)

/-- The prefetch operations that have a name. -/
def prfopNames : List (Nat × String) :=
  [(0x00, "pldl1keep"), (0x01, "pldl1strm"), (0x02, "pldl2keep"), (0x03, "pldl2strm"),
    (0x04, "pldl3keep"), (0x05, "pldl3strm"), (0x08, "plil1keep"), (0x09, "plil1strm"),
    (0x0a, "plil2keep"), (0x0b, "plil2strm"), (0x0c, "plil3keep"), (0x0d, "plil3strm"),
    (0x10, "pstl1keep"), (0x11, "pstl1strm"), (0x12, "pstl2keep"), (0x13, "pstl2strm"),
    (0x14, "pstl3keep"), (0x15, "pstl3strm")]

def prfop (value : Nat) : String :=
  match prfopNames.find? (fun e => e.1 == value) with
  | some e => e.2
  | none => String.ofList (['#', '0', 'x'] ++ hexText value)

def coprocName (n : Nat) : String := String.ofList ('c' :: decimalText n)

/-! ## §7. Decoding an operand slot. -/

/-- A memory operand based on `Rn`. -/
def memoryAt (w : Word) (offset : MemoryOffset) (mode : AddressingMode) : DecodedOperand :=
  .memory ⟨xOrSp (bitsOf w 5 5), offset, mode⟩

def decodeOperand (kind : Aarch64Opnd) (w : Word) (address : U64) (row : Aarch64Opcode)
    (operandIndex : Nat) : Except DecodeError DecodedOperand :=
  match kind with
  | .rd => .ok (.register (rdReg w row))
  | .rn => .ok (.register (rnReg w row))
  | .rm => .ok (.register (rmReg w row))
  | .rmLow => .ok (.register (xReg (bitsOf w 0 5)))
  | .rmSft => .ok (.shiftedRegister (rmShifted w))
  | .rmExt => .ok (.extendedRegister (rmExtended w))
  | .rdSp => .ok (.register (gpOrSp (bitsOf w 0 5) w))
  | .rnSp => .ok (.register (gpOrSp (bitsOf w 5 5) w))
  | .rt => .ok (.register (rtReg w row))
  | .rt2 => .ok (.register (xReg (bitsOf w 10 5)))
  | .ra => .ok (.register (gpReg (bitsOf w 10 5) w))
  | .rs => .ok (.register (rsReg w row))
  | .fd => .ok (.register (fpReg (bitsOf w 0 5) w))
  | .fn => .ok (.register (fpReg (bitsOf w 5 5) w))
  | .fm => .ok (.register (fpReg (bitsOf w 16 5) w))
  | .fa => .ok (.register (fpReg (bitsOf w 10 5) w))
  | .ft => .ok (.register (ftReg (bitsOf w 0 5) w row))
  | .ft2 => .ok (.register (ftReg (bitsOf w 10 5) w row))
  | .vd => .ok (.vectorRegister (vectorReg (bitsOf w 0 5) w row))
  | .vn => .ok (.vectorRegister (vectorReg (bitsOf w 5 5) w row))
  | .vm => .ok (.vectorRegister (vectorReg (bitsOf w 16 5) w row))
  | .sd => .ok (.register (simdScalarReg (bitsOf w 0 5) w row))
  | .sn => .ok (.register (simdScalarReg (bitsOf w 5 5) w row))
  | .sm => .ok (.register (simdScalarReg (bitsOf w 16 5) w row))
  | .vdD1 => .ok (.vectorElement ⟨bitsOf w 0 5, 1, .d⟩)
  | .vnD1 => .ok (.vectorElement ⟨bitsOf w 5 5, 1, .d⟩)
  | .ed => .ok (.vectorElement (edElement w))
  | .en => .ok (.vectorElement (enElement w row))
  | .em => .ok (.vectorElement (emElement w))
  | .lvn => .ok (.vectorList (vectorListOf w))
  | .lvt => .ok (.vectorList (simdLdstList w))
  | .lvtAl => .ok (.vectorList (simdLdstList w))
  | .let => .ok (.vectorList (simdLdstElementList w row))
  | .idx => .ok (.immediate (bitsOf w 11 (if w.getLsbD 30 then 4 else 3)))
  | .immVlsl => .ok (.immediate (immVlsl w))
  | .immVlsr => .ok (.immediate (immVlsr w))
  | .simdImm => .ok (simdImm w)
  | .simdImmSft => .ok (.shiftedImmediate (simdImmSft w))
  | .simdFpimm => .ok (.floatImmediate (formatFpimm8 (simdImm8 w)))
  | .shllImm => .ok (.immediate (8 * 2 ^ bitsOf w 22 2))
  | .imm0 => .ok (.immediate 0)
  | .immr => .ok (.immediate (bitsOf w 16 6))
  | .imms => .ok (.immediate (bitsOf w 10 6))
  | .aimm => .ok (.immediate (aimm w))
  | .limm =>
    match logicalImmediate w with
    | some value => .ok (.immediate value)
    | none => .error (.invalidOperand "Limm")
  | .half => .ok (.shiftedImmediate (half w))
  | .immMov => .ok (.immediate (immMov w))
  | .imm => .ok (.immediate (bitfieldImm w row))
  | .width => .ok (.immediate (bitfieldWidth w row))
  | .bitNum => .ok (.immediate (bitsOf w 31 1 * 32 + bitsOf w 19 5))
  | .exc => .ok (.immediate (bitsOf w 5 16))
  | .ccmpImm => .ok (.immediate (bitsOf w 16 5))
  | .nzcv => .ok (.immediate (bitsOf w 0 4))
  | .uimm3Op1 => .ok (.immediate (bitsOf w 16 3))
  | .uimm3Op2 => .ok (.immediate (bitsOf w 5 3))
  | .uimm4 => .ok (.immediate (bitsOf w 8 4))
  | .uimm7 => .ok (.immediate (bitsOf w 8 4 * 8 + bitsOf w 5 3))
  | .cond => .ok (.condition (condition w))
  | .cond1 => .ok (.condition (invertedCondition w))
  | .fpimm0 => .ok (.floatImmediate "0.0")
  | .fpimm => .ok (.floatImmediate (formatFpimm8 (bitsOf w 13 8)))
  | .fbits => .ok (.immediate (64 - bitsOf w 10 6))
  | .addrSimm7 => .ok (memoryAt w (.immediate (simm7PairOffset w)) (pairAddressingMode w))
  | .addrSimple => .ok (memoryAt w .none .offset)
  | .addrRegoff =>
    .ok (memoryAt w (.register (xReg (bitsOf w 16 5)) (regoffShift w)) .offset)
  | .addrSimm9 => .ok (memoryAt w (.immediate (simm9Offset w)) (simm9AddressingMode w))
  | .addrUimm12 => .ok (memoryAt w (.immediate (uimm12Offset w)) .offset)
  | .addrPcrel14 => .ok (.branchTarget (branchTarget address (imm14 w)))
  | .addrPcrel19 => .ok (.branchTarget (branchTarget address (imm19 w)))
  | .addrPcrel26 => .ok (.branchTarget (branchTarget address (imm26 w)))
  | .addrPcrel21 => .ok (.branchTarget (branchTarget address (imm21 w)))
  | .addrAdrp => .ok (.pageTarget (adrpTarget address w))
  | .simdAddrSimple => .ok (memoryAt w .none .offset)
  | .simdAddrPost => .ok (.memory (simdAddrPost w row))
  | .barrier => .ok (.system (barrierName (bitsOf w 8 4)))
  | .barrierIsb => .ok (.system (barrierIsbName (bitsOf w 8 4)))
  | .barrierPsb => .ok (.system "csync")
  | .pstatefield => .ok (.system (pstateFieldName (bitsOf w 16 3) (bitsOf w 5 3)))
  | .sysreg => .ok (.system (sysreg w))
  | .sysregAt => .ok (.system (sysregOp "at" w))
  | .sysregDc => .ok (.system (sysregOp "dc" w))
  | .sysregIc => .ok (.system (sysregOp "ic" w))
  | .sysregTlbi => .ok (.system (sysregOp "tlbi" w))
  | .rtSys => .ok (.register (xReg (bitsOf w 0 5)))
  | .cn => .ok (.system (coprocName (bitsOf w 12 4)))
  | .cm => .ok (.system (coprocName (bitsOf w 8 4)))
  | .prfop => .ok (.system (prfop (bitsOf w 0 5)))
  | .pairreg => .ok (.register (pairReg w operandIndex))
  | .nil | .addrSimm92 => .ok (.unimplemented kind.name)

/-! ## §8. Decoding an instruction. -/

structure DecodedInstruction where
  address : U64
  word : Word
  mnemonic : Aarch64Mnemonic
  operands : List DecodedOperand
  deriving Repr, DecidableEq

/-- Decode the operand slots of a row in order; `index` counts them. -/
def decodeOperands (w : Word) (address : U64) (row : Aarch64Opcode) :
    Nat → List Aarch64Opnd → Except DecodeError (List DecodedOperand)
  | _, [] => .ok []
  | index, kind :: kinds => do
    let operand ← decodeOperand kind w address row index
    let rest ← decodeOperands w address row (index + 1) kinds
    pure (operand :: rest)

-- irreducible: the walk over the table must not start while a proof is elaborated
/-- Decode one instruction word using the opcode table. -/
@[irreducible] def decodeInstruction (address : U64) (w : Word) : Except DecodeError DecodedInstruction :=
  match matchOpcode w with
  | none => .error (.noMatchingOpcode w)
  | some row => do
    let operands ← decodeOperands w address row 0 row.operands
    pure ⟨address, w, .parse row.name, operands⟩

end Armv8Encode

/-
  Armv8Encode.Isa.Aarch64.Encode — operand encoders and instruction encode.

  `encodeInstruction` tries the rows of the mnemonic in table order.  A row
  whose operand count fits gets its operands encoded one after another into
  the fixed bits; each operand encoder sees the word built so far.  The first
  row whose operands encode and whose result still carries the row's fixed
  bits gives the word.
-/
import Armv8Encode.Isa.Aarch64.Decode

namespace Armv8Encode

open Lib

/-! ## §1. Building fields. -/

/-- A number placed at a bit position of an instruction word. -/
def placeAt (n lo : Nat) : Word := BitVec.ofNat 32 n <<< lo

/-- A signed number placed as a field of `len` bits at a bit position. -/
def placeSignedAt (value : Int) (lo len : Nat) : Word :=
  (BitVec.ofInt 32 value &&& BitVec.ofNat 32 (2 ^ len - 1)) <<< lo

/-- What an operand encoder sees: the word built so far, the address of the
instruction and the row. -/
structure EncodeContext where
  baseWord : Word
  address : U64
  row : Aarch64Opcode

/-- The operand does not fit the slot. -/
def invalidOperand {α : Type} (kind : Aarch64Opnd) : Except EncodeError α :=
  .error (.invalidOperand kind.name)

/-- The operand as a register with an encodable number. -/
def registerOperand (kind : Aarch64Opnd) : DecodedOperand → Except EncodeError Register
  | .register r => if r.index > 31 then invalidOperand kind else .ok r
  | _ => invalidOperand kind

/-- The operand as an immediate. -/
def immediateOperand (kind : Aarch64Opnd) : DecodedOperand → Except EncodeError Int
  | .immediate value => .ok value
  | _ => invalidOperand kind

/-- The operand as a memory operand with an encodable base register. -/
def memoryOperand (kind : Aarch64Opnd) : DecodedOperand → Except EncodeError MemoryOperand
  | .memory m =>
    if (m.base.regClass = .x ∨ m.base.regClass = .xOrSp) ∧ m.base.index ≤ 31 then .ok m
    else invalidOperand kind
  | _ => invalidOperand kind

/-- The operand as the text of a system operand. -/
def systemOperand (kind : Aarch64Opnd) : DecodedOperand → Except EncodeError String
  | .system text => .ok text
  | _ => invalidOperand kind

/-! ## §2. General registers. -/

def encodeGpRegister (kind : Aarch64Opnd) (operand : DecodedOperand) (lo : Nat) :
    Except EncodeError Word := do
  let r ← registerOperand kind operand
  match r.regClass with
  | .w => .ok (placeAt r.index lo)
  | .x => .ok (placeAt 1 31 ||| placeAt r.index lo)
  | _ => invalidOperand kind

def encodeRdRegister (kind : Aarch64Opnd) (operand : DecodedOperand) (row : Aarch64Opcode) :
    Except EncodeError Word :=
  if row.iclass = .asimdins ∧ (row.name = "mov" ∨ row.name = "smov" ∨ row.name = "umov") then do
    let r ← registerOperand kind operand
    match r.regClass with
    | .w => .ok (placeAt r.index 0)
    | .x => .ok (placeAt 1 30 ||| placeAt r.index 0)
    | _ => invalidOperand kind
  else if row.iclass = .pcreladdr then do
    let r ← registerOperand kind operand
    if r.regClass = .x then .ok (placeAt r.index 0) else invalidOperand kind
  else encodeGpRegister kind operand 0

/-- A register slot in which number 31 is the stack pointer: a zero register
is refused there. -/
def encodeGpOrSpRegister (kind : Aarch64Opnd) (operand : DecodedOperand) (lo : Nat) :
    Except EncodeError Word := do
  let r ← registerOperand kind operand
  match r.regClass with
  | .w => if r.index = 31 then invalidOperand kind else .ok (placeAt r.index lo)
  | .x =>
    if r.index = 31 then invalidOperand kind else .ok (placeAt 1 31 ||| placeAt r.index lo)
  | .wOrSp => .ok (placeAt r.index lo)
  | .xOrSp => .ok (placeAt 1 31 ||| placeAt r.index lo)
  | _ => invalidOperand kind

/-- The `option` field of an extension and the width it extends from. -/
def extendOption (extend : ExtendKind) (regClass : RegisterClass) : Option Nat :=
  match extend, regClass with
  | .uxtb, .w => some 0
  | .uxth, .w => some 1
  | .uxtw, .w => some 2
  | .uxtx, .x => some 3
  | .sxtb, .w => some 4
  | .sxth, .w => some 5
  | .sxtw, .w => some 6
  | .sxtx, .x => some 7
  | _, _ => none

def encodeRmExtended (kind : Aarch64Opnd) (operand : DecodedOperand) : Except EncodeError Word :=
  match operand with
  | .extendedRegister e =>
    if e.register.index > 31 ∨ e.amount > 4 then invalidOperand kind
    else
      match extendOption e.extend e.register.regClass with
      | some option =>
        .ok (placeAt e.register.index 16 ||| placeAt option 13 ||| placeAt e.amount 10)
      | none => invalidOperand kind
  | _ => invalidOperand kind

def shiftCode : ShiftKind → Nat
  | .lsl => 0
  | .lsr => 1
  | .asr => 2
  | .ror => 3

def encodeRmShifted (kind : Aarch64Opnd) (operand : DecodedOperand) : Except EncodeError Word :=
  match operand with
  | .shiftedRegister s =>
    if s.register.index > 31 then invalidOperand kind
    else
      match s.register.regClass with
      | .w =>
        if s.shift.amount > 31 then invalidOperand kind
        else .ok (placeAt s.register.index 16 ||| placeAt (shiftCode s.shift.kind) 22
          ||| placeAt s.shift.amount 10)
      | .x =>
        if s.shift.amount > 63 then invalidOperand kind
        else .ok (placeAt s.register.index 16 ||| placeAt (shiftCode s.shift.kind) 22
          ||| placeAt s.shift.amount 10)
      | _ => invalidOperand kind
  | _ => invalidOperand kind

def encodeStatusRegister (kind : Aarch64Opnd) (operand : DecodedOperand) (row : Aarch64Opcode) :
    Except EncodeError Word := do
  let r ← registerOperand kind operand
  if isCasp row.name then
    if r.index > 30 then invalidOperand kind
    else
      match r.regClass with
      | .w => .ok (placeAt r.index 16)
      | .x => .ok (placeAt 1 30 ||| placeAt r.index 16)
      | _ => invalidOperand kind
  else if r.regClass = .w then .ok (placeAt r.index 16)
  else invalidOperand kind

def encodeRtSysRegister (kind : Aarch64Opnd) (operand : DecodedOperand) :
    Except EncodeError Word := do
  let r ← registerOperand kind operand
  if r.regClass = .x then .ok (placeAt r.index 0) else invalidOperand kind

/-- Sign-extending loads keep their size field whatever the destination. -/
def isSignedLoad (row : Aarch64Opcode) : Bool :=
  ["ldrsw", "ldrsh", "ldrsb"].contains row.name && isSingleLdstClass row.iclass

/-- Size bits a transfer register contributes. -/
def rtSizeBits (row : Aarch64Opcode) (regClass : RegisterClass) : Option Word :=
  if isSingleLdstClass row.iclass then
    if isSignedLoad row then some 0
    else
      match regClass with
      | .w => some 0
      | .x => some (placeAt 1 30)
      | .s => some (placeAt 2 30)
      | .d => some (placeAt 3 30)
      | _ => none
  else
    match row.iclass, regClass with
    | .testbranch, .w => some 0
    | .testbranch, .x => some 0
    | .ldstexcl, .x => some (placeAt 1 30)
    | .lseAtomic, .x => some (placeAt 1 30)
    | _, .w => some 0
    | _, .x => some (placeAt 1 31)
    | _, _ => none

def encodeRtRegister (kind : Aarch64Opnd) (operand : DecodedOperand) (row : Aarch64Opcode) :
    Except EncodeError Word := do
  let r ← registerOperand kind operand
  match rtSizeBits row r.regClass with
  | some sizeBits => .ok (sizeBits ||| placeAt r.index 0)
  | none => invalidOperand kind

/-- The second register of a pair adds no bits. -/
def encodePairRegister (kind : Aarch64Opnd) (operand : DecodedOperand) :
    Except EncodeError Word := do
  let r ← registerOperand kind operand
  if r.index = 0 then invalidOperand kind else .ok 0

/-! ## §3. Floating-point and vector registers. -/

def encodeFpRegister (kind : Aarch64Opnd) (operand : DecodedOperand) (lo : Nat) :
    Except EncodeError Word := do
  let r ← registerOperand kind operand
  match r.regClass with
  | .s => .ok (placeAt r.index lo)
  | .d => .ok (placeAt 1 22 ||| placeAt r.index lo)
  | _ => invalidOperand kind

def encodeFtRegister (kind : Aarch64Opnd) (operand : DecodedOperand) (row : Aarch64Opcode)
    (lo : Nat) : Except EncodeError Word := do
  let r ← registerOperand kind operand
  if isPairClass row.iclass then
    match r.regClass with
    | .s => .ok (placeAt r.index lo)
    | .d => .ok (placeAt 1 30 ||| placeAt r.index lo)
    | _ => invalidOperand kind
  else if isSingleLdstClass row.iclass then
    match r.regClass with
    | .s => .ok (placeAt 2 30 ||| placeAt r.index lo)
    | .d => .ok (placeAt 3 30 ||| placeAt r.index lo)
    | _ => invalidOperand kind
  else encodeFpRegister kind operand lo

/-- The Q bit and size field of an arrangement. -/
def vectorArrangementBits : VectorArrangement → Nat × Nat
  | .b8 => (0, 0)
  | .b16 => (1, 0)
  | .h4 => (0, 1)
  | .h8 => (1, 1)
  | .s2 => (0, 2)
  | .s4 => (1, 2)
  | .d1 => (0, 3)
  | .d2 => (1, 3)

/-- The `cmode` a modified-immediate row uses for an arrangement. -/
def modifiedImmediateCmode : VectorArrangement → Nat
  | .b8 | .b16 => 0xe
  | .h4 | .h8 => 0x8
  | _ => 0

/-- The `immh` a shift-by-immediate row uses for an arrangement. -/
def shiftImmh : VectorArrangement → Nat
  | .b8 | .b16 => 0b0001
  | .h4 | .h8 => 0b0010
  | .s2 | .s4 => 0b0100
  | .d1 | .d2 => 0b1000

def encodeVectorRegister (kind : Aarch64Opnd) (operand : DecodedOperand) (row : Aarch64Opcode)
    (lo : Nat) : Except EncodeError Word :=
  match operand with
  | .vectorRegister r =>
    if r.index > 31 then invalidOperand kind
    else
      let q := (vectorArrangementBits r.arrangement).1
      let size := (vectorArrangementBits r.arrangement).2
      if row.name = "shll" then .ok (placeAt r.index lo)
      else if row.iclass = .asimdimm then
        .ok (placeAt q 30 ||| placeAt (modifiedImmediateCmode r.arrangement) 12
          ||| placeAt r.index lo)
      else if row.iclass = .asimdins ∧ row.name = "dup" then
        .ok (placeAt q 30 ||| placeAt r.index lo)
      else if row.iclass = .asimdshf then
        .ok (placeAt q 30 ||| placeAt (shiftImmh r.arrangement) 19 ||| placeAt r.index lo)
      else .ok (placeAt q 30 ||| placeAt size 22 ||| placeAt r.index lo)
  | _ => invalidOperand kind

def encodeSimdScalarRegister (kind : Aarch64Opnd) (operand : DecodedOperand)
    (row : Aarch64Opcode) (lo : Nat) : Except EncodeError Word := do
  let r ← registerOperand kind operand
  if row.iclass = .asimdimm then
    if r.regClass = .d then .ok (placeAt r.index lo) else invalidOperand kind
  else
    match r.regClass with
    | .b => .ok (placeAt r.index lo)
    | .h => .ok (placeAt 1 22 ||| placeAt r.index lo)
    | .s => .ok (placeAt 2 22 ||| placeAt r.index lo)
    | .d => .ok (placeAt 3 22 ||| placeAt r.index lo)
    | _ => invalidOperand kind

def encodeVectorD1 (kind : Aarch64Opnd) (operand : DecodedOperand) (lo : Nat) :
    Except EncodeError Word :=
  match operand with
  | .vectorElement e =>
    if e.index > 31 ∨ e.element ≠ 1 ∨ e.size ≠ .d then invalidOperand kind
    else .ok (placeAt e.index lo)
  | _ => invalidOperand kind

/-- The `imm5` field of an element, if the lane exists. -/
def encodeImm5Element (e : VectorElement) : Except EncodeError Nat :=
  let shift := elementSizeShift e.size
  if e.element ≥ 16 / 2 ^ shift then .error (.invalidOperand "element")
  else .ok (2 ^ shift ||| e.element * 2 ^ (shift + 1))

/-- Size, H, L and M of a by-element operand. -/
def encodeEmElement (e : VectorElement) : Except EncodeError (Nat × Nat × Nat × Nat) :=
  match e.size with
  | .h =>
    if e.element < 8 then .ok (1, e.element / 4 % 2, e.element / 2 % 2, e.element % 2)
    else .error (.invalidOperand "element")
  | .s =>
    if e.element < 4 then .ok (2, e.element / 2 % 2, e.element % 2, 0)
    else .error (.invalidOperand "element")
  | .d =>
    if e.element < 2 then .ok (3, e.element % 2, 0, 0)
    else .error (.invalidOperand "element")
  | .b => .error (.invalidOperand "element")

def encodeVectorElement (kind : Aarch64Opnd) (operand : DecodedOperand) (row : Aarch64Opcode)
    (lo : Nat) : Except EncodeError Word :=
  match operand with
  | .vectorElement e =>
    if e.index > 31 then invalidOperand kind
    else
      match kind with
      | .ed => do
        let imm5 ← encodeImm5Element e
        .ok (placeAt e.index lo ||| placeAt imm5 16)
      | .en =>
        if usesSourceImm4 row then
          .ok (placeAt e.index lo ||| placeAt (2 ^ elementSizeShift e.size) 16
            ||| placeAt e.element (elementSizeShift e.size + 11))
        else do
          let imm5 ← encodeImm5Element e
          .ok (placeAt e.index lo ||| placeAt imm5 16)
      | .em => do
        let fields ← encodeEmElement e
        .ok (placeAt e.index lo ||| placeAt fields.1 22 ||| placeAt fields.2.1 11
          ||| placeAt fields.2.2.1 21 ||| placeAt fields.2.2.2 20)
      | _ => invalidOperand kind
  | _ => invalidOperand kind

/-- The operand as a vector register list of one to four registers. -/
def vectorListOperand (kind : Aarch64Opnd) : DecodedOperand → Except EncodeError VectorList
  | .vectorList l =>
    if l.first > 31 ∨ ¬(1 ≤ l.count ∧ l.count ≤ 4) then invalidOperand kind else .ok l
  | _ => invalidOperand kind

/-- The `opcode[15:12]` field: the structure digit of the mnemonic, or the
register count of a contiguous `ld1` / `st1`. -/
def structureOpcode (mnemonic : String) (count : Nat) : Option Nat :=
  match mnemonic.toList.getLast? with
  | some '2' => some 0x8
  | some '3' => some 0x4
  | some '4' => some 0x0
  | _ =>
    match count with
    | 1 => some 0x7
    | 2 => some 0xa
    | 3 => some 0x6
    | 4 => some 0x2
    | _ => none

def encodeVectorList (kind : Aarch64Opnd) (operand : DecodedOperand) (lo : Nat)
    (row : Aarch64Opcode) : Except EncodeError Word := do
  let l ← vectorListOperand kind operand
  if l.element.isSome then invalidOperand kind
  else
    let q := (vectorArrangementBits l.arrangement).1
    let size := (vectorArrangementBits l.arrangement).2
    if lo = 0 then
      match structureOpcode row.name l.count with
      | some opcode =>
        .ok (placeAt q 30 ||| placeAt size 10 ||| placeAt opcode 12 ||| placeAt l.first lo)
      | none => invalidOperand kind
    else
      .ok (placeAt q 30 ||| placeAt size 22 ||| placeAt l.first lo ||| placeAt (l.count - 1) 13)

def encodeVectorListAllLanes (kind : Aarch64Opnd) (operand : DecodedOperand) :
    Except EncodeError Word := do
  let l ← vectorListOperand kind operand
  if l.element.isSome then invalidOperand kind
  else
    let q := (vectorArrangementBits l.arrangement).1
    let size := (vectorArrangementBits l.arrangement).2
    .ok (placeAt q 30 ||| placeAt size 10 ||| placeAt l.first 0)

def elementSizeFromArrangement : VectorArrangement → VectorElementSize
  | .b8 | .b16 => .b
  | .h4 | .h8 => .h
  | .s2 | .s4 => .s
  | .d1 | .d2 => .d

/-- Q, S and size of a single-structure lane. -/
def encodeSimdLdstElement (size : VectorElementSize) (element : Nat) :
    Except EncodeError (Nat × Nat × Nat) :=
  match size with
  | .b =>
    if element < 16 then .ok (element / 8 % 2, element / 4 % 2, 3)
    else .error (.invalidOperand "Let")
  | .h =>
    if element < 8 then .ok (element / 4 % 2, element / 2 % 2, 2)
    else .error (.invalidOperand "Let")
  | .s =>
    if element < 4 then .ok (element / 2 % 2, element % 2, 0)
    else .error (.invalidOperand "Let")
  | .d =>
    if element < 2 then .ok (element % 2, 0, 1) else .error (.invalidOperand "Let")

/-- Bits that the register count of an element list contributes. -/
def elementCountBits (count : Nat) : Word :=
  match count with
  | 2 => placeAt 1 14
  | 4 => placeAt 1 15
  | _ => 0

def encodeVectorElementList (kind : Aarch64Opnd) (operand : DecodedOperand) :
    Except EncodeError Word := do
  let l ← vectorListOperand kind operand
  match l.element with
  | none => invalidOperand kind
  | some element => do
    let fields ← encodeSimdLdstElement (elementSizeFromArrangement l.arrangement) element
    .ok (placeAt fields.1 30 ||| elementCountBits l.count ||| placeAt fields.2.1 12
      ||| placeAt fields.2.2 10 ||| placeAt l.first 0)

/-! ## §4. Immediates. -/

def encodeAimm (kind : Aarch64Opnd) (operand : DecodedOperand) : Except EncodeError Word := do
  let value ← immediateOperand kind operand
  if 0 ≤ value ∧ value ≤ 0xfff then .ok (placeAt value.toNat 10)
  else if 0 < value ∧ value % 0x1000 = 0 ∧ value / 0x1000 ≤ 0xfff then
    .ok (placeAt 1 22 ||| placeAt (value / 0x1000).toNat 10)
  else invalidOperand kind

def encodeHalf (kind : Aarch64Opnd) (operand : DecodedOperand) : Except EncodeError Word :=
  match operand with
  | .shiftedImmediate i =>
    if 0 ≤ i.value ∧ i.value ≤ 0xffff ∧ i.shift % 16 = 0 ∧ i.shift ≤ 48 then
      .ok (placeAt i.value.toNat 5 ||| placeAt (i.shift / 16) 21)
    else invalidOperand kind
  | _ => invalidOperand kind

/-- Whether a 16-bit piece at a shift spells a wide value, negated or not. -/
def wideImmediateAt (negated : Bool) (wanted mask : U64) (shift : Nat) : Option Word :=
  let source := if negated then ~~~wanted else wanted
  let imm := (source >>> shift) &&& 0xffff#64
  let spelled := if negated then ~~~(imm <<< shift) &&& mask else imm <<< shift
  if spelled = wanted then some (placeAt (shift / 16) 21 ||| placeAt imm.toNat 5) else none

def encodeImmMov (kind : Aarch64Opnd) (operand : DecodedOperand) (row : Aarch64Opcode) :
    Except EncodeError Word := do
  let value ← immediateOperand kind operand
  let is32 := !row.opcode.getLsbD 31 && decide (-0x80000000 ≤ value ∧ value ≤ 0xffffffff)
  let mask := if is32 then 0xffffffff#64 else BitVec.allOnes 64
  let wanted := BitVec.ofInt 64 value &&& mask
  let shifts := if is32 then [0, 16] else [0, 16, 32, 48]
  let search := fun negated =>
    match shifts.findSome? (wideImmediateAt negated wanted mask) with
    | some bits => .ok bits
    | none => invalidOperand kind
  match bitsOf row.opcode 29 2 with
  | 0 => search true
  | 2 => search false
  | _ => invalidOperand kind

/-- An unsigned immediate that must fit its field. -/
def encodeRawImmediate (kind : Aarch64Opnd) (operand : DecodedOperand) (lo len : Nat) :
    Except EncodeError Word := do
  let value ← immediateOperand kind operand
  if 0 ≤ value ∧ value < 2 ^ len then .ok (placeAt value.toNat lo) else invalidOperand kind

def encodeBitfieldImm (kind : Aarch64Opnd) (operand : DecodedOperand) (row : Aarch64Opcode)
    (word : Word) : Except EncodeError Word := do
  let value ← immediateOperand kind operand
  let max := bitfieldMax word
  if value < 0 ∨ value > max then invalidOperand kind
  else
    let v := value.toNat
    let immr :=
      if row.name = "lsl" then (max + 1 - v) &&& max
      else if isInsertAlias row.name then (max + 1 - v) % (max + 1)
      else v
    let imms :=
      if row.name = "lsl" then placeAt (max - v) 10
      else if row.name = "lsr" ∨ row.name = "asr" then placeAt max 10
      else 0
    let n := if max = 63 then placeAt 1 22 else 0
    .ok (n ||| placeAt immr 16 ||| imms)

def encodeBitfieldWidth (kind : Aarch64Opnd) (operand : DecodedOperand) (row : Aarch64Opcode)
    (word : Word) : Except EncodeError Word := do
  let width ← immediateOperand kind operand
  let max := bitfieldMax word
  if width ≤ 0 ∨ width > max + 1 then invalidOperand kind
  else
    let imms :=
      if isExtractAlias row.name then bitsOf word 16 6 + width.toNat - 1 else width.toNat - 1
    if imms > max then invalidOperand kind else .ok (placeAt imms 10)

/-- Every `N:immr:imms` triple in the order the encoder tries them. -/
def logicalImmediateFields : List Word :=
  (List.range 2).flatMap (fun n => (List.range 64).flatMap (fun immr =>
    (List.range 64).map (fun imms => placeAt n 22 ||| placeAt immr 16 ||| placeAt imms 10)))

def encodeLogicalImmediate (kind : Aarch64Opnd) (operand : DecodedOperand) (word : Word) :
    Except EncodeError Word :=
  let search (value : Int) : Except EncodeError Word :=
    match logicalImmediateFields.find? (fun fields =>
        logicalImmediate ((word &&& placeAt 1 31) ||| fields) == some value) with
    | some fields => .ok fields
    | none => invalidOperand kind
  match operand with
  | .immediate value => search value
  | .unsignedImmediate value =>
    if value.toNat < 2 ^ 63 then search value.toNat else invalidOperand kind
  | _ => invalidOperand kind

def encodeBitNum (kind : Aarch64Opnd) (operand : DecodedOperand) : Except EncodeError Word := do
  let bit ← immediateOperand kind operand
  if 0 ≤ bit ∧ bit ≤ 63 then .ok (placeAt (bit.toNat / 32) 31 ||| placeAt (bit.toNat % 32) 19)
  else invalidOperand kind

def encodeUimm7 (kind : Aarch64Opnd) (operand : DecodedOperand) : Except EncodeError Word := do
  let value ← immediateOperand kind operand
  if 0 ≤ value ∧ value ≤ 0x7f then .ok (placeAt (value.toNat / 8) 8 ||| placeAt (value.toNat % 8) 5)
  else invalidOperand kind

def encodeZeroImmediate (kind : Aarch64Opnd) (operand : DecodedOperand) :
    Except EncodeError Word :=
  if operand = .immediate 0 then .ok 0 else invalidOperand kind

def encodeZeroFloatImmediate (kind : Aarch64Opnd) (operand : DecodedOperand) :
    Except EncodeError Word :=
  if operand = .floatImmediate "0.0" ∨ operand = .floatImmediate "0.00000000" then .ok 0
  else invalidOperand kind

/-- The 8-bit floating immediate that prints as a text. -/
def fpImmediateBits (text : String) : Option Nat :=
  (List.range 256).find? (fun imm8 => formatFpimm8 imm8 == text)

/-- The operand as an 8-bit floating immediate. -/
def floatImmediateOperand (kind : Aarch64Opnd) : DecodedOperand → Except EncodeError Nat
  | .floatImmediate text =>
    match fpImmediateBits text with
    | some imm8 => .ok imm8
    | none => invalidOperand kind
  | _ => invalidOperand kind

def encodeFpImmediate (kind : Aarch64Opnd) (operand : DecodedOperand) (lo : Nat) :
    Except EncodeError Word := do
  let imm8 ← floatImmediateOperand kind operand
  .ok (placeAt imm8 lo)

def encodeFbits (kind : Aarch64Opnd) (operand : DecodedOperand) : Except EncodeError Word := do
  let value ← immediateOperand kind operand
  if 1 ≤ value ∧ value ≤ 64 then .ok (placeAt (64 - value.toNat) 10) else invalidOperand kind

/-- The `immh:immb` pairs in the order the encoder tries them. -/
def vectorShiftFields : List (Nat × Nat) :=
  (List.range 15).flatMap (fun h => (List.range 8).map (fun b => (h + 1, b)))

def encodeVectorShiftImmediate (kind : Aarch64Opnd) (operand : DecodedOperand) (word : Word)
    (rightShift : Bool) : Except EncodeError Word := do
  let value ← immediateOperand kind operand
  let immhOf := bitsOf word 19 4
  let fits (f : Nat × Nat) : Bool :=
    (immhOf == 0 || vectorShiftElementWidth f.1 == vectorShiftElementWidth immhOf) &&
      (let imm : Int := f.1 * 8 + f.2
       let width : Int := vectorShiftElementWidth f.1
       (if rightShift then width * 2 - imm else imm - width) == value)
  match vectorShiftFields.find? fits with
  | some f => .ok (placeAt f.1 19 ||| placeAt f.2 16)
  | none => invalidOperand kind

def encodeSimdImm8 (imm8 : Nat) : Word := placeAt (imm8 / 32) 16 ||| placeAt (imm8 % 32) 5

/-- The 8 bits of a byte mask, if every byte is all zeros or all ones. -/
def compressImm8 (value : U64) : Option Nat :=
  (List.range 8).foldl (fun acc bit =>
    match acc with
    | none => none
    | some imm8 =>
      let byte := (value >>> (bit * 8)) &&& 0xff#64
      if byte = 0 then some imm8
      else if byte = 0xff#64 then some (imm8 ||| 2 ^ bit)
      else none) (some 0)

def encodeSimdImmediate (kind : Aarch64Opnd) (operand : DecodedOperand) :
    Except EncodeError Word :=
  match operand with
  | .immediate value =>
    if 0 ≤ value ∧ value ≤ 0xff then .ok (encodeSimdImm8 value.toNat) else invalidOperand kind
  | .unsignedImmediate value =>
    match compressImm8 value with
    | some imm8 => .ok (placeAt 1 29 ||| placeAt 0xe 12 ||| encodeSimdImm8 imm8)
    | none => invalidOperand kind
  | _ => invalidOperand kind

def encodeSimdFpImmediate (kind : Aarch64Opnd) (operand : DecodedOperand) (word : Word) :
    Except EncodeError Word := do
  let imm8 ← floatImmediateOperand kind operand
  let op := if word.getLsbD 30 then placeAt 1 29 else 0
  .ok (op ||| placeAt 0xf 12 ||| encodeSimdImm8 imm8)

def encodeSimdShiftedImmediate (kind : Aarch64Opnd) (operand : DecodedOperand) :
    Except EncodeError Word :=
  match operand with
  | .shiftedImmediate i =>
    if 0 ≤ i.value ∧ i.value ≤ 0xff then
      match i.shift with
      | 0 => .ok (encodeSimdImm8 i.value.toNat)
      | 8 => .ok (encodeSimdImm8 i.value.toNat ||| placeAt 0x2 12)
      | 16 => .ok (encodeSimdImm8 i.value.toNat ||| placeAt 0x4 12)
      | 24 => .ok (encodeSimdImm8 i.value.toNat ||| placeAt 0x6 12)
      | _ => invalidOperand kind
    else invalidOperand kind
  | _ => invalidOperand kind

def encodeShllImmediate (kind : Aarch64Opnd) (operand : DecodedOperand) :
    Except EncodeError Word :=
  if operand = .immediate 8 then .ok (placeAt 0 22)
  else if operand = .immediate 16 then .ok (placeAt 1 22)
  else if operand = .immediate 32 then .ok (placeAt 2 22)
  else invalidOperand kind

/-! ## §5. Conditions and system operands. -/

def conditionCode (condition : String) : Option Nat :=
  match condition with
  | "eq" => some 0x0
  | "ne" => some 0x1
  | "hs" | "cs" => some 0x2
  | "lo" | "cc" => some 0x3
  | "mi" => some 0x4
  | "pl" => some 0x5
  | "vs" => some 0x6
  | "vc" => some 0x7
  | "hi" => some 0x8
  | "ls" => some 0x9
  | "ge" => some 0xa
  | "lt" => some 0xb
  | "gt" => some 0xc
  | "le" => some 0xd
  | "al" => some 0xe
  | "nv" => some 0xf
  | _ => none

def encodeCondition (kind : Aarch64Opnd) (operand : DecodedOperand) (invertedAlias : Bool) :
    Except EncodeError Word :=
  match operand with
  | .condition name =>
    match conditionCode name with
    | some code => .ok (placeAt (if invertedAlias then code ^^^ 1 else code) 12)
    | none => invalidOperand kind
  | _ => invalidOperand kind

/-- Rust's `strip_prefix`. -/
def stripPrefix (p text : List Char) : Option (List Char) :=
  if p.isPrefixOf text then some (text.drop p.length) else none

/-- Rust's `split` on a character: the pieces between the separators. -/
def splitAtChar (separator : Char) : List Char → List (List Char)
  | [] => [[]]
  | c :: rest =>
    if c = separator then [] :: splitAtChar separator rest
    else
      match splitAtChar separator rest with
      | piece :: pieces => (c :: piece) :: pieces
      | [] => [[c]]

/-- The value of a digit below sixteen. -/
def digitValue (c : Char) : Nat :=
  if '0' ≤ c ∧ c ≤ '9' then c.toNat - '0'.toNat
  else if 'a' ≤ c ∧ c ≤ 'f' then c.toNat - 'a'.toNat + 10
  else if 'A' ≤ c ∧ c ≤ 'F' then c.toNat - 'A'.toNat + 10
  else 16

/-- Rust's `u8::from_str_radix`: an optional plus sign, then digits. -/
def parseU8 (radix : Nat) (text : List Char) : Option Nat :=
  let digits := match text with
    | '+' :: rest => rest
    | other => other
  if digits.isEmpty || digits.any (fun c => decide (radix ≤ digitValue c)) then none
  else
    let value := digits.foldl (fun acc c => acc * radix + digitValue c) 0
    if value ≤ 255 then some value else none

def encodeCoprocRegister (kind : Aarch64Opnd) (operand : DecodedOperand) (lo : Nat) :
    Except EncodeError Word := do
  let text ← systemOperand kind operand
  match (stripPrefix ['c'] text.toList).bind (parseU8 10) with
  | some number => if number > 0xf then invalidOperand kind else .ok (placeAt number lo)
  | none => invalidOperand kind

def barrierCode (text : String) : Option Nat :=
  match text with
  | "oshld" => some 0x1
  | "oshst" => some 0x2
  | "osh" => some 0x3
  | "nshld" => some 0x5
  | "nshst" => some 0x6
  | "nsh" => some 0x7
  | "ishld" => some 0x9
  | "ishst" => some 0xa
  | "ish" => some 0xb
  | "ld" => some 0xd
  | "st" => some 0xe
  | "sy" => some 0xf
  | _ => ((stripPrefix ['#', '0', 'x'] text.toList).bind (parseU8 16)).filter
      (fun value => decide (value ≤ 0xf))

def encodeBarrier (kind : Aarch64Opnd) (operand : DecodedOperand) : Except EncodeError Word := do
  let text ← systemOperand kind operand
  match barrierCode text with
  | some code => .ok (placeAt code 8)
  | none => invalidOperand kind

def barrierIsbCode (text : String) : Option Nat :=
  if text = "sy" then some 0xf
  else ((stripPrefix ['#'] text.toList).bind (parseU8 10)).filter
    (fun value => decide (value ≤ 0xf))

def encodeBarrierIsb (kind : Aarch64Opnd) (operand : DecodedOperand) :
    Except EncodeError Word := do
  let text ← systemOperand kind operand
  match barrierIsbCode text with
  | some code => .ok (placeAt code 8)
  | none => invalidOperand kind

def encodeSystemFixed (kind : Aarch64Opnd) (operand : DecodedOperand) (expected : String) :
    Except EncodeError Word :=
  if operand = .system expected then .ok 0 else invalidOperand kind

def parsePstateField (text : List Char) : Option (Nat × Nat) := do
  let rest ← stripPrefix "pstate:".toList text
  match splitAtChar ':' rest with
  | [p1, p2] => do
    let op1 ← parseU8 10 p1
    let op2 ← parseU8 10 p2
    if op1 ≤ 7 ∧ op2 ≤ 7 then some (op1, op2) else none
  | _ => none

def pstateFieldCode (text : String) : Option (Nat × Nat) :=
  if text = "DAIFSet" then some (3, 6)
  else if text = "DAIFClr" then some (3, 7)
  else parsePstateField text.toList

def encodePstateField (kind : Aarch64Opnd) (operand : DecodedOperand) :
    Except EncodeError Word := do
  let text ← systemOperand kind operand
  match pstateFieldCode text with
  | some f => .ok (placeAt f.1 16 ||| placeAt f.2 5)
  | none => invalidOperand kind

def prfopCode (text : String) : Option Nat :=
  match prfopNames.find? (fun e => e.2 == text) with
  | some e => some e.1
  | none => ((stripPrefix ['#', '0', 'x'] text.toList).bind (parseU8 16)).filter
      (fun value => decide (value ≤ 0x1f))

def encodePrfop (kind : Aarch64Opnd) (operand : DecodedOperand) : Except EncodeError Word := do
  let text ← systemOperand kind operand
  match prfopCode text with
  | some code => .ok (placeAt code 0)
  | none => invalidOperand kind

def parseSysregName (text : List Char) : Option (Nat × Nat × Nat × Nat × Nat) := do
  let rest ← stripPrefix ['S'] text
  match splitAtChar '_' rest with
  | [p0, p1, pn, pm, p2] => do
    let op0 ← parseU8 10 p0
    let op1 ← parseU8 10 p1
    let crn ← (stripPrefix ['C'] pn).bind (parseU8 10)
    let crm ← (stripPrefix ['C'] pm).bind (parseU8 10)
    let op2 ← parseU8 10 p2
    if op0 ≤ 3 ∧ op1 ≤ 7 ∧ crn ≤ 0xf ∧ crm ≤ 0xf ∧ op2 ≤ 7 then some (op0, op1, crn, crm, op2)
    else none
  | _ => none

def sysregCode (text : String) : Option (Nat × Nat × Nat × Nat × Nat) :=
  if text = "NZCV" then some (3, 3, 4, 2, 0)
  else if text = "TPIDR_EL0" then some (3, 3, 13, 0, 2)
  else if text = "CNTVCT_EL0" then some (3, 3, 14, 0, 2)
  else parseSysregName text.toList

def encodeSysreg (kind : Aarch64Opnd) (operand : DecodedOperand) : Except EncodeError Word := do
  let text ← systemOperand kind operand
  match sysregCode text with
  | some (op0, op1, crn, crm, op2) =>
    .ok (placeAt op0 19 ||| placeAt op1 16 ||| placeAt crn 12 ||| placeAt crm 8
      ||| placeAt op2 5)
  | none => invalidOperand kind

def parseSysOpName (text : List Char) (opPrefix : String) : Option (Nat × Nat × Nat × Nat) := do
  let rest ← (stripPrefix opPrefix.toList text).bind (stripPrefix [':'])
  match splitAtChar ':' rest with
  | [p1, pn, pm, p2] => do
    let op1 ← (stripPrefix ['#'] p1).bind (parseU8 10)
    let cn ← (stripPrefix ['c'] pn).bind (parseU8 10)
    let cm ← (stripPrefix ['c'] pm).bind (parseU8 10)
    let op2 ← (stripPrefix ['#'] p2).bind (parseU8 10)
    if op1 ≤ 7 ∧ cn ≤ 0xf ∧ cm ≤ 0xf ∧ op2 ≤ 7 then some (op1, cn, cm, op2) else none
  | _ => none

def sysOpCode (opPrefix text : String) : Option (Nat × Nat × Nat × Nat) :=
  match sysOpNames.find? (fun e => e.1 == opPrefix && e.2.1 == text) with
  | some e => some e.2.2
  | none => parseSysOpName text.toList opPrefix

def encodeSysOp (kind : Aarch64Opnd) (operand : DecodedOperand) (opPrefix : String) :
    Except EncodeError Word := do
  let text ← systemOperand kind operand
  match sysOpCode opPrefix text with
  | some (op1, cn, cm, op2) =>
    .ok (placeAt op1 16 ||| placeAt cn 12 ||| placeAt cm 8 ||| placeAt op2 5)
  | none => invalidOperand kind

/-! ## §6. Addresses. -/

/-- A word-granular PC-relative field of `len` bits. -/
def encodePcrel (kind : Aarch64Opnd) (operand : DecodedOperand) (address : U64) (len lo : Nat) :
    Except EncodeError Word :=
  match operand with
  | .branchTarget target =>
    let offset : Int := target.toNat - address.toNat
    if offset % 4 ≠ 0 then invalidOperand kind
    else
      let imm := offset / 4
      if -(2 ^ (len - 1)) ≤ imm ∧ imm < 2 ^ (len - 1) then .ok (placeSignedAt imm lo len)
      else invalidOperand kind
  | _ => invalidOperand kind

/-- The split 21-bit field of `adr` and `adrp`. -/
def placeImm21 (value : Int) : Word :=
  let encoded := BitVec.ofInt 32 value &&& 0x1fffff#32
  ((encoded &&& 0x3#32) <<< 29) ||| (((encoded >>> 2) &&& 0x7ffff#32) <<< 5)

def encodePcrel21 (kind : Aarch64Opnd) (operand : DecodedOperand) (address : U64) :
    Except EncodeError Word :=
  match operand with
  | .branchTarget target =>
    let value : Int := target.toNat - address.toNat
    if -(2 ^ 20) ≤ value ∧ value < 2 ^ 20 then .ok (placeImm21 value) else invalidOperand kind
  | _ => invalidOperand kind

def encodeAdrp (kind : Aarch64Opnd) (operand : DecodedOperand) (address : U64) :
    Except EncodeError Word :=
  match operand with
  | .pageTarget target =>
    if target &&& 0xfff#64 ≠ 0 then invalidOperand kind
    else
      let imm := (target - (address &&& ~~~0xfff#64)).toInt / 4096
      if -(2 ^ 20) ≤ imm ∧ imm < 2 ^ 20 then .ok (placeImm21 imm) else invalidOperand kind
  | _ => invalidOperand kind

def encodeAddrSimple (kind : Aarch64Opnd) (operand : DecodedOperand) :
    Except EncodeError Word := do
  let m ← memoryOperand kind operand
  if m.mode = .offset ∧ m.offset = .none then .ok (placeAt m.base.index 5)
  else invalidOperand kind

def encodeAddrRegoff (kind : Aarch64Opnd) (operand : DecodedOperand) (word : Word) :
    Except EncodeError Word := do
  let m ← memoryOperand kind operand
  match m.offset with
  | .register r shift =>
    if m.mode ≠ .offset ∨ r.regClass ≠ .x ∨ r.index > 31 then invalidOperand kind
    else
      let bits := placeAt m.base.index 5 ||| placeAt r.index 16 ||| placeAt 0b011 13
      match shift with
      | none => .ok bits
      | some s =>
        if s.kind = .lsl ∧ s.amount = bitsOf word 30 2 then .ok (bits ||| placeAt 1 12)
        else invalidOperand kind
  | _ => invalidOperand kind

/-- The operand as a memory operand with an immediate offset. -/
def memoryImmediate (kind : Aarch64Opnd) (operand : DecodedOperand) :
    Except EncodeError (MemoryOperand × Int) := do
  let m ← memoryOperand kind operand
  match m.offset with
  | .immediate offset => .ok (m, offset)
  | _ => invalidOperand kind

/-- A pair offset is divided by eight whatever the width of the pair. -/
def encodeAddrSimm7 (kind : Aarch64Opnd) (operand : DecodedOperand) (row : Aarch64Opcode) :
    Except EncodeError Word := do
  let (m, offset) ← memoryImmediate kind operand
  if offset % 8 ≠ 0 ∨ ¬(-64 ≤ offset / 8 ∧ offset / 8 < 64) then invalidOperand kind
  else
    let bits := placeAt m.base.index 5 ||| placeSignedAt (offset / 8) 15 7
    match row.iclass, m.mode with
    | .ldstpairOff, .offset => .ok bits
    | .ldstnapairOffs, .offset => .ok bits
    | .ldstpairIndexed, .postIndex => .ok bits
    | .ldstpairIndexed, .preIndex => .ok (bits ||| placeAt 1 24)
    | _, _ => invalidOperand kind

def encodeAddrSimm9 (kind : Aarch64Opnd) (operand : DecodedOperand) (row : Aarch64Opcode) :
    Except EncodeError Word := do
  let (m, offset) ← memoryImmediate kind operand
  if ¬(-256 ≤ offset ∧ offset ≤ 255) then invalidOperand kind
  else
    let bits := placeAt m.base.index 5 ||| placeSignedAt offset 12 9
    match row.iclass, m.mode with
    | .ldstUnscaled, .offset => .ok bits
    | .ldstImm9, .postIndex => .ok bits
    | .ldstImm9, .preIndex => .ok (bits ||| placeAt 1 11)
    | _, _ => invalidOperand kind

def encodeAddrUimm12 (kind : Aarch64Opnd) (operand : DecodedOperand) (word : Word) :
    Except EncodeError Word := do
  let (m, offset) ← memoryImmediate kind operand
  let unit : Int := 2 ^ bitsOf word 30 2
  if m.mode ≠ .offset ∨ offset < 0 ∨ offset % unit ≠ 0 ∨ offset / unit > 0xfff then
    invalidOperand kind
  else .ok (placeAt m.base.index 5 ||| placeAt (offset / unit).toNat 10)

def encodeSimdAddrPost (kind : Aarch64Opnd) (operand : DecodedOperand) :
    Except EncodeError Word := do
  let m ← memoryOperand kind operand
  if m.mode ≠ .postIndex then invalidOperand kind
  else
    match m.offset with
    | .immediate _ => .ok (placeAt m.base.index 5 ||| placeAt 31 16)
    | .register r none =>
      if r.regClass = .x ∧ r.index ≤ 31 then
        .ok (placeAt m.base.index 5 ||| placeAt r.index 16)
      else invalidOperand kind
    | _ => invalidOperand kind

/-! ## §7. Encoding an operand slot. -/

def encodeOperand (kind : Aarch64Opnd) (operand : DecodedOperand) (ctx : EncodeContext) :
    Except EncodeError Word :=
  match kind with
  | .rd => encodeRdRegister kind operand ctx.row
  | .rn => encodeGpRegister kind operand 5
  | .rm => encodeGpRegister kind operand 16
  | .rmLow => encodeGpRegister kind operand 0
  | .rdSp => encodeGpOrSpRegister kind operand 0
  | .rnSp => encodeGpOrSpRegister kind operand 5
  | .ra => encodeGpRegister kind operand 10
  | .rmExt => encodeRmExtended kind operand
  | .rmSft => encodeRmShifted kind operand
  | .rt => encodeRtRegister kind operand ctx.row
  | .rt2 => encodeGpRegister kind operand 10
  | .rs => encodeStatusRegister kind operand ctx.row
  | .rtSys => encodeRtSysRegister kind operand
  | .fd => encodeFpRegister kind operand 0
  | .fn => encodeFpRegister kind operand 5
  | .fm => encodeFpRegister kind operand 16
  | .fa => encodeFpRegister kind operand 10
  | .ft => encodeFtRegister kind operand ctx.row 0
  | .ft2 => encodeFtRegister kind operand ctx.row 10
  | .vd => encodeVectorRegister kind operand ctx.row 0
  | .vn => encodeVectorRegister kind operand ctx.row 5
  | .vm => encodeVectorRegister kind operand ctx.row 16
  | .sd => encodeSimdScalarRegister kind operand ctx.row 0
  | .sn => encodeSimdScalarRegister kind operand ctx.row 5
  | .sm => encodeSimdScalarRegister kind operand ctx.row 16
  | .vdD1 => encodeVectorD1 kind operand 0
  | .vnD1 => encodeVectorD1 kind operand 5
  | .ed => encodeVectorElement kind operand ctx.row 0
  | .en => encodeVectorElement kind operand ctx.row 5
  | .em => encodeVectorElement kind operand ctx.row 16
  | .lvn => encodeVectorList kind operand 5 ctx.row
  | .lvt => encodeVectorList kind operand 0 ctx.row
  | .lvtAl => encodeVectorListAllLanes kind operand
  | .let => encodeVectorElementList kind operand
  | .pairreg => encodePairRegister kind operand
  | .aimm => encodeAimm kind operand
  | .half => encodeHalf kind operand
  | .immMov => encodeImmMov kind operand ctx.row
  | .imm => encodeBitfieldImm kind operand ctx.row ctx.baseWord
  | .immr => encodeRawImmediate kind operand 16 6
  | .imms => encodeRawImmediate kind operand 10 6
  | .limm => encodeLogicalImmediate kind operand ctx.baseWord
  | .width => encodeBitfieldWidth kind operand ctx.row ctx.baseWord
  | .bitNum => encodeBitNum kind operand
  | .exc => encodeRawImmediate kind operand 5 16
  | .uimm3Op1 => encodeRawImmediate kind operand 16 3
  | .uimm3Op2 => encodeRawImmediate kind operand 5 3
  | .uimm4 => encodeRawImmediate kind operand 8 4
  | .uimm7 => encodeUimm7 kind operand
  | .imm0 => encodeZeroImmediate kind operand
  | .fpimm0 => encodeZeroFloatImmediate kind operand
  | .fpimm => encodeFpImmediate kind operand 13
  | .fbits => encodeFbits kind operand
  | .idx => encodeRawImmediate kind operand 11 4
  | .immVlsl => encodeVectorShiftImmediate kind operand ctx.baseWord false
  | .immVlsr => encodeVectorShiftImmediate kind operand ctx.baseWord true
  | .simdImm => encodeSimdImmediate kind operand
  | .simdImmSft => encodeSimdShiftedImmediate kind operand
  | .simdFpimm => encodeSimdFpImmediate kind operand ctx.baseWord
  | .shllImm => encodeShllImmediate kind operand
  | .addrSimple => encodeAddrSimple kind operand
  | .addrRegoff => encodeAddrRegoff kind operand ctx.baseWord
  | .addrSimm7 => encodeAddrSimm7 kind operand ctx.row
  | .addrSimm9 => encodeAddrSimm9 kind operand ctx.row
  | .addrUimm12 => encodeAddrUimm12 kind operand ctx.baseWord
  | .addrPcrel14 => encodePcrel kind operand ctx.address 14 5
  | .addrPcrel19 => encodePcrel kind operand ctx.address 19 5
  | .addrPcrel21 => encodePcrel21 kind operand ctx.address
  | .addrPcrel26 => encodePcrel kind operand ctx.address 26 0
  | .addrAdrp => encodeAdrp kind operand ctx.address
  | .simdAddrSimple => encodeAddrSimple kind operand
  | .simdAddrPost => encodeSimdAddrPost kind operand
  | .ccmpImm => encodeRawImmediate kind operand 16 5
  | .nzcv => encodeRawImmediate kind operand 0 4
  | .cond => encodeCondition kind operand false
  | .cond1 => encodeCondition kind operand true
  | .barrier => encodeBarrier kind operand
  | .barrierIsb => encodeBarrierIsb kind operand
  | .barrierPsb => encodeSystemFixed kind operand "csync"
  | .cn => encodeCoprocRegister kind operand 12
  | .cm => encodeCoprocRegister kind operand 8
  | .pstatefield => encodePstateField kind operand
  | .prfop => encodePrfop kind operand
  | .sysreg => encodeSysreg kind operand
  | .sysregAt => encodeSysOp kind operand "at"
  | .sysregDc => encodeSysOp kind operand "dc"
  | .sysregIc => encodeSysOp kind operand "ic"
  | .sysregTlbi => encodeSysOp kind operand "tlbi"
  | .nil | .addrSimm92 => .error (.unimplemented kind.name)

/-! ## §8. Encoding an instruction. -/

structure InstructionTemplate where
  address : U64
  mnemonic : Aarch64Mnemonic
  operands : List DecodedOperand
  deriving Repr, DecidableEq

/-- OR the encodings of the operands into a word, in slot order. -/
def encodeOperands (row : Aarch64Opcode) (address : U64) :
    Word → List Aarch64Opnd → List DecodedOperand → Except EncodeError Word
  | word, kind :: kinds, operand :: operands => do
    let bits ← encodeOperand kind operand ⟨word, address, row⟩
    encodeOperands row address (word ||| bits) kinds operands
  | word, _, _ => .ok word

/-- The register in an operand position, for an alias that copies it. -/
def gpRegisterAt (operands : List DecodedOperand) (index : Nat) (kind : String) :
    Except EncodeError Nat :=
  match operands[index]? with
  | some (.register r) =>
    if (r.regClass = .w ∨ r.regClass = .x) ∧ r.index ≤ 31 then .ok r.index
    else .error (.invalidOperand kind)
  | _ => .error (.invalidOperand kind)

/-- Bits an alias encodes implicitly: `cinc` copies `Rn` into `Rm`, and the
byte and halfword extensions set `N` for a 64-bit destination. -/
def aliasImplicitBits (mnemonic : Aarch64Mnemonic) (operands : List DecodedOperand) :
    Except EncodeError Word :=
  if mnemonic = .cinc then do
    let rn ← gpRegisterAt operands 1 "Rn"
    .ok (placeAt rn 16)
  else if ["sxtb", "sxth", "uxtb", "uxth"].contains mnemonic.tableName then
    match operands.head? with
    | some (.register r) => .ok (if r.regClass = .x then placeAt 1 22 else 0)
    | _ => .error (.invalidOperand "Rd")
  else .ok 0

/-- Try the candidate rows in order; `lastError` is reported if none fits. -/
def tryCandidates (t : InstructionTemplate) :
    Option EncodeError → List Aarch64Opcode → Except EncodeError Word
  | lastError, [] => .error (lastError.getD (.noMatchingForm t.mnemonic.tableName))
  | lastError, row :: rows =>
    if row.operands.length ≠ t.operands.length then tryCandidates t lastError rows
    else
      match encodeOperands row t.address row.opcode row.operands t.operands with
      | .error (.invalidOperand kind) => tryCandidates t (some (.invalidOperand kind)) rows
      | .error (.unimplemented kind) => tryCandidates t (some (.unimplemented kind)) rows
      | .error e => .error e
      | .ok word =>
        match aliasImplicitBits t.mnemonic t.operands with
        | .error e => .error e
        | .ok bits =>
          if row.maskMatches (word ||| bits) then .ok (word ||| bits)
          else tryCandidates t (some (lastError.getD (.invalidOperand "<mask>"))) rows

/-- Encode one instruction. -/
def encodeInstruction (t : InstructionTemplate) : Except EncodeError Word :=
  let candidates := opcodesForMnemonic t.mnemonic
  if candidates.isEmpty then .error (.unknownMnemonic t.mnemonic.tableName)
  else tryCandidates t none candidates

end Armv8Encode

/-
  Armv8Encode.Isa.Armv7.IsaImpl — Thumb and ARM mode as instances of `Isa`.

  Neither gives a per-word decoder, so the rewrite layer never learns what a
  source instruction was, and neither fuses.  The mnemonic `b` stands for the
  conditional and the unconditional branch alike: it is its own inverse, and
  widening inverts the condition operand instead.
-/
import Armv8Encode.Isa.Armv7.ControlFlow
import Armv8Encode.Isa.Armv7.MacroEmit

namespace Armv8Encode.Armv7

open Lib

/-! ## §1. What the two have in common. -/

def pcrelKind : DecodedOperand → Option (PcRelKind × U64)
  | .branchTarget address => some (.branch, address)
  | _ => none

/-- There is no page operand: the source panics when asked to make one. -/
def makePcrelOperand : PcRelKind → U64 → DecodedOperand
  | .branch, address => .branchTarget address
  | .page, address => .pcRelative address

/-- The condition of a branch template. -/
def templateCondition (operands : List DecodedOperand) : Option Byte :=
  operands.findSome? fun
    | .condition c => some c
    | _ => none

/-- The condition that makes a branch conditional. -/
def takenCondition (operands : List DecodedOperand) : Option Byte :=
  (templateCondition operands).filter (· < 14)

def overrideOperand (cond : Byte) (target : U64) : DecodedOperand → DecodedOperand
  | .condition _ => .condition cond
  | .branchTarget _ => .branchTarget target
  | other => other

/-- The template with its condition and its target overridden, each appended
when the template has none. -/
def buildOperandsWithOverrides (template : List DecodedOperand) (cond : Byte) (target : U64) :
    List DecodedOperand :=
  template.map (overrideOperand cond target)
    ++ (if template.any (fun | .condition _ => true | _ => false) then [] else [.condition cond])
    ++ (if template.any (fun | .branchTarget _ => true | _ => false) then []
        else [.branchTarget target])

/-- No idiom is fused. -/
def fuseNothing {Mn Mk : Type} (instructions : List (RewriteInstruction Mn DecodedOperand))
    (_ : Map U64 BasicBlockId) (_ : Option Container) (_ : Map U64 FusionRelocationInfo) :
    List (RewriteOp Mn Register DecodedOperand Mk) :=
  instructions.map RewriteOp.instruction

/-! ## §2. Thumb. -/

namespace Thumb

def pcrelRangeBytes : ThumbMnemonic → Option Int
  | .b | .bl | .blx => some (16 * 1024 * 1024)
  | .cbz | .cbnz => some 126
  | _ => none

def invertConditionalBranch : ThumbMnemonic → Option ThumbMnemonic
  | .b => some .b
  | _ => none

/-- The bytes of an encoded word. -/
def wordOf (word : Word) : ThumbWidth → List Byte
  | .halfword => halfwordBytes word
  | .word => wordBytes word

@[simp] theorem length_wordOf (word : Word) (width : ThumbWidth) :
    (wordOf word width).length = sizeBytes width := by
  cases width <;> rfl

def encodeBytes (mnemonic : ThumbMnemonic) (operands : List DecodedOperand) (address : U64) :
    Except EncodeError (List Byte) := do
  let encoded ← encode mnemonic operands address
  pure (wordOf encoded.1 encoded.2)

/-- Encode by the row with the given fixed bits. -/
def encodeWide (opcode mask : Word) (operands : List DecodedOperand) (address : U64) :
    Except EncodeError (List Byte) :=
  match findRow opcode mask with
  | none => .error (.noMatchingForm "<thumb-mnemonic>" operands.length)
  | some row => do
    let encoded ← encodeWithRow row operands address
    pure (wordBytes encoded.1)

/-- The inverted branch over a skip of eight bytes, then a far `b.w`; for an
unconditional branch a far `b.w` and `nop.w`. -/
def encodeWidenedConditional (_ : ThumbMnemonic) (template : List DecodedOperand)
    (here farTarget : U64) : Except EncodeError (List Byte) :=
  match takenCondition template with
  | some cond => do
    let skip ← encodeWide 0xf0008000 0xf800d000
      (buildOperandsWithOverrides template ((cond ^^^ 1) &&& 0xf) (here + 8)) here
    let far ← encodeWide 0xf0009000 0xf800d000 [.branchTarget farTarget] (here + 4)
    pure (skip ++ far)
  | none => do
    let far ← encodeWide 0xf0009000 0xf800d000 [.branchTarget farTarget] here
    pure (far ++ wordBytes 0xf3af8000)

def relocationKindFor (mnemonic : ThumbMnemonic) : PcRelKind → Option RelocationKind
  | .branch =>
    match mnemonic with
    | .bl | .blx => some .thumbCall
    | .b => some .thumbJump24
    | _ => none
  | .page => none

def isPcRelativeRelocation : RelocationKind → Bool
  | .thumbCall | .thumbJump24 | .thumbJump19 => true
  | _ => false

def isLiftRelevantRelocation : RelocationKind → Bool
  | .thumbCall | .thumbJump24 | .thumbJump19 | .thumbMovwAbsNc | .thumbMovtAbs => true
  | _ => false

/-- Two bytes when every row of the mnemonic is a halfword, else four. -/
def instructionSourceSize (mnemonic : ThumbMnemonic) : U64 :=
  if thumbOpcodeTable.any fun row => row.mnemonic == mnemonic && row.width == .word then 4 else 2

end Thumb

/-- Thumb: two or four bytes an instruction. -/
def thumb : Isa ThumbMnemonic Register DecodedOperand EncodeError Thumb.MacroKind
    Thumb.DecodedInstruction where
  decodedAddress := Thumb.DecodedInstruction.address
  decodedMnemonic := Thumb.DecodedInstruction.mnemonic
  decodedOperands := Thumb.DecodedInstruction.operands
  decodedSize := fun i => BitVec.ofNat 64 (Thumb.sizeBytes i.width)
  decode := fun _ _ => none
  pcrelKind := pcrelKind
  makePcrelOperand := makePcrelOperand
  pcrelRangeBytes := Thumb.pcrelRangeBytes
  invertConditionalBranch := Thumb.invertConditionalBranch
  widenedConditionalSize := 8
  widenedConditionalRange := 16 * 1024 * 1024
  encode := Thumb.encodeBytes
  encodeWidenedConditional := Thumb.encodeWidenedConditional
  relocationKindFor := Thumb.relocationKindFor
  isPcRelativeRelocation := Thumb.isPcRelativeRelocation
  isLiftRelevantRelocation := Thumb.isLiftRelevantRelocation
  fuseMacros := fuseNothing
  instructionSourceSize := Thumb.instructionSourceSize
  emitMacro := Thumb.emitMacro

/-! ## §3. ARM mode. -/

namespace Arm

def pcrelRangeBytes : ArmMnemonic → Option Int
  | .b | .blx => some (32 * 1024 * 1024)
  | _ => none

def invertConditionalBranch : ArmMnemonic → Option ArmMnemonic
  | .b => some .b
  | _ => none

def encodeBytes (mnemonic : ArmMnemonic) (operands : List DecodedOperand) (address : U64) :
    Except EncodeError (List Byte) := do
  let word ← encode mnemonic operands address
  pure (toLeBytes word)

/-- Encode by the `b` row. -/
def encodeBranch (operands : List DecodedOperand) (address : U64) :
    Except EncodeError (List Byte) :=
  match findRow 0x0a000000 0x0e000000 with
  | none => .error (.noMatchingForm "<arm-mnemonic>" operands.length)
  | some row => do
    let word ← encodeWithRow row operands address
    pure (toLeBytes word)

/-- The inverted branch over a skip of eight bytes, then a far `b`; for an
unconditional branch a far `b` and `mov r0, r0`. -/
def encodeWidenedConditional (_ : ArmMnemonic) (template : List DecodedOperand)
    (here farTarget : U64) : Except EncodeError (List Byte) :=
  match takenCondition template with
  | some cond => do
    let skip ← encodeBranch
      (buildOperandsWithOverrides template ((cond ^^^ 1) &&& 0xf) (here + 8)) here
    let far ← encodeBranch [.condition 14, .branchTarget farTarget] (here + 4)
    pure (skip ++ far)
  | none => do
    let far ← encodeBranch [.condition 14, .branchTarget farTarget] here
    pure (far ++ toLeBytes 0xe1a00000)

def relocationKindFor (mnemonic : ArmMnemonic) : PcRelKind → Option RelocationKind
  | .branch =>
    match mnemonic with
    | .b | .blx => some .armCall
    | _ => none
  | .page => none

def isPcRelativeRelocation : RelocationKind → Bool
  | .armCall | .armJump24 | .armPc24 => true
  | _ => false

def isLiftRelevantRelocation : RelocationKind → Bool
  | .armCall | .armJump24 | .armPc24 | .armMovwAbsNc | .armMovtAbs => true
  | _ => false

end Arm

/-- ARM mode: every instruction is four bytes. -/
def arm : Isa ArmMnemonic Register DecodedOperand EncodeError Arm.MacroKind
    Arm.DecodedInstruction where
  decodedAddress := Arm.DecodedInstruction.address
  decodedMnemonic := Arm.DecodedInstruction.mnemonic
  decodedOperands := Arm.DecodedInstruction.operands
  decodedSize := fun _ => 4
  decode := fun _ _ => none
  pcrelKind := pcrelKind
  makePcrelOperand := makePcrelOperand
  pcrelRangeBytes := Arm.pcrelRangeBytes
  invertConditionalBranch := Arm.invertConditionalBranch
  widenedConditionalSize := 8
  widenedConditionalRange := 32 * 1024 * 1024
  encode := Arm.encodeBytes
  encodeWidenedConditional := Arm.encodeWidenedConditional
  relocationKindFor := Arm.relocationKindFor
  isPcRelativeRelocation := Arm.isPcRelativeRelocation
  isLiftRelevantRelocation := Arm.isLiftRelevantRelocation
  fuseMacros := fuseNothing
  instructionSourceSize := fun _ => 4
  emitMacro := Arm.emitMacro

end Armv8Encode.Armv7

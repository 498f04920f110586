/-
  Armv8Encode.Isa.Armv7.ControlFlow — control flow of Thumb and ARM mode.

  A Thumb `b` is conditional when its row's format has a condition with a bit
  range; an ARM-mode one when the condition field of its word is not AL.  ARM
  mode has `b` and `bl` in one row, told apart by bit 24.
-/
import Armv8Encode.Mc.Cfg
import Armv8Encode.Isa.Armv7.Sweep

namespace Armv8Encode.Armv7

/-! ## §1. Operands that matter. -/

/-- The first operand that carries a PC-relative branch target. -/
def directBranchTarget (operands : List DecodedOperand) : Option U64 :=
  operands.findSome? fun
    | .branchTarget target => some target
    | _ => none

/-- The index of an operand that is a core register. -/
def coreRegister : DecodedOperand → Option Byte
  | .register r => if r.regClass = .r then some r.index else none
  | _ => none

/-- A register list with the program counter in it. -/
def listContainsPc (operands : List DecodedOperand) : Bool :=
  operands.any fun
    | .registerList mask => mask &&& 0x8000 != 0
    | _ => false

/-! ## §2. Thumb. -/

namespace Thumb

/-- The format has a `c` with a bit range.  The scan never steps over a percent
sign, so every percent sign of the text is tried. -/
def hasRangedCondition : List Char → Bool
  | [] => false
  | '%' :: rest =>
    ((rest.head?.any Char.isDigit) && (rest.dropWhile isBitfieldChar).head? == some 'c')
      || hasRangedCondition rest
  | _ :: rest => hasRangedCondition rest

def isConditionalBranchFormat (format : String) : Bool := hasRangedCondition (formatBytes format)

def branchesViaLr (operands : List DecodedOperand) : Bool :=
  operands.findSome? coreRegister == some 14

namespace DecodedInstruction

/-- Effect of an instruction on the program counter. -/
def controlFlow (i : DecodedInstruction) : ControlFlow :=
  let fallthrough := i.address + BitVec.ofNat 64 (sizeBytes i.width)
  match i.mnemonic with
  | .b =>
    match directBranchTarget i.operands with
    | some target =>
      if isConditionalBranchFormat ((i.row.map ThumbOpcode.format).getD "") then
        .conditionalJump target fallthrough
      else .jump target
    | none => .fall
  | .bl | .blx =>
    match directBranchTarget i.operands with
    | some target => .call target fallthrough
    | none => .indirectCall fallthrough
  | .cbz | .cbnz =>
    match directBranchTarget i.operands with
    | some target => .conditionalJump target fallthrough
    | none => .fall
  | .bx => if branchesViaLr i.operands then .return else .indirectJump
  | .pop | .ldmia | .ldmdb => if listContainsPc i.operands then .return else .fall
  | .svc | .hvc | .smc | .udf | .bkpt => .trap
  | _ => .fall

end DecodedInstruction

/-- Thumb instructions as the graph builder sees them. -/
def info : InstructionInfo DecodedInstruction where
  address := DecodedInstruction.address
  size := fun i => BitVec.ofNat 64 (sizeBytes i.width)
  controlFlow := DecodedInstruction.controlFlow

end Thumb

/-! ## §3. ARM mode. -/

namespace Arm

def branchesViaLr (operands : List DecodedOperand) : Bool :=
  operands.any fun o => coreRegister o == some 14

def firstRegisterIsPc (operands : List DecodedOperand) : Bool :=
  operands.findSome? coreRegister == some 15

namespace DecodedInstruction

/-- Effect of an instruction on the program counter. -/
def controlFlow (i : DecodedInstruction) : ControlFlow :=
  let fallthrough := i.address + 4
  let cond := (i.word >>> 28) &&& 0xf
  let isUnconditional := cond == 0xe || cond == 0xf
  match i.mnemonic with
  | .b =>
    let isLink := (i.word >>> 24) &&& 1 == 1
    match directBranchTarget i.operands with
    | some target =>
      if isLink then .call target fallthrough
      else if isUnconditional then .jump target
      else .conditionalJump target fallthrough
    | none => .fall
  | .blx =>
    match directBranchTarget i.operands with
    | some target => .call target fallthrough
    | none => .indirectCall fallthrough
  | .bx => if branchesViaLr i.operands then .return else .indirectJump
  | .ldm | .ldmfd => if listContainsPc i.operands then .return else .fall
  | .ldr => if firstRegisterIsPc i.operands then .indirectJump else .fall
  | .mov =>
    if firstRegisterIsPc i.operands && branchesViaLr i.operands then .return
    else if firstRegisterIsPc i.operands then .indirectJump
    else .fall
  | .svc | .bkpt | .udf | .hvc | .smc => .trap
  | _ => .fall

end DecodedInstruction

/-- ARM-mode instructions as the graph builder sees them. -/
def info : InstructionInfo DecodedInstruction where
  address := DecodedInstruction.address
  size := fun _ => 4
  controlFlow := DecodedInstruction.controlFlow

end Arm

end Armv8Encode.Armv7

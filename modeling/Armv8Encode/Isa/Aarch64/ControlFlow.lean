/-
  Armv8Encode.Isa.Aarch64.ControlFlow — branch geometry and classification.

  Each branch-shaped mnemonic has a range, conditional branches have an
  inverse, and a decoded instruction is classified into a `ControlFlow`.
-/
import Armv8Encode.Mc.Cfg
import Armv8Encode.Isa.Aarch64.Encode

namespace Armv8Encode

namespace Aarch64Mnemonic

/-- Half the byte range of a PC-relative encoding; `none` when the mnemonic
has no direct target. -/
def pcrelRangeBytes (m : Aarch64Mnemonic) : Option Int :=
  match m with
  | .b | .bl => some (128 * 1024 * 1024)
  | .beq | .bne | .bcs | .bcc | .bmi | .bpl | .bvs | .bvc | .bhi | .bls | .bge | .blt | .bgt
  | .ble | .cbz | .cbnz => some (1024 * 1024)
  | .tbz | .tbnz => some (32 * 1024)
  | .adr => some (1024 * 1024)
  | _ => none

/-- The mnemonic with the inverted condition. -/
def invertConditionalBranch (m : Aarch64Mnemonic) : Option Aarch64Mnemonic :=
  match m with
  | .beq => some .bne
  | .bne => some .beq
  | .bcs => some .bcc
  | .bcc => some .bcs
  | .bmi => some .bpl
  | .bpl => some .bmi
  | .bvs => some .bvc
  | .bvc => some .bvs
  | .bhi => some .bls
  | .bls => some .bhi
  | .bge => some .blt
  | .blt => some .bge
  | .bgt => some .ble
  | .ble => some .bgt
  | .cbz => some .cbnz
  | .cbnz => some .cbz
  | .tbz => some .tbnz
  | .tbnz => some .tbz
  | _ => none

end Aarch64Mnemonic

/-- The first operand that carries a PC-relative branch target. -/
def directBranchTarget (operands : List DecodedOperand) : Option U64 :=
  operands.findSome? fun
    | .branchTarget target => some target
    | _ => none

namespace DecodedInstruction

/-- Effect of an instruction on the program counter. -/
def controlFlow (i : DecodedInstruction) : ControlFlow :=
  let fallthrough := i.address + 4
  match i.mnemonic with
  | .b =>
    match directBranchTarget i.operands with
    | some target => .jump target
    | none => .fall
  | .bl =>
    match directBranchTarget i.operands with
    | some target => .call target fallthrough
    | none => .fall
  | .beq | .bne | .bcs | .bcc | .bmi | .bpl | .bvs | .bvc | .bhi | .bls | .bge | .blt | .bgt
  | .ble | .cbz | .cbnz | .tbz | .tbnz =>
    match directBranchTarget i.operands with
    | some target => .conditionalJump target fallthrough
    | none => .fall
  | .br => .indirectJump
  | .blr => .indirectCall fallthrough
  | .ret | .eret | .drps => .return
  | .svc | .hvc | .smc | .brk | .hlt | .dcps1 | .dcps2 | .dcps3 => .trap
  | _ => .fall

end DecodedInstruction

/-- AArch64 instructions as the graph builder sees them. -/
def aarch64Info : InstructionInfo DecodedInstruction where
  address := DecodedInstruction.address
  size := fun _ => 4
  controlFlow := DecodedInstruction.controlFlow

end Armv8Encode

/-
  Armv8Encode.Isa.Aarch64.Operand — decoded operands and codec errors.

  A decoded operand is what the decoder shows of an instruction's fields:
  registers with the class that fixes their width, immediates, memory
  operands, PC-relative targets as absolute addresses, and a few textual
  forms (system registers, barriers, conditions, floating immediates).
  Register numbers, lane numbers and shift amounts are natural numbers here;
  signed immediates are integers.
-/
import Armv8Encode.Isa.Aarch64.Table

namespace Armv8Encode

/-! ## §1. Operand data. -/

inductive RegisterClass where
  | b | h | s | d | q | w | x | wOrSp | xOrSp
  deriving Repr, DecidableEq

structure Register where
  regClass : RegisterClass
  index : Nat
  deriving Repr, DecidableEq

inductive VectorArrangement where
  | b8 | b16 | h4 | h8 | s2 | s4 | d1 | d2
  deriving Repr, DecidableEq

inductive VectorElementSize where
  | b | h | s | d
  deriving Repr, DecidableEq

structure VectorRegister where
  index : Nat
  arrangement : VectorArrangement
  deriving Repr, DecidableEq

structure VectorElement where
  index : Nat
  element : Nat
  size : VectorElementSize
  deriving Repr, DecidableEq

structure VectorList where
  first : Nat
  count : Nat
  arrangement : VectorArrangement
  element : Option Nat
  deriving Repr, DecidableEq

inductive ShiftKind where
  | lsl | lsr | asr | ror
  deriving Repr, DecidableEq

structure Shift where
  kind : ShiftKind
  amount : Nat
  deriving Repr, DecidableEq

structure ShiftedRegister where
  register : Register
  shift : Shift
  deriving Repr, DecidableEq

inductive ExtendKind where
  | uxtb | uxth | uxtw | uxtx | sxtb | sxth | sxtw | sxtx
  deriving Repr, DecidableEq

structure ExtendedRegister where
  register : Register
  extend : ExtendKind
  amount : Nat
  deriving Repr, DecidableEq

structure ShiftedImmediate where
  value : Int
  shift : Nat
  deriving Repr, DecidableEq

inductive MemoryOffset where
  | none
  | immediate (value : Int)
  | register (register : Register) (shift : Option Shift)
  deriving Repr, DecidableEq

inductive AddressingMode where
  | offset | preIndex | postIndex
  deriving Repr, DecidableEq

structure MemoryOperand where
  base : Register
  offset : MemoryOffset
  mode : AddressingMode
  deriving Repr, DecidableEq

/-- One operand of a decoded instruction. -/
inductive DecodedOperand where
  | register (r : Register)
  | vectorRegister (r : VectorRegister)
  | vectorElement (e : VectorElement)
  | vectorList (l : VectorList)
  | shiftedRegister (r : ShiftedRegister)
  | extendedRegister (r : ExtendedRegister)
  | immediate (value : Int)
  | unsignedImmediate (value : U64)
  | shiftedImmediate (i : ShiftedImmediate)
  | memory (m : MemoryOperand)
  | branchTarget (address : U64)
  | pageTarget (address : U64)
  | system (text : String)
  | condition (name : String)
  | floatImmediate (text : String)
  | unimplemented (kind : String)
  deriving Repr, DecidableEq

/-! ## §2. Errors. -/

inductive DecodeError where
  | noMatchingOpcode (word : Word)
  | invalidOperand (kind : String)
  deriving Repr, DecidableEq

inductive EncodeError where
  | unknownMnemonic (mnemonic : String)
  | noMatchingForm (mnemonic : String)
  | invalidOperand (kind : String)
  | unimplemented (kind : String)
  /-- The source panics here: widening was asked for a mnemonic that has no
  inverse. -/
  | notConditional
  deriving Repr, DecidableEq

/-- The name of an operand kind, as errors report it. -/
def Aarch64Opnd.name : Aarch64Opnd → String
  | .nil => "Nil"
  | .rd => "Rd"
  | .rn => "Rn"
  | .rm => "Rm"
  | .rmLow => "RmLow"
  | .rt => "Rt"
  | .rt2 => "Rt2"
  | .rs => "Rs"
  | .ra => "Ra"
  | .rtSys => "RtSys"
  | .rdSp => "RdSp"
  | .rnSp => "RnSp"
  | .pairreg => "Pairreg"
  | .rmExt => "RmExt"
  | .rmSft => "RmSft"
  | .fd => "Fd"
  | .fn => "Fn"
  | .fm => "Fm"
  | .fa => "Fa"
  | .ft => "Ft"
  | .ft2 => "Ft2"
  | .sd => "Sd"
  | .sn => "Sn"
  | .sm => "Sm"
  | .vd => "Vd"
  | .vn => "Vn"
  | .vm => "Vm"
  | .vdD1 => "VdD1"
  | .vnD1 => "VnD1"
  | .ed => "Ed"
  | .en => "En"
  | .em => "Em"
  | .lvn => "Lvn"
  | .lvt => "Lvt"
  | .lvtAl => "LvtAl"
  | .let => "Let"
  | .cn => "Cn"
  | .cm => "Cm"
  | .idx => "Idx"
  | .immVlsl => "ImmVlsl"
  | .immVlsr => "ImmVlsr"
  | .simdImm => "SimdImm"
  | .simdImmSft => "SimdImmSft"
  | .simdFpimm => "SimdFpimm"
  | .shllImm => "ShllImm"
  | .imm0 => "Imm0"
  | .fpimm0 => "Fpimm0"
  | .fpimm => "Fpimm"
  | .immr => "Immr"
  | .imms => "Imms"
  | .width => "Width"
  | .imm => "Imm"
  | .uimm3Op1 => "Uimm3Op1"
  | .uimm3Op2 => "Uimm3Op2"
  | .uimm4 => "Uimm4"
  | .uimm7 => "Uimm7"
  | .bitNum => "BitNum"
  | .exc => "Exc"
  | .ccmpImm => "CcmpImm"
  | .nzcv => "Nzcv"
  | .limm => "Limm"
  | .aimm => "Aimm"
  | .half => "Half"
  | .fbits => "Fbits"
  | .immMov => "ImmMov"
  | .cond => "Cond"
  | .cond1 => "Cond1"
  | .addrAdrp => "AddrAdrp"
  | .addrPcrel14 => "AddrPcrel14"
  | .addrPcrel19 => "AddrPcrel19"
  | .addrPcrel21 => "AddrPcrel21"
  | .addrPcrel26 => "AddrPcrel26"
  | .addrSimple => "AddrSimple"
  | .addrRegoff => "AddrRegoff"
  | .addrSimm7 => "AddrSimm7"
  | .addrSimm9 => "AddrSimm9"
  | .addrSimm92 => "AddrSimm92"
  | .addrUimm12 => "AddrUimm12"
  | .simdAddrSimple => "SimdAddrSimple"
  | .simdAddrPost => "SimdAddrPost"
  | .sysreg => "Sysreg"
  | .pstatefield => "Pstatefield"
  | .sysregAt => "SysregAt"
  | .sysregDc => "SysregDc"
  | .sysregIc => "SysregIc"
  | .sysregTlbi => "SysregTlbi"
  | .barrier => "Barrier"
  | .barrierIsb => "BarrierIsb"
  | .prfop => "Prfop"
  | .barrierPsb => "BarrierPsb"

end Armv8Encode

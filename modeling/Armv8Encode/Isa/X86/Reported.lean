/-
  Armv8Encode.Isa.X86.Reported — an x86 instruction as the decoder reports it.

  The x86 back end decodes with an external crate and reads everything else off
  the decoded instruction: mnemonic, operand kinds and registers, the parts of
  the memory operand, the prefixes.  This module is the record of those reports
  in 64-bit mode, with the register tests and the fold of a memory operand that
  the projections share.

  A memory operand is either relative to the instruction pointer, and then the
  decoder reports the target, or general, and then its base and index have the
  width of the address size.
-/
import Armv8Encode.Lib.Words
import Mathlib.Data.Option.Basic

namespace Armv8Encode.X86

open Lib

/-! ## §1. Registers. -/

/-- The registers by class; `n` is the number in the instruction encoding. -/
inductive Register where
  | none
  | gpr8 (n : Fin 16)
  /-- The legacy high bytes `ah`, `ch`, `dh`, `bh`. -/
  | highByte (n : Fin 4)
  | gpr16 (n : Fin 16)
  | gpr32 (n : Fin 16)
  | gpr64 (n : Fin 16)
  | eip | rip
  | es | cs | ss | ds | fs | gs
  | xmm (n : Fin 32)
  /-- Wider vectors, masks, control, debug and x87 registers. -/
  | other (code : Nat)
  deriving Repr, DecidableEq

/-- A general-purpose register of 32 or 64 bits. -/
structure WideGpr where
  is64 : Bool
  index : Fin 16
  deriving Repr, DecidableEq

/-- A general-purpose register of any width but the legacy high bytes. -/
structure SizedGpr where
  sizeLog2 : Nat
  index : Fin 16
  deriving Repr, DecidableEq

namespace Register

/-- The number of the 64-bit parent, whatever the width of the register. -/
def gpr64Index : Register → Option (Fin 16)
  | gpr8 n | gpr16 n | gpr32 n | gpr64 n => some n
  | highByte n => some (n.castLE (by omega))
  | _ => Option.none

def isGpr16 : Register → Bool
  | gpr16 _ => true
  | _ => false

def isGpr32 : Register → Bool
  | gpr32 _ => true
  | _ => false

def isGpr64 : Register → Bool
  | gpr64 _ => true
  | _ => false

/-- A low byte register; the high bytes sit at another bit position. -/
def lowGpr8 : Register → Option (Fin 16)
  | gpr8 n => some n
  | _ => Option.none

/-- One of the sixteen `xmm` registers that exist without AVX-512. -/
def xmmIndex : Register → Option (Fin 16)
  | xmm n => if h : n.val < 16 then some ⟨n, h⟩ else Option.none
  | _ => Option.none

def gprSizeLog2 : Register → Option Nat
  | gpr8 _ => some 0
  | gpr16 _ => some 1
  | gpr32 _ => some 2
  | gpr64 _ => some 3
  | _ => Option.none

/-- The register a projection for one width takes. -/
def ofWidth (test : Register → Bool) (r : Register) : Option (Fin 16) := do
  guard (test r)
  r.gpr64Index

def asGpr16 : Register → Option (Fin 16) := ofWidth isGpr16

def asGpr32 : Register → Option (Fin 16) := ofWidth isGpr32

def asGpr64 : Register → Option (Fin 16) := ofWidth isGpr64

/-- The register a projection for 32 and 64 bits takes. -/
def wide (r : Register) : Option WideGpr := do
  guard (r.isGpr32 ∨ r.isGpr64)
  let index ← r.gpr64Index
  pure ⟨r.isGpr64, index⟩

/-- The register a projection for every width takes. -/
def sized (r : Register) : Option SizedGpr := do
  let sizeLog2 ← r.gprSizeLog2
  let index ← r.gpr64Index
  pure ⟨sizeLog2, index⟩

/-- The bits of a general-purpose register; other registers have none here. -/
def bits : Register → Nat
  | gpr8 _ | highByte _ => 8
  | gpr16 _ => 16
  | gpr32 _ => 32
  | gpr64 _ => 64
  | _ => 0

end Register

/-! ## §2. Memory operands. -/

inductive AddressSize where
  | bits32
  | bits64
  deriving Repr, DecidableEq

/-- An index register; the gathers have a vector of them. -/
inductive IndexRegister where
  | gpr (n : Fin 16)
  | vector (code : Nat)
  deriving Repr, DecidableEq

/-- A memory operand in 64-bit mode. -/
inductive MemoryOperand where
  /-- `[rip + disp]`, with the address it comes to. -/
  | ripRelative (target : U64)
  /-- `[eip + disp]`, with the address it comes to. -/
  | eipRelative (target : Word)
  | general (size : AddressSize) (base : Option (Fin 16)) (index : Option IndexRegister)
      (scale : Nat) (displacement : U64)
  deriving Repr, DecidableEq

namespace MemoryOperand

/-- An address register of the address size. -/
def addressRegister : AddressSize → Fin 16 → Register
  | .bits32, n => .gpr32 n
  | .bits64, n => .gpr64 n

def base : MemoryOperand → Register
  | ripRelative _ => .rip
  | eipRelative _ => .eip
  | general size (some n) _ _ _ => addressRegister size n
  | general _ none _ _ _ => .none

def index : MemoryOperand → Register
  | general size _ (some (.gpr n)) _ _ => addressRegister size n
  | general _ _ (some (.vector code)) _ _ => .other code
  | _ => .none

def indexScale : MemoryOperand → Nat
  | general _ _ _ scale _ => scale
  | _ => 1

def displacement64 : MemoryOperand → U64
  | ripRelative target => target
  | eipRelative target => target.setWidth 64
  | general _ _ _ _ displacement => displacement

/-- `is_ip_rel_memory_operand`. -/
def isIpRel (m : MemoryOperand) : Bool := m.base = .rip ∨ m.base = .eip

end MemoryOperand

/-- `base + index * 2 ^ scaleLog2 + disp`, as the projections hand it out. -/
structure MemAddr where
  base : Option (Fin 16)
  index : Option (Fin 16)
  scaleLog2 : Nat
  disp : Word
  deriving Repr, DecidableEq

/-- An address register, or none. -/
def foldRegister : Register → Option (Option (Fin 16))
  | .none => some none
  | r => r.gpr64Index.map some

def foldScale : Nat → Option Nat
  | 1 => some 0
  | 2 => some 1
  | 4 => some 2
  | 8 => some 3
  | _ => none

/-- The fold of a memory operand, written out three times in the source. -/
def foldAddress (m : MemoryOperand) : Option MemAddr := do
  guard (m.base ≠ .rip ∧ m.base ≠ .eip)
  let base ← foldRegister m.base
  let index ← foldRegister m.index
  let scaleLog2 ← foldScale m.indexScale
  pure ⟨base, index, scaleLog2, m.displacement64.setWidth 32⟩

/-! ## §3. Instructions. -/

/-- The mnemonics that a projection of a memory operand names. -/
inductive Mnemonic where
  | mov | lea | add | sub | and | or | xor | cmp | test | xadd | cmpxchg | xchg
  | movaps | movups | movdqa | movdqu | movq | movd | movsd | movss
  | punpcklqdq | punpckldq | movhps | movhpd | movlps | movlpd
  | addsd | addss | subsd | subss | mulsd | mulss | divsd | divss
  | minsd | minss | maxsd | maxss | sqrtsd | sqrtss
  | comisd | ucomisd | comiss | ucomiss | cvtsi2sd | cvtsi2ss
  | movzx | movsx | movsxd | call | jmp | push | div | idiv
  | sete | setne | setb | setae | setbe | seta | sets | setns | setl | setge | setle | setg
  | cmove | cmovne | cmovb | cmovae | cmovbe | cmova
  | cmovs | cmovns | cmovl | cmovge | cmovle | cmovg
  | other
  deriving Repr, DecidableEq

inductive OpKind where
  | register | memory
  | immediate8 | immediate8to16 | immediate8to32 | immediate8to64
  | immediate16 | immediate32 | immediate32to64
  | other
  deriving Repr, DecidableEq

/-- What the decoder reports of an instruction. -/
structure Instruction where
  mnemonic : Mnemonic
  opCount : Nat
  op0Kind : OpKind
  op1Kind : OpKind
  op0Register : Register
  op1Register : Register
  /-- The immediate in operand 1. -/
  immediate1 : U64
  memory : MemoryOperand
  /-- The bytes of the memory operand. -/
  memorySize : Nat
  segmentPrefix : Register
  hasLockPrefix : Bool
  deriving Repr, DecidableEq

namespace Instruction

/-- The address of a memory operand without a segment prefix. -/
def memAddr (i : Instruction) : Option MemAddr := do
  guard (i.segmentPrefix = .none)
  foldAddress i.memory

/-- An address under an `fs:` or `gs:` prefix. -/
structure SegAddr where
  isGs : Bool
  addr : MemAddr
  deriving Repr, DecidableEq

def segmentIsGs : Register → Option Bool
  | .fs => some false
  | .gs => some true
  | _ => none

/-- The address of a memory operand with an `fs:` or `gs:` prefix. -/
def memAddrSeg (i : Instruction) : Option SegAddr := do
  let isGs ← segmentIsGs i.segmentPrefix
  let addr ← foldAddress i.memory
  pure ⟨isGs, addr⟩

/-- The target of an operand relative to the instruction pointer. -/
def ipTarget (i : Instruction) : Option U64 := do
  guard i.memory.isIpRel
  pure i.memory.displacement64

end Instruction

end Armv8Encode.X86

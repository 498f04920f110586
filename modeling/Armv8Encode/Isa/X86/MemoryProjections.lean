/-
  Armv8Encode.Isa.X86.MemoryProjections — the projections of a memory operand.

  A consumer that virtualises code asks the decoded instruction what it is, one
  method for each shape it can lower.  Fifty-one of the methods hand out a memory
  operand.  They test the mnemonic, the kinds of the operands and the class of
  the register, and then read the address one of three ways: without a segment,
  under `fs:` or `gs:`, or relative to the instruction pointer.

  The tests come in five shapes; each method is one of them with its own
  mnemonics, registers and sizes, under the name the source gives it.
-/
import Armv8Encode.Isa.X86.Reported

namespace Armv8Encode.X86

open Lib

namespace Instruction

/-! ## §1. The five shapes. -/

/-- What a projection reads when one operand is a register and one is memory. -/
structure RegAndMem (κ ρ α : Type) where
  kind : κ
  reg : ρ
  address : α
  /-- The memory operand comes first. -/
  memLeft : Bool

structure MemAndImm (κ α : Type) where
  kind : κ
  address : α
  imm : Word

structure MemOnly (κ α : Type) where
  kind : κ
  address : α

/-- An address with the size of what it points to. -/
structure Sized (σ α : Type) where
  size : σ
  addr : α

section Shapes

variable {κ ρ σ α : Type}

/-- `op reg, [mem]`. -/
def regMem (select : Mnemonic → Option κ) (reg : Register → Option ρ)
    (address : Instruction → Option α) (i : Instruction) : Option (RegAndMem κ ρ α) := do
  let kind ← select i.mnemonic
  guard (i.opCount = 2 ∧ i.op0Kind = .register ∧ i.op1Kind = .memory)
  let r ← reg i.op0Register
  let a ← address i
  pure ⟨kind, r, a, false⟩

/-- `op [mem], reg`. -/
def memReg (select : Mnemonic → Option κ) (reg : Register → Option ρ)
    (address : Instruction → Option α) (i : Instruction) : Option (RegAndMem κ ρ α) := do
  let kind ← select i.mnemonic
  guard (i.opCount = 2 ∧ i.op0Kind = .memory ∧ i.op1Kind = .register)
  let r ← reg i.op1Register
  let a ← address i
  pure ⟨kind, r, a, true⟩

/-- The register next to a memory operand, and whether the memory comes first. -/
def besideMemory (i : Instruction) : Option (Bool × Register) :=
  match i.op0Kind, i.op1Kind with
  | .memory, .register => some (true, i.op1Register)
  | .register, .memory => some (false, i.op0Register)
  | _, _ => none

/-- `op [mem], reg` or `op reg, [mem]`. -/
def eitherMem (select : Mnemonic → Option κ) (reg : Register → Option ρ)
    (address : Instruction → Option α) (i : Instruction) : Option (RegAndMem κ ρ α) := do
  let kind ← select i.mnemonic
  guard (i.opCount = 2)
  let side ← besideMemory i
  let r ← reg side.2
  let a ← address i
  pure ⟨kind, r, a, side.1⟩

/-- `op [mem], imm`, with an immediate of one of the given kinds. -/
def memImm (select : Mnemonic → Option κ) (immediates : List OpKind)
    (address : Instruction → Option α) (i : Instruction) : Option (MemAndImm κ α) := do
  let kind ← select i.mnemonic
  guard (i.opCount = 2 ∧ i.op0Kind = .memory ∧ i.op1Kind ∈ immediates)
  let a ← address i
  pure ⟨kind, a, i.immediate1.setWidth 32⟩

/-- `op [mem]`. -/
def memOnly (select : Mnemonic → Option κ) (address : Instruction → Option α)
    (i : Instruction) : Option (MemOnly κ α) := do
  let kind ← select i.mnemonic
  guard (i.opCount = 1 ∧ i.op0Kind = .memory)
  let a ← address i
  pure ⟨kind, a⟩

/-- An address whose operand has one of the given sizes. -/
def withSize (size : Nat → Option σ) (address : Instruction → Option α) (i : Instruction) :
    Option (Sized σ α) := do
  let s ← size i.memorySize
  let a ← address i
  pure ⟨s, a⟩

end Shapes

/-! ## §2. What the shapes are given. -/

def only (m : Mnemonic) (x : Mnemonic) : Option Unit := if x = m then some () else none

/-- `add`, `sub`, `and`, `or` and `xor`, numbered. -/
def arithKind : Mnemonic → Option Nat
  | .add => some 0
  | .sub => some 1
  | .and => some 2
  | .or => some 3
  | .xor => some 4
  | _ => none

/-- The 128-bit moves, aligned or not. -/
def bulkMove : Mnemonic → Option Unit
  | .movaps | .movups | .movdqa | .movdqu => some ()
  | _ => none

/-- The 8-byte (`true`) and 4-byte moves of an `xmm` register. -/
def qmovIsQ : Mnemonic → Option Bool
  | .movq | .movsd => some true
  | .movd | .movss => some false
  | _ => none

def punpckKind : Mnemonic → Option Nat
  | .punpcklqdq => some 0
  | .punpckldq => some 1
  | _ => none

/-- The moves of the high (`true`) or the low half of an `xmm` register. -/
def hlpsIsHigh : Mnemonic → Option Bool
  | .movhps | .movhpd => some true
  | .movlps | .movlpd => some false
  | _ => none

/-- Scalar arithmetic: the operation and whether it is on doubles. -/
def fpArithKind : Mnemonic → Option (Nat × Bool)
  | .addsd => some (0, true)
  | .addss => some (0, false)
  | .subsd => some (1, true)
  | .subss => some (1, false)
  | .mulsd => some (2, true)
  | .mulss => some (2, false)
  | .divsd => some (3, true)
  | .divss => some (3, false)
  | .minsd => some (4, true)
  | .minss => some (4, false)
  | .maxsd => some (5, true)
  | .maxss => some (5, false)
  | .sqrtsd => some (6, true)
  | .sqrtss => some (6, false)
  | _ => none

/-- Scalar compares: whether unordered and whether on doubles. -/
def fpCmpKind : Mnemonic → Option (Bool × Bool)
  | .comisd => some (false, true)
  | .ucomisd => some (true, true)
  | .comiss => some (false, false)
  | .ucomiss => some (true, false)
  | _ => none

def cvtIsDouble : Mnemonic → Option Bool
  | .cvtsi2sd => some true
  | .cvtsi2ss => some false
  | _ => none

def extSigned : Mnemonic → Option Bool
  | .movzx => some false
  | .movsx | .movsxd => some true
  | _ => none

def cmpIsTest : Mnemonic → Option Bool
  | .cmp => some false
  | .test => some true
  | _ => none

def divSigned : Mnemonic → Option Bool
  | .div => some false
  | .idiv => some true
  | _ => none

/-- The condition codes of `setcc`. -/
def setCode : Mnemonic → Option Nat
  | .sete => some 0x4
  | .setne => some 0x5
  | .setb => some 0x2
  | .setae => some 0x3
  | .setbe => some 0x6
  | .seta => some 0x7
  | .sets => some 0x8
  | .setns => some 0x9
  | .setl => some 0xc
  | .setge => some 0xd
  | .setle => some 0xe
  | .setg => some 0xf
  | _ => none

/-- The condition codes of `cmovcc`. -/
def cmovCode : Mnemonic → Option Nat
  | .cmove => some 0x4
  | .cmovne => some 0x5
  | .cmovb => some 0x2
  | .cmovae => some 0x3
  | .cmovbe => some 0x6
  | .cmova => some 0x7
  | .cmovs => some 0x8
  | .cmovns => some 0x9
  | .cmovl => some 0xc
  | .cmovge => some 0xd
  | .cmovle => some 0xe
  | .cmovg => some 0xf
  | _ => none

def sizeIs (n : Nat) (size : Nat) : Option Unit := if size = n then some () else none

/-- A size of 4 or 8 bytes. -/
def sizeIs64 : Nat → Option Bool
  | 4 => some false
  | 8 => some true
  | _ => none

/-- The size of what is extended. -/
def extSizeLog2 : Nat → Option Nat
  | 1 => some 0
  | 2 => some 1
  | 4 => some 2
  | _ => none

def anySizeLog2 : Nat → Option Nat
  | 1 => some 0
  | 2 => some 1
  | 4 => some 2
  | 8 => some 3
  | _ => none

/-- Every immediate but a full 64-bit one. -/
def immediateKinds : List OpKind :=
  [.immediate8, .immediate8to16, .immediate8to32, .immediate8to64, .immediate16,
    .immediate32, .immediate32to64]

/-- The immediates of an operation on 32 or 64 bits. -/
def wideImmediateKinds : List OpKind :=
  [.immediate8, .immediate8to32, .immediate8to64, .immediate32, .immediate32to64]

def locked (i : Instruction) : Option Unit := if i.hasLockPrefix then some () else none

def unlocked (i : Instruction) : Option Unit := if i.hasLockPrefix then none else some ()

/-- An address not relative to the instruction pointer, asked for before the fold. -/
def memAddrNotIp (i : Instruction) : Option MemAddr := do
  guard (!i.memory.isIpRel)
  i.memAddr

/-! ## §3. Plain addresses. -/

/-- `lea r32, [mem]`; a segment prefix changes nothing about `lea`. -/
def leaParts (i : Instruction) : Option (Fin 16 × MemAddr) :=
  (regMem (only .lea) Register.asGpr32 (fun i => foldAddress i.memory) i).map
    fun h => (h.reg, h.address)

def loadParts (i : Instruction) : Option (Fin 16 × MemAddr) :=
  (regMem (only .mov) Register.asGpr32 memAddr i).map fun h => (h.reg, h.address)

def storeParts (i : Instruction) : Option (MemAddr × Fin 16) :=
  (memReg (only .mov) Register.asGpr32 memAddr i).map fun h => (h.address, h.reg)

def loadParts64 (i : Instruction) : Option (Fin 16 × MemAddr) :=
  (regMem (only .mov) Register.asGpr64 memAddr i).map fun h => (h.reg, h.address)

def storeParts64 (i : Instruction) : Option (MemAddr × Fin 16) :=
  (memReg (only .mov) Register.asGpr64 memAddr i).map fun h => (h.address, h.reg)

def leaParts64 (i : Instruction) : Option (Fin 16 × MemAddr) :=
  (regMem (only .lea) Register.asGpr64 memAddr i).map fun h => (h.reg, h.address)

def arithRm (i : Instruction) : Option (Nat × Bool × Fin 16 × MemAddr) :=
  (regMem arithKind Register.wide memAddr i).map
    fun h => (h.kind, h.reg.is64, h.reg.index, h.address)

/-- The shape of an arithmetic operation on memory with a register. -/
def arithMem (prefixed : Instruction → Option Unit) (i : Instruction) :
    Option (Nat × Bool × MemAddr × Fin 16) := do
  prefixed i
  (memReg arithKind Register.wide memAddr i).map
    fun h => (h.kind, h.reg.is64, h.address, h.reg.index)

def atomicArithReg : Instruction → Option (Nat × Bool × MemAddr × Fin 16) := arithMem locked

def arithMrReg : Instruction → Option (Nat × Bool × MemAddr × Fin 16) := arithMem unlocked

/-- The shape of an arithmetic operation on memory with an immediate. -/
def arithMemImm (prefixed : Instruction → Option Unit) (immediates : List OpKind)
    (i : Instruction) : Option (Nat × Bool × MemAddr × Word) := do
  prefixed i
  (memImm arithKind immediates (withSize sizeIs64 memAddr) i).map
    fun h => (h.kind, h.address.size, h.address.addr, h.imm)

def atomicArithImm : Instruction → Option (Nat × Bool × MemAddr × Word) :=
  arithMemImm locked immediateKinds

def arithMrImm : Instruction → Option (Nat × Bool × MemAddr × Word) :=
  arithMemImm unlocked wideImmediateKinds

/-- An exchange of memory and a register: the width, the address, the register. -/
def exchange (m : Mnemonic) (i : Instruction) : Option (Bool × MemAddr × Fin 16) :=
  (memReg (only m) Register.wide memAddr i).map fun h => (h.reg.is64, h.address, h.reg.index)

def xaddMem : Instruction → Option (Bool × MemAddr × Fin 16) := exchange .xadd

def cmpxchgMem : Instruction → Option (Bool × MemAddr × Fin 16) := exchange .cmpxchg

/-- `xchg` is the one that takes its operands in either order. -/
def xchgMem (i : Instruction) : Option (Bool × MemAddr × Fin 16) :=
  (eitherMem (only .xchg) Register.wide memAddr i).map
    fun h => (h.reg.is64, h.address, h.reg.index)

def sseLoad (i : Instruction) : Option (Fin 16 × MemAddr) :=
  (regMem bulkMove Register.xmmIndex memAddr i).map fun h => (h.reg, h.address)

def sseStore (i : Instruction) : Option (MemAddr × Fin 16) :=
  (memReg bulkMove Register.xmmIndex memAddr i).map fun h => (h.address, h.reg)

/-- A move between memory and part of an `xmm` register: which part, whether
into the register, the register and the address. -/
def sseMove (select : Mnemonic → Option Bool) (i : Instruction) :
    Option (Bool × Bool × Fin 16 × MemAddr) :=
  (eitherMem select Register.xmmIndex memAddr i).map fun h => (h.kind, !h.memLeft, h.reg, h.address)

def sseQmovMem : Instruction → Option (Bool × Bool × Fin 16 × MemAddr) := sseMove qmovIsQ

def sseHlps : Instruction → Option (Bool × Bool × Fin 16 × MemAddr) := sseMove hlpsIsHigh

def ssePunpckRm (i : Instruction) : Option (Nat × Fin 16 × MemAddr) :=
  (regMem punpckKind Register.xmmIndex memAddr i).map fun h => (h.kind, h.reg, h.address)

def sseFpArithRm (i : Instruction) : Option (Nat × Bool × Fin 16 × MemAddr) :=
  (regMem fpArithKind Register.xmmIndex memAddr i).map
    fun h => (h.kind.1, h.kind.2, h.reg, h.address)

def sseFpCmpRm (i : Instruction) : Option (Bool × Bool × Fin 16 × MemAddr) :=
  (regMem fpCmpKind Register.xmmIndex memAddr i).map
    fun h => (h.kind.1, h.kind.2, h.reg, h.address)

def sseCvtI2fMem (i : Instruction) : Option (Bool × Bool × Fin 16 × MemAddr) :=
  (regMem cvtIsDouble Register.xmmIndex (withSize sizeIs64 memAddr) i).map
    fun h => (h.kind, h.address.size, h.reg, h.address.addr)

def load8 (i : Instruction) : Option (Fin 16 × MemAddr) :=
  (regMem (only .mov) Register.lowGpr8 (withSize (sizeIs 1) memAddr) i).map
    fun h => (h.reg, h.address.addr)

def store8 (i : Instruction) : Option (MemAddr × Fin 16) :=
  (memReg (only .mov) Register.lowGpr8 (withSize (sizeIs 1) memAddr) i).map
    fun h => (h.address.addr, h.reg)

def load16 (i : Instruction) : Option (Fin 16 × MemAddr) :=
  (regMem (only .mov) Register.asGpr16 (withSize (sizeIs 2) memAddr) i).map
    fun h => (h.reg, h.address.addr)

def store16 (i : Instruction) : Option (MemAddr × Fin 16) :=
  (memReg (only .mov) Register.asGpr16 (withSize (sizeIs 2) memAddr) i).map
    fun h => (h.address.addr, h.reg)

def extRm (i : Instruction) : Option (Bool × Nat × Bool × Fin 16 × MemAddr) :=
  (regMem extSigned Register.wide (withSize extSizeLog2 memAddr) i).map
    fun h => (h.kind, h.address.size, h.reg.is64, h.reg.index, h.address.addr)

def storeImmMem (i : Instruction) : Option (Nat × MemAddr × Word) :=
  (memImm (only .mov) immediateKinds (withSize anySizeLog2 memAddr) i).map
    fun h => (h.address.size, h.address.addr, h.imm)

def cmpMemReg (i : Instruction) : Option (Bool × Nat × Bool × MemAddr × Fin 16) :=
  (eitherMem cmpIsTest Register.sized memAddr i).map
    fun h => (h.kind, h.reg.sizeLog2, h.memLeft, h.address, h.reg.index)

def callMem (i : Instruction) : Option MemAddr :=
  (memOnly (only .call) memAddrNotIp i).map fun h => h.address

/-- A memory operand with an index is a jump table, not a tail call. -/
def tailJmpMem (i : Instruction) : Option (Option (Fin 16) × Nat × Word) := do
  let h ← memOnly (only .jmp) memAddrNotIp i
  guard h.address.index.isNone
  pure (h.address.base, h.address.scaleLog2, h.address.disp)

def setccMem (i : Instruction) : Option (Nat × MemAddr) :=
  (memOnly setCode memAddr i).map fun h => (h.kind, h.address)

def divMem (i : Instruction) : Option (Bool × Bool × MemAddr) :=
  (memOnly divSigned (withSize sizeIs64 memAddr) i).map
    fun h => (h.kind, h.address.size, h.address.addr)

def pushMem (i : Instruction) : Option MemAddr :=
  (memOnly (only .push) memAddr i).map fun h => h.address

def cmovMem (i : Instruction) : Option (Nat × Bool × Fin 16 × MemAddr) :=
  (regMem cmovCode Register.wide memAddr i).map
    fun h => (h.kind, h.reg.is64, h.reg.index, h.address)

def cmpMemImm (i : Instruction) : Option (Bool × Nat × MemAddr × Word) :=
  (memImm cmpIsTest immediateKinds (withSize anySizeLog2 memAddr) i).map
    fun h => (h.kind, h.address.size, h.address.addr, h.imm)

/-! ## §4. Addresses under a segment. -/

def segLoad (i : Instruction) : Option (Bool × Bool × Fin 16 × MemAddr) :=
  (regMem (only .mov) Register.wide memAddrSeg i).map
    fun h => (h.address.isGs, h.reg.is64, h.reg.index, h.address.addr)

def segArith (i : Instruction) : Option (Nat × Bool × Bool × Fin 16 × MemAddr) :=
  (regMem arithKind Register.wide memAddrSeg i).map
    fun h => (h.kind, h.address.isGs, h.reg.is64, h.reg.index, h.address.addr)

/-! ## §5. Targets relative to the instruction pointer. -/

def sseLoadRip (i : Instruction) : Option (Fin 16 × U64) :=
  (regMem bulkMove Register.xmmIndex ipTarget i).map fun h => (h.reg, h.address)

def sseQmovRip (i : Instruction) : Option (Bool × Bool × Fin 16 × U64) :=
  (eitherMem qmovIsQ Register.xmmIndex ipTarget i).map
    fun h => (h.kind, !h.memLeft, h.reg, h.address)

def sseFpArithRip (i : Instruction) : Option (Nat × Bool × Fin 16 × U64) :=
  (regMem fpArithKind Register.xmmIndex ipTarget i).map
    fun h => (h.kind.1, h.kind.2, h.reg, h.address)

def sseFpCmpRip (i : Instruction) : Option (Bool × Bool × Fin 16 × U64) :=
  (regMem fpCmpKind Register.xmmIndex ipTarget i).map
    fun h => (h.kind.1, h.kind.2, h.reg, h.address)

def extRip (i : Instruction) : Option (Bool × Nat × Bool × Fin 16 × U64) :=
  (regMem extSigned Register.wide (withSize extSizeLog2 ipTarget) i).map
    fun h => (h.kind, h.address.size, h.reg.is64, h.reg.index, h.address.addr)

def ripStoreImm (i : Instruction) : Option (Bool × U64 × Word) :=
  (memImm (only .mov) [.immediate32, .immediate32to64, .immediate8]
    (withSize sizeIs64 ipTarget) i).map
    fun h => (h.address.size, h.address.addr, h.imm)

def ripLea (i : Instruction) : Option (Fin 16 × U64) :=
  (regMem (only .lea) Register.asGpr64 ipTarget i).map fun h => (h.reg, h.address)

def ripLoad (i : Instruction) : Option (Fin 16 × U64 × Bool) :=
  (regMem (only .mov) Register.wide ipTarget i).map
    fun h => (h.reg.index, h.address, h.reg.is64)

def ripStore (i : Instruction) : Option (U64 × Fin 16 × Bool) :=
  (memReg (only .mov) Register.wide ipTarget i).map
    fun h => (h.address, h.reg.index, h.reg.is64)

def ripCmpReg (i : Instruction) : Option (Bool × Bool × Bool × U64 × Fin 16) :=
  (eitherMem cmpIsTest Register.wide ipTarget i).map
    fun h => (h.kind, h.reg.is64, h.memLeft, h.address, h.reg.index)

def ripCmpImm (i : Instruction) : Option (Bool × Bool × U64 × Word) :=
  (memImm cmpIsTest immediateKinds (withSize sizeIs64 ipTarget) i).map
    fun h => (h.kind, h.address.size, h.address.addr, h.imm)

def callRip (i : Instruction) : Option U64 :=
  (memOnly (only .call) ipTarget i).map fun h => h.address

def tailJmpRip (i : Instruction) : Option U64 :=
  (memOnly (only .jmp) ipTarget i).map fun h => h.address

/-! ## §6. What a shape has read. -/

section Shapes

variable {κ ρ σ α : Type} {select : Mnemonic → Option κ} {reg : Register → Option ρ}
  {address : Instruction → Option α} {i : Instruction}

theorem regMem_eq_some {t : RegAndMem κ ρ α} (h : regMem select reg address i = some t) :
    select i.mnemonic = some t.kind ∧ reg i.op0Register = some t.reg ∧
      address i = some t.address := by
  simp only [regMem, Option.bind_eq_bind, Option.bind_eq_some_iff, Option.pure_def,
    Option.some.injEq] at h
  obtain ⟨kind, hkind, -, -, r, hr, a, ha, rfl⟩ := h
  exact ⟨hkind, hr, ha⟩

theorem memReg_eq_some {t : RegAndMem κ ρ α} (h : memReg select reg address i = some t) :
    select i.mnemonic = some t.kind ∧ address i = some t.address := by
  simp only [memReg, Option.bind_eq_bind, Option.bind_eq_some_iff, Option.pure_def,
    Option.some.injEq] at h
  obtain ⟨kind, hkind, -, -, r, -, a, ha, rfl⟩ := h
  exact ⟨hkind, ha⟩

theorem eitherMem_eq_some {t : RegAndMem κ ρ α} (h : eitherMem select reg address i = some t) :
    select i.mnemonic = some t.kind ∧ address i = some t.address := by
  simp only [eitherMem, Option.bind_eq_bind, Option.bind_eq_some_iff, Option.pure_def,
    Option.some.injEq] at h
  obtain ⟨kind, hkind, -, -, side, -, r, -, a, ha, rfl⟩ := h
  exact ⟨hkind, ha⟩

theorem memImm_eq_some {immediates : List OpKind} {t : MemAndImm κ α}
    (h : memImm select immediates address i = some t) :
    select i.mnemonic = some t.kind ∧ address i = some t.address := by
  simp only [memImm, Option.bind_eq_bind, Option.bind_eq_some_iff, Option.pure_def,
    Option.some.injEq] at h
  obtain ⟨kind, hkind, -, -, a, ha, rfl⟩ := h
  exact ⟨hkind, ha⟩

theorem memOnly_eq_some {t : MemOnly κ α} (h : memOnly select address i = some t) :
    select i.mnemonic = some t.kind ∧ address i = some t.address := by
  simp only [memOnly, Option.bind_eq_bind, Option.bind_eq_some_iff, Option.pure_def,
    Option.some.injEq] at h
  obtain ⟨kind, hkind, -, -, a, ha, rfl⟩ := h
  exact ⟨hkind, ha⟩

theorem withSize_eq_some {size : Nat → Option σ} {t : Sized σ α}
    (h : withSize size address i = some t) : address i = some t.addr := by
  simp only [withSize, Option.bind_eq_bind, Option.bind_eq_some_iff, Option.pure_def,
    Option.some.injEq] at h
  obtain ⟨s, -, a, ha, rfl⟩ := h
  exact ha

end Shapes

end Instruction

end Armv8Encode.X86

/-
  Armv8Encode.Isa.X86.TrueAddress — when a projected address is the true one.

  What a projection hands out is an expression over 64-bit registers with a
  32-bit displacement, or a target.  The instruction's own effective address is
  cut to its address size, and a segment base is added to it when the operand is
  accessed.  The two meet when the address size is 64 bits and the displacement
  is the sign extension of its low half; a target needs no segment override.

  Main results:
    * `foldAddress_eq_some` — what the fold keeps of an operand.
    * `fold_true_iff` — when the folded expression is the effective address.
    * `holds_iff_describable` — every projection, every instruction.
-/
import Armv8Encode.Isa.X86.MemoryProjections
import Mathlib.Tactic.IntervalCases

namespace Armv8Encode.X86

open Lib

/-! ## §1. Addresses. -/

/-- The registers an address depends on. -/
structure RegState where
  gpr : Fin 16 → U64
  fsBase : U64
  gsBase : U64

/-- An absent register counts for nothing. -/
def RegState.read (s : RegState) : Option (Fin 16) → U64
  | some n => s.gpr n
  | none => 0

def RegState.readIndex (s : RegState) : Option IndexRegister → U64
  | some (.gpr n) => s.gpr n
  -- a vector has an address for each lane; no projection takes one
  | some (.vector _) | none => 0

/-- The effective address: the sum, cut to the address size. -/
def MemoryOperand.effective (s : RegState) : MemoryOperand → U64
  | ripRelative target => target
  | eipRelative target => target.setWidth 64
  | general .bits64 base index scale disp =>
    s.read base + s.readIndex index * BitVec.ofNat 64 scale + disp
  | general .bits32 base index scale disp =>
    ((s.read base + s.readIndex index * BitVec.ofNat 64 scale + disp).setWidth 32).setWidth 64

/-- `base + index * 2 ^ scaleLog2` and the sign-extended displacement. -/
def MemAddr.value (a : MemAddr) (s : RegState) : U64 :=
  s.read a.base + s.read a.index * BitVec.ofNat 64 (2 ^ a.scaleLog2) + a.disp.signExtend 64

/-- What a projection says about the memory operand. -/
inductive Description where
  | plain (a : MemAddr)
  | segment (isGs : Bool) (a : MemAddr)
  | target (address : U64)
  deriving Repr, DecidableEq

/-- The address that a description stands for. -/
def Description.address (s : RegState) : Description → U64
  | plain a => a.value s
  | segment isGs a => (if isGs then s.gsBase else s.fsBase) + a.value s
  | target address => address

/-- The segment base that an access through the memory operand adds. -/
def Instruction.segmentBase (i : Instruction) (s : RegState) : U64 :=
  match i.segmentPrefix with
  | .fs => s.fsBase
  | .gs => s.gsBase
  | _ => 0

/-- The description is the address the instruction accesses in every register
state; for `lea`, which accesses nothing, the result at the destination's width. -/
def Description.Holds (d : Description) (i : Instruction) : Prop :=
  ∀ s : RegState,
    if i.mnemonic = .lea then
      (d.address s).setWidth i.op0Register.bits
        = (i.memory.effective s).setWidth i.op0Register.bits
    else d.address s = i.segmentBase s + i.memory.effective s

/-! ## §2. The projections, as descriptions. -/

inductive Projection where
  | leaParts | loadParts | storeParts | loadParts64 | storeParts64 | leaParts64
  | arithRm | atomicArithReg | atomicArithImm | xaddMem | cmpxchgMem | xchgMem
  | arithMrReg | arithMrImm | sseLoad | sseStore | sseQmovMem | ssePunpckRm | sseHlps
  | sseFpArithRm | sseFpCmpRm | sseCvtI2fMem | load8 | store8 | load16 | store16
  | extRm | storeImmMem | cmpMemReg | callMem | tailJmpMem | setccMem | divMem
  | pushMem | cmovMem | cmpMemImm
  | segLoad | segArith
  | sseLoadRip | sseQmovRip | sseFpArithRip | sseFpCmpRip | extRip | ripStoreImm
  | ripLea | ripLoad | ripStore | ripCmpReg | ripCmpImm | callRip | tailJmpRip
  deriving Repr, DecidableEq

/-- The part of what a projection returns that describes memory. -/
def Projection.describe (i : Instruction) : Projection → Option Description
  | leaParts => i.leaParts.map fun t => .plain t.2
  | loadParts => i.loadParts.map fun t => .plain t.2
  | storeParts => i.storeParts.map fun t => .plain t.1
  | loadParts64 => i.loadParts64.map fun t => .plain t.2
  | storeParts64 => i.storeParts64.map fun t => .plain t.1
  | leaParts64 => i.leaParts64.map fun t => .plain t.2
  | arithRm => i.arithRm.map fun t => .plain t.2.2.2
  | atomicArithReg => i.atomicArithReg.map fun t => .plain t.2.2.1
  | atomicArithImm => i.atomicArithImm.map fun t => .plain t.2.2.1
  | xaddMem => i.xaddMem.map fun t => .plain t.2.1
  | cmpxchgMem => i.cmpxchgMem.map fun t => .plain t.2.1
  | xchgMem => i.xchgMem.map fun t => .plain t.2.1
  | arithMrReg => i.arithMrReg.map fun t => .plain t.2.2.1
  | arithMrImm => i.arithMrImm.map fun t => .plain t.2.2.1
  | sseLoad => i.sseLoad.map fun t => .plain t.2
  | sseStore => i.sseStore.map fun t => .plain t.1
  | sseQmovMem => i.sseQmovMem.map fun t => .plain t.2.2.2
  | ssePunpckRm => i.ssePunpckRm.map fun t => .plain t.2.2
  | sseHlps => i.sseHlps.map fun t => .plain t.2.2.2
  | sseFpArithRm => i.sseFpArithRm.map fun t => .plain t.2.2.2
  | sseFpCmpRm => i.sseFpCmpRm.map fun t => .plain t.2.2.2
  | sseCvtI2fMem => i.sseCvtI2fMem.map fun t => .plain t.2.2.2
  | load8 => i.load8.map fun t => .plain t.2
  | store8 => i.store8.map fun t => .plain t.1
  | load16 => i.load16.map fun t => .plain t.2
  | store16 => i.store16.map fun t => .plain t.1
  | extRm => i.extRm.map fun t => .plain t.2.2.2.2
  | storeImmMem => i.storeImmMem.map fun t => .plain t.2.1
  | cmpMemReg => i.cmpMemReg.map fun t => .plain t.2.2.2.1
  | callMem => i.callMem.map fun a => .plain a
  | tailJmpMem => i.tailJmpMem.map fun t => .plain ⟨t.1, none, t.2.1, t.2.2⟩
  | setccMem => i.setccMem.map fun t => .plain t.2
  | divMem => i.divMem.map fun t => .plain t.2.2
  | pushMem => i.pushMem.map fun a => .plain a
  | cmovMem => i.cmovMem.map fun t => .plain t.2.2.2
  | cmpMemImm => i.cmpMemImm.map fun t => .plain t.2.2.1
  | segLoad => i.segLoad.map fun t => .segment t.1 t.2.2.2
  | segArith => i.segArith.map fun t => .segment t.2.1 t.2.2.2.2
  | sseLoadRip => i.sseLoadRip.map fun t => .target t.2
  | sseQmovRip => i.sseQmovRip.map fun t => .target t.2.2.2
  | sseFpArithRip => i.sseFpArithRip.map fun t => .target t.2.2.2
  | sseFpCmpRip => i.sseFpCmpRip.map fun t => .target t.2.2.2
  | extRip => i.extRip.map fun t => .target t.2.2.2.2
  | ripStoreImm => i.ripStoreImm.map fun t => .target t.2.1
  | ripLea => i.ripLea.map fun t => .target t.2
  | ripLoad => i.ripLoad.map fun t => .target t.2.1
  | ripStore => i.ripStore.map fun t => .target t.1
  | ripCmpReg => i.ripCmpReg.map fun t => .target t.2.2.2.1
  | ripCmpImm => i.ripCmpImm.map fun t => .target t.2.2.1
  | callRip => i.callRip.map fun a => .target a
  | tailJmpRip => i.tailJmpRip.map fun a => .target a

/-! ## §3. When a description holds. -/

/-- The operand is the fold of itself: 64-bit addresses with a displacement that
its low half determines, or a 32-bit absolute address below `2 ^ 31`. -/
def MemoryOperand.Folds : MemoryOperand → Prop
  | general .bits64 _ _ _ disp => (disp.setWidth 32).signExtend 64 = disp
  | general .bits32 base index _ disp =>
    base = none ∧ index = none ∧ (disp.setWidth 32).msb = false
  | _ => True

def Instruction.OverridesSegment (i : Instruction) : Prop :=
  i.segmentPrefix = .fs ∨ i.segmentPrefix = .gs

/-- The instruction's memory operand can be described as the projections do. -/
def Instruction.Describable (i : Instruction) : Prop :=
  if i.mnemonic = .lea ∧ i.op0Register.bits = 32 then True
  else if i.memory.isIpRel then i.mnemonic = .lea ∨ ¬ i.OverridesSegment
  else i.memory.Folds

/-! ## §4. What the fold keeps. -/

theorem foldScale_eq_some {n k : Nat} (h : foldScale n = some k) : n = 2 ^ k ∧ k ≤ 3 := by
  unfold foldScale at h
  split at h <;> cases h <;> decide

theorem foldRegister_base {size : AddressSize} {base b : Option (Fin 16)}
    {index : Option IndexRegister} {scale : Nat} {disp : U64}
    (h : foldRegister (MemoryOperand.general size base index scale disp).base = some b) :
    base = b := by
  cases base with
  | none => simpa [MemoryOperand.base, foldRegister] using h
  | some n =>
    cases size <;>
      simpa [MemoryOperand.base, MemoryOperand.addressRegister, foldRegister,
        Register.gpr64Index] using h

theorem foldRegister_index {size : AddressSize} {base x : Option (Fin 16)}
    {index : Option IndexRegister} {scale : Nat} {disp : U64}
    (h : foldRegister (MemoryOperand.general size base index scale disp).index = some x) :
    index = x.map .gpr := by
  cases index with
  | none =>
    have hx : none = x := by simpa [MemoryOperand.index, foldRegister] using h
    rw [← hx, Option.map_none]
  | some r =>
    cases r with
    | gpr n =>
      have hx : some n = x := by
        cases size <;>
          simpa [MemoryOperand.index, MemoryOperand.addressRegister, foldRegister,
            Register.gpr64Index] using h
      rw [← hx, Option.map_some]
    | vector code => simp [MemoryOperand.index, foldRegister, Register.gpr64Index] at h

/-- The fold keeps the registers and the scale, and the low half of the
displacement; it forgets the address size. -/
theorem foldAddress_eq_some {m : MemoryOperand} {a : MemAddr} (h : foldAddress m = some a) :
    ∃ size disp, m = .general size a.base (a.index.map .gpr) (2 ^ a.scaleLog2) disp ∧
      a.disp = disp.setWidth 32 ∧ a.scaleLog2 ≤ 3 := by
  cases m with
  | ripRelative target => simp [foldAddress, MemoryOperand.base] at h
  | eipRelative target => simp [foldAddress, MemoryOperand.base] at h
  | general size base index scale disp =>
    simp only [foldAddress, Option.bind_eq_bind, Option.bind_eq_some_iff, Option.pure_def,
      Option.some.injEq] at h
    obtain ⟨-, -, b, hb, x, hx, k, hk, rfl⟩ := h
    obtain ⟨hscale, hle⟩ := foldScale_eq_some hk
    refine ⟨size, disp, ?_, rfl, hle⟩
    simp only [← foldRegister_base hb, ← foldRegister_index hx, ← hscale]
    rfl

/-! ## §5. When the folded expression is the effective address. -/

@[simp] theorem RegState.readIndex_map (s : RegState) (x : Option (Fin 16)) :
    s.readIndex (x.map .gpr) = s.read x := by
  cases x <;> rfl

/-- A state whose registers are all above the low 32 bits. -/
def RegState.high : RegState where
  gpr _ := BitVec.ofNat 64 (2 ^ 33)
  fsBase := 0
  gsBase := 0

/-- Registers above the low 32 bits show in the folded address. -/
theorem add_signExtend_ne {c : U64} (hlow : 2 ^ 33 ≤ c.toNat) (hhigh : c.toNat ≤ 2 ^ 40)
    (d : Word) : c + d.signExtend 64 ≠ d.setWidth 64 := by
  intro h
  have hn := congrArg BitVec.toNat h
  have hd : d.toNat < 2 ^ 32 := d.isLt
  rw [BitVec.toNat_add, BitVec.toNat_signExtend, BitVec.toNat_setWidth] at hn
  split at hn <;> omega

theorem RegState.high_sum {base index : Option (Fin 16)} {k : Nat} (hk : k ≤ 3)
    (h : ¬ (base = none ∧ index = none)) :
    let c := high.read base + high.read index * BitVec.ofNat 64 (2 ^ k)
    2 ^ 33 ≤ c.toNat ∧ c.toNat ≤ 2 ^ 40 ∧ c.setWidth 32 = 0 := by
  cases base <;> cases index
  case none.none => exact absurd ⟨rfl, rfl⟩ h
  all_goals
    simp only [RegState.read, RegState.high]
    interval_cases k <;> decide

/-- The folded expression is the effective address in every register state. -/
theorem fold_true_iff {m : MemoryOperand} {a : MemAddr} (h : foldAddress m = some a) :
    (∀ s, a.value s = m.effective s) ↔ m.Folds := by
  obtain ⟨size, disp, rfl, hdisp, hk⟩ := foldAddress_eq_some h
  cases size with
  | bits64 =>
    simp only [MemAddr.value, MemoryOperand.effective, RegState.readIndex_map, hdisp,
      MemoryOperand.Folds]
    constructor
    · intro hs
      exact add_left_cancel (hs .high)
    · intro hf s
      rw [hf]
  | bits32 =>
    simp only [MemAddr.value, MemoryOperand.effective, RegState.readIndex_map, hdisp,
      MemoryOperand.Folds, Option.map_eq_none_iff]
    constructor
    · intro hs
      have hregs : a.base = none ∧ a.index = none := by
        by_contra hne
        obtain ⟨hlow, hhigh, hcut⟩ := RegState.high_sum hk hne
        have hb := hs .high
        rw [BitVec.setWidth_add _ _ (by omega : 32 ≤ 64), hcut, zero_add] at hb
        exact add_signExtend_ne hlow hhigh _ hb
      refine ⟨hregs.1, hregs.2, ?_⟩
      have hb := hs .high
      simp only [hregs.1, hregs.2, RegState.read, zero_mul, zero_add] at hb
      by_contra hmsb
      have hn := congrArg BitVec.toNat hb
      rw [BitVec.toNat_signExtend, BitVec.toNat_setWidth] at hn
      simp only [Bool.not_eq_false] at hmsb
      rw [if_pos hmsb] at hn
      omega
    · rintro ⟨hbase, hindex, hmsb⟩ s
      simp only [hbase, hindex, RegState.read, zero_mul, zero_add]
      exact BitVec.signExtend_eq_setWidth_of_msb_false hmsb

theorem setWidth_signExtend (d : Word) : (d.signExtend 64).setWidth 32 = d := by
  apply BitVec.eq_of_toNat_eq
  have hd : d.toNat < 2 ^ 32 := d.isLt
  rw [BitVec.toNat_setWidth, BitVec.toNat_signExtend, BitVec.toNat_setWidth]
  split <;> omega

/-- The low half of the folded expression is always right. -/
theorem fold_low {m : MemoryOperand} {a : MemAddr} (h : foldAddress m = some a)
    (s : RegState) : (a.value s).setWidth 32 = (m.effective s).setWidth 32 := by
  obtain ⟨size, disp, rfl, hdisp, -⟩ := foldAddress_eq_some h
  have hlow : (a.disp.signExtend 64).setWidth 32 = disp.setWidth 32 := by
    rw [setWidth_signExtend, hdisp]
  cases size with
  | bits64 =>
    simp only [MemAddr.value, MemoryOperand.effective, RegState.readIndex_map]
    rw [BitVec.setWidth_add _ _ (by omega : 32 ≤ 64), hlow,
      ← BitVec.setWidth_add _ _ (by omega : 32 ≤ 64)]
  | bits32 =>
    simp only [MemAddr.value, MemoryOperand.effective, RegState.readIndex_map]
    rw [BitVec.setWidth_add _ _ (by omega : 32 ≤ 64), hlow,
      ← BitVec.setWidth_add _ _ (by omega : 32 ≤ 64),
      BitVec.setWidth_setWidth_of_le _ (by omega), BitVec.setWidth_eq]

/-! ## §6. Where a description comes from. -/

/-- What a projection has established about the instruction when it returns. -/
inductive Origin (i : Instruction) : Description → Prop where
  /-- `lea` into 32 bits; the prefix is not looked at. -/
  | lea32 {a : MemAddr} (hm : i.mnemonic = .lea) (hw : i.op0Register.bits = 32)
      (ha : foldAddress i.memory = some a) : Origin i (.plain a)
  | plain {a : MemAddr} (hm : i.mnemonic = .lea → i.op0Register.bits = 64)
      (hs : i.segmentPrefix = .none) (ha : foldAddress i.memory = some a) :
      Origin i (.plain a)
  | segment {isGs : Bool} {a : MemAddr} (hm : i.mnemonic ≠ .lea)
      (hs : Instruction.segmentIsGs i.segmentPrefix = some isGs)
      (ha : foldAddress i.memory = some a) : Origin i (.segment isGs a)
  | target (hm : i.mnemonic = .lea → i.op0Register.bits = 64) (hr : i.memory.isIpRel) :
      Origin i (.target i.memory.displacement64)

theorem Description.holds_of_lea {i : Instruction} (d : Description) (hl : i.mnemonic = .lea)
    (hw : i.op0Register.bits = 64) :
    d.Holds i ↔ ∀ s, d.address s = i.memory.effective s := by
  simp only [Holds, hl, if_true]
  rw [hw]
  simp only [BitVec.setWidth_eq]

theorem Description.holds_of_access {i : Instruction} (d : Description)
    (hl : i.mnemonic ≠ .lea) :
    d.Holds i ↔ ∀ s, d.address s = i.segmentBase s + i.memory.effective s := by
  simp only [Holds, hl, if_false]

theorem not_ipRel_of_fold {m : MemoryOperand} {a : MemAddr} (h : foldAddress m = some a) :
    m.isIpRel = false := by
  obtain ⟨size, disp, rfl, -, -⟩ := foldAddress_eq_some h
  cases size <;> cases a.base <;>
    simp [MemoryOperand.isIpRel, MemoryOperand.base, MemoryOperand.addressRegister]

/-- Away from a 32-bit `lea`, a folded operand is describable when it folds. -/
theorem describable_of_fold {i : Instruction} {a : MemAddr}
    (hm : i.mnemonic = .lea → i.op0Register.bits = 64)
    (ha : foldAddress i.memory = some a) : i.Describable ↔ i.memory.Folds := by
  have hne : ¬ (i.mnemonic = .lea ∧ i.op0Register.bits = 32) := fun h => by
    have := hm h.1
    omega
  simp only [Instruction.Describable, hne, not_ipRel_of_fold ha, if_false, Bool.false_eq_true]

theorem Instruction.segmentBase_of_isGs {i : Instruction} {isGs : Bool}
    (h : segmentIsGs i.segmentPrefix = some isGs) (s : RegState) :
    i.segmentBase s = if isGs then s.gsBase else s.fsBase := by
  unfold segmentIsGs at h
  unfold segmentBase
  split at h <;> cases h <;> simp_all

/-- The segment bases are added in no state exactly when nothing overrides. -/
theorem Instruction.segmentBase_eq_zero_iff (i : Instruction) :
    (∀ s, i.segmentBase s = 0) ↔ ¬ i.OverridesSegment := by
  constructor
  · rintro h (hfs | hgs)
    · have := h ⟨fun _ => 0, 1, 0⟩
      simp [segmentBase, hfs] at this
    · have := h ⟨fun _ => 0, 0, 1⟩
      simp [segmentBase, hgs] at this
  · intro h s
    unfold segmentBase
    split
    · exact absurd (Or.inl ‹_›) h
    · exact absurd (Or.inr ‹_›) h
    · rfl

theorem MemoryOperand.effective_ipRel {m : MemoryOperand} (h : m.isIpRel) (s : RegState) :
    m.effective s = m.displacement64 := by
  cases m with
  | ripRelative target => rfl
  | eipRelative target => rfl
  | general size base index scale disp =>
    cases size <;> cases base <;> simp [isIpRel, MemoryOperand.base, addressRegister] at h

theorem Origin.holds_iff {i : Instruction} {d : Description} (h : Origin i d) :
    d.Holds i ↔ i.Describable := by
  cases h with
  | lea32 hm hw ha =>
    simp only [Description.Holds, Instruction.Describable, hm, hw, if_true, and_self, iff_true]
    intro s
    rw [hw]
    exact fold_low ha s
  | @plain a hm hs ha =>
    rw [describable_of_fold hm ha, ← fold_true_iff ha]
    by_cases hl : i.mnemonic = .lea
    · exact Description.holds_of_lea _ hl (hm hl)
    · rw [Description.holds_of_access _ hl]
      simp only [Instruction.segmentBase, hs, zero_add]
      rfl
  | @segment isGs a hm hs ha =>
    rw [describable_of_fold (absurd · hm) ha, ← fold_true_iff ha,
      Description.holds_of_access _ hm]
    simp only [Description.address, Instruction.segmentBase_of_isGs hs, add_right_inj]
  | target hm hr =>
    by_cases hl : i.mnemonic = .lea
    · rw [Description.holds_of_lea _ hl (hm hl)]
      have hd : i.Describable := by
        simp only [Instruction.Describable, hr, hl, if_true, true_or, ite_self]
      exact iff_of_true (fun s => (MemoryOperand.effective_ipRel hr s).symm) hd
    · rw [Description.holds_of_access _ hl]
      simp only [Instruction.Describable, hl, hr, false_and, if_false, if_true, false_or,
        ← Instruction.segmentBase_eq_zero_iff, Description.address,
        MemoryOperand.effective_ipRel hr, right_eq_add]

/-! ## §7. Every projection. -/

/-- An address reader whose addresses come from the operand, once the mnemonic
is known not to be `lea`. -/
def Reads {α : Type} (address : Instruction → Option α) (view : α → Description) : Prop :=
  ∀ i a, i.mnemonic ≠ .lea → address i = some a → Origin i (view a)

theorem reads_memAddr : Reads Instruction.memAddr .plain := by
  intro i a hm h
  simp only [Instruction.memAddr, Option.bind_eq_bind, Option.bind_eq_some_iff,
    Option.guard_eq_some'] at h
  obtain ⟨-, hs, ha⟩ := h
  exact .plain (absurd · hm) hs ha

theorem reads_memAddrNotIp : Reads Instruction.memAddrNotIp .plain := by
  intro i a hm h
  simp only [Instruction.memAddrNotIp, Option.bind_eq_bind, Option.bind_eq_some_iff] at h
  obtain ⟨-, -, ha⟩ := h
  exact reads_memAddr i a hm ha

theorem reads_memAddrSeg :
    Reads Instruction.memAddrSeg fun g => .segment g.isGs g.addr := by
  intro i g hm h
  simp only [Instruction.memAddrSeg, Option.bind_eq_bind, Option.bind_eq_some_iff,
    Option.pure_def, Option.some.injEq] at h
  obtain ⟨isGs, hs, a, ha, rfl⟩ := h
  exact .segment hm hs ha

theorem ipTarget_eq_some {i : Instruction} {t : U64} (h : i.ipTarget = some t) :
    i.memory.isIpRel ∧ t = i.memory.displacement64 := by
  simp only [Instruction.ipTarget, Option.bind_eq_bind, Option.bind_eq_some_iff,
    Option.guard_eq_some', Option.pure_def, Option.some.injEq] at h
  obtain ⟨-, hr, ht⟩ := h
  exact ⟨hr, ht.symm⟩

theorem reads_ipTarget : Reads Instruction.ipTarget .target := by
  intro i t hm h
  obtain ⟨hr, rfl⟩ := ipTarget_eq_some h
  exact .target (absurd · hm) hr

section Reads

variable {κ ρ σ α : Type} {select : Mnemonic → Option κ} {reg : Register → Option ρ}
  {address : Instruction → Option α} {view : α → Description} {i : Instruction}

theorem Reads.withSize (hr : Reads address view) (size : Nat → Option σ) :
    Reads (Instruction.withSize size address) fun z => view z.addr :=
  fun i _ hm h => hr i _ hm (Instruction.withSize_eq_some h)

/-- A mnemonic that a projection selects is not `lea` when `lea` is not selected. -/
theorem ne_lea_of_select (hl : select .lea = none) {k : κ}
    (h : select i.mnemonic = some k) : i.mnemonic ≠ .lea := by
  intro hm
  rw [hm, hl] at h
  cases h

theorem Reads.regMem (hr : Reads address view) (hl : select .lea = none)
    {t : Instruction.RegAndMem κ ρ α} (h : Instruction.regMem select reg address i = some t) :
    Origin i (view t.address) := by
  obtain ⟨hk, -, ha⟩ := Instruction.regMem_eq_some h
  exact hr i _ (ne_lea_of_select hl hk) ha

theorem Reads.memReg (hr : Reads address view) (hl : select .lea = none)
    {t : Instruction.RegAndMem κ ρ α} (h : Instruction.memReg select reg address i = some t) :
    Origin i (view t.address) := by
  obtain ⟨hk, ha⟩ := Instruction.memReg_eq_some h
  exact hr i _ (ne_lea_of_select hl hk) ha

theorem Reads.eitherMem (hr : Reads address view) (hl : select .lea = none)
    {t : Instruction.RegAndMem κ ρ α}
    (h : Instruction.eitherMem select reg address i = some t) :
    Origin i (view t.address) := by
  obtain ⟨hk, ha⟩ := Instruction.eitherMem_eq_some h
  exact hr i _ (ne_lea_of_select hl hk) ha

theorem Reads.memImm {immediates : List OpKind} (hr : Reads address view)
    (hl : select .lea = none) {t : Instruction.MemAndImm κ α}
    (h : Instruction.memImm select immediates address i = some t) :
    Origin i (view t.address) := by
  obtain ⟨hk, ha⟩ := Instruction.memImm_eq_some h
  exact hr i _ (ne_lea_of_select hl hk) ha

theorem Reads.memOnly (hr : Reads address view) (hl : select .lea = none)
    {t : Instruction.MemOnly κ α} (h : Instruction.memOnly select address i = some t) :
    Origin i (view t.address) := by
  obtain ⟨hk, ha⟩ := Instruction.memOnly_eq_some h
  exact hr i _ (ne_lea_of_select hl hk) ha

end Reads

theorem Origin.of_map {η β : Type} {i : Instruction} {d : Description} {o : Option η}
    {f : η → β} {out : β → Description} (h : (o.map f).map out = some d)
    (ho : ∀ t, o = some t → Origin i (out (f t))) : Origin i d := by
  simp only [Option.map_eq_some_iff, exists_exists_and_eq_and] at h
  obtain ⟨t, ht, rfl⟩ := h
  exact ho t ht

theorem Origin.of_prefixed {η β : Type} {i : Instruction} {d : Description} {g : Option Unit}
    {o : Option η} {f : η → β} {out : β → Description}
    (h : (g >>= fun _ => o.map f).map out = some d)
    (ho : ∀ t, o = some t → Origin i (out (f t))) : Origin i d := by
  cases g with
  | none => cases h
  | some _ => exact .of_map h ho

theorem bits_of_asGpr32 {r : Register} {n : Fin 16} (h : r.asGpr32 = some n) : r.bits = 32 := by
  cases r <;> simp [Register.asGpr32, Register.ofWidth, Register.isGpr32] at h
  rfl

theorem bits_of_asGpr64 {r : Register} {n : Fin 16} (h : r.asGpr64 = some n) : r.bits = 64 := by
  cases r <;> simp [Register.asGpr64, Register.ofWidth, Register.isGpr64] at h
  rfl

theorem mnemonic_of_only {m x : Mnemonic} {u : Unit} (h : Instruction.only m x = some u) :
    x = m := by
  unfold Instruction.only at h
  split at h
  · assumption
  · cases h

/-- Whatever a projection returns about memory comes from the operand. -/
theorem Projection.origin {i : Instruction} {p : Projection} {d : Description}
    (h : p.describe i = some d) : Origin i d := by
  cases p with
  | leaParts =>
    refine .of_map h fun t ht => ?_
    obtain ⟨hk, hr, ha⟩ := Instruction.regMem_eq_some ht
    exact .lea32 (mnemonic_of_only hk) (bits_of_asGpr32 hr) ha
  | leaParts64 =>
    refine .of_map h fun t ht => ?_
    obtain ⟨-, hr, ha⟩ := Instruction.regMem_eq_some ht
    simp only [Instruction.memAddr, Option.bind_eq_bind, Option.bind_eq_some_iff,
      Option.guard_eq_some'] at ha
    obtain ⟨-, hs, ha⟩ := ha
    exact .plain (fun _ => bits_of_asGpr64 hr) hs ha
  | ripLea =>
    refine .of_map h fun t ht => ?_
    obtain ⟨-, hr, ha⟩ := Instruction.regMem_eq_some ht
    obtain ⟨hip, hta⟩ := ipTarget_eq_some ha
    show Origin i (.target t.address)
    rw [hta]
    exact .target (fun _ => bits_of_asGpr64 hr) hip
  | loadParts => exact .of_map h fun t ht => reads_memAddr.regMem rfl ht
  | storeParts => exact .of_map h fun t ht => reads_memAddr.memReg rfl ht
  | loadParts64 => exact .of_map h fun t ht => reads_memAddr.regMem rfl ht
  | storeParts64 => exact .of_map h fun t ht => reads_memAddr.memReg rfl ht
  | arithRm => exact .of_map h fun t ht => reads_memAddr.regMem rfl ht
  | atomicArithReg => exact .of_prefixed h fun t ht => reads_memAddr.memReg rfl ht
  | atomicArithImm =>
    exact .of_prefixed h fun t ht => (reads_memAddr.withSize _).memImm rfl ht
  | xaddMem => exact .of_map h fun t ht => reads_memAddr.memReg rfl ht
  | cmpxchgMem => exact .of_map h fun t ht => reads_memAddr.memReg rfl ht
  | xchgMem => exact .of_map h fun t ht => reads_memAddr.eitherMem rfl ht
  | arithMrReg => exact .of_prefixed h fun t ht => reads_memAddr.memReg rfl ht
  | arithMrImm => exact .of_prefixed h fun t ht => (reads_memAddr.withSize _).memImm rfl ht
  | sseLoad => exact .of_map h fun t ht => reads_memAddr.regMem rfl ht
  | sseStore => exact .of_map h fun t ht => reads_memAddr.memReg rfl ht
  | sseQmovMem => exact .of_map h fun t ht => reads_memAddr.eitherMem rfl ht
  | ssePunpckRm => exact .of_map h fun t ht => reads_memAddr.regMem rfl ht
  | sseHlps => exact .of_map h fun t ht => reads_memAddr.eitherMem rfl ht
  | sseFpArithRm => exact .of_map h fun t ht => reads_memAddr.regMem rfl ht
  | sseFpCmpRm => exact .of_map h fun t ht => reads_memAddr.regMem rfl ht
  | sseCvtI2fMem => exact .of_map h fun t ht => (reads_memAddr.withSize _).regMem rfl ht
  | load8 => exact .of_map h fun t ht => (reads_memAddr.withSize _).regMem rfl ht
  | store8 => exact .of_map h fun t ht => (reads_memAddr.withSize _).memReg rfl ht
  | load16 => exact .of_map h fun t ht => (reads_memAddr.withSize _).regMem rfl ht
  | store16 => exact .of_map h fun t ht => (reads_memAddr.withSize _).memReg rfl ht
  | extRm => exact .of_map h fun t ht => (reads_memAddr.withSize _).regMem rfl ht
  | storeImmMem => exact .of_map h fun t ht => (reads_memAddr.withSize _).memImm rfl ht
  | cmpMemReg => exact .of_map h fun t ht => reads_memAddr.eitherMem rfl ht
  | callMem => exact .of_map h fun t ht => reads_memAddrNotIp.memOnly rfl ht
  | tailJmpMem =>
    -- the index is dropped, and there is none
    simp only [describe, Instruction.tailJmpMem, Option.bind_eq_bind, Option.map_eq_some_iff,
      Option.bind_eq_some_iff, Option.guard_eq_some', Option.pure_def, Option.some.injEq] at h
    obtain ⟨_, ⟨t, ht, -, hnone, rfl⟩, rfl⟩ := h
    have ho := reads_memAddrNotIp.memOnly rfl ht
    rw [show t.address = ⟨t.address.base, none, t.address.scaleLog2, t.address.disp⟩ from by
      rw [← Option.isNone_iff_eq_none.mp hnone]] at ho
    exact ho
  | setccMem => exact .of_map h fun t ht => reads_memAddr.memOnly rfl ht
  | divMem => exact .of_map h fun t ht => (reads_memAddr.withSize _).memOnly rfl ht
  | pushMem => exact .of_map h fun t ht => reads_memAddr.memOnly rfl ht
  | cmovMem => exact .of_map h fun t ht => reads_memAddr.regMem rfl ht
  | cmpMemImm => exact .of_map h fun t ht => (reads_memAddr.withSize _).memImm rfl ht
  | segLoad => exact .of_map h fun t ht => reads_memAddrSeg.regMem rfl ht
  | segArith => exact .of_map h fun t ht => reads_memAddrSeg.regMem rfl ht
  | sseLoadRip => exact .of_map h fun t ht => reads_ipTarget.regMem rfl ht
  | sseQmovRip => exact .of_map h fun t ht => reads_ipTarget.eitherMem rfl ht
  | sseFpArithRip => exact .of_map h fun t ht => reads_ipTarget.regMem rfl ht
  | sseFpCmpRip => exact .of_map h fun t ht => reads_ipTarget.regMem rfl ht
  | extRip => exact .of_map h fun t ht => (reads_ipTarget.withSize _).regMem rfl ht
  | ripStoreImm => exact .of_map h fun t ht => (reads_ipTarget.withSize _).memImm rfl ht
  | ripLoad => exact .of_map h fun t ht => reads_ipTarget.regMem rfl ht
  | ripStore => exact .of_map h fun t ht => reads_ipTarget.memReg rfl ht
  | ripCmpReg => exact .of_map h fun t ht => reads_ipTarget.eitherMem rfl ht
  | ripCmpImm => exact .of_map h fun t ht => (reads_ipTarget.withSize _).memImm rfl ht
  | callRip => exact .of_map h fun t ht => reads_ipTarget.memOnly rfl ht
  | tailJmpRip => exact .of_map h fun t ht => reads_ipTarget.memOnly rfl ht

/-- A description is true in every register state exactly when the operand has
64-bit addresses with a displacement of 32 bits, or a target and no override;
a `lea` into 32 bits is always described. -/
theorem holds_iff_describable (p : Projection) (i : Instruction) (d : Description)
    (h : p.describe i = some d) : d.Holds i ↔ i.Describable :=
  (p.origin h).holds_iff

/-- `mov eax, [ecx]`, with the address-size prefix. -/
def loadThroughEcx : Instruction where
  mnemonic := .mov
  opCount := 2
  op0Kind := .register
  op1Kind := .memory
  op0Register := .gpr32 0
  op1Register := .none
  immediate1 := 0
  memory := .general .bits32 (some 1) none 1 0
  memorySize := 4
  segmentPrefix := .none
  hasLockPrefix := false

theorem load_through_ecx_described :
    Projection.loadParts.describe loadThroughEcx = some (.plain ⟨some 1, none, 0, 0⟩) := by
  decide

theorem load_through_ecx_iff :
    Description.Holds (.plain ⟨some 1, none, 0, 0⟩) loadThroughEcx ↔ loadThroughEcx.Describable :=
  holds_iff_describable .loadParts loadThroughEcx _ load_through_ecx_described

/-- The load through `ecx` is handed out as a load through `rcx`. -/
theorem load_through_ecx_misdescribed :
    ∃ d, Projection.loadParts.describe loadThroughEcx = some d ∧ ¬ d.Holds loadThroughEcx := by
  refine ⟨.plain ⟨some 1, none, 0, 0⟩, by decide, fun h => ?_⟩
  exact absurd (h .high) (by decide)

end Armv8Encode.X86

/-
  Armv8Encode.Isa.Aarch64.Retarget — an instruction encoded for another target.

  A moved or redirected PC-relative instruction is encoded from its decoded
  operands with the target replaced.  For the branches, `adr`, `adrp`, `ldrsw`,
  `prfm` and the 32-bit `ldr` that changes the displacement and nothing else:
  the slots before the target give back the word outside the displacement, and
  the slot of the target reads back.  A 64-bit or SIMD&FP literal load and an
  always-true `b.cond` never encode back, and no slot but that of `adrp`
  reaches across the end of the address space.
-/
import Armv8Encode.Isa.Aarch64.FlowSoundness
import Armv8Encode.Isa.Aarch64.SweepSpec
import Mathlib.Tactic.IntervalCases

namespace Armv8Encode.Aarch64

open Lib Aarch64Opcode

/-! ## §1. What retargeting is. -/

/-- The operand with its PC-relative target replaced. -/
def retargeted (target : U64) : DecodedOperand → DecodedOperand
  | .branchTarget _ => .branchTarget target
  | .pageTarget _ => .pageTarget target
  | o => o

/-- The operand shows a PC-relative target. -/
def showsTarget (target : U64) (o : DecodedOperand) : Prop :=
  o = .branchTarget target ∨ o = .pageTarget target

/-- The slot that holds the target of a PC-relative instruction. -/
def targetSlot : Aarch64Mnemonic → Aarch64Opnd
  | .b | .bl => .addrPcrel26
  | .tbz | .tbnz => .addrPcrel14
  | .adr => .addrPcrel21
  | .adrp => .addrAdrp
  | _ => .addrPcrel19

/-- The displacement field of a slot. -/
def displacementField : Aarch64Opnd → Word
  | .addrPcrel14 => fieldMask 32 5 14
  | .addrPcrel19 => fieldMask 32 5 19
  | .addrPcrel26 => fieldMask 32 0 26
  | .addrPcrel21 | .addrAdrp => 0x60ffffe0#32
  | _ => 0#32

/-- A whole number of words away, within a signed field of `len` bits. -/
def InWords (len : Nat) (distance : Int) : Prop :=
  distance % 4 = 0 ∧ -(2 ^ (len - 1)) * 4 ≤ distance ∧ distance < 2 ^ (len - 1) * 4

/-- The target is aligned for the slot and within its range from the address. -/
def InReach (slot : Aarch64Opnd) (address target : U64) : Prop :=
  match slot with
  | .addrPcrel14 => InWords 14 (displacement target address)
  | .addrPcrel19 => InWords 19 (displacement target address)
  | .addrPcrel26 => InWords 26 (displacement target address)
  | .addrPcrel21 =>
    -(2 ^ 20) ≤ displacement target address ∧ displacement target address < 2 ^ 20
  | .addrAdrp =>
    target &&& 0xfff#64 = 0#64 ∧
      -(2 ^ 32) ≤ displacement target (address &&& ~~~0xfff#64) ∧
      displacement target (address &&& ~~~0xfff#64) < 2 ^ 32
  | _ => False

/-- The target lies on the same side of the address as numbers of 64 bits. -/
def NoWrap (address target : U64) : Prop :=
  (target.toNat : Int) - address.toNat = displacement target address

instance (address target : U64) : Decidable (NoWrap address target) :=
  inferInstanceAs (Decidable (_ = _))

/-- The instruction encodes at an address for a new target, changes nothing
outside the displacement, and decodes there to an instruction that has it. -/
def Retargets (d : DecodedInstruction) (address target : U64) : Prop :=
  ∃ word, encodeInstruction ⟨address, d.mnemonic, d.operands.map (retargeted target)⟩ = .ok word ∧
    word &&& ~~~displacementField (targetSlot d.mnemonic)
      = d.word &&& ~~~displacementField (targetSlot d.mnemonic) ∧
    ∃ d', decodeInstruction address word = .ok d' ∧ ∃ o ∈ d'.operands, showsTarget target o

/-! ## §2. The slot of the target. -/

/-- The operand a slot shows for a target. -/
def slotOperand (slot : Aarch64Opnd) (target : U64) : DecodedOperand :=
  if slot = .addrAdrp then .pageTarget target else .branchTarget target

/-- The bits a slot adds for a target: they stay in the displacement field,
and where that is empty the target reads back. -/
structure SlotHolds (slot : Aarch64Opnd) (address target : U64) (bits : Word) : Prop where
  encoded : ∀ base row, encodeOperand slot (slotOperand slot target) ⟨base, address, row⟩ = .ok bits
  inside : bits &&& ~~~displacementField slot = 0#32
  decoded : ∀ base row index, base &&& displacementField slot = 0#32 →
    decodeOperand slot (base ||| bits) address row index = .ok (slotOperand slot target)

theorem vacant_of_and {base : Word} {lo len : Nat} (h : base &&& fieldMask 32 lo len = 0#32)
    (hfit : lo + len ≤ 32) : Vacant base lo len := by
  apply BitVec.eq_of_getLsbD_eq
  intro i hi
  have hbit := congrArg (fun v => BitVec.getLsbD v (lo + i)) h
  simp only [BitVec.getLsbD_and, BitVec.getLsbD_zero, getLsbD_fieldMask (show len ≤ 32 by omega),
    show lo + i < 32 by omega, show lo ≤ lo + i by omega, show lo + i < lo + len by omega,
    decide_true, Bool.and_true] at hbit
  rw [BitVec.getLsbD_extractLsb', BitVec.getLsbD_zero, hbit, Bool.and_false]

theorem placeSignedAt_outside (v : Int) (lo len : Nat) :
    placeSignedAt v lo len &&& ~~~fieldMask 32 lo len = 0#32 := by
  have hsplit : placeSignedAt v lo len = BitVec.ofInt 32 v <<< lo &&& fieldMask 32 lo len := by
    rw [placeSignedAt, fieldMask, BitVec.shiftLeft_and_distrib]
  rw [hsplit, BitVec.and_assoc, BitVec.and_not_self]
  exact BitVec.and_zero

theorem encodePcrel_of_inWords (kind : Aarch64Opnd) {address target : U64} {len : Nat} (lo : Nat)
    (hreach : InWords len (displacement target address)) (hwrap : NoWrap address target) :
    ∃ imm : Int, encodePcrel kind (.branchTarget target) address len lo
        = .ok (placeSignedAt imm lo len) ∧
      -(2 ^ (len - 1)) ≤ imm ∧ imm < 2 ^ (len - 1) ∧
      (target.toNat : Int) - address.toNat = imm * 4 := by
  obtain ⟨hmod, hlow, hhigh⟩ := hreach
  rw [← hwrap] at hmod hlow hhigh
  refine ⟨((target.toNat : Int) - address.toNat) / 4, ?_, by omega, by omega, by omega⟩
  unfold encodePcrel
  simp only [hmod, ne_eq, not_true_eq_false, if_false]
  exact if_pos ⟨by omega, by omega⟩

/-- A slot of whole words holds every target in reach. -/
theorem slotHolds_words {slot : Aarch64Opnd} {address target : U64} {len lo : Nat}
    (hslot : slot ≠ .addrAdrp) (hfield : displacementField slot = fieldMask 32 lo len)
    (hencode : ∀ operand ctx, encodeOperand slot operand ctx
      = encodePcrel slot operand ctx.address len lo)
    (hdecode : ∀ w row index, decodeOperand slot w address row index
      = .ok (.branchTarget (branchTarget address (signedBitsOf w lo len * 4))))
    (hlen : 0 < len) (hfit : lo + len ≤ 32)
    (hreach : InWords len (displacement target address)) (hwrap : NoWrap address target) :
    ∃ bits, SlotHolds slot address target bits := by
  obtain ⟨imm, hbits, hlow, hhigh, hoffset⟩ :=
    encodePcrel_of_inWords slot lo hreach hwrap
  have hoperand : slotOperand slot target = .branchTarget target := if_neg hslot
  refine ⟨placeSignedAt imm lo len, ?_, ?_, ?_⟩
  · intro base row
    rw [hoperand, hencode]
    exact hbits
  · rw [hfield]
    exact placeSignedAt_outside imm lo len
  · intro base row index hbase
    rw [hfield] at hbase
    rw [hdecode, hoperand, signedBitsOf_placeSignedAt (vacant_of_and hbase hfit) hlen hfit hlow hhigh,
      branchTarget_of_offset hoffset]

/-! ### The split field of `adr` and `adrp`. -/

/-- The low two bits of a 21-bit value in bits 30:29, the others in 23:5. -/
def splitBits (x : Word) : Word :=
  (((x &&& 0x1fffff#32) &&& 0x3#32) <<< 29) ||| ((((x &&& 0x1fffff#32) >>> 2) &&& 0x7ffff#32) <<< 5)

theorem placeImm21_eq (v : Int) : placeImm21 v = splitBits (BitVec.ofInt 32 v) := rfl

theorem splitBits_outside (x : Word) : splitBits x &&& ~~~0x60ffffe0#32 = 0#32 := by
  have hhigh : (0x3#32 <<< 29) &&& ~~~0x60ffffe0#32 = 0#32 := by decide
  have hlow : (0x7ffff#32 <<< 5) &&& ~~~0x60ffffe0#32 = 0#32 := by decide
  rw [splitBits, BitVec.shiftLeft_and_distrib, BitVec.shiftLeft_and_distrib _ 0x7ffff#32,
    BitVec.and_or_distrib_right, BitVec.and_assoc, BitVec.and_assoc, hhigh, hlow, BitVec.and_zero,
    BitVec.and_zero, BitVec.or_zero]

/-- The two parts of the split field, joined. -/
theorem joinBits_splitBits {base x : Word} (h : base &&& 0x60ffffe0#32 = 0#32) :
    ((((field (base ||| splitBits x) 5 19) <<< 2) ||| field (base ||| splitBits x) 29 2).setWidth 21
      : BitVec 21) = x.setWidth 21 := by
  have hbase : base = base &&& ~~~0x60ffffe0#32 := by
    have hsplit : base &&& (0x60ffffe0#32 ||| ~~~0x60ffffe0#32) = base := BitVec.and_allOnes
    rw [BitVec.and_or_distrib_left, h, BitVec.zero_or] at hsplit
    exact hsplit.symm
  rw [hbase]
  apply BitVec.eq_of_getLsbD_eq
  intro i hi
  rw [BitVec.getLsbD_setWidth, BitVec.getLsbD_setWidth, BitVec.getLsbD_or, BitVec.getLsbD_shiftLeft,
    getLsbD_field _ (by omega), getLsbD_field _ (by omega), BitVec.getLsbD_or, BitVec.getLsbD_or]
  interval_cases i <;> simp [splitBits]

theorem imm21_placeImm21 {base : Word} {v : Int} (h : base &&& 0x60ffffe0#32 = 0#32)
    (hlow : -(2 ^ 20) ≤ v) (hhigh : v < 2 ^ 20) : imm21 (base ||| placeImm21 v) = v := by
  rw [imm21, placeImm21_eq, joinBits_splitBits h, setWidth_ofInt _ (by omega)]
  exact BitVec.toInt_ofInt_eq_self (by omega) hlow hhigh

theorem slotHolds_adr {address target : U64} (hreach : InReach .addrPcrel21 address target)
    (hwrap : NoWrap address target) : ∃ bits, SlotHolds .addrPcrel21 address target bits := by
  have hlow : -(2 ^ 20) ≤ (target.toNat : Int) - address.toNat := by
    rw [hwrap]
    exact hreach.1
  have hhigh : (target.toNat : Int) - address.toNat < 2 ^ 20 := by
    rw [hwrap]
    exact hreach.2
  refine ⟨placeImm21 ((target.toNat : Int) - address.toNat), ?_, ?_, ?_⟩
  · intro base row
    exact if_pos ⟨hlow, hhigh⟩
  · rw [placeImm21_eq]
    exact splitBits_outside _
  · intro base row index hbase
    have htarget : branchTarget address ((target.toNat : Int) - address.toNat) = target := by
      rw [hwrap, branchTarget, displacement, BitVec.ofInt_toInt, BitVec.add_comm,
        BitVec.sub_add_cancel]
    show Except.ok (DecodedOperand.branchTarget (branchTarget address (imm21 _))) = _
    rw [imm21_placeImm21 hbase hlow hhigh, htarget]
    rfl

theorem page_mod {x : U64} (h : x &&& 0xfff#64 = 0#64) : x.toNat % 4096 = 0 := by
  have hmod : x.toNat &&& 0xfff = x.toNat % 4096 := Nat.and_two_pow_sub_one_eq_mod x.toNat 12
  have hzero := congrArg BitVec.toNat h
  rw [BitVec.toNat_and] at hzero
  rw [← hmod]
  exact hzero

/-- Two pages are a whole number of pages apart. -/
theorem displacement_pages {a b : U64} (ha : a &&& 0xfff#64 = 0#64) (hb : b &&& 0xfff#64 = 0#64) :
    displacement a b / 4096 * 4096 = displacement a b := by
  have hamod := page_mod ha
  have hbmod := page_mod hb
  have hlt := (a - b).isLt
  have hsub : (a - b).toNat % 4096 = 0 := by
    rw [BitVec.toNat_sub]
    omega
  rw [displacement, BitVec.toInt_eq_toNat_cond]
  split <;> omega

theorem slotHolds_adrp {address target : U64} (hreach : InReach .addrAdrp address target) :
    ∃ bits, SlotHolds .addrAdrp address target bits := by
  obtain ⟨hpage, hlow, hhigh⟩ := hreach
  have hbase : (address &&& ~~~0xfff#64) &&& 0xfff#64 = 0#64 := by
    rw [BitVec.and_assoc]
    exact BitVec.and_zero
  have hwhole := displacement_pages hpage hbase
  refine ⟨placeImm21 (displacement target (address &&& ~~~0xfff#64) / 4096), ?_, ?_, ?_⟩
  · intro base row
    refine (if_neg (not_not.mpr hpage)).trans ?_
    have hrange : -(2 ^ 20) ≤ displacement target (address &&& ~~~0xfff#64) / 4096 ∧
        displacement target (address &&& ~~~0xfff#64) / 4096 < 2 ^ 20 := by omega
    exact if_pos hrange
  · rw [placeImm21_eq]
    exact splitBits_outside _
  · intro base row index hvacant
    have htarget : (address &&& ~~~0xfff#64)
        + BitVec.ofInt 64 (displacement target (address &&& ~~~0xfff#64)) = target := by
      rw [displacement, BitVec.ofInt_toInt, BitVec.add_comm, BitVec.sub_add_cancel]
    show Except.ok (DecodedOperand.pageTarget (adrpTarget address _)) = _
    rw [adrpTarget, imm21_placeImm21 hvacant (by omega) (by omega), hwhole, htarget]
    rfl

/-- **The slot of the target holds every target in reach**, `adrp` also across
the end of the address space. -/
theorem slotHolds {slot : Aarch64Opnd} {address target : U64} (hreach : InReach slot address target)
    (hwrap : slot = .addrAdrp ∨ NoWrap address target) :
    ∃ bits, SlotHolds slot address target bits := by
  cases slot
  case addrPcrel14 =>
    exact slotHolds_words (by decide) rfl (fun _ _ => rfl) (fun _ _ _ => rfl) (by decide) (by decide)
      hreach (hwrap.resolve_left (by decide))
  case addrPcrel19 =>
    exact slotHolds_words (by decide) rfl (fun _ _ => rfl) (fun _ _ _ => rfl) (by decide) (by decide)
      hreach (hwrap.resolve_left (by decide))
  case addrPcrel26 =>
    exact slotHolds_words (by decide) rfl (fun _ _ => rfl) (fun _ _ _ => rfl) (by decide) (by decide)
      hreach (hwrap.resolve_left (by decide))
  case addrPcrel21 => exact slotHolds_adr hreach (hwrap.resolve_left (by decide))
  case addrAdrp => exact slotHolds_adrp hreach
  all_goals exact hreach.elim

/-! ## §3. The slots before the target. -/

theorem placeAt_bitsOf (w : Word) (lo : Nat) {len : Nat} (hlen : len ≤ 32) :
    placeAt (bitsOf w lo len) lo = w &&& fieldMask 32 lo len := by
  rw [placeAt, bitsOf, BitVec.ofNat_toNat, BitVec.setWidth_eq, field_shiftLeft w hlen]

theorem bitsOf_lt (w : Word) (lo : Nat) {len : Nat} (hlen : len ≤ 32) : bitsOf w lo len < 2 ^ len := by
  rw [bitsOf_eq w hlen]
  exact BitVec.isLt _

theorem placeAt_set {w : Word} {i : Nat} (h : w.getLsbD i = true) :
    placeAt 1 i = w &&& fieldMask 32 i 1 := by
  rw [getLsbD_eq_bitsOf, decide_eq_true_eq] at h
  rw [← placeAt_bitsOf w i (by omega), h]

theorem zero_eq_clear {w : Word} {i : Nat} (h : w.getLsbD i = false) :
    0#32 = w &&& fieldMask 32 i 1 := by
  have hlt := bitsOf_lt w i (show 1 ≤ 32 by omega)
  rw [getLsbD_eq_bitsOf, decide_eq_false_iff_not] at h
  rw [← placeAt_bitsOf w i (by omega), show bitsOf w i 1 = 0 by omega, placeAt, BitVec.zero_shiftLeft]

theorem and_or_absorb (x y : Word) : x &&& (x ||| y) = x := by
  ext i hi
  simp only [BitVec.getElem_and, BitVec.getElem_or]
  cases x[i] <;> rfl

/-- A field outside the displacement is the same in words that agree there. -/
theorem bitsOf_outside {w w' d : Word} {lo len : Nat} (h : w' &&& ~~~d = w &&& ~~~d)
    (hfield : fieldMask 32 lo len &&& d = 0#32) (hfit : lo + len ≤ 32) :
    bitsOf w' lo len = bitsOf w lo len := by
  refine bitsOf_congr (by omega) (BitVec.eq_of_getLsbD_eq fun i hi => ?_)
  have hclear := congrArg (fun v => BitVec.getLsbD v (lo + i)) hfield
  have hsame := congrArg (fun v => BitVec.getLsbD v (lo + i)) h
  simp only [BitVec.getLsbD_and, BitVec.getLsbD_zero, getLsbD_fieldMask (show len ≤ 32 by omega),
    show lo + i < 32 by omega, show lo ≤ lo + i by omega, show lo + i < lo + len by omega,
    decide_true, Bool.true_and] at hclear
  simp only [BitVec.getLsbD_and, BitVec.getLsbD_not, show lo + i < 32 by omega, hclear, decide_true,
    Bool.not_false, Bool.and_true] at hsame
  rw [BitVec.getLsbD_extractLsb', BitVec.getLsbD_extractLsb', hsame]

theorem getLsbD_outside {w w' d : Word} {i : Nat} (h : w' &&& ~~~d = w &&& ~~~d)
    (hfield : fieldMask 32 i 1 &&& d = 0#32) (hfit : i < 32) : w'.getLsbD i = w.getLsbD i := by
  rw [getLsbD_eq_bitsOf, getLsbD_eq_bitsOf, bitsOf_outside h hfield (by omega)]

/-- The slots before the target keep the word: what they show is read outside
the displacement, and encoding it gives back the word outside the displacement. -/
structure KeepsWord (row : Aarch64Opcode) (slot : Aarch64Opnd) (w : Word)
    (kinds : List Aarch64Opnd) (operands : List DecodedOperand) : Prop where
  slots : row.operands = kinds ++ [slot]
  fixed : row.mask &&& ~~~displacementField slot = row.mask
  count : kinds.length = operands.length
  decoded : ∀ w' address, w' &&& ~~~displacementField slot = w &&& ~~~displacementField slot →
    decodeOperands w' address row 0 kinds = .ok operands
  encoded : ∀ address, encodeOperands row address row.opcode kinds operands
    = .ok (w &&& ~~~displacementField slot)
  kept : ∀ target, ∀ o ∈ operands, retargeted target o = o

section Shapes

variable {row : Aarch64Opcode} {slot : Aarch64Opnd} {w : Word}

/-- Nothing stands before the target, and all other bits are fixed. -/
theorem keepsWord_nil (hslots : row.operands = [slot])
    (hmask : row.mask = ~~~displacementField slot) (hw : w &&& row.mask = row.opcode) :
    KeepsWord row slot w [] [] where
  slots := hslots
  fixed := by rw [hmask, BitVec.and_self]
  count := rfl
  decoded _ _ _ := rfl
  encoded address := by
    show Except.ok row.opcode = _
    rw [← hmask, hw]
  kept _ o ho := by cases ho

/-- One slot stands before the target, and adds the bits that are not fixed. -/
theorem keepsWord_single {kind : Aarch64Opnd} {operand : DecodedOperand} (bits : Word)
    (hslots : row.operands = [kind, slot]) (hw : w &&& row.mask = row.opcode)
    (hcover : row.mask ||| bits = ~~~displacementField slot)
    (hread : ∀ w' address, w' &&& ~~~displacementField slot = w &&& ~~~displacementField slot →
      decodeOperand kind w' address row 0 = .ok operand)
    (hwrite : ∀ ctx, ctx.row = row → encodeOperand kind operand ctx = .ok (w &&& bits))
    (hkept : ∀ target, retargeted target operand = operand) :
    KeepsWord row slot w [kind] [operand] where
  slots := hslots
  fixed := by rw [← hcover, and_or_absorb]
  count := rfl
  decoded w' address h := by
    rw [decodeOperands, hread w' address h]
    rfl
  encoded address := by
    rw [encodeOperands, hwrite _ rfl]
    show Except.ok (row.opcode ||| (w &&& bits)) = _
    rw [← hw, ← BitVec.and_or_distrib_left, hcover]
  kept target o ho := by
    rw [List.mem_singleton.mp ho]
    exact hkept target

theorem registerOperand_of_lt {r : Register} (kind : Aarch64Opnd) (hindex : r.index < 2 ^ 5) :
    registerOperand kind (.register r) = .ok r := if_neg (by omega)

theorem encodeRtRegister_of_size {r : Register} {sizeBits : Word} (hindex : r.index < 2 ^ 5)
    (hsize : rtSizeBits row r.regClass = some sizeBits) :
    encodeRtRegister .rt (.register r) row = .ok (sizeBits ||| placeAt r.index 0) := by
  simp only [encodeRtRegister, registerOperand_of_lt _ hindex, bind, Except.bind, hsize]

/-- Compare branches and literal loads hold the width of the register in bit 31. -/
theorem rtSizeBits_wide (hclass : row.iclass = .compbranch ∨ row.iclass = .loadlit) :
    rtSizeBits row .w = some 0#32 ∧ rtSizeBits row .x = some (placeAt 1 31) := by
  unfold rtSizeBits
  rcases hclass with hclass | hclass <;> rw [hclass] <;> exact ⟨rfl, rfl⟩

theorem rtSizeBits_test (hclass : row.iclass = .testbranch) : rtSizeBits row .x = some 0#32 := by
  unfold rtSizeBits
  rw [hclass]
  rfl

/-- A general register and, in bit 31, its width. -/
theorem keepsWord_compare (hslots : row.operands = [.rt, .addrPcrel19])
    (hclass : row.iclass = .compbranch) (hname : row.name = "cbz" ∨ row.name = "cbnz")
    (hmask : row.mask = 0x7f000000#32) (hw : w &&& row.mask = row.opcode) :
    KeepsWord row .addrPcrel19 w [.rt] [.register (gpReg (bitsOf w 0 5) w)] := by
  have hindex : bitsOf w 0 5 < 2 ^ 5 := bitsOf_lt w 0 (by omega)
  refine keepsWord_single (fieldMask 32 31 1 ||| fieldMask 32 0 5) hslots hw ?_ ?_ ?_ ?_
  · rw [hmask]
    decide
  · intro w' address h
    show Except.ok (DecodedOperand.register (rtReg w' row)) = _
    rw [rtReg_compare hname, gpReg, gpReg, bitsOf_outside h (by decide) (by decide),
      getLsbD_outside h (by decide) (by decide)]
  · intro ctx hctx
    show encodeRtRegister .rt _ ctx.row = _
    rw [hctx, BitVec.and_or_distrib_left, ← placeAt_bitsOf w 0 (by omega)]
    by_cases hbit : w.getLsbD 31 = true
    · rw [← placeAt_set hbit, gpReg, if_pos hbit]
      exact encodeRtRegister_of_size hindex (rtSizeBits_wide (.inl hclass)).2
    · rw [← zero_eq_clear (Bool.eq_false_iff.mpr hbit), gpReg, if_neg hbit]
      exact encodeRtRegister_of_size hindex (rtSizeBits_wide (.inl hclass)).1
  · intro target
    rfl

/-- A register, always shown as 64-bit, and the number of a bit in two parts. -/
theorem keepsWord_test (hslots : row.operands = [.rt, .bitNum, .addrPcrel14])
    (hclass : row.iclass = .testbranch) (hname : row.name = "tbz" ∨ row.name = "tbnz")
    (hmask : row.mask = 0x7f000000#32) (hw : w &&& row.mask = row.opcode) :
    KeepsWord row .addrPcrel14 w [.rt, .bitNum]
      [.register (xReg (bitsOf w 0 5)), .immediate (bitsOf w 31 1 * 32 + bitsOf w 19 5)] where
  slots := hslots
  fixed := by
    rw [hmask]
    decide
  count := rfl
  decoded w' address h := by
    show Except.ok [DecodedOperand.register (rtReg w' row),
      .immediate (bitsOf w' 31 1 * 32 + bitsOf w' 19 5)] = _
    rw [rtReg_test hname, bitsOf_outside h (by decide) (by decide),
      bitsOf_outside h (by decide) (by decide), bitsOf_outside h (by decide) (by decide)]
  encoded address := by
    have hindex : bitsOf w 0 5 < 2 ^ 5 := bitsOf_lt w 0 (by omega)
    have hhigh : bitsOf w 31 1 < 2 ^ 1 := bitsOf_lt w 31 (by omega)
    have hlow : bitsOf w 19 5 < 2 ^ 5 := bitsOf_lt w 19 (by omega)
    have hregister := encodeRtRegister_of_size (r := xReg (bitsOf w 0 5)) hindex
      (rtSizeBits_test hclass)
    have hbit : encodeBitNum .bitNum (.immediate (bitsOf w 31 1 * 32 + bitsOf w 19 5))
        = .ok (placeAt (bitsOf w 31 1) 31 ||| placeAt (bitsOf w 19 5) 19) := by
      have hnum : ((bitsOf w 31 1 : Int) * 32 + bitsOf w 19 5).toNat
          = bitsOf w 31 1 * 32 + bitsOf w 19 5 := by omega
      have hdiv : (bitsOf w 31 1 * 32 + bitsOf w 19 5) / 32 = bitsOf w 31 1 := by omega
      have hmod : (bitsOf w 31 1 * 32 + bitsOf w 19 5) % 32 = bitsOf w 19 5 := by omega
      have hrange : (0 : Int) ≤ bitsOf w 31 1 * 32 + bitsOf w 19 5 ∧
          (bitsOf w 31 1 : Int) * 32 + bitsOf w 19 5 ≤ 63 := by omega
      simp only [encodeBitNum, immediateOperand, bind, Except.bind, hnum, hdiv, hmod]
      exact if_pos hrange
    have hfields : (row.mask ||| fieldMask 32 0 5) ||| (fieldMask 32 31 1 ||| fieldMask 32 19 5)
        = ~~~displacementField .addrPcrel14 := by
      rw [hmask]
      decide
    simp only [encodeOperands, encodeOperand, hregister, hbit, bind, Except.bind]
    rw [placeAt_bitsOf w 31 (by omega), placeAt_bitsOf w 19 (by omega), ← hfields,
      BitVec.and_or_distrib_left, BitVec.and_or_distrib_left, BitVec.and_or_distrib_left, hw,
      BitVec.zero_or]
    exact congrArg Except.ok (congrArg (fun v => row.opcode ||| v ||| _)
      (placeAt_bitsOf w 0 (by omega)))
  kept target o ho := by
    simp only [List.mem_cons, List.not_mem_nil, or_false] at ho
    rcases ho with rfl | rfl <;> rfl

/-- The destination of an address computation is a 64-bit register. -/
theorem keepsWord_address (hslots : row.operands = [.rd, slot])
    (hclass : row.iclass = .pcreladdr) (hname : row.name = "adr" ∨ row.name = "adrp")
    (hmask : row.mask = 0x9f000000#32) (hfield : displacementField slot = 0x60ffffe0#32)
    (hw : w &&& row.mask = row.opcode) :
    KeepsWord row slot w [.rd] [.register (xReg (bitsOf w 0 5))] := by
  refine keepsWord_single (fieldMask 32 0 5) hslots hw ?_ ?_ ?_ ?_
  · rw [hmask, hfield]
    decide
  · intro w' address h
    rw [hfield] at h
    show Except.ok (DecodedOperand.register (rdReg w' row)) = _
    rw [rdReg, if_pos hname, bitsOf_outside h (by decide) (by decide)]
  · intro ctx hctx
    have hindex : bitsOf w 0 5 < 2 ^ 5 := bitsOf_lt w 0 (by omega)
    have hregister := registerOperand_of_lt (r := xReg (bitsOf w 0 5)) .rd hindex
    show encodeRdRegister .rd _ ctx.row = _
    rw [hctx, ← placeAt_bitsOf w 0 (by omega), encodeRdRegister, hclass, if_neg (by simp),
      if_pos rfl, hregister]
    rfl
  · intro target
    rfl

end Shapes

/-! ### Literal loads. -/

/-- The literal load of a general register, its width in bit 30. -/
def generalLiteralRow : Aarch64Opcode :=
  ⟨"ldr", 0x18000000#32, 0xbf000000#32, .loadlit, [.rt, .addrPcrel19], 0⟩

/-- The literal load of a SIMD&FP register. -/
def simdLiteralRow : Aarch64Opcode :=
  ⟨"ldr", 0x1c000000#32, 0x3f000000#32, .loadlit, [.ft, .addrPcrel19], 0⟩

/-- The sign-extending literal load. -/
def signedLiteralRow : Aarch64Opcode :=
  ⟨"ldrsw", 0x98000000#32, 0xff000000#32, .loadlit, [.rt, .addrPcrel19], 0⟩

/-- The prefetch of a literal. -/
def prefetchLiteralRow : Aarch64Opcode :=
  ⟨"prfm", 0xd8000000#32, 0xff000000#32, .loadlit, [.prfop, .addrPcrel19], 0⟩

theorem bitsOf_known {w known value : Word} {lo len : Nat} (hw : w &&& known = value)
    (hfield : fieldMask 32 lo len &&& ~~~known = 0#32) (hfit : lo + len ≤ 32) :
    bitsOf w lo len = bitsOf value lo len := by
  refine bitsOf_outside (d := ~~~known) ?_ hfield hfit
  rw [BitVec.not_not, hw, ← hw, BitVec.and_assoc, BitVec.and_self]

/-- A 32-bit literal load has a 32-bit register. -/
theorem rtReg_literalWord {w : Word} (hw : w &&& 0xff000000#32 = 0x18000000#32) :
    rtReg w generalLiteralRow = wReg (bitsOf w 0 5) := by
  have hop : bitsOf w 26 6 = 6 := bitsOf_known hw (by decide) (by decide)
  have hsize : bitsOf w 30 2 = 0 := bitsOf_known hw (by decide) (by decide)
  simp [rtReg, isCasp, generalLiteralRow, hop, hsize]

/-- A 64-bit literal load has a 64-bit register. -/
theorem rtReg_literalDouble {w : Word} (hw : w &&& 0xff000000#32 = 0x58000000#32) :
    rtReg w generalLiteralRow = xReg (bitsOf w 0 5) := by
  have hop : bitsOf w 26 6 = 22 := bitsOf_known hw (by decide) (by decide)
  have hsize : bitsOf w 30 2 = 1 := bitsOf_known hw (by decide) (by decide)
  simp [rtReg, isCasp, generalLiteralRow, hop, hsize]

theorem rtReg_signedLiteral (w : Word) : rtReg w signedLiteralRow = xReg (bitsOf w 0 5) := by
  simp [rtReg, isCasp, signedLiteralRow]

theorem keepsWord_literalWord {w : Word} (hw : w &&& 0xff000000#32 = 0x18000000#32) :
    KeepsWord generalLiteralRow .addrPcrel19 w [.rt] [.register (wReg (bitsOf w 0 5))] := by
  have hindex : bitsOf w 0 5 < 2 ^ 5 := bitsOf_lt w 0 (by omega)
  have hclear : w &&& 0x40000000#32 = 0#32 := by
    rw [and_of_known hw (by decide)]
    rfl
  refine keepsWord_single (0x40000000#32 ||| fieldMask 32 0 5) rfl
    (and_of_known hw (by decide)) (by decide) ?_ ?_ ?_
  · intro w' address h
    have hw' : w' &&& 0xff000000#32 = 0x18000000#32 := by
      rw [and_of_known h (by decide), BitVec.and_assoc, and_of_known hw (by decide)]
      rfl
    show Except.ok (DecodedOperand.register (rtReg w' generalLiteralRow)) = _
    rw [rtReg_literalWord hw', bitsOf_outside h (by decide) (by decide)]
  · intro ctx hctx
    show encodeRtRegister .rt _ ctx.row = _
    rw [hctx, BitVec.and_or_distrib_left, ← placeAt_bitsOf w 0 (by omega), hclear]
    exact encodeRtRegister_of_size hindex (rtSizeBits_wide (.inr rfl)).1
  · intro target
    rfl

theorem keepsWord_signedLiteral {w : Word} (hw : w &&& 0xff000000#32 = 0x98000000#32) :
    KeepsWord signedLiteralRow .addrPcrel19 w [.rt] [.register (xReg (bitsOf w 0 5))] := by
  have hindex : bitsOf w 0 5 < 2 ^ 5 := bitsOf_lt w 0 (by omega)
  have hset : w &&& fieldMask 32 31 1 = placeAt 1 31 := by
    rw [and_of_known hw (by decide)]
    rfl
  refine keepsWord_single (fieldMask 32 31 1 ||| fieldMask 32 0 5) rfl hw (by decide) ?_ ?_ ?_
  · intro w' address h
    show Except.ok (DecodedOperand.register (rtReg w' signedLiteralRow)) = _
    rw [rtReg_signedLiteral, bitsOf_outside h (by decide) (by decide)]
  · intro ctx hctx
    show encodeRtRegister .rt _ ctx.row = _
    rw [hctx, BitVec.and_or_distrib_left, ← placeAt_bitsOf w 0 (by omega), hset]
    exact encodeRtRegister_of_size hindex (rtSizeBits_wide (.inr rfl)).2
  · intro target
    rfl

/-- Every prefetch operation is read back from its text. -/
theorem prfopCode_prfop : ∀ code < 2 ^ 5, prfopCode (prfop code) = some code := by decide

theorem keepsWord_prefetchLiteral {w : Word} (hw : w &&& 0xff000000#32 = 0xd8000000#32) :
    KeepsWord prefetchLiteralRow .addrPcrel19 w [.prfop] [.system (prfop (bitsOf w 0 5))] := by
  refine keepsWord_single (fieldMask 32 0 5) rfl hw (by decide) ?_ ?_ ?_
  · intro w' address h
    show Except.ok (DecodedOperand.system (prfop (bitsOf w' 0 5))) = _
    rw [bitsOf_outside h (by decide) (by decide)]
  · intro ctx hctx
    have hcode := prfopCode_prfop (bitsOf w 0 5) (bitsOf_lt w 0 (by omega))
    show encodePrfop .prfop _ = _
    rw [← placeAt_bitsOf w 0 (by omega)]
    simp only [encodePrfop, systemOperand, bind, Except.bind, hcode]
  · intro target
    rfl

/-! ## §4. Encoding by the row that matched. -/

theorem encodeOperands_append {row : Aarch64Opcode} {address : U64} {slot : Aarch64Opnd}
    {operand : DecodedOperand} {kinds : List Aarch64Opnd} {operands : List DecodedOperand}
    {base word bits : Word} (hcount : kinds.length = operands.length)
    (hbefore : encodeOperands row address base kinds operands = .ok word)
    (hslot : encodeOperand slot operand ⟨word, address, row⟩ = .ok bits) :
    encodeOperands row address base (kinds ++ [slot]) (operands ++ [operand]) = .ok (word ||| bits) := by
  induction kinds generalizing base operands with
  | nil =>
    obtain rfl : operands = [] := List.length_eq_zero_iff.mp hcount.symm
    cases hbefore
    rw [List.nil_append, List.nil_append, encodeOperands, hslot]
    rfl
  | cons kind kinds ih =>
    obtain ⟨first, rest, rfl⟩ := List.exists_of_length_succ operands hcount.symm
    obtain ⟨firstBits, hfirst, hrest⟩ := bind_eq_ok.mp hbefore
    rw [List.cons_append, List.cons_append, encodeOperands, hfirst]
    exact ih (by simpa using hcount) hrest

theorem decodeOperands_append {w : Word} {address : U64} {row : Aarch64Opcode} {slot : Aarch64Opnd}
    {operand : DecodedOperand} {kinds : List Aarch64Opnd} {operands : List DecodedOperand}
    {index : Nat} (hbefore : decodeOperands w address row index kinds = .ok operands)
    (hslot : ∀ index, decodeOperand slot w address row index = .ok operand) :
    decodeOperands w address row index (kinds ++ [slot]) = .ok (operands ++ [operand]) := by
  induction kinds generalizing index operands with
  | nil =>
    cases hbefore
    simp only [List.nil_append, decodeOperands, hslot, bind, Except.bind]
    rfl
  | cons kind kinds ih =>
    obtain ⟨first, hfirst, hbefore⟩ := bind_eq_ok.mp hbefore
    obtain ⟨rest, hrest, hoperands⟩ := bind_eq_ok.mp hbefore
    cases hoperands
    simp only [List.cons_append, decodeOperands, hfirst, ih hrest, bind, Except.bind]
    rfl

/-- A row is the one a mnemonic encodes to: words with its fixed bits match it,
it has the mnemonic's name, and the alias bits are none. -/
structure OwnRow (m : Aarch64Mnemonic) (row : Aarch64Opcode) : Prop where
  matched : ∀ w, w &&& row.mask = row.opcode → matchOpcode w = some row
  parsed : Aarch64Mnemonic.parse row.name = m
  within : row.opcode &&& row.mask = row.opcode
  plain : ∀ operands, aliasImplicitBits m operands = .ok 0#32

/-- The candidates before a row turn the operands down, by their number or by a slot. -/
def TurnsDown (t : InstructionTemplate) (row : Aarch64Opcode) : Prop :=
  row.operands.length ≠ t.operands.length ∨
    ∃ kind, encodeOperands row t.address row.opcode row.operands t.operands
      = .error (.invalidOperand kind)

theorem tryCandidates_skip {t : InstructionTemplate} {earlier : List Aarch64Opcode}
    (rows : List Aarch64Opcode) (h : ∀ r ∈ earlier, TurnsDown t r) (lastError : Option EncodeError) :
    ∃ lastError', tryCandidates t lastError (earlier ++ rows) = tryCandidates t lastError' rows := by
  induction earlier generalizing lastError with
  | nil => exact ⟨lastError, rfl⟩
  | cons r earlier ih =>
    have hrest := fun r hr => h r (List.mem_cons_of_mem _ hr)
    rcases h r List.mem_cons_self with hlen | ⟨kind, hrefused⟩
    · obtain ⟨lastError', hskip⟩ := ih hrest lastError
      refine ⟨lastError', ?_⟩
      rw [List.cons_append, tryCandidates, if_pos hlen, hskip]
    · by_cases hlen : r.operands.length = t.operands.length
      · obtain ⟨lastError', hskip⟩ := ih hrest (some (.invalidOperand kind))
        refine ⟨lastError', ?_⟩
        rw [List.cons_append, tryCandidates, if_neg (not_not.mpr hlen), hrefused]
        exact hskip
      · obtain ⟨lastError', hskip⟩ := ih hrest lastError
        refine ⟨lastError', ?_⟩
        rw [List.cons_append, tryCandidates, if_pos hlen, hskip]

theorem encodeInstruction_of_own {t : InstructionTemplate} {row : Aarch64Opcode} {word : Word}
    {earlier later : List Aarch64Opcode} (hown : OwnRow t.mnemonic row)
    (hrows : opcodesForMnemonic t.mnemonic = earlier ++ row :: later)
    (hearlier : ∀ r ∈ earlier, TurnsDown t r)
    (hcount : row.operands.length = t.operands.length)
    (hencode : encodeOperands row t.address row.opcode row.operands t.operands = .ok word)
    (hword : word &&& row.mask = row.opcode) : encodeInstruction t = .ok word := by
  have hsome : (earlier ++ row :: later).isEmpty = false := by simp
  obtain ⟨lastError, hskip⟩ := tryCandidates_skip (row :: later) hearlier none
  have hmask : row.maskMatches word = true := by
    rw [maskMatches, beq_iff_eq, hword, hown.within]
  simp only [encodeInstruction, hrows, hsome, Bool.false_eq_true, if_false, hskip, tryCandidates,
    hcount, ne_eq, not_true_eq_false, hencode, hown.plain, BitVec.or_zero, hmask, if_true]

/-- **A row whose slots keep the word retargets it**: the new word differs in
the displacement only, and decodes to the same instruction for the new target. -/
theorem retarget_of_keepsWord {m : Aarch64Mnemonic} {row : Aarch64Opcode} {slot : Aarch64Opnd}
    {w bits : Word} {kinds : List Aarch64Opnd} {operands : List DecodedOperand} {address target : U64}
    {earlier later : List Aarch64Opcode} (hkeeps : KeepsWord row slot w kinds operands)
    (hown : OwnRow m row) (hw : w &&& row.mask = row.opcode)
    (hrows : opcodesForMnemonic m = earlier ++ row :: later)
    (hearlier : ∀ r ∈ earlier, TurnsDown ⟨address, m, operands ++ [slotOperand slot target]⟩ r)
    (hholds : SlotHolds slot address target bits) :
    ∃ word, encodeInstruction ⟨address, m, operands ++ [slotOperand slot target]⟩ = .ok word ∧
      word &&& ~~~displacementField slot = w &&& ~~~displacementField slot ∧
      decodeInstruction address word
        = .ok ⟨address, word, m, operands ++ [slotOperand slot target]⟩ := by
  have houtside : (w &&& ~~~displacementField slot ||| bits) &&& ~~~displacementField slot
      = w &&& ~~~displacementField slot := by
    rw [BitVec.and_or_distrib_right, hholds.inside, BitVec.and_assoc, BitVec.and_self,
      BitVec.or_zero]
  have hvacant : (w &&& ~~~displacementField slot) &&& displacementField slot = 0#32 := by
    rw [BitVec.and_assoc, BitVec.and_comm (~~~displacementField slot), BitVec.and_not_self]
    exact BitVec.and_zero
  have hfixed : (w &&& ~~~displacementField slot ||| bits) &&& row.mask = row.opcode := by
    rw [and_of_known houtside (by rw [hkeeps.fixed]), BitVec.and_assoc, BitVec.and_comm _ row.mask,
      hkeeps.fixed, hw]
  refine ⟨w &&& ~~~displacementField slot ||| bits, ?_, houtside, ?_⟩
  · refine encodeInstruction_of_own hown hrows hearlier ?_ ?_ hfixed
    · simp [hkeeps.slots, hkeeps.count]
    · rw [hkeeps.slots]
      exact encodeOperands_append hkeeps.count (hkeeps.encoded address) (hholds.encoded _ row)
  · unfold decodeInstruction
    simp only [hown.matched _ hfixed, hkeeps.slots, hown.parsed]
    rw [decodeOperands_append (hkeeps.decoded _ address houtside)
      (fun index => hholds.decoded _ row index hvacant)]
    rfl

/-! ## §5. The rows of the table. -/

def adrRow : Aarch64Opcode := ⟨"adr", 0x10000000#32, 0x9f000000#32, .pcreladdr, [.rd, .addrPcrel21], 0⟩

def adrpRow : Aarch64Opcode := ⟨"adrp", 0x90000000#32, 0x9f000000#32, .pcreladdr, [.rd, .addrAdrp], 0⟩

theorem ownRow_family {m : Aarch64Mnemonic} {row : Aarch64Opcode} (h : branchRow m = some row) :
    OwnRow m row where
  matched _ hw := matchOpcode_branch h hw
  parsed := parse_branchRow h
  within := branchRow_within h
  plain := aliasImplicitBits_branch h

/-- The rows besides the branches that encode back, under their mnemonics. -/
def addressRows : List (Aarch64Mnemonic × Aarch64Opcode) :=
  [(.adr, adrRow), (.adrp, adrpRow), (.ldr, generalLiteralRow), (.other "ldrsw", signedLiteralRow),
    (.other "prfm", prefetchLiteralRow)]

set_option maxRecDepth 20000 in
theorem addressRows_decide :
    ∀ entry ∈ addressRows, decides entry.2.mask entry.2.opcode entry.2 = true := by
  decide

theorem ownRow_address {m : Aarch64Mnemonic} {row : Aarch64Opcode} (h : (m, row) ∈ addressRows) :
    OwnRow m row := by
  have hfacts : ∀ entry ∈ addressRows, Aarch64Mnemonic.parse entry.2.name = entry.1 ∧
      entry.2.opcode &&& entry.2.mask = entry.2.opcode ∧ entry.1 ≠ .cinc ∧
      ["sxtb", "sxth", "uxtb", "uxth"].contains entry.1.tableName = false := by decide
  obtain ⟨hparse, hwithin, hcinc, hextend⟩ := hfacts _ h
  refine ⟨fun w hw => matchOpcode_of_decides (addressRows_decide _ h) hw, hparse, hwithin, ?_⟩
  intro operands
  rw [aliasImplicitBits, if_neg hcinc, hextend]
  rfl

/-- A row of a transfer register and a memory operand. -/
def isMemoryRow (row : Aarch64Opcode) : Bool :=
  match row.operands with
  | [first, second] =>
    [Aarch64Opnd.rt, .ft, .prfop].contains first &&
      [Aarch64Opnd.addrSimm9, .addrUimm12, .addrRegoff].contains second
  | _ => false

/-- The names of a mnemonic's rows in the table. -/
def rowNames : Aarch64Mnemonic → List String
  | .other name => [name]
  | m => m.spellings

/-- The rows of these names are memory rows up to the given one. -/
def memoryRowsBefore (rowNames : List String) (row : Aarch64Opcode) : Bool :=
  let rows := aarch64OpcodeTable.filter (fun row => rowNames.contains row.name)
  (rows.takeWhile (· != row)).all isMemoryRow && (rows.dropWhile (· != row)).head? == some row

set_option maxRecDepth 20000 in
theorem addressRows_found :
    ∀ entry ∈ addressRows, memoryRowsBefore (rowNames entry.1) entry.2 = true := by
  decide

theorem opcodesForMnemonic_address {m : Aarch64Mnemonic} {row : Aarch64Opcode}
    (h : (m, row) ∈ addressRows) :
    opcodesForMnemonic m = aarch64OpcodeTable.filter (fun row => (rowNames m).contains row.name) := by
  simp only [addressRows, List.mem_cons, Prod.mk.injEq, List.not_mem_nil, or_false] at h
  rcases h with ⟨rfl, -⟩ | ⟨rfl, -⟩ | ⟨rfl, -⟩ | ⟨rfl, -⟩ | ⟨rfl, -⟩
  · exact opcodesForMnemonic_eq (fun name => nofun)
  · exact opcodesForMnemonic_eq (fun name => nofun)
  · exact opcodesForMnemonic_eq (fun name => nofun)
  all_goals
    rw [opcodesForMnemonic_other (by decide)]
    simp only [rowNames, List.contains_cons, List.contains_nil, Bool.or_false]

theorem candidates_address {m : Aarch64Mnemonic} {row : Aarch64Opcode} (h : (m, row) ∈ addressRows) :
    ∃ earlier later, opcodesForMnemonic m = earlier ++ row :: later ∧
      ∀ r ∈ earlier, isMemoryRow r = true := by
  have hfound := addressRows_found _ h
  rw [memoryRowsBefore, ← opcodesForMnemonic_address h, Bool.and_eq_true, List.all_eq_true,
    beq_iff_eq] at hfound
  obtain ⟨later, hlater⟩ := List.head?_eq_some_iff.mp hfound.2
  refine ⟨_, later, ?_, hfound.1⟩
  rw [← hlater, List.takeWhile_append_dropWhile]

theorem registerOperand_error {kind : Aarch64Opnd} {o : DecodedOperand} {e : EncodeError}
    (h : registerOperand kind o = .error e) : e = .invalidOperand kind.name := by
  unfold registerOperand at h
  split at h
  · split at h <;> cases h
    rfl
  · cases h
    rfl

/-- A transfer slot that does not encode reports its kind. -/
theorem transferSlot_error {kind : Aarch64Opnd} {o : DecodedOperand} {ctx : EncodeContext}
    {e : EncodeError} (hkind : kind ∈ [Aarch64Opnd.rt, .ft, .prfop])
    (h : encodeOperand kind o ctx = .error e) : e = .invalidOperand kind.name := by
  simp only [List.mem_cons, List.not_mem_nil, or_false] at hkind
  rcases hkind with rfl | rfl | rfl
  · change encodeRtRegister .rt o ctx.row = _ at h
    cases hregister : registerOperand .rt o with
    | error e' =>
      rw [encodeRtRegister, hregister] at h
      cases h
      exact registerOperand_error hregister
    | ok r =>
      simp only [encodeRtRegister, hregister, bind, Except.bind] at h
      split at h <;> cases h
      rfl
  · change encodeFtRegister .ft o ctx.row 0 = _ at h
    cases hregister : registerOperand .ft o with
    | error e' =>
      rw [encodeFtRegister, hregister] at h
      cases h
      exact registerOperand_error hregister
    | ok r =>
      simp only [encodeFtRegister, encodeFpRegister, hregister, bind, Except.bind] at h
      repeat' split at h
      all_goals
        cases h
        try rfl
  · change encodePrfop .prfop o = _ at h
    unfold encodePrfop systemOperand at h
    cases o
    case system text =>
      simp only [bind, Except.bind] at h
      split at h <;> cases h
      rfl
    all_goals
      cases h
      rfl

/-- A memory row turns down a target. -/
theorem turnsDown_memory {r : Aarch64Opcode} (h : isMemoryRow r = true) (address : U64)
    (m : Aarch64Mnemonic) (o : DecodedOperand) (slot : Aarch64Opnd) (target : U64) :
    TurnsDown ⟨address, m, [o, slotOperand slot target]⟩ r := by
  right
  unfold isMemoryRow at h
  split at h
  · next first second hoperands =>
    rw [Bool.and_eq_true, List.contains_iff_mem, List.contains_iff_mem] at h
    have hsecond : ∀ ctx, ∃ kind, encodeOperand second (slotOperand slot target) ctx
        = .error (.invalidOperand kind) := by
      intro ctx
      have hmemory := h.2
      simp only [List.mem_cons, List.not_mem_nil, or_false] at hmemory
      unfold slotOperand
      split <;> rcases hmemory with rfl | rfl | rfl <;> exact ⟨_, rfl⟩
    have hfirst : ∀ ctx, (∃ bits, encodeOperand first o ctx = .ok bits) ∨
        ∃ kind, encodeOperand first o ctx = .error (.invalidOperand kind) := by
      intro ctx
      cases hencode : encodeOperand first o ctx with
      | ok bits => exact .inl ⟨bits, rfl⟩
      | error e => exact .inr ⟨first.name, by rw [transferSlot_error h.1 hencode]⟩
    show ∃ kind, encodeOperands r address r.opcode r.operands [o, slotOperand slot target] = _
    rw [hoperands]
    rcases hfirst ⟨r.opcode, address, r⟩ with ⟨bits, hbits⟩ | ⟨kind, hkind⟩
    · obtain ⟨kind, hkind⟩ := hsecond ⟨r.opcode ||| bits, address, r⟩
      refine ⟨kind, ?_⟩
      simp only [encodeOperands, hbits, hkind, bind, Except.bind]
    · refine ⟨kind, ?_⟩
      simp only [encodeOperands, hkind, bind, Except.bind]
  · cases h

end Armv8Encode.Aarch64

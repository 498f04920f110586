/-
  Armv8Encode.Isa.Aarch64.AddressCodec — what an encoded address pair decodes to.

  An address pair is an `adrp` and the `add`, load or store after it.  What is
  encoded decodes to the same instruction: an `adrp` to the same page
  (`decode_encodedAdrp`), an `add` of an offset within a page to the `add` or,
  at offset zero, to the `mov` of the same register (`decode_encodedAdd`), a
  load or store to the same transfer of the same register at the same offset
  (`decode_encodedTransfer`).  The last is not row by row: a SIMD&FP register
  also encodes in the rows of the general registers, which would lose it, and
  is kept only because its own rows come first.
-/
import Armv8Encode.Isa.Aarch64.RetargetSpec
import Armv8Encode.Lib.Lists

namespace Armv8Encode.Aarch64

open Lib Aarch64Opcode

/-! ## §1. The row that encodes. -/

/-- The word a row encodes the operands to, if it does. -/
def rowWord (t : InstructionTemplate) (row : Aarch64Opcode) : Option Word :=
  if row.operands.length ≠ t.operands.length then none
  else
    match encodeOperands row t.address row.opcode row.operands t.operands,
      aliasImplicitBits t.mnemonic t.operands with
    | .ok word, .ok bits => if row.maskMatches (word ||| bits) then some (word ||| bits) else none
    | _, _ => none

/-- The candidates are tried in order: the word is that of the first row that
encodes the operands. -/
theorem findSome_of_tryCandidates {t : InstructionTemplate} {w : Word} {rows : List Aarch64Opcode}
    {lastError : Option EncodeError} (h : tryCandidates t lastError rows = .ok w) :
    rows.findSome? (rowWord t) = some w := by
  induction rows generalizing lastError with
  | nil => cases h
  | cons row rows ih =>
    rw [List.findSome?_cons, rowWord]
    rw [tryCandidates] at h
    split at h
    · next hlen =>
      rw [if_pos hlen]
      exact ih h
    · next hlen =>
      rw [if_neg hlen]
      split at h
      · next hword =>
        rw [hword]
        exact ih h
      · next hword =>
        rw [hword]
        exact ih h
      · cases h
      · next word hword =>
        rw [hword]
        split at h
        · cases h
        · next bits hbits =>
          rw [hbits]
          split at h
          · next hmask =>
            simp only [if_pos hmask]
            exact congrArg some (Except.ok.inj h)
          · next hmask =>
            simp only [if_neg hmask]
            exact ih h

theorem findSome_of_encodeInstruction {t : InstructionTemplate} {w : Word}
    (h : encodeInstruction t = .ok w) : (opcodesForMnemonic t.mnemonic).findSome? (rowWord t) = some w := by
  unfold encodeInstruction at h
  simp only at h
  split at h
  · cases h
  · exact findSome_of_tryCandidates h

/-- What a row that encodes two operands without alias bits adds for each. -/
theorem rowWord_pair {address : U64} {m : Aarch64Mnemonic} {row : Aarch64Opcode}
    {first second : Aarch64Opnd} {o₁ o₂ : DecodedOperand} {w : Word}
    (hslots : row.operands = [first, second]) (hplain : aliasImplicitBits m [o₁, o₂] = .ok 0#32) :
    rowWord ⟨address, m, [o₁, o₂]⟩ row = some w ↔
      ∃ bits₁ bits₂, encodeOperand first o₁ ⟨row.opcode, address, row⟩ = .ok bits₁ ∧
        encodeOperand second o₂ ⟨row.opcode ||| bits₁, address, row⟩ = .ok bits₂ ∧
        w = row.opcode ||| bits₁ ||| bits₂ ∧ row.maskMatches w := by
  unfold rowWord
  rw [hslots, if_neg (by simp), hplain]
  cases hfirst : encodeOperand first o₁ ⟨row.opcode, address, row⟩ with
  | error e => simp [encodeOperands, hfirst, bind, Except.bind]
  | ok bits₁ =>
    cases hsecond : encodeOperand second o₂ ⟨row.opcode ||| bits₁, address, row⟩ with
    | error e => simp [encodeOperands, hfirst, hsecond, bind, Except.bind]
    | ok bits₂ =>
      simp only [encodeOperands, hfirst, hsecond, bind, Except.bind, BitVec.or_zero,
        Except.ok.injEq, Option.ite_none_right_eq_some, Option.some.injEq]
      constructor
      · intro h
        exact ⟨bits₁, bits₂, rfl, hsecond, h.2.symm, h.2 ▸ h.1⟩
      · intro h
        obtain ⟨b₁, b₂, hb₁, hb₂, hw, hmask⟩ := h
        subst hb₁
        rw [hsecond] at hb₂
        cases hb₂
        exact ⟨hw ▸ hmask, hw.symm⟩

/-! ## §2. Fields of an encoded word. -/

/-- A number within its field adds bits of that field only. -/
theorem placeAt_inside {n lo len : Nat} (hn : n < 2 ^ len) :
    placeAt n lo &&& fieldMask 32 lo len = placeAt n lo := by
  have hnum : BitVec.ofNat 32 n &&& BitVec.ofNat 32 (2 ^ len - 1) = BitVec.ofNat 32 n := by
    rw [← BitVec.ofNat_and, Nat.and_two_pow_sub_one_of_lt_two_pow hn]
  rw [placeAt, fieldMask, ← BitVec.shiftLeft_and_distrib, hnum]

theorem and_eq_zero_of_inside {x region known : Word} (hx : x &&& region = x)
    (h : region &&& known = 0#32) : x &&& known = 0#32 := by
  rw [← hx, BitVec.and_assoc, h, BitVec.and_zero]

theorem placeAt_clear {n lo len : Nat} {known : Word} (hn : n < 2 ^ len)
    (h : fieldMask 32 lo len &&& known = 0#32) : placeAt n lo &&& known = 0#32 :=
  and_eq_zero_of_inside (placeAt_inside hn) h

theorem placeSignedAt_clear {v : Int} {lo len : Nat} {known : Word}
    (h : fieldMask 32 lo len &&& known = 0#32) : placeSignedAt v lo len &&& known = 0#32 := by
  have hsplit : placeSignedAt v lo len = BitVec.ofInt 32 v <<< lo &&& fieldMask 32 lo len := by
    rw [placeSignedAt, fieldMask, BitVec.shiftLeft_and_distrib]
  rw [hsplit, BitVec.and_assoc, h, BitVec.and_zero]

/-- Bits added elsewhere leave the known ones. -/
theorem or_known {base x known : Word} (hx : x &&& known = 0#32) :
    (base ||| x) &&& known = base &&& known := by
  rw [BitVec.and_or_distrib_right, hx, BitVec.or_zero]

/-! ## §3. `adrp` and `add`. -/

set_option maxRecDepth 20000 in
theorem opcodesForMnemonic_adrp : opcodesForMnemonic .adrp = [adrpRow] := by
  rw [opcodesForMnemonic_eq (m := .adrp) (fun name => nofun)]
  decide

/-- An `adrp` that encodes holds a page in reach. -/
theorem inReach_of_encodeAdrp {kind : Aarch64Opnd} {address page : U64} {bits : Word}
    (h : encodeAdrp kind (.pageTarget page) address = .ok bits) : InReach .addrAdrp address page := by
  simp only [encodeAdrp] at h
  split at h
  · cases h
  · next hpage =>
    split at h
    · next hrange =>
      refine ⟨not_not.mp hpage, ?_, ?_⟩
      · unfold displacement
        omega
      · unfold displacement
        omega
    · cases h

/-- **An encoded `adrp` decodes to itself.** -/
theorem decode_encodedAdrp {address page : U64} {r : Register} {w : Word}
    (h : encodeInstruction ⟨address, .adrp, [.register r, .pageTarget page]⟩ = .ok w) :
    r.regClass = .x ∧
      decodeInstruction address w = .ok ⟨address, w, .adrp, [.register r, .pageTarget page]⟩ := by
  have hown : OwnRow .adrp adrpRow := ownRow_address (by decide)
  have hfind := findSome_of_encodeInstruction h
  rw [opcodesForMnemonic_adrp, List.findSome?_cons] at hfind
  cases hword : rowWord ⟨address, .adrp, [.register r, .pageTarget page]⟩ adrpRow with
  | none =>
    rw [hword] at hfind
    cases hfind
  | some w' =>
    obtain ⟨bits₁, bits₂, hregister, hpage, -, -⟩ :=
      (rowWord_pair rfl (hown.plain _)).mp hword
    have hreach : InReach .addrAdrp address page := inReach_of_encodeAdrp hpage
    obtain ⟨r', hr', hclass⟩ := bind_eq_ok.mp hregister
    obtain ⟨hr, hindex⟩ := registerOperand_ok hr'
    cases hr
    by_cases hx : r.regClass = .x
    · refine ⟨hx, ?_⟩
      -- the word of the register alone keeps it, so the page can be set
      have hlt : r.index < 2 ^ 5 := by omega
      have hvacant : Vacant adrpRow.opcode 0 5 := by
        unfold Vacant
        decide
      have hread : bitsOf (adrpRow.opcode ||| placeAt r.index 0) 0 5 = r.index :=
        bitsOf_placeAt hvacant hlt (by omega)
      have hfixed : (adrpRow.opcode ||| placeAt r.index 0) &&& adrpRow.mask = adrpRow.opcode :=
        or_known (placeAt_clear hlt (by decide))
      obtain ⟨bits, hholds⟩ := slotHolds hreach (.inl rfl)
      have hkeeps : KeepsWord adrpRow .addrAdrp _ _ _ :=
        keepsWord_address rfl rfl (.inr rfl) rfl rfl hfixed
      obtain ⟨word, hencode, -, hdecode⟩ := retarget_of_keepsWord hkeeps hown hfixed
        (show opcodesForMnemonic .adrp = [] ++ adrpRow :: [] from opcodesForMnemonic_adrp)
        (fun _ hr => nomatch hr) hholds
      have hxReg : xReg r.index = r := by
        obtain ⟨regClass, index⟩ := r
        cases hx
        rfl
      rw [hread, hxReg] at hencode hdecode
      have hsame : word = w := Except.ok.inj (hencode.symm.trans h)
      rw [← hsame]
      exact hdecode
    · simp only [if_neg hx] at hclass
      cases hclass

/-- The `add` of an immediate, and the `mov` it is shown as at offset zero. -/
def addImmediateRow : Aarch64Opcode :=
  ⟨"add", 0x11000000#32, 0x7f000000#32, .addsubImm, [.rdSp, .rnSp, .aimm], 0⟩

def moveRow : Aarch64Opcode :=
  ⟨"mov", 0x11000000#32, 0x7ffffc00#32, .addsubImm, [.rdSp, .rnSp], fAlias⟩

set_option maxRecDepth 20000 in
theorem addImmediate_compatible :
    aarch64OpcodeTable.filter (compatible 0xffc00000#32 0x91000000#32) = [addImmediateRow, moveRow] := by
  decide

/-- The last slots that take three operands of an `add`. -/
def addSlots : List (List Aarch64Opnd) :=
  [[.rdSp, .rnSp, .rmExt], [.rd, .rn, .rmSft], [.vd, .vn, .vm], [.sd, .sn, .sm]]

set_option maxRecDepth 20000 in
theorem addRows_found :
    (aarch64OpcodeTable.filter (fun row => (Aarch64Mnemonic.spellings .add).contains row.name)).all
      (fun row => row == addImmediateRow || addSlots.contains row.operands) = true := by
  decide

theorem encodeGpOrSp_wide {kind : Aarch64Opnd} {r : Register} {lo : Nat} {bits : Word}
    (hclass : r.regClass = .x) (h : encodeGpOrSpRegister kind (.register r) lo = .ok bits) :
    r.index < 31 ∧ bits = placeAt 1 31 ||| placeAt r.index lo := by
  obtain ⟨r', hr', h⟩ := bind_eq_ok.mp h
  obtain ⟨hr, hindex⟩ := registerOperand_ok hr'
  cases hr
  rw [hclass] at h
  simp only at h
  split at h
  · cases h
  · next hne =>
    cases h
    exact ⟨by omega, rfl⟩

/-- No slot but that of `addImmediateRow` takes an immediate. -/
theorem addSlots_immediate {slots : List Aarch64Opnd} (hslots : slots ∈ addSlots)
    {row : Aarch64Opcode} {address : U64} {base word : Word} {o₁ o₂ : DecodedOperand} {v : Int} :
    encodeOperands row address base slots [o₁, o₂, .immediate v] ≠ .ok word := by
  intro h
  simp only [addSlots, List.mem_cons, List.not_mem_nil, or_false] at hslots
  obtain rfl | rfl | rfl | rfl := hslots
  all_goals
    obtain ⟨bits₁, -, h⟩ := bind_eq_ok.mp h
    obtain ⟨bits₂, -, h⟩ := bind_eq_ok.mp h
    obtain ⟨bits₃, hbits₃, -⟩ := bind_eq_ok.mp h
    cases hbits₃

/-- The word of an `add` of an offset within a page. -/
theorem addWord_of_encode {address : U64} {r : Register} {v : Int} {w : Word}
    (hclass : r.regClass = .x) (hlow : 0 ≤ v) (hhigh : v ≤ 0xfff)
    (h : encodeInstruction ⟨address, .add, [.register r, .register r, .immediate v]⟩ = .ok w) :
    r.index < 31 ∧ w = 0x91000000#32 ||| placeAt r.index 0 ||| placeAt r.index 5
      ||| placeAt v.toNat 10 := by
  obtain ⟨row, hrow, word, bits, hlen, hops, halias, hw, -⟩ := encodeInstruction_ok h
  rw [opcodesForMnemonic_eq (m := .add) (fun name => nofun)] at hrow
  have hkinds := List.all_eq_true.mp addRows_found row hrow
  rw [Bool.or_eq_true, beq_iff_eq, List.contains_iff_mem] at hkinds
  obtain rfl | hslots := hkinds
  · obtain ⟨bits₁, hrd, hops⟩ := bind_eq_ok.mp hops
    obtain ⟨bits₂, hrn, hops⟩ := bind_eq_ok.mp hops
    obtain ⟨bits₃, himm, hops⟩ := bind_eq_ok.mp hops
    obtain ⟨hindex, rfl⟩ := encodeGpOrSp_wide hclass hrd
    obtain ⟨-, rfl⟩ := encodeGpOrSp_wide hclass hrn
    have hbits₃ : bits₃ = placeAt v.toNat 10 := by
      have himm' : encodeAimm .aimm (.immediate v) = .ok bits₃ := himm
      simp only [encodeAimm, immediateOperand, bind, Except.bind, if_pos (And.intro hlow hhigh)]
        at himm'
      exact (Except.ok.inj himm').symm
    cases hops
    cases halias
    refine ⟨hindex, ?_⟩
    have hopcode : (0x91000000#32 : Word) = addImmediateRow.opcode ||| placeAt 1 31 := by decide
    rw [hw, hbits₃, hopcode, show (0 : Word) = 0#32 from rfl, BitVec.or_zero]
    ac_rfl
  · exact absurd hops (addSlots_immediate hslots)

theorem matchOpcode_ne_none {w : Word} {row : Aarch64Opcode} (hrow : row ∈ aarch64OpcodeTable)
    (hmatch : row.isMatch w = true) : matchOpcode w ≠ none := by
  have hkeep : ∀ (rows : List Aarch64Opcode) (best : Option Aarch64Opcode),
      best ≠ none ∨ rows ≠ [] → rows.foldl keepBetter best ≠ none := by
    intro rows
    induction rows with
    | nil =>
      intro best hbest
      exact hbest.resolve_right (fun h => h rfl)
    | cons r rows ih =>
      intro best hbest
      refine ih _ (.inl ?_)
      unfold keepBetter
      split
      · exact Option.some_ne_none _
      · split <;> exact Option.some_ne_none _
  rw [matchOpcode_eq_foldl_matches]
  refine hkeep _ _ (.inr ?_)
  exact List.ne_nil_of_mem (List.mem_filter.mpr ⟨hrow, hmatch⟩)

/-- **An encoded `add` of an offset within a page decodes to itself**, at offset
zero perhaps to a `mov`, wherever it stands. -/
theorem decode_encodedAdd {address : U64} {r : Register} {v : Int} {w : Word}
    (hclass : r.regClass = .x) (hlow : 0 ≤ v) (hhigh : v ≤ 0xfff)
    (h : encodeInstruction ⟨address, .add, [.register r, .register r, .immediate v]⟩ = .ok w)
    (here : U64) :
    r.index < 31 ∧
      (decodeInstruction here w = .ok ⟨here, w, .add,
          [.register (xOrSp r.index), .register (xOrSp r.index), .immediate v]⟩ ∨
        v = 0 ∧ decodeInstruction here w = .ok ⟨here, w, .mov,
          [.register (xOrSp r.index), .register (xOrSp r.index)]⟩) := by
  obtain ⟨hindex, hw⟩ := addWord_of_encode hclass hlow hhigh h
  refine ⟨hindex, ?_⟩
  have hlt : r.index < 2 ^ 5 := by omega
  have hv : v.toNat < 2 ^ 12 := by omega
  have hbase : (0x91000000#32 : Word) &&& 0xffc00000#32 = 0x91000000#32 := by decide
  have hknown : w &&& 0xffc00000#32 = 0x91000000#32 := by
    rw [hw, or_known (placeAt_clear hv (by decide)), or_known (placeAt_clear hlt (by decide)),
      or_known (placeAt_clear hlt (by decide)), hbase]
  have hwide : w.getLsbD 31 = true := by
    rw [getLsbD_eq_bitsOf, bitsOf_known hknown (by decide) (by decide)]
    decide
  have hrd : bitsOf w 0 5 = r.index := by
    have hvacant : Vacant (0x91000000#32 : Word) 0 5 := by
      unfold Vacant
      decide
    rw [hw]
    refine (bitsOf_congr (by omega) (extract_or_placeAt _ hv (.inr (by omega)))).trans ?_
    refine (bitsOf_congr (by omega) (extract_or_placeAt _ hlt (.inr (by omega)))).trans ?_
    exact bitsOf_placeAt hvacant hlt (by omega)
  have hrn : bitsOf w 5 5 = r.index := by
    have hvacant : Vacant (0x91000000#32 ||| placeAt r.index 0 : Word) 5 5 := by
      unfold Vacant
      rw [extract_or_placeAt _ hlt (.inl (by omega))]
      decide
    rw [hw]
    refine (bitsOf_congr (by omega) (extract_or_placeAt _ hv (.inr (by omega)))).trans ?_
    exact bitsOf_placeAt hvacant hlt (by omega)
  have himm : bitsOf w 10 12 = v.toNat := by
    have hvacant : Vacant (0x91000000#32 ||| placeAt r.index 0 ||| placeAt r.index 5 : Word) 10 12 := by
      unfold Vacant
      rw [extract_or_placeAt _ hlt (.inl (by omega)), extract_or_placeAt _ hlt (.inl (by omega))]
      decide
    rw [hw]
    exact bitsOf_placeAt hvacant hv (by omega)
  have hshift : w.getLsbD 22 = false := by
    rw [getLsbD_eq_bitsOf, bitsOf_known hknown (by decide) (by decide)]
    decide
  have hadd : addImmediateRow ∈ aarch64OpcodeTable.filter (compatible 0xffc00000#32 0x91000000#32) := by
    rw [addImmediate_compatible]
    exact List.mem_cons_self
  obtain ⟨htable, hcompatible⟩ := List.mem_filter.mp hadd
  have hmatch : addImmediateRow.isMatch w = true :=
    isMatch_of_settled hknown hcompatible (by decide)
  cases hrow : matchOpcode w with
  | none => exact absurd hrow (matchOpcode_ne_none htable hmatch)
  | some row =>
    obtain ⟨hmem, hmask, -⟩ := matchOpcode_spec hrow
    have hcases : row ∈ [addImmediateRow, moveRow] := by
      rw [← addImmediate_compatible]
      exact List.mem_filter.mpr ⟨hmem, compatible_of_maskMatches hknown hmask⟩
    simp only [List.mem_cons, List.not_mem_nil, or_false] at hcases
    obtain rfl | rfl := hcases
    · left
      have hparse : Aarch64Mnemonic.parse addImmediateRow.name = .add := by decide
      have hnat : ((v.toNat : Nat) : Int) = v := Int.toNat_of_nonneg hlow
      unfold decodeInstruction
      simp only [hrow, hparse]
      show Except.ok (⟨here, w, .add, [.register (gpOrSp (bitsOf w 0 5) w),
        .register (gpOrSp (bitsOf w 5 5) w), .immediate (aimm w)]⟩ : DecodedInstruction) = _
      rw [hrd, hrn, gpOrSp, if_pos hwide, aimm, hshift, himm, hnat]
      rfl
    · right
      have hparse : Aarch64Mnemonic.parse moveRow.name = .mov := by decide
      have hzero : bitsOf w 10 12 = 0 := by
        rw [maskMatches, beq_iff_eq] at hmask
        rw [bitsOf_known hmask (by decide) (by decide)]
        decide
      refine ⟨by omega, ?_⟩
      unfold decodeInstruction
      simp only [hrow, hparse]
      show Except.ok (⟨here, w, .mov, [.register (gpOrSp (bitsOf w 0 5) w),
        .register (gpOrSp (bitsOf w 5 5) w)]⟩ : DecodedInstruction) = _
      rw [hrd, hrn, gpOrSp, if_pos hwide]

/-! ## §4. The memory operand of a transfer. -/

/-- What an access adds to its base register to form the address, if that is a
number: a post-indexed access reaches its base. -/
def accessOffset (m : MemoryOperand) : Option Int :=
  match m.offset, m.mode with
  | .none, _ => some 0
  | .immediate _, .postIndex => some 0
  | .immediate value, _ => some value
  | .register _ _, _ => none

/-- The bits of a transfer that its register numbers and its offset do not use. -/
def transferKnown : Aarch64Opnd → Word
  | .addrUimm12 => 0xffc00000#32
  | .addrSimm9 => 0xffe00400#32
  | _ => 0xffe00c00#32

/-- A memory slot keeps the known bits and the data register, and shows an
operand through the same base that reaches the same address. -/
structure MemoryReadsBack (slot : Aarch64Opnd) (base : Word) (index : Nat) (m : MemoryOperand)
    (bits : Word) : Prop where
  known : (base ||| placeAt index 0 ||| bits) &&& transferKnown slot = base
  register : bitsOf (base ||| placeAt index 0 ||| bits) 0 5 = index
  shown : ∀ address row operandIndex, ∃ m',
    decodeOperand slot (base ||| placeAt index 0 ||| bits) address row operandIndex
        = .ok (.memory m') ∧
      m'.base = xOrSp m.base.index ∧ accessOffset m' = accessOffset m

theorem memoryOperand_ok {kind : Aarch64Opnd} {m m' : MemoryOperand}
    (h : memoryOperand kind (.memory m) = .ok m') : m' = m ∧ m.base.index < 2 ^ 5 := by
  simp only [memoryOperand] at h
  split at h
  · next hbase =>
    cases h
    exact ⟨rfl, by omega⟩
  · cases h

theorem memoryImmediate_ok {kind : Aarch64Opnd} {m : MemoryOperand} {r : MemoryOperand × Int}
    (h : memoryImmediate kind (.memory m) = .ok r) :
    r.1 = m ∧ m.base.index < 2 ^ 5 ∧ m.offset = .immediate r.2 := by
  obtain ⟨m', hm, hrest⟩ := bind_eq_ok.mp h
  obtain ⟨rfl, hindex⟩ := memoryOperand_ok hm
  split at hrest
  · next offset hoffset =>
    cases hrest
    exact ⟨rfl, hindex, hoffset⟩
  · cases hrest

section Memory

variable {base bits : Word} {index : Nat} {m : MemoryOperand}

/-- A slot reads back that adds, besides its base register, bits that are
neither known nor of a register, and shows an access that reaches the same address. -/
theorem readsBack_of_rest {slot : Aarch64Opnd} {rest : Word}
    (hbase : base &&& transferKnown slot = base) (hindex : index < 2 ^ 5)
    (hm : m.base.index < 2 ^ 5) (hapart : transferKnown slot &&& fieldMask 32 0 10 = 0#32)
    (hrest : rest &&& (transferKnown slot ||| fieldMask 32 0 10) = 0#32)
    (hshown : ∀ w, w = base ||| placeAt index 0 ||| (placeAt m.base.index 5 ||| rest) →
      w &&& transferKnown slot = base → ∃ offset mode,
        (∀ address row operandIndex, decodeOperand slot w address row operandIndex
          = .ok (memoryAt w offset mode)) ∧
        accessOffset ⟨m.base, offset, mode⟩ = accessOffset m) :
    MemoryReadsBack slot base index m (placeAt m.base.index 5 ||| rest) := by
  have hsplit : ∀ {x part : Word}, x &&& (transferKnown slot ||| fieldMask 32 0 10) = 0#32 →
      (transferKnown slot ||| fieldMask 32 0 10) &&& part = part → x &&& part = 0#32 := by
    intro x part hx hpart
    rw [← hpart, ← BitVec.and_assoc, hx, BitVec.zero_and]
  have hlow : ∀ {part : Word}, fieldMask 32 0 10 &&& part = part →
      (transferKnown slot ||| fieldMask 32 0 10) &&& part = part := by
    intro part hpart
    rw [BitVec.and_or_distrib_right, hpart]
    ext i hi
    simp only [BitVec.getElem_or, BitVec.getElem_and]
    cases (transferKnown slot)[i] <;> cases part[i] <;> rfl
  have hvacant : ∀ {part : Word}, fieldMask 32 0 10 &&& part = part → base &&& part = 0#32 := by
    intro part hpart
    rw [← hbase, ← hpart, BitVec.and_assoc, ← BitVec.and_assoc (transferKnown slot), hapart,
      BitVec.zero_and, BitVec.and_zero]
  have hplace : ∀ {n lo len : Nat}, n < 2 ^ len → fieldMask 32 lo len &&& fieldMask 32 0 10
      = fieldMask 32 lo len → placeAt n lo &&& transferKnown slot = 0#32 := by
    intro n lo len hn hinside
    refine placeAt_clear hn ?_
    rw [← hinside, BitVec.and_assoc, BitVec.and_comm (fieldMask 32 0 10), hapart, BitVec.and_zero]
  have hknown : (base ||| placeAt index 0 ||| (placeAt m.base.index 5 ||| rest))
      &&& transferKnown slot = base := by
    have hrest' : rest &&& transferKnown slot = 0#32 := by
      refine hsplit hrest ?_
      rw [BitVec.and_comm]
      exact and_or_absorb _ _
    rw [or_known, or_known (hplace hindex (by decide)), hbase]
    rw [or_known hrest', hplace hm (by decide)]
  refine ⟨hknown, ?_, ?_⟩
  · have hcomm : base ||| placeAt index 0 ||| (placeAt m.base.index 5 ||| rest)
        = (base ||| (placeAt m.base.index 5 ||| rest)) ||| placeAt index 0 := by ac_rfl
    rw [hcomm]
    refine bitsOf_placeAt (vacant_of_and ?_ (by omega)) hindex (by omega)
    rw [or_known, hvacant (by decide)]
    rw [or_known (hsplit hrest (hlow (by decide))), placeAt_clear hm (by decide)]
  · intro address row operandIndex
    obtain ⟨offset, mode, hdecode, hreach⟩ := hshown _ rfl hknown
    have hcomm : base ||| placeAt index 0 ||| (placeAt m.base.index 5 ||| rest)
        = (base ||| placeAt index 0 ||| rest) ||| placeAt m.base.index 5 := by ac_rfl
    have hread : bitsOf (base ||| placeAt index 0 ||| (placeAt m.base.index 5 ||| rest)) 5 5
        = m.base.index := by
      rw [hcomm]
      refine bitsOf_placeAt (vacant_of_and ?_ (by omega)) hm (by omega)
      rw [or_known (hsplit hrest (hlow (by decide))), or_known (placeAt_clear hindex (by decide)),
        hvacant (by decide)]
    exact ⟨_, hdecode address row operandIndex, by rw [hread], hreach⟩

theorem readsBack_uimm12 (hbase : base &&& transferKnown .addrUimm12 = base)
    (hscale : ∀ w : Word, w &&& transferKnown .addrUimm12 = base → ldstScale w = bitsOf base 30 2)
    (hindex : index < 2 ^ 5)
    (h : encodeAddrUimm12 .addrUimm12 (.memory m) (base ||| placeAt index 0) = .ok bits) :
    MemoryReadsBack .addrUimm12 base index m bits := by
  obtain ⟨⟨m', offset⟩, hm, hslot⟩ := bind_eq_ok.mp h
  obtain ⟨hsame, hbaseIndex, hoffset⟩ := memoryImmediate_ok hm
  obtain rfl : m = m' := hsame.symm
  have hsize : bitsOf (base ||| placeAt index 0) 30 2 = bitsOf base 30 2 :=
    bitsOf_congr (by omega) (extract_or_placeAt _ hindex (.inl (by omega)))
  simp only [hsize] at hslot
  split at hslot
  · cases hslot
  · next hfits =>
    rw [not_or, not_or, not_or, not_not, not_not] at hfits
    obtain ⟨hmode, hnonneg, hscaled, hrange⟩ := hfits
    cases hslot
    have hunit : (0 : Int) < 2 ^ bitsOf base 30 2 := by positivity
    have hdiv : 0 ≤ offset / 2 ^ bitsOf base 30 2 := Int.ediv_nonneg (by omega) hunit.le
    have hlt : (offset / 2 ^ bitsOf base 30 2).toNat < 2 ^ 12 := by omega
    refine readsBack_of_rest hbase hindex hbaseIndex (by decide) (placeAt_clear hlt (by decide)) ?_
    intro w hw hknown
    have himm : bitsOf w 10 12 = (offset / 2 ^ bitsOf base 30 2).toNat := by
      rw [hw, ← BitVec.or_assoc]
      refine bitsOf_placeAt (vacant_of_and ?_ (by omega)) hlt (by omega)
      rw [or_known (placeAt_clear hbaseIndex (by decide)), or_known (placeAt_clear hindex (by decide)),
        ← hbase, BitVec.and_assoc]
      exact BitVec.and_zero
    have hwhole : ((offset / 2 ^ bitsOf base 30 2).toNat : Int) * 2 ^ bitsOf base 30 2 = offset := by
      rw [Int.toNat_of_nonneg hdiv]
      exact Int.ediv_mul_cancel (Int.dvd_of_emod_eq_zero hscaled)
    refine ⟨.immediate (uimm12Offset w), .offset, fun _ _ _ => rfl, ?_⟩
    rw [uimm12Offset, himm, hscale w hknown, hwhole, accessOffset, accessOffset, hoffset, hmode]

/-- An indexed access shows its mode in bits 11:10 and its offset in bits 20:12. -/
theorem readsBack_simm9 {row : Aarch64Opcode} (hbase : base &&& transferKnown .addrSimm9 = base)
    (hrow : row.iclass = .ldstImm9) (hindexed : base.extractLsb' 10 2 = 1#2) (hindex : index < 2 ^ 5)
    (h : encodeAddrSimm9 .addrSimm9 (.memory m) row = .ok bits) :
    MemoryReadsBack .addrSimm9 base index m bits := by
  obtain ⟨⟨m', offset⟩, hm, hslot⟩ := bind_eq_ok.mp h
  obtain ⟨hsame, hbaseIndex, hoffset⟩ := memoryImmediate_ok hm
  obtain rfl : m = m' := hsame.symm
  have hregisters : (base ||| placeAt index 0 ||| placeAt m.base.index 5).extractLsb' 10 2 = 1#2 := by
    rw [extract_or_placeAt _ hbaseIndex (.inl (by omega)), extract_or_placeAt _ hindex (.inl (by omega)),
      hindexed]
  simp only at hslot
  split at hslot
  · cases hslot
  · next hrange =>
    rw [not_not] at hrange
    rw [hrow] at hslot
    cases hmode : m.mode with
    | offset =>
      rw [hmode] at hslot
      cases hslot
    | postIndex =>
      rw [hmode] at hslot
      cases hslot
      refine readsBack_of_rest hbase hindex hbaseIndex (by decide)
        (placeSignedAt_clear (by decide)) ?_
      intro w hw hknown
      have hbits : bitsOf w 10 2 = 1 := by
        rw [bitsOf_eq _ (by omega), hw, ← BitVec.or_assoc,
          extract_or_placeSignedAt _ (by omega) (.inr (by omega)), hregisters]
        rfl
      have hshown : simm9AddressingMode w = .postIndex := by
        rw [simm9AddressingMode, hbits]
        rfl
      refine ⟨.immediate (simm9Offset w), simm9AddressingMode w, fun _ _ _ => rfl, ?_⟩
      rw [hshown, accessOffset, accessOffset, hoffset, hmode]
    | preIndex =>
      rw [hmode] at hslot
      cases hslot
      have hone : (1 : Nat) < 2 ^ 1 := by omega
      rw [BitVec.or_assoc]
      refine readsBack_of_rest hbase hindex hbaseIndex (by decide) ?_ ?_
      · rw [or_known (placeAt_clear hone (by decide)), placeSignedAt_clear (by decide)]
      · intro w hw hknown
        have hbits : bitsOf w 10 2 = 3 := by
          rw [bitsOf_eq _ (by omega), hw, ← BitVec.or_assoc, ← BitVec.or_assoc, BitVec.extractLsb'_or,
            extract_or_placeSignedAt _ (by omega) (.inr (by omega)), hregisters]
          decide
        have hshown : simm9AddressingMode w = .preIndex := by
          rw [simm9AddressingMode, hbits]
          rfl
        have hvalue : simm9Offset w = offset := by
          have hcomm : w = (base ||| placeAt index 0 ||| (placeAt m.base.index 5 ||| placeAt 1 11))
              ||| placeSignedAt offset 12 9 := by
            rw [hw]
            ac_rfl
          have hvacant : base &&& fieldMask 32 12 9 = 0#32 := by
            rw [← hbase, BitVec.and_assoc]
            exact BitVec.and_zero
          rw [simm9Offset, hcomm]
          refine signedBitsOf_placeSignedAt (vacant_of_and ?_ (by omega)) (by omega) (by omega)
            (by omega) (by omega)
          rw [or_known, or_known (placeAt_clear hindex (by decide)), hvacant]
          rw [or_known (placeAt_clear hone (by decide)), placeAt_clear hbaseIndex (by decide)]
        refine ⟨.immediate (simm9Offset w), simm9AddressingMode w, fun _ _ _ => rfl, ?_⟩
        rw [hshown, hvalue, accessOffset, accessOffset, hoffset, hmode]

theorem readsBack_regoff (hbase : base &&& transferKnown .addrRegoff = base) (hindex : index < 2 ^ 5)
    {word : Word} (h : encodeAddrRegoff .addrRegoff (.memory m) word = .ok bits) :
    MemoryReadsBack .addrRegoff base index m bits := by
  obtain ⟨m', hm, hslot⟩ := bind_eq_ok.mp h
  obtain ⟨hsame, hbaseIndex⟩ := memoryOperand_ok hm
  obtain rfl : m = m' := hsame.symm
  have hthree : (0b011 : Nat) < 2 ^ 3 := by omega
  have hone : (1 : Nat) < 2 ^ 1 := by omega
  -- a register offset is no number, before and after
  have hshown : ∀ w : Word, ∀ r shift, m.offset = .register r shift → ∃ offset mode,
      (∀ address row operandIndex, decodeOperand .addrRegoff w address row operandIndex
        = .ok (memoryAt w offset mode)) ∧
      accessOffset ⟨m.base, offset, mode⟩ = accessOffset m := by
    intro w r shift hoffset
    refine ⟨.register (xReg (bitsOf w 16 5)) (regoffShift w), .offset, fun _ _ _ => rfl, ?_⟩
    rw [accessOffset, accessOffset, hoffset]
  split at hslot
  · next r shift hoffset =>
    split at hslot
    · cases hslot
    · next hfits =>
      rw [not_or, not_or] at hfits
      have hr : r.index < 2 ^ 5 := by omega
      simp only at hslot
      split at hslot
      · cases hslot
        rw [BitVec.or_assoc]
        refine readsBack_of_rest hbase hindex hbaseIndex (by decide) ?_
          (fun w _ _ => hshown w r _ hoffset)
        rw [or_known (placeAt_clear hthree (by decide)), placeAt_clear hr (by decide)]
      · split at hslot
        · cases hslot
          rw [BitVec.or_assoc, BitVec.or_assoc]
          refine readsBack_of_rest hbase hindex hbaseIndex (by decide) ?_
            (fun w _ _ => hshown w r _ hoffset)
          rw [or_known, placeAt_clear hr (by decide)]
          rw [or_known (placeAt_clear hone (by decide)), placeAt_clear hthree (by decide)]
        · cases hslot
  · cases hslot

end Memory

/-! ## §5. Loads and stores. -/

/-- The two rows of a single load or store in one addressing form, the one of
the SIMD&FP registers first: opcode and mask of each. -/
structure TransferPair where
  name : String
  iclass : Aarch64InsnClass
  slot : Aarch64Opnd
  simd : Word × Word
  general : Word × Word
  deriving DecidableEq

def TransferPair.simdRow (p : TransferPair) : Aarch64Opcode :=
  ⟨p.name, p.simd.1, p.simd.2, p.iclass, [.ft, p.slot], 0⟩

def TransferPair.generalRow (p : TransferPair) : Aarch64Opcode :=
  ⟨p.name, p.general.1, p.general.2, p.iclass, [.rt, p.slot], 0⟩

def transferPairs : Aarch64Mnemonic → List TransferPair
  | .ldr =>
    [⟨"ldr", .ldstImm9, .addrSimm9, (0x3c400400#32, 0x3f600400#32), (0xb8400400#32, 0xbfe00400#32)⟩,
      ⟨"ldr", .ldstPos, .addrUimm12, (0x3d400000#32, 0x3f400000#32), (0xb9400000#32, 0xbfc00000#32)⟩,
      ⟨"ldr", .ldstRegoff, .addrRegoff, (0x3c600800#32, 0x3f600c00#32),
        (0xb8600800#32, 0xbfe00c00#32)⟩]
  | .str =>
    [⟨"str", .ldstImm9, .addrSimm9, (0x3c000400#32, 0x3f600400#32), (0xb8000400#32, 0xbfe00400#32)⟩,
      ⟨"str", .ldstPos, .addrUimm12, (0x3d000000#32, 0x3f400000#32), (0xb9000000#32, 0xbfc00000#32)⟩,
      ⟨"str", .ldstRegoff, .addrRegoff, (0x3c200800#32, 0x3f600c00#32),
        (0xb8200800#32, 0xbfe00c00#32)⟩]
  | _ => []

/-- The rows of a transfer that take no memory operand. -/
def literalRows : Aarch64Mnemonic → List Aarch64Opcode
  | .ldr => [generalLiteralRow, simdLiteralRow]
  | _ => []

set_option maxRecDepth 20000 in
theorem transferRows_found :
    ∀ m ∈ [Aarch64Mnemonic.ldr, .str],
      aarch64OpcodeTable.filter (fun row => m.spellings.contains row.name)
        = (transferPairs m).flatMap (fun p => [p.simdRow, p.generalRow]) ++ literalRows m := by
  decide

set_option maxRecDepth 20000 in
theorem transferRows_decide :
    ∀ m ∈ [Aarch64Mnemonic.ldr, .str], ∀ p ∈ transferPairs m,
      decides p.simdRow.mask p.simdRow.opcode p.simdRow = true ∧
        decides p.generalRow.mask p.generalRow.opcode p.generalRow = true := by
  decide

/-- The size bits of a data register. -/
def dataSize : RegisterClass → Option Word
  | .w => some 0#32
  | .x => some (placeAt 1 30)
  | .s => some (placeAt 2 30)
  | .d => some (placeAt 3 30)
  | _ => none

/-- The slot a data register of a class belongs in, and the row it has there. -/
def dataSlot : RegisterClass → Aarch64Opnd
  | .s | .d => .ft
  | _ => .rt

def TransferPair.rowOf (p : TransferPair) (c : RegisterClass) : Aarch64Opcode :=
  if dataSlot c = .ft then p.simdRow else p.generalRow

/-- A row keeps the registers of a class: `base` is its word for register zero
before the memory operand. -/
structure KeepsRegister (p : TransferPair) (row : Aarch64Opcode) (slot : Aarch64Opnd)
    (regClass : RegisterClass) (base : Word) : Prop where
  slots : row.operands = [slot, p.slot]
  known : base &&& transferKnown p.slot = base
  fixed : base &&& row.mask = row.opcode
  masked : transferKnown p.slot &&& row.mask = row.mask
  within : row.opcode &&& row.mask = row.opcode
  shown : decodeOperand slot base 0 row 0 = .ok (.register ⟨regClass, 0⟩)
  scale : ldstScale base = bitsOf base 30 2
  indexed : p.slot = .addrSimm9 → row.iclass = .ldstImm9 ∧ base.extractLsb' 10 2 = 1#2

/-- What the rows of a transfer have in common. -/
structure IsTransfer (m : Aarch64Mnemonic) (p : TransferPair) : Prop where
  name : p.name = "ldr" ∨ p.name = "str"
  parsed : Aarch64Mnemonic.parse p.name = m
  single : isSingleLdstClass p.iclass = true
  slot : p.slot ∈ [Aarch64Opnd.addrSimm9, .addrUimm12, .addrRegoff]
  keeps : ∀ c size, dataSize c = some size →
    KeepsRegister p (p.rowOf c) (dataSlot c) c ((p.rowOf c).opcode ||| size)
  sameSize : ∀ c size, dataSize c = some size → dataSlot c = .ft →
    bitsOf (p.simdRow.opcode ||| size) 30 2 = bitsOf (p.generalRow.opcode ||| size) 30 2

theorem isTransfer_of_mem {m : Aarch64Mnemonic} {p : TransferPair}
    (hm : m ∈ [Aarch64Mnemonic.ldr, .str]) (hp : p ∈ transferPairs m) : IsTransfer m p := by
  simp only [List.mem_cons, List.not_mem_nil, or_false] at hm
  obtain rfl | rfl := hm <;>
  simp only [transferPairs, List.mem_cons, List.not_mem_nil, or_false] at hp <;>
  obtain rfl | rfl | rfl := hp
  all_goals
    refine ⟨by decide, by decide, by decide, by decide, ?_, ?_⟩
    · intro c size hsize
      cases c <;> cases hsize <;>
      exact ⟨rfl, by decide, by decide, by decide, by decide, by decide, by decide, by decide⟩
    · intro c size hsize hslot
      cases c <;> cases hsize <;> cases hslot <;> decide

/-! ### The data register. -/

theorem transferKnown_high (slot : Aarch64Opnd) :
    transferKnown slot &&& 0xffc00000#32 = 0xffc00000#32 := by
  unfold transferKnown
  split <;> decide

/-- A word with the known bits of `base` has its high fields. -/
theorem highBits_eq {slot : Aarch64Opnd} {w base : Word} (hw : w &&& transferKnown slot = base)
    {lo len : Nat} (hfield : fieldMask 32 lo len &&& ~~~0xffc00000#32 = 0#32) (hfit : lo + len ≤ 32) :
    bitsOf w lo len = bitsOf base lo len := by
  have hhigh : w &&& 0xffc00000#32 = base &&& 0xffc00000#32 := by
    rw [← hw, BitVec.and_assoc, transferKnown_high]
  rw [bitsOf_known hhigh hfield hfit, ← bitsOf_known (w := base) rfl hfield hfit]

theorem fpLdstWidth_eq {slot : Aarch64Opnd} {w base : Word} (hw : w &&& transferKnown slot = base) :
    fpLdstWidth w = fpLdstWidth base := by
  unfold fpLdstWidth
  rw [highBits_eq hw (by decide) (by decide), highBits_eq hw (by decide) (by decide)]

theorem ldstScale_eq {slot : Aarch64Opnd} {w base : Word} (hw : w &&& transferKnown slot = base) :
    ldstScale w = ldstScale base := by
  unfold ldstScale
  rw [getLsbD_eq_bitsOf, getLsbD_eq_bitsOf, highBits_eq hw (by decide) (by decide), fpLdstWidth_eq hw,
    highBits_eq hw (by decide) (by decide)]

/-- The data register is read from the low five bits, its class from the known ones. -/
theorem dataRegister_shown {p : TransferPair} {row : Aarch64Opcode} {slot : Aarch64Opnd}
    {c : RegisterClass} {base w : Word} (hkeeps : KeepsRegister p row slot c base)
    (hslot : slot = .rt ∨ slot = .ft) (hname : row.name = "ldr" ∨ row.name = "str")
    (hsingle : isSingleLdstClass row.iclass = true) (hw : w &&& transferKnown p.slot = base)
    (address : U64) (operandIndex : Nat) :
    decodeOperand slot w address row operandIndex = .ok (.register ⟨c, bitsOf w 0 5⟩) := by
  have hshown := hkeeps.shown
  obtain rfl | rfl := hslot
  · have hbase : rtReg base row = ⟨c, 0⟩ := by
      have h : Except.ok (ε := DecodeError) (DecodedOperand.register (rtReg base row))
          = .ok (.register ⟨c, 0⟩) := hshown
      simpa using h
    have hread : rtReg w row = ⟨(rtReg base row).regClass, bitsOf w 0 5⟩ := by
      have hop : bitsOf w 26 6 = bitsOf base 26 6 := highBits_eq hw (by decide) (by decide)
      have hsize : bitsOf w 30 2 = bitsOf base 30 2 := highBits_eq hw (by decide) (by decide)
      have hwidth := fpLdstWidth_eq hw
      have hcasp : isCasp row.name = false := by
        obtain hname | hname := hname <;> rw [hname] <;> decide
      have hcompare : ¬ (row.name = "cbz" ∨ row.name = "cbnz") := by
        obtain hname | hname := hname <;> rw [hname] <;> decide
      unfold rtReg fpLdstReg
      simp only [hcasp, hcompare, Bool.false_eq_true, if_false, hop, hsize, hwidth]
      split_ifs <;> rfl
    show Except.ok (DecodedOperand.register (rtReg w row)) = _
    rw [hread, hbase]
  · have hpair : isPairClass row.iclass = false := by
      cases hclass : row.iclass <;> rw [hclass] at hsingle <;> first | rfl | cases hsingle
    have hbase : (fpLdstWidth base).1 = c := by
      have h : Except.ok (ε := DecodeError) (DecodedOperand.register (ftReg (bitsOf base 0 5) base row))
          = .ok (.register ⟨c, 0⟩) := hshown
      rw [ftReg, hpair] at h
      exact congrArg Register.regClass (DecodedOperand.register.inj (Except.ok.inj h))
    show Except.ok (DecodedOperand.register (ftReg (bitsOf w 0 5) w row)) = _
    rw [ftReg, hpair, if_neg Bool.false_ne_true, fpLdstReg, fpLdstWidth_eq hw, hbase]

/-! ### The row a transfer encodes in. -/

theorem aliasImplicitBits_transfer {m : Aarch64Mnemonic} (hm : m ∈ [Aarch64Mnemonic.ldr, .str])
    (operands : List DecodedOperand) : aliasImplicitBits m operands = .ok 0#32 := by
  have hplain : ∀ m ∈ [Aarch64Mnemonic.ldr, .str],
      m ≠ .cinc ∧ ["sxtb", "sxth", "uxtb", "uxth"].contains m.tableName = false := by decide
  obtain ⟨hcinc, hextend⟩ := hplain m hm
  rw [aliasImplicitBits, if_neg hcinc, hextend]
  rfl

/-- The register slot of a general row takes SIMD&FP registers too. -/
theorem dataSize_of_encodeRt {r : Register} {row : Aarch64Opcode} {bits : Word}
    (hname : row.name = "ldr" ∨ row.name = "str") (hsingle : isSingleLdstClass row.iclass = true)
    (h : encodeRtRegister .rt (.register r) row = .ok bits) :
    r.index < 2 ^ 5 ∧ ∃ size, dataSize r.regClass = some size ∧ bits = size ||| placeAt r.index 0 := by
  obtain ⟨r', hr', hrest⟩ := bind_eq_ok.mp h
  obtain ⟨hr, hindex⟩ := registerOperand_ok hr'
  obtain rfl : r = r' := DecodedOperand.register.inj hr
  have hsigned : isSignedLoad row = false := by
    unfold isSignedLoad
    obtain hname | hname := hname <;> rw [hname] <;> rfl
  have hsame : rtSizeBits row r.regClass = dataSize r.regClass := by
    unfold rtSizeBits
    rw [if_pos hsingle, hsigned, if_neg Bool.false_ne_true]
    rfl
  rw [hsame] at hrest
  cases hsize : dataSize r.regClass with
  | none =>
    rw [hsize] at hrest
    cases hrest
  | some size =>
    rw [hsize] at hrest
    cases hrest
    exact ⟨by omega, size, rfl, rfl⟩

theorem isPairClass_of_single {iclass : Aarch64InsnClass} (h : isSingleLdstClass iclass = true) :
    isPairClass iclass = false := by
  cases iclass <;> first | rfl | cases h

theorem encodeFt_of_size {r : Register} {row : Aarch64Opcode} {size : Word}
    (hsingle : isSingleLdstClass row.iclass = true) (hindex : r.index < 2 ^ 5)
    (hslot : dataSlot r.regClass = .ft) (hsize : dataSize r.regClass = some size) :
    encodeFtRegister .ft (.register r) row 0 = .ok (size ||| placeAt r.index 0) := by
  simp only [encodeFtRegister, registerOperand_of_lt _ hindex, bind, Except.bind,
    isPairClass_of_single hsingle, hsingle, if_true, Bool.false_eq_true, if_false]
  cases hclass : r.regClass <;> rw [hclass] at hslot hsize <;> cases hslot <;> cases hsize <;> rfl

/-- The register slot of a SIMD&FP row takes these registers only. -/
theorem dataSize_of_encodeFt {r : Register} {row : Aarch64Opcode} {bits : Word}
    (hsingle : isSingleLdstClass row.iclass = true)
    (h : encodeFtRegister .ft (.register r) row 0 = .ok bits) :
    r.index < 2 ^ 5 ∧ dataSlot r.regClass = .ft ∧
      ∃ size, dataSize r.regClass = some size ∧ bits = size ||| placeAt r.index 0 := by
  obtain ⟨r', hr', hrest⟩ := bind_eq_ok.mp h
  obtain ⟨hr, hindex⟩ := registerOperand_ok hr'
  obtain rfl : r = r' := DecodedOperand.register.inj hr
  rw [isPairClass_of_single hsingle, hsingle, if_neg Bool.false_ne_true, if_pos rfl] at hrest
  cases hclass : r.regClass <;> rw [hclass] at hrest <;> cases hrest
  · exact ⟨by omega, rfl, _, rfl, rfl⟩
  · exact ⟨by omega, rfl, _, rfl, rfl⟩

/-- A memory slot looks at the size in bits 31:30 and at the class of the row only. -/
theorem encodeMemory_congr {slot : Aarch64Opnd} {o : DecodedOperand} {w w' : Word} {address : U64}
    {row row' : Aarch64Opcode} (hslot : slot ∈ [Aarch64Opnd.addrSimm9, .addrUimm12, .addrRegoff])
    (hsize : bitsOf w 30 2 = bitsOf w' 30 2) (hclass : row.iclass = row'.iclass) :
    encodeOperand slot o ⟨w, address, row⟩ = encodeOperand slot o ⟨w', address, row'⟩ := by
  simp only [List.mem_cons, List.not_mem_nil, or_false] at hslot
  obtain rfl | rfl | rfl := hslot
  · show encodeAddrSimm9 _ o row = encodeAddrSimm9 _ o row'
    unfold encodeAddrSimm9
    rw [hclass]
  · show encodeAddrUimm12 _ o w = encodeAddrUimm12 _ o w'
    unfold encodeAddrUimm12
    rw [hsize]
  · show encodeAddrRegoff _ o w = encodeAddrRegoff _ o w'
    unfold encodeAddrRegoff
    rw [hsize]

theorem memoryReadsBack {m : Aarch64Mnemonic} {p : TransferPair} {row : Aarch64Opcode}
    {slot : Aarch64Opnd} {c : RegisterClass} {base bits : Word} {index : Nat} {mem : MemoryOperand}
    {address : U64} (htransfer : IsTransfer m p) (hkeeps : KeepsRegister p row slot c base)
    (hindex : index < 2 ^ 5)
    (h : encodeOperand p.slot (.memory mem) ⟨base ||| placeAt index 0, address, row⟩ = .ok bits) :
    MemoryReadsBack p.slot base index mem bits := by
  have hmem := htransfer.slot
  simp only [List.mem_cons, List.not_mem_nil, or_false] at hmem
  obtain hslot | hslot | hslot := hmem
  · obtain ⟨hclass, hindexed⟩ := hkeeps.indexed hslot
    have hknown := hkeeps.known
    rw [hslot] at h hknown ⊢
    exact readsBack_simm9 hknown hclass hindexed hindex h
  · have hknown := hkeeps.known
    have hscale : ∀ w : Word, w &&& transferKnown p.slot = base → ldstScale w = bitsOf base 30 2 := by
      intro w hw
      rw [ldstScale_eq hw, hkeeps.scale]
    rw [hslot] at h hknown hscale ⊢
    exact readsBack_uimm12 hknown hscale hindex h
  · have hknown := hkeeps.known
    rw [hslot] at h hknown ⊢
    exact readsBack_regoff hknown hindex h

/-- The memory operand of a transfer is encoded beside its data register. -/
def EncodesMemory (p : TransferPair) (r : Register) (mem : MemoryOperand) (address : U64)
    (size bits : Word) : Prop :=
  encodeOperand p.slot (.memory mem) ⟨(p.rowOf r.regClass).opcode ||| size ||| placeAt r.index 0,
    address, p.rowOf r.regClass⟩ = .ok bits

theorem rowWord_ownRow {m : Aarch64Mnemonic} {p : TransferPair} {r : Register} {mem : MemoryOperand}
    {address : U64} {size bits : Word} (hm : m ∈ [Aarch64Mnemonic.ldr, .str])
    (htransfer : IsTransfer m p) (hindex : r.index < 2 ^ 5) (hslot : dataSlot r.regClass = .ft)
    (hsize : dataSize r.regClass = some size) (h : EncodesMemory p r mem address size bits) :
    rowWord ⟨address, m, [.register r, .memory mem]⟩ p.simdRow ≠ none := by
  have hrow : p.rowOf r.regClass = p.simdRow := if_pos hslot
  have hkeeps := htransfer.keeps _ _ hsize
  have hreads := memoryReadsBack htransfer hkeeps hindex h
  unfold EncodesMemory at h
  rw [hrow] at hkeeps hreads h
  have hmask : p.simdRow.maskMatches (p.simdRow.opcode ||| size ||| placeAt r.index 0 ||| bits) = true := by
    rw [maskMatches, beq_iff_eq, hkeeps.within, ← hkeeps.masked, ← BitVec.and_assoc, hreads.known,
      hkeeps.fixed]
  have hregister : encodeOperand .ft (.register r) ⟨p.simdRow.opcode, address, p.simdRow⟩
      = .ok (size ||| placeAt r.index 0) :=
    encodeFt_of_size htransfer.single hindex hslot hsize
  have hplain := aliasImplicitBits_transfer hm [.register r, .memory mem]
  rw [BitVec.or_assoc p.simdRow.opcode] at h hmask
  have hword := (rowWord_pair rfl hplain).mpr ⟨_, bits, hregister, h, rfl, hmask⟩
  rw [hword]
  exact Option.some_ne_none _

/-- **A transfer is encoded by the row of its data register's class**: a
SIMD&FP register that a general row would take is taken by the row before it. -/
theorem ownRow_of_encodedTransfer {m : Aarch64Mnemonic} {r : Register} {mem : MemoryOperand}
    {address : U64} {w : Word} (hm : m ∈ [Aarch64Mnemonic.ldr, .str])
    (h : encodeInstruction ⟨address, m, [.register r, .memory mem]⟩ = .ok w) :
    ∃ p ∈ transferPairs m, ∃ size bits, dataSize r.regClass = some size ∧ r.index < 2 ^ 5 ∧
      EncodesMemory p r mem address size bits ∧
      w = (p.rowOf r.regClass).opcode ||| size ||| placeAt r.index 0 ||| bits := by
  have hplain := aliasImplicitBits_transfer hm [.register r, .memory mem]
  have hfind := findSome_of_encodeInstruction h
  have hown : ∀ name, m ≠ .other name := by
    intro name hname
    rw [hname] at hm
    simp at hm
  rw [opcodesForMnemonic_eq hown, transferRows_found m hm] at hfind
  obtain ⟨p, hp, hword⟩ | hliteral := findSome_pairs hfind
  · have htransfer := isTransfer_of_mem hm hp
    refine ⟨p, hp, ?_⟩
    obtain hsimd | ⟨hnone, hgeneral⟩ := hword
    · obtain ⟨bits₁, bits₂, hregister, hmemory, hw, -⟩ := (rowWord_pair rfl hplain).mp hsimd
      obtain ⟨hindex, hslot, size, hsize, rfl⟩ := dataSize_of_encodeFt htransfer.single hregister
      have hrow : p.rowOf r.regClass = p.simdRow := if_pos hslot
      refine ⟨size, bits₂, hsize, hindex, ?_, ?_⟩
      · unfold EncodesMemory
        rw [hrow, BitVec.or_assoc]
        exact hmemory
      · rw [hrow, hw, BitVec.or_assoc p.simdRow.opcode size]
    · obtain ⟨bits₁, bits₂, hregister, hmemory, hw, -⟩ := (rowWord_pair rfl hplain).mp hgeneral
      obtain ⟨hindex, size, hsize, rfl⟩ := dataSize_of_encodeRt htransfer.name htransfer.single hregister
      by_cases hslot : dataSlot r.regClass = .ft
      · -- the row before would have taken the register and the memory operand
        have hrow : p.rowOf r.regClass = p.simdRow := if_pos hslot
        have hbits : bitsOf (p.simdRow.opcode ||| size ||| placeAt r.index 0) 30 2
            = bitsOf (p.generalRow.opcode ||| (size ||| placeAt r.index 0)) 30 2 := by
          rw [← BitVec.or_assoc p.generalRow.opcode,
            bitsOf_congr (by omega) (extract_or_placeAt _ hindex (.inl (by omega))),
            bitsOf_congr (w := p.generalRow.opcode ||| size ||| _) (by omega)
              (extract_or_placeAt _ hindex (.inl (by omega))),
            htransfer.sameSize _ _ hsize hslot]
        have hearlier : EncodesMemory p r mem address size bits₂ := by
          unfold EncodesMemory
          rw [hrow, encodeMemory_congr htransfer.slot hbits rfl]
          exact hmemory
        exact absurd hnone (rowWord_ownRow hm htransfer hindex hslot hsize hearlier)
      · have hrow : p.rowOf r.regClass = p.generalRow := if_neg hslot
        refine ⟨size, bits₂, hsize, hindex, ?_, ?_⟩
        · unfold EncodesMemory
          rw [hrow, BitVec.or_assoc]
          exact hmemory
        · rw [hrow, hw, BitVec.or_assoc p.generalRow.opcode size]
  · obtain ⟨row, hrow, hword⟩ := List.exists_of_findSome?_eq_some hliteral
    have hslots : ∃ first, row.operands = [first, .addrPcrel19] := by
      simp only [List.mem_cons, List.not_mem_nil, or_false] at hm
      obtain rfl | rfl := hm
      · simp only [literalRows, List.mem_cons, List.not_mem_nil, or_false] at hrow
        obtain rfl | rfl := hrow <;> exact ⟨_, rfl⟩
      · cases hrow
    obtain ⟨first, hfirst⟩ := hslots
    obtain ⟨bits₁, bits₂, -, hmemory, -⟩ := (rowWord_pair hfirst hplain).mp hword
    cases hmemory

/-- **An encoded load or store decodes to the same transfer**: the mnemonic and
the data register with its width are kept, and it goes through the same base
register to the same offset. -/
theorem decode_encodedTransfer {m : Aarch64Mnemonic} {r : Register} {mem : MemoryOperand}
    {address : U64} {w : Word} (hm : m ∈ [Aarch64Mnemonic.ldr, .str])
    (h : encodeInstruction ⟨address, m, [.register r, .memory mem]⟩ = .ok w) :
    ∃ mem', decodeInstruction address w = .ok ⟨address, w, m, [.register r, .memory mem']⟩ ∧
      mem'.base = xOrSp mem.base.index ∧ accessOffset mem' = accessOffset mem := by
  obtain ⟨p, hp, size, bits, hsize, hindex, hmemory, hw⟩ := ownRow_of_encodedTransfer hm h
  have htransfer := isTransfer_of_mem hm hp
  have hkeeps := htransfer.keeps _ _ hsize
  have hreads := memoryReadsBack htransfer hkeeps hindex hmemory
  obtain ⟨mem', hshown, hbase, hoffset⟩ := hreads.shown address (p.rowOf r.regClass) 1
  rw [← hw] at hshown
  have hknown : w &&& transferKnown p.slot = (p.rowOf r.regClass).opcode ||| size := by
    rw [hw]
    exact hreads.known
  have hregister : bitsOf w 0 5 = r.index := by
    rw [hw]
    exact hreads.register
  have hfixed : w &&& (p.rowOf r.regClass).mask = (p.rowOf r.regClass).opcode := by
    rw [← hkeeps.masked, ← BitVec.and_assoc, hknown, hkeeps.fixed]
  have hdecides : decides (p.rowOf r.regClass).mask (p.rowOf r.regClass).opcode (p.rowOf r.regClass)
      = true := by
    obtain ⟨hsimd, hgeneral⟩ := transferRows_decide m hm p hp
    unfold TransferPair.rowOf
    split
    · exact hsimd
    · exact hgeneral
  have hname : (p.rowOf r.regClass).name = p.name := by
    unfold TransferPair.rowOf
    split <;> rfl
  have hclass : (p.rowOf r.regClass).iclass = p.iclass := by
    unfold TransferPair.rowOf
    split <;> rfl
  have hslot : dataSlot r.regClass = .rt ∨ dataSlot r.regClass = .ft := by
    unfold dataSlot
    split
    · exact .inr rfl
    · exact .inr rfl
    · exact .inl rfl
  have hdata := dataRegister_shown hkeeps hslot (hname ▸ htransfer.name)
    (hclass ▸ htransfer.single) hknown address 0
  refine ⟨mem', ?_, hbase, hoffset⟩
  unfold decodeInstruction
  rw [matchOpcode_of_decides hdecides hfixed]
  simp only [hkeeps.slots, decodeOperands, hdata, hshown, hname, htransfer.parsed, hregister, bind,
    Except.bind, pure, Except.pure]

end Armv8Encode.Aarch64

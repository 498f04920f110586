/-
  Armv8Encode.Isa.Aarch64.BranchCodec — what an encoded branch decodes to.

  The operands of a branch land in disjoint fields of its row's fixed bits, so
  each reads back as it was written.  The one thing that is lost is the width
  of the register of `tbz` and `tbnz`, which is always shown as 64-bit.
-/
import Armv8Encode.Lib.Except
import Armv8Encode.Isa.Aarch64.BranchRows
import Armv8Encode.Isa.Aarch64.Encode

namespace Armv8Encode

open Lib Aarch64Opcode

/-! ## §1. Fields of an encoded word. -/

theorem bitsOf_eq (w : Word) {lo len : Nat} (hlen : len ≤ 32) :
    bitsOf w lo len = (w.extractLsb' lo len).toNat := toNat_field w hlen

theorem signedBitsOf_eq (w : Word) (lo len : Nat) :
    signedBitsOf w lo len = (w.extractLsb' lo len).toInt := by
  rw [signedBitsOf, BitVec.setWidth_ushiftRight_eq_extractLsb]

/-- A word with nothing in the field yet. -/
def Vacant (w : Word) (lo len : Nat) : Prop := w.extractLsb' lo len = 0#(len)

theorem bitsOf_placeAt {base : Word} {n lo len : Nat} (hbase : Vacant base lo len)
    (hn : n < 2 ^ len) (hfit : lo + len ≤ 32) : bitsOf (base ||| placeAt n lo) lo len = n := by
  rw [bitsOf_eq _ (by omega), BitVec.extractLsb'_or, hbase, BitVec.zero_or, placeAt,
    extractLsb'_shiftLeft_same _ hfit, BitVec.toNat_setWidth, BitVec.toNat_ofNat]
  have hle : 2 ^ len ≤ 2 ^ 32 := Nat.pow_le_pow_right (by omega) (by omega)
  rw [Nat.mod_eq_of_lt (lt_of_lt_of_le hn hle), Nat.mod_eq_of_lt hn]

theorem signedBitsOf_placeSignedAt {base : Word} {v : Int} {lo len : Nat}
    (hbase : Vacant base lo len) (hlen : 0 < len) (hfit : lo + len ≤ 32)
    (hlow : -(2 ^ (len - 1)) ≤ v) (hhigh : v < 2 ^ (len - 1)) :
    signedBitsOf (base ||| placeSignedAt v lo len) lo len = v := by
  rw [signedBitsOf_eq, BitVec.extractLsb'_or, hbase, BitVec.zero_or, placeSignedAt,
    extractLsb'_shiftLeft_same _ hfit, setWidth_and_ones _ (by omega), setWidth_ofInt _ (by omega)]
  exact BitVec.toInt_ofInt_eq_self hlen hlow hhigh

/-- What is placed elsewhere leaves a field as it was. -/
theorem extract_or_placeAt (base : Word) {n width lo lo' len : Nat} (hn : n < 2 ^ width)
    (h : lo + width ≤ lo' ∨ lo' + len ≤ lo) :
    (base ||| placeAt n lo).extractLsb' lo' len = base.extractLsb' lo' len := by
  have hlt : (BitVec.ofNat 32 n).toNat < 2 ^ width := by
    rw [BitVec.toNat_ofNat]
    exact lt_of_le_of_lt (Nat.mod_le _ _) hn
  rw [BitVec.extractLsb'_or, placeAt, extractLsb'_shiftLeft_disjoint hlt h, BitVec.or_zero]

theorem extract_or_placeSignedAt (base : Word) {v : Int} {width lo lo' len : Nat}
    (hwidth : width ≤ 32) (h : lo + width ≤ lo' ∨ lo' + len ≤ lo) :
    (base ||| placeSignedAt v lo width).extractLsb' lo' len = base.extractLsb' lo' len := by
  rw [BitVec.extractLsb'_or, placeSignedAt,
    extractLsb'_shiftLeft_disjoint (toNat_and_ones_lt _ hwidth) h, BitVec.or_zero]

theorem bitsOf_congr {w w' : Word} {lo len : Nat} (hlen : len ≤ 32)
    (h : w.extractLsb' lo len = w'.extractLsb' lo len) : bitsOf w lo len = bitsOf w' lo len := by
  rw [bitsOf_eq _ hlen, bitsOf_eq _ hlen, h]

theorem getLsbD_eq_bitsOf (w : Word) (i : Nat) : w.getLsbD i = decide (bitsOf w i 1 = 1) := by
  rw [bitsOf_eq _ (by omega)]
  have hbit : w.getLsbD i = (w.extractLsb' i 1).getLsbD 0 := by simp
  rw [hbit]
  generalize w.extractLsb' i 1 = b
  revert b
  decide

/-! ## §2. Encoding a branch. -/

theorem aliasImplicitBits_branch {m : Aarch64Mnemonic} {row : Aarch64Opcode}
    (h : branchRow m = some row) (operands : List DecodedOperand) :
    aliasImplicitBits m operands = .ok 0#32 := by
  have hmem := mem_branchMnemonics h
  have hplain : ∀ m ∈ branchMnemonics,
      m ≠ .cinc ∧ ["sxtb", "sxth", "uxtb", "uxth"].contains m.tableName = false := by decide
  obtain ⟨hcinc, hextend⟩ := hplain m hmem
  rw [aliasImplicitBits, if_neg hcinc, hextend]
  rfl

/-- A branch that encodes was encoded by its one row. -/
theorem encodeInstruction_branch {m : Aarch64Mnemonic} {row : Aarch64Opcode} {address : U64}
    {operands : List DecodedOperand} {w : Word} (h : branchRow m = some row)
    (henc : encodeInstruction ⟨address, m, operands⟩ = .ok w) :
    row.operands.length = operands.length ∧
      encodeOperands row address row.opcode row.operands operands = .ok w ∧
      row.maskMatches w := by
  simp only [encodeInstruction, opcodesForMnemonic_branch h, List.isEmpty_cons,
    Bool.false_eq_true, if_false, tryCandidates] at henc
  split at henc
  · cases henc
  · next hlen =>
    split at henc
    · cases henc
    · cases henc
    · cases henc
    · next word hword =>
      rw [aliasImplicitBits_branch h] at henc
      simp only [BitVec.or_zero] at henc
      split at henc
      · next hmask =>
        cases henc
        exact ⟨not_not.mp hlen, hword, hmask⟩
      · cases henc

/-! ## §3. Operand slots read back. -/

/-- A PC-relative slot holds the word offset of its target. -/
theorem encodePcrel_ok {kind : Aarch64Opnd} {operand : DecodedOperand} {address : U64}
    {len lo : Nat} {bits : Word} (h : encodePcrel kind operand address len lo = .ok bits) :
    ∃ (target : U64) (imm : Int), operand = .branchTarget target ∧
      bits = placeSignedAt imm lo len ∧ -(2 ^ (len - 1)) ≤ imm ∧ imm < 2 ^ (len - 1) ∧
      (target.toNat : Int) - address.toNat = imm * 4 := by
  unfold encodePcrel at h
  split at h
  · next target =>
    simp only at h
    split at h
    · cases h
    · next hmod =>
      split at h
      · next hrange =>
        cases h
        exact ⟨target, _, rfl, rfl, hrange.1, hrange.2, by omega⟩
      · cases h
  · cases h

theorem branchTarget_of_offset {address target : U64} {imm : Int}
    (h : (target.toNat : Int) - address.toNat = imm * 4) :
    branchTarget address (imm * 4) = target := by
  apply BitVec.eq_of_toNat_eq
  have ha := address.isLt
  have ht := target.isLt
  rw [branchTarget, BitVec.toNat_add, BitVec.toNat_ofInt, ← h]
  omega

theorem pcrel_readback {kind : Aarch64Opnd} {operand : DecodedOperand} {address : U64}
    {len lo : Nat} {base bits : Word} (h : encodePcrel kind operand address len lo = .ok bits)
    (hbase : Vacant base lo len) (hlen : 0 < len) (hfit : lo + len ≤ 32) :
    operand = .branchTarget (branchTarget address (signedBitsOf (base ||| bits) lo len * 4)) := by
  obtain ⟨target, imm, rfl, rfl, hlow, hhigh, hoffset⟩ := encodePcrel_ok h
  rw [signedBitsOf_placeSignedAt hbase hlen hfit hlow hhigh, branchTarget_of_offset hoffset]

theorem registerOperand_ok {kind : Aarch64Opnd} {operand : DecodedOperand} {r : Register}
    (h : registerOperand kind operand = .ok r) : operand = .register r ∧ r.index ≤ 31 := by
  unfold registerOperand at h
  split at h
  · split at h
    · cases h
    · cases h
      exact ⟨rfl, by omega⟩
  · cases h

/-- What the register slot of a branch adds: its number and, for `cbz` and
`cbnz`, its width. -/
theorem encodeRtRegister_branch {operand : DecodedOperand} {row : Aarch64Opcode} {bits : Word}
    (hclass : row.iclass = .compbranch ∨ row.iclass = .testbranch)
    (h : encodeRtRegister .rt operand row = .ok bits) :
    ∃ r : Register, operand = .register r ∧ r.index < 2 ^ 5 ∧
      ((r.regClass = .w ∧ bits = placeAt r.index 0) ∨
        (r.regClass = .x ∧ row.iclass = .compbranch ∧ bits = placeAt 1 31 ||| placeAt r.index 0) ∨
        (r.regClass = .x ∧ row.iclass = .testbranch ∧ bits = placeAt r.index 0)) := by
  obtain ⟨r, hr, hbits⟩ := bind_eq_ok.mp h
  obtain ⟨rfl, hindex⟩ := registerOperand_ok hr
  refine ⟨r, rfl, by omega, ?_⟩
  have hsingle : isSingleLdstClass row.iclass = false := by
    rcases hclass with hc | hc <;> rw [hc] <;> rfl
  unfold rtSizeBits at hbits
  rw [hsingle, if_neg Bool.false_ne_true] at hbits
  rcases hclass with hc | hc <;> rw [hc] at hbits <;> cases hr : r.regClass <;>
    rw [hr] at hbits <;> simp only [invalidOperand, reduceCtorEq, Except.ok.injEq] at hbits <;>
    simp [hc, ← hbits]

theorem encodeBitNum_ok {operand : DecodedOperand} {bits : Word}
    (h : encodeBitNum .bitNum operand = .ok bits) :
    ∃ bit : Nat, operand = .immediate bit ∧ bit < 64 ∧
      bits = placeAt (bit / 32) 31 ||| placeAt (bit % 32) 19 := by
  obtain ⟨bit, hbit, h⟩ := bind_eq_ok.mp h
  split at h
  · next hrange =>
    cases h
    refine ⟨bit.toNat, ?_, by omega, rfl⟩
    unfold immediateOperand at hbit
    split at hbit
    · cases hbit
      rw [Int.toNat_of_nonneg hrange.1]
    · cases hbit
  · cases h

/-! ## §4. What an encoded branch decodes to. -/

/-- The shapes of a branch row, with the fields its fixed bits leave vacant. -/
inductive BranchShape (m : Aarch64Mnemonic) (row : Aarch64Opcode) : Prop where
  | imm26 (operands : row.operands = [.addrPcrel26]) (target : Vacant row.opcode 0 26)
      (test : m ≠ .tbz ∧ m ≠ .tbnz)
  | imm19 (operands : row.operands = [.addrPcrel19]) (target : Vacant row.opcode 5 19)
      (test : m ≠ .tbz ∧ m ≠ .tbnz)
  | compare (operands : row.operands = [.rt, .addrPcrel19]) (iclass : row.iclass = .compbranch)
      (name : row.name = "cbz" ∨ row.name = "cbnz") (target : Vacant row.opcode 5 19)
      (register : Vacant row.opcode 0 5) (width : Vacant row.opcode 31 1)
      (test : m ≠ .tbz ∧ m ≠ .tbnz)
  | test (operands : row.operands = [.rt, .bitNum, .addrPcrel14])
      (iclass : row.iclass = .testbranch) (name : row.name = "tbz" ∨ row.name = "tbnz")
      (target : Vacant row.opcode 5 14) (register : Vacant row.opcode 0 5)
      (high : Vacant row.opcode 31 1) (low : Vacant row.opcode 19 5) (test : m = .tbz ∨ m = .tbnz)

theorem branchShape {m : Aarch64Mnemonic} {row : Aarch64Opcode} (h : branchRow m = some row) :
    BranchShape m row := by
  cases m <;> simp only [branchRow, reduceCtorEq, Option.some.injEq] at h <;> subst h
  case b | bl => exact .imm26 rfl (by unfold Vacant; decide) (by decide)
  case cbz | cbnz =>
    exact .compare rfl rfl (by decide) (by unfold Vacant; decide) (by unfold Vacant; decide)
      (by unfold Vacant; decide) (by decide)
  case tbz | tbnz =>
    exact .test rfl rfl (by decide) (by unfold Vacant; decide) (by unfold Vacant; decide)
      (by unfold Vacant; decide) (by unfold Vacant; decide) (by decide)
  all_goals exact .imm19 rfl (by unfold Vacant; decide) (by decide)

/-- An operand of a branch as the decoder shows it: `tbz` and `tbnz` do not
keep the width of their register. -/
def shownOperand (m : Aarch64Mnemonic) : DecodedOperand → DecodedOperand
  | .register r => if m = .tbz ∨ m = .tbnz then .register (xReg r.index) else .register r
  | o => o

/-- A list of slots encodes one slot after the other. -/
theorem encodeOperands_cons {row : Aarch64Opcode} {address : U64} {base w : Word}
    {kind : Aarch64Opnd} {kinds : List Aarch64Opnd} {operands : List DecodedOperand}
    (hlen : (kind :: kinds).length = operands.length)
    (h : encodeOperands row address base (kind :: kinds) operands = .ok w) :
    ∃ operand rest bits, operands = operand :: rest ∧ kinds.length = rest.length ∧
      encodeOperand kind operand ⟨base, address, row⟩ = .ok bits ∧
      encodeOperands row address (base ||| bits) kinds rest = .ok w := by
  cases operands with
  | nil => cases hlen
  | cons operand rest =>
    obtain ⟨bits, hbits, h⟩ := bind_eq_ok.mp h
    exact ⟨operand, rest, bits, rfl, by simpa using hlen, hbits, h⟩

theorem encodeOperands_nil {row : Aarch64Opcode} {address : U64} {base w : Word}
    {operands : List DecodedOperand} (hlen : ([] : List Aarch64Opnd).length = operands.length)
    (h : encodeOperands row address base [] operands = .ok w) : operands = [] ∧ w = base := by
  cases operands with
  | nil =>
    cases h
    exact ⟨rfl, rfl⟩
  | cons operand rest => cases hlen

theorem branchRow_within {m : Aarch64Mnemonic} {row : Aarch64Opcode} (h : branchRow m = some row) :
    row.opcode &&& row.mask = row.opcode := by
  have hwithin : ∀ m ∈ branchMnemonics,
      (branchRow m).all (fun row => row.opcode &&& row.mask == row.opcode) = true := by decide
  have hrow := hwithin m (mem_branchMnemonics h)
  rw [h, Option.all_some, beq_iff_eq] at hrow
  exact hrow

theorem fixedBits_of_maskMatches {m : Aarch64Mnemonic} {row : Aarch64Opcode} {w : Word}
    (h : branchRow m = some row) (hw : row.maskMatches w) : w &&& row.mask = row.opcode := by
  rw [maskMatches, beq_iff_eq, branchRow_within h] at hw
  exact hw

theorem rtReg_compare {row : Aarch64Opcode} (h : row.name = "cbz" ∨ row.name = "cbnz") (w : Word) :
    rtReg w row = gpReg (bitsOf w 0 5) w := by
  have hcasp : isCasp row.name = false := by rcases h with h | h <;> rw [h] <;> rfl
  simp only [rtReg, hcasp, Bool.false_eq_true, if_false, h, if_true]

theorem rtReg_test {row : Aarch64Opcode} (h : row.name = "tbz" ∨ row.name = "tbnz") (w : Word) :
    rtReg w row = xReg (bitsOf w 0 5) := by
  rcases h with h | h <;> simp [rtReg, isCasp, h]

theorem decodeOperands_pcrel {kind : Aarch64Opnd} {operand : DecodedOperand} {address : U64}
    {len lo : Nat} {base bits : Word} (henc : encodePcrel kind operand address len lo = .ok bits)
    (hbase : Vacant base lo len) (hlen : 0 < len) (hfit : lo + len ≤ 32) (m : Aarch64Mnemonic) :
    DecodedOperand.branchTarget
        (branchTarget address (signedBitsOf (base ||| bits) lo len * 4)) =
      shownOperand m operand := by
  rw [pcrel_readback henc hbase hlen hfit]
  rfl

/-- The operands of a `cbz` or `cbnz` read back. -/
theorem decodeOperands_compare {m : Aarch64Mnemonic} {row : Aarch64Opcode} {address : U64}
    {operands : List DecodedOperand} {w : Word} (hops : row.operands = [.rt, .addrPcrel19])
    (hclass : row.iclass = .compbranch) (hname : row.name = "cbz" ∨ row.name = "cbnz")
    (htarget : Vacant row.opcode 5 19) (hregister : Vacant row.opcode 0 5)
    (hwidth : Vacant row.opcode 31 1) (htest : m ≠ .tbz ∧ m ≠ .tbnz)
    (hlen : row.operands.length = operands.length)
    (henc : encodeOperands row address row.opcode row.operands operands = .ok w) :
    decodeOperands w address row 0 row.operands = .ok (operands.map (shownOperand m)) := by
  rw [hops] at hlen henc ⊢
  obtain ⟨first, rest, rtBits, rfl, hlen, hrt, henc⟩ := encodeOperands_cons hlen henc
  obtain ⟨second, rest, targetBits, rfl, hlen, hpcrel, henc⟩ := encodeOperands_cons hlen henc
  obtain ⟨rfl, rfl⟩ := encodeOperands_nil hlen henc
  obtain ⟨r, rfl, hindex, hbits⟩ := encodeRtRegister_branch (.inl hclass) hrt
  obtain ⟨target, imm, rfl, rfl, hlow, hhigh, hoffset⟩ := encodePcrel_ok hpcrel
  -- the register number, its width and the target land in separate fields
  have hfields : Vacant (row.opcode ||| rtBits) 5 19 ∧
      bitsOf (row.opcode ||| rtBits) 0 5 = r.index ∧
      r.regClass = (if (row.opcode ||| rtBits).getLsbD 31 then .x else .w) := by
    rcases hbits with ⟨hw, rfl⟩ | ⟨hx, -, rfl⟩ | ⟨-, hbad, -⟩
    · refine ⟨?_, bitsOf_placeAt hregister hindex (by omega), ?_⟩
      · exact (extract_or_placeAt _ hindex (by omega)).trans htarget
      · have hbit : bitsOf (row.opcode ||| placeAt r.index 0) 31 1 = 0 := by
          rw [bitsOf_eq _ (by omega), extract_or_placeAt _ hindex (by omega), hwidth]
          rfl
        rw [getLsbD_eq_bitsOf, hbit, hw]
        rfl
    · have hone : (1 : Nat) < 2 ^ 1 := by decide
      have hregister' : Vacant (row.opcode ||| placeAt 1 31) 0 5 :=
        (extract_or_placeAt _ hone (by omega)).trans hregister
      rw [← BitVec.or_assoc]
      refine ⟨?_, bitsOf_placeAt hregister' hindex (by omega), ?_⟩
      · exact (extract_or_placeAt _ hindex (by omega)).trans
          ((extract_or_placeAt _ hone (by omega)).trans htarget)
      · have hbit : bitsOf (row.opcode ||| placeAt 1 31 ||| placeAt r.index 0) 31 1 = 1 := by
          rw [bitsOf_congr (by omega) (extract_or_placeAt _ hindex (by omega))]
          exact bitsOf_placeAt hwidth hone (by omega)
        rw [getLsbD_eq_bitsOf, hbit, hx]
        rfl
    · rw [hclass] at hbad
      cases hbad
  obtain ⟨hvacant, hnumber, hregClass⟩ := hfields
  have hnumber' : bitsOf (row.opcode ||| rtBits ||| placeSignedAt imm 5 19) 0 5 = r.index := by
    rw [bitsOf_congr (by omega) (extract_or_placeSignedAt _ (by omega) (by omega)), hnumber]
  have hwidth' : (row.opcode ||| rtBits ||| placeSignedAt imm 5 19).getLsbD 31
      = (row.opcode ||| rtBits).getLsbD 31 := by
    rw [getLsbD_eq_bitsOf, getLsbD_eq_bitsOf,
      bitsOf_congr (by omega) (extract_or_placeSignedAt _ (by omega) (by omega))]
  have hrtReg : rtReg (row.opcode ||| rtBits ||| placeSignedAt imm 5 19) row = r := by
    rw [rtReg_compare hname, hnumber', gpReg, hwidth']
    cases hbit : (row.opcode ||| rtBits).getLsbD 31 <;> rw [hbit] at hregClass <;>
      simp only [if_true, Bool.false_eq_true, if_false, xReg, wReg] at hregClass ⊢ <;>
      rw [← hregClass]
  simp only [decodeOperands, decodeOperand, bind, Except.bind, pure, Except.pure, hrtReg, imm19,
    signedBitsOf_placeSignedAt hvacant (by omega) (by omega) hlow hhigh,
    branchTarget_of_offset hoffset, List.map_cons, List.map_nil, shownOperand, htest.1, htest.2,
    or_self, if_false]

/-- The operands of a `tbz` or `tbnz` read back, up to the register's width. -/
theorem decodeOperands_test {m : Aarch64Mnemonic} {row : Aarch64Opcode} {address : U64}
    {operands : List DecodedOperand} {w : Word} (hops : row.operands = [.rt, .bitNum, .addrPcrel14])
    (hclass : row.iclass = .testbranch) (hname : row.name = "tbz" ∨ row.name = "tbnz")
    (htarget : Vacant row.opcode 5 14) (hregister : Vacant row.opcode 0 5)
    (hhighBit : Vacant row.opcode 31 1) (hlowBits : Vacant row.opcode 19 5)
    (htest : m = .tbz ∨ m = .tbnz) (hlen : row.operands.length = operands.length)
    (henc : encodeOperands row address row.opcode row.operands operands = .ok w) :
    decodeOperands w address row 0 row.operands = .ok (operands.map (shownOperand m)) := by
  rw [hops] at hlen henc ⊢
  obtain ⟨first, rest, rtBits, rfl, hlen, hrt, henc⟩ := encodeOperands_cons hlen henc
  obtain ⟨second, rest, bitBits, rfl, hlen, hbit, henc⟩ := encodeOperands_cons hlen henc
  obtain ⟨third, rest, targetBits, rfl, hlen, hpcrel, henc⟩ := encodeOperands_cons hlen henc
  obtain ⟨rfl, rfl⟩ := encodeOperands_nil hlen henc
  obtain ⟨r, rfl, hindex, hbits⟩ := encodeRtRegister_branch (.inr hclass) hrt
  obtain ⟨bit, rfl, hbitRange, rfl⟩ := encodeBitNum_ok hbit
  obtain ⟨target, imm, rfl, rfl, hlow, hhigh, hoffset⟩ := encodePcrel_ok hpcrel
  have hrtBits : rtBits = placeAt r.index 0 := by
    rcases hbits with ⟨-, h⟩ | ⟨-, hbad, -⟩ | ⟨-, -, h⟩
    · exact h
    · rw [hclass] at hbad
      cases hbad
    · exact h
  have hhigh1 : bit / 32 < 2 ^ 1 := by omega
  have hlow5 : bit % 32 < 2 ^ 5 := by omega
  rw [hrtBits, ← BitVec.or_assoc]
  -- `base` grows slot by slot; each later slot leaves the earlier fields alone
  have hregister1 : bitsOf (row.opcode ||| placeAt r.index 0) 0 5 = r.index :=
    bitsOf_placeAt hregister hindex (by omega)
  have hhigh2 : Vacant (row.opcode ||| placeAt r.index 0) 31 1 :=
    (extract_or_placeAt _ hindex (by omega)).trans hhighBit
  have hlow2 : Vacant (row.opcode ||| placeAt r.index 0 ||| placeAt (bit / 32) 31) 19 5 :=
    (extract_or_placeAt _ hhigh1 (by omega)).trans
      ((extract_or_placeAt _ hindex (by omega)).trans hlowBits)
  have htarget3 : Vacant
      (row.opcode ||| placeAt r.index 0 ||| placeAt (bit / 32) 31 ||| placeAt (bit % 32) 19) 5 14 :=
    (extract_or_placeAt _ hlow5 (by omega)).trans
      ((extract_or_placeAt _ hhigh1 (by omega)).trans
        ((extract_or_placeAt _ hindex (by omega)).trans htarget))
  have hnumber : bitsOf (row.opcode ||| placeAt r.index 0 ||| placeAt (bit / 32) 31
      ||| placeAt (bit % 32) 19 ||| placeSignedAt imm 5 14) 0 5 = r.index := by
    rw [bitsOf_congr (by omega) (extract_or_placeSignedAt _ (by omega) (by omega)),
      bitsOf_congr (by omega) (extract_or_placeAt _ hlow5 (by omega)),
      bitsOf_congr (by omega) (extract_or_placeAt _ hhigh1 (by omega)), hregister1]
  have hbitHigh : bitsOf (row.opcode ||| placeAt r.index 0 ||| placeAt (bit / 32) 31
      ||| placeAt (bit % 32) 19 ||| placeSignedAt imm 5 14) 31 1 = bit / 32 := by
    rw [bitsOf_congr (by omega) (extract_or_placeSignedAt _ (by omega) (by omega)),
      bitsOf_congr (by omega) (extract_or_placeAt _ hlow5 (by omega))]
    exact bitsOf_placeAt hhigh2 hhigh1 (by omega)
  have hbitLow : bitsOf (row.opcode ||| placeAt r.index 0 ||| placeAt (bit / 32) 31
      ||| placeAt (bit % 32) 19 ||| placeSignedAt imm 5 14) 19 5 = bit % 32 := by
    rw [bitsOf_congr (by omega) (extract_or_placeSignedAt _ (by omega) (by omega))]
    exact bitsOf_placeAt hlow2 hlow5 (by omega)
  have hrtReg : rtReg (row.opcode ||| placeAt r.index 0 ||| placeAt (bit / 32) 31
      ||| placeAt (bit % 32) 19 ||| placeSignedAt imm 5 14) row = xReg r.index := by
    rw [rtReg_test hname, hnumber]
  have hnum : ((bit / 32 : Nat) : Int) * 32 + ((bit % 32 : Nat) : Int) = bit := by omega
  simp only [decodeOperands, decodeOperand, bind, Except.bind, pure, Except.pure, hrtReg, imm14,
    hbitHigh, hbitLow, hnum,
    signedBitsOf_placeSignedAt htarget3 (by omega) (by omega) hlow hhigh,
    branchTarget_of_offset hoffset, List.map_cons, List.map_nil, shownOperand, htest, if_true]

/-- **An encoded branch decodes to itself**, the width of a tested register
apart. -/
theorem decodeInstruction_of_encode_branch {m : Aarch64Mnemonic} {row : Aarch64Opcode}
    {address : U64} {operands : List DecodedOperand} {w : Word} (h : branchRow m = some row)
    (henc : encodeInstruction ⟨address, m, operands⟩ = .ok w) :
    decodeInstruction address w = .ok ⟨address, w, m, operands.map (shownOperand m)⟩ := by
  obtain ⟨hlen, hops, hmask⟩ := encodeInstruction_branch h henc
  have hdecode : decodeOperands w address row 0 row.operands =
      .ok (operands.map (shownOperand m)) := by
    cases branchShape h with
    | imm26 hkinds htarget htest =>
      rw [hkinds] at hlen hops ⊢
      obtain ⟨first, rest, bits, rfl, hlen, hpcrel, hops⟩ := encodeOperands_cons hlen hops
      obtain ⟨rfl, rfl⟩ := encodeOperands_nil hlen hops
      have hslot := decodeOperands_pcrel hpcrel htarget (by omega) (by omega) m
      simp only [decodeOperands, decodeOperand, bind, Except.bind, pure, Except.pure, imm26, hslot,
        List.map_cons, List.map_nil]
    | imm19 hkinds htarget htest =>
      rw [hkinds] at hlen hops ⊢
      obtain ⟨first, rest, bits, rfl, hlen, hpcrel, hops⟩ := encodeOperands_cons hlen hops
      obtain ⟨rfl, rfl⟩ := encodeOperands_nil hlen hops
      have hslot := decodeOperands_pcrel hpcrel htarget (by omega) (by omega) m
      simp only [decodeOperands, decodeOperand, bind, Except.bind, pure, Except.pure, imm19, hslot,
        List.map_cons, List.map_nil]
    | compare hkinds hclass hname htarget hregister hwidth htest =>
      exact decodeOperands_compare hkinds hclass hname htarget hregister hwidth htest hlen hops
    | test hkinds hclass hname htarget hregister hhigh hlow htest =>
      exact decodeOperands_test hkinds hclass hname htarget hregister hhigh hlow htest hlen hops
  unfold decodeInstruction
  rw [matchOpcode_branch h (fixedBits_of_maskMatches h hmask)]
  simp only [hdecode, parse_branchRow h]
  rfl

/-! ## §5. Where the target stands. -/

/-- The operand is a PC-relative target. -/
def DecodedOperand.isTarget : DecodedOperand → Bool
  | .branchTarget _ | .pageTarget _ => true
  | _ => false

/-- A branch's operands: the target comes last, and nothing else is one. -/
def TargetLast (pre : List DecodedOperand) (target : U64) (operands : List DecodedOperand) : Prop :=
  operands = pre ++ [.branchTarget target] ∧ ∀ o ∈ pre, o.isTarget = false

theorem encodePcrel_target {kind : Aarch64Opnd} {operand : DecodedOperand} {address : U64}
    {len lo : Nat} {bits : Word} (h : encodePcrel kind operand address len lo = .ok bits) :
    ∃ target, operand = .branchTarget target := by
  obtain ⟨target, _, rfl, -⟩ := encodePcrel_ok h
  exact ⟨target, rfl⟩

/-- The operands of a branch that encodes end in its target. -/
theorem targetLast_of_encode_branch {m : Aarch64Mnemonic} {row : Aarch64Opcode} {address : U64}
    {operands : List DecodedOperand} {w : Word} (h : branchRow m = some row)
    (henc : encodeInstruction ⟨address, m, operands⟩ = .ok w) :
    ∃ pre target, TargetLast pre target operands := by
  obtain ⟨hlen, hops, -⟩ := encodeInstruction_branch h henc
  cases branchShape h with
  | imm26 hkinds htarget htest =>
    rw [hkinds] at hlen hops
    obtain ⟨first, rest, bits, rfl, hlen, hpcrel, hops⟩ := encodeOperands_cons hlen hops
    obtain ⟨rfl, -⟩ := encodeOperands_nil hlen hops
    obtain ⟨target, rfl⟩ := encodePcrel_target hpcrel
    exact ⟨[], target, rfl, by simp⟩
  | imm19 hkinds htarget htest =>
    rw [hkinds] at hlen hops
    obtain ⟨first, rest, bits, rfl, hlen, hpcrel, hops⟩ := encodeOperands_cons hlen hops
    obtain ⟨rfl, -⟩ := encodeOperands_nil hlen hops
    obtain ⟨target, rfl⟩ := encodePcrel_target hpcrel
    exact ⟨[], target, rfl, by simp⟩
  | compare hkinds hclass hname htarget hregister hwidth htest =>
    rw [hkinds] at hlen hops
    obtain ⟨first, rest, rtBits, rfl, hlen, hrt, hops⟩ := encodeOperands_cons hlen hops
    obtain ⟨second, rest, bits, rfl, hlen, hpcrel, hops⟩ := encodeOperands_cons hlen hops
    obtain ⟨rfl, -⟩ := encodeOperands_nil hlen hops
    obtain ⟨r, rfl, -⟩ := encodeRtRegister_branch (.inl hclass) hrt
    obtain ⟨target, rfl⟩ := encodePcrel_target hpcrel
    exact ⟨[.register r], target, rfl, by simp [DecodedOperand.isTarget]⟩
  | test hkinds hclass hname htarget hregister hhigh hlow htest =>
    rw [hkinds] at hlen hops
    obtain ⟨first, rest, rtBits, rfl, hlen, hrt, hops⟩ := encodeOperands_cons hlen hops
    obtain ⟨second, rest, bitBits, rfl, hlen, hbit, hops⟩ := encodeOperands_cons hlen hops
    obtain ⟨third, rest, bits, rfl, hlen, hpcrel, hops⟩ := encodeOperands_cons hlen hops
    obtain ⟨rfl, -⟩ := encodeOperands_nil hlen hops
    obtain ⟨r, rfl, -⟩ := encodeRtRegister_branch (.inr hclass) hrt
    obtain ⟨bit, rfl, -⟩ := encodeBitNum_ok hbit
    obtain ⟨target, rfl⟩ := encodePcrel_target hpcrel
    exact ⟨[.register r, .immediate bit], target, rfl, by simp [DecodedOperand.isTarget]⟩

/-- A decoded branch was decoded from its one row. -/
theorem decodeInstruction_branch {address : U64} {w : Word} {d : DecodedInstruction}
    {row : Aarch64Opcode} (hdecode : decodeInstruction address w = .ok d)
    (h : branchRow d.mnemonic = some row) :
    decodeOperands w address row 0 row.operands = .ok d.operands := by
  unfold decodeInstruction at hdecode
  split at hdecode
  · cases hdecode
  · next row' hmatch =>
    obtain ⟨operands, hoperands, hd⟩ := bind_eq_ok.mp hdecode
    cases hd
    have hmem : row' ∈ opcodesForMnemonic (.parse row'.name) :=
      List.mem_filter.mpr ⟨(matchOpcode_spec hmatch).1, by simp [mnemonicId]⟩
    rw [opcodesForMnemonic_branch h, List.mem_singleton] at hmem
    cases hmem
    exact hoperands

/-- The operands of a decoded branch end in its target, and a tested register
is shown as 64-bit. -/
theorem targetLast_of_decode_branch {address : U64} {w : Word} {d : DecodedInstruction}
    {row : Aarch64Opcode} (hdecode : decodeInstruction address w = .ok d)
    (h : branchRow d.mnemonic = some row) :
    ∃ pre target, TargetLast pre target d.operands ∧
      ∀ o ∈ pre, shownOperand d.mnemonic o = o := by
  have hops := decodeInstruction_branch hdecode h
  cases branchShape h with
  | imm26 hkinds htarget htest =>
    rw [hkinds] at hops
    exact ⟨[], _, ⟨(Except.ok.inj hops).symm, by simp⟩, by simp⟩
  | imm19 hkinds htarget htest =>
    rw [hkinds] at hops
    exact ⟨[], _, ⟨(Except.ok.inj hops).symm, by simp⟩, by simp⟩
  | compare hkinds hclass hname htarget hregister hwidth htest =>
    rw [hkinds] at hops
    refine ⟨[.register (rtReg w row)], _, ⟨(Except.ok.inj hops).symm, ?_⟩, ?_⟩
    · simp [DecodedOperand.isTarget]
    · simp [shownOperand, htest.1, htest.2]
  | test hkinds hclass hname htarget hregister hhigh hlow htest =>
    rw [hkinds] at hops
    refine ⟨[.register (rtReg w row), .immediate (bitsOf w 31 1 * 32 + bitsOf w 19 5)], _,
      ⟨(Except.ok.inj hops).symm, ?_⟩, ?_⟩
    · simp [DecodedOperand.isTarget]
    · simp [shownOperand, htest, rtReg_test hname, xReg]

end Armv8Encode

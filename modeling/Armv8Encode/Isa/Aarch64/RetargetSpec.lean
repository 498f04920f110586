/-
  Armv8Encode.Isa.Aarch64.RetargetSpec — which instructions retarget.

  A word that decodes to an operand with a PC-relative target matched one of
  27 rows.  All but three kinds of words keep what they hold besides the
  displacement (`retargets_of_keeps`); a 64-bit or SIMD&FP literal load and an
  always-true `b.cond` encode to another word or to none, whatever the target
  (`retargets_iff`).
-/
import Armv8Encode.Isa.Aarch64.Retarget

namespace Armv8Encode.Aarch64

open Lib Aarch64Opcode

/-! ## §1. Rows with a target. -/

/-- The slots that show a target as a branch target. -/
def branchTargetKinds : List Aarch64Opnd := [.addrPcrel14, .addrPcrel19, .addrPcrel21, .addrPcrel26]

/-- What a slot that shows a target is and shows. -/
theorem targetKind_of_decode {kind : Aarch64Opnd} {w : Word} {address : U64} {row : Aarch64Opcode}
    {index : Nat} {o : DecodedOperand} (h : decodeOperand kind w address row index = .ok o)
    (htarget : o.isTarget = true) :
    (kind ∈ branchTargetKinds ∧ ∃ target, o = .branchTarget target) ∨ kind = .addrAdrp := by
  cases kind
  case addrPcrel14 | addrPcrel19 | addrPcrel21 | addrPcrel26 =>
    cases h
    exact .inl ⟨by decide, _, rfl⟩
  case addrAdrp => exact .inr rfl
  case limm =>
    simp only [decodeOperand] at h
    split at h <;> cases h
    cases htarget
  case simdImm =>
    simp only [decodeOperand, simdImm] at h
    split at h <;> cases h <;> cases htarget
  all_goals
    cases h
    cases htarget

/-- The rows with a target; two conditions stand in the table under a second name. -/
def targetRows : List Aarch64Opcode :=
  branchMnemonics.filterMap branchRow ++ addressRows.map Prod.snd ++
    [alwaysConditionRow, simdLiteralRow, condBranchRow "bhs" 2, condBranchRow "blo" 3]

set_option maxRecDepth 20000 in
theorem targetRows_found :
    (aarch64OpcodeTable.filter fun row =>
        row.operands.any fun kind => branchTargetKinds.contains kind || kind == .addrAdrp).all
      targetRows.contains = true := by
  decide

theorem mem_targetRows {w : Word} {row : Aarch64Opcode} {kind : Aarch64Opnd}
    (hmatch : matchOpcode w = some row) (hkind : kind ∈ row.operands)
    (htarget : kind ∈ branchTargetKinds ∨ kind = .addrAdrp) : row ∈ targetRows := by
  refine List.contains_iff_mem.mp (List.all_eq_true.mp targetRows_found row ?_)
  refine List.mem_filter.mpr ⟨(matchOpcode_spec hmatch).1, List.any_eq_true.mpr ⟨kind, hkind, ?_⟩⟩
  rw [Bool.or_eq_true, List.contains_iff_mem, beq_iff_eq]
  exact htarget

/-- No word matches the second row of a condition. -/
theorem not_secondName {w : Word} {m : Aarch64Mnemonic} {name : String} {cond : Nat}
    {row : Aarch64Opcode} (hrow : branchRow m = some row) (hname : row.name ≠ name)
    (hsame : row.mask = (condBranchRow name cond).mask ∧ row.opcode = (condBranchRow name cond).opcode ∧
      (condBranchRow name cond).opcode &&& (condBranchRow name cond).mask
        = (condBranchRow name cond).opcode) :
    matchOpcode w ≠ some (condBranchRow name cond) := by
  intro hmatch
  have hw := fixedBits_of_match hmatch
  rw [hsame.2.2, ← hsame.1, ← hsame.2.1] at hw
  rw [matchOpcode_branch hrow hw] at hmatch
  cases hmatch
  exact hname rfl

theorem targetRow_cases {w : Word} {row : Aarch64Opcode} (hmatch : matchOpcode w = some row)
    (hmem : row ∈ targetRows) :
    (∃ m, branchRow m = some row) ∨ (∃ m, (m, row) ∈ addressRows) ∨ row = alwaysConditionRow ∨
      row = simdLiteralRow := by
  rw [targetRows, List.mem_append, List.mem_append, List.mem_filterMap, List.mem_map] at hmem
  rcases hmem with (⟨m, -, hrow⟩ | ⟨⟨m, row'⟩, hentry, rfl⟩) | hrest
  · exact .inl ⟨m, hrow⟩
  · exact .inr (.inl ⟨m, hentry⟩)
  · simp only [List.mem_cons, List.not_mem_nil, or_false] at hrest
    rcases hrest with h | h | h | h
    · exact .inr (.inr (.inl h))
    · exact .inr (.inr (.inr h))
    · rw [h] at hmatch
      exact absurd hmatch (not_secondName (m := .bcs) rfl (by decide) (by decide))
    · rw [h] at hmatch
      exact absurd hmatch (not_secondName (m := .bcc) rfl (by decide) (by decide))

/-! ## §2. Words that keep what they hold. -/

theorem keepsWord_family {m : Aarch64Mnemonic} {row : Aarch64Opcode} {w : Word}
    (h : branchRow m = some row) (hw : w &&& row.mask = row.opcode) :
    ∃ kinds operands, KeepsWord row (targetSlot m) w kinds operands := by
  cases m <;> simp only [branchRow, reduceCtorEq, Option.some.injEq] at h <;> subst h
  case cbz | cbnz => exact ⟨_, _, keepsWord_compare rfl rfl (by decide) rfl hw⟩
  case tbz | tbnz => exact ⟨_, _, keepsWord_test rfl rfl (by decide) rfl hw⟩
  all_goals exact ⟨_, _, keepsWord_nil rfl (by decide) hw⟩

theorem keepsWord_addressRow {m : Aarch64Mnemonic} {row : Aarch64Opcode} {w : Word}
    (h : (m, row) ∈ addressRows) (hw : w &&& row.mask = row.opcode)
    (hdouble : w &&& 0xff000000#32 ≠ 0x58000000#32) :
    ∃ kind operand, KeepsWord row (targetSlot m) w [kind] [operand] := by
  simp only [addressRows, List.mem_cons, Prod.mk.injEq, List.not_mem_nil, or_false] at h
  rcases h with ⟨rfl, rfl⟩ | ⟨rfl, rfl⟩ | ⟨rfl, rfl⟩ | ⟨rfl, rfl⟩ | ⟨rfl, rfl⟩
  · exact ⟨_, _, keepsWord_address rfl rfl (by decide) rfl rfl hw⟩
  · exact ⟨_, _, keepsWord_address rfl rfl (by decide) rfl rfl hw⟩
  · have hsplit : w &&& 0xff000000#32 = (w &&& 0xbf000000#32) ||| (w &&& 0x40000000#32) := by
      rw [← BitVec.and_or_distrib_left]
      rfl
    have hfixed : w &&& 0xbf000000#32 = 0x18000000#32 := hw
    have hbit : w &&& 0x40000000#32 = 0#32 ∨ w &&& 0x40000000#32 = 0x40000000#32 :=
      and_twoPow_eq_or w 30
    rw [hsplit, hfixed] at hdouble
    rcases hbit with hbit | hbit
    · refine ⟨_, _, keepsWord_literalWord ?_⟩
      rw [hsplit, hfixed, hbit]
      rfl
    · rw [hbit] at hdouble
      exact absurd rfl hdouble
  · exact ⟨_, _, keepsWord_signedLiteral hw⟩
  · exact ⟨_, _, keepsWord_prefetchLiteral hw⟩

/-- A slot in reach shows a target, and with the target replaced the new one. -/
theorem slot_shows {slot : Aarch64Opnd} {address target : U64} (hreach : InReach slot address target)
    (w : Word) (a : U64) (row : Aarch64Opcode) :
    ∃ o, (∀ index, decodeOperand slot w a row index = .ok o) ∧
      retargeted target o = slotOperand slot target := by
  cases slot
  case addrPcrel14 | addrPcrel19 | addrPcrel21 | addrPcrel26 | addrAdrp =>
    exact ⟨_, fun _ => rfl, rfl⟩
  all_goals exact hreach.elim

theorem showsTarget_slotOperand (slot : Aarch64Opnd) (target : U64) :
    showsTarget target (slotOperand slot target) := by
  unfold slotOperand showsTarget
  split
  · exact .inr rfl
  · exact .inl rfl

/-- **A word whose slots keep it retargets**: the new word decodes to the same
instruction for the new target. -/
theorem retargets_of_keeps {a address target : U64} {w : Word} {d : DecodedInstruction}
    {row : Aarch64Opcode} {kinds : List Aarch64Opnd} {operands : List DecodedOperand}
    {earlier later : List Aarch64Opcode} (hdecode : decodeInstruction a w = .ok d)
    (hmatch : matchOpcode w = some row) (hown : OwnRow d.mnemonic row)
    (hkeeps : KeepsWord row (targetSlot d.mnemonic) w kinds operands)
    (hrows : opcodesForMnemonic d.mnemonic = earlier ++ row :: later)
    (hearlier : ∀ r ∈ earlier, TurnsDown
      ⟨address, d.mnemonic, operands ++ [slotOperand (targetSlot d.mnemonic) target]⟩ r)
    (hreach : InReach (targetSlot d.mnemonic) address target)
    (hwrap : targetSlot d.mnemonic = .addrAdrp ∨ NoWrap address target) :
    ∃ word, encodeInstruction ⟨address, d.mnemonic, d.operands.map (retargeted target)⟩ = .ok word ∧
      word &&& ~~~displacementField (targetSlot d.mnemonic)
        = d.word &&& ~~~displacementField (targetSlot d.mnemonic) ∧
      decodeInstruction address word
        = .ok ⟨address, word, d.mnemonic, d.operands.map (retargeted target)⟩ ∧
      ∃ o ∈ d.operands.map (retargeted target), showsTarget target o := by
  obtain ⟨row', hmatch', hoperands, -, hword, -⟩ := decodeInstruction_row hdecode
  rw [hmatch] at hmatch'
  cases hmatch'
  have hw : w &&& row.mask = row.opcode := by rw [fixedBits_of_match hmatch, hown.within]
  obtain ⟨o, hslot, hshown⟩ := slot_shows hreach w a row
  have hshape : d.operands = operands ++ [o] := by
    rw [hkeeps.slots, decodeOperands_append (hkeeps.decoded w a rfl) hslot] at hoperands
    exact (Except.ok.inj hoperands).symm
  have hmap : d.operands.map (retargeted target)
      = operands ++ [slotOperand (targetSlot d.mnemonic) target] := by
    rw [hshape, List.map_append, List.map_singleton, hshown,
      List.map_congr_left (hkeeps.kept target), List.map_id']
  obtain ⟨bits, hholds⟩ := slotHolds hreach hwrap
  obtain ⟨word, hencode, houtside, hnew⟩ :=
    retarget_of_keepsWord hkeeps hown hw hrows hearlier hholds
  rw [hmap, hword]
  exact ⟨word, hencode, houtside, hnew, _, List.mem_append_right _ List.mem_cons_self,
    showsTarget_slotOperand _ _⟩

/-! ## §3. What an encoded word was encoded by. -/

/-- A row encodes the operands to a word that has the row's fixed bits. -/
def EncodedBy (t : InstructionTemplate) (row : Aarch64Opcode) (w : Word) : Prop :=
  ∃ word bits, row.operands.length = t.operands.length ∧
    encodeOperands row t.address row.opcode row.operands t.operands = .ok word ∧
    aliasImplicitBits t.mnemonic t.operands = .ok bits ∧ w = word ||| bits ∧ row.maskMatches w

theorem tryCandidates_ok {t : InstructionTemplate} {w : Word} {rows : List Aarch64Opcode}
    {lastError : Option EncodeError} (h : tryCandidates t lastError rows = .ok w) :
    ∃ row ∈ rows, EncodedBy t row w := by
  induction rows generalizing lastError with
  | nil => cases h
  | cons row rows ih =>
    have hrest : ∀ {e}, tryCandidates t e rows = .ok w → ∃ r ∈ row :: rows, EncodedBy t r w := by
      intro e he
      obtain ⟨r, hr, hby⟩ := ih he
      exact ⟨r, List.mem_cons_of_mem _ hr, hby⟩
    rw [tryCandidates] at h
    split at h
    · exact hrest h
    · next hlen =>
      split at h
      · exact hrest h
      · exact hrest h
      · cases h
      · next word hword =>
        split at h
        · cases h
        · next bits hbits =>
          split at h
          · next hmask =>
            cases h
            exact ⟨row, List.mem_cons_self, word, bits, not_not.mp hlen, hword, hbits, rfl, hmask⟩
          · exact hrest h

/-- An encoded word was encoded by a row of its mnemonic. -/
theorem encodeInstruction_ok {t : InstructionTemplate} {w : Word} (h : encodeInstruction t = .ok w) :
    ∃ row ∈ opcodesForMnemonic t.mnemonic, EncodedBy t row w := by
  unfold encodeInstruction at h
  simp only at h
  split at h
  · cases h
  · exact tryCandidates_ok h

/-- The row of an encoded word whose fixed bits are known. -/
theorem mem_of_encoded {m : Aarch64Mnemonic} {w known value : Word} {row : Aarch64Opcode}
    {rows : List Aarch64Opcode} (hrow : row ∈ opcodesForMnemonic m) (hmask : row.maskMatches w)
    (hw : w &&& known = value) (hrows : aarch64OpcodeTable.filter (compatible known value) = rows) :
    row ∈ rows := by
  rw [← hrows]
  exact List.mem_filter.mpr ⟨(List.mem_filter.mp hrow).1, compatible_of_maskMatches hw hmask⟩

theorem mem_of_encodeOperands {row : Aarch64Opcode} {address : U64} {base word : Word}
    {kinds : List Aarch64Opnd} {operands : List DecodedOperand} {o : DecodedOperand}
    (hlen : kinds.length = operands.length)
    (h : encodeOperands row address base kinds operands = .ok word) (ho : o ∈ operands) :
    ∃ kind base' bits, encodeOperand kind o ⟨base', address, row⟩ = .ok bits := by
  induction kinds generalizing base operands with
  | nil =>
    obtain rfl : operands = [] := List.length_eq_zero_iff.mp hlen.symm
    cases ho
  | cons kind kinds ih =>
    obtain ⟨first, rest, bits, rfl, hlen', hfirst, hrest⟩ := encodeOperands_cons hlen h
    rcases List.mem_cons.mp ho with rfl | ho
    · exact ⟨kind, base, bits, hfirst⟩
    · exact ih hlen' hrest ho

/-! ## §4. A target across the end of the address space. -/

theorem noWrap_of_near {address target : U64}
    (hlow : -(2 ^ 63) ≤ (target.toNat : Int) - address.toNat)
    (hhigh : (target.toNat : Int) - address.toNat < 2 ^ 63) : NoWrap address target := by
  have ht := target.isLt
  have ha := address.isLt
  rw [NoWrap, displacement, BitVec.toInt_eq_toNat_cond, BitVec.toNat_sub]
  split <;> omega

theorem noWrap_of_encodePcrel {kind : Aarch64Opnd} {address target : U64} {len lo : Nat} {bits : Word}
    (hlen : len ≤ 32) (h : encodePcrel kind (.branchTarget target) address len lo = .ok bits) :
    NoWrap address target := by
  obtain ⟨target', imm, htarget, -, hlow, hhigh, hoffset⟩ := encodePcrel_ok h
  cases htarget
  have hle : (2 : Int) ^ (len - 1) ≤ 2 ^ 31 := pow_le_pow_right₀ (by omega) (by omega)
  exact noWrap_of_near (by omega) (by omega)

/-- No slot but that of `adrp` reaches across the end of the address space. -/
theorem noWrap_of_encodeOperand {kind : Aarch64Opnd} {target : U64} {ctx : EncodeContext}
    {bits : Word} (h : encodeOperand kind (.branchTarget target) ctx = .ok bits) :
    NoWrap ctx.address target := by
  cases kind
  case addrPcrel14 => exact noWrap_of_encodePcrel (by omega) h
  case addrPcrel19 => exact noWrap_of_encodePcrel (by omega) h
  case addrPcrel26 => exact noWrap_of_encodePcrel (by omega) h
  case addrPcrel21 =>
    simp only [encodeOperand, encodePcrel21] at h
    split at h
    · next hrange => exact noWrap_of_near (by omega) (by omega)
    · cases h
  case rd =>
    simp only [encodeOperand, encodeRdRegister] at h
    split at h
    · cases h
    · split at h <;> cases h
  all_goals cases h

/-! ## §5. Words that lose what they hold. -/

/-- The words that lose a field: an always-true `b.cond` its condition, a 64-bit
literal load its width, a SIMD&FP literal load its width or its register. -/
def losesField (w : Word) : Bool :=
  w &&& 0xff00001e#32 == 0x5400000e#32 || w &&& 0xff000000#32 == 0x58000000#32 ||
    w &&& 0x3f000000#32 == 0x1c000000#32

set_option maxRecDepth 20000 in
theorem generalLiteral_compatible :
    aarch64OpcodeTable.filter (compatible 0xff000000#32 0x58000000#32) = [generalLiteralRow] := by
  decide

set_option maxRecDepth 20000 in
theorem simdLiteral_compatible :
    aarch64OpcodeTable.filter (compatible 0x3f000000#32 0x1c000000#32) = [simdLiteralRow] := by
  decide

/-- Where fixed bits outside the displacement leave one row open, that row
decodes the word and encodes the new one. -/
theorem encodedBy_of_retargets {a address target : U64} {w known value : Word}
    {d : DecodedInstruction} {row : Aarch64Opcode} (hdecode : decodeInstruction a w = .ok d)
    (hretargets : Retargets d address target) (hknown : w &&& known = value)
    (hrows : aarch64OpcodeTable.filter (compatible known value) = [row])
    (hinside : known &&& ~~~displacementField (targetSlot (.parse row.name)) = known) :
    d.mnemonic = .parse row.name ∧ decodeOperands w a row 0 row.operands = .ok d.operands ∧
      ∃ word, EncodedBy ⟨address, d.mnemonic, d.operands.map (retargeted target)⟩ row word ∧
        word &&& ~~~displacementField (targetSlot d.mnemonic)
          = w &&& ~~~displacementField (targetSlot d.mnemonic) := by
  obtain ⟨row', hmatch, hoperands, -, hword, hmnemonic⟩ := decodeInstruction_row hdecode
  obtain rfl := List.mem_singleton.mp (mem_of_compatible hmatch hknown hrows)
  obtain ⟨word, hencode, houtside, -⟩ := hretargets
  rw [hword] at houtside
  refine ⟨hmnemonic, hoperands, word, ?_, houtside⟩
  rw [← hmnemonic] at hinside
  have hnew : word &&& known = value := by
    rw [and_of_known houtside (by rw [hinside]), BitVec.and_assoc, BitVec.and_comm _ known,
      hinside, hknown]
  obtain ⟨row, hrow, hby⟩ := encodeInstruction_ok hencode
  have hmask : row.maskMatches word := by
    obtain ⟨-, -, -, -, -, -, hmask⟩ := hby
    exact hmask
  obtain rfl := List.mem_singleton.mp (mem_of_encoded hrow hmask hnew hrows)
  exact hby

theorem encodePcrel19_ok {o : DecodedOperand} {ctx : EncodeContext} {bits : Word}
    (h : encodeOperand .addrPcrel19 o ctx = .ok bits) : ∃ imm, bits = placeSignedAt imm 5 19 := by
  change encodePcrel .addrPcrel19 o ctx.address 19 5 = .ok bits at h
  obtain ⟨-, imm, -, hbits, -⟩ := encodePcrel_ok h
  exact ⟨imm, hbits⟩

/-- An always-true `b.cond` is encoded without its condition. -/
theorem always_not_retargets {a address target : U64} {w : Word} {d : DecodedInstruction}
    (hdecode : decodeInstruction a w = .ok d) (hw : w &&& 0xff00001e#32 = 0x5400000e#32) :
    ¬ Retargets d address target := by
  intro hretargets
  have hparse : Aarch64Mnemonic.parse alwaysConditionRow.name = .other "b.c" := by decide
  obtain ⟨hmnemonic, -, word, ⟨word', bits, hlen, hops, hbits, rfl, -⟩, houtside⟩ :=
    encodedBy_of_retargets hdecode hretargets hw alwaysRows_compatible (by rw [hparse]; decide)
  rw [hparse] at hmnemonic
  simp only [hmnemonic] at hbits houtside
  obtain rfl : bits = 0#32 := (Except.ok.inj hbits).symm
  obtain ⟨o, rest, slotBits, -, hrestLen, hslot, hrest⟩ := encodeOperands_cons hlen hops
  obtain ⟨-, rfl⟩ := encodeOperands_nil hrestLen hrest
  obtain ⟨imm, rfl⟩ := encodePcrel19_ok hslot
  -- bits 3:1 hold the condition
  have hold : bitsOf w 1 3 = 7 := bitsOf_known hw (by decide) (by decide)
  have hnew : bitsOf (alwaysConditionRow.opcode ||| placeSignedAt imm 5 19) 1 3 = 0 := by
    rw [bitsOf_congr (by omega) (extract_or_placeSignedAt _ (by omega) (by omega))]
    decide
  have hsame := bitsOf_outside houtside (show fieldMask 32 1 3 &&& _ = _ by decide) (by omega)
  rw [BitVec.or_zero, hnew, hold] at hsame
  cases hsame

/-- A 64-bit literal load would set a bit that its row has clear. -/
theorem double_not_retargets {a address target : U64} {w : Word} {d : DecodedInstruction}
    (hdecode : decodeInstruction a w = .ok d) (hw : w &&& 0xff000000#32 = 0x58000000#32) :
    ¬ Retargets d address target := by
  intro hretargets
  have hparse : Aarch64Mnemonic.parse generalLiteralRow.name = .ldr := by decide
  obtain ⟨hmnemonic, hoperands, word, ⟨word', bits, hlen, hops, hbits, rfl, -⟩, houtside⟩ :=
    encodedBy_of_retargets hdecode hretargets hw generalLiteral_compatible (by rw [hparse]; decide)
  rw [hparse] at hmnemonic
  simp only [hmnemonic, ← Except.ok.inj hoperands] at hbits houtside hops
  obtain rfl : bits = 0#32 := (Except.ok.inj hbits).symm
  rw [rtReg_literalDouble hw] at hops
  change encodeOperands generalLiteralRow address _ [.rt, .addrPcrel19]
    [.register (xReg (bitsOf w 0 5)), .branchTarget target] = _ at hops
  obtain ⟨o, rest, rtBits, hcons, hrestLen, hrt, hops⟩ := encodeOperands_cons rfl hops
  cases hcons
  obtain ⟨o, rest, slotBits, hcons, hrestLen, hslot, hrest⟩ := encodeOperands_cons hrestLen hops
  cases hcons
  obtain ⟨-, rfl⟩ := encodeOperands_nil hrestLen hrest
  obtain ⟨imm, rfl⟩ := encodePcrel19_ok hslot
  have hsize : rtBits = placeAt 1 31 ||| placeAt (bitsOf w 0 5) 0 := by
    have hok := encodeRtRegister_of_size (r := xReg (bitsOf w 0 5)) (bitsOf_lt w 0 (by omega))
      (rtSizeBits_wide (show generalLiteralRow.iclass = .compbranch ∨ _ from .inr rfl)).2
    exact Except.ok.inj (hrt.symm.trans hok)
  -- the width goes to bit 31, which the row has clear
  have hold : bitsOf w 31 1 = 0 := bitsOf_known hw (by decide) (by decide)
  have hnew : bitsOf (generalLiteralRow.opcode ||| rtBits ||| placeSignedAt imm 5 19) 31 1 = 1 := by
    rw [bitsOf_congr (by omega) (extract_or_placeSignedAt _ (by omega) (by omega)), hsize,
      ← BitVec.or_assoc,
      bitsOf_congr (by omega) (extract_or_placeAt _ (bitsOf_lt w 0 (by omega)) (by omega))]
    decide
  have hsame := bitsOf_outside houtside (show fieldMask 32 31 1 &&& _ = _ by decide) (by omega)
  rw [BitVec.or_zero, hnew, hold] at hsame
  cases hsame

/-- What the register slot of a SIMD&FP literal load accepts and adds. -/
theorem encodeFtRegister_literal {r : Register} {bits : Word}
    (h : encodeFtRegister .ft (.register r) simdLiteralRow 0 = .ok bits) :
    (r.regClass = .s ∨ r.regClass = .d) ∧ bitsOf (simdLiteralRow.opcode ||| bits) 30 2 = 0 := by
  obtain ⟨r', hr, hbits⟩ := bind_eq_ok.mp h
  obtain ⟨hcase, hindex⟩ := registerOperand_ok hr
  cases hcase
  change encodeFpRegister .ft (.register r) 0 = _ at hbits
  rw [encodeFpRegister, hr] at hbits
  have hlt : r.index < 2 ^ 5 := by omega
  have hone : 1 < 2 ^ 1 := by decide
  simp only [bind, Except.bind] at hbits
  cases hclass : r.regClass <;> rw [hclass] at hbits
  case s =>
    cases hbits
    refine ⟨.inl rfl, ?_⟩
    rw [bitsOf_congr (by omega) (extract_or_placeAt _ hlt (by omega))]
    decide
  case d =>
    cases hbits
    refine ⟨.inr rfl, ?_⟩
    rw [← BitVec.or_assoc, bitsOf_congr (by omega) (extract_or_placeAt _ hlt (by omega)),
      bitsOf_congr (by omega) (extract_or_placeAt _ hone (by omega))]
    decide
  all_goals cases hbits

/-- A SIMD&FP literal load is encoded with its width field clear, for a register
class that a clear field never shows. -/
theorem simd_not_retargets {a address target : U64} {w : Word} {d : DecodedInstruction}
    (hdecode : decodeInstruction a w = .ok d) (hw : w &&& 0x3f000000#32 = 0x1c000000#32) :
    ¬ Retargets d address target := by
  intro hretargets
  have hparse : Aarch64Mnemonic.parse simdLiteralRow.name = .ldr := by decide
  obtain ⟨hmnemonic, hoperands, word, ⟨word', bits, hlen, hops, hbits, rfl, -⟩, houtside⟩ :=
    encodedBy_of_retargets hdecode hretargets hw simdLiteral_compatible (by rw [hparse]; decide)
  rw [hparse] at hmnemonic
  simp only [hmnemonic, ← Except.ok.inj hoperands] at hbits houtside hops
  obtain rfl : bits = 0#32 := (Except.ok.inj hbits).symm
  change encodeOperands simdLiteralRow address _ [.ft, .addrPcrel19]
    [.register (fpLdstReg (bitsOf w 0 5) w), .branchTarget target] = _ at hops
  obtain ⟨o, rest, ftBits, hcons, hrestLen, hft, hops⟩ := encodeOperands_cons rfl hops
  cases hcons
  obtain ⟨o, rest, slotBits, hcons, hrestLen, hslot, hrest⟩ := encodeOperands_cons hrestLen hops
  cases hcons
  obtain ⟨-, rfl⟩ := encodeOperands_nil hrestLen hrest
  obtain ⟨imm, rfl⟩ := encodePcrel19_ok hslot
  obtain ⟨hclass, hclear⟩ := encodeFtRegister_literal hft
  have hsame := bitsOf_outside houtside (show fieldMask 32 30 2 &&& _ = _ by decide) (by omega)
  rw [BitVec.or_zero, bitsOf_congr (by omega) (extract_or_placeSignedAt _ (by omega) (by omega)),
    hclear] at hsame
  -- with bits 31:30 clear the decoder shows `b` or `q`, as bit 23 says
  have hwidth : (fpLdstWidth w).1 = .b ∨ (fpLdstWidth w).1 = .q := by
    have hbit := bitsOf_lt w 23 (show 1 ≤ 32 by omega)
    rw [fpLdstWidth, ← hsame]
    have hcases : bitsOf w 23 1 = 0 ∨ bitsOf w 23 1 = 1 := by omega
    rcases hcases with hcase | hcase <;> rw [hcase]
    · exact .inl rfl
    · exact .inr rfl
  change (fpLdstWidth w).1 = .s ∨ (fpLdstWidth w).1 = .d at hclass
  rcases hwidth with hwidth | hwidth <;> rw [hwidth] at hclass <;> rcases hclass with h | h <;> cases h

/-! ## §6. Which instructions retarget. -/

theorem losesField_eq_false {w : Word} : losesField w = false ↔
    w &&& 0xff00001e#32 ≠ 0x5400000e#32 ∧ w &&& 0xff000000#32 ≠ 0x58000000#32 ∧
      w &&& 0x3f000000#32 ≠ 0x1c000000#32 := by
  rw [losesField, Bool.or_eq_false_iff, Bool.or_eq_false_iff, beq_eq_false_iff_ne,
    beq_eq_false_iff_ne, beq_eq_false_iff_ne, and_assoc]

/-- A word that loses a field retargets nowhere. -/
theorem losing_not_retargets {a address target : U64} {w : Word} {d : DecodedInstruction}
    (hdecode : decodeInstruction a w = .ok d) (hloses : losesField w = true) :
    ¬ Retargets d address target := by
  rw [losesField, Bool.or_eq_true, Bool.or_eq_true, beq_iff_eq, beq_iff_eq, beq_iff_eq] at hloses
  rcases hloses with (h | h) | h
  · exact always_not_retargets hdecode h
  · exact double_not_retargets hdecode h
  · exact simd_not_retargets hdecode h

/-- A `b.cond` row without the condition matches only always-true conditions. -/
theorem always_of_match {w : Word} (hmatch : matchOpcode w = some alwaysConditionRow) :
    w &&& 0xff00001e#32 = 0x5400000e#32 := by
  have hw : w &&& 0xff000010#32 = 0x54000000#32 := fixedBits_of_match hmatch
  have hsplit : w &&& 0xff00001e#32 = (w &&& 0xff000010#32) ||| (w &&& 0xe#32) := by
    rw [← BitVec.and_or_distrib_left]
    rfl
  by_cases hcode : w &&& 0xe#32 = 0xe#32
  · rw [hsplit, hw, hcode]
    rfl
  · have hnot : Aarch64Mnemonic.parse alwaysConditionRow.name ∉ branchMnemonics := by decide
    exact absurd (mnemonic_of_condition hw hcode hmatch) hnot

theorem retargets_of_target {a address target : U64} {w : Word} {d : DecodedInstruction}
    {o : DecodedOperand} (hdecode : decodeInstruction a w = .ok d) (ho : o ∈ d.operands)
    (htarget : o.isTarget = true) (hreach : InReach (targetSlot d.mnemonic) address target)
    (hkeeps : losesField w = false)
    (hwrap : targetSlot d.mnemonic = .addrAdrp ∨ NoWrap address target) :
    ∃ word, encodeInstruction ⟨address, d.mnemonic, d.operands.map (retargeted target)⟩ = .ok word ∧
      word &&& ~~~displacementField (targetSlot d.mnemonic)
        = d.word &&& ~~~displacementField (targetSlot d.mnemonic) ∧
      decodeInstruction address word
        = .ok ⟨address, word, d.mnemonic, d.operands.map (retargeted target)⟩ ∧
      ∃ o ∈ d.operands.map (retargeted target), showsTarget target o := by
  obtain ⟨row, hmatch, hoperands, -, -, hmnemonic⟩ := decodeInstruction_row hdecode
  obtain ⟨halways, hdouble, hsimd⟩ := losesField_eq_false.mp hkeeps
  obtain ⟨kind, hkind, index, hslot⟩ := mem_of_decodeOperands hoperands ho
  have hmem := mem_targetRows hmatch hkind ((targetKind_of_decode hslot htarget).imp And.left id)
  rcases targetRow_cases hmatch hmem with ⟨m, hrow⟩ | ⟨m, hentry⟩ | hrow | hrow
  · have hown := ownRow_family hrow
    obtain rfl : d.mnemonic = m := hmnemonic.trans hown.parsed
    have hw : w &&& row.mask = row.opcode := by rw [fixedBits_of_match hmatch, hown.within]
    obtain ⟨kinds, operands, hkept⟩ := keepsWord_family hrow hw
    have hrows : opcodesForMnemonic d.mnemonic = [] ++ row :: [] := opcodesForMnemonic_branch hrow
    refine retargets_of_keeps hdecode hmatch hown hkept hrows ?_ hreach hwrap
    intro r hr
    cases hr
  · have hown := ownRow_address hentry
    obtain rfl : d.mnemonic = m := hmnemonic.trans hown.parsed
    have hw : w &&& row.mask = row.opcode := by rw [fixedBits_of_match hmatch, hown.within]
    obtain ⟨kind, operand, hkept⟩ := keepsWord_addressRow hentry hw hdouble
    obtain ⟨earlier, later, hrows, hmemory⟩ := candidates_address hentry
    refine retargets_of_keeps hdecode hmatch hown hkept hrows ?_ hreach hwrap
    intro r hr
    exact turnsDown_memory (hmemory r hr) address d.mnemonic operand _ target
  · rw [hrow] at hmatch
    exact absurd (always_of_match hmatch) halways
  · rw [hrow] at hmatch
    exact absurd (fixedBits_of_match hmatch) hsimd

/-- What is not `adrp` shows a branch target. -/
theorem branchTarget_of_mem {a target : U64} {w : Word} {d : DecodedInstruction} {o : DecodedOperand}
    (hdecode : decodeInstruction a w = .ok d) (ho : o ∈ d.operands) (htarget : o.isTarget = true)
    (hslot : targetSlot d.mnemonic ≠ .addrAdrp) : retargeted target o = .branchTarget target := by
  obtain ⟨row, hmatch, hoperands, -, -, hmnemonic⟩ := decodeInstruction_row hdecode
  obtain ⟨kind, hkind, index, hdecoded⟩ := mem_of_decodeOperands hoperands ho
  rcases targetKind_of_decode hdecoded htarget with ⟨-, shown, rfl⟩ | rfl
  · rfl
  · have hadrp : targetRows.all (fun row => !row.operands.contains .addrAdrp ||
        targetSlot (.parse row.name) == .addrAdrp) = true := by decide
    have hrow := List.all_eq_true.mp hadrp row (mem_targetRows hmatch hkind (.inr rfl))
    rw [List.contains_iff_mem.mpr hkind, Bool.not_true, Bool.false_or, beq_iff_eq,
      ← hmnemonic] at hrow
    exact absurd hrow hslot

/-- **A PC-relative instruction retargets to every target in reach exactly when
its word loses no field** and, for all but `adrp`, the target is not across the
end of the address space. -/
theorem retargets_iff {a address target : U64} {w : Word} {d : DecodedInstruction}
    {o : DecodedOperand} (hdecode : decodeInstruction a w = .ok d) (ho : o ∈ d.operands)
    (htarget : o.isTarget = true) (hreach : InReach (targetSlot d.mnemonic) address target) :
    Retargets d address target ↔
      losesField w = false ∧ (targetSlot d.mnemonic = .addrAdrp ∨ NoWrap address target) := by
  constructor
  · intro hretargets
    refine ⟨?_, ?_⟩
    · by_contra hloses
      exact losing_not_retargets hdecode (Bool.not_eq_false _ ▸ hloses) hretargets
    · by_cases hslot : targetSlot d.mnemonic = .addrAdrp
      · exact .inl hslot
      · right
        obtain ⟨word, hencode, -⟩ := hretargets
        obtain ⟨row, -, word', bits, hlen, hops, -⟩ := encodeInstruction_ok hencode
        have hmem : DecodedOperand.branchTarget target ∈ d.operands.map (retargeted target) :=
          List.mem_map.mpr ⟨o, ho, branchTarget_of_mem hdecode ho htarget hslot⟩
        obtain ⟨kind, base, slotBits, hok⟩ := mem_of_encodeOperands hlen hops hmem
        exact noWrap_of_encodeOperand hok
  · rintro ⟨hkeeps, hwrap⟩
    obtain ⟨word, hencode, houtside, hnew, hshown⟩ :=
      retargets_of_target hdecode ho htarget hreach hkeeps hwrap
    exact ⟨word, hencode, houtside, _, hnew, hshown⟩

/-- A branch moved to another page and redirected backwards. -/
theorem retargets_movedBranch :
    Retargets ⟨0x1000, 0x14000002#32, .b, [.branchTarget (branchTarget 0x1000 8)]⟩ 0x2000 0x1000 := by
  have hreach : InReach (targetSlot .b) 0x2000 0x1000 := by
    show InWords 26 (displacement 0x1000 0x2000)
    unfold InWords
    decide
  exact (retargets_iff (decode_branch 0x1000) List.mem_cons_self rfl hreach).mpr
    ⟨by decide, .inr (by decide)⟩

/-! ## §7. A 64-bit literal load. -/

theorem decode_literalDouble (address : U64) :
    decodeInstruction address 0x58000040#32
      = .ok ⟨address, 0x58000040#32, .ldr,
          [.register (xReg 0), .branchTarget (branchTarget address 8)]⟩ := by
  have hmatch := (ownRow_address (show (.ldr, generalLiteralRow) ∈ addressRows by decide)).matched
    0x58000040#32 rfl
  have hparse : Aarch64Mnemonic.parse generalLiteralRow.name = .ldr := by decide
  have himm : imm19 0x58000040#32 = 8 := by decide
  unfold decodeInstruction
  simp only [hmatch, hparse]
  show Except.ok (⟨address, 0x58000040#32, .ldr,
    [.register (rtReg 0x58000040#32 generalLiteralRow),
      .branchTarget (branchTarget address (imm19 0x58000040#32))]⟩ : DecodedInstruction) = _
  rw [rtReg_literalDouble (by decide), himm]
  rfl

/-- `ldr x0` from a literal does not even encode back where it stands, so not
every PC-relative instruction retargets. -/
theorem retargets_fails :
    ¬ ∀ (a address target : U64) (w : Word) (d : DecodedInstruction) (o : DecodedOperand),
      decodeInstruction a w = .ok d → o ∈ d.operands → o.isTarget = true →
        InReach (targetSlot d.mnemonic) address target → Retargets d address target := by
  intro h
  have hreach : InReach (targetSlot .ldr) 0x1000 0x1008 := by
    show InWords 19 (displacement 0x1008 0x1000)
    unfold InWords
    decide
  have hretargets := h 0x1000 0x1000 0x1008 _ _ _ (decode_literalDouble 0x1000)
    (List.mem_cons_of_mem _ List.mem_cons_self) rfl hreach
  exact double_not_retargets (decode_literalDouble 0x1000) (by decide) hretargets

end Armv8Encode.Aarch64

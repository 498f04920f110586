/-
  Armv8Encode.Isa.Armv7.WidenedBranch — Thumb and ARM branches that layout widened.

  The encoder is given the branch without its target.  A conditional Thumb
  branch still carries the open bits of its row, which stand where the wide
  row wants the target: it is never widened.  An unconditional branch is
  always widened to `b`, whatever it was, so only `b` keeps its kind.  In ARM
  mode `b` and `bl` are one row, and the link bit is lost.
-/
import Armv8Encode.Isa.Armv7.ArmRetarget
import Armv8Encode.Isa.Armv7.ThumbLayout
import Armv8Encode.Lib.Patterns
import Armv8Encode.Rewrite.WidenedEmit

namespace Armv8Encode.Armv7

open Lib

/-! ## §1. What the eight bytes have to say. -/

namespace Thumb

/-- A decoded branch: its mnemonic, the condition that takes it if there is one, its target. -/
structure BranchesTo (mnemonic : ThumbMnemonic) (cond : Option Byte) (target : U64)
    (d : DecodedInstruction) : Prop where
  kind : d.mnemonic = mnemonic
  condition : takenCondition d.operands = cond
  reaches : .branchTarget target ∈ d.operands

/-- A decoded no-op. -/
structure IsNop (d : DecodedInstruction) : Prop where
  kind : d.mnemonic = .nop
  row : d.row.isSome = true

/-- Eight bytes stand for a branch to `far`: the inverted branch over the next
instruction and a `b`, or a branch of the same kind and a no-op. -/
def Replaces (d : DecodedInstruction) (here far : U64) (bytes : List Byte) : Prop :=
  ∃ first second, disassembleBytes here bytes = .ok [first, second] ∧
    match takenCondition d.operands with
    | some cond =>
      BranchesTo .b (some (cond ^^^ 1)) (here + 8) first ∧ BranchesTo .b none far second
    | none => BranchesTo d.mnemonic none far first ∧ IsNop second

/-- The mnemonics of a branch that layout may mark. -/
def branchMnemonics : List ThumbMnemonic := [.b, .bl, .blx]

/-- A branch with its target in the instruction. -/
def IsBranch (d : DecodedInstruction) : Prop :=
  d.mnemonic ∈ branchMnemonics ∧ ∃ old, .branchTarget old ∈ d.operands

end Thumb

namespace Arm

/-- A branch with its target in the instruction: `b`, `bl` and `blx`. -/
def IsBranch (d : DecodedInstruction) : Prop := ∃ old, .branchTarget old ∈ d.operands

/-- The branch is `bl`. -/
def links (d : DecodedInstruction) : Bool := d.row.any fun row => linkBit row d.word

/-- A decoded branch: its mnemonic, its link bit, the condition that takes it if there is one,
its target. -/
structure BranchesTo (mnemonic : ArmMnemonic) (link : Bool) (cond : Option Byte) (target : U64)
    (d : DecodedInstruction) : Prop where
  kind : d.mnemonic = mnemonic
  links : links d = link
  condition : takenCondition d.operands = cond
  reaches : .branchTarget target ∈ d.operands

/-- A decoded no-op. -/
structure IsNop (d : DecodedInstruction) : Prop where
  kind : d.mnemonic = .nop
  row : d.row.isSome = true

/-- Eight bytes stand for a branch to `far`: the inverted branch over the next
instruction and a `b` or `bl`, or a branch of the same kind and a no-op. -/
def Replaces (d : DecodedInstruction) (here far : U64) (bytes : List Byte) : Prop :=
  ∃ first second, disassembleBytes here bytes = .ok [first, second] ∧
    match takenCondition d.operands with
    | some cond =>
      BranchesTo .b false (some (cond ^^^ 1)) (here + 8) first ∧
        BranchesTo .b (links d) none far second
    | none => BranchesTo d.mnemonic (links d) none far first ∧ IsNop second

end Arm

/-! ## §2. What a lifted branch brings. -/

section

variable {Mn Rg E Mk Di : Type} {I : Isa Mn Rg DecodedOperand E Mk Di}
  {blockAtAddress : Map U64 BasicBlockId} {container : Option Container}
  {relocations : Map U64 FusionRelocationInfo} {d : Di}

/-- The template of the widened form is the branch without its target. -/
theorem template_lift (hkind : I.pcrelKind = pcrelKind) :
    lowerOperandsWithPlaceholder (liftInstruction I blockAtAddress container relocations d)
      = (I.decodedOperands d).filter fun o => !isBranchTarget o := by
  rw [lowerOperandsWithPlaceholder, liftInstruction]
  generalize relocTarget I relocations (I.decodedAddress d) = reloc
  induction I.decodedOperands d with
  | nil => rfl
  | cons o rest ih =>
    rw [List.map_cons, List.filterMap_cons, ih, liftOperand, hkind]
    cases o <;> rfl

/-- Its placeholder is the branch to its own address. -/
theorem placeholder_lift (hkind : I.pcrelKind = pcrelKind)
    (hmake : I.makePcrelOperand = makePcrelOperand) (here : U64) :
    (liftInstruction I blockAtAddress container relocations d).operands.map
        (placeholderOperand I here) = (I.decodedOperands d).map (retarget here) := by
  rw [liftInstruction]
  generalize relocTarget I relocations (I.decodedAddress d) = reloc
  rw [List.map_map]
  refine List.map_congr_left fun o _ => ?_
  rw [Function.comp_apply, liftOperand, hkind]
  cases o <;> simp only [pcrelKind, placeholderOperand, hmake] <;> rfl

end

/-! ## §3. The far branch of Thumb. -/

namespace Thumb

/-- The row of the far half. -/
def farRow : ThumbOpcode := ⟨.b, 0xf0009000, 0xf800d000, .word, "b%c.w\t%B%x"⟩

/-- The first wide row that the fixed bits of the far row leave possible. -/
theorem thumbOpcodeTable_far :
    (thumbOpcodeTable.find? fun row => row.width == .word &&
      (row.opcode ^^^ (0xf0009000 : Word)) &&& row.mask &&& (0xf800d000 : Word) == 0)
        = some farRow := by
  decide +kernel

/-- The first wide row that known bits leave possible. -/
theorem matchGenerated_known {word known value : Word} {row : ThumbOpcode}
    (hword : word &&& known = value)
    (hrow : (thumbOpcodeTable.find? fun row => row.width == .word &&
      (row.opcode ^^^ value) &&& row.mask &&& known == 0) = some row)
    (hwidth : row.width = .word) (hmatch : word &&& row.mask = row.opcode) :
    matchGenerated word .word = some row := by
  refine find?_of_possible (fun other hother => ?_) hrow (by simp [hwidth, hmatch])
  rw [Bool.and_eq_true, beq_iff_eq, beq_iff_eq] at hother
  obtain ⟨hwide, hother⟩ := hother
  rw [hwide, agree_of_known hword hother]
  rfl

theorem matchGenerated_far {word : Word} (hword : word &&& (0xf800d000 : Word) = 0xf0009000) :
    matchGenerated word .word = some farRow :=
  matchGenerated_known hword thumbOpcodeTable_far rfl hword

/-- The word of a far branch over a displacement. -/
def farWord (d : U64) : Word :=
  let raw : Word := d.setWidth 32 &&& 0x1ffffff
  let s : Word := (d.setWidth 32 >>> 24) &&& 1
  placeField (placeField (placeField (placeField (placeField 0xf0009000 26 26 s)
    16 25 ((raw >>> 12) &&& 0x3ff)) 13 13 ((~~~((raw >>> 23) &&& 1) ^^^ s) &&& 1))
    11 11 ((~~~((raw >>> 22) &&& 1) ^^^ s) &&& 1)) 0 10 ((raw >>> 1) &&& 0x7ff)

theorem packBlTarget_far {target address : U64} (h : ¬ OutOfFarReach target address) :
    packBlTarget 0xf0009000 target address 0 = .ok (farWord (branchDisplacement target address)) :=
  if_neg h

theorem getElem_farWord (d : U64) {i : Nat} (hi : i < 32) :
    (farWord d)[i]
      = if i < 11 then d.getLsbD (i + 1)
        else if i = 11 then d.getLsbD 22 == d.getLsbD 24
        else if i = 13 then d.getLsbD 23 == d.getLsbD 24
        else if 16 ≤ i ∧ i < 26 then d.getLsbD (i - 4)
        else if i = 26 then d.getLsbD 24
        else (0xf0009000 : Word).getLsbD i := by
  rw [← BitVec.getLsbD_eq_getElem hi]
  unfold farWord
  simp only [placeField_eq_splice, getLsbD_splice]
  interval_cases i <;> simp [rangeMask, fieldMask]
  all_goals grind

theorem farWord_far (d : U64) : farWord d &&& (0xf800d000 : Word) = 0xf0009000 := by
  apply BitVec.eq_of_getLsbD_eq
  intro i hi
  rw [BitVec.getLsbD_and, BitVec.getLsbD_eq_getElem hi, getElem_farWord d hi]
  interval_cases i <;> simp

/-- What the decoder reads of it: the displacement. -/
theorem blRaw_farWord {d : U64} (heven : d.getLsbD 0 = false) :
    (blRaw (farWord d)).setWidth 25 = d.setWidth 25 := by
  have hbit := @getElem_farWord d
  generalize farWord d = word at hbit
  rw [BitVec.getLsbD_eq_getElem (by omega)] at heven
  apply BitVec.eq_of_getLsbD_eq
  intro i hi
  unfold blRaw
  interval_cases i <;> simp [hbit, heven]
  all_goals grind

theorem decodeBlBTarget_farWord {target address : U64} (h : ¬ OutOfFarReach target address) :
    decodeBlBTarget (farWord (branchDisplacement target address)) address = target := by
  have htarget : address + 4 + branchDisplacement target address = target := by
    unfold branchDisplacement
    bv_omega
  unfold OutOfFarReach at h
  simp only at h
  generalize branchDisplacement target address = d at h htarget
  have heven : d.getLsbD 0 = false := by
    have hlow : d.toNat % 2 = 0 := by
      rw [BitVec.toInt_eq_toNat_cond] at h
      split at h <;> omega
    rw [BitVec.getLsbD, Nat.testBit_zero]
    simp [hlow]
  have hsigned : ((blRaw (farWord d) <<< (32 - 25)).sshiftRight (32 - 25)).signExtend 64 = d := by
    rw [sshiftRight_shiftLeft _ (by decide) (by decide),
      signExtend_signExtend _ (by decide) (by decide), blRaw_farWord heven]
    apply BitVec.eq_of_toInt_eq
    have hlow : d.setWidth 25 = BitVec.ofInt 25 d.toInt := by
      rw [← setWidth_ofInt d.toInt (by decide : 25 ≤ 64), BitVec.ofInt_toInt]
    rw [BitVec.toInt_signExtend_of_le (by omega), hlow, BitVec.toInt_ofInt]
    apply Int.bmod_eq_of_le <;> norm_num <;> omega
  show address + (4 : U64) + ((blRaw (farWord d) <<< (32 - 25)).sshiftRight (32 - 25)).signExtend 64
    = target
  rw [hsigned, htarget]

theorem rowOperands_far (word : Word) (address : U64) :
    rowOperands farRow word address
      = [.branchTarget (decodeBlBTarget word address),
          .opaqueBits (word &&& tailMask farRow) (tailMask farRow)] := by
  rfl

/-- A far branch in reach is an unconditional `b` to its target. -/
theorem encodeWide_far_ok {target address : U64} (h : ¬ OutOfFarReach target address) :
    ∃ word first, encodeWide 0xf0009000 0xf800d000 [.branchTarget target] address
        = .ok (wordBytes word) ∧ word &&& (0xf8000000 : Word) = 0xf0000000 ∧
      decodeOne address word .word = .ok first ∧ BranchesTo .b none target first := by
  have hfar := farWord_far (branchDisplacement target address)
  have htarget := decodeBlBTarget_farWord h
  have hencode : encodeWide 0xf0009000 0xf800d000 [.branchTarget target] address
      = .ok (wordBytes (farWord (branchDisplacement target address))) := by
    rw [encodeWide_far, packBlTarget_far h]
    rfl
  generalize farWord (branchDisplacement target address) = word at hfar htarget hencode
  have hclass : word &&& (0xf8000000 : Word) = 0xf0000000 := by
    calc word &&& (0xf8000000 : Word)
        = word &&& (0xf800d000 : Word) &&& (0xf8000000 : Word) := by
          rw [BitVec.and_assoc]
          rfl
      _ = (0xf0009000 : Word) &&& (0xf8000000 : Word) := by rw [hfar]
      _ = 0xf0000000 := rfl
  have hdecode : decodeOne address word .word = .ok ⟨address, word, .word, .b,
      [.branchTarget target, .opaqueBits (word &&& tailMask farRow) (tailMask farRow)],
      some farRow, none⟩ := by
    unfold decodeOne
    rw [matchGenerated_far hfar]
    simp only [rowOperands_far, htarget]
    rfl
  exact ⟨word, _, hencode, hclass, hdecode, rfl, rfl, List.mem_cons_self⟩

/-! ## §4. Two wide instructions. -/

theorem halfwordOf_bytes (v : Word) :
    halfwordOf (v.setWidth 8) ((v >>> 8).setWidth 8) = v &&& (0xffff : Word) := by
  apply BitVec.eq_of_getLsbD_eq
  intro i hi
  unfold halfwordOf
  interval_cases i <;> simp

theorem word_of_halfwords (word : Word) :
    ((word >>> 16 &&& (0xffff : Word)) <<< 16) ||| (word &&& (0xffff : Word)) = word := by
  apply BitVec.eq_of_getLsbD_eq
  intro i hi
  interval_cases i <;> simp

/-- The first halfword of a wide instruction announces the second. -/
theorem isWide_of_class {word : Word} (h : word &&& (0xf8000000 : Word) = 0xf0000000) :
    isWide (word >>> 16 &&& (0xffff : Word)) = true := by
  have htop : (word >>> 16 &&& (0xffff : Word)) >>> 11 = (word &&& (0xf8000000 : Word)) >>> 27 := by
    apply BitVec.eq_of_getLsbD_eq
    intro i hi
    interval_cases i <;> simp
  rw [isWide, htop, h]
  rfl

/-- Two wide instructions, swept. -/
theorem disassembleBytes_pair {here : U64} {word1 word2 : Word} {first second : DecodedInstruction}
    (hwide1 : word1 &&& (0xf8000000 : Word) = 0xf0000000)
    (hwide2 : word2 &&& (0xf8000000 : Word) = 0xf0000000)
    (hfirst : decodeOne here word1 .word = .ok first)
    (hsecond : decodeOne (here + 4) word2 .word = .ok second) :
    disassembleBytes here (wordBytes word1 ++ wordBytes word2) = .ok [first, second] := by
  have hbytes : ∀ word : Word, wordBytes word = (word >>> 16).setWidth 8
      :: ((word >>> 16) >>> 8).setWidth 8 :: word.setWidth 8 :: (word >>> 8).setWidth 8 :: [] :=
    fun word => rfl
  have hstep : ∀ (word : Word) (offset : Nat) (d : DecodedInstruction) (rest : List Byte),
      word &&& (0xf8000000 : Word) = 0xf0000000 →
      decodeOne (here + BitVec.ofNat 64 offset) word .word = .ok d →
      disassembleFrom here offset (wordBytes word ++ rest)
        = (disassembleFrom here (offset + 4) rest).map (d :: ·) := by
    intro word offset d rest hwide hd
    rw [hbytes, List.cons_append, List.cons_append, List.cons_append, List.cons_append,
      List.nil_append, disassembleFrom, halfwordOf_bytes, halfwordOf_bytes,
      if_pos (isWide_of_class hwide), word_of_halfwords]
    simp only [hd]
    cases disassembleFrom here (offset + 4) rest <;> rfl
  have hlast := hstep word2 4 second [] hwide2 hsecond
  rw [List.append_nil] at hlast
  rw [disassembleBytes, hstep word1 0 first _ hwide1 (by rw [hfirst.symm, BitVec.add_zero]), hlast]
  rfl

/-! ## §5. Thumb branches. -/

/-- The rows of these mnemonics. -/
def branchRows : List ThumbOpcode :=
  [⟨.blx, 0x4780, 0xff87, .halfword, "blx%c\t%3-6r%x"⟩,
    ⟨.b, 0xd000, 0xf000, .halfword, "b%8-11c.n\t%0-7B%X"⟩,
    ⟨.b, 0xe000, 0xf800, .halfword, "b%c.n\t%0-10B%x"⟩,
    ⟨.b, 0xf0008000, 0xf800d000, .word, "b%22-25c.w\t%b%X"⟩,
    farRow,
    ⟨.blx, 0xf000c000, 0xf800d001, .word, "blx%c\t%B%x"⟩,
    ⟨.bl, 0xf000d000, 0xf800d000, .word, "bl%c\t%B%x"⟩]

theorem mem_branchRows {row : ThumbOpcode} (hmem : row ∈ thumbOpcodeTable)
    (hmnemonic : row.mnemonic ∈ branchMnemonics) : row ∈ branchRows := by
  have hrows : (thumbOpcodeTable.filter fun row => branchMnemonics.contains row.mnemonic)
      = branchRows := by
    decide +kernel
  rw [← hrows]
  exact List.mem_filter.mpr ⟨hmem, List.contains_iff_mem.mpr hmnemonic⟩

/-- The operands of a branch: a condition or none, the target, the open bits of its row. -/
inductive BranchOperands : List DecodedOperand → Prop where
  | conditional (cond : Byte) (target : U64) (bits mask : Word) :
      BranchOperands [.condition cond, .branchTarget target, .opaqueBits bits mask]
  | plain (target : U64) (bits mask : Word) :
      BranchOperands [.branchTarget target, .opaqueBits bits mask]

theorem branchOperands_row {row : ThumbOpcode} (hmem : row ∈ thumbOpcodeTable)
    (hmnemonic : row.mnemonic ∈ branchMnemonics) (word : Word) (address : U64) {old : U64}
    (hold : .branchTarget old ∈ rowOperands row word address) :
    BranchOperands (rowOperands row word address) := by
  have hrow := mem_branchRows hmem hmnemonic
  simp only [branchRows, List.mem_cons, List.not_mem_nil, or_false] at hrow
  rcases hrow with rfl | rfl | rfl | rfl | rfl | rfl | rfl
  · -- the target of this one is in a register
    have hops : rowOperands ⟨.blx, 0x4780, 0xff87, .halfword, "blx%c\t%3-6r%x"⟩ word address
        = [registerOperand word 3 6, .opaqueBits (word &&& 0x78) 0x78] := rfl
    rw [hops] at hold
    simp [registerOperand] at hold
  · exact .conditional _ _ _ _
  · exact .plain _ _ _
  · exact .conditional _ _ _ _
  · exact .plain _ _ _
  · exact .plain _ _ _
  · exact .plain _ _ _

/-- A row whose branch reaches its own address, and is packed in the order of the format. -/
def reachesBack (row : ThumbOpcode) : Bool :=
  !isElementRow row && (branchCode row).all fun code =>
    isPackedLetter code.2 && decide (EvenWithin (branchBits code.1) (-4))

theorem reachesBack_row {row : ThumbOpcode} (hmem : row ∈ thumbOpcodeTable)
    (hmnemonic : row.mnemonic ∈ branchMnemonics) : reachesBack row = true := by
  have hall : branchRows.all reachesBack = true := by decide
  exact List.all_eq_true.mp hall row (mem_branchRows hmem hmnemonic)

theorem branchDisplacement_self (here : U64) : (branchDisplacement here here).toInt = -4 := by
  have hd : branchDisplacement here here = -4 := by
    unfold branchDisplacement
    bv_omega
  rw [hd]
  rfl

variable {address here far : U64} {word : Word} {width : ThumbWidth} {d : DecodedInstruction}

/-- The row of a decoded branch. -/
theorem row_of_branch (hd : decodeOne address word width = .ok d) (hbranch : IsBranch d) :
    ∃ row ∈ thumbOpcodeTable, d.mnemonic = row.mnemonic ∧
      d.operands = rowOperands row word address := by
  obtain ⟨-, old, hold⟩ := hbranch
  unfold decodeOne at hd
  split at hd
  · next hmatch =>
    cases hd
    exact ⟨_, List.mem_of_find?_eq_some hmatch, rfl, rfl⟩
  · split at hd
    · cases hd
    · split at hd <;> cases hd
      simp at hold

theorem branchOperands_of_branch (hd : decodeOne address word width = .ok d)
    (hbranch : IsBranch d) : BranchOperands d.operands := by
  obtain ⟨row, hmem, hkind, hops⟩ := row_of_branch hd hbranch
  obtain ⟨hmnemonic, old, hold⟩ := hbranch
  rw [hkind] at hmnemonic
  rw [hops] at hold ⊢
  exact branchOperands_row hmem hmnemonic word address hold

/-- A branch to its own address is encoded, in at most four bytes. -/
theorem encodeBytes_placeholder (hd : decodeOne address word width = .ok d) (hbranch : IsBranch d)
    (here : U64) : ∃ bytes,
      encodeBytes d.mnemonic (d.operands.map (retarget here)) here = .ok bytes ∧
        bytes.length ≠ 8 := by
  obtain ⟨row, hmem, hkind, hops⟩ := row_of_branch hd hbranch
  obtain ⟨hmnemonic, old, hold⟩ := hbranch
  rw [hkind] at hmnemonic
  rw [hops] at hold
  obtain ⟨bitfield, letter, post, hpart, hletter, hend, hrow⟩ := branch_of_target hmem hold
  have hback := reachesBack_row hmem hmnemonic
  rw [reachesBack, Bool.and_eq_true, Bool.not_eq_true'] at hback
  obtain ⟨hfree, -⟩ := hrow.resolve_left (by rw [hback.1]; decide)
  have hcode : branchCode row = some (bitfield, letter) := by
    rw [branchCode, hpart]
    exact if_pos hletter
  have hpacked := hback.2
  rw [hcode, Option.all_some, Bool.and_eq_true, decide_eq_true_eq] at hpacked
  have hreach : InReach bitfield letter (branchDisplacement here here).toInt := by
    rw [branchDisplacement_self]
    rcases branchLetter_cases hletter with ⟨rfl, -⟩ | ⟨rfl, -, -⟩
    · exact hpacked.2
    · obtain rfl | rfl : letter = 'B' ∨ letter = 'b' := by simpa [isPackedLetter] using hpacked.1
      · exact hpacked.2
      · exact (by decide : EvenWithin 20 (-4))
  obtain ⟨base, slot, hencode⟩ := encodeWithRow_retargeted hpart hletter hend hfree word address
    here here
  obtain ⟨w, hw⟩ := (packOperand_packed hletter hpacked.1 here slot base here).1 hreach
  rw [hw] at hencode
  -- the row of the branch accepts it, so some row does
  obtain ⟨found, hfound⟩ : ∃ found, rowFor d.mnemonic (d.operands.map (retarget here)) here
      = some found := by
    refine Option.isSome_iff_exists.mp (List.find?_isSome.mpr ⟨row, ?_, ?_⟩)
    · exact List.mem_filter.mpr ⟨hmem, by rw [hkind]; exact beq_self_eq_true _⟩
    · rw [hops, accepts]
      show (encodeWithRow row (retargeted row word address here) here).isOk = true
      rw [hencode]
      rfl
  obtain ⟨w', hw'⟩ := accepts_of_rowFor hfound
  have hbytes : encodeBytes d.mnemonic (d.operands.map (retarget here)) here
      = .ok (wordOf w' found.width) := by
    rw [encodeBytes, encode_eq, hfound]
    simp only [hw']
    rfl
  refine ⟨_, hbytes, ?_⟩
  rw [length_wordOf]
  cases found.width <;> decide

/-- A conditional branch is refused: its open bits stand where the row wants the target. -/
theorem encodeWide_conditional (cond cond' : Byte) (bits mask : Word) (target here : U64) :
    ∃ e, encodeWide 0xf0008000 0xf800d000
      (buildOperandsWithOverrides [.condition cond, .opaqueBits bits mask] cond' target) here
        = .error e := by
  rw [encodeWide, findRow_skip]
  simp only [encodeWithRow, encodeWithFormat, escapes_skip]
  exact ⟨_, rfl⟩

theorem decodeOne_nop (address : U64) :
    ∃ second, decodeOne address 0xf3af8000 .word = .ok second ∧ IsNop second := by
  have hmatch : matchGenerated 0xf3af8000 .word
      = some ⟨.nop, 0xf3af8000, 0xffffffff, .word, "nop%c.w"⟩ := by
    decide +kernel
  unfold decodeOne
  rw [hmatch]
  exact ⟨_, rfl, rfl, rfl⟩

/-- The widened form without a condition is `b` and a no-op. -/
theorem widensTo_plain (mnemonic : ThumbMnemonic) {template : List DecodedOperand}
    (htaken : takenCondition template = none) (here far : U64) :
    WidensTo IsRangeError
        (fun bytes => ∃ first second, disassembleBytes here bytes = .ok [first, second] ∧
          BranchesTo mnemonic none far first ∧ IsNop second)
        (encodeWidenedConditional mnemonic template here far)
      ↔ mnemonic = .b ∨ OutOfFarReach far here := by
  rw [encodeWidenedConditional, htaken]
  by_cases hout : OutOfFarReach far here
  · obtain ⟨e, he, hrange⟩ := encodeWide_far_error.mpr hout
    simp only [he]
    exact iff_of_true hrange (.inr hout)
  · obtain ⟨word, first, hencode, hclass, hdecode, hfirst⟩ := encodeWide_far_ok hout
    obtain ⟨second, hnop, hsecond⟩ := decodeOne_nop (here + 4)
    have hpair := disassembleBytes_pair hclass (by decide) hdecode hnop
    simp only [hencode]
    constructor
    · rintro ⟨-, first', second', hswept, hbranch, -⟩
      cases hpair.symm.trans hswept
      exact .inl (hbranch.kind.symm.trans hfirst.kind)
    · intro h
      refine ⟨rfl, first, second, hpair, ?_, hsecond⟩
      rw [h.resolve_right hout]
      exact hfirst

/-- The widened form is right: for `b` without a condition; or the target of a branch without
a condition is out of reach. -/
def IsWidened (d : DecodedInstruction) (here far : U64) : Prop :=
  takenCondition d.operands = none ∧ (d.mnemonic = .b ∨ OutOfFarReach far here)

theorem BranchOperands.takenCondition_template {operands : List DecodedOperand}
    (h : BranchOperands operands) :
    takenCondition (operands.filter fun o => !isBranchTarget o) = takenCondition operands := by
  cases h <;> rfl

/-- **The widened form of a Thumb branch** is right exactly for `b` without a condition, and
for a target out of reach, where it is refused. -/
theorem widensTo_iff (hd : decodeOne address word width = .ok d) (hbranch : IsBranch d) :
    WidensTo IsRangeError (Replaces d here far)
        (encodeWidenedConditional d.mnemonic (d.operands.filter fun o => !isBranchTarget o) here
          far)
      ↔ IsWidened d here far := by
  unfold IsWidened
  have hshape := branchOperands_of_branch hd hbranch
  have htemplate := hshape.takenCondition_template
  cases htaken : takenCondition d.operands with
  | none =>
    rw [htaken] at htemplate
    have hplain := widensTo_plain d.mnemonic htemplate here far
    unfold Replaces
    rw [htaken]
    simpa using hplain
  | some taken =>
    rw [htaken] at htemplate
    refine iff_of_false ?_ (by simp)
    rw [encodeWidenedConditional, htemplate]
    intro hwidens
    generalize d.operands = operands at hshape htaken hwidens
    cases hshape with
    | plain target bits mask => cases htaken
    | conditional cond target bits mask =>
      -- the condition is inverted in front of the open bits
      obtain ⟨e, he⟩ := encodeWide_conditional cond ((taken ^^^ 1) &&& 0xf) bits mask (here + 8)
        here
      have herror : encodeWide 0xf0008000 0xf800d000 (buildOperandsWithOverrides
          ([.condition cond, .branchTarget target, .opaqueBits bits mask].filter
            fun o => !isBranchTarget o) ((taken ^^^ 1) &&& 0xf) (here + 8)) here = .error e := he
      simp only [herror] at hwidens
      exact encodeWide_skip_error herror hwidens

/-- A lifted Thumb branch that layout marks is emitted as its widened form exactly when emit
comes to that form, and it is right. -/
theorem emittedWidened_lift (hd : decodeOne address word width = .ok d) (hbranch : IsBranch d)
    {blockAtAddress : Map U64 BasicBlockId} {container : Option Container}
    {relocations : Map U64 FusionRelocationInfo} {l : InstructionLayout} {ctx : EmitContext}
    (hwide : l.strategy = .invertedConditional) :
    EmittedWidened thumb IsRangeError (Replaces d l.address)
        (liftInstruction thumb blockAtAddress container relocations d) l ctx
      ↔ ∃ far, ReachesWidening thumb (liftInstruction thumb blockAtAddress container relocations d)
          l ctx far ∧ IsWidened d l.address far := by
  have hsource : (thumb.instructionSourceSize d.mnemonic).toNat ≠ 8 := by
    intro height
    exact instructionSourceSize_ne_eight d.mnemonic (BitVec.eq_of_toNat_eq height.symm)
  have hplaceholder := encodeBytes_placeholder hd hbranch l.address
  have hlifted := @placeholder_lift _ _ _ _ _ thumb blockAtAddress container relocations d rfl rfl
    l.address
  rw [emittedWidened_iff (fun _ _ => rfl) hsource (by rw [hlifted]; exact hplaceholder) hwide]
  refine exists_congr fun far => and_congr_right fun _ => ?_
  rw [template_lift rfl]
  exact widensTo_iff hd hbranch

end Thumb

/-! ## §6. ARM branches. -/

namespace Arm

theorem findRow_branch : findRow 0x0a000000 0x0e000000 = some branchRow := by decide

theorem encodeBranch_eq (operands : List DecodedOperand) (address : U64) :
    encodeBranch operands address = (encodeWithRow branchRow operands address).map toLeBytes := by
  rw [encodeBranch, findRow_branch]
  simp only
  cases encodeWithRow branchRow operands address <;> rfl

/-- A branch is packed exactly when it reaches, and else refused for the distance. -/
theorem packBranch_cases (base : Word) (target address : U64) (slot : Nat) :
    (Reaches branchRow address target ∧ ∃ w, packBranch base target address slot = .ok w) ∨
      (¬ Reaches branchRow address target ∧
        ∃ e, packBranch base target address slot = .error e ∧ Thumb.IsRangeError e) := by
  unfold packBranch Reaches
  dsimp only
  rw [if_pos rfl]
  generalize branchDisplacement target address = n
  by_cases h4 : n % 4 = 0
  · have hdiv : n.tdiv 4 = n / 4 := Int.tdiv_eq_ediv_of_dvd (Int.dvd_of_emod_eq_zero h4)
    rw [if_neg (by omega), hdiv]
    by_cases hrange : n / 4 < -2 ^ 23 ∨ 2 ^ 23 ≤ n / 4
    · rw [if_pos hrange]
      exact .inr ⟨by omega, _, rfl, _, _, _, rfl⟩
    · rw [if_neg hrange]
      exact .inl ⟨⟨h4, by omega, by omega⟩, _, rfl⟩
  · rw [if_pos h4]
    exact .inr ⟨by omega, _, rfl, _, _, _, rfl⟩

/-- A branch word with each condition. -/
theorem conditionWord : ∀ k < 15,
    (0x0a000000 ||| (BitVec.ofNat 32 k <<< 28)) &&& (0x0e000000 : Word) = 0x0a000000 ∧
    conditionOf (0x0a000000 ||| (BitVec.ofNat 32 k <<< 28)) = BitVec.ofNat 8 k ∧
    classRow (0x0a000000 ||| (BitVec.ofNat 32 k <<< 28)) = branchRow ∧
    (0x0a000000 ||| (BitVec.ofNat 32 k <<< 28) : Word).getLsbD 24 = false := by
  decide

/-- A branch in reach decodes to itself, without link. -/
theorem encodeBranch_ok {k : Nat} (hk : k < 15) {target address : U64}
    (hreach : Reaches branchRow address target) :
    ∃ word first, encodeBranch [.condition (BitVec.ofNat 8 k), .branchTarget target] address
        = .ok (toLeBytes word) ∧ decodeOne address word = .ok first ∧ first.mnemonic = .b ∧
      links first = false ∧
      first.operands = [.condition (BitVec.ofNat 8 k), .branchTarget target] := by
  obtain ⟨hclass, hcond, hrow, hlink⟩ := conditionWord k hk
  generalize (0x0a000000 ||| (BitVec.ofNat 32 k <<< 28) : Word) = source at hclass hcond hrow hlink
  have heffect := (takesEffect_branchRow hclass hrow 0 address target).mpr (.inl hlink)
  have hops : (decodeOperandsFromFormat branchRow.format source 0).map (retarget target)
      = [.condition (BitVec.ofNat 8 k), .branchTarget target] := by
    rw [operands_branchRow, ← hcond]
    rfl
  unfold TakesEffect at heffect
  dsimp only at heffect
  rw [hops] at heffect
  rw [encodeBranch_eq]
  split at heffect
  · exact absurd hreach heffect
  · next word hword =>
    obtain ⟨first, hdecode, hfirst, hbit, hoperands⟩ := heffect
    have htarget : .branchTarget target ∈ first.operands := by
      rw [hoperands]
      simp
    obtain ⟨-, rfl⟩ := branchClass_of_target hdecode htarget
    have hbranch : classRow word = branchRow := Option.some.inj hfirst
    refine ⟨word, _, by rw [hword]; rfl, hdecode, ?_, ?_, hoperands⟩
    · simp only [hbranch]
      rfl
    · rw [links]
      simp only [Option.any_some, hbranch]
      rw [hbit, linkBit, if_pos rfl]
      exact hlink

theorem encodeBranch_far (cond : Byte) {target address : U64}
    (hfar : ¬ Reaches branchRow address target) :
    ∃ e, encodeBranch [.condition cond, .branchTarget target] address = .error e ∧
      Thumb.IsRangeError e := by
  rw [encodeBranch_eq, encode_branchRow]
  obtain ⟨hreach, -⟩ | ⟨-, e, he, hrange⟩ := packBranch_cases
    (placeField 0x0a000000 28 31 (cond.setWidth 32)) target address 1
  · exact absurd hreach hfar
  · exact ⟨e, by rw [he]; rfl, hrange⟩

/-- Eight bytes ahead is in reach. -/
theorem reaches_skip (here : U64) : Reaches branchRow here (here + 8) := by
  have hd : branchDisplacement (here + 8) here = 0 := by
    have hzero : here + 8 - here - 8 = 0 := by bv_omega
    rw [branchDisplacement, hzero]
    rfl
  unfold Reaches
  rw [hd]
  decide

/-- Two instructions, swept. -/
theorem disassembleBytes_pair {here : U64} {word1 word2 : Word} {first second : DecodedInstruction}
    (hfirst : decodeOne here word1 = .ok first)
    (hsecond : decodeOne (here + 4) word2 = .ok second) :
    disassembleBytes here (toLeBytes word1 ++ toLeBytes word2) = .ok [first, second] := by
  have hstep : ∀ (word : Word) (offset : Nat) (rest : List Byte),
      disassembleFrom here offset (toLeBytes word ++ rest)
        = (decodeOne (here + BitVec.ofNat 64 offset) word >>= fun d =>
          disassembleFrom here (offset + 4) rest >>= fun tail => pure (d :: tail)) := by
    intro word offset rest
    rw [toLeBytes, List.cons_append, List.cons_append, List.cons_append, List.cons_append,
      List.nil_append, disassembleFrom, fromLeBytes_toLeBytes]
  have hlast := hstep word2 4 []
  rw [List.append_nil] at hlast
  have hsecond' : decodeOne (here + BitVec.ofNat 64 4) word2 = .ok second := hsecond
  rw [disassembleBytes, if_neg (by simp), hstep, BitVec.add_zero, hfirst, hlast, hsecond']
  rfl

theorem decodeOne_nop (address : U64) :
    ∃ second, decodeOne address 0xe1a00000 = .ok second ∧ IsNop second := by
  have hneon : matchNeonArm 0xe1a00000 = none := by decide +kernel
  have hmatch : matchGenerated 0xe1a00000
      = some ⟨.nop, 0xe1a00000, 0xffffffff, "nop\t\t\t@ (mov r0, r0)"⟩ := by
    decide +kernel
  unfold decodeOne
  rw [hneon, hmatch]
  exact ⟨_, rfl, rfl, rfl⟩

theorem takenCondition_condition (cond : Byte) (rest : List DecodedOperand) :
    takenCondition (.condition cond :: rest) = if cond < 14 then some cond else none := by
  simp [takenCondition, templateCondition, Option.filter]

/-- A condition that takes a branch, and its inverse. -/
theorem condition_inverse : ∀ k < 14, BitVec.ofNat 8 k < (14 : Byte) ∧
    ((BitVec.ofNat 8 k ^^^ 1) &&& 0xf : Byte) = BitVec.ofNat 8 k ^^^ 1 ∧
    ∃ j < 14, BitVec.ofNat 8 k ^^^ 1 = BitVec.ofNat 8 j ∧ BitVec.ofNat 8 j < (14 : Byte) := by
  decide

/-- The fifteenth condition is that of `blx`. -/
theorem conditionOf_lt {word : Word} (hclass : word &&& (0x0e000000 : Word) = 0x0a000000)
    (hrow : classRow word = branchRow) : ∃ k < 15, conditionOf word = BitVec.ofNat 8 k := by
  have hlt : (conditionOf word).toNat < 16 := by
    rw [conditionOf, BitVec.toNat_setWidth, BitVec.toNat_and]
    exact Nat.lt_of_le_of_lt (Nat.mod_le _ _) (Nat.lt_of_le_of_lt Nat.and_le_right (by decide))
  have hne : (conditionOf word).toNat ≠ 15 := by
    intro hfifteen
    have hcond : conditionOf word = 15#8 := BitVec.eq_of_toNat_eq hfifteen
    have htop : word &&& (0xfe000000 : Word) = 0xfa000000 := by
      apply BitVec.eq_of_getLsbD_eq
      intro i hi
      have hbit := congrArg (fun w : Word => w.getLsbD i) hclass
      have hhigh := congrArg (fun c : Byte => c.getLsbD (i - 28)) hcond
      simp only [conditionOf, BitVec.getLsbD_setWidth, BitVec.getLsbD_and,
        BitVec.getLsbD_ushiftRight] at hbit hhigh ⊢
      interval_cases i <;> simp at hbit hhigh ⊢ <;> assumption
    rw [classRow, if_pos htop] at hrow
    cases hrow
  exact ⟨(conditionOf word).toNat, by omega, by rw [BitVec.ofNat_toNat, BitVec.setWidth_eq]⟩

/-- The operands of a branch: a condition and the target, or the target of `blx`. -/
inductive BranchShape (d : DecodedInstruction) : Prop where
  | branch (k : Nat) (target : U64) (hk : k < 15) (kind : d.mnemonic = .b)
      (operands : d.operands = [.condition (BitVec.ofNat 8 k), .branchTarget target])
  | blx (target : U64) (kind : d.mnemonic = .blx) (operands : d.operands = [.branchTarget target])

variable {address here far : U64} {word : Word} {d : DecodedInstruction}

theorem branchShape (hd : decodeOne address word = .ok d) (hbranch : IsBranch d) :
    BranchShape d := by
  obtain ⟨old, hold⟩ := hbranch
  obtain ⟨hclass, rfl⟩ := branchClass_of_target hd hold
  by_cases hblx : word &&& (0xfe000000 : Word) = 0xfa000000
  · have hrow : classRow word = blxRow := if_pos hblx
    rw [hrow]
    exact .blx _ rfl (operands_blxRow word address)
  · have hrow : classRow word = branchRow := if_neg hblx
    obtain ⟨k, hk, hcond⟩ := conditionOf_lt hclass hrow
    rw [hrow]
    refine .branch k (address + 8 + wordOffset word * 4) hk rfl ?_
    rw [← hcond]
    exact operands_branchRow word address

/-- The widened form is right: for a conditional branch when it is no `bl`, else for `b` alone;
or its target is out of reach. -/
def IsWidened (d : DecodedInstruction) (here far : U64) : Prop :=
  match takenCondition d.operands with
  | some _ => links d = false ∨ ¬ Reaches branchRow (here + 4) far
  | none => (d.mnemonic = .b ∧ links d = false) ∨ ¬ Reaches branchRow here far

/-- The widened form without a condition is `b` and a no-op. -/
theorem widensTo_plain (mnemonic : ArmMnemonic) (link : Bool) {template : List DecodedOperand}
    (htaken : takenCondition template = none) (here far : U64) :
    WidensTo Thumb.IsRangeError
        (fun bytes => ∃ first second, disassembleBytes here bytes = .ok [first, second] ∧
          BranchesTo mnemonic link none far first ∧ IsNop second)
        (encodeWidenedConditional mnemonic template here far)
      ↔ (mnemonic = .b ∧ link = false) ∨ ¬ Reaches branchRow here far := by
  rw [encodeWidenedConditional, htaken]
  by_cases hreach : Reaches branchRow here far
  · obtain ⟨word, first, hencode, hdecode, hkind, hlinks, hops⟩ :=
      encodeBranch_ok (k := 14) (by decide) hreach
    obtain ⟨second, hnop, hsecond⟩ := decodeOne_nop (here + 4)
    have hpair := disassembleBytes_pair hdecode hnop
    have hencode' : encodeBranch [.condition 14, .branchTarget far] here = .ok (toLeBytes word) :=
      hencode
    simp only [hencode']
    constructor
    · rintro ⟨-, first', second', hswept, hbranch, -⟩
      cases hpair.symm.trans hswept
      exact .inl ⟨hbranch.kind.symm.trans hkind, hbranch.links.symm.trans hlinks⟩
    · intro h
      obtain ⟨rfl, rfl⟩ := h.resolve_right (not_not_intro hreach)
      refine ⟨rfl, first, second, hpair, ⟨hkind, hlinks, ?_, ?_⟩, hsecond⟩
      · rw [hops]
        rfl
      · rw [hops]
        simp
  · obtain ⟨e, he, hrange⟩ := encodeBranch_far 14 hreach
    simp only [he]
    exact iff_of_true hrange (.inr hreach)

/-- The widened form of a conditional branch skips a `b`. -/
theorem widensTo_conditional (mnemonic : ArmMnemonic) (link : Bool) {k : Nat} (hk : k < 14)
    (here far : U64) :
    WidensTo Thumb.IsRangeError
        (fun bytes => ∃ first second, disassembleBytes here bytes = .ok [first, second] ∧
          BranchesTo .b false (some (BitVec.ofNat 8 k ^^^ 1)) (here + 8) first ∧
            BranchesTo .b link none far second)
        (encodeWidenedConditional mnemonic [.condition (BitVec.ofNat 8 k)] here far)
      ↔ link = false ∨ ¬ Reaches branchRow (here + 4) far := by
  obtain ⟨htaken, hmask, j, hj, hinverse, htakenInverse⟩ := condition_inverse k hk
  have hskip : encodeBranch (buildOperandsWithOverrides [.condition (BitVec.ofNat 8 k)]
      ((BitVec.ofNat 8 k ^^^ 1) &&& 0xf) (here + 8)) here
        = encodeBranch [.condition (BitVec.ofNat 8 j), .branchTarget (here + 8)] here := by
    rw [hmask, hinverse]
    rfl
  obtain ⟨word1, first, hencode1, hdecode1, hkind1, hlinks1, hops1⟩ :=
    encodeBranch_ok (by omega : j < 15) (reaches_skip here)
  rw [encodeWidenedConditional, takenCondition_condition, if_pos htaken]
  simp only [hskip, hencode1]
  by_cases hreach : Reaches branchRow (here + 4) far
  · obtain ⟨word2, second, hencode2, hdecode2, hkind2, hlinks2, hops2⟩ :=
      encodeBranch_ok (k := 14) (by decide) hreach
    have hpair := disassembleBytes_pair hdecode1 hdecode2
    have hencode' : encodeBranch [.condition 14, .branchTarget far] (here + 4)
        = .ok (toLeBytes word2) := hencode2
    have hbranch1 : BranchesTo .b false (some (BitVec.ofNat 8 k ^^^ 1)) (here + 8) first := by
      refine ⟨hkind1, hlinks1, ?_, ?_⟩
      · rw [hops1, hinverse, takenCondition_condition, if_pos htakenInverse]
      · rw [hops1]
        simp
    have hbranch2 : BranchesTo .b false none far second := by
      refine ⟨hkind2, hlinks2, ?_, ?_⟩
      · rw [hops2]
        rfl
      · rw [hops2]
        simp
    simp only [hencode']
    constructor
    · rintro ⟨-, first', second', hswept, -, hbranch⟩
      cases hpair.symm.trans hswept
      exact .inl (hbranch.links.symm.trans hlinks2)
    · intro h
      obtain rfl := h.resolve_right (not_not_intro hreach)
      exact ⟨rfl, first, second, hpair, hbranch1, hbranch2⟩
  · obtain ⟨e, he, hrange⟩ := encodeBranch_far 14 hreach
    simp only [he]
    exact iff_of_true hrange (.inr hreach)

/-- **The widened form of an ARM branch** is right exactly when it keeps the link bit, and for
a target out of reach, where it is refused. -/
theorem widensTo_iff (hd : decodeOne address word = .ok d) (hbranch : IsBranch d) :
    WidensTo Thumb.IsRangeError (Replaces d here far)
        (encodeWidenedConditional d.mnemonic (d.operands.filter fun o => !isBranchTarget o) here
          far)
      ↔ IsWidened d here far := by
  unfold Replaces IsWidened
  cases branchShape hd hbranch with
  | blx target hkind hops =>
    rw [hops]
    exact widensTo_plain d.mnemonic (links d) rfl here far
  | branch k target hk hkind hops =>
    rw [hops, takenCondition_condition]
    by_cases h14 : k < 14
    · rw [if_pos (condition_inverse k h14).1]
      exact widensTo_conditional d.mnemonic (links d) h14 here far
    · obtain rfl : k = 14 := by omega
      exact widensTo_plain d.mnemonic (links d) rfl here far

theorem encodeAmong_of_mem {operands : List DecodedOperand} {address : U64}
    {row : ArmOpcode} {w : Word} (hrow : encodeWithRow row operands address = .ok w)
    {rows : List ArmOpcode} (hmem : row ∈ rows) (lastErr : EncodeError) :
    ∃ w', encodeAmong operands address lastErr rows = .ok w' := by
  induction rows generalizing lastErr with
  | nil => cases hmem
  | cons first rest ih =>
    rw [encodeAmong]
    cases hfirst : encodeWithRow first operands address with
    | ok w' => exact ⟨w', rfl⟩
    | error e =>
      rcases List.mem_cons.mp hmem with rfl | hmem
      · cases hrow.symm.trans hfirst
      · exact ih hmem e

/-- A branch to its own address is encoded, in four bytes. -/
theorem encodeBytes_placeholder (hd : decodeOne address word = .ok d) (hbranch : IsBranch d)
    (here : U64) : ∃ bytes,
      encodeBytes d.mnemonic (d.operands.map (retarget here)) here = .ok bytes ∧
        bytes.length ≠ 8 := by
  have hdisplacement : branchDisplacement here here = -8 := by
    have hself : here - here - 8 = -8 := by bv_omega
    rw [branchDisplacement, hself]
    rfl
  obtain ⟨w, hw⟩ : ∃ w, encode d.mnemonic (d.operands.map (retarget here)) here = .ok w := by
    cases branchShape hd hbranch with
    | blx target hkind hops =>
      have hpack : ∃ w, encodeWithRow blxRow [.branchTarget here] here = .ok w := by
        rw [encode_blxRow, packBlx, hdisplacement]
        exact ⟨_, rfl⟩
      obtain ⟨w, hw⟩ := hpack
      rw [hkind, hops]
      exact encodeAmong_of_mem hw (by decide) _
    | branch k target hk hkind hops =>
      have hpack : ∃ w, encodeWithRow branchRow [.condition (BitVec.ofNat 8 k), .branchTarget here]
          here = .ok w := by
        rw [encode_branchRow, packBranch, hdisplacement]
        exact ⟨_, rfl⟩
      obtain ⟨w, hw⟩ := hpack
      rw [hkind, hops]
      exact encodeAmong_of_mem hw (by decide) _
  refine ⟨toLeBytes w, ?_, by rw [toLeBytes_length]; decide⟩
  rw [encodeBytes, hw]
  rfl

/-- A lifted ARM branch that layout marks is emitted as its widened form exactly when emit
comes to that form, and it is right. -/
theorem emittedWidened_lift (hd : decodeOne address word = .ok d) (hbranch : IsBranch d)
    {blockAtAddress : Map U64 BasicBlockId} {container : Option Container}
    {relocations : Map U64 FusionRelocationInfo} {l : InstructionLayout} {ctx : EmitContext}
    (hwide : l.strategy = .invertedConditional) :
    EmittedWidened arm Thumb.IsRangeError (Replaces d l.address)
        (liftInstruction arm blockAtAddress container relocations d) l ctx
      ↔ ∃ far, ReachesWidening arm (liftInstruction arm blockAtAddress container relocations d)
          l ctx far ∧ IsWidened d l.address far := by
  have hsource : (arm.instructionSourceSize d.mnemonic).toNat ≠ 8 := by
    show (4 : U64).toNat ≠ 8
    decide
  have hplaceholder := encodeBytes_placeholder hd hbranch l.address
  have hlifted := @placeholder_lift _ _ _ _ _ arm blockAtAddress container relocations d rfl rfl
    l.address
  rw [emittedWidened_iff (fun _ _ => rfl) hsource (by rw [hlifted]; exact hplaceholder) hwide]
  refine exists_congr fun far => and_congr_right fun _ => ?_
  rw [template_lift rfl]
  exact widensTo_iff hd hbranch

end Arm

/-! ## §7. Both instruction sets. -/

/-- **A branch that layout widened**, lifted from a sweep, is emitted as the claimed eight bytes
or refused for the distance exactly when nothing is copied and no relocation is left, and: for
Thumb, it has no condition, and is `b` or out of reach; in ARM mode, it is a `b`, or out of
reach. -/
theorem widenedBranch_iff (base : U64) (bytes : List Byte)
    (blockAtAddress : Map U64 BasicBlockId) (container : Option Container)
    (relocations : Map U64 FusionRelocationInfo) (l : InstructionLayout) (ctx : EmitContext)
    (hwide : l.strategy = .invertedConditional) :
    (∀ ds, Thumb.disassembleBytes base bytes = .ok ds → ∀ d ∈ ds, Thumb.IsBranch d →
      (EmittedWidened thumb Thumb.IsRangeError (Thumb.Replaces d l.address)
          (liftInstruction thumb blockAtAddress container relocations d) l ctx
        ↔ ∃ far, ReachesWidening thumb
            (liftInstruction thumb blockAtAddress container relocations d) l ctx far ∧
              Thumb.IsWidened d l.address far)) ∧
    ∀ ds, Arm.disassembleBytes base bytes = .ok ds → ∀ d ∈ ds, Arm.IsBranch d →
      (EmittedWidened arm Thumb.IsRangeError (Arm.Replaces d l.address)
          (liftInstruction arm blockAtAddress container relocations d) l ctx
        ↔ ∃ far, ReachesWidening arm
            (liftInstruction arm blockAtAddress container relocations d) l ctx far ∧
              Arm.IsWidened d l.address far) := by
  constructor
  · intro ds hswept d hmem hbranch
    exact Thumb.emittedWidened_lift ((Thumb.disassembleBytes_spec hswept).2.2 d hmem) hbranch hwide
  · intro ds hswept d hmem hbranch
    exact Arm.emittedWidened_lift ((Arm.disassembleBytes_spec hswept).2.2 d hmem) hbranch hwide

/-! ## §8. A branch that keeps its meaning, and one that cannot. -/

/-- No block, container or relocation, and a place for eight bytes. -/
def markedAt (address : U64) : InstructionLayout := ⟨address, 8, .invertedConditional⟩

def plainContext : EmitContext := ⟨[], none, none⟩

/-- The ARM conditional branch `beq` to 0x1008. -/
def skipIfEqual : Arm.DecodedInstruction where
  address := 0x1000
  word := 0x0a000000
  mnemonic := .b
  operands := [.condition 0, .branchTarget 0x1008]
  row := some Arm.branchRow
  neonRow := none

/-- Moved, it is widened. -/
theorem skipIfEqual_widened :
    Arm.disassembleBytes 0x1000 [0x00, 0x00, 0x00, 0x0a] = .ok [skipIfEqual] ∧
    EmittedWidened arm Thumb.IsRangeError (Arm.Replaces skipIfEqual 0x2000)
      (liftInstruction arm (fun _ => none) none (fun _ => none) skipIfEqual) (markedAt 0x2000)
      plainContext := by
  have hswept : Arm.disassembleBytes 0x1000 [0x00, 0x00, 0x00, 0x0a] = .ok [skipIfEqual] := by
    decide +kernel
  refine ⟨hswept, ((widenedBranch_iff 0x1000 [0x00, 0x00, 0x00, 0x0a] (fun _ => none) none
    (fun _ => none) (markedAt 0x2000) plainContext rfl).2 _ hswept skipIfEqual
    List.mem_cons_self ⟨0x1008, by decide⟩).mpr
      ⟨0x1008, ⟨rfl, rfl, .absolute 0x1008, rfl, rfl⟩, ?_⟩⟩
  exact .inl rfl

/-- The Thumb conditional branch `beq.n` to 0x1004. -/
def skipNarrow : Thumb.DecodedInstruction where
  address := 0x1000
  word := 0xd000
  width := .halfword
  mnemonic := .b
  operands := [.condition 0, .branchTarget 0x1004, .opaqueBits 0 0xfff]
  row := some ⟨.b, 0xd000, 0xf000, .halfword, "b%8-11c.n\t%0-7B%X"⟩
  neonRow := none

/-- A conditional Thumb branch is not widened, and not for the distance. -/
theorem skipNarrow_notWidened :
    Thumb.disassembleBytes 0x1000 [0x00, 0xd0] = .ok [skipNarrow] ∧ Thumb.IsBranch skipNarrow ∧
    ¬ EmittedWidened thumb Thumb.IsRangeError (Thumb.Replaces skipNarrow 0x2000)
      (liftInstruction thumb (fun _ => none) none (fun _ => none) skipNarrow) (markedAt 0x2000)
      plainContext := by
  have hswept : Thumb.disassembleBytes 0x1000 [0x00, 0xd0] = .ok [skipNarrow] := by
    decide +kernel
  have hbranch : Thumb.IsBranch skipNarrow := ⟨by decide, 0x1004, by decide⟩
  refine ⟨hswept, hbranch, fun hwidened => ?_⟩
  have hdecoded := (Thumb.disassembleBytes_spec hswept).2.2 skipNarrow List.mem_cons_self
  obtain ⟨far, -, htaken, -⟩ :=
    (Thumb.emittedWidened_lift hdecoded hbranch (l := markedAt 0x2000) rfl).mp hwidened
  revert htaken
  decide

end Armv8Encode.Armv7

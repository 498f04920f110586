/-
  Armv8Encode.Isa.Armv7.ArmRetarget — giving an ARM branch another target.

  Two rows have a branch target: `b`, which is also `bl`, and `blx`.  The
  encoder takes the link bit from the opcode, where it is zero, and rounds a
  backward halfword offset of `blx` the wrong way.
-/
import Armv8Encode.Isa.Armv7.ArmRoundTrip
import Armv8Encode.Isa.Armv7.ThumbRetarget

namespace Armv8Encode.Armv7.Arm

open Lib

/-! ## §1. The two rows. -/

def branchRow : ArmOpcode := ⟨.b, 0x0a000000, 0x0e000000, "b%24'l%c\t%b"⟩

def blxRow : ArmOpcode := ⟨.blx, 0xfa000000, 0xfe000000, "blx\t%B"⟩

/-- Rows that a word of the branch class can match. -/
def isBranchClass (opcode mask : Word) : Bool :=
  (opcode ^^^ (0x0a000000 : Word)) &&& mask &&& (0x0e000000 : Word) == 0

theorem armOpcodeTable_branchClass :
    (armOpcodeTable.filter fun row => isBranchClass row.opcode row.mask) = [blxRow, branchRow] := by
  decide +kernel

theorem neonOpcodeTable_branchClass :
    (neonOpcodeTable.filter fun row => row.isa != .thumb && isBranchClass row.opcode row.mask)
      = [] := by
  decide +kernel

variable {word : Word}

/-- A row that a word of the branch class matches is of that class. -/
theorem isBranchClass_of_match {opcode mask : Word}
    (hclass : word &&& (0x0e000000 : Word) = 0x0a000000) (h : word &&& mask = opcode) :
    isBranchClass opcode mask = true := by
  rw [isBranchClass, beq_iff_eq, ← h]
  show _ = 0#32
  apply BitVec.eq_of_getLsbD_eq
  intro i hi
  have hbit := congrArg (fun w : Word => w.getLsbD i) hclass
  simp only [BitVec.getLsbD_and, BitVec.getLsbD_xor, BitVec.getLsbD_zero] at hbit ⊢
  cases hm : (0x0e000000 : Word).getLsbD i
  · simp
  · rw [hm, Bool.and_true] at hbit
    rw [← hbit]
    cases word.getLsbD i <;> cases mask.getLsbD i <;> simp

theorem matchNeonArm_branch (hclass : word &&& (0x0e000000 : Word) = 0x0a000000) :
    matchNeonArm word = none := by
  unfold matchNeonArm
  rw [List.find?_eq_none]
  intro row hrow hmatch
  rw [Bool.and_eq_true, beq_iff_eq] at hmatch
  have hmem : row ∈ neonOpcodeTable.filter fun row =>
      row.isa != .thumb && isBranchClass row.opcode row.mask := by
    rw [List.mem_filter, Bool.and_eq_true]
    exact ⟨hrow, hmatch.1, isBranchClass_of_match hclass hmatch.2⟩
  rw [neonOpcodeTable_branchClass] at hmem
  cases hmem

theorem matchGenerated_branch (hclass : word &&& (0x0e000000 : Word) = 0x0a000000) :
    matchGenerated word
      = if word &&& (0xfe000000 : Word) = 0xfa000000 then some blxRow else some branchRow := by
  have hfilter : matchGenerated word
      = (armOpcodeTable.filter fun row => isBranchClass row.opcode row.mask).find?
          fun row => word &&& row.mask == row.opcode := by
    unfold matchGenerated
    rw [List.find?_filter]
    congr 1
    funext row
    by_cases h : word &&& row.mask = row.opcode
    · simp [isBranchClass_of_match hclass h, h]
    · simp [h]
  rw [hfilter, armOpcodeTable_branchClass]
  by_cases hblx : word &&& (0xfe000000 : Word) = 0xfa000000
  · rw [if_pos hblx]
    exact List.find?_cons_of_pos (beq_iff_eq.mpr hblx)
  · rw [if_neg hblx, List.find?_cons_of_neg (by simpa [blxRow] using hblx)]
    exact List.find?_cons_of_pos (beq_iff_eq.mpr hclass)

/-! ## §2. Offsets. -/

theorem wordOffset_eq (word : Word) : wordOffset word = (word.setWidth 24).signExtend 64 := by
  have hlow : ((word &&& (0xffffff : Word)) <<< (32 - 24)).sshiftRight (32 - 24)
      = (word.setWidth 24).signExtend 32 := by
    rw [sshiftRight_shiftLeft _ (by decide) (by decide)]
    congr 1
    exact setWidth_and_ones word (by decide)
  show BitVec.signExtend 64 (((word &&& (0xffffff : Word)) <<< (32 - 24)).sshiftRight (32 - 24)) = _
  rw [hlow, signExtend_signExtend _ (by decide) (by decide)]

theorem wordOffset_of_placed {n : Int} (hlo : -2 ^ 23 ≤ n) (hhi : n < 2 ^ 23)
    (h : word.setWidth 24 = BitVec.ofInt 24 n) : wordOffset word = BitVec.ofInt 64 n := by
  rw [wordOffset_eq, h]
  apply BitVec.eq_of_toInt_eq
  rw [BitVec.toInt_signExtend_of_le (by omega), toInt_ofInt_small (by omega) (by omega),
    BitVec.toInt_ofInt]
  apply Int.bmod_eq_of_le <;> norm_num <;> omega

/-! ## §3. Words of the two rows. -/

theorem escapes_branchRow : escapes branchRow.format = [.code [] 'c', .code [] 'b'] := by rfl

theorem escapes_blxRow : escapes blxRow.format = [.code [] 'B'] := by rfl

theorem operands_branchRow (word : Word) (address : U64) :
    decodeOperandsFromFormat branchRow.format word address
      = [.condition (((word >>> 28) &&& (0xf : Word)).setWidth 8),
          .branchTarget (address + 8 + wordOffset word * 4)] := by
  rw [decodeOperandsFromFormat, escapes_branchRow]
  rfl

theorem operands_blxRow (word : Word) (address : U64) :
    decodeOperandsFromFormat blxRow.format word address
      = [.branchTarget (address + (8 : U64) + (wordOffset word * (4 : U64)
          + ((word >>> 24) &&& 1#32).setWidth 64 * (2 : U64)))] := by
  rw [decodeOperandsFromFormat, escapes_blxRow]
  rfl

theorem encode_branchRow (cond : Byte) (target address : U64) :
    encodeWithRow branchRow [.condition cond, .branchTarget target] address
      = packBranch (placeField 0x0a000000 28 31 (cond.setWidth 32)) target address 1 := by
  have hcond : encodeEscape [.condition cond, .branchTarget target] address branchRow.opcode 0
      (.code [] 'c') = .ok (placeField 0x0a000000 28 31 (cond.setWidth 32), 1) := rfl
  have hpack : ∀ base, packFixed 'b' (.branchTarget target) 1 base address
      = packBranch base target address 1 := fun _ => rfl
  unfold encodeWithRow encodeWithFormat
  rw [escapes_branchRow, encodeWalk, hcond]
  show Except.bind (encodeWalk _ address _ 1 [.code [] 'b']) _ = _
  rw [encodeWalk_lastLetter (by decide) rfl]
  show Except.bind (Except.map _ (packFixed 'b' (.branchTarget target) 1 _ address)) _ = _
  rw [hpack]
  cases packBranch (placeField 0x0a000000 28 31 (cond.setWidth 32)) target address 1 <;> rfl

theorem encode_blxRow (target address : U64) :
    encodeWithRow blxRow [.branchTarget target] address = packBlx 0xfa000000 target address 0 := by
  unfold encodeWithRow encodeWithFormat
  rw [escapes_blxRow, encodeWalk_lastLetter (by decide) rfl]
  show Except.bind (Except.map _ (packFixed 'B' (.branchTarget target) 0 _ address)) _ = _
  rw [packFixed_B]
  show Except.bind (Except.map _ (packBlx 0xfa000000 target address 0)) _ = _
  cases packBlx 0xfa000000 target address 0 <;> rfl

/-- The row of a word of the branch class. -/
def classRow (word : Word) : ArmOpcode :=
  if word &&& (0xfe000000 : Word) = 0xfa000000 then blxRow else branchRow

/-- A word of the branch class, decoded. -/
theorem decodeOne_branch (hclass : word &&& (0x0e000000 : Word) = 0x0a000000) (address : U64) :
    decodeOne address word = .ok ⟨address, word, (classRow word).mnemonic,
      decodeOperandsFromFormat (classRow word).format word address, some (classRow word), none⟩ := by
  have hmatch : matchGenerated word = some (classRow word) := by
    rw [matchGenerated_branch hclass, classRow]
    split <;> rfl
  unfold decodeOne
  rw [matchNeonArm_branch hclass, hmatch]

/-! ## §4. No other row has a branch target. -/

mutual

/-- An escape with one of the two branch letters. -/
def escapeBranches : Escape → Bool
  | .code _ letter => letter == 'b' || letter == 'B'
  | .wrapper es => escapesBranch es

def escapesBranch : List Escape → Bool
  | [] => false
  | e :: rest => escapeBranches e || escapesBranch rest

end

def isBranchRow (row : ArmOpcode) : Bool := escapesBranch (escapes row.format)

theorem armOpcodeTable_branchRows : armOpcodeTable.filter isBranchRow = [blxRow, branchRow] := by
  decide

theorem ranged_no_branch {bitfield : List Char} {f : Nat → Nat → DecodedOperand}
    (h : ∀ lo hi, isBranchTarget (f lo hi) = false) :
    ∀ o ∈ ranged bitfield f, isBranchTarget o = false := by
  intro o ho
  unfold ranged at ho
  split at ho
  · rw [List.mem_singleton.mp ho]
    exact h _ _
  · cases ho

theorem decodeFixed_no_branch {letter : Char} (h : (letter == 'b' || letter == 'B') = false)
    (word : Word) (address : U64) :
    ∀ o ∈ decodeFixed letter word address, isBranchTarget o = false := by
  have hliteral : ∀ o ∈ literalTarget word address, isBranchTarget o = false := by
    intro o ho
    unfold literalTarget at ho
    split at ho
    · rw [List.mem_singleton.mp ho]
      rfl
    · cases ho
  unfold decodeFixed
  split <;> first
    | exact absurd h (by decide)
    | exact no_branch_singleton rfl
    | exact no_branch_nil
    | (intro o ho
       rcases List.mem_cons.mp ho with rfl | ho
       · rfl
       · first
         | exact hliteral o ho
         | exact no_branch_singleton rfl o ho)

theorem decodeCode_no_branch {bitfield : List Char} {letter : Char}
    (h : (letter == 'b' || letter == 'B') = false) (word : Word) (address : U64) :
    ∀ o ∈ decodeCode bitfield letter word address, isBranchTarget o = false := by
  unfold decodeCode
  split <;> first
    | exact ranged_no_branch fun _ _ => rfl
    | (split
       · exact decodeFixed_no_branch h word address
       · simp)

mutual

theorem decodeEscape_no_branch (word : Word) (address : U64) (e : Escape)
    (h : escapeBranches e = false) :
    ∀ o ∈ decodeEscape word address e, isBranchTarget o = false := by
  match e with
  | .code bitfield letter =>
    unfold escapeBranches at h
    unfold decodeEscape
    exact decodeCode_no_branch h word address
  | .wrapper es =>
    unfold escapeBranches at h
    unfold decodeEscape
    exact decodeEscapes_no_branch word address es h

theorem decodeEscapes_no_branch (word : Word) (address : U64) (es : List Escape)
    (h : escapesBranch es = false) :
    ∀ o ∈ decodeEscapes word address es, isBranchTarget o = false := by
  match es with
  | [] =>
    unfold decodeEscapes
    simp
  | e :: es =>
    unfold escapesBranch at h
    rw [Bool.or_eq_false_iff] at h
    unfold decodeEscapes
    intro o ho
    rcases List.mem_append.mp ho with ho | ho
    · exact decodeEscape_no_branch word address e h.1 o ho
    · exact decodeEscapes_no_branch word address es h.2 o ho

end

theorem branchRow_of_target {row : ArmOpcode} (hmem : row ∈ armOpcodeTable) {word : Word}
    {address old : U64}
    (hold : .branchTarget old ∈ decodeOperandsFromFormat row.format word address) :
    row = blxRow ∨ row = branchRow := by
  have hbranch : isBranchRow row = true := by
    by_contra hno
    have hfalse : escapesBranch (escapes row.format) = false := by simpa [isBranchRow] using hno
    exact absurd (decodeEscapes_no_branch word address _ hfalse _ hold) (by simp [isBranchTarget])
  have hfilter : row ∈ armOpcodeTable.filter isBranchRow := List.mem_filter.mpr ⟨hmem, hbranch⟩
  rw [armOpcodeTable_branchRows] at hfilter
  simpa using hfilter

/-- A decoded word with a branch target is of the branch class, and its row is one of the two. -/
theorem branchClass_of_target {address : U64} {d : DecodedInstruction} {old : U64}
    (hd : decodeOne address word = .ok d) (hold : .branchTarget old ∈ d.operands) :
    word &&& (0x0e000000 : Word) = 0x0a000000 ∧ d = ⟨address, word, (classRow word).mnemonic,
      decodeOperandsFromFormat (classRow word).format word address, some (classRow word), none⟩ := by
  have hclass : word &&& (0x0e000000 : Word) = 0x0a000000 := by
    unfold decodeOne at hd
    split at hd
    · cases hd
      exact absurd (List.mem_singleton.mp hold) (by simp)
    · split at hd
      · rename_i row hmatch
        cases hd
        have hmem := List.mem_of_find?_eq_some hmatch
        have hfound := List.find?_some hmatch
        have hfixed : word &&& row.mask = row.opcode := beq_iff_eq.mp hfound
        rcases branchRow_of_target hmem hold with rfl | rfl
        · calc word &&& (0x0e000000 : Word)
              = word &&& (0xfe000000 : Word) &&& (0x0e000000 : Word) := by
                rw [BitVec.and_assoc]
                rfl
            _ = (0xfa000000 : Word) &&& (0x0e000000 : Word) := congrArg (· &&& _) hfixed
            _ = 0x0a000000 := rfl
        · exact hfixed
      · cases hd
  rw [decodeOne_branch hclass] at hd
  exact ⟨hclass, (Except.ok.inj hd).symm⟩

/-! ## §5. What a new target does. -/

/-- The row's branch can express the distance to the target: words for `b` and `bl`,
halfwords for `blx`. -/
def Reaches (row : ArmOpcode) (address target : U64) : Prop :=
  let d := branchDisplacement target address
  d % (if row = branchRow then 4 else 2) = 0 ∧ -2 ^ 25 ≤ d ∧ d < 2 ^ 25

/-- The bit that makes `bl` out of `b`; the other row uses it for its offset. -/
def linkBit (row : ArmOpcode) (word : Word) : Bool :=
  if row = branchRow then word.getLsbD 24 else false

/-- A branch with a new target at a new address: the encoder fails only for a target that it
cannot reach, and what it returns decodes there as the same row, with the same link bit and
operands but for the new target. -/
def TakesEffect (d : DecodedInstruction) (row : ArmOpcode) (address2 target : U64) : Prop :=
  match encodeWithRow row (d.operands.map (retarget target)) address2 with
  | .error _ => ¬ Reaches row address2 target
  | .ok w =>
    ∃ d', decodeOne address2 w = .ok d' ∧ d'.row = some row
      ∧ linkBit row w = linkBit row d.word ∧ d'.operands = d.operands.map (retarget target)

/-- A branch without link, or a target that the encoder finds too far; for `blx`, no
backward distance of an odd number of halfwords. -/
def IsKeptBranch (row : ArmOpcode) (word : Word) (address2 target : U64) : Prop :=
  if row = branchRow then word.getLsbD 24 = false ∨ ¬ Reaches row address2 target
  else
    let d := branchDisplacement target address2
    ¬ (-2 ^ 25 - 4 < d ∧ d < 0 ∧ d % 4 = 2)

theorem branchDisplacement_inv (target address : U64) :
    address + 8 + BitVec.ofInt 64 (branchDisplacement target address) = target := by
  rw [branchDisplacement, BitVec.ofInt_toInt]
  bv_omega

theorem ofInt_mul_four (n : Int) : BitVec.ofInt 64 n * 4 = BitVec.ofInt 64 (n * 4) := by
  rw [BitVec.ofInt_mul]
  rfl

/-- A packed branch: condition and offset over the opcode. -/
def placedBranch (cond : Byte) (words : Int) : Word :=
  placeField (placeField 0x0a000000 28 31 (cond.setWidth 32)) 0 23 (BitVec.ofInt 32 words)

theorem getLsbD_placedBranch (cond : Byte) (words : Int) (i : Nat) :
    (placedBranch cond words).getLsbD i
      = bif (rangeMask 0 23).getLsbD i then (BitVec.ofInt 32 words).getLsbD i
        else bif (rangeMask 28 31).getLsbD i then (cond.setWidth 32 <<< 28 : Word).getLsbD i
        else (0x0a000000 : Word).getLsbD i := by
  rw [placedBranch, placeField_eq_splice, placeField_eq_splice, getLsbD_splice, getLsbD_splice,
    BitVec.shiftLeft_zero]

theorem placedBranch_class (cond : Byte) (words : Int) :
    placedBranch cond words &&& (0x0e000000 : Word) = 0x0a000000 := by
  apply BitVec.eq_of_getLsbD_eq
  intro i hi
  rw [BitVec.getLsbD_and, getLsbD_placedBranch]
  interval_cases i <;> simp [rangeMask, fieldMask]

theorem placedBranch_low (cond : Byte) (words : Int) :
    (placedBranch cond words).setWidth 24 = BitVec.ofInt 24 words := by
  rw [← setWidth_ofInt words (by omega : 24 ≤ 32)]
  apply BitVec.eq_of_getLsbD_eq
  intro i hi
  have hmask : (rangeMask 0 23).getLsbD i = true := by
    rw [rangeMask, getLsbD_fieldMask (by omega)]
    simp [hi, show i < 32 by omega]
  rw [BitVec.getLsbD_setWidth, BitVec.getLsbD_setWidth, getLsbD_placedBranch, hmask, cond_true]

theorem placedBranch_link (cond : Byte) (words : Int) :
    (placedBranch cond words).getLsbD 24 = false := by
  rw [getLsbD_placedBranch]
  rfl

/-- The condition of a word. -/
def conditionOf (word : Word) : Byte := ((word >>> 28) &&& (0xf : Word)).setWidth 8

theorem placedBranch_condition (word : Word) (words : Int) :
    conditionOf (placedBranch (conditionOf word) words) = conditionOf word := by
  apply BitVec.eq_of_getLsbD_eq
  intro i hi
  rw [conditionOf, BitVec.getLsbD_setWidth, BitVec.getLsbD_and, BitVec.getLsbD_ushiftRight,
    getLsbD_placedBranch]
  interval_cases i <;> simp [rangeMask, fieldMask, conditionOf]

/-- The bits that tell `blx` from the other row. -/
theorem placedBranch_top (hclass : word &&& (0x0e000000 : Word) = 0x0a000000) (words : Int) :
    placedBranch (conditionOf word) words &&& (0xfe000000 : Word)
      = word &&& (0xfe000000 : Word) := by
  apply BitVec.eq_of_getLsbD_eq
  intro i hi
  have hbit := congrArg (fun w : Word => w.getLsbD i) hclass
  rw [BitVec.getLsbD_and, BitVec.getLsbD_and, getLsbD_placedBranch]
  simp only [BitVec.getLsbD_and] at hbit
  interval_cases i <;> simp [rangeMask, fieldMask, conditionOf] at hbit ⊢ <;> simp [hbit]

theorem classRow_placedBranch (hclass : word &&& (0x0e000000 : Word) = 0x0a000000) (words : Int) :
    classRow (placedBranch (conditionOf word) words) = classRow word := by
  rw [classRow, placedBranch_top hclass, classRow]

theorem takesEffect_branchRow (hclass : word &&& (0x0e000000 : Word) = 0x0a000000)
    (hrow : classRow word = branchRow) (address address2 target : U64) :
    TakesEffect ⟨address, word, branchRow.mnemonic,
        decodeOperandsFromFormat branchRow.format word address, some branchRow, none⟩ branchRow
        address2 target
      ↔ word.getLsbD 24 = false ∨ ¬ Reaches branchRow address2 target := by
  have hops : (decodeOperandsFromFormat branchRow.format word address).map (retarget target)
      = [.condition (conditionOf word), .branchTarget target] := by
    rw [operands_branchRow]
    rfl
  have hdisp := branchDisplacement_inv target address2
  unfold TakesEffect
  dsimp only
  rw [hops, encode_branchRow]
  unfold packBranch Reaches
  dsimp only
  rw [if_pos rfl]
  generalize branchDisplacement target address2 = n at hdisp ⊢
  by_cases h4 : n % 4 = 0
  · have hdiv : n.tdiv 4 = n / 4 := Int.tdiv_eq_ediv_of_dvd (Int.dvd_of_emod_eq_zero h4)
    rw [if_neg (by omega), hdiv]
    by_cases hrange : n / 4 < -2 ^ 23 ∨ 2 ^ 23 ≤ n / 4
    · rw [if_pos hrange]
      exact iff_of_true (by omega) (.inr (by omega))
    · rw [if_neg hrange]
      show (∃ d', decodeOne address2 (placedBranch (conditionOf word) (n / 4)) = .ok d'
        ∧ d'.row = some branchRow
        ∧ linkBit branchRow (placedBranch (conditionOf word) (n / 4)) = linkBit branchRow word
        ∧ d'.operands = [.condition (conditionOf word), .branchTarget target]) ↔ _
      rw [decodeOne_branch (placedBranch_class _ _), classRow_placedBranch hclass, hrow]
      have hoff : wordOffset (placedBranch (conditionOf word) (n / 4)) * 4 = BitVec.ofInt 64 n := by
        rw [wordOffset_of_placed (by omega) (by omega) (placedBranch_low _ _), ofInt_mul_four,
          Int.ediv_mul_cancel (Int.dvd_of_emod_eq_zero h4)]
      have hlink : linkBit branchRow (placedBranch (conditionOf word) (n / 4)) = false := by
        rw [linkBit, if_pos rfl]
        exact placedBranch_link _ _
      have hdecoded : decodeOperandsFromFormat branchRow.format
          (placedBranch (conditionOf word) (n / 4)) address2
          = [.condition (conditionOf word), .branchTarget target] := by
        rw [operands_branchRow, hoff, hdisp]
        show [DecodedOperand.condition (conditionOf (placedBranch (conditionOf word) (n / 4))), _] = _
        rw [placedBranch_condition]
      rw [hlink, hdecoded, linkBit, if_pos rfl]
      constructor
      · rintro ⟨d', -, -, hbit, -⟩
        exact .inl hbit.symm
      · intro hkept
        exact ⟨_, rfl, rfl, (hkept.resolve_right fun hfar => hfar ⟨h4, by omega, by omega⟩).symm,
          rfl⟩
  · rw [if_pos h4]
    exact iff_of_true (by omega) (.inr (by omega))

/-- A packed `blx`: offset and halfword bit over the opcode. -/
def placedBlx (words : Int) (half : Word) : Word :=
  placeField (placeField 0xfa000000 0 23 (BitVec.ofInt 32 words)) 24 24 half

theorem getLsbD_placedBlx (words : Int) (half : Word) (i : Nat) :
    (placedBlx words half).getLsbD i
      = bif (rangeMask 24 24).getLsbD i then (half <<< 24).getLsbD i
        else bif (rangeMask 0 23).getLsbD i then (BitVec.ofInt 32 words).getLsbD i
        else (0xfa000000 : Word).getLsbD i := by
  rw [placedBlx, placeField_eq_splice, placeField_eq_splice, getLsbD_splice, getLsbD_splice,
    BitVec.shiftLeft_zero]

theorem placedBlx_top (words : Int) (half : Word) :
    placedBlx words half &&& (0xfe000000 : Word) = 0xfa000000 := by
  apply BitVec.eq_of_getLsbD_eq
  intro i hi
  rw [BitVec.getLsbD_and, getLsbD_placedBlx]
  interval_cases i <;> simp [rangeMask, fieldMask]

theorem placedBlx_low (words : Int) (half : Word) :
    (placedBlx words half).setWidth 24 = BitVec.ofInt 24 words := by
  rw [← setWidth_ofInt words (by omega : 24 ≤ 32)]
  apply BitVec.eq_of_getLsbD_eq
  intro i hi
  have hmask : (rangeMask 0 23).getLsbD i = true := by
    rw [rangeMask, getLsbD_fieldMask (by omega)]
    simp [hi, show i < 32 by omega]
  have hother : (rangeMask 24 24).getLsbD i = false := by
    rw [rangeMask, getLsbD_fieldMask (by omega)]
    simp [show ¬ 24 ≤ i by omega]
  rw [BitVec.getLsbD_setWidth, BitVec.getLsbD_setWidth, getLsbD_placedBlx, hmask, hother,
    cond_false, cond_true]

theorem placedBlx_half (words : Int) (half : Word) :
    (placedBlx words half >>> 24) &&& 1#32 = half &&& 1#32 := by
  rw [BitVec.and_one_eq_setWidth_ofBool_getLsbD, BitVec.and_one_eq_setWidth_ofBool_getLsbD,
    BitVec.getLsbD_ushiftRight, getLsbD_placedBlx]
  simp [rangeMask, fieldMask]

/-- The halfword bit that the encoder takes from a distance. -/
theorem halfOf_displacement {n : Int} (heven : n % 2 = 0) :
    (((BitVec.ofInt 32 n &&& (2 : Word)) >>> 1) &&& 1#32).setWidth 64 * (2 : U64)
      = BitVec.ofInt 64 (n % 4) := by
  have hbit : ((BitVec.ofInt 32 n &&& (2 : Word)) >>> 1).getLsbD 0 = decide (n % 4 = 2) := by
    have hshift : ((BitVec.ofInt 32 n &&& (2 : Word)) >>> 1).getLsbD 0
        = (BitVec.ofInt 32 n).getLsbD 1 := by
      simp
    rw [hshift, BitVec.getLsbD, BitVec.toNat_ofInt, Nat.testBit_eq_decide_div_mod_eq,
      decide_eq_decide]
    omega
  rw [BitVec.and_one_eq_setWidth_ofBool_getLsbD, hbit]
  by_cases h2 : n % 4 = 2
  · rw [decide_eq_true h2, h2]
    rfl
  · rw [decide_eq_false h2, show n % 4 = 0 by omega]
    rfl

/-- The distance that a packed `blx` expresses. -/
theorem placedBlx_offset {n words : Int} (heven : n % 2 = 0) (hlo : -2 ^ 23 ≤ words)
    (hhi : words < 2 ^ 23) :
    wordOffset (placedBlx words ((BitVec.ofInt 32 n &&& (2 : Word)) >>> 1)) * (4 : U64)
        + ((placedBlx words ((BitVec.ofInt 32 n &&& (2 : Word)) >>> 1) >>> 24) &&& 1#32).setWidth 64
          * (2 : U64)
      = BitVec.ofInt 64 (words * 4 + n % 4) := by
  rw [placedBlx_half, halfOf_displacement heven, wordOffset_of_placed hlo hhi (placedBlx_low _ _),
    ofInt_mul_four, BitVec.ofInt_add]

theorem ofInt_inj_small {m n : Int} (hm : -2 ^ 62 ≤ m ∧ m < 2 ^ 62) (hn : -2 ^ 62 ≤ n ∧ n < 2 ^ 62) :
    BitVec.ofInt 64 m = BitVec.ofInt 64 n ↔ m = n := by
  constructor
  · intro h
    have hint := congrArg BitVec.toInt h
    rwa [toInt_ofInt_small (by omega) (by omega), toInt_ofInt_small (by omega) (by omega)] at hint
  · exact fun h => h ▸ rfl

theorem takesEffect_blxRow (word : Word) (address address2 target : U64) :
    TakesEffect ⟨address, word, blxRow.mnemonic,
        decodeOperandsFromFormat blxRow.format word address, some blxRow, none⟩ blxRow
        address2 target
      ↔ ¬ (-2 ^ 25 - 4 < branchDisplacement target address2
        ∧ branchDisplacement target address2 < 0 ∧ branchDisplacement target address2 % 4 = 2) := by
  have hops : (decodeOperandsFromFormat blxRow.format word address).map (retarget target)
      = [.branchTarget target] := by
    rw [operands_blxRow]
    rfl
  have hdisp := branchDisplacement_inv target address2
  unfold TakesEffect
  dsimp only
  rw [hops, encode_blxRow]
  unfold packBlx Reaches
  dsimp only
  rw [if_neg (by decide : blxRow ≠ branchRow)]
  generalize branchDisplacement target address2 = n at hdisp ⊢
  by_cases heven : n % 2 = 0
  · -- the division rounds towards zero
    have hdiv : n.tdiv 4 = n / 4 + if n < 0 ∧ n % 4 = 2 then 1 else 0 := by
      rw [Int.tdiv_eq_ediv, show (4 : Int).sign = 1 from rfl]
      by_cases hneg : n < 0 ∧ n % 4 = 2
      · rw [if_neg (by omega), if_pos hneg]
      · rw [if_pos (by omega), if_neg hneg]
    rw [if_neg (by omega)]
    by_cases hrange : n.tdiv 4 < -2 ^ 23 ∨ 2 ^ 23 ≤ n.tdiv 4
    · rw [if_pos hrange]
      have hfar : n ≤ -2 ^ 25 - 4 ∨ 2 ^ 25 ≤ n := by
        rw [hdiv] at hrange
        split at hrange <;> omega
      exact iff_of_true (by omega) (by omega)
    · rw [if_neg hrange]
      have hclass : placedBlx (n.tdiv 4) ((BitVec.ofInt 32 n &&& (2 : Word)) >>> 1)
          &&& (0x0e000000 : Word) = 0x0a000000 := by
        calc _ = placedBlx (n.tdiv 4) ((BitVec.ofInt 32 n &&& (2 : Word)) >>> 1)
              &&& (0xfe000000 : Word) &&& (0x0e000000 : Word) := by
                rw [BitVec.and_assoc]
                rfl
          _ = (0xfa000000 : Word) &&& (0x0e000000 : Word) := by rw [placedBlx_top]
          _ = 0x0a000000 := rfl
      show (∃ d', decodeOne address2
          (placedBlx (n.tdiv 4) ((BitVec.ofInt 32 n &&& (2 : Word)) >>> 1)) = .ok d'
        ∧ d'.row = some blxRow ∧ _ ∧ d'.operands = [.branchTarget target]) ↔ _
      rw [decodeOne_branch hclass, classRow, if_pos (placedBlx_top _ _), operands_blxRow,
        placedBlx_offset heven (by omega) (by omega), ← hdisp]
      have hsmall : -2 ^ 26 ≤ n ∧ n < 2 ^ 26 := by
        rw [hdiv] at hrange
        split at hrange <;> omega
      have htarget : address2 + 8 + BitVec.ofInt 64 (n.tdiv 4 * 4 + n % 4)
          = address2 + 8 + BitVec.ofInt 64 n ↔ ¬ (-2 ^ 25 - 4 < n ∧ n < 0 ∧ n % 4 = 2) := by
        rw [BitVec.add_right_inj, ofInt_inj_small (by omega) (by omega), hdiv]
        rw [hdiv] at hrange
        split at hrange <;> rename_i hneg
        · rw [if_pos hneg]
          omega
        · rw [if_neg hneg]
          omega
      rw [← htarget]
      constructor
      · rintro ⟨d', hd', -, -, hops'⟩
        cases hd'
        exact DecodedOperand.branchTarget.inj (List.cons.inj hops').1
      · intro heq
        exact ⟨_, rfl, rfl, rfl, by rw [heq]⟩
  · rw [if_pos heven]
    exact iff_of_true (by omega) (by omega)

/-- A retargeted ARM branch takes effect unless it loses its link bit or its halfword bit. -/
theorem takesEffect_iff {address : U64} {d : DecodedInstruction} {old : U64}
    (hd : decodeOne address word = .ok d) (hold : .branchTarget old ∈ d.operands)
    (address2 target : U64) :
    ∃ row, d.row = some row
      ∧ (TakesEffect d row address2 target ↔ IsKeptBranch row word address2 target) := by
  obtain ⟨hclass, rfl⟩ := branchClass_of_target hd hold
  refine ⟨classRow word, rfl, ?_⟩
  by_cases hblx : word &&& (0xfe000000 : Word) = 0xfa000000
  · have hrow : classRow word = blxRow := if_pos hblx
    rw [hrow, IsKeptBranch, if_neg (by decide)]
    exact takesEffect_blxRow word address address2 target
  · have hrow : classRow word = branchRow := if_neg hblx
    rw [hrow, IsKeptBranch, if_pos rfl]
    exact takesEffect_branchRow hclass hrow address address2 target

end Armv8Encode.Armv7.Arm

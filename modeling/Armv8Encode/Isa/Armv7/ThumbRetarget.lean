/-
  Armv8Encode.Isa.Armv7.ThumbRetarget — giving a Thumb branch another target.

  The operands of a decoded branch are its target, the registers and bits
  around it, and last the bits that the row's mask leaves open, among them the
  displacement.  The encoder packs the new target and then the last operand
  over it.
-/
import Armv8Encode.Isa.Armv7.ThumbRoundTrip

namespace Armv8Encode.Armv7

open Lib

def isBranchTarget : DecodedOperand → Bool
  | .branchTarget _ => true
  | _ => false

/-- The operand with another branch target. -/
def retarget (target : U64) : DecodedOperand → DecodedOperand
  | .branchTarget _ => .branchTarget target
  | operand => operand

theorem map_retarget_of_no_branch {target : U64} {operands : List DecodedOperand}
    (h : ∀ o ∈ operands, isBranchTarget o = false) : operands.map (retarget target) = operands := by
  calc operands.map (retarget target) = operands.map id := by
        apply List.map_congr_left
        intro o ho
        have hno := h o ho
        cases o <;> first | rfl | cases hno
    _ = operands := List.map_id operands

theorem no_branch_nil : ∀ o ∈ ([] : List DecodedOperand), isBranchTarget o = false := by simp

theorem no_branch_singleton {operand : DecodedOperand} (h : isBranchTarget operand = false) :
    ∀ o ∈ [operand], isBranchTarget o = false := by
  intro o ho
  rw [List.mem_singleton.mp ho]
  exact h

namespace Thumb

/-! ## §1. Letters that depend on the address. -/

/-- The letters whose operands depend on the address. -/
def isAddressed (letter : Char) : Bool := ['a', 'L', 'B', 'b', 'P', 'Q', 'Y', 'Z'].contains letter

mutual

def escapeAddressed : Escape → Bool
  | .code _ letter => isAddressed letter
  | .wrapper es => escapesAddressed es

def escapesAddressed : List Escape → Bool
  | [] => false
  | e :: rest => escapeAddressed e || escapesAddressed rest

end

variable {bitfield : List Char} {letter : Char} {width : ThumbWidth}

theorem ranged_no_branch {f : Nat → Nat → DecodedOperand}
    (h : ∀ lo hi, isBranchTarget (f lo hi) = false) :
    ∀ o ∈ ranged bitfield f, isBranchTarget o = false := by
  intro o ho
  unfold ranged at ho
  split at ho
  · rw [List.mem_singleton.mp ho]
    exact h _ _
  · cases ho

theorem decodeWordCode_free (h : isAddressed letter = false) (word : Word) (address address2 : U64) :
    decodeWordCode letter word address = decodeWordCode letter word address2
      ∧ ∀ o ∈ decodeWordCode letter word address, isBranchTarget o = false := by
  unfold decodeWordCode
  split <;> first
    | exact absurd h (by decide)
    | exact ⟨rfl, by simp [isBranchTarget, opaqueOf, immediateOf]⟩

theorem decodeCode_free (h : isAddressed letter = false) (word : Word) (address address2 : U64) :
    decodeCode bitfield letter word address width = decodeCode bitfield letter word address2 width
      ∧ ∀ o ∈ decodeCode bitfield letter word address width, isBranchTarget o = false := by
  have hword := decodeWordCode_free h word address address2
  unfold decodeCode
  split <;> first
    | exact absurd h (by decide)
    | exact ⟨rfl, ranged_no_branch fun _ _ => rfl⟩
    | skip
  all_goals
    cases width <;> first
      | exact ⟨rfl, no_branch_singleton rfl⟩
      | exact ⟨rfl, no_branch_nil⟩
      | exact hword
      | (split <;> first
        | exact ⟨rfl, ranged_no_branch fun _ _ => rfl⟩
        | exact ⟨rfl, no_branch_singleton rfl⟩
        | exact ⟨rfl, no_branch_nil⟩
        | exact hword)

mutual

/-- Without such a letter the operands stay what they are at another address, and none
of them is a branch target. -/
theorem decodeEscape_free (word : Word) (address address2 : U64) (width : ThumbWidth)
    (e : Escape) (h : escapeAddressed e = false) :
    decodeEscape word address width e = decodeEscape word address2 width e
      ∧ ∀ o ∈ decodeEscape word address width e, isBranchTarget o = false := by
  match e with
  | .code bitfield letter =>
    unfold escapeAddressed at h
    unfold decodeEscape
    exact decodeCode_free h word address address2
  | .wrapper es =>
    unfold escapeAddressed at h
    unfold decodeEscape
    exact decodeEscapes_free word address address2 width es h

theorem decodeEscapes_free (word : Word) (address address2 : U64) (width : ThumbWidth)
    (es : List Escape) (h : escapesAddressed es = false) :
    decodeEscapes word address width es = decodeEscapes word address2 width es
      ∧ ∀ o ∈ decodeEscapes word address width es, isBranchTarget o = false := by
  match es with
  | [] =>
    unfold decodeEscapes
    exact ⟨rfl, no_branch_nil⟩
  | e :: es =>
    unfold escapesAddressed at h
    rw [Bool.or_eq_false_iff] at h
    obtain ⟨heq, hno⟩ := decodeEscape_free word address address2 width e h.1
    obtain ⟨heqs, hnos⟩ := decodeEscapes_free word address address2 width es h.2
    unfold decodeEscapes
    constructor
    · rw [heq, heqs]
    · intro o ho
      rcases List.mem_append.mp ho with ho | ho
      · exact hno o ho
      · exact hnos o ho

end

/-! ## §2. Branch letters. -/

/-- The letters with a branch target. -/
def isBranchLetter (bitfield : List Char) (letter : Char) (width : ThumbWidth) : Bool :=
  match letter with
  | 'B' => (parseBitfield bitfield).isSome || (bitfield.isEmpty && width == .word)
  | 'b' | 'P' | 'Q' | 'Y' | 'Z' => bitfield.isEmpty && width == .word
  | _ => false

/-- An even displacement of `n` bits and a sign. -/
def EvenWithin (n : Nat) (d : Int) : Prop := d % 2 = 0 ∧ -2 ^ n ≤ d ∧ d < 2 ^ n

instance (n : Nat) (d : Int) : Decidable (EvenWithin n d) := inferInstanceAs (Decidable (_ ∧ _ ∧ _))

/-- The bits of a `%B` displacement: those of its range and a zero, or those of a 32-bit form. -/
def branchBits (bitfield : List Char) : Nat :=
  match parseBitfield bitfield with
  | some (lo, hi) => hi - lo + 1
  | none => 24

/-- The displacements that a branch letter can express. -/
def InReach (bitfield : List Char) (letter : Char) (d : Int) : Prop :=
  match letter with
  | 'B' => EvenWithin (branchBits bitfield) d
  | 'b' => EvenWithin 20 d
  -- backwards, for loop ends, and forwards, for loop starts
  | 'P' => EvenWithin 12 d ∧ d ≤ 0 ∧ d ≠ -2 ^ 12
  | 'Q' => EvenWithin 12 d ∧ 0 ≤ d
  | 'Y' => EvenWithin 18 d
  | 'Z' => EvenWithin 12 d
  | _ => False

/-- The letters whose displacement the encoder checks and packs. -/
def isPackedLetter (letter : Char) : Bool := letter == 'B' || letter == 'b'

theorem branchLetter_cases (h : isBranchLetter bitfield letter width = true) :
    (letter = 'B' ∧ ∃ lo hi, parseBitfield bitfield = some (lo, hi))
      ∨ (bitfield = [] ∧ width = .word ∧ letter ∈ ['B', 'b', 'P', 'Q', 'Y', 'Z']) := by
  unfold isBranchLetter at h
  split at h
  · rw [Bool.or_eq_true] at h
    rcases h with h | h
    · obtain ⟨⟨lo, hi⟩, hp⟩ := Option.isSome_iff_exists.mp h
      exact .inl ⟨rfl, lo, hi, hp⟩
    · rw [Bool.and_eq_true, List.isEmpty_iff, beq_iff_eq] at h
      exact .inr ⟨h.1, h.2, by decide⟩
  all_goals first
    | cases h
    | (rw [Bool.and_eq_true, List.isEmpty_iff, beq_iff_eq] at h
       exact .inr ⟨h.1, h.2, by decide⟩)

theorem branchLetter_display (h : isBranchLetter bitfield letter width = true) :
    letter ≠ 'c' ∧ isDisplay bitfield letter = false := by
  rcases branchLetter_cases h with ⟨rfl, -⟩ | ⟨rfl, -, hmem⟩
  · exact ⟨by decide, rfl⟩
  · simp only [List.mem_cons, List.not_mem_nil, or_false] at hmem
    rcases hmem with rfl | rfl | rfl | rfl | rfl | rfl <;> exact ⟨by decide, rfl⟩

/-- A branch letter has one operand, at a distance that the word alone decides. -/
theorem decodeCode_branch (h : isBranchLetter bitfield letter width = true) (word : Word) :
    ∃ offset : U64, ∀ address, decodeCode bitfield letter word address width
      = [.branchTarget (address + 4 + offset)] := by
  rcases branchLetter_cases h with ⟨rfl, lo, hi, hp⟩ | ⟨rfl, rfl, hletter⟩
  · refine ⟨signExtend ((extractField word lo hi).setWidth 64) (hi - lo + 1) * 2, fun address => ?_⟩
    simp only [decodeCode, hp]
  · simp only [List.mem_cons, List.not_mem_nil, or_false] at hletter
    rcases hletter with rfl | rfl | rfl | rfl | rfl | rfl
    · exact ⟨_, fun address => rfl⟩
    · exact ⟨_, fun address => rfl⟩
    · refine ⟨-((loopOffset word).setWidth 64), fun address => ?_⟩
      show [DecodedOperand.branchTarget (address + 4 - (loopOffset word).setWidth 64)] = _
      rw [BitVec.sub_eq_add_neg]
    · exact ⟨_, fun address => rfl⟩
    · exact ⟨_, fun address => rfl⟩
    · exact ⟨_, fun address => rfl⟩

theorem packShortBranch_reach (base : Word) (lo hi : Nat) (target address : U64) (slot : Nat) :
    (EvenWithin (hi - lo + 1) (branchDisplacement target address).toInt →
        ∃ w, packShortBranch base lo hi target address slot = .ok w)
      ∧ (¬ EvenWithin (hi - lo + 1) (branchDisplacement target address).toInt →
        ∃ e, packShortBranch base lo hi target address slot = .error e) := by
  have hpow : (2 : Int) ^ (hi - lo + 1) = 2 * 2 ^ (hi - lo + 1 - 1) := by
    rw [Nat.add_sub_cancel, pow_succ, Int.mul_comm]
  unfold packShortBranch EvenWithin
  dsimp only
  generalize (branchDisplacement target address).toInt = d
  rw [hpow]
  constructor
  · intro hreach
    rw [if_neg (by omega), if_neg (by omega)]
    exact ⟨_, rfl⟩
  · intro hreach
    by_cases heven : d % 2 = 0
    · rw [if_neg (by omega), if_pos (by omega)]
      exact ⟨_, rfl⟩
    · rw [if_pos heven]
      exact ⟨_, rfl⟩

theorem packBlTarget_reach (base : Word) (target address : U64) (slot : Nat) :
    (EvenWithin 24 (branchDisplacement target address).toInt →
        ∃ w, packBlTarget base target address slot = .ok w)
      ∧ (¬ EvenWithin 24 (branchDisplacement target address).toInt →
        ∃ e, packBlTarget base target address slot = .error e) := by
  unfold packBlTarget EvenWithin
  dsimp only
  constructor
  · intro hreach
    rw [if_neg (by omega)]
    exact ⟨_, rfl⟩
  · intro hreach
    rw [if_pos (by omega)]
    exact ⟨_, rfl⟩

theorem packBCondWideTarget_reach (base : Word) (target address : U64) (slot : Nat) :
    (EvenWithin 20 (branchDisplacement target address).toInt →
        ∃ w, packBCondWideTarget base target address slot = .ok w)
      ∧ (¬ EvenWithin 20 (branchDisplacement target address).toInt →
        ∃ e, packBCondWideTarget base target address slot = .error e) := by
  constructor
  · rintro ⟨heven, hlo, hhi⟩
    obtain ⟨x, hx⟩ := packBCondWideTarget_ok base slot heven hlo hhi
    exact ⟨_, hx⟩
  · intro hreach
    unfold EvenWithin at hreach
    unfold packBCondWideTarget
    dsimp only
    rw [if_pos (by omega)]
    exact ⟨_, rfl⟩

/-- The encoder packs a displacement in reach, whatever the word is, and no other. -/
theorem packOperand_packed (h : isBranchLetter bitfield letter width = true)
    (hletter : isPackedLetter letter = true) (target : U64) (slot : Nat) (base : Word)
    (address : U64) :
    (InReach bitfield letter (branchDisplacement target address).toInt →
        ∃ w, packOperand bitfield letter (.branchTarget target) slot base address width = .ok w)
      ∧ (¬ InReach bitfield letter (branchDisplacement target address).toInt →
        ∃ e, packOperand bitfield letter (.branchTarget target) slot base address width
          = .error e) := by
  rcases branchLetter_cases h with ⟨rfl, lo, hi, hp⟩ | ⟨rfl, rfl, hmem⟩
  · have hbits : branchBits bitfield = hi - lo + 1 := by rw [branchBits, hp]
    rw [packOperand_ranged hp rfl]
    show (EvenWithin (branchBits bitfield) _ → _) ∧ (¬ EvenWithin (branchBits bitfield) _ → _)
    rw [hbits]
    exact packShortBranch_reach base lo hi target address slot
  · simp only [List.mem_cons, List.not_mem_nil, or_false] at hmem
    rcases hmem with rfl | rfl | rfl | rfl | rfl | rfl
    · rw [packOperand_B_word]
      exact packBlTarget_reach base target address slot
    · rw [packOperand_b_word]
      exact packBCondWideTarget_reach base target address slot
    all_goals cases hletter

/-- The other letters take their operand and leave the word as it is. -/
theorem packOperand_passed (h : isBranchLetter bitfield letter width = true)
    (hletter : isPackedLetter letter = false) (operand : DecodedOperand) (slot : Nat) (base : Word)
    (address : U64) :
    packOperand bitfield letter operand slot base address width = .ok base := by
  rcases branchLetter_cases h with ⟨rfl, -⟩ | ⟨rfl, rfl, hmem⟩
  · cases hletter
  · simp only [List.mem_cons, List.not_mem_nil, or_false] at hmem
    rcases hmem with rfl | rfl | rfl | rfl | rfl | rfl
    · cases hletter
    · cases hletter
    all_goals rfl

/-! ## §3. Rows with a branch target. -/

/-- The escapes before the first one that depends on the address. -/
def freePart (row : ThumbOpcode) : List Escape :=
  (escapes row.format).takeWhile fun e => !escapeAddressed e

def addressedPart (row : ThumbOpcode) : List Escape :=
  (escapes row.format).dropWhile fun e => !escapeAddressed e

/-- What stands behind a branch letter: display escapes, or the condition of `bfcsel`. -/
def isBranchEnd : List Escape → Bool
  | [.wrapper [.code bitfield 'c']] => (parseBitfield bitfield).isSome
  | post => post.all isSilentEscape

/-- The branch letter of a row, with its bit range. -/
def branchCode (row : ThumbOpcode) : Option (List Char × Char) :=
  match addressedPart row with
  | .code bitfield letter :: _ =>
    if isBranchLetter bitfield letter row.width then some (bitfield, letter) else none
  | _ => none

/-- A row whose encoder fails on every operand list that starts with a register. -/
def isElementRow (row : ThumbOpcode) : Bool :=
  match escapes row.format with
  | .code (_ :: _) 's' :: .wrapper [] :: .code bitfield 'S' :: _ => (parseBitfield bitfield).isSome
  | _ => false

/-- Rows that re-encode every word. -/
def isFaithfulRow (row : ThumbOpcode) : Bool :=
  match rowKind row with
  | some .inverted | some .displayed | some .branch => true
  | _ => false

/-- What the proofs need of a row and its branch letter. -/
def isSoundBranchRow (row : ThumbOpcode) : Bool :=
  match addressedPart row with
  | [] => true
  | .code bitfield letter :: post =>
    if isBranchLetter bitfield letter row.width then
      (isElementRow row || ((freePart row).all (isInverted row.width) && isFaithfulRow row))
        && isBranchEnd post
    else
      -- a load from the program counter, or bits that the decoder leaves as they stand
      (['a', 'L'].contains letter || (letter == 'b' && bitfield.isEmpty)) && post.all isSilentEscape
  | _ => false

theorem thumbOpcodeTable_branches : ∀ row ∈ thumbOpcodeTable, isSoundBranchRow row = true := by
  decide +kernel

variable {row : ThumbOpcode} {word : Word} {post : List Escape}

theorem escapesAddressed_of_all {es : List Escape} (h : ∀ e ∈ es, escapeAddressed e = false) :
    escapesAddressed es = false := by
  induction es with
  | nil => rw [escapesAddressed]
  | cons e es ih =>
    rw [escapesAddressed, h e List.mem_cons_self, Bool.false_or]
    exact ih fun e' h' => h e' (List.mem_cons_of_mem e h')

theorem freePart_free (row : ThumbOpcode) : escapesAddressed (freePart row) = false :=
  escapesAddressed_of_all fun e he => by
    have h := List.all_eq_true.mp List.all_takeWhile e he
    exact Bool.not_eq_true' _ ▸ h

theorem freePart_append (row : ThumbOpcode) : escapes row.format = freePart row ++ addressedPart row :=
  (List.takeWhile_append_dropWhile).symm

/-- What stands behind a branch letter makes no branch target, and nothing that the
encoder would put back. -/
theorem branchEnd_operands (h : isBranchEnd post = true) (word : Word) (address address2 : U64)
    (width : ThumbWidth) :
    decodeEscapes word address width post = decodeEscapes word address2 width post
      ∧ (∀ o ∈ decodeEscapes word address width post, isBranchTarget o = false)
      ∧ (∀ o ∈ decodeEscapes word address width post, isOpaque o = false)
      ∧ ∀ (operands : List DecodedOperand) (base : Word) (consumed : Nat),
          encodeWalk operands address width base consumed post = .ok (base, consumed) := by
  unfold isBranchEnd at h
  split at h
  · rename_i bitfield
    obtain ⟨⟨lo, hi⟩, hp⟩ := Option.isSome_iff_exists.mp h
    have hdecode : ∀ address, decodeEscapes word address width [.wrapper [.code bitfield 'c']]
        = [.condition ((extractField word lo hi).setWidth 8)] := by
      intro address
      simp only [decodeEscapes, decodeEscape, List.append_nil]
      exact ranged_of_parse hp _
    rw [hdecode, hdecode]
    refine ⟨rfl, no_branch_singleton rfl, by simp [isOpaque], fun operands base consumed => ?_⟩
    rw [encodeWalk, encodeEscape, encodeWalkInner, encodeInnerEscape]
    show encodeWalk operands address width base (consumed + 0) [] = _
    rw [encodeWalk, Nat.add_zero]
  · have hnil : ∀ address, decodeEscapes word address width post = [] := fun address =>
      decodeEscapes_silent word _ _ h
    rw [hnil, hnil]
    exact ⟨rfl, no_branch_nil, by simp, fun operands base consumed =>
      encodeWalk_silent _ _ _ _ _ h⟩

theorem tailOperand_no_branch (row : ThumbOpcode) (word : Word) :
    ∀ o ∈ tailOperand row word, isBranchTarget o = false := by
  unfold tailOperand
  split
  · exact no_branch_nil
  · exact no_branch_singleton rfl

/-- The operands of a row with a branch letter. -/
theorem rowOperands_branch (hpart : addressedPart row = .code bitfield letter :: post)
    (word : Word) (address : U64) :
    rowOperands row word address = decodeEscapes word address row.width (freePart row)
      ++ (decodeCode bitfield letter word address row.width
        ++ (decodeEscapes word address row.width post ++ tailOperand row word)) := by
  rw [rowOperands, decodeOperandsFromFormat, freePart_append, decodeEscapes_append, hpart,
    decodeEscapes, decodeEscape]
  simp only [List.append_assoc]

/-! ## §4. The retargeted encoding. -/

variable {address address2 target : U64}

/-- The operands of a decoded branch with another target. -/
def retargeted (row : ThumbOpcode) (word : Word) (address target : U64) : List DecodedOperand :=
  (rowOperands row word address).map (retarget target)

/-- A retargeted branch is the branch of the same word at the address where it reaches the
target. -/
theorem retargeted_eq (hpart : addressedPart row = .code bitfield letter :: post)
    (hbranch : isBranchLetter bitfield letter row.width = true) (hend : isBranchEnd post = true)
    (word : Word) (address address2 target : U64) :
    retargeted row word address target
      = decodeEscapes word address2 row.width (freePart row)
        ++ (.branchTarget target
          :: (decodeEscapes word address2 row.width post ++ tailOperand row word)) := by
  obtain ⟨hfree, hfreeNo⟩ := decodeEscapes_free word address address2 row.width (freePart row)
    (freePart_free row)
  obtain ⟨hpost, hpostNo, -, -⟩ := branchEnd_operands hend word address address2 row.width
  obtain ⟨offset, hdecode⟩ := decodeCode_branch hbranch word
  rw [retargeted, rowOperands_branch hpart, hdecode, List.map_append, List.map_append,
    List.map_append, map_retarget_of_no_branch hfreeNo, map_retarget_of_no_branch hpostNo,
    map_retarget_of_no_branch (tailOperand_no_branch row word), hfree, hpost]
  rfl

/-- What the encoder makes of it, if its escapes up to the branch are inverted. -/
theorem encodeWithRow_retargeted (hpart : addressedPart row = .code bitfield letter :: post)
    (hbranch : isBranchLetter bitfield letter row.width = true) (hend : isBranchEnd post = true)
    (hfree : (freePart row).all (isInverted row.width) = true) (word : Word)
    (address address2 target : U64) :
    ∃ base slot, encodeWithRow row (retargeted row word address target) address2
      = (packOperand bitfield letter (.branchTarget target) slot base address2 row.width).map
          fun w => (splice w word (tailMask row), row.width) := by
  obtain ⟨mask, hmask⟩ := escapesCarried_isSome row.width (freePart row)
    (List.all_eq_true.mp hfree)
  obtain ⟨-, -, hclear, hpost⟩ := branchEnd_operands hend word address2 address2 row.width
  have hops := retargeted_eq hpart hbranch hend word address address2 target
  have hwalk := encodeWalk_carried word address2 row.width (retargeted row word address target)
    (freePart row) (addressedPart row) hmask row.opcode 0 _ hops
  rw [← freePart_append, Nat.zero_add, hpart] at hwalk
  have hslot : (retargeted row word address target).drop
      (decodeEscapes word address2 row.width (freePart row)).length
      = .branchTarget target
        :: (decodeEscapes word address2 row.width post ++ tailOperand row word) := by
    rw [hops, List.drop_left]
  refine ⟨splice row.opcode word mask,
    (decodeEscapes word address2 row.width (freePart row)).length, ?_⟩
  generalize (decodeEscapes word address2 row.width (freePart row)).length = slot at hwalk hslot ⊢
  obtain ⟨hletter, hdisplay⟩ := branchLetter_display hbranch
  unfold encodeWithRow encodeWithFormat
  rw [hwalk, encodeWalk, encodeEscape_code (.inl hletter), hdisplay, if_neg (by decide),
    packNext_of_drop hslot]
  cases packOperand bitfield letter (.branchTarget target) slot (splice row.opcode word mask)
    address2 row.width with
  | error e => rfl
  | ok w =>
    show Except.bind (Except.bind (encodeWalk _ address2 row.width w (slot + 1) post) _) _ = _
    rw [hpost]
    show Except.ok (spliceTail w ((retargeted row word address target).drop (slot + 1)), row.width)
      = _
    rw [drop_succ_of_drop hslot, spliceTail_of_not_opaque _ _ _ hclear, spliceTail_tailOperand]
    rfl

/-- The bits that are stored. -/
def storedBits (width : ThumbWidth) (w : Word) : Word :=
  match width with
  | .halfword => w &&& 0xffff
  | .word => w

theorem storedBits_of_matches (h : Matches row word) : storedBits row.width word = word := by
  unfold storedBits
  cases hw : row.width with
  | word => rfl
  | halfword =>
    apply BitVec.eq_of_toNat_eq
    have hlt := h.width hw
    show (word &&& BitVec.ofNat 32 (2 ^ 16 - 1)).toNat = word.toNat
    rw [BitVec.toNat_and, BitVec.toNat_ofNat, Nat.mod_eq_of_lt (a := 2 ^ 16 - 1) (by omega),
      Nat.and_two_pow_sub_one_eq_mod, Nat.mod_eq_of_lt hlt]

/-- The stored bits of a word that keeps the open bits, if the row matches them too, are
those of the first word. -/
theorem storedBits_eq (h : Matches row word) {y : Word}
    (hmatch : storedBits row.width (splice y word (tailMask row)) &&& row.mask = row.opcode) :
    storedBits row.width (splice y word (tailMask row)) = word := by
  rw [← h.fixed] at hmatch
  have hlow : ∀ i, (0xffff : Word).getLsbD i = decide (i < 16) := fun i =>
    getLsbD_ones (n := 32) (by omega : 16 ≤ 32)
  apply BitVec.eq_of_getLsbD_eq
  intro i hi
  have hself := congrArg (fun w : Word => w.getLsbD i) (storedBits_of_matches h)
  have hbit := congrArg (fun w : Word => w.getLsbD i) hmatch
  cases hw : row.width with
  | word =>
    simp only [storedBits, hw, tailMask, BitVec.getLsbD_and, getLsbD_splice, BitVec.getLsbD_not, hi,
      decide_true, Bool.true_and] at hbit ⊢
    cases hm : row.mask.getLsbD i
    · rfl
    · rw [hm] at hbit
      simpa using hbit
  | halfword =>
    simp only [storedBits, hw, tailMask, BitVec.getLsbD_and, getLsbD_splice, BitVec.getLsbD_not, hi,
      hlow, decide_true, Bool.true_and] at hself hbit ⊢
    by_cases h16 : i < 16
    · rw [decide_eq_true h16] at hbit ⊢
      cases hm : row.mask.getLsbD i
      · simp
      · rw [hm] at hbit
        simpa using hbit
    · rw [decide_eq_false h16] at hself ⊢
      simpa using hself

/-! ## §5. What a new target does. -/

/-- The row's branch can express the distance to the target. -/
def Reaches (row : ThumbOpcode) (address target : U64) : Prop :=
  ∃ bitfield letter, branchCode row = some (bitfield, letter)
    ∧ InReach bitfield letter (branchDisplacement target address).toInt

/-- Rows whose encoder checks the distance. -/
def isPackedRow (row : ThumbOpcode) : Bool := (branchCode row).any fun code => isPackedLetter code.2

/-- A branch with a new target at a new address: the encoder fails only for a target that it
cannot reach, and what it returns decodes there as the same row with the new target. -/
def TakesEffect (d : DecodedInstruction) (row : ThumbOpcode) (address2 target : U64) : Prop :=
  match encodeWithRow row (d.operands.map (retarget target)) address2 with
  | .error _ => ¬ Reaches row address2 target
  | .ok (w, width) =>
    ∃ d', decodeOne address2 (storedBits width w) width = .ok d' ∧ d'.row = some row
      ∧ decodeOperandsFromFormat row.format d'.word address2 row.width
        = (decodeOperandsFromFormat row.format d.word d.address row.width).map (retarget target)

/-- The target is as far from the new address as the old one was, or the encoder checks the
distance and finds it too far.  The tail-predicated loop start is never encoded. -/
def IsSameDistance (row : ThumbOpcode) (old address : U64) (address2 target : U64) : Prop :=
  if isElementRow row then ¬ Reaches row address2 target
  else target - address2 = old - address ∨ isPackedRow row = true ∧ ¬ Reaches row address2 target

theorem decodeOne_row {d : DecodedInstruction} (h : decodeOne address word width = .ok d)
    (hrow : d.row = some row) :
    matchGenerated word width = some row ∧ d.word = word ∧ d.address = address
      ∧ d.operands = rowOperands row word address := by
  unfold decodeOne at h
  split at h
  · cases h
    cases hrow
    exact ⟨‹_›, rfl, rfl, rfl⟩
  · split at h
    · cases h
    · split at h <;> cases h
      cases hrow

theorem decodeOne_of_match (h : matchGenerated word width = some row) (address : U64) :
    ∃ d, decodeOne address word width = .ok d ∧ d.row = some row ∧ d.word = word := by
  unfold decodeOne
  rw [h]
  exact ⟨_, rfl, rfl, rfl⟩

theorem matches_of_matchGenerated (h : matchGenerated word width = some row)
    (hword : width = .halfword → word.toNat < 2 ^ 16) : row.width = width ∧ Matches row word := by
  have hmem := List.mem_of_find?_eq_some h
  have hmatch := List.find?_some h
  rw [Bool.and_eq_true, beq_iff_eq, beq_iff_eq] at hmatch
  exact ⟨hmatch.1, hmem, hmatch.2, fun hw => hword (hmatch.1 ▸ hw)⟩

theorem literalTarget_no_branch (word : Word) (address : U64) (offset : Word) :
    ∀ o ∈ literalTarget word address offset, isBranchTarget o = false := by
  intro o ho
  unfold literalTarget at ho
  split at ho
  · rw [List.mem_singleton.mp ho]
    rfl
  · cases ho

/-- The other letters that depend on the address have no branch target. -/
theorem decodeCode_unbranched
    (h : (['a', 'L'].contains letter || (letter == 'b' && bitfield.isEmpty)) = true)
    (hbranch : isBranchLetter bitfield letter width = false) (word : Word) (address : U64) :
    ∀ o ∈ decodeCode bitfield letter word address width, isBranchTarget o = false := by
  have hopaque : ∀ mask offset, ∀ o ∈ opaqueOf word mask :: literalTarget word address offset,
      isBranchTarget o = false := by
    intro mask offset o ho
    rcases List.mem_cons.mp ho with rfl | ho
    · rfl
    · exact literalTarget_no_branch word address offset o ho
  rw [Bool.or_eq_true, Bool.and_eq_true, beq_iff_eq, List.isEmpty_iff, List.contains_iff_mem] at h
  simp only [List.mem_cons, List.not_mem_nil, or_false] at h
  rcases h with (rfl | rfl) | ⟨rfl, rfl⟩
  · show ∀ o ∈ (if !bitfield.isEmpty then _ else _), _
    split
    · exact ranged_no_branch fun _ _ => rfl
    · cases width
      · exact no_branch_nil
      · exact hopaque _ _
  · cases bitfield with
    | nil =>
      cases width
      · exact no_branch_nil
      · exact hopaque _ _
    | cons c bitfield => exact no_branch_nil
  · cases width
    · exact no_branch_singleton rfl
    · cases hbranch

/-- The row of an operand list with a branch target has a branch letter. -/
theorem branch_of_target (hmem : row ∈ thumbOpcodeTable) {old : U64}
    (hold : .branchTarget old ∈ rowOperands row word address) :
    ∃ bitfield letter post, addressedPart row = .code bitfield letter :: post
      ∧ isBranchLetter bitfield letter row.width = true ∧ isBranchEnd post = true
      ∧ (isElementRow row = true
        ∨ (freePart row).all (isInverted row.width) = true ∧ isFaithfulRow row = true) := by
  have hsound := thumbOpcodeTable_branches row hmem
  obtain ⟨-, hfreeNo⟩ := decodeEscapes_free word address address row.width (freePart row)
    (freePart_free row)
  have hnot : ∀ o : DecodedOperand, isBranchTarget o = false → .branchTarget old ≠ o := by
    rintro o ho rfl
    cases ho
  have hrest : .branchTarget old ∈ decodeEscapes word address row.width (addressedPart row) := by
    rw [rowOperands, decodeOperandsFromFormat, freePart_append, decodeEscapes_append] at hold
    rcases List.mem_append.mp hold with hold | hold
    · rcases List.mem_append.mp hold with hold | hold
      · exact absurd rfl (hnot _ (hfreeNo _ hold))
      · exact hold
    · exact absurd rfl (hnot _ (tailOperand_no_branch row word _ hold))
  unfold isSoundBranchRow at hsound
  split at hsound
  · rename_i hpart
    rw [hpart, decodeEscapes] at hrest
    cases hrest
  · rename_i bitfield letter post hpart
    split at hsound
    · rename_i hbranch
      rw [Bool.and_eq_true, Bool.or_eq_true, Bool.and_eq_true] at hsound
      exact ⟨bitfield, letter, post, hpart, hbranch, hsound.2, hsound.1⟩
    · rename_i hbranch
      rw [Bool.and_eq_true] at hsound
      rw [hpart, decodeEscapes, decodeEscape, decodeEscapes_silent word _ _ hsound.2,
        List.append_nil] at hrest
      exact absurd rfl (hnot _ (decodeCode_unbranched hsound.1 (by simpa using hbranch) word address
        _ hrest))
  · cases hsound

theorem reaches_iff (hpart : addressedPart row = .code bitfield letter :: post)
    (hbranch : isBranchLetter bitfield letter row.width = true) (address2 target : U64) :
    Reaches row address2 target
      ↔ InReach bitfield letter (branchDisplacement target address2).toInt := by
  have hcode : branchCode row = some (bitfield, letter) := by
    rw [branchCode, hpart]
    exact if_pos hbranch
  unfold Reaches
  rw [hcode]
  constructor
  · rintro ⟨b, l, heq, h⟩
    cases heq
    exact h
  · exact fun h => ⟨bitfield, letter, rfl, h⟩

theorem isPackedRow_eq (hpart : addressedPart row = .code bitfield letter :: post)
    (hbranch : isBranchLetter bitfield letter row.width = true) :
    isPackedRow row = isPackedLetter letter := by
  rw [isPackedRow, branchCode, hpart]
  show (if isBranchLetter bitfield letter row.width = true then some (bitfield, letter)
    else none).any _ = _
  rw [if_pos hbranch]
  rfl

/-- The row of the tail-predicated loop start is never encoded. -/
theorem encodeWithRow_element (h : isElementRow row = true) (word : Word)
    (address address2 target : U64) :
    ∃ e, encodeWithRow row (retargeted row word address target) address2 = .error e := by
  unfold isElementRow at h
  split at h
  · rename_i c bits range post hformat
    obtain ⟨⟨lo, hi⟩, hp⟩ := Option.isSome_iff_exists.mp h
    have hops : ∃ rest, retargeted row word address target = registerOperand word lo hi :: rest := by
      rw [retargeted, rowOperands, decodeOperandsFromFormat, hformat, decodeEscapes, decodeEscapes,
        decodeEscapes, decodeEscape, decodeEscape, decodeEscape, decodeEscapes,
        (decodeCode_ranged hp word address row.width).1]
      exact ⟨_, rfl⟩
    obtain ⟨rest, hops⟩ := hops
    have hdrop : (registerOperand word lo hi :: rest).drop 0 = registerOperand word lo hi :: rest :=
      rfl
    unfold encodeWithRow encodeWithFormat
    rw [hformat, encodeWalk, encodeEscape_code (.inl (by decide)), hops, packNext_of_drop hdrop]
    exact ⟨_, rfl⟩
  · cases h

/-- The format's operands of a row with a branch letter. -/
theorem formatOperands_branch (hpart : addressedPart row = .code bitfield letter :: post)
    (hbranch : isBranchLetter bitfield letter row.width = true) (hend : isBranchEnd post = true)
    (word : Word) :
    ∃ front offset back, ∀ address,
      decodeOperandsFromFormat row.format word address row.width
          = front ++ .branchTarget (address + 4 + offset) :: back
        ∧ (∀ o ∈ front, isBranchTarget o = false) ∧ ∀ o ∈ back, isBranchTarget o = false := by
  obtain ⟨offset, hdecode⟩ := decodeCode_branch hbranch word
  refine ⟨decodeEscapes word 0 row.width (freePart row), offset,
    decodeEscapes word 0 row.width post, fun address => ?_⟩
  obtain ⟨hfree, -⟩ := decodeEscapes_free word address 0 row.width (freePart row)
    (freePart_free row)
  obtain ⟨hpost, -, -, -⟩ := branchEnd_operands hend word address 0 row.width
  refine ⟨?_, (decodeEscapes_free word 0 0 row.width (freePart row) (freePart_free row)).2,
    (branchEnd_operands hend word 0 0 row.width).2.1⟩
  rw [decodeOperandsFromFormat, freePart_append, decodeEscapes_append, hpart, decodeEscapes,
    decodeEscape, hdecode, hfree, hpost]
  rfl

/-- At the new address the word decodes as the retargeted branch if and only if the
distance is the old one. -/
theorem decoded_retarget_iff (hpart : addressedPart row = .code bitfield letter :: post)
    (hbranch : isBranchLetter bitfield letter row.width = true) (hend : isBranchEnd post = true)
    {old : U64} (hold : .branchTarget old ∈ rowOperands row word address) (address2 target : U64) :
    decodeOperandsFromFormat row.format word address2 row.width
        = (decodeOperandsFromFormat row.format word address row.width).map (retarget target)
      ↔ target - address2 = old - address := by
  obtain ⟨front, offset, back, hops⟩ := formatOperands_branch hpart hbranch hend word
  obtain ⟨heq, hfront, hback⟩ := hops address
  have hold' : old = address + 4 + offset := by
    rw [rowOperands, heq] at hold
    rcases List.mem_append.mp hold with hold | hold
    · rcases List.mem_append.mp hold with hold | hold
      · exact absurd (hfront _ hold) (by simp [isBranchTarget])
      · rcases List.mem_cons.mp hold with hold | hold
        · exact DecodedOperand.branchTarget.inj hold
        · exact absurd (hback _ hold) (by simp [isBranchTarget])
    · exact absurd (tailOperand_no_branch row word _ hold) (by simp [isBranchTarget])
  rw [(hops address2).1, heq, List.map_append, List.map_cons, map_retarget_of_no_branch hfront,
    map_retarget_of_no_branch hback]
  show front ++ .branchTarget (address2 + 4 + offset) :: back = front ++ .branchTarget target :: back
    ↔ _
  rw [List.append_cancel_left_eq, List.cons.injEq, DecodedOperand.branchTarget.injEq, hold']
  constructor
  · rintro ⟨rfl, -⟩
    bv_omega
  · intro hdist
    refine ⟨?_, rfl⟩
    bv_omega

/-- Rows that re-encode every word, at any address. -/
theorem givesBack_of_faithful (h : Matches row word) (hfaithful : isFaithfulRow row = true)
    (address : U64) : GivesBack row word address := by
  rw [givesBack_iff h]
  unfold isFaithfulRow at hfaithful
  unfold Reencodable
  split at hfaithful <;> simp_all

/-- A target at the old distance: the operands are those of the word at the new address. -/
theorem retargeted_same (hpart : addressedPart row = .code bitfield letter :: post)
    (hbranch : isBranchLetter bitfield letter row.width = true) (hend : isBranchEnd post = true)
    {old : U64} (hold : .branchTarget old ∈ rowOperands row word address)
    (hsame : target - address2 = old - address) :
    retargeted row word address target = rowOperands row word address2 := by
  have hformat := (decoded_retarget_iff hpart hbranch hend hold address2 target).mpr hsame
  rw [retargeted, rowOperands, rowOperands, List.map_append, ← hformat,
    map_retarget_of_no_branch (tailOperand_no_branch row word)]

/-- What the encoder returns has the open bits of the old word, so that it decodes as the
same row only if it is the old word. -/
theorem not_takesEffect_of_ok {d : DecodedInstruction}
    (hd : decodeOne address word row.width = .ok d) (hrow : d.row = some row)
    (h : Matches row word) (hpart : addressedPart row = .code bitfield letter :: post)
    (hbranch : isBranchLetter bitfield letter row.width = true) (hend : isBranchEnd post = true)
    {old : U64} (hold : .branchTarget old ∈ rowOperands row word address) {w : Word}
    (hok : encodeWithRow row (d.operands.map (retarget target)) address2
      = .ok (splice w word (tailMask row), row.width))
    (hdiff : target - address2 ≠ old - address) : ¬ TakesEffect d row address2 target := by
  obtain ⟨-, hdword, hdaddress, -⟩ := decodeOne_row hd hrow
  unfold TakesEffect
  rw [hok]
  rintro ⟨d', hd', hrow', hops⟩
  obtain ⟨hmatch', hdword', -, -⟩ := decodeOne_row hd' hrow'
  have hbits := List.find?_some hmatch'
  rw [Bool.and_eq_true, beq_iff_eq, beq_iff_eq] at hbits
  have hword := storedBits_eq h hbits.2
  rw [hdword', hword, hdword, hdaddress] at hops
  exact hdiff ((decoded_retarget_iff hpart hbranch hend hold address2 target).mp hops)

/-- The retargeted branch takes effect if and only if its target is at the old distance or
the encoder finds it too far. -/
theorem takesEffect_iff {d : DecodedInstruction} {old : U64}
    (hd : decodeOne address word width = .ok d) (hword : width = .halfword → word.toNat < 2 ^ 16)
    (hold : .branchTarget old ∈ d.operands) (address2 target : U64) :
    ∃ row, d.row = some row
      ∧ (TakesEffect d row address2 target ↔ IsSameDistance row old address address2 target) := by
  obtain ⟨row, hrow⟩ : ∃ row, d.row = some row := by
    unfold decodeOne at hd
    split at hd
    · cases hd
      exact ⟨_, rfl⟩
    · split at hd
      · cases hd
      · split at hd <;> cases hd
        exact absurd (List.mem_singleton.mp hold) (by simp)
  refine ⟨row, hrow, ?_⟩
  obtain ⟨hmatch, hdword, hdaddress, hdops⟩ := decodeOne_row hd hrow
  obtain ⟨rfl, h⟩ := matches_of_matchGenerated hmatch hword
  rw [hdops] at hold
  obtain ⟨bitfield, letter, post, hpart, hbranch, hend, hkind⟩ := branch_of_target h.mem hold
  have hreach := reaches_iff hpart hbranch address2 target
  have hresult : d.operands.map (retarget target) = retargeted row word address target := by
    rw [hdops, retargeted]
  unfold IsSameDistance
  by_cases helement : isElementRow row = true
  · obtain ⟨e, he⟩ := encodeWithRow_element helement word address address2 target
    rw [if_pos helement, TakesEffect, hresult, he]
  rw [if_neg helement]
  obtain ⟨hfree, hfaithful⟩ := hkind.resolve_left helement
  by_cases hsame : target - address2 = old - address
  · refine iff_of_true ?_ (.inl hsame)
    have hback : GivesBack row word address2 := givesBack_of_faithful h hfaithful address2
    rw [GivesBack, ← retargeted_same hpart hbranch hend hold hsame, ← hresult] at hback
    obtain ⟨d', hd', hrow', hword'⟩ := decodeOne_of_match hmatch address2
    rw [TakesEffect, hback]
    refine ⟨d', by rw [storedBits_of_matches h]; exact hd', hrow', ?_⟩
    rw [hword', hdword, hdaddress]
    exact (decoded_retarget_iff hpart hbranch hend hold address2 target).mpr hsame
  obtain ⟨base, slot, henc⟩ := encodeWithRow_retargeted hpart hbranch hend hfree word address
    address2 target
  rw [← hresult] at henc
  have hnot : ∀ w, packOperand bitfield letter (.branchTarget target) slot base address2 row.width
      = .ok w → ¬ TakesEffect d row address2 target := by
    intro w hw
    rw [hw] at henc
    exact not_takesEffect_of_ok hd hrow h hpart hbranch hend hold henc hsame
  rw [isPackedRow_eq hpart hbranch, hreach]
  cases hpacked : isPackedLetter letter with
  | false =>
    refine iff_of_false (hnot _ (packOperand_passed hbranch hpacked _ slot base address2)) ?_
    rintro (heq | ⟨hcontra, -⟩)
    · exact hsame heq
    · cases hcontra
  | true =>
    obtain ⟨hin, hout⟩ := packOperand_packed hbranch hpacked target slot base address2
    by_cases hr : InReach bitfield letter (branchDisplacement target address2).toInt
    · obtain ⟨w, hw⟩ := hin hr
      refine iff_of_false (hnot w hw) ?_
      rintro (heq | ⟨-, hcontra⟩)
      · exact hsame heq
      · exact hcontra hr
    · obtain ⟨e, he⟩ := hout hr
      rw [he] at henc
      rw [TakesEffect, henc]
      exact iff_of_true (fun hreaches => hr (hreach.mp hreaches)) (.inr ⟨rfl, hr⟩)

end Thumb

end Armv8Encode.Armv7

/-
  Armv8Encode.Isa.Armv7.ThumbRoundTrip — which words a row re-encodes.

  The row's encoder gets back the operands that the sweep made of a word.  The
  escapes of the row are inverted up to a first one that is not, if there is
  one; behind it, with one exception, only display escapes follow.  The last
  operand carries all bits that the row's mask leaves open, so a walk that
  reaches it untaken gives the word back whatever was packed before.
-/
import Armv8Encode.Isa.Armv7.Sweep
import Armv8Encode.Isa.Armv7.ThumbWalk

namespace Armv8Encode.Armv7.Thumb

open Lib

/-! ## §1. The shape of a row. -/

def isInverted (width : ThumbWidth) (e : Escape) : Bool := (escapeCarried false width e).isSome

/-- The escapes before the first one that the encoder does not invert. -/
def invertedPart (row : ThumbOpcode) : List Escape :=
  (escapes row.format).takeWhile (isInverted row.width)

/-- The first escape that the encoder does not invert, and those behind it. -/
def openPart (row : ThumbOpcode) : List Escape :=
  (escapes row.format).dropWhile (isInverted row.width)

/-- The bits that the inverted escapes carry. -/
def carriedPart (row : ThumbOpcode) : Word :=
  (escapesCarried false row.width (invertedPart row)).getD 0

/-- What becomes of the first escape that the encoder does not invert. -/
inductive OpenKind where
  /-- There is no such escape. -/
  | inverted
  /-- It is displayed only, and its operand is left over. -/
  | displayed
  /-- Bits as they stand, and behind them an address that is left over. -/
  | bits
  /-- A conditional branch, whose bits J1 and J2 are not those of the word. -/
  | branch
  /-- A shift, which has no operand if it is by zero. -/
  | shift
  /-- A rotation, for which the decoder has no operand and the encoder takes one. -/
  | rotation
  /-- The encoder fails. -/
  | unpacked
  deriving Repr, DecidableEq

def isSilentEscape : Escape → Bool
  | .code bitfield letter => isSilent bitfield letter
  | .wrapper _ => false

/-- The kind of a letter without a bit range in a 32-bit row. -/
def letterKind (letter : Char) : Option OpenKind :=
  match letter with
  | 'a' | 'L' => some .bits
  | 'b' => some .branch
  | 's' => some .shift
  | 'R' => some .rotation
  | 'D' => some .unpacked
  | _ => none

/-- The kind of an open part, if it is one that occurs. -/
def openKind (width : ThumbWidth) : List Escape → Option OpenKind
  | [] => some .inverted
  -- the element size of the tail-predicated loops, and the register behind it
  | .code (_ :: _) 's' :: .wrapper [] :: .code bitfield 'S' :: _ =>
    if (parseBitfield bitfield).isSome then some .unpacked else none
  | .code bitfield 'x' :: post =>
    if (parseBitfield bitfield).isSome ∧ post.all isSilentEscape = true then some .displayed
    else none
  | .wrapper [.code bitfield 'c'] :: post =>
    if (parseBitfield bitfield).isSome ∧ post.all isSilentEscape = true then some .displayed
    else none
  | .code [] letter :: post =>
    if width = .word ∧ post.all isSilentEscape = true then letterKind letter else none
  | _ => none

def rowKind (row : ThumbOpcode) : Option OpenKind := openKind row.width (openPart row)

/-- The shift of `ssat` and `usat`. -/
def shiftAmount (word : Word) : Word := (((word >>> 12) &&& 7) <<< 2) ||| ((word >>> 6) &&& 3)

/-- The words that a row re-encodes from their own operands. -/
def Reencodable (row : ThumbOpcode) (word : Word) : Prop :=
  match rowKind row with
  | some .unpacked => False
  | some .shift => shiftAmount word = 0
  | some .rotation => row.opcode &&& ~~~ carriedPart row = word &&& ~~~ carriedPart row
  | _ => True

instance (row : ThumbOpcode) (word : Word) : Decidable (Reencodable row word) := by
  unfold Reencodable
  split <;> infer_instance

/-- What the proofs need of a row. -/
def isSoundRow (row : ThumbOpcode) : Bool :=
  row.opcode &&& row.mask == row.opcode
    && (row.width == .word || (row.opcode ≤ 0xffff && row.mask ≤ 0xffff))
    && match rowKind row with
      | none => false
      | some .inverted => true
      | some .branch => tailMask row != 0 && row.mask &&& bCondMask == 0
      | some _ => tailMask row != 0

/-- Every row of the table is one of the known ones. -/
theorem thumbOpcodeTable_sound : ∀ row ∈ thumbOpcodeTable, isSoundRow row = true := by
  decide +kernel

/-! ## §2. The last operand. -/

/-- A word that a row matches. -/
structure Matches (row : ThumbOpcode) (word : Word) : Prop where
  mem : row ∈ thumbOpcodeTable
  fixed : word &&& row.mask = row.opcode
  width : row.width = .halfword → word.toNat < 2 ^ 16

def isOpaque : DecodedOperand → Bool
  | .opaqueBits _ _ => true
  | _ => false

theorem spliceTail_of_not_opaque (w : Word) (xs ys : List DecodedOperand)
    (h : ∀ o ∈ xs, isOpaque o = false) : spliceTail w (xs ++ ys) = spliceTail w ys := by
  induction xs with
  | nil => rfl
  | cons o xs ih =>
    have ho := h o List.mem_cons_self
    have hxs := ih fun o' h' => h o' (List.mem_cons_of_mem o h')
    cases o <;> first | exact hxs | cases ho

theorem spliceTail_tailOperand (w word : Word) (row : ThumbOpcode) :
    spliceTail w (tailOperand row word) = splice w word (tailMask row) := by
  unfold tailOperand
  by_cases h : tailMask row = 0
  · rw [if_pos h, h]
    exact (splice_zero w word).symm
  · rw [if_neg h]
    exact splice_and_self w word (tailMask row)

variable {row : ThumbOpcode} {word : Word} {address : U64}

/-- The row's opcode and the word agree on the bits that the last operand does not carry. -/
theorem Matches.agree (h : Matches row word) :
    row.opcode &&& ~~~ tailMask row = word &&& ~~~ tailMask row := by
  rw [← h.fixed]
  apply BitVec.eq_of_getLsbD_eq
  intro i hi
  unfold tailMask
  cases hw : row.width with
  | word =>
    simp only [BitVec.getLsbD_and, BitVec.not_not]
    cases row.mask.getLsbD i <;> simp
  | halfword =>
    have hlow : (0xffff : Word).getLsbD i = decide (i < 16) :=
      getLsbD_ones (n := 32) (by omega : 16 ≤ 32)
    have hhigh : word.getLsbD i = true → i < 16 := by
      intro hbit
      by_contra hge
      have hzero : word.getLsbD i = false :=
        Nat.testBit_lt_two_pow (lt_of_lt_of_le (h.width hw)
          (Nat.pow_le_pow_right (by omega) (by omega)))
      rw [hzero] at hbit
      cases hbit
    simp only [BitVec.getLsbD_and, BitVec.getLsbD_not, hi, hlow, decide_true, Bool.true_and]
    cases hm : row.mask.getLsbD i <;> cases hb : word.getLsbD i <;> simp_all

/-- A word that agrees with the given one on those bits becomes that one. -/
theorem splice_tailMask {w : Word} (h : w &&& ~~~ tailMask row = word &&& ~~~ tailMask row) :
    splice w word (tailMask row) = word := splice_eq_iff.mpr h

/-! ## §3. The walk up to the open part. -/

theorem decodeEscapes_append (word : Word) (address : U64) (width : ThumbWidth)
    (es fs : List Escape) :
    decodeEscapes word address width (es ++ fs)
      = decodeEscapes word address width es ++ decodeEscapes word address width fs := by
  induction es with
  | nil => simp [decodeEscapes]
  | cons e es ih => rw [List.cons_append, decodeEscapes, decodeEscapes, ih, List.append_assoc]

theorem escapesCarried_isSome (width : ThumbWidth) (es : List Escape)
    (h : ∀ e ∈ es, isInverted width e = true) :
    ∃ mask, escapesCarried false width es = some mask := by
  induction es with
  | nil => exact ⟨0#32, by rw [escapesCarried]⟩
  | cons e es ih =>
    obtain ⟨m, hm⟩ := Option.isSome_iff_exists.mp (h e List.mem_cons_self)
    obtain ⟨k, hk⟩ := ih fun e' h' => h e' (List.mem_cons_of_mem e h')
    exact ⟨m ||| k, by rw [escapesCarried, hm, hk]; rfl⟩

theorem escapesCarried_invertedPart (row : ThumbOpcode) :
    escapesCarried false row.width (invertedPart row) = some (carriedPart row) := by
  obtain ⟨mask, h⟩ := escapesCarried_isSome row.width (invertedPart row)
    fun e he => List.all_eq_true.mp List.all_takeWhile e he
  rw [carriedPart, h]
  rfl

theorem invertedPart_append (row : ThumbOpcode) :
    escapes row.format = invertedPart row ++ openPart row :=
  (List.takeWhile_append_dropWhile).symm

/-- The word that the encoder has built when it comes to the open part. -/
def openWord (row : ThumbOpcode) (word : Word) : Word :=
  splice row.opcode word (carriedPart row)

/-- The operands taken by then. -/
def openSlot (row : ThumbOpcode) (word : Word) (address : U64) : Nat :=
  (decodeEscapes word address row.width (invertedPart row)).length

theorem rowOperands_eq (row : ThumbOpcode) (word : Word) (address : U64) :
    rowOperands row word address = decodeEscapes word address row.width (invertedPart row)
      ++ (decodeEscapes word address row.width (openPart row) ++ tailOperand row word) := by
  rw [rowOperands, decodeOperandsFromFormat, invertedPart_append, decodeEscapes_append,
    List.append_assoc]

theorem drop_openSlot (row : ThumbOpcode) (word : Word) (address : U64) :
    (rowOperands row word address).drop (openSlot row word address)
      = decodeEscapes word address row.width (openPart row) ++ tailOperand row word := by
  rw [rowOperands_eq, openSlot, List.drop_left]

/-- The encoder's result is what it makes of the open part. -/
theorem encodeWithRow_rowOperands (row : ThumbOpcode) (word : Word) (address : U64) :
    encodeWithRow row (rowOperands row word address) address
      = (encodeWalk (rowOperands row word address) address row.width (openWord row word)
          (openSlot row word address) (openPart row)).map
        fun p => (spliceTail p.1 ((rowOperands row word address).drop p.2), row.width) := by
  have hwalk := encodeWalk_carried word address row.width (rowOperands row word address)
    (invertedPart row) (openPart row) (escapesCarried_invertedPart row) row.opcode 0 _
    (rowOperands_eq row word address)
  rw [← invertedPart_append, Nat.zero_add] at hwalk
  unfold encodeWithRow encodeWithFormat
  rw [hwalk]
  show Except.bind (Except.bind (encodeWalk _ address row.width (openWord row word)
    (openSlot row word address) (openPart row)) _) _ = _
  cases encodeWalk (rowOperands row word address) address row.width (openWord row word)
    (openSlot row word address) (openPart row) <;> rfl

theorem openWord_agree (h : Matches row word) :
    openWord row word &&& ~~~ tailMask row = word &&& ~~~ tailMask row :=
  splice_and_congr h.agree

theorem isEmpty_of_silent {bitfield : List Char} {letter : Char}
    (h : isSilent bitfield letter = true) : bitfield = [] := by
  rw [isSilent, Bool.and_eq_true, List.isEmpty_iff] at h
  exact h.2

/-- Display escapes at the end. -/
theorem decodeEscapes_silent (word : Word) (address : U64) (width : ThumbWidth)
    {post : List Escape} (h : post.all isSilentEscape = true) :
    decodeEscapes word address width post = [] := by
  induction post with
  | nil => rw [decodeEscapes]
  | cons e post ih =>
    rw [List.all_cons, Bool.and_eq_true] at h
    cases e with
    | wrapper es => exact absurd h.1 (by simp [isSilentEscape])
    | code bitfield letter =>
      have hsilent : isSilent bitfield letter = true := h.1
      rw [decodeEscapes, decodeEscape, decodeCode_of_silent hsilent, ih h.2]
      rfl

theorem encodeWalk_silent (operands : List DecodedOperand) (address : U64) (width : ThumbWidth)
    (base : Word) (consumed : Nat) {post : List Escape}
    (h : post.all isSilentEscape = true) :
    encodeWalk operands address width base consumed post = .ok (base, consumed) := by
  induction post with
  | nil => rw [encodeWalk]
  | cons e post ih =>
    rw [List.all_cons, Bool.and_eq_true] at h
    cases e with
    | wrapper es => exact absurd h.1 (by simp [isSilentEscape])
    | code bitfield letter =>
      have hsilent : isSilent bitfield letter = true := h.1
      rw [encodeWalk, encodeEscape_code (.inr (by rw [isEmpty_of_silent hsilent]; rfl)),
        isDisplay_of_silent hsilent]
      exact ih h.2

/-! ## §4. One kind of row after the other. -/

/-- The encoder gives the word back. -/
def GivesBack (row : ThumbOpcode) (word : Word) (address : U64) : Prop :=
  encodeWithRow row (rowOperands row word address) address = .ok (word, row.width)

/-- A walk that leaves the last operand untaken gives the word back. -/
theorem givesBack_of_leftover (base : Word) (n : Nat) (left : List DecodedOperand)
    (hwalk : encodeWalk (rowOperands row word address) address row.width (openWord row word)
      (openSlot row word address) (openPart row) = .ok (base, n))
    (hbase : base &&& ~~~ tailMask row = word &&& ~~~ tailMask row)
    (hdrop : (rowOperands row word address).drop n = left ++ tailOperand row word)
    (hleft : ∀ o ∈ left, isOpaque o = false) : GivesBack row word address := by
  unfold GivesBack
  rw [encodeWithRow_rowOperands, hwalk]
  show Except.ok (spliceTail base ((rowOperands row word address).drop n), row.width) = _
  rw [hdrop, spliceTail_of_not_opaque _ _ _ hleft, spliceTail_tailOperand, splice_tailMask hbase]

/-- The open parts of a kind. -/
inductive OpenShape (width : ThumbWidth) : List Escape → OpenKind → Prop where
  | inverted : OpenShape width [] .inverted
  | element {c : Char} {bitfield range : List Char} {p : Nat × Nat} {post : List Escape} :
    parseBitfield range = some p →
    OpenShape width (.code (c :: bitfield) 's' :: .wrapper [] :: .code range 'S' :: post) .unpacked
  | immediate {bitfield : List Char} {p : Nat × Nat} {post : List Escape} :
    parseBitfield bitfield = some p → post.all isSilentEscape = true →
    OpenShape width (.code bitfield 'x' :: post) .displayed
  | condition {bitfield : List Char} {p : Nat × Nat} {post : List Escape} :
    parseBitfield bitfield = some p → post.all isSilentEscape = true →
    OpenShape width (.wrapper [.code bitfield 'c'] :: post) .displayed
  | letter {letter : Char} {post : List Escape} {kind : OpenKind} :
    width = .word → post.all isSilentEscape = true → letterKind letter = some kind →
    OpenShape width (.code [] letter :: post) kind

theorem openKind_shape {width : ThumbWidth} {es : List Escape} {kind : OpenKind}
    (h : openKind width es = some kind) : OpenShape width es kind := by
  unfold openKind at h
  split at h
  · cases h
    exact .inverted
  · split at h
    · cases h
      obtain ⟨p, hp⟩ := Option.isSome_iff_exists.mp ‹_›
      exact .element hp
    · cases h
  · split at h
    · rename_i hcond
      cases h
      obtain ⟨p, hp⟩ := Option.isSome_iff_exists.mp hcond.1
      exact .immediate hp hcond.2
    · cases h
  · split at h
    · rename_i hcond
      cases h
      obtain ⟨p, hp⟩ := Option.isSome_iff_exists.mp hcond.1
      exact .condition hp hcond.2
    · cases h
  · split at h
    · rename_i hcond
      exact .letter hcond.1 hcond.2 h
    · cases h
  · cases h

theorem tailMask_of_kind {kind : OpenKind} (hmem : row ∈ thumbOpcodeTable)
    (hkind : rowKind row = some kind) (hopen : kind ≠ .inverted) :
    tailOperand row word = [.opaqueBits (word &&& tailMask row) (tailMask row)] := by
  have h := thumbOpcodeTable_sound row hmem
  have htail : tailMask row ≠ 0 := by
    simp only [isSoundRow, hkind, Bool.and_eq_true] at h
    cases kind with
    | inverted => exact absurd rfl hopen
    | branch => exact bne_iff_ne.mp (Bool.and_eq_true _ _ ▸ h.2).1
    | _ => exact bne_iff_ne.mp h.2
  rw [tailOperand, if_neg htail]

theorem mask_bCondMask (hmem : row ∈ thumbOpcodeTable) (hkind : rowKind row = some .branch) :
    row.mask &&& bCondMask = 0#32 := by
  have h := thumbOpcodeTable_sound row hmem
  simp only [isSoundRow, hkind, Bool.and_eq_true] at h
  exact beq_iff_eq.mp h.2.2

theorem givesBack_inverted (h : Matches row word) (hopen : openPart row = []) :
    GivesBack row word address := by
  have hdrop := drop_openSlot row word address
  rw [hopen, decodeEscapes] at hdrop
  apply givesBack_of_leftover (openWord row word)
    (openSlot row word address) ([])
  · rw [hopen, encodeWalk]
  · exact openWord_agree h
  · exact hdrop
  · simp

theorem givesBack_immediate (h : Matches row word) {bitfield : List Char} {p : Nat × Nat}
    {post : List Escape} (hopen : openPart row = .code bitfield 'x' :: post)
    (hp : parseBitfield bitfield = some p) (hpost : post.all isSilentEscape = true) :
    GivesBack row word address := by
  have hdecode : decodeEscapes word address row.width (.code bitfield 'x' :: post)
      = [immediateOf (extractField word p.1 p.2)] := by
    rw [decodeEscapes, decodeEscape, decodeEscapes_silent word _ _ hpost, List.append_nil]
    exact ranged_of_parse hp _
  have hdrop := drop_openSlot row word address
  rw [hopen, hdecode] at hdrop
  apply givesBack_of_leftover (openWord row word)
    (openSlot row word address) ([immediateOf (extractField word p.1 p.2)])
  · rw [hopen, encodeWalk, encodeEscape_code (.inl (by decide))]
    exact encodeWalk_silent _ _ _ _ _ hpost
  · exact openWord_agree h
  · exact hdrop
  · simp [isOpaque, immediateOf]

theorem givesBack_condition (h : Matches row word) {bitfield : List Char} {p : Nat × Nat}
    {post : List Escape} (hopen : openPart row = .wrapper [.code bitfield 'c'] :: post)
    (hp : parseBitfield bitfield = some p) (hpost : post.all isSilentEscape = true) :
    GivesBack row word address := by
  have hdecode : decodeEscapes word address row.width (.wrapper [.code bitfield 'c'] :: post)
      = [.condition ((extractField word p.1 p.2).setWidth 8)] := by
    rw [decodeEscapes, decodeEscape, decodeEscapes_silent word _ _ hpost, List.append_nil, decodeEscapes, decodeEscape, decodeEscapes, List.append_nil]
    exact ranged_of_parse hp _
  have hdrop := drop_openSlot row word address
  rw [hopen, hdecode] at hdrop
  apply givesBack_of_leftover (openWord row word)
    (openSlot row word address) ([.condition ((extractField word p.1 p.2).setWidth 8)])
  · rw [hopen, encodeWalk, encodeEscape, encodeWalkInner, encodeInnerEscape]
    show encodeWalk _ _ _ _ (_ + 0) post = _
    exact encodeWalk_silent _ _ _ _ _ hpost
  · exact openWord_agree h
  · exact hdrop
  · simp [isOpaque]

/-! ## §5. Open letters of 32-bit rows. -/

variable {letter : Char} {post : List Escape} {kind : OpenKind}

/-- Behind an open letter the walk has nothing left to do. -/
theorem encodeWalk_openLetter {operands : List DecodedOperand} {base : Word} {n : Nat}
    (hletter : letterKind letter = some kind) (hpost : post.all isSilentEscape = true) :
    encodeWalk operands address .word base n (.code [] letter :: post)
      = packNext [] letter operands n base address .word := by
  have hdisplay : isDisplay [] letter = false := by
    unfold letterKind at hletter
    split at hletter <;> first | rfl | cases hletter
  rw [encodeWalk, encodeEscape_code (.inr rfl), hdisplay]
  show Except.bind (packNext [] letter operands n base address .word) _ = _
  cases packNext [] letter operands n base address .word with
  | error e => rfl
  | ok p => exact encodeWalk_silent _ _ _ _ _ hpost

theorem decodeEscapes_openLetter (hpost : post.all isSilentEscape = true) :
    decodeEscapes word address .word (.code [] letter :: post)
      = decodeCode [] letter word address .word := by
  rw [decodeEscapes, decodeEscape, decodeEscapes_silent word _ _ hpost, List.append_nil]

/-- The operands from an open letter on, and what the encoder makes of the letter. -/
theorem openLetter (word : Word) (address : U64) (hopen : openPart row = .code [] letter :: post) (hwidth : row.width = .word)
    (hpost : post.all isSilentEscape = true) (hletter : letterKind letter = some kind) :
    (rowOperands row word address).drop (openSlot row word address)
        = decodeCode [] letter word address .word ++ tailOperand row word
      ∧ encodeWalk (rowOperands row word address) address row.width (openWord row word)
          (openSlot row word address) (openPart row)
        = packNext [] letter (rowOperands row word address) (openSlot row word address)
            (openWord row word) address .word := by
  constructor
  · rw [drop_openSlot, hopen, hwidth, decodeEscapes_openLetter hpost]
  · rw [hopen, hwidth, encodeWalk_openLetter hletter hpost]

theorem packNext_of_drop {bitfield : List Char} {operands rest : List DecodedOperand}
    {operand : DecodedOperand} {base : Word} {n : Nat} {width : ThumbWidth}
    (h : operands.drop n = operand :: rest) :
    packNext bitfield letter operands n base address width
      = (packOperand bitfield letter operand n base address width).map fun w => (w, n + 1) := by
  unfold packNext
  rw [operandAt_of_drop h]
  show Except.bind (packOperand bitfield letter operand n base address width) _ = _
  cases packOperand bitfield letter operand n base address width <;> rfl

theorem drop_succ_of_drop {operands rest : List DecodedOperand} {operand : DecodedOperand}
    {n : Nat} (h : operands.drop n = operand :: rest) : operands.drop (n + 1) = rest := by
  rw [← List.drop_drop, h]
  rfl

theorem literalTarget_not_opaque (word : Word) (address : U64) (offset : Word) :
    ∀ o ∈ literalTarget word address offset, isOpaque o = false := by
  intro o ho
  unfold literalTarget at ho
  split at ho
  · rw [List.mem_singleton.mp ho]
    rfl
  · cases ho

theorem givesBack_bits (address : U64) (h : Matches row word) (hopen : openPart row = .code [] letter :: post)
    (hwidth : row.width = .word) (hpost : post.all isSilentEscape = true)
    (hletter : letterKind letter = some .bits) : GivesBack row word address := by
  obtain ⟨hdrop, hwalk⟩ := openLetter word address hopen hwidth hpost
    hletter
  have hshape : ∃ mask offset, decodeCode [] letter word address .word
        = opaqueOf word mask :: literalTarget word address offset
      ∧ ∀ base n, packOperand [] letter (opaqueOf word mask) n base address .word
        = .ok (splice base (word &&& mask) mask) := by
    unfold letterKind at hletter
    split at hletter <;> cases hletter
    · exact ⟨aMask, word &&& 0xfff, rfl, fun _ _ => rfl⟩
    · exact ⟨lMask, (word &&& 0xff) * 4, rfl, fun _ _ => rfl⟩
  obtain ⟨mask, offset, hdecode, hpack⟩ := hshape
  rw [hdecode] at hdrop
  apply givesBack_of_leftover (splice (openWord row word) word mask)
    (openSlot row word address + 1) (literalTarget word address offset)
  · rw [hwalk, packNext_of_drop hdrop, hpack, splice_and_self]
    rfl
  · exact splice_and_congr (openWord_agree h)
  · exact drop_succ_of_drop hdrop
  · exact literalTarget_not_opaque word address offset

theorem givesBack_branch (h : Matches row word) (hopen : openPart row = .code [] 'b' :: post)
    (hwidth : row.width = .word) (hpost : post.all isSilentEscape = true)
    (hkind : rowKind row = some .branch) : GivesBack row word address := by
  obtain ⟨hdrop, hwalk⟩ := openLetter word address hopen hwidth hpost rfl
  have hdecode : decodeCode [] 'b' word address .word
      = [.branchTarget (decodeBCondWideTarget word address)] := rfl
  rw [hdecode] at hdrop
  obtain ⟨x, hx⟩ := packBCondWideTarget_decode word (openWord row word) address
    (openSlot row word address)
  apply givesBack_of_leftover (splice (openWord row word) x bCondMask)
    (openSlot row word address + 1) ([])
  · rw [hwalk, packNext_of_drop hdrop, packOperand_b_word, hx]
    rfl
  · rw [splice_and_of_disjoint]
    · exact openWord_agree h
    · rw [tailMask, hwidth]
      show bCondMask &&& ~~~ ~~~ row.mask = 0#32
      rw [BitVec.not_not, BitVec.and_comm]
      exact mask_bCondMask h.mem hkind
  · exact drop_succ_of_drop hdrop
  · simp

/-- A shift by zero leaves its operand to the one that carries the open bits. -/
theorem givesBack_shift_iff (h : Matches row word) (hopen : openPart row = .code [] 's' :: post)
    (hwidth : row.width = .word) (hpost : post.all isSilentEscape = true)
    (hkind : rowKind row = some .shift) :
    GivesBack row word address ↔ shiftAmount word = 0 := by
  obtain ⟨hdrop, hwalk⟩ := openLetter word address hopen hwidth hpost rfl
  have hdecode : decodeCode [] 's' word address .word
      = if shiftAmount word = 0 then [] else [immediateOf (shiftAmount word)] := rfl
  rw [hdecode] at hdrop
  constructor
  · intro hback
    by_contra hshift
    rw [if_neg hshift] at hdrop
    unfold GivesBack at hback
    rw [encodeWithRow_rowOperands, hwalk, packNext_of_drop hdrop] at hback
    cases hback
  · intro hshift
    rw [if_pos hshift, tailMask_of_kind h.mem hkind (by decide)] at hdrop
    unfold GivesBack
    rw [encodeWithRow_rowOperands, hwalk, packNext_of_drop hdrop]
    show Except.ok (spliceTail (splice (openWord row word) (word &&& tailMask row) (tailMask row))
      ((rowOperands row word address).drop (openSlot row word address + 1)), row.width) = _
    rw [drop_succ_of_drop hdrop, splice_and_self, splice_tailMask (openWord_agree h)]
    rfl

theorem givesBack_rotation_iff (h : Matches row word)
    (hopen : openPart row = .code [] 'R' :: post) (hwidth : row.width = .word)
    (hpost : post.all isSilentEscape = true) (hkind : rowKind row = some .rotation) :
    GivesBack row word address
      ↔ row.opcode &&& ~~~ carriedPart row = word &&& ~~~ carriedPart row := by
  obtain ⟨hdrop, hwalk⟩ := openLetter word address hopen hwidth hpost rfl
  have hdecode : decodeCode [] 'R' word address .word = [] := rfl
  rw [hdecode, tailMask_of_kind h.mem hkind (by decide)] at hdrop
  have hresult : encodeWithRow row (rowOperands row word address) address
      = .ok (openWord row word, row.width) := by
    rw [encodeWithRow_rowOperands, hwalk, packNext_of_drop hdrop]
    show Except.ok (spliceTail (openWord row word)
      ((rowOperands row word address).drop (openSlot row word address + 1)), row.width) = _
    rw [drop_succ_of_drop hdrop]
    rfl
  unfold GivesBack
  rw [hresult, ← splice_eq_iff]
  constructor
  · intro heq
    exact congrArg Prod.fst (Except.ok.inj heq)
  · intro heq
    show Except.ok (splice row.opcode word (carriedPart row), row.width) = _
    rw [heq]

theorem not_givesBack_specialRegister (h : Matches row word)
    (hopen : openPart row = .code [] 'D' :: post) (hwidth : row.width = .word)
    (hpost : post.all isSilentEscape = true) (hkind : rowKind row = some .unpacked) :
    ¬ GivesBack row word address := by
  obtain ⟨hdrop, hwalk⟩ := openLetter word address hopen hwidth hpost rfl
  have hdecode : decodeCode [] 'D' word address .word = [] := rfl
  rw [hdecode, tailMask_of_kind h.mem hkind (by decide)] at hdrop
  intro hback
  unfold GivesBack at hback
  rw [encodeWithRow_rowOperands, hwalk, packNext_of_drop hdrop] at hback
  cases hback

/-- The loop's element size takes the register behind it. -/
theorem not_givesBack_element {c : Char} {bitfield range : List Char} {p : Nat × Nat}
    (hopen : openPart row = .code (c :: bitfield) 's' :: .wrapper [] :: .code range 'S' :: post)
    (hp : parseBitfield range = some p) : ¬ GivesBack row word address := by
  have hdrop := drop_openSlot row word address
  have hdecode : decodeEscapes word address row.width (openPart row)
      = registerOperand word p.1 p.2 :: decodeEscapes word address row.width post := by
    rw [hopen, decodeEscapes, decodeEscapes, decodeEscapes, decodeEscape, decodeEscape,
      decodeEscape, decodeEscapes, (decodeCode_ranged hp word address row.width).1]
    rfl
  rw [hdecode] at hdrop
  have hpack : packNext (c :: bitfield) 's' (rowOperands row word address)
      (openSlot row word address) (openWord row word) address row.width
      = .error (shapeMismatch (registerOperand word p.1 p.2) (openSlot row word address)
          "OpaqueBits-expected") := by
    rw [packNext_of_drop hdrop]
    rfl
  intro hback
  unfold GivesBack at hback
  rw [encodeWithRow_rowOperands, hopen, encodeWalk, encodeEscape_code (.inl (by decide))] at hback
  rw [show isDisplay (c :: bitfield) 's' = false from rfl, if_neg (by decide), hpack] at hback
  cases hback

/-! ## §6. The rows. -/

theorem rowKind_isSome (hmem : row ∈ thumbOpcodeTable) : ∃ kind, rowKind row = some kind := by
  have h := thumbOpcodeTable_sound row hmem
  cases hkind : rowKind row with
  | none => simp [isSoundRow, hkind] at h
  | some kind => exact ⟨kind, rfl⟩

/-- A row re-encodes the words that it should, and no others. -/
theorem givesBack_iff (h : Matches row word) (address : U64) :
    GivesBack row word address ↔ Reencodable row word := by
  obtain ⟨kind, hkind⟩ := rowKind_isSome h.mem
  have hshape : OpenShape row.width (openPart row) kind := openKind_shape hkind
  unfold Reencodable
  rw [hkind]
  generalize hopen : openPart row = es at hshape
  cases hshape with
  | inverted => exact iff_of_true (givesBack_inverted h hopen) trivial
  | element hp => exact iff_of_false (not_givesBack_element hopen hp) id
  | immediate hp hpost => exact iff_of_true (givesBack_immediate h hopen hp hpost) trivial
  | condition hp hpost => exact iff_of_true (givesBack_condition h hopen hp hpost) trivial
  | letter hwidth hpost hletter =>
    have hbits := givesBack_bits address h hopen hwidth hpost
    unfold letterKind at hletter hbits
    split at hletter <;> cases hletter
    · exact iff_of_true (hbits rfl) trivial
    · exact iff_of_true (hbits rfl) trivial
    · exact iff_of_true (givesBack_branch h hopen hwidth hpost hkind) trivial
    · exact givesBack_shift_iff h hopen hwidth hpost hkind
    · exact givesBack_rotation_iff h hopen hwidth hpost hkind
    · exact iff_of_false (not_givesBack_specialRegister h hopen hwidth hpost hkind) id

end Armv8Encode.Armv7.Thumb

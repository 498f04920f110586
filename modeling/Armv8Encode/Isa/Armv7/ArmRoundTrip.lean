/-
  Armv8Encode.Isa.Armv7.ArmRoundTrip — which ARM words a row re-encodes.

  In ARM mode no operand carries the bits that a row's mask leaves open, so the
  encoder puts back those that the row's escapes carry and takes all others
  from the opcode.
-/
import Armv8Encode.Isa.Armv7.ArmFields

namespace Armv8Encode.Armv7.Arm

open Lib

/-! ## §1. Carried bits of a text. -/

def codeCarried (bitfield : List Char) (letter : Char) : Option Word :=
  if letter = 'c' ∧ bitfield.isEmpty then some (rangeMask 28 31)
  else if isDisplay bitfield letter then some 0#32
  else carriedMask bitfield letter

mutual

/-- The bits that an escape carries, if the walks agree on it. -/
def escapeCarried : Escape → Option Word
  | .code bitfield letter => codeCarried bitfield letter
  | .wrapper es => escapesCarried es

def escapesCarried : List Escape → Option Word
  | [] => some 0#32
  | e :: rest => do
    let mask ← escapeCarried e
    let more ← escapesCarried rest
    pure (mask ||| more)

end

variable {operands rest : List DecodedOperand} {address : U64} {word base mask : Word}
  {consumed : Nat} {bitfield : List Char} {letter : Char}

theorem decodeCode_of_display (h : isDisplay bitfield letter = true) :
    decodeCode bitfield letter word address = [] := by
  simp only [isDisplay, Bool.and_eq_true, List.isEmpty_iff, List.contains_iff_mem] at h
  obtain ⟨hletter, rfl⟩ := h
  simp only [List.mem_cons, List.not_mem_nil, or_false] at hletter
  rcases hletter with rfl | rfl | rfl | rfl | rfl | rfl | rfl <;> rfl

theorem condition_carries (word base : Word) :
    placeField base 28 31 ((((word >>> 28) &&& (0xf : Word)).setWidth 8).setWidth 32)
      = splice base word (rangeMask 28 31) := by
  rw [placeField_of_eq base word (by omega)]
  apply BitVec.eq_of_getLsbD_eq
  intro i hi
  rw [extractField, getLsbD_field word (by omega)]
  interval_cases i <;> simp

theorem encodeCode_carried (hmask : codeCarried bitfield letter = some mask)
    (hops : operands.drop consumed = decodeCode bitfield letter word address ++ rest) :
    encodeCode operands address base consumed bitfield letter
      = .ok (splice base word mask,
          consumed + (decodeCode bitfield letter word address).length) := by
  unfold codeCarried at hmask
  unfold encodeCode
  split at hmask
  · rename_i hcondition
    cases hmask
    obtain ⟨rfl, hempty⟩ := hcondition
    have hnil : bitfield = [] := List.isEmpty_iff.mp hempty
    subst hnil
    rw [if_pos ⟨rfl, rfl⟩, operandAt_of_drop hops, ← condition_carries]
    rfl
  rw [if_neg ‹_›]
  split at hmask
  · cases hmask
    rw [if_pos ‹_›, decodeCode_of_display ‹_›, splice_zero]
    rfl
  rw [if_neg ‹_›]
  obtain ⟨operand, hdecode, hpack⟩ := carriedMask_carries hmask word address
  rw [hdecode] at hops ⊢
  rw [operandAt_of_drop hops]
  show (do
    let word ← packOperand bitfield letter operand consumed base address
    pure (word, consumed + 1)) = _
  rw [hpack]
  rfl

/-! ## §2. The walk. -/

theorem escapesCarried_cons {e : Escape} {es : List Escape}
    (h : escapesCarried (e :: es) = some mask) :
    ∃ m k, escapeCarried e = some m ∧ escapesCarried es = some k ∧ mask = m ||| k := by
  unfold escapesCarried at h
  obtain ⟨m, hm, h⟩ := Option.bind_eq_some_iff.mp h
  obtain ⟨k, hk, h⟩ := Option.bind_eq_some_iff.mp h
  cases h
  exact ⟨m, k, hm, hk, rfl⟩

mutual

theorem encodeEscape_carried (word base : Word) (address : U64) (e : Escape) {mask : Word}
    (hmask : escapeCarried e = some mask) {operands rest : List DecodedOperand} {consumed : Nat}
    (hops : operands.drop consumed = decodeEscape word address e ++ rest) :
    encodeEscape operands address base consumed e
      = .ok (splice base word mask, consumed + (decodeEscape word address e).length) := by
  match e with
  | .code bitfield letter =>
    unfold escapeCarried at hmask
    unfold decodeEscape at hops ⊢
    unfold encodeEscape
    exact encodeCode_carried hmask hops
  | .wrapper es =>
    unfold escapeCarried at hmask
    unfold decodeEscape at hops ⊢
    unfold encodeEscape
    rw [encodeWalk_carried word base address es hmask (by rw [List.drop_zero]; exact hops),
      Nat.zero_add]
    rfl

theorem encodeWalk_carried (word base : Word) (address : U64) (es : List Escape) {mask : Word}
    (hmask : escapesCarried es = some mask) {operands rest : List DecodedOperand}
    {consumed : Nat} (hops : operands.drop consumed = decodeEscapes word address es ++ rest) :
    encodeWalk operands address base consumed es
      = .ok (splice base word mask, consumed + (decodeEscapes word address es).length) := by
  match es with
  | [] =>
    unfold escapesCarried at hmask
    cases hmask
    unfold encodeWalk decodeEscapes
    rw [splice_zero]
    rfl
  | e :: es =>
    obtain ⟨m, k, hm, hk, rfl⟩ := escapesCarried_cons hmask
    unfold decodeEscapes at hops ⊢
    rw [List.append_assoc] at hops
    unfold encodeWalk
    rw [encodeEscape_carried word base address e hm hops]
    show encodeWalk operands address (splice base word m) _ es = _
    rw [encodeWalk_carried word _ address es hk (drop_add_length hops), splice_splice,
      List.length_append, Nat.add_assoc]

end

theorem encodeWalk_append (operands : List DecodedOperand) (address : U64)
    (es post : List Escape) : ∀ (base : Word) (consumed : Nat),
      encodeWalk operands address base consumed (es ++ post)
        = (encodeWalk operands address base consumed es).bind fun p =>
            encodeWalk operands address p.1 p.2 post := by
  induction es with
  | nil =>
    intro base consumed
    rw [List.nil_append, encodeWalk.eq_1]
    rfl
  | cons e es ih =>
    intro base consumed
    rw [List.cons_append, encodeWalk, encodeWalk]
    cases encodeEscape operands address base consumed e with
    | error err => rfl
    | ok p => exact ih p.1 p.2

/-! ## §3. The shape of a row. -/

def isInverted (e : Escape) : Bool := (escapeCarried e).isSome

/-- The escapes before the first one that the encoder does not invert. -/
def invertedPart (row : ArmOpcode) : List Escape := (escapes row.format).takeWhile isInverted

/-- The first escape that the encoder does not invert, and those behind it. -/
def openPart (row : ArmOpcode) : List Escape := (escapes row.format).dropWhile isInverted

/-- The bits that the inverted escapes carry. -/
def carriedPart (row : ArmOpcode) : Word := (escapesCarried (invertedPart row)).getD 0#32

/-- What becomes of the first escape that the encoder does not invert. -/
inductive OpenKind where
  /-- There is no such escape. -/
  | inverted
  /-- Its first operand carries the bits of the mask; the encoder ignores the rest. -/
  | carrying (mask : Word)
  /-- The offset of `blx`. -/
  | blx
  /-- The encoder fails. -/
  | unpacked
  deriving Repr, DecidableEq

def letterKind (letter : Char) : Option OpenKind :=
  match letter with
  | 'a' => some (.carrying aMask)
  | 'E' => some (.carrying (rangeMask 7 11))
  | 'B' => some .blx
  | 'P' | 'S' | 'R' => some .unpacked
  | _ => none

/-- The kind of an open part, if it is one that occurs: a single letter at the end. -/
def openKind : List Escape → Option OpenKind
  | [] => some .inverted
  | [.code [] letter] => letterKind letter
  | _ => none

def rowKind (row : ArmOpcode) : Option OpenKind := openKind (openPart row)

/-- The opcode of the row and the word agree outside a mask. -/
def AgreeOutside (row : ArmOpcode) (word mask : Word) : Prop :=
  row.opcode &&& ~~~ mask = word &&& ~~~ mask

instance (row : ArmOpcode) (word mask : Word) : Decidable (AgreeOutside row word mask) :=
  inferInstanceAs (Decidable (_ = _))

/-- What a kind of open part asks of a word. -/
def OpenKind.Keeps (row : ArmOpcode) (word : Word) : OpenKind → Prop
  | .inverted => AgreeOutside row word (carriedPart row)
  | .carrying mask => AgreeOutside row word (carriedPart row ||| mask)
  -- a backward offset loses its halfword bit
  | .blx =>
    AgreeOutside row word (carriedPart row ||| blxMask)
      ∧ ¬ (word.getLsbD 24 = true ∧ word.getLsbD 23 = true)
  | .unpacked => False

instance (row : ArmOpcode) (word : Word) : (kind : OpenKind) → Decidable (kind.Keeps row word)
  | .inverted => inferInstanceAs (Decidable (AgreeOutside row word (carriedPart row)))
  | .carrying mask => inferInstanceAs (Decidable (AgreeOutside row word (carriedPart row ||| mask)))
  | .blx => inferInstanceAs (Decidable (AgreeOutside row word (carriedPart row ||| blxMask)
      ∧ ¬ (word.getLsbD 24 = true ∧ word.getLsbD 23 = true)))
  | .unpacked => inferInstanceAs (Decidable False)

/-- The words that a row re-encodes from their own operands. -/
def Reencodable (row : ArmOpcode) (word : Word) : Prop :=
  ∃ kind, rowKind row = some kind ∧ kind.Keeps row word

def isKnownRow (row : ArmOpcode) : Bool := (rowKind row).isSome

/-- Every row of the table is one of the known ones. -/
theorem armOpcodeTable_known : ∀ row ∈ armOpcodeTable, isKnownRow row = true := by
  decide +kernel

theorem escapesCarried_isSome (es : List Escape) (h : ∀ e ∈ es, isInverted e = true) :
    ∃ mask, escapesCarried es = some mask := by
  induction es with
  | nil => exact ⟨0#32, by rw [escapesCarried]⟩
  | cons e es ih =>
    obtain ⟨m, hm⟩ := Option.isSome_iff_exists.mp (h e List.mem_cons_self)
    obtain ⟨k, hk⟩ := ih fun e' h' => h e' (List.mem_cons_of_mem e h')
    exact ⟨m ||| k, by rw [escapesCarried, hm, hk]; rfl⟩

theorem escapesCarried_invertedPart (row : ArmOpcode) :
    escapesCarried (invertedPart row) = some (carriedPart row) := by
  obtain ⟨mask, h⟩ := escapesCarried_isSome (invertedPart row)
    fun e he => List.all_eq_true.mp List.all_takeWhile e he
  rw [carriedPart, h]
  rfl

theorem decodeEscapes_append (word : Word) (address : U64) (es fs : List Escape) :
    decodeEscapes word address (es ++ fs)
      = decodeEscapes word address es ++ decodeEscapes word address fs := by
  induction es with
  | nil => simp [decodeEscapes]
  | cons e es ih => rw [List.cons_append, decodeEscapes, decodeEscapes, ih, List.append_assoc]

/-! ## §4. Rows. -/

variable {row : ArmOpcode}

/-- The operands that the sweep makes of a word. -/
def rowOperands (row : ArmOpcode) (word : Word) (address : U64) : List DecodedOperand :=
  decodeOperandsFromFormat row.format word address

/-- The word that the encoder has built when it comes to the open part. -/
def openWord (row : ArmOpcode) (word : Word) : Word := splice row.opcode word (carriedPart row)

/-- The operands taken by then. -/
def openSlot (row : ArmOpcode) (word : Word) (address : U64) : Nat :=
  (decodeEscapes word address (invertedPart row)).length

theorem rowOperands_eq (row : ArmOpcode) (word : Word) (address : U64) :
    rowOperands row word address = decodeEscapes word address (invertedPart row)
      ++ decodeEscapes word address (openPart row) := by
  rw [rowOperands, decodeOperandsFromFormat, ← decodeEscapes_append]
  congr 1
  exact (List.takeWhile_append_dropWhile).symm

theorem drop_openSlot (row : ArmOpcode) (word : Word) (address : U64) :
    (rowOperands row word address).drop (openSlot row word address)
      = decodeEscapes word address (openPart row) := by
  rw [rowOperands_eq, openSlot, List.drop_left]

/-- The encoder's result is what it makes of the open part. -/
theorem encodeWithRow_rowOperands (row : ArmOpcode) (word : Word) (address : U64) :
    encodeWithRow row (rowOperands row word address) address
      = (encodeWalk (rowOperands row word address) address (openWord row word)
          (openSlot row word address) (openPart row)).map Prod.fst := by
  have hsplit : escapes row.format = invertedPart row ++ openPart row :=
    (List.takeWhile_append_dropWhile).symm
  unfold encodeWithRow encodeWithFormat
  rw [hsplit, encodeWalk_append, encodeWalk_carried word row.opcode address (invertedPart row)
    (escapesCarried_invertedPart row) (by rw [List.drop_zero]; exact rowOperands_eq row word address),
    Nat.zero_add]
  show Except.bind (encodeWalk _ address (openWord row word) (openSlot row word address)
    (openPart row)) _ = _
  cases encodeWalk (rowOperands row word address) address (openWord row word)
    (openSlot row word address) (openPart row) <;> rfl

/-- The encoder gives the word back. -/
def GivesBack (row : ArmOpcode) (word : Word) (address : U64) : Prop :=
  encodeWithRow row (rowOperands row word address) address = .ok word

theorem givesBack_of_result {mask : Word}
    (h : encodeWithRow row (rowOperands row word address) address
      = .ok (splice row.opcode word mask)) :
    GivesBack row word address ↔ AgreeOutside row word mask := by
  unfold GivesBack AgreeOutside
  rw [h, ← splice_eq_iff]
  constructor
  · intro heq
    exact Except.ok.inj heq
  · intro heq
    rw [heq]

theorem givesBack_inverted_iff (hopen : openPart row = []) :
    GivesBack row word address ↔ AgreeOutside row word (carriedPart row) := by
  apply givesBack_of_result
  rw [encodeWithRow_rowOperands, hopen, encodeWalk.eq_1]
  rfl

/-! ## §5. Open letters. -/

/-- The walk over a last letter, given the operand that it takes. -/
theorem encodeWalk_lastLetter {operands : List DecodedOperand} {n : Nat} (hletter : letter ≠ 'c')
    (hdisplay : isDisplay [] letter = false) :
    encodeWalk operands address base n [.code [] letter]
      = (operandAt operands n).bind fun operand =>
          (packFixed letter operand n base address).map fun w => (w, n + 1) := by
  rw [encodeWalk, encodeEscape, encodeCode, if_neg (fun h => hletter h.1), hdisplay]
  cases operandAt operands n with
  | error e => rfl
  | ok operand =>
    show Except.bind (Except.bind (packFixed letter operand n base address) _) _
      = (packFixed letter operand n base address).map _
    cases packFixed letter operand n base address with
    | error e => rfl
    | ok w => rw [Except.bind]; exact encodeWalk.eq_1 operands address w (n + 1)

theorem encodeWalk_openLetter {kind : OpenKind} {operands : List DecodedOperand} {n : Nat}
    (hletter : letterKind letter = some kind) :
    encodeWalk operands address base n [.code [] letter]
      = (operandAt operands n).bind fun operand =>
          (packFixed letter operand n base address).map fun w => (w, n + 1) := by
  have hnot : letter ≠ 'c' ∧ isDisplay [] letter = false := by
    unfold letterKind at hletter
    split at hletter <;> first | exact ⟨by decide, rfl⟩ | cases hletter
  exact encodeWalk_lastLetter hnot.1 hnot.2

/-- The operands from an open letter on. -/
theorem drop_openLetter (hopen : openPart row = [.code [] letter]) (word : Word) (address : U64) :
    (rowOperands row word address).drop (openSlot row word address)
      = decodeCode [] letter word address := by
  rw [drop_openSlot, hopen, decodeEscapes, decodeEscape, decodeEscapes, List.append_nil]

/-- What the encoder makes of the operand that an open letter takes. -/
theorem encodeWithRow_openLetter {kind : OpenKind} {operand : DecodedOperand}
    {left : List DecodedOperand} (hopen : openPart row = [.code [] letter])
    (hletter : letterKind letter = some kind)
    (hdecode : decodeCode [] letter word address = operand :: left) :
    encodeWithRow row (rowOperands row word address) address
      = packFixed letter operand (openSlot row word address) (openWord row word) address := by
  have hdrop := drop_openLetter hopen word address
  rw [hdecode] at hdrop
  rw [encodeWithRow_rowOperands, hopen, encodeWalk_openLetter hletter, operandAt_of_drop hdrop]
  show Except.map Prod.fst (Except.map _ (packFixed letter operand _ _ address)) = _
  cases packFixed letter operand (openSlot row word address) (openWord row word) address <;> rfl

theorem givesBack_carrying_iff (hopen : openPart row = [.code [] letter])
    (hletter : letterKind letter = some (.carrying mask)) :
    GivesBack row word address ↔ AgreeOutside row word (carriedPart row ||| mask) := by
  apply givesBack_of_result
  have hresult : encodeWithRow row (rowOperands row word address) address
      = .ok (splice (openWord row word) word mask) := by
    unfold letterKind at hletter
    split at hletter <;> cases hletter
    · -- an address, as its bits stand
      rw [encodeWithRow_openLetter hopen rfl
        (rfl : decodeCode [] 'a' word address = opaqueOf word aMask :: literalTarget word address)]
      show Except.ok (splice (openWord row word) (word &&& aMask) aMask) = _
      rw [splice_and_self]
    · -- the low bit of a bit field
      have hlsb : (word >>> 7) &&& (0x1f : Word) = extractField word 7 11 := by
        apply BitVec.eq_of_getLsbD_eq
        intro i hi
        rw [extractField, getLsbD_field word (by omega)]
        interval_cases i <;> simp
      have hlt := toNat_extractField_lt word 7 (by omega : 11 < 32)
      rw [encodeWithRow_openLetter hopen rfl
        (rfl : decodeCode [] 'E' word address = [immediateOf ((word >>> 7) &&& (0x1f : Word)), _]),
        hlsb]
      show (if ((extractField word 7 11).toNat : Int) < 0
          ∨ 31 < ((extractField word 7 11).toNat : Int)
        then Except.error (EncodeError.immediateOutOfRange _ _ 5)
        else .ok (placeField _ 7 11 (BitVec.ofInt 32 (extractField word 7 11).toNat))) = _
      rw [if_neg (by omega), ofInt_toNat, placeField_extractField word _ (by omega)]
  rw [hresult, openWord, splice_splice]

theorem packFixed_B (target : U64) (base : Word) (address : U64) (slot : Nat) :
    packFixed 'B' (.branchTarget target) slot base address
      = packBlx base target address slot := rfl

theorem givesBack_blx_iff (hopen : openPart row = [.code [] 'B']) :
    GivesBack row word address ↔ AgreeOutside row word (carriedPart row ||| blxMask)
      ∧ ¬ (word.getLsbD 24 = true ∧ word.getLsbD 23 = true) := by
  have hresult := (encodeWithRow_openLetter hopen rfl
    (rfl : decodeCode [] 'B' word address = [.branchTarget (address + (8 : U64)
      + (wordOffset word * (4 : U64) + ((word >>> 24) &&& 1#32).setWidth 64 * (2 : U64)))])).trans
    ((packFixed_B _ (openWord row word) address (openSlot row word address)).trans
      (packBlx_decode word (openWord row word) address (openSlot row word address)))
  by_cases hback : word.getLsbD 24 = true ∧ word.getLsbD 23 = true
  · apply iff_of_false
    · intro h
      unfold GivesBack at h
      rw [hresult] at h
      exact blxWords_lost _ hback (Except.ok.inj h)
    · exact fun h => h.2 hback
  · rw [blxWords_kept _ hback, openWord, splice_splice] at hresult
    rw [givesBack_of_result hresult]
    exact ⟨fun h => ⟨h, hback⟩, And.left⟩

theorem not_givesBack_unpacked (hopen : openPart row = [.code [] letter])
    (hletter : letterKind letter = some .unpacked) : ¬ GivesBack row word address := by
  have herror : ∀ operand slot base, ∃ e, packFixed letter operand slot base address = .error e := by
    unfold letterKind at hletter
    intro operand slot base
    split at hletter <;> cases hletter <;> exact ⟨_, rfl⟩
  intro h
  unfold GivesBack at h
  rw [encodeWithRow_rowOperands, hopen, encodeWalk_openLetter hletter] at h
  cases hat : operandAt (rowOperands row word address) (openSlot row word address) with
  | error e => rw [hat] at h; cases h
  | ok operand =>
    obtain ⟨e, he⟩ := herror operand (openSlot row word address) (openWord row word)
    rw [hat] at h
    simp only [Except.bind, he] at h
    cases h

theorem openKind_letter {es : List Escape} {kind : OpenKind} (h : openKind es = some kind) :
    (es = [] ∧ kind = .inverted) ∨ ∃ letter, es = [.code [] letter] ∧ letterKind letter = some kind := by
  unfold openKind at h
  split at h
  · cases h
    exact .inl ⟨rfl, rfl⟩
  · exact .inr ⟨_, rfl, h⟩
  · cases h

/-- A row re-encodes the words that it should, and no others. -/
theorem givesBack_iff (hmem : row ∈ armOpcodeTable) (word : Word) (address : U64) :
    GivesBack row word address ↔ Reencodable row word := by
  obtain ⟨kind, hkind⟩ := Option.isSome_iff_exists.mp (armOpcodeTable_known row hmem)
  have hiff : GivesBack row word address ↔ kind.Keeps row word := by
    rcases openKind_letter hkind with ⟨hopen, rfl⟩ | ⟨letter, hopen, hletter⟩
    · exact givesBack_inverted_iff hopen
    · cases kind with
      | inverted =>
        unfold letterKind at hletter
        split at hletter <;> cases hletter
      | carrying mask => exact givesBack_carrying_iff hopen hletter
      | unpacked => exact iff_of_false (not_givesBack_unpacked hopen hletter) id
      | blx =>
        have hB : letter = 'B' := by
          unfold letterKind at hletter
          split at hletter <;> first | rfl | cases hletter
        subst hB
        exact givesBack_blx_iff hopen
  rw [hiff]
  constructor
  · exact fun h => ⟨kind, hkind, h⟩
  · rintro ⟨k, hk, h⟩
    rw [hkind] at hk
    cases hk
    exact h

end Armv8Encode.Armv7.Arm

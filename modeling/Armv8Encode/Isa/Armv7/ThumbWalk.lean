/-
  Armv8Encode.Isa.Armv7.ThumbWalk — the two walks over one format string.

  As long as every escape is one that the encoder inverts, the encoder takes
  exactly the operands that the decoder made, and the word it builds is its
  first word with the carried bits of the decoded one.
-/
import Armv8Encode.Isa.Armv7.ThumbFields

namespace Armv8Encode.Armv7.Thumb

open Lib

/-! ## §1. Carried bits of a text. -/

/-- Escapes for which neither walk has an operand. -/
def isSilent (bitfield : List Char) (letter : Char) : Bool :=
  ['c', 'C', 'x', 'X', '%', 't', 'w', 'W'].contains letter && bitfield.isEmpty

/-- The condition of the outer walk, by its bit range. -/
def conditionMask (inner : Bool) : Option (Nat × Nat) → Option Word
  | some (lo, hi) => if !inner ∧ hi < 32 ∧ hi - lo < 8 then some (rangeMask lo hi) else none
  | none => none

/-- The bits that a letter carries in a walk, if the walks agree on it. -/
def codeCarried (inner : Bool) (width : ThumbWidth) (bitfield : List Char) (letter : Char) :
    Option Word :=
  if isSilent bitfield letter then some 0#32
  else if letter = 'c' then conditionMask inner (parseBitfield bitfield)
  else if isDisplay bitfield letter then none
  else carriedMask bitfield letter width

mutual

/-- The bits that an escape carries. -/
def escapeCarried (inner : Bool) (width : ThumbWidth) : Escape → Option Word
  | .code bitfield letter => codeCarried inner width bitfield letter
  | .wrapper es => escapesCarried true width es

def escapesCarried (inner : Bool) (width : ThumbWidth) : List Escape → Option Word
  | [] => some 0#32
  | e :: rest => do
    let mask ← escapeCarried inner width e
    let more ← escapesCarried inner width rest
    pure (mask ||| more)

end

/-! ## §2. One letter. -/

variable {operands rest : List DecodedOperand} {address : U64} {width : ThumbWidth}
  {word base mask : Word} {consumed : Nat} {bitfield : List Char} {letter : Char}

theorem decodeCode_of_silent (h : isSilent bitfield letter = true) :
    decodeCode bitfield letter word address width = [] := by
  simp only [isSilent, Bool.and_eq_true, List.isEmpty_iff, List.contains_iff_mem] at h
  obtain ⟨hletter, rfl⟩ := h
  simp only [List.mem_cons, List.not_mem_nil, or_false] at hletter
  rcases hletter with rfl | rfl | rfl | rfl | rfl | rfl | rfl | rfl <;> cases width <;> rfl

theorem isDisplay_of_silent (h : isSilent bitfield letter = true) :
    isDisplay bitfield letter = true := by
  simp only [isSilent, Bool.and_eq_true, List.isEmpty_iff, List.contains_iff_mem] at h
  obtain ⟨hletter, rfl⟩ := h
  simp only [List.mem_cons, List.not_mem_nil, or_false] at hletter
  rcases hletter with rfl | rfl | rfl | rfl | rfl | rfl | rfl | rfl <;> rfl

/-- A letter that carries bits takes the operand that it made. -/
theorem packNext_carried (hmask : carriedMask bitfield letter width = some mask)
    (hops : operands.drop consumed = decodeCode bitfield letter word address width ++ rest) :
    packNext bitfield letter operands consumed base address width
      = .ok (splice base word mask,
          consumed + (decodeCode bitfield letter word address width).length) := by
  obtain ⟨operand, hdecode, hpack⟩ := carriedMask_carries hmask word address
  rw [hdecode] at hops ⊢
  unfold packNext
  rw [operandAt_of_drop hops]
  show (do
    let word ← packOperand bitfield letter operand consumed base address width
    pure (word, consumed + 1)) = _
  rw [hpack]
  rfl

theorem encodeInnerCode_carried (hmask : codeCarried true width bitfield letter = some mask)
    (hops : operands.drop consumed = decodeCode bitfield letter word address width ++ rest) :
    encodeInnerEscape operands address width base consumed (.code bitfield letter)
      = .ok (splice base word mask,
          consumed + (decodeCode bitfield letter word address width).length) := by
  unfold codeCarried at hmask
  unfold encodeInnerEscape
  split at hmask
  · cases hmask
    rw [isDisplay_of_silent ‹_›, decodeCode_of_silent ‹_›, splice_zero]
    rfl
  split at hmask
  · unfold conditionMask at hmask
    split at hmask <;> simp at hmask
  split at hmask
  · cases hmask
  rw [if_neg ‹_›]
  exact packNext_carried hmask hops

theorem encodeEscape_code (h : letter ≠ 'c' ∨ parseBitfield bitfield = none) :
    encodeEscape operands address width base consumed (.code bitfield letter)
      = if isDisplay bitfield letter then .ok (base, consumed)
        else packNext bitfield letter operands consumed base address width := by
  rw [encodeEscape]
  intro lo hi hletter hrange
  rcases h with h | h
  · exact h hletter
  · rw [h] at hrange
    cases hrange

theorem encodeCondition_carried {p : Nat × Nat} (hp : parseBitfield bitfield = some p)
    (hmask : conditionMask false (some p) = some mask)
    (hops : operands.drop consumed = decodeCode bitfield 'c' word address width ++ rest) :
    encodeEscape operands address width base consumed (.code bitfield 'c')
      = .ok (splice base word mask,
          consumed + (decodeCode bitfield 'c' word address width).length) := by
  obtain ⟨lo, hi⟩ := p
  have hdecode : decodeCode bitfield 'c' word address width
      = [.condition ((extractField word lo hi).setWidth 8)] := ranged_of_parse hp _
  unfold conditionMask at hmask
  obtain ⟨⟨-, hhi, hlen⟩, ⟨⟩⟩ := Option.ite_none_right_eq_some.mp hmask
  rw [hdecode] at hops ⊢
  rw [encodeEscape.eq_2 operands address width base consumed bitfield lo hi hp, operandAt_of_drop hops]
  show Except.ok (placeField base lo hi (((extractField word lo hi).setWidth 8).setWidth 32),
    consumed + 1) = _
  rw [setWidth_byte_extractField word hhi hlen, placeField_extractField word base hhi]
  rfl

theorem encodeCode_carried (hmask : codeCarried false width bitfield letter = some mask)
    (hops : operands.drop consumed = decodeCode bitfield letter word address width ++ rest) :
    encodeEscape operands address width base consumed (.code bitfield letter)
      = .ok (splice base word mask,
          consumed + (decodeCode bitfield letter word address width).length) := by
  unfold codeCarried at hmask
  split at hmask
  · -- neither walk has an operand
    rename_i hsilent
    cases hmask
    have hempty : bitfield = [] := by
      rw [isSilent, Bool.and_eq_true, List.isEmpty_iff] at hsilent
      exact hsilent.2
    rw [encodeEscape_code (.inr (by rw [hempty]; rfl)), isDisplay_of_silent hsilent,
      decodeCode_of_silent hsilent, splice_zero]
    rfl
  split at hmask
  · rename_i hletter
    subst hletter
    cases hp : parseBitfield bitfield with
    | none => rw [hp] at hmask; cases hmask
    | some p => exact encodeCondition_carried hp (hp ▸ hmask) hops
  split at hmask
  · cases hmask
  · rw [encodeEscape_code (.inl ‹_›), if_neg ‹_›]
    exact packNext_carried hmask hops

/-! ## §3. A text. -/

theorem escapesCarried_cons {inner : Bool} {e : Escape} {es : List Escape}
    (h : escapesCarried inner width (e :: es) = some mask) :
    ∃ m k, escapeCarried inner width e = some m ∧ escapesCarried inner width es = some k
      ∧ mask = m ||| k := by
  unfold escapesCarried at h
  obtain ⟨m, hm, h⟩ := Option.bind_eq_some_iff.mp h
  obtain ⟨k, hk, h⟩ := Option.bind_eq_some_iff.mp h
  cases h
  exact ⟨m, k, hm, hk, rfl⟩

mutual

/-- The walk inside a wrapper. -/
theorem encodeInnerEscape_carried (word base : Word) (address : U64) (width : ThumbWidth)
    (e : Escape) {mask : Word} (hmask : escapeCarried true width e = some mask)
    {operands rest : List DecodedOperand} {consumed : Nat}
    (hops : operands.drop consumed = decodeEscape word address width e ++ rest) :
    encodeInnerEscape operands address width base consumed e
      = .ok (splice base word mask, consumed + (decodeEscape word address width e).length) := by
  match e with
  | .code bitfield letter =>
    unfold escapeCarried at hmask
    unfold decodeEscape at hops ⊢
    exact encodeInnerCode_carried hmask hops
  | .wrapper es =>
    unfold escapeCarried at hmask
    unfold decodeEscape at hops ⊢
    unfold encodeInnerEscape
    rw [encodeWalkInner_carried word base address width es hmask
      (by rw [List.drop_zero]; exact hops), Nat.zero_add]
    rfl

theorem encodeWalkInner_carried (word base : Word) (address : U64) (width : ThumbWidth)
    (es : List Escape) {mask : Word} (hmask : escapesCarried true width es = some mask)
    {operands rest : List DecodedOperand} {consumed : Nat}
    (hops : operands.drop consumed = decodeEscapes word address width es ++ rest) :
    encodeWalkInner operands address width base consumed es
      = .ok (splice base word mask,
          consumed + (decodeEscapes word address width es).length) := by
  match es with
  | [] =>
    unfold escapesCarried at hmask
    cases hmask
    unfold encodeWalkInner decodeEscapes
    rw [splice_zero]
    rfl
  | e :: es =>
    obtain ⟨m, k, hm, hk, rfl⟩ := escapesCarried_cons hmask
    unfold decodeEscapes at hops ⊢
    rw [List.append_assoc] at hops
    unfold encodeWalkInner
    rw [encodeInnerEscape_carried word base address width e hm hops]
    show encodeWalkInner operands address width (splice base word m) _ es = _
    rw [encodeWalkInner_carried word _ address width es hk (drop_add_length hops), splice_splice,
      List.length_append, Nat.add_assoc]

end

theorem encodeEscape_carried (word base : Word) (address : U64) (width : ThumbWidth)
    (e : Escape) {mask : Word} (hmask : escapeCarried false width e = some mask)
    {operands rest : List DecodedOperand} {consumed : Nat}
    (hops : operands.drop consumed = decodeEscape word address width e ++ rest) :
    encodeEscape operands address width base consumed e
      = .ok (splice base word mask, consumed + (decodeEscape word address width e).length) := by
  cases e with
  | code bitfield letter =>
    unfold escapeCarried at hmask
    unfold decodeEscape at hops ⊢
    exact encodeCode_carried hmask hops
  | wrapper es =>
    unfold escapeCarried at hmask
    unfold decodeEscape at hops ⊢
    rw [encodeEscape, encodeWalkInner_carried word base address width es hmask
      (by rw [List.drop_zero]; exact hops), Nat.zero_add]
    rfl

/-- The outer walk over escapes that the encoder inverts, as far as they go. -/
theorem encodeWalk_carried (word : Word) (address : U64) (width : ThumbWidth)
    (operands : List DecodedOperand) (es post : List Escape) :
    ∀ {mask : Word}, escapesCarried false width es = some mask →
    ∀ (base : Word) (consumed : Nat) (rest : List DecodedOperand),
      operands.drop consumed = decodeEscapes word address width es ++ rest →
      encodeWalk operands address width base consumed (es ++ post)
        = encodeWalk operands address width (splice base word mask)
            (consumed + (decodeEscapes word address width es).length) post := by
  induction es with
  | nil =>
    intro mask hmask base consumed rest hops
    unfold escapesCarried at hmask
    cases hmask
    rw [splice_zero, decodeEscapes]
    rfl
  | cons e es ih =>
    intro mask hmask base consumed rest hops
    obtain ⟨m, k, hm, hk, rfl⟩ := escapesCarried_cons hmask
    unfold decodeEscapes at hops ⊢
    rw [List.append_assoc] at hops
    rw [List.cons_append, encodeWalk, encodeEscape_carried word base address width e hm hops]
    show encodeWalk operands address width (splice base word m) _ (es ++ post) = _
    rw [ih hk _ _ rest (drop_add_length hops), splice_splice, List.length_append, Nat.add_assoc]

end Armv8Encode.Armv7.Thumb

/-
  Armv8Encode.Isa.Armv7.BitRanges — the bits that a row says its operands take.

  A third walk over the format strings gives, for each operand of a row, the bit
  ranges it takes in the word.  It decides anew which letters stand for an
  operand, and where their bits are, without a word to look at.  So it can go
  wrong in two ways: it lists other operands than the decoder makes, or it
  leaves out bits that the operand is read from.

  A row is described if neither happens for any word it matches.  The letters
  that both walks treat alike make such a row; every other row of the two tables
  has a word, or two, that show the difference.

  Main results:
    * `aligned_of_alike` — rows of letters treated alike.
    * `described_iff` — the rows that are described.
-/
import Armv8Encode.Isa.Armv7.ArmRoundTrip
import Armv8Encode.Isa.Armv7.ThumbRoundTrip

namespace Armv8Encode.Armv7

open Lib

/-! ## §1. The walk for the ranges. -/

/-- The bits from the first up to the second, without it. -/
abbrev BitRange := Nat × Nat

def bitfieldToRanges (bitfield : List Char) : List BitRange :=
  match parseBitfield bitfield with
  | some (lo, hi) => [(lo, min (hi + 1) 255)]
  | none => []

/-- The ranges of a letter without a bit range of its own. -/
def bareRanges (letter : Char) (width : ThumbWidth) : Option (List BitRange) :=
  match letter, width with
  | 'd', _ | 'D', _ => some []
  | 'b', .word => some [(0, 24)]
  | 'B', .word => some [(0, 12), (13, 14), (16, 27)]
  | 'B', .halfword => some [(0, 11)]
  | 'c', .word => some [(28, 32)]
  | 'c', .halfword => some [(8, 12)]
  | 'V', .word => some [(0, 12), (16, 20)]
  | 'J', .word => some [(0, 8), (12, 15), (16, 20), (26, 27)]
  | 'I', .word | 'M', .word => some [(0, 8), (12, 15), (26, 27)]
  | 'M', .halfword | 'N', .halfword | 'O', .halfword => some [(0, 8)]
  | 'S', .halfword => some [(3, 7)]
  | 'S', .word => some []
  | 'a', _ | 's', _ | 'L', _ | 'E', _ | 'F', _ | 'm', _ | 'n', _ => some []
  | _, _ => none

/-- The ranges of a letter; none if it only says what is displayed. -/
def decodeOperandCode (bitfield : List Char) (letter : Char) (width : ThumbWidth) :
    Option (List BitRange) :=
  if bitfield.isEmpty then bareRanges letter width
  else
    match letter with
    | 'r' | 'R' | 'd' | 'D' | 'W' | 'H' | 'x' | 'S' | 'B' | 'a' | 'c' =>
      some (bitfieldToRanges bitfield)
    | 'b' => if width = .halfword then some (bitfieldToRanges bitfield) else none
    | 's' | 'L' | 'E' | 'F' | 'm' | 'n' => some []
    | _ => none

/-- The ranges of a text, with fuel for its length.  Behind a bit range the marks
of conditional characters are letters without an operand. -/
def extractRanges (width : ThumbWidth) : Nat → List Char → List (List BitRange)
  | 0, _ => []
  | _ + 1, [] => []
  | _ + 1, ['%'] => []
  | fuel + 1, '%' :: '\x7b' :: body =>
    extractRanges width fuel ((closeWrapper body).1.drop 2)
      ++ extractRanges width fuel (closeWrapper body).2
  | fuel + 1, '%' :: '\x27' :: rest => extractRanges width fuel (rest.drop 1)
  | fuel + 1, '%' :: '?' :: rest => extractRanges width fuel (rest.drop 1)
  | fuel + 1, '%' :: '\x60' :: rest => extractRanges width fuel (rest.drop 1)
  | fuel + 1, '%' :: rest =>
    match rest.dropWhile isBitfieldChar with
    | [] => []
    | letter :: tail =>
      (decodeOperandCode (rest.takeWhile isBitfieldChar) letter width).toList
        ++ extractRanges width fuel tail
  | fuel + 1, _ :: rest => extractRanges width fuel rest

def extractOperandBitRanges (format : String) (width : ThumbWidth) : List (List BitRange) :=
  extractRanges width ((formatBytes format).length + 1) (formatBytes format)

/-! ## §2. Rows of both tables. -/

inductive OpcodeRow where
  | thumb (row : ThumbOpcode)
  | arm (row : ArmOpcode)

def opcodeRows : List OpcodeRow := thumbOpcodeTable.map .thumb ++ armOpcodeTable.map .arm

namespace OpcodeRow

def format : OpcodeRow → String
  | thumb row => row.format
  | arm row => row.format

def opcode : OpcodeRow → Word
  | thumb row => row.opcode
  | arm row => row.opcode

def mask : OpcodeRow → Word
  | thumb row => row.mask
  | arm row => row.mask

/-- A row of the ARM table is as wide as a word. -/
def width : OpcodeRow → ThumbWidth
  | thumb row => row.width
  | arm _ => .word

/-- The words that have the fixed bits of a row, and its width. -/
def MatchedBy (row : OpcodeRow) (word : Word) : Prop :=
  word &&& row.mask = row.opcode ∧ (row.width = .halfword → word ≤ 0xffff)

instance (row : OpcodeRow) (word : Word) : Decidable (row.MatchedBy word) := by
  unfold MatchedBy
  infer_instance

/-- `operand_bit_ranges` of a row. -/
def operandBitRanges (row : OpcodeRow) : List (List BitRange) :=
  extractOperandBitRanges row.format row.width

/-- The operands that the decoder of the row's table makes. -/
def operands (row : OpcodeRow) (word : Word) (address : U64) : List DecodedOperand :=
  match row with
  | thumb row => Thumb.decodeOperandsFromFormat row.format word address row.width
  | arm row => Arm.decodeOperandsFromFormat row.format word address

end OpcodeRow

/-! ## §3. What a row should say. -/

/-- Two words with the same bits in all these ranges. -/
def AgreeOn (ranges : List BitRange) (word word' : Word) : Prop :=
  ∀ r ∈ ranges, ∀ b, r.1 ≤ b → b < r.2 → word.getLsbD b = word'.getLsbD b

/-- One entry for each operand, in their order; and the bits of an entry, if it has
any, settle the operand. -/
def Aligned (Matched : Word → Prop) (entries : List (List BitRange))
    (operands : Word → List DecodedOperand) : Prop :=
  ∀ word, Matched word → entries.length = (operands word).length
    ∧ ∀ word', Matched word' → ∀ (i : Nat) entry, entries[i]? = some entry → entry ≠ [] →
      AgreeOn entry word word' → (operands word)[i]? = (operands word')[i]?

/-- The ranges of a row describe what the decoder makes of every word. -/
def OpcodeRow.Described (row : OpcodeRow) : Prop :=
  ∀ address, Aligned row.MatchedBy row.operandBitRanges fun word => row.operands word address

/-! ## §4. Masks. -/

/-- The bits of some ranges. -/
def rangesMask (ranges : List BitRange) : Word :=
  ranges.foldr (fun r mask => fieldMask 32 r.1 (r.2 - r.1) ||| mask) 0

theorem getLsbD_rangesMask {ranges : List BitRange} (h : ∀ r ∈ ranges, r.2 ≤ 32) (b : Nat) :
    (rangesMask ranges).getLsbD b = ranges.any fun r => decide (r.1 ≤ b) && decide (b < r.2) := by
  induction ranges with
  | nil => simp [rangesMask]
  | cons r ranges ih =>
    have hr := h r List.mem_cons_self
    have hstep : rangesMask (r :: ranges)
        = fieldMask 32 r.1 (r.2 - r.1) ||| rangesMask ranges := rfl
    rw [hstep, BitVec.getLsbD_or, getLsbD_fieldMask (by omega),
      ih fun x hx => h x (List.mem_cons_of_mem _ hx), List.any_cons]
    congr 1
    by_cases hlo : r.1 ≤ b <;> by_cases hhi : b < r.2 <;> simp [hlo, hhi] <;> omega

theorem agreeOn_iff {ranges : List BitRange} (h : ∀ r ∈ ranges, r.2 ≤ 32) (word word' : Word) :
    AgreeOn ranges word word' ↔ word &&& rangesMask ranges = word' &&& rangesMask ranges := by
  constructor
  · intro hagree
    apply BitVec.eq_of_getLsbD_eq
    intro b _
    rw [BitVec.getLsbD_and, BitVec.getLsbD_and, getLsbD_rangesMask h]
    cases hany : ranges.any fun r => decide (r.1 ≤ b) && decide (b < r.2) with
    | false => rw [Bool.and_false, Bool.and_false]
    | true =>
      obtain ⟨r, hr, hin⟩ := List.any_eq_true.mp hany
      rw [Bool.and_eq_true, decide_eq_true_eq, decide_eq_true_eq] at hin
      rw [hagree r hr b hin.1 hin.2]
  · intro hmask r hr b hlo hhi
    have hbit : (word &&& rangesMask ranges).getLsbD b = (word' &&& rangesMask ranges).getLsbD b := by
      rw [hmask]
    have hany : (ranges.any fun r => decide (r.1 ≤ b) && decide (b < r.2)) = true := by
      apply List.any_eq_true.mpr
      exact ⟨r, hr, by simp [hlo, hhi]⟩
    rwa [BitVec.getLsbD_and, BitVec.getLsbD_and, getLsbD_rangesMask h, hany, Bool.and_true,
      Bool.and_true] at hbit

/-- A field inside the mask. -/
theorem shiftRight_and_eq {word word' mask : Word} (h : word &&& mask = word' &&& mask)
    (lo : Nat) (ones : Word) (hin : (mask >>> lo) &&& ones = ones) :
    (word >>> lo) &&& ones = (word' >>> lo) &&& ones := by
  have hfield : ∀ w : Word, (w >>> lo) &&& ones = ((w &&& mask) >>> lo) &&& ones := by
    intro w
    rw [BitVec.ushiftRight_and_distrib, BitVec.and_assoc, hin]
  rw [hfield word, hfield word', h]

theorem extractField_eq {word word' : Word} {lo hi : Nat} (hle : lo ≤ hi) (hhi : hi < 32)
    (h : AgreeOn [(lo, min (hi + 1) 255)] word word') :
    extractField word lo hi = extractField word' lo hi := by
  unfold extractField
  apply BitVec.eq_of_getLsbD_eq
  intro i _
  rw [getLsbD_field _ (by omega), getLsbD_field _ (by omega)]
  by_cases hin : i < hi - lo + 1
  · have hbit := h _ (List.mem_singleton.mpr rfl) (lo + i) (Nat.le_add_right lo i)
      (show lo + i < min (hi + 1) 255 by omega)
    rw [hbit]
  · rw [decide_eq_false hin, Bool.false_and, Bool.false_and]

/-! ## §5. Escapes one by one. -/

mutual

/-- The letters of an escape with their bit ranges, those in wrappers too. -/
def Escape.codes : Escape → List (List Char × Char)
  | .code bitfield letter => [(bitfield, letter)]
  | .wrapper inner => codesOf inner

def codesOf : List Escape → List (List Char × Char)
  | [] => []
  | e :: rest => e.codes ++ codesOf rest

end

namespace Thumb

mutual

theorem decodeEscape_eq (word : Word) (address : U64) (width : ThumbWidth) (e : Escape) :
    decodeEscape word address width e
      = e.codes.flatMap fun c => decodeCode c.1 c.2 word address width := by
  match e with
  | .code bitfield letter =>
    unfold decodeEscape Escape.codes
    rw [List.flatMap_singleton]
  | .wrapper inner =>
    unfold decodeEscape Escape.codes
    exact decodeEscapes_eq word address width inner

theorem decodeEscapes_eq (word : Word) (address : U64) (width : ThumbWidth) (es : List Escape) :
    decodeEscapes word address width es
      = (codesOf es).flatMap fun c => decodeCode c.1 c.2 word address width := by
  match es with
  | [] =>
    unfold decodeEscapes codesOf
    rfl
  | e :: rest =>
    unfold decodeEscapes codesOf
    rw [List.flatMap_append, decodeEscape_eq word address width e,
      decodeEscapes_eq word address width rest]

end

end Thumb

namespace Arm

mutual

theorem decodeEscape_eq (word : Word) (address : U64) (e : Escape) :
    decodeEscape word address e = e.codes.flatMap fun c => decodeCode c.1 c.2 word address := by
  match e with
  | .code bitfield letter =>
    unfold decodeEscape Escape.codes
    rw [List.flatMap_singleton]
  | .wrapper inner =>
    unfold decodeEscape Escape.codes
    exact decodeEscapes_eq word address inner

theorem decodeEscapes_eq (word : Word) (address : U64) (es : List Escape) :
    decodeEscapes word address es
      = (codesOf es).flatMap fun c => decodeCode c.1 c.2 word address := by
  match es with
  | [] =>
    unfold decodeEscapes codesOf
    rfl
  | e :: rest =>
    unfold decodeEscapes codesOf
    rw [List.flatMap_append, decodeEscape_eq word address e, decodeEscapes_eq word address rest]

end

end Arm

namespace OpcodeRow

def codes (row : OpcodeRow) : List (List Char × Char) := codesOf (escapes row.format)

/-- The ranges of the letters that the decoder goes through. -/
def entriesOf (row : OpcodeRow) : List (List BitRange) :=
  row.codes.flatMap fun c => (decodeOperandCode c.1 c.2 row.width).toList

def decodeCode (row : OpcodeRow) (word : Word) (address : U64) (c : List Char × Char) :
    List DecodedOperand :=
  match row with
  | thumb row => Thumb.decodeCode c.1 c.2 word address row.width
  | arm _ => Arm.decodeCode c.1 c.2 word address

theorem operands_eq (row : OpcodeRow) (word : Word) (address : U64) :
    row.operands word address = row.codes.flatMap (row.decodeCode word address) := by
  cases row with
  | thumb row => exact Thumb.decodeEscapes_eq word address row.width _
  | arm row => exact Arm.decodeEscapes_eq word address _

end OpcodeRow

/-! ## §6. Alignment, letter by letter. -/

section Aligned

variable {Matched : Word → Prop}

theorem Aligned.nil : Aligned Matched [] fun _ => [] := by
  intro word _
  refine ⟨rfl, fun word' _ i entry hentry => ?_⟩
  rw [List.getElem?_nil] at hentry
  cases hentry

/-- An operand that its ranges settle, or that has none. -/
theorem Aligned.single {ranges : List BitRange} {operand : Word → DecodedOperand}
    (h : ranges ≠ [] → ∀ word word', AgreeOn ranges word word' → operand word = operand word') :
    Aligned Matched [ranges] fun word => [operand word] := by
  intro word _
  refine ⟨rfl, fun word' _ i entry hentry hne hagree => ?_⟩
  cases i with
  | zero =>
    obtain rfl := Option.some.inj hentry
    exact congrArg some (h hne word word' hagree)
  | succ i => cases hentry

theorem Aligned.congr {es : List (List BitRange)} {xs ys : Word → List DecodedOperand}
    (h : Aligned Matched es xs) (hxs : ∀ word, Matched word → xs word = ys word) :
    Aligned Matched es ys := by
  intro word hword
  obtain ⟨hlen, hfix⟩ := h word hword
  rw [← hxs word hword]
  refine ⟨hlen, fun word' hword' i entry hentry hne hagree => ?_⟩
  rw [← hxs word' hword']
  exact hfix word' hword' i entry hentry hne hagree

theorem Aligned.append {es fs : List (List BitRange)} {xs ys : Word → List DecodedOperand}
    (hes : Aligned Matched es xs) (hfs : Aligned Matched fs ys) :
    Aligned Matched (es ++ fs) fun word => xs word ++ ys word := by
  intro word hword
  obtain ⟨hlen, hfix⟩ := hes word hword
  obtain ⟨hlen', hfix'⟩ := hfs word hword
  refine ⟨by rw [List.length_append, List.length_append, hlen, hlen'], ?_⟩
  intro word' hword' i entry hentry hne hagree
  have hother := (hes word' hword').1
  by_cases hi : i < es.length
  · rw [List.getElem?_append_left hi] at hentry
    rw [List.getElem?_append_left (by omega), List.getElem?_append_left (by omega)]
    exact hfix word' hword' i entry hentry hne hagree
  · rw [List.getElem?_append_right (by omega)] at hentry
    rw [List.getElem?_append_right (by omega), List.getElem?_append_right (by omega), ← hlen,
      ← hother]
    exact hfix' word' hword' _ entry hentry hne hagree

theorem Aligned.flatMap {γ : Type} {entries : γ → List (List BitRange)}
    {operands : Word → γ → List DecodedOperand} {cs : List γ}
    (h : ∀ c ∈ cs, Aligned Matched (entries c) fun word => operands word c) :
    Aligned Matched (cs.flatMap entries) fun word => cs.flatMap (operands word) := by
  induction cs with
  | nil => exact .nil
  | cons c cs ih =>
    exact (h c List.mem_cons_self).append (ih fun d hd => h d (List.mem_cons_of_mem _ hd))

/-- A letter with a bit range whose operand is read from that range. -/
theorem Aligned.ranged {bitfield : List Char} {lo hi : Nat}
    (h : parseBitfield bitfield = some (lo, hi)) (hhi : hi < 32)
    (operand : Word → DecodedOperand) :
    Aligned Matched [bitfieldToRanges bitfield]
      fun word => [operand (extractField word lo hi)] := by
  have hranges : bitfieldToRanges bitfield = [(lo, min (hi + 1) 255)] := by
    unfold bitfieldToRanges
    rw [h]
  rw [hranges]
  apply Aligned.single
  intro _ word word' hagree
  rw [extractField_eq (parseBitfield_le h) hhi hagree]

end Aligned

/-! ## §7. Letters that both walks treat alike. -/

/-- A bit range that lies in a word. -/
def isRange (bitfield : List Char) : Bool :=
  match parseBitfield bitfield with
  | some (_, hi) => decide (hi < 32)
  | none => false

theorem exists_range {bitfield : List Char} (h : isRange bitfield = true) :
    ∃ lo hi, parseBitfield bitfield = some (lo, hi) ∧ hi < 32 := by
  unfold isRange at h
  split at h
  · rename_i lo hi hparse
    exact ⟨lo, hi, hparse, of_decide_eq_true h⟩
  · cases h

namespace Thumb

/-- A bit range with one of the letters that read it, a letter that is only
displayed, or the shift of a 16-bit form, of which no ranges are given. -/
def isAlike (width : ThumbWidth) (bitfield : List Char) (letter : Char) : Bool :=
  if bitfield.isEmpty then
    ['C', 'X'].contains letter || (letter == 's' && width == .halfword)
  else ['r', 'R', 'd', 'x', 'c', 'B', 'S'].contains letter && isRange bitfield

/-- What both walks make of a letter with a bit range. -/
theorem ranged_alike {width : ThumbWidth} {bitfield : List Char} {letter : Char} {lo hi : Nat}
    (hparse : parseBitfield bitfield = some (lo, hi))
    (hletter : letter ∈ ['r', 'R', 'd', 'x', 'c', 'B', 'S']) (address : U64) :
    decodeOperandCode bitfield letter width = some (bitfieldToRanges bitfield)
      ∧ ∃ operand : Word → DecodedOperand, ∀ word,
        decodeCode bitfield letter word address width = [operand (extractField word lo hi)] := by
  have hnonempty : ¬ bitfield.isEmpty = true := by
    rw [isEmpty_of_parseBitfield hparse]
    decide
  unfold decodeOperandCode
  rw [if_neg hnonempty]
  simp only [List.mem_cons, List.not_mem_nil, or_false] at hletter
  obtain rfl | rfl | rfl | rfl | rfl | rfl | rfl := hletter
  · exact ⟨rfl, fun v => .register ⟨.r, v.setWidth 8⟩, fun word => ranged_of_parse hparse _⟩
  · exact ⟨rfl, fun v => .register ⟨.r, v.setWidth 8⟩, fun word => ranged_of_parse hparse _⟩
  · exact ⟨rfl, immediateOf, fun word => ranged_of_parse hparse _⟩
  · exact ⟨rfl, immediateOf, fun word => ranged_of_parse hparse _⟩
  · exact ⟨rfl, fun v => .condition (v.setWidth 8), fun word => ranged_of_parse hparse _⟩
  · refine ⟨rfl, fun v => .branchTarget
      (address + 4 + signExtend (v.setWidth 64) (hi - lo + 1) * 2), fun word => ?_⟩
    simp only [decodeCode, hparse]
  · exact ⟨rfl, fun v => .register ⟨.r, v.setWidth 8⟩,
      fun word => (decodeCode_ranged hparse word address width).1⟩

theorem aligned_code {Matched : Word → Prop} {width : ThumbWidth} {bitfield : List Char}
    {letter : Char} (h : isAlike width bitfield letter = true) (address : U64) :
    Aligned Matched (decodeOperandCode bitfield letter width).toList
      fun word => decodeCode bitfield letter word address width := by
  unfold isAlike at h
  by_cases hempty : bitfield.isEmpty = true
  · rw [if_pos hempty, Bool.or_eq_true] at h
    obtain rfl := List.isEmpty_iff.mp hempty
    obtain hsilent | hshift := h
    · rw [List.contains_iff_mem] at hsilent
      simp only [List.mem_cons, List.not_mem_nil, or_false] at hsilent
      obtain rfl | rfl := hsilent
      · cases width <;> exact .nil
      · cases width <;> exact .nil
    · rw [Bool.and_eq_true, beq_iff_eq, beq_iff_eq] at hshift
      obtain ⟨rfl, rfl⟩ := hshift
      exact .single fun hne => absurd rfl hne
  · rw [if_neg hempty, Bool.and_eq_true, List.contains_iff_mem] at h
    obtain ⟨lo, hi, hparse, hhi⟩ := exists_range h.2
    obtain ⟨hranges, operand, hoperand⟩ := ranged_alike hparse h.1 address
    rw [hranges]
    simp only [hoperand]
    exact Aligned.ranged hparse hhi operand

end Thumb

namespace Arm

/-- The row lets no word name the program counter as the base of an immediate offset. -/
def neverLiteral (opcode mask : Word) : Bool :=
  (mask.getLsbD 25 && opcode.getLsbD 25)
    || [16, 17, 18, 19].any fun b => mask.getLsbD b && !opcode.getLsbD b

/-- As in Thumb mode; and the letters of ARM mode without a bit range that have no
ranges or all of those they are read from. -/
def isAlike (opcode mask : Word) (bitfield : List Char) (letter : Char) : Bool :=
  if bitfield.isEmpty then
    ['C', 'P', 'R', 'q', 't', 'b', 'c', 'm', 's', 'V'].contains letter
      || (letter == 'a' && neverLiteral opcode mask)
  else ['r', 'R', 'd', 'W', 'x'].contains letter && isRange bitfield

theorem ranged_alike {bitfield : List Char} {letter : Char} {lo hi : Nat}
    (hparse : parseBitfield bitfield = some (lo, hi))
    (hletter : letter ∈ ['r', 'R', 'd', 'W', 'x']) (address : U64) :
    decodeOperandCode bitfield letter .word = some (bitfieldToRanges bitfield)
      ∧ ∃ operand : Word → DecodedOperand, ∀ word,
        decodeCode bitfield letter word address = [operand (extractField word lo hi)] := by
  have hnonempty : ¬ bitfield.isEmpty = true := by
    rw [isEmpty_of_parseBitfield hparse]
    decide
  unfold decodeOperandCode
  rw [if_neg hnonempty]
  simp only [List.mem_cons, List.not_mem_nil, or_false] at hletter
  obtain rfl | rfl | rfl | rfl | rfl := hletter
  · exact ⟨rfl, fun v => .register ⟨.r, v.setWidth 8⟩, fun word => ranged_of_parse hparse _⟩
  · exact ⟨rfl, fun v => .register ⟨.r, v.setWidth 8⟩, fun word => ranged_of_parse hparse _⟩
  · exact ⟨rfl, immediateOf, fun word => ranged_of_parse hparse _⟩
  · exact ⟨rfl, fun v => .immediate (v.toNat + 1), fun word => ranged_of_parse hparse _⟩
  · exact ⟨rfl, immediateOf, fun word => ranged_of_parse hparse _⟩

theorem literalTarget_eq_nil {opcode mask word : Word} (h : neverLiteral opcode mask = true)
    (hword : word &&& mask = opcode) (address : U64) : literalTarget word address = [] := by
  have hbit : ∀ b, mask.getLsbD b = true → word.getLsbD b = opcode.getLsbD b := by
    intro b hb
    rw [← hword, BitVec.getLsbD_and, hb, Bool.and_true]
  unfold literalTarget
  apply if_neg
  intro ⟨hbase, himm⟩
  have hbase' : ∀ k < 4, word.getLsbD (16 + k) = true := by
    intro k hk
    have hone := congrArg (fun w : Word => w.getLsbD k) hbase
    simp only [BitVec.getLsbD_and, BitVec.getLsbD_ushiftRight] at hone
    interval_cases k <;> simpa using hone
  have himm' : word.getLsbD 25 = false := by
    have hzero := congrArg (fun w : Word => w.getLsbD 0) himm
    simpa [BitVec.getLsbD_and, BitVec.getLsbD_ushiftRight] using hzero
  unfold neverLiteral at h
  rw [Bool.or_eq_true, Bool.and_eq_true, List.any_eq_true] at h
  obtain ⟨hmask, hopcode⟩ | ⟨b, hb, hfixed⟩ := h
  · rw [hbit 25 hmask, hopcode] at himm'
    cases himm'
  · rw [Bool.and_eq_true, Bool.not_eq_true'] at hfixed
    have hset : word.getLsbD b = true := by
      simp only [List.mem_cons, List.not_mem_nil, or_false] at hb
      obtain rfl | rfl | rfl | rfl := hb
      · exact hbase' 0 (by omega)
      · exact hbase' 1 (by omega)
      · exact hbase' 2 (by omega)
      · exact hbase' 3 (by omega)
    rw [hbit b hfixed.1, hfixed.2] at hset
    cases hset

theorem aligned_code {row : ArmOpcode} {bitfield : List Char} {letter : Char}
    (h : isAlike row.opcode row.mask bitfield letter = true) (address : U64) :
    Aligned (OpcodeRow.arm row).MatchedBy (decodeOperandCode bitfield letter .word).toList
      fun word => decodeCode bitfield letter word address := by
  unfold isAlike at h
  by_cases hempty : bitfield.isEmpty = true
  · rw [if_pos hempty, Bool.or_eq_true] at h
    obtain rfl := List.isEmpty_iff.mp hempty
    obtain hletter | haddress := h
    · rw [List.contains_iff_mem] at hletter
      simp only [List.mem_cons, List.not_mem_nil, or_false] at hletter
      obtain rfl | rfl | rfl | rfl | rfl | rfl | rfl | rfl | rfl | rfl := hletter
      · exact .nil
      · exact .nil
      · exact .nil
      · exact .nil
      · exact .nil
      · apply Aligned.single
        intro _ word word' hagree
        have hmask := (agreeOn_iff (by decide) word word').mp hagree
        have hlow : word &&& 0xffffff = word' &&& 0xffffff :=
          shiftRight_and_eq hmask 0 0xffffff (by decide)
        unfold wordOffset
        rw [hlow]
      · apply Aligned.single
        intro _ word word' hagree
        have hmask := (agreeOn_iff (by decide) word word').mp hagree
        rw [shiftRight_and_eq hmask 28 0xf (by decide)]
      · exact .single fun hne => absurd rfl hne
      · exact .single fun hne => absurd rfl hne
      · apply Aligned.single
        intro _ word word' hagree
        have hmask := (agreeOn_iff (by decide) word word').mp hagree
        have hlow : word &&& 0xfff = word' &&& 0xfff :=
          shiftRight_and_eq hmask 0 0xfff (by decide)
        rw [shiftRight_and_eq hmask 16 0xf (by decide), hlow]
    · rw [Bool.and_eq_true, beq_iff_eq] at haddress
      obtain ⟨rfl, hnever⟩ := haddress
      have hone : Aligned (OpcodeRow.arm row).MatchedBy [[]] fun word => [opaqueOf word aMask] :=
        .single fun hne => absurd rfl hne
      apply hone.congr
      intro word hword
      show [opaqueOf word aMask] = opaqueOf word aMask :: literalTarget word address
      rw [literalTarget_eq_nil hnever hword.1]
  · rw [if_neg hempty, Bool.and_eq_true, List.contains_iff_mem] at h
    obtain ⟨lo, hi, hparse, hhi⟩ := exists_range h.2
    obtain ⟨hranges, operand, hoperand⟩ := ranged_alike hparse h.1 address
    rw [hranges]
    simp only [hoperand]
    exact Aligned.ranged hparse hhi operand

end Arm

/-! ## §8. Rows that go wrong. -/

namespace OpcodeRow

def isAlikeCode (row : OpcodeRow) (c : List Char × Char) : Bool :=
  match row with
  | thumb row => Thumb.isAlike row.width c.1 c.2
  | arm row => Arm.isAlike row.opcode row.mask c.1 c.2

/-- Both walks treat every letter of the row alike. -/
def isAlike (row : OpcodeRow) : Bool := row.codes.all row.isAlikeCode

/-- **Rows of letters treated alike are described.** -/
theorem aligned_of_alike {row : OpcodeRow} (h : row.isAlike = true) (address : U64) :
    Aligned row.MatchedBy row.entriesOf fun word => row.operands word address := by
  simp only [operands_eq]
  apply Aligned.flatMap
  intro c hc
  have hcode := List.all_eq_true.mp h c hc
  cases row with
  | thumb row => exact Thumb.aligned_code hcode address
  | arm row => exact Arm.aligned_code hcode address

/-- A word for which the row has too many entries, or too few. -/
def miscounts (row : OpcodeRow) (entries : List (List BitRange)) (word : Word) : Bool :=
  decide (row.MatchedBy word) && entries.length != (row.operands word 0).length

/-- Two words that one entry does not tell apart, but its operand does. -/
def confuses (row : OpcodeRow) (entries : List (List BitRange)) (word word' : Word) : Bool :=
  decide (row.MatchedBy word) && decide (row.MatchedBy word')
    && entries.zipIdx.any fun e =>
      !e.1.isEmpty && (e.1.all fun r => decide (r.2 ≤ 32))
        && word &&& rangesMask e.1 == word' &&& rangesMask e.1
        && (row.operands word 0)[e.2]? != (row.operands word' 0)[e.2]?

/-- The word of the fixed bits alone goes wrong, or the one with the program counter
as its base, or the former next to a word with one bit more. -/
def isRefuted (row : OpcodeRow) (entries : List (List BitRange)) : Bool :=
  row.miscounts entries row.opcode
    || row.miscounts entries (row.opcode ||| (~~~row.mask &&& 0xf0000))
    || (List.range 32).any fun b => row.confuses entries row.opcode (row.opcode ||| 1#32 <<< b)

theorem not_aligned_of_refuted {row : OpcodeRow} {entries : List (List BitRange)}
    (h : row.isRefuted entries = true) :
    ¬ Aligned row.MatchedBy entries fun word => row.operands word 0 := by
  have hcount : ∀ word, row.miscounts entries word = true →
      ¬ Aligned row.MatchedBy entries fun word => row.operands word 0 := by
    intro word hword haligned
    unfold miscounts at hword
    rw [Bool.and_eq_true, decide_eq_true_eq, bne_iff_ne] at hword
    exact hword.2 (haligned word hword.1).1
  unfold isRefuted at h
  rw [Bool.or_eq_true, Bool.or_eq_true] at h
  obtain (h | h) | h := h
  · exact hcount _ h
  · exact hcount _ h
  · intro haligned
    obtain ⟨b, _, hb⟩ := List.any_eq_true.mp h
    unfold confuses at hb
    rw [Bool.and_eq_true, Bool.and_eq_true, decide_eq_true_eq, decide_eq_true_eq] at hb
    obtain ⟨⟨hword, hword'⟩, hany⟩ := hb
    obtain ⟨e, he, htest⟩ := List.any_eq_true.mp hany
    simp only [Bool.and_eq_true, Bool.not_eq_true', beq_iff_eq, bne_iff_ne] at htest
    obtain ⟨⟨⟨hne, hin⟩, hmask⟩, hdiffer⟩ := htest
    have hentry : entries[e.2]? = some e.1 := List.mem_zipIdx_iff_getElem?.mp he
    have hagree := (agreeOn_iff (fun r hr => of_decide_eq_true (List.all_eq_true.mp hin r hr))
      _ _).mpr hmask
    have hne' : e.1 ≠ [] := by
      intro hnil
      rw [hnil] at hne
      cases hne
    exact hdiffer ((haligned _ hword).2 _ hword' e.2 e.1 hentry hne' hagree)

/-- The third walk goes through the letters of the decoder's, and all of them are
treated alike, or the row goes wrong. -/
def isSettled (row : OpcodeRow) : Bool :=
  row.operandBitRanges == row.entriesOf && (row.isAlike || row.isRefuted row.entriesOf)

theorem thumbRows_settled : ∀ row ∈ thumbOpcodeTable, (thumb row).isSettled = true := by
  decide +kernel

theorem armRows_settled : ∀ row ∈ armOpcodeTable, (arm row).isSettled = true := by
  decide +kernel

end OpcodeRow

/-! ## §9. The rows that are described. -/

/-- A row of one of the tables. -/
structure TableRow where
  row : OpcodeRow
  mem : row ∈ opcodeRows

theorem TableRow.settled (r : TableRow) : r.row.isSettled = true := by
  obtain hthumb | harm := List.mem_append.mp r.mem
  · obtain ⟨row, hrow, hr⟩ := List.mem_map.mp hthumb
    rw [← hr]
    exact OpcodeRow.thumbRows_settled row hrow
  · obtain ⟨row, hrow, hr⟩ := List.mem_map.mp harm
    rw [← hr]
    exact OpcodeRow.armRows_settled row hrow

/-- **Described rows.** The ranges of a row of either table describe the operands of
the decoder exactly if both walks treat every letter of the row alike. -/
theorem described_iff (r : TableRow) : r.row.Described ↔ r.row.isAlike = true := by
  have hsettled := r.settled
  unfold OpcodeRow.isSettled at hsettled
  rw [Bool.and_eq_true, beq_iff_eq, Bool.or_eq_true] at hsettled
  obtain ⟨hsame, hsplit⟩ := hsettled
  unfold OpcodeRow.Described
  rw [hsame]
  constructor
  · intro haligned
    obtain halike | hrefuted := hsplit
    · exact halike
    · exact absurd (haligned 0) (OpcodeRow.not_aligned_of_refuted hrefuted)
  · exact OpcodeRow.aligned_of_alike

/-- A hint without operands. -/
def sevlRow : ThumbOpcode := ⟨.sevl, 0xbf50, 0xffff, .halfword, "sevl%c"⟩

/-- The wide conditional branch. -/
def wideBranchRow : ThumbOpcode :=
  ⟨.b, 0xf0008000, 0xf800d000, .word, "b%22-25c.w\t%b%X"⟩

/-- The hint is given a condition that the decoder does not make.  The ranges of the
branch lack the sign of its target: two words that agree on them go to different
places. -/
theorem ranges_misdescribe :
    .thumb sevlRow ∈ opcodeRows ∧ (OpcodeRow.thumb sevlRow).operandBitRanges = [[(8, 12)]]
      ∧ (OpcodeRow.thumb sevlRow).operands 0xbf50 0 = []
      ∧ ¬ (OpcodeRow.thumb sevlRow).Described
      ∧ .thumb wideBranchRow ∈ opcodeRows
      ∧ (OpcodeRow.thumb wideBranchRow).operandBitRanges = [[(22, 26)], [(0, 24)]]
      ∧ (OpcodeRow.thumb wideBranchRow).operands 0xf0008000 0
        = [.condition 0, .branchTarget 4]
      ∧ (OpcodeRow.thumb wideBranchRow).operands 0xf4008000 0
        = [.condition 0, .branchTarget (4 - 2 ^ 20)]
      ∧ ¬ (OpcodeRow.thumb wideBranchRow).Described := by
  have hsevl : sevlRow ∈ thumbOpcodeTable := by decide
  have hbranch : wideBranchRow ∈ thumbOpcodeTable := by decide
  have hnot : ∀ row : OpcodeRow, row.isRefuted row.operandBitRanges = true → ¬ row.Described :=
    fun row hrefuted hdescribed =>
      OpcodeRow.not_aligned_of_refuted hrefuted (hdescribed 0)
  refine ⟨List.mem_append_left _ (List.mem_map.mpr ⟨sevlRow, hsevl, rfl⟩), by decide +kernel,
    by decide +kernel, hnot _ (by decide +kernel),
    List.mem_append_left _ (List.mem_map.mpr ⟨wideBranchRow, hbranch, rfl⟩), by decide +kernel,
    by decide +kernel, by decide +kernel, hnot _ (by decide +kernel)⟩

end Armv8Encode.Armv7

/-
  Armv8Encode.Isa.Aarch64.TableFacts — deciding table lookups from known bits.

  A walk over 1208 rows cannot be unfolded for a symbolic word.  When some
  bits of the word are known, only the rows compatible with those bits can
  match, and if these ask for no other bits the walk over them is a closed
  computation (`matchOpcode_of_decides`).  The rows of one mnemonic are found
  the same way, by name (`opcodesForMnemonic_eq`).
-/
import Armv8Encode.Isa.Aarch64.Table

namespace Armv8Encode

open Lib

namespace Aarch64Opcode

/-! ## §1. The walk over the rows that match. -/

/-- One step of the walk among rows that match. -/
def keepBetter (best : Option Aarch64Opcode) (row : Aarch64Opcode) : Option Aarch64Opcode :=
  match best with
  | none => some row
  | some current => if shouldReplaceMatch current row then some row else best

/-- The row takes part in the walk for a word. -/
def isMatch (w : Word) (row : Aarch64Opcode) : Bool := row.maskMatches w && row.aliasApplies w

theorem matchStep_eq (w : Word) (best : Option Aarch64Opcode) (row : Aarch64Opcode) :
    matchStep w best row = if row.isMatch w then keepBetter best row else best := by
  unfold matchStep isMatch keepBetter
  cases row.maskMatches w <;> cases row.aliasApplies w <;> cases best <;> rfl

theorem matchOpcode_eq_foldl_matches (w : Word) :
    matchOpcode w = (aarch64OpcodeTable.filter (isMatch w)).foldl keepBetter none := by
  rw [List.foldl_filter, matchOpcode]
  congr 1
  funext best row
  exact matchStep_eq w best row

/-- The walk returns a row of the table that matches the word. -/
theorem mem_of_foldl_keepBetter {rows : List Aarch64Opcode} {best : Option Aarch64Opcode}
    {row : Aarch64Opcode} (h : rows.foldl keepBetter best = some row) :
    row ∈ rows ∨ best = some row := by
  induction rows generalizing best with
  | nil => exact .inr h
  | cons r rows ih =>
    rcases ih h with hmem | hbest
    · exact .inl (List.mem_cons_of_mem _ hmem)
    · unfold keepBetter at hbest
      split at hbest
      · cases hbest
        exact .inl List.mem_cons_self
      · split at hbest
        · cases hbest
          exact .inl List.mem_cons_self
        · exact .inr hbest

theorem matchOpcode_spec {w : Word} {row : Aarch64Opcode} (h : matchOpcode w = some row) :
    row ∈ aarch64OpcodeTable ∧ row.maskMatches w ∧ row.aliasApplies w := by
  rw [matchOpcode_eq_foldl_matches] at h
  rcases mem_of_foldl_keepBetter h with hmem | hnone
  · obtain ⟨hrow, hmatch⟩ := List.mem_filter.mp hmem
    simp only [isMatch, Bool.and_eq_true] at hmatch
    exact ⟨hrow, hmatch⟩
  · cases hnone

/-! ## §2. Known bits. -/

/-- The bits `value` under `known` do not rule the row out. -/
def compatible (known value : Word) (row : Aarch64Opcode) : Bool :=
  (row.opcode ^^^ value) &&& row.mask &&& known == 0#32

/-- Names whose alias condition reads the word. -/
def conditionalNames : List String :=
  ["ubfiz", "sbfiz", "bfi", "ubfx", "sbfx", "bfxil", "lsl", "lsr", "asr", "ror", "sxtl", "sxtl2",
    "uxtl", "uxtl2", "cinc", "cinv", "cneg", "at", "dc", "ic", "tlbi", "ld1", "st1", "ld2", "st2",
    "ld3", "st3", "ld4", "st4"]

theorem aliasApplies_of_notMem {row : Aarch64Opcode} (h : row.name ∉ conditionalNames)
    (w : Word) : row.aliasApplies w = true := by
  unfold aliasApplies
  split <;> simp_all [conditionalNames]

/-- Whether a word with these known bits carries the row is settled by them. -/
def settledBy (known : Word) (row : Aarch64Opcode) : Bool :=
  row.mask &&& ~~~known == 0#32 && !conditionalNames.contains row.name

theorem isMatch_of_settled {known value w : Word} {row : Aarch64Opcode}
    (hw : w &&& known = value) (hcompatible : row.compatible known value)
    (hsettled : row.settledBy known) : row.isMatch w = true := by
  simp only [compatible, settledBy, Bool.and_eq_true, beq_iff_eq] at hcompatible hsettled
  obtain ⟨hmask, hname⟩ := hsettled
  have hnotMem : row.name ∉ conditionalNames := by simpa using hname
  rw [isMatch, aliasApplies_of_notMem hnotMem, Bool.and_true, maskMatches, beq_iff_eq]
  apply BitVec.eq_of_getLsbD_eq
  intro i hi
  have hvalue : value.getLsbD i = (w &&& known).getLsbD i := by rw [hw]
  have hbit := congrArg (fun v => BitVec.getLsbD v i) hcompatible
  have hknown := congrArg (fun v => BitVec.getLsbD v i) hmask
  simp only [BitVec.getLsbD_and, BitVec.getLsbD_xor, BitVec.getLsbD_not, BitVec.getLsbD_zero, hi,
    decide_true, Bool.true_and] at hvalue hbit hknown ⊢
  generalize w.getLsbD i = a, known.getLsbD i = b, row.mask.getLsbD i = c,
    row.opcode.getLsbD i = d, value.getLsbD i = e at hvalue hbit hknown ⊢
  revert a b c d e
  decide

theorem compatible_of_maskMatches {known value w : Word} {row : Aarch64Opcode}
    (hw : w &&& known = value) (h : row.maskMatches w = true) :
    row.compatible known value = true := by
  rw [maskMatches, beq_iff_eq] at h
  rw [compatible, beq_iff_eq]
  apply BitVec.eq_of_getLsbD_eq
  intro i hi
  have hvalue : value.getLsbD i = (w &&& known).getLsbD i := by rw [hw]
  have hbit := congrArg (fun v => BitVec.getLsbD v i) h
  simp only [BitVec.getLsbD_and, BitVec.getLsbD_xor, BitVec.getLsbD_zero] at hvalue hbit ⊢
  generalize w.getLsbD i = a, known.getLsbD i = b, row.mask.getLsbD i = c,
    row.opcode.getLsbD i = d, value.getLsbD i = e at hvalue hbit ⊢
  revert a b c d e
  decide

theorem compatible_of_isMatch {known value w : Word} {row : Aarch64Opcode}
    (hw : w &&& known = value) (h : row.isMatch w = true) : row.compatible known value = true := by
  rw [isMatch, Bool.and_eq_true] at h
  exact compatible_of_maskMatches hw h.1

/-- Every row the known bits allow is settled by them, and the walk over
these rows ends at `row`. -/
def decides (known value : Word) (row : Aarch64Opcode) : Bool :=
  let rows := aarch64OpcodeTable.filter (compatible known value)
  rows.all (settledBy known) && rows.foldl keepBetter none == some row

/-- **Known bits decide the match**: a word that carries them matches `row`. -/
theorem matchOpcode_of_decides {known value w : Word} {row : Aarch64Opcode}
    (h : decides known value row = true) (hw : w &&& known = value) :
    matchOpcode w = some row := by
  simp only [decides, Bool.and_eq_true, List.all_eq_true, beq_iff_eq] at h
  obtain ⟨hall, hfold⟩ := h
  rw [matchOpcode_eq_foldl_matches, ← hfold]
  congr 1
  refine List.filter_congr fun r hr => ?_
  cases hc : r.compatible known value with
  | true => exact isMatch_of_settled hw hc (hall r (List.mem_filter.mpr ⟨hr, hc⟩))
  | false =>
    cases hm : r.isMatch w with
    | true => rw [compatible_of_isMatch hw hm] at hc; cases hc
    | false => rfl

end Aarch64Opcode

/-! ## §3. Rows of a mnemonic. -/

namespace Aarch64Mnemonic

/-- The names that stand for a mnemonic. -/
def spellings (m : Aarch64Mnemonic) : List String :=
  (names.filter (fun entry => entry.2 == m)).map Prod.fst

theorem names_nodup : (names.map Prod.fst).Nodup := by decide

theorem lookup_eq_some_iff {entries : List (String × Aarch64Mnemonic)}
    (hnodup : (entries.map Prod.fst).Nodup) {name : String} {m : Aarch64Mnemonic} :
    entries.lookup name = some m ↔ (name, m) ∈ entries := by
  induction entries with
  | nil => simp
  | cons entry rest ih =>
    obtain ⟨key, value⟩ := entry
    rw [List.map_cons, List.nodup_cons] at hnodup
    by_cases hname : name = key
    · subst hname
      have hnot : (name, m) ∉ rest := fun h => hnodup.1 (List.mem_map.mpr ⟨_, h, rfl⟩)
      simp only [List.lookup_cons_self, Option.some.injEq, List.mem_cons, Prod.mk.injEq, true_and,
        hnot, or_false]
      exact eq_comm
    · rw [List.lookup_cons, beq_false_of_ne hname]
      simp [hname, ih hnodup.2]

/-- A mnemonic of its own is parsed from exactly its spellings. -/
theorem parse_eq_iff {m : Aarch64Mnemonic} (hm : ∀ name, m ≠ .other name) {name : String} :
    parse name = m ↔ name ∈ m.spellings := by
  have hmem : name ∈ m.spellings ↔ (name, m) ∈ names := by
    simp [spellings, List.mem_filter]
  rw [hmem, ← lookup_eq_some_iff names_nodup, parse]
  cases names.lookup name with
  | none => exact ⟨fun h => absurd h.symm (hm name), fun h => by cases h⟩
  | some m' => simp

end Aarch64Mnemonic

/-- The rows of a mnemonic of its own, found by name. -/
theorem opcodesForMnemonic_eq {m : Aarch64Mnemonic} (hm : ∀ name, m ≠ .other name) :
    opcodesForMnemonic m = aarch64OpcodeTable.filter (fun row => m.spellings.contains row.name) := by
  refine List.filter_congr fun row _ => ?_
  rw [Bool.eq_iff_iff, beq_iff_eq, List.contains_iff_mem]
  exact Aarch64Mnemonic.parse_eq_iff hm

namespace Aarch64Mnemonic

/-- A name that stands for no mnemonic of its own is parsed from itself only. -/
theorem parse_eq_other_iff {name : String} (h : names.lookup name = none) {name' : String} :
    parse name' = .other name ↔ name' = name := by
  have hown : ∀ entry ∈ names, (match entry.2 with | .other _ => false | _ => true) = true := by
    decide
  rw [parse]
  cases hlookup : names.lookup name' with
  | none => exact Aarch64Mnemonic.other.injEq name' name ▸ Iff.rfl
  | some m =>
    have hmem := hown _ ((lookup_eq_some_iff names_nodup).mp hlookup)
    constructor
    · intro hm
      rw [show m = .other name from hm] at hmem
      cases hmem
    · intro hname
      rw [hname, h] at hlookup
      cases hlookup

end Aarch64Mnemonic

/-- The rows of any other mnemonic have its name. -/
theorem opcodesForMnemonic_other {name : String} (h : Aarch64Mnemonic.names.lookup name = none) :
    opcodesForMnemonic (.other name) = aarch64OpcodeTable.filter (fun row => row.name == name) := by
  refine List.filter_congr fun row _ => ?_
  rw [Bool.eq_iff_iff, beq_iff_eq, beq_iff_eq]
  exact Aarch64Mnemonic.parse_eq_other_iff h

end Armv8Encode

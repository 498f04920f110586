/-
  Armv8Encode.Container.DynamicSymbols — what becomes of the dynamic table.

  The two tables of a linked file number their entries each from the start, but
  the reader keeps one map for both.  A dynamic entry whose number a static one
  has too is passed over, and a dynamic relocation that means it is given the
  static one.
-/
import Armv8Encode.Container.ReaderSpec
import Armv8Encode.Lib.Lists

namespace Armv8Encode.Objects

open Lib

/-! ## §1. What the reader is to find. -/

/-- The name under an id of the container. -/
def symbolName (c : ReadContainer) (id : Option SymbolId) : Option String :=
  (id.bind fun id => c.symbols[id.index]?).map Symbol.name

/-- The name of the dynamic entry that a relocation refers to. -/
def dynamicName (file : ObjectFile) : RelocationTarget → Option String
  | .symbol i => (file.dynamicSymbols.find? fun e => e.index == i).map fun e => e.name.getD ""
  | _ => none

/-- The container's relocations that came from the dynamic tables. -/
def liftedDynamic (file : ObjectFile) : List Relocation :=
  (parse file).relocations.drop (staticRelocations file).length

/-- Named dynamic symbols are there, and dynamic relocations carry them. -/
structure DynamicAttributed (file : ObjectFile) : Prop where
  present : ∀ e ∈ file.dynamicSymbols, e.name.getD "" ≠ "" →
    ∃ s ∈ (parse file).symbols, ∃ id, s = liftSymbol file e id
  named : List.Forall₂
    (fun r lifted => symbolName (parse file) lifted.symbol = dynamicName file r.1.target)
    (dynamicRelocations file) (liftedDynamic file)

/-- Where both tables use an index, nothing is lost by taking the static entry. -/
structure TablesAgree (file : ObjectFile) : Prop where
  /-- A named entry that is passed over is listed elsewhere. -/
  listed : ∀ e ∈ file.dynamicSymbols, e.name.getD "" ≠ "" →
    ∀ s ∈ file.symbols, s.index = e.index →
      ∃ f ∈ listedEntries file, ∀ id, liftSymbol file f id = liftSymbol file e id
  /-- An index that a relocation uses has one name in both. -/
  named : ∀ r ∈ dynamicRelocations file, ∀ i, r.1.target = .symbol i →
    ∀ s ∈ file.symbols, s.index = i → dynamicName file (.symbol i) = some (s.name.getD "")

/-! ## §2. The symbols. -/

theorem mem_symbols_iff {file : ObjectFile} {s : Symbol} :
    s ∈ (parse file).symbols
      ↔ ∃ k e, (listedEntries file)[k]? = some e ∧ s = liftSymbol file e ⟨k⟩ := by
  show s ∈ (liftSymbols file).symbols ↔ _
  rw [List.mem_iff_getElem?]
  constructor
  · rintro ⟨k, hk⟩
    rw [symbols_getElem?] at hk
    obtain ⟨e, he, heq⟩ := Option.map_eq_some_iff.mp hk
    exact ⟨k, e, he, heq.symm⟩
  · rintro ⟨k, e, he, rfl⟩
    exact ⟨k, by rw [symbols_getElem?, he]; rfl⟩

/-- Symbols that differ in their id only. -/
theorem liftSymbol_congr {file : ObjectFile} {e f : ObjSymbol} {id id' : SymbolId}
    (h : liftSymbol file f id = liftSymbol file e id') (other : SymbolId) :
    liftSymbol file f other = liftSymbol file e other := by
  unfold liftSymbol at h ⊢
  rw [Symbol.mk.injEq] at h
  obtain ⟨_, hname, haddress, hkind, hsection, hundefined⟩ := h
  rw [hname, haddress, hkind, hsection, hundefined]

theorem present_iff {file : ObjectFile} {e : ObjSymbol} (he : e ∈ file.dynamicSymbols) :
    (∃ s ∈ (parse file).symbols, ∃ id, s = liftSymbol file e id)
      ↔ ∀ s ∈ file.symbols, s.index = e.index →
        ∃ f ∈ listedEntries file, ∀ id, liftSymbol file f id = liftSymbol file e id := by
  constructor
  · rintro ⟨s, hs, id, heq⟩ _ _ _
    obtain ⟨k, f, hf, rfl⟩ := mem_symbols_iff.mp hs
    exact ⟨f, List.mem_of_getElem? hf, liftSymbol_congr heq⟩
  · intro h
    have hlisted : ∃ f ∈ listedEntries file, ∀ id, liftSymbol file f id = liftSymbol file e id := by
      by_cases hfree : ∀ s ∈ file.symbols, s.index ≠ e.index
      · exact ⟨e, List.mem_append_right _ (mem_ownDynamic.mpr ⟨he, hfree⟩), fun _ => rfl⟩
      · push Not at hfree
        obtain ⟨s, hs, hindex⟩ := hfree
        exact h s hs hindex
    obtain ⟨f, hf, hsame⟩ := hlisted
    obtain ⟨k, hk⟩ := List.getElem?_of_mem hf
    exact ⟨_, mem_symbols_iff.mpr ⟨k, f, hk, rfl⟩, ⟨k⟩, hsame ⟨k⟩⟩

/-! ## §3. The relocations. -/

theorem symbolName_eq (file : ObjectFile) (id : Option SymbolId) :
    symbolName (parse file) id
      = (id.bind fun id => (listedEntries file)[id.index]?).map fun e => e.name.getD "" := by
  cases id with
  | none => rfl
  | some id =>
    show ((liftSymbols file).symbols[id.index]?).map Symbol.name = _
    rw [symbols_getElem?, Option.map_map]
    rfl

/-- The name of what an index leads to: the static entry's, if there is one. -/
theorem symbolName_target (file : ObjectFile) (target : RelocationTarget) :
    symbolName (parse file) (liftTarget (liftSymbols file) target) = dynamicName file target
      ↔ ∀ i, target = .symbol i → ∀ s ∈ file.symbols, s.index = i →
        dynamicName file (.symbol i) = some (s.name.getD "") := by
  cases target with
  | sectionOf i => exact iff_of_true rfl fun _ h => by cases h
  | absolute => exact iff_of_true rfl fun _ h => by cases h
  | symbol i =>
    show symbolName (parse file) ((liftSymbols file).indexToId.lookup i) = _ ↔ _
    rw [symbolName_eq]
    by_cases hfree : ∀ s ∈ file.symbols, s.index ≠ i
    · rw [lookup_dynamic hfree]
      refine iff_of_true rfl ?_
      rintro _ ⟨⟩ s hs hindex
      exact absurd hindex (hfree s hs)
    · push Not at hfree
      obtain ⟨s, hs, rfl⟩ := hfree
      obtain ⟨id, hlookup, hid⟩ := lookup_static hs
      have hentry : (listedEntries file)[id.index]? = some s := by
        rw [← hid]
        exact List.getElem?_append_left (List.getElem?_eq_some_iff.mp hid).1
      rw [hlookup, Option.bind_some, hentry]
      constructor
      · rintro h _ ⟨⟩ t ht hindex
        rw [index_unique file.symbolOrder ht hs hindex]
        exact h.symm
      · intro h
        exact (h _ rfl s hs rfl).symm

/-- The dynamic part of the list, relocation by relocation. -/
theorem forall₂_liftedDynamic {file : ObjectFile}
    {R : ObjRelocation × SectionId × U64 → Relocation → Prop} {P : ObjRelocation → Prop}
    (h : ∀ r id, R r (liftRelocation file (liftSymbols file) r.1 r.2.1 r.2.2 id) ↔ P r.1) :
    List.Forall₂ R (dynamicRelocations file) (liftedDynamic file)
      ↔ ∀ r ∈ dynamicRelocations file, P r.1 := by
  have hdrop : liftedDynamic file
      = ((dynamicRelocations file).zipIdx (staticRelocations file).length).map fun r =>
        liftRelocation file (liftSymbols file) r.1.1 r.1.2.1 r.1.2.2 ⟨r.2⟩ := by
    show (List.map _ _).drop _ = _
    rw [List.zipIdx_append, List.map_append, List.drop_left' (by simp), Nat.zero_add]
  rw [hdrop, List.forall₂_map_right_iff]
  generalize (staticRelocations file).length = start
  induction dynamicRelocations file generalizing start with
  | nil => exact iff_of_true .nil fun r hr => absurd hr List.not_mem_nil
  | cons r rest ih =>
    rw [List.zipIdx_cons, List.forall₂_cons, List.forall_mem_cons]
    exact and_congr (h r ⟨start⟩) (ih (start + 1))

/-- **Dynamic entries go to the right symbols** if and only if, where both tables use
an index, the entry that is passed over is listed elsewhere and the relocations
find one name in both. -/
theorem parse_dynamicAttributed_iff (file : ObjectFile) :
    DynamicAttributed file ↔ TablesAgree file := by
  have hpresent : (∀ e ∈ file.dynamicSymbols, e.name.getD "" ≠ "" →
        ∃ s ∈ (parse file).symbols, ∃ id, s = liftSymbol file e id)
      ↔ ∀ e ∈ file.dynamicSymbols, e.name.getD "" ≠ "" →
        ∀ s ∈ file.symbols, s.index = e.index →
          ∃ f ∈ listedEntries file, ∀ id, liftSymbol file f id = liftSymbol file e id :=
    forall₂_congr fun e he => imp_congr_right fun _ => present_iff he
  have hnamed := @forall₂_liftedDynamic file
    (fun r lifted => symbolName (parse file) lifted.symbol = dynamicName file r.1.target)
    (fun r => ∀ i, r.target = .symbol i → ∀ s ∈ file.symbols, s.index = i →
      dynamicName file (.symbol i) = some (s.name.getD ""))
    fun r _ => symbolName_target file r.1.target
  constructor
  · rintro ⟨hp, hn⟩
    exact ⟨hpresent.mp hp, hnamed.mp hn⟩
  · rintro ⟨hp, hn⟩
    exact ⟨hpresent.mpr hp, hnamed.mpr hn⟩

/-! ## §4. An unstripped library. -/

/-- A library that calls `puts`, with one static symbol of its own. -/
def unstrippedLibrary : ObjectFile where
  format := .elf
  architecture := .aarch64
  kind := .sharedObject
  sections := [⟨1, ".got", 0x2000, 8, .data, some 1, []⟩]
  symbols := [⟨1, some "helper", 0x1000, .function, none, false⟩]
  dynamicSymbols := [⟨1, some "puts", 0, .unknown, none, true⟩]
  dynamicRelocations := [⟨0x2000, .elf 1025, 64, 0, .symbol 1⟩]
  sectionOrder := by decide
  symbolOrder := by decide
  dynamicOrder := by decide
  flagsFormat := by decide
  dynamicFlagsFormat := by decide

/-- The import is not listed, and its slot is bound to the static symbol. -/
theorem unstrippedLibrary_misattributed :
    ((parse unstrippedLibrary).symbols.map Symbol.name = ["helper"]
      ∧ (liftedDynamic unstrippedLibrary).map Relocation.symbol = [some ⟨0⟩])
      ∧ ¬ DynamicAttributed unstrippedLibrary := by
  refine ⟨by decide, ?_⟩
  rintro ⟨hpresent, _⟩
  obtain ⟨s, hs, id, rfl⟩ := hpresent _ List.mem_cons_self (by decide)
  obtain heq := List.mem_singleton.mp hs
  have hname : "puts" = "helper" := congrArg Symbol.name heq
  exact absurd hname (by decide)

end Armv8Encode.Objects

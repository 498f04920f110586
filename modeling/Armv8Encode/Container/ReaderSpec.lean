/-
  Armv8Encode.Container.ReaderSpec — which symbols are listed, and under which id.

  The list is the static table and then those dynamic entries whose index the
  static table does not use.  An id is a position in it, and an index leads to
  the entry that has it.
-/
import Armv8Encode.Container.Reader

namespace Armv8Encode.Objects

open Lib

/-! ## §1. The list. -/

/-- The dynamic entries that get an id of their own. -/
def ownDynamic (file : ObjectFile) : List ObjSymbol :=
  file.dynamicSymbols.filter fun e => decide (∀ s ∈ file.symbols, s.index ≠ e.index)

/-- The entries that are listed, in their order. -/
def listedEntries (file : ObjectFile) : List ObjSymbol := file.symbols ++ ownDynamic file

/-- The list and the map of some entries. -/
def liftedOf (file : ObjectFile) (entries : List ObjSymbol) : LiftedSymbols where
  symbols := entries.zipIdx.map fun e => liftSymbol file e.1 ⟨e.2⟩
  indexToId := (entries.zipIdx.map fun e => (e.1.index, ⟨e.2⟩)).reverse

theorem pushSymbol_liftedOf (file : ObjectFile) (entries : List ObjSymbol) (e : ObjSymbol) :
    pushSymbol file (liftedOf file entries) e = liftedOf file (entries ++ [e]) := by
  unfold pushSymbol liftedOf
  rw [List.zipIdx_append, List.map_append, List.map_append, List.reverse_append]
  simp

theorem foldl_pushSymbol (file : ObjectFile) (entries later : List ObjSymbol) :
    later.foldl (pushSymbol file) (liftedOf file entries) = liftedOf file (entries ++ later) := by
  induction later generalizing entries with
  | nil => rw [List.append_nil, List.foldl_nil]
  | cons e rest ih =>
    rw [List.foldl_cons, pushSymbol_liftedOf, ih, List.append_assoc, List.singleton_append]

/-- What an index leads to stands at the position of its id. -/
theorem getElem?_of_lookup {file : ObjectFile} {entries : List ObjSymbol} {i : Nat} {id : SymbolId}
    (h : (liftedOf file entries).indexToId.lookup i = some id) :
    ∃ e, entries[id.index]? = some e ∧ e.index = i := by
  have hmem := List.mem_reverse.mp (mem_of_lookup_eq_some h)
  obtain ⟨⟨e, k⟩, hk, heq⟩ := List.mem_map.mp hmem
  cases heq
  exact ⟨e, List.mk_mem_zipIdx_iff_getElem?.mp hk, rfl⟩

theorem lookup_eq_none {file : ObjectFile} {entries : List ObjSymbol} {i : Nat} :
    (liftedOf file entries).indexToId.lookup i = none ↔ ∀ e ∈ entries, e.index ≠ i := by
  rw [lookup_eq_none_iff]
  constructor
  · rintro h e he rfl
    obtain ⟨k, hk⟩ := List.getElem?_of_mem he
    refine h ⟨k⟩ (List.mem_reverse.mpr (List.mem_map.mpr ⟨(e, k), ?_, rfl⟩))
    exact List.mk_mem_zipIdx_iff_getElem?.mpr hk
  · intro h id hid
    obtain ⟨⟨e, k⟩, hk, heq⟩ := List.mem_map.mp (List.mem_reverse.mp hid)
    cases heq
    exact h e (List.mem_of_getElem? (List.mk_mem_zipIdx_iff_getElem?.mp hk)) rfl

theorem foldl_pushDynamicSymbol (file : ObjectFile) {entries later : List ObjSymbol}
    (hordered : later.Pairwise fun s t => s.index < t.index) :
    later.foldl (pushDynamicSymbol file) (liftedOf file entries)
      = liftedOf file (entries ++ later.filter fun e =>
          decide (∀ s ∈ entries, s.index ≠ e.index)) := by
  induction later generalizing entries with
  | nil => rw [List.filter_nil, List.append_nil, List.foldl_nil]
  | cons e rest ih =>
    obtain ⟨he, hrest⟩ := List.pairwise_cons.mp hordered
    rw [List.foldl_cons]
    by_cases hfree : ∀ s ∈ entries, s.index ≠ e.index
    · have hpush : pushDynamicSymbol file (liftedOf file entries) e
          = liftedOf file (entries ++ [e]) := by
        unfold pushDynamicSymbol
        rw [lookup_eq_none.mpr hfree, if_neg (by decide), pushSymbol_liftedOf]
      -- No later entry has the index that was just used.
      have hlater : rest.filter (fun f => decide (∀ s ∈ entries ++ [e], s.index ≠ f.index))
          = rest.filter fun f => decide (∀ s ∈ entries, s.index ≠ f.index) := by
        refine List.filter_congr fun f hf => ?_
        have hne : e.index ≠ f.index := Nat.ne_of_lt (he f hf)
        simp [or_imp, forall_and, hne]
      rw [hpush, ih hrest, hlater, List.filter_cons_of_pos (by rw [decide_eq_true_eq]; exact hfree),
        List.append_assoc, List.singleton_append]
    · have hpass : pushDynamicSymbol file (liftedOf file entries) e = liftedOf file entries := by
        have hsome : (liftedOf file entries).indexToId.lookup e.index ≠ none := fun hnone =>
          hfree (lookup_eq_none.mp hnone)
        unfold pushDynamicSymbol
        rw [if_pos (Option.isSome_iff_ne_none.mpr hsome)]
      rw [hpass, ih hrest, List.filter_cons_of_neg (by rw [decide_eq_true_eq]; exact hfree)]

/-- **The list of symbols** and the map of their indices. -/
theorem liftSymbols_eq (file : ObjectFile) :
    liftSymbols file = liftedOf file (listedEntries file) := by
  have hempty : (⟨[], []⟩ : LiftedSymbols) = liftedOf file [] := rfl
  unfold liftSymbols
  rw [hempty, foldl_pushSymbol, List.nil_append, foldl_pushDynamicSymbol file file.dynamicOrder]
  rfl

/-! ## §2. Ids. -/

theorem symbols_getElem? (file : ObjectFile) (k : Nat) :
    (liftSymbols file).symbols[k]?
      = ((listedEntries file)[k]?).map fun e => liftSymbol file e ⟨k⟩ := by
  rw [liftSymbols_eq]
  show ((listedEntries file).zipIdx.map _)[k]? = _
  rw [List.getElem?_map, List.getElem?_zipIdx]
  cases (listedEntries file)[k]? with
  | none => rfl
  | some e => simp

/-- A table in the order of its indices has one entry for each. -/
theorem index_unique {entries : List ObjSymbol}
    (hordered : entries.Pairwise fun s t => s.index < t.index) {e f : ObjSymbol}
    (he : e ∈ entries) (hf : f ∈ entries) (h : e.index = f.index) : e = f := by
  induction entries with
  | nil => cases he
  | cons g rest ih =>
    obtain ⟨hg, hrest⟩ := List.pairwise_cons.mp hordered
    obtain rfl | he' := List.mem_cons.mp he
    · obtain rfl | hf' := List.mem_cons.mp hf
      · rfl
      · exact absurd h (Nat.ne_of_lt (hg f hf'))
    · obtain rfl | hf' := List.mem_cons.mp hf
      · exact absurd h.symm (Nat.ne_of_lt (hg e he'))
      · exact ih hrest he' hf'

theorem mem_ownDynamic {file : ObjectFile} {e : ObjSymbol} :
    e ∈ ownDynamic file ↔ e ∈ file.dynamicSymbols ∧ ∀ s ∈ file.symbols, s.index ≠ e.index := by
  unfold ownDynamic
  rw [List.mem_filter, decide_eq_true_eq]

/-- An index of the static table leads to its entry there. -/
theorem lookup_static {file : ObjectFile} {e : ObjSymbol} (he : e ∈ file.symbols) :
    ∃ id, (liftSymbols file).indexToId.lookup e.index = some id
      ∧ file.symbols[id.index]? = some e := by
  rw [liftSymbols_eq]
  cases hlookup : (liftedOf file (listedEntries file)).indexToId.lookup e.index with
  | none => exact absurd rfl (lookup_eq_none.mp hlookup e (List.mem_append_left _ he))
  | some id =>
    obtain ⟨f, hf, hindex⟩ := getElem?_of_lookup hlookup
    refine ⟨id, rfl, ?_⟩
    by_cases hin : id.index < file.symbols.length
    · have hstatic : file.symbols[id.index]? = some f := by
        rw [← hf]
        exact (List.getElem?_append_left hin).symm
      rw [hstatic, index_unique file.symbolOrder (List.mem_of_getElem? hstatic) he hindex]
    · -- An own dynamic entry has no index of the static table.
      have hdynamic : (ownDynamic file)[id.index - file.symbols.length]? = some f := by
        rw [← hf]
        exact (List.getElem?_append_right (by omega)).symm
      have hown := mem_ownDynamic.mp (List.mem_of_getElem? hdynamic)
      exact absurd hindex.symm (hown.2 e he)

/-- Any other index leads to the dynamic entry that has it, if there is one. -/
theorem lookup_dynamic {file : ObjectFile} {i : Nat} (hfree : ∀ s ∈ file.symbols, s.index ≠ i) :
    ((liftSymbols file).indexToId.lookup i).bind (fun id => (listedEntries file)[id.index]?)
      = file.dynamicSymbols.find? fun e => e.index == i := by
  rw [liftSymbols_eq]
  cases hlookup : (liftedOf file (listedEntries file)).indexToId.lookup i with
  | none =>
    symm
    rw [Option.bind_none, List.find?_eq_none]
    intro e he heq
    have hindex : e.index = i := by simpa using heq
    refine lookup_eq_none.mp hlookup e (List.mem_append_right _ (mem_ownDynamic.mpr ⟨he, ?_⟩)) hindex
    rw [hindex]
    exact hfree
  | some id =>
    obtain ⟨f, hf, hindex⟩ := getElem?_of_lookup hlookup
    have hmem : f ∈ file.dynamicSymbols := by
      obtain hstatic | hown := List.mem_append.mp (List.mem_of_getElem? hf)
      · exact absurd hindex (hfree f hstatic)
      · exact (mem_ownDynamic.mp hown).1
    rw [Option.bind_some, hf]
    cases hfind : file.dynamicSymbols.find? fun e => e.index == i with
    | none =>
      rw [List.find?_eq_none] at hfind
      exact absurd (by simpa using hindex) (hfind f hmem)
    | some g =>
      have hg : g.index = i := by simpa using List.find?_some hfind
      rw [index_unique file.dynamicOrder hmem (List.mem_of_find?_eq_some hfind)
        (hindex.trans hg.symm)]

end Armv8Encode.Objects

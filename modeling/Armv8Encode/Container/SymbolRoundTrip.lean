/-
  Armv8Encode.Container.SymbolRoundTrip — symbols, read and written again.

  The container keeps of a symbol's place its section, if it has one, and
  whether it is undefined.  The writer hands a symbol to the object library as
  defined in a section that it writes, or else as undefined.

  The library itself is not under the source: what is assumed of it is that a
  symbol comes back as it was given.
-/
import Armv8Encode.Container.RelocationRoundTrip

namespace Armv8Encode.Objects

open Lib

/-! ## §1. Symbols with their sizes and bindings. -/

/-- Where the object library has a symbol. -/
inductive SymbolPlace where
  | unknown
  | none
  | undefined
  | absolute
  | common
  | sectionOf (index : Nat)
  deriving Repr, DecidableEq

def SymbolPlace.index : SymbolPlace → Option Nat
  | .sectionOf index => some index
  | _ => Option.none

/-- The bits that an ELF symbol has beside its fields. -/
structure SymbolExtraFlags where
  stInfo : Byte
  stOther : Byte
  deriving Repr, DecidableEq

/-- What else the library reports of a symbol. -/
structure SymbolDetail where
  size : U64
  isWeak : Bool
  isGlobal : Bool
  isLocal : Bool
  place : SymbolPlace
  flags : Option SymbolExtraFlags
  deriving Repr, DecidableEq

/-- A parsed file with everything that is read of its symbols. -/
structure SymbolFile extends ObjectFile where
  detail : ObjSymbol → SymbolDetail
  placeIndex : ∀ e ∈ symbols ++ dynamicSymbols, e.sectionIndex = (detail e).place.index

inductive SymbolBinding where
  | localBinding
  | globalBinding
  | weak
  | unknown
  deriving Repr, DecidableEq

def bindingOf (d : SymbolDetail) : SymbolBinding :=
  if d.isWeak then .weak
  else if d.isGlobal then .globalBinding
  else if d.isLocal then .localBinding
  else .unknown

/-- A symbol of the container with all its fields. -/
structure FullSymbol extends Symbol where
  size : U64
  binding : SymbolBinding
  flags : Option SymbolExtraFlags
  deriving Repr, DecidableEq

def liftFullSymbol (file : SymbolFile) (entry : ObjSymbol) (id : SymbolId) : FullSymbol :=
  { liftSymbol file.toObjectFile entry id with
    size := (file.detail entry).size
    binding := bindingOf (file.detail entry)
    flags := (file.detail entry).flags }

/-- The symbols of the container, one for each listed entry. -/
def fullSymbols (file : SymbolFile) : List FullSymbol :=
  (listedEntries file.toObjectFile).zipIdx.map fun e => liftFullSymbol file e.1 ⟨e.2⟩

/-! ## §2. What is written. -/

inductive SymbolScope where
  | unknown
  | compilation
  | linkage
  deriving Repr, DecidableEq

inductive WriteSymbolSection where
  | undefined
  | sectionOf (id : SectionId)
  deriving Repr, DecidableEq

structure WriteSymbol where
  name : String
  value : U64
  size : U64
  kind : SymbolKind
  scope : SymbolScope
  weak : Bool
  placed : WriteSymbolSection
  flags : Option SymbolExtraFlags
  deriving Repr, DecidableEq

def symbolScope : SymbolBinding → SymbolScope
  | .localBinding => .compilation
  | .globalBinding => .linkage
  | .weak => .linkage
  | .unknown => .unknown

/-- A symbol that is not undefined and has a section that is written. -/
def writeSection (written : List SectionId) (s : FullSymbol) : WriteSymbolSection :=
  match s.sectionId, s.isUndefined with
  | some id, false => if written.contains id then .sectionOf id else .undefined
  | _, _ => .undefined

def writeSymbol (written : List SectionId) (s : FullSymbol) : WriteSymbol where
  name := s.name
  value := s.address
  size := s.size
  kind := s.kind
  scope := symbolScope s.binding
  weak := decide (s.binding = .weak)
  placed := writeSection written s
  flags := s.flags

def addSymbols (file : SymbolFile) : List WriteSymbol :=
  (fullSymbols file).map (writeSymbol (addSections (parse file.toObjectFile)))

/-! ## §3. What is read again. -/

def sectionName (file : ObjectFile) (id : SectionId) : Option String :=
  ((liftSections file)[id.index]?).map ReadSection.name

/-- An entry of the new file that says what was given. -/
structure Carried (file out : SymbolFile) (w : WriteSymbol) (e : ObjSymbol) : Prop where
  name : e.name = some w.name
  value : e.address = w.value
  size : (out.detail e).size = w.size
  weak : (out.detail e).isWeak = w.weak
  linkage : (out.detail e).isGlobal = decide (w.scope = .linkage)
  compilation : (out.detail e).isLocal = decide (w.scope = .compilation)
  undefined : e.isUndefined = decide (w.placed = .undefined)
  /-- The section has the name that the section it was given had. -/
  placed : ∀ id, w.placed = .sectionOf id → ∃ s ∈ out.sections,
    (out.detail e).place = .sectionOf s.index ∧
      some s.name = sectionName file.toObjectFile id

/-- The file that is written for a parsed one, with the entry of each symbol. -/
structure Rewritten (file : SymbolFile) where
  out : SymbolFile
  entries : List ObjSymbol
  listed : ∀ e ∈ entries, e ∈ out.symbols
  carried : List.Forall₂ (Carried file out) (addSymbols file) entries

/-! ## §4. Definedness. -/

/-- The name of the section a symbol is defined in. -/
def FullSymbol.sectionName (file : SymbolFile) (s : FullSymbol) : Option String :=
  s.sectionId.bind (Objects.sectionName file.toObjectFile)

/-- A symbol without a section is where it was. -/
def PlaceKept (place place' : SymbolPlace) : Prop :=
  (place = .absolute → place' = .absolute) ∧ (place = .common → place' = .common)

structure SymbolKept (file out : SymbolFile) (s s' : FullSymbol) : Prop where
  name : s'.name = s.name
  binding : s'.binding = s.binding
  undefined : s'.isUndefined = true ↔ s.isUndefined = true
  defined : s.isUndefined = false →
    s'.address = s.address ∧ s'.size = s.size ∧ s'.sectionName out = s.sectionName file

/-- Every symbol of the container has one of the new container for it, under the
id that its entry has there. -/
def SymbolsKept (file : SymbolFile) (r : Rewritten file) : Prop :=
  ∀ (i : Nat) (e : ObjSymbol), (listedEntries file.toObjectFile)[i]? = some e →
    ∃ (e' : ObjSymbol) (id' : SymbolId), r.entries[i]? = some e' ∧
      liftFullSymbol r.out e' id' ∈ fullSymbols r.out ∧
      SymbolKept file r.out (liftFullSymbol file e ⟨i⟩) (liftFullSymbol r.out e' id') ∧
      (e.isUndefined = false → PlaceKept (file.detail e).place (r.out.detail e').place)

/-- The symbols that the writer has a place for. -/
def HasWrittenPlace (file : SymbolFile) (e : ObjSymbol) : Prop :=
  e.isUndefined = true ∨ ∃ id ∈ addSections (parse file.toObjectFile),
    e.sectionIndex.bind (sectionIndexToId file.toObjectFile) = some id

/-! ## §5. When symbols are kept. -/

/-- An index leads to the section that has it. -/
theorem sectionName_of_mem {file : ObjectFile} {s : ObjSection} (hs : s ∈ file.sections) :
    ∃ id, sectionIndexToId file s.index = some id ∧ sectionName file id = some s.name := by
  obtain ⟨k, hk⟩ := List.getElem?_of_mem hs
  have hnodup : ((file.sections.zipIdx.map fun s =>
      (s.1.index, (⟨s.2⟩ : SectionId))).map Prod.fst).Nodup := by
    rw [List.map_map]
    have hindices : file.sections.zipIdx.map (Prod.fst ∘ fun s => (s.1.index, (⟨s.2⟩ : SectionId)))
        = file.sections.map ObjSection.index := by
      rw [← List.zipIdx_map_fst 0 file.sections, List.map_map]
      simp
    rw [hindices]
    exact (List.pairwise_map.mpr file.sectionOrder).imp Nat.ne_of_lt
  refine ⟨⟨k⟩, ?_, ?_⟩
  · exact (lastWins_iff_of_nodup hnodup).mpr (List.mem_map.mpr
      ⟨(s, k), List.mk_mem_zipIdx_iff_getElem?.mpr hk, rfl⟩)
  · unfold sectionName liftSections
    rw [List.getElem?_map, List.getElem?_zipIdx, hk]
    rfl

theorem mem_listedEntries {file : ObjectFile} {e : ObjSymbol} (h : e ∈ listedEntries file) :
    e ∈ file.symbols ++ file.dynamicSymbols := by
  obtain h | h := List.mem_append.mp h
  · exact List.mem_append_left _ h
  · exact List.mem_append_right _ (mem_ownDynamic.mp h).1

/-- The binding comes back through scope and weakness. -/
theorem bindingOf_carried {d : SymbolDetail} {b : SymbolBinding}
    (hweak : d.isWeak = decide (b = .weak))
    (hglobal : d.isGlobal = decide (symbolScope b = .linkage))
    (hlocal : d.isLocal = decide (symbolScope b = .compilation)) : bindingOf d = b := by
  unfold bindingOf
  rw [hweak, hglobal, hlocal]
  cases b <;> rfl

section

variable {file : SymbolFile} {e e' : ObjSymbol} {id id' : SymbolId}

/-- What is not undefined and has a written section is given that section. -/
theorem writeSection_eq_undefined_iff :
    writeSection (addSections (parse file.toObjectFile)) (liftFullSymbol file e id) = .undefined ↔
      ¬ (e.isUndefined = false ∧ ∃ sid ∈ addSections (parse file.toObjectFile),
        e.sectionIndex.bind (sectionIndexToId file.toObjectFile) = some sid) := by
  have hsection : (liftFullSymbol file e id).sectionId
      = e.sectionIndex.bind (sectionIndexToId file.toObjectFile) := rfl
  have hundefined : (liftFullSymbol file e id).isUndefined = e.isUndefined := rfl
  unfold writeSection
  rw [hsection, hundefined]
  cases e.sectionIndex.bind (sectionIndexToId file.toObjectFile) with
  | none => simp
  | some sid =>
    cases e.isUndefined with
    | true => simp
    | false =>
      by_cases hmem : sid ∈ addSections (parse file.toObjectFile)
      · simp [hmem]
      · simp [hmem]

theorem writeSection_eq_sectionOf {sid : SectionId} (hdefined : e.isUndefined = false)
    (hsection : e.sectionIndex.bind (sectionIndexToId file.toObjectFile) = some sid)
    (hmem : sid ∈ addSections (parse file.toObjectFile)) :
    writeSection (addSections (parse file.toObjectFile)) (liftFullSymbol file e id)
      = .sectionOf sid := by
  have hid : (liftFullSymbol file e id).sectionId = some sid := hsection
  have hundefined : (liftFullSymbol file e id).isUndefined = false := hdefined
  unfold writeSection
  rw [hid, hundefined]
  exact if_pos (by simpa using hmem)

/-- A symbol with a written place is kept by a library that carries it. -/
theorem SymbolKept.of_carried {out : SymbolFile}
    (hcarried : Carried file out
      (writeSymbol (addSections (parse file.toObjectFile)) (liftFullSymbol file e id)) e')
    (hlisted : e' ∈ out.symbols) (hplace : HasWrittenPlace file e) :
    SymbolKept file out (liftFullSymbol file e id) (liftFullSymbol out e' id') where
  name := by
    show e'.name.getD "" = _
    rw [hcarried.name]
    rfl
  binding := bindingOf_carried hcarried.weak hcarried.linkage hcarried.compilation
  undefined := by
    show e'.isUndefined = true ↔ e.isUndefined = true
    rw [hcarried.undefined, decide_eq_true_eq]
    refine writeSection_eq_undefined_iff.trans ?_
    constructor
    · intro hnot
      obtain hundefined | hsection := hplace
      · exact hundefined
      · by_contra hdefined
        exact hnot ⟨Bool.eq_false_iff.mpr hdefined, hsection⟩
    · intro hundefined hdefined
      rw [hundefined] at hdefined
      exact absurd hdefined.1 (by decide)
  defined := by
    intro hdefined
    obtain hundefined | ⟨sid, hmem, hsection⟩ := hplace
    · exact absurd (hdefined.symm.trans hundefined) (by decide)
    · refine ⟨hcarried.value, hcarried.size, ?_⟩
      have hgiven : writeSection (addSections (parse file.toObjectFile))
          (liftFullSymbol file e id) = .sectionOf sid :=
        writeSection_eq_sectionOf hdefined hsection hmem
      obtain ⟨s, hs, hplaced, hname⟩ := hcarried.placed sid hgiven
      obtain ⟨nid, hnid, hnew⟩ := sectionName_of_mem hs
      have hindex : e'.sectionIndex = some s.index := by
        rw [out.placeIndex e' (List.mem_append_left _ hlisted), hplaced]
        rfl
      have hsid : (liftFullSymbol file e id).sectionId = some sid := hsection
      have hsid' : (liftFullSymbol out e' id').sectionId = some nid := by
        show e'.sectionIndex.bind _ = _
        rw [hindex]
        exact hnid
      unfold FullSymbol.sectionName
      rw [hsid, hsid', Option.bind_some, Option.bind_some, hnew, hname]

/-- The place of a symbol with a section is neither absolute nor common. -/
theorem placeKept_of_hasWrittenPlace {place' : SymbolPlace}
    (hlisted : e ∈ listedEntries file.toObjectFile) (hdefined : e.isUndefined = false)
    (hplace : HasWrittenPlace file e) : PlaceKept (file.detail e).place place' := by
  obtain hundefined | ⟨sid, -, hsection⟩ := hplace
  · exact absurd (hdefined.symm.trans hundefined) (by decide)
  · have hindex := file.placeIndex e (mem_listedEntries hlisted)
    constructor
    · intro habsolute
      rw [hindex, habsolute] at hsection
      cases hsection
    · intro hcommon
      rw [hindex, hcommon] at hsection
      cases hsection

end

/-- **Symbols, read and written again.**  Each is as defined as it was if and only if
every defined symbol has a section, and one that the writer writes. -/
theorem symbolsKept_iff (file : SymbolFile) (r : Rewritten file) :
    SymbolsKept file r ↔ ∀ e ∈ listedEntries file.toObjectFile, HasWrittenPlace file e := by
  have hentry : ∀ i e, (listedEntries file.toObjectFile)[i]? = some e →
      ∃ e', r.entries[i]? = some e' ∧ Carried file r.out
        (writeSymbol (addSections (parse file.toObjectFile)) (liftFullSymbol file e ⟨i⟩)) e' := by
    intro i e hi
    have hw : (addSymbols file)[i]?
        = some (writeSymbol (addSections (parse file.toObjectFile)) (liftFullSymbol file e ⟨i⟩)) := by
      unfold addSymbols fullSymbols
      rw [List.getElem?_map, List.getElem?_map, List.getElem?_zipIdx, hi]
      simp
    exact exists_getElem?_of_forall₂ r.carried hw
  constructor
  · intro hkept e he
    obtain ⟨i, hi⟩ := List.getElem?_of_mem he
    obtain ⟨e', hi', hcarried⟩ := hentry i e hi
    obtain ⟨e'', id', hi'', -, hsymbol, -⟩ := hkept i e hi
    obtain rfl : e'' = e' := Option.some.inj (hi''.symm.trans hi')
    by_contra hplace
    -- Without a place it is given as undefined, and was not.
    have hdefined : e.isUndefined = false :=
      Bool.eq_false_iff.mpr (fun hundefined => hplace (.inl hundefined))
    have hgiven : e''.isUndefined = true := by
      rw [hcarried.undefined, decide_eq_true_eq]
      exact writeSection_eq_undefined_iff.mpr (fun h => hplace (.inr h.2))
    have hwas : e.isUndefined = true := hsymbol.undefined.mp hgiven
    exact absurd (hdefined.symm.trans hwas) (by decide)
  · intro hplaces i e hi
    obtain ⟨e', hi', hcarried⟩ := hentry i e hi
    have hlisted := r.listed e' (List.mem_of_getElem? hi')
    have he := List.mem_of_getElem? hi
    obtain ⟨k, hk⟩ := List.getElem?_of_mem
      (List.mem_append_left (ownDynamic r.out.toObjectFile) hlisted)
    refine ⟨e', ⟨k⟩, hi', ?_, .of_carried hcarried hlisted (hplaces e he),
      fun hdefined => placeKept_of_hasWrittenPlace he hdefined (hplaces e he)⟩
    exact List.mem_map.mpr ⟨(e', k), List.mk_mem_zipIdx_iff_getElem?.mpr hk, rfl⟩

/-! ## §6. An absolute symbol. -/

def absoluteSymbol : ObjSymbol := ⟨1, some "table", 0x1000, .object, none, false⟩

def absoluteDetail : SymbolDetail := ⟨8, false, true, false, .absolute, some ⟨0x11, 0⟩⟩

/-- An AArch64 object with one symbol, which is absolute. -/
def absoluteFile : SymbolFile :=
  { dataObject 257 with
    symbols := [absoluteSymbol]
    symbolOrder := List.pairwise_singleton _ _
    detail := Function.const _ absoluteDetail
    placeIndex := List.forall_mem_singleton.mpr rfl }

def undefinedSymbol : ObjSymbol := ⟨1, some "table", 0x1000, .object, none, true⟩

def undefinedDetail : SymbolDetail := { absoluteDetail with place := .undefined }

/-- The object that is written for it. -/
def undefinedFile : SymbolFile :=
  { dataObject 257 with
    symbols := [undefinedSymbol]
    symbolOrder := List.pairwise_singleton _ _
    detail := Function.const _ undefinedDetail
    placeIndex := List.forall_mem_singleton.mpr rfl }

theorem undefinedSymbol_carried :
    List.Forall₂ (Carried absoluteFile undefinedFile) (addSymbols absoluteFile) [undefinedSymbol] := by
  refine .cons ⟨rfl, rfl, rfl, rfl, rfl, rfl, rfl, ?_⟩ .nil
  intro id hplaced
  cases hplaced

def absoluteRewritten : Rewritten absoluteFile where
  out := undefinedFile
  entries := [undefinedSymbol]
  listed := fun _ h => h
  carried := undefinedSymbol_carried

/-- An absolute symbol is an import after the round trip. -/
theorem absoluteSymbol_lost : ¬ SymbolsKept absoluteFile absoluteRewritten := by
  intro hkept
  obtain ⟨e', id', hentry, -, hsymbol, -⟩ := hkept 0 absoluteSymbol rfl
  obtain rfl : undefinedSymbol = e' := Option.some.inj hentry
  exact absurd (hsymbol.undefined.mp rfl) (by decide)

end Armv8Encode.Objects

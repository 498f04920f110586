/-
  Armv8Encode.Container.Types — neutral types for the binary-container layer.

  These are the format-agnostic shapes the rest of the crate sees.  A
  container owns its sections, symbols and relocations and refers to them by
  index: the reader numbers each list from zero, and every accessor indexes
  with the id.  `Container` carries that numbering as a field, so that an id
  found in a container is always the index it is used as.

  A Rust panic on an index out of bounds is a missing value here (`none`).
-/
import Armv8Encode.Lib.Words

namespace Armv8Encode

/-! ## §1. Identifiers. -/

structure SectionId where
  index : Nat
  deriving Repr, DecidableEq

structure SymbolId where
  index : Nat
  deriving Repr, DecidableEq

structure RelocationId where
  index : Nat
  deriving Repr, DecidableEq

/-! ## §2. Format, architecture, kinds. -/

/-- Container format detected at parse time. -/
inductive BinaryFormat where
  | macho
  | elf
  | pe
  deriving Repr, DecidableEq

/-- Architecture exposed by the container's header. -/
inductive Architecture where
  | aarch64
  | arm
  | x86_64
  | x86
  | other
  deriving Repr, DecidableEq

/-- What kind of binary a container holds. -/
inductive ContainerKind where
  | relocatable
  | sharedObject
  | executable
  | other
  deriving Repr, DecidableEq

/-- Coarse section role. -/
inductive SectionKind where
  | text
  | data
  | rodata
  | bss
  | debug
  | other
  deriving Repr, DecidableEq

inductive SymbolKind where
  | function
  | object
  | sectionSymbol
  | file
  | unknown
  deriving Repr, DecidableEq

/-- What kind of fix-up a relocation applies.  The lo-12 family is split by
companion instruction because the linker scales the patched value by the
access width. -/
inductive RelocationKind where
  | branch26
  | branch19
  | branch14
  | adrpPage21
  | addPageOffset12
  | loadStorePageOffset12 (accessWidthBytes : Nat)
  | absolute
  | armCall
  | armJump24
  | armPc24
  | armRelative
  | armGlobData
  | armJumpSlot
  | armAbs32
  | armMovwAbsNc
  | armMovtAbs
  | thumbCall
  | thumbJump24
  | thumbJump19
  | thumbMovwAbsNc
  | thumbMovtAbs
  | x86Pc32
  | x86Plt32
  | x86GotPcRel
  | x86Abs32
  | x86Abs64
  | other (code : Word)
  deriving Repr, DecidableEq

/-! ## §3. Sections, symbols, relocations. -/

structure Section where
  id : SectionId
  address : U64
  size : U64
  /-- On-disk bytes; empty for `bss`. -/
  bytes : List Byte
  kind : SectionKind
  deriving Repr, DecidableEq

structure Symbol where
  id : SymbolId
  name : String
  address : U64
  kind : SymbolKind
  /-- Section the symbol is defined in, if any. -/
  sectionId : Option SectionId
  isUndefined : Bool
  deriving Repr, DecidableEq

structure Relocation where
  id : RelocationId
  sectionId : SectionId
  /-- Byte offset within the section where the fix-up applies. -/
  offset : U64
  kind : RelocationKind
  /-- Width of the relocated field in bits. -/
  size : Nat
  addend : Int
  symbol : Option SymbolId
  deriving Repr, DecidableEq

/-! ## §4. Image data of linked inputs. -/

/-- The fields of an ELF program header that the writer's placement reads. -/
structure ProgramHeader where
  pType : Word
  pVaddr : U64
  pMemsz : U64
  deriving Repr, DecidableEq

/-- Data kept for ET_DYN / ET_EXEC inputs.  `sectionSizes` is the `sh_size`
of each section in the source file, in section order. -/
structure ElfImage where
  programHeaders : List ProgramHeader
  pltStubs : List (SymbolId × U64)
  sectionSizes : List U64
  deriving Repr, DecidableEq

/-- Data kept for linked Mach-O inputs: import symbols and the address of
the `__stubs` trampoline each one is bound to. -/
structure MachOImage where
  stubs : List (SymbolId × U64)
  deriving Repr, DecidableEq

/-! ## §5. The container. -/

/-- Parsed binary container.  The three proofs say how the reader numbers
what it reads: the id of a section or symbol is its position, and a
relocation belongs to a section of the container. -/
structure Container where
  format : BinaryFormat
  architecture : Architecture
  kind : ContainerKind
  sections : List Section
  symbols : List Symbol
  relocations : List Relocation
  elfImage : Option ElfImage
  machoImage : Option MachOImage
  sectionIds : sections.map Section.id = (List.range sections.length).map SectionId.mk
  symbolIds : symbols.map Symbol.id = (List.range symbols.length).map SymbolId.mk
  relocationSections : ∀ r ∈ relocations, r.sectionId.index < sections.length

namespace Container

variable (c : Container)

/-- The section with an id; `none` where the source would panic. -/
def sectionOf (id : SectionId) : Option Section := c.sections[id.index]?

/-- The symbol with an id; `none` where the source would panic. -/
def symbol (id : SymbolId) : Option Symbol := c.symbols[id.index]?

/-- Any defined symbol whose address matches, regardless of kind. -/
def symbolAtAddress (address : U64) : Option Symbol :=
  c.symbols.find? (fun s => !s.isUndefined && s.address == address)

/-- Final address of a defined symbol, if any. -/
def addressOfSymbol (id : SymbolId) : Option U64 :=
  match c.symbols[id.index]? with
  | none => none
  | some s => if s.isUndefined then none else some s.address

/-- The PLT stub recorded for an import of an ELF image. -/
def pltStub (id : SymbolId) : Option U64 :=
  c.elfImage.bind (fun image => image.pltStubs.lookup id)

/-- The `__stubs` trampoline recorded for an import of a Mach-O image. -/
def machoStub (id : SymbolId) : Option U64 :=
  c.machoImage.bind (fun image => image.stubs.lookup id)

/-- A symbol's defined address, else its PLT stub, else its `__stubs` entry. -/
def callableAddressOfSymbol (id : SymbolId) : Option U64 :=
  match c.addressOfSymbol id with
  | some address => some address
  | none =>
    match c.pltStub id with
    | some address => some address
    | none => c.machoStub id

/-- The section whose address range contains `address`; the first one wins. -/
def sectionForAddress (address : U64) : Option SectionId :=
  (c.sections.find? (fun s =>
    decide (0 < s.size) && decide (s.address ≤ address)
      && decide (address < s.address + s.size))).map Section.id

/-- Relocations that apply to one section. -/
def relocationsFor (id : SectionId) : List Relocation :=
  c.relocations.filter (fun r => r.sectionId == id)

/-! ## §6. What the numbering gives. -/

variable {c}

theorem id_of_getElem? {i : Nat} {s : Section} (h : c.sections[i]? = some s) :
    s.id = ⟨i⟩ := by
  have hi : i < c.sections.length := by
    rw [List.getElem?_eq_some_iff] at h
    exact h.1
  have hmap : (c.sections.map Section.id)[i]? = some s.id := by
    rw [List.getElem?_map, h]
    rfl
  rw [c.sectionIds, List.getElem?_map, List.getElem?_range hi] at hmap
  exact (Option.some.inj hmap).symm

theorem symbolId_of_getElem? {i : Nat} {s : Symbol} (h : c.symbols[i]? = some s) :
    s.id = ⟨i⟩ := by
  have hi : i < c.symbols.length := by
    rw [List.getElem?_eq_some_iff] at h
    exact h.1
  have hmap : (c.symbols.map Symbol.id)[i]? = some s.id := by
    rw [List.getElem?_map, h]
    rfl
  rw [c.symbolIds, List.getElem?_map, List.getElem?_range hi] at hmap
  exact (Option.some.inj hmap).symm

/-- A section of the container is the one its id looks up. -/
theorem sectionOf_id {s : Section} (h : s ∈ c.sections) : c.sectionOf s.id = some s := by
  obtain ⟨i, hi⟩ := List.getElem?_of_mem h
  rw [id_of_getElem? hi]
  exact hi

/-- A symbol of the container is the one its id looks up. -/
theorem symbol_id {s : Symbol} (h : s ∈ c.symbols) : c.symbol s.id = some s := by
  obtain ⟨i, hi⟩ := List.getElem?_of_mem h
  rw [symbolId_of_getElem? hi]
  exact hi

/-- Ids tell the sections of a container apart. -/
theorem section_eq_of_id {s t : Section} (hs : s ∈ c.sections) (ht : t ∈ c.sections)
    (hid : s.id = t.id) : s = t := by
  have h := sectionOf_id hs
  rw [hid, sectionOf_id ht] at h
  exact (Option.some.inj h).symm

/-- What `symbolAtAddress` finds is a defined symbol at that address. -/
theorem symbolAtAddress_some {address : U64} {s : Symbol}
    (h : c.symbolAtAddress address = some s) :
    s ∈ c.symbols ∧ s.isUndefined = false ∧ s.address = address := by
  unfold symbolAtAddress at h
  have hp := List.find?_some h
  simp only [Bool.and_eq_true, Bool.not_eq_true', beq_iff_eq] at hp
  exact ⟨List.mem_of_find?_eq_some h, hp.1, hp.2⟩

/-- The symbol found at an address is called at that address. -/
theorem callableAddress_of_symbolAtAddress {address : U64} {s : Symbol}
    (h : c.symbolAtAddress address = some s) :
    c.callableAddressOfSymbol s.id = some address := by
  obtain ⟨hmem, hdef, haddr⟩ := symbolAtAddress_some h
  have hsym : c.symbols[s.id.index]? = some s := symbol_id hmem
  simp [callableAddressOfSymbol, addressOfSymbol, hsym, hdef, haddr]

/-- What `sectionForAddress` finds is a section that covers the address. -/
theorem sectionForAddress_some {address : U64} {id : SectionId}
    (h : c.sectionForAddress address = some id) :
    ∃ s ∈ c.sections, s.id = id ∧ 0 < s.size ∧ s.address ≤ address
      ∧ address < s.address + s.size := by
  unfold sectionForAddress at h
  obtain ⟨s, hs, hid⟩ := Option.map_eq_some_iff.mp h
  have hp := List.find?_some hs
  simp only [Bool.and_eq_true, decide_eq_true_eq] at hp
  exact ⟨s, List.mem_of_find?_eq_some hs, hid, hp.1.1, hp.1.2, hp.2⟩

end Container

end Armv8Encode

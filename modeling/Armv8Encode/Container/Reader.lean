/-
  Armv8Encode.Container.Reader — symbols and relocations of an object file.

  The object library reports the tables of a file; the reader turns them into
  the neutral lists of a container.  Static and dynamic symbols go into one
  list, and one map from table index to symbol id serves both tables.

  Where the source's constants come from the library, their numbers are those
  of the format's ABI.
-/
import Armv8Encode.Container.Types
import Armv8Encode.Lib.Maps

namespace Armv8Encode.Objects

open Lib

/-! ## §1. What the object library reports. -/

/-- The raw type of a relocation, with the bits a format keeps beside it. -/
inductive RelocationFlags where
  | elf (rType : Word)
  | macho (rType : BitVec 8) (rPcrel : Bool) (rLength : BitVec 8)
  | coff (typ : BitVec 16)
  deriving Repr, DecidableEq

def RelocationFlags.format : RelocationFlags → BinaryFormat
  | .elf _ => .elf
  | .macho _ _ _ => .macho
  | .coff _ => .pe

/-- What a relocation refers to, by the index in the file's own table. -/
inductive RelocationTarget where
  | symbol (index : Nat)
  | sectionOf (index : Nat)
  | absolute
  deriving Repr, DecidableEq

structure ObjRelocation where
  /-- An offset in the section, or an address for a dynamic relocation. -/
  offset : U64
  flags : RelocationFlags
  size : Nat
  addend : Int
  target : RelocationTarget
  deriving Repr, DecidableEq

structure ObjSection where
  index : Nat
  name : String
  address : U64
  size : U64
  kind : SectionKind
  /-- The section type, of an ELF file. -/
  shType : Option Word
  relocations : List ObjRelocation
  deriving Repr, DecidableEq

structure ObjSymbol where
  index : Nat
  name : Option String
  address : U64
  kind : SymbolKind
  sectionIndex : Option Nat
  isUndefined : Bool
  deriving Repr, DecidableEq

/-- A parsed file.  Each table is listed in the order of its own indices, and
every relocation has the flags of the file's format. -/
structure ObjectFile where
  format : BinaryFormat
  architecture : Architecture
  kind : ContainerKind
  sections : List ObjSection
  symbols : List ObjSymbol
  dynamicSymbols : List ObjSymbol
  dynamicRelocations : List ObjRelocation
  sectionOrder : sections.Pairwise fun s t => s.index < t.index
  symbolOrder : symbols.Pairwise fun s t => s.index < t.index
  dynamicOrder : dynamicSymbols.Pairwise fun s t => s.index < t.index
  flagsFormat : ∀ s ∈ sections, ∀ r ∈ s.relocations, r.flags.format = format
  dynamicFlagsFormat : ∀ r ∈ dynamicRelocations, r.flags.format = format

/-! ## §2. Relocation types. -/

@[match_pattern] abbrev rAarch64Abs64 : Nat := 257
@[match_pattern] abbrev rAarch64Abs32 : Nat := 258
@[match_pattern] abbrev rAarch64AdrPrelPgHi21 : Nat := 275
@[match_pattern] abbrev rAarch64AddAbsLo12Nc : Nat := 277
@[match_pattern] abbrev rAarch64Ldst8AbsLo12Nc : Nat := 278
@[match_pattern] abbrev rAarch64Tstbr14 : Nat := 279
@[match_pattern] abbrev rAarch64Condbr19 : Nat := 280
@[match_pattern] abbrev rAarch64Jump26 : Nat := 282
@[match_pattern] abbrev rAarch64Call26 : Nat := 283
@[match_pattern] abbrev rAarch64Ldst16AbsLo12Nc : Nat := 284
@[match_pattern] abbrev rAarch64Ldst32AbsLo12Nc : Nat := 285
@[match_pattern] abbrev rAarch64Ldst64AbsLo12Nc : Nat := 286
@[match_pattern] abbrev rAarch64Ldst128AbsLo12Nc : Nat := 299

@[match_pattern] abbrev rArmPc24 : Nat := 1
@[match_pattern] abbrev rArmAbs32 : Nat := 2
@[match_pattern] abbrev rArmThmPc22 : Nat := 10
@[match_pattern] abbrev rArmGlobDat : Nat := 21
@[match_pattern] abbrev rArmJumpSlot : Nat := 22
@[match_pattern] abbrev rArmRelative : Nat := 23
@[match_pattern] abbrev rArmCall : Nat := 28
@[match_pattern] abbrev rArmJump24 : Nat := 29
@[match_pattern] abbrev rArmThmJump24 : Nat := 30
@[match_pattern] abbrev rArmMovwAbsNc : Nat := 43
@[match_pattern] abbrev rArmMovtAbs : Nat := 44
@[match_pattern] abbrev rArmThmMovwAbsNc : Nat := 47
@[match_pattern] abbrev rArmThmMovtAbs : Nat := 48
@[match_pattern] abbrev rArmThmJump19 : Nat := 51

@[match_pattern] abbrev rX86_64_64 : Nat := 1
@[match_pattern] abbrev rX86_64_Pc32 : Nat := 2
@[match_pattern] abbrev rX86_64_Plt32 : Nat := 4
@[match_pattern] abbrev rX86_64_Gotpcrel : Nat := 9
@[match_pattern] abbrev rX86_64_32 : Nat := 10
@[match_pattern] abbrev rX86_64_32S : Nat := 11
@[match_pattern] abbrev rX86_64_Gotpcrelx : Nat := 41
@[match_pattern] abbrev rX86_64_RexGotpcrelx : Nat := 42

@[match_pattern] abbrev r386_32 : Nat := 1
@[match_pattern] abbrev r386_Pc32 : Nat := 2
@[match_pattern] abbrev r386_Plt32 : Nat := 4
@[match_pattern] abbrev r386_Gotpc : Nat := 10

@[match_pattern] abbrev imageRelI386Dir32 : Nat := 6
@[match_pattern] abbrev imageRelI386Rel32 : Nat := 20
@[match_pattern] abbrev imageRelAmd64Addr64 : Nat := 1
@[match_pattern] abbrev imageRelAmd64Addr32 : Nat := 2
@[match_pattern] abbrev imageRelAmd64Addr32Nb : Nat := 3
@[match_pattern] abbrev imageRelAmd64Rel32 : Nat := 4

@[match_pattern] abbrev arm64RelocUnsigned : Nat := 0
@[match_pattern] abbrev arm64RelocBranch26 : Nat := 2
@[match_pattern] abbrev arm64RelocPage21 : Nat := 3
@[match_pattern] abbrev arm64RelocPageoff12 : Nat := 4
@[match_pattern] abbrev arm64RelocGotLoadPage21 : Nat := 5
@[match_pattern] abbrev arm64RelocGotLoadPageoff12 : Nat := 6

@[match_pattern] abbrev x86_64RelocUnsigned : Nat := 0
@[match_pattern] abbrev x86_64RelocSigned : Nat := 1
@[match_pattern] abbrev x86_64RelocBranch : Nat := 2
@[match_pattern] abbrev x86_64RelocGotLoad : Nat := 3
@[match_pattern] abbrev x86_64RelocGot : Nat := 4
@[match_pattern] abbrev x86_64RelocSigned1 : Nat := 6
@[match_pattern] abbrev x86_64RelocSigned2 : Nat := 7
@[match_pattern] abbrev x86_64RelocSigned4 : Nat := 8

def mapElfX86_64Relocation (rType : Word) : RelocationKind :=
  match rType.toNat with
  | rX86_64_Pc32 => .x86Pc32
  | rX86_64_Plt32 => .x86Plt32
  | rX86_64_Gotpcrel | rX86_64_Gotpcrelx | rX86_64_RexGotpcrelx => .x86GotPcRel
  | rX86_64_32 | rX86_64_32S => .x86Abs32
  | rX86_64_64 => .x86Abs64
  | _ => .other rType

def mapElfI386Relocation (rType : Word) : RelocationKind :=
  match rType.toNat with
  | r386_Pc32 => .x86Pc32
  | r386_Plt32 => .x86Plt32
  | r386_Gotpc => .x86GotPcRel
  | r386_32 => .x86Abs32
  | _ => .other rType

/-- The types of AArch64 and ARM do not meet, so one table serves both. -/
def mapElfArmRelocation (rType : Word) : RelocationKind :=
  match rType.toNat with
  | rAarch64Call26 | rAarch64Jump26 => .branch26
  | rAarch64Condbr19 => .branch19
  | rAarch64Tstbr14 => .branch14
  | rAarch64AdrPrelPgHi21 => .adrpPage21
  | rAarch64AddAbsLo12Nc => .addPageOffset12
  | rAarch64Ldst8AbsLo12Nc => .loadStorePageOffset12 1
  | rAarch64Ldst16AbsLo12Nc => .loadStorePageOffset12 2
  | rAarch64Ldst32AbsLo12Nc => .loadStorePageOffset12 4
  | rAarch64Ldst64AbsLo12Nc => .loadStorePageOffset12 8
  | rAarch64Ldst128AbsLo12Nc => .loadStorePageOffset12 16
  | rAarch64Abs64 | rAarch64Abs32 => .absolute
  | rArmCall => .armCall
  | rArmJump24 => .armJump24
  | rArmPc24 => .armPc24
  | rArmRelative => .armRelative
  | rArmGlobDat => .armGlobData
  | rArmJumpSlot => .armJumpSlot
  | rArmAbs32 => .armAbs32
  | rArmMovwAbsNc => .armMovwAbsNc
  | rArmMovtAbs => .armMovtAbs
  | rArmThmPc22 => .thumbCall
  | rArmThmJump24 => .thumbJump24
  | rArmThmJump19 => .thumbJump19
  | rArmThmMovwAbsNc => .thumbMovwAbsNc
  | rArmThmMovtAbs => .thumbMovtAbs
  | _ => .other rType

def mapElfRelocation (rType : Word) : Architecture → RelocationKind
  | .x86_64 => mapElfX86_64Relocation rType
  | .x86 => mapElfI386Relocation rType
  | _ => mapElfArmRelocation rType

def mapCoffRelocation (typ : BitVec 16) : Architecture → RelocationKind
  | .x86 =>
    match typ.toNat with
    | imageRelI386Rel32 => .x86Pc32
    | imageRelI386Dir32 => .x86Abs32
    | _ => .other (typ.setWidth 32)
  | _ =>
    match typ.toNat with
    | imageRelAmd64Rel32 => .x86Pc32
    | imageRelAmd64Addr32 | imageRelAmd64Addr32Nb => .x86Abs32
    | imageRelAmd64Addr64 => .x86Abs64
    | _ => .other (typ.setWidth 32)

def mapMachoRelocation (rType : BitVec 8) : Architecture → RelocationKind
  | .x86_64 =>
    match rType.toNat with
    | x86_64RelocUnsigned => .x86Abs64
    | x86_64RelocBranch => .x86Pc32
    | x86_64RelocSigned | x86_64RelocSigned1 | x86_64RelocSigned2 | x86_64RelocSigned4 => .x86Pc32
    | x86_64RelocGot | x86_64RelocGotLoad => .x86GotPcRel
    | _ => .other (rType.setWidth 32)
  | _ =>
    match rType.toNat with
    | arm64RelocUnsigned => .absolute
    | arm64RelocBranch26 => .branch26
    | arm64RelocPage21 | arm64RelocGotLoadPage21 => .adrpPage21
    | arm64RelocPageoff12 | arm64RelocGotLoadPageoff12 => .addPageOffset12
    | _ => .other (rType.setWidth 32)

def mapRelocationKind (flags : RelocationFlags) (architecture : Architecture) : RelocationKind :=
  match flags with
  | .elf rType => mapElfRelocation rType architecture
  | .macho rType _ _ => mapMachoRelocation rType architecture
  | .coff typ => mapCoffRelocation typ architecture

/-! ## §3. Sections and symbols. -/

/-- A section of the container, as far as writing it again goes. -/
structure ReadSection where
  id : SectionId
  name : String
  kind : SectionKind
  /-- Kept for the sections that have no kind of their own. -/
  rawShType : Option Word
  deriving Repr, DecidableEq

def liftSection (s : ObjSection) (id : SectionId) : ReadSection where
  id := id
  name := s.name
  kind := s.kind
  rawShType := if s.kind = .other then s.shType else none

def liftSections (file : ObjectFile) : List ReadSection :=
  file.sections.zipIdx.map fun s => liftSection s.1 ⟨s.2⟩

/-- Section ids by the file's section index. -/
def sectionIndexToId (file : ObjectFile) : Map Nat SectionId :=
  lastWins (file.sections.zipIdx.map fun s => (s.1.index, ⟨s.2⟩))

/-- The symbol under an id. -/
def liftSymbol (file : ObjectFile) (entry : ObjSymbol) (id : SymbolId) : Symbol where
  id := id
  name := entry.name.getD ""
  address := entry.address
  kind := entry.kind
  sectionId := entry.sectionIndex.bind (sectionIndexToId file)
  isUndefined := entry.isUndefined

/-- The symbols so far, and their ids by table index, the newest first. -/
structure LiftedSymbols where
  symbols : List Symbol
  indexToId : List (Nat × SymbolId)
  deriving Repr, DecidableEq

def pushSymbol (file : ObjectFile) (lifted : LiftedSymbols) (entry : ObjSymbol) : LiftedSymbols :=
  let id : SymbolId := ⟨lifted.symbols.length⟩
  ⟨lifted.symbols ++ [liftSymbol file entry id], (entry.index, id) :: lifted.indexToId⟩

/-- A dynamic symbol is passed over if its index has an id already. -/
def pushDynamicSymbol (file : ObjectFile) (lifted : LiftedSymbols) (entry : ObjSymbol) :
    LiftedSymbols :=
  if (lifted.indexToId.lookup entry.index).isSome then lifted else pushSymbol file lifted entry

def liftSymbols (file : ObjectFile) : LiftedSymbols :=
  file.dynamicSymbols.foldl (pushDynamicSymbol file)
    (file.symbols.foldl (pushSymbol file) ⟨[], []⟩)

/-! ## §4. Relocations. -/

def liftTarget (lifted : LiftedSymbols) : RelocationTarget → Option SymbolId
  | .symbol index => lifted.indexToId.lookup index
  | _ => none

def liftRelocation (file : ObjectFile) (lifted : LiftedSymbols) (r : ObjRelocation)
    (sectionId : SectionId) (offset : U64) (id : RelocationId) : Relocation where
  id := id
  sectionId := sectionId
  offset := offset
  kind := mapRelocationKind r.flags file.architecture
  size := r.size
  addend := r.addend
  symbol := liftTarget lifted r.target

/-- The relocations of the sections, each with its section and offset. -/
def staticRelocations (file : ObjectFile) : List (ObjRelocation × SectionId × U64) :=
  file.sections.flatMap fun s =>
    match sectionIndexToId file s.index with
    | none => []
    | some id => s.relocations.map fun r => (r, id, r.offset)

/-- The first section whose range holds the address. -/
def owningSection (file : ObjectFile) (vaddr : U64) : Option (SectionId × U64) := do
  let s ← file.sections.find? fun s =>
    decide (s.address ≤ vaddr) && decide (vaddr.toNat < s.address.toNat + s.size.toNat)
  let id ← sectionIndexToId file s.index
  some (id, vaddr - s.address)

/-- The dynamic relocations that lie in a section. -/
def dynamicRelocations (file : ObjectFile) : List (ObjRelocation × SectionId × U64) :=
  file.dynamicRelocations.filterMap fun r => (owningSection file r.offset).map fun own => (r, own)

def liftRelocations (file : ObjectFile) : List Relocation :=
  (staticRelocations file ++ dynamicRelocations file).zipIdx.map fun r =>
    liftRelocation file (liftSymbols file) r.1.1 r.1.2.1 r.1.2.2 ⟨r.2⟩

/-- The container, as far as its relocations go. -/
structure ReadContainer where
  format : BinaryFormat
  architecture : Architecture
  kind : ContainerKind
  sections : List ReadSection
  symbols : List Symbol
  relocations : List Relocation
  deriving Repr, DecidableEq

def parse (file : ObjectFile) : ReadContainer where
  format := file.format
  architecture := file.architecture
  kind := file.kind
  sections := liftSections file
  symbols := (liftSymbols file).symbols
  relocations := liftRelocations file

end Armv8Encode.Objects

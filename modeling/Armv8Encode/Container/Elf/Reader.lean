/-
  Armv8Encode.Container.Elf.Reader — lifting an ELF file into a container.

  The headers are parsed by the object reader; `ElfFile` is its view of a
  linked file.  A section's view carries what the reader promises of it:
  a section that takes no file bytes has no data, and the data of any other
  section is as long as its header says.  `sections` leaves out the null
  entry of the table.
-/
import Armv8Encode.Container.Elf.Image

namespace Armv8Encode.Elf

/-! ## §1. The object reader's view. -/

structure RawSection where
  name : String
  shType : Nat
  shFlags : Nat
  shAddr : Nat
  shOffset : Nat
  shSize : Nat
  shLink : Nat
  shInfo : Nat
  shAddralign : Nat
  shEntsize : Nat
  /-- The neutral kind of the section. -/
  kind : SectionKind
  /-- The bytes the header points at. -/
  data : List Byte
  /-- Whether the data is stored compressed.  The reader is built without
  decompression and fails on such a section. -/
  compressed : Bool
  dataLength : data.length = if shType = shtNobits then 0 else shSize
  bssNobits : kind = .bss → shType = shtNobits
  deriving Repr, DecidableEq

structure ElfFile where
  architecture : Architecture
  kind : ContainerKind
  fileFlags : FileFlags
  eEntry : Nat
  is64 : Bool
  /-- Offset of the program-header table. -/
  ePhoff : Nat
  programHeaders : List ProgramHeader
  sections : List RawSection
  deriving Repr, DecidableEq

/-! ## §2. Lifting. -/

/-- One section; a compressed one that cannot be read has no bytes. -/
def liftSection (s : RawSection) : Section where
  name := s.name
  address := s.shAddr
  size := s.shSize
  bytes := if s.compressed then [] else s.data
  kind := s.kind
  align := s.shAddralign
  shFlags := some s.shFlags
  rawShType :=
    match s.kind with
    | .other => some s.shType
    | _ => none

def liftLayout (s : RawSection) : SectionLayout :=
  ⟨s.shOffset, s.shSize, s.shLink, s.shInfo, s.shEntsize⟩

def liftElfImage (f : ElfFile) : Image where
  eEntry := f.eEntry
  programHeaders := f.programHeaders
  sectionLayout := f.sections.map liftLayout

/-- The container of a linked ELF. -/
def parse (f : ElfFile) : Container where
  architecture := f.architecture
  kind := f.kind
  fileFlags := some f.fileFlags
  sections := f.sections.map liftSection
  elfImage := some (liftElfImage f)

end Armv8Encode.Elf

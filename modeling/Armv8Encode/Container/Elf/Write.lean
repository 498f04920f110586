/-
  Armv8Encode.Container.Elf.Write — writing a linked ELF back.

  `write` decides by size: when no section outgrew its source extent, the
  file is written in place, with the program-header table right after the
  file header and the sections at their source offsets, taken in the order
  of the section headers.  Otherwise the first section that grew moves to an
  appended segment and leaves a stub behind; the stub's instructions are the
  parameter `stub`.
-/
import Armv8Encode.Container.Elf.Appended

namespace Armv8Encode.Elf

open Lib

/-! ## §1. In place. -/

/-- Bytes a section occupies: its source extent, so that a shrunk section
keeps its region. -/
def inPlaceExtent (s : Section) (layout : SectionLayout) : Nat :=
  if s.isNobits || s.bytes.isEmpty then 0
  else if 0 < layout.shSize then layout.shSize
  else s.bytes.length

/-- Where a section goes, and the writer past it. -/
def reserveContent (w : Writer) (s : Section) (layout : SectionLayout) : Option (Nat × Writer) :=
  if s.isNobits then some (layout.shOffset, w)
  else if s.bytes.isEmpty then some (layout.shOffset, w)
  else if 0 < layout.shOffset then
    (w.reserveUntil layout.shOffset).map fun w => w.reserve (inPlaceExtent s layout) 1
  else some (w.reserve (inPlaceExtent s layout) (max s.align 1))

def reserveSections : Writer → List (Section × SectionLayout) →
    Option (List PlannedSection × Writer)
  | w, [] => some ([], w)
  | w, (s, layout) :: rest => do
    let (fileOffset, w) ← reserveContent (nameSection w s) s layout
    let (planned, w) ← reserveSections w rest
    some
      ({ name := nameId s
         fileOffset := fileOffset
         shOffset := layout.shOffset
         shLink := layout.shLink
         shInfo := layout.shInfo
         shEntsize := layout.shEntsize
         inPlaceExtent := inPlaceExtent s layout
         isNobits := s.isNobits } :: planned, w)

def writeSections (arch : Architecture) : Writer → List (PlannedSection × Section) →
    Option Writer
  | w, [] => some w
  | w, (plan, s) :: rest =>
    if plan.isNobits || s.bytes.isEmpty then writeSections arch w rest
    else
      match writeSectionBytes arch w s s.bytes plan.shOffset plan.inPlaceExtent with
      | none => none
      | some w => writeSections arch w rest

/-- The sections with their captured layouts. -/
def layouts (c : Container) (image : Image) : List (Section × SectionLayout) :=
  c.sections.zipIdx.map fun s => (s.1, image.layout s.2)

def writeInPlace (strtab : List String → List Byte) (c : Container) (image : Image) :
    Option Writer := do
  let w := (Writer.new c.is64).reserveFileHeader
  let w := (w.reserveProgramHeaders image.programHeaders.length).reserveSectionIndex
  let (planned, w) ← reserveSections w (layouts c image)
  let w := (w.reserveShstrtabSectionIndex.reserveShstrtab strtab).reserveSectionHeaders
  let w := (w.writeFileHeader (buildFileHeader c image)).writeAlignProgramHeaders
  let w := w.writeProgramHeaders image.programHeaders
  let w ← writeSections c.architecture w (planned.zip c.sections)
  let w := (w.writeShstrtab strtab).writeNullSectionHeader
  let w := w.writeSectionHeaders
    ((planned.zip c.sections).map fun p => buildSectionHeader p.2 p.1)
  some (w.writeShstrtabSectionHeader strtab)

/-! ## §2. A section that grew. -/

structure GrowingSection where
  index : Nat
  originalExtent : Nat
  deriving Repr, DecidableEq

/-- The first section with more bytes than the source file had for it. -/
def findGrew (c : Container) (image : Image) : Option GrowingSection :=
  c.sections.zipIdx.findSome? fun s =>
    let original := (image.layout s.2).shSize
    if original < s.1.bytes.length ∧ 0 < original then some ⟨s.2, original⟩ else none

/-- Address for a grown section: past the loads and past the section itself. -/
def grownVaddr (image : Image) (grown : Section) (originalExtent : Nat) : Nat :=
  alignUp (max (pickAppendVaddr image) (grown.address + originalExtent)) appendPageAlign

theorem grownVaddr_aligned (image : Image) (grown : Section) (originalExtent : Nat) :
    appendPageAlign ∣ grownVaddr image grown originalExtent :=
  dvd_alignUp _ (by decide)

/-- The grown bytes in a fresh segment, a stub where they were. -/
def writeWithAppendedSegment (strtab : List String → List Byte)
    (stub : Section → Nat → Nat → Option (List Byte)) (c : Container) (image : Image)
    (grew : GrowingSection) : Option Writer := do
  let grown ← c.sections[grew.index]?
  let vaddr := grownVaddr image grown grew.originalExtent
  let bytes ← stub grown grew.originalExtent vaddr
  writeWithAppendedSegmentInner strtab c image
    (.new vaddr grown.bytes (grownVaddr_aligned image grown grew.originalExtent))
    (fun i => if i = grew.index then some bytes else none) none

def write (strtab : List String → List Byte)
    (stub : Section → Nat → Nat → Option (List Byte)) (c : Container) : Option Writer :=
  match c.elfImage with
  | none => none
  | some image =>
    match findGrew c image with
    | some grew => writeWithAppendedSegment strtab stub c image grew
    | none => writeInPlace strtab c image

end Armv8Encode.Elf

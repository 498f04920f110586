/-
  Armv8Encode.Container.Elf.Appended — an ELF with one more segment.

  The sections keep their source offsets; the new segment's bytes and then
  the program-header table go past the section headers.  The sections are
  placed by file offset, not by index, because a source file may list them
  in any order.

  The segment types carry what their documentation asks of the caller: the
  address is aligned to the append page.
-/
import Armv8Encode.Container.Elf.Placement
import Mathlib.Data.List.Sort

namespace Armv8Encode.Elf

open Lib

/-! ## §1. Segments. -/

/-- Alignment of appended segments, in memory and in the file. -/
def appendPageAlign : Nat := 0x10000

structure AppendedSegment where
  vaddr : Nat
  bytes : List Byte
  sectionName : String
  pFlags : Nat
  /-- Number of leading bytes that are code. -/
  codeLen : Nat
  aligned : appendPageAlign ∣ vaddr
  deriving Repr

def AppendedSegment.new (vaddr : Nat) (bytes : List Byte) (aligned : appendPageAlign ∣ vaddr) :
    AppendedSegment :=
  ⟨vaddr, bytes, ".text.armv8_encode_appended", pfR + pfW + pfX, 0, aligned⟩

structure WritableSegment where
  vaddr : Nat
  bytes : List Byte
  sectionName : String
  aligned : appendPageAlign ∣ vaddr
  deriving Repr, DecidableEq

/-- Where code ends and data begins in the segment; 0 for a single load. -/
def computeCodeDataSplit (a : AppendedSegment) : Nat :=
  if a.codeLen = 0 ∨ a.bytes.length ≤ a.codeLen then 0
  else if a.codeLen % appendPageAlign ≠ 0 then 0
  else a.codeLen

/-- The highest address the loads of the image reach, rounded up. -/
def pickAppendVaddr (image : Image) : Nat :=
  let ends := (image.programHeaders.filter (fun p => p.pType == ptLoad)).map
    (fun p => p.pVaddr + p.pMemsz)
  alignUp (ends.foldl max 0) appendPageAlign

/-! ## §2. Preparing and placing the sections. -/

structure SectionPrep where
  index : Nat
  source : Section
  layout : SectionLayout
  /-- The section's bytes, or what overrides them. -/
  bytes : List Byte
  deriving Repr, DecidableEq

namespace SectionPrep

variable (p : SectionPrep)

def inPlaceExtent : Nat :=
  if p.source.isNobits || p.bytes.isEmpty then 0
  else if 0 < p.layout.shSize then max p.layout.shSize p.bytes.length
  else p.bytes.length

/-- Whether the section takes room in the file. -/
def inFile : Bool := !p.source.isNobits && !p.bytes.isEmpty

def plan (fileOffset : Nat) : PlannedSection where
  name := nameId p.source
  fileOffset := fileOffset
  shOffset := p.layout.shOffset
  shLink := p.layout.shLink
  shInfo := p.layout.shInfo
  shEntsize := p.layout.shEntsize
  inPlaceExtent := p.inPlaceExtent
  isNobits := p.source.isNobits

end SectionPrep

def prepSections (image : Image) (overrides : Nat → Option (List Byte))
    (sections : List Section) : List SectionPrep :=
  sections.zipIdx.map fun s =>
    ⟨s.2, s.1, image.layout s.2, (overrides s.2).getD s.1.bytes⟩

/-- Sections with a source offset, in the order of their offsets. -/
def placementOrder (preps : List SectionPrep) : List SectionPrep :=
  (preps.filter fun p => p.inFile && decide (0 < p.layout.shOffset)).insertionSort
    (fun p q => p.layout.shOffset ≤ q.layout.shOffset)

/-- Sections without one, in source order. -/
def tailOrder (preps : List SectionPrep) : List SectionPrep :=
  preps.filter fun p => p.inFile && p.layout.shOffset == 0

def reservePlaced : Writer → List SectionPrep → Option Writer
  | w, [] => some w
  | w, p :: rest =>
    match w.reserveUntil p.layout.shOffset with
    | none => none
    | some w => reservePlaced (w.reserve p.inPlaceExtent 1).2 rest

/-- The writer past the sections without an offset, and the offset each gets. -/
def reserveTail : Writer → List SectionPrep → Writer × List (Nat × Nat)
  | w, [] => (w, [])
  | w, p :: rest =>
    let r := w.reserve p.inPlaceExtent (max p.source.align 1)
    let done := reserveTail r.2 rest
    (done.1, (p.index, r.1) :: done.2)

/-- Where a section's file offset is taken from. -/
def fileOffsetOf (tail : List (Nat × Nat)) (p : SectionPrep) : Nat :=
  if p.inFile && p.layout.shOffset == 0 then (tail.lookup p.index).getD 0 else p.layout.shOffset

def writePlaced (arch : Architecture) : Writer → List SectionPrep → Option Writer
  | w, [] => some w
  | w, p :: rest =>
    match writeSectionBytes arch w p.source p.bytes p.layout.shOffset p.inPlaceExtent with
    | none => none
    | some w => writePlaced arch w rest

/-! ## §3. Program headers. -/

/-- The input's entries less its `PT_PHDR`, which describes the old table. -/
def phdrsToEmit (image : Image) : List ProgramHeader :=
  image.programHeaders.filter fun p => p.pType != ptPhdr

def appendedPtLoadCount (a : AppendedSegment) : Nat :=
  if computeCodeDataSplit a = 0 then 1 else 2

def writablePtLoadCount (writable : Option WritableSegment) : Nat :=
  if writable.isSome then 1 else 0

def phdrCount (image : Image) (a : AppendedSegment) (writable : Option WritableSegment) : Nat :=
  (phdrsToEmit image).length + 1 + appendedPtLoadCount a + writablePtLoadCount writable

/-- Size of a 64-bit entry and alignment of a 64-bit table, whatever is written. -/
def phdrEntrySize : Nat := 56
def phdrAlign : Nat := 8

/-- Where the writer expects the table. -/
def phtFileOffset (a : AppendedSegment) (appendedFileOffset : Nat) : Nat :=
  (appendedFileOffset + a.bytes.length + phdrAlign - 1) / phdrAlign * phdrAlign

/-- The fresh `PT_PHDR`. -/
def phtHeader (image : Image) (a : AppendedSegment) (writable : Option WritableSegment)
    (appendedFileOffset : Nat) : ProgramHeader :=
  let offset := phtFileOffset a appendedFileOffset
  let size := phdrCount image a writable * phdrEntrySize
  let vaddr := a.vaddr + (offset - appendedFileOffset)
  ⟨ptPhdr, pfR, offset, vaddr, vaddr, size, size, 8⟩

/-- An input entry, re-aimed when its addresses lie in the new segment. -/
def remapPhdr (a : AppendedSegment) (appendedFileOffset : Nat) (p : ProgramHeader) :
    ProgramHeader :=
  if a.vaddr ≤ p.pVaddr ∧ p.pVaddr + p.pFilesz ≤ a.vaddr + a.bytes.length then
    { p with pOffset := appendedFileOffset + (p.pVaddr - a.vaddr) }
  else p

/-- Bytes from the segment's start to the end of the table. -/
def totalCover (image : Image) (a : AppendedSegment) (writable : Option WritableSegment)
    (appendedFileOffset : Nat) : Nat :=
  phtFileOffset a appendedFileOffset + phdrCount image a writable * phdrEntrySize
    - appendedFileOffset

def writableLoad (x : WritableSegment) (writableFileOffset : Nat) : ProgramHeader :=
  ⟨ptLoad, pfR + pfW, writableFileOffset, x.vaddr, x.vaddr, x.bytes.length, x.bytes.length,
    appendPageAlign⟩

/-- One load, or a code load and a data load, over the segment and the table. -/
def appendedLoads (image : Image) (a : AppendedSegment) (writable : Option WritableSegment)
    (appendedFileOffset : Nat) : List ProgramHeader :=
  let split := computeCodeDataSplit a
  let cover := totalCover image a writable appendedFileOffset
  if split = 0 then
    [⟨ptLoad, a.pFlags, appendedFileOffset, a.vaddr, a.vaddr, cover, cover, appendPageAlign⟩]
  else
    [⟨ptLoad, pfR + pfX, appendedFileOffset, a.vaddr, a.vaddr, split, split, appendPageAlign⟩,
      ⟨ptLoad, pfR + pfW, appendedFileOffset + split, a.vaddr + split, a.vaddr + split,
        cover - split, cover - split, appendPageAlign⟩]

/-- The loads of the new segments, in the order they are emitted. -/
def newLoads (image : Image) (a : AppendedSegment) (writable : Option WritableSegment)
    (writableFileOffset appendedFileOffset : Nat) : List ProgramHeader :=
  (writable.toList.map fun x => writableLoad x writableFileOffset)
    ++ appendedLoads image a writable appendedFileOffset

/-- The whole table. -/
def emittedPhdrs (image : Image) (a : AppendedSegment) (writable : Option WritableSegment)
    (writableFileOffset appendedFileOffset : Nat) : List ProgramHeader :=
  phtHeader image a writable appendedFileOffset
    :: ((phdrsToEmit image).map (remapPhdr a appendedFileOffset)
      ++ newLoads image a writable writableFileOffset appendedFileOffset)

/-! ## §4. The two phases. -/

/-- What the reserve phase decides. -/
structure AppendedPlan where
  planned : List PlannedSection
  writableFileOffset : Nat
  appendedFileOffset : Nat

def reserveWritable (w : Writer) : Option WritableSegment → Nat × Writer
  | none => (0, w)
  | some x => w.reserve x.bytes.length appendPageAlign

def nameWritable (w : Writer) : Option WritableSegment → Writer
  | none => w
  | some x => (w.addSectionName x.sectionName).reserveSectionIndex

/-- Everything between the sections and the program-header table. -/
def reserveAppended (strtab : List String → List Byte) (w : Writer) (image : Image)
    (a : AppendedSegment) (writable : Option WritableSegment) : Nat × Nat × Writer :=
  let w := (w.addSectionName a.sectionName).reserveSectionIndex
  let w := (nameWritable w writable).reserveShstrtabSectionIndex
  let w := (w.reserveShstrtab strtab).reserveSectionHeaders
  let x := reserveWritable w writable
  let r := x.2.reserve a.bytes.length appendPageAlign
  (x.1, r.1, r.2.reserveProgramHeaders (phdrCount image a writable))

def reservePhase (strtab : List String → List Byte) (c : Container) (image : Image)
    (a : AppendedSegment) (overrides : Nat → Option (List Byte))
    (writable : Option WritableSegment) : Option (AppendedPlan × Writer) := do
  let preps := prepSections image overrides c.sections
  let w := (Writer.new c.is64).reserveFileHeader.reserveSectionIndex
  let w := c.sections.foldl nameSection w
  let w ← reservePlaced w (placementOrder preps)
  let tail := reserveTail w (tailOrder preps)
  let planned := preps.map fun p => p.plan (fileOffsetOf tail.2 p)
  let r := reserveAppended strtab tail.1 image a writable
  some (⟨planned, r.1, r.2.1⟩, r.2.2)

def appendedSectionHeader (a : AppendedSegment) (appendedFileOffset : Nat) : SectionHeader :=
  ⟨some a.sectionName, shtProgbits, shfAlloc + shfExecinstr, a.vaddr, appendedFileOffset,
    a.bytes.length, 0, 0, 4, 0⟩

def writableSectionHeader (x : WritableSegment) (writableFileOffset : Nat) : SectionHeader :=
  ⟨some x.sectionName, shtProgbits, shfAlloc + shfWrite, x.vaddr, writableFileOffset,
    x.bytes.length, 0, 0, appendPageAlign, 0⟩

/-- The section headers between the null entry and the string table's. -/
def appendedSectionHeaders (c : Container) (plan : AppendedPlan) (a : AppendedSegment)
    (writable : Option WritableSegment) : List SectionHeader :=
  (plan.planned.zip c.sections).map (fun p => buildSectionHeader p.2 p.1)
    ++ appendedSectionHeader a plan.appendedFileOffset
    :: writable.toList.map (fun x => writableSectionHeader x plan.writableFileOffset)

def writeWritable (w : Writer) : Option WritableSegment → Writer
  | none => w
  | some x => (w.writeAlign appendPageAlign).write x.bytes

/-- The file: headers and sections, string table, section headers, the new
segments, and the program-header table at the end. -/
def writeWithAppendedSegmentInner (strtab : List String → List Byte) (c : Container)
    (image : Image) (a : AppendedSegment) (overrides : Nat → Option (List Byte))
    (writable : Option WritableSegment) : Option Writer := do
  let (plan, w) ← reservePhase strtab c image a overrides writable
  let preps := prepSections image overrides c.sections
  let w := w.writeFileHeader (buildFileHeader c image)
  let w ← writePlaced c.architecture w (placementOrder preps ++ tailOrder preps)
  let w := w.writeShstrtab strtab
  let w := w.writeNullSectionHeader
  let w := w.writeSectionHeaders (appendedSectionHeaders c plan a writable)
  let w := w.writeShstrtabSectionHeader strtab
  let w := writeWritable w writable
  let w := (w.writeAlign appendPageAlign).write a.bytes
  let w := w.writeAlignProgramHeaders
  some (w.writeProgramHeaders
    (emittedPhdrs image a writable plan.writableFileOffset plan.appendedFileOffset))

end Armv8Encode.Elf

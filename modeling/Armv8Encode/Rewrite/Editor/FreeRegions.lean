/-
  Armv8Encode.Rewrite.Editor.FreeRegions — padding inside Mach-O segments.

  The gaps between consecutive sections of a segment, and the gap from the
  last section to the end of the segment's bytes, belong to no section.  New
  content may be put there without another segment.  What stands before the
  first section holds the headers and is not offered.
-/
import Mathlib.Data.List.MinMax
import Armv8Encode.Container.MachO.Image
import Armv8Encode.Rewrite.ElfEditor.State
import Armv8Encode.Rewrite.Space

namespace Armv8Encode.MachO

open Elf (maskUp)

/-- The segments and sections of a Mach-O image. -/
structure MachOLayout where
  segments : List MachOSegment
  sections : List MachOSection
  deriving Repr, DecidableEq

/-- A range of a segment that no section claims. -/
structure MachOFreeRegion where
  vaddr : Nat
  fileOffset : Nat
  size : Nat
  segmentName : String
  deriving Repr, DecidableEq

/-- The gaps from a cursor on; each section in turn moves the cursor to its
end.  The gap at the segment's start is skipped. -/
def gapsFrom (seg : MachOSegment) : List MachOSection → Nat → Nat → List MachOFreeRegion
  | [], cursorFile, cursorVaddr =>
    if cursorFile < seg.fileoff + seg.filesize then
      [⟨cursorVaddr, cursorFile, seg.fileoff + seg.filesize - cursorFile, seg.name⟩]
    else []
  | s :: rest, cursorFile, cursorVaddr =>
    let later := gapsFrom seg rest (s.fileOffset + s.size) (s.vaddr + s.size)
    if cursorFile < s.fileOffset ∧ seg.fileoff < cursorFile then
      ⟨cursorVaddr, cursorFile, s.fileOffset - cursorFile, seg.name⟩ :: later
    else later

namespace MachOLayout

variable (l : MachOLayout)

def segmentNamed (name : String) : Option MachOSegment :=
  l.segments.find? fun s => s.name == name

/-- The sections of a segment that have bytes in the file, by file offset. -/
def sectionsOf (segname : String) : List MachOSection :=
  (l.sections.filter fun s => s.segname == segname && decide (0 < s.fileOffset)).mergeSort
    fun a b => decide (a.fileOffset ≤ b.fileOffset)

def segmentFreeRegions (segname : String) : List MachOFreeRegion :=
  match l.segmentNamed segname with
  | none => []
  | some seg => gapsFrom seg (l.sectionsOf segname) seg.fileoff seg.vmaddr

def textFreeRegions : List MachOFreeRegion := l.segmentFreeRegions "__TEXT"

/-- Room of a region after its start is aligned, and where that start is. -/
structure Aligned where
  usable : Nat
  vaddr : Nat
  fileOffset : Nat
  deriving Repr, DecidableEq

/-- What a region offers to a request, if it has room for it. -/
def MachOFreeRegion.offer (bytesNeeded alignTo : Nat) (r : MachOFreeRegion) : Option Aligned :=
  let padding := maskUp r.vaddr alignTo - r.vaddr
  if r.size < padding + bytesNeeded then none
  else some ⟨r.size - padding, r.vaddr + padding, r.fileOffset + padding⟩

/-- Best fit inside `__TEXT`: the first of the smallest offers. -/
def allocateInText (bytesNeeded alignTo : Nat) : Option (Nat × Nat) :=
  ((l.textFreeRegions.filterMap (MachOFreeRegion.offer bytesNeeded alignTo)).argmin
    Aligned.usable).map fun a => (a.vaddr, a.fileOffset)

/-- Highest mapped address. -/
def maxVaddrEnd : Nat :=
  (l.segments.map fun s => Space.saturatingAdd s.vmaddr s.vmsize).foldl max 0

def section? (segname sectname : String) : Option MachOSection :=
  l.sections.find? fun s => s.segname == segname && s.sectname == sectname

end MachOLayout

end Armv8Encode.MachO

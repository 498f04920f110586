/-
  Armv8Encode.Container.Elf.Placement — what both ELF writers do with a section.

  A source section keeps its file offset.  Reserving it moves the cursor to
  that offset and over the section's extent; writing it pads to the offset,
  puts the bytes there and fills what is left of the extent.
-/
import Armv8Encode.Container.Elf.ObjectWriter

namespace Armv8Encode.Elf

open Lib

/-! ## §1. The plan of one section. -/

structure PlannedSection where
  name : Option String
  fileOffset : Nat
  shOffset : Nat
  shLink : Nat
  shInfo : Nat
  shEntsize : Nat
  /-- Bytes occupied in the file. -/
  inPlaceExtent : Nat
  isNobits : Bool
  deriving Repr, DecidableEq

def nameId (s : Section) : Option String := if s.name = "" then none else some s.name

/-- Add the name of a section to the string table and take the next index. -/
def nameSection (w : Writer) (s : Section) : Writer :=
  (if s.name = "" then w else w.addSectionName s.name).reserveSectionIndex

/-! ## §2. Headers. -/

def eTypeOf : ContainerKind → Nat
  | .sharedObject => 3
  | .executable => 2
  | _ => 3

def eMachineOf : Architecture → Nat
  | .aarch64 => 183
  | .arm => 40
  | .x86_64 => 62
  | .x86 => 3
  | .other => 183

def buildFileHeader (c : Container) (image : Image) : FileHeader where
  osAbi := (c.fileFlags.map FileFlags.osAbi).getD 0
  abiVersion := (c.fileFlags.map FileFlags.abiVersion).getD 0
  eType := eTypeOf c.kind
  eMachine := eMachineOf c.architecture
  eEntry := image.eEntry
  eFlags := (c.fileFlags.map FileFlags.eFlags).getD 0

def shTypeOf : SectionKind → Nat
  | .bss => shtNobits
  | _ => shtProgbits

def buildSectionHeader (s : Section) (plan : PlannedSection) : SectionHeader where
  name := plan.name
  shType := s.rawShType.getD (shTypeOf s.kind)
  shFlags := s.shFlags.getD (defaultShFlagsForKind s.kind)
  shAddr := s.address
  shOffset :=
    if plan.isNobits then plan.shOffset
    else if 0 < plan.shOffset then plan.shOffset
    else plan.fileOffset
  shSize := if s.size < plan.inPlaceExtent then plan.inPlaceExtent else s.size
  shLink := plan.shLink
  shInfo := plan.shInfo
  shAddralign := max s.align 1
  shEntsize := plan.shEntsize

/-! ## §3. Writing a section's bytes. -/

/-- Fill for what a shrunk section leaves of its extent. -/
def trailingFill (arch : Architecture) (s : Section) (trailing : Nat) : List Byte :=
  if sectionIsExecutable s then nopPadding trailing arch else List.replicate trailing 0

theorem trailingFill_length (arch : Architecture) (s : Section) (trailing : Nat) :
    (trailingFill arch s trailing).length = trailing := by
  unfold trailingFill
  split
  · exact nopPadding_length trailing arch
  · exact List.length_replicate

/-- Bytes of one section at its offset, filled up to its extent. -/
def writeSectionBytes (arch : Architecture) (w : Writer) (s : Section) (bytes : List Byte)
    (shOffset inPlaceExtent : Nat) : Option Writer := do
  let w ←
    if 0 < shOffset then w.padUntil shOffset
    else some (w.writeAlign (max s.align 1))
  let w := w.write bytes
  let trailing := inPlaceExtent - bytes.length
  if 0 < trailing then some (w.write (trailingFill arch s trailing)) else some w

/-! ## §4. Where the bytes end up. -/

/-- What `writeSectionBytes` adds once the writer stands where the bytes go. -/
def sectionPieces (arch : Architecture) (s : Section) (bytes : List Byte)
    (inPlaceExtent : Nat) : List Piece :=
  .content bytes ::
    if 0 < inPlaceExtent - bytes.length
    then [.content (trailingFill arch s (inPlaceExtent - bytes.length))] else []

theorem extent_sectionPieces {is64 : Bool} {arch : Architecture} {s : Section}
    {bytes : List Byte} {inPlaceExtent : Nat} (h : bytes.length ≤ inPlaceExtent) :
    extent (Piece.size is64) (sectionPieces arch s bytes inPlaceExtent) = inPlaceExtent := by
  unfold sectionPieces
  split
  · simp only [extent_cons, extent_nil, Piece.size, trailingFill_length]
    omega
  · simp only [extent_cons, extent_nil, Piece.size]
    omega

theorem isBody_sectionPieces {arch : Architecture} {s : Section} {bytes : List Byte}
    {inPlaceExtent : Nat} {p : Piece} (h : p ∈ sectionPieces arch s bytes inPlaceExtent) :
    p.isBody = true := by
  unfold sectionPieces at h
  split at h
  · simp only [List.mem_cons, List.not_mem_nil, or_false] at h
    obtain rfl | rfl := h <;> rfl
  · simp only [List.mem_cons, List.not_mem_nil, or_false] at h
    rw [h]
    rfl

/-- A section with an offset is written there, if the writer is not past it. -/
theorem writeSectionBytes_placed {arch : Architecture} {w : Writer} {s : Section}
    {bytes : List Byte} {shOffset inPlaceExtent : Nat} (hpos : 0 < shOffset)
    (hle : w.position ≤ shOffset) :
    writeSectionBytes arch w s bytes shOffset inPlaceExtent
      = some (w.extend (.padding (shOffset - w.position)
          :: sectionPieces arch s bytes inPlaceExtent)) := by
  unfold writeSectionBytes sectionPieces
  rw [if_pos hpos, w.padUntil_of_le hle]
  simp only [Option.bind_eq_bind, Option.bind_some, Writer.write_eq_extend, Writer.extend_extend]
  split <;> simp

/-- A section without an offset follows at its alignment. -/
theorem writeSectionBytes_tail {arch : Architecture} {w : Writer} {s : Section}
    {bytes : List Byte} {inPlaceExtent : Nat} :
    writeSectionBytes arch w s bytes 0 inPlaceExtent
      = some (w.extend (.padding (alignUp w.position (max s.align 1) - w.position)
          :: sectionPieces arch s bytes inPlaceExtent)) := by
  unfold writeSectionBytes sectionPieces
  rw [if_neg (Nat.lt_irrefl 0)]
  simp only [Option.bind_eq_bind, Option.bind_some, Writer.writeAlign_eq_extend,
    Writer.write_eq_extend, Writer.extend_extend]
  split <;> simp

end Armv8Encode.Elf

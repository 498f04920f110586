/-
  Armv8Encode.Container.MachO.Growth — the load commands after a `__TEXT` grow.

  A grow inserts `delta` bytes at `growthPoint`, a file offset inside
  `__TEXT`.  The segment that holds the point grows, segments past the point
  move, and every offset into `__LINKEDIT` moves.  A zero field means that
  there is no data and stays zero.
-/
import Armv8Encode.Container.MachO.Image

namespace Armv8Encode.MachO

/-- Add to a 64-bit field, unless it is zero. -/
def addU64 (delta value : Nat) : Nat := if value = 0 then 0 else value + delta

/-- Add to a 32-bit field, unless it is zero. -/
def addU32 (delta value : Nat) : Nat := if value = 0 then 0 else (value + delta) % 2 ^ 32

/-- The address of the growth point; the offset itself where no segment holds it. -/
def insertVaddr (commands : List LoadCommand) (growthPoint : Nat) : Nat :=
  match (segments commands).find? fun s => s.holds growthPoint with
  | some s => s.vmaddr + (growthPoint - s.fileoff)
  | none => growthPoint

/-- A section at or past the threshold moves. -/
def shiftSection (delta threshold : Nat) (s : MachOSection) : MachOSection :=
  if s.vaddr < threshold then s
  else
    { s with
      vaddr := addU64 delta s.vaddr
      fileOffset := addU32 delta s.fileOffset
      reloff := addU32 delta s.reloff }

def growSegment (growthPoint delta insert : Nat) (s : MachOSegment)
    (sections : List MachOSection) : LoadCommand :=
  if s.holds growthPoint then
    .segment { s with vmsize := addU64 delta s.vmsize, filesize := addU64 delta s.filesize }
      (sections.map (shiftSection delta insert))
  else if insert ≤ s.vmaddr then
    .segment { s with vmaddr := addU64 delta s.vmaddr, fileoff := addU64 delta s.fileoff }
      (sections.map (shiftSection delta 0))
  else .segment s sections

def FileRange.shift (delta : Nat) (r : FileRange) : FileRange :=
  { r with offset := addU32 delta r.offset }

def growCommand (growthPoint delta insert : Nat) : LoadCommand → LoadCommand
  | .segment s sections => growSegment growthPoint delta insert s sections
  | .dyldInfo info => .dyldInfo
      { rebase := info.rebase.shift delta, bind := info.bind.shift delta,
        weakBind := info.weakBind.shift delta, lazyBind := info.lazyBind.shift delta,
        exports := info.exports.shift delta }
  | .linkeditData kind data => .linkeditData kind (data.shift delta)
  | .symtab s => .symtab { s with symoff := addU32 delta s.symoff, stroff := addU32 delta s.stroff }
  | .dysymtab d => .dysymtab
      { d with
        toc := d.toc.shift delta, modtab := d.modtab.shift delta,
        extrefsym := d.extrefsym.shift delta, indirectsym := d.indirectsym.shift delta,
        extrel := d.extrel.shift delta, locrel := d.locrel.shift delta }
  | .main entryoff => .main (if growthPoint ≤ entryoff then entryoff + delta else entryoff)
  | .other cmd body => .other cmd body

def applyGrowth (commands : List LoadCommand) (growthPoint delta : Nat) : List LoadCommand :=
  commands.map (growCommand growthPoint delta (insertVaddr commands growthPoint))

end Armv8Encode.MachO

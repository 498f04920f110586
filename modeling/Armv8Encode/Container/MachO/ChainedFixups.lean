/-
  Armv8Encode.Container.MachO.ChainedFixups — the editable view of chained fixups.

  A slot is eight bytes of a segment.  Its word holds the target and the
  distance to the next slot of the page; the blob in `__LINKEDIT` says where
  each page's chain starts and lists the imports that binds refer to.  The
  view is a list of slots per segment.  Writing it back gives the words of
  the slots and a new blob.

  The fields of a word do not meet, so a word is the sum of its fields.  The
  blob is modelled by what its header says: the imports are the bytes from
  the imports offset on, with the symbol pool at an offset from there.
-/
import Armv8Encode.Container.MachO.Image
import Armv8Encode.Lib.Bytes
import Mathlib.Data.List.Sort

namespace Armv8Encode.MachO

open Lib

/-! ## §1. Formats. -/

inductive PointerFormat where
  | ptr64
  | ptr64Offset
  | arm64e
  | arm64eKernel
  | arm64eUserland
  | arm64eUserland24
  deriving Repr, DecidableEq

namespace PointerFormat

/-- Formats without authentication bits. -/
def isPlain : PointerFormat → Bool
  | ptr64 | ptr64Offset => true
  | _ => false

/-- Unit of `next`. -/
def stride (format : PointerFormat) : Nat := if format.isPlain then 4 else 8

def nextBits (format : PointerFormat) : Nat := if format.isPlain then 12 else 11

/-- Longest step a chain can take. -/
def maxNextByteDelta (format : PointerFormat) : Nat := (2 ^ format.nextBits - 1) * format.stride

/-- Targets stored relative to the segment of the slot. -/
def isRelative : PointerFormat → Bool
  | arm64eKernel | arm64eUserland | arm64eUserland24 => true
  | _ => false

/-- Width of a bind's ordinal. -/
def ordinalBits : PointerFormat → Nat
  | ptr64 | ptr64Offset | arm64eUserland24 => 24
  | _ => 16

end PointerFormat

/-! ## §2. The view. -/

inductive FixupTarget where
  | rebase (targetVaddr : Nat)
  | bind (importIndex : Nat) (addend : Int)
  deriving Repr, DecidableEq

structure Fixup where
  vaddr : Nat
  target : FixupTarget
  deriving Repr, DecidableEq

structure SegmentFixups where
  segmentIndex : Nat
  pageSize : Nat
  fixups : List Fixup
  deriving Repr, DecidableEq

structure ChainedImport where
  libOrdinal : Int
  symbol : String
  addend : Int
  weak : Bool
  deriving Repr, DecidableEq

/-- Bytes of the import table and what the header says of them. -/
structure ImportsBlob where
  format : Nat
  count : Nat
  /-- Where the symbol pool starts. -/
  symbols : Nat
  bytes : List Byte
  deriving Repr, DecidableEq

/-- The starts of one segment. -/
structure SegmentStarts where
  pageSize : BitVec 16
  format : PointerFormat
  pageStarts : List (BitVec 16)
  deriving Repr, DecidableEq

structure FixupsBlob where
  /-- Bytes from the load command's offset on. -/
  size : Nat
  imports : ImportsBlob
  /-- Per segment, in the order of the load commands. -/
  starts : List (Option SegmentStarts)
  deriving Repr, DecidableEq

structure ChainedFixups where
  pointerFormat : PointerFormat
  imports : List ChainedImport
  segments : List SegmentFixups
  originalImports : ImportsBlob
  deriving Repr, DecidableEq

/-! ## §3. Words. -/

/-- The word of a slot. -/
def encodeOne (target : FixupTarget) (format : PointerFormat) (nextUnits segBase : Nat) :
    Option Nat :=
  let next := nextUnits % 2 ^ format.nextBits * 2 ^ 51
  match target with
  | .rebase targetVaddr =>
    let stored := if format.isRelative then targetVaddr - segBase else targetVaddr
    some (stored % 2 ^ 36 + next)
  | .bind importIndex addend =>
    let ordinal := importIndex % 2 ^ format.ordinalBits
    if format.isPlain then some (ordinal + (addend % 2 ^ 8).toNat * 2 ^ 24 + next + 2 ^ 63)
    else if addend < -2 ^ 18 ∨ 2 ^ 18 ≤ addend then none
    else some (ordinal + (addend % 2 ^ 19).toNat * 2 ^ 24 + next + 2 ^ 62)

/-- A 19-bit field as a signed number. -/
def signExtend19 (raw : Nat) : Int := if raw < 2 ^ 18 then raw else raw - 2 ^ 19

/-- The target a word names, and its `next`. -/
def decodeOne (word : Nat) (format : PointerFormat) (importsCount segBase : Nat) :
    Option (FixupTarget × Nat) :=
  let next := word / 2 ^ 51 % 2 ^ format.nextBits
  let bindBit := if format.isPlain then 63 else 62
  if word / 2 ^ bindBit % 2 = 1 then
    let ordinal := word % 2 ^ format.ordinalBits
    if importsCount ≤ ordinal then none
    else if format.isPlain then some (.bind ordinal (word / 2 ^ 24 % 2 ^ 8 : Nat), next)
    else
      -- An authenticated bind has no addend.
      let addend := if word / 2 ^ 63 % 2 = 1 then 0 else signExtend19 (word / 2 ^ 24 % 2 ^ 19)
      some (.bind ordinal addend, next)
  else
    let low := word % 2 ^ 36
    some (.rebase (if format.isRelative then segBase + low else low), next)

/-! ## §4. Imports. -/

def importEntrySize : Nat → Option Nat
  | 1 => some 4
  | 2 => some 8
  | 3 => some 16
  | _ => none

/-- A two's complement number of `bits` bits. -/
def signedOf (bits raw : Nat) : Int := if raw < 2 ^ (bits - 1) then raw else (raw : Int) - 2 ^ bits

/-- The terminated string at an offset. -/
def readCstr (pool : List Byte) (offset : Nat) : Option String :=
  if pool.length < offset then none
  else
    let tail := pool.drop offset
    let text := tail.takeWhile fun b => b != 0
    if text.length = tail.length then none
    else String.fromUTF8? ⟨(text.map UInt8.ofBitVec).toArray⟩

def decodeImport (blob : ImportsBlob) (entrySize i : Nat) : Option ChainedImport := do
  let raw ← readLe 4 blob.bytes (i * entrySize)
  let pool := blob.bytes.drop blob.symbols
  if blob.format = 3 then
    let nameOffset ← readLe 4 blob.bytes (i * entrySize + 4)
    let addend ← readLe 8 blob.bytes (i * entrySize + 8)
    let symbol ← readCstr pool nameOffset
    some ⟨signedOf 16 (raw % 2 ^ 16), symbol, signedOf 64 addend, raw / 2 ^ 16 % 2 = 1⟩
  else
    let addend ← if blob.format = 2 then readLe 4 blob.bytes (i * entrySize + 4) else some 0
    let symbol ← readCstr pool (raw / 2 ^ 9)
    some ⟨signedOf 8 (raw % 2 ^ 8), symbol, signedOf 32 addend, raw / 2 ^ 8 % 2 = 1⟩

def decodeImports (blob : ImportsBlob) : Option (List ChainedImport) := do
  let entrySize ← importEntrySize blob.format
  if blob.bytes.length < blob.count * entrySize ∨ blob.bytes.length < blob.symbols then none
  else (List.range blob.count).mapM (decodeImport blob entrySize)

/-! ## §5. Reading. -/

def pageStartNone : BitVec 16 := 0xffff

/-- One chain, from an offset in the segment on.  Each step goes forward, so
the size of the segment is fuel enough. -/
def walkChain (bytes : List Byte) (seg : MachOSegment) (format : PointerFormat)
    (importsCount : Nat) : Nat → Nat → Option (List Fixup)
  | 0, _ => some []
  | fuel + 1, offset =>
    if seg.filesize < offset + 8 then some []
    else
      match readLe 8 bytes (seg.fileoff + offset) with
      | none => some []
      | some raw => do
        let (target, next) ← decodeOne raw format importsCount seg.vmaddr
        let fixup : Fixup := ⟨seg.vmaddr + offset, target⟩
        if next = 0 then some [fixup]
        else
          let rest ← walkChain bytes seg format importsCount fuel (offset + next * format.stride)
          some (fixup :: rest)

/-- Sorted by address; what has the same address keeps its order. -/
def sortByVaddr (fixups : List Fixup) : List Fixup :=
  fixups.insertionSort fun f g => f.vaddr ≤ g.vaddr

def walkOneSegment (bytes : List Byte) (seg : MachOSegment) (importsCount : Nat)
    (starts : SegmentStarts) : Option (List Fixup) := do
  let pages ← starts.pageStarts.zipIdx.mapM fun page =>
    if page.1 = pageStartNone then some []
    else walkChain bytes seg starts.format importsCount (seg.filesize + 1)
      (page.2 * starts.pageSize.toNat + page.1.toNat)
  some (sortByVaddr pages.flatten)

/-- The segments that have starts, with their index. -/
def startedSegments (starts : List (Option SegmentStarts)) : List (SegmentStarts × Nat) :=
  starts.zipIdx.filterMap fun s => s.1.map fun starts => (starts, s.2)

/-- Parse the blob; the segments have to agree in their format. -/
def ChainedFixups.read (blob : FixupsBlob) (bytes : List Byte) (segments : List MachOSegment) :
    Option ChainedFixups := do
  let imports ← decodeImports blob.imports
  match startedSegments blob.starts with
  | [] => none
  | first :: rest =>
    if rest.any fun s => s.1.format != first.1.format then none
    else
      let walked ← (first :: rest).mapM fun s => do
        let seg ← segments[s.2]?
        let fixups ← walkOneSegment bytes seg imports.length s.1
        some (SegmentFixups.mk s.2 s.1.pageSize.toNat fixups)
      some ⟨first.1.format, imports, walked, blob.imports⟩

/-! ## §6. Writing. -/

/-- Of neighbours with one address the first stays. -/
def dedupFrom (vaddr : Nat) : List Fixup → List Fixup
  | [] => []
  | f :: rest => if f.vaddr = vaddr then dedupFrom vaddr rest else f :: dedupFrom f.vaddr rest

def dedupByVaddr : List Fixup → List Fixup
  | [] => []
  | f :: rest => f :: dedupFrom f.vaddr rest

/-- The slots of a segment, each once, in order. -/
def SegmentFixups.slots (sf : SegmentFixups) : List Fixup := dedupByVaddr (sortByVaddr sf.fixups)

/-- The page of a slot. -/
def SegmentFixups.pageOf (sf : SegmentFixups) (seg : MachOSegment) (f : Fixup) : Nat :=
  (f.vaddr - seg.vmaddr) / sf.pageSize

def SegmentFixups.onPage (sf : SegmentFixups) (seg : MachOSegment) (page : Nat) : List Fixup :=
  sf.slots.filter fun f => sf.pageOf seg f = page

/-- Page indices that have slots, each once. -/
def SegmentFixups.pages (sf : SegmentFixups) (seg : MachOSegment) : List Nat :=
  (sf.slots.map (sf.pageOf seg)).dedup

/-- The words of one page's chain, with their file offsets. -/
def chainWords (format : PointerFormat) (seg : MachOSegment) :
    List Fixup → Option (List (Nat × List Byte))
  | [] => some []
  | f :: rest => do
    let distance := match rest with
      | [] => 0
      | g :: _ => g.vaddr - f.vaddr
    let word ← encodeOne f.target format (distance / format.stride) seg.vmaddr
    let words ← chainWords format seg rest
    some ((seg.fileoff + (f.vaddr - seg.vmaddr), leBytes 8 word) :: words)

/-- The words of all slots; a page has to have a size. -/
def ChainedFixups.slotBytes (cf : ChainedFixups) (segments : List MachOSegment) :
    Option (List (Nat × List Byte)) := do
  let words ← cf.segments.mapM fun sf => do
    let seg ← segments[sf.segmentIndex]?
    if sf.pageSize = 0 ∧ sf.fixups ≠ [] then none
    else
      let pages ← (sf.pages seg).mapM fun page =>
        chainWords cf.pointerFormat seg (sf.onPage seg page)
      some pages.flatten
  some words.flatten

/-- A slot that the writer accepts. -/
def slotAccepted (format : PointerFormat) (importsCount : Nat) (seg : MachOSegment)
    (f : Fixup) : Bool :=
  f.vaddr % format.stride == 0
    && decide (seg.vmaddr ≤ f.vaddr) && decide (f.vaddr < seg.vmaddr + seg.vmsize)
    && match f.target with
      | .rebase _ => true
      | .bind importIndex _ => decide (importIndex < importsCount)

/-- No step of the chain is too long. -/
def stepsFit (format : PointerFormat) : List Fixup → Bool
  | f :: g :: rest => decide (g.vaddr - f.vaddr ≤ format.maxNextByteDelta)
      && stepsFit format (g :: rest)
  | _ => true

/-- Where the chain of a page starts, as its 16 bits. -/
def SegmentFixups.pageStart (sf : SegmentFixups) (seg : MachOSegment) (page : Nat) :
    BitVec 16 :=
  match sf.onPage seg page with
  | [] => pageStartNone
  | f :: _ => BitVec.ofNat 16 (f.vaddr - (seg.vmaddr + page * sf.pageSize))

/-- Pages of the whole segment; none if it has no slots. -/
def SegmentFixups.pageCount (sf : SegmentFixups) (seg : MachOSegment) : Nat :=
  if sf.fixups.isEmpty then 0 else (seg.vmsize + sf.pageSize - 1) / sf.pageSize

/-- The starts of a segment; none if a chain step is too long.  The count of
pages is stored in 16 bits, and a reader looks at no more pages than that. -/
def buildStartsInSegment (format : PointerFormat) (sf : SegmentFixups) (seg : MachOSegment) :
    Option SegmentStarts :=
  if (sf.pages seg).all fun page => stepsFit format (sf.onPage seg page) then
    some ⟨BitVec.ofNat 16 sf.pageSize, format,
      (List.range (sf.pageCount seg % 2 ^ 16)).map (sf.pageStart seg)⟩
  else none

/-- The name offset of the `i`-th entry, if the bytes were a table. -/
def nameOffsetAt (blob : ImportsBlob) (entrySize i : Nat) : Nat :=
  if blob.format = 3 then (readLe 4 blob.bytes (i * entrySize + 4)).getD 0
  else (readLe 4 blob.bytes (i * entrySize)).getD 0 / 2 ^ 9

/-- Entries are counted as long as their names lie inside the blob. -/
def countImports (blob : ImportsBlob) (entrySize : Nat) : Nat → Nat → Nat
  | 0, count => count
  | fuel + 1, count =>
    if blob.bytes.length < count * entrySize + entrySize then count
    else if blob.bytes.length ≤ (count + 1) * entrySize + nameOffsetAt blob entrySize count then
      count
    else countImports blob entrySize fuel (count + 1)

/-- The count and the symbol offset are found anew from the bytes. -/
def measureImportsBlob (blob : ImportsBlob) : Option ImportsBlob := do
  let entrySize ← importEntrySize blob.format
  let count := countImports blob entrySize blob.bytes.length 0
  some { blob with count := count, symbols := count * entrySize }

/-- Where the imports stand in the blob: behind the header, the table of
segments and the starts of each. -/
def ChainedFixups.importsOffset (cf : ChainedFixups) (segments : List MachOSegment) : Nat :=
  cf.segments.foldl
    (fun cursor sf => match segments[sf.segmentIndex]? with
      | some seg => (cursor + 22 + 2 * sf.pageCount seg + 3) / 4 * 4
      | none => cursor)
    (36 + 4 * segments.length)

/-- The size of the range that the blob gets: its own, up to eight bytes, if that
is more than the `room` there was. -/
def ChainedFixups.blobSize (cf : ChainedFixups) (segments : List MachOSegment) (room : Nat) :
    Nat :=
  max ((cf.importsOffset segments + cf.originalImports.bytes.length + 7) / 8 * 8) room

/-- The imports of the blob, when they were not edited: their bytes are copied,
and zeros follow up to the end of the range. -/
def ChainedFixups.blobImports (cf : ChainedFixups) (segments : List MachOSegment) (room : Nat) :
    Option ImportsBlob := do
  let measured ← measureImportsBlob cf.originalImports
  let used := cf.importsOffset segments + cf.originalImports.bytes.length
  some { measured with
    bytes := measured.bytes ++ List.replicate (cf.blobSize segments room - used) 0 }

/-- The starts that go into the blob, with their segments. -/
def ChainedFixups.blobStarts (cf : ChainedFixups) (segments : List MachOSegment) :
    Option (List (Nat × SegmentStarts)) :=
  cf.segments.mapM fun sf => do
    let seg ← segments[sf.segmentIndex]?
    if sf.fixups.all (slotAccepted cf.pointerFormat cf.imports.length seg) then
      let starts ← buildStartsInSegment cf.pointerFormat sf seg
      some (sf.segmentIndex, starts)
    else none

/-- The blob, for the range of `room` bytes that there was or for a larger one. -/
def ChainedFixups.serialize (cf : ChainedFixups) (segments : List MachOSegment) (room : Nat) :
    Option FixupsBlob := do
  let starts ← cf.blobStarts segments
  let imports ← cf.blobImports segments room
  some
    { size := cf.blobSize segments room
      imports := imports
      starts := (List.range segments.length).map fun i =>
        (starts.reverse.find? fun s => s.1 == i).map Prod.snd }

end Armv8Encode.MachO

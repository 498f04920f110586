/-
  Armv8Encode.Container.MachO.ChainedBlob — the bytes of a chained-fixups blob.

  The blob is a header, a table of the segments, the page starts of each, and
  the import table with its pool.  A read keeps the imports and the bytes from
  the import table on; a write copies these bytes if the imports are the same,
  and builds them anew otherwise.  The header of the new blob says what the
  scan of the bytes found.

  `readHeader_headerBytes`: a header of 32-bit numbers, as it is read.
  `readImports_serialize`: the imports of such a blob are those of its table.
-/
import Armv8Encode.Container.MachO.ImportTable

namespace Armv8Encode.MachO

open Lib

/-! ## §1. Reading. -/

namespace PointerFormat

def toRaw : PointerFormat → Nat
  | arm64e => 1
  | ptr64 => 2
  | ptr64Offset => 6
  | arm64eKernel => 7
  | arm64eUserland => 9
  | arm64eUserland24 => 12

def fromRaw : Nat → Option PointerFormat
  | 1 => some arm64e
  | 2 => some ptr64
  | 6 => some ptr64Offset
  | 7 => some arm64eKernel
  | 9 => some arm64eUserland
  | 12 => some arm64eUserland24
  | _ => none

end PointerFormat

structure FixupsHeader where
  startsOffset : Nat
  importsOffset : Nat
  symbolsOffset : Nat
  importsCount : Nat
  importsFormat : Nat
  deriving Repr, DecidableEq

def readHeader (blob : List Byte) : Option FixupsHeader := do
  let version ← readLe 4 blob 0
  if blob.length < 32 ∨ version ≠ 0 then none
  else
    let startsOffset ← readLe 4 blob 4
    let importsOffset ← readLe 4 blob 8
    let symbolsOffset ← readLe 4 blob 12
    let importsCount ← readLe 4 blob 16
    let importsFormat ← readLe 4 blob 20
    some ⟨startsOffset, importsOffset, symbolsOffset, importsCount, importsFormat⟩

/-- `decode_imports` -/
def decodeImportsAt (blob : List Byte) (header : FixupsHeader) : Option (List ChainedImport) := do
  let entrySize ← importEntrySize header.importsFormat
  if blob.length < header.importsOffset + header.importsCount * entrySize
    ∨ blob.length < header.symbolsOffset then none
  else
    (List.range header.importsCount).mapM
      (decodeEntry (blob.drop header.importsOffset) (blob.drop header.symbolsOffset)
        header.importsFormat entrySize)

/-- The imports that a blob's header says there are. -/
def readImports (blob : List Byte) : Option (List ChainedImport) := do
  let header ← readHeader blob
  decodeImportsAt blob header

/-- The starts of one segment, at an offset of the blob. -/
def readStarts (blob : List Byte) (offset : Nat) : Option SegmentStarts := do
  let pageSize ← readLe 2 blob (offset + 4)
  let format ← (readLe 2 blob (offset + 6)).bind PointerFormat.fromRaw
  let pageCount ← readLe 2 blob (offset + 20)
  let pageStarts ← (List.range pageCount).mapM fun page => readLe 2 blob (offset + 22 + 2 * page)
  some ⟨BitVec.ofNat 16 pageSize, format, pageStarts.map (BitVec.ofNat 16)⟩

/-- The starts of all segments. -/
def readStartsInImage (blob : List Byte) (startsOffset : Nat) :
    Option (List (Option SegmentStarts)) := do
  let segCount ← readLe 4 blob startsOffset
  (List.range segCount).mapM fun i => do
    let offset ← readLe 4 blob (startsOffset + 4 + 4 * i)
    if offset = 0 then some none else (readStarts blob (startsOffset + offset)).map some

/-- Chained fixups with what a write needs of the blob they are from. -/
structure EditableFixups where
  pointerFormat : PointerFormat
  imports : List ChainedImport
  segments : List SegmentFixups
  onDiskImportsFormat : Nat
  /-- From the import table to the end of the blob. -/
  originalImportsBytes : List Byte
  originalImports : List ChainedImport
  deriving Repr, DecidableEq

namespace EditableFixups

/-- `ChainedFixups::read` for an image with this blob. -/
def read (blob bytes : List Byte) (segments : List MachOSegment) : Option EditableFixups := do
  let header ← readHeader blob
  let imports ← decodeImportsAt blob header
  let starts ← readStartsInImage blob header.startsOffset
  match startedSegments starts with
  | [] => none
  | first :: rest =>
    if rest.any fun s => s.1.format != first.1.format then none
    else
      let walked ← (first :: rest).mapM fun s => do
        let seg ← segments[s.2]?
        let fixups ← walkOneSegment bytes seg imports.length s.1
        some (SegmentFixups.mk s.2 s.1.pageSize.toNat fixups)
      some ⟨first.1.format, imports, walked, header.importsFormat,
        blob.drop header.importsOffset, imports⟩

def ensureAddend64 (e : EditableFixups) : EditableFixups := { e with onDiskImportsFormat := 3 }

/-- The view without what is kept for the imports. -/
def view (e : EditableFixups) : ChainedFixups :=
  ⟨e.pointerFormat, e.imports, e.segments, ⟨e.onDiskImportsFormat, 0, 0, e.originalImportsBytes⟩⟩

end EditableFixups

/-! ## §2. Writing. -/

/-- `build_starts_in_segment`; `none` is an error, or a page size of zero. -/
def startsPayload (format : PointerFormat) (sf : SegmentFixups) (seg : MachOSegment) :
    Option (List Byte) :=
  let head (size : Nat) := leBytes 4 size ++ leBytes 2 sf.pageSize ++ leBytes 2 format.toRaw
    ++ leBytes 8 seg.fileoff ++ leBytes 4 0
  if sf.fixups = [] then some (head 22 ++ leBytes 2 0)
  else if sf.pageSize = 0 then none
  else if (sf.pages seg).all fun page => stepsFit format (sf.onPage seg page) then
    some (head (22 + 2 * sf.pageCount seg) ++ leBytes 2 (sf.pageCount seg)
      ++ (List.range (sf.pageCount seg)).flatMap fun page => leBytes 2 (sf.pageStart seg page).toNat)
  else none

/-- Where the payloads stand, counted from the table of segments, and their bytes; a segment
without one has the offset zero. -/
def placePayloads : Nat → List (Option (List Byte)) → List Nat × List Byte
  | _, [] => ([], [])
  | cursor, none :: payloads =>
    let later := placePayloads cursor payloads
    (0 :: later.1, later.2)
  | cursor, some payload :: payloads =>
    let next := (cursor + payload.length + 3) / 4 * 4
    let later := placePayloads next payloads
    ((cursor - 32) :: later.1,
      payload ++ List.replicate (next - (cursor + payload.length)) 0 ++ later.2)

theorem placePayloads_fst_length (cursor : Nat) (payloads : List (Option (List Byte))) :
    (placePayloads cursor payloads).1.length = payloads.length := by
  induction payloads generalizing cursor with
  | nil => rfl
  | cons payload payloads ih =>
    cases payload with
    | none =>
      show (placePayloads cursor payloads).1.length + 1 = payloads.length + 1
      rw [ih]
    | some payload =>
      show (placePayloads ((cursor + payload.length + 3) / 4 * 4) payloads).1.length + 1
        = payloads.length + 1
      rw [ih]

/-- The bytes before the imports, but for the header. -/
def startsBytes (payloads : List (Option (List Byte))) : List Byte :=
  let placed := placePayloads (36 + 4 * payloads.length) payloads
  leBytes 4 payloads.length ++ placed.1.flatMap (leBytes 4) ++ placed.2

def headerBytes (header : FixupsHeader) : List Byte :=
  [0, header.startsOffset, header.importsOffset, header.symbolsOffset, header.importsCount,
    header.importsFormat, 0, 0].flatMap (leBytes 4)

/-- A blob of the payloads and the imports. -/
def blobBytes (payloads : List (Option (List Byte))) (imports : ImportsBlob) : List Byte :=
  let starts := startsBytes payloads
  let importsOffset := 32 + starts.length
  let size := importsOffset + imports.bytes.length
  headerBytes ⟨32, importsOffset, importsOffset + imports.symbols, imports.count, imports.format⟩
    ++ starts ++ imports.bytes ++ List.replicate ((size + 7) / 8 * 8 - size) 0

namespace EditableFixups

/-- The payload of every segment, in their order; the slots have to be acceptable. -/
def payloads (e : EditableFixups) (segments : List MachOSegment) :
    Option (List (Option (List Byte))) := do
  let built ← e.segments.mapM fun sf => do
    let seg ← segments[sf.segmentIndex]?
    if sf.fixups.all (slotAccepted e.pointerFormat e.imports.length seg) then
      let payload ← startsPayload e.pointerFormat sf seg
      some (sf.segmentIndex, payload)
    else none
  some ((List.range segments.length).map fun i =>
    (built.reverse.find? fun s => s.1 == i).map Prod.snd)

/-- The import table that is written, with its count. -/
def importsBlob (e : EditableFixups) : Option ImportsBlob := do
  let (format, bytes) ← if e.imports = e.originalImports
    then some (e.onDiskImportsFormat, e.originalImportsBytes)
    else buildImportsBlob e.imports e.onDiskImportsFormat
  measureImportsBlob ⟨format, 0, 0, bytes⟩

/-- `ChainedFixups::serialize` -/
def serialize (e : EditableFixups) (segments : List MachOSegment) : Option (List Byte) := do
  let payloads ← e.payloads segments
  let imports ← e.importsBlob
  some (blobBytes payloads imports)

end EditableFixups

/-! ## §3. The header of a new blob. -/

theorem length_headerBytes (header : FixupsHeader) : (headerBytes header).length = 32 := rfl

structure FixupsHeader.Fits (header : FixupsHeader) : Prop where
  starts : header.startsOffset < 2 ^ 32
  imports : header.importsOffset < 2 ^ 32
  symbols : header.symbolsOffset < 2 ^ 32
  count : header.importsCount < 2 ^ 32
  format : header.importsFormat < 2 ^ 32

theorem readHeader_headerBytes {header : FixupsHeader} (h : header.Fits) (rest : List Byte) :
    readHeader (headerBytes header ++ rest) = some header := by
  have hvalues : ∀ v ∈ [0, header.startsOffset, header.importsOffset, header.symbolsOffset,
      header.importsCount, header.importsFormat, 0, 0], v < 256 ^ 4 := by
    have := h.starts
    have := h.imports
    have := h.symbols
    have := h.count
    have := h.format
    intro v hv
    simp only [List.mem_cons, List.not_mem_nil, or_false] at hv
    omega
  have hfield := fun i value => @readLe_array 4 i value [] rest _ hvalues
  have h0 := hfield 0 _ rfl
  have h1 := hfield 1 _ rfl
  have h2 := hfield 2 _ rfl
  have h3 := hfield 3 _ rfl
  have h4 := hfield 4 _ rfl
  have h5 := hfield 5 _ rfl
  rw [List.nil_append, List.length_nil, Nat.zero_add] at h0 h1 h2 h3 h4 h5
  have hlength : ¬ (headerBytes header ++ rest).length < 32 := by
    rw [List.length_append, length_headerBytes]
    omega
  unfold readHeader
  unfold headerBytes at hlength ⊢
  rw [h0, Option.bind_eq_bind, Option.bind_some,
    if_neg (not_or.mpr ⟨hlength, not_not_intro rfl⟩), h1, Option.bind_some, h2,
    Option.bind_some, h3, Option.bind_some, h4, Option.bind_some, h5]
  rfl

/-! ## §4. The imports of a new blob. -/

/-- What was measured fits the bytes. -/
theorem measureImportsBlob_spec {blob measured : ImportsBlob}
    (h : measureImportsBlob blob = some measured) :
    measured.format = blob.format ∧ measured.bytes = blob.bytes
      ∧ ∃ entrySize, importEntrySize measured.format = some entrySize
        ∧ measured.count = countImports blob entrySize blob.bytes.length 0
        ∧ measured.symbols = measured.count * entrySize
        ∧ measured.symbols ≤ measured.bytes.length := by
  obtain ⟨entrySize, hsize, h⟩ := Option.bind_eq_some_iff.mp h
  cases h
  refine ⟨rfl, rfl, entrySize, hsize, rfl, rfl, ?_⟩
  have hpos : 0 < entrySize := by
    obtain h | h | h := importEntrySize_cases hsize <;> omega
  obtain ⟨hbefore, _⟩ := (@countImports_eq_iff blob entrySize _ hpos).mp rfl
  dsimp only
  by_cases hzero : countImports blob entrySize blob.bytes.length 0 = 0
  · rw [hzero, Nat.zero_mul]
    exact Nat.zero_le _
  · have hlast := hbefore (countImports blob entrySize blob.bytes.length 0 - 1) (by omega)
    unfold LooksLikeEntry at hlast
    rw [Nat.sub_add_cancel (by omega)] at hlast
    omega

/-- The zeros up to the next multiple of eight. -/
def padding (size : Nat) : Nat := (size + 7) / 8 * 8 - size

/-- The bytes from the import table on, in a blob that has it at an offset. -/
def paddedTable (bytes : List Byte) (importsOffset : Nat) : List Byte :=
  bytes ++ List.replicate (padding (importsOffset + bytes.length)) 0

/-- **The header of a new blob below 4 GiB** says what it was made of. -/
theorem readHeader_blobBytes {payloads : List (Option (List Byte))} {unmeasured imports : ImportsBlob}
    (hmeasure : measureImportsBlob unmeasured = some imports)
    (hsmall : (blobBytes payloads imports).length < 2 ^ 32) :
    readHeader (blobBytes payloads imports)
      = some ⟨32, 32 + (startsBytes payloads).length,
        32 + (startsBytes payloads).length + imports.symbols, imports.count, imports.format⟩ := by
  obtain ⟨_, _, entrySize, hsize, _, hsymbols, hle⟩ := measureImportsBlob_spec hmeasure
  have hcases := importEntrySize_cases hsize
  have hcount : imports.count ≤ imports.symbols := by
    rw [hsymbols]
    exact Nat.le_mul_of_pos_right _ (by omega)
  have hlength : 32 + (startsBytes payloads).length + imports.bytes.length
      ≤ (blobBytes payloads imports).length := by
    unfold blobBytes
    rw [List.length_append, List.length_append, List.length_append, length_headerBytes]
    exact Nat.le_add_right _ _
  have hfits : FixupsHeader.Fits ⟨32, 32 + (startsBytes payloads).length,
      32 + (startsBytes payloads).length + imports.symbols, imports.count, imports.format⟩ := by
    constructor <;> dsimp only <;> omega
  unfold blobBytes
  dsimp only
  rw [List.append_assoc, List.append_assoc]
  exact readHeader_headerBytes hfits _

/-- **The imports of a new blob below 4 GiB** are the entries that were counted, with the pool
directly behind them. -/
theorem readImports_blobBytes {payloads : List (Option (List Byte))} {unmeasured imports : ImportsBlob}
    (hmeasure : measureImportsBlob unmeasured = some imports)
    (hsmall : (blobBytes payloads imports).length < 2 ^ 32) :
    ∃ entrySize table, importEntrySize imports.format = some entrySize
      ∧ table = paddedTable imports.bytes (32 + (startsBytes payloads).length)
      ∧ table.length < 2 ^ 32
      ∧ readImports (blobBytes payloads imports)
        = (List.range imports.count).mapM
          (decodeEntry table (table.drop (imports.count * entrySize)) imports.format entrySize) := by
  obtain ⟨_, _, entrySize, hsize, _, hsymbols, hle⟩ := measureImportsBlob_spec hmeasure
  have hheaderRead := readHeader_blobBytes hmeasure hsmall
  obtain ⟨starts, hstarts⟩ : ∃ starts, starts = startsBytes payloads := ⟨_, rfl⟩
  obtain ⟨size, hsizeEq⟩ : ∃ size, size = 32 + starts.length + imports.bytes.length := ⟨_, rfl⟩
  obtain ⟨header, hheader⟩ : ∃ header, header = (⟨32, 32 + starts.length,
    32 + starts.length + imports.symbols, imports.count, imports.format⟩ : FixupsHeader) := ⟨_, rfl⟩
  obtain ⟨table, htable⟩ : ∃ table, table
    = imports.bytes ++ List.replicate ((size + 7) / 8 * 8 - size) (0 : Byte) := ⟨_, rfl⟩
  have hblob : blobBytes payloads imports = headerBytes header ++ (starts ++ table) := by
    unfold blobBytes
    dsimp only
    rw [← hstarts, ← hsizeEq, hheader, htable, List.append_assoc, List.append_assoc]
  have hlength : (blobBytes payloads imports).length = 32 + starts.length + table.length := by
    rw [hblob, List.length_append, length_headerBytes, List.length_append, Nat.add_assoc]
  have hpadded : imports.bytes.length ≤ table.length := by
    rw [htable, List.length_append]
    exact Nat.le_add_right _ _
  refine ⟨entrySize, table, hsize, by rw [htable, hsizeEq, hstarts]; rfl, by omega, ?_⟩
  have hdrop : ∀ k, (blobBytes payloads imports).drop (32 + starts.length + k) = table.drop k := by
    intro k
    rw [hblob, ← List.append_assoc, ← List.drop_drop, List.drop_left']
    rw [List.length_append, length_headerBytes]
  have htableDrop := hdrop 0
  rw [Nat.add_zero, List.drop_zero] at htableDrop
  unfold readImports
  rw [hheaderRead, ← hstarts, Option.bind_eq_bind, Option.bind_some]
  unfold decodeImportsAt
  dsimp only
  rw [hsize, Option.bind_eq_bind, Option.bind_some, if_neg (by omega), htableDrop, hdrop, hsymbols]

/-- Whatever bytes are written, their entries are counted. -/
theorem EditableFixups.measured_of_importsBlob {e : EditableFixups} {imports : ImportsBlob}
    (h : e.importsBlob = some imports) :
    ∃ unmeasured, measureImportsBlob unmeasured = some imports := by
  unfold EditableFixups.importsBlob at h
  by_cases hsame : e.imports = e.originalImports
  · rw [if_pos hsame] at h
    exact ⟨_, h⟩
  · rw [if_neg hsame] at h
    obtain ⟨_, _, h⟩ := Option.bind_eq_some_iff.mp h
    exact ⟨_, h⟩

theorem EditableFixups.readImports_serialize {e : EditableFixups} {segments : List MachOSegment}
    {out : List Byte} (h : e.serialize segments = some out) (hsmall : out.length < 2 ^ 32) :
    ∃ payloads imports entrySize table, e.payloads segments = some payloads
      ∧ e.importsBlob = some imports ∧ importEntrySize imports.format = some entrySize
      ∧ table = paddedTable imports.bytes (32 + (startsBytes payloads).length)
      ∧ table.length < 2 ^ 32
      ∧ readImports out = (List.range imports.count).mapM
        (decodeEntry table (table.drop (imports.count * entrySize)) imports.format entrySize) := by
  obtain ⟨payloads, hpayloads, h⟩ := Option.bind_eq_some_iff.mp h
  obtain ⟨imports, himports, h⟩ := Option.bind_eq_some_iff.mp h
  cases h
  obtain ⟨unmeasured, hmeasure⟩ := EditableFixups.measured_of_importsBlob himports
  obtain ⟨entrySize, table, hrest⟩ := readImports_blobBytes hmeasure hsmall
  exact ⟨payloads, imports, entrySize, table, hpayloads, himports, hrest⟩

end Armv8Encode.MachO

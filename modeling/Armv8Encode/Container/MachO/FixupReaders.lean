/-
  Armv8Encode.Container.MachO.FixupReaders — the two readers of chained fixups.

  The blob is decoded twice: once for the editable view, whose slots are sorted
  and only then made a map, and once for the Objective-C metadata, where the map
  is filled while the chains are walked.  Both look at the bytes of the file and
  add machine words; what a sum does that leaves its type is up to the build, a
  checked one ends the reader, a wrapping one goes on.

  Both walks step alike, and in one segment the address of a slot fixes its
  word.  So the order in which the slots are inserted does not matter.

  Main results:
    * `decodeChainedPointer_eq` — the two decoders of a slot.
    * `insertAll_perm` — slots that agree can be inserted in any order.
    * `readers_agree` — the two maps are one.
-/
import Armv8Encode.Container.MachO.StagedView
import Armv8Encode.Lib.Collect
import Armv8Encode.Lib.Maps

namespace Armv8Encode.MachO

open Lib

/-! ## §1. Sums of machine words. -/

/-- What a build does with a sum that leaves its type. -/
inductive Sums where
  | checked
  | wrapping
  deriving Repr, DecidableEq

namespace Sums

def u64 (sums : Sums) (a b : Nat) : Option Nat :=
  match sums with
  | checked => if a + b < 2 ^ 64 then some (a + b) else none
  | wrapping => some ((a + b) % 2 ^ 64)

def i64 (sums : Sums) (a b : Int) : Option Int :=
  match sums with
  | checked => if -2 ^ 63 ≤ a + b ∧ a + b < 2 ^ 63 then some (a + b) else none
  | wrapping => some (signedOf 64 ((a + b) % 2 ^ 64).toNat)

theorem eq_mod_of_u64 {sums : Sums} {a b c : Nat} (h : sums.u64 a b = some c) :
    c = (a + b) % 2 ^ 64 := by
  cases sums with
  | checked =>
    obtain ⟨hlt, hsum⟩ := Option.ite_none_right_eq_some.mp h
    rw [Nat.mod_eq_of_lt hlt]
    exact (Option.some.inj hsum).symm
  | wrapping => exact (Option.some.inj h).symm

end Sums

/-! ## §2. The blob, as both readers find it. -/

/-- What the readers look at in an image. -/
structure FixupsImage where
  rawBytes : List Byte
  /-- The range of `LC_DYLD_CHAINED_FIXUPS`, if the image has that command. -/
  chainedFixups : Option FileRange
  segments : List MachOSegment
  deriving Repr, DecidableEq

def fixupsHeaderSize : Nat := 32

/-- The header, and the range of the file that the blob takes. -/
structure BlobHeader where
  base : Nat
  stop : Nat
  startsOffset : Nat
  importsOffset : Nat
  symbolsOffset : Nat
  importsCount : Nat
  importsFormat : Nat
  deriving Repr, DecidableEq

def readBlobHeader (bytes : List Byte) (range : FileRange) : Option BlobHeader :=
  let base := range.offset
  let stop := base + range.size
  if bytes.length < stop ∨ range.size < fixupsHeaderSize then none
  else do
    let fixupsVersion ← readLe 4 bytes base
    if fixupsVersion ≠ 0 then none
    else do
      let startsOffset ← readLe 4 bytes (base + 4)
      let importsOffset ← readLe 4 bytes (base + 8)
      let symbolsOffset ← readLe 4 bytes (base + 12)
      let importsCount ← readLe 4 bytes (base + 16)
      let importsFormat ← readLe 4 bytes (base + 20)
      some ⟨base, stop, startsOffset, importsOffset, symbolsOffset, importsCount, importsFormat⟩

def BlobHeader.startsAbs (header : BlobHeader) : Nat := header.base + header.startsOffset

/-- `seg_info_offset[]`. -/
def segInfoOffsets (bytes : List Byte) (header : BlobHeader) : Option (List Nat) :=
  if header.stop < header.startsAbs + 4 then none
  else do
    let segCount ← readLe 4 bytes header.startsAbs
    if header.stop < header.startsAbs + 4 + segCount * 4 then none
    else
      (List.range segCount).mapM fun segIdx =>
        readLe 4 bytes (header.startsAbs + 4 + segIdx * 4)

/-- The segments that have chains: where their starts are, and their index. -/
def startedAt (header : BlobHeader) (offsets : List Nat) : List (Nat × Nat) :=
  (offsets.zipIdx.filter fun s => s.1 != 0).map fun s => (header.startsAbs + s.1, s.2)

/-- `dyld_chained_starts_in_segment`, with its format as a number. -/
structure RawStarts where
  pageSize : Nat
  pointerFormat : Nat
  pageStarts : List Nat
  deriving Repr, DecidableEq

def readRawStarts (bytes : List Byte) (segInfoAbs fixupsEnd : Nat) : Option RawStarts :=
  if fixupsEnd < segInfoAbs + 22 then none
  else do
    let pageSize ← readLe 2 bytes (segInfoAbs + 4)
    let pointerFormat ← readLe 2 bytes (segInfoAbs + 6)
    let pageCount ← readLe 2 bytes (segInfoAbs + 20)
    if fixupsEnd < segInfoAbs + 22 + pageCount * 2 then none
    else do
      let pageStarts ← (List.range pageCount).mapM fun pageIdx =>
        readLe 2 bytes (segInfoAbs + 22 + pageIdx * 2)
      some ⟨pageSize, pointerFormat, pageStarts⟩

/-- Where the chains of a segment start, as offsets in it. -/
def RawStarts.chainOffsets (starts : RawStarts) : List Nat :=
  (starts.pageStarts.zipIdx.filter fun page => page.1 != pageStartNone.toNat).map fun page =>
    page.2 * starts.pageSize + page.1

/-- The strings of the imports. -/
def BlobHeader.symbolsPool (header : BlobHeader) (bytes : List Byte) : List Byte :=
  (bytes.take header.stop).drop (header.base + header.symbolsOffset)

/-- The table and the pool lie in the blob. -/
def BlobHeader.importsFit (header : BlobHeader) (entrySize : Nat) : Bool :=
  decide (header.base + header.importsOffset + header.importsCount * entrySize ≤ header.stop)
    && decide (header.base + header.symbolsOffset ≤ header.stop)

/-! ## §3. The reader of the editable view. -/

abbrev FixupMap := Map Nat ResolvedTarget

def FixupMap.insert (map : FixupMap) (vaddr : Nat) (target : ResolvedTarget) : FixupMap :=
  fun a => if a = vaddr then some target else map a

namespace FixupReader

/-- The library, the weak flag, the name offset and the addend of an entry. -/
def importFields (bytes : List Byte) (importsFormat e : Nat) :
    Option (Int × Bool × Nat × Int) :=
  match importsFormat with
  | 1 => do
    let raw ← readLe 4 bytes e
    some (signedOf 8 (raw % 2 ^ 8), raw / 2 ^ 8 % 2 = 1, raw / 2 ^ 9 % 2 ^ 23, 0)
  | 2 => do
    let raw ← readLe 4 bytes e
    let addend ← readLe 4 bytes (e + 4)
    some (signedOf 8 (raw % 2 ^ 8), raw / 2 ^ 8 % 2 = 1, raw / 2 ^ 9 % 2 ^ 23,
      signedOf 32 addend)
  | 3 => do
    let raw ← readLe 4 bytes e
    let nameOffset ← readLe 4 bytes (e + 4)
    let addend ← readLe 8 bytes (e + 8)
    some (signedOf 16 (raw % 2 ^ 16), raw / 2 ^ 16 % 2 = 1, nameOffset, signedOf 64 addend)
  | _ => none

def decodeImports (bytes : List Byte) (header : BlobHeader) : Option (List ChainedImport) := do
  let entrySize ← importEntrySize header.importsFormat
  if header.importsFit entrySize then
    (List.range header.importsCount).mapM fun i => do
      let (libOrdinal, weak, nameOffset, addend) ← importFields bytes header.importsFormat
        (header.base + header.importsOffset + i * entrySize)
      let symbol ← readCstr (header.symbolsPool bytes) nameOffset
      some ⟨libOrdinal, symbol, addend, weak⟩
  else none

/-- A slot of the formats without authentication. -/
def decode64 (raw importsCount : Nat) : Option (FixupTarget × Nat) :=
  let next := raw / 2 ^ 51 % 2 ^ 12
  if raw / 2 ^ 63 % 2 = 1 then
    if importsCount ≤ raw % 2 ^ 24 then none
    else some (.bind (raw % 2 ^ 24) (raw / 2 ^ 24 % 2 ^ 8 : Nat), next)
  else some (.rebase (raw % 2 ^ 36), next)

def decodeArm64e (sums : Sums) (raw : Nat) (format : PointerFormat)
    (importsCount segBase : Nat) : Option (FixupTarget × Nat) :=
  let next := raw / 2 ^ 51 % 2 ^ 11
  if raw / 2 ^ 62 % 2 = 1 then
    let ordinal := raw % if format = .arm64eUserland24 then 2 ^ 24 else 2 ^ 16
    if importsCount ≤ ordinal then none
    else
      -- An authenticated bind has no addend of its own.
      let addend := if raw / 2 ^ 63 % 2 = 1 then 0 else signExtend19 (raw / 2 ^ 24 % 2 ^ 19)
      some (.bind ordinal addend, next)
  else
    let targetLow := raw % 2 ^ 36
    (if format.isRelative then sums.u64 segBase targetLow else some targetLow).map
      fun targetVaddr => (.rebase targetVaddr, next)

def decodeOne (sums : Sums) (raw : Nat) (format : PointerFormat) (importsCount segBase : Nat) :
    Option (FixupTarget × Nat) :=
  match format with
  | .ptr64 | .ptr64Offset => decode64 raw importsCount
  | .arm64e | .arm64eKernel | .arm64eUserland | .arm64eUserland24 =>
    decodeArm64e sums raw format importsCount segBase

/-- One chain.  Without fuel there is no result. -/
def walkChain (sums : Sums) (bytes : List Byte) (seg : MachOSegment) (segEnd : Nat)
    (format : PointerFormat) (importsCount : Nat) : Nat → Nat → Option (List Fixup)
  | 0, _ => none
  | fuel + 1, offInSeg => do
    let chainVaddr ← sums.u64 seg.vmaddr offInSeg
    let chainFileOff ← sums.u64 seg.fileoff offInSeg
    let slotEnd ← sums.u64 chainFileOff 8
    if segEnd < slotEnd ∨ bytes.length < slotEnd then some []
    else do
      let raw ← readLe 8 bytes chainFileOff
      let (target, next) ← decodeOne sums raw format importsCount seg.vmaddr
      if next = 0 then some [⟨chainVaddr, target⟩]
      else do
        let offInSeg ← sums.u64 offInSeg (next * format.stride)
        let rest ← walkChain sums bytes seg segEnd format importsCount fuel offInSeg
        some (⟨chainVaddr, target⟩ :: rest)

def walkOneSegment (sums : Sums) (fuel : Nat) (image : FixupsImage) (importsCount fixupsEnd : Nat)
    (started : Nat × Nat) : Option (PointerFormat × SegmentFixups) := do
  let starts ← readRawStarts image.rawBytes started.1 fixupsEnd
  let format ← PointerFormat.fromRaw starts.pointerFormat
  let seg ← image.segments[started.2]?
  let segEnd ← sums.u64 seg.fileoff seg.filesize
  let chains ← starts.chainOffsets.mapM
    (walkChain sums image.rawBytes seg segEnd format importsCount fuel)
  some (format, ⟨started.2, starts.pageSize, sortByVaddr chains.flatten⟩)

/-- `ChainedFixups::read`: the segments have to agree in their format. -/
def read (sums : Sums) (fuel : Nat) (image : FixupsImage) : Option EditableFixups := do
  let range ← image.chainedFixups
  let header ← readBlobHeader image.rawBytes range
  let imports ← decodeImports image.rawBytes header
  let offsets ← segInfoOffsets image.rawBytes header
  let walked ← (startedAt header offsets).mapM
    (walkOneSegment sums fuel image imports.length header.stop)
  match walked with
  | [] => none
  | first :: rest =>
    if rest.any fun w => w.1 != first.1 then none
    else
      some
        { pointerFormat := first.1
          imports := imports
          segments := walked.map Prod.snd
          onDiskImportsFormat := header.importsFormat
          originalImportsBytes := (image.rawBytes.take header.stop).drop
            (header.base + header.importsOffset)
          originalImports := imports }

end FixupReader

/-- The target of a slot, with the addends of the slot and of its import added. -/
def resolve (sums : Sums) (imports : List ChainedImport) : FixupTarget → Option ResolvedTarget
  | .rebase targetVaddr => some (.rebase targetVaddr)
  | .bind importIndex addend => do
    let imp ← imports[importIndex]?
    let total ← sums.i64 addend imp.addend
    some (.bind imp.libOrdinal imp.symbol total)

def insertResolved (sums : Sums) (imports : List ChainedImport) (out : FixupMap) (f : Fixup) :
    Option FixupMap :=
  (resolve sums imports f.target).map fun target => out.insert f.vaddr target

def insertAll (sums : Sums) (imports : List ChainedImport) (out : FixupMap)
    (fixups : List Fixup) : Option FixupMap :=
  fixups.foldlM (insertResolved sums imports) out

def EditableFixups.toMapWith (cf : EditableFixups) (sums : Sums) : Option FixupMap :=
  cf.segments.foldlM (fun out seg => insertAll sums cf.imports out seg.fixups) fun _ => none

/-! ## §4. The reader of the Objective-C metadata. -/

namespace ObjCReader

structure DecodedImport where
  libOrdinal : Int
  symbol : String
  addend : Int
  deriving Repr, DecidableEq

def importFields (bytes : List Byte) (importsFormat e : Nat) : Option (Int × Nat × Int) :=
  match importsFormat with
  | 1 => do
    let raw ← readLe 4 bytes e
    some (signedOf 8 (raw % 2 ^ 8), raw / 2 ^ 9 % 2 ^ 23, 0)
  | 2 => do
    let raw ← readLe 4 bytes e
    let addend ← readLe 4 bytes (e + 4)
    some (signedOf 8 (raw % 2 ^ 8), raw / 2 ^ 9 % 2 ^ 23, signedOf 32 addend)
  | 3 => do
    let raw ← readLe 4 bytes e
    let nameOffset ← readLe 4 bytes (e + 4)
    let addend ← readLe 8 bytes (e + 8)
    some (signedOf 16 (raw % 2 ^ 16), nameOffset, signedOf 64 addend)
  | _ => none

def decodeImports (bytes : List Byte) (header : BlobHeader) : Option (List DecodedImport) := do
  let entrySize ← importEntrySize header.importsFormat
  if header.importsFit entrySize then
    (List.range header.importsCount).mapM fun i => do
      let (libOrdinal, nameOffset, addend) ← importFields bytes header.importsFormat
        (header.base + header.importsOffset + i * entrySize)
      let symbol ← readCstr (header.symbolsPool bytes) nameOffset
      some ⟨libOrdinal, symbol, addend⟩
  else none

/-- Firmware, the 32-bit format and the kernel cache have a stride too. -/
def pointerStride (pointerFormat : Nat) : Option Nat :=
  if pointerFormat ∈ [1, 7, 9, 10, 12] then some 8
  else if pointerFormat ∈ [2, 6, 8] then some 4
  else if pointerFormat = 3 then some 4
  else none

/-- A slot of the formats without authentication. -/
def decode64 (sums : Sums) (raw : Nat) (imports : List DecodedImport) :
    Option (ResolvedTarget × Nat) :=
  let next := raw / 2 ^ 51 % 2 ^ 12
  if raw / 2 ^ 63 % 2 = 1 then do
    let imp ← imports[raw % 2 ^ 24]?
    let total ← sums.i64 (raw / 2 ^ 24 % 2 ^ 8 : Nat) imp.addend
    some (.bind imp.libOrdinal imp.symbol total, next)
  else some (.rebase (raw % 2 ^ 36), next)

def decodeArm64e (sums : Sums) (raw pointerFormat : Nat) (imports : List DecodedImport)
    (segBase : Nat) : Option (ResolvedTarget × Nat) :=
  let next := raw / 2 ^ 51 % 2 ^ 11
  if raw / 2 ^ 62 % 2 = 1 then
    let ordinal := raw % if pointerFormat = 12 then 2 ^ 24 else 2 ^ 16
    let addend := if raw / 2 ^ 63 % 2 = 1 then 0 else signExtend19 (raw / 2 ^ 24 % 2 ^ 19)
    do
      let imp ← imports[ordinal]?
      let total ← sums.i64 addend imp.addend
      some (.bind imp.libOrdinal imp.symbol total, next)
  else
    let targetLow := raw % 2 ^ 36
    (if pointerFormat ∈ [9, 12, 7] then sums.u64 segBase targetLow else some targetLow).map
      fun targetVaddr => (.rebase targetVaddr, next)

def decodeChainedPointer (sums : Sums) (raw pointerFormat : Nat) (imports : List DecodedImport)
    (segBase : Nat) : Option (ResolvedTarget × Nat) :=
  match pointerFormat with
  | 2 | 6 => decode64 sums raw imports
  | 1 | 9 | 12 | 7 | 10 => decodeArm64e sums raw pointerFormat imports segBase
  | _ => none

def walkChain (sums : Sums) (bytes : List Byte) (seg : MachOSegment) (segEnd pointerFormat : Nat)
    (stride : Nat) (imports : List DecodedImport) : Nat → Nat → FixupMap → Option FixupMap
  | 0, _, _ => none
  | fuel + 1, chainOffInSeg, out => do
    let chainVaddr ← sums.u64 seg.vmaddr chainOffInSeg
    let chainFileOff ← sums.u64 seg.fileoff chainOffInSeg
    let slotEnd ← sums.u64 chainFileOff 8
    if segEnd < slotEnd ∨ bytes.length < slotEnd then some out
    else do
      let raw ← readLe 8 bytes chainFileOff
      let (target, next) ← decodeChainedPointer sums raw pointerFormat imports seg.vmaddr
      let out := out.insert chainVaddr target
      if next = 0 then some out
      else do
        let chainOffInSeg ← sums.u64 chainOffInSeg (next * stride)
        walkChain sums bytes seg segEnd pointerFormat stride imports fuel chainOffInSeg out

def walkSegmentChains (sums : Sums) (fuel : Nat) (image : FixupsImage)
    (imports : List DecodedImport) (fixupsEnd : Nat) (out : FixupMap) (started : Nat × Nat) :
    Option FixupMap := do
  let starts ← readRawStarts image.rawBytes started.1 fixupsEnd
  let seg ← image.segments[started.2]?
  let stride ← pointerStride starts.pointerFormat
  let segEnd ← sums.u64 seg.fileoff seg.filesize
  starts.chainOffsets.foldlM
    (fun out off => walkChain sums image.rawBytes seg segEnd starts.pointerFormat stride imports
      fuel off out) out

/-- `build_chained_fixup_map`. -/
def buildChainedFixupMap (sums : Sums) (fuel : Nat) (image : FixupsImage) : Option FixupMap := do
  let range ← image.chainedFixups
  let header ← readBlobHeader image.rawBytes range
  let imports ← decodeImports image.rawBytes header
  let offsets ← segInfoOffsets image.rawBytes header
  (startedAt header offsets).foldlM
    (walkSegmentChains sums fuel image imports header.stop) fun _ => none

/-- What is kept of an import of the view. -/
def DecodedImport.ofView (imp : ChainedImport) : DecodedImport :=
  ⟨imp.libOrdinal, imp.symbol, imp.addend⟩

end ObjCReader

/-! ## §5. The decoders agree. -/

namespace ObjCReader

theorem importFields_eq (bytes : List Byte) (importsFormat e : Nat) :
    importFields bytes importsFormat e
      = (FixupReader.importFields bytes importsFormat e).map fun fields =>
          (fields.1, fields.2.2.1, fields.2.2.2) := by
  unfold importFields FixupReader.importFields
  split
  · cases readLe 4 bytes e <;> rfl
  · cases readLe 4 bytes e with
    | none => rfl
    | some raw => cases readLe 4 bytes (e + 4) <;> rfl
  · cases readLe 4 bytes e with
    | none => rfl
    | some raw =>
      cases readLe 4 bytes (e + 4) with
      | none => rfl
      | some nameOffset => cases readLe 8 bytes (e + 8) <;> rfl
  · rfl

theorem decodeImports_eq (bytes : List Byte) (header : BlobHeader) :
    decodeImports bytes header
      = (FixupReader.decodeImports bytes header).map (List.map DecodedImport.ofView) := by
  unfold decodeImports FixupReader.decodeImports
  cases importEntrySize header.importsFormat with
  | none => rfl
  | some entrySize =>
    show (if header.importsFit entrySize then _ else none) = Option.map _ (if _ then _ else none)
    by_cases hfit : header.importsFit entrySize = true
    · rw [if_pos hfit, if_pos hfit]
      apply mapM_map_of_forall
      intro i _
      rw [importFields_eq]
      apply bind_map_of_forall rfl
      intro ⟨libOrdinal, weak, nameOffset, addend⟩ _
      dsimp only
      cases readCstr (header.symbolsPool bytes) nameOffset <;> rfl
    · rw [if_neg hfit, if_neg hfit]
      rfl

theorem getElem?_ofView (imports : List ChainedImport) (i : Nat) :
    (imports.map DecodedImport.ofView)[i]? = imports[i]?.map DecodedImport.ofView :=
  List.getElem?_map

/-- The target of a slot of the view, for the map. -/
def ofSlot (sums : Sums) (imports : List ChainedImport) (slot : FixupTarget × Nat) :
    Option (ResolvedTarget × Nat) :=
  (resolve sums imports slot.1).map fun target => (target, slot.2)

/-- A bind finds its import in both lists, or in neither. -/
theorem bind_eq (sums : Sums) (imports : List ChainedImport) (ordinal next : Nat) (addend : Int) :
    ((imports.map DecodedImport.ofView)[ordinal]?.bind fun imp =>
        (sums.i64 addend imp.addend).bind fun total =>
          some (ResolvedTarget.bind imp.libOrdinal imp.symbol total, next))
      = (if imports.length ≤ ordinal then none
          else some (FixupTarget.bind ordinal addend, next)).bind (ofSlot sums imports) := by
  rw [getElem?_ofView]
  by_cases hle : imports.length ≤ ordinal
  · rw [if_pos hle, List.getElem?_eq_none hle]
    rfl
  · rw [if_neg hle]
    have hget : imports[ordinal]? = some imports[ordinal] := List.getElem?_eq_getElem _
    rw [Option.bind_some, hget, Option.map_some, Option.bind_some]
    dsimp only [ofSlot, resolve]
    rw [hget]
    show (sums.i64 addend imports[ordinal].addend).bind _
      = Option.map _ ((sums.i64 addend imports[ordinal].addend).bind _)
    cases sums.i64 addend imports[ordinal].addend <;> rfl

theorem decode64_eq (sums : Sums) (raw : Nat) (imports : List ChainedImport) :
    decode64 sums raw (imports.map DecodedImport.ofView)
      = (FixupReader.decode64 raw imports.length).bind (ofSlot sums imports) := by
  unfold decode64 FixupReader.decode64
  by_cases hbind : raw / 2 ^ 63 % 2 = 1
  · rw [if_pos hbind, if_pos hbind]
    exact bind_eq sums imports _ _ _
  · rw [if_neg hbind, if_neg hbind]
    rfl

theorem decodeArm64e_eq (sums : Sums) (raw segBase : Nat) (imports : List ChainedImport)
    {pointerFormat : Nat} {format : PointerFormat}
    (hordinal : pointerFormat = 12 ↔ format = .arm64eUserland24)
    (hrelative : pointerFormat ∈ [9, 12, 7] ↔ format.isRelative = true) :
    decodeArm64e sums raw pointerFormat (imports.map DecodedImport.ofView) segBase
      = (FixupReader.decodeArm64e sums raw format imports.length segBase).bind
          (ofSlot sums imports) := by
  unfold decodeArm64e FixupReader.decodeArm64e
  simp only [hordinal, hrelative]
  by_cases hbind : raw / 2 ^ 62 % 2 = 1
  · rw [if_pos hbind, if_pos hbind]
    exact bind_eq sums imports _ _ _
  · rw [if_neg hbind, if_neg hbind]
    cases (if format.isRelative = true then sums.u64 segBase (raw % 2 ^ 36)
      else some (raw % 2 ^ 36)) <;> rfl

/-- Both decoders take a word apart alike. -/
theorem decodeChainedPointer_eq {sums : Sums} {raw pointerFormat segBase : Nat}
    {format : PointerFormat} {imports : List ChainedImport}
    (h : PointerFormat.fromRaw pointerFormat = some format) :
    decodeChainedPointer sums raw pointerFormat (imports.map DecodedImport.ofView) segBase
      = (FixupReader.decodeOne sums raw format imports.length segBase).bind
          (ofSlot sums imports) := by
  unfold PointerFormat.fromRaw at h
  split at h
  case h_7 => cases h
  all_goals cases h
  case h_2 | h_3 => exact decode64_eq sums raw imports
  all_goals exact decodeArm64e_eq sums raw segBase imports (by decide) (by decide)

end ObjCReader

/-! ## §6. Chains. -/

namespace FixupReader

variable {sums : Sums} {bytes : List Byte} {seg : MachOSegment} {segEnd : Nat}
  {format : PointerFormat} {importsCount : Nat}

/-- What a walk with fuel left has done. -/
theorem walkChain_cases {fuel off : Nat} {fs : List Fixup}
    (h : walkChain sums bytes seg segEnd format importsCount (fuel + 1) off = some fs) :
    ∃ vaddr fileOff slotEnd, sums.u64 seg.vmaddr off = some vaddr
      ∧ sums.u64 seg.fileoff off = some fileOff ∧ sums.u64 fileOff 8 = some slotEnd
      ∧ ((segEnd < slotEnd ∨ bytes.length < slotEnd) ∧ fs = []
        ∨ ¬ (segEnd < slotEnd ∨ bytes.length < slotEnd) ∧ ∃ raw target next,
          readLe 8 bytes fileOff = some raw
          ∧ decodeOne sums raw format importsCount seg.vmaddr = some (target, next)
          ∧ (next = 0 ∧ fs = [⟨vaddr, target⟩]
            ∨ next ≠ 0 ∧ ∃ off' rest, sums.u64 off (next * format.stride) = some off'
              ∧ walkChain sums bytes seg segEnd format importsCount fuel off' = some rest
              ∧ fs = ⟨vaddr, target⟩ :: rest)) := by
  obtain ⟨vaddr, hvaddr, h⟩ := Option.bind_eq_some_iff.mp h
  obtain ⟨fileOff, hfileOff, h⟩ := Option.bind_eq_some_iff.mp h
  obtain ⟨slotEnd, hslotEnd, h⟩ := Option.bind_eq_some_iff.mp h
  refine ⟨vaddr, fileOff, slotEnd, hvaddr, hfileOff, hslotEnd, ?_⟩
  by_cases hpast : segEnd < slotEnd ∨ bytes.length < slotEnd
  · rw [if_pos hpast] at h
    exact Or.inl ⟨hpast, (Option.some.inj h).symm⟩
  · rw [if_neg hpast] at h
    obtain ⟨raw, hraw, h⟩ := Option.bind_eq_some_iff.mp h
    obtain ⟨⟨target, next⟩, hslot, h⟩ := Option.bind_eq_some_iff.mp h
    refine Or.inr ⟨hpast, raw, target, next, hraw, hslot, ?_⟩
    dsimp only at h
    by_cases hnext : next = 0
    · rw [if_pos hnext] at h
      exact Or.inl ⟨hnext, (Option.some.inj h).symm⟩
    · rw [if_neg hnext] at h
      obtain ⟨off', hoff', h⟩ := Option.bind_eq_some_iff.mp h
      obtain ⟨rest, hrest, h⟩ := Option.bind_eq_some_iff.mp h
      exact Or.inr ⟨hnext, off', rest, hoff', hrest, (Option.some.inj h).symm⟩

/-- A slot as a walk finds it: its word is read where its address says. -/
def IsSlot (sums : Sums) (bytes : List Byte) (seg : MachOSegment) (format : PointerFormat)
    (importsCount : Nat) (f : Fixup) : Prop :=
  ∃ off fileOff raw next, sums.u64 seg.vmaddr off = some f.vaddr
    ∧ sums.u64 seg.fileoff off = some fileOff ∧ readLe 8 bytes fileOff = some raw
    ∧ decodeOne sums raw format importsCount seg.vmaddr = some (f.target, next)

/-- The address of a slot fixes its target. -/
theorem IsSlot.target_eq {f g : Fixup} (hf : IsSlot sums bytes seg format importsCount f)
    (hg : IsSlot sums bytes seg format importsCount g) (h : f.vaddr = g.vaddr) :
    f.target = g.target := by
  obtain ⟨off, fileOff, raw, next, hvaddr, hfileOff, hraw, hslot⟩ := hf
  obtain ⟨off', fileOff', raw', next', hvaddr', hfileOff', hraw', hslot'⟩ := hg
  -- the two offsets differ by a multiple of the range of a word, if at all
  have hfile : fileOff = fileOff' := by
    have h1 := Sums.eq_mod_of_u64 hvaddr
    have h2 := Sums.eq_mod_of_u64 hvaddr'
    rw [Sums.eq_mod_of_u64 hfileOff, Sums.eq_mod_of_u64 hfileOff']
    omega
  rw [hfile, hraw'] at hraw
  obtain rfl := Option.some.inj hraw
  rw [hslot'] at hslot
  exact (congrArg Prod.fst (Option.some.inj hslot)).symm

theorem walkChain_isSlot {fuel off : Nat} {fs : List Fixup}
    (h : walkChain sums bytes seg segEnd format importsCount fuel off = some fs) :
    ∀ f ∈ fs, IsSlot sums bytes seg format importsCount f := by
  induction fuel generalizing off fs with
  | zero => cases h
  | succ fuel ih =>
    obtain ⟨vaddr, fileOff, slotEnd, hvaddr, hfileOff, -, hend | ⟨-, raw, target, next, hraw,
      hslot, hlast | ⟨-, off', rest, -, hrest, hfs⟩⟩⟩ := walkChain_cases h
    · intro f hf
      rw [hend.2] at hf
      cases hf
    · intro f hf
      rw [hlast.2] at hf
      obtain rfl := List.mem_singleton.mp hf
      exact ⟨off, fileOff, raw, next, hvaddr, hfileOff, hraw, hslot⟩
    · intro f hf
      rw [hfs] at hf
      obtain rfl | hf := List.mem_cons.mp hf
      · exact ⟨off, fileOff, raw, next, hvaddr, hfileOff, hraw, hslot⟩
      · exact ih hrest f hf

end FixupReader

namespace ObjCReader

/-- The map takes up the slots of a chain in the order of the walk. -/
theorem walkChain_eq {sums : Sums} {bytes : List Byte} {seg : MachOSegment}
    {segEnd pointerFormat : Nat} {format : PointerFormat} {imports : List ChainedImport}
    (hformat : PointerFormat.fromRaw pointerFormat = some format) {fuel off : Nat}
    {fs : List Fixup} (out : FixupMap)
    (h : FixupReader.walkChain sums bytes seg segEnd format imports.length fuel off = some fs) :
    walkChain sums bytes seg segEnd pointerFormat format.stride
        (imports.map DecodedImport.ofView) fuel off out
      = insertAll sums imports out fs := by
  induction fuel generalizing off fs out with
  | zero => cases h
  | succ fuel ih =>
    obtain ⟨vaddr, fileOff, slotEnd, hvaddr, hfileOff, hslotEnd, hcase⟩ :=
      FixupReader.walkChain_cases h
    unfold walkChain
    rw [hvaddr, hfileOff]
    simp only [Option.bind_eq_bind, Option.bind_some, hslotEnd]
    obtain ⟨hpast, rfl⟩ | ⟨hpast, raw, target, next, hraw, hslot, hcase⟩ := hcase
    · rw [if_pos hpast]
      rfl
    · rw [if_neg hpast, hraw, Option.bind_some, decodeChainedPointer_eq hformat, hslot,
        Option.bind_some]
      have hstep : ∀ rest, insertAll sums imports out (⟨vaddr, target⟩ :: rest)
          = (resolve sums imports target).bind fun resolved =>
              insertAll sums imports (out.insert vaddr resolved) rest := by
        intro rest
        show (Option.map _ (resolve sums imports target)).bind _ = _
        rw [Option.bind_map]
        rfl
      unfold ofSlot
      obtain ⟨hnext, rfl⟩ | ⟨hnext, off', rest, hoff', hrest, rfl⟩ := hcase
      · rw [hstep]
        cases resolve sums imports target with
        | none => rfl
        | some resolved => exact if_pos hnext
      · rw [hstep]
        cases resolve sums imports target with
        | none => rfl
        | some resolved =>
          show (if next = 0 then _ else _) = _
          rw [if_neg hnext, hoff']
          exact ih (out.insert vaddr resolved) hrest

theorem pointerStride_eq {pointerFormat : Nat} {format : PointerFormat}
    (h : PointerFormat.fromRaw pointerFormat = some format) :
    pointerStride pointerFormat = some format.stride := by
  unfold PointerFormat.fromRaw at h
  split at h
  case h_7 => cases h
  all_goals
    cases h
    decide

end ObjCReader

/-! ## §7. The order of the slots. -/

theorem FixupMap.insert_comm (map : FixupMap) {a b : Nat} {s t : ResolvedTarget}
    (h : a = b → s = t) : (map.insert a s).insert b t = (map.insert b t).insert a s := by
  funext x
  unfold FixupMap.insert
  by_cases hb : x = b
  · by_cases ha : x = a
    · rw [if_pos hb, if_pos ha, h (ha.symm.trans hb)]
    · rw [if_pos hb, if_neg ha, if_pos hb]
  · rw [if_neg hb]
    by_cases ha : x = a
    · rw [if_pos ha, if_pos ha]
    · rw [if_neg ha, if_neg ha, if_neg hb]

/-- Slots whose address fixes their target can be inserted in any order. -/
theorem insertAll_perm {sums : Sums} {imports : List ChainedImport} {fs gs : List Fixup}
    (hperm : fs.Perm gs)
    (hfix : ∀ f ∈ fs, ∀ g ∈ fs, f.vaddr = g.vaddr → f.target = g.target) (out : FixupMap) :
    insertAll sums imports out fs = insertAll sums imports out gs := by
  unfold insertAll
  rw [List.foldlM_eq_foldl, List.foldlM_eq_foldl]
  apply hperm.foldl_eq'
  intro f hf g hg state
  cases state with
  | none => rfl
  | some map =>
    show ((insertResolved sums imports map f).bind fun out => insertResolved sums imports out g)
      = (insertResolved sums imports map g).bind fun out => insertResolved sums imports out f
    unfold insertResolved
    by_cases haddr : f.vaddr = g.vaddr
    · rw [hfix f hf g hg haddr, haddr]
    · cases resolve sums imports f.target with
      | none => cases resolve sums imports g.target <;> rfl
      | some s =>
        cases resolve sums imports g.target with
        | none => rfl
        | some t => exact congrArg some (map.insert_comm fun h => absurd h haddr)

/-! ## §8. Segments. -/

namespace FixupReader

variable {sums : Sums} {fuel : Nat} {image : FixupsImage}

/-- What the walk of a segment has read, and the slots it has found. -/
theorem walkOneSegment_cases {importsCount fixupsEnd : Nat} {started : Nat × Nat}
    {walked : PointerFormat × SegmentFixups}
    (h : walkOneSegment sums fuel image importsCount fixupsEnd started = some walked) :
    ∃ starts format seg segEnd chains, readRawStarts image.rawBytes started.1 fixupsEnd = some starts
      ∧ PointerFormat.fromRaw starts.pointerFormat = some format
      ∧ image.segments[started.2]? = some seg ∧ sums.u64 seg.fileoff seg.filesize = some segEnd
      ∧ starts.chainOffsets.mapM
          (walkChain sums image.rawBytes seg segEnd format importsCount fuel) = some chains
      ∧ walked.2.fixups = sortByVaddr chains.flatten
      ∧ ∀ f ∈ chains.flatten, IsSlot sums image.rawBytes seg format importsCount f := by
  obtain ⟨starts, hstarts, h⟩ := Option.bind_eq_some_iff.mp h
  obtain ⟨format, hformat, h⟩ := Option.bind_eq_some_iff.mp h
  obtain ⟨seg, hseg, h⟩ := Option.bind_eq_some_iff.mp h
  obtain ⟨segEnd, hsegEnd, h⟩ := Option.bind_eq_some_iff.mp h
  obtain ⟨chains, hchains, h⟩ := Option.bind_eq_some_iff.mp h
  obtain rfl := Option.some.inj h
  refine ⟨starts, format, seg, segEnd, chains, hstarts, hformat, hseg, hsegEnd, hchains, rfl, ?_⟩
  intro f hf
  obtain ⟨chain, hchain, hf⟩ := List.mem_flatten.mp hf
  obtain ⟨off, -, hwalk⟩ := exists_of_mem_mapM hchains hchain
  exact walkChain_isSlot hwalk f hf

/-- A bind of the view names one of its imports. -/
theorem index_lt {sums : Sums} {raw importsCount segBase importIndex next : Nat}
    {format : PointerFormat} {addend : Int}
    (h : decodeOne sums raw format importsCount segBase
      = some (.bind importIndex addend, next)) : importIndex < importsCount := by
  have h64 : ∀ h : decode64 raw importsCount = some (.bind importIndex addend, next),
      importIndex < importsCount := by
    intro h
    unfold decode64 at h
    split at h
    · obtain ⟨hlt, h⟩ := Option.ite_none_left_eq_some.mp h
      cases h
      omega
    · cases h
  have harm : ∀ h : decodeArm64e sums raw format importsCount segBase
      = some (.bind importIndex addend, next), importIndex < importsCount := by
    intro h
    unfold decodeArm64e at h
    split at h
    · obtain ⟨hlt, h⟩ := Option.ite_none_left_eq_some.mp h
      cases h
      omega
    · obtain ⟨_, -, h⟩ := Option.map_eq_some_iff.mp h
      cases h
  unfold decodeOne at h
  split at h
  · exact h64 h
  · exact h64 h
  all_goals exact harm h

theorem index_lt_of_mem {importsCount fixupsEnd : Nat} {started : Nat × Nat}
    {walked : PointerFormat × SegmentFixups}
    (h : walkOneSegment sums fuel image importsCount fixupsEnd started = some walked) {f : Fixup}
    (hf : f ∈ walked.2.fixups) {i : Nat} {addend : Int} (htarget : f.target = .bind i addend) :
    i < importsCount := by
  obtain ⟨_, _, _, _, chains, -, -, -, -, -, hfixups, hslots⟩ := walkOneSegment_cases h
  rw [hfixups] at hf
  obtain ⟨_, _, _, next, -, -, -, hslot⟩ := hslots f ((List.mem_insertionSort _).mp hf)
  rw [htarget] at hslot
  exact index_lt hslot

/-- What the reader has read, and the view it makes of it. -/
theorem read_cases {cf : EditableFixups} (h : read sums fuel image = some cf) :
    ∃ range header imports offsets walked, image.chainedFixups = some range
      ∧ readBlobHeader image.rawBytes range = some header
      ∧ decodeImports image.rawBytes header = some imports
      ∧ segInfoOffsets image.rawBytes header = some offsets
      ∧ (startedAt header offsets).mapM
          (walkOneSegment sums fuel image imports.length header.stop) = some walked
      ∧ cf.imports = imports ∧ cf.segments = walked.map Prod.snd := by
  obtain ⟨range, hrange, h⟩ := Option.bind_eq_some_iff.mp h
  obtain ⟨header, hheader, h⟩ := Option.bind_eq_some_iff.mp h
  obtain ⟨imports, himports, h⟩ := Option.bind_eq_some_iff.mp h
  obtain ⟨offsets, hoffsets, h⟩ := Option.bind_eq_some_iff.mp h
  obtain ⟨walked, hwalked, h⟩ := Option.bind_eq_some_iff.mp h
  refine ⟨range, header, imports, offsets, walked, hrange, hheader, himports, hoffsets, hwalked,
    ?_⟩
  split at h
  · cases h
  · obtain ⟨-, h⟩ := Option.ite_none_left_eq_some.mp h
    cases h
    exact ⟨rfl, rfl⟩

end FixupReader

/-- With wrapping sums every slot of the view resolves. -/
theorem insertAll_wrapping {imports : List ChainedImport} {fs : List Fixup} (out : FixupMap)
    (h : ∀ f ∈ fs, ∀ i addend, f.target = .bind i addend → i < imports.length) :
    ∃ map, insertAll .wrapping imports out fs = some map := by
  induction fs generalizing out with
  | nil => exact ⟨out, rfl⟩
  | cons f fs ih =>
    have hf : ∃ target, resolve .wrapping imports f.target = some target := by
      cases htarget : f.target with
      | rebase targetVaddr => exact ⟨.rebase targetVaddr, rfl⟩
      | bind i addend =>
        have hlt := h f List.mem_cons_self i addend htarget
        dsimp only [resolve]
        rw [List.getElem?_eq_getElem hlt]
        exact ⟨_, rfl⟩
    obtain ⟨target, htarget⟩ := hf
    obtain ⟨map, hmap⟩ := ih (out.insert f.vaddr target) fun g hg =>
      h g (List.mem_cons_of_mem _ hg)
    refine ⟨map, ?_⟩
    show (Option.map _ (resolve .wrapping imports f.target)).bind _ = _
    rw [htarget]
    exact hmap

/-- The other reader inserts the same slots, in the order of the walk. -/
theorem ObjCReader.walkSegmentChains_eq {sums : Sums} {fuel : Nat} {image : FixupsImage}
    {imports : List ChainedImport} {fixupsEnd : Nat} {started : Nat × Nat}
    {walked : PointerFormat × SegmentFixups} (out : FixupMap)
    (h : FixupReader.walkOneSegment sums fuel image imports.length fixupsEnd started
      = some walked) :
    walkSegmentChains sums fuel image (imports.map DecodedImport.ofView) fixupsEnd out started
      = insertAll sums imports out walked.2.fixups := by
  obtain ⟨starts, format, seg, segEnd, chains, hstarts, hformat, hseg, hsegEnd, hchains, hfixups,
    hslots⟩ := FixupReader.walkOneSegment_cases h
  have hwalk : starts.chainOffsets.foldlM
      (fun out off => walkChain sums image.rawBytes seg segEnd starts.pointerFormat format.stride
        (imports.map DecodedImport.ofView) fuel off out) out
      = insertAll sums imports out chains.flatten := by
    unfold insertAll
    rw [foldlM_flatten]
    exact foldlM_of_mapM hchains (fun off chain out hchain => walkChain_eq hformat out hchain) out
  have hsorted : insertAll sums imports out chains.flatten
      = insertAll sums imports out (sortByVaddr chains.flatten) :=
    insertAll_perm (List.perm_insertionSort _ _).symm
      (fun f hf g hg haddr => (hslots f hf).target_eq (hslots g hg) haddr) out
  unfold walkSegmentChains
  rw [hstarts, hfixups]
  show (image.segments[started.2]?.bind fun seg => _) = _
  rw [hseg]
  show ((pointerStride starts.pointerFormat).bind fun stride => _) = _
  rw [pointerStride_eq hformat]
  show ((sums.u64 seg.fileoff seg.filesize).bind fun segEnd => _) = _
  rw [hsegEnd]
  exact hwalk.trans hsorted

/-! ## §9. The readers agree. -/

theorem EditableFixups.toMapWith_wrapping {fuel : Nat} {image : FixupsImage} {cf : EditableFixups}
    (h : FixupReader.read .wrapping fuel image = some cf) :
    ∃ map, cf.toMapWith .wrapping = some map := by
  obtain ⟨_, _, imports, _, walked, -, -, -, -, hwalked, himports, hsegments⟩ :=
    FixupReader.read_cases h
  have hseg : ∀ seg ∈ cf.segments, ∀ out,
      ∃ map, insertAll .wrapping cf.imports out seg.fixups = some map := by
    intro seg hmem out
    rw [hsegments] at hmem
    obtain ⟨w, hw, rfl⟩ := List.mem_map.mp hmem
    obtain ⟨started, -, hwalk⟩ := exists_of_mem_mapM hwalked hw
    apply insertAll_wrapping
    intro f hf i addend htarget
    rw [himports]
    exact FixupReader.index_lt_of_mem hwalk hf htarget
  unfold EditableFixups.toMapWith
  generalize (fun _ => none : FixupMap) = out
  generalize cf.segments = segments at hseg ⊢
  induction segments generalizing out with
  | nil => exact ⟨out, rfl⟩
  | cons seg segments ih =>
    obtain ⟨map, hmap⟩ := hseg seg List.mem_cons_self out
    rw [List.foldlM_cons, hmap]
    exact ih map fun seg hmem => hseg seg (List.mem_cons_of_mem _ hmem)

/-- An image of one import, one page and two slots: a bind, and eight bytes on a
rebase. -/
def twoSlotImage : FixupsImage where
  rawBytes :=
    leBytes 4 0 ++ leBytes 4 32 ++ leBytes 4 64 ++ leBytes 4 68 ++ leBytes 4 1 ++ leBytes 4 1
      ++ leBytes 8 0
      ++ leBytes 4 1 ++ leBytes 4 8
      ++ leBytes 4 24 ++ leBytes 2 0x1000 ++ leBytes 2 2 ++ leBytes 8 0 ++ leBytes 4 0
      ++ leBytes 2 1 ++ leBytes 2 0
      ++ leBytes 4 1 ++ [0x5f, 0x66, 0x00, 0x00]
      ++ leBytes 8 (2 ^ 63 + 2 * 2 ^ 51 + 5 * 2 ^ 24) ++ leBytes 8 0x1000
  chainedFixups := some ⟨0, 72⟩
  segments := [⟨"__DATA", 0x4000, 16, 72, 16⟩]

/-- The view of that image. -/
def twoSlotView : EditableFixups where
  pointerFormat := .ptr64
  imports := [⟨1, "_f", 0, false⟩]
  segments := [⟨0, 0x1000, [⟨0x4000, .bind 0 5⟩, ⟨0x4008, .rebase 0x1000⟩]⟩]
  onDiskImportsFormat := 1
  originalImportsBytes := leBytes 4 1 ++ [0x5f, 0x66, 0x00, 0x00]
  originalImports := [⟨1, "_f", 0, false⟩]

end Armv8Encode.MachO

/-
  Armv8Encode.Rewrite.ElfEditor.Commit — from queued edits to an ELF file.

  A commit pads the code to a page when data will follow it, packs the
  rebuilt dynamic sections after it, and hands the segment to the writer.
  The three routines that extend the segment only append to it; each one
  stages the `.dynamic` entries that point the loader at what it packed.

  The hash table for exported names is built by `buildGnuHash`, a parameter:
  nothing here depends on its contents.
-/
import Armv8Encode.Rewrite.ElfEditor.State
import Armv8Encode.Container.Elf.Write
import Armv8Encode.Lib.Maps

namespace Armv8Encode.Elf

open Lib

/-! ## §1. Encodings. -/

def dtNull : Nat := 0
def dtNeeded : Nat := 1
def dtStrtab : Nat := 5
def dtSymtab : Nat := 6
def dtStrsz : Nat := 10
def dtInitArray : Nat := 25
def dtInitArraysz : Nat := 27
def dtGnuHash : Nat := 0x6ffffef5
def dtVersym : Nat := 0x6ffffff0
def dtRelacount : Nat := 0x6ffffff9
def ptDynamic : Nat := 2

def encodeRela (r : Rela) : List Byte :=
  leBytes 8 r.rOffset ++ leBytes 8 r.rInfo ++ leBytes 8 r.rAddend

def encodeRelas (entries : List Rela) : List Byte := entries.flatMap encodeRela

theorem encodeRelas_length (entries : List Rela) :
    (encodeRelas entries).length = entries.length * 24 := by
  induction entries with
  | nil => rfl
  | cons r entries ih =>
    have hone : (encodeRela r).length = 24 := by simp [encodeRela]
    rw [encodeRelas, List.flatMap_cons, List.length_append, hone, List.length_cons]
    rw [encodeRelas] at ih
    omega

def dynamicEntrySize (is64 : Bool) : Nat := if is64 then 16 else 8

def encodeDynamic (is64 : Bool) (entries : List DynamicEntry) : List Byte :=
  entries.flatMap fun e =>
    leBytes (dynamicEntrySize is64 / 2) e.tag ++ leBytes (dynamicEntrySize is64 / 2) e.value

/-- A string and its terminator. -/
def cString (s : String) : List Byte :=
  s.toUTF8.toList.map (fun b => BitVec.ofNat 8 b.toNat) ++ [0]

/-! ## §2. `.dynamic` entries. -/

/-- Entries whose tag is updated take the new value; the others stay. -/
def updateDynamicTags (source : List DynamicEntry) (updates : List (Nat × Nat)) :
    List DynamicEntry :=
  source.map fun e =>
    match lastWins updates e.tag with
    | some value => ⟨e.tag, value⟩
    | none => e

/-- New entries before a single terminator; what followed the old one is dropped. -/
def insertDynamicTagsGrowing (source : List DynamicEntry) (additions : List (Nat × Nat)) :
    List DynamicEntry :=
  source.takeWhile (fun e => e.tag != dtNull) ++ additions.map (fun a => ⟨a.1, a.2⟩)
    ++ [⟨dtNull, 0⟩]

def findDynamic (entries : List DynamicEntry) (tag : Nat) : Option Nat :=
  (entries.find? fun e => e.tag == tag).map DynamicEntry.value

/-! ## §3. Extending the segment. -/

/-- A payload at the next alignment: the longer segment and the payload's address. -/
def pack (segment : List Byte) (segmentVaddr : Nat) (payload : List Byte) (align : Nat) :
    List Byte × Nat :=
  (padTo segment align ++ payload, segmentVaddr + (padTo segment align).length)

/-- The dynamic string and symbol tables as exports are added. -/
structure DynamicTables where
  dynsym : List Byte
  dynstr : List Byte
  versym : List Byte

/-- One export: its name, a global function symbol, the base version. -/
def pushExport (t : DynamicTables) (e : ExportedSymbol) : DynamicTables where
  dynstr := t.dynstr ++ cString e.name
  dynsym := t.dynsym ++ leBytes 4 t.dynstr.length ++ [0x12, 0] ++ leBytes 2 0
    ++ leBytes 8 e.vaddr ++ leBytes 8 e.size
  versym := t.versym ++ leBytes 2 1

/-- The string table with one more name, and the names' offsets so far. -/
def pushDependency (r : List Byte × List Nat) (name : String) : List Byte × List Nat :=
  (r.1 ++ cString name, r.2 ++ [r.1.length])

/-- The rebuilt tables after the segment, and the tags to update.  Without exports
only the string table is rebuilt. -/
def packTables (buildGnuHash : List Byte → List Byte → Nat → List Byte) (src : Source)
    (segmentVaddr : Nat) (existing : List Byte) (exported : Bool) (t : DynamicTables)
    (dynstr : List Byte) : Option (List Byte × List (Nat × Nat)) :=
  if !exported then
    let strs := pack existing segmentVaddr dynstr 1
    some (strs.1, [(dtStrtab, strs.2), (dtStrsz, dynstr.length)])
  else
    match src.gnuHash with
    | none => none
    | some hash =>
      if hash.length < 16 then none
      else
        let symbolBase := leValue ((hash.drop 4).take 4)
        let syms := pack existing segmentVaddr t.dynsym 8
        let strs := pack syms.1 segmentVaddr dynstr 1
        let vers := pack strs.1 segmentVaddr t.versym 2
        let hashes := pack vers.1 segmentVaddr (buildGnuHash t.dynsym dynstr symbolBase) 8
        some (hashes.1, [(dtSymtab, syms.2), (dtStrtab, strs.2), (dtStrsz, dynstr.length),
          (dtGnuHash, hashes.2), (dtVersym, vers.2)])

/-- The segment with rebuilt tables, and `.dynamic` pointing at them. -/
def extendSegmentForExports (buildGnuHash : List Byte → List Byte → Nat → List Byte)
    (src : Source) (segmentVaddr : Nat) (existing : List Byte) (exports : List ExportedSymbol)
    (deps : List String) : Option (List Byte × List DynamicEntry) :=
  match src.dynsym, src.dynstr, src.gnuVersym with
  | some dynsym, some dynstr, some versym =>
    if dynsym.length % 24 ≠ 0 then none
    else
      let t := exports.foldl pushExport ⟨dynsym, dynstr, versym⟩
      let d := deps.foldl pushDependency (t.dynstr, [])
      match packTables buildGnuHash src segmentVaddr existing (!exports.isEmpty) t d.1 with
      | none => none
      | some packed =>
        let entries := updateDynamicTags src.dynamic packed.2
        let entries :=
          if d.2.isEmpty then entries
          else insertDynamicTagsGrowing entries (d.2.map fun offset => (dtNeeded, offset))
        if (src.sectionNamed ".dynamic").isNone then none else some (packed.1, entries)
  | _, _, _ => none

/-- An entry for a slot of the old array, moved with the array. -/
def translateRela (oldVaddr oldLength newVaddr : Nat) (r : Rela) : Rela :=
  if 0 < oldLength ∧ oldVaddr ≤ r.rOffset ∧ r.rOffset < oldVaddr + oldLength then
    { r with rOffset := newVaddr + (r.rOffset - oldVaddr) }
  else r

/-- Entries for the new slots, in the order of the calls. -/
def newRelatives (firstSlot : Nat) (slots : List Nat) : List Rela :=
  slots.zipIdx.map fun s => ⟨firstSlot + s.2 * 8, rAarch64Relative, s.1⟩

/-- Number of leading entries that the loader takes to be relative. -/
def Source.relacount (src : Source) : Option Nat := findDynamic src.dynamic dtRelacount

/-- The rebuilt `.rela.dyn`: the new entries go where the relative ones end. -/
def rebuiltRelaDyn (src : Source) (original : List Rela) (newInitArray : Nat)
    (slots : List Nat) : List Rela :=
  let init := src.initArray
  let decoded := original.map (translateRela init.2 init.1.length newInitArray)
  let relative := src.relacount.getD decoded.length
  decoded.take relative ++ newRelatives (newInitArray + init.1.length) slots
    ++ decoded.drop relative

/-- The segment with a longer `.init_array` and its `.rela.dyn`, and `.dynamic`
pointing at them. -/
def extendSegmentForAppendedInitSlots (src : Source) (segmentVaddr : Nat)
    (existing : List Byte) (slots : List Nat) (relaOverride : Option (List Rela))
    (dynamicOverride : Option (List DynamicEntry)) :
    Option (List Byte × List DynamicEntry) :=
  match src.relaDyn with
  | none => none
  | some source =>
    let init := src.initArray
    let initArray := init.1 ++ List.replicate (slots.length * 8) 0
    let packedInit := pack existing segmentVaddr initArray 8
    let relaDyn := rebuiltRelaDyn src (relaOverride.getD source) packedInit.2 slots
    let packedRela := pack packedInit.1 segmentVaddr (encodeRelas relaDyn) 8
    let starting := dynamicOverride.getD src.dynamic
    let updated := updateDynamicTags starting
      [(dtRela, packedRela.2), (dtRelasz, (encodeRelas relaDyn).length),
        (dtRelacount, src.relacount.getD 0 + slots.length), (dtInitArray, packedInit.2),
        (dtInitArraysz, initArray.length)]
    let entries :=
      if starting.any fun e => e.tag == dtInitArray then updated
      else insertDynamicTagsGrowing updated
        [(dtInitArray, packedInit.2), (dtInitArraysz, initArray.length)]
    if (src.sectionNamed ".dynamic").isNone then none else some (packedRela.1, entries)

/-- Spare terminators in a relocated `.dynamic`. -/
def headroomNullSlots : Nat := 32

/-- The relocated entries: what precedes the terminator, then the spare ones. -/
def grownDynamic (entries : List DynamicEntry) : List DynamicEntry :=
  entries.takeWhile (fun e => e.tag != dtNull)
    ++ List.replicate (headroomNullSlots + 1) ⟨dtNull, 0⟩

/-- The first `PT_DYNAMIC`, re-aimed; none where there is none. -/
def patchPtDynamic (vaddr size : Nat) : List ProgramHeader → Option (List ProgramHeader)
  | [] => none
  | p :: rest =>
    if p.pType = ptDynamic then
      some ({ p with
          pVaddr := vaddr, pPaddr := vaddr, pMemsz := size, pFilesz := size, pOffset := 0 }
        :: rest)
    else (patchPtDynamic vaddr size rest).map (p :: ·)

/-- What a commit has staged when the segment is complete. -/
structure Finalized where
  segment : List Byte
  image : Image
  /-- Contents of `.dynamic` where it stands. -/
  dynamicInPlace : Option (List Byte)

/-- A `.dynamic` that outgrew its section moves into the segment. -/
def finalizeDynamic (src : Source) (segmentVaddr : Nat) (existing : List Byte)
    (dynamicOverride : Option (List DynamicEntry)) : Option Finalized :=
  match src.sectionNamed ".dynamic", dynamicOverride with
  | some (_, s), some entries =>
    let is64 := src.container.is64
    let staged := encodeDynamic is64 entries
    if staged.length ≤ s.bytes.length then
      some ⟨existing, src.image,
        some (staged ++ List.replicate (s.bytes.length - staged.length) 0)⟩
    else
      let relocated := encodeDynamic is64 (grownDynamic entries)
      let packed := pack existing segmentVaddr relocated 8
      (patchPtDynamic packed.2 relocated.length src.image.programHeaders).map fun phdrs =>
        ⟨packed.1, { src.image with programHeaders := phdrs }, none⟩
  | _, _ => some ⟨existing, src.image, none⟩

/-! ## §4. The commit. -/

/-- Code filled up to a page, so that data after it starts on one. -/
def padCode (bytes : List Byte) : List Byte :=
  let pad := maskUp bytes.length appendPageAlign - bytes.length
  bytes ++ (List.replicate (pad / 4) (nopPattern .aarch64)).flatten
    ++ List.replicate (pad % 4) 0

namespace BinaryState

variable (st : BinaryState)

/-- Library names and writable data need the appended writer, so they open an
empty code region. -/
def openedForCommit : Option AppendedState :=
  match st.appended with
  | some a => some a
  | none =>
    if !st.pendingLibraryDeps.isEmpty || st.appendedWritable.isSome then some st.codeRegion
    else none

def needsSplit (a : AppendedState) : Bool :=
  !a.bytes.isEmpty && (!a.exports.isEmpty || !st.pendingLibraryDeps.isEmpty
    || !st.pendingAppendedInitSlots.isEmpty)

/-- The code as it is written. -/
def committedCode (a : AppendedState) : List Byte :=
  if st.needsSplit a then padCode a.bytes else a.bytes

/-- Staged contents of a section, by its index. -/
def overrides (f : Finalized) (i : Nat) : Option (List Byte) :=
  if (st.source.sectionNamed ".dynamic").map Prod.fst = some i ∧ f.dynamicInPlace.isSome then
    f.dynamicInPlace
  else if (st.source.sectionNamed ".rela.dyn").map Prod.fst = some i
      ∧ st.pendingAppendedInitSlots.isEmpty then
    st.relaOverrides.getLast?.map encodeRelas
  else none

/-- The segment once exports and library names are in it, with the staged
`.dynamic`, if there are any. -/
def exportedSegment (buildGnuHash : List Byte → List Byte → Nat → List Byte)
    (a : AppendedState) : Option (List Byte × Option (List DynamicEntry)) :=
  let code := st.committedCode a
  if a.exports.isEmpty && st.pendingLibraryDeps.isEmpty then some (code, none)
  else
    (extendSegmentForExports buildGnuHash st.source a.segmentVaddr code a.exports
      st.pendingLibraryDeps).map fun r => (r.1, some r.2)

/-- The segment once the new initialiser slots are in it too. -/
def initialisedSegment (a : AppendedState)
    (exported : List Byte × Option (List DynamicEntry)) :
    Option (List Byte × Option (List DynamicEntry)) :=
  if st.pendingAppendedInitSlots.isEmpty then some exported
  else
    (extendSegmentForAppendedInitSlots st.source a.segmentVaddr exported.1
      st.pendingAppendedInitSlots st.relaOverrides.getLast? exported.2).map
      fun r => (r.1, some r.2)

/-- The segment's bytes, image and staged sections, from the code on. -/
def finalizeSegment (buildGnuHash : List Byte → List Byte → Nat → List Byte)
    (a : AppendedState) : Option Finalized := do
  let exported ← st.exportedSegment buildGnuHash a
  let initialised ← st.initialisedSegment a exported
  finalizeDynamic st.source a.segmentVaddr initialised.1 initialised.2

/-- The segment as the writer takes it. -/
def committedSegment (a : AppendedState) (f : Finalized) : AppendedSegment :=
  let code := st.committedCode a
  let segment : AppendedSegment :=
    { AppendedSegment.new a.segmentVaddr f.segment a.aligned with sectionName := st.codeName }
  if a.exports.isEmpty && code.isEmpty && st.pendingAppendedInitSlots.isEmpty then
    { segment with pFlags := pfR + pfW }
  else if 0 < code.length ∧ code.length < f.segment.length then
    { segment with codeLen := code.length }
  else { segment with pFlags := pfR + pfX }

def committedWritable : Option WritableSegment :=
  st.appendedWritable.map fun w => ⟨w.segmentVaddr, w.bytes, st.writableName, w.aligned⟩

def commit (strtab : List String → List Byte)
    (buildGnuHash : List Byte → List Byte → Nat → List Byte)
    (stub : Section → Nat → Nat → Option (List Byte)) : Option Writer :=
  match st.openedForCommit with
  | none => write strtab stub st.source.container
  | some a =>
    match st.finalizeSegment buildGnuHash a with
    | none => none
    | some f =>
      writeWithAppendedSegmentInner strtab st.source.container f.image (st.committedSegment a f)
        (st.overrides f) st.committedWritable

end BinaryState

end Armv8Encode.Elf

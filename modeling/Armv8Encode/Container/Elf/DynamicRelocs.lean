/-
  Armv8Encode.Container.Elf.DynamicRelocs — the bytes the loader writes.

  The entries of `.rela.dyn` and `.rela.plt` name slots that the dynamic loader
  overwrites.  Their ranges are sorted and merged, and a section is encrypted in
  the chunks between them.

    • `absorb_merges` — merging keeps the covered bytes as long as the
      loader writes no 2^32 bytes in a row,
    • `absorb_loses` — otherwise the length of a merged range is cut to 32 bits
      and a byte is lost,
    • `encryptChunks_cutsOut` — the chunks are what the spans leave.
-/
import Armv8Encode.Container.Elf.Image
import Armv8Encode.Lib.Bytes
import Armv8Encode.Lib.Intervals

namespace Armv8Encode.Elf

open Lib

/-! ## §1. Reading the relocations. -/

def dtPltrelsz : Nat := 2
def dtPltrel : Nat := 20
def dtJmprel : Nat := 23

/-- A range of bytes of the file that the loader writes.  The length is a
32-bit field. -/
structure RelocSpan where
  fileOffset : Nat
  len : BitVec 32
  deriving Repr, DecidableEq

namespace RelocSpan

/-- The end of a span, a 64-bit sum that does not wrap inside a file. -/
def stop (s : RelocSpan) : Nat := s.fileOffset + s.len.toNat

def range (s : RelocSpan) : Nat × Nat := (s.fileOffset, s.stop)

end RelocSpan

/-- A relocation whose width is not known. -/
structure UnhandledReloc where
  rType : Nat
  rOffset : Nat
  deriving Repr, DecidableEq

structure SkipReport where
  spans : List RelocSpan
  unhandled : List UnhandledReloc
  deriving Repr, DecidableEq

/-- The bytes a relocation of a type writes. -/
def relocWriteSize (rType : Nat) : Option (BitVec 32) :=
  match rType with
  -- ABS64, GLOB_DAT, JUMP_SLOT, RELATIVE, TLS_TPREL, TLSDESC, IRELATIVE
  | 257 | 1025 | 1026 | 1027 | 1030 | 1031 | 1032 => some 8
  -- ABS32, PREL32
  | 258 | 261 => some 4
  | _ => none

/-- Resolve a virtual address through the loaded segments. -/
def vaddrToFileOffset (programHeaders : List ProgramHeader) (vaddr : Nat) : Option Nat :=
  (programHeaders.find? fun p =>
    p.pType == ptLoad && decide (p.pVaddr ≤ vaddr) && decide (vaddr < p.pVaddr + p.pFilesz)).map
      fun p => p.pOffset + (vaddr - p.pVaddr)

/-- One entry of a relocation table: 24 bytes, the offset first. -/
def decodeEntry (programHeaders : List ProgramHeader) (entry : List Byte) (out : SkipReport) :
    SkipReport :=
  let rOffset := leValue (slice entry 0 8)
  let rType := leValue (slice entry 8 8) % 2 ^ 32
  match relocWriteSize rType with
  | none => { out with unhandled := out.unhandled ++ [⟨rType, rOffset⟩] }
  | some len =>
    match vaddrToFileOffset programHeaders rOffset with
    | none => out
    | some fileOffset => { out with spans := out.spans ++ [⟨fileOffset, len⟩] }

/-- A block of whole entries that lies inside the file. -/
def decodeBlock (programHeaders : List ProgramHeader) (rawBytes : List Byte)
    (blockVaddr blockSize : Nat) (out : SkipReport) : SkipReport :=
  if blockSize = 0 ∨ blockSize % 24 ≠ 0 then out
  else
    match vaddrToFileOffset programHeaders blockVaddr with
    | none => out
    | some start =>
      if rawBytes.length < start + blockSize then out
      else
        (List.range (blockSize / 24)).foldl
          (fun out i => decodeEntry programHeaders (slice rawBytes (start + i * 24) 24) out) out

/-- Take in the ranges that start at or before the end of the last one. -/
def absorb (last : RelocSpan) : List RelocSpan → List RelocSpan
  | [] => [last]
  | s :: rest =>
    if s.fileOffset ≤ last.stop then
      -- the new length is cast to 32 bits
      absorb ⟨last.fileOffset, BitVec.ofNat 32 (max s.stop last.stop - last.fileOffset)⟩ rest
    else last :: absorb s rest

def mergeAdjacent : List RelocSpan → List RelocSpan
  | [] => []
  | first :: rest => absorb first rest

/-- Sort the ranges that are written and merge them. -/
def skipSpans (writes : List RelocSpan) : List RelocSpan :=
  mergeAdjacent (writes.mergeSort fun a b => decide (a.fileOffset ≤ b.fileOffset))

/-- The last value of a dynamic tag, tags taken by their low 32 bits. -/
def dynamicTag (dynamic : List (Nat × Nat)) (tag : Nat) : Option Nat :=
  (dynamic.reverse.find? fun e => e.1 % 2 ^ 32 == tag).map Prod.snd

/-- Both relocation tables, one after the other. -/
def decodeTables (programHeaders : List ProgramHeader) (dynamic : List (Nat × Nat))
    (rawBytes : List Byte) : SkipReport :=
  let rela :=
    match dynamicTag dynamic dtRela, dynamicTag dynamic dtRelasz with
    | some va, some size => decodeBlock programHeaders rawBytes va size ⟨[], []⟩
    | _, _ => ⟨[], []⟩
  -- the second table is read unless its entries are said to have no addend
  let pltrelIsRela := ((dynamicTag dynamic dtPltrel).map (· % 2 ^ 32)).getD dtRela == dtRela
  match pltrelIsRela, dynamicTag dynamic dtJmprel, dynamicTag dynamic dtPltrelsz with
  | true, some va, some size => decodeBlock programHeaders rawBytes va size rela
  | _, _, _ => rela

/-- The report on an image, given as its program headers and its dynamic tags
and values. -/
def collectSkipSpans (image : Option (List ProgramHeader × List (Nat × Nat)))
    (rawBytes : List Byte) : SkipReport :=
  match image with
  | none => ⟨[], []⟩
  | some (programHeaders, dynamic) =>
    let report := decodeTables programHeaders dynamic rawBytes
    { report with spans := skipSpans report.spans }

/-! ## §2. The chunks between the spans. -/

/-- Whether a range meets a span. -/
def rangeOverlaps (spans : List RelocSpan) (fileOffset len : Nat) : Bool :=
  spans.any fun s => decide (s.fileOffset < fileOffset + len) && decide (fileOffset < s.stop)

/-- The number of elements a partitioned list starts with that meet a condition. -/
def partitionPoint (p : RelocSpan → Bool) (spans : List RelocSpan) : Nat :=
  (spans.takeWhile p).length

/-- The chunks from the cursor on, each as its start and length. -/
def chunksFrom (rangeEnd : Nat) : Nat → List RelocSpan → List (Nat × Nat)
  | cursor, [] => if rangeEnd ≤ cursor then [] else [(cursor, rangeEnd - cursor)]
  | cursor, s :: rest =>
    if rangeEnd ≤ cursor then []
    else if cursor < s.fileOffset then
      let chunkEnd := min s.fileOffset rangeEnd
      (cursor, chunkEnd - cursor) :: chunksFrom rangeEnd (max (min s.stop rangeEnd) chunkEnd) rest
    else
      -- the span starts at or before the cursor
      chunksFrom rangeEnd (max s.stop cursor) rest

/-- The chunks of a range that no span covers; none when the two cut points
are the wrong way round, where the slice of the spans is out of bounds. -/
def encryptChunks (spans : List RelocSpan) (rangeStart rangeEnd : Nat) :
    Option (List (Nat × Nat)) :=
  let first := partitionPoint (fun s => decide (s.stop ≤ rangeStart)) spans
  let last := partitionPoint (fun s => decide (s.fileOffset < rangeEnd)) spans
  if first ≤ last then
    some (chunksFrom rangeEnd rangeStart ((spans.take last).drop first))
  else none

/-! ## §3. Merging. -/

/-- The bytes that spans cover. -/
abbrev spanBytes (spans : List RelocSpan) : Set Nat := covered (spans.map RelocSpan.range)

theorem mem_spanBytes {spans : List RelocSpan} {x : Nat} :
    x ∈ spanBytes spans ↔ ∃ s ∈ spans, s.fileOffset ≤ x ∧ x < s.stop := by
  simp [spanBytes, mem_covered, RelocSpan.range]

theorem spanBytes_cons (s : RelocSpan) (spans : List RelocSpan) :
    spanBytes (s :: spans) = Set.Ico s.fileOffset s.stop ∪ spanBytes spans :=
  covered_cons _ _

/-- Spans in the order of their offsets. -/
def SortedSpans (spans : List RelocSpan) : Prop :=
  spans.Pairwise fun a b => a.fileOffset ≤ b.fileOffset

/-- The last span with a span taken in, as the source computes it. -/
def RelocSpan.extend (last s : RelocSpan) : RelocSpan :=
  ⟨last.fileOffset, BitVec.ofNat 32 (max s.stop last.stop - last.fileOffset)⟩

theorem RelocSpan.extend_stop (last s : RelocSpan) :
    (last.extend s).stop
      = last.fileOffset + (max s.stop last.stop - last.fileOffset) % 2 ^ 32 := by
  unfold RelocSpan.extend RelocSpan.stop
  rw [BitVec.toNat_ofNat]

theorem absorb_cons (last s : RelocSpan) (rest : List RelocSpan) :
    absorb last (s :: rest)
      = if s.fileOffset ≤ last.stop then absorb (last.extend s) rest
        else last :: absorb s rest := rfl

/-- Every result starts where one of the spans does. -/
theorem absorb_ge {least : Nat} {last : RelocSpan} {rest : List RelocSpan}
    (hlast : least ≤ last.fileOffset) (hrest : ∀ s ∈ rest, least ≤ s.fileOffset) :
    ∀ s ∈ absorb last rest, least ≤ s.fileOffset := by
  induction rest generalizing last with
  | nil =>
    intro s hs
    rw [absorb, List.mem_singleton] at hs
    exact hs ▸ hlast
  | cons s rest ih =>
    have hs : least ≤ s.fileOffset := hrest s List.mem_cons_self
    have hrest' : ∀ s ∈ rest, least ≤ s.fileOffset :=
      fun s hs => hrest s (List.mem_cons_of_mem _ hs)
    rw [absorb_cons]
    by_cases htouch : s.fileOffset ≤ last.stop
    · rw [if_pos htouch]
      have hlast' : least ≤ (last.extend s).fileOffset := hlast
      exact ih hlast' hrest'
    · rw [if_neg htouch]
      intro r hr
      rcases List.mem_cons.mp hr with rfl | hr
      · exact hlast
      · exact ih hs hrest' r hr

/-- A span that is not cut off covers what the two did. -/
theorem spanBytes_extend {last s : RelocSpan} {rest : List RelocSpan}
    (hle : last.fileOffset ≤ s.fileOffset) (htouch : s.fileOffset ≤ last.stop)
    (hshort : max s.stop last.stop - last.fileOffset < 2 ^ 32) :
    spanBytes (last.extend s :: rest) = spanBytes (last :: s :: rest) := by
  have hstop : (last.extend s).stop = max s.stop last.stop := by
    rw [RelocSpan.extend_stop, Nat.mod_eq_of_lt hshort]
    have : last.fileOffset ≤ last.stop := Nat.le_add_right _ _
    omega
  rw [spanBytes_cons, spanBytes_cons, spanBytes_cons, hstop, ← Set.union_assoc]
  congr 1
  ext x
  show last.fileOffset ≤ x ∧ x < max s.stop last.stop ↔
    (last.fileOffset ≤ x ∧ x < last.stop) ∨ (s.fileOffset ≤ x ∧ x < s.stop)
  omega

/-- The union of two spans that touch is a run. -/
theorem longRun_extend {last s : RelocSpan} {rest : List RelocSpan}
    (htouch : s.fileOffset ≤ last.stop)
    (hlong : 2 ^ 32 ≤ max s.stop last.stop - last.fileOffset) :
    LongRun (2 ^ 32) (spanBytes (last :: s :: rest)) := by
  refine ⟨last.fileOffset, fun x hx => ?_⟩
  have hge : last.fileOffset ≤ x := hx.1
  have hlt : x < last.fileOffset + 2 ^ 32 := hx.2
  by_cases hin : x < last.stop
  · exact mem_spanBytes.mpr ⟨last, by simp, hge, hin⟩
  · exact mem_spanBytes.mpr ⟨s, by simp, by omega, by omega⟩

/-- **Merging keeps the covered bytes** as long as no 2^32 of them stand in a row. -/
theorem absorb_merges {last : RelocSpan} {rest : List RelocSpan}
    (hsorted : SortedSpans (last :: rest))
    (hshort : ¬ LongRun (2 ^ 32) (spanBytes (last :: rest)))
    (hsome : ∀ s ∈ last :: rest, s.len ≠ 0) :
    Ascending ((absorb last rest).map RelocSpan.range) ∧
      spanBytes (absorb last rest) = spanBytes (last :: rest) ∧
      ∀ s ∈ absorb last rest, s.len ≠ 0 := by
  induction rest generalizing last with
  | nil => exact ⟨List.pairwise_singleton _ _, rfl, hsome⟩
  | cons s rest ih =>
    obtain ⟨hhead, htail⟩ := List.pairwise_cons.mp hsorted
    have hle : last.fileOffset ≤ s.fileOffset := hhead s List.mem_cons_self
    rw [absorb_cons]
    by_cases htouch : s.fileOffset ≤ last.stop
    · rw [if_pos htouch]
      have hlength : max s.stop last.stop - last.fileOffset < 2 ^ 32 := by
        by_contra hlong
        exact hshort (longRun_extend htouch (Nat.le_of_not_lt hlong))
      have hbytes : spanBytes (last.extend s :: rest) = spanBytes (last :: s :: rest) :=
        spanBytes_extend hle htouch hlength
      have hextended : SortedSpans (last.extend s :: rest) :=
        List.pairwise_cons.mpr
          ⟨fun r hr => hhead r (List.mem_cons_of_mem _ hr), (List.pairwise_cons.mp htail).2⟩
      have hpositive : (last.extend s).len ≠ 0 := by
        intro hzero
        have hnat := congrArg BitVec.toNat hzero
        have hlen : last.len ≠ 0 := hsome last List.mem_cons_self
        have hpos : last.len.toNat ≠ 0 := fun h => hlen (BitVec.eq_of_toNat_eq h)
        unfold RelocSpan.extend at hnat
        rw [BitVec.toNat_ofNat, Nat.mod_eq_of_lt hlength] at hnat
        have hstop : last.stop = last.fileOffset + last.len.toNat := rfl
        simp only [BitVec.ofNat_eq_ofNat, BitVec.toNat_ofNat, Nat.zero_mod] at hnat
        omega
      obtain ⟨hascending, hcovers, hnonzero⟩ := ih hextended (by rwa [hbytes]) (by
        intro r hr
        rcases List.mem_cons.mp hr with rfl | hr
        · exact hpositive
        · exact hsome r (List.mem_cons_of_mem _ (List.mem_cons_of_mem _ hr)))
      exact ⟨hascending, hcovers.trans hbytes, hnonzero⟩
    · rw [if_neg htouch]
      have hsub : spanBytes (s :: rest) ⊆ spanBytes (last :: s :: rest) := by
        rw [spanBytes_cons last]
        exact Set.subset_union_right
      obtain ⟨hascending, hcovers, hnonzero⟩ := ih htail (fun hrun => hshort (hrun.mono hsub))
        (fun r hr => hsome r (List.mem_cons_of_mem _ hr))
      have hlater : ∀ r ∈ absorb s rest, s.fileOffset ≤ r.fileOffset :=
        absorb_ge (Nat.le_refl _) (List.pairwise_cons.mp htail).1
      refine ⟨?_, ?_, ?_⟩
      · rw [List.map_cons]
        refine .cons (fun r hr => ?_) hascending
        obtain ⟨t, ht, rfl⟩ := List.mem_map.mp hr
        have := hlater t ht
        show last.stop ≤ t.fileOffset
        omega
      · rw [spanBytes_cons, hcovers, ← spanBytes_cons]
      · intro r hr
        rcases List.mem_cons.mp hr with rfl | hr
        · exact hsome r List.mem_cons_self
        · exact hnonzero r hr

/-- A byte past the last span and before the others is not covered. -/
theorem not_mem_absorb {last : RelocSpan} {rest : List RelocSpan} {x : Nat}
    (hstop : last.stop ≤ x) (hrest : ∀ s ∈ rest, x < s.fileOffset) :
    x ∉ spanBytes (absorb last rest) := by
  intro hx
  obtain ⟨r, hr, hge, hlt⟩ := mem_spanBytes.mp hx
  cases rest with
  | nil =>
    rw [absorb, List.mem_singleton] at hr
    subst hr
    omega
  | cons s rest =>
    have hs : x < s.fileOffset := hrest s List.mem_cons_self
    rw [absorb_cons, if_neg (by omega)] at hr
    rcases List.mem_cons.mp hr with rfl | hr
    · omega
    · have := absorb_ge (Nat.succ_le_of_lt hs)
        (fun t ht => Nat.succ_le_of_lt (hrest t (List.mem_cons_of_mem _ ht))) r hr
      omega

/-- Merging loses bytes in a row when 2^32 of them stand in a row: the length of
the span that takes them in is cut to 32 bits. -/
theorem absorb_loses_row {n : Nat} {last : RelocSpan} {rest : List RelocSpan}
    (hlen : ∀ s ∈ rest, s.len.toNat + n ≤ 2 ^ 32) (hsorted : SortedSpans (last :: rest))
    (hrun : LongRun (2 ^ 32) (spanBytes (last :: rest))) :
    ∃ x, ∀ y, x ≤ y → y < x + n →
      y ∈ spanBytes (last :: rest) ∧ y ∉ spanBytes (absorb last rest) := by
  have hone : ∀ s : RelocSpan, ¬ LongRun (2 ^ 32) (Set.Ico s.fileOffset s.stop) := by
    intro s hs
    have hle := hs.le_of_Ico (by decide)
    have hlen := s.len.isLt
    have hstop : s.stop = s.fileOffset + s.len.toNat := rfl
    omega
  induction rest generalizing last with
  | nil =>
    rw [spanBytes_cons] at hrun
    simp only [spanBytes, List.map_nil, covered_nil, Set.union_empty] at hrun
    exact absurd hrun (hone last)
  | cons s rest ih =>
    obtain ⟨hhead, htail⟩ := List.pairwise_cons.mp hsorted
    have hle : last.fileOffset ≤ s.fileOffset := hhead s List.mem_cons_self
    have hlater : ∀ r ∈ rest, s.fileOffset ≤ r.fileOffset := (List.pairwise_cons.mp htail).1
    rw [absorb_cons]
    by_cases htouch : s.fileOffset ≤ last.stop
    · rw [if_pos htouch]
      by_cases hlength : max s.stop last.stop - last.fileOffset < 2 ^ 32
      · have hbytes : spanBytes (last.extend s :: rest) = spanBytes (last :: s :: rest) :=
          spanBytes_extend hle htouch hlength
        have hextended : SortedSpans (last.extend s :: rest) :=
          List.pairwise_cons.mpr
            ⟨fun r hr => hhead r (List.mem_cons_of_mem _ hr), (List.pairwise_cons.mp htail).2⟩
        rw [← hbytes]
        exact ih (fun r hr => hlen r (List.mem_cons_of_mem _ hr)) hextended (by rwa [hbytes])
      · -- the new length is at least 2^32: what is left of it ends before `s` starts
        have hlast := last.len.isLt
        have hs := hlen s List.mem_cons_self
        have hstop : last.stop = last.fileOffset + last.len.toNat := rfl
        have hstop' : s.stop = s.fileOffset + s.len.toNat := rfl
        have hcut : (last.extend s).stop = s.stop - 2 ^ 32 := by
          rw [RelocSpan.extend_stop]
          omega
        have hge : last.fileOffset ≤ (last.extend s).stop := Nat.le_add_right _ _
        refine ⟨s.stop - 2 ^ 32, fun y hge hlt => ⟨?_, not_mem_absorb (by omega) fun r hr => ?_⟩⟩
        · exact mem_spanBytes.mpr ⟨last, List.mem_cons_self, by omega, by omega⟩
        · have := hlater r hr
          omega
    · rw [if_neg htouch]
      -- the run lies past the end of `last`, which is not covered
      have hgap : last.stop ∉ spanBytes (last :: s :: rest) := by
        intro hmem
        obtain ⟨r, hr, hge, hlt⟩ := mem_spanBytes.mp hmem
        rcases List.mem_cons.mp hr with rfl | hr
        · omega
        · rcases List.mem_cons.mp hr with rfl | hr
          · omega
          · have := hlater r hr
            omega
      have hrest : LongRun (2 ^ 32) (spanBytes (s :: rest)) := by
        rcases hrun.split hgap with hlow | hhigh
        · refine absurd (hlow.mono fun x hx => ?_) (hone last)
          obtain ⟨r, hr, hge, hlt⟩ := mem_spanBytes.mp hx.1
          have hbefore : x < last.stop := hx.2
          rcases List.mem_cons.mp hr with rfl | hr
          · exact ⟨hge, hlt⟩
          · rcases List.mem_cons.mp hr with rfl | hr
            · omega
            · have := hlater r hr
              omega
        · refine hhigh.mono fun x hx => ?_
          obtain ⟨r, hr, hge, hlt⟩ := mem_spanBytes.mp hx.1
          have hafter : last.stop < x := hx.2
          rcases List.mem_cons.mp hr with rfl | hr
          · omega
          · exact mem_spanBytes.mpr ⟨r, hr, hge, hlt⟩
      obtain ⟨x, hrow⟩ := ih (fun r hr => hlen r (List.mem_cons_of_mem _ hr)) htail hrest
      refine ⟨x, fun y hge hlt => ?_⟩
      obtain ⟨hy, hlost⟩ := hrow y hge hlt
      have hafter : s.fileOffset ≤ y :=
        le_of_mem_covered (by
          intro r hr
          obtain ⟨t, ht, rfl⟩ := List.mem_map.mp hr
          rcases List.mem_cons.mp ht with rfl | ht
          · exact Nat.le_refl _
          · exact hlater t ht) hy
      refine ⟨?_, ?_⟩
      · rw [spanBytes_cons last]
        exact .inr hy
      · rw [spanBytes_cons]
        rintro (hin | hin)
        · have : y < last.stop := hin.2
          omega
        · exact hlost hin

/-- **Merging loses a byte** when 2^32 of them stand in a row. -/
theorem absorb_loses {last : RelocSpan} {rest : List RelocSpan}
    (hsorted : SortedSpans (last :: rest)) (hrun : LongRun (2 ^ 32) (spanBytes (last :: rest))) :
    ∃ x ∈ spanBytes (last :: rest), x ∉ spanBytes (absorb last rest) := by
  obtain ⟨x, hrow⟩ := @absorb_loses_row 1 last rest (fun s _ => s.len.isLt) hsorted hrun
  exact ⟨x, hrow x (Nat.le_refl x) (Nat.lt_succ_self x)⟩

/-! ## §4. Sorting and merging. -/

theorem sortedSpans_mergeSort (writes : List RelocSpan) :
    SortedSpans (writes.mergeSort fun a b => decide (a.fileOffset ≤ b.fileOffset)) := by
  have hsorted := @List.pairwise_mergeSort _
    (fun a b : RelocSpan => decide (a.fileOffset ≤ b.fileOffset))
    (fun a b c hab hbc => by
      simp only [decide_eq_true_eq] at hab hbc ⊢
      omega)
    (fun a b => by
      simp only [Bool.or_eq_true, decide_eq_true_eq]
      omega) writes
  exact hsorted.imp fun h => by simpa using h

theorem spanBytes_mergeSort (writes : List RelocSpan) :
    spanBytes (writes.mergeSort fun a b => decide (a.fileOffset ≤ b.fileOffset))
      = spanBytes writes :=
  covered_perm ((List.mergeSort_perm _ _).map _)

theorem skipSpans_merges {writes : List RelocSpan} (hsome : ∀ s ∈ writes, s.len ≠ 0)
    (hshort : ¬ LongRun (2 ^ 32) (spanBytes writes)) :
    Ascending ((skipSpans writes).map RelocSpan.range) ∧
      spanBytes (skipSpans writes) = spanBytes writes ∧ ∀ s ∈ skipSpans writes, s.len ≠ 0 := by
  have hsorted := sortedSpans_mergeSort writes
  have hbytes := spanBytes_mergeSort writes
  have hmem : ∀ s ∈ writes.mergeSort fun a b => decide (a.fileOffset ≤ b.fileOffset),
      s.len ≠ 0 := fun s hs => hsome s (List.mem_mergeSort.mp hs)
  unfold skipSpans
  rw [← hbytes] at hshort ⊢
  cases hsort : writes.mergeSort fun a b => decide (a.fileOffset ≤ b.fileOffset) with
  | nil => exact ⟨.nil, rfl, by simp [mergeAdjacent]⟩
  | cons last rest =>
    rw [hsort] at hsorted hshort hmem
    exact absorb_merges hsorted hshort hmem

theorem skipSpans_loses {writes : List RelocSpan} (hrun : LongRun (2 ^ 32) (spanBytes writes)) :
    ∃ x ∈ spanBytes writes, x ∉ spanBytes (skipSpans writes) := by
  have hsorted := sortedSpans_mergeSort writes
  have hbytes := spanBytes_mergeSort writes
  unfold skipSpans
  rw [← hbytes] at hrun ⊢
  cases hsort : writes.mergeSort fun a b => decide (a.fileOffset ≤ b.fileOffset) with
  | nil =>
    rw [hsort] at hrun
    obtain ⟨start, hrun⟩ := hrun
    have hfirst : start ∈ spanBytes [] := hrun ⟨Nat.le_refl _, by omega⟩
    simp [mem_spanBytes] at hfirst
  | cons last rest =>
    rw [hsort] at hsorted hrun
    exact absorb_loses hsorted hrun

/-- Merging short ranges loses the start of one of them. -/
theorem skipSpans_loses_start {n : Nat} {writes : List RelocSpan} (hpos : 0 < n)
    (hn : n + n ≤ 2 ^ 32) (hlen : ∀ s ∈ writes, s.len.toNat ≤ n)
    (hrun : LongRun (2 ^ 32) (spanBytes writes)) :
    ∃ s ∈ writes, s.fileOffset ∉ spanBytes (skipSpans writes) := by
  obtain ⟨x, hrow⟩ : ∃ x, ∀ y, x ≤ y → y < x + n →
      y ∈ spanBytes writes ∧ y ∉ spanBytes (skipSpans writes) := by
    have hsorted := sortedSpans_mergeSort writes
    have hbytes := spanBytes_mergeSort writes
    have hmem : ∀ s ∈ writes.mergeSort fun a b => decide (a.fileOffset ≤ b.fileOffset),
        s.len.toNat + n ≤ 2 ^ 32 := by
      intro s hs
      have := hlen s (List.mem_mergeSort.mp hs)
      omega
    unfold skipSpans
    rw [← hbytes] at hrun ⊢
    cases hsort : writes.mergeSort fun a b => decide (a.fileOffset ≤ b.fileOffset) with
    | nil =>
      rw [hsort] at hrun
      obtain ⟨start, hrun⟩ := hrun
      have hfirst : start ∈ spanBytes [] := hrun ⟨Nat.le_refl _, by omega⟩
      simp [mem_spanBytes] at hfirst
    | cons last rest =>
      rw [hsort] at hsorted hrun hmem
      exact absorb_loses_row (fun s hs => hmem s (List.mem_cons_of_mem _ hs)) hsorted hrun
  -- a range that reaches the last byte of the row starts in it
  obtain ⟨hlast, -⟩ := hrow (x + n - 1) (by omega) (by omega)
  obtain ⟨s, hs, hge, hlt⟩ := mem_spanBytes.mp hlast
  have hshort := hlen s hs
  have hstop : s.stop = s.fileOffset + s.len.toNat := rfl
  exact ⟨s, hs, (hrow s.fileOffset (by omega) (by omega)).2⟩

/-! ## §5. The chunks are what the spans leave. -/

/-- A chunk as a range. -/
def chunkRange (chunk : Nat × Nat) : Nat × Nat := (chunk.1, chunk.1 + chunk.2)

theorem chunksFrom_cutsOut {spans : List RelocSpan} (hsorted : SortedSpans spans)
    (rangeEnd cursor : Nat) :
    CutsOut ((chunksFrom rangeEnd cursor spans).map chunkRange) (spans.map RelocSpan.range) cursor
      rangeEnd := by
  induction spans generalizing cursor with
  | nil =>
    unfold chunksFrom
    by_cases hend : rangeEnd ≤ cursor
    · rw [if_pos hend]
      exact .of_stop_le hend
    · rw [if_neg hend]
      show CutsOut [(cursor, cursor + (rangeEnd - cursor))] [] cursor rangeEnd
      rw [Nat.add_sub_cancel' (by omega)]
      exact .whole (by omega)
  | cons s rest ih =>
    obtain ⟨hhead, htail⟩ := List.pairwise_cons.mp hsorted
    unfold chunksFrom
    by_cases hend : rangeEnd ≤ cursor
    · rw [if_pos hend]
      exact .of_stop_le hend
    · rw [if_neg hend]
      by_cases hbefore : cursor < s.fileOffset
      · rw [if_pos hbefore]
        show CutsOut ((cursor, cursor + (min s.fileOffset rangeEnd - cursor)) :: _)
          ((s.fileOffset, s.stop) :: rest.map RelocSpan.range) cursor rangeEnd
        rw [Nat.add_sub_cancel' (by omega)]
        refine .piece hbefore ?_ (ih htail _) (by omega) (Nat.le_add_right _ _)
        intro r hr
        obtain ⟨t, ht, rfl⟩ := List.mem_map.mp hr
        exact hhead t ht
      · rw [if_neg hbefore]
        exact .skip (by omega) (ih htail _)

/-- The partition point of a partitioned list parts it. -/
theorem lt_partitionPoint_iff {p : RelocSpan → Bool} {spans : List RelocSpan}
    (hpart : spans.Pairwise fun a b => p b = true → p a = true) {i : Nat} {s : RelocSpan}
    (hs : spans[i]? = some s) : i < partitionPoint p spans ↔ p s = true := by
  unfold partitionPoint
  induction spans generalizing i with
  | nil => simp at hs
  | cons first rest ih =>
    obtain ⟨hhead, htail⟩ := List.pairwise_cons.mp hpart
    by_cases hfirst : p first = true
    · rw [List.takeWhile_cons_of_pos hfirst, List.length_cons]
      cases i with
      | zero =>
        rw [List.getElem?_cons_zero, Option.some.injEq] at hs
        subst hs
        exact iff_of_true (Nat.succ_pos _) hfirst
      | succ i =>
        rw [List.getElem?_cons_succ] at hs
        rw [Nat.succ_lt_succ_iff]
        exact ih htail hs
    · rw [List.takeWhile_cons_of_neg hfirst]
      refine iff_of_false (Nat.not_lt_zero i) fun hp => ?_
      cases i with
      | zero =>
        rw [List.getElem?_cons_zero, Option.some.injEq] at hs
        exact hfirst (hs ▸ hp)
      | succ i =>
        rw [List.getElem?_cons_succ] at hs
        exact hfirst (hhead s (List.mem_of_getElem? hs) hp)

section Chunks

variable {spans : List RelocSpan} (hascending : Ascending (spans.map RelocSpan.range))
include hascending

theorem ascending_pairwise : spans.Pairwise fun a b => a.stop ≤ b.fileOffset :=
  List.pairwise_map.mp hascending

theorem sortedSpans_of_ascending : SortedSpans spans :=
  (ascending_pairwise hascending).imp fun h => Nat.le_trans (Nat.le_add_right _ _) h

theorem lt_first_iff {start i : Nat} {s : RelocSpan} (hs : spans[i]? = some s) :
    i < partitionPoint (fun s => decide (s.stop ≤ start)) spans ↔ s.stop ≤ start := by
  have hpart : spans.Pairwise fun a b =>
      decide (b.stop ≤ start) = true → decide (a.stop ≤ start) = true := by
    refine (ascending_pairwise hascending).imp fun {a b} hle => ?_
    have : b.fileOffset ≤ b.stop := Nat.le_add_right _ _
    simp only [decide_eq_true_eq]
    omega
  rw [lt_partitionPoint_iff hpart hs, decide_eq_true_eq]

theorem lt_last_iff {stop i : Nat} {s : RelocSpan} (hs : spans[i]? = some s) :
    i < partitionPoint (fun s => decide (s.fileOffset < stop)) spans ↔ s.fileOffset < stop := by
  have hpart : spans.Pairwise fun a b =>
      decide (b.fileOffset < stop) = true → decide (a.fileOffset < stop) = true := by
    refine (sortedSpans_of_ascending hascending).imp fun {a b} hle => ?_
    simp only [decide_eq_true_eq]
    omega
  rw [lt_partitionPoint_iff hpart hs, decide_eq_true_eq]

/-- The spans between the cut points are those that reach into the range. -/
theorem mem_relevant_iff {start stop : Nat} {s : RelocSpan} :
    s ∈ (spans.take (partitionPoint (fun s => decide (s.fileOffset < stop)) spans)).drop
        (partitionPoint (fun s => decide (s.stop ≤ start)) spans) ↔
      s ∈ spans ∧ start < s.stop ∧ s.fileOffset < stop := by
  constructor
  · intro hs
    obtain ⟨j, hj⟩ := List.mem_iff_getElem?.mp hs
    rw [List.getElem?_drop, List.getElem?_take] at hj
    split at hj
    · next hlt =>
      refine ⟨List.mem_of_getElem? hj, ?_, (lt_last_iff hascending hj).mp hlt⟩
      have hfirst : ¬ s.stop ≤ start := (lt_first_iff hascending hj).not.mp (by omega)
      omega
    · cases hj
  · rintro ⟨hs, hafter, hbefore⟩
    obtain ⟨i, hi⟩ := List.mem_iff_getElem?.mp hs
    have hfirst : ¬ i < partitionPoint (fun s => decide (s.stop ≤ start)) spans :=
      (lt_first_iff hascending hi).not.mpr (by omega)
    have hlast := (lt_last_iff hascending hi).mpr hbefore
    refine List.mem_iff_getElem?.mpr ⟨i - partitionPoint (fun s => decide (s.stop ≤ start)) spans, ?_⟩
    rw [List.getElem?_drop, List.getElem?_take, Nat.add_sub_cancel' (by omega), if_pos hlast, hi]

variable (hsome : ∀ s ∈ spans, s.len ≠ 0)
include hsome

omit hascending in
theorem lt_stop {s : RelocSpan} (hs : s ∈ spans) : s.fileOffset < s.stop := by
  have hpos : s.len.toNat ≠ 0 := fun h => hsome s hs (BitVec.eq_of_toNat_eq h)
  have hstop : s.stop = s.fileOffset + s.len.toNat := rfl
  omega

/-- The cut points are the right way round. -/
theorem first_le_last {start stop : Nat} (h : start ≤ stop) :
    partitionPoint (fun s => decide (s.stop ≤ start)) spans
      ≤ partitionPoint (fun s => decide (s.fileOffset < stop)) spans := by
  by_contra hlt
  have hlength : partitionPoint (fun s => decide (s.stop ≤ start)) spans ≤ spans.length :=
    (List.takeWhile_prefix _).length_le
  obtain ⟨s, hs⟩ : ∃ s, spans[partitionPoint (fun s => decide (s.fileOffset < stop)) spans]? = some s :=
    ⟨_, List.getElem?_eq_getElem (by omega)⟩
  have hfirst := (lt_first_iff hascending hs).mp (Nat.lt_of_not_le hlt)
  have hlast := (lt_last_iff hascending hs).not.mp (Nat.lt_irrefl _)
  have := lt_stop hsome (List.mem_of_getElem? hs)
  omega

/-- **The chunks of a range are what the spans leave of it.** -/
theorem encryptChunks_cutsOut {start stop : Nat} (h : start ≤ stop) :
    ∃ chunks, encryptChunks spans start stop = some chunks ∧
      CutsOut (chunks.map chunkRange) (spans.map RelocSpan.range) start stop := by
  refine ⟨_, if_pos (first_le_last hascending hsome h), ?_⟩
  have hsorted : SortedSpans ((spans.take
        (partitionPoint (fun s => decide (s.fileOffset < stop)) spans)).drop
        (partitionPoint (fun s => decide (s.stop ≤ start)) spans)) :=
    (sortedSpans_of_ascending hascending).sublist
      ((List.drop_sublist _ _).trans (List.take_sublist _ _))
  refine (chunksFrom_cutsOut hsorted stop start).congr fun x hx => ?_
  obtain ⟨hge, hlt⟩ := hx
  constructor
  · intro hmem
    obtain ⟨s, hs, hin⟩ := mem_spanBytes.mp hmem
    exact mem_spanBytes.mpr ⟨s, ((mem_relevant_iff hascending).mp hs).1, hin⟩
  · intro hmem
    obtain ⟨s, hs, hin⟩ := mem_spanBytes.mp hmem
    exact mem_spanBytes.mpr
      ⟨s, (mem_relevant_iff hascending).mpr ⟨hs, by omega, by omega⟩, hin⟩

omit hascending in
/-- A range meets no span when the spans cover none of its bytes. -/
theorem rangeOverlaps_eq_false_iff {start len : Nat} (hlen : 0 < len) :
    rangeOverlaps spans start len = false ↔
      ∀ x ∈ Set.Ico start (start + len), x ∉ spanBytes spans := by
  simp only [rangeOverlaps, List.any_eq_false, Bool.and_eq_true, decide_eq_true_eq, not_and,
    not_lt]
  constructor
  · intro hnone x hx hmem
    obtain ⟨s, hs, hge, hlt⟩ := mem_spanBytes.mp hmem
    have hstart : start ≤ x := hx.1
    have hstop : x < start + len := hx.2
    have := hnone s hs (by omega)
    omega
  · intro hnone s hs hbefore
    by_contra hafter
    have := lt_stop hsome hs
    -- the later of the two starts lies in both
    exact hnone (max start s.fileOffset) ⟨by omega, by omega⟩
      (mem_spanBytes.mpr ⟨s, hs, by omega, by omega⟩)

/-- **A range meets no span exactly when it is one chunk.** -/
theorem rangeOverlaps_iff_oneChunk {start len : Nat} (hlen : 0 < len) :
    rangeOverlaps spans start len = false ↔
      encryptChunks spans start (start + len) = some [(start, len)] := by
  rw [rangeOverlaps_eq_false_iff hsome hlen]
  constructor
  · intro hnone
    have hempty : (spans.take (partitionPoint (fun s => decide (s.fileOffset < start + len))
        spans)).drop (partitionPoint (fun s => decide (s.stop ≤ start)) spans) = [] := by
      refine List.eq_nil_iff_forall_not_mem.mpr fun s hs => ?_
      obtain ⟨hs, hafter, hbefore⟩ := (mem_relevant_iff hascending).mp hs
      have := lt_stop hsome hs
      exact hnone (max start s.fileOffset) ⟨by omega, by omega⟩
        (mem_spanBytes.mpr ⟨s, hs, by omega, by omega⟩)
    unfold encryptChunks
    simp only [hempty]
    rw [if_pos (first_le_last hascending hsome (Nat.le_add_right _ _)), chunksFrom,
      if_neg (by omega), Nat.add_sub_cancel_left]
  · intro hone x hx hmem
    obtain ⟨chunks, hchunks, hcuts⟩ :=
      encryptChunks_cutsOut hascending hsome (Nat.le_add_right start len)
    rw [hone] at hchunks
    obtain rfl := Option.some.inj hchunks
    have hcovers := hcuts.covers
    have hin : x ∈ covered ([(start, len)].map chunkRange) := by
      simp only [List.map_cons, List.map_nil, covered_cons, covered_nil, Set.union_empty]
      exact hx
    rw [hcovers] at hin
    exact hin.2 hmem

end Chunks

/-! ## §6. The skip map of the written ranges. -/

/-- The spans of a list of written ranges, and the chunks between them, as a
packer relies on them. -/
structure SkipsWritten (writes : List RelocSpan) : Prop where
  /-- Sorted, and no two meet. -/
  ascending : Ascending ((skipSpans writes).map RelocSpan.range)
  covers : spanBytes (skipSpans writes) = spanBytes writes
  /-- The chunks of a range are the bytes in no span, in order, none empty. -/
  chunks : ∀ start stop, start ≤ stop → ∃ chunks,
    encryptChunks (skipSpans writes) start stop = some chunks ∧
      CutsOut (chunks.map chunkRange) ((skipSpans writes).map RelocSpan.range) start stop
  overlaps : ∀ start len, 0 < len → (rangeOverlaps (skipSpans writes) start len = false ↔
    encryptChunks (skipSpans writes) start (start + len) = some [(start, len)])

theorem not_skipsWritten_of_longRun {writes : List RelocSpan}
    (hrun : LongRun (2 ^ 32) (spanBytes writes)) : ¬ SkipsWritten writes := by
  intro h
  obtain ⟨x, hx, hlost⟩ := skipSpans_loses hrun
  rw [h.covers] at hlost
  exact hlost hx

/-- **The chunks are the complement of the bytes the loader writes exactly when
it writes no 2^32 bytes in a row.** -/
theorem skipsWritten_iff {writes : List RelocSpan} (hsome : ∀ s ∈ writes, s.len ≠ 0) :
    SkipsWritten writes ↔ ¬ LongRun (2 ^ 32) (spanBytes writes) := by
  constructor
  · intro h hrun
    exact not_skipsWritten_of_longRun hrun h
  · intro hshort
    obtain ⟨hascending, hcovers, hnonzero⟩ := skipSpans_merges hsome hshort
    exact ⟨hascending, hcovers,
      fun start stop h => encryptChunks_cutsOut hascending hnonzero h,
      fun start len hlen => rangeOverlaps_iff_oneChunk hascending hnonzero hlen⟩

/-- Two adjacent slots, the second one first. -/
theorem twoSlots_skipsWritten : SkipsWritten [⟨0x108, 8⟩, ⟨0x100, 8⟩] := by
  refine (skipsWritten_iff (by decide)).mpr fun hrun => ?_
  have hsub : spanBytes [⟨0x108, 8⟩, ⟨0x100, 8⟩] ⊆ Set.Ico 0x100 0x110 := by
    intro x hx
    obtain ⟨s, hs, hge, hlt⟩ := mem_spanBytes.mp hx
    rcases List.mem_cons.mp hs with rfl | hs
    · exact ⟨Nat.le_trans (by decide) hge, hlt⟩
    · rw [List.mem_singleton] at hs
      subst hs
      exact ⟨hge, Nat.lt_trans hlt (by decide)⟩
  exact absurd ((hrun.mono hsub).le_of_Ico (by decide)) (by decide)

/-- Adjacent pointer slots from the start of the file on. -/
def adjacentSlots (count : Nat) : List RelocSpan := (List.range count).map fun k => ⟨8 * k, 8⟩

theorem longRun_adjacentSlots (count : Nat) :
    LongRun (8 * count) (spanBytes (adjacentSlots count)) := by
  refine ⟨0, fun x hx => mem_spanBytes.mpr ⟨⟨8 * (x / 8), 8⟩, ?_, ?_⟩⟩
  · have hlt : x < 0 + 8 * count := hx.2
    exact List.mem_map.mpr ⟨x / 8, List.mem_range.mpr (by omega), rfl⟩
  · show 8 * (x / 8) ≤ x ∧ x < 8 * (x / 8) + 8
    omega

/-- 2^29 adjacent slots merge into a span whose length is cut to nothing. -/
theorem fourGiB_notSkipped : ¬ SkipsWritten (adjacentSlots (2 ^ 29)) :=
  not_skipsWritten_of_longRun (longRun_adjacentSlots (2 ^ 29))

end Armv8Encode.Elf

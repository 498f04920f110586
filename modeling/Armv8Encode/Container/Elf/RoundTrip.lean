/-
  Armv8Encode.Container.Elf.RoundTrip — reading a linked ELF and writing it back.

  Nothing is edited, so nothing grows and the file is written in place: the
  program-header table goes right after the file header, whatever its place
  in the source was, and the sections are placed in the order of the section
  headers by a cursor that cannot go back.  The round trip succeeds exactly
  for files that already have this shape (`InPlaceShape`).  The crate's own
  appended output does not: its table stands at the end of the file.
-/
import Armv8Encode.Container.Elf.Reader
import Armv8Encode.Container.Elf.OwnTable
import Armv8Encode.Container.Elf.Write
import Mathlib.Data.List.Pairwise

namespace Armv8Encode.Elf

open Lib

/-! ## §1. Files and what a round trip keeps. -/

namespace RawSection

variable (s : RawSection)

/-- Whether the section has bytes in the file. -/
def fileBacked : Bool := s.shType != shtNobits && decide (0 < s.shSize)

/-- Whether the reader gets those bytes. -/
def placed : Bool := s.fileBacked && !s.compressed

def range : Nat × Nat := (s.shOffset, s.shSize)

end RawSection

/-- Two ranges `(start, length)` share no byte. -/
def Apart (r q : Nat × Nat) : Prop := r.1 + r.2 ≤ q.1 ∨ q.1 + q.2 ≤ r.1

/-- Two sections that both have bytes keep them apart. -/
def SectionsApart (s t : RawSection) : Prop :=
  s.fileBacked = true → t.fileBacked = true → Apart s.range t.range

instance : Std.Symm SectionsApart where
  symm _ _ h ht hs := (h hs ht).symm

/-- A linked file whose sections overlap neither each other nor the headers. -/
structure WellPlaced (f : ElfFile) : Prop where
  linked : f.kind = .sharedObject ∨ f.kind = .executable
  apart : f.sections.Pairwise SectionsApart
  pastFileHeader : ∀ s ∈ f.sections, s.fileBacked = true → fileHeaderSize f.is64 ≤ s.shOffset
  pastTable : ∀ s ∈ f.sections, s.fileBacked = true →
    Apart (f.ePhoff, f.programHeaders.length * programHeaderSize f.is64) s.range

/-- What the loader sees of a file written back. -/
structure SameForLoader (f : ElfFile) (file : Writer) (phoff phnum : Nat) : Prop where
  is64 : file.is64 = f.is64
  table : file.phTable = some (phoff, phnum)
  programHeaders : file.programHeaders = f.programHeaders
  sections : ∀ s ∈ f.sections, s.fileBacked = true → file.ContentAt s.shOffset s.data
  tableApart : ∀ s ∈ f.sections, s.fileBacked = true →
    Apart (phoff, phnum * programHeaderSize file.is64) s.range
  ownLocation : ∀ h ∈ file.programHeaders, h.pType = ptPhdr →
    h.pOffset = phoff ∧ h.pFilesz = phnum * programHeaderSize file.is64

/-- The writer succeeds and keeps what the loader needs. -/
def RoundTrips (f : ElfFile) (output : Option Writer) : Prop :=
  ∃ file phoff phnum, output = some file ∧ SameForLoader f file phoff phnum

/-- Bytes that the program headers of a file take. -/
def tableSize (f : ElfFile) : Nat := f.programHeaders.length * programHeaderSize f.is64

/-- The shape the in-place writer gives every file. -/
structure InPlaceShape (f : ElfFile) : Prop where
  /-- The architecture has the word size the writer takes it to have. -/
  wordSize : (parse f).is64 = f.is64
  /-- File-backed sections are listed in the order of their offsets. -/
  inOrder : (f.sections.filter RawSection.fileBacked).Pairwise fun s t => s.shOffset < t.shOffset
  /-- They leave room for the table after the file header. -/
  afterTable : ∀ s ∈ f.sections, s.fileBacked = true →
    fileHeaderSize f.is64 + tableSize f ≤ s.shOffset
  uncompressed : ∀ s ∈ f.sections, s.fileBacked = true → s.compressed = false
  /-- A `PT_PHDR` says that the table follows the file header. -/
  phdrFirst : ∀ h ∈ f.programHeaders, h.pType = ptPhdr →
    h.pOffset = fileHeaderSize f.is64 ∧ h.pFilesz = tableSize f

/-! ## §2. What lifting gives the writer. -/

section Lift

variable {s : RawSection}

theorem fileBacked_iff : s.fileBacked = true ↔ s.shType ≠ shtNobits ∧ 0 < s.shSize := by
  unfold RawSection.fileBacked
  rw [Bool.and_eq_true, bne_iff_ne, decide_eq_true_eq]

theorem placed_iff : s.placed = true ↔ s.fileBacked = true ∧ s.compressed = false := by
  unfold RawSection.placed
  rw [Bool.and_eq_true, Bool.not_eq_true']

/-- The bytes of a section the reader gets are its data, all of it. -/
theorem liftSection_placed (h : s.placed = true) :
    (liftSection s).isNobits = false ∧ (liftSection s).bytes = s.data
      ∧ s.data.length = s.shSize ∧ 0 < s.shSize := by
  obtain ⟨hbacked, hcompressed⟩ := placed_iff.mp h
  obtain ⟨htype, hsize⟩ := fileBacked_iff.mp hbacked
  refine ⟨?_, ?_, ?_, hsize⟩
  · have hkind : s.kind ≠ .bss := fun hbss => htype (s.bssNobits hbss)
    have hsame : (liftSection s).kind = s.kind := rfl
    rw [Section.isNobits, hsame]
    split
    · exact absurd ‹_› hkind
    · rfl
  · show (if s.compressed then [] else s.data) = s.data
    rw [hcompressed]
    rfl
  · rw [s.dataLength, if_neg htype]

theorem liftSection_nonempty (h : s.placed = true) : (liftSection s).bytes.isEmpty = false := by
  obtain ⟨_, hbytes, hlen, hsize⟩ := liftSection_placed h
  rw [hbytes, List.isEmpty_eq_false_iff, ← List.length_pos_iff, hlen]
  exact hsize

/-- Any other section has no bytes for the writer. -/
theorem liftSection_not_placed (h : s.placed = false) : (liftSection s).bytes = [] := by
  show (if s.compressed then [] else s.data) = []
  by_cases hcompressed : s.compressed = true
  · rw [if_pos hcompressed]
  · rw [if_neg hcompressed]
    have hbacked : s.fileBacked = false := by
      unfold RawSection.placed at h
      rw [Bool.not_eq_true] at hcompressed
      rw [hcompressed] at h
      simpa using h
    apply List.eq_nil_of_length_eq_zero
    rw [s.dataLength]
    split
    · rfl
    · next htype =>
      by_contra hne
      have htrue := fileBacked_iff.mpr ⟨htype, Nat.pos_of_ne_zero hne⟩
      rw [hbacked] at htrue
      cases htrue

/-- The layout captured for a section is that of its header. -/
theorem layout_liftElfImage {f : ElfFile} {i : Nat} (h : f.sections[i]? = some s) :
    (liftElfImage f).layout i = liftLayout s := by
  simp [Image.layout, liftElfImage, List.getD, h]

theorem layouts_parse (f : ElfFile) :
    layouts (parse f) (liftElfImage f)
      = f.sections.map fun s => (liftSection s, liftLayout s) := by
  apply List.ext_getElem?
  intro i
  simp only [layouts, parse, List.getElem?_map, List.getElem?_zipIdx]
  cases hs : f.sections[i]? with
  | none => rfl
  | some s => simp [layout_liftElfImage hs]

/-- No section of an unedited file has grown. -/
theorem findGrew_parse (f : ElfFile) : findGrew (parse f) (liftElfImage f) = none := by
  unfold findGrew
  rw [List.findSome?_eq_none_iff]
  rintro ⟨t, i⟩ hmem
  obtain ⟨_, ht⟩ := List.mem_zipIdx' hmem
  have hs : ∃ s, f.sections[i]? = some s ∧ liftSection s = t := by
    have hget : (f.sections.map liftSection)[i]? = some t := by
      rw [List.getElem?_eq_some_iff]
      exact ⟨_, ht.symm⟩
    rw [List.getElem?_map, Option.map_eq_some_iff] at hget
    exact hget
  obtain ⟨s, hs, rfl⟩ := hs
  dsimp only
  rw [layout_liftElfImage hs, if_neg]
  rintro ⟨hgrew, _⟩
  have hgrew' : s.shSize < (liftSection s).bytes.length := hgrew
  by_cases hplaced : s.placed = true
  · obtain ⟨_, hbytes, hlen, _⟩ := liftSection_placed hplaced
    rw [hbytes, hlen] at hgrew'
    omega
  · rw [Bool.not_eq_true] at hplaced
    rw [liftSection_not_placed hplaced] at hgrew'
    cases hgrew'

end Lift

/-! ## §3. Reserving and writing the sections of an unedited file. -/

/-- What the writer plans for a source section. -/
def planOf (s : RawSection) : PlannedSection where
  name := nameId (liftSection s)
  fileOffset := s.shOffset
  shOffset := s.shOffset
  shLink := s.shLink
  shInfo := s.shInfo
  shEntsize := s.shEntsize
  inPlaceExtent := inPlaceExtent (liftSection s) (liftLayout s)
  isNobits := (liftSection s).isNobits

/-- Ranges of the sections whose bytes the reader gets, in header order. -/
def placedRanges (ss : List RawSection) : List (Nat × Nat) :=
  (ss.filter RawSection.placed).map RawSection.range

theorem inPlaceExtent_placed {s : RawSection} (h : s.placed = true) :
    inPlaceExtent (liftSection s) (liftLayout s) = s.shSize := by
  obtain ⟨hnobits, _, _, hpos⟩ := liftSection_placed h
  unfold inPlaceExtent
  rw [hnobits, liftSection_nonempty h]
  exact if_pos hpos

theorem reserveContent_placed {s : RawSection} (w : Writer) (h : s.placed = true)
    (hpos : 0 < s.shOffset) :
    reserveContent w (liftSection s) (liftLayout s)
      = if w.len ≤ s.shOffset
        then some (s.shOffset, { w with len := s.shOffset + s.shSize }) else none := by
  have hextent := inPlaceExtent_placed h
  obtain ⟨hnobits, _, _, _⟩ := liftSection_placed h
  unfold reserveContent Writer.reserveUntil
  rw [hnobits, liftSection_nonempty h, hextent]
  have hoffset : (liftLayout s).shOffset = s.shOffset := rfl
  simp only [hoffset, Bool.false_eq_true, if_false, if_pos hpos]
  by_cases hle : w.len ≤ s.shOffset
  · simp [hle, Writer.reserve, alignUp_one]
  · simp [hle]

theorem reserveContent_not_placed {s : RawSection} (w : Writer) (h : s.placed = false) :
    reserveContent w (liftSection s) (liftLayout s) = some (s.shOffset, w) := by
  unfold reserveContent
  rw [liftSection_not_placed h]
  simp [liftLayout]

theorem reserveSections_cons (w : Writer) (s : RawSection) (ss : List RawSection) :
    reserveSections w ((s :: ss).map fun s => (liftSection s, liftLayout s))
      = (reserveContent (nameSection w (liftSection s)) (liftSection s) (liftLayout s)).bind
        fun r => (reserveSections r.2 (ss.map fun s => (liftSection s, liftLayout s))).bind
          fun q => some ({ planOf s with fileOffset := r.1 } :: q.1, q.2) := rfl

/-- What a reservation leaves as it was. -/
def SameTable (w w' : Writer) : Prop :=
  w'.is64 = w.is64 ∧ w'.buffer = w.buffer ∧ w'.segmentOffset = w.segmentOffset
    ∧ w'.segmentNum = w.segmentNum

theorem nameSection_len (w : Writer) (s : Section) : (nameSection w s).len = w.len := by
  unfold nameSection
  split <;> rfl

theorem nameSection_sameTable (w : Writer) (s : Section) : SameTable w (nameSection w s) := by
  unfold nameSection
  split <;> exact ⟨rfl, rfl, rfl, rfl⟩

theorem SameTable.trans {u v w : Writer} (h : SameTable u v) (h' : SameTable v w) :
    SameTable u w :=
  ⟨h'.1.trans h.1, h'.2.1.trans h.2.1, h'.2.2.1.trans h.2.2.1, h'.2.2.2.trans h.2.2.2⟩

/-- Ranges that can be passed are reserved as they are. -/
theorem reserveSections_of_forward {w : Writer} {ss : List RawSection}
    (hpos : ∀ s ∈ ss, s.placed = true → 0 < s.shOffset)
    (h : Forward w.len (placedRanges ss)) :
    ∃ w', reserveSections w (ss.map fun s => (liftSection s, liftLayout s))
        = some (ss.map planOf, w') ∧ SameTable w w' := by
  induction ss generalizing w with
  | nil => exact ⟨w, rfl, rfl, rfl, rfl, rfl⟩
  | cons s ss ih =>
    have hpos' := fun t ht => hpos t (List.mem_cons_of_mem s ht)
    have hname := nameSection_sameTable w (liftSection s)
    have hlen := nameSection_len w (liftSection s)
    rw [reserveSections_cons]
    by_cases hplaced : s.placed = true
    · rw [placedRanges, List.filter_cons_of_pos hplaced, List.map_cons] at h
      obtain ⟨hle, hrest⟩ := h
      have hle : w.len ≤ s.shOffset := hle
      rw [reserveContent_placed _ hplaced (hpos s List.mem_cons_self hplaced), hlen, if_pos hle,
        Option.bind_some]
      obtain ⟨w', hw', hsame⟩ := ih
        (w := { nameSection w (liftSection s) with len := s.shOffset + s.shSize }) hpos' hrest
      refine ⟨w', by rw [hw']; rfl, ?_⟩
      exact SameTable.trans hname ⟨hsame.1, hsame.2.1, hsame.2.2.1, hsame.2.2.2⟩
    · rw [Bool.not_eq_true] at hplaced
      rw [placedRanges, List.filter_cons_of_neg (by simp [hplaced])] at h
      rw [reserveContent_not_placed _ hplaced, Option.bind_some]
      rw [← hlen] at h
      obtain ⟨w', hw', hsame⟩ := ih hpos' h
      exact ⟨w', by rw [hw']; rfl, SameTable.trans hname hsame⟩

/-- A reservation that succeeds passed the ranges forward. -/
theorem forward_of_reserveSections {w : Writer} {ss : List RawSection}
    (hpos : ∀ s ∈ ss, s.placed = true → 0 < s.shOffset)
    (h : (reserveSections w (ss.map fun s => (liftSection s, liftLayout s))).isSome = true) :
    Forward w.len (placedRanges ss) := by
  induction ss generalizing w with
  | nil => trivial
  | cons s ss ih =>
    have hpos' := fun t ht => hpos t (List.mem_cons_of_mem s ht)
    have hlen := nameSection_len w (liftSection s)
    rw [reserveSections_cons] at h
    by_cases hplaced : s.placed = true
    · rw [reserveContent_placed _ hplaced (hpos s List.mem_cons_self hplaced), hlen] at h
      by_cases hle : w.len ≤ s.shOffset
      · rw [if_pos hle, Option.bind_some] at h
        rw [placedRanges, List.filter_cons_of_pos hplaced, List.map_cons]
        refine ⟨hle, ih (w := { nameSection w (liftSection s) with
          len := s.shOffset + s.shSize }) hpos' ?_⟩
        rw [Option.isSome_bind, Option.any_eq_true] at h
        obtain ⟨q, hq, _⟩ := h
        rw [hq]
        rfl
      · rw [if_neg hle] at h
        cases h
    · rw [Bool.not_eq_true] at hplaced
      rw [reserveContent_not_placed _ hplaced, Option.bind_some] at h
      rw [placedRanges, List.filter_cons_of_neg (by simp [hplaced]), ← hlen]
      apply ih hpos'
      rw [Option.isSome_bind, Option.any_eq_true] at h
      obtain ⟨q, hq, _⟩ := h
      rw [hq]
      rfl

/-- The contents of the sections, with the offsets their headers say. -/
def placedContents (ss : List RawSection) : List (Nat × List Byte) :=
  (ss.filter RawSection.placed).map fun s => (s.shOffset, s.data)

/-- The write phase puts every section's bytes at its source offset. -/
theorem writeSections_of_forward (arch : Architecture) {v : Writer} {ss : List RawSection}
    (hpos : ∀ s ∈ ss, s.placed = true → 0 < s.shOffset)
    (h : Forward v.position (placedRanges ss)) :
    ∃ ps, writeSections arch v ((ss.map planOf).zip (ss.map liftSection)) = some (v.extend ps)
      ∧ programHeadersIn ps = [] ∧ contentsFrom v.is64 v.position ps = placedContents ss := by
  induction ss generalizing v with
  | nil => exact ⟨[], by simp [writeSections], rfl, rfl⟩
  | cons s ss ih =>
    have hpos' := fun t ht => hpos t (List.mem_cons_of_mem s ht)
    rw [List.map_cons, List.map_cons, List.zip_cons_cons, writeSections]
    by_cases hplaced : s.placed = true
    · rw [placedRanges, List.filter_cons_of_pos hplaced, List.map_cons] at h
      obtain ⟨hle, hrest⟩ := h
      obtain ⟨hnobits, hbytes, hlen, hsize⟩ := liftSection_placed hplaced
      have hne := liftSection_nonempty hplaced
      have hplan : (planOf s).isNobits = false := hnobits
      have hextent : (planOf s).inPlaceExtent = s.shSize := inPlaceExtent_placed hplaced
      have hoffset : (planOf s).shOffset = s.shOffset := rfl
      have hle' : v.position ≤ s.shOffset := hle
      rw [hplan, hne, hextent, hoffset, hbytes,
        writeSectionBytes_placed (hpos s List.mem_cons_self hplaced) hle']
      have hfill : sectionPieces arch (liftSection s) s.data s.shSize = [.content s.data] := by
        unfold sectionPieces
        rw [hlen, if_neg (by omega)]
      rw [hfill]
      set v' := v.extend [.padding (s.shOffset - v.position), .content s.data] with hv'
      have hposition : v'.position = s.shOffset + s.shSize := by
        rw [hv', Writer.position_extend]
        simp [Piece.size, hlen]
        omega
      obtain ⟨ps, hps, hnone, hcontents⟩ := ih (v := v') hpos' (by rw [hposition]; exact hrest)
      refine ⟨[.padding (s.shOffset - v.position), .content s.data] ++ ps, ?_, ?_, ?_⟩
      · simp only [Bool.or_self, Bool.false_eq_true, if_false]
        rw [hps, hv', Writer.extend_extend]
      · rw [programHeadersIn_append, hnone]
        rfl
      · rw [contentsFrom_append, placedContents, List.filter_cons_of_pos hplaced, List.map_cons]
        have h64 : v'.is64 = v.is64 := rfl
        have hpos'' : v.position + extent (Piece.size v.is64)
            [.padding (s.shOffset - v.position), .content s.data] = v'.position := by
          rw [hv', Writer.position_extend]
        rw [hpos'', ← h64, hcontents]
        simp only [contentsFrom, Piece.size, List.singleton_append]
        congr 2
        omega
    · rw [Bool.not_eq_true] at hplaced
      have hempty := liftSection_not_placed hplaced
      rw [placedRanges, List.filter_cons_of_neg (by simp [hplaced])] at h
      obtain ⟨ps, hps, hnone, hcontents⟩ := ih hpos' h
      refine ⟨ps, ?_, hnone, ?_⟩
      · rw [hempty]
        simpa using hps
      · rw [hcontents, placedContents, placedContents,
          List.filter_cons_of_neg (by simp [hplaced])]

/-! ## §4. The whole file. -/

/-- The writer once the header and the table are reserved. -/
def tableWriter (f : ElfFile) : Writer :=
  ((Writer.new (parse f).is64).reserveFileHeader.reserveProgramHeaders
    (liftElfImage f).programHeaders.length).reserveSectionIndex

/-- Where the in-place writer puts the table; an empty one has no place. -/
def inPlacePhoff (f : ElfFile) : Nat :=
  if f.programHeaders.length = 0 then 0 else fileHeaderSize (parse f).is64

/-- End of the file header and the table after it. -/
def inPlaceTableEnd (f : ElfFile) : Nat :=
  fileHeaderSize (parse f).is64 + f.programHeaders.length * programHeaderSize (parse f).is64

theorem elfAlign_dvd_fileHeaderSize (is64 : Bool) : elfAlign is64 ∣ fileHeaderSize is64 := by
  cases is64 <;> decide

theorem tableWriter_spec (f : ElfFile) :
    (tableWriter f).is64 = (parse f).is64 ∧ (tableWriter f).buffer = []
      ∧ (tableWriter f).len = inPlaceTableEnd f
      ∧ (tableWriter f).segmentOffset = inPlacePhoff f
      ∧ (tableWriter f).segmentNum = f.programHeaders.length := by
  have halign := alignUp_of_dvd (elfAlign_dvd_fileHeaderSize (parse f).is64)
  have hphdrs : (liftElfImage f).programHeaders = f.programHeaders := rfl
  unfold tableWriter inPlaceTableEnd inPlacePhoff
  rw [hphdrs]
  by_cases hzero : f.programHeaders.length = 0
  · simp [hzero, Writer.reserveProgramHeaders, Writer.reserveFileHeader, Writer.reserve,
      Writer.new, Writer.reserveSectionIndex, alignUp_one]
  · simp [hzero, Writer.reserveProgramHeaders, Writer.reserveFileHeader, Writer.reserve,
      Writer.new, Writer.reserveSectionIndex, alignUp_one, halign]

/-- The file header and the table end where the sections may begin. -/
theorem writeTable_spec {f : ElfFile} {w : Writer} (header : FileHeader)
    (hsame : SameTable (tableWriter f) w) :
    let v := ((w.writeFileHeader header).writeAlignProgramHeaders).writeProgramHeaders
      f.programHeaders
    v.is64 = (parse f).is64 ∧ v.position = inPlaceTableEnd f
      ∧ v.phTable = some (inPlacePhoff f, f.programHeaders.length)
      ∧ v.programHeaders = f.programHeaders ∧ contentsFrom v.is64 0 v.buffer = [] := by
  intro v
  obtain ⟨h64, hbuffer, _, hoffset, hnum⟩ := tableWriter_spec f
  rw [← hsame.1] at h64
  rw [← hsame.2.1] at hbuffer
  rw [← hsame.2.2.1] at hoffset
  rw [← hsame.2.2.2] at hnum
  have hheader : (w.writeFileHeader header).position = fileHeaderSize (parse f).is64 := by
    rw [Writer.writeFileHeader, Writer.push_eq_extend, Writer.position_extend, Writer.position,
      hbuffer, h64]
    simp [Piece.size]
  have halign : (w.writeFileHeader header).writeAlignProgramHeaders
      = (w.writeFileHeader header).extend
        (if inPlacePhoff f = 0 then [] else [.padding 0]) := by
    have hseg : (w.writeFileHeader header).segmentOffset = inPlacePhoff f := hoffset
    have hi : (w.writeFileHeader header).is64 = (parse f).is64 := h64
    unfold Writer.writeAlignProgramHeaders
    rw [hseg]
    by_cases hzero : inPlacePhoff f = 0
    · simp [hzero]
    · rw [if_neg hzero, if_neg hzero, Writer.writeAlign_eq_extend, hheader, hi,
        alignUp_of_dvd (elfAlign_dvd_fileHeaderSize (parse f).is64), Nat.sub_self]
  have hv : v = (w.writeFileHeader header).extend
      ((if inPlacePhoff f = 0 then [] else [.padding 0])
        ++ f.programHeaders.map .programHeader) := by
    show Writer.writeProgramHeaders _ _ = _
    rw [Writer.writeProgramHeaders_eq_extend, halign, Writer.extend_extend]
  have hpieces : ∀ q ∈ f.programHeaders.map Piece.programHeader,
      Piece.size (parse f).is64 q = programHeaderSize (parse f).is64 := by
    intro q hq
    obtain ⟨p, _, rfl⟩ := List.mem_map.mp hq
    rfl
  have hbuf : v.buffer = [.fileHeader header w.segmentOffset w.segmentNum w.sectionOffset
      w.sectionNum] ++ ((if inPlacePhoff f = 0 then [] else [.padding 0])
        ++ f.programHeaders.map .programHeader) := by
    rw [hv, Writer.extend_buffer, Writer.writeFileHeader, Writer.push_eq_extend,
      Writer.extend_buffer, hbuffer, List.nil_append]
  have hi : v.is64 = (parse f).is64 := by
    rw [hv]
    exact h64
  refine ⟨hi, ?_, ?_, ?_, ?_⟩
  · have hi' : (w.writeFileHeader header).is64 = (parse f).is64 := h64
    rw [hv, Writer.position_extend, hheader, hi', extent_append, extent_of_size _ hpieces,
      List.length_map]
    unfold inPlaceTableEnd
    by_cases hzero : inPlacePhoff f = 0
    · simp [hzero]
    · simp [hzero, Piece.size]
  · rw [Writer.phTable, hbuf, ← hoffset, ← hnum]
    rfl
  · rw [Writer.programHeaders, hbuf, programHeadersIn_append, programHeadersIn_append,
      programHeadersIn_programHeaders]
    by_cases hzero : inPlacePhoff f = 0
    · rw [if_pos hzero]
      rfl
    · rw [if_neg hzero]
      rfl
  · rw [hbuf]
    apply contentsFrom_eq_nil
    intro p hp bytes
    simp only [List.mem_append, List.mem_cons, List.not_mem_nil, or_false, List.mem_map] at hp
    obtain rfl | hp | ⟨h, _, rfl⟩ := hp
    · intro heq
      cases heq
    · by_cases hzero : inPlacePhoff f = 0
      · rw [if_pos hzero] at hp
        cases hp
      · rw [if_neg hzero, List.mem_singleton] at hp
        rw [hp]
        intro heq
        cases heq
    · intro heq
      cases heq

/-- The writer once the sections are reserved and the header and table written. -/
def writeTable (strtab : List String → List Byte) (f : ElfFile) (w : Writer) : Writer :=
  ((((w.reserveShstrtabSectionIndex.reserveShstrtab strtab).reserveSectionHeaders).writeFileHeader
    (buildFileHeader (parse f) (liftElfImage f))).writeAlignProgramHeaders).writeProgramHeaders
      f.programHeaders

/-- What follows the sections. -/
def writeTrailer (strtab : List String → List Byte) (v : Writer) (headers : List SectionHeader) :
    Writer :=
  ((v.writeShstrtab strtab).writeNullSectionHeader.writeSectionHeaders
    headers).writeShstrtabSectionHeader strtab

/-- It holds neither program headers nor section contents. -/
theorem writeTrailer_spec (strtab : List String → List Byte) (v : Writer)
    (headers : List SectionHeader) :
    ∃ ps, writeTrailer strtab v headers = v.extend ps
      ∧ programHeadersIn ps = [] ∧ ∀ p ∈ ps, ∀ bytes, p ≠ .content bytes := by
  unfold writeTrailer Writer.writeShstrtabSectionHeader Writer.writeNullSectionHeader
    Writer.writeShstrtab Writer.writeSectionHeader
  rw [Writer.writeSectionHeaders_eq_extend, Writer.writeAlign_eq_extend]
  simp only [Writer.push_eq_extend, Writer.extend_extend]
  refine ⟨_, rfl, ?_, ?_⟩
  · simp only [programHeadersIn_append, programHeadersIn_sectionHeaders]
    rfl
  · intro p hp bytes
    simp only [List.mem_append, List.mem_cons, List.not_mem_nil, or_false, List.mem_map] at hp
    obtain (((rfl | rfl) | rfl) | ⟨h, _, rfl⟩) | rfl := hp <;>
    · intro heq
      cases heq

section RoundTrip

variable {strtab : List String → List Byte} {f : ElfFile}

/-- The in-place writer on an unedited file, phase by phase. -/
theorem writeInPlace_parse (strtab : List String → List Byte) (f : ElfFile) :
    writeInPlace strtab (parse f) (liftElfImage f)
      = (reserveSections (tableWriter f)
          (f.sections.map fun s => (liftSection s, liftLayout s))).bind fun r =>
        (writeSections (parse f).architecture (writeTable strtab f r.2)
          (r.1.zip (f.sections.map liftSection))).bind fun v =>
        some (writeTrailer strtab v
          ((r.1.zip (f.sections.map liftSection)).map fun p => buildSectionHeader p.2 p.1)) := by
  unfold writeInPlace
  rw [layouts_parse]
  rfl

/-- Sections that can be passed after the table: the file is written. -/
theorem writeInPlace_of_forward (strtab : List String → List Byte)
    (hpos : ∀ s ∈ f.sections, s.placed = true → 0 < s.shOffset)
    (h : Forward (inPlaceTableEnd f) (placedRanges f.sections)) :
    ∃ file, writeInPlace strtab (parse f) (liftElfImage f) = some file
      ∧ file.is64 = (parse f).is64
      ∧ file.phTable = some (inPlacePhoff f, f.programHeaders.length)
      ∧ file.programHeaders = f.programHeaders
      ∧ contentsFrom file.is64 0 file.buffer = placedContents f.sections := by
  obtain ⟨_, _, hlen, _, _⟩ := tableWriter_spec f
  rw [← hlen] at h
  obtain ⟨w, hreserve, hsame⟩ := reserveSections_of_forward hpos h
  have hsame' : SameTable (tableWriter f)
      (w.reserveShstrtabSectionIndex.reserveShstrtab strtab).reserveSectionHeaders := hsame
  obtain ⟨hi, hposition, htable, hphdrs, hcontents⟩ :=
    writeTable_spec (buildFileHeader (parse f) (liftElfImage f)) hsame'
  change (writeTable strtab f w).is64 = _ at hi
  change (writeTable strtab f w).position = _ at hposition
  change (writeTable strtab f w).phTable = _ at htable
  change (writeTable strtab f w).programHeaders = _ at hphdrs
  change contentsFrom (writeTable strtab f w).is64 0 (writeTable strtab f w).buffer = _ at hcontents
  rw [hlen, ← hposition] at h
  obtain ⟨ps, hwrite, hnone, hsections⟩ :=
    writeSections_of_forward (parse f).architecture hpos h
  obtain ⟨qs, htrailer, hnone', hcontent'⟩ := writeTrailer_spec strtab
    ((writeTable strtab f w).extend ps)
    (((f.sections.map planOf).zip (f.sections.map liftSection)).map
      fun p => buildSectionHeader p.2 p.1)
  have hrun : writeInPlace strtab (parse f) (liftElfImage f)
      = some ((writeTable strtab f w).extend (ps ++ qs)) := by
    rw [writeInPlace_parse, hreserve, Option.bind_some, hwrite, Option.bind_some, htrailer,
      Writer.extend_extend]
  refine ⟨_, hrun, hi, Writer.phTable_extend _ htable, ?_, ?_⟩
  · show programHeadersIn ((writeTable strtab f w).buffer ++ (ps ++ qs)) = _
    rw [programHeadersIn_append, programHeadersIn_append, hnone, hnone', List.append_nil,
      List.append_nil]
    exact hphdrs
  · have hstart : 0 + extent (Piece.size (writeTable strtab f w).is64)
        (writeTable strtab f w).buffer = (writeTable strtab f w).position := Nat.zero_add _
    rw [Writer.extend_is64, Writer.extend_buffer, contentsFrom_append, hcontents,
      contentsFrom_append, hstart, hsections, contentsFrom_eq_nil _ hcontent', List.nil_append,
      List.append_nil]

/-- A file that is written had its sections in the order of the cursor. -/
theorem forward_of_writeInPlace (hpos : ∀ s ∈ f.sections, s.placed = true → 0 < s.shOffset)
    {file : Writer} (h : writeInPlace strtab (parse f) (liftElfImage f) = some file) :
    Forward (inPlaceTableEnd f) (placedRanges f.sections) := by
  obtain ⟨_, _, hlen, _, _⟩ := tableWriter_spec f
  rw [← hlen]
  apply forward_of_reserveSections hpos
  rw [writeInPlace_parse, Option.bind_eq_some_iff] at h
  obtain ⟨r, hr, _⟩ := h
  rw [hr]
  rfl

theorem write_parse (stub : Section → Nat → Nat → Option (List Byte)) (f : ElfFile) :
    write strtab stub (parse f) = writeInPlace strtab (parse f) (liftElfImage f) := by
  have himage : (parse f).elfImage = some (liftElfImage f) := rfl
  unfold write
  rw [himage]
  dsimp only
  rw [findGrew_parse]

/-! ## §5. When the round trip works. -/

theorem placed_pos (hwell : WellPlaced f) :
    ∀ s ∈ f.sections, s.placed = true → 0 < s.shOffset := by
  intro s hs hplaced
  have hpast := hwell.pastFileHeader s hs (placed_iff.mp hplaced).1
  have hheader : 0 < fileHeaderSize f.is64 := by
    unfold fileHeaderSize
    split <;> decide
  omega

/-- Where the bytes of a section may stand in a file written in place. -/
theorem mem_placedContents {s : RawSection} (hwell : WellPlaced f) (hs : s ∈ f.sections)
    (hbacked : s.fileBacked = true) :
    (s.shOffset, s.data) ∈ placedContents f.sections ↔ s.compressed = false := by
  constructor
  · intro hmem
    obtain ⟨t, ht, heq⟩ := List.mem_map.mp hmem
    obtain ⟨ht, hplaced⟩ := List.mem_filter.mp ht
    obtain ⟨hbacked', huncompressed⟩ := placed_iff.mp hplaced
    by_cases hst : s = t
    · rw [hst]
      exact huncompressed
    · have hapart := hwell.apart.forall hs ht hst hbacked hbacked'
      have hsize := (fileBacked_iff.mp hbacked).2
      have hsize' := (fileBacked_iff.mp hbacked').2
      rw [Prod.mk.injEq] at heq
      unfold Apart RawSection.range at hapart
      omega
  · intro huncompressed
    exact List.mem_map.mpr ⟨s, List.mem_filter.mpr ⟨hs, placed_iff.mpr ⟨hbacked, huncompressed⟩⟩,
      rfl⟩

/-- Uncompressed, the placed sections are the file-backed ones. -/
theorem filter_placed (h : ∀ s ∈ f.sections, s.fileBacked = true → s.compressed = false) :
    f.sections.filter RawSection.placed = f.sections.filter RawSection.fileBacked := by
  apply List.filter_congr
  intro s hs
  by_cases hbacked : s.fileBacked = true
  · rw [hbacked]
    exact placed_iff.mpr ⟨hbacked, h s hs hbacked⟩
  · rw [Bool.not_eq_true] at hbacked
    rw [hbacked, ← Bool.not_eq_true]
    intro hplaced
    rw [(placed_iff.mp hplaced).1] at hbacked
    cases hbacked

theorem contentAt_iff {file : Writer} {offset : Nat} {bytes : List Byte}
    (h : contentsFrom file.is64 0 file.buffer = placedContents f.sections) :
    file.ContentAt offset bytes ↔ (offset, bytes) ∈ placedContents f.sections := by
  rw [← h, mem_contentsFrom]
  rfl

/-- In the file's own word size the table ends where its shape says. -/
theorem inPlaceTableEnd_eq (h : (parse f).is64 = f.is64) :
    inPlaceTableEnd f = fileHeaderSize f.is64 + tableSize f := by
  unfold inPlaceTableEnd tableSize
  rw [h]

/-- A `PT_PHDR` in the file means that its table is not empty. -/
theorem inPlacePhoff_of_mem {p : ProgramHeader} (h : (parse f).is64 = f.is64)
    (hp : p ∈ f.programHeaders) : inPlacePhoff f = fileHeaderSize f.is64 := by
  unfold inPlacePhoff
  rw [if_neg, h]
  intro hzero
  rw [List.length_eq_zero_iff] at hzero
  rw [hzero] at hp
  cases hp

theorem roundTrips_of_inPlaceShape {stub : Section → Nat → Nat → Option (List Byte)}
    (hwell : WellPlaced f) (hshape : InPlaceShape f) :
    RoundTrips f (write strtab stub (parse f)) := by
  have hplaced := filter_placed hshape.uncompressed
  have hforward : Forward (inPlaceTableEnd f) (placedRanges f.sections) := by
    rw [forward_iff, placedRanges, hplaced]
    constructor
    · intro r hr
      obtain ⟨s, hs, rfl⟩ := List.mem_map.mp hr
      obtain ⟨hs, hbacked⟩ := List.mem_filter.mp hs
      rw [inPlaceTableEnd_eq hshape.wordSize]
      exact hshape.afterTable s hs hbacked
    · rw [List.pairwise_map]
      have hboth := (hwell.apart.sublist List.filter_sublist).and hshape.inOrder
      refine hboth.imp_of_mem ?_
      rintro s t hs ht ⟨hapart, hlt⟩
      have hr := hapart (List.mem_filter.mp hs).2 (List.mem_filter.mp ht).2
      unfold Apart RawSection.range at hr
      show s.shOffset + s.shSize ≤ t.shOffset
      have hsize := (fileBacked_iff.mp (List.mem_filter.mp ht).2).2
      omega
  obtain ⟨file, hrun, h64, htable, hphdrs, hcontents⟩ :=
    writeInPlace_of_forward strtab (placed_pos hwell) hforward
  have hsize : file.is64 = f.is64 := h64.trans hshape.wordSize
  refine ⟨file, inPlacePhoff f, f.programHeaders.length, ?_, ?_⟩
  · rw [write_parse, hrun]
  · constructor
    case is64 => exact hsize
    case table => exact htable
    case programHeaders => exact hphdrs
    case sections =>
      intro s hs hbacked
      rw [contentAt_iff hcontents, mem_placedContents hwell hs hbacked]
      exact hshape.uncompressed s hs hbacked
    case tableApart =>
      intro s hs hbacked
      left
      have hafter := hshape.afterTable s hs hbacked
      have hphoff : inPlacePhoff f ≤ fileHeaderSize f.is64 := by
        unfold inPlacePhoff
        rw [hshape.wordSize]
        split
        · exact Nat.zero_le _
        · exact Nat.le_refl _
      rw [hsize]
      show inPlacePhoff f + tableSize f ≤ s.shOffset
      omega
    case ownLocation =>
      intro h hh htype
      rw [hphdrs] at hh
      rw [hsize, inPlacePhoff_of_mem hshape.wordSize hh]
      exact hshape.phdrFirst h hh htype

theorem inPlaceShape_of_roundTrips {stub : Section → Nat → Nat → Option (List Byte)}
    (hwell : WellPlaced f) (htrip : RoundTrips f (write strtab stub (parse f))) :
    InPlaceShape f := by
  obtain ⟨file, phoff, phnum, hwrite, hsame⟩ := htrip
  rw [write_parse] at hwrite
  have hforward := forward_of_writeInPlace (placed_pos hwell) hwrite
  obtain ⟨file', hrun, h64, htable, hphdrs, hcontents⟩ :=
    writeInPlace_of_forward strtab (placed_pos hwell) hforward
  rw [hwrite, Option.some.injEq] at hrun
  subst hrun
  have hword : (parse f).is64 = f.is64 := h64.symm.trans hsame.is64
  have huncompressed : ∀ s ∈ f.sections, s.fileBacked = true → s.compressed = false := by
    intro s hs hbacked
    rw [← mem_placedContents hwell hs hbacked, ← contentAt_iff hcontents]
    exact hsame.sections s hs hbacked
  have hplaced := filter_placed huncompressed
  rw [forward_iff, placedRanges, hplaced, inPlaceTableEnd_eq hword] at hforward
  obtain ⟨hstart, hpairs⟩ := hforward
  constructor
  case wordSize => exact hword
  case inOrder =>
    rw [List.pairwise_map] at hpairs
    refine hpairs.imp_of_mem ?_
    intro s t hs _ hle
    have hsize := (fileBacked_iff.mp (List.mem_filter.mp hs).2).2
    have hle' : s.shOffset + s.shSize ≤ t.shOffset := hle
    omega
  case afterTable =>
    intro s hs hbacked
    exact hstart s.range (List.mem_map.mpr ⟨s, List.mem_filter.mpr ⟨hs, hbacked⟩, rfl⟩)
  case uncompressed => exact huncompressed
  case phdrFirst =>
    intro h hh htype
    have hown := hsame.ownLocation h (by rw [hphdrs]; exact hh) htype
    have hpair := hsame.table
    rw [htable, Option.some.injEq, Prod.mk.injEq] at hpair
    rw [← hpair.1, ← hpair.2, hsame.is64, inPlacePhoff_of_mem hword hh] at hown
    exact hown

/-- **The unedited round trip.**  A well-placed linked file comes back the
same for the loader exactly when it has the shape of the in-place writer. -/
theorem write_unedited_iff (stub : Section → Nat → Nat → Option (List Byte))
    (hwell : WellPlaced f) :
    RoundTrips f (write strtab stub (parse f)) ↔ InPlaceShape f :=
  ⟨inPlaceShape_of_roundTrips hwell, roundTrips_of_inPlaceShape hwell⟩

end RoundTrip

/-! ## §6. A library, and the same library with a segment appended. -/

def textSection : RawSection where
  name := ".text"
  shType := shtProgbits
  shFlags := shfAlloc + shfExecinstr
  shAddr := 0x200
  shOffset := 0x200
  shSize := 4
  shLink := 0
  shInfo := 0
  shAddralign := 4
  shEntsize := 0
  kind := .text
  data := [0xc0, 0x03, 0x5f, 0xd6]
  compressed := false
  dataLength := by decide
  bssNobits := by decide

/-- A shared object as linked: the table after the file header. -/
def linkedLibrary : ElfFile where
  architecture := .aarch64
  kind := .sharedObject
  fileFlags := ⟨0, 0, 0⟩
  eEntry := 0
  is64 := true
  ePhoff := 64
  programHeaders :=
    [⟨ptPhdr, pfR, 64, 64, 64, 112, 112, 8⟩, ⟨ptLoad, pfR + pfX, 0, 0, 0, 0x204, 0x204, 0x1000⟩]
  sections := [textSection]

theorem linkedLibrary_wellPlaced : WellPlaced linkedLibrary where
  linked := Or.inl rfl
  apart := List.pairwise_singleton _ _
  pastFileHeader := by decide
  pastTable := by
    unfold Apart
    decide

theorem linkedLibrary_roundTrips :
    RoundTrips linkedLibrary (write plainStrtab (fun _ _ _ => none) (parse linkedLibrary)) :=
  (write_unedited_iff (fun _ _ _ => none) linkedLibrary_wellPlaced).mpr
    { wordSize := rfl
      inOrder := List.pairwise_singleton _ _
      afterTable := by decide
      uncompressed := by decide
      phdrFirst := by decide }

/-- The section of the appended segment, as the reader sees it again. -/
def appendedSection : RawSection where
  name := ".text.armv8_encode_appended"
  shType := shtProgbits
  shFlags := shfAlloc + shfExecinstr
  shAddr := 0x10000
  shOffset := 0x10000
  shSize := 4
  shLink := 0
  shInfo := 0
  shAddralign := 4
  shEntsize := 0
  kind := .text
  data := [0xc0, 0x03, 0x5f, 0xd6]
  compressed := false
  dataLength := by decide
  bssNobits := by decide

/-- The table of section names, listed last and placed before the new segment. -/
def namesSection : RawSection where
  name := ".shstrtab"
  shType := shtStrtab
  shFlags := 0
  shAddr := 0
  shOffset := 0x204
  shSize := 45
  shLink := 0
  shInfo := 0
  shAddralign := 1
  shEntsize := 0
  kind := .other
  data := plainStrtab [".text", ".text.armv8_encode_appended", ".shstrtab"]
  compressed := false
  dataLength := by decide +kernel
  bssNobits := by decide

/-- What the appended writer makes of the linked library. -/
def appendedLibrary : ElfFile where
  architecture := .aarch64
  kind := .sharedObject
  fileFlags := ⟨0, 0, 0⟩
  eEntry := 0
  is64 := true
  ePhoff := 0x10008
  programHeaders :=
    [⟨ptPhdr, pfR, 0x10008, 0x10008, 0x10008, 168, 168, 8⟩,
      ⟨ptLoad, pfR + pfX, 0, 0, 0, 0x204, 0x204, 0x1000⟩,
      ⟨ptLoad, pfR + pfX, 0x10000, 0x10000, 0x10000, 176, 176, 0x10000⟩]
  sections := [textSection, appendedSection, namesSection]

/-- The appended writer's own output does not survive the in-place writer:
its `PT_PHDR` still points at the end of the file. -/
theorem appendedLibrary_not_roundTrips :
    (∃ file, writeWithAppendedSegmentInner plainStrtab (parse linkedLibrary)
        (liftElfImage linkedLibrary) smallSegment (fun _ => none) none = some file
      ∧ file.programHeaders = appendedLibrary.programHeaders
      ∧ file.phTable = some (appendedLibrary.ePhoff, 3)
      ∧ (∀ s ∈ [textSection, appendedSection], file.ContentAt s.shOffset s.data)
      ∧ file.shstrtabOffset = namesSection.shOffset
      ∧ .strings namesSection.data ∈ file.buffer)
    ∧ WellPlaced appendedLibrary
    ∧ ¬ RoundTrips appendedLibrary
        (write plainStrtab (fun _ _ _ => none) (parse appendedLibrary)) := by
  have hwell : WellPlaced appendedLibrary := by
    constructor
    case linked => exact Or.inl rfl
    case apart =>
      unfold SectionsApart Apart
      decide
    case pastFileHeader => decide
    case pastTable =>
      unfold Apart
      decide
  refine ⟨?_, hwell, ?_⟩
  · have hrun : (writeWithAppendedSegmentInner plainStrtab (parse linkedLibrary)
        (liftElfImage linkedLibrary) smallSegment (fun _ => none) none).any (fun file =>
        decide (file.programHeaders = appendedLibrary.programHeaders)
          && decide (file.phTable = some (appendedLibrary.ePhoff, 3))
          && decide (∀ s ∈ [textSection, appendedSection],
            (s.shOffset, s.data) ∈ contentsFrom file.is64 0 file.buffer)
          && decide (file.shstrtabOffset = namesSection.shOffset)
          && decide (.strings namesSection.data ∈ file.buffer)) = true := by
      decide +kernel
    rw [Option.any_eq_true] at hrun
    obtain ⟨file, hfile, hall⟩ := hrun
    simp only [Bool.and_eq_true, decide_eq_true_eq] at hall
    obtain ⟨⟨⟨⟨hphdrs, htable⟩, hcontents⟩, hoffset⟩, hnames⟩ := hall
    exact ⟨file, hfile, hphdrs, htable, fun s hs => mem_contentsFrom.mp (hcontents s hs), hoffset,
      hnames⟩
  · intro htrip
    have hshape := inPlaceShape_of_roundTrips hwell htrip
    have hphdr := hshape.phdrFirst _ List.mem_cons_self rfl
    exact absurd hphdr.1 (by decide)

end Armv8Encode.Elf

/-
  Armv8Encode.Container.Elf.AppendedSpec — where the appended writer puts things.

  The reserve phase computes offsets, the write phase produces bytes, and
  nothing but their agreement makes the first describe the second.  The file
  states the offsets as arithmetic on the input (`AppendedOffsets`), shows
  that the write phase stands at the reserved cursor after every part, and
  concludes with what a finished file looks like (`AppendedFile`).
-/
import Armv8Encode.Container.Elf.Appended

namespace Armv8Encode.Elf

open Lib

/-! ## §1. The cursor over the sections. -/

/-- Cursor after the sections with an offset. -/
def placedEnd (start : Nat) (ps : List SectionPrep) : Nat :=
  ps.foldl (fun _ p => p.layout.shOffset + p.inPlaceExtent) start

/-- Cursor after the sections without one. -/
def tailEnd (start : Nat) (ps : List SectionPrep) : Nat :=
  ps.foldl (fun cursor p => alignUp cursor (max p.source.align 1) + p.inPlaceExtent) start

theorem length_le_inPlaceExtent {p : SectionPrep} (h : p.inFile = true) :
    p.bytes.length ≤ p.inPlaceExtent := by
  unfold SectionPrep.inFile at h
  unfold SectionPrep.inPlaceExtent
  rw [Bool.and_eq_true, Bool.not_eq_true', Bool.not_eq_true'] at h
  rw [h.1, h.2]
  split
  · next hfalse => simp at hfalse
  · split
    · exact Nat.le_max_right _ _
    · exact Nat.le_refl _

theorem reservePlaced_eq {w w' : Writer} {ps : List SectionPrep}
    (h : reservePlaced w ps = some w') : w' = { w with len := placedEnd w.len ps } := by
  induction ps generalizing w with
  | nil =>
    simp only [reservePlaced, Option.some.injEq] at h
    rw [← h]
    rfl
  | cons p ps ih =>
    unfold reservePlaced Writer.reserveUntil at h
    split at h
    · cases h
    · next hle =>
      split at hle
      · cases hle
        rw [ih h]
        simp [placedEnd, Writer.reserve, alignUp_one]
      · cases hle

theorem reserveTail_fst (w : Writer) (ps : List SectionPrep) :
    (reserveTail w ps).1 = { w with len := tailEnd w.len ps } := by
  induction ps generalizing w with
  | nil => rfl
  | cons p ps ih =>
    show (reserveTail (w.reserve p.inPlaceExtent (max p.source.align 1)).2 ps).1 = _
    rw [ih]
    rfl

theorem mem_placementOrder {preps : List SectionPrep} {p : SectionPrep} :
    p ∈ placementOrder preps ↔ p ∈ preps ∧ p.inFile = true ∧ 0 < p.layout.shOffset := by
  unfold placementOrder
  rw [List.mem_insertionSort, List.mem_filter, Bool.and_eq_true, decide_eq_true_eq]

theorem mem_tailOrder {preps : List SectionPrep} {p : SectionPrep} :
    p ∈ tailOrder preps ↔ p ∈ preps ∧ p.inFile = true ∧ p.layout.shOffset = 0 := by
  unfold tailOrder
  rw [List.mem_filter, Bool.and_eq_true, beq_iff_eq]

/-! ## §2. The write phase keeps step with the reserve phase. -/

/-- What writing a run of sections amounts to: body pieces from the cursor the
reserve phase started at to the cursor it reached. -/
structure WrittenTo (v : Writer) (pieces : List Piece) (stop : Nat) : Prop where
  body : ∀ q ∈ pieces, q.isBody = true
  position : (v.extend pieces).position = stop

theorem WrittenTo.cons {v : Writer} {p : SectionPrep} {pad : Nat} {pieces : List Piece}
    {arch : Architecture} {stop : Nat}
    (h : WrittenTo (v.extend (.padding pad :: sectionPieces arch p.source p.bytes p.inPlaceExtent))
      pieces stop) :
    WrittenTo v ((.padding pad :: sectionPieces arch p.source p.bytes p.inPlaceExtent) ++ pieces)
      stop where
  body := by
    intro q hq
    rw [List.mem_append, List.mem_cons] at hq
    obtain (rfl | hq) | hq := hq
    · rfl
    · exact isBody_sectionPieces hq
    · exact h.body q hq
  position := by
    rw [← Writer.extend_extend]
    exact h.position

/-- The writer after one section's pieces. -/
theorem position_sectionPieces {arch : Architecture} (v : Writer) {p : SectionPrep}
    (hfile : p.inFile = true) (pad : Nat) :
    (v.extend (.padding pad :: sectionPieces arch p.source p.bytes p.inPlaceExtent)).position
      = v.position + pad + p.inPlaceExtent := by
  rw [Writer.position_extend, extent_cons, extent_sectionPieces (length_le_inPlaceExtent hfile)]
  simp only [Piece.size]
  omega

/-- A section's bytes stand where its padding ends. -/
theorem contentAt_sectionPieces (arch : Architecture) (v : Writer) (s : Section)
    (bytes : List Byte) (inPlaceExtent pad : Nat) :
    (v.extend (.padding pad :: sectionPieces arch s bytes inPlaceExtent)).ContentAt
      (v.position + pad) bytes := by
  have hrun : RunAt (Piece.size v.is64) _ _ _ :=
    runAt_end (v.buffer ++ [.padding pad]) [Piece.content bytes]
  rw [extent_append] at hrun
  have h := hrun.append
    (if 0 < inPlaceExtent - bytes.length
      then [.content (trailingFill arch s (inPlaceExtent - bytes.length))] else [])
  simpa [Writer.ContentAt, sectionPieces, Writer.position, Piece.size] using h

/-- Sections with an offset: a reservation that succeeds is one that can be written. -/
theorem writePlaced_placed (arch : Architecture) {w w' v : Writer} {ps : List SectionPrep}
    (hps : ∀ p ∈ ps, p.inFile = true ∧ 0 < p.layout.shOffset) (hstep : v.position = w.len)
    (h : reservePlaced w ps = some w') :
    ∃ pieces, writePlaced arch v ps = some (v.extend pieces) ∧ WrittenTo v pieces w'.len
      ∧ ∀ p ∈ ps, (v.extend pieces).ContentAt p.layout.shOffset p.bytes := by
  induction ps generalizing w v with
  | nil =>
    simp only [reservePlaced, Option.some.injEq] at h
    subst h
    exact ⟨[], by simp [writePlaced], ⟨by simp, by simpa using hstep⟩, by simp⟩
  | cons p ps ih =>
    obtain ⟨hfile, hpos⟩ := hps p List.mem_cons_self
    unfold reservePlaced Writer.reserveUntil at h
    by_cases hle : w.len ≤ p.layout.shOffset
    · rw [if_pos hle] at h
      have hv : v.position ≤ p.layout.shOffset := by omega
      have hnext : (v.extend (.padding (p.layout.shOffset - v.position)
          :: sectionPieces arch p.source p.bytes p.inPlaceExtent)).position
          = (Writer.reserve { w with len := p.layout.shOffset } p.inPlaceExtent 1).2.len := by
        rw [position_sectionPieces v hfile]
        simp only [Writer.reserve, alignUp_one]
        omega
      obtain ⟨pieces, hwrite, hto, hat⟩ :=
        ih (fun q hq => hps q (List.mem_cons_of_mem p hq)) hnext h
      refine ⟨_, ?_, hto.cons, ?_⟩
      · rw [writePlaced, writeSectionBytes_placed hpos hv]
        simpa using hwrite
      · intro q hq
        rw [← Writer.extend_extend]
        obtain rfl | hq := List.mem_cons.mp hq
        · have hself := contentAt_sectionPieces arch v q.source q.bytes q.inPlaceExtent
            (q.layout.shOffset - v.position)
          rw [show v.position + (q.layout.shOffset - v.position) = q.layout.shOffset by omega]
            at hself
          exact RunAt.append hself pieces
        · exact hat q hq
    · rw [if_neg hle] at h
      cases h

/-- Sections without an offset can always be written. -/
theorem writePlaced_tail (arch : Architecture) {w v : Writer} (ps : List SectionPrep)
    (hps : ∀ p ∈ ps, p.inFile = true ∧ p.layout.shOffset = 0) (hstep : v.position = w.len) :
    ∃ pieces, writePlaced arch v ps = some (v.extend pieces)
      ∧ WrittenTo v pieces (reserveTail w ps).1.len := by
  induction ps generalizing w v with
  | nil => exact ⟨[], by simp [writePlaced], ⟨by simp, by simpa [reserveTail] using hstep⟩⟩
  | cons p ps ih =>
    obtain ⟨hfile, hzero⟩ := hps p List.mem_cons_self
    have hnext : (v.extend (.padding (alignUp v.position (max p.source.align 1) - v.position)
        :: sectionPieces arch p.source p.bytes p.inPlaceExtent)).position
        = (w.reserve p.inPlaceExtent (max p.source.align 1)).2.len := by
      have hle := le_alignUp w.len (max p.source.align 1)
      rw [position_sectionPieces v hfile, hstep]
      simp only [Writer.reserve]
      omega
    obtain ⟨pieces, hwrite, hto⟩ := ih (fun q hq => hps q (List.mem_cons_of_mem p hq)) hnext
    refine ⟨_, ?_, hto.cons⟩
    rw [writePlaced, hzero, writeSectionBytes_tail]
    simpa using hwrite

theorem writePlaced_append (arch : Architecture) (v : Writer) (ps qs : List SectionPrep) :
    writePlaced arch v (ps ++ qs) = (writePlaced arch v ps).bind (writePlaced arch · qs) := by
  induction ps generalizing v with
  | nil => rfl
  | cons p ps ih =>
    rw [List.cons_append, writePlaced, writePlaced]
    cases writeSectionBytes arch v p.source p.bytes p.layout.shOffset p.inPlaceExtent with
    | none => rfl
    | some w => exact ih w

/-! ## §3. The offsets, from the input alone. -/

/-- The cursor of the reserve phase, part by part. -/
structure AppendedOffsets where
  /-- End of the sections. -/
  sections : Nat
  /-- End of the section-header table. -/
  headers : Nat
  /-- Start of the writable segment. -/
  writable : Nat
  /-- Start of the appended segment. -/
  appended : Nat
  /-- Start of the program-header table. -/
  table : Nat
  /-- End of the file. -/
  stop : Nat

def sectionNames (sections : List Section) : List String :=
  (sections.map Section.name).filter (· ≠ "")

/-- The names in the string table, in the order they were added. -/
def appendedNames (c : Container) (a : AppendedSegment) (writable : Option WritableSegment) :
    List String :=
  sectionNames c.sections ++ a.sectionName :: writable.toList.map WritableSegment.sectionName
    ++ [".shstrtab"]

/-- Null entry, source sections, appended sections, string table. -/
def sectionHeaderCount (c : Container) (writable : Option WritableSegment) : Nat :=
  c.sections.length + 3 + writablePtLoadCount writable

def appendedOffsets (strtab : List String → List Byte) (c : Container) (image : Image)
    (a : AppendedSegment) (overrides : Nat → Option (List Byte))
    (writable : Option WritableSegment) : AppendedOffsets :=
  let preps := prepSections image overrides c.sections
  let sections :=
    tailEnd (placedEnd (fileHeaderSize c.is64) (placementOrder preps)) (tailOrder preps)
  let headers := alignUp (sections + (strtab (appendedNames c a writable)).length)
      (elfAlign c.is64)
    + sectionHeaderCount c writable * sectionHeaderSize c.is64
  let writableStart := alignUp headers appendPageAlign
  let writableStop :=
    match writable with
    | none => headers
    | some x => writableStart + x.bytes.length
  let appended := alignUp writableStop appendPageAlign
  let table := alignUp (appended + a.bytes.length) (elfAlign c.is64)
  { sections := sections
    headers := headers
    writable := writableStart
    appended := appended
    table := table
    stop := table + phdrCount image a writable * programHeaderSize c.is64 }

theorem foldl_nameSection (w : Writer) (sections : List Section) :
    sections.foldl nameSection w
      = { w with
          sectionNum := w.sectionNum + sections.length
          names := w.names ++ sectionNames sections } := by
  induction sections generalizing w with
  | nil => simp [sectionNames]
  | cons s sections ih =>
    rw [List.foldl_cons, ih]
    unfold nameSection sectionNames
    by_cases hname : s.name = ""
    · simp [hname, Writer.reserveSectionIndex]
      omega
    · simp [hname, Writer.reserveSectionIndex, Writer.addSectionName]
      omega

/-- The writer as the sections find it. -/
theorem namedWriter_eq (c : Container) :
    c.sections.foldl nameSection (Writer.new c.is64).reserveFileHeader.reserveSectionIndex
      = ⟨c.is64, fileHeaderSize c.is64, 0, 0, 0, 1 + c.sections.length, 0,
          sectionNames c.sections, []⟩ := by
  rw [foldl_nameSection]
  simp [Writer.reserveFileHeader, Writer.reserveSectionIndex, Writer.reserve, Writer.new,
    alignUp_one]

theorem phdrCount_pos (image : Image) (a : AppendedSegment) (writable : Option WritableSegment) :
    0 < phdrCount image a writable := by
  unfold phdrCount
  omega

/-- Offsets past the sections, from the cursor they end at. -/
theorem reserveAppended_offsets (strtab : List String → List Byte) {c : Container}
    (image : Image) (a : AppendedSegment) (overrides : Nat → Option (List Byte))
    (writable : Option WritableSegment) {w : Writer}
    (hlen : w.len = (appendedOffsets strtab c image a overrides writable).sections)
    (his64 : w.is64 = c.is64) (hnum : w.sectionNum = 1 + c.sections.length)
    (hnames : w.names = sectionNames c.sections) :
    let o := appendedOffsets strtab c image a overrides writable
    let r := reserveAppended strtab w image a writable
    r.2.1 = o.appended ∧ (∀ x, writable = some x → r.1 = o.writable) ∧ r.2.2.is64 = c.is64
      ∧ r.2.2.buffer = w.buffer ∧ r.2.2.names = appendedNames c a writable
      ∧ r.2.2.segmentOffset = o.table ∧ r.2.2.segmentNum = phdrCount image a writable := by
  intro o r
  have hcount := (phdrCount_pos image a writable).ne'
  cases writable with
  | none =>
    have hheaders : o.headers = alignUp (w.len + (strtab (appendedNames c a none)).length)
        (elfAlign c.is64) + (1 + c.sections.length + 1 + 1) * sectionHeaderSize c.is64 := by
      rw [hlen, show 1 + c.sections.length + 1 + 1 = c.sections.length + 3 by omega]
      rfl
    have happ : o.appended = alignUp o.headers appendPageAlign := rfl
    have htable : o.table = alignUp (o.appended + a.bytes.length) (elfAlign c.is64) := rfl
    rw [htable, happ, hheaders]
    simp [r, reserveAppended, reserveWritable, nameWritable, Writer.reserveProgramHeaders, hcount,
      Writer.reserve, Writer.reserveSectionHeaders, Writer.reserveShstrtab,
      Writer.reserveShstrtabSectionIndex, Writer.addSectionName, Writer.reserveSectionIndex,
      alignUp_one, appendedNames, his64, hnum, hnames]
  | some x =>
    have hheaders : o.headers = alignUp (w.len + (strtab (appendedNames c a (some x))).length)
        (elfAlign c.is64) + (1 + c.sections.length + 1 + 1 + 1) * sectionHeaderSize c.is64 := by
      rw [hlen, show 1 + c.sections.length + 1 + 1 + 1 = c.sections.length + 3 + 1 by omega]
      rfl
    have hwritable : o.writable = alignUp o.headers appendPageAlign := rfl
    have happ : o.appended = alignUp (o.writable + x.bytes.length) appendPageAlign := rfl
    have htable : o.table = alignUp (o.appended + a.bytes.length) (elfAlign c.is64) := rfl
    rw [htable, happ, hwritable, hheaders]
    simp [r, reserveAppended, reserveWritable, nameWritable, Writer.reserveProgramHeaders, hcount,
      Writer.reserve, Writer.reserveSectionHeaders, Writer.reserveShstrtab,
      Writer.reserveShstrtabSectionIndex, Writer.addSectionName, Writer.reserveSectionIndex,
      alignUp_one, appendedNames, his64, hnum, hnames]

/-- The reserve phase reserves what the offsets say. -/
theorem reservePhase_offsets {strtab : List String → List Byte} {c : Container} {image : Image}
    {a : AppendedSegment} {overrides : Nat → Option (List Byte)}
    {writable : Option WritableSegment} {plan : AppendedPlan} {w : Writer}
    (h : reservePhase strtab c image a overrides writable = some (plan, w)) :
    let o := appendedOffsets strtab c image a overrides writable
    ∃ w₀ w₁, reservePlaced w₀ (placementOrder (prepSections image overrides c.sections)) = some w₁
      ∧ w₀.len = fileHeaderSize c.is64
      ∧ (reserveTail w₁ (tailOrder (prepSections image overrides c.sections))).1.len = o.sections
      ∧ plan.planned.length = c.sections.length
      ∧ plan.appendedFileOffset = o.appended
      ∧ (∀ x, writable = some x → plan.writableFileOffset = o.writable)
      ∧ w.is64 = c.is64 ∧ w.buffer = [] ∧ w.names = appendedNames c a writable
      ∧ w.segmentOffset = o.table ∧ w.segmentNum = phdrCount image a writable := by
  intro o
  unfold reservePhase at h
  simp only [namedWriter_eq, Option.bind_eq_bind, Option.bind_eq_some_iff, Option.some.injEq,
    Prod.mk.injEq] at h
  obtain ⟨w₁, hplaced, rfl, rfl⟩ := h
  have hw₁ := reservePlaced_eq hplaced
  have htail := reserveTail_fst w₁ (tailOrder (prepSections image overrides c.sections))
  have hsections : (reserveTail w₁ (tailOrder (prepSections image overrides c.sections))).1.len
      = o.sections := by
    rw [htail, hw₁]
    rfl
  have hrest := reserveAppended_offsets strtab image a overrides writable hsections
    (by rw [htail, hw₁]) (by rw [htail, hw₁]) (by rw [htail, hw₁])
  obtain ⟨happ, hwritable, his64, hbuffer, hnames, hoffset, hnum⟩ := hrest
  refine ⟨_, w₁, hplaced, rfl, hsections, by simp [prepSections], happ, hwritable, his64, ?_,
    hnames, hoffset, hnum⟩
  rw [hbuffer, htail, hw₁]

/-! ## §4. The finished file. -/

/-- What the appended writer produces, at the offsets computed from its input. -/
structure AppendedFile (c : Container) (image : Image) (a : AppendedSegment)
    (overrides : Nat → Option (List Byte)) (writable : Option WritableSegment)
    (o : AppendedOffsets) (file : Writer) : Prop where
  is64 : file.is64 = c.is64
  phTable : file.phTable = some (o.table, phdrCount image a writable)
  programHeaders : ∃ woff, (∀ x, writable = some x → woff = o.writable)
    ∧ file.programHeaders = emittedPhdrs image a writable woff o.appended
  length : file.position = o.stop
  sections : ∀ p ∈ placementOrder (prepSections image overrides c.sections),
    file.ContentAt p.layout.shOffset p.bytes
  writableAt : ∀ x, writable = some x → file.ContentAt o.writable x.bytes
  appendedAt : file.ContentAt o.appended a.bytes
  tableAt : RunAt (Piece.size file.is64) file.buffer o.table
    (file.programHeaders.map .programHeader)

theorem emittedPhdrs_length (image : Image) (a : AppendedSegment)
    (writable : Option WritableSegment) (woff aoff : Nat) :
    (emittedPhdrs image a writable woff aoff).length = phdrCount image a writable := by
  have hloads : (appendedLoads image a writable aoff).length = appendedPtLoadCount a := by
    unfold appendedLoads appendedPtLoadCount
    by_cases hsplit : computeCodeDataSplit a = 0 <;> simp [hsplit]
  have hwritable : (writable.toList.map fun x => writableLoad x woff).length
      = writablePtLoadCount writable := by
    cases writable <;> rfl
  unfold emittedPhdrs newLoads phdrCount
  rw [List.length_cons, List.length_append, List.length_append, List.length_map, hloads, hwritable]
  omega

/-- The string table and the section headers end at the reserved cursor. -/
theorem writeHeaders_spec (strtab : List String → List Byte) {c : Container} (image : Image)
    (a : AppendedSegment) (overrides : Nat → Option (List Byte))
    (writable : Option WritableSegment) {plan : AppendedPlan} {v : Writer}
    (hplanned : plan.planned.length = c.sections.length)
    (hposition : v.position = (appendedOffsets strtab c image a overrides writable).sections)
    (his64 : v.is64 = c.is64) (hnames : v.names = appendedNames c a writable) :
    let v' := (((v.writeShstrtab strtab).writeNullSectionHeader).writeSectionHeaders
      (appendedSectionHeaders c plan a writable)).writeShstrtabSectionHeader strtab
    v.Before v' ∧ v'.position = (appendedOffsets strtab c image a overrides writable).headers := by
  intro v'
  have hbefore : v.Before v' :=
    (((Writer.before_push_strings _).trans ((Writer.before_writeAlign _).trans
      (Writer.before_writeSectionHeader _))).trans (Writer.before_writeSectionHeaders _)).trans
      (Writer.before_writeSectionHeader _)
  refine ⟨hbefore, ?_⟩
  have hcount : (appendedSectionHeaders c plan a writable).length + 2
      = sectionHeaderCount c writable := by
    unfold appendedSectionHeaders sectionHeaderCount writablePtLoadCount
    cases writable <;> simp [hplanned]
  have hsize : ∀ q ∈ (appendedSectionHeaders c plan a writable).map Piece.sectionHeader,
      Piece.size c.is64 q = sectionHeaderSize c.is64 := by
    intro q hq
    obtain ⟨header, _, rfl⟩ := List.mem_map.mp hq
    rfl
  have hnull : ((v.writeShstrtab strtab).writeNullSectionHeader).position
      = alignUp (v.position + (strtab v.names).length) (elfAlign c.is64)
        + sectionHeaderSize c.is64 := by
    unfold Writer.writeNullSectionHeader Writer.writeSectionHeader
    rw [Writer.push_eq_extend, Writer.position_extend, Writer.position_writeAlign,
      Writer.writeShstrtab, Writer.push_eq_extend, Writer.position_extend]
    have hnames : (v.extend [.strings (strtab v.names)]).is64 = c.is64 := his64
    have halign : ((v.extend [.strings (strtab v.names)]).writeAlign (elfAlign c.is64)).is64
        = c.is64 := his64
    rw [hnames, halign]
    simp [Piece.size]
  have hlast : v'.position = alignUp (v.position + (strtab v.names).length) (elfAlign c.is64)
      + sectionHeaderSize c.is64
      + (appendedSectionHeaders c plan a writable).length * sectionHeaderSize c.is64
      + sectionHeaderSize c.is64 := by
    show (Writer.writeSectionHeader _ _).position = _
    unfold Writer.writeSectionHeader
    rw [Writer.push_eq_extend, Writer.position_extend, Writer.writeSectionHeaders_eq_extend,
      Writer.position_extend, hnull]
    have hi : ((v.writeShstrtab strtab).writeNullSectionHeader).is64 = c.is64 := his64
    rw [Writer.extend_is64, hi, extent_of_size _ hsize, List.length_map]
    simp [Piece.size]
  rw [hlast, hposition, hnames]
  show _ = alignUp _ _ + sectionHeaderCount c writable * sectionHeaderSize c.is64
  rw [← hcount, Nat.add_mul]
  show _ + _ + _ = alignUp ((appendedOffsets strtab c image a overrides writable).sections + _) _
    + _
  omega

/-- Where the writable segment ends, if there is one. -/
def writableStop (o : AppendedOffsets) : Option WritableSegment → Nat
  | none => o.headers
  | some x => o.writable + x.bytes.length

theorem writeWritable_spec (strtab : List String → List Byte) {c : Container} {image : Image}
    (a : AppendedSegment) {overrides : Nat → Option (List Byte)}
    {writable : Option WritableSegment} {v : Writer}
    (hposition : v.position = (appendedOffsets strtab c image a overrides writable).headers) :
    let o := appendedOffsets strtab c image a overrides writable
    v.Before (writeWritable v writable)
      ∧ (writeWritable v writable).position = writableStop o writable
      ∧ ∀ x, writable = some x → (writeWritable v writable).ContentAt o.writable x.bytes := by
  intro o
  cases writable with
  | none =>
    refine ⟨Writer.Before.refl v, hposition, ?_⟩
    intro x hx
    cases hx
  | some x =>
    have hwritable : (v.writeAlign appendPageAlign).position = o.writable := by
      rw [Writer.position_writeAlign, hposition]
      rfl
    refine ⟨(Writer.before_writeAlign _).trans (Writer.before_write _), ?_, ?_⟩
    · show (Writer.write _ _).position = _
      rw [Writer.position_write, hwritable]
      rfl
    · intro y hy
      cases hy
      rw [← hwritable]
      exact Writer.contentAt_write x.bytes

theorem elfTable_pos (strtab : List String → List Byte) (c : Container) (image : Image)
    (a : AppendedSegment) (overrides : Nat → Option (List Byte))
    (writable : Option WritableSegment) :
    0 < (appendedOffsets strtab c image a overrides writable).headers := by
  show 0 < _ + sectionHeaderCount c writable * sectionHeaderSize c.is64
  have hsize : 0 < sectionHeaderSize c.is64 := by
    unfold sectionHeaderSize
    split <;> decide
  have hcount : 0 < sectionHeaderCount c writable := by
    unfold sectionHeaderCount
    omega
  have hpos := Nat.mul_pos hcount hsize
  omega

theorem headers_le_appended (strtab : List String → List Byte) (c : Container) (image : Image)
    (a : AppendedSegment) (overrides : Nat → Option (List Byte))
    (writable : Option WritableSegment) :
    let o := appendedOffsets strtab c image a overrides writable
    o.headers ≤ writableStop o writable ∧ writableStop o writable ≤ o.appended
      ∧ o.appended + a.bytes.length ≤ o.table := by
  intro o
  refine ⟨?_, ?_, le_alignUp _ _⟩
  · cases writable with
    | none => exact Nat.le_refl _
    | some x =>
      have hle : o.headers ≤ o.writable := le_alignUp _ _
      show o.headers ≤ o.writable + x.bytes.length
      omega
  · cases writable with
    | none => exact le_alignUp _ _
    | some x => exact le_alignUp _ _

theorem appended_eq (strtab : List String → List Byte) (c : Container) (image : Image)
    (a : AppendedSegment) (overrides : Nat → Option (List Byte))
    (writable : Option WritableSegment) :
    let o := appendedOffsets strtab c image a overrides writable
    o.appended = alignUp (writableStop o writable) appendPageAlign := by
  cases writable <;> rfl

/-- The write phase up to the end of the sections: what was reserved is written. -/
theorem writeSections_spec {strtab : List String → List Byte} {c : Container} {image : Image}
    {a : AppendedSegment} {overrides : Nat → Option (List Byte)}
    {writable : Option WritableSegment} {plan : AppendedPlan} {w : Writer}
    (hreserve : reservePhase strtab c image a overrides writable = some (plan, w)) :
    ∃ v, writePlaced c.architecture (w.writeFileHeader (buildFileHeader c image))
      (placementOrder (prepSections image overrides c.sections)
        ++ tailOrder (prepSections image overrides c.sections)) = some v
      ∧ (w.writeFileHeader (buildFileHeader c image)).Before v
      ∧ v.position = (appendedOffsets strtab c image a overrides writable).sections
      ∧ ∀ p ∈ placementOrder (prepSections image overrides c.sections),
        v.ContentAt p.layout.shOffset p.bytes := by
  obtain ⟨w₀, w₁, hplaced, hstart, htail, _, _, _, his64, hbuffer, _, _, _⟩ :=
    reservePhase_offsets hreserve
  have hheader : (w.writeFileHeader (buildFileHeader c image)).position = w₀.len := by
    rw [hstart, Writer.writeFileHeader, Writer.push_eq_extend, Writer.position_extend, his64,
      Writer.position, hbuffer]
    simp [Piece.size]
  obtain ⟨ps, hps, hto, hat⟩ := writePlaced_placed c.architecture
    (fun p hp => (mem_placementOrder.mp hp).2) hheader hplaced
  obtain ⟨qs, hqs, hto'⟩ := writePlaced_tail c.architecture
    (tailOrder (prepSections image overrides c.sections))
    (fun p hp => (mem_tailOrder.mp hp).2) hto.position
  refine ⟨_, by rw [writePlaced_append, hps, Option.bind_some, hqs], ?_, ?_, ?_⟩
  · exact (Writer.before_extend (programHeadersIn_body hto.body)).trans
      (Writer.before_extend (programHeadersIn_body hto'.body))
  · rw [hto'.position, htail]
  · intro p hp
    exact RunAt.append (hat p hp) qs

/-- The writer fails only where a section's offset lies before the cursor. -/
theorem writeWithAppendedSegmentInner_isSome (strtab : List String → List Byte) (c : Container)
    (image : Image) (a : AppendedSegment) (overrides : Nat → Option (List Byte))
    (writable : Option WritableSegment) :
    (writeWithAppendedSegmentInner strtab c image a overrides writable).isSome
      = (reservePlaced
          (c.sections.foldl nameSection (Writer.new c.is64).reserveFileHeader.reserveSectionIndex)
          (placementOrder (prepSections image overrides c.sections))).isSome := by
  unfold writeWithAppendedSegmentInner
  cases hreserve : reservePhase strtab c image a overrides writable with
  | none =>
    unfold reservePhase at hreserve
    simp only [Option.bind_eq_bind, Option.bind_eq_none_iff, reduceCtorEq, imp_false] at hreserve
    rw [Option.eq_none_iff_forall_ne_some.mpr hreserve]
    rfl
  | some r =>
    obtain ⟨v, hv, _⟩ := writeSections_spec hreserve
    have hplaced : (reservePlaced (c.sections.foldl nameSection
        (Writer.new c.is64).reserveFileHeader.reserveSectionIndex)
        (placementOrder (prepSections image overrides c.sections))).isSome = true := by
      unfold reservePhase at hreserve
      simp only [Option.bind_eq_bind, Option.bind_eq_some_iff] at hreserve
      obtain ⟨w₁, hw₁, _⟩ := hreserve
      rw [hw₁]
      rfl
    rw [hplaced]
    simp only [Option.bind_eq_bind, Option.bind_some, hv]
    rfl

/-- **What the appended writer produces.** -/
theorem writeWithAppendedSegmentInner_file {strtab : List String → List Byte} {c : Container}
    {image : Image} {a : AppendedSegment} {overrides : Nat → Option (List Byte)}
    {writable : Option WritableSegment} {file : Writer}
    (h : writeWithAppendedSegmentInner strtab c image a overrides writable = some file) :
    AppendedFile c image a overrides writable
      (appendedOffsets strtab c image a overrides writable) file := by
  unfold writeWithAppendedSegmentInner at h
  simp only [Option.bind_eq_bind, Option.bind_eq_some_iff, Option.some.injEq, Prod.exists] at h
  obtain ⟨plan, w, hreserve, v, hsections, hfile⟩ := h
  obtain ⟨_, _, _, _, _, hplanned, happ, hwoff, his64, hbuffer, hnames, hoffset, hnum⟩ :=
    reservePhase_offsets hreserve
  obtain ⟨v', hv', hbefore, hpos, hat⟩ := writeSections_spec hreserve
  obtain rfl : v = v' := by simpa [hv'] using hsections.symm
  have hv64 : v.is64 = c.is64 := hbefore.is64_eq.trans his64
  obtain ⟨hbefore₁, hpos₁⟩ := writeHeaders_spec strtab image a overrides writable hplanned hpos
    hv64 (hbefore.names_eq.trans hnames)
  obtain ⟨hbefore₂, hpos₂, hat₂⟩ := writeWritable_spec strtab a hpos₁
  generalize hv₁ : (((v.writeShstrtab strtab).writeNullSectionHeader).writeSectionHeaders
      (appendedSectionHeaders c plan a writable)).writeShstrtabSectionHeader strtab = v₁
    at hfile hbefore₁ hbefore₂ hpos₂ hat₂
  generalize hv₂ : writeWritable v₁ writable = v₂ at hfile hbefore₂ hpos₂ hat₂
  obtain ⟨hle₁, hle₂, hle₃⟩ := headers_le_appended strtab c image a overrides writable
  have hheaders := elfTable_pos strtab c image a overrides writable
  set o := appendedOffsets strtab c image a overrides writable with ho
  -- the appended segment, at the page after the writable one
  have hseg : (v₂.writeAlign appendPageAlign).position = o.appended := by
    rw [Writer.position_writeAlign, hpos₂]
    exact (appended_eq strtab c image a overrides writable).symm
  have hbefore₃ : v₂.Before ((v₂.writeAlign appendPageAlign).write a.bytes) :=
    (Writer.before_writeAlign _).trans (Writer.before_write _)
  generalize hv₃ : (v₂.writeAlign appendPageAlign).write a.bytes = v₃ at hfile hbefore₃
  have hpos₃ : v₃.position = o.appended + a.bytes.length := by
    rw [← hv₃, Writer.position_write, hseg]
  have hat₃ : v₃.ContentAt o.appended a.bytes := by
    rw [← hv₃, ← hseg]
    exact Writer.contentAt_write a.bytes
  -- the table, at its own alignment
  have hall : (w.writeFileHeader (buildFileHeader c image)).Before v₃ :=
    ((hbefore.trans hbefore₁).trans hbefore₂).trans hbefore₃
  have h64 : v₃.is64 = c.is64 := hall.is64_eq.trans his64
  have hsegment : v₃.segmentOffset = o.table := hall.segmentOffset_eq.trans hoffset
  have hne : v₃.segmentOffset ≠ 0 := by omega
  have hbefore₄ : v₃.Before v₃.writeAlignProgramHeaders := by
    unfold Writer.writeAlignProgramHeaders
    rw [if_neg hne]
    exact Writer.before_writeAlign _
  have hpos₄ : v₃.writeAlignProgramHeaders.position = o.table := by
    unfold Writer.writeAlignProgramHeaders
    rw [if_neg hne, Writer.position_writeAlign, hpos₃, h64]
    rfl
  generalize v₃.writeAlignProgramHeaders = v₄ at hfile hbefore₄ hpos₄
  rw [Writer.writeProgramHeaders_eq_extend] at hfile
  have h64' : v₄.is64 = c.is64 := hbefore₄.is64_eq.trans h64
  have hheader : (w.writeFileHeader (buildFileHeader c image)).phTable
      = some (o.table, phdrCount image a writable) := by
    rw [Writer.writeFileHeader, Writer.push_eq_extend, Writer.phTable, Writer.extend_buffer, hbuffer,
      ← hoffset, ← hnum]
    rfl
  have hnone : (w.writeFileHeader (buildFileHeader c image)).programHeaders = [] := by
    rw [Writer.writeFileHeader, Writer.push_eq_extend, Writer.programHeaders,
      Writer.extend_buffer, hbuffer]
    rfl
  have hphdrs : file.programHeaders
      = emittedPhdrs image a writable plan.writableFileOffset plan.appendedFileOffset := by
    rw [← hfile]
    show programHeadersIn (v₄.buffer ++ _) = _
    rw [programHeadersIn_append, programHeadersIn_programHeaders]
    show v₄.programHeaders ++ _ = _
    rw [(hall.trans hbefore₄).programHeaders_eq, hnone, List.nil_append]
  constructor
  case is64 => rw [← hfile, Writer.extend_is64, h64']
  case phTable =>
    rw [← hfile]
    exact Writer.phTable_extend _ ((hall.trans hbefore₄).phTable_eq hheader)
  case programHeaders =>
    refine ⟨plan.writableFileOffset, hwoff, ?_⟩
    rw [hphdrs, happ]
  case length =>
    have hsize : ∀ q ∈ (emittedPhdrs image a writable plan.writableFileOffset
        plan.appendedFileOffset).map Piece.programHeader,
        Piece.size c.is64 q = programHeaderSize c.is64 := by
      intro q hq
      obtain ⟨header, _, rfl⟩ := List.mem_map.mp hq
      rfl
    rw [← hfile, Writer.position_extend, h64', extent_of_size _ hsize, List.length_map,
      emittedPhdrs_length, hpos₄]
    rfl
  case sections =>
    intro p hp
    rw [← hfile]
    exact RunAt.append ((((hbefore₁.trans hbefore₂).trans hbefore₃).trans hbefore₄).contentAt
      (hat p hp)) _
  case writableAt =>
    intro x hx
    rw [← hfile]
    exact RunAt.append ((hbefore₃.trans hbefore₄).contentAt (hat₂ x hx)) _
  case appendedAt =>
    rw [← hfile]
    exact RunAt.append (hbefore₄.contentAt hat₃) _
  case tableAt =>
    rw [hphdrs, ← hfile, ← hpos₄]
    exact runAt_end v₄.buffer _

end Armv8Encode.Elf

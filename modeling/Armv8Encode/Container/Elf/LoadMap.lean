/-
  Armv8Encode.Container.Elf.LoadMap — the loads of a file as a memory map.

  The loads of a file are laid out when no two of them share an address and
  they ascend, as the format asks of them.  A load past the image keeps a
  laid-out table laid out; so of the new loads of the appended writer only
  the order of the writable segment and the code segment is left to decide.
-/
import Armv8Encode.Container.Elf.OwnTable
import Armv8Encode.Container.Elf.Write
import Armv8Encode.Lib.Lists

namespace Armv8Encode.Elf

open Lib

/-! ## §1. Laid-out loads. -/

/-- Two loads share an address. -/
def Overlap (p q : ProgramHeader) : Prop :=
  ∃ v, (p.pVaddr ≤ v ∧ v < p.pVaddr + p.pMemsz) ∧ (q.pVaddr ≤ v ∧ v < q.pVaddr + q.pMemsz)

/-- One load after another: none of its addresses are shared, and it starts no lower. -/
def Follows (p q : ProgramHeader) : Prop := ¬ Overlap p q ∧ p.pVaddr ≤ q.pVaddr

/-- The loads of a table are pairwise disjoint and ascend. -/
def LaidOut (phdrs : List ProgramHeader) : Prop := (loads phdrs).Pairwise Follows

theorem follows_of_le {p q : ProgramHeader} (h : p.pVaddr + p.pMemsz ≤ q.pVaddr) :
    Follows p q := by
  constructor
  · rintro ⟨v, hp, hq⟩
    omega
  · omega

/-- Before a load that takes room, only a load that ends in time. -/
theorem follows_iff {p q : ProgramHeader} (hq : 0 < q.pMemsz) :
    Follows p q ↔ p.pVaddr + p.pMemsz ≤ q.pVaddr := by
  constructor
  · rintro ⟨hdisjoint, hle⟩
    by_contra hlt
    exact hdisjoint ⟨q.pVaddr, by omega, by omega⟩
  · exact follows_of_le

/-- The loads agree in what `Follows` reads of them. -/
theorem follows_congr {p q p' q' : ProgramHeader} (hp : p'.pVaddr = p.pVaddr)
    (hpm : p'.pMemsz = p.pMemsz) (hq : q'.pVaddr = q.pVaddr) (hqm : q'.pMemsz = q.pMemsz) :
    Follows p' q' ↔ Follows p q := by
  unfold Follows Overlap
  rw [hp, hpm, hq, hqm]

/-! ## §2. What the loads map. -/

/-- Bytes stand at an offset of a file, as part of what was written there. -/
def Writer.BytesAt (w : Writer) (offset : Nat) (bytes : List Byte) : Prop :=
  ∃ start before after, w.ContentAt start (before ++ bytes ++ after)
    ∧ start + before.length = offset

/-- A load of the file puts bytes at an address. -/
def Maps (file : Writer) (vaddr : Nat) (bytes : List Byte) : Prop :=
  ∃ l ∈ loads file.programHeaders, l.pVaddr ≤ vaddr
    ∧ vaddr + bytes.length ≤ l.pVaddr + l.pFilesz
    ∧ file.BytesAt (l.pOffset + (vaddr - l.pVaddr)) bytes

/-- Bytes stand at an address of a region that starts at `base`. -/
def StandsIn (base : Nat) (content : List Byte) (vaddr : Nat) (bytes : List Byte) : Prop :=
  ∃ before after, content = before ++ bytes ++ after ∧ vaddr = base + before.length

/-- A region that only grows keeps what stands in it. -/
theorem StandsIn.grow {base vaddr : Nat} {content content' bytes : List Byte}
    (h : StandsIn base content vaddr bytes) (hgrow : content <+: content') :
    StandsIn base content' vaddr bytes := by
  obtain ⟨before, after, rfl, hvaddr⟩ := h
  obtain ⟨more, rfl⟩ := hgrow
  exact ⟨before, after ++ more, by simp, hvaddr⟩

theorem standsIn_end (base : Nat) (content bytes : List Byte) :
    StandsIn base (content ++ bytes) (base + content.length) bytes :=
  ⟨content, [], by simp, rfl⟩

/-- What stands in a region is mapped by a load that covers the region's part. -/
theorem maps_of_standsIn {file : Writer} {l : ProgramHeader} {content bytes more : List Byte}
    {vaddr offset : Nat} (hl : l ∈ loads file.programHeaders)
    (hcontent : file.ContentAt offset (content ++ more))
    (hstands : StandsIn l.pVaddr content vaddr bytes) (hoffset : l.pOffset = offset)
    (hsize : content.length ≤ l.pFilesz) : Maps file vaddr bytes := by
  obtain ⟨before, after, rfl, rfl⟩ := hstands
  simp only [List.length_append] at hsize
  refine ⟨l, hl, Nat.le_add_right _ _, by omega, offset, before, after ++ more, ?_, ?_⟩
  · simpa using hcontent
  · omega

/-! ## §3. The loads of the appended writer. -/

section Appended

variable {image : Image} {a : AppendedSegment} {writable : Option WritableSegment}

theorem loads_filter_phdrsToEmit (image : Image) :
    loads (phdrsToEmit image) = loads image.programHeaders := by
  unfold loads phdrsToEmit
  rw [List.filter_filter]
  apply List.filter_congr
  intro p _
  by_cases htype : p.pType = ptLoad
  · rw [htype]
    rfl
  · have hne : (p.pType == ptLoad) = false := by simpa using htype
    rw [hne]
    rfl

theorem loads_map_remapPhdr (a : AppendedSegment) (aoff : Nat) (phdrs : List ProgramHeader) :
    loads (phdrs.map (remapPhdr a aoff)) = (loads phdrs).map (remapPhdr a aoff) := by
  unfold loads
  rw [List.filter_map]
  congr 1
  apply List.filter_congr
  intro p _
  rw [Function.comp_apply, remapPhdr_pType]

theorem loads_emittedPhdrs_eq (woff aoff : Nat) :
    loads (emittedPhdrs image a writable woff aoff)
      = (loads image.programHeaders).map (remapPhdr a aoff)
        ++ newLoads image a writable woff aoff := by
  rw [loads_emittedPhdrs, loads_map_remapPhdr, loads_filter_phdrsToEmit]

theorem laidOut_kept (aoff : Nat) :
    ((loads image.programHeaders).map (remapPhdr a aoff)).Pairwise Follows
      ↔ LaidOut image.programHeaders := by
  unfold LaidOut
  rw [List.pairwise_map]
  apply iff_of_eq
  congr 1
  funext p q
  exact propext (follows_congr (remapPhdr_pVaddr a aoff p) (remapPhdr_pMemsz a aoff p)
    (remapPhdr_pVaddr a aoff q) (remapPhdr_pMemsz a aoff q))

/-- The last load takes room, for the table at its end. -/
theorem lastLoad_pMemsz_pos (aoff : Nat) : 0 < (lastLoad image a writable aoff).pMemsz := by
  have hle := le_phtFileOffset a aoff
  have hpos := phtSize_pos image a writable
  obtain ⟨_, hsplit⟩ := computeCodeDataSplit_spec a
  unfold lastLoad totalCover
  dsimp only
  split
  · dsimp only
    omega
  · dsimp only
    omega

theorem lastLoad_pVaddr (aoff : Nat) :
    (lastLoad image a writable aoff).pVaddr = a.vaddr + computeCodeDataSplit a := by
  unfold lastLoad
  dsimp only
  split
  · next hsplit =>
    rw [hsplit]
    rfl
  · rfl

theorem appendedLoads_laidOut (aoff : Nat) :
    (appendedLoads image a writable aoff).Pairwise Follows := by
  rw [appendedLoads_eq]
  split
  · exact List.pairwise_singleton _ _
  · refine List.pairwise_pair.mpr (follows_of_le ?_)
    rw [lastLoad_pVaddr]
    exact Nat.le_refl _

theorem mem_appendedLoads {aoff : Nat} {l : ProgramHeader} :
    l ∈ appendedLoads image a writable aoff
      ↔ (computeCodeDataSplit a ≠ 0 ∧ l = codeLoad a aoff)
        ∨ l = lastLoad image a writable aoff := by
  rw [appendedLoads_eq]
  by_cases hsplit : computeCodeDataSplit a = 0 <;> simp [hsplit]

theorem le_appendedLoads_pVaddr {aoff : Nat} {l : ProgramHeader}
    (hl : l ∈ appendedLoads image a writable aoff) : a.vaddr ≤ l.pVaddr := by
  rw [mem_appendedLoads] at hl
  obtain ⟨_, rfl⟩ | rfl := hl
  · exact Nat.le_refl _
  · rw [lastLoad_pVaddr]
    exact Nat.le_add_right _ _

/-- Some load of the segment starts where the segment does, and takes room. -/
theorem exists_appendedLoad (image : Image) (a : AppendedSegment)
    (writable : Option WritableSegment) (aoff : Nat) :
    ∃ l ∈ appendedLoads image a writable aoff, l.pVaddr = a.vaddr ∧ 0 < l.pMemsz := by
  by_cases hsplit : computeCodeDataSplit a = 0
  · refine ⟨lastLoad image a writable aoff, mem_appendedLoads.mpr (Or.inr rfl), ?_, ?_⟩
    · rw [lastLoad_pVaddr, hsplit]
      rfl
    · exact lastLoad_pMemsz_pos aoff
  · exact ⟨codeLoad a aoff, mem_appendedLoads.mpr (Or.inl ⟨hsplit, rfl⟩), rfl,
      Nat.pos_of_ne_zero hsplit⟩

/-- With both new segments past the image, the table is laid out exactly when
the image's loads are and the writable segment ends before the code. -/
theorem laidOut_emittedPhdrs_iff (hbeyond : BeyondImage image a)
    (hwritable : ∀ x, writable = some x → ∀ p ∈ image.programHeaders, p.pType = ptLoad →
      p.pVaddr + p.pMemsz ≤ x.vaddr) (woff aoff : Nat) :
    LaidOut (emittedPhdrs image a writable woff aoff)
      ↔ LaidOut image.programHeaders
        ∧ ∀ x, writable = some x → x.vaddr + x.bytes.length ≤ a.vaddr := by
  have hkept : ∀ p ∈ (loads image.programHeaders).map (remapPhdr a aoff),
      ∀ q ∈ newLoads image a writable woff aoff, Follows p q := by
    intro p hp q hq
    obtain ⟨r, hr, rfl⟩ := List.mem_map.mp hp
    obtain ⟨hmem, htype⟩ := List.mem_filter.mp hr
    rw [beq_iff_eq] at htype
    apply follows_of_le
    rw [remapPhdr_pVaddr, remapPhdr_pMemsz]
    unfold newLoads at hq
    rw [List.mem_append, List.mem_map] at hq
    obtain ⟨x, hx, rfl⟩ | hq := hq
    · exact hwritable x (by simpa using hx) r hmem htype
    · exact Nat.le_trans (hbeyond r hmem htype) (le_appendedLoads_pVaddr hq)
  unfold LaidOut
  rw [loads_emittedPhdrs_eq, List.pairwise_append, laidOut_kept]
  rw [newLoads, List.pairwise_append]
  constructor
  · rintro ⟨himage, ⟨_, _, hnew⟩, _⟩
    refine ⟨himage, ?_⟩
    intro x hx
    obtain ⟨l, hl, hvaddr, hpos⟩ := exists_appendedLoad image a writable aoff
    have hfollows := hnew (writableLoad x woff) (by simp [hx]) l hl
    rw [follows_iff hpos, hvaddr] at hfollows
    exact hfollows
  · rintro ⟨himage, hbelow⟩
    refine ⟨himage, ⟨?_, appendedLoads_laidOut aoff, ?_⟩, hkept⟩
    · cases writable <;> simp
    · intro p hp q hq
      obtain ⟨x, hx, rfl⟩ := List.mem_map.mp hp
      apply follows_of_le
      exact Nat.le_trans (hbelow x (by simpa using hx)) (le_appendedLoads_pVaddr hq)

end Appended

/-! ## §4. The in-place writer keeps the table. -/

theorem padUntil_before {w v : Writer} {offset : Nat} (h : w.padUntil offset = some v) :
    w.Before v := by
  unfold Writer.padUntil at h
  split at h
  · cases h
    exact Writer.before_extend rfl
  · cases h

theorem writeSectionBytes_before {arch : Architecture} {w v : Writer} {s : Section}
    {bytes : List Byte} {shOffset extent : Nat}
    (h : writeSectionBytes arch w s bytes shOffset extent = some v) : w.Before v := by
  have hfilled : ∀ w₁ : Writer, w.Before w₁ →
      (if 0 < extent - bytes.length
        then some ((w₁.write bytes).write (trailingFill arch s (extent - bytes.length)))
        else some (w₁.write bytes)) = some v → w.Before v := by
    intro w₁ hbefore hfill
    split at hfill
    · cases hfill
      exact (hbefore.trans (Writer.before_write _)).trans (Writer.before_write _)
    · cases hfill
      exact hbefore.trans (Writer.before_write _)
  unfold writeSectionBytes at h
  by_cases hpos : 0 < shOffset
  · rw [if_pos hpos] at h
    obtain ⟨w₁, hseek, hfill⟩ := Option.bind_eq_some_iff.mp h
    exact hfilled w₁ (padUntil_before hseek) hfill
  · rw [if_neg hpos] at h
    exact hfilled _ (Writer.before_writeAlign _) h

theorem writeSections_before {arch : Architecture} {w v : Writer}
    {ps : List (PlannedSection × Section)} (h : writeSections arch w ps = some v) :
    w.Before v := by
  induction ps generalizing w with
  | nil =>
    cases h
    exact Writer.Before.refl v
  | cons p ps ih =>
    unfold writeSections at h
    split at h
    · exact ih h
    · split at h
      · cases h
      · next w₁ hsection => exact (writeSectionBytes_before hsection).trans (ih h)

theorem reserveContent_buffer {w w' : Writer} {s : Section} {layout : SectionLayout}
    {offset : Nat} (h : reserveContent w s layout = some (offset, w')) :
    w'.buffer = w.buffer := by
  unfold reserveContent at h
  split at h
  · cases h
    rfl
  split at h
  · cases h
    rfl
  split at h
  · rw [Option.map_eq_some_iff] at h
    obtain ⟨w₁, huntil, hreserve⟩ := h
    unfold Writer.reserveUntil at huntil
    split at huntil
    · cases huntil
      cases hreserve
      rfl
    · cases huntil
  · cases h
    rfl

theorem reserveSections_buffer {w w' : Writer} {ss : List (Section × SectionLayout)}
    {planned : List PlannedSection} (h : reserveSections w ss = some (planned, w')) :
    w'.buffer = w.buffer := by
  induction ss generalizing w planned with
  | nil =>
    cases h
    rfl
  | cons s ss ih =>
    unfold reserveSections at h
    simp only [Option.bind_eq_bind, Option.bind_eq_some_iff, Prod.exists] at h
    obtain ⟨offset, w₁, hcontent, rest, w₂, hrest, hdone⟩ := h
    cases hdone
    rw [ih hrest, reserveContent_buffer hcontent]
    unfold nameSection
    split <;> rfl

/-- What follows the sections holds no program header. -/
theorem before_trailer (strtab : List String → List Byte) (v : Writer)
    (headers : List SectionHeader) :
    v.Before (((v.writeShstrtab strtab).writeNullSectionHeader.writeSectionHeaders
      headers).writeShstrtabSectionHeader strtab) :=
  (((Writer.before_push_strings _).trans ((Writer.before_writeAlign _).trans
    (Writer.before_writeSectionHeader _))).trans (Writer.before_writeSectionHeaders _)).trans
    (Writer.before_writeSectionHeader _)

theorem writeInPlace_programHeaders {strtab : List String → List Byte} {c : Container}
    {image : Image} {file : Writer} (h : writeInPlace strtab c image = some file) :
    file.programHeaders = image.programHeaders := by
  unfold writeInPlace at h
  simp only [Option.bind_eq_bind, Option.bind_eq_some_iff, Prod.exists] at h
  obtain ⟨planned, w, hreserve, v, hsections, hfile⟩ := h
  have hbuffer : w.buffer = [] := by
    rw [reserveSections_buffer hreserve]
    show (Writer.reserveProgramHeaders _ _).buffer = []
    unfold Writer.reserveProgramHeaders
    split <;> rfl
  have hbefore := writeSections_before hsections
  cases hfile
  rw [(hbefore.trans (before_trailer strtab v _)).programHeaders_eq, Writer.writeProgramHeaders_eq_extend]
  -- the table is written onto the file header and its padding
  show programHeadersIn (_ ++ _) = _
  rw [programHeadersIn_append, programHeadersIn_programHeaders]
  have hnone : programHeadersIn
      (((w.reserveShstrtabSectionIndex.reserveShstrtab strtab).reserveSectionHeaders).writeFileHeader
        (buildFileHeader c image)).writeAlignProgramHeaders.buffer = [] := by
    unfold Writer.writeAlignProgramHeaders
    split
    · show programHeadersIn (w.buffer ++ _) = []
      rw [hbuffer]
      rfl
    · show programHeadersIn ((w.buffer ++ _) ++ _) = []
      rw [hbuffer]
      rfl
  rw [hnone, List.nil_append]

/-! ## §5. Sections keep their offsets. -/

/-- The appended writer keeps a section, or what overrides it, at its offset. -/
theorem appended_contentAt {strtab : List String → List Byte} {c : Container} {image : Image}
    {a : AppendedSegment} {overrides : Nat → Option (List Byte)}
    {writable : Option WritableSegment} {file : Writer}
    (h : writeWithAppendedSegmentInner strtab c image a overrides writable = some file)
    {s : Section} {i : Nat} (hmem : (s, i) ∈ c.sections.zipIdx) (hfile : s.isNobits = false)
    (hne : 0 < ((overrides i).getD s.bytes).length) (hoffset : 0 < (image.layout i).shOffset) :
    file.ContentAt (image.layout i).shOffset ((overrides i).getD s.bytes) := by
  have hprep : (⟨i, s, image.layout i, (overrides i).getD s.bytes⟩ : SectionPrep)
      ∈ placementOrder (prepSections image overrides c.sections) := by
    rw [mem_placementOrder]
    refine ⟨List.mem_map.mpr ⟨(s, i), hmem, rfl⟩, ?_, hoffset⟩
    unfold SectionPrep.inFile
    dsimp only
    rw [hfile, Bool.not_false, Bool.true_and, Bool.not_eq_true', List.isEmpty_eq_false_iff,
      ← List.length_pos_iff]
    exact hne
  exact (writeWithAppendedSegmentInner_file h).sections _ hprep

theorem writeSectionBytes_contentAt {arch : Architecture} {w v : Writer} {s : Section}
    {bytes : List Byte} {shOffset extent : Nat} (hpos : 0 < shOffset)
    (h : writeSectionBytes arch w s bytes shOffset extent = some v) :
    v.ContentAt shOffset bytes := by
  by_cases hle : w.position ≤ shOffset
  · rw [writeSectionBytes_placed hpos hle, Option.some.injEq] at h
    subst h
    have hat := contentAt_sectionPieces arch w s bytes extent (shOffset - w.position)
    rw [show w.position + (shOffset - w.position) = shOffset by omega] at hat
    exact hat
  · unfold writeSectionBytes Writer.padUntil at h
    rw [if_pos hpos, if_neg hle] at h
    cases h

theorem writeSections_contentAt {arch : Architecture} {w v : Writer}
    {ps : List (PlannedSection × Section)} (h : writeSections arch w ps = some v)
    {plan : PlannedSection} {s : Section} (hmem : (plan, s) ∈ ps) (hfile : plan.isNobits = false)
    (hne : s.bytes.isEmpty = false) (hpos : 0 < plan.shOffset) :
    v.ContentAt plan.shOffset s.bytes := by
  induction ps generalizing w with
  | nil => cases hmem
  | cons p ps ih =>
    unfold writeSections at h
    obtain heq | hmem := List.mem_cons.mp hmem
    · subst heq
      rw [hfile, hne] at h
      simp only [Bool.or_self, Bool.false_eq_true, if_false] at h
      split at h
      · cases h
      · next w₁ hsection =>
        exact (writeSections_before h).contentAt (writeSectionBytes_contentAt hpos hsection)
    · split at h
      · exact ih h hmem
      · split at h
        · cases h
        · exact ih h hmem

/-- What the reserve phase keeps of a section. -/
theorem reserveSections_planned {w w' : Writer} {ss : List (Section × SectionLayout)}
    {planned : List PlannedSection} (h : reserveSections w ss = some (planned, w')) :
    List.Forall₂ (fun (s : Section × SectionLayout) (p : PlannedSection) =>
      p.shOffset = s.2.shOffset ∧ p.isNobits = s.1.isNobits) ss planned := by
  induction ss generalizing w planned with
  | nil =>
    cases h
    exact .nil
  | cons s ss ih =>
    unfold reserveSections at h
    simp only [Option.bind_eq_bind, Option.bind_eq_some_iff, Prod.exists] at h
    obtain ⟨offset, w₁, _, rest, w₂, hrest, hdone⟩ := h
    cases hdone
    exact .cons ⟨rfl, rfl⟩ (ih hrest)

theorem writeInPlace_contentAt {strtab : List String → List Byte} {c : Container}
    {image : Image} {file : Writer} (h : writeInPlace strtab c image = some file)
    {s : Section} {i : Nat} (hmem : (s, i) ∈ c.sections.zipIdx) (hfile : s.isNobits = false)
    (hne : 0 < s.bytes.length) (hoffset : 0 < (image.layout i).shOffset) :
    file.ContentAt (image.layout i).shOffset s.bytes := by
  unfold writeInPlace at h
  simp only [Option.bind_eq_bind, Option.bind_eq_some_iff, Prod.exists] at h
  obtain ⟨planned, w, hreserve, v, hsections, hdone⟩ := h
  have hs := List.mem_zipIdx_iff_getElem?.mp hmem
  have hlayout : (layouts c image)[i]? = some (s, image.layout i) := by
    unfold layouts
    rw [List.getElem?_map, List.getElem?_zipIdx, hs]
    simp
  obtain ⟨plan, hplan, hplanned⟩ :=
    exists_getElem?_of_forall₂ (reserveSections_planned hreserve) hlayout
  have hzip : (plan, s) ∈ planned.zip c.sections := by
    apply List.mem_of_getElem? (i := i)
    rw [List.getElem?_zip_eq_some]
    exact ⟨hplan, hs⟩
  have hcontent := writeSections_contentAt hsections hzip
    (by rw [hplanned.2]; exact hfile) (by rw [List.isEmpty_eq_false_iff]; exact List.ne_nil_of_length_pos hne)
    (by rw [hplanned.1]; exact hoffset)
  rw [hplanned.1] at hcontent
  cases hdone
  exact (before_trailer strtab v _).contentAt hcontent

end Armv8Encode.Elf

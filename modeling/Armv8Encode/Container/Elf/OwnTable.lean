/-
  Armv8Encode.Container.Elf.OwnTable — does the new table describe itself?

  The writer predicts where its program-header table will stand: it takes
  the entries to be 56 bytes and the table to be aligned to 8.  The object
  writer places a table of entries of the output's own word size.  The two
  agree on 64-bit output, and there everything else holds as soon as the
  loads of the input end inside the rewritten file.  On 32-bit output the
  size of the table is wrong in every file.
-/
import Armv8Encode.Container.Elf.AppendedSpec

namespace Armv8Encode.Elf

open Lib

/-! ## §1. What a table says about itself. -/

/-- A load holds a segment when it covers it, in the file and in memory. -/
def Holds (load h : ProgramHeader) : Prop :=
  load.pOffset ≤ h.pOffset ∧ h.pOffset + h.pFilesz ≤ load.pOffset + load.pFilesz
    ∧ load.pVaddr ≤ h.pVaddr ∧ h.pVaddr + h.pMemsz ≤ load.pVaddr + load.pMemsz

instance (load h : ProgramHeader) : Decidable (Holds load h) := by
  unfold Holds
  infer_instance

def loads (phdrs : List ProgramHeader) : List ProgramHeader :=
  phdrs.filter fun p => p.pType == ptLoad

/-- Entries past the fresh `PT_PHDR` and the kept ones. -/
def newEntries (image : Image) (file : Writer) : List ProgramHeader :=
  file.programHeaders.drop (1 + (phdrsToEmit image).length)

/-- The one `PT_PHDR` of a file describes the table at `phoff` with `phnum` entries. -/
structure TableDescribed (image : Image) (file : Writer) (phoff phnum : Nat)
    (h : ProgramHeader) : Prop where
  table : file.phTable = some (phoff, phnum)
  only : file.programHeaders.filter (fun p => p.pType == ptPhdr) = [h]
  offset : h.pOffset = phoff
  filesz : h.pFilesz = phnum * programHeaderSize file.is64
  held : ∃ load, (loads file.programHeaders).filter (fun l => decide (Holds l h)) = [load]
    ∧ load.pVaddr + h.pOffset = h.pVaddr + load.pOffset
  inside : ∀ load ∈ loads file.programHeaders, load.pOffset + load.pFilesz ≤ file.position
  aligned : ∀ load ∈ newEntries image file,
    load.pType = ptLoad ∧ load.pVaddr % load.pAlign = load.pOffset % load.pAlign

def DescribesTable (image : Image) (file : Writer) : Prop :=
  ∃ phoff phnum h, TableDescribed image file phoff phnum h

/-! ## §2. Conditions on the input. -/

/-- The segment lies past what the image maps, as its documentation asks. -/
def BeyondImage (image : Image) (a : AppendedSegment) : Prop :=
  ∀ p ∈ image.programHeaders, p.pType = ptLoad → p.pVaddr + p.pMemsz ≤ a.vaddr

/-- An entry whose addresses the new segment covers. -/
def InSegment (a : AppendedSegment) (p : ProgramHeader) : Prop :=
  a.vaddr ≤ p.pVaddr ∧ p.pVaddr + p.pFilesz ≤ a.vaddr + a.bytes.length

instance (a : AppendedSegment) (p : ProgramHeader) : Decidable (InSegment a p) := by
  unfold InSegment
  infer_instance

/-- The output has 64-bit entries, and no load of the input reaches past the
end of the rewritten file. -/
def TableFits (strtab : List String → List Byte) (c : Container) (image : Image)
    (a : AppendedSegment) (overrides : Nat → Option (List Byte))
    (writable : Option WritableSegment) : Prop :=
  c.is64 = true ∧ ∀ p ∈ image.programHeaders, p.pType = ptLoad → ¬ InSegment a p →
    p.pOffset + p.pFilesz ≤ (appendedOffsets strtab c image a overrides writable).stop

/-! ## §3. The entries of the table, kind by kind. -/

theorem remapPhdr_pType (a : AppendedSegment) (aoff : Nat) (p : ProgramHeader) :
    (remapPhdr a aoff p).pType = p.pType := by
  unfold remapPhdr
  split <;> rfl

theorem remapPhdr_pVaddr (a : AppendedSegment) (aoff : Nat) (p : ProgramHeader) :
    (remapPhdr a aoff p).pVaddr = p.pVaddr := by
  unfold remapPhdr
  split <;> rfl

theorem remapPhdr_pMemsz (a : AppendedSegment) (aoff : Nat) (p : ProgramHeader) :
    (remapPhdr a aoff p).pMemsz = p.pMemsz := by
  unfold remapPhdr
  split <;> rfl

theorem remapPhdr_of_not_inSegment {a : AppendedSegment} {p : ProgramHeader} (aoff : Nat)
    (h : ¬ InSegment a p) : remapPhdr a aoff p = p := by
  unfold remapPhdr
  exact if_neg h

/-- A re-aimed entry ends inside the segment. -/
theorem remapPhdr_end {a : AppendedSegment} {p : ProgramHeader} (aoff : Nat)
    (h : InSegment a p) :
    (remapPhdr a aoff p).pOffset + (remapPhdr a aoff p).pFilesz ≤ aoff + a.bytes.length := by
  have hif : remapPhdr a aoff p = { p with pOffset := aoff + (p.pVaddr - a.vaddr) } := if_pos h
  obtain ⟨hlo, hhi⟩ := h
  rw [hif]
  show aoff + (p.pVaddr - a.vaddr) + p.pFilesz ≤ _
  omega

/-- A load over the code and a load over the data and the table. -/
def codeLoad (a : AppendedSegment) (aoff : Nat) : ProgramHeader :=
  let split := computeCodeDataSplit a
  ⟨ptLoad, pfR + pfX, aoff, a.vaddr, a.vaddr, split, split, appendPageAlign⟩

/-- The load that ends with the table. -/
def lastLoad (image : Image) (a : AppendedSegment) (writable : Option WritableSegment)
    (aoff : Nat) : ProgramHeader :=
  let split := computeCodeDataSplit a
  let cover := totalCover image a writable aoff
  if split = 0 then
    ⟨ptLoad, a.pFlags, aoff, a.vaddr, a.vaddr, cover, cover, appendPageAlign⟩
  else
    ⟨ptLoad, pfR + pfW, aoff + split, a.vaddr + split, a.vaddr + split, cover - split,
      cover - split, appendPageAlign⟩

theorem appendedLoads_eq (image : Image) (a : AppendedSegment)
    (writable : Option WritableSegment) (aoff : Nat) :
    appendedLoads image a writable aoff
      = (if computeCodeDataSplit a = 0 then [] else [codeLoad a aoff])
        ++ [lastLoad image a writable aoff] := by
  by_cases hsplit : computeCodeDataSplit a = 0
  · simp [appendedLoads, lastLoad, hsplit]
  · simp [appendedLoads, lastLoad, codeLoad, hsplit]

theorem mem_newLoads {image : Image} {a : AppendedSegment} {writable : Option WritableSegment}
    {woff aoff : Nat} {l : ProgramHeader} :
    l ∈ newLoads image a writable woff aoff
      ↔ (∃ x, writable = some x ∧ l = writableLoad x woff)
        ∨ (computeCodeDataSplit a ≠ 0 ∧ l = codeLoad a aoff)
        ∨ l = lastLoad image a writable aoff := by
  unfold newLoads
  rw [appendedLoads_eq]
  cases writable <;> by_cases hsplit : computeCodeDataSplit a = 0 <;> simp [hsplit]

/-- The split is a whole number of pages and lies inside the segment. -/
theorem computeCodeDataSplit_spec (a : AppendedSegment) :
    appendPageAlign ∣ computeCodeDataSplit a ∧ computeCodeDataSplit a ≤ a.bytes.length := by
  unfold computeCodeDataSplit
  split
  · exact ⟨Nat.dvd_zero _, Nat.zero_le _⟩
  · next hlen =>
    split
    · exact ⟨Nat.dvd_zero _, Nat.zero_le _⟩
    · next hmod =>
      refine ⟨Nat.dvd_of_mod_eq_zero (by omega), by omega⟩

theorem lastLoad_pType (image : Image) (a : AppendedSegment) (writable : Option WritableSegment)
    (aoff : Nat) : (lastLoad image a writable aoff).pType = ptLoad := by
  unfold lastLoad
  dsimp only
  split <;> rfl

theorem newLoads_pType {image : Image} {a : AppendedSegment} {writable : Option WritableSegment}
    {woff aoff : Nat} {l : ProgramHeader} (h : l ∈ newLoads image a writable woff aoff) :
    l.pType = ptLoad := by
  rw [mem_newLoads] at h
  obtain ⟨x, _, rfl⟩ | ⟨_, rfl⟩ | rfl := h
  · rfl
  · rfl
  · exact lastLoad_pType image a writable aoff

theorem mem_phdrsToEmit {image : Image} {p : ProgramHeader} :
    p ∈ phdrsToEmit image ↔ p ∈ image.programHeaders ∧ p.pType ≠ ptPhdr := by
  unfold phdrsToEmit
  rw [List.mem_filter, bne_iff_ne]

/-- The fresh entry is the only `PT_PHDR`. -/
theorem filter_phdr_emittedPhdrs (image : Image) (a : AppendedSegment)
    (writable : Option WritableSegment) (woff aoff : Nat) :
    (emittedPhdrs image a writable woff aoff).filter (fun p => p.pType == ptPhdr)
      = [phtHeader image a writable aoff] := by
  unfold emittedPhdrs
  rw [List.filter_cons_of_pos (by rfl)]
  congr 1
  rw [List.filter_eq_nil_iff]
  intro p hp
  rw [List.mem_append, List.mem_map] at hp
  rw [beq_iff_eq]
  obtain ⟨q, hq, rfl⟩ | hp := hp
  · rw [remapPhdr_pType]
    exact (mem_phdrsToEmit.mp hq).2
  · rw [newLoads_pType hp]
    decide

theorem loads_newLoads (image : Image) (a : AppendedSegment) (writable : Option WritableSegment)
    (woff aoff : Nat) :
    loads (newLoads image a writable woff aoff) = newLoads image a writable woff aoff := by
  unfold loads
  rw [List.filter_eq_self]
  intro l hl
  rw [newLoads_pType hl]
  rfl

theorem loads_emittedPhdrs (image : Image) (a : AppendedSegment)
    (writable : Option WritableSegment) (woff aoff : Nat) :
    loads (emittedPhdrs image a writable woff aoff)
      = loads ((phdrsToEmit image).map (remapPhdr a aoff))
        ++ newLoads image a writable woff aoff := by
  unfold emittedPhdrs
  rw [loads, List.filter_cons_of_neg (by simp [phtHeader, ptPhdr, ptLoad]), List.filter_append]
  congr 1
  exact loads_newLoads image a writable woff aoff

theorem mem_loads_kept {image : Image} {a : AppendedSegment} {aoff : Nat} {l : ProgramHeader} :
    l ∈ loads ((phdrsToEmit image).map (remapPhdr a aoff))
      ↔ ∃ p ∈ image.programHeaders, p.pType = ptLoad ∧ remapPhdr a aoff p = l := by
  unfold loads
  rw [List.mem_filter, List.mem_map, beq_iff_eq]
  constructor
  · rintro ⟨⟨p, hp, rfl⟩, htype⟩
    rw [remapPhdr_pType] at htype
    exact ⟨p, (mem_phdrsToEmit.mp hp).1, htype, rfl⟩
  · rintro ⟨p, hp, htype, rfl⟩
    refine ⟨⟨p, mem_phdrsToEmit.mpr ⟨hp, ?_⟩, rfl⟩, ?_⟩
    · rw [htype]
      decide
    · rw [remapPhdr_pType, htype]

/-! ## §4. 64-bit output: the last load holds the table, and no other does. -/

section Held

variable {image : Image} {a : AppendedSegment} {writable : Option WritableSegment}

theorem phtFileOffset_eq (a : AppendedSegment) (aoff : Nat) :
    phtFileOffset a aoff = alignUp (aoff + a.bytes.length) 8 :=
  (alignUp_eq_div (aoff + a.bytes.length) (by decide)).symm

theorem le_phtFileOffset (a : AppendedSegment) (aoff : Nat) :
    aoff + a.bytes.length ≤ phtFileOffset a aoff := by
  rw [phtFileOffset_eq]
  exact le_alignUp _ _

theorem phtSize_pos (image : Image) (a : AppendedSegment) (writable : Option WritableSegment) :
    0 < phdrCount image a writable * phdrEntrySize :=
  Nat.mul_pos (phdrCount_pos image a writable) (by decide)

theorem lastLoad_holds (aoff : Nat) :
    Holds (lastLoad image a writable aoff) (phtHeader image a writable aoff)
      ∧ (lastLoad image a writable aoff).pVaddr + (phtHeader image a writable aoff).pOffset
        = (phtHeader image a writable aoff).pVaddr
          + (lastLoad image a writable aoff).pOffset := by
  have hle := le_phtFileOffset a aoff
  obtain ⟨_, hsplit⟩ := computeCodeDataSplit_spec a
  unfold Holds lastLoad phtHeader totalCover
  dsimp only
  split
  · dsimp only
    omega
  · dsimp only
    omega

/-- The code load ends before the table. -/
theorem codeLoad_not_holds (aoff : Nat) :
    ¬ Holds (codeLoad a aoff) (phtHeader image a writable aoff) := by
  have hle := le_phtFileOffset a aoff
  have hpos := phtSize_pos image a writable
  obtain ⟨_, hsplit⟩ := computeCodeDataSplit_spec a
  unfold Holds codeLoad phtHeader
  dsimp only
  omega

/-- The writable load ends, in the file, before the table. -/
theorem writableLoad_not_holds {x : WritableSegment} {woff aoff : Nat}
    (h : woff + x.bytes.length ≤ aoff) :
    ¬ Holds (writableLoad x woff) (phtHeader image a writable aoff) := by
  have hle := le_phtFileOffset a aoff
  have hpos := phtSize_pos image a writable
  unfold Holds writableLoad phtHeader
  dsimp only
  omega

/-- A load of the input ends, in memory, before the table. -/
theorem kept_not_holds {p : ProgramHeader} {aoff : Nat} (h : p.pVaddr + p.pMemsz ≤ a.vaddr) :
    ¬ Holds (remapPhdr a aoff p) (phtHeader image a writable aoff) := by
  have hpos := phtSize_pos image a writable
  unfold Holds phtHeader
  rw [remapPhdr_pVaddr, remapPhdr_pMemsz]
  dsimp only
  omega

theorem filter_holds (hbeyond : BeyondImage image a) {woff aoff : Nat}
    (hwritable : ∀ x, writable = some x → woff + x.bytes.length ≤ aoff) :
    (loads (emittedPhdrs image a writable woff aoff)).filter
        (fun l => decide (Holds l (phtHeader image a writable aoff)))
      = [lastLoad image a writable aoff] := by
  have hkept : (loads ((phdrsToEmit image).map (remapPhdr a aoff))).filter
      (fun l => decide (Holds l (phtHeader image a writable aoff))) = [] := by
    rw [List.filter_eq_nil_iff]
    intro l hl
    obtain ⟨p, hp, htype, rfl⟩ := mem_loads_kept.mp hl
    rw [decide_eq_true_eq]
    exact kept_not_holds (hbeyond p hp htype)
  have hwritableLoads : (writable.toList.map fun x => writableLoad x woff).filter
      (fun l => decide (Holds l (phtHeader image a writable aoff))) = [] := by
    rw [List.filter_eq_nil_iff]
    intro l hl
    obtain ⟨x, hx, rfl⟩ := List.mem_map.mp hl
    rw [decide_eq_true_eq]
    exact writableLoad_not_holds (hwritable x (by simpa using hx))
  have hcode : (if computeCodeDataSplit a = 0 then [] else [codeLoad a aoff]).filter
      (fun l => decide (Holds l (phtHeader image a writable aoff))) = [] := by
    split
    · rfl
    · rw [List.filter_cons_of_neg (by simpa using codeLoad_not_holds aoff), List.filter_nil]
  rw [loads_emittedPhdrs, newLoads, appendedLoads_eq, List.filter_append, List.filter_append,
    List.filter_append, hkept, hwritableLoads, hcode, List.nil_append, List.nil_append,
    List.nil_append]
  rw [List.filter_cons_of_pos (by simpa using (lastLoad_holds aoff).1), List.filter_nil]

end Held

/-! ## §5. The table describes itself exactly when it fits. -/

section OwnTable

variable {strtab : List String → List Byte} {c : Container} {image : Image} {a : AppendedSegment}
  {overrides : Nat → Option (List Byte)} {writable : Option WritableSegment}

/-- New loads start at a page, in memory and in the file. -/
theorem newLoads_aligned {woff aoff : Nat}
    (hwoff : ∀ x, writable = some x → appendPageAlign ∣ woff) (haoff : appendPageAlign ∣ aoff)
    {l : ProgramHeader} (hl : l ∈ newLoads image a writable woff aoff) :
    l.pVaddr % l.pAlign = l.pOffset % l.pAlign := by
  have hvaddr := a.aligned
  obtain ⟨hsplit, _⟩ := computeCodeDataSplit_spec a
  have key : ∀ {m n : Nat}, appendPageAlign ∣ m → appendPageAlign ∣ n →
      m % appendPageAlign = n % appendPageAlign := by
    intro m n hm hn
    rw [Nat.mod_eq_zero_of_dvd hm, Nat.mod_eq_zero_of_dvd hn]
  rw [mem_newLoads] at hl
  obtain ⟨x, hx, rfl⟩ | ⟨_, rfl⟩ | rfl := hl
  · exact key x.aligned (hwoff x hx)
  · exact key hvaddr haoff
  · unfold lastLoad
    dsimp only
    split
    · exact key hvaddr haoff
    · exact key (Nat.dvd_add hvaddr hsplit) (Nat.dvd_add haoff hsplit)

/-- On 64-bit output the last load ends with the file. -/
theorem newLoads_inside {o : AppendedOffsets} (htable : o.table = phtFileOffset a o.appended)
    (hstop : o.stop = o.table + phdrCount image a writable * phdrEntrySize) {woff : Nat}
    (hwritable : ∀ x, writable = some x → woff + x.bytes.length ≤ o.appended)
    {l : ProgramHeader} (hl : l ∈ newLoads image a writable woff o.appended) :
    l.pOffset + l.pFilesz ≤ o.stop := by
  have hle := le_phtFileOffset a o.appended
  obtain ⟨_, hsplit⟩ := computeCodeDataSplit_spec a
  rw [mem_newLoads] at hl
  obtain ⟨x, hx, rfl⟩ | ⟨_, rfl⟩ | rfl := hl
  · have hx' := hwritable x hx
    show woff + x.bytes.length ≤ _
    omega
  · show o.appended + computeCodeDataSplit a ≤ _
    omega
  · unfold lastLoad totalCover
    dsimp only
    split
    · dsimp only
      omega
    · dsimp only
      omega

/-- A file whose table describes itself has entries of the size the writer assumes. -/
theorem is64_of_describesTable {file : Writer}
    (h : writeWithAppendedSegmentInner strtab c image a overrides writable = some file)
    (hdescribes : DescribesTable image file) : c.is64 = true := by
  have hfile := writeWithAppendedSegmentInner_file h
  obtain ⟨woff, _, hphdrs⟩ := hfile.programHeaders
  obtain ⟨phoff, phnum, header, hd⟩ := hdescribes
  have htable := hd.table
  rw [hfile.phTable, Option.some.injEq, Prod.mk.injEq] at htable
  have honly := hd.only
  rw [hphdrs, filter_phdr_emittedPhdrs, List.singleton_inj] at honly
  have hfilesz := hd.filesz
  rw [← honly, ← htable.2, hfile.is64] at hfilesz
  by_contra hfalse
  rw [Bool.not_eq_true] at hfalse
  rw [hfalse] at hfilesz
  have hpos := phdrCount_pos image a writable
  have hne : phdrCount image a writable * 56 = phdrCount image a writable * 32 := hfilesz
  omega

/-- **The appended writer's own table.**  For a segment past the image, the
output describes its own program headers exactly when it is 64-bit and the
loads of the input end inside it. -/
theorem appended_describesTable_iff {file : Writer}
    (h : writeWithAppendedSegmentInner strtab c image a overrides writable = some file)
    (hbeyond : BeyondImage image a) :
    DescribesTable image file ↔ TableFits strtab c image a overrides writable := by
  have hfile := writeWithAppendedSegmentInner_file h
  obtain ⟨woff, hwoff, hphdrs⟩ := hfile.programHeaders
  have hle := headers_le_appended strtab c image a overrides writable
  have happ := appended_eq strtab c image a overrides writable
  constructor
  · intro hdescribes
    refine ⟨is64_of_describesTable h hdescribes, ?_⟩
    intro p hp htype hout
    obtain ⟨phoff, phnum, header, hd⟩ := hdescribes
    have hmem : p ∈ loads file.programHeaders := by
      rw [hphdrs, loads_emittedPhdrs, List.mem_append, mem_loads_kept]
      exact Or.inl ⟨p, hp, htype, remapPhdr_of_not_inSegment _ hout⟩
    rw [← hfile.length]
    exact hd.inside p hmem
  · rintro ⟨h64, hloads⟩
    set o := appendedOffsets strtab c image a overrides writable with ho
    have htable : o.table = phtFileOffset a o.appended := by
      have halign : o.table = alignUp (o.appended + a.bytes.length) (elfAlign c.is64) := rfl
      rw [halign, h64, phtFileOffset_eq]
      rfl
    have hsize : programHeaderSize c.is64 = phdrEntrySize := by
      rw [h64]
      rfl
    have hstop : o.stop = o.table + phdrCount image a writable * phdrEntrySize := by
      rw [← hsize]
      rfl
    have hwritable : ∀ x, writable = some x → woff + x.bytes.length ≤ o.appended := by
      intro x hx
      rw [hwoff x hx]
      have hstopx := hle.2.1
      rw [hx] at hstopx
      exact hstopx
    refine ⟨o.table, phdrCount image a writable, phtHeader image a writable o.appended, ?_⟩
    constructor
    case table => exact hfile.phTable
    case only => rw [hphdrs, filter_phdr_emittedPhdrs]
    case offset => exact htable.symm
    case filesz =>
      rw [hfile.is64, hsize]
      rfl
    case held =>
      refine ⟨lastLoad image a writable o.appended, ?_, (lastLoad_holds o.appended).2⟩
      rw [hphdrs]
      exact filter_holds hbeyond hwritable
    case inside =>
      intro l hl
      rw [hfile.length]
      rw [hphdrs, loads_emittedPhdrs, List.mem_append, mem_loads_kept] at hl
      obtain ⟨p, hp, htype, rfl⟩ | hl := hl
      · by_cases hin : InSegment a p
        · have hend := remapPhdr_end o.appended hin
          have htail := hle.2.2
          have hend' : o.table ≤ o.stop := by omega
          exact Nat.le_trans hend (Nat.le_trans htail hend')
        · rw [remapPhdr_of_not_inSegment o.appended hin]
          exact hloads p hp htype hin
      · exact newLoads_inside htable hstop hwritable hl
    case aligned =>
      intro l hl
      have hnew : newEntries image file = newLoads image a writable woff o.appended := by
        unfold newEntries
        rw [hphdrs, emittedPhdrs, Nat.add_comm, List.drop_succ_cons, List.drop_append]
        simp
      rw [hnew] at hl
      refine ⟨newLoads_pType hl, newLoads_aligned ?_ ?_ hl⟩
      · intro x hx
        rw [hwoff x hx]
        exact dvd_alignUp _ (by decide)
      · rw [happ]
        exact dvd_alignUp _ (by decide)

end OwnTable

/-! ## §6. A 64-bit and a 32-bit library. -/

/-- A table of names each ended by a zero byte, after an empty name. -/
def plainStrtab (names : List String) : List Byte :=
  0 :: names.flatMap fun name => name.toList.map (fun ch => BitVec.ofNat 8 ch.toNat) ++ [0]

/-- A shared object with one code section and the load that maps it. -/
def smallLibrary (architecture : Architecture) : Container where
  architecture := architecture
  kind := .sharedObject
  fileFlags := none
  sections := [⟨".text", 0x200, 4, [0xc0, 0x03, 0x5f, 0xd6], .text, 4, some 6, none⟩]
  elfImage := some smallImage
where
  smallImage : Image :=
    { eEntry := 0
      programHeaders := [⟨ptLoad, pfR + pfX, 0, 0, 0, 0x204, 0x204, 0x1000⟩]
      sectionLayout := [⟨0x200, 4, 0, 0, 0⟩] }

def smallSegment : AppendedSegment :=
  ⟨0x10000, [0xc0, 0x03, 0x5f, 0xd6], ".text.armv8_encode_appended", pfR + pfX, 4, by decide⟩

theorem smallLibrary_written (architecture : Architecture) :
    ∃ file, writeWithAppendedSegmentInner plainStrtab (smallLibrary architecture)
      smallLibrary.smallImage smallSegment (fun _ => none) none = some file := by
  rw [← Option.isSome_iff_exists]
  cases architecture <;> decide +kernel

theorem smallLibrary_beyond : BeyondImage smallLibrary.smallImage smallSegment := by
  unfold BeyondImage
  decide

theorem smallLibrary_describesTable :
    ∃ file, writeWithAppendedSegmentInner plainStrtab (smallLibrary .aarch64)
        smallLibrary.smallImage smallSegment (fun _ => none) none = some file
      ∧ DescribesTable smallLibrary.smallImage file := by
  obtain ⟨file, hfile⟩ := smallLibrary_written .aarch64
  refine ⟨file, hfile, (appended_describesTable_iff hfile smallLibrary_beyond).mpr ⟨rfl, ?_⟩⟩
  decide +kernel

/-- The same library for a 32-bit architecture. -/
theorem smallLibrary32_not_describesTable :
    ∃ file, writeWithAppendedSegmentInner plainStrtab (smallLibrary .arm)
        smallLibrary.smallImage smallSegment (fun _ => none) none = some file
      ∧ ¬ DescribesTable smallLibrary.smallImage file := by
  obtain ⟨file, hfile⟩ := smallLibrary_written .arm
  refine ⟨file, hfile, ?_⟩
  intro hdescribes
  cases is64_of_describesTable hfile hdescribes

end Armv8Encode.Elf

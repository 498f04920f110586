/-
  Armv8Encode.Rewrite.ElfEditor.CommittedView — what a loader finds in a commit.

  The loader reads `.dynamic` at the `PT_DYNAMIC` address, and from it the
  relocations and the initialiser array.  A run without appended bodies is
  committed into the sections where they stand; appended bodies move the
  array and `.rela.dyn` to the new segment, and `.dynamic` with them if it
  outgrew its section.  Either way the view stands in the committed file.
-/
import Armv8Encode.Rewrite.ElfEditor.CommitLayout
import Armv8Encode.Rewrite.ElfEditor.DynamicEdits
import Armv8Encode.Rewrite.ElfEditor.Initialisers
import Mathlib.Data.List.TakeWhile

namespace Armv8Encode.Elf

open Lib

/-! ## §1. Views. -/

/-- What a loader reads of a file to run its initialisers. -/
structure View where
  dynamic : List DynamicEntry
  rela : List Rela
  deriving Repr, DecidableEq

def loaderTag (entries : List DynamicEntry) (tag : Nat) : Option Nat :=
  findDynamic (liveEntries entries) tag

/-- Per slot of the array, what the relative entries put there. -/
def View.initSlots (v : View) : List (List Nat) :=
  match loaderTag v.dynamic dtInitArray, loaderTag v.dynamic dtInitArraysz with
  | some base, some size => (List.range (size / 8)).map fun i => slotTargets v.rela (base + 8 * i)
  | _, _ => []

/-- The first `PT_DYNAMIC`. -/
def dynamicHeader (phdrs : List ProgramHeader) : Option ProgramHeader :=
  phdrs.find? fun p => p.pType == ptDynamic

/-- The view stands in the file, where the loader looks for it. -/
structure Carries (file : Writer) (is64 : Bool) (v : View) : Prop where
  dynamic : ∃ p, dynamicHeader file.programHeaders = some p
    ∧ Maps file p.pVaddr (encodeDynamic is64 v.dynamic)
  terminated : ∃ e ∈ v.dynamic, e.tag = dtNull
  rela : ∃ vaddr, loaderTag v.dynamic dtRela = some vaddr ∧ Maps file vaddr (encodeRelas v.rela)

/-! ## §2. Tags of a rebuilt `.dynamic`. -/

/-- Spare terminators change nothing for a loader. -/
theorem loaderTag_grownDynamic (entries : List DynamicEntry) (tag : Nat) :
    loaderTag (grownDynamic entries) tag = loaderTag entries tag := by
  unfold loaderTag grownDynamic
  rw [show entries.takeWhile (fun e => e.tag != dtNull) = liveEntries entries from rfl,
    liveEntries_append_nulls]
  · intro e he
    exact mem_liveEntries he
  · intro e he
    rw [List.eq_of_mem_replicate he]

/-- The tags stay; the values of updated ones change. -/
def updatedEntry (updates : List (Nat × Nat)) (e : DynamicEntry) : DynamicEntry :=
  ⟨e.tag, (lastWins updates e.tag).getD e.value⟩

theorem updateDynamicTags_eq (entries : List DynamicEntry) (updates : List (Nat × Nat)) :
    updateDynamicTags entries updates = entries.map (updatedEntry updates) := by
  unfold updateDynamicTags
  apply List.map_congr_left
  intro e _
  unfold updatedEntry
  split
  · next value hvalue => rw [hvalue]; rfl
  · next hnone => rw [hnone]; rfl

theorem liveEntries_update (entries : List DynamicEntry) (updates : List (Nat × Nat)) :
    liveEntries (updateDynamicTags entries updates)
      = (liveEntries entries).map (updatedEntry updates) := by
  unfold liveEntries
  rw [updateDynamicTags_eq, List.takeWhile_map]
  rfl

theorem findDynamic_update (entries : List DynamicEntry) (updates : List (Nat × Nat))
    (tag : Nat) : findDynamic (entries.map (updatedEntry updates)) tag
      = (findDynamic entries tag).map fun value => (lastWins updates tag).getD value := by
  unfold findDynamic
  induction entries with
  | nil => rfl
  | cons e entries ih =>
    rw [List.map_cons, List.find?_cons, List.find?_cons]
    by_cases htag : e.tag = tag
    · subst htag
      simp [updatedEntry]
    · have hne : (e.tag == tag) = false := by simpa using htag
      have hne' : ((updatedEntry updates e).tag == tag) = false := hne
      rw [hne, hne']
      exact ih

theorem loaderTag_update (entries : List DynamicEntry) (updates : List (Nat × Nat)) (tag : Nat) :
    loaderTag (updateDynamicTags entries updates) tag
      = (loaderTag entries tag).map fun value => (lastWins updates tag).getD value := by
  unfold loaderTag
  rw [liveEntries_update, findDynamic_update]

theorem findDynamic_append (es es' : List DynamicEntry) (tag : Nat) :
    findDynamic (es ++ es') tag = (findDynamic es tag).or (findDynamic es' tag) := by
  unfold findDynamic
  rw [List.find?_append]
  cases es.find? (fun e => e.tag == tag) <;> rfl

/-- Inserted tags are found after those there were. -/
theorem loaderTag_insert {entries : List DynamicEntry} {additions : List (Nat × Nat)}
    (hadditions : ∀ a ∈ additions, a.1 ≠ dtNull) (tag : Nat) :
    loaderTag (insertDynamicTagsGrowing entries additions) tag
      = (loaderTag entries tag).or
        (findDynamic (additions.map fun a => ⟨a.1, a.2⟩) tag) := by
  unfold loaderTag insertDynamicTagsGrowing
  rw [show entries.takeWhile (fun e => e.tag != dtNull) = liveEntries entries from rfl,
    liveEntries_append_nulls, findDynamic_append]
  · intro e he
    obtain he | he := List.mem_append.mp he
    · exact mem_liveEntries he
    · obtain ⟨a, ha, rfl⟩ := List.mem_map.mp he
      exact hadditions a ha
  · intro e he
    rw [List.mem_singleton] at he
    rw [he]

/-- Nothing but padding follows the terminator. -/
def PaddedDynamic (entries : List DynamicEntry) : Prop :=
  (∃ e ∈ entries, e.tag = dtNull)
    ∧ ∀ e ∈ entries.dropWhile (fun e => e.tag != dtNull), e.tag = dtNull

theorem findDynamic_eq_loaderTag {entries : List DynamicEntry} (h : PaddedDynamic entries)
    {tag : Nat} (htag : tag ≠ dtNull) : findDynamic entries tag = loaderTag entries tag := by
  have hnone : findDynamic (entries.dropWhile fun e => e.tag != dtNull) tag = none := by
    unfold findDynamic
    rw [Option.map_eq_none_iff, List.find?_eq_none]
    intro e he
    rw [h.2 e he]
    simpa using htag.symm
  unfold loaderTag liveEntries
  conv_lhs => rw [← List.takeWhile_append_dropWhile (p := fun e => e.tag != dtNull) (l := entries)]
  rw [findDynamic_append, hnone, Option.or_none]

/-! ## §3. The rebuilt relocations. -/

theorem slotTargets_eq_nil {entries : List Rela} {slotVaddr : Nat}
    (h : ∀ r ∈ entries, r.rOffset ≠ slotVaddr) : slotTargets entries slotVaddr = [] := by
  unfold slotTargets
  rw [List.map_eq_nil_iff, List.filter_eq_nil_iff]
  intro r hr
  unfold relativeFor
  rw [beq_eq_false_iff_ne.mpr (h r hr), Bool.false_and]
  exact Bool.false_ne_true

/-- New entries in the middle do not hide old ones. -/
theorem slotTargets_insert_of_nil {old new : List Rela} {slotVaddr : Nat} (k : Nat)
    (h : slotTargets new slotVaddr = []) :
    slotTargets (old.take k ++ new ++ old.drop k) slotVaddr = slotTargets old slotVaddr := by
  rw [slotTargets_append, slotTargets_append, h, List.append_nil, ← slotTargets_append,
    List.take_append_drop]

theorem slotTargets_insert_of_old_nil {old new : List Rela} {slotVaddr : Nat} (k : Nat)
    (h : slotTargets old slotVaddr = []) :
    slotTargets (old.take k ++ new ++ old.drop k) slotVaddr = slotTargets new slotVaddr := by
  rw [← List.take_append_drop k old, slotTargets_append] at h
  obtain ⟨htake, hdrop⟩ := List.append_eq_nil_iff.mp h
  rw [slotTargets_append, slotTargets_append, htake, hdrop, List.append_nil, List.nil_append]

/-- An entry of the array moves with it. -/
theorem translateRela_rOffset (oldVaddr oldLength newVaddr : Nat) (r : Rela) :
    (translateRela oldVaddr oldLength newVaddr r).rOffset
      = if oldVaddr ≤ r.rOffset ∧ r.rOffset < oldVaddr + oldLength
        then newVaddr + (r.rOffset - oldVaddr) else r.rOffset := by
  unfold translateRela
  by_cases hin : oldVaddr ≤ r.rOffset ∧ r.rOffset < oldVaddr + oldLength
  · rw [if_pos hin, if_pos ⟨by omega, hin⟩]
  · rw [if_neg hin, if_neg fun h => hin h.2]

theorem translateRela_rInfo (oldVaddr oldLength newVaddr : Nat) (r : Rela) :
    (translateRela oldVaddr oldLength newVaddr r).rInfo = r.rInfo := by
  unfold translateRela
  split <;> rfl

theorem translateRela_rAddend (oldVaddr oldLength newVaddr : Nat) (r : Rela) :
    (translateRela oldVaddr oldLength newVaddr r).rAddend = r.rAddend := by
  unfold translateRela
  split <;> rfl

/-- A slot of the moved array is fixed up as the old one was. -/
theorem slotTargets_translate {entries : List Rela} {oldVaddr newVaddr n i : Nat}
    (hbelow : ∀ r ∈ entries, r.rOffset < newVaddr) (hi : i < n) :
    slotTargets (entries.map (translateRela oldVaddr (8 * n) newVaddr)) (newVaddr + 8 * i)
      = slotTargets entries (oldVaddr + 8 * i) := by
  induction entries with
  | nil => rfl
  | cons r entries ih =>
    have hr := hbelow r List.mem_cons_self
    rw [List.map_cons, slotTargets_cons, slotTargets_cons,
      ih fun q hq => hbelow q (List.mem_cons_of_mem r hq), translateRela_rAddend]
    have hsame : relativeFor (newVaddr + 8 * i) (translateRela oldVaddr (8 * n) newVaddr r)
        = relativeFor (oldVaddr + 8 * i) r := by
      unfold relativeFor Rela.rType
      rw [translateRela_rInfo, translateRela_rOffset]
      congr 1
      rw [Bool.eq_iff_iff, beq_iff_eq, beq_iff_eq]
      split <;> omega
    rw [hsame]

/-- Past the moved slots nothing is fixed up yet. -/
theorem slotTargets_translate_past {entries : List Rela} {oldVaddr newVaddr n j : Nat}
    (hbelow : ∀ r ∈ entries, r.rOffset < newVaddr) :
    slotTargets (entries.map (translateRela oldVaddr (8 * n) newVaddr))
      (newVaddr + 8 * n + 8 * j) = [] := by
  apply slotTargets_eq_nil
  intro q hq
  obtain ⟨r, hr, rfl⟩ := List.mem_map.mp hq
  have hlt := hbelow r hr
  rw [translateRela_rOffset]
  split <;> omega

theorem newRelative_relativeFor (slotVaddr addend other : Nat) :
    relativeFor other ⟨slotVaddr, rAarch64Relative, addend⟩ = (slotVaddr == other) := by
  unfold relativeFor
  rw [show (Rela.mk slotVaddr rAarch64Relative addend).rType = rAarch64Relative from rfl,
    beq_self_eq_true, Bool.and_true]

/-- The entries of the new slots, numbered from `k` on. -/
theorem slotTargets_newRelatives (first : Nat) (slots : List Nat) (k j : Nat) :
    slotTargets ((slots.zipIdx k).map fun s => ⟨first + s.2 * 8, rAarch64Relative, s.1⟩)
      (first + 8 * (k + j)) = slots[j]?.toList := by
  induction slots generalizing k j with
  | nil => rfl
  | cons b slots ih =>
    rw [List.zipIdx_cons, List.map_cons, slotTargets_cons, newRelative_relativeFor]
    cases j with
    | zero =>
      have hself : (first + k * 8 == first + 8 * (k + 0)) = true := by
        rw [beq_iff_eq]
        omega
      have hrest : slotTargets ((slots.zipIdx (k + 1)).map fun s =>
          ⟨first + s.2 * 8, rAarch64Relative, s.1⟩) (first + 8 * (k + 0)) = [] := by
        apply slotTargets_eq_nil
        intro r hr
        obtain ⟨s, hs, rfl⟩ := List.mem_map.mp hr
        have hle := List.le_snd_of_mem_zipIdx hs
        show first + s.2 * 8 ≠ _
        omega
      rw [if_pos hself, hrest]
      rfl
    | succ j =>
      have hother : (first + k * 8 == first + 8 * (k + (j + 1))) = false := by
        rw [beq_eq_false_iff_ne]
        omega
      have hnext := ih (k + 1) j
      rw [show k + 1 + j = k + (j + 1) by omega] at hnext
      rw [hother, hnext]
      rfl

theorem slotTargets_newRelatives_before {first slotVaddr : Nat} (slots : List Nat)
    (h : slotVaddr < first) : slotTargets (newRelatives first slots) slotVaddr = [] := by
  apply slotTargets_eq_nil
  intro r hr
  obtain ⟨s, _, rfl⟩ := List.mem_map.mp hr
  show first + s.2 * 8 ≠ slotVaddr
  omega

/-- **The slots of the longer array.** -/
theorem initSlots_rebuilt {src : Source} {es : List Rela} {n newVaddr : Nat} {slots : List Nat}
    (hsize : src.initArray.1.length = 8 * n) (hbelow : ∀ r ∈ es, r.rOffset < newVaddr) :
    (List.range (n + slots.length)).map
        (fun i => slotTargets (rebuiltRelaDyn src es newVaddr slots) (newVaddr + 8 * i))
      = (List.range n).map (fun i => slotTargets es (src.slotVaddr i)) ++ slots.map ([·]) := by
  rw [List.range_add, List.map_append]
  unfold rebuiltRelaDyn
  dsimp only
  rw [hsize]
  congr 1
  · apply List.map_congr_left
    intro i hi
    rw [List.mem_range] at hi
    rw [slotTargets_insert_of_nil _ (slotTargets_newRelatives_before slots (by omega)),
      slotTargets_translate hbelow hi]
    rfl
  · rw [List.map_map]
    apply List.ext_getElem
    · simp
    · intro j hj _
      rw [List.length_map, List.length_range] at hj
      rw [List.getElem_map, List.getElem_range, List.getElem_map, Function.comp_apply,
        show newVaddr + 8 * (n + j) = newVaddr + 8 * n + 8 * j by omega,
        slotTargets_insert_of_old_nil _ (slotTargets_translate_past hbelow)]
      have hnew := slotTargets_newRelatives (newVaddr + 8 * n) slots 0 j
      rw [Nat.zero_add, List.getElem?_eq_getElem hj] at hnew
      exact hnew

/-! ## §4. Sections that are mapped where they stand. -/

/-- A section of that name has its bytes in the file, and a load maps them to `vaddr`. -/
structure SectionMapped (src : Source) (name : String) (vaddr i : Nat) (s : Section)
    (l : ProgramHeader) : Prop where
  named : src.sectionNamed name = some (i, s)
  inFile : s.isNobits = false
  nonempty : 0 < s.bytes.length
  offset : 0 < (src.image.layout i).shOffset
  load : l ∈ loads src.image.programHeaders
  start : l.pVaddr ≤ vaddr
  skew : l.pOffset + (vaddr - l.pVaddr) = (src.image.layout i).shOffset
  stop : vaddr + s.bytes.length ≤ l.pVaddr + l.pFilesz
  filesz : l.pFilesz ≤ l.pMemsz

theorem SectionMapped.maps {src : Source} {name : String} {vaddr i : Nat} {s : Section}
    {l : ProgramHeader} (h : SectionMapped src name vaddr i s l) {file : Writer}
    (hl : l ∈ loads file.programHeaders) {bytes more : List Byte}
    (hat : file.ContentAt (src.image.layout i).shOffset (bytes ++ more))
    (hlen : bytes.length ≤ s.bytes.length) : Maps file vaddr bytes := by
  have hstop := h.stop
  refine ⟨l, hl, h.start, by omega, _, [], more, hat, ?_⟩
  rw [h.skew]
  rfl

theorem sectionNamed_mem {src : Source} {name : String} {i : Nat} {s : Section}
    (h : src.sectionNamed name = some (i, s)) :
    (s, i) ∈ src.container.sections.zipIdx ∧ s.name = name := by
  unfold Source.sectionNamed at h
  rw [Option.map_eq_some_iff] at h
  obtain ⟨⟨s', i'⟩, hfind, heq⟩ := h
  cases heq
  refine ⟨List.mem_of_find?_eq_some hfind, ?_⟩
  simpa using List.find?_some hfind

/-- Sections of different names are different ones. -/
theorem sectionNamed_ne {src : Source} {name name' : String} {i i' : Nat} {s s' : Section}
    (h : src.sectionNamed name = some (i, s)) (h' : src.sectionNamed name' = some (i', s'))
    (hne : name ≠ name') : i ≠ i' := by
  rintro rfl
  obtain ⟨hmem, hname⟩ := sectionNamed_mem h
  obtain ⟨hmem', hname'⟩ := sectionNamed_mem h'
  have hs := List.mem_zipIdx_iff_getElem?.mp hmem
  have hs' := List.mem_zipIdx_iff_getElem?.mp hmem'
  rw [hs, Option.some.injEq] at hs'
  exact hne (by rw [← hname, ← hname']; exact congrArg Section.name hs')

/-! ## §5. The `PT_DYNAMIC` of the committed file. -/

theorem dynamicHeader_patched {vaddr size : Nat} {phdrs patched : List ProgramHeader}
    (h : patchPtDynamic vaddr size phdrs = some patched) :
    ∃ p, dynamicHeader patched = some p ∧ p.pVaddr = vaddr := by
  induction phdrs generalizing patched with
  | nil => cases h
  | cons q rest ih =>
    unfold patchPtDynamic at h
    split at h
    · next htype =>
      cases h
      refine ⟨_, List.find?_cons_of_pos ?_, rfl⟩
      simpa using htype
    · next htype =>
      rw [Option.map_eq_some_iff] at h
      obtain ⟨rest', hrest, rfl⟩ := h
      obtain ⟨p, hp, hvaddr⟩ := ih hrest
      refine ⟨p, ?_, hvaddr⟩
      unfold dynamicHeader at hp ⊢
      rw [List.find?_cons_of_neg (by simpa using htype)]
      exact hp

/-- The appended writer emits the image's first `PT_DYNAMIC` first. -/
theorem dynamicHeader_emitted {image : Image} {p : ProgramHeader}
    (h : dynamicHeader image.programHeaders = some p) (a : AppendedSegment)
    (writable : Option WritableSegment) (woff aoff : Nat) :
    dynamicHeader (emittedPhdrs image a writable woff aoff) = some (remapPhdr a aoff p) := by
  unfold dynamicHeader at h ⊢
  have hkept : (phdrsToEmit image).find? (fun q => q.pType == ptDynamic) = some p := by
    unfold phdrsToEmit
    rw [List.find?_filter, ← h]
    congr 1
    funext q
    by_cases htype : q.pType = ptDynamic
    · rw [htype]
      rfl
    · have hne : (q.pType == ptDynamic) = false := by simpa using htype
      simp [hne]
  have hmapped : ((phdrsToEmit image).map (remapPhdr a aoff)).find? (fun q => q.pType == ptDynamic)
      = some (remapPhdr a aoff p) := by
    rw [List.find?_map]
    have hcomp : ((fun q : ProgramHeader => q.pType == ptDynamic) ∘ remapPhdr a aoff)
        = fun q => q.pType == ptDynamic := by
      funext q
      rw [Function.comp_apply, remapPhdr_pType]
    rw [hcomp, hkept]
    rfl
  unfold emittedPhdrs
  rw [List.find?_cons_of_neg (by simp [phtHeader, ptPhdr, ptDynamic]), List.find?_append, hmapped]
  rfl

/-! ## §6. Commits of initialisers. -/

section Commit

variable {strtab : List String → List Byte}
  {buildGnuHash : List Byte → List Byte → Nat → List Byte}
  {stub : Section → Nat → Nat → Option (List Byte)} {st : BinaryState} {file : Writer}

/-- Where `.init_array` goes when it moves. -/
def newArrayVaddr (src : Source) (segment : List Byte) (segmentVaddr slots : Nat) : Nat :=
  (pack segment segmentVaddr (src.initArray.1 ++ List.replicate (slots * 8) 0) 8).2

/-- The `.dynamic` entries a commit leaves for the loader. -/
def Source.committedDynamic (src : Source) (staged : Option (List DynamicEntry)) :
    List DynamicEntry :=
  match src.sectionNamed ".dynamic", staged with
  | some (_, s), some entries =>
    if (encodeDynamic src.container.is64 entries).length ≤ s.bytes.length then entries
    else grownDynamic entries
  | _, _ => staged.getD src.dynamic

/-- What a loader finds in the committed file. -/
def BinaryState.committedView (buildGnuHash : List Byte → List Byte → Nat → List Byte)
    (st : BinaryState) : Option View :=
  match st.openedForCommit with
  | none => some ⟨st.source.dynamic, st.effectiveRelaDyn.getD []⟩
  | some a => do
    let exported ← st.exportedSegment buildGnuHash a
    let initialised ← st.initialisedSegment a exported
    some
      { dynamic := st.source.committedDynamic initialised.2
        rela :=
          if st.pendingAppendedInitSlots.isEmpty then st.effectiveRelaDyn.getD []
          else
            rebuiltRelaDyn st.source (st.effectiveRelaDyn.getD [])
              (newArrayVaddr st.source exported.1 a.segmentVaddr
                st.pendingAppendedInitSlots.length) st.pendingAppendedInitSlots }

/-- What stands in the segment after the code is mapped by its last load. -/
theorem maps_of_segment {image : Image} {a : AppendedState} {f : Finalized}
    {overrides : Nat → Option (List Byte)} {writable : Option WritableSegment}
    (h : writeWithAppendedSegmentInner strtab st.source.container image (st.committedSegment a f)
      overrides writable = some file)
    {vaddr : Nat} {bytes : List Byte} (hstands : StandsIn a.segmentVaddr f.segment vaddr bytes)
    (hpast : a.segmentVaddr + (st.committedCode a).length ≤ vaddr) : Maps file vaddr bytes := by
  have hfile := writeWithAppendedSegmentInner_file h
  obtain ⟨woff, _, hphdrs⟩ := hfile.programHeaders
  set aoff := (appendedOffsets strtab st.source.container image (st.committedSegment a f)
    overrides writable).appended with haoff
  have hload : lastLoad image (st.committedSegment a f) writable aoff
      ∈ loads file.programHeaders := by
    rw [hphdrs, loads_emittedPhdrs_eq]
    exact List.mem_append_right _ (List.mem_append_right _ (mem_appendedLoads.mpr (Or.inr rfl)))
  obtain ⟨before, after, hsegment, rfl⟩ := hstands
  have hat := hfile.appendedAt
  rw [committedSegment_bytes] at hat
  have hlen := congrArg List.length hsegment
  simp only [List.length_append] at hlen
  have hcover := le_phtFileOffset (st.committedSegment a f) aoff
  rw [committedSegment_bytes] at hcover
  have hsplit : computeCodeDataSplit (st.committedSegment a f) ≤ (st.committedCode a).length := by
    obtain hzero | hcode := committedSegment_split st a f
    · rw [hzero]
      exact Nat.zero_le _
    · rw [hcode]
  have hvaddr : (lastLoad image (st.committedSegment a f) writable aoff).pVaddr
      = a.segmentVaddr + computeCodeDataSplit (st.committedSegment a f) := by
    rw [lastLoad_pVaddr, committedSegment_vaddr]
  have hoffset : (lastLoad image (st.committedSegment a f) writable aoff).pOffset
      = aoff + computeCodeDataSplit (st.committedSegment a f) := by
    unfold lastLoad
    dsimp only
    split
    · next hzero => rw [hzero]; rfl
    · rfl
  have hfilesz : f.segment.length ≤ computeCodeDataSplit (st.committedSegment a f)
      + (lastLoad image (st.committedSegment a f) writable aoff).pFilesz := by
    unfold lastLoad totalCover
    dsimp only
    split
    · dsimp only
      omega
    · dsimp only
      omega
  refine ⟨_, hload, by omega, by omega, aoff, before, after, ?_, by omega⟩
  rw [← hsegment]
  exact hat

theorem standsIn_pack (segment : List Byte) (segmentVaddr : Nat) (payload : List Byte)
    (align : Nat) :
    StandsIn segmentVaddr (pack segment segmentVaddr payload align).1
      (pack segment segmentVaddr payload align).2 payload :=
  standsIn_end segmentVaddr (padTo segment align) payload

theorem le_pack_vaddr (segment : List Byte) (segmentVaddr : Nat) (payload : List Byte)
    (align : Nat) :
    segmentVaddr + segment.length ≤ (pack segment segmentVaddr payload align).2 := by
  have hle := (prefix_padTo segment align).length_le
  show _ ≤ segmentVaddr + (padTo segment align).length
  omega

/-- Runs of initialisers stage neither exports nor library names. -/
theorem exportedSegment_quiet {a : AppendedState} (hdeps : st.pendingLibraryDeps = [])
    (hexports : a.exports = []) :
    st.exportedSegment buildGnuHash a = some (st.committedCode a, none) := by
  unfold BinaryState.exportedSegment
  rw [hdeps, hexports]
  rfl

end Commit

/-! ## §7. What a view has to offer. -/

/-- The image's dynamic section describes its relocations and its initialisers,
and both sections are mapped where they stand. -/
structure DynamicImage (src : Source) (entries : List Rela) (ctors : List Nat) : Prop where
  array : InitArray src entries ctors
  inside : ∀ r ∈ entries, r.rOffset < mappedEnd src.image
  padded : PaddedDynamic src.dynamic
  dynamic : ∃ p i s l, dynamicHeader src.image.programHeaders = some p
    ∧ SectionMapped src ".dynamic" p.pVaddr i s l
    ∧ s.bytes = encodeDynamic src.container.is64 src.dynamic
  rela : ∃ vaddr i s l, loaderTag src.dynamic dtRela = some vaddr
    ∧ SectionMapped src ".rela.dyn" vaddr i s l ∧ s.bytes = encodeRelas entries
  relasz : loaderTag src.dynamic dtRelasz = some (24 * entries.length)
  relacount : ∀ n, loaderTag src.dynamic dtRelacount = some n →
    n ≤ entries.length ∧ ∀ r ∈ entries.take n, r.rType = rAarch64Relative
  arrayTags : (src.sectionNamed ".init_array" = none ∧ loaderTag src.dynamic dtInitArray = none)
    ∨ (loaderTag src.dynamic dtInitArray = some src.initArray.2
      ∧ loaderTag src.dynamic dtInitArraysz = some src.initArray.1.length)

/-- An entry keeps its type and symbol; it moves with the array if it lies in
it; and its addend stays unless it fixes up a slot. -/
structure Kept (src : Source) (base : Nat) (r r' : Rela) : Prop where
  info : r'.rInfo = r.rInfo
  offset : r'.rOffset
    = if src.initArray.2 ≤ r.rOffset ∧ r.rOffset < src.initArray.2 + src.initArray.1.length
      then base + (r.rOffset - src.initArray.2) else r.rOffset
  addend : ¬ OnSlot src r → r'.rAddend = r.rAddend

/-- Where a view has the array; without the tag there is none. -/
def View.initBase (v : View) : Nat := (loaderTag v.dynamic dtInitArray).getD 0

/-- The slots lead through the chains of the order to the constructors, the
other relocations are there as before, and the tags count them right. -/
structure Offers (src : Source) (entries : List Rela) (ws : List Wrapper) (o : InitOrder Nat)
    (v : View) : Prop where
  runs : ∃ targets : List Nat, v.initSlots = targets.map ([·]) ∧ targets.flatMap (expand ws) = o.trace
  others : ∃ before added after, v.rela = before ++ added ++ after
    ∧ added.map Rela.rAddend = o.appended
    ∧ List.Forall₂ (Kept src v.initBase) entries (before ++ after)
  relacount : ∀ n, loaderTag v.dynamic dtRelacount = some n →
    n ≤ v.rela.length ∧ ∀ r ∈ v.rela.take n, r.rType = rAarch64Relative
  relasz : loaderTag v.dynamic dtRelasz = some (24 * v.rela.length)

section Offers

variable {src : Source} {entries es : List Rela} {ctors : List Nat} {st : BinaryState}
  {ws : List Wrapper} {o : InitOrder Nat}

/-- Each slot has one target, and the targets run what the chains say. -/
theorem targets_of_chains {f : Nat → List Nat} {g : Nat → List Nat} (chains : List (List Nat))
    (k : Nat) (h : ∀ i chain, chains[i]? = some chain → ∃ a, f (k + i) = [a] ∧ g a = chain) :
    ∃ targets : List Nat, (List.range' k chains.length).map f = targets.map ([·])
      ∧ targets.flatMap g = chains.flatten := by
  induction chains generalizing k with
  | nil => exact ⟨[], rfl, rfl⟩
  | cons chain chains ih =>
    obtain ⟨a, ha, hchain⟩ := h 0 chain rfl
    obtain ⟨targets, hmap, hruns⟩ := ih (k + 1) (by
      intro i c hc
      obtain ⟨b, hb⟩ := h (i + 1) c hc
      rw [show k + (i + 1) = k + 1 + i by omega] at hb
      exact ⟨b, hb⟩)
    refine ⟨a :: targets, ?_, ?_⟩
    · rw [List.length_cons, List.range'_succ, List.map_cons, List.map_cons, hmap]
      congr 1
    · rw [List.flatMap_cons, List.flatten_cons, hruns, hchain]

theorem Refines.targets (hr : Refines src entries ctors st ws o es) :
    ∃ targets : List Nat, (List.range ctors.length).map (fun i => slotTargets es (src.slotVaddr i))
        = targets.map ([·])
      ∧ targets.flatMap (expand ws) = o.slots.flatten := by
  rw [← hr.slotCount, List.range_eq_range']
  apply targets_of_chains
  intro i chain hchain
  obtain ⟨a, ha, hruns, _⟩ := hr.slots i chain hchain
  rw [Nat.zero_add]
  exact ⟨a, ha, hruns⟩

theorem Refines.sameOffsets (hr : Refines src entries ctors st ws o es) :
    List.Forall₂ (fun r r' => r'.rOffset = r.rOffset ∧ r'.rInfo = r.rInfo) entries es := by
  exact hr.entries.imp fun _ _ h => ⟨h.1, h.2.1⟩

/-- Entries related by equal types have equally many leading relative ones. -/
theorem relative_take {xs ys : List Rela} (h : List.Forall₂ (fun r r' => r'.rInfo = r.rInfo) xs ys)
    {n : Nat} (hxs : ∀ r ∈ xs.take n, r.rType = rAarch64Relative) :
    ∀ r ∈ ys.take n, r.rType = rAarch64Relative := by
  intro r' hr'
  obtain ⟨r, hr, hinfo⟩ := exists_mem_of_forall₂ (List.forall₂_take n h) hr'
  have htype := hxs r hr
  unfold Rela.rType at htype ⊢
  rw [hinfo, htype]

/-- Nothing moved: the view is the source's, with the redirected entries. -/
theorem offers_inPlace (hd : DynamicImage src entries ctors)
    (hr : Refines src entries ctors st ws o es) (happended : o.appended = []) :
    Offers src entries ws o ⟨src.dynamic, es⟩ := by
  have hsame := hr.sameOffsets
  have hinfo : List.Forall₂ (fun r r' : Rela => r'.rInfo = r.rInfo) entries es :=
    hsame.imp fun _ _ h => h.2
  have hlen := hsame.length_eq
  constructor
  case runs =>
    obtain ⟨targets, hmap, hruns⟩ := hr.targets
    refine ⟨targets, ?_, ?_⟩
    · rw [← hmap]
      unfold View.initSlots
      obtain ⟨hnone, htag⟩ | ⟨hbase, hsize⟩ := hd.arrayTags
      · have hempty : ctors.length = 0 := by
          have harray := hd.array.size
          unfold Source.initArray at harray
          rw [hnone] at harray
          simpa using harray.symm
        rw [htag, hempty]
        rfl
      · rw [hbase, hsize, hd.array.size]
        dsimp only
        rw [Nat.mul_div_cancel_left _ (by decide)]
        rfl
    · rw [hruns, InitOrder.trace, happended, List.append_nil]
  case others =>
    refine ⟨es, [], [], by simp, by rw [happended]; rfl, ?_⟩
    rw [List.append_nil]
    refine hr.entries.imp ?_
    rintro r r' ⟨hoffset, hinfo, haddend⟩
    refine ⟨hinfo, ?_, haddend⟩
    rw [hoffset]
    split
    · next hin =>
      have hbase : View.initBase ⟨src.dynamic, es⟩ = src.initArray.2 := by
        unfold View.initBase
        obtain ⟨hnone, _⟩ | ⟨hbase, _⟩ := hd.arrayTags
        · unfold Source.initArray at hin
          rw [hnone] at hin
          simp at hin
        · rw [hbase]
          rfl
      omega
    · rfl
  case relacount =>
    intro n hn
    obtain ⟨hle, hrelative⟩ := hd.relacount n hn
    exact ⟨by show n ≤ es.length; omega, relative_take hinfo hrelative⟩
  case relasz =>
    rw [hd.relasz, hlen]

/-- The array and the relocations moved: the new entries follow the relative ones. -/
theorem offers_moved (hd : DynamicImage src entries ctors)
    (hr : Refines src entries ctors st ws o es) {newVaddr : Nat}
    (hpast : mappedEnd src.image ≤ newVaddr) {dynamic : List DynamicEntry}
    (hbase : loaderTag dynamic dtInitArray = some newVaddr)
    (hsize : loaderTag dynamic dtInitArraysz
      = some (src.initArray.1.length + o.appended.length * 8))
    (hrelasz : loaderTag dynamic dtRelasz
      = some (24 * (rebuiltRelaDyn src es newVaddr o.appended).length))
    (hrelacount : loaderTag dynamic dtRelacount
      = (loaderTag src.dynamic dtRelacount).map fun n => n + o.appended.length) :
    Offers src entries ws o ⟨dynamic, rebuiltRelaDyn src es newVaddr o.appended⟩ := by
  have hsame := hr.sameOffsets
  have hlen := hsame.length_eq
  have hbelow : ∀ r ∈ es, r.rOffset < newVaddr := by
    intro r' hr'
    obtain ⟨r, hrmem, hoffset, _⟩ := exists_mem_of_forall₂ hsame hr'
    have hlt := hd.inside r hrmem
    omega
  set decoded := es.map (translateRela src.initArray.2 src.initArray.1.length newVaddr)
    with hdecoded
  have hkept : List.Forall₂ (Kept src newVaddr) entries decoded := by
    rw [hdecoded, List.forall₂_map_right_iff]
    refine hr.entries.imp ?_
    rintro r r' ⟨hoffset, hinfo, haddend⟩
    constructor
    case info => rw [translateRela_rInfo, hinfo]
    case offset => rw [translateRela_rOffset, hoffset]
    case addend =>
      rw [translateRela_rAddend]
      exact haddend
  have hnew : (newRelatives (newVaddr + src.initArray.1.length) o.appended).map Rela.rAddend
      = o.appended := by
    unfold newRelatives
    rw [List.map_map]
    exact List.zipIdx_map_fst 0 o.appended
  constructor
  case runs =>
    obtain ⟨targets, hmap, hruns⟩ := hr.targets
    refine ⟨targets ++ o.appended, ?_, ?_⟩
    · unfold View.initSlots
      rw [hbase, hsize]
      dsimp only
      rw [hd.array.size, Nat.mul_comm o.appended.length 8, ← Nat.mul_add,
        Nat.mul_div_cancel_left _ (by decide), initSlots_rebuilt hd.array.size hbelow, hmap,
        List.map_append]
    · rw [List.flatMap_append, hruns, InitOrder.trace]
      congr 1
      have hself : ∀ b ∈ o.appended, expand ws b = [b] := fun b hb => (hr.appended b hb).1
      rw [List.flatMap_congr hself, List.flatMap_singleton']
  case others =>
    refine ⟨_, newRelatives (newVaddr + src.initArray.1.length) o.appended, _, rfl, hnew, ?_⟩
    rw [List.take_append_drop, View.initBase, hbase]
    exact hkept
  case relacount =>
    intro n hn
    rw [hrelacount, Option.map_eq_some_iff] at hn
    obtain ⟨k, hk, rfl⟩ := hn
    obtain ⟨hle, hrelative⟩ := hd.relacount k hk
    have hdecodedLen : decoded.length = entries.length := hkept.length_eq.symm
    have hcount : src.relacount = some k := by
      unfold Source.relacount
      rw [findDynamic_eq_loaderTag hd.padded (by decide), hk]
    have hrebuilt : rebuiltRelaDyn src es newVaddr o.appended = decoded.take k
        ++ newRelatives (newVaddr + src.initArray.1.length) o.appended ++ decoded.drop k := by
      unfold rebuiltRelaDyn
      rw [hcount]
      rfl
    have hnewLen : (newRelatives (newVaddr + src.initArray.1.length) o.appended).length
        = o.appended.length := by
      rw [← List.length_map (f := Rela.rAddend), hnew]
    have htakeLen : (decoded.take k).length = k := by
      rw [List.length_take]
      omega
    refine ⟨?_, ?_⟩
    · show k + o.appended.length ≤ (rebuiltRelaDyn src es newVaddr o.appended).length
      rw [hrebuilt, List.length_append, List.length_append, htakeLen, hnewLen]
      exact Nat.le_add_right _ _
    · show ∀ r ∈ (rebuiltRelaDyn src es newVaddr o.appended).take (k + o.appended.length), _
      rw [hrebuilt, List.take_left' (by rw [List.length_append, htakeLen, hnewLen])]
      intro r hr'
      obtain hr' | hr' := List.mem_append.mp hr'
      · exact relative_take (hkept.imp fun _ _ h => h.info) hrelative r hr'
      · obtain ⟨s, _, rfl⟩ := List.mem_map.mp hr'
        rfl
  case relasz => exact hrelasz

end Offers

/-! ## §8. The view stands in the committed file. -/

section Carried

variable {strtab : List String → List Byte}
  {buildGnuHash : List Byte → List Byte → Nat → List Byte}
  {stub : Section → Nat → Nat → Option (List Byte)} {st : BinaryState} {file : Writer}
  {a : AppendedState} {f : Finalized} {overrides : Nat → Option (List Byte)}
  {writable : Option WritableSegment}

/-- A load of the image lies before any address past what is mapped. -/
theorem SectionMapped.load_lt {src : Source} {name : String} {vaddr i : Nat} {s : Section}
    {l : ProgramHeader} (h : SectionMapped src name vaddr i s l) :
    l.pVaddr < mappedEnd src.image := by
  obtain ⟨hmem, htype⟩ := mem_loads.mp h.load
  have hle := load_end_le_mappedEnd hmem htype
  have hstart := h.start
  have hstop := h.stop
  have hfilesz := h.filesz
  have hpos := h.nonempty
  omega

/-- The appended writer leaves a mapped section where it stands, with the bytes
staged for it. -/
theorem SectionMapped.committed {name : String} {vaddr i : Nat} {s : Section}
    {l : ProgramHeader} (h : SectionMapped st.source name vaddr i s l)
    (hfile : writeWithAppendedSegmentInner strtab st.source.container f.image
      (st.committedSegment a f) overrides writable = some file)
    (hlayout : f.image.layout i = st.source.image.layout i)
    (hloads : loads f.image.programHeaders = loads st.source.image.programHeaders)
    (hbase : mappedEnd st.source.image ≤ a.segmentVaddr) {bytes more : List Byte}
    (hcontent : (overrides i).getD s.bytes = bytes ++ more)
    (hpos : 0 < (bytes ++ more).length) (hlen : bytes.length ≤ s.bytes.length) :
    Maps file vaddr bytes := by
  have hlt := h.load_lt
  have hload : l ∈ loads file.programHeaders := by
    obtain ⟨woff, _, hphdrs⟩ := (writeWithAppendedSegmentInner_file hfile).programHeaders
    rw [hphdrs, loads_emittedPhdrs_eq, List.mem_append, List.mem_map]
    refine Or.inl ⟨l, by rw [hloads]; exact h.load, ?_⟩
    apply remapPhdr_of_not_inSegment
    rintro ⟨hin, _⟩
    rw [committedSegment_vaddr] at hin
    omega
  have hat := appended_contentAt hfile (sectionNamed_mem h.named).1 h.inFile
    (by rw [hcontent]; exact hpos) (by rw [hlayout]; exact h.offset)
  rw [hlayout, hcontent] at hat
  exact h.maps hload hat hlen

theorem dynamicHeader_committed {c : Container} {image : Image} {segment : AppendedSegment}
    (h : writeWithAppendedSegmentInner strtab c image segment overrides writable = some file)
    {p : ProgramHeader} (hp : dynamicHeader image.programHeaders = some p) :
    ∃ q, dynamicHeader file.programHeaders = some q ∧ q.pVaddr = p.pVaddr := by
  obtain ⟨woff, _, hphdrs⟩ := (writeWithAppendedSegmentInner_file h).programHeaders
  rw [hphdrs, dynamicHeader_emitted hp]
  exact ⟨_, rfl, remapPhdr_pVaddr segment _ p⟩

/-- Nothing was appended: the image is written as it is. -/
theorem carries_unopened {entries : List Rela} {ctors : List Nat}
    (hd : DynamicImage st.source entries ctors) (hopened : st.openedForCommit = none)
    (h : st.commit strtab buildGnuHash stub = some file) :
    Carries file st.source.container.is64 ⟨st.source.dynamic, entries⟩ := by
  unfold BinaryState.commit at h
  rw [hopened] at h
  dsimp only at h
  unfold Source.container at h
  rw [write_parse] at h
  have hphdrs : file.programHeaders = st.source.image.programHeaders :=
    writeInPlace_programHeaders h
  have hmaps : ∀ {name vaddr i s l}, SectionMapped st.source name vaddr i s l →
      Maps file vaddr s.bytes := by
    intro name vaddr i s l hs
    have hat := writeInPlace_contentAt h (sectionNamed_mem hs.named).1 hs.inFile hs.nonempty
      hs.offset
    rw [← List.append_nil s.bytes] at hat
    exact hs.maps (by rw [hphdrs]; exact hs.load) hat (Nat.le_refl _)
  constructor
  case dynamic =>
    obtain ⟨p, i, s, l, hp, hs, hbytes⟩ := hd.dynamic
    refine ⟨p, by rw [hphdrs]; exact hp, ?_⟩
    rw [← hbytes]
    exact hmaps hs
  case terminated => exact hd.padded.1
  case rela =>
    obtain ⟨vaddr, i, s, l, hvaddr, hs, hbytes⟩ := hd.rela
    refine ⟨vaddr, hvaddr, ?_⟩
    rw [← hbytes]
    exact hmaps hs

/-- What a run stages for `.rela.dyn` when the section keeps its place. -/
theorem overrides_relaDyn {i : Nat} {s : Section} {f : Finalized} {es entries : List Rela}
    (hnamed : st.source.sectionNamed ".rela.dyn" = some (i, s)) (hf : f.dynamicInPlace = none)
    (hpending : st.pendingAppendedInitSlots = []) (hbytes : s.bytes = encodeRelas entries)
    (hsource : st.source.relaDyn = some entries) (heffective : st.effectiveRelaDyn = some es) :
    (st.overrides f i).getD s.bytes = encodeRelas es := by
  unfold BinaryState.overrides
  rw [hf, hnamed, hpending]
  unfold BinaryState.effectiveRelaDyn at heffective
  rw [hsource] at heffective
  dsimp only at heffective
  cases hlast : st.relaOverrides.getLast? with
  | none =>
    rw [hlast, Option.getD_none, Option.some.injEq] at heffective
    simp [hbytes, heffective]
  | some staged =>
    rw [hlast, Option.getD_some, Option.some.injEq] at heffective
    simp [heffective]

/-- With no new slot, both sections keep their places. -/
theorem carries_kept {entries es : List Rela} {ctors : List Nat}
    (hd : DynamicImage st.source entries ctors) (hbase : mappedEnd st.source.image ≤ a.segmentVaddr)
    (hpending : st.pendingAppendedInitSlots = []) (heffective : st.effectiveRelaDyn = some es)
    (hlen : es.length = entries.length) {segment : List Byte}
    (h : writeWithAppendedSegmentInner strtab st.source.container st.source.image
      (st.committedSegment a ⟨segment, st.source.image, none⟩)
      (st.overrides ⟨segment, st.source.image, none⟩) writable = some file) :
    Carries file st.source.container.is64 ⟨st.source.dynamic, es⟩ := by
  set f : Finalized := ⟨segment, st.source.image, none⟩ with hf
  obtain ⟨vaddr, i, s, l, hvaddr, hs, hbytes⟩ := hd.rela
  obtain ⟨p, i', s', l', hp, hs', hbytes'⟩ := hd.dynamic
  constructor
  case dynamic =>
    obtain ⟨q, hq, hqvaddr⟩ := dynamicHeader_committed h hp
    refine ⟨q, hq, ?_⟩
    rw [hqvaddr, ← hbytes']
    have hcontent : ((st.overrides f i').getD s'.bytes) = s'.bytes ++ [] := by
      have hne := sectionNamed_ne hs'.named hs.named (by decide)
      unfold BinaryState.overrides
      rw [hs'.named, hs.named]
      simp [hf, hne.symm]
    exact hs'.committed (f := f) h rfl rfl hbase hcontent (by simpa using hs'.nonempty)
      (Nat.le_refl _)
  case terminated => exact hd.padded.1
  case rela =>
    refine ⟨vaddr, hvaddr, ?_⟩
    have hpos := hs.nonempty
    rw [hbytes, encodeRelas_length] at hpos
    have hcontent : ((st.overrides f i).getD s.bytes) = encodeRelas es ++ [] := by
      rw [List.append_nil]
      exact overrides_relaDyn hs.named rfl hpending hbytes hd.array.relaDyn heffective
    refine hs.committed (f := f) h rfl rfl hbase hcontent ?_ ?_
    · rw [List.append_nil, encodeRelas_length, hlen]
      exact hpos
    · rw [hbytes, encodeRelas_length, encodeRelas_length, hlen]

end Carried

/-! ## §9. The tags of a moved array. -/

/-- The `.dynamic` entries once the array has moved. -/
def movedDynamic (starting : List DynamicEntry) (updates : List (Nat × Nat)) (base size : Nat) :
    List DynamicEntry :=
  if starting.any fun e => e.tag == dtInitArray then updateDynamicTags starting updates
  else
    insertDynamicTagsGrowing (updateDynamicTags starting updates)
      [(dtInitArray, base), (dtInitArraysz, size)]

section MovedDynamic

variable {starting : List DynamicEntry} {updates : List (Nat × Nat)} {base size : Nat}

theorem loaderTag_inserted (tag : Nat) :
    loaderTag (insertDynamicTagsGrowing (updateDynamicTags starting updates)
        [(dtInitArray, base), (dtInitArraysz, size)]) tag
      = ((loaderTag starting tag).map fun value => (lastWins updates tag).getD value).or
        (findDynamic [⟨dtInitArray, base⟩, ⟨dtInitArraysz, size⟩] tag) := by
  rw [loaderTag_insert, loaderTag_update]
  · rfl
  · intro a ha
    simp only [List.mem_cons, List.not_mem_nil, or_false] at ha
    obtain rfl | rfl := ha
    · show dtInitArray ≠ dtNull
      decide
    · show dtInitArraysz ≠ dtNull
      decide

/-- Other tags are updated, if they are there. -/
theorem loaderTag_movedDynamic {tag : Nat} (harray : tag ≠ dtInitArray)
    (hsize : tag ≠ dtInitArraysz) :
    loaderTag (movedDynamic starting updates base size) tag
      = (loaderTag starting tag).map fun value => (lastWins updates tag).getD value := by
  unfold movedDynamic
  split
  · exact loaderTag_update starting updates tag
  · rw [loaderTag_inserted]
    have hnone : findDynamic [⟨dtInitArray, base⟩, ⟨dtInitArraysz, size⟩] tag = none := by
      unfold findDynamic
      simp [harray.symm, hsize.symm]
    rw [hnone, Option.or_none]

/-- The tags of the array are there in any case. -/
theorem loaderTag_movedArray (hpadded : PaddedDynamic starting)
    (hboth : (loaderTag starting dtInitArray).isSome → (loaderTag starting dtInitArraysz).isSome)
    (hbase : lastWins updates dtInitArray = some base)
    (hsize : lastWins updates dtInitArraysz = some size) :
    loaderTag (movedDynamic starting updates base size) dtInitArray = some base
      ∧ loaderTag (movedDynamic starting updates base size) dtInitArraysz = some size := by
  unfold movedDynamic
  have hfind : findDynamic starting dtInitArray = loaderTag starting dtInitArray :=
    findDynamic_eq_loaderTag hpadded (by decide)
  split
  · next hany =>
    have hsome : (loaderTag starting dtInitArray).isSome = true := by
      rw [← hfind, findDynamic, Option.isSome_map, List.find?_isSome]
      simpa using hany
    obtain ⟨old, hold⟩ := Option.isSome_iff_exists.mp hsome
    obtain ⟨oldSize, holdSize⟩ := Option.isSome_iff_exists.mp (hboth hsome)
    rw [loaderTag_update, loaderTag_update, hold, holdSize, hbase, hsize]
    exact ⟨rfl, rfl⟩
  · next hany =>
    have hnone : loaderTag starting dtInitArray = none := by
      rw [← hfind, findDynamic, Option.map_eq_none_iff, List.find?_eq_none]
      simpa using hany
    rw [loaderTag_inserted, loaderTag_inserted, hnone, hsize]
    refine ⟨rfl, ?_⟩
    cases loaderTag starting dtInitArraysz <;> rfl

theorem terminated_movedDynamic (h : ∃ e ∈ starting, e.tag = dtNull) :
    ∃ e ∈ movedDynamic starting updates base size, e.tag = dtNull := by
  unfold movedDynamic
  split
  · obtain ⟨e, he, htag⟩ := h
    refine ⟨updatedEntry updates e, ?_, htag⟩
    rw [updateDynamicTags_eq]
    exact List.mem_map_of_mem he
  · unfold insertDynamicTagsGrowing
    exact ⟨⟨dtNull, 0⟩, by simp, rfl⟩

end MovedDynamic

/-- The tags staged when the array and `.rela.dyn` move. -/
def movedTags (src : Source) (relaVaddr relasz base slots : Nat) : List (Nat × Nat) :=
  [(dtRela, relaVaddr), (dtRelasz, relasz), (dtRelacount, src.relacount.getD 0 + slots),
    (dtInitArray, base), (dtInitArraysz, src.initArray.1.length + slots * 8)]

/-- What packing the new slots leaves: the relocations behind the array, and the tags. -/
theorem extendSegmentForAppendedInitSlots_inv {src : Source} {segmentVaddr : Nat}
    {existing : List Byte} {slots : List Nat} {staged : Option (List Rela)}
    {entries : List Rela} {r : List Byte × List DynamicEntry} (hsource : src.relaDyn = some entries)
    (h : extendSegmentForAppendedInitSlots src segmentVaddr existing slots staged none = some r) :
    ∃ relaVaddr, segmentVaddr + existing.length ≤ relaVaddr
      ∧ StandsIn segmentVaddr r.1 relaVaddr (encodeRelas (rebuiltRelaDyn src
        (staged.getD entries) (newArrayVaddr src existing segmentVaddr slots.length) slots))
      ∧ r.2 = movedDynamic src.dynamic
        (movedTags src relaVaddr
          (24 * (rebuiltRelaDyn src (staged.getD entries)
            (newArrayVaddr src existing segmentVaddr slots.length) slots).length)
          (newArrayVaddr src existing segmentVaddr slots.length) slots.length)
        (newArrayVaddr src existing segmentVaddr slots.length)
        (src.initArray.1.length + slots.length * 8) := by
  unfold extendSegmentForAppendedInitSlots at h
  rw [hsource] at h
  dsimp only at h
  split at h
  · cases h
  · cases h
    refine ⟨_, ?_, standsIn_pack _ _ _ _, ?_⟩
    · have hle := (prefix_pack existing
        (src.initArray.1 ++ List.replicate (slots.length * 8) 0) 8).length_le
      have hle' := le_pack_vaddr (pack existing segmentVaddr
        (src.initArray.1 ++ List.replicate (slots.length * 8) 0) 8).1 segmentVaddr
        (encodeRelas (rebuiltRelaDyn src (staged.getD entries)
          (newArrayVaddr src existing segmentVaddr slots.length) slots)) 8
      exact Nat.le_trans (Nat.add_le_add_left hle segmentVaddr) hle'
    · unfold movedDynamic movedTags newArrayVaddr
      dsimp only [Option.getD_none]
      rw [encodeRelas_length, List.length_append, List.length_replicate, Nat.mul_comm 24]

/-! ## §10. Commits of runs. -/

section Runs

variable {strtab : List String → List Byte}
  {buildGnuHash : List Byte → List Byte → Nat → List Byte}
  {stub : Section → Nat → Nat → Option (List Byte)} {st : BinaryState} {file : Writer}
  {src : Source} {entries es : List Rela} {ctors : List Nat} {ws : List Wrapper}
  {o : InitOrder Nat}

/-- The staged `.dynamic` stands where the loader looks: in its section, or in the
segment with the header re-aimed. -/
theorem carries_staged {a : AppendedState} {segment : List Byte} {staged : List DynamicEntry}
    {f : Finalized} {writable : Option WritableSegment}
    (hd : DynamicImage st.source entries ctors) (hbase : mappedEnd st.source.image ≤ a.segmentVaddr)
    (hcode : st.committedCode a <+: segment)
    (hterminated : ∃ e ∈ staged, e.tag = dtNull)
    (hfinal : finalizeDynamic st.source a.segmentVaddr segment (some staged) = some f)
    (h : writeWithAppendedSegmentInner strtab st.source.container f.image (st.committedSegment a f)
      (st.overrides f) writable = some file) :
    (∃ p, dynamicHeader file.programHeaders = some p ∧ Maps file p.pVaddr
        (encodeDynamic st.source.container.is64 (st.source.committedDynamic (some staged))))
      ∧ ∃ e ∈ st.source.committedDynamic (some staged), e.tag = dtNull := by
  obtain ⟨p, i, s, l, hp, hs, _⟩ := hd.dynamic
  unfold finalizeDynamic at hfinal
  unfold Source.committedDynamic
  rw [hs.named] at hfinal ⊢
  dsimp only at hfinal ⊢
  by_cases hfits : (encodeDynamic st.source.container.is64 staged).length ≤ s.bytes.length
  · rw [if_pos hfits, Option.some.injEq] at hfinal
    subst hfinal
    rw [if_pos hfits]
    obtain ⟨q, hq, hqvaddr⟩ := dynamicHeader_committed h hp
    refine ⟨⟨q, hq, ?_⟩, hterminated⟩
    rw [hqvaddr]
    have hcontent : ((st.overrides ⟨segment, st.source.image,
          some (encodeDynamic st.source.container.is64 staged ++ List.replicate
            (s.bytes.length - (encodeDynamic st.source.container.is64 staged).length) 0)⟩ i).getD
          s.bytes)
        = encodeDynamic st.source.container.is64 staged ++ List.replicate
          (s.bytes.length - (encodeDynamic st.source.container.is64 staged).length) 0 := by
      unfold BinaryState.overrides
      rw [hs.named]
      simp
    refine hs.committed h rfl rfl hbase hcontent ?_ hfits
    have hpos := hs.nonempty
    rw [List.length_append, List.length_replicate]
    omega
  · rw [if_neg hfits, Option.map_eq_some_iff] at hfinal
    obtain ⟨phdrs, hpatch, rfl⟩ := hfinal
    rw [if_neg hfits]
    obtain ⟨p', hp', hvaddr⟩ := dynamicHeader_patched hpatch
    obtain ⟨q, hq, hqvaddr⟩ := dynamicHeader_committed h hp'
    refine ⟨⟨q, hq, ?_⟩, ⟨dtNull, 0⟩, ?_, rfl⟩
    · rw [hqvaddr, hvaddr]
      refine maps_of_segment h (standsIn_pack _ _ _ _) ?_
      have hle := le_pack_vaddr segment a.segmentVaddr
        (encodeDynamic st.source.container.is64 (grownDynamic staged)) 8
      have hcodeLen := hcode.length_le
      omega
    · unfold grownDynamic
      simp

theorem loaderTag_committedDynamic (src : Source) (staged : List DynamicEntry) (tag : Nat) :
    loaderTag (src.committedDynamic (some staged)) tag = loaderTag staged tag := by
  unfold Source.committedDynamic
  split
  · next hstaged =>
    cases hstaged
    split
    · rfl
    · exact loaderTag_grownDynamic _ _
  · rfl

/-- The view once the array and the relocations have moved. -/
theorem moved_view {a : AppendedState} {f : Finalized} {r : List Byte × List DynamicEntry}
    {writable : Option WritableSegment} (hd : DynamicImage st.source entries ctors)
    (hr : Refines st.source entries ctors st ws o es)
    (hbase : mappedEnd st.source.image ≤ a.segmentVaddr)
    (hes : st.relaOverrides.getLast?.getD entries = es)
    (hextend : extendSegmentForAppendedInitSlots st.source a.segmentVaddr (st.committedCode a)
      o.appended st.relaOverrides.getLast? none = some r)
    (hfinal : finalizeDynamic st.source a.segmentVaddr r.1 (some r.2) = some f)
    (h : writeWithAppendedSegmentInner strtab st.source.container f.image (st.committedSegment a f)
      (st.overrides f) writable = some file) :
    Carries file st.source.container.is64
        ⟨st.source.committedDynamic (some r.2), rebuiltRelaDyn st.source es
          (newArrayVaddr st.source (st.committedCode a) a.segmentVaddr o.appended.length)
          o.appended⟩
      ∧ Offers st.source entries ws o
        ⟨st.source.committedDynamic (some r.2), rebuiltRelaDyn st.source es
          (newArrayVaddr st.source (st.committedCode a) a.segmentVaddr o.appended.length)
          o.appended⟩ := by
  have hcode := extendSegmentForAppendedInitSlots_prefix hextend
  obtain ⟨relaVaddr, hpast, hstands, hdynamic⟩ :=
    extendSegmentForAppendedInitSlots_inv hd.array.relaDyn hextend
  rw [hes] at hstands hdynamic
  set base := newArrayVaddr st.source (st.committedCode a) a.segmentVaddr o.appended.length
    with hnewArray
  set rela := rebuiltRelaDyn st.source es base o.appended with hrela
  obtain ⟨hsegment, _⟩ := finalizeDynamic_spec hfinal
  have hterminated : ∃ e ∈ r.2, e.tag = dtNull := by
    rw [hdynamic]
    exact terminated_movedDynamic hd.padded.1
  obtain ⟨hheader, hnull⟩ := carries_staged hd hbase hcode hterminated hfinal h
  have hboth : (loaderTag st.source.dynamic dtInitArray).isSome →
      (loaderTag st.source.dynamic dtInitArraysz).isSome := by
    obtain ⟨_, hnone⟩ | ⟨_, hsize⟩ := hd.arrayTags
    · rw [hnone]
      exact fun h => absurd h Bool.false_ne_true
    · rw [hsize]
      exact fun _ => rfl
  have harray : loaderTag r.2 dtInitArray = some base
      ∧ loaderTag r.2 dtInitArraysz
        = some (st.source.initArray.1.length + o.appended.length * 8) := by
    rw [hdynamic]
    exact loaderTag_movedArray hd.padded hboth rfl rfl
  obtain ⟨harrayTag, harraySize⟩ := harray
  have htag : ∀ tag, tag ≠ dtInitArray → tag ≠ dtInitArraysz →
      loaderTag (st.source.committedDynamic (some r.2)) tag
        = (loaderTag st.source.dynamic tag).map fun value =>
          (lastWins (movedTags st.source relaVaddr (24 * rela.length) base o.appended.length)
            tag).getD value := by
    intro tag hne hne'
    rw [loaderTag_committedDynamic, hdynamic]
    exact loaderTag_movedDynamic hne hne'
  rw [← loaderTag_committedDynamic st.source r.2] at harrayTag harraySize
  have hpastImage : mappedEnd st.source.image ≤ base := by
    have hle := le_pack_vaddr (st.committedCode a) a.segmentVaddr
      (st.source.initArray.1 ++ List.replicate (o.appended.length * 8) 0) 8
    have hdef : base = (pack (st.committedCode a) a.segmentVaddr
      (st.source.initArray.1 ++ List.replicate (o.appended.length * 8) 0) 8).2 := rfl
    omega
  constructor
  · constructor
    case dynamic => exact hheader
    case terminated => exact hnull
    case rela =>
      obtain ⟨old, _, _, _, hold, _⟩ := hd.rela
      refine ⟨relaVaddr, ?_, maps_of_segment h (hstands.grow hsegment) hpast⟩
      rw [htag dtRela (by decide) (by decide), hold]
      rfl
  · apply offers_moved hd hr hpastImage harrayTag harraySize
    · rw [htag dtRelasz (by decide) (by decide), hd.relasz]
      rfl
    · rw [htag dtRelacount (by decide) (by decide)]
      cases hcount : loaderTag st.source.dynamic dtRelacount with
      | none => rfl
      | some n =>
        have hsource : st.source.relacount = some n := by
          unfold Source.relacount
          rw [findDynamic_eq_loaderTag hd.padded (by decide), hcount]
        unfold movedTags
        rw [hsource]
        rfl

/-- **The committed view.**  A run of initialisers commits a file that carries a
view with everything the order asks for. -/
theorem exists_committedView (hd : DynamicImage src entries ctors)
    (hr : Refines src entries ctors st ws o es)
    (h : st.commit strtab buildGnuHash stub = some file) :
    ∃ v, st.committedView buildGnuHash = some v ∧ Carries file src.container.is64 v
      ∧ Offers src entries ws o v := by
  obtain rfl := hr.source
  have hlen : es.length = entries.length := hr.sameOffsets.length_eq.symm
  cases hopened : st.openedForCommit with
  | none =>
    have hcarries := carries_unopened hd hopened h
    obtain ⟨rfl, happended⟩ := hr.unopened (openedForCommit_none hopened).1
    refine ⟨⟨st.source.dynamic, es⟩, ?_, hcarries, offers_inPlace hd hr happended⟩
    unfold BinaryState.committedView
    rw [hopened, hr.effective]
    rfl
  | some a =>
    have hbase := openedForCommit_base hr.based hopened
    have hexports : a.exports = [] := by
      have hregion : st.codeRegion = a := by
        unfold BinaryState.openedForCommit at hopened
        split at hopened
        · next b hb =>
          cases hopened
          exact codeRegion_of_some hb
        · split at hopened
          · cases hopened
            rfl
          · cases hopened
      rw [← hregion]
      exact hr.exports
    have hexported : st.exportedSegment buildGnuHash a = some (st.committedCode a, none) :=
      exportedSegment_quiet hr.deps hexports
    unfold BinaryState.commit at h
    rw [hopened] at h
    dsimp only at h
    split at h
    · cases h
    next f hfinal =>
    unfold BinaryState.finalizeSegment at hfinal
    rw [hexported] at hfinal
    simp only [Option.bind_eq_bind, Option.bind_some] at hfinal
    obtain ⟨initialised, hinitialised, hfinal⟩ := Option.bind_eq_some_iff.mp hfinal
    have hview : st.committedView buildGnuHash = some
        { dynamic := st.source.committedDynamic initialised.2
          rela :=
            if st.pendingAppendedInitSlots.isEmpty then es
            else rebuiltRelaDyn st.source es (newArrayVaddr st.source (st.committedCode a)
              a.segmentVaddr st.pendingAppendedInitSlots.length) st.pendingAppendedInitSlots } := by
      unfold BinaryState.committedView
      rw [hopened]
      dsimp only
      rw [hexported, hr.effective]
      simp only [Option.bind_eq_bind, Option.bind_some, hinitialised, Option.getD_some]
    refine ⟨_, hview, ?_⟩
    unfold BinaryState.initialisedSegment at hinitialised
    by_cases hpending : st.pendingAppendedInitSlots = []
    · have hquiet : st.pendingAppendedInitSlots.isEmpty = true := by rw [hpending]; rfl
      rw [if_pos hquiet, Option.some.injEq] at hinitialised
      subst hinitialised
      have hdynamic : st.source.committedDynamic none = st.source.dynamic := by
        unfold Source.committedDynamic
        cases st.source.sectionNamed ".dynamic" <;> rfl
      rw [if_pos hquiet]
      dsimp only
      rw [hdynamic]
      have hf : f = ⟨st.committedCode a, st.source.image, none⟩ := by
        unfold finalizeDynamic at hfinal
        dsimp only at hfinal
        split at hfinal
        · next hnone => cases hnone
        · cases hfinal
          rfl
      subst hf
      exact ⟨carries_kept hd hbase hpending hr.effective hlen h,
        offers_inPlace hd hr (by rw [← hr.pending, hpending])⟩
    · have hgrown : ¬ (st.pendingAppendedInitSlots.isEmpty = true) := by simpa using hpending
      rw [if_neg hgrown, Option.map_eq_some_iff] at hinitialised
      obtain ⟨r, hextend, rfl⟩ := hinitialised
      rw [if_neg hgrown]
      dsimp only at hfinal ⊢
      have hes : st.relaOverrides.getLast?.getD entries = es := by
        have heffective := hr.effective
        unfold BinaryState.effectiveRelaDyn at heffective
        rw [hd.array.relaDyn] at heffective
        exact Option.some.inj heffective
      rw [hr.pending] at hextend ⊢
      exact moved_view hd hr hbase hes hextend hfinal h

/-- What a run of calls comes to for the loader of the committed file. -/
structure Composed (src : Source) (entries : List Rela) (ctors : List Nat)
    (log : List Installed) (file : Writer) (v : View) : Prop where
  carried : Carries file src.container.is64 v
  /-- Each slot gets one routine, and running them in order is the intended order. -/
  order : ∃ targets : List Nat, v.initSlots = targets.map ([·])
    ∧ RunsInOrder ctors (bodies log) (targets.flatMap (expand (wrappers log)))
  /-- The wrappers are there, and call what they stand for. -/
  wrapped : ∀ w ∈ wrappers log,
    ∃ bytes, assembleWrapper w.address w.body w.ctor = some bytes ∧ Maps file w.address bytes
  others : ∃ before added after, v.rela = before ++ added ++ after
    ∧ added.map Rela.rAddend = bodiesAt .append (bodies log)
    ∧ List.Forall₂ (Kept src v.initBase) entries (before ++ after)
  relacount : ∀ n, loaderTag v.dynamic dtRelacount = some n →
    n ≤ v.rela.length ∧ ∀ r ∈ v.rela.take n, r.rType = rAarch64Relative
  relasz : loaderTag v.dynamic dtRelasz = some (24 * v.rela.length)

theorem slots_determine_targets {targets targets' : List Nat}
    (h : targets.map ([·]) = targets'.map ([·])) : targets = targets' := by
  have hinj : Function.Injective fun a : Nat => [a] := fun a b hab => by simpa using hab
  exact List.map_injective_iff.mpr hinj h

/-- **Initialisers compose.**  Whatever calls succeed, the committed file gives the
loader a view with the intended order, the relocations there were, and matching
counts, exactly when no last body was installed over a first one. -/
theorem initialise_composed_iff {symbols : List Symbol} {calls : List InitCall}
    {log : List Installed} (hd : DynamicImage src entries ctors)
    (hrun : (BinaryState.new src symbols).initialise calls = some (st, log))
    (h : st.commit strtab buildGnuHash stub = some file) :
    (∃ v, st.committedView buildGnuHash = some v ∧ Composed src entries ctors log file v)
      ↔ LastKeepsFirst ctors.length (calls.map InitCall.position) := by
  obtain ⟨hslots, hpositions, es, hr⟩ := refines_run hd.array (refines_new hd.array symbols) hrun
  rw [List.append_nil] at hr
  obtain ⟨_, hnodup⟩ := bodies_nodup hrun
  obtain ⟨v, hview, hcarries, hoffers⟩ := exists_committedView hd hr h
  have horder := InitOrder.runsInOrder_iff hslots hnodup
  rw [hpositions] at horder
  obtain ⟨targets, hinit, htrace⟩ := hoffers.runs
  rw [← horder]
  constructor
  · rintro ⟨v', hview', hcomposed⟩
    rw [hview, Option.some.injEq] at hview'
    subst hview'
    obtain ⟨targets', hinit', hruns⟩ := hcomposed.order
    rw [hinit] at hinit'
    rw [← slots_determine_targets hinit', htrace] at hruns
    exact hruns
  · intro hruns
    refine ⟨v, hview, ?_⟩
    constructor
    case carried => exact hcarries
    case order => exact ⟨targets, hinit, by rw [htrace]; exact hruns⟩
    case wrapped =>
      intro w hw
      obtain ⟨_, bytes, hbytes, hin⟩ := hr.wrappers w hw
      exact ⟨bytes, hbytes, commit_maps h (Or.inl hin)⟩
    case others =>
      obtain ⟨before, added, after, hrela, hadded, hkept⟩ := hoffers.others
      refine ⟨before, added, after, hrela, ?_, hkept⟩
      rw [hadded, InitOrder.installAll_appended]
      rfl
    case relacount => exact hoffers.relacount
    case relasz => exact hoffers.relasz

end Runs

/-! ## §11. A library with one slot. -/

/-- One relative entry, for the only slot. -/
def initEntries : List Rela := [⟨0x220, rAarch64Relative, 0x200⟩]

def initDynamic : List DynamicEntry :=
  [⟨dtRela, 0x208⟩, ⟨dtRelasz, 24⟩, ⟨dtRelacount, 1⟩, ⟨dtInitArray, 0x220⟩,
    ⟨dtInitArraysz, 8⟩, ⟨dtNull, 0⟩]

def relaSection : RawSection where
  name := ".rela.dyn"
  shType := 4
  shFlags := shfAlloc
  shAddr := 0x208
  shOffset := 0x208
  shSize := 24
  shLink := 0
  shInfo := 0
  shAddralign := 8
  shEntsize := 24
  kind := .other
  data := encodeRelas initEntries
  compressed := false
  dataLength := by decide
  bssNobits := by decide

def initArraySection : RawSection where
  name := ".init_array"
  shType := 14
  shFlags := shfAlloc + shfWrite
  shAddr := 0x220
  shOffset := 0x220
  shSize := 8
  shLink := 0
  shInfo := 0
  shAddralign := 8
  shEntsize := 8
  kind := .other
  data := leBytes 8 0x200
  compressed := false
  dataLength := by decide
  bssNobits := by decide

def dynamicSection : RawSection where
  name := ".dynamic"
  shType := 6
  shFlags := shfAlloc + shfWrite
  shAddr := 0x228
  shOffset := 0x228
  shSize := 96
  shLink := 0
  shInfo := 0
  shAddralign := 8
  shEntsize := 16
  kind := .other
  data := encodeDynamic true initDynamic
  compressed := false
  dataLength := by decide
  bssNobits := by decide

/-- A shared object with a single constructor. -/
def initLibrary : ElfFile where
  architecture := .aarch64
  kind := .sharedObject
  fileFlags := ⟨0, 0, 0⟩
  eEntry := 0
  is64 := true
  ePhoff := 64
  programHeaders :=
    [⟨ptPhdr, pfR, 64, 64, 64, 168, 168, 8⟩, ⟨ptLoad, pfR + pfX, 0, 0, 0, 0x288, 0x288, 0x1000⟩,
      ⟨ptDynamic, pfR, 0x228, 0x228, 0x228, 96, 96, 8⟩]
  sections := [textSection, relaSection, initArraySection, dynamicSection]

def initSource : Source := ⟨initLibrary, initDynamic, some initEntries, none, none, none, none⟩

def initSymbols : List Symbol := [⟨"init", 0x200, 4, true, false⟩]

theorem initSource_dynamicImage : DynamicImage initSource initEntries [0x200] where
  array :=
    { relaDyn := rfl
      size := rfl
      slots := by
        intro i c hc
        match i with
        | 0 =>
          cases hc
          decide
        | i + 1 => cases hc
      inside := by decide }
  inside := by decide
  padded := by
    unfold PaddedDynamic
    decide
  dynamic := ⟨_, 3, liftSection dynamicSection,
    ⟨ptLoad, pfR + pfX, 0, 0, 0, 0x288, 0x288, 0x1000⟩, rfl,
    ⟨rfl, by decide, by decide, by decide, by decide, by decide, by decide, by decide, by decide⟩,
    rfl⟩
  rela := ⟨0x208, 1, liftSection relaSection,
    ⟨ptLoad, pfR + pfX, 0, 0, 0, 0x288, 0x288, 0x1000⟩, rfl,
    ⟨rfl, by decide, by decide, by decide, by decide, by decide, by decide, by decide, by decide⟩,
    rfl⟩
  relasz := rfl
  relacount := by
    intro n hn
    cases hn
    decide
  arrayTags := Or.inr ⟨rfl, rfl⟩

/-- A body of one word. -/
def returnBody : Body where
  isEmpty := false
  sourceSize := 4
  emit := fun _ _ => some [0xc0, 0x03, 0x5f, 0xd6]
  emit_ne_nil := by
    intro _ _ _ bytes h
    cases h
    exact List.cons_ne_nil _ _

/-- A last body, and a first one on top of it. -/
theorem lastThenFirst_composed :
    ∃ st log file, (BinaryState.new initSource initSymbols).initialise
        [⟨"exit", returnBody, .last⟩, ⟨"entry", returnBody, .first⟩] = some (st, log)
      ∧ st.commit plainStrtab (fun _ _ _ => []) (fun _ _ _ => none) = some file
      ∧ ∃ v, st.committedView (fun _ _ _ => []) = some v
        ∧ Composed initSource initEntries [0x200] log file v := by
  have hrun : ((BinaryState.new initSource initSymbols).initialise
      [⟨"exit", returnBody, .last⟩, ⟨"entry", returnBody, .first⟩]).any (fun r =>
        (r.1.commit plainStrtab (fun _ _ _ => []) (fun _ _ _ => none)).isSome) = true := by
    decide +kernel
  rw [Option.any_eq_true] at hrun
  obtain ⟨⟨st, log⟩, hlog, hcommit⟩ := hrun
  obtain ⟨file, hfile⟩ := Option.isSome_iff_exists.mp hcommit
  refine ⟨st, log, file, hlog, hfile,
    (initialise_composed_iff initSource_dynamicImage hlog hfile).mpr ?_⟩
  intro before after hps hmem
  match before with
  | [] => cases hmem
  | [_] => cases hps
  | [_, _] => cases hps
  | _ :: _ :: _ :: _ => cases hps

/-- A first body, and a last one on top of it: the slot runs the last one first. -/
theorem firstThenLast_not_composed :
    ∃ st log file v, (BinaryState.new initSource initSymbols).initialise
        [⟨"entry", returnBody, .first⟩, ⟨"exit", returnBody, .last⟩] = some (st, log)
      ∧ bodies log = [(.first, 0x10000), (.last, 0x1002c)]
      ∧ st.commit plainStrtab (fun _ _ _ => []) (fun _ _ _ => none) = some file
      ∧ st.committedView (fun _ _ _ => []) = some v
      ∧ v.initSlots = [[0x10030]]
      ∧ expand (wrappers log) 0x10030 = [0x1002c, 0x10000, 0x200]
      ∧ ¬ Composed initSource initEntries [0x200] log file v := by
  have hrun : ((BinaryState.new initSource initSymbols).initialise
      [⟨"entry", returnBody, .first⟩, ⟨"exit", returnBody, .last⟩]).any (fun r =>
        decide (bodies r.2 = [(.first, 0x10000), (.last, 0x1002c)])
          && decide (expand (wrappers r.2) 0x10030 = [0x1002c, 0x10000, 0x200])
          && (r.1.commit plainStrtab (fun _ _ _ => []) (fun _ _ _ => none)).isSome
          && (r.1.committedView (fun _ _ _ => [])).any
            (fun v => decide (v.initSlots = [[0x10030]]))) = true := by
    decide +kernel
  rw [Option.any_eq_true] at hrun
  obtain ⟨⟨st, log⟩, hlog, hall⟩ := hrun
  simp only [Bool.and_eq_true, decide_eq_true_eq] at hall
  obtain ⟨⟨⟨hbodies, hexpand⟩, hcommit⟩, hview⟩ := hall
  rw [Option.any_eq_true] at hview
  obtain ⟨v, hv, hslots⟩ := hview
  rw [decide_eq_true_eq] at hslots
  obtain ⟨file, hfile⟩ := Option.isSome_iff_exists.mp hcommit
  refine ⟨st, log, file, v, hlog, hbodies, hfile, hv, hslots, hexpand, ?_⟩
  intro hcomposed
  obtain ⟨targets, hinit, hruns⟩ := hcomposed.order
  rw [hslots] at hinit
  have htargets : [0x10030] = targets := slots_determine_targets hinit
  rw [← htargets, List.flatMap_singleton, hexpand, hbodies] at hruns
  -- the body installed first would have to run first
  obtain ⟨rest, hrest⟩ := hruns.first
  have hfirst : bodiesAt .first [(.first, 0x10000), (.last, 0x1002c)] = [0x10000] := by decide
  rw [hfirst, List.reverse_singleton, List.singleton_append, List.cons.injEq] at hrest
  exact absurd hrest.1 (by decide)

end Armv8Encode.Elf

/-
  Armv8Encode.Rewrite.ElfEditor.CommitLayout — the loads of a committed file.

  A commit only appends to the code, and the one program header it edits is
  the `PT_DYNAMIC`.  So the loads of the committed file are laid out, and map
  what the calls added, exactly when the image's own loads are laid out and
  no call made the writable region reach an open code region.  The regions
  open at page-aligned addresses past each other, but the lower one keeps
  growing; and the writable load always comes first in the table.
-/
import Armv8Encode.Rewrite.ElfEditor.Commit
import Armv8Encode.Container.Elf.RoundTrip
import Armv8Encode.Rewrite.ElfEditor.Regions

namespace Armv8Encode.Elf

open Lib

/-! ## §1. A commit appends to the code. -/

theorem prefix_pack (segment payload : List Byte) (align : Nat) :
    segment <+: padTo segment align ++ payload :=
  (prefix_padTo segment align).trans (List.prefix_append _ _)

theorem packTables_prefix {buildGnuHash : List Byte → List Byte → Nat → List Byte} {src : Source}
    {segmentVaddr : Nat} {existing : List Byte} {exported : Bool} {t : DynamicTables}
    {dynstr : List Byte} {r : List Byte × List (Nat × Nat)}
    (h : packTables buildGnuHash src segmentVaddr existing exported t dynstr = some r) :
    existing <+: r.1 := by
  unfold packTables at h
  split at h
  · cases h
    exact prefix_pack _ _ _
  · split at h
    · cases h
    · split at h
      · cases h
      · cases h
        exact (((prefix_pack _ _ _).trans (prefix_pack _ _ _)).trans
          (prefix_pack _ _ _)).trans (prefix_pack _ _ _)

theorem extendSegmentForExports_prefix
    {buildGnuHash : List Byte → List Byte → Nat → List Byte} {src : Source} {segmentVaddr : Nat}
    {existing : List Byte} {exports : List ExportedSymbol} {deps : List String}
    {r : List Byte × List DynamicEntry}
    (h : extendSegmentForExports buildGnuHash src segmentVaddr existing exports deps = some r) :
    existing <+: r.1 := by
  unfold extendSegmentForExports at h
  split at h
  · split at h
    · cases h
    dsimp only at h
    split at h
    · cases h
    next packed hpacked =>
    split at h
    · cases h
    · cases h
      exact packTables_prefix hpacked
  · cases h

theorem extendSegmentForAppendedInitSlots_prefix {src : Source} {segmentVaddr : Nat}
    {existing : List Byte} {slots : List Nat} {relaOverride : Option (List Rela)}
    {dynamicOverride : Option (List DynamicEntry)} {r : List Byte × List DynamicEntry}
    (h : extendSegmentForAppendedInitSlots src segmentVaddr existing slots relaOverride
      dynamicOverride = some r) : existing <+: r.1 := by
  unfold extendSegmentForAppendedInitSlots at h
  split at h
  · cases h
  dsimp only at h
  split at h
  · cases h
  · cases h
    exact (prefix_pack _ _ _).trans (prefix_pack _ _ _)

theorem loads_patchPtDynamic {vaddr size : Nat} {phdrs patched : List ProgramHeader}
    (h : patchPtDynamic vaddr size phdrs = some patched) : loads patched = loads phdrs := by
  induction phdrs generalizing patched with
  | nil => cases h
  | cons p rest ih =>
    unfold patchPtDynamic at h
    split at h
    · next htype =>
      cases h
      have hne : (p.pType == ptLoad) = false := by
        rw [htype]
        rfl
      unfold loads
      rw [List.filter_cons_of_neg (by simp [hne]), List.filter_cons_of_neg (by simp [hne])]
    · rw [Option.map_eq_some_iff] at h
      obtain ⟨rest', hrest, rfl⟩ := h
      have ih' := ih hrest
      unfold loads at ih' ⊢
      rw [List.filter_cons, List.filter_cons, ih']

theorem finalizeDynamic_spec {src : Source} {segmentVaddr : Nat} {existing : List Byte}
    {dynamicOverride : Option (List DynamicEntry)} {f : Finalized}
    (h : finalizeDynamic src segmentVaddr existing dynamicOverride = some f) :
    existing <+: f.segment ∧ loads f.image.programHeaders = loads src.image.programHeaders := by
  unfold finalizeDynamic at h
  split at h
  · dsimp only at h
    split at h
    · cases h
      exact ⟨List.prefix_refl _, rfl⟩
    · rw [Option.map_eq_some_iff] at h
      obtain ⟨phdrs, hpatch, rfl⟩ := h
      exact ⟨prefix_pack _ _ _, loads_patchPtDynamic hpatch⟩
  · cases h
    exact ⟨List.prefix_refl _, rfl⟩

/-- What a commit appends it appends after the code; the loads it leaves alone. -/
theorem finalizeSegment_spec {buildGnuHash : List Byte → List Byte → Nat → List Byte}
    {st : BinaryState} {a : AppendedState} {f : Finalized}
    (h : st.finalizeSegment buildGnuHash a = some f) :
    st.committedCode a <+: f.segment
      ∧ loads f.image.programHeaders = loads st.source.image.programHeaders := by
  unfold BinaryState.finalizeSegment at h
  simp only [Option.bind_eq_bind, Option.bind_eq_some_iff] at h
  obtain ⟨exported, hexported, initialised, hinitialised, hfinal⟩ := h
  have hcode : st.committedCode a <+: exported.1 := by
    unfold BinaryState.exportedSegment at hexported
    split at hexported
    · cases hexported
      exact List.prefix_refl _
    · rw [Option.map_eq_some_iff] at hexported
      obtain ⟨r, hr, rfl⟩ := hexported
      exact extendSegmentForExports_prefix hr
  have hinit : exported.1 <+: initialised.1 := by
    unfold BinaryState.initialisedSegment at hinitialised
    split at hinitialised
    · cases hinitialised
      exact List.prefix_refl _
    · rw [Option.map_eq_some_iff] at hinitialised
      obtain ⟨r, hr, rfl⟩ := hinitialised
      exact extendSegmentForAppendedInitSlots_prefix hr
  obtain ⟨hcodeFirst, hloads⟩ := finalizeDynamic_spec hfinal
  exact ⟨(hcode.trans hinit).trans hcodeFirst, hloads⟩

theorem prefix_committedCode (st : BinaryState) (a : AppendedState) :
    a.bytes <+: st.committedCode a := by
  unfold BinaryState.committedCode padCode
  split
  · dsimp only
    rw [List.append_assoc]
    exact List.prefix_append _ _
  · exact List.prefix_refl _

/-! ## §2. The committed segment. -/

theorem committedSegment_vaddr (st : BinaryState) (a : AppendedState) (f : Finalized) :
    (st.committedSegment a f).vaddr = a.segmentVaddr := by
  unfold BinaryState.committedSegment
  dsimp only
  split
  · rfl
  · split <;> rfl

theorem committedSegment_bytes (st : BinaryState) (a : AppendedState) (f : Finalized) :
    (st.committedSegment a f).bytes = f.segment := by
  unfold BinaryState.committedSegment
  dsimp only
  split
  · rfl
  · split <;> rfl

/-- A split, where there is one, comes right after the code. -/
theorem committedSegment_split (st : BinaryState) (a : AppendedState) (f : Finalized) :
    computeCodeDataSplit (st.committedSegment a f) = 0
      ∨ computeCodeDataSplit (st.committedSegment a f) = (st.committedCode a).length := by
  have hcodeLen : (st.committedSegment a f).codeLen = 0
      ∨ (st.committedSegment a f).codeLen = (st.committedCode a).length := by
    unfold BinaryState.committedSegment
    dsimp only
    split
    · exact Or.inl rfl
    · split
      · exact Or.inr rfl
      · exact Or.inl rfl
  unfold computeCodeDataSplit
  obtain hzero | hlen := hcodeLen
  · exact Or.inl (if_pos (Or.inl hzero))
  · split
    · exact Or.inl rfl
    split
    · exact Or.inl rfl
    · exact Or.inr hlen

/-- The code lies in the first load of the segment. -/
theorem exists_codeLoad (image : Image) (st : BinaryState) (a : AppendedState) (f : Finalized)
    (writable : Option WritableSegment) (aoff : Nat)
    (hcodeFirst : st.committedCode a <+: f.segment) :
    ∃ l ∈ appendedLoads image (st.committedSegment a f) writable aoff,
      l.pVaddr = a.segmentVaddr ∧ l.pOffset = aoff
        ∧ (st.committedCode a).length ≤ l.pFilesz := by
  have hvaddr := committedSegment_vaddr st a f
  have hbytes := committedSegment_bytes st a f
  have hlen := hcodeFirst.length_le
  by_cases hsplit : computeCodeDataSplit (st.committedSegment a f) = 0
  · refine ⟨_, mem_appendedLoads.mpr (Or.inr rfl), ?_, ?_, ?_⟩
    · rw [lastLoad_pVaddr, hsplit, hvaddr]
      rfl
    · unfold lastLoad
      dsimp only
      rw [if_pos hsplit]
    · have hcover := le_phtFileOffset (st.committedSegment a f) aoff
      rw [hbytes] at hcover
      unfold lastLoad totalCover
      dsimp only
      rw [if_pos hsplit]
      dsimp only
      omega
  · refine ⟨_, mem_appendedLoads.mpr (Or.inl ⟨hsplit, rfl⟩), hvaddr, rfl, ?_⟩
    obtain hzero | hcode := committedSegment_split st a f
    · exact absurd hzero hsplit
    · rw [← hcode]
      exact Nat.le_refl _

/-! ## §3. What a committed file maps. -/

section Commit

variable {strtab : List String → List Byte}
  {buildGnuHash : List Byte → List Byte → Nat → List Byte}
  {stub : Section → Nat → Nat → Option (List Byte)} {st : BinaryState} {file : Writer}

theorem openedForCommit_base (hbased : Based st) {a : AppendedState}
    (h : st.openedForCommit = some a) : mappedEnd st.source.image ≤ a.segmentVaddr := by
  unfold BinaryState.openedForCommit at h
  split at h
  · next b hb =>
    cases h
    exact hbased.code a hb
  · split at h
    · cases h
      exact codeRegion_base hbased
    · cases h

/-- A code region opened by the commit lies past the writable one. -/
theorem below_openedForCommit {a : AppendedState} (h : st.openedForCommit = some a) :
    Below st ↔ ∀ w, st.appendedWritable = some w →
      w.segmentVaddr + w.bytes.length ≤ a.segmentVaddr := by
  unfold BinaryState.openedForCommit at h
  unfold Below
  split at h
  · next b hb =>
    cases h
    constructor
    · intro hbelow w hw
      exact hbelow a w hb hw
    · intro hbelow b w hb' hw
      rw [hb, Option.some.injEq] at hb'
      rw [← hb']
      exact hbelow w hw
  · next hnone =>
    split at h
    · cases h
      refine iff_of_true ?_ ?_
      · intro b w hb
        rw [hnone] at hb
        cases hb
      · intro w hw
        unfold BinaryState.codeRegion
        rw [hnone]
        exact (le_pickAppendVaddr st).2.2 w hw
    · cases h

theorem openedForCommit_none (h : st.openedForCommit = none) :
    st.appended = none ∧ st.appendedWritable = none := by
  unfold BinaryState.openedForCommit at h
  split at h
  · cases h
  · next hnone =>
    split at h
    · cases h
    · next hopen =>
      refine ⟨hnone, ?_⟩
      rw [Bool.or_eq_true, not_or] at hopen
      simpa using hopen.2

theorem mem_loads {phdrs : List ProgramHeader} {p : ProgramHeader} :
    p ∈ loads phdrs ↔ p ∈ phdrs ∧ p.pType = ptLoad := by
  unfold loads
  rw [List.mem_filter, beq_iff_eq]

/-- A committed file is laid out exactly when the image is and the regions are
in order. -/
theorem commit_laidOut_iff (hbased : Based st)
    (h : st.commit strtab buildGnuHash stub = some file) :
    LaidOut file.programHeaders ↔ LaidOut st.source.image.programHeaders ∧ Below st := by
  unfold BinaryState.commit at h
  split at h
  · next hopened =>
    obtain ⟨hcode, _⟩ := openedForCommit_none hopened
    have hbelow : Below st := by
      intro a w ha
      rw [hcode] at ha
      cases ha
    unfold Source.container at h
    rw [write_parse] at h
    rw [writeInPlace_programHeaders h, and_iff_left hbelow]
    rfl
  · next a hopened =>
    split at h
    · cases h
    next f hfinal =>
    obtain ⟨_, hloads⟩ := finalizeSegment_spec hfinal
    have hbase := openedForCommit_base hbased hopened
    have hpast : ∀ p ∈ f.image.programHeaders, p.pType = ptLoad →
        p.pVaddr + p.pMemsz ≤ mappedEnd st.source.image := by
      intro p hp htype
      have hmem := mem_loads.mpr ⟨hp, htype⟩
      rw [hloads] at hmem
      exact load_end_le_mappedEnd (mem_loads.mp hmem).1 htype
    obtain ⟨woff, _, hphdrs⟩ := (writeWithAppendedSegmentInner_file h).programHeaders
    rw [hphdrs, laidOut_emittedPhdrs_iff]
    · rw [below_openedForCommit hopened, committedSegment_vaddr]
      unfold LaidOut
      rw [hloads]
      refine and_congr_right fun _ => ?_
      unfold BinaryState.committedWritable
      cases st.appendedWritable <;> simp
    · intro p hp htype
      rw [committedSegment_vaddr]
      exact Nat.le_trans (hpast p hp htype) hbase
    · intro x hx p hp htype
      unfold BinaryState.committedWritable at hx
      rw [Option.map_eq_some_iff] at hx
      obtain ⟨w, hw, rfl⟩ := hx
      exact Nat.le_trans (hpast p hp htype) (hbased.writable w hw)

/-- Whatever stands in a region is mapped by the committed file. -/
theorem commit_maps (h : st.commit strtab buildGnuHash stub = some file) {p : Placed}
    (hp : InRegion st p) : Maps file p.address p.bytes := by
  unfold BinaryState.commit at h
  split at h
  · next hopened =>
    obtain ⟨hcode, hwritable⟩ := openedForCommit_none hopened
    obtain ⟨a, ha, _⟩ | ⟨w, hw, _⟩ := hp
    · rw [hcode] at ha
      cases ha
    · rw [hwritable] at hw
      cases hw
  · next a hopened =>
    split at h
    · cases h
    next f hfinal =>
    obtain ⟨hcodeFirst, _⟩ := finalizeSegment_spec hfinal
    have hfile := writeWithAppendedSegmentInner_file h
    obtain ⟨woff, hwoff, hphdrs⟩ := hfile.programHeaders
    have hmem : ∀ l ∈ newLoads f.image (st.committedSegment a f) st.committedWritable woff
        (appendedOffsets strtab st.source.container f.image (st.committedSegment a f)
          (st.overrides f) st.committedWritable).appended, l ∈ loads file.programHeaders := by
      intro l hl
      rw [hphdrs, loads_emittedPhdrs_eq]
      exact List.mem_append_right _ hl
    obtain ⟨b, hb, hstands⟩ | ⟨w, hw, hstands⟩ := hp
    · have hab : a = b := by
        unfold BinaryState.openedForCommit at hopened
        rw [hb] at hopened
        cases hopened
        rfl
      subst hab
      obtain ⟨more, hmore⟩ := hcodeFirst
      obtain ⟨l, hl, hvaddr, hoffset, hsize⟩ := exists_codeLoad f.image st a f
        st.committedWritable (appendedOffsets strtab st.source.container f.image
          (st.committedSegment a f) (st.overrides f) st.committedWritable).appended ⟨more, hmore⟩
      have hat := hfile.appendedAt
      rw [committedSegment_bytes, ← hmore] at hat
      refine maps_of_standsIn (hmem l (List.mem_append_right _ hl)) hat ?_ hoffset hsize
      rw [hvaddr]
      exact hstands.grow (prefix_committedCode st a)
    · have hx : st.committedWritable
          = some ⟨w.segmentVaddr, w.bytes, st.writableName, w.aligned⟩ := by
        unfold BinaryState.committedWritable
        rw [hw]
        rfl
      have hat := hfile.writableAt _ hx
      have hload : writableLoad ⟨w.segmentVaddr, w.bytes, st.writableName, w.aligned⟩ woff
          ∈ loads file.programHeaders := by
        apply hmem
        rw [newLoads, hx]
        simp
      rw [← List.append_nil w.bytes] at hat
      exact maps_of_standsIn hload hat hstands (hwoff _ hx) (Nat.le_refl _)

/-! ## §4. Runs. -/

/-- The loads of a file are pairwise disjoint, ascend, and map what was added. -/
def CommittedWell (file : Writer) (placed : List Placed) : Prop :=
  LaidOut file.programHeaders ∧ ∀ p ∈ placed, Maps file p.address p.bytes

/-- **The loads after any run of calls.**  They are pairwise disjoint, ascend,
and map what every call returned, exactly when the image's own loads are
disjoint and ascend and every call left the writable region below the code. -/
theorem committedWell_iff {src : Source} {symbols : List Symbol}
    {calls : List Call}
    (h : ((BinaryState.new src symbols).run calls).1.commit strtab buildGnuHash stub
      = some file) :
    CommittedWell file ((BinaryState.new src symbols).run calls).2
      ↔ LaidOut src.image.programHeaders ∧ RunFits (.new src symbols) calls := by
  obtain ⟨hsource, hbased, hbelow, _, hreturned⟩ :=
    run_regions (.new src symbols) calls
  have hmaps : ∀ p ∈ ((BinaryState.new src symbols).run calls).2,
      Maps file p.address p.bytes := fun p hp => commit_maps h (hreturned p hp)
  unfold CommittedWell
  rw [and_iff_left hmaps, commit_laidOut_iff (hbased (new_based src symbols)) h, hbelow, hsource,
    and_iff_right (new_below src symbols)]
  rfl

end Commit

/-! ## §5. Writable data before and after the code. -/

/-- The linked library, with nothing dynamic about it. -/
def plainSource : Source := ⟨linkedLibrary, [], none, none, none, none, none⟩

theorem plainSource_laidOut : LaidOut plainSource.image.programHeaders := by
  have hone : ∃ l, loads plainSource.image.programHeaders = [l] := ⟨_, rfl⟩
  obtain ⟨l, hl⟩ := hone
  unfold LaidOut
  rw [hl]
  exact List.pairwise_singleton _ _

/-- The writable region is opened first: everything fits. -/
theorem plainSource_committedWell :
    ∃ file, ((BinaryState.new plainSource []).run
        [.addWritableData "buffer" [1, 2, 3, 4] 8, .addData "table" [5, 6] 4]).1.commit
          plainStrtab (fun _ _ _ => []) (fun _ _ _ => none) = some file
      ∧ CommittedWell file ((BinaryState.new plainSource []).run
        [.addWritableData "buffer" [1, 2, 3, 4] 8, .addData "table" [5, 6] 4]).2 := by
  have hrun : (((BinaryState.new plainSource []).run
      [.addWritableData "buffer" [1, 2, 3, 4] 8, .addData "table" [5, 6] 4]).1.commit
        plainStrtab (fun _ _ _ => []) (fun _ _ _ => none)).isSome = true := by
    decide +kernel
  obtain ⟨file, hfile⟩ := Option.isSome_iff_exists.mp hrun
  refine ⟨file, hfile, (committedWell_iff hfile).mpr ⟨plainSource_laidOut, ?_, trivial, trivial⟩⟩
  rintro _ a ⟨⟩

/-- Data, writable data, and data at the next page: the code region grows over
the writable one, and both blobs are returned the same address. -/
def crossingCalls : List Call :=
  [.addData "table" [0, 0, 0, 0] 4, .addWritableData "buffer" [1, 2, 3, 4] 4,
    .addData "page" [5, 6, 7, 8] 0x10000]

def crossingRun : BinaryState × List Placed :=
  (BinaryState.new plainSource []).run crossingCalls

theorem crossingCalls_not_committedWell :
    ∃ file, crossingRun.1.commit plainStrtab (fun _ _ _ => []) (fun _ _ _ => none) = some file
      ∧ crossingRun.2 = [⟨0x10000, [0, 0, 0, 0]⟩, ⟨0x20000, [1, 2, 3, 4]⟩, ⟨0x20000, [5, 6, 7, 8]⟩]
      ∧ ¬ CommittedWell file crossingRun.2 := by
  have hopened : ∃ a f, crossingRun.1.openedForCommit = some a
      ∧ crossingRun.1.finalizeSegment (fun _ _ _ => []) a = some f
      ∧ f.image = plainSource.image ∧ crossingRun.1.overrides f = fun _ => none :=
    ⟨_, _, rfl, rfl, rfl, funext fun _ => rfl⟩
  obtain ⟨a, f, ha, hf, himage, hoverrides⟩ := hopened
  have hsome : (crossingRun.1.commit plainStrtab (fun _ _ _ => []) (fun _ _ _ => none)).isSome
      = true := by
    unfold BinaryState.commit
    rw [ha]
    dsimp only
    rw [hf]
    dsimp only
    rw [writeWithAppendedSegmentInner_isSome, himage, hoverrides]
    decide +kernel
  obtain ⟨file, hfile⟩ := Option.isSome_iff_exists.mp hsome
  have hregions := run_regions (.new plainSource []) crossingCalls
  refine ⟨file, hfile, by decide +kernel, ?_⟩
  rintro ⟨hlaidOut, _⟩
  have hbelow := ((commit_laidOut_iff (hregions.2.1 (new_based plainSource [])) hfile).mp
    hlaidOut).2
  have hle := hbelow _ _ rfl rfl
  exact absurd hle (by decide +kernel)

end Armv8Encode.Elf

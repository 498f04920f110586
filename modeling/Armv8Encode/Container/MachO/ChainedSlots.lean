/-
  Armv8Encode.Container.MachO.ChainedSlots — the slots of chained fixups in the file.

  The words of slots that do not meet all stand in the file once they were
  written.  And what a read returns are slots inside their segments, each with
  the target that its word names.
-/
import Armv8Encode.Container.MachO.ChainedRoundTrip

namespace Armv8Encode.MachO

open Lib

/-! ## §1. The slots in the file. -/

/-- Where a slot stands in the file. -/
def slotOffset (seg : MachOSegment) (f : Fixup) : Nat := seg.fileoff + (f.vaddr - seg.vmaddr)

theorem mem_chainWords {format : PointerFormat} {seg : MachOSegment} {fs : List Fixup}
    {words : List (Nat × List Byte)} (h : chainWords format seg fs = some words)
    {w : Nat × List Byte} (hw : w ∈ words) :
    w.2.length = 8 ∧ ∃ f ∈ fs, w.1 = slotOffset seg f := by
  induction fs generalizing words with
  | nil =>
    cases h
    cases hw
  | cons f rest ih =>
    obtain ⟨word, _, h⟩ := Option.bind_eq_some_iff.mp h
    obtain ⟨later, hlater, h⟩ := Option.bind_eq_some_iff.mp h
    cases h
    obtain rfl | hw := List.mem_cons.mp hw
    · exact ⟨leBytes_length _ _, f, List.mem_cons_self, rfl⟩
    · obtain ⟨hlen, g, hg, hoffset⟩ := ih hlater hw
      exact ⟨hlen, g, List.mem_cons_of_mem _ hg, hoffset⟩

/-- A chain has one word for each place. -/
theorem chainWords_unique {format : PointerFormat} {seg : MachOSegment} {fs : List Fixup}
    {words : List (Nat × List Byte)} (hsorted : fs.Pairwise fun f g => f.vaddr < g.vaddr)
    (hbase : ∀ f ∈ fs, seg.vmaddr ≤ f.vaddr) (h : chainWords format seg fs = some words)
    {w w' : Nat × List Byte} (hw : w ∈ words) (hw' : w' ∈ words) (heq : w.1 = w'.1) : w = w' := by
  induction fs generalizing words with
  | nil =>
    cases h
    cases hw
  | cons f rest ih =>
    obtain ⟨word, _, h⟩ := Option.bind_eq_some_iff.mp h
    obtain ⟨later, hlater, h⟩ := Option.bind_eq_some_iff.mp h
    cases h
    -- Every later word stands behind the first.
    have hbehind : ∀ v ∈ later, slotOffset seg f < v.1 := by
      intro v hv
      obtain ⟨_, g, hg, hoffset⟩ := mem_chainWords hlater hv
      have hlt := List.rel_of_pairwise_cons hsorted hg
      have hf := hbase f List.mem_cons_self
      rw [hoffset]
      unfold slotOffset
      omega
    obtain rfl | hin := List.mem_cons.mp hw
    · obtain rfl | hin' := List.mem_cons.mp hw'
      · rfl
      · have := hbehind w' hin'
        unfold slotOffset at this
        dsimp only at heq
        omega
    · obtain rfl | hin' := List.mem_cons.mp hw'
      · have := hbehind w hin
        unfold slotOffset at this
        dsimp only at heq
        omega
      · exact ih hsorted.tail (fun g hg => hbase g (List.mem_cons_of_mem _ hg)) hlater hin hin'

/-- The words of the segment's chain on a page. -/
theorem exists_chainWords {cf : ChainedFixups} {segments : List MachOSegment}
    {words : List (Nat × List Byte)} (h : cf.slotBytes segments = some words) {sf : SegmentFixups}
    (hsf : sf ∈ cf.segments) {seg : MachOSegment} (hseg : segments[sf.segmentIndex]? = some seg)
    {page : Nat} (hpage : page ∈ sf.pages seg) :
    ∃ chain, chainWords cf.pointerFormat seg (sf.onPage seg page) = some chain
      ∧ ∀ w ∈ chain, w ∈ words := by
  obtain ⟨groups, hgroups, h⟩ := Option.bind_eq_some_iff.mp h
  cases h
  obtain ⟨group, hgroup, hone⟩ := exists_mem_of_mapM hgroups hsf
  rw [hseg, Option.bind_eq_bind, Option.bind_some] at hone
  obtain ⟨_, hone⟩ := Option.ite_none_left_eq_some.mp hone
  obtain ⟨pages, hpages, hone⟩ := Option.bind_eq_some_iff.mp hone
  cases hone
  obtain ⟨chain, hchain, hwords⟩ := exists_mem_of_mapM hpages hpage
  exact ⟨chain, hwords, fun w hw =>
    List.mem_flatten.mpr ⟨_, hgroup, List.mem_flatten.mpr ⟨chain, hchain, hw⟩⟩⟩

theorem exists_chain_of_mem {cf : ChainedFixups} {segments : List MachOSegment}
    {words : List (Nat × List Byte)} (h : cf.slotBytes segments = some words)
    {w : Nat × List Byte} (hw : w ∈ words) :
    ∃ sf ∈ cf.segments, ∃ seg, segments[sf.segmentIndex]? = some seg
      ∧ ∃ page chain, chainWords cf.pointerFormat seg (sf.onPage seg page) = some chain
        ∧ w ∈ chain := by
  obtain ⟨groups, hgroups, h⟩ := Option.bind_eq_some_iff.mp h
  cases h
  obtain ⟨group, hgroup, hw⟩ := List.mem_flatten.mp hw
  obtain ⟨sf, hsf, hone⟩ := exists_of_mem_mapM hgroups hgroup
  obtain ⟨seg, hseg, hone⟩ := Option.bind_eq_some_iff.mp hone
  obtain ⟨_, hone⟩ := Option.ite_none_left_eq_some.mp hone
  obtain ⟨pages, hpages, hone⟩ := Option.bind_eq_some_iff.mp hone
  cases hone
  obtain ⟨chain, hchain, hw⟩ := List.mem_flatten.mp hw
  obtain ⟨page, _, hwords⟩ := exists_of_mem_mapM hpages hchain
  exact ⟨sf, hsf, seg, hseg, page, chain, hwords, hw⟩

/-- A page with slots has a size, or there are no words. -/
theorem pageSize_pos_of_slotBytes {cf : ChainedFixups} {segments : List MachOSegment}
    {words : List (Nat × List Byte)} (h : cf.slotBytes segments = some words) {sf : SegmentFixups}
    (hsf : sf ∈ cf.segments) (hne : sf.fixups ≠ []) : 0 < sf.pageSize := by
  obtain ⟨groups, hgroups, _⟩ := Option.bind_eq_some_iff.mp h
  obtain ⟨group, _, hone⟩ := exists_mem_of_mapM hgroups hsf
  obtain ⟨seg, _, hone⟩ := Option.bind_eq_some_iff.mp hone
  obtain ⟨hpage, _⟩ := Option.ite_none_left_eq_some.mp hone
  refine Nat.pos_of_ne_zero fun hzero => hpage ⟨hzero, hne⟩

/-- Slots of an image that do not meet. -/
def ChainedFixups.SlotsApart (cf : ChainedFixups) (segments : List MachOSegment) : Prop :=
  ∀ sf ∈ cf.segments, ∀ sf' ∈ cf.segments, ∀ seg seg', segments[sf.segmentIndex]? = some seg →
    segments[sf'.segmentIndex]? = some seg' → ∀ f ∈ sf.fixups, ∀ f' ∈ sf'.fixups,
      (sf = sf' ∧ f = f') ∨ Apart 8 (slotOffset seg f) (slotOffset seg' f')

/-- Slots of an image that do not meet, but for those a segment lists for one address. -/
def ChainedFixups.SlotsSeparate (cf : ChainedFixups) (segments : List MachOSegment) : Prop :=
  ∀ sf ∈ cf.segments, ∀ sf' ∈ cf.segments, ∀ seg seg', segments[sf.segmentIndex]? = some seg →
    segments[sf'.segmentIndex]? = some seg' → ∀ f ∈ sf.fixups, ∀ f' ∈ sf'.fixups,
      (sf = sf' ∧ f.vaddr = f'.vaddr) ∨ Apart 8 (slotOffset seg f) (slotOffset seg' f')

theorem ChainedFixups.SlotsApart.separate {cf : ChainedFixups} {segments : List MachOSegment}
    (h : cf.SlotsApart segments) : cf.SlotsSeparate segments := by
  intro sf hsf sf' hsf' seg seg' hseg hseg' f hf f' hf'
  obtain ⟨hsame, rfl⟩ | hfar := h sf hsf sf' hsf' seg seg' hseg hseg' f hf f' hf'
  · exact .inl ⟨hsame, rfl⟩
  · exact .inr hfar

/-- **Every word that was written stands in the file.** -/
theorem staged_of_patchAll {cf : ChainedFixups} {segments : List MachOSegment}
    {words : List (Nat × List Byte)} {bytes out : List Byte}
    (hwords : cf.slotBytes segments = some words) (hpatch : patchAll bytes words = some out)
    (hapart : cf.SlotsSeparate segments)
    (hbase : ∀ sf ∈ cf.segments, ∀ seg, segments[sf.segmentIndex]? = some seg →
      ∀ f ∈ sf.fixups, seg.vmaddr ≤ f.vaddr)
    {sf : SegmentFixups} (hsf : sf ∈ cf.segments) {seg : MachOSegment}
    (hseg : segments[sf.segmentIndex]? = some seg) : sf.Staged cf.pointerFormat seg out := by
  have hlen : ∀ w ∈ words, w.2.length = 8 := by
    intro w hw
    obtain ⟨_, _, _, _, _, _, hchain, hw⟩ := exists_chain_of_mem hwords hw
    exact (mem_chainWords hchain hw).1
  have hpairs : ∀ w ∈ words, ∀ w' ∈ words, w = w' ∨ Apart 8 w.1 w'.1 := by
    intro w hw w' hw'
    obtain ⟨s, hs, t, ht, page, chain, hchain, hw⟩ := exists_chain_of_mem hwords hw
    obtain ⟨s', hs', t', ht', page', chain', hchain', hw'⟩ := exists_chain_of_mem hwords hw'
    obtain ⟨_, f, hf, hoffset⟩ := mem_chainWords hchain hw
    obtain ⟨_, f', hf', hoffset'⟩ := mem_chainWords hchain' hw'
    obtain ⟨hslot, hpage⟩ := SegmentFixups.mem_onPage.mp hf
    obtain ⟨hslot', hpage'⟩ := SegmentFixups.mem_onPage.mp hf'
    obtain ⟨rfl, hsame⟩ | hfar := hapart s hs s' hs' t t' ht ht' f
      (SegmentFixups.mem_fixups_of_mem_slots hslot) f'
      (SegmentFixups.mem_fixups_of_mem_slots hslot')
    · left
      cases ht.symm.trans ht'
      have hpages : s.pageOf t f = s.pageOf t f' := by
        unfold SegmentFixups.pageOf
        rw [hsame]
      rw [← hpage', ← hpages, hpage] at hchain'
      cases hchain.symm.trans hchain'
      have hplace : slotOffset t f = slotOffset t f' := by
        unfold slotOffset
        rw [hsame]
      refine chainWords_unique (s.slots_sorted.filter _) ?_ hchain hw hw'
        (hoffset.trans (hplace.trans hoffset'.symm))
      intro g hg
      exact hbase s hs t ht g
        (SegmentFixups.mem_fixups_of_mem_slots (SegmentFixups.mem_onPage.mp hg).1)
    · right
      rw [hoffset, hoffset']
      exact hfar
  intro page hpage
  obtain ⟨chain, hchain, hin⟩ := exists_chainWords hwords hsf hseg hpage
  exact ⟨chain, hchain, fun w hw => readLe_patchAll hpatch hlen hpairs (hin w hw)⟩

/-! ## §2. What a read gives. -/

/-- A slot as its segment's bytes have it. -/
structure SlotRead (bytes : List Byte) (seg : MachOSegment) (format : PointerFormat)
    (importsCount : Nat) (f : Fixup) : Prop where
  base : seg.vmaddr ≤ f.vaddr
  inside : f.vaddr - seg.vmaddr + 8 ≤ seg.filesize
  word : ∃ raw next, readLe 8 bytes (slotOffset seg f) = some raw
    ∧ decodeOne raw format importsCount seg.vmaddr = some (f.target, next)

theorem walkChain_read {bytes : List Byte} {seg : MachOSegment} {format : PointerFormat}
    {importsCount fuel offset : Nat} {fs : List Fixup}
    (h : walkChain bytes seg format importsCount fuel offset = some fs) {f : Fixup} (hf : f ∈ fs) :
    SlotRead bytes seg format importsCount f := by
  induction fuel generalizing offset fs with
  | zero =>
    cases h
    cases hf
  | succ fuel ih =>
    unfold walkChain at h
    split at h
    · cases h
      cases hf
    · next hfit =>
      cases hraw : readLe 8 bytes (seg.fileoff + offset) with
      | none =>
        rw [hraw] at h
        cases h
        cases hf
      | some raw =>
        rw [hraw] at h
        obtain ⟨⟨target, next⟩, hdecode, h⟩ := Option.bind_eq_some_iff.mp h
        have hhead : SlotRead bytes seg format importsCount ⟨seg.vmaddr + offset, target⟩ := by
          refine ⟨Nat.le_add_right _ _, ?_, raw, next, ?_, hdecode⟩
          · show seg.vmaddr + offset - seg.vmaddr + 8 ≤ _
            omega
          · unfold slotOffset
            rw [Nat.add_sub_cancel_left]
            exact hraw
        dsimp only at h
        split at h
        · cases h
          obtain rfl := List.mem_singleton.mp hf
          exact hhead
        · obtain ⟨rest, hrest, h⟩ := Option.bind_eq_some_iff.mp h
          cases h
          obtain rfl | hf := List.mem_cons.mp hf
          · exact hhead
          · exact ih hrest hf

theorem walkOneSegment_read {bytes : List Byte} {seg : MachOSegment} {importsCount : Nat}
    {starts : SegmentStarts} {fs : List Fixup}
    (h : walkOneSegment bytes seg importsCount starts = some fs) {f : Fixup} (hf : f ∈ fs) :
    SlotRead bytes seg starts.format importsCount f := by
  obtain ⟨pages, hpages, h⟩ := Option.bind_eq_some_iff.mp h
  cases h
  obtain ⟨page, hpage, hf⟩ := List.mem_flatten.mp (mem_sortByVaddr.mp hf)
  obtain ⟨start, _, hstart⟩ := exists_of_mem_mapM hpages hpage
  split at hstart
  · cases hstart
    cases hf
  · exact walkChain_read hstart hf

/-- The slots of a segment as its bytes have them. -/
def SegmentRead (bytes : List Byte) (segments : List MachOSegment) (format : PointerFormat)
    (importsCount : Nat) (sf : SegmentFixups) : Prop :=
  sf.pageSize < 2 ^ 16 ∧ ∃ seg, segments[sf.segmentIndex]? = some seg
    ∧ ∀ f ∈ sf.fixups, SlotRead bytes seg format importsCount f

/-- What a successful read has found. -/
structure ChainedFixups.WasRead (cf : ChainedFixups) (blob : FixupsBlob) (bytes : List Byte)
    (segments : List MachOSegment) : Prop where
  imports : decodeImports blob.imports = some cf.imports
  original : cf.originalImports = blob.imports
  nonempty : cf.segments ≠ []
  ordered : cf.segments.Pairwise fun s t => s.segmentIndex < t.segmentIndex
  segment : ∀ sf ∈ cf.segments,
    SegmentRead bytes segments cf.pointerFormat cf.imports.length sf

theorem startedSegments_ordered (starts : List (Option SegmentStarts)) :
    (startedSegments starts).Pairwise fun s t => s.2 < t.2 := by
  unfold startedSegments
  rw [List.pairwise_filterMap]
  have hindices : starts.zipIdx.Pairwise fun s t => s.2 < t.2 := by
    have hrange : (starts.zipIdx.map Prod.snd).Pairwise (· < ·) := by
      rw [List.zipIdx_map_snd]
      exact List.pairwise_lt_range' 1 Nat.one_pos
    exact List.pairwise_map.mp hrange
  refine hindices.imp fun {s t} hlt u hu v hv => ?_
  obtain ⟨_, _, rfl⟩ := Option.map_eq_some_iff.mp hu
  obtain ⟨_, _, rfl⟩ := Option.map_eq_some_iff.mp hv
  exact hlt

theorem ChainedFixups.wasRead {cf : ChainedFixups} {blob : FixupsBlob} {bytes : List Byte}
    {segments : List MachOSegment} (h : ChainedFixups.read blob bytes segments = some cf) :
    cf.WasRead blob bytes segments := by
  obtain ⟨imports, himports, h⟩ := Option.bind_eq_some_iff.mp h
  have hordered := startedSegments_ordered blob.starts
  cases hstarted : startedSegments blob.starts with
  | nil =>
    rw [hstarted] at h
    cases h
  | cons first rest =>
    rw [hstarted] at h hordered
    dsimp only at h
    obtain ⟨hformats, h⟩ := Option.ite_none_left_eq_some.mp h
    obtain ⟨walked, hwalked, h⟩ := Option.bind_eq_some_iff.mp h
    cases h
    have hall := mapM_eq_some_iff.mp hwalked
    have hindices : (first :: rest).map Prod.snd = walked.map SegmentFixups.segmentIndex := by
      refine map_eq_map_of_forall₂ (hall.imp fun s sf hs => ?_)
      obtain ⟨_, _, hs⟩ := Option.bind_eq_some_iff.mp hs
      obtain ⟨_, _, hs⟩ := Option.bind_eq_some_iff.mp hs
      cases hs
      rfl
    have hformat : ∀ s ∈ first :: rest, s.1.format = first.1.format := by
      intro s hs
      obtain rfl | hs := List.mem_cons.mp hs
      · rfl
      · rw [List.any_eq_true] at hformats
        by_contra hne
        exact hformats ⟨s, hs, by simpa using hne⟩
    refine ⟨himports, rfl, ?_, ?_, ?_⟩
    · intro hnil
      have : walked = [] := hnil
      rw [this] at hall
      cases hall
    · show walked.Pairwise _
      rw [← List.pairwise_map (f := SegmentFixups.segmentIndex) (R := (· < ·)), ← hindices,
        List.pairwise_map]
      exact hordered
    · intro sf hsf
      obtain ⟨s, hs, hone⟩ := exists_of_mem_mapM hwalked hsf
      obtain ⟨seg, hseg, hone⟩ := Option.bind_eq_some_iff.mp hone
      obtain ⟨fixups, hfixups, hone⟩ := Option.bind_eq_some_iff.mp hone
      cases hone
      refine ⟨s.1.pageSize.isLt, seg, hseg, fun f hf => ?_⟩
      rw [← hformat s hs]
      exact walkOneSegment_read hfixups hf

end Armv8Encode.MachO

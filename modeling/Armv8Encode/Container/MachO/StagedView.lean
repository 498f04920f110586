/-
  Armv8Encode.Container.MachO.StagedView — staged fixups, walked and compared with the map.

  A write puts the page starts into the blob and the chains into the segments.
  Both sort the slots and keep the first of those with one address; the map of
  the view goes through the same list and keeps the last.  So the walk of what
  was written finds what the map says if these two point to the same.

  `find?_slots`: the slot that is kept for an address.
  `walkStarts_serialize`: what the walk of a segment finds.
  `reproduces_iff`: when that is the map's view.
-/
import Armv8Encode.Container.MachO.SlotWords
import Armv8Encode.Container.MachO.StartsBlob

namespace Armv8Encode.MachO

open Lib

/-! ## §1. The slot of an address. -/

/-- Sorting keeps the order of what has one address. -/
theorem filter_sortByVaddr (vaddr : Nat) (fixups : List Fixup) :
    (sortByVaddr fixups).filter (fun f => f.vaddr == vaddr)
      = fixups.filter fun f => f.vaddr == vaddr := by
  have : Std.Total fun f g : Fixup => f.vaddr ≤ g.vaddr := ⟨fun f g => Nat.le_total _ _⟩
  have : IsTrans Fixup fun f g => f.vaddr ≤ g.vaddr := ⟨fun _ _ _ => Nat.le_trans⟩
  have hequal : (fixups.filter fun f => f.vaddr == vaddr).Pairwise fun f g => f.vaddr ≤ g.vaddr := by
    refine List.pairwise_of_forall_mem_list fun f hf g hg => ?_
    have hf' := (List.mem_filter.mp hf).2
    have hg' := (List.mem_filter.mp hg).2
    simp only [beq_iff_eq] at hf' hg'
    rw [hf', hg']
  have hsub : (fixups.filter fun f => f.vaddr == vaddr).Sublist (sortByVaddr fixups) :=
    List.sublist_insertionSort hequal List.filter_sublist
  have hkept := hsub.filter fun f => f.vaddr == vaddr
  rw [List.filter_filter] at hkept
  simp only [Bool.and_self] at hkept
  refine (hkept.eq_of_length ?_).symm
  exact (((List.perm_insertionSort _ fixups).filter _).length_eq).symm

theorem find?_sortByVaddr (vaddr : Nat) (fixups : List Fixup) :
    (sortByVaddr fixups).find? (fun f => f.vaddr == vaddr)
      = fixups.find? fun f => f.vaddr == vaddr := by
  rw [← List.head?_filter, ← List.head?_filter, filter_sortByVaddr]

theorem find?_dedupFrom {vaddr kept : Nat} (hne : kept ≠ vaddr) (fixups : List Fixup) :
    (dedupFrom kept fixups).find? (fun f => f.vaddr == vaddr)
      = fixups.find? fun f => f.vaddr == vaddr := by
  induction fixups generalizing kept with
  | nil => rfl
  | cons f rest ih =>
    unfold dedupFrom
    by_cases hsame : f.vaddr = kept
    · rw [if_pos hsame, ih hne, List.find?_cons_of_neg]
      simp only [beq_iff_eq]
      omega
    · rw [if_neg hsame]
      by_cases hfound : f.vaddr = vaddr
      · rw [List.find?_cons_of_pos (by simpa using hfound),
          List.find?_cons_of_pos (by simpa using hfound)]
      · rw [List.find?_cons_of_neg (by simpa using hfound),
          List.find?_cons_of_neg (by simpa using hfound), ih hfound]

namespace SegmentFixups

/-- **The first fixup of an address is its slot.** -/
theorem find?_slots (sf : SegmentFixups) (vaddr : Nat) :
    sf.slots.find? (fun f => f.vaddr == vaddr) = sf.fixups.find? fun f => f.vaddr == vaddr := by
  rw [← find?_sortByVaddr vaddr sf.fixups]
  unfold slots
  cases sortByVaddr sf.fixups with
  | nil => rfl
  | cons f rest =>
    unfold dedupByVaddr
    by_cases hfound : f.vaddr = vaddr
    · rw [List.find?_cons_of_pos (by simpa using hfound),
        List.find?_cons_of_pos (by simpa using hfound)]
    · rw [List.find?_cons_of_neg (by simpa using hfound),
        List.find?_cons_of_neg (by simpa using hfound), find?_dedupFrom hfound]

theorem find?_slots_of_mem {sf : SegmentFixups} {f : Fixup} (h : f ∈ sf.slots) :
    sf.slots.find? (fun g => g.vaddr == f.vaddr) = some f := by
  obtain ⟨g, hg⟩ : ∃ g, sf.slots.find? (fun g => g.vaddr == f.vaddr) = some g := by
    rw [← Option.isSome_iff_exists, List.find?_isSome]
    exact ⟨f, h, beq_self_eq_true _⟩
  have haddr : g.vaddr = f.vaddr := by simpa using List.find?_some hg
  -- Two slots do not have one address.
  obtain ⟨i, hi⟩ := List.mem_iff_getElem?.mp h
  obtain ⟨j, hj⟩ := List.mem_iff_getElem?.mp (List.mem_of_find?_eq_some hg)
  have hsorted := List.pairwise_iff_getElem.mp sf.slots_sorted
  obtain ⟨hi', rfl⟩ := List.getElem?_eq_some_iff.mp hi
  obtain ⟨hj', rfl⟩ := List.getElem?_eq_some_iff.mp hj
  obtain hlt | rfl | hlt := Nat.lt_trichotomy i j
  · have := hsorted i j hi' hj' hlt
    omega
  · exact hg
  · have := hsorted j i hj' hi' hlt
    omega

theorem mem_slots_iff {sf : SegmentFixups} {f : Fixup} :
    f ∈ sf.slots ↔ sf.fixups.find? (fun g => g.vaddr == f.vaddr) = some f := by
  rw [← find?_slots]
  exact ⟨find?_slots_of_mem, List.mem_of_find?_eq_some⟩

end SegmentFixups

/-! ## §2. The map of a view. -/

/-- What a slot points to, without the index of its import. -/
inductive ResolvedTarget where
  | rebase (targetVaddr : Nat)
  | bind (dylibOrdinal : Int) (symbolName : String) (addend : Int)
  deriving Repr, DecidableEq

def FixupTarget.resolved (imports : List ChainedImport) : FixupTarget → Option ResolvedTarget
  | .rebase targetVaddr => some (.rebase targetVaddr)
  | .bind importIndex addend => imports[importIndex]?.map fun imp =>
    .bind imp.libOrdinal imp.symbol (addend + imp.addend)

namespace EditableFixups

def allFixups (e : EditableFixups) : List Fixup := e.segments.flatMap SegmentFixups.fixups

/-- The last fixup of an address, with what it points to. -/
def toMap (e : EditableFixups) (vaddr : Nat) : Option ResolvedTarget :=
  (e.allFixups.reverse.find? fun f => f.vaddr == vaddr).bind fun f => f.target.resolved e.imports

/-- The bytes of an image with the words of all slots in them. -/
def encodeIntoSegments (e : EditableFixups) (bytes : List Byte) (segments : List MachOSegment) :
    Option (List Byte) := do
  let words ← e.view.slotBytes segments
  patchAll bytes words

/-- The fixups that a walk finds in a segment, from the starts of a blob on. -/
def walkStarts (blob bytes : List Byte) (segments : List MachOSegment) (importsCount i : Nat) :
    Option (List Fixup) := do
  let header ← readHeader blob
  let starts ← readStartsInImage blob header.startsOffset
  let seg ← segments[i]?
  match starts[i]?.join with
  | none => some []
  | some found => walkOneSegment bytes seg importsCount found

/-- Every segment has, for each address that is listed for it, one fixup, the one of the map. -/
def Reproduces (e : EditableFixups) (segments : List MachOSegment) (blob bytes : List Byte) :
    Prop :=
  ∀ i < segments.length, ∃ walked,
    walkStarts blob bytes segments e.imports.length i = some walked
      ∧ (walked.map Fixup.vaddr).Nodup
      ∧ (∀ vaddr, vaddr ∈ walked.map Fixup.vaddr
        ↔ ∃ sf ∈ e.segments, sf.segmentIndex = i ∧ vaddr ∈ sf.fixups.map Fixup.vaddr)
      ∧ ∀ f ∈ walked, f.target.resolved e.imports = e.toMap f.vaddr

/-! ## §3. What a walk finds. -/

/-- What was listed last for a segment. -/
def lastListed (e : EditableFixups) (i : Nat) : Option SegmentFixups :=
  e.segments.reverse.find? fun sf => sf.segmentIndex == i

/-- The starts that the new blob has for a segment. -/
def newStarts (e : EditableFixups) (segments : List MachOSegment) (i : Nat) :
    Option SegmentStarts := do
  let sf ← e.lastListed i
  let seg ← segments[i]?
  buildStartsInSegment e.pointerFormat sf seg

theorem lastListed_spec {e : EditableFixups} {i : Nat} {sf : SegmentFixups}
    (h : e.lastListed i = some sf) : sf ∈ e.segments ∧ sf.segmentIndex = i := by
  refine ⟨List.mem_reverse.mp (List.mem_of_find?_eq_some h), ?_⟩
  simpa using List.find?_some h

theorem payloads_readAs {e : EditableFixups} {segments : List MachOSegment}
    {payloads : List (Option (List Byte))} (hsizes : ∀ sf ∈ e.segments, sf.pageSize < 2 ^ 16)
    (h : e.payloads segments = some payloads) :
    List.Forall₂ (Option.Rel ReadsAs) payloads
      ((List.range segments.length).map (e.newStarts segments)) := by
  obtain ⟨built, hbuilt, h⟩ := Option.bind_eq_some_iff.mp h
  cases h
  have hpairs := (List.forall₂_and_left _ _).mpr
    ⟨fun sf hsf => hsizes sf hsf, mapM_eq_some_iff.mp hbuilt⟩
  have hall : List.Forall₂ (fun (sf : SegmentFixups) (s : Nat × List Byte) =>
      s.1 = sf.segmentIndex ∧ ∃ seg starts, segments[sf.segmentIndex]? = some seg
        ∧ buildStartsInSegment e.pointerFormat sf seg = some starts ∧ ReadsAs s.2 starts)
      e.segments built := by
    refine hpairs.imp fun sf s hs => ?_
    obtain ⟨hsize, hs⟩ := hs
    obtain ⟨seg, hseg, hs⟩ := Option.bind_eq_some_iff.mp hs
    obtain ⟨_, hs⟩ := Option.ite_none_right_eq_some.mp hs
    obtain ⟨payload, hpayload, hs⟩ := Option.bind_eq_some_iff.mp hs
    cases hs
    obtain ⟨starts, hstarts, hreads⟩ := readsAs_startsPayload hsize hpayload
    exact ⟨rfl, seg, starts, hseg, hstarts, hreads⟩
  rw [List.forall₂_map_left_iff, List.forall₂_map_right_iff, List.forall₂_same]
  intro i _
  have hfound := find?_of_forall₂ (p := fun sf => sf.segmentIndex == i) (q := fun s => s.1 == i)
    (List.rel_reverse hall) fun sf s hs => by rw [hs.1]
  unfold newStarts lastListed
  cases hlast : e.segments.reverse.find? fun sf => sf.segmentIndex == i with
  | none =>
    rw [hlast] at hfound
    cases hfind : built.reverse.find? fun s => s.1 == i with
    | none => exact .none
    | some s =>
      rw [hfind] at hfound
      cases hfound
  | some sf =>
    rw [hlast] at hfound
    cases hfind : built.reverse.find? fun s => s.1 == i with
    | none =>
      rw [hfind] at hfound
      cases hfound
    | some s =>
      rw [hfind] at hfound
      cases hfound with
      | some hs =>
        obtain ⟨_, seg, starts, hseg, hstarts, hreads⟩ := hs
        have hindex : sf.segmentIndex = i := (lastListed_spec hlast).2
        rw [hindex] at hseg
        rw [Option.bind_eq_bind, Option.bind_some, hseg, Option.bind_eq_bind, Option.bind_some,
          hstarts]
        exact .some hreads

/-- What an accepted write has to do with, if the words can hold the targets. -/
structure Staging (e : EditableFixups) (segments : List MachOSegment) (bytes out bytes' : List Byte) :
    Prop where
  serialize : e.serialize segments = some out
  small : out.length < 2 ^ 32
  encode : e.encodeIntoSegments bytes segments = some bytes'
  pageSize : ∀ sf ∈ e.segments, 0 < sf.pageSize ∧ sf.pageSize < 2 ^ 16
  inside : ∀ sf ∈ e.segments, ∀ seg, segments[sf.segmentIndex]? = some seg →
    ∀ f ∈ sf.fixups, f.vaddr - seg.vmaddr + 8 ≤ seg.filesize
  held : ∀ sf ∈ e.segments, ∀ seg, segments[sf.segmentIndex]? = some seg →
    ∀ f ∈ sf.fixups, f.target.Representable e.pointerFormat seg.vmaddr

section Staging

variable {e : EditableFixups} {segments : List MachOSegment} {bytes out bytes' : List Byte}

theorem Staging.accepted (h : e.Staging segments bytes out bytes') {sf : SegmentFixups}
    (hsf : sf ∈ e.segments) {seg : MachOSegment} (hseg : segments[sf.segmentIndex]? = some seg) :
    e.Accepted seg sf := by
  obtain ⟨seg', hseg', haccepted⟩ := accepted_of_serialize h.serialize hsf
  rwa [Option.some.inj (hseg.symm.trans hseg')]

/-- The slots of a page that are read are the ones that were written. -/
theorem Staging.walk (h : e.Staging segments bytes out bytes')
    (hseparate : e.view.SlotsSeparate segments) {sf : SegmentFixups}
    (hsf : sf ∈ e.segments) {seg : MachOSegment} (hseg : segments[sf.segmentIndex]? = some seg)
    {starts : SegmentStarts} (hstarts : buildStartsInSegment e.pointerFormat sf seg = some starts) :
    walkOneSegment bytes' seg e.imports.length starts = some (sf.reached seg) := by
  have haccepted := h.accepted hsf hseg
  have hwritable : sf.Writable e.pointerFormat seg :=
    { fits := fun f hf => (h.held sf hsf seg hseg f hf).1
      inside := fun f hf => ⟨(haccepted.inside f hf).1, h.inside sf hsf seg hseg f hf⟩
      aligned := haccepted.aligned
      paged := fun _ => h.pageSize sf hsf }
  obtain ⟨words, hwords, hpatch⟩ := Option.bind_eq_some_iff.mp h.encode
  have hstaged : sf.Staged e.pointerFormat seg bytes' := by
    refine staged_of_patchAll hwords hpatch hseparate ?_ hsf hseg
    intro sf' hsf' seg' hseg' f hf
    exact ((h.accepted hsf' hseg').inside f hf).1
  rw [walkOneSegment_starts hwritable hstarts hstaged]
  have hself : ∀ f ∈ sf.reached seg,
      f.stored e.pointerFormat seg.vmaddr e.imports.length = some f := by
    intro f hf
    have hfixup : f ∈ sf.fixups :=
      SegmentFixups.mem_fixups_of_mem_slots (List.mem_filter.mp hf).1
    have hheld := h.held sf hsf seg hseg f hfixup
    unfold Fixup.stored
    obtain ⟨vaddr, target⟩ := f
    cases target with
    | rebase t =>
      show some (Fixup.mk vaddr (.rebase (e.pointerFormat.storedTarget seg.vmaddr t))) = _
      rw [PointerFormat.storedTarget_eq_iff.mpr (hheld.2 t rfl)]
    | bind i a =>
      show (if e.imports.length ≤ i then none else some (FixupTarget.bind i a)).map _ = _
      rw [if_neg (Nat.not_le.mpr (haccepted.index _ hfixup i a rfl))]
      rfl
  exact mapM_eq_some_iff.mpr (List.forall₂_same.mpr hself)

/-- **What a walk finds**: the slots, on the pages that the stored count covers, of what was
listed last for the segment. -/
theorem walkStarts_serialize (h : e.Staging segments bytes out bytes')
    (hseparate : e.view.SlotsSeparate segments) {i : Nat} {seg : MachOSegment} (hseg : segments[i]? = some seg) :
    walkStarts out bytes' segments e.imports.length i
      = some (((e.lastListed i).map fun sf => sf.reached seg).getD []) := by
  obtain ⟨payloads, hpayloads, hout⟩ := Option.bind_eq_some_iff.mp h.serialize
  obtain ⟨imports, himports, hout⟩ := Option.bind_eq_some_iff.mp hout
  cases hout
  obtain ⟨unmeasured, hmeasure⟩ := measured_of_importsBlob himports
  have hi : i < segments.length := (List.getElem?_eq_some_iff.mp hseg).1
  have hstarts := readStartsInImage_blobBytes
    (payloads_readAs (fun sf hsf => (h.pageSize sf hsf).2) hpayloads) h.small
  unfold walkStarts
  rw [readHeader_blobBytes hmeasure h.small, Option.bind_eq_bind, Option.bind_some,
    Option.bind_eq_bind, hstarts, Option.bind_some, hseg, Option.bind_eq_bind, Option.bind_some,
    List.getElem?_map, List.getElem?_range hi]
  show (match e.newStarts segments i with
    | none => some []
    | some found => walkOneSegment bytes' seg e.imports.length found) = _
  unfold newStarts
  cases hlast : e.lastListed i with
  | none => rfl
  | some sf =>
    obtain ⟨hsf, hindex⟩ := lastListed_spec hlast
    have hsegment : segments[sf.segmentIndex]? = some seg := by
      rw [hindex]
      exact hseg
    rw [Option.bind_eq_bind, Option.bind_some, hseg, Option.bind_eq_bind, Option.bind_some]
    have hsteps : (sf.pages seg).all (fun page => stepsFit e.pointerFormat (sf.onPage seg page))
        = true := List.all_eq_true.mpr (h.accepted hsf hsegment).steps
    have hbuilt : ∃ starts, buildStartsInSegment e.pointerFormat sf seg = some starts := by
      unfold buildStartsInSegment
      exact ⟨_, if_pos hsteps⟩
    obtain ⟨starts, hbuilt⟩ := hbuilt
    rw [hbuilt]
    exact h.walk hseparate hsf hsegment hbuilt

/-! ## §4. The walk and the map. -/

/-- No fixups are listed twice for a segment, the stored count covers every page, and the first
fixup of an address points to what the last one does. -/
structure Settled (e : EditableFixups) (segments : List MachOSegment) : Prop where
  listed : ∀ sf ∈ e.segments, sf.fixups ≠ [] → e.lastListed sf.segmentIndex = some sf
  covered : ∀ sf ∈ e.segments, ∀ seg, segments[sf.segmentIndex]? = some seg →
    ∀ f ∈ sf.fixups, sf.pageOf seg f < sf.pageCount seg % 2 ^ 16
  firstIsLast : ∀ sf ∈ e.segments, ∀ f g,
    sf.fixups.find? (fun h => h.vaddr == f.vaddr) = some f →
    e.allFixups.reverse.find? (fun h => h.vaddr == f.vaddr) = some g →
      f.target.resolved e.imports = g.target.resolved e.imports

theorem mem_allFixups {sf : SegmentFixups} (hsf : sf ∈ e.segments) {f : Fixup}
    (hf : f ∈ sf.fixups) : ∃ g, e.allFixups.reverse.find? (fun h => h.vaddr == f.vaddr) = some g := by
  rw [← Option.isSome_iff_exists, List.find?_isSome]
  exact ⟨f, List.mem_reverse.mpr (List.mem_flatMap.mpr ⟨sf, hsf, hf⟩), beq_self_eq_true _⟩

theorem mem_reached {sf : SegmentFixups} {seg : MachOSegment} {f : Fixup} :
    f ∈ sf.reached seg ↔ f ∈ sf.slots ∧ sf.pageOf seg f < sf.pageCount seg % 2 ^ 16 := by
  unfold SegmentFixups.reached
  rw [List.mem_filter, decide_eq_true_eq]

theorem Settled.reproduces (h : e.Staging segments bytes out bytes')
    (hseparate : e.view.SlotsSeparate segments) (hsettled : e.Settled segments) :
    e.Reproduces segments out bytes' := by
  intro i hi
  have hseg : segments[i]? = some segments[i] := List.getElem?_eq_getElem hi
  refine ⟨_, walkStarts_serialize h hseparate hseg, ?_⟩
  cases hlast : e.lastListed i with
  | none =>
    refine ⟨List.nodup_nil, fun vaddr => ⟨(fun hv => nomatch hv), ?_⟩, (fun f hf => nomatch hf)⟩
    rintro ⟨sf, hsf, hindex, hv⟩
    have hne : sf.fixups ≠ [] := by
      intro hnil
      rw [hnil] at hv
      cases hv
    have hlisted := hsettled.listed sf hsf hne
    rw [hindex, hlast] at hlisted
    cases hlisted
  | some sf =>
    obtain ⟨hsf, hindex⟩ := lastListed_spec hlast
    have hsegment : segments[sf.segmentIndex]? = some segments[i] := by
      rw [hindex]
      exact hseg
    show ((sf.reached segments[i]).map Fixup.vaddr).Nodup ∧ _
    refine ⟨?_, fun vaddr => ?_, fun f hf => ?_⟩
    · refine (List.pairwise_map.mpr ((sf.slots_sorted.filter _).imp fun hlt => ?_))
      exact Nat.ne_of_lt hlt
    · constructor
      · intro hv
        obtain ⟨f, hf, rfl⟩ := List.mem_map.mp hv
        exact ⟨sf, hsf, hindex, List.mem_map_of_mem
          (SegmentFixups.mem_fixups_of_mem_slots (mem_reached.mp hf).1)⟩
      · rintro ⟨sf', hsf', hindex', hv⟩
        obtain ⟨f, hf, rfl⟩ := List.mem_map.mp hv
        -- What is listed for the segment and not empty is what is listed last.
        have hlisted := hsettled.listed sf' hsf' (List.ne_nil_of_mem hf)
        rw [hindex', hlast] at hlisted
        cases hlisted
        obtain ⟨g, hg, haddr⟩ := SegmentFixups.exists_mem_slots hf
        rw [← haddr]
        exact List.mem_map_of_mem (mem_reached.mpr ⟨hg, hsettled.covered sf hsf _ hsegment g
          (SegmentFixups.mem_fixups_of_mem_slots hg)⟩)
    · have hslot := (mem_reached.mp hf).1
      obtain ⟨g, hg⟩ := mem_allFixups hsf (SegmentFixups.mem_fixups_of_mem_slots hslot)
      unfold toMap
      rw [hg, Option.bind_some]
      exact hsettled.firstIsLast sf hsf f g (SegmentFixups.mem_slots_iff.mp hslot) hg

theorem Reproduces.settled (h : e.Staging segments bytes out bytes')
    (hseparate : e.view.SlotsSeparate segments) (hreproduces : e.Reproduces segments out bytes') : e.Settled segments := by
  -- A fixup's address is found on a page of what is listed last, so the fixup is listed there.
  have hone : ∀ sf ∈ e.segments, ∀ seg, segments[sf.segmentIndex]? = some seg →
      ∀ f ∈ sf.fixups, e.lastListed sf.segmentIndex = some sf
        ∧ sf.pageOf seg f < sf.pageCount seg % 2 ^ 16 := by
    intro sf hsf seg hseg f hf
    have hi : sf.segmentIndex < segments.length := (List.getElem?_eq_some_iff.mp hseg).1
    obtain ⟨walked, hwalked, _, haddresses, _⟩ := hreproduces sf.segmentIndex hi
    rw [walkStarts_serialize h hseparate hseg] at hwalked
    cases hwalked
    have hmem := (haddresses f.vaddr).mpr ⟨sf, hsf, rfl, List.mem_map_of_mem hf⟩
    cases hlast : e.lastListed sf.segmentIndex with
    | none =>
      rw [hlast] at hmem
      cases hmem
    | some last =>
      rw [hlast] at hmem
      obtain ⟨hlastMem, hindex⟩ := lastListed_spec hlast
      obtain ⟨g, hg, haddr⟩ := List.mem_map.mp hmem
      obtain ⟨hslot, hcovered⟩ := mem_reached.mp hg
      have hlastSeg : segments[last.segmentIndex]? = some seg := by
        rw [hindex]
        exact hseg
      have hsame : sf = last := by
        obtain ⟨hsame, _⟩ | hfar := hseparate sf hsf last hlastMem seg seg hseg hlastSeg f hf g
          (SegmentFixups.mem_fixups_of_mem_slots hslot)
        · exact hsame
        · unfold slotOffset at hfar
          rw [haddr] at hfar
          unfold Apart at hfar
          omega
      subst hsame
      refine ⟨rfl, ?_⟩
      unfold SegmentFixups.pageOf at hcovered ⊢
      rwa [haddr] at hcovered
  refine ⟨fun sf hsf hne => ?_, fun sf hsf seg hseg f hf => (hone sf hsf seg hseg f hf).2,
    fun sf hsf f g hfirst hg => ?_⟩
  · obtain ⟨seg, hseg, _⟩ := accepted_of_serialize h.serialize hsf
    obtain ⟨f, hf⟩ := List.exists_mem_of_ne_nil _ hne
    exact (hone sf hsf seg hseg f hf).1
  · obtain ⟨seg, hseg, _⟩ := accepted_of_serialize h.serialize hsf
    obtain ⟨hlast, hcovered⟩ := hone sf hsf seg hseg f (List.mem_of_find?_eq_some hfirst)
    have hi : sf.segmentIndex < segments.length := (List.getElem?_eq_some_iff.mp hseg).1
    obtain ⟨walked, hwalked, _, _, hmap⟩ := hreproduces sf.segmentIndex hi
    rw [walkStarts_serialize h hseparate hseg, hlast] at hwalked
    cases hwalked
    have hfound := hmap f (mem_reached.mpr ⟨SegmentFixups.mem_slots_iff.mpr hfirst, hcovered⟩)
    unfold toMap at hfound
    rwa [hg, Option.bind_some] at hfound

/-- **The walk of what was staged is the view of the map** exactly if the fixups are settled. -/
theorem reproduces_iff (h : e.Staging segments bytes out bytes')
    (hseparate : e.view.SlotsSeparate segments) :
    e.Reproduces segments out bytes' ↔ e.Settled segments :=
  ⟨Reproduces.settled h hseparate, Settled.reproduces h hseparate⟩

end Staging

/-- Rebases in a segment of one page. -/
def rebases (slots : List (Nat × Nat)) : EditableFixups :=
  ⟨.ptr64, [⟨1, "a", 0, false⟩],
    [⟨0, 4096, slots.map fun s => ⟨s.1, .rebase s.2⟩⟩], 1, leBytes 4 1 ++ [97, 0],
    [⟨1, "a", 0, false⟩]⟩

theorem rebases_staging {slots : List (Nat × Nat)} {bytes out bytes' : List Byte}
    (hserialize : (rebases slots).serialize [onePage] = some out) (hsmall : out.length < 2 ^ 32)
    (hencode : (rebases slots).encodeIntoSegments bytes [onePage] = some bytes')
    (hin : ∀ s ∈ slots, s.1 - 0x1000 + 8 ≤ 0x1000) (hheld : ∀ s ∈ slots, s.2 < 2 ^ 36) :
    (rebases slots).Staging [onePage] bytes out bytes' := by
  have hsegment : ∀ sf ∈ (rebases slots).segments, ∀ seg, [onePage][sf.segmentIndex]? = some seg →
      seg = onePage ∧ ∀ f ∈ sf.fixups, ∃ s ∈ slots, f = ⟨s.1, .rebase s.2⟩ := by
    intro sf hsf seg hseg
    obtain rfl := List.mem_singleton.mp hsf
    refine ⟨(Option.some.inj hseg).symm, fun f hf => ?_⟩
    obtain ⟨s, hs, rfl⟩ := List.mem_map.mp hf
    exact ⟨s, hs, rfl⟩
  refine ⟨hserialize, hsmall, hencode, fun sf hsf => ?_, fun sf hsf seg hseg f hf => ?_,
    fun sf hsf seg hseg f hf => ?_⟩
  · obtain rfl := List.mem_singleton.mp hsf
    show 0 < 4096 ∧ 4096 < 2 ^ 16
    decide
  · obtain ⟨rfl, hall⟩ := hsegment sf hsf seg hseg
    obtain ⟨s, hs, rfl⟩ := hall f hf
    exact hin s hs
  · obtain ⟨rfl, hall⟩ := hsegment sf hsf seg hseg
    obtain ⟨s, hs, rfl⟩ := hall f hf
    refine ⟨trivial, fun t ht => ?_⟩
    cases ht
    exact hheld s hs

/-- Two slots, not in order. -/
theorem rebases_reproduce :
    ∃ out bytes', (rebases [(0x1008, 0x3000), (0x1000, 0x2000)]).serialize [onePage] = some out
      ∧ (rebases [(0x1008, 0x3000), (0x1000, 0x2000)]).encodeIntoSegments (List.replicate 16 0)
        [onePage] = some bytes'
      ∧ (rebases [(0x1008, 0x3000), (0x1000, 0x2000)]).Reproduces [onePage] out bytes' := by
  refine ⟨_, _, rfl, rfl, (reproduces_iff
    (@rebases_staging _ (List.replicate 16 0) _ _ rfl (by decide) rfl (by decide) (by decide))
    ?_).mpr ⟨?_, ?_, ?_⟩⟩
  · intro sf hsf sf' hsf' seg seg' hseg hseg' f hf f' hf'
    obtain rfl := List.mem_singleton.mp hsf
    obtain rfl := List.mem_singleton.mp hsf'
    cases hseg
    cases hseg'
    simp only [List.map_cons, List.map_nil, List.mem_cons, List.not_mem_nil, or_false] at hf hf'
    obtain rfl | rfl := hf <;> obtain rfl | rfl := hf'
    · exact .inl ⟨rfl, rfl⟩
    · exact .inr (.inr (by decide))
    · exact .inr (.inl (by decide))
    · exact .inl ⟨rfl, rfl⟩
  · intro sf hsf _
    obtain rfl := List.mem_singleton.mp hsf
    rfl
  · intro sf hsf seg hseg
    obtain rfl := List.mem_singleton.mp hsf
    cases hseg
    decide
  · intro sf hsf f g hf hg
    obtain rfl := List.mem_singleton.mp hsf
    have hmem := List.mem_of_find?_eq_some hf
    simp only [List.map_cons, List.map_nil, List.mem_cons, List.not_mem_nil, or_false] at hmem
    obtain rfl | rfl := hmem <;> cases hg <;> rfl

/-- For a slot that is listed twice, the walk finds the first target and the map has the last. -/
theorem staged_keeps_first :
    ¬ ∀ (e : EditableFixups) (segments : List MachOSegment) (bytes out bytes' : List Byte),
      e.pointerFormat.isPlain = true → (∀ sf ∈ e.segments, sf.pageSize = 4096 ∨ sf.pageSize = 16384) →
      e.Staging segments bytes out bytes' → e.Reproduces segments out bytes' := by
  intro hall
  have hreproduces := hall (rebases [(0x1000, 0x2000), (0x1000, 0x3000)]) [onePage]
    (List.replicate 8 0) _ _ rfl (by decide)
    (@rebases_staging _ (List.replicate 8 0) _ _ rfl (by decide) rfl (by decide) (by decide))
  obtain ⟨walked, hwalked, _, _, hmap⟩ := hreproduces 0 (by decide)
  cases hwalked
  have hfirst := hmap ⟨0x1000, .rebase 0x2000⟩ (by decide)
  exact absurd hfirst (by decide)

end EditableFixups

end Armv8Encode.MachO

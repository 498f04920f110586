/-
  Armv8Encode.Container.MachO.SlotFrame — what re-encoding the slots writes.

  `encode_into_segments` writes eight bytes for every slot.  The writer accepts
  a slot by the memory of its segment and the stride of the format, so slots
  four bytes apart share four bytes, and a slot can stand behind what the file
  has of its segment.  A slot behind the image is found when the words before
  it are in the image.

  Main result:
    * `encodeIntoSegments_clean_iff` — when the writes keep to the slots of
      their segments, and a refused image is left alone.
-/
import Armv8Encode.Container.MachO.SlotWords
import Armv8Encode.Lib.Writes
import Mathlib.Data.List.Pairwise

namespace Armv8Encode.MachO

open Lib

/-! ## §1. The writes. -/

/-- The words into the image: whether all went in, and the image in the end.
The `order` is the one that the map of pages gives the words in. -/
def ChainedFixups.encodeIntoSegments (cf : ChainedFixups) (segments : List MachOSegment)
    (order : List (Nat × List Byte) → List (Nat × List Byte)) (image : List Byte) :
    Bool × List Byte :=
  match cf.slotBytes segments with
  | none => (false, image)
  | some words => writeAll image (order words)

/-- Where the slots of a segment stand in the file. -/
def SegmentFixups.offsets (segments : List MachOSegment) (sf : SegmentFixups) : List Nat :=
  (segments[sf.segmentIndex]?).elim [] fun seg => sf.slots.map (slotOffset seg)

/-- The writes keep to the slots, do not meet, and stay in what the file has of
the segments. -/
structure ChainedFixups.TouchesOwnSlots (cf : ChainedFixups) (segments : List MachOSegment)
    (words : List (Nat × List Byte)) (image out : List Byte) : Prop where
  frame : ∀ i, (∀ sf ∈ cf.segments, ∀ seg, segments[sf.segmentIndex]? = some seg →
      ∀ f ∈ sf.fixups, i < slotOffset seg f ∨ slotOffset seg f + 8 ≤ i) → out[i]? = image[i]?
  disjoint : words.Pairwise fun w w' => Apart 8 w.1 w'.1
  inside : ∀ sf ∈ cf.segments, ∀ seg, segments[sf.segmentIndex]? = some seg → ∀ f ∈ sf.fixups,
    seg.fileoff ≤ slotOffset seg f ∧ slotOffset seg f + 8 ≤ seg.fileoff + seg.filesize

/-- The image after the writes, or untouched if they are refused. -/
structure ChainedFixups.EncodesCleanly (cf : ChainedFixups) (segments : List MachOSegment)
    (order : List (Nat × List Byte) → List (Nat × List Byte)) (image : List Byte) : Prop where
  onOk : ∀ words, cf.slotBytes segments = some words →
    (cf.encodeIntoSegments segments order image).1 = true →
    cf.TouchesOwnSlots segments (order words) image (cf.encodeIntoSegments segments order image).2
  onErr : (cf.encodeIntoSegments segments order image).1 = false →
    (cf.encodeIntoSegments segments order image).2 = image

/-- Slots that stand in the image. -/
def ChainedFixups.InImage (cf : ChainedFixups) (segments : List MachOSegment)
    (image : List Byte) : Prop :=
  ∀ sf ∈ cf.segments, ∀ seg, segments[sf.segmentIndex]? = some seg → ∀ f ∈ sf.fixups,
    slotOffset seg f + 8 ≤ image.length

/-- Slots that keep clear of each other and stand in what the file has of their segments. -/
structure ChainedFixups.SlotsHeld (cf : ChainedFixups) (segments : List MachOSegment) : Prop where
  spaced : ∀ sf ∈ cf.segments, ∀ f ∈ sf.fixups, ∀ g ∈ sf.fixups, g.vaddr ≠ f.vaddr + 4
  apart : cf.segments.Pairwise fun sf sf' => ∀ seg seg', segments[sf.segmentIndex]? = some seg →
    segments[sf'.segmentIndex]? = some seg' → ∀ f ∈ sf.fixups, ∀ g ∈ sf'.fixups,
      Apart 8 (slotOffset seg f) (slotOffset seg' g)
  backed : ∀ sf ∈ cf.segments, ∀ seg, segments[sf.segmentIndex]? = some seg → ∀ f ∈ sf.fixups,
    f.vaddr - seg.vmaddr + 8 ≤ seg.filesize

/-! ## §2. The places of the words. -/

theorem chainWords_offsets {format : PointerFormat} {seg : MachOSegment} {fs : List Fixup}
    {words : List (Nat × List Byte)} (h : chainWords format seg fs = some words) :
    words.map Prod.fst = fs.map (slotOffset seg) := by
  induction fs generalizing words with
  | nil =>
    cases h
    rfl
  | cons f rest ih =>
    obtain ⟨word, _, h⟩ := Option.bind_eq_some_iff.mp h
    obtain ⟨later, hlater, h⟩ := Option.bind_eq_some_iff.mp h
    cases h
    rw [List.map_cons, List.map_cons, ih hlater]
    rfl

/-- The slots page by page are the slots. -/
theorem SegmentFixups.pages_perm (sf : SegmentFixups) (seg : MachOSegment) :
    ((sf.pages seg).flatMap (sf.onPage seg)).Perm sf.slots :=
  flatMap_filter_perm (sf.pageOf seg) sf.slots

theorem slotBytes_offsets {cf : ChainedFixups} {segments : List MachOSegment}
    {words : List (Nat × List Byte)} (h : cf.slotBytes segments = some words) :
    (words.map Prod.fst).Perm (cf.segments.flatMap (SegmentFixups.offsets segments)) := by
  obtain ⟨groups, hgroups, h⟩ := Option.bind_eq_some_iff.mp h
  cases h
  refine map_flatten_perm (mapM_eq_some_iff.mp hgroups) ?_
  intro sf group hone
  obtain ⟨seg, hseg, hone⟩ := Option.bind_eq_some_iff.mp hone
  obtain ⟨_, hone⟩ := Option.ite_none_left_eq_some.mp hone
  obtain ⟨pages, hpages, hone⟩ := Option.bind_eq_some_iff.mp hone
  cases hone
  have hchains : (pages.flatten.map Prod.fst).Perm
      ((sf.pages seg).flatMap fun page => (sf.onPage seg page).map (slotOffset seg)) := by
    refine map_flatten_perm (mapM_eq_some_iff.mp hpages) ?_
    intro page chain hchain
    rw [chainWords_offsets hchain]
  have hoffsets : sf.offsets segments = sf.slots.map (slotOffset seg) := by
    unfold SegmentFixups.offsets
    rw [hseg]
    rfl
  rw [hoffsets]
  refine hchains.trans ?_
  rw [← List.map_flatMap]
  exact (sf.pages_perm seg).map _

/-! ## §3. Slots that words can hold. -/

/-- A target that the format has a word for. -/
def FixupTarget.Encodable (format : PointerFormat) : FixupTarget → Prop
  | .rebase _ => True
  | .bind _ addend => format.isPlain = false → -2 ^ 18 ≤ addend ∧ addend < 2 ^ 18

def ChainedFixups.Encodable (cf : ChainedFixups) : Prop :=
  ∀ sf ∈ cf.segments, ∀ f ∈ sf.slots, f.target.Encodable cf.pointerFormat

theorem encodeOne_isSome_iff {target : FixupTarget} {format : PointerFormat}
    {next segBase : Nat} :
    (∃ word, encodeOne target format next segBase = some word) ↔ target.Encodable format := by
  unfold encodeOne
  cases target with
  | rebase t => exact iff_of_true ⟨_, rfl⟩ trivial
  | bind i a =>
    show (∃ word, _) ↔ (format.isPlain = false → _)
    cases hplain : format.isPlain with
    | true => exact iff_of_true ⟨_, rfl⟩ (fun h => nomatch h)
    | false =>
      by_cases hrange : a < -2 ^ 18 ∨ 2 ^ 18 ≤ a
      · simp only [Bool.false_eq_true, if_false, if_pos hrange]
        exact iff_of_false (fun h => nomatch h) (fun h => by have := h trivial; omega)
      · simp only [Bool.false_eq_true, if_false, if_neg hrange]
        exact iff_of_true ⟨_, rfl⟩ (fun _ => by omega)

theorem chainWords_isSome_iff {format : PointerFormat} {seg : MachOSegment} {fs : List Fixup} :
    (∃ words, chainWords format seg fs = some words) ↔
      ∀ f ∈ fs, f.target.Encodable format := by
  induction fs with
  | nil => exact iff_of_true ⟨[], rfl⟩ (fun f hf => nomatch hf)
  | cons f rest ih =>
    rw [List.forall_mem_cons, ← ih]
    constructor
    · intro ⟨words, h⟩
      obtain ⟨word, hword, h⟩ := Option.bind_eq_some_iff.mp h
      obtain ⟨later, hlater, _⟩ := Option.bind_eq_some_iff.mp h
      exact ⟨encodeOne_isSome_iff.mp ⟨word, hword⟩, later, hlater⟩
    · intro ⟨hf, later, hlater⟩
      have ⟨word, hword⟩ : ∃ word, encodeOne f.target format (distanceTo f rest / format.stride)
          seg.vmaddr = some word :=
        encodeOne_isSome_iff.mpr hf
      refine ⟨_, Option.bind_eq_some_iff.mpr ⟨word, ?_, Option.bind_eq_some_iff.mpr
        ⟨later, hlater, rfl⟩⟩⟩
      cases rest <;> exact hword

namespace EditableFixups

variable {e : EditableFixups} {segments : List MachOSegment} {blob : List Byte}

/-- A segment with slots has pages of a size. -/
theorem pageSize_of_serialize (h : e.serialize segments = some blob) {sf : SegmentFixups}
    (hsf : sf ∈ e.segments) : ¬ (sf.pageSize = 0 ∧ sf.fixups ≠ []) := by
  obtain ⟨payloads, hpayloads, _⟩ := Option.bind_eq_some_iff.mp h
  obtain ⟨built, hbuilt, _⟩ := Option.bind_eq_some_iff.mp hpayloads
  obtain ⟨_, _, hone⟩ := exists_mem_of_mapM hbuilt hsf
  obtain ⟨seg, _, hone⟩ := Option.bind_eq_some_iff.mp hone
  obtain ⟨_, hone⟩ := Option.ite_none_right_eq_some.mp hone
  obtain ⟨payload, hpayload, _⟩ := Option.bind_eq_some_iff.mp hone
  intro ⟨hzero, hne⟩
  unfold startsPayload at hpayload
  dsimp only at hpayload
  rw [if_neg hne, if_pos hzero] at hpayload
  cases hpayload

/-- The slots of an accepted view have their words if every target has one. -/
theorem slotBytes_isSome_iff (h : e.serialize segments = some blob) :
    (∃ words, e.view.slotBytes segments = some words) ↔ e.view.Encodable := by
  constructor
  · intro ⟨words, hwords⟩ sf hsf f hf
    have ⟨seg, hseg, _⟩ := accepted_of_serialize h hsf
    have hpage : f ∈ sf.onPage seg (sf.pageOf seg f) := SegmentFixups.mem_onPage.mpr ⟨hf, rfl⟩
    have ⟨chain, hchain, _⟩ := exists_chainWords hwords hsf hseg
      (SegmentFixups.mem_pages.mpr (List.ne_nil_of_mem hpage))
    exact chainWords_isSome_iff.mp ⟨chain, hchain⟩ f hpage
  · intro hencodable
    have hgroups : ∀ sf ∈ e.view.segments, ∃ words, (do
        let seg ← segments[sf.segmentIndex]?
        if sf.pageSize = 0 ∧ sf.fixups ≠ [] then none
        else
          let pages ← (sf.pages seg).mapM fun page =>
            chainWords e.view.pointerFormat seg (sf.onPage seg page)
          some pages.flatten) = some words := by
      intro sf hsf
      have ⟨seg, hseg, _⟩ := accepted_of_serialize h hsf
      have ⟨pages, hpages⟩ : ∃ pages, ((sf.pages seg).mapM fun page =>
          chainWords e.view.pointerFormat seg (sf.onPage seg page)) = some pages :=
        exists_mapM fun page _ => chainWords_isSome_iff.mpr fun f hf =>
          hencodable sf hsf f (SegmentFixups.mem_onPage.mp hf).1
      refine ⟨pages.flatten, ?_⟩
      rw [hseg, Option.bind_eq_bind, Option.bind_some, if_neg (pageSize_of_serialize h hsf), hpages]
      rfl
    have ⟨groups, hall⟩ := exists_mapM hgroups
    refine ⟨groups.flatten, ?_⟩
    unfold ChainedFixups.slotBytes
    rw [hall]
    rfl

/-! ## §4. Slots that keep clear of each other. -/

/-- Slots of a format stand at multiples of four. -/
theorem Accepted.aligned_four {seg : MachOSegment} {sf : SegmentFixups} (h : e.Accepted seg sf)
    {f : Fixup} (hf : f ∈ sf.fixups) : 4 ∣ f.vaddr := by
  have haligned := h.aligned f hf
  unfold PointerFormat.stride at haligned
  by_cases hplain : e.pointerFormat.isPlain = true
  · rw [if_pos hplain] at haligned
    omega
  · rw [if_neg hplain] at haligned
    omega

/-- The slots of one segment do not meet if and only if none is four bytes behind another. -/
theorem slots_apart_iff {seg : MachOSegment} {sf : SegmentFixups} (h : e.Accepted seg sf) :
    (sf.slots.map (slotOffset seg)).Pairwise (Apart 8) ↔
      ∀ f ∈ sf.fixups, ∀ g ∈ sf.fixups, g.vaddr ≠ f.vaddr + 4 := by
  rw [List.pairwise_map]
  constructor
  · intro hapart f hf g hg hfour
    have ⟨f', hf', hfEq⟩ := SegmentFixups.exists_mem_slots hf
    have ⟨g', hg', hgEq⟩ := SegmentFixups.exists_mem_slots hg
    have hne : f' ≠ g' := by
      intro heq
      rw [heq] at hfEq
      omega
    have hsymm : Std.Symm fun x y => Apart 8 (slotOffset seg x) (slotOffset seg y) :=
      ⟨fun _ _ hxy => hxy.symm⟩
    have hfar : Apart 8 (slotOffset seg f') (slotOffset seg g') := hapart.forall hf' hg' hne
    have hbase := (h.inside f hf).1
    unfold Apart slotOffset at hfar
    omega
  · intro hspaced
    refine sf.slots_sorted.imp_of_mem ?_
    intro f g hf hg hlt
    have hf' := SegmentFixups.mem_fixups_of_mem_slots hf
    have hg' := SegmentFixups.mem_fixups_of_mem_slots hg
    have hne := hspaced f hf' g hg'
    have hbase := (h.inside f hf').1
    have halignedF := h.aligned_four hf'
    have halignedG := h.aligned_four hg'
    left
    unfold slotOffset
    omega

/-- The words do not meet if and only if the slots keep clear of each other. -/
theorem words_apart_iff (hserialize : e.serialize segments = some blob)
    {words : List (Nat × List Byte)} (hwords : e.view.slotBytes segments = some words)
    {ordered : List (Nat × List Byte)} (hperm : ordered.Perm words) :
    (ordered.Pairwise fun w w' => Apart 8 w.1 w'.1) ↔
      (∀ sf ∈ e.segments, ∀ f ∈ sf.fixups, ∀ g ∈ sf.fixups, g.vaddr ≠ f.vaddr + 4) ∧
        e.segments.Pairwise fun sf sf' => ∀ seg seg', segments[sf.segmentIndex]? = some seg →
          segments[sf'.segmentIndex]? = some seg' → ∀ f ∈ sf.fixups, ∀ g ∈ sf'.fixups,
            Apart 8 (slotOffset seg f) (slotOffset seg' g) := by
  have hplaces : (ordered.map Prod.fst).Perm
      (e.segments.flatMap (SegmentFixups.offsets segments)) :=
    (hperm.map _).trans (slotBytes_offsets hwords)
  rw [← List.pairwise_map, hplaces.pairwise_iff (fun hxy => hxy.symm), List.pairwise_flatMap]
  refine and_congr (forall₂_congr fun sf hsf => ?_) (List.Pairwise.iff_of_mem fun hsf hsf' => ?_)
  · have ⟨seg, hseg, haccepted⟩ := accepted_of_serialize hserialize hsf
    unfold SegmentFixups.offsets
    rw [hseg]
    exact slots_apart_iff haccepted
  · have ⟨seg, hseg, haccepted⟩ := accepted_of_serialize hserialize hsf
    have ⟨seg', hseg', haccepted'⟩ := accepted_of_serialize hserialize hsf'
    unfold SegmentFixups.offsets
    rw [hseg, hseg']
    constructor
    · intro hapart t t' ht ht' f hf g hg
      cases ht
      cases ht'
      have ⟨f', hf', hfEq⟩ := SegmentFixups.exists_mem_slots hf
      have ⟨g', hg', hgEq⟩ := SegmentFixups.exists_mem_slots hg
      have hfar := hapart _ (List.mem_map_of_mem hf') _ (List.mem_map_of_mem hg')
      unfold slotOffset at hfar ⊢
      rwa [hfEq, hgEq] at hfar
    · intro hapart x hx y hy
      have ⟨f, hf, hfx⟩ := List.mem_map.mp hx
      have ⟨g, hg, hgy⟩ := List.mem_map.mp hy
      rw [← hfx, ← hgy]
      exact hapart seg seg' rfl rfl f (SegmentFixups.mem_fixups_of_mem_slots hf) g
        (SegmentFixups.mem_fixups_of_mem_slots hg)

/-! ## §5. What the writes do. -/

theorem length_of_slotBytes {cf : ChainedFixups} {words : List (Nat × List Byte)}
    (h : cf.slotBytes segments = some words) {w : Nat × List Byte} (hw : w ∈ words) :
    w.2.length = 8 := by
  have ⟨_, _, _, _, _, _, hchain, hin⟩ := exists_chain_of_mem h hw
  exact (mem_chainWords hchain hin).1

/-- What holds of the places of all words holds of those of all slots. -/
theorem forall_words_iff (hserialize : e.serialize segments = some blob)
    {words : List (Nat × List Byte)} (hwords : e.view.slotBytes segments = some words)
    {ordered : List (Nat × List Byte)} (hperm : ordered.Perm words) (P : Nat → Prop) :
    (∀ w ∈ ordered, P w.1) ↔ ∀ sf ∈ e.segments, ∀ seg, segments[sf.segmentIndex]? = some seg →
      ∀ f ∈ sf.fixups, P (slotOffset seg f) := by
  have hplaces : (ordered.map Prod.fst).Perm
      (e.segments.flatMap (SegmentFixups.offsets segments)) :=
    (hperm.map _).trans (slotBytes_offsets hwords)
  constructor
  · intro h sf hsf seg hseg f hf
    have ⟨g, hg, hgEq⟩ := SegmentFixups.exists_mem_slots hf
    have hplace : slotOffset seg f ∈ e.segments.flatMap (SegmentFixups.offsets segments) := by
      refine List.mem_flatMap.mpr ⟨sf, hsf, ?_⟩
      unfold SegmentFixups.offsets
      rw [hseg]
      refine List.mem_map.mpr ⟨g, hg, ?_⟩
      unfold slotOffset
      rw [hgEq]
    have ⟨w, hw, hwEq⟩ := List.mem_map.mp (hplaces.mem_iff.mpr hplace)
    rw [← hwEq]
    exact h w hw
  · intro h w hw
    have ⟨sf, hsf, hin⟩ := List.mem_flatMap.mp (hplaces.mem_iff.mp (List.mem_map_of_mem hw))
    have ⟨seg, hseg, _⟩ := accepted_of_serialize hserialize hsf
    unfold SegmentFixups.offsets at hin
    rw [hseg] at hin
    have ⟨f, hf, hfEq⟩ := List.mem_map.mp hin
    rw [← hfEq]
    exact h sf hsf seg hseg f (SegmentFixups.mem_fixups_of_mem_slots hf)

/-- Outside of the slots the image stays as it was. -/
theorem getElem?_outside (hserialize : e.serialize segments = some blob)
    {words : List (Nat × List Byte)} (hwords : e.view.slotBytes segments = some words)
    {ordered : List (Nat × List Byte)} (hperm : ordered.Perm words) (image : List Byte) {i : Nat}
    (h : ∀ sf ∈ e.segments, ∀ seg, segments[sf.segmentIndex]? = some seg → ∀ f ∈ sf.fixups,
      i < slotOffset seg f ∨ slotOffset seg f + 8 ≤ i) :
    (writeAll image ordered).2[i]? = image[i]? := by
  refine getElem?_writeAll_outside fun w hw => ?_
  rw [length_of_slotBytes hwords (hperm.mem_iff.mp hw)]
  exact (forall_words_iff hserialize hwords hperm (fun x => i < x ∨ x + 8 ≤ i)).mpr h w hw

/-- All words go in if and only if all slots stand in the image. -/
theorem writeAll_fst_iff_inImage (hserialize : e.serialize segments = some blob)
    {words : List (Nat × List Byte)} (hwords : e.view.slotBytes segments = some words)
    {ordered : List (Nat × List Byte)} (hperm : ordered.Perm words) (image : List Byte) :
    (writeAll image ordered).1 = true ↔ e.view.InImage segments image := by
  rw [writeAll_fst]
  have hlengths : (∀ w ∈ ordered, w.1 + w.2.length ≤ image.length)
      ↔ ∀ w ∈ ordered, w.1 + 8 ≤ image.length := by
    refine forall₂_congr fun w hw => ?_
    rw [length_of_slotBytes hwords (hperm.mem_iff.mp hw)]
  rw [hlengths]
  exact forall_words_iff hserialize hwords hperm fun x => x + 8 ≤ image.length

/-- Two slots of a segment, so many bytes apart. -/
def neighbours (gap : Nat) : EditableFixups :=
  ⟨.ptr64, [], [⟨0, 4096, [⟨0x1000, .rebase 0x2000⟩, ⟨0x1000 + gap, .rebase 0x2000⟩]⟩], 1, [], []⟩

/-- A segment of which the file has nothing. -/
def zeroFilled : MachOSegment := ⟨"__DATA", 0x1000, 0x1000, 0, 0⟩

end EditableFixups

end Armv8Encode.MachO

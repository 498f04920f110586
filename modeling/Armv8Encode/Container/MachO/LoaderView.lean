/-
  Armv8Encode.Container.MachO.LoaderView — the addresses a chained-fixups view shows.

  A pointer format documents how wide a rebase target is and what it is
  relative to.  The reader takes 36 bits for every format, adds the base of
  the slot's own segment for three of them and nothing for the others.  So the
  view shows what the loader uses for some words only, and a repoint finds the
  slots of an address where it does.
-/
import Armv8Encode.Container.MachO.ChainedSlots

namespace Armv8Encode.MachO

open Lib

/-! ## §1. What the formats document. -/

/-- `__TEXT.vmaddr`. -/
def preferredLoadAddress (segments : List MachOSegment) : Nat :=
  ((segments.find? fun s => s.name == "__TEXT").map MachOSegment.vmaddr).getD 0

namespace PointerFormat

/-- Width of the target of a plain rebase. -/
def targetBits : PointerFormat → Nat
  | arm64e => 43
  | arm64eKernel => 32
  | _ => 36

/-- What targets are relative to. -/
def targetBase (format : PointerFormat) (loadAddress segBase : Nat) : Nat :=
  match format with
  | ptr64 | arm64e => 0
  | arm64eKernel => segBase
  | ptr64Offset | arm64eUserland | arm64eUserland24 => loadAddress

def IsRebase (format : PointerFormat) (word : Nat) : Prop :=
  word / 2 ^ (if format.isPlain then 63 else 62) % 2 ≠ 1

instance (format : PointerFormat) (word : Nat) : Decidable (format.IsRebase word) :=
  inferInstanceAs (Decidable (_ ≠ _))

def IsAuthenticated (format : PointerFormat) (word : Nat) : Prop :=
  format.isPlain = false ∧ word / 2 ^ 63 % 2 = 1

instance (format : PointerFormat) (word : Nat) : Decidable (format.IsAuthenticated word) :=
  inferInstanceAs (Decidable (_ ∧ _))

/-- The address of a rebase word.  With authentication the diversity starts at
bit 32, and the target is what is below. -/
def documentedTarget (format : PointerFormat) (loadAddress segBase word : Nat) : Nat :=
  format.targetBase loadAddress segBase
    + word % 2 ^ (if format.IsAuthenticated word then 32 else format.targetBits)

/-- The address the reader gives to a rebase word. -/
def shownTarget (format : PointerFormat) (segBase word : Nat) : Nat :=
  if format.isRelative then segBase + word % 2 ^ 36 else word % 2 ^ 36

/-- Words whose 36 low bits, on the reader's base, are the documented address. -/
def ShowsWord (format : PointerFormat) (loadAddress segBase word : Nat) : Prop :=
  match format with
  | ptr64 => True
  | ptr64Offset => loadAddress = 0
  | arm64e => if format.IsAuthenticated word then word / 2 ^ 32 % 2 ^ 4 = 0
      else word / 2 ^ 36 % 2 ^ 7 = 0
  | arm64eKernel => word / 2 ^ 32 % 2 ^ 4 = 0
  | arm64eUserland | arm64eUserland24 =>
    if format.IsAuthenticated word then segBase + word / 2 ^ 32 % 2 ^ 4 * 2 ^ 32 = loadAddress
    else segBase = loadAddress

theorem shownTarget_eq_iff (format : PointerFormat) (loadAddress segBase word : Nat) :
    format.shownTarget segBase word = format.documentedTarget loadAddress segBase word
      ↔ format.ShowsWord loadAddress segBase word := by
  unfold shownTarget documentedTarget ShowsWord
  by_cases hauth : format.IsAuthenticated word
  · rw [if_pos hauth]
    cases format <;> simp only [isRelative, targetBase, if_true, Bool.false_eq_true, if_false,
      if_pos hauth]
    -- The two formats without authentication are not the case.
    · exact absurd hauth.1 (by decide)
    · exact absurd hauth.1 (by decide)
    all_goals omega
  · rw [if_neg hauth]
    cases format <;> simp only [isRelative, targetBase, targetBits, if_true, Bool.false_eq_true,
      if_false, if_neg hauth, iff_true] <;> omega

end PointerFormat

theorem decodeOne_rebase {format : PointerFormat} {word importsCount segBase : Nat}
    (h : format.IsRebase word) :
    decodeOne word format importsCount segBase
      = some (.rebase (format.shownTarget segBase word),
          word / 2 ^ 51 % 2 ^ format.nextBits) := by
  unfold decodeOne PointerFormat.shownTarget
  dsimp only
  exact if_neg h

/-! ## §2. Slots and their addresses. -/

/-- The loader writes the address `a` (before the slide) to the slot. -/
def Resolves (format : PointerFormat) (segments : List MachOSegment) (bytes : List Byte)
    (sf : SegmentFixups) (f : Fixup) (a : Nat) : Prop :=
  ∃ seg word, segments[sf.segmentIndex]? = some seg
    ∧ readLe 8 bytes (slotOffset seg f) = some word ∧ format.IsRebase word
    ∧ format.documentedTarget (preferredLoadAddress segments) seg.vmaddr word = a

namespace ChainedFixups

/-- Every slot that the loader rebases is shown with its address. -/
def ShowsTargets (cf : ChainedFixups) (segments : List MachOSegment) (bytes : List Byte) :
    Prop :=
  ∀ sf ∈ cf.segments, ∀ f ∈ sf.fixups, ∀ a,
    Resolves cf.pointerFormat segments bytes sf f a → f.target = .rebase a

/-- Every rebase word of the chains shows its address. -/
def WordsShow (cf : ChainedFixups) (segments : List MachOSegment) (bytes : List Byte) : Prop :=
  ∀ sf ∈ cf.segments, ∀ f ∈ sf.fixups, ∀ seg word, segments[sf.segmentIndex]? = some seg →
    readLe 8 bytes (slotOffset seg f) = some word → cf.pointerFormat.IsRebase word →
      cf.pointerFormat.ShowsWord (preferredLoadAddress segments) seg.vmaddr word

end ChainedFixups

/-- A slot of a read, with its segment and word. -/
theorem ChainedFixups.WasRead.slot {cf : ChainedFixups} {blob : FixupsBlob} {bytes : List Byte}
    {segments : List MachOSegment} (h : cf.WasRead blob bytes segments) {sf : SegmentFixups}
    (hsf : sf ∈ cf.segments) {f : Fixup} (hf : f ∈ sf.fixups) :
    ∃ seg word next, segments[sf.segmentIndex]? = some seg
      ∧ readLe 8 bytes (slotOffset seg f) = some word
      ∧ decodeOne word cf.pointerFormat cf.imports.length seg.vmaddr = some (f.target, next) := by
  obtain ⟨_, seg, hseg, hslots⟩ := h.segment sf hsf
  obtain ⟨word, next, hword, hdecode⟩ := (hslots f hf).word
  exact ⟨seg, word, next, hseg, hword, hdecode⟩

/-- **The view shows the loader's addresses exactly if every word shows its own.** -/
theorem ChainedFixups.WasRead.showsTargets_iff {cf : ChainedFixups} {blob : FixupsBlob}
    {bytes : List Byte} {segments : List MachOSegment} (h : cf.WasRead blob bytes segments) :
    cf.ShowsTargets segments bytes ↔ cf.WordsShow segments bytes := by
  constructor
  · intro hshows sf hsf f hf seg word hseg hword hrebase
    have htarget := hshows sf hsf f hf _ ⟨seg, word, hseg, hword, hrebase, rfl⟩
    obtain ⟨seg', word', next, hseg', hword', hdecode⟩ := h.slot hsf hf
    cases hseg.symm.trans hseg'
    cases hword.symm.trans hword'
    rw [decodeOne_rebase hrebase, htarget] at hdecode
    rw [← PointerFormat.shownTarget_eq_iff]
    injection hdecode with hpair
    injection (Prod.mk.inj hpair).1
  · rintro hwords sf hsf f hf a ⟨seg, word, hseg, hword, hrebase, rfl⟩
    obtain ⟨seg', word', next, hseg', hword', hdecode⟩ := h.slot hsf hf
    cases hseg.symm.trans hseg'
    cases hword.symm.trans hword'
    rw [decodeOne_rebase hrebase] at hdecode
    have hshow := hwords sf hsf f hf seg word hseg hword hrebase
    rw [← PointerFormat.shownTarget_eq_iff] at hshow
    rw [← hshow]
    exact (Prod.mk.inj (Option.some.inj hdecode)).1.symm

/-! ## §3. Repointing. -/

/-- A rebase of the old address gets the new one; binds have no address. -/
def Fixup.repoint (oldVaddr newVaddr : Nat) (f : Fixup) : Fixup :=
  match f.target with
  | .rebase targetVaddr => if targetVaddr = oldVaddr then ⟨f.vaddr, .rebase newVaddr⟩ else f
  | .bind _ _ => f

def SegmentFixups.repoint (oldVaddr newVaddr : Nat) (sf : SegmentFixups) : SegmentFixups :=
  { sf with fixups := sf.fixups.map (Fixup.repoint oldVaddr newVaddr) }

/-- The repointed view, with the number of slots that were touched. -/
def ChainedFixups.repointFixup (cf : ChainedFixups) (oldVaddr newVaddr : Nat) :
    ChainedFixups × Nat :=
  ({ cf with segments := cf.segments.map (SegmentFixups.repoint oldVaddr newVaddr) },
    (cf.segments.flatMap SegmentFixups.fixups).countP fun f => f.target = .rebase oldVaddr)

theorem Fixup.repoint_of_target {oldVaddr newVaddr : Nat} {f : Fixup}
    (h : f.target = .rebase oldVaddr) :
    f.repoint oldVaddr newVaddr = ⟨f.vaddr, .rebase newVaddr⟩ := by
  unfold Fixup.repoint
  rw [h]
  exact if_pos rfl

theorem Fixup.repoint_of_ne {oldVaddr newVaddr : Nat} {f : Fixup}
    (h : f.target ≠ .rebase oldVaddr) : f.repoint oldVaddr newVaddr = f := by
  unfold Fixup.repoint
  split
  · next targetVaddr htarget =>
    refine if_neg fun heq => h ?_
    rw [htarget, heq]
  · rfl

@[simp] theorem Fixup.repoint_vaddr (oldVaddr newVaddr : Nat) (f : Fixup) :
    (f.repoint oldVaddr newVaddr).vaddr = f.vaddr := by
  by_cases h : f.target = .rebase oldVaddr
  · rw [Fixup.repoint_of_target h]
  · rw [Fixup.repoint_of_ne h]

theorem Fixup.repoint_fits {format : PointerFormat} {oldVaddr newVaddr : Nat} {f : Fixup}
    (h : f.target.Fits format) : (f.repoint oldVaddr newVaddr).target.Fits format := by
  by_cases htarget : f.target = .rebase oldVaddr
  · rw [Fixup.repoint_of_target htarget]
    trivial
  · rwa [Fixup.repoint_of_ne htarget]

/-- The slots of `sf'` are those of `sf`, and exactly those that the loader resolves
to the old address have the new one instead. -/
def SegmentRepointed (format : PointerFormat) (segments : List MachOSegment) (bytes : List Byte)
    (oldVaddr newVaddr : Nat) (sf sf' : SegmentFixups) : Prop :=
  sf'.segmentIndex = sf.segmentIndex ∧ sf'.pageSize = sf.pageSize
    ∧ List.Forall₂ (fun f f' =>
        (Resolves format segments bytes sf f oldVaddr → f' = ⟨f.vaddr, .rebase newVaddr⟩)
          ∧ (¬ Resolves format segments bytes sf f oldVaddr → f' = f)) sf.fixups sf'.fixups

namespace ChainedFixups

/-- The repoint changes exactly the slots of the old address. -/
def RepointsExactly (cf : ChainedFixups) (segments : List MachOSegment) (bytes : List Byte)
    (oldVaddr newVaddr : Nat) : Prop :=
  List.Forall₂ (SegmentRepointed cf.pointerFormat segments bytes oldVaddr newVaddr)
    cf.segments (cf.repointFixup oldVaddr newVaddr).1.segments

/-- The slots of the old address, in the view `cf'` of the file `out`: each is shown with
the new address, and the loader resolves it to that. -/
def ResolvesAnew (cf cf' : ChainedFixups) (segments : List MachOSegment) (bytes out : List Byte)
    (oldVaddr newVaddr : Nat) : Prop :=
  ∀ sf ∈ cf.segments, ∀ f ∈ sf.fixups,
    Resolves cf.pointerFormat segments bytes sf f oldVaddr →
      ∃ sf' ∈ cf'.segments, sf'.segmentIndex = sf.segmentIndex
        ∧ ∃ f' ∈ sf'.fixups, f'.vaddr = f.vaddr ∧ f'.target = .rebase newVaddr
          ∧ Resolves cf'.pointerFormat segments out sf' f' newVaddr

end ChainedFixups

/-- The new address is one that a word in this segment can hold and show. -/
def PointerFormat.Holds (format : PointerFormat) (loadAddress segBase newVaddr : Nat) : Prop :=
  format.Represents segBase newVaddr
    ∧ format.ShowsWord loadAddress segBase
      (if format.isRelative then newVaddr - segBase else newVaddr)

/-- Each slot of the old address can hold the new one, and is on a page that the stored
count of pages covers. -/
def ChainedFixups.CanRepoint (cf : ChainedFixups) (segments : List MachOSegment)
    (bytes : List Byte) (oldVaddr newVaddr : Nat) : Prop :=
  ∀ sf ∈ cf.segments, ∀ f ∈ sf.fixups,
    Resolves cf.pointerFormat segments bytes sf f oldVaddr →
      ∀ seg, segments[sf.segmentIndex]? = some seg →
        sf.pageOf seg f < sf.pageCount seg % 2 ^ 16
          ∧ cf.pointerFormat.Holds (preferredLoadAddress segments) seg.vmaddr newVaddr

theorem ChainedFixups.ShowsTargets.repointsExactly {cf : ChainedFixups} {blob : FixupsBlob}
    {segments : List MachOSegment} {bytes : List Byte} (hread : cf.WasRead blob bytes segments)
    (h : cf.ShowsTargets segments bytes) (oldVaddr newVaddr : Nat) :
    cf.RepointsExactly segments bytes oldVaddr newVaddr := by
  unfold RepointsExactly repointFixup
  dsimp only
  rw [List.forall₂_map_right_iff, List.forall₂_same]
  intro sf hsf
  refine ⟨rfl, rfl, ?_⟩
  show List.Forall₂ _ sf.fixups (sf.fixups.map _)
  rw [List.forall₂_map_right_iff, List.forall₂_same]
  intro f hf
  refine ⟨fun hold => Fixup.repoint_of_target (h sf hsf f hf _ hold), fun hother => ?_⟩
  refine Fixup.repoint_of_ne fun htarget => hother ?_
  -- What is shown as a rebase is one, and what is shown is its address.
  obtain ⟨seg, word, next, hseg, hword, hdecode⟩ := hread.slot hsf hf
  have hrebase : cf.pointerFormat.IsRebase word := by
    intro hbind
    unfold decodeOne at hdecode
    dsimp only at hdecode
    rw [if_pos hbind, htarget] at hdecode
    split at hdecode
    · cases hdecode
    · split at hdecode <;> cases hdecode
  have hshown := h sf hsf f hf _ ⟨seg, word, hseg, hword, hrebase, rfl⟩
  rw [htarget] at hshown
  injection hshown with hshown
  exact ⟨seg, word, hseg, hword, hrebase, hshown.symm⟩

/-! ## §4. What is written. -/

/-- A slot of a chain has its own word in the file. -/
theorem exists_word_of_mem {format : PointerFormat} {seg : MachOSegment} {fs : List Fixup}
    {words : List (Nat × List Byte)} (h : chainWords format seg fs = some words) {f : Fixup}
    (hf : f ∈ fs) :
    ∃ next word, encodeOne f.target format next seg.vmaddr = some word
      ∧ (slotOffset seg f, leBytes 8 word) ∈ words := by
  induction fs generalizing words with
  | nil => cases hf
  | cons g rest ih =>
    obtain ⟨word, hword, h⟩ := Option.bind_eq_some_iff.mp h
    obtain ⟨later, hlater, h⟩ := Option.bind_eq_some_iff.mp h
    cases h
    obtain rfl | hf := List.mem_cons.mp hf
    · exact ⟨_, word, hword, List.mem_cons_self⟩
    · obtain ⟨next, word', hword', hmem⟩ := ih hlater hf
      exact ⟨next, word', hword', List.mem_cons_of_mem _ hmem⟩

theorem SegmentFixups.Staged.word {format : PointerFormat} {sf : SegmentFixups}
    {seg : MachOSegment} {bytes : List Byte} (h : sf.Staged format seg bytes) {f : Fixup}
    (hf : f ∈ sf.slots) :
    ∃ next word, encodeOne f.target format next seg.vmaddr = some word
      ∧ readLe 8 bytes (slotOffset seg f) = some word := by
  have hon : f ∈ sf.onPage seg (sf.pageOf seg f) := SegmentFixups.mem_onPage.mpr ⟨hf, rfl⟩
  obtain ⟨words, hwords, hread⟩ :=
    h (sf.pageOf seg f) (SegmentFixups.mem_pages.mpr (List.ne_nil_of_mem hon))
  obtain ⟨next, word, hword, hmem⟩ := exists_word_of_mem hwords hon
  have hvalue := hread _ hmem
  rw [leValue_leBytes, Nat.mod_eq_of_lt (encodeOne_lt hword)] at hvalue
  exact ⟨next, word, hword, hvalue⟩

/-- The loader takes a rebase word that was written for an address as that address exactly
if the word can hold and show it. -/
theorem documentedTarget_encodeOne_iff {format : PointerFormat}
    {loadAddress segBase newVaddr next word : Nat}
    (hrepresents : format.Represents segBase newVaddr)
    (h : encodeOne (.rebase newVaddr) format next segBase = some word) :
    format.IsRebase word
      ∧ (format.documentedTarget loadAddress segBase word = newVaddr
        ↔ format.Holds loadAddress segBase newVaddr) := by
  have hword := (Option.some.inj h).symm
  unfold PointerFormat.Holds
  rw [and_iff_right hrepresents]
  unfold PointerFormat.Represents at hrepresents
  -- The field of the next slot ends below the bits that mark binds and authentication.
  have hrebase : format.IsRebase word := by
    unfold PointerFormat.IsRebase
    cases format <;>
      simp only [PointerFormat.isRelative, PointerFormat.nextBits, PointerFormat.isPlain, if_true,
        Bool.false_eq_true, if_false] at hword ⊢ <;> omega
  have hauth : ¬ format.IsAuthenticated word := by
    rintro ⟨hplain, hbit⟩
    have hnext : format.nextBits = 11 := by
      unfold PointerFormat.nextBits
      rw [hplain]
      rfl
    rw [hnext] at hword
    omega
  have hstored : ∀ stored, stored < 2 ^ 36 → ¬ format.IsAuthenticated stored := by
    rintro stored hlt ⟨_, hbit⟩
    omega
  refine ⟨hrebase, ?_⟩
  unfold PointerFormat.documentedTarget PointerFormat.ShowsWord
  rw [if_neg hauth]
  cases format <;>
    simp only [PointerFormat.isRelative, PointerFormat.nextBits, PointerFormat.isPlain, if_true,
      Bool.false_eq_true, if_false] at hword hrepresents ⊢ <;>
    simp only [PointerFormat.targetBase, PointerFormat.targetBits, iff_true]
  · omega
  · omega
  · rw [if_neg (hstored _ hrepresents)]
    omega
  · omega
  · rw [if_neg (hstored _ (by omega))]
    omega
  · rw [if_neg (hstored _ (by omega))]
    omega

theorem ChainedFixups.aligned_of_serialize {cf : ChainedFixups} {segments : List MachOSegment}
    {room : Nat} {blob : FixupsBlob} (h : cf.serialize segments room = some blob)
    {sf : SegmentFixups} (hsf : sf ∈ cf.segments) {f : Fixup} (hf : f ∈ sf.fixups) :
    f.vaddr % cf.pointerFormat.stride = 0 := by
  obtain ⟨starts, hstarts, _⟩ := Option.bind_eq_some_iff.mp h
  obtain ⟨_, _, hone⟩ := exists_mem_of_mapM hstarts hsf
  obtain ⟨seg, _, hone⟩ := Option.bind_eq_some_iff.mp hone
  obtain ⟨haccepted, _⟩ := Option.ite_none_right_eq_some.mp hone
  have hslot := List.all_eq_true.mp haccepted f hf
  unfold slotAccepted at hslot
  rw [Bool.and_eq_true_iff, Bool.and_eq_true_iff, Bool.and_eq_true_iff] at hslot
  exact eq_of_beq hslot.1.1.1

/-- Two slots of one place are one slot. -/
theorem ChainedFixups.SlotsApart.unique {cf : ChainedFixups} {segments : List MachOSegment}
    (h : cf.SlotsApart segments) {sf : SegmentFixups} (hsf : sf ∈ cf.segments)
    {seg : MachOSegment} (hseg : segments[sf.segmentIndex]? = some seg) :
    ∀ f ∈ sf.fixups, ∀ g ∈ sf.fixups, f.vaddr = g.vaddr → f = g := by
  intro f hf g hg heq
  obtain ⟨_, hsame⟩ | hfar := h sf hsf sf hsf seg seg hseg hseg f hf g hg
  · exact hsame
  · unfold Apart slotOffset at hfar
    omega

section Repointed

variable {cf : ChainedFixups} {blob blob' : FixupsBlob} {bytes out : List Byte}
  {segments : List MachOSegment} {words : List (Nat × List Byte)}
  {oldVaddr newVaddr room : Nat}

theorem mem_repointFixup {sf' : SegmentFixups} :
    sf' ∈ (cf.repointFixup oldVaddr newVaddr).1.segments
      ↔ ∃ sf ∈ cf.segments, sf.repoint oldVaddr newVaddr = sf' := List.mem_map

theorem SegmentFixups.mem_repoint {sf : SegmentFixups} {f' : Fixup} :
    f' ∈ (sf.repoint oldVaddr newVaddr).fixups
      ↔ ∃ f ∈ sf.fixups, f.repoint oldVaddr newVaddr = f' := List.mem_map

theorem slotOffset_repoint (seg : MachOSegment) (f : Fixup) :
    slotOffset seg (f.repoint oldVaddr newVaddr) = slotOffset seg f := by
  unfold slotOffset
  rw [Fixup.repoint_vaddr]

theorem ChainedFixups.SlotsApart.repoint (h : cf.SlotsApart segments) :
    (cf.repointFixup oldVaddr newVaddr).1.SlotsApart segments := by
  intro sf' hsf' tf' htf' seg seg' hseg hseg' f' hf' g' hg'
  obtain ⟨sf, hsf, rfl⟩ := mem_repointFixup.mp hsf'
  obtain ⟨tf, htf, rfl⟩ := mem_repointFixup.mp htf'
  obtain ⟨f, hf, rfl⟩ := SegmentFixups.mem_repoint.mp hf'
  obtain ⟨g, hg, rfl⟩ := SegmentFixups.mem_repoint.mp hg'
  rw [slotOffset_repoint, slotOffset_repoint]
  obtain ⟨rfl, rfl⟩ | hfar := h sf hsf tf htf seg seg' hseg hseg' f hf g hg
  · exact .inl ⟨rfl, rfl⟩
  · exact .inr hfar

/-- The file after the repointed view was written into it. -/
theorem repointFixup_written (hread : cf.WasRead blob bytes segments)
    (hapart : cf.SlotsApart segments)
    (hserialize : (cf.repointFixup oldVaddr newVaddr).1.serialize segments room = some blob')
    (hwords : (cf.repointFixup oldVaddr newVaddr).1.slotBytes segments = some words)
    (hpatch : patchAll bytes words = some out) :
    (cf.repointFixup oldVaddr newVaddr).1.Written segments segments out := by
  have hslot : ∀ sf ∈ (cf.repointFixup oldVaddr newVaddr).1.segments, ∀ seg,
      segments[sf.segmentIndex]? = some seg → ∀ f ∈ sf.fixups,
        f.target.Fits cf.pointerFormat
          ∧ seg.vmaddr ≤ f.vaddr ∧ f.vaddr - seg.vmaddr + 8 ≤ seg.filesize := by
    intro sf' hsf' seg hseg f' hf'
    obtain ⟨sf, hsf, rfl⟩ := mem_repointFixup.mp hsf'
    obtain ⟨f, hf, rfl⟩ := SegmentFixups.mem_repoint.mp hf'
    obtain ⟨_, seg', hseg', hslots⟩ := hread.segment sf hsf
    cases hseg.symm.trans hseg'
    obtain ⟨word, next, _, hdecode⟩ := (hslots f hf).word
    rw [Fixup.repoint_vaddr]
    exact ⟨Fixup.repoint_fits (decodeOne_fits hdecode), (hslots f hf).base, (hslots f hf).inside⟩
  refine ⟨?_, ?_, ?_, ?_, ?_⟩
  · intro hnil
    exact hread.nonempty (List.map_eq_nil_iff.mp hnil)
  · exact List.pairwise_map.mpr hread.ordered
  · intro sf _ seg hseg
    exact ⟨seg, hseg, fun _ => rfl⟩
  · intro sf hsf seg hseg
    refine ⟨fun f hf => (hslot sf hsf seg hseg f hf).1, fun f hf => (hslot sf hsf seg hseg f hf).2,
      fun f hf => ChainedFixups.aligned_of_serialize hserialize hsf hf, fun hne => ?_⟩
    refine ⟨pageSize_pos_of_slotBytes hwords hsf hne, ?_⟩
    obtain ⟨sf₀, hsf₀, rfl⟩ := mem_repointFixup.mp hsf
    exact (hread.segment sf₀ hsf₀).1
  · intro sf hsf seg hseg
    exact staged_of_patchAll hwords hpatch hapart.repoint.separate
      (fun sf hsf seg hseg f hf => (hslot sf hsf seg hseg f hf).2.1) hsf hseg

/-! ## §5. What is read again. -/

/-- A slot is read again if its page is covered, as what its word can hold. -/
theorem reread_slot_iff {cf' : ChainedFixups} {imports : ImportsBlob}
    (hordered : cf.segments.Pairwise fun s t => s.segmentIndex < t.segmentIndex)
    (h : cf.reread segments imports = some cf') {sf : SegmentFixups} (hsf : sf ∈ cf.segments)
    {seg : MachOSegment} (hseg : segments[sf.segmentIndex]? = some seg)
    (hunique : ∀ f ∈ sf.fixups, ∀ g ∈ sf.fixups, f.vaddr = g.vaddr → f = g)
    {f f' : Fixup} (hf : f ∈ sf.fixups) :
    (∃ sf' ∈ cf'.segments, sf'.segmentIndex = sf.segmentIndex ∧ f' ∈ sf'.fixups
        ∧ f'.vaddr = f.vaddr)
      ↔ sf.pageOf seg f < sf.pageCount seg % 2 ^ 16
        ∧ f.stored cf.pointerFormat seg.vmaddr cf'.imports.length = some f' := by
  obtain ⟨decoded, _, h⟩ := Option.bind_eq_some_iff.mp h
  obtain ⟨walked, hwalked, h⟩ := Option.bind_eq_some_iff.mp h
  cases h
  show (∃ sf' ∈ walked, _) ↔ _ ∧ f.stored cf.pointerFormat seg.vmaddr decoded.length = some f'
  constructor
  · rintro ⟨sf', hsf', hindex, hf', hvaddr⟩
    obtain ⟨tf, htf, hreread⟩ := exists_of_mem_mapM hwalked hsf'
    obtain ⟨seg', hseg', hreread⟩ := Option.bind_eq_some_iff.mp hreread
    obtain ⟨fixups, hfixups, hreread⟩ := Option.bind_eq_some_iff.mp hreread
    cases hreread
    -- Indices are distinct, so this is the segment itself.
    have hnodup : (cf.segments.map SegmentFixups.segmentIndex).Nodup :=
      List.pairwise_map.mpr (hordered.imp Nat.ne_of_lt)
    obtain rfl : tf = sf := List.inj_on_of_nodup_map hnodup htf hsf hindex
    cases hseg.symm.trans hseg'
    obtain ⟨g, hg, hstored⟩ := exists_of_mem_mapM hfixups hf'
    obtain ⟨hslot, hpage⟩ := List.mem_filter.mp hg
    have hgf : g = f := by
      refine hunique g (SegmentFixups.mem_fixups_of_mem_slots hslot) f hf ?_
      rw [← hvaddr, Fixup.stored_vaddr hstored]
    subst hgf
    exact ⟨of_decide_eq_true hpage, hstored⟩
  · rintro ⟨hpage, hstored⟩
    obtain ⟨sf', hsf', hreread⟩ := exists_mem_of_mapM hwalked hsf
    obtain ⟨seg', hseg', hreread⟩ := Option.bind_eq_some_iff.mp hreread
    cases hseg.symm.trans hseg'
    obtain ⟨fixups, hfixups, hreread⟩ := Option.bind_eq_some_iff.mp hreread
    cases hreread
    have hreached : f ∈ sf.reached seg :=
      List.mem_filter.mpr ⟨(SegmentFixups.mem_slots hunique).mpr hf, decide_eq_true hpage⟩
    obtain ⟨g, hg, hstored'⟩ := exists_mem_of_mapM hfixups hreached
    cases hstored.symm.trans hstored'
    exact ⟨_, hsf', rfl, hg, Fixup.stored_vaddr hstored⟩

theorem SegmentFixups.pageCount_repoint (sf : SegmentFixups) (seg : MachOSegment) :
    (sf.repoint oldVaddr newVaddr).pageCount seg = sf.pageCount seg := by
  unfold SegmentFixups.pageCount SegmentFixups.repoint
  dsimp only
  rw [List.isEmpty_map]

theorem SegmentFixups.pageOf_repoint (sf : SegmentFixups) (seg : MachOSegment) (f : Fixup) :
    (sf.repoint oldVaddr newVaddr).pageOf seg (f.repoint oldVaddr newVaddr)
      = sf.pageOf seg f := by
  unfold SegmentFixups.pageOf
  rw [Fixup.repoint_vaddr]
  rfl

theorem format_of_reread {cf' : ChainedFixups} {imports : ImportsBlob}
    (h : cf.reread segments imports = some cf') : cf'.pointerFormat = cf.pointerFormat := by
  obtain ⟨_, _, h⟩ := Option.bind_eq_some_iff.mp h
  obtain ⟨_, _, h⟩ := Option.bind_eq_some_iff.mp h
  cases h
  rfl

/-- A slot of the old address, as it is read again. -/
theorem repointed_reread_iff (hapart : cf.SlotsApart segments)
    (hwritten : (cf.repointFixup oldVaddr newVaddr).1.Written segments segments out)
    {cf' : ChainedFixups} {imports : ImportsBlob}
    (hreread : (cf.repointFixup oldVaddr newVaddr).1.reread segments imports = some cf')
    {sf : SegmentFixups} (hsf : sf ∈ cf.segments) {seg : MachOSegment}
    (hseg : segments[sf.segmentIndex]? = some seg) {f : Fixup} (hf : f ∈ sf.fixups)
    (htarget : f.target = .rebase oldVaddr) :
    (∃ sf' ∈ cf'.segments, sf'.segmentIndex = sf.segmentIndex
        ∧ ∃ f' ∈ sf'.fixups, f'.vaddr = f.vaddr ∧ f'.target = .rebase newVaddr
          ∧ Resolves cf'.pointerFormat segments out sf' f' newVaddr)
      ↔ sf.pageOf seg f < sf.pageCount seg % 2 ^ 16
        ∧ cf.pointerFormat.Holds (preferredLoadAddress segments) seg.vmaddr newVaddr := by
  have hsf' : sf.repoint oldVaddr newVaddr ∈ (cf.repointFixup oldVaddr newVaddr).1.segments :=
    mem_repointFixup.mpr ⟨sf, hsf, rfl⟩
  have hf' : f.repoint oldVaddr newVaddr ∈ (sf.repoint oldVaddr newVaddr).fixups :=
    SegmentFixups.mem_repoint.mpr ⟨f, hf, rfl⟩
  have hunique := (ChainedFixups.SlotsApart.repoint hapart).unique hsf' hseg
  have hformat : cf'.pointerFormat = cf.pointerFormat :=
    (format_of_reread hreread :)
  have hslot := fun g => @reread_slot_iff _ _ _ _ hwritten.ordered hreread _ hsf' _ hseg hunique
    _ g hf'
  -- The word that was written for the slot.
  obtain ⟨next, word, hword, hvalue⟩ :=
    (hwritten.staged _ hsf' seg hseg).word ((SegmentFixups.mem_slots hunique).mpr hf')
  simp only [SegmentFixups.pageOf_repoint, SegmentFixups.pageCount_repoint,
    Fixup.repoint_vaddr] at hslot
  rw [slotOffset_repoint] at hvalue
  rw [Fixup.repoint_of_target htarget] at hword hslot
  constructor
  · rintro ⟨sf', hmem, hindex, f', hf', hvaddr, ht, seg', word', hseg', hvalue', _, hdoc⟩
    obtain ⟨hpage, hstored⟩ := (hslot f').mp ⟨sf', hmem, hindex, hf', hvaddr⟩
    rw [hindex] at hseg'
    cases hseg.symm.trans hseg'
    have hoffset : slotOffset seg f' = slotOffset seg f := by
      unfold slotOffset
      rw [hvaddr]
    rw [hoffset] at hvalue'
    cases hvalue.symm.trans hvalue'
    have hsame : cf.pointerFormat.storedTarget seg.vmaddr newVaddr = newVaddr := by
      cases hstored
      exact FixupTarget.rebase.inj ht
    rw [hformat] at hdoc
    exact ⟨hpage, (documentedTarget_encodeOne_iff
      (PointerFormat.storedTarget_eq_iff.mp hsame) hword).2.mp hdoc⟩
  · rintro ⟨hpage, hholds⟩
    have hsame := PointerFormat.storedTarget_eq_iff.mpr hholds.1
    have hstored : (Fixup.mk f.vaddr (.rebase newVaddr)).stored cf.pointerFormat seg.vmaddr
        cf'.imports.length = some ⟨f.vaddr, .rebase newVaddr⟩ := by
      show some (Fixup.mk f.vaddr (.rebase (cf.pointerFormat.storedTarget _ _))) = _
      rw [hsame]
    obtain ⟨sf', hmem, hindex, hf', hvaddr⟩ := (hslot _).mpr ⟨hpage, hstored⟩
    obtain ⟨hrebase, hdoc⟩ := documentedTarget_encodeOne_iff hholds.1 hword
    refine ⟨sf', hmem, hindex, _, hf', hvaddr, rfl, seg, word, ?_, hvalue, ?_, ?_⟩
    · rw [hindex]
      exact hseg
    · rw [hformat]
      exact hrebase
    · rw [hformat]
      exact hdoc.mpr hholds

end Repointed

/-- **The view is the loader's for the words that show their addresses.**  Then, and if
each slot of the old address can hold the new one, a repoint changes exactly the slots of
the old address, and a fresh read after the write resolves them to the new one. -/
theorem loaderView_iff {cf : ChainedFixups} {blob : FixupsBlob} {bytes : List Byte}
    {segments : List MachOSegment} (hread : ChainedFixups.read blob bytes segments = some cf) :
    (cf.ShowsTargets segments bytes ↔ cf.WordsShow segments bytes)
      ∧ ∀ oldVaddr newVaddr room blob' words out cf', cf.SlotsApart segments →
        (cf.repointFixup oldVaddr newVaddr).1.serialize segments room = some blob' →
        (cf.repointFixup oldVaddr newVaddr).1.slotBytes segments = some words →
        patchAll bytes words = some out → ChainedFixups.read blob' out segments = some cf' →
        (cf.ShowsTargets segments bytes ∧ cf.RepointsExactly segments bytes oldVaddr newVaddr
            ∧ cf.ResolvesAnew cf' segments bytes out oldVaddr newVaddr
          ↔ cf.WordsShow segments bytes ∧ cf.CanRepoint segments bytes oldVaddr newVaddr) := by
  have hread := ChainedFixups.wasRead hread
  refine ⟨hread.showsTargets_iff, ?_⟩
  intro oldVaddr newVaddr room blob' words out cf' hapart hserialize hwords hpatch hreread
  have hwritten := repointFixup_written hread hapart hserialize hwords hpatch
  rw [read_serialize hwritten hserialize] at hreread
  rw [← hread.showsTargets_iff]
  refine and_congr_right fun hshows => ?_
  rw [and_iff_right (hshows.repointsExactly hread oldVaddr newVaddr)]
  unfold ChainedFixups.ResolvesAnew ChainedFixups.CanRepoint
  refine forall_congr' fun sf => forall_congr' fun hsf => forall_congr' fun f =>
    forall_congr' fun hf => forall_congr' fun hold => ?_
  have htarget := hshows sf hsf f hf oldVaddr hold
  obtain ⟨_, seg, hseg, _⟩ := hread.segment sf hsf
  rw [repointed_reread_iff hapart hwritten hreread hsf hseg hf htarget, hseg]
  constructor
  · rintro h seg' heq
    cases heq
    exact h
  · intro h
    exact h seg rfl

/-! ## §6. Two slots of `__DATA`. -/

def pairSegments : List MachOSegment :=
  [⟨"__TEXT", 2 ^ 32, 16, 0, 16⟩, ⟨"__DATA", 2 ^ 32 + 16, 16, 16, 16⟩]

/-- The first slot leads to the second. -/
def pairBytes (target : Nat) : List Byte :=
  List.replicate 16 0 ++ leBytes 8 (target + 2 * 2 ^ 51) ++ leBytes 8 (target + 8)

def pairBlob (format : PointerFormat) : FixupsBlob :=
  ⟨64, ⟨1, 0, 0, []⟩, [none, some ⟨16, format, [0]⟩]⟩

/-- The view of the two slots. -/
def pairFixups (format : PointerFormat) (target : Nat) : ChainedFixups :=
  ⟨format, [], [⟨1, 16, [⟨2 ^ 32 + 16, .rebase target⟩, ⟨2 ^ 32 + 24, .rebase (target + 8)⟩]⟩],
    ⟨1, 0, 0, []⟩⟩

theorem pairFixups_apart : (pairFixups .ptr64 (2 ^ 32)).SlotsApart pairSegments := by
  intro sf hsf tf htf seg seg' hseg hseg' f hf g hg
  obtain rfl := List.mem_singleton.mp hsf
  obtain rfl := List.mem_singleton.mp htf
  cases hseg
  cases hseg'
  unfold Apart slotOffset
  simp only [List.mem_cons, List.not_mem_nil, or_false] at hf hg
  obtain rfl | rfl := hf <;> obtain rfl | rfl := hg
  · exact .inl ⟨rfl, rfl⟩
  · exact .inr (by decide)
  · exact .inr (by decide)
  · exact .inl ⟨rfl, rfl⟩

/-- The view after a repoint of the first slot to 48, a write and a fresh read. -/
def pairRepointed : ChainedFixups :=
  ⟨.ptr64, [], [⟨1, 16, [⟨2 ^ 32 + 16, .rebase 48⟩, ⟨2 ^ 32 + 24, .rebase (2 ^ 32 + 8)⟩]⟩],
    ⟨1, 0, 0, [0, 0, 0, 0]⟩⟩

def pairOut : List Byte :=
  List.replicate 16 0 ++ leBytes 8 (48 + 2 * 2 ^ 51) ++ leBytes 8 (2 ^ 32 + 8)

theorem pairFixups_repointed :
    (pairFixups .ptr64 (2 ^ 32)).ShowsTargets pairSegments (pairBytes (2 ^ 32))
        ∧ (pairFixups .ptr64 (2 ^ 32)).RepointsExactly pairSegments (pairBytes (2 ^ 32)) (2 ^ 32) 48
        ∧ (pairFixups .ptr64 (2 ^ 32)).ResolvesAnew pairRepointed pairSegments
          (pairBytes (2 ^ 32)) pairOut (2 ^ 32) 48
      ↔ (pairFixups .ptr64 (2 ^ 32)).WordsShow pairSegments (pairBytes (2 ^ 32))
        ∧ (pairFixups .ptr64 (2 ^ 32)).CanRepoint pairSegments (pairBytes (2 ^ 32)) (2 ^ 32) 48 :=
  (@loaderView_iff _ (pairBlob .ptr64) _ _ (by decide)).2 _ _ 64
    ⟨72, ⟨1, 0, 0, [0, 0, 0, 0]⟩, [none, some ⟨16, .ptr64, [0]⟩]⟩
    [(16, leBytes 8 (48 + 2 * 2 ^ 51)), (24, leBytes 8 (2 ^ 32 + 8))] _ _ pairFixups_apart
    (by decide) (by decide) (by decide) (by decide)

/-- An executable at `2^32` whose slot holds the offset 16: the view shows 16. -/
theorem offsetFixups_misread :
    ChainedFixups.read (pairBlob .ptr64Offset) (pairBytes 16) pairSegments
        = some (pairFixups .ptr64Offset 16)
      ∧ ¬ (pairFixups .ptr64Offset 16).ShowsTargets pairSegments (pairBytes 16) := by
  refine ⟨by decide, fun h => ?_⟩
  have hslot : Resolves .ptr64Offset pairSegments (pairBytes 16)
      ⟨1, 16, [⟨2 ^ 32 + 16, .rebase 16⟩, ⟨2 ^ 32 + 24, .rebase 24⟩]⟩ ⟨2 ^ 32 + 16, .rebase 16⟩
      (2 ^ 32 + 16) :=
    ⟨⟨"__DATA", 2 ^ 32 + 16, 16, 16, 16⟩, 16 + 2 * 2 ^ 51, rfl, by decide, by decide, by decide⟩
  have hshown := h _ List.mem_cons_self _ List.mem_cons_self _ hslot
  exact absurd hshown (by decide)

end Armv8Encode.MachO

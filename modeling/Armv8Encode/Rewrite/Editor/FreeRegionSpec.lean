/-
  Armv8Encode.Rewrite.Editor.FreeRegionSpec — what the offered padding is free of.

  A gap of a segment runs from the segment's start, or from a section's end,
  to the next section in the file or to the segment's end.  `gapsFrom` offers
  every gap except one that starts at the segment's first byte.  Where it
  starts is all that is looked at, so a gap is offered

    * when the segment has no section, over the headers it maps;
    * behind an empty section, over the section around it;

  and a gap at the start of a segment that maps no headers is lost.

  Main results:
    * `gapsFrom_clear_iff` — the offered regions overlap nothing exactly when
      every offered gap starts at an unused byte;
    * `gapsFrom_cover_iff` — nothing is lost exactly when what a skipped gap
      holds is kept for something else;
    * `regionsAreFree_iff` — both, for every segment of a layout.
-/
import Armv8Encode.Rewrite.Editor.FreeRegions

namespace Armv8Encode.MachO

/-! ## §1. Bytes of sections, regions and headers. -/

/-- The section's bytes in the file hold a file offset. -/
def MachOSection.Holds (s : MachOSection) (x : Nat) : Prop :=
  s.fileOffset ≤ x ∧ x < s.fileOffset + s.size

def MachOFreeRegion.Holds (r : MachOFreeRegion) (x : Nat) : Prop :=
  r.fileOffset ≤ x ∧ x < r.fileOffset + r.size

def MachOSegment.fileEnd (seg : MachOSegment) : Nat := seg.fileoff + seg.filesize

/-- What a segment keeps for the headers: the header and the load commands,
and, where the segment maps them, what stands before its sections. -/
def HeaderArea (seg : MachOSegment) (headersEnd : Nat) (ss : List MachOSection) (x : Nat) : Prop :=
  x < headersEnd ∨ (seg.fileoff < headersEnd ∧ ∀ s ∈ ss, x < s.fileOffset)

/-- No header and no section stands at a file offset. -/
def Unused (headersEnd : Nat) (ss : List MachOSection) (x : Nat) : Prop :=
  headersEnd ≤ x ∧ ∀ s ∈ ss, ¬ s.Holds x

/-- Sections with bytes in the file, pairwise disjoint and inside their
segment, at the segment's distance between address and offset.  That distance
is the same for all, so they are disjoint in memory too. -/
structure WellPlaced (seg : MachOSegment) (ss : List MachOSection) : Prop where
  inside : ∀ s ∈ ss, seg.fileoff ≤ s.fileOffset ∧ s.fileOffset + s.size ≤ seg.fileEnd
  skew : ∀ s ∈ ss, s.vaddr + seg.fileoff = s.fileOffset + seg.vmaddr
  disjoint : ss.Pairwise fun a b => ∀ x, a.Holds x → ¬ b.Holds x

/-- Regions inside the segment, at its distance between address and offset,
that overlap nothing and miss nothing. -/
structure FreeInside (seg : MachOSegment) (headersEnd : Nat) (ss : List MachOSection)
    (regions : List MachOFreeRegion) : Prop where
  inside : ∀ r ∈ regions, seg.fileoff ≤ r.fileOffset ∧ r.fileOffset + r.size ≤ seg.fileEnd
  skew : ∀ r ∈ regions, r.vaddr + seg.fileoff = r.fileOffset + seg.vmaddr
  clear : ∀ r ∈ regions, ∀ x, r.Holds x → Unused headersEnd ss x
  disjoint : regions.Pairwise fun a b => ∀ x, a.Holds x → ¬ b.Holds x
  covers : ∀ x, seg.fileoff ≤ x → x < seg.fileEnd →
    (∃ r ∈ regions, r.Holds x) ∨ (∃ s ∈ ss, s.Holds x) ∨ HeaderArea seg headersEnd ss x

/-! ## §2. What holds of every walk. -/

theorem gapsFrom_cons_gap {seg : MachOSegment} {s : MachOSection} {rest : List MachOSection}
    {cursorFile cursorVaddr : Nat} (h : cursorFile < s.fileOffset ∧ seg.fileoff < cursorFile) :
    gapsFrom seg (s :: rest) cursorFile cursorVaddr =
      ⟨cursorVaddr, cursorFile, s.fileOffset - cursorFile, seg.name⟩ ::
        gapsFrom seg rest (s.fileOffset + s.size) (s.vaddr + s.size) :=
  if_pos h

theorem gapsFrom_cons_skip {seg : MachOSegment} {s : MachOSection} {rest : List MachOSection}
    {cursorFile cursorVaddr : Nat} (h : ¬ (cursorFile < s.fileOffset ∧ seg.fileoff < cursorFile)) :
    gapsFrom seg (s :: rest) cursorFile cursorVaddr =
      gapsFrom seg rest (s.fileOffset + s.size) (s.vaddr + s.size) :=
  if_neg h

section Walk

variable {seg : MachOSegment} {ss : List MachOSection} (cursorFile cursorVaddr : Nat)

/-- A region starts no earlier than what the cursor still has before it. -/
theorem gapsFrom_start {least : Nat} (hcursor : least ≤ cursorFile)
    (hrest : ∀ s ∈ ss, least ≤ s.fileOffset) :
    ∀ r ∈ gapsFrom seg ss cursorFile cursorVaddr, least ≤ r.fileOffset := by
  induction ss generalizing cursorFile cursorVaddr with
  | nil =>
    intro r hr
    unfold gapsFrom at hr
    split at hr
    · obtain rfl := List.mem_singleton.mp hr
      exact hcursor
    · cases hr
  | cons s rest ih =>
    have hs := hrest s List.mem_cons_self
    have hlater := ih (s.fileOffset + s.size) (s.vaddr + s.size)
      (by omega) fun t ht => hrest t (List.mem_cons_of_mem _ ht)
    intro r hr
    unfold gapsFrom at hr
    split at hr
    · rcases List.mem_cons.mp hr with rfl | hr
      · exact hcursor
      · exact hlater r hr
    · exact hlater r hr

theorem gapsFrom_inside (hcursor : seg.fileoff ≤ cursorFile)
    (hss : ∀ s ∈ ss, seg.fileoff ≤ s.fileOffset ∧ s.fileOffset + s.size ≤ seg.fileEnd) :
    ∀ r ∈ gapsFrom seg ss cursorFile cursorVaddr,
      seg.fileoff ≤ r.fileOffset ∧ r.fileOffset + r.size ≤ seg.fileEnd := by
  unfold MachOSegment.fileEnd at hss ⊢
  induction ss generalizing cursorFile cursorVaddr with
  | nil =>
    intro r hr
    unfold gapsFrom at hr
    split at hr
    · obtain rfl := List.mem_singleton.mp hr
      show seg.fileoff ≤ cursorFile ∧
        cursorFile + (seg.fileoff + seg.filesize - cursorFile) ≤ seg.fileoff + seg.filesize
      omega
    · cases hr
  | cons s rest ih =>
    obtain ⟨hstart, hend⟩ := hss s List.mem_cons_self
    have hlater := ih (s.fileOffset + s.size) (s.vaddr + s.size)
      (by omega) fun t ht => hss t (List.mem_cons_of_mem _ ht)
    intro r hr
    unfold gapsFrom at hr
    split at hr
    · rcases List.mem_cons.mp hr with rfl | hr
      · show seg.fileoff ≤ cursorFile ∧
          cursorFile + (s.fileOffset - cursorFile) ≤ seg.fileoff + seg.filesize
        omega
      · exact hlater r hr
    · exact hlater r hr

theorem gapsFrom_skew (hcursor : cursorVaddr + seg.fileoff = cursorFile + seg.vmaddr)
    (hss : ∀ s ∈ ss, s.vaddr + seg.fileoff = s.fileOffset + seg.vmaddr) :
    ∀ r ∈ gapsFrom seg ss cursorFile cursorVaddr,
      r.vaddr + seg.fileoff = r.fileOffset + seg.vmaddr := by
  induction ss generalizing cursorFile cursorVaddr with
  | nil =>
    intro r hr
    unfold gapsFrom at hr
    split at hr
    · obtain rfl := List.mem_singleton.mp hr
      exact hcursor
    · cases hr
  | cons s rest ih =>
    have hs := hss s List.mem_cons_self
    have hlater := ih (s.fileOffset + s.size) (s.vaddr + s.size)
      (by omega) fun t ht => hss t (List.mem_cons_of_mem _ ht)
    intro r hr
    unfold gapsFrom at hr
    split at hr
    · rcases List.mem_cons.mp hr with rfl | hr
      · exact hcursor
      · exact hlater r hr
    · exact hlater r hr

/-- Sections by file offset keep the regions between them apart, wherever the
cursor stands. -/
theorem gapsFrom_disjoint (hsorted : ss.Pairwise fun a b => a.fileOffset ≤ b.fileOffset) :
    (gapsFrom seg ss cursorFile cursorVaddr).Pairwise fun a b => ∀ x, a.Holds x → ¬ b.Holds x := by
  induction ss generalizing cursorFile cursorVaddr with
  | nil =>
    unfold gapsFrom
    split
    · exact List.pairwise_singleton _ _
    · exact .nil
  | cons s rest ih =>
    obtain ⟨hfirst, hrest⟩ := List.pairwise_cons.mp hsorted
    unfold gapsFrom
    split
    · refine List.pairwise_cons.mpr ⟨fun r hr x hgap hx => ?_, ih _ _ hrest⟩
      have hstart := gapsFrom_start _ _ (Nat.le_add_right s.fileOffset s.size) hfirst r hr
      unfold MachOFreeRegion.Holds at hgap hx
      simp only at hgap
      omega
    · exact ih _ _ hrest

end Walk

/-! ## §3. Where a gap starts. -/

/-- Every gap from the cursor on, except one at the segment's first byte that
has a section behind it, starts at an unused byte. -/
def StartsUnused (seg : MachOSegment) (headersEnd : Nat) (all : List MachOSection) :
    List MachOSection → Nat → Prop
  | [], cursor => cursor < seg.fileEnd → Unused headersEnd all cursor
  | s :: rest, cursor =>
    (seg.fileoff < cursor → cursor < s.fileOffset → Unused headersEnd all cursor) ∧
      StartsUnused seg headersEnd all rest (s.fileOffset + s.size)

/-- What a gap at the segment's first byte holds, if a section is behind it,
is kept for the headers or belongs to a section. -/
def StartKept (seg : MachOSegment) (headersEnd : Nat) (all : List MachOSection) :
    List MachOSection → Nat → Prop
  | [], _ => True
  | s :: rest, cursor =>
    (cursor = seg.fileoff → ∀ x, cursor ≤ x → x < s.fileOffset →
        (∃ t ∈ all, t.Holds x) ∨ HeaderArea seg headersEnd all x) ∧
      StartKept seg headersEnd all rest (s.fileOffset + s.size)

/-- A gap with sections only before its start and behind its end is unused
when its first byte is. -/
theorem unused_gap (headersEnd : Nat) (all : List MachOSection) (cursorFile : Nat) {size : Nat}
    (hsize : 0 < size)
    (hsides : ∀ s ∈ all, s.fileOffset ≤ cursorFile ∨ cursorFile + size ≤ s.fileOffset) :
    (∀ x, cursorFile ≤ x ∧ x < cursorFile + size → Unused headersEnd all x) ↔
      Unused headersEnd all cursorFile := by
  constructor
  · intro h
    exact h cursorFile ⟨Nat.le_refl _, by omega⟩
  · intro h x hx
    refine ⟨Nat.le_trans h.1 hx.1, fun s hs hholds => ?_⟩
    have hnot := h.2 s hs
    have hside := hsides s hs
    unfold MachOSection.Holds at hnot hholds
    omega

section Gaps

variable {seg : MachOSegment} {ss : List MachOSection} (headersEnd : Nat) (all : List MachOSection)
  (cursorFile cursorVaddr : Nat)

theorem gapsFrom_clear_iff (hcursor : seg.fileoff ≤ cursorFile)
    (hsorted : ss.Pairwise fun a b => a.fileOffset ≤ b.fileOffset)
    (hinside : ∀ s ∈ ss, seg.fileoff ≤ s.fileOffset)
    (hall : ∀ s ∈ all, s ∈ ss ∨ s.fileOffset ≤ cursorFile ∧ ∀ t ∈ ss, s.fileOffset ≤ t.fileOffset) :
    (∀ r ∈ gapsFrom seg ss cursorFile cursorVaddr, ∀ x, r.Holds x → Unused headersEnd all x) ↔
      StartsUnused seg headersEnd all ss cursorFile := by
  induction ss generalizing cursorFile cursorVaddr with
  | nil =>
    unfold gapsFrom StartsUnused MachOSegment.fileEnd
    by_cases hlt : cursorFile < seg.fileoff + seg.filesize
    · have hgap := unused_gap headersEnd all cursorFile
        (show 0 < seg.fileoff + seg.filesize - cursorFile by omega) fun s hs =>
          .inl ((hall s hs).resolve_left (by simp)).1
      rw [if_pos hlt, ← hgap]
      exact ⟨fun h _ => h _ (List.mem_singleton_self _), fun h r hr => by
        obtain rfl := List.mem_singleton.mp hr
        exact h hlt⟩
    · rw [if_neg hlt]
      exact ⟨fun _ h => absurd h hlt, fun _ r hr => by cases hr⟩
  | cons s rest ih =>
    obtain ⟨hfirst, hrest⟩ := List.pairwise_cons.mp hsorted
    have hs := hinside s List.mem_cons_self
    have hlater := ih (s.fileOffset + s.size) (s.vaddr + s.size)
      (by omega) hrest (fun t ht => hinside t (List.mem_cons_of_mem _ ht)) fun t ht => by
        rcases hall t ht with hmem | ⟨hle, hbefore⟩
        · rcases List.mem_cons.mp hmem with rfl | hmem
          · exact .inr ⟨by omega, hfirst⟩
          · exact .inl hmem
        · have := hbefore s List.mem_cons_self
          exact .inr ⟨by omega, fun u hu => hbefore u (List.mem_cons_of_mem _ hu)⟩
    unfold StartsUnused
    by_cases hgap : cursorFile < s.fileOffset ∧ seg.fileoff < cursorFile
    · have hfree := unused_gap headersEnd all cursorFile
        (show 0 < s.fileOffset - cursorFile by omega) fun t ht => by
          rcases hall t ht with hmem | ⟨hle, -⟩
          · rcases List.mem_cons.mp hmem with rfl | hmem
            · exact .inr (by omega)
            · have := hfirst t hmem
              exact .inr (by omega)
          · exact .inl hle
      rw [gapsFrom_cons_gap hgap, List.forall_mem_cons, hlater]
      exact and_congr_left fun _ => ⟨fun h _ _ => hfree.mp h, fun h => hfree.mpr (h hgap.2 hgap.1)⟩
    · rw [gapsFrom_cons_skip hgap, hlater]
      exact ⟨fun h => ⟨fun hlo hhi => absurd ⟨hhi, hlo⟩ hgap, h⟩, And.right⟩

theorem gapsFrom_cover_iff (hcursor : seg.fileoff ≤ cursorFile)
    (hsorted : ss.Pairwise fun a b => a.fileOffset ≤ b.fileOffset)
    (hinside : ∀ s ∈ ss, seg.fileoff ≤ s.fileOffset ∧ s.fileOffset + s.size ≤ seg.fileEnd)
    (hall : ∀ s ∈ ss, s ∈ all)
    (hbehind : ∀ s ∈ ss, ∀ x, s.fileOffset ≤ x → x < cursorFile → ∃ t ∈ all, t.Holds x) :
    (∀ x, cursorFile ≤ x → x < seg.fileEnd →
      (∃ r ∈ gapsFrom seg ss cursorFile cursorVaddr, r.Holds x) ∨
        (∃ s ∈ all, s.Holds x) ∨ HeaderArea seg headersEnd all x) ↔
      StartKept seg headersEnd all ss cursorFile := by
  induction ss generalizing cursorFile cursorVaddr with
  | nil =>
    refine ⟨fun _ => trivial, fun _ x hge hlt => .inl ?_⟩
    unfold MachOSegment.fileEnd at hlt
    unfold gapsFrom
    rw [if_pos (by omega)]
    exact ⟨_, List.mem_singleton_self _, hge, by
      show x < cursorFile + (seg.fileoff + seg.filesize - cursorFile)
      omega⟩
  | cons s rest ih =>
    obtain ⟨hfirst, hrest⟩ := List.pairwise_cons.mp hsorted
    obtain ⟨hstart, hend⟩ := hinside s List.mem_cons_self
    have hlater := ih (s.fileOffset + s.size) (s.vaddr + s.size)
      (by omega) hrest (fun t ht => hinside t (List.mem_cons_of_mem _ ht))
      (fun t ht => hall t (List.mem_cons_of_mem _ ht)) fun t ht x hge hlt => by
        have := hfirst t ht
        exact ⟨s, hall s List.mem_cons_self, by omega, hlt⟩
    have hnot : ∀ x, x < s.fileOffset →
        ¬ ∃ r ∈ gapsFrom seg rest (s.fileOffset + s.size) (s.vaddr + s.size), r.Holds x := by
      rintro x hx ⟨r, hr, hholds⟩
      have := gapsFrom_start _ _ (Nat.le_add_right s.fileOffset s.size) hfirst r hr
      unfold MachOFreeRegion.Holds at hholds
      omega
    unfold StartKept
    rw [← hlater]
    by_cases hgap : cursorFile < s.fileOffset ∧ seg.fileoff < cursorFile
    · rw [gapsFrom_cons_gap hgap]
      constructor
      · intro h
        refine ⟨fun heq => by omega, fun x hge hlt => ?_⟩
        obtain ⟨r, hr, hholds⟩ | hkept := h x (by omega) hlt
        · rcases List.mem_cons.mp hr with rfl | hr
          · unfold MachOFreeRegion.Holds at hholds
            simp only at hholds
            omega
          · exact .inl ⟨r, hr, hholds⟩
        · exact .inr hkept
      · rintro ⟨-, h⟩ x hge hlt
        by_cases hbefore : x < s.fileOffset
        · refine .inl ⟨_, List.mem_cons_self, hge, ?_⟩
          show x < cursorFile + (s.fileOffset - cursorFile)
          omega
        · by_cases hin : x < s.fileOffset + s.size
          · exact .inr (.inl ⟨s, hall s List.mem_cons_self, by omega, hin⟩)
          · obtain ⟨r, hr, hholds⟩ | hkept := h x (by omega) hlt
            · exact .inl ⟨r, List.mem_cons_of_mem _ hr, hholds⟩
            · exact .inr hkept
    · rw [gapsFrom_cons_skip hgap]
      constructor
      · intro h
        refine ⟨fun heq x hge hlt => ?_, fun x hge hlt => ?_⟩
        · exact (h x hge (by omega)).resolve_left (hnot x hlt)
        · by_cases hback : x < cursorFile
          -- an empty section has moved the cursor back into the section around it
          · exact .inr (.inl (hbehind s List.mem_cons_self x (by omega) hback))
          · exact h x (by omega) hlt
      · rintro ⟨hkept, h⟩ x hge hlt
        by_cases hbefore : x < s.fileOffset
        · exact .inr (hkept (by omega) x hge hbefore)
        · by_cases hin : x < s.fileOffset + s.size
          · exact .inr (.inl ⟨s, hall s List.mem_cons_self, by omega, hin⟩)
          · exact h x (by omega) hlt

end Gaps

/-! ## §4. A layout. -/

namespace MachOLayout

variable (l : MachOLayout) (headersEnd : Nat)

/-- The sections of a segment that have bytes in the file. -/
def fileBacked (segname : String) : List MachOSection :=
  l.sections.filter fun s => s.segname == segname && decide (0 < s.fileOffset)

theorem sectionsOf_perm (segname : String) :
    List.Perm (l.sectionsOf segname) (l.fileBacked segname) :=
  List.mergeSort_perm _ _

theorem mem_sectionsOf {segname : String} {s : MachOSection} :
    s ∈ l.sectionsOf segname ↔ s ∈ l.fileBacked segname :=
  (l.sectionsOf_perm segname).mem_iff

theorem sectionsOf_sorted (segname : String) :
    (l.sectionsOf segname).Pairwise fun a b => a.fileOffset ≤ b.fileOffset := by
  have htrans : ∀ a b c : MachOSection, decide (a.fileOffset ≤ b.fileOffset) →
      decide (b.fileOffset ≤ c.fileOffset) → decide (a.fileOffset ≤ c.fileOffset) := by
    intro a b c hab hbc
    simp only [decide_eq_true_eq] at *
    omega
  have htotal : ∀ a b : MachOSection,
      (decide (a.fileOffset ≤ b.fileOffset) || decide (b.fileOffset ≤ a.fileOffset)) := by
    intro a b
    simp only [Bool.or_eq_true, decide_eq_true_eq]
    omega
  have h := List.pairwise_mergeSort htrans htotal (l.fileBacked segname)
  exact h.imp fun hab => of_decide_eq_true hab

/-- Every gap the segment is asked for starts at an unused byte, and a gap
that is not offered holds nothing of use. -/
def GapsClear (seg : MachOSegment) (segname : String) : Prop :=
  StartsUnused seg headersEnd (l.fileBacked segname) (l.sectionsOf segname) seg.fileoff ∧
    StartKept seg headersEnd (l.fileBacked segname) (l.sectionsOf segname) seg.fileoff

/-- What is promised of the padding of a layout: the regions of each segment
are free, and an allocation lies inside one of `__TEXT`'s. -/
structure RegionsAreFree : Prop where
  regions : ∀ segname seg, l.segmentNamed segname = some seg →
    FreeInside seg headersEnd (l.fileBacked segname) (l.segmentFreeRegions segname)
  allocated : ∀ bytesNeeded alignTo vaddr fileOffset,
    l.allocateInText bytesNeeded alignTo = some (vaddr, fileOffset) →
    ∃ r ∈ l.textFreeRegions, r.fileOffset ≤ fileOffset ∧
      fileOffset + bytesNeeded ≤ r.fileOffset + r.size ∧
      vaddr + r.fileOffset = fileOffset + r.vaddr

theorem freeInside_iff {seg : MachOSegment} {segname : String}
    (hseg : l.segmentNamed segname = some seg) (hplaced : WellPlaced seg (l.fileBacked segname)) :
    FreeInside seg headersEnd (l.fileBacked segname) (l.segmentFreeRegions segname) ↔
      l.GapsClear headersEnd seg segname := by
  have hregions : l.segmentFreeRegions segname =
      gapsFrom seg (l.sectionsOf segname) seg.fileoff seg.vmaddr := by
    unfold segmentFreeRegions
    rw [hseg]
  have hsorted := l.sectionsOf_sorted segname
  have hinside : ∀ s ∈ l.sectionsOf segname,
      seg.fileoff ≤ s.fileOffset ∧ s.fileOffset + s.size ≤ seg.fileEnd :=
    fun s hs => hplaced.inside s (l.mem_sectionsOf.mp hs)
  have hclear := gapsFrom_clear_iff headersEnd (l.fileBacked segname) seg.fileoff seg.vmaddr (Nat.le_refl _) hsorted (fun s hs => (hinside s hs).1)
    fun s hs => .inl (l.mem_sectionsOf.mpr hs)
  have hcover := gapsFrom_cover_iff headersEnd (l.fileBacked segname) seg.fileoff seg.vmaddr (Nat.le_refl _) hsorted hinside (fun s hs => l.mem_sectionsOf.mp hs)
    fun s hs x hge hlt => by
      have := (hinside s hs).1
      omega
  unfold GapsClear
  rw [hregions, ← hclear, ← hcover]
  constructor
  · intro h
    exact ⟨h.clear, h.covers⟩
  · rintro ⟨hclear, hcovers⟩
    exact {
      inside := gapsFrom_inside _ _ (Nat.le_refl _) hinside
      skew := gapsFrom_skew _ _ (Nat.add_comm _ _) fun s hs =>
        hplaced.skew s (l.mem_sectionsOf.mp hs)
      clear := hclear
      disjoint := gapsFrom_disjoint _ _ hsorted
      covers := hcovers }

theorem MachOFreeRegion.offer_inside {bytesNeeded alignTo : Nat} {r : MachOFreeRegion} {a : Aligned}
    (h : MachOFreeRegion.offer bytesNeeded alignTo r = some a) :
    r.fileOffset ≤ a.fileOffset ∧ a.fileOffset + bytesNeeded ≤ r.fileOffset + r.size ∧
      a.vaddr + r.fileOffset = a.fileOffset + r.vaddr := by
  unfold MachOFreeRegion.offer at h
  simp only at h
  split at h
  · cases h
  · obtain rfl := Option.some.inj h
    simp only
    omega

theorem allocateInText_inside {bytesNeeded alignTo vaddr fileOffset : Nat}
    (h : l.allocateInText bytesNeeded alignTo = some (vaddr, fileOffset)) :
    ∃ r ∈ l.textFreeRegions, r.fileOffset ≤ fileOffset ∧
      fileOffset + bytesNeeded ≤ r.fileOffset + r.size ∧
      vaddr + r.fileOffset = fileOffset + r.vaddr := by
  unfold allocateInText at h
  obtain ⟨a, hbest, hpair⟩ := Option.map_eq_some_iff.mp h
  obtain ⟨r, hr, hoffer⟩ := List.mem_filterMap.mp (List.argmin_mem hbest)
  obtain ⟨rfl, rfl⟩ := Prod.mk.inj hpair
  exact ⟨r, hr, MachOFreeRegion.offer_inside hoffer⟩

/-- The padding of a layout is free exactly when, in every segment, each gap
that is offered starts at an unused byte and each gap that is not holds
nothing of use. -/
theorem regionsAreFree_iff
    (hplaced : ∀ segname seg, l.segmentNamed segname = some seg →
      WellPlaced seg (l.fileBacked segname)) :
    l.RegionsAreFree headersEnd ↔
      ∀ segname seg, l.segmentNamed segname = some seg → l.GapsClear headersEnd seg segname := by
  constructor
  · intro h segname seg hseg
    exact (l.freeInside_iff headersEnd hseg (hplaced segname seg hseg)).mp
      (h.regions segname seg hseg)
  · intro h
    exact {
      regions := fun segname seg hseg =>
        (l.freeInside_iff headersEnd hseg (hplaced segname seg hseg)).mpr (h segname seg hseg)
      allocated := fun _ _ _ _ => l.allocateInText_inside }

/-- `__TEXT` with one section behind the headers and padding behind it. -/
def paddedText : MachOLayout where
  segments := [⟨"__TEXT", 0, 0x4000, 0, 0x4000⟩]
  sections := [⟨"__text", "__TEXT", 0x1000, 0x100, 0x1000, 0, 0, 0, 0⟩]

/-- `__TEXT` with its headers only. -/
def bareText : MachOLayout := { paddedText with sections := [] }

theorem paddedText_named {segname : String} {seg : MachOSegment}
    (h : paddedText.segmentNamed segname = some seg) :
    segname = "__TEXT" ∧ seg = ⟨"__TEXT", 0, 0x4000, 0, 0x4000⟩ := by
  have hname := List.find?_some h
  have hmem := List.mem_singleton.mp (List.mem_of_find?_eq_some h)
  subst hmem
  exact ⟨(of_decide_eq_true hname).symm, rfl⟩

theorem paddedText_sections : paddedText.sectionsOf "__TEXT" = paddedText.sections := by
  unfold sectionsOf
  rw [show (paddedText.sections.filter fun s => s.segname == "__TEXT" && decide (0 < s.fileOffset)) =
    paddedText.sections from rfl]
  exact List.mergeSort_singleton _

theorem bareText_sections : bareText.sectionsOf "__TEXT" = [] := List.mergeSort_nil

theorem paddedText_free : paddedText.RegionsAreFree 184 := by
  refine (paddedText.regionsAreFree_iff 184 fun segname seg hseg => ?_).mpr
    fun segname seg hseg => ?_
  · obtain ⟨rfl, rfl⟩ := paddedText_named hseg
    exact {
      inside := by decide
      skew := by decide
      disjoint := List.pairwise_singleton _ _ }
  · obtain ⟨rfl, rfl⟩ := paddedText_named hseg
    unfold GapsClear
    rw [paddedText_sections]
    refine ⟨⟨fun h => absurd h (by decide), fun _ => ⟨by decide, ?_⟩⟩, fun _ x _ hx => ?_, trivial⟩
    · intro s hs hholds
      obtain rfl := List.mem_singleton.mp hs
      exact absurd hholds.2 (by decide)
    · refine .inr (.inr ⟨by decide, fun s hs => ?_⟩)
      obtain rfl := List.mem_singleton.mp hs
      exact hx

/-- Without a section the headers themselves are offered. -/
theorem bareText_notFree :
    (∀ segname seg, bareText.segmentNamed segname = some seg →
      WellPlaced seg (bareText.fileBacked segname)) ∧ ¬ bareText.RegionsAreFree 104 := by
  refine ⟨fun segname seg _ => ?_, fun h => ?_⟩
  · exact {
      inside := fun s hs => absurd hs List.not_mem_nil
      skew := fun s hs => absurd hs List.not_mem_nil
      disjoint := .nil }
  · have hregion : (⟨0, 0, 0x4000, "__TEXT"⟩ : MachOFreeRegion) ∈
        bareText.segmentFreeRegions "__TEXT" := by
      unfold segmentFreeRegions
      rw [bareText_sections]
      exact List.mem_singleton_self _
    have hused := (h.regions "__TEXT" _ rfl).clear _ hregion 0 ⟨Nat.le_refl _, by decide⟩
    exact absurd hused.1 (by decide)

end MachOLayout

end Armv8Encode.MachO

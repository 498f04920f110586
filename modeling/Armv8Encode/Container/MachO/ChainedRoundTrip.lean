/-
  Armv8Encode.Container.MachO.ChainedRoundTrip — chained fixups, read after a write.

  A word is read back as the target it can hold, a chain as the slots of its
  page, a segment as the slots on the pages that the stored count covers, and
  the blob as its segments in their order.
-/
import Armv8Encode.Container.MachO.ChainedFixups
import Armv8Encode.Lib.Collect
import Armv8Encode.Lib.Lists

namespace Armv8Encode.MachO

open Lib

/-! ## §1. Words. -/

/-- The address that a stored target stands for. -/
def PointerFormat.storedTarget (format : PointerFormat) (segBase targetVaddr : Nat) : Nat :=
  if format.isRelative then segBase + (targetVaddr - segBase) % 2 ^ 36 else targetVaddr % 2 ^ 36

/-- A bind that a word can hold. -/
def FixupTarget.Fits (format : PointerFormat) : FixupTarget → Prop
  | .rebase _ => True
  | .bind importIndex addend =>
    importIndex < 2 ^ format.ordinalBits
      ∧ if format.isPlain then 0 ≤ addend ∧ addend < 2 ^ 8 else -2 ^ 18 ≤ addend ∧ addend < 2 ^ 18

/-- What is read for a target that was written. -/
def FixupTarget.stored (format : PointerFormat) (segBase importsCount : Nat) :
    FixupTarget → Option FixupTarget
  | .rebase targetVaddr => some (.rebase (format.storedTarget segBase targetVaddr))
  | .bind importIndex addend =>
    if importsCount ≤ importIndex then none else some (.bind importIndex addend)

/-- The widths of the fields, of the two kinds of format. -/
theorem PointerFormat.plain_or_not (format : PointerFormat) :
    format.isPlain = true ∧ format.nextBits = 12 ∧ format.ordinalBits = 24
      ∨ format.isPlain = false ∧ format.nextBits = 11
        ∧ (format.ordinalBits = 16 ∨ format.ordinalBits = 24) := by
  cases format <;> decide

theorem encodeOne_lt {format : PointerFormat} {target : FixupTarget} {next segBase word : Nat}
    (h : encodeOne target format next segBase = some word) : word < 256 ^ 8 := by
  unfold encodeOne at h
  obtain ⟨hplain, hnext, hord⟩ | ⟨hplain, hnext, hord⟩ := format.plain_or_not
  · cases target with
    | rebase t =>
      simp only [hnext] at h
      injection h with h
      omega
    | bind i a =>
      simp only [hplain, hnext, hord, if_true] at h
      injection h with h
      omega
  · cases target with
    | rebase t =>
      simp only [hnext] at h
      injection h with h
      omega
    | bind i a =>
      simp only [hplain, hnext, Bool.false_eq_true, if_false] at h
      split at h
      · cases h
      · injection h with h
        obtain hord | hord := hord <;> rw [hord] at h <;> omega

theorem decodeOne_encodeOne {format : PointerFormat} {target : FixupTarget}
    {next segBase word importsCount : Nat} (hfits : target.Fits format)
    (hnext : next < 2 ^ format.nextBits)
    (h : encodeOne target format next segBase = some word) :
    decodeOne word format importsCount segBase
      = (target.stored format segBase importsCount).map fun t => (t, next) := by
  unfold encodeOne at h
  rw [Nat.mod_eq_of_lt hnext] at h
  cases target with
  | rebase t =>
    obtain ⟨s, hs⟩ : ∃ s, s = if format.isRelative then t - segBase else t := ⟨_, rfl⟩
    have hword : s % 2 ^ 36 + next * 2 ^ 51 = word := by
      rw [hs]
      exact Option.some.inj h
    have hbit : word / 2 ^ (if format.isPlain then 63 else 62) % 2 = 0 := by
      obtain ⟨hplain, hbits, _⟩ | ⟨hplain, hbits, _⟩ := format.plain_or_not <;>
        rw [hbits] at hnext <;> simp only [hplain, Bool.false_eq_true, if_true, if_false] <;> omega
    have hnextField : word / 2 ^ 51 % 2 ^ format.nextBits = next := by
      have hdiv : word / 2 ^ 51 = next := by omega
      rw [hdiv, Nat.mod_eq_of_lt hnext]
    have hlow : word % 2 ^ 36 = s % 2 ^ 36 := by omega
    unfold decodeOne
    simp only [hbit, hnextField, hlow]
    rw [if_neg (by decide)]
    show _ = some (FixupTarget.rebase (format.storedTarget segBase t), next)
    unfold PointerFormat.storedTarget
    by_cases hrel : format.isRelative = true
    · rw [if_pos hrel] at hs
      rw [if_pos hrel, if_pos hrel, hs]
    · rw [if_neg hrel] at hs
      rw [if_neg hrel, if_neg hrel, hs]
  | bind i a =>
    obtain ⟨hi, ha⟩ := hfits
    dsimp only at h
    rw [Nat.mod_eq_of_lt hi] at h
    show _ = (if importsCount ≤ i then none else some (FixupTarget.bind i a)).map fun t => (t, next)
    obtain ⟨hplain, hbits, hord⟩ | ⟨hplain, hbits, hord⟩ := format.plain_or_not
    · simp only [hplain, if_true] at h ha
      rw [hbits] at hnext
      rw [hord] at hi
      injection h with hword
      have hbit : word / 2 ^ 63 % 2 = 1 := by omega
      have hnextField : word / 2 ^ 51 % 2 ^ 12 = next := by omega
      have hordField : word % 2 ^ 24 = i := by omega
      have hadd : ((word / 2 ^ 24 % 2 ^ 8 : Nat) : Int) = a := by omega
      unfold decodeOne
      simp only [hplain, hbits, hord, if_true, hbit, hnextField, hordField]
      by_cases hcount : importsCount ≤ i
      · rw [if_pos hcount, if_pos hcount]
        rfl
      · rw [if_neg hcount, if_neg hcount, hadd]
        rfl
    · simp only [hplain, Bool.false_eq_true, if_false] at h ha
      rw [hbits] at hnext
      rw [if_neg (by omega)] at h
      injection h with hword
      have hi' : i < 2 ^ 24 := by
        obtain hord | hord := hord <;> rw [hord] at hi <;> omega
      have hbit : word / 2 ^ 62 % 2 = 1 := by omega
      have hauth : ¬ word / 2 ^ 63 % 2 = 1 := by omega
      have hnextField : word / 2 ^ 51 % 2 ^ 11 = next := by omega
      have hordField : word % 2 ^ format.ordinalBits = i := by
        obtain hord | hord := hord <;> rw [hord] at hi ⊢ <;> omega
      have hadd : signExtend19 (word / 2 ^ 24 % 2 ^ 19) = a := by
        unfold signExtend19
        split <;> omega
      unfold decodeOne
      simp only [hplain, hbits, Bool.false_eq_true, if_true, if_false, hbit, hauth, hnextField,
        hordField, hadd]
      by_cases hcount : importsCount ≤ i
      · rw [if_pos hcount, if_pos hcount]
        rfl
      · rw [if_neg hcount, if_neg hcount]
        rfl

/-- What a word names fits a word. -/
theorem decodeOne_fits {format : PointerFormat} {target : FixupTarget}
    {word importsCount segBase next : Nat}
    (h : decodeOne word format importsCount segBase = some (target, next)) :
    target.Fits format := by
  unfold decodeOne at h
  dsimp only at h
  obtain ⟨hplain, _, _⟩ | ⟨hplain, _, _⟩ := format.plain_or_not
  · simp only [hplain, if_true] at h
    split at h
    · split at h
      · cases h
      · cases h
        refine ⟨Nat.mod_lt _ (Nat.two_pow_pos _), ?_⟩
        rw [if_pos hplain]
        omega
    · cases h
      trivial
  · simp only [hplain, Bool.false_eq_true, if_false] at h
    split at h
    · split at h
      · cases h
      · cases h
        refine ⟨Nat.mod_lt _ (Nat.two_pow_pos _), ?_⟩
        rw [if_neg (by rw [hplain]; decide)]
        unfold signExtend19
        split
        · omega
        · split <;> omega
    · cases h
      trivial

/-- Targets that are stored as they are. -/
def PointerFormat.Represents (format : PointerFormat) (segBase targetVaddr : Nat) : Prop :=
  if format.isRelative then segBase ≤ targetVaddr ∧ targetVaddr < segBase + 2 ^ 36
  else targetVaddr < 2 ^ 36

theorem PointerFormat.storedTarget_eq_iff {format : PointerFormat} {segBase targetVaddr : Nat} :
    format.storedTarget segBase targetVaddr = targetVaddr
      ↔ format.Represents segBase targetVaddr := by
  unfold storedTarget Represents
  split <;> omega

/-! ## §2. Chains. -/

def Fixup.stored (format : PointerFormat) (segBase importsCount : Nat) (f : Fixup) :
    Option Fixup :=
  (f.target.stored format segBase importsCount).map (Fixup.mk f.vaddr)

/-- Slots of a page that make a chain in the file. -/
structure Chained (format : PointerFormat) (seg : MachOSegment) (fs : List Fixup) : Prop where
  sorted : fs.Pairwise fun f g => f.vaddr < g.vaddr
  fits : ∀ f ∈ fs, f.target.Fits format
  inside : ∀ f ∈ fs, seg.vmaddr ≤ f.vaddr ∧ f.vaddr - seg.vmaddr + 8 ≤ seg.filesize
  aligned : ∀ f ∈ fs, f.vaddr % format.stride = 0
  steps : stepsFit format fs = true

theorem stepsFit_tail {format : PointerFormat} {f : Fixup} {fs : List Fixup}
    (h : stepsFit format (f :: fs) = true) : stepsFit format fs = true := by
  cases fs with
  | nil => rfl
  | cons g rest => exact (Bool.and_eq_true_iff.mp h).2

theorem Chained.tail {format : PointerFormat} {seg : MachOSegment} {f : Fixup} {fs : List Fixup}
    (h : Chained format seg (f :: fs)) : Chained format seg fs where
  sorted := h.sorted.tail
  fits g hg := h.fits g (List.mem_cons_of_mem _ hg)
  inside g hg := h.inside g (List.mem_cons_of_mem _ hg)
  aligned g hg := h.aligned g (List.mem_cons_of_mem _ hg)
  steps := stepsFit_tail h.steps

theorem PointerFormat.stride_pos (format : PointerFormat) : 0 < format.stride := by
  cases format <;> decide

/-- The step to the next slot, in units of the format. -/
theorem next_spec_of_stepsFit {format : PointerFormat} {f g : Fixup} {fs : List Fixup}
    (hlt : f.vaddr < g.vaddr) (hf : f.vaddr % format.stride = 0) (hg : g.vaddr % format.stride = 0)
    (hsteps : stepsFit format (f :: g :: fs) = true) :
    let next := (g.vaddr - f.vaddr) / format.stride
    next ≠ 0 ∧ next < 2 ^ format.nextBits ∧ f.vaddr + next * format.stride = g.vaddr := by
  intro next
  have hpos := format.stride_pos
  have hfit : g.vaddr - f.vaddr ≤ (2 ^ format.nextBits - 1) * format.stride :=
    of_decide_eq_true (Bool.and_eq_true_iff.mp hsteps).1
  have hdvd : format.stride ∣ g.vaddr - f.vaddr :=
    Nat.dvd_sub (Nat.dvd_of_mod_eq_zero hg) (Nat.dvd_of_mod_eq_zero hf)
  have hmul : next * format.stride = g.vaddr - f.vaddr := Nat.div_mul_cancel hdvd
  have hbits : 0 < 2 ^ format.nextBits := Nat.two_pow_pos _
  refine ⟨?_, ?_, by omega⟩
  · intro hzero
    rw [hzero, Nat.zero_mul] at hmul
    omega
  · have hle : next ≤ 2 ^ format.nextBits - 1 := by
      rw [← hmul] at hfit
      exact Nat.le_of_mul_le_mul_right hfit hpos
    omega

theorem Chained.next_spec {format : PointerFormat} {seg : MachOSegment} {f g : Fixup}
    {fs : List Fixup} (h : Chained format seg (f :: g :: fs)) :
    let next := (g.vaddr - f.vaddr) / format.stride
    next ≠ 0 ∧ next < 2 ^ format.nextBits ∧ f.vaddr + next * format.stride = g.vaddr :=
  next_spec_of_stepsFit (List.rel_of_pairwise_cons h.sorted List.mem_cons_self)
    (h.aligned f List.mem_cons_self) (h.aligned g (List.mem_cons_of_mem _ List.mem_cons_self))
    h.steps

/-- **A chain is read back as it was written**, up to what its words can hold. -/
theorem walkChain_chainWords {bytes : List Byte} {seg : MachOSegment} {format : PointerFormat}
    {importsCount : Nat} {f : Fixup} {fs : List Fixup} {words : List (Nat × List Byte)}
    (hchain : Chained format seg (f :: fs))
    (hwords : chainWords format seg (f :: fs) = some words)
    (hread : ∀ w ∈ words, readLe 8 bytes w.1 = some (leValue w.2)) {fuel : Nat}
    (hfuel : seg.filesize < fuel + (f.vaddr - seg.vmaddr)) :
    walkChain bytes seg format importsCount fuel (f.vaddr - seg.vmaddr)
      = (f :: fs).mapM (Fixup.stored format seg.vmaddr importsCount) := by
  induction fs generalizing f words fuel with
  | nil =>
    obtain ⟨hbase, hend⟩ := hchain.inside f List.mem_cons_self
    obtain _ | fuel := fuel
    · omega
    obtain ⟨word, hword, hwords⟩ := Option.bind_eq_some_iff.mp hwords
    obtain ⟨_, hnil, hwords⟩ := Option.bind_eq_some_iff.mp hwords
    cases hnil
    cases hwords
    have hraw := hread _ List.mem_cons_self
    rw [leValue_leBytes, Nat.mod_eq_of_lt (encodeOne_lt hword)] at hraw
    have hdecode : decodeOne word format importsCount seg.vmaddr
        = (f.target.stored format seg.vmaddr importsCount).map fun t => (t, 0 / format.stride) :=
      decodeOne_encodeOne (hchain.fits f List.mem_cons_self)
        (by rw [Nat.zero_div]; exact Nat.two_pow_pos _) hword
    unfold walkChain Fixup.stored
    rw [if_neg (by omega), hraw, List.mapM_cons, List.mapM_nil]
    dsimp only
    rw [hdecode, Nat.zero_div]
    cases f.target.stored format seg.vmaddr importsCount with
    | none => rfl
    | some t =>
      have haddr : seg.vmaddr + (f.vaddr - seg.vmaddr) = f.vaddr := by omega
      show some [Fixup.mk (seg.vmaddr + (f.vaddr - seg.vmaddr)) t] = some [⟨f.vaddr, t⟩]
      rw [haddr]
  | cons g rest ih =>
    obtain ⟨hbase, hend⟩ := hchain.inside f List.mem_cons_self
    obtain ⟨hne, hnext, hstep⟩ := hchain.next_spec
    have hlt : f.vaddr < g.vaddr := List.rel_of_pairwise_cons hchain.sorted List.mem_cons_self
    obtain _ | fuel := fuel
    · omega
    obtain ⟨word, hword, hwords⟩ := Option.bind_eq_some_iff.mp hwords
    obtain ⟨words', hrest, hwords⟩ := Option.bind_eq_some_iff.mp hwords
    cases hwords
    have hraw := hread _ List.mem_cons_self
    rw [leValue_leBytes, Nat.mod_eq_of_lt (encodeOne_lt hword)] at hraw
    have hdecode : decodeOne word format importsCount seg.vmaddr
        = (f.target.stored format seg.vmaddr importsCount).map
          fun t => (t, (g.vaddr - f.vaddr) / format.stride) :=
      decodeOne_encodeOne (hchain.fits f List.mem_cons_self) hnext hword
    have hoffset : f.vaddr - seg.vmaddr + (g.vaddr - f.vaddr) / format.stride * format.stride
        = g.vaddr - seg.vmaddr := by omega
    have htail := ih hchain.tail hrest (fun w hw => hread w (List.mem_cons_of_mem _ hw))
      (by omega : seg.filesize < fuel + (g.vaddr - seg.vmaddr))
    unfold walkChain
    rw [if_neg (by omega), hraw, List.mapM_cons]
    dsimp only
    rw [hdecode]
    unfold Fixup.stored at htail ⊢
    cases f.target.stored format seg.vmaddr importsCount with
    | none => rfl
    | some t =>
      have haddr : seg.vmaddr + (f.vaddr - seg.vmaddr) = f.vaddr := by omega
      show (if (g.vaddr - f.vaddr) / format.stride = 0 then _ else _) = _
      rw [if_neg hne, hoffset, htail, haddr]
      rfl

/-! ## §3. Slots. -/

theorem sortByVaddr_sorted (fixups : List Fixup) :
    (sortByVaddr fixups).Pairwise fun f g => f.vaddr ≤ g.vaddr := by
  have : Std.Total fun f g : Fixup => f.vaddr ≤ g.vaddr := ⟨fun f g => Nat.le_total _ _⟩
  have : IsTrans Fixup fun f g => f.vaddr ≤ g.vaddr := ⟨fun _ _ _ => Nat.le_trans⟩
  exact List.pairwise_insertionSort _ _

theorem mem_sortByVaddr {fixups : List Fixup} {f : Fixup} :
    f ∈ sortByVaddr fixups ↔ f ∈ fixups := List.mem_insertionSort _

theorem sortByVaddr_of_sorted {fixups : List Fixup}
    (h : fixups.Pairwise fun f g => f.vaddr ≤ g.vaddr) : sortByVaddr fixups = fixups :=
  h.insertionSort_eq

theorem dedupFrom_subset {vaddr : Nat} {fixups : List Fixup} {f : Fixup}
    (h : f ∈ dedupFrom vaddr fixups) : f ∈ fixups := by
  induction fixups generalizing vaddr with
  | nil => exact h
  | cons g rest ih =>
    unfold dedupFrom at h
    split at h
    · exact List.mem_cons_of_mem _ (ih h)
    · obtain rfl | h := List.mem_cons.mp h
      · exact List.mem_cons_self
      · exact List.mem_cons_of_mem _ (ih h)

theorem dedupFrom_sorted {vaddr : Nat} {fixups : List Fixup}
    (hsorted : fixups.Pairwise fun f g => f.vaddr ≤ g.vaddr)
    (hfrom : ∀ f ∈ fixups, vaddr ≤ f.vaddr) :
    (∀ f ∈ dedupFrom vaddr fixups, vaddr < f.vaddr)
      ∧ (dedupFrom vaddr fixups).Pairwise fun f g => f.vaddr < g.vaddr := by
  induction fixups generalizing vaddr with
  | nil => exact ⟨fun f hf => absurd hf List.not_mem_nil, .nil⟩
  | cons g rest ih =>
    obtain ⟨hg, hrest⟩ := List.pairwise_cons.mp hsorted
    unfold dedupFrom
    split
    · next heq => exact ih hrest fun f hf => heq ▸ hg f hf
    · next hne =>
      have hlt : vaddr < g.vaddr := by
        have := hfrom g List.mem_cons_self
        omega
      obtain ⟨habove, hpairs⟩ := ih hrest hg
      refine ⟨fun f hf => ?_, List.pairwise_cons.mpr ⟨habove, hpairs⟩⟩
      obtain rfl | hf := List.mem_cons.mp hf
      · exact hlt
      · exact Nat.lt_trans hlt (habove f hf)

theorem exists_mem_dedupFrom {vaddr : Nat} {fixups : List Fixup} {f : Fixup} (h : f ∈ fixups) :
    f.vaddr = vaddr ∨ ∃ g ∈ dedupFrom vaddr fixups, g.vaddr = f.vaddr := by
  induction fixups generalizing vaddr with
  | nil => cases h
  | cons g rest ih =>
    unfold dedupFrom
    split
    · next heq =>
      obtain rfl | h := List.mem_cons.mp h
      · exact .inl heq
      · exact ih h
    · obtain rfl | h := List.mem_cons.mp h
      · exact .inr ⟨f, List.mem_cons_self, rfl⟩
      · obtain hg | ⟨g', hg', heq⟩ := @ih g.vaddr h
        · exact .inr ⟨g, List.mem_cons_self, hg.symm⟩
        · exact .inr ⟨g', List.mem_cons_of_mem _ hg', heq⟩

namespace SegmentFixups

theorem slots_sorted (sf : SegmentFixups) :
    sf.slots.Pairwise fun f g => f.vaddr < g.vaddr := by
  unfold slots
  have hsorted := sortByVaddr_sorted sf.fixups
  cases hsort : sortByVaddr sf.fixups with
  | nil => exact .nil
  | cons f rest =>
    rw [hsort] at hsorted
    obtain ⟨hf, hrest⟩ := List.pairwise_cons.mp hsorted
    obtain ⟨habove, hpairs⟩ := dedupFrom_sorted hrest hf
    exact List.pairwise_cons.mpr ⟨habove, hpairs⟩

theorem mem_fixups_of_mem_slots {sf : SegmentFixups} {f : Fixup} (h : f ∈ sf.slots) :
    f ∈ sf.fixups := by
  rw [← mem_sortByVaddr]
  unfold slots at h
  cases hsort : sortByVaddr sf.fixups with
  | nil => rwa [hsort] at h
  | cons g rest =>
    rw [hsort] at h
    obtain rfl | h := List.mem_cons.mp h
    · exact List.mem_cons_self
    · exact List.mem_cons_of_mem _ (dedupFrom_subset h)

theorem exists_mem_slots {sf : SegmentFixups} {f : Fixup} (h : f ∈ sf.fixups) :
    ∃ g ∈ sf.slots, g.vaddr = f.vaddr := by
  rw [← mem_sortByVaddr] at h
  unfold slots
  cases hsort : sortByVaddr sf.fixups with
  | nil =>
    rw [hsort] at h
    cases h
  | cons g rest =>
    rw [hsort] at h
    obtain rfl | h := List.mem_cons.mp h
    · exact ⟨f, List.mem_cons_self, rfl⟩
    · obtain heq | ⟨g', hg', heq⟩ := @exists_mem_dedupFrom g.vaddr _ _ h
      · exact ⟨g, List.mem_cons_self, heq.symm⟩
      · exact ⟨g', List.mem_cons_of_mem _ hg', heq⟩

/-- What one address has is one slot, if it is the same each time. -/
theorem mem_slots {sf : SegmentFixups} {f : Fixup}
    (hunique : ∀ f ∈ sf.fixups, ∀ g ∈ sf.fixups, f.vaddr = g.vaddr → f = g) :
    f ∈ sf.slots ↔ f ∈ sf.fixups := by
  refine ⟨mem_fixups_of_mem_slots, fun h => ?_⟩
  obtain ⟨g, hg, heq⟩ := exists_mem_slots h
  rwa [← hunique g (mem_fixups_of_mem_slots hg) f h heq]

theorem mem_onPage {sf : SegmentFixups} {seg : MachOSegment} {page : Nat} {f : Fixup} :
    f ∈ sf.onPage seg page ↔ f ∈ sf.slots ∧ sf.pageOf seg f = page := by
  unfold onPage
  rw [List.mem_filter, decide_eq_true_eq]

theorem mem_pages {sf : SegmentFixups} {seg : MachOSegment} {page : Nat} :
    page ∈ sf.pages seg ↔ sf.onPage seg page ≠ [] := by
  unfold pages
  rw [List.mem_dedup, List.mem_map]
  constructor
  · rintro ⟨f, hf, rfl⟩ hnil
    have hmem : f ∈ sf.onPage seg (sf.pageOf seg f) := mem_onPage.mpr ⟨hf, rfl⟩
    rw [hnil] at hmem
    cases hmem
  · intro hne
    obtain ⟨f, hf⟩ := List.exists_mem_of_ne_nil _ hne
    exact ⟨f, mem_onPage.mp hf⟩

/-- Slots that the words of a segment can hold. -/
structure Writable (format : PointerFormat) (sf : SegmentFixups) (seg : MachOSegment) : Prop where
  fits : ∀ f ∈ sf.fixups, f.target.Fits format
  inside : ∀ f ∈ sf.fixups, seg.vmaddr ≤ f.vaddr ∧ f.vaddr - seg.vmaddr + 8 ≤ seg.filesize
  aligned : ∀ f ∈ sf.fixups, f.vaddr % format.stride = 0
  paged : sf.fixups ≠ [] → 0 < sf.pageSize ∧ sf.pageSize < 2 ^ 16

theorem Writable.chained {format : PointerFormat} {sf : SegmentFixups} {seg : MachOSegment}
    (h : sf.Writable format seg) {page : Nat}
    (hsteps : stepsFit format (sf.onPage seg page) = true) :
    Chained format seg (sf.onPage seg page) where
  sorted := sf.slots_sorted.filter _
  fits f hf := h.fits f (mem_fixups_of_mem_slots (mem_onPage.mp hf).1)
  inside f hf := h.inside f (mem_fixups_of_mem_slots (mem_onPage.mp hf).1)
  aligned f hf := h.aligned f (mem_fixups_of_mem_slots (mem_onPage.mp hf).1)
  steps := hsteps

/-- The words of every chain stand in the file. -/
def Staged (format : PointerFormat) (sf : SegmentFixups) (seg : MachOSegment)
    (bytes : List Byte) : Prop :=
  ∀ page ∈ sf.pages seg, ∃ words, chainWords format seg (sf.onPage seg page) = some words
    ∧ ∀ w ∈ words, readLe 8 bytes w.1 = some (leValue w.2)

/-- The slots a reader can reach: those on pages that the stored count covers. -/
def reached (sf : SegmentFixups) (seg : MachOSegment) : List Fixup :=
  sf.slots.filter fun f => decide (sf.pageOf seg f < sf.pageCount seg % 2 ^ 16)

theorem pageStart_of_nil {sf : SegmentFixups} {seg : MachOSegment} {page : Nat}
    (h : sf.onPage seg page = []) : sf.pageStart seg page = pageStartNone := by
  unfold pageStart
  rw [h]

/-- The stored start of a page leads to its first slot. -/
theorem pageStart_of_cons {sf : SegmentFixups} {seg : MachOSegment} {page : Nat} {f : Fixup}
    {fs : List Fixup} (hbase : seg.vmaddr ≤ f.vaddr) (hpos : 0 < sf.pageSize)
    (hsmall : sf.pageSize < 2 ^ 16) (h : sf.onPage seg page = f :: fs) :
    sf.pageStart seg page ≠ pageStartNone
      ∧ page * sf.pageSize + (sf.pageStart seg page).toNat = f.vaddr - seg.vmaddr := by
  have hpage : (f.vaddr - seg.vmaddr) / sf.pageSize = page := by
    have hmem : f ∈ sf.onPage seg page := by
      rw [h]
      exact List.mem_cons_self
    exact (mem_onPage.mp hmem).2
  have hle : page * sf.pageSize ≤ f.vaddr - seg.vmaddr := by
    rw [← hpage]
    exact Nat.div_mul_le_self _ _
  have hlt : f.vaddr - seg.vmaddr < page * sf.pageSize + sf.pageSize := by
    rw [← hpage, Nat.mul_comm]
    exact Nat.lt_mul_div_succ _ hpos
  have hvalue : (sf.pageStart seg page).toNat
      = f.vaddr - (seg.vmaddr + page * sf.pageSize) := by
    unfold pageStart
    rw [h]
    show (BitVec.ofNat 16 _).toNat = _
    rw [BitVec.toNat_ofNat, Nat.mod_eq_of_lt (by omega)]
  constructor
  · intro hnone
    rw [hnone] at hvalue
    have : pageStartNone.toNat = 2 ^ 16 - 1 := rfl
    omega
  · omega

end SegmentFixups

theorem Fixup.stored_vaddr {format : PointerFormat} {segBase importsCount : Nat} {f g : Fixup}
    (h : f.stored format segBase importsCount = some g) : g.vaddr = f.vaddr := by
  obtain ⟨t, _, rfl⟩ := Option.map_eq_some_iff.mp h
  rfl

theorem stored_sorted {format : PointerFormat} {segBase importsCount : Nat} {fs gs : List Fixup}
    (hsorted : fs.Pairwise fun f g => f.vaddr ≤ g.vaddr)
    (h : fs.mapM (Fixup.stored format segBase importsCount) = some gs) :
    gs.Pairwise fun f g => f.vaddr ≤ g.vaddr := by
  induction fs generalizing gs with
  | nil =>
    cases h
    exact .nil
  | cons f fs ih =>
    obtain ⟨hf, hfs⟩ := List.pairwise_cons.mp hsorted
    have hall := mapM_eq_some_iff.mp h
    cases hall with
    | cons hg hgs =>
      have hrest := mapM_eq_some_iff.mpr hgs
      refine List.pairwise_cons.mpr ⟨fun g hg' => ?_, ih hfs hrest⟩
      obtain ⟨f', hf', hstored⟩ := exists_of_mem_mapM hrest hg'
      rw [Fixup.stored_vaddr hg, Fixup.stored_vaddr hstored]
      exact hf f' hf'

/-- **A segment is read back as it was written**: the slots on the pages that the
count covers. -/
theorem walkOneSegment_starts {bytes : List Byte} {seg : MachOSegment} {format : PointerFormat}
    {sf : SegmentFixups} {starts : SegmentStarts} {importsCount : Nat}
    (hwritable : sf.Writable format seg)
    (hstarts : buildStartsInSegment format sf seg = some starts)
    (hstaged : sf.Staged format seg bytes) :
    walkOneSegment bytes seg importsCount starts
      = (sf.reached seg).mapM (Fixup.stored format seg.vmaddr importsCount) := by
  unfold buildStartsInSegment at hstarts
  obtain ⟨hsteps, hstarts⟩ := Option.ite_none_right_eq_some.mp hstarts
  cases hstarts
  rw [List.all_eq_true] at hsteps
  have hpage : ∀ page,
      (if sf.pageStart seg page = pageStartNone then some []
        else walkChain bytes seg format importsCount (seg.filesize + 1)
          (page * (BitVec.ofNat 16 sf.pageSize).toNat + (sf.pageStart seg page).toNat))
      = (sf.onPage seg page).mapM (Fixup.stored format seg.vmaddr importsCount) := by
    intro page
    cases honPage : sf.onPage seg page with
    | nil =>
      rw [if_pos (SegmentFixups.pageStart_of_nil honPage)]
      rfl
    | cons f fs =>
      have hmem : f ∈ sf.fixups := by
        have hf : f ∈ sf.onPage seg page := by
          rw [honPage]
          exact List.mem_cons_self
        exact SegmentFixups.mem_fixups_of_mem_slots (SegmentFixups.mem_onPage.mp hf).1
      have hpages : page ∈ sf.pages seg := by
        rw [SegmentFixups.mem_pages, honPage]
        exact List.cons_ne_nil _ _
      obtain ⟨hpos, hsmall⟩ := hwritable.paged (List.ne_nil_of_mem hmem)
      obtain ⟨hbase, hend⟩ := hwritable.inside f hmem
      obtain ⟨hsome, hoffset⟩ := SegmentFixups.pageStart_of_cons hbase hpos hsmall honPage
      obtain ⟨words, hwords, hread⟩ := hstaged page hpages
      have hchain := hwritable.chained (hsteps page hpages)
      rw [honPage] at hchain hwords
      rw [if_neg hsome, BitVec.toNat_ofNat, Nat.mod_eq_of_lt hsmall, hoffset]
      exact walkChain_chainWords hchain hwords hread (by omega)
  have hkey : sf.slots.Pairwise fun f g => sf.pageOf seg f ≤ sf.pageOf seg g :=
    sf.slots_sorted.imp fun h => Nat.div_le_div_right (Nat.sub_le_sub_right (Nat.le_of_lt h) _)
  have hflat : (sf.reached seg).mapM (Fixup.stored format seg.vmaddr importsCount)
      = ((List.range (sf.pageCount seg % 2 ^ 16)).mapM fun page =>
          (sf.onPage seg page).mapM (Fixup.stored format seg.vmaddr importsCount)).map
        List.flatten := by
    rw [← mapM_flatMap]
    exact congrArg _ (range_flatMap_filter hkey _).symm
  unfold walkOneSegment
  dsimp only
  rw [zipIdx_map_range, List.mapM_map]
  have hpages : (List.range (sf.pageCount seg % 2 ^ 16)).mapM
      ((fun page : BitVec 16 × Nat => if page.1 = pageStartNone then some []
        else walkChain bytes seg format importsCount (seg.filesize + 1)
          (page.2 * (BitVec.ofNat 16 sf.pageSize).toNat + page.1.toNat))
        ∘ fun i => (sf.pageStart seg i, i))
      = (List.range (sf.pageCount seg % 2 ^ 16)).mapM fun page =>
          (sf.onPage seg page).mapM (Fixup.stored format seg.vmaddr importsCount) :=
    mapM_congr fun page _ => hpage page
  rw [hpages]
  rw [hflat]
  cases hread : (List.range (sf.pageCount seg % 2 ^ 16)).mapM fun page =>
      (sf.onPage seg page).mapM (Fixup.stored format seg.vmaddr importsCount) with
  | none => rfl
  | some pages =>
    -- What is stored keeps its address, so the slots are in order already.
    rw [hread] at hflat
    have hsorted : pages.flatten.Pairwise fun f g => f.vaddr ≤ g.vaddr :=
      stored_sorted ((sf.slots_sorted.filter _).imp Nat.le_of_lt) hflat
    show some (sortByVaddr pages.flatten) = some pages.flatten
    rw [sortByVaddr_of_sorted hsorted]


/-! ## §4. The whole blob. -/

/-- The table of starts lists the segments that were put into it. -/
theorem startedSegments_lookup {starts : List (Nat × SegmentStarts)} {n : Nat}
    (hordered : starts.Pairwise fun s t => s.1 < t.1) (hin : ∀ s ∈ starts, s.1 < n) :
    startedSegments ((List.range n).map fun i =>
        (starts.reverse.find? fun s => s.1 == i).map Prod.snd)
      = starts.map fun s => (s.2, s.1) := by
  have hone : ∀ i, ((starts.reverse.find? fun s => s.1 == i).map Prod.snd).map
        (fun found => (found, i))
      = ((starts.reverse.find? fun s => s.1 == i).map fun s => (s.2, s.1)) := by
    intro i
    cases hfind : starts.reverse.find? fun s => s.1 == i with
    | none => rfl
    | some s =>
      have hi : s.1 = i := by simpa using List.find?_some hfind
      show some (s.2, i) = some (s.2, s.1)
      rw [hi]
  unfold startedSegments
  rw [zipIdx_map_range, List.filterMap_map]
  have hflat : (List.range n).filterMap
      ((fun s : Option SegmentStarts × Nat => s.1.map fun starts => (starts, s.2))
        ∘ fun i => ((starts.reverse.find? fun s => s.1 == i).map Prod.snd, i))
      = ((List.range n).flatMap fun i => starts.filter fun s => decide (s.1 = i)).map
        fun s => (s.2, s.1) := by
    rw [List.filterMap_eq_flatMap_toList, List.map_flatMap]
    refine List.flatMap_congr fun i _ => ?_
    rw [← toList_find?_reverse hordered]
    show (((starts.reverse.find? fun s => s.1 == i).map Prod.snd).map
        fun found => (found, i)).toList = _
    rw [hone, Option.toList_map]
  rw [hflat, range_flatMap_filter (hordered.imp Nat.le_of_lt)]
  congr 1
  exact List.filter_eq_self.mpr fun s hs => decide_eq_true (hin s hs)

/-- What is read for a segment that was written. -/
def SegmentFixups.reread (format : PointerFormat) (segments : List MachOSegment)
    (importsCount : Nat) (sf : SegmentFixups) : Option SegmentFixups := do
  let seg ← segments[sf.segmentIndex]?
  let fixups ← (sf.reached seg).mapM (Fixup.stored format seg.vmaddr importsCount)
  some ⟨sf.segmentIndex, sf.pageSize % 2 ^ 16, fixups⟩

/-- What is read after a write. -/
def ChainedFixups.reread (cf : ChainedFixups) (segments : List MachOSegment)
    (imports : ImportsBlob) : Option ChainedFixups := do
  let decoded ← decodeImports imports
  let walked ← cf.segments.mapM
    (SegmentFixups.reread cf.pointerFormat segments decoded.length)
  some ⟨cf.pointerFormat, decoded, walked, imports⟩

/-- A file in which the slots were written, with the segments it has then. -/
structure ChainedFixups.Written (cf : ChainedFixups) (segments segments' : List MachOSegment)
    (bytes : List Byte) : Prop where
  nonempty : cf.segments ≠ []
  ordered : cf.segments.Pairwise fun s t => s.segmentIndex < t.segmentIndex
  /-- Where there are slots, the segment is the one they were written for. -/
  segment : ∀ sf ∈ cf.segments, ∀ seg, segments[sf.segmentIndex]? = some seg →
    ∃ seg', segments'[sf.segmentIndex]? = some seg' ∧ (sf.fixups ≠ [] → seg' = seg)
  writable : ∀ sf ∈ cf.segments, ∀ seg, segments[sf.segmentIndex]? = some seg →
    sf.Writable cf.pointerFormat seg
  staged : ∀ sf ∈ cf.segments, ∀ seg, segments[sf.segmentIndex]? = some seg →
    sf.Staged cf.pointerFormat seg bytes

theorem reached_of_nil {sf : SegmentFixups} {seg : MachOSegment} (h : sf.fixups = []) :
    sf.reached seg = [] := by
  unfold SegmentFixups.reached SegmentFixups.slots
  rw [h]
  rfl

/-- The starts that were put into the blob for a segment. -/
def StartsOf (cf : ChainedFixups) (segments : List MachOSegment) (sf : SegmentFixups)
    (s : Nat × SegmentStarts) : Prop :=
  ∃ seg, segments[sf.segmentIndex]? = some seg
    ∧ sf.fixups.all (slotAccepted cf.pointerFormat cf.imports.length seg) = true
    ∧ s.1 = sf.segmentIndex ∧ buildStartsInSegment cf.pointerFormat sf seg = some s.2

theorem blobStarts_forall₂ {cf : ChainedFixups} {segments : List MachOSegment}
    {starts : List (Nat × SegmentStarts)} (h : cf.blobStarts segments = some starts) :
    List.Forall₂ (StartsOf cf segments) cf.segments starts := by
  refine (mapM_eq_some_iff.mp h).imp fun sf s hs => ?_
  obtain ⟨seg, hseg, hs⟩ := Option.bind_eq_some_iff.mp hs
  obtain ⟨haccepted, hs⟩ := Option.ite_none_right_eq_some.mp hs
  obtain ⟨built, hbuilt, hs⟩ := Option.bind_eq_some_iff.mp hs
  cases hs
  exact ⟨seg, hseg, haccepted, rfl, hbuilt⟩

/-- One segment of the blob, read in the file. -/
theorem StartsOf.read_eq {cf : ChainedFixups} {segments segments' : List MachOSegment}
    {bytes : List Byte} {sf : SegmentFixups} {s : Nat × SegmentStarts} {importsCount : Nat}
    (hwritten : cf.Written segments segments' bytes) (hmem : sf ∈ cf.segments)
    (h : StartsOf cf segments sf s) :
    (do
      let seg ← segments'[s.1]?
      let fixups ← walkOneSegment bytes seg importsCount s.2
      some (SegmentFixups.mk s.1 s.2.pageSize.toNat fixups))
      = sf.reread cf.pointerFormat segments importsCount := by
  obtain ⟨seg, hseg, _, hindex, hbuilt⟩ := h
  obtain ⟨seg', hseg', hsame⟩ := hwritten.segment sf hmem seg hseg
  have hwalk : walkOneSegment bytes seg' importsCount s.2
      = (sf.reached seg).mapM (Fixup.stored cf.pointerFormat seg.vmaddr importsCount) := by
    by_cases hnil : sf.fixups = []
    · -- Without slots the count is zero, and no page is looked at.
      unfold buildStartsInSegment at hbuilt
      obtain ⟨_, hbuilt⟩ := Option.ite_none_right_eq_some.mp hbuilt
      have hcount : sf.pageCount seg = 0 := by
        unfold SegmentFixups.pageCount
        rw [hnil]
        rfl
      rw [hcount] at hbuilt
      rw [reached_of_nil hnil, ← Option.some.inj hbuilt]
      rfl
    · rw [hsame hnil]
      exact walkOneSegment_starts (hwritten.writable sf hmem seg hseg) hbuilt
        (hwritten.staged sf hmem seg hseg)
  have hpageSize : s.2.pageSize.toNat = sf.pageSize % 2 ^ 16 := by
    unfold buildStartsInSegment at hbuilt
    obtain ⟨_, hbuilt⟩ := Option.ite_none_right_eq_some.mp hbuilt
    rw [← Option.some.inj hbuilt]
    exact BitVec.toNat_ofNat _ _
  unfold SegmentFixups.reread
  rw [hindex, hseg', hseg, Option.bind_eq_bind, Option.bind_some, Option.bind_eq_bind,
    Option.bind_some, hwalk, hpageSize]

theorem StartsOf.format_eq {cf : ChainedFixups} {segments : List MachOSegment}
    {sf : SegmentFixups} {s : Nat × SegmentStarts} (h : StartsOf cf segments sf s) :
    s.2.format = cf.pointerFormat := by
  obtain ⟨seg, _, _, _, hbuilt⟩ := h
  unfold buildStartsInSegment at hbuilt
  obtain ⟨_, hbuilt⟩ := Option.ite_none_right_eq_some.mp hbuilt
  rw [← Option.some.inj hbuilt]

/-- **Reading after a write.**  The slots on the covered pages come back with the
targets that their words can hold, under the imports as they were measured. -/
theorem read_serialize {cf : ChainedFixups} {segments segments' : List MachOSegment}
    {bytes : List Byte} {room : Nat} {blob : FixupsBlob}
    (hwritten : cf.Written segments segments' bytes)
    (hserialize : cf.serialize segments room = some blob) :
    ChainedFixups.read blob bytes segments' = cf.reread segments blob.imports := by
  obtain ⟨starts, hstarts, h⟩ := Option.bind_eq_some_iff.mp hserialize
  obtain ⟨imports, _, h⟩ := Option.bind_eq_some_iff.mp h
  cases h
  have hall := blobStarts_forall₂ hstarts
  have hkeys : starts.map Prod.fst = cf.segments.map SegmentFixups.segmentIndex :=
    (map_eq_map_of_forall₂ (hall.imp fun sf s hs => by
      obtain ⟨_, _, _, hindex, _⟩ := hs
      exact hindex.symm)).symm
  have hordered : starts.Pairwise fun s t => s.1 < t.1 := by
    rw [← List.pairwise_map (f := Prod.fst) (R := (· < ·)), hkeys, List.pairwise_map]
    exact hwritten.ordered
  have hin : ∀ s ∈ starts, s.1 < segments.length := by
    intro s hs
    obtain ⟨sf, _, seg, hseg, _, hindex, _⟩ := exists_mem_of_forall₂ hall hs
    rw [hindex]
    exact (List.getElem?_eq_some_iff.mp hseg).1
  have hstarted := startedSegments_lookup hordered hin
  have hmap : ∀ importsCount, (starts.map fun s => (s.2, s.1)).mapM
      (fun s : SegmentStarts × Nat => do
        let seg ← segments'[s.2]?
        let fixups ← walkOneSegment bytes seg importsCount s.1
        some (SegmentFixups.mk s.2 s.1.pageSize.toNat fixups))
      = cf.segments.mapM (SegmentFixups.reread cf.pointerFormat segments importsCount) := by
    intro importsCount
    rw [List.mapM_map]
    symm
    have hpairs := (List.forall₂_and_left _ _).mpr ⟨fun sf hsf => hsf, hall⟩
    exact mapM_of_forall₂ (hpairs.imp fun sf s hs => (hs.2.read_eq hwritten hs.1).symm)
  have hformat : ∀ s ∈ starts, s.2.format = cf.pointerFormat := by
    intro s hs
    obtain ⟨sf, _, hsf⟩ := exists_mem_of_forall₂ hall hs
    exact hsf.format_eq
  unfold ChainedFixups.read ChainedFixups.reread
  dsimp only
  rw [hstarted]
  cases starts with
  | nil =>
    rw [List.forall₂_nil_right_iff] at hall
    exact absurd hall hwritten.nonempty
  | cons s rest =>
    cases decodeImports imports with
    | none => rfl
    | some decoded =>
      have hsame : ((rest.map fun s => (s.2, s.1)).any
          fun t => t.1.format != s.2.format) = false := by
        rw [List.any_eq_false]
        intro t ht
        obtain ⟨r, hr, rfl⟩ := List.mem_map.mp ht
        rw [hformat r (List.mem_cons_of_mem _ hr), hformat s List.mem_cons_self]
        simp
      have hread := hmap decoded.length
      rw [List.map_cons] at hread
      show (if ((rest.map fun s => (s.2, s.1)).any fun t => t.1.format != s.2.format) = true
          then none else _) = _
      rw [hsame, if_neg (by decide), hread, hformat s List.mem_cons_self]
      rfl

end Armv8Encode.MachO

/-
  Armv8Encode.Container.MachO.SlotWords — the words of the slots, decoded.

  The writer checks where a slot stands and how far the next one is, and for
  the authenticated formats that an addend fits.  It does not check the other
  fields: a target, an import index or a plain addend that its field cannot
  hold is cut to the field, and the word then names something else.

  `decodeOne_representable`: what a word names, a word can hold.
  `chainDecodes_iff`: the words of one page.
  `slotsDecode_iff`: the words of all slots that the writer accepts.
-/
import Armv8Encode.Container.MachO.ChainedBlob
import Armv8Encode.Container.MachO.ChainedSlots

namespace Armv8Encode.MachO

open Lib

/-! ## §1. One word. -/

/-- A target that the words of a format can hold. -/
def FixupTarget.Representable (format : PointerFormat) (segBase : Nat) (target : FixupTarget) :
    Prop :=
  target.Fits format ∧ ∀ targetVaddr, target = .rebase targetVaddr →
    format.Represents segBase targetVaddr

theorem FixupTarget.representable_bind {format : PointerFormat} {segBase importIndex : Nat}
    {addend : Int} :
    (FixupTarget.bind importIndex addend).Representable format segBase
      ↔ (FixupTarget.bind importIndex addend).Fits format :=
  ⟨fun h => h.1, fun h => ⟨h, fun _ heq => nomatch heq⟩⟩

/-- **What a word names, a word can hold.** -/
theorem decodeOne_representable {format : PointerFormat} {target : FixupTarget}
    {word importsCount segBase next : Nat}
    (h : decodeOne word format importsCount segBase = some (target, next)) :
    target.Representable format segBase := by
  refine ⟨decodeOne_fits h, ?_⟩
  rintro targetVaddr rfl
  unfold decodeOne at h
  dsimp only at h
  by_cases hbind : word / 2 ^ (if format.isPlain then 63 else 62) % 2 = 1
  · rw [if_pos hbind] at h
    obtain ⟨_, h⟩ := Option.ite_none_left_eq_some.mp h
    -- A bind is no rebase.
    split at h <;> cases h
  · rw [if_neg hbind] at h
    injection h with h
    injection h with h _
    injection h with h
    unfold PointerFormat.Represents
    by_cases hrel : format.isRelative = true
    · rw [if_pos hrel] at h ⊢
      omega
    · rw [if_neg hrel] at h ⊢
      omega

/-- The word of a target that it can hold names that target. -/
theorem decodeOne_of_representable {format : PointerFormat} {target : FixupTarget}
    {next segBase word importsCount : Nat} (hheld : target.Representable format segBase)
    (hindex : ∀ i a, target = .bind i a → i < importsCount) (hnext : next < 2 ^ format.nextBits)
    (h : encodeOne target format next segBase = some word) :
    decodeOne word format importsCount segBase = some (target, next) := by
  rw [decodeOne_encodeOne hheld.1 hnext h]
  cases target with
  | rebase t =>
    show some (FixupTarget.rebase (format.storedTarget segBase t), next) = _
    rw [PointerFormat.storedTarget_eq_iff.mpr (hheld.2 t rfl)]
  | bind i a =>
    show (if importsCount ≤ i then none else some (FixupTarget.bind i a)).map _ = _
    rw [if_neg (Nat.not_le.mpr (hindex i a rfl))]
    rfl

/-! ## §2. One page. -/

/-- How far it is to the next slot; the last has none. -/
def distanceTo (f : Fixup) : List Fixup → Nat
  | [] => 0
  | g :: _ => g.vaddr - f.vaddr

/-- The words are at the slots, name their targets, and lead from each to the next. -/
def ChainDecodes (format : PointerFormat) (importsCount : Nat) (seg : MachOSegment) :
    List Fixup → List (Nat × List Byte) → Prop
  | [], words => words = []
  | f :: rest, words => ∃ w later next, words = w :: later ∧ w.1 = slotOffset seg f
    ∧ w.2.length = 8
    ∧ decodeOne (leValue w.2) format importsCount seg.vmaddr = some (f.target, next)
    ∧ next * format.stride = distanceTo f rest ∧ ChainDecodes format importsCount seg rest later

section Chain

variable {format : PointerFormat} {importsCount : Nat} {seg : MachOSegment} {fs : List Fixup}
  {words : List (Nat × List Byte)}

theorem ChainDecodes.representable (h : ChainDecodes format importsCount seg fs words) :
    ∀ f ∈ fs, f.target.Representable format seg.vmaddr := by
  induction fs generalizing words with
  | nil => exact fun f hf => absurd hf List.not_mem_nil
  | cons f rest ih =>
    obtain ⟨w, later, next, _, _, _, hdecode, _, hlater⟩ := h
    intro g hg
    obtain rfl | hg := List.mem_cons.mp hg
    · exact decodeOne_representable hdecode
    · exact ih hlater g hg

/-- The step that is written leads to the next slot. -/
theorem step_spec {f : Fixup} {rest : List Fixup}
    (hsorted : (f :: rest).Pairwise fun f g => f.vaddr < g.vaddr)
    (haligned : ∀ g ∈ f :: rest, g.vaddr % format.stride = 0)
    (hsteps : stepsFit format (f :: rest) = true) :
    distanceTo f rest / format.stride < 2 ^ format.nextBits
      ∧ distanceTo f rest / format.stride * format.stride = distanceTo f rest := by
  cases rest with
  | nil =>
    show 0 / format.stride < _ ∧ 0 / format.stride * format.stride = 0
    rw [Nat.zero_div, Nat.zero_mul]
    exact ⟨Nat.two_pow_pos _, rfl⟩
  | cons g rest =>
    have hlt : f.vaddr < g.vaddr := List.rel_of_pairwise_cons hsorted List.mem_cons_self
    obtain ⟨_, hnext, hstep⟩ := next_spec_of_stepsFit hlt (haligned f List.mem_cons_self)
      (haligned g (List.mem_cons_of_mem _ List.mem_cons_self)) hsteps
    exact ⟨hnext, by
      show (g.vaddr - f.vaddr) / format.stride * format.stride = g.vaddr - f.vaddr
      omega⟩

/-- **The words of a page decode to their slots** exactly if they can hold the targets. -/
theorem chainDecodes_iff (hsorted : fs.Pairwise fun f g => f.vaddr < g.vaddr)
    (haligned : ∀ f ∈ fs, f.vaddr % format.stride = 0) (hsteps : stepsFit format fs = true)
    (hindex : ∀ f ∈ fs, ∀ i a, f.target = .bind i a → i < importsCount)
    (hwords : chainWords format seg fs = some words) :
    ChainDecodes format importsCount seg fs words
      ↔ ∀ f ∈ fs, f.target.Representable format seg.vmaddr := by
  refine ⟨ChainDecodes.representable, fun hheld => ?_⟩
  induction fs generalizing words with
  | nil =>
    cases hwords
    exact rfl
  | cons f rest ih =>
    obtain ⟨word, hword, hwords⟩ := Option.bind_eq_some_iff.mp hwords
    obtain ⟨later, hlater, hwords⟩ := Option.bind_eq_some_iff.mp hwords
    cases hwords
    have hencode : encodeOne f.target format (distanceTo f rest / format.stride) seg.vmaddr
        = some word := by
      cases rest <;> exact hword
    obtain ⟨hnext, hstep⟩ := step_spec hsorted haligned hsteps
    have hvalue : leValue (leBytes 8 word) = word := by
      rw [leValue_leBytes, Nat.mod_eq_of_lt (encodeOne_lt hword)]
    refine ⟨_, later, distanceTo f rest / format.stride, rfl, rfl, leBytes_length _ _, ?_, hstep, ?_⟩
    · dsimp only
      rw [hvalue]
      exact decodeOne_of_representable (hheld f List.mem_cons_self)
        (hindex f List.mem_cons_self) hnext hencode
    · exact ih hsorted.tail (fun g hg => haligned g (List.mem_cons_of_mem _ hg))
        (stepsFit_tail hsteps) (fun g hg => hindex g (List.mem_cons_of_mem _ hg)) hlater
        fun g hg => hheld g (List.mem_cons_of_mem _ hg)

end Chain

/-! ## §3. All slots. -/

namespace EditableFixups

/-- The slots that a successful write has accepted. -/
structure Accepted (e : EditableFixups) (seg : MachOSegment) (sf : SegmentFixups) : Prop where
  aligned : ∀ f ∈ sf.fixups, f.vaddr % e.pointerFormat.stride = 0
  inside : ∀ f ∈ sf.fixups, seg.vmaddr ≤ f.vaddr ∧ f.vaddr < seg.vmaddr + seg.vmsize
  index : ∀ f ∈ sf.fixups, ∀ i a, f.target = .bind i a → i < e.imports.length
  steps : ∀ page ∈ sf.pages seg, stepsFit e.pointerFormat (sf.onPage seg page) = true

theorem accepted_of_serialize {e : EditableFixups} {segments : List MachOSegment} {out : List Byte}
    (h : e.serialize segments = some out) {sf : SegmentFixups} (hsf : sf ∈ e.segments) :
    ∃ seg, segments[sf.segmentIndex]? = some seg ∧ e.Accepted seg sf := by
  obtain ⟨payloads, hpayloads, _⟩ := Option.bind_eq_some_iff.mp h
  obtain ⟨built, hbuilt, _⟩ := Option.bind_eq_some_iff.mp hpayloads
  obtain ⟨_, _, hone⟩ := exists_mem_of_mapM hbuilt hsf
  obtain ⟨seg, hseg, hone⟩ := Option.bind_eq_some_iff.mp hone
  obtain ⟨haccepted, hone⟩ := Option.ite_none_right_eq_some.mp hone
  obtain ⟨payload, hpayload, _⟩ := Option.bind_eq_some_iff.mp hone
  have hslot : ∀ f ∈ sf.fixups, f.vaddr % e.pointerFormat.stride = 0
      ∧ (seg.vmaddr ≤ f.vaddr ∧ f.vaddr < seg.vmaddr + seg.vmsize)
      ∧ ∀ i a, f.target = .bind i a → i < e.imports.length := by
    intro f hf
    have hall := List.all_eq_true.mp haccepted f hf
    unfold slotAccepted at hall
    simp only [Bool.and_eq_true, beq_iff_eq, decide_eq_true_eq] at hall
    obtain ⟨⟨⟨haligned, hlow⟩, hhigh⟩, htarget⟩ := hall
    refine ⟨haligned, ⟨hlow, hhigh⟩, fun i a heq => ?_⟩
    rw [heq] at htarget
    exact of_decide_eq_true htarget
  refine ⟨seg, hseg, fun f hf => (hslot f hf).1, fun f hf => (hslot f hf).2.1,
    fun f hf => (hslot f hf).2.2, fun page hpage => ?_⟩
  unfold startsPayload at hpayload
  dsimp only at hpayload
  by_cases hnone : sf.fixups = []
  · -- Without slots there is no page.
    have hempty : sf.slots = [] := by
      unfold SegmentFixups.slots
      rw [hnone]
      rfl
    unfold SegmentFixups.pages at hpage
    rw [hempty] at hpage
    cases hpage
  · rw [if_neg hnone] at hpayload
    obtain ⟨_, hpayload⟩ := Option.ite_none_left_eq_some.mp hpayload
    obtain ⟨hsteps, _⟩ := Option.ite_none_right_eq_some.mp hpayload
    exact List.all_eq_true.mp hsteps page hpage

/-- Every page's chain is among the words, and every word is of such a chain. -/
structure SlotsDecode (e : EditableFixups) (segments : List MachOSegment)
    (words : List (Nat × List Byte)) : Prop where
  chains : ∀ sf ∈ e.segments, ∀ seg, segments[sf.segmentIndex]? = some seg →
    ∀ page ∈ sf.pages seg, ∃ chain,
      ChainDecodes e.pointerFormat e.imports.length seg (sf.onPage seg page) chain
        ∧ ∀ w ∈ chain, w ∈ words
  words : ∀ w ∈ words, ∃ sf ∈ e.segments, ∃ seg, segments[sf.segmentIndex]? = some seg
    ∧ ∃ page chain, ChainDecodes e.pointerFormat e.imports.length seg (sf.onPage seg page) chain
      ∧ w ∈ chain

/-- **The words of all slots decode to their fixups** exactly if every target can be held. -/
theorem slotsDecode_iff {e : EditableFixups} {segments : List MachOSegment} {out : List Byte}
    {words : List (Nat × List Byte)} (hserialize : e.serialize segments = some out)
    (hwords : e.view.slotBytes segments = some words) :
    e.SlotsDecode segments words
      ↔ ∀ sf ∈ e.segments, ∀ seg, segments[sf.segmentIndex]? = some seg →
        ∀ f ∈ sf.slots, f.target.Representable e.pointerFormat seg.vmaddr := by
  constructor
  · intro hdecode sf hsf seg hseg f hf
    have hpage : f ∈ sf.onPage seg (sf.pageOf seg f) := SegmentFixups.mem_onPage.mpr ⟨hf, rfl⟩
    obtain ⟨chain, hchain, _⟩ := hdecode.chains sf hsf seg hseg _
      (SegmentFixups.mem_pages.mpr (List.ne_nil_of_mem hpage))
    exact hchain.representable f hpage
  · intro hheld
    have hone : ∀ sf ∈ e.segments, ∀ seg, segments[sf.segmentIndex]? = some seg → ∀ page,
        ∀ chain, chainWords e.pointerFormat seg (sf.onPage seg page) = some chain →
        ChainDecodes e.pointerFormat e.imports.length seg (sf.onPage seg page) chain := by
      intro sf hsf seg hseg page chain hchain
      obtain ⟨seg', hseg', haccepted⟩ := accepted_of_serialize hserialize hsf
      obtain rfl := Option.some.inj (hseg.symm.trans hseg')
      have hfixup : ∀ f ∈ sf.onPage seg page, f ∈ sf.fixups := fun f hf =>
        SegmentFixups.mem_fixups_of_mem_slots (SegmentFixups.mem_onPage.mp hf).1
      have hsteps : stepsFit e.pointerFormat (sf.onPage seg page) = true := by
        by_cases hnil : sf.onPage seg page = []
        · rw [hnil]
          rfl
        · exact haccepted.steps page (SegmentFixups.mem_pages.mpr hnil)
      refine (chainDecodes_iff (sf.slots_sorted.filter _)
        (fun f hf => haccepted.aligned f (hfixup f hf)) hsteps
        (fun f hf => haccepted.index f (hfixup f hf)) hchain).mpr fun f hf => ?_
      exact hheld sf hsf seg hseg f (SegmentFixups.mem_onPage.mp hf).1
    constructor
    · intro sf hsf seg hseg page hpage
      obtain ⟨chain, hchain, hin⟩ := exists_chainWords hwords hsf hseg hpage
      exact ⟨chain, hone sf hsf seg hseg page chain hchain, hin⟩
    · intro w hw
      obtain ⟨sf, hsf, seg, hseg, page, chain, hchain, hin⟩ := exists_chain_of_mem hwords hw
      exact ⟨sf, hsf, seg, hseg, page, chain, hone sf hsf seg hseg page chain hchain, hin⟩

/-- A segment of one page. -/
def onePage : MachOSegment := ⟨"__DATA", 0x1000, 0x1000, 0, 0x1000⟩

/-- A pointer to a page behind the segment, and one to an import. -/
def twoSlots (addend : Int) : EditableFixups :=
  ⟨.ptr64, [⟨1, "a", 0, false⟩],
    [⟨0, 4096, [⟨0x1000, .rebase 0x2000⟩, ⟨0x1008, .bind 0 addend⟩]⟩], 1, leBytes 4 1 ++ [97, 0],
    [⟨1, "a", 0, false⟩]⟩

theorem twoSlots_decode :
    ∃ words, (twoSlots 5).view.slotBytes [onePage] = some words
      ∧ (twoSlots 5).SlotsDecode [onePage] words := by
  have hserialize : (twoSlots 5).serialize [onePage]
      = some ((twoSlots 5).serialize [onePage]).get! := rfl
  refine ⟨_, rfl, (slotsDecode_iff hserialize rfl).mpr ?_⟩
  intro sf hsf seg hseg f hf
  obtain rfl := List.mem_singleton.mp hsf
  cases hseg
  have hslots : f ∈ [Fixup.mk 0x1000 (.rebase 0x2000), ⟨0x1008, .bind 0 5⟩] := hf
  obtain rfl | hf := List.mem_cons.mp hslots
  · refine ⟨trivial, fun t ht => ?_⟩
    cases ht
    show 0x2000 < 2 ^ 36
    decide
  · obtain rfl := List.mem_singleton.mp hf
    refine FixupTarget.representable_bind.mpr ⟨by decide, ?_⟩
    show 0 ≤ (5 : Int) ∧ (5 : Int) < 2 ^ 8
    decide

/-- An addend of minus one is written in eight bits without a sign. -/
theorem slotBytes_wraps_addend :
    ¬ ∀ (e : EditableFixups) (segments : List MachOSegment) (out : List Byte)
        (words : List (Nat × List Byte)),
      e.serialize segments = some out → e.view.slotBytes segments = some words →
      e.SlotsDecode segments words := by
  intro hall
  have hdecode := hall (twoSlots (-1)) [onePage] _ _ rfl rfl
  obtain ⟨chain, hchain, _⟩ := hdecode.chains _ List.mem_cons_self onePage rfl 0 (by decide)
  have hheld := hchain.representable ⟨0x1008, .bind 0 (-1)⟩ (by decide)
  have hsigned : 0 ≤ (-1 : Int) ∧ (-1 : Int) < 2 ^ 8 := (FixupTarget.representable_bind.mp hheld).2
  exact absurd hsigned.1 (by decide)

end EditableFixups

end Armv8Encode.MachO

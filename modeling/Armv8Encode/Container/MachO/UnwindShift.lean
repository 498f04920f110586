/-
  Armv8Encode.Container.MachO.UnwindShift — what a run over the unwind section shifts.

  The fields that hold an image offset are the slots of the section's parts.
  While the parts keep clear of each other, no shift changes what a later one
  is found by: a run shifts the slots in order, each once, and stops behind
  some of them or at the end.  What is read between the slots is as it was.
-/
import Armv8Encode.Container.MachO.UnwindInfo
import Armv8Encode.Lib.Writes

namespace Armv8Encode.MachO

open Lib

/-! ## §1. The parts of a section. -/

/-- The 32-bit number at an offset, zero where the section ends before. -/
def wordAt (b : List Byte) (offset : Nat) : Nat := (readLe 4 b offset).getD 0

def halfAt (b : List Byte) (offset : Nat) : Nat := (readLe 2 b offset).getD 0

def indexCountOf (b : List Byte) : Nat := wordAt b 24

def indexEntryAt (b : List Byte) (i : Nat) : Nat := wordAt b 20 + i * 12

/-- The second-level page of an index entry; zero if it has none. -/
def pageOf (b : List Byte) (i : Nat) : Nat := wordAt b (indexEntryAt b i + 4)

def lsdaOf (b : List Byte) (i : Nat) : Nat := wordAt b (indexEntryAt b i + 8)

def pageKind (b : List Byte) (i : Nat) : Nat :=
  if pageOf b i = 0 then 0 else wordAt b (pageOf b i)

/-- How many entries a page has. -/
def pageCount (b : List Byte) (i : Nat) : Nat := halfAt b (pageOf b i + 6)

inductive UnwindPart where
  | header
  | commonEncodings
  | personalities
  | index
  | pageHeader (i : Nat)
  | pageEntries (i : Nat)
  | pageEncodings (i : Nat)
  | lsdas
  deriving Repr, DecidableEq

def UnwindPart.start (b : List Byte) : UnwindPart → Nat
  | .header => 0
  | .commonEncodings => wordAt b 4
  | .personalities => wordAt b 12
  | .index => wordAt b 20
  | .pageHeader i => pageOf b i
  | .pageEntries i => pageOf b i + halfAt b (pageOf b i + 4)
  | .pageEncodings i => pageOf b i + halfAt b (pageOf b i + 8)
  | .lsdas => lsdaOf b 0

def UnwindPart.size (b : List Byte) : UnwindPart → Nat
  | .header => 28
  | .commonEncodings => wordAt b 8 * 4
  | .personalities => wordAt b 16 * 4
  | .index => indexCountOf b * 12
  | .pageHeader i =>
    if pageOf b i = 0 then 0
    else if pageKind b i = unwindSecondLevelRegular then 8
    else if pageKind b i = unwindSecondLevelCompressed then 12
    else 4
  | .pageEntries i =>
    if pageKind b i = unwindSecondLevelRegular then pageCount b i * 8
    else if pageKind b i = unwindSecondLevelCompressed then pageCount b i * 4
    else 0
  | .pageEncodings i =>
    if pageKind b i = unwindSecondLevelCompressed then halfAt b (pageOf b i + 10) * 4 else 0
  | .lsdas => lsdaOf b (indexCountOf b - 1) - lsdaOf b 0

/-- No byte in common. -/
def UnwindPart.Clear (b : List Byte) (p q : UnwindPart) : Prop :=
  p.size b = 0 ∨ q.size b = 0 ∨ p.start b + p.size b ≤ q.start b ∨ q.start b + q.size b ≤ p.start b

instance (b : List Byte) (p q : UnwindPart) : Decidable (p.Clear b q) :=
  inferInstanceAs (Decidable (_ ∨ _ ∨ _ ∨ _))

/-- The tables that hold image offsets, with the pages whole. -/
def unwindTables (b : List Byte) : List UnwindPart :=
  [.personalities, .index, .lsdas] ++
    (List.range (indexCountOf b)).flatMap fun i => [.pageHeader i, .pageEntries i, .pageEncodings i]

def unwindParts (b : List Byte) : List UnwindPart := [.header, .commonEncodings] ++ unwindTables b

def AllClear (b : List Byte) (parts : List UnwindPart) : Prop :=
  ∀ p ∈ parts, ∀ q ∈ parts, p ≠ q → p.Clear b q

instance (b : List Byte) (parts : List UnwindPart) : Decidable (AllClear b parts) :=
  inferInstanceAs (Decidable (∀ p ∈ parts, ∀ q ∈ parts, p ≠ q → p.Clear b q))

/-- No compressed page has functions on both sides of the growth point. -/
def NoPageSpans (growthPoint : Nat) (b : List Byte) : Prop :=
  ∀ i < indexCountOf b, pageKind b i = unwindSecondLevelCompressed →
    wordAt b (indexEntryAt b i) < growthPoint →
      ∀ j < pageCount b i,
        wordAt b (indexEntryAt b i)
          + wordAt b (UnwindPart.start b (.pageEntries i) + j * 4) % 2 ^ 24 < growthPoint

instance (growthPoint : Nat) (b : List Byte) : Decidable (NoPageSpans growthPoint b) :=
  inferInstanceAs (Decidable (∀ i < indexCountOf b, _ → _ → ∀ j < pageCount b i, _))

/-! ## §2. The slots. -/

/-- A 32-bit field of a part. -/
structure UnwindSlot where
  part : UnwindPart
  offset : Nat
  deriving Repr, DecidableEq

def UnwindSlot.address (b : List Byte) (s : UnwindSlot) : Nat := s.part.start b + s.offset

def personalitySlots (b : List Byte) : List UnwindSlot :=
  (List.range (wordAt b 16)).map fun i => ⟨.personalities, i * 4⟩

def pageSlots (b : List Byte) (i : Nat) : List UnwindSlot :=
  if pageKind b i = unwindSecondLevelRegular then
    (List.range (pageCount b i)).map fun j => ⟨.pageEntries i, j * 8⟩
  else []

def indexSlots (b : List Byte) (i : Nat) : List UnwindSlot := ⟨.index, i * 12⟩ :: pageSlots b i

def lsdaSlots (b : List Byte) : List UnwindSlot :=
  (List.range (UnwindPart.lsdas.size b / 8)).flatMap fun k => [⟨.lsdas, k * 8⟩, ⟨.lsdas, k * 8 + 4⟩]

/-- The fields with an image offset, in the order a run comes to them. -/
def unwindSlots (b : List Byte) : List UnwindSlot :=
  personalitySlots b ++ (List.range (indexCountOf b)).flatMap (indexSlots b) ++ lsdaSlots b

def unwindFields (b : List Byte) : List Nat := (unwindSlots b).map (UnwindSlot.address b)

theorem mem_personalitySlots {b : List Byte} {s : UnwindSlot} (h : s ∈ personalitySlots b) :
    ∃ i < wordAt b 16, s = ⟨.personalities, i * 4⟩ := by
  obtain ⟨i, hi, rfl⟩ := List.mem_map.mp h
  exact ⟨i, List.mem_range.mp hi, rfl⟩

theorem mem_pageSlots {b : List Byte} {i : Nat} {s : UnwindSlot} (h : s ∈ pageSlots b i) :
    pageKind b i = unwindSecondLevelRegular ∧ ∃ j < pageCount b i, s = ⟨.pageEntries i, j * 8⟩ := by
  unfold pageSlots at h
  split at h
  · next hkind =>
    obtain ⟨j, hj, rfl⟩ := List.mem_map.mp h
    exact ⟨hkind, j, List.mem_range.mp hj, rfl⟩
  · cases h

theorem mem_lsdaSlots {b : List Byte} {s : UnwindSlot} (h : s ∈ lsdaSlots b) :
    ∃ k < UnwindPart.lsdas.size b / 8, s = ⟨.lsdas, k * 8⟩ ∨ s = ⟨.lsdas, k * 8 + 4⟩ := by
  obtain ⟨k, hk, hs⟩ := List.mem_flatMap.mp h
  refine ⟨k, List.mem_range.mp hk, ?_⟩
  simpa using hs

/-- The four shapes of a slot. -/
theorem mem_unwindSlots {b : List Byte} {s : UnwindSlot} (h : s ∈ unwindSlots b) :
    (∃ i < wordAt b 16, s = ⟨.personalities, i * 4⟩) ∨
    (∃ i < indexCountOf b, s = ⟨.index, i * 12⟩) ∨
    (∃ i < indexCountOf b, pageKind b i = unwindSecondLevelRegular ∧
      ∃ j < pageCount b i, s = ⟨.pageEntries i, j * 8⟩) ∨
    (∃ k < UnwindPart.lsdas.size b / 8, s = ⟨.lsdas, k * 8⟩ ∨ s = ⟨.lsdas, k * 8 + 4⟩) := by
  unfold unwindSlots at h
  rw [List.mem_append, List.mem_append] at h
  obtain (hperson | hindex) | hlsda := h
  · exact .inl (mem_personalitySlots hperson)
  · obtain ⟨i, hi, hs⟩ := List.mem_flatMap.mp hindex
    have hi' := List.mem_range.mp hi
    obtain rfl | hs := List.mem_cons.mp hs
    · exact .inr (.inl ⟨i, hi', rfl⟩)
    · exact .inr (.inr (.inl ⟨i, hi', mem_pageSlots hs⟩))
  · exact .inr (.inr (.inr (mem_lsdaSlots hlsda)))

/-- The parts that have slots. -/
def UnwindPart.hasSlots : UnwindPart → Bool
  | .personalities | .index | .pageEntries _ | .lsdas => true
  | _ => false

theorem ne_of_mem_unwindSlots {b : List Byte} {p : UnwindPart} (hp : p.hasSlots = false)
    {s : UnwindSlot} (h : s ∈ unwindSlots b) : s.part ≠ p := by
  intro heq
  subst heq
  obtain ⟨i, -, rfl⟩ | ⟨i, -, rfl⟩ | ⟨i, -, -, j, -, rfl⟩ | ⟨k, -, rfl | rfl⟩ :=
    mem_unwindSlots h <;> cases hp

/-- An index entry starts with its slot. -/
theorem indexSlot_clear {b : List Byte} {i o : Nat} (hlow : 4 ≤ o) (hhigh : o + 4 ≤ 12) :
    ∀ s ∈ unwindSlots b, s.part = .index → i * 12 + o + 4 ≤ s.offset ∨ s.offset + 4 ≤ i * 12 + o := by
  intro s hs hpart
  obtain ⟨k, -, rfl⟩ | ⟨k, -, rfl⟩ | ⟨k, -, -, j, -, rfl⟩ | ⟨k, -, rfl | rfl⟩ :=
    mem_unwindSlots hs
  · cases hpart
  · simp only
    omega
  · cases hpart
  · cases hpart
  · cases hpart

theorem mem_unwindParts_page {b : List Byte} {i : Nat} (hi : i < indexCountOf b) :
    .pageHeader i ∈ unwindParts b ∧ .pageEntries i ∈ unwindParts b ∧
      .pageEncodings i ∈ unwindParts b := by
  have hmem : ∀ p ∈ [UnwindPart.pageHeader i, .pageEntries i, .pageEncodings i],
      p ∈ unwindParts b := by
    intro p hp
    exact List.mem_append_right _ (List.mem_append_right _
      (List.mem_flatMap.mpr ⟨i, List.mem_range.mpr hi, hp⟩))
  exact ⟨hmem _ (by simp), hmem _ (by simp), hmem _ (by simp)⟩

/-- Every slot is a field of one of the parts. -/
theorem inside_of_mem_unwindSlots {b : List Byte} {s : UnwindSlot} (h : s ∈ unwindSlots b) :
    s.part ∈ unwindParts b ∧ s.offset + 4 ≤ s.part.size b := by
  obtain ⟨i, hi, rfl⟩ | ⟨i, hi, rfl⟩ | ⟨i, hi, hkind, j, hj, rfl⟩ | ⟨k, hk, rfl | rfl⟩ :=
    mem_unwindSlots h
  · exact ⟨by simp [unwindParts, unwindTables], by simp only [UnwindPart.size]; omega⟩
  · exact ⟨by simp [unwindParts, unwindTables], by simp only [UnwindPart.size]; omega⟩
  · exact ⟨(mem_unwindParts_page hi).2.1, by simp only [UnwindPart.size, hkind, if_true]; omega⟩
  · exact ⟨by simp [unwindParts, unwindTables], by simp only; omega⟩
  · exact ⟨by simp [unwindParts, unwindTables], by simp only; omega⟩

/-- Fields of parts that keep clear are apart, and so are fields of one part
behind each other. -/
theorem apart_of_allClear {b : List Byte} (hclear : AllClear b (unwindParts b)) {p q : UnwindPart}
    {o w o' w' : Nat} (hp : p ∈ unwindParts b) (hq : q ∈ unwindParts b) (hw : 0 < w) (hw' : 0 < w')
    (ho : o + w ≤ p.size b) (ho' : o' + w' ≤ q.size b)
    (h : p = q → o + w ≤ o' ∨ o' + w' ≤ o) :
    p.start b + o + w ≤ q.start b + o' ∨ q.start b + o' + w' ≤ p.start b + o := by
  by_cases hpq : p = q
  · subst hpq
    have := h rfl
    omega
  · have := hclear p hp q hq hpq
    unfold UnwindPart.Clear at this
    omega

/-- What is in a part and beside its slots is apart from all fields. -/
theorem apart_unwindFields {b : List Byte} (hclear : AllClear b (unwindParts b)) {p : UnwindPart}
    {o w : Nat} (hp : p ∈ unwindParts b) (hw : 0 < w) (ho : o + w ≤ p.size b)
    (h : ∀ s ∈ unwindSlots b, s.part = p → o + w ≤ s.offset ∨ s.offset + 4 ≤ o) :
    ∀ a ∈ unwindFields b, p.start b + o + w ≤ a ∨ a + 4 ≤ p.start b + o := by
  intro a ha
  obtain ⟨s, hs, rfl⟩ := List.mem_map.mp ha
  obtain ⟨hpart, hsize⟩ := inside_of_mem_unwindSlots hs
  exact apart_of_allClear hclear hp hpart hw (by decide) ho hsize (fun heq => h s hs heq.symm)

/-! ### No slot twice. -/

/-- Of different parts, or behind each other. -/
def UnwindSlot.Before (s t : UnwindSlot) : Prop := s.part = t.part → s.offset + 4 ≤ t.offset

theorem pairwise_range_slots (part : UnwindPart) {stride : Nat} (hstride : 4 ≤ stride) (n : Nat) :
    ((List.range n).map fun i => (⟨part, i * stride⟩ : UnwindSlot)).Pairwise UnwindSlot.Before := by
  rw [List.pairwise_map]
  apply List.pairwise_lt_range.imp
  intro i j hij _
  have := Nat.mul_le_mul_right stride (Nat.succ_le_of_lt hij)
  rw [Nat.succ_mul] at this
  show i * stride + 4 ≤ j * stride
  omega

theorem pairwise_pageSlots (b : List Byte) (i : Nat) : (pageSlots b i).Pairwise UnwindSlot.Before := by
  unfold pageSlots
  split
  · exact pairwise_range_slots _ (by decide) _
  · exact List.Pairwise.nil

theorem pairwise_indexSlots (b : List Byte) :
    ((List.range (indexCountOf b)).flatMap (indexSlots b)).Pairwise UnwindSlot.Before := by
  rw [List.pairwise_flatMap]
  constructor
  · intro i _
    unfold indexSlots
    rw [List.pairwise_cons]
    refine ⟨?_, pairwise_pageSlots b i⟩
    intro s hs hpart
    obtain ⟨-, j, -, rfl⟩ := mem_pageSlots hs
    cases hpart
  · apply List.pairwise_lt_range.imp
    intro i i' hlt s hs t ht hpart
    -- Slots of two entries share the index, never a page.
    obtain rfl | hs := List.mem_cons.mp hs
    · obtain rfl | ht := List.mem_cons.mp ht
      · show i * 12 + 4 ≤ i' * 12
        omega
      · obtain ⟨-, j, -, rfl⟩ := mem_pageSlots ht
        cases hpart
    · obtain ⟨-, j, -, rfl⟩ := mem_pageSlots hs
      obtain rfl | ht := List.mem_cons.mp ht
      · cases hpart
      · obtain ⟨-, j', -, rfl⟩ := mem_pageSlots ht
        cases hpart
        omega

theorem pairwise_lsdaSlots (b : List Byte) : (lsdaSlots b).Pairwise UnwindSlot.Before := by
  unfold lsdaSlots
  rw [List.pairwise_flatMap]
  constructor
  · intro k _
    simp [UnwindSlot.Before]
  · apply List.pairwise_lt_range.imp
    intro k k' hlt s hs t ht _
    simp only [List.mem_cons, List.not_mem_nil, or_false] at hs ht
    obtain rfl | rfl := hs <;> obtain rfl | rfl := ht <;> simp only <;> omega

theorem pairwise_unwindSlots (b : List Byte) : (unwindSlots b).Pairwise UnwindSlot.Before := by
  unfold unwindSlots
  rw [List.pairwise_append, List.pairwise_append]
  refine ⟨⟨pairwise_range_slots _ (by decide) _, pairwise_indexSlots b, ?_⟩,
    pairwise_lsdaSlots b, ?_⟩
  · intro s hs t ht hpart
    obtain ⟨i, -, rfl⟩ := mem_personalitySlots hs
    obtain ⟨k, -, ht⟩ := List.mem_flatMap.mp ht
    obtain rfl | ht := List.mem_cons.mp ht
    · cases hpart
    · obtain ⟨-, j, -, rfl⟩ := mem_pageSlots ht
      cases hpart
  · intro s hs t ht hpart
    obtain ⟨k, -, ht⟩ := mem_lsdaSlots ht
    have htpart : t.part = .lsdas := by obtain rfl | rfl := ht <;> rfl
    rw [htpart] at hpart
    obtain hs | hs := List.mem_append.mp hs
    · obtain ⟨i, -, rfl⟩ := mem_personalitySlots hs
      cases hpart
    · obtain ⟨i, -, hs⟩ := List.mem_flatMap.mp hs
      obtain rfl | hs := List.mem_cons.mp hs
      · cases hpart
      · obtain ⟨-, j, -, rfl⟩ := mem_pageSlots hs
        cases hpart

theorem pairwise_unwindFields {b : List Byte} (hclear : AllClear b (unwindParts b)) :
    (unwindFields b).Pairwise (Apart 4) := by
  unfold unwindFields
  rw [List.pairwise_map]
  apply (pairwise_unwindSlots b).imp_of_mem
  intro s t hs ht hbefore
  obtain ⟨hspart, hssize⟩ := inside_of_mem_unwindSlots hs
  obtain ⟨htpart, htsize⟩ := inside_of_mem_unwindSlots ht
  exact apart_of_allClear hclear hspart htpart (by decide) (by decide) hssize htsize
    (fun heq => .inl (hbefore heq))

/-! ## §3. Bytes with some fields shifted. -/

/-- The section after the fields of a list were shifted, and nothing else was done. -/
structure Shifted (growthPoint delta : Nat) (b : List Byte) (done : List Nat) (s : List Byte) :
    Prop where
  length : s.length = b.length
  fields : ∀ a ∈ done, readLe 4 s a = (readLe 4 b a).map (shiftOffset growthPoint delta)
  outside : ∀ k, (∀ a ∈ done, k < a ∨ a + 4 ≤ k) → s[k]? = b[k]?

theorem readLe_congr {count offset : Nat} {s b : List Byte} (hlength : s.length = b.length)
    (h : ∀ k, offset ≤ k → k < offset + count → s[k]? = b[k]?) :
    readLe count s offset = readLe count b offset := by
  have hslice : slice s offset count = slice b offset count := by
    apply List.ext_getElem?
    intro i
    unfold slice
    rw [List.getElem?_take, List.getElem?_take, List.getElem?_drop, List.getElem?_drop]
    by_cases hi : i < count
    · rw [if_pos hi, if_pos hi, h (offset + i) (by omega) (by omega)]
    · rw [if_neg hi, if_neg hi]
  unfold readLe
  rw [hlength, hslice]

section Runs

variable {growthPoint delta : Nat} {b : List Byte} {done : List Nat}

theorem shifted_nil (growthPoint delta : Nat) (b : List Byte) : Shifted growthPoint delta b [] b where
  length := rfl
  fields := List.forall_mem_nil _
  outside _ _ := rfl

/-- Beside the shifted fields the section reads as before. -/
theorem Shifted.readLe_apart {s : List Byte} (hs : Shifted growthPoint delta b done s)
    {count offset : Nat} (h : ∀ a ∈ done, offset + count ≤ a ∨ a + 4 ≤ offset) :
    readLe count s offset = readLe count b offset := by
  apply readLe_congr hs.length
  intro k hle hlt
  apply hs.outside
  intro a ha
  have := h a ha
  omega

/-- One more field, apart from those before. -/
theorem Shifted.patch {s : List Byte} (hs : Shifted growthPoint delta b done s) {offset v : Nat}
    (hapart : ∀ a ∈ done, Apart 4 a offset) (hread : readLe 4 b offset = some v)
    (hv : shiftOffset growthPoint delta v < 2 ^ 32) :
    Shifted growthPoint delta b (done ++ [offset])
      (patch s offset (leBytes 4 (shiftOffset growthPoint delta v))) := by
  have hin : offset + (leBytes 4 (shiftOffset growthPoint delta v)).length ≤ s.length := by
    rw [leBytes_length, hs.length]
    exact (readLe_isSome hread).1
  have hfits := hin
  rw [leBytes_length] at hfits
  constructor
  · rw [length_patch hin, hs.length]
  · intro a ha
    obtain ha | ha := List.mem_append.mp ha
    · have hclear := hapart a ha
      unfold Apart at hclear
      rw [readLe_patch_of_apart hin (by rw [leBytes_length]; exact hclear), hs.fields a ha]
    · obtain rfl := List.mem_singleton.mp ha
      rw [readLe_patch_self hfits, Nat.mod_eq_of_lt (by omega), hread]
      rfl
  · intro k hk
    have hoff := hk offset (by simp)
    rw [getElem?_patch hin, leBytes_length, if_neg (by omega)]
    exact hs.outside k (fun a ha => hk a (List.mem_append_left _ ha))

/-- A field that stays is one that is shifted too. -/
theorem Shifted.keep {s : List Byte} (hs : Shifted growthPoint delta b done s) {offset v : Nat}
    (hread : readLe 4 s offset = some v) (hkept : readLe 4 b offset = some v)
    (hv : v < growthPoint) : Shifted growthPoint delta b (done ++ [offset]) s where
  length := hs.length
  fields := by
    intro a ha
    obtain ha | ha := List.mem_append.mp ha
    · exact hs.fields a ha
    · obtain rfl := List.mem_singleton.mp ha
      rw [hread, hkept, Option.map_some, shiftOffset, if_neg (by omega)]
  outside := fun k hk => hs.outside k (fun a ha => hk a (List.mem_append_left _ ha))

/-! ## §4. A run. -/

/-- Where a run has come to: some fields, from the first on, are shifted. -/
def Stopped (growthPoint delta : Nat) (b : List Byte) (s : List Byte) : Prop :=
  ∃ done, done <+: unwindFields b ∧ Shifted growthPoint delta b done s

theorem rd_spec {offset : Nat} (hdone : done <+: unwindFields b)
    (h : ∀ a ∈ done, offset + 4 ≤ a ∨ a + 4 ≤ offset) :
    Triple (Shifted growthPoint delta b done) (rd offset)
      (fun v s => v = wordAt b offset ∧ Shifted growthPoint delta b done s)
      (Stopped growthPoint delta b) := by
  intro s hs
  have hread := hs.readLe_apart h
  unfold rd
  cases hb : readLe 4 b offset with
  | none =>
    rw [hread, hb]
    exact ⟨done, hdone, hs⟩
  | some v =>
    rw [hread, hb]
    exact ⟨by rw [wordAt, hb]; rfl, hs⟩

theorem rdHalf_spec {offset : Nat} (hdone : done <+: unwindFields b)
    (h : ∀ a ∈ done, offset + 2 ≤ a ∨ a + 4 ≤ offset) :
    Triple (Shifted growthPoint delta b done) (rdHalf offset)
      (fun v s => v = halfAt b offset ∧ Shifted growthPoint delta b done s)
      (Stopped growthPoint delta b) := by
  intro s hs
  have hread := hs.readLe_apart h
  unfold rdHalf
  cases hb : readLe 2 b offset with
  | none =>
    rw [hread, hb]
    exact ⟨done, hdone, hs⟩
  | some v =>
    rw [hread, hb]
    exact ⟨by rw [halfAt, hb]; rfl, hs⟩

/-- The next field of the list. -/
theorem shiftAt_spec (hpair : (unwindFields b).Pairwise (Apart 4)) {offset : Nat}
    (hnext : done ++ [offset] <+: unwindFields b) :
    Triple (Shifted growthPoint delta b done) (shiftAt growthPoint delta offset)
      (fun _ => Shifted growthPoint delta b (done ++ [offset])) (Stopped growthPoint delta b) := by
  intro s hs
  have hdone : done <+: unwindFields b := (List.prefix_append _ _).trans hnext
  have hapart : ∀ a ∈ done, Apart 4 a offset := by
    intro a ha
    exact (List.pairwise_append.mp (hpair.sublist hnext.sublist)).2.2 a ha offset (by simp)
  have hread : readLe 4 s offset = readLe 4 b offset :=
    hs.readLe_apart (fun a ha => (hapart a ha).symm)
  cases hb : readLe 4 b offset with
  | none =>
    rw [hb] at hread
    simp only [shiftAt, rd, hread, bind, EStateM.bind]
    exact ⟨done, hdone, hs⟩
  | some v =>
    rw [hb] at hread
    simp only [shiftAt, rd, hread, bind, EStateM.bind]
    by_cases hgrow : growthPoint ≤ v
    · rw [if_pos hgrow]
      by_cases hover : 2 ^ 32 ≤ v + delta
      · rw [if_pos hover]
        exact ⟨done, hdone, hs⟩
      · rw [if_neg hover]
        have hshift : shiftOffset growthPoint delta v = v + delta := if_pos hgrow
        have hpatch := hs.patch hapart hb (by rw [hshift]; omega)
        rw [hshift] at hpatch
        exact hpatch
    · rw [if_neg hgrow]
      exact hs.keep hread hb (by omega)

/-- A number in a part, beside the part's slots. -/
theorem rd_part_spec (hclear : AllClear b (unwindParts b)) {p : UnwindPart} {o : Nat}
    (hp : p ∈ unwindParts b) (ho : o + 4 ≤ p.size b)
    (h : ∀ s ∈ unwindSlots b, s.part = p → o + 4 ≤ s.offset ∨ s.offset + 4 ≤ o)
    (hdone : done <+: unwindFields b) :
    Triple (Shifted growthPoint delta b done) (rd (p.start b + o))
      (fun v s => v = wordAt b (p.start b + o) ∧ Shifted growthPoint delta b done s)
      (Stopped growthPoint delta b) :=
  rd_spec hdone
    (fun a ha => apart_unwindFields hclear hp (by decide) ho h a (hdone.subset ha))

/-- A loop over fields that are the next of the list. -/
theorem forM_shiftAt_spec (hpair : (unwindFields b).Pairwise (Apart 4)) {f : Nat → Nat} {n : Nat}
    (hnext : done ++ (List.range n).map f <+: unwindFields b) :
    Triple (Shifted growthPoint delta b done)
      ((List.range n).forM fun i => shiftAt growthPoint delta (f i))
      (fun _ => Shifted growthPoint delta b (done ++ (List.range n).map f))
      (Stopped growthPoint delta b) := by
  have hround : ∀ before i, before ++ [i] <+: List.range n →
      Triple (Shifted growthPoint delta b (done ++ before.map f))
        (shiftAt growthPoint delta (f i))
        (fun _ => Shifted growthPoint delta b (done ++ (before ++ [i]).map f))
        (Stopped growthPoint delta b) := by
    intro before i hi
    have hfields : done ++ (before ++ [i]).map f <+: unwindFields b :=
      ((List.prefix_append_right_inj done).mpr (hi.map f)).trans hnext
    rw [List.map_append, ← List.append_assoc] at hfields ⊢
    exact shiftAt_spec hpair hfields
  have hloop := Triple.forM (fun before => Shifted growthPoint delta b (done ++ before.map f)) hround
  rwa [List.map_nil, List.append_nil] at hloop

theorem readIndexEntry_spec (hclear : AllClear b (unwindParts b)) (hdone : done <+: unwindFields b)
    {i : Nat} (hi : i < indexCountOf b) :
    Triple (Shifted growthPoint delta b done) (readIndexEntry (indexEntryAt b i))
      (fun r s => r = (pageOf b i, lsdaOf b i) ∧ Shifted growthPoint delta b done s)
      (Stopped growthPoint delta b) := by
  have hmem : UnwindPart.index ∈ unwindParts b := by simp [unwindParts, unwindTables]
  -- Beside the function offset, with which each entry starts.
  have hread : ∀ o, 4 ≤ o → o + 4 ≤ 12 →
      Triple (Shifted growthPoint delta b done) (rd (indexEntryAt b i + o))
        (fun v s => v = wordAt b (indexEntryAt b i + o) ∧ Shifted growthPoint delta b done s)
        (Stopped growthPoint delta b) := by
    intro o hlow hhigh
    have hsize : i * 12 + o + 4 ≤ UnwindPart.size b .index := by
      simp only [UnwindPart.size]
      omega
    rw [show indexEntryAt b i + o = UnwindPart.start b .index + (i * 12 + o) from Nat.add_assoc _ _ _]
    exact rd_part_spec hclear hmem hsize (indexSlot_clear hlow hhigh) hdone
  unfold readIndexEntry
  apply Triple.bind_eq (hread 4 (by decide) (by decide))
  apply Triple.bind_eq (hread 8 (by decide) (by decide))
  exact Triple.pure _ (fun s hs => ⟨rfl, hs⟩)

theorem shiftPage_spec (hclear : AllClear b (unwindParts b)) {i : Nat} (hi : i < indexCountOf b)
    (hpage : pageOf b i ≠ 0)
    (hnext : done ++ (pageSlots b i).map (UnwindSlot.address b) <+: unwindFields b) :
    Triple (Shifted growthPoint delta b done) (shiftPage growthPoint delta (pageOf b i))
      (fun _ => Shifted growthPoint delta b (done ++ (pageSlots b i).map (UnwindSlot.address b)))
      (Stopped growthPoint delta b) := by
  have hmem := (mem_unwindParts_page hi).1
  have hdone : done <+: unwindFields b := (List.prefix_append _ _).trans hnext
  have hkind : wordAt b (pageOf b i) = pageKind b i := by rw [pageKind, if_neg hpage]
  have hslots : ∀ (w o : Nat), ∀ s ∈ unwindSlots b, s.part = .pageHeader i →
      o + w ≤ s.offset ∨ s.offset + 4 ≤ o :=
    fun _ _ s hs hpart => absurd hpart (ne_of_mem_unwindSlots rfl hs)
  have hsize : 4 ≤ UnwindPart.size b (.pageHeader i) := by
    simp only [UnwindPart.size, if_neg hpage]
    split
    · decide
    · split <;> decide
  have hreadKind : Triple (Shifted growthPoint delta b done) (rd (pageOf b i))
      (fun v s => v = pageKind b i ∧ Shifted growthPoint delta b done s)
      (Stopped growthPoint delta b) := by
    rw [← hkind]
    exact rd_part_spec hclear hmem (o := 0) (by omega) (hslots 4 0) hdone
  unfold shiftPage
  apply Triple.bind_eq hreadKind
  by_cases hregular : pageKind b i = unwindSecondLevelRegular
  · have hhalf : ∀ o, o + 2 ≤ 8 →
        Triple (Shifted growthPoint delta b done) (rdHalf (pageOf b i + o))
          (fun v s => v = halfAt b (pageOf b i + o) ∧ Shifted growthPoint delta b done s)
          (Stopped growthPoint delta b) := by
      intro o ho
      have hin : o + 2 ≤ UnwindPart.size b (.pageHeader i) := by
        simp only [UnwindPart.size, if_neg hpage, if_pos hregular]
        exact ho
      exact rdHalf_spec hdone (fun a ha =>
        apart_unwindFields hclear hmem (by decide) hin (hslots 2 o) a (hdone.subset ha))
    have hfields : (pageSlots b i).map (UnwindSlot.address b)
        = (List.range (pageCount b i)).map
            fun j => pageOf b i + halfAt b (pageOf b i + 4) + j * 8 := by
      rw [pageSlots, if_pos hregular, List.map_map]
      rfl
    rw [if_pos hregular]
    apply Triple.bind_eq (hhalf 4 (by decide))
    apply Triple.bind_eq (hhalf 6 (by decide))
    rw [hfields] at hnext ⊢
    exact forM_shiftAt_spec (pairwise_unwindFields hclear) hnext
  · have hfields : (pageSlots b i).map (UnwindSlot.address b) = [] := by
      rw [pageSlots, if_neg hregular, List.map_nil]
    rw [if_neg hregular, hfields, List.append_nil]
    by_cases hcompressed : pageKind b i ≠ unwindSecondLevelCompressed
    · rw [if_pos hcompressed]
      exact Triple.throw _ (fun s hs => ⟨done, hdone, hs⟩)
    · rw [if_neg hcompressed]
      exact Triple.pure _ (fun s hs => hs)

theorem shiftIndexEntry_spec (hclear : AllClear b (unwindParts b)) {i : Nat}
    (hi : i < indexCountOf b)
    (hnext : done ++ (indexSlots b i).map (UnwindSlot.address b) <+: unwindFields b) :
    Triple (Shifted growthPoint delta b done)
      (shiftIndexEntry growthPoint delta (indexEntryAt b i) (pageOf b i))
      (fun _ => Shifted growthPoint delta b (done ++ (indexSlots b i).map (UnwindSlot.address b)))
      (Stopped growthPoint delta b) := by
  have hfields : done ++ (indexSlots b i).map (UnwindSlot.address b)
      = done ++ [indexEntryAt b i] ++ (pageSlots b i).map (UnwindSlot.address b) := by
    rw [indexSlots, List.map_cons, List.append_assoc, List.singleton_append]
    rfl
  rw [hfields] at hnext ⊢
  unfold shiftIndexEntry
  have hfirst := (List.prefix_append _ _).trans hnext
  apply Triple.bind (shiftAt_spec (pairwise_unwindFields hclear) hfirst)
  intro _
  by_cases hpage : pageOf b i ≠ 0
  · rw [if_pos hpage]
    exact shiftPage_spec hclear hi hpage hnext
  · have hnone : pageSlots b i = [] := by
      have hkind : pageKind b i ≠ unwindSecondLevelRegular := by
        rw [pageKind, if_pos (not_not.mp hpage)]
        decide
      rw [pageSlots, if_neg hkind]
    rw [if_neg hpage, hnone, List.map_nil, List.append_nil]
    exact Triple.pure _ (fun s hs => hs)

theorem shiftLsdaIndex_spec (hclear : AllClear b (unwindParts b))
    (hnext : done ++ (lsdaSlots b).map (UnwindSlot.address b) <+: unwindFields b) :
    Triple (Shifted growthPoint delta b done)
      (shiftLsdaIndex growthPoint delta
        ((List.range (indexCountOf b)).map fun i => (pageOf b i, lsdaOf b i)))
      (fun _ => Shifted growthPoint delta b (done ++ (lsdaSlots b).map (UnwindSlot.address b)))
      (Stopped growthPoint delta b) := by
  have hdone : done <+: unwindFields b := (List.prefix_append _ _).trans hnext
  have hfields : (lsdaSlots b).map (UnwindSlot.address b)
      = (List.range ((lsdaOf b (indexCountOf b - 1) - lsdaOf b 0) / 8)).flatMap
          fun k => [lsdaOf b 0 + k * 8, lsdaOf b 0 + k * 8 + 4] := by
    rw [lsdaSlots, List.map_flatMap]
    rfl
  rw [hfields] at hnext ⊢
  unfold shiftLsdaIndex
  cases hcount : indexCountOf b with
  | zero =>
    rw [Nat.sub_self, Nat.zero_div, List.range_zero, List.flatMap_nil, List.append_nil]
    exact Triple.pure _ (fun s hs => hs)
  | succ n =>
    rw [hcount, Nat.add_sub_cancel] at hnext
    rw [Nat.add_sub_cancel]
    have hhead : ((List.range (n + 1)).map fun i => (pageOf b i, lsdaOf b i)).head?
        = some (pageOf b 0, lsdaOf b 0) := by
      rw [List.head?_map, List.head?_range, if_neg (Nat.succ_ne_zero n), Option.map_some]
    have hlast : ((List.range (n + 1)).map fun i => (pageOf b i, lsdaOf b i)).getLast?
        = some (pageOf b n, lsdaOf b n) := by
      rw [List.getLast?_map, List.range_succ, List.getLast?_concat, Option.map_some]
    rw [hhead, hlast]
    simp only
    by_cases hbad : lsdaOf b n < lsdaOf b 0 ∨ (lsdaOf b n - lsdaOf b 0) % 8 ≠ 0
    · rw [if_pos hbad]
      exact Triple.throw _ (fun s hs => ⟨done, hdone, hs⟩)
    · rw [if_neg hbad]
      have hpair := pairwise_unwindFields hclear
      generalize hrecords : (lsdaOf b n - lsdaOf b 0) / 8 = m at hnext ⊢
      have hround : ∀ before k, before ++ [k] <+: List.range m →
          Triple (Shifted growthPoint delta b
              (done ++ before.flatMap fun k => [lsdaOf b 0 + k * 8, lsdaOf b 0 + k * 8 + 4]))
            (do
              shiftAt growthPoint delta (lsdaOf b 0 + k * 8)
              shiftAt growthPoint delta (lsdaOf b 0 + k * 8 + 4))
            (fun _ => Shifted growthPoint delta b (done ++ (before ++ [k]).flatMap
              fun k => [lsdaOf b 0 + k * 8, lsdaOf b 0 + k * 8 + 4]))
            (Stopped growthPoint delta b) := by
        intro before k hk
        have hsecond : done ++ (before ++ [k]).flatMap
            (fun k => [lsdaOf b 0 + k * 8, lsdaOf b 0 + k * 8 + 4]) <+: unwindFields b :=
          ((List.prefix_append_right_inj done).mpr (hk.flatMap _)).trans hnext
        rw [List.flatMap_append, List.flatMap_singleton, ← List.append_assoc,
          List.append_cons] at hsecond ⊢
        have hfirst := (List.prefix_append _ _).trans hsecond
        apply Triple.bind (shiftAt_spec hpair hfirst)
        intro _
        exact shiftAt_spec hpair hsecond
      have hloop := Triple.forM (fun before => Shifted growthPoint delta b
        (done ++ before.flatMap fun k => [lsdaOf b 0 + k * 8, lsdaOf b 0 + k * 8 + 4])) hround
      rwa [List.flatMap_nil, List.append_nil] at hloop

theorem zipIdx_map_range {α : Type} (g : Nat → α) (n : Nat) :
    ((List.range n).map g).zipIdx = (List.range n).map fun i => (g i, i) := by
  apply List.ext_getElem
  · simp
  · intro i _ _
    simp

/-- A run shifts all the fields, or it stops behind some of them. -/
theorem shiftUnwindInfo_spec (hclear : AllClear b (unwindParts b)) (growthPoint delta : Nat) :
    Triple (Shifted growthPoint delta b []) (shiftUnwindInfo growthPoint delta)
      (fun _ => Shifted growthPoint delta b (unwindFields b)) (Stopped growthPoint delta b) := by
  have hpair := pairwise_unwindFields hclear
  have hfields : unwindFields b
      = (List.range (wordAt b 16)).map (fun i => wordAt b 12 + i * 4)
        ++ ((List.range (indexCountOf b)).flatMap
          fun i => (indexSlots b i).map (UnwindSlot.address b))
        ++ (lsdaSlots b).map (UnwindSlot.address b) := by
    rw [unwindFields, unwindSlots, List.map_append, List.map_append, List.map_flatMap,
      personalitySlots, List.map_map]
    rfl
  have hheader : ∀ offset, Triple (Shifted growthPoint delta b []) (rd offset)
      (fun v s => v = wordAt b offset ∧ Shifted growthPoint delta b [] s)
      (Stopped growthPoint delta b) :=
    fun offset => rd_spec List.nil_prefix (List.forall_mem_nil _)
  unfold shiftUnwindInfo
  apply Triple.bind_eq (hheader 0)
  by_cases hversion : wordAt b 0 ≠ unwindSectionVersion
  · rw [if_pos hversion]
    exact Triple.throw _ (fun s hs => ⟨[], List.nil_prefix, hs⟩)
  rw [if_neg hversion]
  apply Triple.bind_eq (hheader 12)
  apply Triple.bind_eq (hheader 16)
  apply Triple.bind_eq (hheader 20)
  apply Triple.bind_eq (hheader 24)
  have hpersonalities : [] ++ (List.range (wordAt b 16)).map (fun i => wordAt b 12 + i * 4)
      <+: unwindFields b := by
    rw [hfields, List.nil_append, List.append_assoc]
    exact List.prefix_append _ _
  apply Triple.bind (forM_shiftAt_spec hpair hpersonalities)
  intro _
  rw [List.nil_append] at hpersonalities ⊢
  have hread : ∀ i ∈ List.range (indexCountOf b),
      Triple (Shifted growthPoint delta b
          ((List.range (wordAt b 16)).map fun i => wordAt b 12 + i * 4))
        (readIndexEntry (indexEntryAt b i))
        (fun r s => r = (pageOf b i, lsdaOf b i) ∧ Shifted growthPoint delta b
          ((List.range (wordAt b 16)).map fun i => wordAt b 12 + i * 4) s)
        (Stopped growthPoint delta b) :=
    fun i hi => readIndexEntry_spec hclear hpersonalities (List.mem_range.mp hi)
  apply Triple.bind_eq (Triple.mapM hread)
  rw [zipIdx_map_range, List.forM_eq_forM, List.forM_map]
  have hround : ∀ before i, before ++ [i] <+: List.range (indexCountOf b) →
      Triple (Shifted growthPoint delta b
          ((List.range (wordAt b 16)).map (fun i => wordAt b 12 + i * 4)
            ++ before.flatMap fun i => (indexSlots b i).map (UnwindSlot.address b)))
        (shiftIndexEntry growthPoint delta (indexEntryAt b i) (pageOf b i))
        (fun _ => Shifted growthPoint delta b
          ((List.range (wordAt b 16)).map (fun i => wordAt b 12 + i * 4)
            ++ (before ++ [i]).flatMap fun i => (indexSlots b i).map (UnwindSlot.address b)))
        (Stopped growthPoint delta b) := by
    intro before i hi
    have hcount : i < indexCountOf b := List.mem_range.mp (hi.subset (by simp))
    have hnext : (List.range (wordAt b 16)).map (fun i => wordAt b 12 + i * 4)
        ++ (before ++ [i]).flatMap (fun i => (indexSlots b i).map (UnwindSlot.address b))
        <+: unwindFields b := by
      rw [hfields]
      exact ((List.prefix_append_right_inj _).mpr (hi.flatMap _)).trans (List.prefix_append _ _)
    rw [List.flatMap_append, List.flatMap_singleton, ← List.append_assoc] at hnext ⊢
    exact shiftIndexEntry_spec hclear hcount hnext
  have hloop := Triple.forM (fun before => Shifted growthPoint delta b
    ((List.range (wordAt b 16)).map (fun i => wordAt b 12 + i * 4)
      ++ before.flatMap fun i => (indexSlots b i).map (UnwindSlot.address b))) hround
  rw [List.flatMap_nil, List.append_nil] at hloop
  apply Triple.bind hloop
  intro _
  rw [hfields]
  apply shiftLsdaIndex_spec hclear
  rw [← hfields]

end Runs

end Armv8Encode.MachO

/-
  Armv8Encode.Container.MachO.UnwindSpec — the unwind section says the same after a grow.

  A run that ends well leaves a section that decodes to the table of before
  with its absolute offsets moved.  Lookups compare offsets only, and a shift
  keeps their order.  A run that stops has shifted some of the fields.
-/
import Armv8Encode.Container.MachO.UnwindShift
import Armv8Encode.Lib.Collect

namespace Armv8Encode.MachO

open Lib

/-! ## §1. Reads after a run. -/

theorem wordAt_of_readLe {b : List Byte} {offset v : Nat} (h : readLe 4 b offset = some v) :
    wordAt b offset = v := by rw [wordAt, h, Option.getD_some]

theorem halfAt_of_readLe {b : List Byte} {offset v : Nat} (h : readLe 2 b offset = some v) :
    halfAt b offset = v := by rw [halfAt, h, Option.getD_some]

section Reads

variable {growthPoint delta : Nat} {b s : List Byte}

/-- A slot is shifted. -/
theorem Shifted.readLe_slot (hs : Shifted growthPoint delta b (unwindFields b) s) {slot : UnwindSlot}
    (h : slot ∈ unwindSlots b) :
    readLe 4 s (slot.address b) = (readLe 4 b (slot.address b)).map (shiftOffset growthPoint delta) :=
  hs.fields _ (List.mem_map_of_mem h)

/-- What is beside the slots of its part is as before. -/
theorem Shifted.readLe_part (hs : Shifted growthPoint delta b (unwindFields b) s)
    (hclear : AllClear b (unwindParts b)) {p : UnwindPart} {o count : Nat} (hp : p ∈ unwindParts b)
    (hcount : 0 < count) (ho : o + count ≤ p.size b)
    (h : ∀ slot ∈ unwindSlots b, slot.part = p → o + count ≤ slot.offset ∨ slot.offset + 4 ≤ o) :
    readLe count s (p.start b + o) = readLe count b (p.start b + o) :=
  hs.readLe_apart (apart_unwindFields hclear hp hcount ho h)

/-- A part without slots is as before. -/
theorem Shifted.readLe_plain (hs : Shifted growthPoint delta b (unwindFields b) s)
    (hclear : AllClear b (unwindParts b)) {p : UnwindPart} {o count : Nat} (hp : p ∈ unwindParts b)
    (hcount : 0 < count) (ho : o + count ≤ p.size b) (h : ∀ slot ∈ unwindSlots b, slot.part ≠ p) :
    readLe count s (p.start b + o) = readLe count b (p.start b + o) :=
  hs.readLe_part hclear hp hcount ho (fun slot hslot hpart => absurd hpart (h slot hslot))

theorem decodeHeader_shifted (hs : Shifted growthPoint delta b (unwindFields b) s)
    (hclear : AllClear b (unwindParts b)) : decodeHeader s = decodeHeader b := by
  have hmem : UnwindPart.header ∈ unwindParts b := by simp [unwindParts]
  have hread : ∀ o, o + 4 ≤ 28 → readLe 4 s o = readLe 4 b o := by
    intro o ho
    have hsize : o + 4 ≤ UnwindPart.size b .header := ho
    have hplain := hs.readLe_plain hclear hmem (by decide) hsize
      (fun _ hslot => ne_of_mem_unwindSlots rfl hslot)
    rwa [show UnwindPart.start b .header + o = o from Nat.zero_add o] at hplain
  simp only [decodeHeader, hread 0 (by decide), hread 4 (by decide), hread 8 (by decide),
    hread 12 (by decide), hread 16 (by decide), hread 20 (by decide), hread 24 (by decide)]

theorem decodeHeader_eq_some {h : UnwindHeader} (hdecode : decodeHeader b = some h) :
    h.commonOff = wordAt b 4 ∧ h.commonCount = wordAt b 8 ∧ h.personalityOff = wordAt b 12 ∧
      h.personalityCount = wordAt b 16 ∧ h.indexOff = wordAt b 20 ∧
      h.indexCount = indexCountOf b := by
  unfold decodeHeader at hdecode
  simp only [Option.bind_eq_bind, Option.bind_eq_some_iff] at hdecode
  obtain ⟨v0, -, v4, h4, v8, h8, v12, h12, v16, h16, v20, h20, v24, h24, hmake⟩ := hdecode
  cases hmake
  exact ⟨(wordAt_of_readLe h4).symm, (wordAt_of_readLe h8).symm, (wordAt_of_readLe h12).symm,
    (wordAt_of_readLe h16).symm, (wordAt_of_readLe h20).symm, (wordAt_of_readLe h24).symm⟩

theorem decodeWords_congr {offset count : Nat}
    (h : ∀ i < count, readLe 4 s (offset + i * 4) = readLe 4 b (offset + i * 4)) :
    decodeWords s offset count = decodeWords b offset count :=
  mapM_congr (fun i hi => h i (List.mem_range.mp hi))

theorem commonEncodings_shifted (hs : Shifted growthPoint delta b (unwindFields b) s)
    (hclear : AllClear b (unwindParts b)) :
    decodeWords s (wordAt b 4) (wordAt b 8) = decodeWords b (wordAt b 4) (wordAt b 8) := by
  apply decodeWords_congr
  intro i hi
  exact hs.readLe_plain hclear (p := .commonEncodings) (by simp [unwindParts]) (by decide)
    (by simp only [UnwindPart.size]; omega) (fun _ hslot => ne_of_mem_unwindSlots rfl hslot)

theorem personalities_shifted (hs : Shifted growthPoint delta b (unwindFields b) s) :
    decodeWords s (wordAt b 12) (wordAt b 16)
      = (decodeWords b (wordAt b 12) (wordAt b 16)).map
          (List.map (shiftOffset growthPoint delta)) := by
  apply mapM_map_of_forall
  intro i hi
  have hslot : (⟨.personalities, i * 4⟩ : UnwindSlot) ∈ unwindSlots b :=
    List.mem_append_left _ (List.mem_append_left _ (List.mem_map_of_mem hi))
  exact hs.readLe_slot hslot

/-! ## §2. Pages. -/

theorem mem_unwindSlots_page {i j : Nat} (hi : i < indexCountOf b)
    (hkind : pageKind b i = unwindSecondLevelRegular) (hj : j < pageCount b i) :
    (⟨.pageEntries i, j * 8⟩ : UnwindSlot) ∈ unwindSlots b := by
  have hpage : (⟨.pageEntries i, j * 8⟩ : UnwindSlot) ∈ pageSlots b i := by
    rw [pageSlots, if_pos hkind]
    exact List.mem_map_of_mem (List.mem_range.mpr hj)
  exact List.mem_append_left _ (List.mem_append_right _
    (List.mem_flatMap.mpr ⟨i, List.mem_range.mpr hi, List.mem_cons_of_mem _ hpage⟩))

/-- The slots of a page stand in front of its entries' encodings. -/
theorem pageEntries_slot {i : Nat} {slot : UnwindSlot} (hslot : slot ∈ unwindSlots b)
    (hpart : slot.part = .pageEntries i) :
    pageKind b i = unwindSecondLevelRegular ∧ ∃ j, slot.offset = j * 8 := by
  obtain ⟨k, -, rfl⟩ | ⟨k, -, rfl⟩ | ⟨k, -, hkind, j, -, rfl⟩ | ⟨k, -, rfl | rfl⟩ :=
    mem_unwindSlots hslot
  · cases hpart
  · cases hpart
  · cases hpart
    exact ⟨hkind, j, rfl⟩
  · cases hpart
  · cases hpart

theorem decodeRegularPage_shifted (hs : Shifted growthPoint delta b (unwindFields b) s)
    (hclear : AllClear b (unwindParts b)) {i : Nat} (hi : i < indexCountOf b)
    (hpage : pageOf b i ≠ 0) (hkind : pageKind b i = unwindSecondLevelRegular) :
    decodeRegularPage s (pageOf b i)
      = (decodeRegularPage b (pageOf b i)).map (List.map (UnwindEntry.shift growthPoint delta)) := by
  obtain ⟨hheader, hentries, -⟩ := mem_unwindParts_page hi
  have hhalf : ∀ o, o + 2 ≤ 8 → readLe 2 s (pageOf b i + o) = readLe 2 b (pageOf b i + o) := by
    intro o ho
    have hsize : o + 2 ≤ UnwindPart.size b (.pageHeader i) := by
      simp only [UnwindPart.size, if_neg hpage, if_pos hkind]
      exact ho
    exact hs.readLe_plain hclear hheader (by decide) hsize
      (fun _ hslot => ne_of_mem_unwindSlots rfl hslot)
  unfold decodeRegularPage
  rw [hhalf 4 (by decide), hhalf 6 (by decide)]
  cases hoff : readLe 2 b (pageOf b i + 4) with
  | none => rfl
  | some off =>
    cases hcount : readLe 2 b (pageOf b i + 6) with
    | none => rfl
    | some count =>
      have hoff' := halfAt_of_readLe hoff
      have hcount' : pageCount b i = count := halfAt_of_readLe hcount
      have hstart : UnwindPart.start b (.pageEntries i) = pageOf b i + off := by
        simp only [UnwindPart.start, hoff']
      simp only [Option.bind_eq_bind, Option.bind_some]
      apply mapM_map_of_forall
      intro j hj
      have hj' : j < pageCount b i := by rw [hcount']; exact List.mem_range.mp hj
      have hfunction := hs.readLe_slot (mem_unwindSlots_page hi hkind hj')
      have hencoding : readLe 4 s (UnwindPart.start b (.pageEntries i) + (j * 8 + 4))
          = readLe 4 b (UnwindPart.start b (.pageEntries i) + (j * 8 + 4)) := by
        apply hs.readLe_part hclear hentries (by decide)
        · simp only [UnwindPart.size, if_pos hkind]
          omega
        · intro slot hslot hpart
          obtain ⟨-, k, hk⟩ := pageEntries_slot hslot hpart
          omega
      rw [UnwindSlot.address, hstart] at hfunction
      rw [hstart, ← Nat.add_assoc] at hencoding
      unfold decodeRegularEntry
      rw [hfunction, hencoding]
      cases readLe 4 b (pageOf b i + off + j * 8) with
      | none => rfl
      | some function =>
        cases readLe 4 b (pageOf b i + off + j * 8 + 4) with
        | none => rfl
        | some encoding => rfl

theorem decodeCompressedPage_shifted (hs : Shifted growthPoint delta b (unwindFields b) s)
    (hclear : AllClear b (unwindParts b)) (hspan : NoPageSpans growthPoint b) (common : List Nat)
    {i : Nat} (hi : i < indexCountOf b) (hpage : pageOf b i ≠ 0)
    (hkind : pageKind b i = unwindSecondLevelCompressed) :
    decodeCompressedPage s common (shiftOffset growthPoint delta (wordAt b (indexEntryAt b i)))
        (pageOf b i)
      = (decodeCompressedPage b common (wordAt b (indexEntryAt b i)) (pageOf b i)).map
          (List.map (UnwindEntry.shift growthPoint delta)) := by
  obtain ⟨hheader, hentries, hencodings⟩ := mem_unwindParts_page hi
  have hregular : pageKind b i ≠ unwindSecondLevelRegular := by
    rw [hkind]
    decide
  have hhalf : ∀ o, o + 2 ≤ 12 → readLe 2 s (pageOf b i + o) = readLe 2 b (pageOf b i + o) := by
    intro o ho
    have hsize : o + 2 ≤ UnwindPart.size b (.pageHeader i) := by
      simp only [UnwindPart.size, if_neg hpage, if_neg hregular, if_pos hkind]
      exact ho
    exact hs.readLe_plain hclear hheader (by decide) hsize
      (fun _ hslot => ne_of_mem_unwindSlots rfl hslot)
  unfold decodeCompressedPage
  rw [hhalf 4 (by decide), hhalf 6 (by decide), hhalf 8 (by decide), hhalf 10 (by decide)]
  cases hoff : readLe 2 b (pageOf b i + 4) with
  | none => rfl
  | some off =>
  cases hcount : readLe 2 b (pageOf b i + 6) with
  | none => rfl
  | some count =>
  cases hownOff : readLe 2 b (pageOf b i + 8) with
  | none => rfl
  | some ownOff =>
  cases hownCount : readLe 2 b (pageOf b i + 10) with
  | none => rfl
  | some ownCount =>
    have hoff' := halfAt_of_readLe hoff
    have hcount' : pageCount b i = count := halfAt_of_readLe hcount
    have hownOff' := halfAt_of_readLe hownOff
    have hownCount' := halfAt_of_readLe hownCount
    have hown : decodeWords s (pageOf b i + ownOff) ownCount
        = decodeWords b (pageOf b i + ownOff) ownCount := by
      apply decodeWords_congr
      intro k hk
      have hsize : k * 4 + 4 ≤ UnwindPart.size b (.pageEncodings i) := by
        simp only [UnwindPart.size, if_pos hkind, hownCount']
        omega
      have hplain := hs.readLe_plain hclear hencodings (by decide) hsize
        (fun _ hslot => ne_of_mem_unwindSlots rfl hslot)
      simp only [UnwindPart.start, hownOff'] at hplain
      exact hplain
    simp only [Option.bind_eq_bind, Option.bind_some]
    rw [hown]
    cases decodeWords b (pageOf b i + ownOff) ownCount with
    | none => rfl
    | some own =>
      rw [Option.bind_some, Option.bind_some]
      apply mapM_map_of_forall
      intro j hj
      have hj' : j < pageCount b i := by rw [hcount']; exact List.mem_range.mp hj
      have hword : readLe 4 s (UnwindPart.start b (.pageEntries i) + j * 4)
          = readLe 4 b (UnwindPart.start b (.pageEntries i) + j * 4) := by
        apply hs.readLe_plain hclear hentries (by decide)
        · simp only [UnwindPart.size, if_neg hregular, if_pos hkind]
          omega
        · intro slot hslot hpart
          exact hregular (pageEntries_slot hslot hpart).1
      have hkept := hspan i hi hkind
      have hstart : UnwindPart.start b (.pageEntries i) = pageOf b i + off := by
        simp only [UnwindPart.start, hoff']
      rw [hstart] at hword hkept
      unfold decodeCompressedEntry
      rw [hword]
      cases hentry : readLe 4 b (pageOf b i + off + j * 4) with
      | none => rfl
      | some word =>
        -- The page lies on one side of the growth point, so its functions move with its base.
        have hmove : shiftOffset growthPoint delta (wordAt b (indexEntryAt b i)) + word % 2 ^ 24
            = shiftOffset growthPoint delta (wordAt b (indexEntryAt b i) + word % 2 ^ 24) := by
          unfold shiftOffset
          by_cases hbase : growthPoint ≤ wordAt b (indexEntryAt b i)
          · rw [if_pos hbase, if_pos (by omega)]
            omega
          · have hbelow := hkept (by omega) j hj'
            rw [wordAt_of_readLe hentry] at hbelow
            rw [if_neg hbase, if_neg (by omega)]
        simp only [Option.bind_eq_bind, Option.bind_some]
        rw [hmove]
        cases (common ++ own)[word / 2 ^ 24]? with
        | none => rfl
        | some encoding => rfl

/-! ## §3. The table. -/

theorem decodePage_shifted (hs : Shifted growthPoint delta b (unwindFields b) s)
    (hclear : AllClear b (unwindParts b)) (hspan : NoPageSpans growthPoint b) (common : List Nat)
    {i : Nat} (hi : i < indexCountOf b) (hpage : pageOf b i ≠ 0) :
    decodePage s common (shiftOffset growthPoint delta (wordAt b (indexEntryAt b i))) (pageOf b i)
      = (decodePage b common (wordAt b (indexEntryAt b i)) (pageOf b i)).map
          (List.map (UnwindEntry.shift growthPoint delta)) := by
  have hsize : 0 + 4 ≤ UnwindPart.size b (.pageHeader i) := by
    simp only [UnwindPart.size, if_neg hpage]
    split
    · decide
    · split <;> decide
  have hkind : readLe 4 s (pageOf b i) = readLe 4 b (pageOf b i) :=
    hs.readLe_plain hclear (mem_unwindParts_page hi).1 (by decide) hsize
      (fun _ hslot => ne_of_mem_unwindSlots rfl hslot)
  unfold decodePage
  rw [hkind]
  cases hread : readLe 4 b (pageOf b i) with
  | none => rfl
  | some kind =>
    have hpageKind : pageKind b i = kind := by
      rw [pageKind, if_neg hpage, wordAt_of_readLe hread]
    simp only [Option.bind_eq_bind, Option.bind_some]
    by_cases hregular : kind = unwindSecondLevelRegular
    · rw [if_pos hregular, if_pos hregular]
      exact decodeRegularPage_shifted hs hclear hi hpage (hpageKind.trans hregular)
    · rw [if_neg hregular, if_neg hregular]
      by_cases hcompressed : kind = unwindSecondLevelCompressed
      · rw [if_pos hcompressed, if_pos hcompressed]
        exact decodeCompressedPage_shifted hs hclear hspan common hi hpage
          (hpageKind.trans hcompressed)
      · rw [if_neg hcompressed, if_neg hcompressed]
        rfl

theorem decodeIndexEntry_shifted (hs : Shifted growthPoint delta b (unwindFields b) s)
    (hclear : AllClear b (unwindParts b)) (hspan : NoPageSpans growthPoint b) (common : List Nat)
    {i : Nat} (hi : i < indexCountOf b) :
    decodeIndexEntry s common (indexEntryAt b i)
      = (decodeIndexEntry b common (indexEntryAt b i)).map
          (UnwindIndexEntry.shift growthPoint delta) := by
  have hmem : UnwindPart.index ∈ unwindParts b := by simp [unwindParts, unwindTables]
  have hslot : (⟨.index, i * 12⟩ : UnwindSlot) ∈ unwindSlots b :=
    List.mem_append_left _ (List.mem_append_right _
      (List.mem_flatMap.mpr ⟨i, List.mem_range.mpr hi, List.mem_cons_self⟩))
  have hfunction : readLe 4 s (indexEntryAt b i)
      = (readLe 4 b (indexEntryAt b i)).map (shiftOffset growthPoint delta) :=
    hs.readLe_slot hslot
  have hother : ∀ o, 4 ≤ o → o + 4 ≤ 12 →
      readLe 4 s (indexEntryAt b i + o) = readLe 4 b (indexEntryAt b i + o) := by
    intro o hlow hhigh
    have hsize : i * 12 + o + 4 ≤ UnwindPart.size b .index := by
      simp only [UnwindPart.size]
      omega
    have hpart := hs.readLe_part hclear hmem (by decide) hsize (indexSlot_clear hlow hhigh)
    rwa [← Nat.add_assoc] at hpart
  unfold decodeIndexEntry
  rw [hfunction, hother 4 (by decide) (by decide), hother 8 (by decide) (by decide)]
  cases hf : readLe 4 b (indexEntryAt b i) with
  | none => rfl
  | some function =>
  cases hsecond : readLe 4 b (indexEntryAt b i + 4) with
  | none => rfl
  | some secondLevel =>
  cases hlsda : readLe 4 b (indexEntryAt b i + 8) with
  | none => rfl
  | some lsda =>
    have hpageOf : pageOf b i = secondLevel := wordAt_of_readLe hsecond
    have hbase := wordAt_of_readLe hf
    simp only [Option.map_some, Option.bind_eq_bind, Option.bind_some]
    have hpage : decodeSecondLevel s common (shiftOffset growthPoint delta function) secondLevel
        = (decodeSecondLevel b common function secondLevel).map
            (List.map (UnwindEntry.shift growthPoint delta)) := by
      unfold decodeSecondLevel
      by_cases hnone : secondLevel = 0
      · rw [if_pos hnone, if_pos hnone]
        rfl
      · rw [if_neg hnone, if_neg hnone, ← hpageOf, ← hbase]
        exact decodePage_shifted hs hclear hspan common hi (by rwa [hpageOf])
    rw [hpage]
    cases decodeSecondLevel b common function secondLevel with
    | none => rfl
    | some page => rfl

/-- The LSDA offsets of a decoded index are the ones a run reads. -/
theorem lsdas_of_decode {common : List Nat} {n : Nat} {index : List UnwindIndexEntry}
    (h : ((List.range n).mapM fun i => decodeIndexEntry b common (indexEntryAt b i)) = some index) :
    index.map UnwindIndexEntry.lsda = (List.range n).map (lsdaOf b) := by
  have hall := mapM_eq_some_iff.mp h
  refine (map_eq_map_of_forall₂ (hall.imp ?_)).symm
  intro i e he
  unfold decodeIndexEntry at he
  simp only [Option.bind_eq_bind, Option.bind_eq_some_iff] at he
  obtain ⟨function, -, secondLevel, -, lsda, hlsda, page, -, hmake⟩ := he
  cases hmake
  exact wordAt_of_readLe hlsda

theorem decodeLsdaRecord_shifted (hs : Shifted growthPoint delta b (unwindFields b) s) {k : Nat}
    (hk : k < UnwindPart.lsdas.size b / 8) :
    decodeLsdaRecord s (lsdaOf b 0 + k * 8)
      = (decodeLsdaRecord b (lsdaOf b 0 + k * 8)).map (LsdaRecord.shift growthPoint delta) := by
  have hslot : ∀ o ∈ [k * 8, k * 8 + 4], (⟨.lsdas, o⟩ : UnwindSlot) ∈ unwindSlots b := by
    intro o ho
    apply List.mem_append_right
    refine List.mem_flatMap.mpr ⟨k, List.mem_range.mpr hk, ?_⟩
    simpa using ho
  have hfunction : readLe 4 s (lsdaOf b 0 + k * 8)
      = (readLe 4 b (lsdaOf b 0 + k * 8)).map (shiftOffset growthPoint delta) :=
    hs.readLe_slot (hslot (k * 8) (by simp))
  have hlsda : readLe 4 s (lsdaOf b 0 + k * 8 + 4)
      = (readLe 4 b (lsdaOf b 0 + k * 8 + 4)).map (shiftOffset growthPoint delta) :=
    hs.readLe_slot (hslot (k * 8 + 4) (by simp))
  unfold decodeLsdaRecord
  rw [hfunction, hlsda]
  cases readLe 4 b (lsdaOf b 0 + k * 8) with
  | none => rfl
  | some function =>
    cases readLe 4 b (lsdaOf b 0 + k * 8 + 4) with
    | none => rfl
    | some lsda => rfl

theorem decodeLsdas_shifted (hs : Shifted growthPoint delta b (unwindFields b) s)
    {index : List UnwindIndexEntry}
    (hindex : index.map UnwindIndexEntry.lsda = (List.range (indexCountOf b)).map (lsdaOf b)) :
    decodeLsdas s (index.map (UnwindIndexEntry.shift growthPoint delta))
      = (decodeLsdas b index).map (List.map (LsdaRecord.shift growthPoint delta)) := by
  have hfirst := congrArg List.head? hindex
  have hlast := congrArg List.getLast? hindex
  rw [List.head?_map, List.head?_map, List.head?_range] at hfirst
  rw [List.getLast?_map, List.getLast?_map, List.getLast?_range] at hlast
  unfold decodeLsdas
  rw [List.head?_map, List.getLast?_map]
  cases hcount : indexCountOf b with
  | zero =>
    rw [hcount, if_pos rfl] at hfirst
    rw [Option.map_eq_none_iff.mp hfirst]
    rfl
  | succ n =>
    rw [hcount, if_neg (Nat.succ_ne_zero n), Option.map_some] at hfirst hlast
    obtain ⟨first, hhead, hfirst⟩ := Option.map_eq_some_iff.mp hfirst
    obtain ⟨last, hget, hlast⟩ := Option.map_eq_some_iff.mp hlast
    rw [hhead, hget]
    simp only [Option.map_some, UnwindIndexEntry.shift, hfirst, hlast]
    apply mapM_map_of_forall
    intro k hk
    apply decodeLsdaRecord_shifted hs
    rw [UnwindPart.size, hcount]
    exact List.mem_range.mp hk

/-- The section decodes to the table of before with its absolute offsets moved. -/
theorem decodeUnwindInfo_shifted (hs : Shifted growthPoint delta b (unwindFields b) s)
    (hclear : AllClear b (unwindParts b)) (hspan : NoPageSpans growthPoint b) :
    decodeUnwindInfo s = (decodeUnwindInfo b).map (UnwindTable.shift growthPoint delta) := by
  unfold decodeUnwindInfo
  rw [decodeHeader_shifted hs hclear]
  apply bind_map_of_forall (k := id) (congrFun Option.map_id _).symm
  intro header hheader
  obtain ⟨hcommonOff, hcommonCount, hpersonalityOff, hpersonalityCount, hindexOff, hindexCount⟩ :=
    decodeHeader_eq_some hheader
  simp only [id_eq, hcommonOff, hcommonCount, hpersonalityOff, hpersonalityCount, hindexOff,
    hindexCount]
  rw [commonEncodings_shifted hs hclear]
  apply bind_map_of_forall (k := id) (congrFun Option.map_id _).symm
  intro common _
  apply bind_map_of_forall (personalities_shifted hs)
  intro personalities _
  have hentries := mapM_map_of_forall (fun i hi =>
    decodeIndexEntry_shifted hs hclear hspan common (List.mem_range.mp hi))
  apply bind_map_of_forall hentries
  intro index hindex
  apply bind_map_of_forall (decodeLsdas_shifted hs (lsdas_of_decode hindex))
  intro lsdas _
  rfl

end Reads

/-! ## §4. The outcome of a run. -/

/-- Where the parts of the section keep clear of each other, a run that ends
well moves the absolute offsets and nothing else; a run that stops has shifted
the fields before the one it stopped at. -/
theorem shiftUnwindInfo_outcome (growthPoint delta : Nat) (b : List Byte)
    (hclear : AllClear b (unwindParts b)) (hspan : NoPageSpans growthPoint b) :
    (∀ s, shiftUnwindInfo growthPoint delta b = .ok () s →
      Shifted growthPoint delta b (unwindFields b) s ∧
      decodeUnwindInfo s = (decodeUnwindInfo b).map (UnwindTable.shift growthPoint delta) ∧
      ∀ t, decodeUnwindInfo b = some t → ∃ t', decodeUnwindInfo s = some t' ∧
        ∀ pc, t'.lookup (shiftOffset growthPoint delta pc)
          = (t.lookup pc).map (Prod.map (UnwindIndexEntry.shift growthPoint delta)
              (UnwindEntry.shift growthPoint delta))) ∧
    (∀ e s, shiftUnwindInfo growthPoint delta b = .error e s →
      ∃ done, done <+: unwindFields b ∧ Shifted growthPoint delta b done s) := by
  have hrun := shiftUnwindInfo_spec hclear growthPoint delta b (shifted_nil growthPoint delta b)
  constructor
  · intro s hok
    rw [hok] at hrun
    have hdecode := decodeUnwindInfo_shifted hrun hclear hspan
    refine ⟨hrun, hdecode, ?_⟩
    intro t ht
    rw [ht] at hdecode
    exact ⟨t.shift growthPoint delta, hdecode, t.lookup_shift growthPoint delta⟩
  · intro e s herror
    rw [herror] at hrun
    exact hrun

/-! ## §5. Sections. -/

/-- A common encoding, a personality, an index of three entries with a regular
and a compressed page, and an LSDA record. -/
def sampleWords (kind : Nat) : List Nat :=
  [1, 28, 1, 32, 1, 36, 3, 0x1000000, 0x9000,
    0x100, 72, 112, 0x2000, 96, 120, 0x3000, 0, 120,
    kind, 8 + 2 * 2 ^ 16, 0x100, 0xe1, 0x1800, 0xe2,
    3, 12 + 1 * 2 ^ 16, 16, 0x10,
    0x2000, 0x5000]

def sampleSection (kind : Nat) : List Byte := (sampleWords kind).flatMap (leBytes 4)

def sampleTable : UnwindTable where
  header :=
    { version := 1, commonOff := 28, commonCount := 1, personalityOff := 32
      personalityCount := 1, indexOff := 36, indexCount := 3 }
  commonEncodings := [0x1000000]
  personalities := [0x9000]
  index :=
    [{ function := 0x100, secondLevel := 72, lsda := 112, page := [⟨0x100, 0xe1⟩, ⟨0x1800, 0xe2⟩] },
      { function := 0x2000, secondLevel := 96, lsda := 120, page := [⟨0x2010, 0x1000000⟩] },
      { function := 0x3000, secondLevel := 0, lsda := 120, page := [] }]
  lsdas := [⟨0x2000, 0x5000⟩]

example : decodeUnwindInfo (sampleSection 2) = some sampleTable := by decide +kernel

/-- The error of a run, if it stops, and the section's bytes. -/
def SectionEdit.ending {α : Type} (x : SectionEdit α) (b : List Byte) : Option String × List Byte :=
  match x b with
  | .ok _ s => (none, s)
  | .error e s => (some e, s)

theorem SectionEdit.ok_of_ending {x : SectionEdit Unit} {b : List Byte}
    (h : (x.ending b).1 = none) : x b = .ok () (x.ending b).2 := by
  unfold ending at h ⊢
  cases hrun : x b with
  | ok a s => rfl
  | error e s =>
    rw [hrun] at h
    cases h

theorem SectionEdit.error_of_ending {x : SectionEdit Unit} {b : List Byte} {e : String}
    (h : (x.ending b).1 = some e) : x b = .error e (x.ending b).2 := by
  unfold ending at h ⊢
  cases hrun : x b with
  | ok a s =>
    rw [hrun] at h
    cases h
  | error e' s =>
    rw [hrun] at h
    cases h
    rfl

/-- The section of two pages, grown in front of both. -/
theorem sampleSection_shifted :
    ∃ s, shiftUnwindInfo 0x1000 0x4000 (sampleSection 2) = .ok () s ∧
      decodeUnwindInfo s = some (sampleTable.shift 0x1000 0x4000) := by
  have hok := SectionEdit.ok_of_ending (x := shiftUnwindInfo 0x1000 0x4000)
    (b := sampleSection 2) (by decide +kernel)
  refine ⟨_, hok, ?_⟩
  rw [((shiftUnwindInfo_outcome 0x1000 0x4000 (sampleSection 2) (by decide +kernel)
    (by decide +kernel)).1 _ hok).2.1]
  decide +kernel

/-- Its personality slot is the header's field of the common encodings. -/
def slotInHeader : List Byte := [1, 0x9000, 0, 4, 1, 28, 0].flatMap (leBytes 4)

/-- Its personality slot is a common encoding. -/
def slotInEncodings : List Byte := [1, 28, 1, 28, 1, 32, 0, 0x9000].flatMap (leBytes 4)

/-- Tables with image offsets that keep clear are not enough.  A run that meets
a page of an unknown kind has shifted the personality; a slot in the header or
among the common encodings moves what is not an image offset. -/
theorem clearTables_notEnough :
    (AllClear (sampleSection 7) (unwindTables (sampleSection 7)) ∧
      NoPageSpans 0x1000 (sampleSection 7) ∧
      ∃ e s, shiftUnwindInfo 0x1000 0x4000 (sampleSection 7) = .error e s ∧ s ≠ sampleSection 7) ∧
    ∀ b ∈ [slotInHeader, slotInEncodings],
      AllClear b (unwindTables b) ∧ NoPageSpans 0x1000 b ∧
      ∃ s, shiftUnwindInfo 0x1000 0x4000 b = .ok () s ∧
        decodeUnwindInfo s ≠ (decodeUnwindInfo b).map (UnwindTable.shift 0x1000 0x4000) := by
  have herror := SectionEdit.error_of_ending (x := shiftUnwindInfo 0x1000 0x4000)
    (b := sampleSection 7) (e := "unwind_info: unknown second-level page kind 7") (by decide +kernel)
  have hheader := SectionEdit.ok_of_ending (x := shiftUnwindInfo 0x1000 0x4000)
    (b := slotInHeader) (by decide +kernel)
  have hencodings := SectionEdit.ok_of_ending (x := shiftUnwindInfo 0x1000 0x4000)
    (b := slotInEncodings) (by decide +kernel)
  refine ⟨⟨by decide +kernel, by decide +kernel, _, _, herror, by decide +kernel⟩, ?_⟩
  intro b hb
  simp only [List.mem_cons, List.not_mem_nil, or_false] at hb
  obtain rfl | rfl := hb
  · exact ⟨by decide +kernel, by decide +kernel, _, hheader, by decide +kernel⟩
  · exact ⟨by decide +kernel, by decide +kernel, _, hencodings, by decide +kernel⟩

end Armv8Encode.MachO

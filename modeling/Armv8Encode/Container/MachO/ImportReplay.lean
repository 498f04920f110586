/-
  Armv8Encode.Container.MachO.ImportReplay — imports that were not edited.

  Their bytes are copied, from the import table to the end of the blob.  What
  the header said of them is not: the count is the one that the scan finds, and
  the pool is taken to be right behind the entries that were counted.

  `decodeEntry_behind`: with other bytes behind it and another pool, an entry
    has the same fields, and the name that is in that pool.
  `replay_imports_iff`: when the imports of the new blob are those of the old.
-/
import Armv8Encode.Container.MachO.ImportRoundTrip

namespace Armv8Encode.MachO

open Lib

/-! ## §1. Where the imports stand. -/

/-- Each payload takes its size, up to four bytes. -/
theorem placePayloads_snd_length {cursor : Nat} (haligned : cursor % 4 = 0)
    (payloads : List (Option (List Byte))) :
    (placePayloads cursor payloads).2.length
      = (payloads.map fun p => ((p.map List.length).getD 0 + 3) / 4 * 4).sum := by
  induction payloads generalizing cursor with
  | nil => rfl
  | cons payload payloads ih =>
    rw [List.map_cons, List.sum_cons]
    cases payload with
    | none =>
      show (placePayloads cursor payloads).2.length = 0 + _
      rw [ih haligned, Nat.zero_add]
    | some payload =>
      obtain ⟨next, hnext⟩ : ∃ next, next = (cursor + payload.length + 3) / 4 * 4 := ⟨_, rfl⟩
      have hlater := @ih next (by omega)
      show (payload ++ List.replicate ((cursor + payload.length + 3) / 4 * 4
        - (cursor + payload.length)) 0
          ++ (placePayloads ((cursor + payload.length + 3) / 4 * 4) payloads).2).length
        = (payload.length + 3) / 4 * 4 + _
      rw [← hnext, List.length_append, List.length_append, List.length_replicate, hlater]
      omega

theorem startsBytes_length (payloads : List (Option (List Byte))) :
    (startsBytes payloads).length = 4 + 4 * payloads.length
      + (payloads.map fun p => ((p.map List.length).getD 0 + 3) / 4 * 4).sum := by
  unfold startsBytes
  dsimp only
  rw [List.length_append, List.length_append, leBytes_length,
    placePayloads_snd_length (by omega), List.length_flatMap]
  simp [placePayloads_fst_length, Nat.mul_comm]

theorem startsPayload_length {format : PointerFormat} {sf : SegmentFixups} {seg : MachOSegment}
    {payload : List Byte} (h : startsPayload format sf seg = some payload) :
    payload.length = 22 + 2 * sf.pageCount seg := by
  unfold startsPayload at h
  dsimp only at h
  by_cases hnone : sf.fixups = []
  · rw [if_pos hnone] at h
    cases h
    unfold SegmentFixups.pageCount
    rw [hnone]
    rfl
  · rw [if_neg hnone] at h
    obtain ⟨_, h⟩ := Option.ite_none_left_eq_some.mp h
    obtain ⟨_, h⟩ := Option.ite_none_right_eq_some.mp h
    cases h
    simp [List.length_flatMap]
    omega

namespace EditableFixups

/-- The segments with the sizes of their starts. -/
def startsSizes (e : EditableFixups) (segments : List MachOSegment) : List (Nat × Nat) :=
  e.segments.map fun sf =>
    (sf.segmentIndex, (segments[sf.segmentIndex]?.map fun seg => 22 + 2 * sf.pageCount seg).getD 0)

/-- Where the imports stand in a new blob: behind the header, the table of the segments and the
starts of each. -/
def importsOffset (e : EditableFixups) (segments : List MachOSegment) : Nat :=
  36 + 4 * segments.length + ((List.range segments.length).map fun i =>
    ((((e.startsSizes segments).reverse.find? fun s => s.1 == i).map Prod.snd).getD 0 + 3)
      / 4 * 4).sum

theorem importsOffset_eq {e : EditableFixups} {segments : List MachOSegment}
    {payloads : List (Option (List Byte))} (h : e.payloads segments = some payloads) :
    32 + (startsBytes payloads).length = e.importsOffset segments := by
  obtain ⟨built, hbuilt, h⟩ := Option.bind_eq_some_iff.mp h
  cases h
  have hsizes : e.startsSizes segments = built.map fun s => (s.1, s.2.length) := by
    refine map_eq_map_of_forall₂ ((mapM_eq_some_iff.mp hbuilt).imp fun sf s hs => ?_)
    obtain ⟨seg, hseg, hs⟩ := Option.bind_eq_some_iff.mp hs
    obtain ⟨_, hs⟩ := Option.ite_none_right_eq_some.mp hs
    obtain ⟨payload, hpayload, hs⟩ := Option.bind_eq_some_iff.mp hs
    cases hs
    rw [hseg, Option.map_some, Option.getD_some, startsPayload_length hpayload]
  rw [startsBytes_length, List.length_map, List.length_range, List.map_map]
  unfold importsOffset
  rw [hsizes, ← List.map_reverse]
  have hfind : ∀ i, ((built.reverse.map fun s => (s.1, s.2.length)).find? fun s => s.1 == i)
      = (built.reverse.find? fun s => s.1 == i).map fun s => (s.1, s.2.length) := fun i =>
    List.find?_map
  have hterms : (List.range segments.length).map
      ((fun p : Option (List Byte) => ((p.map List.length).getD 0 + 3) / 4 * 4)
        ∘ fun i => (built.reverse.find? fun s => s.1 == i).map Prod.snd)
      = (List.range segments.length).map fun i =>
        (((((built.reverse.map fun s => (s.1, s.2.length)).find? fun s => s.1 == i).map
          Prod.snd).getD 0 + 3) / 4 * 4) := by
    refine List.map_congr_left fun i _ => ?_
    show ((((built.reverse.find? fun s => s.1 == i).map Prod.snd).map List.length).getD 0 + 3)
      / 4 * 4 = _
    rw [hfind, Option.map_map, Option.map_map]
    rfl
  rw [hterms]
  omega

end EditableFixups

/-! ## §2. An entry with other bytes behind it. -/

/-- **The fields stay**, and the name is the one in the new pool. -/
theorem decodeEntry_behind {table pool : List Byte} {format entrySize i : Nat}
    {imp : ChainedImport} (h : decodeEntry table pool format entrySize i = some imp)
    (more pool' : List Byte) :
    decodeEntry (table ++ more) pool' format entrySize i
      = (readCstr pool' (nameOffsetAt ⟨format, 0, 0, table⟩ entrySize i)).map fun symbol =>
        { imp with symbol := symbol } := by
  unfold decodeEntry at h
  obtain ⟨raw, hraw, h⟩ := Option.bind_eq_some_iff.mp h
  by_cases hlong : format = 3
  · rw [if_pos hlong] at h
    obtain ⟨nameOffset, hoffset, h⟩ := Option.bind_eq_some_iff.mp h
    obtain ⟨addend, haddend, h⟩ := Option.bind_eq_some_iff.mp h
    obtain ⟨symbol, _, h⟩ := Option.bind_eq_some_iff.mp h
    cases h
    have hname : nameOffsetAt ⟨format, 0, 0, table⟩ entrySize i = nameOffset := by
      unfold nameOffsetAt
      rw [if_pos hlong, hoffset]
      rfl
    rw [hname, hlong, decodeEntry_long (readLe_append hraw more) (readLe_append hoffset more)
      (readLe_append haddend more)]
  · rw [if_neg hlong] at h
    obtain ⟨addend, haddend, symbol, rfl⟩ : ∃ addend,
        (if format = 2 then readLe 4 table (i * entrySize + 4) else some 0) = some addend
          ∧ ∃ symbol, imp = ⟨signedOf 8 (raw % 2 ^ 8), symbol, signedOf 32 addend,
            raw / 2 ^ 8 % 2 = 1⟩ := by
      by_cases htwo : format = 2
      · rw [if_pos htwo] at h ⊢
        obtain ⟨addend, haddend, h⟩ := Option.bind_eq_some_iff.mp h
        obtain ⟨symbol, _, h⟩ := Option.bind_eq_some_iff.mp h
        exact ⟨addend, haddend, symbol, (Option.some.inj h).symm⟩
      · rw [if_neg htwo] at h ⊢
        obtain ⟨_, hzero, h⟩ := Option.bind_eq_some_iff.mp h
        cases hzero
        obtain ⟨symbol, _, h⟩ := Option.bind_eq_some_iff.mp h
        exact ⟨0, rfl, symbol, (Option.some.inj h).symm⟩
    have hname : nameOffsetAt ⟨format, 0, 0, table⟩ entrySize i = raw / 2 ^ 9 := by
      unfold nameOffsetAt
      rw [if_neg hlong, hraw]
      rfl
    have haddend' : (if format = 2 then readLe 4 (table ++ more) (i * entrySize + 4) else some 0)
        = some addend := by
      by_cases htwo : format = 2
      · rw [if_pos htwo] at haddend ⊢
        exact readLe_append haddend more
      · rw [if_neg htwo] at haddend ⊢
        exact haddend
    rw [hname, decodeEntry_short hlong (readLe_append hraw more) haddend']

/-- A name that is another makes another import. -/
theorem map_symbol_eq_iff {imp : ChainedImport} {name : Option String} :
    (name.map fun symbol => { imp with symbol := symbol }) = some imp
      ↔ name = some imp.symbol := by
  cases name with
  | none => simp
  | some name =>
    rw [Option.map_some, Option.some.injEq, Option.some.injEq]
    constructor
    · intro h
      exact congrArg ChainedImport.symbol h
    · intro h
      rw [h]

/-- The fields of a long entry are those of an import. -/
def HeldLong (table pool : List Byte) (i : Nat) (imp : ChainedImport) : Prop :=
  ∃ raw nameOffset addend, readLe 4 table (i * 16) = some raw
    ∧ readLe 4 table (i * 16 + 4) = some nameOffset ∧ readLe 8 table (i * 16 + 8) = some addend
    ∧ signedOf 16 (raw % 2 ^ 16) = imp.libOrdinal ∧ decide (raw / 2 ^ 16 % 2 = 1) = imp.weak
    ∧ signedOf 64 addend = imp.addend ∧ readCstr pool nameOffset = some imp.symbol

theorem decodeEntry_long_iff {table pool : List Byte} {i : Nat} {imp : ChainedImport} :
    decodeEntry table pool 3 16 i = some imp ↔ HeldLong table pool i imp := by
  constructor
  · intro h
    unfold decodeEntry at h
    obtain ⟨raw, hraw, h⟩ := Option.bind_eq_some_iff.mp h
    rw [if_pos rfl] at h
    obtain ⟨nameOffset, hoffset, h⟩ := Option.bind_eq_some_iff.mp h
    obtain ⟨addend, haddend, h⟩ := Option.bind_eq_some_iff.mp h
    obtain ⟨symbol, hsymbol, h⟩ := Option.bind_eq_some_iff.mp h
    cases h
    exact ⟨raw, nameOffset, addend, hraw, hoffset, haddend, rfl, rfl, rfl, hsymbol⟩
  · rintro ⟨raw, nameOffset, addend, hraw, hoffset, haddend, hordinal, hweak, hheld, hname⟩
    rw [decodeEntry_long hraw hoffset haddend, hname, Option.map_some, hordinal, hweak, hheld]

/-! ## §3. The imports of the new blob. -/

namespace EditableFixups

/-- Other fixups, for the same imports, in their format or in the long one. -/
def withFixups (e : EditableFixups) (fixups : List SegmentFixups) (long : Bool) : EditableFixups :=
  let edited := { e with segments := fixups }
  if long then edited.ensureAddend64 else edited

theorem withFixups_imports (e : EditableFixups) (fixups : List SegmentFixups) (long : Bool) :
    (e.withFixups fixups long).imports = e.imports
      ∧ (e.withFixups fixups long).originalImports = e.originalImports
      ∧ (e.withFixups fixups long).originalImportsBytes = e.originalImportsBytes := by
  cases long <;> exact ⟨rfl, rfl, rfl⟩

/-- What is read holds the imports, and they stand in its bytes. -/
theorem originalImports_of_read {blob bytes : List Byte} {segments : List MachOSegment}
    {e : EditableFixups} (h : read blob bytes segments = some e) :
    e.imports = e.originalImports ∧ ∃ pool entrySize,
      importEntrySize e.onDiskImportsFormat = some entrySize
        ∧ ∀ i imp, e.imports[i]? = some imp →
          decodeEntry e.originalImportsBytes pool e.onDiskImportsFormat entrySize i = some imp := by
  unfold read at h
  obtain ⟨header, _, h⟩ := Option.bind_eq_some_iff.mp h
  obtain ⟨imports, himports, h⟩ := Option.bind_eq_some_iff.mp h
  obtain ⟨starts, _, h⟩ := Option.bind_eq_some_iff.mp h
  obtain ⟨entrySize, hsize, himports⟩ := Option.bind_eq_some_iff.mp himports
  obtain ⟨_, himports⟩ := Option.ite_none_left_eq_some.mp himports
  obtain ⟨_, hall⟩ := mapM_range_eq_some_iff.mp himports
  split at h
  · cases h
  · obtain ⟨_, h⟩ := Option.ite_none_left_eq_some.mp h
    obtain ⟨walked, _, h⟩ := Option.bind_eq_some_iff.mp h
    cases h
    exact ⟨rfl, _, entrySize, hsize, hall⟩

/-- What makes copied bytes mean the same: as many entries are found as there were, and the names
stand behind them, in the format there was; in another format, the bytes have to be those of
the long entries. -/
structure Replayable (original e : EditableFixups) (segments : List MachOSegment)
    (entrySize : Nat) : Prop where
  counted : ∀ i < original.imports.length, LooksLikeEntry
    ⟨e.onDiskImportsFormat, 0, 0, original.originalImportsBytes⟩ entrySize i
  stops : ¬ LooksLikeEntry
    ⟨e.onDiskImportsFormat, 0, 0, original.originalImportsBytes⟩ entrySize original.imports.length
  names : e.onDiskImportsFormat = original.onDiskImportsFormat →
    ∀ i imp, original.imports[i]? = some imp →
      readCstr
          ((paddedTable original.originalImportsBytes (e.importsOffset segments)).drop
            (original.imports.length * entrySize))
          (nameOffsetAt ⟨e.onDiskImportsFormat, 0, 0, original.originalImportsBytes⟩ entrySize i)
        = some imp.symbol
  long : e.onDiskImportsFormat ≠ original.onDiskImportsFormat →
    ∀ i imp, original.imports[i]? = some imp →
      HeldLong (paddedTable original.originalImportsBytes (e.importsOffset segments))
        ((paddedTable original.originalImportsBytes (e.importsOffset segments)).drop
          (original.imports.length * entrySize)) i imp

/-- **Imports that were not edited are read back** exactly if their bytes are replayable. -/
theorem replay_imports_iff {blob bytes out : List Byte} {segments segments' : List MachOSegment}
    {original : EditableFixups} {fixups : List SegmentFixups} {long : Bool} {entrySize : Nat}
    (hread : read blob bytes segments = some original)
    (hserialize : (original.withFixups fixups long).serialize segments' = some out)
    (hsmall : out.length < 2 ^ 32)
    (hsize : importEntrySize (original.withFixups fixups long).onDiskImportsFormat
      = some entrySize) :
    readImports out = some original.imports
      ↔ Replayable original (original.withFixups fixups long) segments' entrySize := by
  obtain ⟨hsame, oldPool, oldSize, holdSize, hentries⟩ := originalImports_of_read hread
  obtain ⟨himports, horiginal, hbytes⟩ := withFixups_imports original fixups long
  have hformat : (original.withFixups fixups long).onDiskImportsFormat
      = original.onDiskImportsFormat
      ∨ (original.withFixups fixups long).onDiskImportsFormat = 3 := by
    cases long
    · exact .inl rfl
    · exact .inr rfl
  obtain ⟨e, he⟩ : ∃ e, e = original.withFixups fixups long := ⟨_, rfl⟩
  rw [← he] at hserialize hsize himports horiginal hbytes hformat ⊢
  obtain ⟨payloads, measured, size, table, hpayloads, hmeasured, hmeasuredSize, htable, _, hnew⟩ :=
    readImports_serialize hserialize hsmall
  unfold importsBlob at hmeasured
  rw [if_pos (by rw [himports, horiginal, hsame])] at hmeasured
  have hmeasure : measureImportsBlob ⟨e.onDiskImportsFormat, 0, 0, original.originalImportsBytes⟩
      = some measured := by
    rw [← hbytes]
    exact hmeasured
  obtain ⟨hsameFormat, hsameBytes, size', hsize', hcount, _, _⟩ := measureImportsBlob_spec hmeasure
  dsimp only at hsameFormat hsameBytes hcount
  rw [hsameFormat] at hmeasuredSize hsize' hnew
  obtain rfl : entrySize = size := Option.some.inj (hsize.symm.trans hmeasuredSize)
  obtain rfl : entrySize = size' := Option.some.inj (hsize.symm.trans hsize')
  have hpos : 0 < entrySize := by
    obtain h | h | h := importEntrySize_cases hsize <;> omega
  rw [importsOffset_eq hpayloads, hsameBytes] at htable
  have hscan := @countImports_eq_iff
    ⟨e.onDiskImportsFormat, 0, 0, original.originalImportsBytes⟩ entrySize original.imports.length hpos
  rw [hnew, mapM_range_eq_some_iff, hcount]
  -- What one entry needs, if the count is right.
  have hentry : countImports ⟨e.onDiskImportsFormat, 0, 0, original.originalImportsBytes⟩ entrySize
        original.originalImportsBytes.length 0 = original.imports.length →
      ∀ i imp, original.imports[i]? = some imp →
        (decodeEntry table (table.drop (measured.count * entrySize)) e.onDiskImportsFormat entrySize i
            = some imp
          ↔ (e.onDiskImportsFormat = original.onDiskImportsFormat →
              readCstr (table.drop (original.imports.length * entrySize))
                (nameOffsetAt ⟨e.onDiskImportsFormat, 0, 0, original.originalImportsBytes⟩ entrySize i)
                = some imp.symbol)
            ∧ (e.onDiskImportsFormat ≠ original.onDiskImportsFormat →
              HeldLong table (table.drop (original.imports.length * entrySize)) i imp)) := by
    intro hn i imp himp
    rw [hcount, hn]
    by_cases hkept : e.onDiskImportsFormat = original.onDiskImportsFormat
    · have hold := hentries i imp himp
      rw [← hkept] at hold holdSize
      obtain rfl : entrySize = oldSize := Option.some.inj (hsize.symm.trans holdSize)
      conv_lhs => rw [htable]
      unfold paddedTable
      rw [decodeEntry_behind hold, map_symbol_eq_iff, ← paddedTable, ← htable]
      exact ⟨fun h => ⟨fun _ => h, fun hne => absurd hkept hne⟩, fun h => h.1 hkept⟩
    · obtain hthree := hformat.resolve_left hkept
      obtain rfl : entrySize = 16 := by
        obtain h | h | h := importEntrySize_cases hsize <;> omega
      rw [hthree, decodeEntry_long_iff, ← hthree]
      exact ⟨fun h => ⟨fun heq => absurd heq hkept, fun _ => h⟩, fun h => h.2 hkept⟩
  rw [hcount] at hentry
  constructor
  · rintro ⟨hn, hall⟩
    obtain ⟨hcounted, hstops⟩ := hscan.mp hn
    refine ⟨hcounted, hstops, fun hkept i imp himp => ?_, fun hkept i imp himp => ?_⟩
    · rw [← htable]
      exact ((hentry hn i imp himp).mp (hall i imp himp)).1 hkept
    · rw [← htable]
      exact ((hentry hn i imp himp).mp (hall i imp himp)).2 hkept
  · rintro ⟨hcounted, hstops, hnames, hlong⟩
    have hn := hscan.mpr ⟨hcounted, hstops⟩
    refine ⟨hn, fun i imp himp => (hentry hn i imp himp).mpr ⟨fun hkept => ?_, fun hkept => ?_⟩⟩
    · rw [htable]
      exact hnames hkept i imp himp
    · rw [htable]
      exact hlong hkept i imp himp

/-- A segment of eight bytes at the start of a file. -/
def shortSegment : MachOSegment := ⟨"__DATA", 0x1000, 8, 0, 8⟩

/-- A blob with the starts of one segment and one import, with so many zeros between the import
and the pool. -/
def gappedBlob (gap : Nat) : List Byte :=
  headerBytes ⟨32, 64, 68 + gap, 1, 1⟩
    ++ startsBytes [some (leBytes 4 22 ++ leBytes 2 4096 ++ leBytes 2 2 ++ leBytes 8 0
      ++ leBytes 4 0 ++ leBytes 2 0)]
    ++ leBytes 4 1 ++ List.replicate gap 0 ++ [97, 0]

/-- What is read of such a blob. -/
def gapped (gap : Nat) : EditableFixups :=
  ⟨.ptr64, [⟨1, "a", 0, false⟩], [⟨0, 4096, []⟩], 1, leBytes 4 1 ++ List.replicate gap 0 ++ [97, 0],
    [⟨1, "a", 0, false⟩]⟩

/-- One slot, that points to itself. -/
def oneSlot : List SegmentFixups := [⟨0, 4096, [⟨0x1000, .rebase 0x1000⟩]⟩]

theorem gapped_none_replays :
    ∃ out, ((gapped 0).withFixups oneSlot false).serialize [shortSegment] = some out
      ∧ readImports out = some (gapped 0).imports := by
  have hread : read (gappedBlob 0) (List.replicate 8 0) [shortSegment] = some (gapped 0) := rfl
  have hserialize : ((gapped 0).withFixups oneSlot false).serialize [shortSegment]
      = some (((gapped 0).withFixups oneSlot false).serialize [shortSegment]).get! := rfl
  have hsize : importEntrySize ((gapped 0).withFixups oneSlot false).onDiskImportsFormat = some 4 :=
    rfl
  refine ⟨_, hserialize,
    (replay_imports_iff hread hserialize (by decide) hsize).mpr ⟨?_, ?_, ?_, ?_⟩⟩
  · decide
  · decide
  · intro _ i imp himp
    obtain rfl : i = 0 := by
      have := (List.getElem?_eq_some_iff.mp himp).1
      exact Nat.lt_one_iff.mp this
    cases himp
    rfl
  · intro hne
    exact absurd rfl hne

/-- Zeros between the import and the pool are taken for a second import. -/
theorem replay_counts_gap :
    ¬ ∀ (blob bytes out : List Byte) (segments segments' : List MachOSegment)
        (original : EditableFixups) (fixups : List SegmentFixups) (long : Bool),
      read blob bytes segments = some original →
      (original.withFixups fixups long).serialize segments' = some out →
      readImports out = some original.imports := by
  intro hall
  have hread := hall (gappedBlob 4) (List.replicate 8 0)
    (((gapped 4).withFixups oneSlot false).serialize [shortSegment]).get! [shortSegment]
    [shortSegment] (gapped 4) oneSlot false rfl rfl
  have htwo : readImports (((gapped 4).withFixups oneSlot false).serialize [shortSegment]).get!
      = some [⟨1, "a", 0, false⟩, ⟨0, "a", 0, false⟩] := rfl
  rw [htwo] at hread
  exact absurd hread (by decide)

end EditableFixups

end Armv8Encode.MachO

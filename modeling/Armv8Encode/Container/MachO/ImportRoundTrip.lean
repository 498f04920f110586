/-
  Armv8Encode.Container.MachO.ImportRoundTrip — edited imports, read back.

  The format that is chosen holds every addend, or there is an error; and it
  holds every ordinal, but for those beyond 16 bits, which no format holds and
  nothing refuses.  All names stand in the pool, so every entry is counted; the
  scan goes on behind the last one if the first bytes of the pool look like
  another entry.

  `serialize_imports_iff`: when the imports of the new blob are the edited ones.
-/
import Armv8Encode.Container.MachO.ChainedBlob

namespace Armv8Encode.MachO

open Lib

/-! ## §1. The pool. -/

/-- A symbol in the pool is read as a text. -/
theorem readCstr_of_standsAt {pool : List Byte} {offset : Nat} {symbol : String}
    (h : StandsAt 0 pool offset (symbolBytes symbol)) (hnul : (0 : Byte) ∉ symbolBytes symbol) :
    readCstr pool offset = some symbol := by
  obtain ⟨after, hdrop⟩ := h.drop
  have htext : (symbolBytes symbol ++ (0 : Byte) :: after).takeWhile (fun b => b != 0)
      = symbolBytes symbol := by
    rw [List.takeWhile_append_of_pos]
    · simp
    · intro b hb
      simpa using fun hzero : b = 0 => hnul (hzero ▸ hb)
  have hdata : (symbolBytes symbol).map UInt8.ofBitVec = symbol.toByteArray.data.toList := by
    unfold symbolBytes
    rw [List.map_map]
    exact List.map_id _
  unfold readCstr
  dsimp only
  rw [if_neg (Nat.not_lt.mpr (Nat.le_of_lt h.lt)), hdrop, htext, if_neg (by simp), hdata,
    Array.toArray_toList]
  unfold String.fromUTF8?
  rw [dif_pos symbol.isValidUTF8]
  rfl

/-- Every symbol is found at its offset in the pool, and behind it nothing changes that. -/
theorem symbolsPool_named {imports : List ChainedImport} (more : List Byte)
    (hnul : ∀ i ∈ imports, (0 : Byte) ∉ symbolBytes i.symbol)
    (hsmall : (symbolsPool imports).2.length < 2 ^ 32) :
    Named ((symbolsPool imports).2 ++ more) imports (symbolsPool imports).1
      ∧ ∀ offset ∈ (symbolsPool imports).1, offset < (symbolsPool imports).2.length := by
  obtain ⟨hall, _⟩ := (@Pool.sound_empty Byte 0 _).internAll
    (imports.map fun i => symbolBytes i.symbol)
  obtain ⟨offsets, pool, hinterned⟩ : ∃ offsets pool, Pool.empty.internAll (0 : Byte)
    (imports.map fun i => symbolBytes i.symbol) = (offsets, pool) := ⟨_, _, rfl⟩
  unfold symbolsPool at hsmall ⊢
  rw [hinterned] at hall hsmall ⊢
  dsimp only at hall hsmall ⊢
  have hstands : List.Forall₂ (fun (i : ChainedImport) offset =>
      StandsAt 0 pool.symbols offset (symbolBytes i.symbol)) imports offsets :=
    (List.forall₂_map_right_iff.mp hall).flip
  have hlt : ∀ offset ∈ offsets, offset < pool.symbols.length := by
    intro offset hoffset
    obtain ⟨i, _, hi⟩ := exists_mem_of_forall₂ hstands hoffset
    exact hi.lt
  have hsame : offsets.map (fun offset => offset % 2 ^ 32) = offsets := by
    refine (List.map_congr_left fun offset hoffset => ?_).trans (List.map_id _)
    exact Nat.mod_eq_of_lt (Nat.lt_trans (hlt offset hoffset) hsmall)
  rw [hsame]
  refine ⟨?_, hlt⟩
  have hpairs := (List.forall₂_and_left _ _).mpr ⟨fun i hi => hi, hstands⟩
  refine hpairs.imp fun i offset hi => ⟨Nat.lt_trans hi.2.lt hsmall, ?_⟩
  exact readCstr_of_standsAt (hi.2.append more) (hnul i hi.1)

/-! ## §2. The format. -/

/-- A short format is chosen only for what it can hold. -/
theorem chooseFormat_short {imports : List ChainedImport} {poolLength requested : Nat}
    (hshort : chooseFormat imports poolLength requested = 1
      ∨ chooseFormat imports poolLength requested = 2) :
    (∀ i ∈ imports, -128 ≤ i.libOrdinal ∧ i.libOrdinal ≤ 127)
      ∧ (chooseFormat imports poolLength requested = 1 → ∀ i ∈ imports, i.addend = 0) := by
  unfold chooseFormat at hshort ⊢
  dsimp only at hshort ⊢
  obtain ⟨promoted, hpromoted⟩ : ∃ promoted, promoted = (if requested = 1
    ∧ (imports.any fun i => i.addend != 0) = true then 2 else requested) := ⟨_, rfl⟩
  rw [← hpromoted] at hshort ⊢
  by_cases hlong : (promoted = 1 ∨ promoted = 2)
      ∧ (decide (maxNameOffsetShort < poolLength) = true ∨ (imports.any fun i =>
        decide (i.libOrdinal < -128) || decide (127 < i.libOrdinal)) = true)
  · rw [if_pos hlong] at hshort
    exact absurd hshort (by decide)
  · rw [if_neg hlong] at hshort ⊢
    have hordinals : ¬ (imports.any fun i =>
        decide (i.libOrdinal < -128) || decide (127 < i.libOrdinal)) = true :=
      fun h => hlong ⟨hshort, .inr h⟩
    constructor
    · intro i hi
      by_contra hbeyond
      refine hordinals (List.any_eq_true.mpr ⟨i, hi, ?_⟩)
      rw [Bool.or_eq_true, decide_eq_true_eq, decide_eq_true_eq]
      omega
    · intro hone i hi
      by_contra hne
      have hany : (imports.any fun i => i.addend != 0) = true :=
        List.any_eq_true.mpr ⟨i, hi, bne_iff_ne.mpr hne⟩
      by_cases hrequested : requested = 1
      · rw [if_pos ⟨hrequested, hany⟩] at hpromoted
        omega
      · rw [if_neg fun h => hrequested h.1] at hpromoted
        omega

/-- What a build has made. -/
structure Built (imports : List ChainedImport) (format entrySize : Nat)
    (entries : List (List Byte)) : Prop where
  size : importEntrySize format = some entrySize
  entries : Entries format imports (symbolsPool imports).1 entries
  ordinals : format ≠ 3 → ∀ i ∈ imports, -128 ≤ i.libOrdinal ∧ i.libOrdinal ≤ 127
  noAddend : format = 1 → ∀ i ∈ imports, i.addend = 0
  addend : format = 2 → ∀ i ∈ imports, -2 ^ 31 ≤ i.addend ∧ i.addend < 2 ^ 31

theorem built_of_buildImportsBlob {imports : List ChainedImport} {requested format : Nat}
    {bytes : List Byte} (h : buildImportsBlob imports requested = some (format, bytes)) :
    format = chooseFormat imports (symbolsPool imports).2.length requested
      ∧ ∃ entrySize entries, Built imports format entrySize entries
        ∧ bytes = entries.flatten ++ (symbolsPool imports).2 := by
  unfold buildImportsBlob at h
  dsimp only at h
  obtain ⟨hfits, h⟩ := Option.ite_none_left_eq_some.mp h
  obtain ⟨entrySize, hsize, h⟩ := Option.bind_eq_some_iff.mp h
  obtain ⟨entries, hentries, h⟩ := Option.bind_eq_some_iff.mp h
  cases h
  refine ⟨rfl, entrySize, entries, ⟨hsize, hentries, ?_, ?_, ?_⟩, rfl⟩
  · intro hne
    have hshort : chooseFormat imports (symbolsPool imports).2.length requested = 1
        ∨ chooseFormat imports (symbolsPool imports).2.length requested = 2 := by
      obtain h | h | h := importEntrySize_cases hsize
      · exact .inl h.1
      · exact .inr h.1
      · exact absurd h.1 hne
    exact (chooseFormat_short hshort).1
  · intro hone
    exact (chooseFormat_short (.inl hone)).2 hone
  · intro htwo i hi
    by_contra hbeyond
    refine hfits ⟨htwo, List.any_eq_true.mpr ⟨i, hi, ?_⟩⟩
    rw [Bool.or_eq_true, decide_eq_true_eq, decide_eq_true_eq]
    omega

/-- **Every import is held as it is**, but for an ordinal beyond 16 bits. -/
theorem Built.stored_eq_iff {imports : List ChainedImport} {format entrySize : Nat}
    {entries : List (List Byte)} (h : Built imports format entrySize entries)
    {imp : ChainedImport} (himp : imp ∈ imports)
    (haddend : -2 ^ 63 ≤ imp.addend ∧ imp.addend < 2 ^ 63) :
    imp.stored format = imp
      ↔ (format = 3 → -2 ^ 15 ≤ imp.libOrdinal ∧ imp.libOrdinal < 2 ^ 15) := by
  obtain ⟨ordinal, symbol, addend, weak⟩ := imp
  unfold ChainedImport.stored
  simp only [ChainedImport.mk.injEq, and_true, true_and]
  by_cases hlong : format = 3
  · have hheld : signedOf 64 (addend % 2 ^ 64).toNat = addend :=
      (signedOf_emod_iff (by decide) addend).mpr haddend
    rw [if_pos hlong, if_pos hlong, signedOf_emod_iff (by decide), hheld]
    exact ⟨fun hboth _ => hboth.1, fun hordinal => ⟨hordinal hlong, rfl⟩⟩
  · have hordinal : -128 ≤ ordinal ∧ ordinal ≤ 127 := h.ordinals hlong _ himp
    have hheld : signedOf 8 (ordinal % 2 ^ 8).toNat = ordinal :=
      (signedOf_emod_iff (by decide) ordinal).mpr ⟨by omega, by omega⟩
    rw [if_neg hlong, if_neg hlong, hheld]
    refine ⟨fun _ hthree => absurd hthree hlong, fun _ => ⟨rfl, ?_⟩⟩
    by_cases htwo : format = 2
    · rw [if_pos htwo]
      exact (signedOf_emod_iff (by decide) addend).mpr (h.addend htwo _ himp)
    · rw [if_neg htwo]
      obtain hone | htwo' | hthree := importEntrySize_cases h.size
      · exact (h.noAddend hone.1 _ himp).symm
      · exact absurd htwo'.1 htwo
      · exact absurd hthree.1 hlong

/-! ## §3. The count. -/

/-- The first bytes of the pool do not look like an entry. -/
def ScanStops (format : Nat) (pool : List Byte) : Prop :=
  ∀ entrySize, importEntrySize format = some entrySize →
    ¬ LooksLikeEntry ⟨format, 0, 0, pool⟩ entrySize 0

/-- The bytes behind a table, as its next entry. -/
theorem looksLikeEntry_append {format entrySize n count symbols : Nat} {before : List Byte}
    (hbefore : before.length = n * entrySize) (pool : List Byte) :
    LooksLikeEntry ⟨format, count, symbols, before ++ pool⟩ entrySize n
      ↔ LooksLikeEntry ⟨format, 0, 0, pool⟩ entrySize 0 := by
  have hoffset : nameOffsetAt ⟨format, count, symbols, before ++ pool⟩ entrySize n
      = nameOffsetAt ⟨format, 0, 0, pool⟩ entrySize 0 := by
    unfold nameOffsetAt
    dsimp only
    have hfirst := @readLe_append_left 4 0 before pool
    rw [Nat.add_zero, hbefore] at hfirst
    rw [← hbefore, readLe_append_left, hbefore, hfirst, Nat.zero_mul, Nat.zero_add]
  unfold LooksLikeEntry
  rw [hoffset]
  dsimp only
  rw [List.length_append, hbefore, Nat.succ_mul, Nat.zero_add, Nat.one_mul]
  omega

/-- **The entries that were built are counted**, and no more if the scan stops at the pool. -/
theorem Built.count_eq_iff {imports : List ChainedImport} {format entrySize count symbols : Nat}
    {entries : List (List Byte)} (h : Built imports format entrySize entries)
    (hnul : ∀ i ∈ imports, (0 : Byte) ∉ symbolBytes i.symbol)
    (hsmall : (symbolsPool imports).2.length < 2 ^ 32) :
    countImports ⟨format, count, symbols, entries.flatten ++ (symbolsPool imports).2⟩ entrySize
        (entries.flatten ++ (symbolsPool imports).2).length 0 = imports.length
      ↔ ScanStops format (symbolsPool imports).2 := by
  have hpos : 0 < entrySize := by
    obtain h | h | h := importEntrySize_cases h.size <;> omega
  obtain ⟨hnamed, hoffsets⟩ := symbolsPool_named [] hnul hsmall
  have hlength : entries.flatten.length = imports.length * entrySize :=
    h.entries.length_flatten h.size hnamed.length_eq
  have hbefore : ∀ i < imports.length, LooksLikeEntry
      ⟨format, count, symbols, entries.flatten ++ (symbolsPool imports).2⟩ entrySize i := by
    intro i hi
    obtain ⟨offset, hoffset, _⟩ :=
      exists_getElem?_of_forall₂ hnamed (List.getElem?_eq_getElem hi)
    have hlt := hoffsets offset (List.mem_of_getElem? hoffset)
    obtain ⟨before, entry, after, hbytes, hlen, hone⟩ := h.entries.split h.size
      (symbolsPool imports).2 (List.getElem?_eq_getElem hi) hoffset
    have hread := @nameOffsetAt_importEntry format entrySize i offset _ before entry after h.size
      hone hlen (Nat.lt_trans hlt hsmall) count symbols
    unfold LooksLikeEntry
    dsimp only
    rw [hbytes, hread, ← hbytes, List.length_append, hlength]
    have hle : (i + 1) * entrySize ≤ imports.length * entrySize := Nat.mul_le_mul_right _ hi
    omega
  have hstops : ScanStops format (symbolsPool imports).2
      ↔ ¬ LooksLikeEntry ⟨format, 0, 0, (symbolsPool imports).2⟩ entrySize 0 := by
    constructor
    · intro hall
      exact hall entrySize h.size
    · intro hnot entrySize' hsize'
      rw [h.size] at hsize'
      cases hsize'
      exact hnot
  rw [hstops, ← looksLikeEntry_append hlength (symbolsPool imports).2]
  have hiff := @countImports_eq_iff
    ⟨format, count, symbols, entries.flatten ++ (symbolsPool imports).2⟩ entrySize imports.length hpos
  refine hiff.trans ⟨fun hboth => hboth.2, fun hnot => ⟨hbefore, hnot⟩⟩

/-! ## §4. The imports of the new blob. -/

namespace EditableFixups

/-- The format that edited imports get. -/
def newFormat (e : EditableFixups) : Nat :=
  chooseFormat e.imports (symbolsPool e.imports).2.length e.onDiskImportsFormat

section Edited

variable {e : EditableFixups} {segments : List MachOSegment} {out : List Byte}
  (hedited : e.imports ≠ e.originalImports)
  (hnul : ∀ i ∈ e.imports, (0 : Byte) ∉ symbolBytes i.symbol)
  (hserialize : e.serialize segments = some out) (hsmall : out.length < 2 ^ 32)

include hedited hnul hserialize hsmall

/-- What is read is decided by the scan. -/
theorem readImports_of_edited :
    ∃ entrySize entries count table, Built e.imports e.newFormat entrySize entries
      ∧ (count = e.imports.length ↔ ScanStops e.newFormat (symbolsPool e.imports).2)
      ∧ (∃ zeros, table = entries.flatten ++ ((symbolsPool e.imports).2 ++ List.replicate zeros 0))
      ∧ table.length < 2 ^ 32
      ∧ readImports out = (List.range count).mapM
        (decodeEntry table (table.drop (count * entrySize)) e.newFormat entrySize) := by
  obtain ⟨_, imports, entrySize, table, _, himports, hsize, htable, htableSmall, hread⟩ :=
    readImports_serialize hserialize hsmall
  unfold paddedTable at htable
  unfold importsBlob at himports
  rw [if_neg hedited] at himports
  obtain ⟨⟨format, bytes⟩, hbuild, hmeasure⟩ := Option.bind_eq_some_iff.mp himports
  obtain ⟨hformat, builtSize, entries, hbuilt, hbytes⟩ := built_of_buildImportsBlob hbuild
  obtain ⟨hsame, hsameBytes, measuredSize, hmeasuredSize, hcount, _, _⟩ :=
    measureImportsBlob_spec hmeasure
  dsimp only at hsame hsameBytes hcount hmeasure
  obtain rfl : builtSize = entrySize := by
    rw [hsame, hbuilt.size] at hsize
    exact Option.some.inj hsize
  obtain rfl : measuredSize = builtSize := by
    rw [hsame, hbuilt.size] at hmeasuredSize
    exact (Option.some.inj hmeasuredSize).symm
  obtain rfl : e.newFormat = format := hformat.symm
  rw [hsameBytes, hbytes, List.append_assoc] at htable
  have hpool : (symbolsPool e.imports).2.length < 2 ^ 32 := by
    rw [htable, List.length_append, List.length_append] at htableSmall
    omega
  refine ⟨measuredSize, entries, imports.count, table, hbuilt, ?_, ⟨_, htable⟩, htableSmall,
    by rw [hread, hsame]⟩
  rw [hcount, hbytes]
  exact hbuilt.count_eq_iff hnul hpool

/-- **If the scan stops**, the imports are read as they are held. -/
theorem readImports_of_scanStops (hstops : ScanStops e.newFormat (symbolsPool e.imports).2) :
    readImports out = some (e.imports.map (ChainedImport.stored e.newFormat)) := by
  obtain ⟨entrySize, entries, count, table, hbuilt, hcount, ⟨zeros, htable⟩, htableSmall, hread⟩ :=
    readImports_of_edited hedited hnul hserialize hsmall
  obtain rfl := hcount.mpr hstops
  have hpool : (symbolsPool e.imports).2.length < 2 ^ 32 := by
    rw [htable, List.length_append, List.length_append] at htableSmall
    omega
  obtain ⟨hnamed, _⟩ := symbolsPool_named (List.replicate zeros 0) hnul hpool
  have hlength := hbuilt.entries.length_flatten hbuilt.size hnamed.length_eq
  rw [hread, htable, ← hlength, List.drop_left]
  exact hbuilt.entries.decode hbuilt.size hnamed

/-- **Edited imports are read back** if no ordinal is beyond the 16 bits of the long format and
the first bytes of the pool do not look like an entry; otherwise they are not. -/
theorem serialize_imports_iff
    (haddend : ∀ i ∈ e.imports, -2 ^ 63 ≤ i.addend ∧ i.addend < 2 ^ 63) :
    readImports out = some e.imports
      ↔ (e.newFormat = 3 → ∀ i ∈ e.imports, -2 ^ 15 ≤ i.libOrdinal ∧ i.libOrdinal < 2 ^ 15)
        ∧ ScanStops e.newFormat (symbolsPool e.imports).2 := by
  obtain ⟨entrySize, entries, count, table, hbuilt, hcount, _, _, hread⟩ :=
    readImports_of_edited hedited hnul hserialize hsmall
  by_cases hstops : ScanStops e.newFormat (symbolsPool e.imports).2
  · rw [readImports_of_scanStops hedited hnul hserialize hsmall hstops, Option.some.injEq]
    have hself : e.imports.map (ChainedImport.stored e.newFormat) = e.imports
        ↔ ∀ i ∈ e.imports, i.stored e.newFormat = i := by
      conv_lhs => rhs; rw [← List.map_id e.imports]
      exact List.map_inj_left
    rw [hself]
    constructor
    · intro hall
      refine ⟨fun hlong i hi => ?_, hstops⟩
      exact (hbuilt.stored_eq_iff hi (haddend i hi)).mp (hall i hi) hlong
    · rintro ⟨hordinals, _⟩ i hi
      exact (hbuilt.stored_eq_iff hi (haddend i hi)).mpr fun hlong => hordinals hlong i hi
  · constructor
    · intro hsame
      rw [hread] at hsame
      have hlength := length_of_mapM hsame
      rw [List.length_range] at hlength
      exact absurd (hcount.mp hlength.symm) hstops
    · rintro ⟨_, hstops'⟩
      exact absurd hstops' hstops

end Edited

/-- One import where there was none. -/
def oneImport (libOrdinal : Int) : EditableFixups :=
  ⟨.ptr64, [⟨libOrdinal, "a", 0, false⟩], [], 1, [], []⟩

theorem oneImport_read :
    ∃ out, (oneImport 1).serialize [] = some out
      ∧ readImports out = some (oneImport 1).imports := by
  refine ⟨_, rfl, (serialize_imports_iff ?_ ?_ rfl ?_ ?_).mpr ⟨?_, ?_⟩⟩
  · decide
  · decide
  · decide
  · decide
  · decide
  · rintro entrySize hsize
    cases hsize
    unfold LooksLikeEntry
    decide

/-- An ordinal of 40000 is written in 16 bits and read as a negative one. -/
theorem serialize_wraps_ordinal :
    ¬ ∀ (e : EditableFixups) (segments : List MachOSegment) (out : List Byte),
      e.imports ≠ e.originalImports →
      (∀ i ∈ e.imports, (0 : Byte) ∉ symbolBytes i.symbol) →
      e.serialize segments = some out → readImports out = some e.imports := by
  intro hall
  have hread : readImports ((oneImport 40000).serialize []).get! = some (oneImport 40000).imports :=
    hall (oneImport 40000) [] _ (by decide) (by decide) rfl
  have hwrapped : readImports ((oneImport 40000).serialize []).get!
      = some [⟨-25536, "a", 0, false⟩] := rfl
  rw [hwrapped] at hread
  exact absurd hread (by decide)

end EditableFixups

end Armv8Encode.MachO

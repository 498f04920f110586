/-
  Armv8Encode.Container.MachO.ImportTable — the import table of chained fixups.

  Imports that were edited are written anew: a pool with every symbol once, and
  a table of entries of 4, 8 or 16 bytes, as ordinals, addends and the pool
  need.  The count of the entries is not kept; it is found by a scan, which
  takes entries as long as their name offsets lie inside the bytes.  So it is
  the right count if the bytes behind the table do not look like an entry.

  `decodeEntry_importEntry`: an entry is read as what its fields can hold.
  `countImports_eq_iff`: the scan finds `n` if it cannot go on there.
-/
import Armv8Encode.Container.MachO.ChainedFixups
import Armv8Encode.Lib.Collect
import Armv8Encode.Lib.Lists
import Armv8Encode.Lib.StringPool

namespace Armv8Encode.MachO

open Lib

/-! ## §1. Building. -/

/-- The bytes of a symbol. -/
def symbolBytes (symbol : String) : List Byte :=
  symbol.toByteArray.data.toList.map UInt8.toBitVec

/-- The symbols, each once, and the offset of each import's. -/
def symbolsPool (imports : List ChainedImport) : List Nat × List Byte :=
  let interned := Pool.empty.internAll (0 : Byte) (imports.map fun i => symbolBytes i.symbol)
  (interned.1.map fun offset => offset % 2 ^ 32, interned.2.symbols)

def maxNameOffsetShort : Nat := 2 ^ 23 - 1

/-- The requested format, or the next one that has the fields for the imports. -/
def chooseFormat (imports : List ChainedImport) (poolLength requestedFormat : Nat) : Nat :=
  let needPromoteToAddend := imports.any fun i => i.addend != 0
  let needLongNameOffset := decide (maxNameOffsetShort < poolLength)
  let wantLibOrdinal16 :=
    imports.any fun i => decide (i.libOrdinal < -128) || decide (127 < i.libOrdinal)
  let format := if requestedFormat = 1 ∧ needPromoteToAddend then 2 else requestedFormat
  if (format = 1 ∨ format = 2) ∧ (needLongNameOffset ∨ wantLibOrdinal16) then 3 else format

/-- One entry; `none` if the name offset does not fit. -/
def importEntry (format : Nat) (imp : ChainedImport) (nameOffset : Nat) : Option (List Byte) :=
  let weak := if imp.weak then 1 else 0
  if format = 3 then
    some (leBytes 4 ((imp.libOrdinal % 2 ^ 16).toNat + weak * 2 ^ 16) ++ leBytes 4 nameOffset
      ++ leBytes 8 (imp.addend % 2 ^ 64).toNat)
  else if maxNameOffsetShort < nameOffset then none
  else
    let packed := leBytes 4
      ((imp.libOrdinal % 2 ^ 8).toNat + weak * 2 ^ 8 + nameOffset % 2 ^ 23 * 2 ^ 9)
    some (packed ++ if format = 2 then leBytes 4 (imp.addend % 2 ^ 32).toNat else [])

/-- `build_imports_blob`: the format and the table with the pool; `none` is an error. -/
def buildImportsBlob (imports : List ChainedImport) (requestedFormat : Nat) :
    Option (Nat × List Byte) := do
  let (nameOffsets, pool) := symbolsPool imports
  let format := chooseFormat imports pool.length requestedFormat
  if format = 2 ∧ imports.any fun i => decide (i.addend < -2 ^ 31) || decide (2 ^ 31 ≤ i.addend)
  then none
  else
    let _ ← importEntrySize format
    let entries ← (imports.zip nameOffsets).mapM fun i => importEntry format i.1 i.2
    some (format, entries.flatten ++ pool)

/-! ## §2. One entry. -/

/-- `decode_imports` at one entry, with the bytes from the table on and those from the pool
on. -/
def decodeEntry (table pool : List Byte) (format entrySize i : Nat) : Option ChainedImport := do
  let raw ← readLe 4 table (i * entrySize)
  if format = 3 then
    let nameOffset ← readLe 4 table (i * entrySize + 4)
    let addend ← readLe 8 table (i * entrySize + 8)
    let symbol ← readCstr pool nameOffset
    some ⟨signedOf 16 (raw % 2 ^ 16), symbol, signedOf 64 addend, raw / 2 ^ 16 % 2 = 1⟩
  else
    let addend ← if format = 2 then readLe 4 table (i * entrySize + 4) else some 0
    let symbol ← readCstr pool (raw / 2 ^ 9)
    some ⟨signedOf 8 (raw % 2 ^ 8), symbol, signedOf 32 addend, raw / 2 ^ 8 % 2 = 1⟩

/-- What the fields of a format hold of an import. -/
def ChainedImport.stored (format : Nat) (imp : ChainedImport) : ChainedImport :=
  { imp with
    libOrdinal :=
      if format = 3 then signedOf 16 (imp.libOrdinal % 2 ^ 16).toNat
      else signedOf 8 (imp.libOrdinal % 2 ^ 8).toNat
    addend :=
      if format = 3 then signedOf 64 (imp.addend % 2 ^ 64).toNat
      else if format = 2 then signedOf 32 (imp.addend % 2 ^ 32).toNat
      else 0 }

/-- A signed number is held by the bits that are enough for it. -/
theorem signedOf_emod_iff {bits : Nat} (hbits : 0 < bits) (x : Int) :
    signedOf bits (x % 2 ^ bits).toNat = x ↔ -2 ^ (bits - 1) ≤ x ∧ x < 2 ^ (bits - 1) := by
  obtain ⟨half, hhalf⟩ : ∃ half : Nat, half = 2 ^ (bits - 1) := ⟨_, rfl⟩
  have hpos : 0 < half := hhalf ▸ Nat.two_pow_pos _
  have hdouble : (2 : Nat) ^ bits = half * 2 := by
    rw [hhalf, ← Nat.pow_succ, Nat.succ_eq_add_one, Nat.sub_add_cancel hbits]
  have hpow : (2 : Int) ^ bits = half * 2 := by exact_mod_cast hdouble
  have hpow' : (2 : Int) ^ (bits - 1) = half := by exact_mod_cast hhalf.symm
  have hlow : 0 ≤ x % (half * 2 : Int) := Int.emod_nonneg x (by omega)
  have hhigh : x % (half * 2 : Int) < half * 2 := Int.emod_lt_of_pos x (by omega)
  unfold signedOf
  rw [hpow, hpow', ← hhalf]
  constructor
  · intro h
    split at h <;> omega
  · rintro ⟨hge, hlt⟩
    by_cases hneg : x < 0
    · have hwrap : x % (half * 2 : Int) = x + half * 2 := by
        rw [← Int.add_emod_right, Int.emod_eq_of_lt (by omega) (by omega)]
      rw [hwrap, if_neg (by omega)]
      omega
    · have hsame : x % (half * 2 : Int) = x := Int.emod_eq_of_lt (by omega) (by omega)
      rw [hsame, if_pos (by omega)]
      omega

theorem importEntrySize_cases {format entrySize : Nat}
    (h : importEntrySize format = some entrySize) :
    format = 1 ∧ entrySize = 4 ∨ format = 2 ∧ entrySize = 8 ∨ format = 3 ∧ entrySize = 16 := by
  unfold importEntrySize at h
  split at h <;> cases h <;> simp

/-- The fields of a long entry. -/
theorem decodeEntry_long {table pool : List Byte} {entrySize i raw nameOffset addend : Nat}
    (hraw : readLe 4 table (i * entrySize) = some raw)
    (hoffset : readLe 4 table (i * entrySize + 4) = some nameOffset)
    (haddend : readLe 8 table (i * entrySize + 8) = some addend) :
    decodeEntry table pool 3 entrySize i = (readCstr pool nameOffset).map fun symbol =>
      ⟨signedOf 16 (raw % 2 ^ 16), symbol, signedOf 64 addend, raw / 2 ^ 16 % 2 = 1⟩ := by
  unfold decodeEntry
  rw [hraw, Option.bind_eq_bind, Option.bind_some, if_pos rfl, hoffset, Option.bind_eq_bind,
    Option.bind_some, haddend]
  cases readCstr pool nameOffset <;> rfl

/-- The fields of a short entry. -/
theorem decodeEntry_short {table pool : List Byte} {format entrySize i raw addend : Nat}
    (hshort : format ≠ 3) (hraw : readLe 4 table (i * entrySize) = some raw)
    (haddend : (if format = 2 then readLe 4 table (i * entrySize + 4) else some 0) = some addend) :
    decodeEntry table pool format entrySize i = (readCstr pool (raw / 2 ^ 9)).map fun symbol =>
      ⟨signedOf 8 (raw % 2 ^ 8), symbol, signedOf 32 addend, raw / 2 ^ 8 % 2 = 1⟩ := by
  unfold decodeEntry
  rw [hraw, Option.bind_eq_bind, Option.bind_some, if_neg hshort]
  by_cases htwo : format = 2
  · rw [if_pos htwo] at haddend ⊢
    rw [haddend]
    cases readCstr pool (raw / 2 ^ 9) <;> rfl
  · rw [if_neg htwo] at haddend ⊢
    cases haddend
    cases readCstr pool (raw / 2 ^ 9) <;> rfl

/-- A number that is followed by others. -/
theorem readLe_field {count value offset : Nat} {bytes before after : List Byte}
    (hbytes : bytes = before ++ (leBytes count value ++ after)) (hoffset : before.length = offset)
    (h : value < 256 ^ count) : readLe count bytes offset = some value := by
  rw [hbytes, ← hoffset, ← List.append_assoc]
  exact readLe_between before after h

/-- A bit that is the flag. -/
theorem decide_weak (imp : ChainedImport) :
    decide ((if imp.weak then 1 else 0) = 1) = imp.weak := by
  cases imp.weak <;> rfl

theorem weak_lt (imp : ChainedImport) : (if imp.weak then 1 else 0) < 2 := by
  split <;> omega

/-- The fields of a long entry in a table. -/
theorem importEntry_long_fields {i nameOffset : Nat} {imp : ChainedImport}
    {before entry after : List Byte} (hentry : importEntry 3 imp nameOffset = some entry)
    (hbefore : before.length = i * 16) (hoffset : nameOffset < 2 ^ 32) :
    (∃ raw, readLe 4 (before ++ (entry ++ after)) (i * 16) = some raw
        ∧ raw % 2 ^ 16 = (imp.libOrdinal % 2 ^ 16).toNat
        ∧ raw / 2 ^ 16 % 2 = if imp.weak then 1 else 0)
      ∧ readLe 4 (before ++ (entry ++ after)) (i * 16 + 4) = some nameOffset
      ∧ readLe 8 (before ++ (entry ++ after)) (i * 16 + 8)
        = some (imp.addend % 2 ^ 64).toNat := by
  have hweak := weak_lt imp
  obtain ⟨weak, hw⟩ : ∃ weak, weak = if imp.weak then 1 else 0 := ⟨_, rfl⟩
  obtain ⟨add, hadd⟩ : ∃ add, add = (imp.addend % 2 ^ 64).toNat := ⟨_, rfl⟩
  obtain ⟨packed, hpacked⟩ : ∃ packed,
    packed = (imp.libOrdinal % 2 ^ 16).toNat + weak * 2 ^ 16 := ⟨_, rfl⟩
  unfold importEntry at hentry
  dsimp only at hentry
  rw [if_pos rfl, ← hw, ← hadd, ← hpacked] at hentry
  rw [← hw] at hweak ⊢
  rw [← hadd]
  cases hentry
  refine ⟨⟨packed, ?_, by omega, by omega⟩, ?_, ?_⟩
  · exact @readLe_field 4 packed _ _ before (leBytes 4 nameOffset ++ leBytes 8 add ++ after)
      (by simp [List.append_assoc]) hbefore (by omega)
  · refine @readLe_field 4 nameOffset _ _ (before ++ leBytes 4 packed) (leBytes 8 add ++ after)
      (by simp [List.append_assoc]) ?_ (by omega)
    rw [List.length_append, leBytes_length, hbefore]
  · refine @readLe_field 8 add _ _ (before ++ (leBytes 4 packed ++ leBytes 4 nameOffset)) after
      (by simp [List.append_assoc]) ?_ (by omega)
    rw [List.length_append, List.length_append, leBytes_length, leBytes_length, hbefore]

/-- The fields of a short entry in a table. -/
theorem importEntry_short_fields {format entrySize i nameOffset : Nat} {imp : ChainedImport}
    {before entry after : List Byte} (hshort : format ≠ 3)
    (hentry : importEntry format imp nameOffset = some entry)
    (hbefore : before.length = i * entrySize) :
    (∃ raw, readLe 4 (before ++ (entry ++ after)) (i * entrySize) = some raw
        ∧ raw % 2 ^ 8 = (imp.libOrdinal % 2 ^ 8).toNat
        ∧ raw / 2 ^ 8 % 2 = (if imp.weak then 1 else 0) ∧ raw / 2 ^ 9 = nameOffset)
      ∧ (if format = 2 then readLe 4 (before ++ (entry ++ after)) (i * entrySize + 4) else some 0)
        = some (if format = 2 then (imp.addend % 2 ^ 32).toNat else 0) := by
  have hweak := weak_lt imp
  obtain ⟨weak, hw⟩ : ∃ weak, weak = if imp.weak then 1 else 0 := ⟨_, rfl⟩
  obtain ⟨packed, hpacked⟩ : ∃ packed, packed
      = (imp.libOrdinal % 2 ^ 8).toNat + weak * 2 ^ 8 + nameOffset % 2 ^ 23 * 2 ^ 9 := ⟨_, rfl⟩
  obtain ⟨tail, htail⟩ : ∃ tail, tail
      = if format = 2 then leBytes 4 (imp.addend % 2 ^ 32).toNat else [] := ⟨_, rfl⟩
  unfold importEntry at hentry
  dsimp only at hentry
  rw [if_neg hshort, ← hw, ← hpacked, ← htail] at hentry
  rw [← hw] at hweak ⊢
  obtain ⟨hfit, hentry⟩ := Option.ite_none_left_eq_some.mp hentry
  unfold maxNameOffsetShort at hfit
  cases hentry
  refine ⟨⟨packed, ?_, by omega, by omega, by omega⟩, ?_⟩
  · exact @readLe_field 4 packed _ _ before (tail ++ after) (by simp [List.append_assoc]) hbefore
      (by omega)
  · by_cases htwo : format = 2
    · rw [if_pos htwo] at htail ⊢
      rw [if_pos htwo, htail]
      refine @readLe_field 4 _ _ _ (before ++ leBytes 4 packed) after
        (by simp [List.append_assoc]) ?_ (by omega)
      rw [List.length_append, leBytes_length, hbefore]
    · rw [if_neg htwo, if_neg htwo]

section Entry

variable {format entrySize i nameOffset : Nat} {imp : ChainedImport}
  {before entry after pool : List Byte} (hsize : importEntrySize format = some entrySize)
  (hentry : importEntry format imp nameOffset = some entry)
  (hbefore : before.length = i * entrySize) (hoffset : nameOffset < 2 ^ 32)

include hsize hentry hbefore hoffset

/-- **An entry is read as what its fields hold.** -/
theorem decodeEntry_importEntry (hname : readCstr pool nameOffset = some imp.symbol) :
    decodeEntry (before ++ (entry ++ after)) pool format entrySize i = some (imp.stored format) := by
  by_cases hlong : format = 3
  · subst hlong
    obtain rfl : entrySize = 16 := by
      obtain h | h | h := importEntrySize_cases hsize <;> omega
    obtain ⟨⟨raw, hraw, hord, hweak⟩, hoff, hadd⟩ :=
      @importEntry_long_fields i nameOffset imp before entry after hentry hbefore hoffset
    rw [decodeEntry_long hraw hoff hadd, hname, Option.map_some, hord, hweak, decide_weak]
    rfl
  · obtain ⟨⟨raw, hraw, hord, hweak, hoff⟩, hadd⟩ :=
      @importEntry_short_fields format entrySize i nameOffset imp before entry after hlong hentry
        hbefore
    rw [decodeEntry_short hlong hraw hadd, hoff, hname, Option.map_some, hord, hweak, decide_weak]
    unfold ChainedImport.stored
    rw [if_neg hlong, if_neg hlong]
    by_cases htwo : format = 2
    · rw [if_pos htwo, if_pos htwo]
    · rw [if_neg htwo, if_neg htwo]
      rfl

/-- The scan sees the name offset of an entry. -/
theorem nameOffsetAt_importEntry (count symbols : Nat) :
    nameOffsetAt ⟨format, count, symbols, before ++ (entry ++ after)⟩ entrySize i = nameOffset := by
  unfold nameOffsetAt
  by_cases hlong : format = 3
  · subst hlong
    obtain rfl : entrySize = 16 := by
      obtain h | h | h := importEntrySize_cases hsize <;> omega
    obtain ⟨_, hoff, _⟩ :=
      @importEntry_long_fields i nameOffset imp before entry after hentry hbefore hoffset
    rw [if_pos rfl, hoff]
    rfl
  · obtain ⟨⟨raw, hraw, _, _, hoff⟩, _⟩ :=
      @importEntry_short_fields format entrySize i nameOffset imp before entry after hlong hentry
        hbefore
    rw [if_neg hlong, hraw]
    exact hoff

end Entry

/-! ## §3. All entries. -/

/-- The entries of a table that was built. -/
def Entries (format : Nat) (imports : List ChainedImport) (nameOffsets : List Nat)
    (entries : List (List Byte)) : Prop :=
  (imports.zip nameOffsets).mapM (fun i => importEntry format i.1 i.2) = some entries

/-- The symbols are found at their offsets. -/
def Named (pool : List Byte) (imports : List ChainedImport) (nameOffsets : List Nat) : Prop :=
  List.Forall₂ (fun i offset => offset < 2 ^ 32 ∧ readCstr pool offset = some i.symbol)
    imports nameOffsets

theorem length_importEntry {format entrySize nameOffset : Nat} {imp : ChainedImport}
    {entry : List Byte} (hsize : importEntrySize format = some entrySize)
    (hentry : importEntry format imp nameOffset = some entry) : entry.length = entrySize := by
  unfold importEntry at hentry
  dsimp only at hentry
  obtain ⟨rfl, rfl⟩ | ⟨rfl, rfl⟩ | ⟨rfl, rfl⟩ := importEntrySize_cases hsize
  · rw [if_neg (by decide)] at hentry
    obtain ⟨_, hentry⟩ := Option.ite_none_left_eq_some.mp hentry
    cases hentry
    simp
  · rw [if_neg (by decide)] at hentry
    obtain ⟨_, hentry⟩ := Option.ite_none_left_eq_some.mp hentry
    cases hentry
    simp
  · cases hentry
    simp

section Table

variable {format entrySize : Nat} {imports : List ChainedImport} {nameOffsets : List Nat}
  {entries : List (List Byte)} (hsize : importEntrySize format = some entrySize)
  (hentries : Entries format imports nameOffsets entries)

include hsize hentries

theorem Entries.length_mem : ∀ entry ∈ entries, entry.length = entrySize := by
  intro entry hentry
  obtain ⟨i, _, hi⟩ := exists_of_mem_mapM hentries hentry
  exact length_importEntry hsize hi

theorem Entries.length_flatten (hlength : imports.length = nameOffsets.length) :
    entries.flatten.length = imports.length * entrySize := by
  rw [length_flatten_of_forall (hentries.length_mem hsize), length_of_mapM hentries,
    List.length_zip, ← hlength, Nat.min_self]

/-- The table around one of its entries. -/
theorem Entries.split {i nameOffset : Nat} {imp : ChainedImport} (tail : List Byte)
    (himp : imports[i]? = some imp) (hoffset : nameOffsets[i]? = some nameOffset) :
    ∃ before entry after, entries.flatten ++ tail = before ++ (entry ++ after)
      ∧ before.length = i * entrySize ∧ importEntry format imp nameOffset = some entry := by
  have hzip : (imports.zip nameOffsets)[i]? = some (imp, nameOffset) := by
    rw [List.getElem?_zip_eq_some]
    exact ⟨himp, hoffset⟩
  obtain ⟨entry, hentry, hone⟩ :=
    exists_getElem?_of_forall₂ (mapM_eq_some_iff.mp hentries) hzip
  refine ⟨(entries.take i).flatten, entry, (entries.drop (i + 1)).flatten ++ tail, ?_, ?_, hone⟩
  · conv_lhs => rw [eq_take_cons_drop hentry]
    simp [List.append_assoc]
  · rw [length_flatten_of_forall fun e he =>
      hentries.length_mem hsize e (List.mem_of_mem_take he), List.length_take,
      Nat.min_eq_left (Nat.le_of_lt (List.getElem?_eq_some_iff.mp hentry).1)]

/-- **The entries are read one by one.** -/
theorem Entries.decode {tail pool : List Byte} (hnamed : Named pool imports nameOffsets) :
    (List.range imports.length).mapM
        (decodeEntry (entries.flatten ++ tail) pool format entrySize)
      = some (imports.map (ChainedImport.stored format)) := by
  have hlength : (imports.map (ChainedImport.stored format)).length = imports.length :=
    List.length_map _
  rw [← hlength]
  refine mapM_range_eq_some fun i stored hstored => ?_
  rw [List.getElem?_map] at hstored
  obtain ⟨imp, himp, rfl⟩ := Option.map_eq_some_iff.mp hstored
  obtain ⟨offset, hoffset, hlt, hname⟩ := exists_getElem?_of_forall₂ hnamed himp
  obtain ⟨before, entry, after, hbytes, hbefore, hone⟩ :=
    hentries.split hsize tail himp hoffset
  rw [hbytes]
  exact decodeEntry_importEntry hsize hone hbefore hlt hname

end Table

/-! ## §4. The scan. -/

/-- The bytes at an index look like an entry: its name would lie inside the bytes. -/
def LooksLikeEntry (blob : ImportsBlob) (entrySize i : Nat) : Prop :=
  (i + 1) * entrySize + nameOffsetAt blob entrySize i < blob.bytes.length

instance (blob : ImportsBlob) (entrySize i : Nat) : Decidable (LooksLikeEntry blob entrySize i) :=
  inferInstanceAs (Decidable (_ < _))

theorem countImports_spec {blob : ImportsBlob} {entrySize fuel count : Nat}
    (hfuel : blob.bytes.length ≤ (count + fuel) * entrySize) :
    count ≤ countImports blob entrySize fuel count
      ∧ (∀ i, count ≤ i → i < countImports blob entrySize fuel count →
        LooksLikeEntry blob entrySize i)
      ∧ ¬ LooksLikeEntry blob entrySize (countImports blob entrySize fuel count) := by
  induction fuel generalizing count with
  | zero =>
    refine ⟨Nat.le_refl _, fun i hi hlt => absurd hi (Nat.not_le.mpr hlt), ?_⟩
    unfold LooksLikeEntry
    show ¬ (count + 1) * entrySize + _ < _
    rw [Nat.add_zero] at hfuel
    rw [Nat.succ_mul]
    omega
  | succ fuel ih =>
    unfold countImports
    by_cases hshort : blob.bytes.length < count * entrySize + entrySize
    · rw [if_pos hshort]
      refine ⟨Nat.le_refl _, fun i hi hlt => absurd hi (Nat.not_le.mpr hlt), ?_⟩
      unfold LooksLikeEntry
      rw [Nat.succ_mul]
      omega
    · rw [if_neg hshort]
      by_cases hend : blob.bytes.length
          ≤ (count + 1) * entrySize + nameOffsetAt blob entrySize count
      · rw [if_pos hend]
        exact ⟨Nat.le_refl _, fun i hi hlt => absurd hi (Nat.not_le.mpr hlt), Nat.not_lt.mpr hend⟩
      · rw [if_neg hend]
        obtain ⟨hle, hall, hstop⟩ := @ih (count + 1) (by
          rw [Nat.add_assoc, Nat.add_comm 1 fuel]
          exact hfuel)
        refine ⟨by omega, fun i hi hlt => ?_, hstop⟩
        by_cases heq : i = count
        · rw [heq]
          exact Nat.not_le.mp hend
        · exact hall i (by omega) hlt

/-- **The scan finds `n`** exactly if what is before looks like entries and what is there does
not. -/
theorem countImports_eq_iff {blob : ImportsBlob} {entrySize n : Nat} (hpos : 0 < entrySize) :
    countImports blob entrySize blob.bytes.length 0 = n
      ↔ (∀ i < n, LooksLikeEntry blob entrySize i) ∧ ¬ LooksLikeEntry blob entrySize n := by
  obtain ⟨_, hall, hstop⟩ := @countImports_spec blob entrySize blob.bytes.length 0 (by
    rw [Nat.zero_add]
    exact Nat.le_mul_of_pos_right _ hpos)
  constructor
  · rintro rfl
    exact ⟨fun i hi => hall i (Nat.zero_le _) hi, hstop⟩
  · rintro ⟨hbefore, hthere⟩
    obtain hlt | heq | hlt := Nat.lt_trichotomy
      (countImports blob entrySize blob.bytes.length 0) n
    · exact absurd (hbefore _ hlt) hstop
    · exact heq
    · exact absurd (hall n (Nat.zero_le _) hlt) hthere

end Armv8Encode.MachO

/-
  Armv8Encode.Container.MachO.UnwindInfo — the compact unwind section in a grow.

  `__unwind_info` names functions, their language-specific data and the
  personality slots by image offset, in four shapes of tables; the pages of
  the second level are found through the index of the first.  A grow moves
  what is behind the growth point, and the offsets are shifted in place, one
  field after the other.  A run that stops leaves the fields before shifted;
  the grow then fails and drops the image.

  `delta` is the length of a gap that stands in a byte vector, so that its sum
  with a 32-bit offset stays below `2^64`.
-/
import Armv8Encode.Lib.StateRuns
import Armv8Encode.Lib.Bytes

namespace Armv8Encode.MachO

open Lib

/-! ## §1. The shift. -/

def unwindSectionVersion : Nat := 1
def unwindSecondLevelRegular : Nat := 2
def unwindSecondLevelCompressed : Nat := 3

/-- An edit of the section's bytes, which stand when it stops with an error. -/
abbrev SectionEdit (α : Type) := EStateM String (List Byte) α

/-- The 32-bit number at an offset. -/
def rd (offset : Nat) : SectionEdit Nat := fun b =>
  match readLe 4 b offset with
  | some v => .ok v b
  | none => .error ("unwind_info: read past end at 0x" ++ String.ofList (Nat.toDigits 16 offset)) b

/-- The 16-bit number at an offset of a page. -/
def rdHalf (offset : Nat) : SectionEdit Nat := fun b =>
  match readLe 2 b offset with
  | some v => .ok v b
  | none => .error "unwind_info: page" b

def shiftAt (growthPoint delta offset : Nat) : SectionEdit Unit := do
  let v ← rd offset
  if growthPoint ≤ v then
    if 2 ^ 32 ≤ v + delta then throw "unwind_info: offset overflow"
    modify fun b => patch b offset (leBytes 4 (v + delta))

/-- The function starts of a page.  Those of a compressed page are relative to
the index entry's and stay. -/
def shiftPage (growthPoint delta page : Nat) : SectionEdit Unit := do
  let kind ← rd page
  if kind = unwindSecondLevelRegular then
    let entryPageOff ← rdHalf (page + 4)
    let count ← rdHalf (page + 6)
    (List.range count).forM fun j => shiftAt growthPoint delta (page + entryPageOff + j * 8)
  else if kind ≠ unwindSecondLevelCompressed then
    throw ("unwind_info: unknown second-level page kind " ++ toString kind)

/-- The function offset of an index entry, and its page if it has one. -/
def shiftIndexEntry (growthPoint delta e secondLevel : Nat) : SectionEdit Unit := do
  shiftAt growthPoint delta e
  if secondLevel ≠ 0 then shiftPage growthPoint delta secondLevel

/-- The second-level and the LSDA offset of an index entry. -/
def readIndexEntry (e : Nat) : SectionEdit (Nat × Nat) := do
  let secondLevel ← rd (e + 4)
  let lsda ← rd (e + 8)
  return (secondLevel, lsda)

/-- The LSDA array runs from the first entry's offset to the last one's. -/
def shiftLsdaIndex (growthPoint delta : Nat) (entries : List (Nat × Nat)) : SectionEdit Unit :=
  match entries.head?, entries.getLast? with
  | some first, some last => do
    if last.2 < first.2 ∨ (last.2 - first.2) % 8 ≠ 0 then
      throw "unwind_info: malformed LSDA index"
    (List.range ((last.2 - first.2) / 8)).forM fun k => do
      shiftAt growthPoint delta (first.2 + k * 8)
      shiftAt growthPoint delta (first.2 + k * 8 + 4)
  | _, _ => pure ()

/-- All index entries are read before one of them is shifted. -/
def shiftUnwindInfo (growthPoint delta : Nat) : SectionEdit Unit := do
  let version ← rd 0
  if version ≠ unwindSectionVersion then throw "unwind_info: unsupported version"
  let personalityOff ← rd 12
  let personalityCount ← rd 16
  let indexOff ← rd 20
  let indexCount ← rd 24
  (List.range personalityCount).forM fun i =>
    shiftAt growthPoint delta (personalityOff + i * 4)
  let entries ← (List.range indexCount).mapM fun i => readIndexEntry (indexOff + i * 12)
  entries.zipIdx.forM fun entry =>
    shiftIndexEntry growthPoint delta (indexOff + entry.2 * 12) entry.1.1
  shiftLsdaIndex growthPoint delta entries

/-! ## §2. What the section says. -/

/-- Where an image offset is after the grow. -/
def shiftOffset (growthPoint delta v : Nat) : Nat := if growthPoint ≤ v then v + delta else v

/-- A function's start and how it is unwound. -/
structure UnwindEntry where
  function : Nat
  encoding : Nat
  deriving Repr, DecidableEq

/-- An entry of the first level with the page it leads to; the sentinel has none. -/
structure UnwindIndexEntry where
  function : Nat
  secondLevel : Nat
  lsda : Nat
  page : List UnwindEntry
  deriving Repr, DecidableEq

/-- A record of the LSDA array. -/
structure LsdaRecord where
  function : Nat
  lsda : Nat
  deriving Repr, DecidableEq

structure UnwindHeader where
  version : Nat
  commonOff : Nat
  commonCount : Nat
  personalityOff : Nat
  personalityCount : Nat
  indexOff : Nat
  indexCount : Nat
  deriving Repr, DecidableEq

/-- The section as an unwinder reads it. -/
structure UnwindTable where
  header : UnwindHeader
  commonEncodings : List Nat
  personalities : List Nat
  index : List UnwindIndexEntry
  lsdas : List LsdaRecord
  deriving Repr, DecidableEq

def decodeHeader (b : List Byte) : Option UnwindHeader := do
  let version ← readLe 4 b 0
  let commonOff ← readLe 4 b 4
  let commonCount ← readLe 4 b 8
  let personalityOff ← readLe 4 b 12
  let personalityCount ← readLe 4 b 16
  let indexOff ← readLe 4 b 20
  let indexCount ← readLe 4 b 24
  return { version, commonOff, commonCount, personalityOff, personalityCount, indexOff, indexCount }

/-- An array of 32-bit numbers. -/
def decodeWords (b : List Byte) (offset count : Nat) : Option (List Nat) :=
  (List.range count).mapM fun i => readLe 4 b (offset + i * 4)

def decodeRegularEntry (b : List Byte) (entry : Nat) : Option UnwindEntry := do
  let function ← readLe 4 b entry
  let encoding ← readLe 4 b (entry + 4)
  return { function, encoding }

/-- 24 bits of distance from the index entry's function, and 8 bits that choose
an encoding. -/
def decodeCompressedEntry (b : List Byte) (encodings : List Nat) (function entry : Nat) :
    Option UnwindEntry := do
  let word ← readLe 4 b entry
  let encoding ← encodings[word / 2 ^ 24]?
  return { function := function + word % 2 ^ 24, encoding }

def decodeRegularPage (b : List Byte) (page : Nat) : Option (List UnwindEntry) := do
  let entryPageOff ← readLe 2 b (page + 4)
  let count ← readLe 2 b (page + 6)
  (List.range count).mapM fun j => decodeRegularEntry b (page + entryPageOff + j * 8)

/-- A compressed page has encodings of its own behind the common ones. -/
def decodeCompressedPage (b : List Byte) (common : List Nat) (function page : Nat) :
    Option (List UnwindEntry) := do
  let entryPageOff ← readLe 2 b (page + 4)
  let count ← readLe 2 b (page + 6)
  let encodingsOff ← readLe 2 b (page + 8)
  let encodingsCount ← readLe 2 b (page + 10)
  let own ← decodeWords b (page + encodingsOff) encodingsCount
  (List.range count).mapM fun j =>
    decodeCompressedEntry b (common ++ own) function (page + entryPageOff + j * 4)

def decodePage (b : List Byte) (common : List Nat) (function page : Nat) :
    Option (List UnwindEntry) := do
  let kind ← readLe 4 b page
  if kind = unwindSecondLevelRegular then decodeRegularPage b page
  else if kind = unwindSecondLevelCompressed then decodeCompressedPage b common function page
  else none

/-- Page zero stands for none. -/
def decodeSecondLevel (b : List Byte) (common : List Nat) (function secondLevel : Nat) :
    Option (List UnwindEntry) :=
  if secondLevel = 0 then some [] else decodePage b common function secondLevel

def decodeIndexEntry (b : List Byte) (common : List Nat) (e : Nat) : Option UnwindIndexEntry := do
  let function ← readLe 4 b e
  let secondLevel ← readLe 4 b (e + 4)
  let lsda ← readLe 4 b (e + 8)
  let page ← decodeSecondLevel b common function secondLevel
  return { function, secondLevel, lsda, page }

def decodeLsdaRecord (b : List Byte) (record : Nat) : Option LsdaRecord := do
  let function ← readLe 4 b record
  let lsda ← readLe 4 b (record + 4)
  return { function, lsda }

def decodeLsdas (b : List Byte) (index : List UnwindIndexEntry) : Option (List LsdaRecord) :=
  match index.head?, index.getLast? with
  | some first, some last =>
    (List.range ((last.lsda - first.lsda) / 8)).mapM fun k => decodeLsdaRecord b (first.lsda + k * 8)
  | _, _ => some []

def decodeUnwindInfo (b : List Byte) : Option UnwindTable := do
  let header ← decodeHeader b
  let commonEncodings ← decodeWords b header.commonOff header.commonCount
  let personalities ← decodeWords b header.personalityOff header.personalityCount
  let index ← (List.range header.indexCount).mapM fun i =>
    decodeIndexEntry b commonEncodings (header.indexOff + i * 12)
  let lsdas ← decodeLsdas b index
  return { header, commonEncodings, personalities, index, lsdas }

/-! ## §3. The table after a grow, and lookups in it. -/

def UnwindEntry.shift (growthPoint delta : Nat) (e : UnwindEntry) : UnwindEntry :=
  { e with function := shiftOffset growthPoint delta e.function }

def UnwindIndexEntry.shift (growthPoint delta : Nat) (e : UnwindIndexEntry) : UnwindIndexEntry :=
  { e with
    function := shiftOffset growthPoint delta e.function
    page := e.page.map (UnwindEntry.shift growthPoint delta) }

def LsdaRecord.shift (growthPoint delta : Nat) (r : LsdaRecord) : LsdaRecord :=
  { function := shiftOffset growthPoint delta r.function
    lsda := shiftOffset growthPoint delta r.lsda }

/-- Every absolute image offset moved, and nothing else. -/
def UnwindTable.shift (growthPoint delta : Nat) (t : UnwindTable) : UnwindTable :=
  { t with
    personalities := t.personalities.map (shiftOffset growthPoint delta)
    index := t.index.map (UnwindIndexEntry.shift growthPoint delta)
    lsdas := t.lsdas.map (LsdaRecord.shift growthPoint delta) }

/-- The last element whose key is not past `pc`. -/
def lastNotPast {α : Type} (key : α → Nat) (pc : Nat) (xs : List α) : Option α :=
  (xs.filter fun x => decide (key x ≤ pc)).getLast?

/-- The index entry and the page entry that a `pc` falls under. -/
def UnwindTable.lookup (t : UnwindTable) (pc : Nat) : Option (UnwindIndexEntry × UnwindEntry) := do
  let first ← lastNotPast UnwindIndexEntry.function pc t.index
  let entry ← lastNotPast UnwindEntry.function pc first.page
  return (first, entry)

/-- Offsets keep their order, which is all a lookup compares. -/
theorem shiftOffset_le_iff (growthPoint delta a b : Nat) :
    shiftOffset growthPoint delta a ≤ shiftOffset growthPoint delta b ↔ a ≤ b := by
  unfold shiftOffset
  split <;> split <;> omega

theorem lastNotPast_map {α : Type} (key : α → Nat) (f : α → α) {s : Nat → Nat}
    (hs : ∀ a b, s a ≤ s b ↔ a ≤ b) (hf : ∀ x, key (f x) = s (key x)) (pc : Nat) (xs : List α) :
    lastNotPast key (s pc) (xs.map f) = (lastNotPast key pc xs).map f := by
  have hkey : ((fun x => decide (key x ≤ s pc)) ∘ f) = fun x => decide (key x ≤ pc) := by
    funext x
    simp only [Function.comp_apply, hf, hs]
  unfold lastNotPast
  rw [List.filter_map, hkey, List.getLast?_map]

/-- A lookup of where `pc` went finds what the lookup of `pc` found. -/
theorem UnwindTable.lookup_shift (growthPoint delta : Nat) (t : UnwindTable) (pc : Nat) :
    (t.shift growthPoint delta).lookup (shiftOffset growthPoint delta pc)
      = (t.lookup pc).map (Prod.map (UnwindIndexEntry.shift growthPoint delta)
          (UnwindEntry.shift growthPoint delta)) := by
  have hle := shiftOffset_le_iff growthPoint delta
  unfold UnwindTable.lookup
  have hindex : lastNotPast UnwindIndexEntry.function (shiftOffset growthPoint delta pc)
      (t.shift growthPoint delta).index
      = (lastNotPast UnwindIndexEntry.function pc t.index).map
          (UnwindIndexEntry.shift growthPoint delta) :=
    lastNotPast_map UnwindIndexEntry.function _ hle (fun _ => rfl) pc t.index
  rw [hindex]
  cases lastNotPast UnwindIndexEntry.function pc t.index with
  | none => rfl
  | some first =>
    have hpage : lastNotPast UnwindEntry.function (shiftOffset growthPoint delta pc)
        (first.shift growthPoint delta).page
        = (lastNotPast UnwindEntry.function pc first.page).map
            (UnwindEntry.shift growthPoint delta) :=
      lastNotPast_map UnwindEntry.function _ hle (fun _ => rfl) pc first.page
    simp only [Option.map_some, Option.bind_eq_bind, Option.bind_some, hpage]
    cases lastNotPast UnwindEntry.function pc first.page <;> rfl

end Armv8Encode.MachO

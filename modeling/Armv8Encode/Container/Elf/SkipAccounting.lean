/-
  Armv8Encode.Container.Elf.SkipAccounting — what the skip report leaves out.

  A report is complete when every file byte that the loader stores lies in a
  span or belongs to an entry listed as not handled, and when no block was
  passed over without such an entry.  A TLS descriptor is recorded as 8 bytes
  of its 16, a slot is recorded in the segment of its first byte alone, a block
  that cannot be read is passed over, and sums of addresses may overflow.

  Main results:
    * `Checked.collectSkipSpans_eq_some_iff` — when the sums do not overflow.
    * `decodeTables_eq` — what is recorded and what is listed.
    * `skipReport_iff` — when a report accounts for every write.
-/
import Armv8Encode.Container.Elf.DynamicRelocs

namespace Armv8Encode.Elf

open Lib

/-! ## §1. The report with checked sums. -/

/-- A 64-bit sum, unless it overflows. -/
def addU64 (a b : Nat) : Option Nat := if a + b < 2 ^ 64 then some (a + b) else none

theorem addU64_eq_some_iff {a b c : Nat} : addU64 a b = some c ↔ a + b < 2 ^ 64 ∧ c = a + b := by
  unfold addU64
  by_cases h : a + b < 2 ^ 64
  · rw [if_pos h, Option.some.injEq]
    exact ⟨fun hc => ⟨h, hc.symm⟩, fun hc => hc.2.symm⟩
  · rw [if_neg h]
    exact ⟨fun hc => (by cases hc), fun hc => absurd hc.1 h⟩

namespace Checked

/-- Resolve a virtual address, with the sums of the segments it is compared to. -/
def vaddrToFileOffset : List ProgramHeader → Nat → Option (Option Nat)
  | [], _ => some none
  | p :: rest, vaddr =>
    if p.pType = ptLoad ∧ p.pVaddr ≤ vaddr then do
      let stop ← addU64 p.pVaddr p.pFilesz
      if vaddr < stop then do
        let fileOffset ← addU64 p.pOffset (vaddr - p.pVaddr)
        pure (some fileOffset)
      else vaddrToFileOffset rest vaddr
    else vaddrToFileOffset rest vaddr

def decodeEntry (programHeaders : List ProgramHeader) (entry : List Byte) (out : SkipReport) :
    Option SkipReport :=
  let rOffset := leValue (slice entry 0 8)
  let rType := leValue (slice entry 8 8) % 2 ^ 32
  match relocWriteSize rType with
  | none => some { out with unhandled := out.unhandled ++ [⟨rType, rOffset⟩] }
  | some len => do
    match ← vaddrToFileOffset programHeaders rOffset with
    | none => pure out
    | some fileOffset => pure { out with spans := out.spans ++ [⟨fileOffset, len⟩] }

def decodeBlock (programHeaders : List ProgramHeader) (rawBytes : List Byte)
    (blockVaddr blockSize : Nat) (out : SkipReport) : Option SkipReport :=
  if blockSize = 0 ∨ blockSize % 24 ≠ 0 then some out
  else do
    match ← vaddrToFileOffset programHeaders blockVaddr with
    | none => pure out
    | some start =>
      let stop ← addU64 start blockSize
      if rawBytes.length < stop then pure out
      else
        (List.range (blockSize / 24)).foldlM
          (fun out i => decodeEntry programHeaders (slice rawBytes (start + i * 24) 24) out) out

def absorb (last : RelocSpan) : List RelocSpan → Option (List RelocSpan)
  | [] => some [last]
  | s :: rest => do
    let lastEnd ← addU64 last.fileOffset last.len.toNat
    if s.fileOffset ≤ lastEnd then do
      let sEnd ← addU64 s.fileOffset s.len.toNat
      absorb ⟨last.fileOffset, BitVec.ofNat 32 (max sEnd lastEnd - last.fileOffset)⟩ rest
    else do
      let merged ← absorb s rest
      pure (last :: merged)

def mergeAdjacent : List RelocSpan → Option (List RelocSpan)
  | [] => some []
  | first :: rest => absorb first rest

/-- A table whose address and size are both named. -/
def decodeNamed (programHeaders : List ProgramHeader) (rawBytes : List Byte)
    (va size : Option Nat) (out : SkipReport) : Option SkipReport :=
  match va, size with
  | some va, some size => decodeBlock programHeaders rawBytes va size out
  | _, _ => some out

def decodeTables (programHeaders : List ProgramHeader) (dynamic : List (Nat × Nat))
    (rawBytes : List Byte) : Option SkipReport := do
  let rela ← decodeNamed programHeaders rawBytes (dynamicTag dynamic dtRela)
    (dynamicTag dynamic dtRelasz) ⟨[], []⟩
  -- the second table is read unless its entries are said to have no addend
  if ((dynamicTag dynamic dtPltrel).map (· % 2 ^ 32)).getD dtRela = dtRela then
    decodeNamed programHeaders rawBytes (dynamicTag dynamic dtJmprel)
      (dynamicTag dynamic dtPltrelsz) rela
  else pure rela

/-- The report on an image, unless a sum overflows. -/
def collectSkipSpans (image : Option (List ProgramHeader × List (Nat × Nat)))
    (rawBytes : List Byte) : Option SkipReport :=
  match image with
  | none => some ⟨[], []⟩
  | some (programHeaders, dynamic) => do
    let report ← decodeTables programHeaders dynamic rawBytes
    let spans ← mergeAdjacent
      (report.spans.mergeSort fun a b => decide (a.fileOffset ≤ b.fileOffset))
    pure { report with spans := spans }

end Checked

/-! ## §2. The tables as the image names them. -/

/-- A table of relocations that the dynamic section names. -/
structure RelocBlock where
  address : Nat
  size : Nat
  hasAddends : Bool
  deriving Repr, DecidableEq

/-- A table with its address and its size, if both are named. -/
def namedBlock (va size : Option Nat) (hasAddends : Bool) : List RelocBlock :=
  match va, size with
  | some va, some size => [⟨va, size, hasAddends⟩]
  | _, _ => []

/-- The tables that the dynamic section names; the entries of the second one
have addends unless it says otherwise. -/
def namedBlocks (dynamic : List (Nat × Nat)) : List RelocBlock :=
  namedBlock (dynamicTag dynamic dtRela) (dynamicTag dynamic dtRelasz) true ++
    namedBlock (dynamicTag dynamic dtJmprel) (dynamicTag dynamic dtPltrelsz)
      (((dynamicTag dynamic dtPltrel).map (· % 2 ^ 32)).getD dtRela == dtRela)

/-- A table of whole entries with addends, inside the file; or an empty one. -/
def RelocBlock.Readable (b : RelocBlock) (programHeaders : List ProgramHeader)
    (rawBytes : List Byte) : Prop :=
  b.size = 0 ∨ b.hasAddends = true ∧ b.size % 24 = 0 ∧
    ∃ start, vaddrToFileOffset programHeaders b.address = some start ∧
      start + b.size ≤ rawBytes.length

/-- The entries of a table. -/
def RelocBlock.entries (b : RelocBlock) (programHeaders : List ProgramHeader)
    (rawBytes : List Byte) : List (List Byte) :=
  match vaddrToFileOffset programHeaders b.address with
  | none => []
  | some start =>
    if b.hasAddends = true ∧ b.size % 24 = 0 ∧ start + b.size ≤ rawBytes.length then
      (List.range (b.size / 24)).map fun i => slice rawBytes (start + i * 24) 24
    else []

/-- The entries of all tables that can be read. -/
def relocEntries (programHeaders : List ProgramHeader) (dynamic : List (Nat × Nat))
    (rawBytes : List Byte) : List (List Byte) :=
  (namedBlocks dynamic).flatMap fun b => b.entries programHeaders rawBytes

def relaOffset (entry : List Byte) : Nat := leValue (slice entry 0 8)

def relaType (entry : List Byte) : Nat := leValue (slice entry 8 8) % 2 ^ 32

/-- The bytes that the loader stores for a type: two pointers for a TLS descriptor. -/
def loaderWidth (rType : Nat) : Nat :=
  match rType with
  -- ABS64, PREL64, GLOB_DAT to TLS_TPREL, IRELATIVE
  | 257 | 260 | 1025 | 1026 | 1027 | 1028 | 1029 | 1030 | 1032 => 8
  -- ABS32, PREL32
  | 258 | 261 => 4
  -- TLSDESC
  | 1031 => 16
  | _ => 0

/-- A byte of the file that the loader stores when it applies an entry. -/
def StoredAt (programHeaders : List ProgramHeader) (entry : List Byte) (fileOffset : Nat) : Prop :=
  ∃ k < loaderWidth (relaType entry),
    vaddrToFileOffset programHeaders (relaOffset entry + k) = some fileOffset

/-- A report that accounts for every write of the loader, and was computed
without an overflow. -/
def AccountsForWrites (programHeaders : List ProgramHeader) (dynamic : List (Nat × Nat))
    (rawBytes : List Byte) : Prop :=
  ∃ report, Checked.collectSkipSpans (some (programHeaders, dynamic)) rawBytes = some report ∧
    (∀ s ∈ report.spans, s.stop ≤ rawBytes.length) ∧
    (∀ entry ∈ relocEntries programHeaders dynamic rawBytes,
      ⟨relaType entry, relaOffset entry⟩ ∈ report.unhandled ∨
        ∀ x, StoredAt programHeaders entry x → x ∈ spanBytes report.spans) ∧
    ((∃ b ∈ namedBlocks dynamic, ¬b.Readable programHeaders rawBytes) → report.unhandled ≠ [])

/-! ## §3. The sums that are checked. -/

/-- No sum overflows in looking up an address. -/
def LookupFits : List ProgramHeader → Nat → Prop
  | [], _ => True
  | p :: rest, vaddr =>
    if p.pType = ptLoad ∧ p.pVaddr ≤ vaddr then
      p.pVaddr + p.pFilesz < 2 ^ 64 ∧
        if vaddr < p.pVaddr + p.pFilesz then p.pOffset + (vaddr - p.pVaddr) < 2 ^ 64
        else LookupFits rest vaddr
    else LookupFits rest vaddr

theorem vaddrToFileOffset_cons (p : ProgramHeader) (rest : List ProgramHeader) (vaddr : Nat) :
    vaddrToFileOffset (p :: rest) vaddr
      = if p.pType = ptLoad ∧ p.pVaddr ≤ vaddr ∧ vaddr < p.pVaddr + p.pFilesz then
          some (p.pOffset + (vaddr - p.pVaddr))
        else vaddrToFileOffset rest vaddr := by
  unfold vaddrToFileOffset
  by_cases h : p.pType = ptLoad ∧ p.pVaddr ≤ vaddr ∧ vaddr < p.pVaddr + p.pFilesz
  · rw [if_pos h, List.find?_cons_of_pos (by simp [h])]
    rfl
  · rw [if_neg h, List.find?_cons_of_neg (by simpa [and_assoc] using h)]

namespace Checked

theorem vaddrToFileOffset_eq_some_iff {programHeaders : List ProgramHeader} {vaddr : Nat}
    {r : Option Nat} :
    vaddrToFileOffset programHeaders vaddr = some r ↔
      LookupFits programHeaders vaddr ∧ r = Elf.vaddrToFileOffset programHeaders vaddr := by
  induction programHeaders with
  | nil =>
    rw [vaddrToFileOffset, Option.some.injEq]
    exact ⟨fun h => ⟨trivial, h.symm⟩, fun h => h.2.symm⟩
  | cons p rest ih =>
    rw [vaddrToFileOffset_cons, vaddrToFileOffset, LookupFits]
    by_cases hload : p.pType = ptLoad ∧ p.pVaddr ≤ vaddr
    · rw [if_pos hload, if_pos hload]
      simp only [bind, Option.bind_eq_some_iff, addU64_eq_some_iff, and_assoc]
      simp only [exists_eq_left, exists_and_left]
      refine and_congr_right fun _ => ?_
      by_cases hin : vaddr < p.pVaddr + p.pFilesz
      · rw [if_pos hin, if_pos hin, if_pos ⟨hload.1, hload.2, hin⟩]
        simp only [Option.bind_eq_some_iff, addU64_eq_some_iff, pure, Option.some.injEq]
        constructor
        · rintro ⟨fileOffset, ⟨hfits, rfl⟩, rfl⟩
          exact ⟨hfits, rfl⟩
        · rintro ⟨hfits, rfl⟩
          exact ⟨_, ⟨hfits, rfl⟩, rfl⟩
      · rw [if_neg hin, if_neg hin, if_neg (fun h => hin h.2.2)]
        exact ih
    · rw [if_neg hload, if_neg hload, if_neg (fun h => hload ⟨h.1, h.2.1⟩)]
      exact ih

/-- A fold whose steps may fail, each by its own element. -/
theorem foldlM_eq_some_iff {σ α : Type} {step : σ → α → Option σ} {fits : α → Prop}
    {next : σ → α → σ} (hstep : ∀ s a s', step s a = some s' ↔ fits a ∧ s' = next s a)
    (xs : List α) (s r : σ) :
    xs.foldlM step s = some r ↔ (∀ a ∈ xs, fits a) ∧ r = xs.foldl next s := by
  induction xs generalizing s with
  | nil =>
    show some s = some r ↔ (∀ a ∈ [], fits a) ∧ r = s
    rw [Option.some.injEq]
    exact ⟨fun h => ⟨fun a ha => (by cases ha), h.symm⟩, fun h => h.2.symm⟩
  | cons a xs ih =>
    show ((step s a).bind fun s' => xs.foldlM step s') = some r ↔ _
    rw [List.foldl_cons, Option.bind_eq_some_iff]
    constructor
    · rintro ⟨s', hs', hrest⟩
      obtain ⟨hfits, rfl⟩ := (hstep s a s').mp hs'
      obtain ⟨hall, hr⟩ := (ih (next s a)).mp hrest
      exact ⟨List.forall_mem_cons.mpr ⟨hfits, hall⟩, hr⟩
    · rintro ⟨hall, hr⟩
      obtain ⟨hfits, hall⟩ := List.forall_mem_cons.mp hall
      exact ⟨next s a, (hstep s a _).mpr ⟨hfits, rfl⟩, (ih _).mpr ⟨hall, hr⟩⟩

end Checked

/-- The slot of an entry whose width is known can be looked up. -/
def SlotFits (programHeaders : List ProgramHeader) (entry : List Byte) : Prop :=
  relocWriteSize (relaType entry) ≠ none → LookupFits programHeaders (relaOffset entry)

/-- The start of a table that is read can be looked up, and so can its slots. -/
def RelocBlock.Fits (b : RelocBlock) (programHeaders : List ProgramHeader) (rawBytes : List Byte) :
    Prop :=
  b.hasAddends = true → b.size ≠ 0 → b.size % 24 = 0 →
    LookupFits programHeaders b.address ∧
      (∀ start, vaddrToFileOffset programHeaders b.address = some start →
        start + b.size < 2 ^ 64) ∧
      ∀ entry ∈ b.entries programHeaders rawBytes, SlotFits programHeaders entry

namespace Checked

theorem decodeEntry_eq_some_iff {programHeaders : List ProgramHeader} (out : SkipReport)
    (entry : List Byte) (r : SkipReport) :
    decodeEntry programHeaders entry out = some r ↔
      SlotFits programHeaders entry ∧ r = Elf.decodeEntry programHeaders entry out := by
  unfold decodeEntry Elf.decodeEntry SlotFits relaType relaOffset
  cases hsize : relocWriteSize (leValue (slice entry 8 8) % 2 ^ 32) with
  | none =>
    simp only [hsize, Option.some.injEq]
    exact ⟨fun h => ⟨fun hne => absurd rfl hne, h.symm⟩, fun h => h.2.symm⟩
  | some len =>
    simp only [hsize, bind, Option.bind_eq_some_iff, vaddrToFileOffset_eq_some_iff]
    constructor
    · rintro ⟨slot, ⟨hfits, rfl⟩, hr⟩
      refine ⟨fun _ => hfits, ?_⟩
      cases hlookup : Elf.vaddrToFileOffset programHeaders (leValue (slice entry 0 8)) with
      | none =>
        rw [hlookup] at hr
        exact (Option.some.inj hr).symm
      | some fileOffset =>
        rw [hlookup] at hr
        exact (Option.some.inj hr).symm
    · rintro ⟨hfits, rfl⟩
      refine ⟨_, ⟨hfits (by simp), rfl⟩, ?_⟩
      cases Elf.vaddrToFileOffset programHeaders (leValue (slice entry 0 8)) <;> rfl

end Checked

/-- A table without whole entries has none. -/
theorem RelocBlock.entries_eq_nil {b : RelocBlock} (h : b.size = 0 ∨ b.size % 24 ≠ 0)
    (programHeaders : List ProgramHeader) (rawBytes : List Byte) :
    b.entries programHeaders rawBytes = [] := by
  unfold RelocBlock.entries
  cases vaddrToFileOffset programHeaders b.address with
  | none => rfl
  | some start =>
    obtain hzero | hodd := h
    · simp [hzero]
    · simp [hodd]

/-- The entries of a table that is read are decoded in order. -/
theorem decodeBlock_eq (programHeaders : List ProgramHeader) (rawBytes : List Byte)
    (va size : Nat) (out : SkipReport) :
    decodeBlock programHeaders rawBytes va size out
      = ((⟨va, size, true⟩ : RelocBlock).entries programHeaders rawBytes).foldl
          (fun out entry => decodeEntry programHeaders entry out) out := by
  unfold decodeBlock
  by_cases hwhole : size = 0 ∨ size % 24 ≠ 0
  · rw [if_pos hwhole, RelocBlock.entries_eq_nil hwhole, List.foldl_nil]
  · unfold RelocBlock.entries
    obtain ⟨hsize, hodd⟩ := not_or.mp hwhole
    rw [if_neg hwhole]
    cases hlookup : vaddrToFileOffset programHeaders va with
    | none => rfl
    | some start =>
      by_cases hend : rawBytes.length < start + size
      · simp [hend, Nat.not_le.mpr hend]
      · have hin : True ∧ size % 24 = 0 ∧ start + size ≤ rawBytes.length :=
          ⟨trivial, not_not.mp hodd, Nat.le_of_not_lt hend⟩
        simp only [if_neg hend, if_pos hin, List.foldl_map]

namespace Checked

theorem decodeBlock_eq_some_iff {programHeaders : List ProgramHeader} {rawBytes : List Byte}
    {va size : Nat} {out r : SkipReport} :
    decodeBlock programHeaders rawBytes va size out = some r ↔
      (⟨va, size, true⟩ : RelocBlock).Fits programHeaders rawBytes ∧
        r = Elf.decodeBlock programHeaders rawBytes va size out := by
  rw [decodeBlock_eq]
  unfold decodeBlock RelocBlock.Fits
  by_cases hwhole : size = 0 ∨ size % 24 ≠ 0
  · rw [if_pos hwhole, RelocBlock.entries_eq_nil hwhole, Option.some.injEq]
    refine ⟨fun h => ⟨fun _ hsize hodd => ?_, h.symm⟩, fun h => h.2.symm⟩
    obtain hzero | hne := hwhole
    · exact absurd hzero hsize
    · exact absurd hodd hne
  · obtain ⟨hsize, hodd⟩ := not_or.mp hwhole
    have hodd := not_not.mp hodd
    rw [if_neg hwhole]
    simp only [bind, Option.bind_eq_some_iff, vaddrToFileOffset_eq_some_iff, and_assoc,
      exists_and_left, exists_eq_left, ne_eq, hsize, not_false_eq_true, hodd, forall_const]
    refine and_congr_right fun _ => ?_
    cases hlookup : Elf.vaddrToFileOffset programHeaders va with
    | none =>
      simp [RelocBlock.entries, hlookup, pure, eq_comm]
    | some start =>
      simp only [Option.bind_eq_some_iff, addU64_eq_some_iff, and_assoc, exists_and_left,
        exists_eq_left, Option.some.injEq, forall_eq']
      refine and_congr_right fun _ => ?_
      unfold RelocBlock.entries
      by_cases hend : rawBytes.length < start + size
      · simp [hlookup, hend, Nat.not_le.mpr hend, pure, eq_comm]
      · have hin : True ∧ size % 24 = 0 ∧ start + size ≤ rawBytes.length :=
          ⟨trivial, hodd, Nat.le_of_not_lt hend⟩
        simp only [hlookup, if_neg hend, if_pos hin, List.foldl_map, List.forall_mem_map]
        exact foldlM_eq_some_iff
          (fun out i r => decodeEntry_eq_some_iff out (slice rawBytes (start + i * 24) 24) r) _ _ _

theorem decodeNamed_eq_some_iff {programHeaders : List ProgramHeader} {rawBytes : List Byte}
    {va size : Option Nat} {out r : SkipReport} :
    decodeNamed programHeaders rawBytes va size out = some r ↔
      (∀ b ∈ namedBlock va size true, b.Fits programHeaders rawBytes) ∧
        r = ((namedBlock va size true).flatMap fun b => b.entries programHeaders rawBytes).foldl
          (fun out entry => Elf.decodeEntry programHeaders entry out) out := by
  cases va with
  | none => simp [decodeNamed, namedBlock, eq_comm]
  | some va =>
    cases size with
    | none => simp [decodeNamed, namedBlock, eq_comm]
    | some size =>
      simp only [decodeNamed, namedBlock, List.forall_mem_singleton, List.flatMap_singleton]
      rw [← decodeBlock_eq]
      exact decodeBlock_eq_some_iff

/-- Merging without an overflow. -/
theorem absorb_eq {last : RelocSpan} {rest merged : List RelocSpan}
    (h : absorb last rest = some merged) : merged = Elf.absorb last rest := by
  induction rest generalizing last merged with
  | nil => exact (Option.some.inj h).symm
  | cons s rest ih =>
    rw [absorb_cons]
    simp only [absorb, bind, Option.bind_eq_some_iff, addU64_eq_some_iff] at h
    obtain ⟨lastEnd, ⟨-, rfl⟩, h⟩ := h
    change (if s.fileOffset ≤ last.stop then _ else _) = some merged at h
    by_cases htouch : s.fileOffset ≤ last.stop
    · rw [if_pos htouch]
      rw [if_pos htouch, Option.bind_eq_some_iff] at h
      obtain ⟨sEnd, hsEnd, h⟩ := h
      obtain ⟨-, rfl⟩ := addU64_eq_some_iff.mp hsEnd
      exact ih h
    · rw [if_neg htouch]
      rw [if_neg htouch, Option.bind_eq_some_iff] at h
      obtain ⟨merged', hmerged, h⟩ := h
      rw [← ih hmerged]
      exact (Option.some.inj h).symm

/-- Ranges that end below 2^64 are merged without one. -/
theorem absorb_of_stop_lt {last : RelocSpan} {rest : List RelocSpan}
    (h : ∀ s ∈ last :: rest, s.stop < 2 ^ 64) : absorb last rest = some (Elf.absorb last rest) := by
  induction rest generalizing last with
  | nil => rfl
  | cons s rest ih =>
    have hlast := h last List.mem_cons_self
    have hs := h s (List.mem_cons_of_mem _ List.mem_cons_self)
    have hrest : ∀ t ∈ rest, t.stop < 2 ^ 64 := fun t ht =>
      h t (List.mem_cons_of_mem _ (List.mem_cons_of_mem _ ht))
    have hlastEnd : addU64 last.fileOffset last.len.toNat = some last.stop := if_pos hlast
    have hsEnd : addU64 s.fileOffset s.len.toNat = some s.stop := if_pos hs
    rw [absorb_cons, absorb, hlastEnd]
    simp only [bind, Option.bind_some]
    by_cases htouch : s.fileOffset ≤ last.stop
    · rw [if_pos htouch, if_pos htouch, hsEnd, Option.bind_some]
      refine ih (List.forall_mem_cons.mpr ⟨?_, hrest⟩)
      rw [show (⟨last.fileOffset, BitVec.ofNat 32 (max s.stop last.stop - last.fileOffset)⟩ :
        RelocSpan) = last.extend s from rfl, RelocSpan.extend_stop]
      have hle := Nat.mod_le (max s.stop last.stop - last.fileOffset) (2 ^ 32)
      have hge : last.fileOffset ≤ last.stop := Nat.le_add_right _ _
      omega
    · rw [if_neg htouch, if_neg htouch, ih (List.forall_mem_cons.mpr ⟨hs, hrest⟩)]
      rfl

theorem mergeAdjacent_eq {spans merged : List RelocSpan} (h : mergeAdjacent spans = some merged) :
    merged = Elf.mergeAdjacent spans := by
  cases spans with
  | nil => exact (Option.some.inj h).symm
  | cons first rest => exact absorb_eq h

theorem mergeAdjacent_of_stop_lt {spans : List RelocSpan} (h : ∀ s ∈ spans, s.stop < 2 ^ 64) :
    mergeAdjacent spans = some (Elf.mergeAdjacent spans) := by
  cases spans with
  | nil => rfl
  | cons first rest => exact absorb_of_stop_lt h

end Checked

/-! ## §4. What is recorded and what is listed. -/

/-- A table whose entries have no addends is not read. -/
theorem RelocBlock.entries_rel (va size : Nat) (programHeaders : List ProgramHeader)
    (rawBytes : List Byte) :
    (⟨va, size, false⟩ : RelocBlock).entries programHeaders rawBytes = [] := by
  unfold RelocBlock.entries
  cases vaddrToFileOffset programHeaders va with
  | none => rfl
  | some start => simp

theorem entries_namedBlock_rel (va size : Option Nat) (programHeaders : List ProgramHeader)
    (rawBytes : List Byte) :
    ((namedBlock va size false).flatMap fun b => b.entries programHeaders rawBytes) = [] := by
  cases va <;> cases size <;> simp [namedBlock, RelocBlock.entries_rel]

/-- All tables, their entries decoded in order. -/
theorem decodeTables_eq_foldl (programHeaders : List ProgramHeader) (dynamic : List (Nat × Nat))
    (rawBytes : List Byte) :
    decodeTables programHeaders dynamic rawBytes
      = (relocEntries programHeaders dynamic rawBytes).foldl
          (fun out entry => decodeEntry programHeaders entry out) ⟨[], []⟩ := by
  unfold decodeTables relocEntries namedBlocks
  generalize (((dynamicTag dynamic dtPltrel).map (· % 2 ^ 32)).getD dtRela == dtRela) = hasAddends
  rw [List.flatMap_append, List.foldl_append]
  cases hasAddends with
  | false =>
    rw [entries_namedBlock_rel, List.foldl_nil]
    cases dynamicTag dynamic dtRela <;> cases dynamicTag dynamic dtRelasz <;>
      simp [namedBlock, decodeBlock_eq]
  | true =>
    cases dynamicTag dynamic dtRela <;> cases dynamicTag dynamic dtRelasz <;>
      cases dynamicTag dynamic dtJmprel <;> cases dynamicTag dynamic dtPltrelsz <;>
      simp [namedBlock, decodeBlock_eq]

/-- The range recorded for an entry. -/
def recordedSpan (programHeaders : List ProgramHeader) (entry : List Byte) : Option RelocSpan :=
  (relocWriteSize (relaType entry)).bind fun len =>
    (vaddrToFileOffset programHeaders (relaOffset entry)).map fun fileOffset => ⟨fileOffset, len⟩

/-- The mention of an entry whose width is not known. -/
def unhandledReloc (entry : List Byte) : Option UnhandledReloc :=
  if relocWriteSize (relaType entry) = none then some ⟨relaType entry, relaOffset entry⟩ else none

theorem decodeEntry_eq (programHeaders : List ProgramHeader) (entry : List Byte)
    (out : SkipReport) :
    decodeEntry programHeaders entry out
      = ⟨out.spans ++ (recordedSpan programHeaders entry).toList,
          out.unhandled ++ (unhandledReloc entry).toList⟩ := by
  unfold decodeEntry recordedSpan unhandledReloc relaType relaOffset
  generalize leValue (slice entry 8 8) % 2 ^ 32 = rType
  cases hsize : relocWriteSize rType with
  | none => simp [hsize]
  | some len =>
    cases hlookup : vaddrToFileOffset programHeaders (leValue (slice entry 0 8)) <;>
      simp [hsize, hlookup]

theorem foldl_decodeEntry (programHeaders : List ProgramHeader) (entries : List (List Byte))
    (out : SkipReport) :
    entries.foldl (fun out entry => decodeEntry programHeaders entry out) out
      = ⟨out.spans ++ entries.filterMap (recordedSpan programHeaders),
          out.unhandled ++ entries.filterMap unhandledReloc⟩ := by
  induction entries generalizing out with
  | nil => simp
  | cons entry rest ih =>
    rw [List.foldl_cons, ih, decodeEntry_eq, List.filterMap_cons, List.filterMap_cons]
    cases recordedSpan programHeaders entry <;> cases unhandledReloc entry <;> simp

/-- **What is recorded and listed**, over the entries of all tables that are read. -/
theorem decodeTables_eq (programHeaders : List ProgramHeader) (dynamic : List (Nat × Nat))
    (rawBytes : List Byte) :
    decodeTables programHeaders dynamic rawBytes
      = ⟨(relocEntries programHeaders dynamic rawBytes).filterMap (recordedSpan programHeaders),
          (relocEntries programHeaders dynamic rawBytes).filterMap unhandledReloc⟩ := by
  rw [decodeTables_eq_foldl, foldl_decodeEntry, List.nil_append, List.nil_append]

namespace Checked

/-- The sums of all tables. -/
theorem decodeTables_eq_some_iff {programHeaders : List ProgramHeader}
    {dynamic : List (Nat × Nat)} {rawBytes : List Byte} {r : SkipReport} :
    decodeTables programHeaders dynamic rawBytes = some r ↔
      (∀ b ∈ namedBlocks dynamic, b.Fits programHeaders rawBytes) ∧
        r = Elf.decodeTables programHeaders dynamic rawBytes := by
  rw [decodeTables_eq_foldl]
  unfold decodeTables relocEntries namedBlocks
  simp only [bind, Option.bind_eq_some_iff, decodeNamed_eq_some_iff, and_assoc, exists_and_left,
    exists_eq_left, List.forall_mem_append, List.flatMap_append, List.foldl_append]
  refine and_congr_right fun _ => ?_
  by_cases haddends : ((dynamicTag dynamic dtPltrel).map (· % 2 ^ 32)).getD dtRela = dtRela
  · rw [if_pos haddends, beq_iff_eq.mpr haddends]
    exact decodeNamed_eq_some_iff
  · rw [if_neg haddends, beq_eq_false_iff_ne.mpr haddends, entries_namedBlock_rel, List.foldl_nil]
    refine ⟨fun h => ⟨fun b hb haddends => ?_, (Option.some.inj h).symm⟩,
      fun h => congrArg some h.2.symm⟩
    have hfalse : b.hasAddends = false := by
      revert hb
      cases dynamicTag dynamic dtJmprel <;> cases dynamicTag dynamic dtPltrelsz <;>
        simp [namedBlock]
      rintro rfl
      rfl
    rw [hfalse] at haddends
    cases haddends

/-- A report that is computed is the one without bounds on sums. -/
theorem collectSkipSpans_eq {programHeaders : List ProgramHeader} {dynamic : List (Nat × Nat)}
    {rawBytes : List Byte} {r : SkipReport}
    (h : collectSkipSpans (some (programHeaders, dynamic)) rawBytes = some r) :
    (∀ b ∈ namedBlocks dynamic, b.Fits programHeaders rawBytes) ∧
      r = Elf.collectSkipSpans (some (programHeaders, dynamic)) rawBytes := by
  simp only [collectSkipSpans, bind, Option.bind_eq_some_iff] at h
  obtain ⟨report, hreport, spans, hspans, h⟩ := h
  obtain ⟨hfits, rfl⟩ := decodeTables_eq_some_iff.mp hreport
  obtain rfl := mergeAdjacent_eq hspans
  exact ⟨hfits, (Option.some.inj h).symm⟩

/-- It is computed when the lookups fit and the recorded ranges end below 2^64. -/
theorem collectSkipSpans_of_fits {programHeaders : List ProgramHeader} {dynamic : List (Nat × Nat)}
    {rawBytes : List Byte} (hfits : ∀ b ∈ namedBlocks dynamic, b.Fits programHeaders rawBytes)
    (hstop : ∀ s ∈ (Elf.decodeTables programHeaders dynamic rawBytes).spans, s.stop < 2 ^ 64) :
    collectSkipSpans (some (programHeaders, dynamic)) rawBytes
      = some (Elf.collectSkipSpans (some (programHeaders, dynamic)) rawBytes) := by
  have hreport := decodeTables_eq_some_iff.mpr ⟨hfits, rfl⟩
  have hspans := @mergeAdjacent_of_stop_lt
    ((Elf.decodeTables programHeaders dynamic rawBytes).spans.mergeSort
      fun a b => decide (a.fileOffset ≤ b.fileOffset))
    fun s hs => hstop s (List.mem_mergeSort.mp hs)
  simp only [collectSkipSpans, hreport, bind, Option.bind_some, hspans]
  rfl

end Checked

/-! ## §5. When a report accounts for every write. -/

/-- The ranges recorded for an image. -/
def recordedSpans (programHeaders : List ProgramHeader) (dynamic : List (Nat × Nat))
    (rawBytes : List Byte) : List RelocSpan :=
  (relocEntries programHeaders dynamic rawBytes).filterMap (recordedSpan programHeaders)

/-- What an image must look like for its report to be complete. -/
structure Accountable (programHeaders : List ProgramHeader) (dynamic : List (Nat × Nat))
    (rawBytes : List Byte) : Prop where
  /-- No sum of a lookup overflows. -/
  fits : ∀ b ∈ namedBlocks dynamic, b.Fits programHeaders rawBytes
  /-- Every table can be read, or one that can has an entry that is listed. -/
  read : (∀ b ∈ namedBlocks dynamic, b.Readable programHeaders rawBytes) ∨
    ∃ entry ∈ relocEntries programHeaders dynamic rawBytes, relocWriteSize (relaType entry) = none
  /-- What an entry stores is recorded for it or for another one. -/
  recorded : ∀ entry ∈ relocEntries programHeaders dynamic rawBytes,
    relocWriteSize (relaType entry) ≠ none →
      ∀ x, StoredAt programHeaders entry x →
        x ∈ spanBytes (recordedSpans programHeaders dynamic rawBytes)
  inFile : ∀ s ∈ recordedSpans programHeaders dynamic rawBytes, s.stop ≤ rawBytes.length
  /-- No length is cut when ranges are merged. -/
  short : ¬LongRun (2 ^ 32) (spanBytes (recordedSpans programHeaders dynamic rawBytes))

section Report

variable {programHeaders : List ProgramHeader} {dynamic : List (Nat × Nat)} {rawBytes : List Byte}

theorem relocWriteSize_bounds {rType : Nat} {len : BitVec 32} (h : relocWriteSize rType = some len) :
    len ≠ 0 ∧ len.toNat ≤ 8 ∧ 0 < loaderWidth rType := by
  unfold relocWriteSize at h
  split at h <;> cases h <;> decide

/-- The recorded ranges are those of entries with a width and a slot. -/
theorem mem_recordedSpans {s : RelocSpan} :
    s ∈ recordedSpans programHeaders dynamic rawBytes ↔
      ∃ entry ∈ relocEntries programHeaders dynamic rawBytes,
        relocWriteSize (relaType entry) = some s.len ∧
          vaddrToFileOffset programHeaders (relaOffset entry) = some s.fileOffset := by
  unfold recordedSpans recordedSpan
  rw [List.mem_filterMap]
  refine exists_congr fun entry => and_congr_right fun _ => ?_
  simp only [Option.bind_eq_some_iff, Option.map_eq_some_iff]
  constructor
  · rintro ⟨len, hlen, fileOffset, hoffset, rfl⟩
    exact ⟨hlen, hoffset⟩
  · rintro ⟨hlen, hoffset⟩
    exact ⟨s.len, hlen, s.fileOffset, hoffset, rfl⟩

theorem length_recordedSpans {s : RelocSpan}
    (hs : s ∈ recordedSpans programHeaders dynamic rawBytes) : s.len ≠ 0 ∧ s.len.toNat ≤ 8 := by
  obtain ⟨entry, -, hlen, -⟩ := mem_recordedSpans.mp hs
  obtain ⟨hne, hle, -⟩ := relocWriteSize_bounds hlen
  exact ⟨hne, hle⟩

/-- An entry is listed exactly when its width is not known. -/
theorem mem_unhandled {entry : List Byte}
    (hentry : entry ∈ relocEntries programHeaders dynamic rawBytes) :
    ⟨relaType entry, relaOffset entry⟩
        ∈ (collectSkipSpans (some (programHeaders, dynamic)) rawBytes).unhandled ↔
      relocWriteSize (relaType entry) = none := by
  show _ ∈ (decodeTables programHeaders dynamic rawBytes).unhandled ↔ _
  rw [decodeTables_eq, List.mem_filterMap]
  constructor
  · rintro ⟨other, -, hlisted⟩
    unfold unhandledReloc at hlisted
    split at hlisted
    · next hnone =>
      have htype : relaType other = relaType entry :=
        congrArg UnhandledReloc.rType (Option.some.inj hlisted)
      rwa [htype] at hnone
    · cases hlisted
  · intro hnone
    exact ⟨entry, hentry, if_pos hnone⟩

theorem unhandled_ne_nil_iff :
    (collectSkipSpans (some (programHeaders, dynamic)) rawBytes).unhandled ≠ [] ↔
      ∃ entry ∈ relocEntries programHeaders dynamic rawBytes,
        relocWriteSize (relaType entry) = none := by
  show (decodeTables programHeaders dynamic rawBytes).unhandled ≠ [] ↔ _
  rw [decodeTables_eq]
  constructor
  · intro hne
    obtain ⟨u, hu⟩ := List.exists_mem_of_ne_nil _ hne
    obtain ⟨entry, hentry, hlisted⟩ := List.mem_filterMap.mp hu
    refine ⟨entry, hentry, ?_⟩
    unfold unhandledReloc at hlisted
    split at hlisted
    · assumption
    · cases hlisted
  · rintro ⟨entry, hentry, hnone⟩
    exact List.ne_nil_of_mem (List.mem_filterMap.mpr ⟨entry, hentry, if_pos hnone⟩)

theorem spans_eq :
    (collectSkipSpans (some (programHeaders, dynamic)) rawBytes).spans
      = skipSpans (recordedSpans programHeaders dynamic rawBytes) := by
  show skipSpans (decodeTables programHeaders dynamic rawBytes).spans = _
  rw [decodeTables_eq]
  rfl

/-- The start of a recorded range is stored. -/
theorem storedAt_start {s : RelocSpan}
    (hs : s ∈ recordedSpans programHeaders dynamic rawBytes) :
    ∃ entry ∈ relocEntries programHeaders dynamic rawBytes,
      relocWriteSize (relaType entry) ≠ none ∧ StoredAt programHeaders entry s.fileOffset := by
  obtain ⟨entry, hentry, hlen, hoffset⟩ := mem_recordedSpans.mp hs
  obtain ⟨-, -, hwidth⟩ := relocWriteSize_bounds hlen
  exact ⟨entry, hentry, by simp [hlen], 0, hwidth, hoffset⟩

end Report

/-- **A report accounts for every write** exactly when its image is accountable;
without an image it is empty. -/
theorem skipReport_iff (programHeaders : List ProgramHeader) (dynamic : List (Nat × Nat))
    (rawBytes : List Byte) (hlength : rawBytes.length < 2 ^ 64) :
    Checked.collectSkipSpans none rawBytes = some ⟨[], []⟩ ∧
      (AccountsForWrites programHeaders dynamic rawBytes ↔
        Accountable programHeaders dynamic rawBytes) := by
  refine ⟨rfl, ?_⟩
  constructor
  · rintro ⟨report, hreport, hinFile, hentries, hblocks⟩
    obtain ⟨hfits, rfl⟩ := Checked.collectSkipSpans_eq hreport
    rw [spans_eq] at hinFile hentries
    have hstored : ∀ entry ∈ relocEntries programHeaders dynamic rawBytes,
        relocWriteSize (relaType entry) ≠ none → ∀ x, StoredAt programHeaders entry x →
          x ∈ spanBytes (skipSpans (recordedSpans programHeaders dynamic rawBytes)) := by
      intro entry hentry hknown
      refine (hentries entry hentry).resolve_left fun hlisted => ?_
      exact hknown ((mem_unhandled hentry).mp hlisted)
    have hshort : ¬LongRun (2 ^ 32) (spanBytes (recordedSpans programHeaders dynamic rawBytes)) := by
      intro hrun
      obtain ⟨s, hs, hlost⟩ := skipSpans_loses_start (by decide : 0 < 8) (by decide)
        (fun s hs => (length_recordedSpans hs).2) hrun
      obtain ⟨entry, hentry, hknown, hstart⟩ := storedAt_start hs
      exact hlost (hstored entry hentry hknown _ hstart)
    obtain ⟨-, hcovers, -⟩ := skipSpans_merges (fun s hs => (length_recordedSpans hs).1) hshort
    refine ⟨hfits, ?_, ?_, ?_, hshort⟩
    · by_cases hread : ∃ b ∈ namedBlocks dynamic, ¬b.Readable programHeaders rawBytes
      · exact .inr (unhandled_ne_nil_iff.mp (hblocks hread))
      · refine .inl fun b hb => ?_
        by_contra hnot
        exact hread ⟨b, hb, hnot⟩
    · intro entry hentry hknown x hx
      rw [← hcovers]
      exact hstored entry hentry hknown x hx
    · intro s hs
      -- the last byte of a recorded range lies in a span
      have hpos := (length_recordedSpans hs).1
      have hlt : s.len.toNat ≠ 0 := fun h => hpos (BitVec.eq_of_toNat_eq h)
      have hstop : s.stop = s.fileOffset + s.len.toNat := rfl
      have hlast : s.stop - 1 ∈ spanBytes (recordedSpans programHeaders dynamic rawBytes) :=
        mem_spanBytes.mpr ⟨s, hs, by omega, by omega⟩
      rw [← hcovers] at hlast
      obtain ⟨t, ht, -, hbefore⟩ := mem_spanBytes.mp hlast
      have := hinFile t ht
      omega
  · intro h
    obtain ⟨hascending, hcovers, hnonzero⟩ :=
      skipSpans_merges (fun s hs => (length_recordedSpans hs).1) h.short
    have hrun := Checked.collectSkipSpans_of_fits h.fits (by
      intro s hs
      rw [decodeTables_eq] at hs
      have := h.inFile s hs
      omega)
    refine ⟨_, hrun, ?_, ?_, ?_⟩
    · intro s hs
      rw [spans_eq] at hs
      have hpos := hnonzero s hs
      have hlt : s.len.toNat ≠ 0 := fun h => hpos (BitVec.eq_of_toNat_eq h)
      have hstop : s.stop = s.fileOffset + s.len.toNat := rfl
      have hlast : s.stop - 1 ∈ spanBytes (skipSpans (recordedSpans programHeaders dynamic rawBytes)) :=
        mem_spanBytes.mpr ⟨s, hs, by omega, by omega⟩
      rw [hcovers] at hlast
      obtain ⟨t, ht, -, hbefore⟩ := mem_spanBytes.mp hlast
      have := h.inFile t ht
      omega
    · intro entry hentry
      by_cases hknown : relocWriteSize (relaType entry) = none
      · exact .inl ((mem_unhandled hentry).mpr hknown)
      · refine .inr fun x hx => ?_
        rw [spans_eq, hcovers]
        exact h.recorded entry hentry hknown x hx
    · rintro ⟨b, hb, hnot⟩
      refine unhandled_ne_nil_iff.mpr (h.read.resolve_left fun hall => ?_)
      exact hnot (hall b hb)

/-! ## §6. Two images. -/

/-- A segment of 48 bytes from the start of the file on. -/
def flatSegment : ProgramHeader := ⟨ptLoad, 4, 0, 0, 0, 48, 48, 4096⟩

/-- A table of one entry for the slot at 32, of the type with the given low two bytes. -/
def slotFile (t0 t1 : Byte) : List Byte :=
  [32, 0, 0, 0, 0, 0, 0, 0, t0, t1] ++ List.replicate 38 0

/-- The dynamic section that names the table. -/
def slotDynamic : List (Nat × Nat) := [(dtRela, 0), (dtRelasz, 24)]

theorem relocEntries_slotFile (t0 t1 : Byte) :
    relocEntries [flatSegment] slotDynamic (slotFile t0 t1)
      = [[32, 0, 0, 0, 0, 0, 0, 0, t0, t1] ++ List.replicate 14 0] := by rfl

/-- A pointer that is relocated by the load address. -/
theorem relativeSlot_accounts :
    AccountsForWrites [flatSegment] slotDynamic (slotFile 3 4) := by
  have hrecorded : recordedSpans [flatSegment] slotDynamic (slotFile 3 4) = [⟨32, 8⟩] := by decide
  refine (skipReport_iff [flatSegment] slotDynamic (slotFile 3 4) (by decide)).2.mpr ?_
  refine ⟨?_, .inl ?_, ?_, ?_, ?_⟩
  · intro b hb
    rw [show namedBlocks slotDynamic = [⟨0, 24, true⟩] from rfl, List.mem_singleton] at hb
    subst hb
    refine fun _ _ _ => ⟨by simp [LookupFits, flatSegment, ptLoad], ?_, ?_⟩
    · intro start hstart
      obtain rfl : 0 = start := Option.some.inj hstart
      decide
    · intro entry hentry _
      rw [show (⟨0, 24, true⟩ : RelocBlock).entries [flatSegment] (slotFile 3 4)
        = [[32, 0, 0, 0, 0, 0, 0, 0, 3, 4] ++ List.replicate 14 0] from rfl,
        List.mem_singleton] at hentry
      subst hentry
      rw [show relaOffset ([32, 0, 0, 0, 0, 0, 0, 0, 3, 4] ++ List.replicate 14 0) = 32 from rfl]
      simp [LookupFits, flatSegment, ptLoad]
  · intro b hb
    rw [show namedBlocks slotDynamic = [⟨0, 24, true⟩] from rfl, List.mem_singleton] at hb
    subst hb
    exact .inr ⟨rfl, rfl, 0, rfl, by decide⟩
  · rw [relocEntries_slotFile, hrecorded]
    intro entry hentry _ x hx
    obtain rfl := List.mem_singleton.mp hentry
    obtain ⟨k, hk, hx⟩ := hx
    have hk : k < 8 := hk
    have hoffset : x = 32 + k := by
      have hin : 32 + k < flatSegment.pVaddr + flatSegment.pFilesz := by
        simp only [flatSegment]
        omega
      rw [show relaOffset ([32, 0, 0, 0, 0, 0, 0, 0, 3, 4] ++ List.replicate 14 0) = 32 from rfl,
        vaddrToFileOffset_cons, if_pos ⟨rfl, Nat.zero_le _, hin⟩] at hx
      have hsum := Option.some.inj hx
      simp only [flatSegment] at hsum
      omega
    refine mem_spanBytes.mpr ⟨⟨32, 8⟩, List.mem_singleton.mpr rfl, ?_, ?_⟩
    · show 32 ≤ x
      omega
    · show x < 40
      omega
  · rw [hrecorded]
    intro s hs
    obtain rfl := List.mem_singleton.mp hs
    decide
  · rw [hrecorded]
    intro hrun
    have hslot : LongRun (2 ^ 32) (Set.Ico 32 40) := by
      refine hrun.mono fun x hx => ?_
      obtain ⟨s, hs, hge, hlt⟩ := mem_spanBytes.mp hx
      obtain rfl := List.mem_singleton.mp hs
      exact ⟨hge, hlt⟩
    exact absurd (hslot.le_of_Ico (by decide)) (by decide)

/-- A TLS descriptor stores a second pointer at 40, which no span holds. -/
theorem tlsDescriptor_missed : ¬AccountsForWrites [flatSegment] slotDynamic (slotFile 7 4) := by
  rintro ⟨report, hreport, -, hentries, -⟩
  have hcomputed : Checked.collectSkipSpans (some ([flatSegment], slotDynamic)) (slotFile 7 4)
      = some ⟨[⟨32, 8⟩], []⟩ := by decide +kernel
  rw [hcomputed] at hreport
  obtain rfl := Option.some.inj hreport
  have hentry := hentries _ (by rw [relocEntries_slotFile]; exact List.mem_singleton.mpr rfl)
  rcases hentry with hlisted | hstored
  · cases hlisted
  · have hsecond := hstored 40 ⟨8, by decide, by decide⟩
    obtain ⟨s, hs, hge, hlt⟩ := mem_spanBytes.mp hsecond
    rw [List.mem_singleton] at hs
    subst hs
    exact absurd hlt (by decide)

end Armv8Encode.Elf

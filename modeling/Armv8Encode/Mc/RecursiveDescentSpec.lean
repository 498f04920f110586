/-
  Armv8Encode.Mc.RecursiveDescentSpec — what the recursive walker guarantees.

  The walk ends, the instructions it decodes are those the entry points reach,
  and instructions and data ranges together lie end to end over the bytes.  A
  reached instruction is left out only when an emitted one lies over its start.
-/
import Mathlib.Data.List.Pairwise
import Armv8Encode.Lib.Tiling
import Armv8Encode.Mc.RecursiveDescent

namespace Armv8Encode

open Lib

/-! ## §1. Entries laid over bytes. -/

section Entries

variable {ι : Type} (info : InstructionInfo ι) (encode : ι → List Byte)

/-- The bytes an entry covers. -/
def TimelineEntry.bytes : TimelineEntry ι → List Byte
  | .instruction i => encode i
  | .data range => range.bytes

def TimelineEntry.instruction? : TimelineEntry ι → Option ι
  | .instruction i => some i
  | .data _ => none

def TimelineEntry.data? : TimelineEntry ι → Option DataRange
  | .instruction _ => none
  | .data range => some range

/-- Entries from an offset on, each at its address and with its bytes, up to
the end of the bytes. -/
inductive Laid (base : U64) (bytes : List Byte) : Nat → List (TimelineEntry ι) → Prop where
  | done : Laid base bytes bytes.length []
  | entry {start size : Nat} {e : TimelineEntry ι} {rest : List (TimelineEntry ι)}
      (haddress : (e.address info).toNat = base.toNat + start)
      (hbytes : e.bytes encode = (bytes.drop start).take size) (hsize : 0 < size)
      (hstop : start + size ≤ bytes.length) (hrest : Laid base bytes (start + size) rest) :
      Laid base bytes start (e :: rest)

/-- Address and size of an entry. -/
def TimelineEntry.tile (e : TimelineEntry ι) : Nat × Nat :=
  ((e.address info).toNat, (e.bytes encode).length)

end Entries

namespace Laid

variable {ι : Type} {info : InstructionInfo ι} {encode : ι → List Byte} {base : U64}
  {bytes : List Byte}

/-- The entries tile the addresses. -/
theorem tiled {start : Nat} {entries : List (TimelineEntry ι)}
    (h : Laid info encode base bytes start entries) :
    Tiled (base.toNat + start) (entries.map (TimelineEntry.tile info encode))
      (base.toNat + bytes.length) := by
  induction h with
  | done => exact .nil _
  | @entry start size e rest haddress hbytes hsize hstop hrest ih =>
    have hlength : (e.bytes encode).length = size := by
      rw [hbytes, List.length_take, List.length_drop]
      omega
    rw [List.map_cons, TimelineEntry.tile, haddress, hlength]
    refine .cons ?_
    rw [Nat.add_assoc]
    exact ih

/-- The entries hold the bytes. -/
theorem flatMap_bytes {start : Nat} {entries : List (TimelineEntry ι)}
    (h : Laid info encode base bytes start entries) :
    entries.flatMap (TimelineEntry.bytes encode) = bytes.drop start := by
  induction h with
  | done => simp
  | @entry start size e rest haddress hbytes hsize hstop hrest ih =>
    rw [List.flatMap_cons, hbytes, ih, ← List.drop_drop, List.take_append_drop]

theorem address_ge {start : Nat} {entries : List (TimelineEntry ι)}
    (h : Laid info encode base bytes start entries) :
    ∀ e ∈ entries, base.toNat + start ≤ (e.address info).toNat := by
  induction h with
  | done =>
    intro e he
    cases he
  | @entry start size e rest haddress hbytes hsize hstop hrest ih =>
    intro e' he'
    rcases List.mem_cons.mp he' with rfl | hmem
    · exact haddress.ge
    · have := ih e' hmem
      omega

theorem rising {start : Nat} {entries : List (TimelineEntry ι)}
    (h : Laid info encode base bytes start entries) :
    entries.Pairwise fun a b => (a.address info).toNat < (b.address info).toNat := by
  induction h with
  | done => exact .nil
  | @entry start size e rest haddress hbytes hsize hstop hrest ih =>
    refine .cons (fun e' he' => ?_) ih
    have := hrest.address_ge e' he'
    omega

end Laid

/-- Instructions first and data after them is a rearrangement. -/
theorem perm_instructions_data {ι : Type} (entries : List (TimelineEntry ι)) :
    List.Perm ((entries.filterMap TimelineEntry.instruction?).map TimelineEntry.instruction
      ++ (entries.filterMap TimelineEntry.data?).map TimelineEntry.data) entries := by
  induction entries with
  | nil => exact .refl _
  | cons e rest ih =>
    cases e with
    | instruction i => exact ih.cons _
    | data range => exact List.perm_middle.trans (ih.cons _)

/-- **Laid entries are the timeline** of their instructions and data ranges. -/
theorem timeline_of_laid {ι : Type} {info : InstructionInfo ι} {encode : ι → List Byte}
    {base : U64} {bytes : List Byte} {start : Nat} {entries : List (TimelineEntry ι)}
    {d : Disassembly ι} (h : Laid info encode base bytes start entries)
    (hinstructions : entries.filterMap TimelineEntry.instruction? = d.instructions)
    (hdata : entries.filterMap TimelineEntry.data? = d.dataRanges) :
    d.timeline info = entries := by
  have hperm : List.Perm (d.timeline info) entries := by
    refine (List.mergeSort_perm _ _).trans ?_
    rw [← hinstructions, ← hdata]
    exact perm_instructions_data entries
  have hsorted : (d.timeline info).Pairwise
      fun a b => (a.address info).toNat ≤ (b.address info).toNat := by
    have := @List.pairwise_mergeSort _
      (fun a b : TimelineEntry ι => decide ((a.address info).toNat ≤ (b.address info).toNat))
      (fun a b c hab hbc => by
        simp only [decide_eq_true_eq] at hab hbc ⊢
        omega)
      (fun a b => by
        simp only [Bool.or_eq_true, decide_eq_true_eq]
        omega)
      (d.instructions.map TimelineEntry.instruction ++ d.dataRanges.map TimelineEntry.data)
    exact this.imp (fun hle => by simpa using hle)
  have hdistinct : entries.Pairwise fun a b => (a.address info).toNat ≠ (b.address info).toNat :=
    h.rising.imp Nat.ne_of_lt
  have hsymm : Std.Symm fun a b : TimelineEntry ι =>
      (a.address info).toNat ≠ (b.address info).toNat := ⟨fun _ _ hne => hne.symm⟩
  refine hperm.eq_of_pairwise ?_ hsorted (h.rising.imp Nat.le_of_lt)
  intro a b ha hb hab hba
  by_contra hne
  exact hdistinct.forall (hperm.mem_iff.mp ha) hb hne (Nat.le_antisymm hab hba)

/-! ## §2. Decoders. -/

section Walker

variable {ι : Type} {info : InstructionInfo ι} {unit : Nat} {decodeAt : Nat → U64 → Option ι}
  {base : U64} {bytes : List Byte} {encode : ι → List Byte}

/-- A decoded instruction stands at its address, fills whole units and encodes
to the bytes it was decoded from. -/
structure DecodesBytes (info : InstructionInfo ι) (unit : Nat) (decodeAt : Nat → U64 → Option ι)
    (bytes : List Byte) (encode : ι → List Byte) : Prop where
  unit_pos : 0 < unit
  address : ∀ {offset a i}, decodeAt offset a = some i → info.address i = a
  size_pos : ∀ i, 0 < (info.size i).toNat
  aligned : ∀ i, unit ∣ (info.size i).toNat
  length : ∀ i, (encode i).length = (info.size i).toNat
  encodes : ∀ {offset a i}, decodeAt offset a = some i → encode i <+: bytes.drop offset

theorem alignedLen_le : alignedLen unit bytes ≤ bytes.length := Nat.sub_le _ _

theorem dvd_alignedLen (unit : Nat) (bytes : List Byte) : unit ∣ alignedLen unit bytes :=
  Nat.dvd_sub_mod _

/-- Whole units inside the bytes are inside the aligned length. -/
theorem le_alignedLen {n : Nat} (hunit : 0 < unit) (hn : unit ∣ n) (hle : n ≤ bytes.length) :
    n ≤ alignedLen unit bytes := by
  obtain ⟨k, rfl⟩ := hn
  have hdiv : k ≤ bytes.length / unit := by
    rw [Nat.le_div_iff_mul_le hunit, Nat.mul_comm]
    exact hle
  have hmul : unit * k ≤ unit * (bytes.length / unit) := Nat.mul_le_mul_left _ hdiv
  have hsplit := Nat.div_add_mod bytes.length unit
  unfold alignedLen
  omega

namespace DecodesBytes

theorem fits (h : DecodesBytes info unit decodeAt bytes encode) {offset : Nat} {a : U64} {i : ι}
    (hi : decodeAt offset a = some i) : offset + (info.size i).toNat ≤ bytes.length := by
  have hle := (h.encodes hi).length_le
  rw [h.length, List.length_drop] at hle
  have hpos := h.size_pos i
  omega

/-- The unit after an instruction is still inside the aligned length. -/
theorem stop_le (h : DecodesBytes info unit decodeAt bytes encode) {offset : Nat} {a : U64} {i : ι}
    (hoffset : unit ∣ offset) (hi : decodeAt offset a = some i) :
    offset + (info.size i).toNat ≤ alignedLen unit bytes :=
  le_alignedLen h.unit_pos (Nat.dvd_add hoffset (h.aligned i)) (h.fits hi)

end DecodesBytes

theorem toNat_base_add {offset : Nat} (h : base.toNat + offset < 2 ^ 64) :
    (base + BitVec.ofNat 64 offset).toNat = base.toNat + offset := by
  rw [BitVec.toNat_add, BitVec.toNat_ofNat]
  omega

/-! ## §3. The rebuilt stream tiles the bytes. -/

/-- The offset an open range starts at. -/
def rangeStart (offset : Nat) : OpenRange → Nat
  | some (start, _) => start
  | none => offset

/-- A data range up to an offset is laid before what comes after. -/
theorem laid_data {start stop : Nat} {reason : DataReason} {rest : List (TimelineEntry ι)}
    (hwrap : base.toNat + start < 2 ^ 64) (hstart : start < stop) (hstop : stop ≤ bytes.length)
    (hrest : Laid info encode base bytes stop rest) :
    Laid info encode base bytes start
      (.data ⟨base + BitVec.ofNat 64 start, (bytes.drop start).take (stop - start), reason⟩
        :: rest) := by
  refine @Laid.entry ι info encode base bytes start (stop - start) _ _ (toNat_base_add hwrap) rfl
    (by omega) (by omega) ?_
  rw [Nat.add_sub_cancel' hstart.le]
  exact hrest

theorem laid_flushData {offset : Nat} {range : OpenRange} {rest : List (TimelineEntry ι)}
    (hwrap : base.toNat + offset < 2 ^ 64) (hrange : ∀ r, range = some r → r.1 < offset)
    (hoffset : offset ≤ bytes.length) (hrest : Laid info encode base bytes offset rest) :
    Laid info encode base bytes (rangeStart offset range)
      ((flushData base bytes offset range).map TimelineEntry.data ++ rest) := by
  cases range with
  | none => exact hrest
  | some r =>
    obtain ⟨start, reason⟩ := r
    have hlt : start < offset := hrange _ rfl
    have hstart : base.toNat + start < 2 ^ 64 := by omega
    exact laid_data hstart hlt hoffset hrest

/-- Going on with a reason closes the range before it or extends it. -/
theorem laid_closedRange {offset : Nat} {reason : DataReason} {range : OpenRange}
    {rest : List (TimelineEntry ι)} (hwrap : base.toNat + offset < 2 ^ 64)
    (hrange : ∀ r, range = some r → r.1 < offset) (hoffset : offset ≤ bytes.length)
    (hrest : Laid info encode base bytes
      (rangeStart (offset + unit) (openRange offset reason range)) rest) :
    Laid info encode base bytes (rangeStart offset range)
      ((closedRange base bytes offset reason range).map TimelineEntry.data ++ rest) := by
  cases range with
  | none => exact hrest
  | some r =>
    obtain ⟨start, reason'⟩ := r
    by_cases hsame : reason' = reason
    · simp only [openRange, closedRange, hsame, if_true, rangeStart] at hrest ⊢
      exact hrest
    · simp only [openRange, closedRange, hsame, if_false, rangeStart] at hrest ⊢
      exact @laid_flushData _ _ _ _ _ _ (some (start, reason')) _ hwrap hrange hoffset hrest

theorem openRange_lt (hunit : 0 < unit) {offset : Nat} {reason : DataReason} {range : OpenRange}
    (hrange : ∀ r, range = some r → r.1 < offset) :
    ∀ r, openRange offset reason range = some r → r.1 < offset + unit := by
  intro r hr
  cases range with
  | none =>
    cases hr
    simp only
    omega
  | some r' =>
    have hlt := hrange r' rfl
    unfold openRange at hr
    simp only at hr
    split at hr <;> cases hr <;> simp only <;> omega

theorem laid_tailRange (hwrap : base.toNat + alignedLen unit bytes < 2 ^ 64) :
    Laid info encode base bytes (alignedLen unit bytes)
      ((tailRange unit base bytes).map TimelineEntry.data) := by
  unfold tailRange
  split
  · next hlt =>
    refine @Laid.entry ι info encode base bytes _ (bytes.length - alignedLen unit bytes) _ _
      (toNat_base_add hwrap) ?_ (by omega) (by omega) ?_
    · rw [List.take_of_length_le (by simp)]
      rfl
    · rw [Nat.add_sub_cancel' hlt.le]
      exact .done
  · next hle =>
    have heq : alignedLen unit bytes = bytes.length :=
      Nat.le_antisymm alignedLen_le (Nat.le_of_not_lt hle)
    rw [heq]
    exact .done

/-- Entries laid from an offset on whose instructions and data ranges are those
of a disassembly. -/
def LaidAs (info : InstructionInfo ι) (encode : ι → List Byte) (base : U64) (bytes : List Byte)
    (start : Nat) (d : Disassembly ι) : Prop :=
  ∃ entries, Laid info encode base bytes start entries ∧
    entries.filterMap TimelineEntry.instruction? = d.instructions ∧
    entries.filterMap TimelineEntry.data? = d.dataRanges

@[simp] theorem filterMap_instruction_data (ranges : List DataRange) :
    (ranges.map (TimelineEntry.data (ι := ι))).filterMap TimelineEntry.instruction? = [] := by
  simp [List.filterMap_map, Function.comp_def, TimelineEntry.instruction?]

@[simp] theorem filterMap_data_data (ranges : List DataRange) :
    (ranges.map (TimelineEntry.data (ι := ι))).filterMap TimelineEntry.data? = ranges := by
  simp [List.filterMap_map, Function.comp_def, TimelineEntry.data?]

/-- The end of the stream: the open range and the bytes past the last unit. -/
theorem laidAs_end (hwrap : base.toNat + alignedLen unit bytes < 2 ^ 64) {range : OpenRange}
    (hrange : ∀ r, range = some r → r.1 < alignedLen unit bytes) :
    LaidAs info encode base bytes (rangeStart (alignedLen unit bytes) range)
      ⟨[], flushData base bytes (alignedLen unit bytes) range ++ tailRange unit base bytes⟩ := by
  refine ⟨_, laid_flushData hwrap hrange alignedLen_le (laid_tailRange hwrap), ?_, ?_⟩
  · rw [← List.map_append, filterMap_instruction_data]
  · rw [← List.map_append, filterMap_data_data]

/-- The status of an address is what decoding there gives. -/
def DecodedStatus (decodeAt : Nat → U64 → Option ι) (base : U64) (status : Map U64 (Option ι)) :
    Prop :=
  ∀ a i, status a = some (some i) → decodeAt (a.toNat - base.toNat) a = some i

theorem DecodedStatus.at {status : Map U64 (Option ι)} (h : DecodedStatus decodeAt base status)
    {offset : Nat} (hwrap : base.toNat + offset < 2 ^ 64) {i : ι}
    (hi : status (base + BitVec.ofNat 64 offset) = some (some i)) :
    decodeAt offset (base + BitVec.ofNat 64 offset) = some i := by
  have hdecode := h _ i hi
  rw [toNat_base_add hwrap, Nat.add_sub_cancel_left] at hdecode
  exact hdecode

/-- **The rebuilt stream is laid over the bytes.** -/
theorem buildDisassembly_laid (hdecodes : DecodesBytes info unit decodeAt bytes encode)
    {status : Map U64 (Option ι)} (hstatus : DecodedStatus decodeAt base status)
    (hwrap : base.toNat + alignedLen unit bytes < 2 ^ 64) {fuel offset : Nat} {range : OpenRange}
    (haligned : unit ∣ offset) (hoffset : offset ≤ alignedLen unit bytes)
    (hfuel : alignedLen unit bytes ≤ offset + unit * fuel)
    (hrange : ∀ r, range = some r → r.1 < offset) :
    LaidAs info encode base bytes (rangeStart offset range)
      (buildDisassembly info unit base bytes status fuel offset range) := by
  have hunit := hdecodes.unit_pos
  induction fuel generalizing offset range with
  | zero =>
    have heq : offset = alignedLen unit bytes := by omega
    subst heq
    exact laidAs_end hwrap hrange
  | succ fuel ih =>
    have hlen : alignedLen unit bytes ≤ bytes.length := alignedLen_le
    unfold buildDisassembly
    by_cases hlt : offset < alignedLen unit bytes
    · rw [if_pos hlt]
      have hnext : offset + unit ≤ alignedLen unit bytes := by
        obtain ⟨k, hk⟩ := Nat.dvd_sub (dvd_alignedLen unit bytes) haligned
        have hpos : 0 < k := by
          rcases Nat.eq_zero_or_pos k with rfl | hpos
          · omega
          · exact hpos
        have := Nat.mul_le_mul_left unit hpos
        omega
      have hfuel' : unit * (fuel + 1) = unit * fuel + unit := Nat.mul_succ unit fuel
      -- a data unit: the open range goes on or is closed
      have hdata : ∀ reason, LaidAs info encode base bytes (rangeStart offset range)
          ⟨(buildDisassembly info unit base bytes status fuel (offset + unit)
              (openRange offset reason range)).instructions,
            closedRange base bytes offset reason range
              ++ (buildDisassembly info unit base bytes status fuel (offset + unit)
                (openRange offset reason range)).dataRanges⟩ := by
        intro reason
        obtain ⟨rest, hlaid, hinstructions, hranges⟩ := @ih (offset + unit)
          (openRange offset reason range) (Nat.dvd_add haligned (Nat.dvd_refl unit)) hnext
          (by omega) (openRange_lt hunit hrange)
        refine ⟨_, laid_closedRange (by omega) hrange (by omega) hlaid, ?_, ?_⟩
        · rw [List.filterMap_append, filterMap_instruction_data, hinstructions]
          rfl
        · rw [List.filterMap_append, filterMap_data_data, hranges]
      cases hfound : status (base + BitVec.ofNat 64 offset) with
      | none => exact hdata .unreachable
      | some found =>
        cases found with
        | none => exact hdata .decodeError
        | some i =>
          have hi := hstatus.at (by omega) hfound
          have hsize := hdecodes.size_pos i
          have hstop := hdecodes.stop_le haligned hi
          have hge : unit ≤ (info.size i).toNat := Nat.le_of_dvd hsize (hdecodes.aligned i)
          obtain ⟨rest, hlaid, hinstructions, hranges⟩ := @ih _ none
            (Nat.dvd_add haligned (hdecodes.aligned i)) hstop (by omega) (by simp)
          have hentry : Laid info encode base bytes offset (.instruction i :: rest) := by
            refine @Laid.entry ι info encode base bytes _ (info.size i).toNat _ _ ?_ ?_ hsize (hdecodes.fits hi) hlaid
            · show (info.address i).toNat = _
              rw [hdecodes.address hi]
              exact toNat_base_add (by omega)
            · show encode i = _
              rw [← hdecodes.length i]
              exact List.prefix_iff_eq_take.mp (hdecodes.encodes hi)
          refine ⟨_, laid_flushData (by omega) hrange (by omega) hentry, ?_, ?_⟩
          · simp only [List.filterMap_append, filterMap_instruction_data, List.nil_append,
              TimelineEntry.instruction?, List.filterMap_cons, hinstructions]
          · simp only [List.filterMap_append, filterMap_data_data, TimelineEntry.data?,
              List.filterMap_cons, hranges]
    · rw [if_neg hlt]
      have heq : offset = alignedLen unit bytes := by omega
      subst heq
      exact laidAs_end hwrap hrange

/-! ## §4. Which instructions are emitted. -/

/-- Every emitted instruction was visited. -/
theorem buildDisassembly_instructions {status : Map U64 (Option ι)}
    (haligned : ∀ i : ι, unit ∣ (info.size i).toNat) {fuel offset : Nat} {range : OpenRange}
    (hoffset : unit ∣ offset) {i : ι}
    (hi : i ∈ (buildDisassembly info unit base bytes status fuel offset range).instructions) :
    ∃ at' < alignedLen unit bytes, unit ∣ at' ∧
      status (base + BitVec.ofNat 64 at') = some (some i) := by
  induction fuel generalizing offset range with
  | zero => cases hi
  | succ fuel ih =>
    unfold buildDisassembly at hi
    by_cases hlt : offset < alignedLen unit bytes
    · rw [if_pos hlt] at hi
      have hnext : unit ∣ offset + unit := Nat.dvd_add hoffset (Nat.dvd_refl unit)
      cases hfound : status (base + BitVec.ofNat 64 offset) with
      | none =>
        rw [hfound] at hi
        exact ih hnext hi
      | some found =>
        rw [hfound] at hi
        cases found with
        | none => exact ih hnext hi
        | some j =>
          rcases List.mem_cons.mp hi with rfl | hrest
          · exact ⟨offset, hlt, hoffset, hfound⟩
          · exact ih (Nat.dvd_add hoffset (haligned j)) hrest
    · rw [if_neg hlt] at hi
      cases hi

/-- A visited instruction is emitted, unless an emitted one lies over its start. -/
theorem buildDisassembly_emits (hdecodes : DecodesBytes info unit decodeAt bytes encode)
    {status : Map U64 (Option ι)} (hstatus : DecodedStatus decodeAt base status)
    (hwrap : base.toNat + alignedLen unit bytes < 2 ^ 64) {fuel offset at' : Nat}
    {range : OpenRange} (hoffset : unit ∣ offset) (hat : unit ∣ at') (hle : offset ≤ at')
    (hlt : at' < alignedLen unit bytes) (hfuel : at' < offset + unit * fuel) {i : ι}
    (hi : status (base + BitVec.ofNat 64 at') = some (some i)) :
    i ∈ (buildDisassembly info unit base bytes status fuel offset range).instructions ∨
      ∃ j ∈ (buildDisassembly info unit base bytes status fuel offset range).instructions,
        (info.address j).toNat < base.toNat + at' ∧
          base.toNat + at' < (info.address j).toNat + (info.size j).toNat := by
  have hunit := hdecodes.unit_pos
  induction fuel generalizing offset range with
  | zero => omega
  | succ fuel ih =>
    have hstep : unit * (fuel + 1) = unit * fuel + unit := Nat.mul_succ unit fuel
    unfold buildDisassembly
    rw [if_pos (by omega : offset < alignedLen unit bytes)]
    -- past a data unit the instruction is not at this offset
    have hskip : at' ≠ offset → offset + unit ≤ at' := by
      intro hne
      obtain ⟨k, hk⟩ := Nat.dvd_sub hat hoffset
      have hpos : 0 < k := by
        rcases Nat.eq_zero_or_pos k with rfl | hpos
        · omega
        · exact hpos
      have := Nat.mul_le_mul_left unit hpos
      omega
    have hnext : unit ∣ offset + unit := Nat.dvd_add hoffset (Nat.dvd_refl unit)
    cases hfound : status (base + BitVec.ofNat 64 offset) with
    | none =>
      have hne : at' ≠ offset := by
        rintro rfl
        rw [hi] at hfound
        cases hfound
      exact ih hnext (hskip hne) (by omega)
    | some found =>
      cases found with
      | none =>
        have hne : at' ≠ offset := by
          rintro rfl
          rw [hi] at hfound
          cases hfound
        exact ih hnext (hskip hne) (by omega)
      | some j =>
        have hj := hstatus.at (by omega) hfound
        have haddress : (info.address j).toNat = base.toNat + offset := by
          rw [hdecodes.address hj]
          exact toNat_base_add (by omega)
        have hge : unit ≤ (info.size j).toNat :=
          Nat.le_of_dvd (hdecodes.size_pos j) (hdecodes.aligned j)
        by_cases heq : at' = offset
        · subst heq
          rw [hi] at hfound
          cases hfound
          exact .inl List.mem_cons_self
        · by_cases hinside : at' < offset + (info.size j).toNat
          · exact .inr ⟨j, List.mem_cons_self, by omega, by omega⟩
          · rcases @ih _ none (Nat.dvd_add hoffset (hdecodes.aligned j)) (by omega)
              (by omega) with hmem | ⟨k, hk, hbounds⟩
            · exact .inl (List.mem_cons_of_mem _ hmem)
            · exact .inr ⟨k, List.mem_cons_of_mem _ hk, hbounds⟩

/-! ## §5. Which units are reported as undecodable. -/

/-- The addresses of the units of a data range. -/
def DataRange.units (unit : Nat) (range : DataRange) : List U64 :=
  (List.range (range.bytes.length / unit)).map fun k => range.address + BitVec.ofNat 64 (unit * k)

/-- The units that were visited and do not decode. -/
def errorUnits (unit : Nat) (ranges : List DataRange) : List U64 :=
  (ranges.filter fun range => range.reason == .decodeError).flatMap (DataRange.units unit)

theorem errorUnits_append (ranges ranges' : List DataRange) :
    errorUnits unit (ranges ++ ranges') = errorUnits unit ranges ++ errorUnits unit ranges' := by
  simp [errorUnits]

theorem errorUnits_tailRange : errorUnits unit (tailRange unit base bytes) = [] := by
  unfold tailRange
  split <;> simp [errorUnits]

/-- An open range of undecodable units holds an offset. -/
def HeldError (range : OpenRange) (offset at' : Nat) : Prop :=
  ∃ start, range = some (start, .decodeError) ∧ start ≤ at' ∧ at' < offset

/-- The units of a closed range are those between its ends. -/
theorem mem_units_iff (hunit : 0 < unit) {start stop : Nat} (reason : DataReason)
    (hstart : unit ∣ start) (hstop : unit ∣ stop) (hle : stop ≤ bytes.length) {a : U64} :
    a ∈ DataRange.units unit
        ⟨base + BitVec.ofNat 64 start, (bytes.drop start).take (stop - start), reason⟩ ↔
      ∃ at', unit ∣ at' ∧ a = base + BitVec.ofNat 64 at' ∧ start ≤ at' ∧ at' < stop := by
  have hlength : ((bytes.drop start).take (stop - start)).length = stop - start := by
    rw [List.length_take, List.length_drop]
    omega
  obtain ⟨m, hm⟩ := Nat.dvd_sub hstop hstart
  have hcount : (stop - start) / unit = m := by
    rw [hm, Nat.mul_div_cancel_left m hunit]
  simp only [DataRange.units, hlength, hcount, List.mem_map, List.mem_range]
  constructor
  · rintro ⟨k, hk, rfl⟩
    have hlt : unit * k < unit * m := Nat.mul_lt_mul_of_pos_left hk hunit
    refine ⟨start + unit * k, Nat.dvd_add hstart (Nat.dvd_mul_right unit k), ?_, by omega, by omega⟩
    rw [BitVec.ofNat_add, BitVec.add_assoc]
  · rintro ⟨at', hat, rfl, hge, hlt⟩
    obtain ⟨k, hk⟩ := Nat.dvd_sub hat hstart
    refine ⟨k, Nat.lt_of_mul_lt_mul_left (a := unit) (by omega), ?_⟩
    rw [BitVec.add_assoc, ← BitVec.ofNat_add, ← hk, Nat.add_sub_cancel' hge]

theorem mem_errorUnits_flushData (hunit : 0 < unit) {offset : Nat} {range : OpenRange}
    (hrange : ∀ r, range = some r → unit ∣ r.1) (hoffset : unit ∣ offset)
    (hle : offset ≤ bytes.length) {a : U64} :
    a ∈ errorUnits unit (flushData base bytes offset range) ↔
      ∃ at', unit ∣ at' ∧ a = base + BitVec.ofNat 64 at' ∧ HeldError range offset at' := by
  cases range with
  | none => simp [flushData, errorUnits, HeldError]
  | some r =>
    obtain ⟨start, reason⟩ := r
    have hstart : unit ∣ start := hrange _ rfl
    by_cases herror : reason = .decodeError
    · subst herror
      simp only [flushData, errorUnits, List.filter_cons, beq_self_eq_true, if_true,
        List.filter_nil, List.flatMap_cons, List.flatMap_nil, List.append_nil,
        mem_units_iff hunit _ hstart hoffset hle]
      simp [HeldError]
    · simp [flushData, errorUnits, HeldError, herror]

/-- A unit of another reason closes the open range, an undecodable one keeps it. -/
theorem errorUnits_closedRange_decodeError (offset : Nat) (range : OpenRange) :
    errorUnits unit (closedRange base bytes offset .decodeError range) = [] := by
  cases range with
  | none => rfl
  | some r =>
    obtain ⟨start, reason⟩ := r
    by_cases herror : reason = .decodeError
    · simp [closedRange, errorUnits, herror]
    · simp [closedRange, flushData, errorUnits, herror]

theorem mem_errorUnits_closedRange_unreachable (hunit : 0 < unit) {offset : Nat}
    {range : OpenRange} (hrange : ∀ r, range = some r → unit ∣ r.1) (hoffset : unit ∣ offset)
    (hle : offset ≤ bytes.length) {a : U64} :
    a ∈ errorUnits unit (closedRange base bytes offset .unreachable range) ↔
      ∃ at', unit ∣ at' ∧ a = base + BitVec.ofNat 64 at' ∧ HeldError range offset at' := by
  cases range with
  | none => simp [closedRange, errorUnits, HeldError]
  | some r =>
    obtain ⟨start, reason⟩ := r
    by_cases hsame : reason = .unreachable
    · simp [closedRange, errorUnits, HeldError, hsame]
    · rw [← mem_errorUnits_flushData hunit hrange hoffset hle]
      simp only [closedRange, hsame, if_false]

theorem heldError_openRange_decodeError {offset : Nat} {range : OpenRange}
    (hunit : 0 < unit) (hoffset : unit ∣ offset) (hrange : ∀ r, range = some r → r.1 < offset)
    {at' : Nat} (hat : unit ∣ at') :
    HeldError (openRange offset .decodeError range) (offset + unit) at' ↔
      HeldError range offset at' ∨ at' = offset := by
  -- no unit starts strictly between this one and the next
  have hbetween : offset ≤ at' → at' < offset + unit → at' = offset := by
    intro hge hlt
    obtain ⟨k, hk⟩ := Nat.dvd_sub hat hoffset
    have hzero : k < 1 := Nat.lt_of_mul_lt_mul_left (a := unit) (by omega)
    obtain rfl : k = 0 := by omega
    omega
  cases range with
  | none =>
    simp only [openRange, HeldError, Option.some.injEq, Prod.mk.injEq, and_true, exists_eq_left',
      reduceCtorEq, false_and, exists_false, false_or]
    constructor
    · rintro ⟨hge, hlt⟩
      exact hbetween hge hlt
    · rintro rfl
      omega
  | some r =>
    obtain ⟨start, reason⟩ := r
    have hlt : start < offset := hrange _ rfl
    by_cases herror : reason = .decodeError
    · subst herror
      simp only [openRange, if_true, HeldError, Option.some.injEq, Prod.mk.injEq, and_true,
        exists_eq_left']
      constructor
      · rintro ⟨hge, hstop⟩
        by_cases hbefore : at' < offset
        · exact .inl ⟨hge, hbefore⟩
        · exact .inr (hbetween (by omega) hstop)
      · rintro (⟨hge, hbefore⟩ | rfl) <;> omega
    · simp only [openRange, herror, if_false, HeldError, Option.some.injEq, Prod.mk.injEq, and_true,
        exists_eq_left', and_false, false_and, exists_false, false_or]
      constructor
      · rintro ⟨hge, hstop⟩
        exact hbetween hge hstop
      · rintro rfl
        omega

theorem not_heldError_openRange_unreachable {offset stop at' : Nat} {range : OpenRange} :
    ¬ HeldError (openRange offset .unreachable range) stop at' := by
  rintro ⟨start, hopen, -⟩
  cases range with
  | none => simp [openRange] at hopen
  | some r =>
    obtain ⟨start', reason⟩ := r
    by_cases hsame : reason = .unreachable
    · simp [openRange, hsame] at hopen
    · simp [openRange, hsame] at hopen

theorem openRange_dvd {offset : Nat} {reason : DataReason} {range : OpenRange}
    (hoffset : unit ∣ offset) (hrange : ∀ r, range = some r → unit ∣ r.1) :
    ∀ r, openRange offset reason range = some r → unit ∣ r.1 := by
  intro r hr
  cases range with
  | none =>
    cases hr
    exact hoffset
  | some r' =>
    have hdvd := hrange r' rfl
    unfold openRange at hr
    simp only at hr
    split at hr
    · cases hr
      exact hdvd
    · cases hr
      exact hoffset

/-- The undecodable units from an offset on: those of the open range and the
visited ones still to come. -/
def ErrorFrom (unit : Nat) (base : U64) (bytes : List Byte) (status : Map U64 (Option ι))
    (range : OpenRange) (offset : Nat) (a : U64) : Prop :=
  ∃ at', unit ∣ at' ∧ a = base + BitVec.ofNat 64 at' ∧
    (HeldError range offset at' ∨
      (offset ≤ at' ∧ at' < alignedLen unit bytes ∧
        status (base + BitVec.ofNat 64 at') = some none))

theorem mem_errorUnits_end (hunit : 0 < unit) {status : Map U64 (Option ι)} {range : OpenRange}
    (hdvd : ∀ r, range = some r → unit ∣ r.1) {a : U64} :
    a ∈ errorUnits unit
        (flushData base bytes (alignedLen unit bytes) range ++ tailRange unit base bytes) ↔
      ErrorFrom unit base bytes status range (alignedLen unit bytes) a := by
  rw [errorUnits_append, errorUnits_tailRange, List.append_nil,
    mem_errorUnits_flushData hunit hdvd (dvd_alignedLen unit bytes) alignedLen_le]
  refine exists_congr fun at' => and_congr_right fun _ => and_congr_right fun _ => ?_
  refine (or_iff_left ?_).symm
  rintro ⟨hge, hlt, -⟩
  omega

/-- One unit of the stream: the open range before it and the unit itself are
what it closes and what it leaves open. -/
theorem errorFrom_step {status : Map U64 (Option ι)} {range range' : OpenRange} {offset : Nat}
    {closed : Nat → Prop} (hoffset : unit ∣ offset) (hlt : offset < alignedLen unit bytes)
    (hheld : ∀ at', unit ∣ at' →
      (closed at' ∨ HeldError range' (offset + unit) at' ↔
        HeldError range offset at' ∨
          (at' = offset ∧ status (base + BitVec.ofNat 64 offset) = some none))) (a : U64) :
    (∃ at', unit ∣ at' ∧ a = base + BitVec.ofNat 64 at' ∧ closed at') ∨
        ErrorFrom unit base bytes status range' (offset + unit) a ↔
      ErrorFrom unit base bytes status range offset a := by
  -- no unit starts strictly between this one and the next
  have hsplit : ∀ at', unit ∣ at' → (offset ≤ at' ↔ at' = offset ∨ offset + unit ≤ at') := by
    intro at' hat
    constructor
    · intro hge
      obtain ⟨k, hk⟩ := Nat.dvd_sub hat hoffset
      rcases Nat.eq_zero_or_pos k with rfl | hpos
      · omega
      · have := Nat.mul_le_mul_left unit hpos
        omega
    · rintro (rfl | hge) <;> omega
  constructor
  · rintro (⟨at', hat, rfl, hclose⟩ | ⟨at', hat, rfl, hheld' | ⟨hge, hrest⟩⟩)
    · rcases (hheld at' hat).mp (.inl hclose) with hheld' | ⟨rfl, hstatus⟩
      · exact ⟨at', hat, rfl, .inl hheld'⟩
      · exact ⟨at', hat, rfl, .inr ⟨Nat.le_refl _, hlt, hstatus⟩⟩
    · rcases (hheld at' hat).mp (.inr hheld') with hheld' | ⟨rfl, hstatus⟩
      · exact ⟨at', hat, rfl, .inl hheld'⟩
      · exact ⟨at', hat, rfl, .inr ⟨Nat.le_refl _, hlt, hstatus⟩⟩
    · exact ⟨at', hat, rfl, .inr ⟨by omega, hrest⟩⟩
  · rintro ⟨at', hat, rfl, hheld' | ⟨hge, hrest⟩⟩
    · rcases (hheld at' hat).mpr (.inl hheld') with hclose | hheld'
      · exact .inl ⟨at', hat, rfl, hclose⟩
      · exact .inr ⟨at', hat, rfl, .inl hheld'⟩
    · rcases (hsplit at' hat).mp hge with rfl | hlater
      · rcases (hheld at' hat).mpr (.inr ⟨rfl, hrest.2⟩) with hclose | hheld'
        · exact .inl ⟨at', hat, rfl, hclose⟩
        · exact .inr ⟨at', hat, rfl, .inl hheld'⟩
      · exact .inr ⟨at', hat, rfl, .inr ⟨hlater, hrest⟩⟩

/-- **The undecodable units of the data ranges are the visited ones.** -/
theorem mem_errorUnits_buildDisassembly (hunit : 0 < unit)
    (hsize : ∀ i : ι, (info.size i).toNat = unit) {status : Map U64 (Option ι)}
    {fuel offset : Nat} {range : OpenRange} (hoffset : unit ∣ offset)
    (hle : offset ≤ alignedLen unit bytes)
    (hfuel : alignedLen unit bytes ≤ offset + unit * fuel)
    (hdvd : ∀ r, range = some r → unit ∣ r.1) (hrange : ∀ r, range = some r → r.1 < offset)
    (a : U64) :
    a ∈ errorUnits unit (buildDisassembly info unit base bytes status fuel offset range).dataRanges ↔
      ErrorFrom unit base bytes status range offset a := by
  have hlen : alignedLen unit bytes ≤ bytes.length := alignedLen_le
  induction fuel generalizing offset range with
  | zero =>
    obtain rfl : offset = alignedLen unit bytes := by omega
    exact mem_errorUnits_end hunit hdvd
  | succ fuel ih =>
    unfold buildDisassembly
    by_cases hlt : offset < alignedLen unit bytes
    · rw [if_pos hlt]
      have hnext : unit ∣ offset + unit := Nat.dvd_add hoffset (Nat.dvd_refl unit)
      have hnextle : offset + unit ≤ alignedLen unit bytes := by
        obtain ⟨k, hk⟩ := Nat.dvd_sub (dvd_alignedLen unit bytes) hoffset
        have hpos : 0 < k := Nat.pos_of_ne_zero fun hzero => by
          subst hzero
          omega
        have := Nat.mul_le_mul_left unit hpos
        omega
      have hfuel' : alignedLen unit bytes ≤ offset + unit + unit * fuel := by
        rw [Nat.mul_succ] at hfuel
        omega
      have hopen : ∀ reason, a ∈ errorUnits unit (buildDisassembly info unit base bytes status fuel
            (offset + unit) (openRange offset reason range)).dataRanges ↔
          ErrorFrom unit base bytes status (openRange offset reason range) (offset + unit) a :=
        fun reason => ih hnext hnextle hfuel' (openRange_dvd hoffset hdvd)
          (openRange_lt hunit hrange)
      have hnone : a ∈ errorUnits unit
            (buildDisassembly info unit base bytes status fuel (offset + unit) none).dataRanges ↔
          ErrorFrom unit base bytes status none (offset + unit) a :=
        ih hnext hnextle hfuel' (by simp) (by simp)
      cases hfound : status (base + BitVec.ofNat 64 offset) with
      | none =>
        show a ∈ errorUnits unit (closedRange base bytes offset .unreachable range ++ _) ↔ _
        rw [errorUnits_append, List.mem_append,
          mem_errorUnits_closedRange_unreachable hunit hdvd hoffset (by omega), hopen]
        refine errorFrom_step hoffset hlt (fun at' _ => ?_) a
        simp [hfound, not_heldError_openRange_unreachable]
      | some found =>
        cases found with
        | none =>
          show a ∈ errorUnits unit (closedRange base bytes offset .decodeError range ++ _) ↔ _
          rw [errorUnits_append, errorUnits_closedRange_decodeError, List.nil_append, hopen]
          have hheld : ∀ at', unit ∣ at' →
              (False ∨ HeldError (openRange offset .decodeError range) (offset + unit) at' ↔
                HeldError range offset at' ∨
                  (at' = offset ∧ status (base + BitVec.ofNat 64 offset) = some none)) := by
            intro at' hat
            rw [heldError_openRange_decodeError hunit hoffset hrange hat]
            simp [hfound]
          have hstep := errorFrom_step hoffset hlt hheld a
          simpa using hstep
        | some i =>
          show a ∈ errorUnits unit (flushData base bytes offset range
            ++ (buildDisassembly info unit base bytes status fuel (offset + (info.size i).toNat)
              none).dataRanges) ↔ _
          rw [errorUnits_append, List.mem_append, mem_errorUnits_flushData hunit hdvd hoffset
            (by omega), hsize i, hnone]
          refine errorFrom_step hoffset hlt (fun at' _ => ?_) a
          simp [hfound, HeldError]
    · rw [if_neg hlt]
      obtain rfl : offset = alignedLen unit bytes := by omega
      exact mem_errorUnits_end hunit hdvd

/-! ## §6. The whole disassembly. -/

/-- Control flow leads from the instruction at one address to another. -/
def Continues (info : InstructionInfo ι) (decodeAt : Nat → U64 → Option ι) (base : U64)
    (a b : U64) : Prop :=
  ∃ i, decodeAt (a.toNat - base.toNat) a = some i ∧
    b ∈ (info.controlFlow i).successors (a + info.size i)

/-- The addresses in range that control flow leads to from the entry points. -/
def CodeReach (info : InstructionInfo ι) (unit : Nat) (decodeAt : Nat → U64 → Option ι)
    (base : U64) (bytes : List Byte) (entries : List U64) : U64 → Prop :=
  Reach (inRange unit base bytes) (Continues info decodeAt base) entries

theorem visitAddress_follows (a b : U64) :
    (visitAddress info decodeAt base a).Follows b ↔ Continues info decodeAt base a b := by
  unfold visitAddress Visit.Follows Continues
  cases decodeAt (a.toNat - base.toNat) a with
  | none => simp
  | some i =>
    simp only [Option.some.injEq, exists_eq_left']
    cases info.controlFlow i <;> simp [ControlFlow.successors, eq_comm]

theorem visitAddress_result (a : U64) :
    (visitAddress info decodeAt base a).result = decodeAt (a.toNat - base.toNat) a := by
  unfold visitAddress
  cases decodeAt (a.toNat - base.toNat) a with
  | none => rfl
  | some i =>
    simp only
    cases info.controlFlow i <;> rfl

theorem visitAddress_queued (a : U64) :
    (visitAddress info decodeAt base a).queued.length ≤ 1 := by
  unfold visitAddress
  cases decodeAt (a.toNat - base.toNat) a with
  | none => simp
  | some i =>
    simp only
    cases info.controlFlow i <;> simp

theorem inRange_iff {a : U64} : inRange unit base bytes a = true ↔
    base.toNat ≤ a.toNat ∧ a.toNat < base.toNat + alignedLen unit bytes ∧
      unit ∣ a.toNat - base.toNat := by
  simp only [inRange, Bool.and_eq_true, decide_eq_true_eq, beq_iff_eq, Nat.dvd_iff_mod_eq_zero,
    and_assoc]

/-- The addresses in range. -/
def rangeAddresses (unit : Nat) (base : U64) (bytes : List Byte) : List U64 :=
  (List.range (alignedLen unit bytes / unit)).map fun k => base + BitVec.ofNat 64 (unit * k)

theorem mem_rangeAddresses (hunit : 0 < unit) {a : U64} (h : inRange unit base bytes a = true) :
    a ∈ rangeAddresses unit base bytes := by
  obtain ⟨hge, hlt, k, hk⟩ := inRange_iff.mp h
  refine List.mem_map.mpr ⟨k, List.mem_range.mpr ?_, ?_⟩
  · obtain ⟨n, hn⟩ := dvd_alignedLen unit bytes
    rw [hn, Nat.mul_div_cancel_left n hunit]
    exact Nat.lt_of_mul_lt_mul_left (a := unit) (by omega)
  · apply BitVec.eq_of_toNat_eq
    have := a.isLt
    rw [toNat_base_add (by omega)]
    omega

variable (info decodeAt base bytes) in
/-- **What the walk finds**: the reached addresses, each with what decodes there. -/
theorem descend_status (hunit : 0 < unit) (entries : List U64) :
    (descend info unit decodeAt base bytes entries).isDone = true ∧
      ∀ a r, (descend info unit decodeAt base bytes entries).status a = some r ↔
        CodeReach info unit decodeAt base bytes entries a ∧
          r = decodeAt (a.toNat - base.toNat) a := by
  have hnodes : ∀ a, inRange unit base bytes a = true → a ∈ rangeAddresses unit base bytes :=
    fun a ha => mem_rangeAddresses hunit ha
  have hfuel : 3 * (rangeAddresses unit base bytes).length + 2 * entries.length
      ≤ 3 * (alignedLen unit bytes / unit) + 2 * entries.length := by
    simp [rangeAddresses]
  refine ⟨Walk.run_done hnodes visitAddress_queued
    (Nat.le_trans (Walk.measure_start _ entries) hfuel), ?_⟩
  intro a r
  have hfollows : (fun a => (visitAddress info decodeAt base a).Follows)
      = Continues info decodeAt base :=
    funext fun a => funext fun b => propext (visitAddress_follows a b)
  rw [descend, Walk.run_status hnodes visitAddress_queued entries hfuel, visitAddress_result,
    hfollows, CodeReach]

/-- The walk is never cut off, so only an end address past 64 bits leaves no result. -/
theorem disassembleRecursive_eq (hunit : 0 < unit) (entries : List U64) :
    disassembleRecursive info unit decodeAt base bytes entries
      = if base.toNat + alignedLen unit bytes < 2 ^ 64 then
          some (buildDisassembly info unit base bytes
            (descend info unit decodeAt base bytes entries).status
            (alignedLen unit bytes / unit) 0 none)
        else none := by
  have hdone := (descend_status info decodeAt base bytes hunit entries).1
  simp only [disassembleRecursive, hdone, if_true]

/-- What a recursive disassembly guarantees: its timeline is laid over the
bytes, it emits only reached instructions, and it emits every reached one that
no emitted instruction lies over. -/
structure Disassembles (info : InstructionInfo ι) (unit : Nat) (decodeAt : Nat → U64 → Option ι)
    (encode : ι → List Byte) (base : U64) (bytes : List Byte) (entries : List U64)
    (d : Disassembly ι) : Prop where
  tiled : Tiled base.toNat ((d.timeline info).map (TimelineEntry.tile info encode))
    (base.toNat + bytes.length)
  covered : (d.timeline info).flatMap (TimelineEntry.bytes encode) = bytes
  emitted : ∀ i ∈ d.instructions, CodeReach info unit decodeAt base bytes entries (info.address i) ∧
    decodeAt ((info.address i).toNat - base.toNat) (info.address i) = some i
  complete : ∀ a i, CodeReach info unit decodeAt base bytes entries a →
    decodeAt (a.toNat - base.toNat) a = some i → i ∈ d.instructions ∨
      ∃ j ∈ d.instructions, (info.address j).toNat < a.toNat ∧
        a.toNat < (info.address j).toNat + (info.size j).toNat

/-- **The recursive walker is sound and complete.** -/
theorem disassembleRecursive_disassembles
    (hdecodes : DecodesBytes info unit decodeAt bytes encode)
    (hwrap : base.toNat + alignedLen unit bytes < 2 ^ 64) (entries : List U64) :
    ∃ d, disassembleRecursive info unit decodeAt base bytes entries = some d ∧
      Disassembles info unit decodeAt encode base bytes entries d := by
  have hunit := hdecodes.unit_pos
  have hstatus := (descend_status info decodeAt base bytes hunit entries).2
  refine ⟨_, by rw [disassembleRecursive_eq hunit, if_pos hwrap], ?_⟩
  have hdecoded : DecodedStatus decodeAt base
      (descend info unit decodeAt base bytes entries).status := by
    intro a i hi
    exact ((hstatus a _).mp hi).2.symm
  have hcount : unit * (alignedLen unit bytes / unit) = alignedLen unit bytes :=
    Nat.mul_div_cancel' (dvd_alignedLen unit bytes)
  obtain ⟨laidEntries, hlaid, hinstructions, hranges⟩ := @buildDisassembly_laid ι info unit
    decodeAt base bytes encode hdecodes _ hdecoded hwrap (alignedLen unit bytes / unit) 0 none
    (Nat.dvd_zero unit) (Nat.zero_le _) (by omega) (by simp)
  have htimeline := timeline_of_laid hlaid hinstructions hranges
  constructor
  case tiled =>
    rw [htimeline]
    exact hlaid.tiled
  case covered =>
    rw [htimeline]
    exact hlaid.flatMap_bytes
  case emitted =>
    intro i hi
    obtain ⟨at', hlt, -, hfound⟩ := buildDisassembly_instructions hdecodes.aligned
      (Nat.dvd_zero unit) hi
    obtain ⟨hreach, hdecode⟩ := (hstatus _ _).mp hfound
    rw [hdecodes.address hdecode.symm]
    exact ⟨hreach, hdecode.symm⟩
  case complete =>
    intro a i hreach hdecode
    obtain ⟨hge, hlt, hat⟩ := inRange_iff.mp hreach.isAllowed
    have haddress : base + BitVec.ofNat 64 (a.toNat - base.toNat) = a := by
      apply BitVec.eq_of_toNat_eq
      rw [toNat_base_add (by omega)]
      omega
    have hfound := (hstatus a (some i)).mpr ⟨hreach, hdecode.symm⟩
    have hemits := @buildDisassembly_emits ι info unit decodeAt base bytes encode hdecodes _ hdecoded
      hwrap (alignedLen unit bytes / unit) 0 _ none (Nat.dvd_zero unit) hat (Nat.zero_le _)
      (by omega) (by omega) i (by rw [haddress]; exact hfound)
    rw [Nat.add_sub_cancel' hge] at hemits
    exact hemits

/-- **Where all instructions are one unit long, the instructions and the
undecodable units together are the reached addresses.** -/
theorem disassembleRecursive_reaches
    (hdecodes : DecodesBytes info unit decodeAt bytes encode)
    (hsize : ∀ i : ι, (info.size i).toNat = unit)
    (hwrap : base.toNat + alignedLen unit bytes < 2 ^ 64) {entries : List U64} {d : Disassembly ι}
    (hd : disassembleRecursive info unit decodeAt base bytes entries = some d) (a : U64) :
    ((∃ i ∈ d.instructions, info.address i = a) ∨ a ∈ errorUnits unit d.dataRanges) ↔
      CodeReach info unit decodeAt base bytes entries a := by
  have hunit := hdecodes.unit_pos
  have hstatus := (descend_status info decodeAt base bytes hunit entries).2
  obtain ⟨d', hd', hspec⟩ := disassembleRecursive_disassembles hdecodes hwrap entries
  obtain rfl : d' = d := by rw [hd] at hd'; exact (Option.some.inj hd').symm
  have hcount : unit * (alignedLen unit bytes / unit) = alignedLen unit bytes :=
    Nat.mul_div_cancel' (dvd_alignedLen unit bytes)
  have herrors : a ∈ errorUnits unit d'.dataRanges ↔ ErrorFrom unit base bytes
      (descend info unit decodeAt base bytes entries).status none 0 a := by
    rw [disassembleRecursive_eq hunit, if_pos hwrap] at hd
    rw [← Option.some.inj hd]
    exact mem_errorUnits_buildDisassembly hunit hsize (Nat.dvd_zero unit) (Nat.zero_le _)
      (by omega) (by simp) (by simp) a
  constructor
  · rintro (⟨i, hi, rfl⟩ | herror)
    · exact (hspec.emitted i hi).1
    · obtain ⟨at', -, rfl, hheld | ⟨-, -, hfound⟩⟩ := herrors.mp herror
      · obtain ⟨start, hnone, -⟩ := hheld
        cases hnone
      · exact ((hstatus _ _).mp hfound).1
  · intro hreach
    obtain ⟨hge, hlt, hat⟩ := inRange_iff.mp hreach.isAllowed
    cases hdecode : decodeAt (a.toNat - base.toNat) a with
    | none =>
      have haddress : base + BitVec.ofNat 64 (a.toNat - base.toNat) = a := by
        apply BitVec.eq_of_toNat_eq
        rw [toNat_base_add (by omega)]
        omega
      refine .inr (herrors.mpr ⟨a.toNat - base.toNat, hat, haddress.symm,
        .inr ⟨Nat.zero_le _, by omega, ?_⟩⟩)
      rw [haddress]
      exact (hstatus a none).mpr ⟨hreach, hdecode.symm⟩
    | some i =>
      rcases hspec.complete a i hreach hdecode with hmem | ⟨j, hj, hlow, hhigh⟩
      · exact .inl ⟨i, hmem, hdecodes.address hdecode⟩
      · -- nothing of one unit lies over an aligned address
        obtain ⟨hge', -, hat'⟩ := inRange_iff.mp (hspec.emitted j hj).1.isAllowed
        rw [hsize j] at hhigh
        obtain ⟨k, hk⟩ := Nat.dvd_sub hat hat'
        have hpos : 0 < k := Nat.pos_of_ne_zero fun hzero => by
          subst hzero
          omega
        have := Nat.mul_le_mul_left unit hpos
        omega

/-- **The order and multiplicity of the entry points do not matter.** -/
theorem disassembleRecursive_congr (hunit : 0 < unit) {entries entries' : List U64}
    (h : ∀ a, a ∈ entries ↔ a ∈ entries') :
    disassembleRecursive info unit decodeAt base bytes entries
      = disassembleRecursive info unit decodeAt base bytes entries' := by
  have hstatus := (descend_status info decodeAt base bytes hunit entries).2
  have hstatus' := (descend_status info decodeAt base bytes hunit entries').2
  have hsame : (descend info unit decodeAt base bytes entries).status
      = (descend info unit decodeAt base bytes entries').status := by
    funext a
    apply Option.ext
    intro r
    rw [hstatus, hstatus', CodeReach, CodeReach, Reach.congr_roots h]
  rw [disassembleRecursive_eq hunit, disassembleRecursive_eq hunit, hsame]

end Walker

end Armv8Encode

/-
  Armv8Encode.Isa.Aarch64.Recursive — recursive-descent disassembly of A64 code.

  An instance of the walker of `Mc.RecursiveDescent` with words as units.
-/
import Armv8Encode.Isa.Aarch64.ControlFlow
import Armv8Encode.Isa.Aarch64.SweepSpec
import Armv8Encode.Mc.RecursiveDescentSpec

namespace Armv8Encode.Aarch64

open Lib

/-! ## §1. The walker. -/

/-- Decode the word at an offset. -/
def decodeAt (bytes : List Byte) (offset : Nat) (address : U64) : Option DecodedInstruction :=
  match bytes.drop offset with
  | b0 :: b1 :: b2 :: b3 :: _ => (decodeInstruction address (fromLeBytes b0 b1 b2 b3)).toOption
  | _ => none

/-- Disassemble A64 code from the entry points on. -/
def disassembleRecursive (base : U64) (bytes : List Byte) (entries : List U64) :
    Option (Disassembly DecodedInstruction) :=
  Armv8Encode.disassembleRecursive aarch64Info 4 (decodeAt bytes) base bytes entries

/-! ## §2. What the decoder guarantees. -/

/-- What an accepted word decodes to: the row it matched and its operands. -/
theorem decodeInstruction_row {address : U64} {w : Word} {i : DecodedInstruction}
    (h : decodeInstruction address w = .ok i) :
    ∃ row, matchOpcode w = some row ∧ decodeOperands w address row 0 row.operands = .ok i.operands ∧
      i.address = address ∧ i.word = w ∧ i.mnemonic = .parse row.name := by
  unfold decodeInstruction at h
  split at h
  · cases h
  · next row hmatch =>
    obtain ⟨operands, hoperands, hi⟩ := bind_eq_ok.mp h
    cases hi
    exact ⟨row, hmatch, hoperands, rfl, rfl, rfl⟩

theorem decodeAt_eq_some {bytes : List Byte} {offset : Nat} {address : U64}
    {i : DecodedInstruction} (h : decodeAt bytes offset address = some i) :
    toLeBytes i.word <+: bytes.drop offset ∧ decodeInstruction address i.word = .ok i := by
  unfold decodeAt at h
  split at h
  · next b0 b1 b2 b3 rest hdrop =>
    cases hdecode : decodeInstruction address (fromLeBytes b0 b1 b2 b3) with
    | error e =>
      rw [hdecode] at h
      cases h
    | ok j =>
      rw [hdecode] at h
      cases h
      obtain ⟨-, -, -, -, hword, -⟩ := decodeInstruction_row hdecode
      rw [hword, toLeBytes_fromLeBytes, hdrop]
      exact ⟨⟨rest, rfl⟩, hdecode⟩
  · cases h

theorem decodesBytes (bytes : List Byte) :
    DecodesBytes aarch64Info 4 (decodeAt bytes) bytes (fun i => toLeBytes i.word) where
  unit_pos := by decide
  address := by
    intro offset a i hi
    exact decodeInstruction_address (decodeAt_eq_some hi).2
  size_pos := fun _ => Nat.zero_lt_succ 3
  aligned := fun _ => Nat.dvd_refl 4
  length := fun _ => rfl
  encodes := by
    intro offset a i hi
    exact (decodeAt_eq_some hi).1

/-! ## §3. The walk covers the bytes and finds the reachable code. -/

/-- The sets that hold the aligned entry points in range and every successor in
range of the word decoded at a member. -/
def ClosedUnderFlow (base : U64) (bytes : List Byte) (entries : List U64) : Set (Set U64) :=
  Reach.ClosedSets (inRange 4 base bytes) (Continues aarch64Info (decodeAt bytes) base) entries

/-- The addresses of the decoded instructions and of the words that were
visited and do not decode. -/
def Disassembly.visited (d : Disassembly DecodedInstruction) : Set U64 :=
  {a | (∃ i ∈ d.instructions, i.address = a) ∨ a ∈ errorUnits 4 d.dataRanges}

/-- **Recursive descent classifies every byte once and reaches exactly the
reachable code.**  Bytes that end below 2^64 have a disassembly.  Its
instructions and data ranges, in address order, lie end to end over the bytes
and hold them, every instruction is the decoded word at its address, the
visited words are the least set closed under the control flow, and only the set
of entry points matters. -/
theorem disassembleRecursive_classifies {base : U64} {bytes : List Byte}
    (hwrap : base.toNat + bytes.length < 2 ^ 64) (entries : List U64) :
    ∃ d, disassembleRecursive base bytes entries = some d ∧
      Tiled base.toNat
        ((d.timeline aarch64Info).map (TimelineEntry.tile aarch64Info fun i => toLeBytes i.word))
        (base.toNat + bytes.length) ∧
      (d.timeline aarch64Info).flatMap (TimelineEntry.bytes fun i => toLeBytes i.word) = bytes ∧
      (∀ i ∈ d.instructions, decodeAt bytes (i.address.toNat - base.toNat) i.address = some i) ∧
      IsLeast (ClosedUnderFlow base bytes entries) (Disassembly.visited d) ∧
      ∀ entries', (∀ a, a ∈ entries ↔ a ∈ entries') →
        disassembleRecursive base bytes entries' = some d := by
  have haligned : base.toNat + alignedLen 4 bytes < 2 ^ 64 := by
    have : alignedLen 4 bytes ≤ bytes.length := alignedLen_le
    omega
  obtain ⟨d, hd, hspec⟩ :=
    disassembleRecursive_disassembles (decodesBytes bytes) haligned entries
  refine ⟨d, hd, hspec.tiled, hspec.covered, fun i hi => (hspec.emitted i hi).2, ?_, ?_⟩
  · have hvisited : Disassembly.visited d = {a | Reach (inRange 4 base bytes)
        (Continues aarch64Info (decodeAt bytes) base) entries a} := by
      ext a
      exact disassembleRecursive_reaches (decodesBytes bytes) (fun _ => rfl) haligned hd a
    rw [hvisited]
    exact Reach.isLeast
  · intro entries' hsame
    rw [← hd]
    exact (disassembleRecursive_congr (by decide) hsame).symm

/-- `b` over a word of data, entered twice. -/
theorem skipWord_classifies :
    ∃ d, disassembleRecursive 0x1000
        [0x02, 0x00, 0x00, 0x14, 0xff, 0xff, 0xff, 0xff, 0xc0, 0x03, 0x5f, 0xd6, 0x00]
        [0x1000, 0x1000] = some d ∧
      IsLeast (ClosedUnderFlow 0x1000
        [0x02, 0x00, 0x00, 0x14, 0xff, 0xff, 0xff, 0xff, 0xc0, 0x03, 0x5f, 0xd6, 0x00]
        [0x1000, 0x1000]) (Disassembly.visited d) := by
  obtain ⟨d, hd, -, -, -, hleast, -⟩ := @disassembleRecursive_classifies 0x1000
    [0x02, 0x00, 0x00, 0x14, 0xff, 0xff, 0xff, 0xff, 0xc0, 0x03, 0x5f, 0xd6, 0x00]
    (by decide) [0x1000, 0x1000]
  exact ⟨d, hd, hleast⟩

/-! ## §4. The walk and the sweep. -/

/-- A word that decodes at its place is met there by the sweep. -/
theorem mem_sweepWords {base : U64} {bytes : List Byte} {k : Nat} {i : DecodedInstruction}
    (h : decodeAt bytes (4 * k) (base + BitVec.ofNat 64 (4 * k)) = some i) :
    i ∈ sweepWords base (chunkWords bytes) := by
  fun_induction chunkWords bytes generalizing base k with
  | case1 b0 b1 b2 b3 rest ih =>
    cases k with
    | zero =>
      rw [Nat.mul_zero, BitVec.add_zero] at h
      cases hdecode : decodeInstruction base (fromLeBytes b0 b1 b2 b3) with
      | error e => simp [decodeAt, hdecode, Except.toOption] at h
      | ok j =>
        have hsame : j = i := by simpa [decodeAt, hdecode, Except.toOption] using h
        rw [sweepWords, decodeTolerant_of_ok hdecode, hsame]
        exact List.mem_cons_self
    | succ k =>
      rw [offset_succ] at h
      exact List.mem_cons_of_mem _ (ih h)
  | case2 bytes hshort =>
    rcases bytes with _ | ⟨b0, _ | ⟨b1, _ | ⟨b2, _ | ⟨b3, rest⟩⟩⟩⟩
    case cons.cons.cons.cons => exact absurd rfl (hshort b0 b1 b2 b3 rest)
    all_goals cases k <;> simp [decodeAt, Nat.mul_succ] at h

/-- **Recursive descent emits instructions of the sweep**, from whatever entry
points it starts. -/
theorem recursive_subset_sweep {base : U64} {bytes : List Byte} {entries : List U64}
    {d : Disassembly DecodedInstruction} {stream : List DecodedInstruction}
    {undecodable : List (U64 × Word)} (hd : disassembleRecursive base bytes entries = some d)
    (hsweep : disassembleBytesTolerant base bytes = .ok (stream, undecodable)) :
    d.instructions ⊆ stream := by
  intro i hi
  have hdone := hd
  unfold disassembleRecursive at hdone
  rw [disassembleRecursive_eq (by decide) entries] at hdone
  split at hdone
  · next hwrap =>
    obtain ⟨d', hd', hspec⟩ := disassembleRecursive_disassembles (decodesBytes bytes) hwrap entries
    obtain rfl : d' = d := Option.some.inj (hd'.symm.trans hd)
    obtain ⟨hreach, hdecode⟩ := hspec.emitted i hi
    obtain ⟨hge, -, k, hk⟩ := inRange_iff.mp hreach.isAllowed
    have haddress : base + BitVec.ofNat 64 (4 * k) = i.address := by
      apply BitVec.eq_of_toNat_eq
      have hlt := i.address.isLt
      have hsame : aarch64Info.address i = i.address := rfl
      rw [hsame] at hge hk
      rw [toNat_base_add (by omega)]
      omega
    have hmem : i ∈ sweepWords base (chunkWords bytes) := mem_sweepWords (k := k) (by
      rw [haddress, ← hk]
      exact hdecode)
    unfold disassembleBytesTolerant at hsweep
    split at hsweep
    · cases hsweep
    · cases hsweep
      exact hmem
  · cases hdone

/-- One `ret`. -/
theorem recursive_subset_sweep_ret :
    ∃ d, disassembleRecursive 0x1000 [0xc0, 0x03, 0x5f, 0xd6] [0x1000] = some d ∧
      d.instructions ⊆ sweepWords 0x1000 (chunkWords [0xc0, 0x03, 0x5f, 0xd6]) := by
  have hwrap : (0x1000 : U64).toNat + alignedLen 4 [0xc0, 0x03, 0x5f, 0xd6] < 2 ^ 64 := by decide
  obtain ⟨d, hd, -⟩ := disassembleRecursive_disassembles (decodesBytes _) hwrap [0x1000]
  exact ⟨d, hd, recursive_subset_sweep hd rfl⟩

end Armv8Encode.Aarch64

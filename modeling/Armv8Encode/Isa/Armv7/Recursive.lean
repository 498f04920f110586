/-
  Armv8Encode.Isa.Armv7.Recursive — recursive-descent disassembly of Thumb code.

  An instance of the walker of `Mc.RecursiveDescent` with halfwords as units.
  Instructions have two widths, so two reached decodings may overlap: the one
  that starts first is emitted and hides the other.
-/
import Armv8Encode.Isa.Armv7.SweepSpec
import Armv8Encode.Mc.RecursiveDescentSpec

namespace Armv8Encode.Armv7.Thumb

open Lib

/-! ## §1. Reading and walking. -/

/-- The word at an offset and its width. -/
def readInstruction (bytes : List Byte) (offset : Nat) : Except DisassembleError (Word × ThumbWidth) :=
  match bytes.drop offset with
  | b0 :: b1 :: rest =>
    if isWide (halfwordOf b0 b1) then
      match rest with
      | b2 :: b3 :: _ => .ok ((halfwordOf b0 b1 <<< 16) ||| halfwordOf b2 b3, .word)
      | _ => .error (.truncated offset (bytes.length - offset))
    else .ok (halfwordOf b0 b1, .halfword)
  | _ => .error (.truncated offset (bytes.length - offset))

/-- Decode the instruction at an offset. -/
def decodeAt (bytes : List Byte) (offset : Nat) (address : U64) : Option DecodedInstruction :=
  match readInstruction bytes offset with
  | .ok (word, width) => (decodeOne address word width).toOption
  | .error _ => none

/-- Entry points may carry the mode bit of a Thumb function symbol. -/
def clearModeBit (address : U64) : U64 := address &&& ~~~1

/-- Disassemble Thumb code from the entry points on. -/
def disassembleRecursive (base : U64) (bytes : List Byte) (entries : List U64) :
    Option (Disassembly DecodedInstruction) :=
  Armv8Encode.disassembleRecursive info 2 (decodeAt bytes) base bytes (entries.map clearModeBit)

/-! ## §2. What the decoder guarantees. -/

/-- The bytes a word was read from. -/
theorem readInstruction_bytes {bytes : List Byte} {offset : Nat} {word : Word} {width : ThumbWidth}
    (h : readInstruction bytes offset = .ok (word, width)) :
    wordOf word width <+: bytes.drop offset := by
  unfold readInstruction at h
  split at h
  · next b0 b1 rest hdrop =>
    split at h
    · split at h
      · next b2 b3 tail =>
        cases h
        show wordBytes _ <+: _
        rw [wordBytes_halfwords, hdrop]
        exact ⟨tail, rfl⟩
      · cases h
    · cases h
      show halfwordBytes _ <+: _
      rw [halfwordBytes_halfwordOf, hdrop]
      exact ⟨rest, rfl⟩
  · cases h

theorem decodeAt_eq_some {bytes : List Byte} {offset : Nat} {address : U64}
    {i : DecodedInstruction} (h : decodeAt bytes offset address = some i) :
    readInstruction bytes offset = .ok (i.word, i.width) ∧
      decodeOne address i.word i.width = .ok i := by
  unfold decodeAt at h
  split at h
  · next word width hread =>
    cases hdecode : decodeOne address word width with
    | error e =>
      rw [hdecode] at h
      cases h
    | ok j =>
      rw [hdecode] at h
      cases h
      obtain ⟨-, rfl, rfl⟩ := decodeOne_fields hdecode
      exact ⟨hread, hdecode⟩
  · cases h

theorem toNat_size (i : DecodedInstruction) : (info.size i).toNat = sizeBytes i.width := by
  show (BitVec.ofNat 64 (sizeBytes i.width)).toNat = _
  cases i.width <;> rfl

theorem decodesBytes (bytes : List Byte) :
    DecodesBytes info 2 (decodeAt bytes) bytes DecodedInstruction.source where
  unit_pos := by decide
  address := by
    intro offset a i hi
    exact (decodeOne_fields (decodeAt_eq_some hi).2).1
  size_pos := by
    intro i
    rw [toNat_size]
    cases i.width <;> decide
  aligned := by
    intro i
    rw [toNat_size]
    cases i.width <;> decide
  length := by
    intro i
    rw [toNat_size, length_source]
  encodes := by
    intro offset a i hi
    exact readInstruction_bytes (decodeAt_eq_some hi).1

/-! ## §3. The walker. -/

/-- The least set that holds the entry points in range, mode bit cleared, and
every successor in range of the word decoded at a member. -/
def EntryReach (base : U64) (bytes : List Byte) (entries : List U64) : U64 → Prop :=
  CodeReach info 2 (decodeAt bytes) base bytes (entries.map clearModeBit)

/-- What lies inside an instruction lies on the second halfword of a wide one. -/
theorem wide_of_inside {base : U64} {bytes : List Byte} {a : U64} {j : DecodedInstruction}
    (ha : inRange 2 base bytes a = true) (hj : inRange 2 base bytes j.address = true)
    (hlow : j.address.toNat < a.toNat) (hhigh : a.toNat < j.address.toNat + (info.size j).toNat) :
    j.width = .word ∧ a.toNat = j.address.toNat + 2 := by
  obtain ⟨hge, -, ha⟩ := inRange_iff.mp ha
  obtain ⟨hge', -, hj⟩ := inRange_iff.mp hj
  rw [toNat_size] at hhigh
  cases hwidth : j.width with
  | halfword =>
    rw [hwidth] at hhigh
    simp only [sizeBytes] at hhigh
    omega
  | word =>
    rw [hwidth] at hhigh
    simp only [sizeBytes] at hhigh
    exact ⟨rfl, by omega⟩

end Armv8Encode.Armv7.Thumb

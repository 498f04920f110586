/-
  Armv8Encode.Isa.Armv7.SweepSpec — what a complete sweep returns.

  The instructions of a sweep stand one after the other, each is what its own
  word decodes to, and their words spell the bytes that were swept.
-/
import Armv8Encode.Isa.Armv7.IsaImpl
import Armv8Encode.Rewrite.PlainLift

namespace Armv8Encode.Armv7

open Lib

/-! ## §1. Halfwords. -/

theorem halfwordBytes_halfwordOf (b0 b1 : Byte) :
    halfwordBytes (Thumb.halfwordOf b0 b1) = [b0, b1] := by
  have hlow : (Thumb.halfwordOf b0 b1).setWidth 8 = b0 := by
    apply BitVec.eq_of_getLsbD_eq
    intro i hi
    simp [Thumb.halfwordOf, hi]
  have hhigh : (Thumb.halfwordOf b0 b1 >>> 8).setWidth 8 = b1 := by
    apply BitVec.eq_of_getLsbD_eq
    intro i hi
    simp [Thumb.halfwordOf, hi, show 8 + i < 32 by omega]
  rw [halfwordBytes, hlow, hhigh]

/-- A halfword has no bits above its sixteen. -/
theorem halfwordOf_high (b0 b1 : Byte) {i : Nat} (hi : 16 ≤ i) :
    (Thumb.halfwordOf b0 b1).getLsbD i = false := by
  have h0 : b0.getLsbD i = false := BitVec.getLsbD_of_ge _ _ (by omega)
  have h1 : b1.getLsbD (i - 8) = false := BitVec.getLsbD_of_ge _ _ (by omega)
  simp [Thumb.halfwordOf, h0, h1]

theorem wordBytes_halfwords (b0 b1 b2 b3 : Byte) :
    wordBytes ((Thumb.halfwordOf b0 b1 <<< 16) ||| Thumb.halfwordOf b2 b3) = [b0, b1, b2, b3] := by
  have hfirst : (Thumb.halfwordOf b0 b1 <<< 16 ||| Thumb.halfwordOf b2 b3) >>> 16
      = Thumb.halfwordOf b0 b1 := by
    apply BitVec.eq_of_getLsbD_eq
    intro i hi
    have hlow := halfwordOf_high b2 b3 (show 16 ≤ 16 + i by omega)
    rw [BitVec.getLsbD_ushiftRight, BitVec.getLsbD_or, BitVec.getLsbD_shiftLeft, hlow]
    by_cases hlt : i < 16
    · simp [show 16 + i < 32 by omega]
    · simp [halfwordOf_high b0 b1 (show 16 ≤ i by omega), show ¬ 16 + i < 32 by omega]
  have hsecond : halfwordBytes (Thumb.halfwordOf b0 b1 <<< 16 ||| Thumb.halfwordOf b2 b3)
      = halfwordBytes (Thumb.halfwordOf b2 b3) := by
    have hlow : ∀ (x y : Word), (x <<< 16 ||| y).setWidth 8 = y.setWidth 8 := by
      intro x y
      apply BitVec.eq_of_getLsbD_eq
      intro i hi
      simp [hi]
    have hhigh : ∀ (x y : Word), ((x <<< 16 ||| y) >>> 8).setWidth 8 = (y >>> 8).setWidth 8 := by
      intro x y
      apply BitVec.eq_of_getLsbD_eq
      intro i hi
      simp [hi, show 8 + i < 16 by omega]
    rw [halfwordBytes, halfwordBytes, hlow, hhigh]
  rw [wordBytes, hfirst, hsecond, halfwordBytes_halfwordOf, halfwordBytes_halfwordOf]
  rfl

/-! ## §2. Thumb. -/

namespace Thumb

/-- The bytes an instruction was decoded from. -/
def DecodedInstruction.source (d : DecodedInstruction) : List Byte := wordOf d.word d.width

@[simp] theorem length_source (d : DecodedInstruction) : d.source.length = sizeBytes d.width :=
  length_wordOf d.word d.width

theorem decodeOne_fields {address : U64} {word : Word} {width : ThumbWidth} {d : DecodedInstruction}
    (h : decodeOne address word width = .ok d) :
    d.address = address ∧ d.word = word ∧ d.width = width := by
  unfold decodeOne at h
  split at h
  · cases h
    exact ⟨rfl, rfl, rfl⟩
  · split at h
    · cases h
    · split at h
      · cases h
        exact ⟨rfl, rfl, rfl⟩
      · cases h

theorem disassembleFrom_spec {base : U64} {offset : Nat} {bytes : List Byte}
    {ds : List DecodedInstruction} (h : disassembleFrom base offset bytes = .ok ds) :
    thumb.RunsFrom (base + BitVec.ofNat 64 offset) ds ∧
      ds.flatMap DecodedInstruction.source = bytes ∧
      ∀ d ∈ ds, decodeOne d.address d.word d.width = .ok d := by
  induction offset, bytes using disassembleFrom.induct generalizing ds with
  | case1 offset =>
    cases h
    exact ⟨trivial, rfl, by simp⟩
  | case2 offset b =>
    cases h
  | case3 offset b0 b1 hwide b2 b3 rest ih =>
    rw [disassembleFrom, if_pos hwide] at h
    obtain ⟨d, hd, h⟩ := bind_eq_ok.mp h
    obtain ⟨tail, htail, h⟩ := bind_eq_ok.mp h
    cases h
    obtain ⟨haddress, hword, hwidth⟩ := decodeOne_fields hd
    obtain ⟨hruns, hbytes, hdecoded⟩ := ih htail
    refine ⟨⟨haddress, ?_⟩, ?_, ?_⟩
    · rw [show thumb.decodedSize d = BitVec.ofNat 64 (sizeBytes d.width) from rfl, hwidth,
        BitVec.add_assoc, ← BitVec.ofNat_add]
      exact hruns
    · rw [List.flatMap_cons, hbytes, DecodedInstruction.source, hword, hwidth]
      show wordBytes _ ++ rest = _
      rw [wordBytes_halfwords]
      rfl
    · intro d' hd'
      rcases List.mem_cons.mp hd' with rfl | hd'
      · rw [haddress, hword, hwidth, hd]
      · exact hdecoded d' hd'
  | case4 offset b0 b1 hwide b =>
    rw [disassembleFrom, if_pos hwide] at h
    cases h
  | case5 offset b0 b1 hwide =>
    rw [disassembleFrom, if_pos hwide] at h
    cases h
  | case6 offset b0 b1 rest hnarrow ih =>
    rw [disassembleFrom.eq_def] at h
    simp only [if_neg hnarrow] at h
    obtain ⟨d, hd, h⟩ := bind_eq_ok.mp h
    obtain ⟨tail, htail, h⟩ := bind_eq_ok.mp h
    cases h
    obtain ⟨haddress, hword, hwidth⟩ := decodeOne_fields hd
    obtain ⟨hruns, hbytes, hdecoded⟩ := ih htail
    refine ⟨⟨haddress, ?_⟩, ?_, ?_⟩
    · rw [show thumb.decodedSize d = BitVec.ofNat 64 (sizeBytes d.width) from rfl, hwidth,
        BitVec.add_assoc, ← BitVec.ofNat_add]
      exact hruns
    · rw [List.flatMap_cons, hbytes, DecodedInstruction.source, hword, hwidth]
      show halfwordBytes _ ++ rest = _
      rw [halfwordBytes_halfwordOf]
      rfl
    · intro d' hd'
      rcases List.mem_cons.mp hd' with rfl | hd'
      · rw [haddress, hword, hwidth, hd]
      · exact hdecoded d' hd'

/-- **What a complete sweep returns.** -/
theorem disassembleBytes_spec {base : U64} {bytes : List Byte} {ds : List DecodedInstruction}
    (h : disassembleBytes base bytes = .ok ds) :
    thumb.RunsFrom base ds ∧ ds.flatMap DecodedInstruction.source = bytes ∧
      ∀ d ∈ ds, decodeOne d.address d.word d.width = .ok d := by
  simpa using disassembleFrom_spec h

end Thumb

/-! ## §3. ARM mode. -/

namespace Arm

/-- The bytes an instruction was decoded from. -/
def DecodedInstruction.source (d : DecodedInstruction) : List Byte := toLeBytes d.word

theorem decodeOne_fields {address : U64} {word : Word} {d : DecodedInstruction}
    (h : decodeOne address word = .ok d) : d.address = address ∧ d.word = word := by
  unfold decodeOne at h
  split at h
  · cases h
    exact ⟨rfl, rfl⟩
  · split at h
    · cases h
      exact ⟨rfl, rfl⟩
    · cases h

theorem disassembleFrom_spec {base : U64} {offset : Nat} {bytes : List Byte}
    {ds : List DecodedInstruction} (hlength : bytes.length % 4 = 0)
    (h : disassembleFrom base offset bytes = .ok ds) :
    arm.RunsFrom (base + BitVec.ofNat 64 offset) ds ∧
      ds.flatMap DecodedInstruction.source = bytes ∧
      ∀ d ∈ ds, decodeOne d.address d.word = .ok d := by
  induction offset, bytes using disassembleFrom.induct generalizing ds with
  | case1 offset b0 b1 b2 b3 rest ih =>
    rw [disassembleFrom] at h
    obtain ⟨d, hd, h⟩ := bind_eq_ok.mp h
    obtain ⟨tail, htail, h⟩ := bind_eq_ok.mp h
    cases h
    obtain ⟨haddress, hword⟩ := decodeOne_fields hd
    have hrest : rest.length % 4 = 0 := by
      simp only [List.length_cons] at hlength
      omega
    obtain ⟨hruns, hbytes, hdecoded⟩ := ih hrest htail
    refine ⟨⟨haddress, ?_⟩, ?_, ?_⟩
    · rw [show arm.decodedSize d = BitVec.ofNat 64 4 from rfl, BitVec.add_assoc,
        ← BitVec.ofNat_add]
      exact hruns
    · rw [List.flatMap_cons, hbytes, DecodedInstruction.source, hword, toLeBytes_fromLeBytes]
      rfl
    · intro d' hd'
      rcases List.mem_cons.mp hd' with rfl | hd'
      · rw [haddress, hword, hd]
      · exact hdecoded d' hd'
  | case2 bytes offset hshort =>
    -- fewer than four bytes, and a multiple of four
    have hnil : bytes = [] := by
      match bytes, hshort, hlength with
      | [], _, _ => rfl
      | [_], _, hlength => simp at hlength
      | [_, _], _, hlength => simp at hlength
      | [_, _, _], _, hlength => simp at hlength
      | b0 :: b1 :: b2 :: b3 :: rest, hshort, _ => exact absurd rfl (hshort b0 b1 b2 b3 rest)
    subst hnil
    cases h
    exact ⟨trivial, rfl, by simp⟩

/-- **What a complete sweep returns.** -/
theorem disassembleBytes_spec {base : U64} {bytes : List Byte} {ds : List DecodedInstruction}
    (h : disassembleBytes base bytes = .ok ds) :
    arm.RunsFrom base ds ∧ ds.flatMap DecodedInstruction.source = bytes ∧
      ∀ d ∈ ds, decodeOne d.address d.word = .ok d := by
  unfold disassembleBytes at h
  split at h
  · cases h
  · next hlength =>
    simpa using disassembleFrom_spec (by omega) h

end Arm

end Armv8Encode.Armv7

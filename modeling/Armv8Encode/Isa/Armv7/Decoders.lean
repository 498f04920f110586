/-
  Armv8Encode.Isa.Armv7.Decoders — the two decoders of each mode.

  Recursive descent decodes one instruction at a time and the sweep decodes
  inside its loop, so the step is written out twice.  In Thumb the two agree.
  In ARM mode recursive descent appends the bits that the row's mask leaves
  open, as Thumb does, and the sweep does not.

  Main results:
    * `Thumb.recursive_eq` — the two agree on every word.
    * `Arm.recursive_eq` — what recursive descent adds.
    * `decoders_iff` — where all agree.
-/
import Armv8Encode.Isa.Armv7.Recursive

namespace Armv8Encode.Armv7

open Lib

/-! ## §1. Thumb. -/

namespace Thumb

/-- One turn of the sweep's loop. -/
def sweepOne (bytes : List Byte) (cursor : Nat) (address : U64) :
    Except DisassembleError DecodedInstruction := do
  let (word, width) ← readInstruction bytes cursor
  decodeOne address word width

/-- One instruction of recursive descent, which does not look at the error. -/
def Recursive.decodeOne (bytes : List Byte) (offset : Nat) (address : U64) :
    Option DecodedInstruction :=
  match readInstruction bytes offset with
  | .error _ => none
  | .ok (word, width) =>
    match matchGenerated word width with
    | some row =>
      let operands := decodeOperandsFromFormat row.format word address width
      let unmaskedWordBits :=
        match width with
        | .halfword => word &&& 0xffff &&& ~~~(row.mask &&& 0xffff)
        | .word => word &&& ~~~row.mask
      let mask :=
        match width with
        | .halfword => 0xffff &&& ~~~(row.mask &&& 0xffff)
        | .word => ~~~row.mask
      let operands :=
        if mask ≠ 0 then operands ++ [.opaqueBits unmaskedWordBits mask] else operands
      some ⟨address, word, width, row.mnemonic, operands, some row, none⟩
    | none =>
      match width with
      | .word => do
        let neonRow ← matchNeonThumb word
        pure ⟨address, word, width, .nop, [.opaqueBits word 0xffffffff], none, some neonRow⟩
      | .halfword => none

/-- The sweep's loop takes one turn after the other. -/
theorem disassembleFrom_sweepOne (base : U64) {bytes : List Byte} {cursor : Nat}
    (h : cursor < bytes.length) :
    disassembleFrom base cursor (bytes.drop cursor)
      = (sweepOne bytes cursor (base + BitVec.ofNat 64 cursor)).bind fun d =>
          (disassembleFrom base (cursor + sizeBytes d.width)
            (bytes.drop (cursor + sizeBytes d.width))).map (d :: ·) := by
  have hlength : bytes.length - cursor = (bytes.drop cursor).length := List.length_drop.symm
  have hdropped : ∀ n, bytes.drop (cursor + n) = (bytes.drop cursor).drop n := fun n =>
    (List.drop_drop ..).symm
  have hmap : ∀ (x : Except DisassembleError (List DecodedInstruction)) (d : DecodedInstruction),
      (x.bind fun tail => .ok (d :: tail)) = x.map (d :: ·) := by
    intro x d
    cases x <;> rfl
  -- the loop goes on behind the width that it read, which is the width it decoded
  have hturn : ∀ word width, (decodeOne (base + BitVec.ofNat 64 cursor) word width).bind (fun d =>
      (disassembleFrom base (cursor + sizeBytes width)
        (bytes.drop (cursor + sizeBytes width))).map (d :: ·))
      = (decodeOne (base + BitVec.ofNat 64 cursor) word width).bind fun d =>
          (disassembleFrom base (cursor + sizeBytes d.width)
            (bytes.drop (cursor + sizeBytes d.width))).map (d :: ·) := by
    intro word width
    cases hdecode : decodeOne (base + BitVec.ofNat 64 cursor) word width with
    | error e => rfl
    | ok d =>
      obtain ⟨-, -, hwidth⟩ := decodeOne_fields hdecode
      show _ = (disassembleFrom base (cursor + sizeBytes d.width) _).map (d :: ·)
      rw [hwidth]
      rfl
  unfold sweepOne readInstruction
  rw [hlength]
  cases hdrop : bytes.drop cursor with
  | nil =>
    rw [hdrop] at hlength
    simp at hlength
    omega
  | cons b0 rest =>
    cases rest with
    | nil => rfl
    | cons b1 rest =>
      rw [disassembleFrom.eq_def]
      by_cases hwide : isWide (halfwordOf b0 b1) = true
      · simp only [if_pos hwide]
        cases rest with
        | nil => rfl
        | cons b2 rest =>
          cases rest with
          | nil => rfl
          | cons b3 rest =>
            have hrest : bytes.drop (cursor + sizeBytes .word) = rest := by
              rw [hdropped, hdrop]
              rfl
            refine Eq.trans ?_ (hturn _ .word)
            rw [hrest]
            simp only [bind, pure, Except.pure, hmap]
            rfl
      · simp only [if_neg hwide]
        have hrest : bytes.drop (cursor + sizeBytes .halfword) = rest := by
          rw [hdropped, hdrop]
          rfl
        refine Eq.trans ?_ (hturn _ .halfword)
        rw [hrest]
        simp only [bind, pure, Except.pure, hmap]
        rfl

/-- The operand for the open bits of a halfword. -/
theorem tailOperand_halfword {row : ThumbOpcode} (hwidth : row.width = .halfword) (word : Word) :
    tailOperand row word = if 0xffff &&& ~~~(row.mask &&& 0xffff) ≠ 0 then
      [.opaqueBits (word &&& 0xffff &&& ~~~(row.mask &&& 0xffff))
        (0xffff &&& ~~~(row.mask &&& 0xffff))] else [] := by
  have hmask : tailMask row = 0xffff &&& ~~~(row.mask &&& 0xffff) := by
    unfold tailMask
    rw [hwidth]
  rw [tailOperand, hmask, BitVec.and_assoc, ite_not]

/-- The operand for the open bits of a word. -/
theorem tailOperand_word {row : ThumbOpcode} (hwidth : row.width = .word) (word : Word) :
    tailOperand row word =
      if ~~~row.mask ≠ 0 then [.opaqueBits (word &&& ~~~row.mask) (~~~row.mask)] else [] := by
  have hmask : tailMask row = ~~~row.mask := by
    unfold tailMask
    rw [hwidth]
  rw [tailOperand, hmask, ite_not]

theorem width_of_match {word : Word} {width : ThumbWidth} {row : ThumbOpcode}
    (h : matchGenerated word width = some row) : row.width = width := by
  have hmatch := List.find?_some h
  simp only [Bool.and_eq_true, beq_iff_eq] at hmatch
  exact hmatch.1

theorem append_ite {α : Type} (c : Prop) [Decidable c] (xs ys : List α) :
    (if c then xs ++ ys else xs) = xs ++ if c then ys else [] := by
  split
  · rfl
  · rw [List.append_nil]

/-- **The two Thumb decoders agree**, also on what they refuse. -/
theorem recursive_eq (bytes : List Byte) (offset : Nat) (address : U64) :
    Recursive.decodeOne bytes offset address = (sweepOne bytes offset address).toOption := by
  unfold Recursive.decodeOne sweepOne
  cases hread : readInstruction bytes offset with
  | error e => rfl
  | ok instruction =>
    obtain ⟨word, width⟩ := instruction
    show _ = (decodeOne address word width).toOption
    unfold decodeOne
    cases width with
    | halfword =>
      cases hrow : matchGenerated word .halfword with
      | none => simp [hrow, Except.toOption]
      | some row =>
        have hwidth := width_of_match hrow
        simp only [hrow, rowOperands, tailOperand_halfword hwidth, hwidth, Except.toOption, append_ite]
    | word =>
      cases hrow : matchGenerated word .word with
      | none => cases hneon : matchNeonThumb word <;> simp [hrow, hneon, Except.toOption]
      | some row =>
        have hwidth := width_of_match hrow
        simp only [hrow, rowOperands, tailOperand_word hwidth, hwidth, Except.toOption, append_ite]

/-- The walker's decoder is this one. -/
theorem decodeAt_eq_recursive (bytes : List Byte) (offset : Nat) (address : U64) :
    decodeAt bytes offset address = Recursive.decodeOne bytes offset address := by
  rw [recursive_eq, decodeAt, sweepOne]
  cases readInstruction bytes offset <;> rfl

end Thumb

/-! ## §2. ARM mode. -/

namespace Arm

/-- The operand of the bits that a row's mask leaves open, if there are any. -/
def Recursive.tailOperand (row : ArmOpcode) (word : Word) : List DecodedOperand :=
  if ~~~row.mask ≠ 0 then [.opaqueBits (word &&& ~~~row.mask) (~~~row.mask)] else []

/-- One instruction of recursive descent. -/
def Recursive.decodeOne (word : Word) (address : U64) : Option DecodedInstruction :=
  match matchNeonArm word with
  | some neonRow =>
    some ⟨address, word, .nop, [.opaqueBits word 0xffffffff], none, some neonRow⟩
  | none => do
    let row ← matchGenerated word
    pure ⟨address, word, row.mnemonic,
      decodeOperandsFromFormat row.format word address ++ Recursive.tailOperand row word, some row,
      none⟩

/-- An instruction with the operand that recursive descent appends. -/
def Recursive.withTail (d : DecodedInstruction) : DecodedInstruction :=
  match d.row with
  | some row => { d with operands := d.operands ++ Recursive.tailOperand row d.word }
  | none => d

/-- The row that decodes the word, if one does, fixes every bit of it. -/
def Recursive.TailFree (word : Word) : Prop :=
  ∀ row, matchNeonArm word = none → matchGenerated word = some row → row.mask = 0xffffffff

/-- The two ARM decoders accept the same words and differ in the tail alone. -/
theorem recursive_eq (word : Word) (address : U64) :
    Recursive.decodeOne word address
      = (Arm.decodeOne address word).toOption.map Recursive.withTail := by
  unfold Recursive.decodeOne Arm.decodeOne
  cases hneon : matchNeonArm word with
  | some neonRow => rfl
  | none => cases hrow : matchGenerated word <;> rfl

/-- They agree where there is no tail. -/
theorem recursive_eq_iff (word : Word) (address : U64) :
    Recursive.decodeOne word address = (Arm.decodeOne address word).toOption ↔
      Recursive.TailFree word := by
  rw [recursive_eq]
  unfold Arm.decodeOne Recursive.TailFree
  cases hneon : matchNeonArm word with
  | some neonRow => simp [Except.toOption, Recursive.withTail]
  | none =>
    cases hrow : matchGenerated word with
    | none => simp [Except.toOption]
    | some row =>
      have htail : Recursive.tailOperand row word = [] ↔ row.mask = 0xffffffff := by
        unfold Recursive.tailOperand
        by_cases h : ~~~row.mask = 0
        · rw [if_neg (not_not.mpr h)]
          refine iff_of_true rfl ?_
          calc row.mask = ~~~(~~~row.mask) := BitVec.not_not.symm
            _ = ~~~0 := by rw [h]
            _ = 0xffffffff := rfl
        · rw [if_pos h]
          refine iff_of_false (List.cons_ne_nil _ _) fun hmask => h ?_
          rw [hmask]
          rfl
      simp [Except.toOption, Recursive.withTail, htail]

end Arm

/-! ## §3. Both modes. -/

/-- Recursive descent and the sweep decode alike, with the same address, word,
width, mnemonic, row and operands, and refuse alike. -/
structure DecodersAgree (address : U64) (bytes : List Byte) (offset : Nat) (word : Word) :
    Prop where
  thumb : Thumb.Recursive.decodeOne bytes offset address
    = (Thumb.sweepOne bytes offset address).toOption
  arm : Arm.Recursive.decodeOne word address = (Arm.decodeOne address word).toOption

/-- **The decoders agree** except on an ARM word whose row leaves a bit open. -/
theorem decoders_iff (address : U64) (bytes : List Byte) (offset : Nat) (word : Word) :
    DecodersAgree address bytes offset word ↔ Arm.Recursive.TailFree word :=
  ⟨fun h => (Arm.recursive_eq_iff word address).mp h.arm, fun h =>
    ⟨Thumb.recursive_eq bytes offset address, (Arm.recursive_eq_iff word address).mpr h⟩⟩

/-- `bx lr` leaves the condition and the register open. -/
theorem decoders_disagree : ¬ DecodersAgree 0x1000 [] 0 0xe12fff1e := by
  intro h
  have hneon : matchNeonArm 0xe12fff1e = none := by decide +kernel
  have hrow : Arm.matchGenerated 0xe12fff1e = some ⟨.bx, 0x12fff10, 0xffffff0, "bx%c\t%0-3r"⟩ := by
    decide +kernel
  have hmask := (Arm.recursive_eq_iff 0xe12fff1e 0x1000).mp h.arm _ hneon hrow
  exact absurd hmask (by decide)

end Armv8Encode.Armv7

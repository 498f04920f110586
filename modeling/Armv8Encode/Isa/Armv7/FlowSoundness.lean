/-
  Armv8Encode.Isa.Armv7.FlowSoundness — classification in both modes.

  A class is sound exactly if what the name of the word tells is what its fixed
  bits do.  Neither mode has that for all accepted words: `cbz` loses its
  target in Thumb, and a conditional `bx lr` its fall-through in ARM mode.
-/
import Armv8Encode.Isa.Armv7.ArmFlow
import Armv8Encode.Isa.Armv7.ThumbFlow

namespace Armv8Encode.Armv7

open Lib

/-- The class of an accepted Thumb word reports what the architecture does. -/
def Thumb.DecodedInstruction.FlowSound (i : Thumb.DecodedInstruction) : Prop :=
  Armv7.FlowSound (Thumb.archFlow i.address i.word i.width) i.next i.controlFlow

/-- The class of an accepted ARM word does. -/
def Arm.DecodedInstruction.FlowSound (i : Arm.DecodedInstruction) : Prop :=
  Armv7.FlowSound (Arm.archFlow i.address i.word) (i.address + 4) i.controlFlow

/-- **In both modes a class is sound exactly if the word's name is right.** -/
theorem bothModes_flowSound_iff (address : U64) (word : Word) :
    (∀ width i, Thumb.decodeOne address word width = .ok i →
      (i.FlowSound ↔ Thumb.ReadRight i)) ∧
    (∀ i, Arm.decodeOne address word = .ok i → (i.FlowSound ↔ Arm.ReadRight i)) := by
  constructor
  · intro width i hdecode
    exact Thumb.flowSound_iff hdecode
  · intro i hdecode
    exact Arm.flowSound_iff hdecode

/-! ## Words that are read right, and words that are not. -/

def Thumb.popPc : Thumb.DecodedInstruction := Thumb.decoded Thumb.popRow 0x1000 0xbd10

theorem Thumb.decode_popPc : Thumb.decodeOne 0x1000 0xbd10 .halfword = .ok Thumb.popPc := by
  have hmatch : Thumb.matchGenerated 0xbd10 .halfword = some Thumb.popRow := by decide
  unfold Thumb.decodeOne
  rw [hmatch]
  rfl

/-- A branch, and a return from the stack. -/
theorem returnAndBranch_sound :
    Thumb.popPc.FlowSound ∧ ∃ i, Arm.decodeOne 0x1000 0xeafffffe = .ok i ∧ i.FlowSound := by
  refine ⟨((bothModes_flowSound_iff _ _).1 _ _ Thumb.decode_popPc).mpr ?_, ?_⟩
  · show Thumb.isListed .pop 0xbd10 = true
    decide
  · have hclass : (0xeafffffe : Word) &&& 0x0e000000 = 0x0a000000 := by decide
    have hdecode := Arm.decodeOne_branch hclass 0x1000
    exact ⟨_, hdecode, ((bothModes_flowSound_iff _ _).2 _ hdecode).mpr trivial⟩

/-- `cbz r0, 0x1006`. -/
def Thumb.compareZero : Thumb.DecodedInstruction :=
  Thumb.decoded ⟨.cbz, 0xb100, 0xfd00, .halfword, "cbz\t%0-2r, %b%X"⟩ 0x1000 0xb108

theorem Thumb.decode_compareZero :
    Thumb.decodeOne 0x1000 0xb108 .halfword = .ok Thumb.compareZero := by
  have hmatch : Thumb.matchGenerated 0xb108 .halfword
      = some ⟨.cbz, 0xb100, 0xfd00, .halfword, "cbz\t%0-2r, %b%X"⟩ := by decide
  unfold Thumb.decodeOne
  rw [hmatch]
  rfl

def Arm.exchangeRow : ArmOpcode := ⟨.bx, 0x12fff10, 0xffffff0, "bx%c\t%0-3r"⟩

/-- `bxne lr`. -/
def Arm.exchangeUnequal : Arm.DecodedInstruction :=
  ⟨0x1000, 0x112fff1e, .bx,
    Arm.decodeOperandsFromFormat Arm.exchangeRow.format 0x112fff1e 0x1000, some Arm.exchangeRow, none⟩

theorem Arm.decode_exchangeUnequal :
    Arm.decodeOne 0x1000 0x112fff1e = .ok Arm.exchangeUnequal := by
  have hneon : matchNeonArm 0x112fff1e = none := by decide +kernel
  have hmatch : Arm.matchGenerated 0x112fff1e = some Arm.exchangeRow := by decide
  unfold Arm.decodeOne
  rw [hneon, hmatch]
  rfl

/-- Neither mode classifies all the words it accepts soundly. -/
theorem bothModes_unsound :
    (¬ ∀ address word width i, Thumb.decodeOne address word width = .ok i → i.FlowSound) ∧
    (¬ ∀ address word i, Arm.decodeOne address word = .ok i → i.FlowSound) := by
  constructor
  · intro h
    have hsound := h _ _ _ _ Thumb.decode_compareZero
    have hclass : Thumb.compareZero.controlFlow = .fall := by decide
    have htarget := hsound.target 0x1006 (by decide)
    rw [hclass] at htarget
    exact absurd htarget (by decide)
  · intro h
    have hsound := h _ _ _ Arm.decode_exchangeUnequal
    have hclass : Arm.exchangeUnequal.controlFlow = .return := by decide
    have hnext := hsound.fallthrough (by decide)
    rw [hclass] at hnext
    exact absurd hnext List.not_mem_nil

end Armv8Encode.Armv7

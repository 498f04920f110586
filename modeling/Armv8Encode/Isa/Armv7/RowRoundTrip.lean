/-
  Armv8Encode.Isa.Armv7.RowRoundTrip — the row encoders against their decoders.

  A row that decoded a word does not always re-encode it: some letters have no
  operand on one side only, and in ARM mode the bits outside the letters are
  those of the opcode.
-/
import Armv8Encode.Isa.Armv7.ArmRoundTrip
import Armv8Encode.Isa.Armv7.ThumbRoundTrip

namespace Armv8Encode.Armv7

open Lib

/-- The encoder of the row that matched a word gives the word back for the words that the
row's open part lets through, and for no others. -/
theorem encodeWithRow_inverts_iff (word : Word) (address : U64) :
    (∀ row : ThumbOpcode, Thumb.Matches row word →
      (Thumb.encodeWithRow row (Thumb.rowOperands row word address) address
          = .ok (word, row.width)
        ↔ Thumb.Reencodable row word))
      ∧ ∀ row : ArmOpcode, row ∈ armOpcodeTable →
        word &&& row.mask = row.opcode →
        (Arm.encodeWithRow row (Arm.decodeOperandsFromFormat row.format word address) address
            = .ok word
          ↔ Arm.Reencodable row word) := by
  constructor
  · intro row h
    exact Thumb.givesBack_iff h address
  · intro row hmem _
    exact Arm.givesBack_iff hmem word address

/-- The row of `sxth.w`. -/
def sxthRow : ThumbOpcode := ⟨.sxth, 0xfa0ff080, 0xfffff0c0, .word, "sxth%c.w\t%8-11r, %0-3r%R"⟩

theorem sxthRow_mem : sxthRow ∈ thumbOpcodeTable := by decide

/-- `sxth.w r0, r0` comes back. -/
theorem unrotatedExtend_reencoded :
    Thumb.encodeWithRow sxthRow (Thumb.rowOperands sxthRow 0xfa0ff080 0) 0
      = .ok (0xfa0ff080, .word) :=
  ((encodeWithRow_inverts_iff 0xfa0ff080 0).1 sxthRow
    ⟨sxthRow_mem, by decide, by intro h; cases h⟩).mpr (by decide)

/-- `sxth.w r0, r0, ror #8` comes back without its rotation. -/
theorem rotatedExtend_misencoded :
    Thumb.matchGenerated 0xfa0ff090 .word = some sxthRow
      ∧ Thumb.encodeWithRow sxthRow (Thumb.rowOperands sxthRow 0xfa0ff090 0) 0
        = .ok (0xfa0ff080, .word)
      ∧ (0xfa0ff080 : Word) ≠ 0xfa0ff090 := by
  refine ⟨?_, ?_, by decide⟩
  · decide
  · rfl

end Armv8Encode.Armv7

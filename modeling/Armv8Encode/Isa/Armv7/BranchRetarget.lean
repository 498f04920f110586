/-
  Armv8Encode.Isa.Armv7.BranchRetarget — new targets in both instruction sets.

  A Thumb branch keeps its distance whatever target the encoder is given,
  since the last operand puts the old displacement back.  An ARM branch moves,
  but `bl` turns into `b` and a backward `blx` may miss its halfword.
-/
import Armv8Encode.Isa.Armv7.ArmRetarget

namespace Armv8Encode.Armv7

open Lib

/-- When a decoded branch with another target takes effect. -/
theorem retarget_takesEffect_iff (address : U64) (word : Word) (address2 target : U64) :
    (∀ (width : ThumbWidth) (d : Thumb.DecodedInstruction) (old : U64),
      Thumb.decodeOne address word width = .ok d → (width = .halfword → word.toNat < 2 ^ 16) →
      .branchTarget old ∈ d.operands →
        ∃ row, d.row = some row
          ∧ (Thumb.TakesEffect d row address2 target
            ↔ Thumb.IsSameDistance row old address address2 target))
      ∧ ∀ (d : Arm.DecodedInstruction) (old : U64),
        Arm.decodeOne address word = .ok d → .branchTarget old ∈ d.operands →
          ∃ row, d.row = some row
            ∧ (Arm.TakesEffect d row address2 target
              ↔ Arm.IsKeptBranch row word address2 target) :=
  ⟨fun _ _ _ hd hword hold => Thumb.takesEffect_iff hd hword hold address2 target,
    fun _ _ hd hold => Arm.takesEffect_iff hd hold address2 target⟩

/-- `b .` in 16 bits. -/
def shortBranchRow : ThumbOpcode := ⟨.b, 0xe000, 0xf800, .halfword, "b%c.n\t%0-10B%x"⟩

/-- The instruction at address zero. -/
def shortBranch : Thumb.DecodedInstruction :=
  ⟨0, 0xe7fe, .halfword, .b, [.branchTarget 0, .opaqueBits 0x7fe 0x7ff], some shortBranchRow, none⟩

theorem decodeOne_shortBranch : Thumb.decodeOne 0 0xe7fe .halfword = .ok shortBranch := by
  rfl

/-- Moved by a page together with its target, it takes effect. -/
theorem shortBranch_moved : Thumb.TakesEffect shortBranch shortBranchRow 0x1000 0x1000 := by
  obtain ⟨row, hrow, h⟩ := (retarget_takesEffect_iff 0 0xe7fe 0x1000 0x1000).1 .halfword
    shortBranch 0 decodeOne_shortBranch (by intro _; decide) (by decide)
  cases hrow
  exact h.mpr (.inl (by decide))

/-- Given a target 256 bytes ahead, it still branches to itself. -/
theorem shortBranch_unmoved :
    Thumb.decodeOne 0 0xe7fe .halfword = .ok shortBranch
      ∧ Thumb.encodeWithRow shortBranchRow (shortBranch.operands.map (retarget 0x100)) 0
        = .ok (0xe7fe, .halfword)
      ∧ .branchTarget 0x100 ∉ shortBranch.operands := by
  refine ⟨decodeOne_shortBranch, ?_, by decide⟩
  rfl

end Armv8Encode.Armv7

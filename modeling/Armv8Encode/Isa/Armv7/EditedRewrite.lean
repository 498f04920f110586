/-
  Armv8Encode.Isa.Armv7.EditedRewrite — edited Thumb and ARM instructions.

  Neither instruction set has a per-word decoder, so an edit that leaves an
  instruction at its own address is never emitted: the source bytes are copied
  over it.  An instruction that moved is encoded by its mnemonic, and the
  output decodes to it exactly when that encoding does.
-/
import Armv8Encode.Isa.Armv7.ThumbLayout
import Armv8Encode.Isa.Armv7.UneditedRewrite
import Armv8Encode.Rewrite.Edit
import Armv8Encode.Rewrite.EditedEmit

namespace Armv8Encode.Armv7

open Lib

/-! ## §1. The first instruction of some bytes. -/

namespace Thumb

/-- Decode the first instruction as the sweep does. -/
def decodeFirst (address : U64) : List Byte → Option DecodedInstruction
  | b0 :: b1 :: rest =>
    if isWide (halfwordOf b0 b1) then
      match rest with
      | b2 :: b3 :: _ =>
        (decodeOne address ((halfwordOf b0 b1 <<< 16) ||| halfwordOf b2 b3) .word).toOption
      | _ => none
    else (decodeOne address (halfwordOf b0 b1) .halfword).toOption
  | _ => none

theorem decodeFirst_append {address : U64} {bytes : List Byte} (rest : List Byte)
    {d : DecodedInstruction} (h : decodeFirst address bytes = some d) :
    decodeFirst address (bytes ++ rest) = some d := by
  match bytes, h with
  | [], h => cases h
  | [_], h => cases h
  | b0 :: b1 :: tail, h =>
    rw [decodeFirst.eq_def] at h
    rw [List.cons_append, List.cons_append, decodeFirst.eq_def]
    simp only at h ⊢
    split at h
    · next hwide =>
      rw [if_pos hwide]
      match tail, h with
      | [], h => cases h
      | [_], h => cases h
      | b2 :: b3 :: tail, h => exact h
    · next hnarrow =>
      rw [if_neg hnarrow]
      exact h

def firstDecoder : FirstDecoder DecodedInstruction where
  decode := decodeFirst
  append := fun _ _ rest _ h => decodeFirst_append rest h

end Thumb

namespace Arm

/-- Decode the first instruction as the sweep does. -/
def decodeFirst (address : U64) : List Byte → Option DecodedInstruction
  | b0 :: b1 :: b2 :: b3 :: _ => (decodeOne address (fromLeBytes b0 b1 b2 b3)).toOption
  | _ => none

theorem decodeFirst_append {address : U64} {bytes : List Byte} (rest : List Byte)
    {d : DecodedInstruction} (h : decodeFirst address bytes = some d) :
    decodeFirst address (bytes ++ rest) = some d := by
  match bytes, h with
  | [], h => cases h
  | [_], h => cases h
  | [_, _], h => cases h
  | [_, _, _], h => cases h
  | b0 :: b1 :: b2 :: b3 :: tail, h => exact h

def firstDecoder : FirstDecoder DecodedInstruction where
  decode := decodeFirst
  append := fun _ _ rest _ h => decodeFirst_append rest h

end Arm

theorem arm_macroFrame : arm.MacroFrame := by
  intro m here ctx out
  exact Arm.movwMovt.emit_append m.register m.target ctx out

/-! ## §2. Edits. -/

/-- `b` over a `nop` to `bx lr`. -/
def skipReturn : Section :=
  ⟨⟨0⟩, 0x1000, 12, [0x00, 0x00, 0x00, 0xea, 0x00, 0x00, 0xa0, 0xe1, 0x1e, 0xff, 0x2f, 0xe1], .text⟩

/-- The image of that section. -/
def skipImage : Container := textImage skipReturn rfl

/-- The lifted section. -/
def skipPlan : RewritePlan ArmMnemonic Register DecodedOperand Arm.MacroKind :=
  arm.planOf Arm.info ((Arm.disassembleBytes 0x1000 skipReturn.bytes).toOption.getD [])
    (some skipImage)

/-- The branch, redirected to the `nop`. -/
def redirectedSkip : RewriteInstruction ArmMnemonic DecodedOperand where
  mnemonic := .b
  operands := [.decoded (.condition 14), .branch (.absolute 0x1004)]
  originalAddress := some 0x1000
  sourceSize := some 4

/-- What `b` to 0x1008 decodes to. -/
theorem decodeFirst_skip : (Arm.decodeFirst 0x1000 [0x00, 0x00, 0x00, 0xea]).map
    Arm.DecodedInstruction.operands = some [.condition 14, .branchTarget 0x1008] := by
  decide +kernel

end Armv8Encode.Armv7

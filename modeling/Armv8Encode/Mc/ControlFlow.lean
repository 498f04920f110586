/-
  Armv8Encode.Mc.ControlFlow — what an instruction does to the program counter.

  The classification is architecture-neutral: one `ControlFlow` value covers
  calls, jumps, returns and traps, with absolute addresses.  An instruction
  set supplies an `InstructionInfo` for its decoded instructions and the
  graph builder of `Mc.Cfg` reads nothing else.
-/
import Armv8Encode.Lib.Words

namespace Armv8Encode

/-- What an instruction does to the program counter. -/
inductive ControlFlow where
  | fall
  | jump (target : U64)
  | conditionalJump (target fallthrough : U64)
  | call (target fallthrough : U64)
  | return
  | indirectJump
  | indirectCall (fallthrough : U64)
  | trap
  deriving Repr, DecidableEq

namespace ControlFlow

/-- True when the instruction ends a basic block. -/
def isTerminator : ControlFlow → Bool
  | fall => false
  | _ => true

/-- The statically known branch or call target, if any. -/
def directTarget : ControlFlow → Option U64
  | jump target | conditionalJump target _ | call target _ => some target
  | _ => none

/-- The statically known addresses execution may go on at; `next` is the one
past the instruction. -/
def successors (next : U64) : ControlFlow → List U64
  | fall | trap => [next]
  | jump target => [target]
  | conditionalJump target fallthrough | call target fallthrough => [target, fallthrough]
  | «return» | indirectJump => []
  | indirectCall fallthrough => [fallthrough]

end ControlFlow

/-- Architecture-neutral instruction queries. -/
structure InstructionInfo (ι : Type) where
  address : ι → U64
  size : ι → U64
  controlFlow : ι → ControlFlow

end Armv8Encode

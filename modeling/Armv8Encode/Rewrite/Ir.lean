/-
  Armv8Encode.Rewrite.Ir — the rewrite-IR types, generic over an instruction set.

  At the rewrite layer a PC-relative operand is symbolic: it names a block, a
  symbol, a constant or an absolute address, and gets its displacement only
  when a layout is chosen.  The types are parameterised by what an
  instruction set supplies: mnemonics `Mn`, registers `Rg`, decoded operands
  `Op` and macro kinds `Mk`.
-/
import Armv8Encode.Container.Types
import Armv8Encode.Mc.Cfg

namespace Armv8Encode

/-- Identifier for a constant (literal-pool entry, jump-table base). -/
structure ConstantId where
  index : Nat
  deriving Repr, DecidableEq

/-- Where an address-shaped operand points after lifting. -/
inductive Target where
  | block (id : BasicBlockId)
  | symbol (id : SymbolId)
  | constant (id : ConstantId)
  | absolute (address : U64)
  deriving Repr, DecidableEq

/-- An operand at the rewrite-IR level. -/
inductive RewriteOperand (Op : Type) where
  | decoded (o : Op)
  | branch (t : Target)
  | page (t : Target)
  deriving Repr, DecidableEq

/-- A single instruction at the rewrite-IR level.  `sourceSize` is the
encoded length of the decoded source instruction, `none` for a synthesized
one. -/
structure RewriteInstruction (Mn Op : Type) where
  mnemonic : Mn
  operands : List (RewriteOperand Op)
  originalAddress : Option U64
  sourceSize : Option U64
  deriving Repr, DecidableEq

/-- A multi-instruction idiom recognised at lift time. -/
structure MacroOp (Mn Rg Op Mk : Type) where
  kind : Mk
  register : Rg
  target : Target
  originalInstructions : List (RewriteInstruction Mn Op)
  originalAddresses : List U64
  deriving Repr, DecidableEq

/-- One unit of code within a block. -/
inductive RewriteOp (Mn Rg Op Mk : Type) where
  | instruction (i : RewriteInstruction Mn Op)
  | macroOp (m : MacroOp Mn Rg Op Mk)
  /-- Pre-encoded position-independent bytes, copied unchanged. -/
  | raw (bytes : List Byte)
  deriving Repr, DecidableEq

structure RewriteBlock (Mn Rg Op Mk : Type) where
  id : BasicBlockId
  ops : List (RewriteOp Mn Rg Op Mk)
  deriving Repr, DecidableEq

/-- The editable rewrite-IR container. -/
structure RewritePlan (Mn Rg Op Mk : Type) where
  blocks : List (RewriteBlock Mn Rg Op Mk)
  deriving Repr, DecidableEq

variable {Mn Rg Op Mk : Type}

namespace RewriteInstruction

/-- A synthesized instruction, with no decoded origin. -/
def new (mnemonic : Mn) (operands : List (RewriteOperand Op)) (originalAddress : Option U64) :
    RewriteInstruction Mn Op :=
  { mnemonic, operands, originalAddress, sourceSize := none }

/-- The target of the first symbolic operand. -/
def pcRelativeTarget (i : RewriteInstruction Mn Op) : Option Target :=
  i.operands.findSome? fun
    | .branch t | .page t => some t
    | .decoded _ => none

end RewriteInstruction

namespace RewriteOp

def matchesSourceAddress (address : U64) : RewriteOp Mn Rg Op Mk → Bool
  | .instruction i => i.originalAddress == some address
  | .macroOp m => m.originalAddresses.contains address
  | .raw _ => false

end RewriteOp

end Armv8Encode

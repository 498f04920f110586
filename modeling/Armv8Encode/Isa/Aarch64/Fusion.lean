/-
  Armv8Encode.Isa.Aarch64.Fusion — recognising address idioms.

  `adrp` followed by `add` (or a register `mov`) on the same register becomes
  a `loadAddress` macro; `adrp` followed by a load or store through the same
  register becomes an `accessValue` macro when relocations say what it
  accesses.  Adjacent pairs only; everything else passes through.
-/
import Armv8Encode.Isa.IsaTrait
import Armv8Encode.Isa.Aarch64.Encode

namespace Armv8Encode

open Lib

/-- The macro kinds of AArch64. -/
inductive AarchMacroKind where
  | loadAddress
  | accessValue
  deriving Repr, DecidableEq

/-- The rewrite-IR types at AArch64. -/
abbrev AarchOperand := RewriteOperand DecodedOperand

abbrev AarchInstruction := RewriteInstruction Aarch64Mnemonic DecodedOperand

abbrev AarchMacro := MacroOp Aarch64Mnemonic Register DecodedOperand AarchMacroKind

abbrev AarchOp := RewriteOp Aarch64Mnemonic Register DecodedOperand AarchMacroKind

abbrev AarchPlan := RewritePlan Aarch64Mnemonic Register DecodedOperand AarchMacroKind

def isWide (c : RegisterClass) : Bool := c == .x || c == .xOrSp

def isNarrow (c : RegisterClass) : Bool := c == .w || c == .wOrSp

/-- Same number and same width, whatever number 31 means in each slot. -/
def sameRegister (a b : Register) : Bool :=
  a.index == b.index
    && ((isWide a.regClass && isWide b.regClass) || (isNarrow a.regClass && isNarrow b.regClass))

inductive CompanionRelocKind where
  | add
  | loadStore
  deriving Repr, DecidableEq

def companionRelocMatches (actual : RelocationKind) : CompanionRelocKind → Bool
  | .add => actual == .addPageOffset12
  | .loadStore =>
    match actual with
    | .loadStorePageOffset12 _ => true
    | _ => false

/-- The symbol both halves of a pair are relocated against. -/
def macroTargetFromRelocations (adrp companion : AarchInstruction)
    (relocations : Map U64 FusionRelocationInfo) (expected : CompanionRelocKind) :
    Option Target := do
  let adrpAddress ← adrp.originalAddress
  let companionAddress ← companion.originalAddress
  let adrpReloc ← relocations adrpAddress
  let companionReloc ← relocations companionAddress
  if adrpReloc.kind ≠ .adrpPage21 then none
  else if !companionRelocMatches companionReloc.kind expected then none
  else do
    let adrpSymbol ← adrpReloc.symbol
    let companionSymbol ← companionReloc.symbol
    if adrpSymbol ≠ companionSymbol then none else some (.symbol adrpSymbol)

/-- The macro built from a pair. -/
def fusedPair (kind : AarchMacroKind) (register : Register) (target : Target)
    (first second : AarchInstruction) : AarchMacro where
  kind := kind
  register := register
  target := target
  originalInstructions := [first, second]
  originalAddresses := [first.originalAddress, second.originalAddress].filterMap id

/-- Destination and page of an `adrp` whose operands have the lifted shape. -/
def adrpOperands (i : AarchInstruction) : Option (Register × Target) :=
  match i.operands with
  | [.decoded (.register rd), .page target] => some (rd, target)
  | _ => none

/-- Destination, source and offset of an address companion. -/
def addOperands (i : AarchInstruction) : Option (Register × Register × Int) :=
  match i.mnemonic, i.operands with
  | .add, [.decoded (.register rd), .decoded (.register rn), .decoded (.immediate imm)] =>
    some (rd, rn, imm)
  | .mov, [.decoded (.register rd), .decoded (.register rn)] => some (rd, rn, 0)
  | _, _ => none

def tryFuseAdrpAdd (adrp add : AarchInstruction) (blockAtAddress : Map U64 BasicBlockId)
    (container : Option Container) (relocations : Map U64 FusionRelocationInfo) :
    Option AarchMacro := do
  let (adrpRd, adrpTarget) ← adrpOperands adrp
  let (addRd, addRn, imm) ← addOperands add
  if !sameRegister adrpRd addRd || !sameRegister adrpRd addRn then none
  else if imm < 0 ∨ imm > 0xfff then none
  else
    match adrpTarget, decide (imm = 0) with
    | .symbol id, true => some (fusedPair .loadAddress adrpRd (.symbol id) adrp add)
    | _, _ =>
      match macroTargetFromRelocations adrp add relocations .add with
      | some target => some (fusedPair .loadAddress adrpRd target adrp add)
      | none =>
        match adrpTarget with
        | .absolute page =>
          let target := resolveAddress (page + BitVec.ofInt 64 imm) blockAtAddress container
          some (fusedPair .loadAddress adrpRd target adrp add)
        | _ => none

/-- The base register of a single load or store companion. -/
def ldstBase (i : AarchInstruction) : Option Register :=
  match i.mnemonic, i.operands with
  | .ldr, [.decoded (.register _), .decoded (.memory m)] => some m.base
  | .str, [.decoded (.register _), .decoded (.memory m)] => some m.base
  | _, _ => none

def tryFuseAdrpLdst (adrp companion : AarchInstruction)
    (relocations : Map U64 FusionRelocationInfo) : Option AarchMacro := do
  let base ← ldstBase companion
  let (adrpRd, _) ← adrpOperands adrp
  if !sameRegister adrpRd base then none
  else do
    let target ← macroTargetFromRelocations adrp companion relocations .loadStore
    some (fusedPair .accessValue adrpRd target adrp companion)

/-- The macro a pair of adjacent instructions fuses into, if any. -/
def tryFuse (current next : AarchInstruction) (blockAtAddress : Map U64 BasicBlockId)
    (container : Option Container) (relocations : Map U64 FusionRelocationInfo) :
    Option AarchMacro :=
  if current.mnemonic = .adrp then
    (tryFuseAdrpAdd current next blockAtAddress container relocations).orElse
      (fun _ => tryFuseAdrpLdst current next relocations)
  else none

/-- Fuse the idioms of a flat instruction list. -/
def fuseMacros (blockAtAddress : Map U64 BasicBlockId) (container : Option Container)
    (relocations : Map U64 FusionRelocationInfo) : List AarchInstruction → List AarchOp
  | [] => []
  | [current] => [.instruction current]
  | current :: next :: rest =>
    match tryFuse current next blockAtAddress container relocations with
    | some m => .macroOp m :: fuseMacros blockAtAddress container relocations rest
    | none => .instruction current :: fuseMacros blockAtAddress container relocations (next :: rest)

end Armv8Encode

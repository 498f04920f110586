/-
  Armv8Encode.Rewrite.Plan — lifting a decoded section into a rewrite plan.

  Lift turns each PC-relative operand into a symbolic target: the symbol of a
  relocation at the instruction, else the block or symbol at the address the
  operand denotes, else the address itself.  Then the instruction set fuses
  its idioms block by block.
-/
import Armv8Encode.Rewrite.Emit

namespace Armv8Encode

open Lib

variable {Mn Rg Op E Mk Di : Type} (I : Isa Mn Rg Op E Mk Di)

/-- The entry a relocation contributes to the lookup, keyed by the absolute
address it applies to. -/
def relocationEntry (c : Container) (r : Relocation) : Option (U64 × FusionRelocationInfo) :=
  if !I.isLiftRelevantRelocation r.kind then none
  else
    match c.sectionOf r.sectionId with
    | none => none
    | some s => some (s.address + r.offset, ⟨r.kind, r.symbol⟩)

/-- Relocations by the address they apply to; the first one at an address wins. -/
def pcRelativeRelocationLookup (c : Container) : Map U64 FusionRelocationInfo :=
  firstWins (c.relocations.filterMap (relocationEntry I c))

/-- The lookup lift uses: empty without a container. -/
def relocationLookup (container : Option Container) : Map U64 FusionRelocationInfo :=
  match container with
  | some c => pcRelativeRelocationLookup I c
  | none => fun _ => none

/-- The symbol a relocation at an address binds the PC-relative operand to. -/
def relocTarget (relocations : Map U64 FusionRelocationInfo) (address : U64) : Option Target :=
  match relocations address with
  | some info =>
    if I.isPcRelativeRelocation info.kind then info.symbol.map Target.symbol else none
  | none => none

/-- A branch operand becomes a symbolic target, a page operand stays absolute
unless a relocation names its symbol. -/
def liftOperand (reloc : Option Target) (blockAtAddress : Map U64 BasicBlockId)
    (container : Option Container) (operand : Op) : RewriteOperand Op :=
  match I.pcrelKind operand with
  | some (.branch, address) =>
    .branch (reloc.getD (resolveAddress address blockAtAddress container))
  | some (.page, address) => .page (reloc.getD (.absolute address))
  | none => .decoded operand

def liftInstruction (blockAtAddress : Map U64 BasicBlockId) (container : Option Container)
    (relocations : Map U64 FusionRelocationInfo) (d : Di) : RewriteInstruction Mn Op where
  mnemonic := I.decodedMnemonic d
  operands := (I.decodedOperands d).map
    (liftOperand I (relocTarget I relocations (I.decodedAddress d)) blockAtAddress container)
  originalAddress := some (I.decodedAddress d)
  sourceSize := some (I.decodedSize d)

/-- Lift one basic block. -/
def liftBlock (blockAtAddress : Map U64 BasicBlockId) (container : Option Container)
    (relocations : Map U64 FusionRelocationInfo) (instructions : List Di) (b : BasicBlock) :
    RewriteBlock Mn Rg Op Mk where
  id := b.id
  ops := I.fuseMacros
    ((b.slice instructions).map (liftInstruction I blockAtAddress container relocations))
    blockAtAddress container relocations

/-- Lift a graph and its decoded instructions into a plan. -/
def liftInner (cfg : ControlFlowGraph) (instructions : List Di) (container : Option Container) :
    RewritePlan Mn Rg Op Mk where
  blocks := cfg.blocks.map
    (liftBlock I (blockStarts cfg.blocks) container (relocationLookup I container) instructions)

/-- Lift with a container for symbol resolution. -/
def liftWithContainer (cfg : ControlFlowGraph) (instructions : List Di) (c : Container) :
    RewritePlan Mn Rg Op Mk :=
  liftInner I cfg instructions (some c)

end Armv8Encode

/-
  Armv8Encode.Rewrite.Layout — address assignment and branch-range fix-up.

  `layOut` assigns consecutive addresses to the ops of a plan, then looks for
  PC-relative branches whose target is out of range.  An out-of-range
  conditional branch is widened to the two-instruction form and the addresses
  are assigned again, at most `maxLayoutIterations` times.  `layOutScattered`
  takes the address of every block as given and widens nothing.

  Machine arithmetic on addresses wraps; displacements are the signed
  difference of two 64-bit values.
-/
import Armv8Encode.Isa.IsaTrait

namespace Armv8Encode

/-! ## §1. The layout and its errors. -/

/-- How an instruction is encoded at emit time. -/
inductive EmitStrategy where
  | normal
  /-- The inverted condition over a skip, then an unconditional branch. -/
  | invertedConditional
  deriving Repr, DecidableEq

structure InstructionLayout where
  address : U64
  size : U64
  strategy : EmitStrategy
  deriving Repr, DecidableEq

structure Layout where
  baseAddress : U64
  totalSize : U64
  blockAddresses : List U64
  instructionLayouts : List (List InstructionLayout)
  deriving Repr, DecidableEq

inductive LayoutError where
  | displacementTooLarge (instructionAddress targetAddress : U64) (displacement : Int)
  | unresolvableTarget (kind : String)
  | undefinedSymbol (symbolId : Nat)
  | symbolWithoutContainer
  | didNotConverge
  /-- The source indexes past the end of a list here and panics. -/
  | indexOutOfBounds
  deriving Repr, DecidableEq

def maxLayoutIterations : Nat := 16

/-- The address a symbolic target denotes under given block addresses. -/
def resolveTarget (target : Target) (blockAddresses : List U64) (container : Option Container) :
    Except LayoutError U64 :=
  match target with
  | .block id =>
    match blockAddresses[id.index]? with
    | some address => .ok address
    | none => .error .indexOutOfBounds
  | .absolute address => .ok address
  | .symbol id =>
    match container with
    | none => .error .symbolWithoutContainer
    | some c =>
      match c.callableAddressOfSymbol id with
      | some address => .ok address
      | none => .error (.undefinedSymbol id.index)
  | .constant _ => .error (.unresolvableTarget "Constant")

/-- The target of the first branch operand; a page operand is not widened. -/
def pcRelativeBranchTarget {Mn Op : Type} (i : RewriteInstruction Mn Op) : Option Target :=
  i.operands.findSome? fun
    | .branch t => some t
    | _ => none

/-- Signed displacement from one address to another. -/
def displacement (target here : U64) : Int := (target - here).toInt

variable {Mn Rg Op E Mk Di : Type} (I : Isa Mn Rg Op E Mk Di)

def effectiveRange (mnemonic : Mn) : EmitStrategy → Option Int
  | .normal => I.pcrelRangeBytes mnemonic
  | .invertedConditional => some I.widenedConditionalRange

/-! ## §2. One layout round. -/

/-- The layout before the first round: source sizes, nothing widened. -/
def initialLayouts (plan : RewritePlan Mn Rg Op Mk) : List (List InstructionLayout) :=
  plan.blocks.map (fun block =>
    block.ops.map (fun op => ⟨0, I.sourceByteSize op, .normal⟩))

/-- Consecutive addresses for the ops of one block, and the address after it. -/
def assignBlock (current : U64) : List InstructionLayout → List InstructionLayout × U64
  | [] => ([], current)
  | l :: rest =>
    let tail := assignBlock (current + l.size) rest
    ({ l with address := current } :: tail.1, tail.2)

/-- Consecutive addresses for every op, block by block: the placed layouts,
the block addresses, and the address after the last op. -/
def assignBlocks (current : U64) :
    List (List InstructionLayout) → List (List InstructionLayout) × List U64 × U64
  | [] => ([], [], current)
  | block :: rest =>
    let placed := assignBlock current block
    let tail := assignBlocks placed.2 rest
    (placed.1 :: tail.1, current :: tail.2.1, tail.2.2)

/-- Placed layouts, block addresses and total size from a base address. -/
def assignAddresses (layouts : List (List InstructionLayout)) (base : U64) :
    List (List InstructionLayout) × List U64 × U64 :=
  let placed := assignBlocks base layouts
  (placed.1, placed.2.1, placed.2.2 - base)

/-- Range-check one op; the flag says that it was widened just now. -/
def widenOp (blockAddresses : List U64) (container : Option Container) (sizeProbe : Bool)
    (op : RewriteOp Mn Rg Op Mk) (l : InstructionLayout) :
    Except LayoutError (InstructionLayout × Bool) :=
  match op with
  | .macroOp _ | .raw _ => .ok (l, false)
  | .instruction i =>
    match pcRelativeBranchTarget i with
    | none => .ok (l, false)
    | some target =>
      match resolveTarget target blockAddresses container with
      | .error (.undefinedSymbol _) => .ok (l, false)
      | .error e => .error e
      | .ok targetAddress =>
        match effectiveRange I i.mnemonic l.strategy with
        | none => .ok (l, false)
        | some range =>
          let d := displacement targetAddress l.address
          if -range ≤ d ∧ d < range then .ok (l, false)
          else
            match l.strategy with
            | .normal =>
              if (I.invertConditionalBranch i.mnemonic).isSome then
                .ok ({ l with strategy := .invertedConditional
                              size := I.widenedConditionalSize }, true)
              else if sizeProbe then .ok (l, false)
              else .error (.displacementTooLarge l.address targetAddress d)
            | .invertedConditional =>
              if sizeProbe then .ok (l, false)
              else .error (.displacementTooLarge l.address targetAddress d)

/-- Range-check the ops of one block in order. -/
def widenBlock (blockAddresses : List U64) (container : Option Container) (sizeProbe : Bool) :
    List (RewriteOp Mn Rg Op Mk) → List InstructionLayout →
      Except LayoutError (List InstructionLayout × Bool)
  | op :: ops, l :: ls => do
    let head ← widenOp I blockAddresses container sizeProbe op l
    let tail ← widenBlock blockAddresses container sizeProbe ops ls
    pure (head.1 :: tail.1, head.2 || tail.2)
  | _, ls => .ok (ls, false)

/-- Range-check every op of the plan in order. -/
def widenBlocks (blockAddresses : List U64) (container : Option Container) (sizeProbe : Bool) :
    List (RewriteBlock Mn Rg Op Mk) → List (List InstructionLayout) →
      Except LayoutError (List (List InstructionLayout) × Bool)
  | block :: blocks, ls :: rest => do
    let head ← widenBlock I blockAddresses container sizeProbe block.ops ls
    let tail ← widenBlocks blockAddresses container sizeProbe blocks rest
    pure (head.1 :: tail.1, head.2 || tail.2)
  | _, rest => .ok (rest, false)

/-- The out-of-range pass over a whole plan. -/
def widenOutOfRange (plan : RewritePlan Mn Rg Op Mk) (layouts : List (List InstructionLayout))
    (blockAddresses : List U64) (container : Option Container) (sizeProbe : Bool) :
    Except LayoutError (List (List InstructionLayout) × Bool) :=
  widenBlocks I blockAddresses container sizeProbe plan.blocks layouts

/-! ## §3. The layout loop. -/

/-- Assign and widen until nothing grows, for at most `fuel` rounds. -/
def layOutRounds (plan : RewritePlan Mn Rg Op Mk) (base : U64) (container : Option Container)
    (sizeProbe : Bool) : Nat → List (List InstructionLayout) → Except LayoutError Layout
  | 0, _ => .error .didNotConverge
  | fuel + 1, layouts => do
    let assigned := assignAddresses layouts base
    let widened ← widenOutOfRange I plan assigned.1 assigned.2.1 container sizeProbe
    if widened.2 then
      layOutRounds plan base container sizeProbe fuel widened.1
    else
      pure
        { baseAddress := base
          totalSize := assigned.2.2
          blockAddresses := assigned.2.1
          instructionLayouts := widened.1 }

def layOutInner (plan : RewritePlan Mn Rg Op Mk) (base : U64) (container : Option Container)
    (sizeProbe : Bool) : Except LayoutError Layout :=
  layOutRounds I plan base container sizeProbe maxLayoutIterations (initialLayouts I plan)

/-- Lay out a plan at a base address. -/
def layOut (plan : RewritePlan Mn Rg Op Mk) (base : U64) (container : Option Container) :
    Except LayoutError Layout :=
  layOutInner I plan base container false

/-- Lay out a plan only to learn its size: an out-of-range unconditional
branch is not an error. -/
def layOutForSize (plan : RewritePlan Mn Rg Op Mk) (base : U64) (container : Option Container) :
    Except LayoutError Layout :=
  layOutInner I plan base container true

/-! ## §4. Blocks at given addresses. -/

/-- Lay out a plan with each block at an address of its own.  Nothing is
widened: an out-of-range conditional branch means that the layout failed. -/
def layOutScattered (plan : RewritePlan Mn Rg Op Mk) (blockAddresses : List U64)
    (container : Option Container) : Except LayoutError Layout :=
  if blockAddresses.length < plan.blocks.length then .error .indexOutOfBounds
  else
    let placed := List.zipWith (fun address ls => (assignBlock address ls).1) blockAddresses
      (initialLayouts I plan)
    match widenOutOfRange I plan placed blockAddresses container false with
    | .error e => .error e
    | .ok (widened, grew) =>
      if grew then .error .didNotConverge
      else
        .ok
          { baseAddress := blockAddresses.head?.getD 0
            totalSize := (placed.flatten.map InstructionLayout.size).sum
            blockAddresses := blockAddresses
            instructionLayouts := widened }

end Armv8Encode

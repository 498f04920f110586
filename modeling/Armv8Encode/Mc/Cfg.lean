/-
  Armv8Encode.Mc.Cfg — basic blocks and the control-flow graph.

  `build` takes the instructions of a linear sweep.  An index is a *leader*
  when it is the first one, follows a terminator, or is the target of a
  direct branch inside the slice; each block runs from one leader to the
  next, or to the first terminator on the way.  The ordered set of leaders
  is the list of indices that satisfy the leader test, in increasing order.
-/
import Mathlib.Data.List.Range
import Armv8Encode.Lib.Maps
import Armv8Encode.Mc.ControlFlow

namespace Armv8Encode

open Lib

/-! ## §1. Blocks and edges. -/

structure BasicBlockId where
  index : Nat
  deriving Repr, DecidableEq

inductive EdgeKind where
  | fallthrough
  | jump
  | branchTaken
  | call
  deriving Repr, DecidableEq

inductive EdgeTarget where
  | block (id : BasicBlockId)
  | external (address : U64)
  | indirect
  deriving Repr, DecidableEq

structure Edge where
  kind : EdgeKind
  target : EdgeTarget
  deriving Repr, DecidableEq

structure BasicBlock where
  id : BasicBlockId
  /-- Address of the first instruction. -/
  start : U64
  /-- Address one past the last instruction. -/
  endAddress : U64
  /-- Half-open range of indices into the instruction list. -/
  firstIndex : Nat
  endIndex : Nat
  terminator : Option ControlFlow
  successors : List Edge
  deriving Repr, DecidableEq

structure ControlFlowGraph where
  blocks : List BasicBlock
  deriving Repr, DecidableEq

/-- The instructions of a block. -/
def BasicBlock.slice {ι : Type} (b : BasicBlock) (instructions : List ι) : List ι :=
  (instructions.drop b.firstIndex).take (b.endIndex - b.firstIndex)

/-! ## §2. Leaders. -/

section Build

variable {ι : Type} (info : InstructionInfo ι) (instructions : List ι)

/-- Index of each instruction by address. -/
def addressToIndex : Map U64 Nat :=
  lastWins (instructions.zipIdx.map (fun p => (info.address p.1, p.2)))

/-- The leaders one instruction contributes: its successor in the slice when
it is a terminator, and its direct target when that lies in the slice. -/
def leadersOf (index : Nat) (instruction : ι) : List Nat :=
  let cf := info.controlFlow instruction
  if cf.isTerminator then
    (if index + 1 < instructions.length then [index + 1] else [])
      ++ (match cf.directTarget with
          | some target => (addressToIndex info instructions target).toList
          | none => [])
  else []

/-- Everything inserted into the leader set. -/
def insertedLeaders : List Nat :=
  0 :: (instructions.zipIdx.map (fun p => leadersOf info instructions p.2 p.1)).flatten

/-- The leader set, in increasing order. -/
def collectLeaders : List Nat :=
  (List.range instructions.length).filter (fun i => (insertedLeaders info instructions).contains i)

/-! ## §3. Blocks. -/

/-- Where the block that starts at `startIndex` ends, and its terminator: at
the first terminator before the next leader, else at the next leader. -/
def blockEnd (startIndex nextLeader : Nat) : Nat × Option ControlFlow :=
  let body := (instructions.drop startIndex).take (nextLeader - startIndex)
  match body.findIdx? (fun i => (info.controlFlow i).isTerminator) with
  | some k => (startIndex + k + 1, (body[k]?).map info.controlFlow)
  | none => (nextLeader, none)

/-- One block per leader; `nextId` counts the blocks pushed so far. -/
def formBlocks (nextId : Nat) : List Nat → List BasicBlock
  | [] => []
  | startIndex :: leaders =>
    let nextLeader := leaders.head?.getD instructions.length
    let ending := blockEnd info instructions startIndex nextLeader
    match instructions[startIndex]?, instructions[ending.1 - 1]? with
    | some first, some last =>
      { id := ⟨nextId⟩
        start := info.address first
        endAddress := info.address last + info.size last
        firstIndex := startIndex
        endIndex := ending.1
        terminator := ending.2
        successors := [] } :: formBlocks (nextId + 1) leaders
    | _, _ => formBlocks nextId leaders

/-! ## §4. Successors. -/

def resolveEdge (blockAtAddress : Map U64 BasicBlockId) (address : U64) : EdgeTarget :=
  match blockAtAddress address with
  | some id => .block id
  | none => .external address

/-- Outgoing edges of a block. -/
def successorsOf (blockAtAddress : Map U64 BasicBlockId) (b : BasicBlock) : List Edge :=
  match b.terminator with
  | none =>
    -- control falls into the next leader; an edge only for a block of the slice
    match resolveEdge blockAtAddress b.endAddress with
    | .block id => [⟨.fallthrough, .block id⟩]
    | _ => []
  | some .fall => []
  | some (.jump target) => [⟨.jump, resolveEdge blockAtAddress target⟩]
  | some (.conditionalJump target fallthrough) =>
    [⟨.branchTaken, resolveEdge blockAtAddress target⟩,
      ⟨.fallthrough, resolveEdge blockAtAddress fallthrough⟩]
  | some (.call target fallthrough) =>
    [⟨.call, resolveEdge blockAtAddress target⟩,
      ⟨.fallthrough, resolveEdge blockAtAddress fallthrough⟩]
  | some .return => []
  | some .indirectJump => [⟨.jump, .indirect⟩]
  | some (.indirectCall fallthrough) =>
    [⟨.call, .indirect⟩, ⟨.fallthrough, resolveEdge blockAtAddress fallthrough⟩]
  | some .trap => [⟨.fallthrough, resolveEdge blockAtAddress b.endAddress⟩]

/-- Which block starts at an address. -/
def blockStarts (blocks : List BasicBlock) : Map U64 BasicBlockId :=
  lastWins (blocks.map (fun b => (b.start, b.id)))

/-- Build the control-flow graph of a linear sweep. -/
def buildCfg : ControlFlowGraph :=
  if instructions.isEmpty then ⟨[]⟩
  else
    let blocks := formBlocks info instructions 0 (collectLeaders info instructions)
    ⟨blocks.map (fun b => { b with successors := successorsOf (blockStarts blocks) b })⟩

end Build

end Armv8Encode

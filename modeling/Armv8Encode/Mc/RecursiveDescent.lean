/-
  Armv8Encode.Mc.RecursiveDescent — disassembly along the control flow.

  Instructions are decoded only where control flow from an entry point leads;
  every other byte is data.  The A64 and the Thumb walker are the same code but
  for the alignment of instructions and the decoder, so both are instances of
  the definitions here.
-/
import Armv8Encode.Lib.Worklist
import Armv8Encode.Mc.ControlFlow

namespace Armv8Encode

open Lib

/-! ## §1. Results. -/

inductive DataReason where
  | decodeError
  | unreachable
  | padding
  deriving Repr, DecidableEq

structure DataRange where
  address : U64
  bytes : List Byte
  reason : DataReason
  deriving Repr, DecidableEq

structure Disassembly (ι : Type) where
  instructions : List ι
  dataRanges : List DataRange
  deriving Repr, DecidableEq

inductive TimelineEntry (ι : Type) where
  | instruction (i : ι)
  | data (range : DataRange)
  deriving Repr, DecidableEq

section Walker

variable {ι : Type} (info : InstructionInfo ι)

def TimelineEntry.address : TimelineEntry ι → U64
  | .instruction i => info.address i
  | .data range => range.address

/-- Instructions and data ranges in address order. -/
def Disassembly.timeline (d : Disassembly ι) : List (TimelineEntry ι) :=
  (d.instructions.map TimelineEntry.instruction ++ d.dataRanges.map TimelineEntry.data).mergeSort
    fun a b => decide ((a.address info).toNat ≤ (b.address info).toNat)

/-! ## §2. The walk.

`unit` is the alignment of instructions and `decodeAt` decodes the bytes at an
offset, which stand at an address. -/

variable (unit : Nat) (decodeAt : Nat → U64 → Option ι) (base : U64) (bytes : List Byte)

/-- The bytes that fill whole units. -/
def alignedLen : Nat := bytes.length - bytes.length % unit

/-- Aligned and inside the bytes. -/
def inRange (address : U64) : Bool :=
  decide (base.toNat ≤ address.toNat) &&
    decide (address.toNat < base.toNat + alignedLen unit bytes) &&
    (address.toNat - base.toNat) % unit == 0

/-- Decode the instruction at an address: where its target is queued and where
the walk goes on. -/
def visitAddress (address : U64) : Visit U64 (Option ι) :=
  match decodeAt (address.toNat - base.toNat) address with
  | none => ⟨none, [], none⟩
  | some i =>
    match info.controlFlow i with
    | .fall => ⟨some i, [], some (address + info.size i)⟩
    | .jump target => ⟨some i, [target], none⟩
    | .conditionalJump target fallthrough => ⟨some i, [target], some fallthrough⟩
    | .call target fallthrough => ⟨some i, [target], some fallthrough⟩
    | .return | .indirectJump => ⟨some i, [], none⟩
    | .indirectCall fallthrough => ⟨some i, [], some fallthrough⟩
    -- most traps return
    | .trap => ⟨some i, [], some (address + info.size i)⟩

/-- The walk over the instructions that the entry points lead to. -/
def descend (entries : List U64) : Walk U64 (Option ι) :=
  (Walk.start (inRange unit base bytes) entries).run (inRange unit base bytes)
    (visitAddress info decodeAt base) (3 * (alignedLen unit bytes / unit) + 2 * entries.length)

/-! ## §3. Instructions and data in order. -/

/-- A data range that is still open: the offset it starts at and its reason. -/
abbrev OpenRange := Option (Nat × DataReason)

/-- Close a data range at an offset. -/
def flushData (stop : Nat) : OpenRange → List DataRange
  | some (start, reason) =>
    [⟨base + BitVec.ofNat 64 start, (bytes.drop start).take (stop - start), reason⟩]
  | none => []

/-- The range that goes on over the unit at an offset. -/
def openRange (offset : Nat) (reason : DataReason) : OpenRange → OpenRange
  | some (start, reason') => if reason' = reason then some (start, reason') else some (offset, reason)
  | none => some (offset, reason)

/-- The range that a unit of another reason closes. -/
def closedRange (offset : Nat) (reason : DataReason) (range : OpenRange) : List DataRange :=
  match range with
  | some (_, reason') => if reason' = reason then [] else flushData base bytes offset range
  | none => []

/-- The bytes after the last whole unit. -/
def tailRange : List DataRange :=
  if alignedLen unit bytes < bytes.length then
    [⟨base + BitVec.ofNat 64 (alignedLen unit bytes), bytes.drop (alignedLen unit bytes), .padding⟩]
  else []

/-- Go over the units from an offset on: a visited instruction is emitted and
stepped over, any other unit is data. -/
def buildDisassembly (status : Map U64 (Option ι)) : Nat → Nat → OpenRange → Disassembly ι
  | 0, _, range =>
    ⟨[], flushData base bytes (alignedLen unit bytes) range ++ tailRange unit base bytes⟩
  | fuel + 1, offset, range =>
    if offset < alignedLen unit bytes then
      match status (base + BitVec.ofNat 64 offset) with
      | some (some i) =>
        let rest := buildDisassembly status fuel (offset + (info.size i).toNat) none
        ⟨i :: rest.instructions, flushData base bytes offset range ++ rest.dataRanges⟩
      | some none =>
        let rest := buildDisassembly status fuel (offset + unit) (openRange offset .decodeError range)
        ⟨rest.instructions, closedRange base bytes offset .decodeError range ++ rest.dataRanges⟩
      | none =>
        let rest := buildDisassembly status fuel (offset + unit) (openRange offset .unreachable range)
        ⟨rest.instructions, closedRange base bytes offset .unreachable range ++ rest.dataRanges⟩
    else
      ⟨[], flushData base bytes (alignedLen unit bytes) range ++ tailRange unit base bytes⟩

/-- Disassemble bytes from the entry points on.  There is no result when the
end address does not fit 64 bits, and none when the walk is cut off. -/
def disassembleRecursive (entries : List U64) : Option (Disassembly ι) :=
  if base.toNat + alignedLen unit bytes < 2 ^ 64 then
    let walk := descend info unit decodeAt base bytes entries
    if walk.isDone then
      some (buildDisassembly info unit base bytes walk.status (alignedLen unit bytes / unit) 0 none)
    else none
  else none

end Walker

end Armv8Encode

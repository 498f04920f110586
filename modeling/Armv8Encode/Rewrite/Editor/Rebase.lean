/-
  Armv8Encode.Rewrite.Editor.Rebase — appended content at its final base.

  The base of an append buffer is chosen before its size is known.  A commit
  that finds the content in `__TEXT` but in none of its free regions moves it
  above everything mapped: the appended symbols are moved first, then every
  retained plan is laid out and emitted again.  A commit that grows `__TEXT`
  emits the content of the opened gap again, where it is, after the symbols
  behind the gap have moved.
-/
import Armv8Encode.Rewrite.Editor.AppendFailures

namespace Armv8Encode

/-! ## §1. Targets behind an insertion. -/

/-- An absolute target at or behind a threshold, moved. -/
def Target.shift (threshold delta : Nat) : Target → Target
  | .absolute a =>
    if threshold ≤ a.toNat then .absolute (a + BitVec.ofNat 64 delta) else .absolute a
  | t => t

def RewriteOperand.shift {Op : Type} (threshold delta : Nat) :
    RewriteOperand Op → RewriteOperand Op
  | .decoded o => .decoded o
  | .branch t => .branch (t.shift threshold delta)
  | .page t => .page (t.shift threshold delta)

def RewriteOp.shift {Mn Rg Op Mk : Type} (threshold delta : Nat) :
    RewriteOp Mn Rg Op Mk → RewriteOp Mn Rg Op Mk
  | .instruction i =>
    .instruction { i with operands := i.operands.map (RewriteOperand.shift threshold delta) }
  | .macroOp m => .macroOp { m with target := m.target.shift threshold delta }
  | .raw bytes => .raw bytes

/-- The symbols that a predicate picks, moved. -/
def Container.shiftSymbols (c : Container) (picks : Symbol → Bool) (delta : Nat) : Container :=
  { c with
    symbols := c.symbols.map fun s =>
      { s with address := if picks s then s.address + BitVec.ofNat 64 delta else s.address }
    symbolIds := by
      rw [List.map_map, List.length_map]
      exact c.symbolIds }

namespace Editor

open Lib

def AnyPlan.shift (p : AnyPlan) (threshold delta : Nat) : AnyPlan :=
  letI := p.mnemonicEq
  letI := p.operandEq
  { isa := p.isa
    plan := ⟨p.plan.blocks.map fun b =>
      { b with ops := b.ops.map (RewriteOp.shift threshold delta) }⟩ }

def RetainedAppend.shift (threshold delta : Nat) : RetainedAppend → RetainedAppend
  | .function name offset plan => .function name offset (plan.shift threshold delta)
  | .data name offset bytes => .data name offset bytes

/-! ## §2. Rebasing. -/

/-- The position of the first symbol with an item's name at its address. -/
def itemSymbol (base : Nat) (c : Container) (item : RetainedAppend) : Option Nat :=
  c.symbols.findIdx? fun s =>
    s.name == item.name && s.address == BitVec.ofNat 64 (base + item.offset)

/-- Move the symbol of an item, where one is found. -/
def moveItem (oldBase newBase : Nat) (c : Container) (item : RetainedAppend) : Container :=
  match itemSymbol oldBase c item with
  | some i => c.moveSymbol i (BitVec.ofNat 64 (newBase + item.offset))
  | none => c

/-- Bytes put over a buffer, which grows where they end behind it. -/
def overwrite (buffer : List Byte) (start : Nat) (bytes : List Byte) : List Byte :=
  patch (buffer ++ List.replicate (start + bytes.length - buffer.length) 0) start bytes

/-- Write an item into the buffer: data as it is, a function emitted again. -/
def rewriteItem (newBase : Nat) (c : Container) (buffer : List Byte) :
    RetainedAppend → Except TextEditorError (List Byte)
  | .function name offset plan =>
    match plan.layOut (BitVec.ofNat 64 (newBase + offset)) c with
    | .error e => .error (.layout e)
    | .ok layout =>
      match plan.emit layout c with
      | .error e => .error (.emit e)
      | .ok output =>
        if !output.relocations.isEmpty then
          .error (.appendNeedsUnsupportedRelocation name output.relocations.length)
        else .ok (overwrite buffer offset output.bytes)
  | .data _ offset bytes => .ok (overwrite buffer offset bytes)

def AppendedFunctionsState.rebase (a : AppendedFunctionsState) (newBase : Nat) (c : Container) :
    Except TextEditorError (AppendedFunctionsState × Container) :=
  let c := a.items.foldl (moveItem a.segmentVaddr newBase) c
  match a.items.foldlM (rewriteItem newBase c) (List.replicate a.bytes.length 0) with
  | .error e => .error e
  | .ok bytes => .ok ({ a with segmentVaddr := newBase, bytes := bytes }, c)

/-! ## §3. What a commit does with appended content. -/

/-- Some free region of `__TEXT` holds all of it, and nothing needs a segment. -/
def intraTextEligible (st : BinaryState) (layout : MachO.MachOLayout)
    (a : AppendedFunctionsState) : Bool :=
  a.exports.isEmpty && st.pendingLibraryDeps.isEmpty &&
    layout.textFreeRegions.any fun r =>
      decide (r.vaddr ≤ a.segmentVaddr ∧ a.segmentVaddr + a.bytes.length ≤ r.vaddr + r.size)

/-- The base of the content lies in `__TEXT`. -/
def baseInText (layout : MachO.MachOLayout) (a : AppendedFunctionsState) : Bool :=
  match layout.segmentNamed "__TEXT" with
  | some t => decide (t.vmaddr ≤ a.segmentVaddr ∧ a.segmentVaddr < t.vmaddr + t.vmsize)
  | none => false

namespace BinaryState

/-- Where a commit moves the content, if it does. -/
def rebaseTarget (st : BinaryState) : Option Nat :=
  if st.container.format != .macho then none
  else
    match st.appended, st.machoLayout with
    | some a, some layout =>
      if baseInText layout a && !intraTextEligible st layout a then some (aboveMapped layout)
      else none
    | _, _ => none

/-- A buffer for what is written through the append segment. -/
def openForCommit (st : BinaryState) : Except TextEditorError BinaryState :=
  if st.appended.isNone && (!st.pendingLibraryDeps.isEmpty || st.appendedWritable.isSome) then
    match st.pickAppendVaddr with
    | .error e => .error e
    | .ok segmentVaddr => .ok { st with appended := some (.startAt segmentVaddr) }
  else .ok st

/-- Emit the content again at a base, and move its symbols there. -/
def rebaseAppended (st : BinaryState) (newBase : Nat) : Except TextEditorError BinaryState :=
  match st.appended with
  | none => .ok st
  | some a =>
    match a.rebase newBase st.container with
    | .error e => .error e
    | .ok (a, container) => .ok { st with appended := some a, container := container }

/-- The bytes that a growth of `__TEXT` inserts. -/
def growthDelta (st : BinaryState) (delta : Nat) : Nat :=
  if delta = 0 then
    (st.bufferLength + machoAppendPage - 1) / machoAppendPage * machoAppendPage
  else delta

/-- The ids of the appended symbols, which stay where they are in the gap. -/
def carvedSymbols (st : BinaryState) : List SymbolId :=
  match st.appended with
  | none => []
  | some a =>
    a.items.filterMap fun item =>
      (itemSymbol a.segmentVaddr st.container item).bind fun i =>
        (st.container.symbols[i]?).map Symbol.id

/-- Move what lies behind the insertion and emit the gap's content again. -/
def commitGrown (st : BinaryState) (point delta : Nat) : Except TextEditorError BinaryState :=
  match st.machoLayout.bind fun layout => layout.segmentNamed "__TEXT" with
  | none => .error .appendMissingElfImage
  | some text =>
    let insertVaddr := text.vmaddr + (point - text.fileoff)
    let moves (s : Symbol) : Bool :=
      decide (insertVaddr ≤ s.address.toNat) && !st.carvedSymbols.contains s.id
    let container := st.container.shiftSymbols moves delta
    match st.appended with
    | none => .ok { st with container := container }
    | some a =>
      let items := a.items.map (RetainedAppend.shift insertVaddr delta)
      { st with
        container := container
        appended := some { a with items := items } }.rebaseAppended a.segmentVaddr

/-- A commit that does not grow `__TEXT`. -/
def commitInPlace (st : BinaryState) : Except TextEditorError BinaryState :=
  match st.openForCommit with
  | .error e => .error e
  | .ok st =>
    match st.rebaseTarget with
    | none => .ok st
    | some newBase => st.rebaseAppended newBase

/-- The state whose buffer and symbols a commit writes. -/
def commitAppended (st : BinaryState) : Except TextEditorError BinaryState :=
  match st.pendingTextGrow with
  | none => st.commitInPlace
  | some (point, delta) =>
    if st.growthDelta delta = 0 then
      { st with pendingTextGrow := none, appended := none }.commitInPlace
    else st.commitGrown point (st.growthDelta delta)

end BinaryState

end Editor

end Armv8Encode

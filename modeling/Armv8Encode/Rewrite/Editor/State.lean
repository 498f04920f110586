/-
  Armv8Encode.Rewrite.Editor.State — the state of a whole-binary editor.

  A `BinaryState` is the container being edited and what a commit will add to
  it: the append buffer with the items it was built from, the writable buffer,
  queued overrides, and the reserved text region.  A `BinaryEditor` pairs it
  with the lifted text section, if one was lifted.

  The generic functions take a plan together with its instruction set
  (`AnyPlan`); the editor retains appended plans in the same form.  Addresses
  and offsets of the editor's own bookkeeping are natural numbers; a symbol's
  address and the address a plan is laid out at are 64-bit words.
-/
import Armv8Encode.Rewrite.Emit
import Armv8Encode.Rewrite.Space
import Armv8Encode.Rewrite.Editor.FreeRegions

namespace Armv8Encode

/-! ## §1. Symbols of a container. -/

theorem symbolIds_push {symbols : List Symbol} (s : Symbol)
    (hids : symbols.map Symbol.id = (List.range symbols.length).map SymbolId.mk)
    (hs : s.id = ⟨symbols.length⟩) :
    (symbols ++ [s]).map Symbol.id
      = (List.range (symbols ++ [s]).length).map SymbolId.mk := by
  rw [List.map_append, hids, List.length_append, List.length_singleton, List.range_succ,
    List.map_append]
  simp [hs]

theorem symbolIds_pop {symbols : List Symbol}
    (hids : symbols.map Symbol.id = (List.range symbols.length).map SymbolId.mk) :
    symbols.dropLast.map Symbol.id
      = (List.range symbols.dropLast.length).map SymbolId.mk := by
  rw [List.map_dropLast, hids, ← List.map_dropLast, List.length_dropLast]
  congr 1
  cases symbols.length with
  | zero => rfl
  | succ n => rw [List.range_succ, List.dropLast_concat, Nat.add_sub_cancel]

theorem symbolIds_modify {symbols : List Symbol} (i : Nat) {f : Symbol → Symbol}
    (hf : ∀ s, (f s).id = s.id)
    (hids : symbols.map Symbol.id = (List.range symbols.length).map SymbolId.mk) :
    (symbols.modify i f).map Symbol.id
      = (List.range (symbols.modify i f).length).map SymbolId.mk := by
  rw [List.length_modify, ← hids]
  refine List.ext_getElem? fun j => ?_
  rw [List.getElem?_map, List.getElem?_map, List.getElem?_modify]
  cases symbols[j]? with
  | none => rfl
  | some s =>
    show some (if i = j then f s else s).id = some s.id
    by_cases hij : i = j
    · rw [if_pos hij, hf s]
    · rw [if_neg hij]

namespace Container

/-- The container with one more defined symbol; its id is its position. -/
def pushSymbol (c : Container) (name : String) (address : U64) (kind : SymbolKind)
    (sectionId : Option SectionId) : Container :=
  { c with
    symbols := c.symbols ++ [⟨⟨c.symbols.length⟩, name, address, kind, sectionId, false⟩]
    symbolIds := symbolIds_push _ c.symbolIds rfl }

/-- The container without its last symbol. -/
def popSymbol (c : Container) : Container :=
  { c with
    symbols := c.symbols.dropLast
    symbolIds := symbolIds_pop c.symbolIds }

/-- The symbol at a position, at another address. -/
def moveSymbol (c : Container) (i : Nat) (address : U64) : Container :=
  { c with
    symbols := c.symbols.modify i fun s => { s with address := address }
    symbolIds := symbolIds_modify i (fun _ => rfl) c.symbolIds }

theorem popSymbol_pushSymbol (c : Container) (name : String) (address : U64) (kind : SymbolKind)
    (sectionId : Option SectionId) : (c.pushSymbol name address kind sectionId).popSymbol = c := by
  simp [pushSymbol, popSymbol]

theorem symbols_pushSymbol (c : Container) (name : String) (address : U64) (kind : SymbolKind)
    (sectionId : Option SectionId) :
    (c.pushSymbol name address kind sectionId).symbols
      = c.symbols ++ [⟨⟨c.symbols.length⟩, name, address, kind, sectionId, false⟩] := rfl

theorem symbol_pushSymbol {c : Container} {id : SymbolId} {s : Symbol} (h : c.symbol id = some s)
    (name : String) (address : U64) (kind : SymbolKind) (sectionId : Option SectionId) :
    (c.pushSymbol name address kind sectionId).symbol id = some s := by
  have hlt : id.index < c.symbols.length := (List.getElem?_eq_some_iff.mp h).1
  show (c.symbols ++ _)[id.index]? = some s
  rw [List.getElem?_append_left hlt]
  exact h

theorem symbol_pushSymbol_self (c : Container) (name : String) (address : U64) (kind : SymbolKind)
    (sectionId : Option SectionId) :
    (c.pushSymbol name address kind sectionId).symbol ⟨c.symbols.length⟩
      = some ⟨⟨c.symbols.length⟩, name, address, kind, sectionId, false⟩ :=
  List.getElem?_concat_length

end Container

/-! ## §2. Code of any instruction set. -/

/-- The error without the encoder's own detail. -/
def EmitError.erase {E : Type} : EmitError E → EmitError Unit
  | .encode _ => .encode ()
  | .layout e => .layout e
  | .invalidWidening => .invalidWidening
  | .missingWideningTarget => .missingWideningTarget
  | .noRelocationForMnemonic => .noRelocationForMnemonic
  | .malformedMacro => .malformedMacro

namespace Editor

/-- A rewrite plan with the instruction set it is written for. -/
structure AnyPlan : Type 1 where
  {Mn : Type}
  {Rg : Type}
  {Op : Type}
  {E : Type}
  {Mk : Type}
  {Di : Type}
  [mnemonicEq : DecidableEq Mn]
  [operandEq : DecidableEq Op]
  isa : Isa Mn Rg Op E Mk Di
  plan : RewritePlan Mn Rg Op Mk

namespace AnyPlan

def layOut (p : AnyPlan) (base : U64) (c : Container) : Except LayoutError Layout :=
  Armv8Encode.layOut p.isa p.plan base (some c)

def layOutForSize (p : AnyPlan) (base : U64) (c : Container) : Except LayoutError Layout :=
  Armv8Encode.layOutForSize p.isa p.plan base (some c)

def layOutScattered (p : AnyPlan) (blockAddresses : List U64) (c : Container) :
    Except LayoutError Layout :=
  Armv8Encode.layOutScattered p.isa p.plan blockAddresses (some c)

def emit (p : AnyPlan) (layout : Layout) (c : Container) : Except (EmitError Unit) EmitOutput :=
  letI := p.mnemonicEq
  letI := p.operandEq
  match Armv8Encode.emit p.isa p.plan layout (some c) with
  | .ok out => .ok out
  | .error e => .error e.erase

/-- No block has an op. -/
def isEmpty (p : AnyPlan) : Bool := p.plan.blocks.all fun b => b.ops.isEmpty

def opCount (p : AnyPlan) : Nat := (p.plan.blocks.map fun b => b.ops.length).sum

/-- The source sizes of each block, summed. -/
def blockSizes (p : AnyPlan) : List Nat :=
  p.plan.blocks.map fun b => (b.ops.map fun op => (p.isa.sourceByteSize op).toNat).sum

end AnyPlan

/-- A list of instructions with the instruction set they are written for. -/
structure AnyInstructions : Type 1 where
  {Mn : Type}
  {Rg : Type}
  {Op : Type}
  {E : Type}
  {Mk : Type}
  {Di : Type}
  [mnemonicEq : DecidableEq Mn]
  [operandEq : DecidableEq Op]
  isa : Isa Mn Rg Op E Mk Di
  instructions : List (RewriteInstruction Mn Op)

namespace AnyInstructions

/-- One block, with the idioms of the instruction set fused. -/
def fromInstructions (code : AnyInstructions) (c : Container) : AnyPlan :=
  letI := code.mnemonicEq
  letI := code.operandEq
  { isa := code.isa
    plan := ⟨[⟨⟨0⟩, code.isa.fuseMacros code.instructions (fun _ => none) (some c)
      (fun _ => none)⟩]⟩ }

/-- The size the mnemonics imply. -/
def bodyBytes (code : AnyInstructions) : Nat :=
  (code.instructions.map fun i => (code.isa.instructionSourceSize i.mnemonic).toNat).sum

end AnyInstructions

/-! ## §3. Errors. -/

inductive TextEditorError where
  | sectionNotFound (name : String)
  | symbolNotFound (name : String)
  | layout (e : LayoutError)
  | emit (e : EmitError Unit)
  | encodeUnimplemented (kind : String)
  | containerWrite (message : String)
  | emptyFunction (name : String)
  | appendUnsupportedKind (kind : ContainerKind)
  | appendMissingElfImage
  | appendNeedsUnsupportedRelocation (name : String) (count : Nat)
  | noExistingInitArray
  | noMatchingRelaDynEntry (initArrayVaddr : Nat)
  | noExistingRelaDyn
  | wouldCreateNewSegment (reason : String)
  | chainedFixupsBlobTooLarge (newSize capacity : Nat)
  | libraryDependencyNotFound (name : String)
  | reserveUnsupportedFormat (format : BinaryFormat)
  | textRegionAlreadyReserved
  | noSuchRegion
  | insufficientTextSpace (needed available : Nat)
  | wouldRequireTextGrowth (deficit : Nat)
  | regionFull (requested available : Nat)
  | reserveNeedsFrontEditsFirst
  | invalidAlignment
  deriving Repr, DecidableEq

def TextEditorError.ofReserve : Space.ReserveError → TextEditorError
  | .zeroAlign => .invalidAlignment
  | .insufficientFreeSpace needed largestAvailable =>
    .insufficientTextSpace needed largestAvailable
  | .growthRequired deficit => .wouldRequireTextGrowth deficit

def TextEditorError.ofCarve : Space.CarveError → TextEditorError
  | .zeroAlign => .invalidAlignment
  | .regionFull requested available => .regionFull requested available
  | .overflow => .regionFull Space.u64Max 0

/-! ## §4. The state. -/

/-- Handle of a reserved text region. -/
structure RegionId where
  index : Nat
  deriving Repr, DecidableEq

/-- One appended item, kept so that a commit can emit it at another base. -/
inductive RetainedAppend : Type 1 where
  | function (name : String) (offset : Nat) (plan : AnyPlan)
  | data (name : String) (offset : Nat) (bytes : List Byte)

namespace RetainedAppend

def name : RetainedAppend → String
  | .function name _ _ => name
  | .data name _ _ => name

/-- Where the item starts in the append buffer. -/
def offset : RetainedAppend → Nat
  | .function _ offset _ => offset
  | .data _ offset _ => offset

end RetainedAppend

/-- A symbol to promote to a dynamic export. -/
structure ExportedSymbol where
  name : String
  vaddr : U64
  deriving Repr, DecidableEq

/-- The append buffer, the items in it, and the exports among them. -/
structure AppendedFunctionsState : Type 1 where
  segmentVaddr : Nat
  bytes : List Byte
  exports : List ExportedSymbol
  items : List RetainedAppend

def AppendedFunctionsState.startAt (segmentVaddr : Nat) : AppendedFunctionsState :=
  ⟨segmentVaddr, [], [], []⟩

structure WritableState where
  segmentVaddr : Nat
  bytes : List Byte
  deriving Repr, DecidableEq

/-- What a whole-binary edit reads and changes.  `sectionNames` are the names
of the container's sections, in order. -/
structure BinaryState : Type 1 where
  container : Container
  sectionNames : List String
  machoLayout : Option MachO.MachOLayout
  appended : Option AppendedFunctionsState
  appendedWritable : Option WritableState
  sectionOverrides : List (Nat × List Byte)
  pendingAppendedInitSlots : List U64
  pendingLibraryDeps : List String
  forceSegmentPlacement : Bool
  noNewSegments : Bool
  machoRawByteOverrides : List (Nat × List Byte)
  reservedTextRegion : Option (RegionId × Space.Region)
  pendingTextGrow : Option (Nat × Nat)

/-- An editor without edits. -/
def BinaryState.new (container : Container) (sectionNames : List String)
    (machoLayout : Option MachO.MachOLayout) : BinaryState :=
  ⟨container, sectionNames, machoLayout, none, none, [], [], [], false, false, [], none, none⟩

/-- What a placement into freed text reads and changes of a lifted section, of
any instruction set: raw bytes put over the emitted ones, by address. -/
structure LiftedText where
  sectionId : SectionId
  baseAddress : U64
  overlays : List (Nat × List Byte)
  deriving Repr, DecidableEq

def LiftedText.overlayBytes (text : LiftedText) (va : Nat) (bytes : List Byte) : LiftedText :=
  { text with overlays := text.overlays ++ [(va, bytes)] }

structure BinaryEditor : Type 1 where
  binary : BinaryState
  text : Option LiftedText

end Editor

end Armv8Encode

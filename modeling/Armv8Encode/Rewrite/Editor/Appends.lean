/-
  Armv8Encode.Rewrite.Editor.Appends — new code and data in a binary.

  Appended code and read-only data share one buffer, which a commit writes at
  the base address chosen by the first append: free text of a Mach-O image, or
  a segment of its own.  A reserved text region is the same buffer with a
  cursor of its own; the region-scoped calls put their content at the cursor.

  A call that fails keeps what it had changed by then, as the source does, so
  every call returns the state together with its result.
-/
import Armv8Encode.Rewrite.Editor.HoleRuns

namespace Armv8Encode.Editor

open Lib
open Elf (maskUp InitialiserPosition rAarch64Relative)

/-! ## §1. Where appended content goes. -/

/-- The new symbol of a call, and the code it emitted. -/
structure Appended where
  symbol : SymbolId
  outputs : List EmitOutput
  deriving Repr, DecidableEq

/-- AArch64 instructions. -/
def ofAarchInstructions (instructions : List AarchInstruction) : AnyInstructions where
  isa := aarch64
  instructions := instructions

/-- Page size of an appended ELF segment. -/
def elfAppendPage : Nat := 0x10000

/-- Page size of an appended Mach-O segment. -/
def machoAppendPage : Nat := 0x4000

def machoAppendGap : Nat := 16 * machoAppendPage

/-- A page-aligned address a fixed gap above everything mapped. -/
def aboveMapped (layout : MachO.MachOLayout) : Nat :=
  max (alignUp (layout.maxVaddrEnd + machoAppendGap) machoAppendPage) machoAppendPage

/-- End of what the loads of an image map. -/
def loadEnd (image : ElfImage) : Nat :=
  ((image.programHeaders.filter fun p => p.pType == 1#32).map
    fun p => Space.saturatingAdd p.pVaddr.toNat p.pMemsz.toNat).foldl max 0

namespace BinaryState

/-- Only linked files take an appended segment. -/
def isLinked (st : BinaryState) : Bool :=
  match st.container.kind with
  | .sharedObject | .executable => true
  | _ => false

/-- Bytes in the append buffer. -/
def bufferLength (st : BinaryState) : Nat :=
  match st.appended with
  | some a => a.bytes.length
  | none => 0

/-- Pick an address for a fresh append buffer. -/
def pickAppendVaddr (st : BinaryState) : Except TextEditorError Nat :=
  match st.container.format with
  | .elf =>
    match st.container.elfImage with
    | none => .error .appendMissingElfImage
    | some image =>
      let floor := loadEnd image
      let floor :=
        match st.appended with
        | none => floor
        | some a => max floor (a.segmentVaddr + a.bytes.length)
      let floor :=
        match st.appendedWritable with
        | none => floor
        | some w => max floor (w.segmentVaddr + w.bytes.length)
      .ok (max (alignUp floor elfAppendPage) elfAppendPage)
  | .macho =>
    match st.machoLayout with
    | none => .error .appendMissingElfImage
    | some layout =>
      match if st.forceSegmentPlacement then none else layout.allocateInText 4 4 with
      | some (vaddr, _) => .ok vaddr
      | none =>
        if st.noNewSegments then
          .error (.wouldCreateNewSegment ("Mach-O `__TEXT` has no free region big enough for the "
            ++ "requested append, and prohibit_new_segments() forbids creating a new "
            ++ "`__APPENDED` segment"))
        else .ok (aboveMapped layout)
  | _ => .error (.appendUnsupportedKind st.container.kind)

/-- In strict mode, keep the payload inside the free region its base lies in. -/
def checkIntraTextCapacity (st : BinaryState) (additionalBytes : Nat) (opName : String) :
    Except TextEditorError Unit :=
  if !st.noNewSegments || st.container.format != .macho then .ok ()
  else
    match st.appended, st.machoLayout with
    | some a, some layout =>
      match layout.textFreeRegions.find? fun r =>
          decide (r.vaddr ≤ a.segmentVaddr ∧ a.segmentVaddr < r.vaddr + r.size) with
      | none => .ok ()
      | some region =>
        let used := a.segmentVaddr - region.vaddr + a.bytes.length
        if region.size < used + additionalBytes then
          .error (.wouldCreateNewSegment (s!"{opName} ({additionalBytes} bytes) exceeds the "
            ++ s!"available __TEXT free region (used {used} of {region.size} bytes); growing "
            ++ "into a new segment is forbidden by prohibit_new_segments()"))
        else .ok ()
    | _, _ => .ok ()

/-- The base address of the buffer that a call appends to, after its checks. -/
def openAppend (st : BinaryState) (newSize : Nat) (opName : String) :
    Except TextEditorError Nat :=
  if !st.isLinked then .error (.appendUnsupportedKind st.container.kind)
  else
    match st.checkIntraTextCapacity newSize opName with
    | .error e => .error e
    | .ok () =>
      match st.appended with
      | some a => .ok a.segmentVaddr
      | none => st.pickAppendVaddr

/-! ## §2. Appending code. -/

/-- Define a global symbol outside any section. -/
def registerAppended (st : BinaryState) (name : String) (address : Nat) (kind : SymbolKind) :
    BinaryState :=
  { st with container := st.container.pushSymbol name (BitVec.ofNat 64 address) kind none }

/-- The id of the symbol registered next. -/
def nextSymbol (st : BinaryState) : SymbolId := ⟨st.container.symbols.length⟩

/-- Zeros up to a multiple of four, where there is a buffer. -/
def padBuffer (st : BinaryState) : BinaryState :=
  match st.appended with
  | none => st
  | some a =>
    { st with
      appended := some { a with
        bytes := a.bytes ++ List.replicate (alignUp a.bytes.length 4 - a.bytes.length) 0 } }

/-- Add an item and its bytes at the end of the buffer. -/
def retain (st : BinaryState) (segmentVaddr : Nat) (item : RetainedAppend) (bytes : List Byte) :
    BinaryState :=
  let a := st.appended.getD (.startAt segmentVaddr)
  { st with appended := some { a with items := a.items ++ [item], bytes := a.bytes ++ bytes } }

/-- Lay out and emit a plan at the end of the buffer.  Its symbol is registered
first, so that the body can refer to itself.  A call that `inspects` the
relocations refuses them and takes the symbol back. -/
def appendPlan (st : BinaryState) (name : String) (segmentVaddr : Nat)
    (toPlan : Container → AnyPlan) (inspects : Bool) :
    Except TextEditorError Appended × BinaryState :=
  let padded := st.padBuffer
  let offset := padded.bufferLength
  let registered := padded.registerAppended name (segmentVaddr + offset) .function
  let p := toPlan registered.container
  match p.layOut (BitVec.ofNat 64 (segmentVaddr + offset)) registered.container with
  | .error e => (.error (.layout e), registered)
  | .ok layout =>
    match p.emit layout registered.container with
    | .error e => (.error (.emit e), registered)
    | .ok output =>
      if inspects && !output.relocations.isEmpty then
        (.error (.appendNeedsUnsupportedRelocation name output.relocations.length),
          { registered with container := registered.container.popSymbol })
      else
        (.ok ⟨padded.nextSymbol, [output]⟩,
          registered.retain segmentVaddr (.function name offset p) output.bytes)

def addFunctionGeneric (st : BinaryState) (name : String) (code : AnyInstructions) :
    Except TextEditorError Appended × BinaryState :=
  if code.instructions.isEmpty then (.error (.emptyFunction name), st)
  else
    match st.openAppend (code.bodyBytes + 3) s!"add_function({name.quote})" with
    | .error e => (.error e, st)
    | .ok segmentVaddr => st.appendPlan name segmentVaddr code.fromInstructions false

def addFunctionFromPlan (st : BinaryState) (name : String) (p : AnyPlan) :
    Except TextEditorError Appended × BinaryState :=
  if p.isEmpty then (.error (.emptyFunction name), st)
  else
    match st.openAppend (p.opCount * 8 + 3) s!"add_function_from_plan({name.quote})" with
    | .error e => (.error e, st)
    | .ok segmentVaddr => st.appendPlan name segmentVaddr (fun _ => p) true

def addFunction (st : BinaryState) (name : String) (instructions : List AarchInstruction) :
    Except TextEditorError Appended × BinaryState :=
  st.addFunctionGeneric name (ofAarchInstructions instructions)

/-- Queue a symbol for the dynamic symbol table; the source has an append
buffer by now. -/
def pushExport (st : BinaryState) (name : String) (symbol : SymbolId) : BinaryState :=
  match st.appended, st.container.symbol symbol with
  | some a, some s =>
    { st with appended := some { a with exports := a.exports ++ [⟨name, s.address⟩] } }
  | _, _ => st

def addFunctionExported (st : BinaryState) (name : String) (instructions : List AarchInstruction) :
    Except TextEditorError Appended × BinaryState :=
  if st.noNewSegments && st.container.format == .macho then
    (.error (.wouldCreateNewSegment (s!"add_function_exported({name.quote}) requires the "
      ++ "__APPENDED-segment writer to rebuild the export trie and symtab — incompatible with "
      ++ "prohibit_new_segments()")), st)
  else
    match { st with forceSegmentPlacement := true }.addFunction name instructions with
    | (.error e, st) => (.error e, st)
    | (.ok appended, st) => (.ok appended, st.pushExport name appended.symbol)

/-! ## §3. Initialisers. -/

/-- The bytes of a section with what was staged for it last. -/
def effectiveSectionBytes (st : BinaryState) (idx : Nat) : List Byte :=
  match st.sectionOverrides.reverse.find? fun o => o.1 == idx with
  | some (_, bytes) => bytes
  | none => ((st.container.sections[idx]?).map Section.bytes).getD []

/-- What a hijack redirects: a field of a section, and the constructor that it
leads to. -/
structure InitSlot where
  sectionIdx : Nat
  contents : List Byte
  fieldOffset : Nat
  width : Nat
  originalCtor : SymbolId
  deriving Repr, DecidableEq

def isDefinedFunction (address : U64) (s : Symbol) : Bool :=
  s.kind == .function && !s.isUndefined && s.address == address

/-- The slot of a position among `count` slots. -/
def slotIndex (count : Nat) : InitialiserPosition → Nat
  | .last => count - 1
  | _ => 0

/-- The entry of `.rela.dyn` that fixes up a slot: the first one for its address
that is relative, and its addend. -/
def findRelative (bytes : List Byte) (slotVaddr : Nat) : Nat → Nat → Option (Nat × Nat)
  | 0, _ => none
  | fuel + 1, off =>
    match readLe 8 bytes off, readLe 8 bytes (off + 8), readLe 8 bytes (off + 16) with
    | some rOffset, some rInfo, some rAddend =>
      if rOffset = slotVaddr ∧ rInfo % 2 ^ 32 = rAarch64Relative then some (off, rAddend)
      else findRelative bytes slotVaddr fuel (off + 24)
    | _, _, _ => none

/-- The slot of `.init_array` that a hijack takes. -/
def findInitArraySlot (st : BinaryState) (position : InitialiserPosition) :
    Except TextEditorError InitSlot :=
  match st.sectionNames.findIdx? (· == ".init_array") with
  | none => .error .noExistingInitArray
  | some idx =>
    match st.container.sections[idx]? with
    | none => .error .noExistingInitArray
    | some initArray =>
      if initArray.bytes.length < 8 then .error .noExistingInitArray
      else
        let slotVaddr := initArray.address.toNat
          + slotIndex (initArray.bytes.length / 8) position * 8
        match st.sectionNames.findIdx? (· == ".rela.dyn") with
        | none => .error (.noMatchingRelaDynEntry slotVaddr)
        | some relaIdx =>
          let relaDyn := st.effectiveSectionBytes relaIdx
          match findRelative relaDyn slotVaddr (relaDyn.length / 24) 0 with
          | none => .error (.noMatchingRelaDynEntry slotVaddr)
          | some (entry, addend) =>
            match st.container.symbols.find? (isDefinedFunction (BitVec.ofNat 64 addend)) with
            | none =>
              .error (.symbolNotFound
                ("<original ctor at vaddr 0x" ++ String.ofList (Nat.toDigits 16 addend) ++ ">"))
            | some ctor => .ok ⟨relaIdx, relaDyn, entry + 16, 8, ctor.id⟩

/-- The slot of `__init_offsets` that a hijack takes; none where the source
reads past the end of the section's bytes. -/
def findInitOffsetsSlot (st : BinaryState) (position : InitialiserPosition) :
    Option (Except TextEditorError InitSlot) :=
  match st.machoLayout with
  | none => some (.error .appendMissingElfImage)
  | some layout =>
    match layout.section? "__TEXT" "__init_offsets" with
    | none => some (.error .noExistingInitArray)
    | some s =>
      if s.size < 4 then some (.error .noExistingInitArray)
      else
        let field := slotIndex (s.size / 4) position * 4
        match st.container.sections.findIdx? fun sec => sec.address.toNat == s.vaddr with
        | none => some (.error .noExistingInitArray)
        | some idx =>
          let contents := ((st.container.sections[idx]?).map Section.bytes).getD []
          match readLe 4 contents field with
          | none => none
          | some offset =>
            match st.container.symbols.find? (isDefinedFunction (BitVec.ofNat 64 offset)) with
            | none =>
              some (.error (.symbolNotFound
                ("<original ctor at offset 0x" ++ String.ofList (Nat.toDigits 16 offset) ++ ">")))
            | some ctor => some (.ok ⟨idx, contents, field, 4, ctor.id⟩)

/-- An instruction the editor writes itself, given by its word. -/
def template (word : Word) : AarchInstruction :=
  match decodeInstruction 0 word with
  | .ok decoded => ⟨decoded.mnemonic, decoded.operands.map .decoded, none, none⟩
  | .error _ => ⟨.other "", [], none, none⟩

/-- The call template, aimed at a symbol. -/
def symbolicBl (target : SymbolId) : AarchInstruction :=
  let t := template 0x94000000#32
  { t with
    operands := t.operands.map fun
      | .decoded (.branchTarget _) => .branch (.symbol target)
      | o => o }

/-- Save the loader's arguments, call the body, restore them, call the original
constructor. -/
def wrapperBody (userBody originalCtor : SymbolId) : List AarchInstruction :=
  [template 0xa9bd7bfd#32, template 0xa90107e0#32, template 0xf90013e2#32, template 0x910003fd#32,
    symbolicBl userBody, template 0xa94107e0#32, template 0xf94013e2#32,
    symbolicBl originalCtor, template 0xa8c37bfd#32, template 0xd65f03c0#32]

/-- Append a body and a wrapper around it, and lead the slot to the wrapper. -/
def hijack (st : BinaryState) (name : String) (body : List AarchInstruction) (slot : InitSlot) :
    Except TextEditorError Appended × BinaryState :=
  match st.addFunction (name ++ "__body") body with
  | (.error e, st) => (.error e, st)
  | (.ok user, st) =>
    match st.addFunction (name ++ "__wrapper") (wrapperBody user.symbol slot.originalCtor) with
    | (.error e, st) => (.error e, st)
    | (.ok wrapper, st) =>
      let vaddr := ((st.container.symbol wrapper.symbol).map Symbol.address).getD 0
      (.ok ⟨user.symbol, user.outputs ++ wrapper.outputs⟩,
        { st with
          sectionOverrides := st.sectionOverrides ++ [(slot.sectionIdx,
            patch slot.contents slot.fieldOffset (leBytes slot.width vaddr.toNat))] })

def addInitialiserMacho (st : BinaryState) (name : String) (body : List AarchInstruction)
    (position : InitialiserPosition) : Option (Except TextEditorError Appended × BinaryState) :=
  match position with
  | .append =>
    some (.error (.encodeUnimplemented "Mach-O add_initialiser(Append) not yet implemented"), st)
  | _ =>
    match st.findInitOffsetsSlot position with
    | none => none
    | some (.error e) => some (.error e, st)
    | some (.ok slot) => some (st.hijack name body slot)

/-- A new slot: the body is registered now, the slot is made at commit. -/
def appendInitialiser (st : BinaryState) (name : String) (body : List AarchInstruction) :
    Except TextEditorError Appended × BinaryState :=
  if !st.sectionNames.any (· == ".rela.dyn") then (.error .noExistingRelaDyn, st)
  else if st.container.elfImage.isNone then (.error .appendMissingElfImage, st)
  else
    match st.addFunction (name ++ "__body") body with
    | (.error e, st) => (.error e, st)
    | (.ok user, st) =>
      let vaddr := ((st.container.symbol user.symbol).map Symbol.address).getD 0
      (.ok user,
        { st with pendingAppendedInitSlots := st.pendingAppendedInitSlots ++ [vaddr] })

/-- None where the source panics. -/
def addInitialiser (st : BinaryState) (name : String) (body : List AarchInstruction)
    (position : InitialiserPosition) : Option (Except TextEditorError Appended × BinaryState) :=
  if body.isEmpty then some (.error (.emptyFunction name), st)
  else if !st.isLinked then some (.error (.appendUnsupportedKind st.container.kind), st)
  else if st.container.format == .macho then st.addInitialiserMacho name body position
  else
    match position with
    | .append => some (st.appendInitialiser name body)
    | _ =>
      match st.findInitArraySlot position with
      | .error e => some (.error e, st)
      | .ok slot => some (st.hijack name body slot)

end BinaryState

end Armv8Encode.Editor

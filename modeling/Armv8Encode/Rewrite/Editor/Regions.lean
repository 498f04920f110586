/-
  Armv8Encode.Rewrite.Editor.Regions — reserved text and appended data.

  A reservation pins a span of free text and seeds the append buffer at its
  base; the region-scoped calls carve slices out of the span and bring the
  buffer to the slice's offset before they write.  The plain calls go on at
  the end of the buffer and do not move the region's cursor.

  The file ends with the append operations as one type of calls.
-/
import Armv8Encode.Rewrite.Editor.Appends

namespace Armv8Encode.Editor

open Elf (maskUp)

/-! ## §1. Reserving text. -/

/-- The result of a successful reservation. -/
structure Reservation where
  region : RegionId
  baseAddress : Nat
  baseFileOffset : Nat
  capacity : Nat
  sources : List (Space.SpaceSource × Nat)
  deriving Repr, DecidableEq

/-- The free runs of `__TEXT` by address; the highest one is the tail pad. -/
def machoTextFreeExtents (layout : MachO.MachOLayout) : List Space.FreeExtent :=
  let regions := (layout.textFreeRegions.filter fun r => r.segmentName == "__TEXT").mergeSort
    fun a b => decide (a.vaddr ≤ b.vaddr)
  regions.mapIdx fun i r =>
    ⟨r.vaddr, r.fileOffset, r.size,
      if i = regions.length - 1 then .tailPad else .interSectionHole⟩

/-- Where growing `__TEXT` inserts its pages: the first section's offset in the
file, and its address. -/
def growthPoint (layout : MachO.MachOLayout) : Option (Nat × Nat) := do
  let text ← layout.segmentNamed "__TEXT"
  let offsets := (layout.sections.filter fun s =>
    s.segname == "__TEXT" && decide (0 < s.fileOffset)).map MachO.MachOSection.fileOffset
  let point ← offsets.min?
  some (point, text.vmaddr + (point - text.fileoff))

namespace BinaryState

/-- Reserve a region at a base and seed the append buffer there. -/
def reserveAt (st : BinaryState) (region : Space.Region) : BinaryState :=
  { st with
    appended := some (.startAt region.baseAddress)
    reservedTextRegion := some (⟨0⟩, region) }

/-- Reserve the gap that growing `__TEXT` by whole pages opens. -/
def setupGrowReservation (st : BinaryState) (needed : Nat) :
    Except TextEditorError Reservation × BinaryState :=
  match st.machoLayout.bind growthPoint with
  | none => (.error .appendMissingElfImage, st)
  | some (point, baseAddress) =>
    let pages := max ((needed + machoAppendPage - 1) / machoAppendPage) 1
    let delta := pages * machoAppendPage
    (.ok ⟨⟨0⟩, baseAddress, point, delta, [(.grewText pages, delta)]⟩,
      { st.reserveAt (.new baseAddress point delta (.grewText pages)) with
        pendingTextGrow := some (point, delta) })

/-- What both kinds of reservation refuse. -/
def checkReservable (st : BinaryState) : Except TextEditorError Unit :=
  if st.container.format != .macho then
    .error (.reserveUnsupportedFormat st.container.format)
  else if !st.pendingLibraryDeps.isEmpty || st.forceSegmentPlacement then
    .error .reserveNeedsFrontEditsFirst
  else if st.reservedTextRegion.isSome || st.appended.isSome then
    .error .textRegionAlreadyReserved
  else .ok ()

def reserveTextRegion (st : BinaryState) (req : Space.ReserveRequest) :
    Except TextEditorError Reservation × BinaryState :=
  match st.checkReservable with
  | .error e => (.error e, st)
  | .ok () =>
    match st.machoLayout with
    | none => (.error .appendMissingElfImage, st)
    | some layout =>
      match Space.planReservation (machoTextFreeExtents layout) req with
      | .ok plan =>
        (.ok ⟨⟨0⟩, plan.baseAddress, plan.baseFileOffset, plan.capacity,
            [(plan.source, plan.capacity)]⟩, st.reserveAt plan.region)
      | .error (.growthRequired _) => st.setupGrowReservation req.needed
      | .error e => (.error (.ofReserve e), st)

/-- Seed the buffer in the gap of a growth that is sized at commit. -/
def reserveTextGrow (st : BinaryState) : Except TextEditorError Unit × BinaryState :=
  match st.checkReservable with
  | .error e => (.error e, st)
  | .ok () =>
    match st.machoLayout.bind growthPoint with
    | none => (.error .appendMissingElfImage, st)
    | some (point, baseAddress) =>
      (.ok (), { st with
        pendingTextGrow := some (point, 0)
        appended := some (.startAt baseAddress) })

/-! ## §2. Region-scoped calls. -/

def activeRegion (st : BinaryState) (region : RegionId) : Except TextEditorError Space.Region :=
  match st.reservedTextRegion with
  | some (id, r) => if id = region then .ok r else .error .noSuchRegion
  | none => .error .noSuchRegion

/-- Where the next carve in a region would land. -/
def nextAddressIn (st : BinaryState) (region : RegionId) (align : Nat) :
    Except TextEditorError Nat :=
  if align = 0 then .error .invalidAlignment
  else
    match st.activeRegion region with
    | .error e => .error e
    | .ok r =>
      match Space.checkedAdd r.baseAddress r.used with
      | none => .error (.regionFull 0 r.remaining)
      | some cur =>
        match Space.roundUp cur align with
        | none => .error (.regionFull 0 r.remaining)
        | some address => .ok address

/-- Carve a slice out of a region. -/
def carveIn (st : BinaryState) (region : RegionId) (len align : Nat) :
    Except TextEditorError Space.Carve × BinaryState :=
  match st.activeRegion region with
  | .error e => (.error e, st)
  | .ok r =>
    match r.carve len align with
    | (.error e, _) => (.error (.ofCarve e), st)
    | (.ok carve, r') => (.ok carve, { st with reservedTextRegion := some (region, r') })

/-- Cut to a length, or fill with zeros up to it. -/
def resize (bytes : List Byte) (n : Nat) : List Byte :=
  bytes.take n ++ List.replicate (n - bytes.length) 0

/-- Carve a slice for some bytes, bring the buffer to the slice, write the bytes
there and define their symbol. -/
def placeInRegion (st : BinaryState) (region : RegionId) (name : String) (bytes : List Byte)
    (align : Nat) (kind : SymbolKind) (item : Nat → RetainedAppend) :
    Except TextEditorError SymbolId × BinaryState :=
  match st.carveIn region bytes.length align with
  | (.error e, st) => (.error e, st)
  | (.ok carve, st) =>
    match st.appended with
    | none => (.error .noSuchRegion, st)
    | some a =>
      (.ok st.nextSymbol,
        { st with
          appended := some { a with
            bytes := resize a.bytes carve.offsetInRegion ++ bytes
            items := a.items ++ [item carve.offsetInRegion] }
          container := st.container.pushSymbol name (BitVec.ofNat 64 carve.address) kind none })

/-- Lay out and emit a plan where the next carve lands, then place it there.
Its symbol is defined last, so the body cannot refer to itself. -/
def placePlanInRegion (st : BinaryState) (region : RegionId) (name : String) (p : AnyPlan)
    (inspects : Bool) : Except TextEditorError Appended × BinaryState :=
  match st.nextAddressIn region 4 with
  | .error e => (.error e, st)
  | .ok target =>
    match p.layOut (BitVec.ofNat 64 target) st.container with
    | .error e => (.error (.layout e), st)
    | .ok layout =>
      match p.emit layout st.container with
      | .error e => (.error (.emit e), st)
      | .ok output =>
        if inspects && !output.relocations.isEmpty then
          (.error (.appendNeedsUnsupportedRelocation name output.relocations.length), st)
        else
          match st.placeInRegion region name output.bytes 4 .function
              (fun offset => .function name offset p) with
          | (.error e, st) => (.error e, st)
          | (.ok symbol, st) => (.ok ⟨symbol, [output]⟩, st)

def addFunctionIn (st : BinaryState) (region : RegionId) (name : String)
    (instructions : List AarchInstruction) : Except TextEditorError Appended × BinaryState :=
  if instructions.isEmpty then (.error (.emptyFunction name), st)
  else
    st.placePlanInRegion region name
      ((ofAarchInstructions instructions).fromInstructions st.container) false

def addFunctionFromPlanIn (st : BinaryState) (region : RegionId) (name : String) (p : AnyPlan) :
    Except TextEditorError Appended × BinaryState :=
  if p.isEmpty then (.error (.emptyFunction name), st)
  else st.placePlanInRegion region name p true

def placeRawInRegion (st : BinaryState) (region : RegionId) (name : String) (bytes : List Byte)
    (align : Nat) (kind : SymbolKind) : Except TextEditorError SymbolId × BinaryState :=
  if align = 0 then (.error .invalidAlignment, st)
  else st.placeInRegion region name bytes align kind fun offset => .data name offset bytes

def addDataIn (st : BinaryState) (region : RegionId) (name : String) (bytes : List Byte)
    (align : Nat) : Except TextEditorError SymbolId × BinaryState :=
  st.placeRawInRegion region name bytes align .object

def addRawCodeIn (st : BinaryState) (region : RegionId) (name : String) (bytes : List Byte)
    (align : Nat) : Except TextEditorError SymbolId × BinaryState :=
  st.placeRawInRegion region name bytes align .function

/-! ## §3. Appended data. -/

/-- Read-only data at an aligned offset of the append buffer. -/
def addData (st : BinaryState) (name : String) (bytes : List Byte) (align : Nat) :
    Except TextEditorError SymbolId × BinaryState :=
  match st.openAppend (bytes.length + (align - 1)) s!"add_data({name.quote})" with
  | .error e => (.error e, st)
  | .ok segmentVaddr =>
    let a := st.appended.getD (.startAt segmentVaddr)
    let offset := maskUp a.bytes.length align
    (.ok st.nextSymbol,
      { st with
        appended := some { a with
          bytes := resize a.bytes offset ++ bytes
          items := a.items ++ [.data name offset bytes] }
        container := st.container.pushSymbol name (BitVec.ofNat 64 (a.segmentVaddr + offset))
          .object none })

/-- Data that the running program may write, in a segment of its own. -/
def addWritableData (st : BinaryState) (name : String) (bytes : List Byte) (align : Nat) :
    Except TextEditorError SymbolId × BinaryState :=
  if !st.isLinked || st.container.format != .elf then
    (.error (.appendUnsupportedKind st.container.kind), st)
  else
    match st.checkIntraTextCapacity (bytes.length + (align - 1))
        s!"add_writable_data({name.quote})" with
    | .error e => (.error e, st)
    | .ok () =>
      match (match st.appendedWritable with
        | some w => Except.ok w.segmentVaddr
        | none => st.pickAppendVaddr) with
      | .error e => (.error e, st)
      | .ok segmentVaddr =>
        let w := st.appendedWritable.getD ⟨segmentVaddr, []⟩
        let offset := maskUp w.bytes.length align
        (.ok st.nextSymbol,
          { st with
            appendedWritable := some { w with bytes := resize w.bytes offset ++ bytes }
            container := st.container.pushSymbol name (BitVec.ofNat 64 (w.segmentVaddr + offset))
              .object none })

end BinaryState

/-! ## §4. The calls. -/

/-- One append operation of the editor with its arguments. -/
inductive AppendCall : Type 1 where
  | addFunctionGeneric (name : String) (code : AnyInstructions)
  | addFunctionFromPlan (name : String) (plan : AnyPlan)
  | addFunctionExported (name : String) (instructions : List AarchInstruction)
  | addInitialiser (name : String) (body : List AarchInstruction)
      (position : Elf.InitialiserPosition)
  | addData (name : String) (bytes : List Byte) (align : Nat)
  | addWritableData (name : String) (bytes : List Byte) (align : Nat)
  | addFunctionIn (region : RegionId) (name : String) (instructions : List AarchInstruction)
  | addFunctionFromPlanIn (region : RegionId) (name : String) (plan : AnyPlan)
  | addDataIn (region : RegionId) (name : String) (bytes : List Byte) (align : Nat)
  | addRawCodeIn (region : RegionId) (name : String) (bytes : List Byte) (align : Nat)
  | nextAddressIn (region : RegionId) (align : Nat)

/-- What a call answers: an address it looked up, or the symbol it defined with
the code it emitted for it. -/
inductive Answer where
  | address (vaddr : Nat)
  | symbol (appended : Appended)
  deriving Repr, DecidableEq

/-- The answer of a call that defined a symbol for data. -/
def Answer.ofData : Except TextEditorError SymbolId × BinaryState →
    Except TextEditorError Answer × BinaryState
  | (.ok id, st) => (.ok (.symbol ⟨id, []⟩), st)
  | (.error e, st) => (.error e, st)

/-- The answer of a call that emitted code. -/
def Answer.ofCode : Except TextEditorError Appended × BinaryState →
    Except TextEditorError Answer × BinaryState
  | (.ok appended, st) => (.ok (.symbol appended), st)
  | (.error e, st) => (.error e, st)

/-- Make a call; none where the source panics. -/
def AppendCall.run (st : BinaryState) :
    AppendCall → Option (Except TextEditorError Answer × BinaryState)
  | .addFunctionGeneric name code => some (Answer.ofCode (st.addFunctionGeneric name code))
  | .addFunctionFromPlan name plan => some (Answer.ofCode (st.addFunctionFromPlan name plan))
  | .addFunctionExported name instructions =>
    some (Answer.ofCode (st.addFunctionExported name instructions))
  | .addInitialiser name body position => (st.addInitialiser name body position).map Answer.ofCode
  | .addData name bytes align => some (Answer.ofData (st.addData name bytes align))
  | .addWritableData name bytes align => some (Answer.ofData (st.addWritableData name bytes align))
  | .addFunctionIn region name instructions =>
    some (Answer.ofCode (st.addFunctionIn region name instructions))
  | .addFunctionFromPlanIn region name plan =>
    some (Answer.ofCode (st.addFunctionFromPlanIn region name plan))
  | .addDataIn region name bytes align => some (Answer.ofData (st.addDataIn region name bytes align))
  | .addRawCodeIn region name bytes align =>
    some (Answer.ofData (st.addRawCodeIn region name bytes align))
  | .nextAddressIn region align =>
    match st.nextAddressIn region align with
    | .ok address => some (.ok (.address address), st)
    | .error e => some (.error e, st)

end Armv8Encode.Editor

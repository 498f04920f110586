/-
  Armv8Encode.Rewrite.Editor.AppendRuns — sessions of reservations and appends.

  Whatever a call answers, what it does to the appended content is made of two
  kinds of changes: quiet ones, which seed or pad the buffer or define a symbol,
  and items put at an offset of the buffer with their symbols.  What these
  changes keep is kept by every sequence of calls.

  A region-scoped call cuts the buffer at its slice, so it removes what a plain
  call has put behind the region's cursor; nothing else removes an item's bytes.

  Main results:
    * `logs_run` — every call is made of such changes.
    * `session_tracks` — after every session the items of the buffer have their
      own symbols, in order, each at its item's address, and an item's bytes
      stand in the buffer unless a later item starts before their end.
    * `session_keepsSymbols` — what no call takes back.
-/
import Armv8Encode.Lib.PlacedLog
import Armv8Encode.Rewrite.Editor.AppendRelocations
import Armv8Encode.Rewrite.SpaceSpec

namespace Armv8Encode.Editor

open Lib
open Elf (maskUp)

/-! ## §1. Sessions. -/

/-- A call of the editor that reserves text or appends. -/
inductive SessionCall : Type 1 where
  | reserveTextRegion (req : Space.ReserveRequest)
  | reserveTextGrow
  | append (call : AppendCall)

inductive SessionAnswer where
  | reserved (reservation : Reservation)
  | growing
  | appended (answer : Answer)

/-- Make a call; none where the source panics. -/
def SessionCall.run (st : BinaryState) :
    SessionCall → Option (Except TextEditorError SessionAnswer × BinaryState)
  | .reserveTextRegion req =>
    some ((st.reserveTextRegion req).1.map .reserved, (st.reserveTextRegion req).2)
  | .reserveTextGrow => some (st.reserveTextGrow.1.map fun _ => .growing, st.reserveTextGrow.2)
  | .append call => (call.run st).map fun result => (result.1.map .appended, result.2)

/-- A call that was made, between two states. -/
structure Made : Type 1 where
  before : BinaryState
  call : SessionCall
  answer : Except TextEditorError SessionAnswer
  after : BinaryState

/-- Calls that were made one after the other; none of them panicked. -/
inductive Session : BinaryState → List Made → BinaryState → Prop
  | done (st : BinaryState) : Session st [] st
  | call {st st' last : BinaryState} {call : SessionCall}
      {answer : Except TextEditorError SessionAnswer} {made : List Made}
      (hrun : call.run st = some (answer, st')) (hrest : Session st' made last) :
      Session st (⟨st, call, answer, st'⟩ :: made) last

/-! ## §2. The changes that a call is made of. -/

/-- An item that was put into the buffer, with its symbol and its bytes. -/
structure Entry : Type 1 where
  item : RetainedAppend
  symbol : SymbolId
  bytes : List Byte

def Entry.offset (e : Entry) : Nat := e.item.offset

def Entry.put (e : Entry) : SymbolId × List Byte := (e.symbol, e.bytes)

namespace BinaryState

/-- The base, the bytes and the items of the append buffer. -/
def content (st : BinaryState) : Option (Nat × List Byte × List RetainedAppend) :=
  st.appended.map fun a => (a.segmentVaddr, a.bytes, a.items)

def base? (st : BinaryState) : Option Nat := st.content.map Prod.fst

def buffer (st : BinaryState) : List Byte := (st.content.map fun c => c.2.1).getD []

def items (st : BinaryState) : List RetainedAppend := (st.content.map fun c => c.2.2).getD []

/-- The base of the reserved region. -/
def regionBase (st : BinaryState) : Option Nat :=
  st.reservedTextRegion.map fun r => r.2.baseAddress

/-- A region is reserved at the base of the append buffer. -/
def Anchored (st : BinaryState) : Prop :=
  ∀ base, st.regionBase = some base → st.base? = some base

/-- Put an item into the buffer at its offset, and define its symbol. -/
def place (st : BinaryState) (base : Nat) (kind : SymbolKind) (item : RetainedAppend)
    (bytes : List Byte) : BinaryState :=
  let a := st.appended.getD (.startAt base)
  { st with
    appended := some { a with
      bytes := resize a.bytes item.offset ++ bytes
      items := a.items ++ [item] }
    container := st.container.pushSymbol item.name
      (BitVec.ofNat 64 (a.segmentVaddr + item.offset)) kind none }

/-- Symbols stay, and so does the base of the buffer. -/
structure Keeps (st s : BinaryState) : Prop where
  symbol : ∀ id sym, st.container.symbol id = some sym → s.container.symbol id = some sym
  base : ∀ base, st.base? = some base → s.base? = some base

/-- No item is put into the buffer, and no byte of it is lost. -/
structure Quiet (st s : BinaryState) : Prop extends Keeps st s where
  items : s.items = st.items
  buffer : st.buffer <+: s.buffer
  anchored : st.Anchored → s.Anchored

/-- A sequence of changes, with the entries that it puts into the buffer. -/
inductive Changes (st : BinaryState) : List Entry → BinaryState → Prop
  | none : Changes st [] st
  | quiet {log : List Entry} {s s' : BinaryState} (h : Changes st log s) (hquiet : s.Quiet s') :
      Changes st log s'
  | place {log : List Entry} {s : BinaryState} (h : Changes st log s) (base : Nat)
      (kind : SymbolKind) (item : RetainedAppend) (bytes : List Byte) :
      Changes st (log ++ [⟨item, s.nextSymbol, bytes⟩]) (s.place base kind item bytes)

/-- A call is made of changes; where it succeeds, one of the entries it has put
has the symbol and the bytes of its answer. -/
def Puts {α : Type} (st : BinaryState) (put : α → Option (SymbolId × List Byte))
    (result : Except TextEditorError α × BinaryState) : Prop :=
  ∃ log, st.Changes log result.2 ∧ ∀ appended, result.1 = .ok appended →
    ∃ e ∈ log, put appended = some e.put

end BinaryState

/-- The symbol of an appended function with its code; an initialiser's own code
comes first. -/
def Appended.put (appended : Appended) : Option (SymbolId × List Byte) :=
  appended.outputs.head?.map fun output => (appended.symbol, output.bytes)

namespace BinaryState

variable {st s s' : BinaryState} {log log' : List Entry}

theorem Changes.trans (h : st.Changes log s) (h' : s.Changes log' s') :
    st.Changes (log ++ log') s' := by
  induction h' with
  | none =>
    rw [List.append_nil]
    exact h
  | quiet _ hquiet ih => exact ih.quiet hquiet
  | place _ base kind item bytes ih =>
    rw [← List.append_assoc]
    exact ih.place base kind item bytes

/-! ### Quiet changes. -/

theorem Keeps.refl (st : BinaryState) : st.Keeps st := ⟨fun _ _ => id, fun _ => id⟩

theorem Keeps.trans (h : st.Keeps s) (h' : s.Keeps s') : st.Keeps s' :=
  ⟨fun id sym hsym => h'.symbol id sym (h.symbol id sym hsym),
    fun base hbase => h'.base base (h.base base hbase)⟩

/-- Symbols stay, the appended content and the place reserved are the same. -/
theorem Quiet.of_same
    (hsymbol : ∀ id sym, st.container.symbol id = some sym → s.container.symbol id = some sym)
    (hregion : s.regionBase = st.regionBase) (hcontent : s.content = st.content) : st.Quiet s := by
  have hbase : s.base? = st.base? := congrArg (Option.map Prod.fst) hcontent
  have hitems : s.items = st.items := by
    rw [BinaryState.items, BinaryState.items, hcontent]
  have hbuffer : s.buffer = st.buffer := by
    rw [BinaryState.buffer, BinaryState.buffer, hcontent]
  exact ⟨⟨hsymbol, fun base h => hbase.trans h⟩, hitems, hbuffer ▸ List.prefix_refl _,
    fun h base hat => hbase.trans (h base (hregion ▸ hat))⟩

theorem quiet_padBuffer (st : BinaryState) : st.Quiet st.padBuffer := by
  unfold padBuffer
  split
  · exact .of_same (fun _ _ => id) rfl rfl
  · next a happended =>
    have hcontent : st.content = some (a.segmentVaddr, a.bytes, a.items) := by
      rw [content, happended]
      rfl
    have hbase : st.base? = some a.segmentVaddr := by rw [base?, hcontent]; rfl
    have hitems : st.items = a.items := by rw [BinaryState.items, hcontent]; rfl
    have hbuffer : st.buffer = a.bytes := by rw [BinaryState.buffer, hcontent]; rfl
    exact ⟨⟨fun _ _ => id, fun base h => hbase.symm.trans h⟩, hitems.symm,
      hbuffer ▸ List.prefix_append _ _, fun h base hat => hbase.symm.trans (h base hat)⟩

theorem quiet_registerAppended (st : BinaryState) (name : String) (address : Nat)
    (kind : SymbolKind) : st.Quiet (st.registerAppended name address kind) :=
  .of_same (fun _ _ hsym => Container.symbol_pushSymbol hsym _ _ _ _) rfl rfl

/-- An empty buffer; a region is only reserved at its base. -/
theorem quiet_seed (hfree : st.appended = none) (base : Nat)
    {region : Option (RegionId × Space.Region)} (grow : Option (Nat × Nat))
    (hregion : ∀ r, region = some r → r.2.baseAddress = base) :
    st.Quiet { st with
      appended := some (.startAt base)
      reservedTextRegion := region
      pendingTextGrow := grow } := by
  refine ⟨⟨fun _ _ => id, fun b hbase => ?_⟩, ?_, ?_, fun _ b hb => ?_⟩
  · rw [base?, content, hfree] at hbase
    cases hbase
  · simp only [items, content, hfree]
    rfl
  · simp only [buffer, content, hfree, Option.map_none, Option.getD_none, List.nil_prefix]
  · obtain ⟨r, hr, rfl⟩ := Option.map_eq_some_iff.mp hb
    rw [hregion r hr]
    rfl

section Puts

variable {α : Type} {put : α → Option (SymbolId × List Byte)}

/-- A call that changes nothing that was appended and answers no symbol. -/
theorem Puts.refused (e : TextEditorError) : st.Puts put (.error e, st) :=
  ⟨[], .none, fun _ h => by cases h⟩

theorem Puts.after {result : Except TextEditorError α × BinaryState} (h : st.Changes log s)
    (hputs : s.Puts put result) : st.Puts put result := by
  obtain ⟨log', hchanges, hanswer⟩ := hputs
  refine ⟨log ++ log', h.trans hchanges, fun appended hok => ?_⟩
  obtain ⟨e, he, hfound⟩ := hanswer appended hok
  exact ⟨e, List.mem_append_right log he, hfound⟩

end Puts

/-! ### Plain calls. -/

theorem openAppend_base {newSize base : Nat} {opName : String}
    (h : st.openAppend newSize opName = .ok base) :
    (st.appended.getD (.startAt base)).segmentVaddr = base := by
  unfold openAppend at h
  split at h
  · cases h
  split at h
  · cases h
  cases happended : st.appended with
  | none => rfl
  | some a =>
    rw [happended] at h
    exact Except.ok.inj h

theorem resize_length (bytes : List Byte) : resize bytes bytes.length = bytes := by
  rw [resize, List.take_length, Nat.sub_self, List.replicate_zero, List.append_nil]

/-- A plain code append that succeeds pads and places. -/
theorem registered_retain {name : String} {base : Nat} (p : AnyPlan) (bytes : List Byte)
    (hbase : (st.appended.getD (.startAt base)).segmentVaddr = base) :
    (st.registered name base).retain base (.function name st.padBuffer.bufferLength p) bytes
      = st.padBuffer.place base .function (.function name st.padBuffer.bufferLength p) bytes := by
  unfold registered registerAppended retain place codeAddress
  cases happended : st.appended with
  | none =>
    have hpad : st.padBuffer = st := by rw [padBuffer, happended]
    have hlength : st.bufferLength = 0 := by rw [bufferLength, happended]
    simp only [hpad, happended, hlength, Option.getD_none, RetainedAppend.name,
      RetainedAppend.offset]
    rfl
  | some a =>
    rw [happended] at hbase
    simp only [Option.getD_some] at hbase
    simp only [padBuffer, happended, bufferLength, Option.getD_some, RetainedAppend.name,
      RetainedAppend.offset, resize_length, hbase]

theorem puts_planStep {name : String} {base : Nat} {toPlan : Container → AnyPlan}
    {inspects : Bool} {result : Except TextEditorError Appended × BinaryState}
    (hbase : (st.appended.getD (.startAt base)).segmentVaddr = base)
    (hstep : st.PlanStep name base toPlan inspects result) :
    st.Puts Appended.put result := by
  have hpad : st.Changes [] st.padBuffer := Changes.none.quiet st.quiet_padBuffer
  cases hstep with
  | failed e hfails =>
    exact ⟨[], hpad.quiet (quiet_registerAppended _ name _ .function), fun _ h => by cases h⟩
  | refused e output hinspects hemits hrelocs => exact ⟨[], hpad, fun _ h => by cases h⟩
  | placed output hemits hrelocs =>
    rw [registered_retain _ _ hbase]
    refine ⟨_, hpad.place base .function _ output.bytes, fun appended hok => ?_⟩
    cases hok
    refine ⟨_, List.mem_singleton_self _, ?_⟩
    rw [Entry.put, nextSymbol, nextSymbol, padBuffer_container]
    rfl

theorem puts_addFunctionGeneric (st : BinaryState) (name : String) (code : AnyInstructions) :
    st.Puts Appended.put (st.addFunctionGeneric name code) := by
  obtain ⟨-, e, heq⟩ | ⟨-, base, hopen, hstep⟩ := st.addFunctionGeneric_step name code
  · rw [heq]
    exact .refused e
  · exact puts_planStep (openAppend_base hopen) hstep

theorem puts_addFunctionFromPlan (st : BinaryState) (name : String) (p : AnyPlan) :
    st.Puts Appended.put (st.addFunctionFromPlan name p) := by
  unfold addFunctionFromPlan
  split
  · exact .refused _
  split
  · exact .refused _
  · next base hopen =>
    exact puts_planStep (openAppend_base hopen) (st.appendPlan_step name base (fun _ => p) true)

theorem quiet_pushExport (st : BinaryState) (name : String) (symbol : SymbolId) :
    st.Quiet (st.pushExport name symbol) := by
  unfold pushExport
  split
  · next a sym happended hsymbol =>
    exact .of_same (fun _ _ => id) rfl (by rw [content, content, happended]; rfl)
  · exact .of_same (fun _ _ => id) rfl rfl

theorem puts_addFunctionExported (st : BinaryState) (name : String)
    (instructions : List AarchInstruction) :
    st.Puts Appended.put (st.addFunctionExported name instructions) := by
  have hforced : st.Changes [] { st with forceSegmentPlacement := true } :=
    Changes.none.quiet (.of_same (fun _ _ => id) rfl rfl)
  have hadd := Puts.after hforced (puts_addFunctionGeneric _ name (ofAarchInstructions instructions))
  unfold addFunctionExported addFunction
  split
  · exact .refused _
  cases hresult : { st with forceSegmentPlacement := true }.addFunctionGeneric name
      (ofAarchInstructions instructions) with
  | mk answer added =>
    rw [hresult] at hadd
    cases answer with
    | error e => exact hadd
    | ok appended =>
      obtain ⟨log, hchanges, hanswer⟩ := hadd
      exact ⟨log, hchanges.quiet (added.quiet_pushExport _ _), hanswer⟩

/-- A hijack puts the body and then the wrapper; its answer is the body. -/
theorem puts_hijack (st : BinaryState) (name : String) (body : List AarchInstruction)
    (slot : InitSlot) : st.Puts Appended.put (st.hijack name body slot) := by
  have hbody := st.puts_addFunctionGeneric (name ++ "__body") (ofAarchInstructions body)
  unfold hijack addFunction
  cases hadded : st.addFunctionGeneric (name ++ "__body") (ofAarchInstructions body) with
  | mk answer bodied =>
    rw [hadded] at hbody
    cases answer with
    | error e => exact hbody
    | ok user =>
      have hwrapper := bodied.puts_addFunctionGeneric (name ++ "__wrapper")
        (ofAarchInstructions (wrapperBody user.symbol slot.originalCtor))
      simp only []
      cases hwrapped : bodied.addFunctionGeneric (name ++ "__wrapper")
          (ofAarchInstructions (wrapperBody user.symbol slot.originalCtor)) with
      | mk answer wrapped =>
        rw [hwrapped] at hwrapper
        obtain ⟨log, hchanges, hanswer⟩ := hbody
        obtain ⟨log', hchanges', -⟩ := hwrapper
        cases answer with
        | error e => exact ⟨_, hchanges.trans hchanges', fun _ h => by cases h⟩
        | ok wrapper =>
          refine ⟨_, (hchanges.trans hchanges').quiet (.of_same (fun _ _ => id) rfl rfl),
            fun appended hok => ?_⟩
          obtain rfl := Except.ok.inj hok
          obtain ⟨e, he, hput⟩ := hanswer user rfl
          obtain ⟨output, hhead, hbody⟩ := Option.map_eq_some_iff.mp hput
          refine ⟨e, List.mem_append_left _ he, ?_⟩
          rw [Appended.put, List.head?_append, hhead]
          exact congrArg some hbody

theorem puts_queueSlot (st : BinaryState) (name : String) (body : List AarchInstruction) :
    st.Puts Appended.put (queueSlot (st.addFunction name body)) := by
  have hbody := st.puts_addFunctionGeneric name (ofAarchInstructions body)
  unfold addFunction
  cases hadded : st.addFunctionGeneric name (ofAarchInstructions body) with
  | mk answer bodied =>
    rw [hadded] at hbody
    cases answer with
    | error e => exact hbody
    | ok user =>
      obtain ⟨log, hchanges, hanswer⟩ := hbody
      exact ⟨log, hchanges.quiet (.of_same (fun _ _ => id) rfl rfl), hanswer⟩

theorem puts_addInitialiser {name : String} {body : List AarchInstruction}
    {position : Elf.InitialiserPosition} {result : Except TextEditorError Appended × BinaryState}
    (h : st.addInitialiser name body position = some result) :
    st.Puts Appended.put result := by
  have hstep := st.addInitialiser_step name body position
  rw [h] at hstep
  generalize hresult : some result = outcome at hstep
  cases hstep with
  | panics => cases hresult
  | refused e hwhy =>
    cases hresult
    exact .refused e
  | hijacked slot hfinds =>
    rw [Option.some.inj hresult]
    exact st.puts_hijack name body slot
  | slotted happend hfound =>
    rw [Option.some.inj hresult]
    exact st.puts_queueSlot (name ++ "__body") body

theorem puts_addData (st : BinaryState) (name : String) (bytes : List Byte) (align : Nat) :
    st.Puts (fun id => some (id, bytes)) (st.addData name bytes align) := by
  unfold addData
  split
  · exact .refused _
  · next base hopen =>
    refine ⟨_, Changes.none.place base .object (.data name
      (maskUp (st.appended.getD (.startAt base)).bytes.length align) bytes) bytes, ?_⟩
    intro appended hok
    cases hok
    exact ⟨_, List.mem_singleton_self _, rfl⟩

theorem changes_addWritableData (st : BinaryState) (name : String) (bytes : List Byte)
    (align : Nat) : st.Changes [] (st.addWritableData name bytes align).2 := by
  unfold addWritableData
  split
  · exact .none
  split
  · exact .none
  split
  · exact .none
  · next base hopen =>
    have hwritten : ∀ w, st.Changes [] { st with appendedWritable := w } :=
      fun w => Changes.none.quiet (.of_same (fun _ _ => id) rfl rfl)
    let w := st.appendedWritable.getD ⟨base, []⟩
    let offset := maskUp w.bytes.length align
    exact (hwritten (some { w with bytes := resize w.bytes offset ++ bytes })).quiet
      (quiet_registerAppended _ name (w.segmentVaddr + offset) .object)

/-! ### Region-scoped calls. -/

/-- Bytes that a region takes are placed where the carve is. -/
theorem puts_placeInRegion (hanchored : st.Anchored) {region : RegionId} {name : String}
    {bytes : List Byte} {align : Nat} {kind : SymbolKind} {item : Nat → RetainedAppend}
    (hname : ∀ offset, (item offset).name = name)
    (hoffset : ∀ offset, (item offset).offset = offset) :
    st.Puts (fun id => some (id, bytes)) (st.placeInRegion region name bytes align kind item) := by
  have hstep := st.placeInRegion_step region name bytes align kind item
  generalize st.placeInRegion region name bytes align kind item = result at hstep
  cases hstep with
  | refused e => exact .refused e
  | unbuffered r r' carve hregion hcarve hnone =>
    have hsome := hanchored r.baseAddress (by rw [regionBase, hregion]; rfl)
    rw [base?, content, hnone] at hsome
    cases hsome
  | placed r r' carve a hregion hcarve happended =>
    have hhanded := Space.Region.carve_handed hcarve
    have hregionBase : st.regionBase = some r.baseAddress := by rw [regionBase, hregion]; rfl
    have hbase : r.baseAddress = a.segmentVaddr := by
      have hsome := hanchored r.baseAddress hregionBase
      rw [base?, content, happended] at hsome
      exact (Option.some.inj hsome).symm
    have hcarved : st.Changes [] { st with reservedTextRegion := some (region, r') } := by
      refine Changes.none.quiet (.of_same (fun _ _ => id) ?_ rfl)
      rw [hregionBase, ← hhanded.later.address]
      rfl
    have hplaced := hcarved.place a.segmentVaddr kind (item carve.offsetInRegion) bytes
    have heq : { st with reservedTextRegion := some (region, r') }.place a.segmentVaddr kind
        (item carve.offsetInRegion) bytes
      = { st with
          reservedTextRegion := some (region, r')
          appended := some { a with
            bytes := resize a.bytes carve.offsetInRegion ++ bytes
            items := a.items ++ [item carve.offsetInRegion] }
          container := st.container.pushSymbol name (BitVec.ofNat 64 carve.address) kind none } := by
      simp only [place, happended, Option.getD_some, hname, hoffset, hhanded.skew_address, hbase]
    rw [heq] at hplaced
    refine ⟨_, hplaced, fun appended hok => ?_⟩
    cases hok
    exact ⟨_, List.mem_singleton_self _, rfl⟩

theorem puts_placePlanInRegion (hanchored : st.Anchored) (region : RegionId) (name : String)
    (p : AnyPlan) (inspects : Bool) :
    st.Puts Appended.put (st.placePlanInRegion region name p inspects) := by
  unfold placePlanInRegion
  split
  · exact .refused _
  split
  · exact .refused _
  split
  · exact .refused _
  split
  · exact .refused _
  next output _ _ =>
  have hplace : st.Puts (fun id => some (id, output.bytes)) (st.placeInRegion region name output.bytes 4
      .function fun offset => .function name offset p) :=
    puts_placeInRegion hanchored (fun _ => rfl) (fun _ => rfl)
  split
  · next e placed heq =>
    rw [heq] at hplace
    obtain ⟨log, hchanges, -⟩ := hplace
    exact ⟨log, hchanges, fun _ h => by cases h⟩
  · next symbol placed heq =>
    rw [heq] at hplace
    obtain ⟨log, hchanges, hanswer⟩ := hplace
    refine ⟨log, hchanges, fun appended hok => ?_⟩
    cases hok
    exact hanswer symbol rfl

theorem puts_placeRawInRegion (hanchored : st.Anchored) (region : RegionId) (name : String)
    (bytes : List Byte) (align : Nat) (kind : SymbolKind) :
    st.Puts (fun id => some (id, bytes)) (st.placeRawInRegion region name bytes align kind) := by
  unfold placeRawInRegion
  split
  · exact .refused _
  · exact puts_placeInRegion hanchored (fun _ => rfl) (fun _ => rfl)

/-! ### Reservations. -/

theorem checkReservable_free (h : st.checkReservable = .ok ()) :
    st.reservedTextRegion = none ∧ st.appended = none := by
  unfold checkReservable at h
  repeat' split at h
  all_goals try cases h
  simpa using ‹¬(st.reservedTextRegion.isSome || st.appended.isSome) = true›

/-- A reservation seeds the buffer, or changes nothing. -/
theorem changes_reserveTextRegion (st : BinaryState) (req : Space.ReserveRequest) :
    st.Changes [] (st.reserveTextRegion req).2 := by
  unfold reserveTextRegion
  split
  · exact .none
  next hfree =>
  have hnone := (checkReservable_free hfree).2
  split
  · exact .none
  split
  · next plan hplan =>
    exact Changes.none.quiet (quiet_seed hnone plan.region.baseAddress st.pendingTextGrow
      fun r hr => by cases hr; rfl)
  · unfold setupGrowReservation
    split
    · exact .none
    · exact Changes.none.quiet (quiet_seed hnone _ _ fun r hr => by cases hr; rfl)
  · exact .none

theorem changes_reserveTextGrow (st : BinaryState) : st.Changes [] st.reserveTextGrow.2 := by
  unfold reserveTextGrow
  split
  · exact .none
  next hfree =>
  obtain ⟨hregion, hnone⟩ := checkReservable_free hfree
  split
  · exact .none
  · rw [show st.reservedTextRegion = none from hregion]
    exact Changes.none.quiet (quiet_seed hnone _ _ fun r hr => by cases hr)

/-! ## §3. What the changes keep. -/

theorem base?_place (st : BinaryState) (base : Nat) (kind : SymbolKind) (item : RetainedAppend)
    (bytes : List Byte) :
    (st.place base kind item bytes).base? = some (st.base?.getD base) := by
  unfold place base? content
  cases st.appended <;> rfl

theorem items_place (st : BinaryState) (base : Nat) (kind : SymbolKind) (item : RetainedAppend)
    (bytes : List Byte) : (st.place base kind item bytes).items = st.items ++ [item] := by
  unfold place items content
  cases st.appended <;> rfl

theorem buffer_place (st : BinaryState) (base : Nat) (kind : SymbolKind) (item : RetainedAppend)
    (bytes : List Byte) :
    (st.place base kind item bytes).buffer = resize st.buffer item.offset ++ bytes := by
  unfold place buffer content
  cases st.appended <;> rfl

theorem keeps_place (st : BinaryState) (base : Nat) (kind : SymbolKind) (item : RetainedAppend)
    (bytes : List Byte) : st.Keeps (st.place base kind item bytes) :=
  ⟨fun _ _ hsym => Container.symbol_pushSymbol hsym _ _ _ _,
    fun b hbase => by rw [base?_place, hbase]; rfl⟩

theorem Changes.keeps (h : st.Changes log s) : st.Keeps s := by
  induction h with
  | none => exact .refl st
  | quiet _ hquiet ih => exact ih.trans hquiet.toKeeps
  | place _ base kind item bytes ih => exact ih.trans (keeps_place _ base kind item bytes)

theorem Changes.anchored (h : st.Changes log s) (hanchored : st.Anchored) : s.Anchored := by
  induction h with
  | none => exact hanchored
  | quiet _ hquiet ih => exact hquiet.anchored ih
  | @place _ s _ b kind item bytes ih =>
    exact fun base hregion => (keeps_place s b kind item bytes).base base (ih base hregion)

/-! ### Symbols of items. -/

/-- A symbol has an item's name and address. -/
def ItemSymbol (st : BinaryState) (item : RetainedAppend) (id : SymbolId) : Prop :=
  ∃ base sym, st.base? = some base ∧ st.container.symbol id = some sym ∧ sym.name = item.name ∧
    sym.address = BitVec.ofNat 64 (base + item.offset)

theorem Keeps.itemSymbol (h : st.Keeps s) {item : RetainedAppend} {id : SymbolId}
    (hitem : st.ItemSymbol item id) : s.ItemSymbol item id := by
  obtain ⟨base, sym, hbase, hsym, hname, haddress⟩ := hitem
  exact ⟨base, sym, h.base base hbase, h.symbol id sym hsym, hname, haddress⟩

/-- The items of the buffer with their symbols, defined one after the other,
and their bytes. -/
structure Tracks (st : BinaryState) (log : List Entry) : Prop where
  items : st.items = log.map Entry.item
  symbols : ∀ e ∈ log, st.ItemSymbol e.item e.symbol
  increasing : log.Pairwise fun e e' => e.symbol.index < e'.symbol.index
  standing : Standing Entry.offset Entry.bytes st.buffer log

theorem Tracks.lt (h : st.Tracks log) {e : Entry} (he : e ∈ log) :
    e.symbol.index < st.container.symbols.length := by
  obtain ⟨base, sym, -, hsym, -, -⟩ := h.symbols e he
  exact (List.getElem?_eq_some_iff.mp hsym).1

theorem Tracks.quiet (h : st.Tracks log) (hquiet : st.Quiet s) : s.Tracks log where
  items := hquiet.items.trans h.items
  symbols := fun e he => hquiet.toKeeps.itemSymbol (h.symbols e he)
  increasing := h.increasing
  standing := h.standing.grow hquiet.buffer

theorem length_resize (bytes : List Byte) (n : Nat) : (resize bytes n).length = n := by
  rw [resize, List.length_append, List.length_take, List.length_replicate]
  omega

theorem Tracks.place (h : st.Tracks log) (base : Nat) (kind : SymbolKind) (item : RetainedAppend)
    (bytes : List Byte) :
    (st.place base kind item bytes).Tracks (log ++ [⟨item, st.nextSymbol, bytes⟩]) where
  items := by
    rw [items_place, h.items, List.map_append]
    rfl
  symbols := fun e he => by
    rcases List.mem_append.mp he with he | he
    · exact (keeps_place st base kind item bytes).itemSymbol (h.symbols e he)
    · obtain rfl := List.mem_singleton.mp he
      exact ⟨_, _, rfl, Container.symbol_pushSymbol_self _ _ _ _ _, rfl, rfl⟩
  increasing := by
    refine List.pairwise_append.mpr ⟨h.increasing, List.pairwise_singleton _ _, fun e he e' he' => ?_⟩
    rw [List.mem_singleton.mp he']
    exact h.lt he
  standing := by
    rw [buffer_place]
    exact h.standing.place ⟨item, st.nextSymbol, bytes⟩ (length_resize _ _)
      (List.prefix_append _ _)

theorem Changes.tracks {earlier : List Entry} (h : st.Changes log s) (htracks : st.Tracks earlier) :
    s.Tracks (earlier ++ log) := by
  induction h with
  | none =>
    rw [List.append_nil]
    exact htracks
  | quiet _ hquiet ih => exact ih.quiet hquiet
  | place _ base kind item bytes ih =>
    rw [← List.append_assoc]
    exact ih.place base kind item bytes

end BinaryState

/-! ## §4. Every session. -/

/-- The symbol that a call answered, with the bytes that it has put into the
buffer for it; writable data goes elsewhere. -/
def AppendCall.put (call : AppendCall) : Answer → Option (SymbolId × List Byte)
  | .address _ => none
  | .symbol appended =>
    match call with
    | .addData _ bytes _ | .addDataIn _ _ bytes _ | .addRawCodeIn _ _ bytes _ =>
      some (appended.symbol, bytes)
    | .addWritableData .. | .nextAddressIn .. => none
    | _ => appended.put

def SessionCall.put : SessionCall → SessionAnswer → Option (SymbolId × List Byte)
  | .append call, .appended answer => call.put answer
  | _, _ => none

def Made.put (m : Made) : Option (SymbolId × List Byte) := m.answer.toOption.bind m.call.put

variable {st st' mid last : BinaryState}

/-- A call is made of changes, with an entry for what it answers. -/
def BinaryState.Logs {α : Type} (st : BinaryState) (put : α → Option (SymbolId × List Byte))
    (result : Except TextEditorError α × BinaryState) : Prop :=
  ∃ log, st.Changes log result.2 ∧ (result.1.toOption.bind put).toList.Sublist (log.map Entry.put)

/-- Another answer with the same symbol and bytes. -/
theorem Puts.logs {α : Type} {put : α → Option (SymbolId × List Byte)}
    {put' : Answer → Option (SymbolId × List Byte)} {answer : α → Answer}
    {result : Except TextEditorError α × BinaryState} (h : st.Puts put result)
    (hput : ∀ appended, put' (answer appended) = put appended) :
    st.Logs put' (result.1.map answer, result.2) := by
  obtain ⟨outcome, after⟩ := result
  obtain ⟨log, hchanges, hanswer⟩ := h
  cases outcome with
  | error e => exact ⟨log, hchanges, List.nil_sublist _⟩
  | ok appended =>
    obtain ⟨e, he, hfound⟩ := hanswer appended rfl
    refine ⟨log, hchanges, ?_⟩
    show (put' (answer appended)).toList.Sublist _
    rw [hput, hfound]
    exact List.singleton_sublist.mpr (List.mem_map_of_mem he)

theorem Puts.ofCode {put : Answer → Option (SymbolId × List Byte)}
    {result : Except TextEditorError Appended × BinaryState} (h : st.Puts Appended.put result)
    (hput : ∀ appended, put (.symbol appended) = appended.put) :
    st.Logs put (Answer.ofCode result) := by
  have hlogs := Puts.logs h hput
  obtain ⟨outcome, after⟩ := result
  cases outcome <;> exact hlogs

theorem Puts.ofData {put : Answer → Option (SymbolId × List Byte)} {bytes : List Byte}
    {result : Except TextEditorError SymbolId × BinaryState}
    (h : st.Puts (fun id => some (id, bytes)) result)
    (hput : ∀ id, put (.symbol ⟨id, []⟩) = some (id, bytes)) :
    st.Logs put (Answer.ofData result) := by
  have hlogs := Puts.logs h hput
  obtain ⟨outcome, after⟩ := result
  cases outcome <;> exact hlogs

/-- Every append is a sequence of changes. -/
theorem logs_append {call : AppendCall} {result : Except TextEditorError Answer × BinaryState}
    (hanchored : st.Anchored) (h : call.run st = some result) : st.Logs call.put result := by
  cases call with
  | addInitialiser name body position =>
    obtain ⟨added, hadded, rfl⟩ := Option.map_eq_some_iff.mp h
    exact Puts.ofCode (BinaryState.puts_addInitialiser hadded) fun _ => rfl
  | nextAddressIn region align =>
    simp only [AppendCall.run] at h
    split at h <;> cases h <;> exact ⟨[], .none, List.nil_sublist _⟩
  | addFunctionGeneric name code =>
    cases h
    exact Puts.ofCode (st.puts_addFunctionGeneric name code) fun _ => rfl
  | addFunctionFromPlan name p =>
    cases h
    exact Puts.ofCode (st.puts_addFunctionFromPlan name p) fun _ => rfl
  | addFunctionExported name instructions =>
    cases h
    exact Puts.ofCode (st.puts_addFunctionExported name instructions) fun _ => rfl
  | addData name bytes align =>
    cases h
    exact Puts.ofData (st.puts_addData name bytes align) fun _ => rfl
  | addWritableData name bytes align =>
    cases h
    have hchanges := st.changes_addWritableData name bytes align
    cases hresult : st.addWritableData name bytes align with
    | mk outcome after =>
      rw [hresult] at hchanges
      cases outcome <;> exact ⟨[], hchanges, List.nil_sublist _⟩
  | addFunctionIn region name instructions =>
    cases h
    refine Puts.ofCode ?_ fun _ => rfl
    unfold BinaryState.addFunctionIn
    split
    · exact .refused _
    · exact BinaryState.puts_placePlanInRegion hanchored region name _ false
  | addFunctionFromPlanIn region name p =>
    cases h
    refine Puts.ofCode ?_ fun _ => rfl
    unfold BinaryState.addFunctionFromPlanIn
    split
    · exact .refused _
    · exact BinaryState.puts_placePlanInRegion hanchored region name p true
  | addDataIn region name bytes align =>
    cases h
    exact Puts.ofData (BinaryState.puts_placeRawInRegion hanchored region name bytes align .object)
      fun _ => rfl
  | addRawCodeIn region name bytes align =>
    cases h
    exact Puts.ofData
      (BinaryState.puts_placeRawInRegion hanchored region name bytes align .function) fun _ => rfl

/-- Every call is a sequence of changes. -/
theorem logs_run {call : SessionCall} {result : Except TextEditorError SessionAnswer × BinaryState}
    (hanchored : st.Anchored) (h : call.run st = some result) : st.Logs call.put result := by
  cases call with
  | reserveTextRegion req =>
    cases h
    refine ⟨[], st.changes_reserveTextRegion req, ?_⟩
    cases (st.reserveTextRegion req).1 <;> exact List.nil_sublist _
  | reserveTextGrow =>
    cases h
    refine ⟨[], st.changes_reserveTextGrow, ?_⟩
    cases st.reserveTextGrow.1 <;> exact List.nil_sublist _
  | append call =>
    obtain ⟨⟨outcome, after⟩, hrun, rfl⟩ := Option.map_eq_some_iff.mp h
    obtain ⟨log, hchanges, hlog⟩ := logs_append hanchored hrun
    refine ⟨log, hchanges, ?_⟩
    cases outcome with
    | error e => exact List.nil_sublist _
    | ok answer => exact hlog

/-- What one call does to a state whose items are tracked, every session does. -/
theorem Session.tracksFrom {made : List Made} {log : List Entry} (h : Session st made last)
    (hanchored : st.Anchored) (htracks : st.Tracks log) :
    last.Anchored ∧ st.Keeps last ∧ ∃ entries, last.Tracks (log ++ entries) ∧
      (made.filterMap Made.put).Sublist (entries.map Entry.put) := by
  induction h generalizing log with
  | done st => exact ⟨hanchored, .refl st, [], by rw [List.append_nil]; exact htracks, .slnil⟩
  | @call st st' last call answer made hrun hrest ih =>
    obtain ⟨new, hchanges, hnew⟩ := logs_run hanchored hrun
    obtain ⟨hlast, hkeeps, entries, hfinal, hentries⟩ :=
      ih (hchanges.anchored hanchored) (hchanges.tracks htracks)
    refine ⟨hlast, hchanges.keeps.trans hkeeps, new ++ entries, ?_, ?_⟩
    · rw [← List.append_assoc]
      exact hfinal
    · have hput : (Made.put ⟨st, call, answer, st'⟩).toList.Sublist (new.map Entry.put) := hnew
      rw [List.map_append, ← List.singleton_append, List.filterMap_append]
      refine List.Sublist.append ?_ hentries
      rw [List.filterMap_cons]
      cases hmade : Made.put ⟨st, call, answer, st'⟩ with
      | none => exact List.nil_sublist _
      | some put =>
        rw [hmade] at hput
        exact hput

section New

variable (container : Container) (sectionNames : List String)
  (machoLayout : Option MachO.MachOLayout) {made made' : List Made}

theorem Session.ofNew (h : Session (.new container sectionNames machoLayout) made last) :
    last.Anchored ∧ ∃ log, last.Tracks log ∧
      (made.filterMap Made.put).Sublist (log.map Entry.put) := by
  have htracks : (BinaryState.new container sectionNames machoLayout).Tracks [] :=
    { items := rfl
      symbols := fun e he => by cases he
      increasing := List.Pairwise.nil
      standing := fun before e after hlog => by cases before <;> cases hlog }
  obtain ⟨hanchored, -, entries, hfinal, hentries⟩ :=
    h.tracksFrom (fun _ h => by cases h) htracks
  exact ⟨hanchored, entries, hfinal, hentries⟩

/-- **In every session of a new editor the items of the buffer have symbols of
their own, in order, and what the calls answered is found among them.** -/
theorem session_tracks (h : Session (.new container sectionNames machoLayout) made last) :
    ∃ log, last.Tracks log ∧ (made.filterMap Made.put).Sublist (log.map Entry.put) :=
  h.ofNew.2

/-- **No call takes a symbol back that was defined before it, or moves the
buffer.** -/
theorem session_keepsSymbols (h : Session (.new container sectionNames machoLayout) made mid)
    (h' : Session mid made' last) : mid.Keeps last := by
  obtain ⟨hanchored, log, htracks, -⟩ := h.ofNew
  exact (h'.tracksFrom hanchored htracks).2.1

end New

/-! ### Data in the gap of a growth. -/

/-- `__TEXT` with one section behind its headers. -/
def growingState : BinaryState :=
  .new { bareImage with format := .macho } []
    (some ⟨[⟨"__TEXT", 0, 0x4000, 0, 0x4000⟩],
      [⟨"__text", "__TEXT", 0x1000, 0x100, 0x1000, 0, 0, 0, 0⟩]⟩)

def grownState : BinaryState := growingState.reserveTextGrow.2

def dataState : BinaryState := (grownState.addData "d" [1, 2, 3] 4).2

theorem session_growth :
    Session growingState [⟨growingState, .reserveTextGrow, .ok .growing, grownState⟩] grownState :=
  .call rfl (.done _)

theorem session_data : ∃ made : List Made, Session grownState made dataState ∧
    made.filterMap Made.put = [(⟨0⟩, [1, 2, 3])] :=
  ⟨_, @Session.call _ _ _ (.append (.addData "d" [1, 2, 3] 4)) _ _ rfl (.done _), rfl⟩

theorem session_tracks_data : ∃ log : List Entry, dataState.Tracks log ∧
    [((⟨0⟩ : SymbolId), ([1, 2, 3] : List Byte))].Sublist (log.map Entry.put) := by
  obtain ⟨made, hmade, hput⟩ := session_data
  obtain ⟨log, htracks, hlog⟩ := session_tracks _ [] _ (.call (show SessionCall.run growingState
    .reserveTextGrow = some (.ok .growing, grownState) from rfl) hmade)
  exact ⟨log, htracks, hput ▸ hlog⟩

theorem session_keepsSymbols_data : grownState.Keeps dataState := by
  obtain ⟨made, hmade, -⟩ := session_data
  exact session_keepsSymbols _ [] _ session_growth hmade

end Armv8Encode.Editor

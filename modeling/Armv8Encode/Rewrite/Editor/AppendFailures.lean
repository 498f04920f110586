/-
  Armv8Encode.Rewrite.Editor.AppendFailures — what a failed append leaves.

  Every append operation checks first and changes the state afterwards.  The
  region-scoped calls and the data calls change it only when nothing can fail
  any more.  The plain code calls register their symbol before they lay out
  and emit, and an initialiser appends its body before its wrapper: what fails
  late leaves the symbol, the padding, the body or the placement flag behind.

  Main results:
    * `appendPlan_step`, `placeInRegion_step` — all that one append can do.
    * `failedAppend_iff` — a failed call leaves the state as it was exactly
      when it was refused by a check.
-/
import Armv8Encode.Rewrite.Editor.Regions

namespace Armv8Encode.Editor

open Lib

/-! ## §1. What one append does. -/

/-- Laid out from an address, a plan emits an output. -/
def AnyPlan.EmitsAs (p : AnyPlan) (va : Nat) (c : Container) (output : EmitOutput) : Prop :=
  ∃ layout, p.layOut (BitVec.ofNat 64 va) c = .ok layout ∧ p.emit layout c = .ok output

theorem AnyPlan.EmitsAs.unique {p : AnyPlan} {va : Nat} {c : Container}
    {output output' : EmitOutput} (h : p.EmitsAs va c output) (h' : p.EmitsAs va c output') :
    output = output' := by
  obtain ⟨layout, hlayout, hemit⟩ := h
  obtain ⟨layout', hlayout', hemit'⟩ := h'
  have hsame : layout = layout' := Except.ok.inj (hlayout.symm.trans hlayout')
  subst hsame
  exact Except.ok.inj (hemit.symm.trans hemit')

namespace BinaryState

/-- Where a plain code append puts its first byte. -/
def codeAddress (st : BinaryState) (segmentVaddr : Nat) : Nat :=
  segmentVaddr + st.padBuffer.bufferLength

/-- The state in which a plain code append lays out and emits: the buffer is
padded and the function's symbol defined. -/
def registered (st : BinaryState) (name : String) (segmentVaddr : Nat) : BinaryState :=
  st.padBuffer.registerAppended name (st.codeAddress segmentVaddr) .function

/-- All that appending a plan can come to. -/
inductive PlanStep (st : BinaryState) (name : String) (segmentVaddr : Nat)
    (toPlan : Container → AnyPlan) (inspects : Bool) :
    Except TextEditorError Appended × BinaryState → Prop where
  /-- The plan does not lay out or does not emit. -/
  | failed (e : TextEditorError)
      (hfails : ∀ output, ¬(toPlan (st.registered name segmentVaddr).container).EmitsAs
        (st.codeAddress segmentVaddr) (st.registered name segmentVaddr).container output) :
      PlanStep st name segmentVaddr toPlan inspects (.error e, st.registered name segmentVaddr)
  /-- Relocations are left; the symbol is taken back. -/
  | refused (e : TextEditorError) (output : EmitOutput) (hinspects : inspects = true)
      (hemits : (toPlan (st.registered name segmentVaddr).container).EmitsAs
        (st.codeAddress segmentVaddr) (st.registered name segmentVaddr).container output)
      (hrelocs : output.relocations ≠ []) :
      PlanStep st name segmentVaddr toPlan inspects (.error e, st.padBuffer)
  | placed (output : EmitOutput)
      (hemits : (toPlan (st.registered name segmentVaddr).container).EmitsAs
        (st.codeAddress segmentVaddr) (st.registered name segmentVaddr).container output)
      (hrelocs : inspects = true → output.relocations = []) :
      PlanStep st name segmentVaddr toPlan inspects
        (.ok ⟨st.nextSymbol, [output]⟩,
          (st.registered name segmentVaddr).retain segmentVaddr
            (.function name st.padBuffer.bufferLength
              (toPlan (st.registered name segmentVaddr).container)) output.bytes)

theorem padBuffer_container (st : BinaryState) : st.padBuffer.container = st.container := by
  unfold padBuffer
  split <;> rfl

theorem registered_pop (st : BinaryState) (name : String) (segmentVaddr : Nat) :
    { st.registered name segmentVaddr with
      container := (st.registered name segmentVaddr).container.popSymbol } = st.padBuffer := by
  simp only [registered, registerAppended, Container.popSymbol_pushSymbol]

theorem appendPlan_step (st : BinaryState) (name : String) (segmentVaddr : Nat)
    (toPlan : Container → AnyPlan) (inspects : Bool) :
    st.PlanStep name segmentVaddr toPlan inspects
      (st.appendPlan name segmentVaddr toPlan inspects) := by
  unfold appendPlan
  simp only []
  split
  · next e hlayout =>
    refine .failed _ fun output hemits => ?_
    obtain ⟨layout, hok, -⟩ := hemits
    cases hlayout.symm.trans hok
  · next layout hlayout =>
    split
    · next e hemit =>
      refine .failed _ fun output hemits => ?_
      obtain ⟨layout', hok, hemit'⟩ := hemits
      have hsame : layout = layout' := Except.ok.inj (hlayout.symm.trans hok)
      subst hsame
      cases hemit.symm.trans hemit'
    · next output hemit =>
      split
      · next hrefused =>
        rw [Bool.and_eq_true, Bool.not_eq_true', List.isEmpty_eq_false_iff] at hrefused
        have hpop := st.registered_pop name segmentVaddr
        simp only [registered, codeAddress] at hpop
        rw [hpop]
        exact .refused _ output hrefused.1 ⟨layout, hlayout, hemit⟩ hrefused.2
      · next hkept =>
        rw [show st.padBuffer.nextSymbol = st.nextSymbol by
          unfold nextSymbol; rw [padBuffer_container]]
        refine .placed output ⟨layout, hlayout, hemit⟩ fun hinspects => ?_
        by_contra hne
        exact hkept (by simp [hinspects, hne])

/-- A plan that lays out and emits, and passes the look at its relocations, is
placed. -/
theorem appendPlan_eq (st : BinaryState) (name : String) (segmentVaddr : Nat)
    {toPlan : Container → AnyPlan} {inspects : Bool} {output : EmitOutput}
    (hemits : (toPlan (st.registered name segmentVaddr).container).EmitsAs
      (st.codeAddress segmentVaddr) (st.registered name segmentVaddr).container output)
    (hrelocs : inspects = true → output.relocations = []) :
    st.appendPlan name segmentVaddr toPlan inspects
      = (.ok ⟨st.nextSymbol, [output]⟩,
          (st.registered name segmentVaddr).retain segmentVaddr
            (.function name st.padBuffer.bufferLength
              (toPlan (st.registered name segmentVaddr).container)) output.bytes) := by
  have hstep := st.appendPlan_step name segmentVaddr toPlan inspects
  generalize st.appendPlan name segmentVaddr toPlan inspects = result at hstep
  cases hstep with
  | failed e hfails => exact absurd hemits (hfails output)
  | refused e output' hinspects hemits' hne =>
    rw [hemits.unique hemits'] at hrelocs
    exact absurd (hrelocs hinspects) hne
  | placed output' hemits' hrelocs' => rw [hemits.unique hemits']

/-- All that placing bytes in a region can come to. -/
inductive PlaceStep (st : BinaryState) (region : RegionId) (name : String) (bytes : List Byte)
    (align : Nat) (kind : SymbolKind) (item : Nat → RetainedAppend) :
    Except TextEditorError SymbolId × BinaryState → Prop where
  | refused (e : TextEditorError) : PlaceStep st region name bytes align kind item (.error e, st)
  /-- A slice is carved, but there is no buffer to write it to. -/
  | unbuffered (r r' : Space.Region) (carve : Space.Carve)
      (hregion : st.reservedTextRegion = some (region, r))
      (hcarve : r.carve bytes.length align = (.ok carve, r')) (hnone : st.appended = none) :
      PlaceStep st region name bytes align kind item
        (.error .noSuchRegion, { st with reservedTextRegion := some (region, r') })
  | placed (r r' : Space.Region) (carve : Space.Carve) (a : AppendedFunctionsState)
      (hregion : st.reservedTextRegion = some (region, r))
      (hcarve : r.carve bytes.length align = (.ok carve, r')) (happended : st.appended = some a) :
      PlaceStep st region name bytes align kind item
        (.ok st.nextSymbol,
          { st with
            reservedTextRegion := some (region, r')
            appended := some { a with
              bytes := resize a.bytes carve.offsetInRegion ++ bytes
              items := a.items ++ [item carve.offsetInRegion] }
            container := st.container.pushSymbol name (BitVec.ofNat 64 carve.address) kind none })

theorem activeRegion_eq_ok {st : BinaryState} {region : RegionId} {r : Space.Region}
    (h : st.activeRegion region = .ok r) : st.reservedTextRegion = some (region, r) := by
  unfold activeRegion at h
  split at h
  · next id r' hr' =>
    split at h
    · next hid =>
      cases h
      rw [hr', hid]
    · cases h
  · cases h

theorem placeInRegion_step (st : BinaryState) (region : RegionId) (name : String)
    (bytes : List Byte) (align : Nat) (kind : SymbolKind) (item : Nat → RetainedAppend) :
    st.PlaceStep region name bytes align kind item
      (st.placeInRegion region name bytes align kind item) := by
  unfold placeInRegion carveIn
  cases hactive : st.activeRegion region with
  | error e => exact .refused e
  | ok r =>
    have hregion := activeRegion_eq_ok hactive
    cases hcarve : r.carve bytes.length align with
    | mk result r' =>
      cases result with
      | error e =>
        simp only [hcarve]
        exact .refused _
      | ok carve =>
        simp only [hcarve]
        split
        · next happended => exact .unbuffered r r' carve hregion hcarve happended
        · next a happended => exact .placed r r' carve a hregion hcarve happended

/-- A region is only reserved together with an append buffer. -/
def Seeded (st : BinaryState) : Prop :=
  st.reservedTextRegion.isSome = true → st.appended.isSome = true

/-- Bytes are placed in a region that has its buffer, or nothing changes. -/
theorem placeInRegion_error {st st' : BinaryState} {region : RegionId} {name : String}
    {bytes : List Byte} {align : Nat} {kind : SymbolKind} {item : Nat → RetainedAppend}
    {e : TextEditorError} (hseeded : st.Seeded)
    (h : st.placeInRegion region name bytes align kind item = (.error e, st')) : st' = st := by
  have hstep := st.placeInRegion_step region name bytes align kind item
  rw [h] at hstep
  cases hstep with
  | refused => rfl
  | unbuffered r r' carve hregion hcarve hnone =>
    have hsome := hseeded (by rw [hregion]; rfl)
    rw [hnone] at hsome
    cases hsome

theorem placePlanInRegion_error {st st' : BinaryState} {region : RegionId} {name : String}
    {p : AnyPlan} {inspects : Bool} {e : TextEditorError} (hseeded : st.Seeded)
    (h : st.placePlanInRegion region name p inspects = (.error e, st')) : st' = st := by
  unfold placePlanInRegion at h
  split at h
  · cases h
    rfl
  split at h
  · cases h
    rfl
  split at h
  · cases h
    rfl
  split at h
  · cases h
    rfl
  split at h
  · next hplace =>
    cases h
    exact placeInRegion_error hseeded hplace
  · cases h

theorem placeRawInRegion_error {st st' : BinaryState} {region : RegionId} {name : String}
    {bytes : List Byte} {align : Nat} {kind : SymbolKind} {e : TextEditorError}
    (hseeded : st.Seeded)
    (h : st.placeRawInRegion region name bytes align kind = (.error e, st')) : st' = st := by
  unfold placeRawInRegion at h
  split at h
  · cases h
    rfl
  · exact placeInRegion_error hseeded h

/-! ## §2. Plain code appends. -/

/-- The checks of a plain append fail. -/
def Refuses (st : BinaryState) (newSize : Nat) (opName : String) : Prop :=
  ∃ e, st.openAppend newSize opName = .error e

/-- The checks of `addFunctionGeneric` fail. -/
def RefusesCode (st : BinaryState) (name : String) (code : AnyInstructions) : Prop :=
  code.instructions.isEmpty = true ∨
    st.Refuses (code.bodyBytes + 3) s!"add_function({name.quote})"

theorem registered_symbols (st : BinaryState) (name : String) (segmentVaddr : Nat) :
    (st.registered name segmentVaddr).container.symbols.length
      = st.container.symbols.length + 1 := by
  simp [registered, registerAppended, Container.symbols_pushSymbol, padBuffer_container]

theorem ne_of_symbols {st st' : BinaryState}
    (h : st.container.symbols.length < st'.container.symbols.length) : st' ≠ st := by
  intro heq
  rw [heq] at h
  exact Nat.lt_irrefl _ h

theorem addFunctionGeneric_eq {st : BinaryState} {name : String} {code : AnyInstructions}
    {segmentVaddr : Nat} (hcode : code.instructions.isEmpty = false)
    (hopen : st.openAppend (code.bodyBytes + 3) s!"add_function({name.quote})" = .ok segmentVaddr) :
    st.addFunctionGeneric name code
      = st.appendPlan name segmentVaddr code.fromInstructions false := by
  rw [addFunctionGeneric, hcode, hopen]
  rfl

/-- Code is refused with nothing changed, or its symbol stays defined. -/
theorem addFunctionGeneric_step (st : BinaryState) (name : String) (code : AnyInstructions) :
    (st.RefusesCode name code ∧ ∃ e, st.addFunctionGeneric name code = (.error e, st)) ∨
    (¬st.RefusesCode name code ∧ ∃ segmentVaddr,
      st.openAppend (code.bodyBytes + 3) s!"add_function({name.quote})" = .ok segmentVaddr ∧
      st.PlanStep name segmentVaddr code.fromInstructions false
        (st.addFunctionGeneric name code)) := by
  unfold addFunctionGeneric RefusesCode Refuses
  by_cases hempty : code.instructions.isEmpty = true
  · exact .inl ⟨.inl hempty, .emptyFunction name, if_pos hempty⟩
  rw [if_neg hempty]
  cases hopen : st.openAppend (code.bodyBytes + 3) s!"add_function({name.quote})" with
  | error e => exact .inl ⟨.inr ⟨e, rfl⟩, e, rfl⟩
  | ok segmentVaddr =>
    refine .inr ⟨?_, segmentVaddr, rfl, st.appendPlan_step name segmentVaddr _ false⟩
    rintro (h | ⟨e, h⟩)
    · exact hempty h
    · cases h

theorem planStep_symbols {st : BinaryState} {name : String} {segmentVaddr : Nat}
    {toPlan : Container → AnyPlan} {result : Except TextEditorError Appended × BinaryState}
    (h : st.PlanStep name segmentVaddr toPlan false result) :
    result.2.container.symbols.length = st.container.symbols.length + 1 := by
  cases h with
  | failed e hfails => exact st.registered_symbols name segmentVaddr
  | refused e output hinspects => cases hinspects
  | placed output hemits hrelocs => exact st.registered_symbols name segmentVaddr

theorem addFunctionGeneric_symbols (st : BinaryState) (name : String) (code : AnyInstructions) :
    (st.RefusesCode name code ∧ ∃ e, st.addFunctionGeneric name code = (.error e, st)) ∨
    (¬st.RefusesCode name code ∧ (st.addFunctionGeneric name code).2.container.symbols.length
      = st.container.symbols.length + 1) := by
  obtain h | ⟨hnot, segmentVaddr, -, hstep⟩ := st.addFunctionGeneric_step name code
  · exact .inl h
  · exact .inr ⟨hnot, planStep_symbols hstep⟩

/-- A failed call has either been refused or left its symbol. -/
theorem addFunctionGeneric_error_iff {st st' : BinaryState} {name : String}
    {code : AnyInstructions} {e : TextEditorError}
    (h : st.addFunctionGeneric name code = (.error e, st')) :
    st' = st ↔ st.RefusesCode name code := by
  obtain ⟨hrefuses, e', heq⟩ | ⟨hnot, hcount⟩ := st.addFunctionGeneric_symbols name code
  · rw [h] at heq
    cases heq
    simp [hrefuses]
  · rw [h] at hcount
    have hlength : st'.container.symbols.length = st.container.symbols.length + 1 := hcount
    have hne : st' ≠ st := ne_of_symbols (by omega)
    simp [hne, hnot]

/-- A successful call was not refused and left its symbol. -/
theorem addFunctionGeneric_ok {st st' : BinaryState} {name : String} {code : AnyInstructions}
    {appended : Appended} (h : st.addFunctionGeneric name code = (.ok appended, st')) :
    ¬st.RefusesCode name code ∧
      st'.container.symbols.length = st.container.symbols.length + 1 := by
  obtain ⟨-, e', heq⟩ | ⟨hnot, hcount⟩ := st.addFunctionGeneric_symbols name code
  · rw [h] at heq
    cases heq
  · rw [h] at hcount
    exact ⟨hnot, hcount⟩

theorem padBuffer_eq_iff (st : BinaryState) : st.padBuffer = st ↔ st.bufferLength % 4 = 0 := by
  obtain ⟨container, sectionNames, machoLayout, appended, appendedWritable, sectionOverrides,
    slots, deps, force, strict, raws, region, grow⟩ := st
  cases appended with
  | none => simp [padBuffer, bufferLength]
  | some a =>
    have hle := le_alignUp a.bytes.length 4
    simp only [padBuffer, bufferLength, BinaryState.mk.injEq, Option.some.injEq, true_and, and_true]
    constructor
    · intro h
      have hlength := congrArg (fun a => a.bytes.length) h
      simp only [List.length_append, List.length_replicate] at hlength
      have heq : alignUp a.bytes.length 4 = a.bytes.length := by omega
      rw [← heq]
      exact Nat.mod_eq_zero_of_dvd (dvd_alignUp _ (by decide))
    · intro h
      rw [alignUp_of_dvd (Nat.dvd_of_mod_eq_zero h)]
      simp

/-- Whether the plan of a plain append lays out and emits at its place. -/
def PlanEmits (st : BinaryState) (name : String) (p : AnyPlan) : Prop :=
  ∃ segmentVaddr output,
    st.openAppend (p.opCount * 8 + 3) s!"add_function_from_plan({name.quote})"
      = .ok segmentVaddr ∧
    p.EmitsAs (st.codeAddress segmentVaddr) (st.registered name segmentVaddr).container output

/-- A failed call was refused, or took its symbol back and had nothing to pad. -/
theorem addFunctionFromPlan_error_iff {st st' : BinaryState} {name : String} {p : AnyPlan}
    {e : TextEditorError} (h : st.addFunctionFromPlan name p = (.error e, st')) :
    st' = st ↔ p.isEmpty = true ∨
      st.Refuses (p.opCount * 8 + 3) s!"add_function_from_plan({name.quote})" ∨
      (st.PlanEmits name p ∧ st.bufferLength % 4 = 0) := by
  unfold addFunctionFromPlan at h
  by_cases hempty : p.isEmpty = true
  · rw [if_pos hempty] at h
    cases h
    simp [hempty]
  rw [if_neg hempty] at h
  unfold Refuses PlanEmits
  cases hopen : st.openAppend (p.opCount * 8 + 3) s!"add_function_from_plan({name.quote})" with
  | error e' =>
    rw [hopen] at h
    cases h
    simp
  | ok segmentVaddr =>
    rw [hopen] at h
    have hstep := st.appendPlan_step name segmentVaddr (fun _ => p) true
    rw [show st.appendPlan name segmentVaddr (fun _ => p) true = (.error e, st') from h] at hstep
    cases hstep with
    | failed _ hfails =>
      have hne : st.registered name segmentVaddr ≠ st :=
        ne_of_symbols (by rw [registered_symbols]; omega)
      simp only [hne, hempty, false_iff]
      rintro (h' | ⟨e', h'⟩ | ⟨⟨vaddr, output, h', hemits⟩, -⟩)
      · cases h'
      · cases h'
      · cases h'
        exact hfails output hemits
    | refused _ output hinspects hemits hrelocs =>
      rw [padBuffer_eq_iff]
      constructor
      · intro hmod
        exact .inr (.inr ⟨⟨segmentVaddr, output, rfl, hemits⟩, hmod⟩)
      · rintro (h' | ⟨e', h'⟩ | ⟨-, hmod⟩)
        · exact absurd h' hempty
        · cases h'
        · exact hmod

/-- Only the container and the append buffer differ. -/
def AppendsOnly (st st' : BinaryState) : Prop :=
  ∃ container appended, st' = { st with container := container, appended := appended }

theorem appendsOnly_padBuffer (st : BinaryState) : st.AppendsOnly st.padBuffer := by
  unfold padBuffer
  split
  · exact ⟨st.container, st.appended, rfl⟩
  · exact ⟨st.container, _, rfl⟩

theorem appendsOnly_registered (st : BinaryState) (name : String) (segmentVaddr : Nat) :
    st.AppendsOnly (st.registered name segmentVaddr) := by
  obtain ⟨container, appended, h⟩ := st.appendsOnly_padBuffer
  unfold registered registerAppended
  rw [h]
  exact ⟨_, appended, rfl⟩

theorem planStep_appendsOnly {st : BinaryState} {name : String} {segmentVaddr : Nat}
    {toPlan : Container → AnyPlan} {inspects : Bool}
    {result : Except TextEditorError Appended × BinaryState}
    (h : st.PlanStep name segmentVaddr toPlan inspects result) : st.AppendsOnly result.2 := by
  obtain ⟨container, appended, hregistered⟩ := st.appendsOnly_registered name segmentVaddr
  cases h with
  | failed e hfails => exact st.appendsOnly_registered name segmentVaddr
  | refused e output hinspects hemits hrelocs => exact st.appendsOnly_padBuffer
  | placed output hemits hrelocs =>
    refine ⟨container, ?_⟩
    unfold retain
    rw [hregistered]
    exact ⟨_, rfl⟩

theorem addFunctionGeneric_appendsOnly (st : BinaryState) (name : String)
    (code : AnyInstructions) : st.AppendsOnly (st.addFunctionGeneric name code).2 := by
  obtain ⟨-, e, heq⟩ | ⟨-, segmentVaddr, -, hstep⟩ := st.addFunctionGeneric_step name code
  · rw [heq]
    exact ⟨st.container, st.appended, rfl⟩
  · exact planStep_appendsOnly hstep

/-! ## §3. Exports and initialisers. -/

theorem force_eq_iff (st : BinaryState) :
    { st with forceSegmentPlacement := true } = st ↔ st.forceSegmentPlacement = true := by
  obtain ⟨container, sectionNames, machoLayout, appended, appendedWritable, sectionOverrides,
    slots, deps, force, strict, raws, region, grow⟩ := st
  simp only [BinaryState.mk.injEq, true_and, and_true]
  exact eq_comm

/-- The exported form refuses strict Mach-O edits outright. -/
def RefusesExport (st : BinaryState) : Prop :=
  st.noNewSegments = true ∧ st.container.format = .macho

/-- A failed call was refused before it forced a segment, or had it forced
already and was refused then. -/
theorem addFunctionExported_error_iff {st st' : BinaryState} {name : String}
    {instructions : List AarchInstruction} {e : TextEditorError}
    (h : st.addFunctionExported name instructions = (.error e, st')) :
    st' = st ↔ st.RefusesExport ∨
      (st.forceSegmentPlacement = true ∧ st.RefusesCode name (ofAarchInstructions instructions)) := by
  unfold addFunctionExported at h
  split at h
  · next hstrict =>
    cases h
    rw [Bool.and_eq_true, beq_iff_eq] at hstrict
    exact ⟨fun _ => .inl hstrict, fun _ => rfl⟩
  · next hstrict =>
    rw [Bool.and_eq_true, beq_iff_eq] at hstrict
    have hallowed : ¬st.RefusesExport := hstrict
    split at h
    · next e' forced hadd =>
      cases h
      have hiff := addFunctionGeneric_error_iff hadd
      by_cases hforce : st.forceSegmentPlacement = true
      · rw [(st.force_eq_iff).mpr hforce] at hiff
        rw [hiff]
        simp [hallowed, hforce]
      · -- a call does not clear the flag it was made with
        obtain ⟨container, appended, honly⟩ :=
          { st with forceSegmentPlacement := true }.addFunctionGeneric_appendsOnly name
            (ofAarchInstructions instructions)
        rw [show BinaryState.addFunctionGeneric _ name (ofAarchInstructions instructions)
          = _ from hadd] at honly
        have hset : st'.forceSegmentPlacement = true := by rw [show st' = _ from honly]
        constructor
        · intro hsame
          rw [hsame] at hset
          exact absurd hset hforce
        · rintro (hrefused | ⟨hset, -⟩)
          · exact absurd hrefused hallowed
          · exact absurd hset hforce
    · cases h

/-- Nothing is found to hook an initialiser into. -/
def NoInitSlot (st : BinaryState) (position : Elf.InitialiserPosition) : Prop :=
  if st.container.format = .macho then
    position = .append ∨ ∃ e, st.findInitOffsetsSlot position = some (.error e)
  else if position = .append then
    ".rela.dyn" ∉ st.sectionNames ∨ st.container.elfImage = none
  else ∃ e, st.findInitArraySlot position = .error e

/-- The slot that an initialiser takes over. -/
def FindsSlot (st : BinaryState) (position : Elf.InitialiserPosition) (slot : InitSlot) : Prop :=
  position ≠ .append ∧
    if st.container.format = .macho then st.findInitOffsetsSlot position = some (.ok slot)
    else st.findInitArraySlot position = .ok slot

theorem FindsSlot.found {st : BinaryState} {position : Elf.InitialiserPosition} {slot : InitSlot}
    (h : st.FindsSlot position slot) : ¬st.NoInitSlot position := by
  obtain ⟨hposition, hslot⟩ := h
  unfold NoInitSlot
  by_cases hformat : st.container.format = .macho
  · rw [if_pos hformat] at hslot ⊢
    rintro (happend | ⟨e, herror⟩)
    · exact hposition happend
    · cases hslot.symm.trans herror
  · rw [if_neg hformat] at hslot ⊢
    rw [if_neg hposition]
    rintro ⟨e, herror⟩
    cases hslot.symm.trans herror

/-- A failed hijack was refused with its body, or left the body. -/
theorem hijack_error_iff {st st' : BinaryState} {name : String} {body : List AarchInstruction}
    {slot : InitSlot} {e : TextEditorError} (h : st.hijack name body slot = (.error e, st')) :
    st' = st ↔ st.RefusesCode (name ++ "__body") (ofAarchInstructions body) := by
  unfold hijack at h
  split at h
  · next hbody =>
    cases h
    exact addFunctionGeneric_error_iff hbody
  · next user bodied hbody =>
    obtain ⟨hnot, hcount⟩ := addFunctionGeneric_ok hbody
    split at h
    · next hwrapper =>
      cases h
      have hwrap := bodied.addFunctionGeneric_symbols (name ++ "__wrapper")
        (ofAarchInstructions (wrapperBody user.symbol slot.originalCtor))
      rw [show bodied.addFunctionGeneric _ _ = _ from hwrapper] at hwrap
      have hne : st' ≠ st := by
        obtain ⟨-, e', heq⟩ | ⟨-, hcount'⟩ := hwrap
        · cases heq
          exact ne_of_symbols (by omega)
        · have hlength : st'.container.symbols.length = bodied.container.symbols.length + 1 :=
            hcount'
          exact ne_of_symbols (by omega)
      simp [hne, hnot]
    · cases h

/-- A new slot for the body that was appended. -/
def queueSlot : Except TextEditorError Appended × BinaryState →
    Except TextEditorError Appended × BinaryState
  | (.error e, st) => (.error e, st)
  | (.ok user, st) =>
    (.ok user, { st with
      pendingAppendedInitSlots := st.pendingAppendedInitSlots
        ++ [((st.container.symbol user.symbol).map Symbol.address).getD 0] })

/-- All that adding an initialiser can come to. -/
inductive InitialiserStep (st : BinaryState) (name : String) (body : List AarchInstruction)
    (position : Elf.InitialiserPosition) :
    Option (Except TextEditorError Appended × BinaryState) → Prop where
  | panics : InitialiserStep st name body position none
  | refused (e : TextEditorError)
      (hwhy : st.NoInitSlot position ∨
        st.RefusesCode (name ++ "__body") (ofAarchInstructions body)) :
      InitialiserStep st name body position (some (.error e, st))
  | hijacked (slot : InitSlot) (hfinds : st.FindsSlot position slot) :
      InitialiserStep st name body position (some (st.hijack name body slot))
  | slotted (happend : position = .append) (hfound : ¬st.NoInitSlot position) :
      InitialiserStep st name body position
        (some (queueSlot (st.addFunction (name ++ "__body") body)))

theorem refusesCode_of_unlinked {st : BinaryState} {name : String} {code : AnyInstructions}
    (h : st.isLinked = false) : st.RefusesCode name code :=
  .inr ⟨_, by rw [openAppend, h]; rfl⟩

theorem addInitialiserMacho_step {st : BinaryState} {name : String} {body : List AarchInstruction}
    {position : Elf.InitialiserPosition} (hformat : st.container.format = .macho) :
    st.InitialiserStep name body position (st.addInitialiserMacho name body position) := by
  have hslot : st.NoInitSlot position ↔
      (position = .append ∨ ∃ e, st.findInitOffsetsSlot position = some (.error e)) := by
    rw [NoInitSlot, if_pos hformat]
  unfold addInitialiserMacho
  split
  · exact .refused _ (.inl (hslot.mpr (.inl rfl)))
  · next happend =>
    split
    · exact .panics
    · next e hfind => exact .refused e (.inl (hslot.mpr (.inr ⟨e, hfind⟩)))
    · next slot hfind => exact .hijacked slot ⟨happend, by rw [if_pos hformat]; exact hfind⟩

theorem appendInitialiser_step {st : BinaryState} {name : String} {body : List AarchInstruction}
    (hformat : st.container.format ≠ .macho) :
    st.InitialiserStep name body .append (some (st.appendInitialiser name body)) := by
  have hslot : st.NoInitSlot .append ↔
      (".rela.dyn" ∉ st.sectionNames ∨ st.container.elfImage = none) := by
    rw [NoInitSlot, if_neg hformat, if_pos rfl]
  unfold appendInitialiser
  split
  · next hrela =>
    rw [Bool.not_eq_true', List.any_eq_false] at hrela
    exact .refused _ (.inl (hslot.mpr (.inl fun hmem => hrela _ hmem (beq_self_eq_true _))))
  · next hrela =>
    split
    · next himage =>
      exact .refused _ (.inl (hslot.mpr (.inr (Option.isNone_iff_eq_none.mp himage))))
    · next himage =>
      have hstep : st.InitialiserStep name body .append
          (some (queueSlot (st.addFunction (name ++ "__body") body))) := by
        refine .slotted rfl fun hnone => ?_
        obtain h | h := hslot.mp hnone
        · refine hrela ?_
          rw [Bool.not_eq_true', List.any_eq_false]
          intro x hx heq
          rw [beq_iff_eq] at heq
          exact h (heq ▸ hx)
        · exact himage (Option.isNone_iff_eq_none.mpr h)
      exact hstep

theorem addInitialiser_step (st : BinaryState) (name : String) (body : List AarchInstruction)
    (position : Elf.InitialiserPosition) :
    st.InitialiserStep name body position (st.addInitialiser name body position) := by
  unfold addInitialiser
  split
  · next hempty => exact .refused _ (.inr (.inl hempty))
  split
  · next hlinked =>
    exact .refused _ (.inr (refusesCode_of_unlinked ((Bool.not_eq_true' _).mp hlinked)))
  split
  · next hformat => exact addInitialiserMacho_step (beq_iff_eq.mp hformat)
  · next hformat =>
    rw [beq_iff_eq] at hformat
    split
    · exact appendInitialiser_step hformat
    · next happend =>
      have hslot : st.NoInitSlot position ↔ ∃ e, st.findInitArraySlot position = .error e := by
        rw [NoInitSlot, if_neg hformat, if_neg happend]
      split
      · next e hfind => exact .refused e (.inl (hslot.mpr ⟨e, hfind⟩))
      · next slot hfind => exact .hijacked slot ⟨happend, by rw [if_neg hformat]; exact hfind⟩

theorem addInitialiser_error_iff {st st' : BinaryState} {name : String}
    {body : List AarchInstruction} {position : Elf.InitialiserPosition} {e : TextEditorError}
    (h : st.addInitialiser name body position = some (.error e, st')) :
    st' = st ↔ st.NoInitSlot position ∨
      st.RefusesCode (name ++ "__body") (ofAarchInstructions body) := by
  have hstep := st.addInitialiser_step name body position
  rw [h] at hstep
  generalize hresult : (some (Except.error e, st') :
    Option (Except TextEditorError Appended × BinaryState)) = result at hstep
  cases hstep with
  | panics => cases hresult
  | refused e' hwhy =>
    cases hresult
    simp [hwhy]
  | hijacked slot hfinds =>
    rw [hijack_error_iff (Option.some.inj hresult).symm]
    simp [hfinds.found]
  | slotted happend hfound =>
    have hbody := (Option.some.inj hresult).symm
    cases hadd : st.addFunction (name ++ "__body") body with
    | mk answer bodied =>
      rw [hadd] at hbody
      cases answer with
      | ok user => cases hbody
      | error e' =>
        cases hbody
        rw [addFunctionGeneric_error_iff hadd]
        simp [hfound]

theorem addData_error {st st' : BinaryState} {name : String} {bytes : List Byte} {align : Nat}
    {e : TextEditorError} (h : st.addData name bytes align = (.error e, st')) : st' = st := by
  unfold addData at h
  split at h
  · cases h
    rfl
  · cases h

theorem addWritableData_error {st st' : BinaryState} {name : String} {bytes : List Byte}
    {align : Nat} {e : TextEditorError}
    (h : st.addWritableData name bytes align = (.error e, st')) : st' = st := by
  unfold addWritableData at h
  split at h
  · cases h
    rfl
  split at h
  · cases h
    rfl
  split at h
  · cases h
    rfl
  · cases h

end BinaryState

/-! ## §4. Every call. -/

/-- When a call that fails was refused before it changed anything. -/
def AppendCall.RefusedFirst (st : BinaryState) : AppendCall → Prop
  | .addFunctionGeneric name code => st.RefusesCode name code
  | .addFunctionFromPlan name p =>
    p.isEmpty = true ∨ st.Refuses (p.opCount * 8 + 3) s!"add_function_from_plan({name.quote})" ∨
      (st.PlanEmits name p ∧ st.bufferLength % 4 = 0)
  | .addFunctionExported name instructions =>
    st.RefusesExport ∨
      (st.forceSegmentPlacement = true ∧ st.RefusesCode name (ofAarchInstructions instructions))
  | .addInitialiser name body position =>
    st.NoInitSlot position ∨ st.RefusesCode (name ++ "__body") (ofAarchInstructions body)
  | _ => True

theorem ofCode_error {result : Except TextEditorError Appended × BinaryState}
    {e : TextEditorError} {st' : BinaryState} (h : Answer.ofCode result = (.error e, st')) :
    result = (.error e, st') := by
  obtain ⟨answer, st⟩ := result
  cases answer with
  | error e' =>
    cases h
    rfl
  | ok appended => cases h

theorem ofData_error {result : Except TextEditorError SymbolId × BinaryState}
    {e : TextEditorError} {st' : BinaryState} (h : Answer.ofData result = (.error e, st')) :
    result = (.error e, st') := by
  obtain ⟨answer, st⟩ := result
  cases answer with
  | error e' =>
    cases h
    rfl
  | ok symbol => cases h

/-- A linked image without segments, sections or symbols. -/
def linkedImage : Container := { bareImage with elfImage := some ⟨[], [], []⟩ }

def linkedState : BinaryState := .new linkedImage [] none

/-- A conditional branch that no widening brings into reach. -/
def unreachableBranch : AarchInstruction := .new .beq [.branch (.absolute 0x10000000000)] none

def addUnreachable : AppendCall :=
  .addFunctionGeneric "f" (ofAarchInstructions [unreachableBranch])

theorem run_addUnreachable :
    addUnreachable.run linkedState
      = some (.error (.layout (.displacementTooLarge 0x10000 0x10000000000 0xffffff0000)),
          linkedState.registered "f" 0x10000) := rfl

/-- A failed append leaves the editor as it was exactly when it was refused
before it changed anything. -/
theorem failedAppend_iff (st st' : BinaryState) (call : AppendCall) (e : TextEditorError)
    (hseeded : st.Seeded) (h : call.run st = some (.error e, st')) :
    st' = st ↔ call.RefusedFirst st := by
  cases call with
  | addFunctionGeneric name code =>
    exact BinaryState.addFunctionGeneric_error_iff (ofCode_error (Option.some.inj h))
  | addFunctionFromPlan name p =>
    exact BinaryState.addFunctionFromPlan_error_iff (ofCode_error (Option.some.inj h))
  | addFunctionExported name instructions =>
    exact BinaryState.addFunctionExported_error_iff (ofCode_error (Option.some.inj h))
  | addInitialiser name body position =>
    obtain ⟨result, hresult, hanswer⟩ := Option.map_eq_some_iff.mp h
    rw [ofCode_error hanswer] at hresult
    exact BinaryState.addInitialiser_error_iff hresult
  | addData name bytes align =>
    have hsame := BinaryState.addData_error (ofData_error (Option.some.inj h))
    exact ⟨fun _ => trivial, fun _ => hsame⟩
  | addWritableData name bytes align =>
    have hsame := BinaryState.addWritableData_error (ofData_error (Option.some.inj h))
    exact ⟨fun _ => trivial, fun _ => hsame⟩
  | addFunctionIn region name instructions =>
    refine ⟨fun _ => trivial, fun _ => ?_⟩
    have herror := ofCode_error (Option.some.inj h)
    unfold BinaryState.addFunctionIn at herror
    split at herror
    · cases herror
      rfl
    · exact BinaryState.placePlanInRegion_error hseeded herror
  | addFunctionFromPlanIn region name p =>
    refine ⟨fun _ => trivial, fun _ => ?_⟩
    have herror := ofCode_error (Option.some.inj h)
    unfold BinaryState.addFunctionFromPlanIn at herror
    split at herror
    · cases herror
      rfl
    · exact BinaryState.placePlanInRegion_error hseeded herror
  | addDataIn region name bytes align =>
    have hsame := BinaryState.placeRawInRegion_error hseeded (ofData_error (Option.some.inj h))
    exact ⟨fun _ => trivial, fun _ => hsame⟩
  | addRawCodeIn region name bytes align =>
    have hsame := BinaryState.placeRawInRegion_error hseeded (ofData_error (Option.some.inj h))
    exact ⟨fun _ => trivial, fun _ => hsame⟩
  | nextAddressIn region align =>
    simp only [AppendCall.run] at h
    split at h
    · cases h
    · cases h
      exact ⟨fun _ => trivial, fun _ => rfl⟩

/-- The branch passes the checks of its call. -/
theorem addUnreachable_notRefused : ¬addUnreachable.RefusedFirst linkedState := by
  intro hrefused
  have hsame := (failedAppend_iff linkedState _ addUnreachable _ (fun h => absurd h (by decide))
    run_addUnreachable).mpr hrefused
  exact BinaryState.ne_of_symbols (by decide) hsame

/-- The function is not added, and its symbol stays in the container. -/
theorem addUnreachable_leavesSymbol :
    ∃ e st', addUnreachable.run linkedState = some (.error e, st') ∧ st' ≠ linkedState :=
  ⟨_, _, run_addUnreachable, BinaryState.ne_of_symbols (by decide)⟩

end Armv8Encode.Editor

/-
  Armv8Encode.Rewrite.Editor.AppendRelocations — references of appended code.

  The bytes of appended code are written as they are; no relocation goes with
  them.  Two of the calls look at what emit recorded and refuse it.  The others
  append the placeholder, and the call counts as a success.  A commit that
  emits the content again refuses as well.

  Main results:
    * `appendedCode_iff` — what a successful call emitted is without
      relocations exactly when the call looks, or every reference folds.
-/
import Armv8Encode.Isa.Aarch64.EmitSizes
import Armv8Encode.Isa.Aarch64.FusionSpec
import Armv8Encode.Isa.Aarch64.MacroRelocation
import Armv8Encode.Rewrite.Editor.Rebase
import Armv8Encode.Rewrite.Folding

namespace Armv8Encode.Editor

open Lib

/-! ## §1. Plans that fold. -/

namespace AnyPlan

/-- Every op of the plan folds where a layout puts it. -/
def Folds (p : AnyPlan) (layout : Layout) (c : Container) : Prop :=
  letI := p.mnemonicEq
  letI := p.operandEq
  PlanFolds p.isa p.plan layout (some c)

/-- Laid out from an address, every op of the plan folds. -/
def FoldsAt (p : AnyPlan) (va : Nat) (c : Container) : Prop :=
  ∀ layout, p.layOut (BitVec.ofNat 64 va) c = .ok layout → p.Folds layout c

theorem emit_eq_ok {p : AnyPlan} {layout : Layout} {c : Container} {output : EmitOutput}
    (h : p.emit layout c = .ok output) :
    letI := p.mnemonicEq
    letI := p.operandEq
    Armv8Encode.emit p.isa p.plan layout (some c) = .ok output := by
  unfold emit at h
  split at h
  · next out hout =>
    rw [← Except.ok.inj h]
    exact hout
  · cases h

/-- The code of a plan is without relocations exactly when the plan folds. -/
theorem EmitsAs.relocations_iff {p : AnyPlan} {va : Nat} {c : Container} {output : EmitOutput}
    (hframe : p.isa.MacroFrame) (h : p.EmitsAs va c output) :
    output.relocations = [] ↔ p.FoldsAt va c := by
  obtain ⟨layout, hlayout, hemit⟩ := h
  let := p.mnemonicEq
  let := p.operandEq
  rw [emit_relocations_iff hframe (emit_eq_ok hemit)]
  constructor
  · intro hfolds layout' hlayout'
    rw [← Except.ok.inj (hlayout.symm.trans hlayout')]
    exact hfolds
  · intro hfolds
    exact hfolds layout hlayout

end AnyPlan

/-! ## §2. One body. -/

namespace BinaryState

/-- Every reference of code that `addFunctionGeneric` appends folds. -/
def CodeFolds (st : BinaryState) (name : String) (code : AnyInstructions) : Prop :=
  ∀ segmentVaddr,
    st.openAppend (code.bodyBytes + 3) s!"add_function({name.quote})" = .ok segmentVaddr →
      (code.fromInstructions (st.registered name segmentVaddr).container).FoldsAt
        (st.codeAddress segmentVaddr) (st.registered name segmentVaddr).container

theorem addFunctionGeneric_relocations {st st' : BinaryState} {name : String}
    {code : AnyInstructions} {appended : Appended} (hframe : code.isa.MacroFrame)
    (h : st.addFunctionGeneric name code = (.ok appended, st')) :
    (∀ output ∈ appended.outputs, output.relocations = []) ↔ st.CodeFolds name code := by
  obtain ⟨-, e, heq⟩ | ⟨-, segmentVaddr, hopen, hstep⟩ := st.addFunctionGeneric_step name code
  · rw [h] at heq
    cases heq
  · rw [h] at hstep
    cases hstep with
    | placed output hemits hrelocs =>
      have hiff := hemits.relocations_iff hframe
      simp only [List.mem_singleton, forall_eq]
      rw [hiff]
      constructor
      · intro hfolds segmentVaddr' hopen'
        rw [← Except.ok.inj (hopen.symm.trans hopen')]
        exact hfolds
      · intro hfolds
        exact hfolds segmentVaddr hopen

/-- A plan appended whole has been looked at. -/
theorem addFunctionFromPlan_relocations {st st' : BinaryState} {name : String} {p : AnyPlan}
    {appended : Appended} (h : st.addFunctionFromPlan name p = (.ok appended, st')) :
    ∀ output ∈ appended.outputs, output.relocations = [] := by
  unfold addFunctionFromPlan at h
  split at h
  · cases h
  split at h
  · cases h
  next segmentVaddr hopen =>
  have hstep := st.appendPlan_step name segmentVaddr (fun _ => p) true
  rw [h] at hstep
  cases hstep with
  | placed output hemits hrelocs =>
    simp only [List.mem_singleton, forall_eq]
    exact hrelocs rfl

theorem addFunctionExported_relocations {st st' : BinaryState} {name : String}
    {instructions : List AarchInstruction} {appended : Appended}
    (h : st.addFunctionExported name instructions = (.ok appended, st')) :
    (∀ output ∈ appended.outputs, output.relocations = []) ↔
      { st with forceSegmentPlacement := true }.CodeFolds name
        (ofAarchInstructions instructions) := by
  unfold addFunctionExported at h
  split at h
  · cases h
  split at h
  · cases h
  · next hadd =>
    cases h
    exact addFunctionGeneric_relocations aarch64_macroFrame hadd

/-- Every reference of the wrapper around an appended body folds. -/
def WrapperFolds (st : BinaryState) (name : String) (body : List AarchInstruction)
    (slot : InitSlot) : Prop :=
  ∀ user bodied, st.addFunction (name ++ "__body") body = (.ok user, bodied) →
    bodied.CodeFolds (name ++ "__wrapper")
      (ofAarchInstructions (wrapperBody user.symbol slot.originalCtor))

theorem hijack_relocations {st st' : BinaryState} {name : String} {body : List AarchInstruction}
    {slot : InitSlot} {appended : Appended} (h : st.hijack name body slot = (.ok appended, st')) :
    (∀ output ∈ appended.outputs, output.relocations = []) ↔
      st.CodeFolds (name ++ "__body") (ofAarchInstructions body) ∧
        st.WrapperFolds name body slot := by
  unfold hijack at h
  split at h
  · cases h
  · next user bodied hbody =>
    split at h
    · cases h
    · next wrapper wrapped hwrapper =>
      cases h
      have hfirst := addFunctionGeneric_relocations aarch64_macroFrame hbody
      have hsecond := addFunctionGeneric_relocations aarch64_macroFrame hwrapper
      simp only [List.mem_append, or_imp, forall_and]
      rw [hfirst, hsecond]
      refine and_congr_right fun _ => ⟨fun hfolds user' bodied' hbody' => ?_, fun hfolds => ?_⟩
      · cases hbody.symm.trans hbody'
        exact hfolds
      · exact hfolds user bodied hbody

theorem findsSlot_unique {st : BinaryState} {position : Elf.InitialiserPosition}
    {slot slot' : InitSlot} (h : st.FindsSlot position slot) (h' : st.FindsSlot position slot') :
    slot = slot' := by
  obtain ⟨-, hslot⟩ := h
  obtain ⟨-, hslot'⟩ := h'
  by_cases hformat : st.container.format = .macho
  · rw [if_pos hformat] at hslot hslot'
    exact Except.ok.inj (Option.some.inj (hslot.symm.trans hslot'))
  · rw [if_neg hformat] at hslot hslot'
    exact Except.ok.inj (hslot.symm.trans hslot')

theorem addInitialiser_relocations {st st' : BinaryState} {name : String}
    {body : List AarchInstruction} {position : Elf.InitialiserPosition} {appended : Appended}
    (h : st.addInitialiser name body position = some (.ok appended, st')) :
    (∀ output ∈ appended.outputs, output.relocations = []) ↔
      st.CodeFolds (name ++ "__body") (ofAarchInstructions body) ∧
        ∀ slot, st.FindsSlot position slot → st.WrapperFolds name body slot := by
  have hstep := st.addInitialiser_step name body position
  rw [h] at hstep
  generalize hresult : (some (Except.ok appended, st') :
    Option (Except TextEditorError Appended × BinaryState)) = result at hstep
  cases hstep with
  | panics => cases hresult
  | refused e hwhy => cases hresult
  | hijacked slot hfinds =>
    rw [hijack_relocations (Option.some.inj hresult).symm]
    refine and_congr_right fun _ => ⟨fun hfolds slot' hfinds' => ?_, fun hfolds => ?_⟩
    · rw [← findsSlot_unique hfinds hfinds']
      exact hfolds
    · exact hfolds slot hfinds
  | slotted happend hfound =>
    have hbody := (Option.some.inj hresult).symm
    cases hadd : st.addFunction (name ++ "__body") body with
    | mk answer bodied =>
      rw [hadd] at hbody
      cases answer with
      | error e => cases hbody
      | ok user =>
        cases hbody
        rw [addFunctionGeneric_relocations aarch64_macroFrame hadd]
        exact ⟨fun hfolds => ⟨hfolds, fun slot hfinds => absurd happend hfinds.1⟩, And.left⟩

/-- Every reference of a plan folds where a region puts it. -/
def RegionFolds (st : BinaryState) (region : RegionId) (p : AnyPlan) : Prop :=
  ∀ target, st.nextAddressIn region 4 = .ok target → p.FoldsAt target st.container

theorem placePlanInRegion_relocations {st st' : BinaryState} {region : RegionId} {name : String}
    {p : AnyPlan} {inspects : Bool} {appended : Appended}
    (h : st.placePlanInRegion region name p inspects = (.ok appended, st')) :
    ∃ target output, st.nextAddressIn region 4 = .ok target ∧
      p.EmitsAs target st.container output ∧ (inspects = true → output.relocations = []) ∧
      appended.outputs = [output] := by
  unfold placePlanInRegion at h
  split at h
  · cases h
  next target htarget =>
  split at h
  · cases h
  next layout hlayout =>
  split at h
  · cases h
  next output houtput =>
  split at h
  · cases h
  next hkept =>
  split at h
  · cases h
  · cases h
    refine ⟨target, output, htarget, ⟨layout, hlayout, houtput⟩, fun hinspects => ?_, rfl⟩
    by_contra hne
    exact hkept (by simp [hinspects, hne])

theorem addFunctionIn_relocations {st st' : BinaryState} {region : RegionId} {name : String}
    {instructions : List AarchInstruction} {appended : Appended}
    (h : st.addFunctionIn region name instructions = (.ok appended, st')) :
    (∀ output ∈ appended.outputs, output.relocations = []) ↔
      st.RegionFolds region ((ofAarchInstructions instructions).fromInstructions st.container) := by
  unfold addFunctionIn at h
  split at h
  · cases h
  obtain ⟨target, output, htarget, hemits, -, houtputs⟩ := placePlanInRegion_relocations h
  rw [houtputs]
  simp only [List.mem_singleton, forall_eq]
  rw [hemits.relocations_iff aarch64_macroFrame]
  constructor
  · intro hfolds target' htarget'
    rw [← Except.ok.inj (htarget.symm.trans htarget')]
    exact hfolds
  · intro hfolds
    exact hfolds target htarget

theorem addFunctionFromPlanIn_relocations {st st' : BinaryState} {region : RegionId}
    {name : String} {p : AnyPlan} {appended : Appended}
    (h : st.addFunctionFromPlanIn region name p = (.ok appended, st')) :
    ∀ output ∈ appended.outputs, output.relocations = [] := by
  unfold addFunctionFromPlanIn at h
  split at h
  · cases h
  obtain ⟨target, output, -, -, hrelocs, houtputs⟩ := placePlanInRegion_relocations h
  rw [houtputs]
  simp only [List.mem_singleton, forall_eq]
  exact hrelocs rfl

end BinaryState

/-! ## §3. Every call. -/

/-- The call takes code of an instruction set whose macros only append. -/
def AppendCall.MacrosAppend : AppendCall → Prop
  | .addFunctionGeneric _ code => code.isa.MacroFrame
  | _ => True

/-- The call looks at what emit recorded, or every reference in the code that it
emits folds. -/
def AppendCall.KeepsNoRelocation (st : BinaryState) : AppendCall → Prop
  | .addFunctionGeneric name code => st.CodeFolds name code
  | .addFunctionExported name instructions =>
    { st with forceSegmentPlacement := true }.CodeFolds name (ofAarchInstructions instructions)
  | .addInitialiser name body position =>
    st.CodeFolds (name ++ "__body") (ofAarchInstructions body) ∧
      ∀ slot, st.FindsSlot position slot → st.WrapperFolds name body slot
  | .addFunctionIn region _ instructions =>
    st.RegionFolds region ((ofAarchInstructions instructions).fromInstructions st.container)
  | _ => True

theorem ofCode_ok {result : Except TextEditorError Appended × BinaryState} {appended : Appended}
    {st' : BinaryState} (h : Answer.ofCode result = (.ok (.symbol appended), st')) :
    result = (.ok appended, st') := by
  obtain ⟨answer, st⟩ := result
  cases answer with
  | error e => cases h
  | ok appended' =>
    cases h
    rfl

theorem ofData_outputs {result : Except TextEditorError SymbolId × BinaryState}
    {appended : Appended} {st' : BinaryState}
    (h : Answer.ofData result = (.ok (.symbol appended), st')) : appended.outputs = [] := by
  obtain ⟨answer, st⟩ := result
  cases answer with
  | error e => cases h
  | ok symbol =>
    cases h
    rfl

/-- What a successful append emitted is without relocations exactly when the
call looks at them or every reference folds. -/
theorem appendedCode_iff (st st' : BinaryState) (call : AppendCall) (appended : Appended)
    (hmacros : call.MacrosAppend) (h : call.run st = some (.ok (.symbol appended), st')) :
    (∀ output ∈ appended.outputs, output.relocations = []) ↔ call.KeepsNoRelocation st := by
  have hdata : appended.outputs = [] → ((∀ output ∈ appended.outputs, output.relocations = [])
      ↔ True) := by
    intro hnone
    simp [hnone]
  cases call with
  | addFunctionGeneric name code =>
    exact BinaryState.addFunctionGeneric_relocations hmacros (ofCode_ok (Option.some.inj h))
  | addFunctionFromPlan name p =>
    have hall := BinaryState.addFunctionFromPlan_relocations (ofCode_ok (Option.some.inj h))
    exact iff_of_true hall trivial
  | addFunctionExported name instructions =>
    exact BinaryState.addFunctionExported_relocations (ofCode_ok (Option.some.inj h))
  | addInitialiser name body position =>
    obtain ⟨result, hresult, hanswer⟩ := Option.map_eq_some_iff.mp h
    rw [ofCode_ok hanswer] at hresult
    exact BinaryState.addInitialiser_relocations hresult
  | addData name bytes align => exact hdata (ofData_outputs (Option.some.inj h))
  | addWritableData name bytes align => exact hdata (ofData_outputs (Option.some.inj h))
  | addFunctionIn region name instructions =>
    exact BinaryState.addFunctionIn_relocations (ofCode_ok (Option.some.inj h))
  | addFunctionFromPlanIn region name p =>
    have hall := BinaryState.addFunctionFromPlanIn_relocations (ofCode_ok (Option.some.inj h))
    exact iff_of_true hall trivial
  | addDataIn region name bytes align => exact hdata (ofData_outputs (Option.some.inj h))
  | addRawCodeIn region name bytes align => exact hdata (ofData_outputs (Option.some.inj h))
  | nextAddressIn region align =>
    simp only [AppendCall.run] at h
    split at h <;> cases h

/-! ### A call to an import without a stub. -/

/-- A linked image that imports a function and has no stub for it. -/
def importingImage : Container :=
  { linkedImage with
    symbols := [⟨⟨0⟩, "puts", 0, .function, none, true⟩]
    symbolIds := rfl }

def importingState : BinaryState := .new importingImage [] none

def callImport : AarchInstruction := .new .bl [.branch (.symbol ⟨0⟩)] none

def addCallImport : AppendCall := .addFunctionGeneric "f" (ofAarchInstructions [callImport])

def callImportPlan : AnyPlan :=
  (ofAarchInstructions [callImport]).fromInstructions
    (importingState.registered "f" 0x10000).container

/-- A call with a zero displacement, and its relocation. -/
def callImportOutput : EmitOutput := ⟨toLeBytes 0x94000000#32, [⟨0, .branch26, ⟨0⟩, 0⟩]⟩

/-- The editor after the call. -/
def afterCallImport : BinaryState :=
  (importingState.registered "f" 0x10000).retain 0x10000 (.function "f" 0 callImportPlan)
    callImportOutput.bytes

theorem emitsAs_callImport :
    callImportPlan.EmitsAs 0x10000 (importingState.registered "f" 0x10000).container
      callImportOutput := by
  have hencoded : encodeInstruction ⟨0x10000, .bl, [.branchTarget 0x10000]⟩
      = .ok 0x94000000#32 := by
    rw [encodeInstruction, opcodesForMnemonic_branch rfl]
    decide
  have hencode : aarch64.encode .bl [.branchTarget 0x10000] 0x10000
      = .ok (toLeBytes 0x94000000#32) := by
    show aarchEncode .bl [.branchTarget 0x10000] 0x10000 = _
    rw [aarchEncode, hencoded]
    rfl
  have hplaceholder : emitWithRelocation aarch64 callImport 0x10000 ⟨0⟩ .branch .empty
      = .ok callImportOutput := emitWithRelocation_ok .empty rfl hencode
  refine ⟨⟨0x10000, 4, [0x10000], [[⟨0x10000, 4, .normal⟩]]⟩, by decide, emit_ofAarch ?_⟩
  exact emit_single rfl (emitInstruction_iff.mpr (.placeholder ⟨0⟩ .branch rfl (.inr rfl)
    hplaceholder))

theorem run_addCallImport :
    addCallImport.run importingState
      = some (.ok (.symbol ⟨⟨1⟩, [callImportOutput]⟩), afterCallImport) := by
  have hopen (name : String) : importingState.openAppend
      ((ofAarchInstructions [callImport]).bodyBytes + 3) s!"add_function({name.quote})"
        = .ok 0x10000 := rfl
  have hrun : importingState.addFunctionGeneric "f" (ofAarchInstructions [callImport])
      = (.ok ⟨⟨1⟩, [callImportOutput]⟩, afterCallImport) := by
    rw [BinaryState.addFunctionGeneric_eq rfl (hopen "f")]
    exact importingState.appendPlan_eq "f" 0x10000 emitsAs_callImport fun h => absurd h (by decide)
  show some (Answer.ofCode (importingState.addFunctionGeneric "f" _)) = _
  rw [hrun]
  rfl

/-- The reference does not fold. -/
theorem addCallImport_unfolded : ¬addCallImport.KeepsNoRelocation importingState := by
  intro hfolds
  have hnone := (appendedCode_iff importingState afterCallImport addCallImport _
    aarch64_macroFrame run_addCallImport).mpr hfolds _ (List.mem_singleton.mpr rfl)
  exact absurd hnone (by decide)

/-- The call and the commit after it succeed, and the relocation is dropped. -/
theorem addCallImport_dropsRelocation :
    ∃ appended st' st'', addCallImport.run importingState = some (.ok (.symbol appended), st') ∧
      st'.commitAppended = .ok st'' ∧ ∃ output ∈ appended.outputs, output.relocations ≠ [] :=
  ⟨_, afterCallImport, afterCallImport, run_addCallImport, rfl, _, List.mem_singleton.mpr rfl,
    by decide⟩

end Armv8Encode.Editor

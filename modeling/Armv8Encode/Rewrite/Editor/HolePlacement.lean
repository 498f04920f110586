/-
  Armv8Encode.Rewrite.Editor.HolePlacement — code and data put into freed text.

  A placement takes room from a pool of holes, writes the bytes as overlays of
  the lifted text section and defines a symbol for them.  Data needs no layout.
  Code is sized by a layout at address zero, reserved, and emitted at its hole;
  scattered code gets a hole for every block.

  A placement that fails is meant to leave the pool as it was.
  `restores_iff_rollsBack` says exactly when it does.
-/
import Armv8Encode.Rewrite.Editor.Holes
import Armv8Encode.Rewrite.Editor.State

namespace Armv8Encode.Editor

open Lib

/-! ## §1. Placements. -/

/-- Define a local symbol of a section. -/
def BinaryState.defineTextSymbol (st : BinaryState) (name : String) (addr : Nat) (func : Bool)
    (sectionId : SectionId) : SymbolId × BinaryState :=
  (⟨st.container.symbols.length⟩,
    { st with
      container := st.container.pushSymbol name (BitVec.ofNat 64 addr)
        (if func then .function else .object) (some sectionId) })

/-- Where each block of a plan landed, and its offset in the contiguous code. -/
structure ScatterPlacement where
  symbol : SymbolId
  blockVas : List Nat
  blockOffsets : List Nat
  deriving Repr, DecidableEq

/-- The layout errors after which a caller may try another placement. -/
def isOutOfReach : LayoutError → Bool
  | .displacementTooLarge _ _ _ => true
  | .didNotConverge => true
  | _ => false

def noLiftedText : TextEditorError := .sectionNotFound "<no lifted .text>"

/-- Offsets of consecutive pieces. -/
def blockOffsets (off : Nat) : List Nat → List Nat
  | [] => []
  | size :: sizes => off :: blockOffsets (off + size) sizes

/-- Consecutive slices of the emitted bytes, each with its address. -/
def scatterOverlays : List Nat → List Nat → List Byte → List (Nat × List Byte)
  | va :: vas, size :: sizes, bytes =>
    (va, bytes.take size) :: scatterOverlays vas sizes (bytes.drop size)
  | _, _, _ => []

namespace BinaryEditor

def placeDataInHoles (ed : BinaryEditor) (name : String) (data : List Byte) (holes : List Hole) :
    Option SymbolId × BinaryEditor × List Hole :=
  match takeHole holes data.length with
  | none => (none, ed, holes)
  | some (va, holes) =>
    match ed.text with
    | none => (none, ed, holes)
    | some text =>
      let defined := ed.binary.defineTextSymbol name va false text.sectionId
      (some defined.1, ⟨defined.2, some (text.overlayBytes va data)⟩, holes)

def placePlanInHoles (ed : BinaryEditor) (name : String) (p : AnyPlan) (holes : List Hole) :
    Except TextEditorError (Option SymbolId) × BinaryEditor × List Hole :=
  match p.layOutForSize 0 ed.binary.container with
  | .error e => (.error (.layout e), ed, holes)
  | .ok sized =>
    match reserveHole holes sized.totalSize.toNat with
    | none => (.ok none, ed, holes)
    | some (va, reservation, holes) =>
      match p.layOut (BitVec.ofNat 64 va) ed.binary.container with
      | .error e =>
        (if isOutOfReach e then .ok none else .error (.layout e), ed,
          releaseHole holes reservation)
      | .ok layout =>
        match p.emit layout ed.binary.container with
        | .error (.encode _) => (.ok none, ed, releaseHole holes reservation)
        | .error e => (.error (.emit e), ed, releaseHole holes reservation)
        | .ok output =>
          if output.relocations.isEmpty then
            match ed.text with
            | none => (.error noLiftedText, ed, holes)
            | some text =>
              let defined := ed.binary.defineTextSymbol name va true text.sectionId
              (.ok (some defined.1), ⟨defined.2, some (text.overlayBytes va output.bytes)⟩, holes)
          else (.ok none, ed, releaseHole holes reservation)

/-- None where the source panics: it slices the emitted bytes at the source
sizes of the blocks. -/
def placePlanScattered (ed : BinaryEditor) (name : String) (p : AnyPlan) (holes : List Hole) :
    Option (Except TextEditorError (Option ScatterPlacement) × BinaryEditor × List Hole) :=
  if p.plan.blocks.isEmpty then some (.ok none, ed, holes)
  else if p.blockSizes.any fun size => size == 0 then some (.ok none, ed, holes)
  else
    match takeHoles holes p.blockSizes with
    | none => some (.ok none, ed, holes)
    | some (addrs, tentative) =>
      match p.layOutScattered (addrs.map (BitVec.ofNat 64)) ed.binary.container with
      | .error e =>
        some (if isOutOfReach e then .ok none else .error (.layout e), ed, holes)
      | .ok layout =>
        match p.emit layout ed.binary.container with
        | .error e => some (.error (.emit e), ed, holes)
        | .ok output =>
          if output.relocations.isEmpty then
            match ed.text with
            | none => some (.error noLiftedText, ed, tentative)
            | some text =>
              if output.bytes.length < p.blockSizes.sum then none
              else
                let text := { text with
                  overlays := text.overlays ++ scatterOverlays addrs p.blockSizes output.bytes }
                let defined := ed.binary.defineTextSymbol name (addrs.head?.getD 0) true
                  text.sectionId
                some (.ok (some ⟨defined.1, addrs, blockOffsets 0 p.blockSizes⟩),
                  ⟨defined.2, some text⟩, tentative)
          else some (.ok none, ed, holes)

end BinaryEditor

/-! ## §2. Calls. -/

/-- A call of one of the three placements; `P` says which plans it may place. -/
inductive HoleCall.{u} (P : Type u) : Type u where
  | data (name : String) (bytes : List Byte)
  | plan (name : String) (p : P)
  | scattered (name : String) (p : P)

structure Outcome : Type 1 where
  placed : Bool
  editor : BinaryEditor
  holes : List Hole

/-- A result that holds a symbol or a placement. -/
def isPlaced {α : Type} : Except TextEditorError (Option α) → Bool
  | .ok (some _) => true
  | _ => false

/-- What a call does; none where the source panics. -/
def HoleCall.run (call : HoleCall AnyPlan) (ed : BinaryEditor) (holes : List Hole) :
    Option Outcome :=
  match call with
  | .data name bytes =>
    let r := ed.placeDataInHoles name bytes holes
    some ⟨r.1.isSome, r.2.1, r.2.2⟩
  | .plan name p =>
    let r := ed.placePlanInHoles name p holes
    some ⟨isPlaced r.1, r.2.1, r.2.2⟩
  | .scattered name p =>
    match ed.placePlanScattered name p holes with
    | none => none
    | some r => some ⟨isPlaced r.1, r.2.1, r.2.2⟩

/-- A call that places nothing leaves the editor and the pool as they were. -/
def Restores (call : HoleCall AnyPlan) (ed : BinaryEditor) (holes : List Hole) : Prop :=
  ∀ out, call.run ed holes = some out → out.placed = false →
    out.holes = holes ∧ out.editor = ed

/-! ## §3. When nothing is left behind. -/

/-- The hole that a request takes from, and its position. -/
def RoomFor (holes : List Hole) (need : Nat) (hole : Hole) (idx : Nat) : Prop :=
  alignUp need 4 ≠ 0 ∧ bestHole holes (alignUp need 4) = some (hole, idx)

/-- Laid out from an address, a plan encodes and needs no relocation. -/
def EmitsAt (p : AnyPlan) (va : Nat) (c : Container) : Prop :=
  ∃ layout out, p.layOut (BitVec.ofNat 64 va) c = .ok layout ∧ p.emit layout c = .ok out
    ∧ out.relocations = []

/-- With every block in a hole of its own, a plan encodes and needs no
relocation. -/
def EmitsScattered (p : AnyPlan) (holes : List Hole) (c : Container) : Prop :=
  p.plan.blocks ≠ [] ∧ (∀ size ∈ p.blockSizes, size ≠ 0) ∧
    ∃ addrs rest layout out, takeHoles holes p.blockSizes = some (addrs, rest)
      ∧ p.layOutScattered (addrs.map (BitVec.ofNat 64)) c = .ok layout
      ∧ p.emit layout c = .ok out ∧ out.relocations = []

/-- When a call that places nothing leaves nothing behind: text was lifted
wherever there is something to write to it, and a reservation that is undone
is found again. -/
def RollsBack (call : HoleCall AnyPlan) (ed : BinaryEditor) (holes : List Hole) : Prop :=
  match call with
  | .data _ bytes => ed.text.isSome ∨ ∀ hole idx, ¬RoomFor holes bytes.length hole idx
  | .plan _ p =>
    ∀ sized hole idx, p.layOutForSize 0 ed.binary.container = .ok sized →
      RoomFor holes sized.totalSize.toNat hole idx →
        (EmitsAt p hole.vaddr ed.binary.container → ed.text.isSome) ∧
        (¬EmitsAt p hole.vaddr ed.binary.container →
          (hole.rest (alignUp sized.totalSize.toNat 4)).size < 4
            ∨ EndsApart holes hole idx (alignUp sized.totalSize.toNat 4))
  | .scattered _ p => EmitsScattered p holes ed.binary.container → ed.text.isSome

theorem takeHole_of_roomFor {holes : List Hole} {need idx : Nat} {hole : Hole}
    (h : RoomFor holes need hole idx) :
    takeHole holes need = some (hole.vaddr, afterTaking holes hole idx (alignUp need 4)) := by
  obtain ⟨hpos, hbest⟩ := h
  simp only [takeHole, if_neg hpos, hbest]

theorem takeHole_eq_none_iff {holes : List Hole} {need : Nat} :
    takeHole holes need = none ↔ ∀ hole idx, ¬RoomFor holes need hole idx := by
  constructor
  · intro hnone hole idx hroom
    rw [takeHole_of_roomFor hroom] at hnone
    cases hnone
  · intro hno
    cases htake : takeHole holes need with
    | none => rfl
    | some p =>
      obtain ⟨va, rest⟩ := p
      obtain ⟨hole, idx, hbest, hc, -, -⟩ := takeHole_cases htake
      exact absurd ⟨Nat.ne_of_gt hc.pos, hbest⟩ (hno hole idx)

theorem placeData_restores_iff (ed : BinaryEditor) (name : String) (data : List Byte)
    (holes : List Hole) :
    Restores (.data name data) ed holes ↔ RollsBack (.data name data) ed holes := by
  have hrun : (HoleCall.data name data).run ed holes
      = some ⟨(ed.placeDataInHoles name data holes).1.isSome,
          (ed.placeDataInHoles name data holes).2.1,
          (ed.placeDataInHoles name data holes).2.2⟩ := rfl
  show Restores _ _ _ ↔ ed.text.isSome ∨ _
  rw [← takeHole_eq_none_iff]
  constructor
  · intro hrest
    by_cases htext : ed.text.isSome
    · exact .inl htext
    · right
      rw [Option.not_isSome_iff_eq_none] at htext
      cases htake : takeHole holes data.length with
      | none => rfl
      | some p =>
        -- nothing was placed, and the hole is gone
        obtain ⟨va, rest⟩ := p
        have hplace : ed.placeDataInHoles name data holes = (none, ed, rest) := by
          simp only [BinaryEditor.placeDataInHoles, htake, htext]
        rw [hplace] at hrun
        have hsame : rest = holes := (hrest _ hrun rfl).1
        have hlt := freeBytes_takeHole htake
        rw [hsame] at hlt
        exact absurd hlt (Nat.lt_irrefl _)
  · intro hcond out hout hplaced
    rw [hrun] at hout
    cases hout
    cases htake : takeHole holes data.length with
    | none =>
      have hplace : ed.placeDataInHoles name data holes = (none, ed, holes) := by
        simp only [BinaryEditor.placeDataInHoles, htake]
      rw [hplace]
      exact ⟨rfl, rfl⟩
    | some p =>
      obtain ⟨va, rest⟩ := p
      rw [htake] at hcond
      have htext : ed.text.isSome := by
        cases hcond with
        | inl htext => exact htext
        | inr hnone => cases hnone
      obtain ⟨text, htext⟩ := Option.isSome_iff_exists.mp htext
      simp [BinaryEditor.placeDataInHoles, htake, htext] at hplaced

/-! ### Whole plans. -/

theorem reserveHole_of_roomFor {holes : List Hole} {need idx : Nat} {hole : Hole}
    (h : RoomFor holes need hole idx) :
    ∃ r, reserveHole holes need
      = some (hole.vaddr, r, afterTaking holes hole idx (alignUp need 4)) := by
  obtain ⟨hpos, hbest⟩ := h
  simp only [reserveHole, if_neg hpos, hbest]
  exact ⟨_, rfl⟩

theorem reserveHole_eq_none_of_not_roomFor {holes : List Hole} {need : Nat}
    (h : ∀ hole idx, ¬RoomFor holes need hole idx) : reserveHole holes need = none :=
  reserveHole_eq_none.mpr (takeHole_eq_none_iff.mpr h)

/-- A plan that does not emit at its hole is not placed, and the reservation
is released. -/
theorem placePlanInHoles_of_not_emitsAt {ed : BinaryEditor} (name : String) {p : AnyPlan}
    {holes rest : List Hole} {sized : Layout} {va : Nat} {r : HoleReservation}
    (hsized : p.layOutForSize 0 ed.binary.container = .ok sized)
    (hreserve : reserveHole holes sized.totalSize.toNat = some (va, r, rest))
    (hnot : ¬EmitsAt p va ed.binary.container) :
    ∃ result, isPlaced result = false
      ∧ ed.placePlanInHoles name p holes = (result, ed, releaseHole rest r) := by
  simp only [BinaryEditor.placePlanInHoles, hsized, hreserve]
  cases hlayout : p.layOut (BitVec.ofNat 64 va) ed.binary.container with
  | error e =>
    refine ⟨_, ?_, rfl⟩
    cases isOutOfReach e <;> rfl
  | ok layout =>
    simp only
    cases hemit : p.emit layout ed.binary.container with
    | error e =>
      cases e with
      | encode _ => exact ⟨.ok none, rfl, rfl⟩
      | layout e => exact ⟨.error (.emit (.layout e)), rfl, rfl⟩
      | invalidWidening => exact ⟨.error (.emit .invalidWidening), rfl, rfl⟩
      | missingWideningTarget => exact ⟨.error (.emit .missingWideningTarget), rfl, rfl⟩
      | noRelocationForMnemonic => exact ⟨.error (.emit .noRelocationForMnemonic), rfl, rfl⟩
      | malformedMacro => exact ⟨.error (.emit .malformedMacro), rfl, rfl⟩
    | ok out =>
      have hrelocs : out.relocations.isEmpty = false := by
        rw [Bool.eq_false_iff]
        intro hempty
        exact hnot ⟨layout, out, hlayout, hemit, List.isEmpty_iff.mp hempty⟩
      simp only [hrelocs]
      exact ⟨.ok none, rfl, rfl⟩

/-- What a plan that emits at its hole does: it takes the hole and, with lifted
text, writes the emitted bytes to it. -/
theorem placePlanInHoles_eq {ed : BinaryEditor} (name : String) {p : AnyPlan}
    {holes rest : List Hole} {sized layout : Layout} {va : Nat} {r : HoleReservation}
    {out : EmitOutput} (hsized : p.layOutForSize 0 ed.binary.container = .ok sized)
    (hreserve : reserveHole holes sized.totalSize.toNat = some (va, r, rest))
    (hlayout : p.layOut (BitVec.ofNat 64 va) ed.binary.container = .ok layout)
    (hemit : p.emit layout ed.binary.container = .ok out) (hrelocs : out.relocations = []) :
    (ed.text = none →
      ed.placePlanInHoles name p holes = (.error noLiftedText, ed, rest))
    ∧ ∀ text, ed.text = some text →
      ed.placePlanInHoles name p holes
        = (.ok (some ⟨ed.binary.container.symbols.length⟩),
          ⟨(ed.binary.defineTextSymbol name va true text.sectionId).2,
            some (text.overlayBytes va out.bytes)⟩, rest) := by
  have hempty : out.relocations.isEmpty = true := List.isEmpty_iff.mpr hrelocs
  simp only [BinaryEditor.placePlanInHoles, hsized, hreserve, hlayout, hemit, hempty]
  constructor
  · intro htext
    rw [htext]
    rfl
  · intro text htext
    rw [htext]
    rfl

/-- A plan that emits at its hole is placed if text was lifted; else the call
fails after the hole was taken. -/
theorem placePlanInHoles_of_emitsAt {ed : BinaryEditor} (name : String) {p : AnyPlan}
    {holes rest : List Hole} {sized : Layout} {va : Nat} {r : HoleReservation}
    (hsized : p.layOutForSize 0 ed.binary.container = .ok sized)
    (hreserve : reserveHole holes sized.totalSize.toNat = some (va, r, rest))
    (hemits : EmitsAt p va ed.binary.container) :
    (ed.text = none →
      ed.placePlanInHoles name p holes = (.error noLiftedText, ed, rest))
    ∧ (ed.text.isSome → isPlaced (ed.placePlanInHoles name p holes).1 = true) := by
  obtain ⟨layout, out, hlayout, hemit, hrelocs⟩ := hemits
  have hplace := placePlanInHoles_eq name hsized hreserve hlayout hemit hrelocs
  refine ⟨hplace.1, ?_⟩
  intro htext
  obtain ⟨text, htext⟩ := Option.isSome_iff_exists.mp htext
  rw [hplace.2 text htext]
  rfl

theorem placePlan_restores_iff (ed : BinaryEditor) (name : String) (p : AnyPlan)
    (holes : List Hole) : Restores (.plan name p) ed holes ↔ RollsBack (.plan name p) ed holes := by
  have hrun : (HoleCall.plan name p).run ed holes
      = some ⟨isPlaced (ed.placePlanInHoles name p holes).1,
          (ed.placePlanInHoles name p holes).2.1, (ed.placePlanInHoles name p holes).2.2⟩ := rfl
  constructor
  · intro hrest sized hole idx hsized hroom
    obtain ⟨r, hreserve⟩ := reserveHole_of_roomFor hroom
    constructor
    · intro hemits
      by_contra htext
      rw [Option.not_isSome_iff_eq_none] at htext
      -- the call fails without text, and the hole is gone
      have hplace := (placePlanInHoles_of_emitsAt name hsized hreserve hemits).1 htext
      rw [hplace] at hrun
      have hsame := (hrest _ hrun rfl).1
      exact afterTaking_ne (bestHole_some (Nat.pos_of_ne_zero hroom.1) hroom.2) hsame
    · intro hnot
      obtain ⟨result, hfailed, hplace⟩ :=
        placePlanInHoles_of_not_emitsAt name hsized hreserve hnot
      rw [hplace] at hrun
      have hsame := (hrest _ hrun hfailed).1
      exact (releaseHole_eq_iff hreserve hroom.2).mp hsame
  · intro hcond out hout hplaced
    rw [hrun] at hout
    cases hout
    cases hsized : p.layOutForSize 0 ed.binary.container with
    | error e =>
      have hplace : ed.placePlanInHoles name p holes = (.error (.layout e), ed, holes) := by
        simp only [BinaryEditor.placePlanInHoles, hsized]
      rw [hplace]
      exact ⟨rfl, rfl⟩
    | ok sized =>
      by_cases hno : ∀ hole idx, ¬RoomFor holes sized.totalSize.toNat hole idx
      · have hplace : ed.placePlanInHoles name p holes = (.ok none, ed, holes) := by
          simp only [BinaryEditor.placePlanInHoles, hsized,
            reserveHole_eq_none_of_not_roomFor hno]
        rw [hplace]
        exact ⟨rfl, rfl⟩
      · push Not at hno
        obtain ⟨hole, idx, hroom⟩ := hno
        obtain ⟨r, hreserve⟩ := reserveHole_of_roomFor hroom
        obtain ⟨hemitted, hreleased⟩ := hcond sized hole idx hsized hroom
        by_cases hemits : EmitsAt p hole.vaddr ed.binary.container
        · have hsome := (placePlanInHoles_of_emitsAt name hsized hreserve hemits).2
            (hemitted hemits)
          simp only [hsome] at hplaced
          cases hplaced
        · obtain ⟨result, -, hplace⟩ :=
            placePlanInHoles_of_not_emitsAt name hsized hreserve hemits
          rw [hplace]
          exact ⟨(releaseHole_eq_iff hreserve hroom.2).mpr (hreleased hemits), rfl⟩

/-! ### Scattered plans. -/

/-- A plan that does not emit scattered is not placed, and nothing changes. -/
theorem placePlanScattered_of_not {ed : BinaryEditor} (name : String) {p : AnyPlan}
    {holes : List Hole} (hnot : ¬EmitsScattered p holes ed.binary.container) :
    ∃ result, isPlaced result = false
      ∧ ed.placePlanScattered name p holes = some (result, ed, holes) := by
  unfold BinaryEditor.placePlanScattered
  by_cases hblocks : p.plan.blocks.isEmpty
  · rw [if_pos hblocks]
    exact ⟨_, rfl, rfl⟩
  · rw [if_neg hblocks]
    by_cases hsizes : (p.blockSizes.any fun size => size == 0) = true
    · rw [if_pos hsizes]
      exact ⟨_, rfl, rfl⟩
    · rw [if_neg hsizes]
      have hsizes' : ∀ size ∈ p.blockSizes, size ≠ 0 := by
        intro size hmem hzero
        exact hsizes (List.any_eq_true.mpr ⟨size, hmem, by simp [hzero]⟩)
      have hblocks' : p.plan.blocks ≠ [] := by
        intro hnil
        exact hblocks (List.isEmpty_iff.mpr hnil)
      cases htake : takeHoles holes p.blockSizes with
      | none => exact ⟨_, rfl, rfl⟩
      | some taken =>
        obtain ⟨addrs, rest⟩ := taken
        simp only
        cases hlayout : p.layOutScattered (addrs.map (BitVec.ofNat 64)) ed.binary.container with
        | error e =>
          refine ⟨_, ?_, rfl⟩
          cases isOutOfReach e <;> rfl
        | ok layout =>
          simp only
          cases hemit : p.emit layout ed.binary.container with
          | error e => exact ⟨_, rfl, rfl⟩
          | ok out =>
            have hrelocs : out.relocations.isEmpty = false := by
              rw [Bool.eq_false_iff]
              intro hempty
              exact hnot ⟨hblocks', hsizes', addrs, rest, layout, out, htake, hlayout, hemit,
                List.isEmpty_iff.mp hempty⟩
            simp only [hrelocs]
            exact ⟨_, rfl, rfl⟩

/-- What a plan that emits scattered does: it takes its holes and, with lifted
text, writes a slice of the emitted bytes to each of them. -/
theorem placePlanScattered_eq {ed : BinaryEditor} (name : String) {p : AnyPlan}
    {holes rest : List Hole} {addrs : List Nat} {layout : Layout} {out : EmitOutput}
    (hblocks : p.plan.blocks ≠ []) (hsizes : ∀ size ∈ p.blockSizes, size ≠ 0)
    (htake : takeHoles holes p.blockSizes = some (addrs, rest))
    (hlayout : p.layOutScattered (addrs.map (BitVec.ofNat 64)) ed.binary.container = .ok layout)
    (hemit : p.emit layout ed.binary.container = .ok out) (hrelocs : out.relocations = []) :
    (ed.text = none →
      ed.placePlanScattered name p holes = some (.error noLiftedText, ed, rest))
    ∧ ∀ text, ed.text = some text →
      ed.placePlanScattered name p holes
        = if out.bytes.length < p.blockSizes.sum then none
          else
            some (.ok (some ⟨⟨ed.binary.container.symbols.length⟩, addrs,
                blockOffsets 0 p.blockSizes⟩),
              ⟨(ed.binary.defineTextSymbol name (addrs.head?.getD 0) true text.sectionId).2,
                some { text with
                  overlays := text.overlays
                    ++ scatterOverlays addrs p.blockSizes out.bytes }⟩, rest) := by
  have hblocks' : p.plan.blocks.isEmpty = false := by
    rw [Bool.eq_false_iff]
    exact fun h => hblocks (List.isEmpty_iff.mp h)
  have hsizes' : (p.blockSizes.any fun size => size == 0) = false := by
    rw [Bool.eq_false_iff]
    intro h
    obtain ⟨size, hmem, hzero⟩ := List.any_eq_true.mp h
    exact hsizes size hmem (beq_iff_eq.mp hzero)
  have hempty : out.relocations.isEmpty = true := List.isEmpty_iff.mpr hrelocs
  simp only [BinaryEditor.placePlanScattered, hblocks', hsizes', htake, hlayout, hemit, hempty,
    Bool.false_eq_true, reduceIte]
  constructor
  · intro htext
    rw [htext]
  · intro text htext
    rw [htext]
    rfl

/-- A plan that emits scattered takes its holes, with or without text. -/
theorem placePlanScattered_of_emits {ed : BinaryEditor} (name : String) {p : AnyPlan}
    {holes : List Hole} (hemits : EmitsScattered p holes ed.binary.container) :
    (ed.text = none → ∃ tentative, tentative ≠ holes
      ∧ ed.placePlanScattered name p holes = some (.error noLiftedText, ed, tentative))
    ∧ (ed.text.isSome → ∀ r, ed.placePlanScattered name p holes = some r →
      isPlaced r.1 = true) := by
  obtain ⟨hblocks, hsizes, addrs, rest, layout, out, htake, hlayout, hemit, hrelocs⟩ := hemits
  have hplace := placePlanScattered_eq name hblocks hsizes htake hlayout hemit hrelocs
  have hne : p.blockSizes ≠ [] := by
    intro hnil
    exact hblocks (List.map_eq_nil_iff.mp hnil)
  constructor
  · intro htext
    exact ⟨rest, takeHoles_ne htake hne, hplace.1 htext⟩
  · intro htext r hr
    obtain ⟨text, htext⟩ := Option.isSome_iff_exists.mp htext
    rw [hplace.2 text htext] at hr
    split at hr
    · cases hr
    · cases hr
      rfl

/-- A plan that was placed scattered emitted without relocations, and all the
bytes of its blocks were there. -/
theorem placePlanScattered_placed {ed ed' : BinaryEditor} {name : String} {p : AnyPlan}
    {holes holes' : List Hole} {placement : ScatterPlacement}
    (h : ed.placePlanScattered name p holes = some (.ok (some placement), ed', holes')) :
    ∃ text layout out, ed.text = some text
      ∧ takeHoles holes p.blockSizes = some (placement.blockVas, holes')
      ∧ p.layOutScattered (placement.blockVas.map (BitVec.ofNat 64)) ed.binary.container
        = .ok layout
      ∧ p.emit layout ed.binary.container = .ok out ∧ out.relocations = []
      ∧ p.blockSizes.sum ≤ out.bytes.length
      ∧ placement.blockOffsets = blockOffsets 0 p.blockSizes
      ∧ ed'.text = some { text with
          overlays := text.overlays
            ++ scatterOverlays placement.blockVas p.blockSizes out.bytes } := by
  by_cases hemits : EmitsScattered p holes ed.binary.container
  · obtain ⟨hblocks, hsizes, addrs, rest, layout, out, htake, hlayout, hemit, hrelocs⟩ := hemits
    obtain ⟨hnone, hsome⟩ := placePlanScattered_eq name hblocks hsizes htake hlayout hemit hrelocs
    cases htext : ed.text with
    | none =>
      rw [hnone htext] at h
      cases h
    | some text =>
      rw [hsome text htext] at h
      split at h
      · cases h
      · next hshort =>
        cases h
        exact ⟨text, layout, out, rfl, htake, hlayout, hemit, hrelocs, Nat.le_of_not_lt hshort,
          rfl, rfl⟩
  · obtain ⟨result, hfailed, hplace⟩ := placePlanScattered_of_not name hemits
    rw [hplace] at h
    cases h
    cases hfailed

theorem placeScattered_restores_iff (ed : BinaryEditor) (name : String) (p : AnyPlan)
    (holes : List Hole) :
    Restores (.scattered name p) ed holes ↔ RollsBack (.scattered name p) ed holes := by
  show _ ↔ (EmitsScattered p holes ed.binary.container → ed.text.isSome)
  constructor
  · intro hrest hemits
    by_contra htext
    rw [Option.not_isSome_iff_eq_none] at htext
    obtain ⟨tentative, hne, hplace⟩ :=
      (placePlanScattered_of_emits name hemits).1 htext
    have hrun : (HoleCall.scattered name p).run ed holes
        = some ⟨false, ed, tentative⟩ := by
      simp only [HoleCall.run, hplace]
      rfl
    exact hne (hrest _ hrun rfl).1
  · intro hcond out hout hplaced
    by_cases hemits : EmitsScattered p holes ed.binary.container
    · simp only [HoleCall.run] at hout
      split at hout
      · cases hout
      · next r hplace =>
        cases hout
        have hsome := (placePlanScattered_of_emits name hemits).2 (hcond hemits) r hplace
        rw [hsome] at hplaced
        cases hplaced
    · obtain ⟨result, -, hplace⟩ := placePlanScattered_of_not name hemits
      simp only [HoleCall.run, hplace] at hout
      cases hout
      exact ⟨rfl, rfl⟩

/-! ### Every call. -/

/-- A call that places nothing leaves editor and pool alone exactly when there
is text to write to wherever something fits and emits, and an undone
reservation is found again. -/
theorem restores_iff_rollsBack (call : HoleCall AnyPlan) (ed : BinaryEditor)
    (holes : List Hole) : Restores call ed holes ↔ RollsBack call ed holes := by
  cases call with
  | data name bytes => exact placeData_restores_iff ed name bytes holes
  | plan name p => exact placePlan_restores_iff ed name p holes
  | scattered name p => exact placeScattered_restores_iff ed name p holes

theorem bare_sectionIds :
    ([] : List Section).map Section.id = (List.range ([] : List Section).length).map SectionId.mk :=
  rfl

theorem bare_symbolIds :
    ([] : List Symbol).map Symbol.id = (List.range ([] : List Symbol).length).map SymbolId.mk := rfl

theorem bare_relocations :
    ∀ r ∈ ([] : List Relocation), r.sectionId.index < ([] : List Section).length :=
  fun _ hr => absurd hr List.not_mem_nil

/-- A linked image without sections or symbols. -/
def bareImage : Container where
  format := .elf
  architecture := .aarch64
  kind := .sharedObject
  sections := []
  symbols := []
  relocations := []
  elfImage := none
  machoImage := none
  sectionIds := bare_sectionIds
  symbolIds := bare_symbolIds
  relocationSections := bare_relocations

/-- An editor that has not lifted any text. -/
def unliftedEditor : BinaryEditor := ⟨.new bareImage [] none, none⟩

/-- Without lifted text a byte of data is not placed, and its word is gone. -/
theorem unliftedData_leaks :
    ¬Restores (.data "blob" [0]) unliftedEditor [⟨0x1000, 8⟩] := by
  intro h
  have hrun : (HoleCall.data "blob" [0]).run unliftedEditor [⟨0x1000, 8⟩]
      = some ⟨false, unliftedEditor, [⟨0x1004, 4⟩]⟩ := rfl
  have hsame : [Hole.mk 0x1004 4] = [⟨0x1000, 8⟩] := (h _ hrun rfl).1
  exact absurd hsame (by decide)

end Armv8Encode.Editor

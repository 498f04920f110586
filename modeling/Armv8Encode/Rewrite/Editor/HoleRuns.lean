/-
  Armv8Encode.Rewrite.Editor.HoleRuns — runs of placements into one pool.

  A call that places something reserves ranges of holes and writes overlays.
  What is still free and what was reserved stay disjoint parts of the original
  holes over any run (`reserved_cutFrom`), whatever the plans.  The overlays
  stay inside what was reserved for them as long as no plan that is placed
  whole needs more bytes at its hole than the layout at address zero counted
  (`holePlacements_stayInHoles`).
-/
import Mathlib.Data.Set.Lattice
import Mathlib.Order.CompletePartialOrder
import Mathlib.Order.Interval.Set.Basic
import Armv8Encode.Lib.FreePool
import Armv8Encode.Isa.Aarch64.CodeSize
import Armv8Encode.Rewrite.Editor.HolePlacement

namespace Armv8Encode.Editor

open Lib

/-! ## §1. Ranges. -/

/-- The addresses from `va` on. -/
def span (va length : Nat) : Set Nat := Set.Ico va (va + length)

def Hole.range (h : Hole) : Set Nat := span h.vaddr h.size

def overlayRange (overlay : Nat × List Byte) : Set Nat := span overlay.1 overlay.2.length

theorem span_subset {va length va' length' : Nat} (hstart : va' ≤ va)
    (hstop : va + length ≤ va' + length') : span va length ≤ span va' length' := by
  intro x hx
  exact ⟨Nat.le_trans hstart hx.1, Nat.lt_of_lt_of_le hx.2 hstop⟩

theorem span_disjoint {va length va' length' : Nat} (h : va + length ≤ va') :
    Disjoint (span va length) (span va' length') := by
  rw [Set.disjoint_left]
  intro x hx hx'
  exact Nat.lt_irrefl _ (Nat.lt_of_lt_of_le hx.2 (Nat.le_trans h hx'.1))

/-! ## §2. What a request takes from the pool. -/

variable {pool taken : List (Set Nat)}

/-- A served request leaves disjoint parts. -/
theorem afterTaking_cutFrom {holes : List Hole} {h : Hole} {idx need : Nat}
    (hc : Chosen holes need h idx) (hcut : CutFrom pool (holes.map Hole.range) taken) :
    CutFrom pool ((afterTaking holes h idx need).map Hole.range)
      (taken ++ [span h.vaddr need]) := by
  have hfits := hc.fits
  have hat : (holes.map Hole.range)[idx]? = some h.range := by
    rw [List.getElem?_map, hc.at_idx]
    rfl
  have hpart : span h.vaddr need ≤ h.range := span_subset (Nat.le_refl _) (by omega)
  unfold afterTaking
  by_cases hsmall : (h.rest need).size < 4
  · rw [if_pos hsmall, ← List.eraseIdx_map]
    exact hcut.takeLast hat hpart
  · rw [if_neg hsmall, List.map_set]
    have hrest : (h.rest need).range ≤ h.range := by
      refine span_subset (Nat.le_add_right _ _) ?_
      show h.vaddr + need + (h.size - need) ≤ h.vaddr + h.size
      omega
    exact hcut.takePart hat hrest hpart (span_disjoint (Nat.le_refl _)).symm

theorem takeHole_cutFrom {holes rest : List Hole} {need va : Nat}
    (h : takeHole holes need = some (va, rest))
    (hcut : CutFrom pool (holes.map Hole.range) taken) :
    CutFrom pool (rest.map Hole.range) (taken ++ [span va (alignUp need 4)]) := by
  obtain ⟨hole, idx, -, hc, rfl, rfl⟩ := takeHole_cases h
  exact afterTaking_cutFrom hc hcut

/-- The ranges that several requests take, whole words each. -/
def wordSpans (vas needs : List Nat) : List (Nat × Nat) :=
  List.zipWith (fun va need => (va, alignUp need 4)) vas needs

def spans (ranges : List (Nat × Nat)) : List (Set Nat) := ranges.map fun r => span r.1 r.2

theorem takeHoles_cutFrom {holes rest : List Hole} {needs vas : List Nat}
    (h : takeHoles holes needs = some (vas, rest))
    (hcut : CutFrom pool (holes.map Hole.range) taken) :
    CutFrom pool (rest.map Hole.range) (taken ++ spans (wordSpans vas needs)) := by
  induction needs generalizing holes vas taken with
  | nil =>
    cases h
    show CutFrom pool _ (taken ++ [])
    rw [List.append_nil]
    exact hcut
  | cons need needs ih =>
    obtain ⟨va, after, vas', htake, hrest, rfl⟩ := takeHoles_cons h
    have hnext := ih hrest (takeHole_cutFrom htake hcut)
    rw [List.append_assoc] at hnext
    exact hnext

/-- Releasing a reservation gives the bytes back, if not always to the hole
they came from. -/
theorem releaseHole_cutFrom {holes rest : List Hole} {need va : Nat} {r : HoleReservation}
    (h : reserveHole holes need = some (va, r, rest))
    (hcut : CutFrom pool (holes.map Hole.range) taken) :
    CutFrom pool ((releaseHole rest r).map Hole.range) taken := by
  obtain ⟨hole, idx, hbest, hc, hva, hrest, hr⟩ := reserveHole_cases h
  by_cases hback : (hole.rest (alignUp need 4)).size < 4
      ∨ EndsApart holes hole idx (alignUp need 4)
  · rw [(releaseHole_eq_iff h hbest).mpr hback]
    exact hcut
  · -- an earlier hole is grown: it starts inside the chosen one, so it is empty
    obtain ⟨hlarge, hends⟩ := not_or.mp hback
    rw [if_neg hlarge] at hr
    rw [afterTaking, if_neg hlarge] at hrest
    obtain ⟨j, hle, hfind, hj⟩ := findIdx?_set_rest (alignUp need 4) hc.at_idx
    have hji : j < idx := by
      have hne : j ≠ idx := fun heq => hends (hj.mp heq)
      omega
    obtain ⟨hlt, hget⟩ := List.getElem?_eq_some_iff.mp hc.at_idx
    obtain ⟨hjlt, hmatch, -⟩ := List.findIdx?_eq_some_iff_getElem.mp hfind
    rw [List.getElem_set_ne (by omega)] at hmatch
    have hjholes : j < holes.length := by omega
    have hstart : holes[j].vaddr = hole.vaddr + alignUp need 4 := by
      simpa using hmatch
    have hfits := hc.fits
    have hempty : holes[j].size = 0 := by
      by_contra hpos
      have hpair := (List.pairwise_iff_getElem.mp (List.pairwise_append.mp hcut.apart).1) j idx
        (by rw [List.length_map]; omega) (by rw [List.length_map]; exact hlt) hji
      rw [List.getElem_map, List.getElem_map, hget, Set.disjoint_left] at hpair
      refine hpair (a := hole.vaddr + alignUp need 4) ⟨by omega, by omega⟩ ⟨by omega, ?_⟩
      have : 4 ≤ hole.size - alignUp need 4 := Nat.le_of_not_lt hlarge
      omega
    have hcut' : CutFrom pool (rest.map Hole.range) (taken ++ [span va (alignUp need 4)]) :=
      takeHole_cutFrom (takeHole_of_reserveHole h) hcut
    have hgrown : (releaseHole rest r).map Hole.range
        = (rest.map Hole.range).set j (span va (alignUp need 4)) := by
      rw [hr, hrest, hva]
      simp only [releaseHole, hfind]
      refine List.ext_getElem? fun i => ?_
      rw [List.getElem?_map, List.getElem?_modify]
      by_cases hi : j = i
      · subst hi
        have hjmap : j < ((holes.set idx (hole.rest (alignUp need 4))).map Hole.range).length := by
          rw [List.length_map]
          exact hjlt
        rw [List.getElem?_set_self hjmap, List.getElem?_set_ne (by omega),
          List.getElem?_eq_getElem (by omega)]
        show some (if j = j then _ else _ : Hole).range = _
        rw [if_pos rfl]
        show some (span hole.vaddr (holes[j].size + alignUp need 4)) = _
        rw [hempty, Nat.zero_add]
      · rw [List.getElem?_set_ne hi, List.getElem?_map]
        cases (holes.set idx (hole.rest (alignUp need 4)))[i]? with
        | none => rfl
        | some g =>
          show some (if j = i then _ else g : Hole).range = _
          rw [if_neg hi]
          rfl
    rw [hgrown]
    refine hcut'.giveBack ?_
    rw [List.length_map, hrest]
    exact hjlt

/-! ## §3. What one call does. -/

/-- What a call reserves if it places something. -/
def HoleCall.reserve (call : HoleCall AnyPlan) (ed : BinaryEditor) (holes : List Hole) :
    List (Nat × Nat) :=
  match call with
  | .data _ bytes =>
    match takeHole holes bytes.length with
    | none => []
    | some (va, _) => [(va, alignUp bytes.length 4)]
  | .plan _ p =>
    match p.layOutForSize 0 ed.binary.container with
    | .error _ => []
    | .ok sized =>
      match takeHole holes sized.totalSize.toNat with
      | none => []
      | some (va, _) => [(va, alignUp sized.totalSize.toNat 4)]
  | .scattered _ p =>
    match takeHoles holes p.blockSizes with
    | none => []
    | some (vas, _) => wordSpans vas p.blockSizes

/-- The code of a plan that is placed whole is no longer than what is reserved
for it. -/
def FitsReserved (call : HoleCall AnyPlan) (ed : BinaryEditor) (holes : List Hole) : Prop :=
  match call with
  | .plan _ p =>
    ∀ sized va rest layout out, p.layOutForSize 0 ed.binary.container = .ok sized →
      takeHole holes sized.totalSize.toNat = some (va, rest) →
      p.layOut (BitVec.ofNat 64 va) ed.binary.container = .ok layout →
      p.emit layout ed.binary.container = .ok out → out.relocations = [] →
      out.bytes.length ≤ alignUp sized.totalSize.toNat 4
  | _ => True

/-- What a call with lifted text does: nothing, a reservation that is undone,
or one overlay for every request it makes. -/
inductive Effect (call : HoleCall AnyPlan) (ed : BinaryEditor) (text : LiftedText)
    (holes : List Hole) (out : Outcome) : Prop where
  | nothing (hplaced : out.placed = false) (heditor : out.editor = ed)
      (hholes : out.holes = holes)
  | undone (need va : Nat) (r : HoleReservation) (rest : List Hole)
      (hreserve : reserveHole holes need = some (va, r, rest)) (hplaced : out.placed = false)
      (heditor : out.editor = ed) (hholes : out.holes = releaseHole rest r)
  | wrote (needs vas : List Nat) (pieces : List (List Byte)) (hplaced : out.placed = true)
      (htake : takeHoles holes needs = some (vas, out.holes))
      (hreserve : call.reserve ed holes = wordSpans vas needs)
      (htext : out.editor.text = some { text with overlays := text.overlays ++ vas.zip pieces })
      (hfits : FitsReserved call ed holes →
        List.Forall₂ (fun piece need => piece.length ≤ alignUp need 4) pieces needs)

theorem takeHoles_singleton {holes rest : List Hole} {need va : Nat}
    (h : takeHole holes need = some (va, rest)) : takeHoles holes [need] = some ([va], rest) := by
  simp only [takeHoles, h]

theorem data_effect {ed : BinaryEditor} {text : LiftedText} (htext : ed.text = some text)
    (name : String) (data : List Byte) (holes : List Hole) {out : Outcome}
    (hrun : (HoleCall.data name data).run ed holes = some out) :
    Effect (.data name data) ed text holes out := by
  cases hrun
  cases htake : takeHole holes data.length with
  | none =>
    have hplace : ed.placeDataInHoles name data holes = (none, ed, holes) := by
      simp only [BinaryEditor.placeDataInHoles, htake]
    rw [hplace]
    exact .nothing rfl rfl rfl
  | some p =>
    obtain ⟨va, rest⟩ := p
    refine .wrote [data.length] [va] [data] ?_ ?_ ?_ ?_ ?_
    · simp only [BinaryEditor.placeDataInHoles, htake, htext]
      rfl
    · simp only [BinaryEditor.placeDataInHoles, htake, htext]
      exact takeHoles_singleton htake
    · simp only [HoleCall.reserve, htake]
      rfl
    · simp only [BinaryEditor.placeDataInHoles, htake, htext]
      rfl
    · intro _
      exact .cons (le_alignUp _ _) .nil

theorem plan_effect {ed : BinaryEditor} {text : LiftedText} (htext : ed.text = some text)
    (name : String) (p : AnyPlan) (holes : List Hole) {out : Outcome}
    (hrun : (HoleCall.plan name p).run ed holes = some out) :
    Effect (.plan name p) ed text holes out := by
  cases hrun
  cases hsized : p.layOutForSize 0 ed.binary.container with
  | error e =>
    have hplace : ed.placePlanInHoles name p holes = (.error (.layout e), ed, holes) := by
      simp only [BinaryEditor.placePlanInHoles, hsized]
    rw [hplace]
    exact .nothing rfl rfl rfl
  | ok sized =>
    cases hreserve : reserveHole holes sized.totalSize.toNat with
    | none =>
      have hplace : ed.placePlanInHoles name p holes = (.ok none, ed, holes) := by
        simp only [BinaryEditor.placePlanInHoles, hsized, hreserve]
      rw [hplace]
      exact .nothing rfl rfl rfl
    | some reserved =>
      obtain ⟨va, r, rest⟩ := reserved
      have htake := takeHole_of_reserveHole hreserve
      by_cases hemits : EmitsAt p va ed.binary.container
      · obtain ⟨layout, emitted, hlayout, hemit, hrelocs⟩ := hemits
        have hplace := (placePlanInHoles_eq name hsized hreserve hlayout hemit hrelocs).2
          text htext
        rw [hplace]
        refine .wrote [sized.totalSize.toNat] [va] [emitted.bytes] rfl ?_ ?_ rfl ?_
        · exact takeHoles_singleton htake
        · simp only [HoleCall.reserve, hsized, htake]
          rfl
        · intro hfits
          exact .cons (hfits sized va rest layout emitted hsized htake hlayout hemit hrelocs) .nil
      · obtain ⟨result, hfailed, hplace⟩ :=
          placePlanInHoles_of_not_emitsAt name hsized hreserve hemits
        rw [hplace]
        exact .undone sized.totalSize.toNat va r rest hreserve hfailed rfl rfl

/-- Slices at the given sizes, as long as the bytes suffice. -/
theorem scatterOverlays_eq_zip {vas sizes : List Nat} (bytes : List Byte)
    (hlen : vas.length = sizes.length) (htotal : sizes.sum ≤ bytes.length) :
    ∃ pieces, scatterOverlays vas sizes bytes = vas.zip pieces
      ∧ pieces.length = vas.length
      ∧ List.Forall₂ (fun piece size => piece.length = size) pieces sizes := by
  induction sizes generalizing vas bytes with
  | nil =>
    cases vas with
    | nil => exact ⟨[], rfl, rfl, .nil⟩
    | cons va vas => cases hlen
  | cons size sizes ih =>
    cases vas with
    | nil => cases hlen
    | cons va vas =>
      rw [List.sum_cons] at htotal
      obtain ⟨pieces, heq, hpieces, hsizes⟩ := ih (bytes.drop size)
        (Nat.succ.inj hlen) (by rw [List.length_drop]; omega)
      refine ⟨bytes.take size :: pieces, ?_, ?_, .cons ?_ hsizes⟩
      · rw [scatterOverlays, heq]
        rfl
      · rw [List.length_cons, List.length_cons, hpieces]
      · rw [List.length_take]
        omega

theorem scattered_effect {ed : BinaryEditor} {text : LiftedText} (htext : ed.text = some text)
    (name : String) (p : AnyPlan) (holes : List Hole) {out : Outcome}
    (hrun : (HoleCall.scattered name p).run ed holes = some out) :
    Effect (.scattered name p) ed text holes out := by
  by_cases hemits : EmitsScattered p holes ed.binary.container
  · obtain ⟨hblocks, hsizes, addrs, rest, layout, emitted, htake, hlayout, hemit, hrelocs⟩ := hemits
    have hplace := (placePlanScattered_eq name hblocks hsizes htake hlayout hemit hrelocs).2
      text htext
    simp only [HoleCall.run, hplace] at hrun
    by_cases hshort : emitted.bytes.length < p.blockSizes.sum
    · rw [if_pos hshort] at hrun
      cases hrun
    · rw [if_neg hshort] at hrun
      cases hrun
      obtain ⟨pieces, heq, -, hexact⟩ := scatterOverlays_eq_zip _ (takeHoles_length htake)
        (Nat.le_of_not_lt hshort)
      refine .wrote p.blockSizes addrs pieces rfl htake ?_ ?_ ?_
      · simp only [HoleCall.reserve, htake]
      · rw [heq]
      · intro _
        exact hexact.imp fun piece size h => h ▸ le_alignUp _ _
  · obtain ⟨result, hfailed, hplace⟩ := placePlanScattered_of_not name hemits
    simp only [HoleCall.run, hplace] at hrun
    cases hrun
    exact .nothing hfailed rfl rfl

theorem call_effect {ed : BinaryEditor} {text : LiftedText} (htext : ed.text = some text)
    (call : HoleCall AnyPlan) (holes : List Hole) {out : Outcome}
    (hrun : call.run ed holes = some out) : Effect call ed text holes out := by
  cases call with
  | data name bytes => exact data_effect htext name bytes holes hrun
  | plan name p => exact plan_effect htext name p holes hrun
  | scattered name p => exact scattered_effect htext name p holes hrun

/-! ## §4. Runs. -/

/-- A run so far: the editor, what is free, and what was reserved. -/
structure HoleRun : Type 1 where
  editor : BinaryEditor
  holes : List Hole
  reserved : List (Nat × Nat)

def HoleRun.step (s : HoleRun) (call : HoleCall AnyPlan) : Option HoleRun :=
  match call.run s.editor s.holes with
  | none => none
  | some out =>
    some ⟨out.editor, out.holes,
      s.reserved ++ if out.placed then call.reserve s.editor s.holes else []⟩

/-- Calls one after another; none where the source panics. -/
def runCalls : List (HoleCall AnyPlan) → HoleRun → Option HoleRun
  | [], s => some s
  | call :: calls, s =>
    match s.step call with
    | none => none
    | some s => runCalls calls s

/-- Every call of a run meets a condition in the state it is made in. -/
def Throughout {α : Type} (toCall : α → HoleCall AnyPlan)
    (cond : α → BinaryEditor → List Hole → Prop) : List α → HoleRun → Prop
  | [], _ => True
  | call :: calls, s =>
    cond call s.editor s.holes
      ∧ ∀ s', s.step (toCall call) = some s' → Throughout toCall cond calls s'

/-- What an overlay has to do with the range reserved for it. -/
def Covers (overlay : Nat × List Byte) (r : Nat × Nat) : Prop :=
  r.1 = overlay.1 ∧ overlay.2.length ≤ r.2

theorem spans_append (xs ys : List (Nat × Nat)) : spans (xs ++ ys) = spans xs ++ spans ys :=
  List.map_append

/-- Overlays of a call lie at the start of the ranges it reserved. -/
theorem covers_wordSpans {vas needs : List Nat} {pieces : List (List Byte)}
    (hlen : vas.length = needs.length)
    (hfits : List.Forall₂ (fun piece need => piece.length ≤ alignUp need 4) pieces needs) :
    List.Forall₂ Covers (vas.zip pieces) (wordSpans vas needs) := by
  induction hfits generalizing vas with
  | nil =>
    cases vas with
    | nil => exact .nil
    | cons va vas => cases hlen
  | @cons piece need pieces needs hle _ ih =>
    cases vas with
    | nil => cases hlen
    | cons va vas => exact .cons ⟨rfl, hle⟩ (ih (Nat.succ.inj hlen))

/-- One call keeps what is free and what was reserved disjoint parts of the
holes, and adds overlays that start in what it reserved. -/
theorem step_cutFrom {s s' : HoleRun} {call : HoleCall AnyPlan} {text : LiftedText}
    (htext : s.editor.text = some text) (hstep : s.step call = some s')
    (hcut : CutFrom pool (s.holes.map Hole.range) (spans s.reserved)) :
    CutFrom pool (s'.holes.map Hole.range) (spans s'.reserved)
      ∧ ∃ new more, s'.reserved = s.reserved ++ more
        ∧ s'.editor.text = some { text with overlays := text.overlays ++ new }
        ∧ (FitsReserved call s.editor s.holes → List.Forall₂ Covers new more) := by
  unfold HoleRun.step at hstep
  split at hstep
  · cases hstep
  · next out hrun =>
    cases hstep
    cases call_effect htext call s.holes hrun with
    | nothing hplaced heditor hholes =>
      rw [hplaced, heditor, hholes]
      refine ⟨?_, [], [], rfl, ?_, fun _ => .nil⟩
      · show CutFrom pool _ (spans (s.reserved ++ []))
        rw [List.append_nil]
        exact hcut
      · rw [htext, List.append_nil]
    | undone need va r rest hreserve hplaced heditor hholes =>
      rw [hplaced, heditor, hholes]
      refine ⟨?_, [], [], rfl, ?_, fun _ => .nil⟩
      · show CutFrom pool _ (spans (s.reserved ++ []))
        rw [List.append_nil]
        exact releaseHole_cutFrom hreserve hcut
      · rw [htext, List.append_nil]
    | wrote needs vas pieces hplaced htake hreserve hnew hfits =>
      rw [hplaced]
      refine ⟨?_, vas.zip pieces, call.reserve s.editor s.holes, rfl, hnew, ?_⟩
      · show CutFrom pool _ (spans (s.reserved ++ call.reserve s.editor s.holes))
        rw [spans_append, hreserve]
        exact takeHoles_cutFrom htake hcut
      · intro hfit
        rw [hreserve]
        exact covers_wordSpans (takeHoles_length htake) (hfits hfit)

/-- What a run keeps, step by step. -/
theorem run_cutFrom {α : Type} {toCall : α → HoleCall AnyPlan} {calls : List α}
    {s s' : HoleRun} {text : LiftedText} (htext : s.editor.text = some text)
    (hrun : runCalls (calls.map toCall) s = some s')
    (hcut : CutFrom pool (s.holes.map Hole.range) (spans s.reserved)) :
    CutFrom pool (s'.holes.map Hole.range) (spans s'.reserved)
      ∧ ∃ new more, s'.reserved = s.reserved ++ more
        ∧ s'.editor.text = some { text with overlays := text.overlays ++ new }
        ∧ (Throughout toCall (fun call => FitsReserved (toCall call)) calls s →
            List.Forall₂ Covers new more) := by
  induction calls generalizing s text with
  | nil =>
    cases hrun
    refine ⟨hcut, [], [], ?_, ?_, fun _ => .nil⟩
    · rw [List.append_nil]
    · rw [htext, List.append_nil]
  | cons call calls ih =>
    rw [List.map_cons, runCalls] at hrun
    split at hrun
    · cases hrun
    · next mid hstep =>
      obtain ⟨hmid, new, more, hmore, hnew, hfit⟩ := step_cutFrom htext hstep hcut
      obtain ⟨hend, news, mores, hmores, hnews, hfits⟩ := ih hnew hrun hmid
      refine ⟨hend, new ++ news, more ++ mores, ?_, ?_, ?_⟩
      · rw [hmores, hmore, List.append_assoc]
      · rw [hnews, List.append_assoc]
      · intro hall
        exact List.rel_append (hfit hall.1) (hfits (hall.2 mid hstep))

/-! ## §5. Overlays and holes. -/

/-- Where a run leaves its overlays and the rest of the pool. -/
structure StaysInHoles (pool holes : List Hole) (reserved : List (Nat × Nat))
    (overlays : List (Nat × List Byte)) : Prop where
  insideReserved : List.Forall₂ Covers overlays reserved
  overlaysApart : (overlays.map overlayRange).Pairwise Disjoint
  insidePool : ∀ o ∈ overlays, ∃ h ∈ pool, overlayRange o ⊆ h.range
  holesApart : (holes.map Hole.range).Pairwise Disjoint
  holesClear : ∀ h ∈ holes, ∀ o ∈ overlays, Disjoint h.range (overlayRange o)

theorem overlayRange_le {o : Nat × List Byte} {r : Nat × Nat} (h : Covers o r) :
    overlayRange o ≤ span r.1 r.2 := by
  obtain ⟨hstart, hlen⟩ := h
  refine span_subset (Nat.le_of_eq hstart) ?_
  rw [hstart]
  exact Nat.add_le_add_left hlen _

/-- Overlays that lie in their ranges share what the ranges have. -/
theorem staysInHoles_of_cutFrom {pool holes : List Hole} {reserved : List (Nat × Nat)}
    {overlays : List (Nat × List Byte)}
    (hcut : CutFrom (pool.map Hole.range) (holes.map Hole.range) (spans reserved))
    (hcovers : List.Forall₂ Covers overlays reserved) :
    StaysInHoles pool holes reserved overlays := by
  have hle : List.Forall₂ (· ≤ ·) (overlays.map overlayRange) (spans reserved) := by
    rw [spans, List.forall₂_map_left_iff, List.forall₂_map_right_iff]
    exact hcovers.imp fun o r h => overlayRange_le h
  have hsmall := hcut.shrink hle
  obtain ⟨hholes, hoverlays, -⟩ := List.pairwise_append.mp hsmall.apart
  constructor
  · exact hcovers
  · exact hoverlays
  · intro o ho
    obtain ⟨whole, hwhole, hsub⟩ :=
      hsmall.inside (overlayRange o) (List.mem_append_right _ (List.mem_map_of_mem ho))
    obtain ⟨h, hh, rfl⟩ := List.mem_map.mp hwhole
    exact ⟨h, hh, hsub⟩
  · exact hholes
  · intro h hh o ho
    exact hsmall.free_taken (List.mem_map_of_mem hh) (List.mem_map_of_mem ho)

/-! ## §6. AArch64 plans. -/

def AnyPlan.ofAarch (plan : AarchPlan) : AnyPlan where
  isa := aarch64
  plan := plan

def HoleCall.ofAarch : HoleCall AarchPlan → HoleCall AnyPlan
  | .data name bytes => .data name bytes
  | .plan name code => .plan name (.ofAarch code)
  | .scattered name code => .scattered name (.ofAarch code)

/-- Laid out at its hole, the plan counts no more bytes than a layout at
address zero reserved: a word for an instruction, two for one that is widened
there or for an expanded macro, and the bytes of a copy or a raw op. -/
def CountedWithin (call : HoleCall AarchPlan) (ed : BinaryEditor) (holes : List Hole) : Prop :=
  match call with
  | .plan _ plan =>
    ∀ sized va rest layout,
      layOutForSize aarch64 plan 0 (some ed.binary.container) = .ok sized →
      takeHole holes sized.totalSize.toNat = some (va, rest) →
      layOut aarch64 plan (BitVec.ofNat 64 va) (some ed.binary.container) = .ok layout →
      codeSize plan layout (some ed.binary.container) ≤ alignUp sized.totalSize.toNat 4
  | _ => True

theorem emit_of_ofAarch {plan : AarchPlan} {layout : Layout} {c : Container} {out : EmitOutput}
    (h : (AnyPlan.ofAarch plan).emit layout c = .ok out) :
    emit aarch64 plan layout (some c) = .ok out := by
  simp only [AnyPlan.emit, AnyPlan.ofAarch] at h
  split at h
  · next out' hemit =>
    cases h
    exact hemit
  · cases h

theorem emit_ofAarch {plan : AarchPlan} {layout : Layout} {c : Container} {out : EmitOutput}
    (h : emit aarch64 plan layout (some c) = .ok out) :
    (AnyPlan.ofAarch plan).emit layout c = .ok out := by
  simp only [AnyPlan.emit, AnyPlan.ofAarch]
  split
  · next out' hemit =>
    have hsame := h.symm.trans hemit
    cases hsame
    rfl
  · next e hemit =>
    have hsame := h.symm.trans hemit
    cases hsame

theorem fitsReserved_of_countedWithin {call : HoleCall AarchPlan} {ed : BinaryEditor}
    {holes : List Hole} (h : CountedWithin call ed holes) :
    FitsReserved call.ofAarch ed holes := by
  cases call with
  | data name bytes => exact True.intro
  | scattered name code => exact True.intro
  | plan name code =>
    show ∀ sized va rest layout out, _
    intro sized va rest layout out hsized htake hlayout hemit hrelocs
    have hshape := (layOut_laidOut hlayout).reserved.shape
    rw [emit_codeSize hshape (emit_of_ofAarch hemit) hrelocs]
    exact h sized va rest layout hsized htake hlayout

theorem throughout_fitsReserved {calls : List (HoleCall AarchPlan)} {s : HoleRun}
    (h : Throughout HoleCall.ofAarch CountedWithin calls s) :
    Throughout HoleCall.ofAarch (fun call => FitsReserved call.ofAarch) calls s := by
  induction calls generalizing s with
  | nil => trivial
  | cons call calls ih =>
    refine ⟨fitsReserved_of_countedWithin h.1, ?_⟩
    intro s' hstep
    exact ih (h.2 s' hstep)

/-- **Placements stay in their holes** in every run whose plans, placed whole,
count no more bytes at their hole than were reserved. -/
theorem holePlacements_stayInHoles (calls : List (HoleCall AarchPlan)) (ed : BinaryEditor)
    (text : LiftedText) (pool : List Hole) (htext : ed.text = some text)
    (hpool : (pool.map Hole.range).Pairwise Disjoint)
    (hcounted : Throughout HoleCall.ofAarch CountedWithin calls ⟨ed, pool, []⟩)
    (s : HoleRun) (hrun : runCalls (calls.map HoleCall.ofAarch) ⟨ed, pool, []⟩ = some s) :
    ∃ new, s.editor.text = some { text with overlays := text.overlays ++ new }
      ∧ StaysInHoles pool s.holes s.reserved new := by
  obtain ⟨hcut, new, more, hmore, hnew, hfits⟩ :=
    run_cutFrom htext hrun (CutFrom.refl hpool)
  have hcovers := hfits (throughout_fitsReserved hcounted)
  have hmore' : s.reserved = more := hmore
  rw [← hmore'] at hcovers
  exact ⟨new, hnew, staysInHoles_of_cutFrom hcut hcovers⟩

/-- An editor with a lifted text section. -/
def liftedEditor : BinaryEditor := ⟨.new bareImage [] none, some ⟨⟨0⟩, 0x1000, []⟩⟩

/-- One `nop`, as raw bytes. -/
def rawNopPlan : AarchPlan := ⟨[⟨⟨0⟩, [.raw [0x1f, 0x20, 0x03, 0xd5]]⟩]⟩

/-- Data and a raw stub share a hole. -/
theorem dataAndStub_stayInHoles :
    ∃ s, runCalls [.data "blob" [1, 2, 3], .plan "stub" (.ofAarch rawNopPlan)]
        ⟨liftedEditor, [⟨0x1000, 16⟩], []⟩ = some s
      ∧ ∃ new, s.editor.text = some ⟨⟨0⟩, 0x1000, [] ++ new⟩
        ∧ StaysInHoles [⟨0x1000, 16⟩] s.holes s.reserved new := by
  have hrun : (runCalls [.data "blob" [1, 2, 3], .plan "stub" (.ofAarch rawNopPlan)]
      ⟨liftedEditor, [⟨0x1000, 16⟩], []⟩).isSome := rfl
  obtain ⟨s, hs⟩ := Option.isSome_iff_exists.mp hrun
  refine ⟨s, hs, holePlacements_stayInHoles
    [.data "blob" [1, 2, 3], .plan "stub" rawNopPlan] liftedEditor ⟨⟨0⟩, 0x1000, []⟩
    [⟨0x1000, 16⟩] rfl (List.pairwise_singleton _ _) ?_ s hs⟩
  refine ⟨trivial, ?_⟩
  intro mid hmid
  cases hmid
  refine ⟨?_, fun _ _ => trivial⟩
  intro sized va rest layout hsized htake hlayout
  cases hsized
  cases htake
  cases hlayout
  exact Nat.le_refl 4

def farBranch : AarchInstruction := .new .beq [.branch (.absolute 0x1000)] none

/-- One conditional branch, in range of address zero. -/
def farBranchPlan : AarchPlan := ⟨[⟨⟨0⟩, [.instruction farBranch]⟩]⟩

def farBranchLayout : Layout where
  baseAddress := 0x400000
  totalSize := 8
  blockAddresses := [0x400000]
  instructionLayouts := [[⟨0x400000, 8, .invertedConditional⟩]]

def widenedFarBranch : List Byte := toLeBytes 0x54000041#32 ++ toLeBytes 0x17f003ff#32

theorem layOutForSize_farBranch : layOutForSize aarch64 farBranchPlan 0 (some bareImage)
    = .ok ⟨0, 4, [0], [[⟨0, 4, .normal⟩]]⟩ := by
  decide

theorem layOut_farBranch :
    layOut aarch64 farBranchPlan 0x400000 (some bareImage) = .ok farBranchLayout := by
  decide

theorem encodeWidened_farBranch :
    aarchEncodeWidenedConditional .beq [] 0x400000 0x1000 = .ok widenedFarBranch := by
  have hskip : encodeInstruction ⟨0x400000, .bne, [.branchTarget 0x400008]⟩
      = .ok 0x54000041#32 := by
    rw [encodeInstruction, opcodesForMnemonic_branch rfl]
    decide
  have hfar : encodeInstruction ⟨0x400004, .b, [.branchTarget 0x1000]⟩ = .ok 0x17f003ff#32 := by
    rw [encodeInstruction, opcodesForMnemonic_branch rfl]
    decide
  have hinverted : Aarch64Mnemonic.invertConditionalBranch .beq = some .bne := rfl
  have hoperands : invertedOperands [] (0x400000 + 8) = [.branchTarget 0x400008] := rfl
  have hnext : (0x400000 + 4 : U64) = 0x400004 := rfl
  rw [aarchEncodeWidenedConditional, hinverted]
  simp only [hoperands, hnext, hskip, hfar]
  rfl

/-- At its hole the branch takes two words. -/
theorem emit_farBranch :
    emit aarch64 farBranchPlan farBranchLayout (some bareImage)
      = .ok ⟨[] ++ widenedFarBranch, []⟩ := by
  have hencoded : emitEncoded aarch64 farBranch ⟨0x400000, 8, .invertedConditional⟩
      (farBranchLayout.context (some bareImage)) = .ok widenedFarBranch :=
    emitEncoded_eq_ok.mpr (.inr ⟨rfl, _, _, rfl, rfl, encodeWidened_farBranch⟩)
  have hop : emitOp aarch64 (.instruction farBranch) ⟨0x400000, 8, .invertedConditional⟩
      (farBranchLayout.context (some bareImage)) .empty = .ok ⟨[] ++ widenedFarBranch, []⟩ :=
    emitInstruction_iff.mpr (.encoded widenedFarBranch rfl rfl hencoded rfl)
  exact emit_single rfl hop

/-- One word was reserved for the branch, and its overlay runs over the rest of
the hole. -/
theorem farBranch_outgrowsHole :
    ∃ s, runCalls [.plan "stub" (.ofAarch farBranchPlan)]
        ⟨liftedEditor, [⟨0x400000, 8⟩], []⟩ = some s
      ∧ ∀ new, s.editor.text = some ⟨⟨0⟩, 0x1000, [] ++ new⟩ →
        ¬StaysInHoles [⟨0x400000, 8⟩] s.holes s.reserved new := by
  have hemit : (AnyPlan.ofAarch farBranchPlan).emit farBranchLayout liftedEditor.binary.container
      = .ok ⟨[] ++ widenedFarBranch, []⟩ := emit_ofAarch emit_farBranch
  have hsized : (AnyPlan.ofAarch farBranchPlan).layOutForSize 0 liftedEditor.binary.container
      = .ok ⟨0, 4, [0], [[⟨0, 4, .normal⟩]]⟩ := layOutForSize_farBranch
  have hlayout : (AnyPlan.ofAarch farBranchPlan).layOut (BitVec.ofNat 64 0x400000)
      liftedEditor.binary.container = .ok farBranchLayout := layOut_farBranch
  have hreserve : reserveHole [⟨0x400000, 8⟩] 4
      = some (0x400000, ⟨0x400000, 4, none⟩, [⟨0x400004, 4⟩]) := rfl
  have hplace := (placePlanInHoles_eq "stub" hsized hreserve hlayout hemit rfl).2 _ rfl
  have hrun : (HoleCall.plan "stub" (.ofAarch farBranchPlan)).run liftedEditor [⟨0x400000, 8⟩]
      = some ⟨true, ⟨(liftedEditor.binary.defineTextSymbol "stub" 0x400000 true ⟨0⟩).2,
          some ⟨⟨0⟩, 0x1000, [(0x400000, widenedFarBranch)]⟩⟩, [⟨0x400004, 4⟩]⟩ := by
    simp only [HoleCall.run, hplace]
    rfl
  have hreserved : (HoleCall.plan "stub" (.ofAarch farBranchPlan)).reserve liftedEditor
      [⟨0x400000, 8⟩] = [(0x400000, 4)] := rfl
  refine ⟨⟨⟨(liftedEditor.binary.defineTextSymbol "stub" 0x400000 true ⟨0⟩).2,
    some ⟨⟨0⟩, 0x1000, [(0x400000, widenedFarBranch)]⟩⟩, [⟨0x400004, 4⟩], [(0x400000, 4)]⟩, ?_, ?_⟩
  · rw [runCalls, HoleRun.step]
    simp only [hrun, hreserved]
    rfl
  · intro new hnew hstays
    cases hnew
    have hclear := hstays.holesClear ⟨0x400004, 4⟩ (by simp)
      (0x400000, widenedFarBranch) (by simp)
    rw [Set.disjoint_left] at hclear
    exact hclear (a := 0x400004) ⟨by decide, by decide⟩ ⟨by decide, by decide⟩

end Armv8Encode.Editor

/-
  Armv8Encode.Rewrite.ElfEditor.Regions — what a run of calls does to the regions.

  Each call leaves one region as it is and at most extends the other, which
  opens past everything mapped by then.  A region that is open never moves.
  So after any run the code region lies past the image, and the bytes a call
  returned an address for still stand there.  Whether the writable region
  ends before the code region is decided by the calls that extend it.
-/
import Armv8Encode.Rewrite.ElfEditor.State
import Armv8Encode.Container.Elf.LoadMap

namespace Armv8Encode.Elf

open Lib

/-! ## §1. Runs of calls. -/

inductive Call where
  | addFunction (name : String) (body : Body)
  | addFunctionExported (name : String) (body : Body)
  | addData (name : String) (bytes : List Byte) (align : Nat)
  | addWritableData (name : String) (bytes : List Byte) (align : Nat)
  | addLibraryDependency (libraryName : String)
  | addInitialiser (name : String) (body : Body) (position : InitialiserPosition)

def BinaryState.call (st : BinaryState) :
    Call → BinaryState × Option Placed
  | .addFunction name body => st.addFunction name body
  | .addFunctionExported name body => st.addFunctionExported name body
  | .addData name bytes align => st.addData name bytes align
  | .addWritableData name bytes align => st.addWritableData name bytes align
  | .addLibraryDependency libraryName => (st.addLibraryDependency libraryName, none)
  | .addInitialiser name body position => st.addInitialiser name body position

/-- The state after some calls, and what the successful ones returned. -/
def BinaryState.run : BinaryState → List Call →
    BinaryState × List Placed
  | st, [] => (st, [])
  | st, c :: calls =>
    let r := st.call c
    let rest := r.1.run calls
    (rest.1, r.2.toList ++ rest.2)

/-! ## §2. What one call does to the regions. -/

/-- The regions of `st'` are those of `st`, but for a code region that got longer. -/
structure CodeGrows (st st' : BinaryState) : Prop where
  source : st'.source = st.source
  writable : st'.appendedWritable = st.appendedWritable
  code : st'.appended = st.appended
    ∨ ∃ a, st'.appended = some a ∧ a.segmentVaddr = st.codeRegion.segmentVaddr
      ∧ st.codeRegion.bytes <+: a.bytes

/-- The bytes of a returned address stand in the code region. -/
def InCode (st : BinaryState) (p : Placed) : Prop :=
  ∃ a, st.appended = some a ∧ StandsIn a.segmentVaddr a.bytes p.address p.bytes

def InWritable (st : BinaryState) (p : Placed) : Prop :=
  ∃ w, st.appendedWritable = some w ∧ StandsIn w.segmentVaddr w.bytes p.address p.bytes

theorem codeRegion_of_some {st : BinaryState} {a : AppendedState} (h : st.appended = some a) :
    st.codeRegion = a := by
  unfold BinaryState.codeRegion
  rw [h]

theorem writableRegion_of_some {st : BinaryState} {w : WritableState}
    (h : st.appendedWritable = some w) : st.writableRegion = w := by
  unfold BinaryState.writableRegion
  rw [h]

theorem CodeGrows.refl (st : BinaryState) : CodeGrows st st := ⟨rfl, rfl, Or.inl rfl⟩

theorem CodeGrows.trans {st st' st'' : BinaryState} (h : CodeGrows st st')
    (h' : CodeGrows st' st'') : CodeGrows st st'' := by
  refine ⟨h'.source.trans h.source, h'.writable.trans h.writable, ?_⟩
  obtain hsame | ⟨a, ha, hbase, hbytes⟩ := h.code
  · obtain hsame' | ⟨b, hb, hbase', hbytes'⟩ := h'.code
    · exact Or.inl (hsame'.trans hsame)
    · have hregion : st'.codeRegion = st.codeRegion := by
        unfold BinaryState.codeRegion BinaryState.pickAppendVaddr
        simp only [hsame, h.source, h.writable]
      rw [hregion] at hbase' hbytes'
      exact Or.inr ⟨b, hb, hbase', hbytes'⟩
  · obtain hsame' | ⟨b, hb, hbase', hbytes'⟩ := h'.code
    · exact Or.inr ⟨a, hsame'.trans ha, hbase, hbytes⟩
    · rw [codeRegion_of_some ha] at hbase' hbytes'
      exact Or.inr ⟨b, hb, hbase'.trans hbase, hbytes.trans hbytes'⟩

/-- Growing the code keeps what stands in it. -/
theorem CodeGrows.inCode {st st' : BinaryState} {p : Placed} (h : CodeGrows st st')
    (hp : InCode st p) : InCode st' p := by
  obtain ⟨a, ha, hstands⟩ := hp
  obtain hsame | ⟨b, hb, hbase, hbytes⟩ := h.code
  · exact ⟨a, hsame.trans ha, hstands⟩
  · rw [codeRegion_of_some ha] at hbase hbytes
    refine ⟨b, hb, ?_⟩
    rw [hbase]
    exact hstands.grow hbytes

/-- A call that extends the code at most, and returns only what stands in it. -/
def CodeCall (st : BinaryState) (r : BinaryState × Option Placed) : Prop :=
  CodeGrows st r.1 ∧ ∀ p, r.2 = some p → InCode r.1 p

theorem CodeCall.none {st st' : BinaryState} (h : CodeGrows st st') : CodeCall st (st', none) :=
  ⟨h, by intro p hp; cases hp⟩

theorem prefix_padTo (bytes : List Byte) (align : Nat) : bytes <+: padTo bytes align :=
  List.prefix_append _ _

theorem addFunction_codeCall (st : BinaryState) (name : String) (body : Body) :
    CodeCall st (st.addFunction name body) := by
  unfold BinaryState.addFunction
  by_cases hempty : body.isEmpty = true
  · rw [if_pos hempty]
    exact CodeCall.none (CodeGrows.refl st)
  rw [if_neg hempty]
  by_cases hlinked : st.source.isLinked = true
  swap
  · rw [if_pos (by simpa using hlinked)]
    exact CodeCall.none (CodeGrows.refl st)
  rw [if_neg (by simp [hlinked])]
  dsimp only
  -- the region is padded and the symbol registered before layout can fail
  split
  · refine CodeCall.none ?_
    split
    · exact ⟨rfl, rfl, Or.inr ⟨_, rfl, rfl, prefix_padTo _ _⟩⟩
    · exact ⟨rfl, rfl, Or.inl rfl⟩
  · next bytes hemit =>
    constructor
    · split
      all_goals
        exact ⟨rfl, rfl, Or.inr ⟨_, rfl, rfl,
          (prefix_padTo _ _).trans (List.prefix_append _ _)⟩⟩
    · rintro p ⟨⟩
      refine ⟨_, rfl, ?_⟩
      rw [← padTo_length]
      exact standsIn_end _ _ _

theorem addFunctionExported_codeCall (st : BinaryState) (name : String) (body : Body) :
    CodeCall st (st.addFunctionExported name body) := by
  obtain ⟨hgrows, hplaced⟩ := addFunction_codeCall st name body
  unfold BinaryState.addFunctionExported
  split
  · next st' hr =>
    rw [hr] at hgrows
    exact CodeCall.none hgrows
  · next st' placed hr =>
    rw [hr] at hgrows hplaced
    have hexport : CodeGrows st' { st' with
        appended := some { st'.codeRegion with
          exports := st'.codeRegion.exports ++ [⟨name, placed.address, body.sourceSize⟩] } } :=
      ⟨rfl, rfl, Or.inr ⟨_, rfl, rfl, List.prefix_refl _⟩⟩
    refine ⟨hgrows.trans hexport, ?_⟩
    rintro p ⟨⟩
    exact hexport.inCode (hplaced placed rfl)

theorem addData_codeCall (st : BinaryState) (name : String) (bytes : List Byte) (align : Nat) :
    CodeCall st (st.addData name bytes align) := by
  unfold BinaryState.addData
  split
  · exact CodeCall.none (CodeGrows.refl st)
  · dsimp only
    constructor
    · exact ⟨rfl, rfl, Or.inr ⟨_, rfl, rfl,
        (prefix_padTo _ _).trans (List.prefix_append _ _)⟩⟩
    · rintro p ⟨⟩
      refine ⟨_, rfl, ?_⟩
      rw [← padTo_length]
      exact standsIn_end _ _ _

theorem addLibraryDependency_codeGrows (st : BinaryState) (libraryName : String) :
    CodeGrows st (st.addLibraryDependency libraryName) := by
  unfold BinaryState.addLibraryDependency
  split
  · exact CodeGrows.refl st
  · exact ⟨rfl, rfl, Or.inl rfl⟩

theorem addInitialiserAppend_codeCall (st : BinaryState) (name : String) (body : Body) :
    CodeCall st (st.addInitialiserAppend name body) := by
  unfold BinaryState.addInitialiserAppend
  split
  · exact CodeCall.none (CodeGrows.refl st)
  split
  · exact CodeCall.none (CodeGrows.refl st)
  split
  · exact CodeCall.none (CodeGrows.refl st)
  obtain ⟨hgrows, hplaced⟩ := addFunction_codeCall st (name ++ "__body") body
  split
  · next st' hr =>
    rw [hr] at hgrows
    exact CodeCall.none hgrows
  · next st' placed hr =>
    rw [hr] at hgrows hplaced
    have hslot : CodeGrows st' { st' with
        pendingAppendedInitSlots := st'.pendingAppendedInitSlots ++ [placed.address] } :=
      ⟨rfl, rfl, Or.inl rfl⟩
    refine ⟨hgrows.trans hslot, ?_⟩
    rintro p ⟨⟩
    exact hslot.inCode (hplaced placed rfl)

theorem addInitialiserHijack_codeCall (st : BinaryState)
    (name : String) (body : Body) (position : InitialiserPosition) :
    CodeCall st (st.addInitialiserHijack name body position) := by
  have hrefl : CodeCall st (st, none) := CodeCall.none (CodeGrows.refl st)
  unfold BinaryState.addInitialiserHijack
  split
  · exact hrefl
  split
  · exact hrefl
  split
  swap
  · exact hrefl
  next slot entries hslot hentries =>
  split
  · exact hrefl
  dsimp only
  split
  swap
  · exact hrefl
  obtain ⟨hbody, huser⟩ := addFunction_codeCall st (name ++ "__body") body
  split
  · next st' hr =>
    rw [hr] at hbody
    exact CodeCall.none hbody
  next i hi horiginal st' user hr =>
  rw [hr] at hbody huser
  dsimp only at hbody huser
  generalize wrapperBody user.address _ = wrapper
  obtain ⟨hwrapper, _⟩ := addFunction_codeCall st' (name ++ "__wrapper") wrapper
  split
  · next st'' hr' =>
    rw [hr'] at hwrapper
    exact CodeCall.none (hbody.trans hwrapper)
  · next st'' placed hr' =>
    rw [hr'] at hwrapper
    have hstaged : ∀ staged, CodeGrows st'' { st'' with relaOverrides := staged } :=
      fun staged => ⟨rfl, rfl, Or.inl rfl⟩
    refine ⟨(hbody.trans hwrapper).trans (hstaged _), ?_⟩
    rintro p ⟨⟩
    exact (hwrapper.trans (hstaged _)).inCode (huser user rfl)

/-! ## §3. Bases past the image. -/

theorem le_foldl_max (xs : List Nat) (start : Nat) :
    start ≤ xs.foldl max start ∧ ∀ x ∈ xs, x ≤ xs.foldl max start := by
  induction xs generalizing start with
  | nil => exact ⟨Nat.le_refl _, by simp⟩
  | cons y ys ih =>
    obtain ⟨hstart, hmem⟩ := ih (max start y)
    rw [List.foldl_cons]
    refine ⟨by omega, ?_⟩
    intro x hx
    obtain rfl | hx := List.mem_cons.mp hx
    · omega
    · exact hmem x hx

/-- Every load of the image ends by there. -/
theorem load_end_le_mappedEnd {image : Image} {p : ProgramHeader}
    (hp : p ∈ image.programHeaders) (htype : p.pType = ptLoad) :
    p.pVaddr + p.pMemsz ≤ mappedEnd image := by
  apply (le_foldl_max _ 0).2
  rw [List.mem_map]
  exact ⟨p, List.mem_filter.mpr ⟨hp, by simp [htype]⟩, rfl⟩

/-- A fresh address lies past the image and past both regions. -/
theorem le_pickAppendVaddr (st : BinaryState) :
    mappedEnd st.source.image ≤ st.pickAppendVaddr
      ∧ (∀ a, st.appended = some a → a.segmentVaddr + a.bytes.length ≤ st.pickAppendVaddr)
      ∧ ∀ w, st.appendedWritable = some w →
        w.segmentVaddr + w.bytes.length ≤ st.pickAppendVaddr := by
  have hfloor : ∀ floor : Nat, floor ≤ max (alignUp floor appendPageAlign) appendPageAlign := by
    intro floor
    have hle := le_alignUp floor appendPageAlign
    omega
  unfold BinaryState.pickAppendVaddr
  dsimp only
  refine ⟨?_, ?_, ?_⟩
  · refine Nat.le_trans ?_ (hfloor _)
    cases st.appended <;> cases st.appendedWritable <;> dsimp only <;> omega
  · intro a ha
    refine Nat.le_trans ?_ (hfloor _)
    rw [ha]
    cases st.appendedWritable <;> dsimp only <;> omega
  · intro w hw
    refine Nat.le_trans ?_ (hfloor _)
    rw [hw]
    dsimp only
    omega

/-- Open regions lie past the image. -/
structure Based (st : BinaryState) : Prop where
  code : ∀ a, st.appended = some a → mappedEnd st.source.image ≤ a.segmentVaddr
  writable : ∀ w, st.appendedWritable = some w → mappedEnd st.source.image ≤ w.segmentVaddr

theorem codeRegion_base {st : BinaryState} (h : Based st) :
    mappedEnd st.source.image ≤ st.codeRegion.segmentVaddr := by
  unfold BinaryState.codeRegion
  split
  · next a ha => exact h.code a ha
  · exact (le_pickAppendVaddr st).1

theorem writableRegion_base {st : BinaryState} (h : Based st) :
    mappedEnd st.source.image ≤ st.writableRegion.segmentVaddr := by
  unfold BinaryState.writableRegion
  split
  · next w hw => exact h.writable w hw
  · exact (le_pickAppendVaddr st).1

theorem CodeGrows.based {st st' : BinaryState} (h : CodeGrows st st') (hbased : Based st) :
    Based st' := by
  constructor
  · intro a ha
    rw [h.source]
    obtain hsame | ⟨b, hb, hbase, _⟩ := h.code
    · exact hbased.code a (hsame.symm.trans ha)
    · rw [hb, Option.some.injEq] at ha
      rw [← ha, hbase]
      exact codeRegion_base hbased
  · intro w hw
    rw [h.source]
    exact hbased.writable w (h.writable.symm.trans hw)

/-! ## §4. The writable region below the code. -/

/-- Where both regions are open, the writable one ends before the code starts. -/
def Below (st : BinaryState) : Prop :=
  ∀ a w, st.appended = some a → st.appendedWritable = some w →
    w.segmentVaddr + w.bytes.length ≤ a.segmentVaddr

/-- A call fits when it leaves the writable region below an open code region. -/
def CallFits (st : BinaryState) : Call → Prop
  | .addWritableData _ bytes align => st.source.isLinked = true → ∀ a, st.appended = some a →
      st.writableRegion.segmentVaddr + maskUp st.writableRegion.bytes.length align
        + bytes.length ≤ a.segmentVaddr
  | _ => True

/-- Code that grows or opens does not meet the writable region: it opens past it. -/
theorem CodeGrows.below_iff {st st' : BinaryState} (h : CodeGrows st st') :
    Below st' ↔ Below st := by
  unfold Below
  rw [h.writable]
  obtain hsame | ⟨b, hb, hbase, _⟩ := h.code
  · rw [hsame]
  · constructor
    · intro hbelow a w ha hw
      rw [codeRegion_of_some ha] at hbase
      rw [← hbase]
      exact hbelow b w hb hw
    · intro hbelow a w ha hw
      rw [hb, Option.some.injEq] at ha
      rw [← ha, hbase]
      unfold BinaryState.codeRegion
      split
      · next c hc => exact hbelow c w hc hw
      · exact (le_pickAppendVaddr st).2.2 w hw

/-! ## §5. Step and run. -/

def InRegion (st : BinaryState) (p : Placed) : Prop := InCode st p ∨ InWritable st p

/-- What a call does, as far as the regions go. -/
structure CallStep (st : BinaryState) (c : Call) (r : BinaryState × Option Placed) : Prop where
  source : r.1.source = st.source
  based : Based st → Based r.1
  below : Below r.1 ↔ Below st ∧ CallFits st c
  keeps : ∀ p, InRegion st p → InRegion r.1 p
  returned : ∀ p, r.2 = some p → InRegion r.1 p

theorem CodeCall.callStep {st : BinaryState} {c : Call} {r : BinaryState × Option Placed}
    (h : CodeCall st r) (hfits : CallFits st c) : CallStep st c r := by
  obtain ⟨hgrows, hplaced⟩ := h
  constructor
  case source => exact hgrows.source
  case based => exact hgrows.based
  case below => rw [hgrows.below_iff, and_iff_left hfits]
  case keeps =>
    rintro p (hcode | ⟨w, hw, hstands⟩)
    · exact Or.inl (hgrows.inCode hcode)
    · exact Or.inr ⟨w, hgrows.writable.trans hw, hstands⟩
  case returned =>
    intro p hp
    exact Or.inl (hplaced p hp)

theorem addWritableData_callStep (st : BinaryState) (name : String) (bytes : List Byte)
    (align : Nat) :
    CallStep st (.addWritableData name bytes align) (st.addWritableData name bytes align) := by
  unfold BinaryState.addWritableData
  by_cases hlinked : st.source.isLinked = true
  swap
  · rw [if_pos (by simpa using hlinked)]
    exact ⟨rfl, id, by simp [CallFits, hlinked], fun _ hp => hp, by simp⟩
  rw [if_neg (by simp [hlinked])]
  dsimp only
  have hlen : (padTo st.writableRegion.bytes align ++ bytes).length
      = maskUp st.writableRegion.bytes.length align + bytes.length := by
    rw [List.length_append, padTo_length]
  constructor
  case source => rfl
  case based =>
    intro hbased
    refine ⟨hbased.code, ?_⟩
    rintro w ⟨⟩
    show mappedEnd st.source.image ≤ st.writableRegion.segmentVaddr
    exact writableRegion_base hbased
  case below =>
    constructor
    · intro hbelow
      have hfits : CallFits st (.addWritableData name bytes align) := by
        intro _ a ha
        have hle := hbelow a _ ha rfl
        dsimp only at hle
        omega
      refine ⟨?_, hfits⟩
      -- what was below after the call was below before it: the region only grows
      intro a w ha hw
      have hle := hfits hlinked a ha
      rw [writableRegion_of_some hw] at hle
      have hgrow := le_maskUp w.bytes.length align
      omega
    · rintro ⟨_, hfits⟩ a w ha ⟨⟩
      have hle := hfits hlinked a ha
      dsimp only
      omega
  case keeps =>
    rintro p (hcode | ⟨w, hw, hstands⟩)
    · exact Or.inl hcode
    · refine Or.inr ⟨_, rfl, ?_⟩
      rw [writableRegion_of_some hw]
      exact hstands.grow ((prefix_padTo _ _).trans (List.prefix_append _ _))
  case returned =>
    rintro p ⟨⟩
    refine Or.inr ⟨_, rfl, ?_⟩
    rw [← padTo_length]
    exact standsIn_end _ _ _

theorem call_callStep (st : BinaryState) (c : Call) :
    CallStep st c (st.call c) := by
  cases c with
  | addFunction name body => exact (addFunction_codeCall st name body).callStep trivial
  | addFunctionExported name body =>
    exact (addFunctionExported_codeCall st name body).callStep trivial
  | addData name bytes align => exact (addData_codeCall st name bytes align).callStep trivial
  | addWritableData name bytes align => exact addWritableData_callStep st name bytes align
  | addLibraryDependency libraryName =>
    exact (CodeCall.none (addLibraryDependency_codeGrows st libraryName)).callStep trivial
  | addInitialiser name body position =>
    refine CodeCall.callStep ?_ trivial
    unfold BinaryState.call BinaryState.addInitialiser
    cases position with
    | append => exact addInitialiserAppend_codeCall st name body
    | first => exact addInitialiserHijack_codeCall st name body .first
    | last => exact addInitialiserHijack_codeCall st name body .last

/-- Every call of the run fits where it is made. -/
def RunFits : BinaryState → List Call → Prop
  | _, [] => True
  | st, c :: calls => CallFits st c ∧ RunFits (st.call c).1 calls

/-- What a run does, as far as the regions go. -/
theorem run_regions (st : BinaryState) (calls : List Call) :
    (st.run calls).1.source = st.source
      ∧ (Based st → Based (st.run calls).1)
      ∧ (Below (st.run calls).1 ↔ Below st ∧ RunFits st calls)
      ∧ (∀ p, InRegion st p → InRegion (st.run calls).1 p)
      ∧ ∀ p ∈ (st.run calls).2, InRegion (st.run calls).1 p := by
  induction calls generalizing st with
  | nil =>
    exact ⟨rfl, id, by simp [BinaryState.run, RunFits], fun _ hp => hp,
      by simp [BinaryState.run]⟩
  | cons c calls ih =>
    have hstep := call_callStep st c
    obtain ⟨hsource, hbased, hbelow, hkeeps, hreturned⟩ := ih (st.call c).1
    refine ⟨hsource.trans hstep.source, fun h => hbased (hstep.based h), ?_,
      fun p hp => hkeeps p (hstep.keeps p hp), ?_⟩
    · show Below ((st.call c).1.run calls).1 ↔ _
      rw [hbelow, hstep.below, and_assoc]
      rfl
    · intro p hp
      obtain hp | hp := List.mem_append.mp hp
      · exact hkeeps p (hstep.returned p (by simpa using hp))
      · exact hreturned p hp

theorem new_based (source : Source) (symbols : List Symbol) : Based (.new source symbols) := by
  constructor
  · intro a ha
    cases ha
  · intro w hw
    cases hw

theorem new_below (source : Source) (symbols : List Symbol) : Below (.new source symbols) := by
  intro a w ha
  cases ha

end Armv8Encode.Elf

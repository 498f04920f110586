/-
  Armv8Encode.Rewrite.ElfEditor.Initialisers — runs of `add_initialiser`.

  A hijack places a body and a wrapper past the code there is, and redirects
  one entry of the effective `.rela.dyn` to the wrapper.  So along a run the
  entry of each slot leads through the wrappers installed on that slot, the
  latest first, to the constructor the slot had: the editor's state refines
  the order of `InitOrder`.  Addresses of new code are past everything known
  by then, which is why no later wrapper is mistaken for an earlier routine.
-/
import Armv8Encode.Rewrite.ElfEditor.Regions
import Armv8Encode.Rewrite.ElfEditor.InitOrder
import Armv8Encode.Lib.Lists

namespace Armv8Encode.Elf

open Lib

/-! ## §1. Adding a function. -/

/-- End of the code region, as it is or as it would be opened. -/
def codeEnd (st : BinaryState) : Nat :=
  st.codeRegion.segmentVaddr + st.codeRegion.bytes.length

/-- What adding functions leaves as it was. -/
structure SameQueues (st st' : BinaryState) : Prop where
  relaOverrides : st'.relaOverrides = st.relaOverrides
  slots : st'.pendingAppendedInitSlots = st.pendingAppendedInitSlots
  deps : st'.pendingLibraryDeps = st.pendingLibraryDeps
  exports : st'.codeRegion.exports = st.codeRegion.exports

structure FunctionAdded (st st' : BinaryState) (body : Body) (p : Placed) : Prop where
  grows : CodeGrows st st'
  queues : SameQueues st st'
  placed : InCode st' p
  /-- The function lies past the code there was. -/
  fresh : codeEnd st ≤ p.address
  inside : p.address < codeEnd st'
  emitted : ∃ symbols, body.emit symbols p.address = some p.bytes

theorem addFunction_added {st st' : BinaryState} {name : String} {body : Body} {p : Placed}
    (h : st.addFunction name body = (st', some p)) : FunctionAdded st st' body p := by
  obtain ⟨hgrows, hplaced⟩ := addFunction_codeCall st name body
  rw [h] at hgrows hplaced
  unfold BinaryState.addFunction at h
  split at h
  · cases h
  next hempty =>
  split at h
  · cases h
  dsimp only at h
  split at h
  · cases h
  next bytes hemit =>
  rw [Bool.not_eq_true] at hempty
  have hne : 0 < bytes.length :=
    List.length_pos_of_ne_nil (body.emit_ne_nil hempty _ _ _ hemit)
  have hpad := le_maskUp st.codeRegion.bytes.length 4
  have hbytes : ∀ (s : BinaryState) (region : AppendedState), s.appended = some region →
      region.segmentVaddr = st.codeRegion.segmentVaddr →
      region.bytes = padTo st.codeRegion.bytes 4 ++ bytes →
      codeEnd s = st.codeRegion.segmentVaddr + maskUp st.codeRegion.bytes.length 4
        + bytes.length := by
    intro s region hs hbase hregion
    unfold codeEnd
    rw [codeRegion_of_some hs, hbase, hregion, List.length_append, padTo_length]
    omega
  simp only [Prod.mk.injEq, Option.some.injEq] at h
  obtain ⟨hst, hp⟩ := h
  have happended : ∃ region, st'.appended = some region
      ∧ region.segmentVaddr = st.codeRegion.segmentVaddr
      ∧ region.bytes = padTo st.codeRegion.bytes 4 ++ bytes
      ∧ region.exports = st.codeRegion.exports := by
    rw [← hst]
    exact ⟨_, rfl, rfl, rfl, rfl⟩
  obtain ⟨region, hregion, hbase, hcontent, hexports⟩ := happended
  have hend := hbytes st' region hregion hbase hcontent
  constructor
  case grows => exact hgrows
  case placed => exact hplaced p rfl
  case queues =>
    constructor
    case exports => rw [codeRegion_of_some hregion, hexports]
    all_goals
      rw [← hst]
      dsimp only
      split <;> rfl
  case fresh =>
    rw [← hp]
    show st.codeRegion.segmentVaddr + st.codeRegion.bytes.length ≤ _ + _
    omega
  case inside =>
    rw [← hp, hend]
    show st.codeRegion.segmentVaddr + maskUp st.codeRegion.bytes.length 4 < _
    omega
  case emitted =>
    rw [← hp]
    exact ⟨_, hemit⟩

/-! ## §2. Entries and the slots they fix up. -/

def relativeFor (slotVaddr : Nat) (r : Rela) : Bool :=
  r.rOffset == slotVaddr && r.rType == rAarch64Relative

/-- What the relative entries of a slot put there, one by one. -/
def slotTargets (entries : List Rela) (slotVaddr : Nat) : List Nat :=
  (entries.filter (relativeFor slotVaddr)).map Rela.rAddend

theorem slotTargets_append (es es' : List Rela) (slotVaddr : Nat) :
    slotTargets (es ++ es') slotVaddr = slotTargets es slotVaddr ++ slotTargets es' slotVaddr := by
  unfold slotTargets
  rw [List.filter_append, List.map_append]

theorem slotTargets_cons (r : Rela) (es : List Rela) (slotVaddr : Nat) :
    slotTargets (r :: es) slotVaddr
      = (if relativeFor slotVaddr r then [r.rAddend] else []) ++ slotTargets es slotVaddr := by
  unfold slotTargets
  rw [List.filter_cons]
  split <;> rfl

/-- The entry that is found, and what precedes and follows it. -/
theorem findRelative_split {entries : List Rela} {slotVaddr i : Nat}
    (h : findRelative entries slotVaddr = some i) :
    ∃ before r after, entries = before ++ r :: after ∧ before.length = i
      ∧ relativeFor slotVaddr r = true := by
  obtain ⟨hi, hrelative, _⟩ := List.findIdx?_eq_some_iff_getElem.mp h
  refine ⟨entries.take i, entries[i], entries.drop (i + 1), ?_, ?_, hrelative⟩
  · exact eq_take_cons_drop (List.getElem?_eq_getElem hi)
  · rw [List.length_take]
    omega

theorem modify_middle {α : Type} (before after : List α) (x : α) (f : α → α) :
    (before ++ x :: after).modify before.length f = before ++ f x :: after := by
  induction before with
  | nil => rfl
  | cons y before ih =>
    rw [List.cons_append, List.length_cons, List.modify_succ_cons, ih]
    rfl

/-- Redirecting the one entry of a slot. -/
theorem slotTargets_redirect {before after : List Rela} {r : Rela} {slotVaddr a : Nat}
    (hr : relativeFor slotVaddr r = true)
    (hone : slotTargets (before ++ r :: after) slotVaddr = [a]) (w : Nat) :
    r.rAddend = a
      ∧ slotTargets (before ++ { r with rAddend := w } :: after) slotVaddr = [w]
      ∧ ∀ other, other ≠ slotVaddr →
        slotTargets (before ++ { r with rAddend := w } :: after) other
          = slotTargets (before ++ r :: after) other := by
  have hr' : ∀ other, relativeFor other { r with rAddend := w } = relativeFor other r :=
    fun _ => rfl
  have hoffset : r.rOffset = slotVaddr := by
    unfold relativeFor at hr
    rw [Bool.and_eq_true, beq_iff_eq] at hr
    exact hr.1
  rw [slotTargets_append, slotTargets_cons, if_pos hr] at hone
  obtain ⟨hbefore, hrest⟩ | ⟨_, hnil⟩ := List.append_eq_singleton_iff.mp hone
  · obtain ⟨hhead, hafter⟩ := List.cons.inj hrest
    refine ⟨hhead, ?_, ?_⟩
    · rw [slotTargets_append, slotTargets_cons, hr', if_pos hr, hbefore]
      show w :: slotTargets after slotVaddr = [w]
      rw [show slotTargets after slotVaddr = [] from hafter]
    · intro other hne
      have hnot : relativeFor other r = false := by
        unfold relativeFor
        rw [hoffset, beq_eq_false_iff_ne.mpr hne.symm, Bool.false_and]
      rw [slotTargets_append, slotTargets_append, slotTargets_cons, slotTargets_cons, hr', hnot]
      rfl
  · cases hnil

/-! ## §3. Wrappers. -/

/-- A wrapper, and the two routines it calls. -/
structure Wrapper where
  address : Nat
  body : Nat
  ctor : Nat
  deriving Repr, DecidableEq

/-- What running an address amounts to, the latest wrapper first: a wrapper
runs its body and then its constructor; any other routine is just run. -/
def expand : List Wrapper → Nat → List Nat
  | [], a => [a]
  | w :: older, a => if a = w.address then expand older w.body ++ expand older w.ctor
    else expand older a

theorem expand_of_fresh {ws : List Wrapper} {a : Nat} (h : ∀ w ∈ ws, w.address ≠ a) :
    expand ws a = [a] := by
  induction ws with
  | nil => rfl
  | cons w ws ih =>
    have hne : a ≠ w.address := fun heq => h w List.mem_cons_self heq.symm
    show (if a = w.address then _ else expand ws a) = [a]
    rw [if_neg hne]
    exact ih fun v hv => h v (List.mem_cons_of_mem w hv)

theorem expand_cons_of_ne {w : Wrapper} {a : Nat} (ws : List Wrapper) (h : a ≠ w.address) :
    expand (w :: ws) a = expand ws a := if_neg h

theorem expand_wrapper (w : Wrapper) (ws : List Wrapper) :
    expand (w :: ws) w.address = expand ws w.body ++ expand ws w.ctor := if_pos rfl

/-! ## §4. Runs. -/

structure InitCall where
  name : String
  body : Body
  position : InitialiserPosition

/-- What a successful call did: the body it placed and the wrapper, if any. -/
structure Installed where
  position : InitialiserPosition
  body : Nat
  wrapper : Option Wrapper
  deriving Repr, DecidableEq

/-- Where the entry of a slot leads at the moment. -/
def BinaryState.slotTarget (st : BinaryState) (slotVaddr : Nat) : Option Nat :=
  (slotTargets (st.effectiveRelaDyn.getD []) slotVaddr).head?

/-- Read off the states around a call: the slot led to the constructor before
and leads to the wrapper after. -/
def installed (st st' : BinaryState) (position : InitialiserPosition) (body : Nat) : Installed where
  position := position
  body := body
  wrapper := do
    let slot ← st.source.hijackedSlot position
    let ctor ← st.slotTarget slot
    let address ← st'.slotTarget slot
    some ⟨address, body, ctor⟩

/-- A run of calls that all succeed. -/
def BinaryState.initialise : BinaryState → List InitCall → Option (BinaryState × List Installed)
  | st, [] => some (st, [])
  | st, c :: calls =>
    match st.addInitialiser c.name c.body c.position with
    | (_, none) => none
    | (st', some placed) =>
      (st'.initialise calls).map fun r =>
        (r.1, installed st st' c.position placed.address :: r.2)

/-- The wrappers of a run, the latest first. -/
def wrappers (log : List Installed) : List Wrapper := (log.filterMap Installed.wrapper).reverse

def bodies (log : List Installed) : List (InitialiserPosition × Nat) :=
  log.map fun l => (l.position, l.body)

/-! ## §5. What one call did. -/

theorem effectiveRelaDyn_congr {st st' : BinaryState} (hsource : st'.source = st.source)
    (hstaged : st'.relaOverrides = st.relaOverrides) :
    st'.effectiveRelaDyn = st.effectiveRelaDyn := by
  unfold BinaryState.effectiveRelaDyn
  rw [hsource, hstaged]

theorem effectiveRelaDyn_staged (st : BinaryState) {entries : List Rela}
    (h : st.source.relaDyn = some entries) (staged : List Rela) :
    { st with relaOverrides := st.relaOverrides ++ [staged] }.effectiveRelaDyn = some staged := by
  unfold BinaryState.effectiveRelaDyn
  rw [h]
  simp

/-- A successful hijack: two functions added and one entry redirected. -/
theorem addInitialiserHijack_inv {st st' : BinaryState} {name : String} {body : Body}
    {position : InitialiserPosition} {p : Placed}
    (h : st.addInitialiserHijack name body position = (st', some p)) :
    ∃ slot entries i st₁ st₂ w, st.source.hijackedSlot position = some slot
      ∧ st.effectiveRelaDyn = some entries ∧ findRelative entries slot = some i
      ∧ FunctionAdded st st₁ body p
      ∧ FunctionAdded st₁ st₂
        (wrapperBody p.address (((entries[i]?).map Rela.rAddend).getD 0)) w
      ∧ st' = { st₂ with relaOverrides := st₂.relaOverrides
        ++ [entries.modify i fun r => { r with rAddend := w.address }] } := by
  unfold BinaryState.addInitialiserHijack at h
  split at h
  · cases h
  split at h
  · cases h
  split at h
  swap
  · cases h
  next slot entries hslot hentries =>
  split at h
  · cases h
  next i hi =>
  dsimp only at h
  split at h
  swap
  · cases h
  split at h
  · cases h
  next st₁ user huser =>
  split at h
  · cases h
  next st₂ w hw =>
  cases h
  exact ⟨slot, entries, i, st₁, st₂, w, hslot, hentries, hi, addFunction_added huser,
    addFunction_added hw, rfl⟩

theorem addInitialiserAppend_inv {st st' : BinaryState} {name : String} {body : Body} {p : Placed}
    (h : st.addInitialiserAppend name body = (st', some p)) :
    ∃ st₁, FunctionAdded st st₁ body p
      ∧ st' = { st₁ with
        pendingAppendedInitSlots := st₁.pendingAppendedInitSlots ++ [p.address] } := by
  unfold BinaryState.addInitialiserAppend at h
  split at h
  · cases h
  split at h
  · cases h
  split at h
  · cases h
  split at h
  · cases h
  next st₁ placed hadd =>
  cases h
  exact ⟨st₁, addFunction_added hadd, rfl⟩

/-! ## §6. The state refines the order. -/

/-- Address of a slot of the source's `.init_array`. -/
def Source.slotVaddr (src : Source) (i : Nat) : Nat := src.initArray.2 + 8 * i

/-- The `.init_array` of an image: every slot has one relative entry, which
puts a constructor there that lies inside the image. -/
structure InitArray (src : Source) (entries : List Rela) (ctors : List Nat) : Prop where
  relaDyn : src.relaDyn = some entries
  size : src.initArray.1.length = 8 * ctors.length
  slots : ∀ i c, ctors[i]? = some c → slotTargets entries (src.slotVaddr i) = [c]
  inside : ∀ c ∈ ctors, c < mappedEnd src.image

/-- The entry fixes up a slot of the array. -/
def OnSlot (src : Source) (r : Rela) : Prop :=
  ∃ i, 8 * i < src.initArray.1.length ∧ relativeFor (src.slotVaddr i) r = true

/-- An entry as it was, or redirected in place if it fixes up a slot. -/
def SameOrRedirected (src : Source) (r r' : Rela) : Prop :=
  r'.rOffset = r.rOffset ∧ r'.rInfo = r.rInfo ∧ (¬ OnSlot src r → r'.rAddend = r.rAddend)

structure Refines (src : Source) (entries : List Rela) (ctors : List Nat) (st : BinaryState)
    (ws : List Wrapper) (o : InitOrder Nat) (es : List Rela) : Prop where
  source : st.source = src
  based : Based st
  deps : st.pendingLibraryDeps = []
  exports : st.codeRegion.exports = []
  writable : st.appendedWritable = none
  effective : st.effectiveRelaDyn = some es
  /-- No call, no code. -/
  unopened : st.appended = none → es = entries ∧ o.appended = []
  entries : List.Forall₂ (SameOrRedirected src) entries es
  slotCount : o.slots.length = ctors.length
  slots : ∀ i chain, o.slots[i]? = some chain →
    ∃ a, slotTargets es (src.slotVaddr i) = [a] ∧ expand ws a = chain ∧ a < codeEnd st
  pending : st.pendingAppendedInitSlots = o.appended
  appended : ∀ b ∈ o.appended, expand ws b = [b] ∧ b < codeEnd st
  wrappers : ∀ w ∈ ws, w.address < codeEnd st
    ∧ ∃ bytes, assembleWrapper w.address w.body w.ctor = some bytes ∧ InCode st ⟨w.address, bytes⟩

theorem refines_new {src : Source} {entries : List Rela} {ctors : List Nat}
    (h : InitArray src entries ctors) (symbols : List Symbol) :
    Refines src entries ctors (.new src symbols) [] (.start ctors) entries := by
  have hbased := new_based src symbols
  constructor
  case source => rfl
  case based => exact hbased
  case deps => rfl
  case exports => rfl
  case writable => rfl
  case effective =>
    have hsource : (BinaryState.new src symbols).source.relaDyn = some entries := h.relaDyn
    rw [BinaryState.effectiveRelaDyn, hsource]
    rfl
  case entries => exact List.forall₂_same.mpr fun r _ => ⟨rfl, rfl, fun _ => rfl⟩
  case slotCount => exact List.length_map _
  case slots =>
    intro i chain hchain
    rw [InitOrder.start, List.getElem?_map, Option.map_eq_some_iff] at hchain
    obtain ⟨c, hc, rfl⟩ := hchain
    refine ⟨c, h.slots i c hc, rfl, ?_⟩
    have hlt := h.inside c (List.mem_of_getElem? hc)
    have hbase := codeRegion_base hbased
    show c < _ + _
    exact Nat.lt_of_lt_of_le hlt (Nat.le_trans hbase (Nat.le_add_right _ _))
  case pending => rfl
  case appended => simp [InitOrder.start]
  case unopened => exact fun _ => ⟨rfl, rfl⟩
  case wrappers => simp

/-- The slot of a hijack is one of the array's. -/
theorem hijackedSlot_spec {src : Source} {n slot : Nat} {position : InitialiserPosition}
    (hsize : src.initArray.1.length = 8 * n) (h : src.hijackedSlot position = some slot) :
    ∃ k, k < n ∧ slot = src.slotVaddr k ∧
      ((position = .first ∧ k = 0) ∨ (position = .last ∧ k = n - 1)) := by
  unfold Source.hijackedSlot at h
  unfold Source.slotVaddr
  unfold Source.initArray at hsize ⊢
  cases hs : src.sectionNamed ".init_array" with
  | none =>
    rw [hs] at h
    cases h
  | some s =>
    rw [hs] at h hsize
    dsimp only at h hsize ⊢
    by_cases hlen : s.2.bytes.length < 8
    · rw [if_pos hlen] at h
      cases h
    rw [if_neg hlen] at h
    cases position with
    | first =>
      cases h
      exact ⟨0, by omega, by omega, Or.inl ⟨rfl, rfl⟩⟩
    | last =>
      dsimp only at h
      rw [Option.some.injEq] at h
      exact ⟨n - 1, by omega, by omega, Or.inr ⟨rfl, rfl⟩⟩
    | append => cases h

/-- Code that grows ends no earlier. -/
theorem CodeGrows.codeEnd_le {st st' : BinaryState} (h : CodeGrows st st') :
    codeEnd st ≤ codeEnd st' := by
  unfold codeEnd
  obtain hsame | ⟨a, ha, hbase, hbytes⟩ := h.code
  · have hregion : st'.codeRegion = st.codeRegion := by
      unfold BinaryState.codeRegion BinaryState.pickAppendVaddr
      simp only [hsame, h.source, h.writable]
    rw [hregion]
  · rw [codeRegion_of_some ha, hbase]
    have hlen := hbytes.length_le
    omega

/-- A hijack chains its body onto the slot. -/
theorem refines_hijack {src : Source} {entries : List Rela} {ctors : List Nat}
    {st st' : BinaryState} {ws : List Wrapper} {o : InitOrder Nat} {es : List Rela}
    (hr : Refines src entries ctors st ws o es) (harray : InitArray src entries ctors)
    {name : String} {body : Body} {position : InitialiserPosition} {p : Placed}
    (h : st.addInitialiserHijack name body position = (st', some p)) :
    ctors ≠ [] ∧ ∃ w es', (installed st st' position p.address).wrapper = some w
      ∧ Refines src entries ctors st' (w :: ws) (o.install (position, p.address)) es' := by
  obtain ⟨slot, es₀, i, st₁, st₂, wp, hslot, heffective, hi, hbody, hwrapper, rfl⟩ :=
    addInitialiserHijack_inv h
  rw [hr.effective, Option.some.injEq] at heffective
  subst heffective
  have hslot' := hslot
  rw [hr.source] at hslot'
  obtain ⟨k, hk, hvaddr, hposition⟩ := hijackedSlot_spec harray.size hslot'
  rw [← hr.slotCount] at hk
  obtain ⟨a, hone, hchain, hlt⟩ := hr.slots k _ (List.getElem?_eq_getElem hk)
  rw [← hvaddr] at hone
  obtain ⟨before, r, after, hes, hlen, hrelative⟩ := findRelative_split hi
  subst hes hlen
  obtain ⟨hctor, hnew, hother⟩ := slotTargets_redirect hrelative hone wp.address
  have hfound : (((before ++ r :: after)[before.length]?).map Rela.rAddend).getD 0 = a := by
    simp [hctor]
  rw [hfound] at hwrapper
  rw [modify_middle]
  have hsource : st₂.source = src :=
    (hwrapper.grows.source.trans hbody.grows.source).trans hr.source
  -- the body and the wrapper are past everything known before
  have hfresh := hbody.fresh
  have hinside := hbody.inside
  have hfresh' := hwrapper.fresh
  have hinside' := hwrapper.inside
  have hnot : ∀ b, b < codeEnd st →
      expand (⟨wp.address, p.address, a⟩ :: ws) b = expand ws b ∧ b < codeEnd st₂ := by
    intro b hb
    refine ⟨expand_cons_of_ne ws ?_, by omega⟩
    show b ≠ wp.address
    omega
  have hbodyRuns : expand ws p.address = [p.address] := by
    apply expand_of_fresh
    intro w hw
    have hwlt := (hr.wrappers w hw).1
    omega
  have hinstall : (o.install (position, p.address)).slots = o.slots.modify k (p.address :: ·)
      ∧ (o.install (position, p.address)).appended = o.appended := by
    obtain ⟨rfl, rfl⟩ | ⟨rfl, rfl⟩ := hposition
    · exact ⟨rfl, rfl⟩
    · rw [← hr.slotCount]
      exact ⟨rfl, rfl⟩
  have hstaged := effectiveRelaDyn_staged st₂
    (by rw [hsource]; exact harray.relaDyn) (before ++ { r with rAddend := wp.address } :: after)
  have hctors : ctors ≠ [] := by
    intro hnil
    rw [hr.slotCount, hnil] at hk
    exact absurd hk (Nat.not_lt_zero k)
  refine ⟨hctors, ⟨wp.address, p.address, a⟩,
    before ++ { r with rAddend := wp.address } :: after, ?_, ?_⟩
  · unfold installed BinaryState.slotTarget
    rw [hstaged, hr.effective, hslot]
    simp [hone, hnew]
  constructor
  case source => exact hsource
  case based =>
    have hbased := hwrapper.grows.based (hbody.grows.based hr.based)
    exact ⟨hbased.code, hbased.writable⟩
  case deps => exact (hwrapper.queues.deps.trans hbody.queues.deps).trans hr.deps
  case exports => exact (hwrapper.queues.exports.trans hbody.queues.exports).trans hr.exports
  case writable => exact (hwrapper.grows.writable.trans hbody.grows.writable).trans hr.writable
  case effective => exact hstaged
  case entries =>
    refine forall₂_exchange hr.entries ?_
    rintro q ⟨hoffset, hinfo, _⟩
    refine ⟨hoffset, hinfo, fun hnot => absurd ?_ hnot⟩
    refine ⟨k, ?_, ?_⟩
    · rw [hr.slotCount] at hk
      have hsize := harray.size
      omega
    · unfold relativeFor Rela.rType at hrelative ⊢
      rw [← hoffset, ← hinfo, ← hvaddr]
      exact hrelative
  case slotCount => rw [InitOrder.install_slots_length, hr.slotCount]
  case slots =>
    intro j chain hj
    rw [hinstall.1, List.getElem?_modify] at hj
    by_cases hkj : k = j
    · subst hkj
      rw [List.getElem?_eq_getElem hk] at hj
      simp only [if_pos, Option.map_eq_map, Option.map_some, Option.some.injEq] at hj
      refine ⟨wp.address, by rw [← hvaddr]; exact hnew, ?_, hinside'⟩
      rw [← hj]
      show expand (⟨wp.address, p.address, a⟩ :: ws) (Wrapper.mk wp.address p.address a).address = _
      rw [expand_wrapper]
      show expand ws p.address ++ expand ws a = _
      rw [hbodyRuns, hchain]
      rfl
    · simp only [if_neg hkj, Option.map_eq_map, Option.map_id'] at hj
      obtain ⟨b, hb, hbchain, hblt⟩ := hr.slots j chain hj
      refine ⟨b, ?_, ?_, (hnot b hblt).2⟩
      · rw [hother, hb]
        rw [hvaddr]
        unfold Source.slotVaddr
        omega
      · rw [(hnot b hblt).1, hbchain]
  case pending =>
    rw [hinstall.2, ← hr.pending]
    exact hwrapper.queues.slots.trans hbody.queues.slots
  case appended =>
    rw [hinstall.2]
    intro b hb
    obtain ⟨hruns, hblt⟩ := hr.appended b hb
    exact ⟨(hnot b hblt).1.trans hruns, (hnot b hblt).2⟩
  case unopened =>
    intro hnone
    obtain ⟨a, ha, _⟩ := hwrapper.placed
    have hnone' : st₂.appended = none := hnone
    rw [ha] at hnone'
    cases hnone'
  case wrappers =>
    intro w hw
    obtain rfl | hw := List.mem_cons.mp hw
    · obtain ⟨_, hemit⟩ := hwrapper.emitted
      exact ⟨hinside', wp.bytes, hemit, hwrapper.placed⟩
    · obtain ⟨hwlt, bytes, hbytes, hin⟩ := hr.wrappers w hw
      exact ⟨by show _ < codeEnd st₂; omega, bytes, hbytes,
        hwrapper.grows.inCode (hbody.grows.inCode hin)⟩

/-- An appended body waits for a slot of its own. -/
theorem refines_append {src : Source} {entries : List Rela} {ctors : List Nat}
    {st st' : BinaryState} {ws : List Wrapper} {o : InitOrder Nat} {es : List Rela}
    (hr : Refines src entries ctors st ws o es)
    {name : String} {body : Body} {p : Placed}
    (h : st.addInitialiserAppend name body = (st', some p)) :
    (installed st st' .append p.address).wrapper = none
      ∧ Refines src entries ctors st' ws (o.install (.append, p.address)) es := by
  obtain ⟨st₁, hbody, rfl⟩ := addInitialiserAppend_inv h
  have hfresh := hbody.fresh
  have hinside := hbody.inside
  have hgrows : codeEnd st ≤ codeEnd st₁ := hbody.grows.codeEnd_le
  constructor
  · unfold installed Source.hijackedSlot
    split
    · rfl
    · split <;> rfl
  constructor
  case source => exact hbody.grows.source.trans hr.source
  case based =>
    have hbased := hbody.grows.based hr.based
    exact ⟨hbased.code, hbased.writable⟩
  case deps => exact hbody.queues.deps.trans hr.deps
  case exports => exact hbody.queues.exports.trans hr.exports
  case writable => exact hbody.grows.writable.trans hr.writable
  case effective =>
    rw [← hr.effective]
    exact effectiveRelaDyn_congr hbody.grows.source hbody.queues.relaOverrides
  case entries => exact hr.entries
  case slotCount => exact hr.slotCount
  case slots =>
    intro i chain hchain
    obtain ⟨a, ha, hexpand, hlt⟩ := hr.slots i chain hchain
    exact ⟨a, ha, hexpand, Nat.lt_of_lt_of_le hlt hgrows⟩
  case pending =>
    show st₁.pendingAppendedInitSlots ++ [p.address] = o.appended ++ [p.address]
    rw [hbody.queues.slots, hr.pending]
  case appended =>
    intro b hb
    obtain hb | hb := List.mem_append.mp hb
    · obtain ⟨hruns, hlt⟩ := hr.appended b hb
      exact ⟨hruns, Nat.lt_of_lt_of_le hlt hgrows⟩
    · rw [List.mem_singleton] at hb
      subst hb
      refine ⟨expand_of_fresh ?_, hinside⟩
      intro w hw
      have hwlt := (hr.wrappers w hw).1
      omega
  case unopened =>
    intro hnone
    obtain ⟨a, ha, _⟩ := hbody.placed
    have hnone' : st₁.appended = none := hnone
    rw [ha] at hnone'
    cases hnone'
  case wrappers =>
    intro w hw
    obtain ⟨hwlt, bytes, hbytes, hin⟩ := hr.wrappers w hw
    exact ⟨Nat.lt_of_lt_of_le hwlt hgrows, bytes, hbytes, hbody.grows.inCode hin⟩

/-- A successful call does to the state what it does to the order. -/
theorem refines_call {src : Source} {entries : List Rela} {ctors : List Nat}
    {st st' : BinaryState} {ws : List Wrapper} {o : InitOrder Nat} {es : List Rela}
    (hr : Refines src entries ctors st ws o es) (harray : InitArray src entries ctors)
    {name : String} {body : Body} {position : InitialiserPosition} {p : Placed}
    (h : st.addInitialiser name body position = (st', some p)) :
    (position ≠ .append → ctors ≠ [])
      ∧ ∃ es', Refines src entries ctors st'
        ((installed st st' position p.address).wrapper.toList ++ ws)
        (o.install (position, p.address)) es' := by
  unfold BinaryState.addInitialiser at h
  have hhijack : st.addInitialiserHijack name body position = (st', some p) →
      (position ≠ .append → ctors ≠ []) ∧ ∃ es', Refines src entries ctors st'
        ((installed st st' position p.address).wrapper.toList ++ ws)
        (o.install (position, p.address)) es' := by
    intro h
    obtain ⟨hctors, w, es', hw, hr'⟩ := refines_hijack hr harray h
    rw [hw]
    exact ⟨fun _ => hctors, es', hr'⟩
  cases position with
  | first => exact hhijack h
  | last => exact hhijack h
  | append =>
    obtain ⟨hnone, hr'⟩ := refines_append hr h
    rw [hnone]
    exact ⟨fun hne => absurd rfl hne, es, hr'⟩

theorem wrappers_cons (l : Installed) (log : List Installed) :
    wrappers (l :: log) = wrappers log ++ l.wrapper.toList := by
  unfold wrappers
  cases hw : l.wrapper with
  | none => simp [hw]
  | some w => simp [hw]

/-- **A run of calls refines the order of its bodies.** -/
theorem refines_run {src : Source} {entries : List Rela} {ctors : List Nat}
    (harray : InitArray src entries ctors) {st st' : BinaryState} {ws : List Wrapper}
    {o : InitOrder Nat} {es : List Rela} (hr : Refines src entries ctors st ws o es)
    {calls : List InitCall} {log : List Installed}
    (h : st.initialise calls = some (st', log)) :
    (∀ b ∈ bodies log, b.1 ≠ .append → ctors ≠ [])
      ∧ (bodies log).map Prod.fst = calls.map InitCall.position
      ∧ ∃ es', Refines src entries ctors st' (wrappers log ++ ws) (o.installAll (bodies log))
        es' := by
  induction calls generalizing st ws o es log with
  | nil =>
    cases h
    exact ⟨by simp [bodies], rfl, es, hr⟩
  | cons c calls ih =>
    unfold BinaryState.initialise at h
    split at h
    · cases h
    next st₁ placed hcall =>
    rw [Option.map_eq_some_iff] at h
    obtain ⟨⟨st₂, log'⟩, hrest, hdone⟩ := h
    cases hdone
    obtain ⟨hctors, es₁, hr₁⟩ := refines_call hr harray hcall
    obtain ⟨hbodies, hpositions, es₂, hr₂⟩ := ih hr₁ hrest
    refine ⟨?_, ?_, es₂, ?_⟩
    · intro b hb
      obtain rfl | hb := List.mem_cons.mp hb
      · exact hctors
      · exact hbodies b hb
    · show c.position :: (bodies log').map Prod.fst = _
      rw [hpositions]
      rfl
    · rw [wrappers_cons, List.append_assoc]
      exact hr₂

/-! ## §7. Bodies are placed apart. -/

/-- A body lies past the code there was. -/
theorem addInitialiser_fresh {st st' : BinaryState} {name : String} {body : Body}
    {position : InitialiserPosition} {p : Placed}
    (h : st.addInitialiser name body position = (st', some p)) :
    codeEnd st ≤ p.address ∧ p.address < codeEnd st' := by
  have hhijack : st.addInitialiserHijack name body position = (st', some p) →
      codeEnd st ≤ p.address ∧ p.address < codeEnd st' := by
    intro h
    obtain ⟨_, _, _, st₁, st₂, w, _, _, _, hbody, hwrapper, rfl⟩ := addInitialiserHijack_inv h
    refine ⟨hbody.fresh, ?_⟩
    show p.address < codeEnd st₂
    exact Nat.lt_of_lt_of_le hbody.inside hwrapper.grows.codeEnd_le
  unfold BinaryState.addInitialiser at h
  cases position with
  | first => exact hhijack h
  | last => exact hhijack h
  | append =>
    obtain ⟨st₁, hbody, rfl⟩ := addInitialiserAppend_inv h
    exact ⟨hbody.fresh, hbody.inside⟩

theorem bodies_nodup {st st' : BinaryState} {calls : List InitCall} {log : List Installed}
    (h : st.initialise calls = some (st', log)) :
    (∀ b ∈ bodies log, codeEnd st ≤ b.2) ∧ ((bodies log).map Prod.snd).Nodup := by
  induction calls generalizing st log with
  | nil =>
    cases h
    exact ⟨by simp [bodies], List.nodup_nil⟩
  | cons c calls ih =>
    unfold BinaryState.initialise at h
    split at h
    · cases h
    next st₁ placed hcall =>
    rw [Option.map_eq_some_iff] at h
    obtain ⟨⟨st₂, log'⟩, hrest, hdone⟩ := h
    cases hdone
    obtain ⟨hfresh, hinside⟩ := addInitialiser_fresh hcall
    obtain ⟨hlater, hnodup⟩ := ih hrest
    constructor
    · intro b hb
      obtain rfl | hb := List.mem_cons.mp hb
      · exact hfresh
      · have hle := hlater b hb
        omega
    · show (placed.address :: (bodies log').map Prod.snd).Nodup
      refine List.nodup_cons.mpr ⟨?_, hnodup⟩
      intro hmem
      obtain ⟨b, hb, heq⟩ := List.mem_map.mp hmem
      have hle := hlater b hb
      omega

end Armv8Encode.Elf

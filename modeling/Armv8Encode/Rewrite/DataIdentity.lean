/-
  Armv8Encode.Rewrite.DataIdentity — rewriting a data section without edits.

  An item that lift cut out of a section is aligned where it stands, so emit
  inserts no padding and every item lands at its own offset.  What is lost are
  relocations: a slot without a symbol leaves none.  And a slot that overruns
  the section makes the section longer.
-/
import Armv8Encode.Rewrite.Data
import Mathlib.Algebra.Order.Group.Nat
import Mathlib.Data.List.Perm.Basic

namespace Armv8Encode

/-! ## §1. No padding. -/

theorem trailingZeros_dvd (fuel n : Nat) : 2 ^ trailingZeros fuel n ∣ n := by
  induction fuel generalizing n with
  | zero => exact one_dvd n
  | succ fuel ih =>
    unfold trailingZeros
    split
    · exact one_dvd n
    · next heven =>
      have htwo : n = n / 2 * 2 := by omega
      rw [pow_succ]
      conv_rhs => rw [htwo]
      exact Nat.mul_dvd_mul_right (ih (n / 2)) 2

/-- An alignment a section header may ask for. -/
def IsAlignment (align : Nat) : Prop := align = 0 ∨ ∃ k, align = 2 ^ k

/-- The alignment of an item divides its offset. -/
theorem alignForOffset_dvd {offset align : Nat} (h : IsAlignment align) :
    alignForOffset offset align ∣ offset := by
  unfold alignForOffset
  split
  · next hzero =>
    rw [hzero]
    exact dvd_zero _
  · split
    · exact one_dvd _
    · next hone =>
      rcases h with rfl | ⟨k, rfl⟩
      · omega
      · rw [Nat.max_eq_left (by omega)]
        have hfactor := trailingZeros_dvd 64 offset
        rcases Nat.le_total (2 ^ trailingZeros 64 offset) (2 ^ k) with hle | hle
        · rw [Nat.min_eq_left hle]
          exact hfactor
        · rw [Nat.min_eq_right hle]
          have hexp : k ≤ trailingZeros 64 offset := (Nat.pow_le_pow_iff_right (by omega)).mp hle
          exact (pow_dvd_pow 2 hexp).trans hfactor

/-- A lifted item that starts at its own offset needs no padding. -/
theorem padding_lifted {offset align : Nat} (h : IsAlignment align) :
    (if 1 < alignForOffset offset align then alignPadding offset (alignForOffset offset align)
      else 0) = 0 := by
  split
  · unfold alignPadding
    rw [Nat.mod_eq_zero_of_dvd (alignForOffset_dvd h)]
    simp
  · rfl

/-! ## §2. What emit writes. -/

/-- The bytes of a section from `cursor` on, its slots overwritten with zeros. -/
def zeroedFrom (bytes : List Byte) (cursor : Nat) : List LiftedReloc → List Byte
  | [] => bytes.drop cursor
  | r :: rest =>
    (bytes.take r.offset).drop cursor ++ List.replicate r.width 0
      ++ zeroedFrom bytes (r.offset + r.width) rest

/-- The relocation a slot leaves, if it has a symbol. -/
def slotRelocation (r : LiftedReloc) : Option EmittedRelocation :=
  match r.target with
  | .symbol symbol => some ⟨BitVec.ofNat 64 r.offset, relocationKindForPointerWidth r.width, symbol,
      r.addend⟩
  | _ => none

/-- Slots from `cursor` on that begin inside the section and do not overlap. -/
def SlotsFrom (size cursor : Nat) : List LiftedReloc → Prop
  | [] => True
  | r :: rest => cursor ≤ r.offset ∧ r.offset < size ∧ SlotsFrom size (r.offset + r.width) rest

variable {bytes : List Byte} {align : Nat} {label : Nat → Option SymbolId}

theorem emit_bytesItem (halign : IsAlignment align) (out : EmitOutput) (chunk : List Byte) :
    (bytesItem align label out.bytes.length chunk).foldl emitDataItem out
      = { out with bytes := out.bytes ++ chunk } := by
  unfold bytesItem
  split
  · next hempty =>
    rw [List.isEmpty_iff.mp hempty]
    simp
  · rw [List.foldl_cons, List.foldl_nil]
    unfold emitDataItem
    simp only [padding_lifted halign, List.replicate_zero, List.append_nil]

theorem emit_pointerItem (halign : IsAlignment align) {out : EmitOutput} {r : LiftedReloc}
    (hoffset : out.bytes.length = r.offset) :
    emitDataItem out (pointerItem align label r)
      = { bytes := out.bytes ++ List.replicate r.width 0
          relocations := out.relocations ++ (slotRelocation r).toList } := by
  unfold emitDataItem pointerItem slotRelocation
  simp only [hoffset, padding_lifted halign, List.replicate_zero, List.append_nil]
  cases r.target <;> simp

/-- **Lifted items are emitted where they came from.** -/
theorem emit_liftItems (halign : IsAlignment align) {rs : List LiftedReloc} {out : EmitOutput}
    (hlength : out.bytes.length ≤ bytes.length ∨ rs = [])
    (hslots : SlotsFrom bytes.length out.bytes.length rs) :
    (liftItems bytes align label out.bytes.length rs).foldl emitDataItem out
      = { bytes := out.bytes ++ zeroedFrom bytes out.bytes.length rs
          relocations := out.relocations ++ rs.filterMap slotRelocation } := by
  induction rs generalizing out with
  | nil => simp [liftItems, emit_bytesItem halign, zeroedFrom]
  | cons r rest ih =>
    obtain ⟨hcursor, hinside, hrest⟩ := hslots
    rw [liftItems, List.foldl_append, emit_bytesItem halign, List.foldl_cons]
    have hoffset : (out.bytes ++ (bytes.take r.offset).drop out.bytes.length).length = r.offset := by
      rw [List.length_append, List.length_drop, List.length_take]
      omega
    rw [emit_pointerItem halign hoffset]
    have hnext : (out.bytes ++ (bytes.take r.offset).drop out.bytes.length
        ++ List.replicate r.width 0).length = r.offset + r.width := by
      rw [List.length_append, hoffset, List.length_replicate]
    have hrun := @ih ⟨out.bytes ++ (bytes.take r.offset).drop out.bytes.length
        ++ List.replicate r.width 0, out.relocations ++ (slotRelocation r).toList⟩
    simp only [hnext] at hrun
    rw [hrun ?_ hrest]
    · rw [zeroedFrom]
      cases hslot : slotRelocation r <;> simp [hslot, List.append_assoc]
    · cases rest with
      | nil => exact .inr rfl
      | cons r' rest' =>
        left
        have := hrest.1
        have := hrest.2.1
        omega

/-- A section whose slots all end inside it keeps its length. -/
theorem length_zeroedFrom {cursor : Nat} {rs : List LiftedReloc}
    (hslots : SlotsFrom bytes.length cursor rs) (hcursor : cursor ≤ bytes.length)
    (hfits : ∀ r ∈ rs, r.offset + r.width ≤ bytes.length) :
    cursor + (zeroedFrom bytes cursor rs).length = bytes.length := by
  induction rs generalizing cursor with
  | nil =>
    rw [zeroedFrom, List.length_drop]
    omega
  | cons r rest ih =>
    obtain ⟨hbefore, hinside, hrest⟩ := hslots
    have hstep := ih hrest (hfits r List.mem_cons_self)
      fun r' hr' => hfits r' (List.mem_cons_of_mem _ hr')
    rw [zeroedFrom, List.length_append, List.length_append, List.length_drop, List.length_take,
      List.length_replicate]
    omega

/-- The output holds every slot. -/
theorem le_length_zeroedFrom {cursor : Nat} {rs : List LiftedReloc}
    (hslots : SlotsFrom bytes.length cursor rs) {r : LiftedReloc} (hr : r ∈ rs) :
    r.offset + r.width ≤ cursor + (zeroedFrom bytes cursor rs).length := by
  induction rs generalizing cursor with
  | nil => cases hr
  | cons r' rest ih =>
    obtain ⟨hbefore, hinside, hrest⟩ := hslots
    rw [zeroedFrom, List.length_append, List.length_append, List.length_drop, List.length_take,
      List.length_replicate]
    rcases List.mem_cons.mp hr with rfl | hr
    · omega
    · have hstep := ih hrest hr
      omega

/-- Outside the slots the bytes are those of the section. -/
theorem getElem?_zeroedFrom {cursor : Nat} {rs : List LiftedReloc}
    (hslots : SlotsFrom bytes.length cursor rs) {k : Nat} (hk : cursor ≤ k)
    (hout : ∀ r ∈ rs, k < r.offset ∨ r.offset + r.width ≤ k) :
    (zeroedFrom bytes cursor rs)[k - cursor]? = bytes[k]? := by
  induction rs generalizing cursor with
  | nil =>
    rw [zeroedFrom, List.getElem?_drop]
    congr 1
    omega
  | cons r rest ih =>
    obtain ⟨hcursor, hinside, hrest⟩ := hslots
    have hrun : ((bytes.take r.offset).drop cursor).length = r.offset - cursor := by
      rw [List.length_drop, List.length_take]
      omega
    rw [zeroedFrom, List.append_assoc]
    rcases hout r List.mem_cons_self with hbefore | hafter
    · rw [List.getElem?_append_left (by omega), List.getElem?_drop, List.getElem?_take_of_lt (by omega)]
      congr 1
      omega
    · rw [List.getElem?_append_right (by omega), List.getElem?_append_right (by
        rw [List.length_replicate]
        omega), List.length_replicate, hrun]
      have hstep := ih hrest hafter fun r' hr' => hout r' (List.mem_cons_of_mem _ hr')
      rw [← hstep]
      congr 1
      omega

/-! ## §3. What lift accepts. -/

/-- Slots of which no two neighbours overlap follow one another. -/
theorem slotsFrom_of_noOverlap {size cursor : Nat} {rs : List LiftedReloc}
    (hfree : firstOverlap rs = none) (hinside : ∀ r ∈ rs, r.offset < size)
    (hcursor : ∀ r, rs.head? = some r → cursor ≤ r.offset) : SlotsFrom size cursor rs := by
  induction rs generalizing cursor with
  | nil => trivial
  | cons r rest ih =>
    refine ⟨hcursor r rfl, hinside r List.mem_cons_self, ?_⟩
    have hin : ∀ r' ∈ rest, r'.offset < size := fun r' hr' =>
      hinside r' (List.mem_cons_of_mem _ hr')
    cases rest with
    | nil => trivial
    | cons r' rest' =>
      rw [firstOverlap] at hfree
      split at hfree
      · cases hfree
      · next hapart =>
        refine ih hfree hin fun r'' hr'' => ?_
        cases hr''
        omega

/-- A lift that succeeds found slots in order, all beginning in the section. -/
theorem DataSection.lift_ok {c : Container} {align : Nat} {id : SectionId} {s : Section}
    (hs : c.sectionOf id = some s) (hsize : s.bytes.length = s.size.toNat) {l : DataLift}
    (h : DataSection.lift c align id = .ok l) :
    SlotsFrom s.bytes.length 0 (handledRelocations c id) ∧
      l.plan.items = liftItems s.bytes align (dataLabel c s) 0 (handledRelocations c id) ∧
      l.unhandledRelocations = (c.relocationsFor id).filter fun r => (liftedReloc r).isNone := by
  have hid : s.id = id := Container.id_of_getElem? hs
  have hfound : c.sections.find? (fun t => t.id == id) = some s := by
    cases hfind : c.sections.find? (fun t => t.id == id) with
    | none =>
      have hmiss := List.find?_eq_none.mp hfind s (List.mem_of_getElem? hs)
      simp [hid] at hmiss
    | some t =>
      have ht : t.id = id := by simpa using List.find?_some hfind
      rw [Container.section_eq_of_id (List.mem_of_find?_eq_some hfind) (List.mem_of_getElem? hs)
        (ht.trans hid.symm)]
  unfold DataSection.lift at h
  rw [hfound] at h
  simp only at h
  split at h
  · cases h
  · next hinside =>
    split at h
    · cases h
    · next hfree =>
      cases h
      refine ⟨slotsFrom_of_noOverlap hfree ?_ fun _ _ => Nat.zero_le _, rfl, rfl⟩
      intro r hr
      have hmem : r ∈ (c.relocationsFor id).filterMap liftedReloc :=
        (List.mergeSort_perm _ _).mem_iff.mp hr
      obtain ⟨relocation, hrelocation, hlifted⟩ := List.mem_filterMap.mp hmem
      obtain ⟨width, -, rfl⟩ := Option.map_eq_some_iff.mp hlifted
      have hlt := List.find?_eq_none.mp hinside relocation hrelocation
      simp only [decide_eq_true_eq, BitVec.not_le] at hlt
      show relocation.offset.toNat < s.bytes.length
      rw [hsize]
      exact hlt

/-! ## §4. Relocations. -/

/-- What a relocation says: its offset, kind, symbol and addend. -/
def Relocation.key (r : Relocation) : U64 × RelocationKind × Option SymbolId × Int :=
  (r.offset, r.kind, r.symbol, r.addend)

/-- The relocations of a committed data section are those emitted and those
handed through. -/
theorem relocationsFor_committed {c c' : Container} {id : SectionId} {output : EmitOutput}
    {extra : List Relocation} (h : commitToDataContainer c id output extra = some c') :
    (c'.relocationsFor id).map Relocation.key
      = output.relocations.map (fun r => (r.offset, r.kind, some r.symbol, r.addend))
        ++ extra.map Relocation.key := by
  unfold commitToDataContainer at h
  split at h
  · cases h
    have hkept : (c.relocations.filter fun r => r.sectionId != id).filter
        (fun r => r.sectionId == id) = [] := by
      rw [List.filter_filter, List.filter_eq_nil_iff]
      intro r _
      simp
    have hnew : ∀ (count : Nat) (xs : List EmittedRelocation),
        ((xs.zipIdx.map fun p => intoRelocation id p.1 (count + p.2)).filter
          fun r => r.sectionId == id).map Relocation.key
            = xs.map fun r => (r.offset, r.kind, some r.symbol, r.addend) := by
      intro count xs
      rw [List.filter_eq_self.mpr fun r hr => by
        obtain ⟨p, -, rfl⟩ := List.mem_map.mp hr
        exact beq_self_eq_true id, List.map_map]
      conv_rhs => rw [← List.zipIdx_map_fst 0 xs, List.map_map]
      rfl
    have hpassed : ∀ (count : Nat) (xs : List Relocation),
        ((xs.zipIdx.map fun p => passedRelocation id p.1 (count + p.2)).filter
          fun r => r.sectionId == id).map Relocation.key = xs.map Relocation.key := by
      intro count xs
      rw [List.filter_eq_self.mpr fun r hr => by
        obtain ⟨p, -, rfl⟩ := List.mem_map.mp hr
        exact beq_self_eq_true id, List.map_map]
      conv_rhs => rw [← List.zipIdx_map_fst 0 xs, List.map_map]
      rfl
    show ((c.committedDataRelocations id output.relocations extra).filter
      fun r => r.sectionId == id).map Relocation.key = _
    unfold Container.committedDataRelocations Container.committedRelocations
    rw [List.filter_append, List.filter_append, hkept, List.nil_append, List.map_append, hnew,
      hpassed]
  · cases h

/-- Every relocation is either lifted or handed through. -/
theorem keys_perm (rs : List Relocation) :
    ((rs.filter fun r => (liftedReloc r).isSome).map Relocation.key
      ++ (rs.filter fun r => (liftedReloc r).isNone).map Relocation.key).Perm
        (rs.map Relocation.key) := by
  rw [← List.map_append]
  refine List.Perm.map _ ?_
  have hpart := List.filter_append_perm (fun r => (liftedReloc r).isSome) rs
  simpa only [Option.not_isSome] using hpart

/-- A lifted slot whose relocation has a symbol leaves that relocation. -/
theorem slotRelocation_lifted {r : Relocation} {slot : LiftedReloc}
    (h : liftedReloc r = some slot) :
    (slotRelocation slot).map (fun e => (e.offset, e.kind, some e.symbol, e.addend))
      = r.symbol.map fun _ => r.key := by
  obtain ⟨width, hwidth, rfl⟩ := Option.map_eq_some_iff.mp h
  have hkind : r.kind = .absolute := by
    cases hk : r.kind <;> rw [hk] at hwidth <;> first | rfl | cases hwidth
  cases hsymbol : r.symbol with
  | none => simp [slotRelocation]
  | some symbol =>
    simp [slotRelocation, hsymbol, relocationKindForPointerWidth, Relocation.key, hkind]

/-- The relocations that emit makes of the slots, by what they say. -/
theorem emittedKeys_perm (c : Container) (id : SectionId) :
    (((handledRelocations c id).filterMap slotRelocation).map
        fun e => (e.offset, e.kind, some e.symbol, e.addend)).Perm
      (((c.relocationsFor id).filter fun r => (liftedReloc r).isSome && r.symbol.isSome).map
        Relocation.key) := by
  have hsorted : (handledRelocations c id).Perm ((c.relocationsFor id).filterMap liftedReloc) :=
    List.mergeSort_perm _ _
  refine ((hsorted.filterMap slotRelocation).map _).trans (List.Perm.of_eq ?_)
  induction c.relocationsFor id with
  | nil => rfl
  | cons r rest ih =>
    cases hlifted : liftedReloc r with
    | none => simp [hlifted, ih]
    | some slot =>
      have hslot := slotRelocation_lifted hlifted
      cases hsymbol : r.symbol with
      | none =>
        rw [hsymbol] at hslot
        have hnone : slotRelocation slot = none := by simpa using hslot
        simp [hlifted, hnone, hsymbol, ih]
      | some symbol =>
        rw [hsymbol] at hslot
        obtain ⟨e, he, hkey⟩ := Option.map_eq_some_iff.mp hslot
        simp [hlifted, he, hsymbol, ih, hkey]

/-- The emitted relocations and those handed through are all there were exactly
when every slot has a symbol. -/
theorem relocations_kept_iff {c : Container} {id : SectionId} :
    (((handledRelocations c id).filterMap slotRelocation).map
          (fun e => (e.offset, e.kind, some e.symbol, e.addend))
        ++ ((c.relocationsFor id).filter fun r => (liftedReloc r).isNone).map
          Relocation.key).Perm ((c.relocationsFor id).map Relocation.key) ↔
      ∀ r ∈ c.relocationsFor id, (liftedReloc r).isSome → r.symbol.isSome := by
  have hemitted := emittedKeys_perm c id
  have hall := keys_perm (c.relocationsFor id)
  constructor
  · intro hkept r hr hlifted
    -- as many slots have a symbol as there are slots
    have hlength := (hkept.trans hall.symm).length_eq
    simp only [List.length_append, hemitted.length_eq, List.length_map] at hlength
    have hfilter : (c.relocationsFor id).filter (fun r => (liftedReloc r).isSome && r.symbol.isSome)
        = ((c.relocationsFor id).filter fun r => (liftedReloc r).isSome).filter
            fun r => r.symbol.isSome := by
      rw [List.filter_filter]
      simp only [Bool.and_comm]
    rw [hfilter] at hlength
    have hevery := List.length_filter_eq_length_iff.mp (Nat.add_right_cancel hlength)
    exact hevery r (List.mem_filter.mpr ⟨hr, hlifted⟩)
  · intro hsymbols
    have hsame : (c.relocationsFor id).filter (fun r => (liftedReloc r).isSome && r.symbol.isSome)
        = (c.relocationsFor id).filter fun r => (liftedReloc r).isSome := by
      apply List.filter_congr
      intro r hr
      by_cases hlifted : (liftedReloc r).isSome = true
      · simp [hlifted, hsymbols r hr hlifted]
      · simp [hlifted]
    rw [hsame] at hemitted
    exact (hemitted.append_right _).trans hall

/-! ## §5. The identity. -/

/-- A container holds the section as it was: as long, with the same bytes
outside the pointer slots and the same relocations in some order. -/
structure DataSectionKept (c c' : Container) (id : SectionId) (s s' : Section) : Prop where
  found : c'.sectionOf id = some s'
  length : s'.bytes.length = s.bytes.length
  outside : ∀ k, k < s.bytes.length →
    (∀ r ∈ c.relocationsFor id, r.kind = .absolute → k < r.offset.toNat ∨ r.offset.toNat + 8 ≤ k) →
      s'.bytes[k]? = s.bytes[k]?
  relocations : ((c'.relocationsFor id).map Relocation.key).Perm
    ((c.relocationsFor id).map Relocation.key)

theorem liftedReloc_isSome {r : Relocation} : (liftedReloc r).isSome ↔ r.kind = .absolute := by
  unfold liftedReloc dataRelocationWidth
  cases r.kind <;> simp

/-- The slots of a section are those of its absolute relocations. -/
theorem forall_handled {c : Container} {id : SectionId} {p : Nat → Nat → Prop} :
    (∀ slot ∈ handledRelocations c id, p slot.offset slot.width) ↔
      ∀ r ∈ c.relocationsFor id, r.kind = .absolute → p r.offset.toNat 8 := by
  have hmem : ∀ slot, slot ∈ handledRelocations c id ↔
      ∃ r ∈ c.relocationsFor id, liftedReloc r = some slot := by
    intro slot
    rw [handledRelocations, (List.mergeSort_perm _ _).mem_iff, List.mem_filterMap]
  constructor
  · intro h r hr habsolute
    have hlifted : liftedReloc r = some ⟨r.offset.toNat, 8,
        (r.symbol.map Target.symbol).getD (.absolute 0), r.addend⟩ := by
      rw [liftedReloc, habsolute]
      rfl
    exact h _ ((hmem _).mpr ⟨r, hr, hlifted⟩)
  · intro h slot hslot
    obtain ⟨r, hr, hlifted⟩ := (hmem slot).mp hslot
    have habsolute : r.kind = .absolute := liftedReloc_isSome.mp (by rw [hlifted]; rfl)
    rw [liftedReloc, habsolute] at hlifted
    cases hlifted
    exact h r hr habsolute

/-- **A data section rewritten without edits** comes back as it was exactly
when every absolute relocation of it has a symbol and a slot that ends inside
the section. -/
theorem dataRewrite_kept_iff (c : Container) (id : SectionId) (align : Nat)
    (halign : IsAlignment align) (s : Section) (hs : c.sectionOf id = some s)
    (hsize : s.bytes.length = s.size.toNat) (l : DataLift)
    (hlift : DataSection.lift c align id = .ok l) :
    ∃ c' s', commitToDataContainer c id (emitDataSection l.plan) l.unhandledRelocations = some c' ∧
      c'.sectionOf id = some s' ∧
      (DataSectionKept c c' id s s' ↔
        ∀ r ∈ c.relocationsFor id, r.kind = .absolute →
          r.symbol.isSome ∧ r.offset.toNat + 8 ≤ s.bytes.length) := by
  obtain ⟨hslots, hitems, hunhandled⟩ := DataSection.lift_ok hs hsize hlift
  have hemit : emitDataSection l.plan
      = ⟨zeroedFrom s.bytes 0 (handledRelocations c id),
          (handledRelocations c id).filterMap slotRelocation⟩ := by
    rw [emitDataSection, hitems]
    exact emit_liftItems halign (.inl (Nat.zero_le _)) hslots
  have hid : id.index < c.sections.length := (List.getElem?_eq_some_iff.mp hs).1
  obtain ⟨c', hcommit⟩ : ∃ c',
      commitToDataContainer c id (emitDataSection l.plan) l.unhandledRelocations = some c' := by
    rw [commitToDataContainer, dif_pos hid]
    exact ⟨_, rfl⟩
  have hsection : c'.sectionOf id
      = some (s.withBytes (zeroedFrom s.bytes 0 (handledRelocations c id))) := by
    rw [commitToDataContainer, dif_pos hid] at hcommit
    cases hcommit
    show (c.sections.modify id.index _)[id.index]? = _
    rw [List.getElem?_modify_eq, show c.sections[id.index]? = some s from hs, hemit]
    rfl
  have hkeys : (c'.relocationsFor id).map Relocation.key = _ := relocationsFor_committed hcommit
  rw [hemit, hunhandled] at hkeys
  refine ⟨c', _, hcommit, hsection, ?_⟩
  constructor
  · intro hkept
    have hsymbols := relocations_kept_iff.mp (hkeys ▸ hkept.relocations)
    have hends : ∀ r ∈ c.relocationsFor id, r.kind = .absolute →
        r.offset.toNat + 8 ≤ s.bytes.length := by
      apply (forall_handled (p := fun offset width => offset + width ≤ s.bytes.length)).mp
      intro slot hslot
      have hholds := le_length_zeroedFrom hslots hslot
      have hlength : (zeroedFrom s.bytes 0 (handledRelocations c id)).length = s.bytes.length :=
        hkept.length
      omega
    intro r hr habsolute
    exact ⟨hsymbols r hr (liftedReloc_isSome.mpr habsolute), hends r hr habsolute⟩
  · intro hcondition
    have hends : ∀ slot ∈ handledRelocations c id, slot.offset + slot.width ≤ s.bytes.length :=
      (forall_handled (p := fun offset width => offset + width ≤ s.bytes.length)).mpr
        fun r hr habsolute => (hcondition r hr habsolute).2
    refine ⟨hsection, ?_, ?_, ?_⟩
    · have hlength := length_zeroedFrom hslots (Nat.zero_le _) hends
      rw [Nat.zero_add] at hlength
      exact hlength
    · intro k _ hout
      have houtside : ∀ slot ∈ handledRelocations c id,
          k < slot.offset ∨ slot.offset + slot.width ≤ k :=
        (forall_handled (p := fun offset width => k < offset ∨ offset + width ≤ k)).mpr hout
      exact getElem?_zeroedFrom hslots (Nat.zero_le k) houtside
    · rw [hkeys]
      exact relocations_kept_iff.mpr fun r hr hlifted =>
        (hcondition r hr (liftedReloc_isSome.mp hlifted)).1

/-! ## §6. A pointer without a symbol. -/

/-- Eight bytes of data. -/
def pointerData : Section := ⟨⟨0⟩, 0, 8, [1, 2, 3, 4, 5, 6, 7, 8], .data⟩

/-- An object whose only section is that data, under one absolute relocation. -/
def pointerObject (symbol : Option SymbolId) : Container where
  format := .elf
  architecture := .aarch64
  kind := .relocatable
  sections := [pointerData]
  symbols := [⟨⟨0⟩, "target", 0, .function, none, true⟩]
  relocations := [⟨⟨0⟩, ⟨0⟩, 0, .absolute, 64, 16, symbol⟩]
  elfImage := none
  machoImage := none
  sectionIds := rfl
  symbolIds := rfl
  relocationSections := by simp

/-- The object lifted: one pointer slot. -/
def liftedPointer (symbol : Option SymbolId) : DataLift where
  plan := ⟨some ⟨0⟩,
    [⟨none, 8, .pointer ((symbol.map Target.symbol).getD (.absolute 0)) 16 8⟩]⟩
  unhandledRelocations := []

theorem lift_pointerObject (symbol : Option SymbolId) :
    DataSection.lift (pointerObject symbol) 8 ⟨0⟩ = .ok (liftedPointer symbol) := by
  have hslots : handledRelocations (pointerObject symbol) ⟨0⟩
      = [⟨0, 8, (symbol.map Target.symbol).getD (.absolute 0), 16⟩] :=
    List.mergeSort_singleton _
  rw [DataSection.lift]
  simp only [hslots]
  rfl

/-- A pointer to a symbol comes back. -/
theorem pointerToSymbol_kept :
    ∃ c' s', commitToDataContainer (pointerObject (some ⟨0⟩)) ⟨0⟩
        (emitDataSection (liftedPointer (some ⟨0⟩)).plan)
        (liftedPointer (some ⟨0⟩)).unhandledRelocations = some c' ∧
      DataSectionKept (pointerObject (some ⟨0⟩)) c' ⟨0⟩ pointerData s' := by
  obtain ⟨c', s', hcommit, -, hiff⟩ := dataRewrite_kept_iff (pointerObject (some ⟨0⟩)) ⟨0⟩ 8
    (.inr ⟨3, rfl⟩) pointerData rfl rfl _ (lift_pointerObject (some ⟨0⟩))
  refine ⟨c', s', hcommit, hiff.mpr fun r hr _ => ?_⟩
  rw [List.mem_singleton.mp hr]
  exact ⟨rfl, by decide⟩

/-- A pointer to the section's own bytes loses its relocation. -/
theorem sectionPointer_lost :
    DataSection.lift (pointerObject none) 8 ⟨0⟩ = .ok (liftedPointer none) ∧
      ∃ c', commitToDataContainer (pointerObject none) ⟨0⟩ (emitDataSection (liftedPointer none).plan)
          (liftedPointer none).unhandledRelocations = some c' ∧
        c'.relocationsFor ⟨0⟩ = [] ∧ (pointerObject none).relocationsFor ⟨0⟩ ≠ [] ∧
        ∀ s', ¬ DataSectionKept (pointerObject none) c' ⟨0⟩ pointerData s' := by
  refine ⟨lift_pointerObject none, _, rfl, rfl, by decide, fun s' hkept => ?_⟩
  have hlength := hkept.relocations.length_eq
  revert hlength
  decide

end Armv8Encode

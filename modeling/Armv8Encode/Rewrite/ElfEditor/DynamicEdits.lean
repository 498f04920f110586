/-
  Armv8Encode.Rewrite.ElfEditor.DynamicEdits — three ways to edit `.dynamic`.

  A loader reads the entries of `.dynamic` before the first terminator.  The
  three editors keep different sizes: one overwrites spare terminators in
  place, one lets the list grow, one drops entries and pads with terminators.
  On what the loader reads they agree: additions come after the entries there
  were, and removal filters them.
-/
import Armv8Encode.Rewrite.ElfEditor.Commit
import Mathlib.Data.List.TakeWhile

namespace Armv8Encode.Elf

/-! ## §1. The editors. -/

/-- Put the additions over spare terminators, before the first one.  `none`
if no terminator would remain. -/
def insertDynamicTags (source : List DynamicEntry) (additions : List (Nat × Nat)) :
    Option (List DynamicEntry) :=
  (source.findIdx? fun e => e.tag == dtNull).bind fun firstNull =>
    let trailingNulls := source.length - firstNull
    if trailingNulls < additions.length + 1 then none
    else
      let out := source.take firstNull ++ additions.map (fun a => ⟨a.1, a.2⟩)
      let remainingSlots := source.length - out.length
      some (out ++ List.replicate remainingSlots ⟨dtNull, 0⟩)

/-- Drop the entries of a tag whose value satisfies the predicate and pad with
terminators to the old length; also the number of entries dropped. -/
def removeDynamicEntries (source : List DynamicEntry) (tag : Nat) (predicate : Nat → Bool) :
    List DynamicEntry × Nat :=
  let out := source.filter fun e => !(e.tag == tag && predicate e.value)
  (out ++ List.replicate (source.length - out.length) ⟨dtNull, 0⟩,
    source.countP fun e => e.tag == tag && predicate e.value)

/-! ## §2. What a loader reads. -/

/-- The entries a loader looks at: those before the terminator. -/
def liveEntries (entries : List DynamicEntry) : List DynamicEntry :=
  entries.takeWhile fun e => e.tag != dtNull

/-- Terminators at the end change nothing for a loader. -/
theorem liveEntries_append_padding (entries : List DynamicEntry) {nulls : List DynamicEntry}
    (hnulls : ∀ e ∈ nulls, e.tag = dtNull) :
    liveEntries (entries ++ nulls) = liveEntries entries := by
  unfold liveEntries
  induction entries with
  | nil =>
    cases nulls with
    | nil => rfl
    | cons e nulls => simp [hnulls e List.mem_cons_self]
  | cons e entries ih =>
    by_cases hnull : e.tag = dtNull
    · simp [hnull]
    · simpa [hnull] using ih

theorem liveEntries_of_live {entries : List DynamicEntry}
    (hlive : ∀ e ∈ entries, e.tag ≠ dtNull) : liveEntries entries = entries :=
  List.takeWhile_eq_self_iff.mpr fun e he => by simpa using hlive e he

theorem liveEntries_append_nulls {entries nulls : List DynamicEntry}
    (hlive : ∀ e ∈ entries, e.tag ≠ dtNull) (hnulls : ∀ e ∈ nulls, e.tag = dtNull) :
    liveEntries (entries ++ nulls) = entries := by
  rw [liveEntries_append_padding entries hnulls, liveEntries_of_live hlive]

theorem mem_liveEntries {entries : List DynamicEntry} {e : DynamicEntry}
    (h : e ∈ liveEntries entries) : e.tag ≠ dtNull := by
  have hpred := List.mem_takeWhile_imp h
  simpa using hpred

/-- Dropping entries that are no terminators drops them from the view. -/
theorem liveEntries_filter (entries : List DynamicEntry) {keep : DynamicEntry → Bool}
    (hkeep : ∀ e, e.tag = dtNull → keep e = true) :
    liveEntries (entries.filter keep) = (liveEntries entries).filter keep := by
  unfold liveEntries
  induction entries with
  | nil => rfl
  | cons e entries ih =>
    by_cases hnull : e.tag = dtNull
    · simp [hnull, hkeep e hnull]
    · by_cases hkept : keep e = true
      · simpa [hnull, hkept] using ih
      · simpa [hnull, hkept] using ih

/-! ## §3. The editors under the loader's view. -/

section Additions

variable {source : List DynamicEntry} {additions : List (Nat × Nat)}

/-- Entries and additions before the terminators are live. -/
theorem live_additions (hadditions : ∀ a ∈ additions, a.1 ≠ dtNull) :
    ∀ e ∈ liveEntries source ++ additions.map (fun a => (⟨a.1, a.2⟩ : DynamicEntry)),
      e.tag ≠ dtNull := by
  intro e he
  by_cases hsource : e ∈ liveEntries source
  · exact mem_liveEntries hsource
  · have ⟨a, ha, heq⟩ := List.mem_map.mp ((List.mem_append.mp he).resolve_left hsource)
    rw [← heq]
    exact hadditions a ha

/-- The entries before the first terminator are the live ones. -/
theorem take_firstNull {firstNull : Nat}
    (h : source.findIdx? (fun e => e.tag == dtNull) = some firstNull) :
    source.take firstNull = liveEntries source ∧ firstNull < source.length := by
  have ⟨hlt, hidx⟩ := List.findIdx?_eq_some_iff_findIdx_eq.mp h
  refine ⟨?_, hlt⟩
  have hnot : (fun e : DynamicEntry => !(e.tag != dtNull)) = fun e => e.tag == dtNull := by
    funext e
    simp [bne]
  unfold liveEntries
  rw [List.takeWhile_eq_take_findIdx_not, hnot, hidx]

theorem insertDynamicTags_isSome_iff :
    (∃ r, insertDynamicTags source additions = some r) ↔
      ∃ p e, source[p]? = some e ∧ e.tag = dtNull ∧ additions.length + 1 ≤ source.length - p := by
  unfold insertDynamicTags
  cases hfirst : source.findIdx? (fun e => e.tag == dtNull) with
  | none =>
    have hnone := List.findIdx?_eq_none_iff.mp hfirst
    simp only [Option.bind_none, reduceCtorEq, exists_false, false_iff]
    intro ⟨p, e, hget, htag, _⟩
    have hno := hnone e (List.mem_of_getElem? hget)
    simp [htag] at hno
  | some firstNull =>
    have ⟨hlt, htagged, hbefore⟩ := List.findIdx?_eq_some_iff_getElem.mp hfirst
    simp only [Option.bind_some]
    by_cases hroom : source.length - firstNull < additions.length + 1
    · rw [if_pos hroom]
      simp only [reduceCtorEq, exists_false, false_iff]
      intro ⟨p, e, hget, htag, hle⟩
      have ⟨hp, hpe⟩ := List.getElem?_eq_some_iff.mp hget
      -- a terminator with more room behind it would come before the first one
      have hearlier := hbefore p (by omega)
      rw [hpe] at hearlier
      simp [htag] at hearlier
    · rw [if_neg hroom]
      refine ⟨fun _ => ⟨firstNull, source[firstNull], List.getElem?_eq_getElem hlt,
        by simpa using htagged, by omega⟩, fun _ => ⟨_, rfl⟩⟩

theorem insertDynamicTags_some (hadditions : ∀ a ∈ additions, a.1 ≠ dtNull)
    {r : List DynamicEntry} (h : insertDynamicTags source additions = some r) :
    r.length = source.length ∧
      liveEntries r = liveEntries source ++ additions.map (fun a => ⟨a.1, a.2⟩) ∧
      r.getLast? = some ⟨dtNull, 0⟩ := by
  have ⟨firstNull, hfirst, hbody⟩ := Option.bind_eq_some_iff.mp h
  have ⟨htake, hlt⟩ := take_firstNull hfirst
  by_cases hroom : source.length - firstNull < additions.length + 1
  · simp [hroom] at hbody
  · have hlength : (source.take firstNull).length = firstNull :=
      List.length_take_of_le (Nat.le_of_lt hlt)
    simp only [hroom, if_false, Option.some.injEq, List.length_append, List.length_map,
      hlength] at hbody
    -- at least one of the overwritten slots keeps its terminator
    have hslots : source.length - (firstNull + additions.length)
        = (source.length - (firstNull + additions.length) - 1) + 1 := by omega
    subst hbody
    refine ⟨?_, ?_, ?_⟩
    · simp only [List.length_append, hlength, List.length_map, List.length_replicate]
      omega
    · rw [htake, liveEntries_append_nulls (live_additions hadditions)]
      intro e he
      rw [List.eq_of_mem_replicate he]
    · rw [hslots, List.replicate_succ', ← List.append_assoc, List.getLast?_concat]

theorem insertDynamicTagsGrowing_view (hadditions : ∀ a ∈ additions, a.1 ≠ dtNull) :
    liveEntries (insertDynamicTagsGrowing source additions)
        = liveEntries source ++ additions.map (fun a => ⟨a.1, a.2⟩) ∧
      (insertDynamicTagsGrowing source additions).countP (fun e => e.tag == dtNull) = 1 := by
  have hlive : ∀ e ∈ liveEntries source ++ additions.map (fun a => (⟨a.1, a.2⟩ : DynamicEntry)),
      e.tag ≠ dtNull :=
    live_additions hadditions
  have hshape : insertDynamicTagsGrowing source additions
      = (liveEntries source ++ additions.map (fun a => ⟨a.1, a.2⟩)) ++ [⟨dtNull, 0⟩] := rfl
  rw [hshape]
  refine ⟨liveEntries_append_nulls hlive (by simp), ?_⟩
  have hzero : (liveEntries source ++ additions.map (fun a => (⟨a.1, a.2⟩ : DynamicEntry))).countP
      (fun e => e.tag == dtNull) = 0 := by
    rw [List.countP_eq_zero]
    intro e he
    simpa using hlive e he
  rw [List.countP_append, hzero]
  rfl

end Additions

theorem removeDynamicEntries_view {source : List DynamicEntry} {tag : Nat}
    {predicate : Nat → Bool} (htag : tag ≠ dtNull) :
    (removeDynamicEntries source tag predicate).1.length = source.length ∧
      liveEntries (removeDynamicEntries source tag predicate).1
        = (liveEntries source).filter (fun e => !(e.tag == tag && predicate e.value)) := by
  unfold removeDynamicEntries
  refine ⟨?_, ?_⟩
  · have hle := List.length_filter_le (fun e => !(e.tag == tag && predicate e.value)) source
    simp only [List.length_append, List.length_replicate]
    omega
  · rw [liveEntries_append_padding, liveEntries_filter]
    · intro e hnull
      simp [hnull, htag.symm]
    · intro e he
      rw [List.eq_of_mem_replicate he]

/-- The three editors agree on what the loader reads. -/
structure EditsAgree (source : List DynamicEntry) (additions : List (Nat × Nat)) : Prop where
  /-- There is room when enough terminators, or what follows one, stand after it. -/
  inserts : (∃ r, insertDynamicTags source additions = some r) ↔
    ∃ p e, source[p]? = some e ∧ e.tag = dtNull ∧ additions.length + 1 ≤ source.length - p
  inserted : ∀ r, insertDynamicTags source additions = some r →
    r.length = source.length ∧
    liveEntries r = liveEntries source ++ additions.map (fun a => ⟨a.1, a.2⟩) ∧
    r.getLast? = some ⟨dtNull, 0⟩
  grown : liveEntries (insertDynamicTagsGrowing source additions)
      = liveEntries source ++ additions.map (fun a => ⟨a.1, a.2⟩) ∧
    (insertDynamicTagsGrowing source additions).countP (fun e => e.tag == dtNull) = 1
  removed : ∀ tag predicate, tag ≠ dtNull →
    (removeDynamicEntries source tag predicate).1.length = source.length ∧
    liveEntries (removeDynamicEntries source tag predicate).1
      = (liveEntries source).filter (fun e => !(e.tag == tag && predicate e.value))

theorem dynamicEdits_agree (source : List DynamicEntry) (additions : List (Nat × Nat))
    (hadditions : ∀ a ∈ additions, a.1 ≠ dtNull) : EditsAgree source additions :=
  { inserts := insertDynamicTags_isSome_iff
    inserted := fun _ h => insertDynamicTags_some hadditions h
    grown := insertDynamicTagsGrowing_view hadditions
    removed := fun _ _ htag => removeDynamicEntries_view htag }

/-- A name, two spare terminators, one addition. -/
theorem dynamicEdits_agree_needed :
    EditsAgree [⟨dtNeeded, 11⟩, ⟨dtNull, 0⟩, ⟨dtNull, 0⟩] [(dtNeeded, 22)] :=
  dynamicEdits_agree _ _ (by decide)

end Armv8Encode.Elf

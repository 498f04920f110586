/-
  Armv8Encode.Lib.Patterns — words told apart by fixed bits.

  A pattern is a set of bit positions with the values they have.  Rules are
  patterns with a meaning each, and the first rule that holds of a word gives
  its meaning.  Some bits of a word are often known already; they exclude the
  rules they clash with and imply others.

  Main results:
    * `firstMatch_of_known`: the first rule that does not clash is the one, if
      the known bits imply it (`decided`).
    * `mem_of_firstMatch`: the meaning comes from a rule that does not clash.
-/
import Armv8Encode.Lib.Words

namespace Armv8Encode.Lib

variable {n : Nat} {κ : Type}

/-! ## §1. Known bits of a word. -/

/-- Bits inside the known ones. -/
theorem and_of_known {w known value mask : BitVec n} (hw : w &&& known = value)
    (hmask : mask &&& known = mask) : w &&& mask = value &&& mask := by
  rw [← hw, ← hmask]
  ext i hi
  simp only [BitVec.getElem_and]
  cases w[i] <;> cases known[i] <;> cases mask[i] <;> rfl

/-- Known bits rule a value out. -/
theorem and_ne_of_known {w known value mask other : BitVec n} (hw : w &&& known = value)
    (hclash : (value ^^^ other) &&& (known &&& mask) ≠ 0#n) : w &&& mask ≠ other := by
  rintro rfl
  subst hw
  apply hclash
  ext i hi
  simp only [BitVec.getElem_and, BitVec.getElem_xor, BitVec.getElem_zero]
  cases w[i] <;> cases known[i] <;> cases mask[i] <;> rfl

/-- A value that a word takes agrees with the known bits. -/
theorem agree_of_known {w known value mask other : BitVec n} (hw : w &&& known = value)
    (h : w &&& mask = other) : (other ^^^ value) &&& mask &&& known = 0#n := by
  subst hw h
  ext i hi
  simp only [BitVec.getElem_and, BitVec.getElem_xor, BitVec.getElem_zero]
  cases w[i] <;> cases mask[i] <;> cases known[i] <;> rfl

/-- The first of the possible entries is the first that holds, if it holds. -/
theorem find?_of_possible {α : Type} {entries : List α} {holds possible : α → Bool} {x : α}
    (hpossible : ∀ a, holds a = true → possible a = true)
    (hfirst : entries.find? possible = some x) (hx : holds x = true) :
    entries.find? holds = some x := by
  obtain ⟨-, before, after, rfl, hbefore⟩ := List.find?_eq_some_iff_append.mp hfirst
  refine List.find?_eq_some_iff_append.mpr ⟨hx, before, after, rfl, fun a ha => ?_⟩
  have hnot := hbefore a ha
  cases h : holds a with
  | false => rfl
  | true =>
    rw [hpossible a h] at hnot
    cases hnot

theorem and_twoPow (w : BitVec n) (i : Nat) :
    w &&& BitVec.twoPow n i = if w.getLsbD i then BitVec.twoPow n i else 0#n := by
  rw [BitVec.and_comm, BitVec.twoPow_and]

/-- A bit is clear or set. -/
theorem and_twoPow_eq_or (w : BitVec n) (i : Nat) :
    w &&& BitVec.twoPow n i = 0#n ∨ w &&& BitVec.twoPow n i = BitVec.twoPow n i := by
  rw [and_twoPow]
  by_cases hbit : w.getLsbD i = true
  · right
    rw [if_pos hbit]
  · left
    rw [if_neg hbit]

/-! ## §2. Patterns. -/

/-- Fixed bits: those of the mask have the value's. -/
structure Pattern (n : Nat) where
  mask : BitVec n
  value : BitVec n
  deriving Repr, DecidableEq

namespace Pattern

def Holds (p : Pattern n) (w : BitVec n) : Prop := w &&& p.mask = p.value

instance (p : Pattern n) (w : BitVec n) : Decidable (p.Holds w) := inferInstanceAs (Decidable (_ = _))

/-- A bit that both fix has two values. -/
def clashes (p q : Pattern n) : Bool := (p.value ^^^ q.value) &&& (p.mask &&& q.mask) != 0#n

/-- All the bits that the second fixes are fixed so by the first. -/
def implies (p q : Pattern n) : Bool := q.mask &&& p.mask == q.mask && p.value &&& q.mask == q.value

variable {p q : Pattern n} {w : BitVec n}

theorem Holds.not_of_clash (h : p.Holds w) (hclash : p.clashes q = true) : ¬ q.Holds w :=
  and_ne_of_known h (bne_iff_ne.mp hclash)

theorem Holds.of_implies (h : p.Holds w) (himplies : p.implies q = true) : q.Holds w := by
  rw [implies, Bool.and_eq_true, beq_iff_eq, beq_iff_eq] at himplies
  show w &&& q.mask = q.value
  rw [and_of_known h himplies.1, himplies.2]

end Pattern

/-! ## §3. Rules. -/

/-- The meaning by the first rule that holds. -/
def firstMatch (rules : List (Pattern n × κ)) (w : BitVec n) : Option κ :=
  (rules.find? fun r => decide (r.1.Holds w)).map Prod.snd

/-- The rules that known bits leave open. -/
def openRules (known : Pattern n) (rules : List (Pattern n × κ)) : List (Pattern n × κ) :=
  rules.filter fun r => !known.clashes r.1

theorem mem_of_firstMatch {known : Pattern n} {rules : List (Pattern n × κ)} {w : BitVec n}
    {meaning : κ} (hw : known.Holds w) (h : firstMatch rules w = some meaning) :
    ∃ p, (p, meaning) ∈ openRules known rules ∧ p.Holds w := by
  obtain ⟨⟨p, k⟩, hfound, rfl⟩ := Option.map_eq_some_iff.mp h
  have hholds : p.Holds w := by simpa using List.find?_some hfound
  refine ⟨p, List.mem_filter.mpr ⟨List.mem_of_find?_eq_some hfound, ?_⟩, hholds⟩
  rw [Bool.not_eq_true', Bool.eq_false_iff]
  intro hclash
  exact hw.not_of_clash hclash hholds

/-- No bit known. -/
def anyPattern (n : Nat) : Pattern n := ⟨0#n, 0#n⟩

theorem anyPattern_holds (w : BitVec n) : (anyPattern n).Holds w := BitVec.and_zero

/-- The meaning that known bits decide: that of the first open rule, if they imply it. -/
def decided (known : Pattern n) (rules : List (Pattern n × κ)) : Option κ :=
  ((openRules known rules).head?.filter fun r => known.implies r.1).map Prod.snd

theorem firstMatch_of_known {known : Pattern n} {rules : List (Pattern n × κ)} {w : BitVec n}
    {meaning : κ} (hw : known.Holds w) (h : decided known rules = some meaning) :
    firstMatch rules w = some meaning := by
  induction rules with
  | nil => cases h
  | cons first rest ih =>
    unfold firstMatch
    by_cases hclash : known.clashes first.1 = true
    · have hskip : openRules known (first :: rest) = openRules known rest :=
        List.filter_cons_of_neg (by simp [hclash])
      rw [decided, hskip] at h
      rw [List.find?_cons_of_neg (by simpa using hw.not_of_clash hclash)]
      exact ih h
    · have hopen : openRules known (first :: rest) = first :: openRules known rest :=
        List.filter_cons_of_pos (by simp [hclash])
      rw [decided, hopen, List.head?_cons] at h
      obtain ⟨r, hr, rfl⟩ := Option.map_eq_some_iff.mp h
      obtain ⟨hfirst, himplies⟩ := Option.filter_eq_some_iff.mp hr
      cases hfirst
      rw [List.find?_cons_of_pos (by simpa using hw.of_implies himplies)]
      rfl

end Armv8Encode.Lib

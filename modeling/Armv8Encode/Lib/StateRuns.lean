/-
  Armv8Encode.Lib.StateRuns — runs on a state that stands after an error too.

  A procedure that edits its argument in place leaves the edits it has made
  when it stops with an error.  A triple speaks of both ends: what holds after
  a run that ends well, and what holds where a run stops.
-/
import Mathlib.Data.List.Basic

namespace Armv8Encode.Lib

universe u

variable {ε σ α β : Type u}

/-- Every run from a state with `P` ends in `Q`, or stops in `E`. -/
def Triple (P : σ → Prop) (x : EStateM ε σ α) (Q : α → σ → Prop) (E : σ → Prop) : Prop :=
  ∀ s, P s → match x s with
    | .ok a s' => Q a s'
    | .error _ s' => E s'

namespace Triple

variable {P : σ → Prop} {E : σ → Prop}

theorem pure {Q : α → σ → Prop} (a : α) (h : ∀ s, P s → Q a s) :
    Triple P (Pure.pure a : EStateM ε σ α) Q E :=
  fun s hs => h s hs

theorem throw {Q : α → σ → Prop} (e : ε) (h : ∀ s, P s → E s) :
    Triple P (MonadExcept.throw e : EStateM ε σ α) Q E :=
  fun s hs => h s hs

theorem bind {x : EStateM ε σ α} {f : α → EStateM ε σ β} {R : α → σ → Prop} {Q : β → σ → Prop}
    (hx : Triple P x R E) (hf : ∀ a, Triple (R a) (f a) Q E) : Triple P (x >>= f) Q E := by
  intro s hs
  have hrun := hx s hs
  show match EStateM.bind x f s with
    | .ok a s' => Q a s'
    | .error _ s' => E s'
  unfold EStateM.bind
  cases h : x s with
  | ok a s' =>
    rw [h] at hrun
    exact hf a s' hrun
  | error e s' =>
    rw [h] at hrun
    exact hrun

/-- A step whose result is known. -/
theorem bind_eq {x : EStateM ε σ α} {f : α → EStateM ε σ β} {Q : β → σ → Prop} {a : α}
    (hx : Triple P x (fun r s => r = a ∧ P s) E) (hf : Triple P (f a) Q E) :
    Triple P (x >>= f) Q E := by
  apply bind hx
  intro r s hr
  obtain ⟨rfl, hs⟩ := hr
  exact hf s hs

/-- The same procedure collected over a list, when each result is known. -/
theorem mapM {f : α → EStateM ε σ β} {g : α → β} {xs : List α}
    (h : ∀ x ∈ xs, Triple P (f x) (fun r s => r = g x ∧ P s) E) :
    Triple P (xs.mapM f) (fun rs s => rs = xs.map g ∧ P s) E := by
  induction xs with
  | nil => exact pure [] (fun s hs => ⟨rfl, hs⟩)
  | cons x rest ih =>
    rw [List.mapM_cons]
    apply bind_eq (h x List.mem_cons_self)
    apply bind_eq (ih (fun y hy => h y (List.mem_cons_of_mem x hy)))
    exact pure _ (fun s hs => ⟨rfl, hs⟩)

/-- A loop: what one round takes from the rounds before it to itself, the loop
takes from none to all. -/
theorem forM {f : α → EStateM ε σ PUnit} {xs : List α} (I : List α → σ → Prop)
    (h : ∀ before x, before ++ [x] <+: xs →
      Triple (I before) (f x) (fun _ => I (before ++ [x])) E) :
    Triple (I []) (xs.forM f) (fun _ => I xs) E := by
  have hfrom : ∀ rest before, before ++ rest = xs →
      Triple (I before) (rest.forM f) (fun _ => I xs) E := by
    intro rest
    induction rest with
    | nil =>
      intro before hsplit
      rw [List.append_nil] at hsplit
      subst hsplit
      exact pure _ (fun s hs => hs)
    | cons x rest ih =>
      intro before hsplit
      show Triple (I before) (f x >>= fun _ => rest.forM f) _ E
      have hnext : before ++ [x] ++ rest = xs := by rw [← hsplit, List.append_assoc, List.singleton_append]
      apply bind (h before x ⟨rest, hnext⟩)
      intro _
      exact ih (before ++ [x]) hnext
  exact hfrom xs [] rfl

end Triple

end Armv8Encode.Lib

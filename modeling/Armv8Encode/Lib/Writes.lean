/-
  Armv8Encode.Lib.Writes — a run of writes that stops at the first that does not fit.

  Writes go to their places in turn.  The byte that stands at a place in the
  end is the one that the last write over it left there, or the one that stood
  there before.  A run that stops leaves what it wrote so far.
-/
import Armv8Encode.Lib.Bytes

namespace Armv8Encode.Lib

theorem getElem?_patch {bytes content : List Byte} {offset : Nat}
    (h : offset + content.length ≤ bytes.length) (i : Nat) :
    (patch bytes offset content)[i]?
      = if offset ≤ i ∧ i < offset + content.length then content[i - offset]? else bytes[i]? := by
  have htake : (bytes.take offset).length = offset := by
    rw [List.length_take]
    omega
  unfold patch
  by_cases hbefore : i < offset
  · rw [if_neg (by omega), List.append_assoc, List.getElem?_append_left (by omega),
      List.getElem?_take, if_pos hbefore]
  · rw [List.append_assoc, List.getElem?_append_right (by omega), htake]
    by_cases hin : i < offset + content.length
    · rw [if_pos (by omega), List.getElem?_append_left (by omega)]
    · rw [if_neg (by omega), List.getElem?_append_right (by omega), List.getElem?_drop]
      congr 1
      omega

/-! ## §1. The run. -/

/-- Writes in turn, up to the first that does not fit: whether all did, and the
bytes in the end. -/
def writeAll (bytes : List Byte) : List (Nat × List Byte) → Bool × List Byte
  | [] => (true, bytes)
  | w :: rest =>
    if bytes.length < w.1 + w.2.length then (false, bytes)
    else writeAll (patch bytes w.1 w.2) rest

/-- The writes before the first that does not fit. -/
def fitting (size : Nat) (writes : List (Nat × List Byte)) : List (Nat × List Byte) :=
  writes.takeWhile fun w => decide (w.1 + w.2.length ≤ size)

theorem fitting_eq_self {size : Nat} {writes : List (Nat × List Byte)}
    (h : ∀ w ∈ writes, w.1 + w.2.length ≤ size) : fitting size writes = writes := by
  induction writes with
  | nil => rfl
  | cons w rest ih =>
    have hw : decide (w.1 + w.2.length ≤ size) = true := decide_eq_true (h w List.mem_cons_self)
    have hrest := ih fun v hv => h v (List.mem_cons_of_mem _ hv)
    unfold fitting at hrest ⊢
    rw [List.takeWhile_cons, hw, if_pos rfl, hrest]

/-- The byte that the last write over a place has there. -/
def lastWritten (i : Nat) : List (Nat × List Byte) → Option Byte
  | [] => none
  | w :: rest =>
    (lastWritten i rest).or (if w.1 ≤ i ∧ i < w.1 + w.2.length then w.2[i - w.1]? else none)

theorem writeAll_fst (bytes : List Byte) (writes : List (Nat × List Byte)) :
    (writeAll bytes writes).1 = true ↔ ∀ w ∈ writes, w.1 + w.2.length ≤ bytes.length := by
  induction writes generalizing bytes with
  | nil => simp [writeAll]
  | cons w rest ih =>
    unfold writeAll
    rw [List.forall_mem_cons]
    by_cases hfit : bytes.length < w.1 + w.2.length
    · rw [if_pos hfit]
      exact iff_of_false (by simp) (fun h => absurd h.1 (by omega))
    · rw [if_neg hfit, ih, length_patch (by omega)]
      exact ⟨fun h => ⟨by omega, h⟩, fun h => h.2⟩

/-- What stands at a place in the end. -/
theorem getElem?_writeAll (bytes : List Byte) (writes : List (Nat × List Byte)) (i : Nat) :
    (writeAll bytes writes).2[i]?
      = (lastWritten i (fitting bytes.length writes)).or bytes[i]? := by
  induction writes generalizing bytes with
  | nil => simp [writeAll, fitting, lastWritten]
  | cons w rest ih =>
    unfold writeAll fitting
    by_cases hfit : bytes.length < w.1 + w.2.length
    · rw [if_pos hfit, List.takeWhile_cons_of_neg (by simpa using hfit)]
      rfl
    · have hle : w.1 + w.2.length ≤ bytes.length := by omega
      rw [if_neg hfit, List.takeWhile_cons_of_pos (by simpa using hle), ih, length_patch hle,
        getElem?_patch hle]
      show (lastWritten i (fitting bytes.length rest)).or _
        = ((lastWritten i (fitting bytes.length rest)).or _).or bytes[i]?
      rw [Option.or_assoc]
      congr 1
      by_cases hin : w.1 ≤ i ∧ i < w.1 + w.2.length
      · rw [if_pos hin, if_pos hin, List.getElem?_eq_getElem (by omega)]
        rfl
      · rw [if_neg hin, if_neg hin]
        rfl

theorem length_writeAll (bytes : List Byte) (writes : List (Nat × List Byte)) :
    (writeAll bytes writes).2.length = bytes.length := by
  induction writes generalizing bytes with
  | nil => rfl
  | cons w rest ih =>
    rw [writeAll]
    by_cases h : bytes.length < w.1 + w.2.length
    · rw [if_pos h]
    · rw [if_neg h, ih, length_patch (Nat.le_of_not_lt h)]

theorem lastWritten_eq_none {i : Nat} {writes : List (Nat × List Byte)}
    (h : ∀ w ∈ writes, i < w.1 ∨ w.1 + w.2.length ≤ i) : lastWritten i writes = none := by
  induction writes with
  | nil => rfl
  | cons w rest ih =>
    have hw := h w List.mem_cons_self
    unfold lastWritten
    rw [ih (fun v hv => h v (List.mem_cons_of_mem _ hv)), if_neg (by omega)]
    rfl

/-- Places that no write goes to stay as they were. -/
theorem getElem?_writeAll_outside {bytes : List Byte} {writes : List (Nat × List Byte)} {i : Nat}
    (h : ∀ w ∈ writes, i < w.1 ∨ w.1 + w.2.length ≤ i) :
    (writeAll bytes writes).2[i]? = bytes[i]? := by
  rw [getElem?_writeAll, lastWritten_eq_none]
  · rfl
  · intro w hw
    exact h w (List.takeWhile_subset _ hw)

/-- A run changes nothing if and only if every byte that it leaves stood there before. -/
theorem writeAll_snd_eq_iff (bytes : List Byte) (writes : List (Nat × List Byte)) :
    (writeAll bytes writes).2 = bytes ↔
      ∀ i b, lastWritten i (fitting bytes.length writes) = some b → bytes[i]? = some b := by
  constructor
  · intro h i b hb
    have hat := getElem?_writeAll bytes writes i
    rw [h, hb] at hat
    exact hat
  · intro h
    apply List.ext_getElem?
    intro i
    rw [getElem?_writeAll]
    cases hlast : lastWritten i (fitting bytes.length writes) with
    | none => rfl
    | some b => exact (h i b hlast).symm

end Armv8Encode.Lib

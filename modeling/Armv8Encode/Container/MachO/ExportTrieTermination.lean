/-
  Armv8Encode.Container.MachO.ExportTrieTermination — when parsing a trie ends.

  The parser takes child offsets from the bytes and keeps no record of the
  nodes it has been to, so a trie that leads back to a node is walked for ever.
  A node's `cursor + terminal_size` is an unchecked sum of machine words and
  overflows for a terminal size near the largest one.

  Main result:
    * `parse_terminates_iff` — on which byte strings the parser returns.
-/
import Armv8Encode.Container.MachO.ExportTrie
import Armv8Encode.Lib.DepthFirst

namespace Armv8Encode.MachO.ExportTrie

open Lib

/-! ## §1. The walk with its overflow. -/

/-- How a run of the parser ends. -/
inductive Outcome where
  | returned (result : ParseResult (List MachOExport))
  /-- A sum of machine words overflowed. -/
  | overflowed

/-- `cursor + terminal_size as usize` does not fit, at the node of this offset. -/
def terminalOverflows (bytes : List Byte) (offset : Nat) : Bool :=
  if bytes.length ≤ offset then false
  else
    match readUleb128 0 (bytes.drop offset) with
    | .ok (terminalSize, rest) => 2 ^ 64 ≤ (bytes.length - rest.length) + terminalSize
    | .error _ => false

/-- The walk of `walkTrie`, with the overflow as an end of its own. -/
def walkChecked (bytes : List Byte) :
    Nat → List (Nat × Str) → List MachOExport → Option Outcome
  | _, [], out => some (.returned (.ok out))
  | 0, _ :: _, _ => none
  | fuel + 1, (offset, path) :: stack, out =>
    if terminalOverflows bytes offset then some .overflowed
    else
      match readNode bytes offset with
      | .error e => some (.returned (.error e))
      | .ok (terminal, children) =>
        walkChecked bytes fuel (children.map (fun c => (c.2, path.append c.1)) ++ stack)
          (out ++ exportsAt path terminal)

def parseChecked (fuel : Nat) (bytes : List Byte) : Option Outcome :=
  if bytes = [] then some (.returned (.ok [])) else walkChecked bytes fuel [(0, Str.empty)] []

/-- The parser returns after finitely many nodes, with exports or an error. -/
def Terminates (bytes : List Byte) : Prop :=
  ∃ fuel result, parseChecked fuel bytes = some (.returned result)

/-- Without an overflow on the way the walk is the one of `walkTrie`. -/
theorem walkTrie_of_walkChecked {bytes : List Byte} {fuel : Nat} {stack : List (Nat × Str)}
    {out : List MachOExport} {result : ParseResult (List MachOExport)}
    (h : walkChecked bytes fuel stack out = some (.returned result)) :
    walkTrie bytes fuel stack out = some result := by
  induction fuel generalizing stack out with
  | zero =>
    cases stack with
    | nil => simpa [walkChecked, walkTrie] using h
    | cons entry stack => simp [walkChecked] at h
  | succ fuel ih =>
    cases stack with
    | nil => simpa [walkChecked, walkTrie] using h
    | cons entry stack =>
      unfold walkChecked at h
      unfold walkTrie
      by_cases hover : terminalOverflows bytes entry.1 = true
      · simp [hover] at h
      · rw [if_neg hover] at h
        cases hread : readNode bytes entry.1 with
        | error e =>
          rw [hread] at h
          simpa using h
        | ok node =>
          rw [hread] at h
          exact ih h

theorem parse_of_parseChecked {fuel : Nat} {bytes : List Byte}
    {result : ParseResult (List MachOExport)}
    (h : parseChecked fuel bytes = some (.returned result)) : parse fuel bytes = some result := by
  unfold parseChecked at h
  unfold parse
  by_cases hempty : bytes = []
  · rw [if_pos hempty] at h ⊢
    simpa using h
  · rw [if_neg hempty] at h ⊢
    exact walkTrie_of_walkChecked h

/-! ## §2. The graph of the nodes. -/

/-- What the walk meets at an offset. -/
def visitOffset (bytes : List Byte) (offset : Nat) : Visited Nat :=
  if terminalOverflows bytes offset then .broken
  else
    match readNode bytes offset with
    | .error _ => .stop
    | .ok (_, children) => .onward (children.map Prod.snd)

def Outcome.walkEnd : Outcome → WalkEnd
  | .returned (.ok _) => .done
  | .returned (.error _) => .stopped
  | .overflowed => .broke

/-- Offsets decide how the walk goes, whatever the paths and exports. -/
theorem walkChecked_dfs (bytes : List Byte) (fuel : Nat) (stack : List (Nat × Str))
    (out : List MachOExport) :
    (walkChecked bytes fuel stack out).map Outcome.walkEnd
      = dfs (visitOffset bytes) fuel (stack.map Prod.fst) := by
  induction fuel generalizing stack out with
  | zero =>
    cases stack with
    | nil => rfl
    | cons entry stack => rfl
  | succ fuel ih =>
    cases stack with
    | nil => rfl
    | cons entry stack =>
      simp only [walkChecked, List.map_cons, dfs, visitOffset]
      by_cases hover : terminalOverflows bytes entry.1 = true
      · simp [hover, Outcome.walkEnd]
      · simp only [hover]
        cases hread : readNode bytes entry.1 with
        | error e => rfl
        | ok node =>
          have hstack : ((node.2.map fun c => (c.2, entry.2.append c.1)) ++ stack).map Prod.fst
              = node.2.map Prod.snd ++ stack.map Prod.fst := by
            simp [Function.comp_def]
          have hrest := ih ((node.2.map fun c => (c.2, entry.2.append c.1)) ++ stack)
            (out ++ exportsAt entry.2 node.1)
          rw [hstack] at hrest
          exact hrest

theorem terminates_iff_ends {bytes : List Byte} (hbytes : bytes ≠ []) :
    Terminates bytes ↔ Ends (visitOffset bytes) [0] := by
  have hdfs : ∀ fuel, (parseChecked fuel bytes).map Outcome.walkEnd
      = dfs (visitOffset bytes) fuel [0] := by
    intro fuel
    unfold parseChecked
    rw [if_neg hbytes]
    exact walkChecked_dfs bytes fuel [(0, Str.empty)] []
  constructor
  · intro ⟨fuel, result, hrun⟩
    refine ⟨fuel, ?_⟩
    rw [← hdfs, hrun]
    cases result with
    | ok found => exact .inl rfl
    | error e => exact .inr rfl
  · intro ⟨fuel, hend⟩
    rw [← hdfs] at hend
    cases hrun : parseChecked fuel bytes with
    | none => simp [hrun] at hend
    | some outcome =>
      cases outcome with
      | returned result => exact ⟨fuel, result, hrun⟩
      | overflowed => simp [hrun, Outcome.walkEnd] at hend

/-- Only offsets inside the bytes have children. -/
theorem visitOffset_finite (bytes : List Byte) :
    {offset | ∃ children, visitOffset bytes offset = .onward children}.Finite := by
  refine (Set.finite_lt_nat bytes.length).subset ?_
  intro offset ⟨children, hvisit⟩
  show offset < bytes.length
  by_contra hpast
  have ⟨e, herror⟩ : ∃ e, readNode bytes offset = .error e :=
    ⟨_, by unfold readNode; rw [if_pos (Nat.le_of_not_lt hpast)]⟩
  unfold visitOffset at hvisit
  rw [herror] at hvisit
  by_cases hover : terminalOverflows bytes offset = true
  · simp [hover] at hvisit
  · simp [hover] at hvisit

/-! ## §3. Which byte strings the parser returns on. -/

/-- The parser returns on a byte string if and only if it is empty, or every
node in reach of the root is readable, fits its sum and lies on no cycle, or
so does everything to the left of a path to a node that is refused. -/
theorem parse_terminates_iff (bytes : List Byte) :
    Terminates bytes ↔ bytes = [] ∨ Clean (visitOffset bytes) 0 ∨ StopsAt (visitOffset bytes) 0 := by
  by_cases hempty : bytes = []
  · refine iff_of_true ⟨0, .ok [], ?_⟩ (.inl hempty)
    unfold parseChecked
    rw [if_pos hempty]
  · rw [terminates_iff_ends hempty, dfs_ends_iff (visitOffset_finite bytes), or_iff_right hempty]

/-- A root whose child is the root. -/
def loopTrie : List Byte := [0x00, 0x01, 0x61, 0x00, 0x00]

/-- A root of the largest terminal size. -/
def hugeTrie : List Byte :=
  [0xff, 0xff, 0xff, 0xff, 0xff, 0xff, 0xff, 0xff, 0xff, 0x01, 0x00]

theorem loop_and_huge_tries :
    ¬ Terminates loopTrie ∧ parseChecked 1 hugeTrie = some .overflowed ∧ ¬ Terminates hugeTrie := by
  have hloop : visitOffset loopTrie 0 = .onward [0] := by decide
  have hhuge : visitOffset hugeTrie 0 = .broken := by decide
  refine ⟨?_, ?_, ?_⟩
  · rw [terminates_iff_ends (by decide)]
    have hnone : ∀ fuel, dfs (visitOffset loopTrie) fuel [0] = none := by
      intro fuel
      induction fuel with
      | zero => rfl
      | succ fuel ih =>
        simp only [dfs, hloop]
        exact ih
    intro hends
    obtain ⟨fuel, hend⟩ := hends
    simp [hnone] at hend
  · have hover : terminalOverflows hugeTrie 0 = true := by decide
    unfold parseChecked
    rw [if_neg (by decide)]
    unfold walkChecked
    rw [if_pos hover]
  · rw [terminates_iff_ends (by decide)]
    intro hends
    obtain ⟨fuel, hend⟩ := hends
    cases fuel with
    | zero => simp [dfs] at hend
    | succ fuel => simp [dfs, hhuge] at hend

end Armv8Encode.MachO.ExportTrie

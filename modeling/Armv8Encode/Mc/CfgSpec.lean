/-
  Armv8Encode.Mc.CfgSpec — the blocks of a graph tile the instruction list.

  The successor of every terminator is a leader, so the first terminator of a
  block stands right before the next leader and every block runs exactly from
  one leader to the next.  The slices of the blocks therefore concatenate to
  the whole instruction list, and the id of a block is its position.
-/
import Armv8Encode.Mc.Cfg

namespace Armv8Encode

open Lib

variable {ι : Type} {info : InstructionInfo ι} {instructions : List ι}

/-! ## §1. Blocks in a row. -/

/-- Blocks with consecutive ids whose index ranges run from `first` to the end
of the instructions without gaps. -/
inductive BlocksTile (info : InstructionInfo ι) (instructions : List ι) :
    Nat → Nat → List BasicBlock → Prop where
  | nil (id : Nat) : BlocksTile info instructions id instructions.length []
  | cons {id first next : Nat} {b : BasicBlock} {rest : List BasicBlock} {head : ι}
      (hid : b.id = ⟨id⟩) (hfirst : b.firstIndex = first) (hend : b.endIndex = next)
      (hrange : first < next) (hbound : next ≤ instructions.length)
      (hhead : instructions[first]? = some head) (hstart : b.start = info.address head)
      (hrest : BlocksTile info instructions (id + 1) next rest) :
      BlocksTile info instructions id first (b :: rest)

namespace BlocksTile

/-- The slices of tiling blocks concatenate to the instructions they cover. -/
theorem flatMap_slice {id first : Nat} {blocks : List BasicBlock}
    (h : BlocksTile info instructions id first blocks) :
    blocks.flatMap (fun b => b.slice instructions) = instructions.drop first := by
  induction h with
  | nil id => simp
  | @cons id first next b rest head hid hfirst hend hrange hbound hhead hstart hrest ih =>
    subst hfirst hend
    rw [List.flatMap_cons, ih, BasicBlock.slice]
    have hdrop : instructions.drop b.endIndex
        = (instructions.drop b.firstIndex).drop (b.endIndex - b.firstIndex) := by
      rw [List.drop_drop]
      congr 1
      omega
    rw [hdrop, List.take_append_drop]

/-- A block's position is its id, its range starts after the slices before it,
and it starts at the address of the first instruction of its range. -/
theorem getElem? {id first : Nat} {blocks : List BasicBlock}
    (h : BlocksTile info instructions id first blocks) {j : Nat} {b : BasicBlock}
    (hb : blocks[j]? = some b) :
    b.id = ⟨id + j⟩ ∧
      b.firstIndex = first + ((blocks.take j).flatMap (fun b => b.slice instructions)).length ∧
      ∃ head, instructions[b.firstIndex]? = some head ∧ b.start = info.address head := by
  induction h generalizing j with
  | nil id => cases hb
  | @cons id first next b' rest head hid hfirst hend hrange hbound hhead hstart hrest ih =>
    subst hfirst hend
    cases j with
    | zero =>
      cases hb
      exact ⟨hid, by simp, head, hhead, hstart⟩
    | succ j =>
      obtain ⟨hid', hfirst, hstart'⟩ := ih hb
      refine ⟨by rw [hid']; congr 1; omega, ?_, hstart'⟩
      rw [hfirst, List.take_succ_cons, List.flatMap_cons, List.length_append, BasicBlock.slice,
        List.length_take, List.length_drop]
      omega

end BlocksTile

/-! ## §2. Blocks from leaders. -/

/-- A rising list of leaders that holds the successor of every terminator
from its head on. -/
structure LeadersFrom (info : InstructionInfo ι) (instructions : List ι) (start : Nat)
    (rest : List Nat) : Prop where
  rising : (start :: rest).Pairwise (· < ·)
  bound : ∀ x ∈ start :: rest, x < instructions.length
  closed : ∀ t instruction, start ≤ t → instructions[t]? = some instruction →
    (info.controlFlow instruction).isTerminator = true → t + 1 < instructions.length →
      t + 1 ∈ rest

namespace LeadersFrom

theorem tail {start next : Nat} {rest : List Nat}
    (h : LeadersFrom info instructions start (next :: rest)) :
    LeadersFrom info instructions next rest where
  rising := h.rising.tail
  bound := fun x hx => h.bound x (List.mem_cons_of_mem _ hx)
  closed := by
    intro t instruction hle hget hterm hlt
    have hstart : start < next := (List.pairwise_cons.mp h.rising).1 next List.mem_cons_self
    rcases List.mem_cons.mp (h.closed t instruction (by omega) hget hterm hlt) with heq | hmem
    · omega
    · exact hmem

/-- The next leader, or the end of the instructions. -/
theorem next_spec {start : Nat} {rest : List Nat} (h : LeadersFrom info instructions start rest) :
    start < rest.head?.getD instructions.length ∧
      rest.head?.getD instructions.length ≤ instructions.length ∧
      ∀ x ∈ rest, rest.head?.getD instructions.length ≤ x := by
  cases rest with
  | nil => exact ⟨h.bound start List.mem_cons_self, le_refl _, by simp⟩
  | cons next rest =>
    have hpair := List.pairwise_cons.mp h.rising
    refine ⟨hpair.1 next List.mem_cons_self,
      (h.bound next (List.mem_cons_of_mem _ List.mem_cons_self)).le, ?_⟩
    intro x hx
    rcases List.mem_cons.mp hx with rfl | hx
    · exact le_refl _
    · exact ((List.pairwise_cons.mp hpair.2).1 x hx).le

/-- A block runs exactly to the next leader. -/
theorem blockEnd_eq {start : Nat} {rest : List Nat} (h : LeadersFrom info instructions start rest) :
    (blockEnd info instructions start (rest.head?.getD instructions.length)).1
      = rest.head?.getD instructions.length := by
  obtain ⟨hlt, hle, hmin⟩ := h.next_spec
  generalize rest.head?.getD instructions.length = next at *
  unfold blockEnd
  simp only
  split
  · next k hk =>
    obtain ⟨hklt, hterm, -⟩ := List.findIdx?_eq_some_iff_getElem.mp hk
    rw [List.length_take, List.length_drop] at hklt
    rw [List.getElem_take, List.getElem_drop] at hterm
    have hbound : start + k < instructions.length := by omega
    have hget : instructions[start + k]? = some instructions[start + k] :=
      List.getElem?_eq_getElem hbound
    by_cases hend : start + k + 1 < instructions.length
    · have hmem := h.closed (start + k) _ (by omega) hget hterm hend
      have := hmin _ hmem
      simp only
      omega
    · simp only
      omega
  · rfl

end LeadersFrom

/-- The blocks formed from leaders tile the instructions from the first leader on. -/
theorem formBlocks_tile {start : Nat} {rest : List Nat}
    (h : LeadersFrom info instructions start rest) (nextId : Nat) :
    BlocksTile info instructions nextId start
      (formBlocks info instructions nextId (start :: rest)) := by
  induction rest generalizing start nextId with
  | nil =>
    obtain ⟨hlt, hle, -⟩ := h.next_spec
    have hend := h.blockEnd_eq
    simp only [List.head?_nil, Option.getD_none] at hlt hle hend
    have hstart : instructions[start]? = some instructions[start] := List.getElem?_eq_getElem hlt
    have hbound : instructions.length - 1 < instructions.length := by omega
    have hlast : instructions[instructions.length - 1]?
        = some instructions[instructions.length - 1] := List.getElem?_eq_getElem hbound
    simp only [formBlocks, List.head?_nil, Option.getD_none, hend, hstart, hlast]
    exact .cons rfl rfl rfl hlt hle hstart rfl (.nil _)
  | cons next rest ih =>
    obtain ⟨hlt, hle, -⟩ := h.next_spec
    have hend := h.blockEnd_eq
    simp only [List.head?_cons, Option.getD_some] at hlt hle hend
    have hbound : start < instructions.length := by omega
    have hstart : instructions[start]? = some instructions[start] :=
      List.getElem?_eq_getElem hbound
    have hbound' : next - 1 < instructions.length := by omega
    have hlast : instructions[next - 1]? = some instructions[next - 1] :=
      List.getElem?_eq_getElem hbound'
    have htail := ih h.tail (nextId + 1)
    rw [formBlocks]
    simp only [List.head?_cons, Option.getD_some, hend, hstart, hlast]
    exact .cons rfl rfl rfl hlt hle hstart rfl htail

/-- A terminator inside a block is its last instruction. -/
theorem formBlocks_terminator {start : Nat} {rest : List Nat}
    (h : LeadersFrom info instructions start rest) (nextId : Nat) {b : BasicBlock}
    (hb : b ∈ formBlocks info instructions nextId (start :: rest)) {t : Nat} {instruction : ι}
    (hget : instructions[t]? = some instruction)
    (hterm : (info.controlFlow instruction).isTerminator = true) (hfirst : b.firstIndex ≤ t)
    (hlast : t < b.endIndex) : b.endIndex = t + 1 := by
  have hlength : t < instructions.length := (List.getElem?_eq_some_iff.mp hget).1
  -- the next leader is right after the terminator, or there is none
  have hnext : ∀ {start rest}, LeadersFrom info instructions start rest → start ≤ t →
      t < rest.head?.getD instructions.length → rest.head?.getD instructions.length = t + 1 := by
    intro start rest h hle hlt
    obtain ⟨-, hbound, hmin⟩ := h.next_spec
    by_cases hend : t + 1 < instructions.length
    · have := hmin _ (h.closed t instruction hle hget hterm hend)
      omega
    · omega
  induction rest generalizing start nextId with
  | nil =>
    have hend := h.blockEnd_eq
    rw [formBlocks] at hb
    simp only [hend] at hb
    split at hb
    · rcases List.mem_cons.mp hb with rfl | hmem
      · exact hnext h hfirst hlast
      · cases hmem
    · cases hb
  | cons next rest ih =>
    have hend := h.blockEnd_eq
    rw [formBlocks] at hb
    simp only [hend] at hb
    split at hb
    · rcases List.mem_cons.mp hb with rfl | hmem
      · exact hnext h hfirst hlast
      · exact ih h.tail _ hmem
    · exact ih h.tail _ hb

/-! ## §3. The graph. -/

theorem mem_collectLeaders {x : Nat} :
    x ∈ collectLeaders info instructions ↔
      x < instructions.length ∧ x ∈ insertedLeaders info instructions := by
  simp [collectLeaders, List.mem_filter]

theorem collectLeaders_rising (info : InstructionInfo ι) (instructions : List ι) :
    (collectLeaders info instructions).Pairwise (· < ·) :=
  List.Pairwise.filter _ List.pairwise_lt_range

/-- The leaders of a non-empty instruction list start at index 0. -/
theorem collectLeaders_leadersFrom (info : InstructionInfo ι) (hne : 0 < instructions.length) :
    ∃ rest, collectLeaders info instructions = 0 :: rest ∧
      LeadersFrom info instructions 0 rest := by
  have hzero : 0 ∈ collectLeaders info instructions :=
    mem_collectLeaders.mpr ⟨hne, List.mem_cons_self⟩
  have hrising := collectLeaders_rising info instructions
  cases hl : collectLeaders info instructions with
  | nil =>
    rw [hl] at hzero
    cases hzero
  | cons first rest =>
    rw [hl] at hzero hrising
    have hfirst : first = 0 := by
      rcases List.mem_cons.mp hzero with heq | hmem
      · exact heq.symm
      · have := (List.pairwise_cons.mp hrising).1 0 hmem
        omega
    subst hfirst
    refine ⟨rest, rfl, hrising, fun x hx => (mem_collectLeaders.mp (hl ▸ hx)).1, ?_⟩
    intro t instruction _ hget hterm hlt
    have hmem : t + 1 ∈ collectLeaders info instructions := by
      refine mem_collectLeaders.mpr ⟨hlt, List.mem_cons_of_mem _ ?_⟩
      refine List.mem_flatten.mpr ⟨_, List.mem_map.mpr ⟨(instruction, t), ?_, rfl⟩, ?_⟩
      · exact List.mem_zipIdx_iff_getElem?.mpr hget
      · simp [leadersOf, hterm, hlt]
    rw [hl] at hmem
    rcases List.mem_cons.mp hmem with heq | hmem
    · omega
    · exact hmem

theorem BlocksTile.map_successors {id first : Nat} {blocks : List BasicBlock}
    (h : BlocksTile info instructions id first blocks) (f : BasicBlock → List Edge) :
    BlocksTile info instructions id first
      (blocks.map (fun b => { b with successors := f b })) := by
  induction h with
  | nil id => exact .nil id
  | cons hid hfirst hend hrange hbound hhead hstart hrest ih =>
    exact .cons hid hfirst hend hrange hbound hhead hstart ih

/-- **The blocks of a graph tile the instruction list.** -/
theorem buildCfg_tiles (info : InstructionInfo ι) (instructions : List ι) :
    BlocksTile info instructions 0 0 (buildCfg info instructions).blocks := by
  unfold buildCfg
  cases hempty : instructions.isEmpty with
  | true =>
    rw [List.isEmpty_iff] at hempty
    subst hempty
    exact .nil 0
  | false =>
    have hne : 0 < instructions.length := by
      cases instructions with
      | nil => cases hempty
      | cons i rest => simp
    obtain ⟨rest, hleaders, hfrom⟩ := collectLeaders_leadersFrom info hne
    simp only [Bool.false_eq_true, if_false]
    rw [hleaders]
    exact (formBlocks_tile hfrom 0).map_successors _

/-- **A terminator ends its block.** -/
theorem buildCfg_terminator {b : BasicBlock} (hb : b ∈ (buildCfg info instructions).blocks) {t : Nat}
    {instruction : ι} (hget : instructions[t]? = some instruction)
    (hterm : (info.controlFlow instruction).isTerminator = true) (hfirst : b.firstIndex ≤ t)
    (hlast : t < b.endIndex) : b.endIndex = t + 1 := by
  have hne : 0 < instructions.length := by
    have := (List.getElem?_eq_some_iff.mp hget).1
    omega
  have hempty : instructions.isEmpty = false := by
    rw [List.isEmpty_eq_false_iff]
    exact List.ne_nil_of_length_pos hne
  obtain ⟨rest, hleaders, hfrom⟩ := collectLeaders_leadersFrom info hne
  unfold buildCfg at hb
  simp only [hempty, Bool.false_eq_true, if_false, hleaders] at hb
  obtain ⟨b', hb', rfl⟩ := List.mem_map.mp hb
  exact formBlocks_terminator hfrom 0 hb' hget hterm hfirst hlast

/-- The block found at an address starts there. -/
theorem blockStarts_some {id first : Nat} {blocks : List BasicBlock}
    (h : BlocksTile info instructions id first blocks) {address : U64} {found : BasicBlockId}
    (hfound : blockStarts blocks address = some found) :
    ∃ j b, blocks[j]? = some b ∧ found = ⟨id + j⟩ ∧ b.start = address := by
  have hmem := mem_of_lastWins hfound
  obtain ⟨b, hb, heq⟩ := List.mem_map.mp hmem
  cases heq
  obtain ⟨j, hj⟩ := List.getElem?_of_mem hb
  exact ⟨j, b, hj, (h.getElem? hj).1, rfl⟩

end Armv8Encode

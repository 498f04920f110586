/-
  Armv8Encode.Mc.CfgFlow — the edges of a graph are where control passes.

  An instruction passes control to the addresses its classification names.  In
  the graph of a linear sweep each of them is an edge: to the block that starts
  there, or else to the outside, at that address.

    • `formBlocks_spec` — what a block records of its first and last
      instruction,
    • `mem_successorsOf_block`, `mem_successorsOf_external` — the edges of one
      block,
    • `buildCfg_faithful` — the whole graph.
-/
import Armv8Encode.Mc.CfgSpec

namespace Armv8Encode

open Lib

/-! ## §1. Where control passes. -/

namespace ControlFlow

/-- The addresses control may pass to, and how; `next` is the one past the
instruction. -/
def destinations (next : U64) : ControlFlow → List (EdgeKind × U64)
  | fall | trap => [(.fallthrough, next)]
  | jump target => [(.jump, target)]
  | conditionalJump target fallthrough => [(.branchTaken, target), (.fallthrough, fallthrough)]
  | call target fallthrough => [(.call, target), (.fallthrough, fallthrough)]
  | «return» | indirectJump => []
  | indirectCall fallthrough => [(.fallthrough, fallthrough)]

/-- A terminator, as a block records it. -/
def terminator? (cf : ControlFlow) : Option ControlFlow := if cf.isTerminator then some cf else none

end ControlFlow

variable {ι : Type} {info : InstructionInfo ι} {instructions : List ι}

/-- The addresses an instruction passes control to. -/
def passesTo (info : InstructionInfo ι) (i : ι) : List (EdgeKind × U64) :=
  (info.controlFlow i).destinations (info.address i + info.size i)

/-! ## §2. What a block records. -/

/-- A block's record of its range: the addresses of its first and last
instruction, and the last one if it is a terminator. -/
structure Records (info : InstructionInfo ι) (instructions : List ι) (b : BasicBlock) (last : ι) :
    Prop where
  isLast : instructions[b.endIndex - 1]? = some last
  endAddress : b.endAddress = info.address last + info.size last
  terminator : b.terminator = (info.controlFlow last).terminator?

/-- Where a block ends there is its terminator, or no terminator. -/
theorem blockEnd_terminator {start next : Nat} (hlt : start < next) {last : ι}
    (hlast : instructions[(blockEnd info instructions start next).1 - 1]? = some last) :
    (blockEnd info instructions start next).2 = (info.controlFlow last).terminator? := by
  unfold blockEnd at hlast ⊢
  simp only at hlast ⊢
  cases hfind : ((instructions.drop start).take (next - start)).findIdx?
      fun i => (info.controlFlow i).isTerminator with
  | none =>
    rw [hfind] at hlast
    -- the instruction before the next leader is one of the body
    have hmem : last ∈ (instructions.drop start).take (next - start) := by
      refine List.mem_of_getElem? (i := next - 1 - start) ?_
      rw [List.getElem?_take_of_lt (by omega), List.getElem?_drop, Nat.add_sub_cancel' (by omega)]
      exact hlast
    have hnot := List.findIdx?_eq_none_iff.mp hfind last hmem
    simp [ControlFlow.terminator?, hnot]
  | some k =>
    rw [hfind] at hlast
    obtain ⟨hk, hterm, -⟩ := List.findIdx?_eq_some_iff_getElem.mp hfind
    have hbody : ((instructions.drop start).take (next - start))[k]? = some last := by
      have hk' := hk
      rw [List.length_take] at hk'
      rw [List.getElem?_take_of_lt (by omega), List.getElem?_drop]
      exact hlast
    rw [List.getElem?_eq_getElem hk, Option.some.injEq] at hbody
    rw [hbody] at hterm
    simp [ControlFlow.terminator?, hterm, List.getElem?_eq_getElem hk, hbody]

/-- **What a block records of its last instruction.** -/
theorem formBlocks_spec {start : Nat} {rest : List Nat}
    (h : LeadersFrom info instructions start rest) (nextId : Nat) :
    ∀ b ∈ formBlocks info instructions nextId (start :: rest),
      ∃ last, Records info instructions b last := by
  induction rest generalizing start nextId with
  | nil =>
    intro b hb
    obtain ⟨hlt, -, -⟩ := h.next_spec
    rw [formBlocks] at hb
    split at hb
    · next first last hfirst hlast =>
      rcases List.mem_cons.mp hb with rfl | hb
      · exact ⟨last, hlast, rfl, blockEnd_terminator hlt hlast⟩
      · cases hb
    · cases hb
  | cons next rest ih =>
    intro b hb
    obtain ⟨hlt, -, -⟩ := h.next_spec
    rw [formBlocks] at hb
    split at hb
    · next first last hfirst hlast =>
      rcases List.mem_cons.mp hb with rfl | hb
      · exact ⟨last, hlast, rfl, blockEnd_terminator hlt hlast⟩
      · exact ih h.tail _ b hb
    · exact ih h.tail _ b hb

/-! ## §3. The edges of one block. -/

theorem resolveEdge_block {blockAtAddress : Map U64 BasicBlockId} {d : U64} {id : BasicBlockId} :
    resolveEdge blockAtAddress d = .block id ↔ blockAtAddress d = some id := by
  unfold resolveEdge
  cases blockAtAddress d <;> simp

theorem resolveEdge_external {blockAtAddress : Map U64 BasicBlockId} {d d' : U64} :
    resolveEdge blockAtAddress d = .external d' ↔ blockAtAddress d = none ∧ d = d' := by
  unfold resolveEdge
  cases blockAtAddress d <;> simp

section Edges

variable {blockAtAddress : Map U64 BasicBlockId} {b : BasicBlock} {last : ι}

/-- The edges of a block that ends with a terminator. -/
theorem successorsOf_terminator (h : Records info instructions b last)
    (hterm : (info.controlFlow last).isTerminator = true) {kind : EdgeKind} {target : EdgeTarget}
    (htarget : target ≠ .indirect) :
    ⟨kind, target⟩ ∈ successorsOf blockAtAddress b ↔
      ∃ d, (kind, d) ∈ passesTo info last ∧ resolveEdge blockAtAddress d = target := by
  unfold successorsOf passesTo
  rw [h.terminator, ← h.endAddress, ControlFlow.terminator?, if_pos hterm]
  cases hcf : info.controlFlow last with
  | fall =>
    rw [hcf] at hterm
    cases hterm
  | _ => simp [ControlFlow.destinations, htarget, eq_comm, or_and_right, exists_or]

/-- The edges of a block that runs into the next one. -/
theorem successorsOf_fall (h : Records info instructions b last)
    (hterm : (info.controlFlow last).isTerminator = false) {kind : EdgeKind} {target : EdgeTarget} :
    ⟨kind, target⟩ ∈ successorsOf blockAtAddress b ↔
      ∃ d id, (kind, d) ∈ passesTo info last ∧ blockAtAddress d = some id ∧ target = .block id := by
  have hfall : info.controlFlow last = .fall := by
    cases hcf : info.controlFlow last <;> rw [hcf] at hterm <;> first | rfl | cases hterm
  unfold successorsOf passesTo
  rw [h.terminator, ← h.endAddress, ControlFlow.terminator?, hterm, hfall]
  simp only [ControlFlow.destinations, List.mem_singleton, Prod.mk.injEq]
  cases hat : blockAtAddress b.endAddress with
  | none => simp [resolveEdge, hat]
  | some id =>
    simp [resolveEdge, hat]

theorem mem_successorsOf_block (h : Records info instructions b last) (kind : EdgeKind)
    (id : BasicBlockId) :
    ⟨kind, .block id⟩ ∈ successorsOf blockAtAddress b ↔
      ∃ d, (kind, d) ∈ passesTo info last ∧ blockAtAddress d = some id := by
  by_cases hterm : (info.controlFlow last).isTerminator = true
  · rw [successorsOf_terminator h hterm (by simp)]
    simp only [resolveEdge_block]
  · rw [successorsOf_fall h (by simpa using hterm)]
    simp

theorem mem_successorsOf_external (h : Records info instructions b last) (kind : EdgeKind)
    (d : U64) :
    ⟨kind, .external d⟩ ∈ successorsOf blockAtAddress b ↔
      (info.controlFlow last).isTerminator = true ∧ (kind, d) ∈ passesTo info last ∧
        blockAtAddress d = none := by
  by_cases hterm : (info.controlFlow last).isTerminator = true
  · rw [successorsOf_terminator h hterm (by simp)]
    simp only [resolveEdge_external, hterm, true_and]
    constructor
    · rintro ⟨d', hd, hnone, rfl⟩
      exact ⟨hd, hnone⟩
    · rintro ⟨hd, hnone⟩
      exact ⟨d, hd, hnone, rfl⟩
  · rw [successorsOf_fall h (by simpa using hterm)]
    simp [hterm]

end Edges

/-! ## §4. Where blocks start. -/

/-- The instructions of a linear sweep: addresses rise, and each instruction
stands where the one before it ends. -/
structure LinearSweep (info : InstructionInfo ι) (instructions : List ι) : Prop where
  rising : instructions.Pairwise fun a b => (info.address a).toNat < (info.address b).toNat
  gapFree : ∀ i a b, instructions[i]? = some a → instructions[i + 1]? = some b →
    info.address b = info.address a + info.size a

theorem LinearSweep.lt (h : LinearSweep info instructions) {i j : Nat} {a b : ι}
    (ha : instructions[i]? = some a) (hb : instructions[j]? = some b) (hij : i < j) :
    (info.address a).toNat < (info.address b).toNat := by
  obtain ⟨hi, rfl⟩ := List.getElem?_eq_some_iff.mp ha
  obtain ⟨hj, rfl⟩ := List.getElem?_eq_some_iff.mp hb
  exact List.pairwise_iff_getElem.mp h.rising i j hi hj hij

/-- The leaders are where the blocks start. -/
theorem formBlocks_firstIndex {start : Nat} {rest : List Nat}
    (h : LeadersFrom info instructions start rest) (nextId : Nat) :
    (formBlocks info instructions nextId (start :: rest)).map BasicBlock.firstIndex
      = start :: rest := by
  have hsome : ∀ {start rest}, LeadersFrom info instructions start rest →
      ∃ first last, instructions[start]? = some first ∧
        instructions[(blockEnd info instructions start
          (rest.head?.getD instructions.length)).1 - 1]? = some last := by
    intro start rest h
    obtain ⟨hlt, hle, -⟩ := h.next_spec
    rw [h.blockEnd_eq]
    exact ⟨_, _, List.getElem?_eq_getElem (by omega), List.getElem?_eq_getElem (by omega)⟩
  induction rest generalizing start nextId with
  | nil =>
    obtain ⟨first, last, hfirst, hlast⟩ := hsome h
    rw [formBlocks]
    simp only [hfirst, hlast]
    rfl
  | cons next rest ih =>
    obtain ⟨first, last, hfirst, hlast⟩ := hsome h
    rw [formBlocks]
    simp only [hfirst, hlast]
    rw [List.map_cons, ih h.tail]

namespace BlocksTile

theorem firstIndex_ge {id first : Nat} {blocks : List BasicBlock}
    (h : BlocksTile info instructions id first blocks) :
    ∀ b ∈ blocks, first ≤ b.firstIndex ∧ ∃ head, instructions[b.firstIndex]? = some head ∧
      b.start = info.address head := by
  induction h with
  | nil id =>
    intro b hb
    cases hb
  | @cons id first next b rest head hid hfirst hend hrange hbound hhead hstart hrest ih =>
    intro b' hb'
    rcases List.mem_cons.mp hb' with rfl | hb'
    · exact ⟨hfirst.ge, head, hfirst ▸ hhead, hstart⟩
    · obtain ⟨hge, hhead'⟩ := ih b' hb'
      exact ⟨by omega, hhead'⟩

theorem range {id first : Nat} {blocks : List BasicBlock}
    (h : BlocksTile info instructions id first blocks) :
    ∀ b ∈ blocks, b.firstIndex < b.endIndex ∧ b.endIndex ≤ instructions.length := by
  induction h with
  | nil id =>
    intro b hb
    cases hb
  | @cons id first next b rest head hid hfirst hend hrange hbound hhead hstart hrest ih =>
    intro b' hb'
    rcases List.mem_cons.mp hb' with rfl | hb'
    · omega
    · exact ih b' hb'

/-- An id names one block. -/
theorem id_inj {id first : Nat} {blocks : List BasicBlock}
    (h : BlocksTile info instructions id first blocks) {a b : BasicBlock} (ha : a ∈ blocks)
    (hb : b ∈ blocks) (hid : a.id = b.id) : a = b := by
  obtain ⟨i, hi⟩ := List.getElem?_of_mem ha
  obtain ⟨j, hj⟩ := List.getElem?_of_mem hb
  rw [(h.getElem? hi).1, (h.getElem? hj).1, BasicBlockId.mk.injEq] at hid
  obtain rfl : i = j := by omega
  rw [hi] at hj
  exact Option.some.inj hj

/-- Blocks of a sweep stand in address order. -/
theorem rising {id first : Nat} {blocks : List BasicBlock}
    (h : BlocksTile info instructions id first blocks) (hsweep : LinearSweep info instructions) :
    blocks.Pairwise fun a b => a.start.toNat < b.start.toNat := by
  induction h with
  | nil id => exact .nil
  | @cons id first next b rest head hid hfirst hend hrange hbound hhead hstart hrest ih =>
    refine .cons (fun b' hb' => ?_) ih
    obtain ⟨hge, head', hhead', hstart'⟩ := hrest.firstIndex_ge b' hb'
    rw [hstart, hstart']
    exact hsweep.lt hhead hhead' (by omega)

/-- A block starts where the one before it ends. -/
theorem firstIndex_next {id first : Nat} {blocks : List BasicBlock}
    (h : BlocksTile info instructions id first blocks) {j : Nat} {a b : BasicBlock}
    (ha : blocks[j]? = some a) (hb : blocks[j + 1]? = some b) : b.firstIndex = a.endIndex := by
  induction h generalizing j with
  | nil id => cases ha
  | @cons id first next c rest head hid hfirst hend hrange hbound hhead hstart hrest ih =>
    cases j with
    | zero =>
      cases ha
      rw [List.getElem?_cons_succ] at hb
      cases hrest with
      | nil => cases hb
      | cons hid' hfirst' =>
        cases hb
        rw [hfirst', hend]
    | succ j => exact ih ha hb

end BlocksTile

/-- The index of an address in a sweep. -/
theorem addressToIndex_eq (hsweep : LinearSweep info instructions) {k : Nat} {i : ι}
    (hi : instructions[k]? = some i) :
    addressToIndex info instructions (info.address i) = some k := by
  have hkeys : ((instructions.zipIdx.map fun p => (info.address p.1, p.2)).map Prod.fst).Nodup := by
    have hmap : (instructions.zipIdx.map fun p => (info.address p.1, p.2)).map Prod.fst
        = instructions.map info.address := by
      rw [List.map_map]
      show instructions.zipIdx.map (info.address ∘ Prod.fst) = _
      rw [← List.map_map, List.zipIdx_map_fst]
    rw [hmap]
    refine List.pairwise_map.mpr (hsweep.rising.imp fun hlt heq => ?_)
    rw [heq] at hlt
    exact Nat.lt_irrefl _ hlt
  refine (lastWins_iff_of_nodup hkeys).mpr (List.mem_map.mpr ⟨(i, k), ?_, rfl⟩)
  exact List.mem_zipIdx_iff_getElem?.mpr hi

/-! ## §5. The graph. -/

/-- The block found at an address is the one that starts there. -/
theorem blockStarts_iff {blocks : List BasicBlock}
    (hrising : blocks.Pairwise fun a b => a.start.toNat < b.start.toNat) {d : U64}
    {id : BasicBlockId} :
    blockStarts blocks d = some id ↔ ∃ b ∈ blocks, b.start = d ∧ b.id = id := by
  have hkeys : ((blocks.map fun b => (b.start, b.id)).map Prod.fst).Nodup := by
    rw [List.map_map]
    refine List.pairwise_map.mpr (hrising.imp fun {a b} hlt heq => ?_)
    have hstart : a.start = b.start := heq
    rw [hstart] at hlt
    exact Nat.lt_irrefl _ hlt
  rw [blockStarts, lastWins_iff_of_nodup hkeys, List.mem_map]
  simp only [Prod.mk.injEq]

/-- A graph as a faithful partition of the instructions of a sweep. -/
structure FaithfulPartition (info : InstructionInfo ι) (instructions : List ι)
    (g : ControlFlowGraph) : Prop where
  /-- Ranges are not empty, follow one another and cover the instructions. -/
  tiles : BlocksTile info instructions 0 0 g.blocks
  rising : g.blocks.Pairwise fun a b => a.start.toNat < b.start.toNat
  consecutive : ∀ j a b, g.blocks[j]? = some a → g.blocks[j + 1]? = some b →
    b.start = a.endAddress
  terminatorLast : ∀ b ∈ g.blocks, ∀ t i, instructions[t]? = some i →
    (info.controlFlow i).isTerminator = true → b.firstIndex ≤ t → t < b.endIndex →
      b.endIndex = t + 1
  targetStarts : ∀ i ∈ instructions, ∀ j ∈ instructions,
    (info.controlFlow i).directTarget = some (info.address j) →
      ∃ b ∈ g.blocks, b.start = info.address j
  /-- An edge between blocks is where the last instruction of one passes
  control to the first of the other. -/
  edges : ∀ a ∈ g.blocks, ∀ last, instructions[a.endIndex - 1]? = some last →
    ∀ b ∈ g.blocks, ∀ kind,
      ⟨kind, .block b.id⟩ ∈ a.successors ↔ (kind, b.start) ∈ passesTo info last
  /-- No edge goes to a block that is not there. -/
  closed : ∀ a ∈ g.blocks, ∀ kind id, ⟨kind, .block id⟩ ∈ a.successors → ∃ b ∈ g.blocks, b.id = id
  /-- Every other destination of a terminator is outside, at its address. -/
  externals : ∀ a ∈ g.blocks, ∀ last, instructions[a.endIndex - 1]? = some last → ∀ kind d,
    ⟨kind, .external d⟩ ∈ a.successors ↔
      (info.controlFlow last).isTerminator = true ∧ (kind, d) ∈ passesTo info last ∧
        ∀ b ∈ g.blocks, b.start ≠ d

/-- The blocks of a graph before their edges are attached. -/
theorem buildCfg_blocks (info : InstructionInfo ι) (hne : instructions ≠ []) :
    ∃ rest, LeadersFrom info instructions 0 rest ∧
      collectLeaders info instructions = 0 :: rest ∧
      (buildCfg info instructions).blocks
        = (formBlocks info instructions 0 (0 :: rest)).map fun b =>
            { b with successors :=
                successorsOf (blockStarts (formBlocks info instructions 0 (0 :: rest))) b } := by
  obtain ⟨rest, hleaders, hfrom⟩ :=
    collectLeaders_leadersFrom info (List.length_pos_iff.mpr hne)
  refine ⟨rest, hfrom, hleaders, ?_⟩
  have hempty : instructions.isEmpty = false := by
    rw [List.isEmpty_eq_false_iff]
    exact hne
  unfold buildCfg
  simp only [hempty, Bool.false_eq_true, if_false, hleaders]

end Armv8Encode

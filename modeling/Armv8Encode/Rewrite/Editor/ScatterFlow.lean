/-
  Armv8Encode.Rewrite.Editor.ScatterFlow — control flow of scattered code.

  A plan laid out contiguously falls from each block into the next.  Scattered
  over freed text the blocks are apart: what leads from one to another are
  their branches and, where two holes happen to adjoin, the fall from one hole
  into the next.

  `placePlanScattered_followsPlan_iff` says when the scattered bytes still do
  what the plan does: three conditions, on the sizes the ops reserve, on the
  words branches were lifted from, and on the holes of blocks that fall
  through.
-/
import Armv8Encode.Isa.Aarch64.BranchMeaning
import Armv8Encode.Isa.Aarch64.FlowSoundness
import Armv8Encode.Rewrite.Editor.HoleRuns

namespace Armv8Encode

open Lib

abbrev AarchBlock := RewriteBlock Aarch64Mnemonic Register DecodedOperand AarchMacroKind

/-! ## §1. Offsets in the contiguous code. -/

/-- Bytes an op reserves. -/
def sourceSize (op : AarchOp) : Nat := (aarch64.sourceByteSize op).toNat

/-- Bytes reserved for the ops of a block before a position. -/
def offsetInBlock (block : AarchBlock) (i : Nat) : Nat := ((block.ops.take i).map sourceSize).sum

/-- Bytes reserved for a block. -/
def blockSize (block : AarchBlock) : Nat := (block.ops.map sourceSize).sum

/-- Bytes reserved for everything before an op. -/
def sourceOffset (plan : AarchPlan) (b i : Nat) : Nat :=
  ((plan.blocks.take b).map blockSize).sum
    + match plan.blocks[b]? with
      | some block => offsetInBlock block i
      | none => 0

theorem sourceOffset_eq {plan : AarchPlan} {b i : Nat} {block : AarchBlock}
    (hblock : plan.blocks[b]? = some block) :
    sourceOffset plan b i = ((plan.blocks.take b).map blockSize).sum + offsetInBlock block i := by
  simp only [sourceOffset, hblock]

theorem offsetInBlock_succ {block : AarchBlock} {i : Nat} {op : AarchOp}
    (hop : block.ops[i]? = some op) :
    offsetInBlock block (i + 1) = offsetInBlock block i + sourceSize op := by
  simp [offsetInBlock, List.take_add_one, hop]

theorem offsetInBlock_length (block : AarchBlock) :
    offsetInBlock block block.ops.length = blockSize block := by
  simp [offsetInBlock, blockSize]

/-- The reserved sizes added up as 64-bit words. -/
theorem ofNat_offsetInBlock (block : AarchBlock) (i : Nat) :
    BitVec.ofNat 64 (offsetInBlock block i)
      = ((block.ops.take i).map aarch64.sourceByteSize).sum := by
  unfold offsetInBlock
  induction block.ops.take i with
  | nil => rfl
  | cons op ops ih =>
    rw [List.map_cons, List.sum_cons, List.map_cons, List.sum_cons, BitVec.ofNat_add, ih,
      sourceSize, BitVec.ofNat_toNat, BitVec.setWidth_eq]

/-! ## §2. What the ops of a plan emit. -/

/-- The op emits these bytes at an address, and no relocation. -/
def EmitsOp (ctx : EmitContext) (op : AarchOp) (address : U64) (bytes : List Byte) : Prop :=
  emitOp aarch64 op ⟨address, aarch64.sourceByteSize op, .normal⟩ ctx .empty = .ok ⟨bytes, []⟩

/-- What a laid-out op emits. -/
def EmitsLaidOut (ctx : EmitContext) (placed : AarchOp × InstructionLayout) (bytes : List Byte) :
    Prop :=
  emitOp aarch64 placed.1 placed.2 ctx .empty = .ok ⟨bytes, []⟩

/-- A run of ops without relocations appends what each of them emits. -/
theorem emitOps_pieces {ctx : EmitContext} {ops : List AarchOp} {ls : List InstructionLayout}
    (hlen : ops.length = ls.length) {out out' : EmitOutput}
    (h : emitOps aarch64 ctx ops ls out = .ok out') (hrelocs : out'.relocations = []) :
    out.relocations = [] ∧ ∃ pieces, List.Forall₂ (EmitsLaidOut ctx) (ops.zip ls) pieces
      ∧ out'.bytes = out.bytes ++ pieces.flatten := by
  induction ops generalizing ls out with
  | nil =>
    cases h
    exact ⟨hrelocs, [], .nil, by simp⟩
  | cons op ops ih =>
    cases ls with
    | nil => cases hlen
    | cons l ls =>
      obtain ⟨mid, hop, hrest⟩ := bind_eq_ok.mp h
      obtain ⟨hmid, pieces, hpieces, hbytes⟩ := ih (Nat.succ.inj hlen) hrest
      rw [emitOp_append aarch64_macroFrame] at hop
      obtain ⟨piece, hpiece, rfl⟩ := map_eq_ok.mp hop
      obtain ⟨hout, hmapped⟩ := List.append_eq_nil_iff.mp hmid
      have hnone : piece.relocations = [] := List.map_eq_nil_iff.mp hmapped
      obtain ⟨bytes, relocations⟩ := piece
      cases hnone
      refine ⟨hout, bytes :: pieces, .cons hpiece hpieces, ?_⟩
      rw [hbytes, EmitOutput.bytes_append, List.flatten_cons, List.append_assoc]

/-- The blocks of a plan without relocations append what their ops emit. -/
theorem emitBlocks_pieces {ctx : EmitContext} {blocks : List AarchBlock}
    {layouts : List (List InstructionLayout)}
    (hshape : List.Forall₂ (fun block ls => block.ops.length = ls.length) blocks layouts)
    {out out' : EmitOutput} (h : emitBlocks aarch64 ctx blocks layouts out = .ok out')
    (hrelocs : out'.relocations = []) :
    out.relocations = [] ∧ ∃ pieces : List (List (List Byte)),
      List.Forall₂ (fun placed => List.Forall₂ (EmitsLaidOut ctx)
        (placed.1.ops.zip placed.2)) (blocks.zip layouts) pieces
      ∧ out'.bytes = out.bytes ++ (pieces.map List.flatten).flatten := by
  induction hshape generalizing out with
  | nil =>
    cases h
    exact ⟨hrelocs, [], .nil, by simp⟩
  | @cons block ls blocks layouts hblock _ ih =>
    obtain ⟨mid, hops, hrest⟩ := bind_eq_ok.mp h
    obtain ⟨hmid, pieces, hpieces, hbytes⟩ := ih hrest
    obtain ⟨hout, first, hfirst, hmidBytes⟩ := emitOps_pieces hblock hops hmid
    refine ⟨hout, first :: pieces, .cons hfirst hpieces, ?_⟩
    rw [hbytes, hmidBytes, List.map_cons, List.flatten_cons, List.append_assoc]

/-! ## §3. The layout of scattered blocks. -/

/-- What the ops of a scattered plan are emitted against. -/
def scatterContext (vas : List Nat) (c : Container) : EmitContext where
  blockAddresses := vas.map (BitVec.ofNat 64)
  container := some c
  currentSection := currentSectionAt (some c) ((vas.map (BitVec.ofNat 64)).head?.getD 0)

theorem getElem?_assignBlock (current : U64) (ls : List InstructionLayout) (i : Nat) :
    (assignBlock current ls).1[i]? = ls[i]?.map fun l =>
      { l with address := current + ((ls.take i).map InstructionLayout.size).sum } := by
  induction ls generalizing current i with
  | nil => rfl
  | cons l ls ih =>
    cases i with
    | zero => simp [assignBlock]
    | succ i => simp [assignBlock, ih, BitVec.add_assoc]

/-- The layouts a scattered placement gives to the ops of one block. -/
def scatteredBlock (va : Nat) (block : AarchBlock) : List InstructionLayout :=
  (assignBlock (BitVec.ofNat 64 va)
    (block.ops.map fun op => ⟨0, aarch64.sourceByteSize op, .normal⟩)).1

theorem scatteredBlock_reserves (va : Nat) (block : AarchBlock) :
    List.Forall₂ (Reserves aarch64) block.ops (scatteredBlock va block) := by
  refine assignBlock_reserves ?_ _
  rw [List.forall₂_map_right_iff]
  exact List.forall₂_same.mpr fun op _ => rfl

theorem getElem?_scatteredBlock {va i : Nat} {block : AarchBlock} {op : AarchOp}
    (hop : block.ops[i]? = some op) :
    (scatteredBlock va block)[i]?
      = some ⟨BitVec.ofNat 64 (va + offsetInBlock block i), aarch64.sourceByteSize op, .normal⟩ := by
  rw [scatteredBlock, getElem?_assignBlock, List.getElem?_map, hop, BitVec.ofNat_add,
    ofNat_offsetInBlock, ← List.map_take, List.map_map]
  rfl

/-- A scattered layout widens nothing: every op is where its block puts it. -/
theorem layOutScattered_layouts {plan : AarchPlan} {vas : List Nat} {c : Container}
    {layout : Layout} (hlen : vas.length = plan.blocks.length)
    (h : layOutScattered aarch64 plan (vas.map (BitVec.ofNat 64)) (some c) = .ok layout) :
    layout.context (some c) = scatterContext vas c
      ∧ layout.instructionLayouts = List.zipWith scatteredBlock vas plan.blocks := by
  have hplaced : List.zipWith (fun address ls => (assignBlock address ls).1)
      (vas.map (BitVec.ofNat 64)) (initialLayouts aarch64 plan)
      = List.zipWith scatteredBlock vas plan.blocks := by
    rw [initialLayouts, List.zipWith_map]
    rfl
  have hreserves : ReservesAll aarch64 plan.blocks
      (List.zipWith scatteredBlock vas plan.blocks) := by
    refine List.forall₂_iff_get.mpr ⟨by simp [hlen], ?_⟩
    intro b hb hb'
    simp only [List.get_eq_getElem, List.getElem_zipWith]
    exact scatteredBlock_reserves _ _
  unfold layOutScattered at h
  rw [List.length_map, if_neg (by omega)] at h
  simp only [hplaced] at h
  split at h
  · cases h
  · next widened grew hwiden =>
    split at h
    · cases h
    · next hgrew =>
      cases h
      refine ⟨rfl, ?_⟩
      exact (widenBlocks_spec hreserves hwiden).2 (by simpa using hgrew)

/-- What the ops of a block emit, each at the address the block gives it. -/
structure BlockEmits (c : Container) (vas : List Nat) (block : AarchBlock) (va : Nat)
    (emitted : List (List Byte)) : Prop where
  length : emitted.length = block.ops.length
  ops : ∀ i op, block.ops[i]? = some op → ∃ bytes, emitted[i]? = some bytes
    ∧ EmitsOp (scatterContext vas c) op (BitVec.ofNat 64 (va + offsetInBlock block i)) bytes

/-- A scattered plan that emits without relocations: what its blocks emit, and
the output that makes. -/
theorem scattered_pieces {plan : AarchPlan} {vas : List Nat} {c : Container} {layout : Layout}
    {out : EmitOutput} (hlen : vas.length = plan.blocks.length)
    (hlayout : layOutScattered aarch64 plan (vas.map (BitVec.ofNat 64)) (some c) = .ok layout)
    (hemit : emit aarch64 plan layout (some c) = .ok out) (hrelocs : out.relocations = []) :
    ∃ pieces : List (List (List Byte)), out.bytes = (pieces.map List.flatten).flatten
      ∧ pieces.length = plan.blocks.length
      ∧ ∀ (b : Nat) (block : AarchBlock) (va : Nat), plan.blocks[b]? = some block →
        vas[b]? = some va → ∃ emitted, pieces[b]? = some emitted
          ∧ BlockEmits c vas block va emitted := by
  obtain ⟨hctx, hlayouts⟩ := layOutScattered_layouts hlen hlayout
  have hshape : List.Forall₂ (fun block ls => block.ops.length = ls.length) plan.blocks
      (List.zipWith scatteredBlock vas plan.blocks) := by
    refine List.forall₂_iff_get.mpr ⟨by simp [hlen], ?_⟩
    intro b hb hb'
    simp only [List.get_eq_getElem, List.getElem_zipWith]
    exact (scatteredBlock_reserves _ _).length_eq
  rw [emit, hctx, hlayouts] at hemit
  obtain ⟨-, pieces, hpieces, hbytes⟩ := emitBlocks_pieces hshape hemit hrelocs
  refine ⟨pieces, by simpa using hbytes, ?_, ?_⟩
  · rw [← hpieces.length_eq]
    simp [hlen]
  · intro b block va hblock hva
    have hat : (plan.blocks.zip (List.zipWith scatteredBlock vas plan.blocks))[b]?
        = some (block, scatteredBlock va block) := by
      rw [List.getElem?_zip_eq_some]
      refine ⟨hblock, ?_⟩
      rw [List.getElem?_zipWith, hva, hblock]
    obtain ⟨emitted, hemitted, hops⟩ := exists_getElem?_of_forall₂ hpieces hat
    refine ⟨emitted, hemitted, ?_, ?_⟩
    · rw [← hops.length_eq, List.length_zip, ← (scatteredBlock_reserves va block).length_eq,
        Nat.min_self]
    · intro i op hop
      have hopAt : (block.ops.zip (scatteredBlock va block))[i]?
          = some (op, ⟨BitVec.ofNat 64 (va + offsetInBlock block i),
              aarch64.sourceByteSize op, .normal⟩) := by
        rw [List.getElem?_zip_eq_some]
        exact ⟨hop, getElem?_scatteredBlock hop⟩
      exact exists_getElem?_of_forall₂ hops hopAt

/-! ## §4. Sizes. -/

/-- An op reserves as many bytes as it becomes. -/
def ReservesExactly (ctx : EmitContext) (op : AarchOp) (address : U64) : Prop :=
  match op with
  | .instruction i => (aarch64.sizeOf i).toNat = 4
  | .macroOp m =>
    (aarch64.macroSourceSize m.originalInstructions).toNat
      = if (verbatimMacro m address ctx).isSome then 4 * m.originalInstructions.length else 8
  | .raw bytes => bytes.length < 2 ^ 64

theorem reservesExactly_iff {ctx : EmitContext} {op : AarchOp} {address : U64}
    {bytes : List Byte} (h : EmitsOp ctx op address bytes) :
    ReservesExactly ctx op address ↔ bytes.length = sourceSize op := by
  have hlen : bytes.length = emittedSize ctx op ⟨address, aarch64.sourceByteSize op, .normal⟩ :=
    emittedSize_op h rfl
  rw [hlen]
  cases op with
  | instruction i =>
    show (aarch64.sizeOf i).toNat = 4 ↔ 4 = (aarch64.sizeOf i).toNat
    exact eq_comm
  | macroOp m =>
    simp only [emittedSize, ReservesExactly, sourceSize, Isa.sourceByteSize]
    cases hv : verbatimMacro m address ctx with
    | some raw =>
      rw [Option.isSome_some, if_pos rfl, ← verbatimMacro_length hv]
      exact eq_comm
    | none => exact eq_comm
  | raw bytes =>
    show bytes.length < 2 ^ 64 ↔ bytes.length = (BitVec.ofNat 64 bytes.length).toNat
    rw [BitVec.toNat_ofNat]
    omega

/-! ## §5. Where a block is left. -/

/-- Mnemonics after which execution never goes on in sequence. -/
def Aarch64Mnemonic.leavesSequence : Aarch64Mnemonic → Bool
  | .b | .br | .ret | .eret | .drps => true
  | .other name => ["braaz", "brabz", "braa", "brab", "retaa", "retab"].contains name
  | _ => false

/-- The op is an unconditional transfer; raw bytes are read as words. -/
def transfers : AarchOp → Bool
  | .instruction i => i.mnemonic.leavesSequence
  | .macroOp _ => false
  | .raw bytes =>
    match leWord? (bytes.drop (bytes.length - 4)) with
    | some w => (Aarch64.archFlow 0 w).leaves
    | none => false

/-- The last op of a block is an unconditional transfer. -/
def endsInTransfer (block : AarchBlock) : Bool :=
  match block.ops.getLast? with
  | some op => transfers op
  | none => false

namespace Editor

/-! ## §6. Holes that adjoin. -/

/-- Once a block has its hole, the hole that fits the next block best begins
where the block ends. -/
def Adjoins (holes : List Hole) (sizes : List Nat) (b : Nat) : Prop :=
  ∃ pool vas size next hole idx hole' idx', sizes[b]? = some size ∧ sizes[b + 1]? = some next
    ∧ takeHoles holes (sizes.take b) = some (vas, pool) ∧ RoomFor pool size hole idx
    ∧ RoomFor (afterTaking pool hole idx (alignUp size 4)) next hole' idx'
    ∧ hole'.vaddr = hole.vaddr + size

/-- Requests in a row, cut at one of them. -/
theorem takeHoles_cut {holes rest : List Hole} {needs vas : List Nat} {b need : Nat}
    (h : takeHoles holes needs = some (vas, rest)) (hb : needs[b]? = some need) :
    ∃ pool va after, takeHoles holes (needs.take b) = some (vas.take b, pool)
      ∧ takeHole pool need = some (va, after) ∧ vas[b]? = some va
      ∧ takeHoles after (needs.drop (b + 1)) = some (vas.drop (b + 1), rest) := by
  induction needs generalizing holes vas b with
  | nil => cases hb
  | cons first needs ih =>
    obtain ⟨va, after, vas', htake, hrest, rfl⟩ := takeHoles_cons h
    cases b with
    | zero =>
      cases hb
      exact ⟨holes, va, after, rfl, htake, rfl, hrest⟩
    | succ b =>
      obtain ⟨pool, va', after', hbefore, hhere, hva, hlater⟩ := ih hrest hb
      refine ⟨pool, va', after', ?_, hhere, hva, hlater⟩
      rw [List.take_succ_cons, takeHoles, htake]
      simp only [hbefore, List.take_succ_cons]

/-- A block's hole is where the block before ends exactly when the two adjoin. -/
theorem adjoins_iff {holes rest : List Hole} {sizes vas : List Nat} {b size va next : Nat}
    (htake : takeHoles holes sizes = some (vas, rest)) (hsize : sizes[b]? = some size)
    (hva : vas[b]? = some va) (hnext : vas[b + 1]? = some next) :
    Adjoins holes sizes b ↔ va + size = next := by
  have hlt : b + 1 < sizes.length := by
    rw [← takeHoles_length htake]
    exact (List.getElem?_eq_some_iff.mp hnext).1
  obtain ⟨pool, va', after, hbefore, hhere, hva', hlater⟩ := takeHoles_cut htake hsize
  rw [hva] at hva'
  cases hva'
  obtain ⟨hole, idx, hbest, hchosen, rfl, rfl⟩ := takeHole_cases hhere
  have hroom : RoomFor pool size hole idx := ⟨Nat.ne_of_gt hchosen.pos, hbest⟩
  rw [List.drop_eq_getElem_cons hlt] at hlater
  obtain ⟨va₂, after₂, vas₂, hnextHere, -, hvas⟩ := takeHoles_cons hlater
  have hva₂ : va₂ = next := by
    have hhead := congrArg List.head? hvas
    rw [List.head?_drop, hnext] at hhead
    exact (Option.some.inj hhead).symm
  subst hva₂
  obtain ⟨hole₂, idx₂, hbest₂, hchosen₂, rfl, -⟩ := takeHole_cases hnextHere
  have hroom₂ : RoomFor (afterTaking pool hole idx (alignUp size 4)) sizes[b + 1] hole₂ idx₂ :=
    ⟨Nat.ne_of_gt hchosen₂.pos, hbest₂⟩
  constructor
  · rintro ⟨pool', vas', size', next', hole', idx', hole₂', idx₂', hsize', hnext', hbefore', hroom',
      hroom₂', hadjoins⟩
    -- everything the requests meet is determined by the pool they start from
    rw [hsize] at hsize'
    cases hsize'
    rw [hbefore] at hbefore'
    cases hbefore'
    have hsame := hroom.2.symm.trans hroom'.2
    cases hsame
    rw [List.getElem?_eq_getElem hlt] at hnext'
    cases hnext'
    have hsame₂ := hroom₂.2.symm.trans hroom₂'.2
    cases hsame₂
    exact hadjoins.symm
  · intro hends
    exact ⟨pool, vas.take b, size, sizes[b + 1], hole, idx, hole₂, idx₂, hsize,
      List.getElem?_eq_getElem hlt, hbefore, hroom, hroom₂, hends.symm⟩

/-! ## §7. What the scattered bytes do. -/

/-- The address an offset in the contiguous code has, for an op of a block. -/
def ScatterPlacement.addressOf (p : ScatterPlacement) (b offset : Nat) : Option Nat := do
  let va ← p.blockVas[b]?
  let start ← p.blockOffsets[b]?
  some (va + (offset - start))

/-- The overlays one edit adds. -/
def BinaryEditor.newOverlays (before after : BinaryEditor) : List (Nat × List Byte) :=
  ((after.text.map LiftedText.overlays).getD []).drop
    ((before.text.map LiftedText.overlays).getD []).length

/-- The scattered bytes do what the plan does. -/
structure FollowsPlan (plan : AarchPlan) (c : Container) (p : ScatterPlacement)
    (put : List (Nat × List Byte)) : Prop where
  /-- Past the last byte of a block that falls through comes the next block. -/
  fallsThrough : ∀ (b : Nat) (block : AarchBlock) slice next, plan.blocks[b]? = some block →
    endsInTransfer block = false → put[b]? = some slice → p.blockVas[b + 1]? = some next →
      slice.1 + slice.2.length = next
  /-- A branch to a block reaches the address of that block. -/
  branches : ∀ (b i : Nat) (block : AarchBlock) instr row t, plan.blocks[b]? = some block →
    block.ops[i]? = some (.instruction instr) → branchRow instr.mnemonic = some row →
    instr.pcRelativeTarget = some (.block t) →
      ∃ here target slice, p.addressOf b (sourceOffset plan b i) = some here
        ∧ p.blockVas[t.index]? = some target ∧ put[b]? = some slice
        ∧ BranchesTo (BitVec.ofNat 64 here) (slice.2.drop (here - slice.1)) (BitVec.ofNat 64 target)
  /-- A block's bytes are those of its ops in order, each emitted for the
  address where its bytes begin, which is the one its offset is mapped to. -/
  mapped : ∀ (b : Nat) (block : AarchBlock) va, plan.blocks[b]? = some block →
    p.blockVas[b]? = some va → ∃ pieces : List (List Byte),
      put[b]? = some (va, pieces.flatten) ∧ pieces.length = block.ops.length
      ∧ ∀ i op, block.ops[i]? = some op → ∃ bytes, pieces[i]? = some bytes
        ∧ p.addressOf b (sourceOffset plan b i) = some (va + (pieces.take i).flatten.length)
        ∧ EmitsOp (scatterContext p.blockVas c) op
          (BitVec.ofNat 64 (va + (pieces.take i).flatten.length)) bytes

/-- When scattering keeps the control flow of a plan, its blocks at the given
addresses. -/
structure FlowKept (plan : AarchPlan) (c : Container) (holes : List Hole) (vas : List Nat) :
    Prop where
  /-- Every op reserves as many bytes as it becomes. -/
  reserved : ∀ (b i : Nat) (block : AarchBlock) op va, plan.blocks[b]? = some block →
    block.ops[i]? = some op → vas[b]? = some va →
      ReservesExactly (scatterContext vas c) op (BitVec.ofNat 64 (va + offsetInBlock block i))
  /-- A branch put back at the address it was lifted from finds a word there
  that decodes. -/
  sources : ∀ (b i : Nat) (block : AarchBlock) instr row t va, plan.blocks[b]? = some block →
    block.ops[i]? = some (.instruction instr) → branchRow instr.mnemonic = some row →
    instr.pcRelativeTarget = some (.block t) → vas[b]? = some va →
      SourceDecodes (some c) instr (BitVec.ofNat 64 (va + offsetInBlock block i))
  /-- A block that falls through gets a hole right before that of the next. -/
  adjoins : ∀ (b : Nat) (block : AarchBlock), plan.blocks[b]? = some block →
    b + 1 < plan.blocks.length → endsInTransfer block = false →
      Adjoins holes (plan.blocks.map blockSize) b

/-! ## §8. The code of a placement. -/

theorem getElem?_blockOffsets (off : Nat) (sizes : List Nat) {b size : Nat}
    (h : sizes[b]? = some size) :
    (blockOffsets off sizes)[b]? = some (off + (sizes.take b).sum) := by
  induction sizes generalizing off b with
  | nil => cases h
  | cons first sizes ih =>
    cases b with
    | zero => simp [blockOffsets]
    | succ b =>
      rw [blockOffsets, List.getElem?_cons_succ, ih (off + first) h, List.take_succ_cons,
        List.sum_cons, Nat.add_assoc]

/-- Slices at the sizes of the parts are the parts. -/
theorem scatterOverlays_parts (vas : List Nat) (parts : List (List Byte)) :
    scatterOverlays vas (parts.map List.length) parts.flatten = vas.zip parts := by
  induction parts generalizing vas with
  | nil =>
    cases vas with
    | nil => rfl
    | cons va vas => rfl
  | cons part parts ih =>
    cases vas with
    | nil => rfl
    | cons va vas =>
      rw [List.map_cons, List.flatten_cons, scatterOverlays, List.take_left, List.drop_left, ih]
      rfl

/-- What a placement wrote: slices of the bytes its ops emitted. -/
structure ScatteredCode (plan : AarchPlan) (c : Container) (holes : List Hole)
    (p : ScatterPlacement) (put : List (Nat × List Byte)) (pieces : List (List (List Byte))) :
    Prop where
  taken : ∃ rest, takeHoles holes (plan.blocks.map blockSize) = some (p.blockVas, rest)
  offsets : p.blockOffsets = blockOffsets 0 (plan.blocks.map blockSize)
  slices : put = scatterOverlays p.blockVas (plan.blocks.map blockSize)
    (pieces.map List.flatten).flatten
  enough : (plan.blocks.map blockSize).sum ≤ (pieces.map List.flatten).flatten.length
  blocks : pieces.length = plan.blocks.length
  emits : ∀ (b : Nat) (block : AarchBlock) va, plan.blocks[b]? = some block →
    p.blockVas[b]? = some va → ∃ emitted, pieces[b]? = some emitted
      ∧ BlockEmits c p.blockVas block va emitted

theorem scatteredCode_of_placed {ed ed' : BinaryEditor} {name : String} {plan : AarchPlan}
    {holes holes' : List Hole} {placement : ScatterPlacement}
    (h : ed.placePlanScattered name (.ofAarch plan) holes
      = some (.ok (some placement), ed', holes')) :
    ∃ pieces, ScatteredCode plan ed.binary.container holes placement (ed.newOverlays ed') pieces := by
  obtain ⟨text, layout, out, htext, htake, hlayout, hemit, hrelocs, henough, hoffsets, htext'⟩ :=
    placePlanScattered_placed h
  have hlen : placement.blockVas.length = plan.blocks.length := by
    rw [takeHoles_length htake]
    exact List.length_map _
  obtain ⟨pieces, hbytes, hblocks, hemits⟩ :=
    scattered_pieces hlen hlayout (emit_of_ofAarch hemit) hrelocs
  refine ⟨pieces, ⟨_, htake⟩, hoffsets, ?_, hbytes ▸ henough, hblocks, hemits⟩
  rw [BinaryEditor.newOverlays, htext, htext', ← hbytes]
  exact List.drop_left

namespace ScatteredCode

variable {plan : AarchPlan} {c : Container} {holes : List Hole} {p : ScatterPlacement}
  {put : List (Nat × List Byte)} {pieces : List (List (List Byte))} {b i va : Nat}
  {block : AarchBlock}

theorem blockVas_length (h : ScatteredCode plan c holes p put pieces) :
    p.blockVas.length = plan.blocks.length := by
  obtain ⟨rest, htake⟩ := h.taken
  rw [takeHoles_length htake, List.length_map]

theorem exists_va (h : ScatteredCode plan c holes p put pieces)
    (hblock : plan.blocks[b]? = some block) : ∃ va, p.blockVas[b]? = some va := by
  have hlt := (List.getElem?_eq_some_iff.mp hblock).1
  rw [← h.blockVas_length] at hlt
  exact ⟨_, List.getElem?_eq_getElem hlt⟩

/-- The mapping of an op's offset, whatever the op emits. -/
theorem addressOf_eq (h : ScatteredCode plan c holes p put pieces)
    (hblock : plan.blocks[b]? = some block) (hva : p.blockVas[b]? = some va) :
    p.addressOf b (sourceOffset plan b i) = some (va + offsetInBlock block i) := by
  have hsize : (plan.blocks.map blockSize)[b]? = some (blockSize block) := by
    rw [List.getElem?_map, hblock]
    rfl
  have hstart := getElem?_blockOffsets 0 _ hsize
  rw [← h.offsets] at hstart
  simp only [ScatterPlacement.addressOf, hva, hstart, bind, Option.bind]
  rw [sourceOffset_eq hblock, ← List.map_take, Nat.zero_add, Nat.add_sub_cancel_left]

/-- Every block has a slice of its size. -/
theorem exists_slice (h : ScatteredCode plan c holes p put pieces)
    (hblock : plan.blocks[b]? = some block) (hva : p.blockVas[b]? = some va) :
    ∃ slice, put[b]? = some (va, slice) ∧ slice.length = blockSize block := by
  obtain ⟨rest, htake⟩ := h.taken
  obtain ⟨slices, heq, hlen, hexact⟩ :=
    scatterOverlays_eq_zip _ (takeHoles_length htake) h.enough
  have hlt := (List.getElem?_eq_some_iff.mp hva).1
  rw [← hlen] at hlt
  have hat : slices[b]? = some slices[b] := List.getElem?_eq_getElem hlt
  obtain ⟨size, hsize, hslice⟩ := exists_getElem?_of_forall₂ hexact hat
  rw [List.getElem?_map, hblock] at hsize
  cases hsize
  refine ⟨slices[b], ?_, hslice⟩
  rw [h.slices, heq, List.getElem?_zip_eq_some]
  exact ⟨hva, hat⟩

/-- Pieces as long as the ops reserve begin where the ops are put. -/
theorem length_take_flatten {emitted : List (List Byte)}
    (hlen : emitted.length = block.ops.length)
    (hsizes : ∀ (i : Nat) op, block.ops[i]? = some op → ∃ bytes : List Byte,
      emitted[i]? = some bytes ∧ bytes.length = sourceSize op) (i : Nat) :
    (emitted.take i).flatten.length = offsetInBlock block i := by
  have hmap : emitted.map List.length = block.ops.map sourceSize := by
    refine List.ext_getElem? fun j => ?_
    rw [List.getElem?_map, List.getElem?_map]
    cases hop : block.ops[j]? with
    | none =>
      rw [List.getElem?_eq_none_iff, ← hlen, ← List.getElem?_eq_none_iff] at hop
      rw [hop]
      rfl
    | some op =>
      obtain ⟨bytes, hat, hbytes⟩ := hsizes j op hop
      rw [hat, Option.map_some, Option.map_some, hbytes]
  rw [List.length_flatten, List.map_take, hmap, offsetInBlock, List.map_take]

/-- With every op as long as it reserves, the slices are the blocks. -/
theorem slice_eq (h : ScatteredCode plan c holes p put pieces)
    (hreserved : ∀ (b i : Nat) (block : AarchBlock) op va, plan.blocks[b]? = some block →
      block.ops[i]? = some op → p.blockVas[b]? = some va →
        ReservesExactly (scatterContext p.blockVas c) op
          (BitVec.ofNat 64 (va + offsetInBlock block i)))
    (hblock : plan.blocks[b]? = some block) (hva : p.blockVas[b]? = some va) :
    ∃ emitted, put[b]? = some (va, emitted.flatten) ∧ BlockEmits c p.blockVas block va emitted
      ∧ ∀ i, (emitted.take i).flatten.length = offsetInBlock block i := by
  -- every block's pieces together are as long as the block
  have hexact : ∀ (b : Nat) (block : AarchBlock) va, plan.blocks[b]? = some block →
      p.blockVas[b]? = some va → ∃ emitted, pieces[b]? = some emitted
        ∧ BlockEmits c p.blockVas block va emitted
        ∧ ∀ i, (emitted.take i).flatten.length = offsetInBlock block i := by
    intro b block va hblock hva
    obtain ⟨emitted, hat, hemits⟩ := h.emits b block va hblock hva
    refine ⟨emitted, hat, hemits, length_take_flatten hemits.length ?_⟩
    intro i op hop
    obtain ⟨bytes, hbytes, hpiece⟩ := hemits.ops i op hop
    exact ⟨bytes, hbytes, (reservesExactly_iff hpiece).mp (hreserved b i block op va hblock hop hva)⟩
  have hsizes : plan.blocks.map blockSize = (pieces.map List.flatten).map List.length := by
    refine List.ext_getElem? fun j => ?_
    rw [List.map_map, List.getElem?_map, List.getElem?_map]
    cases hblock : plan.blocks[j]? with
    | none =>
      rw [List.getElem?_eq_none_iff, ← h.blocks, ← List.getElem?_eq_none_iff] at hblock
      rw [hblock]
      rfl
    | some block =>
      obtain ⟨va, hva⟩ := h.exists_va hblock
      obtain ⟨emitted, hat, hemits, hfront⟩ := hexact j block va hblock hva
      have hall := hfront emitted.length
      rw [List.take_length, hemits.length, offsetInBlock_length] at hall
      rw [hat, Option.map_some, Option.map_some, Function.comp_apply, hall]
  obtain ⟨emitted, hat, hemits, hfront⟩ := hexact b block va hblock hva
  refine ⟨emitted, ?_, hemits, hfront⟩
  rw [h.slices, hsizes, scatterOverlays_parts, List.getElem?_zip_eq_some]
  refine ⟨hva, ?_⟩
  rw [List.getElem?_map, hat]
  rfl

/-! ### The three conditions. -/

/-- Where every block's bytes are those of its ops, each at its mapped address,
every op became as long as it reserves. -/
theorem reserved_of_mapped (h : ScatteredCode plan c holes p put pieces)
    (hflow : FollowsPlan plan c p put) {op : AarchOp} (hblock : plan.blocks[b]? = some block)
    (hop : block.ops[i]? = some op) (hva : p.blockVas[b]? = some va) :
    ReservesExactly (scatterContext p.blockVas c) op
      (BitVec.ofNat 64 (va + offsetInBlock block i)) := by
  obtain ⟨parts, hput, hlen, hops⟩ := hflow.mapped b block va hblock hva
  have hfront : ∀ j ≤ block.ops.length,
      (parts.take j).flatten.length = offsetInBlock block j := by
    intro j hj
    rcases Nat.lt_or_ge j block.ops.length with hlt | hge
    · obtain ⟨-, -, hmapped, -⟩ := hops j _ (List.getElem?_eq_getElem hlt)
      rw [h.addressOf_eq hblock hva] at hmapped
      have := Option.some.inj hmapped
      omega
    · obtain rfl : j = block.ops.length := Nat.le_antisymm hj hge
      obtain ⟨slice, hslice, hsize⟩ := h.exists_slice hblock hva
      rw [hput] at hslice
      cases hslice
      rw [offsetInBlock_length, ← hlen, List.take_length, hsize]
  obtain ⟨bytes, hbytes, -, hemits⟩ := hops i op hop
  have hi := (List.getElem?_eq_some_iff.mp hop).1
  have hhere := hfront i hi.le
  have hnext := hfront (i + 1) hi
  rw [List.take_add_one, hbytes, Option.toList_some, List.flatten_append, List.length_append,
    offsetInBlock_succ hop, hhere] at hnext
  rw [hhere] at hemits
  refine (reservesExactly_iff hemits).mpr ?_
  simpa using hnext

/-- With every op as long as it reserves, a branch reaches its block exactly
when no stale word was copied in its place. -/
theorem branchesTo_iff (h : ScatteredCode plan c holes p put pieces)
    (hreserved : ∀ (b i : Nat) (block : AarchBlock) op va, plan.blocks[b]? = some block →
      block.ops[i]? = some op → p.blockVas[b]? = some va →
        ReservesExactly (scatterContext p.blockVas c) op
          (BitVec.ofNat 64 (va + offsetInBlock block i)))
    {instr : AarchInstruction} {row : Aarch64Opcode} {t : BasicBlockId}
    (hblock : plan.blocks[b]? = some block) (hop : block.ops[i]? = some (.instruction instr))
    (hrow : branchRow instr.mnemonic = some row)
    (ht : instr.pcRelativeTarget = some (.block t)) (hva : p.blockVas[b]? = some va) :
    (∃ here target slice, p.addressOf b (sourceOffset plan b i) = some here
        ∧ p.blockVas[t.index]? = some target ∧ put[b]? = some slice
        ∧ BranchesTo (BitVec.ofNat 64 here) (slice.2.drop (here - slice.1))
          (BitVec.ofNat 64 target))
      ↔ SourceDecodes (some c) instr (BitVec.ofNat 64 (va + offsetInBlock block i)) := by
  obtain ⟨emitted, hput, hemits, hfront⟩ := h.slice_eq hreserved hblock hva
  obtain ⟨bytes, hbytes, hpiece⟩ := hemits.ops i _ hop
  -- the slice from the op on
  have hdrop : emitted.flatten.drop (offsetInBlock block i)
      = bytes ++ (emitted.drop (i + 1)).flatten := by
    conv_lhs => rw [eq_take_cons_drop hbytes, List.flatten_append, List.flatten_cons]
    rw [← hfront i, List.drop_left]
  have hbranch := emitInstruction_branchesTo_iff hrow ht rfl hpiece
    (emitted.drop (i + 1)).flatten
  rw [← hdrop] at hbranch
  refine Iff.trans ?_ hbranch
  constructor
  · rintro ⟨here, target, slice, hhere, htarget, hslice, hto⟩
    rw [h.addressOf_eq hblock hva] at hhere
    cases hhere
    rw [hput] at hslice
    cases hslice
    rw [Nat.add_sub_cancel_left] at hto
    refine ⟨BitVec.ofNat 64 target, ?_, hto⟩
    simp only [resolveTarget, scatterContext, List.getElem?_map, htarget, Option.map_some]
  · rintro ⟨target, hresolve, hto⟩
    simp only [resolveTarget, scatterContext, List.getElem?_map] at hresolve
    cases htarget : p.blockVas[t.index]? with
    | none =>
      rw [htarget] at hresolve
      cases hresolve
    | some va' =>
      rw [htarget] at hresolve
      cases hresolve
      refine ⟨_, va', _, h.addressOf_eq hblock hva, rfl, hput, ?_⟩
      rw [Nat.add_sub_cancel_left]
      exact hto

/-- A block is followed by the next one exactly when their holes adjoin. -/
theorem fallsThrough_iff (h : ScatteredCode plan c holes p put pieces)
    (hblock : plan.blocks[b]? = some block) (hlt : b + 1 < plan.blocks.length) :
    (∀ slice next, put[b]? = some slice → p.blockVas[b + 1]? = some next →
        slice.1 + slice.2.length = next)
      ↔ Adjoins holes (plan.blocks.map blockSize) b := by
  obtain ⟨rest, htake⟩ := h.taken
  obtain ⟨va, hva⟩ := h.exists_va hblock
  obtain ⟨next, hnext⟩ := h.exists_va (List.getElem?_eq_getElem hlt)
  obtain ⟨slice, hslice, hsize⟩ := h.exists_slice hblock hva
  have hat : (plan.blocks.map blockSize)[b]? = some (blockSize block) := by
    rw [List.getElem?_map, hblock]
    rfl
  rw [adjoins_iff htake hat hva hnext]
  constructor
  · intro hall
    have := hall _ next hslice hnext
    rwa [hsize] at this
  · intro hends slice' next' hslice' hnext'
    rw [hslice] at hslice'
    cases hslice'
    rw [hnext] at hnext'
    cases hnext'
    rw [hsize]
    exact hends

theorem followsPlan_iff (h : ScatteredCode plan c holes p put pieces) :
    FollowsPlan plan c p put ↔ FlowKept plan c holes p.blockVas := by
  constructor
  · intro hflow
    have hreserved : ∀ (b i : Nat) (block : AarchBlock) op va, plan.blocks[b]? = some block →
        block.ops[i]? = some op → p.blockVas[b]? = some va →
          ReservesExactly (scatterContext p.blockVas c) op
            (BitVec.ofNat 64 (va + offsetInBlock block i)) :=
      fun b i block op va hblock hop hva => h.reserved_of_mapped hflow hblock hop hva
    refine ⟨hreserved, ?_, ?_⟩
    · intro b i block instr row t va hblock hop hrow ht hva
      exact (h.branchesTo_iff hreserved hblock hop hrow ht hva).mp
        (hflow.branches b i block instr row t hblock hop hrow ht)
    · intro b block hblock hlt hfalls
      exact (h.fallsThrough_iff hblock hlt).mp
        (fun slice next => hflow.fallsThrough b block slice next hblock hfalls)
  · intro hkept
    refine ⟨?_, ?_, ?_⟩
    · intro b block slice next hblock hfalls hslice hnext
      have hlt : b + 1 < plan.blocks.length := by
        rw [← h.blockVas_length]
        exact (List.getElem?_eq_some_iff.mp hnext).1
      exact (h.fallsThrough_iff hblock hlt).mpr (hkept.adjoins b block hblock hlt hfalls)
        slice next hslice hnext
    · intro b i block instr row t hblock hop hrow ht
      obtain ⟨va, hva⟩ := h.exists_va hblock
      exact (h.branchesTo_iff hkept.reserved hblock hop hrow ht hva).mpr
        (hkept.sources b i block instr row t va hblock hop hrow ht hva)
    · intro b block va hblock hva
      obtain ⟨emitted, hput, hemits, hfront⟩ := h.slice_eq hkept.reserved hblock hva
      refine ⟨emitted, hput, hemits.length, ?_⟩
      intro i op hop
      obtain ⟨bytes, hbytes, hpiece⟩ := hemits.ops i op hop
      rw [hfront i]
      exact ⟨bytes, hbytes, h.addressOf_eq hblock hva, hpiece⟩

end ScatteredCode

/-! ## §9. Placements. -/

/-- **Scattered code follows its plan** exactly when every op reserves as many
bytes as it becomes, no branch is put back over a word that does not decode,
and the holes of a block that falls through and of the next adjoin. -/
theorem placePlanScattered_followsPlan_iff (ed ed' : BinaryEditor) (name : String)
    (plan : AarchPlan) (holes holes' : List Hole) (placement : ScatterPlacement)
    (h : ed.placePlanScattered name (.ofAarch plan) holes
      = some (.ok (some placement), ed', holes')) :
    FollowsPlan plan ed.binary.container placement (ed.newOverlays ed') ↔
      ∃ vas rest, takeHoles holes (plan.blocks.map blockSize) = some (vas, rest)
        ∧ FlowKept plan ed.binary.container holes vas := by
  obtain ⟨pieces, hcode⟩ := scatteredCode_of_placed h
  obtain ⟨rest, htake⟩ := hcode.taken
  rw [hcode.followsPlan_iff]
  constructor
  · intro hkept
    exact ⟨_, rest, htake, hkept⟩
  · rintro ⟨vas, rest', htake', hkept⟩
    rw [htake] at htake'
    cases htake'
    exact hkept

/-- Two blocks of one `nop` each: the first falls into the second. -/
def fallingPlan : AarchPlan :=
  ⟨[⟨⟨0⟩, [.raw [0x1f, 0x20, 0x03, 0xd5]]⟩, ⟨⟨1⟩, [.raw [0x1f, 0x20, 0x03, 0xd5]]⟩]⟩

/-- In a single hole the second block comes right after the first. -/
theorem fallingPlan_oneHole :
    ∃ placement ed' holes',
      liftedEditor.placePlanScattered "stub" (.ofAarch fallingPlan) [⟨0x1000, 8⟩]
        = some (.ok (some placement), ed', holes')
      ∧ (FollowsPlan fallingPlan liftedEditor.binary.container placement
          (liftedEditor.newOverlays ed') ↔
        ∃ vas rest, takeHoles [⟨0x1000, 8⟩] (fallingPlan.blocks.map blockSize) = some (vas, rest)
          ∧ FlowKept fallingPlan liftedEditor.binary.container [⟨0x1000, 8⟩] vas) :=
  ⟨_, _, _, rfl, placePlanScattered_followsPlan_iff liftedEditor _ "stub" fallingPlan
    [⟨0x1000, 8⟩] _ _ rfl⟩

/-- In two holes apart, control leaves the first block for whatever stands
behind its hole. -/
theorem fallingPlan_twoHoles :
    ∃ placement ed' holes',
      liftedEditor.placePlanScattered "stub" (.ofAarch fallingPlan) [⟨0x1000, 4⟩, ⟨0x2000, 4⟩]
        = some (.ok (some placement), ed', holes')
      ∧ ¬FollowsPlan fallingPlan liftedEditor.binary.container placement
          (liftedEditor.newOverlays ed') := by
  refine ⟨_, _, _, rfl, ?_⟩
  intro hflow
  have hend := hflow.fallsThrough 0 _ (0x1000, [0x1f, 0x20, 0x03, 0xd5]) 0x2000 rfl rfl rfl rfl
  exact absurd hend (by decide)

end Editor

end Armv8Encode

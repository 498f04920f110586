/-
  Armv8Encode.Rewrite.PlainLift — rewriting swept code that is not fused.

  Where an instruction set fuses nothing, the plan of a sweep has one op for
  each instruction.  As long as every branch is in range at its own address,
  layout settles at once and puts every instruction back where it came from
  (`layOut_inPlace`), and emit runs over the instructions one after the other
  (`emit_inPlace`).

  Without a per-word decoder an instruction at its own address is copied, by
  the size its mnemonic implies (`verbatimBytes_blind`).
-/
import Armv8Encode.Mc.CfgSpec
import Armv8Encode.Rewrite.EmitSpec
import Armv8Encode.Rewrite.Targets

namespace Armv8Encode

open Lib

variable {Mn Rg Op E Mk Di D : Type}

/-! ## §1. The pipeline. -/

inductive PipelineError (D E : Type) where
  | disassemble (e : D)
  | layout (e : LayoutError)
  | emit (e : EmitError E)
  deriving Repr, DecidableEq

namespace Isa

/-- The plan of a sweep. -/
def planOf (I : Isa Mn Rg Op E Mk Di) (info : InstructionInfo Di) (instructions : List Di)
    (container : Option Container) : RewritePlan Mn Rg Op Mk :=
  liftInner I (buildCfg info instructions) instructions container

/-- Lay a plan out at an address and emit it. -/
def assemble [DecidableEq Mn] [DecidableEq Op] (I : Isa Mn Rg Op E Mk Di)
    (plan : RewritePlan Mn Rg Op Mk) (base : U64) (container : Option Container) :
    Except (PipelineError D E) EmitOutput :=
  match layOut I plan base container with
  | .error e => .error (.layout e)
  | .ok layout =>
    match emit I plan layout container with
    | .error e => .error (.emit e)
    | .ok out => .ok out

/-- Lift what a sweep returned, lay it out at an address and emit it. -/
def rewrite [DecidableEq Mn] [DecidableEq Op] (I : Isa Mn Rg Op E Mk Di)
    (info : InstructionInfo Di) (swept : Except D (List Di)) (base : U64)
    (container : Option Container) : Except (PipelineError D E) EmitOutput :=
  match swept with
  | .error e => .error (.disassemble e)
  | .ok instructions => I.assemble (I.planOf info instructions container) base container

end Isa

/-! ## §2. One op for each instruction. -/

/-- An instruction set that fuses nothing, and whose graph builder agrees with
it on addresses. -/
structure Isa.Plain (I : Isa Mn Rg Op E Mk Di) (info : InstructionInfo Di) : Prop where
  fuses : ∀ instructions blocks container relocations,
    I.fuseMacros instructions blocks container relocations
      = instructions.map RewriteOp.instruction
  address : info.address = I.decodedAddress

/-- The lifted form of an instruction of a sweep. -/
def Isa.liftOf (I : Isa Mn Rg Op E Mk Di) (info : InstructionInfo Di) (instructions : List Di)
    (container : Option Container) (d : Di) : RewriteInstruction Mn Op :=
  liftInstruction I (blockStarts (buildCfg info instructions).blocks) container
    (relocationLookup I container) d

/-- The op an instruction of a sweep becomes. -/
def Isa.opOf (I : Isa Mn Rg Op E Mk Di) (info : InstructionInfo Di) (instructions : List Di)
    (container : Option Container) (d : Di) : RewriteOp Mn Rg Op Mk :=
  .instruction (I.liftOf info instructions container d)

/-- The layout that leaves an instruction where it is. -/
def Isa.ownLayout (I : Isa Mn Rg Op E Mk Di) (d : Di) : InstructionLayout :=
  ⟨I.decodedAddress d, I.decodedSize d, .normal⟩

/-- Instructions that stand one after the other from an address on. -/
def Isa.RunsFrom (I : Isa Mn Rg Op E Mk Di) : U64 → List Di → Prop
  | _, [] => True
  | address, d :: rest =>
    I.decodedAddress d = address ∧ RunsFrom I (address + I.decodedSize d) rest

/-- The address after a run of instructions. -/
def Isa.endOf (I : Isa Mn Rg Op E Mk Di) (address : U64) (ds : List Di) : U64 :=
  address + (ds.map I.decodedSize).sum

section Lift

variable {I : Isa Mn Rg Op E Mk Di} {info : InstructionInfo Di} {instructions : List Di}
  {container : Option Container} {base : U64}

theorem assignBlocks_blocks_length (current : U64) (layouts : List (List InstructionLayout)) :
    (assignBlocks current layouts).2.1.length = layouts.length := by
  induction layouts generalizing current with
  | nil => rfl
  | cons block rest ih => simp [assignBlocks, ih]

theorem Isa.RunsFrom.address_of_getElem? {ds : List Di} (h : I.RunsFrom base ds) {k : Nat} {d : Di}
    (hd : ds[k]? = some d) : I.decodedAddress d = I.endOf base (ds.take k) := by
  induction ds generalizing base k with
  | nil => cases hd
  | cons d' rest ih =>
    cases k with
    | zero =>
      cases hd
      simpa [endOf] using h.1
    | succ k =>
      have := ih h.2 hd
      simpa [endOf, BitVec.add_assoc] using this

/-- The ops of the first blocks are those of the instructions before the next one. -/
theorem planOf_take_ops (hplain : I.Plain info) (instructions : List Di)
    (container : Option Container) (n : Nat) :
    ((I.planOf info instructions container).blocks.take n).flatMap RewriteBlock.ops
      = (((buildCfg info instructions).blocks.take n).flatMap
          fun b => b.slice instructions).map (I.opOf info instructions container) := by
  rw [Isa.planOf, liftInner, ← List.map_take, List.flatMap_map, List.map_flatMap]
  congr 1
  funext b
  rw [liftBlock, hplain.fuses, List.map_map]
  rfl

/-- **The plan of a sweep has one op for each instruction, in order.** -/
theorem planOf_ops (hplain : I.Plain info) :
    (I.planOf info instructions container).blocks.flatMap RewriteBlock.ops
      = instructions.map (I.opOf info instructions container) := by
  have h := planOf_take_ops hplain instructions container
    (I.planOf info instructions container).blocks.length
  rw [List.take_length] at h
  rw [h, Isa.planOf, liftInner, List.length_map, List.take_length,
    (buildCfg_tiles info instructions).flatMap_slice, List.drop_zero]

theorem flatMap_slice_take {blocks : List BasicBlock} (h : BlocksTile info instructions 0 0 blocks)
    {j : Nat} {b : BasicBlock} (hb : blocks[j]? = some b) :
    (blocks.take j).flatMap (fun b => b.slice instructions) = instructions.take b.firstIndex := by
  have hall := h.flatMap_slice
  rw [List.drop_zero, ← List.take_append_drop j blocks, List.flatMap_append] at hall
  have hfirst := (h.getElem? hb).2.1
  rw [Nat.zero_add] at hfirst
  have htake := congrArg (List.take b.firstIndex) hall
  rw [hfirst, List.take_left] at htake
  rw [htake, hfirst]

/-- The first round of layout puts every block where it started. -/
theorem blockAddresses_planOf (hplain : I.Plain info) (hruns : I.RunsFrom base instructions) :
    (firstLayout I (I.planOf info instructions container) base).blockAddresses
      = (buildCfg info instructions).blocks.map BasicBlock.start := by
  have htiles := buildCfg_tiles info instructions
  have hlength : (initialLayouts I (I.planOf info instructions container)).length
      = (buildCfg info instructions).blocks.length := by
    rw [initialLayouts, Isa.planOf, liftInner, List.length_map, List.length_map]
  apply List.ext_getElem?
  intro j
  rw [List.getElem?_map]
  cases hb : (buildCfg info instructions).blocks[j]? with
  | none =>
    have hge : (initialLayouts I (I.planOf info instructions container)).length ≤ j :=
      hlength ▸ List.getElem?_eq_none_iff.mp hb
    exact List.getElem?_eq_none_iff.mpr ((assignBlocks_blocks_length _ _).trans_le hge)
  | some b =>
    obtain ⟨-, -, head, hhead, hstart⟩ := htiles.getElem? hb
    have hlen : j < (initialLayouts I (I.planOf info instructions container)).length :=
      hlength ▸ (List.getElem?_eq_some_iff.mp hb).1
    have hsizes : ((initialLayouts I (I.planOf info instructions container)).take j).flatten.map
        InstructionLayout.size = (instructions.take b.firstIndex).map I.decodedSize := by
      rw [initialLayouts, ← List.map_take, ← List.flatMap_def, List.map_flatMap]
      have hops := congrArg (List.map I.sourceByteSize)
        (planOf_take_ops hplain instructions container j)
      rw [flatMap_slice_take htiles hb, List.map_flatMap] at hops
      simp only [List.map_map, Function.comp_def] at hops ⊢
      exact hops
    refine (assignBlocks_blockAddress base
      (initialLayouts I (I.planOf info instructions container)) j hlen).trans ?_
    rw [hsizes, Option.map_some, hstart, hplain.address, hruns.address_of_getElem? hhead]
    rfl

theorem blocksInPlace_starts :
    BlocksInPlace (blockStarts (buildCfg info instructions).blocks)
      ((buildCfg info instructions).blocks.map BasicBlock.start) := by
  intro address id hid
  obtain ⟨j, b, hb, rfl, rfl⟩ := blockStarts_some (buildCfg_tiles info instructions) hid
  rw [List.getElem?_map, Nat.zero_add, hb]
  rfl

/-- Instructions that run on are assigned their own addresses. -/
theorem assignBlock_runsFrom {ds : List Di} (h : I.RunsFrom base ds) :
    (assignBlock base (ds.map fun d => ⟨0, I.decodedSize d, .normal⟩)).1 = ds.map I.ownLayout := by
  induction ds generalizing base with
  | nil => rfl
  | cons d rest ih =>
    rw [List.map_cons, assignBlock, List.map_cons, ih h.2, Isa.ownLayout, h.1]

theorem firstLayout_inPlace (hplain : I.Plain info) (hruns : I.RunsFrom base instructions) :
    (firstLayout I (I.planOf info instructions container) base).instructionLayouts.flatten
      = instructions.map I.ownLayout := by
  rw [firstLayout_flatten, planOf_ops hplain, List.map_map, ← assignBlock_runsFrom hruns]
  rfl

/-- What the instructions of a sweep are emitted against: every block at the
address of its first instruction. -/
def sweptContext (info : InstructionInfo Di) (instructions : List Di) (base : U64)
    (container : Option Container) : EmitContext :=
  ⟨(buildCfg info instructions).blocks.map BasicBlock.start, container,
    currentSectionAt container base⟩

/-- **A sweep whose branches are in range is laid out in place.** -/
theorem layOut_inPlace (hplain : I.Plain info) (hruns : I.RunsFrom base instructions)
    (hkeeps : ∀ d ∈ instructions,
      Keeps I (sweptContext info instructions base container).blockAddresses container false
        (I.opOf info instructions container d) (I.ownLayout d)) :
    layOut I (I.planOf info instructions container) base container
      = .ok (firstLayout I (I.planOf info instructions container) base) := by
  refine layOut_of_keeps ?_
  rw [planOf_ops hplain, firstLayout_inPlace hplain hruns, blockAddresses_planOf hplain hruns, List.forall₂_map_left_iff,
    List.forall₂_map_right_iff]
  exact List.forall₂_same.mpr hkeeps

/-- Emit then runs over the instructions. -/
theorem emit_inPlace [DecidableEq Mn] [DecidableEq Op] (hplain : I.Plain info)
    (hruns : I.RunsFrom base instructions)
    (hlayout : layOut I (I.planOf info instructions container) base container
      = .ok (firstLayout I (I.planOf info instructions container) base)) :
    emit I (I.planOf info instructions container)
        (firstLayout I (I.planOf info instructions container) base) container
      = emitOps I (sweptContext info instructions base container)
          (instructions.map (I.opOf info instructions container))
          (instructions.map I.ownLayout) .empty := by
  have hshape := (layOut_laidOut hlayout).reserved.shape
  rw [emit, ← List.append_nil (firstLayout I (I.planOf info instructions container)
    base).instructionLayouts, emitBlocks_flat hshape, firstLayout_inPlace hplain hruns,
    planOf_ops hplain, Layout.context, blockAddresses_planOf hplain hruns]
  rfl

end Lift

/-! ## §3. Branches that are in range. -/

/-- The address that the lifted target of an operand denotes: the symbol's,
when a relocation at the instruction names one, else the decoded address. -/
def Isa.boundAddress (I : Isa Mn Rg Op E Mk Di) (c : Container) (d : Di) (decoded : U64) :
    Option U64 :=
  match relocTarget I (relocationLookup I (some c)) (I.decodedAddress d) with
  | some (.symbol id) => c.callableAddressOfSymbol id
  | _ => some decoded

/-- Lift finds every symbol it names, and a branch that denotes an address
reaches it by layout's range. -/
structure Isa.SettlesInPlace (I : Isa Mn Rg Op E Mk Di) (c : Container) (d : Di) : Prop where
  symbols : ∀ id,
    relocTarget I (relocationLookup I (some c)) (I.decodedAddress d) = some (.symbol id) →
      (c.symbol id).isSome = true
  reaches : ∀ o ∈ I.decodedOperands d, ∀ decoded, I.pcrelKind o = some (.branch, decoded) →
    ∀ target, I.boundAddress c d decoded = some target →
      ∀ range, I.pcrelRangeBytes (I.decodedMnemonic d) = some range →
        -range ≤ displacement target (I.decodedAddress d)
          ∧ displacement target (I.decodedAddress d) < range

/-- The branch operands of an instruction reach what they were decoded to. -/
def Isa.reachesDecoded (I : Isa Mn Rg Op E Mk Di) (d : Di) : Bool :=
  (I.decodedOperands d).all fun o =>
    match I.pcrelKind o, I.pcrelRangeBytes (I.decodedMnemonic d) with
    | some (.branch, target), some range =>
      decide (-range ≤ displacement target (I.decodedAddress d)
        ∧ displacement target (I.decodedAddress d) < range)
    | _, _ => true

section Settles

variable {I : Isa Mn Rg Op E Mk Di} {info : InstructionInfo Di} {c : Container}
  {blockAtAddress : Map U64 BasicBlockId} {blockAddresses : List U64}

/-- A relocation names a symbol, never another kind of target. -/
theorem relocTarget_symbol {relocations : Map U64 FusionRelocationInfo} {address : U64} {t : Target}
    (h : relocTarget I relocations address = some t) : ∃ id, t = .symbol id := by
  unfold relocTarget at h
  split at h
  · split at h
    · obtain ⟨id, -, rfl⟩ := Option.map_eq_some_iff.mp h
      exact ⟨id, rfl⟩
    · cases h
  · cases h

/-- Without relocations only the decoded targets count. -/
theorem settlesInPlace_of_bare (hbare : c.relocations = []) {d : Di}
    (h : I.reachesDecoded d = true) : I.SettlesInPlace c d := by
  have hnone : relocTarget I (relocationLookup I (some c)) (I.decodedAddress d) = none := by
    simp [relocTarget, relocationLookup, pcRelativeRelocationLookup, hbare, firstWins]
  refine ⟨fun id hid => ?_, fun o ho decoded hkind target hbound range hrange => ?_⟩
  · rw [hnone] at hid
    cases hid
  · rw [Isa.boundAddress, hnone] at hbound
    cases hbound
    have hall := List.all_eq_true.mp h o ho
    rw [hkind, hrange] at hall
    exact of_decide_eq_true hall

/-- What the target of a lifted branch operand resolves to. -/
theorem resolveTarget_lifted (hblocks : BlocksInPlace blockAtAddress blockAddresses) (d : Di)
    (decoded : U64) :
    (∃ id, resolveTarget ((relocTarget I (relocationLookup I (some c)) (I.decodedAddress d)).getD
        (resolveAddress decoded blockAtAddress (some c))) blockAddresses (some c)
          = .error (.undefinedSymbol id)) ∨
    ∃ target, I.boundAddress c d decoded = some target ∧
      resolveTarget ((relocTarget I (relocationLookup I (some c)) (I.decodedAddress d)).getD
        (resolveAddress decoded blockAtAddress (some c))) blockAddresses (some c) = .ok target := by
  unfold Isa.boundAddress
  cases hreloc : relocTarget I (relocationLookup I (some c)) (I.decodedAddress d) with
  | none => exact .inr ⟨decoded, rfl, (denotes_resolveAddress hblocks decoded).1⟩
  | some t =>
    obtain ⟨id, rfl⟩ := relocTarget_symbol hreloc
    simp only [Option.getD_some, resolveTarget]
    cases hcall : c.callableAddressOfSymbol id with
    | none => exact .inl ⟨_, rfl⟩
    | some address => exact .inr ⟨address, rfl, rfl⟩

/-- The target lift finds for an operand no relocation binds. -/
def unboundTarget (blockAtAddress : Map U64 BasicBlockId) (container : Option Container)
    (decoded : U64) : PcRelKind → Target
  | .branch => resolveAddress decoded blockAtAddress container
  | .page => .absolute decoded

/-- Where the target of a lifted operand comes from. -/
theorem symbolic_liftOperand {reloc : Option Target} {container : Option Container} {o : Op}
    {t : Target} {kind : PcRelKind}
    (h : (liftOperand I reloc blockAtAddress container o).symbolic? = some (t, kind)) :
    ∃ decoded, I.pcrelKind o = some (kind, decoded) ∧
      t = reloc.getD (unboundTarget blockAtAddress container decoded kind) := by
  unfold liftOperand at h
  rcases hkind : I.pcrelKind o with - | ⟨kind', decoded⟩
  · rw [hkind] at h
    cases h
  · rw [hkind] at h
    cases kind' <;> simp only [RewriteOperand.symbolic?, Option.some.injEq, Prod.mk.injEq] at h <;>
      obtain ⟨rfl, rfl⟩ := h <;> exact ⟨decoded, rfl, rfl⟩

/-- The first branch target of a lifted instruction comes from a branch operand. -/
theorem pcRelativeBranchTarget_lifted {relocations : Map U64 FusionRelocationInfo}
    {container : Option Container} {d : Di} {t : Target}
    (h : pcRelativeBranchTarget (liftInstruction I blockAtAddress container relocations d)
      = some t) :
    ∃ o ∈ I.decodedOperands d, ∃ decoded, I.pcrelKind o = some (.branch, decoded) ∧
      t = (relocTarget I relocations (I.decodedAddress d)).getD
        (resolveAddress decoded blockAtAddress container) := by
  obtain ⟨r, hr, ht⟩ := List.exists_of_findSome?_eq_some h
  obtain ⟨o, ho, rfl⟩ := List.mem_map.mp hr
  have hsym : (liftOperand I (relocTarget I relocations (I.decodedAddress d)) blockAtAddress
      container o).symbolic? = some (t, .branch) := by
    split at ht
    · next heq =>
      cases ht
      exact congrArg RewriteOperand.symbolic? heq
    · cases ht
  obtain ⟨decoded, hkind, rfl⟩ := symbolic_liftOperand hsym
  exact ⟨o, ho, decoded, hkind, rfl⟩

/-- An instruction whose branch is in range keeps its place. -/
theorem keeps_of_settles (hblocks : BlocksInPlace blockAtAddress blockAddresses) {d : Di}
    (h : I.SettlesInPlace c d) :
    Keeps I blockAddresses (some c) false
      (.instruction (liftInstruction I blockAtAddress (some c) (relocationLookup I (some c)) d))
      (I.ownLayout d) := by
  unfold Keeps widenOp
  simp only
  split
  · rfl
  · next t ht =>
    obtain ⟨o, ho, decoded, hkind, rfl⟩ := pcRelativeBranchTarget_lifted ht
    rcases resolveTarget_lifted (I := I) hblocks d decoded with ⟨id, herror⟩ | ⟨target, hbound, hok⟩
    · rw [herror]
    · rw [hok]
      simp only [Isa.ownLayout, effectiveRange, liftInstruction]
      cases hrange : I.pcrelRangeBytes (I.decodedMnemonic d) with
      | none => rfl
      | some range =>
        have hin := h.reaches o ho decoded hkind target hbound range hrange
        exact if_pos hin

/-- The relocation test of a lifted instruction does not panic. -/
theorem relocationOf_lifted {F : Type} {d : Di} (h : I.SettlesInPlace c d) {ctx : EmitContext}
    (hcontainer : ctx.container = some c) :
    ∃ reloc, ctx.relocationOf (E := F) (liftInstruction I blockAtAddress (some c)
      (relocationLookup I (some c)) d) = .ok reloc := by
  unfold EmitContext.relocationOf needsRelocation
  rw [hcontainer]
  refine needsRelocationIn_ok ?_
  intro r hr id kind hsym
  obtain ⟨o, -, rfl⟩ := List.mem_map.mp hr
  -- the symbol was named by a relocation or found at the operand's address
  obtain ⟨decoded, -, ht⟩ := symbolic_liftOperand hsym
  cases hreloc : relocTarget I (relocationLookup I (some c)) (I.decodedAddress d) with
  | some t =>
    rw [hreloc, Option.getD_some] at ht
    exact h.symbols id (by rw [hreloc, ht])
  | none =>
    rw [hreloc, Option.getD_none] at ht
    cases kind with
    | page => cases ht
    | branch =>
      simp only [unboundTarget, resolveAddress] at ht
      split at ht
      · cases ht
      · split at ht
        · next symbol hsymbol =>
          cases ht
          rw [Container.symbol_id (Container.symbolAtAddress_some hsymbol).1]
          rfl
        · cases ht

end Settles

/-! ## §4. Blind copies. -/

section Blind

variable [DecidableEq Mn] [DecidableEq Op] {I : Isa Mn Rg Op E Mk Di} {c : Container}
  {blockAddresses : List U64} {i : RewriteInstruction Mn Op} {address : U64}

/-- Without a decoder the source bytes are copied at their own address, as
many as the mnemonic implies, whatever the instruction has become. -/
theorem verbatimBytes_blind (hdecode : ∀ a bytes, I.decode a bytes = none) {tail : List Byte}
    (horiginal : i.originalAddress = some address) (htail : c.textTailAt address = some tail) :
    verbatimBytes I i address blockAddresses (some c)
      = takeExact (I.instructionSourceSize i.mnemonic).toNat tail := by
  simp [verbatimBytes, horiginal, htail, hdecode, bind]

/-- Without a decoder nothing is copied to another address. -/
theorem verbatimBytes_moved (hdecode : ∀ a bytes, I.decode a bytes = none)
    {container : Option Container} (hmoved : i.originalAddress ≠ some address) :
    verbatimBytes I i address blockAddresses container = none := by
  unfold verbatimBytes
  cases horiginal : i.originalAddress with
  | none => rfl
  | some original =>
    have hne : original ≠ address := fun h => hmoved (horiginal.trans (congrArg some h))
    cases container with
    | none => rfl
    | some c =>
      cases htail : c.textTailAt original with
      | none => simp [htail, bind]
      | some tail => simp [htail, hdecode, hne, bind]

theorem takeExact_eq_some {n : Nat} {bytes raw : List Byte} :
    takeExact n bytes = some raw ↔ n ≤ bytes.length ∧ bytes.take n = raw := by
  unfold takeExact
  split
  · next h => simp [h]
  · next h => simp [h]

/-- The text holds, at an instruction's own address, as many bytes as its
mnemonic implies: these. -/
def SourceBytes (I : Isa Mn Rg Op E Mk Di) (ctx : EmitContext) (i : RewriteInstruction Mn Op)
    (address : U64) (raw : List Byte) : Prop :=
  i.originalAddress = some address ∧
    ∃ c tail, ctx.container = some c ∧ c.textTailAt address = some tail ∧
      (I.instructionSourceSize i.mnemonic).toNat ≤ tail.length ∧
      tail.take (I.instructionSourceSize i.mnemonic).toNat = raw

/-- The text holds the bytes of an instruction at its own address. -/
def HasSource (I : Isa Mn Rg Op E Mk Di) (ctx : EmitContext) (i : RewriteInstruction Mn Op)
    (address : U64) : Prop :=
  ∃ raw, SourceBytes I ctx i address raw

/-- Without a decoder what is copied are the source bytes. -/
theorem verbatimBytes_eq_some (hdecode : ∀ a bytes, I.decode a bytes = none) {ctx : EmitContext}
    {raw : List Byte} :
    verbatimBytes I i address ctx.blockAddresses ctx.container = some raw
      ↔ SourceBytes I ctx i address raw := by
  by_cases horiginal : i.originalAddress = some address
  · cases hc : ctx.container with
    | none => simp [verbatimBytes, SourceBytes, horiginal, hc]
    | some c =>
      cases htail : c.textTailAt address with
      | none => simp [verbatimBytes, SourceBytes, horiginal, hc, htail, bind]
      | some tail =>
        rw [verbatimBytes_blind hdecode horiginal htail, takeExact_eq_some]
        simp [SourceBytes, horiginal, hc, htail]
  · rw [verbatimBytes_moved hdecode horiginal]
    simp [SourceBytes, horiginal]

theorem verbatimBytes_eq_none (hdecode : ∀ a bytes, I.decode a bytes = none) {ctx : EmitContext} :
    verbatimBytes I i address ctx.blockAddresses ctx.container = none
      ↔ ¬ HasSource I ctx i address := by
  unfold HasSource
  simp only [← verbatimBytes_eq_some hdecode]
  rw [Option.eq_none_iff_forall_ne_some, not_exists]

theorem SourceBytes.length_eq {ctx : EmitContext} {raw : List Byte}
    (h : SourceBytes I ctx i address raw) :
    raw.length = (I.instructionSourceSize i.mnemonic).toNat := by
  obtain ⟨-, c, tail, -, -, hsize, rfl⟩ := h
  rw [List.length_take]
  omega

/-- What is needed to find the source bytes of a final text section. -/
structure FinalText (c : Container) (s : Section) : Prop where
  member : s ∈ c.sections
  text : s.kind = .text
  first : FirstCovering c s
  final : c.kind ≠ .relocatable

/-- An unmoved instruction is copied when the section holds enough bytes. -/
theorem emitInstruction_copied (hdecode : ∀ a bytes, I.decode a bytes = none) {s : Section}
    (hs : FinalText c s) {ctx : EmitContext} (hcontainer : ctx.container = some c)
    {reloc : Option (SymbolId × PcRelKind)} (hreloc : ctx.relocationOf (E := E) i = .ok reloc)
    {k : Nat} (hoffset : address = s.address + BitVec.ofNat 64 k) (hk : k < s.bytes.length)
    (horiginal : i.originalAddress = some address)
    (hsize : (I.instructionSourceSize i.mnemonic).toNat ≤ (s.bytes.drop k).length)
    (size : U64) (strategy : EmitStrategy) (out : EmitOutput) :
    emitInstruction I i ⟨address, size, strategy⟩ ctx out
      = .ok { out with bytes := out.bytes
                ++ (s.bytes.drop k).take (I.instructionSourceSize i.mnemonic).toNat } := by
  have hfinal : ctx.isRelocatable = false := by
    simp [EmitContext.isRelocatable, hcontainer, hs.final]
  have htail : c.textTailAt address = some (s.bytes.drop k) := by
    rw [hoffset]
    exact hs.first.textTailAt hs.member hs.text hk
  refine emitInstruction_iff.mpr (.verbatim reloc _ hreloc (by rw [hfinal]; rfl) ?_ rfl)
  rw [hcontainer, verbatimBytes_blind hdecode horiginal htail]
  exact takeExact_eq_some.mpr ⟨hsize, rfl⟩

/-- An unmoved instruction is not copied when the section ends too early. -/
theorem verbatimBytes_short (hdecode : ∀ a bytes, I.decode a bytes = none) {s : Section}
    (hs : FinalText c s) {k : Nat} (hoffset : address = s.address + BitVec.ofNat 64 k)
    (hk : k < s.bytes.length) (horiginal : i.originalAddress = some address)
    (hsize : (s.bytes.drop k).length < (I.instructionSourceSize i.mnemonic).toNat) :
    verbatimBytes I i address blockAddresses (some c) = none := by
  have htail : c.textTailAt address = some (s.bytes.drop k) := by
    rw [hoffset]
    exact hs.first.textTailAt hs.member hs.text hk
  rw [verbatimBytes_blind hdecode horiginal htail, takeExact, if_neg (by omega)]

end Blind

/-- **Instructions as wide as their mnemonics imply are copied one by one.** -/
theorem emitOps_copies [DecidableEq Mn] [DecidableEq Op] {I : Isa Mn Rg Op E Mk Di}
    (hdecode : ∀ a bytes, I.decode a bytes = none) {c : Container} {s : Section}
    (hs : FinalText c s) {ctx : EmitContext} (hcontainer : ctx.container = some c)
    {info : InstructionInfo Di} {instructions : List Di} {source : Di → List Byte}
    {ds : List Di} {done : List Byte} (hbytes : s.bytes = done ++ ds.flatMap source)
    (hruns : I.RunsFrom (s.address + BitVec.ofNat 64 done.length) ds)
    (hsettles : ∀ d ∈ ds, I.SettlesInPlace c d)
    (hwidth : ∀ d ∈ ds, I.decodedSize d = BitVec.ofNat 64 (source d).length ∧
      0 < (source d).length ∧
      (I.instructionSourceSize (I.decodedMnemonic d)).toNat = (source d).length)
    (out : EmitOutput) :
    emitOps I ctx (ds.map (I.opOf info instructions (some c))) (ds.map I.ownLayout) out
      = .ok { out with bytes := out.bytes ++ ds.flatMap source } := by
  induction ds generalizing done out with
  | nil => simp [emitOps]
  | cons d rest ih =>
    obtain ⟨hsize, hpos, hmnemonic⟩ := hwidth d List.mem_cons_self
    have hdrop : s.bytes.drop done.length = source d ++ rest.flatMap source := by
      rw [hbytes, List.drop_left, List.flatMap_cons]
    have hk : done.length < s.bytes.length := by
      rw [hbytes, List.flatMap_cons, List.length_append, List.length_append]
      omega
    obtain ⟨reloc, hreloc⟩ : ∃ reloc, ctx.relocationOf (E := E)
        (I.liftOf info instructions (some c) d) = .ok reloc :=
      relocationOf_lifted (hsettles d List.mem_cons_self) hcontainer
    have hfits : (I.instructionSourceSize (I.decodedMnemonic d)).toNat
        ≤ (s.bytes.drop done.length).length := by
      rw [hdrop, List.length_append]
      omega
    have hop : emitOp I (I.opOf info instructions (some c) d) (I.ownLayout d) ctx out
        = .ok { out with bytes := out.bytes ++ source d } := by
      refine (emitInstruction_copied hdecode hs hcontainer hreloc hruns.1 hk rfl hfits
        _ _ out).trans ?_
      have hlifted : (I.liftOf info instructions (some c) d).mnemonic = I.decodedMnemonic d := rfl
      rw [hlifted, hdrop, hmnemonic, List.take_left]
    have hrest : I.RunsFrom (s.address + BitVec.ofNat 64 (done ++ source d).length) rest := by
      rw [List.length_append, BitVec.ofNat_add, ← BitVec.add_assoc, ← hsize]
      exact hruns.2
    rw [List.map_cons, List.map_cons, emitOps_cons hop,
      ih (by rw [hbytes, List.flatMap_cons, List.append_assoc]) hrest
        (fun d' hd' => hsettles d' (List.mem_cons_of_mem _ hd'))
        (fun d' hd' => hwidth d' (List.mem_cons_of_mem _ hd'))]
    simp [List.append_assoc]

/-- **A sweep that settles in place is emitted instruction by instruction.** -/
theorem rewrite_inPlace [DecidableEq Mn] [DecidableEq Op] {I : Isa Mn Rg Op E Mk Di}
    {info : InstructionInfo Di} (hplain : I.Plain info) {c : Container} {base : U64}
    {ds : List Di} (hruns : I.RunsFrom base ds) (hsettles : ∀ d ∈ ds, I.SettlesInPlace c d)
    (out : EmitOutput) :
    I.rewrite (D := D) info (.ok ds) base (some c) = .ok out ↔
      emitOps I (sweptContext info ds base (some c)) (ds.map (I.opOf info ds (some c)))
        (ds.map I.ownLayout) .empty = .ok out := by
  have hlayout : layOut I (I.planOf info ds (some c)) base (some c)
      = .ok (firstLayout I (I.planOf info ds (some c)) base) :=
    layOut_inPlace hplain hruns fun d hd =>
      keeps_of_settles blocksInPlace_starts (hsettles d hd)
  rw [Isa.rewrite, Isa.assemble]
  simp only [hlayout, emit_inPlace hplain hruns hlayout]
  cases emitOps I (sweptContext info ds base (some c)) (ds.map (I.opOf info ds (some c)))
    (ds.map I.ownLayout) .empty with
  | error e => simp
  | ok out' => simp

end Armv8Encode

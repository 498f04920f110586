/-
  Armv8Encode.Rewrite.EditLocality — what an edit does to the instructions.

  Edits name an instruction by its source address, but they take, follow and
  replace ops, and a macro is one op for several instructions.  `flat` writes
  the instructions out: every macro is replaced by those it was built from.
  An edit is local when `flat` changes at the named instruction alone.

  Main results:
    * `CarriedOnce.located` — the op an address leads to, and where its
      instruction stands in it.
    * `insertAfterAddress_iff`, `removeAtAddress_iff`, `replaceTerminator_iff` —
      each edit is local exactly when the op is the instruction itself, or when
      the rest of the macro makes no difference.
    * `unfuseMacroAt_flat` — taking a macro apart is always invisible.
    * `exactlyLocal_iff` — the law for every plan that lift and edits produce.
-/
import Armv8Encode.Isa.Aarch64.FusionSpec
import Armv8Encode.Isa.Aarch64.IsaImpl
import Armv8Encode.Isa.Armv7.IsaImpl
import Armv8Encode.Mc.CfgSpec
import Armv8Encode.Rewrite.Edit
import Armv8Encode.Rewrite.Plan

namespace Armv8Encode

open Lib

variable {Mn Rg Op E Mk Di : Type}

/-! ## §1. The instructions of a plan. -/

/-- The op itself, or the instructions a macro was built from. -/
def RewriteOp.flat : RewriteOp Mn Rg Op Mk → List (RewriteOp Mn Rg Op Mk)
  | .macroOp m => m.originalInstructions.map .instruction
  | op => [op]

def RewriteBlock.flat (block : RewriteBlock Mn Rg Op Mk) : List (RewriteOp Mn Rg Op Mk) :=
  block.ops.flatMap RewriteOp.flat

def RewritePlan.flat (plan : RewritePlan Mn Rg Op Mk) : List (RewriteOp Mn Rg Op Mk) :=
  plan.blocks.flatMap RewriteBlock.flat

/-- A macro lists the addresses of its instructions, and has some. -/
structure MacroOp.Listed (m : MacroOp Mn Rg Op Mk) : Prop where
  addresses : m.originalAddresses
    = m.originalInstructions.filterMap RewriteInstruction.originalAddress
  nonempty : m.originalInstructions ≠ []

/-- What lift sees to and edits keep: every macro is listed, and a block's id
is its position. -/
structure RewritePlan.Ordered (plan : RewritePlan Mn Rg Op Mk) : Prop where
  listed : ∀ block ∈ plan.blocks, ∀ m, .macroOp m ∈ block.ops → m.Listed
  ids : ∀ (k : Nat) (block : RewriteBlock Mn Rg Op Mk), plan.blocks[k]? = some block → block.id = ⟨k⟩

/-- An op is found under an address exactly when one of its instructions
carries it. -/
theorem matchesSourceAddress_flat {op : RewriteOp Mn Rg Op Mk} {address : U64}
    (h : ∀ m, op = .macroOp m → m.Listed) :
    op.matchesSourceAddress address = true ↔
      ∃ x ∈ op.flat, x.matchesSourceAddress address = true := by
  cases op with
  | instruction i => simp [RewriteOp.flat]
  | raw bytes => simp [RewriteOp.flat]
  | macroOp m =>
    have haddresses := (h m rfl).addresses
    simp [RewriteOp.flat, RewriteOp.matchesSourceAddress, haddresses]

/-! ## §2. The op an address leads to. -/

/-- One instruction of the plan carries the address; it stands in the block `b`
between `before` and `after`. -/
structure CarriedOnce (plan : RewritePlan Mn Rg Op Mk) (address : U64) (b : Nat)
    (before : List (RewriteOp Mn Rg Op Mk)) (i : RewriteInstruction Mn Op)
    (after : List (RewriteOp Mn Rg Op Mk)) : Prop where
  carries : i.originalAddress = some address
  place : ∃ block, plan.blocks[b]? = some block ∧ block.flat = before ++ .instruction i :: after
  once : plan.flat.countP (RewriteOp.matchesSourceAddress address) = 1

/-- The op of a block in which an element of the written-out block stands. -/
theorem exists_cut_flatMap {α β : Type} {f : α → List β} {xs : List α} {before after : List β}
    {x : β} (h : xs.flatMap f = before ++ x :: after) :
    ∃ front y back pre post, xs = front ++ y :: back ∧ f y = pre ++ x :: post ∧
      before = front.flatMap f ++ pre ∧ after = post ++ back.flatMap f := by
  induction xs generalizing before with
  | nil =>
    rw [List.flatMap_nil] at h
    exact absurd h.symm (by simp)
  | cons y xs ih =>
    rw [List.flatMap_cons] at h
    rcases List.append_eq_append_iff.mp h with ⟨pre, hpre, hrest⟩ | ⟨post, hpost, hrest⟩
    · -- the element stands behind the first op
      obtain ⟨front, z, back, pre', post', rfl, hz, hbefore, hafter⟩ := ih hrest
      refine ⟨y :: front, z, back, pre', post', rfl, hz, ?_, hafter⟩
      rw [hpre, hbefore, List.flatMap_cons, List.append_assoc]
    · cases post with
      | nil =>
        rw [List.append_nil] at hpost
        rw [List.nil_append] at hrest
        obtain ⟨front, z, back, pre', post', rfl, hz, hbefore, hafter⟩ :=
          @ih [] (by rw [List.nil_append]; exact hrest.symm)
        refine ⟨y :: front, z, back, pre', post', rfl, hz, ?_, hafter⟩
        rw [List.flatMap_cons, List.append_assoc, ← hbefore, List.append_nil, hpost]
      | cons x' post =>
        rw [List.cons_append] at hrest
        obtain ⟨rfl, hafter⟩ := List.cons.inj hrest
        exact ⟨[], y, xs, before, post, rfl, hpost, rfl, hafter⟩

section Located

variable {plan : RewritePlan Mn Rg Op Mk} {address : U64}

/-- An address that only one op matches leads to it. -/
theorem locate_eq {front back : List (RewriteBlock Mn Rg Op Mk)} {block : RewriteBlock Mn Rg Op Mk}
    {ops ops' : List (RewriteOp Mn Rg Op Mk)} {op : RewriteOp Mn Rg Op Mk}
    (hplan : plan.blocks = front ++ block :: back) (hops : block.ops = ops ++ op :: ops')
    (hfront : ∀ earlier ∈ front, ∀ x ∈ earlier.ops, x.matchesSourceAddress address = false)
    (hbefore : ∀ x ∈ ops, x.matchesSourceAddress address = false)
    (hop : op.matchesSourceAddress address = true) :
    plan.locate address = some (front.length, ops.length) := by
  have hfind : block.ops.findIdx? (RewriteOp.matchesSourceAddress address) = some ops.length := by
    rw [hops, List.findIdx?_append, List.findIdx?_eq_none_iff.mpr hbefore, List.findIdx?_cons, hop]
    simp
  unfold RewritePlan.locate
  rw [hplan, List.zipIdx_append, List.findSome?_append, List.zipIdx_cons, List.findSome?_cons,
    List.findSome?_eq_none_iff.mpr]
  · simp only [hfind, Option.map_some, Option.none_or, Nat.zero_add]
  · intro p hmem
    have hin : p.1 ∈ front := List.fst_mem_of_mem_zipIdx hmem
    show (p.1.ops.findIdx? (RewriteOp.matchesSourceAddress address)).map _ = none
    rw [List.findIdx?_eq_none_iff.mpr (hfront p.1 hin)]
    rfl

/-- What stands in a written-out op is the op itself, or one of the
instructions of a macro. -/
theorem flat_cut {op : RewriteOp Mn Rg Op Mk} {pre post : List (RewriteOp Mn Rg Op Mk)}
    {i : RewriteInstruction Mn Op} (h : op.flat = pre ++ .instruction i :: post) :
    (op = .instruction i ∧ pre = [] ∧ post = []) ∨
      ∃ m front rest, op = .macroOp m ∧ m.originalInstructions = front ++ i :: rest ∧
        pre = front.map .instruction ∧ post = rest.map .instruction := by
  cases op with
  | macroOp m =>
    right
    obtain ⟨front, tail, hsplit, hpre, htail⟩ := List.map_eq_append_iff.mp h
    obtain ⟨i', rest, rfl, hi, hpost⟩ := List.map_eq_cons_iff.mp htail
    obtain rfl := RewriteOp.instruction.inj hi
    exact ⟨m, front, rest, rfl, hsplit, hpre.symm, hpost.symm⟩
  | instruction i' =>
    left
    obtain ⟨rfl, hrest⟩ | ⟨pre', rfl, hrest⟩ := List.cons_eq_append_iff.mp h
    · obtain ⟨hi, hpost⟩ := List.cons.inj hrest
      exact ⟨hi.symm, rfl, hpost⟩
    · exact absurd hrest (by simp)
  | raw bytes =>
    exfalso
    obtain ⟨rfl, hrest⟩ | ⟨pre', rfl, hrest⟩ := List.cons_eq_append_iff.mp h
    · cases (List.cons.inj hrest).1
    · exact absurd hrest (by simp)

/-- The op an address leads to, with the instruction that carries it. -/
theorem CarriedOnce.located {b : Nat} {before after : List (RewriteOp Mn Rg Op Mk)}
    {i : RewriteInstruction Mn Op} (h : CarriedOnce plan address b before i after)
    (hordered : plan.Ordered) :
    ∃ block ops op ops' pre post, plan.blocks[b]? = some block ∧ block.ops = ops ++ op :: ops' ∧
      op.flat = pre ++ .instruction i :: post ∧ before = ops.flatMap RewriteOp.flat ++ pre ∧
      after = post ++ ops'.flatMap RewriteOp.flat ∧ plan.locate address = some (b, ops.length) ∧
      ∀ x ∈ pre, x.matchesSourceAddress address = false := by
  obtain ⟨block, hblock, hflat⟩ := h.place
  obtain ⟨ops, op, ops', pre, post, hops, hop, hbefore, hafter⟩ := exists_cut_flatMap hflat
  have hplan := eq_take_cons_drop hblock
  have hlength : (plan.blocks.take b).length = b := by
    have := (List.getElem?_eq_some_iff.mp hblock).1
    rw [List.length_take]
    omega
  have hi : (RewriteOp.instruction i : RewriteOp Mn Rg Op Mk).matchesSourceAddress address = true := by
    simp [RewriteOp.matchesSourceAddress, h.carries]
  -- the one instruction is counted, so nothing in front of it is
  have honce := h.once
  unfold RewritePlan.flat at honce
  rw [hplan, List.flatMap_append, List.flatMap_cons, hflat, List.countP_append, List.countP_append,
    List.countP_append, List.countP_cons_of_pos hi] at honce
  have hearlier : ((plan.blocks.take b).flatMap RewriteBlock.flat).countP
      (RewriteOp.matchesSourceAddress address) = 0 := by omega
  have hfront : before.countP (RewriteOp.matchesSourceAddress address) = 0 := by omega
  rw [List.countP_eq_zero] at hearlier hfront
  have hquiet : ∀ block' ∈ plan.blocks, ∀ x ∈ block'.ops,
      (∀ y ∈ x.flat, ¬y.matchesSourceAddress address = true) →
      x.matchesSourceAddress address = false := by
    intro block' hblock' x hx hnone
    by_contra hmatches
    rw [Bool.not_eq_false] at hmatches
    obtain ⟨y, hy, hmatch⟩ := (matchesSourceAddress_flat fun m hm =>
      hordered.listed block' hblock' m (hm ▸ hx)).mp hmatches
    exact hnone y hy hmatch
  have hmem : block ∈ plan.blocks := List.mem_of_getElem? hblock
  refine ⟨block, ops, op, ops', pre, post, hblock, hops, hop, hbefore, hafter, ?_, ?_⟩
  · have hlocate : plan.locate address = some (_, ops.length) :=
      locate_eq hplan hops (fun earlier hin x hx => ?_) (fun x hx => ?_) ?_
    · rwa [hlength] at hlocate
    · refine hquiet earlier (List.mem_of_mem_take hin) x hx fun y hy => hearlier y ?_
      exact List.mem_flatMap.mpr ⟨earlier, hin, List.mem_flatMap.mpr ⟨x, hx, hy⟩⟩
    · refine hquiet block hmem x (by rw [hops]; exact List.mem_append_left _ hx) fun y hy => hfront y ?_
      rw [hbefore]
      exact List.mem_append_left _ (List.mem_flatMap.mpr ⟨x, hx, hy⟩)
    · refine (matchesSourceAddress_flat fun m hm =>
        hordered.listed block hmem m ?_).mpr ⟨.instruction i, ?_, hi⟩
      · rw [hops, ← hm]
        exact List.mem_append_right _ List.mem_cons_self
      · rw [hop]
        exact List.mem_append_right _ List.mem_cons_self
  · intro x hx
    have hnot := hfront x (by rw [hbefore]; exact List.mem_append_right _ hx)
    rwa [Bool.not_eq_true] at hnot

end Located

/-! ## §3. Edits that are local. -/

/-- Only the block at position `b` changes: it keeps its id, and written out it
is now `ops`. -/
def ChangesOnly (plan plan' : RewritePlan Mn Rg Op Mk) (b : Nat) (ops : List (RewriteOp Mn Rg Op Mk)) :
    Prop :=
  ∃ block block', plan.blocks[b]? = some block ∧ plan'.blocks = plan.blocks.set b block' ∧
    block'.id = block.id ∧ block'.flat = ops

/-- The instructions of a macro behind the one of an address. -/
def MacroOp.behind (m : MacroOp Mn Rg Op Mk) (address : U64) : List (RewriteInstruction Mn Op) :=
  (m.originalInstructions.dropWhile fun i => i.originalAddress ≠ some address).tail

/-- The instructions put in may as well stand behind the whole op. -/
def InsertsDirectly (plan : RewritePlan Mn Rg Op Mk) (address : U64)
    (new : List (RewriteInstruction Mn Op)) : Prop :=
  ∀ m, plan.opAt address = some (.macroOp m) → m.behind address ++ new = new ++ m.behind address

/-- The op taken out is one instruction. -/
def RemovesAlone (plan : RewritePlan Mn Rg Op Mk) (address : U64) : Prop :=
  ∀ m, plan.opAt address = some (.macroOp m) → m.originalInstructions.length = 1

/-- The last op of the block is one instruction. -/
def EndsAlone (plan : RewritePlan Mn Rg Op Mk) (b : Nat) : Prop :=
  ∀ block m, plan.blocks[b]? = some block → block.ops.getLast? = some (.macroOp m) →
    m.originalInstructions.length = 1

section Local

variable {plan : RewritePlan Mn Rg Op Mk} {address : U64} {b : Nat}
  {before after : List (RewriteOp Mn Rg Op Mk)} {i : RewriteInstruction Mn Op}

theorem modify_eq_set {α : Type} {xs : List α} {x : α} (f : α → α) (h : xs[b]? = some x) :
    xs.modify b f = xs.set b (f x) := by
  rw [List.modify_eq_set_getElem?, h]
  rfl

/-- A plan whose block at `b` was put in its place has that block there. -/
theorem changesOnly_set_iff {block : RewriteBlock Mn Rg Op Mk}
    {new ops : List (RewriteOp Mn Rg Op Mk)} (hblock : plan.blocks[b]? = some block) :
    ChangesOnly plan ⟨plan.blocks.set b { block with ops := new }⟩ b ops ↔
      new.flatMap RewriteOp.flat = ops := by
  have hlt := (List.getElem?_eq_some_iff.mp hblock).1
  constructor
  · rintro ⟨_, block', -, hset, -, rfl⟩
    have hat := congrArg (fun blocks => blocks[b]?) hset
    simp only [List.getElem?_set_self hlt, Option.some.injEq] at hat
    rw [← hat]
    rfl
  · intro hflat
    exact ⟨block, { block with ops := new }, hblock, rfl, rfl, hflat⟩

theorem opAt_eq {block : RewriteBlock Mn Rg Op Mk} {ops ops' : List (RewriteOp Mn Rg Op Mk)}
    {op : RewriteOp Mn Rg Op Mk} (hblock : plan.blocks[b]? = some block)
    (hops : block.ops = ops ++ op :: ops') (hlocate : plan.locate address = some (b, ops.length)) :
    plan.opAt address = some op := by
  have hop : plan.opAtIndex b ops.length = some op := by
    unfold RewritePlan.opAtIndex
    rw [hblock, Option.bind_some, hops]
    simp
  unfold RewritePlan.opAt
  rw [hlocate]
  exact hop

/-- Behind the instruction that carries the address. -/
theorem behind_eq {m : MacroOp Mn Rg Op Mk} {front rest : List (RewriteInstruction Mn Op)}
    (hm : m.originalInstructions = front ++ i :: rest) (hi : i.originalAddress = some address)
    (hfront : ∀ x ∈ (front.map .instruction : List (RewriteOp Mn Rg Op Mk)),
      x.matchesSourceAddress address = false) : m.behind address = rest := by
  have hdrop : ∀ x ∈ front, decide (x.originalAddress ≠ some address) = true := by
    intro x hx
    have hquiet := hfront (.instruction x) (List.mem_map_of_mem hx)
    simpa [RewriteOp.matchesSourceAddress] using hquiet
  unfold MacroOp.behind
  rw [hm, List.dropWhile_append_of_pos hdrop, List.dropWhile_cons_of_neg (by simp [hi]),
    List.tail_cons]

/-- Instructions are written out already. -/
theorem flatMap_flat_map (instructions : List (RewriteInstruction Mn Op)) :
    (instructions.map .instruction : List (RewriteOp Mn Rg Op Mk)).flatMap RewriteOp.flat =
      instructions.map .instruction := by
  induction instructions with
  | nil => rfl
  | cons x rest ih =>
    rw [List.map_cons, List.flatMap_cons, ih]
    rfl

theorem map_instruction_injective :
    Function.Injective (List.map .instruction :
      List (RewriteInstruction Mn Op) → List (RewriteOp Mn Rg Op Mk)) :=
  List.map_injective_iff.mpr fun _ _ h => RewriteOp.instruction.inj h

/-- **An insertion** stands directly behind the instruction exactly when nothing
of the macro comes in between. -/
theorem insertAfterAddress_iff (h : CarriedOnce plan address b before i after)
    (hordered : plan.Ordered) (new : List (RewriteInstruction Mn Op)) :
    (∃ plan', plan.insertAfterAddress address new = .ok plan' ∧
        ChangesOnly plan plan' b (before ++ .instruction i :: (new.map .instruction ++ after))) ↔
      InsertsDirectly plan address new := by
  obtain ⟨block, ops, op, ops', pre, post, hblock, hops, hop, rfl, rfl, hlocate, hquiet⟩ :=
    h.located hordered
  have hinserted : plan.insertAfterAddress address new = .ok ⟨plan.blocks.set b
      { block with ops := ops ++ [op] ++ new.map .instruction ++ ops' }⟩ := by
    unfold RewritePlan.insertAfterAddress
    rw [hlocate]
    have htake : (ops ++ op :: ops').take (ops.length + 1) = ops ++ [op] := by
      rw [List.append_cons, List.take_left' (by simp)]
    have hdrop : (ops ++ op :: ops').drop (ops.length + 1) = ops' := by
      rw [List.append_cons, List.drop_left' (by simp)]
    simp only [modify_eq_set _ hblock, hops, htake, hdrop]
  have hlocal : (∃ plan', plan.insertAfterAddress address new = .ok plan' ∧
      ChangesOnly plan plan' b (ops.flatMap RewriteOp.flat ++ pre ++ .instruction i ::
        (new.map .instruction ++ (post ++ ops'.flatMap RewriteOp.flat)))) ↔
      post ++ new.map .instruction = new.map .instruction ++ post := by
    rw [hinserted]
    simp only [Except.ok.injEq, exists_eq_left']
    rw [changesOnly_set_iff hblock]
    simp only [List.flatMap_append, List.flatMap_cons, List.flatMap_nil, hop, flatMap_flat_map,
      List.append_assoc, List.cons_append, List.append_cancel_left_eq,
      List.cons.injEq, true_and]
    simp only [← List.append_assoc, List.append_cancel_right_eq, List.append_nil]
  rw [hlocal]
  unfold InsertsDirectly
  rw [opAt_eq hblock hops hlocate]
  rcases flat_cut hop with ⟨rfl, rfl, rfl⟩ | ⟨m, front, rest, rfl, hm, rfl, rfl⟩
  · simp
  · have hbehind := behind_eq hm h.carries hquiet
    constructor
    · intro hcomm m' hm'
      obtain rfl := RewriteOp.macroOp.inj (Option.some.inj hm')
      rw [hbehind]
      apply @map_instruction_injective Mn Rg Op Mk
      rw [List.map_append, List.map_append]
      exact hcomm
    · intro hcomm
      have hrest := hcomm m rfl
      rw [hbehind] at hrest
      rw [← List.map_append, hrest, List.map_append]

/-- **A removal** takes the instruction alone exactly when it is the whole op. -/
theorem removeAtAddress_iff (h : CarriedOnce plan address b before i after)
    (hordered : plan.Ordered) :
    (∃ plan', plan.removeAtAddress address = .ok plan' ∧ ChangesOnly plan plan' b (before ++ after)) ↔
      RemovesAlone plan address := by
  obtain ⟨block, ops, op, ops', pre, post, hblock, hops, hop, rfl, rfl, hlocate, -⟩ :=
    h.located hordered
  have hremoved : plan.removeAtAddress address = .ok ⟨plan.blocks.set b
      { block with ops := ops ++ ops' }⟩ := by
    unfold RewritePlan.removeAtAddress
    rw [hlocate]
    simp only [modify_eq_set _ hblock, hops]
    congr 4
    rw [List.eraseIdx_append_of_length_le (Nat.le_refl _)]
    simp
  rw [hremoved]
  simp only [Except.ok.injEq, exists_eq_left']
  rw [changesOnly_set_iff hblock]
  have halone : ops.flatMap RewriteOp.flat ++ ops'.flatMap RewriteOp.flat =
      ops.flatMap RewriteOp.flat ++ pre ++ (post ++ ops'.flatMap RewriteOp.flat) ↔
      op.flat.length = 1 := by
    constructor
    · intro heq
      have hlen := congrArg List.length heq
      simp only [List.length_append] at hlen
      rw [hop, List.length_append, List.length_cons]
      omega
    · intro hlen
      rw [hop, List.length_append, List.length_cons] at hlen
      obtain rfl := List.eq_nil_of_length_eq_zero (show pre.length = 0 by omega)
      obtain rfl := List.eq_nil_of_length_eq_zero (show post.length = 0 by omega)
      simp
  rw [List.flatMap_append, halone]
  unfold RemovesAlone
  rw [opAt_eq hblock hops hlocate]
  rcases flat_cut hop with ⟨rfl, -, -⟩ | ⟨m, front, rest, rfl, -, -, -⟩
  · simp [RewriteOp.flat]
  · simp [RewriteOp.flat]

/-- **A replaced terminator** is the last instruction alone exactly when it is
the whole op; an empty block gets its first instruction. -/
theorem replaceTerminator_iff {id : BasicBlockId} {block : RewriteBlock Mn Rg Op Mk}
    (hblock : plan.blocks[id.index]? = some block) (hordered : plan.Ordered)
    (new : RewriteInstruction Mn Op) :
    (∃ plan', plan.replaceTerminator id new = .ok plan' ∧
        ChangesOnly plan plan' id.index (block.flat.dropLast ++ [.instruction new])) ↔
      EndsAlone plan id.index := by
  have hlt := (List.getElem?_eq_some_iff.mp hblock).1
  have hreplaced : plan.replaceTerminator id new = .ok ⟨plan.blocks.set id.index
      { block with ops := block.ops.dropLast ++ [.instruction new] }⟩ := by
    unfold RewritePlan.replaceTerminator
    rw [if_pos hlt, modify_eq_set _ hblock]
  rw [hreplaced]
  simp only [Except.ok.injEq, exists_eq_left']
  rw [changesOnly_set_iff hblock]
  unfold EndsAlone
  rcases List.eq_nil_or_concat block.ops with hnil | ⟨ops, last, hops⟩
  · refine iff_of_true (by simp [RewriteBlock.flat, hnil, RewriteOp.flat]) ?_
    intro block' m hblock' hlast
    rw [hblock] at hblock'
    obtain rfl := Option.some.inj hblock'
    rw [hnil] at hlast
    cases hlast
  · rw [List.concat_eq_append] at hops
    have hnonempty : last.flat ≠ [] := by
      cases last with
      | instruction x => simp [RewriteOp.flat]
      | raw bytes => simp [RewriteOp.flat]
      | macroOp m =>
        have hlisted := hordered.listed block (List.mem_of_getElem? hblock) m (by rw [hops]; simp)
        simp [RewriteOp.flat, hlisted.nonempty]
    have hflat : block.flat.dropLast = ops.flatMap RewriteOp.flat ++ last.flat.dropLast := by
      unfold RewriteBlock.flat
      rw [hops, List.flatMap_append, List.flatMap_singleton, List.dropLast_append_of_ne_nil hnonempty]
    have halone : (block.ops.dropLast ++ [RewriteOp.instruction new]).flatMap RewriteOp.flat =
        block.flat.dropLast ++ [.instruction new] ↔ last.flat.length = 1 := by
      have hpos := List.length_pos_iff.mpr hnonempty
      rw [hflat, hops, List.dropLast_concat]
      rw [List.flatMap_append, List.flatMap_singleton, List.append_assoc,
        List.append_cancel_left_eq]
      constructor
      · intro heq
        have hlen := congrArg List.length heq
        rw [List.length_append, List.length_dropLast] at hlen
        have hone : (RewriteOp.flat (.instruction new : RewriteOp Mn Rg Op Mk)).length = 1 := rfl
        rw [hone, List.length_singleton] at hlen
        omega
      · intro hlen
        have hdrop : last.flat.dropLast = [] := by
          apply List.eq_nil_of_length_eq_zero
          rw [List.length_dropLast, hlen]
        rw [hdrop]
        rfl
    rw [halone]
    constructor
    · intro hlen block' m hblock' hlast
      rw [hblock] at hblock'
      obtain rfl := Option.some.inj hblock'
      rw [hops, List.getLast?_concat] at hlast
      obtain rfl := Option.some.inj hlast
      simpa [RewriteOp.flat] using hlen
    · intro hends
      cases last with
      | instruction x => rfl
      | raw bytes => rfl
      | macroOp m =>
        have hlen := hends block m hblock (by rw [hops, List.getLast?_concat])
        simpa [RewriteOp.flat] using hlen

/-- **A macro taken apart** leaves every block as it was, written out. -/
theorem unfuseMacroAt_flat (plan : RewritePlan Mn Rg Op Mk) (address : U64) :
    plan.unfuseMacroAt address = plan ∨
      ∃ b block, plan.blocks[b]? = some block ∧
        ChangesOnly plan (plan.unfuseMacroAt address) b block.flat := by
  unfold RewritePlan.unfuseMacroAt
  split
  · exact .inl rfl
  · next b j hlocate =>
    split
    · next m hop =>
      split
      · right
        obtain ⟨block, hblock, hm⟩ := Option.bind_eq_some_iff.mp hop
        refine ⟨b, block, hblock, ?_⟩
        unfold RewritePlan.replaceOp
        rw [modify_eq_set _ hblock, changesOnly_set_iff hblock]
        unfold RewriteBlock.flat
        conv_rhs => rw [eq_take_cons_drop hm]
        rw [replaceAt, List.flatMap_append, List.flatMap_append, flatMap_flat_map,
          List.flatMap_append, List.flatMap_cons, List.append_assoc]
        rfl
      · exact .inl rfl
    · exact .inl rfl

end Local

/-! ## §4. Every plan that is lifted and edited. -/

/-- An edit of the sequence of instructions. -/
inductive SequenceEdit (Mn Op : Type) where
  | insertAfter (address : U64) (new : List (RewriteInstruction Mn Op))
  | remove (address : U64)
  | replaceTerminator (id : BasicBlockId) (new : RewriteInstruction Mn Op)
  | unfuse (address : U64)
  deriving Repr, DecidableEq

namespace RewritePlan

/-- The plan after an edit: the old one when the edit fails, for every edit
looks its op up before it writes. -/
def settle (plan : RewritePlan Mn Rg Op Mk) (result : Except EditError (RewritePlan Mn Rg Op Mk)) :
    Except EditError Unit × RewritePlan Mn Rg Op Mk :=
  match result with
  | .ok plan' => (.ok (), plan')
  | .error e => (.error e, plan)

def perform (plan : RewritePlan Mn Rg Op Mk) :
    SequenceEdit Mn Op → Except EditError Unit × RewritePlan Mn Rg Op Mk
  | .insertAfter address new => plan.settle (plan.insertAfterAddress address new)
  | .remove address => plan.settle (plan.removeAtAddress address)
  | .replaceTerminator id new => plan.settle (plan.replaceTerminator id new)
  | .unfuse address => (.ok (), plan.unfuseMacroAt address)

theorem settle_iff {plan : RewritePlan Mn Rg Op Mk}
    {result : Except EditError (RewritePlan Mn Rg Op Mk)} {P : RewritePlan Mn Rg Op Mk → Prop} :
    (plan.settle result).1 = .ok () ∧ P (plan.settle result).2 ↔ ∃ plan', result = .ok plan' ∧ P plan' := by
  cases result <;> simp [settle]

/-- A failed edit leaves the plan as it was. -/
theorem perform_error {plan : RewritePlan Mn Rg Op Mk} {e : SequenceEdit Mn Op} {error : EditError}
    (h : (plan.perform e).1 = .error error) : (plan.perform e).2 = plan := by
  have hsettle : ∀ result, (plan.settle result).1 = .error error → (plan.settle result).2 = plan := by
    intro result hresult
    cases result with
    | ok plan' => cases hresult
    | error e => rfl
  cases e with
  | insertAfter address new => exact hsettle _ h
  | remove address => exact hsettle _ h
  | replaceTerminator id new => exact hsettle _ h
  | unfuse address => cases h

end RewritePlan

/-- What an edit does to the sequence: the instruction of its address is
followed by the new ones, or goes; the last instruction of its block gives way;
or nothing changes.  Everything else stays. -/
def ExactlyLocal (plan : RewritePlan Mn Rg Op Mk) : SequenceEdit Mn Op → Prop
  | .insertAfter address new => ∀ b before i after, CarriedOnce plan address b before i after →
      (plan.perform (.insertAfter address new)).1 = .ok () ∧
        ChangesOnly plan (plan.perform (.insertAfter address new)).2 b
          (before ++ .instruction i :: (new.map .instruction ++ after))
  | .remove address => ∀ b before i after, CarriedOnce plan address b before i after →
      (plan.perform (.remove address : SequenceEdit Mn Op)).1 = .ok () ∧
        ChangesOnly plan (plan.perform (.remove address : SequenceEdit Mn Op)).2 b (before ++ after)
  | .replaceTerminator id new => ∀ (k : Nat) (block : RewriteBlock Mn Rg Op Mk),
      plan.blocks[k]? = some block → block.id = id →
      (plan.perform (.replaceTerminator id new)).1 = .ok () ∧
        ChangesOnly plan (plan.perform (.replaceTerminator id new)).2 k
          (block.flat.dropLast ++ [.instruction new])
  | .unfuse address => (plan.unfuseMacroAt address = plan ∨ ∃ (b : Nat) (block : RewriteBlock Mn Rg Op Mk),
      plan.blocks[b]? = some block ∧ ChangesOnly plan (plan.unfuseMacroAt address) b block.flat)

/-- The op that an edit takes, follows or replaces is a single instruction, or
nothing of the macro gets in its way. -/
def TakesOneInstruction (plan : RewritePlan Mn Rg Op Mk) : SequenceEdit Mn Op → Prop
  | .insertAfter address new =>
    plan.flat.countP (RewriteOp.matchesSourceAddress address) = 1 → InsertsDirectly plan address new
  | .remove address =>
    plan.flat.countP (RewriteOp.matchesSourceAddress address) = 1 → RemovesAlone plan address
  | .replaceTerminator id _ => EndsAlone plan id.index
  | .unfuse _ => True

/-- An address that one instruction carries stands somewhere. -/
theorem exists_carriedOnce {plan : RewritePlan Mn Rg Op Mk} {address : U64}
    (h : plan.flat.countP (RewriteOp.matchesSourceAddress address) = 1) :
    ∃ b before i after, CarriedOnce plan address b before i after := by
  obtain ⟨x, hx, hmatch⟩ := List.countP_pos_iff.mp (Nat.lt_of_lt_of_eq Nat.zero_lt_one h.symm)
  obtain ⟨block, hblock, hx⟩ := List.mem_flatMap.mp hx
  obtain ⟨b, hb⟩ := List.mem_iff_getElem?.mp hblock
  obtain ⟨before, after, hsplit⟩ := List.append_of_mem hx
  obtain ⟨ops, op, ops', pre, post, -, hop, -, -⟩ := exists_cut_flatMap hsplit
  have hin : x ∈ op.flat := by
    rw [hop]
    exact List.mem_append_right _ List.mem_cons_self
  have hinstruction : ∃ i, x = .instruction i := by
    cases op with
    | instruction i => exact ⟨i, List.mem_singleton.mp hin⟩
    | macroOp m =>
      obtain ⟨i, -, rfl⟩ := List.mem_map.mp hin
      exact ⟨i, rfl⟩
    | raw bytes =>
      obtain rfl := List.mem_singleton.mp hin
      cases hmatch
  obtain ⟨i, rfl⟩ := hinstruction
  exact ⟨b, before, i, after, by simpa [RewriteOp.matchesSourceAddress] using hmatch,
    ⟨block, hb, hsplit⟩, h⟩

theorem exactlyLocal_of_ordered {plan : RewritePlan Mn Rg Op Mk} (h : plan.Ordered)
    (e : SequenceEdit Mn Op) : ExactlyLocal plan e ↔ TakesOneInstruction plan e := by
  cases e with
  | insertAfter address new =>
    constructor
    · intro hlocal honce
      obtain ⟨b, before, i, after, hcarried⟩ := exists_carriedOnce honce
      exact (insertAfterAddress_iff hcarried h new).mp
        (RewritePlan.settle_iff.mp (hlocal b before i after hcarried))
    · intro htakes b before i after hcarried
      exact RewritePlan.settle_iff.mpr
        ((insertAfterAddress_iff hcarried h new).mpr (htakes hcarried.once))
  | remove address =>
    constructor
    · intro hlocal honce
      obtain ⟨b, before, i, after, hcarried⟩ := exists_carriedOnce honce
      exact (removeAtAddress_iff hcarried h).mp
        (RewritePlan.settle_iff.mp (hlocal b before i after hcarried))
    · intro htakes b before i after hcarried
      exact RewritePlan.settle_iff.mpr
        ((removeAtAddress_iff hcarried h).mpr (htakes hcarried.once))
  | replaceTerminator id new =>
    have hposition : ∀ (k : Nat) (block : RewriteBlock Mn Rg Op Mk), plan.blocks[k]? = some block →
        block.id = id → k = id.index := by
      intro k block hblock hid
      rw [← hid, h.ids k block hblock]
    constructor
    · intro hlocal
      cases hblock : plan.blocks[id.index]? with
      | none =>
        intro block m hblock'
        rw [hblock] at hblock'
        cases hblock'
      | some block =>
        exact (replaceTerminator_iff hblock h new).mp
          (RewritePlan.settle_iff.mp (hlocal id.index block hblock (h.ids _ _ hblock)))
    · intro hends k block hblock hid
      obtain rfl := hposition k block hblock hid
      exact RewritePlan.settle_iff.mpr ((replaceTerminator_iff hblock h new).mpr hends)
  | unfuse address => exact iff_of_true (unfuseMacroAt_flat plan address) trivial

/-- Fusion lists the addresses of what it fuses. -/
def Isa.ListsMacros (I : Isa Mn Rg Op E Mk Di) : Prop :=
  ∀ instructions blocks container relocations m,
    .macroOp m ∈ I.fuseMacros instructions blocks container relocations → m.Listed

/-- The plans that come from a lift by edits. -/
inductive Edited (I : Isa Mn Rg Op E Mk Di) : RewritePlan Mn Rg Op Mk → Prop where
  | lifted (info : InstructionInfo Di) (instructions : List Di) (container : Option Container) :
      Edited I (liftInner I (buildCfg info instructions) instructions container)
  | performed {plan : RewritePlan Mn Rg Op Mk} (h : Edited I plan) (e : SequenceEdit Mn Op) :
      Edited I (plan.perform e).2
  | redirected {plan plan' : RewritePlan Mn Rg Op Mk} {address : U64} {target : Target}
      (h : Edited I plan) (hok : plan.redirectBranch address target = .ok plan') : Edited I plan'
  | retargeted {plan plan' : RewritePlan Mn Rg Op Mk} {address : U64} {target : Target}
      (h : Edited I plan) (hok : plan.redirectMacroTarget address target = .ok plan') :
      Edited I plan'

section Keeps

variable {plan : RewritePlan Mn Rg Op Mk}

/-- A change of one block that brings no new macros keeps the order. -/
theorem RewritePlan.Ordered.modify (h : plan.Ordered) (b : Nat)
    {f : List (RewriteOp Mn Rg Op Mk) → List (RewriteOp Mn Rg Op Mk)}
    (hf : ∀ block ∈ plan.blocks, ∀ m, .macroOp m ∈ f block.ops → m.Listed) :
    RewritePlan.Ordered ⟨plan.blocks.modify b fun block => { block with ops := f block.ops }⟩ where
  listed := by
    intro block hblock m hm
    obtain ⟨k, hk⟩ := List.mem_iff_getElem?.mp hblock
    rw [List.getElem?_modify] at hk
    obtain ⟨old, hold, rfl⟩ := Option.map_eq_some_iff.mp hk
    have hmem := List.mem_of_getElem? hold
    split at hm
    · exact hf old hmem m hm
    · exact h.listed old hmem m hm
  ids := by
    intro k block hk
    rw [List.getElem?_modify] at hk
    obtain ⟨old, hold, rfl⟩ := Option.map_eq_some_iff.mp hk
    have hid := h.ids k old hold
    split <;> exact hid

theorem RewritePlan.Ordered.insertAfterAddress (h : plan.Ordered) {plan' : RewritePlan Mn Rg Op Mk}
    {address : U64} {new : List (RewriteInstruction Mn Op)}
    (hok : plan.insertAfterAddress address new = .ok plan') : plan'.Ordered := by
  unfold RewritePlan.insertAfterAddress at hok
  split at hok
  · cases hok
  · next b j _ =>
    cases hok
    refine h.modify b (f := fun ops => ops.take (j + 1) ++ new.map .instruction ++ ops.drop (j + 1))
      fun block hblock m hm => ?_
    simp only [List.mem_append, List.mem_map, reduceCtorEq, and_false, exists_false, or_false] at hm
    rcases hm with hm | hm
    · exact h.listed block hblock m (List.mem_of_mem_take hm)
    · exact h.listed block hblock m (List.mem_of_mem_drop hm)

theorem RewritePlan.Ordered.removeAtAddress (h : plan.Ordered) {plan' : RewritePlan Mn Rg Op Mk}
    {address : U64} (hok : plan.removeAtAddress address = .ok plan') : plan'.Ordered := by
  unfold RewritePlan.removeAtAddress at hok
  split at hok
  · cases hok
  · next b j _ =>
    cases hok
    exact h.modify b (f := fun ops => ops.eraseIdx j) fun block hblock m hm =>
      h.listed block hblock m (List.mem_of_mem_eraseIdx hm)

theorem RewritePlan.Ordered.replaceTerminator (h : plan.Ordered) {plan' : RewritePlan Mn Rg Op Mk}
    {id : BasicBlockId} {new : RewriteInstruction Mn Op}
    (hok : plan.replaceTerminator id new = .ok plan') : plan'.Ordered := by
  unfold RewritePlan.replaceTerminator at hok
  split at hok
  · cases hok
    refine h.modify id.index (f := fun ops => ops.dropLast ++ [.instruction new])
      fun block hblock m hm => ?_
    simp only [List.mem_append, List.mem_singleton, reduceCtorEq, or_false] at hm
    exact h.listed block hblock m (List.mem_of_mem_dropLast hm)
  · cases hok

theorem RewritePlan.Ordered.unfuseMacroAt (h : plan.Ordered) (address : U64) :
    (plan.unfuseMacroAt address).Ordered := by
  unfold RewritePlan.unfuseMacroAt
  split
  · exact h
  · next b j _ =>
    split
    · next macroAt _ =>
      split
      · refine h.modify b
          (f := fun ops => replaceAt j (macroAt.originalInstructions.map .instruction) ops)
          fun block hblock m hm => ?_
        simp only [replaceAt, List.mem_append, List.mem_map, reduceCtorEq, and_false, exists_false,
          or_false] at hm
        rcases hm with hm | hm
        · exact h.listed block hblock m (List.mem_of_mem_take hm)
        · exact h.listed block hblock m (List.mem_of_mem_drop hm)
      · exact h
    · exact h

theorem RewritePlan.Ordered.perform (h : plan.Ordered) (e : SequenceEdit Mn Op) :
    (plan.perform e).2.Ordered := by
  have hsettle : ∀ result : Except EditError (RewritePlan Mn Rg Op Mk),
      (∀ plan', result = .ok plan' → plan'.Ordered) → (plan.settle result).2.Ordered := by
    intro result hresult
    cases result with
    | ok plan' => exact hresult plan' rfl
    | error e => exact h
  cases e with
  | insertAfter address new => exact hsettle _ fun _ hok => h.insertAfterAddress hok
  | remove address => exact hsettle _ fun _ hok => h.removeAtAddress hok
  | replaceTerminator id new => exact hsettle _ fun _ hok => h.replaceTerminator hok
  | unfuse address => exact h.unfuseMacroAt address

theorem RewritePlan.Ordered.setOp (h : plan.Ordered) (b j : Nat) {op : RewriteOp Mn Rg Op Mk}
    (hop : ∀ m, op = .macroOp m → m.Listed) : (plan.setOp b j op).Ordered := by
  refine h.modify b (f := fun ops => ops.set j op) fun block hblock m hm => ?_
  rcases List.mem_or_eq_of_mem_set hm with hm | hm
  · exact h.listed block hblock m hm
  · exact hop m hm.symm

theorem RewritePlan.Ordered.redirectBranch (h : plan.Ordered) {plan' : RewritePlan Mn Rg Op Mk}
    {address : U64} {target : Target} (hok : plan.redirectBranch address target = .ok plan') :
    plan'.Ordered := by
  unfold RewritePlan.redirectBranch at hok
  split at hok
  · cases hok
  · split at hok
    · split at hok
      · cases hok
        exact h.setOp _ _ fun m hm => by cases hm
      · cases hok
    · cases hok

theorem RewritePlan.Ordered.redirectMacroTarget (h : plan.Ordered)
    {plan' : RewritePlan Mn Rg Op Mk} {address : U64} {target : Target}
    (hok : plan.redirectMacroTarget address target = .ok plan') : plan'.Ordered := by
  unfold RewritePlan.redirectMacroTarget at hok
  split at hok
  · cases hok
  · next b j _ =>
    split at hok
    · next m hop =>
      cases hok
      obtain ⟨block, hblock, hm⟩ := Option.bind_eq_some_iff.mp hop
      have hlisted := h.listed block (List.mem_of_getElem? hblock) m (List.mem_of_getElem? hm)
      refine h.setOp b j fun m' hm' => ?_
      obtain rfl := RewriteOp.macroOp.inj hm'
      exact ⟨hlisted.addresses, hlisted.nonempty⟩
    · cases hok

end Keeps

theorem Edited.ordered {I : Isa Mn Rg Op E Mk Di} (hI : I.ListsMacros)
    {plan : RewritePlan Mn Rg Op Mk} (h : Edited I plan) : plan.Ordered := by
  induction h with
  | lifted info instructions container =>
    refine ⟨fun block hblock m hm => ?_, fun k block hk => ?_⟩
    · obtain ⟨source, -, rfl⟩ := List.mem_map.mp hblock
      exact hI _ _ _ _ m hm
    · unfold liftInner at hk
      rw [List.getElem?_map] at hk
      obtain ⟨source, hsource, rfl⟩ := Option.map_eq_some_iff.mp hk
      have hid := ((buildCfg_tiles info instructions).getElem? hsource).1
      rwa [Nat.zero_add] at hid
  | performed h e ih => exact ih.perform e
  | redirected h hok ih => exact ih.redirectBranch hok
  | retargeted h hok ih => exact ih.redirectMacroTarget hok

/-! ## §5. The instruction sets. -/

theorem aarch64_listsMacros : aarch64.ListsMacros := by
  intro instructions blocks container relocations m hm
  cases fuseMacros_fusedOp instructions _ hm with
  | @pair _ first second hfused =>
    refine ⟨?_, by rw [hfused.originals]; exact List.cons_ne_nil _ _⟩
    rw [hfused.addresses, hfused.originals, List.filterMap_cons, List.filterMap_cons,
      List.filterMap_cons, List.filterMap_cons]
    rfl

/-- Thumb and ARM mode fuse nothing. -/
theorem fuseNothing_listed (instructions : List (RewriteInstruction Mn Armv7.DecodedOperand))
    (blocks : Map U64 BasicBlockId) (container : Option Container)
    (relocations : Map U64 FusionRelocationInfo)
    {m : MacroOp Mn Armv7.Register Armv7.DecodedOperand Mk}
    (h : .macroOp m ∈ Armv7.fuseNothing instructions blocks container relocations) : m.Listed := by
  obtain ⟨i, -, hi⟩ := List.mem_map.mp h
  cases hi

theorem thumb_listsMacros : Armv7.thumb.ListsMacros :=
  fun instructions blocks container relocations _ hm =>
    fuseNothing_listed instructions blocks container relocations hm

theorem arm_listsMacros : Armv7.arm.ListsMacros :=
  fun instructions blocks container relocations _ hm =>
    fuseNothing_listed instructions blocks container relocations hm

/-! ## §6. The law. -/

/-- **Edits are local** in every plan that comes from a lift by edits, exactly
where the op they hit is one instruction; one that fails changes nothing. -/
theorem exactlyLocal_iff {I : Isa Mn Rg Op E Mk Di} (hI : I.ListsMacros)
    {plan : RewritePlan Mn Rg Op Mk} (h : Edited I plan) (e : SequenceEdit Mn Op) :
    ((∀ error, (plan.perform e).1 = .error error → (plan.perform e).2 = plan) ∧
        ExactlyLocal plan e) ↔ TakesOneInstruction plan e := by
  rw [exactlyLocal_of_ordered (h.ordered hI) e]
  exact and_iff_right fun error herror => RewritePlan.perform_error herror

/-- `adrp x0, 0x2000` and `add x0, x0, #16`, which fuse. -/
def fusedCode : List DecodedInstruction :=
  [⟨0x1000, 0xb0000000, .adrp, [.register ⟨.x, 0⟩, .pageTarget 0x2000]⟩,
    ⟨0x1004, 0x91004000, .add, [.register ⟨.xOrSp, 0⟩, .register ⟨.xOrSp, 0⟩, .immediate 16]⟩]

def fusedPlan : AarchPlan := liftInner aarch64 (buildCfg aarch64Info fusedCode) fusedCode none

theorem fusedPlan_edited : Edited aarch64 fusedPlan := .lifted aarch64Info fusedCode none

/-- Behind the second half of a pair is behind the pair. -/
theorem fusedPlan_inserts (new : List AarchInstruction) :
    TakesOneInstruction fusedPlan (.insertAfter 0x1004 new) := by
  intro _ m hm
  obtain ⟨fused, hfused, hbehind⟩ : ∃ fused, fusedPlan.opAt 0x1004 = some (.macroOp fused) ∧
      fused.behind 0x1004 = [] := ⟨_, rfl, rfl⟩
  rw [hfused] at hm
  obtain rfl := RewriteOp.macroOp.inj (Option.some.inj hm)
  rw [hbehind, List.append_nil, List.nil_append]

theorem fusedPlan_local :
    (∀ error, (fusedPlan.perform (.insertAfter 0x1004 [])).1 = .error error →
        (fusedPlan.perform (.insertAfter 0x1004 [])).2 = fusedPlan) ∧
      ExactlyLocal fusedPlan (.insertAfter 0x1004 []) :=
  (exactlyLocal_iff aarch64_listsMacros fusedPlan_edited _).mpr (fusedPlan_inserts [])

/-- Removing the second half of a pair takes the first one with it. -/
theorem fusedPlan_notLocal :
    Edited aarch64 fusedPlan ∧ fusedPlan.flat.countP (RewriteOp.matchesSourceAddress 0x1004) = 1 ∧
      ¬ExactlyLocal fusedPlan (.remove 0x1004) := by
  have honce : fusedPlan.flat.countP (RewriteOp.matchesSourceAddress 0x1004) = 1 := by decide
  refine ⟨fusedPlan_edited, honce, fun hlocal => ?_⟩
  have halone := (exactlyLocal_of_ordered (fusedPlan_edited.ordered aarch64_listsMacros) _).mp
    hlocal honce
  obtain ⟨m, hm, hlength⟩ : ∃ m, fusedPlan.opAt 0x1004 = some (.macroOp m) ∧
      m.originalInstructions.length = 2 := ⟨_, rfl, rfl⟩
  rw [halone m hm] at hlength
  cases hlength

end Armv8Encode

/-
  Armv8Encode.Rewrite.Edit — edits of a plan.

  An edit names an op by the source address it was lifted from; the first op
  that matches the address is meant.  `redirectBranch` replaces the target of
  the first symbolic operand and leaves everything else of the plan as it is,
  the original address of the instruction included.
-/
import Armv8Encode.Lib.Lists
import Armv8Encode.Rewrite.Ir

namespace Armv8Encode

open Lib

inductive EditError where
  | addressNotFound (address : U64)
  | noBranchOperand (address : U64)
  | notAMacro (address : U64)
  | notAnInstruction (address : U64)
  | unknownBlock (id : BasicBlockId)
  deriving Repr, DecidableEq

variable {Mn Rg Op Mk : Type}

/-! ## §1. One op. -/

/-- Replace the target of the first symbolic operand. -/
def redirectFirst (target : Target) : List (RewriteOperand Op) → Option (List (RewriteOperand Op))
  | [] => none
  | .branch _ :: rest => some (.branch target :: rest)
  | .page _ :: rest => some (.page target :: rest)
  | .decoded o :: rest => (redirectFirst target rest).map (.decoded o :: ·)

def RewriteInstruction.redirect (i : RewriteInstruction Mn Op) (target : Target) :
    Option (RewriteInstruction Mn Op) :=
  (redirectFirst target i.operands).map fun operands => { i with operands := operands }

/-! ## §2. One plan. -/

namespace RewritePlan

/-- The block and op index of the first op lifted from an address. -/
def locate (plan : RewritePlan Mn Rg Op Mk) (address : U64) : Option (Nat × Nat) :=
  (plan.blocks.zipIdx.findSome? fun (block, b) =>
    (block.ops.findIdx? (RewriteOp.matchesSourceAddress address)).map fun j => (b, j))

/-- The op at a block and op index. -/
def opAtIndex (plan : RewritePlan Mn Rg Op Mk) (b j : Nat) : Option (RewriteOp Mn Rg Op Mk) :=
  plan.blocks[b]?.bind fun block => block.ops[j]?

def opAt (plan : RewritePlan Mn Rg Op Mk) (address : U64) : Option (RewriteOp Mn Rg Op Mk) :=
  (plan.locate address).bind fun (b, j) => plan.opAtIndex b j

/-- Put an op in the place of the one at a block and op index. -/
def setOp (plan : RewritePlan Mn Rg Op Mk) (b j : Nat) (op : RewriteOp Mn Rg Op Mk) :
    RewritePlan Mn Rg Op Mk :=
  ⟨plan.blocks.modify b fun block => { block with ops := block.ops.set j op }⟩

def redirectBranch (plan : RewritePlan Mn Rg Op Mk) (address : U64) (target : Target) :
    Except EditError (RewritePlan Mn Rg Op Mk) :=
  match plan.locate address with
  | none => .error (.addressNotFound address)
  | some (b, j) =>
    match plan.opAtIndex b j with
    | some (.instruction i) =>
      match i.redirect target with
      | some i' => .ok (plan.setOp b j (.instruction i'))
      | none => .error (.noBranchOperand address)
    | _ => .error (.notAnInstruction address)

/-- After an op was put somewhere it stands there, and the others stay. -/
theorem opAtIndex_setOp {plan : RewritePlan Mn Rg Op Mk} {b j : Nat} {old op : RewriteOp Mn Rg Op Mk}
    (h : plan.opAtIndex b j = some old) (b' j' : Nat) :
    (plan.setOp b j op).opAtIndex b' j'
      = if b' = b ∧ j' = j then some op else plan.opAtIndex b' j' := by
  obtain ⟨block, hblock, hold⟩ := Option.bind_eq_some_iff.mp h
  have hj : j < block.ops.length := (List.getElem?_eq_some_iff.mp hold).1
  unfold opAtIndex setOp
  by_cases hb : b = b'
  · subst hb
    rw [List.getElem?_modify_eq, hblock]
    by_cases hjj : j = j'
    · subst hjj
      simp [hj]
    · simp [List.getElem?_set_ne hjj, Ne.symm hjj]
  · rw [List.getElem?_modify_ne _ _ hb]
    simp [Ne.symm hb]

/-- Give the macro lifted from an address another target; its original
instructions stay what they are. -/
def redirectMacroTarget (plan : RewritePlan Mn Rg Op Mk) (address : U64) (target : Target) :
    Except EditError (RewritePlan Mn Rg Op Mk) :=
  match plan.locate address with
  | none => .error (.addressNotFound address)
  | some (b, j) =>
    match plan.opAtIndex b j with
    | some (.macroOp m) => .ok (plan.setOp b j (.macroOp { m with target := target }))
    | _ => .error (.notAMacro address)

theorem redirectMacroTarget_ok {plan plan' : RewritePlan Mn Rg Op Mk} {address : U64}
    {target : Target} (h : plan.redirectMacroTarget address target = .ok plan') :
    ∃ b j m, plan.opAtIndex b j = some (.macroOp m) ∧
      ∀ b' j', plan'.opAtIndex b' j'
        = if b' = b ∧ j' = j then some (.macroOp { m with target := target })
          else plan.opAtIndex b' j' := by
  unfold redirectMacroTarget at h
  split at h
  · cases h
  · next b j _ =>
    split at h
    · next m hop =>
      cases h
      exact ⟨b, j, m, hop, opAtIndex_setOp hop⟩
    · cases h

/-! ## §3. Edits of the sequence of ops. -/

/-- Put instructions right after the op lifted from an address. -/
def insertAfterAddress (plan : RewritePlan Mn Rg Op Mk) (address : U64)
    (new : List (RewriteInstruction Mn Op)) : Except EditError (RewritePlan Mn Rg Op Mk) :=
  match plan.locate address with
  | none => .error (.addressNotFound address)
  | some (b, j) =>
    .ok ⟨plan.blocks.modify b fun block =>
      { block with ops := block.ops.take (j + 1) ++ new.map .instruction ++ block.ops.drop (j + 1) }⟩

/-- Take the op lifted from an address out of its block. -/
def removeAtAddress (plan : RewritePlan Mn Rg Op Mk) (address : U64) :
    Except EditError (RewritePlan Mn Rg Op Mk) :=
  match plan.locate address with
  | none => .error (.addressNotFound address)
  | some (b, j) =>
    .ok ⟨plan.blocks.modify b fun block => { block with ops := block.ops.eraseIdx j }⟩

/-- Put an instruction in the place of the last op of a block, or into an empty one. -/
def replaceTerminator (plan : RewritePlan Mn Rg Op Mk) (id : BasicBlockId)
    (i : RewriteInstruction Mn Op) : Except EditError (RewritePlan Mn Rg Op Mk) :=
  if id.index < plan.blocks.length then
    .ok ⟨plan.blocks.modify id.index fun block =>
      { block with ops := block.ops.dropLast ++ [.instruction i] }⟩
  else .error (.unknownBlock id)

/-- Put several ops in the place of the one at a block and op index. -/
def replaceOp (plan : RewritePlan Mn Rg Op Mk) (b j : Nat) (ops : List (RewriteOp Mn Rg Op Mk)) :
    RewritePlan Mn Rg Op Mk :=
  ⟨plan.blocks.modify b fun block => { block with ops := replaceAt j ops block.ops }⟩

/-- Split the macro that begins at an address back into its instructions. -/
def unfuseMacroAt (plan : RewritePlan Mn Rg Op Mk) (address : U64) : RewritePlan Mn Rg Op Mk :=
  match plan.locate address with
  | none => plan
  | some (b, j) =>
    match plan.opAtIndex b j with
    | some (.macroOp m) =>
      if m.originalInstructions.head?.bind RewriteInstruction.originalAddress = some address then
        plan.replaceOp b j (m.originalInstructions.map .instruction)
      else plan
    | _ => plan

/-- Where no macro begins there is nothing to take apart. -/
theorem unfuseMacroAt_eq_self {plan : RewritePlan Mn Rg Op Mk} {address : U64}
    (h : ∀ b j m, plan.locate address = some (b, j) → plan.opAtIndex b j = some (.macroOp m) →
      m.originalInstructions.head?.bind RewriteInstruction.originalAddress ≠ some address) :
    plan.unfuseMacroAt address = plan := by
  unfold unfuseMacroAt
  split
  · rfl
  · next b j hlocate =>
    split
    · next m hop => exact if_neg (h b j m hlocate hop)
    · rfl

end RewritePlan

/-- One edit of the instructions of a plan. -/
inductive PlanEdit (Mn Op : Type) where
  | insertAfter (address : U64) (new : List (RewriteInstruction Mn Op))
  | remove (address : U64)
  | replaceTerminator (id : BasicBlockId) (i : RewriteInstruction Mn Op)
  | redirect (address : U64) (target : Target)
  deriving Repr, DecidableEq

namespace RewritePlan

def applyEdit (plan : RewritePlan Mn Rg Op Mk) : PlanEdit Mn Op →
    Except EditError (RewritePlan Mn Rg Op Mk)
  | .insertAfter address new => plan.insertAfterAddress address new
  | .remove address => plan.removeAtAddress address
  | .replaceTerminator id i => plan.replaceTerminator id i
  | .redirect address target => plan.redirectBranch address target

/-- Edit after edit, up to the first one that fails. -/
def applyEdits (plan : RewritePlan Mn Rg Op Mk) :
    List (PlanEdit Mn Op) → Except EditError (RewritePlan Mn Rg Op Mk)
  | [] => .ok plan
  | e :: rest => do
    let plan' ← plan.applyEdit e
    plan'.applyEdits rest

end RewritePlan

end Armv8Encode

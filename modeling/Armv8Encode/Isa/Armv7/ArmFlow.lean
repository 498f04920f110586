/-
  Armv8Encode.Isa.Armv7.ArmFlow — ARM-mode classification against the architecture.

  `archFlow` reads off the fixed bits of a word how the program counter is
  written: a branch, a load or a data-processing instruction with register 15
  as its destination.  The classifier knows some of them by name, and looks at
  the condition of `b` only.  So it is right on a direct branch, and elsewhere
  if the names it knows are the writes that always happen.
-/
import Armv8Encode.Isa.Armv7.ArmRetarget
import Armv8Encode.Isa.Armv7.ControlFlow
import Armv8Encode.Isa.Armv7.FlowSpec
import Armv8Encode.Lib.Patterns

namespace Armv8Encode.Armv7.Arm

open Lib

/-! ## §1. What the architecture does. -/

/-- How a word writes the program counter. -/
inductive PcWrite where
  | branch
  | branchExchange
  | register
  | unpredictable
  deriving Repr, DecidableEq

/-- Words with a condition. -/
def conditionalRules : List (Pattern 32 × PcWrite) :=
  -- b and bl
  [(⟨0x0e000000, 0x0a000000⟩, .branch),
    -- bx, bxj, blx and eret
    (⟨0x0ffffff0, 0x012fff10⟩, .register), (⟨0x0ffffff0, 0x012fff20⟩, .register),
    (⟨0x0ffffff0, 0x012fff30⟩, .register), (⟨0x0fffffff, 0x0160006e⟩, .register),
    -- ldrt, which may not load the program counter, and ldr
    (⟨0x0f70f000, 0x0430f000⟩, .unpredictable), (⟨0x0f70f010, 0x0630f000⟩, .unpredictable),
    (⟨0x0e50f000, 0x0410f000⟩, .register), (⟨0x0e50f010, 0x0610f000⟩, .register),
    -- nor may the loads of halfwords and signed bytes
    (⟨0x0e10f0f0, 0x0010f0b0⟩, .unpredictable), (⟨0x0e10f0f0, 0x0010f0d0⟩, .unpredictable),
    (⟨0x0e10f0f0, 0x0010f0f0⟩, .unpredictable),
    -- ldm with the program counter in its list
    (⟨0x0e108000, 0x08108000⟩, .register),
    -- data processing with an immediate; compares have 10 in bits 24:23
    (⟨0x0f80f000, 0x0200f000⟩, .register), (⟨0x0f80f000, 0x0280f000⟩, .register),
    (⟨0x0f80f000, 0x0380f000⟩, .register),
    -- with a register, shifted by an immediate
    (⟨0x0f80f010, 0x0000f000⟩, .register), (⟨0x0f80f010, 0x0080f000⟩, .register),
    (⟨0x0f80f010, 0x0180f000⟩, .register),
    -- and shifted by a register, where the destination may not be the program counter
    (⟨0x0f80f090, 0x0000f010⟩, .unpredictable), (⟨0x0f80f090, 0x0080f010⟩, .unpredictable),
    (⟨0x0f80f090, 0x0180f010⟩, .unpredictable)]

/-- Words without one: `blx` and `rfe`. -/
def unconditionalRules : List (Pattern 32 × PcWrite) :=
  [(⟨0xfe000000, 0xfa000000⟩, .branchExchange), (⟨0xfe50ffff, 0xf8100a00⟩, .register)]

/-- The condition field of a word without a condition, and the one of `al`. -/
def unconditional : Pattern 32 := ⟨0xf0000000, 0xf0000000⟩
def always : Pattern 32 := ⟨0xf0000000, 0xe0000000⟩

def isConditional (w : Word) : Bool := !decide (always.Holds w) && !decide (unconditional.Holds w)

/-- Targets are sums in the source's 64-bit addresses; the program counter reads
eight bytes ahead. -/
def flowOf (address : U64) (w : Word) : Option PcWrite → ArchFlow
  | none => .sequential
  | some .branch => .direct (isConditional w) (address + 8 + (w.setWidth 24).signExtend 64 * 4)
  | some .branchExchange =>
    .direct (isConditional w)
      (address + 8 + ((w.setWidth 24).signExtend 64 * 4 + (w.extractLsb' 24 1).setWidth 64 * 2))
  | some .register => .indirect (isConditional w)
  | some .unpredictable => .unpredictable

def rulesFor (w : Word) : List (Pattern 32 × PcWrite) :=
  if unconditional.Holds w then unconditionalRules else conditionalRules

/-- What the architecture does after a word at an address. -/
def archFlow (address : U64) (w : Word) : ArchFlow :=
  flowOf address w (firstMatch (rulesFor w) w)

/-! ## §2. What the classifier goes by. -/

/-- A name that stands for a jump or a return, with the program counter among
its destinations where it has some. -/
def leavesByName (m : ArmMnemonic) (w : Word) : Bool :=
  match m with
  | .bx => true
  | .ldm | .ldmfd => w.getLsbD 15
  | .ldr | .mov => w.extractLsb' 12 4 == 15
  | _ => false

/-- A name that does not stand for a plain instruction, direct branches apart. -/
def isListed (m : ArmMnemonic) (w : Word) : Bool :=
  leavesByName m w || [.blx, .svc, .bkpt, .udf, .hvc, .smc].contains m

/-- Off the direct branches: a word that may go on in sequence has no name that
leaves it, and one that always writes the program counter has a listed name. -/
def ReadRight (i : DecodedInstruction) : Prop :=
  match archFlow i.address i.word with
  | .sequential | .indirect true => leavesByName i.mnemonic i.word = false
  | .indirect false => isListed i.mnemonic i.word = true
  | .direct _ _ | .unpredictable => True

/-! ## §3. Direct branches. -/

/-- Words of the class of `b`, `bl` and `blx`. -/
def branchClass : Pattern 32 := ⟨0x0e000000, 0x0a000000⟩

theorem branchExchange_of_class {w : Word} (hclass : branchClass.Holds w)
    (hcond : unconditional.Holds w) : (⟨0xfe000000, 0xfa000000⟩ : Pattern 32).Holds w := by
  show w &&& 0xfe000000 = 0xfa000000
  calc w &&& 0xfe000000 = (w &&& unconditional.mask) ||| (w &&& branchClass.mask) := by
        rw [← BitVec.and_or_distrib_left]
        rfl
    _ = unconditional.value ||| branchClass.value := by rw [hcond, hclass]
    _ = 0xfa000000 := rfl

theorem archFlow_class {w : Word} (address : U64) (hclass : branchClass.Holds w) :
    archFlow address w = flowOf address w
      (some (if unconditional.Holds w then PcWrite.branchExchange else .branch)) := by
  unfold archFlow rulesFor
  by_cases hcond : unconditional.Holds w
  · rw [if_pos hcond, if_pos hcond,
      firstMatch_of_known (branchExchange_of_class hclass hcond) rfl]
  · rw [if_neg hcond, if_neg hcond, firstMatch_of_known hclass rfl]

/-- Off the class there is no direct branch. -/
theorem archFlow_not_direct {w : Word} (address : U64) (hclass : ¬ branchClass.Holds w)
    (conditional : Bool) (target : U64) : archFlow address w ≠ .direct conditional target := by
  unfold archFlow
  intro hdirect
  cases hmatch : firstMatch (rulesFor w) w with
  | none =>
    rw [hmatch] at hdirect
    cases hdirect
  | some write =>
    obtain ⟨p, hmem, hp⟩ := mem_of_firstMatch (anyPattern_holds w) hmatch
    rw [hmatch] at hdirect
    have hbranch : write = .branch ∨ write = .branchExchange := by
      cases write with
      | branch => exact .inl rfl
      | branchExchange => exact .inr rfl
      | register => cases hdirect
      | unpredictable => cases hdirect
    have hrules : ∀ r ∈ conditionalRules ++ unconditionalRules,
        r.2 = .branch ∨ r.2 = .branchExchange → r.1.implies branchClass = true := by decide
    have hin : (p, write) ∈ conditionalRules ++ unconditionalRules := by
      have hmem' := (List.mem_filter.mp hmem).1
      unfold rulesFor at hmem'
      split at hmem'
      · exact List.mem_append_right _ hmem'
      · exact List.mem_append_left _ hmem'
    exact hclass (hp.of_implies (hrules _ hin hbranch))

theorem conditionField (w : Word) : w &&& 0xf0000000#32 = ((w >>> 28) &&& 0xf#32) <<< 28 := by
  ext i hi
  simp only [BitVec.getElem_and, BitVec.getElem_shiftLeft]
  interval_cases i <;> simp

theorem holds_condition_iff {w c shifted : Word} (hc : c &&& 0xf#32 = c)
    (hshifted : c <<< 28 = shifted) :
    (⟨0xf0000000#32, shifted⟩ : Pattern 32).Holds w ↔ (w >>> 28) &&& 0xf#32 = c := by
  show w &&& 0xf0000000#32 = shifted ↔ _
  rw [conditionField, ← hshifted]
  constructor
  · intro h
    have hback : ∀ x : Word, ((x &&& 0xf#32) <<< 28) >>> 28 = x &&& 0xf#32 := by
      intro x
      ext i hi
      simp only [BitVec.getElem_ushiftRight, BitVec.getElem_and]
      interval_cases i <;> simp
    rw [← hback, h, ← hc, hback, hc]
  · intro h
    rw [h]

theorem always_iff (w : Word) : always.Holds w ↔ (w >>> 28) &&& 0xf#32 = 0xe#32 :=
  holds_condition_iff rfl rfl

theorem unconditional_iff (w : Word) : unconditional.Holds w ↔ (w >>> 28) &&& 0xf#32 = 0xf#32 :=
  holds_condition_iff rfl rfl

theorem isConditional_eq (w : Word) :
    isConditional w = !((w >>> 28) &&& 0xf#32 == 0xe#32 || (w >>> 28) &&& 0xf#32 == 0xf#32) := by
  rw [isConditional, decide_eq_decide.mpr (always_iff w), decide_eq_decide.mpr (unconditional_iff w),
    Bool.not_or]
  rfl

/-- A direct branch is classified as what it does. -/
theorem flowSound_class {address : U64} {w : Word} {i : DecodedInstruction}
    (hdecode : decodeOne address w = .ok i) (hclass : branchClass.Holds w) :
    FlowSound (archFlow i.address i.word) (i.address + 4) i.controlFlow := by
  rw [decodeOne_branch hclass] at hdecode
  rw [← Except.ok.inj hdecode, archFlow_class address hclass]
  by_cases hcond : unconditional.Holds w
  · have hrow : classRow w = blxRow := if_pos (branchExchange_of_class hclass hcond)
    have hhalf : ((w >>> 24) &&& 1#32).setWidth 64 = (w.extractLsb' 24 1).setWidth 64 := by
      ext i hi
      simp only [BitVec.getElem_setWidth, BitVec.getLsbD_and, BitVec.getLsbD_extractLsb']
      by_cases hzero : i = 0
      · subst hzero
        simp
      · simp [BitVec.getLsbD_one, hzero]
    rw [if_pos hcond, hrow, operands_blxRow, hhalf, wordOffset_eq]
    exact flowSound_call _
  · have hrow : classRow w = branchRow := by
      refine if_neg fun hexchange => hcond ?_
      show w &&& 0xf0000000 = 0xf0000000
      rw [and_of_known hexchange (by decide)]
      rfl
    rw [if_neg hcond, hrow, operands_branchRow, wordOffset_eq]
    show FlowSound (.direct (isConditional w) _) _
      (if (w >>> 24) &&& 1#32 == 1#32 then _
        else if (w >>> 28) &&& 0xf#32 == 0xe#32 || (w >>> 28) &&& 0xf#32 == 0xf#32 then _ else _)
    rw [isConditional_eq]
    by_cases hlink : ((w >>> 24) &&& 1#32 == 1#32) = true
    · rw [if_pos hlink]
      exact flowSound_call _
    · rw [if_neg hlink]
      cases (w >>> 28) &&& 0xf#32 == 0xe#32 || (w >>> 28) &&& 0xf#32 == 0xf#32 with
      | true => exact flowSound_jump
      | false => exact flowSound_conditionalJump _

/-! ## §4. What the operands show of a word. -/

/-- A condition, and then a register from bits 15:12. -/
def namesDestination : List Escape → Bool
  | .code [] 'c' :: .code bitfield letter :: _ =>
    (letter == 'r' || letter == 'R') && parseBitfield bitfield == some (12, 15)
  | _ => false

/-- A condition, a register and a register list. -/
def namesList : List Escape → Bool
  | [.code [] 'c', .code bitfield letter, .code [] 'm'] =>
    (letter == 'r' || letter == 'R') && (parseBitfield bitfield).isSome
  | _ => false

def isNamedRow (row : ArmOpcode) : Bool :=
  match row.mnemonic with
  | .ldr | .mov => namesDestination (escapes row.format)
  | .ldm | .ldmfd => namesList (escapes row.format)
  | _ => true

set_option maxRecDepth 8000 in
theorem armOpcodeTable_named : ∀ row ∈ armOpcodeTable, isNamedRow row = true := by decide

theorem decodeCode_register {bitfield : List Char} {letter : Char} {lo hi : Nat}
    (hletter : (letter == 'r' || letter == 'R') = true)
    (hrange : parseBitfield bitfield = some (lo, hi)) (w : Word) (address : U64) :
    decodeCode bitfield letter w address = [registerOperand w lo hi] := by
  rw [Bool.or_eq_true, beq_iff_eq, beq_iff_eq] at hletter
  rcases hletter with rfl | rfl
  · exact ranged_of_parse hrange _
  · exact ranged_of_parse hrange _

theorem destination_index (w : Word) :
    (extractField w 12 15).setWidth 8 = (15 : Byte) ↔ w.extractLsb' 12 4 = 15 := by
  have hfield : extractField w 12 15 = (w.extractLsb' 12 4).setWidth 32 :=
    field_eq_setWidth w (by decide)
  rw [hfield]
  constructor
  · intro h
    have := congrArg (fun b : Byte => b.setWidth 4) h
    simpa using this
  · intro h
    rw [h]
    rfl

theorem firstRegisterIsPc_of_destination {es : List Escape} (h : namesDestination es = true)
    (w : Word) (address : U64) :
    firstRegisterIsPc (decodeEscapes w address es) = (w.extractLsb' 12 4 == 15) := by
  unfold namesDestination at h
  split at h
  · next bitfield letter rest =>
    rw [Bool.and_eq_true, beq_iff_eq] at h
    rw [decodeEscapes, decodeEscapes, decodeEscape, decodeEscape, decodeCode_register h.1 h.2]
    show (some ((extractField w 12 15).setWidth 8) == some 15) = _
    rw [Bool.eq_iff_iff, beq_iff_eq, beq_iff_eq, Option.some.injEq, destination_index]
  · cases h

theorem listContainsPc_of_list {es : List Escape} (h : namesList es = true) (w : Word)
    (address : U64) : listContainsPc (decodeEscapes w address es) = w.getLsbD 15 := by
  unfold namesList at h
  split at h
  · next bitfield letter =>
    rw [Bool.and_eq_true, Option.isSome_iff_exists] at h
    obtain ⟨hletter, ⟨lo, hi⟩, hrange⟩ := h
    rw [decodeEscapes, decodeEscapes, decodeEscapes, decodeEscapes, decodeEscape, decodeEscape,
      decodeEscape, decodeCode_register hletter hrange]
    show (false || (false || ((w &&& 0xffff#32).setWidth 16 &&& 0x8000#16 != 0#16 || false))) = _
    have hbit : (w &&& 0xffff#32).setWidth 16 &&& 0x8000#16
        = if w.getLsbD 15 then 0x8000#16 else 0#16 := by
      refine (and_twoPow _ 15).trans ?_
      simp
      rfl
    rw [hbit]
    cases w.getLsbD 15 <;> rfl
  · cases h

/-! ## §5. Classes by name. -/

/-- A decoded word with its row, or with a row of the other table. -/
theorem decodeOne_cases {address : U64} {w : Word} {i : DecodedInstruction}
    (hdecode : decodeOne address w = .ok i) : i.address = address ∧ i.word = w ∧
      (i.mnemonic = .nop ∨ ∃ row ∈ armOpcodeTable, i.mnemonic = row.mnemonic
        ∧ i.operands = decodeEscapes w address (escapes row.format)) := by
  unfold decodeOne at hdecode
  split at hdecode
  · cases hdecode
    exact ⟨rfl, rfl, .inl rfl⟩
  · split at hdecode
    · next row hmatch =>
      cases hdecode
      exact ⟨rfl, rfl, .inr ⟨row, List.mem_of_find?_eq_some hmatch, rfl, rfl⟩⟩
    · cases hdecode

theorem directBranchTarget_eq_none {operands : List DecodedOperand}
    (h : ∀ t, .branchTarget t ∉ operands) : directBranchTarget operands = none := by
  unfold directBranchTarget
  rw [List.findSome?_eq_none_iff]
  intro o ho
  cases o with
  | branchTarget t => exact absurd ho (h t)
  | _ => rfl

/-- The class of a word off the direct branches follows its name. -/
theorem classTells {address : U64} {w : Word} {i : DecodedInstruction}
    (hdecode : decodeOne address w = .ok i) (hclass : ¬ branchClass.Holds w) :
    ClassTells (i.address + 4) (leavesByName i.mnemonic i.word) (isListed i.mnemonic i.word)
      i.controlFlow := by
  have htarget : directBranchTarget i.operands = none :=
    directBranchTarget_eq_none fun t ht => hclass (branchClass_of_target hdecode ht).1
  obtain ⟨-, hword, hname⟩ := decodeOne_cases hdecode
  have hrow : i.mnemonic ≠ .nop → ∃ row ∈ armOpcodeTable, i.mnemonic = row.mnemonic
      ∧ i.operands = decodeEscapes i.word address (escapes row.format) := by
    intro hne
    rw [hword]
    exact hname.resolve_left hne
  have hpc : i.mnemonic = .ldr ∨ i.mnemonic = .mov →
      firstRegisterIsPc i.operands = (i.word.extractLsb' 12 4 == 15) := by
    intro hm
    obtain ⟨row, hmem, hmnemonic, hoperands⟩ := hrow (by rcases hm with h | h <;> simp [h])
    have hnamed := armOpcodeTable_named row hmem
    rw [isNamedRow, ← hmnemonic] at hnamed
    rw [hoperands]
    refine firstRegisterIsPc_of_destination ?_ _ _
    rcases hm with h | h <;> rw [h] at hnamed <;> exact hnamed
  have hlist : i.mnemonic = .ldm ∨ i.mnemonic = .ldmfd →
      listContainsPc i.operands = i.word.getLsbD 15 := by
    intro hm
    obtain ⟨row, hmem, hmnemonic, hoperands⟩ := hrow (by rcases hm with h | h <;> simp [h])
    have hnamed := armOpcodeTable_named row hmem
    rw [isNamedRow, ← hmnemonic] at hnamed
    rw [hoperands]
    refine listContainsPc_of_list ?_ _ _
    rcases hm with h | h <;> rw [h] at hnamed <;> exact hnamed
  unfold DecodedInstruction.controlFlow
  rw [htarget]
  cases hm : i.mnemonic
  case bx =>
    show ClassTells _ true true (if branchesViaLr i.operands then .return else .indirectJump)
    split
    · exact classTells_return
    · exact classTells_indirectJump
  case ldm | ldmfd =>
    show ClassTells _ (i.word.getLsbD 15) (i.word.getLsbD 15 || false)
      (if listContainsPc i.operands then .return else .fall)
    rw [hlist (by simp [hm]), Bool.or_false]
    cases i.word.getLsbD 15
    · exact classTells_fall
    · exact classTells_return
  case ldr =>
    show ClassTells _ (i.word.extractLsb' 12 4 == 15) (i.word.extractLsb' 12 4 == 15 || false)
      (if firstRegisterIsPc i.operands then .indirectJump else .fall)
    rw [hpc (by simp [hm]), Bool.or_false]
    cases i.word.extractLsb' 12 4 == 15
    · exact classTells_fall
    · exact classTells_indirectJump
  case mov =>
    show ClassTells _ (i.word.extractLsb' 12 4 == 15) (i.word.extractLsb' 12 4 == 15 || false)
      (if firstRegisterIsPc i.operands && branchesViaLr i.operands then .return
        else if firstRegisterIsPc i.operands then .indirectJump else .fall)
    rw [hpc (by simp [hm]), Bool.or_false]
    cases i.word.extractLsb' 12 4 == 15
    · exact classTells_fall
    · cases branchesViaLr i.operands
      · exact classTells_indirectJump
      · exact classTells_return
  case blx => exact classTells_indirectCall
  case svc | bkpt | udf | hvc | smc => exact classTells_trap
  all_goals exact classTells_fall

/-- **The class of an ARM word is sound exactly if its name is right.** -/
theorem flowSound_iff {address : U64} {w : Word} {i : DecodedInstruction}
    (hdecode : decodeOne address w = .ok i) :
    FlowSound (archFlow i.address i.word) (i.address + 4) i.controlFlow ↔ ReadRight i := by
  obtain ⟨-, hword, -⟩ := decodeOne_cases hdecode
  unfold ReadRight
  by_cases hclass : branchClass.Holds w
  · have hdirect : ∃ conditional t, archFlow i.address i.word = .direct conditional t := by
      rw [hword, archFlow_class _ hclass]
      split
      · exact ⟨_, _, rfl⟩
      · exact ⟨_, _, rfl⟩
    obtain ⟨conditional, t, hflow⟩ := hdirect
    have hsound := flowSound_class hdecode hclass
    rw [hflow] at hsound ⊢
    exact iff_of_true hsound trivial
  · have htells := classTells hdecode hclass
    have hnot := archFlow_not_direct i.address (hword ▸ hclass)
    cases hflow : archFlow i.address i.word with
    | sequential => exact flowSound_sequential.trans htells.mem_next
    | direct conditional t => exact absurd hflow (hnot conditional t)
    | indirect conditional =>
      cases conditional with
      | true => exact flowSound_indirect_true.trans htells.mem_next
      | false => exact flowSound_indirect_false.trans htells.listed.symm
    | unpredictable => exact iff_of_true flowSound_unpredictable trivial

end Armv8Encode.Armv7.Arm

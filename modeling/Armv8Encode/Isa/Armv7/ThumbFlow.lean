/-
  Armv8Encode.Isa.Armv7.ThumbFlow — Thumb classification against the architecture.

  The classifier is right on `b`, `bl`, `bx`, `blx` and a `pop` of the program
  counter.  A compare-and-branch has its offset in opaque bits, so that its
  target is lost; the register list of a 32-bit block load is lost in the same
  way; and every other way to write the program counter has a name that the
  classifier takes for a plain instruction.
-/
import Armv8Encode.Isa.Armv7.ThumbRetarget
import Armv8Encode.Isa.Armv7.ControlFlow
import Armv8Encode.Isa.Armv7.FlowSpec
import Armv8Encode.Lib.Patterns

namespace Armv8Encode.Armv7.Thumb

open Lib

/-! ## §1. What the architecture does. -/

/-- How a word writes the program counter, outside IT blocks. -/
inductive PcWrite where
  /-- Not at all, though the word is in the space of conditional branches. -/
  | never
  | branchCond8
  | branch11
  | compare
  | branchCond20
  | branch24
  | exchange24
  | loopBack (conditional : Bool)
  | loopForward
  | register
  | unpredictable
  deriving Repr, DecidableEq

def halfwordRules : List (Pattern 32 × PcWrite) :=
  -- udf and svc stand where a condition would be
  [(⟨0xff00, 0xde00⟩, .never), (⟨0xff00, 0xdf00⟩, .never), (⟨0xf000, 0xd000⟩, .branchCond8),
    (⟨0xf800, 0xe000⟩, .branch11),
    -- cbz and cbnz
    (⟨0xf500, 0xb100⟩, .compare),
    -- bx, blx, bxns and blxns
    (⟨0xff00, 0x4700⟩, .register),
    -- add and mov with the program counter as destination
    (⟨0xff87, 0x4487⟩, .register), (⟨0xff87, 0x4687⟩, .register),
    -- pop with the program counter in its list
    (⟨0xff00, 0xbd00⟩, .register)]

def wordRules : List (Pattern 32 × PcWrite) :=
  -- subs pc, lr and bxj, and else no branch where the condition is 111x
  [(⟨0xffffff00, 0xf3de8f00⟩, .register), (⟨0xfff0ffff, 0xf3c08f00⟩, .register),
    (⟨0xfb80d000, 0xf3808000⟩, .never), (⟨0xf800d000, 0xf0008000⟩, .branchCond20),
    -- b, bl and blx
    (⟨0xf800d000, 0xf0009000⟩, .branch24), (⟨0xf800d000, 0xf000d000⟩, .branch24),
    (⟨0xf800d001, 0xf000c000⟩, .exchange24),
    -- le, with and without the loop count, letp, wls and wlstp
    (⟨0xfffff001, 0xf02fc001⟩, .loopBack false), (⟨0xfffff001, 0xf00fc001⟩, .loopBack true),
    (⟨0xfffff001, 0xf01fc001⟩, .loopBack true), (⟨0xfff0f001, 0xf040c001⟩, .loopForward),
    (⟨0xffc0f001, 0xf000c001⟩, .loopForward),
    -- ldmia and ldmdb with the program counter in the list
    (⟨0xffd08000, 0xe8908000⟩, .register), (⟨0xffd08000, 0xe9108000⟩, .register),
    -- ldr: 12-bit offset, literal, register offset, and indexed; ldrt may not load it
    (⟨0xfff0f000, 0xf8d0f000⟩, .register), (⟨0xff7ff000, 0xf85ff000⟩, .register),
    (⟨0xfff0ffc0, 0xf850f000⟩, .register), (⟨0xfff0ff00, 0xf850fe00⟩, .unpredictable),
    (⟨0xfff0fd00, 0xf850f900⟩, .register), (⟨0xfff0fd00, 0xf850fd00⟩, .register),
    (⟨0xfff0ff00, 0xf850fc00⟩, .register),
    -- tbb and tbh, rfe and bxaut
    (⟨0xfff0ffe0, 0xe8d0f000⟩, .register), (⟨0xffd0ffff, 0xe810c000⟩, .register),
    (⟨0xffd0ffff, 0xe990c000⟩, .register), (⟨0xfff00ff0, 0xfb500f10⟩, .register)]

/-- The offset I:imm5 of a compare-and-branch, in halfwords. -/
def compareOffset (w : Word) : BitVec 6 := w.extractLsb' 9 1 ++ w.extractLsb' 3 5

/-- The offset S:J2:J1:imm6:imm11 of a conditional branch, in halfwords. -/
def wideOffset (w : Word) : BitVec 20 :=
  w.extractLsb' 26 1 ++ w.extractLsb' 11 1 ++ w.extractLsb' 13 1 ++ w.extractLsb' 16 6
    ++ w.extractLsb' 0 11

/-- The offset S:I1:I2:imm10:imm11:0 of `b` and `bl`, in bytes. -/
def longOffset (w : Word) : BitVec 25 :=
  w.extractLsb' 26 1 ++ ~~~(w.extractLsb' 13 1 ^^^ w.extractLsb' 26 1)
    ++ ~~~(w.extractLsb' 11 1 ^^^ w.extractLsb' 26 1) ++ w.extractLsb' 16 10
    ++ w.extractLsb' 0 11 ++ 0#1

/-- The offset immh:imml:0 of a loop instruction, in bytes. -/
def loopDistance (w : Word) : BitVec 12 := w.extractLsb' 1 10 ++ w.extractLsb' 11 1 ++ 0#1

/-- Targets are sums in the source's 64-bit addresses; the program counter reads
four bytes ahead. -/
def flowOf (address : U64) (w : Word) : Option PcWrite → ArchFlow
  | none | some .never => .sequential
  | some .branchCond8 => .direct true (address + 4 + (w.extractLsb' 0 8).signExtend 64 * 2)
  | some .branch11 => .direct false (address + 4 + (w.extractLsb' 0 11).signExtend 64 * 2)
  | some .compare => .direct true (address + 4 + (compareOffset w).setWidth 64 * 2)
  | some .branchCond20 => .direct true (address + 4 + (wideOffset w).signExtend 64 * 2)
  | some .branch24 => .direct false (address + 4 + (longOffset w).signExtend 64)
  -- the base of a change to ARM mode is a multiple of four
  | some .exchange24 => .direct false (((address + 4) &&& ~~~3#64) + (longOffset w).signExtend 64)
  | some (.loopBack conditional) => .direct conditional (address + 4 - (loopDistance w).setWidth 64)
  | some .loopForward => .direct true (address + 4 + (loopDistance w).setWidth 64)
  | some .register => .indirect false
  | some .unpredictable => .unpredictable

def rulesFor : ThumbWidth → List (Pattern 32 × PcWrite)
  | .halfword => halfwordRules
  | .word => wordRules

/-- What the architecture does after a word at an address. -/
def archFlow (address : U64) (w : Word) (width : ThumbWidth) : ArchFlow :=
  flowOf address w (firstMatch (rulesFor width) w)

def DecodedInstruction.next (i : DecodedInstruction) : U64 :=
  i.address + BitVec.ofNat 64 (sizeBytes i.width)

/-! ## §2. What the classifier goes by. -/

/-- A name that stands for a jump or a return; a `pop` is one with bit 8 set. -/
def leavesByName (m : ThumbMnemonic) (w : Word) : Bool :=
  match m with
  | .bx => true
  | .pop => w.getLsbD 8
  | _ => false

/-- A name that does not stand for a plain instruction.  Those of the
compare-and-branch instructions and of block loads are not among them, since
what the classifier looks for is not among their operands. -/
def isListed (m : ThumbMnemonic) (w : Word) : Bool :=
  leavesByName m w || [.b, .bl, .blx, .svc, .hvc, .smc, .udf, .bkpt].contains m

/-- The target of a direct branch is that of an operand: `b`, `bl`, and `blx` at a
multiple of four. -/
def HasTarget (i : DecodedInstruction) : Prop :=
  i.mnemonic = .b ∨ i.mnemonic = .bl ∨ i.mnemonic = .blx ∧ i.address &&& 3 = 0

/-- A word that goes on in sequence has no name that leaves it, one that writes
the program counter has a listed name, and a direct branch has its target or
leads to the next instruction. -/
def DecodedInstruction.Tells (i : DecodedInstruction) : ArchFlow → Prop
  | .sequential | .indirect true => leavesByName i.mnemonic i.word = false
  | .indirect false => isListed i.mnemonic i.word = true
  | .direct conditional target => HasTarget i ∨ target = i.next
      ∧ leavesByName i.mnemonic i.word = false
      ∧ (conditional = true ∨ isListed i.mnemonic i.word = true)
  | .unpredictable => True

def ReadRight (i : DecodedInstruction) : Prop := i.Tells (archFlow i.address i.word i.width)

/-! ## §3. Offsets. -/

theorem signExtend_eq (v : U64) {n : Nat} (hpos : 0 < n) (hlt : n < 64) :
    signExtend v n = (v.setWidth n).signExtend 64 := by
  unfold signExtend
  rw [if_neg (by omega)]
  exact sshiftRight_shiftLeft v hpos (by omega)

theorem setWidth_blRaw (w : Word) : (blRaw w).setWidth 25 = longOffset w := by
  apply BitVec.eq_of_getLsbD_eq
  intro i hi
  simp only [blRaw, longOffset, BitVec.getLsbD_setWidth, BitVec.getLsbD_or,
    BitVec.getLsbD_shiftLeft, BitVec.getLsbD_and, BitVec.getLsbD_ushiftRight,
    BitVec.getLsbD_append, BitVec.getLsbD_not, BitVec.getLsbD_xor, BitVec.getLsbD_extractLsb']
  interval_cases i <;> simp

theorem setWidth_bCondRaw (w : Word) : (bCondRaw w).setWidth 20 = wideOffset w := by
  apply BitVec.eq_of_getLsbD_eq
  intro i hi
  simp only [bCondRaw, wideOffset, BitVec.getLsbD_setWidth, BitVec.getLsbD_or,
    BitVec.getLsbD_shiftLeft, BitVec.getLsbD_and, BitVec.getLsbD_ushiftRight,
    BitVec.getLsbD_append, BitVec.getLsbD_extractLsb']
  interval_cases i <;> simp

theorem decodeBlBTarget_eq (w : Word) (address : U64) :
    decodeBlBTarget w address = address + 4 + (longOffset w).signExtend 64 := by
  show address + 4#64 + BitVec.signExtend 64 ((blRaw w <<< (32 - 25)).sshiftRight (32 - 25)) = _
  rw [sshiftRight_shiftLeft _ (by decide) (by decide), setWidth_blRaw,
    signExtend_signExtend _ (by decide) (by decide)]
  rfl

theorem decodeBCondWideTarget_eq (w : Word) (address : U64) :
    decodeBCondWideTarget w address = address + 4 + (wideOffset w).signExtend 64 * 2 := by
  unfold decodeBCondWideTarget
  rw [signExtend_eq _ (by decide) (by decide), BitVec.setWidth_setWidth_of_le _ (by decide),
    setWidth_bCondRaw]

theorem shortOffset_eq (w : Word) {n : Nat} (hpos : 0 < n) (hlt : n ≤ 32) :
    signExtend ((extractField w 0 (n - 1)).setWidth 64) n = (w.extractLsb' 0 n).signExtend 64 := by
  have hfield : extractField w 0 (n - 1) = (w.extractLsb' 0 n).setWidth 32 := by
    unfold extractField
    rw [show n - 1 - 0 + 1 = n by omega]
    exact field_eq_setWidth w hlt
  rw [signExtend_eq _ hpos (by omega), BitVec.setWidth_setWidth_of_le _ (by omega), hfield,
    BitVec.setWidth_setWidth_of_le _ hlt, BitVec.setWidth_eq]

/-! ## §4. Direct branches. -/

/-- The rows whose operands have the target of a branch that the classifier looks at. -/
def condBranch16 : ThumbOpcode := ⟨.b, 0xd000, 0xf000, .halfword, "b%8-11c.n\t%0-7B%X"⟩
def branch16 : ThumbOpcode := ⟨.b, 0xe000, 0xf800, .halfword, "b%c.n\t%0-10B%x"⟩
def condBranch32 : ThumbOpcode := ⟨.b, 0xf0008000, 0xf800d000, .word, "b%22-25c.w\t%b%X"⟩
def branch32 : ThumbOpcode := ⟨.b, 0xf0009000, 0xf800d000, .word, "b%c.w\t%B%x"⟩
def exchange32 : ThumbOpcode := ⟨.blx, 0xf000c000, 0xf800d001, .word, "blx%c\t%B%x"⟩
def link32 : ThumbOpcode := ⟨.bl, 0xf000d000, 0xf800d000, .word, "bl%c\t%B%x"⟩

/-- `blx` to a register. -/
def exchangeRegister : ThumbOpcode := ⟨.blx, 0x4780, 0xff87, .halfword, "blx%c\t%3-6r%x"⟩

def directRows : List ThumbOpcode :=
  [condBranch16, branch16, condBranch32, branch32, exchange32, link32]

set_option maxRecDepth 8000 in
theorem thumbOpcodeTable_direct :
    thumbOpcodeTable.filter (fun row => [ThumbMnemonic.b, .bl, .blx].contains row.mnemonic)
      = exchangeRegister :: directRows := by
  decide

def rowPattern (row : ThumbOpcode) : Pattern 32 := ⟨row.mask, row.opcode⟩

theorem rowPattern_holds {row : ThumbOpcode} {w : Word} {width : ThumbWidth}
    (h : matchGenerated w width = some row) : row.width = width ∧ (rowPattern row).Holds w := by
  have hfound := List.find?_some h
  rw [Bool.and_eq_true, beq_iff_eq, beq_iff_eq] at hfound
  exact hfound

/-- An instruction with its row. -/
def decoded (row : ThumbOpcode) (address : U64) (w : Word) : DecodedInstruction :=
  ⟨address, w, row.width, row.mnemonic, rowOperands row w address, some row, none⟩

theorem operands_condBranch16 (w : Word) (address : U64) :
    directBranchTarget (rowOperands condBranch16 w address)
      = some (address + 4 + (w.extractLsb' 0 8).signExtend 64 * 2) := by
  have hescapes : escapes condBranch16.format
      = [.code ['8', '-', '1', '1'] 'c', .code ['0', '-', '7'] 'B', .code [] 'X'] := by rfl
  rw [← shortOffset_eq w (n := 8) (by decide) (by decide), rowOperands, decodeOperandsFromFormat,
    hescapes]
  rfl

theorem operands_branch16 (w : Word) (address : U64) :
    directBranchTarget (rowOperands branch16 w address)
      = some (address + 4 + (w.extractLsb' 0 11).signExtend 64 * 2) := by
  have hescapes : escapes branch16.format
      = [.code [] 'c', .code ['0', '-', '1', '0'] 'B', .code [] 'x'] := by rfl
  rw [← shortOffset_eq w (n := 11) (by decide) (by decide), rowOperands, decodeOperandsFromFormat,
    hescapes]
  rfl

theorem operands_condBranch32 (w : Word) (address : U64) :
    directBranchTarget (rowOperands condBranch32 w address)
      = some (address + 4 + (wideOffset w).signExtend 64 * 2) := by
  have hescapes : escapes condBranch32.format
      = [.code ['2', '2', '-', '2', '5'] 'c', .code [] 'b', .code [] 'X'] := by rfl
  rw [← decodeBCondWideTarget_eq, rowOperands, decodeOperandsFromFormat, hescapes]
  rfl

/-- `b`, `bl` and `blx` of 32 bits have one form of operands. -/
theorem operands_long {row : ThumbOpcode} (h : escapes row.format = [.code [] 'c', .code [] 'B', .code [] 'x'])
    (hwidth : row.width = .word) (w : Word) (address : U64) :
    directBranchTarget (rowOperands row w address)
      = some (address + 4 + (longOffset w).signExtend 64) := by
  rw [← decodeBlBTarget_eq, rowOperands, decodeOperandsFromFormat, h, hwidth]
  rfl

theorem controlFlow_b (row : ThumbOpcode) {address t : U64} {w : Word} (hm : row.mnemonic = .b)
    (ht : directBranchTarget (rowOperands row w address) = some t) :
    (decoded row address w).controlFlow
      = if isConditionalBranchFormat row.format then
          .conditionalJump t (decoded row address w).next
        else .jump t := by
  unfold DecodedInstruction.controlFlow
  simp only [decoded, hm, ht, Option.map_some, Option.getD_some]
  rfl

theorem controlFlow_link (row : ThumbOpcode) {address t : U64} {w : Word}
    (hm : row.mnemonic = .bl ∨ row.mnemonic = .blx)
    (ht : directBranchTarget (rowOperands row w address) = some t) :
    (decoded row address w).controlFlow = .call t (decoded row address w).next := by
  unfold DecodedInstruction.controlFlow
  rcases hm with hm | hm
  · simp only [decoded, hm, ht]
    rfl
  · simp only [decoded, hm, ht]
    rfl

theorem directRows_conditional :
    isConditionalBranchFormat condBranch16.format = true
      ∧ isConditionalBranchFormat condBranch32.format = true
      ∧ isConditionalBranchFormat branch16.format = false
      ∧ isConditionalBranchFormat branch32.format = false := by
  decide

/-- The class is sound for a flow exactly if the name tells it. -/
def ReadsRight (i : DecodedInstruction) (flow : ArchFlow) : Prop :=
  FlowSound flow i.next i.controlFlow ↔ i.Tells flow

section

variable {address : U64} {w : Word}

theorem archFlow_condBranch16 (hw : (rowPattern condBranch16).Holds w) :
    archFlow address w .halfword = .sequential ∨ archFlow address w .halfword
      = .direct true (address + 4 + (w.extractLsb' 0 8).signExtend 64 * 2) := by
  unfold archFlow
  cases hmatch : firstMatch (rulesFor .halfword) w with
  | none => exact .inl rfl
  | some write =>
    obtain ⟨p, hmem, -⟩ := mem_of_firstMatch hw hmatch
    have hopen : ∀ r ∈ openRules (rowPattern condBranch16) (rulesFor .halfword),
        r.2 = .never ∨ r.2 = .branchCond8 := by decide
    rcases hopen _ hmem with h | h
    · exact .inl (by rw [show write = .never from h]; rfl)
    · exact .inr (by rw [show write = .branchCond8 from h]; rfl)

theorem archFlow_condBranch32 (hw : (rowPattern condBranch32).Holds w) :
    archFlow address w .word = .sequential ∨ archFlow address w .word = .indirect false
      ∨ archFlow address w .word
        = .direct true (address + 4 + (wideOffset w).signExtend 64 * 2) := by
  unfold archFlow
  cases hmatch : firstMatch (rulesFor .word) w with
  | none => exact .inl rfl
  | some write =>
    obtain ⟨p, hmem, -⟩ := mem_of_firstMatch hw hmatch
    have hopen : ∀ r ∈ openRules (rowPattern condBranch32) (rulesFor .word),
        r.2 = .never ∨ r.2 = .register ∨ r.2 = .branchCond20 := by decide
    rcases hopen _ hmem with h | h | h
    · exact .inl (by rw [show write = .never from h]; rfl)
    · exact .inr (.inl (by rw [show write = .register from h]; rfl))
    · exact .inr (.inr (by rw [show write = .branchCond20 from h]; rfl))

theorem readsRight_condBranch16 (hw : (rowPattern condBranch16).Holds w) :
    ReadsRight (decoded condBranch16 address w) (archFlow address w .halfword) := by
  have hclass := controlFlow_b condBranch16 rfl (operands_condBranch16 w address)
  rw [if_pos directRows_conditional.1] at hclass
  unfold ReadsRight
  rw [hclass]
  rcases archFlow_condBranch16 hw with h | h
  · rw [h, flowSound_sequential]
    exact iff_of_true (List.mem_cons_of_mem _ (List.mem_singleton_self _)) rfl
  · rw [h]
    exact iff_of_true (flowSound_conditionalJump true) (.inl (.inl rfl))

theorem readsRight_condBranch32 (hw : (rowPattern condBranch32).Holds w) :
    ReadsRight (decoded condBranch32 address w) (archFlow address w .word) := by
  have hclass := controlFlow_b condBranch32 rfl (operands_condBranch32 w address)
  rw [if_pos directRows_conditional.2.1] at hclass
  unfold ReadsRight
  rw [hclass]
  rcases archFlow_condBranch32 hw with h | h | h
  · rw [h, flowSound_sequential]
    exact iff_of_true (List.mem_cons_of_mem _ (List.mem_singleton_self _)) rfl
  · rw [h, flowSound_indirect_false]
    exact iff_of_true (fun hfall => nomatch hfall) rfl
  · rw [h]
    exact iff_of_true (flowSound_conditionalJump true) (.inl (.inl rfl))

theorem readsRight_branch16 (hw : (rowPattern branch16).Holds w) :
    ReadsRight (decoded branch16 address w) (archFlow address w .halfword) := by
  have hclass := controlFlow_b branch16 rfl (operands_branch16 w address)
  rw [directRows_conditional.2.2.1, if_neg (by decide)] at hclass
  unfold ReadsRight archFlow
  rw [hclass, firstMatch_of_known hw (by decide : decided _ (rulesFor .halfword) = some .branch11)]
  exact iff_of_true flowSound_jump (.inl (.inl rfl))

theorem readsRight_branch32 (hw : (rowPattern branch32).Holds w) :
    ReadsRight (decoded branch32 address w) (archFlow address w .word) := by
  have hclass := controlFlow_b branch32 rfl (operands_long rfl rfl w address)
  rw [directRows_conditional.2.2.2, if_neg (by decide)] at hclass
  unfold ReadsRight archFlow
  rw [hclass, firstMatch_of_known hw (by decide : decided _ (rulesFor .word) = some .branch24)]
  exact iff_of_true flowSound_jump (.inl (.inl rfl))

theorem readsRight_link32 (hw : (rowPattern link32).Holds w) :
    ReadsRight (decoded link32 address w) (archFlow address w .word) := by
  have hclass := controlFlow_link link32 (.inl rfl) (operands_long rfl rfl w address)
  unfold ReadsRight archFlow
  rw [hclass, firstMatch_of_known hw (by decide : decided _ (rulesFor .word) = some .branch24)]
  exact iff_of_true (flowSound_call false) (.inl (.inr (.inl rfl)))

/-- The base of a change to ARM mode is the one that the decoder takes at a
multiple of four only. -/
theorem alignedBase_eq_iff (address offset : U64) :
    ((address + 4) &&& ~~~3#64) + offset = address + 4 + offset ↔ address &&& 3 = 0 := by
  have hlow : ∀ x : U64, (x &&& 3#64).toNat = x.toNat % 4 := by
    intro x
    rw [BitVec.toNat_and]
    exact Nat.and_two_pow_sub_one_eq_mod x.toNat 2
  have hsplit : ∀ x : U64, x &&& ~~~3#64 = x ↔ x &&& 3#64 = 0#64 := by
    intro x
    constructor
    · intro h
      rw [← h, BitVec.and_assoc]
      exact BitVec.and_zero
    · intro h
      calc x &&& ~~~3#64 = (x &&& ~~~3#64) ||| (x &&& 3#64) := by rw [h, BitVec.or_zero]
        _ = x &&& (~~~3#64 ||| 3#64) := (BitVec.and_or_distrib_left).symm
        _ = x := BitVec.and_allOnes
  rw [BitVec.add_left_inj, hsplit, ← BitVec.toNat_inj, hlow]
  show _ ↔ address &&& 3#64 = 0#64
  rw [← BitVec.toNat_inj, hlow, BitVec.toNat_add]
  show (address.toNat + 4) % 2 ^ 64 % 4 = 0 ↔ address.toNat % 4 = 0
  omega

theorem readsRight_exchange32 (hw : (rowPattern exchange32).Holds w) :
    ReadsRight (decoded exchange32 address w) (archFlow address w .word) := by
  have hclass := controlFlow_link exchange32 (.inr rfl) (operands_long rfl rfl w address)
  unfold ReadsRight archFlow
  rw [hclass, firstMatch_of_known hw (by decide : decided _ (rulesFor .word) = some .exchange24)]
  show FlowSound (.direct false _) _ _ ↔ _
  rw [flowSound_direct]
  show _ ∈ [_, _] ∧ _ ≠ ControlFlow.fall ↔ HasTarget _ ∨ _ = _ ∧ _ ∧ _
  rw [List.mem_cons, List.mem_singleton, alignedBase_eq_iff]
  constructor
  · rintro ⟨haligned | hnext, -⟩
    · exact .inl (.inr (.inr ⟨rfl, haligned⟩))
    · exact .inr ⟨hnext, rfl, .inr rfl⟩
  · intro h
    refine ⟨?_, fun hfall => nomatch hfall⟩
    rcases h with (h | h | ⟨-, haligned⟩) | ⟨hnext, -⟩
    · cases h
    · cases h
    · exact .inl haligned
    · exact .inr hnext

end

/-- A word of a row with a direct branch is classified as its condition says. -/
theorem readsRight_direct {row : ThumbOpcode} (hrow : row ∈ directRows) {address : U64} {w : Word}
    (hw : (rowPattern row).Holds w) :
    ReadsRight (decoded row address w) (archFlow address w row.width) := by
  simp only [directRows, List.mem_cons, List.not_mem_nil, or_false] at hrow
  rcases hrow with rfl | rfl | rfl | rfl | rfl | rfl
  · exact readsRight_condBranch16 hw
  · exact readsRight_branch16 hw
  · exact readsRight_condBranch32 hw
  · exact readsRight_branch32 hw
  · exact readsRight_exchange32 hw
  · exact readsRight_link32 hw

/-! ## §5. The other rows. -/

/-- No operand has a branch target. -/
def hidesTarget (row : ThumbOpcode) : Bool :=
  match addressedPart row with
  | .code bitfield letter :: _ => !isBranchLetter bitfield letter row.width
  | _ => true

def isHidingRow (row : ThumbOpcode) : Bool :=
  !([ThumbMnemonic.cbz, .cbnz].contains row.mnemonic || row == exchangeRegister) || hidesTarget row

set_option maxRecDepth 8000 in
theorem thumbOpcodeTable_hiding : ∀ row ∈ thumbOpcodeTable, isHidingRow row = true := by
  decide

theorem directBranchTarget_hidden {row : ThumbOpcode} (hmem : row ∈ thumbOpcodeTable)
    (h : row.mnemonic = .cbz ∨ row.mnemonic = .cbnz ∨ row = exchangeRegister) (w : Word)
    (address : U64) : directBranchTarget (rowOperands row w address) = none := by
  unfold directBranchTarget
  rw [List.findSome?_eq_none_iff]
  intro o ho
  cases o with
  | branchTarget t =>
    exfalso
    obtain ⟨bitfield, letter, post, hpart, hbranch, -⟩ := branch_of_target hmem ho
    have hhiding := thumbOpcodeTable_hiding row hmem
    have hkind : ([ThumbMnemonic.cbz, .cbnz].contains row.mnemonic || row == exchangeRegister)
        = true := by
      rcases h with h | h | h <;> simp [h]
    rw [isHidingRow, hkind, hidesTarget, hpart] at hhiding
    dsimp only at hhiding
    rw [hbranch] at hhiding
    cases hhiding
  | _ => rfl

/-- The rows of the block loads that the classifier looks at. -/
def popRow : ThumbOpcode := ⟨.pop, 0xbc00, 0xfe00, .halfword, "pop%c\t%O"⟩
def blockLoad16 : ThumbOpcode := ⟨.ldmia, 0xc800, 0xf800, .halfword, "ldmia%c\t%8-10r%W, %M"⟩
def blockLoad32 : ThumbOpcode := ⟨.ldmia, 0xe8900000, 0xffd00000, .word, "ldmia%c.w\t%16-19r%21'!, %m"⟩
def blockLoadBefore : ThumbOpcode :=
  ⟨.ldmdb, 0xe9100000, 0xffd00000, .word, "ldmdb%c\t%16-19r%21'!, %m"⟩

set_option maxRecDepth 8000 in
theorem thumbOpcodeTable_blockLoads :
    thumbOpcodeTable.filter (fun row => [ThumbMnemonic.pop, .ldmia, .ldmdb].contains row.mnemonic)
      = [popRow, blockLoad16, blockLoad32, blockLoadBefore] := by
  decide

theorem tailOperand_no_list (row : ThumbOpcode) (w : Word) :
    listContainsPc (tailOperand row w) = false := by
  unfold tailOperand
  split <;> rfl

theorem listContainsPc_append (xs ys : List DecodedOperand) :
    listContainsPc (xs ++ ys) = (listContainsPc xs || listContainsPc ys) := List.any_append

theorem operands_popRow (w : Word) (address : U64) :
    listContainsPc (rowOperands popRow w address) = w.getLsbD 8 := by
  have hescapes : escapes popRow.format = [.code [] 'c', .code [] 'O'] := by rfl
  rw [rowOperands, listContainsPc_append, tailOperand_no_list, Bool.or_false,
    decodeOperandsFromFormat, hescapes]
  show ((((w &&& 0xff#32) ||| (((w >>> 8) &&& 1#32) <<< 15)).setWidth 16 &&& 0x8000#16 != 0#16)
    || false) = _
  have hbit : ((w &&& 0xff#32) ||| (((w >>> 8) &&& 1#32) <<< 15)).setWidth 16 &&& 0x8000#16
      = if w.getLsbD 8 then 0x8000#16 else 0#16 := by
    refine (and_twoPow _ 15).trans ?_
    simp
    rfl
  rw [hbit, Bool.or_false]
  cases w.getLsbD 8 <;> rfl

theorem operands_blockLoad16 (w : Word) (address : U64) :
    listContainsPc (rowOperands blockLoad16 w address) = false := by
  have hescapes : escapes blockLoad16.format
      = [.code [] 'c', .code ['8', '-', '1', '0'] 'r', .code [] 'W', .code [] 'M'] := by rfl
  rw [rowOperands, listContainsPc_append, tailOperand_no_list, Bool.or_false,
    decodeOperandsFromFormat, hescapes]
  show (((w &&& 0xff#32).setWidth 16 &&& 0x8000#16 != 0#16) || false) = _
  have hbit : (w &&& 0xff#32).setWidth 16 &&& 0x8000#16 = 0#16 := by
    refine (and_twoPow _ 15).trans ?_
    simp
  rw [hbit]
  rfl

/-- A 32-bit block load has its list in opaque bits. -/
theorem operands_wideBlockLoad {row : ThumbOpcode} (hwidth : row.width = .word)
    (h : escapes row.format = [.code [] 'c', .code ['1', '6', '-', '1', '9'] 'r', .code [] 'm'])
    (w : Word) (address : U64) : listContainsPc (rowOperands row w address) = false := by
  rw [rowOperands, listContainsPc_append, tailOperand_no_list, Bool.or_false,
    decodeOperandsFromFormat, h, hwidth]
  rfl

/-! ## §6. Classes by name. -/

theorem decodeOne_cases {address : U64} {w : Word} {width : ThumbWidth} {i : DecodedInstruction}
    (hdecode : decodeOne address w width = .ok i) :
    i.address = address ∧ i.word = w ∧ i.width = width ∧
      (i.mnemonic = .nop ∨ ∃ row, matchGenerated w width = some row ∧ i = decoded row address w) := by
  unfold decodeOne at hdecode
  split at hdecode
  · next row hmatch =>
    have hwidth := (rowPattern_holds hmatch).1
    cases hdecode
    exact ⟨rfl, rfl, rfl, .inr ⟨row, hmatch, by rw [decoded, hwidth]⟩⟩
  · split at hdecode
    · cases hdecode
    · split at hdecode
      · cases hdecode
        exact ⟨rfl, rfl, rfl, .inl rfl⟩
      · cases hdecode

theorem mem_directRows {row : ThumbOpcode} (hmem : row ∈ thumbOpcodeTable)
    (h : row.mnemonic = .b ∨ row.mnemonic = .bl ∨ row.mnemonic = .blx) :
    row = exchangeRegister ∨ row ∈ directRows := by
  have hfilter : row ∈ thumbOpcodeTable.filter fun row =>
      [ThumbMnemonic.b, .bl, .blx].contains row.mnemonic := by
    refine List.mem_filter.mpr ⟨hmem, ?_⟩
    rcases h with h | h | h <;> simp [h]
  rw [thumbOpcodeTable_direct] at hfilter
  exact List.mem_cons.mp hfilter

theorem listContainsPc_named {row : ThumbOpcode} (hmem : row ∈ thumbOpcodeTable) (w : Word)
    (address : U64) (h : row.mnemonic = .pop ∨ row.mnemonic = .ldmia ∨ row.mnemonic = .ldmdb) :
    listContainsPc (rowOperands row w address) = (row.mnemonic == .pop && w.getLsbD 8) := by
  have hfilter : row ∈ thumbOpcodeTable.filter fun row =>
      [ThumbMnemonic.pop, .ldmia, .ldmdb].contains row.mnemonic := by
    refine List.mem_filter.mpr ⟨hmem, ?_⟩
    rcases h with h | h | h <;> simp [h]
  rw [thumbOpcodeTable_blockLoads] at hfilter
  simp only [List.mem_cons, List.not_mem_nil, or_false] at hfilter
  rcases hfilter with rfl | rfl | rfl | rfl
  · exact operands_popRow w address
  · exact operands_blockLoad16 w address
  · exact operands_wideBlockLoad rfl rfl w address
  · exact operands_wideBlockLoad rfl rfl w address

/-- The class of a word without a direct branch follows its name. -/
theorem classTells {row : ThumbOpcode} (hmem : row ∈ thumbOpcodeTable) (hrow : row ∉ directRows)
    (address : U64) (w : Word) :
    ClassTells (decoded row address w).next (leavesByName row.mnemonic w) (isListed row.mnemonic w)
      (decoded row address w).controlFlow := by
  have hbranch : row.mnemonic = .b ∨ row.mnemonic = .bl ∨ row.mnemonic = .blx →
      row = exchangeRegister := fun h => (mem_directRows hmem h).resolve_right hrow
  have hhidden := fun h => directBranchTarget_hidden hmem h w address
  have hlist := listContainsPc_named hmem w address
  have hnamed : (decoded row address w).mnemonic = row.mnemonic := rfl
  have hoperands : (decoded row address w).operands = rowOperands row w address := rfl
  unfold DecodedInstruction.controlFlow
  rw [hnamed, hoperands]
  cases hm : row.mnemonic
  case b | bl =>
    have hne := congrArg ThumbOpcode.mnemonic (hbranch (by simp [hm]))
    rw [hm] at hne
    cases hne
  case blx =>
    rw [hhidden (.inr (.inr (hbranch (.inr (.inr hm)))))]
    exact classTells_indirectCall
  case cbz | cbnz =>
    rw [hhidden (by simp [hm])]
    exact classTells_fall
  case bx =>
    show ClassTells _ true true
      (if branchesViaLr (rowOperands row w address) then .return else .indirectJump)
    split
    · exact classTells_return
    · exact classTells_indirectJump
  case pop =>
    show ClassTells _ (w.getLsbD 8) (w.getLsbD 8 || false)
      (if listContainsPc (rowOperands row w address) then .return else .fall)
    rw [hlist (.inl hm), hm, Bool.or_false]
    cases w.getLsbD 8
    · exact classTells_fall
    · exact classTells_return
  case ldmia | ldmdb =>
    show ClassTells _ false false
      (if listContainsPc (rowOperands row w address) then .return else .fall)
    rw [hlist (by simp [hm]), hm]
    exact classTells_fall
  case svc | hvc | smc | udf | bkpt => exact classTells_trap
  all_goals exact classTells_fall

theorem tells_iff {i : DecodedInstruction}
    (htells : ClassTells i.next (leavesByName i.mnemonic i.word) (isListed i.mnemonic i.word)
      i.controlFlow) {flow : ArchFlow}
    (hflow : HasTarget i → ∀ conditional t, flow ≠ .direct conditional t) : ReadsRight i flow := by
  unfold ReadsRight
  cases flow with
  | sequential => exact flowSound_sequential.trans htells.mem_next
  | direct conditional t =>
    have hno : ¬ HasTarget i := fun h => hflow h conditional t rfl
    rw [flowSound_direct, htells.mem_target, htells.mem_next]
    show _ ↔ HasTarget i ∨ t = i.next ∧ leavesByName i.mnemonic i.word = false
      ∧ (conditional = true ∨ isListed i.mnemonic i.word = true)
    rw [or_iff_right hno, and_assoc]
    cases conditional with
    | true => simp
    | false => simp [htells.listed]
  | indirect conditional =>
    cases conditional with
    | true => exact flowSound_indirect_true.trans htells.mem_next
    | false => exact flowSound_indirect_false.trans htells.listed.symm
  | unpredictable => exact iff_of_true flowSound_unpredictable trivial

/-- **The class of a Thumb word is sound exactly if its name is right.** -/
theorem flowSound_iff {address : U64} {w : Word} {width : ThumbWidth} {i : DecodedInstruction}
    (hdecode : decodeOne address w width = .ok i) :
    FlowSound (archFlow i.address i.word i.width) i.next i.controlFlow ↔ ReadRight i := by
  obtain ⟨-, -, -, hname⟩ := decodeOne_cases hdecode
  rcases hname with hnop | ⟨row, hmatch, rfl⟩
  · have hclass : i.controlFlow = .fall := by
      rw [DecodedInstruction.controlFlow, hnop]
    refine tells_iff ?_ ?_
    · rw [hclass, hnop]
      exact classTells_fall
    · intro htarget
      rw [HasTarget, hnop] at htarget
      simp at htarget
  · obtain ⟨hwidth, hw⟩ := rowPattern_holds hmatch
    have hmem := List.mem_of_find?_eq_some hmatch
    by_cases hrow : row ∈ directRows
    · exact readsRight_direct hrow hw
    · refine tells_iff (classTells hmem hrow address w) ?_
      intro htarget conditional t hdirect
      -- Only `blx` to a register is left of the names with a target.
      have hexchange : row = exchangeRegister := by
        refine (mem_directRows hmem ?_).resolve_right hrow
        rcases htarget with h | h | h
        · exact .inl h
        · exact .inr (.inl h)
        · exact .inr (.inr h.1)
      subst hexchange
      unfold archFlow at hdirect
      rw [show (decoded exchangeRegister address w).width = .halfword from rfl,
        show (decoded exchangeRegister address w).word = w from rfl,
        firstMatch_of_known hw (by decide : decided _ (rulesFor .halfword) = some .register)] at hdirect
      cases hdirect

end Armv8Encode.Armv7.Thumb

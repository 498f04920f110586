/-
  Armv8Encode.Isa.Aarch64.FlowSoundness — classification against the architecture.

  `archFlow` reads off the fixed bits of a word where the architecture goes on
  after it.  The classifier agrees with it on every accepted word except the
  ones whose row has a name it does not list: `b.cond` with an always-true
  condition and the pointer-authenticated register branches, which it takes
  for plain instructions.
-/
import Armv8Encode.Isa.Aarch64.BranchCodec
import Armv8Encode.Isa.Aarch64.Recursive
import Armv8Encode.Lib.Patterns
import Armv8Encode.Mc.CfgSpec

namespace Armv8Encode.Aarch64

open Lib Aarch64Opcode

/-! ## §1. What the architecture does. -/

/-- Where the architecture goes on after an instruction. -/
inductive ArchFlow where
  | sequential
  | branch (target : U64)
  | conditional (target : U64)
  | call (target : U64)
  | indirectBranch
  | indirectCall
  | return
  deriving Repr, DecidableEq

namespace ArchFlow

/-- The known addresses execution may go on at; `next` is the one past the
instruction. -/
def successors (next : U64) : ArchFlow → List U64
  | sequential | indirectCall => [next]
  | branch target => [target]
  | conditional target | call target => [target, next]
  | indirectBranch | «return» => []

/-- Execution never goes on in sequence. -/
def leaves : ArchFlow → Bool
  | branch _ | indirectBranch | «return» => true
  | _ => false

def isCall : ArchFlow → Bool
  | call _ | indirectCall => true
  | _ => false

end ArchFlow

/-- Unconditional branches to a register; bits 24:21 tell them apart, bit 24
standing for pointer authentication with a modifier register. -/
def registerBranchFlow (w : Word) : ArchFlow :=
  match bitsOf w 21 4 with
  | 0 | 8 => .indirectBranch
  | 1 | 9 => .indirectCall
  | 2 | 4 | 5 => .return
  | _ => .sequential

/-- What the architecture does after a word at an address. -/
def archFlow (address : U64) (w : Word) : ArchFlow :=
  if w &&& 0xfc000000#32 = 0x14000000#32 then .branch (branchTarget address (imm26 w))
  else if w &&& 0xfc000000#32 = 0x94000000#32 then .call (branchTarget address (imm26 w))
  else if w &&& 0xff000010#32 = 0x54000000#32 then
    -- the condition codes 14 and 15 are always true
    if w &&& 0xe#32 = 0xe#32 then .branch (branchTarget address (imm19 w))
    else .conditional (branchTarget address (imm19 w))
  else if w &&& 0x7e000000#32 = 0x34000000#32 then .conditional (branchTarget address (imm19 w))
  else if w &&& 0x7e000000#32 = 0x36000000#32 then .conditional (branchTarget address (imm14 w))
  else if w &&& 0xfe000000#32 = 0xd6000000#32 then registerBranchFlow w
  else .sequential

/-- The branches whose row has a name the classifier does not list: `b.cond`
with an always-true condition, and the pointer-authenticated register branches. -/
def isUnlistedBranch (w : Word) : Bool :=
  w &&& 0xff00001e#32 == 0x5400000e#32 || w &&& 0xfe000800#32 == 0xd6000800#32

/-- A classification as a call. -/
def isCallFlow : ControlFlow → Bool
  | .call _ _ | .indirectCall _ => true
  | _ => false

/-- The classification of an instruction tells what its word does: it reports
every successor, it is never `fall` for a word that leaves the sequence, and a
call is classified as one. -/
structure FlowSound (i : DecodedInstruction) : Prop where
  reported : ∀ s ∈ (archFlow i.address i.word).successors (i.address + 4),
    s ∈ i.controlFlow.successors (i.address + 4)
  leaving : (archFlow i.address i.word).leaves = true → i.controlFlow ≠ .fall
  call : (archFlow i.address i.word).isCall = true → isCallFlow i.controlFlow = true

/-- The classification that tells an architectural flow. -/
def classOf (next : U64) : ArchFlow → ControlFlow
  | .sequential => .fall
  | .branch target => .jump target
  | .conditional target => .conditionalJump target next
  | .call target => .call target next
  | .indirectBranch => .indirectJump
  | .indirectCall => .indirectCall next
  | .return => .return

theorem successors_classOf (next : U64) (flow : ArchFlow) :
    (classOf next flow).successors next = flow.successors next := by
  cases flow <;> rfl

theorem classOf_ne_fall {next : U64} {flow : ArchFlow} (h : flow.leaves = true) :
    classOf next flow ≠ .fall := by
  intro hfall
  cases flow
  case sequential => cases h
  all_goals cases hfall

theorem isCallFlow_classOf {next : U64} {flow : ArchFlow} (h : flow.isCall = true) :
    isCallFlow (classOf next flow) = true := by
  cases flow
  case call target => rfl
  case indirectCall => rfl
  all_goals cases h

/-- The classification is the one of the architectural flow, or a trap for a
word after which execution resumes in sequence. -/
def FlowAgrees (i : DecodedInstruction) : Prop :=
  i.controlFlow = classOf (i.address + 4) (archFlow i.address i.word) ∨
    archFlow i.address i.word = .sequential ∧ i.controlFlow = .trap

theorem FlowAgrees.successors {i : DecodedInstruction} (h : FlowAgrees i) :
    i.controlFlow.successors (i.address + 4)
      = (archFlow i.address i.word).successors (i.address + 4) := by
  rcases h with hclass | ⟨harch, htrap⟩
  · rw [hclass, successors_classOf]
  · rw [harch, htrap]
    rfl

theorem FlowAgrees.sound {i : DecodedInstruction} (h : FlowAgrees i) : FlowSound i where
  reported := by
    intro s hs
    rw [h.successors]
    exact hs
  leaving := by
    intro hleaves
    rcases h with hclass | ⟨harch, htrap⟩
    · rw [hclass]
      exact classOf_ne_fall hleaves
    · rw [harch] at hleaves
      cases hleaves
  call := by
    intro hcall
    rcases h with hclass | ⟨harch, htrap⟩
    · rw [hclass]
      exact isCallFlow_classOf hcall
    · rw [harch] at hcall
      cases hcall

/-! ## §2. Branches with a direct target. -/

/-- The byte offset in the word of a branch. -/
def branchOffset (m : Aarch64Mnemonic) (w : Word) : Int :=
  match m with
  | .b | .bl => imm26 w
  | .tbz | .tbnz => imm14 w
  | _ => imm19 w

/-- What the architecture does after a branch of the family. -/
def familyFlow (m : Aarch64Mnemonic) (target : U64) : ArchFlow :=
  match m with
  | .b => .branch target
  | .bl => .call target
  | _ => .conditional target

theorem archFlow_conditional {address : U64} {w : Word} {cond : Nat} (hcond : cond < 14)
    (hw : w &&& 0xff00001f#32 = 0x54000000#32 ||| BitVec.ofNat 32 cond) :
    archFlow address w = .conditional (branchTarget address (imm19 w)) := by
  have hvalue : ∀ cond < 14, (0x54000000#32 ||| BitVec.ofNat 32 cond) &&& 0xff000010#32
      = 0x54000000#32 := by decide
  have hcode : ∀ cond < 14, (0x54000000#32 ||| BitVec.ofNat 32 cond) &&& 0xe#32 ≠ 0xe#32 := by
    decide
  have hclass : w &&& 0xff000010#32 = 0x54000000#32 := by
    rw [and_of_known hw (by decide), hvalue cond hcond]
  have hfalse : w &&& 0xe#32 ≠ 0xe#32 := by
    rw [and_of_known hw (by decide)]
    exact hcode cond hcond
  rw [archFlow, if_neg (and_ne_of_known hclass (by decide)),
    if_neg (and_ne_of_known hclass (by decide)), if_pos hclass, if_neg hfalse]

theorem archFlow_compare {address : U64} {w : Word} (hw : w &&& 0x7e000000#32 = 0x34000000#32) :
    archFlow address w = .conditional (branchTarget address (imm19 w)) := by
  rw [archFlow, if_neg (and_ne_of_known hw (by decide)), if_neg (and_ne_of_known hw (by decide)),
    if_neg (and_ne_of_known hw (by decide)), if_pos hw]

theorem archFlow_test {address : U64} {w : Word} (hw : w &&& 0x7e000000#32 = 0x36000000#32) :
    archFlow address w = .conditional (branchTarget address (imm14 w)) := by
  rw [archFlow, if_neg (and_ne_of_known hw (by decide)), if_neg (and_ne_of_known hw (by decide)),
    if_neg (and_ne_of_known hw (by decide)), if_neg (and_ne_of_known hw (by decide)), if_pos hw]

theorem archFlow_family {m : Aarch64Mnemonic} {row : Aarch64Opcode} (address : U64) {w : Word}
    (h : branchRow m = some row) (hw : w &&& row.mask = row.opcode) :
    archFlow address w = familyFlow m (branchTarget address (branchOffset m w)) := by
  cases m <;> simp only [branchRow, reduceCtorEq, Option.some.injEq] at h <;> subst h
  case b => exact if_pos hw
  case bl =>
    rw [archFlow, if_neg (and_ne_of_known hw (by decide)), if_pos hw]
    rfl
  case cbz | cbnz => exact archFlow_compare (and_of_known hw (by decide))
  case tbz | tbnz => exact archFlow_test (and_of_known hw (by decide))
  all_goals exact archFlow_conditional (by decide) hw

set_option maxRecDepth 4000 in
theorem not_unlisted_family {m : Aarch64Mnemonic} {row : Aarch64Opcode} {w : Word}
    (h : branchRow m = some row) (hw : w &&& row.mask = row.opcode) :
    isUnlistedBranch w = false := by
  have hclash : ∀ m ∈ branchMnemonics, (branchRow m).all (fun row =>
      (row.opcode ^^^ 0x5400000e#32) &&& (row.mask &&& 0xff00001e#32) != 0#32 &&
        (row.opcode ^^^ 0xd6000800#32) &&& (row.mask &&& 0xfe000800#32) != 0#32) = true := by
    decide
  have hrow := hclash m (mem_branchMnemonics h)
  rw [h, Option.all_some, Bool.and_eq_true, bne_iff_ne, bne_iff_ne] at hrow
  rw [isUnlistedBranch, Bool.or_eq_false_iff, beq_eq_false_iff_ne, beq_eq_false_iff_ne]
  exact ⟨and_ne_of_known hw hrow.1, and_ne_of_known hw hrow.2⟩

theorem directBranchTarget_family {m : Aarch64Mnemonic} {row : Aarch64Opcode} {address : U64}
    {w : Word} {operands : List DecodedOperand} (h : branchRow m = some row)
    (hoperands : decodeOperands w address row 0 row.operands = .ok operands) :
    directBranchTarget operands = some (branchTarget address (branchOffset m w)) := by
  cases m <;> simp only [branchRow, reduceCtorEq, Option.some.injEq] at h <;> subst h <;>
    rw [← Except.ok.inj hoperands] <;> rfl

/-- The classification of a branch with a direct target. -/
theorem controlFlow_family {i : DecodedInstruction} {row : Aarch64Opcode} {target : U64}
    (h : branchRow i.mnemonic = some row) (htarget : directBranchTarget i.operands = some target) :
    i.controlFlow = classOf (i.address + 4) (familyFlow i.mnemonic target) := by
  obtain ⟨address, word, mnemonic, operands⟩ := i
  simp only at h htarget
  cases mnemonic <;> simp only [branchRow, reduceCtorEq] at h <;>
    simp only [DecodedInstruction.controlFlow, htarget, familyFlow, classOf]

theorem flowAgrees_family {address : U64} {w : Word} {i : DecodedInstruction} {row : Aarch64Opcode}
    (hdecode : decodeInstruction address w = .ok i) (h : branchRow i.mnemonic = some row)
    (hw : w &&& row.mask = row.opcode) : FlowAgrees i := by
  obtain ⟨-, -, -, haddress, hword, -⟩ := decodeInstruction_row hdecode
  have htarget := directBranchTarget_family h (decodeInstruction_branch hdecode h)
  have hflow := controlFlow_family h htarget
  have harch := archFlow_family i.address h (hword ▸ hw)
  left
  rw [hflow, harch, haddress, hword]

/-! ## §3. Register branches. -/

def registerBranchRow (name : String) (opcode mask : Word) (operands : List Aarch64Opnd) :
    Aarch64Opcode :=
  ⟨name, opcode, mask, .branchReg, operands, 0⟩

/-- The register branches the classifier lists. -/
def listedRegisterRows : List Aarch64Opcode :=
  [registerBranchRow "br" 0xd61f0000#32 0xfffffc1f#32 [.rn],
    registerBranchRow "blr" 0xd63f0000#32 0xfffffc1f#32 [.rn],
    registerBranchRow "ret" 0xd65f0000#32 0xfffffc1f#32 [.rn],
    registerBranchRow "eret" 0xd69f03e0#32 0xffffffff#32 [],
    registerBranchRow "drps" 0xd6bf03e0#32 0xffffffff#32 []]

/-- The pointer-authenticated ones. -/
def authenticatedRows : List Aarch64Opcode :=
  [registerBranchRow "braaz" 0xd61f081f#32 0xfffffc1f#32 [.rn],
    registerBranchRow "brabz" 0xd61f0c1f#32 0xfffffc1f#32 [.rn],
    registerBranchRow "blraaz" 0xd63f081f#32 0xfffffc1f#32 [.rn],
    registerBranchRow "blrabz" 0xd63f0c1f#32 0xfffffc1f#32 [.rn],
    registerBranchRow "braa" 0xd71f0800#32 0xffe0fc00#32 [.rn, .rmLow],
    registerBranchRow "brab" 0xd71f0c00#32 0xffe0fc00#32 [.rn, .rmLow],
    registerBranchRow "blraa" 0xd73f0800#32 0xffe0fc00#32 [.rn, .rmLow],
    registerBranchRow "blrab" 0xd73f0c00#32 0xffe0fc00#32 [.rn, .rmLow],
    registerBranchRow "retaa" 0xd65f0bff#32 0xffffffff#32 [],
    registerBranchRow "retab" 0xd65f0fff#32 0xffffffff#32 []]

/-- The row of an always-true `b.cond`. -/
def alwaysConditionRow : Aarch64Opcode :=
  ⟨"b.c", 0x54000000#32, 0xff000010#32, .condbranch, [.addrPcrel19], 0⟩

set_option maxRecDepth 20000 in
/-- The rows whose fixed bits allow a register branch. -/
theorem registerRows_compatible :
    aarch64OpcodeTable.filter (compatible 0xfe000000#32 0xd6000000#32)
      = listedRegisterRows ++ authenticatedRows := by
  decide

set_option maxRecDepth 20000 in
/-- The rows whose fixed bits allow an always-true condition. -/
theorem alwaysRows_compatible :
    aarch64OpcodeTable.filter (compatible 0xff00001e#32 0x5400000e#32) = [alwaysConditionRow] := by
  decide

/-- The names of the listed register branches stand for no other row. -/
def registerBranchNames : List String := ["br", "blr", "ret", "eret", "drps"]

set_option maxRecDepth 20000 in
theorem registerRows_named :
    aarch64OpcodeTable.filter (fun row => registerBranchNames.contains row.name)
      = listedRegisterRows := by
  decide

/-- The row of a word whose fixed bits are known. -/
theorem mem_of_compatible {w known value : Word} {row : Aarch64Opcode} {rows : List Aarch64Opcode}
    (hmatch : matchOpcode w = some row) (hw : w &&& known = value)
    (hrows : aarch64OpcodeTable.filter (compatible known value) = rows) : row ∈ rows := by
  obtain ⟨hmem, hmask, halias⟩ := matchOpcode_spec hmatch
  have hismatch : row.isMatch w = true := by
    rw [isMatch, hmask, halias]
    rfl
  rw [← hrows]
  exact List.mem_filter.mpr ⟨hmem, compatible_of_isMatch hw hismatch⟩

theorem fixedBits_of_match {w : Word} {row : Aarch64Opcode} (hmatch : matchOpcode w = some row) :
    w &&& row.mask = row.opcode &&& row.mask := by
  have hmask := (matchOpcode_spec hmatch).2.1
  rw [maskMatches, beq_iff_eq] at hmask
  exact hmask

/-- A register branch is none of the direct ones. -/
theorem archFlow_register {address : U64} {w : Word} (hw : w &&& 0xfe000000#32 = 0xd6000000#32) :
    archFlow address w = registerBranchFlow w := by
  rw [archFlow, if_neg (and_ne_of_known hw (by decide)), if_neg (and_ne_of_known hw (by decide)),
    if_neg (and_ne_of_known hw (by decide)), if_neg (and_ne_of_known hw (by decide)),
    if_neg (and_ne_of_known hw (by decide)), if_pos hw]

/-- Bits 24:21 of a register branch, from known bits. -/
theorem bitsOf_register {w : Word} {value : Word} (hw : w &&& 0x01e00000#32 = value) :
    bitsOf w 21 4 = value.toNat / 2 ^ 21 := by
  rw [bitsOf_eq w (by omega), ← hw]
  have hbits : w.extractLsb' 21 4 = ((w &&& 0x01e00000#32) >>> 21).setWidth 4 := by
    ext i hi
    have : i = 0 ∨ i = 1 ∨ i = 2 ∨ i = 3 := by omega
    rcases this with rfl | rfl | rfl | rfl <;> simp
  rw [hbits, BitVec.toNat_setWidth, BitVec.toNat_ushiftRight, Nat.shiftRight_eq_div_pow]
  have hle : (w &&& 0x01e00000#32).toNat ≤ 0x01e00000 := by
    rw [BitVec.toNat_and]
    exact Nat.and_le_right
  omega

/-- What the architecture does after a listed register branch. -/
def listedFlow (name : String) : ArchFlow :=
  if name = "br" then .indirectBranch else if name = "blr" then .indirectCall else .return

theorem listed_spec (address : U64) {w : Word} {row : Aarch64Opcode}
    (hrow : row ∈ listedRegisterRows) (hw : w &&& row.mask = row.opcode &&& row.mask) :
    archFlow address w = listedFlow row.name ∧ isUnlistedBranch w = false := by
  have hbits : ∀ row ∈ listedRegisterRows, 0xfe000000#32 &&& row.mask = 0xfe000000#32 ∧
      row.opcode &&& row.mask &&& 0xfe000000#32 = 0xd6000000#32 ∧
      0x01e00000#32 &&& row.mask = 0x01e00000#32 ∧
      (row.opcode &&& row.mask ^^^ 0x5400000e#32) &&& (row.mask &&& 0xff00001e#32) ≠ 0#32 ∧
      (row.opcode &&& row.mask ^^^ 0xd6000800#32) &&& (row.mask &&& 0xfe000800#32) ≠ 0#32 := by
    decide
  have hflow : ∀ row ∈ listedRegisterRows,
      (match (row.opcode &&& row.mask &&& 0x01e00000#32).toNat / 2 ^ 21 with
        | 0 | 8 => ArchFlow.indirectBranch
        | 1 | 9 => .indirectCall
        | 2 | 4 | 5 => .return
        | _ => .sequential) = listedFlow row.name := by
    decide
  obtain ⟨hclass, hvalue, hkind, halways, hauth⟩ := hbits row hrow
  constructor
  · rw [archFlow_register (by rw [and_of_known hw hclass, hvalue]), registerBranchFlow,
      bitsOf_register (and_of_known hw hkind)]
    exact hflow row hrow
  · rw [isUnlistedBranch, Bool.or_eq_false_iff, beq_eq_false_iff_ne, beq_eq_false_iff_ne]
    exact ⟨and_ne_of_known hw halways, and_ne_of_known hw hauth⟩

/-- The classification of a listed register branch. -/
theorem controlFlow_listed {i : DecodedInstruction} {row : Aarch64Opcode}
    (hrow : row ∈ listedRegisterRows) (hmnemonic : i.mnemonic = .parse row.name) :
    i.controlFlow = classOf (i.address + 4) (listedFlow row.name) := by
  obtain ⟨address, word, mnemonic, operands⟩ := i
  simp only at hmnemonic
  have hparse : ∀ row ∈ listedRegisterRows,
      (row.name = "br" ∧ Aarch64Mnemonic.parse row.name = .br) ∨
        (row.name = "blr" ∧ Aarch64Mnemonic.parse row.name = .blr) ∨
        (row.name ≠ "br" ∧ row.name ≠ "blr" ∧
          (Aarch64Mnemonic.parse row.name = .ret ∨ Aarch64Mnemonic.parse row.name = .eret ∨
            Aarch64Mnemonic.parse row.name = .drps)) := by
    decide
  rcases hparse row hrow with ⟨hname, hm⟩ | ⟨hname, hm⟩ | ⟨hbr, hblr, hm⟩
  · rw [hm] at hmnemonic
    subst hmnemonic
    rw [listedFlow, if_pos hname]
    rfl
  · rw [hm] at hmnemonic
    subst hmnemonic
    rw [listedFlow, hname]
    rfl
  · rw [listedFlow, if_neg hbr, if_neg hblr]
    rcases hm with hm | hm | hm <;> rw [hm] at hmnemonic <;> subst hmnemonic <;> rfl

theorem flowAgrees_listed {i : DecodedInstruction} {row : Aarch64Opcode}
    (hrow : row ∈ listedRegisterRows) (hmnemonic : i.mnemonic = .parse row.name)
    (hw : i.word &&& row.mask = row.opcode &&& row.mask) : FlowAgrees i := by
  have harch := (listed_spec i.address hrow hw).1
  have hflow := controlFlow_listed hrow hmnemonic
  left
  rw [hflow, harch]

/-! ## §4. Every accepted word. -/

/-- A mnemonic the classifier takes for a branch, call or return. -/
def isBranchMnemonic (m : Aarch64Mnemonic) : Bool :=
  branchMnemonics.contains m || [.br, .blr, .ret, .eret, .drps].contains m

/-- Any other mnemonic goes on in sequence. -/
theorem controlFlow_other {i : DecodedInstruction} (h : isBranchMnemonic i.mnemonic = false) :
    i.controlFlow = .fall ∨ i.controlFlow = .trap := by
  obtain ⟨address, word, mnemonic, operands⟩ := i
  cases mnemonic
  case other name => exact .inl rfl
  all_goals
    first
    | exact .inl rfl
    | exact .inr rfl
    | exact Bool.noConfusion (show true = false from h)

/-- The row of a listed register branch, by its mnemonic. -/
theorem mem_listed_of_mnemonic {w : Word} {row : Aarch64Opcode} (hmatch : matchOpcode w = some row)
    (hm : Aarch64Mnemonic.parse row.name ∈ [Aarch64Mnemonic.br, .blr, .ret, .eret, .drps]) :
    row ∈ listedRegisterRows := by
  have hspellings : ∀ m ∈ [Aarch64Mnemonic.br, .blr, .ret, .eret, .drps],
      ∀ name ∈ m.spellings, name ∈ registerBranchNames := by decide
  have hother : ∀ m ∈ [Aarch64Mnemonic.br, .blr, .ret, .eret, .drps], ∀ name,
      m ≠ Aarch64Mnemonic.other name := by
    intro m hm name h
    subst h
    simp at hm
  have hname := (Aarch64Mnemonic.parse_eq_iff (hother _ hm)).mp rfl
  rw [← registerRows_named]
  exact List.mem_filter.mpr ⟨(matchOpcode_spec hmatch).1,
    List.contains_iff_mem.mpr (hspellings _ hm _ hname)⟩

/-- The row of a direct branch, by its mnemonic. -/
theorem branchRow_of_mnemonic {w : Word} {row : Aarch64Opcode} (hmatch : matchOpcode w = some row)
    (hm : Aarch64Mnemonic.parse row.name ∈ branchMnemonics) :
    branchRow (.parse row.name) = some row := by
  obtain ⟨row', hrow'⟩ := branchRow_of_mem hm
  have hmem : row ∈ opcodesForMnemonic (.parse row.name) :=
    List.mem_filter.mpr ⟨(matchOpcode_spec hmatch).1, by simp [mnemonicId]⟩
  rw [opcodesForMnemonic_branch hrow', List.mem_singleton] at hmem
  rw [hrow', hmem]

/-- A word with the fixed bits of a direct branch has its mnemonic. -/
theorem mnemonic_of_fixedBits {m : Aarch64Mnemonic} {row row' : Aarch64Opcode} {w : Word}
    (h : branchRow m = some row) (hw : w &&& row.mask = row.opcode)
    (hmatch : matchOpcode w = some row') : Aarch64Mnemonic.parse row'.name = m := by
  rw [matchOpcode_branch h hw] at hmatch
  cases hmatch
  exact parse_branchRow h

/-- The conditions in the order of their codes. -/
def conditionMnemonics : List Aarch64Mnemonic :=
  [.beq, .bne, .bcs, .bcc, .bmi, .bpl, .bvs, .bvc, .bhi, .bls, .bge, .blt, .bgt, .ble]

/-- A `b.cond` whose condition is not always true has a condition's mnemonic. -/
theorem mnemonic_of_condition {w : Word} {row : Aarch64Opcode}
    (hw : w &&& 0xff000010#32 = 0x54000000#32) (hcode : w &&& 0xe#32 ≠ 0xe#32)
    (hmatch : matchOpcode w = some row) :
    Aarch64Mnemonic.parse row.name ∈ branchMnemonics := by
  have hsplit : w &&& 0xff00001f#32 = (w &&& 0xff000010#32) ||| (w &&& 0xf#32) := by
    rw [← BitVec.and_or_distrib_left]
    rfl
  have hrows : ∀ code : BitVec 4, code &&& 0xe#4 ≠ 0xe#4 → ∃ m ∈ conditionMnemonics,
      (branchRow m).any (fun row => row.mask == 0xff00001f#32 &&
        row.opcode == (0x54000000#32 ||| code.setWidth 32)) = true := by decide
  have hlow : w &&& 0xf#32 = (w.setWidth 4).setWidth 32 := by
    apply BitVec.eq_of_toNat_eq
    have hmod : w.toNat &&& 0xf = w.toNat % 16 := Nat.and_two_pow_sub_one_eq_mod w.toNat 4
    rw [BitVec.toNat_and, BitVec.toNat_setWidth, BitVec.toNat_setWidth]
    show w.toNat &&& 0xf = _
    omega
  have hcode4 : w.setWidth 4 &&& 0xe#4 ≠ 0xe#4 := by
    intro heq
    apply hcode
    have hwide := congrArg (BitVec.setWidth 32) heq
    rw [BitVec.setWidth_and, ← hlow, BitVec.and_assoc] at hwide
    exact hwide
  obtain ⟨m, hm, hany⟩ := hrows (w.setWidth 4) hcode4
  have hfamily : ∀ m ∈ conditionMnemonics, m ∈ branchMnemonics := by decide
  obtain ⟨row', hrow'⟩ := branchRow_of_mem (hfamily m hm)
  rw [hrow', Option.any_some, Bool.and_eq_true, beq_iff_eq, beq_iff_eq] at hany
  have hfixed : w &&& row'.mask = row'.opcode := by
    rw [hany.1, hany.2, hsplit, hw, hlow]
  rw [mnemonic_of_fixedBits hrow' hfixed hmatch]
  exact mem_branchMnemonics hrow'

/-- A word the architecture does not go on after in sequence has a branch
mnemonic, or is one of the unlisted branches. -/
theorem archFlow_other {address : U64} {w : Word} {row : Aarch64Opcode}
    (hmatch : matchOpcode w = some row)
    (hm : isBranchMnemonic (.parse row.name) = false) (hlisted : isUnlistedBranch w = false) :
    archFlow address w = .sequential := by
  rw [isBranchMnemonic, Bool.or_eq_false_iff] at hm
  have hfamily : Aarch64Mnemonic.parse row.name ∉ branchMnemonics := by
    intro hmem
    rw [List.contains_iff_mem.mpr hmem] at hm
    cases hm.1
  have hregister : row ∉ listedRegisterRows := by
    intro hmem
    have hname : ∀ row ∈ listedRegisterRows,
        [Aarch64Mnemonic.br, .blr, .ret, .eret, .drps].contains (.parse row.name) = true := by
      decide
    rw [hname row hmem] at hm
    cases hm.2
  have hdirect : ∀ {m row'}, branchRow m = some row' → w &&& row'.mask ≠ row'.opcode := by
    intro m row' hrow' hw
    apply hfamily
    rw [mnemonic_of_fixedBits hrow' hw hmatch]
    exact mem_branchMnemonics hrow'
  rw [isUnlistedBranch, Bool.or_eq_false_iff, beq_eq_false_iff_ne, beq_eq_false_iff_ne] at hlisted
  -- bit 24 tells the two mnemonics of a compare or test branch apart
  have hpair : ∀ {value : Word}, w &&& 0x7e000000#32 = value →
      w &&& 0x7f000000#32 = value ∨ w &&& 0x7f000000#32 = value ||| 0x01000000#32 := by
    intro value hvalue
    have hsplit : w &&& 0x7f000000#32 = (w &&& 0x7e000000#32) ||| (w &&& 0x01000000#32) := by
      rw [← BitVec.and_or_distrib_left]
      rfl
    have hbit : w &&& 0x01000000#32 = 0#32 ∨ w &&& 0x01000000#32 = 0x01000000#32 :=
      and_twoPow_eq_or w 24
    rw [hsplit, hvalue]
    rcases hbit with hbit | hbit <;> rw [hbit]
    · exact .inl (BitVec.or_zero)
    · exact .inr rfl
  rw [archFlow, if_neg (hdirect (m := .b) rfl), if_neg (hdirect (m := .bl) rfl)]
  split
  · next hcond =>
    exfalso
    by_cases hcode : w &&& 0xe#32 = 0xe#32
    · apply hlisted.1
      have hsplit : w &&& 0xff00001e#32 = (w &&& 0xff000010#32) ||| (w &&& 0xe#32) := by
        rw [← BitVec.and_or_distrib_left]
        rfl
      rw [hsplit, hcond, hcode]
      rfl
    · exact hfamily (mnemonic_of_condition hcond hcode hmatch)
  · split
    · next hcompare =>
      rcases hpair hcompare with hbit | hbit
      · exact absurd hbit (hdirect (m := .cbz) rfl)
      · exact absurd hbit (hdirect (m := .cbnz) rfl)
    · split
      · next htest =>
        rcases hpair htest with hbit | hbit
        · exact absurd hbit (hdirect (m := .tbz) rfl)
        · exact absurd hbit (hdirect (m := .tbnz) rfl)
      · split
        · next hclass =>
          rcases List.mem_append.mp (mem_of_compatible hmatch hclass registerRows_compatible)
            with hmem | hmem
          · exact absurd hmem hregister
          · exfalso
            have hauth : ∀ row ∈ authenticatedRows, 0xfe000800#32 &&& row.mask = 0xfe000800#32 ∧
                row.opcode &&& row.mask &&& 0xfe000800#32 = 0xd6000800#32 := by decide
            obtain ⟨hmask, hvalue⟩ := hauth row hmem
            apply hlisted.2
            rw [and_of_known (fixedBits_of_match hmatch) hmask, hvalue]
        · rfl

/-- An unlisted branch always leaves the sequence or calls, and its row has a
name the classifier takes for a plain instruction. -/
theorem unlisted_spec (address : U64) {w : Word} {row : Aarch64Opcode}
    (hmatch : matchOpcode w = some row) (h : isUnlistedBranch w = true) :
    ((archFlow address w).leaves = true ∨ (archFlow address w).isCall = true) ∧
      ∃ name, Aarch64Mnemonic.parse row.name = .other name := by
  rw [isUnlistedBranch, Bool.or_eq_true, beq_iff_eq, beq_iff_eq] at h
  rcases h with halways | hauth
  · have hclass : w &&& 0xff000010#32 = 0x54000000#32 := and_of_known halways (by decide)
    have hcode : w &&& 0xe#32 = 0xe#32 := and_of_known halways (by decide)
    constructor
    · rw [archFlow, if_neg (and_ne_of_known hclass (by decide)),
        if_neg (and_ne_of_known hclass (by decide)), if_pos hclass, if_pos hcode]
      exact .inl rfl
    · have hmem := mem_of_compatible hmatch halways alwaysRows_compatible
      rw [List.mem_singleton.mp hmem]
      exact ⟨"b.c", by decide⟩
  · have hclass : w &&& 0xfe000000#32 = 0xd6000000#32 := and_of_known hauth (by decide)
    have hmem : row ∈ authenticatedRows := by
      rcases List.mem_append.mp (mem_of_compatible hmatch hclass registerRows_compatible)
        with hmem | hmem
      · have hlisted := (listed_spec address hmem (fixedBits_of_match hmatch)).2
        rw [isUnlistedBranch, Bool.or_eq_false_iff, beq_eq_false_iff_ne,
          beq_eq_false_iff_ne] at hlisted
        exact absurd hauth hlisted.2
      · exact hmem
    constructor
    · have hkind : ∀ row ∈ authenticatedRows, 0x01e00000#32 &&& row.mask = 0x01e00000#32 ∧
          [0, 1, 2, 8, 9].contains
            ((row.opcode &&& row.mask &&& 0x01e00000#32).toNat / 2 ^ 21) = true := by
        decide
      obtain ⟨hmask, hvalue⟩ := hkind row hmem
      rw [archFlow_register hclass, registerBranchFlow,
        bitsOf_register (and_of_known (fixedBits_of_match hmatch) hmask)]
      have hcases := List.contains_iff_mem.mp hvalue
      simp only [List.mem_cons, List.not_mem_nil, or_false] at hcases
      rcases hcases with h | h | h | h | h <;> rw [h]
      · exact .inl rfl
      · exact .inr rfl
      · exact .inl rfl
      · exact .inl rfl
      · exact .inr rfl
    · have hname : ∀ row ∈ authenticatedRows,
          Aarch64Mnemonic.parse row.name = .other row.name := by decide
      exact ⟨row.name, hname row hmem⟩

/-- A word with a branch mnemonic is classified as what it does. -/
theorem flowAgrees_branch {address : U64} {w : Word} {i : DecodedInstruction}
    (hdecode : decodeInstruction address w = .ok i) (hm : isBranchMnemonic i.mnemonic = true) :
    FlowAgrees i ∧ isUnlistedBranch i.word = false := by
  obtain ⟨row, hmatch, hoperands, haddress, hword, hmnemonic⟩ := decodeInstruction_row hdecode
  rw [isBranchMnemonic, Bool.or_eq_true, List.contains_iff_mem, List.contains_iff_mem,
    hmnemonic] at hm
  rcases hm with hm | hm
  · have hrow := branchRow_of_mnemonic hmatch hm
    rw [← hmnemonic] at hrow
    have hw := fixedBits_of_maskMatches hrow (matchOpcode_spec hmatch).2.1
    exact ⟨flowAgrees_family hdecode hrow hw, hword ▸ not_unlisted_family hrow hw⟩
  · have hrow := mem_listed_of_mnemonic hmatch hm
    have hw := fixedBits_of_match hmatch
    rw [← hword] at hw
    exact ⟨flowAgrees_listed hrow hmnemonic hw, (listed_spec address hrow hw).2⟩

/-- Every accepted word but the unlisted branches is classified as what it does. -/
theorem flowAgrees_of_listed {address : U64} {w : Word} {i : DecodedInstruction}
    (hdecode : decodeInstruction address w = .ok i) (hlisted : isUnlistedBranch i.word = false) :
    FlowAgrees i := by
  by_cases hm : isBranchMnemonic i.mnemonic = true
  · exact (flowAgrees_branch hdecode hm).1
  · have hm := Bool.eq_false_iff.mpr hm
    obtain ⟨row, hmatch, -, haddress, hword, hmnemonic⟩ := decodeInstruction_row hdecode
    have harch : archFlow i.address i.word = .sequential := by
      rw [hword] at hlisted ⊢
      exact archFlow_other hmatch (hmnemonic ▸ hm) hlisted
    rcases controlFlow_other hm with hfall | htrap
    · left
      rw [hfall, harch]
      rfl
    · exact .inr ⟨harch, htrap⟩

/-- **The classification of an accepted word is sound exactly when the word is
none of the unlisted branches.** -/
theorem flowSound_iff {address : U64} {w : Word} {i : DecodedInstruction}
    (hdecode : decodeInstruction address w = .ok i) :
    FlowSound i ↔ isUnlistedBranch i.word = false := by
  constructor
  · intro hsound
    by_contra hunlisted
    rw [Bool.not_eq_false] at hunlisted
    obtain ⟨row, hmatch, -, haddress, hword, hmnemonic⟩ := decodeInstruction_row hdecode
    rw [hword] at hunlisted
    obtain ⟨hleaves, name, hname⟩ := unlisted_spec address hmatch hunlisted
    have hfall : i.controlFlow = .fall := by
      rw [DecodedInstruction.controlFlow, hmnemonic, hname]
    rw [← haddress, ← hword] at hleaves
    rcases hleaves with hleaves | hcall
    · exact hsound.leaving hleaves hfall
    · have := hsound.call hcall
      rw [hfall] at this
      cases this
  · intro hlisted
    exact (flowAgrees_of_listed hdecode hlisted).sound

/-! ## §5. Runs of the walker and the graph builder. -/

/-- The architecture leads from the word at one address to another. -/
def ArchContinues (base : U64) (bytes : List Byte) (a b : U64) : Prop :=
  ∃ i, decodeAt bytes (a.toNat - base.toNat) a = some i ∧ b ∈ (archFlow a i.word).successors (a + 4)

/-- The addresses in range the architecture leads to from the entry points. -/
def ArchReach (base : U64) (bytes : List Byte) (entries : List U64) : U64 → Prop :=
  Reach (inRange 4 base bytes) (ArchContinues base bytes) entries

/-- When no emitted word is an unlisted branch, only words the architecture
leads to are emitted. -/
theorem archReach_of_listed {base : U64} {bytes : List Byte} {entries : List U64}
    {d : Disassembly DecodedInstruction} (hd : disassembleRecursive base bytes entries = some d)
    (hlisted : ∀ i ∈ d.instructions, isUnlistedBranch i.word = false) :
    ∀ i ∈ d.instructions, ArchReach base bytes entries i.address := by
  have hwrap : base.toNat + alignedLen 4 bytes < 2 ^ 64 := by
    by_contra hwrap
    rw [disassembleRecursive, disassembleRecursive_eq (by decide), if_neg hwrap] at hd
    cases hd
  obtain ⟨d', hd', hspec⟩ :=
    disassembleRecursive_disassembles (decodesBytes bytes) hwrap entries
  rw [show disassembleRecursive base bytes entries = some d' from hd'] at hd
  cases hd
  intro i hi
  refine Reach.mono (fun _ h => h) ?_ (hspec.emitted i hi).1
  rintro a b hreach ⟨j, hj, hb⟩
  refine ⟨j, hj, ?_⟩
  have hdecode := (decodeAt_eq_some hj).2
  have haddress := decodeInstruction_address hdecode
  -- a reached word that decodes is emitted: no other word lies over its start
  have hemitted : j ∈ d.instructions := by
    rcases hspec.complete a j hreach hj with hmem | ⟨k, hk, hlow, hhigh⟩
    · exact hmem
    · obtain ⟨hge, -, ha⟩ := inRange_iff.mp hreach.isAllowed
      obtain ⟨hge', -, hk'⟩ := inRange_iff.mp (hspec.emitted k hk).1.isAllowed
      have hsize : (aarch64Info.size k).toNat = 4 := rfl
      have haddr : (aarch64Info.address k).toNat = k.address.toNat := rfl
      omega
  have hagrees := (flowAgrees_of_listed hdecode (hlisted j hemitted)).successors
  rw [haddress] at hagrees
  rw [← hagrees]
  exact hb

/-- An instruction that leaves the sequence ends its block. -/
theorem leaving_ends_block {instructions : List DecodedInstruction}
    (hdecoded : ∀ i ∈ instructions, decodeInstruction i.address i.word = .ok i) {t : Nat}
    {i : DecodedInstruction} (hi : instructions[t]? = some i)
    (hleaves : (archFlow i.address i.word).leaves = true) (hlisted : isUnlistedBranch i.word = false)
    {b : BasicBlock} (hb : b ∈ (buildCfg aarch64Info instructions).blocks) (hfirst : b.firstIndex ≤ t)
    (hlast : t < b.endIndex) : b.endIndex = t + 1 := by
  refine buildCfg_terminator hb hi ?_ hfirst hlast
  have hdecode := hdecoded i (List.mem_of_getElem? hi)
  have hfall := (flowAgrees_of_listed hdecode hlisted).sound.leaving hleaves
  show i.controlFlow.isTerminator = true
  cases hflow : i.controlFlow with
  | fall => exact absurd hflow hfall
  | _ => rfl

/-- **The classification is sound exactly off the unlisted branches**, and with
it the walker and the graph builder: without unlisted branches among its words
the walker decodes nothing but what the architecture leads to, and a block is
never continued past an instruction that leaves the sequence, unlisted ones
apart. -/
theorem controlFlow_sound_iff (address : U64) (w : Word) :
    (∀ i, decodeInstruction address w = .ok i →
      (FlowSound i ↔ isUnlistedBranch w = false)) ∧
    (∀ base bytes entries d, disassembleRecursive base bytes entries = some d →
      (∀ i ∈ d.instructions, isUnlistedBranch i.word = false) →
        ∀ i ∈ d.instructions, ArchReach base bytes entries i.address) ∧
    (∀ instructions : List DecodedInstruction,
      (∀ i ∈ instructions, decodeInstruction i.address i.word = .ok i) →
      ∀ t i, instructions[t]? = some i → (archFlow i.address i.word).leaves = true →
        isUnlistedBranch i.word = false → ∀ b ∈ (buildCfg aarch64Info instructions).blocks,
          b.firstIndex ≤ t → t < b.endIndex → b.endIndex = t + 1) := by
  refine ⟨?_, ?_, ?_⟩
  · intro i hdecode
    obtain ⟨-, -, -, -, hword, -⟩ := decodeInstruction_row hdecode
    rw [← hword]
    exact flowSound_iff hdecode
  · intro base bytes entries d hd hlisted
    exact archReach_of_listed hd hlisted
  · intro instructions hdecoded t i hi hleaves hlisted b hb hfirst hlast
    exact leaving_ends_block hdecoded hi hleaves hlisted hb hfirst hlast

theorem decode_branch (address : U64) :
    decodeInstruction address 0x14000002#32
      = .ok ⟨address, 0x14000002#32, .b, [.branchTarget (branchTarget address 8)]⟩ := by
  have hmatch := matchOpcode_branch (m := .b) (w := 0x14000002#32) rfl rfl
  have himm : imm26 0x14000002#32 = 8 := by decide
  unfold decodeInstruction
  rw [hmatch]
  show Except.ok (⟨address, 0x14000002#32, .parse "b",
    [.branchTarget (branchTarget address (imm26 0x14000002#32))]⟩ : DecodedInstruction) = _
  rw [himm]
  rfl

/-- A branch two words ahead is classified soundly. -/
theorem branchAhead_sound :
    FlowSound ⟨0x1000, 0x14000002#32, .b, [.branchTarget (branchTarget 0x1000 8)]⟩ :=
  ((controlFlow_sound_iff _ _).1 _ (decode_branch 0x1000)).mpr (by decide)

/-! ## §6. An unlisted branch. -/

set_option maxRecDepth 20000 in
theorem decode_retaa (address : U64) :
    decodeInstruction address 0xd65f0bff#32 = .ok ⟨address, 0xd65f0bff#32, .other "retaa", []⟩ := by
  have hdec : decides 0xffffffff#32 0xd65f0bff#32
      (registerBranchRow "retaa" 0xd65f0bff#32 0xffffffff#32 []) = true := by decide
  have hmatch := matchOpcode_of_decides (w := 0xd65f0bff#32) hdec rfl
  have hparse : Aarch64Mnemonic.parse "retaa" = .other "retaa" := by decide
  unfold decodeInstruction
  rw [hmatch]
  show Except.ok (⟨address, 0xd65f0bff#32, .parse "retaa", []⟩ : DecodedInstruction) = _
  rw [hparse]

/-- `retaa` is accepted, returns, and is classified as a plain instruction, so
not every accepted word is classified soundly. -/
theorem flowSound_fails :
    ¬ ∀ address w i, decodeInstruction address w = .ok i → FlowSound i := by
  intro h
  have hsound := h 0x1000 _ _ (decode_retaa 0x1000)
  exact hsound.leaving (by decide) rfl

end Armv8Encode.Aarch64

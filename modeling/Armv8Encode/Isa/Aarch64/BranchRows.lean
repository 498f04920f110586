/-
  Armv8Encode.Isa.Aarch64.BranchRows — the table rows of the branch family.

  A branch mnemonic has one table row, and a word that carries the fixed bits
  of that row matches it.  Both are closed computations over the table, done
  once for the whole family.
-/
import Armv8Encode.Isa.Aarch64.TableFacts

namespace Armv8Encode

open Aarch64Opcode

/-! ## §1. Rows of the branch family. -/

def condBranchRow (name : String) (cond : Nat) : Aarch64Opcode :=
  ⟨name, 0x54000000#32 ||| BitVec.ofNat 32 cond, 0xff00001f#32, .condbranch, [.addrPcrel19], fAlias⟩

/-- The table row of a branch with a direct target. -/
def branchRow : Aarch64Mnemonic → Option Aarch64Opcode
  | .b => some ⟨"b", 0x14000000#32, 0xfc000000#32, .branchImm, [.addrPcrel26], 0⟩
  | .bl => some ⟨"bl", 0x94000000#32, 0xfc000000#32, .branchImm, [.addrPcrel26], 0⟩
  | .cbz => some ⟨"cbz", 0x34000000#32, 0x7f000000#32, .compbranch, [.rt, .addrPcrel19], 0⟩
  | .cbnz => some ⟨"cbnz", 0x35000000#32, 0x7f000000#32, .compbranch, [.rt, .addrPcrel19], 0⟩
  | .tbz => some ⟨"tbz", 0x36000000#32, 0x7f000000#32, .testbranch, [.rt, .bitNum, .addrPcrel14], 0⟩
  | .tbnz =>
    some ⟨"tbnz", 0x37000000#32, 0x7f000000#32, .testbranch, [.rt, .bitNum, .addrPcrel14], 0⟩
  | .beq => some (condBranchRow "beq" 0)
  | .bne => some (condBranchRow "bne" 1)
  | .bcs => some (condBranchRow "bcs" 2)
  | .bcc => some (condBranchRow "bcc" 3)
  | .bmi => some (condBranchRow "bmi" 4)
  | .bpl => some (condBranchRow "bpl" 5)
  | .bvs => some (condBranchRow "bvs" 6)
  | .bvc => some (condBranchRow "bvc" 7)
  | .bhi => some (condBranchRow "bhi" 8)
  | .bls => some (condBranchRow "bls" 9)
  | .bge => some (condBranchRow "bge" 10)
  | .blt => some (condBranchRow "blt" 11)
  | .bgt => some (condBranchRow "bgt" 12)
  | .ble => some (condBranchRow "ble" 13)
  | _ => none

/-- The branch family: mnemonics with a direct branch target. -/
def branchMnemonics : List Aarch64Mnemonic :=
  [.b, .bl, .cbz, .cbnz, .tbz, .tbnz, .beq, .bne, .bcs, .bcc, .bmi, .bpl, .bvs, .bvc, .bhi, .bls,
    .bge, .blt, .bgt, .ble]

theorem mem_branchMnemonics {m : Aarch64Mnemonic} {row : Aarch64Opcode}
    (h : branchRow m = some row) : m ∈ branchMnemonics := by
  cases m <;> simp only [branchRow, reduceCtorEq] at h <;> decide

theorem branchRow_of_mem {m : Aarch64Mnemonic} (h : m ∈ branchMnemonics) :
    ∃ row, branchRow m = some row := by
  have hall : ∀ m ∈ branchMnemonics, (branchRow m).isSome = true := by decide
  exact Option.isSome_iff_exists.mp (hall m h)

set_option maxRecDepth 20000 in
/-- The table has exactly one row under the names of each branch. -/
theorem branchRows_found : ∀ m ∈ branchMnemonics,
    aarch64OpcodeTable.filter (fun row => m.spellings.contains row.name) = (branchRow m).toList := by
  decide +kernel

set_option maxRecDepth 20000 in
/-- The fixed bits of a branch row decide the match. -/
theorem branchRows_decide : ∀ m ∈ branchMnemonics,
    (branchRow m).all (fun row => decides row.mask row.opcode row) = true := by
  decide +kernel

theorem opcodesForMnemonic_branch {m : Aarch64Mnemonic} {row : Aarch64Opcode}
    (h : branchRow m = some row) : opcodesForMnemonic m = [row] := by
  have hother : ∀ name, m ≠ .other name := by
    rintro name rfl
    cases h
  rw [opcodesForMnemonic_eq hother, branchRows_found m (mem_branchMnemonics h), h]
  rfl

theorem matchOpcode_branch {m : Aarch64Mnemonic} {row : Aarch64Opcode} {w : Word}
    (h : branchRow m = some row) (hw : w &&& row.mask = row.opcode) :
    matchOpcode w = some row := by
  have hdec := branchRows_decide m (mem_branchMnemonics h)
  rw [h] at hdec
  exact matchOpcode_of_decides hdec hw

theorem parse_branchRow {m : Aarch64Mnemonic} {row : Aarch64Opcode}
    (h : branchRow m = some row) : Aarch64Mnemonic.parse row.name = m := by
  have hmem : row ∈ opcodesForMnemonic m := by
    rw [opcodesForMnemonic_branch h]
    exact List.mem_singleton_self row
  simpa [opcodesForMnemonic, mnemonicId] using (List.mem_filter.mp hmem).2

end Armv8Encode

/-
  Armv8Encode.Isa.Aarch64.SweepSpec — what a sweep reads and how far it reaches.

  The words of a byte string concatenate back to it, and a sweep meets them at
  consecutive addresses (`SweptFrom`).  A decoded branch target lies within the
  range layout checks for the mnemonic (`displacement_of_decode`): the reach of
  each PC-relative slot of the table is at most the range of its mnemonic.
-/
import Armv8Encode.Lib.Except
import Armv8Encode.Rewrite.Layout
import Armv8Encode.Isa.Aarch64.BranchCodec
import Armv8Encode.Isa.Aarch64.ControlFlow
import Armv8Encode.Isa.Aarch64.Sweep

namespace Armv8Encode

open Lib

/-! ## §1. Words of a byte string. -/

theorem chunkWords_bytes {bytes : List Byte} (h : bytes.length % 4 = 0) :
    (chunkWords bytes).flatMap toLeBytes = bytes := by
  fun_induction chunkWords bytes with
  | case1 b0 b1 b2 b3 rest ih =>
    have hrest : rest.length % 4 = 0 := by
      simp only [List.length_cons] at h
      omega
    rw [List.flatMap_cons, toLeBytes_fromLeBytes, ih hrest]
    rfl
  | case2 bytes hshort =>
    match bytes, hshort, h with
    | [], _, _ => rfl
    | [_], _, h => simp at h
    | [_, _], _, h => simp at h
    | [_, _, _], _, h => simp at h
    | b0 :: b1 :: b2 :: b3 :: rest, hshort, _ => exact absurd rfl (hshort b0 b1 b2 b3 rest)

/-- The word at an index stands at four times that offset. -/
theorem chunkWords_getElem? {bytes : List Byte} {k : Nat} {w : Word}
    (h : (chunkWords bytes)[k]? = some w) :
    4 * k < bytes.length ∧ leWord? (bytes.drop (4 * k)) = some w := by
  fun_induction chunkWords bytes generalizing k with
  | case1 b0 b1 b2 b3 rest ih =>
    cases k with
    | zero =>
      cases h
      exact ⟨by simp, rfl⟩
    | succ k =>
      obtain ⟨hlt, hword⟩ := ih h
      refine ⟨by simp only [List.length_cons]; omega, ?_⟩
      rw [Nat.mul_succ]
      exact hword
  | case2 bytes hshort => cases h

/-- A property of every word and the address a sweep meets it at. -/
inductive SweptFrom (P : U64 → Word → Prop) : U64 → List Word → Prop where
  | nil (address : U64) : SweptFrom P address []
  | cons {address : U64} {w : Word} {words : List Word} (head : P address w)
      (tail : SweptFrom P (address + 4) words) : SweptFrom P address (w :: words)

theorem offset_succ (address : U64) (k : Nat) :
    address + BitVec.ofNat 64 (4 * (k + 1)) = address + 4 + BitVec.ofNat 64 (4 * k) := by
  rw [Nat.mul_succ, BitVec.ofNat_add, BitVec.add_assoc, BitVec.add_comm (BitVec.ofNat 64 (4 * k))]
  rfl

theorem sweptFrom_of_getElem? {P : U64 → Word → Prop} {address : U64} {words : List Word}
    (h : ∀ k w, words[k]? = some w → P (address + BitVec.ofNat 64 (4 * k)) w) :
    SweptFrom P address words := by
  induction words generalizing address with
  | nil => exact .nil address
  | cons w words ih =>
    refine .cons (by simpa using h 0 w rfl) (ih fun k w' hw' => ?_)
    rw [← offset_succ]
    exact h (k + 1) w' hw'

theorem SweptFrom.and {P Q : U64 → Word → Prop} {address : U64} {words : List Word}
    (hP : SweptFrom P address words) (hQ : SweptFrom Q address words) :
    SweptFrom (fun a w => P a w ∧ Q a w) address words := by
  induction hP with
  | nil address => exact .nil address
  | cons head tail ih =>
    cases hQ with
    | cons head' tail' => exact .cons ⟨head, head'⟩ (ih tail')

theorem SweptFrom.imp {P Q : U64 → Word → Prop} {address : U64} {words : List Word}
    (hP : SweptFrom P address words) (himp : ∀ a w, P a w → Q a w) :
    SweptFrom Q address words := by
  induction hP with
  | nil address => exact .nil address
  | cons head tail ih => exact .cons (himp _ _ head) ih

/-! ## §2. Instructions of a sweep. -/

theorem decodeInstruction_address {address : U64} {w : Word} {d : DecodedInstruction}
    (h : decodeInstruction address w = .ok d) : d.address = address := by
  unfold decodeInstruction at h
  split at h
  · cases h
  · obtain ⟨operands, -, hd⟩ := bind_eq_ok.mp h
    cases hd
    rfl

theorem decodeTolerant_address (address : U64) (w : Word) :
    (decodeTolerant address w).address = address := by
  cases h : decodeInstruction address w with
  | ok d =>
    rw [decodeTolerant_of_ok h]
    exact decodeInstruction_address h
  | error e =>
    rw [decodeTolerant_of_error h]
    rfl

/-- Only a decoded word gives anything but the placeholder. -/
theorem decode_of_decodeTolerant {address : U64} {w : Word}
    (h : (decodeTolerant address w).mnemonic ≠ .nop) :
    decodeInstruction address w = .ok (decodeTolerant address w) := by
  rcases hd : decodeInstruction address w with e | d
  · rw [decodeTolerant_of_error hd] at h
    exact absurd rfl h
  · exact congrArg Except.ok (decodeTolerant_of_ok hd).symm

theorem sweepWords_getElem? {address : U64} {words : List Word} {k : Nat} {d : DecodedInstruction}
    (h : (sweepWords address words)[k]? = some d) :
    d.address = address + BitVec.ofNat 64 (4 * k) := by
  induction words generalizing address k with
  | nil => cases h
  | cons w words ih =>
    cases k with
    | zero =>
      have hd : decodeTolerant address w = d := Option.some.inj h
      rw [← hd, decodeTolerant_address]
      simp
    | succ k =>
      rw [ih h, offset_succ]

/-! ### The strict sweep and the tolerant one. -/

/-- The strict sweep stops where the tolerant one records its first word. -/
theorem disassembleWords_cases (address : U64) (words : List Word) :
    (undecodableWords address words = [] ∧
      disassembleWords address words = .ok (sweepWords address words)) ∨
    ∃ a w e rest, undecodableWords address words = (a, w) :: rest ∧
      decodeInstruction a w = .error e ∧
      disassembleWords address words = .error (.decodeFailed a w e) := by
  induction words generalizing address with
  | nil => exact .inl ⟨rfl, rfl⟩
  | cons word words ih =>
    unfold undecodableWords disassembleWords
    cases hdecode : decodeInstruction address word with
    | error e => exact .inr ⟨address, word, e, _, rfl, hdecode, rfl⟩
    | ok i =>
      obtain ⟨hnone, hok⟩ | ⟨a, w, e, rest, hfirst, hfails, herror⟩ := ih (address + 4)
      · refine .inl ⟨hnone, ?_⟩
        rw [hok, sweepWords, decodeTolerant_of_ok hdecode]
        rfl
      · refine .inr ⟨a, w, e, rest, hfirst, hfails, ?_⟩
        rw [herror]
        rfl

/-- **The strict sweep succeeds with the stream of the tolerant one when that
records nothing**, and fails at the first word that it records otherwise. -/
theorem disassembleBytes_iff_tolerant (base : U64) (bytes : List Byte) :
    (∀ stream, disassembleBytes base bytes = .ok stream ↔
      disassembleBytesTolerant base bytes = .ok (stream, [])) ∧
    ∀ e, disassembleBytes base bytes = .error e ↔
      disassembleBytesTolerant base bytes = .error e ∨
        ∃ a w source stream rest, disassembleBytesTolerant base bytes = .ok (stream, (a, w) :: rest) ∧
          decodeInstruction a w = .error source ∧ e = .decodeFailed a w source := by
  unfold disassembleBytes disassembleBytesTolerant
  by_cases hlength : bytes.length % 4 ≠ 0
  · simp only [if_pos hlength]
    simp
  · simp only [if_neg hlength]
    obtain ⟨hnone, hok⟩ | ⟨a, w, e, rest, hfirst, hfails, herror⟩ :=
      disassembleWords_cases base (chunkWords bytes)
    · rw [hnone, hok]
      simp
    · rw [hfirst, herror]
      refine ⟨fun stream => iff_of_false (fun h => by cases h) (fun h => by cases h),
        fun e' => ⟨fun h => ?_, ?_⟩⟩
      · cases h
        exact .inr ⟨a, w, e, _, rest, rfl, hfails, rfl⟩
      · rintro (h | ⟨a', w', source, stream, rest', h, hfails', rfl⟩)
        · cases h
        · cases h
          cases hfails.symm.trans hfails'
          rfl

/-! ## §3. Reach of a branch slot. -/

/-- Half the byte range of a PC-relative branch slot. -/
def Aarch64Opnd.reach : Aarch64Opnd → Option Int
  | .addrPcrel14 => some (32 * 1024)
  | .addrPcrel19 | .addrPcrel21 => some (1024 * 1024)
  | .addrPcrel26 => some (128 * 1024 * 1024)
  | _ => none

theorem signedBitsOf_bounds (w : Word) (lo len : Nat) :
    -(2 ^ (len - 1)) ≤ signedBitsOf w lo len ∧ signedBitsOf w lo len < 2 ^ (len - 1) :=
  ⟨BitVec.le_toInt _, BitVec.toInt_lt⟩

theorem imm21_bounds (w : Word) : -(1024 * 1024) ≤ imm21 w ∧ imm21 w < 1024 * 1024 :=
  ⟨BitVec.le_toInt _, BitVec.toInt_lt⟩

/-- An offset of fewer than 64 bits is the displacement of its target. -/
theorem displacement_branchTarget {address : U64} {offset : Int} (hlow : -(2 ^ 63) ≤ offset)
    (hhigh : offset < 2 ^ 63) : displacement (branchTarget address offset) address = offset := by
  rw [displacement, branchTarget, BitVec.add_comm, BitVec.add_sub_cancel]
  exact BitVec.toInt_ofInt_eq_self (by omega) hlow hhigh

theorem decodeOperand_reach {kind : Aarch64Opnd} {w : Word} {address target : U64}
    {row : Aarch64Opcode} {index : Nat}
    (h : decodeOperand kind w address row index = .ok (.branchTarget target)) :
    ∃ reach, kind.reach = some reach ∧ -reach ≤ displacement target address ∧
      displacement target address < reach := by
  cases kind
  case addrPcrel14 =>
    cases h
    obtain ⟨hlow, hhigh⟩ := signedBitsOf_bounds w 5 14
    simp only [Nat.reduceSub, Int.reducePow, Int.reduceNeg] at hlow hhigh
    refine ⟨_, rfl, ?_⟩
    rw [displacement_branchTarget (by unfold imm14; omega) (by unfold imm14; omega), imm14]
    omega
  case addrPcrel19 =>
    cases h
    obtain ⟨hlow, hhigh⟩ := signedBitsOf_bounds w 5 19
    simp only [Nat.reduceSub, Int.reducePow, Int.reduceNeg] at hlow hhigh
    refine ⟨_, rfl, ?_⟩
    rw [displacement_branchTarget (by unfold imm19; omega) (by unfold imm19; omega), imm19]
    omega
  case addrPcrel26 =>
    cases h
    obtain ⟨hlow, hhigh⟩ := signedBitsOf_bounds w 0 26
    simp only [Nat.reduceSub, Int.reducePow, Int.reduceNeg] at hlow hhigh
    refine ⟨_, rfl, ?_⟩
    rw [displacement_branchTarget (by unfold imm26; omega) (by unfold imm26; omega), imm26]
    omega
  case addrPcrel21 =>
    cases h
    obtain ⟨hlow, hhigh⟩ := imm21_bounds w
    refine ⟨_, rfl, ?_⟩
    rw [displacement_branchTarget (by omega) (by omega)]
    exact ⟨hlow, hhigh⟩
  case limm =>
    simp only [decodeOperand] at h
    split at h <;> cases h
  case simdImm =>
    simp only [decodeOperand, simdImm] at h
    split at h <;> cases h
  all_goals cases h

/-- The range layout checks for a row covers every branch slot of the row. -/
def Aarch64Opcode.slotsInRange (row : Aarch64Opcode) : Bool :=
  row.operands.all fun kind =>
    match kind.reach with
    | none => true
    | some reach =>
      ((Aarch64Mnemonic.parse row.name).pcrelRangeBytes).all fun range => decide (reach ≤ range)

set_option maxRecDepth 20000 in
theorem table_slotsInRange : aarch64OpcodeTable.all Aarch64Opcode.slotsInRange = true := by
  decide

theorem mem_of_decodeOperands {w : Word} {address : U64} {row : Aarch64Opcode} {index : Nat}
    {kinds : List Aarch64Opnd} {operands : List DecodedOperand} {operand : DecodedOperand}
    (h : decodeOperands w address row index kinds = .ok operands) (hmem : operand ∈ operands) :
    ∃ kind ∈ kinds, ∃ index', decodeOperand kind w address row index' = .ok operand := by
  induction kinds generalizing index operands with
  | nil =>
    cases h
    cases hmem
  | cons kind kinds ih =>
    obtain ⟨first, hfirst, h⟩ := bind_eq_ok.mp h
    obtain ⟨rest, hrest, h⟩ := bind_eq_ok.mp h
    cases h
    rcases List.mem_cons.mp hmem with rfl | hmem
    · exact ⟨kind, List.mem_cons_self, index, hfirst⟩
    · obtain ⟨kind', hkind', hdecode⟩ := ih hrest hmem
      exact ⟨kind', List.mem_cons_of_mem _ hkind', hdecode⟩

/-- **A decoded branch is in range**: the target a word decodes to lies within
the range layout allows its mnemonic. -/
theorem displacement_of_decode {address target : U64} {w : Word} {d : DecodedInstruction}
    {range : Int} (h : decodeInstruction address w = .ok d)
    (htarget : .branchTarget target ∈ d.operands)
    (hrange : d.mnemonic.pcrelRangeBytes = some range) :
    -range ≤ displacement target address ∧ displacement target address < range := by
  unfold decodeInstruction at h
  split at h
  · cases h
  · next row hmatch =>
    obtain ⟨operands, hoperands, hd⟩ := bind_eq_ok.mp h
    cases hd
    obtain ⟨kind, hkind, index, hslot⟩ := mem_of_decodeOperands hoperands htarget
    obtain ⟨reach, hreach, hlow, hhigh⟩ := decodeOperand_reach hslot
    have hrow := List.all_eq_true.mp table_slotsInRange row (Aarch64Opcode.matchOpcode_spec hmatch).1
    have hle := List.all_eq_true.mp hrow kind hkind
    simp only [hreach] at hle
    simp only at hrange
    rw [hrange, Option.all_some, decide_eq_true_eq] at hle
    omega

end Armv8Encode

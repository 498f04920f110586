/-
  Armv8Encode.Isa.Aarch64.BranchRange — branches that layout accepts and emit refuses.

  Layout tests the wrapped displacement from an op's own address against half
  the range of the branch.  The encoder tests the difference of the addresses
  as numbers, and the far `b` of a widened branch stands four bytes behind the
  op.  So a widened branch to exactly 128 MiB before it passes the one test and
  fails the other, and so does a branch across the end of the address space.

  Main result:
    * `layOut_rangeSafe_iff` — when no branch of a laid-out plan is refused.
-/
import Armv8Encode.Isa.Aarch64.BranchMeaning
import Armv8Encode.Isa.Aarch64.RetargetSpec

namespace Armv8Encode

open Lib Aarch64

/-! ## §1. Branches that the encoder refuses. -/

/-- Width of the displacement field of a branch. -/
def fieldBits : Aarch64Mnemonic → Nat
  | .b | .bl => 26
  | .tbz | .tbnz => 14
  | _ => 19

/-- A whole number of words, and more of them than the field holds. -/
def OutOfField (bits : Nat) (address target : U64) : Prop :=
  ((target.toNat : Int) - address.toNat) % 4 = 0 ∧
    ¬ (-(2 ^ (bits - 1)) ≤ ((target.toNat : Int) - address.toNat) / 4 ∧
        ((target.toNat : Int) - address.toNat) / 4 < 2 ^ (bits - 1))

instance (bits : Nat) (address target : U64) : Decidable (OutOfField bits address target) :=
  inferInstanceAs (Decidable (_ ∧ _))

/-- A branch with this target. -/
structure IsBranchOp (i : AarchInstruction) (t : Target) : Prop where
  mnemonic : i.mnemonic ∈ branchMnemonics
  target : pcRelativeBranchTarget i = some t
  /-- No page operand stands before it. -/
  only : i.pcRelativeTarget = some t

/-- The branch is neither copied nor made a relocation, and its operands resolve. -/
structure ReachesEncoder (ctx : EmitContext) (i : AarchInstruction) (l : InstructionLayout) :
    Prop where
  folded : ctx.relocationOf (E := EncodeError) i = .ok none
  edited : verbatimBytes aarch64 i l.address ctx.blockAddresses ctx.container = none
  lowered : l.strategy = .normal → ∃ operands,
    lowerOperands (E := EncodeError) aarch64 ctx.blockAddresses ctx.container i.operands
      = .ok operands

/-- A word that the branch is encoded as is out of the range of its field. -/
def RangeRefused (i : AarchInstruction) (l : InstructionLayout) (target : U64) : Prop :=
  match l.strategy with
  | .normal => OutOfField (fieldBits i.mnemonic) l.address target
  | .invertedConditional =>
    OutOfField (fieldBits i.mnemonic) l.address (l.address + 8) ∨
      OutOfField 26 (l.address + 4) target

/-- Emission comes to a branch and fails on it, for the range of a field. -/
def FailsForRange (plan : AarchPlan) (layout : Layout) (container : Option Container)
    (b i : Nat) : Prop :=
  ∃ instr t l target e, OpAt plan layout b i (.instruction instr) l ∧ IsBranchOp instr t ∧
    Reached aarch64 plan layout container b i ∧
    ReachesEncoder (layout.context container) instr l ∧
    resolveTarget t layout.blockAddresses container = .ok target ∧ RangeRefused instr l target ∧
    emitInstruction aarch64 instr l (layout.context container) .empty = .error (.encode e)

/-- What the test of layout leaves open: nothing wraps, and a widened branch
does not go exactly 128 MiB back. -/
def RangeKept (l : InstructionLayout) (target : U64) : Prop :=
  match l.strategy with
  | .normal => displacement target l.address % 4 = 0 → NoWrap l.address target
  | .invertedConditional =>
    NoWrap l.address (l.address + 8) ∧ (displacement target l.address % 4 = 0 →
      NoWrap (l.address + 4) target ∧ displacement target l.address ≠ -(2 ^ 27))

/-! ## §2. The field of the encoder. -/

/-- The slot of the target, by the width of its field. -/
theorem fieldBits_family : ∀ m ∈ branchMnemonics, ∀ row ∈ branchRow m,
    (row.operands.getLast? = some .addrPcrel26 → fieldBits m = 26) ∧
      (row.operands.getLast? = some .addrPcrel19 → fieldBits m = 19) ∧
      (row.operands.getLast? = some .addrPcrel14 → fieldBits m = 14) := by
  decide

theorem not_outOfField_of_encodePcrel {kind : Aarch64Opnd} {operand : DecodedOperand}
    {target address : U64} {len lo : Nat} {bits : Word} (hoperand : operand = .branchTarget target)
    (h : encodePcrel kind operand address len lo = .ok bits) : ¬ OutOfField len address target := by
  have ⟨target', imm, htarget, _, hlow, hhigh, hoffset⟩ := encodePcrel_ok h
  cases hoperand.symm.trans htarget
  intro ⟨_, hout⟩
  rw [hoffset, Int.mul_ediv_cancel _ (by decide)] at hout
  exact hout ⟨hlow, hhigh⟩

/-- A branch that encodes ends in a target within its field. -/
theorem inField_of_encode {m : Aarch64Mnemonic} {row : Aarch64Opcode} {address : U64}
    {operands : List DecodedOperand} {w : Word} (h : branchRow m = some row)
    (henc : encodeInstruction ⟨address, m, operands⟩ = .ok w) :
    ∃ pre target, TargetLast pre target operands ∧ ¬ OutOfField (fieldBits m) address target := by
  have ⟨pre, target, hlast⟩ := targetLast_of_encode_branch h henc
  refine ⟨pre, target, hlast, ?_⟩
  have hend : operands.getLast? = some (.branchTarget target) := by
    rw [hlast.1]
    simp
  have ⟨h26, h19, h14⟩ := fieldBits_family m (mem_branchMnemonics h) row h
  have ⟨hlen, hops, _⟩ := encodeInstruction_branch h henc
  cases branchShape h with
  | imm26 hkinds htarget htest =>
    rw [hkinds] at hlen hops h26
    have ⟨first, rest, bits, hcons, hlen, hpcrel, hops⟩ := encodeOperands_cons hlen hops
    have ⟨hnil, _⟩ := encodeOperands_nil hlen hops
    rw [hcons, hnil] at hend
    rw [h26 rfl]
    exact not_outOfField_of_encodePcrel (Option.some.inj hend) hpcrel
  | imm19 hkinds htarget htest =>
    rw [hkinds] at hlen hops h19
    have ⟨first, rest, bits, hcons, hlen, hpcrel, hops⟩ := encodeOperands_cons hlen hops
    have ⟨hnil, _⟩ := encodeOperands_nil hlen hops
    rw [hcons, hnil] at hend
    rw [h19 rfl]
    exact not_outOfField_of_encodePcrel (Option.some.inj hend) hpcrel
  | compare hkinds hclass hname htarget hregister hwidth htest =>
    rw [hkinds] at hlen hops h19
    have ⟨first, rest, _, hcons, hlen, _, hops⟩ := encodeOperands_cons hlen hops
    have ⟨second, rest', bits, hcons', hlen, hpcrel, hops⟩ := encodeOperands_cons hlen hops
    have ⟨hnil, _⟩ := encodeOperands_nil hlen hops
    rw [hcons, hcons', hnil] at hend
    rw [h19 rfl]
    exact not_outOfField_of_encodePcrel (Option.some.inj hend) hpcrel
  | test hkinds hclass hname htarget hregister hhigh hlow htest =>
    rw [hkinds] at hlen hops h14
    have ⟨first, rest, _, hcons, hlen, _, hops⟩ := encodeOperands_cons hlen hops
    have ⟨second, rest', _, hcons', hlen, _, hops⟩ := encodeOperands_cons hlen hops
    have ⟨third, rest'', bits, hcons'', hlen, hpcrel, hops⟩ := encodeOperands_cons hlen hops
    have ⟨hnil, _⟩ := encodeOperands_nil hlen hops
    rw [hcons, hcons', hcons'', hnil] at hend
    rw [h14 rfl]
    exact not_outOfField_of_encodePcrel (Option.some.inj hend) hpcrel

/-! ## §3. What the test of layout says. -/

/-- A target is out of a field if it is a whole number of words away, and wraps
or has a displacement that the field does not hold. -/
theorem outOfField_iff {bits : Nat} {address target : U64} (hbits : bits ≤ 32) :
    OutOfField bits address target ↔
      displacement target address % 4 = 0 ∧ (NoWrap address target →
        ¬ (-(2 ^ (bits - 1)) * 4 ≤ displacement target address ∧
            displacement target address < 2 ^ (bits - 1) * 4)) := by
  have hle : (2 : Int) ^ (bits - 1) ≤ 2 ^ 31 := pow_le_pow_right₀ (by omega) (by omega)
  have ht := target.isLt
  have ha := address.isLt
  -- the two distances differ by a multiple of 2 ^ 64
  have hmod : displacement target address = (target.toNat : Int) - address.toNat ∨
      displacement target address = (target.toNat : Int) - address.toNat + 2 ^ 64 ∨
      displacement target address = (target.toNat : Int) - address.toNat - 2 ^ 64 := by
    rw [displacement, BitVec.toInt_eq_toNat_cond, BitVec.toNat_sub]
    split <;> omega
  have hlow : -(2 ^ 63) ≤ displacement target address := BitVec.le_toInt _
  have hhigh : displacement target address < 2 ^ 63 := BitVec.toInt_lt
  unfold OutOfField NoWrap
  omega

/-- Half the range of a branch is what its field holds. -/
theorem pcrelRangeBytes_family : ∀ m ∈ branchMnemonics,
    m.pcrelRangeBytes = some (2 ^ (fieldBits m - 1) * 4) ∧ fieldBits m ≤ 32 ∧ 14 ≤ fieldBits m := by
  decide

theorem fieldBits_inverted {m inverted : Aarch64Mnemonic}
    (h : m.invertConditionalBranch = some inverted) : fieldBits inverted = fieldBits m := by
  cases m <;> cases h <;> rfl

/-- Four bytes further on the displacement is four less. -/
theorem displacement_add_four {address target : U64}
    (hlow : -(2 ^ 27) ≤ displacement target address) (hhigh : displacement target address < 2 ^ 27) :
    displacement target (address + 4) = displacement target address - 4 := by
  have hsub : target - (address + 4) = target - address - 4 := by
    rw [BitVec.sub_sub]
  have hfour : BitVec.toInt (4 : U64) = 4 := rfl
  unfold displacement at hlow hhigh ⊢
  rw [hsub, BitVec.toInt_sub, hfour, Int.bmod_eq_of_le (by omega) (by omega)]

theorem displacement_skip (address : U64) : displacement (address + 8) address = 8 := by
  have hsub : address + 8 - address = 8 := by
    rw [BitVec.add_comm, BitVec.add_sub_cancel]
  unfold displacement
  rw [hsub]
  rfl

/-- Of a branch that layout left as it is, a word is refused where its test
leaves a gap. -/
theorem rangeRefused_iff {i : AarchInstruction} {l : InstructionLayout} {target : U64} {range : Int}
    (hbranch : i.mnemonic ∈ branchMnemonics)
    (hrange : effectiveRange aarch64 i.mnemonic l.strategy = some range)
    (hin : -range ≤ displacement target l.address ∧ displacement target l.address < range) :
    RangeRefused i l target ↔ ¬ RangeKept l target := by
  have ⟨hbytes, hle, hge⟩ := pcrelRangeBytes_family i.mnemonic hbranch
  unfold RangeRefused RangeKept
  cases hstrategy : l.strategy with
  | normal =>
    dsimp only
    have hhalf : range = 2 ^ (fieldBits i.mnemonic - 1) * 4 := by
      have heq : effectiveRange aarch64 i.mnemonic l.strategy = i.mnemonic.pcrelRangeBytes := by
        rw [hstrategy]
        rfl
      rw [heq, hbytes] at hrange
      exact (Option.some.inj hrange).symm
    rw [outOfField_iff hle]
    rw [hhalf] at hin
    have hholds : -(2 ^ (fieldBits i.mnemonic - 1)) * 4 ≤ displacement target l.address ∧
        displacement target l.address < 2 ^ (fieldBits i.mnemonic - 1) * 4 := by omega
    constructor
    · intro ⟨hwords, hout⟩ hkept
      exact hout (hkept hwords) hholds
    · intro hgap
      by_cases hwords : displacement target l.address % 4 = 0
      · exact ⟨hwords, fun hno => absurd (fun _ => hno) hgap⟩
      · exact absurd (fun h => absurd h hwords) hgap
  | invertedConditional =>
    dsimp only
    have hhalf : range = 2 ^ 27 := by
      have heq : effectiveRange aarch64 i.mnemonic l.strategy = some (128 * 1024 * 1024) := by
        rw [hstrategy]
        rfl
      rw [heq] at hrange
      exact (Option.some.inj hrange).symm.trans (by norm_num)
    rw [hhalf] at hin
    have hskip : OutOfField (fieldBits i.mnemonic) l.address (l.address + 8)
        ↔ ¬ NoWrap l.address (l.address + 8) := by
      rw [outOfField_iff hle, displacement_skip]
      have hpow : (2 : Int) ^ 13 ≤ 2 ^ (fieldBits i.mnemonic - 1) :=
        pow_le_pow_right₀ (by omega) (by omega)
      constructor
      · intro ⟨_, hout⟩ hno
        exact hout hno (by omega)
      · intro hwraps
        exact ⟨by decide, fun hno => absurd hno hwraps⟩
    have hfar : OutOfField 26 (l.address + 4) target ↔
        ¬ (displacement target l.address % 4 = 0 →
          NoWrap (l.address + 4) target ∧ displacement target l.address ≠ -(2 ^ 27)) := by
      rw [outOfField_iff (by decide), displacement_add_four hin.1 hin.2]
      have hfield : (2 : Int) ^ (26 - 1) = 2 ^ 25 := rfl
      rw [hfield]
      by_cases hno : NoWrap (l.address + 4) target
      · simp only [hno, forall_true_left, true_and]
        omega
      · simp only [hno, false_imp_iff, false_and, and_true, imp_false, not_not]
        omega
    rw [hskip, hfar, not_and_or]

/-! ## §4. What emit does with a refused word. -/

theorem branch_mem_operands {i : AarchInstruction} {t : Target}
    (h : pcRelativeBranchTarget i = some t) : .branch t ∈ i.operands := by
  have ⟨o, ho, heq⟩ := List.exists_of_findSome?_eq_some h
  cases o with
  | decoded d => cases heq
  | branch t' =>
    cases heq
    exact ho
  | page t' => cases heq

section Refused

variable {ctx : EmitContext} {i : AarchInstruction} {l : InstructionLayout} {t : Target}
  {target : U64}

theorem encode_of_refused (hbranch : IsBranchOp i t)
    (hresolve : resolveTarget t ctx.blockAddresses ctx.container = .ok target)
    {operands : List DecodedOperand}
    (hoperands : lowerOperands (E := EncodeError) aarch64 ctx.blockAddresses ctx.container i.operands
      = .ok operands)
    (hrefused : OutOfField (fieldBits i.mnemonic) l.address target) (bytes : List Byte) :
    aarch64.encode i.mnemonic operands l.address ≠ .ok bytes := by
  intro henc
  have ⟨w, hw, _⟩ := aarchEncode_ok henc
  have ⟨row, hrow⟩ := branchRow_of_mem hbranch.mnemonic
  have ⟨pre, target', hlast, hfield⟩ := inField_of_encode hrow hw
  -- the one target among the operands is the resolved one
  have ⟨d, hd, hlower⟩ := exists_mem_of_forall₂ (lowerOperands_forall₂ hoperands)
    (branch_mem_operands hbranch.target)
  have hdTarget : d = .branchTarget target := by
    simp only [lowerOperand, hresolve] at hlower
    exact (Except.ok.inj hlower).symm
  rw [hlast.1, List.mem_append, List.mem_singleton] at hd
  have hnot : d ∉ pre := by
    intro hin
    have hplain := hlast.2 d hin
    rw [hdTarget] at hplain
    cases hplain
  have hsame := hd.resolve_left hnot
  rw [hdTarget] at hsame
  cases hsame
  exact hfield hrefused

theorem widened_of_refused
    (hrefused : OutOfField (fieldBits i.mnemonic) l.address (l.address + 8) ∨
      OutOfField 26 (l.address + 4) target) (bytes : List Byte) :
    aarch64.encodeWidenedConditional i.mnemonic (plainOperands i) l.address target ≠ .ok bytes := by
  intro henc
  replace henc : aarchEncodeWidenedConditional i.mnemonic (plainOperands i) l.address target
      = .ok bytes := henc
  unfold aarchEncodeWidenedConditional at henc
  cases hinverted : i.mnemonic.invertConditionalBranch with
  | none =>
    rw [hinverted] at henc
    cases henc
  | some inverted =>
    rw [hinverted] at henc
    have ⟨w₁, hw₁, henc⟩ := bind_eq_ok.mp henc
    have ⟨w₂, hw₂, _⟩ := bind_eq_ok.mp henc
    have ⟨_, ⟨row, hrow⟩, _⟩ := invert_branch hinverted
    have ⟨pre, skip, hlast, hfield⟩ := inField_of_encode hrow hw₁
    have hskip : skip = l.address + 8 := by
      have hdirect := directBranchTarget_targetLast hlast
      rw [directBranchTarget_invertedOperands] at hdirect
      exact (Option.some.inj hdirect).symm
    have ⟨preFar, far, hlastFar, hfieldFar⟩ := inField_of_encode (m := .b) rfl hw₂
    have hfar : far = target := by
      have hdirect := directBranchTarget_targetLast hlastFar
      exact (Option.some.inj hdirect).symm
    rw [hskip, fieldBits_inverted hinverted] at hfield
    rw [hfar] at hfieldFar
    exact hrefused.elim hfield hfieldFar

/-- A branch with a refused word fails with an error of the encoder. -/
theorem emitInstruction_of_refused (hbranch : IsBranchOp i t) (hreach : ReachesEncoder ctx i l)
    (hresolve : resolveTarget t ctx.blockAddresses ctx.container = .ok target)
    (hrefused : RangeRefused i l target) :
    ∃ e, emitInstruction aarch64 i l ctx .empty = .error (.encode e) := by
  have hemit : ∃ e, emitEncoded aarch64 i l ctx = .error (.encode e) := by
    unfold RangeRefused at hrefused
    unfold emitEncoded
    cases hstrategy : l.strategy with
    | normal =>
      rw [hstrategy] at hrefused
      have ⟨operands, hoperands⟩ := hreach.lowered hstrategy
      rw [hoperands]
      cases henc : aarch64.encode i.mnemonic operands l.address with
      | error e => exact ⟨e, by simp [bind, Except.bind, henc]⟩
      | ok bytes => exact absurd henc (encode_of_refused hbranch hresolve hoperands hrefused bytes)
    | invertedConditional =>
      rw [hstrategy] at hrefused
      rw [hbranch.only]
      simp only [hresolve]
      cases henc : aarch64.encodeWidenedConditional i.mnemonic (lowerOperandsWithPlaceholder i)
          l.address target with
      | error e => exact ⟨e, rfl⟩
      | ok bytes => exact absurd henc (widened_of_refused hrefused bytes)
  have ⟨e, he⟩ := hemit
  refine ⟨e, ?_⟩
  unfold emitInstruction
  simp [hreach.folded, hreach.edited, he, bind, Except.bind]

end Refused

/-! ## §5. Plans. -/

/-- **Emit refuses no branch of a laid-out plan for its range** if and only if
at every branch that it comes to encode, nothing wraps around the address space
and no widened branch goes exactly 128 MiB back. -/
theorem layOut_rangeSafe_iff (plan : AarchPlan) (base : U64) (container : Option Container)
    (layout : Layout) (hlayout : layOut aarch64 plan base container = .ok layout) :
    (∀ b i, ¬ FailsForRange plan layout container b i) ↔
      ∀ b i instr t l target, OpAt plan layout b i (.instruction instr) l → IsBranchOp instr t →
        Reached aarch64 plan layout container b i →
        ReachesEncoder (layout.context container) instr l →
        resolveTarget t layout.blockAddresses container = .ok target → RangeKept l target := by
  have hrefused : ∀ b i instr t l target, OpAt plan layout b i (.instruction instr) l →
      IsBranchOp instr t → resolveTarget t layout.blockAddresses container = .ok target →
      (RangeRefused instr l target ↔ ¬ RangeKept l target) := by
    intro b i instr t l target hat hbranch hresolve
    have ⟨block, ls, hblock, hop, hls, hl⟩ := hat
    have ⟨l', hwiden⟩ := widenBlocks_at (layOut_laidOut hlayout).settled hblock hls hop hl
    have ⟨range, hrange⟩ : ∃ range,
        effectiveRange aarch64 instr.mnemonic l.strategy = some range := by
      cases l.strategy with
      | normal => exact ⟨_, (pcrelRangeBytes_family _ hbranch.mnemonic).1⟩
      | invertedConditional => exact ⟨_, rfl⟩
    exact rangeRefused_iff hbranch.mnemonic hrange
      (inRange_of_widenOp hbranch.target hresolve hrange hwiden)
  constructor
  · intro hsafe b i instr t l target hat hbranch hcome hreach hresolve
    by_contra hgap
    have hbad := (hrefused b i instr t l target hat hbranch hresolve).mpr hgap
    have ⟨e, he⟩ := emitInstruction_of_refused hbranch hreach hresolve hbad
    exact hsafe b i ⟨instr, t, l, target, e, hat, hbranch, hcome, hreach, hresolve, hbad, he⟩
  · intro hkept b i hfails
    have ⟨instr, t, l, target, _, hat, hbranch, hcome, hreach, hresolve, hbad, _⟩ := hfails
    exact (hrefused b i instr t l target hat hbranch hresolve).mp hbad
      (hkept b i instr t l target hat hbranch hcome hreach hresolve)

/-- A `b.eq` exactly 128 MiB back from its own address. -/
def farBackBranch : AarchInstruction := .new .beq [.branch (.absolute 0x8000000)] none

def farBackPlan : AarchPlan := ⟨[⟨⟨0⟩, [.instruction farBackBranch]⟩]⟩

def farBackLayout : Layout where
  baseAddress := 0x10000000
  totalSize := 8
  blockAddresses := [0x10000000]
  instructionLayouts := [[⟨0x10000000, 8, .invertedConditional⟩]]

theorem layOut_farBack : layOut aarch64 farBackPlan 0x10000000 none = .ok farBackLayout := by
  decide

/-- The two sides for a branch that is 128 MiB away. -/
theorem farBack_rangeSafe_iff :
    (∀ b i, ¬ FailsForRange farBackPlan farBackLayout none b i) ↔
      ∀ b i instr t l target, OpAt farBackPlan farBackLayout b i (.instruction instr) l →
        IsBranchOp instr t → Reached aarch64 farBackPlan farBackLayout none b i →
        ReachesEncoder (farBackLayout.context none) instr l →
        resolveTarget t farBackLayout.blockAddresses none = .ok target → RangeKept l target :=
  layOut_rangeSafe_iff farBackPlan 0x10000000 none farBackLayout layOut_farBack

/-- Layout accepts the branch, and emit refuses its far word. -/
theorem farBack_refused :
    layOut aarch64 farBackPlan 0x10000000 none = .ok farBackLayout ∧
      FailsForRange farBackPlan farBackLayout none 0 0 ∧
      ∃ e, emit aarch64 farBackPlan farBackLayout none = .error (.encode e) := by
  have hat : OpAt farBackPlan farBackLayout 0 0 (.instruction farBackBranch)
      ⟨0x10000000, 8, .invertedConditional⟩ := ⟨_, _, rfl, rfl, rfl, rfl⟩
  have hbranch : IsBranchOp farBackBranch (.absolute 0x8000000) := ⟨by decide, rfl, rfl⟩
  have hcome : Reached aarch64 farBackPlan farBackLayout none 0 0 := ⟨.empty, rfl⟩
  have hreach : ReachesEncoder (farBackLayout.context none) farBackBranch
      ⟨0x10000000, 8, .invertedConditional⟩ := ⟨rfl, rfl, fun h => nomatch h⟩
  have hrefused : RangeRefused farBackBranch ⟨0x10000000, 8, .invertedConditional⟩ 0x8000000 := by
    unfold RangeRefused
    decide
  have ⟨e, he⟩ := emitInstruction_of_refused hbranch hreach rfl hrefused
  refine ⟨layOut_farBack, ⟨_, _, _, _, e, hat, hbranch, hcome, hreach, rfl, hrefused, he⟩, e, ?_⟩
  have hshape := (layOut_laidOut layOut_farBack).reserved.shape
  exact (emit_eq_error_iff aarch64_macroFrame hshape).mpr ⟨0, 0, _, _, hat, hcome, he⟩

end Armv8Encode

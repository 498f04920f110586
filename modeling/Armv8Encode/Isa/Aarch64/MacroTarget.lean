/-
  Armv8Encode.Isa.Aarch64.MacroTarget — where an emitted address macro points.

  A macro emitted without a relocation becomes an `adrp` of its register and
  the companion.  An expanded `loadAddress` points to its target.  The two
  other emissions never look at the target: a verbatim copy points where the
  original instructions pointed, and an expanded `accessValue` encodes its
  original `adrp` again with page zero in the place of a symbolic page, so it
  points to the companion's offset.  A pair on register number 31 points
  nowhere, because `adrp` writes the zero register and the companion reads the
  stack pointer (`emitAarchMacro_addresses_iff`).
-/
import Armv8Encode.Rewrite.Edit
import Armv8Encode.Isa.Aarch64.AddressCodec
import Armv8Encode.Isa.Aarch64.EmitSizes
import Armv8Encode.Isa.Aarch64.FusionSpec
import Armv8Encode.Isa.Aarch64.MacroEmit
import Armv8Encode.Isa.Aarch64.VerbatimCopy

namespace Armv8Encode

open Lib Aarch64

/-! ## §1. Macros of a plan. -/

/-- A macro that fusion made, perhaps redirected since. -/
inductive FoldedMacro : AarchMacro → Prop where
  | fused {current next : AarchInstruction} {blockAtAddress : Map U64 BasicBlockId}
      {container : Option Container} {relocations : Map U64 FusionRelocationInfo} {m : AarchMacro}
      (h : tryFuse current next blockAtAddress container relocations = some m) : FoldedMacro m
  | redirected {m : AarchMacro} (target : Target) (h : FoldedMacro m) :
      FoldedMacro { m with target := target }

theorem foldedMacro_of_fuseMacros {blockAtAddress : Map U64 BasicBlockId}
    {container : Option Container} {relocations : Map U64 FusionRelocationInfo} {m : AarchMacro}
    {instructions : List AarchInstruction}
    (h : .macroOp m ∈ fuseMacros blockAtAddress container relocations instructions) :
    FoldedMacro m := by
  fun_induction fuseMacros blockAtAddress container relocations instructions with
  | case1 => cases h
  | case2 current => simp at h
  | case3 current next rest m' hfuse ih =>
    cases h with
    | head => exact .fused hfuse
    | tail _ h => exact ih h
  | case4 current next rest hfuse ih =>
    cases h with
    | tail _ h => exact ih h

/-- **Redirecting keeps the macros of a plan folded.** -/
theorem foldedMacro_redirectMacroTarget {plan plan' : AarchPlan} {address : U64} {target : Target}
    (h : plan.redirectMacroTarget address target = .ok plan')
    (hplan : ∀ b j m, plan.opAtIndex b j = some (.macroOp m) → FoldedMacro m) :
    ∀ b j m, plan'.opAtIndex b j = some (.macroOp m) → FoldedMacro m := by
  obtain ⟨b, j, m, hop, hafter⟩ := RewritePlan.redirectMacroTarget_ok h
  intro b' j' m' hop'
  rw [hafter] at hop'
  split at hop'
  · cases hop'
    exact .redirected target (hplan b j m hop)
  · exact hplan b' j' m' hop'

/-! ## §2. What a pair points to. -/

/-- What a companion adds to the page. -/
def companionOffset (kind : AarchMacroKind) (i : AarchInstruction) : Option Int :=
  match kind with
  | .loadAddress => (addOperands i).map (fun o => o.2.2)
  | .accessValue =>
    match i.operands with
    | [.decoded (.register _), .decoded (.memory m)] => accessOffset m
    | _ => none

/-- The companion works on the register of the macro. -/
def ThroughRegister (kind : AarchMacroKind) (register : Register) (i : AarchInstruction) : Prop :=
  match kind with
  | .loadAddress => ∃ rd rn imm, addOperands i = some (rd, rn, imm) ∧
      sameRegister register rd = true ∧ sameRegister register rn = true
  | .accessValue => ∃ base, ldstBase i = some base ∧ sameRegister register base = true

/-- A decoded instruction as fusion looks at it. -/
def plainInstruction (d : DecodedInstruction) : AarchInstruction :=
  ⟨d.mnemonic, d.operands.map .decoded, some d.address, some 4⟩

/-- Two instructions are an `adrp` of the macro's register and its companion on
that register; an access keeps its mnemonic, which is its direction, and its
data register with the width. -/
structure IsAddressPair (m : AarchMacro) (companion : AarchInstruction) (page : U64) (offset : Int)
    (first second : DecodedInstruction) : Prop where
  mnemonic : first.mnemonic = .adrp
  operands : first.operands = [.register m.register, .pageTarget page]
  register : m.register.index ≠ 31
  through : ThroughRegister m.kind m.register (plainInstruction second)
  offset : companionOffset m.kind (plainInstruction second) = some offset
  kept : m.kind = .accessValue → second.mnemonic = companion.mnemonic ∧
    (plainInstruction second).operands.head? = companion.operands.head?

/-- The bytes emitted for a macro at an address decode to a pair that points to
`target`. -/
def AddressesTarget (m : AarchMacro) (here target : U64) (bytes : List Byte) : Prop :=
  ∃ adrp companion page offset first second, m.originalInstructions = [adrp, companion] ∧
    bytes = toLeBytes first.word ++ toLeBytes second.word ∧
    decodeInstruction here first.word = .ok first ∧
    decodeInstruction (here + 4) second.word = .ok second ∧
    IsAddressPair m companion page offset first second ∧ page + BitVec.ofInt 64 offset = target

/-- The pair is emitted so that it points to `target`: copied from instructions
that do, expanded from an address, or expanded from an access in page zero. -/
def EmittedFor (m : AarchMacro) (here : U64) (ctx : EmitContext) (target : U64) : Prop :=
  ∃ adrp companion, m.originalInstructions = [adrp, companion] ∧
    match verbatimMacro m here ctx, m.kind with
    | some _, kind => ∃ rd pageTarget page offset, adrpOperands adrp = some (rd, pageTarget) ∧
        macroResolveTarget pageTarget ctx.blockAddresses ctx.container = some page ∧
        companionOffset kind companion = some offset ∧ page + BitVec.ofInt 64 offset = target
    | none, .loadAddress => True
    | none, .accessValue => ∃ offset, companionOffset .accessValue companion = some offset ∧
        BitVec.ofInt 64 offset = target

/-! ## §3. Macros as fusion makes them. -/

/-- The parts of a macro: an `adrp` of its register and a companion on it. -/
structure FoldedFrom (m : AarchMacro) (adrp companion : AarchInstruction) (page : Target) : Prop where
  originals : m.originalInstructions = [adrp, companion]
  mnemonic : adrp.mnemonic = .adrp
  operands : adrp.operands = [.decoded (.register m.register), .page page]
  through : ThroughRegister m.kind m.register companion

theorem adrpOperands_eq {i : AarchInstruction} {r : Register × Target}
    (h : adrpOperands i = some r) : i.operands = [.decoded (.register r.1), .page r.2] := by
  unfold adrpOperands at h
  split at h
  · next hoperands =>
    cases h
    exact hoperands
  · cases h

theorem tryFuseAdrpAdd_foldedFrom {adrp add : AarchInstruction} {blockAtAddress : Map U64 BasicBlockId}
    {container : Option Container} {relocations : Map U64 FusionRelocationInfo} {m : AarchMacro}
    (hadrp : adrp.mnemonic = .adrp)
    (h : tryFuseAdrpAdd adrp add blockAtAddress container relocations = some m) :
    ∃ page, FoldedFrom m adrp add page := by
  obtain ⟨⟨rd, page⟩, hoperands, h⟩ := Option.bind_eq_some_iff.mp h
  obtain ⟨⟨addRd, addRn, imm⟩, hadd, h⟩ := Option.bind_eq_some_iff.mp h
  have hfolded : (!sameRegister rd addRd || !sameRegister rd addRn) = false → ∀ target,
      FoldedFrom (fusedPair .loadAddress rd target adrp add) adrp add page := by
    intro hsame target
    rw [Bool.or_eq_false_iff, Bool.not_eq_false', Bool.not_eq_false'] at hsame
    exact ⟨rfl, hadrp, adrpOperands_eq hoperands, addRd, addRn, imm, hadd, hsame⟩
  refine ⟨page, ?_⟩
  simp only at h
  split at h
  · cases h
  · next hsame =>
    have hfolded := hfolded (Bool.eq_false_iff.mpr hsame)
    split at h
    · cases h
    · split at h
      · cases h
        exact hfolded _
      · split at h
        · cases h
          exact hfolded _
        · split at h
          · cases h
            exact hfolded _
          · cases h

theorem tryFuseAdrpLdst_foldedFrom {adrp companion : AarchInstruction}
    {relocations : Map U64 FusionRelocationInfo} {m : AarchMacro} (hadrp : adrp.mnemonic = .adrp)
    (h : tryFuseAdrpLdst adrp companion relocations = some m) :
    ∃ page, FoldedFrom m adrp companion page := by
  obtain ⟨base, hbase, h⟩ := Option.bind_eq_some_iff.mp h
  obtain ⟨⟨rd, page⟩, hoperands, h⟩ := Option.bind_eq_some_iff.mp h
  simp only at h
  split at h
  · cases h
  · next hsame =>
    rw [Bool.not_eq_true', Bool.not_eq_false] at hsame
    obtain ⟨target, -, h⟩ := Option.bind_eq_some_iff.mp h
    cases h
    exact ⟨page, rfl, hadrp, adrpOperands_eq hoperands, base, hbase, hsame⟩

theorem FoldedMacro.foldedFrom {m : AarchMacro} (h : FoldedMacro m) :
    ∃ adrp companion page, FoldedFrom m adrp companion page := by
  induction h with
  | @fused current next blockAtAddress container relocations m h =>
    unfold tryFuse at h
    split at h
    · next hadrp =>
      cases hadd : tryFuseAdrpAdd current next blockAtAddress container relocations with
      | some m' =>
        rw [hadd] at h
        cases h
        obtain ⟨page, hfolded⟩ := tryFuseAdrpAdd_foldedFrom hadrp hadd
        exact ⟨current, next, page, hfolded⟩
      | none =>
        rw [hadd] at h
        obtain ⟨page, hfolded⟩ := tryFuseAdrpLdst_foldedFrom hadrp h
        exact ⟨current, next, page, hfolded⟩
    · cases h
  | redirected target h ih =>
    obtain ⟨adrp, companion, page, hfolded⟩ := ih
    exact ⟨adrp, companion, page, hfolded.originals, hfolded.mnemonic, hfolded.operands, hfolded.through⟩

/-- A companion has decoded operands only. -/
theorem exists_decoded_of_through {kind : AarchMacroKind} {register : Register} {i : AarchInstruction}
    (h : ThroughRegister kind register i) :
    ∃ operands : List DecodedOperand, i.operands = operands.map .decoded := by
  cases kind with
  | loadAddress =>
    obtain ⟨rd, rn, imm, hadd, -⟩ := h
    unfold addOperands at hadd
    split at hadd
    · next hoperands => exact ⟨[_, _, _], hoperands⟩
    · next hoperands => exact ⟨[_, _], hoperands⟩
    · cases hadd
  | accessValue =>
    obtain ⟨base, hbase, -⟩ := h
    unfold ldstBase at hbase
    split at hbase
    · next hoperands => exact ⟨[_, _], hoperands⟩
    · next hoperands => exact ⟨[_, _], hoperands⟩
    · cases hbase

/-- A companion's reading depends on its mnemonic and its operands only. -/
theorem companionOffset_congr {kind : AarchMacroKind} {i i' : AarchInstruction}
    (hmnemonic : i.mnemonic = i'.mnemonic) (hoperands : i.operands = i'.operands) :
    companionOffset kind i = companionOffset kind i' := by
  unfold companionOffset addOperands
  rw [hmnemonic, hoperands]

theorem throughRegister_congr {kind : AarchMacroKind} {register : Register} {i i' : AarchInstruction}
    (hmnemonic : i.mnemonic = i'.mnemonic) (hoperands : i.operands = i'.operands)
    (h : ThroughRegister kind register i) : ThroughRegister kind register i' := by
  unfold ThroughRegister addOperands ldstBase at h ⊢
  rw [← hmnemonic, ← hoperands]
  exact h

/-! ## §4. Verbatim copies. -/

/-- Decoded operands that are unmodified are the same. -/
theorem macroOperandsUnmodified_decoded {blockAddresses : List U64} {c : Container}
    {ds operands : List DecodedOperand}
    (h : macroOperandsUnmodified blockAddresses c ds (operands.map .decoded) = true) :
    ds = operands := by
  induction operands generalizing ds with
  | nil =>
    cases ds with
    | nil => rfl
    | cons d ds => cases h
  | cons o operands ih =>
    cases ds with
    | nil => cases h
    | cons d ds =>
      rw [List.map_cons, macroOperandsUnmodified, Bool.and_eq_true, macroOperandUnmodified,
        decide_eq_true_eq] at h
      rw [h.1, ih h.2]

/-- The operands of an unmodified `adrp` show the page its target resolves to. -/
theorem macroOperandsUnmodified_page {blockAddresses : List U64} {c : Container}
    {ds : List DecodedOperand} {r : Register} {target : Target}
    (h : macroOperandsUnmodified blockAddresses c ds [.decoded (.register r), .page target] = true) :
    ∃ page, ds = [.register r, .pageTarget page] ∧
      macroResolveTarget target blockAddresses (some c) = some page := by
  cases ds with
  | nil => cases h
  | cons o₁ ds =>
    cases ds with
    | nil =>
      rw [macroOperandsUnmodified, Bool.and_eq_true] at h
      cases h.2
    | cons o₂ ds =>
      cases ds with
      | nil =>
        simp only [macroOperandsUnmodified, macroOperandUnmodified, Bool.and_eq_true,
          decide_eq_true_eq, and_true] at h
        obtain ⟨hregister, hresolved⟩ := h
        split at hresolved
        · next page => exact ⟨page, by rw [hregister], of_decide_eq_true hresolved⟩
        · cases hresolved
      | cons o₃ ds =>
        simp only [macroOperandsUnmodified, Bool.and_eq_true] at h
        cases h.2.2

/-- A copied word decodes to an unmodified instruction. -/
theorem verbatimMacroWord_some {blockAddresses : List U64} {c : Container} {s : Section}
    {address : U64} {i : AarchInstruction} {raw : List Byte}
    (h : verbatimMacroWord blockAddresses c s address i = some raw) :
    ∃ d, raw = toLeBytes d.word ∧ decodeInstruction address d.word = .ok d ∧
      d.mnemonic = i.mnemonic ∧
      macroOperandsUnmodified blockAddresses c d.operands i.operands = true := by
  obtain ⟨tail, -, h⟩ := Option.bind_eq_some_iff.mp h
  obtain ⟨bytes, hbytes, h⟩ := Option.bind_eq_some_iff.mp h
  obtain ⟨word, hword, h⟩ := Option.bind_eq_some_iff.mp h
  have hlength := takeExact_length hbytes
  split at h
  · cases h
  · next d hdecode =>
    split at h
    · next hsame =>
      cases h
      obtain ⟨row, -, -, -, hdword, -⟩ := decodeInstruction_row hdecode
      have hcopy := takeExact_four hword
      rw [takeExact, if_pos (by omega), ← hlength, List.take_length] at hcopy
      refine ⟨d, ?_, ?_, hsame.1, hsame.2⟩
      · rw [hdword]
        exact Option.some.inj hcopy
      · rw [hdword]
        exact hdecode
    · cases h

/-- **A verbatim copy** is the original pair: its `adrp` goes to the page that the
original page operand resolves to, and its companion is the original one. -/
theorem verbatimMacro_decodes {m : AarchMacro} {adrp companion : AarchInstruction} {pageTarget : Target}
    {here : U64} {ctx : EmitContext} {raw : List Byte}
    (hfolded : FoldedFrom m adrp companion pageTarget) (h : verbatimMacro m here ctx = some raw) :
    ∃ page first second, raw = toLeBytes first.word ++ toLeBytes second.word ∧
      decodeInstruction here first.word = .ok first ∧
      decodeInstruction (here + 4) second.word = .ok second ∧ first.mnemonic = .adrp ∧
      first.operands = [.register m.register, .pageTarget page] ∧
      macroResolveTarget pageTarget ctx.blockAddresses ctx.container = some page ∧
      second.mnemonic = companion.mnemonic ∧ (plainInstruction second).operands = companion.operands := by
  obtain ⟨first, -, h⟩ := Option.bind_eq_some_iff.mp h
  split at h
  · cases h
  · next hplace =>
    rw [not_not] at hplace
    obtain ⟨c, hc, h⟩ := Option.bind_eq_some_iff.mp h
    split at h
    · cases h
    · obtain ⟨id, -, h⟩ := Option.bind_eq_some_iff.mp h
      obtain ⟨s, -, h⟩ := Option.bind_eq_some_iff.mp h
      split at h
      · cases h
      · rw [hfolded.originals, ← hplace] at h
        obtain ⟨raw₁, hfirst, h⟩ := Option.bind_eq_some_iff.mp h
        obtain ⟨raw₂, h₂, hraw⟩ := Option.bind_eq_some_iff.mp h
        obtain ⟨raw₃, hsecond, h₂⟩ := Option.bind_eq_some_iff.mp h₂
        obtain ⟨raw₄, hnil, h₂⟩ := Option.bind_eq_some_iff.mp h₂
        cases hnil
        cases h₂
        cases hraw
        obtain ⟨d₁, rfl, hdecode₁, hmnemonic₁, hoperands₁⟩ := verbatimMacroWord_some hfirst
        obtain ⟨d₂, rfl, hdecode₂, hmnemonic₂, hoperands₂⟩ := verbatimMacroWord_some hsecond
        obtain ⟨operands, hdecoded⟩ := exists_decoded_of_through hfolded.through
        rw [hdecoded] at hoperands₂
        have hpage : ∃ page, d₁.operands = [.register m.register, .pageTarget page] ∧
            macroResolveTarget pageTarget ctx.blockAddresses ctx.container = some page := by
          rw [hfolded.operands] at hoperands₁
          rw [hc]
          exact macroOperandsUnmodified_page hoperands₁
        obtain ⟨page, hshape, hresolved⟩ := hpage
        refine ⟨page, d₁, d₂, by rw [List.append_nil], hdecode₁, hdecode₂,
          hmnemonic₁.trans hfolded.mnemonic, hshape, hresolved, hmnemonic₂, ?_⟩
        rw [hdecoded, plainInstruction, macroOperandsUnmodified_decoded hoperands₂]

/-! ## §5. Expansions. -/

variable {m : AarchMacro} {adrp companion : AarchInstruction} {pageTarget : Target} {here : U64}
  {ctx : EmitContext} {out piece : EmitOutput}

theorem encodeTemplate_ok {t : InstructionTemplate} {bytes : List Byte}
    (h : encodeTemplate t = .ok bytes) : ∃ w, encodeInstruction t = .ok w ∧ bytes = toLeBytes w := by
  unfold encodeTemplate at h
  split at h
  · next w hw =>
    cases h
    exact ⟨w, hw, rfl⟩
  · cases h

theorem push_none_bytes (out : EmitOutput) (bytes : List Byte) :
    (out.push bytes none).bytes = out.bytes ++ bytes := rfl

/-- What is relocated is no shorter than one relocation. -/
theorem relocations_push_ne {out : EmitOutput} {b₁ b₂ : List Byte} {r₁ r₂ : RelocationKind × SymbolId} :
    ((out.push b₁ (some r₁)).push b₂ (some r₂)).relocations ≠ out.relocations := by
  intro h
  have hlength := congrArg List.length h
  simp [EmitOutput.push] at hlength

/-- An `adrp` to the page and an `add` of the rest of the target. -/
theorem page_add_offset (target : U64) :
    (target &&& ~~~0xfff#64) + BitVec.ofInt 64 ((target &&& 0xfff#64).toNat : Int) = target := by
  have hsplit : target = (target &&& ~~~0xfff#64) ||| (target &&& 0xfff#64) := by
    rw [← BitVec.and_or_distrib_left]
    exact BitVec.and_allOnes.symm
  have hapart : (target &&& ~~~0xfff#64) &&& (target &&& 0xfff#64) = 0#64 := by
    ext i hi
    simp only [BitVec.getElem_and, BitVec.getElem_not]
    cases target[i] <;> cases (0xfff#64)[i] <;> simp
  rw [BitVec.ofInt_natCast, BitVec.ofNat_toNat, BitVec.setWidth_eq,
    BitVec.add_eq_or_of_and_eq_zero _ _ hapart]
  exact hsplit.symm

theorem pageOffset_le (target : U64) : ((target &&& 0xfff#64).toNat : Int) ≤ 0xfff := by
  have hle : (target &&& 0xfff#64).toNat ≤ 0xfff := by
    rw [BitVec.toNat_and]
    exact Nat.and_le_right
  omega

theorem toLeBytes_injective : Function.Injective toLeBytes := by
  intro w w' h
  have hread := congrArg (fun bytes => leWord? (bytes ++ [])) h
  simpa only [leWord?_toLeBytes_append, Option.some.injEq] using hread

/-- What two words point to is read off the instructions they decode to. -/
theorem addressesTarget_words {target : U64} {w₁ w₂ : Word} {first second : DecodedInstruction}
    (horiginals : m.originalInstructions = [adrp, companion])
    (hfirst : decodeInstruction here w₁ = .ok first)
    (hsecond : decodeInstruction (here + 4) w₂ = .ok second) :
    AddressesTarget m here target (toLeBytes w₁ ++ toLeBytes w₂) ↔
      ∃ page offset, IsAddressPair m companion page offset first second ∧
        page + BitVec.ofInt 64 offset = target := by
  obtain ⟨-, -, -, -, hw₁, -⟩ := decodeInstruction_row hfirst
  obtain ⟨-, -, -, -, hw₂, -⟩ := decodeInstruction_row hsecond
  subst hw₁ hw₂
  constructor
  · intro h
    obtain ⟨adrp', companion', page, offset, first', second', horiginals', hbytes, hfirst', hsecond',
      hpair, htarget⟩ := h
    rw [horiginals] at horiginals'
    cases horiginals'
    obtain ⟨h₁, h₂⟩ := List.append_inj hbytes (by simp)
    rw [← toLeBytes_injective h₁, hfirst] at hfirst'
    rw [← toLeBytes_injective h₂, hsecond] at hsecond'
    cases hfirst'
    cases hsecond'
    exact ⟨page, offset, hpair, htarget⟩
  · intro h
    obtain ⟨page, offset, hpair, htarget⟩ := h
    exact ⟨adrp, companion, page, offset, first, second, horiginals, rfl, hfirst, hsecond, hpair, htarget⟩

theorem ldstBase_eq {i : AarchInstruction} {base : Register} (h : ldstBase i = some base) :
    i.mnemonic ∈ [Aarch64Mnemonic.ldr, .str] ∧ ∃ r mem,
      i.operands = [.decoded (.register r), .decoded (.memory mem)] ∧ mem.base = base := by
  unfold ldstBase at h
  split at h
  · next hmnemonic hoperands =>
    cases h
    exact ⟨by rw [hmnemonic]; decide, _, _, hoperands, rfl⟩
  · next hmnemonic hoperands =>
    cases h
    exact ⟨by rw [hmnemonic]; decide, _, _, hoperands, rfl⟩
  · cases h

theorem ldstBase_of_transfer {i : AarchInstruction} {r : Register} {mem : MemoryOperand}
    (hmnemonic : i.mnemonic ∈ [Aarch64Mnemonic.ldr, .str])
    (hoperands : i.operands = [.decoded (.register r), .decoded (.memory mem)]) :
    ldstBase i = some mem.base := by
  simp only [List.mem_cons, List.not_mem_nil, or_false] at hmnemonic
  unfold ldstBase
  obtain hmnemonic | hmnemonic := hmnemonic <;> rw [hmnemonic, hoperands]

/-- A base register is shown as one that may be the stack pointer. -/
theorem sameRegister_asStackPointer {a b : Register} (ha : a.regClass = .x)
    (h : sameRegister a b = true) : sameRegister a (xOrSp b.index) = true := by
  rw [sameRegister, Bool.and_eq_true] at h ⊢
  refine ⟨h.1, ?_⟩
  rw [ha]
  rfl

/-- **An expanded `loadAddress` points to its target.** -/
theorem expandedAddress_addresses {target : U64} (hfolded : FoldedFrom m adrp companion pageTarget)
    (hkind : m.kind = .loadAddress)
    (hresolve : macroResolveTarget m.target ctx.blockAddresses ctx.container = some target)
    (h : emitLoadAddress m here ctx out = .ok piece)
    (hplain : piece.relocations = out.relocations) :
    ∃ bytes, piece.bytes = out.bytes ++ bytes ∧ m.register.index ≠ 31 ∧
      AddressesTarget m here target bytes := by
  obtain ⟨relocation, -, h⟩ := bind_eq_ok.mp h
  cases relocation with
  | some symbol =>
    obtain ⟨bytes₁, -, h⟩ := bind_eq_ok.mp h
    obtain ⟨bytes₂, -, h⟩ := bind_eq_ok.mp h
    cases h
    exact absurd hplain relocations_push_ne
  | none =>
    simp only [hresolve] at h
    obtain ⟨bytes₁, hbytes₁, h⟩ := bind_eq_ok.mp h
    obtain ⟨bytes₂, hbytes₂, h⟩ := bind_eq_ok.mp h
    cases h
    obtain ⟨w₁, hw₁, rfl⟩ := encodeTemplate_ok hbytes₁
    obtain ⟨w₂, hw₂, rfl⟩ := encodeTemplate_ok hbytes₂
    obtain ⟨hclass, hdecode₁⟩ := decode_encodedAdrp hw₁
    obtain ⟨hindex, hdecode₂⟩ :=
      decode_encodedAdd hclass (Int.natCast_nonneg _) (pageOffset_le target) hw₂ (here + 4)
    have hne : m.register.index ≠ 31 := by omega
    have hsame : sameRegister m.register (xOrSp m.register.index) = true := by
      rw [sameRegister, hclass]
      simp [xOrSp, isWide]
    have hpair : ∀ second : DecodedInstruction, second.word = w₂ →
        decodeInstruction (here + 4) w₂ = .ok second →
        ThroughRegister .loadAddress m.register (plainInstruction second) →
        companionOffset .loadAddress (plainInstruction second)
          = some ((target &&& 0xfff#64).toNat : Int) →
        AddressesTarget m here target (toLeBytes w₁ ++ toLeBytes w₂) := by
      intro second hword hdecode hthrough hoffset
      rw [← hword] at hdecode ⊢
      refine ⟨adrp, companion, target &&& ~~~0xfff#64, _, ⟨here, w₁, .adrp, _⟩, second,
        hfolded.originals, rfl, hdecode₁, hdecode, ?_, page_add_offset target⟩
      refine ⟨rfl, rfl, hne, ?_, ?_, ?_⟩
      · rw [hkind]
        exact hthrough
      · rw [hkind]
        exact hoffset
      · intro haccess
        rw [hkind] at haccess
        cases haccess
    refine ⟨toLeBytes w₁ ++ toLeBytes w₂, by simp [push_none_bytes], hne, ?_⟩
    obtain hadd | ⟨hzero, hmove⟩ := hdecode₂
    · exact hpair _ rfl hadd ⟨_, _, _, rfl, hsame, hsame⟩ rfl
    · refine hpair _ rfl hmove ⟨_, _, _, rfl, hsame, hsame⟩ ?_
      rw [hzero]
      rfl

/-- **An expanded `accessValue` goes to page zero**: it points to the offset of
its companion, whatever its target. -/
theorem expandedAccess_addresses_iff
    (hfolded : FoldedFrom m adrp companion pageTarget) (hkind : m.kind = .accessValue)
    (h : emitAccessValue m here ctx out = .ok piece) (hplain : piece.relocations = out.relocations) :
    ∃ bytes, piece.bytes = out.bytes ++ bytes ∧ ∀ target : U64,
      (AddressesTarget m here target bytes ↔ m.register.index ≠ 31 ∧
        ∃ offset, companionOffset .accessValue companion = some offset ∧
          BitVec.ofInt 64 offset = target) := by
  have hthrough := hfolded.through
  rw [hkind] at hthrough
  obtain ⟨base, hbase, hsame⟩ := hthrough
  obtain ⟨hmnemonic, r, mem, hoperands, rfl⟩ := ldstBase_eq hbase
  unfold emitAccessValue at h
  rw [hfolded.originals] at h
  obtain ⟨relocation, -, h⟩ := bind_eq_ok.mp h
  cases relocation with
  | some symbol =>
    obtain ⟨bytes₁, -, h⟩ := bind_eq_ok.mp h
    obtain ⟨bytes₂, -, h⟩ := bind_eq_ok.mp h
    split at h
    · cases h
    · cases h
      exact absurd hplain relocations_push_ne
  | none =>
    obtain ⟨bytes₁, hbytes₁, h⟩ := bind_eq_ok.mp h
    obtain ⟨bytes₂, hbytes₂, h⟩ := bind_eq_ok.mp h
    cases h
    obtain ⟨w₁, hw₁, rfl⟩ := encodeTemplate_ok hbytes₁
    obtain ⟨w₂, hw₂, rfl⟩ := encodeTemplate_ok hbytes₂
    rw [originalTemplate, hfolded.mnemonic, hfolded.operands] at hw₁
    rw [originalTemplate, hoperands] at hw₂
    obtain ⟨hclass, hdecode₁⟩ := decode_encodedAdrp hw₁
    obtain ⟨mem', hdecode₂, hbase', hoffset⟩ := decode_encodedTransfer hmnemonic hw₂
    refine ⟨toLeBytes w₁ ++ toLeBytes w₂, by simp [push_none_bytes], ?_⟩
    intro target
    rw [addressesTarget_words hfolded.originals hdecode₁ hdecode₂]
    have hcompanion : companionOffset .accessValue companion = accessOffset mem := by
      rw [companionOffset, hoperands]
    have hshown : companionOffset m.kind (plainInstruction ⟨here + 4, w₂, companion.mnemonic,
        [.register r, .memory mem']⟩) = accessOffset mem := by
      rw [hkind]
      exact hoffset
    constructor
    · intro hpair
      obtain ⟨page, offset, hpair, htarget⟩ := hpair
      have hpage := hpair.operands
      cases hpage
      have hread := hpair.offset
      rw [hshown] at hread
      refine ⟨hpair.register, offset, hcompanion.trans hread, ?_⟩
      rw [← htarget]
      exact (BitVec.zero_add _).symm
    · intro hreach
      obtain ⟨hne, offset, hread, htarget⟩ := hreach
      refine ⟨0, offset, ⟨rfl, rfl, hne, ?_, ?_, ?_⟩, ?_⟩
      · rw [hkind]
        refine ⟨mem'.base, ldstBase_of_transfer hmnemonic rfl, ?_⟩
        rw [hbase']
        exact sameRegister_asStackPointer hclass hsame
      · rw [hshown, ← hcompanion, hread]
      · intro _
        refine ⟨rfl, ?_⟩
        rw [hoperands]
        rfl
      · rw [← htarget]
        exact BitVec.zero_add _

/-! ## §6. Every emission. -/

theorem emitLoadAddress_resolved {target : U64} {w₁ w₂ : Word}
    (hrelocation : macroRelocation m ctx = .ok none)
    (hresolve : macroResolveTarget m.target ctx.blockAddresses ctx.container = some target)
    (hadrp : encodeInstruction (buildAdrpTemplate m.register (target &&& ~~~0xfff#64) here) = .ok w₁)
    (hadd : encodeInstruction
      (buildAddImmediateTemplate m.register (target &&& 0xfff#64).toNat) = .ok w₂) :
    emitLoadAddress m here ctx out
      = .ok ((out.push (toLeBytes w₁) none).push (toLeBytes w₂) none) := by
  have hfirst : encodeTemplate (buildAdrpTemplate m.register (target &&& ~~~0xfff#64) here)
      = .ok (toLeBytes w₁) := by rw [encodeTemplate, hadrp]
  have hsecond : encodeTemplate (buildAddImmediateTemplate m.register (target &&& 0xfff#64).toNat)
      = .ok (toLeBytes w₂) := by rw [encodeTemplate, hadd]
  refine bind_eq_ok.mpr ⟨none, hrelocation, ?_⟩
  simp only [hresolve]
  exact bind_eq_ok.mpr ⟨_, hfirst, bind_eq_ok.mpr ⟨_, hsecond, rfl⟩⟩

theorem emitAccessValue_resolved {w₁ w₂ : Word} (horiginals : m.originalInstructions = [adrp, companion])
    (hrelocation : macroRelocation m ctx = .ok none)
    (hadrp : encodeInstruction (originalTemplate adrp here) = .ok w₁)
    (hcompanion : encodeInstruction (originalTemplate companion (here + 4)) = .ok w₂) :
    emitAccessValue m here ctx out
      = .ok ((out.push (toLeBytes w₁) none).push (toLeBytes w₂) none) := by
  have hfirst : encodeTemplate (originalTemplate adrp here) = .ok (toLeBytes w₁) := by
    rw [encodeTemplate, hadrp]
  have hsecond : encodeTemplate (originalTemplate companion (here + 4)) = .ok (toLeBytes w₂) := by
    rw [encodeTemplate, hcompanion]
  unfold emitAccessValue
  rw [horiginals]
  refine bind_eq_ok.mpr ⟨none, hrelocation, ?_⟩
  exact bind_eq_ok.mpr ⟨_, hfirst, bind_eq_ok.mpr ⟨_, hsecond, rfl⟩⟩

/-- A verbatim copy points where the original pair does. -/
theorem verbatim_addresses_iff {target : U64} {raw : List Byte}
    (hfolded : FoldedFrom m adrp companion pageTarget) (h : verbatimMacro m here ctx = some raw) :
    AddressesTarget m here target raw ↔ m.register.index ≠ 31 ∧ ∃ page offset,
      macroResolveTarget pageTarget ctx.blockAddresses ctx.container = some page ∧
      companionOffset m.kind companion = some offset ∧ page + BitVec.ofInt 64 offset = target := by
  obtain ⟨page, first, second, rfl, hfirst, hsecond, hmnemonic, hoperands, hresolve, hcompanion, hsame⟩ :=
    verbatimMacro_decodes hfolded h
  rw [addressesTarget_words hfolded.originals hfirst hsecond]
  have hoffset : companionOffset m.kind (plainInstruction second) = companionOffset m.kind companion :=
    companionOffset_congr hcompanion hsame
  constructor
  · intro hpair
    obtain ⟨page', offset, hpair, htarget⟩ := hpair
    have hpage := hpair.operands
    rw [hoperands] at hpage
    cases hpage
    exact ⟨hpair.register, page, offset, hresolve, hoffset.symm.trans hpair.offset, htarget⟩
  · intro hreach
    obtain ⟨hne, page', offset, hresolve', hread, htarget⟩ := hreach
    rw [hresolve] at hresolve'
    cases hresolve'
    refine ⟨page, offset, ⟨hmnemonic, hoperands, hne, ?_, hoffset.trans hread, ?_⟩, htarget⟩
    · exact throughRegister_congr hcompanion.symm hsame.symm hfolded.through
    · intro _
      exact ⟨hcompanion, by rw [hsame]⟩

/-- **A macro emitted without a relocation points to its target exactly when its
register is not number 31 and it is expanded from an address**, or is copied
from instructions that point there, or accesses page zero. -/
theorem emitAarchMacro_addresses_iff {target : U64} (hfolded : FoldedMacro m)
    (hresolve : macroResolveTarget m.target ctx.blockAddresses ctx.container = some target)
    (hemit : emitAarchMacro m here ctx out = .ok piece)
    (hplain : piece.relocations = out.relocations) :
    AddressesTarget m here target (piece.bytes.drop out.bytes.length) ↔
      m.register.index ≠ 31 ∧ EmittedFor m here ctx target := by
  obtain ⟨adrp, companion, pageTarget, hfrom⟩ := hfolded.foldedFrom
  have hadrp : ∀ {rd : Register} {page : Target}, adrpOperands adrp = some (rd, page) → page = pageTarget := by
    intro rd page hoperands
    have hshape := adrpOperands_eq hoperands
    rw [hfrom.operands] at hshape
    cases hshape
    rfl
  have hown : adrpOperands adrp = some (m.register, pageTarget) := by
    rw [adrpOperands, hfrom.operands]
  unfold emitAarchMacro at hemit
  unfold EmittedFor
  cases hverbatim : verbatimMacro m here ctx with
  | some raw =>
    rw [hverbatim] at hemit
    cases hemit
    rw [push_none_bytes, List.drop_left, verbatim_addresses_iff hfrom hverbatim]
    constructor
    · intro h
      obtain ⟨hne, page, offset, hpage, hoffset, htarget⟩ := h
      exact ⟨hne, adrp, companion, hfrom.originals, m.register, pageTarget, page, offset, hown, hpage,
        hoffset, htarget⟩
    · intro h
      obtain ⟨hne, adrp', companion', horiginals, rd, pageTarget', page, offset, hoperands, hpage,
        hoffset, htarget⟩ := h
      rw [hfrom.originals] at horiginals
      cases horiginals
      rw [hadrp hoperands] at hpage
      exact ⟨hne, page, offset, hpage, hoffset, htarget⟩
  | none =>
    rw [hverbatim] at hemit
    cases hkind : m.kind with
    | loadAddress =>
      rw [hkind] at hemit
      obtain ⟨bytes, hbytes, hne, haddresses⟩ :=
        expandedAddress_addresses hfrom hkind hresolve hemit hplain
      rw [hbytes, List.drop_left]
      exact ⟨fun _ => ⟨hne, adrp, companion, hfrom.originals, trivial⟩, fun _ => haddresses⟩
    | accessValue =>
      rw [hkind] at hemit
      obtain ⟨bytes, hbytes, haddresses⟩ := expandedAccess_addresses_iff hfrom hkind hemit hplain
      rw [hbytes, List.drop_left, haddresses target]
      constructor
      · intro h
        exact ⟨h.1, adrp, companion, hfrom.originals, h.2⟩
      · intro h
        obtain ⟨hne, adrp', companion', horiginals, hoffset⟩ := h
        rw [hfrom.originals] at horiginals
        cases horiginals
        exact ⟨hne, hoffset⟩

/-! ### An address pair, moved. -/

/-- `adrp x0` to a page and `add x0, x0, #8`. -/
def addressPair : AarchMacro :=
  fusedPair .loadAddress (xReg 0) (.absolute 0x2008)
    ⟨.adrp, [.decoded (.register (xReg 0)), .page (.absolute 0x2000)], some 0x1000, some 4⟩
    ⟨.add, [.decoded (.register (xOrSp 0)), .decoded (.register (xOrSp 0)), .decoded (.immediate 8)],
      some 0x1004, some 4⟩

theorem addressPair_folded : FoldedMacro addressPair := by
  have hfuse : tryFuse
      ⟨.adrp, [.decoded (.register (xReg 0)), .page (.absolute 0x2000)], some 0x1000, some 4⟩
      ⟨.add, [.decoded (.register (xOrSp 0)), .decoded (.register (xOrSp 0)),
        .decoded (.immediate 8)], some 0x1004, some 4⟩
      (fun _ => none) none (fun _ => none) = some addressPair := rfl
  exact .fused hfuse

set_option maxRecDepth 20000 in
theorem opcodesForMnemonic_add :
    opcodesForMnemonic .add
      = [⟨"add", 0x0b200000#32, 0x7fe00000#32, .addsubExt, [.rdSp, .rnSp, .rmExt], 0⟩, addImmediateRow,
        ⟨"add", 0xb000000#32, 0x7f200000#32, .addsubShift, [.rd, .rn, .rmSft], 0⟩,
        ⟨"add", 0xe208400#32, 0xbf20fc00#32, .asimdsame, [.vd, .vn, .vm], 0⟩,
        ⟨"add", 0x5ee08400#32, 0xffe0fc00#32, .asisdsame, [.sd, .sn, .sm], 0⟩] := by
  have hown : ∀ name, Aarch64Mnemonic.add ≠ .other name := by
    intro name h
    cases h
  rw [opcodesForMnemonic_eq hown]
  decide

theorem addressPair_emitted (blockAddresses : List U64) :
    emitAarchMacro addressPair 0x3000 ⟨blockAddresses, none, none⟩ .empty
      = .ok ((EmitOutput.empty.push (toLeBytes 0xf0ffffe0#32) none).push
          (toLeBytes 0x91002000#32) none) := by
  have hadrp : encodeInstruction ⟨0x3000, .adrp, [.register (xReg 0), .pageTarget 0x2000]⟩
      = .ok 0xf0ffffe0#32 := by
    simp only [encodeInstruction, opcodesForMnemonic_adrp]
    decide
  have hadd : encodeInstruction ⟨0, .add, [.register (xReg 0), .register (xReg 0), .immediate 8]⟩
      = .ok 0x91002000#32 := by
    simp only [encodeInstruction, opcodesForMnemonic_add]
    decide
  exact emitLoadAddress_resolved (m := addressPair) rfl
    (show macroResolveTarget (.absolute 0x2008) blockAddresses none = some 0x2008 from rfl) hadrp hadd

/-- The moved pair still points to `0x2008`. -/
theorem addressPair_addresses :
    AddressesTarget addressPair 0x3000 0x2008
      (((EmitOutput.empty.push (toLeBytes 0xf0ffffe0#32) none).push
        (toLeBytes 0x91002000#32) none).bytes.drop 0) := by
  have hcopied : verbatimMacro addressPair 0x3000 ⟨[], none, none⟩ = none := rfl
  have hfor : EmittedFor addressPair 0x3000 ⟨[], none, none⟩ 0x2008 := by
    refine ⟨_, _, rfl, ?_⟩
    rw [hcopied]
    trivial
  exact (emitAarchMacro_addresses_iff addressPair_folded
    (show macroResolveTarget (.absolute 0x2008) [] none = some 0x2008 from rfl)
    (addressPair_emitted []) rfl).mpr ⟨by decide, hfor⟩

/-! ### An access, redirected. -/

/-- `adrp x0` to the page of a symbol and `ldr x1, [x0]`, redirected to `0x2000`. -/
def accessPair : AarchMacro :=
  { fusedPair .accessValue (xReg 0) (.symbol ⟨0⟩)
      ⟨.adrp, [.decoded (.register (xReg 0)), .page (.symbol ⟨0⟩)], some 0x1000, some 4⟩
      ⟨.ldr, [.decoded (.register (xReg 1)),
        .decoded (.memory ⟨xOrSp 0, .immediate 0, .offset⟩)], some 0x1004, some 4⟩ with
    target := .absolute 0x2000 }

def accessRelocations : Map U64 FusionRelocationInfo := fun address =>
  if address = 0x1000 then some ⟨.adrpPage21, some ⟨0⟩⟩
  else if address = 0x1004 then some ⟨.loadStorePageOffset12 8, some ⟨0⟩⟩
  else none

theorem accessPair_folded : FoldedMacro accessPair := by
  have hfuse : tryFuse
      ⟨.adrp, [.decoded (.register (xReg 0)), .page (.symbol ⟨0⟩)], some 0x1000, some 4⟩
      ⟨.ldr, [.decoded (.register (xReg 1)),
        .decoded (.memory ⟨xOrSp 0, .immediate 0, .offset⟩)], some 0x1004, some 4⟩
      (fun _ => none) none accessRelocations
        = some { accessPair with target := .symbol ⟨0⟩ } := rfl
  exact .redirected (.absolute 0x2000) (.fused hfuse)

theorem accessPair_emitted :
    ∃ piece : EmitOutput, emitAccessValue accessPair 0x1000 ⟨[], none, none⟩ .empty = .ok piece ∧
      piece.relocations = [] := by
  have hadrp : encodeInstruction ⟨0x1000, .adrp, [.register (xReg 0), .pageTarget 0]⟩
      = .ok 0xf0ffffe0#32 := by
    simp only [encodeInstruction, opcodesForMnemonic_adrp]
    decide
  have hldr : encodeInstruction ⟨0x1004, .ldr,
      [.register (xReg 1), .memory ⟨xOrSp 0, .immediate 0, .offset⟩]⟩ = .ok 0xf9400001#32 := by
    have hown : ∀ name, Aarch64Mnemonic.ldr ≠ .other name := by
      intro name h
      cases h
    simp only [encodeInstruction, opcodesForMnemonic_eq hown,
      transferRows_found .ldr List.mem_cons_self]
    decide
  exact ⟨_, emitAccessValue_resolved (m := accessPair) rfl rfl hadrp hldr, rfl⟩

/-- The redirected access still goes to page zero, so not every emitted macro
points to its target. -/
theorem accessPair_misses :
    ¬ ∀ (m : AarchMacro) (here target : U64) (ctx : EmitContext) (out piece : EmitOutput),
      FoldedMacro m →
      macroResolveTarget m.target ctx.blockAddresses ctx.container = some target →
      emitAarchMacro m here ctx out = .ok piece → piece.relocations = out.relocations →
        AddressesTarget m here target (piece.bytes.drop out.bytes.length) := by
  intro h
  obtain ⟨piece, hemitted, hplain⟩ := accessPair_emitted
  obtain ⟨adrp, companion, pageTarget, hfrom⟩ := accessPair_folded.foldedFrom
  have hcopied : verbatimMacro accessPair 0x1000 ⟨[], none, none⟩ = none := rfl
  have hemit : emitAarchMacro accessPair 0x1000 ⟨[], none, none⟩ .empty = .ok piece := by
    rw [emitAarchMacro, hcopied]
    exact hemitted
  have haddresses := h accessPair 0x1000 0x2000 ⟨[], none, none⟩ .empty piece accessPair_folded
    (show macroResolveTarget (.absolute 0x2000) [] none = some 0x2000 from rfl) hemit hplain
  obtain ⟨bytes, hbytes, hiff⟩ := expandedAccess_addresses_iff hfrom rfl hemitted hplain
  rw [hbytes, List.drop_left, hiff] at haddresses
  obtain ⟨-, offset, hoffset, htarget⟩ := haddresses
  have horiginals := hfrom.originals
  cases horiginals
  cases hoffset
  revert htarget
  decide

end Armv8Encode

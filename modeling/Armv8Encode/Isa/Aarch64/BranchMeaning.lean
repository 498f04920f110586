/-
  Armv8Encode.Isa.Aarch64.BranchMeaning — branches through layout and emit.

  A branch that emit encodes decodes to itself, aimed at the address its
  target resolves to; a widened one decodes to the inverted branch over a far
  `b`.  Two things get in the way at the op itself: an undecodable source word
  that is copied in its place, and a 32-bit register of `tbz` or `tbnz`, which
  decodes as 64-bit.  Before the op, what counts is that nothing has moved it
  off its layout address.
-/
import Armv8Encode.Isa.Aarch64.EmitSizes
import Armv8Encode.Isa.Aarch64.VerbatimCopy

namespace Armv8Encode

open Lib

/-! ## §1. What a word at an address branches to. -/

/-- The operands that are not PC-relative targets. -/
def nonTargets (operands : List DecodedOperand) : List DecodedOperand :=
  operands.filter (fun o => !o.isTarget)

/-- The word decodes to the mnemonic, with these non-target operands and this target. -/
def DecodesTo (address : U64) (w : Word) (m : Aarch64Mnemonic) (plain : List DecodedOperand)
    (target : U64) : Prop :=
  ∃ d, decodeInstruction address w = .ok d ∧ d.mnemonic = m ∧
    nonTargets d.operands = nonTargets plain ∧ directBranchTarget d.operands = some target

theorem nonTargets_targetLast {pre operands : List DecodedOperand} {target : U64}
    (h : TargetLast pre target operands) : nonTargets operands = pre := by
  rw [h.1, nonTargets, List.filter_append, List.filter_eq_self.mpr]
  · simp [DecodedOperand.isTarget]
  · intro o ho
    rw [h.2 o ho]
    rfl

theorem directBranchTarget_targetLast {pre operands : List DecodedOperand} {target : U64}
    (h : TargetLast pre target operands) : directBranchTarget operands = some target := by
  obtain ⟨rfl, hpre⟩ := h
  rw [directBranchTarget, List.findSome?_append, List.findSome?_eq_none_iff.mpr]
  · rfl
  · intro o ho
    have := hpre o ho
    cases o <;> simp_all [DecodedOperand.isTarget]

theorem shownOperand_isTarget (m : Aarch64Mnemonic) (o : DecodedOperand) :
    (shownOperand m o).isTarget = o.isTarget := by
  cases o with
  | register r =>
    rw [shownOperand]
    split <;> rfl
  | _ => rfl

theorem TargetLast.map_shown {pre operands : List DecodedOperand} {target : U64}
    (h : TargetLast pre target operands) (m : Aarch64Mnemonic) :
    TargetLast (pre.map (shownOperand m)) target (operands.map (shownOperand m)) := by
  refine ⟨by rw [h.1, List.map_append]; rfl, ?_⟩
  intro o ho
  obtain ⟨o', ho', rfl⟩ := List.mem_map.mp ho
  rw [shownOperand_isTarget]
  exact h.2 o' ho'

/-- An encoded branch decodes to its own operands exactly when the decoder
shows each of them as it is. -/
theorem decodesTo_of_encode {m : Aarch64Mnemonic} {row : Aarch64Opcode} {address target : U64}
    {pre operands : List DecodedOperand} (plain : List DecodedOperand) {w : Word}
    (h : branchRow m = some row) (hlast : TargetLast pre target operands)
    (hplain : nonTargets plain = pre)
    (henc : encodeInstruction ⟨address, m, operands⟩ = .ok w) :
    DecodesTo address w m plain target ↔ ∀ o ∈ pre, shownOperand m o = o := by
  have hdecode := decodeInstruction_of_encode_branch h henc
  have hshown := hlast.map_shown m
  have hmap : pre.map (shownOperand m) = pre ↔ ∀ o ∈ pre, shownOperand m o = o := by
    conv_lhs => rhs; rw [← List.map_id pre]
    exact List.map_inj_left
  rw [← hmap]
  constructor
  · rintro ⟨d, hd, -, hnon, -⟩
    rw [hdecode] at hd
    cases hd
    rw [nonTargets_targetLast hshown, hplain] at hnon
    exact hnon
  · intro hself
    refine ⟨_, hdecode, rfl, ?_, directBranchTarget_targetLast hshown⟩
    rw [nonTargets_targetLast hshown, hself, hplain]

/-! ## §2. Operands of a branch in the plan. -/

/-- The operands of an instruction that are not symbolic. -/
def plainOperands (i : AarchInstruction) : List DecodedOperand := lowerOperandsWithPlaceholder i

/-- The operands of a branch with one symbolic target, which comes last. -/
def SymbolicLast (pre : List DecodedOperand) (t : Target) (i : AarchInstruction) : Prop :=
  i.operands = pre.map RewriteOperand.decoded ++ [.branch t] ∧ ∀ o ∈ pre, o.isTarget = false

theorem SymbolicLast.plainOperands {pre : List DecodedOperand} {t : Target} {i : AarchInstruction}
    (h : SymbolicLast pre t i) : plainOperands i = pre := by
  simp [Armv8Encode.plainOperands, lowerOperandsWithPlaceholder, h.1, List.filterMap_append,
    List.filterMap_map]

theorem SymbolicLast.pcRelativeTarget {pre : List DecodedOperand} {t : Target}
    {i : AarchInstruction} (h : SymbolicLast pre t i) : i.pcRelativeTarget = some t := by
  rw [RewriteInstruction.pcRelativeTarget, h.1, List.findSome?_append,
    List.findSome?_eq_none_iff.mpr]
  · rfl
  · intro o ho
    obtain ⟨d, -, rfl⟩ := List.mem_map.mp ho
    rfl

theorem eq_map_decoded_of_forall₂ {R : DecodedOperand → AarchOperand → Prop}
    (hplain : ∀ d o, d.isTarget = false → R d o → o = .decoded d) {pre : List DecodedOperand}
    {os : List AarchOperand} (h : List.Forall₂ R pre os) (hpre : ∀ o ∈ pre, o.isTarget = false) :
    os = pre.map RewriteOperand.decoded := by
  induction h with
  | nil => rfl
  | @cons d o ds os hd _ ih =>
    rw [List.map_cons, hplain d o (hpre d List.mem_cons_self) hd,
      ih (fun o ho => hpre o (List.mem_cons_of_mem _ ho))]

/-- Operands that stand for ones with the target last, at least one of them
symbolic, are the same operands with a symbolic target last. -/
theorem symbolicLast_of_forall₂ {R : DecodedOperand → AarchOperand → Prop} {i : AarchInstruction}
    {pre operands : List DecodedOperand} {target : U64}
    (hplain : ∀ d o, d.isTarget = false → R d o → o = .decoded d)
    (htarget : ∀ o, R (.branchTarget target) o →
      o = .decoded (.branchTarget target) ∨ ∃ t, o = .branch t)
    (h : List.Forall₂ R operands i.operands) (hlast : TargetLast pre target operands)
    (hsymbolic : i.pcRelativeTarget.isSome) :
    ∃ t, SymbolicLast pre t i ∧ R (.branchTarget target) (.branch t) := by
  rw [hlast.1] at h
  obtain ⟨us, vs, hops, hus, hvs⟩ := exists_of_forall₂_append h
  obtain ⟨o, rfl, ho⟩ : ∃ o, vs = [o] ∧ R (.branchTarget target) o := by
    cases hvs with
    | cons ho hnil =>
      cases hnil
      exact ⟨_, rfl, ho⟩
  have hpre : us = pre.map RewriteOperand.decoded :=
    eq_map_decoded_of_forall₂ hplain hus hlast.2
  rw [hpre] at hops
  rcases htarget o ho with rfl | ⟨t, rfl⟩
  · exfalso
    rw [RewriteInstruction.pcRelativeTarget, hops, List.findSome?_eq_none_iff.mpr] at hsymbolic
    · cases hsymbolic
    · intro o ho
      rcases List.mem_append.mp ho with ho | ho
      · obtain ⟨d, -, rfl⟩ := List.mem_map.mp ho
        rfl
      · cases List.mem_singleton.mp ho
        rfl
  · exact ⟨t, ⟨hops, hlast.2⟩, ho⟩

/-! ## §3. The widened form. -/

theorem skipOperand_isTarget (skip : U64) (o : DecodedOperand) :
    (skipOperand skip o).isTarget = o.isTarget := by
  cases o <;> rfl

theorem skipOperand_of_not_target {skip : U64} {o : DecodedOperand} (h : o.isTarget = false) :
    skipOperand skip o = o := by
  cases o <;> first | rfl | cases h

theorem nonTargets_map_skip (skip : U64) (template : List DecodedOperand) :
    nonTargets (template.map (skipOperand skip)) = nonTargets template := by
  induction template with
  | nil => rfl
  | cons o rest ih =>
    unfold nonTargets at ih ⊢
    rw [List.map_cons, List.filter_cons, List.filter_cons, skipOperand_isTarget, ih]
    cases ho : o.isTarget with
    | true => rfl
    | false => rw [skipOperand_of_not_target ho]

/-- The inverted branch keeps the non-target operands. -/
theorem nonTargets_invertedOperands (template : List DecodedOperand) (skip : U64) :
    nonTargets (invertedOperands template skip) = nonTargets template := by
  unfold invertedOperands
  simp only
  split
  · exact nonTargets_map_skip skip template
  · rw [nonTargets, List.filter_append]
    exact (List.append_nil _).trans (nonTargets_map_skip skip template)

theorem directBranchTarget_map_skip {skip target : U64} {template : List DecodedOperand}
    (h : directBranchTarget (template.map (skipOperand skip)) = some target) : target = skip := by
  obtain ⟨o, ho, htarget⟩ := List.exists_of_findSome?_eq_some h
  obtain ⟨o', -, rfl⟩ := List.mem_map.mp ho
  cases o' <;> simp [skipOperand] at htarget
  exact htarget.symm

/-- The inverted branch skips to the given address. -/
theorem directBranchTarget_invertedOperands (template : List DecodedOperand) (skip : U64) :
    directBranchTarget (invertedOperands template skip) = some skip := by
  unfold invertedOperands
  simp only
  split
  · next hany =>
    obtain ⟨o, ho, hbranch⟩ := List.any_eq_true.mp hany
    cases hres : directBranchTarget (template.map (skipOperand skip)) with
    | none =>
      have hnone := List.findSome?_eq_none_iff.mp hres o ho
      cases o <;> simp at hbranch hnone
    | some target => rw [directBranchTarget_map_skip hres]
  · rw [directBranchTarget, List.findSome?_append]
    cases hres : directBranchTarget (template.map (skipOperand skip)) with
    | none =>
      rw [directBranchTarget] at hres
      rw [hres]
      rfl
    | some target =>
      rw [directBranchTarget_map_skip hres, directBranchTarget] at hres
      rw [hres]
      rfl

theorem invert_branch {m inverted : Aarch64Mnemonic}
    (h : m.invertConditionalBranch = some inverted) :
    inverted ≠ m ∧ (∃ row, branchRow inverted = some row) ∧
      ((inverted = .tbz ∨ inverted = .tbnz) ↔ (m = .tbz ∨ m = .tbnz)) := by
  cases m <;> simp only [Aarch64Mnemonic.invertConditionalBranch, reduceCtorEq,
    Option.some.injEq] at h <;> subst h <;> simp [branchRow]

/-- The decoder shows each operand as it is exactly when `tbz` and `tbnz`
test a 64-bit register. -/
theorem shownOperand_self_iff {m : Aarch64Mnemonic} {pre : List DecodedOperand} :
    (∀ o ∈ pre, shownOperand m o = o) ↔
      ((m = .tbz ∨ m = .tbnz) → ∀ r, .register r ∈ pre → r.regClass = .x) := by
  constructor
  · intro h hm r hr
    have hself := h _ hr
    rw [shownOperand, if_pos hm, DecodedOperand.register.injEq] at hself
    rw [← hself]
    rfl
  · intro h o ho
    cases o with
    | register r =>
      rw [shownOperand]
      split
      · next hm =>
        have hx := h hm r ho
        obtain ⟨regClass, index⟩ := r
        cases hx
        rfl
      · rfl
    | _ => rfl

theorem register_mem_nonTargets {operands : List DecodedOperand} {r : Register} :
    .register r ∈ nonTargets operands ↔ .register r ∈ operands := by
  simp [nonTargets, DecodedOperand.isTarget]

/-! ## §4. What a branch op emits. -/

/-- What the output from a branch's layout address on must decode to: the
branch aimed at its resolved target or, when widened, the inverted branch over
a far `b` to that target. -/
def BranchMeans (ctx : EmitContext) (i : AarchInstruction) (l : InstructionLayout)
    (bytes : List Byte) : Prop :=
  ∃ t target, i.pcRelativeTarget = some t ∧
    resolveTarget t ctx.blockAddresses ctx.container = .ok target ∧
    ((∃ w, leWord? bytes = some w ∧
        DecodesTo l.address w i.mnemonic (plainOperands i) target) ∨
      (l.strategy = .invertedConditional ∧
        ∃ inverted w₁ w₂, i.mnemonic.invertConditionalBranch = some inverted ∧
          leWord? bytes = some w₁ ∧ leWord? (bytes.drop 4) = some w₂ ∧
          DecodesTo l.address w₁ inverted (plainOperands i) (l.address + 8) ∧
          DecodesTo (l.address + 4) w₂ .b [] target))

/-- Nothing about the op itself keeps its branch from being decoded back. -/
structure BranchCodable (ctx : EmitContext) (i : AarchInstruction) (address : U64) : Prop where
  /-- `tbz` and `tbnz` test a 64-bit register. -/
  register : (i.mnemonic = .tbz ∨ i.mnemonic = .tbnz) →
    ∀ r, .register r ∈ plainOperands i → r.regClass = .x
  /-- The word the instruction was lifted from, if it still stands there, decodes. -/
  source : ∀ c word, ctx.container = some c → i.originalAddress = some address →
    c.textWordAt address = some word → ∃ d, decodeInstruction address word = .ok d

variable {ctx : EmitContext} {i : AarchInstruction} {l : InstructionLayout}
  {row : Aarch64Opcode}

/-- A branch copied from a source word that decodes stands at its own address,
and the word branches to the resolved target. -/
theorem exists_copiedBranch (hrow : branchRow i.mnemonic = some row)
    (hsymbolic : i.pcRelativeTarget.isSome) {c : Container} {original : U64} {word : Word}
    {d : DecodedInstruction} (hi : i.originalAddress = some original)
    (hword : c.textWordAt original = some word)
    (hdecode : decodeInstruction original word = .ok d) {raw : List Byte}
    (h : verbatimBytes aarch64 i l.address ctx.blockAddresses (some c) = some raw) :
    ∃ pre t target, original = l.address ∧ raw = toLeBytes word ∧ d.mnemonic = i.mnemonic
      ∧ SymbolicLast pre t i ∧ resolveTarget t ctx.blockAddresses (some c) = .ok target
      ∧ TargetLast pre target d.operands ∧ ∀ o ∈ pre, shownOperand d.mnemonic o = o := by
  obtain ⟨rfl, hmnemonic, hvalues, hplace⟩ := (verbatimBytes_decodable hi hword hdecode).mp h
  have hrow' : branchRow d.mnemonic = some row := by rw [hmnemonic, hrow]
  obtain ⟨pre, target, hlast, hshown⟩ := targetLast_of_decode_branch hdecode hrow'
  have hoperand : original = l.address := by
    rcases hplace with hplace | hplace
    · exact hplace
    · rw [hlast.1, List.any_append] at hplace
      simp [aarchPcrelKind] at hplace
  obtain ⟨t, hsym, haddress, hbranch, hresolve⟩ :=
    symbolicLast_of_forall₂ (R := SameValue ctx.blockAddresses c)
      (fun d o hd hR => by
        cases o with
        | decoded o => rw [SameValue] at hR; rw [hR]
        | branch t => obtain ⟨a, rfl, -⟩ := hR; cases hd
        | page t => obtain ⟨a, rfl, -⟩ := hR; cases hd)
      (fun o hR => by
        cases o with
        | decoded o => rw [SameValue] at hR; exact .inl (by rw [hR])
        | branch t => exact .inr ⟨t, rfl⟩
        | page t => obtain ⟨a, ha, -⟩ := hR; cases ha)
      hvalues hlast hsymbolic
  cases hbranch
  exact ⟨pre, t, target, hoperand, rfl, hmnemonic, hsym, hresolve, hlast, hshown⟩

/-- A branch copied from its source bytes. -/
theorem branchMeans_verbatim (hrow : branchRow i.mnemonic = some row)
    (hsymbolic : i.pcRelativeTarget.isSome) {raw : List Byte}
    (h : verbatimBytes aarch64 i l.address ctx.blockAddresses ctx.container = some raw)
    (rest : List Byte) : BranchMeans ctx i l (raw ++ rest) ↔ BranchCodable ctx i l.address := by
  obtain ⟨c, original, word, hc, hi, hword⟩ := exists_word_of_verbatimBytes h
  rw [hc] at h
  cases hdecode : decodeInstruction original word with
  | error e =>
    -- the stale word does not decode, so it is no branch
    rw [verbatimBytes_undecodable hi hword hdecode] at h
    split at h
    · cases h
    · next hplace =>
      cases h
      rw [not_not] at hplace
      subst hplace
      constructor
      · rintro ⟨t, target, -, -, ⟨w, hw, d, hd, -⟩ | ⟨-, inv, w, w₂, -, hw, -, ⟨d, hd, -⟩, -⟩⟩
        all_goals
          rw [leWord?_toLeBytes_append] at hw
          cases hw
          rw [hdecode] at hd
          cases hd
      · intro hcodable
        obtain ⟨d, hd⟩ := hcodable.source c word hc hi hword
        rw [hdecode] at hd
        cases hd
  | ok d =>
    obtain ⟨pre, t, target, rfl, rfl, hmnemonic, hsym, hresolve, hlast, hshown⟩ :=
      exists_copiedBranch hrow hsymbolic hi hword hdecode h
    have hpre : nonTargets (plainOperands i) = pre := by
      rw [hsym.plainOperands]
      exact List.filter_eq_self.mpr (fun o ho => by rw [hsym.2 o ho]; rfl)
    refine iff_of_true ?_ ⟨?_, ?_⟩
    · refine ⟨t, target, hsym.pcRelativeTarget, by rw [hc]; exact hresolve,
        .inl ⟨word, leWord?_toLeBytes_append word rest, d, hdecode, hmnemonic, ?_,
          directBranchTarget_targetLast hlast⟩⟩
      rw [nonTargets_targetLast hlast, hpre]
    · rw [hsym.plainOperands, ← hmnemonic]
      exact shownOperand_self_iff.mp hshown
    · intro c' word' hc' _ hword'
      rw [hc] at hc'
      cases hc'
      rw [hword] at hword'
      cases hword'
      exact ⟨d, hdecode⟩

/-- When nothing is copied at the branch's own address, a source word that
stands there decodes. -/
theorem source_of_notCopied
    (h : verbatimBytes aarch64 i l.address ctx.blockAddresses ctx.container = none) :
    ∀ c word, ctx.container = some c → i.originalAddress = some l.address →
      c.textWordAt l.address = some word → ∃ d, decodeInstruction l.address word = .ok d := by
  intro c word hc hi hword
  rw [hc] at h
  cases hdecode : decodeInstruction l.address word with
  | ok d => exact ⟨d, rfl⟩
  | error e =>
    rw [verbatimBytes_undecodable hi hword hdecode] at h
    simp at h

theorem lowerOperands_forall₂ {blockAddresses : List U64} {container : Option Container}
    {os : List AarchOperand} {operands : List DecodedOperand}
    (h : lowerOperands (E := EncodeError) aarch64 blockAddresses container os = .ok operands) :
    List.Forall₂ (fun d o => lowerOperand (E := EncodeError) aarch64 blockAddresses container o
      = .ok d) operands os := by
  induction os generalizing operands with
  | nil =>
    cases h
    exact .nil
  | cons o os ih =>
    obtain ⟨d, hd, h⟩ := bind_eq_ok.mp h
    obtain ⟨ds, hds, h⟩ := bind_eq_ok.mp h
    cases h
    exact .cons hd (ih hds)

/-- What a symbolic operand lowers to. -/
theorem lowerOperand_symbolic {blockAddresses : List U64} {container : Option Container}
    {o : AarchOperand} {d : DecodedOperand}
    (h : lowerOperand (E := EncodeError) aarch64 blockAddresses container o = .ok d) :
    o = .decoded d ∨
      (∃ t a, o = .branch t ∧ d = .branchTarget a
        ∧ resolveTarget t blockAddresses container = .ok a) ∨
      ∃ t a, o = .page t ∧ d = .pageTarget a := by
  cases o with
  | decoded o =>
    cases h
    exact .inl rfl
  | branch t =>
    cases ht : resolveTarget t blockAddresses container with
    | error e => simp [lowerOperand, ht] at h
    | ok a =>
      simp only [lowerOperand, ht, Except.ok.injEq] at h
      exact .inr (.inl ⟨t, a, rfl, h.symm, ht⟩)
  | page t =>
    cases ht : resolveTarget t blockAddresses container with
    | error e => simp [lowerOperand, ht] at h
    | ok a =>
      simp only [lowerOperand, ht, Except.ok.injEq] at h
      exact .inr (.inr ⟨t, a, rfl, h.symm⟩)

theorem aarchEncode_ok {mnemonic : Aarch64Mnemonic} {operands : List DecodedOperand}
    {address : U64} {bytes : List Byte}
    (h : aarch64.encode mnemonic operands address = .ok bytes) :
    ∃ w, encodeInstruction ⟨address, mnemonic, operands⟩ = .ok w ∧ bytes = toLeBytes w := by
  obtain ⟨w, hw, h⟩ := bind_eq_ok.mp h
  cases h
  exact ⟨w, hw, rfl⟩

/-- A branch encoded as it is aims at the resolved target. -/
theorem exists_encodedBranch (hrow : branchRow i.mnemonic = some row)
    (hsymbolic : i.pcRelativeTarget.isSome) (hstrategy : l.strategy = .normal)
    {bytes : List Byte} (h : emitEncoded aarch64 i l ctx = .ok bytes) :
    ∃ pre t target operands w, bytes = toLeBytes w ∧ SymbolicLast pre t i
      ∧ resolveTarget t ctx.blockAddresses ctx.container = .ok target
      ∧ TargetLast pre target operands
      ∧ encodeInstruction ⟨l.address, i.mnemonic, operands⟩ = .ok w := by
  rw [emitEncoded, hstrategy] at h
  obtain ⟨operands, hoperands, h⟩ := bind_eq_ok.mp h
  split at h
  · cases h
  · next henc =>
    cases h
    obtain ⟨w, hw, rfl⟩ := aarchEncode_ok henc
    obtain ⟨pre, target, hlast⟩ := targetLast_of_encode_branch hrow hw
    obtain ⟨t, hsym, hlower⟩ := symbolicLast_of_forall₂
      (R := fun d o => lowerOperand (E := EncodeError) aarch64 ctx.blockAddresses ctx.container o
        = .ok d)
      (fun d o hd hR => by
        rcases lowerOperand_symbolic hR with rfl | ⟨_, _, -, rfl, -⟩ | ⟨_, _, -, rfl⟩
        · rfl
        · cases hd
        · cases hd)
      (fun o hR => by
        rcases lowerOperand_symbolic hR with rfl | ⟨t, _, rfl, -, -⟩ | ⟨_, _, -, hd⟩
        · exact .inl rfl
        · exact .inr ⟨t, rfl⟩
        · cases hd)
      (lowerOperands_forall₂ hoperands) hlast hsymbolic
    have hresolve : resolveTarget t ctx.blockAddresses ctx.container = .ok target := by
      rcases lowerOperand_symbolic hlower with hbad | ⟨_, _, ht, hd, hresolve⟩ | ⟨_, _, hbad, -⟩
      · cases hbad
      · cases ht
        cases hd
        exact hresolve
      · cases hbad
    exact ⟨pre, t, target, operands, w, rfl, hsym, hresolve, hlast, hw⟩

/-- A branch encoded as it is. -/
theorem branchMeans_normal (hrow : branchRow i.mnemonic = some row)
    (hsymbolic : i.pcRelativeTarget.isSome) (hstrategy : l.strategy = .normal)
    {bytes : List Byte} (h : emitEncoded aarch64 i l ctx = .ok bytes) (rest : List Byte) :
    BranchMeans ctx i l (bytes ++ rest) ↔
      ((i.mnemonic = .tbz ∨ i.mnemonic = .tbnz) →
        ∀ r, .register r ∈ plainOperands i → r.regClass = .x) := by
  obtain ⟨pre, t, target, operands, w, rfl, hsym, hresolve, hlast, hw⟩ :=
    exists_encodedBranch hrow hsymbolic hstrategy h
  have hpre : nonTargets (plainOperands i) = pre := by
    rw [hsym.plainOperands]
    exact List.filter_eq_self.mpr (fun o ho => by rw [hsym.2 o ho]; rfl)
  have hdecodes := decodesTo_of_encode (plainOperands i) hrow hlast hpre hw
  rw [hsym.plainOperands, ← shownOperand_self_iff, ← hdecodes]
  constructor
  · rintro ⟨t', target', ht', htarget', ⟨w', hw', hd'⟩ | ⟨hbad, -⟩⟩
    · rw [hsym.pcRelativeTarget] at ht'
      cases ht'
      rw [hresolve] at htarget'
      cases htarget'
      rw [leWord?_toLeBytes_append] at hw'
      cases hw'
      exact hd'
    · rw [hstrategy] at hbad
      cases hbad
  · intro hd
    exact ⟨t, target, hsym.pcRelativeTarget, hresolve,
      .inl ⟨w, leWord?_toLeBytes_append w rest, hd⟩⟩

theorem drop_toLeBytes_append (w : Word) (rest : List Byte) :
    (toLeBytes w ++ rest).drop 4 = rest := by
  rw [List.drop_append, toLeBytes_length]
  rfl

/-- A branch encoded in the widened form. -/
theorem branchMeans_widened (hstrategy : l.strategy = .invertedConditional) {bytes : List Byte}
    (h : emitEncoded aarch64 i l ctx = .ok bytes) (rest : List Byte) :
    BranchMeans ctx i l (bytes ++ rest) ↔
      ((i.mnemonic = .tbz ∨ i.mnemonic = .tbnz) →
        ∀ r, .register r ∈ plainOperands i → r.regClass = .x) := by
  rw [emitEncoded, hstrategy] at h
  cases ht : i.pcRelativeTarget with
  | none => rw [ht] at h; cases h
  | some t =>
    cases htarget : resolveTarget t ctx.blockAddresses ctx.container with
    | error e => simp only [ht, htarget] at h; cases h
    | ok target =>
      simp only [ht, htarget] at h
      split at h
      · cases h
      · next henc =>
        cases h
        replace henc : aarchEncodeWidenedConditional i.mnemonic (plainOperands i) l.address target
            = .ok bytes := henc
        unfold aarchEncodeWidenedConditional at henc
        split at henc
        · cases henc
        · next inverted hinverted =>
          obtain ⟨w₁, hw₁, henc⟩ := bind_eq_ok.mp henc
          obtain ⟨w₂, hw₂, henc⟩ := bind_eq_ok.mp henc
          cases henc
          obtain ⟨hne, ⟨row, hrow⟩, htest⟩ := invert_branch hinverted
          obtain ⟨pre, skip, hlast⟩ := targetLast_of_encode_branch hrow hw₁
          have hskip : skip = l.address + 8 := by
            have hdirect := directBranchTarget_targetLast hlast
            rw [directBranchTarget_invertedOperands] at hdirect
            exact (Option.some.inj hdirect).symm
          have hpre : nonTargets (plainOperands i) = pre := by
            rw [← nonTargets_targetLast hlast, nonTargets_invertedOperands]
          have hfirst := decodesTo_of_encode (plainOperands i) hrow hlast hpre hw₁
          have hfarLast : TargetLast [] target [.branchTarget target] := ⟨rfl, by simp⟩
          have hfar : DecodesTo (l.address + 4) w₂ .b [] target :=
            (decodesTo_of_encode [] rfl hfarLast rfl hw₂).mpr (by simp)
          rw [hskip, shownOperand_self_iff, htest, ← hpre] at hfirst
          simp only [register_mem_nonTargets] at hfirst
          rw [← hfirst, List.append_assoc]
          constructor
          · rintro ⟨t', target', ht', htarget', ⟨w, hw, d, hd, hmnemonic, -⟩ |
              ⟨-, inv, w, w', hinv, hw, -, hd, -⟩⟩
            · -- the first word is the inverted branch, not the branch itself
              rw [leWord?_toLeBytes_append] at hw
              cases hw
              rw [decodeInstruction_of_encode_branch hrow hw₁] at hd
              cases hd
              exact absurd hmnemonic hne
            · rw [hinverted] at hinv
              cases hinv
              rw [leWord?_toLeBytes_append] at hw
              cases hw
              exact hd
          · intro hd
            refine ⟨t, target, ht, htarget, .inr ⟨hstrategy, inverted, w₁, w₂, hinverted,
              leWord?_toLeBytes_append w₁ _, ?_, hd, hfar⟩⟩
            rw [drop_toLeBytes_append]
            exact leWord?_toLeBytes_append w₂ rest

/-- A branch op that is not emitted as a relocation means the right thing
exactly when nothing about the op keeps it from being decoded back. -/
theorem emitInstruction_branchMeans_iff (hrow : branchRow i.mnemonic = some row)
    (hsymbolic : i.pcRelativeTarget.isSome) {piece : EmitOutput}
    (h : emitInstruction aarch64 i l ctx .empty = .ok piece) (hreloc : piece.relocations = [])
    (rest : List Byte) :
    BranchMeans ctx i l (piece.bytes ++ rest) ↔ BranchCodable ctx i l.address := by
  cases emitInstruction_iff.mp h with
  | verbatim reloc raw hreloc hkeeps hraw hout =>
    rw [hout]
    exact branchMeans_verbatim hrow hsymbolic hraw rest
  | placeholder symbol kind hreloc' hnot hout =>
    unfold emitWithRelocation at hout
    split at hout
    · cases hout
    · split at hout
      · cases hout
      · cases hout
        simp at hreloc
  | encoded bytes hreloc' hnot hbytes hout =>
    have hsource := source_of_notCopied hnot
    rw [hout]
    have hcodable : BranchCodable ctx i l.address ↔
        ((i.mnemonic = .tbz ∨ i.mnemonic = .tbnz) →
          ∀ r, .register r ∈ plainOperands i → r.regClass = .x) :=
      ⟨fun hc => hc.register, fun hr => ⟨hr, hsource⟩⟩
    rw [hcodable]
    cases hs : l.strategy with
    | normal => exact branchMeans_normal hrow hsymbolic hs hbytes rest
    | invertedConditional => exact branchMeans_widened hs hbytes rest

/-! ### The target alone. -/

/-- The first word branches to an address. -/
def BranchesTo (address : U64) (bytes : List Byte) (target : U64) : Prop :=
  ∃ w d, leWord? bytes = some w ∧ decodeInstruction address w = .ok d
    ∧ directBranchTarget d.operands = some target

/-- The word an instruction was lifted from, if it still stands there, decodes. -/
def SourceDecodes (container : Option Container) (i : AarchInstruction) (address : U64) : Prop :=
  ∀ c word, container = some c → i.originalAddress = some address →
    c.textWordAt address = some word → ∃ d, decodeInstruction address word = .ok d

theorem branchesTo_verbatim (hrow : branchRow i.mnemonic = some row) {t : Target}
    (ht : i.pcRelativeTarget = some t) {raw : List Byte}
    (h : verbatimBytes aarch64 i l.address ctx.blockAddresses ctx.container = some raw)
    (rest : List Byte) :
    (∃ target, resolveTarget t ctx.blockAddresses ctx.container = .ok target
        ∧ BranchesTo l.address (raw ++ rest) target)
      ↔ SourceDecodes ctx.container i l.address := by
  obtain ⟨c, original, word, hc, hi, hword⟩ := exists_word_of_verbatimBytes h
  rw [hc] at h ⊢
  cases hdecode : decodeInstruction original word with
  | error e =>
    rw [verbatimBytes_undecodable hi hword hdecode] at h
    split at h
    · cases h
    · next hplace =>
      cases h
      rw [not_not] at hplace
      subst hplace
      constructor
      · rintro ⟨target, -, w, d, hw, hd, -⟩
        rw [leWord?_toLeBytes_append] at hw
        cases hw
        rw [hdecode] at hd
        cases hd
      · intro hsource
        obtain ⟨d, hd⟩ := hsource c word rfl hi hword
        rw [hdecode] at hd
        cases hd
  | ok d =>
    obtain ⟨pre, t', target, rfl, rfl, -, hsym, hresolve, hlast, -⟩ :=
      exists_copiedBranch hrow (ht ▸ rfl) hi hword hdecode h
    rw [hsym.pcRelativeTarget] at ht
    cases ht
    refine iff_of_true ?_ ?_
    · exact ⟨target, hresolve, word, d, leWord?_toLeBytes_append word rest, hdecode,
        directBranchTarget_targetLast hlast⟩
    · intro c' word' hc' _ hword'
      cases hc'
      rw [hword] at hword'
      cases hword'
      exact ⟨d, hdecode⟩

/-- A branch that is neither widened nor a relocation reaches its resolved
target exactly when no stale word was copied in its place. -/
theorem emitInstruction_branchesTo_iff (hrow : branchRow i.mnemonic = some row) {t : Target}
    (ht : i.pcRelativeTarget = some t) (hstrategy : l.strategy = .normal) {bytes : List Byte}
    (h : emitInstruction aarch64 i l ctx .empty = .ok ⟨bytes, []⟩) (rest : List Byte) :
    (∃ target, resolveTarget t ctx.blockAddresses ctx.container = .ok target
        ∧ BranchesTo l.address (bytes ++ rest) target)
      ↔ SourceDecodes ctx.container i l.address := by
  have hsymbolic : i.pcRelativeTarget.isSome := by rw [ht]; rfl
  cases emitInstruction_iff.mp h with
  | verbatim reloc raw hreloc hkeeps hraw hout =>
    cases hout
    exact branchesTo_verbatim hrow ht hraw rest
  | placeholder symbol kind hreloc hnot hout =>
    unfold emitWithRelocation at hout
    split at hout
    · cases hout
    · split at hout
      · cases hout
      · cases hout
  | encoded encoded hreloc hnot hbytes hout =>
    obtain ⟨pre, t', target, operands, w, rfl, hsym, hresolve, hlast, hw⟩ :=
      exists_encodedBranch hrow hsymbolic hstrategy hbytes
    cases hout
    rw [hsym.pcRelativeTarget] at ht
    cases ht
    refine iff_of_true ?_ (source_of_notCopied hnot)
    exact ⟨target, hresolve, w, _, leWord?_toLeBytes_append w rest,
      decodeInstruction_of_encode_branch hrow hw,
      directBranchTarget_targetLast (hlast.map_shown i.mnemonic)⟩

/-! ## §5. Branches of a plan. -/

/-- Every op before a position reserves four bytes for each instruction it was
built from, and emit keeps the size layout chose for it. -/
def KeptBefore (plan : AarchPlan) (layout : Layout) (container : Option Container)
    (b i : Nat) : Prop :=
  ∀ b' i' op l, OpAt plan layout b' i' op l → (b' < b ∨ (b' = b ∧ i' < i)) →
    FourByteOp op ∧ KeepsReservedSize (layout.context container) op l

/-- At the branch's layout address the output decodes to what the branch means:
the ops before it fill the output up to that address, and `BranchMeans` holds
of what follows. -/
def BranchAsLaidOut (plan : AarchPlan) (layout : Layout) (container : Option Container)
    (out : EmitOutput) (b i : Nat) (instr : AarchInstruction) (l : InstructionLayout) : Prop :=
  ∃ before rest,
    emitBlocks aarch64 (layout.context container) (plan.blocksBefore b i)
      layout.instructionLayouts .empty = .ok before ∧
    out.bytes = before.bytes ++ rest ∧
    l.address = layout.baseAddress + BitVec.ofNat 64 before.bytes.length ∧
    BranchMeans (layout.context container) instr l rest

/-- **Branches keep their meaning through layout and emit**, when the ops
before the branch keep their sizes, exactly when the branch is codable. -/
theorem emit_branch_iff (plan : AarchPlan) (base : U64) (container : Option Container)
    (layout : Layout) (out : EmitOutput)
    (hlayout : layOut aarch64 plan base container = .ok layout)
    (hemit : emit aarch64 plan layout container = .ok out) (b i : Nat)
    (instr : AarchInstruction) (l : InstructionLayout)
    (hat : OpAt plan layout b i (.instruction instr) l)
    (hbranch : instr.mnemonic ∈ branchMnemonics) (hsymbolic : instr.pcRelativeTarget.isSome)
    (hreloc : ∀ piece, emitInstruction aarch64 instr l (layout.context container) .empty
      = .ok piece → piece.relocations = [])
    (hkept : KeptBefore plan layout container b i) :
    BranchAsLaidOut plan layout container out b i instr l ↔
      BranchCodable (layout.context container) instr l.address := by
  obtain ⟨row, hrow⟩ := branchRow_of_mem hbranch
  have hlaid := layOut_laidOut hlayout
  obtain ⟨before, piece, hbefore, hpiece, ⟨rest, hout⟩, haddress⟩ :=
    emit_position aarch64_macroFrame hlaid hemit hat (fun b' i' op l' hat' hlt =>
      (fits_iff_of_opAt hlayout hemit hat' (hkept b' i' op l' hat' hlt).1).mpr
        (hkept b' i' op l' hat' hlt).2)
  have hout' : out.bytes = before.bytes ++ (piece.bytes ++ rest) := by
    rw [← hout, EmitOutput.bytes_append, List.append_assoc]
  rw [← emitInstruction_branchMeans_iff hrow hsymbolic hpiece (hreloc piece hpiece) rest]
  constructor
  · rintro ⟨before', rest', hbefore', hsplit, -, hmeans⟩
    rw [hbefore] at hbefore'
    cases hbefore'
    rw [hout', List.append_cancel_left_eq] at hsplit
    rw [hsplit]
    exact hmeans
  · intro hmeans
    exact ⟨before, _, hbefore, hout', haddress, hmeans⟩

/-! ## §6. A branch that is moved off its address. -/

/-- A branch to block 1. -/
def loopBranch : AarchInstruction := .new .b [.branch (.block ⟨1⟩)] none

/-- The branch to `.fini` that layout widens and emit does not, then a loop. -/
def shiftedLoopPlan : AarchPlan :=
  ⟨[⟨⟨0⟩, [.instruction branchToFini]⟩, ⟨⟨1⟩, [.instruction loopBranch]⟩]⟩

def shiftedLoopLayout : Layout where
  baseAddress := 0x1000
  totalSize := 12
  blockAddresses := [0x1000, 0x1008]
  instructionLayouts := [[⟨0x1000, 8, .invertedConditional⟩], [⟨0x1008, 4, .normal⟩]]

def shiftedLoopOutput : EmitOutput :=
  { branchToFiniOutput with bytes := branchToFiniOutput.bytes ++ toLeBytes 0x14000000#32 }

theorem layOut_shiftedLoop :
    layOut aarch64 shiftedLoopPlan 0x1000 (some finiImage) = .ok shiftedLoopLayout := by
  decide

theorem emitInstruction_loopBranch (out : EmitOutput) :
    emitInstruction aarch64 loopBranch ⟨0x1008, 4, .normal⟩
        (shiftedLoopLayout.context (some finiImage)) out
      = .ok { out with bytes := out.bytes ++ toLeBytes 0x14000000#32 } := by
  have hencode : encodeInstruction ⟨0x1008, .b, [.branchTarget 0x1008]⟩ = .ok 0x14000000#32 := by
    rw [encodeInstruction, opcodesForMnemonic_branch rfl]
    decide
  exact emitInstruction_iff.mpr
    (.encoded (toLeBytes 0x14000000#32) rfl rfl (emitEncoded_of_word rfl rfl hencode) rfl)

theorem emitInstruction_shiftedBranch :
    emitInstruction aarch64 branchToFini ⟨0x1000, 8, .invertedConditional⟩
        (shiftedLoopLayout.context (some finiImage)) .empty = .ok branchToFiniOutput := by
  have hplaceholder : emitWithRelocation aarch64 branchToFini 0x1000 ⟨0⟩ .branch .empty
      = .ok branchToFiniOutput := emitWithRelocation_of_word rfl encode_branchToFini .empty
  have hnot : verbatimBytes aarch64 branchToFini 0x1000 [0x1000, 0x1008] (some finiImage)
      = none := by
    decide +kernel
  exact emitInstruction_iff.mpr (.placeholder ⟨0⟩ .branch rfl (.inr hnot) hplaceholder)

/-- The output before the loop: one word, where layout reserved two. -/
theorem emit_before_loopBranch :
    emitBlocks aarch64 (shiftedLoopLayout.context (some finiImage))
      (shiftedLoopPlan.blocksBefore 1 0) shiftedLoopLayout.instructionLayouts .empty
        = .ok branchToFiniOutput := by
  have hblocks : shiftedLoopPlan.blocksBefore 1 0
      = [⟨⟨0⟩, [.instruction branchToFini]⟩, ⟨⟨1⟩, []⟩] := rfl
  have hlayouts : shiftedLoopLayout.instructionLayouts
      = [[⟨0x1000, 8, .invertedConditional⟩], [⟨0x1008, 4, .normal⟩]] := rfl
  rw [hblocks, hlayouts, emitBlocks_cons_single emitInstruction_shiftedBranch]
  rfl

theorem emit_shiftedLoop :
    emit aarch64 shiftedLoopPlan shiftedLoopLayout (some finiImage) = .ok shiftedLoopOutput := by
  have hblocks : shiftedLoopPlan.blocks
      = [⟨⟨0⟩, [.instruction branchToFini]⟩, ⟨⟨1⟩, [.instruction loopBranch]⟩] := rfl
  have hlayouts : shiftedLoopLayout.instructionLayouts
      = [[⟨0x1000, 8, .invertedConditional⟩], [⟨0x1008, 4, .normal⟩]] := rfl
  rw [emit, hblocks, hlayouts, emitBlocks_cons_single emitInstruction_shiftedBranch,
    emitBlocks_cons_single (emitInstruction_loopBranch _)]
  rfl

/-- The loop is emitted without a relocation, and no word stands at the address
layout gave it. -/
theorem shiftedLoop_lost :
    layOut aarch64 shiftedLoopPlan 0x1000 (some finiImage) = .ok shiftedLoopLayout ∧
      emit aarch64 shiftedLoopPlan shiftedLoopLayout (some finiImage) = .ok shiftedLoopOutput ∧
      OpAt shiftedLoopPlan shiftedLoopLayout 1 0 (.instruction loopBranch) ⟨0x1008, 4, .normal⟩ ∧
      emitInstruction aarch64 loopBranch ⟨0x1008, 4, .normal⟩
          (shiftedLoopLayout.context (some finiImage)) .empty
        = .ok ⟨toLeBytes 0x14000000#32, []⟩ ∧
      leWord? (shiftedLoopOutput.bytes.drop (0x1008#64 - 0x1000#64).toNat) = none ∧
      ¬ BranchAsLaidOut shiftedLoopPlan shiftedLoopLayout (some finiImage) shiftedLoopOutput 1 0
        loopBranch ⟨0x1008, 4, .normal⟩ := by
  refine ⟨layOut_shiftedLoop, emit_shiftedLoop, ⟨_, _, rfl, rfl, rfl, rfl⟩,
    emitInstruction_loopBranch .empty, by decide, ?_⟩
  rintro ⟨before, rest, hbefore, -, haddress, -⟩
  rw [emit_before_loopBranch] at hbefore
  cases hbefore
  revert haddress
  decide

/-- Two branches to block 1, neither of them widened. -/
def keptLoopPlan : AarchPlan :=
  ⟨[⟨⟨0⟩, [.instruction loopBranch]⟩, ⟨⟨1⟩, [.instruction loopBranch]⟩]⟩

def keptLoopLayout : Layout where
  baseAddress := 0x1000
  totalSize := 8
  blockAddresses := [0x1000, 0x1004]
  instructionLayouts := [[⟨0x1000, 4, .normal⟩], [⟨0x1004, 4, .normal⟩]]

def keptLoopOutput : EmitOutput := ⟨toLeBytes 0x14000001#32 ++ toLeBytes 0x14000000#32, []⟩

theorem emitInstruction_keptLoop {address : U64} {w : Word}
    (hencode : encodeInstruction ⟨address, .b, [.branchTarget 0x1004]⟩ = .ok w)
    (out : EmitOutput) :
    emitInstruction aarch64 loopBranch ⟨address, 4, .normal⟩ (keptLoopLayout.context none) out
      = .ok { out with bytes := out.bytes ++ toLeBytes w } :=
  emitInstruction_iff.mpr
    (.encoded (toLeBytes w) rfl rfl (emitEncoded_of_word rfl rfl hencode) rfl)

theorem encode_keptLoop :
    encodeInstruction ⟨0x1000, .b, [.branchTarget 0x1004]⟩ = .ok 0x14000001#32 ∧
      encodeInstruction ⟨0x1004, .b, [.branchTarget 0x1004]⟩ = .ok 0x14000000#32 := by
  constructor
  · rw [encodeInstruction, opcodesForMnemonic_branch rfl]
    decide
  · rw [encodeInstruction, opcodesForMnemonic_branch rfl]
    decide

theorem emit_keptLoop :
    emit aarch64 keptLoopPlan keptLoopLayout none = .ok keptLoopOutput := by
  have hblocks : keptLoopPlan.blocks
      = [⟨⟨0⟩, [.instruction loopBranch]⟩, ⟨⟨1⟩, [.instruction loopBranch]⟩] := rfl
  have hlayouts : keptLoopLayout.instructionLayouts
      = [[⟨0x1000, 4, .normal⟩], [⟨0x1004, 4, .normal⟩]] := rfl
  rw [emit, hblocks, hlayouts, emitBlocks_cons_single (emitInstruction_keptLoop encode_keptLoop.1 _),
    emitBlocks_cons_single (emitInstruction_keptLoop encode_keptLoop.2 _)]
  rfl

theorem keptBefore_keptLoop : KeptBefore keptLoopPlan keptLoopLayout none 1 0 := by
  rintro b' i' op l ⟨block, ls, hblock, hop, hls, hl⟩ hlt
  have hb : b' = 0 := by omega
  subst hb
  cases hblock
  cases hls
  cases i' with
  | zero =>
    cases hop
    cases hl
    exact ⟨rfl, fun hbad => by cases hbad⟩
  | succ i' => cases hop

/-- The second branch of a plan in which nothing moves. -/
theorem keptLoop_branch_iff :
    BranchAsLaidOut keptLoopPlan keptLoopLayout none keptLoopOutput 1 0 loopBranch
        ⟨0x1004, 4, .normal⟩ ↔
      BranchCodable (keptLoopLayout.context none) loopBranch 0x1004 :=
  emit_branch_iff keptLoopPlan 0x1000 none keptLoopLayout keptLoopOutput (by decide)
    emit_keptLoop 1 0 loopBranch ⟨0x1004, 4, .normal⟩ ⟨_, _, rfl, rfl, rfl, rfl⟩ (by decide) rfl
    (fun piece hpiece => by
      rw [emitInstruction_keptLoop encode_keptLoop.2] at hpiece
      cases hpiece
      rfl)
    keptBefore_keptLoop

end Armv8Encode

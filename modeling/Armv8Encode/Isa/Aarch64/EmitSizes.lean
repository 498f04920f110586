/-
  Armv8Encode.Isa.Aarch64.EmitSizes — layout and emit at AArch64.

  How many bytes each way of emitting an op appends: a verbatim copy, a
  relocation placeholder and a normal encoding are one word, the widened form
  is two, a macro copy is one word per original instruction and a macro
  expansion is two words.  Comparing that with what layout reserved gives the
  exact condition under which every op lands where layout put it.
-/
import Armv8Encode.Lib.Except
import Armv8Encode.Rewrite.EmitSpec
import Armv8Encode.Isa.Aarch64.BranchCodec
import Armv8Encode.Isa.Aarch64.IsaImpl

namespace Armv8Encode

open Lib

/-! ## §1. Macros only append. -/

theorem EmitOutput.push_eq_append (out : EmitOutput) (bytes : List Byte)
    (reloc : Option (RelocationKind × SymbolId)) :
    out.push bytes reloc = out.append (EmitOutput.empty.push bytes reloc) := by
  cases reloc <;> simp [EmitOutput.push, EmitOutput.append, EmitOutput.empty]

theorem EmitOutput.append_push (a b : EmitOutput) (bytes : List Byte)
    (reloc : Option (RelocationKind × SymbolId)) :
    (a.append b).push bytes reloc = a.append (b.push bytes reloc) := by
  rw [push_eq_append, append_assoc, ← push_eq_append]

theorem emitLoadAddress_append (m : AarchMacro) (here : U64) (ctx : EmitContext)
    (out : EmitOutput) :
    emitLoadAddress m here ctx out = (emitLoadAddress m here ctx .empty).map out.append := by
  unfold emitLoadAddress
  rw [map_bind]
  refine bind_congr fun reloc => ?_
  cases reloc with
  | some symbol =>
    rw [map_bind]
    refine bind_congr fun adrp => ?_
    rw [map_bind]
    refine bind_congr fun add => ?_
    rw [EmitOutput.push_eq_append out, EmitOutput.append_push]
    rfl
  | none =>
    cases macroResolveTarget m.target ctx.blockAddresses ctx.container with
    | none => rfl
    | some target =>
      simp only
      rw [map_bind]
      refine bind_congr fun adrp => ?_
      rw [map_bind]
      refine bind_congr fun add => ?_
      rw [EmitOutput.push_eq_append out, EmitOutput.append_push]
      rfl

theorem emitAccessValue_append (m : AarchMacro) (here : U64) (ctx : EmitContext)
    (out : EmitOutput) :
    emitAccessValue m here ctx out = (emitAccessValue m here ctx .empty).map out.append := by
  unfold emitAccessValue
  split
  · next originalAdrp originalCompanion _ =>
    rw [map_bind]
    refine bind_congr fun reloc => ?_
    cases reloc with
    | some symbol =>
      rw [map_bind]
      refine bind_congr fun adrp => ?_
      rw [map_bind]
      refine bind_congr fun companion => ?_
      cases ldstAccessWidthBytes originalCompanion with
      | none => rfl
      | some width =>
        rw [EmitOutput.push_eq_append out]
        simp only
        rw [EmitOutput.append_push]
        rfl
    | none =>
      rw [map_bind]
      refine bind_congr fun adrp => ?_
      rw [map_bind]
      refine bind_congr fun companion => ?_
      rw [EmitOutput.push_eq_append out, EmitOutput.append_push]
      rfl
  · rfl

theorem aarch64_macroFrame : aarch64.MacroFrame := by
  intro m here ctx out
  show emitAarchMacro m here ctx out = (emitAarchMacro m here ctx .empty).map out.append
  unfold emitAarchMacro
  cases verbatimMacro m here ctx with
  | some raw =>
    simp only [Except.map]
    rw [EmitOutput.push_eq_append out]
  | none =>
    cases m.kind with
    | loadAddress => exact emitLoadAddress_append m here ctx out
    | accessValue => exact emitAccessValue_append m here ctx out

/-! ## §2. Bytes appended by an instruction. -/

theorem takeExact_length {n : Nat} {bytes raw : List Byte} (h : takeExact n bytes = some raw) :
    raw.length = n := by
  unfold takeExact at h
  split at h
  · next hn =>
    cases h
    rw [List.length_take]
    omega
  · cases h

theorem verbatimBytes_length {i : AarchInstruction} {address : U64} {blockAddresses : List U64}
    {container : Option Container} {raw : List Byte}
    (h : verbatimBytes aarch64 i address blockAddresses container = some raw) :
    raw.length = 4 := by
  unfold verbatimBytes at h
  simp only [bind, Option.bind_eq_some_iff] at h
  obtain ⟨original, -, c, -, tail, -, h⟩ := h
  split at h
  · split at h
    · cases h
    · exact takeExact_length h
  · split at h
    · cases h
    · split at h
      · cases h
      · split at h
        · cases h
        · exact takeExact_length h

theorem aarchEncode_length {mnemonic : Aarch64Mnemonic} {operands : List DecodedOperand}
    {address : U64} {bytes : List Byte} (h : aarchEncode mnemonic operands address = .ok bytes) :
    bytes.length = 4 := by
  unfold aarchEncode at h
  cases hw : encodeInstruction ⟨address, mnemonic, operands⟩ with
  | error e => rw [hw] at h; cases h
  | ok word =>
    rw [hw] at h
    cases h
    rfl

theorem aarchEncodeWidenedConditional_length {mnemonic : Aarch64Mnemonic}
    {template : List DecodedOperand} {here farTarget : U64} {bytes : List Byte}
    (h : aarchEncodeWidenedConditional mnemonic template here farTarget = .ok bytes) :
    bytes.length = 8 := by
  unfold aarchEncodeWidenedConditional at h
  split at h
  · cases h
  · next inverted _ =>
    cases h1 : encodeInstruction ⟨here, inverted, invertedOperands template (here + 8)⟩ with
    | error e => rw [h1] at h; cases h
    | ok w1 =>
      cases h2 : encodeInstruction ⟨here + 4, .b, [.branchTarget farTarget]⟩ with
      | error e => rw [h1, h2] at h; cases h
      | ok w2 =>
        rw [h1, h2] at h
        cases h
        rfl

theorem emitWithRelocation_length {i : AarchInstruction} {here : U64} {symbol : SymbolId}
    {kind : PcRelKind} {piece : EmitOutput}
    (h : emitWithRelocation aarch64 i here symbol kind .empty = .ok piece) :
    piece.bytes.length = 4 := by
  unfold emitWithRelocation at h
  split at h
  · cases h
  · split at h
    · cases h
    · next henc =>
      cases h
      exact aarchEncode_length henc

theorem aarchEncode_of_word {m : Aarch64Mnemonic} {operands : List DecodedOperand} {address : U64}
    {w : Word} (h : encodeInstruction ⟨address, m, operands⟩ = .ok w) :
    aarch64.encode m operands address = .ok (toLeBytes w) := by
  show aarchEncode m operands address = _
  rw [aarchEncode, h]
  rfl

theorem emitWithRelocation_of_word {i : AarchInstruction} {here : U64} {symbol : SymbolId}
    {kind : PcRelKind} {relocKind : RelocationKind} {w : Word}
    (hkind : aarchRelocationKindFor i.mnemonic kind = some relocKind)
    (h : encodeInstruction ⟨here, i.mnemonic, i.operands.map (placeholderOperand aarch64 here)⟩
      = .ok w) (out : EmitOutput) :
    emitWithRelocation aarch64 i here symbol kind out = .ok
      { bytes := out.bytes ++ toLeBytes w
        relocations := out.relocations ++
          [⟨BitVec.ofNat 64 out.bytes.length, relocKind, symbol, 0⟩] } := by
  have hkind' : aarch64.relocationKindFor i.mnemonic kind = some relocKind := hkind
  rw [emitWithRelocation, hkind']
  simp only [aarchEncode_of_word h]

theorem emitEncoded_of_word {i : AarchInstruction} {l : InstructionLayout} {ctx : EmitContext}
    {operands : List DecodedOperand} {w : Word} (hs : l.strategy = .normal)
    (hops : lowerOperands (E := EncodeError) aarch64 ctx.blockAddresses ctx.container i.operands
      = .ok operands) (h : encodeInstruction ⟨l.address, i.mnemonic, operands⟩ = .ok w) :
    emitEncoded aarch64 i l ctx = .ok (toLeBytes w) := by
  rw [emitEncoded, hs]
  simp only [hops, bind, Except.bind, aarchEncode_of_word h]

theorem emitEncoded_length {i : AarchInstruction} {l : InstructionLayout} {ctx : EmitContext}
    {bytes : List Byte} (h : emitEncoded aarch64 i l ctx = .ok bytes) :
    bytes.length = match l.strategy with
      | .normal => 4
      | .invertedConditional => 8 := by
  unfold emitEncoded at h
  cases hs : l.strategy with
  | normal =>
    simp only [hs] at h
    cases hops : lowerOperands (E := EncodeError) aarch64 ctx.blockAddresses ctx.container
        i.operands with
    | error e => rw [hops] at h; cases h
    | ok operands =>
      simp only [hops, bind, Except.bind] at h
      split at h
      · cases h
      · next henc =>
        cases h
        exact aarchEncode_length henc
  | invertedConditional =>
    simp only [hs] at h
    split at h
    · cases h
    · split at h
      · cases h
      · split at h
        · cases h
        · next henc =>
          cases h
          exact aarchEncodeWidenedConditional_length henc

/-- Neither a relocation nor a verbatim copy pre-empts the encoding. -/
def EncodesOperands (ctx : EmitContext) (i : AarchInstruction) (address : U64) : Prop :=
  ctx.relocationOf (E := EncodeError) i = .ok none ∧
    verbatimBytes aarch64 i address ctx.blockAddresses ctx.container = none

/-- An instruction appends the widened pair exactly when layout widened it and
nothing pre-empts the encoding; otherwise it appends one word. -/
theorem emitInstruction_length {i : AarchInstruction} {l : InstructionLayout} {ctx : EmitContext}
    {piece : EmitOutput} (h : emitInstruction aarch64 i l ctx .empty = .ok piece) :
    (l.strategy = .normal ∧ piece.bytes.length = 4) ∨
      (l.strategy = .invertedConditional ∧ EncodesOperands ctx i l.address
        ∧ piece.bytes.length = 8) ∨
      (l.strategy = .invertedConditional ∧ ¬ EncodesOperands ctx i l.address
        ∧ piece.bytes.length = 4) := by
  have hword : piece.bytes.length = 4 → ¬ EncodesOperands ctx i l.address →
      (l.strategy = .normal ∧ piece.bytes.length = 4) ∨
        (l.strategy = .invertedConditional ∧ EncodesOperands ctx i l.address
          ∧ piece.bytes.length = 8) ∨
        (l.strategy = .invertedConditional ∧ ¬ EncodesOperands ctx i l.address
          ∧ piece.bytes.length = 4) := by
    intro hlen hnot
    cases hs : l.strategy with
    | normal => exact .inl ⟨rfl, hlen⟩
    | invertedConditional => exact .inr (.inr ⟨rfl, hnot, hlen⟩)
  cases emitInstruction_iff.mp h with
  | verbatim reloc raw hreloc hkeeps hraw hout =>
    rw [hout] at hword ⊢
    refine hword (by simpa using verbatimBytes_length hraw) ?_
    rintro ⟨-, hnone⟩
    rw [hnone] at hraw
    cases hraw
  | placeholder symbol kind hreloc hnot hout =>
    refine hword (emitWithRelocation_length hout) ?_
    rintro ⟨hnone, -⟩
    rw [hreloc] at hnone
    cases hnone
  | encoded bytes hreloc hnot hbytes hout =>
    have hlen := emitEncoded_length hbytes
    rw [hout]
    cases hs : l.strategy with
    | normal =>
      rw [hs] at hlen
      exact .inl ⟨rfl, by simpa using hlen⟩
    | invertedConditional =>
      rw [hs] at hlen
      exact .inr (.inl ⟨rfl, ⟨hreloc, hnot⟩, by simpa using hlen⟩)

/-! ## §3. Bytes appended by a macro. -/

theorem verbatimMacroWords_length {blockAddresses : List U64} {c : Container} {s : Section}
    {address : U64} {originals : List AarchInstruction} {raw : List Byte}
    (h : verbatimMacroWords blockAddresses c s address originals = some raw) :
    raw.length = 4 * originals.length := by
  induction originals generalizing address raw with
  | nil =>
    cases h
    rfl
  | cons i rest ih =>
    simp only [verbatimMacroWords, bind, Option.bind_eq_some_iff, Option.some.injEq] at h
    obtain ⟨head, hhead, tail, htail, rfl⟩ := h
    simp only [verbatimMacroWord, bind, Option.bind_eq_some_iff] at hhead
    obtain ⟨_, -, taken, htaken, _, -, hhead⟩ := hhead
    split at hhead
    · cases hhead
    · split at hhead
      · cases hhead
        rw [List.length_append, takeExact_length htaken, ih htail, List.length_cons]
        omega
      · cases hhead

theorem verbatimMacro_length {m : AarchMacro} {here : U64} {ctx : EmitContext} {raw : List Byte}
    (h : verbatimMacro m here ctx = some raw) :
    raw.length = 4 * m.originalInstructions.length := by
  unfold verbatimMacro at h
  simp only [bind, Option.bind_eq_some_iff] at h
  obtain ⟨first, -, h⟩ := h
  split at h
  · cases h
  · simp only [Option.bind_eq_some_iff] at h
    obtain ⟨c, -, h⟩ := h
    split at h
    · cases h
    · simp only [Option.bind_eq_some_iff] at h
      obtain ⟨id, -, s, -, h⟩ := h
      split at h
      · cases h
      · exact verbatimMacroWords_length h

theorem encodeTemplate_length {t : InstructionTemplate} {bytes : List Byte}
    (h : encodeTemplate t = .ok bytes) : bytes.length = 4 := by
  unfold encodeTemplate at h
  split at h
  · cases h
    rfl
  · cases h

theorem push_push_length {bytes₁ bytes₂ : List Byte}
    {reloc₁ reloc₂ : Option (RelocationKind × SymbolId)} (h₁ : bytes₁.length = 4)
    (h₂ : bytes₂.length = 4) :
    ((EmitOutput.empty.push bytes₁ reloc₁).push bytes₂ reloc₂).bytes.length = 8 := by
  simp [EmitOutput.push, EmitOutput.empty, h₁, h₂]

/-- An expanded address load is two words. -/
theorem emitLoadAddress_length {m : AarchMacro} {here : U64} {ctx : EmitContext}
    {piece : EmitOutput} (h : emitLoadAddress m here ctx .empty = .ok piece) :
    piece.bytes.length = 8 := by
  obtain ⟨reloc, -, h⟩ := bind_eq_ok.mp h
  cases reloc with
  | some symbol =>
    obtain ⟨adrp, hadrp, h⟩ := bind_eq_ok.mp h
    obtain ⟨add, hadd, h⟩ := bind_eq_ok.mp h
    cases h
    exact push_push_length (encodeTemplate_length hadrp) (encodeTemplate_length hadd)
  | none =>
    cases htarget : macroResolveTarget m.target ctx.blockAddresses ctx.container with
    | none =>
      rw [htarget] at h
      cases h
    | some target =>
      rw [htarget] at h
      obtain ⟨adrp, hadrp, h⟩ := bind_eq_ok.mp h
      obtain ⟨add, hadd, h⟩ := bind_eq_ok.mp h
      cases h
      exact push_push_length (encodeTemplate_length hadrp) (encodeTemplate_length hadd)

/-- An expanded value access is two words, and was built from two. -/
theorem emitAccessValue_length {m : AarchMacro} {here : U64} {ctx : EmitContext}
    {piece : EmitOutput} (h : emitAccessValue m here ctx .empty = .ok piece) :
    piece.bytes.length = 8 ∧ m.originalInstructions.length = 2 := by
  unfold emitAccessValue at h
  split at h
  · next originalAdrp originalCompanion horiginals =>
    rw [horiginals]
    refine ⟨?_, rfl⟩
    obtain ⟨reloc, -, h⟩ := bind_eq_ok.mp h
    cases reloc with
    | some symbol =>
      obtain ⟨adrp, hadrp, h⟩ := bind_eq_ok.mp h
      obtain ⟨companion, hcompanion, h⟩ := bind_eq_ok.mp h
      split at h
      · cases h
      · cases h
        exact push_push_length (encodeTemplate_length hadrp) (encodeTemplate_length hcompanion)
    | none =>
      obtain ⟨adrp, hadrp, h⟩ := bind_eq_ok.mp h
      obtain ⟨companion, hcompanion, h⟩ := bind_eq_ok.mp h
      cases h
      exact push_push_length (encodeTemplate_length hadrp) (encodeTemplate_length hcompanion)
  · cases h

/-! ## §4. Layout against emit. -/

/-- Every instruction of an op, those inside a macro included, reserves four
bytes of source. -/
def FourByteOp : AarchOp → Prop
  | .instruction i => aarch64.sizeOf i = 4
  | .macroOp m => ∀ i ∈ m.originalInstructions, aarch64.sizeOf i = 4
  | .raw _ => True

def FourByteSources (plan : AarchPlan) : Prop :=
  ∀ block ∈ plan.blocks, ∀ op ∈ block.ops, FourByteOp op

/-- Emit keeps the size layout chose for an op: a widened branch is encoded
from its operands, and a load-address macro that has to be expanded was built
from a pair. -/
def KeepsReservedSize (ctx : EmitContext) (op : AarchOp) (l : InstructionLayout) : Prop :=
  match op with
  | .instruction i => l.strategy = .invertedConditional → EncodesOperands ctx i l.address
  | .macroOp m => m.kind = .loadAddress → verbatimMacro m l.address ctx = none →
      aarch64.macroSourceSize m.originalInstructions = 8
  | .raw _ => True

theorem macroSourceSize_of_four {originals : List AarchInstruction}
    (h : ∀ i ∈ originals, aarch64.sizeOf i = 4) :
    aarch64.macroSourceSize originals = BitVec.ofNat 64 (4 * originals.length) := by
  unfold Isa.macroSourceSize
  induction originals with
  | nil => rfl
  | cons i rest ih =>
    rw [List.map_cons, List.sum_cons, h i List.mem_cons_self,
      ih (fun j hj => h j (List.mem_cons_of_mem _ hj)), List.length_cons, Nat.mul_add,
      BitVec.ofNat_add, BitVec.add_comm]
    rfl

theorem emitAarchMacro_of_emitOp {m : AarchMacro} {l : InstructionLayout} {ctx : EmitContext}
    {piece : EmitOutput}
    (h : emitOp aarch64 (.macroOp m) l ctx .empty = .ok piece) :
    emitAarchMacro m l.address ctx .empty = .ok piece := by
  simp only [emitOp] at h
  split at h
  · cases h
  · next hfused =>
    cases h
    exact hfused

theorem emitOp_of_emitAarchMacro {m : AarchMacro} {l : InstructionLayout} {ctx : EmitContext}
    {piece : EmitOutput} (h : emitAarchMacro m l.address ctx .empty = .ok piece) :
    emitOp aarch64 (.macroOp m) l ctx .empty = .ok piece := by
  have hfused : aarch64.emitMacro m l.address ctx .empty = .ok piece := h
  rw [emitOp, hfused]

/-- An op that emits fits its layout exactly when emit keeps the reserved size. -/
theorem fits_iff_keepsReservedSize {ctx : EmitContext} {op : AarchOp} {l : InstructionLayout}
    (hres : Reserves aarch64 op l) (hfour : FourByteOp op) {piece : EmitOutput} (hpiece : emitOp aarch64 op l ctx .empty = .ok piece) :
    Fits aarch64 ctx op l ↔ KeepsReservedSize ctx op l := by
  have hfits : Fits aarch64 ctx op l ↔ l.size = BitVec.ofNat 64 piece.bytes.length := by
    constructor
    · intro h
      exact h piece hpiece
    · intro h piece' hpiece'
      rw [hpiece] at hpiece'
      cases hpiece'
      exact h
  rw [hfits]
  cases op with
  | raw bytes =>
    cases hpiece
    have hs : l.strategy = .normal := by
      cases hs : l.strategy with
      | normal => rfl
      | invertedConditional =>
        simp only [Reserves, hs] at hres
        obtain ⟨-, i, hi, -⟩ := hres
        cases hi
    simp only [Reserves, hs] at hres
    simp only [KeepsReservedSize, iff_true]
    rw [hres]
    simp [Isa.sourceByteSize]
  | instruction i =>
    simp only [KeepsReservedSize]
    rcases emitInstruction_length hpiece with ⟨hs, hlen⟩ | ⟨hs, henc, hlen⟩ | ⟨hs, henc, hlen⟩
    · simp only [Reserves, hs, Isa.sourceByteSize] at hres
      have hsize : l.size = 4 := hres.trans hfour
      simp [hs, hlen, hsize]
    · simp only [Reserves, hs] at hres
      rw [hlen, hres.1]
      exact ⟨fun _ _ => henc, fun _ => rfl⟩
    · simp only [Reserves, hs] at hres
      rw [hlen, hres.1]
      constructor
      · intro habs
        exact absurd habs (by decide)
      · intro hkeep
        exact absurd (hkeep hs) henc
  | macroOp m =>
    have hs : l.strategy = .normal := by
      cases hs : l.strategy with
      | normal => rfl
      | invertedConditional =>
        simp only [Reserves, hs] at hres
        obtain ⟨-, i, hi, -⟩ := hres
        cases hi
    simp only [Reserves, hs, Isa.sourceByteSize] at hres
    simp only [KeepsReservedSize]
    have hfused := emitAarchMacro_of_emitOp hpiece
    unfold emitAarchMacro at hfused
    cases hv : verbatimMacro m l.address ctx with
    | some raw =>
      rw [hv] at hfused
      cases hfused
      have hlen := verbatimMacro_length hv
      rw [hres, macroSourceSize_of_four hfour]
      simp [EmitOutput.push, hlen]
    | none =>
      rw [hv] at hfused
      cases hk : m.kind with
      | loadAddress =>
        rw [hk] at hfused
        rw [emitLoadAddress_length hfused, hres]
        exact ⟨fun h _ _ => h, fun h => h rfl rfl⟩
      | accessValue =>
        rw [hk] at hfused
        obtain ⟨hlen, htwo⟩ := emitAccessValue_length hfused
        rw [hlen, hres, macroSourceSize_of_four hfour, htwo]
        simp

/-- At every position of a run the op fits exactly when emit keeps its size. -/
theorem fits_iff_of_opAt {plan : AarchPlan} {base : U64} {container : Option Container}
    {layout : Layout} {out : EmitOutput}
    (hlayout : layOut aarch64 plan base container = .ok layout)
    (hemit : emit aarch64 plan layout container = .ok out) {b i : Nat} {op : AarchOp}
    {l : InstructionLayout} (hat : OpAt plan layout b i op l) (hfour : FourByteOp op) :
    Fits aarch64 (layout.context container) op l
      ↔ KeepsReservedSize (layout.context container) op l := by
  have hlaid := layOut_laidOut hlayout
  have hres := hlaid.reserves_of_opAt hat
  obtain ⟨block, ls, hblock, hop, hls, hl⟩ := hat
  obtain ⟨_, _, piece, -, -, -, hpiece, -⟩ :=
    emit_cut aarch64_macroFrame hlaid.reserved.shape hemit hblock hop hls hl
  exact fits_iff_keepsReservedSize hres hfour hpiece

theorem fourByteOp_of_opAt {plan : AarchPlan} {layout : Layout} {b i : Nat} {op : AarchOp}
    {l : InstructionLayout} (hfour : FourByteSources plan) (hat : OpAt plan layout b i op l) :
    FourByteOp op := by
  obtain ⟨block, ls, hblock, hop, -⟩ := hat
  exact hfour block (List.mem_of_getElem? hblock) op (List.mem_of_getElem? hop)

/-- **Layout and emit agree on where every op lands** exactly when emit keeps
the size layout chose for each op. -/
theorem emit_asLaidOut_iff (plan : AarchPlan) (base : U64) (container : Option Container)
    (layout : Layout) (out : EmitOutput) (hfour : FourByteSources plan)
    (hlayout : layOut aarch64 plan base container = .ok layout)
    (hemit : emit aarch64 plan layout container = .ok out) :
    EmittedAsLaidOut aarch64 plan layout container out ↔
      ∀ b i op l, OpAt plan layout b i op l →
        KeepsReservedSize (layout.context container) op l := by
  have hlaid := layOut_laidOut hlayout
  rw [emittedAsLaidOut_iff aarch64_macroFrame hlaid hemit]
  constructor
  · intro h b i op l hat
    exact (fits_iff_of_opAt hlayout hemit hat (fourByteOp_of_opAt hfour hat)).mp (h b i op l hat)
  · intro h b i op l hat
    exact (fits_iff_of_opAt hlayout hemit hat (fourByteOp_of_opAt hfour hat)).mpr (h b i op l hat)

/-! ## §5. A run where they disagree. -/

/-- A linked image: `.text` holds one conditional branch, and a section symbol
names `.fini`, which lies out of the branch's range. -/
def finiImage : Container where
  format := .elf
  architecture := .aarch64
  kind := .executable
  sections := [⟨⟨0⟩, 0x1000, 4, [0x00, 0x00, 0x00, 0x54], .text⟩,
    ⟨⟨1⟩, 0x400000, 4, [0xc0, 0x03, 0x5f, 0xd6], .text⟩]
  symbols := [⟨⟨0⟩, "", 0x400000, .sectionSymbol, some ⟨1⟩, false⟩]
  relocations := []
  elfImage := none
  machoImage := none
  sectionIds := rfl
  symbolIds := rfl
  relocationSections := by simp

/-- The branch of `finiImage`, edited to reach the section symbol. -/
def branchToFini : AarchInstruction := .new .beq [.branch (.symbol ⟨0⟩)] (some 0x1000)

def branchToFiniPlan : AarchPlan := ⟨[⟨⟨0⟩, [.instruction branchToFini]⟩]⟩

def branchToFiniLayout : Layout where
  baseAddress := 0x1000
  totalSize := 8
  blockAddresses := [0x1000]
  instructionLayouts := [[⟨0x1000, 8, .invertedConditional⟩]]

def branchToFiniOutput : EmitOutput :=
  ⟨[] ++ toLeBytes 0x54000000#32, [] ++ [⟨0, .branch19, ⟨0⟩, 0⟩]⟩

theorem fourByteSources_branchToFini : FourByteSources branchToFiniPlan := by
  intro block hblock op hop
  cases List.mem_singleton.mp hblock
  cases List.mem_singleton.mp hop
  rfl

theorem layOut_branchToFini :
    layOut aarch64 branchToFiniPlan 0x1000 (some finiImage) = .ok branchToFiniLayout := by
  decide

theorem encode_branchToFini : encodeInstruction ⟨0x1000, branchToFini.mnemonic,
    branchToFini.operands.map (placeholderOperand aarch64 0x1000)⟩ = .ok 0x54000000#32 := by
  show encodeInstruction ⟨0x1000, .beq, [.branchTarget 0x1000]⟩ = _
  rw [encodeInstruction, opcodesForMnemonic_branch rfl]
  decide

/-- Emit writes a four-byte placeholder for the branch that layout widened. -/
theorem emit_branchToFini :
    emit aarch64 branchToFiniPlan branchToFiniLayout (some finiImage)
      = .ok branchToFiniOutput := by
  have hplaceholder : emitWithRelocation aarch64 branchToFini 0x1000 ⟨0⟩ .branch .empty
      = .ok branchToFiniOutput := emitWithRelocation_of_word rfl encode_branchToFini .empty
  have hnot : verbatimBytes aarch64 branchToFini 0x1000 [0x1000] (some finiImage) = none := by
    decide +kernel
  have hop : emitInstruction aarch64 branchToFini ⟨0x1000, 8, .invertedConditional⟩
      (branchToFiniLayout.context (some finiImage)) .empty = .ok branchToFiniOutput :=
    emitInstruction_iff.mpr (.placeholder ⟨0⟩ .branch rfl (.inr hnot) hplaceholder)
  exact emit_single rfl hop

/-- Layout reserves eight bytes and emit writes four. -/
theorem emit_branchToFini_notAsLaidOut :
    FourByteSources branchToFiniPlan ∧
      layOut aarch64 branchToFiniPlan 0x1000 (some finiImage) = .ok branchToFiniLayout ∧
      emit aarch64 branchToFiniPlan branchToFiniLayout (some finiImage) = .ok branchToFiniOutput ∧
      ¬ EmittedAsLaidOut aarch64 branchToFiniPlan branchToFiniLayout (some finiImage)
        branchToFiniOutput := by
  refine ⟨fourByteSources_branchToFini, layOut_branchToFini, emit_branchToFini, ?_⟩
  rintro ⟨htotal, -⟩
  revert htotal
  decide

/-- The condition on this run: that its branch is encoded from its operands. -/
theorem emit_branchToFini_asLaidOut_iff :
    EmittedAsLaidOut aarch64 branchToFiniPlan branchToFiniLayout (some finiImage)
        branchToFiniOutput ↔
      ∀ b i op l, OpAt branchToFiniPlan branchToFiniLayout b i op l →
        KeepsReservedSize (branchToFiniLayout.context (some finiImage)) op l :=
  emit_asLaidOut_iff _ _ _ _ _ fourByteSources_branchToFini layOut_branchToFini emit_branchToFini

end Armv8Encode

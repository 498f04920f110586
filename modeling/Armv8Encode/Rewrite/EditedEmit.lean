/-
  Armv8Encode.Rewrite.EditedEmit — what an edited instruction is emitted as.

  Without a per-word decoder emit cannot tell an edited instruction from an
  unedited one.  Where the text holds source bytes at the op's own address it
  copies them; only elsewhere does it encode what the op has become, or a
  placeholder for a relocation.  `EncodedAsEdited` collects what each way has
  to satisfy for the output to decode to the op (`emittedAsEdited_iff`).
-/
import Armv8Encode.Rewrite.PlainLift

namespace Armv8Encode

open Lib

variable {Mn Rg Op E Mk Di : Type} [DecidableEq Mn] [DecidableEq Op]

/-! ## §1. What the output should decode to. -/

/-- A decoder of the first instruction of some bytes, which reads no further
than that instruction. -/
structure FirstDecoder (Di : Type) where
  decode : U64 → List Byte → Option Di
  append : ∀ address bytes rest d, decode address bytes = some d →
    decode address (bytes ++ rest) = some d

/-- Some bytes decode to an instruction: its mnemonic, its plain operands, and
its targets resolved. -/
def DecodesAs (I : Isa Mn Rg Op E Mk Di) (first : FirstDecoder Di) (ctx : EmitContext)
    (i : RewriteInstruction Mn Op) (address : U64) (bytes : List Byte) : Prop :=
  ∃ d operands, first.decode address bytes = some d ∧ I.decodedMnemonic d = i.mnemonic ∧
    lowerOperands (E := E) I ctx.blockAddresses ctx.container i.operands = .ok operands ∧
    I.decodedOperands d = operands

variable {I : Isa Mn Rg Op E Mk Di} {first : FirstDecoder Di} {ctx : EmitContext}
  {i : RewriteInstruction Mn Op} {l : InstructionLayout}

omit [DecidableEq Mn] [DecidableEq Op] in
theorem DecodesAs.append {address : U64} {bytes : List Byte}
    (h : DecodesAs I first ctx i address bytes) (rest : List Byte) :
    DecodesAs I first ctx i address (bytes ++ rest) := by
  obtain ⟨d, operands, hd, hrest⟩ := h
  exact ⟨d, operands, first.append address bytes rest d hd, hrest⟩

/-- An op of a plan is emitted as edited: its bytes stand at its layout
address and decode to it, and they do not begin its source text if that
decodes to anything else. -/
def EmittedAsEdited (I : Isa Mn Rg Op E Mk Di) (first : FirstDecoder Di)
    (plan : RewritePlan Mn Rg Op Mk) (layout : Layout) (container : Option Container)
    (out : EmitOutput) (b j : Nat) (i : RewriteInstruction Mn Op) (l : InstructionLayout) : Prop :=
  ∃ before piece rest,
    emitBlocks I (layout.context container) (plan.blocksBefore b j)
      layout.instructionLayouts .empty = .ok before ∧
    emitInstruction I i l (layout.context container) .empty = .ok piece ∧
    out.bytes = before.bytes ++ (piece.bytes ++ rest) ∧
    l.address = layout.baseAddress + BitVec.ofNat 64 before.bytes.length ∧
    DecodesAs I first (layout.context container) i l.address piece.bytes ∧
    ∀ c original source, container = some c → i.originalAddress = some original →
      c.textTailAt original = some source →
      ¬ DecodesAs I first (layout.context container) i l.address source →
      ¬ piece.bytes <+: source

/-! ## §2. When it does. -/

/-- The bytes emit chooses for an instruction decode to it. -/
structure EncodedAsEdited (I : Isa Mn Rg Op E Mk Di) (first : FirstDecoder Di) (ctx : EmitContext)
    (i : RewriteInstruction Mn Op) (l : InstructionLayout) : Prop where
  /-- Source bytes at the op's own address decode to the instruction as they are. -/
  copied : ∀ raw, SourceBytes I ctx i l.address raw → DecodesAs I first ctx i l.address raw
  /-- A placeholder points at itself, and so does the instruction. -/
  placeholder : ¬ HasSource I ctx i l.address → ∀ symbol kind,
    ctx.relocationOf (E := E) i = .ok (some (symbol, kind)) → ∀ bytes,
      I.encode i.mnemonic (i.operands.map (placeholderOperand I l.address)) l.address = .ok bytes →
        DecodesAs I first ctx i l.address bytes
  /-- Encoding by mnemonic and decoding again gives the instruction. -/
  encoded : ¬ HasSource I ctx i l.address → ctx.relocationOf (E := E) i = .ok none →
    l.strategy = .normal → ∀ operands bytes,
      lowerOperands (E := E) I ctx.blockAddresses ctx.container i.operands = .ok operands →
      I.encode i.mnemonic operands l.address = .ok bytes →
        DecodesAs I first ctx i l.address bytes
  /-- The first instruction of a widened form is the instruction. -/
  widened : ¬ HasSource I ctx i l.address → ctx.relocationOf (E := E) i = .ok none →
    l.strategy = .invertedConditional → ∀ target far bytes, i.pcRelativeTarget = some target →
      resolveTarget target ctx.blockAddresses ctx.container = .ok far →
      I.encodeWidenedConditional i.mnemonic (lowerOperandsWithPlaceholder i) l.address far
        = .ok bytes →
        DecodesAs I first ctx i l.address bytes

/-- An emitted instruction decodes to itself exactly when the bytes that emit
chooses do. -/
theorem decodesAs_piece_iff (hdecode : ∀ a bytes, I.decode a bytes = none)
    (hfinal : ctx.isRelocatable = false) {piece : EmitOutput}
    (hpiece : emitInstruction I i l ctx .empty = .ok piece) :
    DecodesAs I first ctx i l.address piece.bytes ↔ EncodedAsEdited I first ctx i l := by
  cases emitInstruction_iff.mp hpiece with
  | verbatim reloc raw hreloc hkeeps hcopied houtput =>
    have hsource := (verbatimBytes_eq_some hdecode).mp hcopied
    have hhas : HasSource I ctx i l.address := ⟨raw, hsource⟩
    have hraw : piece.bytes = raw := by
      rw [houtput]
      rfl
    rw [hraw]
    constructor
    · intro h
      refine ⟨fun raw' hraw' => ?_, fun hnot => absurd hhas hnot, fun hnot => absurd hhas hnot,
        fun hnot => absurd hhas hnot⟩
      have hsame := (verbatimBytes_eq_some hdecode).mpr hraw'
      cases hcopied.symm.trans hsame
      exact h
    · intro h
      exact h.copied raw hsource
  | placeholder symbol kind hreloc hnot hplaceholder =>
    have hnoSource : ¬ HasSource I ctx i l.address := by
      rcases hnot with hrelocatable | hnone
      · rw [hfinal] at hrelocatable
        cases hrelocatable
      · exact (verbatimBytes_eq_none hdecode).mp hnone
    have hbytes : I.encode i.mnemonic (i.operands.map (placeholderOperand I l.address)) l.address
        = .ok piece.bytes := by
      unfold emitWithRelocation at hplaceholder
      split at hplaceholder
      · cases hplaceholder
      · split at hplaceholder
        · cases hplaceholder
        · next hbytes =>
          cases hplaceholder
          exact hbytes
    constructor
    · intro h
      refine ⟨fun raw hraw => absurd ⟨raw, hraw⟩ hnoSource, ?_, ?_, ?_⟩
      · intro _ _ _ _ bytes hbytes'
        cases hbytes.symm.trans hbytes'
        exact h
      · intro _ hreloc'
        cases hreloc.symm.trans hreloc'
      · intro _ hreloc'
        cases hreloc.symm.trans hreloc'
    · intro h
      exact h.placeholder hnoSource symbol kind hreloc _ hbytes
  | encoded bytes hreloc hnot hencoded houtput =>
    have hnoSource := (verbatimBytes_eq_none hdecode).mp hnot
    have hpieceBytes : piece.bytes = bytes := by
      rw [houtput]
      rfl
    rw [hpieceBytes]
    constructor
    · intro h
      refine ⟨fun raw hraw => absurd ⟨raw, hraw⟩ hnoSource, ?_, ?_, ?_⟩
      · intro _ _ _ hreloc'
        cases hreloc.symm.trans hreloc'
      · intro _ _ hnormal operands bytes' hoperands hbytes'
        have hsame := emitEncoded_eq_ok.mpr (.inl ⟨hnormal, operands, hoperands, hbytes'⟩)
        cases hencoded.symm.trans hsame
        exact h
      · intro _ _ hwide target far bytes' htarget hfar hbytes'
        have hsame := emitEncoded_eq_ok.mpr (.inr ⟨hwide, target, far, htarget, hfar, hbytes'⟩)
        cases hencoded.symm.trans hsame
        exact h
    · intro h
      rcases emitEncoded_eq_ok.mp hencoded with ⟨hnormal, operands, hoperands, hbytes⟩
        | ⟨hwide, target, far, htarget, hfar, hbytes⟩
      · exact h.encoded hnoSource hreloc hnormal operands bytes hoperands hbytes
      · exact h.widened hnoSource hreloc hwide target far bytes htarget hfar hbytes

/-! ## §3. In a plan. -/

/-- The ops before a position append together as many bytes as layout reserved
for them. -/
def OffsetKept (I : Isa Mn Rg Op E Mk Di) (plan : RewritePlan Mn Rg Op Mk) (layout : Layout)
    (container : Option Container) (b j : Nat) (l : InstructionLayout) : Prop :=
  ∀ before, emitBlocks I (layout.context container) (plan.blocksBefore b j)
      layout.instructionLayouts .empty = .ok before →
    l.address = layout.baseAddress + BitVec.ofNat 64 before.bytes.length

variable {plan : RewritePlan Mn Rg Op Mk} {layout : Layout} {container : Option Container}
  {base : U64}

/-- **An instruction of a final image is emitted as edited** exactly when the
ops before it keep its offset and the bytes that emit chooses decode to it. -/
theorem emittedAsEdited_iff (hframe : I.MacroFrame) (hdecode : ∀ a bytes, I.decode a bytes = none)
    {sizeProbe : Bool} (hlaid : LaidOut I plan base container sizeProbe layout) {out : EmitOutput}
    (hemit : emit I plan layout container = .ok out)
    (hfinal : (layout.context container).isRelocatable = false) {b j : Nat}
    (hat : OpAt plan layout b j (.instruction i) l) :
    EmittedAsEdited I first plan layout container out b j i l ↔
      OffsetKept I plan layout container b j l ∧
        EncodedAsEdited I first (layout.context container) i l := by
  obtain ⟨block, ls, hblock, hop, hls, hl⟩ := id hat
  obtain ⟨-, before, piece, -, hbefore, -, hpiece, ⟨rest, hout⟩⟩ :=
    emit_cut hframe hlaid.reserved.shape hemit hblock hop hls hl
  have hinstruction : emitInstruction I i l (layout.context container) .empty = .ok piece := hpiece
  constructor
  · rintro ⟨before', piece', rest', hbefore', hpiece', -, haddress, hdecodes, -⟩
    cases hbefore.symm.trans hbefore'
    refine ⟨?_, (decodesAs_piece_iff hdecode hfinal hpiece').mp hdecodes⟩
    intro before' hbefore''
    cases hbefore.symm.trans hbefore''
    exact haddress
  · rintro ⟨hkept, hedited⟩
    have hdecodes := (decodesAs_piece_iff hdecode hfinal hinstruction).mpr hedited
    refine ⟨before, piece, rest, hbefore, hinstruction, ?_, hkept before hbefore, hdecodes, ?_⟩
    · rw [← hout, EmitOutput.bytes_append, List.append_assoc]
    · rintro c original source - - - hstale ⟨suffix, rfl⟩
      exact hstale (hdecodes.append suffix)

end Armv8Encode

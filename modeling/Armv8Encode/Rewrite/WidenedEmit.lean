/-
  Armv8Encode.Rewrite.WidenedEmit — an instruction that layout widened.

  Layout marks a branch that does not reach, and emit asks the instruction set
  for its widened form: unless the source bytes are copied or a relocation
  stands in, what is emitted is that form, or the failure to encode it.
-/
import Armv8Encode.Rewrite.EmitSpec
import Armv8Encode.Rewrite.PlainLift

namespace Armv8Encode

open Lib

variable {Mn Rg Op E Mk Di : Type} [DecidableEq Mn] [DecidableEq Op]

/-! ## §1. What is emitted. -/

/-- A marked instruction is emitted as its widened form, eight bytes that are right for the
resolved target, or refused because the target is out of reach. -/
inductive EmittedWidened (I : Isa Mn Rg Op E Mk Di) (refuses : E → Prop)
    (replaces : U64 → List Byte → Prop) (i : RewriteInstruction Mn Op) (l : InstructionLayout)
    (ctx : EmitContext) : Prop where
  | emitted (out : EmitOutput) (target : Target) (far : U64)
      (emits : emitInstruction I i l ctx .empty = .ok out)
      (symbolic : i.pcRelativeTarget = some target)
      (resolves : resolveTarget target ctx.blockAddresses ctx.container = .ok far)
      (size : out.bytes.length = 8) (right : replaces far out.bytes)
  | refused (e : E) (fails : emitInstruction I i l ctx .empty = .error (.encode e))
      (range : refuses e)

/-- What an encoder of widened forms returned is right, or refused for the distance. -/
def WidensTo (refuses : E → Prop) (replaces : List Byte → Prop) :
    Except E (List Byte) → Prop
  | .ok bytes => bytes.length = 8 ∧ replaces bytes
  | .error e => refuses e

/-- Emit comes to the widened form: nothing is copied, and no relocation is left. -/
structure ReachesWidening (I : Isa Mn Rg Op E Mk Di) (i : RewriteInstruction Mn Op)
    (l : InstructionLayout) (ctx : EmitContext) (far : U64) : Prop where
  relocation : ctx.relocationOf (E := E) i = .ok none
  notCopied : verbatimBytes I i l.address ctx.blockAddresses ctx.container = none
  resolves : ∃ target, i.pcRelativeTarget = some target ∧
    resolveTarget target ctx.blockAddresses ctx.container = .ok far

/-! ## §2. The exact condition. -/

section

variable {I : Isa Mn Rg Op E Mk Di} {i : RewriteInstruction Mn Op} {l : InstructionLayout}
  {ctx : EmitContext}

omit [DecidableEq Mn] [DecidableEq Op] in
/-- A marked instruction that fails in the encoder fails as its widened form does. -/
theorem emitEncoded_encode_error (hwide : l.strategy = .invertedConditional) {e : E} :
    emitEncoded I i l ctx = .error (.encode e) ↔ ∃ target far, i.pcRelativeTarget = some target ∧
      resolveTarget target ctx.blockAddresses ctx.container = .ok far ∧
      I.encodeWidenedConditional i.mnemonic (lowerOperandsWithPlaceholder i) l.address far
        = .error e := by
  rw [emitEncoded, hwide]
  cases i.pcRelativeTarget with
  | none => simp
  | some target =>
    cases hfar : resolveTarget target ctx.blockAddresses ctx.container with
    | error x => simp [hfar]
    | ok far =>
      cases hbytes : I.encodeWidenedConditional i.mnemonic (lowerOperandsWithPlaceholder i)
          l.address far <;> simp [hfar, hbytes]

/-- A placeholder is an encoding: it fails in the encoder only if that does. -/
theorem emitInstruction_encode_error (hplaceholder : ∃ bytes, I.encode i.mnemonic
      (i.operands.map (placeholderOperand I l.address)) l.address = .ok bytes)
    {e : E} (h : emitInstruction I i l ctx .empty = .error (.encode e)) :
    ctx.relocationOf (E := E) i = .ok none ∧
      verbatimBytes I i l.address ctx.blockAddresses ctx.container = none ∧
      emitEncoded I i l ctx = .error (.encode e) := by
  obtain ⟨placeholder, hplaceholder⟩ := hplaceholder
  rcases bind_eq_error.mp h with h | ⟨reloc, hreloc, h⟩
  · exact absurd h relocationOf_ne_encode
  cases reloc with
  | none =>
    simp only [Option.isSome_none, Bool.and_false, Bool.false_eq_true, if_false] at h
    cases hcopy : verbatimBytes I i l.address ctx.blockAddresses ctx.container with
    | some raw =>
      rw [hcopy] at h
      cases h
    | none =>
      rw [hcopy] at h
      rcases bind_eq_error.mp h with h | ⟨bytes, -, h⟩
      · exact ⟨hreloc, rfl, h⟩
      · cases h
  | some r =>
    simp only at h
    split at h
    · cases h
    · unfold emitWithRelocation at h
      rw [hplaceholder] at h
      split at h <;> cases h

variable {refuses : E → Prop} {replaces : U64 → List Byte → Prop}

/-- **A marked instruction** of an instruction set without a decoder is emitted as its widened
form exactly when emit comes to that form, and the encoder widens it or refuses it for the
distance. -/
theorem emittedWidened_iff (hdecode : ∀ a bytes, I.decode a bytes = none)
    (hsource : (I.instructionSourceSize i.mnemonic).toNat ≠ 8)
    (hplaceholder : ∃ bytes, I.encode i.mnemonic (i.operands.map (placeholderOperand I l.address))
      l.address = .ok bytes ∧ bytes.length ≠ 8)
    (hwide : l.strategy = .invertedConditional) :
    EmittedWidened I refuses replaces i l ctx ↔ ∃ far, ReachesWidening I i l ctx far ∧
      WidensTo refuses (replaces far)
        (I.encodeWidenedConditional i.mnemonic (lowerOperandsWithPlaceholder i) l.address far) := by
  obtain ⟨placeholder, hplaceholder, hshort⟩ := hplaceholder
  constructor
  · intro h
    cases h with
    | emitted out target far hemits hsymbolic hresolves hsize hright =>
      cases emitInstruction_iff.mp hemits with
      | verbatim reloc raw _ _ hcopied houtput =>
        have hlength := ((verbatimBytes_eq_some hdecode).mp hcopied).length_eq
        rw [houtput] at hsize
        exact absurd (hlength.symm.trans hsize) hsource
      | placeholder symbol kind _ _ houtput =>
        unfold emitWithRelocation at houtput
        rw [hplaceholder] at houtput
        split at houtput <;> cases houtput
        exact absurd hsize hshort
      | encoded bytes hreloc hnot hencoded houtput =>
        rcases emitEncoded_eq_ok.mp hencoded with ⟨hnormal, -⟩
          | ⟨-, target', far', hsymbolic', hresolves', hbytes⟩
        · rw [hwide] at hnormal
          cases hnormal
        · cases hsymbolic.symm.trans hsymbolic'
          cases hresolves.symm.trans hresolves'
          subst houtput
          refine ⟨far, ⟨hreloc, hnot, target, hsymbolic, hresolves⟩, ?_⟩
          rw [hbytes]
          exact ⟨hsize, hright⟩
    | refused e hfails hrange =>
      obtain ⟨hreloc, hnot, hencoded⟩ := emitInstruction_encode_error ⟨_, hplaceholder⟩ hfails
      obtain ⟨target, far, hsymbolic, hresolves, hbytes⟩ :=
        (emitEncoded_encode_error hwide).mp hencoded
      refine ⟨far, ⟨hreloc, hnot, target, hsymbolic, hresolves⟩, ?_⟩
      rw [hbytes]
      exact hrange
  · rintro ⟨far, ⟨hreloc, hnot, target, hsymbolic, hresolves⟩, hwidens⟩
    cases hbytes : I.encodeWidenedConditional i.mnemonic (lowerOperandsWithPlaceholder i)
        l.address far with
    | ok bytes =>
      rw [hbytes] at hwidens
      have hencoded : emitEncoded I i l ctx = .ok bytes :=
        emitEncoded_eq_ok.mpr (.inr ⟨hwide, target, far, hsymbolic, hresolves, hbytes⟩)
      exact .emitted ⟨bytes, []⟩ target far
        (emitInstruction_iff.mpr (.encoded bytes hreloc hnot hencoded rfl)) hsymbolic hresolves
        hwidens.1 hwidens.2
    | error e =>
      rw [hbytes] at hwidens
      have hencoded : emitEncoded I i l ctx = .error (.encode e) :=
        (emitEncoded_encode_error hwide).mpr ⟨target, far, hsymbolic, hresolves, hbytes⟩
      refine .refused e ?_ hwidens
      simp only [emitInstruction, hreloc, bind, Except.bind, Option.isSome_none, Bool.and_false,
        Bool.false_eq_true, if_false, hnot, hencoded]

end

end Armv8Encode

/-
  Armv8Encode.Isa.Aarch64.CodeSize — how many bytes a laid-out plan becomes.

  Counted from the plan and its layout, for a plan that emits no relocation:
  a word for an instruction, two for a branch that is encoded in the widened
  form or for a macro that is expanded, and the bytes of a copy or a raw op.
-/
import Armv8Encode.Isa.Aarch64.EmitSizes
import Armv8Encode.Rewrite.Folding

namespace Armv8Encode

open Lib

/-- Bytes an op becomes when it needs no relocation. -/
def emittedSize (ctx : EmitContext) (op : AarchOp) (l : InstructionLayout) : Nat :=
  match op with
  | .instruction i =>
    match l.strategy, verbatimBytes aarch64 i l.address ctx.blockAddresses ctx.container with
    | .invertedConditional, none => 8
    | _, _ => 4
  | .macroOp m =>
    match verbatimMacro m l.address ctx with
    | some raw => raw.length
    | none => 8
  | .raw bytes => bytes.length

/-- Bytes a plan becomes when it needs no relocation. -/
def codeSize (plan : AarchPlan) (layout : Layout) (container : Option Container) : Nat :=
  (List.zipWith (emittedSize (layout.context container)) (plan.blocks.flatMap RewriteBlock.ops)
    layout.instructionLayouts.flatten).sum

theorem emittedSize_instruction {i : AarchInstruction} {l : InstructionLayout} {ctx : EmitContext}
    {piece : EmitOutput} (h : emitInstruction aarch64 i l ctx .empty = .ok piece)
    (hrelocs : piece.relocations = []) :
    piece.bytes.length = emittedSize ctx (.instruction i) l := by
  cases emitInstruction_iff.mp h with
  | verbatim reloc raw hreloc hkeeps hraw hout =>
    have hlen : piece.bytes.length = 4 := by
      rw [hout]
      simpa using verbatimBytes_length hraw
    rw [hlen]
    simp only [emittedSize]
    rw [hraw]
    cases l.strategy <;> rfl
  | placeholder symbol kind hreloc hnot hout =>
    exact absurd hrelocs (emitWithRelocation_relocations hout)
  | encoded bytes hreloc hnot hbytes hout =>
    have hnone : verbatimBytes aarch64 i l.address ctx.blockAddresses ctx.container = none := by
      simpa using hnot
    have hlen := emitEncoded_length hbytes
    rw [hout]
    simp only [emittedSize]
    rw [hnone]
    show ([] ++ bytes).length = _
    rw [List.nil_append, hlen]
    cases l.strategy <;> rfl

theorem emittedSize_macro {m : AarchMacro} {l : InstructionLayout} {ctx : EmitContext}
    {piece : EmitOutput} (h : emitAarchMacro m l.address ctx .empty = .ok piece) :
    piece.bytes.length = emittedSize ctx (.macroOp m) l := by
  unfold emitAarchMacro at h
  simp only [emittedSize]
  cases hv : verbatimMacro m l.address ctx with
  | some raw =>
    rw [hv] at h
    cases h
    simp [EmitOutput.push]
  | none =>
    rw [hv] at h
    cases hk : m.kind with
    | loadAddress =>
      rw [hk] at h
      exact emitLoadAddress_length h
    | accessValue =>
      rw [hk] at h
      exact (emitAccessValue_length h).1

theorem emittedSize_op {op : AarchOp} {l : InstructionLayout} {ctx : EmitContext}
    {piece : EmitOutput} (h : emitOp aarch64 op l ctx .empty = .ok piece)
    (hrelocs : piece.relocations = []) : piece.bytes.length = emittedSize ctx op l := by
  cases op with
  | instruction i => exact emittedSize_instruction h hrelocs
  | macroOp m => exact emittedSize_macro (emitAarchMacro_of_emitOp h)
  | raw bytes =>
    cases h
    rfl

/-- A run of ops without relocations appends the sum of their sizes. -/
theorem emittedSize_ops {ctx : EmitContext} {ops : List AarchOp} {ls : List InstructionLayout}
    (hlen : ops.length = ls.length) {out out' : EmitOutput}
    (h : emitOps aarch64 ctx ops ls out = .ok out') (hrelocs : out'.relocations = []) :
    out.relocations = [] ∧ out'.bytes.length
      = out.bytes.length + (List.zipWith (emittedSize ctx) ops ls).sum := by
  induction ops generalizing ls out with
  | nil =>
    cases h
    exact ⟨hrelocs, by simp⟩
  | cons op ops ih =>
    cases ls with
    | nil => cases hlen
    | cons l ls =>
      obtain ⟨mid, hop, hrest⟩ := bind_eq_ok.mp h
      obtain ⟨hmid, hsize⟩ := ih (Nat.succ.inj hlen) hrest
      rw [emitOp_append aarch64_macroFrame] at hop
      obtain ⟨piece, hpiece, rfl⟩ := map_eq_ok.mp hop
      have hboth : out.relocations = [] ∧ piece.relocations = [] := by
        have := List.append_eq_nil_iff.mp hmid
        exact ⟨this.1, List.map_eq_nil_iff.mp this.2⟩
      refine ⟨hboth.1, ?_⟩
      rw [hsize, EmitOutput.bytes_append, List.length_append, emittedSize_op hpiece hboth.2,
        List.zipWith_cons_cons, List.sum_cons]
      omega

theorem flatMap_ops_length {blocks : List (RewriteBlock Aarch64Mnemonic Register DecodedOperand
    AarchMacroKind)} {layouts : List (List InstructionLayout)}
    (hshape : List.Forall₂ (fun block ls => block.ops.length = ls.length) blocks layouts) :
    (blocks.flatMap RewriteBlock.ops).length = layouts.flatten.length := by
  induction hshape with
  | nil => rfl
  | cons hblock _ ih =>
    rw [List.flatMap_cons, List.flatten_cons, List.length_append, List.length_append, hblock, ih]

/-- A plan that emits without relocations becomes as many bytes as counted. -/
theorem emit_codeSize {plan : AarchPlan} {layout : Layout} {container : Option Container}
    {out : EmitOutput} (hshape : List.Forall₂ (fun block ls => block.ops.length = ls.length)
      plan.blocks layout.instructionLayouts)
    (h : emit aarch64 plan layout container = .ok out) (hrelocs : out.relocations = []) :
    out.bytes.length = codeSize plan layout container := by
  rw [emit_flat hshape] at h
  rw [(emittedSize_ops (flatMap_ops_length hshape) h hrelocs).2]
  show 0 + _ = _
  rw [Nat.zero_add]
  rfl

end Armv8Encode

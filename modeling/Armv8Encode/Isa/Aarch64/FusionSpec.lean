/-
  Armv8Encode.Isa.Aarch64.FusionSpec — fusion keeps every instruction.

  Fusion only groups: the instructions of its ops, in order, are the
  instructions it was given (`fuseMacros_sources`), and every macro is an
  `adrp` with one companion (`FusedFrom`).
-/
import Armv8Encode.Isa.Aarch64.Fusion

namespace Armv8Encode

open Lib

/-! ## §1. What a macro is built from. -/

/-- The instructions an op stands for. -/
def sourcesOf : AarchOp → List AarchInstruction
  | .instruction i => [i]
  | .macroOp m => m.originalInstructions
  | .raw _ => []

/-- The second halves fusion accepts. -/
def companionMnemonics : List Aarch64Mnemonic := [.add, .mov, .ldr, .str]

/-- The macro stands for an `adrp` and the companion after it. -/
structure FusedFrom (m : AarchMacro) (first second : AarchInstruction) : Prop where
  originals : m.originalInstructions = [first, second]
  addresses : m.originalAddresses = [first.originalAddress, second.originalAddress].filterMap id
  adrp : first.mnemonic = .adrp
  companion : second.mnemonic ∈ companionMnemonics

/-- An op fusion can produce. -/
inductive FusedOp : AarchOp → Prop where
  | instruction (i : AarchInstruction) : FusedOp (.instruction i)
  | pair {m : AarchMacro} {first second : AarchInstruction} (h : FusedFrom m first second) :
      FusedOp (.macroOp m)

variable {blockAtAddress : Map U64 BasicBlockId} {container : Option Container}
  {relocations : Map U64 FusionRelocationInfo}

/-! ## §2. One pair. -/

theorem fusedPair_fusedFrom {kind : AarchMacroKind} {register : Register} {target : Target}
    {first second : AarchInstruction} (hadrp : first.mnemonic = .adrp)
    (hcompanion : second.mnemonic ∈ companionMnemonics) :
    FusedFrom (fusedPair kind register target first second) first second :=
  ⟨rfl, rfl, hadrp, hcompanion⟩

theorem addOperands_companion {i : AarchInstruction} {r : Register × Register × Int}
    (h : addOperands i = some r) : i.mnemonic ∈ companionMnemonics := by
  unfold addOperands at h
  split at h
  · next hm _ => rw [hm]; decide
  · next hm _ => rw [hm]; decide
  · cases h

theorem ldstBase_companion {i : AarchInstruction} {base : Register} (h : ldstBase i = some base) :
    i.mnemonic ∈ companionMnemonics := by
  unfold ldstBase at h
  split at h
  · next hm _ => rw [hm]; decide
  · next hm _ => rw [hm]; decide
  · cases h

theorem tryFuseAdrpAdd_fusedFrom {adrp add : AarchInstruction} {m : AarchMacro}
    (hadrp : adrp.mnemonic = .adrp)
    (h : tryFuseAdrpAdd adrp add blockAtAddress container relocations = some m) :
    FusedFrom m adrp add := by
  obtain ⟨⟨rd, target⟩, -, h⟩ := Option.bind_eq_some_iff.mp h
  obtain ⟨⟨addRd, addRn, imm⟩, hadd, h⟩ := Option.bind_eq_some_iff.mp h
  have hcompanion := addOperands_companion hadd
  simp only at h
  split at h
  · cases h
  · split at h
    · cases h
    · split at h
      · cases h
        exact fusedPair_fusedFrom hadrp hcompanion
      · split at h
        · cases h
          exact fusedPair_fusedFrom hadrp hcompanion
        · split at h
          · cases h
            exact fusedPair_fusedFrom hadrp hcompanion
          · cases h

theorem tryFuseAdrpLdst_fusedFrom {adrp companion : AarchInstruction} {m : AarchMacro}
    (hadrp : adrp.mnemonic = .adrp)
    (h : tryFuseAdrpLdst adrp companion relocations = some m) : FusedFrom m adrp companion := by
  obtain ⟨base, hbase, h⟩ := Option.bind_eq_some_iff.mp h
  obtain ⟨⟨rd, _⟩, -, h⟩ := Option.bind_eq_some_iff.mp h
  have hcompanion := ldstBase_companion hbase
  simp only at h
  split at h
  · cases h
  · obtain ⟨target, -, h⟩ := Option.bind_eq_some_iff.mp h
    cases h
    exact fusedPair_fusedFrom hadrp hcompanion

theorem tryFuse_fusedFrom {current next : AarchInstruction} {m : AarchMacro}
    (h : tryFuse current next blockAtAddress container relocations = some m) :
    FusedFrom m current next := by
  unfold tryFuse at h
  split at h
  · next hadrp =>
    cases hadd : tryFuseAdrpAdd current next blockAtAddress container relocations with
    | some m' =>
      rw [hadd] at h
      cases h
      exact tryFuseAdrpAdd_fusedFrom hadrp hadd
    | none =>
      rw [hadd] at h
      exact tryFuseAdrpLdst_fusedFrom hadrp h
  · cases h

/-! ## §3. A whole list. -/

/-- **Fusion loses nothing**: its ops stand for the instructions it was given. -/
theorem fuseMacros_sources (instructions : List AarchInstruction) :
    (fuseMacros blockAtAddress container relocations instructions).flatMap sourcesOf
      = instructions := by
  fun_induction fuseMacros blockAtAddress container relocations instructions with
  | case1 => rfl
  | case2 current => rfl
  | case3 current next rest m hfuse ih =>
    rw [List.flatMap_cons, ih, sourcesOf, (tryFuse_fusedFrom hfuse).originals]
    rfl
  | case4 current next rest hfuse ih =>
    rw [List.flatMap_cons, ih]
    rfl

theorem fuseMacros_fusedOp (instructions : List AarchInstruction) :
    ∀ op ∈ fuseMacros blockAtAddress container relocations instructions, FusedOp op := by
  fun_induction fuseMacros blockAtAddress container relocations instructions with
  | case1 => simp
  | case2 current =>
    intro op hop
    rw [List.mem_singleton.mp hop]
    exact .instruction current
  | case3 current next rest m hfuse ih =>
    intro op hop
    rcases List.mem_cons.mp hop with rfl | hop
    · exact .pair (tryFuse_fusedFrom hfuse)
    · exact ih op hop
  | case4 current next rest hfuse ih =>
    intro op hop
    rcases List.mem_cons.mp hop with rfl | hop
    · exact .instruction current
    · exact ih op hop

end Armv8Encode

/-
  Armv8Encode.Rewrite.LayoutRounds — how many rounds a layout takes.

  A widened branch moves every op behind it, which can push further branches
  out of range, so rounds follow one another until nothing grows.  Every round
  that grows widens a conditional branch for good; the layout loop stops after
  `maxLayoutIterations` rounds all the same.

  Main results:
    * `layoutRounds_end` — without the limit the rounds settle or fail.
    * `layOut_settles` — the layout loop against the rounds without a limit.
    * `layOutInner_converges` — plans too small for the limit.
-/
import Armv8Encode.Isa.Aarch64.IsaImpl
import Armv8Encode.Lib.Except
import Armv8Encode.Lib.Rounds
import Armv8Encode.Rewrite.LayoutSpec

namespace Armv8Encode

open Lib

variable {Mn Rg Op E Mk Di : Type} (I : Isa Mn Rg Op E Mk Di)

/-! ## §1. One round. -/

/-- One round: assign addresses, then widen; the flag says that a branch grew. -/
def layoutRound (plan : RewritePlan Mn Rg Op Mk) (base : U64) (container : Option Container)
    (sizeProbe : Bool) (layout : Layout) : Except LayoutError (Layout × Bool) := do
  let assigned := assignAddresses layout.instructionLayouts base
  let widened ← widenOutOfRange I plan assigned.1 assigned.2.1 container sizeProbe
  pure
    ({ baseAddress := base
       totalSize := assigned.2.2
       blockAddresses := assigned.2.1
       instructionLayouts := widened.1 }, widened.2)

/-- Before the first round nothing has an address. -/
def unplacedLayout (plan : RewritePlan Mn Rg Op Mk) (base : U64) : Layout where
  baseAddress := base
  totalSize := 0
  blockAddresses := []
  instructionLayouts := initialLayouts I plan

/-- The layout loop repeats the round. -/
theorem layOutRounds_eq_repeatRounds (plan : RewritePlan Mn Rg Op Mk) (base : U64)
    (container : Option Container) (sizeProbe : Bool) (fuel : Nat) (layout : Layout) :
    layOutRounds I plan base container sizeProbe fuel layout.instructionLayouts
      = repeatRounds (layoutRound I plan base container sizeProbe) .didNotConverge fuel layout := by
  induction fuel generalizing layout with
  | zero => rfl
  | succ fuel ih =>
    cases hwidened : widenOutOfRange I plan (assignAddresses layout.instructionLayouts base).1
        (assignAddresses layout.instructionLayouts base).2.1 container sizeProbe with
    | error e =>
      have hround : layoutRound I plan base container sizeProbe layout = .error e := by
        simp [layoutRound, hwidened, bind, Except.bind]
      rw [repeatRounds_error hround]
      simp [layOutRounds, hwidened, bind, Except.bind]
    | ok widened =>
      have hround : layoutRound I plan base container sizeProbe layout
          = .ok ({ baseAddress := base
                   totalSize := (assignAddresses layout.instructionLayouts base).2.2
                   blockAddresses := (assignAddresses layout.instructionLayouts base).2.1
                   instructionLayouts := widened.1 }, widened.2) := by
        simp [layoutRound, hwidened, bind, Except.bind, pure, Except.pure]
      cases hgrew : widened.2 with
      | false =>
        rw [hgrew] at hround
        rw [repeatRounds_still hround]
        simp [layOutRounds, hwidened, hgrew, bind, Except.bind, pure, Except.pure]
      | true =>
        rw [hgrew] at hround
        rw [repeatRounds_changed hround, ← ih]
        simp [layOutRounds, hwidened, hgrew, bind, Except.bind]

/-! ## §2. What a round uses up. -/

/-- An instruction whose mnemonic has an inverse. -/
def RewriteOp.isConditional : RewriteOp Mn Rg Op Mk → Bool
  | .instruction i => (I.invertConditionalBranch i.mnemonic).isSome
  | .macroOp _ | .raw _ => false

/-- The conditional branches of a block that are not widened. -/
def narrowInBlock : List (RewriteOp Mn Rg Op Mk) → List InstructionLayout → Nat
  | op :: ops, l :: ls =>
    (if op.isConditional I && l.strategy == .normal then 1 else 0) + narrowInBlock ops ls
  | _, _ => 0

/-- The conditional branches of a plan that are not widened. -/
def narrowBranches : List (RewriteBlock Mn Rg Op Mk) → List (List InstructionLayout) → Nat
  | block :: blocks, ls :: layouts =>
    narrowInBlock I block.ops ls + narrowBranches blocks layouts
  | _, _ => 0

/-- The conditional branches of a plan. -/
def RewritePlan.conditionalBranches (plan : RewritePlan Mn Rg Op Mk) : Nat :=
  (plan.blocks.map (fun block => block.ops.countP (·.isConditional I))).sum

variable {I}

theorem narrowInBlock_assign (ops : List (RewriteOp Mn Rg Op Mk)) (ls : List InstructionLayout)
    (current : U64) : narrowInBlock I ops (assignBlock current ls).1 = narrowInBlock I ops ls := by
  induction ls generalizing ops current with
  | nil => rfl
  | cons l ls ih =>
    cases ops with
    | nil => rfl
    | cons op ops =>
      simp only [assignBlock, narrowInBlock]
      rw [ih]

theorem narrowBranches_assign (blocks : List (RewriteBlock Mn Rg Op Mk))
    (layouts : List (List InstructionLayout)) (current : U64) :
    narrowBranches I blocks (assignBlocks current layouts).1 = narrowBranches I blocks layouts := by
  induction layouts generalizing blocks current with
  | nil => rfl
  | cons ls layouts ih =>
    cases blocks with
    | nil => rfl
    | cons block blocks =>
      simp only [assignBlocks, narrowBranches]
      rw [ih, narrowInBlock_assign]

section Widen

variable {blockAddresses : List U64} {container : Option Container} {sizeProbe : Bool}

/-- The out-of-range pass uses up a narrow branch of a block that grew. -/
theorem narrowInBlock_widen {ops : List (RewriteOp Mn Rg Op Mk)} {ls ls' : List InstructionLayout}
    {grew : Bool} (h : widenBlock I blockAddresses container sizeProbe ops ls = .ok (ls', grew)) :
    narrowInBlock I ops ls' + grew.toNat ≤ narrowInBlock I ops ls := by
  induction ops generalizing ls ls' grew with
  | nil =>
    cases h
    exact Nat.le_refl _
  | cons op ops ih =>
    cases ls with
    | nil =>
      cases h
      exact Nat.le_refl _
    | cons l ls =>
      rw [widenBlock] at h
      obtain ⟨head, hhead, h⟩ := bind_eq_ok.mp h
      obtain ⟨tail, htail, h⟩ := bind_eq_ok.mp h
      cases h
      have hrest := ih htail
      simp only [narrowInBlock]
      rcases widenOp_cases hhead with ⟨hsame, hgrew⟩ | ⟨hgrew, hnormal, hwide, i, hop, hinverse⟩
      · rw [hsame, hgrew, Bool.false_or]
        omega
      · -- the op counted before and does not count now
        have hcond : op.isConditional I = true := by rw [hop]; exact hinverse
        have hone : (if op.isConditional I && l.strategy == .normal then 1 else 0) = 1 := by
          rw [hcond, hnormal]
          rfl
        have hzero : (if op.isConditional I && head.1.strategy == .normal then 1 else 0) = 0 := by
          rw [hcond, hwide]
          rfl
        have hflag : (head.2 || tail.2).toNat ≤ 1 := Bool.toNat_le _
        omega

theorem narrowBranches_widen {blocks : List (RewriteBlock Mn Rg Op Mk)}
    {layouts layouts' : List (List InstructionLayout)} {grew : Bool}
    (h : widenBlocks I blockAddresses container sizeProbe blocks layouts = .ok (layouts', grew)) :
    narrowBranches I blocks layouts' + grew.toNat ≤ narrowBranches I blocks layouts := by
  induction blocks generalizing layouts layouts' grew with
  | nil =>
    cases h
    exact Nat.le_refl _
  | cons block blocks ih =>
    cases layouts with
    | nil =>
      cases h
      exact Nat.le_refl _
    | cons ls layouts =>
      rw [widenBlocks] at h
      obtain ⟨head, hhead, h⟩ := bind_eq_ok.mp h
      obtain ⟨tail, htail, h⟩ := bind_eq_ok.mp h
      cases h
      have hblock := narrowInBlock_widen hhead
      have hrest := ih htail
      have hflag : (head.2 || tail.2).toNat ≤ head.2.toNat + tail.2.toNat := by
        cases head.2 <;> cases tail.2 <;> decide
      simp only [narrowBranches]
      omega

end Widen

section Plan

variable (plan : RewritePlan Mn Rg Op Mk) (base : U64) (container : Option Container)
  (sizeProbe : Bool)

theorem layoutRound_less (layout layout' : Layout)
    (h : layoutRound I plan base container sizeProbe layout = .ok (layout', true)) :
    narrowBranches I plan.blocks layout'.instructionLayouts
      < narrowBranches I plan.blocks layout.instructionLayouts := by
  unfold layoutRound at h
  have ⟨widened, hwidened, h⟩ := bind_eq_ok.mp h
  have hpair := Prod.mk.inj (Except.ok.inj h)
  have hused := narrowBranches_widen hwidened
  rw [hpair.2] at hused
  have hassigned := narrowBranches_assign (I := I) plan.blocks layout.instructionLayouts base
  rw [← hpair.1]
  show narrowBranches I plan.blocks widened.1 < _
  unfold assignAddresses at hused
  simp only [Bool.toNat_true] at hused
  omega

theorem narrowBranches_initial :
    narrowBranches I plan.blocks (initialLayouts I plan) = plan.conditionalBranches I := by
  have hblock : ∀ ops : List (RewriteOp Mn Rg Op Mk),
      narrowInBlock I ops (ops.map (fun op => ⟨0, I.sourceByteSize op, .normal⟩))
        = ops.countP (·.isConditional I) := by
    intro ops
    induction ops with
    | nil => rfl
    | cons op ops ih =>
      rw [List.map_cons, narrowInBlock, ih, List.countP_cons]
      by_cases hcond : op.isConditional I = true
      · simp [hcond]
        omega
      · simp [hcond]
  unfold initialLayouts RewritePlan.conditionalBranches
  induction plan.blocks with
  | nil => rfl
  | cons block blocks ih =>
    rw [List.map_cons, narrowBranches, ih, hblock, List.map_cons, List.sum_cons]

/-! ## §3. The loop and its limit. -/

/-- Without the limit the rounds settle on a layout or fail. -/
theorem layoutRounds_end :
    (∃ n layout, Settles (layoutRound I plan base container sizeProbe)
        (unplacedLayout I plan base) n layout) ∨
      ∃ n e, Fails (layoutRound I plan base container sizeProbe) (unplacedLayout I plan base) n e :=
  settles_or_fails (layoutRound_less plan base container sizeProbe) _

theorem layOutInner_eq_repeatRounds :
    layOutInner I plan base container sizeProbe
      = repeatRounds (layoutRound I plan base container sizeProbe) .didNotConverge
          maxLayoutIterations (unplacedLayout I plan base) :=
  layOutRounds_eq_repeatRounds I plan base container sizeProbe maxLayoutIterations
    (unplacedLayout I plan base)

end Plan

/-- Where the rounds settle on a layout, no more of them grow than the plan has
conditional branches; the loop returns that layout when fewer than its limit
grow, and gives up otherwise. -/
theorem layOut_settles (plan : RewritePlan Mn Rg Op Mk) (base : U64)
    (container : Option Container) (n : Nat) (layout : Layout)
    (h : Settles (layoutRound I plan base container false) (unplacedLayout I plan base) n layout) :
    n ≤ plan.conditionalBranches I ∧
      (n < maxLayoutIterations → layOut I plan base container = .ok layout) ∧
      (maxLayoutIterations ≤ n → layOut I plan base container = .error .didNotConverge) := by
  have hloop := layOutInner_eq_repeatRounds (I := I) plan base container false
  refine ⟨?_, ?_, ?_⟩
  · rw [← narrowBranches_initial plan]
    exact h.rounds_le (layoutRound_less plan base container false)
  · intro hlt
    rw [layOut, hloop]
    exact (h.repeatRounds maxLayoutIterations).1 hlt
  · intro hle
    rw [layOut, hloop]
    exact (h.repeatRounds maxLayoutIterations).2 hle

/-- A `b.eq` to an address behind it: the first of a row of them is out of
range, and each other one is when the one before it has grown. -/
def cascadeBranch (k : Nat) : RewriteOp Aarch64Mnemonic Register DecodedOperand AarchMacroKind :=
  .instruction (.new .beq [.branch (.absolute (0xffffc#64 + BitVec.ofNat 64 (8 * k)))] none)

def cascadePlan (count : Nat) :
    RewritePlan Aarch64Mnemonic Register DecodedOperand AarchMacroKind :=
  ⟨[⟨⟨0⟩, (List.range count).map cascadeBranch⟩]⟩

def cascadeTwoLayout : Layout where
  baseAddress := 0x200000
  totalSize := 16
  blockAddresses := [0x200000]
  instructionLayouts :=
    [[⟨0x200000, 8, .invertedConditional⟩, ⟨0x200008, 8, .invertedConditional⟩]]

/-- Two branches take two rounds. -/
theorem layOut_cascadeTwo :
    2 ≤ (cascadePlan 2).conditionalBranches aarch64 ∧
      (2 < maxLayoutIterations → layOut aarch64 (cascadePlan 2) 0x200000 none
        = .ok cascadeTwoLayout) ∧
      (maxLayoutIterations ≤ 2 → layOut aarch64 (cascadePlan 2) 0x200000 none
        = .error .didNotConverge) :=
  layOut_settles (cascadePlan 2) 0x200000 none 2 cascadeTwoLayout
    (.changed rfl (.changed rfl (.still rfl)))

/-- Sixteen branches settle after sixteen rounds, one more than the loop has. -/
theorem layOut_cascadeSixteen :
    (∃ n layout, Settles (layoutRound aarch64 (cascadePlan 16) 0x200000 none false)
        (unplacedLayout aarch64 (cascadePlan 16) 0x200000) n layout) ∧
      layOut aarch64 (cascadePlan 16) 0x200000 none = .error .didNotConverge := by
  refine ⟨?_, by decide⟩
  have hreturns : ∃ layout, layOutRounds aarch64 (cascadePlan 16) 0x200000 none false 17
      (unplacedLayout aarch64 (cascadePlan 16) 0x200000).instructionLayouts = .ok layout :=
    ⟨_, rfl⟩
  have ⟨layout, hlayout⟩ := hreturns
  rw [layOutRounds_eq_repeatRounds] at hlayout
  have ⟨n, _, hsettles⟩ := settles_of_repeatRounds hlayout
  exact ⟨n, layout, hsettles⟩

/-! ## §4. Plans too small for the limit. -/

section Widen

variable (blockAddresses : List U64) (container : Option Container) (sizeProbe : Bool)

theorem widenOp_ne (op : RewriteOp Mn Rg Op Mk) (l : InstructionLayout) :
    widenOp I blockAddresses container sizeProbe op l ≠ .error .didNotConverge := by
  intro h
  unfold widenOp resolveTarget at h
  repeat' split at h
  all_goals grind

theorem widenBlocks_ne (blocks : List (RewriteBlock Mn Rg Op Mk))
    (layouts : List (List InstructionLayout)) :
    widenBlocks I blockAddresses container sizeProbe blocks layouts
      ≠ .error .didNotConverge := by
  have hblock : ∀ (ops : List (RewriteOp Mn Rg Op Mk)) (ls : List InstructionLayout),
      widenBlock I blockAddresses container sizeProbe ops ls ≠ .error .didNotConverge := by
    intro ops ls
    fun_induction widenBlock I blockAddresses container sizeProbe ops ls with
    | case1 op ops l ls ih =>
      intro h
      obtain h | ⟨head, -, h⟩ := bind_eq_error.mp h
      · exact widenOp_ne blockAddresses container sizeProbe op l h
      obtain h | ⟨tail, -, h⟩ := bind_eq_error.mp h
      · exact ih h
      · cases h
    | case2 => exact fun h => by cases h
  fun_induction widenBlocks I blockAddresses container sizeProbe blocks layouts with
  | case1 block blocks ls rest ih =>
    intro h
    obtain h | ⟨head, -, h⟩ := bind_eq_error.mp h
    · exact hblock block.ops ls h
    obtain h | ⟨tail, -, h⟩ := bind_eq_error.mp h
    · exact ih h
    · cases h
  | case2 => exact fun h => by cases h

end Widen

/-- **A plan with fewer conditional branches than the loop has rounds** is laid
out, or refused for another reason than the limit. -/
theorem layOutInner_converges (plan : RewritePlan Mn Rg Op Mk) (base : U64)
    (container : Option Container) (sizeProbe : Bool)
    (hfew : plan.conditionalBranches I < maxLayoutIterations) :
    layOutInner I plan base container sizeProbe ≠ .error .didNotConverge := by
  intro h
  rw [layOutInner_eq_repeatRounds] at h
  have hnever : ∀ layout,
      layoutRound I plan base container sizeProbe layout ≠ .error .didNotConverge := by
    intro layout hround
    obtain hround | ⟨widened, -, hround⟩ := bind_eq_error.mp hround
    · exact widenBlocks_ne _ container sizeProbe plan.blocks _ hround
    · cases hround
  have hused := le_measure_of_giveUp (layoutRound_less plan base container sizeProbe) hnever h
  rw [show (unplacedLayout I plan base).instructionLayouts = initialLayouts I plan from rfl,
    narrowBranches_initial] at hused
  omega

theorem layOutInner_cascadeTwo :
    layOutInner aarch64 (cascadePlan 2) 0x200000 none true ≠ .error .didNotConverge :=
  layOutInner_converges (cascadePlan 2) 0x200000 none true (by decide)

end Armv8Encode

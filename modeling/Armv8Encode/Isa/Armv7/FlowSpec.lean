/-
  Armv8Encode.Isa.Armv7.FlowSpec — what a classification has to report.

  The architecture either goes on in sequence, or writes the program counter;
  the write can depend on a condition, and a direct branch has a target.  A
  classification is sound if it reports the addresses that execution may go on
  at and does not take an instruction that always writes the program counter
  for a plain one.  Nothing is asked where the architecture says that the
  result is unpredictable.

  What a class amounts to here is whether it has the next address, which
  targets it has and whether it is `fall`.
-/
import Armv8Encode.Mc.ControlFlow

namespace Armv8Encode.Armv7

/-! ## §1. Flows. -/

/-- What the architecture does with the program counter. -/
inductive ArchFlow where
  | sequential
  | direct (conditional : Bool) (target : U64)
  | indirect (conditional : Bool)
  | unpredictable
  deriving Repr, DecidableEq

namespace ArchFlow

/-- The instruction can fail its condition, or does not write the program counter. -/
def mayFall : ArchFlow → Bool
  | sequential => true
  | direct conditional _ | indirect conditional => conditional
  | unpredictable => false

def target : ArchFlow → Option U64
  | direct _ target => some target
  | _ => none

/-- The program counter is written on every execution. -/
def alwaysWrites : ArchFlow → Bool
  | direct conditional _ | indirect conditional => !conditional
  | sequential | unpredictable => false

end ArchFlow

/-- A class reports what the architecture may do; `next` is the address past
the instruction. -/
structure FlowSound (flow : ArchFlow) (next : U64) (c : ControlFlow) : Prop where
  fallthrough : flow.mayFall = true → next ∈ c.successors next
  target : ∀ t, flow.target = some t → t ∈ c.successors next
  writes : flow.alwaysWrites = true → c ≠ .fall

/-! ## §2. What is asked of a class. -/

section

variable {next : U64} {c : ControlFlow}

theorem flowSound_sequential : FlowSound .sequential next c ↔ next ∈ c.successors next := by
  constructor
  · intro h
    exact h.fallthrough rfl
  · intro h
    exact ⟨fun _ => h, (fun _ ht => nomatch ht), (fun hw => nomatch hw)⟩

theorem flowSound_unpredictable : FlowSound .unpredictable next c :=
  ⟨(fun h => nomatch h), (fun _ ht => nomatch ht), (fun h => nomatch h)⟩

theorem flowSound_indirect_true :
    FlowSound (.indirect true) next c ↔ next ∈ c.successors next := by
  constructor
  · intro h
    exact h.fallthrough rfl
  · intro h
    exact ⟨fun _ => h, (fun _ ht => nomatch ht), (fun hw => nomatch hw)⟩

theorem flowSound_indirect_false : FlowSound (.indirect false) next c ↔ c ≠ .fall := by
  constructor
  · intro h
    exact h.writes rfl
  · intro h
    exact ⟨(fun hf => nomatch hf), (fun _ ht => nomatch ht), fun _ => h⟩

theorem flowSound_direct {conditional : Bool} {t : U64} :
    FlowSound (.direct conditional t) next c
      ↔ t ∈ c.successors next ∧ if conditional then next ∈ c.successors next else c ≠ .fall := by
  cases conditional with
  | true =>
    constructor
    · intro h
      exact ⟨h.target t rfl, h.fallthrough rfl⟩
    · rintro ⟨htarget, hnext⟩
      refine ⟨fun _ => hnext, fun t' ht' => ?_, (fun hw => nomatch hw)⟩
      rw [← Option.some.inj ht']
      exact htarget
  | false =>
    constructor
    · intro h
      exact ⟨h.target t rfl, h.writes rfl⟩
    · rintro ⟨htarget, hfall⟩
      refine ⟨(fun hf => nomatch hf), fun t' ht' => ?_, fun _ => hfall⟩
      rw [← Option.some.inj ht']
      exact htarget

/-- A jump that the architecture makes is reported. -/
theorem flowSound_jump {t : U64} : FlowSound (.direct false t) next (.jump t) :=
  flowSound_direct.mpr ⟨List.mem_singleton_self t, (fun h => nomatch h)⟩

theorem flowSound_conditionalJump {t : U64} (conditional : Bool) :
    FlowSound (.direct conditional t) next (.conditionalJump t next) := by
  refine flowSound_direct.mpr ⟨List.mem_cons_self, ?_⟩
  cases conditional with
  | true => exact List.mem_cons_of_mem _ (List.mem_singleton_self next)
  | false => exact (fun h => nomatch h)

theorem flowSound_call {t : U64} (conditional : Bool) :
    FlowSound (.direct conditional t) next (.call t next) := by
  refine flowSound_direct.mpr ⟨List.mem_cons_self, ?_⟩
  cases conditional with
  | true => exact List.mem_cons_of_mem _ (List.mem_singleton_self next)
  | false => exact (fun h => nomatch h)

/-- A class without a target: execution goes on or leaves, and the class is
`fall` or listed. -/
structure ClassTells (next : U64) (leaves listed : Bool) (c : ControlFlow) : Prop where
  goesOn : leaves = false → c.successors next = [next]
  leaves : leaves = true → c.successors next = []
  listed : listed = true ↔ c ≠ .fall

theorem classTells_fall : ClassTells next false false .fall :=
  ⟨fun _ => rfl, (fun h => nomatch h), by simp⟩

theorem classTells_trap : ClassTells next false true .trap :=
  ⟨fun _ => rfl, (fun h => nomatch h), by simp⟩

theorem classTells_indirectCall : ClassTells next false true (.indirectCall next) :=
  ⟨fun _ => rfl, (fun h => nomatch h), by simp⟩

theorem classTells_return : ClassTells next true true .return :=
  ⟨(fun h => nomatch h), fun _ => rfl, by simp⟩

theorem classTells_indirectJump : ClassTells next true true .indirectJump :=
  ⟨(fun h => nomatch h), fun _ => rfl, by simp⟩

theorem ClassTells.mem_next {leaves listed : Bool} (h : ClassTells next leaves listed c) :
    next ∈ c.successors next ↔ leaves = false := by
  cases hleaves : leaves with
  | true =>
    rw [h.leaves hleaves]
    exact iff_of_false List.not_mem_nil (by decide)
  | false =>
    rw [h.goesOn hleaves]
    exact iff_of_true (List.mem_singleton_self next) rfl

/-- Only a branch to the next instruction is reported without a target. -/
theorem ClassTells.mem_target {leaves listed : Bool} (h : ClassTells next leaves listed c) {t : U64} :
    t ∈ c.successors next ↔ t = next ∧ leaves = false := by
  cases hleaves : leaves with
  | true =>
    rw [h.leaves hleaves]
    exact iff_of_false List.not_mem_nil (fun hand => nomatch hand.2)
  | false =>
    rw [h.goesOn hleaves, List.mem_singleton]
    exact (and_iff_left rfl).symm

end

end Armv8Encode.Armv7

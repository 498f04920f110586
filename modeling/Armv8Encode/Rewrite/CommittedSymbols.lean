/-
  Armv8Encode.Rewrite.CommittedSymbols — symbols after a text edit.

  Layout gives every instruction of an edited plan an address.  The commit that
  follows replaces the bytes of the section and the relocations against it; the
  symbols of the container, their sizes and the relocations of other sections
  are cloned.  They therefore follow the code exactly when the edit leaves the
  instructions they name where they were (`commit_follows_iff`).
-/
import Armv8Encode.Isa.Aarch64.IsaImpl
import Armv8Encode.Rewrite.Commit
import Armv8Encode.Rewrite.Edit
import Armv8Encode.Rewrite.EmitSpec

namespace Armv8Encode

open Lib

/-! ## §1. Containers with symbol sizes. -/

/-- A container and the size of each of its symbols, a field of the source's
symbols that nothing else here reads. -/
structure SizedContainer where
  container : Container
  symbolSizes : List U64
  sizesLength : symbolSizes.length = container.symbols.length

/-- Symbols are cloned by a commit. -/
theorem commitToContainer_symbols {c c' : Container} {id : SectionId} {out : EmitOutput}
    (h : commitToContainer c id out = some c') : c'.symbols = c.symbols := by
  unfold commitToContainer at h
  split at h
  · cases h
    rfl
  · cases h

/-- So are the relocations of other sections. -/
theorem mem_commitToContainer_relocations {c c' : Container} {id : SectionId} {out : EmitOutput}
    (h : commitToContainer c id out = some c') {r : Relocation} (hr : r ∈ c.relocations)
    (hother : r.sectionId ≠ id) : r ∈ c'.relocations := by
  unfold commitToContainer at h
  split at h
  · cases h
    exact List.mem_append_left _ (List.mem_filter.mpr ⟨hr, by simpa using hother⟩)
  · cases h

namespace SizedContainer

/-- Commit emit output; the sizes are cloned with their symbols. -/
def commit (c : SizedContainer) (id : SectionId) (out : EmitOutput) : Option SizedContainer :=
  match h : commitToContainer c.container id out with
  | some c' => some ⟨c', c.symbolSizes, by rw [c.sizesLength, commitToContainer_symbols h]⟩
  | none => none

theorem commit_eq_some {c c' : SizedContainer} {id : SectionId} {out : EmitOutput}
    (h : c.commit id out = some c') :
    commitToContainer c.container id out = some c'.container ∧ c'.symbolSizes = c.symbolSizes := by
  unfold commit at h
  split at h
  · next c'' hc =>
    cases h
    exact ⟨hc, rfl⟩
  · cases h

def sizeOf (c : SizedContainer) (id : SymbolId) : U64 := c.symbolSizes[id.index]?.getD 0

end SizedContainer

/-! ## §2. Where the instructions of a plan stand. -/

variable {Mn Rg Op E Mk Di : Type} (I : Isa Mn Rg Op E Mk Di)

/-- Where in an op the instruction lifted from an address stands. -/
def RewriteOp.offsetOf (original : U64) : RewriteOp Mn Rg Op Mk → Option U64
  | .instruction i => if i.originalAddress = some original then some 0 else none
  | .macroOp m => (m.originalAddresses.idxOf? original).map fun k =>
      ((m.originalInstructions.take k).map I.sizeOf).sum
  | .raw _ => none

/-- The ops of a plan in layout order. -/
def RewritePlan.ops (plan : RewritePlan Mn Rg Op Mk) : List (RewriteOp Mn Rg Op Mk) :=
  plan.blocks.flatMap RewriteBlock.ops

/-- The op at a position and its layout. -/
def Placed (plan : RewritePlan Mn Rg Op Mk) (layout : Layout) (n : Nat)
    (op : RewriteOp Mn Rg Op Mk) (l : InstructionLayout) : Prop :=
  plan.ops[n]? = some op ∧ layout.instructionLayouts.flatten[n]? = some l

/-- The layout puts the instruction lifted from one address at another. -/
def LaidAt (plan : RewritePlan Mn Rg Op Mk) (layout : Layout) (original address : U64) : Prop :=
  ∃ n op l offset, Placed plan layout n op l ∧ op.offsetOf I original = some offset ∧
    address = l.address + offset

/-- The bytes an op takes: the widened form when its branch was widened. -/
def RewriteOp.footprint (op : RewriteOp Mn Rg Op Mk) : EmitStrategy → U64
  | .normal => I.sourceByteSize op
  | .invertedConditional => I.widenedConditionalSize

/-- The bytes the ops before a position take. -/
def bytesBefore (plan : RewritePlan Mn Rg Op Mk) (layout : Layout) (n : Nat) : U64 :=
  ((List.zipWith (fun (op : RewriteOp Mn Rg Op Mk) (l : InstructionLayout) =>
    op.footprint I l.strategy) plan.ops layout.instructionLayouts.flatten).take n).sum

variable {I}

/-- Layout entries of the ops in order, each reserving its footprint. -/
theorem LaidOut.placed {plan : RewritePlan Mn Rg Op Mk} {base : U64} {container : Option Container}
    {sizeProbe : Bool} {layout : Layout} (h : LaidOut I plan base container sizeProbe layout) :
    List.Forall₂ (fun op l => l.size = op.footprint I l.strategy) plan.ops
      layout.instructionLayouts.flatten := by
  have hflat : List.Forall₂ (Reserves I) plan.ops layout.instructionLayouts.flatten := by
    have hmap : List.Forall₂ (List.Forall₂ (Reserves I)) (plan.blocks.map RewriteBlock.ops)
        layout.instructionLayouts := List.forall₂_map_left_iff.mpr h.reserved
    exact List.rel_flatten hmap
  refine hflat.imp fun op l hreserves => ?_
  unfold Reserves at hreserves
  unfold RewriteOp.footprint
  cases hstrategy : l.strategy with
  | normal =>
    rw [hstrategy] at hreserves
    exact hreserves
  | invertedConditional =>
    rw [hstrategy] at hreserves
    exact hreserves.1

/-- The footprints of the ops are the sizes of their layouts. -/
theorem LaidOut.bytesBefore_eq {plan : RewritePlan Mn Rg Op Mk} {base : U64}
    {container : Option Container} {sizeProbe : Bool} {layout : Layout}
    (h : LaidOut I plan base container sizeProbe layout) (n : Nat) :
    bytesBefore I plan layout n
      = ((layout.instructionLayouts.flatten.take n).map InstructionLayout.size).sum := by
  have hsizes : List.zipWith (fun (op : RewriteOp Mn Rg Op Mk) (l : InstructionLayout) =>
      op.footprint I l.strategy) plan.ops layout.instructionLayouts.flatten
        = layout.instructionLayouts.flatten.map InstructionLayout.size := by
    have hplaced := h.placed
    generalize plan.ops = ops, layout.instructionLayouts.flatten = ls at hplaced
    induction hplaced with
    | nil => rfl
    | cons hsize _ ih => rw [List.zipWith_cons_cons, List.map_cons, ih, hsize]
  rw [bytesBefore, hsizes, List.map_take]

/-- An op stands past the bytes of the ops before it. -/
theorem LaidOut.placed_address {plan : RewritePlan Mn Rg Op Mk} {base : U64}
    {container : Option Container} {sizeProbe : Bool} {layout : Layout}
    (h : LaidOut I plan base container sizeProbe layout) {n : Nat} {op : RewriteOp Mn Rg Op Mk}
    {l : InstructionLayout} (hplaced : Placed plan layout n op l) :
    l.address = base + bytesBefore I plan layout n ∧
      bytesBefore I plan layout (n + 1) = bytesBefore I plan layout n + l.size := by
  have htiled := h.tiled
  have hsplit := eq_take_cons_drop hplaced.2
  rw [hsplit, List.map_append, List.map_cons, InstructionLayout.tile] at htiled
  have haddress := htiled.address_eq
  rw [h.bytesBefore_eq, h.bytesBefore_eq]
  constructor
  · rw [haddress, List.map_map]
    rfl
  · rw [List.take_add_one, hplaced.2, Option.toList_some, List.map_append, List.sum_append]
    simp

/-- Every op has a layout. -/
theorem LaidOut.exists_placed {plan : RewritePlan Mn Rg Op Mk} {base : U64}
    {container : Option Container} {sizeProbe : Bool} {layout : Layout}
    (h : LaidOut I plan base container sizeProbe layout) {n : Nat} {op : RewriteOp Mn Rg Op Mk}
    (hop : plan.ops[n]? = some op) : ∃ l, Placed plan layout n op l := by
  have hlength := h.placed.length_eq
  have hn : n < layout.instructionLayouts.flatten.length := by
    rw [← hlength]
    exact (List.getElem?_eq_some_iff.mp hop).1
  exact ⟨_, hop, List.getElem?_eq_getElem hn⟩

/-! ## §3. Symbols that follow their code. -/

/-- A symbol defined in a section. -/
def Symbol.DefinedIn (s : Symbol) (id : SectionId) : Prop :=
  s.sectionId = some id ∧ s.isUndefined = false

variable (I)

/-- The op at a position was lifted from an address that a symbol covers. -/
def Covered (plan : RewritePlan Mn Rg Op Mk) (c : SizedContainer) (s : Symbol) (n : Nat) : Prop :=
  ∃ op original, plan.ops[n]? = some op ∧ (op.offsetOf I original).isSome = true ∧
    original - s.address < c.sizeOf s.id

/-- The stretch of ops from the first covered one to the last one: the covered
ops still in the plan and what was inserted among them. -/
structure CoveredStretch (plan : RewritePlan Mn Rg Op Mk) (c : SizedContainer) (s : Symbol)
    (first last : Nat) : Prop where
  firstCovered : Covered I plan c s first
  lastCovered : Covered I plan c s last
  bounds : ∀ n, Covered I plan c s n → first ≤ n ∧ n ≤ last

/-- After a commit the symbols of the section name the instructions they named,
its functions cover theirs, and the relocations of other sections against such
symbols denote theirs. -/
structure SymbolsFollow (plan : RewritePlan Mn Rg Op Mk) (layout : Layout) (id : SectionId)
    (before after : SizedContainer) : Prop where
  symbols : ∀ s ∈ before.container.symbols, s.DefinedIn id → ∀ address,
    LaidAt I plan layout s.address address →
      ∃ s', after.container.symbol s.id = some s' ∧ s'.address = address
  functions : ∀ s ∈ before.container.symbols, s.DefinedIn id → s.kind = .function →
    (∀ first last op l op' l', CoveredStretch I plan before s first last →
      Placed plan layout first op l → Placed plan layout last op' l' →
        ∃ s', after.container.symbol s.id = some s' ∧ s'.address = l.address ∧
          s'.address + after.sizeOf s.id = l'.address + l'.size) ∧
    ((∀ n, ¬ Covered I plan before s n) → after.sizeOf s.id = 0)
  relocations : ∀ r ∈ before.container.relocations, r.sectionId ≠ id → ∀ s symbolId,
    r.symbol = some symbolId → before.container.symbol symbolId = some s → s.DefinedIn id →
      (∃ address, LaidAt I plan layout s.address address) → ∀ address,
        LaidAt I plan layout (s.address + BitVec.ofInt 64 r.addend) address →
          r ∈ after.container.relocations ∧ ∃ s', after.container.symbol symbolId = some s' ∧
            s'.address + BitVec.ofInt 64 r.addend = address

/-- As many bytes stand before the instruction lifted from an address as before
that address in the section. -/
def InPlace (plan : RewritePlan Mn Rg Op Mk) (layout : Layout) (base original : U64) : Prop :=
  ∀ n op offset, plan.ops[n]? = some op → op.offsetOf I original = some offset →
    base + bytesBefore I plan layout n + offset = original

/-- The edit leaves the named instructions where they were: every instruction
that a symbol of the section names, or a relocation of another section against
one, is in place; and the stretch of every function starts at its address and
takes as many bytes as it. -/
structure LeavesInPlace (plan : RewritePlan Mn Rg Op Mk) (layout : Layout) (base : U64)
    (id : SectionId) (c : SizedContainer) : Prop where
  symbols : ∀ s ∈ c.container.symbols, s.DefinedIn id → InPlace I plan layout base s.address
  functions : ∀ s ∈ c.container.symbols, s.DefinedIn id → s.kind = .function →
    (∀ first last, CoveredStretch I plan c s first last →
      base + bytesBefore I plan layout first = s.address ∧
        bytesBefore I plan layout first + c.sizeOf s.id = bytesBefore I plan layout (last + 1)) ∧
    ((∀ n, ¬ Covered I plan c s n) → c.sizeOf s.id = 0)
  relocations : ∀ r ∈ c.container.relocations, r.sectionId ≠ id → ∀ s symbolId,
    r.symbol = some symbolId → c.container.symbol symbolId = some s → s.DefinedIn id →
      (∃ address, LaidAt I plan layout s.address address) →
        InPlace I plan layout base (s.address + BitVec.ofInt 64 r.addend)

variable {I}

/-- An instruction is in place exactly when layout puts it at its old address. -/
theorem LaidOut.inPlace_iff {plan : RewritePlan Mn Rg Op Mk} {base : U64}
    {container : Option Container} {sizeProbe : Bool} {layout : Layout}
    (h : LaidOut I plan base container sizeProbe layout) (original : U64) :
    InPlace I plan layout base original ↔
      ∀ address, LaidAt I plan layout original address → original = address := by
  constructor
  · rintro hplace address ⟨n, op, l, offset, hplaced, hoffset, rfl⟩
    rw [(h.placed_address hplaced).1, hplace n op offset hplaced.1 hoffset]
  · intro hlaid n op offset hop hoffset
    obtain ⟨l, hplaced⟩ := h.exists_placed hop
    have haddress := hlaid (l.address + offset) ⟨n, op, l, offset, hplaced, hoffset, rfl⟩
    rw [(h.placed_address hplaced).1] at haddress
    exact haddress.symm

/-- **Symbols follow the code exactly when the edit leaves in place what they
name**, whatever edits led from the lifted plan to the one laid out. -/
theorem commit_follows_iff [DecidableEq Mn] [DecidableEq Op] {lifted plan : RewritePlan Mn Rg Op Mk}
    {edits : List (PlanEdit Mn Op)} {base : U64} {id : SectionId} {before after : SizedContainer}
    {layout : Layout} {out : EmitOutput} (_ : lifted.applyEdits edits = .ok plan)
    (hlayout : layOut I plan base (some before.container) = .ok layout)
    (_ : emit I plan layout (some before.container) = .ok out)
    (hcommit : before.commit id out = some after) :
    SymbolsFollow I plan layout id before after ↔ LeavesInPlace I plan layout base id before := by
  have hlaid := layOut_laidOut hlayout
  obtain ⟨hcontainer, hsizes⟩ := SizedContainer.commit_eq_some hcommit
  have hsymbols := commitToContainer_symbols hcontainer
  have hsymbol : ∀ symbolId, after.container.symbol symbolId = before.container.symbol symbolId := by
    intro symbolId
    rw [Container.symbol, Container.symbol, hsymbols]
  have hsize : ∀ symbolId, after.sizeOf symbolId = before.sizeOf symbolId := by
    intro symbolId
    rw [SizedContainer.sizeOf, SizedContainer.sizeOf, hsizes]
  have hself : ∀ s ∈ before.container.symbols, after.container.symbol s.id = some s := by
    intro s hs
    rw [hsymbol]
    exact Container.symbol_id hs
  constructor
  · intro hfollow
    constructor
    case symbols =>
      intro s hs hdefined
      refine (hlaid.inPlace_iff s.address).mpr fun address haddress => ?_
      obtain ⟨s', hs', rfl⟩ := hfollow.symbols s hs hdefined address haddress
      rw [hself s hs] at hs'
      cases hs'
      rfl
    case functions =>
      intro s hs hdefined hkind
      obtain ⟨hstretch, hnone⟩ := hfollow.functions s hs hdefined hkind
      refine ⟨?_, fun hempty => hsize s.id ▸ hnone hempty⟩
      intro first last hcovered
      obtain ⟨op, -, hop, -⟩ := hcovered.firstCovered
      obtain ⟨op', -, hop', -⟩ := hcovered.lastCovered
      obtain ⟨l, hplaced⟩ := hlaid.exists_placed hop
      obtain ⟨l', hplaced'⟩ := hlaid.exists_placed hop'
      obtain ⟨s', hs', hstart, hstop⟩ := hstretch first last op l op' l' hcovered hplaced hplaced'
      rw [hself s hs] at hs'
      cases hs'
      rw [(hlaid.placed_address hplaced).1] at hstart
      rw [hsize, hstart, (hlaid.placed_address hplaced').1, BitVec.add_assoc, BitVec.add_assoc,
        ← (hlaid.placed_address hplaced').2] at hstop
      exact ⟨hstart.symm, (BitVec.add_right_inj _).mp hstop⟩
    case relocations =>
      intro r hr hother s symbolId hsym hs hdefined hnamed
      refine (hlaid.inPlace_iff _).mpr fun address haddress => ?_
      obtain ⟨-, s', hs', hdenotes⟩ :=
        hfollow.relocations r hr hother s symbolId hsym hs hdefined hnamed address haddress
      rw [hsymbol, hs] at hs'
      cases hs'
      exact hdenotes
  · intro hplace
    constructor
    case symbols =>
      intro s hs hdefined address haddress
      exact ⟨s, hself s hs,
        (hlaid.inPlace_iff s.address).mp (hplace.symbols s hs hdefined) address haddress⟩
    case functions =>
      intro s hs hdefined hkind
      obtain ⟨hstretch, hnone⟩ := hplace.functions s hs hdefined hkind
      refine ⟨?_, fun hempty => (hsize s.id).trans (hnone hempty)⟩
      intro first last op l op' l' hcovered hplaced hplaced'
      obtain ⟨hstart, hstop⟩ := hstretch first last hcovered
      refine ⟨s, hself s hs, ?_, ?_⟩
      · rw [(hlaid.placed_address hplaced).1]
        exact hstart.symm
      · rw [hsize, ← hstart, (hlaid.placed_address hplaced').1, BitVec.add_assoc, BitVec.add_assoc,
          ← (hlaid.placed_address hplaced').2, hstop]
    case relocations =>
      intro r hr hother s symbolId hsym hs hdefined hnamed address haddress
      refine ⟨mem_commitToContainer_relocations hcontainer hr hother, s, ?_, ?_⟩
      · rw [hsymbol]
        exact hs
      · exact (hlaid.inPlace_iff _).mp
          (hplace.relocations r hr hother s symbolId hsym hs hdefined hnamed) address haddress

/-! ## §4. A function after a removed instruction. -/

/-- An object with `nop` before a function that returns at once, and a pointer
to the function in its data. -/
def padObject : Container where
  format := .elf
  architecture := .aarch64
  kind := .relocatable
  sections := [⟨⟨0⟩, 0, 8, toLeBytes 0xd503201f#32 ++ toLeBytes 0xd65f03c0#32, .text⟩,
    ⟨⟨1⟩, 0, 8, [0, 0, 0, 0, 0, 0, 0, 0], .data⟩]
  symbols := [⟨⟨0⟩, "f", 4, .function, some ⟨0⟩, false⟩]
  relocations := [⟨⟨0⟩, ⟨1⟩, 0, .absolute, 64, 0, some ⟨0⟩⟩]
  elfImage := none
  machoImage := none
  sectionIds := rfl
  symbolIds := rfl
  relocationSections := by simp

def sizedPadObject : SizedContainer := ⟨padObject, [4], rfl⟩

def liftedNop : AarchInstruction := ⟨.nop, [], some 0, some 4⟩

def liftedRet : AarchInstruction := ⟨.ret, [.decoded (.register (xReg 30))], some 4, some 4⟩

def padPlan : AarchPlan := ⟨[⟨⟨0⟩, [.instruction liftedNop, .instruction liftedRet]⟩]⟩

/-- The plan without its `nop`. -/
def unpaddedPlan : AarchPlan := ⟨[⟨⟨0⟩, [.instruction liftedRet]⟩]⟩

def unpaddedLayout : Layout where
  baseAddress := 0
  totalSize := 4
  blockAddresses := [0]
  instructionLayouts := [[⟨0, 4, .normal⟩]]

def unpaddedOutput : EmitOutput := ⟨toLeBytes 0xd65f03c0#32, []⟩

theorem emit_unpadded :
    emit aarch64 unpaddedPlan unpaddedLayout (some padObject) = .ok unpaddedOutput := by
  have hcopied : verbatimBytes aarch64 liftedRet 0 [0] (some padObject)
      = some (toLeBytes 0xd65f03c0#32) := by
    decide +kernel
  have hop : emitInstruction aarch64 liftedRet ⟨0, 4, .normal⟩
      (unpaddedLayout.context (some padObject)) .empty = .ok unpaddedOutput :=
    emitInstruction_iff.mpr (.verbatim none _ rfl rfl hcopied rfl)
  exact emit_single rfl hop

/-- Without the `nop` the function stands at the start of the section, and its
symbol stays where it was. -/
theorem removedNop_lost :
    padPlan.applyEdits [.remove 0] = .ok unpaddedPlan ∧
      layOut aarch64 unpaddedPlan 0 (some padObject) = .ok unpaddedLayout ∧
      emit aarch64 unpaddedPlan unpaddedLayout (some padObject) = .ok unpaddedOutput ∧
      ∃ after, sizedPadObject.commit ⟨0⟩ unpaddedOutput = some after ∧
        ¬ SymbolsFollow aarch64 unpaddedPlan unpaddedLayout ⟨0⟩ sizedPadObject after := by
  refine ⟨rfl, by decide, emit_unpadded, ?_⟩
  obtain ⟨after, hafter⟩ : ∃ after, sizedPadObject.commit ⟨0⟩ unpaddedOutput = some after :=
    ⟨_, rfl⟩
  refine ⟨after, hafter, ?_⟩
  intro hfollow
  obtain ⟨s, hs, haddress⟩ := hfollow.symbols _ (List.mem_singleton_self _) ⟨rfl, rfl⟩ 0
    ⟨0, _, _, 0, ⟨rfl, rfl⟩, rfl, rfl⟩
  rw [Container.symbol, commitToContainer_symbols (SizedContainer.commit_eq_some hafter).1] at hs
  cases hs
  cases haddress

/-- The condition on the object without its `nop`. -/
theorem removedNop_follows_iff :
    ∃ after, sizedPadObject.commit ⟨0⟩ unpaddedOutput = some after ∧
      (SymbolsFollow aarch64 unpaddedPlan unpaddedLayout ⟨0⟩ sizedPadObject after ↔
        LeavesInPlace aarch64 unpaddedPlan unpaddedLayout 0 ⟨0⟩ sizedPadObject) := by
  obtain ⟨after, hafter⟩ : ∃ after, sizedPadObject.commit ⟨0⟩ unpaddedOutput = some after :=
    ⟨_, rfl⟩
  exact ⟨after, hafter, commit_follows_iff
    (rfl : padPlan.applyEdits [.remove 0] = .ok unpaddedPlan) (by decide) emit_unpadded
    hafter⟩

end Armv8Encode

/-
  Armv8Encode.Rewrite.Data — relocation-aware rewriting of data sections.

  Lift cuts a section at every absolute relocation into byte runs and pointer
  slots; emit writes the items one after the other, aligned, and turns a slot
  with a symbol back into a relocation; commit puts bytes and relocations into
  the container.  Offsets within a section are natural numbers: no section is
  longer than the address space.
-/
import Armv8Encode.Rewrite.Commit

namespace Armv8Encode

/-! ## §1. Items. -/

/-- Either raw bytes or a symbolic pointer. -/
inductive DataPayload where
  | bytes (bytes : List Byte)
  | pointer (target : Target) (addend : Int) (widthBytes : Nat)
  deriving Repr, DecidableEq

/-- One unit of content inside a data section. -/
structure DataItem where
  label : Option SymbolId
  align : Nat
  payload : DataPayload
  deriving Repr, DecidableEq

structure DataSection where
  sourceSection : Option SectionId
  items : List DataItem
  deriving Repr, DecidableEq

inductive DataLiftError where
  | unknownSection (id : SectionId)
  | relocationOutOfBounds (offset sectionSize : U64)
  | overlappingRelocations (firstOffset secondOffset : Nat)
  deriving Repr, DecidableEq

structure LiftedReloc where
  offset : Nat
  width : Nat
  target : Target
  addend : Int
  deriving Repr, DecidableEq

/-- The byte width of a pointer slot; `none` for a kind that is not one. -/
def dataRelocationWidth : RelocationKind → Option Nat
  | .absolute => some 8
  | _ => none

/-! ## §2. Lift. -/

/-- The slot of a relocation that lift handles. -/
def liftedReloc (r : Relocation) : Option LiftedReloc :=
  (dataRelocationWidth r.kind).map fun width =>
    ⟨r.offset.toNat, width, (r.symbol.map Target.symbol).getD (.absolute 0), r.addend⟩

/-- The offsets of the first two neighbours that overlap. -/
def firstOverlap : List LiftedReloc → Option (Nat × Nat)
  | a :: b :: rest =>
    if b.offset < a.offset + a.width then some (a.offset, b.offset) else firstOverlap (b :: rest)
  | _ => none

/-- The first symbol defined at an offset of a section. -/
def dataLabel (c : Container) (s : Section) (offset : Nat) : Option SymbolId :=
  (c.symbols.find? fun symbol =>
    !symbol.isUndefined && symbol.sectionId == some s.id && decide (s.address ≤ symbol.address)
      && decide (symbol.address - s.address < s.size)
      && (symbol.address - s.address).toNat == offset).map Symbol.id

/-- Trailing zero bits, looking at `fuel` of them. -/
def trailingZeros : Nat → Nat → Nat
  | 0, _ => 0
  | fuel + 1, n => if n % 2 = 1 then 0 else trailingZeros fuel (n / 2) + 1

/-- The section's alignment, or the largest power of two that divides the
offset if that is smaller. -/
def alignForOffset (offset sectionAlign : Nat) : Nat :=
  if offset = 0 then max sectionAlign 1
  else if sectionAlign ≤ 1 then 1
  else min (2 ^ trailingZeros 64 offset) (max sectionAlign 1)

section

variable (bytes : List Byte) (sectionAlign : Nat) (label : Nat → Option SymbolId)

/-- The item for a run of bytes, none for an empty one. -/
def bytesItem (offset : Nat) (chunk : List Byte) : List DataItem :=
  if chunk.isEmpty then []
  else [⟨label offset, alignForOffset offset sectionAlign, .bytes chunk⟩]

def pointerItem (r : LiftedReloc) : DataItem :=
  ⟨label r.offset, alignForOffset r.offset sectionAlign, .pointer r.target r.addend r.width⟩

/-- Cut the bytes from `cursor` on at every slot. -/
def liftItems (cursor : Nat) : List LiftedReloc → List DataItem
  | [] => bytesItem sectionAlign label cursor (bytes.drop cursor)
  | r :: rest =>
    bytesItem sectionAlign label cursor ((bytes.take r.offset).drop cursor)
      ++ pointerItem sectionAlign label r :: liftItems (r.offset + r.width) rest

end

/-- A lifted section, and the relocations that lift did not recognise. -/
structure DataLift where
  plan : DataSection
  unhandledRelocations : List Relocation
  deriving Repr, DecidableEq

/-- The slots of a section, in order of their offsets. -/
def handledRelocations (c : Container) (id : SectionId) : List LiftedReloc :=
  ((c.relocationsFor id).filterMap liftedReloc).mergeSort fun a b => decide (a.offset ≤ b.offset)

/-- Lift a section; `sectionAlign` is the alignment its header asks for. -/
def DataSection.lift (c : Container) (sectionAlign : Nat) (id : SectionId) :
    Except DataLiftError DataLift :=
  match c.sections.find? (fun s => s.id == id) with
  | none => .error (.unknownSection id)
  | some s =>
    match (c.relocationsFor id).find? (fun r => decide (s.size ≤ r.offset)) with
    | some r => .error (.relocationOutOfBounds r.offset s.size)
    | none =>
      match firstOverlap (handledRelocations c id) with
      | some (first, second) => .error (.overlappingRelocations first second)
      | none =>
        .ok
          { plan :=
              ⟨some id, liftItems s.bytes sectionAlign (dataLabel c s) 0 (handledRelocations c id)⟩
            unhandledRelocations :=
              (c.relocationsFor id).filter fun r => (liftedReloc r).isNone }

/-! ## §3. Emit. -/

def alignPadding (currentOffset align : Nat) : Nat :=
  if align ≤ 1 then 0
  else
    let remainder := currentOffset % align
    if remainder = 0 then 0 else align - remainder

/-- The kind a pointer of any width is emitted as. -/
def relocationKindForPointerWidth (_widthBytes : Nat) : RelocationKind := .absolute

/-- Align, then append the payload; a slot without a symbol leaves no relocation. -/
def emitDataItem (out : EmitOutput) (item : DataItem) : EmitOutput :=
  let padding := if 1 < item.align then alignPadding out.bytes.length item.align else 0
  let aligned := out.bytes ++ List.replicate padding 0
  match item.payload with
  | .bytes chunk => { out with bytes := aligned ++ chunk }
  | .pointer target addend widthBytes =>
    { bytes := aligned ++ List.replicate widthBytes 0
      relocations :=
        match target with
        | .symbol symbol => out.relocations ++
            [⟨BitVec.ofNat 64 aligned.length, relocationKindForPointerWidth widthBytes, symbol,
              addend⟩]
        | _ => out.relocations }

def emitDataSection (plan : DataSection) : EmitOutput := plan.items.foldl emitDataItem .empty

/-! ## §4. Commit. -/

/-- A relocation handed through, renumbered. -/
def passedRelocation (id : SectionId) (r : Relocation) (count : Nat) : Relocation :=
  { r with id := ⟨count⟩, sectionId := id }

/-- The relocations of other sections, then the emitted ones, then those
handed through. -/
def Container.committedDataRelocations (c : Container) (id : SectionId)
    (emitted : List EmittedRelocation) (extra : List Relocation) : List Relocation :=
  let spliced := c.committedRelocations id emitted
  spliced ++ extra.zipIdx.map fun p => passedRelocation id p.1 (spliced.length + p.2)

theorem Container.emittedSections_ids (c : Container) (id : SectionId) (output : EmitOutput) :
    (c.sectionsWithBytes id output.bytes).map Section.id
      = (List.range (c.sectionsWithBytes id output.bytes).length).map SectionId.mk :=
  c.sectionsWithBytes_ids id output.bytes

/-- The container with one data section's bytes and relocations replaced;
`none` where the source panics on the section id. -/
def commitToDataContainer (c : Container) (id : SectionId) (output : EmitOutput)
    (extra : List Relocation) : Option Container :=
  if h : id.index < c.sections.length then
    some
      { c with
        sections := c.sectionsWithBytes id output.bytes
        relocations := c.committedDataRelocations id output.relocations extra
        sectionIds := c.emittedSections_ids id output
        relocationSections := by
          intro r hr
          have hlen : (c.sectionsWithBytes id output.bytes).length = c.sections.length := by
            simp [Container.sectionsWithBytes]
          rw [hlen]
          rcases List.mem_append.mp hr with hspliced | hextra
          · rcases List.mem_append.mp hspliced with hkept | hnew
            · exact c.relocationSections r (List.mem_filter.mp hkept).1
            · obtain ⟨p, -, rfl⟩ := List.mem_map.mp hnew
              exact h
          · obtain ⟨p, -, rfl⟩ := List.mem_map.mp hextra
            exact h }
  else none

end Armv8Encode

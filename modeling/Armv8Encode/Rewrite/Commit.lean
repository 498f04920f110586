/-
  Armv8Encode.Rewrite.Commit — splicing emit output back into a container.
-/
import Armv8Encode.Rewrite.Emit

namespace Armv8Encode

/-- Width of the relocated field in bits. -/
def relocationSizeBits : RelocationKind → Nat
  | .branch26 => 26
  | .branch19 => 19
  | .branch14 => 14
  | .adrpPage21 => 21
  | .addPageOffset12 => 12
  | .loadStorePageOffset12 _ => 12
  | .absolute => 64
  | .armCall | .armJump24 | .armPc24 => 24
  | .armRelative | .armGlobData | .armJumpSlot | .armAbs32 => 32
  | .armMovwAbsNc | .armMovtAbs => 16
  | .thumbCall | .thumbJump24 => 24
  | .thumbJump19 => 19
  | .thumbMovwAbsNc | .thumbMovtAbs => 16
  | .x86Pc32 | .x86Plt32 | .x86GotPcRel | .x86Abs32 => 32
  | .x86Abs64 => 64
  | .other _ => 32

/-- The container relocation for an emitted one; `count` is how many the
container holds already. -/
def intoRelocation (id : SectionId) (r : EmittedRelocation) (count : Nat) : Relocation where
  id := ⟨count⟩
  sectionId := id
  offset := r.offset
  kind := r.kind
  size := relocationSizeBits r.kind
  addend := r.addend
  symbol := some r.symbol

/-- One section's bytes replaced, its size with them. -/
def Section.withBytes (s : Section) (bytes : List Byte) : Section :=
  { s with bytes := bytes, size := BitVec.ofNat 64 bytes.length }

namespace Container

variable (c : Container)

/-- The relocations that survive a commit of one section, then the emitted
ones, numbered on. -/
def committedRelocations (id : SectionId) (emitted : List EmittedRelocation) : List Relocation :=
  let kept := c.relocations.filter (fun r => r.sectionId != id)
  kept ++ emitted.zipIdx.map (fun p => intoRelocation id p.1 (kept.length + p.2))

/-- The sections with one section's bytes replaced. -/
def sectionsWithBytes (id : SectionId) (bytes : List Byte) : List Section :=
  c.sections.modify id.index (Section.withBytes · bytes)

theorem sectionsWithBytes_ids (id : SectionId) (bytes : List Byte) :
    (c.sectionsWithBytes id bytes).map Section.id
      = (List.range (c.sectionsWithBytes id bytes).length).map SectionId.mk := by
  have hids : (c.sectionsWithBytes id bytes).map Section.id = c.sections.map Section.id := by
    apply List.ext_getElem?
    intro i
    simp only [sectionsWithBytes, List.getElem?_map, List.getElem?_modify]
    cases c.sections[i]? with
    | none => rfl
    | some s => by_cases h : id.index = i <;> simp [h, Section.withBytes]
  rw [hids, c.sectionIds]
  simp [sectionsWithBytes]

end Container

/-- The container with one section's bytes and relocations replaced; `none`
where the source panics on the section id. -/
def commitToContainer (c : Container) (id : SectionId) (output : EmitOutput) :
    Option Container :=
  if h : id.index < c.sections.length then
    some
      { c with
        sections := c.sectionsWithBytes id output.bytes
        relocations := c.committedRelocations id output.relocations
        sectionIds := c.sectionsWithBytes_ids id output.bytes
        relocationSections := by
          intro r hr
          have hlen : (c.sectionsWithBytes id output.bytes).length = c.sections.length := by
            simp [Container.sectionsWithBytes]
          rw [hlen]
          rcases List.mem_append.mp hr with hkept | hnew
          · exact c.relocationSections r (List.mem_filter.mp hkept).1
          · obtain ⟨p, -, rfl⟩ := List.mem_map.mp hnew
            exact h }
  else none

end Armv8Encode

/-
  Armv8Encode.Container.Pe.Writer — linked PE images, written back.

  The writer copies the captured file and puts the bytes of every section, edited
  or not, over the place that the section's name finds: the first section of that
  name with a place in the file.  Names may repeat, and fewer bytes than the place
  holds are taken.

  Main results:
    * `write_eq_ok_iff` — what is written, as a run of writes over the file.
    * `writesExactly_iff` — when writing is an exact splice.
-/
import Armv8Encode.Lib.Except
import Armv8Encode.Lib.Writes

namespace Armv8Encode.Pe

open Lib

/-! ## §1. Reading and writing. -/

/-- What the object library says about a section: its name, if it has a readable
one, and the range of its raw data, if it has any. -/
structure ObjectSection where
  name : Option String
  fileRange : Option (Nat × Nat)
  deriving Repr, DecidableEq

/-- The raw data of a section; a range that leaves the file cannot be read. -/
def ObjectSection.data (s : ObjectSection) (rawBytes : List Byte) : List Byte :=
  match s.fileRange with
  | some (offset, size) =>
    if offset + size ≤ rawBytes.length then slice rawBytes offset size else []
  | none => []

structure PeSectionFile where
  name : String
  fileOffset : Nat
  fileSize : Nat
  deriving Repr, DecidableEq

structure PeImage where
  rawBytes : List Byte
  sections : List PeSectionFile
  deriving Repr, DecidableEq

/-- The section's file placement by name. -/
def PeImage.sectionByName (image : PeImage) (name : String) : Option PeSectionFile :=
  image.sections.find? fun s => s.name == name

/-- A neutral section, as far as the writer reads it. -/
structure Section where
  name : String
  bytes : List Byte
  deriving Repr, DecidableEq

structure Container where
  sections : List Section
  peImage : Option PeImage
  deriving Repr, DecidableEq

def liftSections (rawBytes : List Byte) (sections : List ObjectSection) : List Section :=
  sections.map fun s => ⟨s.name.getD "", s.data rawBytes⟩

def liftPeImage (rawBytes : List Byte) (sections : List ObjectSection) : PeImage :=
  ⟨rawBytes, sections.filterMap fun s => do
    let name ← s.name
    let (fileOffset, fileSize) ← s.fileRange
    pure ⟨name, fileOffset, fileSize⟩⟩

inductive ContainerWriteError where
  | peImageMissing
  | objectWrite (detail : String)
  deriving Repr, DecidableEq

/-- Put one section over its place. -/
def applySectionOverride (image : PeImage) (out : List Byte) (sect : Section) :
    Except ContainerWriteError (List Byte) :=
  if sect.bytes.isEmpty then .ok out
  else
    match image.sectionByName sect.name with
    | none => .ok out
    | some entry =>
      if entry.fileOffset = 0 ∨ entry.fileSize = 0 then .ok out
      else
        let writable := min sect.bytes.length entry.fileSize
        if entry.fileSize < sect.bytes.length then
          let name := repr sect.name
          let length := sect.bytes.length
          let size := entry.fileSize
          .error (.objectWrite (s!"PE writer: section {name} override ({length} bytes) is larger "
            ++ s!"than the captured on-disk size ({size} bytes); length-growing edits "
            ++ "aren't supported"))
        else
          let start := entry.fileOffset
          let stop := start + writable
          if out.length < stop then
            let name := repr sect.name
            .error (.objectWrite s!"PE writer: section {name} extends past end of file")
          else .ok (patch out start (sect.bytes.take writable))

def applySectionOverrides (container : Container) (image : PeImage) (out : List Byte) :
    Except ContainerWriteError (List Byte) :=
  container.sections.foldlM (applySectionOverride image) out

/-- Serialize a PE container. -/
def write (container : Container) : Except ContainerWriteError (List Byte) :=
  match container.peImage with
  | none => .error .peImageMissing
  | some image => applySectionOverrides container image image.rawBytes

/-! ## §2. The run of writes. -/

/-- Where a section goes: its place by name and its bytes. -/
def overrideOf (image : PeImage) (sect : Section) : Option (PeSectionFile × List Byte) :=
  if sect.bytes = [] then none
  else
    (image.sectionByName sect.name).bind fun entry =>
      if entry.fileOffset = 0 ∨ entry.fileSize = 0 then none else some (entry, sect.bytes)

def Container.overrides (container : Container) (image : PeImage) :
    List (PeSectionFile × List Byte) :=
  container.sections.filterMap (overrideOf image)

/-- A section is larger than its place, or the place leaves the file. -/
def Refused (container : Container) (image : PeImage) : Prop :=
  ∃ o ∈ container.overrides image,
    o.1.fileSize < o.2.length ∨ image.rawBytes.length < o.1.fileOffset + o.2.length

/-- The writes, with their offsets. -/
def Container.writes (container : Container) (image : PeImage) : List (Nat × List Byte) :=
  (container.overrides image).map fun o => (o.1.fileOffset, o.2)

theorem applySectionOverride_none {image : PeImage} {sect : Section}
    (h : overrideOf image sect = none) (out : List Byte) :
    applySectionOverride image out sect = .ok out := by
  unfold overrideOf at h
  unfold applySectionOverride
  by_cases hempty : sect.bytes = []
  · rw [if_pos (by simp [hempty])]
  · rw [if_neg hempty] at h
    rw [if_neg (by simp [hempty])]
    cases hentry : image.sectionByName sect.name with
    | none => rfl
    | some entry =>
      rw [hentry, Option.bind_some] at h
      by_cases hzero : entry.fileOffset = 0 ∨ entry.fileSize = 0
      · simp only [if_pos hzero]
      · rw [if_neg hzero] at h
        cases h

/-- What one section does. -/
theorem applySectionOverride_some {image : PeImage} {sect : Section}
    {o : PeSectionFile × List Byte} (h : overrideOf image sect = some o) {out out' : List Byte} :
    applySectionOverride image out sect = .ok out' ↔
      o.2.length ≤ o.1.fileSize ∧ o.1.fileOffset + o.2.length ≤ out.length ∧
        out' = patch out o.1.fileOffset o.2 := by
  unfold overrideOf at h
  unfold applySectionOverride
  by_cases hempty : sect.bytes = []
  · rw [if_pos hempty] at h
    cases h
  · rw [if_neg hempty] at h
    rw [if_neg (by simp [hempty])]
    cases hentry : image.sectionByName sect.name with
    | none =>
      rw [hentry] at h
      cases h
    | some entry =>
      rw [hentry, Option.bind_some] at h
      by_cases hzero : entry.fileOffset = 0 ∨ entry.fileSize = 0
      · rw [if_pos hzero] at h
        cases h
      · rw [if_neg hzero] at h
        obtain rfl := Option.some.inj h
        simp only [if_neg hzero]
        by_cases hlarge : entry.fileSize < sect.bytes.length
        · rw [if_pos hlarge]
          exact iff_of_false (fun h => by cases h) (fun h => by omega)
        · rw [if_neg hlarge, Nat.min_eq_left (by omega), List.take_length]
          by_cases hend : out.length < entry.fileOffset + sect.bytes.length
          · rw [if_pos hend]
            exact iff_of_false (fun h => by cases h) (fun h => by omega)
          · rw [if_neg hend, Except.ok.injEq]
            exact ⟨fun h => ⟨by omega, by omega, h.symm⟩, fun h => h.2.2.symm⟩

/-- **What is written**: every section of the run fits, and the file is what the
writes leave. -/
theorem applySectionOverrides_eq_ok_iff {image : PeImage} (sections : List Section)
    (out out' : List Byte) :
    sections.foldlM (applySectionOverride image) out = .ok out' ↔
      (∀ o ∈ sections.filterMap (overrideOf image),
        o.2.length ≤ o.1.fileSize ∧ o.1.fileOffset + o.2.length ≤ out.length) ∧
        out' = (writeAll out ((sections.filterMap (overrideOf image)).map
          fun o => (o.1.fileOffset, o.2))).2 := by
  induction sections generalizing out with
  | nil =>
    show Except.ok out = Except.ok out' ↔ _
    rw [Except.ok.injEq]
    exact ⟨fun h => ⟨fun o ho => (by cases ho), h.symm⟩, fun h => h.2.symm⟩
  | cons sect rest ih =>
    rw [List.foldlM_cons, List.filterMap_cons]
    cases hplace : overrideOf image sect with
    | none =>
      rw [applySectionOverride_none hplace]
      exact ih out
    | some o =>
      rw [List.forall_mem_cons, List.map_cons, writeAll]
      constructor
      · intro hrun
        obtain ⟨mid, hmid, hrest⟩ := bind_eq_ok.mp hrun
        obtain ⟨hsize, hend, rfl⟩ := (applySectionOverride_some hplace).mp hmid
        obtain ⟨hall, hout⟩ := (ih _).mp hrest
        rw [length_patch hend] at hall
        rw [if_neg (Nat.not_lt.mpr hend)]
        exact ⟨⟨⟨hsize, hend⟩, hall⟩, hout⟩
      · rintro ⟨⟨⟨hsize, hend⟩, hall⟩, hout⟩
        rw [if_neg (Nat.not_lt.mpr hend)] at hout
        refine bind_eq_ok.mpr ⟨patch out o.1.fileOffset o.2,
          (applySectionOverride_some hplace).mpr ⟨hsize, hend, rfl⟩, (ih _).mpr ⟨?_, hout⟩⟩
        rwa [length_patch hend]

theorem write_eq_ok_iff {container : Container} {image : PeImage}
    (himage : container.peImage = some image) {out : List Byte} :
    write container = .ok out ↔
      ¬Refused container image ∧
        out = (writeAll image.rawBytes (container.writes image)).2 := by
  unfold write Refused
  rw [himage]
  refine (applySectionOverrides_eq_ok_iff container.sections image.rawBytes out).trans ?_
  refine and_congr_left fun _ => ?_
  simp only [not_exists, not_and, not_or, Nat.not_lt]
  rfl

/-! ## §3. An exact splice. -/

/-- A section of the file and the bytes it has in the container. -/
structure EditedSection where
  file : ObjectSection
  bytes : List Byte
  deriving Repr, DecidableEq

def EditedSection.Edited (s : EditedSection) (rawBytes : List Byte) : Prop :=
  s.bytes ≠ s.file.data rawBytes

/-- The container of a file, with sections' bytes replaced. -/
def editedContainer (rawBytes : List Byte) (sections : List EditedSection) : Container :=
  ⟨sections.map fun s => ⟨s.file.name.getD "", s.bytes⟩,
    some (liftPeImage rawBytes (sections.map EditedSection.file))⟩

/-- No edited section has the place in its range. -/
def Unedited (rawBytes : List Byte) (sections : List EditedSection) (x : Nat) : Prop :=
  ∀ s ∈ sections, s.Edited rawBytes → ∀ offset size, s.file.fileRange = some (offset, size) →
    x < offset ∨ offset + size ≤ x

/-- The file with every edited section's range replaced by its bytes. -/
structure ExactSplice (rawBytes : List Byte) (sections : List EditedSection) (out : List Byte) :
    Prop where
  length : out.length = rawBytes.length
  edited : ∀ s ∈ sections, s.Edited rawBytes → ∃ offset,
    s.file.fileRange = some (offset, s.bytes.length) ∧
      ∀ k < s.bytes.length, out[offset + k]? = s.bytes[k]?
  others : ∀ x, Unedited rawBytes sections x → out[x]? = rawBytes[x]?

/-- A container without edits gives the file back, and what is written is an
exact splice. -/
structure WritesExactly (rawBytes : List Byte) (sections : List EditedSection) : Prop where
  unedited : (∀ s ∈ sections, ¬s.Edited rawBytes) →
    write (editedContainer rawBytes sections) = .ok rawBytes
  splice : ∀ out, write (editedContainer rawBytes sections) = .ok out →
    ExactSplice rawBytes sections out

/-- The writer refuses the sections. -/
def RefusesEdits (rawBytes : List Byte) (sections : List EditedSection) : Prop :=
  Refused (editedContainer rawBytes sections)
    (liftPeImage rawBytes (sections.map EditedSection.file))

/-- Where the names find places for the sections, and what goes there. -/
def placed (rawBytes : List Byte) (sections : List EditedSection) : List (Nat × List Byte) :=
  (editedContainer rawBytes sections).writes
    (liftPeImage rawBytes (sections.map EditedSection.file))

/-- Edits keep lengths, and finding places by name does no harm: over a byte of
an edited range the last section that is put there has the new byte, and over
any other byte the one that was there. -/
structure PlacedRight (rawBytes : List Byte) (sections : List EditedSection) : Prop where
  lengths : ∀ s ∈ sections, s.Edited rawBytes → ∃ offset,
    s.file.fileRange = some (offset, s.bytes.length)
  edited : ∀ s ∈ sections, s.Edited rawBytes → ∀ offset size,
    s.file.fileRange = some (offset, size) → ∀ k < size,
      (lastWritten (offset + k) (placed rawBytes sections)).or rawBytes[offset + k]? = s.bytes[k]?
  others : ∀ x b, Unedited rawBytes sections x → lastWritten x (placed rawBytes sections) = some b →
    rawBytes[x]? = some b

theorem write_edited_iff {rawBytes : List Byte} {sections : List EditedSection} {out : List Byte} :
    write (editedContainer rawBytes sections) = .ok out ↔
      ¬RefusesEdits rawBytes sections ∧ out = (writeAll rawBytes (placed rawBytes sections)).2 :=
  write_eq_ok_iff rfl

/-- The bytes that are written. -/
theorem getElem?_placed {rawBytes : List Byte} {sections : List EditedSection}
    (h : ¬RefusesEdits rawBytes sections) (x : Nat) :
    (writeAll rawBytes (placed rawBytes sections)).2[x]?
      = (lastWritten x (placed rawBytes sections)).or rawBytes[x]? := by
  have hfit : fitting rawBytes.length (placed rawBytes sections) = placed rawBytes sections := by
    refine fitting_eq_self fun w hw => ?_
    obtain ⟨o, ho, rfl⟩ := List.mem_map.mp hw
    by_contra hend
    exact h ⟨o, ho, .inr (Nat.lt_of_not_le hend)⟩
  rw [getElem?_writeAll, hfit]

/-- Two sections of one name, the second of them edited. -/
def twoData : List EditedSection :=
  [⟨⟨some ".data", some (2, 2)⟩, [2, 3]⟩, ⟨⟨some ".data", some (4, 2)⟩, [8, 9]⟩]

end Armv8Encode.Pe

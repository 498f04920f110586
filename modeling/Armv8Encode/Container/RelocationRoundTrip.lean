/-
  Armv8Encode.Container.RelocationRoundTrip — an object file, read and written again.

  A relocation keeps its section, offset and addend.  Its type goes through a
  neutral kind that several types share, and comes back as the one the writer
  has for that kind; a relocation without a symbol comes back with the symbol of
  its own section.
-/
import Armv8Encode.Container.ReaderSpec
import Armv8Encode.Container.Writer
import Armv8Encode.Lib.Except
import Armv8Encode.Lib.Lists

namespace Armv8Encode.Objects

open Lib

/-! ## §1. Types that keep. -/

def elfTypeKept (architecture : Architecture) (rType : Nat) : Bool :=
  match architecture with
  | .x86_64 => rType != rX86_64_32S && rType != rX86_64_Gotpcrelx && rType != rX86_64_RexGotpcrelx
  | .x86 => true
  | _ => rType != rAarch64Abs32 && rType != rAarch64Jump26

def coffTypeKept (architecture : Architecture) (typ : Nat) : Bool :=
  architecture == .x86 || typ != imageRelAmd64Addr32Nb

/-- A Mach-O type has to come with the two fields that its kind is written with. -/
def machoTypeKept (architecture : Architecture) (rType : Nat) (rPcrel : Bool)
    (rLength : BitVec 8) : Bool :=
  match architecture with
  | .x86_64 =>
    match rType with
    | x86_64RelocUnsigned => !rPcrel && rLength == 3
    | x86_64RelocBranch | x86_64RelocGotLoad => rPcrel && rLength == 2
    | x86_64RelocSigned | x86_64RelocSigned1 | x86_64RelocSigned2 | x86_64RelocSigned4
    | x86_64RelocGot => false
    | _ => !rPcrel && rLength == 2
  | _ =>
    match rType with
    | arm64RelocUnsigned => !rPcrel && rLength == 3
    | arm64RelocBranch26 | arm64RelocPage21 => rPcrel && rLength == 2
    | arm64RelocGotLoadPage21 | arm64RelocGotLoadPageoff12 => false
    | _ => !rPcrel && rLength == 2

/-- The types that a neutral kind keeps. -/
def flagsKept (architecture : Architecture) : RelocationFlags → Bool
  | .elf rType => elfTypeKept architecture rType.toNat
  | .coff typ => coffTypeKept architecture typ.toNat
  | .macho rType rPcrel rLength => machoTypeKept architecture rType.toNat rPcrel rLength

/-- A word of a known value is that literal. -/
theorem eq_ofNat_of_toNat {w n : Nat} {x : BitVec w} (h : x.toNat = n) : x = BitVec.ofNat w n := by
  rw [← h, BitVec.ofNat_toNat, BitVec.setWidth_eq]

/-- A type after the round trip: what it became is kept from then on, and it is
itself again if and only if it was kept from the start. -/
def Settles (architecture : Architecture) (flags flags' : RelocationFlags) : Prop :=
  flagsKept architecture flags' = true ∧ (flags' = flags ↔ flagsKept architecture flags = true)

instance (architecture : Architecture) (flags flags' : RelocationFlags) :
    Decidable (Settles architecture flags flags') := inferInstanceAs (Decidable (_ ∧ _))

theorem Settles.of_kept {architecture : Architecture} {flags : RelocationFlags}
    (h : flagsKept architecture flags = true) : Settles architecture flags flags :=
  ⟨h, iff_of_true rfl h⟩

theorem settles_elf_x86_64 (rType : Word) :
    Settles .x86_64 (.elf rType) (elfFlags (mapElfX86_64Relocation rType) .x86_64) := by
  unfold mapElfX86_64Relocation
  split
  case h_9 h1 h2 h3 h4 h5 h6 h7 h8 =>
    refine .of_kept ?_
    simp only [flagsKept, elfTypeKept, Bool.and_eq_true, bne_iff_ne]
    exact ⟨⟨h7, h4⟩, h5⟩
  all_goals
    next h =>
      rw [eq_ofNat_of_toNat h]
      decide

theorem settles_elf_i386 (rType : Word) :
    Settles .x86 (.elf rType) (elfFlags (mapElfI386Relocation rType) .x86) := by
  unfold mapElfI386Relocation
  split
  case h_5 => exact .of_kept rfl
  all_goals
    next h =>
      rw [eq_ofNat_of_toNat h]
      decide

theorem settles_elf_aarch64 (rType : Word) :
    Settles .aarch64 (.elf rType) (elfFlags (mapElfArmRelocation rType) .aarch64) := by
  unfold mapElfArmRelocation
  split
  case h_28 =>
    refine .of_kept ?_
    simp only [flagsKept, elfTypeKept, Bool.and_eq_true, bne_iff_ne]
    exact ⟨by assumption, by assumption⟩
  all_goals
    next h =>
      rw [eq_ofNat_of_toNat h]
      decide

theorem settles_elf (rType : Word) (architecture : Architecture) :
    Settles architecture (.elf rType)
      (elfFlags (mapElfRelocation rType architecture) architecture) := by
  have hcommon : ∀ kind, elfFlags kind .arm = elfFlags kind .aarch64
      ∧ elfFlags kind .other = elfFlags kind .aarch64 := by
    intro kind
    cases kind <;> exact ⟨rfl, rfl⟩
  cases architecture with
  | x86_64 => exact settles_elf_x86_64 rType
  | x86 => exact settles_elf_i386 rType
  | aarch64 => exact settles_elf_aarch64 rType
  | arm =>
    have h := settles_elf_aarch64 rType
    rw [← (hcommon _).1] at h
    exact h
  | other =>
    have h := settles_elf_aarch64 rType
    rw [← (hcommon _).2] at h
    exact h

/-- The round trip of a type, where the writer has one for its kind. -/
def RoundTrips (architecture : Architecture) (flags : RelocationFlags) : Prop :=
  ∃ flags', relocationFlags (mapRelocationKind flags architecture) flags.format architecture
      = .ok flags' ∧ Settles architecture flags flags'

theorem roundTrips_elf (rType : Word) (architecture : Architecture) :
    RoundTrips architecture (.elf rType) :=
  ⟨_, rfl, settles_elf rType architecture⟩

theorem roundTrips_coff (typ : BitVec 16) (architecture : Architecture) :
    RoundTrips architecture (.coff typ) := by
  show ∃ flags', coffFlags (mapCoffRelocation typ architecture) architecture = .ok flags' ∧ _
  have hback : (typ.setWidth 32).setWidth 16 = typ := by simp
  have hother : ∀ h : coffTypeKept architecture typ.toNat = true,
      ∃ flags', coffFlags (.other (typ.setWidth 32)) architecture = .ok flags'
        ∧ Settles architecture (.coff typ) flags' := by
    intro h
    refine ⟨.coff ((typ.setWidth 32).setWidth 16), rfl, ?_⟩
    rw [hback]
    exact .of_kept h
  cases architecture
  all_goals
    simp only [mapCoffRelocation]
    split
    all_goals
      first
        | next h =>
          rw [eq_ofNat_of_toNat h]
          exact ⟨_, rfl, by decide⟩
        | refine hother ?_
          simp only [coffTypeKept, Bool.or_eq_true, bne_iff_ne]
          first
            | exact .inl rfl
            | exact .inr (by assumption)

theorem roundTrips_macho (rType : BitVec 8) (rPcrel : Bool) (rLength : BitVec 8)
    (architecture : Architecture) : RoundTrips architecture (.macho rType rPcrel rLength) := by
  show ∃ flags', machoFlags (mapMachoRelocation rType architecture) = .ok flags' ∧ _
  have hback : (rType.setWidth 32).setWidth 8 = rType := by simp
  -- Any other type is written without the flag and with length two.
  have hother : (∀ pcrel length, machoTypeKept architecture rType.toNat pcrel length
        = (!pcrel && length == 2)) →
      ∃ flags', machoFlags (.other (rType.setWidth 32)) = .ok flags'
        ∧ Settles architecture (.macho rType rPcrel rLength) flags' := by
    intro h
    refine ⟨.macho ((rType.setWidth 32).setWidth 8) false 2, rfl, ?_, ?_⟩
    · rw [hback]
      exact h false 2
    · rw [hback, RelocationFlags.macho.injEq]
      show _ ↔ machoTypeKept architecture rType.toNat rPcrel rLength = true
      rw [h, Bool.and_eq_true, Bool.not_eq_true', beq_iff_eq]
      exact ⟨fun ⟨_, hp, hl⟩ => ⟨hp.symm, hl.symm⟩, fun ⟨hp, hl⟩ => ⟨rfl, hp.symm, hl.symm⟩⟩
  cases architecture
  all_goals
    simp only [mapMachoRelocation]
    split
    all_goals
      first
        | next h =>
          rw [eq_ofNat_of_toNat h]
          refine ⟨_, rfl, by decide, ?_⟩
          simp [machoFields, flagsKept, machoTypeKept, arm64RelocUnsigned, arm64RelocBranch26,
            arm64RelocPage21, arm64RelocPageoff12, x86_64RelocUnsigned, x86_64RelocBranch,
            x86_64RelocGotLoad, @eq_comm (BitVec 8) 2#8 rLength, @eq_comm (BitVec 8) 3#8 rLength]
        | refine hother fun pcrel length => ?_
          simp only [machoTypeKept]

/-- **Types after the round trip.** -/
theorem roundTrips (flags : RelocationFlags) (architecture : Architecture) :
    RoundTrips architecture flags := by
  cases flags with
  | elf rType => exact roundTrips_elf rType architecture
  | macho rType rPcrel rLength => exact roundTrips_macho rType rPcrel rLength architecture
  | coff typ => exact roundTrips_coff typ architecture

/-! ## §2. Relocations that keep. -/

/-- A file's relocation with its section's id and its offset. -/
abbrev Located := ObjRelocation × SectionId × U64

/-- An output relocation refers to what the file's one does. -/
def SameTarget (file : ObjectFile) : RelocationTarget → WriteTarget → Prop
  | .symbol i, .symbol id => ∃ e, file.symbols[id.index]? = some e ∧ e.index = i
  | .sectionOf i, .sectionSymbol id => sectionIndexToId file i = some id
  | _, _ => False

/-- An output relocation that is the file's one. -/
structure RelocationKept (file : ObjectFile) (p : Located) (o : WriteRelocation) : Prop where
  sectionId : o.sectionId = p.2.1
  offset : o.offset = p.2.2
  flags : o.flags = p.1.flags
  target : SameTarget file p.1.target o.target
  addend : o.addend = p.1.addend

/-- Every relocation of a section that is written is in the output. -/
def RelocationsKept (file : ObjectFile) (written : List WriteRelocation) : Prop :=
  ∀ p ∈ staticRelocations file, p.2.1 ∈ addSections (parse file) →
    ∃ o ∈ written, RelocationKept file p o

/-- A symbol of the static table, or the relocation's own section. -/
def TargetCarried (file : ObjectFile) (own : SectionId) : RelocationTarget → Prop
  | .symbol i => ∃ e ∈ file.symbols, e.index = i
  | .sectionOf i => sectionIndexToId file i = some own
  | .absolute => False

/-- Relocations whose type the neutral kinds keep, and that have a symbol. -/
def RelocationsCarried (file : ObjectFile) : Prop :=
  ∀ p ∈ staticRelocations file, p.2.1 ∈ addSections (parse file) →
    flagsKept file.architecture p.1.flags = true ∧ TargetCarried file p.2.1 p.1.target

/-- What a located relocation is written as. -/
structure WrittenFor (file : ObjectFile) (p : Located) (o : WriteRelocation) : Prop where
  sectionId : o.sectionId = p.2.1
  offset : o.offset = p.2.2
  addend : o.addend = p.1.addend
  flags : Settles file.architecture p.1.flags o.flags
  target : o.target = match liftTarget (liftSymbols file) p.1.target with
    | some id => .symbol id
    | none => .sectionSymbol p.2.1

theorem writtenFor {library : ObjectLibrary} {file : ObjectFile} {p : Located}
    {id : RelocationId} {o : WriteRelocation} (hformat : p.1.flags.format = file.format)
    (h : addRelocation library (parse file)
      (liftRelocation file (liftSymbols file) p.1 p.2.1 p.2.2 id) = .ok o) :
    WrittenFor file p o := by
  obtain ⟨target, htarget, h⟩ := bind_eq_ok.mp h
  obtain ⟨flags, hflags, h⟩ := bind_eq_ok.mp h
  obtain ⟨flags', hround, hsettles⟩ := roundTrips p.1.flags file.architecture
  have hsame : flags = flags' := by
    rw [hformat] at hround
    exact Except.ok.inj (hflags.symm.trans hround)
  have ho : o = ⟨p.2.1, p.2.2, target, p.1.addend, flags⟩ := by
    dsimp only at h
    split at h
    · exact (Except.ok.inj h).symm
    · cases h
  subst ho hsame
  refine ⟨rfl, rfl, rfl, hsettles, ?_⟩
  unfold writeTarget at htarget
  show target = match liftTarget (liftSymbols file) p.1.target with
    | some id => .symbol id
    | none => .sectionSymbol p.2.1
  have hsymbol : (liftRelocation file (liftSymbols file) p.1 p.2.1 p.2.2 id).symbol
      = liftTarget (liftSymbols file) p.1.target := rfl
  rw [hsymbol] at htarget
  cases hlift : liftTarget (liftSymbols file) p.1.target with
  | none =>
    rw [hlift] at htarget
    exact (Except.ok.inj htarget).symm
  | some sid =>
    rw [hlift] at htarget
    dsimp only at htarget
    split at htarget
    · exact (Except.ok.inj htarget).symm
    · cases htarget

/-- A relocation that is carried is written as itself. -/
theorem WrittenFor.kept {file : ObjectFile} {p : Located} {o : WriteRelocation}
    (h : WrittenFor file p o) (hflags : flagsKept file.architecture p.1.flags = true)
    (htarget : TargetCarried file p.2.1 p.1.target) : RelocationKept file p o := by
  refine ⟨h.sectionId, h.offset, h.flags.2.mpr hflags, ?_, h.addend⟩
  rw [h.target]
  cases hp : p.1.target with
  | symbol i =>
    rw [hp] at htarget
    obtain ⟨e, he, rfl⟩ := htarget
    obtain ⟨id, hlookup, hid⟩ := lookup_static he
    have hlift : liftTarget (liftSymbols file) (.symbol e.index) = some id := hlookup
    rw [hlift]
    exact ⟨e, hid, rfl⟩
  | sectionOf i =>
    rw [hp] at htarget
    exact htarget
  | absolute =>
    rw [hp] at htarget
    exact htarget.elim

/-- What is written is carried: another relocation that comes out as this one is
meant by it. -/
theorem WrittenFor.carried {file : ObjectFile} {p q : Located} {o : WriteRelocation}
    (h : WrittenFor file p o) (hkept : RelocationKept file q o) :
    flagsKept file.architecture q.1.flags = true ∧ TargetCarried file q.2.1 q.1.target := by
  constructor
  · rw [← hkept.flags]
    exact h.flags.1
  · have htarget := hkept.target
    rw [h.target] at htarget
    cases hq : q.1.target with
    | symbol i =>
      rw [hq] at htarget
      cases hlift : liftTarget (liftSymbols file) p.1.target with
      | none =>
        rw [hlift] at htarget
        exact htarget.elim
      | some id =>
        rw [hlift] at htarget
        obtain ⟨e, he, hindex⟩ := htarget
        exact ⟨e, List.mem_of_getElem? he, hindex⟩
    | sectionOf i =>
      rw [hq] at htarget
      cases hlift : liftTarget (liftSymbols file) p.1.target with
      | none =>
        rw [hlift, ← h.sectionId, hkept.sectionId] at htarget
        exact htarget
      | some id =>
        rw [hlift] at htarget
        exact htarget.elim
    | absolute =>
      rw [hq] at htarget
      exact htarget.elim

/-! ## §3. The whole file. -/

theorem located_format {file : ObjectFile} {p : Located}
    (h : p ∈ staticRelocations file ++ dynamicRelocations file) :
    p.1.flags.format = file.format := by
  obtain h | h := List.mem_append.mp h
  · obtain ⟨s, hs, hp⟩ := List.mem_flatMap.mp h
    split at hp
    · cases hp
    · obtain ⟨r, hr, rfl⟩ := List.mem_map.mp hp
      exact file.flagsFormat s hs r hr
  · obtain ⟨r, hr, hp⟩ := List.mem_filterMap.mp h
    obtain ⟨own, _, rfl⟩ := Option.map_eq_some_iff.mp hp
    exact file.dynamicFlagsFormat r hr

/-- The container's relocations are the located ones. -/
theorem mem_relocations_iff {file : ObjectFile} {r : Relocation} :
    r ∈ (parse file).relocations ↔ ∃ p ∈ staticRelocations file ++ dynamicRelocations file,
      ∃ id, (p, id) ∈ (staticRelocations file ++ dynamicRelocations file).zipIdx
        ∧ r = liftRelocation file (liftSymbols file) p.1 p.2.1 p.2.2 ⟨id⟩ := by
  show r ∈ List.map _ _ ↔ _
  rw [List.mem_map]
  constructor
  · rintro ⟨⟨p, id⟩, hp, rfl⟩
    exact ⟨p, List.fst_mem_of_mem_zipIdx hp, id, hp, rfl⟩
  · rintro ⟨p, _, id, hp, rfl⟩
    exact ⟨(p, id), hp, rfl⟩

theorem written_spec {library : ObjectLibrary} {file : ObjectFile} {written : List WriteRelocation}
    (h : write library (parse file) = .ok written) :
    (∀ p ∈ staticRelocations file, p.2.1 ∈ addSections (parse file) →
        ∃ o ∈ written, WrittenFor file p o)
      ∧ ∀ o ∈ written, ∃ p, WrittenFor file p o := by
  unfold write at h
  split at h
  · cases h
  split at h
  · cases h
  obtain ⟨all, hall, h⟩ := bind_eq_ok.mp h
  have hsame : all = written := by
    split at h
    · exact Except.ok.inj h
    · cases h
  subst hsame
  obtain ⟨hforward, hback⟩ := mem_of_mapM_ok hall
  constructor
  · intro p hp hemitted
    have hin : p ∈ staticRelocations file ++ dynamicRelocations file := List.mem_append_left _ hp
    obtain ⟨k, hk⟩ := List.getElem?_of_mem hin
    have hmem : liftRelocation file (liftSymbols file) p.1 p.2.1 p.2.2 ⟨k⟩
        ∈ (parse file).relocations :=
      mem_relocations_iff.mpr ⟨p, hin, k, List.mk_mem_zipIdx_iff_getElem?.mpr hk, rfl⟩
    obtain ⟨o, ho, hadd⟩ := hforward _ (List.mem_filter.mpr ⟨hmem, by
      rw [List.contains_iff_mem]
      exact hemitted⟩)
    exact ⟨o, ho, writtenFor (located_format hin) hadd⟩
  · intro o ho
    obtain ⟨r, hr, hadd⟩ := hback o ho
    obtain ⟨p, hp, id, _, rfl⟩ := mem_relocations_iff.mp (List.mem_filter.mp hr).1
    exact ⟨p, writtenFor (located_format hp) hadd⟩

/-- **Relocations, read and written again.**  A write that succeeds keeps them all if
and only if each has a type that its neutral kind keeps and refers to a symbol
of the table or to its own section. -/
theorem write_parse_kept_iff {library : ObjectLibrary} {file : ObjectFile}
    {written : List WriteRelocation} (h : write library (parse file) = .ok written) :
    RelocationsKept file written ↔ RelocationsCarried file := by
  obtain ⟨hforward, hback⟩ := written_spec h
  constructor
  · intro hkept p hp hemitted
    obtain ⟨o, ho, hsame⟩ := hkept p hp hemitted
    obtain ⟨q, hq⟩ := hback o ho
    exact hq.carried hsame
  · intro hcarried p hp hemitted
    obtain ⟨o, ho, hfor⟩ := hforward p hp hemitted
    obtain ⟨hflags, htarget⟩ := hcarried p hp hemitted
    exact ⟨o, ho, hfor.kept hflags htarget⟩

/-! ## §4. Two objects. -/

/-- A library that takes everything. -/
def permissiveLibrary : ObjectLibrary where
  addRelocation _ := .ok ()
  layOut _ := .ok ()

/-- An AArch64 object whose `.data` refers to one symbol with the given type. -/
def dataObject (rType : Word) : ObjectFile where
  format := .elf
  architecture := .aarch64
  kind := .relocatable
  sections := [⟨1, ".data", 0, 8, .data, some 1, [⟨0, .elf rType, 32, 4, .symbol 1⟩]⟩]
  symbols := [⟨1, some "table", 0, .object, none, true⟩]
  dynamicSymbols := []
  dynamicRelocations := []
  sectionOrder := List.pairwise_singleton _ _
  symbolOrder := List.pairwise_singleton _ _
  dynamicOrder := List.Pairwise.nil
  flagsFormat := by simp [RelocationFlags.format]
  dynamicFlagsFormat := by simp

theorem dataObject_abs64_kept :
    RelocationsKept (dataObject 257) [⟨⟨0⟩, 0, .symbol ⟨0⟩, 4, .elf 257⟩] := by
  have hwrite : write permissiveLibrary (parse (dataObject 257))
      = .ok [⟨⟨0⟩, 0, .symbol ⟨0⟩, 4, .elf 257⟩] := by decide +kernel
  refine (write_parse_kept_iff hwrite).mpr ?_
  intro p hp _
  obtain rfl := List.mem_singleton.mp hp
  exact ⟨by decide, _, List.mem_cons_self, rfl⟩

/-- A 32-bit absolute address comes back as a 64-bit one. -/
theorem dataObject_abs32_widened :
    write permissiveLibrary (parse (dataObject 258))
        = .ok [⟨⟨0⟩, 0, .symbol ⟨0⟩, 4, .elf 257⟩]
      ∧ ¬ RelocationsKept (dataObject 258) [⟨⟨0⟩, 0, .symbol ⟨0⟩, 4, .elf 257⟩] := by
  refine ⟨by decide +kernel, ?_⟩
  intro hkept
  have hin : (⟨⟨0, .elf 258, 32, 4, .symbol 1⟩, ⟨0⟩, 0⟩ : Located)
      ∈ staticRelocations (dataObject 258) := by decide
  obtain ⟨o, ho, hsame⟩ := hkept _ hin (by decide +kernel)
  obtain rfl := List.mem_singleton.mp ho
  exact absurd hsame.flags (by decide)

end Armv8Encode.Objects

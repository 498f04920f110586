/-
  Armv8Encode.Container.Writer — the relocations of a container, written again.

  The writer hands sections, symbols and relocations to the object library,
  which lays the file out.  An output section or symbol is named here by the
  container's section or symbol that it was added for.
-/
import Armv8Encode.Container.Reader

namespace Armv8Encode.Objects

/-! ## §1. What is written. -/

/-- What an output relocation refers to. -/
inductive WriteTarget where
  | symbol (id : SymbolId)
  /-- The symbol that the library makes for a section. -/
  | sectionSymbol (id : SectionId)
  deriving Repr, DecidableEq

structure WriteRelocation where
  sectionId : SectionId
  offset : U64
  target : WriteTarget
  addend : Int
  flags : RelocationFlags
  deriving Repr, DecidableEq

inductive ContainerWriteError where
  | unsupportedArchitecture
  | unsupportedKind (kind : ContainerKind)
  | unsupportedRelocation (format : BinaryFormat) (kind : RelocationKind)
  | danglingSymbol (symbolIndex : Nat)
  | objectWrite (detail : String)
  deriving Repr, DecidableEq

/-- The checks of the object library: of one relocation when it is added, and of
all when the file is laid out. -/
structure ObjectLibrary where
  addRelocation : WriteRelocation → Except String Unit
  layOut : List WriteRelocation → Except String Unit

def shtSymtab : Word := 2
def shtStrtab : Word := 3
def shtRela : Word := 4
def shtRel : Word := 9
def shtSymtabShndx : Word := 18

/-- ELF sections that the library makes itself. -/
def isWriterManagedElfSection (s : ReadSection) : Bool :=
  (match s.rawShType with
    | some shType => [shtSymtab, shtStrtab, shtSymtabShndx, shtRel, shtRela].contains shType
    | none => false)
  || [".symtab", ".strtab", ".shstrtab", ".rela.text", ".rel.text"].contains s.name
  || s.name.startsWith ".rela." || s.name.startsWith ".rel."

/-- The sections that are written. -/
def addSections (c : ReadContainer) : List SectionId :=
  (c.sections.filter fun s => !(c.format == .elf && isWriterManagedElfSection s)).map
    ReadSection.id

/-! ## §2. Relocation types. -/

def elfType (kind : RelocationKind) (architecture : Architecture) : Word :=
  let is64 := architecture != .x86
  match kind with
  | .branch26 => .ofNat 32 rAarch64Call26
  | .branch19 => .ofNat 32 rAarch64Condbr19
  | .branch14 => .ofNat 32 rAarch64Tstbr14
  | .adrpPage21 => .ofNat 32 rAarch64AdrPrelPgHi21
  | .addPageOffset12 => .ofNat 32 rAarch64AddAbsLo12Nc
  | .loadStorePageOffset12 accessWidthBytes =>
    match accessWidthBytes with
    | 1 => .ofNat 32 rAarch64Ldst8AbsLo12Nc
    | 2 => .ofNat 32 rAarch64Ldst16AbsLo12Nc
    | 4 => .ofNat 32 rAarch64Ldst32AbsLo12Nc
    | 8 => .ofNat 32 rAarch64Ldst64AbsLo12Nc
    | 16 => .ofNat 32 rAarch64Ldst128AbsLo12Nc
    | _ => .ofNat 32 rAarch64Ldst32AbsLo12Nc
  | .absolute => .ofNat 32 rAarch64Abs64
  | .armCall => .ofNat 32 rArmCall
  | .armJump24 => .ofNat 32 rArmJump24
  | .armPc24 => .ofNat 32 rArmPc24
  | .armRelative => .ofNat 32 rArmRelative
  | .armGlobData => .ofNat 32 rArmGlobDat
  | .armJumpSlot => .ofNat 32 rArmJumpSlot
  | .armAbs32 => .ofNat 32 rArmAbs32
  | .armMovwAbsNc => .ofNat 32 rArmMovwAbsNc
  | .armMovtAbs => .ofNat 32 rArmMovtAbs
  | .thumbCall => .ofNat 32 rArmThmPc22
  | .thumbJump24 => .ofNat 32 rArmThmJump24
  | .thumbJump19 => .ofNat 32 rArmThmJump19
  | .thumbMovwAbsNc => .ofNat 32 rArmThmMovwAbsNc
  | .thumbMovtAbs => .ofNat 32 rArmThmMovtAbs
  | .x86Pc32 => .ofNat 32 (if is64 then rX86_64_Pc32 else r386_Pc32)
  | .x86Plt32 => .ofNat 32 (if is64 then rX86_64_Plt32 else r386_Plt32)
  | .x86GotPcRel => .ofNat 32 (if is64 then rX86_64_Gotpcrel else r386_Gotpc)
  | .x86Abs32 => .ofNat 32 (if is64 then rX86_64_32 else r386_32)
  | .x86Abs64 => .ofNat 32 rX86_64_64
  | .other code => code

def elfFlags (kind : RelocationKind) (architecture : Architecture) : RelocationFlags :=
  .elf (elfType kind architecture)

def coffFlags (kind : RelocationKind) (architecture : Architecture) :
    Except ContainerWriteError RelocationFlags :=
  let is64 := architecture != .x86
  match kind with
  | .x86Pc32 | .x86Plt32 =>
    .ok (.coff (.ofNat 16 (if is64 then imageRelAmd64Rel32 else imageRelI386Rel32)))
  | .x86Abs32 =>
    .ok (.coff (.ofNat 16 (if is64 then imageRelAmd64Addr32 else imageRelI386Dir32)))
  | .absolute =>
    .ok (.coff (.ofNat 16 (if is64 then imageRelAmd64Addr64 else imageRelI386Dir32)))
  | .x86Abs64 => .ok (.coff (.ofNat 16 imageRelAmd64Addr64))
  | .other code => .ok (.coff (code.setWidth 16))
  | kind => .error (.unsupportedRelocation .pe kind)

/-- The type with the two fields beside it. -/
def machoFields (rType : Nat) (rPcrel : Bool) (rLength : Nat) : RelocationFlags :=
  .macho (.ofNat 8 rType) rPcrel (.ofNat 8 rLength)

def machoFlags : RelocationKind → Except ContainerWriteError RelocationFlags
  | .branch26 => .ok (machoFields arm64RelocBranch26 true 2)
  | .adrpPage21 => .ok (machoFields arm64RelocPage21 true 2)
  | .addPageOffset12 => .ok (machoFields arm64RelocPageoff12 false 2)
  | .loadStorePageOffset12 accessWidthBytes =>
    let rLength := match accessWidthBytes with
      | 1 => 0
      | 2 => 1
      | 4 => 2
      | 8 => 3
      | _ => 2
    .ok (machoFields arm64RelocPageoff12 false rLength)
  | .absolute => .ok (machoFields arm64RelocUnsigned false 3)
  | .x86Pc32 | .x86Plt32 => .ok (machoFields x86_64RelocBranch true 2)
  | .x86GotPcRel => .ok (machoFields x86_64RelocGotLoad true 2)
  | .x86Abs32 => .ok (machoFields x86_64RelocUnsigned false 2)
  | .x86Abs64 => .ok (machoFields x86_64RelocUnsigned false 3)
  | .other code => .ok (.macho (code.setWidth 8) false 2)
  | kind => .error (.unsupportedRelocation .macho kind)

def relocationFlags (kind : RelocationKind) (format : BinaryFormat)
    (architecture : Architecture) : Except ContainerWriteError RelocationFlags :=
  match format with
  | .elf => .ok (elfFlags kind architecture)
  | .macho => machoFlags kind
  | .pe => coffFlags kind architecture

/-! ## §3. Relocations. -/

/-- Without a symbol, the one of the relocation's own section is taken. -/
def writeTarget (c : ReadContainer) (r : Relocation) : Except ContainerWriteError WriteTarget :=
  match r.symbol with
  | some id =>
    if id.index < c.symbols.length then .ok (.symbol id)
    else .error (.danglingSymbol id.index)
  | none => .ok (.sectionSymbol r.sectionId)

def addRelocation (library : ObjectLibrary) (c : ReadContainer) (r : Relocation) :
    Except ContainerWriteError WriteRelocation := do
  let target ← writeTarget c r
  let flags ← relocationFlags r.kind c.format c.architecture
  let written : WriteRelocation := ⟨r.sectionId, r.offset, target, r.addend, flags⟩
  match library.addRelocation written with
  | .ok () => .ok written
  | .error detail => .error (.objectWrite detail)

/-- The relocations of the sections that are written. -/
def addRelocations (library : ObjectLibrary) (c : ReadContainer) :
    Except ContainerWriteError (List WriteRelocation) :=
  (c.relocations.filter fun r => (addSections c).contains r.sectionId).mapM
    (addRelocation library c)

/-- Only objects are written, and only for an architecture that has a name. -/
def write (library : ObjectLibrary) (c : ReadContainer) :
    Except ContainerWriteError (List WriteRelocation) := do
  if c.kind ≠ .relocatable then .error (.unsupportedKind c.kind)
  else if c.architecture = .other then .error .unsupportedArchitecture
  else
    let written ← addRelocations library c
    match library.layOut written with
    | .ok () => .ok written
    | .error detail => .error (.objectWrite detail)

end Armv8Encode.Objects

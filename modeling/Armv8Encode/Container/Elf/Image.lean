/-
  Armv8Encode.Container.Elf.Image — what the ELF writer reads of a container.

  The records follow the crate's own: the program headers and the section
  layout of the source file, and the neutral sections with the fields that
  go into a section header.  File offsets, addresses and sizes are natural
  numbers; no sum that the writer forms is reduced.
-/
import Armv8Encode.Container.Types
import Armv8Encode.Lib.Buffer

namespace Armv8Encode.Elf

/-! ## §1. Constants of the format. -/

def ptLoad : Nat := 1
def ptPhdr : Nat := 6
def pfX : Nat := 1
def pfW : Nat := 2
def pfR : Nat := 4
def shtProgbits : Nat := 1
def shtStrtab : Nat := 3
def shtNobits : Nat := 8
def shfWrite : Nat := 1
def shfAlloc : Nat := 2
def shfExecinstr : Nat := 4
def dtRela : Nat := 7
def dtRelasz : Nat := 8

/-! ## §2. Records of the image. -/

structure ProgramHeader where
  pType : Nat
  pFlags : Nat
  pOffset : Nat
  pVaddr : Nat
  pPaddr : Nat
  pFilesz : Nat
  pMemsz : Nat
  pAlign : Nat
  deriving Repr, DecidableEq

structure SectionLayout where
  shOffset : Nat
  shSize : Nat
  shLink : Nat
  shInfo : Nat
  shEntsize : Nat
  deriving Repr, DecidableEq

structure Section where
  name : String
  address : Nat
  size : Nat
  bytes : List Byte
  kind : SectionKind
  align : Nat
  shFlags : Option Nat
  rawShType : Option Nat
  deriving Repr, DecidableEq

structure Image where
  eEntry : Nat
  programHeaders : List ProgramHeader
  sectionLayout : List SectionLayout
  deriving Repr, DecidableEq

structure FileFlags where
  osAbi : Nat
  abiVersion : Nat
  eFlags : Nat
  deriving Repr, DecidableEq

structure Container where
  architecture : Architecture
  kind : ContainerKind
  fileFlags : Option FileFlags
  sections : List Section
  elfImage : Option Image
  deriving Repr, DecidableEq

/-- The captured layout of a section; zeros where none was captured. -/
def Image.layout (image : Image) (i : Nat) : SectionLayout :=
  image.sectionLayout.getD i ⟨0, 0, 0, 0, 0⟩

/-- Word size of the output, chosen by the architecture alone. -/
def Container.is64 (c : Container) : Bool :=
  match c.architecture with
  | .aarch64 | .x86_64 => true
  | _ => false

/-! ## §3. Section properties the writer branches on. -/

def Section.isNobits (s : Section) : Bool :=
  match s.kind with
  | .bss => true
  | _ => false

def defaultShFlagsForKind : SectionKind → Nat
  | .text => shfAlloc + shfExecinstr
  | .data => shfAlloc + shfWrite
  | .rodata => shfAlloc
  | .bss => shfAlloc + shfWrite
  | .debug => 0
  | .other => 0

def sectionIsExecutable (s : Section) : Bool :=
  match s.shFlags with
  | some flags => flags &&& shfExecinstr != 0
  | none =>
    match s.kind with
    | .text => true
    | _ => false

/-- One unit of the fill that makes a shrunk code section safe to run into. -/
def nopPattern : Architecture → List Byte
  | .aarch64 => [0x1f, 0x20, 0x03, 0xd5]
  | .arm => [0x00, 0xbf, 0x00, 0xbf]
  | .x86_64 | .x86 => [0x90]
  | .other => [0, 0, 0, 0]

theorem nopPattern_ne_nil (arch : Architecture) : 0 < (nopPattern arch).length := by
  cases arch <;> decide

/-- `count` bytes of fill: the pattern over and over, cut off at the end. -/
def nopPadding (count : Nat) (arch : Architecture) : List Byte :=
  ((List.replicate count (nopPattern arch)).flatten).take count

theorem nopPadding_length (count : Nat) (arch : Architecture) :
    (nopPadding count arch).length = count := by
  have hpos := nopPattern_ne_nil arch
  have hlen : ((List.replicate count (nopPattern arch)).flatten).length
      = count * (nopPattern arch).length := by
    simp
  have hle : count ≤ count * (nopPattern arch).length := Nat.le_mul_of_pos_right count hpos
  unfold nopPadding
  rw [List.length_take, hlen]
  omega

end Armv8Encode.Elf

/-
  Armv8Encode.Container.MachO.Image — a 64-bit Mach-O image by its load commands.

  The commands the writers look into are decoded, in file order; any other
  command keeps its number and its body.  A file offset or size that a command
  stores in 32 bits is a number below `2^32`.
-/
import Armv8Encode.Lib.Words

namespace Armv8Encode.MachO

open Lib

/-! ## §1. Load commands. -/

/-- An `(offset, size)` pair of a load command. -/
structure FileRange where
  offset : Nat
  size : Nat
  deriving Repr, DecidableEq

structure MachOSegment where
  name : String
  vmaddr : Nat
  vmsize : Nat
  fileoff : Nat
  filesize : Nat
  deriving Repr, DecidableEq

structure MachOSection where
  sectname : String
  segname : String
  vaddr : Nat
  size : Nat
  /-- Zero for a section without bytes in the file. -/
  fileOffset : Nat
  reloff : Nat
  flags : Nat
  reserved1 : Nat
  reserved2 : Nat
  deriving Repr, DecidableEq

/-- The commands that are a number and one range of `__LINKEDIT`. -/
inductive LinkeditKind where
  | chainedFixups
  | exportsTrie
  | functionStarts
  | dataInCode
  | codeSignature
  deriving Repr, DecidableEq

structure DyldInfo where
  rebase : FileRange
  bind : FileRange
  weakBind : FileRange
  lazyBind : FileRange
  exports : FileRange
  deriving Repr, DecidableEq

structure MachOSymtab where
  symoff : Nat
  nsyms : Nat
  stroff : Nat
  strsize : Nat
  deriving Repr, DecidableEq

structure MachODysymtab where
  ilocalsym : Nat
  nlocalsym : Nat
  iextdefsym : Nat
  nextdefsym : Nat
  iundefsym : Nat
  nundefsym : Nat
  toc : FileRange
  modtab : FileRange
  extrefsym : FileRange
  indirectsym : FileRange
  extrel : FileRange
  locrel : FileRange
  deriving Repr, DecidableEq

inductive LoadCommand where
  | segment (s : MachOSegment) (sections : List MachOSection)
  | dyldInfo (info : DyldInfo)
  | linkeditData (kind : LinkeditKind) (data : FileRange)
  | symtab (s : MachOSymtab)
  | dysymtab (d : MachODysymtab)
  | main (entryoff : Nat)
  | other (cmd : Nat) (body : List Byte)
  deriving Repr, DecidableEq

/-! ## §2. What the parsed layout lists. -/

def segments (commands : List LoadCommand) : List MachOSegment :=
  commands.filterMap fun
    | .segment s _ => some s
    | _ => none

/-- The segment's bytes in the file hold a file offset. -/
def MachOSegment.holds (s : MachOSegment) (offset : Nat) : Bool :=
  decide (s.fileoff ≤ offset) && decide (offset < s.fileoff + s.filesize)

end Armv8Encode.MachO

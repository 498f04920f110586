/-
  Armv8Encode.Container.Elf.PltStubs — the stubs of imported functions.

  The reader gives the n-th relocation of the PLT the n-th place of the
  standard layout, and the import it finds by base name.  It never looks at
  the PLT.  What an entry does is said here by running its code: the address
  scratch register is formed, and the program counter is loaded from a slot.

  So a recorded stub is the one of its import exactly if the place that was
  computed holds an entry through a slot of that import.
-/
import Armv8Encode.Container.ReaderSpec
import Armv8Encode.Lib.Bytes

namespace Armv8Encode.Elf

open Lib
open Objects

/-! ## §1. A linked file. -/

/-- The two kinds of file whose stubs are recorded. -/
inductive PltMachine where
  | aarch64
  | arm
  deriving Repr, DecidableEq

/-- An entry of `.dynsym`, with its version by `.gnu.version`. -/
structure DynSymbol where
  /-- None if the name is no text of `.dynstr`. -/
  name : Option String
  version : Option String
  deriving Repr, DecidableEq

structure SectionBytes where
  name : String
  address : Nat
  bytes : List Byte
  deriving Repr, DecidableEq

structure LinkedElf where
  machine : PltMachine
  /-- Code is little-endian either way. -/
  bigEndian : Bool
  object : ObjectFile
  /-- The dynamic table from its null entry on. -/
  dynsym : List DynSymbol
  sections : List SectionBytes
  dynamicNames : ∀ e ∈ object.dynamicSymbols, (dynsym[e.index]?).map DynSymbol.name = some e.name

def LinkedElf.sectionNamed (elf : LinkedElf) (name : String) : Option SectionBytes :=
  elf.sections.find? fun s => s.name == name

/-- The symbols of the container. -/
def LinkedElf.symbols (elf : LinkedElf) : List Symbol := (liftSymbols elf.object).symbols

/-! ## §2. The map of the source. -/

/-- The constants in which the two walks differ. -/
structure PltLayout where
  headerSize : Nat
  entrySize : Nat
  relocationSection : String
  relocationSize : Nat
  /-- Bytes of an address, and so the place and width of `r_info`. -/
  wordSize : Nat
  symbolShift : Nat
  jumpSlot : Nat
  deriving Repr, DecidableEq

def aarch64Plt : PltLayout where
  headerSize := 32
  entrySize := 16
  relocationSection := ".rela.plt"
  relocationSize := 24
  wordSize := 8
  symbolShift := 32
  jumpSlot := 1026

def armPlt : PltLayout where
  headerSize := 20
  entrySize := 12
  relocationSection := ".rel.plt"
  relocationSize := 8
  wordSize := 4
  symbolShift := 8
  jumpSlot := 22

/-- What stands before the first `@`. -/
def baseName (name : String) : List Char := name.toList.takeWhile (· ≠ '@')

/-- The first undefined symbol with the base name. -/
def undefinedNamed (symbols : List Symbol) (base : List Char) : Option SymbolId :=
  (symbols.find? fun s => s.isUndefined && baseName s.name == base).map Symbol.id

/-- The import that a relocation of the PLT is taken for. -/
def importOf (l : PltLayout) (elf : LinkedElf) (table : List Byte) (index : Nat) :
    Option SymbolId :=
  let rInfo := leValue (slice table (index * l.relocationSize + l.wordSize) l.wordSize)
  if rInfo % 2 ^ l.symbolShift ≠ l.jumpSlot then none
  else do
    let dynSymbol ← elf.dynsym[rInfo / 2 ^ l.symbolShift]?
    let name ← dynSymbol.name
    undefinedNamed elf.symbols (baseName name)

/-- The n-th place of the standard layout. -/
def PltLayout.place (l : PltLayout) (plt : SectionBytes) (index : Nat) : Nat :=
  plt.address + l.headerSize + index * l.entrySize

def buildStubMap (l : PltLayout) (elf : LinkedElf) : Map SymbolId Nat :=
  match elf.sectionNamed ".plt", elf.sectionNamed l.relocationSection with
  | some plt, some relocations =>
    if relocations.bytes.length % l.relocationSize ≠ 0 then fun _ => none
    else lastWins ((List.range (relocations.bytes.length / l.relocationSize)).filterMap fun index =>
      (importOf l elf relocations.bytes index).map fun id => (id, l.place plt index))
  | _, _ => fun _ => none

def buildPltStubMap : LinkedElf → Map SymbolId Nat := buildStubMap aarch64Plt

def buildArmPltStubMap : LinkedElf → Map SymbolId Nat := buildStubMap armPlt

/-- `plt_stubs` of the image: a file of 64 bits goes one way, one of 32 the other. -/
def pltStubs (elf : LinkedElf) : Map SymbolId Nat :=
  match elf.machine with
  | .aarch64 => buildPltStubMap elf
  | .arm => buildArmPltStubMap elf

def PltMachine.layout : PltMachine → PltLayout
  | aarch64 => aarch64Plt
  | arm => armPlt

theorem pltStubs_eq (elf : LinkedElf) : pltStubs elf = buildStubMap elf.machine.layout elf := by
  unfold pltStubs
  cases elf.machine <;> rfl

/-! ## §3. What the code of an entry does. -/

/-- The scratch registers of an entry, as far as they are known. -/
structure Scratch where
  /-- Thumb code, on ARM. -/
  thumb : Bool
  /-- `x16`, or `ip`. -/
  base : Option U64
  /-- The slot that `x17` was loaded from. -/
  loadedFrom : Option U64
  deriving Repr, DecidableEq

inductive EntryStep where
  | go (size : Nat) (next : Scratch)
  | jump (slot : U64)
  | stuck
  deriving Repr, DecidableEq

/-- `bti c` and `autia1716`, which leave the registers alone here. -/
def protectionWords : List Word := [0xd503245f, 0xd503219f]

/-- `adrp x16`, `ldr x17, [x16, #n]`, `add x16, x16, #n` and `br x17`. -/
def aarch64EntryStep (address : Nat) (w : Word) (s : Scratch) : EntryStep :=
  let pc := BitVec.ofNat 64 address
  if w ∈ protectionWords then .go 4 s
  else if w &&& 0x9f00001f = 0x90000010 then
    let pages := (w.extractLsb' 5 19 ++ w.extractLsb' 29 2).signExtend 64
    .go 4 { s with base := some ((pc >>> 12 <<< 12) + (pages <<< 12)) }
  else if w &&& 0xffc003ff = 0xf9400211 then
    .go 4 { s with
      loadedFrom := s.base.map (· + ((w.extractLsb' 10 12).setWidth 64 <<< 3)) }
  else if w &&& 0xffc003ff = 0x91000210 then
    .go 4 { s with base := s.base.map (· + (w.extractLsb' 10 12).setWidth 64) }
  else if w = 0xd61f0220 then
    match s.loadedFrom with
    | some slot => .jump slot
    | none => .stuck
  else .stuck

/-- The rotated byte of an ARM data-processing word. -/
def rotatedByte (w : Word) : U64 :=
  (((w.extractLsb' 0 8).setWidth 32).rotateRight (2 * (w.extractLsb' 8 4).toNat)).setWidth 64

/-- The sum in the 32 bits of an ARM register. -/
def sum32 (a b : U64) : U64 := ((a + b).setWidth 32).setWidth 64

/-- `add ip, pc, #n`, `add ip, ip, #n`, `ldr ip, [pc, #n]`, `add ip, ip, pc` and
`ldr pc, [ip, #n]` with or without writing back. -/
def armEntryStep (literal : Nat → Option U64) (address : Nat) (w : Word) (s : Scratch) :
    EntryStep :=
  let pc := BitVec.ofNat 64 (address + 8)
  if w &&& 0xfffff000 = 0xe28fc000 then .go 4 { s with base := some (sum32 pc (rotatedByte w)) }
  else if w &&& 0xfffff000 = 0xe28cc000 then
    .go 4 { s with base := s.base.map fun x => sum32 x (rotatedByte w) }
  else if w &&& 0xfffff000 = 0xe59fc000 then
    .go 4 { s with base := literal (address + 8 + (w.extractLsb' 0 12).toNat) }
  else if w = 0xe08cc00f then .go 4 { s with base := s.base.map fun x => sum32 x pc }
  else if w &&& 0xfffff000 = 0xe5bcf000 ∨ w &&& 0xfffff000 = 0xe59cf000 then
    match s.base with
    | some x => .jump (sum32 x ((w.extractLsb' 0 12).setWidth 64))
    | none => .stuck
  else .stuck

/-- The 16 bits of a Thumb `movw` or `movt`, whose first halfword is the low one. -/
def thumbImm16 (w : Word) : BitVec 16 :=
  w.extractLsb' 0 4 ++ w.extractLsb' 10 1 ++ w.extractLsb' 28 3 ++ w.extractLsb' 16 8

/-- `bx pc` and its `nop`, and the entry that is Thumb throughout: `movw ip`,
`movt ip`, `add ip, pc` and `ldr.w pc, [ip, #n]`. -/
def thumbEntryStep (address : Nat) (w : Word) (s : Scratch) : EntryStep :=
  if w = 0x46c04778 then .go 4 { s with thumb := false }
  else if w &&& 0x8f00fbf0 = 0x0c00f240 then
    .go 4 { s with base := some ((thumbImm16 w).setWidth 64) }
  else if w &&& 0x8f00fbf0 = 0x0c00f2c0 then
    .go 4 { s with
      base := s.base.map fun x => ((thumbImm16 w) ++ x.extractLsb' 0 16).setWidth 64 }
  else if w &&& 0xffff = 0x44fc then
    .go 2 { s with base := s.base.map fun x => sum32 x (BitVec.ofNat 64 (address + 4)) }
  else if w &&& 0xf000ffff = 0xf000f8dc then
    match s.base with
    | some x => .jump (sum32 x ((w.extractLsb' 16 12).setWidth 64))
    | none => .stuck
  else .stuck

/-- Four bytes of the PLT. -/
def LinkedElf.pltBytes (elf : LinkedElf) (address count : Nat) : Option (List Byte) := do
  let plt ← elf.sectionNamed ".plt"
  let bytes := slice plt.bytes (address - plt.address) count
  if plt.address ≤ address ∧ bytes.length = count then some bytes else none

def LinkedElf.codeWord (elf : LinkedElf) (address : Nat) : Option Word :=
  (elf.pltBytes address 4).map fun bytes => BitVec.ofNat 32 (leValue bytes)

/-- A number in the file's byte order. -/
def LinkedElf.number (elf : LinkedElf) (bytes : List Byte) : Nat :=
  leValue (if elf.bigEndian then bytes.reverse else bytes)

def LinkedElf.literal (elf : LinkedElf) (address : Nat) : Option U64 :=
  (elf.pltBytes address 4).map fun bytes => BitVec.ofNat 64 (elf.number bytes)

def LinkedElf.entryStep (elf : LinkedElf) (address : Nat) (w : Word) (s : Scratch) : EntryStep :=
  match elf.machine, s.thumb with
  | .aarch64, _ => aarch64EntryStep address w s
  | .arm, false => armEntryStep elf.literal address w s
  | .arm, true => thumbEntryStep address w s

/-- The slot that the program counter is loaded from.  No entry has more
instructions than the fuel. -/
def LinkedElf.runEntry (elf : LinkedElf) : Nat → Nat → Scratch → Option U64
  | 0, _, _ => none
  | fuel + 1, address, s =>
    match elf.codeWord address with
    | none => none
    | some w =>
      match elf.entryStep address w s with
      | .go size next => elf.runEntry fuel (address + size) next
      | .jump slot => some slot
      | .stuck => none

/-- The slots of an entry that starts here, for each state the code can be called in. -/
def LinkedElf.entrySlots (elf : LinkedElf) (address : Nat) : List U64 :=
  match elf.machine with
  | .aarch64 => (elf.runEntry 8 address ⟨false, none, none⟩).toList
  | .arm => (elf.runEntry 8 address ⟨false, none, none⟩).toList
      ++ (elf.runEntry 8 address ⟨true, none, none⟩).toList

/-- An entry through the slot starts here: what stands before does not run into it. -/
def LinkedElf.EntryThrough (elf : LinkedElf) (address : Nat) (slot : U64) : Prop :=
  slot ∈ elf.entrySlots address ∧ (4 ≤ address → elf.entrySlots (address - 4) = [])

/-! ## §4. The import that a relocation is for. -/

/-- The version in a name, past one `@` or two. -/
def nameVersion (name : String) : Option (List Char) :=
  match name.toList.dropWhile (· ≠ '@') with
  | [] => none
  | '@' :: '@' :: version => some version
  | _ :: version => some version

/-- A static name means the dynamic entry of its base name and version.  Without
a version it does so if there is one such entry only. -/
def NamesEntry (dynsym : List DynSymbol) (name : String) (i : Nat) : Prop :=
  ∃ d text, dynsym[i]? = some d ∧ d.name = some text ∧ baseName name = text.toList ∧
    match nameVersion name with
    | some version => d.version.map String.toList = some version
    | none => ∀ j d', dynsym[j]? = some d' → d'.name = some text → j = i

/-- The symbol under the id is the import of the dynamic entry. -/
def LinkedElf.Denotes (elf : LinkedElf) (id : SymbolId) (i : Nat) : Prop :=
  ∃ e, (listedEntries elf.object)[id.index]? = some e ∧
    if id.index < elf.object.symbols.length then NamesEntry elf.dynsym (e.name.getD "") i
    else e.index = i

/-- The j-th relocation of the PLT fills the slot with the dynamic entry. -/
def LinkedElf.JumpSlot (elf : LinkedElf) (j i : Nat) (slot : U64) : Prop :=
  let l := elf.machine.layout
  ∃ relocations, elf.sectionNamed l.relocationSection = some relocations
    ∧ (j + 1) * l.relocationSize ≤ relocations.bytes.length
    ∧ slot = BitVec.ofNat 64
        (elf.number (slice relocations.bytes (j * l.relocationSize) l.wordSize))
    ∧ elf.number (slice relocations.bytes (j * l.relocationSize + l.wordSize) l.wordSize)
        = i * 2 ^ l.symbolShift + l.jumpSlot

/-- An entry starts here that jumps through a slot of that very import. -/
def LinkedElf.StubOf (elf : LinkedElf) (id : SymbolId) (address : Nat) : Prop :=
  ∃ slot j i, elf.EntryThrough address slot ∧ elf.JumpSlot j i slot ∧ elf.Denotes id i

/-- Every recorded stub is the one of its symbol. -/
def LinkedElf.RecordsStubs (elf : LinkedElf) : Prop :=
  ∀ id address, pltStubs elf id = some address → elf.StubOf id address

/-! ## §5. When the recorded stubs are right. -/

/-- The relocation is the last one that is taken for the import. -/
structure LinkedElf.TakenFor (elf : LinkedElf) (id : SymbolId) (relocations : SectionBytes)
    (k : Nat) : Prop where
  table : elf.sectionNamed elf.machine.layout.relocationSection = some relocations
  whole : relocations.bytes.length % elf.machine.layout.relocationSize = 0
  inside : k < relocations.bytes.length / elf.machine.layout.relocationSize
  names : importOf elf.machine.layout elf relocations.bytes k = some id
  last : ∀ j < relocations.bytes.length / elf.machine.layout.relocationSize, k < j →
    importOf elf.machine.layout elf relocations.bytes j ≠ some id

/-- The standard layout holds where a relocation is taken for an import, and the
slot of the entry there is filled with what the name of the import means. -/
def LinkedElf.StandsAtPlaces (elf : LinkedElf) : Prop :=
  ∀ plt relocations id k, elf.sectionNamed ".plt" = some plt → elf.TakenFor id relocations k →
    ∃ slot j i, elf.EntryThrough (elf.machine.layout.place plt k) slot
      ∧ elf.JumpSlot j i slot ∧ elf.Denotes id i

/-- What the map holds for an import. -/
theorem pltStubs_eq_some_iff {elf : LinkedElf} {id : SymbolId} {address : Nat} :
    pltStubs elf id = some address
      ↔ ∃ plt relocations k, elf.sectionNamed ".plt" = some plt ∧ elf.TakenFor id relocations k
        ∧ elf.machine.layout.place plt k = address := by
  rw [pltStubs_eq]
  unfold buildStubMap
  constructor
  · intro h
    cases hplt : elf.sectionNamed ".plt" with
    | none =>
      rw [hplt] at h
      contradiction
    | some plt =>
      cases hrel : elf.sectionNamed elf.machine.layout.relocationSection with
      | none =>
        rw [hplt, hrel] at h
        contradiction
      | some relocations =>
        rw [hplt, hrel] at h
        dsimp only at h
        by_cases hwhole : relocations.bytes.length % elf.machine.layout.relocationSize = 0
        · rw [if_neg (not_not.mpr hwhole), lastWins_filterMap_range] at h
          obtain ⟨k, hk, himport, hlast, haddress⟩ := h
          exact ⟨plt, relocations, k, rfl, ⟨hrel, hwhole, hk, himport, hlast⟩, haddress⟩
        · rw [if_pos hwhole] at h
          contradiction
  · rintro ⟨plt, relocations, k, hplt, htaken, haddress⟩
    rw [hplt, htaken.table]
    dsimp only
    rw [if_neg (not_not.mpr htaken.whole), lastWins_filterMap_range]
    exact ⟨k, htaken.inside, htaken.names, htaken.last, haddress⟩

theorem noSymbols_ordered :
    ([] : List ObjSymbol).Pairwise fun s t => s.index < t.index := List.Pairwise.nil

theorem noRelocations_format :
    ∀ r ∈ ([] : List ObjRelocation), r.flags.format = BinaryFormat.elf := by simp

/-- A PLT of two entries, each with `bti c` before the usual four words. -/
def paddedPlt : List Word :=
  [0xd503245f, 0xa9bf7bf0, 0xd0000010, 0xf9400a11, 0x91004210, 0xd61f0220, 0xd503201f, 0xd503201f,
    0xd503245f, 0xd0000010, 0xf9400e11, 0x91006210, 0xd61f0220, 0xd503201f,
    0xd503245f, 0xd0000010, 0xf9401211, 0x91008210, 0xd61f0220, 0xd503201f]

def importedFunction (index : Nat) (name : String) : ObjSymbol where
  index := index
  name := some name
  address := 0
  kind := .function
  sectionIndex := none
  isUndefined := true

def twoImports : ObjectFile where
  format := .elf
  architecture := .aarch64
  kind := .sharedObject
  sections := []
  symbols := []
  dynamicSymbols := [importedFunction 1 "puts", importedFunction 2 "exit"]
  dynamicRelocations := []
  sectionOrder := by decide
  symbolOrder := noSymbols_ordered
  dynamicOrder := by decide
  flagsFormat := by decide
  dynamicFlagsFormat := noRelocations_format

/-- Slots at 0x3018 and 0x3020. -/
def paddedElf : LinkedElf where
  machine := .aarch64
  bigEndian := false
  object := twoImports
  dynsym := [⟨some "", none⟩, ⟨some "puts", none⟩, ⟨some "exit", none⟩]
  sections := [⟨".plt", 0x1000, paddedPlt.flatMap toLeBytes⟩,
    ⟨".rela.plt", 0x400, [0x3018, 2 ^ 32 + 1026, 0, 0x3020, 2 * 2 ^ 32 + 1026, 0].flatMap
      (leBytes 8)⟩]
  dynamicNames := by decide

end Armv8Encode.Elf

/-
  Armv8Encode.Rewrite.ElfEditor.State — whole-binary edits of an ELF image.

  The editor queues what a commit will write: appended code and read-only
  data, appended writable data, library names, new initialiser slots, and
  rewritten `.rela.dyn` sections.  Each region gets its base address when it
  is first used and grows from then on.

  `.rela.dyn` and `.dynamic` are kept decoded, as the entries the editor
  reads and writes.  The instructions of a body are a `Body`: its size and
  the bytes that layout and emit give for it at an address, if they succeed.
  A call that fails keeps what it had changed by then, as the source does.
-/
import Armv8Encode.Container.Elf.Reader
import Armv8Encode.Container.Elf.Appended
import Armv8Encode.Lib.Bytes

namespace Armv8Encode.Elf

open Lib

/-! ## §1. What the editor reads of the input. -/

/-- An entry of `.rela.dyn`; the addend as its 64 bits. -/
structure Rela where
  rOffset : Nat
  rInfo : Nat
  rAddend : Nat
  deriving Repr, DecidableEq

def rAarch64Relative : Nat := 1027

def Rela.rType (r : Rela) : Nat := r.rInfo % 2 ^ 32

structure DynamicEntry where
  tag : Nat
  value : Nat
  deriving Repr, DecidableEq

structure Source where
  file : ElfFile
  dynamic : List DynamicEntry
  /-- The entries of `.rela.dyn`, if the section exists. -/
  relaDyn : Option (List Rela)
  dynsym : Option (List Byte)
  dynstr : Option (List Byte)
  gnuVersym : Option (List Byte)
  gnuHash : Option (List Byte)
  deriving Repr, DecidableEq

def Source.container (src : Source) : Container := parse src.file

def Source.image (src : Source) : Image := liftElfImage src.file

/-- The first section of a name; a later one of the same name is not looked at. -/
def Source.sectionNamed (src : Source) (name : String) : Option (Nat × Section) :=
  (src.container.sections.zipIdx.find? fun s => s.1.name == name).map fun s => (s.2, s.1)

/-- The `.init_array` of the source: its bytes and address, if it has one. -/
def Source.initArray (src : Source) : List Byte × Nat :=
  match src.sectionNamed ".init_array" with
  | none => ([], 0)
  | some (_, s) => (s.bytes, s.address)

/-- Only linked files take an appended segment. -/
def Source.isLinked (src : Source) : Bool :=
  match src.file.kind with
  | .sharedObject | .executable => true
  | _ => false

/-! ## §2. The editor's state. -/

structure Symbol where
  name : String
  address : Nat
  size : Nat
  isFunction : Bool
  isUndefined : Bool
  deriving Repr, DecidableEq

structure ExportedSymbol where
  name : String
  vaddr : Nat
  size : Nat
  deriving Repr, DecidableEq

/-- The code region. -/
structure AppendedState where
  segmentVaddr : Nat
  bytes : List Byte
  exports : List ExportedSymbol
  aligned : appendPageAlign ∣ segmentVaddr
  deriving Repr

structure WritableState where
  segmentVaddr : Nat
  bytes : List Byte
  aligned : appendPageAlign ∣ segmentVaddr
  deriving Repr

structure BinaryState where
  source : Source
  symbols : List Symbol
  appended : Option AppendedState
  appendedWritable : Option WritableState
  /-- Staged contents of `.rela.dyn`, the latest last. -/
  relaOverrides : List (List Rela)
  /-- Addresses of the bodies that get a new initialiser slot. -/
  pendingAppendedInitSlots : List Nat
  pendingLibraryDeps : List String
  codeName : String
  writableName : String
  deriving Repr

def BinaryState.new (source : Source) (symbols : List Symbol) : BinaryState :=
  ⟨source, symbols, none, none, [], [], [], ".text.armv8_encode_appended",
    ".data.armv8_encode_writable"⟩

/-! ## §3. Placing a region. -/

/-- End of what the loads of an image map. -/
def mappedEnd (image : Image) : Nat :=
  ((image.programHeaders.filter fun p => p.pType == ptLoad).map
    fun p => p.pVaddr + p.pMemsz).foldl max 0

/-- A page-aligned address past the image and past the regions as they are now. -/
def BinaryState.pickAppendVaddr (st : BinaryState) : Nat :=
  let floor := mappedEnd st.source.image
  let floor :=
    match st.appended with
    | none => floor
    | some a => max floor (a.segmentVaddr + a.bytes.length)
  let floor :=
    match st.appendedWritable with
    | none => floor
    | some w => max floor (w.segmentVaddr + w.bytes.length)
  max (alignUp floor appendPageAlign) appendPageAlign

theorem pickAppendVaddr_aligned (st : BinaryState) : appendPageAlign ∣ st.pickAppendVaddr := by
  have hmax : ∀ floor : Nat, appendPageAlign ∣ max (alignUp floor appendPageAlign) appendPageAlign := by
    intro floor
    by_cases hle : alignUp floor appendPageAlign ≤ appendPageAlign
    · rw [Nat.max_eq_right hle]
    · rw [Nat.max_eq_left (by omega)]
      exact dvd_alignUp _ (by decide)
  exact hmax _

/-- The code region, opened at a fresh address if there is none. -/
def BinaryState.codeRegion (st : BinaryState) : AppendedState :=
  match st.appended with
  | some a => a
  | none => ⟨st.pickAppendVaddr, [], [], pickAppendVaddr_aligned st⟩

def BinaryState.writableRegion (st : BinaryState) : WritableState :=
  match st.appendedWritable with
  | some w => w
  | none => ⟨st.pickAppendVaddr, [], pickAppendVaddr_aligned st⟩

/-- `(value + align - 1) & !(align - 1)`, for any `align`. -/
def maskUp (value align : Nat) : Nat :=
  if align ≤ 1 then value
  else value + (align - 1) - ((value + (align - 1)) &&& (align - 1))

theorem le_maskUp (value align : Nat) : value ≤ maskUp value align := by
  unfold maskUp
  split
  · exact Nat.le_refl _
  · have hand := Nat.and_le_right (n := value + (align - 1)) (m := align - 1)
    omega

/-- Bytes followed by zeros up to an alignment. -/
def padTo (bytes : List Byte) (align : Nat) : List Byte :=
  bytes ++ List.replicate (maskUp bytes.length align - bytes.length) 0

theorem padTo_length (bytes : List Byte) (align : Nat) :
    (padTo bytes align).length = maskUp bytes.length align := by
  have hle := le_maskUp bytes.length align
  unfold padTo
  rw [List.length_append, List.length_replicate]
  omega

/-! ## §4. Calls. -/

/-- Instructions to append, as far as the editor looks at them. -/
structure Body where
  isEmpty : Bool
  /-- Sum of the source sizes of the instructions. -/
  sourceSize : Nat
  /-- The bytes at an address, with the symbols known by then. -/
  emit : List Symbol → Nat → Option (List Byte)
  /-- Every instruction emits some bytes. -/
  emit_ne_nil : isEmpty = false → ∀ symbols vaddr bytes, emit symbols vaddr = some bytes →
    bytes ≠ []

/-- What a successful call returns: a symbol's address, and what it stands for. -/
structure Placed where
  address : Nat
  bytes : List Byte
  deriving Repr, DecidableEq

namespace BinaryState

def addFunction (st : BinaryState) (name : String) (body : Body) :
    BinaryState × Option Placed :=
  if body.isEmpty then (st, none)
  else if !st.source.isLinked then (st, none)
  else
    let region := st.codeRegion
    let cumulative := maskUp region.bytes.length 4
    let padded := { region with bytes := padTo region.bytes 4 }
    let st :=
      if region.bytes.length < cumulative then { st with appended := some padded } else st
    let functionVaddr := region.segmentVaddr + cumulative
    -- The symbol is registered before layout, so that the body can refer to itself.
    let st :=
      { st with symbols := st.symbols ++ [⟨name, functionVaddr, body.sourceSize, true, false⟩] }
    match body.emit st.symbols functionVaddr with
    | none => (st, none)
    | some bytes =>
      ({ st with appended := some { padded with bytes := padded.bytes ++ bytes } },
        some ⟨functionVaddr, bytes⟩)

/-- The export's address and size are those of the symbol, whose size is the
source size of the body. -/
def addFunctionExported (st : BinaryState) (name : String) (body : Body) :
    BinaryState × Option Placed :=
  match st.addFunction name body with
  | (st, none) => (st, none)
  | (st, some placed) =>
    let region := st.codeRegion
    let exports := region.exports ++ [⟨name, placed.address, body.sourceSize⟩]
    ({ st with appended := some { region with exports := exports } }, some placed)

def addData (st : BinaryState) (name : String) (bytes : List Byte) (align : Nat) :
    BinaryState × Option Placed :=
  if !st.source.isLinked then (st, none)
  else
    let region := st.codeRegion
    let address := region.segmentVaddr + maskUp region.bytes.length align
    ({ st with
        appended := some { region with bytes := padTo region.bytes align ++ bytes }
        symbols := st.symbols ++ [⟨name, address, bytes.length, false, false⟩] },
      some ⟨address, bytes⟩)

def addWritableData (st : BinaryState) (name : String) (bytes : List Byte) (align : Nat) :
    BinaryState × Option Placed :=
  if !st.source.isLinked then (st, none)
  else
    let region := st.writableRegion
    let address := region.segmentVaddr + maskUp region.bytes.length align
    ({ st with
        appendedWritable := some { region with bytes := padTo region.bytes align ++ bytes }
        symbols := st.symbols ++ [⟨name, address, bytes.length, false, false⟩] },
      some ⟨address, bytes⟩)

def addLibraryDependency (st : BinaryState) (libraryName : String) : BinaryState :=
  if !st.source.isLinked then st
  else { st with pendingLibraryDeps := st.pendingLibraryDeps ++ [libraryName] }

end BinaryState

/-! ## §5. Initialisers. -/

inductive InitialiserPosition where
  | first
  | last
  | append
  deriving Repr, DecidableEq

/-- The effective `.rela.dyn`: the latest staged one, else the source's. -/
def BinaryState.effectiveRelaDyn (st : BinaryState) : Option (List Rela) :=
  match st.source.relaDyn with
  | none => none
  | some entries => some (st.relaOverrides.getLast?.getD entries)

/-- The slot of `.init_array` that a hijack takes; none where it has no slot. -/
def Source.hijackedSlot (src : Source) (position : InitialiserPosition) : Option Nat :=
  match src.sectionNamed ".init_array" with
  | none => none
  | some (_, s) =>
    if s.bytes.length < 8 then none
    else
      match position with
      | .first => some s.address
      | .last => some (s.address + (s.bytes.length / 8 - 1) * 8)
      | .append => none

/-- The entry that fixes up a slot: the first one with its address and type. -/
def findRelative (entries : List Rela) (slotVaddr : Nat) : Option Nat :=
  entries.findIdx? fun r => r.rOffset == slotVaddr && r.rType == rAarch64Relative

/-- The word of a `bl`, if the target is a whole number of words away and in reach. -/
def blWord (vaddr target : Nat) : Option Nat :=
  let offset : Int := target - vaddr
  if offset % 4 ≠ 0 then none
  else if -(2 ^ 25) ≤ offset / 4 ∧ offset / 4 < 2 ^ 25 then
    some (0x94000000 + (offset / 4 % 2 ^ 26).toNat)
  else none

/-- The wrapper's ten words: save the arguments, call the body, restore them,
call the constructor. -/
def assembleWrapper (vaddr userBody originalCtor : Nat) : Option (List Byte) :=
  match blWord (vaddr + 16) userBody, blWord (vaddr + 28) originalCtor with
  | some callUser, some callCtor =>
    some ([0xa9bd7bfd, 0xa90107e0, 0xf90013e2, 0x910003fd, callUser, 0xa94107e0, 0xf94013e2,
      callCtor, 0xa8c37bfd, 0xd65f03c0].flatMap (leBytes 4))
  | _, _ => none

theorem assembleWrapper_length {vaddr userBody originalCtor : Nat} {bytes : List Byte}
    (h : assembleWrapper vaddr userBody originalCtor = some bytes) : bytes.length = 40 := by
  unfold assembleWrapper at h
  split at h
  · cases h
    simp
  · cases h

def wrapperBody (userBody originalCtor : Nat) : Body where
  isEmpty := false
  sourceSize := 40
  emit := fun _ vaddr => assembleWrapper vaddr userBody originalCtor
  emit_ne_nil := by
    intro _ _ vaddr bytes h hnil
    have hlen := assembleWrapper_length h
    rw [hnil] at hlen
    cases hlen

namespace BinaryState

/-- A new slot: the body is registered now, the slot is made at commit. -/
def addInitialiserAppend (st : BinaryState) (name : String) (body : Body) :
    BinaryState × Option Placed :=
  if body.isEmpty then (st, none)
  else if !st.source.isLinked then (st, none)
  else if (st.source.sectionNamed ".rela.dyn").isNone then (st, none)
  else
    match st.addFunction (name ++ "__body") body with
    | (st, none) => (st, none)
    | (st, some placed) =>
      ({ st with
          pendingAppendedInitSlots := st.pendingAppendedInitSlots ++ [placed.address] },
        some placed)

/-- A hijack: the slot's entry is redirected to a wrapper that calls the body
and then what the entry pointed at. -/
def addInitialiserHijack (st : BinaryState) (name : String) (body : Body)
    (position : InitialiserPosition) : BinaryState × Option Placed :=
  if body.isEmpty then (st, none)
  else if !st.source.isLinked then (st, none)
  else
    match st.source.hijackedSlot position, st.effectiveRelaDyn with
    | some slot, some entries =>
      match findRelative entries slot with
      | none => (st, none)
      | some i =>
        let originalCtor := ((entries[i]?).map Rela.rAddend).getD 0
        if st.symbols.any fun s => s.isFunction && !s.isUndefined && s.address == originalCtor then
          match st.addFunction (name ++ "__body") body with
          | (st, none) => (st, none)
          | (st, some user) =>
            match st.addFunction (name ++ "__wrapper")
              (wrapperBody user.address originalCtor) with
            | (st, none) => (st, none)
            | (st, some wrapper) =>
              let entries := entries.modify i fun r => { r with rAddend := wrapper.address }
              ({ st with relaOverrides := st.relaOverrides ++ [entries] }, some user)
        else (st, none)
    | _, _ => (st, none)

def addInitialiser (st : BinaryState) (name : String) (body : Body)
    (position : InitialiserPosition) : BinaryState × Option Placed :=
  match position with
  | .append => st.addInitialiserAppend name body
  | _ => st.addInitialiserHijack name body position

end BinaryState

end Armv8Encode.Elf

/-
  Armv8Encode.Container.MachO.GrowthAddresses — recorded addresses after a grow.

  Symbols record addresses, exports and initialisers record offsets from the
  image base, and the entry point is a file offset.  Each table has its own
  fix-up: the symbols' one compares an address with a file offset, and the
  exports' one compares with nothing.  So the grow moves every recorded
  address exactly once only for images that keep clear of both.
-/
import Armv8Encode.Container.MachO.Growth
import Mathlib.Data.List.Forall2

namespace Armv8Encode.MachO

/-! ## §1. The tables. -/

structure Nlist64 where
  nStrx : Nat
  nType : Nat
  nSect : Nat
  nDesc : Nat
  nValue : Nat
  deriving Repr, DecidableEq

structure MachOExport where
  name : String
  flags : Nat
  addressOffset : Nat
  deriving Repr, DecidableEq

/-- The tables that record addresses, decoded. -/
structure AddressTables where
  /-- The entries of `LC_SYMTAB`. -/
  symtab : Option (List Nlist64)
  /-- The entries of the export trie, of whichever command names it. -/
  exports : Option (List MachOExport)
  /-- The words of each `S_INIT_FUNC_OFFSETS` section, once overrides are in. -/
  initOffsets : List (List Nat)
  deriving Repr, DecidableEq

structure MachOImage where
  commands : List LoadCommand
  tables : AddressTables
  deriving Repr, DecidableEq

def nStabMask : Nat := 0xe0
def nTypeMask : Nat := 0x0e
def nTypeSect : Nat := 0x0e

/-- A symbol defined in a section, and not a debugging entry. -/
def Nlist64.isDefined (e : Nlist64) : Bool :=
  e.nType &&& nStabMask == 0 && e.nType &&& nTypeMask == nTypeSect

def exportKindMask : Nat := 0x03
def exportKindAbsolute : Nat := 0x02
def exportReexport : Nat := 0x08
def exportStubAndResolver : Nat := 0x10

def MachOExport.isReexport (e : MachOExport) : Bool := e.flags &&& exportReexport != 0

def MachOExport.isAbsolute (e : MachOExport) : Bool :=
  !e.isReexport && e.flags &&& exportKindMask == exportKindAbsolute

/-- An export of an address of this image. -/
def MachOExport.isRegular (e : MachOExport) : Bool :=
  !e.isReexport && e.flags &&& exportStubAndResolver == 0
    && e.flags &&& exportKindMask != exportKindAbsolute

/-! ## §2. The fix-ups. -/

def shiftDefinedSymbolValues (growthPoint delta : Nat) (entries : List Nlist64) : List Nlist64 :=
  entries.map fun e =>
    if e.isDefined && decide (growthPoint ≤ e.nValue) then { e with nValue := e.nValue + delta }
    else e

/-- Largest 64-bit number, where `saturating_add` stops. -/
def u64Max : Nat := 2 ^ 64 - 1

def growExports (delta : Nat) (exports : List MachOExport) : List MachOExport :=
  exports.map fun e =>
    if e.isReexport then e
    else { e with addressOffset := min (e.addressOffset + delta) u64Max }

def growInitOffsets (growthPoint delta : Nat) (words : List Nat) : List Nat :=
  words.map fun v => if growthPoint ≤ v then (v + delta) % 2 ^ 32 else v

/-- The grown image, as far as addresses are recorded. -/
def growAddresses (image : MachOImage) (growthPoint delta : Nat) : MachOImage where
  commands := applyGrowth image.commands growthPoint delta
  tables :=
    { symtab := image.tables.symtab.map (shiftDefinedSymbolValues growthPoint delta)
      exports := image.tables.exports.map (growExports delta)
      initOffsets := image.tables.initOffsets.map (growInitOffsets growthPoint delta) }

/-! ## §3. What a grow is to do. -/

/-- An address at or past the insertion moves. -/
def movedAddress (insert delta a : Nat) : Nat := if insert ≤ a then a + delta else a

/-- The same for an offset from the image base. -/
def movedOffset (base insert delta o : Nat) : Nat := if insert ≤ base + o then o + delta else o

/-- `__TEXT` maps the header and holds the growth point. -/
structure GrowsText (commands : List LoadCommand) (text : MachOSegment) (growthPoint : Nat) :
    Prop where
  held : (segments commands).find? (fun s => s.holds growthPoint) = some text
  header : text.fileoff = 0
  inFile : growthPoint < 2 ^ 32

theorem GrowsText.insertVaddr_eq {commands : List LoadCommand} {text : MachOSegment}
    {growthPoint : Nat} (h : GrowsText commands text growthPoint) :
    insertVaddr commands growthPoint = text.vmaddr + growthPoint := by
  unfold insertVaddr
  rw [h.held]
  show text.vmaddr + (growthPoint - text.fileoff) = _
  rw [h.header, Nat.sub_zero]

/-- Corresponding commands: an entry point moves as an offset does. -/
def EntryMoved (base insert delta : Nat) (c c' : LoadCommand) : Prop :=
  ∀ entryoff, c = .main entryoff → c' = .main (movedOffset base insert delta entryoff)

def SymbolMoved (insert delta : Nat) (e e' : Nlist64) : Prop :=
  e.isDefined = true → e'.nValue = movedAddress insert delta e.nValue

structure ExportMoved (base insert delta : Nat) (e e' : MachOExport) : Prop where
  regular : e.isRegular = true →
    e'.addressOffset = movedOffset base insert delta e.addressOffset
  absolute : e.isAbsolute = true → e'.addressOffset = e.addressOffset

def OffsetMoved (base insert delta : Nat) (v v' : Nat) : Prop :=
  v' = movedOffset base insert delta v

/-- Every recorded address moved exactly once. -/
structure AddressesMoved (base insert delta : Nat) (image image' : MachOImage) : Prop where
  entry : List.Forall₂ (EntryMoved base insert delta) image.commands image'.commands
  symbols : Option.Rel (List.Forall₂ (SymbolMoved insert delta)) image.tables.symtab
    image'.tables.symtab
  exports : Option.Rel (List.Forall₂ (ExportMoved base insert delta)) image.tables.exports
    image'.tables.exports
  initOffsets : List.Forall₂ (List.Forall₂ (OffsetMoved base insert delta))
    image.tables.initOffsets image'.tables.initOffsets

/-! ## §4. Table by table. -/

section Tables

variable {base growthPoint delta : Nat}

/-- A defined symbol whose value passes for a file offset past the point is an
address past it. -/
def SymbolFollows (base growthPoint : Nat) (e : Nlist64) : Prop :=
  e.isDefined = true → growthPoint ≤ e.nValue → base + growthPoint ≤ e.nValue

/-- No export of the header, and no absolute one but at the very end, where the
sum saturates; and no other sum does. -/
structure ExportFollows (growthPoint delta : Nat) (e : MachOExport) : Prop where
  regular : e.isRegular = true →
    growthPoint ≤ e.addressOffset ∧ e.addressOffset + delta ≤ u64Max
  absolute : e.isAbsolute = true → e.addressOffset = u64Max

theorem forall₂_map_iff {α : Type*} {R : α → α → Prop} {f : α → α} {xs : List α} :
    List.Forall₂ R xs (xs.map f) ↔ ∀ x ∈ xs, R x (f x) := by
  rw [List.forall₂_map_right_iff, List.forall₂_same]

theorem rel_map_iff {α : Type*} {R : α → α → Prop} {f : α → α} {x : Option α} :
    Option.Rel R x (x.map f) ↔ ∀ a, x = some a → R a (f a) := by
  cases x with
  | none => exact iff_of_true .none (by simp)
  | some a => simp

theorem symbolMoved_iff (hpos : 0 < delta) (e : Nlist64) :
    SymbolMoved (base + growthPoint) delta e
        (if e.isDefined && decide (growthPoint ≤ e.nValue)
          then { e with nValue := e.nValue + delta } else e)
      ↔ SymbolFollows base growthPoint e := by
  unfold SymbolMoved SymbolFollows movedAddress
  by_cases hdefined : e.isDefined = true
  · by_cases hpast : growthPoint ≤ e.nValue
    · simp only [hdefined, hpast, decide_true, Bool.and_self, if_true, forall_const]
      split <;> omega
    · have hbefore : ¬ base + growthPoint ≤ e.nValue := by omega
      simp [hdefined, hpast, hbefore]
  · simp [hdefined]

theorem exportMoved_iff (hpos : 0 < delta) (hgrowth : growthPoint < 2 ^ 32) (e : MachOExport) :
    ExportMoved base (base + growthPoint) delta e
        (if e.isReexport then e
          else { e with addressOffset := min (e.addressOffset + delta) u64Max })
      ↔ ExportFollows growthPoint delta e := by
  have hmax : 2 ^ 32 < u64Max := by decide
  by_cases hreexport : e.isReexport = true
  · have hregular : e.isRegular = false := by simp [MachOExport.isRegular, hreexport]
    have habsolute : e.isAbsolute = false := by simp [MachOExport.isAbsolute, hreexport]
    refine iff_of_true ⟨?_, ?_⟩ ⟨?_, ?_⟩ <;> simp [hregular, habsolute]
  rw [if_neg hreexport]
  have hmoved : movedOffset base (base + growthPoint) delta e.addressOffset
      = if growthPoint ≤ e.addressOffset then e.addressOffset + delta else e.addressOffset := by
    unfold movedOffset
    by_cases hpast : growthPoint ≤ e.addressOffset
    · rw [if_pos hpast, if_pos (by omega)]
    · rw [if_neg hpast, if_neg (by omega)]
  constructor
  · rintro ⟨hregular, habsolute⟩
    constructor
    case regular =>
      intro h
      have heq := hregular h
      rw [hmoved] at heq
      dsimp only at heq
      split at heq <;> omega
    case absolute =>
      intro h
      have heq := habsolute h
      dsimp only at heq
      omega
  · rintro ⟨hregular, habsolute⟩
    constructor
    case regular =>
      intro h
      obtain ⟨hpast, hfits⟩ := hregular h
      rw [hmoved, if_pos hpast]
      exact Nat.min_eq_left hfits
    case absolute =>
      intro h
      have heq := habsolute h
      show min (e.addressOffset + delta) u64Max = e.addressOffset
      omega

theorem offsetMoved_iff (v : Nat) :
    OffsetMoved base (base + growthPoint) delta v
        (if growthPoint ≤ v then (v + delta) % 2 ^ 32 else v)
      ↔ (growthPoint ≤ v → v + delta < 2 ^ 32) := by
  unfold OffsetMoved movedOffset
  by_cases hpast : growthPoint ≤ v
  · rw [if_pos hpast, if_pos (by omega)]
    constructor
    · intro heq _
      rw [← heq]
      exact Nat.mod_lt _ (by decide)
    · intro hlt
      exact Nat.mod_eq_of_lt (hlt hpast)
  · rw [if_neg hpast, if_neg (by omega)]
    exact iff_of_true rfl fun h => absurd h hpast

/-- Entry points are always right: both are offsets from the header. -/
theorem entryMoved (insert : Nat) (c : LoadCommand) :
    EntryMoved base (base + growthPoint) delta c (growCommand growthPoint delta insert c) := by
  rintro entryoff rfl
  show LoadCommand.main (if growthPoint ≤ entryoff then entryoff + delta else entryoff) = _
  unfold movedOffset
  by_cases hpast : growthPoint ≤ entryoff
  · rw [if_pos hpast, if_pos (by omega)]
  · rw [if_neg hpast, if_neg (by omega)]

end Tables

/-! ## §5. The whole image. -/

/-- Every table keeps clear of what its fix-up gets wrong. -/
structure AddressesFollow (base growthPoint delta : Nat) (tables : AddressTables) : Prop where
  symbols : ∀ entries, tables.symtab = some entries →
    ∀ e ∈ entries, SymbolFollows base growthPoint e
  exports : ∀ entries, tables.exports = some entries →
    ∀ e ∈ entries, ExportFollows growthPoint delta e
  initOffsets : ∀ words ∈ tables.initOffsets, ∀ v ∈ words, growthPoint ≤ v → v + delta < 2 ^ 32

/-- **Recorded addresses after a grow.**  Each moves exactly once if and only if no
defined symbol has a value between the growth point's file offset and its
address, no export is of the header or absolute, and no sum is too large. -/
theorem growAddresses_moved_iff {image : MachOImage} {text : MachOSegment}
    {growthPoint delta : Nat} (hgrows : GrowsText image.commands text growthPoint)
    (hpos : 0 < delta) :
    AddressesMoved text.vmaddr (insertVaddr image.commands growthPoint) delta image
        (growAddresses image growthPoint delta)
      ↔ AddressesFollow text.vmaddr growthPoint delta image.tables := by
  rw [hgrows.insertVaddr_eq]
  have hsymbols : Option.Rel (List.Forall₂ (SymbolMoved (text.vmaddr + growthPoint) delta))
        image.tables.symtab (growAddresses image growthPoint delta).tables.symtab
      ↔ ∀ entries, image.tables.symtab = some entries →
        ∀ e ∈ entries, SymbolFollows text.vmaddr growthPoint e := by
    refine rel_map_iff.trans (forall₂_congr fun entries _ => ?_)
    refine forall₂_map_iff.trans (forall₂_congr fun e _ => ?_)
    exact symbolMoved_iff hpos e
  have hexports : Option.Rel
        (List.Forall₂ (ExportMoved text.vmaddr (text.vmaddr + growthPoint) delta))
        image.tables.exports (growAddresses image growthPoint delta).tables.exports
      ↔ ∀ entries, image.tables.exports = some entries →
        ∀ e ∈ entries, ExportFollows growthPoint delta e := by
    refine rel_map_iff.trans (forall₂_congr fun entries _ => ?_)
    refine forall₂_map_iff.trans (forall₂_congr fun e _ => ?_)
    exact exportMoved_iff hpos hgrows.inFile e
  have hinit : List.Forall₂
        (List.Forall₂ (OffsetMoved text.vmaddr (text.vmaddr + growthPoint) delta))
        image.tables.initOffsets (growAddresses image growthPoint delta).tables.initOffsets
      ↔ ∀ words ∈ image.tables.initOffsets, ∀ v ∈ words,
        growthPoint ≤ v → v + delta < 2 ^ 32 := by
    refine forall₂_map_iff.trans (forall₂_congr fun words _ => ?_)
    refine forall₂_map_iff.trans (forall₂_congr fun v _ => ?_)
    exact offsetMoved_iff v
  have hentry : List.Forall₂
      (EntryMoved text.vmaddr (text.vmaddr + growthPoint) delta) image.commands
      (growAddresses image growthPoint delta).commands :=
    forall₂_map_iff.mpr fun c _ => entryMoved _ c
  constructor
  · rintro ⟨_, hs, he, hi⟩
    exact ⟨hsymbols.mp hs, hexports.mp he, hinit.mp hi⟩
  · rintro ⟨hs, he, hi⟩
    exact ⟨hentry, hsymbols.mpr hs, hexports.mpr he, hinit.mpr hi⟩

/-! ## §6. A library and an executable. -/

/-- `__TEXT` at an address, with its first section at `0x1000`. -/
def textAt (vmaddr : Nat) : LoadCommand :=
  .segment ⟨"__TEXT", vmaddr, 0x4000, 0, 0x4000⟩
    [⟨"__text", "__TEXT", vmaddr + 0x1000, 0x100, 0x1000, 0, 0, 0, 0⟩]

def linkeditAt (vmaddr : Nat) : LoadCommand :=
  .segment ⟨"__LINKEDIT", vmaddr, 0x4000, 0x4000, 0x100⟩ []

/-- A library at address zero: one function, exported and run as initialiser. -/
def plainLibrary : MachOImage where
  commands := [textAt 0, linkeditAt 0x4000]
  tables :=
    { symtab := some [⟨1, 0x0f, 1, 0, 0x1010⟩, ⟨6, 0x01, 0, 0, 0⟩]
      exports := some [⟨"_run", 0, 0x1010⟩]
      initOffsets := [[0x1010]] }

theorem plainLibrary_moved :
    AddressesMoved 0 0x1000 0x4000 plainLibrary (growAddresses plainLibrary 0x1000 0x4000) := by
  have hgrows : GrowsText plainLibrary.commands ⟨"__TEXT", 0, 0x4000, 0, 0x4000⟩ 0x1000 :=
    ⟨rfl, rfl, by decide⟩
  refine (growAddresses_moved_iff hgrows (by decide)).mpr ?_
  constructor
  case symbols =>
    rintro _ ⟨⟩
    unfold SymbolFollows
    decide
  case exports =>
    rintro _ ⟨⟩ e he
    obtain rfl := List.mem_singleton.mp he
    exact ⟨by decide, by decide⟩
  case initOffsets => decide

/-- An executable at the usual base, whose header has a symbol and an export. -/
def plainExecutable : MachOImage where
  commands := [textAt 0x100000000, linkeditAt 0x100004000, .main 0x1010]
  tables :=
    { symtab := some [⟨1, 0x0f, 1, 0, 0x100000000⟩, ⟨21, 0x0f, 1, 0, 0x100001010⟩]
      exports := some [⟨"__mh_execute_header", 0, 0⟩, ⟨"_main", 0, 0x1010⟩]
      initOffsets := [] }

/-- Symbol and export of the header move with the code, though the header stays. -/
theorem plainExecutable_not_moved :
    (growAddresses plainExecutable 0x1000 0x4000).tables.symtab
        = some [⟨1, 0x0f, 1, 0, 0x100004000⟩, ⟨21, 0x0f, 1, 0, 0x100005010⟩]
      ∧ (growAddresses plainExecutable 0x1000 0x4000).tables.exports
        = some [⟨"__mh_execute_header", 0, 0x4000⟩, ⟨"_main", 0, 0x5010⟩]
      ∧ ¬ AddressesMoved 0x100000000 (insertVaddr plainExecutable.commands 0x1000) 0x4000
        plainExecutable (growAddresses plainExecutable 0x1000 0x4000) := by
  refine ⟨by decide, by decide, ?_⟩
  rintro ⟨_, hsymbols, _, _⟩
  cases hsymbols with
  | some h =>
    cases h with
    | cons hheader _ => exact absurd (hheader (by decide)) (by decide)

end Armv8Encode.MachO

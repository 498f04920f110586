/-
  Armv8Encode.Rewrite.Targets — targets that resolve back, sections found again.

  Lift replaces an address by a block or a symbol.  As long as the layout puts
  every block where it started, such a target resolves to the address it came
  from.  An instruction's source bytes are found again through the first
  section that covers its address.
-/
import Armv8Encode.Rewrite.Plan

namespace Armv8Encode

open Lib

/-! ## §1. Targets. -/

/-- The block addresses put every block that lift knows where it started. -/
def BlocksInPlace (blockAtAddress : Map U64 BasicBlockId) (blockAddresses : List U64) : Prop :=
  ∀ address id, blockAtAddress address = some id → blockAddresses[id.index]? = some address

variable {c : Container} {blockAtAddress : Map U64 BasicBlockId} {blockAddresses : List U64}

/-- A target that denotes an address and whose symbol, if any, exists. -/
def Denotes (blockAddresses : List U64) (c : Container) (t : Target) (address : U64) : Prop :=
  resolveTarget t blockAddresses (some c) = .ok address ∧
    ∀ id, t = .symbol id → (c.symbol id).isSome = true

theorem denotes_symbol {symbol : Symbol} {address : U64} (hmem : symbol ∈ c.symbols)
    (h : c.callableAddressOfSymbol symbol.id = some address) :
    Denotes blockAddresses c (.symbol symbol.id) address := by
  refine ⟨by simp only [resolveTarget, h], ?_⟩
  rintro id ⟨⟩
  rw [Container.symbol_id hmem]
  rfl

theorem denotes_resolveAddress (hblocks : BlocksInPlace blockAtAddress blockAddresses)
    (address : U64) :
    Denotes blockAddresses c (resolveAddress address blockAtAddress (some c)) address := by
  unfold resolveAddress
  split
  · next id hid =>
    refine ⟨by simp only [resolveTarget, hblocks address id hid], ?_⟩
    rintro id' ⟨⟩
  · split
    · next symbol hsymbol =>
      exact denotes_symbol (Container.symbolAtAddress_some hsymbol).1
        (Container.callableAddress_of_symbolAtAddress hsymbol)
    · refine ⟨rfl, ?_⟩
      rintro id ⟨⟩

theorem symbolNeedsRelocation_isSome {id : SymbolId} (h : (c.symbol id).isSome = true)
    (current : Option SectionId) : (symbolNeedsRelocation c id current).isSome = true := by
  obtain ⟨symbol, hsymbol⟩ := Option.isSome_iff_exists.mp h
  simp only [symbolNeedsRelocation, hsymbol, bind, Option.bind_some]
  split
  · rfl
  · split
    · rfl
    · split
      · rfl
      · split
        · rfl
        · split <;> rfl

/-- The relocation test does not panic when every symbol exists. -/
theorem needsRelocationIn_ok {Op E : Type} {current : Option SectionId}
    {operands : List (RewriteOperand Op)}
    (h : ∀ r ∈ operands, ∀ id kind, r.symbolic? = some (.symbol id, kind) →
      (c.symbol id).isSome = true) :
    ∃ reloc, needsRelocationIn (E := E) c current operands = .ok reloc := by
  induction operands with
  | nil => exact ⟨none, rfl⟩
  | cons r rest ih =>
    have htail := ih fun r' hr' => h r' (List.mem_cons_of_mem _ hr')
    unfold needsRelocationIn
    split
    · next id kind hsym =>
      obtain ⟨needs, hneeds⟩ := Option.isSome_iff_exists.mp
        (symbolNeedsRelocation_isSome (h r List.mem_cons_self id kind hsym) current)
      rw [hneeds]
      cases needs with
      | true => exact ⟨_, rfl⟩
      | false => exact htail
    · exact htail

/-! ## §2. Sections. -/

/-- The section is the first one that covers each of its byte addresses. -/
def FirstCovering (c : Container) (s : Section) : Prop :=
  ∀ k, k < s.bytes.length → c.sectionForAddress (s.address + BitVec.ofNat 64 k) = some s.id

/-- A section found at all of its bytes does not wrap around. -/
theorem FirstCovering.no_wrap {s : Section} (hs : s ∈ c.sections) (h : FirstCovering c s) {k : Nat}
    (hk : k < s.bytes.length) : s.address.toNat + k < 2 ^ 64 := by
  have haddress := s.address.isLt
  by_contra hwrap
  -- the first byte past the top of the address space is covered as well
  have hcovered := h (2 ^ 64 - 1 - s.address.toNat) (by omega)
  have htop := h (2 ^ 64 - s.address.toNat) (by omega)
  obtain ⟨t, ht, hid, -, -, hlast⟩ := Container.sectionForAddress_some hcovered
  obtain ⟨t', ht', hid', -, hbelow, habove⟩ := Container.sectionForAddress_some htop
  have hst := Container.section_eq_of_id ht hs hid
  have hst' := Container.section_eq_of_id ht' hs hid'
  subst hst
  subst hst'
  rw [BitVec.lt_def] at hlast habove
  rw [BitVec.le_def] at hbelow
  simp only [BitVec.toNat_add, BitVec.toNat_ofNat] at hlast hbelow habove
  have hsize := t'.size.isLt
  omega

/-- The bytes of a section from one of its byte addresses on. -/
theorem FirstCovering.tailAt {s : Section} (hs : s ∈ c.sections) (h : FirstCovering c s) {k : Nat}
    (hk : k < s.bytes.length) :
    s.tailAt (s.address + BitVec.ofNat 64 k) = some (s.bytes.drop k) := by
  have hwrap := h.no_wrap hs hk
  have hoffset : (s.address + BitVec.ofNat 64 k - s.address).toNat = k := by
    rw [BitVec.add_comm, BitVec.add_sub_cancel, BitVec.toNat_ofNat]
    omega
  have hle : s.address ≤ s.address + BitVec.ofNat 64 k := by
    rw [BitVec.le_def, BitVec.toNat_add, BitVec.toNat_ofNat]
    omega
  rw [Section.tailAt, hoffset, if_pos ⟨hle, hk.le⟩]

/-- The text an instruction's source bytes are read from. -/
theorem FirstCovering.textTailAt {s : Section} (hs : s ∈ c.sections) (h : FirstCovering c s)
    (htext : s.kind = .text) {k : Nat} (hk : k < s.bytes.length) :
    c.textTailAt (s.address + BitVec.ofNat 64 k) = some (s.bytes.drop k) := by
  simp [Container.textTailAt, h k hk, Container.sectionOf_id hs, htext, h.tailAt hs hk, bind]

end Armv8Encode

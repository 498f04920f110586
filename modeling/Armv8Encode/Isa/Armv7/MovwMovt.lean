/-
  Armv8Encode.Isa.Armv7.MovwMovt — a pair loads its target.

  The two halves of a pair decode to `movw` and `movt` of the macro's register
  with the halves of the address, in both modes: `MovwMovt.Decodes`.  What is
  left are the two decisions in front of the encoders.  The macro emitter has
  its own test for relocations, which misses two cases of the general one, and
  it takes the low 32 bits of any address.

  Main results:
    * `thumb_decodes`, `arm_decodes` — the halves, encoded and decoded.
    * `materialises_iff` — over any two halves that decode, when a pair loads
      what it stands for.
    * `movwMovt_iff` — both modes.
-/
import Armv8Encode.Isa.Aarch64.MacroRelocation
import Armv8Encode.Isa.Armv7.MacroEmit
import Armv8Encode.Isa.Armv7.WidenedBranch

namespace Armv8Encode.Armv7

open Lib

/-! ## §1. Two halves that decode. -/

/-- The encoders give four bytes each for every register and all halves, and
together they load the halves into the register, as `loads` reads them. -/
structure MovwMovt.Decodes (halves : MovwMovt)
    (loads : U64 → List Byte → Register → Nat → Nat → Prop) : Prop where
  encodes : ∀ (r : BitVec 4) (lo hi : BitVec 16), ∃ movw movt,
    halves.movw ⟨.r, r.setWidth 8⟩ (lo.toNat : Int) = .ok movw ∧
      halves.movt ⟨.r, r.setWidth 8⟩ (hi.toNat : Int) = .ok movt ∧
      movw.length = 4 ∧ movt.length = 4 ∧
      ∀ here, loads here (movw ++ movt) ⟨.r, r.setWidth 8⟩ lo.toNat hi.toNat
  unique : ∀ here bytes rd lo hi lo' hi', loads here bytes rd lo hi → loads here bytes rd lo' hi' →
    lo = lo' ∧ hi = hi'

/-- The relocations that the general test asks for, for a pair at an offset. -/
def askedRelocations (halves : MovwMovt) (target : Target) (ctx : EmitContext) (offset : Nat) :
    List EmittedRelocation :=
  match target, ctx.container with
  | .symbol id, some c =>
    if symbolNeedsRelocation c id ctx.currentSection = some true then
      [⟨BitVec.ofNat 64 offset, halves.movwRelocation, id, 0⟩,
        ⟨BitVec.ofNat 64 (offset + 4), halves.movtRelocation, id, 0⟩]
    else []
  | _, _ => []

/-- What a pair that was emitted for a target is: eight bytes that load two
halves into the register, the relocations that were asked for, and without
any, the halves of the resolved address. -/
def PairFor (halves : MovwMovt) (loads : U64 → List Byte → Register → Nat → Nat → Prop)
    (register : Register) (target : Target) (here : U64) (ctx : EmitContext)
    (out out' : EmitOutput) : Prop :=
  ∃ piece lo hi, out'.bytes = out.bytes ++ piece ∧ piece.length = 8 ∧
    loads here piece register lo hi ∧
    out'.relocations = out.relocations ++ askedRelocations halves target ctx out.bytes.length ∧
    (askedRelocations halves target ctx out.bytes.length = [] →
      ∃ address, macroResolveTarget target ctx.blockAddresses ctx.container = some address ∧
        lo + 65536 * hi = address.toNat)

/-- Where the emitter's decisions are right: its test does not miss the symbol,
and an address to be folded fits 32 bits. -/
structure FoldsWhole (target : Target) (ctx : EmitContext) : Prop where
  sameTest : ∀ id c, target = .symbol id → ctx.container = some c →
    ¬MacroTestMisses c id ctx.currentSection
  low : (∀ id c, target = .symbol id → ctx.container = some c →
      symbolNeedsRelocation c id ctx.currentSection = some false) →
    ∀ address, macroResolveTarget target ctx.blockAddresses ctx.container = some address →
      address.toNat < 2 ^ 32

/-! ## §2. The two decisions. -/

/-- Where the emitter's own test misses a case, it asks for a relocation. -/
theorem macroSymbolNeedsRelocation_of_misses {c : Container} {id : SymbolId}
    {current : Option SectionId} (h : MacroTestMisses c id current) :
    macroSymbolNeedsRelocation c id current = some true := by
  obtain ⟨s, hsymbol, ⟨hundefined, hplt, -⟩ | ⟨hdefined, hkind, -⟩⟩ := h
  · simp [macroSymbolNeedsRelocation, hsymbol, hundefined, hplt]
  · simp [macroSymbolNeedsRelocation, hsymbol, hdefined, hkind]

theorem relocationOfTarget_some {target : Target} {ctx : EmitContext} {id : SymbolId}
    (h : relocationOfTarget target ctx = .ok (some id)) :
    ∃ c, target = .symbol id ∧ ctx.container = some c ∧
      macroSymbolNeedsRelocation c id ctx.currentSection = some true := by
  unfold relocationOfTarget at h
  split at h
  · next id' c hcontainer =>
    cases hneeds : macroSymbolNeedsRelocation c id' ctx.currentSection with
    | none =>
      rw [hneeds] at h
      cases h
    | some needed =>
      rw [hneeds] at h
      cases needed with
      | false => cases h
      | true =>
        cases h
        exact ⟨c, rfl, hcontainer, hneeds⟩
  · cases h

theorem relocationOfTarget_none {target : Target} {ctx : EmitContext}
    (h : relocationOfTarget target ctx = .ok none) :
    ∀ id c, target = .symbol id → ctx.container = some c →
      macroSymbolNeedsRelocation c id ctx.currentSection = some false := by
  rintro id c rfl hcontainer
  unfold relocationOfTarget at h
  rw [hcontainer] at h
  cases hneeds : macroSymbolNeedsRelocation c id ctx.currentSection with
  | none =>
    simp only [hneeds] at h
    cases h
  | some needed =>
    cases needed with
    | false => rfl
    | true =>
      simp only [hneeds] at h
      cases h

theorem askedRelocations_symbol {halves : MovwMovt} {id : SymbolId} {ctx : EmitContext}
    {c : Container} (hcontainer : ctx.container = some c) (offset : Nat) :
    askedRelocations halves (.symbol id) ctx offset
      = if symbolNeedsRelocation c id ctx.currentSection = some true then
          [⟨BitVec.ofNat 64 offset, halves.movwRelocation, id, 0⟩,
            ⟨BitVec.ofNat 64 (offset + 4), halves.movtRelocation, id, 0⟩]
        else [] := by
  unfold askedRelocations
  rw [hcontainer]

/-- Nothing is asked for when the general test says so. -/
theorem askedRelocations_nil {halves : MovwMovt} {target : Target} {ctx : EmitContext}
    (h : ∀ id c, target = .symbol id → ctx.container = some c →
      symbolNeedsRelocation c id ctx.currentSection = some false) (offset : Nat) :
    askedRelocations halves target ctx offset = [] := by
  unfold askedRelocations
  split
  · next id c hcontainer =>
    rw [h id c rfl hcontainer, if_neg (by decide)]
  · rfl

/-- The halves of an address. -/
theorem halves_toNat (address : U64) :
    (address &&& 0xffff).toNat = (address.setWidth 16).toNat ∧
      ((address >>> 16) &&& 0xffff).toNat = ((address >>> 16).setWidth 16).toNat ∧
      ((address.setWidth 16).toNat + 65536 * ((address >>> 16).setWidth 16).toNat = address.toNat ↔
        address.toNat < 2 ^ 32) := by
  have hmask : ∀ x : U64, (x &&& 0xffff).toNat = x.toNat % 2 ^ 16 := by
    intro x
    rw [BitVec.toNat_and]
    exact Nat.and_two_pow_sub_one_eq_mod x.toNat 16
  have hshift : (address >>> 16).toNat = address.toNat / 2 ^ 16 := by
    rw [BitVec.toNat_ushiftRight, Nat.shiftRight_eq_div_pow]
  rw [hmask, hmask, BitVec.toNat_setWidth, BitVec.toNat_setWidth, hshift]
  refine ⟨rfl, rfl, ?_⟩
  omega

/-- Where the emitter cannot tell about a symbol, neither can the general test. -/
theorem relocationOfTarget_error {target : Target} {ctx : EmitContext}
    {e : MacroEmitError EncodeError} (h : relocationOfTarget target ctx = .error e) :
    ∃ id c, target = .symbol id ∧ ctx.container = some c ∧
      macroSymbolNeedsRelocation c id ctx.currentSection = none := by
  unfold relocationOfTarget at h
  split at h
  · next id c hcontainer =>
    cases hneeds : macroSymbolNeedsRelocation c id ctx.currentSection with
    | none => exact ⟨id, c, rfl, hcontainer, hneeds⟩
    | some needed =>
      rw [hneeds] at h
      cases needed <;> cases h
  · cases h

/-- A pair that is refused has neither decision to make. -/
theorem foldsWhole_of_error {target : Target} {ctx : EmitContext}
    {e : MacroEmitError EncodeError} (h : relocationOfTarget target ctx = .error e) :
    FoldsWhole target ctx := by
  obtain ⟨id, c, rfl, hcontainer, hneeds⟩ := relocationOfTarget_error h
  have hsame : ¬MacroTestMisses c id ctx.currentSection := by
    intro hmisses
    rw [macroSymbolNeedsRelocation_of_misses hmisses] at hneeds
    cases hneeds
  refine ⟨fun id' c' htarget hcontainer' => ?_, fun hfalse => ?_⟩
  · cases htarget
    rw [hcontainer] at hcontainer'
    cases hcontainer'
    exact hsame
  · have hnot := hfalse id c rfl hcontainer
    rw [decisions_eq_iff.mpr hsame, hneeds] at hnot
    cases hnot

section Emit

variable {halves : MovwMovt} {loads : U64 → List Byte → Register → Nat → Nat → Prop}

/-- What the expansion of a pair gives. -/
theorem emit_cases (hdecodes : halves.Decodes loads) (r : BitVec 4) (target : Target)
    (ctx : EmitContext) (here : U64) (out : EmitOutput) :
    (∃ e, halves.emit ⟨.r, r.setWidth 8⟩ target ctx out = .error e ∧
      ((∃ e, relocationOfTarget target ctx = .error e) ∨
        relocationOfTarget target ctx = .ok none ∧
          macroResolveTarget target ctx.blockAddresses ctx.container = none)) ∨
      (∃ id piece, relocationOfTarget target ctx = .ok (some id) ∧ piece.length = 8 ∧
        loads here piece ⟨.r, r.setWidth 8⟩ 0 0 ∧
        halves.emit ⟨.r, r.setWidth 8⟩ target ctx out = .ok ⟨out.bytes ++ piece, out.relocations ++
          [⟨BitVec.ofNat 64 out.bytes.length, halves.movwRelocation, id, 0⟩,
            ⟨BitVec.ofNat 64 (out.bytes.length + 4), halves.movtRelocation, id, 0⟩]⟩) ∨
      ∃ address piece, relocationOfTarget target ctx = .ok none ∧
        macroResolveTarget target ctx.blockAddresses ctx.container = some address ∧
        piece.length = 8 ∧ loads here piece ⟨.r, r.setWidth 8⟩ (address.setWidth 16).toNat
          ((address >>> 16).setWidth 16).toNat ∧
        halves.emit ⟨.r, r.setWidth 8⟩ target ctx out
          = .ok ⟨out.bytes ++ piece, out.relocations⟩ := by
  unfold MovwMovt.emit
  cases hrelocation : relocationOfTarget target ctx with
  | error e => exact .inl ⟨e, rfl, .inl ⟨e, rfl⟩⟩
  | ok relocation =>
    cases relocation with
    | some id =>
      obtain ⟨movw, movt, hmovw, hmovt, hlen, hlen', hloads⟩ := hdecodes.encodes r 0 0
      have hmovw' : halves.movw ⟨.r, r.setWidth 8⟩ 0 = .ok movw := hmovw
      have hmovt' : halves.movt ⟨.r, r.setWidth 8⟩ 0 = .ok movt := hmovt
      have hlength : (movw ++ movt).length = 8 := by rw [List.length_append, hlen, hlen']
      refine .inr (.inl ⟨id, movw ++ movt, rfl, hlength, hloads here, ?_⟩)
      simp only [bind, Except.bind, hmovw', hmovt', Except.mapError, EmitOutput.push, pure,
        Except.pure, List.append_assoc, List.length_append, hlen, List.cons_append, List.nil_append]
    | none =>
      cases hresolve : macroResolveTarget target ctx.blockAddresses ctx.container with
      | none => exact .inl ⟨.malformed, rfl, .inr ⟨rfl, rfl⟩⟩
      | some address =>
        obtain ⟨hlo, hhi, -⟩ := halves_toNat address
        obtain ⟨movw, movt, hmovw, hmovt, hlen, hlen', hloads⟩ :=
          hdecodes.encodes r (address.setWidth 16) ((address >>> 16).setWidth 16)
        rw [← hlo] at hmovw
        rw [← hhi] at hmovt
        have hlength : (movw ++ movt).length = 8 := by rw [List.length_append, hlen, hlen']
        refine .inr (.inr ⟨address, movw ++ movt, rfl, rfl, hlength, hloads here, ?_⟩)
        simp only [bind, Except.bind, hmovw, hmovt, Except.mapError, EmitOutput.push, pure,
          Except.pure, List.append_assoc, List.append_nil]

/-- **A pair loads what it stands for** exactly where both decisions are right. -/
theorem materialises_iff (hdecodes : halves.Decodes loads) (r : BitVec 4) (target : Target)
    (ctx : EmitContext) (here : U64) (out : EmitOutput) :
    (∀ out', halves.emit ⟨.r, r.setWidth 8⟩ target ctx out = .ok out' →
        PairFor halves loads ⟨.r, r.setWidth 8⟩ target here ctx out out') ↔
      FoldsWhole target ctx := by
  rcases emit_cases hdecodes r target ctx here out with
    ⟨e, herror, hwhy⟩ | ⟨id, piece, hrelocation, hlen, hloads, hemit⟩ |
      ⟨address, piece, hrelocation, hresolve, hlen, hloads, hemit⟩
  · rw [herror]
    refine iff_of_true (fun _ h => by cases h) ?_
    obtain ⟨e', hrelocation⟩ | ⟨hrelocation, hresolve⟩ := hwhy
    · exact foldsWhole_of_error hrelocation
    · refine ⟨fun id c htarget hcontainer hmisses => ?_, fun _ address haddress => ?_⟩
      · have hneither := relocationOfTarget_none hrelocation id c htarget hcontainer
        rw [macroSymbolNeedsRelocation_of_misses hmisses] at hneither
        cases hneither
      · rw [hresolve] at haddress
        cases haddress
  · obtain ⟨c, rfl, hcontainer, hneeds⟩ := relocationOfTarget_some hrelocation
    rw [hemit]
    simp only [Except.ok.injEq, forall_eq']
    have hasked : symbolNeedsRelocation c id ctx.currentSection = some true ↔
        ¬MacroTestMisses c id ctx.currentSection := by
      rw [← decisions_eq_iff, hneeds]
    constructor
    · rintro ⟨piece', lo, hi, -, -, -, hrelocations, -⟩
      rw [askedRelocations_symbol hcontainer] at hrelocations
      have htrue : symbolNeedsRelocation c id ctx.currentSection = some true := by
        by_contra hnot
        rw [if_neg hnot] at hrelocations
        exact absurd (List.append_cancel_left hrelocations) (List.cons_ne_nil _ _)
      refine ⟨fun id' c' htarget hcontainer' => ?_, fun hnone => ?_⟩
      · cases htarget
        rw [hcontainer] at hcontainer'
        cases hcontainer'
        exact hasked.mp htrue
      · have hfalse := hnone id c rfl hcontainer
        rw [htrue] at hfalse
        cases hfalse
    · intro hfolds
      have htrue := hasked.mpr (hfolds.sameTest id c rfl hcontainer)
      refine ⟨piece, 0, 0, rfl, hlen, hloads, ?_, fun hnil => ?_⟩
      · rw [askedRelocations_symbol hcontainer, if_pos htrue]
      · rw [askedRelocations_symbol hcontainer, if_pos htrue] at hnil
        cases hnil
  · have hneeds := relocationOfTarget_none hrelocation
    have hsame : ∀ id c, target = .symbol id → ctx.container = some c →
        ¬MacroTestMisses c id ctx.currentSection := by
      intro id c htarget hcontainer hmisses
      have hneither := hneeds id c htarget hcontainer
      rw [macroSymbolNeedsRelocation_of_misses hmisses] at hneither
      cases hneither
    have hfalse : ∀ id c, target = .symbol id → ctx.container = some c →
        symbolNeedsRelocation c id ctx.currentSection = some false := by
      intro id c htarget hcontainer
      rw [decisions_eq_iff.mpr (hsame id c htarget hcontainer)]
      exact hneeds id c htarget hcontainer
    have hnil := @askedRelocations_nil halves _ _ hfalse out.bytes.length
    obtain ⟨-, -, hwhole⟩ := halves_toNat address
    rw [hemit]
    simp only [Except.ok.injEq, forall_eq']
    constructor
    · rintro ⟨piece', lo, hi, hpiece, -, hloads', -, hresolved⟩
      obtain rfl := List.append_cancel_left hpiece
      obtain ⟨address', hresolve', hsum⟩ := hresolved hnil
      rw [hresolve] at hresolve'
      obtain rfl := Option.some.inj hresolve'
      obtain ⟨rfl, rfl⟩ := hdecodes.unique _ _ _ _ _ _ _ hloads' hloads
      refine ⟨hsame, fun _ address' haddress => ?_⟩
      rw [hresolve] at haddress
      obtain rfl := Option.some.inj haddress
      exact hwhole.mp hsum
    · intro hfolds
      refine ⟨piece, _, _, rfl, hlen, hloads, by rw [hnil, List.append_nil], fun _ => ?_⟩
      exact ⟨address, hresolve, hwhole.mpr (hfolds.low hfalse address hresolve)⟩

end Emit

/-! ## §3. The halves of Thumb. -/

namespace Thumb

def movwRow : ThumbOpcode := ⟨.movw, 0xf2400000, 0xfbf08000, .word, "movw%c\t%8-11r, %J"⟩
def movtRow : ThumbOpcode := ⟨.movt, 0xf2c00000, 0xfbf08000, .word, "movt%c\t%8-11r, %J"⟩

theorem findRow_half :
    findRow 0xf2400000 0xfbf08000 = some movwRow ∧ findRow 0xf2c00000 0xfbf08000 = some movtRow := by
  decide +kernel

/-- The first wide row that the fixed bits of a half leave possible. -/
theorem thumbOpcodeTable_half :
    (thumbOpcodeTable.find? fun row => row.width == .word &&
        (row.opcode ^^^ (0xf2400000 : Word)) &&& row.mask &&& (0xfbf08000 : Word) == 0)
          = some movwRow ∧
      (thumbOpcodeTable.find? fun row => row.width == .word &&
        (row.opcode ^^^ (0xf2c00000 : Word)) &&& row.mask &&& (0xfbf08000 : Word) == 0)
          = some movtRow := by
  decide +kernel

/-- The word of a half. -/
def halfWord (opcode : Word) (r : BitVec 4) (v : BitVec 16) : Word :=
  placeField (placeImm12 (placeField opcode 8 11 ((r.setWidth 8).setWidth 32)) (v.setWidth 32)) 16 19
    (((v.setWidth 32 : Word) >>> 12) &&& 0xf)

theorem getElem_halfWord (opcode : Word) (r : BitVec 4) (v : BitVec 16) {i : Nat} (hi : i < 32) :
    (halfWord opcode r v)[i]
      = if i < 8 then v.getLsbD i
        else if i < 12 then r.getLsbD (i - 8)
        else if i < 15 then v.getLsbD (i - 4)
        else if 16 ≤ i ∧ i < 20 then v.getLsbD (i - 4)
        else if i = 26 then v.getLsbD 11
        else opcode.getLsbD i := by
  rw [← BitVec.getLsbD_eq_getElem hi]
  unfold halfWord placeImm12
  simp only [placeField_eq_splice, getLsbD_splice]
  interval_cases i <;> simp [rangeMask, fieldMask]

/-- The bits that a row asks for are those of its opcode. -/
theorem halfWord_fixed (opcode : Word) (r : BitVec 4) (v : BitVec 16) :
    halfWord opcode r v &&& (0xfbf08000 : Word) = opcode &&& (0xfbf08000 : Word) := by
  apply BitVec.eq_of_getLsbD_eq
  intro i hi
  rw [BitVec.getLsbD_and, BitVec.getLsbD_eq_getElem hi, getElem_halfWord opcode r v hi]
  interval_cases i <;> simp

theorem ofInt_half (v : BitVec 16) : BitVec.ofInt 32 (v.toNat : Int) = (v.setWidth 32 : Word) := by
  rw [BitVec.ofInt_natCast, ← BitVec.toNat_inj, BitVec.toNat_ofNat, BitVec.toNat_setWidth]

/-- A row packs a half as this word. -/
theorem encodeWithRow_half {row : ThumbOpcode} (hwidth : row.width = .word)
    (hformat : escapes row.format
      = [.code [] 'c', .code ['8', '-', '1', '1'] 'r', .code [] 'J']) (r : BitVec 4)
    (v : BitVec 16) :
    encodeWithRow row [.register ⟨.r, r.setWidth 8⟩, .immediate (v.toNat : Int)] 0
      = .ok (halfWord row.opcode r v, .word) := by
  let operands : List DecodedOperand := [.register ⟨.r, r.setWidth 8⟩, .immediate (v.toNat : Int)]
  have hregister : encodeEscape operands 0 .word row.opcode 0 (.code ['8', '-', '1', '1'] 'r')
      = .ok (placeField row.opcode 8 11 ((r.setWidth 8).setWidth 32), 1) := by
    show (packRegister row.opcode 8 11 ⟨.r, r.setWidth 8⟩ 0 >>= fun word => pure (word, 1)) = _
    rw [packRegister, if_neg (by
      have hr := r.isLt
      simp only [BitVec.toNat_setWidth]
      omega)]
    rfl
  have himmediate : ∀ word, encodeEscape operands 0 .word word 1 (.code [] 'J')
      = .ok (placeField (placeImm12 word (v.setWidth 32)) 16 19
          (((v.setWidth 32 : Word) >>> 12) &&& 0xf), 2) := by
    intro word
    show ((if (v.toNat : Int) < 0 ∨ 0xffff < (v.toNat : Int)
        then Except.error (EncodeError.immediateOutOfRange 1 _ 16)
        else .ok (placeField (placeImm12 word (BitVec.ofInt 32 v.toNat)) 16 19
          ((BitVec.ofInt 32 v.toNat >>> 12) &&& (0xf : Word)))) >>= fun word => pure (word, 2)) = _
    have hv := v.isLt
    rw [if_neg (by omega), ofInt_half]
    rfl
  have hwalk : encodeWalk operands 0 .word row.opcode 0
      [.code [] 'c', .code ['8', '-', '1', '1'] 'r', .code [] 'J']
        = .ok (halfWord row.opcode r v, 2) := by
    rw [encodeWalk, show encodeEscape operands 0 .word row.opcode 0 (.code [] 'c')
      = .ok (row.opcode, 0) from rfl]
    show encodeWalk operands 0 .word row.opcode 0
      [.code ['8', '-', '1', '1'] 'r', .code [] 'J'] = _
    rw [encodeWalk, hregister]
    show encodeWalk operands 0 .word (placeField row.opcode 8 11 ((r.setWidth 8).setWidth 32)) 1
      [.code [] 'J'] = _
    rw [encodeWalk, himmediate]
    rfl
  rw [encodeWithRow, encodeWithFormat, hwidth, hformat, hwalk]
  rfl

/-- The decoder reads the register and the half. -/
theorem rowOperands_half {row : ThumbOpcode} (hwidth : row.width = .word)
    (hformat : escapes row.format
      = [.code [] 'c', .code ['8', '-', '1', '1'] 'r', .code [] 'J']) (hmask : row.mask = 0xfbf08000)
    (r : BitVec 4) (v : BitVec 16) (address : U64) :
    rowOperands row (halfWord row.opcode r v) address
      = [.register ⟨.r, r.setWidth 8⟩, .immediate (v.toNat : Int),
          .opaqueBits (halfWord row.opcode r v &&& tailMask row) (tailMask row)] := by
  have hbit := @getElem_halfWord row.opcode r v
  have htail : tailOperand row (halfWord row.opcode r v)
      = [.opaqueBits (halfWord row.opcode r v &&& tailMask row) (tailMask row)] := by
    rw [tailOperand, if_neg]
    unfold tailMask
    rw [hwidth, hmask]
    decide
  rw [rowOperands, htail, decodeOperandsFromFormat, hformat, hwidth]
  generalize halfWord row.opcode r v = word at hbit
  have hregister : (extractField word 8 11).setWidth 8 = r.setWidth 8 := by
    apply BitVec.eq_of_getLsbD_eq
    intro i hi
    unfold extractField field
    interval_cases i <;> simp [hbit]
  have himmediate : (((word >>> 16) &&& (0xf : Word)) <<< 12 ||| ((word >>> 26) &&& (1 : Word)) <<< 11
      ||| ((word >>> 12) &&& (7 : Word)) <<< 8 ||| (word &&& (0xff : Word))) = v.setWidth 32 := by
    apply BitVec.eq_of_getLsbD_eq
    intro i hi
    interval_cases i <;> simp [hbit]
  show [DecodedOperand.register ⟨.r, (extractField word 8 11).setWidth 8⟩,
    immediateOf (((word >>> 16) &&& (0xf : Word)) <<< 12 ||| ((word >>> 26) &&& (1 : Word)) <<< 11
      ||| ((word >>> 12) &&& (7 : Word)) <<< 8 ||| (word &&& (0xff : Word)))] ++ _ = _
  rw [hregister, himmediate, immediateOf, BitVec.toNat_setWidth, Nat.mod_eq_of_lt (by omega)]
  rfl

/-- The bytes decode to `movw` and `movt` of a register. -/
def Loads (here : U64) (bytes : List Byte) (rd : Register) (lo hi : Nat) : Prop :=
  ∃ movw movt, disassembleBytes here bytes = .ok [movw, movt] ∧
    movw.mnemonic = .movw ∧ movw.operands.take 2 = [.register rd, .immediate (lo : Int)] ∧
    movt.mnemonic = .movt ∧ movt.operands.take 2 = [.register rd, .immediate (hi : Int)]

theorem loads_unique {here : U64} {bytes : List Byte} {rd : Register} {lo hi lo' hi' : Nat}
    (h : Loads here bytes rd lo hi) (h' : Loads here bytes rd lo' hi') : lo = lo' ∧ hi = hi' := by
  obtain ⟨movw, movt, hd, -, hlo, -, hhi⟩ := h
  obtain ⟨movw', movt', hd', -, hlo', -, hhi'⟩ := h'
  rw [hd] at hd'
  cases hd'
  rw [hlo] at hlo'
  rw [hhi] at hhi'
  constructor
  · simpa using hlo'
  · simpa using hhi'

/-- What the decoder makes of the word of a half. -/
theorem decodeOne_half {row : ThumbOpcode} (hwidth : row.width = .word)
    (hformat : escapes row.format
      = [.code [] 'c', .code ['8', '-', '1', '1'] 'r', .code [] 'J']) (hmask : row.mask = 0xfbf08000)
    (hopcode : row.opcode &&& (0xfbf08000 : Word) = row.opcode)
    (hrow : (thumbOpcodeTable.find? fun other => other.width == .word &&
      (other.opcode ^^^ row.opcode) &&& other.mask &&& (0xfbf08000 : Word) == 0) = some row)
    (r : BitVec 4) (v : BitVec 16) (address : U64) :
    ∃ d, decodeOne address (halfWord row.opcode r v) .word = .ok d ∧ d.mnemonic = row.mnemonic ∧
      d.operands.take 2 = [.register ⟨.r, r.setWidth 8⟩, .immediate (v.toNat : Int)] := by
  have hword : halfWord row.opcode r v &&& (0xfbf08000 : Word) = row.opcode := by
    rw [halfWord_fixed, hopcode]
  have hmatch : matchGenerated (halfWord row.opcode r v) .word = some row :=
    matchGenerated_known hword hrow hwidth (by rw [hmask, hword])
  refine ⟨⟨address, halfWord row.opcode r v, .word, row.mnemonic,
    rowOperands row (halfWord row.opcode r v) address, some row, none⟩, ?_, rfl, ?_⟩
  · rw [decodeOne, hmatch]
  · rw [rowOperands_half hwidth hformat hmask]
    rfl

/-- The word of a half is one of the wide ones. -/
theorem class_halfWord {opcode : Word} (hopcode : opcode &&& (0xf8000000 : Word) = 0xf0000000)
    (r : BitVec 4) (v : BitVec 16) :
    halfWord opcode r v &&& (0xf8000000 : Word) = 0xf0000000 := by
  rw [← hopcode]
  apply BitVec.eq_of_getLsbD_eq
  intro i hi
  rw [BitVec.getLsbD_and, BitVec.getLsbD_eq_getElem hi, getElem_halfWord opcode r v hi]
  interval_cases i <;> simp

theorem thumb_decodes : movwMovt.Decodes Loads where
  encodes := by
    intro r lo hi
    obtain ⟨hmovwRow, hmovtRow⟩ := findRow_half
    obtain ⟨hmovwFirst, hmovtFirst⟩ := thumbOpcodeTable_half
    refine ⟨wordBytes (halfWord 0xf2400000 r lo), wordBytes (halfWord 0xf2c00000 r hi), ?_, ?_, rfl,
      rfl, fun here => ?_⟩
    · show encodeHalf 0xf2400000 0xfbf08000 _ _ = _
      rw [encodeHalf, hmovwRow]
      simp only [@encodeWithRow_half movwRow rfl rfl r lo]
      rfl
    · show encodeHalf 0xf2c00000 0xfbf08000 _ _ = _
      rw [encodeHalf, hmovtRow]
      simp only [@encodeWithRow_half movtRow rfl rfl r hi]
      rfl
    · obtain ⟨movw, hmovw, hmnemonic, hoperands⟩ :=
        @decodeOne_half movwRow rfl rfl rfl rfl hmovwFirst r lo here
      obtain ⟨movt, hmovt, hmnemonic', hoperands'⟩ :=
        @decodeOne_half movtRow rfl rfl rfl rfl hmovtFirst r hi (here + 4)
      exact ⟨movw, movt, disassembleBytes_pair (class_halfWord rfl r lo) (class_halfWord rfl r hi)
        hmovw hmovt, hmnemonic, hoperands, hmnemonic', hoperands'⟩
  unique := fun _ _ _ _ _ _ _ => loads_unique

end Thumb

/-! ## §4. The halves of ARM mode. -/

namespace Arm

def movwRow : ArmOpcode := ⟨.movw, 0x3000000, 0xff00000, "movw%c\t%12-15R, %V"⟩
def movtRow : ArmOpcode := ⟨.movt, 0x3400000, 0xff00000, "movt%c\t%12-15R, %V"⟩

theorem findRow_half :
    findRow 0x03000000 0x0ff00000 = some movwRow ∧ findRow 0x03400000 0x0ff00000 = some movtRow := by
  decide +kernel

/-- The first row that the fixed bits of a half, always executed, leave possible. -/
theorem armOpcodeTable_half :
    (armOpcodeTable.find? fun row =>
        (row.opcode ^^^ (0xe3000000 : Word)) &&& row.mask &&& (0xfff00000 : Word) == 0)
          = some movwRow ∧
      (armOpcodeTable.find? fun row =>
        (row.opcode ^^^ (0xe3400000 : Word)) &&& row.mask &&& (0xfff00000 : Word) == 0)
          = some movtRow ∧
      ∀ row ∈ neonOpcodeTable, row.isa ≠ .thumb →
        (row.opcode ^^^ (0xe3000000 : Word)) &&& row.mask &&& (0xffb00000 : Word) ≠ 0 := by
  decide +kernel

/-- A half, always executed, matches no coprocessor row. -/
theorem matchNeonArm_half {word : Word} (hword : word &&& (0xffb00000 : Word) = 0xe3000000) :
    matchNeonArm word = none := by
  obtain ⟨-, -, hneon⟩ := armOpcodeTable_half
  refine List.find?_eq_none.mpr fun row hmem hmatch => ?_
  rw [Bool.and_eq_true, beq_iff_eq, bne_iff_ne] at hmatch
  exact hneon row hmem hmatch.1 (agree_of_known hword hmatch.2)

/-- The first row that known bits leave possible. -/
theorem matchGenerated_known {word known value : Word} {row : ArmOpcode}
    (hword : word &&& known = value)
    (hrow : (armOpcodeTable.find? fun row =>
      (row.opcode ^^^ value) &&& row.mask &&& known == 0) = some row)
    (hmatch : word &&& row.mask = row.opcode) : matchGenerated word = some row := by
  refine find?_of_possible (fun other hother => ?_) hrow (by simp [hmatch])
  rw [beq_iff_eq] at hother
  rw [agree_of_known hword hother]
  rfl

/-- The word of a half, always executed. -/
def halfWord (opcode : Word) (r : BitVec 4) (v : BitVec 16) : Word :=
  placeField (placeField (placeField (placeField opcode 28 31 14) 12 15
    ((r.setWidth 8).setWidth 32)) 0 11 ((v.setWidth 32 : Word) &&& 0xfff)) 16 19
      (((v.setWidth 32 : Word) >>> 12) &&& 0xf)

theorem getElem_halfWord (opcode : Word) (r : BitVec 4) (v : BitVec 16) {i : Nat} (hi : i < 32) :
    (halfWord opcode r v)[i]
      = if i < 12 then v.getLsbD i
        else if i < 16 then r.getLsbD (i - 12)
        else if i < 20 then v.getLsbD (i - 4)
        else if 28 ≤ i then (14 : Word).getLsbD (i - 28)
        else opcode.getLsbD i := by
  rw [← BitVec.getLsbD_eq_getElem hi]
  unfold halfWord
  simp only [placeField_eq_splice, getLsbD_splice]
  interval_cases i <;> simp [rangeMask, fieldMask]

/-- The bits that the condition and a row ask for. -/
theorem halfWord_fixed (opcode : Word) (r : BitVec 4) (v : BitVec 16) :
    halfWord opcode r v &&& (0xfff00000 : Word) = 0xe0000000 ||| (opcode &&& 0x0ff00000) := by
  apply BitVec.eq_of_getLsbD_eq
  intro i hi
  rw [BitVec.getLsbD_and, BitVec.getLsbD_eq_getElem hi, getElem_halfWord opcode r v hi]
  interval_cases i <;> simp

/-- A row packs a half as this word. -/
theorem encodeWithRow_half {row : ArmOpcode}
    (hformat : escapes row.format
      = [.code [] 'c', .code ['1', '2', '-', '1', '5'] 'R', .code [] 'V']) (r : BitVec 4)
    (v : BitVec 16) :
    encodeWithRow row [.condition 14, .register ⟨.r, r.setWidth 8⟩, .immediate (v.toNat : Int)] 0
      = .ok (halfWord row.opcode r v) := by
  let operands : List DecodedOperand :=
    [.condition 14, .register ⟨.r, r.setWidth 8⟩, .immediate (v.toNat : Int)]
  have hregister : ∀ word, encodeEscape operands 0 word 1 (.code ['1', '2', '-', '1', '5'] 'R')
      = .ok (placeField word 12 15 ((r.setWidth 8).setWidth 32), 2) := by
    intro word
    show (packRegister word 12 15 (r.setWidth 8) 1 >>= fun word => pure (word, 2)) = _
    have hr := r.isLt
    have hfits : ¬ 2 ^ (15 - 12 + 1) - 1 < (r.setWidth 8).toNat := by
      rw [BitVec.toNat_setWidth]
      omega
    rw [packRegister, if_neg hfits]
    rfl
  have himmediate : ∀ word, encodeEscape operands 0 word 2 (.code [] 'V')
      = .ok (placeField (placeField word 0 11 ((v.setWidth 32 : Word) &&& 0xfff)) 16 19
          (((v.setWidth 32 : Word) >>> 12) &&& 0xf), 3) := by
    intro word
    show ((if (v.toNat : Int) < 0 ∨ 0xffff < (v.toNat : Int)
        then Except.error (EncodeError.immediateOutOfRange 2 _ 16)
        else .ok (placeField (placeField word 0 11 (BitVec.ofInt 32 v.toNat &&& (0xfff : Word))) 16 19
          ((BitVec.ofInt 32 v.toNat >>> 12) &&& (0xf : Word)))) >>= fun word => pure (word, 3)) = _
    have hv := v.isLt
    rw [if_neg (by omega), Thumb.ofInt_half]
    rfl
  have hwalk : encodeWalk operands 0 row.opcode 0
      [.code [] 'c', .code ['1', '2', '-', '1', '5'] 'R', .code [] 'V']
        = .ok (halfWord row.opcode r v, 3) := by
    rw [encodeWalk, show encodeEscape operands 0 row.opcode 0 (.code [] 'c')
      = .ok (placeField row.opcode 28 31 14, 1) from rfl]
    show encodeWalk operands 0 (placeField row.opcode 28 31 14) 1
      [.code ['1', '2', '-', '1', '5'] 'R', .code [] 'V'] = _
    rw [encodeWalk, hregister]
    show encodeWalk operands 0 (placeField (placeField row.opcode 28 31 14) 12 15
      ((r.setWidth 8).setWidth 32)) 2 [.code [] 'V'] = _
    rw [encodeWalk, himmediate]
    rfl
  rw [encodeWithRow, encodeWithFormat, hformat, hwalk]
  rfl

/-- The decoder reads the condition, the register and the half. -/
theorem operands_half {format : String}
    (hformat : escapes format
      = [.code [] 'c', .code ['1', '2', '-', '1', '5'] 'R', .code [] 'V']) (opcode : Word)
    (r : BitVec 4) (v : BitVec 16) (address : U64) :
    decodeOperandsFromFormat format (halfWord opcode r v) address
      = [.condition 14, .register ⟨.r, r.setWidth 8⟩, .immediate (v.toNat : Int)] := by
  have hbit := @getElem_halfWord opcode r v
  rw [decodeOperandsFromFormat, hformat]
  generalize halfWord opcode r v = word at hbit
  have hcondition : (((word >>> 28) &&& (0xf : Word)).setWidth 8 : Byte) = 14 := by
    apply BitVec.eq_of_getLsbD_eq
    intro i hi
    interval_cases i <;> simp [hbit]
  have hregister : (extractField word 12 15).setWidth 8 = r.setWidth 8 := by
    apply BitVec.eq_of_getLsbD_eq
    intro i hi
    unfold extractField field
    interval_cases i <;> simp [hbit]
  have himmediate : (((word >>> 16) &&& (0xf : Word)) <<< 12 ||| (word &&& (0xfff : Word)))
      = v.setWidth 32 := by
    apply BitVec.eq_of_getLsbD_eq
    intro i hi
    interval_cases i <;> simp [hbit]
  show [DecodedOperand.condition (((word >>> 28) &&& (0xf : Word)).setWidth 8),
    .register ⟨.r, (extractField word 12 15).setWidth 8⟩,
    immediateOf (((word >>> 16) &&& (0xf : Word)) <<< 12 ||| (word &&& (0xfff : Word)))] = _
  rw [hcondition, hregister, himmediate, immediateOf, BitVec.toNat_setWidth,
    Nat.mod_eq_of_lt (by omega)]

/-- The bytes decode to `movw` and `movt` of a register, always executed. -/
def Loads (here : U64) (bytes : List Byte) (rd : Register) (lo hi : Nat) : Prop :=
  ∃ movw movt, disassembleBytes here bytes = .ok [movw, movt] ∧
    movw.mnemonic = .movw ∧
      movw.operands = [.condition 14, .register rd, .immediate (lo : Int)] ∧
    movt.mnemonic = .movt ∧
      movt.operands = [.condition 14, .register rd, .immediate (hi : Int)]

theorem loads_unique {here : U64} {bytes : List Byte} {rd : Register} {lo hi lo' hi' : Nat}
    (h : Loads here bytes rd lo hi) (h' : Loads here bytes rd lo' hi') : lo = lo' ∧ hi = hi' := by
  obtain ⟨movw, movt, hd, -, hlo, -, hhi⟩ := h
  obtain ⟨movw', movt', hd', -, hlo', -, hhi'⟩ := h'
  rw [hd] at hd'
  cases hd'
  rw [hlo] at hlo'
  rw [hhi] at hhi'
  constructor
  · simpa using hlo'
  · simpa using hhi'

/-- What the decoder makes of the word of a half. -/
theorem decodeOne_half {row : ArmOpcode} (hmask : row.mask = 0x0ff00000)
    (hformat : escapes row.format
      = [.code [] 'c', .code ['1', '2', '-', '1', '5'] 'R', .code [] 'V'])
    (hopcode : row.opcode &&& (0x0fb00000 : Word) = 0x03000000)
    (hfixed : row.opcode &&& (0x0ff00000 : Word) = row.opcode)
    (hrow : (armOpcodeTable.find? fun other =>
      (other.opcode ^^^ (0xe0000000 ||| row.opcode)) &&& other.mask &&& (0xfff00000 : Word) == 0)
        = some row)
    (r : BitVec 4) (v : BitVec 16) (address : U64) :
    ∃ d, decodeOne address (halfWord row.opcode r v) = .ok d ∧ d.mnemonic = row.mnemonic ∧
      d.operands = [.condition 14, .register ⟨.r, r.setWidth 8⟩, .immediate (v.toNat : Int)] := by
  have hword : halfWord row.opcode r v &&& (0xfff00000 : Word) = 0xe0000000 ||| row.opcode := by
    rw [halfWord_fixed, hfixed]
  have hneon : matchNeonArm (halfWord row.opcode r v) = none := by
    apply matchNeonArm_half
    rw [and_of_known hword (by decide : (0xffb00000 : Word) &&& 0xfff00000 = 0xffb00000)]
    have hsplit : (0xe0000000 ||| row.opcode) &&& (0xffb00000 : Word)
        = 0xe0000000 ||| ((row.opcode &&& 0x0ff00000) &&& 0xffb00000) := by
      rw [hfixed]
      ext i hi
      interval_cases i <;> simp
    rw [hsplit, BitVec.and_assoc,
      (by decide : (0x0ff00000 : Word) &&& 0xffb00000 = 0x0fb00000), hopcode]
    rfl
  have hmatch : matchGenerated (halfWord row.opcode r v) = some row := by
    refine matchGenerated_known hword hrow ?_
    rw [hmask, and_of_known hword (by decide : (0x0ff00000 : Word) &&& 0xfff00000 = 0x0ff00000)]
    conv_rhs => rw [← hfixed]
    ext i hi
    interval_cases i <;> simp
  refine ⟨⟨address, halfWord row.opcode r v, row.mnemonic,
    decodeOperandsFromFormat row.format (halfWord row.opcode r v) address, some row, none⟩,
    ?_, rfl, ?_⟩
  · rw [decodeOne, hneon, hmatch]
  · exact operands_half hformat row.opcode r v address

theorem arm_decodes : movwMovt.Decodes Loads where
  encodes := by
    intro r lo hi
    obtain ⟨hmovwRow, hmovtRow⟩ := findRow_half
    obtain ⟨hmovwFirst, hmovtFirst, -⟩ := armOpcodeTable_half
    refine ⟨toLeBytes (halfWord 0x03000000 r lo), toLeBytes (halfWord 0x03400000 r hi), ?_, ?_, rfl,
      rfl, fun here => ?_⟩
    · show encodeHalf 0x03000000 0x0ff00000 _ _ = _
      rw [encodeHalf, hmovwRow]
      simp only [@encodeWithRow_half movwRow rfl r lo]
      rfl
    · show encodeHalf 0x03400000 0x0ff00000 _ _ = _
      rw [encodeHalf, hmovtRow]
      simp only [@encodeWithRow_half movtRow rfl r hi]
      rfl
    · obtain ⟨movw, hmovw, hmnemonic, hoperands⟩ :=
        @decodeOne_half movwRow rfl rfl rfl rfl hmovwFirst r lo here
      obtain ⟨movt, hmovt, hmnemonic', hoperands'⟩ :=
        @decodeOne_half movtRow rfl rfl rfl rfl hmovtFirst r hi (here + 4)
      exact ⟨movw, movt, disassembleBytes_pair hmovw hmovt, hmnemonic, hoperands, hmnemonic',
        hoperands'⟩
  unique := fun _ _ _ _ _ _ _ => loads_unique

end Arm

/-! ## §5. Both modes. -/

/-- What the expansion of a macro must be, in Thumb and in ARM mode, whenever
it succeeds. -/
def Materialises (r : BitVec 4) (target : Target) (here : U64) (ctx : EmitContext)
    (out : EmitOutput) : Prop :=
  (∀ (m : MacroOp ThumbMnemonic Register DecodedOperand Thumb.MacroKind) (out' : EmitOutput),
    m.register = ⟨.r, r.setWidth 8⟩ → m.target = target →
      Thumb.emitMacro m here ctx out = .ok out' →
        PairFor Thumb.movwMovt Thumb.Loads ⟨.r, r.setWidth 8⟩ target here ctx out out') ∧
    ∀ (m : MacroOp ArmMnemonic Register DecodedOperand Arm.MacroKind) (out' : EmitOutput),
      m.register = ⟨.r, r.setWidth 8⟩ → m.target = target →
        Arm.emitMacro m here ctx out = .ok out' →
          PairFor Arm.movwMovt Arm.Loads ⟨.r, r.setWidth 8⟩ target here ctx out out'

/-- **A pair of halves loads its target** exactly when the emitter's test does
not miss the symbol and an address to be folded fits 32 bits. -/
theorem movwMovt_iff (r : BitVec 4) (target : Target) (here : U64) (ctx : EmitContext)
    (out : EmitOutput) : Materialises r target here ctx out ↔ FoldsWhole target ctx := by
  have hthumb := materialises_iff Thumb.thumb_decodes r target ctx here out
  have harm := materialises_iff Arm.arm_decodes r target ctx here out
  constructor
  · intro h
    refine hthumb.mp fun out' hemit => ?_
    exact h.1 ⟨.movwMovt, ⟨.r, r.setWidth 8⟩, target, [], []⟩ out' rfl rfl hemit
  · intro hfolds
    constructor
    · intro m out' hregister htarget hemit
      refine hthumb.mpr hfolds out' ?_
      rw [← hregister, ← htarget]
      exact hemit
    · intro m out' hregister htarget hemit
      refine harm.mpr hfolds out' ?_
      rw [← hregister, ← htarget]
      exact hemit

/-- An absolute address of 33 bits is cut to its low half. -/
theorem wideAddress_truncated : ¬ Materialises 0 (.absolute 0x100000000) 0 ⟨[], none, none⟩ ⟨[], []⟩ := by
  rintro ⟨hthumb, -⟩
  have hfolds := (materialises_iff Thumb.thumb_decodes 0 (.absolute 0x100000000) ⟨[], none, none⟩ 0
    ⟨[], []⟩).mp fun out' hemit => hthumb ⟨.movwMovt, ⟨.r, 0⟩, .absolute 0x100000000, [], []⟩ out'
      rfl rfl hemit
  have hlow : (0x100000000 : U64).toNat < 2 ^ 32 :=
    hfolds.low (fun id c htarget => by cases htarget) _ rfl
  exact absurd hlow (by decide)

end Armv8Encode.Armv7

/-
  Armv8Encode.Isa.Aarch64.MacroSplit — a fused macro against its two halves.

  A macro that is split is emitted as its original instructions, one after the
  other.  The halves never have more than one relocation, so a macro emitted
  as relocations loses that of its companion.  Without relocations the fused
  form is an `adrp` to some page and some bytes after it; the halves give the
  same exactly when the `adrp` goes to that page by itself, and the companion
  by itself is those bytes (`SplitsAlike`, `unfuseMacroAt_alike_iff`).

  The page is read off the word: `adrp` is the only instruction with a page
  operand, and encoding and decoding it are inverse to each other
  (`encode_decodedAdrp`, `adrp_word_unique`).
-/
import Armv8Encode.Isa.Aarch64.MacroTarget
import Armv8Encode.Rewrite.Unfuse
import Armv8Encode.Isa.Aarch64.RetargetSpec
import Armv8Encode.Isa.Aarch64.UneditedRewrite

namespace Armv8Encode

open Lib Aarch64

/-! ## §1. A decoded `adrp`. -/

/-- A page operand comes from the row of `adrp`. -/
theorem row_of_page {w : Word} {address page : U64} {row : Aarch64Opcode} {r : Register}
    (hmatch : matchOpcode w = some row)
    (h : decodeOperands w address row 0 row.operands = .ok [.register r, .pageTarget page]) :
    row = adrpRow := by
  obtain ⟨kind, hkind, index, hslot⟩ := mem_of_decodeOperands h (.tail _ (.head _))
  rcases targetKind_of_decode hslot rfl with ⟨-, target, htarget⟩ | rfl
  · cases htarget
  · have hmem := mem_targetRows hmatch hkind (.inr rfl)
    have hfound : targetRows.all (fun row =>
        !row.operands.contains .addrAdrp || decide (row = adrpRow)) = true := by decide
    have hrow := List.all_eq_true.mp hfound row hmem
    rw [Bool.or_eq_true, Bool.not_eq_true', decide_eq_true_eq] at hrow
    refine hrow.resolve_left fun hnot => ?_
    rw [List.contains_iff_mem.mpr hkind] at hnot
    cases hnot

/-- The displacement of `adrp` fills its field. -/
theorem field_of_imm21 {w w' : Word} (h : imm21 w = imm21 w') :
    w &&& 0x60ffffe0#32 = w' &&& 0x60ffffe0#32 := by
  have hjoin := BitVec.eq_of_toInt_eq h
  have hbit : ∀ (x : Word) (i : Nat), i < 21 →
      (((field x 5 19 <<< 2) ||| field x 29 2).setWidth 21).getLsbD i
        = if i < 2 then x.getLsbD (29 + i) else x.getLsbD (3 + i) := by
    intro x i hi
    rw [BitVec.getLsbD_setWidth, BitVec.getLsbD_or, BitVec.getLsbD_shiftLeft,
      getLsbD_field _ (by omega), getLsbD_field _ (by omega)]
    interval_cases i <;> simp
  have hsame : ∀ i < 21, (if i < 2 then w.getLsbD (29 + i) else w.getLsbD (3 + i))
      = if i < 2 then w'.getLsbD (29 + i) else w'.getLsbD (3 + i) := by
    intro i hi
    rw [← hbit w i hi, ← hbit w' i hi, hjoin]
  apply BitVec.eq_of_getLsbD_eq
  intro i hi
  rw [BitVec.getLsbD_and, BitVec.getLsbD_and]
  by_cases hlow : 29 ≤ i ∧ i < 31
  · have h := hsame (i - 29) (by omega)
    rw [if_pos (by omega), if_pos (by omega), Nat.add_sub_cancel' hlow.1] at h
    rw [h]
  · by_cases hhigh : 5 ≤ i ∧ i < 24
    · have h := hsame (i - 3) (by omega)
      rw [if_neg (by omega), if_neg (by omega), Nat.add_sub_cancel' (by omega)] at h
      rw [h]
    · have hclear : (0x60ffffe0#32).getLsbD i = false := by
        interval_cases i <;> first | rfl | omega
      rw [hclear, Bool.and_false, Bool.and_false]

/-- **An `adrp` is the only word that decodes to it.** -/
theorem adrp_word_unique {w w' : Word} {address page : U64} {r : Register} {d d' : DecodedInstruction}
    (h : decodeInstruction address w = .ok d) (h' : decodeInstruction address w' = .ok d')
    (hd : d.operands = [.register r, .pageTarget page])
    (hd' : d'.operands = [.register r, .pageTarget page]) : w = w' := by
  obtain ⟨row, hmatch, hoperands, -⟩ := decodeInstruction_row h
  obtain ⟨row', hmatch', hoperands', -⟩ := decodeInstruction_row h'
  rw [hd] at hoperands
  rw [hd'] at hoperands'
  obtain rfl := row_of_page hmatch hoperands
  obtain rfl := row_of_page hmatch' hoperands'
  have hshown : ∀ x : Word, decodeOperands x address adrpRow 0 adrpRow.operands
      = .ok [.register (xReg (bitsOf x 0 5)), .pageTarget (adrpTarget address x)] := fun _ => rfl
  rw [hshown] at hoperands hoperands'
  have hsame := Except.ok.inj (hoperands.trans hoperands'.symm)
  simp only [List.cons.injEq, DecodedOperand.register.injEq, DecodedOperand.pageTarget.injEq,
    and_true, xReg, Register.mk.injEq, true_and] at hsame
  obtain ⟨hregister, hpage⟩ := hsame
  have himm : imm21 w = imm21 w' := by
    have hbound : ∀ x : Word, -(2 ^ 20) ≤ imm21 x ∧ imm21 x < 2 ^ 20 := by
      intro x
      exact ⟨BitVec.le_toInt _, BitVec.toInt_lt⟩
    have hshift := congrArg BitVec.toInt ((BitVec.add_right_inj _).mp hpage)
    rw [BitVec.toInt_ofInt_eq_self (by omega) (by have := hbound w; omega) (by have := hbound w; omega),
      BitVec.toInt_ofInt_eq_self (by omega) (by have := hbound w'; omega)
        (by have := hbound w'; omega)] at hshift
    omega
  have hfield := field_of_imm21 himm
  have hlow : w &&& fieldMask 32 0 5 = w' &&& fieldMask 32 0 5 := by
    rw [← placeAt_bitsOf w 0 (by omega), hregister, placeAt_bitsOf w' 0 (by omega)]
  have hfixed : w &&& adrpRow.mask = w' &&& adrpRow.mask := by
    rw [fixedBits_of_match hmatch, fixedBits_of_match hmatch']
  have hsplit : ∀ x : Word, x = (x &&& 0x60ffffe0#32) ||| (x &&& fieldMask 32 0 5)
      ||| (x &&& adrpRow.mask) := by
    intro x
    rw [← BitVec.and_or_distrib_left, ← BitVec.and_or_distrib_left]
    exact BitVec.and_allOnes.symm
  rw [hsplit w, hsplit w', hfield, hlow, hfixed]

theorem page_of_mod {x : U64} (h : x.toNat % 4096 = 0) : x &&& 0xfff#64 = 0#64 := by
  apply BitVec.eq_of_toNat_eq
  rw [BitVec.toNat_and]
  exact (Nat.and_two_pow_sub_one_eq_mod x.toNat 12).trans h

/-- The page an `adrp` shows is in its reach. -/
theorem inReach_adrpTarget (address : U64) (w : Word) :
    InReach .addrAdrp address (adrpTarget address w) := by
  have hlow : -(2 ^ 20) ≤ imm21 w := BitVec.le_toInt _
  have hhigh : imm21 w < 2 ^ 20 := BitVec.toInt_lt
  have hdisplacement : displacement (adrpTarget address w) (address &&& ~~~0xfff#64)
      = imm21 w * 4096 := by
    rw [displacement, adrpTarget, BitVec.add_comm, BitVec.add_sub_cancel]
    exact BitVec.toInt_ofInt_eq_self (by omega) (by omega) (by omega)
  refine ⟨page_of_mod ?_, ?_, ?_⟩
  · have hbase : (address &&& ~~~0xfff#64).toNat % 4096 = 0 := by
      apply page_mod
      rw [BitVec.and_assoc]
      exact BitVec.and_zero
    have hpages : (BitVec.ofInt 64 (imm21 w * 4096)).toNat % 4096 = 0 := by
      rw [BitVec.toNat_ofInt]
      omega
    rw [adrpTarget, BitVec.toNat_add]
    omega
  · rw [hdisplacement]
    omega
  · rw [hdisplacement]
    omega

/-- **A decoded `adrp` encodes to itself.** -/
theorem encode_decodedAdrp {w : Word} {address page : U64} {r : Register} {d : DecodedInstruction}
    (h : decodeInstruction address w = .ok d) (hd : d.operands = [.register r, .pageTarget page]) :
    encodeInstruction ⟨address, .adrp, [.register r, .pageTarget page]⟩ = .ok w := by
  obtain ⟨row, hmatch, hoperands, -⟩ := decodeInstruction_row h
  rw [hd] at hoperands
  obtain rfl := row_of_page hmatch hoperands
  have hown : OwnRow .adrp adrpRow := ownRow_address (by decide)
  have hfixed : w &&& adrpRow.mask = adrpRow.opcode := by rw [fixedBits_of_match hmatch, hown.within]
  have hshown : decodeOperands w address adrpRow 0 adrpRow.operands
      = .ok [.register (xReg (bitsOf w 0 5)), .pageTarget (adrpTarget address w)] := rfl
  cases hshown.symm.trans hoperands
  obtain ⟨bits, hholds⟩ := slotHolds (inReach_adrpTarget address w) (.inl rfl)
  have hkeeps : KeepsWord adrpRow .addrAdrp _ _ _ :=
    keepsWord_address rfl rfl (.inr rfl) rfl rfl hfixed
  obtain ⟨word, hencode, -, hdecode⟩ := retarget_of_keepsWord hkeeps hown hfixed
    (show opcodesForMnemonic .adrp = [] ++ adrpRow :: [] from opcodesForMnemonic_adrp)
    (fun _ hr => nomatch hr) hholds
  obtain rfl := adrp_word_unique hdecode h rfl hd
  exact hencode

/-! ## §2. The halves by themselves. -/

/-- The bytes an instruction without a target is emitted as by itself: copied
while it matches its source word, else encoded. -/
def standaloneBytes (i : AarchInstruction) (here : U64) (ctx : EmitContext) : Option (List Byte) :=
  (verbatimBytes aarch64 i here ctx.blockAddresses ctx.container).or
    (encodeTemplate (originalTemplate i here)).toOption

/-- The `adrp` by itself is emitted without a relocation and goes to a page. -/
structure AdrpGoesTo (ctx : EmitContext) (adrp : AarchInstruction) (pageTarget : Target)
    (here page : U64) : Prop where
  resolved : resolveTarget pageTarget ctx.blockAddresses ctx.container = .ok page
  /-- No undecodable source word is copied in its place. -/
  decodes : ∀ c word, ctx.container = some c → adrp.originalAddress = some here →
    c.textWordAt here = some word → ∃ d, decodeInstruction here word = .ok d
  /-- It needs no relocation, or its source word is copied into a final image. -/
  folded : ∃ reloc, ctx.relocationOf (E := EncodeError) adrp = .ok reloc ∧
    (reloc = none ∨ ctx.isRelocatable = false ∧
      (verbatimBytes aarch64 adrp here ctx.blockAddresses ctx.container).isSome)

section Halves

variable {ctx : EmitContext} {here : U64} {size : U64}

theorem needsRelocationIn_decoded {E : Type} (c : Container) (current : Option SectionId)
    (operands : List DecodedOperand) :
    needsRelocationIn (E := E) c current (operands.map .decoded) = .ok none := by
  induction operands with
  | nil => rfl
  | cons o operands ih => exact ih

theorem lowerOperands_decoded (blockAddresses : List U64) (container : Option Container)
    (operands : List DecodedOperand) :
    lowerOperands (E := EncodeError) aarch64 blockAddresses container (operands.map .decoded)
      = .ok operands := by
  induction operands with
  | nil => rfl
  | cons o operands ih =>
    rw [List.map_cons, lowerOperands, ih]
    rfl

/-- **A companion by itself** is copied or encoded, never relocated. -/
theorem emitInstruction_decoded_iff {i : AarchInstruction} {operands : List DecodedOperand}
    (hoperands : i.operands = operands.map .decoded) {piece : EmitOutput} :
    emitInstruction aarch64 i ⟨here, size, .normal⟩ ctx .empty = .ok piece ↔
      ∃ bytes, standaloneBytes i here ctx = some bytes ∧ piece = ⟨bytes, []⟩ := by
  have hreloc : ctx.relocationOf (E := EncodeError) i = .ok none := by
    unfold EmitContext.relocationOf needsRelocation
    cases ctx.container with
    | none => rfl
    | some c =>
      rw [hoperands]
      exact needsRelocationIn_decoded c ctx.currentSection operands
  have htemplate : i.operands.map decodedFromRewriteOperand = operands := by
    rw [hoperands, List.map_map]
    exact List.map_id operands
  have hencoded : ∀ bytes, emitEncoded aarch64 i ⟨here, size, .normal⟩ ctx = .ok bytes ↔
      (encodeTemplate (originalTemplate i here)).toOption = some bytes := by
    intro bytes
    rw [toOption_eq_some, originalTemplate, htemplate, emitEncoded_eq_ok]
    simp only [true_and, reduceCtorEq, false_and, or_false]
    rw [hoperands, lowerOperands_decoded]
    constructor
    · intro h
      obtain ⟨operands', hlowered, hencode⟩ := h
      cases hlowered
      obtain ⟨word, hword, hbytes⟩ := bind_eq_ok.mp hencode
      cases hbytes
      rw [encodeTemplate, hword]
    · intro h
      obtain ⟨word, hword, rfl⟩ := encodeTemplate_ok h
      exact ⟨operands, rfl, bind_eq_ok.mpr ⟨word, hword, rfl⟩⟩
  rw [standaloneBytes]
  constructor
  · intro h
    cases emitInstruction_iff.mp h with
    | verbatim reloc raw hreloc' hkeeps hcopied houtput =>
      refine ⟨raw, ?_, houtput⟩
      have hsome : verbatimBytes aarch64 i here ctx.blockAddresses ctx.container = some raw := hcopied
      rw [hsome]
      rfl
    | placeholder symbol kind hreloc' hnot houtput =>
      cases hreloc.symm.trans hreloc'
    | encoded bytes hreloc' hnot hbytes houtput =>
      refine ⟨bytes, ?_, houtput⟩
      have hnone : verbatimBytes aarch64 i here ctx.blockAddresses ctx.container = none := hnot
      rw [hnone]
      exact (hencoded bytes).mp hbytes
  · intro h
    obtain ⟨bytes, hbytes, rfl⟩ := h
    cases hcopied : verbatimBytes aarch64 i here ctx.blockAddresses ctx.container with
    | some raw =>
      rw [hcopied] at hbytes
      cases hbytes
      exact emitInstruction_iff.mpr (.verbatim none bytes hreloc (by simp) hcopied rfl)
    | none =>
      rw [hcopied] at hbytes
      exact emitInstruction_iff.mpr (.encoded bytes hreloc hcopied ((hencoded bytes).mpr hbytes) rfl)

/-- The bytes of one word and no relocation. -/
def wordOutput (w : Word) : EmitOutput := ⟨toLeBytes w, []⟩

variable {adrp : AarchInstruction} {r : Register} {pageTarget : Target} {page : U64} {w : Word}
  {d : DecodedInstruction}

theorem lowerOperands_adrp {operands : List DecodedOperand} :
    lowerOperands (E := EncodeError) aarch64 ctx.blockAddresses ctx.container
        [.decoded (.register r), .page pageTarget] = .ok operands ↔
      ∃ page, resolveTarget pageTarget ctx.blockAddresses ctx.container = .ok page ∧
        operands = [.register r, .pageTarget page] := by
  simp only [lowerOperands, lowerOperand]
  cases resolveTarget pageTarget ctx.blockAddresses ctx.container with
  | error e => simp [bind, Except.bind]
  | ok page =>
    simp only [bind, Except.bind, pure, Except.pure, Except.ok.injEq, exists_eq_left']
    exact eq_comm

/-- A placeholder comes with one relocation. -/
theorem emitWithRelocation_one {i : AarchInstruction} {symbol : SymbolId} {kind : PcRelKind}
    {out : EmitOutput} (h : emitWithRelocation aarch64 i here symbol kind .empty = .ok out) :
    ∃ relocation, out.relocations = [relocation] := by
  unfold emitWithRelocation at h
  split at h
  · cases h
  · split at h
    · cases h
    · cases h
      exact ⟨_, rfl⟩

/-- A copied `adrp` stands at its own address; its word shows the page, unless it
does not decode at all. -/
theorem copied_adrp {raw : List Byte}
    (hoperands : adrp.operands = [.decoded (.register r), .page pageTarget])
    (h : verbatimBytes aarch64 adrp here ctx.blockAddresses ctx.container = some raw) :
    ∃ c word, raw = toLeBytes word ∧ ctx.container = some c ∧ adrp.originalAddress = some here ∧
      c.textWordAt here = some word ∧
      ((∃ e, decodeInstruction here word = .error e) ∨
        ∃ d page, decodeInstruction here word = .ok d ∧
          d.operands = [.register r, .pageTarget page] ∧
          resolveTarget pageTarget ctx.blockAddresses ctx.container = .ok page) := by
  obtain ⟨c, original, word, hc, horiginal, hword⟩ := exists_word_of_verbatimBytes h
  rw [hc] at h
  cases hdecode : decodeInstruction original word with
  | error e =>
    rw [verbatimBytes_undecodable horiginal hword hdecode] at h
    split at h
    · cases h
    · next hplace =>
      obtain rfl := not_not.mp hplace
      cases h
      exact ⟨c, word, rfl, hc, horiginal, hword, .inl ⟨e, hdecode⟩⟩
  | ok d =>
    obtain ⟨rfl, -, hsame, hplace⟩ := (verbatimBytes_decodable horiginal hword hdecode).mp h
    rw [hoperands] at hsame
    obtain ⟨page, hshown, hresolved⟩ : ∃ page, d.operands = [.register r, .pageTarget page] ∧
        resolveTarget pageTarget ctx.blockAddresses (some c) = .ok page := by
      generalize d.operands = ds at hsame
      cases hsame with
      | cons hregister htail =>
        cases htail with
        | cons hpage hnil =>
          cases hnil
          cases hregister
          obtain ⟨page, rfl, hresolved⟩ := hpage
          exact ⟨page, rfl, hresolved⟩
    have hpcrel : d.operands.any (fun o => (aarchPcrelKind o).isSome) = true := by
      rw [hshown]
      rfl
    obtain rfl := hplace.resolve_right (by rw [hpcrel]; exact Bool.noConfusion)
    refine ⟨c, word, rfl, hc, horiginal, hword, .inr ⟨d, page, hdecode, hshown, ?_⟩⟩
    rw [hc]
    exact hresolved

/-- **The `adrp` by itself** is emitted as the word of a page exactly when it
goes to that page. -/
theorem emitInstruction_adrp_iff (hmnemonic : adrp.mnemonic = .adrp)
    (hoperands : adrp.operands = [.decoded (.register r), .page pageTarget])
    (hdecode : decodeInstruction here w = .ok d)
    (hd : d.operands = [.register r, .pageTarget page]) :
    emitInstruction aarch64 adrp ⟨here, size, .normal⟩ ctx .empty = .ok (wordOutput w) ↔
      AdrpGoesTo ctx adrp pageTarget here page := by
  constructor
  · intro h
    cases emitInstruction_iff.mp h with
    | verbatim reloc raw hreloc hkeeps hcopied houtput =>
      obtain ⟨c, word, rfl, hc, horiginal, hword, hshown⟩ := copied_adrp hoperands hcopied
      have hsame : word = w := by
        have hbytes := congrArg EmitOutput.bytes houtput
        exact (toLeBytes_injective hbytes).symm
      subst hsame
      obtain ⟨e, herror⟩ | ⟨d', page', hdecode', hd', hresolved⟩ := hshown
      · cases hdecode.symm.trans herror
      · cases hdecode.symm.trans hdecode'
        cases hd.symm.trans hd'
        refine ⟨hresolved, ?_, reloc, hreloc, ?_⟩
        · intro c' word' hc' _ hword'
          cases hc.symm.trans hc'
          cases hword.symm.trans hword'
          exact ⟨d, hdecode⟩
        · cases reloc with
          | none => exact .inl rfl
          | some symbol =>
            refine .inr ⟨by simpa using hkeeps, ?_⟩
            have hsome : verbatimBytes aarch64 adrp here ctx.blockAddresses ctx.container
                = some (toLeBytes word) := hcopied
            rw [hsome]
            rfl
    | placeholder symbol kind hreloc hnot houtput =>
      obtain ⟨relocation, hone⟩ := emitWithRelocation_one houtput
      cases hone
    | encoded bytes hreloc hnot hbytes houtput =>
      have hnone : verbatimBytes aarch64 adrp here ctx.blockAddresses ctx.container = none := hnot
      obtain ⟨-, operands, hlowered, hbytes⟩ | ⟨hwide, -⟩ := emitEncoded_eq_ok.mp hbytes
      · rw [hoperands] at hlowered
        obtain ⟨page', hresolved, rfl⟩ := lowerOperands_adrp.mp hlowered
        obtain ⟨w', hw', hbytes⟩ := bind_eq_ok.mp hbytes
        cases hbytes
        obtain rfl : w = w' := toLeBytes_injective (congrArg EmitOutput.bytes houtput)
        rw [hmnemonic] at hw'
        obtain ⟨-, hdecode'⟩ := decode_encodedAdrp hw'
        cases hdecode.symm.trans hdecode'
        cases hd
        refine ⟨hresolved, ?_, none, hreloc, .inl rfl⟩
        intro c word hc horiginal hword
        cases hsource : decodeInstruction here word with
        | ok d => exact ⟨d, rfl⟩
        | error e =>
          rw [hc, verbatimBytes_undecodable horiginal hword hsource, if_neg (not_not.mpr rfl)] at hnone
          cases hnone
      · cases hwide
  · intro h
    obtain ⟨reloc, hreloc, hfolded⟩ := h.folded
    cases hcopied : verbatimBytes aarch64 adrp here ctx.blockAddresses ctx.container with
    | some raw =>
      obtain ⟨c, word, rfl, hc, horiginal, hword, hshown⟩ := copied_adrp hoperands hcopied
      obtain ⟨d', hdecode'⟩ := h.decodes c word hc horiginal hword
      obtain ⟨e, herror⟩ | ⟨d'', page', hdecode'', hd', hresolved⟩ := hshown
      · cases hdecode'.symm.trans herror
      · cases h.resolved.symm.trans hresolved
        obtain rfl := adrp_word_unique hdecode'' hdecode hd' hd
        refine emitInstruction_iff.mpr (.verbatim reloc (toLeBytes word) hreloc ?_ hcopied rfl)
        obtain rfl | ⟨hfinal, -⟩ := hfolded
        · exact Bool.and_false _
        · rw [hfinal]
          rfl
    | none =>
      rw [hcopied] at hfolded
      obtain rfl := hfolded.resolve_right fun hcopy => Bool.noConfusion hcopy.2
      refine emitInstruction_iff.mpr (.encoded (toLeBytes w) hreloc hcopied ?_ rfl)
      refine emitEncoded_eq_ok.mpr (.inl ⟨rfl, [.register r, .pageTarget page], ?_, ?_⟩)
      · rw [hoperands]
        exact lowerOperands_adrp.mpr ⟨page, h.resolved, rfl⟩
      · rw [hmnemonic]
        exact bind_eq_ok.mpr ⟨w, encode_decodedAdrp hdecode hd, rfl⟩

end Halves

/-! ## §3. The fused form. -/

/-- The page the `adrp` of a macro goes to and the bytes after it, if the macro
is emitted without relocations. -/
def unrelocatedForm (m : AarchMacro) (here : U64) (ctx : EmitContext) (pageTarget : Target)
    (companion : AarchInstruction) : Option (U64 × List Byte) :=
  match verbatimMacro m here ctx with
  | some raw =>
    (macroResolveTarget pageTarget ctx.blockAddresses ctx.container).map (·, raw.drop 4)
  | none =>
    match macroRelocation m ctx with
    | .ok none =>
      match m.kind with
      | .loadAddress => do
        let target ← macroResolveTarget m.target ctx.blockAddresses ctx.container
        let add ← (encodeTemplate
          (buildAddImmediateTemplate m.register (target &&& 0xfff#64).toNat)).toOption
        some (target &&& ~~~0xfff#64, add)
      | .accessValue =>
        (encodeTemplate (originalTemplate companion (here + 4))).toOption.map (0, ·)
    | _ => none

variable {m : AarchMacro} {adrp companion : AarchInstruction} {pageTarget : Target} {here : U64}
  {ctx : EmitContext} {piece : EmitOutput}

theorem unrelocatedForm_loadAddress {target : U64} {bytes : List Byte}
    (hverbatim : verbatimMacro m here ctx = none) (hrelocation : macroRelocation m ctx = .ok none)
    (hkind : m.kind = .loadAddress)
    (hresolve : macroResolveTarget m.target ctx.blockAddresses ctx.container = some target)
    (hadd : encodeTemplate (buildAddImmediateTemplate m.register (target &&& 0xfff#64).toNat)
      = .ok bytes) :
    unrelocatedForm m here ctx pageTarget companion = some (target &&& ~~~0xfff#64, bytes) := by
  simp only [unrelocatedForm, hverbatim, hrelocation, hkind, hresolve]
  exact Option.bind_eq_some_iff.mpr
    ⟨target, rfl, Option.bind_eq_some_iff.mpr ⟨bytes, toOption_eq_some.mpr hadd, rfl⟩⟩

/-- A macro is emitted as an `adrp` to its page and the bytes after it, or with
two relocations. -/
theorem emitAarchMacro_form (hfolded : FoldedFrom m adrp companion pageTarget)
    (h : emitAarchMacro m here ctx .empty = .ok piece) :
    (∃ page bytes w d, unrelocatedForm m here ctx pageTarget companion = some (page, bytes) ∧
        piece = ⟨toLeBytes w ++ bytes, []⟩ ∧ decodeInstruction here w = .ok d ∧
        d.operands = [.register m.register, .pageTarget page]) ∨
      (unrelocatedForm m here ctx pageTarget companion = none ∧ piece.relocations.length = 2) := by
  unfold emitAarchMacro at h
  cases hverbatim : verbatimMacro m here ctx with
  | some raw =>
    rw [hverbatim] at h
    cases h
    obtain ⟨page, first, second, rfl, hfirst, -, -, hshown, hresolved, -⟩ :=
      verbatimMacro_decodes hfolded hverbatim
    refine .inl ⟨page, toLeBytes second.word, first.word, first, ?_, rfl, hfirst, hshown⟩
    simp only [unrelocatedForm, hverbatim, hresolved]
    rfl
  | none =>
    rw [hverbatim] at h
    cases hkind : m.kind with
    | loadAddress =>
      rw [hkind] at h
      obtain ⟨relocation, hrelocation, h⟩ := bind_eq_ok.mp h
      cases relocation with
      | some symbol =>
        obtain ⟨bytes₁, -, h⟩ := bind_eq_ok.mp h
        obtain ⟨bytes₂, -, h⟩ := bind_eq_ok.mp h
        cases h
        refine .inr ⟨?_, rfl⟩
        simp only [unrelocatedForm, hverbatim, hrelocation]
      | none =>
        cases hresolve : macroResolveTarget m.target ctx.blockAddresses ctx.container with
        | none =>
          rw [hresolve] at h
          cases h
        | some target =>
          rw [hresolve] at h
          obtain ⟨bytes₁, hbytes₁, h⟩ := bind_eq_ok.mp h
          obtain ⟨bytes₂, hbytes₂, h⟩ := bind_eq_ok.mp h
          cases h
          obtain ⟨w, hw, rfl⟩ := encodeTemplate_ok hbytes₁
          obtain ⟨-, hdecode⟩ := decode_encodedAdrp hw
          exact .inl ⟨_, bytes₂, w, _,
            unrelocatedForm_loadAddress hverbatim hrelocation hkind hresolve hbytes₂, rfl, hdecode, rfl⟩
    | accessValue =>
      rw [hkind] at h
      unfold emitAccessValue at h
      rw [hfolded.originals] at h
      obtain ⟨relocation, hrelocation, h⟩ := bind_eq_ok.mp h
      cases relocation with
      | some symbol =>
        obtain ⟨bytes₁, -, h⟩ := bind_eq_ok.mp h
        obtain ⟨bytes₂, -, h⟩ := bind_eq_ok.mp h
        split at h
        · cases h
        · cases h
          refine .inr ⟨?_, rfl⟩
          simp only [unrelocatedForm, hverbatim, hrelocation]
      | none =>
        obtain ⟨bytes₁, hbytes₁, h⟩ := bind_eq_ok.mp h
        obtain ⟨bytes₂, hbytes₂, h⟩ := bind_eq_ok.mp h
        cases h
        obtain ⟨w, hw, rfl⟩ := encodeTemplate_ok hbytes₁
        rw [originalTemplate, hfolded.mnemonic, hfolded.operands] at hw
        obtain ⟨-, hdecode⟩ := decode_encodedAdrp hw
        refine .inl ⟨0, bytes₂, w, _, ?_, rfl, hdecode, rfl⟩
        simp only [unrelocatedForm, hverbatim, hrelocation, hkind, hbytes₂]
        rfl

/-! ## §4. The two forms. -/

/-- The halves of a macro, each emitted by itself, make what its fused form makes
without relocations. -/
def SplitsAlike (m : AarchMacro) (here : U64) (ctx : EmitContext) : Prop :=
  ∃ adrp companion r pageTarget page bytes, m.originalInstructions = [adrp, companion] ∧
    adrpOperands adrp = some (r, pageTarget) ∧
    unrelocatedForm m here ctx pageTarget companion = some (page, bytes) ∧
    AdrpGoesTo ctx adrp pageTarget here page ∧
    standaloneBytes companion (here + aarch64.sizeOf adrp) ctx = some bytes

/-- **A macro that is emitted as relocations never splits alike.** -/
theorem not_splitsAlike_of_relocation {symbol : SymbolId} (hverbatim : verbatimMacro m here ctx = none)
    (hrelocation : macroRelocation m ctx = .ok (some symbol)) : ¬ SplitsAlike m here ctx := by
  intro h
  obtain ⟨adrp, companion, r, pageTarget, page, bytes, -, -, hform, -⟩ := h
  simp only [unrelocatedForm, hverbatim, hrelocation, reduceCtorEq] at hform

/-- Two instructions in a row, each emitted by itself. -/
theorem emitOps_pair_iff {i₁ i₂ : AarchInstruction} {l₁ l₂ : InstructionLayout} :
    emitOps aarch64 ctx [.instruction i₁, .instruction i₂] [l₁, l₂] .empty = .ok piece ↔
      ∃ p₁ p₂, emitInstruction aarch64 i₁ l₁ ctx .empty = .ok p₁ ∧
        emitInstruction aarch64 i₂ l₂ ctx .empty = .ok p₂ ∧ piece = p₁.append p₂ := by
  have hsecond : ∀ p₁, emitOps aarch64 ctx [(.instruction i₂ : AarchOp)] [l₂] p₁ = .ok piece ↔
      ∃ p₂, emitInstruction aarch64 i₂ l₂ ctx .empty = .ok p₂ ∧ piece = p₁.append p₂ := by
    intro p₁
    rw [emitOps_frame aarch64_macroFrame, map_eq_ok]
    refine exists_congr fun p₂ => and_congr ?_ eq_comm
    rw [emitOps, bind_eq_ok]
    constructor
    · intro h
      obtain ⟨p, hp, hsame⟩ := h
      cases hsame
      exact hp
    · intro h
      exact ⟨p₂, h, rfl⟩
  rw [emitOps, bind_eq_ok]
  refine exists_congr fun p₁ => ?_
  rw [hsecond]
  constructor
  · intro h
    obtain ⟨hp₁, p₂, hp₂, hsame⟩ := h
    exact ⟨p₂, hp₁, hp₂, hsame⟩
  · intro h
    obtain ⟨p₂, hp₁, hp₂, hsame⟩ := h
    exact ⟨hp₁, p₂, hp₂, hsame⟩

/-- An instruction is emitted as four bytes with one relocation at most. -/
theorem emitInstruction_relocations {i : AarchInstruction} {l : InstructionLayout} {p : EmitOutput}
    (h : emitInstruction aarch64 i l ctx .empty = .ok p) : p.relocations.length ≤ 1 := by
  cases emitInstruction_iff.mp h with
  | verbatim reloc raw hreloc hkeeps hcopied houtput =>
    rw [houtput]
    exact Nat.zero_le 1
  | placeholder symbol kind hreloc hnot houtput =>
    obtain ⟨relocation, hone⟩ := emitWithRelocation_one houtput
    rw [hone]
    exact Nat.le_refl 1
  | encoded bytes hreloc hnot hbytes houtput =>
    rw [houtput]
    exact Nat.zero_le 1

theorem emitInstruction_normal_length {i : AarchInstruction} {l : InstructionLayout} {p : EmitOutput}
    (hnormal : l.strategy = .normal) (h : emitInstruction aarch64 i l ctx .empty = .ok p) :
    p.bytes.length = 4 := by
  rcases emitInstruction_length h with ⟨-, hlen⟩ | ⟨hwide, -⟩ | ⟨hwide, -⟩
  · exact hlen
  · rw [hnormal] at hwide
    cases hwide
  · rw [hnormal] at hwide
    cases hwide

/-- **The halves of a macro come out like the macro** exactly when it splits alike. -/
theorem split_alike_iff (hfolded : FoldedFrom m adrp companion pageTarget) {s₁ s₂ : U64}
    (h : emitAarchMacro m here ctx .empty = .ok piece) :
    (∃ piece', emitOps aarch64 ctx [.instruction adrp, .instruction companion]
        [⟨here, s₁, .normal⟩, ⟨here + aarch64.sizeOf adrp, s₂, .normal⟩] .empty = .ok piece' ∧
        piece'.Alike piece) ↔ SplitsAlike m here ctx := by
  obtain ⟨operands, hdecoded⟩ := exists_decoded_of_through hfolded.through
  have hadrpOperands : adrpOperands adrp = some (m.register, pageTarget) := by
    rw [adrpOperands, hfolded.operands]
  constructor
  · intro hsplit
    obtain ⟨piece', hpiece', hbytes, hrelocations⟩ := hsplit
    obtain ⟨p₁, p₂, hp₁, hp₂, rfl⟩ := emitOps_pair_iff.mp hpiece'
    have hlen₁ : p₁.bytes.length = 4 := emitInstruction_normal_length rfl hp₁
    have hone := emitInstruction_relocations hp₁
    obtain ⟨bytes₂, hbytes₂, rfl⟩ := (emitInstruction_decoded_iff hdecoded).mp hp₂
    have hcount : p₁.relocations.length = piece.relocations.length := by
      simpa [EmitOutput.append] using hrelocations.length_eq
    obtain ⟨page, bytes, w, d, hform, rfl, hdecode, hd⟩ | ⟨-, htwo⟩ := emitAarchMacro_form hfolded h
    · obtain ⟨hfirst, hsecond⟩ := List.append_inj hbytes hlen₁
      have hp₁' : p₁ = wordOutput w := by
        obtain ⟨b₁, r₁⟩ := p₁
        obtain rfl := List.eq_nil_of_length_eq_zero hcount
        exact congrArg (EmitOutput.mk · []) hfirst
      rw [hp₁'] at hp₁
      refine ⟨adrp, companion, m.register, pageTarget, page, bytes, hfolded.originals, hadrpOperands,
        hform, ?_, ?_⟩
      · exact (emitInstruction_adrp_iff hfolded.mnemonic hfolded.operands hdecode hd).mp hp₁
      · rw [hbytes₂]
        exact congrArg some hsecond
    · omega
  · intro hsplits
    obtain ⟨adrp', companion', r, pageTarget', page, bytes, horiginals, hoperands, hform, hgoes,
      hbytes⟩ := hsplits
    cases hfolded.originals.symm.trans horiginals
    cases hadrpOperands.symm.trans hoperands
    obtain ⟨page', bytes', w, d, hform', rfl, hdecode, hd⟩ | ⟨hnone, -⟩ :=
      emitAarchMacro_form hfolded h
    · cases hform.symm.trans hform'
      have hp₁ : emitInstruction aarch64 adrp ⟨here, s₁, .normal⟩ ctx .empty = .ok (wordOutput w) :=
        (emitInstruction_adrp_iff hfolded.mnemonic hfolded.operands hdecode hd).mpr hgoes
      have hp₂ : emitInstruction aarch64 companion ⟨here + aarch64.sizeOf adrp, s₂, .normal⟩ ctx
          .empty = .ok ⟨bytes, []⟩ :=
        (emitInstruction_decoded_iff hdecoded).mpr ⟨bytes, hbytes, rfl⟩
      exact ⟨_, emitOps_pair_iff.mpr ⟨_, _, hp₁, hp₂, rfl⟩, rfl, List.Perm.refl _⟩
    · cases hform.symm.trans hnone

/-! ## §5. Every plan. -/

/-- The halves of a macro have no branch, so layout never widens them. -/
theorem FoldedFrom.still (hfolded : FoldedFrom m adrp companion pageTarget) :
    ∀ i ∈ m.originalInstructions, pcRelativeBranchTarget i = none := by
  rw [hfolded.originals]
  intro i hi
  simp only [List.mem_cons, List.not_mem_nil, or_false] at hi
  obtain rfl | rfl := hi
  · rw [pcRelativeBranchTarget, hfolded.operands]
    rfl
  · obtain ⟨operands, hoperands⟩ := exists_decoded_of_through hfolded.through
    rw [pcRelativeBranchTarget, hoperands, List.findSome?_eq_none_iff]
    intro o ho
    obtain ⟨d, -, rfl⟩ := List.mem_map.mp ho
    rfl

theorem FoldedFrom.placed (hfolded : FoldedFrom m adrp companion pageTarget) (address : U64) :
    aarch64.placedOriginals m address
      = [⟨address, aarch64.sizeOf adrp, .normal⟩,
          ⟨address + aarch64.sizeOf adrp, aarch64.sizeOf companion, .normal⟩] := by
  rw [Isa.placedOriginals, hfolded.originals]
  rfl

section Plan

variable {plan : AarchPlan} {base address : U64} {container : Option Container} {layout : Layout}
  {out : EmitOutput} {b j : Nat} {l : InstructionLayout}

/-- One macro of a plan, split. -/
theorem alikeUnfused_iff_splitsAlike (hlocate : plan.locate address = some (b, j))
    (hat : OpAt plan layout b j (.macroOp m) l)
    (hbegins : m.originalInstructions.head?.bind RewriteInstruction.originalAddress = some address)
    (hfused : FoldedMacro m) (hlayout : layOut aarch64 plan base container = .ok layout)
    (hemit : emit aarch64 plan layout container = .ok out) :
    AlikeUnfused aarch64 plan address base container out ↔
      SplitsAlike m l.address (layout.context container) := by
  obtain ⟨adrp, companion, pageTarget, hfolded⟩ := hfused.foldedFrom
  obtain ⟨piece, hpiece, halike⟩ := alikeUnfused_iff aarch64_macroFrame hlocate hat hbegins
    hfolded.still hlayout hemit
  rw [hfolded.originals, hfolded.placed] at halike
  exact halike.trans (split_alike_iff hfolded (emitAarchMacro_of_emitOp hpiece))

/-- **Splitting a macro keeps the output** exactly when the macro that begins at
the address, if there is one, splits alike where it was laid out. -/
theorem unfuseMacroAt_alike_iff
    (hplan : ∀ b j m, plan.opAtIndex b j = some (.macroOp m) → FoldedMacro m)
    (hlayout : layOut aarch64 plan base container = .ok layout)
    (hemit : emit aarch64 plan layout container = .ok out) :
    AlikeUnfused aarch64 plan address base container out ↔
      ∀ b j m l, plan.locate address = some (b, j) → OpAt plan layout b j (.macroOp m) l →
        m.originalInstructions.head?.bind RewriteInstruction.originalAddress = some address →
        SplitsAlike m l.address (layout.context container) := by
  by_cases hfused : ∃ b j m l, plan.locate address = some (b, j) ∧
      OpAt plan layout b j (.macroOp m) l ∧
      m.originalInstructions.head?.bind RewriteInstruction.originalAddress = some address
  · obtain ⟨b, j, m, l, hlocate, hat, hbegins⟩ := hfused
    rw [alikeUnfused_iff_splitsAlike hlocate hat hbegins (hplan b j m hat.opAtIndex) hlayout hemit]
    constructor
    · intro h b' j' m' l' hlocate' hat' _
      cases hlocate.symm.trans hlocate'
      obtain ⟨hsame, rfl⟩ := hat.unique hat'
      cases hsame
      exact h
    · intro h
      exact h b j m l hlocate hat hbegins
  · have hself : plan.unfuseMacroAt address = plan := by
      refine RewritePlan.unfuseMacroAt_eq_self fun b j m hlocate hop hbegins => hfused ?_
      obtain ⟨block, hblock, hop⟩ := Option.bind_eq_some_iff.mp hop
      obtain ⟨l, hat, -⟩ := (layOut_laidOut hlayout).exists_layout hblock hop
      exact ⟨b, j, m, l, hlocate, hat, hbegins⟩
    constructor
    · intro _ b j m l hlocate hat hbegins
      exact absurd ⟨b, j, m, l, hlocate, hat, hbegins⟩ hfused
    · intro _
      rw [AlikeUnfused, hself]
      exact ⟨layout, out, hlayout, hemit, rfl, List.Perm.refl _⟩

end Plan

/-! ## §6. A resolved address, split. -/

def addressPairPlan : AarchPlan := ⟨[⟨⟨0⟩, [.macroOp addressPair]⟩]⟩

def addressPairLayout : Layout := ⟨0x3000, 8, [0x3000], [[⟨0x3000, 8, .normal⟩]]⟩

theorem folded_of_single {m m' : AarchMacro} {id : BasicBlockId} (h : FoldedMacro m) {b j : Nat}
    (hop : (⟨[⟨id, [.macroOp m]⟩]⟩ : AarchPlan).opAtIndex b j = some (.macroOp m')) :
    FoldedMacro m' := by
  obtain ⟨block, hblock, hop⟩ := Option.bind_eq_some_iff.mp hop
  obtain rfl := List.mem_singleton.mp (List.mem_of_getElem? hblock)
  cases List.mem_singleton.mp (List.mem_of_getElem? hop)
  exact h

theorem layOut_addressPair : layOut aarch64 addressPairPlan 0x3000 none = .ok addressPairLayout := by
  decide

/-- Both forms are an `adrp` to `0x2000` and an `add` of eight. -/
theorem addressPair_splitsAlike : SplitsAlike addressPair 0x3000 ⟨[0x3000], none, none⟩ := by
  have hfused : encodeInstruction
      ⟨0, .add, [.register (xReg 0), .register (xReg 0), .immediate 8]⟩ = .ok 0x91002000#32 := by
    simp only [encodeInstruction, opcodesForMnemonic_add]
    decide
  have hhalf : encodeInstruction
      ⟨0x3004, .add, [.register (xOrSp 0), .register (xOrSp 0), .immediate 8]⟩ = .ok 0x91002000#32 := by
    simp only [encodeInstruction, opcodesForMnemonic_add]
    decide
  have hadd : encodeTemplate (buildAddImmediateTemplate addressPair.register
      ((0x2008#64 &&& 0xfff#64).toNat : Int)) = .ok (toLeBytes 0x91002000#32) := by
    show encodeTemplate ⟨0, .add, [.register (xReg 0), .register (xReg 0), .immediate 8]⟩ = _
    rw [encodeTemplate, hfused]
  refine ⟨_, _, xReg 0, .absolute 0x2000, 0x2000, toLeBytes 0x91002000#32, rfl, rfl, ?_, ?_, ?_⟩
  · have hresolve : macroResolveTarget addressPair.target [0x3000] none = some 0x2008 := rfl
    exact unrelocatedForm_loadAddress (m := addressPair) rfl rfl rfl hresolve hadd
  · refine ⟨rfl, ?_, none, rfl, .inl rfl⟩
    intro c word hc
    cases hc
  · have hencoded : encodeTemplate ⟨0x3004, .add, [.register (xOrSp 0), .register (xOrSp 0),
        .immediate 8]⟩ = .ok (toLeBytes 0x91002000#32) := by
      simp only [encodeTemplate, hhalf]
    exact toOption_eq_some.mpr hencoded

/-- The moved pair may be split. -/
theorem addressPair_alike :
    AlikeUnfused aarch64 addressPairPlan 0x1000 0x3000 none
      ((EmitOutput.empty.push (toLeBytes 0xf0ffffe0#32) none).push
        (toLeBytes 0x91002000#32) none) := by
  have hemit : emit aarch64 addressPairPlan addressPairLayout none
      = .ok ((EmitOutput.empty.push (toLeBytes 0xf0ffffe0#32) none).push
          (toLeBytes 0x91002000#32) none) := by
    have hfused : emitOp aarch64 (.macroOp addressPair) ⟨0x3000, 8, .normal⟩
        (addressPairLayout.context none) .empty = .ok _ :=
      emitOp_of_emitAarchMacro (addressPair_emitted [0x3000])
    exact emit_single rfl hfused
  refine (unfuseMacroAt_alike_iff (fun _ _ _ hop => folded_of_single addressPair_folded hop)
    layOut_addressPair hemit).mpr ?_
  intro b j m l hlocate hat _
  have hfirst : OpAt addressPairPlan addressPairLayout 0 0 (.macroOp addressPair)
      ⟨0x3000, 8, .normal⟩ := ⟨_, _, rfl, rfl, rfl, rfl⟩
  have hplace : addressPairPlan.locate 0x1000 = some (0, 0) := rfl
  cases hplace.symm.trans hlocate
  obtain ⟨hsame, rfl⟩ := hfirst.unique hat
  cases hsame
  exact addressPair_splitsAlike

/-! ## §7. An undefined symbol, split. -/

/-- An object that loads the address of a symbol it does not define. -/
def externObject : Container where
  format := .elf
  architecture := .aarch64
  kind := .relocatable
  sections := [⟨⟨0⟩, 0, 8, [0x00, 0x00, 0x00, 0x90, 0x00, 0x00, 0x00, 0x91], .text⟩]
  symbols := [⟨⟨0⟩, "message", 0, .object, none, true⟩]
  relocations := [⟨⟨0⟩, ⟨0⟩, 0, .adrpPage21, 21, 0, some ⟨0⟩⟩,
    ⟨⟨1⟩, ⟨0⟩, 4, .addPageOffset12, 12, 0, some ⟨0⟩⟩]
  elfImage := none
  machoImage := none
  sectionIds := rfl
  symbolIds := rfl
  relocationSections := by simp

/-- `adrp x0, message` and the `add` of its page offset, which decodes as a move. -/
def externPair : AarchMacro :=
  fusedPair .loadAddress (xReg 0) (.symbol ⟨0⟩)
    ⟨.adrp, [.decoded (.register (xReg 0)), .page (.symbol ⟨0⟩)], some 0, some 4⟩
    ⟨.mov, [.decoded (.register (xOrSp 0)), .decoded (.register (xOrSp 0))], some 4, some 4⟩

theorem externPair_folded : FoldedMacro externPair := by
  have hfuse : tryFuse
      ⟨.adrp, [.decoded (.register (xReg 0)), .page (.symbol ⟨0⟩)], some 0, some 4⟩
      ⟨.mov, [.decoded (.register (xOrSp 0)), .decoded (.register (xOrSp 0))], some 4, some 4⟩
      (fun _ => none) (some externObject) (fun _ => none) = some externPair := rfl
  exact .fused hfuse

def externPlan : AarchPlan := ⟨[⟨⟨0⟩, [.macroOp externPair]⟩]⟩

def externLayout : Layout := ⟨0, 8, [0], [[⟨0, 8, .normal⟩]]⟩

theorem layOut_extern : layOut aarch64 externPlan 0 (some externObject) = .ok externLayout := by
  decide

theorem externPair_emitted :
    ∃ piece, emitAarchMacro externPair 0 (externLayout.context (some externObject)) .empty
      = .ok piece := by
  have hadrp : encodeInstruction (buildAdrpTemplate (xReg 0) (0 &&& ~~~0xfff#64) 0)
      = .ok 0x90000000#32 := by
    show encodeInstruction ⟨0, .adrp, [.register (xReg 0), .pageTarget (0 &&& ~~~0xfff#64)]⟩ = _
    simp only [encodeInstruction, opcodesForMnemonic_adrp]
    decide
  have hadd : encodeInstruction (buildAddImmediateTemplate (xReg 0) 0) = .ok 0x91000000#32 := by
    show encodeInstruction ⟨0, .add, [.register (xReg 0), .register (xReg 0), .immediate 0]⟩ = _
    simp only [encodeInstruction, opcodesForMnemonic_add]
    decide
  have hcopied : verbatimMacro externPair 0 (externLayout.context (some externObject)) = none := rfl
  have hrelocation : macroRelocation externPair (externLayout.context (some externObject))
      = .ok (some ⟨0⟩) := rfl
  have hadrpBytes : encodeTemplate (buildAdrpTemplate (xReg 0) (0 &&& ~~~0xfff#64) 0)
      = .ok (toLeBytes 0x90000000#32) := by rw [encodeTemplate, hadrp]
  have haddBytes : encodeTemplate (buildAddImmediateTemplate (xReg 0) 0)
      = .ok (toLeBytes 0x91000000#32) := by rw [encodeTemplate, hadd]
  rw [emitAarchMacro, hcopied]
  exact ⟨_, bind_eq_ok.mpr ⟨_, hrelocation,
    bind_eq_ok.mpr ⟨_, hadrpBytes, bind_eq_ok.mpr ⟨_, haddBytes, rfl⟩⟩⟩⟩

/-- Split, the object loses the relocation of the `add`. -/
theorem externPair_differs :
    ¬ ∀ (plan : AarchPlan) (base address : U64) (container : Option Container) (layout : Layout)
      (out : EmitOutput), (∀ b j m, plan.opAtIndex b j = some (.macroOp m) → FoldedMacro m) →
      layOut aarch64 plan base container = .ok layout →
      emit aarch64 plan layout container = .ok out →
        AlikeUnfused aarch64 plan address base container out := by
  intro h
  obtain ⟨piece, hpiece⟩ := externPair_emitted
  have hfused : emitOp aarch64 (.macroOp externPair) ⟨0, 8, .normal⟩
      (externLayout.context (some externObject)) .empty = .ok piece :=
    emitOp_of_emitAarchMacro hpiece
  have hemit : emit aarch64 externPlan externLayout (some externObject) = .ok piece :=
    emit_single rfl hfused
  have hat : OpAt externPlan externLayout 0 0 (.macroOp externPair) ⟨0, 8, .normal⟩ :=
    ⟨_, _, rfl, rfl, rfl, rfl⟩
  have halike := h externPlan 0 0 (some externObject) externLayout piece
    (fun _ _ _ hop => folded_of_single externPair_folded hop) layOut_extern hemit
  exact not_splitsAlike_of_relocation (m := externPair) rfl rfl
    ((alikeUnfused_iff_splitsAlike rfl hat rfl externPair_folded layOut_extern hemit).mp halike)

end Armv8Encode

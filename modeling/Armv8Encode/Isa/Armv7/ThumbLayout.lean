/-
  Armv8Encode.Isa.Armv7.ThumbLayout — Thumb layout against Thumb emit.

  Layout reserves the decoded width of an instruction, or the size that its
  mnemonic implies; emit copies by the mnemonic's size, or takes the first row
  of the mnemonic that accepts the operands, whatever its width.  Comparing
  the two gives the exact condition under which every op lands where layout
  put it and no branch is refused for its distance.
-/
import Armv8Encode.Isa.Aarch64.EmitSizes
import Armv8Encode.Isa.Armv7.SweepSpec

namespace Armv8Encode.Armv7

open Lib

/-! ## §1. Macros only append. -/

theorem MovwMovt.emit_append (halves : MovwMovt) (register : Register) (target : Target)
    (ctx : EmitContext) (out : EmitOutput) :
    halves.emit register target ctx out
      = (halves.emit register target ctx .empty).map out.append := by
  unfold MovwMovt.emit
  rw [map_bind]
  refine bind_congr fun needed => ?_
  cases needed with
  | some symbol =>
    rw [map_bind]
    refine bind_congr fun movw => ?_
    rw [map_bind]
    refine bind_congr fun movt => ?_
    rw [EmitOutput.push_eq_append out, EmitOutput.append_push]
    rfl
  | none =>
    cases macroResolveTarget target ctx.blockAddresses ctx.container with
    | none => rfl
    | some address =>
      simp only
      rw [map_bind]
      refine bind_congr fun movw => ?_
      rw [map_bind]
      refine bind_congr fun movt => ?_
      rw [EmitOutput.push_eq_append out, EmitOutput.append_push]
      rfl

/-- An expanded pair is as long as its two halves. -/
theorem MovwMovt.length_emit {halves : MovwMovt} (hmovw : ∀ r v bytes, halves.movw r v = .ok bytes →
      bytes.length = 4) (hmovt : ∀ r v bytes, halves.movt r v = .ok bytes → bytes.length = 4)
    {register : Register} {target : Target} {ctx : EmitContext} {piece : EmitOutput}
    (h : halves.emit register target ctx .empty = .ok piece) : piece.bytes.length = 8 := by
  have hsome : ∀ {x : Except EncodeError (List Byte)} {bytes : List Byte},
      x.mapError (MacroEmitError.encode (E := EncodeError)) = .ok bytes → x = .ok bytes := by
    intro x bytes h
    cases x with
    | error e => cases h
    | ok b =>
      cases h
      rfl
  obtain ⟨needed, -, h⟩ := bind_eq_ok.mp h
  cases needed with
  | some symbol =>
    obtain ⟨movw, hw, h⟩ := bind_eq_ok.mp h
    obtain ⟨movt, ht, h⟩ := bind_eq_ok.mp h
    cases h
    exact push_push_length (hmovw _ _ _ (hsome hw)) (hmovt _ _ _ (hsome ht))
  | none =>
    cases htarget : macroResolveTarget target ctx.blockAddresses ctx.container with
    | none =>
      rw [htarget] at h
      cases h
    | some address =>
      rw [htarget] at h
      obtain ⟨movw, hw, h⟩ := bind_eq_ok.mp h
      obtain ⟨movt, ht, h⟩ := bind_eq_ok.mp h
      cases h
      exact push_push_length (hmovw _ _ _ (hsome hw)) (hmovt _ _ _ (hsome ht))

theorem thumb_macroFrame : thumb.MacroFrame := by
  intro m here ctx out
  exact Thumb.movwMovt.emit_append m.register m.target ctx out

namespace Thumb

theorem length_encodeHalf {opcode mask : Word} {rd : Register} {imm16 : Int} {bytes : List Byte}
    (h : encodeHalf opcode mask rd imm16 = .ok bytes) : bytes.length = 4 := by
  unfold encodeHalf at h
  split at h
  · cases h
  · obtain ⟨encoded, -, h⟩ := bind_eq_ok.mp h
    cases h
    rfl

theorem length_emitMacro {m : MacroOp ThumbMnemonic Register DecodedOperand MacroKind} {here : U64}
    {ctx : EmitContext} {piece : EmitOutput} (h : emitMacro m here ctx .empty = .ok piece) :
    piece.bytes.length = 8 := by
  refine MovwMovt.length_emit ?_ ?_ h
  · intro r v bytes hbytes
    have hmovw : encodeHalf 0xf2400000 0xfbf08000 r v = .ok bytes := hbytes
    exact length_encodeHalf hmovw
  · intro r v bytes hbytes
    have hmovt : encodeHalf 0xf2c00000 0xfbf08000 r v = .ok bytes := hbytes
    exact length_encodeHalf hmovt

/-! ## §2. The row a mnemonic is encoded by. -/

/-- The rows of a mnemonic, in table order. -/
def rowsOf (mnemonic : ThumbMnemonic) : List ThumbOpcode :=
  thumbOpcodeTable.filter fun row => row.mnemonic == mnemonic

/-- A row accepts operands at an address. -/
def accepts (operands : List DecodedOperand) (address : U64) (row : ThumbOpcode) : Bool :=
  (encodeWithRow row operands address).isOk

/-- The first row of a mnemonic that accepts the operands. -/
def rowFor (mnemonic : ThumbMnemonic) (operands : List DecodedOperand) (address : U64) :
    Option ThumbOpcode :=
  (rowsOf mnemonic).find? (accepts operands address)

/-- No row of the mnemonic accepts the operands, and the last one refuses them
for the distance of the branch. -/
def RefusedForRange (mnemonic : ThumbMnemonic) (operands : List DecodedOperand) (address : U64) :
    Prop :=
  rowFor mnemonic operands address = none ∧
    ∃ row, (rowsOf mnemonic).getLast? = some row ∧ ∃ slot displacement bits,
      encodeWithRow row operands address = .error (.branchOutOfRange slot displacement bits)

theorem encodeAmong_eq {operands : List DecodedOperand} {address : U64} {lastErr : EncodeError}
    {rows : List ThumbOpcode} :
    encodeAmong operands address lastErr rows =
      match rows.find? (accepts operands address) with
      | some row => encodeWithRow row operands address
      | none =>
        match rows.getLast? with
        | some row => encodeWithRow row operands address
        | none => .error lastErr := by
  induction rows generalizing lastErr with
  | nil => rfl
  | cons row rest ih =>
    rw [encodeAmong, List.find?_cons]
    cases hrow : encodeWithRow row operands address with
    | ok encoded =>
      have haccepts : accepts operands address row = true := by rw [accepts, hrow]; rfl
      rw [haccepts]
      simp only [hrow]
    | error e =>
      have hrefuses : accepts operands address row = false := by rw [accepts, hrow]; rfl
      rw [hrefuses]
      simp only [ih]
      cases hrest : rest.find? (accepts operands address) with
      | some row' => rfl
      | none =>
        simp only
        cases rest with
        | nil => simp [hrow]
        | cons row' rest' =>
          rw [List.getLast?_cons_cons]
          cases hlast : (row' :: rest').getLast? with
          | none => exact absurd (List.getLast?_eq_none_iff.mp hlast) (List.cons_ne_nil _ _)
          | some last => rfl

/-- Encoding by mnemonic is encoding by the row it finds, else the failure of
the last row. -/
theorem encode_eq (mnemonic : ThumbMnemonic) (operands : List DecodedOperand) (address : U64) :
    encode mnemonic operands address =
      match rowFor mnemonic operands address with
      | some row => encodeWithRow row operands address
      | none =>
        match (rowsOf mnemonic).getLast? with
        | some row => encodeWithRow row operands address
        | none => .error (.noMatchingForm "<thumb-mnemonic>" operands.length) :=
  encodeAmong_eq

/-- A row that no search finds refuses. -/
theorem refuses_of_rowFor_none {mnemonic : ThumbMnemonic} {operands : List DecodedOperand}
    {address : U64} (h : rowFor mnemonic operands address = none) {row : ThumbOpcode}
    (hrow : row ∈ rowsOf mnemonic) : ∃ e, encodeWithRow row operands address = .error e := by
  have hrefuses := List.find?_eq_none.mp h row hrow
  rw [accepts] at hrefuses
  cases hencoded : encodeWithRow row operands address with
  | error e => exact ⟨e, rfl⟩
  | ok encoded =>
    rw [hencoded] at hrefuses
    exact absurd rfl hrefuses

/-- A row that a search finds accepts. -/
theorem accepts_of_rowFor {mnemonic : ThumbMnemonic} {operands : List DecodedOperand}
    {address : U64} {row : ThumbOpcode} (h : rowFor mnemonic operands address = some row) :
    ∃ word, encodeWithRow row operands address = .ok (word, row.width) := by
  have haccepts := List.find?_some h
  rw [accepts] at haccepts
  cases hword : encodeWithFormat row.format row.opcode operands address row.width with
  | error e =>
    rw [encodeWithRow, hword] at haccepts
    cases haccepts
  | ok word =>
    refine ⟨word, ?_⟩
    rw [encodeWithRow, hword]
    rfl

/-- An encoded instruction is as wide as the row it is encoded by. -/
theorem encodeBytes_ok {mnemonic : ThumbMnemonic} {operands : List DecodedOperand} {address : U64}
    {bytes : List Byte} (h : encodeBytes mnemonic operands address = .ok bytes) :
    ∃ row, rowFor mnemonic operands address = some row ∧ bytes.length = sizeBytes row.width := by
  obtain ⟨encoded, hencoded, h⟩ := bind_eq_ok.mp h
  cases h
  rw [encode_eq] at hencoded
  cases hfound : rowFor mnemonic operands address with
  | some row =>
    obtain ⟨word, hword⟩ := accepts_of_rowFor hfound
    rw [hfound] at hencoded
    have heq := hword.symm.trans hencoded
    cases heq
    exact ⟨row, rfl, length_wordOf _ _⟩
  | none =>
    rw [hfound] at hencoded
    cases hlast : (rowsOf mnemonic).getLast? with
    | none =>
      rw [hlast] at hencoded
      cases hencoded
    | some row =>
      rw [hlast] at hencoded
      obtain ⟨e, he⟩ := refuses_of_rowFor_none hfound (List.mem_of_getLast? hlast)
      cases he.symm.trans hencoded

/-- An error says that a branch does not reach. -/
def IsRangeError (e : EncodeError) : Prop :=
  ∃ slot displacement bits, e = .branchOutOfRange slot displacement bits

/-- Encoding fails for the distance exactly when every row refuses and the
last one for the distance. -/
theorem encodeBytes_range_iff {mnemonic : ThumbMnemonic} {operands : List DecodedOperand}
    {address : U64} :
    (∃ e, encodeBytes mnemonic operands address = .error e ∧ IsRangeError e) ↔
      RefusedForRange mnemonic operands address := by
  have herror : ∀ e, encodeBytes mnemonic operands address = .error e ↔
      encode mnemonic operands address = .error e := by
    intro e
    rw [encodeBytes]
    cases encode mnemonic operands address <;> simp [bind, Except.bind, pure, Except.pure]
  constructor
  · rintro ⟨e, hencode, hrange⟩
    rw [herror, encode_eq] at hencode
    cases hfound : rowFor mnemonic operands address with
    | some row =>
      obtain ⟨word, hword⟩ := accepts_of_rowFor hfound
      rw [hfound] at hencode
      cases hword.symm.trans hencode
    | none =>
      rw [hfound] at hencode
      cases hlast : (rowsOf mnemonic).getLast? with
      | none =>
        rw [hlast] at hencode
        cases hencode
        obtain ⟨slot, displacement, bits, h⟩ := hrange
        cases h
      | some row =>
        rw [hlast] at hencode
        obtain ⟨slot, displacement, bits, rfl⟩ := hrange
        exact ⟨hfound, row, hlast, slot, displacement, bits, hencode⟩
  · rintro ⟨hfound, row, hlast, slot, displacement, bits, hrow⟩
    refine ⟨_, ?_, slot, displacement, bits, rfl⟩
    rw [herror, encode_eq, hfound, hlast]
    exact hrow

/-! ## §3. The ways of an instruction. -/

abbrev ThumbInstruction := RewriteInstruction ThumbMnemonic DecodedOperand

abbrev ThumbOp := RewriteOp ThumbMnemonic Register DecodedOperand MacroKind

abbrev ThumbPlan := RewritePlan ThumbMnemonic Register DecodedOperand MacroKind

/-- An instruction is copied: it has source bytes, and is not a reference that
a relocatable object keeps as a relocation. -/
def IsCopied (ctx : EmitContext) (i : ThumbInstruction) (address : U64)
    (reloc : Option (SymbolId × PcRelKind)) : Prop :=
  HasSource thumb ctx i address ∧ (ctx.isRelocatable && reloc.isSome) = false

/-- The row for some operands is as wide as what layout reserved before widening. -/
def RowKeepsSize (i : ThumbInstruction) (operands : List DecodedOperand) (address : U64) : Prop :=
  ∀ row, rowFor i.mnemonic operands address = some row →
    thumb.sizeOf i = BitVec.ofNat 64 (sizeBytes row.width)

/-- Emit keeps the size layout chose for an instruction. -/
structure KeepsInstructionSize (ctx : EmitContext) (i : ThumbInstruction) (l : InstructionLayout) :
    Prop where
  /-- A copy is not widened, and as long as what layout reserved. -/
  copied : ∀ reloc, ctx.relocationOf (E := EncodeError) i = .ok reloc →
    IsCopied ctx i l.address reloc →
      l.strategy = .normal ∧ thumb.sizeOf i = instructionSourceSize i.mnemonic
  /-- A placeholder is not widened, and its row has the reserved width. -/
  placeholder : ∀ symbol kind,
    ctx.relocationOf (E := EncodeError) i = .ok (some (symbol, kind)) →
      ¬ IsCopied ctx i l.address (some (symbol, kind)) →
        l.strategy = .normal ∧
          RowKeepsSize i (i.operands.map (placeholderOperand thumb l.address)) l.address
  /-- What is encoded in one piece is encoded by a row of the reserved width. -/
  encoded : ctx.relocationOf (E := EncodeError) i = .ok none →
    ¬ HasSource thumb ctx i l.address → l.strategy = .normal →
      ∀ operands, lowerOperands (E := EncodeError) thumb ctx.blockAddresses ctx.container
        i.operands = .ok operands → RowKeepsSize i operands l.address

/-- Emit keeps the size layout chose for an op. -/
def KeepsReservedSize (ctx : EmitContext) (op : ThumbOp) (l : InstructionLayout) : Prop :=
  match op with
  | .instruction i => KeepsInstructionSize ctx i l
  | .macroOp m => thumb.macroSourceSize m.originalInstructions = 8
  | .raw _ => True

theorem length_encodeWide {opcode mask : Word} {operands : List DecodedOperand} {address : U64}
    {bytes : List Byte} (h : encodeWide opcode mask operands address = .ok bytes) :
    bytes.length = 4 := by
  unfold encodeWide at h
  split at h
  · cases h
  · obtain ⟨encoded, -, h⟩ := bind_eq_ok.mp h
    cases h
    rfl

/-- The widened form is always eight bytes. -/
theorem length_encodeWidenedConditional (mnemonic : ThumbMnemonic) {template : List DecodedOperand}
    {here farTarget : U64} {bytes : List Byte}
    (h : encodeWidenedConditional mnemonic template here farTarget = .ok bytes) :
    bytes.length = 8 := by
  unfold encodeWidenedConditional at h
  split at h
  · obtain ⟨skip, hskip, h⟩ := bind_eq_ok.mp h
    obtain ⟨far, hfar, h⟩ := bind_eq_ok.mp h
    cases h
    rw [List.length_append, length_encodeWide hskip, length_encodeWide hfar]
  · obtain ⟨far, hfar, h⟩ := bind_eq_ok.mp h
    cases h
    rw [List.length_append, length_encodeWide hfar, length_wordBytes]

/-! ## §4. Fitting the layout. -/

theorem ofNat_sizeBytes_ne_eight (width : ThumbWidth) : (8 : U64) ≠ BitVec.ofNat 64 (sizeBytes width) := by
  cases width <;> decide

theorem instructionSourceSize_ne_eight (mnemonic : ThumbMnemonic) :
    (8 : U64) ≠ instructionSourceSize mnemonic := by
  unfold instructionSourceSize
  split <;> decide

/-- An instruction that is emitted fits its layout exactly when emit keeps its size. -/
theorem fits_instruction_iff {ctx : EmitContext} {i : ThumbInstruction} {l : InstructionLayout}
    (hres : Reserves thumb (.instruction i) l) {piece : EmitOutput}
    (hpiece : emitInstruction thumb i l ctx .empty = .ok piece) :
    l.size = BitVec.ofNat 64 piece.bytes.length ↔ KeepsInstructionSize ctx i l := by
  cases emitInstruction_iff.mp hpiece with
  | verbatim reloc raw hreloc hkeeps hcopied houtput =>
    have hbytes := (verbatimBytes_eq_some (fun _ _ => rfl)).mp hcopied
    have hsource : HasSource thumb ctx i l.address := ⟨raw, hbytes⟩
    have hraw : BitVec.ofNat 64 piece.bytes.length = instructionSourceSize i.mnemonic := by
      rw [houtput]
      show BitVec.ofNat 64 raw.length = _
      rw [hbytes.length_eq, BitVec.ofNat_toNat, BitVec.setWidth_eq]
      rfl
    have hothers : ∀ reloc', ctx.relocationOf (E := EncodeError) i = .ok reloc' →
        IsCopied ctx i l.address reloc' := by
      intro reloc' hreloc'
      cases hreloc.symm.trans hreloc'
      exact ⟨hsource, hkeeps⟩
    rw [hraw]
    constructor
    · intro hsize
      have hnormal : l.strategy = .normal := by
        cases hs : l.strategy with
        | normal => rfl
        | invertedConditional =>
          simp only [Reserves, hs] at hres
          exact absurd (hres.1.symm.trans hsize) (instructionSourceSize_ne_eight _)
      simp only [Reserves, hnormal] at hres
      refine ⟨fun _ _ _ => ⟨hnormal, hres.symm.trans hsize⟩, ?_, ?_⟩
      · intro symbol kind hreloc' hnot
        exact absurd (hothers _ hreloc') hnot
      · intro _ hnot
        exact absurd hsource hnot
    · intro hkeeps'
      obtain ⟨hnormal, hsize⟩ := hkeeps'.copied reloc hreloc ⟨hsource, hkeeps⟩
      simp only [Reserves, hnormal] at hres
      exact hres.trans hsize
  | placeholder symbol kind hreloc hnot hplaceholder =>
    have hnotCopied : ¬ IsCopied ctx i l.address (some (symbol, kind)) := by
      rintro ⟨hsource, hkeeps⟩
      rcases hnot with hrelocatable | hnone
      · rw [hrelocatable] at hkeeps
        cases hkeeps
      · exact (verbatimBytes_eq_none fun _ _ => rfl).mp hnone hsource
    have hbytes : encodeBytes i.mnemonic (i.operands.map (placeholderOperand thumb l.address))
        l.address = .ok piece.bytes := by
      unfold emitWithRelocation at hplaceholder
      split at hplaceholder
      · cases hplaceholder
      · split at hplaceholder
        · cases hplaceholder
        · next bytes hbytes =>
          cases hplaceholder
          exact hbytes
    obtain ⟨row, hrow, hlength⟩ := encodeBytes_ok hbytes
    rw [hlength]
    constructor
    · intro hsize
      have hnormal : l.strategy = .normal := by
        cases hs : l.strategy with
        | normal => rfl
        | invertedConditional =>
          simp only [Reserves, hs] at hres
          exact absurd (hres.1.symm.trans hsize) (ofNat_sizeBytes_ne_eight _)
      simp only [Reserves, hnormal] at hres
      refine ⟨?_, ?_, ?_⟩
      · intro reloc' hreloc' hcopied
        cases hreloc.symm.trans hreloc'
        exact absurd hcopied hnotCopied
      · intro symbol' kind' hreloc' _
        refine ⟨hnormal, fun row' hrow' => ?_⟩
        cases hrow.symm.trans hrow'
        exact hres.symm.trans hsize
      · intro hreloc'
        cases hreloc.symm.trans hreloc'
    · intro hkeeps
      obtain ⟨hnormal, hrowSize⟩ := hkeeps.placeholder symbol kind hreloc hnotCopied
      simp only [Reserves, hnormal] at hres
      exact hres.trans (hrowSize row hrow)
  | encoded bytes hreloc hnot hencoded houtput =>
    have hnoSource := (verbatimBytes_eq_none fun _ _ => rfl).mp hnot
    have hpieceLength : piece.bytes.length = bytes.length := by
      rw [houtput]
      rfl
    rw [hpieceLength]
    rcases emitEncoded_eq_ok.mp hencoded with ⟨hnormal, operands, hoperands, hbytes⟩
      | ⟨hwide, _, far, -, -, hbytes⟩
    · obtain ⟨row, hrow, hlength⟩ := encodeBytes_ok hbytes
      simp only [Reserves, hnormal] at hres
      rw [hlength]
      constructor
      · intro hsize
        refine ⟨fun _ _ hcopied => absurd hcopied.1 hnoSource, ?_, ?_⟩
        · intro symbol kind hreloc'
          cases hreloc.symm.trans hreloc'
        · intro _ _ _ operands' hoperands' row' hrow'
          cases hoperands.symm.trans hoperands'
          cases hrow.symm.trans hrow'
          exact hres.symm.trans hsize
      · intro hkeeps
        exact hres.trans (hkeeps.encoded hreloc hnoSource hnormal operands hoperands row hrow)
    · have hlength : bytes.length = 8 := length_encodeWidenedConditional i.mnemonic hbytes
      simp only [Reserves, hwide] at hres
      rw [hlength, hres.1]
      refine ⟨fun _ => ⟨fun _ _ hcopied => absurd hcopied.1 hnoSource, ?_, ?_⟩, fun _ => rfl⟩
      · intro symbol kind hreloc'
        cases hreloc.symm.trans hreloc'
      · intro _ _ hnormal
        rw [hwide] at hnormal
        cases hnormal

/-- An op that is not an instruction is never widened. -/
theorem Reserves.normal {op : ThumbOp} {l : InstructionLayout} (hres : Reserves thumb op l)
    (hop : ∀ i, op ≠ .instruction i) : l.size = thumb.sourceByteSize op := by
  cases hs : l.strategy with
  | normal =>
    simp only [Reserves, hs] at hres
    exact hres
  | invertedConditional =>
    simp only [Reserves, hs] at hres
    obtain ⟨-, i, hi, -⟩ := hres
    exact absurd hi (hop i)

/-- An op that is emitted fits its layout exactly when emit keeps its size. -/
theorem fits_iff {ctx : EmitContext} {op : ThumbOp} {l : InstructionLayout}
    (hres : Reserves thumb op l) {piece : EmitOutput}
    (hpiece : emitOp thumb op l ctx .empty = .ok piece) :
    Fits thumb ctx op l ↔ KeepsReservedSize ctx op l := by
  have hfits : Fits thumb ctx op l ↔ l.size = BitVec.ofNat 64 piece.bytes.length := by
    constructor
    · intro h
      exact h piece hpiece
    · intro h piece' hpiece'
      cases hpiece.symm.trans hpiece'
      exact h
  rw [hfits]
  cases op with
  | instruction i => exact fits_instruction_iff hres hpiece
  | raw bytes =>
    cases hpiece
    rw [Reserves.normal hres (by simp)]
    simp [KeepsReservedSize, Isa.sourceByteSize]
  | macroOp m =>
    have hfused : emitMacro m l.address ctx .empty = .ok piece := by
      simp only [emitOp] at hpiece
      split at hpiece
      · cases hpiece
      · next out hout =>
        cases hpiece
        exact hout
    rw [Reserves.normal hres (by simp), length_emitMacro hfused]
    rfl

/-! ## §5. Branches that are refused. -/

/-- A target is out of reach of a 32-bit unconditional branch. -/
def OutOfFarReach (target address : U64) : Prop :=
  let d := (branchDisplacement target address).toInt
  d % 2 ≠ 0 ∨ d < -2 ^ 24 ∨ 2 ^ 24 ≤ d

theorem findRow_far : findRow 0xf0009000 0xf800d000
    = some ⟨.b, 0xf0009000, 0xf800d000, .word, "b%c.w\t%B%x"⟩ := by decide

theorem findRow_skip : findRow 0xf0008000 0xf800d000
    = some ⟨.b, 0xf0008000, 0xf800d000, .word, "b%22-25c.w\t%b%X"⟩ := by decide

theorem escapes_far :
    escapes "b%c.w\t%B%x" = [.code [] 'c', .code [] 'B', .code [] 'x'] := by rfl

theorem escapes_skip : escapes "b%22-25c.w\t%b%X"
    = [.code ['2', '2', '-', '2', '5'] 'c', .code [] 'b', .code [] 'X'] := by rfl

theorem encodeWide_far (target address : U64) :
    encodeWide 0xf0009000 0xf800d000 [.branchTarget target] address
      = (packBlTarget 0xf0009000 target address 0).map wordBytes := by
  have hwalk : encodeWalk [.branchTarget target] address .word 0xf0009000 0
      [.code [] 'c', .code [] 'B', .code [] 'x']
        = (packBlTarget 0xf0009000 target address 0).map fun word => (word, 1) := by
    rw [encodeWalk, show encodeEscape [.branchTarget target] address .word 0xf0009000 0
      (.code [] 'c') = .ok (0xf0009000, 0) from rfl]
    show encodeWalk [.branchTarget target] address .word 0xf0009000 0
      [.code [] 'B', .code [] 'x'] = _
    rw [encodeWalk, show encodeEscape [.branchTarget target] address .word 0xf0009000 0
      (.code [] 'B') = (packBlTarget 0xf0009000 target address 0 >>= fun word =>
        pure (word, 1)) from rfl]
    cases packBlTarget 0xf0009000 target address 0 <;> rfl
  rw [encodeWide, findRow_far]
  simp only [encodeWithRow, encodeWithFormat, escapes_far, hwalk]
  cases packBlTarget 0xf0009000 target address 0 <;> rfl

/-- The far half of a widened branch is refused for the distance alone. -/
theorem encodeWide_far_error {target address : U64} :
    (∃ e, encodeWide 0xf0009000 0xf800d000 [.branchTarget target] address = .error e ∧
      IsRangeError e) ↔ OutOfFarReach target address := by
  rw [encodeWide_far, packBlTarget]
  unfold OutOfFarReach
  simp only
  split
  · next hout =>
    exact ⟨fun _ => hout, fun _ => ⟨_, rfl, _, _, _, rfl⟩⟩
  · next hin =>
    refine ⟨?_, fun hout => absurd hout hin⟩
    rintro ⟨e, h, -⟩
    cases h

/-- Every branch target of overridden operands is the override. -/
theorem branchTarget_of_overrides {template : List DecodedOperand} {cond : Byte}
    {target address : U64}
    (h : .branchTarget address ∈ buildOperandsWithOverrides template cond target) :
    address = target := by
  unfold buildOperandsWithOverrides at h
  simp only [List.mem_append, List.mem_map] at h
  rcases h with (⟨o, -, ho⟩ | h) | h
  · cases o <;> cases ho
    rfl
  · split at h <;> simp at h
  · split at h <;> simp at h
    exact h

/-- Eight bytes ahead is in reach of a conditional branch. -/
theorem packBCondWideTarget_skip (word : Word) (here : U64) (slot : Nat) :
    ∃ word', packBCondWideTarget word (here + 8) here slot = .ok word' := by
  have hd : branchDisplacement (here + 8) here = 4 := by
    unfold branchDisplacement
    bv_omega
  unfold packBCondWideTarget
  rw [hd]
  exact ⟨_, if_neg (by decide)⟩

theorem operandAt_error {operands : List DecodedOperand} {slot : Nat} {e : EncodeError}
    (h : operandAt operands slot = .error e) : ¬ IsRangeError e := by
  unfold operandAt at h
  split at h <;> cases h
  rintro ⟨_, _, _, h⟩
  cases h

theorem expectCondition_error {operand : DecodedOperand} {slot : Nat} {code : String}
    {e : EncodeError} (h : expectCondition operand slot code = .error e) : ¬ IsRangeError e := by
  unfold expectCondition at h
  split at h <;> cases h
  rintro ⟨_, _, _, h⟩
  cases h

theorem expectBranchTarget_error {operand : DecodedOperand} {slot : Nat} {code : String}
    {e : EncodeError} (h : expectBranchTarget operand slot code = .error e) :
    ¬ IsRangeError e := by
  unfold expectBranchTarget at h
  split at h <;> cases h
  rintro ⟨_, _, _, h⟩
  cases h

/-- The half that skips is never refused for the distance. -/
theorem encodeWide_skip_error {template : List DecodedOperand} {cond : Byte} {here : U64}
    {e : EncodeError} (h : encodeWide 0xf0008000 0xf800d000
      (buildOperandsWithOverrides template cond (here + 8)) here = .error e) :
    ¬ IsRangeError e := by
  have htargets := @branchTarget_of_overrides template cond (here + 8)
  generalize buildOperandsWithOverrides template cond (here + 8) = operands at h htargets
  rw [encodeWide, findRow_skip] at h
  have hpure : ∀ {α β : Type} {x : Except EncodeError α} {f : α → β},
      (x >>= fun a => pure (f a)) = .error e → x = .error e := by
    intro α β x f hx
    rcases bind_eq_error.mp hx with hx | ⟨a, -, hx⟩
    · exact hx
    · cases hx
  replace h := hpure (hpure (hpure h))
  rw [escapes_skip] at h
  -- the condition, then the target, then the hint, which takes no operand
  rcases bind_eq_error.mp h with h | ⟨⟨word, consumed⟩, -, h⟩
  · rcases bind_eq_error.mp h with h | ⟨operand, -, h⟩
    · exact operandAt_error h
    · exact expectCondition_error (hpure h)
  rcases bind_eq_error.mp h with h | ⟨_, -, h⟩
  · rcases bind_eq_error.mp h with h | ⟨operand, hoperand, h⟩
    · exact operandAt_error h
    · have hpack : packFixed [] 'b' operand consumed word here .word = .error e := hpure h
      rcases bind_eq_error.mp hpack with h | ⟨target, htarget, h⟩
      · exact expectBranchTarget_error h
      · have hoverride : target = here + 8 := by
          apply htargets
          unfold operandAt at hoperand
          split at hoperand <;> cases hoperand
          next hget =>
            cases operand <;> cases htarget
            exact List.mem_of_getElem? hget
        rw [hoverride] at h
        obtain ⟨_, hok⟩ := packBCondWideTarget_skip word here consumed
        cases hok.symm.trans h
  · cases h

/-- A widened branch is refused: its skip encodes, and its far half does not reach. -/
def WidenedOutOfReach (template : List DecodedOperand) (here far : U64) : Prop :=
  match takenCondition template with
  | some cond =>
    (∃ skip, encodeWide 0xf0008000 0xf800d000
      (buildOperandsWithOverrides template ((cond ^^^ 1) &&& 0xf) (here + 8)) here = .ok skip) ∧
      OutOfFarReach far (here + 4)
  | none => OutOfFarReach far here

theorem encodeWidenedConditional_range_iff (mnemonic : ThumbMnemonic)
    {template : List DecodedOperand} {here far : U64} :
    (∃ e, encodeWidenedConditional mnemonic template here far = .error e ∧ IsRangeError e) ↔
      WidenedOutOfReach template here far := by
  unfold encodeWidenedConditional WidenedOutOfReach
  cases takenCondition template with
  | some cond =>
    simp only
    rw [← encodeWide_far_error]
    constructor
    · rintro ⟨e, h, hrange⟩
      rcases bind_eq_error.mp h with h | ⟨skip, hskip, h⟩
      · exact absurd hrange (encodeWide_skip_error h)
      · rcases bind_eq_error.mp h with h | ⟨_, -, h⟩
        · exact ⟨⟨skip, hskip⟩, e, h, hrange⟩
        · cases h
    · rintro ⟨⟨skip, hskip⟩, e, h, hrange⟩
      exact ⟨e, bind_eq_error.mpr (.inr ⟨skip, hskip, bind_eq_error.mpr (.inl h)⟩), hrange⟩
  | none =>
    simp only
    rw [← encodeWide_far_error]
    constructor
    · rintro ⟨e, h, hrange⟩
      rcases bind_eq_error.mp h with h | ⟨_, -, h⟩
      · exact ⟨e, h, hrange⟩
      · cases h
    · rintro ⟨e, h, hrange⟩
      exact ⟨e, bind_eq_error.mpr (.inl h), hrange⟩

/-- What emit encodes of an instruction is refused for the distance. -/
def EncodingOutOfReach (ctx : EmitContext) (i : ThumbInstruction) (l : InstructionLayout) : Prop :=
  match l.strategy with
  | .normal =>
    ∃ operands, lowerOperands (E := EncodeError) thumb ctx.blockAddresses ctx.container i.operands
      = .ok operands ∧ RefusedForRange i.mnemonic operands l.address
  | .invertedConditional =>
    ∃ target far, i.pcRelativeTarget = some target ∧
      resolveTarget target ctx.blockAddresses ctx.container = .ok far ∧
      WidenedOutOfReach (lowerOperandsWithPlaceholder i) l.address far

/-- An instruction is refused for the distance: it is not copied, and what
emit encodes instead, a placeholder or its operands, does not reach. -/
def RefusedForDistance (ctx : EmitContext) (i : ThumbInstruction) (l : InstructionLayout) : Prop :=
  ∃ reloc, ctx.relocationOf (E := EncodeError) i = .ok reloc ∧ ¬ IsCopied ctx i l.address reloc ∧
    match reloc with
    | some (_, kind) =>
      (relocationKindFor i.mnemonic kind).isSome ∧
        RefusedForRange i.mnemonic (i.operands.map (placeholderOperand thumb l.address)) l.address
    | none => EncodingOutOfReach ctx i l

/-- Lowering an operand never fails in the encoder. -/
theorem lowerOperands_error {blockAddresses : List U64} {container : Option Container}
    {operands : List (RewriteOperand DecodedOperand)} {e : EncodeError} :
    lowerOperands thumb blockAddresses container operands ≠ .error (.encode e) := by
  induction operands with
  | nil =>
    intro h
    cases h
  | cons operand rest ih =>
    intro h
    rcases bind_eq_error.mp h with h | ⟨head, -, h⟩
    · cases operand with
      | decoded d => cases h
      | branch t =>
        simp only [lowerOperand] at h
        split at h <;> cases h
      | page t =>
        simp only [lowerOperand] at h
        split at h <;> cases h
    · rcases bind_eq_error.mp h with h | ⟨tail, -, h⟩
      · exact ih h
      · cases h

theorem emitEncoded_range_iff {ctx : EmitContext} {i : ThumbInstruction} {l : InstructionLayout} :
    (∃ e, emitEncoded thumb i l ctx = .error (.encode e) ∧ IsRangeError e) ↔
      EncodingOutOfReach ctx i l := by
  unfold emitEncoded EncodingOutOfReach
  cases l.strategy with
  | normal =>
    simp only
    constructor
    · rintro ⟨e, h, hrange⟩
      rcases bind_eq_error.mp h with h | ⟨operands, hoperands, h⟩
      · exact absurd h lowerOperands_error
      · split at h
        · next e' he =>
          cases h
          exact ⟨operands, hoperands, encodeBytes_range_iff.mp ⟨e, he, hrange⟩⟩
        · cases h
    · rintro ⟨operands, hoperands, hrefused⟩
      obtain ⟨e, he, hrange⟩ := encodeBytes_range_iff.mpr hrefused
      have hencode : thumb.encode i.mnemonic operands l.address = .error e := he
      refine ⟨e, bind_eq_error.mpr (.inr ⟨operands, hoperands, ?_⟩), hrange⟩
      rw [hencode]
  | invertedConditional =>
    simp only
    constructor
    · rintro ⟨e, h, hrange⟩
      split at h
      · cases h
      · next target htarget =>
        split at h
        · cases h
        · next far hfar =>
          split at h
          · next e' he =>
            cases h
            exact ⟨target, far, htarget, hfar,
              (encodeWidenedConditional_range_iff i.mnemonic).mp ⟨e, he, hrange⟩⟩
          · cases h
    · rintro ⟨target, far, htarget, hfar, hrefused⟩
      obtain ⟨e, he, hrange⟩ :=
        (encodeWidenedConditional_range_iff i.mnemonic).mpr hrefused
      have hencode : thumb.encodeWidenedConditional i.mnemonic (lowerOperandsWithPlaceholder i)
          l.address far = .error e := he
      refine ⟨e, ?_, hrange⟩
      rw [htarget]
      simp only [hfar, hencode]

theorem emitWithRelocation_range_iff {i : ThumbInstruction} {here : U64} {symbol : SymbolId}
    {kind : PcRelKind} :
    (∃ e, emitWithRelocation thumb i here symbol kind .empty = .error (.encode e) ∧
        IsRangeError e) ↔
      (relocationKindFor i.mnemonic kind).isSome ∧
        RefusedForRange i.mnemonic (i.operands.map (placeholderOperand thumb here)) here := by
  rw [← encodeBytes_range_iff]
  have hkind : thumb.relocationKindFor i.mnemonic kind = relocationKindFor i.mnemonic kind := rfl
  unfold emitWithRelocation
  rw [hkind]
  cases relocationKindFor i.mnemonic kind with
  | none => simp
  | some relocKind =>
    have hencode : thumb.encode i.mnemonic (i.operands.map (placeholderOperand thumb here)) here
        = encodeBytes i.mnemonic (i.operands.map (placeholderOperand thumb here)) here := rfl
    simp only [hencode]
    cases encodeBytes i.mnemonic (i.operands.map (placeholderOperand thumb here)) here with
    | error e => simp
    | ok bytes => simp

/-- An instruction fails for the distance exactly when it is refused for it. -/
theorem emitInstruction_range_iff {ctx : EmitContext} {i : ThumbInstruction}
    {l : InstructionLayout} :
    (∃ e, emitInstruction thumb i l ctx .empty = .error (.encode e) ∧ IsRangeError e) ↔
      RefusedForDistance ctx i l := by
  unfold RefusedForDistance
  cases hreloc : ctx.relocationOf (E := EncodeError) i with
  | error x =>
    constructor
    · rintro ⟨e, h, -⟩
      rcases bind_eq_error.mp h with h | ⟨reloc, hok, -⟩
      · exact absurd h relocationOf_ne_encode
      · cases hreloc.symm.trans hok
    · rintro ⟨reloc, hok, -⟩
      cases hok
  | ok reloc =>
    have hverbatim : (if ctx.isRelocatable && reloc.isSome then none
        else verbatimBytes thumb i l.address ctx.blockAddresses ctx.container) = none
        ↔ ¬ IsCopied ctx i l.address reloc := by
      cases hkeeps : ctx.isRelocatable && reloc.isSome with
      | true => simp [IsCopied, hkeeps]
      | false => simp [IsCopied, hkeeps, verbatimBytes_eq_none fun _ _ => (rfl : thumb.decode _ _ = none)]
    simp only [emitInstruction, hreloc, bind, Except.bind]
    cases hcase : (if ctx.isRelocatable && reloc.isSome then none
        else verbatimBytes thumb i l.address ctx.blockAddresses ctx.container) with
    | some raw =>
      have hcopied : IsCopied ctx i l.address reloc := by
        by_contra hnot
        cases (hverbatim.mpr hnot).symm.trans hcase
      constructor
      · rintro ⟨e, h, -⟩
        cases h
      · rintro ⟨reloc', hok, hnot, -⟩
        cases hok
        exact absurd hcopied hnot
    | none =>
      have hnot := hverbatim.mp hcase
      cases reloc with
      | some r =>
        constructor
        · rintro ⟨e, h, hrange⟩
          exact ⟨some r, rfl, hnot, emitWithRelocation_range_iff.mp ⟨e, h, hrange⟩⟩
        · rintro ⟨reloc', hok, -, hrefused⟩
          cases hok
          exact emitWithRelocation_range_iff.mpr hrefused
      | none =>
        constructor
        · rintro ⟨e, h, hrange⟩
          cases hencoded : emitEncoded thumb i l ctx with
          | error x =>
            simp only [hencoded, Except.error.injEq] at h
            cases h
            exact ⟨none, rfl, hnot, emitEncoded_range_iff.mp ⟨e, hencoded, hrange⟩⟩
          | ok bytes =>
            simp only [hencoded] at h
            cases h
        · rintro ⟨reloc', hok, -, hrefused⟩
          cases hok
          obtain ⟨e, h, hrange⟩ := emitEncoded_range_iff.mpr hrefused
          refine ⟨e, ?_, hrange⟩
          simp only [h]

/-! ## §6. Layout against emit. -/

/-- An instruction branches: one of its operands is a symbolic branch target. -/
def HasBranch (i : ThumbInstruction) : Prop := ∃ target, .branch target ∈ i.operands

/-- Emission fails in the encoder on an instruction that branches. -/
def FailsOnBranch (plan : ThumbPlan) (layout : Layout) (container : Option Container)
    (e : EncodeError) : Prop :=
  ∃ b j i, FailsAt thumb plan layout container b j (.instruction i) (.encode e) ∧ HasBranch i

/-- Every block starts where layout put it. -/
def BlocksStartAsLaidOut (plan : ThumbPlan) (layout : Layout) (container : Option Container)
    (out : EmitOutput) : Prop :=
  ∀ b, b < plan.blocks.length → ∃ before,
    emitBlocks thumb (layout.context container) (plan.blocks.take b)
      (layout.instructionLayouts.take b) .empty = .ok before ∧
    before.bytes <+: out.bytes ∧
    layout.blockAddresses[b]? = some (layout.baseAddress + BitVec.ofNat 64 before.bytes.length)

variable {plan : ThumbPlan} {base : U64} {container : Option Container} {layout : Layout}

/-- **Thumb layout and emit agree** exactly when two things hold.  Emission
fails on no branch for its distance exactly when it comes to no branch whose
encoding is refused for it.  And a successful emission has every op and every
block where layout put it exactly when every op keeps its reserved size. -/
theorem emit_agrees_iff (hlayout : layOut thumb plan base container = .ok layout) :
    ((∀ e, emit thumb plan layout container = .error (.encode e) →
        FailsOnBranch plan layout container e → ¬ IsRangeError e) ↔
      ∀ b j i l, OpAt plan layout b j (.instruction i) l → Reached thumb plan layout container b j →
        HasBranch i → ¬ RefusedForDistance (layout.context container) i l) ∧
    ∀ out, emit thumb plan layout container = .ok out →
      (EmittedAsLaidOut thumb plan layout container out ∧
          BlocksStartAsLaidOut plan layout container out ↔
        ∀ b j op l, OpAt plan layout b j op l →
          KeepsReservedSize (layout.context container) op l) := by
  have hlaid := layOut_laidOut hlayout
  constructor
  · constructor
    · intro h b j i l hat hreached hbranch hrefused
      obtain ⟨e, he, hrange⟩ := emitInstruction_range_iff.mpr hrefused
      have hfails : FailsAt thumb plan layout container b j (.instruction i) (.encode e) :=
        ⟨l, hat, hreached, he⟩
      exact h e ((emit_eq_error_iff thumb_macroFrame hlaid.reserved.shape).mpr ⟨b, j, _, hfails⟩)
        ⟨b, j, i, hfails, hbranch⟩ hrange
    · rintro h e - ⟨b, j, i, ⟨l, hat, hreached, he⟩, hbranch⟩ hrange
      exact h b j i l hat hreached hbranch (emitInstruction_range_iff.mp ⟨e, he, hrange⟩)
  · intro out hemit
    have hfits : AllFit thumb plan layout container ↔ ∀ b j op l, OpAt plan layout b j op l →
        KeepsReservedSize (layout.context container) op l := by
      refine forall_congr' fun b => forall_congr' fun j => forall_congr' fun op =>
        forall_congr' fun l => forall_congr' fun hat => ?_
      obtain ⟨block, ls, hblock, hop, hls, hl⟩ := id hat
      obtain ⟨_, _, piece, -, -, -, hpiece, -⟩ :=
        emit_cut thumb_macroFrame hlaid.reserved.shape hemit hblock hop hls hl
      exact fits_iff (hlaid.reserves_of_opAt hat) hpiece
    rw [← hfits, ← emittedAsLaidOut_iff thumb_macroFrame hlaid hemit, and_iff_left_iff_imp]
    intro hplaced b hb
    exact emit_blockStart thumb_macroFrame hlaid hemit
      ((emittedAsLaidOut_iff thumb_macroFrame hlaid hemit).mp hplaced) hb

/-! ## §7. A branch that loses its width. -/

/-- The plan of swept bytes at 0x1000, without a container. -/
def sweptPlan (bytes : List Byte) : ThumbPlan :=
  thumb.planOf info ((disassembleBytes 0x1000 bytes).toOption.getD []) none

/-- `bl` to the next instruction. -/
def callNext : List Byte := [0x00, 0xf0, 0x00, 0xf8]

/-- `b.w` to the next instruction, and `bx lr`. -/
def branchReturn : List Byte := [0x00, 0xf0, 0x00, 0xb8, 0x70, 0x47]

/-- The call, lifted. -/
def callNextInstruction : ThumbInstruction where
  mnemonic := .bl
  operands := [.branch (.absolute 0x1004), .decoded (.opaqueBits 0x2800 0x7ff2fff)]
  originalAddress := some 0x1000
  sourceSize := some 4

/-- The call lands where layout put it. -/
theorem callNext_inPlace :
    ∃ layout out, layOut thumb (sweptPlan callNext) 0x1000 none = .ok layout ∧
      emit thumb (sweptPlan callNext) layout none = .ok out ∧
      EmittedAsLaidOut thumb (sweptPlan callNext) layout none out := by
  have hplan : sweptPlan callNext = ⟨[⟨⟨0⟩, [.instruction callNextInstruction]⟩]⟩ := by
    decide
  have hlayout : layOut thumb (sweptPlan callNext) 0x1000 none
      = .ok ⟨0x1000, 4, [0x1000], [[⟨0x1000, 4, .normal⟩]]⟩ := by
    rw [hplan]
    rfl
  have hemit : emit thumb (sweptPlan callNext) ⟨0x1000, 4, [0x1000], [[⟨0x1000, 4, .normal⟩]]⟩ none
      = .ok ⟨callNext, []⟩ := by
    rw [hplan]
    decide
  refine ⟨_, _, hlayout, hemit, (((emit_agrees_iff hlayout).2 _ hemit).mpr ?_).1⟩
  rintro b j op l ⟨block, ls, hblock, hop, hls, hl⟩
  rw [hplan] at hblock
  have hfirst : b = 0 := by simpa using (List.getElem?_eq_some_iff.mp hblock).1
  subst hfirst
  cases hblock
  cases hls
  have hfirst : j = 0 := by simpa using (List.getElem?_eq_some_iff.mp hop).1
  subst hfirst
  cases hop
  cases hl
  -- nothing is copied or relocated without a container
  refine ⟨?_, ?_, ?_⟩
  · rintro _ - ⟨⟨_, -, _, _, hcontainer, -⟩, -⟩
    cases hcontainer
  · intro symbol kind hreloc
    cases hreloc
  · intro _ _ _ operands hoperands row hrow
    cases hoperands
    have hwide : (rowFor .bl [.branchTarget 0x1004, .opaqueBits 0x2800 0x7ff2fff] 0x1000).all
        (fun row => row.width == .word) = true := by decide
    have hfound : rowFor .bl [.branchTarget 0x1004, .opaqueBits 0x2800 0x7ff2fff] 0x1000
        = some row := hrow
    rw [hfound] at hwide
    have hword : row.width = .word := by simpa using hwide
    rw [hword]
    rfl

/-- The wide branch is encoded by the first row of its mnemonic, which is a
halfword: what follows it stands two bytes before its layout address. -/
theorem branchReturn_displaced :
    ∃ layout out, (disassembleBytes 0x1000 branchReturn).isOk = true ∧
      layOut thumb (sweptPlan branchReturn) 0x1000 none = .ok layout ∧
      emit thumb (sweptPlan branchReturn) layout none = .ok out ∧
      ¬ EmittedAsLaidOut thumb (sweptPlan branchReturn) layout none out := by
  refine ⟨⟨0x1000, 6, [0x1000, 0x1004], [[⟨0x1000, 4, .normal⟩], [⟨0x1004, 2, .normal⟩]]⟩,
    ⟨[0x00, 0xe8, 0x70, 0x47], []⟩, ?_, ?_, ?_, ?_⟩
  · decide
  · decide
  · decide
  · rintro ⟨htotal, -⟩
    revert htotal
    decide

end Thumb

end Armv8Encode.Armv7

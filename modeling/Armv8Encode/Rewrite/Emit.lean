/-
  Armv8Encode.Rewrite.Emit — emit a laid-out plan back into bytes.

  Every op appends its bytes, and possibly relocations, to one output.  An
  instruction goes one of four ways: its source bytes are copied verbatim, it
  becomes a relocation placeholder, it is encoded normally, or it is encoded
  in the widened form the layout chose.

  The file ends with the frame property of emit: what an op appends does not
  depend on what was emitted before it (`emitOp_append`), except that the
  offset of a relocation counts from the start of the output.
-/
import Armv8Encode.Rewrite.Layout

namespace Armv8Encode

/-! ## §1. Errors and lookups. -/

inductive EmitError (E : Type) where
  | encode (e : E)
  | layout (e : LayoutError)
  | invalidWidening
  | missingWideningTarget
  | noRelocationForMnemonic
  | malformedMacro
  deriving Repr, DecidableEq

def EmitError.ofMacro {E : Type} : MacroEmitError E → EmitError E
  | .encode e => .encode e
  | .malformed => .malformedMacro
  | .noRelocationForMnemonic => .noRelocationForMnemonic
  | .indexOutOfBounds => .layout .indexOutOfBounds

/-- The first `n` bytes, when there are that many. -/
def takeExact (n : Nat) (bytes : List Byte) : Option (List Byte) :=
  if n ≤ bytes.length then some (bytes.take n) else none

/-- The bytes of a section from an absolute address on. -/
def Section.tailAt (s : Section) (address : U64) : Option (List Byte) :=
  if s.address ≤ address ∧ (address - s.address).toNat ≤ s.bytes.length then
    some (s.bytes.drop (address - s.address).toNat)
  else none

/-- The text section an address lies in, with its bytes from there on. -/
def Container.textTailAt (c : Container) (address : U64) : Option (List Byte) := do
  let id ← c.sectionForAddress address
  let s ← c.sectionOf id
  if s.kind = .text then s.tailAt address else none

/-- Whether a reference to a symbol must stay a relocation instead of being
folded into a displacement; `none` where the source panics on the id. -/
def symbolNeedsRelocation (c : Container) (id : SymbolId) (currentSection : Option SectionId) :
    Option Bool := do
  let symbol ← c.symbol id
  if symbol.isUndefined then
    pure !((c.pltStub id).isSome || (c.machoStub id).isSome)
  else
    match currentSection with
    | none => pure false
    | some current =>
      if symbol.kind = .sectionSymbol then pure true
      else
        match symbol.sectionId with
        | none => pure false
        | some symbolSection =>
          if symbolSection = current then pure false
          else
            let address := ((c.sections.find? (fun s => s.id == current)).map
              Section.address).getD 0
            pure (address == 0)

variable {Mn Rg Op E Mk Di : Type}

/-- The symbolic target of an operand, with the kind of its field. -/
def RewriteOperand.symbolic? : RewriteOperand Op → Option (Target × PcRelKind)
  | .decoded _ => none
  | .branch t => some (t, .branch)
  | .page t => some (t, .page)

/-- The first symbolic operand that must be emitted as a relocation. -/
def needsRelocationIn (c : Container) (currentSection : Option SectionId) :
    List (RewriteOperand Op) → Except (EmitError E) (Option (SymbolId × PcRelKind))
  | [] => .ok none
  | operand :: rest =>
    match operand.symbolic? with
    | some (.symbol id, kind) =>
      match symbolNeedsRelocation c id currentSection with
      | none => .error (.layout .indexOutOfBounds)
      | some true => .ok (some (id, kind))
      | some false => needsRelocationIn c currentSection rest
    | _ => needsRelocationIn c currentSection rest

def needsRelocation (i : RewriteInstruction Mn Op) (container : Option Container)
    (currentSection : Option SectionId) :
    Except (EmitError E) (Option (SymbolId × PcRelKind)) :=
  match container with
  | none => .ok none
  | some c => needsRelocationIn c currentSection i.operands

/-! ## §2. Verbatim copies. -/

section

variable [DecidableEq Mn] [DecidableEq Op] (I : Isa Mn Rg Op E Mk Di)

/-- An operand is unmodified: a plain one equals the decoded one, a symbolic
one still resolves to where the decoded one points. -/
def operandUnmodified (blockAddresses : List U64) (c : Container) (d : Op) :
    RewriteOperand Op → Bool
  | .decoded o => decide (o = d)
  | .branch t =>
    match I.pcrelKind d with
    | some (.branch, address) =>
      decide ((resolveTarget t blockAddresses (some c)).toOption = some address)
    | _ => false
  | .page t =>
    match I.pcrelKind d with
    | some (.page, address) =>
      decide ((resolveTarget t blockAddresses (some c)).toOption = some address)
    | _ => false

/-- Same operand count, and every operand unmodified. -/
def operandsUnmodified (blockAddresses : List U64) (c : Container) :
    List Op → List (RewriteOperand Op) → Bool
  | [], [] => true
  | d :: ds, r :: rs =>
    operandUnmodified I blockAddresses c d r && operandsUnmodified blockAddresses c ds rs
  | _, _ => false

/-- The source bytes of an instruction whose IR still matches them. -/
def verbatimBytes (i : RewriteInstruction Mn Op) (emitAddress : U64) (blockAddresses : List U64)
    (container : Option Container) : Option (List Byte) := do
  let original ← i.originalAddress
  let c ← container
  let tail ← c.textTailAt original
  match I.decode original tail with
  | none =>
    -- an undecodable source word is only copied at its own address
    if original ≠ emitAddress then none
    else takeExact (I.instructionSourceSize i.mnemonic).toNat tail
  | some decoded =>
    if I.decodedMnemonic decoded ≠ i.mnemonic then none
    else if !operandsUnmodified I blockAddresses c (I.decodedOperands decoded) i.operands then none
    else if original ≠ emitAddress
        ∧ (I.decodedOperands decoded).any (fun o => (I.pcrelKind o).isSome) then none
    else takeExact (I.decodedSize decoded).toNat tail

/-! ## §3. Operand lowering. -/

def lowerOperand (blockAddresses : List U64) (container : Option Container) :
    RewriteOperand Op → Except (EmitError E) Op
  | .decoded d => .ok d
  | .branch t =>
    match resolveTarget t blockAddresses container with
    | .ok address => .ok (I.makePcrelOperand .branch address)
    | .error e => .error (.layout e)
  | .page t =>
    match resolveTarget t blockAddresses container with
    | .ok address => .ok (I.makePcrelOperand .page address)
    | .error e => .error (.layout e)

def lowerOperands (blockAddresses : List U64) (container : Option Container) :
    List (RewriteOperand Op) → Except (EmitError E) (List Op)
  | [] => .ok []
  | o :: rest => do
    let head ← lowerOperand I blockAddresses container o
    let tail ← lowerOperands blockAddresses container rest
    pure (head :: tail)

/-- The plain operands; the widening encoder supplies the branch target. -/
def lowerOperandsWithPlaceholder (i : RewriteInstruction Mn Op) : List Op :=
  i.operands.filterMap fun
    | .decoded d => some d
    | _ => none

/-- Operands of a relocation placeholder: every target points back at `here`. -/
def placeholderOperand (here : U64) : RewriteOperand Op → Op
  | .decoded d => d
  | .branch _ => I.makePcrelOperand .branch here
  | .page _ => I.makePcrelOperand .page (here &&& ~~~ 0xfff#64)

/-! ## §4. Emitting one op. -/

def emitWithRelocation (i : RewriteInstruction Mn Op) (here : U64) (symbol : SymbolId)
    (kind : PcRelKind) (out : EmitOutput) : Except (EmitError E) EmitOutput :=
  match I.relocationKindFor i.mnemonic kind with
  | none => .error .noRelocationForMnemonic
  | some relocKind =>
    match I.encode i.mnemonic (i.operands.map (placeholderOperand I here)) here with
    | .error e => .error (.encode e)
    | .ok bytes =>
      .ok
        { bytes := out.bytes ++ bytes
          relocations := out.relocations ++
            [⟨BitVec.ofNat 64 out.bytes.length, relocKind, symbol, 0⟩] }

/-- Encode an instruction at its layout address, in the form layout chose. -/
def emitEncoded (i : RewriteInstruction Mn Op) (l : InstructionLayout) (ctx : EmitContext) :
    Except (EmitError E) (List Byte) :=
  match l.strategy with
  | .normal => do
    let operands ← lowerOperands I ctx.blockAddresses ctx.container i.operands
    match I.encode i.mnemonic operands l.address with
    | .error e => .error (.encode e)
    | .ok bytes => .ok bytes
  | .invertedConditional =>
    match i.pcRelativeTarget with
    | none => .error .missingWideningTarget
    | some target =>
      match resolveTarget target ctx.blockAddresses ctx.container with
      | .error e => .error (.layout e)
      | .ok targetAddress =>
        match I.encodeWidenedConditional i.mnemonic (lowerOperandsWithPlaceholder i) l.address
            targetAddress with
        | .error e => .error (.encode e)
        | .ok bytes => .ok bytes

/-- The relocation, if any, that an instruction is emitted as. -/
def EmitContext.relocationOf (ctx : EmitContext) (i : RewriteInstruction Mn Op) :
    Except (EmitError E) (Option (SymbolId × PcRelKind)) :=
  needsRelocation i ctx.container ctx.currentSection

def EmitContext.isRelocatable (ctx : EmitContext) : Bool :=
  ctx.container.any (fun c => decide (c.kind = .relocatable))

def emitInstruction (i : RewriteInstruction Mn Op) (l : InstructionLayout) (ctx : EmitContext)
    (out : EmitOutput) : Except (EmitError E) EmitOutput := do
  let reloc ← ctx.relocationOf i
  -- a relocatable object keeps a reference that needs a relocation
  let verbatim :=
    if ctx.isRelocatable && reloc.isSome then none
    else verbatimBytes I i l.address ctx.blockAddresses ctx.container
  match verbatim with
  | some raw => pure { out with bytes := out.bytes ++ raw }
  | none =>
    match reloc with
    | some (symbol, kind) => emitWithRelocation I i l.address symbol kind out
    | none =>
      let bytes ← emitEncoded I i l ctx
      pure { out with bytes := out.bytes ++ bytes }

def emitOp (op : RewriteOp Mn Rg Op Mk) (l : InstructionLayout) (ctx : EmitContext)
    (out : EmitOutput) : Except (EmitError E) EmitOutput :=
  match op with
  | .instruction i => emitInstruction I i l ctx out
  | .macroOp m =>
    match I.emitMacro m l.address ctx out with
    | .error e => .error (.ofMacro e)
    | .ok out' => .ok out'
  | .raw bytes => .ok { out with bytes := out.bytes ++ bytes }

/-! ## §5. Emitting a plan. -/

def emitOps (ctx : EmitContext) :
    List (RewriteOp Mn Rg Op Mk) → List InstructionLayout → EmitOutput →
      Except (EmitError E) EmitOutput
  | [], _, out => .ok out
  | _ :: _, [], _ => .error (.layout .indexOutOfBounds)
  | op :: ops, l :: ls, out => do
    let out' ← emitOp I op l ctx out
    emitOps ctx ops ls out'

def emitBlocks (ctx : EmitContext) :
    List (RewriteBlock Mn Rg Op Mk) → List (List InstructionLayout) → EmitOutput →
      Except (EmitError E) EmitOutput
  | [], _, out => .ok out
  | block :: blocks, [], out =>
    if block.ops.isEmpty then emitBlocks ctx blocks [] out
    else .error (.layout .indexOutOfBounds)
  | block :: blocks, ls :: rest, out => do
    let out' ← emitOps I ctx block.ops ls out
    emitBlocks ctx blocks rest out'

/-- The section being re-emitted: the first non-empty one at the base address. -/
def currentSectionAt (container : Option Container) (base : U64) : Option SectionId :=
  container.bind (fun c =>
    (c.sections.find? (fun s => decide (0 < s.size) && s.address == base)).map Section.id)

/-- What every op of a plan is emitted against. -/
def Layout.context (layout : Layout) (container : Option Container) : EmitContext where
  blockAddresses := layout.blockAddresses
  container := container
  currentSection := currentSectionAt container layout.baseAddress

/-- Emit a plan according to a layout. -/
def emit (plan : RewritePlan Mn Rg Op Mk) (layout : Layout) (container : Option Container) :
    Except (EmitError E) EmitOutput :=
  emitBlocks I (layout.context container) plan.blocks layout.instructionLayouts .empty

end

end Armv8Encode

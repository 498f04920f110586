/-
  Armv8Encode.Isa.Aarch64.IsaImpl — AArch64 as an instance of `Isa`.
-/
import Armv8Encode.Isa.Aarch64.ControlFlow
import Armv8Encode.Isa.Aarch64.Sweep
import Armv8Encode.Isa.Aarch64.MacroEmit

namespace Armv8Encode

open Lib

/-- Decode the word at the head of a byte string. -/
def aarchDecode (address : U64) (bytes : List Byte) : Option DecodedInstruction := do
  let word ← leWord? bytes
  (decodeInstruction address word).toOption

def aarchPcrelKind : DecodedOperand → Option (PcRelKind × U64)
  | .branchTarget address => some (.branch, address)
  | .pageTarget address => some (.page, address)
  | _ => none

def aarchMakePcrelOperand : PcRelKind → U64 → DecodedOperand
  | .branch, address => .branchTarget address
  | .page, address => .pageTarget address

def aarchEncode (mnemonic : Aarch64Mnemonic) (operands : List DecodedOperand) (address : U64) :
    Except EncodeError (List Byte) := do
  let word ← encodeInstruction ⟨address, mnemonic, operands⟩
  pure (toLeBytes word)

/-- Point the branch operand of a widened conditional at the skip address. -/
def skipOperand (skip : U64) : DecodedOperand → DecodedOperand
  | .branchTarget _ => .branchTarget skip
  | other => other

/-- Operands of the inverted branch: retargeted, or with the target appended
when the template has none. -/
def invertedOperands (template : List DecodedOperand) (skip : U64) : List DecodedOperand :=
  let operands := template.map (skipOperand skip)
  if operands.any (fun o => match o with | .branchTarget _ => true | _ => false) then operands
  else operands ++ [.branchTarget skip]

/-- The inverted branch over a skip of eight bytes, then a far `b`. -/
def aarchEncodeWidenedConditional (mnemonic : Aarch64Mnemonic) (template : List DecodedOperand)
    (here farTarget : U64) : Except EncodeError (List Byte) :=
  match mnemonic.invertConditionalBranch with
  | none => .error .notConditional
  | some inverted => do
    let invertedWord ← encodeInstruction ⟨here, inverted, invertedOperands template (here + 8)⟩
    let farWord ← encodeInstruction ⟨here + 4, .b, [.branchTarget farTarget]⟩
    pure (toLeBytes invertedWord ++ toLeBytes farWord)

def aarchRelocationKindFor (mnemonic : Aarch64Mnemonic) (kind : PcRelKind) :
    Option RelocationKind :=
  match kind with
  | .page => if mnemonic = .adrp then some .adrpPage21 else none
  | .branch =>
    match mnemonic with
    | .b | .bl => some .branch26
    | .beq | .bne | .bcs | .bcc | .bmi | .bpl | .bvs | .bvc | .bhi | .bls | .bge | .blt | .bgt
    | .ble | .cbz | .cbnz => some .branch19
    | .tbz | .tbnz => some .branch14
    | _ => none

def aarchIsPcRelativeRelocation : RelocationKind → Bool
  | .branch26 | .branch19 | .branch14 | .adrpPage21 => true
  | _ => false

def aarchIsLiftRelevantRelocation : RelocationKind → Bool
  | .branch26 | .branch19 | .branch14 | .adrpPage21 | .addPageOffset12
  | .loadStorePageOffset12 _ => true
  | _ => false

/-- AArch64: every instruction is four bytes. -/
def aarch64 : Isa Aarch64Mnemonic Register DecodedOperand EncodeError AarchMacroKind
    DecodedInstruction where
  decodedAddress := DecodedInstruction.address
  decodedMnemonic := DecodedInstruction.mnemonic
  decodedOperands := DecodedInstruction.operands
  decodedSize := fun _ => 4
  decode := aarchDecode
  pcrelKind := aarchPcrelKind
  makePcrelOperand := aarchMakePcrelOperand
  pcrelRangeBytes := Aarch64Mnemonic.pcrelRangeBytes
  invertConditionalBranch := Aarch64Mnemonic.invertConditionalBranch
  widenedConditionalSize := 8
  widenedConditionalRange := 128 * 1024 * 1024
  encode := aarchEncode
  encodeWidenedConditional := aarchEncodeWidenedConditional
  relocationKindFor := aarchRelocationKindFor
  isPcRelativeRelocation := aarchIsPcRelativeRelocation
  isLiftRelevantRelocation := aarchIsLiftRelevantRelocation
  fuseMacros := fun instructions blocks container relocations =>
    fuseMacros blocks container relocations instructions
  instructionSourceSize := fun _ => 4
  emitMacro := emitAarchMacro

end Armv8Encode

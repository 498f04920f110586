/-
  Armv8Encode.Isa.Aarch64.Table — matching words against the opcode table.

  `matchOpcode` walks the whole table and keeps the best row so far: a row
  is a candidate when the word carries its fixed bits and the row's alias
  condition holds, and `shouldReplaceMatch` ranks two candidates.

  A walk over 1208 rows cannot be unfolded for a symbolic word;
  `Aarch64.TableFacts` decides it from known bits.
-/
import Armv8Encode.Isa.Aarch64.TableRows

namespace Armv8Encode

open Lib

/-! ## §1. Alias conditions. -/

/-- Structure digit selected by bits 15:12 of an AdvSIMD multi-structure
load or store. -/
def simdLdstListDigit (w : Word) : Option Char :=
  match (field w 12 4).toNat with
  | 0b0000 => some '4'
  | 0b0010 => some '1'
  | 0b0100 => some '3'
  | 0b0110 => some '1'
  | 0b0111 => some '1'
  | 0b1000 => some '2'
  | 0b1010 => some '1'
  | _ => none

/-- Number of registers listed by an AdvSIMD multi-structure load or store. -/
def simdLdstListCount (w : Word) : Option Nat :=
  match (field w 12 4).toNat with
  | 0b0000 => some 4
  | 0b0010 => some 4
  | 0b0100 => some 3
  | 0b0110 => some 3
  | 0b0111 => some 1
  | 0b1000 => some 2
  | 0b1010 => some 2
  | _ => none

/-- The fields op1, CRn, CRm, op2 of a system instruction. -/
def systemOpFields (w : Word) : Word × Word × Word × Word :=
  (field w 16 3, field w 12 4, field w 8 4, field w 5 3)

namespace Aarch64Opcode

def isBitfieldAlias (row : Aarch64Opcode) : Bool := row.mask == 0x7f800000#32

/-- Whether an alias row may stand for this word. -/
def aliasApplies (w : Word) (row : Aarch64Opcode) : Bool :=
  let immr := field w 16 6
  let imms := field w 10 6
  let sf := w.getLsbD 31
  let max := if sf then 63#32 else 31#32
  match row.name with
  | "ubfiz" | "sbfiz" | "bfi" => imms < immr
  | "ubfx" | "sbfx" | "bfxil" => immr ≤ imms
  | "lsl" => if row.isBitfieldAlias then imms + 1 == immr else true
  | "lsr" | "asr" => if row.isBitfieldAlias then imms == max else true
  | "ror" => if row.iclass = .extract then field w 5 5 == field w 16 5 else true
  | "sxtl" | "sxtl2" | "uxtl" | "uxtl2" => false
  | "cinc" | "cinv" =>
    if row.iclass = .condsel then field w 5 5 == field w 16 5 && field w 5 5 != 31#32 else true
  | "cneg" => if row.iclass = .condsel then field w 5 5 == field w 16 5 else true
  | "at" => systemOpFields w == (0, 7, 8, 0)
  | "dc" => systemOpFields w == (3, 7, 4, 1)
  | "ic" => systemOpFields w == (3, 7, 5, 1) || systemOpFields w == (0, 7, 5, 0)
  | "tlbi" => systemOpFields w == (0, 8, 7, 5) || systemOpFields w == (0, 8, 7, 0)
  | "ld1" | "st1" | "ld2" | "st2" | "ld3" | "st3" | "ld4" | "st4" =>
    if row.iclass = .asisdlse ∨ row.iclass = .asisdlsep then
      match simdLdstListDigit w with
      | some d => row.name.toList.getLast? == some d
      | none => false
    else true
  | _ => true

/-! ## §2. Ranking two matches. -/

def countOnes (w : Word) : Nat := (List.range 32).countP w.getLsbD

def isVariableShiftAlias (current candidate : String) : Bool :=
  match current, candidate with
  | "lslv", "lsl" | "lsrv", "lsr" | "asrv", "asr" | "rorv", "ror" => true
  | _, _ => false

/-- The order of tests after the mask sizes and conversion flags tie. -/
def shouldReplaceTied (current candidate : Aarch64Opcode) : Bool :=
  if isVariableShiftAlias current.name candidate.name then true
  else if current.name == "sys" && ["at", "dc", "ic", "tlbi"].contains candidate.name then true
  else if current.name == "umov" && candidate.name == "mov"
      && candidate.iclass == .asimdins then true
  else if current.name == "ins" && candidate.name == "mov"
      && candidate.iclass == .asimdins then true
  else if candidate.isAlias != current.isAlias then !candidate.isAlias
  else false

/-- Whether a later matching row replaces the best one so far. -/
def shouldReplaceMatch (current candidate : Aarch64Opcode) : Bool :=
  let currentBits := countOnes current.mask
  let candidateBits := countOnes candidate.mask
  if candidateBits != currentBits then decide (currentBits < candidateBits)
  else if candidate.isConversionAlias != current.isConversionAlias then
    if candidate.isConversionAlias && !current.isAlias && candidate.iclass != current.iclass
    then false
    else candidate.isConversionAlias
  else if candidate.isConversionAlias && current.isConversionAlias then true
  else shouldReplaceTied current candidate

/-! ## §3. The walk. -/

/-- The word carries the fixed bits of the row. -/
def maskMatches (w : Word) (row : Aarch64Opcode) : Bool :=
  w &&& row.mask == row.opcode &&& row.mask

/-- One step of the walk: keep or replace the best row so far. -/
def matchStep (w : Word) (best : Option Aarch64Opcode) (row : Aarch64Opcode) :
    Option Aarch64Opcode :=
  if !row.maskMatches w then best
  else if !row.aliasApplies w then best
  else
    match best with
    | none => some row
    | some current => if shouldReplaceMatch current row then some row else best

end Aarch64Opcode

open Aarch64Opcode

/-- The best matching row of the table. -/
def matchOpcode (w : Word) : Option Aarch64Opcode :=
  aarch64OpcodeTable.foldl (matchStep w) none

/-- Rows whose name stands for a mnemonic, in table order. -/
def opcodesForMnemonic (mnemonic : Aarch64Mnemonic) : List Aarch64Opcode :=
  aarch64OpcodeTable.filter (fun row => row.mnemonicId == mnemonic)

end Armv8Encode

/-
  Armv8Encode.Isa.Armv7.Format — the escapes of a format string.

  A row of the opcode tables says by a format string how its operands are
  written.  The decoders and the encoders walk that string in one way: an
  escape is a percent sign, an optional bit range, and a letter; a display
  wrapper holds further escapes between braces; conditional characters are
  skipped.  What a letter means is up to the walker.
-/
import Armv8Encode.Lib.Words

namespace Armv8Encode.Armv7

/-! ## §1. Escapes. -/

inductive Escape where
  /-- A letter with the bit range before it. -/
  | code (bitfield : List Char) (letter : Char)
  /-- A display wrapper, whose escapes bear operands too. -/
  | wrapper (inner : List Escape)
  deriving Repr

/-- The text of a wrapper up to its closing mark, and the text behind the mark. -/
def splitAtClose : List Char → Option (List Char × List Char)
  | '%' :: '\x7d' :: rest => some ([], rest)
  | c :: rest => (splitAtClose rest).map fun p => (c :: p.1, p.2)
  | [] => none

/-- Without a closing mark the source's scan stops one character early. -/
def closeWrapper (body : List Char) : List Char × List Char :=
  (splitAtClose body).getD (body.dropLast, [])

def isBitfieldChar (c : Char) : Bool := c.isDigit || c == '-'

/-- The escapes of a text, with fuel for its length.  A wrapper's text starts
with a tag of two characters. -/
def escapesOf : Nat → List Char → List Escape
  | 0, _ => []
  | _ + 1, [] => []
  | _ + 1, ['%'] => []
  | fuel + 1, '%' :: '\x7b' :: body =>
    .wrapper (escapesOf fuel ((closeWrapper body).1.drop 2))
      :: escapesOf fuel (closeWrapper body).2
  | fuel + 1, '%' :: rest =>
    match rest.dropWhile isBitfieldChar with
    | [] => []
    -- a character printed only if a bit, or no bit, is set
    | '\x27' :: tail => escapesOf fuel (tail.drop 1)
    | '\x60' :: tail => escapesOf fuel (tail.drop 1)
    -- one of two characters
    | '?' :: tail => escapesOf fuel (if 2 ≤ tail.length then tail.drop 2 else tail)
    | letter :: tail => .code (rest.takeWhile isBitfieldChar) letter :: escapesOf fuel tail
  | fuel + 1, _ :: rest => escapesOf fuel rest

/-- The bytes of a format string, all of them ASCII, as characters. -/
def formatBytes (format : String) : List Char :=
  format.toByteArray.data.toList.map fun b => Char.ofNat b.toNat

/-- The escapes of a format string. -/
def escapes (format : String) : List Escape :=
  escapesOf ((formatBytes format).length + 1) (formatBytes format)

/-! ## §2. Bit ranges. -/

/-- A decimal number below 256. -/
def parseU8 (text : List Char) : Option Nat :=
  if text.isEmpty || !text.all Char.isDigit then none
  else
    let value := text.foldl (fun n c => 10 * n + (c.toNat - '0'.toNat)) 0
    if value < 256 then some value else none

/-- The lowest and the highest bit of a range. -/
def parseBitfield (text : List Char) : Option (Nat × Nat) :=
  if text.isEmpty then none
  else
    match text.dropWhile (· != '-') with
    | [] => (parseU8 text).map fun n => (n, n)
    | _ :: high => do
      let lo ← parseU8 (text.takeWhile (· != '-'))
      let hi ← parseU8 high
      if hi < lo then none else some (lo, hi)

theorem parseBitfield_le {text : List Char} {lo hi : Nat}
    (h : parseBitfield text = some (lo, hi)) : lo ≤ hi := by
  unfold parseBitfield at h
  split at h
  · cases h
  split at h
  · obtain ⟨n, _, hn⟩ := Option.map_eq_some_iff.mp h
    cases hn
    exact Nat.le_refl lo
  · obtain ⟨l, _, h⟩ := Option.bind_eq_some_iff.mp h
    obtain ⟨k, _, h⟩ := Option.bind_eq_some_iff.mp h
    split at h
    · cases h
    · cases h
      omega

example : escapes "ldr%c\t%8-10r, [%\x7bR:pc%\x7d, %\x7bI:#%0-7W%\x7d]"
    = [.code [] 'c', .code ['8', '-', '1', '0'] 'r', .wrapper [],
        .wrapper [.code ['0', '-', '7'] 'W']] := by rfl

end Armv8Encode.Armv7

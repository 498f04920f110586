/-
  Armv8Encode.Isa.Aarch64.Sweep — linear-sweep disassembly.

  A byte string is read word by word, each word at its own address.  The
  strict sweep stops at the first word that does not decode; the tolerant one
  puts a `nop` placeholder in its place and records the address and word.
-/
import Armv8Encode.Isa.Aarch64.Encode

namespace Armv8Encode

open Lib

inductive DisassembleError where
  | unalignedLength (length : Nat)
  | decodeFailed (address : U64) (word : Word) (source : DecodeError)
  deriving Repr, DecidableEq

/-- The little-endian words of a byte string; a rest shorter than four bytes
is dropped. -/
def chunkWords : List Byte → List Word
  | b0 :: b1 :: b2 :: b3 :: rest => fromLeBytes b0 b1 b2 b3 :: chunkWords rest
  | _ => []

/-- Decode consecutive words from an address on, failing fast. -/
def disassembleWords (address : U64) : List Word → Except DisassembleError (List DecodedInstruction)
  | [] => .ok []
  | word :: words =>
    match decodeInstruction address word with
    | .error e => .error (.decodeFailed address word e)
    | .ok instruction => do
      let rest ← disassembleWords (address + 4) words
      pure (instruction :: rest)

/-- Decode every instruction of a byte string. -/
def disassembleBytes (base : U64) (bytes : List Byte) :
    Except DisassembleError (List DecodedInstruction) :=
  if bytes.length % 4 ≠ 0 then .error (.unalignedLength bytes.length)
  else disassembleWords base (chunkWords bytes)

/-- What stands for an undecodable word; the original word is retained. -/
def placeholderNop (address : U64) (word : Word) : DecodedInstruction :=
  ⟨address, word, .nop, []⟩

/-- The instruction a tolerant sweep produces for a word. -/
def decodeTolerant (address : U64) (word : Word) : DecodedInstruction :=
  match decodeInstruction address word with
  | .ok instruction => instruction
  | .error _ => placeholderNop address word

theorem decodeTolerant_of_ok {address : U64} {word : Word} {instruction : DecodedInstruction}
    (h : decodeInstruction address word = .ok instruction) :
    decodeTolerant address word = instruction := by
  unfold decodeTolerant
  rw [h]

theorem decodeTolerant_of_error {address : U64} {word : Word} {e : DecodeError}
    (h : decodeInstruction address word = .error e) :
    decodeTolerant address word = placeholderNop address word := by
  unfold decodeTolerant
  rw [h]

/-- Decode consecutive words from an address on, with placeholders. -/
def sweepWords (address : U64) : List Word → List DecodedInstruction
  | [] => []
  | word :: words => decodeTolerant address word :: sweepWords (address + 4) words

/-- The addresses and words that a tolerant sweep could not decode. -/
def undecodableWords (address : U64) : List Word → List (U64 × Word)
  | [] => []
  | word :: words =>
    match decodeInstruction address word with
    | .ok _ => undecodableWords (address + 4) words
    | .error _ => (address, word) :: undecodableWords (address + 4) words

/-- Best-effort sweep: the stream and what could not be decoded. -/
def disassembleBytesTolerant (base : U64) (bytes : List Byte) :
    Except DisassembleError (List DecodedInstruction × List (U64 × Word)) :=
  if bytes.length % 4 ≠ 0 then .error (.unalignedLength bytes.length)
  else .ok (sweepWords base (chunkWords bytes), undecodableWords base (chunkWords bytes))

end Armv8Encode

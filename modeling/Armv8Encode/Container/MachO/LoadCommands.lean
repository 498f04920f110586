/-
  Armv8Encode.Container.MachO.LoadCommands — edits of the load commands in place.

  The commands stand behind the 32 bytes of the header, one behind the other;
  `ncmds` and `sizeofcmds` in the header count them and their bytes.  What
  follows is headerpad: zeros up to the first content of the file.  Adding a
  command takes its bytes from the headerpad and removing one gives them back,
  so nothing behind moves.

  Counts are 32-bit numbers and wrap around.  A slice out of the file's bounds
  is `outOfRange`, where the source panics.
-/
import Armv8Encode.Lib.Bytes

namespace Armv8Encode.MachO

open Lib

/-! ## §1. The walk. -/

def lcLoadDylib : Nat := 0xc
def lcLoadWeakDylib : Nat := 0x80000018
def lcReexportDylib : Nat := 0x8000001f
def lcLoadUpwardDylib : Nat := 0x80000023
def lcCodeSignature : Nat := 0x1d

def headerSize : Nat := 32

inductive LoadCommandError where
  /-- Input too short for the header. -/
  | tooShort (pass : String)
  | invalidCmdsize (pass : String) (cmdsize offset : Nat)
  | outOfRange
  deriving Repr, DecidableEq

def readU32 (bytes : List Byte) (offset : Nat) : Except LoadCommandError Nat :=
  match readLe 4 bytes offset with
  | some value => .ok value
  | none => .error .outOfRange

/-- From a cursor on, command by command, until a visit takes one or no
command fits any more. -/
def walkCommands {α : Type} (bytes : List Byte) (lcEnd : Nat) (pass : String)
    (visit : Nat → Nat → Nat → Except LoadCommandError (Option α)) (cursor : Nat) :
    Except LoadCommandError (Option α) :=
  if cursor + 8 ≤ lcEnd then
    match readU32 bytes cursor, readU32 bytes (cursor + 4) with
    | .ok cmd, .ok cmdsize =>
      if _h : cmdsize = 0 ∨ lcEnd < cursor + cmdsize then
        .error (.invalidCmdsize pass cmdsize cursor)
      else
        match visit cursor cmd cmdsize with
        | .ok none => walkCommands bytes lcEnd pass visit (cursor + cmdsize)
        | taken => taken
    | _, _ => .error .outOfRange
  else .ok none
termination_by lcEnd - cursor
decreasing_by omega

/-- The two counts of the header. -/
def headerCounts (pass : String) (bytes : List Byte) : Except LoadCommandError (Nat × Nat) := do
  if bytes.length < 24 then throw (.tooShort pass)
  let ncmds ← readU32 bytes 16
  let sizeofcmds ← readU32 bytes 20
  return (ncmds, sizeofcmds)

def setHeaderCounts (bytes : List Byte) (ncmds sizeofcmds : Nat) : List Byte :=
  patch (patch bytes 16 (leBytes 4 ncmds)) 20 (leBytes 4 sizeofcmds)

/-! ## §2. Adding dylib commands. -/

/-- In front of the code signature's command, or behind the last command. -/
def findInsertOffsetForLc (bytes : List Byte) (lcStart lcEnd : Nat) :
    Except LoadCommandError Nat := do
  let found ← walkCommands bytes lcEnd "append"
    (fun cursor cmd _ => .ok (if cmd = lcCodeSignature then some cursor else none)) lcStart
  return found.getD lcEnd

/-- A fixed part of 24 bytes, the path and its NUL, up to a multiple of eight. -/
def dylibCommandSize (path : List Byte) : Nat := (24 + path.length + 1 + 7) / 8 * 8

def buildDylibCommand (path : List Byte) : List Byte :=
  leBytes 4 lcLoadDylib ++ leBytes 4 (dylibCommandSize path) ++ leBytes 4 24 ++ leBytes 4 2 ++
    leBytes 4 0x10000 ++ leBytes 4 0x10000 ++ path ++
    List.replicate (dylibCommandSize path - (24 + path.length)) 0

/-- The commands go in at one place, and as many bytes behind the last command
go out. -/
def injectLcLoadDylibs (bytes : List Byte) (deps : List (List Byte)) :
    Except LoadCommandError (List Byte) := do
  let (ncmds, sizeofcmds) ← headerCounts "dep" bytes
  let lcEnd := headerSize + sizeofcmds
  let splice := deps.flatMap buildDylibCommand
  let insertAt ← findInsertOffsetForLc bytes headerSize lcEnd
  if bytes.length < insertAt then throw .outOfRange
  let spliced := bytes.take insertAt ++ splice ++ bytes.drop insertAt
  let postSpliceLcEnd := lcEnd + splice.length
  if spliced.length < postSpliceLcEnd + splice.length then throw .outOfRange
  let drained := spliced.take postSpliceLcEnd ++ spliced.drop (postSpliceLcEnd + splice.length)
  return setHeaderCounts drained (ncmds + deps.length) (sizeofcmds + splice.length)

/-! ## §3. Removing commands. -/

def isDylibLoad (cmd : Nat) : Bool :=
  [lcLoadDylib, lcLoadWeakDylib, lcReexportDylib, lcLoadUpwardDylib].contains cmd

/-- The path of a dylib command, up to its NUL or to the command's end. -/
def commandPath (bytes : List Byte) (cursor cmdsize nameOff : Nat) :
    Except LoadCommandError (List Byte) :=
  if bytes.length < cursor + cmdsize then .error .outOfRange
  else .ok ((slice bytes (cursor + nameOff) (cmdsize - nameOff)).takeWhile fun b => b ≠ 0)

/-- Whether a command loads the library of a path: a NUL-terminated string,
compared as bytes. -/
def loadsPath (bytes : List Byte) (path : List Byte) (cursor cmd cmdsize : Nat) :
    Except LoadCommandError Bool :=
  if isDylibLoad cmd ∧ 24 ≤ cmdsize then
    match readU32 bytes (cursor + 8) with
    | .error e => .error e
    | .ok nameOff =>
      if cmdsize ≤ nameOff then .ok false
      else
        match commandPath bytes cursor cmdsize nameOff with
        | .error e => .error e
        | .ok entryPath => .ok (entryPath == path)
  else .ok false

/-- Later commands move up, and zeros fill the room behind them. -/
def stripLcLoadDylib (bytes : List Byte) (path : List Byte) :
    Except LoadCommandError (List Byte × Option Nat) := do
  let (ncmds, sizeofcmds) ← headerCounts "remove dep" bytes
  let lcEnd := headerSize + sizeofcmds
  let found ← walkCommands bytes lcEnd "remove dep"
    (fun cursor cmd cmdsize => do
      return if ← loadsPath bytes path cursor cmd cmdsize then some (cursor, cmdsize) else none)
    headerSize
  match found with
  | none => return (bytes, none)
  | some (cursor, cmdsize) =>
    if bytes.length < lcEnd then throw .outOfRange
    let tail := slice bytes (cursor + cmdsize) (lcEnd - (cursor + cmdsize))
    let moved := patch bytes cursor tail
    let cleared := patch moved (lcEnd - cmdsize) (List.replicate cmdsize 0)
    -- `ncmds - 1` in 32 bits
    return (setHeaderCounts cleared (ncmds + (2 ^ 32 - 1)) (sizeofcmds - cmdsize), some cmdsize)

/-- The first command of a type goes out, and zeros go in behind the last one. -/
def stripLoadCommand (bytes : List Byte) (cmd : Nat) :
    Except LoadCommandError (List Byte × Nat) := do
  let (ncmds, sizeofcmds) ← headerCounts "writer" bytes
  let lcEnd := headerSize + sizeofcmds
  let found ← walkCommands bytes lcEnd "writer"
    (fun cursor lcCmd cmdsize => .ok (if lcCmd = cmd then some (cursor, cmdsize) else none))
    headerSize
  match found with
  | none => return (bytes, 0)
  | some (cursor, cmdsize) =>
    if bytes.length < cursor + cmdsize then throw .outOfRange
    let drained := bytes.take cursor ++ bytes.drop (cursor + cmdsize)
    let newLcEnd := lcEnd - cmdsize
    if drained.length < newLcEnd then throw .outOfRange
    let refilled := drained.take newLcEnd ++ List.replicate cmdsize 0 ++ drained.drop newLcEnd
    return (setHeaderCounts refilled (ncmds + (2 ^ 32 - 1)) (sizeofcmds - cmdsize), cmdsize)

/-- Paths removed one after the other. -/
def stripEach (bytes : List Byte) : List (List Byte) → Except LoadCommandError (List Byte)
  | [] => .ok bytes
  | path :: rest => do
    let (stripped, _) ← stripLcLoadDylib bytes path
    stripEach stripped rest

end Armv8Encode.MachO

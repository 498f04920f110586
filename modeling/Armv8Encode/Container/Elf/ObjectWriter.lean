/-
  Armv8Encode.Container.Elf.ObjectWriter — the two-phase ELF writer.

  The crate drives an ELF writer that works in two phases: first every part
  of the file reserves its place and `len` advances; then the parts are
  written one after the other into `buffer`.  This module is that writer as
  far as the crate uses it.  A reservation or a padding that would move
  backwards stops the run (`none`).

  The buffer is kept as a list of pieces, each with the bytes it takes: the
  headers as records, section contents as bytes.  The layout of a header
  inside its bytes is the writer's own and is not needed; the string table
  of section names is a parameter, `strtab`.
-/
import Armv8Encode.Container.Elf.Image

namespace Armv8Encode.Elf

open Lib

/-! ## §1. Pieces of a file. -/

structure FileHeader where
  osAbi : Nat
  abiVersion : Nat
  eType : Nat
  eMachine : Nat
  eEntry : Nat
  eFlags : Nat
  deriving Repr, DecidableEq

structure SectionHeader where
  name : Option String
  shType : Nat
  shFlags : Nat
  shAddr : Nat
  shOffset : Nat
  shSize : Nat
  shLink : Nat
  shInfo : Nat
  shAddralign : Nat
  shEntsize : Nat
  deriving Repr, DecidableEq

inductive Piece where
  | padding (count : Nat)
  /-- The file header with the offsets and counts of the two tables. -/
  | fileHeader (header : FileHeader) (ePhoff ePhnum eShoff eShnum : Nat)
  | programHeader (header : ProgramHeader)
  | sectionHeader (header : SectionHeader)
  | content (bytes : List Byte)
  /-- The table of section names. -/
  | strings (bytes : List Byte)
  deriving Repr, DecidableEq

def fileHeaderSize (is64 : Bool) : Nat := if is64 then 64 else 52
def programHeaderSize (is64 : Bool) : Nat := if is64 then 56 else 32
def sectionHeaderSize (is64 : Bool) : Nat := if is64 then 64 else 40
def elfAlign (is64 : Bool) : Nat := if is64 then 8 else 4

def Piece.size (is64 : Bool) : Piece → Nat
  | .padding count => count
  | .fileHeader .. => fileHeaderSize is64
  | .programHeader _ => programHeaderSize is64
  | .sectionHeader _ => sectionHeaderSize is64
  | .content bytes => bytes.length
  | .strings bytes => bytes.length

/-- Pieces that are not headers: bytes and padding. -/
def Piece.isBody : Piece → Bool
  | .padding _ | .content _ => true
  | _ => false

/-- Section contents among the pieces, with their offsets, from `start` on. -/
def contentsFrom (is64 : Bool) : Nat → List Piece → List (Nat × List Byte)
  | _, [] => []
  | start, .content bytes :: rest =>
    (start, bytes) :: contentsFrom is64 (start + bytes.length) rest
  | start, piece :: rest => contentsFrom is64 (start + piece.size is64) rest

theorem contentsFrom_append (is64 : Bool) (start : Nat) (ps qs : List Piece) :
    contentsFrom is64 start (ps ++ qs) = contentsFrom is64 start ps
      ++ contentsFrom is64 (start + extent (Piece.size is64) ps) qs := by
  induction ps generalizing start with
  | nil => simp [contentsFrom]
  | cons p ps ih =>
    cases p <;> simp [contentsFrom, ih, Piece.size, Nat.add_assoc]

theorem contentsFrom_eq_nil {is64 : Bool} {ps : List Piece} (start : Nat)
    (h : ∀ p ∈ ps, ∀ bytes, p ≠ .content bytes) : contentsFrom is64 start ps = [] := by
  induction ps generalizing start with
  | nil => rfl
  | cons p ps ih =>
    have hrest := fun start => ih start (fun q hq => h q (List.mem_cons_of_mem p hq))
    have hp := h p List.mem_cons_self
    cases p with
    | content bytes => exact absurd rfl (hp bytes)
    | _ => exact hrest _

/-- A content piece stands where `contentsFrom` lists it. -/
theorem mem_contentsFrom {is64 : Bool} {ps : List Piece} {offset : Nat} {bytes : List Byte} :
    (offset, bytes) ∈ contentsFrom is64 0 ps
      ↔ RunAt (Piece.size is64) ps offset [.content bytes] := by
  constructor
  · intro h
    suffices hsuff : ∀ (ps : List Piece) (start : Nat),
        (offset, bytes) ∈ contentsFrom is64 start ps →
        ∃ before after, ps = before ++ [.content bytes] ++ after
          ∧ start + extent (Piece.size is64) before = offset by
      obtain ⟨before, after, hps, hoff⟩ := hsuff ps 0 h
      exact ⟨before, after, hps, by omega⟩
    intro ps
    induction ps with
    | nil =>
      intro start hmem
      cases hmem
    | cons p ps ih =>
      intro start hmem
      have hcons : ∀ start', (offset, bytes) ∈ contentsFrom is64 start' ps →
          start' = start + p.size is64 →
          ∃ before after, p :: ps = before ++ [.content bytes] ++ after
            ∧ start + extent (Piece.size is64) before = offset := by
        intro start' hmem' hstart
        obtain ⟨before, after, hps, hoff⟩ := ih start' hmem'
        refine ⟨p :: before, after, by simp [hps], ?_⟩
        rw [extent_cons]
        omega
      cases p with
      | content other =>
        rw [contentsFrom, List.mem_cons, Prod.mk.injEq] at hmem
        obtain ⟨rfl, rfl⟩ | hmem := hmem
        · exact ⟨[], ps, by simp, by simp⟩
        · exact hcons _ hmem rfl
      | _ => exact hcons _ hmem rfl
  · rintro ⟨before, after, rfl, rfl⟩
    rw [contentsFrom_append, contentsFrom_append, List.mem_append, List.mem_append]
    left
    right
    simp [contentsFrom]

/-- The program headers among the pieces. -/
def programHeadersIn (pieces : List Piece) : List ProgramHeader :=
  pieces.filterMap fun piece =>
    match piece with
    | .programHeader header => some header
    | _ => none

@[simp] theorem programHeadersIn_append (ps qs : List Piece) :
    programHeadersIn (ps ++ qs) = programHeadersIn ps ++ programHeadersIn qs := by
  simp [programHeadersIn]

@[simp] theorem programHeadersIn_programHeaders (headers : List ProgramHeader) :
    programHeadersIn (headers.map .programHeader) = headers := by
  induction headers with
  | nil => rfl
  | cons header headers ih =>
    simp only [programHeadersIn, List.map_cons, List.filterMap_cons] at ih ⊢
    rw [ih]

@[simp] theorem programHeadersIn_sectionHeaders (headers : List SectionHeader) :
    programHeadersIn (headers.map .sectionHeader) = [] := by
  induction headers with
  | nil => rfl
  | cons header headers ih =>
    simp only [programHeadersIn, List.map_cons, List.filterMap_cons] at ih ⊢
    exact ih

theorem programHeadersIn_body {ps : List Piece} (h : ∀ p ∈ ps, p.isBody = true) :
    programHeadersIn ps = [] := by
  unfold programHeadersIn
  rw [List.filterMap_eq_nil_iff]
  intro p hp
  have hbody := h p hp
  cases p <;> simp_all [Piece.isBody]

/-! ## §2. The writer. -/

structure Writer where
  is64 : Bool
  /-- Bytes reserved so far. -/
  len : Nat
  segmentOffset : Nat
  segmentNum : Nat
  sectionOffset : Nat
  sectionNum : Nat
  shstrtabOffset : Nat
  /-- Section names in the order they were added. -/
  names : List String
  buffer : List Piece
  deriving Repr, DecidableEq

namespace Writer

variable (w : Writer)

def new (is64 : Bool) : Writer := ⟨is64, 0, 0, 0, 0, 0, 0, [], []⟩

/-- Bytes written so far. -/
def position : Nat := extent (Piece.size w.is64) w.buffer

/-! ### Reserving. -/

/-- Reserve `count` bytes at the next multiple of `align`; the offset and the writer. -/
def reserve (count align : Nat) : Nat × Writer :=
  (alignUp w.len align, { w with len := alignUp w.len align + count })

def reserveUntil (offset : Nat) : Option Writer :=
  if w.len ≤ offset then some { w with len := offset } else none

def reserveFileHeader : Writer := (w.reserve (fileHeaderSize w.is64) 1).2

def reserveProgramHeaders (num : Nat) : Writer :=
  if num = 0 then w
  else
    let r := w.reserve (num * programHeaderSize w.is64) (elfAlign w.is64)
    { r.2 with segmentNum := num, segmentOffset := r.1 }

def addSectionName (name : String) : Writer := { w with names := w.names ++ [name] }

def reserveSectionIndex : Writer := { w with sectionNum := w.sectionNum + 1 }

def reserveShstrtabSectionIndex : Writer :=
  (w.addSectionName ".shstrtab").reserveSectionIndex

def reserveShstrtab (strtab : List String → List Byte) : Writer :=
  let r := w.reserve (strtab w.names).length 1
  { r.2 with shstrtabOffset := r.1 }

def reserveSectionHeaders : Writer :=
  let r := w.reserve (w.sectionNum * sectionHeaderSize w.is64) (elfAlign w.is64)
  { r.2 with sectionOffset := r.1 }

/-! ### Writing. -/

def push (piece : Piece) : Writer := { w with buffer := w.buffer ++ [piece] }

def write (bytes : List Byte) : Writer := w.push (.content bytes)

def writeAlign (align : Nat) : Writer :=
  w.push (.padding (alignUp w.position align - w.position))

def padUntil (offset : Nat) : Option Writer :=
  if w.position ≤ offset then some (w.push (.padding (offset - w.position))) else none

def writeFileHeader (header : FileHeader) : Writer :=
  w.push (.fileHeader header w.segmentOffset w.segmentNum w.sectionOffset w.sectionNum)

def writeAlignProgramHeaders : Writer :=
  if w.segmentOffset = 0 then w else w.writeAlign (elfAlign w.is64)

def writeProgramHeader (header : ProgramHeader) : Writer := w.push (.programHeader header)

def writeSectionHeader (header : SectionHeader) : Writer := w.push (.sectionHeader header)

def writeShstrtab (strtab : List String → List Byte) : Writer :=
  w.push (.strings (strtab w.names))

def writeNullSectionHeader : Writer :=
  (w.writeAlign (elfAlign w.is64)).writeSectionHeader ⟨none, 0, 0, 0, 0, 0, 0, 0, 0, 0⟩

def writeShstrtabSectionHeader (strtab : List String → List Byte) : Writer :=
  w.writeSectionHeader
    ⟨some ".shstrtab", shtStrtab, 0, 0, w.shstrtabOffset, (strtab w.names).length, 0, 0, 1, 0⟩

/-- Several program headers, one after the other. -/
def writeProgramHeaders (headers : List ProgramHeader) : Writer :=
  headers.foldl writeProgramHeader w

def writeSectionHeaders (headers : List SectionHeader) : Writer :=
  headers.foldl writeSectionHeader w

/-! ## §3. Writing appends to the buffer and changes nothing else. -/

def extend (pieces : List Piece) : Writer := { w with buffer := w.buffer ++ pieces }

@[simp] theorem extend_is64 (ps : List Piece) : (w.extend ps).is64 = w.is64 := rfl
@[simp] theorem extend_len (ps : List Piece) : (w.extend ps).len = w.len := rfl
@[simp] theorem extend_segmentOffset (ps : List Piece) :
    (w.extend ps).segmentOffset = w.segmentOffset := rfl
@[simp] theorem extend_segmentNum (ps : List Piece) :
    (w.extend ps).segmentNum = w.segmentNum := rfl
@[simp] theorem extend_names (ps : List Piece) : (w.extend ps).names = w.names := rfl
@[simp] theorem extend_buffer (ps : List Piece) : (w.extend ps).buffer = w.buffer ++ ps := rfl

@[simp] theorem extend_nil : w.extend [] = w := by
  simp [extend]

@[simp] theorem extend_extend (ps qs : List Piece) :
    (w.extend ps).extend qs = w.extend (ps ++ qs) := by
  simp [extend]

@[simp] theorem position_extend (ps : List Piece) :
    (w.extend ps).position = w.position + extent (Piece.size w.is64) ps := by
  simp [position]

theorem push_eq_extend (piece : Piece) : w.push piece = w.extend [piece] := rfl

theorem write_eq_extend (bytes : List Byte) : w.write bytes = w.extend [.content bytes] := rfl

theorem writeAlign_eq_extend (align : Nat) :
    w.writeAlign align = w.extend [.padding (alignUp w.position align - w.position)] := rfl

/-- After the padding the writer stands at the next multiple. -/
theorem position_writeAlign (align : Nat) :
    (w.writeAlign align).position = alignUp w.position align := by
  have hle := le_alignUp w.position align
  rw [writeAlign_eq_extend, position_extend]
  simp only [extent_cons, extent_nil, Piece.size]
  omega

theorem position_write (bytes : List Byte) :
    (w.write bytes).position = w.position + bytes.length := by
  simp [write_eq_extend, Piece.size]

theorem padUntil_of_le {offset : Nat} (h : w.position ≤ offset) :
    w.padUntil offset = some (w.extend [.padding (offset - w.position)]) := by
  simp [padUntil, h, push_eq_extend]

theorem writeProgramHeaders_eq_extend (headers : List ProgramHeader) :
    w.writeProgramHeaders headers = w.extend (headers.map .programHeader) := by
  unfold writeProgramHeaders
  induction headers generalizing w with
  | nil => simp
  | cons header headers ih =>
    rw [List.foldl_cons, ih, writeProgramHeader, push_eq_extend, extend_extend]
    simp

theorem writeSectionHeaders_eq_extend (headers : List SectionHeader) :
    w.writeSectionHeaders headers = w.extend (headers.map .sectionHeader) := by
  unfold writeSectionHeaders
  induction headers generalizing w with
  | nil => simp
  | cons header headers ih =>
    rw [List.foldl_cons, ih, writeSectionHeader, push_eq_extend, extend_extend]
    simp

/-! ## §4. Reading the finished file. -/

/-- `e_phoff` and `e_phnum` of the file header the file starts with. -/
def phTable : Option (Nat × Nat) :=
  match w.buffer.head? with
  | some (.fileHeader _ ePhoff ePhnum _ _) => some (ePhoff, ePhnum)
  | _ => none

def programHeaders : List ProgramHeader := programHeadersIn w.buffer

/-- The bytes stand in the file at that offset. -/
def ContentAt (offset : Nat) (bytes : List Byte) : Prop :=
  RunAt (Piece.size w.is64) w.buffer offset [.content bytes]

/-- The file header stays what it is. -/
theorem phTable_extend {w : Writer} {table : Nat × Nat} (ps : List Piece)
    (h : w.phTable = some table) : (w.extend ps).phTable = some table := by
  unfold phTable at h ⊢
  cases hbuffer : w.buffer with
  | nil =>
    rw [hbuffer] at h
    cases h
  | cons piece rest =>
    rw [hbuffer] at h
    rw [extend_buffer, hbuffer]
    exact h

/-! ## §5. Writing anything but a program header. -/

/-- `w'` is `w` with pieces added, none of them a program header. -/
def Before (w w' : Writer) : Prop := ∃ ps, w' = w.extend ps ∧ programHeadersIn ps = []

variable {w}

theorem before_extend {ps : List Piece} (h : programHeadersIn ps = []) : w.Before (w.extend ps) :=
  ⟨ps, rfl, h⟩

theorem before_push_strings (bytes : List Byte) : w.Before (w.push (.strings bytes)) :=
  before_extend rfl

theorem before_write (bytes : List Byte) : w.Before (w.write bytes) := before_extend rfl

theorem before_writeAlign (align : Nat) : w.Before (w.writeAlign align) := before_extend rfl

theorem before_writeSectionHeader (header : SectionHeader) :
    w.Before (w.writeSectionHeader header) := before_extend rfl

theorem before_writeSectionHeaders (headers : List SectionHeader) :
    w.Before (w.writeSectionHeaders headers) := by
  rw [writeSectionHeaders_eq_extend]
  exact before_extend (programHeadersIn_sectionHeaders headers)

namespace Before

variable {v v' v'' : Writer}

theorem refl (v : Writer) : v.Before v := ⟨[], by simp, rfl⟩

theorem trans (h : v.Before v') (h' : v'.Before v'') : v.Before v'' := by
  obtain ⟨ps, rfl, hps⟩ := h
  obtain ⟨qs, rfl, hqs⟩ := h'
  exact ⟨ps ++ qs, by simp, by simp [hps, hqs]⟩

theorem is64_eq (h : v.Before v') : v'.is64 = v.is64 := by
  obtain ⟨ps, rfl, _⟩ := h
  rfl

theorem names_eq (h : v.Before v') : v'.names = v.names := by
  obtain ⟨ps, rfl, _⟩ := h
  rfl

theorem segmentOffset_eq (h : v.Before v') : v'.segmentOffset = v.segmentOffset := by
  obtain ⟨ps, rfl, _⟩ := h
  rfl

theorem programHeaders_eq (h : v.Before v') : v'.programHeaders = v.programHeaders := by
  obtain ⟨ps, rfl, hps⟩ := h
  show programHeadersIn (v.buffer ++ ps) = _
  rw [programHeadersIn_append, hps, List.append_nil]
  rfl

theorem phTable_eq {table : Nat × Nat} (h : v.Before v') (hv : v.phTable = some table) :
    v'.phTable = some table := by
  obtain ⟨ps, rfl, _⟩ := h
  exact phTable_extend ps hv

theorem contentAt {offset : Nat} {bytes : List Byte} (h : v.Before v')
    (hv : v.ContentAt offset bytes) : v'.ContentAt offset bytes := by
  obtain ⟨ps, rfl, _⟩ := h
  exact RunAt.append hv ps

end Before

theorem contentAt_write (bytes : List Byte) :
    (w.write bytes).ContentAt w.position bytes :=
  runAt_end w.buffer [.content bytes]

end Writer

end Armv8Encode.Elf

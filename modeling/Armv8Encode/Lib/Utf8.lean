/-
  Armv8Encode.Lib.Utf8 — text as valid UTF-8, cut at byte offsets.

  Validity is run by a machine that knows, between two bytes, how many
  continuation bytes are owed.  A character boundary is where nothing is owed,
  so a text falls into two texts exactly at its boundaries.  Texts are ordered
  by their bytes.
-/
import Armv8Encode.Lib.Words
import Mathlib.Data.List.Infix

namespace Armv8Encode.Lib

/-! ## §1. The order of byte strings. -/

/-- Byte strings in dictionary order. -/
def BytesLt (a b : List Byte) : Prop := List.Lex (fun x y : Byte => x.toNat < y.toNat) a b

instance (a b : List Byte) : Decidable (BytesLt a b) :=
  decidable_of_iff (List.lex a b (fun x y => decide (x.toNat < y.toNat)) = true) <| by
    rw [List.lex_eq_true_iff_lex]
    simp only [decide_eq_true_eq]
    rfl

theorem bytesLt_cons_cons {x y : Byte} {a b : List Byte} :
    BytesLt (x :: a) (y :: b) ↔ x.toNat < y.toNat ∨ x = y ∧ BytesLt a b := List.cons_lex_cons_iff

theorem bytesLt_irrefl (a : List Byte) : ¬ BytesLt a a :=
  List.lex_irrefl (fun x => Nat.lt_irrefl x.toNat) a

theorem not_bytesLt_nil (a : List Byte) : ¬ BytesLt a [] := List.not_lex_nil

theorem BytesLt.trans {a b c : List Byte} (hab : BytesLt a b) (hbc : BytesLt b c) : BytesLt a c :=
  List.lex_trans Nat.lt_trans hab hbc

theorem BytesLt.asymm {a b : List Byte} (h : BytesLt a b) : ¬ BytesLt b a :=
  List.lex_asymm Nat.lt_asymm h

theorem bytesLt_trichotomous (a b : List Byte) : BytesLt a b ∨ a = b ∨ BytesLt b a := by
  induction a generalizing b with
  | nil =>
    cases b with
    | nil => exact .inr (.inl rfl)
    | cons y b => exact .inl .nil
  | cons x a ih =>
    cases b with
    | nil => exact .inr (.inr .nil)
    | cons y b =>
      rw [bytesLt_cons_cons, bytesLt_cons_cons]
      obtain hlt | heq | hlt := Nat.lt_trichotomy x.toNat y.toNat
      · exact .inl (.inl hlt)
      · obtain rfl := BitVec.eq_of_toNat_eq heq
        obtain h | rfl | h := ih b
        · exact .inl (.inr ⟨rfl, h⟩)
        · exact .inr (.inl rfl)
        · exact .inr (.inr (.inr ⟨rfl, h⟩))
      · exact .inr (.inr (.inl hlt))

theorem bytesLt_append_left (p : List Byte) {a b : List Byte} :
    BytesLt (p ++ a) (p ++ b) ↔ BytesLt a b := by
  induction p with
  | nil => rfl
  | cons z p ih =>
    rw [List.cons_append, List.cons_append, bytesLt_cons_cons, ih]
    simp

/-- A string does not come behind what it begins. -/
theorem not_bytesLt_of_isPrefixOf {a b : List Byte} (h : a <+: b) : ¬ BytesLt b a := by
  obtain ⟨t, rfl⟩ := h
  intro hlt
  exact not_bytesLt_nil t ((bytesLt_append_left a).mp (by rwa [List.append_nil]))

theorem bytesLt_of_prefix_of_ne {a b : List Byte} (h : a <+: b) (hne : a ≠ b) : BytesLt a b := by
  obtain hlt | heq | hlt := bytesLt_trichotomous a b
  · exact hlt
  · exact absurd heq hne
  · exact absurd hlt (not_bytesLt_of_isPrefixOf h)

/-- Strings that part are ordered by the bytes where they do. -/
theorem lt_of_bytesLt {p a b : List Byte} {x y : Byte} (h : BytesLt (p ++ x :: a) (p ++ y :: b))
    (hne : x ≠ y) : x.toNat < y.toNat := by
  obtain hlt | ⟨heq, _⟩ := bytesLt_cons_cons.mp ((bytesLt_append_left p).mp h)
  · exact hlt
  · exact absurd heq hne

/-! ## §2. The machine. -/

def isContinuation (b : Byte) : Bool := decide (0x80 ≤ b.toNat) && decide (b.toNat < 0xc0)

/-- Between two bytes. -/
inductive Utf8State where
  /-- Between two characters. -/
  | start
  /-- A continuation byte from `low` to `high` is owed, and `more` after it. -/
  | tail (more low high : Nat)
  deriving Repr, DecidableEq

/-- The first byte of a character. -/
def utf8First (b : Nat) : Option Utf8State :=
  if b < 0x80 then some .start
  else if b < 0xc2 then none
  else if b < 0xe0 then some (.tail 0 0x80 0xbf)
  else if b = 0xe0 then some (.tail 1 0xa0 0xbf)
  else if b = 0xed then some (.tail 1 0x80 0x9f)
  else if b < 0xf0 then some (.tail 1 0x80 0xbf)
  else if b = 0xf0 then some (.tail 2 0x90 0xbf)
  else if b < 0xf4 then some (.tail 2 0x80 0xbf)
  else if b = 0xf4 then some (.tail 2 0x80 0x8f)
  else none

def utf8Step : Utf8State → Byte → Option Utf8State
  | .start, b => utf8First b.toNat
  | .tail more low high, b =>
    if isContinuation b ∧ low ≤ b.toNat ∧ b.toNat ≤ high then
      some (if more = 0 then .start else .tail (more - 1) 0x80 0xbf)
    else none

def utf8Run : Utf8State → List Byte → Option Utf8State
  | state, [] => some state
  | state, b :: bytes => (utf8Step state b).bind fun state => utf8Run state bytes

def isUtf8 (bytes : List Byte) : Bool := utf8Run .start bytes == some .start

theorem isUtf8_iff {bytes : List Byte} : isUtf8 bytes = true ↔ utf8Run .start bytes = some .start :=
  beq_iff_eq

theorem utf8Run_append (state : Utf8State) (xs ys : List Byte) :
    utf8Run state (xs ++ ys) = (utf8Run state xs).bind fun state => utf8Run state ys := by
  induction xs generalizing state with
  | nil => rfl
  | cons b xs ih =>
    show (utf8Step state b).bind _ = ((utf8Step state b).bind _).bind _
    rw [Option.bind_assoc]
    exact congrArg _ (funext fun state => ih state)

/-- A first byte continues nothing. -/
theorem not_isContinuation_of_first {b : Byte} {state : Utf8State}
    (h : utf8First b.toNat = some state) : isContinuation b = false := by
  unfold isContinuation
  rw [Bool.and_eq_false_iff, decide_eq_false_iff_not, decide_eq_false_iff_not]
  by_contra hcont
  unfold utf8First at h
  rw [if_neg (by omega), if_pos (by omega)] at h
  cases h

theorem isUtf8_append_left {xs ys : List Byte} (hxs : isUtf8 xs = true) :
    isUtf8 (xs ++ ys) = isUtf8 ys := by
  rw [isUtf8_iff] at hxs
  unfold isUtf8
  rw [utf8Run_append, hxs]
  rfl

/-- A text does not begin with a continuation byte. -/
theorem not_isContinuation_of_isUtf8 {b : Byte} {bytes : List Byte}
    (h : isUtf8 (b :: bytes) = true) : isContinuation b = false := by
  rw [isUtf8_iff] at h
  obtain ⟨state, hfirst, _⟩ := Option.bind_eq_some_iff.mp h
  exact not_isContinuation_of_first hfirst

/-- Before a byte that continues nothing, nothing is owed. -/
theorem isUtf8_of_append_cons {xs ys : List Byte} {b : Byte} (h : isUtf8 (xs ++ b :: ys) = true)
    (hb : isContinuation b = false) : isUtf8 xs = true := by
  rw [isUtf8_iff, utf8Run_append] at h
  obtain ⟨state, hxs, h⟩ := Option.bind_eq_some_iff.mp h
  obtain ⟨_, hstep, _⟩ := Option.bind_eq_some_iff.mp h
  cases state with
  | start => exact isUtf8_iff.mpr hxs
  | tail more low high =>
    simp [utf8Step, hb] at hstep

/-- A character of one byte. -/
theorem isUtf8_cons_of_ascii {b : Byte} {bytes : List Byte} (hb : b.toNat < 0x80) :
    isUtf8 (b :: bytes) = isUtf8 bytes := by
  have hfirst : utf8First b.toNat = some .start := by
    unfold utf8First
    rw [if_pos hb]
  unfold isUtf8
  show ((utf8First b.toNat).bind _ == _) = _
  rw [hfirst]
  rfl

/-- A byte above them owes a continuation. -/
theorem not_isUtf8_of_no_continuation {b x : Byte} {bytes : List Byte} (hb : 0x80 ≤ b.toNat)
    (hx : isContinuation x = false) : isUtf8 (b :: x :: bytes) = false := by
  by_contra h
  rw [Bool.not_eq_false, isUtf8_iff] at h
  obtain ⟨state, hfirst, hrest⟩ := Option.bind_eq_some_iff.mp h
  obtain ⟨_, hstep, _⟩ := Option.bind_eq_some_iff.mp hrest
  cases state with
  | start =>
    have hlow : b.toNat < 0x80 := by
      change utf8First b.toNat = some .start at hfirst
      unfold utf8First at hfirst
      by_contra hhigh
      rw [if_neg hhigh] at hfirst
      repeat' split at hfirst
      all_goals cases hfirst
    omega
  | tail more low high => simp [utf8Step, hx] at hstep

/-! ## §3. Texts. -/

/-- A text by its bytes. -/
structure Str where
  bytes : List Byte
  valid : isUtf8 bytes = true
  deriving DecidableEq

namespace Str

theorem ext_bytes {s t : Str} (h : s.bytes = t.bytes) : s = t := by
  cases s
  cases t
  cases h
  rfl

def empty : Str := ⟨[], rfl⟩

def length (s : Str) : Nat := s.bytes.length

def append (s t : Str) : Str := ⟨s.bytes ++ t.bytes, by rw [isUtf8_append_left s.valid, t.valid]⟩

@[simp] theorem bytes_empty : empty.bytes = [] := rfl

@[simp] theorem bytes_append (s t : Str) : (s.append t).bytes = s.bytes ++ t.bytes := rfl

/-- Offsets where the text may be cut. -/
def isCharBoundary (s : Str) (i : Nat) : Bool :=
  i == 0 || i == s.length || match s.bytes[i]? with
    | none => false
    | some b => !isContinuation b

theorem isCharBoundary_zero (s : Str) : s.isCharBoundary 0 = true := rfl

theorem isCharBoundary_length (s : Str) : s.isCharBoundary s.length = true := by
  unfold isCharBoundary
  simp

/-- **A boundary is where the bytes before it are a text.** -/
theorem isCharBoundary_iff {s : Str} {i : Nat} (hi : i ≤ s.length) :
    s.isCharBoundary i = true ↔ isUtf8 (s.bytes.take i) = true := by
  have hsplit : s.bytes.take i ++ s.bytes.drop i = s.bytes := List.take_append_drop i s.bytes
  have hvalid := s.valid
  rw [← hsplit] at hvalid
  unfold isCharBoundary
  simp only [Bool.or_eq_true, beq_iff_eq]
  constructor
  · rintro ((rfl | rfl) | hbyte)
    · rfl
    · rw [show s.length = s.bytes.length from rfl, List.take_length]
      exact s.valid
    · cases hget : s.bytes[i]? with
      | none =>
        rw [hget] at hbyte
        cases hbyte
      | some b =>
        rw [hget] at hbyte
        obtain ⟨hlt, rfl⟩ := List.getElem?_eq_some_iff.mp hget
        rw [List.drop_eq_getElem_cons hlt] at hvalid
        exact isUtf8_of_append_cons hvalid (by simpa using hbyte)
  · intro htake
    rw [isUtf8_append_left htake] at hvalid
    by_cases hend : i = s.length
    · exact .inl (.inr hend)
    · have hlt : i < s.bytes.length := Nat.lt_of_le_of_ne hi hend
      right
      rw [List.getElem?_eq_getElem hlt]
      rw [List.drop_eq_getElem_cons hlt] at hvalid
      simp only [not_isContinuation_of_isUtf8 hvalid, Bool.not_false]

theorem valid_take {s : Str} {i : Nat} (hi : i ≤ s.length) (h : s.isCharBoundary i = true) :
    isUtf8 (s.bytes.take i) = true := (isCharBoundary_iff hi).mp h

theorem valid_drop {s : Str} {i : Nat} (hi : i ≤ s.length) (h : s.isCharBoundary i = true) :
    isUtf8 (s.bytes.drop i) = true := by
  rw [← isUtf8_append_left (valid_take hi h), List.take_append_drop]
  exact s.valid

/-- `s[..i]`; no text if the cut is not at a boundary. -/
def upTo (s : Str) (i : Nat) : Option Str :=
  if h : i ≤ s.length ∧ s.isCharBoundary i = true then
    some ⟨s.bytes.take i, valid_take h.1 h.2⟩
  else none

/-- `s[i..]` -/
def startingAt (s : Str) (i : Nat) : Option Str :=
  if h : i ≤ s.length ∧ s.isCharBoundary i = true then
    some ⟨s.bytes.drop i, valid_drop h.1 h.2⟩
  else none

theorem startingAt_eq_some_iff {s t : Str} {i : Nat} :
    s.startingAt i = some t
      ↔ i ≤ s.length ∧ s.isCharBoundary i = true ∧ t.bytes = s.bytes.drop i := by
  unfold startingAt
  constructor
  · intro h
    split at h
    · next hcut =>
      cases h
      exact ⟨hcut.1, hcut.2, rfl⟩
    · cases h
  · rintro ⟨hi, hcut, hbytes⟩
    rw [dif_pos ⟨hi, hcut⟩]
    exact congrArg some (ext_bytes hbytes.symm)

theorem exists_upTo {s : Str} {i : Nat} (hi : i ≤ s.length) (h : s.isCharBoundary i = true) :
    ∃ t, s.upTo i = some t ∧ t.bytes = s.bytes.take i :=
  ⟨_, dif_pos ⟨hi, h⟩, rfl⟩

theorem exists_startingAt {s : Str} {i : Nat} (hi : i ≤ s.length)
    (h : s.isCharBoundary i = true) :
    ∃ t, s.startingAt i = some t ∧ t.bytes = s.bytes.drop i :=
  ⟨_, dif_pos ⟨hi, h⟩, rfl⟩

theorem startingAt_eq_none {s : Str} {i : Nat} (h : s.isCharBoundary i = false) :
    s.startingAt i = none := by
  unfold startingAt
  rw [dif_neg]
  rintro ⟨_, hcut⟩
  rw [h] at hcut
  cases hcut

/-- Bytes that two texts begin with end at a boundary of both or of none. -/
theorem isCharBoundary_congr {s t : Str} {i : Nat} (hs : i ≤ s.length) (ht : i ≤ t.length)
    (h : s.bytes.take i = t.bytes.take i) : s.isCharBoundary i = t.isCharBoundary i := by
  rw [Bool.eq_iff_iff, isCharBoundary_iff hs, isCharBoundary_iff ht, h]

end Str

end Armv8Encode.Lib

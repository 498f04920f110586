/-
  Armv8Encode.Rewrite.SpaceSpec — carving is sound, planning is best fit.

  A region is a bump allocator: `carve` hands out the least aligned slice at
  or after the cursor when that slice ends inside the region, and otherwise
  leaves the region as it is.  Over a sequence of calls the slices lie inside
  the region, in order, each at its alignment and at the region's skew.

  The loop of `planReservation` keeps the first least candidate under
  `(usable, source rank, start)`, so the plan does not depend on the order of
  the extents as long as extents that share an aligned start share the file
  offset there.

  Main results:
    * `carve_ok`, `carve_error` — what one call does, by whether the slice fits.
    * `carve_run` — the same over every sequence of calls.
    * `planReservation_spec` — when a plan is found, what it is and what the
      error reports.
-/
import Armv8Encode.Rewrite.Space
import Mathlib.Data.List.MinMax
import Mathlib.Data.Prod.Lex

namespace Armv8Encode.Space

open Lib

/-! ## §1. Rounding within 64 bits. -/

theorem checkedAdd_of_le {a b : Nat} (h : a + b ≤ u64Max) : checkedAdd a b = some (a + b) := by
  simp [checkedAdd, h]

theorem checkedAdd_of_lt {a b : Nat} (h : u64Max < a + b) : checkedAdd a b = none := by
  simp [checkedAdd, h]

theorem eq_of_checkedAdd {a b c : Nat} (h : checkedAdd a b = some c) : c = a + b := by
  unfold checkedAdd at h
  split at h
  · exact (Option.some.inj h).symm
  · cases h

/-- What rounding up returns is a multiple, and no less than it was given. -/
theorem roundUp_eq_some {value align result : Nat} (halign : 0 < align)
    (h : roundUp value align = some result) : value ≤ result ∧ align ∣ result := by
  unfold roundUp at h
  simp only [] at h
  split at h
  · next hrem =>
    cases h
    exact ⟨Nat.le_refl _, Nat.dvd_of_mod_eq_zero hrem⟩
  · have hresult := eq_of_checkedAdd h
    have hlt := Nat.mod_lt value halign
    have hsplit := Nat.div_add_mod value align
    refine ⟨by omega, ?_⟩
    rw [show result = align * (value / align + 1) by rw [Nat.mul_add]; omega]
    exact Nat.dvd_mul_right _ _

theorem roundUp_of_le {value align : Nat} (h : alignUp value align ≤ u64Max) :
    roundUp value align = some (alignUp value align) := by
  unfold roundUp alignUp at *
  by_cases hrem : value % align = 0
  · simp [hrem]
  · simp only [hrem, if_false] at h ⊢
    exact checkedAdd_of_le h

theorem roundUp_of_lt {value align : Nat} (hvalue : value ≤ u64Max)
    (h : u64Max < alignUp value align) : roundUp value align = none := by
  unfold roundUp alignUp at *
  by_cases hrem : value % align = 0
  · simp only [hrem, if_true] at h
    omega
  · simp only [hrem, if_false] at h ⊢
    exact checkedAdd_of_lt h

/-! ## §2. One carve. -/

namespace Region

/-- Some slice of `len` bytes at a multiple of `align` lies in what is left. -/
def Fits (r : Region) (len align : Nat) : Prop :=
  ∃ address, align ∣ address ∧ r.baseAddress + r.used ≤ address ∧
    address + len ≤ r.baseAddress + r.capacity

/-- The least multiple of `align` at or after the cursor. -/
def next (r : Region) (align : Nat) : Nat := alignUp (r.baseAddress + r.cursor) align

theorem le_next (r : Region) (align : Nat) : r.baseAddress + r.cursor ≤ r.next align :=
  le_alignUp _ _

theorem fits_iff {r : Region} {len align : Nat} (halign : align ≠ 0) :
    r.Fits len align ↔ r.next align + len ≤ r.baseAddress + r.capacity := by
  constructor
  · intro ⟨address, hdvd, hle, hend⟩
    have hnext : r.next align ≤ address := alignUp_le_of_dvd hdvd hle
    omega
  · intro h
    exact ⟨r.next align, dvd_alignUp _ (Nat.pos_of_ne_zero halign), r.le_next align, h⟩

/-- The region after `len` bytes have been handed out at `address`. -/
def consumed (r : Region) (address len : Nat)
    (h : address - r.baseAddress + len ≤ r.capacity) : Region :=
  { r with cursor := address - r.baseAddress + len, cursor_le := h }

/-- A slice that fits is handed out, and the cursor moves to its end. -/
theorem carve_ok {r : Region} {len align : Nat}
    (hspan : r.baseAddress + r.capacity ≤ u64Max) (halign : align ≠ 0)
    (hfits : r.next align + len ≤ r.baseAddress + r.capacity) :
    ∃ h, r.carve len align
      = (.ok ⟨r.next align, r.baseFileOffset + (r.next align - r.baseAddress),
          r.next align - r.baseAddress, len⟩, r.consumed (r.next align) len h) := by
  have hle := r.le_next align
  have hcursor := r.cursor_le
  have hcur : checkedAdd r.baseAddress r.cursor = some (r.baseAddress + r.cursor) :=
    checkedAdd_of_le (by omega)
  have hround : roundUp (r.baseAddress + r.cursor) align = some (r.next align) :=
    roundUp_of_le (show r.next align ≤ u64Max by omega)
  have hpad : r.cursor + (r.next align - (r.baseAddress + r.cursor))
      = r.next align - r.baseAddress := by omega
  have hfirst : checkedAdd r.cursor (r.next align - (r.baseAddress + r.cursor))
      = some (r.next align - r.baseAddress) := by
    rw [checkedAdd_of_le (by omega), hpad]
  have hsecond : checkedAdd (r.next align - r.baseAddress) len
      = some (r.next align - r.baseAddress + len) := checkedAdd_of_le (by omega)
  have hroom : ¬ r.next align - r.baseAddress + len > r.capacity := by omega
  refine ⟨by omega, ?_⟩
  simp only [carve, if_neg halign, hcur, hround, hfirst, Option.bind_some, hsecond]
  rw [dif_neg hroom]
  simp only [hpad, consumed]

/-- A call for a slice that does not fit fails and leaves the region alone. -/
theorem carve_error {r : Region} {len align : Nat}
    (hspan : r.baseAddress + r.capacity ≤ u64Max)
    (hfits : ¬ (align ≠ 0 ∧ r.next align + len ≤ r.baseAddress + r.capacity)) :
    ∃ e, r.carve len align = (.error e, r) := by
  have hle := r.le_next align
  have hcursor := r.cursor_le
  unfold carve
  by_cases halign : align = 0
  · exact ⟨.zeroAlign, by rw [if_pos halign]⟩
  rw [if_neg halign, checkedAdd_of_le (by omega)]
  have hover : r.baseAddress + r.capacity < r.next align + len := by
    by_contra hle
    exact hfits ⟨halign, by omega⟩
  -- the rounding overflows, the sum overflows, or the end is past the region
  by_cases hround : r.next align ≤ u64Max
  · have hnext : roundUp (r.baseAddress + r.cursor) align = some (r.next align) :=
      roundUp_of_le hround
    have hpad : checkedAdd r.cursor (r.next align - (r.baseAddress + r.cursor))
        = some (r.cursor + (r.next align - (r.baseAddress + r.cursor))) :=
      checkedAdd_of_le (by omega)
    simp only [hnext, hpad, Option.bind_some]
    by_cases hsum : r.next align - r.baseAddress + len ≤ u64Max
    · have hfull : r.cursor + (r.next align - (r.baseAddress + r.cursor)) + len > r.capacity := by
        omega
      rw [checkedAdd_of_le (by omega)]
      exact ⟨.regionFull len (r.capacity - r.cursor), by simp only [hfull, dite_true]⟩
    · rw [checkedAdd_of_lt (by omega)]
      exact ⟨.overflow, rfl⟩
  · have hnone : roundUp (r.baseAddress + r.cursor) align = none :=
      roundUp_of_lt (by omega) (show u64Max < r.next align by omega)
    exact ⟨.overflow, by simp only [hnone]⟩

/-! ## §3. Sequences of calls. -/

/-- One call of a sequence: the region before, the request, the result and
the region after. -/
structure Step where
  before : Region
  len : Nat
  align : Nat
  result : Except CarveError Carve
  after : Region

/-- Make the calls `(len, align)` one after the other. -/
def trace (r : Region) : List (Nat × Nat) → List Step
  | [] => []
  | (len, align) :: calls =>
    ⟨r, len, align, (r.carve len align).1, (r.carve len align).2⟩
      :: (r.carve len align).2.trace calls

/-- The same span, with the cursor no earlier. -/
structure Later (r r' : Region) : Prop where
  address : r'.baseAddress = r.baseAddress
  fileOffset : r'.baseFileOffset = r.baseFileOffset
  capacity : r'.capacity = r.capacity
  cursor : r.cursor ≤ r'.cursor

theorem Later.refl (r : Region) : r.Later r := ⟨rfl, rfl, rfl, Nat.le_refl _⟩

theorem Later.trans {r s t : Region} (h : r.Later s) (h' : s.Later t) : r.Later t :=
  ⟨h'.address.trans h.address, h'.fileOffset.trans h.fileOffset, h'.capacity.trans h.capacity,
    h.cursor.trans h'.cursor⟩

/-- What a successful call hands out of the region it starts from. -/
structure Handed (r : Region) (len align : Nat) (c : Carve) (r' : Region) : Prop where
  later : r.Later r'
  len_eq : c.len = len
  aligned : align ∣ c.address
  after_cursor : r.baseAddress + r.cursor ≤ c.address
  skew_address : c.address = r.baseAddress + c.offsetInRegion
  skew_file : c.fileOffset = r.baseFileOffset + c.offsetInRegion
  cursor_end : r'.cursor = c.offsetInRegion + c.len

theorem carve_handed {r r' : Region} {len align : Nat} {c : Carve}
    (h : r.carve len align = (.ok c, r')) : r.Handed len align c r' := by
  unfold carve at h
  split at h
  · cases h
  next halign =>
  split at h
  · cases h
  next cur hcur =>
  split at h
  · cases h
  next address haddress =>
  simp only [] at h
  split at h
  · cases h
  next end' hend =>
  split at h
  · cases h
  · cases h
    have hcursor := eq_of_checkedAdd hcur
    have ⟨hle, haligned⟩ := roundUp_eq_some (Nat.pos_of_ne_zero halign) haddress
    obtain ⟨padded, hpadded, hlen⟩ := Option.bind_eq_some_iff.mp hend
    have hpad := eq_of_checkedAdd hpadded
    have hnew := eq_of_checkedAdd hlen
    exact
      { later := ⟨rfl, rfl, rfl, by show r.cursor ≤ end'; omega⟩
        len_eq := rfl
        aligned := haligned
        after_cursor := by show r.baseAddress + r.cursor ≤ address; omega
        skew_address := by show address = r.baseAddress + (r.cursor + (address - cur)); omega
        skew_file := rfl
        cursor_end := by show end' = r.cursor + (address - cur) + len; omega }

theorem carve_failed {r r' : Region} {len align : Nat} {e : CarveError}
    (hspan : r.baseAddress + r.capacity ≤ u64Max) (h : r.carve len align = (.error e, r')) :
    r' = r ∧ (align = 0 ∨ ¬ r.Fits len align) := by
  by_cases hfits : align ≠ 0 ∧ r.next align + len ≤ r.baseAddress + r.capacity
  · have ⟨_, hok⟩ := carve_ok hspan hfits.1 hfits.2
    exact nomatch congrArg Prod.fst (hok.symm.trans h)
  · have ⟨e', herror⟩ := carve_error hspan hfits
    refine ⟨(congrArg Prod.snd (herror.symm.trans h)).symm, ?_⟩
    by_cases halign : align = 0
    · exact .inl halign
    · refine .inr (fun hf => hfits ⟨halign, (fits_iff halign).mp hf⟩)

/-- One call leaves the span and never moves the cursor back. -/
theorem carve_later (r : Region) (len align : Nat)
    (hspan : r.baseAddress + r.capacity ≤ u64Max) : r.Later (r.carve len align).2 := by
  cases hresult : (r.carve len align).1 with
  | ok c => exact (carve_handed (Prod.ext hresult rfl)).later
  | error e =>
    have hcall : r.carve len align = (.error e, (r.carve len align).2) := Prod.ext hresult rfl
    have hsame := (carve_failed hspan hcall).1
    exact hsame.symm ▸ Later.refl r

/-- Every call of a sequence starts from a later state of the same region. -/
theorem trace_step {r : Region} {calls : List (Nat × Nat)}
    (hspan : r.baseAddress + r.capacity ≤ u64Max) :
    ∀ s ∈ r.trace calls, r.Later s.before ∧
      s.before.carve s.len s.align = (s.result, s.after) := by
  induction calls generalizing r with
  | nil => simp [trace]
  | cons call calls ih =>
    intro s hs
    have hlater := carve_later r call.1 call.2 hspan
    simp only [trace, List.mem_cons] at hs
    by_cases hfirst : s ∈ (r.carve call.1 call.2).2.trace calls
    · have hspan' : (r.carve call.1 call.2).2.baseAddress + (r.carve call.1 call.2).2.capacity
          ≤ u64Max := by
        rw [hlater.address, hlater.capacity]
        exact hspan
      have ⟨hbefore, hcall⟩ := ih hspan' s hfirst
      exact ⟨hlater.trans hbefore, hcall⟩
    · have heq := hs.resolve_right hfirst
      subst heq
      exact ⟨Later.refl r, rfl⟩

/-- Slices of later calls start at or after the end of earlier ones. -/
theorem trace_ordered {r : Region} {calls : List (Nat × Nat)}
    (hspan : r.baseAddress + r.capacity ≤ u64Max) :
    (r.trace calls).Pairwise (fun s t => ∀ c d, s.result = .ok c → t.result = .ok d →
      c.address + c.len ≤ d.address) := by
  induction calls generalizing r with
  | nil => simp [trace]
  | cons call calls ih =>
    have hlater := carve_later r call.1 call.2 hspan
    have hspan' : (r.carve call.1 call.2).2.baseAddress + (r.carve call.1 call.2).2.capacity
        ≤ u64Max := by
      rw [hlater.address, hlater.capacity]
      exact hspan
    refine List.pairwise_cons.mpr ⟨?_, ih hspan'⟩
    intro t ht c d hc hd
    have hfirst := carve_handed (Prod.ext hc rfl)
    have ⟨hbefore, hcall⟩ := trace_step hspan' t ht
    have hspan'' : t.before.baseAddress + t.before.capacity ≤ u64Max := by
      rw [hbefore.address, hbefore.capacity]
      exact hspan'
    have hsecond := carve_handed (hcall.trans (Prod.ext hd rfl))
    -- the first slice ends at the cursor after it, the second starts past that
    have hend : (r.carve call.1 call.2).2.cursor = c.offsetInRegion + c.len := hfirst.cursor_end
    have hskew := hfirst.skew_address
    have hstart := hsecond.after_cursor
    have hmoved := hbefore.cursor
    rw [hbefore.address, hlater.address] at hstart
    omega

/-- What a sequence of calls guarantees. -/
structure SoundRun (r : Region) (calls : List (Nat × Nat)) : Prop where
  /-- A slice lies in the region, at its alignment and at the region's skew. -/
  inside : ∀ s ∈ r.trace calls, ∀ c, s.result = .ok c →
    r.baseAddress ≤ c.address ∧ c.address + c.len ≤ r.baseAddress + r.capacity ∧
    c.len = s.len ∧ s.align ∣ c.address ∧
    c.address = r.baseAddress + c.offsetInRegion ∧
    c.fileOffset = r.baseFileOffset + c.offsetInRegion ∧ c.fileOffset + c.len ≤ u64Max
  /-- It starts at or after the end of every slice before it. -/
  ordered : (r.trace calls).Pairwise (fun s t => ∀ c d, s.result = .ok c → t.result = .ok d →
    c.address + c.len ≤ d.address)
  used : ∀ s ∈ r.trace calls, s.before.used ≤ s.after.used ∧ s.after.used ≤ r.capacity
  /-- A call that fails changes nothing and had no slice to hand out. -/
  failed : ∀ s ∈ r.trace calls, ∀ e, s.result = .error e →
    s.after = s.before ∧ (s.align = 0 ∨ ¬ s.before.Fits s.len s.align)

/-- Carving is a sound bump allocator over every sequence of calls. -/
theorem carve_run (r : Region) (calls : List (Nat × Nat))
    (hspan : r.baseAddress + r.capacity ≤ u64Max)
    (hfile : r.baseFileOffset + r.capacity ≤ u64Max) : r.SoundRun calls := by
  have hbefore : ∀ s ∈ r.trace calls, r.Later s.before ∧
      s.before.carve s.len s.align = (s.result, s.after) ∧
      s.before.baseAddress + s.before.capacity ≤ u64Max := by
    intro s hs
    have ⟨hlater, hcall⟩ := trace_step hspan s hs
    refine ⟨hlater, hcall, ?_⟩
    rw [hlater.address, hlater.capacity]
    exact hspan
  refine ⟨?_, trace_ordered hspan, ?_, ?_⟩
  · intro s hs c hc
    have ⟨hlater, hcall, hspan'⟩ := hbefore s hs
    have hhanded := carve_handed (hcall.trans (Prod.ext hc rfl))
    have hskew := hhanded.skew_address
    have hskewFile := hhanded.skew_file
    have hend := hhanded.cursor_end
    have hroom := s.after.cursor_le
    rw [hlater.address] at hskew
    rw [hlater.fileOffset] at hskewFile
    rw [hhanded.later.capacity, hlater.capacity] at hroom
    exact ⟨by omega, by omega, hhanded.len_eq, hhanded.aligned, hskew, hskewFile, by omega⟩
  · intro s hs
    have ⟨hlater, hcall, hspan'⟩ := hbefore s hs
    have hafter := carve_later s.before s.len s.align hspan'
    rw [hcall] at hafter
    have hroom := s.after.cursor_le
    rw [hafter.capacity, hlater.capacity] at hroom
    exact ⟨hafter.cursor, hroom⟩
  · intro s hs e he
    have ⟨_, hcall, hspan'⟩ := hbefore s hs
    exact carve_failed hspan' (hcall.trans (Prod.ext he rfl))

theorem carve_run_mixed :
    (Region.new 0x4000 0x100 0x40 .tailPad).SoundRun [(1, 4), (8, 16), (0x40, 1), (2, 3), (1, 0)] :=
  carve_run (.new 0x4000 0x100 0x40 .tailPad) _ (by decide) (by decide)

/-- A call with a zero alignment is refused by its own check, although zero
is a multiple of zero and the slice there fits. -/
theorem carve_zeroAlign :
    ∃ r : Region, r.baseAddress + r.capacity ≤ u64Max ∧
      r.baseFileOffset + r.capacity ≤ u64Max ∧
      (r.carve 4 0).1 = .error .zeroAlign ∧ r.Fits 4 0 :=
  ⟨.new 0 0 0x40 .tailPad, by decide, by decide, rfl, 0, by decide, by decide, by decide⟩

end Region

/-! ## §4. What an extent offers. -/

namespace FreeExtent

/-- The first aligned address at or after the extent's own. -/
def start (ext : FreeExtent) (align : Nat) : Nat := alignUp ext.address align

def end' (ext : FreeExtent) : Nat := ext.address + ext.len

/-- The file offset of the aligned start. -/
def startOff (ext : FreeExtent) (align : Nat) : Nat :=
  ext.fileOffset + (ext.start align - ext.address)

/-- At least `n` bytes are left after the start has been aligned. -/
def HasRoom (ext : FreeExtent) (align n : Nat) : Prop := ext.start align + n ≤ ext.end'

/-- The bytes left after the start has been aligned. -/
def room (ext : FreeExtent) (align : Nat) : Nat := ext.end' - ext.start align

/-- Best fit first, then the cheaper source, then the lower aligned start. -/
def fit (ext : FreeExtent) (align : Nat) : Nat ×ₗ Nat ×ₗ Nat :=
  toLex (ext.room align, toLex (ext.source.rank, ext.start align))

/-- The same with the extent's own address. -/
def ownFit (ext : FreeExtent) (align : Nat) : Nat ×ₗ Nat ×ₗ Nat :=
  toLex (ext.room align, toLex (ext.source.rank, ext.address))

instance (ext : FreeExtent) (align n : Nat) : Decidable (ext.HasRoom align n) :=
  inferInstanceAs (Decidable (_ ≤ _))

/-- What the extent offers under an alignment. -/
def candidate (ext : FreeExtent) (align : Nat) : Candidate :=
  ⟨ext.room align, ext.source, ext.start align, ext.startOff align⟩

end FreeExtent

def Candidate.key (c : Candidate) : Nat ×ₗ Nat ×ₗ Nat :=
  toLex (c.usable, toLex (c.source.rank, c.baseAddr))

theorem key_candidate (ext : FreeExtent) (align : Nat) :
    (ext.candidate align).key = ext.fit align := rfl

/-- The extents a request may draw on. -/
def ReserveRequest.offered (req : ReserveRequest) (extents : List FreeExtent) :
    List FreeExtent :=
  extents.filter (fun ext => req.allows ext.source && ext.HasRoom req.align 0)

/-- The extent is allowed and holds the request after alignment. -/
def ReserveRequest.FitsIn (req : ReserveRequest) (ext : FreeExtent) : Prop :=
  req.allows ext.source = true ∧ ext.HasRoom req.align req.needed

instance (req : ReserveRequest) (ext : FreeExtent) : Decidable (req.FitsIn ext) :=
  inferInstanceAs (Decidable (_ ∧ _))

theorem pickBetter_eq (cur c : Candidate) :
    pickBetter cur c = if c.key < cur.key then c else cur := by
  have hkey : c.key < cur.key ↔ c.usable < cur.usable ∨ c.usable = cur.usable ∧
      (c.source.rank < cur.source.rank ∨ c.source.rank = cur.source.rank ∧
        c.baseAddr < cur.baseAddr) := by
    simp only [Candidate.key, Prod.Lex.toLex_lt_toLex]
  unfold pickBetter
  cases husable : compare cur.usable c.usable with
  | lt =>
    have hlt : cur.usable < c.usable := Nat.compare_eq_lt.mp husable
    exact (if_neg (by rw [hkey]; omega)).symm
  | gt =>
    have hlt : c.usable < cur.usable := Nat.compare_eq_gt.mp husable
    exact (if_pos (by rw [hkey]; omega)).symm
  | eq =>
    have heq : cur.usable = c.usable := Nat.compare_eq_eq.mp husable
    cases hrank : compare cur.source.rank c.source.rank with
    | lt =>
      have hlt : cur.source.rank < c.source.rank := Nat.compare_eq_lt.mp hrank
      exact (if_neg (by rw [hkey]; omega)).symm
    | gt =>
      have hlt : c.source.rank < cur.source.rank := Nat.compare_eq_gt.mp hrank
      exact (if_pos (by rw [hkey]; omega)).symm
    | eq =>
      have hrankEq : cur.source.rank = c.source.rank := Nat.compare_eq_eq.mp hrank
      by_cases hle : cur.baseAddr ≤ c.baseAddr
      · exact (if_pos hle).trans (if_neg (by rw [hkey]; omega)).symm
      · exact (if_neg hle).trans (if_pos (by rw [hkey]; omega)).symm

/-- One turn of the loop, in terms of what the extent offers. -/
theorem scanExtent_eq {req : ReserveRequest} {ext : FreeExtent} (best : Option Candidate)
    (largest : Nat) (hspan : ext.end' ≤ u64Max) :
    scanExtent req (best, largest) ext =
      if req.allows ext.source = true ∧ ext.HasRoom req.align 0 then
        (if req.needed ≤ ext.room req.align then
            List.argAux (fun b c : Candidate => b.key < c.key) best (ext.candidate req.align)
          else best, max largest (ext.room req.align))
      else (best, largest) := by
  have hle : ext.address ≤ ext.start req.align := le_alignUp _ _
  unfold scanExtent
  by_cases hallows : req.allows ext.source = true
  swap
  · simp [hallows]
  by_cases hroom : ext.HasRoom req.align 0
  · have hstart : ext.start req.align ≤ ext.end' := hroom
    have hround : roundUp ext.address req.align = some (ext.start req.align) :=
      roundUp_of_le (show ext.start req.align ≤ u64Max by omega)
    have hend : ext.end' = ext.address + ext.len := rfl
    have hpad : ¬ ext.start req.align - ext.address > ext.len := by omega
    have husable : ext.len - (ext.start req.align - ext.address) = ext.room req.align := by
      show _ = ext.end' - ext.start req.align
      omega
    have hmax : (if ext.room req.align > largest then ext.room req.align else largest)
        = max largest (ext.room req.align) := by
      by_cases hgt : ext.room req.align > largest
      · rw [if_pos hgt, max_eq_right (by omega)]
      · rw [if_neg hgt, max_eq_left (by omega)]
    simp only [hallows, hround, hpad, husable, hmax, hroom, not_true_eq_false, if_false, if_true,
      true_and]
    by_cases hneeded : req.needed ≤ ext.room req.align
    · rw [if_neg (by omega), if_pos hneeded]
      cases best with
      | none => rfl
      | some cur =>
        simp only [List.argAux, pickBetter_eq]
        show (some (if (ext.candidate req.align).key < cur.key then ext.candidate req.align
          else cur), _) = _
        by_cases hbetter : (ext.candidate req.align).key < cur.key
        · rw [if_pos hbetter, if_pos hbetter]
        · rw [if_neg hbetter, if_neg hbetter]
    · rw [if_pos (by omega), if_neg hneeded]
  · have hstart : ext.end' < ext.start req.align := Nat.lt_of_not_le hroom
    have hend : ext.end' = ext.address + ext.len := rfl
    simp only [hallows, hroom, not_true_eq_false, if_false, and_false]
    -- the aligned start overflows or lies past the extent
    by_cases hover : ext.start req.align ≤ u64Max
    · have hround : roundUp ext.address req.align = some (ext.start req.align) :=
        roundUp_of_le hover
      have hpad : ext.start req.align - ext.address > ext.len := by omega
      simp only [hround, hpad, if_true]
    · have hround : roundUp ext.address req.align = none :=
        roundUp_of_lt (by omega) (show u64Max < ext.start req.align by omega)
      simp only [hround]

/-! ## §5. The loop over the extents. -/

section Plan

variable {req : ReserveRequest}

/-- The candidates the loop compares, in the order of the extents. -/
def ReserveRequest.candidates (req : ReserveRequest) (extents : List FreeExtent) :
    List Candidate :=
  ((req.offered extents).filter (fun ext => req.needed ≤ ext.room req.align)).map
    (·.candidate req.align)

theorem foldl_scanExtent (extents : List FreeExtent)
    (hspan : ∀ ext ∈ extents, ext.end' ≤ u64Max) (best : Option Candidate) (largest : Nat) :
    extents.foldl (scanExtent req) (best, largest) =
      ((req.candidates extents).foldl (List.argAux (fun b c => b.key < c.key)) best,
        ((req.offered extents).map (·.room req.align)).foldl max largest) := by
  induction extents generalizing best largest with
  | nil => rfl
  | cons ext extents ih =>
    have hrest := ih (fun e he => hspan e (List.mem_cons_of_mem _ he))
    rw [List.foldl_cons, scanExtent_eq best largest (hspan ext (by simp)), apply_ite
      (fun state => extents.foldl (scanExtent req) state), hrest, hrest]
    by_cases hoffered : req.allows ext.source = true ∧ ext.HasRoom req.align 0
    · rw [if_pos hoffered]
      by_cases hneeded : req.needed ≤ ext.room req.align
      · simp [ReserveRequest.candidates, ReserveRequest.offered, hoffered, hneeded]
      · simp [ReserveRequest.candidates, ReserveRequest.offered, hoffered, hneeded]
    · have hskipped : (req.allows ext.source && decide (ext.HasRoom req.align 0)) = false := by
        simpa using hoffered
      rw [if_neg hoffered]
      simp [ReserveRequest.candidates, ReserveRequest.offered, hskipped]

theorem mem_offered {extents : List FreeExtent} {ext : FreeExtent} :
    ext ∈ req.offered extents ↔
      ext ∈ extents ∧ req.allows ext.source = true ∧ ext.HasRoom req.align 0 := by
  simp [ReserveRequest.offered]

theorem hasRoom_iff {ext : FreeExtent} {align n : Nat} :
    ext.HasRoom align n ↔ ext.HasRoom align 0 ∧ n ≤ ext.room align := by
  unfold FreeExtent.HasRoom FreeExtent.room
  omega

theorem mem_candidates {extents : List FreeExtent} {c : Candidate} :
    c ∈ req.candidates extents ↔
      ∃ ext ∈ extents, req.FitsIn ext ∧ ext.candidate req.align = c := by
  simp only [ReserveRequest.candidates, List.mem_map, List.mem_filter, mem_offered,
    decide_eq_true_eq]
  constructor
  · intro ⟨ext, ⟨⟨hmem, hallows, hroom⟩, hneeded⟩, hc⟩
    exact ⟨ext, hmem, ⟨hallows, hasRoom_iff.mpr ⟨hroom, hneeded⟩⟩, hc⟩
  · intro ⟨ext, hmem, ⟨hallows, hroom⟩, hc⟩
    have hsplit := hasRoom_iff.mp hroom
    exact ⟨ext, ⟨⟨hmem, hallows, hsplit.1⟩, hsplit.2⟩, hc⟩

/-- The best candidate of the extents, the first on a tie. -/
def ReserveRequest.best (req : ReserveRequest) (extents : List FreeExtent) : Option Candidate :=
  (req.candidates extents).argmin Candidate.key

/-- The largest aligned run that the extents offer. -/
def ReserveRequest.largest (req : ReserveRequest) (extents : List FreeExtent) : Nat :=
  ((req.offered extents).map (·.room req.align)).foldl max 0

/-- The plan drawn from a candidate. -/
def ReserveRequest.planOf (req : ReserveRequest) (c : Candidate) : PlannedReservation :=
  ⟨c.baseAddr, c.baseOff, req.needed, req.align, c.source⟩

/-- The error of a request that no extent holds. -/
def ReserveRequest.errorOf (req : ReserveRequest) (largest : Nat) : ReserveError :=
  match req.onExhaustion with
  | .fail => .insufficientFreeSpace req.needed largest
  | .grow => .growthRequired (req.needed - largest)

theorem planReservation_eq {extents : List FreeExtent} (halign : req.align ≠ 0)
    (hspan : ∀ ext ∈ extents, ext.end' ≤ u64Max) :
    planReservation extents req =
      match req.best extents with
      | some c => .ok (req.planOf c)
      | none => .error (req.errorOf (req.largest extents)) := by
  unfold planReservation
  rw [if_neg halign, foldl_scanExtent extents hspan]
  show (match req.best extents with | some c => _ | none => _) = _
  cases req.best extents with
  | some c => rfl
  | none =>
    unfold ReserveRequest.errorOf
    cases req.onExhaustion <;> rfl

theorem planReservation_ok_iff {extents : List FreeExtent} (halign : req.align ≠ 0)
    (hspan : ∀ ext ∈ extents, ext.end' ≤ u64Max) {plan : PlannedReservation} :
    planReservation extents req = .ok plan ↔
      ∃ c, req.best extents = some c ∧ req.planOf c = plan := by
  rw [planReservation_eq halign hspan]
  cases req.best extents with
  | none => simp
  | some c => simp

theorem best_eq_none_iff {extents : List FreeExtent} :
    req.best extents = none ↔ ∀ ext ∈ extents, ¬ req.FitsIn ext := by
  have hnil : req.candidates extents = [] ↔ ∀ ext ∈ extents, ¬ req.FitsIn ext := by
    rw [List.eq_nil_iff_forall_not_mem]
    constructor
    · intro h ext hmem hfits
      exact h _ (mem_candidates.mpr ⟨ext, hmem, hfits, rfl⟩)
    · intro h c hc
      have ⟨ext, hmem, hfits, _⟩ := mem_candidates.mp hc
      exact h ext hmem hfits
  unfold ReserveRequest.best
  rw [List.argmin_eq_none, hnil]

/-- The best candidate comes from an extent, and no extent that holds the
request fits better. -/
theorem best_spec {extents : List FreeExtent} {c : Candidate} (h : req.best extents = some c) :
    ∃ ext ∈ extents, req.FitsIn ext ∧ ext.candidate req.align = c ∧
      ∀ other ∈ extents, req.FitsIn other → ext.fit req.align ≤ other.fit req.align := by
  have ⟨ext, hmem, hfits, hc⟩ := mem_candidates.mp (List.argmin_mem h)
  refine ⟨ext, hmem, hfits, hc, ?_⟩
  intro other hother hfits'
  have hle := List.le_of_mem_argmin (mem_candidates.mpr ⟨other, hother, hfits', rfl⟩) h
  rwa [← hc, key_candidate, key_candidate] at hle

/-- `largest` bounds every offered run and is one of them unless it is zero. -/
theorem foldl_max_spec (l : List Nat) (m : Nat) :
    m ≤ l.foldl max m ∧ (∀ n ∈ l, n ≤ l.foldl max m) ∧
      (l.foldl max m = m ∨ l.foldl max m ∈ l) := by
  induction l generalizing m with
  | nil => simp
  | cons x xs ih =>
    have ⟨hstart, hall, hone⟩ := ih (max m x)
    refine ⟨by simp only [List.foldl_cons]; omega, ?_, ?_⟩
    · intro n hn
      by_cases hxs : n ∈ xs
      · exact hall n hxs
      · have heq : n = x := (List.mem_cons.mp hn).resolve_right hxs
        simp only [List.foldl_cons]
        omega
    · simp only [List.foldl_cons, List.mem_cons]
      by_cases hmx : m ≤ x
      · rw [max_eq_right hmx] at hone ⊢
        tauto
      · rw [max_eq_left (by omega)] at hone ⊢
        tauto

/-- The largest aligned run among the allowed extents, zero if there is none. -/
structure LargestRun (req : ReserveRequest) (extents : List FreeExtent) (n : Nat) : Prop where
  bound : ∀ ext ∈ extents, req.allows ext.source = true → ∀ k, ext.HasRoom req.align k → k ≤ n
  reached : n = 0 ∨ ∃ ext ∈ extents, req.allows ext.source = true ∧ ext.HasRoom req.align n

theorem largest_run (extents : List FreeExtent) :
    LargestRun req extents (req.largest extents) := by
  have ⟨_, hall, hone⟩ := foldl_max_spec ((req.offered extents).map (·.room req.align)) 0
  refine ⟨?_, ?_⟩
  · intro ext hmem hallows k hk
    have ⟨hroom, hle⟩ := hasRoom_iff.mp hk
    have hbound := hall _ (List.mem_map_of_mem (f := fun e : FreeExtent => e.room req.align)
      (mem_offered.mpr ⟨hmem, hallows, hroom⟩))
    exact Nat.le_trans hle hbound
  · by_cases hzero : req.largest extents = 0
    · exact .inl hzero
    · have hmem := hone.resolve_left hzero
      have ⟨ext, hoffered, heq⟩ := List.mem_map.mp hmem
      have ⟨hext, hallows, hroom⟩ := mem_offered.mp hoffered
      exact .inr ⟨ext, hext, hallows, hasRoom_iff.mpr ⟨hroom, Nat.le_of_eq heq.symm⟩⟩

/-! ## §6. The order of the extents. -/

/-- Extents that can hold the request and share an aligned start share the
file offset there. -/
def OneSkew (req : ReserveRequest) (extents : List FreeExtent) : Prop :=
  ∀ a ∈ extents, ∀ b ∈ extents, req.FitsIn a → req.FitsIn b →
    a.start req.align = b.start req.align → a.startOff req.align = b.startOff req.align

theorem rank_inj {s t : SpaceSource} (hs : req.allows s = true) (ht : req.allows t = true)
    (h : s.rank = t.rank) : s = t := by
  cases s <;> cases t <;> simp_all [SpaceSource.rank, ReserveRequest.allows]

/-- Extents of equal fit offer the same candidate. -/
theorem candidate_eq_of_fit {extents : List FreeExtent} (hskew : OneSkew req extents)
    {a b : FreeExtent} (ha : a ∈ extents) (hb : b ∈ extents) (hfa : req.FitsIn a)
    (hfb : req.FitsIn b) (h : a.fit req.align = b.fit req.align) :
    a.candidate req.align = b.candidate req.align := by
  have hlex := toLex.injective h
  have hroom : a.room req.align = b.room req.align := congrArg Prod.fst hlex
  have hrest := toLex.injective (congrArg Prod.snd hlex)
  have hrank : a.source.rank = b.source.rank := congrArg Prod.fst hrest
  have hstart : a.start req.align = b.start req.align := congrArg Prod.snd hrest
  unfold FreeExtent.candidate
  rw [hroom, hstart, rank_inj hfa.1 hfb.1 hrank, hskew a ha b hb hfa hfb hstart]

theorem best_perm {extents extents' : List FreeExtent} (hperm : extents.Perm extents')
    (hskew : OneSkew req extents) : req.best extents' = req.best extents := by
  cases h : req.best extents with
  | none =>
    rw [best_eq_none_iff] at h ⊢
    intro ext hmem
    exact h ext (hperm.mem_iff.mpr hmem)
  | some c =>
    cases h' : req.best extents' with
    | none =>
      have ⟨ext, hmem, hfits, _⟩ := best_spec h
      exact absurd hfits (best_eq_none_iff.mp h' ext (hperm.mem_iff.mp hmem))
    | some c' =>
      have ⟨a, ha, hfa, hca, hmin⟩ := best_spec h
      have ⟨b, hb, hfb, hcb, hmin'⟩ := best_spec h'
      have hb' : b ∈ extents := hperm.mem_iff.mpr hb
      have heq : a.fit req.align = b.fit req.align :=
        le_antisymm (hmin b hb' hfb) (hmin' a (hperm.mem_iff.mp ha) hfa)
      rw [← hca, ← hcb, candidate_eq_of_fit hskew ha hb' hfa hfb heq]

theorem largest_perm {extents extents' : List FreeExtent} (hperm : extents.Perm extents') :
    req.largest extents' = req.largest extents := by
  have hrun : LargestRun req extents _ := largest_run extents
  have hrun' : LargestRun req extents' _ := largest_run extents'
  apply Nat.le_antisymm
  · by_cases hzero : req.largest extents' = 0
    · omega
    · have ⟨ext, hmem, hallows, hroom⟩ := hrun'.reached.resolve_left hzero
      exact hrun.bound ext (hperm.mem_iff.mpr hmem) hallows _ hroom
  · by_cases hzero : req.largest extents = 0
    · omega
    · have ⟨ext, hmem, hallows, hroom⟩ := hrun.reached.resolve_left hzero
      exact hrun'.bound ext (hperm.mem_iff.mp hmem) hallows _ hroom

/-- Lower addresses have lower aligned starts, so an extent that is best by
its own address is best by its start. -/
theorem fit_le_of_ownFit {a b : FreeExtent} (halign : req.align ≠ 0)
    (h : a.ownFit req.align ≤ b.ownFit req.align) : a.fit req.align ≤ b.fit req.align := by
  have hmono : a.address ≤ b.address → a.start req.align ≤ b.start req.align :=
    alignUp_mono (Nat.pos_of_ne_zero halign)
  unfold FreeExtent.ownFit at h
  unfold FreeExtent.fit
  simp only [Prod.Lex.toLex_le_toLex] at h ⊢
  omega

/-- Where some extent holds the request, one is best by its own address. -/
theorem exists_ownBest {extents : List FreeExtent} {ext : FreeExtent} (hmem : ext ∈ extents)
    (hfits : req.FitsIn ext) : ∃ own ∈ extents, req.FitsIn own ∧
      ∀ other ∈ extents, req.FitsIn other →
        own.ownFit req.align ≤ other.ownFit req.align := by
  have hin : ∀ {e}, e ∈ extents → req.FitsIn e → e ∈ extents.filter (req.FitsIn ·) :=
    fun he hf => List.mem_filter.mpr ⟨he, decide_eq_true hf⟩
  cases hown : (extents.filter (req.FitsIn ·)).argmin (·.ownFit req.align) with
  | none =>
    have hnil := List.argmin_eq_none.mp hown
    exact absurd (hnil ▸ hin hmem hfits) List.not_mem_nil
  | some own =>
    have hownMem := List.mem_filter.mp (List.argmin_mem hown)
    refine ⟨own, hownMem.1, of_decide_eq_true hownMem.2, ?_⟩
    intro other hother hfo
    exact List.le_of_mem_argmin (hin hother hfo) hown

/-! ## §7. Planning is best fit. -/

/-- The plan lies in `ext`, at the request's alignment and the extent's skew. -/
structure DrawnFrom (req : ReserveRequest) (plan : PlannedReservation) (ext : FreeExtent) :
    Prop where
  allowed : req.allows ext.source = true
  inside : ext.address ≤ plan.baseAddress ∧ plan.baseAddress + plan.capacity ≤ ext.end'
  insideFile : ext.fileOffset ≤ plan.baseFileOffset ∧
    plan.baseFileOffset + plan.capacity ≤ ext.fileOffset + ext.len
  aligned : req.align ∣ plan.baseAddress
  skew : plan.baseFileOffset = ext.fileOffset + (plan.baseAddress - ext.address)
  whole : plan.capacity = req.needed ∧ plan.align = req.align ∧ plan.source = ext.source

theorem drawnFrom_planOf {ext : FreeExtent} (halign : req.align ≠ 0) (h : req.FitsIn ext) :
    DrawnFrom req (req.planOf (ext.candidate req.align)) ext := by
  have hle : ext.address ≤ ext.start req.align := le_alignUp _ _
  have hroom : ext.start req.align + req.needed ≤ ext.address + ext.len := h.2
  have hfile : ext.startOff req.align + req.needed ≤ ext.fileOffset + ext.len := by
    show ext.fileOffset + (ext.start req.align - ext.address) + req.needed ≤ _
    omega
  exact {
    allowed := h.1
    inside := ⟨hle, hroom⟩
    insideFile := ⟨Nat.le_add_right _ _, hfile⟩
    aligned := dvd_alignUp _ (Nat.pos_of_ne_zero halign)
    skew := rfl
    whole := ⟨rfl, rfl, rfl⟩ }

/-- What a reservation guarantees of a list of free extents and a request. -/
structure BestFit (extents : List FreeExtent) (req : ReserveRequest) : Prop where
  total : (∃ plan, planReservation extents req = .ok plan) ↔
    req.align ≠ 0 ∧ ∃ ext ∈ extents, req.FitsIn ext
  /-- The plan comes from an allowed extent that none fits better than. -/
  best : ∀ plan, planReservation extents req = .ok plan → ∃ ext ∈ extents,
    DrawnFrom req plan ext ∧
      ∀ other ∈ extents, req.FitsIn other → ¬ other.fit req.align < ext.fit req.align
  /-- Under one skew that holds for the extents' own addresses as well. -/
  bestOwn : OneSkew req extents → ∀ plan, planReservation extents req = .ok plan →
    ∃ ext ∈ extents, DrawnFrom req plan ext ∧
      ∀ other ∈ extents, req.FitsIn other → ¬ other.ownFit req.align < ext.ownFit req.align
  anyOrder : OneSkew req extents → ∀ extents', extents.Perm extents' →
    planReservation extents' req = planReservation extents req
  refused : ∀ e, planReservation extents req = .error e →
    (req.align = 0 ∧ e = .zeroAlign) ∨
    (req.align ≠ 0 ∧ ∃ largest, LargestRun req extents largest ∧
      (req.onExhaustion = .fail ∧ e = .insufficientFreeSpace req.needed largest ∨
        req.onExhaustion = .grow ∧ ∃ deficit, e = .growthRequired deficit ∧
          req.needed = deficit + largest))

theorem planReservation_zeroAlign (extents : List FreeExtent) (h : req.align = 0) :
    planReservation extents req = .error .zeroAlign := by
  unfold planReservation
  rw [if_pos h]

theorem planReservation_bestFit (extents : List FreeExtent) (req : ReserveRequest)
    (hspan : ∀ ext ∈ extents, ext.address + ext.len ≤ u64Max ∧
      ext.fileOffset + ext.len ≤ u64Max) : BestFit extents req := by
  by_cases halign : req.align = 0
  · have hzero : ∀ l, planReservation l req = .error .zeroAlign :=
      fun l => planReservation_zeroAlign l halign
    have hnever : ∀ plan, planReservation extents req ≠ .ok plan := by
      intro plan h
      rw [hzero] at h
      exact nomatch h
    refine
      { total := ⟨fun ⟨plan, h⟩ => absurd h (hnever plan), fun h => absurd halign h.1⟩
        best := fun plan h => absurd h (hnever plan)
        bestOwn := fun _ plan h => absurd h (hnever plan)
        anyOrder := fun _ extents' _ => (hzero extents').trans (hzero extents).symm
        refused := ?_ }
    intro e he
    exact .inl ⟨halign, (Except.error.inj ((hzero extents).symm.trans he)).symm⟩
  have hend : ∀ ext ∈ extents, ext.end' ≤ u64Max := fun ext hmem => (hspan ext hmem).1
  have hok : ∀ plan, planReservation extents req = .ok plan ↔
      ∃ c, req.best extents = some c ∧ req.planOf c = plan :=
    fun plan => planReservation_ok_iff halign hend
  refine { total := ?_, best := ?_, bestOwn := ?_, anyOrder := ?_, refused := ?_ }
  · constructor
    · intro ⟨plan, hplan⟩
      have ⟨c, hbest, _⟩ := (hok plan).mp hplan
      have ⟨ext, hmem, hfits, _⟩ := best_spec hbest
      exact ⟨halign, ext, hmem, hfits⟩
    · intro ⟨_, ext, hmem, hfits⟩
      cases hbest : req.best extents with
      | none => exact absurd hfits (best_eq_none_iff.mp hbest ext hmem)
      | some c => exact ⟨_, (hok _).mpr ⟨c, hbest, rfl⟩⟩
  · intro plan hplan
    have ⟨c, hbest, hplanOf⟩ := (hok plan).mp hplan
    have ⟨ext, hmem, hfits, hc, hmin⟩ := best_spec hbest
    refine ⟨ext, hmem, ?_, fun other hother hfo => not_lt_of_ge (hmin other hother hfo)⟩
    rw [← hplanOf, ← hc]
    exact drawnFrom_planOf halign hfits
  · intro hskew plan hplan
    have ⟨c, hbest, hplanOf⟩ := (hok plan).mp hplan
    have ⟨ext, hmem, hfits, hc, hmin⟩ := best_spec hbest
    have ⟨own, hown, hownFits, hleast⟩ := exists_ownBest hmem hfits
    have hfit : own.fit req.align = ext.fit req.align :=
      le_antisymm (fit_le_of_ownFit halign (hleast ext hmem hfits)) (hmin own hown hownFits)
    -- so the extent that is best by its own address offers the same candidate
    have hsame := candidate_eq_of_fit hskew hown hmem hownFits hfits hfit
    refine ⟨own, hown, ?_, fun other hother hfo => not_lt_of_ge (hleast other hother hfo)⟩
    rw [← hplanOf, ← hc, ← hsame]
    exact drawnFrom_planOf halign hownFits
  · intro hskew extents' hperm
    have hend' : ∀ ext ∈ extents', ext.end' ≤ u64Max :=
      fun ext hmem => hend ext (hperm.mem_iff.mpr hmem)
    rw [planReservation_eq halign hend, planReservation_eq halign hend', best_perm hperm hskew,
      largest_perm hperm]
  · intro e he
    rw [planReservation_eq halign hend] at he
    cases hbest : req.best extents with
    | some c =>
      rw [hbest] at he
      exact nomatch he
    | none =>
      rw [hbest] at he
      have herror := (Except.error.inj he).symm
      have hrun : LargestRun req extents _ := largest_run extents
      -- no extent holds the request, so the largest run is short of it
      have hshort : req.largest extents ≤ req.needed := by
        by_contra hlt
        have ⟨ext, hmem, hallows, hroom⟩ := hrun.reached.resolve_left (by omega)
        have hneeded : ext.HasRoom req.align req.needed := by
          unfold FreeExtent.HasRoom at hroom ⊢
          omega
        exact best_eq_none_iff.mp hbest ext hmem ⟨hallows, hneeded⟩
      refine .inr ⟨halign, req.largest extents, hrun, ?_⟩
      unfold ReserveRequest.errorOf at herror
      cases hpolicy : req.onExhaustion with
      | fail =>
        rw [hpolicy] at herror
        exact .inl ⟨rfl, herror⟩
      | grow =>
        rw [hpolicy] at herror
        exact .inr ⟨rfl, _, herror, by omega⟩

/-- A hole and a tail pad, a request that only the larger one holds. -/
theorem planReservation_holeAndPad :
    BestFit [⟨0x1001, 0x1001, 0x40, .interSectionHole⟩, ⟨0x2000, 0x2000, 0x800, .tailPad⟩]
      ⟨0x100, 0x40, 16, false, .fail⟩ :=
  planReservation_bestFit _ _ (by decide)

/-- Two extents at distinct addresses can tie: their starts align to one
address, and the plan then takes the file offset of the one listed first.
And the sum of a request stops at the largest 64-bit number, where the plan
holds fewer bytes than were asked for. -/
theorem planReservation_orderMatters :
    (∃ (a b : FreeExtent) (req : ReserveRequest), a.address ≠ b.address ∧
      a.address + a.len ≤ u64Max ∧ a.fileOffset + a.len ≤ u64Max ∧
      b.address + b.len ≤ u64Max ∧ b.fileOffset + b.len ≤ u64Max ∧
      planReservation [a, b] req ≠ planReservation [b, a] req) ∧
    (∃ (a : FreeExtent) (req : ReserveRequest), a.address + a.len ≤ u64Max ∧
      a.fileOffset + a.len ≤ u64Max ∧ req.minBytes ≤ u64Max ∧ req.headroom ≤ u64Max ∧
      (∃ plan, planReservation [a] req = .ok plan) ∧
      ∀ n, a.HasRoom req.align n → n < req.minBytes + req.headroom) := by
  refine ⟨⟨⟨0x1001, 0x1001, 0x1fff, .tailPad⟩, ⟨0x1002, 0x5002, 0x1ffe, .tailPad⟩,
    ⟨0x100, 0, 0x1000, false, .fail⟩, by decide⟩, ?_⟩
  refine ⟨⟨0, 0, u64Max, .tailPad⟩, ⟨u64Max, 1, 1, false, .fail⟩, by decide, by decide,
    by decide, by decide, ⟨⟨0, 0, u64Max, 1, .tailPad⟩, by decide⟩, ?_⟩
  intro n hroom
  have hend : 0 + n ≤ 0 + u64Max := hroom
  show n < u64Max + 1
  omega

end Plan

end Armv8Encode.Space

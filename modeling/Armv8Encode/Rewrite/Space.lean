/-
  Armv8Encode.Rewrite.Space — where room for new code comes from.

  New code and read-only data are carved out of the free space of a binary:
  holes between sections, the pad at a segment's tail and, when the caller
  allows it, the header pad.  `planReservation` picks one free extent for a
  request; the `Region` over the planned span hands out slices front to back.

  Addresses, offsets and lengths are natural numbers; `roundUp` and `carve`
  test their sums against the 64-bit range where the source does.
-/
import Armv8Encode.Lib.Buffer

namespace Armv8Encode.Space

/-! ## §1. Free extents and requests. -/

/-- Largest 64-bit number. -/
def u64Max : Nat := 2 ^ 64 - 1

/-- A sum that fits in 64 bits. -/
def checkedAdd (a b : Nat) : Option Nat := if a + b ≤ u64Max then some (a + b) else none

/-- A sum that stops at the largest 64-bit number. -/
def saturatingAdd (a b : Nat) : Nat := min (a + b) u64Max

/-- Where a chunk of reserved space came from. -/
inductive SpaceSource where
  | interSectionHole
  | tailPad
  | headerPad
  /-- The segment was extended at its tail; the writer records this. -/
  | grewText (pages : Nat)
  deriving Repr, DecidableEq

/-- Preference rank, lower is less disruptive. -/
def SpaceSource.rank : SpaceSource → Nat
  | .interSectionHole => 0
  | .tailPad => 1
  | .headerPad => 2
  | .grewText _ => 3

/-- One contiguous run of free bytes within a segment. -/
structure FreeExtent where
  address : Nat
  fileOffset : Nat
  len : Nat
  source : SpaceSource
  deriving Repr, DecidableEq

/-- What to do when free space is insufficient for a reservation. -/
inductive Exhaustion where
  | grow
  | fail
  deriving Repr, DecidableEq

structure ReserveRequest where
  minBytes : Nat
  headroom : Nat
  align : Nat
  allowHeaderpad : Bool
  onExhaustion : Exhaustion
  deriving Repr, DecidableEq

/-- Total capacity the reservation asks for. -/
def ReserveRequest.needed (req : ReserveRequest) : Nat :=
  saturatingAdd req.minBytes req.headroom

structure PlannedReservation where
  baseAddress : Nat
  baseFileOffset : Nat
  capacity : Nat
  align : Nat
  source : SpaceSource
  deriving Repr, DecidableEq

/-- Why a reservation could not be planned from free space. -/
inductive ReserveError where
  | zeroAlign
  | insufficientFreeSpace (needed largestAvailable : Nat)
  /-- The caller must extend the segment by at least `deficit` bytes. -/
  | growthRequired (deficit : Nat)
  deriving Repr, DecidableEq

/-- Round up to the next multiple of `align`, unless that overflows. -/
def roundUp (value align : Nat) : Option Nat :=
  let rem := value % align
  if rem = 0 then some value else checkedAdd value (align - rem)

/-! ## §2. Planning a reservation. -/

/-- What an extent offers a request: `(usable, source, base_addr, base_off)`. -/
structure Candidate where
  usable : Nat
  source : SpaceSource
  baseAddr : Nat
  baseOff : Nat
  deriving Repr, DecidableEq

/-- Best fit, tie-broken by cheaper source, then by lower address. -/
def pickBetter (a b : Candidate) : Candidate :=
  match compare a.usable b.usable with
  | .lt => a
  | .gt => b
  | .eq =>
    match compare a.source.rank b.source.rank with
    | .lt => a
    | .gt => b
    | .eq => if a.baseAddr ≤ b.baseAddr then a else b

/-- Growth extents are never offered as free space, header pad only when the
request allows it. -/
def ReserveRequest.allows (req : ReserveRequest) (source : SpaceSource) : Bool :=
  match source with
  | .headerPad => req.allowHeaderpad
  | .grewText _ => false
  | _ => true

/-- One turn of the loop over the extents: the best candidate so far and the
largest aligned run seen. -/
def scanExtent (req : ReserveRequest) (state : Option Candidate × Nat) (ext : FreeExtent) :
    Option Candidate × Nat :=
  let (best, largestAvailable) := state
  if ¬ req.allows ext.source then (best, largestAvailable)
  else
    match roundUp ext.address req.align with
    | none => (best, largestAvailable)
    | some baseAddr =>
      let pad := baseAddr - ext.address
      -- alignment ate the whole extent
      if pad > ext.len then (best, largestAvailable)
      else
        let usable := ext.len - pad
        let largestAvailable := if usable > largestAvailable then usable else largestAvailable
        if usable < req.needed then (best, largestAvailable)
        else
          let candidate : Candidate := ⟨usable, ext.source, baseAddr, ext.fileOffset + pad⟩
          (some (match best with
            | none => candidate
            | some cur => pickBetter cur candidate), largestAvailable)

/-- Plan a contiguous reservation from the free extents. -/
def planReservation (freeExtents : List FreeExtent) (req : ReserveRequest) :
    Except ReserveError PlannedReservation :=
  if req.align = 0 then .error .zeroAlign
  else
    let (best, largestAvailable) := freeExtents.foldl (scanExtent req) (none, 0)
    match best with
    | some c => .ok ⟨c.baseAddr, c.baseOff, req.needed, req.align, c.source⟩
    | none =>
      match req.onExhaustion with
      | .fail => .error (.insufficientFreeSpace req.needed largestAvailable)
      | .grow => .error (.growthRequired (req.needed - largestAvailable))

/-! ## §3. The region. -/

/-- A reserved contiguous span, sub-allocated front to back.  The cursor
counts the bytes consumed from the base, alignment padding included. -/
structure Region where
  baseAddress : Nat
  baseFileOffset : Nat
  capacity : Nat
  cursor : Nat
  source : SpaceSource
  cursor_le : cursor ≤ capacity
  deriving Repr, DecidableEq

/-- One sub-allocation out of a region. -/
structure Carve where
  address : Nat
  fileOffset : Nat
  offsetInRegion : Nat
  len : Nat
  deriving Repr, DecidableEq

/-- Why a carve failed. -/
inductive CarveError where
  | zeroAlign
  | regionFull (requested available : Nat)
  | overflow
  deriving Repr, DecidableEq

namespace Region

def new (baseAddress baseFileOffset capacity : Nat) (source : SpaceSource) : Region :=
  ⟨baseAddress, baseFileOffset, capacity, 0, source, Nat.zero_le _⟩

def used (r : Region) : Nat := r.cursor

def remaining (r : Region) : Nat := r.capacity - r.cursor

/-- Carve `len` bytes aligned to `align`: the result and the region after. -/
def carve (r : Region) (len align : Nat) : Except CarveError Carve × Region :=
  if align = 0 then (.error .zeroAlign, r)
  else
    match checkedAdd r.baseAddress r.cursor with
    | none => (.error .overflow, r)
    | some curAddr =>
      match roundUp curAddr align with
      | none => (.error .overflow, r)
      | some alignedAddr =>
        let pad := alignedAddr - curAddr
        match (checkedAdd r.cursor pad).bind (checkedAdd · len) with
        | none => (.error .overflow, r)
        | some newCursor =>
          if h : newCursor > r.capacity then (.error (.regionFull len (r.capacity - r.cursor)), r)
          else
            let offsetInRegion := r.cursor + pad
            (.ok ⟨alignedAddr, r.baseFileOffset + offsetInRegion, offsetInRegion, len⟩,
              { r with cursor := newCursor, cursor_le := Nat.le_of_not_lt h })

end Region

/-- The bump allocator over a planned span. -/
def PlannedReservation.region (plan : PlannedReservation) : Region :=
  .new plan.baseAddress plan.baseFileOffset plan.capacity plan.source

end Armv8Encode.Space

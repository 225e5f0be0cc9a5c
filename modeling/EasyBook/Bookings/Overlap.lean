import EasyBook.Bookings.Model

/-!
# The overlap rule

`booking-overlap.ts`: the half-open comparison (`overlapOr`), the approved clash and the pending
losers as queries over a view, and `parseSlots`, the validation of requested spans. A `Date` built
from a caller's string may be invalid, so parsed spans carry time values (`TimeValue`), and a query
or a write that is handed one that is not an instant is refused by the database client.
-/

namespace EasyBook

open ReadCommitted

/-- `date.getTime()`: `none` is `NaN`. -/
abbrev TimeValue : Type := Option ℤ

/-- A span of a request. -/
structure SlotSpan where
  start : ℤ
  «end» : ℤ
  deriving DecidableEq, Repr

/-- A span whose ends were parsed from a caller's strings. -/
structure ParsedSpan where
  start : TimeValue
  «end» : TimeValue
  deriving DecidableEq, Repr

/-- A requested slot: the time values of its two strings. -/
structure BookingSlotInput where
  startAt : TimeValue
  endAt : TimeValue
  deriving DecidableEq, Repr

/-! ### Queries -/

/-- `theirs.start < mine.end && theirs.end > mine.start`, for one of the spans. -/
def overlapOr (spans : List SlotSpan) (s : BookingSlot) : Bool :=
  spans.any fun m ↦ decide (s.startAt < m.end) && decide (m.start < s.endAt)

/-- Live slots at the venue whose parent is approved and which overlap the spans. -/
def approvedClashWhere (d : View) (venueId : Cuid) (spans : List SlotSpan)
    (excludeRequestId : Option Cuid) (s : BookingSlot) : Bool :=
  decide (s.venueId = venueId) && !s.isCancelled &&
    (d.row .request s.bookingRequestId).any (fun r ↦ decide (r.status = .approved)) &&
    (excludeRequestId.all fun id ↦ decide (s.bookingRequestId ≠ id)) && overlapOr spans s

/-- The clash, if there is one. -/
def findApprovedClash (d : View) (venueId : Cuid) (spans : List SlotSpan)
    (excludeRequestId : Option Cuid) : Option BookingSlot :=
  if spans = [] then none
  else (d.all .slot).find? (approvedClashWhere d venueId spans excludeRequestId)

/-- The pending requests at the venue with a live slot that overlaps the spans. -/
def pendingLoserWhere (d : View) (venueId : Cuid) (spans : List SlotSpan)
    (excludeRequestId : Option Cuid) (r : BookingRequest) : Bool :=
  decide (r.venueId = venueId) && decide (r.status = .pending) &&
    (excludeRequestId.all fun id ↦ decide (r.id ≠ id)) &&
    (d.all .slot).any fun s ↦
      decide (s.bookingRequestId = r.id) && !s.isCancelled && overlapOr spans s

/-- The losers of a decision, ordered by code. -/
def findPendingLosers (d : View) (venueId : Cuid) (spans : List SlotSpan)
    (excludeRequestId : Option Cuid) : List BookingRequest :=
  if spans = [] then []
  else ((d.all .request).filter
    (pendingLoserWhere d venueId spans excludeRequestId)).insertionSort fun a b ↦ a.code ≤ b.code

/-! ### Validation -/

/-- `a <= b` on time values: a comparison with `NaN` is false. -/
def TimeValue.le (a b : TimeValue) : Bool :=
  match a, b with
  | some a, some b => decide (a ≤ b)
  | _, _ => false

/-- `a < b` on time values. -/
def TimeValue.lt (a b : TimeValue) : Bool :=
  match a, b with
  | some a, some b => decide (a < b)
  | _, _ => false

/-- The two checks of one requested slot. -/
def parseSlot (now : ℤ) (s : BookingSlotInput) : Except BookingError ParsedSpan :=
  if TimeValue.le s.endAt s.startAt then .error (.badRequest .slotRangeInvalid)
  else if TimeValue.le s.startAt (some now) then .error (.badRequest .slotInThePast)
  else .ok ⟨s.startAt, s.endAt⟩

/-- The comparator `a.start - b.start`, as "not after": a `NaN` difference counts as zero. -/
def StartsNotAfter (a b : ParsedSpan) : Prop := TimeValue.lt b.start a.start = false

instance : DecidableRel StartsNotAfter := fun a b ↦
  inferInstanceAs (Decidable (TimeValue.lt b.start a.start = false))

/-- Does a slot start before the one in front of it has ended? -/
def selfOverlap : List ParsedSpan → Bool
  | a :: b :: l => TimeValue.lt b.start a.end || selfOverlap (b :: l)
  | _ => false

/-- `parseSlots`, given `Date.now()`. -/
def parseSlots (now : ℤ) (input : List BookingSlotInput) :
    Except BookingError (List ParsedSpan) := do
  let slots ← input.mapM (parseSlot now)
  if selfOverlap (slots.insertionSort StartsNotAfter) then
    throw (.badRequest .slotSelfOverlap)
  return slots

/-- The span, if both ends are instants. -/
def ParsedSpan.toSlotSpan (s : ParsedSpan) : Option SlotSpan :=
  match s.start, s.end with
  | some start, some stop => some ⟨start, stop⟩
  | _, _ => none

/-- The spans as arguments of a statement: the client refuses an invalid `Date`. -/
def slotSpans (slots : List ParsedSpan) : Except BookingError (List SlotSpan) :=
  match slots.mapM ParsedSpan.toSlotSpan with
  | some spans => .ok spans
  | none => .error .invalidDate

end EasyBook

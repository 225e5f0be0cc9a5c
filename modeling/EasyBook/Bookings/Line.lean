import EasyBook.Bookings.Code
import EasyBook.Bookings.Overlap

/-!
# The bookings of LINE users

`bookings.service.ts`: a LINE user submits a request (`createFromLine`), withdraws one that was not
decided yet (`cancelPendingBooking`), or drops one day of an approved booking
(`cancelApprovedSlot`). None of the three takes the venue's advisory lock.
-/

namespace EasyBook

open ReadCommitted ReadCommitted.Prog

/-! ### Replies -/

/-- A loser of a decision, as it is reported. -/
structure AutoRejectedBooking where
  id : Cuid
  code : JsString
  deriving DecidableEq

/-- What a call returns. -/
inductive Reply where
  /-- `createFromLine`: the row and its slots. -/
  | created (row : BookingRequest) (slots : List BookingSlot)
  /-- `cancelPendingBooking`. -/
  | withdrawn (id : Cuid)
  /-- `cancelApprovedSlot`. -/
  | slotCancelled (id slotId : Cuid)
  /-- `approve`. -/
  | approved (bookingId : Cuid) (autoRejected : List AutoRejectedBooking)
  /-- `createDirect`. -/
  | direct (bookingId : Cuid) (autoRejected : List AutoRejectedBooking)
  /-- `reject`. -/
  | rejected (id : Cuid)
  /-- `cancel`, with the slots it cancelled. -/
  | cancelled (id : Cuid) (slotIds : List Cuid)
  /-- `expireOverdue`, with the requests it expired. -/
  | expired (ids : List Cuid)
  deriving DecidableEq

/-- A call of a booking service. -/
abbrev Call : Type := Session Row BookingError Cuid Ans Reply

/-! ### Shared pieces -/

/-- The `P2002` of a code that is taken, with the `meta.target` that the driver gives it. -/
def codeViolation (target : Errors.Target) : Errors.ErrorGraph Unit := fun _ ↦
  { cls := .knownRequest
    code := some (JsString.lit "P2002")
    originalCode := none
    message := none
    name := some (JsString.lit "PrismaClientKnownRequestError")
    metadata := false
    cause := .undefined
    info := some ⟨target, .undefined, .undefined⟩ }

/-- `isCodeCollision` of that error. -/
def isCodeCollision (target : Errors.Target) : Bool :=
  Errors.isCodeCollision (codeViolation target) (.object ())

/-- Run a transaction again after a code collision, `n` times at most; `runDecision` translates its
errors. The retry is around the whole transaction. A collision counts as one only if the driver
names the column. -/
def retryOnCollision (runDecision : BookingError → BookingError) (p : Tx Reply) : ℕ → Call
  | 0 => .done (.error .internalServerError)
  | n + 1 => .attempt p fun r ↦
    match r with
    | .ok reply => .done (.ok reply)
    | .error e =>
      if runDecision e = .codeCollision then
        .ask .violatedTarget fun target ↦
          if isCodeCollision target = false then .done (.error .unnamedCollision)
          else if n = 0 then .done (.error .codeCollision)
          else retryOnCollision runDecision p n
      else .done (.error (runDecision e))

/-- `assertNoApprovedClash`. -/
def assertNoApprovedClash (venueId : Cuid) (spans : List SlotSpan)
    (excludeRequestId : Option Cuid) : Tx Unit := do
  let clash ← query fun d ↦ findApprovedClash d venueId spans excludeRequestId
  refuse (clash.isSome = true) (.conflict .slotTaken)

/-- `Math.min(...spans.map(start))` and `Math.max(...spans.map(end))` as a pair of dates; both are
invalid when there is no span. -/
def spanBounds (spans : List SlotSpan) : Option (ℤ × ℤ) :=
  match (spans.map SlotSpan.start).min?, (spans.map SlotSpan.end).max? with
  | some first, some last => some (first, last)
  | _, _ => none

/-- The span of a slot. -/
def BookingSlot.span (s : BookingSlot) : SlotSpan := ⟨s.startAt, s.endAt⟩

/-- The nested `create` of the slots, one row for each span, with the parent's venue. -/
def createSlots (row : BookingRequest) : List SlotSpan → Tx (List BookingSlot)
  | [] => pure []
  | m :: spans => do
    let slot ← createSlot fun c id ↦
      { id, bookingRequestId := row.id, venueId := row.venueId, startAt := m.start, endAt := m.end,
        isCancelled := false, cancelledAt := none, cancelledById := none, cancelledByRole := none,
        cancelReason := none, reminderSentAt := none, holdsSlot := false, createdAt := c,
        updatedAt := c }
    let rest ← createSlots row spans
    pure (slot :: rest)

/-- The slots of a request that are not cancelled. -/
def liveSlots (d : View) (id : Cuid) : List BookingSlot :=
  (d.all .slot).filter fun s ↦ decide (s.bookingRequestId = id) && !s.isCancelled

/-- What a cancellation writes on the request: the last slot takes the request with it, and
otherwise the span is recomputed over the slots that remain. -/
def cancelledRequest (remaining : List BookingSlot) (c : ℤ) (r : BookingRequest) : BookingRequest :=
  match spanBounds (remaining.map BookingSlot.span) with
  | some (first, last) => { r with firstStartAt := first, lastEndAt := last, updatedAt := c }
  | none => { r with status := .cancelled, updatedAt := c }

/-- `update({ where: { id } })`: one row, or `P2025`. -/
def updateRequestById (id : Cuid) (data : ℤ → BookingRequest → BookingRequest) : Tx Unit := do
  let rows ← updateRequests fun c r ↦ if r.id = id then some (data c r) else none
  refuse (rows = []) .recordNotFound

/-! ### Requesters -/

/-- `resolveAllowedRequester`: identity and permission in one read. -/
def resolveAllowedRequester (lineSub : JsString) (k : Cuid → Call) : Call :=
  .ask (.lineUser lineSub) fun user ↦
    match user with
    | some (id, .allowed) => k id
    | _ => .done (.error (.forbidden .bookingNotAllowed))

/-- A booking addressed by `cuid` or by `code`, scoped to its owner. -/
def ownedBookingWhere (idOrCode : JsString) (lineUserId : Cuid) (r : BookingRequest) : Bool :=
  let key := JsString.stripHash (JsString.trim idOrCode)
  decide (r.lineUserId = some lineUserId) && (decide (cuidText r.id = key) || decide (r.code = key))

/-- The four columns that a cancellation through the LINE app writes. -/
def cancellation (t : ℤ) (lineUserId : Cuid) (c : ℤ) (s : BookingSlot) : BookingSlot :=
  { s with
    isCancelled := true, cancelledAt := some t, cancelledById := some lineUserId,
    cancelledByRole := some .lineUser, updatedAt := c }

/-! ### Submitting -/

/-- `CreateLineBookingDto`. -/
structure CreateLineBookingDto where
  venueId : Cuid
  purpose : JsString
  attendees : ℤ
  slots : List BookingSlotInput
  /-- `@ArrayMinSize(1)`. -/
  slots_ne_nil : slots ≠ []

/-- One attempt at inserting a request with a fresh code. -/
def insertOnce (venueId lineUserId : Cuid) (dto : CreateLineBookingDto)
    (slots : List ParsedSpan) : Tx Reply := do
  let spans ← ofExcept (slotSpans slots)
  assertNoApprovedClash venueId spans none
  let now ← readClock
  let code ← nextBookingCode now
  let (firstStartAt, lastEndAt) ← require (spanBounds spans) .invalidDate
  let row ← createRequest fun c id ↦
    { id, code, lineUserId := some lineUserId, createdById := none, requesterName := none,
      contactPhone := none, departmentId := none, venueId, purpose := dto.purpose,
      attendees := dto.attendees, status := .pending, rejectReason := none, firstStartAt, lastEndAt,
      approvedById := none, approvedAt := none, createdAt := c, updatedAt := c }
  let created ← createSlots row spans
  pure (.created row (created.insertionSort fun a b ↦
    a.startAt < b.startAt ∨ a.startAt = b.startAt ∧ a.id ≤ b.id))

/-- `POST /line-users/bookings`. -/
def createFromLine (lineSub : JsString) (dto : CreateLineBookingDto) : Call :=
  resolveAllowedRequester lineSub fun requester ↦
    .now fun now ↦
      match parseSlots now dto.slots with
      | .error e => .done (.error e)
      | .ok slots =>
        .ask (.venue dto.venueId) fun venue ↦
          match venue with
          | none => .done (.error (.notFound .venueNotFound))
          | some (_, false) => .done (.error (.conflict .venueClosed))
          | some (venueId, true) =>
            retryOnCollision id (insertOnce venueId requester dto slots) bookingCodeMaxAttempts

/-! ### Withdrawing -/

/-- The transaction of `cancelPendingBooking`. -/
def cancelPendingBookingTx (idOrCode : JsString) (requester : Cuid) (now : ℤ) : Tx Reply := do
  let found ← query fun d ↦ (d.all .request).find? (ownedBookingWhere idOrCode requester)
  let booking ← require found (.notFound .bookingNotFound)
  refuse (booking.status ≠ .pending) (.unprocessableEntity .bookingNotPending)
  let flipped ← updateRequests fun c r ↦
    if r.id = booking.id ∧ r.status = .pending then
      some { r with status := .cancelled, updatedAt := c }
    else none
  refuse (flipped.length ≠ 1) (.unprocessableEntity .bookingNotPending)
  let _ ← updateSlots fun c s ↦
    if s.bookingRequestId = booking.id ∧ s.isCancelled = false then
      some (cancellation now requester c s)
    else none
  pure (.withdrawn booking.id)

/-- `PATCH /line-users/bookings/:id/cancel`. -/
def cancelPendingBooking (lineSub idOrCode : JsString) : Call :=
  resolveAllowedRequester lineSub fun requester ↦
    .now fun now ↦ .attempt (cancelPendingBookingTx idOrCode requester now) .done

/-! ### Dropping one day -/

/-- The transaction of `cancelApprovedSlot`. -/
def cancelApprovedSlotTx (idOrCode : JsString) (slotId requester : Cuid) (now cutoff : ℤ) :
    Tx Reply := do
  let found ← query fun d ↦ (d.all .request).find? (ownedBookingWhere idOrCode requester)
  let booking ← require found (.notFound .bookingNotFound)
  refuse (booking.status ≠ .approved) (.unprocessableEntity .bookingNotApproved)
  let found ← query fun d ↦
    (d.row .slot slotId).filter fun s ↦ decide (s.bookingRequestId = booking.id)
  let slot ← require found (.notFound .slotNotFound)
  refuse (slot.isCancelled = true) (.unprocessableEntity .slotAlreadyCancelled)
  refuse (slot.startAt ≤ cutoff) (.unprocessableEntity .slotCancelTooLate)
  -- The condition is in the update too, as the slot may be cancelled between the two.
  let cancelled ← updateSlots fun c s ↦
    if s.id = slot.id ∧ s.isCancelled = false then some (cancellation now requester c s) else none
  refuse (cancelled.length ≠ 1) (.unprocessableEntity .slotAlreadyCancelled)
  -- Read after the update, so the slot just cancelled is not among them.
  let remaining ← query fun d ↦ liveSlots d booking.id
  updateRequestById booking.id (cancelledRequest remaining)
  pure (.slotCancelled booking.id slotId)

/-- `readCancelLeadMinutes`: the setting, or the default of thirty minutes. -/
def readCancelLeadMinutes (value : Option JsString) : ℤ :=
  match JsString.parseInt (value.getD []) with
  | some parsed => if 0 ≤ parsed then parsed else 30
  | none => 30

/-- `PATCH /line-users/bookings/:id/slots/:slotId/cancel`. -/
def cancelApprovedSlot (lineSub idOrCode : JsString) (slotId : Cuid) : Call :=
  resolveAllowedRequester lineSub fun requester ↦
    .ask .cancelLeadMinutes fun value ↦
      .now fun now ↦
        .attempt (cancelApprovedSlotTx idOrCode slotId requester now
          (now + readCancelLeadMinutes value * 60000)) .done

end EasyBook

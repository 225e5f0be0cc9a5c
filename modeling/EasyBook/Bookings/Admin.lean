import EasyBook.Bookings.Line

/-!
# Decisions by staff

`admin-bookings.service.ts`: approve and reject a request, cancel a booking or some of its slots,
and book a room outright. `approve`, `cancel` and `createDirect` take the venue's advisory lock;
`reject` does not. Approving a request, and booking directly, rejects every pending request that
overlaps it: the losers are read by one statement (`findPendingLosers`) and written by another
(`rejectLosers`).
-/

namespace EasyBook

open ReadCommitted ReadCommitted.Prog

/-- The staff member who acts. -/
structure Actor where
  id : Cuid
  role : SystemRole
  deriving DecidableEq

/-- `AUTO_REJECTED_REASON`. -/
def autoRejectedReason : JsString :=
  JsString.lit "ช่วงเวลาที่ขอถูกจัดสรรให้การจองอื่นแล้ว จึงไม่สามารถอนุมัติคำขอนี้ได้"

/-! ### The transaction wrapper -/

/-- `lockVenue`: `pg_advisory_xact_lock`. -/
def lockVenue (venueId : Cuid) : Tx Unit := acquire venueId

/-- `runDecision`: the translation of the errors of a deciding transaction. -/
def runDecision : BookingError → BookingError
  | .codeCollision => .codeCollision
  | .overlapViolation => .conflict .slotTaken
  | .transactionRace => .conflict .bookingDecisionRace
  | e => e

/-- A deciding transaction outside a retry loop. -/
def decision (p : Tx Reply) : Call :=
  .attempt p fun r ↦ .done (r.mapError runDecision)

/-- `rejectLosers`: one `updateMany`, and the list it was asked for. -/
def rejectLosers (losers : List BookingRequest) : Tx (List AutoRejectedBooking) :=
  if losers = [] then pure []
  else do
    let _ ← updateRequests fun c r ↦
      if r.id ∈ losers.map BookingRequest.id ∧ r.status = .pending then
        some { r with
          status := .rejected, rejectReason := some autoRejectedReason, updatedAt := c }
      else none
    pure (losers.map fun l ↦ ⟨l.id, l.code⟩)

/-! ### Approving -/

/-- The transaction of `approve`. The steps are numbered as in the source. -/
def approveTx (id : Cuid) (actor : Actor) : Tx Reply := do
  -- 1. the existence read, which gives the venue to lock
  let found ← query fun d ↦ d.row .request id
  let booking ← require found (.notFound .bookingNotFound)
  -- 0. the lock
  lockVenue booking.venueId
  -- 2. the state machine, re-read under the lock
  let current ← query fun d ↦ d.row .request id
  refuse (current.map BookingRequest.status ≠ some .pending)
    (.conflict .bookingNotPendingForDecision)
  -- 3. there has to be something to approve
  let live ← query fun d ↦ liveSlots d id
  refuse (live = []) (.conflict .bookingAlreadyCancelled)
  let spans := live.map BookingSlot.span
  -- 4. the hard block
  assertNoApprovedClash booking.venueId spans (some id)
  -- 5. the losers, before the flip
  let losers ← query fun d ↦ findPendingLosers d booking.venueId spans (some id)
  -- 6. the conditional update, on which the parent trigger fires
  let approvedAt ← readClock
  let flipped ← updateRequests fun c r ↦
    if r.id = id ∧ r.status = .pending then
      some { r with
        status := .approved, approvedById := some actor.id, approvedAt := some approvedAt,
        updatedAt := c }
    else none
  refuse (flipped.length ≠ 1) (.conflict .bookingNotPendingForDecision)
  -- 7. the losers, after the flip
  let rejected ← rejectLosers losers
  pure (.approved id rejected)

/-- `POST /booking-requests/:id/approve`. -/
def approve (id : Cuid) (actor : Actor) : Call := decision (approveTx id actor)

/-! ### Rejecting -/

/-- The transaction of `reject`. -/
def rejectTx (id : Cuid) (reason : JsString) : Tx Reply := do
  let found ← query fun d ↦ d.row .request id
  let booking ← require found (.notFound .bookingNotFound)
  refuse (booking.status ≠ .pending) (.conflict .bookingNotPendingForDecision)
  let flipped ← updateRequests fun c r ↦
    if r.id = id ∧ r.status = .pending then
      some { r with status := .rejected, rejectReason := some reason, updatedAt := c }
    else none
  refuse (flipped.length ≠ 1) (.conflict .bookingNotPendingForDecision)
  pure (.rejected id)

/-- `POST /booking-requests/:id/reject`. -/
def reject (id : Cuid) (reason : JsString) : Call := .attempt (rejectTx id reason) .done

/-! ### Cancelling -/

/-- `CancelBookingRequestDto`. -/
structure CancelBookingRequestDto where
  reason : JsString
  slotIds : Option (List Cuid)
  /-- `@ArrayNotEmpty()` and `@ArrayUnique()`. -/
  slotIds_valid : ∀ l, slotIds = some l → l ≠ [] ∧ l.Nodup

/-- The five columns that a staff cancellation writes. -/
def staffCancellation (t : ℤ) (actor : Actor) (reason : JsString) (c : ℤ) (s : BookingSlot) :
    BookingSlot :=
  { s with
    isCancelled := true, cancelledAt := some t, cancelledById := some actor.id,
    cancelledByRole := some (.staff actor.role), cancelReason := some reason, updatedAt := c }

/-- What is wrong with the first bad slot id: it is refused, never skipped. -/
def slotIdsError (all : List BookingSlot) (slotIds : List Cuid) : Option BookingError :=
  slotIds.findSome? fun slotId ↦
    match all.find? fun s ↦ decide (s.id = slotId) with
    | none => some (.badRequest .slotNotOnThisBooking)
    | some s => if s.isCancelled then some (.conflict .slotAlreadyCancelled) else none

/-- The slots to cancel, out of all slots of the booking. -/
def cancelTargets (all : List BookingSlot) (slotIds : Option (List Cuid)) :
    Except BookingError (List BookingSlot) :=
  let live := all.filter fun s ↦ !s.isCancelled
  match slotIds with
  | none => .ok live
  | some ids =>
    match slotIdsError all ids with
    | some e => .error e
    | none => .ok (live.filter fun s ↦ decide (s.id ∈ ids))

/-- The transaction of `cancel`. -/
def cancelTx (id : Cuid) (dto : CancelBookingRequestDto) (actor : Actor) : Tx Reply := do
  let found ← query fun d ↦ d.row .request id
  let booking ← require found (.notFound .bookingNotFound)
  lockVenue booking.venueId
  -- Read again under the lock: the status may have moved since the first read.
  let current ← query fun d ↦ d.row .request id
  refuse (current.map BookingRequest.status ≠ some .approved)
    (.conflict .bookingNotApprovedForCancel)
  let all ← query fun d ↦ (d.all .slot).filter fun s ↦ decide (s.bookingRequestId = id)
  let live := all.filter fun s ↦ !s.isCancelled
  refuse (live = []) (.conflict .bookingAlreadyCancelled)
  let targets ← ofExcept (cancelTargets all dto.slotIds)
  let targetIds := targets.map BookingSlot.id
  let cancelledAt ← readClock
  let cancelled ← updateSlots fun c s ↦
    if s.id ∈ targetIds ∧ s.isCancelled = false then
      some (staffCancellation cancelledAt actor dto.reason c s)
    else none
  -- Every target has to be matched; a slot cancelled meanwhile refuses the whole call.
  refuse (cancelled.length ≠ targetIds.length) (.conflict .slotAlreadyCancelled)
  -- What remains is computed from the slots read before the update.
  let remaining := live.filter fun s ↦ decide (s.id ∉ targetIds)
  updateRequestById id (cancelledRequest remaining)
  pure (.cancelled id targetIds)

/-- `POST /booking-requests/:id/cancel`. -/
def cancel (id : Cuid) (dto : CancelBookingRequestDto) (actor : Actor) : Call :=
  decision (cancelTx id dto actor)

/-! ### Booking directly -/

/-- `CreateDirectBookingDto`. -/
structure CreateDirectBookingDto where
  venueId : Cuid
  purpose : JsString
  attendees : ℤ
  slots : List BookingSlotInput
  lineUserId : Option Cuid
  requesterName : Option JsString
  contactPhone : Option JsString
  departmentId : Option ℤ
  /-- `@ArrayNotEmpty()`. -/
  slots_ne_nil : slots ≠ []

/-- `assertOriginShape`: overrides are for a booking with no LINE account. -/
def originShapeOk (dto : CreateDirectBookingDto) : Bool :=
  !(dto.lineUserId.isSome &&
    (dto.requesterName.isSome || dto.contactPhone.isSome || dto.departmentId.isSome))

/-- Raise `e` unless the answer to the question about an optional input is yes. -/
def checkInput {α : Type} (input : Option α) (q : α → Ask) (yes : ∀ a, Ans (q a) → Bool)
    (e : BookingError) : Tx Unit :=
  match input with
  | none => pure ()
  | some a => do
    let answer ← inquire (q a)
    refuse (yes a answer = false) e

/-- `createDirectOnce`. -/
def createDirectOnce (dto : CreateDirectBookingDto) (slots : List ParsedSpan) (actor : Actor) :
    Tx Reply := do
  -- The lock is taken on the id sent, before anybody knows that there is such a venue.
  lockVenue dto.venueId
  let venue ← inquire (.venue dto.venueId)
  let (venueId, _) ← require venue (.notFound .venueNotFound)
  checkInput dto.lineUserId .allowedLineUser (fun _ b ↦ b) (.badRequest .invalidLineUser)
  checkInput dto.departmentId .department (fun _ b ↦ b) (.badRequest .invalidDepartment)
  let spans ← ofExcept (slotSpans slots)
  assertNoApprovedClash venueId spans none
  -- The losers are found before the insert and rejected after it.
  let losers ← query fun d ↦ findPendingLosers d venueId spans none
  let now ← readClock
  let code ← nextBookingCode now
  let (firstStartAt, lastEndAt) ← require (spanBounds spans) .invalidDate
  let created ← createRequest fun c id ↦
    { id, code, lineUserId := dto.lineUserId, createdById := some actor.id,
      requesterName := dto.requesterName, contactPhone := dto.contactPhone,
      departmentId := dto.departmentId, venueId, purpose := dto.purpose,
      attendees := dto.attendees, status := .approved, rejectReason := none, firstStartAt,
      lastEndAt, approvedById := some actor.id, approvedAt := some now, createdAt := c,
      updatedAt := c }
  let _ ← createSlots created spans
  let autoRejected ← rejectLosers losers
  pure (.direct created.id autoRejected)

/-- `POST /booking-requests/direct`. -/
def createDirect (dto : CreateDirectBookingDto) (actor : Actor) : Call :=
  if originShapeOk dto = false then .done (.error (.badRequest .originShape))
  else .now fun now ↦
    match parseSlots now dto.slots with
    | .error e => .done (.error e)
    | .ok slots =>
      retryOnCollision runDecision (createDirectOnce dto slots actor) bookingCodeMaxAttempts

/-! ### What is announced after the commit -/

/-- The requests whose rows are published, with the kind of event. -/
inductive PublishKind where
  | created
  | updated
  deriving DecidableEq

/-- `publish`, for each reply: the calls of `publishBookingRequests` in order. -/
def publishes : Reply → List (PublishKind × List Cuid)
  | .created row _ => [(.created, [row.id])]
  | .withdrawn id => [(.updated, [id])]
  | .slotCancelled id _ => [(.updated, [id])]
  | .approved id autoRejected => [(.updated, id :: autoRejected.map AutoRejectedBooking.id)]
  | .direct id autoRejected =>
    [(.created, [id]), (.updated, autoRejected.map AutoRejectedBooking.id)]
  | .rejected id => [(.updated, [id])]
  | .cancelled id _ => [(.updated, [id])]
  | .expired ids => [(.updated, ids)]

/-- The cards a requester can get. -/
inductive NoticeStatus where
  | pending
  | approved
  | autoRejected
  | rejected
  | cancelledByUser
  | cancelledByStaff
  | expired
  deriving DecidableEq

/-- `notifyDecisions`, for each reply: the booking and the card of each notice. -/
def notices : Reply → List (Cuid × NoticeStatus)
  | .created row _ => [(row.id, .pending)]
  | .withdrawn id => [(id, .cancelledByUser)]
  | .slotCancelled id _ => [(id, .cancelledByUser)]
  | .approved id autoRejected =>
    (id, .approved) :: autoRejected.map fun l ↦ (l.id, .autoRejected)
  | .direct id autoRejected =>
    (id, .approved) :: autoRejected.map fun l ↦ (l.id, .autoRejected)
  | .rejected id => [(id, .rejected)]
  | .cancelled id _ => [(id, .cancelledByStaff)]
  | .expired ids => ids.map fun id ↦ (id, .expired)

end EasyBook

import EasyBook.Ecma.Text
import EasyBook.Errors.Classification
import EasyBook.ReadCommitted.Program

/-!
# The booking tables

The two tables of the booking core, `booking_requests` and `booking_slots`, with all their columns,
and what the database itself adds to the statements it is sent: the trigger pair that keeps
`holdsSlot`, the unique `code`, and the exclusion constraint `booking_slots_no_overlap`.

Identifiers (`cuid()`) are opaque and fresh; they are numbered here, and `cuidText` is the text of
one where a caller names a booking by a string. Instants are integers, in milliseconds since the
epoch. Facts from tables that the booking core reads but never writes (accounts, venues,
departments, settings) are questions a transaction asks; any answer may come back.
-/

namespace EasyBook

open ReadCommitted

/-- A `cuid()`. -/
abbrev Cuid : Type := ℕ

/-- The text of a `cuid()`. -/
def cuidText (id : Cuid) : JsString := JsString.lit "c" ++ JsString.radix 36 id

/-- The stored status of a request. -/
inductive BookingStatus where
  | pending
  | approved
  | rejected
  | cancelled
  | expired
  deriving DecidableEq, Repr

/-- The role of a staff account. -/
inductive SystemRole where
  | superAdmin
  | admin
  | viewer
  deriving DecidableEq, Repr

/-- `cancelledByRole`: which kind of account `cancelledById` names. -/
inductive CancelledByRole where
  /-- `CANCELLED_BY_LINE_USER`. -/
  | lineUser
  /-- The role of the staff member. -/
  | staff (role : SystemRole)
  deriving DecidableEq, Repr

/-- A row of `booking_requests`. -/
structure BookingRequest where
  id : Cuid
  code : JsString
  lineUserId : Option Cuid
  createdById : Option Cuid
  requesterName : Option JsString
  contactPhone : Option JsString
  departmentId : Option ℤ
  venueId : Cuid
  purpose : JsString
  attendees : ℤ
  status : BookingStatus
  rejectReason : Option JsString
  firstStartAt : ℤ
  lastEndAt : ℤ
  approvedById : Option Cuid
  approvedAt : Option ℤ
  createdAt : ℤ
  updatedAt : ℤ
  deriving DecidableEq

/-- A row of `booking_slots`. -/
structure BookingSlot where
  id : Cuid
  bookingRequestId : Cuid
  venueId : Cuid
  startAt : ℤ
  endAt : ℤ
  isCancelled : Bool
  cancelledAt : Option ℤ
  cancelledById : Option Cuid
  cancelledByRole : Option CancelledByRole
  cancelReason : Option JsString
  reminderSentAt : Option ℤ
  holdsSlot : Bool
  createdAt : ℤ
  updatedAt : ℤ
  deriving DecidableEq

/-- The tables. -/
inductive Tab where
  | request
  | slot
  deriving DecidableEq

/-- The row type of each table. -/
@[reducible] def Row : Tab → Type
  | .request => BookingRequest
  | .slot => BookingSlot

/-- What a reader sees of the tables. -/
abbrev View : Type := Db Row

/-- The tables with their uncommitted versions. -/
abbrev BookingStore : Type := Store Row

/-! ### Errors -/

/-- The refusals, under the names of their message constants. -/
inductive Refusal where
  | venueNotFound
  | venueClosed
  | bookingNotAllowed
  | slotRangeInvalid
  | slotInThePast
  | slotSelfOverlap
  | slotTaken
  | bookingNotFound
  | bookingNotPending
  | bookingNotApproved
  | slotNotFound
  | slotAlreadyCancelled
  | slotCancelTooLate
  | bookingNotPendingForDecision
  | bookingNotApprovedForCancel
  | bookingAlreadyCancelled
  | slotNotOnThisBooking
  | invalidDepartment
  | invalidLineUser
  | originShape
  | bookingDecisionRace
  deriving DecidableEq, Repr

/-- What a call of the booking services can end with instead of a result. -/
inductive BookingError where
  /-- 400. -/
  | badRequest (m : Refusal)
  /-- 403. -/
  | forbidden (m : Refusal)
  /-- 404. -/
  | notFound (m : Refusal)
  /-- 409. -/
  | conflict (m : Refusal)
  /-- 422. -/
  | unprocessableEntity (m : Refusal)
  /-- 500. -/
  | internalServerError
  /-- `P2002` on the `code` column. -/
  | codeCollision
  /-- The same, from a driver that does not say which column it is. -/
  | unnamedCollision
  /-- SQLSTATE `23P01`. -/
  | overlapViolation
  /-- SQLSTATE `40P01` or `40001`. -/
  | transactionRace
  /-- `P2025`: `update` found no row. -/
  | recordNotFound
  /-- The client refuses to send an invalid `Date`. -/
  | invalidDate
  /-- The transaction timed out or the connection broke. -/
  | unavailable
  deriving DecidableEq, Repr

/-- The errors of a code that is taken. -/
@[simp] def BookingError.OfCode : BookingError → Prop
  | .codeCollision | .unnamedCollision => True
  | _ => False

/-! ### Facts from outside -/

/-- `LineUser.access`. -/
inductive AppAccess where
  | unregistered
  | pending
  | rejected
  | allowed
  | blocked
  deriving DecidableEq, Repr

/-- A question about a table that the booking core does not write, or about the driver. -/
inductive Ask where
  /-- The undeleted `LineUser` with this LINE subject: id and access. -/
  | lineUser (lineSub : JsString)
  /-- The undeleted venue: id and `isOpen`. -/
  | venue (id : Cuid)
  /-- Is there an undeleted `LineUser` with this id and access `ALLOWED`? -/
  | allowedLineUser (id : Cuid)
  /-- Is there an undeleted department with this id? -/
  | department (id : ℤ)
  /-- The value of `booking.cancel_lead_minutes`. -/
  | cancelLeadMinutes
  /-- `meta.target` of the `P2002` by which the driver has reported a code that is taken. -/
  | violatedTarget

/-- The answers. -/
@[reducible] def Ans : Ask → Type
  | .lineUser _ => Option (Cuid × AppAccess)
  | .venue _ => Option (Cuid × Bool)
  | .allowedLineUser _ => Bool
  | .department _ => Bool
  | .cancelLeadMinutes => Option JsString
  | .violatedTarget => Errors.Target

/-- A transaction of the booking core. Its advisory locks are keyed by venue. -/
abbrev Tx : Type → Type := Prog Row BookingError Cuid Ans

/-- `tx.bookingRequest.updateMany`. -/
def updateRequests (ch : ℤ → BookingRequest → Option BookingRequest) : Tx (List BookingRequest) :=
  Prog.update Tab.request ch

/-- `tx.bookingSlot.updateMany`. -/
def updateSlots (ch : ℤ → BookingSlot → Option BookingSlot) : Tx (List BookingSlot) :=
  Prog.update Tab.slot ch

/-- `tx.bookingRequest.create`. -/
def createRequest (new : ℤ → Cuid → BookingRequest) : Tx BookingRequest :=
  Prog.create Tab.request new

/-- One row of the nested `slots: { create }`. -/
def createSlot (new : ℤ → Cuid → BookingSlot) : Tx BookingSlot :=
  Prog.create Tab.slot new

/-! ### Triggers and constraints -/

/-- `booking_slots_holds_slot`: BEFORE INSERT OR UPDATE, from the parent's status as the writer
sees it. -/
def bookingSlotsHoldsSlot (d : View) (s : BookingSlot) : BookingSlot :=
  { s with
    holdsSlot := !s.isCancelled &&
      (d.row .request s.bookingRequestId).any fun r ↦ decide (r.status = .approved) }

/-- The `UPDATE` inside `booking_requests_holds_slot`: the children whose flag is not what the new
status makes it. -/
def pushHoldsSlot (new : BookingRequest) (s : BookingSlot) : Option BookingSlot :=
  let holds := !s.isCancelled && decide (new.status = .approved)
  if s.bookingRequestId = new.id ∧ s.holdsSlot ≠ holds then some { s with holdsSlot := holds }
  else none

/-- `booking_requests_holds_slot`: AFTER UPDATE OF "status", if the status is distinct. -/
def bookingRequestsHoldsSlot (old new : BookingRequest) :
    Option (BookingSlot → Option BookingSlot) :=
  if new.status ≠ old.status then some (pushHoldsSlot new) else none

/-- `tsrange(a, b, '[)') && tsrange(c, d, '[)')`: an empty range overlaps nothing. -/
def tsrangeOverlap (a b c d : ℤ) : Bool := decide (max a c < min b d)

/-- `booking_slots_no_overlap`: the exclusion constraint on the rows that hold their slot. -/
def bookingSlotsNoOverlap (s s' : BookingSlot) : Bool :=
  s.holdsSlot && s'.holdsSlot && decide (s.venueId = s'.venueId) &&
    tsrangeOverlap s.startAt s.endAt s'.startAt s'.endAt

theorem bookingSlotsNoOverlap_comm (s s' : BookingSlot) :
    bookingSlotsNoOverlap s s' = bookingSlotsNoOverlap s' s := by
  simp only [bookingSlotsNoOverlap, tsrangeOverlap, max_comm s.startAt, min_comm s.endAt,
    eq_comm (a := s.venueId), Bool.and_comm s.holdsSlot]

/-- The triggers and constraints of the booking tables. -/
def schema : Schema Row BookingError where
  before d τ :=
    match τ with
    | .request => id
    | .slot => bookingSlotsHoldsSlot d
  after τ :=
    match τ with
    | .request => fun old new ↦ (bookingRequestsHoldsSlot old new).map fun ch ↦ ⟨.slot, ch⟩
    | .slot => fun _ _ ↦ none
  conflict τ :=
    match τ with
    | .request => fun r r' ↦ if r.code = r'.code then some .codeCollision else none
    | .slot => fun s s' ↦ if bookingSlotsNoOverlap s s' then some .overlapViolation else none
  conflict_symm := by
    rintro (_ | _) r r' h
    · simpa [eq_comm] using h
    · simpa [bookingSlotsNoOverlap_comm] using h

end EasyBook

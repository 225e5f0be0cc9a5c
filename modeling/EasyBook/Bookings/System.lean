import EasyBook.Bookings.Admin

/-!
# The booking system

The expiry sweep of `booking-expiry.cron.ts`, and all eight writers of the booking tables as one
system: what may be called, what each call does, and by which errors a transaction may be lost.
-/

namespace EasyBook

open ReadCommitted ReadCommitted.Prog

/-- `AUTO_EXPIRED_REASON`. -/
def autoExpiredReason : JsString :=
  JsString.lit
    "คำขอหมดอายุโดยอัตโนมัติ เนื่องจากเลยกำหนดเวลาเริ่มต้นใช้งานโดยยังไม่ได้รับการพิจารณา"

/-- The one statement of the sweep, a transaction of its own. -/
def expireOverdueTx (now : ℤ) : Tx Reply := do
  let expired ← updateRequests fun c r ↦
    if r.status = .pending ∧ r.firstStartAt < now then
      some { r with
        status := .expired, rejectReason := some autoExpiredReason, updatedAt := c }
    else none
  pure (.expired (expired.map BookingRequest.id))

/-- `expireOverdue`: a sweep that fails is logged, and the next tick retries. -/
def expireOverdue : Call :=
  .now fun now ↦ .attempt (expireOverdueTx now) fun r ↦
    match r with
    | .ok reply => .done (.ok reply)
    | .error _ => .done (.ok (.expired []))

/-- The calls of the booking core. -/
inductive Op where
  | createFromLine (lineSub : JsString) (dto : CreateLineBookingDto)
  | cancelPendingBooking (lineSub idOrCode : JsString)
  | cancelApprovedSlot (lineSub idOrCode : JsString) (slotId : Cuid)
  | approve (id : Cuid) (actor : Actor)
  | reject (id : Cuid) (reason : JsString)
  | cancel (id : Cuid) (dto : CancelBookingRequestDto) (actor : Actor)
  | createDirect (dto : CreateDirectBookingDto) (actor : Actor)
  | expireOverdue

/-- What each call does. -/
def service : Op → Call
  | .createFromLine lineSub dto => createFromLine lineSub dto
  | .cancelPendingBooking lineSub idOrCode => cancelPendingBooking lineSub idOrCode
  | .cancelApprovedSlot lineSub idOrCode slotId => cancelApprovedSlot lineSub idOrCode slotId
  | .approve id actor => approve id actor
  | .reject id reason => reject id reason
  | .cancel id dto actor => cancel id dto actor
  | .createDirect dto actor => createDirect dto actor
  | .expireOverdue => expireOverdue

/-- The booking tables and everything that writes them. -/
def bookings : System Row BookingError Cuid Ans Reply Op where
  schema := schema
  service := service
  loses e := decide (e = .transactionRace ∨ e = .unavailable)

/-- The state of the tables and of every call under way. -/
abbrev BookingWorld : Type := World Row BookingError Cuid Ans Reply

/-- A step of a schedule. -/
abbrev BookingEvent : Type := Event BookingError Ans Op

/-! ### Sample runs -/

/-- The world after a schedule that can be run. -/
def after (es : List BookingEvent) : BookingWorld := (bookings.exec es World.init).getD World.init

theorem reachable_after (es : List BookingEvent) : bookings.Reachable (after es) := by
  unfold after
  rcases h : bookings.exec es World.init with - | w
  · exact .init
  · exact System.Reachable.exec .init h

namespace Sample

/-- Everything exists, and user 7 may book. -/
def oracle : ∀ q, Ans q
  | .lineUser _ => some (7, .allowed)
  | .venue id => some (id, true)
  | .allowedLineUser _ => true
  | .department _ => true
  | .cancelLeadMinutes => none
  | .violatedTarget => .array [JsString.lit "code"]

/-- An hour, counted from the epoch. -/
def hour (i : ℤ) : BookingSlotInput := ⟨some (i * 3600000), some ((i + 1) * 3600000)⟩

/-- A request of user 7 for one hour of venue 1. -/
def line (i : ℤ) : CreateLineBookingDto where
  venueId := 1
  purpose := []
  attendees := 1
  slots := [hour i]
  slots_ne_nil := by simp

/-- A direct booking for user 7 of two hours of venue 1. -/
def direct (i : ℤ) : CreateDirectBookingDto where
  venueId := 1
  purpose := []
  attendees := 1
  slots := [hour i, hour (i + 1)]
  lineUserId := some 7
  requesterName := none
  contactPhone := none
  departmentId := none
  slots_ne_nil := by simp

/-- A staff member. -/
def staff : Actor := ⟨9, .admin⟩

/-- Session `t` takes `n` steps. -/
def steps (t n : ℕ) : List BookingEvent := List.replicate n (.run t)

/-- The direct booking, from the call to the commit. The request gets key 0, its slots 1 and 2. -/
def directRun : List BookingEvent :=
  .call 0 (.createDirect (direct 100) staff) :: steps 0 3 ++
    [.answer 0 oracle, .answer 0 oracle] ++ steps 0 8

end Sample

end EasyBook

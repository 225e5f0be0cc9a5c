import EasyBook.Bookings.System

/-!
# The reminder sweep

`booking-reminder.cron.ts`, and with it everything that writes the booking tables as one system: the
eight writers of `bookings`, and the reminder sweep, which any number of instances may run at once.
-/

namespace EasyBook

open ReadCommitted ReadCommitted.Prog

/-- `BOOKING_REMINDER_LEAD_MINUTES`. -/
def bookingReminderLeadMinutes : ℤ := 60

/-- The request is approved and has an owner on LINE. -/
def remindable (d : View) (bookingRequestId : Cuid) : Bool :=
  (d.row .request bookingRequestId).any fun r ↦
    decide (r.status = .approved) && r.lineUserId.isSome

/-- The one statement of the sweep, a transaction of its own. What its `WHERE` asks about the
request is answered by the snapshot of the statement and not asked again when a slot had to be
waited for; here a query before the statement answers it. -/
def remindUpcomingTx (now : ℤ) : Tx Reply := do
  let due ← query remindable
  let claimed ← updateSlots fun c s ↦
    if s.reminderSentAt = none ∧ s.isCancelled = false ∧ now < s.startAt ∧
        s.startAt ≤ now + bookingReminderLeadMinutes * 60000 ∧ due s.bookingRequestId = true then
      some { s with reminderSentAt := some now, updatedAt := c }
    else none
  pure (.expired (claimed.map BookingSlot.id))

/-- `remindUpcoming`, up to the call of the notifier with the ids that it hands back. A sweep that
fails is logged, and the next tick retries. -/
def remindUpcoming : Call :=
  .now fun now ↦ .attempt (remindUpcomingTx now) fun r ↦
    match r with
    | .ok reply => .done (.ok reply)
    | .error _ => .done (.ok (.expired []))

/-- The calls of the booking core and the ticks of the reminder. -/
inductive Job where
  | booking (op : Op)
  | remindUpcoming

/-- The booking tables and everything that writes them, the reminder included. -/
def scheduled : System Row BookingError Cuid Ans Reply Job where
  schema := schema
  service
    | .booking op => service op
    | .remindUpcoming => remindUpcoming
  loses := bookings.loses

/-- A step of a schedule with reminders. -/
abbrev ScheduledEvent : Type := Event BookingError Ans Job

namespace Sample

/-- Session `t` takes `n` steps. -/
def go (t n : ℕ) : List ScheduledEvent := List.replicate n (.run t)

/-- The direct booking of `directRun`: request 0 with slots 1 and 2, for hours 100 and 101. -/
def booked : List ScheduledEvent :=
  .call 0 (.booking (.createDirect (direct 100) staff)) :: go 0 3 ++
    [.answer 0 oracle, .answer 0 oracle] ++ go 0 8

/-- Half an hour before the first slot two instances sweep at once: both read before either of them
writes. -/
def remindedTwice : List ScheduledEvent :=
  booked ++ .tick (100 * 3600000 - 1800000) :: .call 1 .remindUpcoming ::
    .call 2 .remindUpcoming :: go 1 3 ++ go 2 3 ++ go 1 3 ++ go 2 3

end Sample

end EasyBook

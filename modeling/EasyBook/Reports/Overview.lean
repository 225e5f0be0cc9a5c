import EasyBook.Bookings.Admin
import EasyBook.Reports.Buckets
import EasyBook.Reports.Sla

/-!
# The overview report

`GET /reports/overview`: the range and its window, the populations, the status counts, the held
time, and the trend charts, from `report-fold.ts` and `reports.service.ts`.

The held time of the report is in milliseconds, of which it shows `hoursOf`; that of a bucket is in
hours, as the code adds them up. Percentages are left out: they are quotients of what is here.
-/

namespace EasyBook.Reports

open JsDate JsNumber JsString ReadCommitted

/-! ### The range and its window -/

/-- How a report ends without one. -/
inductive ReportError where
  /-- `REPORT_DATE_INVALID`. -/
  | dateInvalid
  /-- `REPORT_RANGE_INVERTED`. -/
  | rangeInverted
  /-- `REPORT_RANGE_TOO_WIDE`. -/
  | rangeTooWide
  /-- The calendar has thrown. -/
  | thrown (e : CalendarError)
  deriving DecidableEq

/-- `ReportRange`. -/
structure ReportRange where
  startDate : JsString
  endDate : JsString
  days : ℤ

/-- `REPORT_MAX_DAYS`. -/
def reportMaxDays : ℤ := 366

/-- `parseReportRange`. -/
def parseReportRange (startRaw endRaw : JsString) : Except ReportError ReportRange :=
  match parseReportDate startRaw, parseReportDate endRaw with
  | some startDate, some endDate =>
    if 0 < compareDate startDate endDate then .error .rangeInverted
    else do
      let days ← (inclusiveDays startDate endDate).mapError .thrown
      if reportMaxDays < days then throw .rangeTooWide
      return ⟨startDate, endDate, days⟩
  | _, _ => .error .dateInvalid

/-- `minDate`. -/
def minDate (a b : JsString) : JsString := if compareDate a b ≤ 0 then a else b

/-- What an open window has: its effective end and the bounds of the queries. -/
structure OpenReportWindow where
  effectiveEndDate : JsString
  S : ℤ
  E : ℤ

/-- `ReportWindow`. Without an effective end date the range lies in the future. -/
structure ReportWindow extends ReportRange where
  dataUntilDate : JsString
  opened : Option OpenReportWindow
  schoolDays : ℕ

/-- `reportWindowAt`. -/
def reportWindowAt (range : ReportRange) (now : ℤ) : Except CalendarError ReportWindow := do
  let today := bangkokDate now
  let dataUntilDate ← addDays today (-1)
  let effectiveEndDate := minDate range.endDate dataUntilDate
  if 0 < compareDate range.startDate effectiveEndDate then
    return ⟨range, dataUntilDate, none, 0⟩
  let schoolDays ← schoolDaysIn range.startDate effectiveEndDate
  let S ← dayStart range.startDate
  let E ← dayStart (← addDays effectiveEndDate 1)
  return ⟨range, dataUntilDate, some ⟨effectiveEndDate, S, E⟩, schoolDays⟩

/-! ### The populations -/

/-- The filters of a report: the venue, and whether the department of a request is the one asked
for (`effectiveDepartmentWhere`). -/
structure ReportFilter where
  venueId : Option Cuid
  department : BookingRequest → Bool

/-- `attributedRequestWhere`. -/
def attributedRequestWhere (w : OpenReportWindow) (filter : ReportFilter) (r : BookingRequest) :
    Bool :=
  decide (w.S ≤ r.firstStartAt) && decide (r.firstStartAt < w.E) &&
    filter.venueId.all (fun id ↦ decide (r.venueId = id)) && filter.department r

/-- `heldSlotWhere`. -/
def heldSlotWhere (d : View) (w : OpenReportWindow) (filter : ReportFilter) (s : BookingSlot) :
    Bool :=
  !s.isCancelled && decide (s.startAt < w.E) && decide (w.S < s.endAt) &&
    filter.venueId.all (fun id ↦ decide (s.venueId = id)) &&
    (d.row .request s.bookingRequestId).any fun r ↦
      decide (r.status = .approved) && filter.department r

/-- The requests of a report. -/
def requestRows (d : View) (w : ReportWindow) (filter : ReportFilter) : List BookingRequest :=
  match w.opened with
  | some w => (d.all .request).filter (attributedRequestWhere w filter)
  | none => []

/-- Its slots. -/
def slotRows (d : View) (w : ReportWindow) (filter : ReportFilter) : List HeldSlot :=
  match w.opened with
  | some w => ((d.all .slot).filter (heldSlotWhere d w filter)).map fun s : BookingSlot ↦
      ⟨⟨s.startAt, s.endAt⟩, s.venueId⟩
  | none => []

/-! ### Status counts -/

/-- `DayCounts`. -/
@[ext]
structure DayCounts where
  total : ℕ
  approved : ℕ
  rejected : ℕ
  autoRejected : ℕ
  cancelled : ℕ
  expired : ℕ
  pending : ℕ
  deriving DecidableEq

namespace DayCounts

/-- `emptyDayCounts`. -/
instance : Zero DayCounts := ⟨⟨0, 0, 0, 0, 0, 0, 0⟩⟩

/-- One added to the other, field by field. -/
instance : Add DayCounts where
  add acc counts :=
    { total := acc.total + counts.total
      approved := acc.approved + counts.approved
      rejected := acc.rejected + counts.rejected
      autoRejected := acc.autoRejected + counts.autoRejected
      cancelled := acc.cancelled + counts.cancelled
      expired := acc.expired + counts.expired
      pending := acc.pending + counts.pending }

instance : AddCommMonoid DayCounts where
  add_assoc a b c := by ext <;> exact Nat.add_assoc _ _ _
  zero_add a := by ext <;> exact Nat.zero_add _
  add_zero a := by ext <;> exact Nat.add_zero _
  add_comm a b := by ext <;> exact Nat.add_comm _ _
  nsmul := nsmulRec

end DayCounts

/-- What a row adds to the counts. -/
def DayCounts.tally (c : DayCounts) (row : BookingRequest) : DayCounts :=
  let c := { c with total := c.total + 1 }
  match row.status with
  | .approved => { c with approved := c.approved + 1 }
  | .rejected =>
    let c := { c with rejected := c.rejected + 1 }
    if isAutoRejected (slaSourceRow row) then { c with autoRejected := c.autoRejected + 1 } else c
  | .cancelled => { c with cancelled := c.cancelled + 1 }
  | .expired => { c with expired := c.expired + 1 }
  | .pending => { c with pending := c.pending + 1 }

/-- `foldStatusCounts`: the counts, and those of each day. -/
def foldStatusCounts (rows : List BookingRequest) : DayCounts × List (JsString × DayCounts) :=
  rows.foldl (fun acc row ↦
    let date := bangkokDate row.firstStartAt
    (acc.1.tally row, mapSet acc.2 date (((acc.2.lookup date).getD 0).tally row))) (0, [])

/-- `sumDailyCounts`. -/
def sumDailyCounts (dailyCounts : List (JsString × DayCounts)) (fromStr toStr : JsString) :
    DayCounts :=
  dailyCounts.foldl (fun acc e ↦ if e.1 < fromStr ∨ toStr < e.1 then acc else acc + e.2) 0

/-- `clippedSchoolDays`. -/
def clippedSchoolDays (bucketFrom bucketTo : JsString) (effectiveEndDate : Option JsString) :
    Except CalendarError ℕ :=
  match effectiveEndDate with
  | none => return 0
  | some effectiveEndDate =>
    if 0 < compareDate bucketFrom effectiveEndDate then return 0
    else
      let clippedTo := if 0 < compareDate bucketTo effectiveEndDate then effectiveEndDate
        else bucketTo
      schoolDaysIn bucketFrom clippedTo

/-! ### The report -/

/-- `TrendBucketDto`. -/
structure TrendBucket extends CalendarBucket where
  future : Bool
  counts : DayCounts
  heldHours : ℚ
  schoolDays : ℕ

/-- The callback of `buildBuckets`. -/
def trendBucket (w : ReportWindow) (dailyCounts : List (JsString × DayCounts))
    (slotRows : List HeldSlot) (bucket : CalendarBucket) : Except CalendarError TrendBucket := do
  let future := decide (0 < compareDate bucket.fromDate w.dataUntilDate)
  let counts := sumDailyCounts dailyCounts bucket.fromDate bucket.toDate
  let schoolDays ← clippedSchoolDays bucket.fromDate bucket.toDate
    (w.opened.map OpenReportWindow.effectiveEndDate)
  let heldHours ← if w.opened.isSome then
      slotRows.foldlM (fun sum slot ↦ do
        return number (sum + (← splitAndClip slot.toSpan bucket.fromDate bucket.toDate))) 0
    else pure 0
  return ⟨bucket, future, counts, heldHours, schoolDays⟩

/-- The part of `ReportsOverviewResponseDto` that is computed from bookings. -/
structure Overview where
  window : ReportWindow
  requests : DayCounts
  heldMs : ℤ
  msByVenue : List (Cuid × ℤ)
  month : List TrendBucket
  week : List TrendBucket

/-- `foldHeldMs(slotRows, w)` if the window is open. -/
def heldTotals (w : ReportWindow) (slots : List HeldSlot) :
    Except CalendarError (ℤ × List (Cuid × ℤ)) :=
  match w.opened with
  | some o => foldHeldMs slots w.startDate o.effectiveEndDate
  | none => .ok (0, [])

/-- `getOverview`, once the filters have been checked. -/
def getOverview (d : View) (now : ℤ) (startRaw endRaw : JsString) (filter : ReportFilter) :
    Except ReportError Overview := do
  let range ← parseReportRange startRaw endRaw
  let w ← (reportWindowAt range now).mapError .thrown
  let slots := slotRows d w filter
  let (counts, daily) := foldStatusCounts (requestRows d w filter)
  let (totalMs, msByVenue) ← (heldTotals w slots).mapError .thrown
  let months ← (monthBuckets range.startDate range.endDate).mapError .thrown
  let month ← (months.mapM (trendBucket w daily slots)).mapError .thrown
  let weeks ← (weekBuckets range.startDate range.endDate).mapError .thrown
  let week ← (weeks.mapM (trendBucket w daily slots)).mapError .thrown
  return ⟨w, counts, totalMs, msByVenue, month, week⟩

end EasyBook.Reports

import EasyBook.Directory.Staff
import EasyBook.Ecma.Tally
import EasyBook.Reports.Trend
import EasyBook.Thai.Sanitize

/-!
# The operations report

`GET /reports/operations`: the tables by department and by purpose, the SLA, and the registry of
late cancellations, from `report-operations.ts` and `reports.service.ts`. A department that is
reserved is shown to a super admin only; for everybody else its bookings are of no department.

Held time is in milliseconds, and the quotients are exact. What the language leaves to Unicode is a
parameter.
-/

namespace EasyBook.Reports

open JsDate JsString ReadCommitted

/-- `normalize('NFC')`, `toLowerCase()`, and `localeCompare` without a locale and in Thai. -/
structure Unicode where
  nfc : JsString → JsString
  toLowerCase : JsString → JsString
  localeCompare : JsString → JsString → ℤ
  localeCompareThai : JsString → JsString → ℤ

/-- `a || b` of two differences. -/
def orElse (a b : ℤ) : ℤ := if a = 0 then b else a

/-! ### The purpose of a booking -/

/-- `ReportPurposeCategory`. -/
inductive ReportPurposeCategory where
  | teaching
  | meeting
  | training
  | studentActivity
  | other
  deriving DecidableEq

/-- `SCRUB_PHRASES`. -/
def scrubPhrases : List JsString :=
  [lit "โรงเรียน", lit "ห้องประชุม", lit "หอประชุม", lit "สนามกีฬา", lit "ตรวจสอบ", lit "สอบถาม",
    lit "เรียนเชิญ"]

/-- `PurposeRule`. -/
structure PurposeRule where
  category : ReportPurposeCategory
  keywords : List JsString

/-- `PURPOSE_RULES`. -/
def purposeRules : List PurposeRule :=
  [⟨.training, [lit "อบรม", lit "สัมมนา", lit "พัฒนาบุคลากร", lit "พัฒนาครู", lit "วิทยากร",
      lit "ประชุมเชิงปฏิบัติการ", lit "ศึกษาดูงาน", lit "plc", lit "workshop", lit "seminar",
      lit "training"]⟩,
    ⟨.meeting, [lit "ประชุม", lit "บริหาร", lit "meeting"]⟩,
    ⟨.studentActivity, [lit "ชมรม", lit "กีฬา", lit "ซ้อม", lit "แข่ง", lit "ค่าย", lit "ลูกเสือ",
      lit "เนตรนารี", lit "ยุวกาชาด", lit "การแสดง", lit "ดนตรี", lit "นาฏศิลป์", lit "เชียร์",
      lit "บอล", lit "กิจกรรมนักเรียน", lit "สภานักเรียน", lit "club", lit "sport"]⟩,
    ⟨.teaching, [lit "สอน", lit "เรียน", lit "คาบ", lit "ติว", lit "สอบ", lit "วิชา", lit "class",
      lit "exam", lit "lesson", lit "tutor"]⟩]

/-- `CATEGORY_RANK`. -/
def categoryRank : ReportPurposeCategory → ℤ
  | .training => 1
  | .meeting => 2
  | .studentActivity => 3
  | .teaching => 4
  | .other => 5

/-- `.replace(/\s+/g, ' ')`; `inRun` after white space. -/
def collapseSpaces (inRun : Bool) : JsString → JsString
  | [] => []
  | u :: s =>
    if isWhiteSpace u then
      if inRun then collapseSpaces true s else 0x20 :: collapseSpaces true s
    else u :: collapseSpaces false s

/-- `normalise`. -/
def normalise (U : Unicode) (text : JsString) : JsString :=
  trim (collapseSpaces false
    (U.toLowerCase (Thai.stripZeroWidth (U.nfc (Thai.sanitizeThaiText U.nfc text)))))

/-- `s.split(phrase).join(' ')`; `skip` units belong to the occurrence before. -/
def scrubPhrase (phrase : JsString) : ℕ → JsString → JsString
  | _, [] => []
  | skip + 1, _ :: s => scrubPhrase phrase skip s
  | 0, u :: s =>
    if phrase <+: u :: s then 0x20 :: scrubPhrase phrase (phrase.length - 1) s
    else u :: scrubPhrase phrase 0 s

/-- `scrub`. -/
def scrub (text : JsString) : JsString :=
  scrubPhrases.foldl (fun s phrase ↦ scrubPhrase phrase 0 s) text

/-- `purposeCategoryOf` of a text. -/
def purposeCategoryOf (U : Unicode) (text : JsString) : ReportPurposeCategory :=
  let scrubbed := scrub (normalise U text)
  match purposeRules.find? fun rule ↦ rule.keywords.any fun k ↦ decide (k <:+: scrubbed) with
  | some rule => rule.category
  | none => .other

/-- `ReportPurposeRowDto`. -/
structure PurposeRow where
  category : ReportPurposeCategory
  requests : ℕ
  heldMs : ℤ
  sharePercent : ℚ

/-- `sharePercent` of a row. -/
def sharePercent (heldMs totalHeldMs : ℤ) : ℚ :=
  if 0 < totalHeldMs then (heldMs : ℚ) / totalHeldMs * 100 else 0

/-- `ALL_CATEGORIES`. -/
def allCategories : List ReportPurposeCategory :=
  [.teaching, .meeting, .training, .studentActivity, .other]

/-- The comparator of `foldPurposes`. -/
def comparePurposes (a b : PurposeRow) : ℤ :=
  if a.category = .other then 1
  else if b.category = .other then -1
  else orElse (b.heldMs - a.heldMs) (orElse ((b.requests : ℤ) - a.requests)
    (categoryRank a.category - categoryRank b.category))

/-- `foldPurposes`. -/
def foldPurposes (requests : List ReportPurposeCategory)
    (heldMsByCategory : List (ReportPurposeCategory × ℤ)) : List PurposeRow :=
  let counts := tallyBy id (fun _ ↦ 1) [] requests
  let totalHeldMs := (heldMsByCategory.map Prod.snd).sum
  (allCategories.map fun category ↦
    { category
      requests := entry counts category
      heldMs := entry heldMsByCategory category
      sharePercent := sharePercent (entry heldMsByCategory category) totalHeldMs :
        PurposeRow }).insertionSort fun a b ↦ comparePurposes a b ≤ 0

/-! ### Late cancellations -/

/-- `isLate` of a cancelled slot. -/
def isLateCancelled (leadMs : ℤ) (slot : BookingSlot) : Bool :=
  slot.cancelledAt.any fun cancelledAt ↦ decide (slot.startAt - leadMs < cancelledAt)

/-- `lateCancelledSlots`. -/
def lateCancelledSlots (cancelled : List BookingSlot) (leadMs : ℤ) : List BookingSlot :=
  cancelled.filter (isLateCancelled leadMs)

/-- What `foldDiscipline` counts. -/
structure Discipline where
  lateCancellations : ℕ
  grantedRequests : ℕ

/-- `foldDiscipline`. -/
def foldDiscipline (rows : List BookingRequest) (cancelledOf : BookingRequest → List BookingSlot)
    (leadMs : ℤ) : Discipline :=
  rows.foldl (fun acc row ↦
    if row.approvedAt = none then acc
    else
      { lateCancellations := acc.lateCancellations +
          if 0 < (lateCancelledSlots (cancelledOf row) leadMs).length then 1 else 0
        grantedRequests := acc.grantedRequests + 1 }) ⟨0, 0⟩

/-- `ReportCancellerKind`. -/
inductive ReportCancellerKind where
  | requester
  | staff
  | unknown
  deriving DecidableEq

/-- `cancellerKindOf`. -/
def cancellerKindOf : Option CancelledByRole → ReportCancellerKind
  | some .lineUser => .requester
  | some (.staff .superAdmin) => .staff
  | some (.staff .admin) => .staff
  | _ => .unknown

/-- `RegistryRow`. -/
structure RegistryRow where
  code : JsString
  slotStartAt : ℤ
  slotEndAt : ℤ
  lateSlotCount : ℕ
  cancelledAfterStart : Bool
  minutes : ℤ
  venueId : Cuid
  departmentBucket : Option ℤ
  canceller : ReportCancellerKind
  cancelReason : Option JsString

/-- The row of a request, if it has one. -/
def registryRowOf (cancelledOf : BookingRequest → List BookingSlot) (leadMs : ℤ)
    (departmentBucketOfRow : BookingRequest → Option ℤ) (row : BookingRequest) :
    Option RegistryRow :=
  if row.approvedAt = none then none
  else
    let late := lateCancelledSlots (cancelledOf row) leadMs
    match late with
    | [] => none
    | first :: _ => some
      { code := row.code
        slotStartAt := first.startAt
        slotEndAt := first.endAt
        lateSlotCount := late.length
        cancelledAfterStart := first.cancelledAt.any fun c ↦ decide (first.startAt ≤ c)
        minutes := first.cancelledAt.elim 0 fun c ↦ |first.startAt - c| / 60000
        venueId := row.venueId
        departmentBucket := departmentBucketOfRow row
        canceller := cancellerKindOf first.cancelledByRole
        cancelReason := first.cancelReason }

/-- The comparator of `buildRegistry`. -/
def compareRegistry (U : Unicode) (a b : RegistryRow) : ℤ :=
  orElse (U.localeCompare (bangkokDate b.slotStartAt) (bangkokDate a.slotStartAt))
    (U.localeCompare b.code a.code)

/-- `buildRegistry`. -/
def buildRegistry (U : Unicode) (rows : List BookingRequest)
    (cancelledOf : BookingRequest → List BookingSlot) (leadMs : ℤ)
    (departmentBucketOfRow : BookingRequest → Option ℤ) : List RegistryRow :=
  (rows.filterMap (registryRowOf cancelledOf leadMs departmentBucketOfRow)).insertionSort
    fun a b ↦ compareRegistry U a b ≤ 0

/-! ### Departments -/

/-- `DepartmentSourceRow`. -/
structure DepartmentSourceRow where
  id : ℤ
  name : JsString
  deletedAt : Option ℤ
  isSystemReserved : Bool
  deriving DecidableEq

/-- `new Map(departments.map((d) => [d.id, d]))`. -/
def departmentsById (departments : List DepartmentSourceRow) : List (ℤ × DepartmentSourceRow) :=
  mapSetAll [] (departments.map fun d ↦ (d.id, d))

/-- `departmentBucketOf`. -/
def departmentBucketOf (effectiveId : Option ℤ) (byId : List (ℤ × DepartmentSourceRow))
    (maySeeReserved : Bool) : Option ℤ :=
  match effectiveId with
  | none => none
  | some effectiveId =>
    match byId.lookup effectiveId with
    | none => none
    | some d => if d.isSystemReserved && !maySeeReserved then none else some effectiveId

/-- `effectiveDepartmentIdOf`: the registration wins when there is one. -/
def effectiveDepartmentIdOf (registration : Cuid → Option ℤ) (row : BookingRequest) : Option ℤ :=
  match row.lineUserId.bind registration with
  | some departmentId => some departmentId
  | none => row.departmentId

/-- `effectiveDepartmentWhere`. -/
def effectiveDepartmentWhere (registration : Cuid → Option ℤ) (departmentId : ℤ)
    (row : BookingRequest) : Bool :=
  decide (row.lineUserId.bind registration = some departmentId) ||
    decide (row.departmentId = some departmentId) &&
      (decide (row.lineUserId = none) || decide (row.lineUserId.bind registration = none))

/-- `DepartmentRequestBucket`. -/
structure DepartmentRequestBucket where
  bucket : Option ℤ
  status : BookingStatus
  isLate : Bool

/-- `DepartmentAgg`. -/
@[ext]
structure DepartmentAgg where
  requests : ℕ
  approved : ℕ
  heldMs : ℤ
  lateCancellations : ℕ
  deriving DecidableEq

namespace DepartmentAgg

/-- `emptyAgg`. -/
instance : Zero DepartmentAgg := ⟨⟨0, 0, 0, 0⟩⟩

/-- `bump`. -/
instance : Add DepartmentAgg where
  add cur patch :=
    { requests := cur.requests + patch.requests
      approved := cur.approved + patch.approved
      heldMs := cur.heldMs + patch.heldMs
      lateCancellations := cur.lateCancellations + patch.lateCancellations }

instance : AddCommMonoid DepartmentAgg where
  add_assoc a b c := by ext <;> exact add_assoc _ _ _
  zero_add a := by ext <;> exact zero_add _
  add_zero a := by ext <;> exact add_zero _
  add_comm a b := by ext <;> exact add_comm _ _
  nsmul := nsmulRec

end DepartmentAgg

/-- What a request adds to its bucket. -/
def DepartmentRequestBucket.patch (r : DepartmentRequestBucket) : DepartmentAgg where
  requests := 1
  approved := if r.status = .approved then 1 else 0
  heldMs := 0
  lateCancellations := if r.isLate then 1 else 0

/-- `ReportDepartmentRowDto`. -/
structure DepartmentRow where
  departmentId : Option ℤ
  name : Option JsString
  isDeleted : Bool
  requests : ℕ
  approved : ℕ
  approvalPercent : Option ℚ
  heldMs : ℤ
  sharePercent : ℚ
  lateCancellations : ℕ

/-- `rowOf`. -/
def rowOf (id : Option ℤ) (name : Option JsString) (isDeleted : Bool) (a : DepartmentAgg)
    (totalHeldMs : ℤ) : DepartmentRow where
  departmentId := id
  name := name
  isDeleted := isDeleted
  requests := a.requests
  approved := a.approved
  approvalPercent := if 0 < a.requests then some ((a.approved : ℚ) / a.requests * 100) else none
  heldMs := a.heldMs
  sharePercent := sharePercent a.heldMs totalHeldMs
  lateCancellations := a.lateCancellations

/-- The comparator of `foldDepartments`. -/
def compareDepartments (U : Unicode) (a b : DepartmentRow) : ℤ :=
  orElse (b.heldMs - a.heldMs) (orElse ((b.requests : ℤ) - a.requests)
    (U.localeCompareThai (a.name.getD []) (b.name.getD [])))

/-- The `agg` of `foldDepartments`. -/
def aggregate (requestBuckets : List DepartmentRequestBucket)
    (heldMsByBucket : List (Option ℤ × ℤ)) : List (Option ℤ × DepartmentAgg) :=
  tallyBy Prod.fst (fun e ↦ ⟨0, 0, e.2, 0⟩)
    (tallyBy DepartmentRequestBucket.bucket DepartmentRequestBucket.patch [] requestBuckets)
    heldMsByBucket

/-- `foldDepartments`. -/
def foldDepartments (U : Unicode) (departments : List DepartmentSourceRow)
    (requestBuckets : List DepartmentRequestBucket) (heldMsByBucket : List (Option ℤ × ℤ))
    (maySeeReserved : Bool) : List DepartmentRow :=
  let agg := aggregate requestBuckets heldMsByBucket
  let totalHeldMs := (agg.map fun e ↦ e.2.heldMs).sum
  let shown := departments.filter fun d ↦ !(d.isSystemReserved && !maySeeReserved)
  -- A live department has its row even where all its figures are zero.
  let live := (shown.filter fun d ↦ d.deletedAt.isNone).map fun d ↦
    rowOf (some d.id) (some d.name) false (entry agg (some d.id)) totalHeldMs
  let deleted := (shown.filter fun d ↦ d.deletedAt.isSome).filterMap fun d ↦
    match agg.lookup (some d.id) with
    | none => none
    | some a =>
      if a.requests = 0 ∧ a.heldMs = 0 ∧ a.lateCancellations = 0 then none
      else some (rowOf (some d.id) (some d.name) true a totalHeldMs)
  let rows := (live ++ deleted).insertionSort fun a b ↦ compareDepartments U a b ≤ 0
  -- What belongs to no department comes after the sorted rows.
  match agg.lookup none with
  | none => rows
  | some nullAgg =>
    if 0 < nullAgg.requests ∨ 0 < nullAgg.heldMs ∨ 0 < nullAgg.lateCancellations then
      rows ++ [rowOf none none false nullAgg totalHeldMs]
    else rows

/-! ### The report -/

/-- The venue of a registry row. -/
structure VenueHistory where
  name : JsString
  deletedAt : Option ℤ

/-- What the report reads. -/
structure OperationsTables where
  bookings : View
  /-- The department of the registration of a LINE user. -/
  registration : Cuid → Option ℤ
  departments : List DepartmentSourceRow
  venue : Cuid → Option VenueHistory
  cancelLeadMinutes : Option JsString

/-- `ReportLateCancellationDto`. -/
structure ReportLateCancellation where
  code : JsString
  slotStartAt : ℤ
  slotEndAt : ℤ
  lateSlotCount : ℕ
  cancelledAfterStart : Bool
  minutes : ℤ
  venueName : Option JsString
  venueIsDeleted : Bool
  departmentName : Option JsString
  departmentIsDeleted : Bool
  canceller : ReportCancellerKind
  cancelReason : Option JsString

/-- A slot of the report with its request. -/
structure OperationsSlot extends HeldSlot where
  bookingRequest : BookingRequest

/-- `ReportsOperationsResponseDto`. -/
structure Operations where
  window : ReportWindow
  requests : DayCounts
  heldMs : ℤ
  discipline : Discipline
  departments : List DepartmentRow
  purposes : List PurposeRow
  sla : ReportSlaDto
  registry : List ReportLateCancellation

/-- No filter. -/
def everything : ReportFilter := ⟨none, fun _ ↦ true⟩

/-- The slots of a request, in the order of `O1_SELECT`. -/
def slotsOfRequest (d : View) (row : BookingRequest) : List BookingSlot :=
  ((d.all .slot).filter fun s : BookingSlot ↦ s.bookingRequestId = row.id).insertionSort fun a b ↦
    a.startAt < b.startAt ∨ a.startAt = b.startAt ∧ a.id ≤ b.id

/-- The cancelled ones. -/
def cancelledSlotsOf (d : View) (row : BookingRequest) : List BookingSlot :=
  (slotsOfRequest d row).filter BookingSlot.isCancelled

/-- The slots of the report, `O2_SELECT`. -/
def operationsSlots (d : View) (w : ReportWindow) : List OperationsSlot :=
  match w.opened with
  | some o => ((d.all .slot).filter (heldSlotWhere d o everything)).filterMap fun s : BookingSlot ↦
      (d.row .request s.bookingRequestId).map fun r ↦ ⟨⟨⟨s.startAt, s.endAt⟩, s.venueId⟩, r⟩
  | none => []

/-- The loop that fills `heldMsByBucket` and `heldMsByCategory`. -/
def foldHeldBy (bucketOfRow : BookingRequest → Option ℤ)
    (categoryOf : BookingRequest → ReportPurposeCategory) (w : ReportWindow)
    (slots : List OperationsSlot) :
    Except CalendarError (List (Option ℤ × ℤ) × List (ReportPurposeCategory × ℤ)) :=
  match w.opened with
  | none => .ok ([], [])
  | some o => slots.foldlM (fun acc slot ↦ do
      let ms ← splitAndClipMs slot.toSpan w.startDate o.effectiveEndDate
      if ms ≤ 0 then return acc
      return (mapAdd acc.1 (bucketOfRow slot.bookingRequest) ms,
        mapAdd acc.2 (categoryOf slot.bookingRequest) ms)) ([], [])

/-- `registryRowToDto`, with the venue and the department that are found. -/
def registryRowToDto (venue : Cuid → Option VenueHistory)
    (byId : List (ℤ × DepartmentSourceRow)) (row : RegistryRow) : ReportLateCancellation :=
  let venueRef := venue row.venueId
  let dept := row.departmentBucket.bind fun id ↦ byId.lookup id
  { code := row.code
    slotStartAt := row.slotStartAt
    slotEndAt := row.slotEndAt
    lateSlotCount := row.lateSlotCount
    cancelledAfterStart := row.cancelledAfterStart
    minutes := row.minutes
    venueName := venueRef.map VenueHistory.name
    venueIsDeleted := venueRef.any fun v ↦ v.deletedAt.isSome
    departmentName := dept.map DepartmentSourceRow.name
    departmentIsDeleted := dept.any fun d ↦ d.deletedAt.isSome
    canceller := row.canceller
    cancelReason := row.cancelReason }

/-- `bucketOfRow`. -/
def OperationsTables.bucketOfRow (db : OperationsTables) (maySeeReserved : Bool)
    (row : BookingRequest) : Option ℤ :=
  departmentBucketOf (effectiveDepartmentIdOf db.registration row) (departmentsById db.departments)
    maySeeReserved

/-- `leadMs`. -/
def OperationsTables.leadMs (db : OperationsTables) : ℤ :=
  readCancelLeadMinutes db.cancelLeadMinutes * 60000

/-- An entry of `requestBuckets`. -/
def OperationsTables.requestBucket (db : OperationsTables) (maySeeReserved : Bool)
    (row : BookingRequest) : DepartmentRequestBucket where
  bucket := db.bucketOfRow maySeeReserved row
  status := row.status
  isLate := row.approvedAt.isSome &&
    (cancelledSlotsOf db.bookings row).any (isLateCancelled db.leadMs)

/-- `getOperations`. -/
def getOperations (U : Unicode) (db : OperationsTables) (actor : Directory.Actor) (now : ℤ)
    (startRaw endRaw : JsString) : Except ReportError Operations := do
  let range ← parseReportRange startRaw endRaw
  let w ← (reportWindowAt range now).mapError .thrown
  let maySeeReserved := Directory.mayUseSystemReservedOptions actor
  let rows := requestRows db.bookings w everything
  let slots := operationsSlots db.bookings w
  let (totalMs, _) ← (heldTotals w (slots.map OperationsSlot.toHeldSlot)).mapError .thrown
  let bucketOfRow := db.bucketOfRow maySeeReserved
  let (heldMsByBucket, heldMsByCategory) ←
    (foldHeldBy bucketOfRow (fun r ↦ purposeCategoryOf U r.purpose) w slots).mapError .thrown
  let registry := buildRegistry U rows (cancelledSlotsOf db.bookings) db.leadMs bucketOfRow
  return {
    window := w
    requests := (foldStatusCounts rows).1
    heldMs := totalMs
    discipline := foldDiscipline rows (cancelledSlotsOf db.bookings) db.leadMs
    departments := foldDepartments U db.departments (rows.map (db.requestBucket maySeeReserved))
      heldMsByBucket maySeeReserved
    purposes := foldPurposes (rows.map fun r ↦ purposeCategoryOf U r.purpose) heldMsByCategory
    sla := slaOf (rows.map slaSourceRow)
    registry := registry.map (registryRowToDto db.venue (departmentsById db.departments)) }

end EasyBook.Reports

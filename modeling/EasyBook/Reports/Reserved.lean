import EasyBook.Reports.Agreement

/-!
# What the reports hide

Only a super admin may see a department that is reserved. Whoever may not sees the same reports
whatever the reserved departments are and whichever bookings are theirs (`reserved_hidden`): in the
operations report they are of no department, and the overview answers to the id of a reserved
department what it answers to an id that does not exist.
-/

namespace EasyBook.Reports

open JsDate JsString ReadCommitted

/-! ### The query for the overview -/

/-- `ReportsOverviewQueryDto`. -/
structure OverviewQuery where
  startDate : JsString
  endDate : JsString
  venueId : Option Cuid
  departmentId : Option ℤ

/-- How the query ends without a report. -/
inductive QueryError where
  | report (e : ReportError)
  /-- `REPORT_VENUE_INVALID`. -/
  | venueInvalid
  /-- `REPORT_DEPARTMENT_INVALID`. -/
  | departmentInvalid
  deriving DecidableEq

/-- The filter of the query. -/
def OperationsTables.filterOf (db : OperationsTables) (query : OverviewQuery) : ReportFilter where
  venueId := query.venueId
  department r := query.departmentId.all fun id ↦ effectiveDepartmentWhere db.registration id r

/-- `getOverview`, with the checks of its filters. -/
def OperationsTables.getOverview (db : OperationsTables) (actor : Directory.Actor) (now : ℤ)
    (query : OverviewQuery) : Except QueryError Overview :=
  match parseReportRange query.startDate query.endDate with
  | .error e => .error (.report e)
  | .ok _ =>
    if (query.venueId.any fun id ↦ (db.venue id).isNone) = true then .error .venueInvalid
    else if (query.departmentId.any fun id ↦
        match db.departments.find? fun d ↦ decide (d.id = id) with
        | none => true
        | some d => d.isSystemReserved && !Directory.mayUseSystemReservedOptions actor) = true then
      -- one body for an unknown department and for a reserved one
      .error .departmentInvalid
    else (Reports.getOverview db.bookings now query.startDate query.endDate
      (db.filterOf query)).mapError .report

/-! ### What is hidden -/

/-- A request without its department. -/
def masked (r : BookingRequest) : BookingRequest := { r with departmentId := none }

/-- Tables that differ in the reserved departments only, and in which bookings are theirs: every
request is of the same public department, if it is of any. -/
structure SamePublicly (db db' : OperationsTables) : Prop where
  slots : ∀ i, db.bookings.row .slot i = db'.bookings.row .slot i
  requests : ∀ i, db.bookings.row .request i = none ∧ db'.bookings.row .request i = none ∨
    ∃ r r', db.bookings.row .request i = some r ∧ db'.bookings.row .request i = some r' ∧
      masked r = masked r' ∧ ∀ d ∈ db.departments, d.isSystemReserved = false →
        (effectiveDepartmentIdOf db.registration r = some d.id ↔
          effectiveDepartmentIdOf db'.registration r' = some d.id)
  departments : (db.departments.filter fun d ↦ !d.isSystemReserved) =
    db'.departments.filter fun d ↦ !d.isSystemReserved
  venue : db.venue = db'.venue
  cancelLeadMinutes : db.cancelLeadMinutes = db'.cancelLeadMinutes

section Reads

/-- A longer range finds no more. -/
private theorem filterMap_range_of_le {α : Type} {f : ℕ → Option α} {n m : ℕ} (hnm : n ≤ m)
    (h : ∀ i, n ≤ i → f i = none) :
    (List.range m).filterMap f = (List.range n).filterMap f := by
  induction m, hnm using Nat.le_induction with
  | base => rfl
  | succ m hm ih =>
    rw [List.range_succ, List.filterMap_append, ih, List.filterMap_cons, h m hm]
    exact List.append_nil _

/-- Rows of which the same is read. -/
theorem map_filter_all {κ : Type} {d d' : View} {τ : Tab} {K K' : Row τ → κ}
    {p p' : Row τ → Bool}
    (h : ∀ i, d.row τ i = none ∧ d'.row τ i = none ∨ ∃ r r', d.row τ i = some r ∧
      d'.row τ i = some r' ∧ p r = p' r' ∧ K r = K' r') :
    ((d.all τ).filter p).map K = ((d'.all τ).filter p').map K' := by
  have hread : ∀ (d : View) (K : Row τ → κ) (p : Row τ → Bool), ((d.all τ).filter p).map K =
      (List.range d.next).filterMap fun i ↦ (d.row τ i).bind fun r ↦
        if p r then some (K r) else none := by
    intro d K p
    unfold Db.all
    rw [List.filter_filterMap, List.map_filterMap]
    refine List.filterMap_congr fun i _ ↦ ?_
    cases d.row τ i with
    | none => rfl
    | some r => cases hp : p r <;> simp [hp]
  have hsame : (fun i ↦ (d.row τ i).bind fun r ↦ if p r then some (K r) else none) =
      fun i ↦ (d'.row τ i).bind fun r ↦ if p' r then some (K' r) else none := by
    funext i
    rcases h i with ⟨hi, hi'⟩ | ⟨r, r', hi, hi', hp, hK⟩
    · rw [hi, hi']
      rfl
    · rw [hi, hi', Option.bind_some, Option.bind_some, hp, hK]
  have hnone : ∀ i, d.next ≤ i ∨ d'.next ≤ i →
      ((d.row τ i).bind fun r ↦ if p r then some (K r) else none) = none := by
    rintro i (hi | hi)
    · rw [d.bounded τ i hi]
      rfl
    · rw [congrFun hsame i, d'.bounded τ i hi]
      rfl
  rw [hread, hread, ← hsame]
  rcases Nat.le_total d.next d'.next with hle | hle
  · exact (filterMap_range_of_le hle fun i hi ↦ hnone i (.inl hi)).symm
  · exact filterMap_range_of_le hle fun i hi ↦ hnone i (.inr hi)

end Reads

section Hidden

variable {U : Unicode} {db db' : OperationsTables} {w : ReportWindow} {d : DepartmentSourceRow}
  {r r' : BookingRequest}

theorem SamePublicly.mem_iff (h : SamePublicly db db') (hd : d.isSystemReserved = false) :
    d ∈ db.departments ↔ d ∈ db'.departments := by
  have hmem : d ∈ (db.departments.filter fun d ↦ !d.isSystemReserved) ↔
      d ∈ db'.departments.filter fun d ↦ !d.isSystemReserved := by rw [h.departments]
  simpa [List.mem_filter, hd] using hmem

theorem shown_false_iff : d.Shown false ↔ d.isSystemReserved = false := by
  unfold DepartmentSourceRow.Shown
  cases d.isSystemReserved <;> simp

/-- The two requests are in one bucket. -/
theorem SamePublicly.bucketOfRow (h : SamePublicly db db')
    (hids : (db.departments.map DepartmentSourceRow.id).Nodup)
    (hids' : (db'.departments.map DepartmentSourceRow.id).Nodup)
    (hr : ∀ d ∈ db.departments, d.isSystemReserved = false →
      (effectiveDepartmentIdOf db.registration r = some d.id ↔
        effectiveDepartmentIdOf db'.registration r' = some d.id)) :
    db.bucketOfRow false r = db'.bucketOfRow false r' := by
  refine Option.ext fun id ↦ ?_
  unfold OperationsTables.bucketOfRow
  rw [departmentBucketOf_eq_some hids, departmentBucketOf_eq_some hids']
  simp only [shown_false_iff]
  constructor
  · rintro ⟨he, d, hd, rfl, hpublic⟩
    exact ⟨(hr d hd hpublic).1 he, d, (h.mem_iff hpublic).1 hd, rfl, hpublic⟩
  · rintro ⟨he, d, hd, rfl, hpublic⟩
    have hd := (h.mem_iff hpublic).2 hd
    exact ⟨(hr d hd hpublic).2 he, d, hd, rfl, hpublic⟩

/-- What is read of a request. -/
def readOf (db : OperationsTables) (r : BookingRequest) : BookingRequest × Option ℤ :=
  (masked r, db.bucketOfRow false r)

/-- What is read of a slot. -/
def slotReadOf (db : OperationsTables) (s : OperationsSlot) :
    HeldSlot × BookingRequest × Option ℤ :=
  (s.toHeldSlot, readOf db s.bookingRequest)

theorem SamePublicly.all_slots (h : SamePublicly db db') :
    db.bookings.all .slot = db'.bookings.all .slot :=
  Db.all_congr h.slots

theorem SamePublicly.requestRows (h : SamePublicly db db')
    (hids : (db.departments.map DepartmentSourceRow.id).Nodup)
    (hids' : (db'.departments.map DepartmentSourceRow.id).Nodup) :
    (requestRows db.bookings w everything).map (readOf db) =
      (requestRows db'.bookings w everything).map (readOf db') := by
  unfold Reports.requestRows
  cases w.opened with
  | none => rfl
  | some o =>
    refine map_filter_all fun i ↦ (h.requests i).imp_right ?_
    rintro ⟨r, r', hi, hi', hmasked, hr⟩
    refine ⟨r, r', hi, hi', ?_, Prod.ext hmasked (h.bucketOfRow hids hids' hr)⟩
    show attributedRequestWhere o everything (masked r) =
      attributedRequestWhere o everything (masked r')
    rw [hmasked]

theorem SamePublicly.operationsSlots (h : SamePublicly db db')
    (hids : (db.departments.map DepartmentSourceRow.id).Nodup)
    (hids' : (db'.departments.map DepartmentSourceRow.id).Nodup) :
    (operationsSlots db.bookings w).map (slotReadOf db) =
      (operationsSlots db'.bookings w).map (slotReadOf db') := by
  unfold Reports.operationsSlots
  cases w.opened with
  | none => rfl
  | some o =>
    have hwhere : ∀ s : BookingSlot, heldSlotWhere db.bookings o everything s =
        heldSlotWhere db'.bookings o everything s := fun s ↦ by
      unfold heldSlotWhere
      congr 1
      rcases h.requests s.bookingRequestId with ⟨hi, hi'⟩ | ⟨r, r', hi, hi', hmasked, -⟩
      · rw [hi, hi']
      · have hst : (masked r).status = (masked r').status := by rw [hmasked]
        rw [hi, hi']
        exact congrArg (fun st ↦ decide (st = BookingStatus.approved) && true) hst
    show List.map _ (List.filterMap _ (List.filter _ _)) =
      List.map _ (List.filterMap _ (List.filter _ _))
    rw [h.all_slots, List.filter_congr fun s _ ↦ hwhere s, List.map_filterMap, List.map_filterMap]
    refine List.filterMap_congr fun s _ ↦ ?_
    rcases h.requests (BookingSlot.bookingRequestId s) with
      ⟨hi, hi'⟩ | ⟨r, r', hi, hi', hmasked, hr⟩
    · rw [hi, hi']
      rfl
    · rw [hi, hi']
      exact congrArg some (Prod.ext rfl (Prod.ext hmasked (h.bucketOfRow hids hids' hr)))

end Hidden

/-! ### The reports -/

section Report

variable {U : Unicode} {db db' : OperationsTables} {w : ReportWindow}
  {rows rows' : List BookingRequest} {slots slots' : List OperationsSlot}

theorem foldStatusCounts_masked (rows : List BookingRequest) :
    foldStatusCounts rows = foldStatusCounts (rows.map masked) := by
  unfold foldStatusCounts
  rw [List.foldl_map]
  rfl

theorem map_masked (h : rows.map (readOf db) = rows'.map (readOf db')) :
    rows.map masked = rows'.map masked := by
  have hfst := congrArg (List.map Prod.fst) h
  rwa [List.map_map, List.map_map] at hfst

theorem SamePublicly.cancelledSlotsOf (h : SamePublicly db db') :
    cancelledSlotsOf db.bookings = cancelledSlotsOf db'.bookings := by
  funext r
  unfold Reports.cancelledSlotsOf slotsOfRequest
  rw [h.all_slots]

theorem SamePublicly.leadMs (h : SamePublicly db db') : db.leadMs = db'.leadMs := by
  unfold OperationsTables.leadMs
  rw [h.cancelLeadMinutes]

theorem SamePublicly.foldDiscipline (h : SamePublicly db db')
    (hrows : rows.map masked = rows'.map masked) :
    foldDiscipline rows (Reports.cancelledSlotsOf db.bookings) db.leadMs =
      foldDiscipline rows' (Reports.cancelledSlotsOf db'.bookings) db'.leadMs := by
  have hmasked : ∀ rows : List BookingRequest,
      Reports.foldDiscipline rows (Reports.cancelledSlotsOf db'.bookings) db'.leadMs =
        Reports.foldDiscipline (rows.map masked) (Reports.cancelledSlotsOf db'.bookings)
          db'.leadMs := fun rows ↦ by
    unfold Reports.foldDiscipline
    rw [List.foldl_map]
    rfl
  rw [h.cancelledSlotsOf, h.leadMs, hmasked rows, hrows, ← hmasked]

theorem SamePublicly.requestBuckets (h : SamePublicly db db')
    (hrows : rows.map (readOf db) = rows'.map (readOf db')) :
    rows.map (db.requestBucket false) = rows'.map (db'.requestBucket false) := by
  have hread : ∀ (db : OperationsTables) (rows : List BookingRequest),
      rows.map (db.requestBucket false) = (rows.map (readOf db)).map fun x ↦
        ⟨x.2, x.1.status, x.1.approvedAt.isSome &&
          (Reports.cancelledSlotsOf db.bookings x.1).any (isLateCancelled db.leadMs)⟩ :=
    fun db rows ↦ by
      rw [List.map_map]
      rfl
  rw [hread, hread, hrows, h.cancelledSlotsOf, h.leadMs]

theorem SamePublicly.foldDepartments (h : SamePublicly db db')
    (requestBuckets : List DepartmentRequestBucket) (heldMsByBucket : List (Option ℤ × ℤ)) :
    foldDepartments U db.departments requestBuckets heldMsByBucket false =
      foldDepartments U db'.departments requestBuckets heldMsByBucket false := by
  have hshown : (db.departments.filter fun d ↦ !(d.isSystemReserved && !false)) =
      db'.departments.filter fun d ↦ !(d.isSystemReserved && !false) := by
    simpa only [Bool.not_false, Bool.and_true] using h.departments
  unfold Reports.foldDepartments
  rw [hshown]

theorem SamePublicly.buildRegistry (h : SamePublicly db db')
    (hrows : rows.map (readOf db) = rows'.map (readOf db')) :
    buildRegistry U rows (Reports.cancelledSlotsOf db.bookings) db.leadMs
        (db.bucketOfRow false) =
      buildRegistry U rows' (Reports.cancelledSlotsOf db'.bookings) db'.leadMs
        (db'.bucketOfRow false) := by
  have hread : ∀ (db : OperationsTables) (rows : List BookingRequest),
      rows.filterMap (registryRowOf (Reports.cancelledSlotsOf db.bookings) db.leadMs
          (db.bucketOfRow false)) =
        (rows.map (readOf db)).filterMap fun x ↦
          registryRowOf (Reports.cancelledSlotsOf db.bookings) db.leadMs (fun _ ↦ x.2) x.1 :=
    fun db rows ↦ by
      rw [List.filterMap_map]
      rfl
  unfold Reports.buildRegistry
  rw [hread, hread, hrows, h.cancelledSlotsOf, h.leadMs]

theorem SamePublicly.registry (h : SamePublicly db db')
    (hids : (db.departments.map DepartmentSourceRow.id).Nodup)
    (hids' : (db'.departments.map DepartmentSourceRow.id).Nodup)
    (hrows : rows.map (readOf db) = rows'.map (readOf db')) :
    (Reports.buildRegistry U rows (Reports.cancelledSlotsOf db.bookings) db.leadMs
        (db.bucketOfRow false)).map (registryRowToDto db.venue (departmentsById db.departments)) =
      (Reports.buildRegistry U rows' (Reports.cancelledSlotsOf db'.bookings) db'.leadMs
        (db'.bucketOfRow false)).map
          (registryRowToDto db'.venue (departmentsById db'.departments)) := by
  rw [← h.buildRegistry hrows, ← h.venue]
  refine List.map_congr_left fun e he ↦ ?_
  obtain ⟨r, -, -, hbucket⟩ := mem_buildRegistry he
  have hdept : (e.departmentBucket.bind fun id ↦ (departmentsById db.departments).lookup id) =
      e.departmentBucket.bind fun id ↦ (departmentsById db'.departments).lookup id := by
    cases hb : e.departmentBucket with
    | none => rfl
    | some id =>
      obtain ⟨-, d, hd, rfl, hshown⟩ :=
        (departmentBucketOf_eq_some hids).1 (hbucket.symm.trans hb)
      have hd' := (h.mem_iff (shown_false_iff.1 hshown)).1 hd
      rw [Option.bind_some, Option.bind_some, (lookup_departmentsById hids).2 ⟨hd, rfl⟩,
        (lookup_departmentsById hids').2 ⟨hd', rfl⟩]
  unfold registryRowToDto
  rw [hdept]

theorem foldHeldBy_congr (hslots : slots.map (slotReadOf db) = slots'.map (slotReadOf db')) :
    foldHeldBy (db.bucketOfRow false) (fun r ↦ purposeCategoryOf U r.purpose) w slots =
      foldHeldBy (db'.bucketOfRow false) (fun r ↦ purposeCategoryOf U r.purpose) w slots' := by
  unfold foldHeldBy
  cases w.opened with
  | none => rfl
  | some o =>
    have hread : ∀ (db : OperationsTables) (slots : List OperationsSlot),
        (slots.foldlM (fun (acc : List (Option ℤ × ℤ) × List (ReportPurposeCategory × ℤ)) slot ↦ do
          let ms ← splitAndClipMs slot.toSpan w.startDate o.effectiveEndDate
          if ms ≤ 0 then return acc
          return (mapAdd acc.1 (db.bucketOfRow false slot.bookingRequest) ms,
            mapAdd acc.2 (purposeCategoryOf U slot.bookingRequest.purpose) ms)) ([], [])) =
        (slots.map (slotReadOf db)).foldlM (fun acc x ↦ do
          let ms ← splitAndClipMs x.1.toSpan w.startDate o.effectiveEndDate
          if ms ≤ 0 then return acc
          return (mapAdd acc.1 x.2.2 ms, mapAdd acc.2 (purposeCategoryOf U x.2.1.purpose) ms))
            ([], []) := fun db slots ↦ by
      rw [List.foldlM_map]
      rfl
    exact (hread db slots).trans ((congrArg _ hslots).trans (hread db' slots').symm)

/-- The operations report of somebody who may not see reserved departments. -/
theorem SamePublicly.getOperations (h : SamePublicly db db')
    (hids : (db.departments.map DepartmentSourceRow.id).Nodup)
    (hids' : (db'.departments.map DepartmentSourceRow.id).Nodup) {actor : Directory.Actor}
    (hactor : actor.role ≠ .superAdmin) (now : ℤ) (startRaw endRaw : JsString) :
    getOperations U db actor now startRaw endRaw =
      getOperations U db' actor now startRaw endRaw := by
  have hmay : Directory.mayUseSystemReservedOptions actor = false := decide_eq_false hactor
  unfold Reports.getOperations
  rw [hmay]
  refine bind_congr fun range ↦ bind_congr fun w ↦ ?_
  have hrows := h.requestRows (w := w) hids hids'
  have hslots := h.operationsSlots (w := w) hids hids'
  have hmasked := map_masked hrows
  have hheld : (Reports.operationsSlots db.bookings w).map OperationsSlot.toHeldSlot =
      (Reports.operationsSlots db'.bookings w).map OperationsSlot.toHeldSlot := by
    have hfst := congrArg (List.map Prod.fst) hslots
    rwa [List.map_map, List.map_map] at hfst
  have hpurposes : (Reports.requestRows db.bookings w everything).map
        (fun r ↦ purposeCategoryOf U r.purpose) =
      (Reports.requestRows db'.bookings w everything).map fun r ↦
        purposeCategoryOf U r.purpose := by
    have := congrArg (List.map fun r ↦ purposeCategoryOf U r.purpose) hmasked
    rwa [List.map_map, List.map_map] at this
  have hsla : (Reports.requestRows db.bookings w everything).map slaSourceRow =
      (Reports.requestRows db'.bookings w everything).map slaSourceRow := by
    have := congrArg (List.map slaSourceRow) hmasked
    rwa [List.map_map, List.map_map] at this
  have hcounts : foldStatusCounts (Reports.requestRows db.bookings w everything) =
      foldStatusCounts (Reports.requestRows db'.bookings w everything) := by
    rw [foldStatusCounts_masked, hmasked, ← foldStatusCounts_masked]
  simp only [hheld, hcounts, hpurposes, hsla, foldHeldBy_congr hslots, h.foldDiscipline hmasked,
    h.requestBuckets hrows, h.foldDepartments, h.registry hids hids' hrows]

/-- The overview, if both filters mean the same requests. -/
theorem SamePublicly.overview (h : SamePublicly db db') {filter filter' : ReportFilter}
    (hvenue : filter.venueId = filter'.venueId)
    (hfilter : ∀ i r r', db.bookings.row .request i = some r →
      db'.bookings.row .request i = some r' → filter.department r = filter'.department r')
    (now : ℤ) (startRaw endRaw : JsString) :
    getOverview db.bookings now startRaw endRaw filter =
      getOverview db'.bookings now startRaw endRaw filter' := by
  unfold getOverview
  refine bind_congr fun range ↦ bind_congr fun w ↦ ?_
  have hrows : (Reports.requestRows db.bookings w filter).map masked =
      (Reports.requestRows db'.bookings w filter').map masked := by
    unfold Reports.requestRows
    cases w.opened with
    | none => rfl
    | some o =>
      refine map_filter_all fun i ↦ (h.requests i).imp_right ?_
      rintro ⟨r, r', hi, hi', hmasked, -⟩
      refine ⟨r, r', hi, hi', ?_, hmasked⟩
      have hstart : (masked r).firstStartAt = (masked r').firstStartAt := by rw [hmasked]
      have hroom : (masked r).venueId = (masked r').venueId := by rw [hmasked]
      simp only [masked] at hstart hroom
      simp only [attributedRequestWhere, hstart, hroom, hvenue, hfilter i r r' hi hi']
  have hslots : slotRows db.bookings w filter = slotRows db'.bookings w filter' := by
    unfold slotRows
    cases w.opened with
    | none => rfl
    | some o =>
      have hwhere : ∀ s : BookingSlot, heldSlotWhere db.bookings o filter s =
          heldSlotWhere db'.bookings o filter' s := fun s ↦ by
        unfold heldSlotWhere
        rw [hvenue]
        congr 1
        rcases h.requests s.bookingRequestId with ⟨hi, hi'⟩ | ⟨r, r', hi, hi', hmasked, -⟩
        · rw [hi, hi']
          rfl
        · have hst : (masked r).status = (masked r').status := by rw [hmasked]
          simp only [masked] at hst
          rw [hi, hi', Option.any_some, Option.any_some, hst, hfilter _ r r' hi hi']
      dsimp only
      rw [h.all_slots, List.filter_congr fun s _ ↦ hwhere s]
  have hcounts : foldStatusCounts (Reports.requestRows db.bookings w filter) =
      foldStatusCounts (Reports.requestRows db'.bookings w filter') := by
    rw [foldStatusCounts_masked, hrows, ← foldStatusCounts_masked]
  simp only [hslots, hcounts]

/-- Whether the id of a department is refused. -/
theorem refused_iff (hids : (db.departments.map DepartmentSourceRow.id).Nodup) (id : ℤ) :
    (match db.departments.find? fun d ↦ decide (d.id = id) with
      | none => true
      | some d => d.isSystemReserved && !false) = false ↔
      ∃ d ∈ db.departments, d.id = id ∧ d.isSystemReserved = false := by
  cases hfind : db.departments.find? fun d ↦ decide (d.id = id) with
  | none =>
    refine iff_of_false (by simp) fun ⟨d, hd, hid, _⟩ ↦ ?_
    exact absurd (List.find?_eq_none.1 hfind d hd) (by simp [hid])
  | some d =>
    have hd := List.mem_of_find?_eq_some hfind
    have hid : d.id = id := by simpa using List.find?_some hfind
    simp only [Bool.not_false, Bool.and_true]
    refine ⟨fun hpublic ↦ ⟨d, hd, hid, hpublic⟩, fun ⟨d', hd', hid', hpublic⟩ ↦ ?_⟩
    rwa [List.inj_on_of_nodup_map hids hd hd' (hid.trans hid'.symm)]

/-- The overview of somebody who may not see reserved departments. -/
theorem SamePublicly.getOverview (h : SamePublicly db db')
    (hids : (db.departments.map DepartmentSourceRow.id).Nodup)
    (hids' : (db'.departments.map DepartmentSourceRow.id).Nodup) {actor : Directory.Actor}
    (hactor : actor.role ≠ .superAdmin) (now : ℤ) (query : OverviewQuery) :
    db.getOverview actor now query = db'.getOverview actor now query := by
  have hmay : Directory.mayUseSystemReservedOptions actor = false := decide_eq_false hactor
  have hpublic : ∀ id, (∃ d ∈ db.departments, d.id = id ∧ d.isSystemReserved = false) ↔
      ∃ d ∈ db'.departments, d.id = id ∧ d.isSystemReserved = false := fun id ↦
    exists_congr fun d ↦ by
      rw [and_comm, and_assoc, and_comm (a := d ∈ db'.departments), and_assoc]
      exact and_congr_right fun _ ↦ and_congr_right fun hpub ↦ h.mem_iff hpub
  have hrefused : ∀ id, (match db.departments.find? fun d ↦ decide (d.id = id) with
        | none => true
        | some d => d.isSystemReserved && !false) =
      match db'.departments.find? fun d ↦ decide (d.id = id) with
        | none => true
        | some d => d.isSystemReserved && !false := fun id ↦ by
    rw [← Bool.not_inj_iff, Bool.eq_iff_iff, Bool.not_eq_true', Bool.not_eq_true',
      refused_iff hids, refused_iff hids', hpublic]
  unfold OperationsTables.getOverview
  rw [hmay, h.venue]
  simp only [hrefused]
  cases parseReportRange query.startDate query.endDate with
  | error e => rfl
  | ok range =>
    dsimp only
    split
    · rfl
    split
    · rfl
    · next hallowed =>
      have hfilter : (db.filterOf query).venueId = (db'.filterOf query).venueId := rfl
      refine congrArg _ (h.overview hfilter (fun i r r' hi hi' ↦ ?_) now _ _)
      obtain ⟨_, _, hrow, hrow', -, hsame⟩ := (h.requests i).resolve_left fun hnone ↦ by
        rw [hnone.1] at hi
        cases hi
      obtain rfl := Option.some.inj (hrow.symm.trans hi)
      obtain rfl := Option.some.inj (hrow'.symm.trans hi')
      show query.departmentId.all _ = query.departmentId.all _
      cases hid : query.departmentId with
      | none => rfl
      | some id =>
        rw [hid, Option.any_some, Bool.not_eq_true, refused_iff hids'] at hallowed
        obtain ⟨d, hd, rfl, hpub⟩ := hallowed
        rw [Option.all_some, Option.all_some, Bool.eq_iff_iff, effectiveDepartmentWhere_iff,
          effectiveDepartmentWhere_iff]
        exact hsame d ((h.mem_iff hpub).2 hd) hpub

end Report

/-- **Reserved departments are hidden.** Who is no super admin is shown the same by both reports,
whatever the reserved departments are and whichever bookings are theirs. -/
theorem reserved_hidden {db db' : OperationsTables} (h : SamePublicly db db')
    (hids : (db.departments.map DepartmentSourceRow.id).Nodup)
    (hids' : (db'.departments.map DepartmentSourceRow.id).Nodup) {actor : Directory.Actor}
    (hactor : actor.role ≠ .superAdmin) (U : Unicode) (now : ℤ) :
    (∀ startRaw endRaw, getOperations U db actor now startRaw endRaw =
      getOperations U db' actor now startRaw endRaw) ∧
    ∀ query, db.getOverview actor now query = db'.getOverview actor now query :=
  ⟨h.getOperations hids hids' hactor now, h.getOverview hids hids' hactor now⟩

namespace Sample

/-- Every LINE user is of the reserved department `id`. -/
def reserving (id : ℤ) : OperationsTables :=
  { tables with
    registration := fun _ ↦ some id
    departments := [⟨1, lit "A", none, false⟩, ⟨id, lit "B", none, true⟩] }

end Sample

/-- Whether the LINE users are of one reserved department or another cannot be told, nor asked. -/
theorem reserved_hidden_reserving :
    getOperations Sample.unicode (Sample.reserving 2) Sample.admin 950400000 (lit "1970-01-01")
        (lit "1970-02-10") =
      getOperations Sample.unicode (Sample.reserving 3) Sample.admin 950400000 (lit "1970-01-01")
        (lit "1970-02-10") ∧
    (Sample.reserving 2).getOverview Sample.admin 950400000
        ⟨lit "1970-01-01", lit "1970-02-10", none, some 2⟩ =
      (Sample.reserving 3).getOverview Sample.admin 950400000
        ⟨lit "1970-01-01", lit "1970-02-10", none, some 2⟩ := by
  have hsame : SamePublicly (Sample.reserving 2) (Sample.reserving 3) := by
    refine ⟨fun _ ↦ rfl, fun i ↦ ?_, rfl, rfl, rfl⟩
    show Sample.tables.bookings.row .request i = none ∧ _ ∨ _
    cases hi : Sample.tables.bookings.row .request i with
    | none => exact .inl ⟨rfl, hi⟩
    | some r =>
      refine .inr ⟨r, r, hi, hi, rfl, fun d hd hpublic ↦ ?_⟩
      obtain rfl : d = ⟨1, lit "A", none, false⟩ := by
        rcases List.mem_cons.1 hd with rfl | hd
        · rfl
        · rw [List.mem_singleton.1 hd] at hpublic
          cases hpublic
      unfold effectiveDepartmentIdOf Sample.reserving
      cases r.lineUserId <;> simp
  obtain ⟨hoperations, hoverview⟩ := @reserved_hidden _ _ hsame (by decide) (by decide)
    Sample.admin (by decide) Sample.unicode 950400000
  exact ⟨hoperations _ _, hoverview _⟩

end EasyBook.Reports

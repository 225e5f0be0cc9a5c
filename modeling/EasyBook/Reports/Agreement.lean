import EasyBook.Reports.Departments

/-!
# The operations report agrees with itself

The same bookings are counted four times over: by status, by department, by purpose, and one by one
in the registry of late cancellations. The sums are the same (`operations_agree`), and the row of a
department shows what the overview of that department does: the two resolve a booking's department
in different ways, one by a function on the row, the other by a `where`.
-/

namespace EasyBook.Reports

open JsDate JsString ReadCommitted

/-! ### Held time -/

section Held

variable {a b now : ℤ} {slots : List OperationsSlot}

/-- What the slots hold whose requests satisfy `p`. -/
noncomputable def heldWhere (a b now : ℤ) (slots : List OperationsSlot)
    (p : BookingRequest → Bool) : ℤ :=
  ((slots.filter fun s ↦ p s.bookingRequest).map fun s ↦ heldMs a (cutOff b now) s.toSpan).sum

theorem heldWhere_nonneg (p : BookingRequest → Bool) : 0 ≤ heldWhere a b now slots p := by
  refine List.sum_nonneg fun x hx ↦ ?_
  obtain ⟨s, -, rfl⟩ := List.mem_map.1 hx
  exact heldMs_nonneg _ _ _

theorem heldWhere_append (p : BookingRequest → Bool) (s : OperationsSlot) :
    heldWhere a b now (slots ++ [s]) p = heldWhere a b now slots p +
      if p s.bookingRequest then heldMs a (cutOff b now) s.toSpan else 0 := by
  unfold heldWhere
  rw [List.filter_append, List.map_append, List.sum_append]
  cases hp : p s.bookingRequest <;> simp [hp]

/-- What the loop has added up. -/
structure HeldBy {κ : Type} [DecidableEq κ] [BEq κ] (a b now : ℤ) (slots : List OperationsSlot)
    (key : BookingRequest → κ) (m : List (κ × ℤ)) : Prop where
  nodup : (m.map Prod.fst).Nodup
  entry : ∀ k, entry m k = heldWhere a b now slots fun r ↦ decide (key r = k)

theorem HeldBy.nil {κ : Type} [DecidableEq κ] [BEq κ] (key : BookingRequest → κ) :
    HeldBy a b now [] key [] :=
  ⟨List.nodup_nil, fun _ ↦ rfl⟩

theorem HeldBy.skip {κ : Type} [DecidableEq κ] [BEq κ] {key : BookingRequest → κ}
    {m : List (κ × ℤ)} (h : HeldBy a b now slots key m) {s : OperationsSlot}
    (hs : heldMs a (cutOff b now) s.toSpan = 0) : HeldBy a b now (slots ++ [s]) key m :=
  ⟨h.nodup, fun k ↦ by rw [h.entry, heldWhere_append, hs, ite_self, add_zero]⟩

theorem HeldBy.push {κ : Type} [DecidableEq κ] [BEq κ] [LawfulBEq κ] {key : BookingRequest → κ}
    {m : List (κ × ℤ)} (h : HeldBy a b now slots key m) (s : OperationsSlot) :
    HeldBy a b now (slots ++ [s]) key
      (mapAdd m (key s.bookingRequest) (heldMs a (cutOff b now) s.toSpan)) :=
  ⟨nodup_keys_mapSet h.nodup, fun k ↦ by
    rw [entry_mapAdd, h.entry, heldWhere_append]
    simp only [decide_eq_true_eq]⟩

theorem foldHeldBy_windowOf (h : Showable a b now) (bucketOfRow : BookingRequest → Option ℤ)
    (categoryOf : BookingRequest → ReportPurposeCategory)
    (hslots : ∀ s ∈ slots, Plausible s.toSpan)
    (hclosed : (windowOf a b now).opened = none → slots = []) :
    ∃ byBucket byCategory, foldHeldBy bucketOfRow categoryOf (windowOf a b now) slots =
        .ok (byBucket, byCategory) ∧
      HeldBy a b now slots bucketOfRow byBucket ∧ HeldBy a b now slots categoryOf byCategory := by
  unfold foldHeldBy
  by_cases hc : cutOff b now < a
  · have hopen : (windowOf a b now).opened = none := by unfold windowOf; exact if_pos hc
    rw [hclosed hopen, hopen]
    exact ⟨_, _, rfl, .nil _, .nil _⟩
  · have hopen : (windowOf a b now).opened = some ⟨dateString (cutOff b now),
        a * msPerDay - 25200000, (cutOff b now + 1) * msPerDay - 25200000⟩ := by
      unfold windowOf
      exact if_neg hc
    rw [hopen]
    suffices hloop : ∃ acc : List (Option ℤ × ℤ) × List (ReportPurposeCategory × ℤ),
        slots.foldlM _ ([], []) = Except.ok acc ∧
        HeldBy a b now slots bucketOfRow acc.1 ∧ HeldBy a b now slots categoryOf acc.2 by
      obtain ⟨acc, hacc, hheld⟩ := hloop
      exact ⟨acc.1, acc.2, hacc, hheld⟩
    refine foldlM_ok_of
      (fun done (acc : List (Option ℤ × ℤ) × List (ReportPurposeCategory × ℤ)) ↦
        HeldBy a b now done bucketOfRow acc.1 ∧ HeldBy a b now done categoryOf acc.2)
      ⟨.nil _, .nil _⟩ fun done slot hslot acc hacc ↦ ?_
    have hms := splitAndClipMs_dateString (h.reportDay le_rfl h.le)
      (h.cutOff_le (by omega) le_rfl) (hslots slot hslot)
    show ∃ b', (splitAndClipMs slot.toSpan (dateString a) (dateString (cutOff b now)) >>= _) =
      .ok b' ∧ _
    rw [hms]
    by_cases hpos : heldMs a (cutOff b now) slot.toSpan ≤ 0
    · have hzero := le_antisymm hpos (heldMs_nonneg _ _ _)
      exact ⟨_, if_pos hpos, hacc.1.skip hzero, hacc.2.skip hzero⟩
    · exact ⟨_, if_neg hpos, hacc.1.push slot, hacc.2.push slot⟩

/-- Keys of which every request has one hold together what all slots hold. -/
theorem sum_heldWhere {κ : Type} [DecidableEq κ] {key : BookingRequest → κ} {keys : List κ}
    (hkeys : keys.Nodup) (hmem : ∀ r, key r ∈ keys) :
    (keys.map fun k ↦ heldWhere a b now slots fun r ↦ decide (key r = k)).sum =
      heldWhere a b now slots fun _ ↦ true := by
  have hfibers := sum_fibers (fun s : OperationsSlot ↦ key s.bookingRequest)
    (fun s ↦ heldMs a (cutOff b now) s.toSpan) hkeys slots
  rw [List.filter_congr fun s _ ↦ decide_eq_true (hmem s.bookingRequest)] at hfibers
  exact hfibers

end Held

/-! ### Late cancellations -/

section Registry

variable {U : Unicode} {rows : List BookingRequest}
  {cancelledOf : BookingRequest → List BookingSlot} {leadMs : ℤ}
  {bucketOfRow : BookingRequest → Option ℤ}

/-- A request that was granted and of which a slot was cancelled late. -/
def cancelledLate (cancelledOf : BookingRequest → List BookingSlot) (leadMs : ℤ)
    (row : BookingRequest) : Bool :=
  row.approvedAt.isSome && (cancelledOf row).any (isLateCancelled leadMs)

theorem length_lateCancelledSlots (cancelled : List BookingSlot) (leadMs : ℤ) :
    0 < (lateCancelledSlots cancelled leadMs).length ↔
      cancelled.any (isLateCancelled leadMs) = true := by
  unfold lateCancelledSlots
  rw [List.length_pos_iff_exists_mem, List.any_eq_true]
  simp only [List.mem_filter]

/-- The registry has a row for each of these requests. -/
theorem registryRowOf_spec (cancelledOf : BookingRequest → List BookingSlot) (leadMs : ℤ)
    (bucketOfRow : BookingRequest → Option ℤ) (row : BookingRequest) :
    (registryRowOf cancelledOf leadMs bucketOfRow row).isSome =
        cancelledLate cancelledOf leadMs row ∧
      ∀ e, registryRowOf cancelledOf leadMs bucketOfRow row = some e →
        e.departmentBucket = bucketOfRow row := by
  have hlate := length_lateCancelledSlots (cancelledOf row) leadMs
  unfold registryRowOf cancelledLate
  cases happroved : row.approvedAt with
  | none => exact ⟨rfl, fun e he ↦ (nomatch he)⟩
  | some approvedAt =>
    rw [if_neg (Option.some_ne_none _), Option.isSome_some, Bool.true_and]
    dsimp only
    cases hl : lateCancelledSlots (cancelledOf row) leadMs with
    | nil =>
      rw [hl] at hlate
      refine ⟨?_, fun e he ↦ (nomatch he)⟩
      exact (Bool.eq_false_iff.2 fun h ↦ absurd (hlate.2 h) (lt_irrefl 0)).symm
    | cons first late =>
      rw [hl] at hlate
      refine ⟨(hlate.1 (Nat.succ_pos _)).symm, fun e he ↦ ?_⟩
      rw [← Option.some.inj he]

theorem length_buildRegistry (U : Unicode) (rows : List BookingRequest)
    (cancelledOf : BookingRequest → List BookingSlot) (leadMs : ℤ)
    (bucketOfRow : BookingRequest → Option ℤ) :
    (buildRegistry U rows cancelledOf leadMs bucketOfRow).length =
      rows.countP (cancelledLate cancelledOf leadMs) := by
  unfold buildRegistry
  rw [List.length_insertionSort, List.length_filterMap_eq_countP]
  exact List.countP_congr fun row _ ↦ by rw [(registryRowOf_spec _ _ _ row).1]

theorem mem_buildRegistry {e : RegistryRow}
    (he : e ∈ buildRegistry U rows cancelledOf leadMs bucketOfRow) :
    ∃ row ∈ rows, cancelledLate cancelledOf leadMs row = true ∧
      e.departmentBucket = bucketOfRow row := by
  obtain ⟨row, hrow, he⟩ := List.mem_filterMap.1 ((List.mem_insertionSort _).1 he)
  obtain ⟨hsome, hbucket⟩ := registryRowOf_spec cancelledOf leadMs bucketOfRow row
  exact ⟨row, hrow, by rw [← hsome, he, Option.isSome_some], hbucket e he⟩

theorem lateCancellations_foldDiscipline (rows : List BookingRequest) :
    (foldDiscipline rows cancelledOf leadMs).lateCancellations =
      rows.countP (cancelledLate cancelledOf leadMs) := by
  unfold foldDiscipline
  induction rows using List.reverseRecOn with
  | nil => rfl
  | append_singleton rows row ih =>
    rw [List.foldl_append, List.foldl_cons, List.foldl_nil, List.countP_append, ← ih,
      List.countP_singleton, cancelledLate]
    cases row.approvedAt with
    | none => rfl
    | some approvedAt =>
      simp only [reduceCtorEq, if_false, length_lateCancelledSlots, Option.isSome_some,
        Bool.true_and]

end Registry

/-! ### The overview of a department -/

section Overview

variable {d : View} {w : ReportWindow}

theorem requestRows_department (department : BookingRequest → Bool) :
    requestRows d w ⟨none, department⟩ = (requestRows d w everything).filter department := by
  unfold requestRows
  cases w.opened with
  | none => rfl
  | some o =>
    show List.filter _ _ = List.filter _ (List.filter _ _)
    rw [List.filter_filter]
    refine List.filter_congr fun r _ ↦ ?_
    simp only [attributedRequestWhere, everything, Option.all_none, Bool.and_true]
    exact Bool.and_comm _ _

theorem slotRows_department (department : BookingRequest → Bool) :
    slotRows d w ⟨none, department⟩ =
      ((operationsSlots d w).filter fun s ↦ department s.bookingRequest).map
        OperationsSlot.toHeldSlot := by
  unfold slotRows operationsSlots
  cases w.opened with
  | none => rfl
  | some o =>
    show List.map _ (List.filter _ _) =
      List.map _ (List.filter _ (List.filterMap _ (List.filter _ _)))
    generalize d.all Tab.slot = slots
    induction slots with
    | nil => rfl
    | cons s slots ih =>
      have hwhere : ∀ filter : ReportFilter, heldSlotWhere d o filter s =
          (!s.isCancelled && decide (s.startAt < o.E) && decide (o.S < s.endAt) &&
            filter.venueId.all (fun id ↦ decide (s.venueId = id)) &&
            (d.row .request s.bookingRequestId).any fun r ↦
              decide (r.status = .approved) && filter.department r) := fun _ ↦ rfl
      cases hr : d.row .request s.bookingRequestId with
      | none =>
        simpa [List.filter_cons, hwhere, hr] using ih
      | some r =>
        cases hp : department r <;>
          by_cases hs : s.isCancelled = false ∧ s.startAt < o.E ∧ o.S < s.endAt ∧
            r.status = .approved <;>
          simp_all [everything]

theorem countsOf_figures (rows : List BookingRequest) : (countsOf rows).total = rows.length ∧
    (countsOf rows).approved = rows.countP fun r ↦ r.status = .approved := by
  induction rows with
  | nil => exact ⟨rfl, rfl⟩
  | cons r rows ih =>
    have hsum : countsOf (r :: rows) = unitOf r + countsOf rows := List.sum_cons
    have hunit : (unitOf r).total = 1 ∧
        (unitOf r).approved = if r.status = .approved then 1 else 0 := by
      unfold unitOf DayCounts.tally
      cases r.status with
      | rejected => cases isAutoRejected (slaSourceRow r) <;> exact ⟨rfl, rfl⟩
      | _ => exact ⟨rfl, rfl⟩
    rw [hsum, List.countP_cons]
    constructor
    · show (unitOf r).total + (countsOf rows).total = _
      rw [hunit.1, ih.1, List.length_cons, add_comm]
    · show (unitOf r).approved + (countsOf rows).approved = _
      rw [hunit.2, ih.2, add_comm]
      simp

/-- A report that exists has got past the calendar. -/
theorem exists_of_mapError_bind {α β : Type} {x : Except CalendarError α}
    {k : α → Except ReportError β} {o : β} (h : (x.mapError .thrown >>= k) = .ok o) :
    ∃ a, x = .ok a ∧ k a = .ok o := by
  cases x with
  | error e => cases h
  | ok a => exact ⟨a, rfl, h⟩

/-- What the overview shows of its populations. -/
theorem getOverview_eq_ok {now : ℤ} {startRaw endRaw : JsString} {filter : ReportFilter}
    {range : ReportRange} {o : Overview} (hrange : parseReportRange startRaw endRaw = .ok range)
    (hw : reportWindowAt range now = .ok w)
    (h : getOverview d now startRaw endRaw filter = .ok o) :
    ∃ held, heldTotals w (slotRows d w filter) = .ok held ∧
      o.requests = countsOf (requestRows d w filter) ∧ o.heldMs = held.1 := by
  unfold getOverview at h
  rw [hrange] at h
  obtain ⟨w', hw', h⟩ := exists_of_mapError_bind h
  obtain rfl := Except.ok.inj (hw'.symm.trans hw)
  obtain ⟨held, hheld, h⟩ := exists_of_mapError_bind h
  obtain ⟨months, -, h⟩ := exists_of_mapError_bind h
  obtain ⟨month, -, h⟩ := exists_of_mapError_bind h
  obtain ⟨weeks, -, h⟩ := exists_of_mapError_bind h
  obtain ⟨week, -, h⟩ := exists_of_mapError_bind h
  obtain rfl := Except.ok.inj h
  exact ⟨held, hheld, (foldStatusCounts_eq _).1, rfl⟩

end Overview

/-! ### Adding up -/

section Sums

variable {κ : Type} [DecidableEq κ] {key : BookingRequest → κ}
  {keys : List κ}

/-- Rows by their keys. -/
theorem sum_countP_keys (rows : List BookingRequest) (hkeys : keys.Nodup)
    (hmem : ∀ r, key r ∈ keys) (p : BookingRequest → Bool) :
    (keys.map fun k ↦ rows.countP fun r ↦ decide (key r = k) && p r).sum = rows.countP p := by
  have hcount : ∀ q : BookingRequest → Bool,
      ((rows.filter q).map fun r ↦ if p r then 1 else 0).sum = rows.countP fun r ↦ q r && p r := by
    intro q
    induction rows with
    | nil => rfl
    | cons r rows ih =>
      rw [List.countP_cons, ← ih, List.filter_cons]
      cases q r <;> simp [add_comm]
  have hfibers := sum_fibers key (fun r ↦ if p r then 1 else 0) hkeys rows
  simp only [hcount] at hfibers
  rw [hfibers]
  exact List.countP_congr fun r _ ↦ by simp [hmem r]

end Sums

section Figures

variable {U : Unicode} {db : OperationsTables} {maySeeReserved : Bool}
  {rows : List BookingRequest} {slots : List OperationsSlot} {a b now : ℤ}
  {byBucket : List (Option ℤ × ℤ)}

/-- What a bucket of the report holds. -/
theorem entry_requestBuckets (h : HeldBy a b now slots (db.bucketOfRow maySeeReserved) byBucket)
    (k : Option ℤ) :
    entry (aggregate (rows.map (db.requestBucket maySeeReserved)) byBucket) k =
      ⟨rows.countP fun r ↦ decide (db.bucketOfRow maySeeReserved r = k),
        rows.countP fun r ↦ decide (db.bucketOfRow maySeeReserved r = k) &&
          decide (r.status = .approved),
        heldWhere a b now slots fun r ↦ decide (db.bucketOfRow maySeeReserved r = k),
        rows.countP fun r ↦ decide (db.bucketOfRow maySeeReserved r = k) &&
          cancelledLate (cancelledSlotsOf db.bookings) db.leadMs r⟩ := by
  rw [entry_aggregate h.nodup, h.entry]
  simp only [List.countP_map]
  rfl

theorem proper_requestBuckets (rows : List BookingRequest)
    (h : HeldBy a b now slots (db.bucketOfRow maySeeReserved) byBucket) :
    Proper (aggregate (rows.map (db.requestBucket maySeeReserved)) byBucket) :=
  proper_aggregate h.nodup fun k ↦ by
    rw [h.entry]
    exact heldWhere_nonneg _

/-- The `where` asks for the department that the function finds. -/
theorem effectiveDepartmentWhere_iff (registration : Cuid → Option ℤ) (id : ℤ)
    (r : BookingRequest) : effectiveDepartmentWhere registration id r = true ↔
      effectiveDepartmentIdOf registration r = some id := by
  unfold effectiveDepartmentIdOf effectiveDepartmentWhere
  cases hreg : r.lineUserId.bind registration with
  | none => simp
  | some departmentId =>
    have hline : r.lineUserId ≠ none := fun hnone ↦ by
      rw [hnone] at hreg
      cases hreg
    simp [hline]

/-- The bucket of a row is the department that its `where` asks for, if that is shown. -/
theorem bucketOfRow_eq_some (hids : (db.departments.map DepartmentSourceRow.id).Nodup)
    {d : DepartmentSourceRow} (hd : d ∈ db.departments) (hshown : d.Shown maySeeReserved)
    (r : BookingRequest) : db.bucketOfRow maySeeReserved r = some d.id ↔
      effectiveDepartmentWhere db.registration d.id r = true := by
  unfold OperationsTables.bucketOfRow
  rw [departmentBucketOf_eq_some hids, effectiveDepartmentWhere_iff]
  exact and_iff_left ⟨d, hd, rfl, hshown⟩

/-- The sums over the rows of the table by department. -/
theorem sum_departments (U : Unicode) (rows : List BookingRequest)
    (hids : (db.departments.map DepartmentSourceRow.id).Nodup)
    (h : HeldBy a b now slots (db.bucketOfRow maySeeReserved) byBucket) :
    let table := foldDepartments U db.departments (rows.map (db.requestBucket maySeeReserved))
      byBucket maySeeReserved
    (table.map DepartmentRow.requests).sum = rows.length ∧
      (table.map DepartmentRow.approved).sum = rows.countP (fun r ↦ r.status = .approved) ∧
      (table.map DepartmentRow.heldMs).sum = heldWhere a b now slots (fun _ ↦ true) ∧
      (table.map DepartmentRow.lateCancellations).sum =
        rows.countP (cancelledLate (cancelledSlotsOf db.bookings) db.leadMs) := by
  have hagg := proper_requestBuckets rows h
  have hkeys := nodup_tableKeys maySeeReserved hids
  have hmem : ∀ r, db.bucketOfRow maySeeReserved r ∈ tableKeys db.departments maySeeReserved :=
    fun r ↦ mem_tableKeys hids
  have hcount := sum_countP_keys rows hkeys hmem
  refine ⟨?_, ?_, ?_, ?_⟩
  · rw [sum_foldDepartments (g := DepartmentAgg.requests) (fun _ _ _ _ _ ↦ rfl) rfl hagg]
    simp only [entry_requestBuckets h]
    simpa using hcount fun _ ↦ true
  · rw [sum_foldDepartments (g := DepartmentAgg.approved) (fun _ _ _ _ _ ↦ rfl) rfl hagg]
    simp only [entry_requestBuckets h]
    exact hcount _
  · rw [sum_foldDepartments (g := DepartmentAgg.heldMs) (fun _ _ _ _ _ ↦ rfl) rfl hagg]
    simp only [entry_requestBuckets h]
    exact sum_heldWhere hkeys hmem
  · rw [sum_foldDepartments (g := DepartmentAgg.lateCancellations) (fun _ _ _ _ _ ↦ rfl) rfl hagg]
    simp only [entry_requestBuckets h]
    exact hcount _

/-- The sums over the rows of the table by purpose. -/
theorem sum_purposes (rows : List BookingRequest)
    {categoryOf : BookingRequest → ReportPurposeCategory}
    {byCategory : List (ReportPurposeCategory × ℤ)}
    (h : HeldBy a b now slots categoryOf byCategory) :
    ((foldPurposes (rows.map categoryOf) byCategory).map PurposeRow.requests).sum = rows.length ∧
      ((foldPurposes (rows.map categoryOf) byCategory).map PurposeRow.heldMs).sum =
        heldWhere a b now slots fun _ ↦ true := by
  have hperm := perm_foldPurposes (rows.map categoryOf) byCategory
  have hrequests := (hperm.map fun t ↦ t.2.1).sum_eq
  have hheld := (hperm.map fun t ↦ t.2.2).sum_eq
  simp only [List.map_map, Function.comp_def] at hrequests hheld
  constructor
  · refine hrequests.trans ?_
    have hcount := sum_countP_keys rows nodup_allCategories
      (fun r ↦ mem_allCategories (categoryOf r)) fun _ ↦ true
    simp only [Bool.and_true, List.countP_true] at hcount
    rw [← hcount]
    refine congrArg List.sum (List.map_congr_left fun c _ ↦ ?_)
    rw [List.count_eq_countP, List.countP_map]
    exact List.countP_congr fun r _ ↦ by simp
  · refine hheld.trans ?_
    simp only [h.entry]
    exact sum_heldWhere nodup_allCategories fun r ↦ mem_allCategories (categoryOf r)

/-- A row is of a department that may be seen. -/
theorem exists_department_of_mem {agg : List (Option ℤ × DepartmentAgg)} {row : DepartmentRow}
    (h : (∃ d ∈ db.departments, d.Shown maySeeReserved ∧ shownRow agg d = some row) ∨
      row ∈ unassignedRow agg) {id : ℤ} (hid : row.departmentId = some id) :
    ∃ d ∈ db.departments, d.id = id ∧ d.Shown maySeeReserved ∧ row.name = some d.name ∧
      row.isDeleted = d.deletedAt.isSome := by
  rcases h with ⟨d, hd, hshown, hrow⟩ | hrow
  · rw [departmentId_of_shownRow hrow] at hid
    obtain rfl := Option.some.inj hid
    refine ⟨d, hd, rfl, hshown, ?_⟩
    rw [eq_of_shownRow hrow]
    exact ⟨rfl, rfl⟩
  · rw [departmentId_of_unassignedRow hrow] at hid
    cases hid

/-- A request that was cancelled late is counted in a row that bears the name in the registry. -/
theorem exists_row_of_cancelledLate (hids : (db.departments.map DepartmentSourceRow.id).Nodup)
    (h : HeldBy a b now slots (db.bucketOfRow maySeeReserved) byBucket) {r : BookingRequest}
    (hr : r ∈ rows) (hlate : cancelledLate (cancelledSlotsOf db.bookings) db.leadMs r = true) :
    ∃ row ∈ foldDepartments U db.departments (rows.map (db.requestBucket maySeeReserved)) byBucket
        maySeeReserved,
      row.name = ((db.bucketOfRow maySeeReserved r).bind fun id ↦
        (departmentsById db.departments).lookup id).map DepartmentSourceRow.name ∧
      row.isDeleted = ((db.bucketOfRow maySeeReserved r).bind fun id ↦
        (departmentsById db.departments).lookup id).any (fun d ↦ d.deletedAt.isSome) ∧
      0 < row.lateCancellations := by
  have hagg := proper_requestBuckets rows h
  have hpos : 0 < (entry (aggregate (rows.map (db.requestBucket maySeeReserved)) byBucket)
      (db.bucketOfRow maySeeReserved r)).lateCancellations := by
    rw [entry_requestBuckets h]
    exact List.countP_pos_iff.2 ⟨r, hr, by simp [hlate]⟩
  have hne : entry (aggregate (rows.map (db.requestBucket maySeeReserved)) byBucket)
      (db.bucketOfRow maySeeReserved r) ≠ 0 := fun hzero ↦ by
    rw [hzero] at hpos
    exact lt_irrefl _ hpos
  cases hb : db.bucketOfRow maySeeReserved r with
  | none =>
    rw [hb] at hpos hne
    exact ⟨_, (mem_foldDepartments hagg).2 (.inr (mem_unassignedRow hne)), rfl, rfl, hpos⟩
  | some id =>
    obtain ⟨-, d, hd, rfl, hshown⟩ := (departmentBucketOf_eq_some hids).1 hb
    rw [hb] at hpos hne
    refine ⟨_, (mem_foldDepartments hagg).2 (.inl ⟨d, hd, hshown, shownRow_of_ne_zero hne⟩), ?_, ?_,
      hpos⟩ <;> rw [Option.bind_some, (lookup_departmentsById hids).2 ⟨hd, rfl⟩] <;> rfl

end Figures

/-! ### The report -/

/-- A report that agrees with itself and with the overview. -/
structure Agrees (db : OperationsTables) (maySeeReserved : Bool) (now : ℤ)
    (startRaw endRaw : JsString) (o : Operations) : Prop where
  requests : (o.departments.map DepartmentRow.requests).sum = o.requests.total ∧
    (o.purposes.map PurposeRow.requests).sum = o.requests.total
  approved : (o.departments.map DepartmentRow.approved).sum = o.requests.approved
  held : (o.departments.map DepartmentRow.heldMs).sum = o.heldMs ∧
    (o.purposes.map PurposeRow.heldMs).sum = o.heldMs
  late : (o.departments.map DepartmentRow.lateCancellations).sum = o.registry.length ∧
    o.discipline.lateCancellations = o.registry.length
  /-- What is of no department comes last, and no department has two rows. -/
  departments : o.departments.Pairwise fun r r' ↦ r.departmentId ≠ none ∧
    r.departmentId ≠ r'.departmentId ∧ (r'.departmentId = none ∨ r.Before r')
  purposes : o.purposes.Pairwise PurposeRow.Before ∧
    (o.purposes.map PurposeRow.category).Perm allCategories
  /-- A row is of a department that may be seen. -/
  seen : ∀ row ∈ o.departments, ∀ id, row.departmentId = some id →
    ∃ d ∈ db.departments, d.id = id ∧ d.Shown maySeeReserved ∧ row.name = some d.name ∧
      row.isDeleted = d.deletedAt.isSome
  /-- Every department that may be seen and is not deleted has a row. -/
  live : ∀ d ∈ db.departments, d.Shown maySeeReserved → d.deletedAt = none →
    ∃ row ∈ o.departments, row.departmentId = some d.id
  /-- The department of a late cancellation is in the table. -/
  registry : ∀ e ∈ o.registry, ∃ row ∈ o.departments, row.name = e.departmentName ∧
    row.isDeleted = e.departmentIsDeleted ∧ 0 < row.lateCancellations
  overview : ∀ v, getOverview db.bookings now startRaw endRaw everything = .ok v →
    v.requests = o.requests ∧ v.heldMs = o.heldMs
  /-- The row of a department is the overview of the department. -/
  department : ∀ row ∈ o.departments, ∀ id, row.departmentId = some id →
    ∀ v, getOverview db.bookings now startRaw endRaw
        ⟨none, effectiveDepartmentWhere db.registration id⟩ = .ok v →
      v.requests.total = row.requests ∧ v.requests.approved = row.approved ∧
        v.heldMs = row.heldMs

section Report

variable {U : Unicode} {db : OperationsTables} {actor : Directory.Actor} {now a b : ℤ}
  {startRaw endRaw : JsString} {range : ReportRange}

/-- The report of a window, from what its slots hold. -/
noncomputable def reportOf (U : Unicode) (db : OperationsTables) (maySeeReserved : Bool)
    (a b now heldMs : ℤ) (byBucket : List (Option ℤ × ℤ))
    (byCategory : List (ReportPurposeCategory × ℤ)) : Operations :=
  let w := windowOf a b now
  let rows := requestRows db.bookings w everything
  { window := w
    requests := (foldStatusCounts rows).1
    heldMs := heldMs
    discipline := foldDiscipline rows (cancelledSlotsOf db.bookings) db.leadMs
    departments := foldDepartments U db.departments (rows.map (db.requestBucket maySeeReserved))
      byBucket maySeeReserved
    purposes := foldPurposes (rows.map fun r ↦ purposeCategoryOf U r.purpose) byCategory
    sla := slaOf (rows.map slaSourceRow)
    registry := (buildRegistry U rows (cancelledSlotsOf db.bookings) db.leadMs
      (db.bucketOfRow maySeeReserved)).map
        (registryRowToDto db.venue (departmentsById db.departments)) }

/-- The slots of the report are those of the overview. -/
theorem slotRows_everything (d : View) (w : ReportWindow) :
    (operationsSlots d w).map OperationsSlot.toHeldSlot = slotRows d w everything := by
  have hall := slotRows_department (d := d) (w := w) fun _ ↦ true
  rw [List.filter_eq_self.2 fun _ _ ↦ rfl] at hall
  exact hall.symm

theorem operationsSlots_of_closed (d : View) {w : ReportWindow} (h : w.opened = none) :
    operationsSlots d w = [] := by
  unfold operationsSlots
  rw [h]

/-- What the slots of a department hold is the held time of its overview. -/
theorem heldTotals_department (h : Showable a b now) {d : View}
    (hslots : ∀ s ∈ operationsSlots d (windowOf a b now), Plausible s.toSpan)
    (department : BookingRequest → Bool) :
    ∃ held, heldTotals (windowOf a b now)
        (slotRows d (windowOf a b now) ⟨none, department⟩) = .ok held ∧
      held.1 = heldWhere a b now (operationsSlots d (windowOf a b now)) department := by
  have hplausible : ∀ s ∈ slotRows d (windowOf a b now) ⟨none, department⟩,
      Plausible s.toSpan := fun s hs ↦ by
    rw [slotRows_department] at hs
    obtain ⟨s', hs', rfl⟩ := List.mem_map.1 hs
    exact hslots s' (List.mem_of_mem_filter hs')
  obtain ⟨held, hheld, htotal⟩ := heldTotals_windowOf h hplausible fun hnone ↦ by
    rw [slotRows_department, operationsSlots_of_closed d hnone]
    rfl
  refine ⟨held, hheld, htotal.trans ?_⟩
  rw [slotRows_department, heldBy, heldWhere, List.map_map]
  rfl

/-- The overview of a department. -/
theorem overview_department (h : Showable a b now)
    (hrange : parseReportRange startRaw endRaw = .ok ⟨dateString a, dateString b, b - a + 1⟩)
    {d : View} (hslots : ∀ s ∈ operationsSlots d (windowOf a b now), Plausible s.toSpan)
    {department : BookingRequest → Bool} {v : Overview}
    (hv : getOverview d now startRaw endRaw ⟨none, department⟩ = .ok v) :
    v.requests = countsOf ((requestRows d (windowOf a b now) everything).filter department) ∧
      v.heldMs = heldWhere a b now (operationsSlots d (windowOf a b now)) department := by
  obtain ⟨held, hheld, hrequests, hms⟩ :=
    getOverview_eq_ok hrange (reportWindowAt_dateString h) hv
  obtain ⟨held', hheld', htotal⟩ := heldTotals_department h hslots department
  obtain rfl := Except.ok.inj (hheld.symm.trans hheld')
  exact ⟨requestRows_department department ▸ hrequests, hms.trans htotal⟩

/-- There is a report. -/
theorem getOperations_windowOf (U : Unicode) (actor : Directory.Actor) (h : Showable a b now)
    (hrange : parseReportRange startRaw endRaw = .ok ⟨dateString a, dateString b, b - a + 1⟩)
    (hslots : ∀ s ∈ operationsSlots db.bookings (windowOf a b now), Plausible s.toSpan) :
    ∃ byBucket byCategory,
      HeldBy a b now (operationsSlots db.bookings (windowOf a b now))
        (db.bucketOfRow (Directory.mayUseSystemReservedOptions actor)) byBucket ∧
      HeldBy a b now (operationsSlots db.bookings (windowOf a b now))
        (fun r ↦ purposeCategoryOf U r.purpose) byCategory ∧
      getOperations U db actor now startRaw endRaw =
        .ok (reportOf U db (Directory.mayUseSystemReservedOptions actor) a b now
          (heldWhere a b now (operationsSlots db.bookings (windowOf a b now)) fun _ ↦ true)
          byBucket byCategory) := by
  obtain ⟨byBucket, byCategory, hfold, hbucket, hcategory⟩ := foldHeldBy_windowOf h
    (db.bucketOfRow (Directory.mayUseSystemReservedOptions actor))
    (fun r ↦ purposeCategoryOf U r.purpose) hslots
    (operationsSlots_of_closed db.bookings)
  obtain ⟨held, hheld, htotal⟩ := heldTotals_department h hslots fun _ ↦ true
  refine ⟨byBucket, byCategory, hbucket, hcategory, ?_⟩
  unfold getOperations
  rw [hrange]
  show ((reportWindowAt _ now).mapError _ >>= _) = _
  rw [reportWindowAt_dateString h]
  show ((heldTotals _ _).mapError _ >>= _) = _
  rw [slotRows_everything]
  show ((heldTotals _ (slotRows _ _ ⟨none, fun _ ↦ true⟩)).mapError _ >>= _) = _
  rw [hheld]
  show ((foldHeldBy _ _ _ _).mapError _ >>= _) = _
  rw [hfold, ← htotal]
  rfl

/-- The report agrees with itself. -/
theorem agrees_reportOf (h : Showable a b now)
    (hrange : parseReportRange startRaw endRaw = .ok ⟨dateString a, dateString b, b - a + 1⟩)
    (hslots : ∀ s ∈ operationsSlots db.bookings (windowOf a b now), Plausible s.toSpan)
    (hids : (db.departments.map DepartmentSourceRow.id).Nodup) {maySeeReserved : Bool}
    {byBucket : List (Option ℤ × ℤ)} {byCategory : List (ReportPurposeCategory × ℤ)}
    (hbucket : HeldBy a b now (operationsSlots db.bookings (windowOf a b now))
      (db.bucketOfRow maySeeReserved) byBucket)
    (hcategory : HeldBy a b now (operationsSlots db.bookings (windowOf a b now))
      (fun r ↦ purposeCategoryOf U r.purpose) byCategory) :
    Agrees db maySeeReserved now startRaw endRaw (reportOf U db maySeeReserved a b now
      (heldWhere a b now (operationsSlots db.bookings (windowOf a b now)) fun _ ↦ true)
      byBucket byCategory) := by
  -- The sums of the two tables and of the counters, over the same rows.
  have hagg := proper_requestBuckets (requestRows db.bookings (windowOf a b now) everything) hbucket
  obtain ⟨hrequests, happroved, hheld, hlate⟩ := sum_departments U
    (requestRows db.bookings (windowOf a b now) everything) hids hbucket
  obtain ⟨hpurposes, hpurposeHeld⟩ := sum_purposes
    (requestRows db.bookings (windowOf a b now) everything) hcategory
  obtain ⟨htotal, hgranted⟩ :=
    countsOf_figures (requestRows db.bookings (windowOf a b now) everything)
  rw [← (foldStatusCounts_eq _).1] at htotal hgranted
  have hregistry := length_buildRegistry U
    (requestRows db.bookings (windowOf a b now) everything) (cancelledSlotsOf db.bookings)
    db.leadMs (db.bucketOfRow maySeeReserved)
  rw [← List.length_map (registryRowToDto db.venue (departmentsById db.departments))] at hregistry
  exact {
    requests := ⟨hrequests.trans htotal.symm, hpurposes.trans htotal.symm⟩
    approved := happroved.trans hgranted.symm
    held := ⟨hheld, hpurposeHeld⟩
    late := ⟨hlate.trans hregistry.symm,
      (lateCancellations_foldDiscipline _).trans hregistry.symm⟩
    departments := sorted_foldDepartments hids hagg
    purposes := ⟨sorted_foldPurposes, category_foldPurposes⟩
    seen := fun row hrow id hid ↦ exists_department_of_mem ((mem_foldDepartments hagg).1 hrow) hid
    live := fun d hd hshown hlive ↦ ⟨_, (mem_foldDepartments hagg).2
      (.inl ⟨d, hd, hshown, shownRow_live hlive⟩), rfl⟩
    registry := fun e he ↦ by
      obtain ⟨x, hx, rfl⟩ := List.mem_map.1 he
      obtain ⟨r, hr, hlate, hbucketOf⟩ := mem_buildRegistry hx
      obtain ⟨row, hrow, hname, hdeleted, hpos⟩ :=
        exists_row_of_cancelledLate (U := U) hids hbucket hr hlate
      refine ⟨row, hrow, ?_, ?_, hpos⟩
      · rw [hname, ← hbucketOf]
        rfl
      · rw [hdeleted, ← hbucketOf]
        rfl
    overview := fun v hv ↦ by
      obtain ⟨hcounts, hms⟩ := overview_department h hrange hslots hv
      rw [List.filter_eq_self.2 fun _ _ ↦ rfl] at hcounts
      exact ⟨hcounts.trans (foldStatusCounts_eq _).1.symm, hms⟩
    department := fun row hrow id hid v hv ↦ by
      obtain ⟨d, hd, rfl, hshown, -⟩ :=
        exists_department_of_mem ((mem_foldDepartments hagg).1 hrow) hid
      obtain ⟨hcounts, hms⟩ := overview_department h hrange hslots hv
      obtain ⟨htotal, hgranted⟩ := countsOf_figures ((requestRows db.bookings (windowOf a b now)
        everything).filter (effectiveDepartmentWhere db.registration d.id))
      have hfigures := figures_of_mem hagg hrow
      rw [hid, entry_requestBuckets hbucket] at hfigures
      obtain ⟨hr, ha, hm, -⟩ := DepartmentAgg.mk.inj hfigures
      -- A row's bucket is the department exactly where the overview of it counts the row.
      have hwhere : (fun r ↦ decide (db.bucketOfRow maySeeReserved r = some d.id)) =
          effectiveDepartmentWhere db.registration d.id := by
        funext r
        rw [Bool.eq_iff_iff, decide_eq_true_iff]
        exact bucketOfRow_eq_some hids hd hshown r
      refine ⟨?_, ?_, ?_⟩
      · rw [hcounts, htotal, hr, hwhere, List.countP_eq_length_filter]
      · rw [hcounts, hgranted, ha, List.countP_filter]
        refine List.countP_congr fun r _ ↦ ?_
        rw [← hwhere, Bool.and_comm]
      · rw [hms, hm, hwhere] }

/-- **The operations report agrees with itself.** An accepted range of the years 1001 to 9998 has a
report, unless a slot of it touches more days than `MAX_SPAN_DAYS`, which makes the report throw.
The tables by department and by purpose come to its totals, the late cancellations are those of the
registry, and the row of a department is the overview of the department. -/
theorem operations_agree (hrange : parseReportRange startRaw endRaw = .ok range)
    (hstart : ChartDate startRaw) (hend : ChartDate endRaw) (htoday : InYears (bangkokDay now))
    (hyesterday : InYears (bangkokDay now - 1))
    (hslots : ∀ s : BookingSlot, s ∈ db.bookings.all .slot → InReportYears ⟨s.startAt, s.endAt⟩)
    (hids : (db.departments.map DepartmentSourceRow.id).Nodup) :
    ∃ w, reportWindowAt range now = .ok w ∧
      ((∃ slot ∈ slotRows db.bookings w everything, Oversized slot.toSpan) →
        getOperations U db actor now startRaw endRaw = .error (.thrown .slotTooLong)) ∧
      ((∀ slot ∈ slotRows db.bookings w everything, ¬ Oversized slot.toSpan) →
        ∃ o, getOperations U db actor now startRaw endRaw = .ok o ∧
          Agrees db (Directory.mayUseSystemReservedOptions actor) now startRaw endRaw o) := by
  obtain ⟨a, b, hdays, rfl, rfl, rfl⟩ := chartDays_of_parse hrange hstart hend
  have h : Showable a b now := ⟨hdays, htoday, hyesterday⟩
  have hyears : ∀ slot ∈ slotRows db.bookings (windowOf a b now) everything,
      InReportYears slot.toSpan := of_mem_slotRows hslots
  refine ⟨windowOf a b now, reportWindowAt_dateString h, fun hsize ↦ ?_, fun hsize ↦ ?_⟩
  · have hthrows := heldTotals_of_oversized h hyears
      (slotRows_of_closed db.bookings everything) hsize
    unfold getOperations
    rw [hrange]
    show ((reportWindowAt _ now).mapError _ >>= _) = _
    rw [reportWindowAt_dateString h]
    show ((heldTotals _ _).mapError _ >>= _) = _
    rw [slotRows_everything, hthrows]
    rfl
  · have hplausible : ∀ s ∈ operationsSlots db.bookings (windowOf a b now), Plausible s.toSpan := by
      intro s hs
      have hmem : s.toHeldSlot ∈ slotRows db.bookings (windowOf a b now) everything :=
        slotRows_everything db.bookings (windowOf a b now) ▸ List.mem_map_of_mem hs
      exact (hyears _ hmem).ordinary (hsize _ hmem)
    obtain ⟨byBucket, byCategory, hbucket, hcategory, ho⟩ :=
      getOperations_windowOf U actor h hrange hplausible
    exact ⟨_, ho, agrees_reportOf h hrange hplausible hids hbucket hcategory⟩

end Report

namespace Sample

/-- The strings as they are. -/
def unicode : Unicode := ⟨id, id, fun a b ↦ if a < b then -1 else if b < a then 1 else 0,
  fun a b ↦ if a < b then -1 else if b < a then 1 else 0⟩

/-- Two departments, one of which is reserved. -/
def tables : OperationsTables where
  bookings := (after EasyBook.Sample.directRun).store.committed
  registration _ := some 1
  departments := [⟨1, lit "A", none, false⟩, ⟨2, lit "B", none, true⟩]
  venue _ := none
  cancelLeadMinutes := none

/-- Somebody who may not see it. -/
def admin : Directory.Actor := ⟨0, .admin, none⟩

end Sample

/-- Six weeks of 1970 in two departments. -/
theorem operations_agree_direct : ∃ o,
    getOperations Sample.unicode Sample.tables Sample.admin 950400000 (lit "1970-01-01")
        (lit "1970-02-10") = .ok o ∧
      (o.departments.map DepartmentRow.requests).sum = o.requests.total ∧
      (o.departments.map DepartmentRow.heldMs).sum = o.heldMs := by
  have hrange : parseReportRange (lit "1970-01-01") (lit "1970-02-10") =
      .ok ⟨lit "1970-01-01", lit "1970-02-10", 41⟩ := by
    have hstart : parseReportDate (lit "1970-01-01") = some (lit "1970-01-01") := by decide +kernel
    have hend : parseReportDate (lit "1970-02-10") = some (lit "1970-02-10") := by decide +kernel
    have hdays : inclusiveDays (lit "1970-01-01") (lit "1970-02-10") = .ok 41 := by decide +kernel
    unfold parseReportRange
    rw [hstart, hend]
    dsimp only
    rw [hdays, if_neg (by decide +kernel)]
    rfl
  obtain ⟨w, hw, -, hreport⟩ := @operations_agree Sample.unicode Sample.tables Sample.admin
    950400000 _ _ _ hrange (by decide +kernel) (by decide +kernel)
    (by unfold InYears; decide +kernel) (by unfold InYears; decide +kernel) (by decide +kernel)
    (by decide)
  obtain ⟨o, ho, hagrees⟩ := hreport
    (of_mem_slotRows (P := (¬ Oversized ·)) (by decide +kernel))
  exact ⟨o, ho, hagrees.requests.1, hagrees.held.1⟩

end EasyBook.Reports

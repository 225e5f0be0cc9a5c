import EasyBook.Bookings.Approvals
import EasyBook.Bookings.Decisions
import EasyBook.Reports.Calendar

/-!
# The approval SLA

`slaOf` of `report-operations.ts`: every request is either decided, and then measured, or counted
among the excluded. That none falls through rests on the booking system: an approved request has
its `approvedAt`. The quotients of the report are exact here.
-/

namespace EasyBook.Reports

/-- `SlaSourceRow`. -/
structure SlaSourceRow where
  createdById : Option Cuid
  approvedAt : Option ℤ
  status : BookingStatus
  rejectReason : Option JsString
  createdAt : ℤ
  updatedAt : ℤ
  deriving DecidableEq

/-- What the report selects of a request. -/
def slaSourceRow (r : BookingRequest) : SlaSourceRow where
  createdById := r.createdById
  approvedAt := r.approvedAt
  status := r.status
  rejectReason := r.rejectReason
  createdAt := r.createdAt
  updatedAt := r.updatedAt

/-- `isAutoRejected`. -/
def isAutoRejected (r : SlaSourceRow) : Bool :=
  decide (r.status = .rejected) && decide (r.rejectReason = some autoRejectedReason)

/-- `SLA_HOURS`. -/
def slaHours : ℕ := 24

/-- `ReportSlaBucket`. -/
inductive ReportSlaBucket where
  | under2h
  | from2hTo12h
  | from12hTo24h
  | over24h
  deriving DecidableEq

/-- `ReportSlaBucketRowDto`. -/
structure ReportSlaBucketRowDto where
  bucket : ReportSlaBucket
  count : ℕ
  percent : ℚ

/-- The requests that were not ruled on by a person. -/
structure SlaExcluded where
  autoRejected : ℕ
  withdrawn : ℕ
  staffCreated : ℕ
  expired : ℕ
  pending : ℕ

/-- All of them. -/
def SlaExcluded.total (e : SlaExcluded) : ℕ :=
  e.autoRejected + e.withdrawn + e.staffCreated + e.expired + e.pending

/-- `ReportSlaDto`. -/
structure ReportSlaDto where
  slaHours : ℕ
  decided : ℕ
  decidedApproved : ℕ
  decidedRejected : ℕ
  averageHours : Option ℚ
  medianHours : Option ℚ
  withinSla : ℕ
  withinSlaPercent : Option ℚ
  buckets : List ReportSlaBucketRowDto
  excluded : SlaExcluded

/-! ### The loop over the rows -/

/-- The counters of the loop, and `turnaroundsMs`. -/
structure SlaCounters where
  decidedApproved : ℕ
  decidedRejected : ℕ
  autoRejected : ℕ
  withdrawn : ℕ
  staffCreated : ℕ
  expired : ℕ
  pending : ℕ
  turnaroundsMs : List ℤ

/-- One row. -/
def slaStep (acc : SlaCounters) (row : SlaSourceRow) : SlaCounters :=
  -- The order of the tests is the source's: a row that staff created is counted nowhere else.
  if row.createdById ≠ none then { acc with staffCreated := acc.staffCreated + 1 }
  else match row.approvedAt with
  | some approvedAt =>
    { acc with
      decidedApproved := acc.decidedApproved + 1
      turnaroundsMs := acc.turnaroundsMs ++ [max 0 (approvedAt - row.createdAt)] }
  | none =>
    if row.status = .rejected ∧ isAutoRejected row = true then
      { acc with autoRejected := acc.autoRejected + 1 }
    else if row.status = .rejected then
      { acc with
        decidedRejected := acc.decidedRejected + 1
        turnaroundsMs := acc.turnaroundsMs ++ [max 0 (row.updatedAt - row.createdAt)] }
    else if row.status = .cancelled then { acc with withdrawn := acc.withdrawn + 1 }
    else if row.status = .expired then { acc with expired := acc.expired + 1 }
    else if row.status = .pending then { acc with pending := acc.pending + 1 }
    -- APPROVED without `approvedAt`: no counter moves.
    else acc

/-- The loop. -/
def slaCounters (rows : List SlaSourceRow) : SlaCounters :=
  rows.foldl slaStep ⟨0, 0, 0, 0, 0, 0, 0, []⟩

/-- The tests of `bucketDefs`, with `SLA_BUCKET_BOUNDS_HOURS`. -/
def bucketTest : ReportSlaBucket → ℤ → Bool
  | .under2h, t => decide (t < 2 * hourMs)
  | .from2hTo12h, t => decide (2 * hourMs ≤ t) && decide (t < 12 * hourMs)
  | .from12hTo24h, t => decide (12 * hourMs ≤ t) && decide (t ≤ 24 * hourMs)
  | .over24h, t => decide (24 * hourMs < t)

/-- `bucketDefs`. -/
def slaBuckets : List ReportSlaBucket := [.under2h, .from2hTo12h, .from12hTo24h, .over24h]

/-- `slaOf`. -/
def slaOf (rows : List SlaSourceRow) : ReportSlaDto :=
  let acc := slaCounters rows
  let turnaroundsMs := acc.turnaroundsMs
  let n := turnaroundsMs.length
  let sortedMs := turnaroundsMs.insertionSort (· ≤ ·)
  let withinSla := turnaroundsMs.countP fun t ↦ t ≤ slaHours * hourMs
  { slaHours
    decided := n
    decidedApproved := acc.decidedApproved
    decidedRejected := acc.decidedRejected
    averageHours := if 0 < n then some ((turnaroundsMs.sum : ℚ) / n / hourMs) else none
    medianHours := if 0 < n then sortedMs[(n - 1) / 2]?.map fun t : ℤ ↦ (t : ℚ) / hourMs else none
    withinSla
    withinSlaPercent := if 0 < n then some ((withinSla : ℚ) / n * 100) else none
    buckets := slaBuckets.map fun bucket ↦
      let count := turnaroundsMs.countP (bucketTest bucket)
      { bucket, count, percent := if 0 < n then (count : ℚ) / n * 100 else 0 }
    excluded := ⟨acc.autoRejected, acc.withdrawn, acc.staffCreated, acc.expired, acc.pending⟩ }

/-! ### Where a row goes -/

/-- What the loop does with a row. -/
inductive SlaRoute where
  | staffCreated
  | decidedApproved
  | autoRejected
  | decidedRejected
  | withdrawn
  | expired
  | pending
  /-- No branch takes the row. -/
  | dropped
  deriving DecidableEq

/-- The branch that takes a row. -/
def slaRoute (row : SlaSourceRow) : SlaRoute :=
  if row.createdById ≠ none then .staffCreated
  else if row.approvedAt ≠ none then .decidedApproved
  else match row.status with
  | .rejected => if isAutoRejected row = true then .autoRejected else .decidedRejected
  | .cancelled => .withdrawn
  | .expired => .expired
  | .pending => .pending
  | .approved => .dropped

/-- What is measured of a row. -/
def turnaround (row : SlaSourceRow) : Option ℤ :=
  match slaRoute row with
  | .decidedApproved => row.approvedAt.map fun t ↦ max 0 (t - row.createdAt)
  | .decidedRejected => some (max 0 (row.updatedAt - row.createdAt))
  | _ => none

/-- One more of the rows that take a branch. -/
def tally (route x : SlaRoute) (n : ℕ) : ℕ := if route = x then n + 1 else n

/-- A row is counted by its branch, and measured if it was decided. -/
theorem slaStep_eq (acc : SlaCounters) (row : SlaSourceRow) :
    slaStep acc row =
      { decidedApproved := tally (slaRoute row) .decidedApproved acc.decidedApproved
        decidedRejected := tally (slaRoute row) .decidedRejected acc.decidedRejected
        autoRejected := tally (slaRoute row) .autoRejected acc.autoRejected
        withdrawn := tally (slaRoute row) .withdrawn acc.withdrawn
        staffCreated := tally (slaRoute row) .staffCreated acc.staffCreated
        expired := tally (slaRoute row) .expired acc.expired
        pending := tally (slaRoute row) .pending acc.pending
        turnaroundsMs := acc.turnaroundsMs ++ (turnaround row).toList } := by
  unfold slaStep turnaround
  by_cases hstaff : row.createdById ≠ none
  · have hroute : slaRoute row = .staffCreated := if_pos hstaff
    simp [hroute, hstaff, tally]
  · cases happroved : row.approvedAt with
    | some t =>
      have hroute : slaRoute row = .decidedApproved := by
        unfold slaRoute
        rw [if_neg hstaff, if_pos (by rw [happroved]; simp)]
      simp [hroute, hstaff, tally]
    | none =>
      have hroute : slaRoute row = match row.status with
          | .rejected => if isAutoRejected row = true then .autoRejected else .decidedRejected
          | .cancelled => .withdrawn
          | .expired => .expired
          | .pending => .pending
          | .approved => .dropped := by
        unfold slaRoute
        rw [if_neg hstaff, if_neg (by rw [happroved]; simp)]
      rw [hroute, if_neg hstaff]
      cases hstatus : row.status with
      | rejected => by_cases hauto : isAutoRejected row = true <;> simp [hauto, tally]
      | cancelled => simp [tally]
      | expired => simp [tally]
      | pending => simp [tally]
      | approved => simp [tally]

/-- The rows that take a branch. -/
def countRoute (x : SlaRoute) (rows : List SlaSourceRow) : ℕ :=
  rows.countP fun row ↦ slaRoute row = x

/-- The loop counts. -/
theorem slaCounters_eq (rows : List SlaSourceRow) :
    slaCounters rows =
      { decidedApproved := countRoute .decidedApproved rows
        decidedRejected := countRoute .decidedRejected rows
        autoRejected := countRoute .autoRejected rows
        withdrawn := countRoute .withdrawn rows
        staffCreated := countRoute .staffCreated rows
        expired := countRoute .expired rows
        pending := countRoute .pending rows
        turnaroundsMs := rows.filterMap turnaround } := by
  have key : ∀ acc, rows.foldl slaStep acc =
      { decidedApproved := acc.decidedApproved + countRoute .decidedApproved rows
        decidedRejected := acc.decidedRejected + countRoute .decidedRejected rows
        autoRejected := acc.autoRejected + countRoute .autoRejected rows
        withdrawn := acc.withdrawn + countRoute .withdrawn rows
        staffCreated := acc.staffCreated + countRoute .staffCreated rows
        expired := acc.expired + countRoute .expired rows
        pending := acc.pending + countRoute .pending rows
        turnaroundsMs := acc.turnaroundsMs ++ rows.filterMap turnaround } := by
    induction rows with
    | nil => simp [countRoute]
    | cons row rows ih =>
      have htally : ∀ x n, tally (slaRoute row) x n + countRoute x rows =
          n + countRoute x (row :: rows) := by
        intro x n
        unfold tally countRoute
        rw [List.countP_cons]
        by_cases hx : slaRoute row = x
        · simp [hx]
          omega
        · simp [hx]
      intro acc
      rw [List.foldl_cons, ih, slaStep_eq]
      simp only [htally, List.append_assoc]
      congr 2
      cases hrow : turnaround row with
      | none => rw [List.filterMap_cons_none hrow]; rfl
      | some t => rw [List.filterMap_cons_some hrow]; rfl
  unfold slaCounters
  rw [key]
  simp

/-- Every row takes a branch. -/
theorem sum_countRoute (rows : List SlaSourceRow) :
    countRoute .decidedApproved rows + countRoute .decidedRejected rows +
      (countRoute .autoRejected rows + countRoute .withdrawn rows +
        countRoute .staffCreated rows + countRoute .expired rows + countRoute .pending rows) +
      countRoute .dropped rows = rows.length := by
  unfold countRoute
  induction rows with
  | nil => rfl
  | cons row rows ih =>
    simp only [List.countP_cons, List.length_cons]
    cases slaRoute row <;> simp <;> omega

/-- A row falls through if it is approved and has no time of it. -/
theorem slaRoute_eq_dropped {row : SlaSourceRow} (h : slaRoute row = .dropped) :
    row.status = .approved ∧ row.approvedAt = none := by
  unfold slaRoute at h
  by_cases hstaff : row.createdById ≠ none
  · rw [if_pos hstaff] at h
    cases h
  by_cases happroved : row.approvedAt ≠ none
  · rw [if_neg hstaff, if_pos happroved] at h
    cases h
  rw [if_neg hstaff, if_neg happroved] at h
  refine ⟨?_, not_not.1 happroved⟩
  cases hstatus : row.status with
  | approved => rfl
  | rejected =>
    rw [hstatus] at h
    by_cases hauto : isAutoRejected row = true <;> simp [hauto] at h
  | _ =>
    rw [hstatus] at h
    cases h

/-- A row that is measured as approved has the time of it. -/
theorem approvedAt_of_slaRoute {row : SlaSourceRow} (h : slaRoute row = .decidedApproved) :
    row.approvedAt ≠ none := by
  intro hnone
  unfold slaRoute at h
  by_cases hstaff : row.createdById ≠ none
  · rw [if_pos hstaff] at h
    cases h
  rw [if_neg hstaff, if_neg (not_not.2 hnone)] at h
  cases hstatus : row.status with
  | rejected =>
    rw [hstatus] at h
    by_cases hauto : isAutoRejected row = true <;> simp [hauto] at h
  | _ =>
    rw [hstatus] at h
    cases h

theorem isSome_turnaround (row : SlaSourceRow) : (turnaround row).isSome =
    (decide (slaRoute row = .decidedApproved) || decide (slaRoute row = .decidedRejected)) := by
  unfold turnaround
  cases hroute : slaRoute row with
  | decidedApproved =>
    obtain ⟨t, ht⟩ := Option.ne_none_iff_exists'.1 (approvedAt_of_slaRoute hroute)
    simp [ht]
  | _ => simp

/-- The measured rows are the decided ones. -/
theorem length_turnarounds (rows : List SlaSourceRow) :
    (rows.filterMap turnaround).length =
      countRoute .decidedApproved rows + countRoute .decidedRejected rows := by
  unfold countRoute
  induction rows with
  | nil => rfl
  | cons row rows ih =>
    have hrow := isSome_turnaround row
    rw [List.countP_cons, List.countP_cons]
    cases ht : turnaround row with
    | none =>
      rw [ht, Option.isSome_none, eq_comm, Bool.or_eq_false_iff] at hrow
      rw [List.filterMap_cons_none ht, ih, hrow.1, hrow.2]
      rfl
    | some t =>
      rw [ht, Option.isSome_some, eq_comm, Bool.or_eq_true, decide_eq_true_eq,
        decide_eq_true_eq] at hrow
      rw [List.filterMap_cons_some ht, List.length_cons, ih]
      rcases hrow with hroute | hroute <;> simp [hroute] <;> omega

/-! ### The durations -/

theorem turnaround_nonneg {row : SlaSourceRow} {t : ℤ} (h : turnaround row = some t) : 0 ≤ t := by
  unfold turnaround at h
  split at h
  · obtain ⟨_, -, rfl⟩ := Option.map_eq_some_iff.1 h
    exact le_max_left _ _
  · obtain rfl := Option.some.inj h
    exact le_max_left _ _
  · cases h

/-- The buckets do not overlap, and leave no gap. -/
theorem bucketTest_existsUnique (t : ℤ) : ∃! b, bucketTest b t = true := by
  have hhour : hourMs = 3600000 := rfl
  by_cases h₁ : t < 2 * hourMs
  · refine ⟨.under2h, by simpa [bucketTest] using h₁, fun b hb ↦ ?_⟩
    cases b <;> simp [bucketTest] at hb <;> first | rfl | omega
  by_cases h₂ : t < 12 * hourMs
  · refine ⟨.from2hTo12h, by simp [bucketTest]; omega, fun b hb ↦ ?_⟩
    cases b <;> simp [bucketTest] at hb <;> first | rfl | omega
  by_cases h₃ : t ≤ 24 * hourMs
  · refine ⟨.from12hTo24h, by simp [bucketTest]; omega, fun b hb ↦ ?_⟩
    cases b <;> simp [bucketTest] at hb <;> first | rfl | omega
  · refine ⟨.over24h, by simp [bucketTest]; omega, fun b hb ↦ ?_⟩
    cases b <;> simp [bucketTest] at hb <;> first | rfl | omega

/-- The buckets hold all durations. -/
theorem sum_buckets (l : List ℤ) :
    (slaBuckets.map fun b ↦ l.countP (bucketTest b)).sum = l.length := by
  induction l with
  | nil => rfl
  | cons t l ih =>
    simp only [slaBuckets, List.map_cons, List.map_nil, List.sum_cons, List.sum_nil,
      List.countP_cons, List.length_cons] at ih ⊢
    obtain ⟨b, hb, hunique⟩ := bucketTest_existsUnique t
    have hother : ∀ b', b' ≠ b → bucketTest b' t = false := fun b' hne ↦
      Bool.eq_false_iff.2 fun h ↦ hne (hunique b' h)
    cases b <;> simp [hb, hother] <;> omega

/-- What is not over 24 hours is within the SLA. -/
theorem withinSla_add_over (l : List ℤ) :
    (l.countP fun t ↦ t ≤ slaHours * hourMs) + l.countP (bucketTest .over24h) = l.length := by
  induction l with
  | nil => rfl
  | cons t l ih =>
    rw [List.countP_cons, List.countP_cons, List.length_cons, ← ih]
    by_cases hle : t ≤ slaHours * hourMs
    · have hover : bucketTest .over24h t = false := decide_eq_false (not_lt.2 hle)
      simp [hle, hover]
      omega
    · have hover : bucketTest .over24h t = true := decide_eq_true (not_le.1 hle)
      simp [hle, hover]
      omega

/-- The lower of the two values in the middle: at most half of the list is below it, and more than
half of it is not above. -/
def IsLowerMedian (l : List ℤ) (m : ℤ) : Prop :=
  m ∈ l ∧ l.countP (· < m) ≤ (l.length - 1) / 2 ∧ (l.length - 1) / 2 < l.countP (· ≤ m)

/-- The middle of the sorted list is the lower median. -/
theorem isLowerMedian_insertionSort {l : List ℤ} (h : 0 < l.length) :
    ∃ m, (l.insertionSort (· ≤ ·))[(l.length - 1) / 2]? = some m ∧ IsLowerMedian l m := by
  unfold IsLowerMedian
  have hperm := l.perm_insertionSort (· ≤ ·)
  have hsorted := l.pairwise_insertionSort (· ≤ ·)
  rw [← hperm.length_eq] at h ⊢
  generalize hs : l.insertionSort (· ≤ ·) = s at h hperm hsorted ⊢
  have hk : (s.length - 1) / 2 < s.length := by omega
  refine ⟨_, List.getElem?_eq_getElem hk, ?_⟩
  generalize (s.length - 1) / 2 = k at hk ⊢
  have hbelow : ∀ x ∈ s.take (k + 1), x ≤ s[k] := by
    intro x hx
    obtain ⟨i, hi, rfl⟩ := List.mem_take_iff_getElem.1 hx
    rcases Nat.lt_or_ge i k with hlt | hge
    · exact List.pairwise_iff_getElem.1 hsorted i k (by omega) hk hlt
    · have : i = k := by omega
      simp [this]
  have habove : ∀ x ∈ s.drop k, s[k] ≤ x := by
    intro x hx
    obtain ⟨i, hi, rfl⟩ := List.mem_drop_iff_getElem.1 hx
    rcases Nat.eq_zero_or_pos i with rfl | hpos
    · simp
    · exact List.pairwise_iff_getElem.1 hsorted k (k + i) hk (by omega) (by omega)
  refine ⟨hperm.mem_iff.1 (List.getElem_mem hk), ?_, ?_⟩
  · have hnone : (s.drop k).countP (· < s[k]) = 0 :=
      List.countP_eq_zero.2 fun x hx ↦ by simpa using habove x hx
    have hsplit : s.countP (· < s[k]) =
        (s.take k).countP (· < s[k]) + (s.drop k).countP (· < s[k]) := by
      rw [← List.countP_append, List.take_append_drop]
    have hle := (s.take k).countP_le_length (p := fun x ↦ decide (x < s[k]))
    have := List.length_take_le k s
    rw [← hperm.countP_eq]
    omega
  · rw [← hperm.countP_eq]
    have hall : (s.take (k + 1)).countP (· ≤ s[k]) = k + 1 := by
      rw [List.countP_eq_length.2 fun x hx ↦ by simpa using hbelow x hx, List.length_take]
      omega
    have hle := (List.take_sublist (k + 1) s).countP_le (p := fun x ↦ decide (x ≤ s[k]))
    omega

/-! ### The report -/

/-- The report does not depend on the order of the rows. -/
theorem slaOf_perm {rows rows' : List SlaSourceRow} (h : rows.Perm rows') :
    slaOf rows' = slaOf rows := by
  have hcount : ∀ x, countRoute x rows' = countRoute x rows := fun x ↦ (h.countP_eq _).symm
  have hturn : (rows'.filterMap turnaround).Perm (rows.filterMap turnaround) :=
    (h.filterMap turnaround).symm
  have hsorted : (rows'.filterMap turnaround).insertionSort (· ≤ ·) =
      (rows.filterMap turnaround).insertionSort (· ≤ ·) :=
    ((List.perm_insertionSort _ _).trans
      (hturn.trans (List.perm_insertionSort _ _).symm)).eq_of_pairwise
      (fun _ _ _ _ ↦ le_antisymm) (List.pairwise_insertionSort _ _)
      (List.pairwise_insertionSort _ _)
  unfold slaOf
  simp only [slaCounters_eq, hcount, hturn.length_eq, hturn.countP_eq, hturn.sum_eq, hsorted]

/-- The SLA accounts for every request: for rows of requests of the booking system each counter is
the number of rows of its kind, the decided and the excluded are all, the buckets hold the decided,
and the median is one. -/
theorem sla_accounts {requests : List BookingRequest}
    (h : ∀ r ∈ requests, ∃ w : BookingWorld, bookings.Reachable w ∧
      ∃ i, w.store.committed.row .request i = some r) :
    let rows := requests.map slaSourceRow
    let sla := slaOf rows
    let turnarounds := rows.filterMap turnaround
    (slaCounters rows).turnaroundsMs = turnarounds ∧
      sla.decidedApproved = countRoute .decidedApproved rows ∧
      sla.decidedRejected = countRoute .decidedRejected rows ∧
      sla.excluded = ⟨countRoute .autoRejected rows, countRoute .withdrawn rows,
        countRoute .staffCreated rows, countRoute .expired rows, countRoute .pending rows⟩ ∧
      (∀ row ∈ rows, slaRoute row ≠ .dropped) ∧
      sla.decided + sla.excluded.total = rows.length ∧
      turnarounds.length = sla.decided ∧
      sla.decidedApproved + sla.decidedRejected = sla.decided ∧
      sla.buckets.map ReportSlaBucketRowDto.bucket = slaBuckets ∧
      (∀ b ∈ sla.buckets, b.count = turnarounds.countP (bucketTest b.bucket)) ∧
      (sla.buckets.map ReportSlaBucketRowDto.count).sum = sla.decided ∧
      (∀ b ∈ sla.buckets, b.bucket = .over24h → sla.withinSla = sla.decided - b.count) ∧
      (∀ t ∈ turnarounds, 0 ≤ t ∧ ∃! b, bucketTest b t = true) ∧
      (turnarounds = [] → sla.medianHours = none) ∧
      (turnarounds ≠ [] → ∃ m : ℤ, sla.medianHours = some ((m : ℚ) / hourMs) ∧
        IsLowerMedian turnarounds m) ∧
      ∀ rows', rows.Perm rows' → slaOf rows' = sla := by
  intro rows sla turnarounds
  -- The counters, each read off the one equation for them all.
  have hturn : (slaCounters rows).turnaroundsMs = turnarounds := by rw [slaCounters_eq]
  have hdecided : sla.decided = turnarounds.length := by
    change (slaCounters rows).turnaroundsMs.length = _
    rw [hturn]
  have happroved : sla.decidedApproved = countRoute .decidedApproved rows := by
    change (slaCounters rows).decidedApproved = _
    rw [slaCounters_eq]
  have hrejected : sla.decidedRejected = countRoute .decidedRejected rows := by
    change (slaCounters rows).decidedRejected = _
    rw [slaCounters_eq]
  have hexcluded : sla.excluded = ⟨countRoute .autoRejected rows, countRoute .withdrawn rows,
      countRoute .staffCreated rows, countRoute .expired rows, countRoute .pending rows⟩ := by
    change SlaExcluded.mk (slaCounters rows).autoRejected (slaCounters rows).withdrawn
      (slaCounters rows).staffCreated (slaCounters rows).expired (slaCounters rows).pending = _
    rw [slaCounters_eq]
  have hsplit : sla.decidedApproved + sla.decidedRejected = sla.decided := by
    rw [happroved, hrejected, hdecided, length_turnarounds]
  -- only an approved request without its `approvedAt` would fall through
  have hroute : ∀ row ∈ rows, slaRoute row ≠ .dropped := by
    intro row hrow hdropped
    obtain ⟨r, hr, rfl⟩ := List.mem_map.1 hrow
    obtain ⟨w, hw, i, hi⟩ := h r hr
    obtain ⟨hstatus, hnone⟩ := slaRoute_eq_dropped hdropped
    exact approvedAt_of_approved hw hi hstatus hnone
  have hdropped : countRoute .dropped rows = 0 :=
    List.countP_eq_zero.2 fun row hrow ↦ by simpa using hroute row hrow
  have hbuckets : ∀ b ∈ sla.buckets, b.count = turnarounds.countP (bucketTest b.bucket) := by
    intro b hb
    obtain ⟨bucket, -, rfl⟩ := List.mem_map.1 hb
    rw [← hturn]
  -- What is left is about the sums, the buckets and the median.
  refine ⟨hturn, happroved, hrejected, hexcluded, hroute, ?_, hdecided.symm, hsplit, rfl, hbuckets,
    ?_, ?_, fun t ht ↦ ⟨?_, bucketTest_existsUnique t⟩, fun hempty ↦ ?_, fun hne ↦ ?_,
    fun rows' hperm ↦ slaOf_perm hperm⟩
  · have hsum := sum_countRoute rows
    rw [hexcluded]
    dsimp only [SlaExcluded.total]
    omega
  · have hcounts : sla.buckets.map ReportSlaBucketRowDto.count =
        slaBuckets.map fun b ↦ turnarounds.countP (bucketTest b) := by
      rw [← hturn]
      rfl
    rw [hcounts, sum_buckets, hdecided]
  · intro b hb hover
    have hadd := withinSla_add_over turnarounds
    have hwithin : sla.withinSla = turnarounds.countP fun t ↦ t ≤ slaHours * hourMs := by
      rw [← hturn]
      rfl
    rw [hbuckets b hb, hover, hwithin, hdecided]
    omega
  · obtain ⟨row, -, hrow⟩ := List.mem_filterMap.1 ht
    exact turnaround_nonneg hrow
  · have hzero : ¬ 0 < (slaCounters rows).turnaroundsMs.length := by
      rw [hturn, hempty]
      exact Nat.lt_irrefl 0
    exact if_neg hzero
  · have hpos := List.length_pos_iff.2 hne
    obtain ⟨m, hm, hmedian⟩ := isLowerMedian_insertionSort hpos
    have hpos' : 0 < (slaCounters rows).turnaroundsMs.length := hturn ▸ hpos
    refine ⟨m, (if_pos hpos').trans ?_, hmedian⟩
    rw [hturn, hm]
    rfl

/-- Two rivals and a third request: the second is rejected after one hour, the first approved after
26, the third is left pending. -/
def ruledRun : List BookingEvent :=
  Sample.rivals ++ Sample.lineRun 4 200 ++ .tick hourMs ::
    .call 2 (.reject 2 (JsString.lit "no")) :: Sample.steps 2 5 ++ .tick (26 * hourMs) ::
    .call 3 (.approve 0 Sample.staff) :: Sample.steps 3 11

/-- What the report reads of the three. -/
def ruledRows : List SlaSourceRow :=
  [⟨none, some (26 * hourMs), .approved, none, 0, 26 * hourMs⟩,
    ⟨none, none, .rejected, some (JsString.lit "no"), 0, hourMs⟩,
    ⟨none, none, .pending, none, 0, 0⟩]

private theorem rows_ruledRun :
    [0, 2, 4].map (fun i ↦
      ((after ruledRun).store.committed.row .request i).map slaSourceRow) =
      ruledRows.map some := by
  decide +kernel

/-- One is approved, too late, one rejected in time, and one not ruled on. -/
theorem sla_accounts_ruledRun : ∃ requests : List BookingRequest,
    let sla := slaOf (requests.map slaSourceRow)
    sla.decided + sla.excluded.total = 3 ∧ sla.decidedApproved = 1 ∧ sla.decidedRejected = 1 ∧
      sla.excluded.pending = 1 ∧ sla.decided = 2 ∧
      sla.buckets.map ReportSlaBucketRowDto.count = [1, 0, 0, 1] := by
  have hrows := rows_ruledRun
  simp only [ruledRows, List.map_cons, List.map_nil, List.cons.injEq, and_true,
    Option.map_eq_some_iff] at hrows
  obtain ⟨⟨r, hr, hrow⟩, ⟨r', hr', hrow'⟩, ⟨r'', hr'', hrow''⟩⟩ := hrows
  have hof : [r, r', r''].map slaSourceRow = ruledRows := by
    rw [List.map_cons, List.map_cons, List.map_cons, hrow, hrow', hrow'']
    rfl
  obtain ⟨-, happroved, hrejected, hexcluded, -, htotal, -, hsplit, -⟩ :=
    @sla_accounts [r, r', r''] (by
      simp only [List.mem_cons, List.not_mem_nil, or_false]
      rintro q (rfl | rfl | rfl)
      · exact ⟨_, reachable_after _, 0, hr⟩
      · exact ⟨_, reachable_after _, 2, hr'⟩
      · exact ⟨_, reachable_after _, 4, hr''⟩)
  rw [hof] at happroved hrejected hexcluded hsplit
  have hone : (slaOf ruledRows).decidedApproved = 1 := happroved.trans (by decide +kernel)
  have hone' : (slaOf ruledRows).decidedRejected = 1 := hrejected.trans (by decide +kernel)
  refine ⟨[r, r', r''], htotal, ?_⟩
  rw [hof]
  refine ⟨hone, hone', ?_, by rw [← hsplit, hone, hone'], by decide +kernel⟩
  rw [hexcluded]
  decide +kernel

end EasyBook.Reports

import EasyBook.Reports.Operations

/-!
# The tables of the operations report

`foldDepartments` and `foldPurposes`. Every booking is in one bucket, and every bucket that holds
something has a row: a department that is shown, or none. So a row shows what its bucket holds
(`figures_of_mem`), and the sum over the rows is the sum over the buckets (`sum_foldDepartments`).
-/

namespace EasyBook.Reports

open JsDate JsString ReadCommitted

/-! ### Buckets -/

/-- A department that is shown. -/
def DepartmentSourceRow.Shown (maySeeReserved : Bool) (d : DepartmentSourceRow) : Prop :=
  d.isSystemReserved = true → maySeeReserved = true

instance (maySeeReserved : Bool) : DecidablePred (DepartmentSourceRow.Shown maySeeReserved) :=
  fun _ ↦ inferInstanceAs (Decidable (_ → _))

/-- The condition of the source is the one of the statement. -/
theorem shown_iff {maySeeReserved : Bool} {d : DepartmentSourceRow} :
    (!(d.isSystemReserved && !maySeeReserved)) = true ↔ d.Shown maySeeReserved := by
  unfold DepartmentSourceRow.Shown
  cases d.isSystemReserved <;> cases maySeeReserved <;> simp

section Buckets

variable {departments : List DepartmentSourceRow} {maySeeReserved : Bool} {e : Option ℤ} {id : ℤ}

/-- The map of departments by id finds exactly the department of an id. -/
theorem lookup_departmentsById (hids : (departments.map DepartmentSourceRow.id).Nodup)
    {d : DepartmentSourceRow} : (departmentsById departments).lookup id = some d ↔
      d ∈ departments ∧ d.id = id := by
  have hkeys : ((departments.map fun d ↦ (d.id, d)).reverse.map Prod.fst).Nodup := by
    rw [List.map_reverse, List.nodup_reverse, List.map_map]
    exact hids
  unfold departmentsById
  rw [lookup_mapSetAll, List.lookup_nil, Option.or_none]
  constructor
  · intro h
    obtain ⟨l₁, l₂, hl, -⟩ := List.lookup_eq_some_iff.1 h
    have hmem : (id, d) ∈ (departments.map fun d ↦ (d.id, d)).reverse := by simp [hl]
    obtain ⟨d', hd', he⟩ := List.mem_map.1 (List.mem_reverse.1 hmem)
    obtain ⟨rfl, rfl⟩ := Prod.mk.inj he
    exact ⟨hd', rfl⟩
  · rintro ⟨hd, rfl⟩
    exact lookup_of_mem hkeys (List.mem_reverse.2 (List.mem_map.2 ⟨d, hd, rfl⟩))

/-- The bucket of a department that is shown is its own; everything else is of no department. -/
theorem departmentBucketOf_eq_some (hids : (departments.map DepartmentSourceRow.id).Nodup) :
    departmentBucketOf e (departmentsById departments) maySeeReserved = some id ↔
      e = some id ∧ ∃ d ∈ departments, d.id = id ∧ d.Shown maySeeReserved := by
  unfold departmentBucketOf
  cases e with
  | none => simp
  | some e =>
    dsimp only
    cases hl : (departmentsById departments).lookup e with
    | none =>
      refine iff_of_false (fun h ↦ (nomatch h)) fun ⟨he, d, hd, hid, _⟩ ↦ ?_
      rw [(lookup_departmentsById hids).2 ⟨hd, hid.trans (Option.some.inj he).symm⟩] at hl
      cases hl
    | some d =>
      obtain ⟨hd, rfl⟩ := (lookup_departmentsById hids).1 hl
      dsimp only
      split
      · next hhidden =>
        refine iff_of_false (fun h ↦ (nomatch h)) fun ⟨he, d', hd', hid, hshown⟩ ↦ ?_
        obtain rfl : d' = d := by
          refine List.inj_on_of_nodup_map hids hd' hd ?_
          rw [hid, Option.some.inj he]
        rw [← shown_iff, hhidden] at hshown
        cases hshown
      · next hshown =>
        rw [Bool.not_eq_true, ← Bool.not_eq_true', shown_iff] at hshown
        exact ⟨fun h ↦ ⟨h, d, hd, Option.some.inj h, hshown⟩, And.left⟩

/-- The keys of the table. -/
def tableKeys (departments : List DepartmentSourceRow) (maySeeReserved : Bool) :
    List (Option ℤ) :=
  none :: (departments.filter fun d ↦ !(d.isSystemReserved && !maySeeReserved)).map fun d ↦
    some d.id

/-- The bucket of a request is a row of the table. -/
theorem mem_tableKeys (hids : (departments.map DepartmentSourceRow.id).Nodup) :
    departmentBucketOf e (departmentsById departments) maySeeReserved ∈
      tableKeys departments maySeeReserved := by
  unfold tableKeys
  cases hb : departmentBucketOf e (departmentsById departments) maySeeReserved with
  | none => exact List.mem_cons_self
  | some id =>
    obtain ⟨-, d, hd, rfl, hshown⟩ := (departmentBucketOf_eq_some hids).1 hb
    exact List.mem_cons_of_mem _ (List.mem_map.2 ⟨d, List.mem_filter.2 ⟨hd, shown_iff.2 hshown⟩,
      rfl⟩)

/-- No bucket has two rows. -/
theorem nodup_tableKeys (maySeeReserved : Bool)
    (hids : (departments.map DepartmentSourceRow.id).Nodup) :
    (tableKeys departments maySeeReserved).Nodup := by
  refine List.nodup_cons.2 ⟨by simp, ?_⟩
  have hsome : (departments.map fun d ↦ some d.id).Nodup := by
    have := hids.map (Option.some_injective ℤ)
    rwa [List.map_map] at this
  exact hsome.sublist (List.filter_sublist.map _)

end Buckets

/-! ### The aggregate -/

theorem DepartmentAgg.zero_eq : (0 : DepartmentAgg) = ⟨0, 0, 0, 0⟩ := rfl

@[simp] theorem DepartmentAgg.mk_add_mk {r r' a a' l l' : ℕ} {h h' : ℤ} :
    DepartmentAgg.mk r a h l + ⟨r', a', h', l'⟩ = ⟨r + r', a + a', h + h', l + l'⟩ := rfl

section Aggregate

variable {requestBuckets : List DepartmentRequestBucket} {heldMsByBucket : List (Option ℤ × ℤ)}
  {b : Option ℤ}

/-- The counters of a bucket, added up one request at a time, are the counts over its requests. -/
theorem sum_patches (b : Option ℤ) (requestBuckets : List DepartmentRequestBucket) :
    ((requestBuckets.filter fun r ↦ r.bucket = b).map DepartmentRequestBucket.patch).sum =
      ⟨requestBuckets.countP fun r ↦ r.bucket = b,
        requestBuckets.countP fun r ↦ decide (r.bucket = b) && decide (r.status = .approved), 0,
        requestBuckets.countP fun r ↦ decide (r.bucket = b) && r.isLate⟩ := by
  induction requestBuckets with
  | nil => rfl
  | cons r l ih =>
    rw [List.filter_cons, List.countP_cons, List.countP_cons, List.countP_cons]
    by_cases hb : r.bucket = b
    · simp [hb, ih, DepartmentRequestBucket.patch, add_comm]
    · simp [hb, ih]

/-- The held time of a bucket, added up one entry at a time. -/
theorem sum_heldPatches (l : List (Option ℤ × ℤ)) :
    (l.map fun e ↦ (⟨0, 0, e.2, 0⟩ : DepartmentAgg)).sum = ⟨0, 0, (l.map Prod.snd).sum, 0⟩ := by
  induction l with
  | nil => rfl
  | cons e l ih => simp [ih]

/-- What a bucket holds. -/
theorem entry_aggregate (h : (heldMsByBucket.map Prod.fst).Nodup) :
    entry (aggregate requestBuckets heldMsByBucket) b =
      ⟨requestBuckets.countP fun r ↦ r.bucket = b,
        requestBuckets.countP fun r ↦ decide (r.bucket = b) && decide (r.status = .approved),
        entry heldMsByBucket b,
        requestBuckets.countP fun r ↦ decide (r.bucket = b) && r.isLate⟩ := by
  unfold aggregate
  rw [entry_tallyBy, entry_tallyBy, entry_nil, zero_add, sum_patches, sum_heldPatches,
    sum_entries h]
  simp

/-- A bucket of a map with no request and no time is empty, and no time is negative. -/
structure Proper (agg : List (Option ℤ × DepartmentAgg)) : Prop where
  zero : ∀ b a, agg.lookup b = some a → a.requests = 0 → a.heldMs = 0 → a = 0
  nonneg : ∀ b a, agg.lookup b = some a → 0 ≤ a.heldMs

/-- What is aggregated has one entry for each bucket and no negative figure. -/
theorem proper_aggregate (h : (heldMsByBucket.map Prod.fst).Nodup)
    (hheld : ∀ b, 0 ≤ entry heldMsByBucket b) :
    Proper (aggregate requestBuckets heldMsByBucket) := by
  have hfigures : ∀ b a, (aggregate requestBuckets heldMsByBucket).lookup b = some a → a =
      ⟨requestBuckets.countP fun r ↦ r.bucket = b,
        requestBuckets.countP fun r ↦ decide (r.bucket = b) && decide (r.status = .approved),
        entry heldMsByBucket b,
        requestBuckets.countP fun r ↦ decide (r.bucket = b) && r.isLate⟩ := fun b a ha ↦ by
    rw [← entry_aggregate h, entry, ha]
    rfl
  refine ⟨fun b a ha hr hms ↦ ?_, fun b a ha ↦ ?_⟩
  · rw [hfigures b a ha] at hr hms ⊢
    have hle : ∀ p : DepartmentRequestBucket → Bool,
        (requestBuckets.countP fun r ↦ decide (r.bucket = b) && p r) = 0 := fun p ↦ by
      refine Nat.le_zero.1 ((List.countP_mono_left fun r _ hr ↦ ?_).trans_eq hr)
      exact (Bool.and_eq_true_iff.1 hr).1
    exact DepartmentAgg.ext hr (hle _) hms (hle _)
  · rw [hfigures b a ha]
    exact hheld b

end Aggregate

/-! ### The table by department -/

/-- `totalHeldMs`. -/
def totalHeldMs (agg : List (Option ℤ × DepartmentAgg)) : ℤ := (agg.map fun e ↦ e.2.heldMs).sum

/-- The row of a department that is shown. A deleted one has a row if it holds something. -/
def shownRow (agg : List (Option ℤ × DepartmentAgg)) (d : DepartmentSourceRow) :
    Option DepartmentRow :=
  if d.deletedAt = none ∨ entry agg (some d.id) ≠ 0 then
    some (rowOf (some d.id) (some d.name) d.deletedAt.isSome (entry agg (some d.id))
      (totalHeldMs agg))
  else none

/-- The row of no department. -/
def unassignedRow (agg : List (Option ℤ × DepartmentAgg)) : List DepartmentRow :=
  if entry agg none = 0 then [] else [rowOf none none false (entry agg none) (totalHeldMs agg)]

/-- More held time first, then more requests. -/
def DepartmentRow.Before (a b : DepartmentRow) : Prop :=
  b.heldMs < a.heldMs ∨ b.heldMs = a.heldMs ∧ b.requests ≤ a.requests

section Table

variable {U : Unicode} {departments : List DepartmentSourceRow} {maySeeReserved : Bool}
  {requestBuckets : List DepartmentRequestBucket} {heldMsByBucket : List (Option ℤ × ℤ)}
  {agg : List (Option ℤ × DepartmentAgg)} {d : DepartmentSourceRow}

/-- A department that is not deleted has its row, empty or not. -/
theorem shownRow_live (hd : d.deletedAt = none) : shownRow agg d =
    some (rowOf (some d.id) (some d.name) false (entry agg (some d.id)) (totalHeldMs agg)) := by
  rw [shownRow, if_pos (.inl hd), hd]
  rfl

/-- A deleted one has a row where there is something to show. -/
theorem shownRow_deleted (hagg : Proper agg) (hd : d.deletedAt.isSome = true) :
    (match agg.lookup (some d.id) with
      | none => none
      | some a =>
        if a.requests = 0 ∧ a.heldMs = 0 ∧ a.lateCancellations = 0 then none
        else some (rowOf (some d.id) (some d.name) true a (totalHeldMs agg))) =
      shownRow agg d := by
  have hne : d.deletedAt ≠ none := Option.isSome_iff_ne_none.1 hd
  rw [shownRow, hd]
  unfold entry
  cases hl : agg.lookup (some d.id) with
  | none => simp [hne]
  | some a =>
    have hzero : (a.requests = 0 ∧ a.heldMs = 0 ∧ a.lateCancellations = 0) ↔ a = 0 :=
      ⟨fun h ↦ hagg.zero _ a hl h.1 h.2.1, fun h ↦ h ▸ ⟨rfl, rfl, rfl⟩⟩
    by_cases ha : a = 0
    · simp [ha, hne, DepartmentAgg.zero_eq]
    · simp [hzero, ha, hne]

/-- The row of what belongs to no department comes last, where there is something to show. -/
theorem append_unassignedRow (hagg : Proper agg) (rows : List DepartmentRow) :
    (match agg.lookup none with
      | none => rows
      | some nullAgg =>
        if 0 < nullAgg.requests ∨ 0 < nullAgg.heldMs ∨ 0 < nullAgg.lateCancellations then
          rows ++ [rowOf none none false nullAgg (totalHeldMs agg)]
        else rows) = rows ++ unassignedRow agg := by
  unfold unassignedRow entry
  cases hl : agg.lookup none with
  | none => simp
  | some a =>
    have hzero : (0 < a.requests ∨ 0 < a.heldMs ∨ 0 < a.lateCancellations) ↔ a ≠ 0 := by
      constructor
      · rintro h rfl
        rcases h with h | h | h <;> exact absurd h (lt_irrefl _)
      · intro hne
        by_contra! hle
        have := hagg.nonneg _ a hl
        exact hne (hagg.zero _ a hl (by omega) (by omega))
    by_cases ha : a = 0
    · simp [ha, DepartmentAgg.zero_eq]
    · simp [hzero, ha]

/-- The departments that are shown, sorted, and then what is of none. -/
theorem foldDepartments_eq (U : Unicode) (departments : List DepartmentSourceRow)
    (maySeeReserved : Bool) (hagg : Proper (aggregate requestBuckets heldMsByBucket)) :
    ∃ rows, rows.Perm ((departments.filter fun d ↦
        !(d.isSystemReserved && !maySeeReserved)).filterMap
          (shownRow (aggregate requestBuckets heldMsByBucket))) ∧
      rows.Pairwise DepartmentRow.Before ∧
      foldDepartments U departments requestBuckets heldMsByBucket maySeeReserved =
        rows ++ unassignedRow (aggregate requestBuckets heldMsByBucket) := by
  unfold foldDepartments
  extract_lets agg _ shown live deleted rows
  refine ⟨rows, ?_, ?_, append_unassignedRow hagg rows⟩
  · have hlive : live = (shown.filter fun d ↦ d.deletedAt.isNone).filterMap (shownRow agg) := by
      show List.map _ _ = _
      rw [← List.filterMap_eq_map]
      refine List.filterMap_congr fun d hd ↦ ?_
      exact (shownRow_live (Option.isNone_iff_eq_none.1 (List.mem_filter.1 hd).2)).symm
    have hdeleted : deleted =
        (shown.filter fun d ↦ !d.deletedAt.isNone).filterMap (shownRow agg) := by
      have hsame : (fun d : DepartmentSourceRow ↦ !d.deletedAt.isNone) =
          fun d ↦ d.deletedAt.isSome := by
        funext d
        cases d.deletedAt <;> rfl
      rw [hsame]
      exact List.filterMap_congr fun d hd ↦ shownRow_deleted hagg (List.mem_filter.1 hd).2
    have hall : live ++ deleted = (shown.filter (fun d ↦ d.deletedAt.isNone) ++
        shown.filter fun d ↦ !d.deletedAt.isNone).filterMap (shownRow agg) := by
      rw [List.filterMap_append, ← hlive, ← hdeleted]
    refine (List.perm_insertionSort _ _).trans ?_
    rw [hall]
    exact (List.filter_append_perm _ _).filterMap _
  · refine pairwise_insertionSort_of (fun a b hab ↦ ?_) (fun a b hab ↦ ?_) (fun a b c ↦ ?_) _
    · unfold compareDepartments orElse at hab
      unfold DepartmentRow.Before
      split_ifs at hab <;> omega
    · unfold compareDepartments orElse at hab
      unfold DepartmentRow.Before
      split_ifs at hab <;> omega
    · unfold DepartmentRow.Before
      omega

/-- **The sum over the rows** is the sum over the buckets. -/
theorem sum_foldDepartments {M : Type*} [AddCommMonoid M] {f : DepartmentRow → M}
    {g : DepartmentAgg → M} (hfg : ∀ id name isDeleted a t, f (rowOf id name isDeleted a t) = g a)
    (hg : g 0 = 0) (hagg : Proper (aggregate requestBuckets heldMsByBucket)) :
    ((foldDepartments U departments requestBuckets heldMsByBucket maySeeReserved).map f).sum =
      ((tableKeys departments maySeeReserved).map fun b ↦
        g (entry (aggregate requestBuckets heldMsByBucket) b)).sum := by
  obtain ⟨rows, hperm, -, heq⟩ := foldDepartments_eq U departments maySeeReserved hagg
  have hshown : ∀ l : List DepartmentSourceRow,
      ((l.filterMap (shownRow (aggregate requestBuckets heldMsByBucket))).map f).sum =
        (l.map fun d ↦ g (entry (aggregate requestBuckets heldMsByBucket) (some d.id))).sum := by
    intro l
    induction l with
    | nil => rfl
    | cons d l ih =>
      rw [List.filterMap_cons, List.map_cons, List.sum_cons, ← ih, shownRow]
      split
      · next hnone =>
        split_ifs at hnone with h
        rw [not_or, not_not] at h
        rw [h.2, hg, zero_add]
      · next row hrow =>
        split_ifs at hrow with h
        obtain rfl := Option.some.inj hrow
        rw [List.map_cons, List.sum_cons, hfg]
  have hnone : ((unassignedRow (aggregate requestBuckets heldMsByBucket)).map f).sum =
      g (entry (aggregate requestBuckets heldMsByBucket) none) := by
    unfold unassignedRow
    split
    · next h => rw [h, hg]; rfl
    · rw [List.map_singleton, List.sum_singleton, hfg]
  rw [heq, List.map_append, List.sum_append, (hperm.map f).sum_eq, hshown, hnone, tableKeys,
    List.map_cons, List.sum_cons, List.map_map, add_comm]
  rfl

/-- Which rows there are. -/
theorem mem_foldDepartments (hagg : Proper (aggregate requestBuckets heldMsByBucket))
    {row : DepartmentRow} :
    row ∈ foldDepartments U departments requestBuckets heldMsByBucket maySeeReserved ↔
      (∃ d ∈ departments, d.Shown maySeeReserved ∧
        shownRow (aggregate requestBuckets heldMsByBucket) d = some row) ∨
      row ∈ unassignedRow (aggregate requestBuckets heldMsByBucket) := by
  obtain ⟨rows, hperm, -, heq⟩ := foldDepartments_eq U departments maySeeReserved hagg
  rw [heq, List.mem_append, hperm.mem_iff, List.mem_filterMap]
  refine or_congr_left (exists_congr fun d ↦ ?_)
  rw [List.mem_filter, shown_iff, and_assoc]

/-- A row shows the figures of its department. -/
theorem eq_of_shownRow {row : DepartmentRow} (h : shownRow agg d = some row) :
    row = rowOf (some d.id) (some d.name) d.deletedAt.isSome (entry agg (some d.id))
      (totalHeldMs agg) := by
  unfold shownRow at h
  split_ifs at h
  exact (Option.some.inj h).symm

/-- And carries its id. -/
theorem departmentId_of_shownRow {row : DepartmentRow} (h : shownRow agg d = some row) :
    row.departmentId = some d.id := by
  rw [eq_of_shownRow h]
  rfl

/-- A department with a figure that is not zero has a row. -/
theorem shownRow_of_ne_zero (h : entry agg (some d.id) ≠ 0) : shownRow agg d =
    some (rowOf (some d.id) (some d.name) d.deletedAt.isSome (entry agg (some d.id))
      (totalHeldMs agg)) :=
  if_pos (.inr h)

/-- So has what belongs to no department. -/
theorem mem_unassignedRow (h : entry agg none ≠ 0) :
    rowOf none none false (entry agg none) (totalHeldMs agg) ∈ unassignedRow agg := by
  rw [unassignedRow, if_neg h]
  exact List.mem_cons_self

/-- That row carries no id. -/
theorem departmentId_of_unassignedRow {row : DepartmentRow} (h : row ∈ unassignedRow agg) :
    row.departmentId = none := by
  unfold unassignedRow at h
  split at h
  · cases h
  · rw [List.mem_singleton.1 h]
    rfl

/-- What a row shows is what its bucket holds. -/
theorem figures_of_mem (hagg : Proper (aggregate requestBuckets heldMsByBucket))
    {row : DepartmentRow}
    (h : row ∈ foldDepartments U departments requestBuckets heldMsByBucket maySeeReserved) :
    (⟨row.requests, row.approved, row.heldMs, row.lateCancellations⟩ : DepartmentAgg) =
      entry (aggregate requestBuckets heldMsByBucket) row.departmentId := by
  rcases (mem_foldDepartments hagg).1 h with ⟨d, -, -, hrow⟩ | hrow
  · rw [eq_of_shownRow hrow]
    rfl
  · rw [departmentId_of_unassignedRow hrow]
    unfold unassignedRow at hrow
    split at hrow
    · cases hrow
    · rw [List.mem_singleton.1 hrow]
      rfl

/-- No two rows are of one department, what is of none comes last, and the rest is sorted. -/
theorem sorted_foldDepartments (hids : (departments.map DepartmentSourceRow.id).Nodup)
    (hagg : Proper (aggregate requestBuckets heldMsByBucket)) :
    (foldDepartments U departments requestBuckets heldMsByBucket maySeeReserved).Pairwise
      fun a b ↦ a.departmentId ≠ none ∧ a.departmentId ≠ b.departmentId ∧
        (b.departmentId = none ∨ a.Before b) := by
  obtain ⟨rows, hperm, hsorted, heq⟩ := foldDepartments_eq U departments maySeeReserved hagg
  have hsome : ∀ row ∈ rows, row.departmentId ≠ none := fun row hrow ↦ by
    obtain ⟨d, -, hd⟩ := List.mem_filterMap.1 (hperm.mem_iff.1 hrow)
    rw [departmentId_of_shownRow hd]
    exact Option.some_ne_none _
  have hne : rows.Pairwise fun a b ↦ a.departmentId ≠ b.departmentId := by
    have hsource := (List.pairwise_map.1 hids).filter fun d ↦
      !(d.isSystemReserved && !maySeeReserved)
    refine hperm.symm.pairwise (hsource.filterMap _ fun d d' hdd a ha b hb ↦ ?_) fun h ↦ h.symm
    rw [departmentId_of_shownRow ha, departmentId_of_shownRow hb]
    exact fun he ↦ hdd (Option.some.inj he)
  rw [heq, List.pairwise_append]
  refine ⟨?_, ?_, fun a ha b hb ↦ ?_⟩
  · refine (hne.and hsorted).imp_of_mem fun {a b} ha _ hab ↦ ?_
    exact ⟨hsome a ha, hab.1, .inr hab.2⟩
  · unfold unassignedRow
    split
    · exact List.Pairwise.nil
    · exact List.pairwise_singleton _ _
  · have hb := departmentId_of_unassignedRow hb
    exact ⟨hsome a ha, hb ▸ hsome a ha, .inl hb⟩

end Table

/-! ### The table by purpose -/

/-- More held time first, then more requests, then the order of the rules; the others last. -/
def PurposeRow.Before (a b : PurposeRow) : Prop :=
  b.category = .other ∨ a.category ≠ .other ∧
    (b.heldMs < a.heldMs ∨ b.heldMs = a.heldMs ∧ (b.requests < a.requests ∨
      b.requests = a.requests ∧ categoryRank a.category ≤ categoryRank b.category))

section Purposes

variable {requests : List ReportPurposeCategory}
  {heldMsByCategory : List (ReportPurposeCategory × ℤ)}

/-- The list of categories is all of them. -/
theorem mem_allCategories (c : ReportPurposeCategory) : c ∈ allCategories := by
  cases c <;> decide

theorem nodup_allCategories : allCategories.Nodup := by decide

/-- The purposes are listed by their requests, then by name. -/
theorem sorted_foldPurposes : (foldPurposes requests heldMsByCategory).Pairwise
    PurposeRow.Before := by
  refine pairwise_insertionSort_of (fun a b hab ↦ ?_) (fun a b hab ↦ ?_) (fun a b c hab hbc ↦ ?_) _
  · unfold comparePurposes orElse at hab
    unfold PurposeRow.Before
    split_ifs at hab with ha hb h h'
    · exact absurd hab (by decide)
    · exact .inl hb
    · exact .inr ⟨ha, by omega⟩
    · exact .inr ⟨ha, by omega⟩
    · exact .inr ⟨ha, by omega⟩
  · unfold comparePurposes orElse at hab
    unfold PurposeRow.Before
    split_ifs at hab with ha hb h h'
    · exact .inl ha
    · exact absurd (by decide : (-1 : ℤ) ≤ 0) hab
    · exact .inr ⟨hb, by omega⟩
    · exact .inr ⟨hb, by omega⟩
    · exact .inr ⟨hb, by omega⟩
  · unfold PurposeRow.Before at *
    rcases hbc with hc | ⟨hb, hbc⟩
    · exact .inl hc
    · obtain ⟨ha, hab⟩ := hab.resolve_left hb
      exact .inr ⟨ha, by omega⟩

/-- Each of the categories has its row. -/
theorem perm_foldPurposes (requests : List ReportPurposeCategory)
    (heldMsByCategory : List (ReportPurposeCategory × ℤ)) :
    ((foldPurposes requests heldMsByCategory).map fun row ↦
      (row.category, row.requests, row.heldMs)).Perm
      (allCategories.map fun c ↦ (c, requests.count c, entry heldMsByCategory c)) := by
  refine ((List.perm_insertionSort _ _).map _).trans (List.Perm.of_eq ?_)
  rw [List.map_map]
  refine List.map_congr_left fun c _ ↦ ?_
  have hcount : entry (tallyBy id (fun _ ↦ 1) [] requests) c = requests.count c := by
    rw [entry_tallyBy, entry_nil, zero_add, List.map_const', List.sum_replicate, nsmul_one,
      List.count_eq_countP, List.countP_eq_length_filter]
    rfl
  show (c, entry (tallyBy id (fun _ ↦ 1) [] requests) c, entry heldMsByCategory c) = _
  rw [hcount]

/-- Every category is listed once, whether it was asked for or not. -/
theorem category_foldPurposes :
    ((foldPurposes requests heldMsByCategory).map PurposeRow.category).Perm allCategories := by
  have hperm := (perm_foldPurposes requests heldMsByCategory).map Prod.fst
  simpa only [List.map_map, Function.comp_def, List.map_id'] using hperm

end Purposes

end EasyBook.Reports

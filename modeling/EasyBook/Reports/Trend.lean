import EasyBook.Bookings.System
import EasyBook.Reports.Overview

/-!
# The trend adds up

The buckets of both charts tile the range, and whatever is counted per day may be counted per
bucket: the status counts and the school days of the buckets come to those of the report. The held
time does not quite. The report stops at its effective end date, a bucket at its own; so the buckets
hold what the report holds, and what the slots that were under way at the cut-off hold after it. A
bucket shows its time in hours, and rounds at every slot.

A slot that touches more days than `MAX_SPAN_DAYS` makes the report throw.
-/

namespace EasyBook.Reports

open JsDate JsNumber JsString ReadCommitted

/-! ### Status counts -/

/-- The counts of one row. -/
def unitOf (row : BookingRequest) : DayCounts := (0 : DayCounts).tally row

theorem tally_eq_add (c : DayCounts) (row : BookingRequest) : c.tally row = c + unitOf row := by
  unfold unitOf DayCounts.tally
  cases hs : row.status with
  | rejected => cases isAutoRejected (slaSourceRow row) <;> rfl
  | _ => rfl

/-- The counts of rows. -/
def countsOf (rows : List BookingRequest) : DayCounts := (rows.map unitOf).sum

/-- The counts by day are those of the rows of the day, whichever days are asked for. -/
theorem foldStatusCounts_eq (rows : List BookingRequest) :
    (foldStatusCounts rows).1 = countsOf rows ∧
      ((foldStatusCounts rows).2.map Prod.fst).Nodup ∧
      ∀ p : JsString → Bool,
        (((foldStatusCounts rows).2.filter fun e ↦ p e.1).map Prod.snd).sum =
          countsOf (rows.filter fun r ↦ p (bangkokDate r.firstStartAt)) := by
  unfold foldStatusCounts countsOf
  induction rows using List.reverseRecOn with
  | nil => exact ⟨rfl, List.nodup_nil, fun p ↦ rfl⟩
  | append_singleton rows row ih =>
    obtain ⟨hcounts, hnodup, hdaily⟩ := ih
    simp only [List.foldl_append, List.foldl_cons, List.foldl_nil]
    refine ⟨?_, nodup_keys_mapSet hnodup, fun p ↦ ?_⟩
    · rw [tally_eq_add, hcounts, List.map_append, List.sum_append, List.map_singleton,
        List.sum_singleton]
    · rw [tally_eq_add, sum_filter_mapSet_add p _ hnodup, hdaily p, List.filter_append,
        List.map_append, List.sum_append]
      congr 1
      cases hp : p (bangkokDate row.firstStartAt) <;> simp [hp]

theorem sumDailyCounts_eq (daily : List (JsString × DayCounts)) (fromStr toStr : JsString) :
    sumDailyCounts daily fromStr toStr =
      ((daily.filter fun e ↦ !decide (e.1 < fromStr ∨ toStr < e.1)).map Prod.snd).sum := by
  have key : ∀ acc : DayCounts,
      daily.foldl (fun acc e ↦ if e.1 < fromStr ∨ toStr < e.1 then acc else acc + e.2) acc =
        acc + ((daily.filter fun e ↦ !decide (e.1 < fromStr ∨ toStr < e.1)).map Prod.snd).sum := by
    induction daily with
    | nil => exact fun acc ↦ (add_zero acc).symm
    | cons e daily ih =>
      intro acc
      rw [List.foldl_cons, ih]
      by_cases he : e.1 < fromStr ∨ toStr < e.1
      · rw [if_pos he, List.filter_cons_of_neg (by rw [decide_eq_true he]; simp)]
      · rw [if_neg he, List.filter_cons_of_pos (by rw [decide_eq_false he]; rfl), List.map_cons,
          List.sum_cons, add_assoc]
  rw [sumDailyCounts, key, zero_add]

/-- What rows count for on a day. -/
def countsOn (rows : List BookingRequest) (d : ℤ) : DayCounts :=
  countsOf (rows.filter fun r ↦ bangkokDay r.firstStartAt = d)

/-- Rows by their days. -/
theorem sum_countsOn (rows : List BookingRequest) (x y : ℤ) :
    ∑ d ∈ Finset.Icc x y, countsOn rows d =
      countsOf (rows.filter fun r ↦
        decide (x ≤ bangkokDay r.firstStartAt ∧ bangkokDay r.firstStartAt ≤ y)) := by
  unfold countsOn countsOf
  induction rows with
  | nil => simp
  | cons r rows ih =>
    have hcons : ∀ d, (((r :: rows).filter fun r ↦ bangkokDay r.firstStartAt = d).map unitOf).sum =
        (if bangkokDay r.firstStartAt = d then unitOf r else 0) +
          ((rows.filter fun r ↦ bangkokDay r.firstStartAt = d).map unitOf).sum := fun d ↦ by
      by_cases hd : bangkokDay r.firstStartAt = d <;> simp [hd]
    rw [Finset.sum_congr rfl fun d _ ↦ hcons d, Finset.sum_add_distrib, ih, Finset.sum_ite_eq]
    by_cases hin : x ≤ bangkokDay r.firstStartAt ∧ bangkokDay r.firstStartAt ≤ y
    · rw [if_pos (Finset.mem_Icc.2 hin), List.filter_cons_of_pos (by simpa using hin),
        List.map_cons, List.sum_cons]
    · rw [if_neg fun h ↦ hin (Finset.mem_Icc.1 h), List.filter_cons_of_neg (by simpa using hin),
        zero_add]

/-- The counts of a bucket, for rows of days that can be written. -/
theorem sumDailyCounts_dateString {rows : List BookingRequest} {x y : ℤ} (hx : InYears x)
    (hy : InYears y) (hrows : ∀ r ∈ rows, InYears (bangkokDay r.firstStartAt)) :
    sumDailyCounts (foldStatusCounts rows).2 (dateString x) (dateString y) =
      ∑ d ∈ Finset.Icc x y, countsOn rows d := by
  rw [sumDailyCounts_eq, (foldStatusCounts_eq rows).2.2 fun date ↦
    !decide (date < dateString x ∨ dateString y < date), sum_countsOn]
  congr 1
  refine List.filter_congr fun r hr ↦ ?_
  have hday := hrows r hr
  unfold bangkokDate
  rw [Bool.eq_iff_iff, Bool.not_eq_true', decide_eq_false_iff_not, decide_eq_true_eq,
    dateString_lt_iff hday hx, dateString_lt_iff hy hday]
  omega

/-! ### School days and held time, day by day -/

/-- The day is a school date up to the cut-off. -/
def schoolDay (c d : ℤ) : ℕ := if SchoolDate d ∧ d ≤ c then 1 else 0

theorem sum_schoolDay (x y c : ℤ) :
    ∑ d ∈ Finset.Icc x y, schoolDay c d = schoolDates x (min y c) := by
  unfold schoolDay schoolDates
  rw [← Finset.sum_filter, ← Finset.card_eq_sum_ones]
  congr 1
  ext d
  simp only [Finset.mem_filter, Finset.mem_Icc]
  constructor
  · rintro ⟨hd, hschool, hc⟩
    exact ⟨⟨hd.1, by omega⟩, hschool⟩
  · rintro ⟨hd, hschool⟩
    exact ⟨⟨hd.1, by omega⟩, hschool, by omega⟩

/-- What slots hold in the window of a day, if it is a school date. -/
def heldOnDay (slots : List HeldSlot) (d : ℤ) : ℤ :=
  if SchoolDate d then
    (slots.map fun slot ↦ overlap slot.startAt slot.endAt (windowStart d) (windowEnd d)).sum
  else 0

/-- What slots hold from one day to another. -/
noncomputable def heldBy (slots : List HeldSlot) (x y : ℤ) : ℤ :=
  (slots.map fun slot ↦ heldMs x y slot.toSpan).sum

theorem sum_heldOnDay (slots : List HeldSlot) (x y : ℤ) :
    ∑ d ∈ Finset.Icc x y, heldOnDay slots d = heldBy slots x y := by
  unfold heldOnDay heldBy
  rw [← Finset.sum_filter]
  induction slots with
  | nil => simp
  | cons slot slots ih =>
    simp only [List.map_cons, List.sum_cons]
    rw [Finset.sum_add_distrib, ih, heldMs_eq_sum_school]

theorem heldBy_range (slots : List HeldSlot) {x m y : ℤ} (h : x ≤ m + 1) (h' : m ≤ y) :
    heldBy slots x y = heldBy slots x m + heldBy slots (m + 1) y := by
  unfold heldBy
  rw [← List.sum_map_add]
  exact congrArg List.sum (List.map_congr_left fun slot _ ↦ heldMs_range h h' slot.toSpan)

/-- The hours that a bucket adds up. -/
noncomputable def hoursBy (slots : List HeldSlot) (x y : ℤ) : ℚ :=
  slots.foldl (fun sum slot ↦ number (sum + hoursOf (heldMs x y slot.toSpan))) 0

/-- They are what the slots hold, but for a rounding per slot and one more. -/
theorem rounded_hoursBy (slots : List HeldSlot) (x y : ℤ) :
    Rounded (slots.length + 1) (heldBy slots x y / hourMs) (hoursBy slots x y) := by
  have hhour : (0 : ℚ) < hourMs := by norm_num [hourMs]
  have hnonneg : ∀ slot ∈ slots, (0 : ℚ) ≤ heldMs x y slot.toSpan / hourMs := fun slot _ ↦
    div_nonneg (Int.cast_nonneg (heldMs_nonneg x y slot.toSpan)) hhour.le
  have hsum : (slots.map fun slot ↦ (heldMs x y slot.toSpan / hourMs : ℚ)).sum =
      heldBy slots x y / hourMs := by
    unfold heldBy
    clear hnonneg
    induction slots with
    | nil => simp
    | cons slot slots ih =>
      simp only [List.map_cons, List.sum_cons, Int.cast_add, add_div] at ih ⊢
      rw [ih]
  have hrounded := rounded_sum hnonneg fun slot hslot ↦ (Rounded.refl _).number (hnonneg slot hslot)
  rwa [hsum] at hrounded

/-- Slots that end before a day hold nothing from then on. -/
theorem heldBy_eq_zero {slots : List HeldSlot} {c x y : ℤ} (hx : c < x)
    (h : ∀ slot ∈ slots, slot.endAt ≤ (c + 1) * msPerDay - 25200000) : heldBy slots x y = 0 := by
  unfold heldBy
  refine List.sum_eq_zero fun ms hms ↦ ?_
  obtain ⟨slot, hslot, rfl⟩ := List.mem_map.1 hms
  have hend := h slot hslot
  unfold heldMs heldInstants
  rw [Finset.filter_false_of_mem, Finset.card_empty, Nat.cast_zero]
  intro t ht hin
  have hlt := (Finset.mem_Ico.1 ht).2
  have hday : bangkokDay t ≤ c := by
    unfold bangkokDay day inBangkok bangkokUtcOffsetMinutes msPerDay
    unfold msPerDay at hend
    omega
  have := hin.1.1
  omega

/-! ### The window -/

theorem minDate_dateString {d d' : ℤ} (h : InYears d) (h' : InYears d') :
    minDate (dateString d) (dateString d') = dateString (min d d') := by
  unfold minDate
  simp only [compareDate_le_iff h h']
  split
  · rw [min_eq_left (by omega)]
  · rw [min_eq_right (by omega)]

/-- The range and the instant of a report that can be shown. -/
structure Showable (a b now : ℤ) : Prop extends ChartDays a b where
  today : InYears (bangkokDay now)
  yesterday : InYears (bangkokDay now - 1)

/-- The day before today, or the end of the range if that comes first. -/
def cutOff (b now : ℤ) : ℤ := min b (bangkokDay now - 1)

/-- The window of `[a, b]`. -/
noncomputable def windowOf (a b now : ℤ) : ReportWindow where
  startDate := dateString a
  endDate := dateString b
  days := b - a + 1
  dataUntilDate := dateString (bangkokDay now - 1)
  opened := if cutOff b now < a then none else
    some ⟨dateString (cutOff b now), a * msPerDay - 25200000,
      (cutOff b now + 1) * msPerDay - 25200000⟩
  schoolDays := schoolDates a (cutOff b now)

section Window

variable {a b now : ℤ}

theorem Showable.cutOff_le (h : Showable a b now) {d : ℤ} (ha : a ≤ d)
    (hd : d ≤ cutOff b now) : ReportDay d :=
  h.reportDay ha (by unfold cutOff at hd; omega)

theorem reportWindowAt_dateString (h : Showable a b now) :
    reportWindowAt ⟨dateString a, dateString b, b - a + 1⟩ now = .ok (windowOf a b now) := by
  obtain ⟨ha, hb⟩ := h.inYears
  have hcut : InYears (cutOff b now) := by
    unfold cutOff
    rcases min_choice b (bangkokDay now - 1) with hc | hc <;> rw [hc]
    exacts [hb, h.yesterday]
  unfold reportWindowAt bangkokDate
  dsimp only
  have hmin : minDate (dateString b) (dateString (bangkokDay now - 1)) =
      dateString (cutOff b now) := minDate_dateString hb h.yesterday
  rw [addDays_dateString h.today, ← sub_eq_add_neg]
  change (if 0 < compareDate (dateString a) (minDate (dateString b)
    (dateString (bangkokDay now - 1))) then _ else _) = _
  simp only [hmin, compareDate_pos_iff ha hcut]
  unfold windowOf
  by_cases hclosed : cutOff b now < a
  · rw [if_pos hclosed, if_pos hclosed, schoolDates, Finset.Icc_eq_empty (by omega)]
    rfl
  · have hday : ReportDay (cutOff b now) := h.cutOff_le (by omega) le_rfl
    have hnarrow := h.narrow
    have hwide : cutOff b now - a < maxSpanDays := by
      unfold cutOff maxSpanDays
      omega
    rw [if_neg hclosed, if_neg hclosed]
    rw [schoolDaysIn_dateString (h.reportDay le_rfl h.le) hday, if_pos hwide,
      dayStart_dateString ha]
    change (addDays (dateString (cutOff b now)) 1 >>= _) = _
    rw [addDays_dateString hcut]
    change (dayStart (dateString (cutOff b now + 1)) >>= _) = _
    rw [dayStart_dateString hday.inYears_add_one]
    rfl

end Window

/-! ### One bucket -/

/-- A bucket of the chart, as it is shown. -/
structure ShownAs (b now : ℤ) (rows : List BookingRequest) (slots : List HeldSlot)
    (bucket : CalendarBucket) (shown : TrendBucket) : Prop where
  same : shown.toCalendarBucket = bucket
  future : shown.future = decide (bangkokDay now - 1 < bucket.span.1)
  counts : shown.counts = ∑ d ∈ Finset.Icc bucket.span.1 bucket.span.2, countsOn rows d
  schoolDays : shown.schoolDays =
    ∑ d ∈ Finset.Icc bucket.span.1 bucket.span.2, schoolDay (cutOff b now) d
  heldHours : shown.heldHours = hoursBy slots bucket.span.1 bucket.span.2

section Bucket

variable {a b now : ℤ} {rows : List BookingRequest} {slots : List HeldSlot}

theorem foldlM_splitAndClip {x y : ℤ} (hx : ReportDay x) (hy : ReportDay y)
    (hslots : ∀ slot ∈ slots, Plausible slot.toSpan) :
    slots.foldlM (fun (sum : ℚ) slot ↦ do
      return number (sum + (← splitAndClip slot.toSpan (dateString x) (dateString y)))) 0 =
      .ok (hoursBy slots x y) := by
  obtain ⟨hours, hhours, hsum⟩ := foldlM_ok_of (l := slots) (b := (0 : ℚ))
    (f := fun (sum : ℚ) (slot : HeldSlot) ↦ do
      return number (sum + (← splitAndClip slot.toSpan (dateString x) (dateString y))))
    (fun done sum ↦ sum = hoursBy done x y) rfl fun done slot hslot sum hsum ↦ by
      unfold splitAndClip
      rw [splitAndClipMs_dateString hx hy (hslots slot hslot)]
      refine ⟨_, rfl, ?_⟩
      rw [hsum]
      simp [hoursBy]
  rw [hhours, hsum]

theorem clippedSchoolDays_dateString (h : Showable a b now) {x y : ℤ} (hax : a ≤ x) (hxy : x ≤ y)
    (hyb : y ≤ b) :
    clippedSchoolDays (dateString x) (dateString y)
        ((windowOf a b now).opened.map OpenReportWindow.effectiveEndDate) =
      .ok (schoolDates x (min y (cutOff b now))) := by
  have hx := h.reportDay hax (hxy.trans hyb)
  have hy := h.reportDay (hax.trans hxy) hyb
  unfold windowOf
  dsimp only
  by_cases hclosed : cutOff b now < a
  · rw [if_pos hclosed, schoolDates, Finset.Icc_eq_empty (by omega)]
    rfl
  · have hc : ReportDay (cutOff b now) := h.cutOff_le (by omega) le_rfl
    rw [if_neg hclosed]
    unfold clippedSchoolDays
    simp only [Option.map_some, compareDate_pos_iff hx.inYears hc.inYears,
      compareDate_pos_iff hy.inYears hc.inYears]
    by_cases hafter : cutOff b now < x
    · rw [if_pos hafter, schoolDates, Finset.Icc_eq_empty (by omega)]
      rfl
    · have hclip : (if cutOff b now < y then dateString (cutOff b now) else dateString y) =
          dateString (min y (cutOff b now)) := by
        split
        · rw [min_eq_right (by omega)]
        · rw [min_eq_left (by omega)]
      have hmin : ReportDay (min y (cutOff b now)) := hx.of_le hy (by omega) (by omega)
      have hnarrow := h.narrow
      rw [if_neg hafter, hclip, schoolDaysIn_dateString hx hmin,
        if_pos (by unfold maxSpanDays; omega)]

theorem trendBucket_dateString (h : Showable a b now)
    (hrows : ∀ r ∈ rows, InYears (bangkokDay r.firstStartAt))
    (hslots : ∀ slot ∈ slots, Plausible slot.toSpan)
    (hclosed : (windowOf a b now).opened = none → slots = []) {bucket : CalendarBucket}
    (hdated : bucket.fromDate = dateString bucket.span.1 ∧ bucket.toDate = dateString bucket.span.2)
    (hspan : a ≤ bucket.span.1 ∧ bucket.span.1 ≤ bucket.span.2 ∧ bucket.span.2 ≤ b) :
    ∃ shown, trendBucket (windowOf a b now) (foldStatusCounts rows).2 slots bucket = .ok shown ∧
      ShownAs b now rows slots bucket shown := by
  obtain ⟨hax, hxy, hyb⟩ := hspan
  have hx := h.reportDay hax (hxy.trans hyb)
  have hy := h.reportDay (hax.trans hxy) hyb
  unfold trendBucket
  rw [hdated.1, hdated.2, sumDailyCounts_dateString hx.inYears hy.inYears hrows,
    clippedSchoolDays_dateString h hax hxy hyb, foldlM_splitAndClip hx hy hslots]
  have hfuture : decide (0 < compareDate (dateString bucket.span.1)
      (windowOf a b now).dataUntilDate) = decide (bangkokDay now - 1 < bucket.span.1) :=
    decide_eq_decide.2 (compareDate_pos_iff hx.inYears h.yesterday)
  rw [hfuture]
  cases hopen : (windowOf a b now).opened with
  | some o =>
    exact ⟨_, rfl, rfl, rfl, rfl, (sum_schoolDay _ _ _).symm, rfl⟩
  | none =>
    refine ⟨_, rfl, rfl, rfl, rfl, (sum_schoolDay _ _ _).symm, ?_⟩
    rw [hclosed hopen]
    rfl

end Bucket

/-! ### The charts -/

/-- A loop over a list that succeeds with every element. -/
theorem mapM_ok_of {α β ε : Type} {f : α → Except ε β} {R : α → β → Prop} {l : List α}
    (h : ∀ a ∈ l, ∃ b, f a = .ok b ∧ R a b) : ∃ bs, l.mapM f = .ok bs ∧ List.Forall₂ R l bs := by
  induction l with
  | nil => exact ⟨[], rfl, .nil⟩
  | cons a l ih =>
    obtain ⟨b, hb, hR⟩ := h a List.mem_cons_self
    obtain ⟨bs, hbs, hall⟩ := ih fun a' ha' ↦ h a' (List.mem_cons_of_mem _ ha')
    refine ⟨b :: bs, ?_, .cons hR hall⟩
    rw [List.mapM_cons, hb]
    change (l.mapM f >>= _) = _
    rw [hbs]
    rfl

/-- What a figure of the buckets comes to, if it is counted per day. -/
theorem sum_of_forall₂ {M : Type} [AddCommMonoid M] {a b : ℤ} {buckets : List CalendarBucket}
    {trend : List TrendBucket} {R : CalendarBucket → TrendBucket → Prop}
    (h : List.Forall₂ R buckets trend) (htiles : Tiles b a (buckets.map CalendarBucket.span))
    (figure : TrendBucket → M) (perDay : ℤ → M)
    (hR : ∀ bucket shown, R bucket shown →
      figure shown = ∑ d ∈ Finset.Icc bucket.span.1 bucket.span.2, perDay d) :
    (trend.map figure).sum = ∑ d ∈ Finset.Icc a b, perDay d := by
  rw [← htiles.sum_Icc perDay, List.map_map]
  clear htiles
  induction h with
  | nil => rfl
  | cons hb _ ih =>
    rw [List.map_cons, List.sum_cons, List.map_cons, List.sum_cons, ih, hR _ _ hb]
    rfl

/-- A chart of `[a, b]` adds up to the report. -/
structure AddsUp (a b now : ℤ) (o : Overview) (slots : List HeldSlot) (trend : List TrendBucket) :
    Prop where
  /-- The buckets tile the range. -/
  tiles : Tiles b a (trend.map fun t ↦ t.toCalendarBucket.span)
  counts : (trend.map TrendBucket.counts).sum = o.requests
  schoolDays : (trend.map TrendBucket.schoolDays).sum = o.window.schoolDays
  /-- The buckets also hold what the slots of the report hold after the cut-off. -/
  held : (trend.map fun t ↦ heldBy slots t.span.1 t.span.2).sum =
    o.heldMs + heldBy slots (cutOff b now + 1) b
  /-- They show it in hours, and round. -/
  shown : ∀ t ∈ trend,
    Rounded (slots.length + 1) (heldBy slots t.span.1 t.span.2 / hourMs) t.heldHours
  /-- A bucket of the future is empty, but for slots that were under way at the cut-off. -/
  future : ∀ t ∈ trend, t.future = true → t.counts = 0 ∧ t.schoolDays = 0 ∧
    ((∀ slot ∈ slots, slot.endAt ≤ (cutOff b now + 1) * msPerDay - 25200000) → t.heldHours = 0)

section Chart

variable {d : View} {a b now : ℤ} {filter : ReportFilter}

/-- The requests of a report start on its days. -/
theorem day_of_mem_requestRows {r : BookingRequest}
    (hr : r ∈ requestRows d (windowOf a b now) filter) :
    a ≤ bangkokDay r.firstStartAt ∧ bangkokDay r.firstStartAt ≤ cutOff b now := by
  unfold requestRows windowOf at hr
  dsimp only at hr
  by_cases hclosed : cutOff b now < a
  · rw [if_pos hclosed] at hr
    cases hr
  · rw [if_neg hclosed] at hr
    have hwhere := (List.mem_filter.1 hr).2
    simp only [attributedRequestWhere, Bool.and_eq_true, decide_eq_true_eq] at hwhere
    obtain ⟨⟨⟨hS, hE⟩, -⟩, -⟩ := hwhere
    unfold bangkokDay day inBangkok bangkokUtcOffsetMinutes
    unfold msPerDay at *
    omega

/-- A closed window has no slots. -/
theorem slotRows_of_closed (d : View) (filter : ReportFilter)
    (h : (windowOf a b now).opened = none) :
    slotRows d (windowOf a b now) filter = [] := by
  unfold slotRows
  rw [h]

/-- What holds of all slots holds of those of a report. -/
theorem of_mem_slotRows {P : Span → Prop} {w : ReportWindow}
    (hslots : ∀ s : BookingSlot, s ∈ d.all .slot → P ⟨s.startAt, s.endAt⟩) :
    ∀ slot ∈ slotRows d w filter, P slot.toSpan := by
  intro slot hslot
  unfold slotRows at hslot
  split at hslot
  · obtain ⟨s, hs, rfl⟩ := List.mem_map.1 hslot
    exact hslots s (List.mem_of_mem_filter hs)
  · cases hslot

/-- The held time of the report. -/
theorem heldTotals_windowOf (h : Showable a b now) {slots : List HeldSlot}
    (hslots : ∀ slot ∈ slots, Plausible slot.toSpan)
    (hclosed : (windowOf a b now).opened = none → slots = []) :
    ∃ held, heldTotals (windowOf a b now) slots = .ok held ∧
      held.1 = heldBy slots a (cutOff b now) := by
  unfold heldTotals
  by_cases hc : cutOff b now < a
  · have hopen : (windowOf a b now).opened = none := by unfold windowOf; exact if_pos hc
    rw [hclosed hopen, hopen]
    exact ⟨_, rfl, rfl⟩
  · have hopen : (windowOf a b now).opened = some ⟨dateString (cutOff b now),
        a * msPerDay - 25200000, (cutOff b now + 1) * msPerDay - 25200000⟩ := by
      unfold windowOf
      exact if_neg hc
    obtain ⟨acc, hacc, hfolded⟩ := foldHeldMs_dateString (h.reportDay le_rfl h.le)
      (h.cutOff_le (by omega) le_rfl) hslots
    rw [hopen]
    exact ⟨acc, hacc, hfolded.total⟩

/-- A slot that touches too many days makes the report throw. -/
theorem heldTotals_of_oversized (h : Showable a b now) {slots : List HeldSlot}
    (hslots : ∀ slot ∈ slots, InReportYears slot.toSpan)
    (hclosed : (windowOf a b now).opened = none → slots = [])
    (hsize : ∃ slot ∈ slots, Oversized slot.toSpan) :
    heldTotals (windowOf a b now) slots = .error .slotTooLong := by
  unfold heldTotals
  cases hopen : (windowOf a b now).opened with
  | none =>
    obtain ⟨slot, hslot, -⟩ := hsize
    rw [hclosed hopen] at hslot
    cases hslot
  | some o =>
    unfold windowOf at hopen
    dsimp only at hopen
    split at hopen
    · cases hopen
    · next hc =>
      obtain rfl := Option.some.inj hopen
      exact foldHeldMs_of_oversized (h.reportDay le_rfl h.le) (h.cutOff_le (by omega) le_rfl)
        (by omega) hslots hsize

/-- The report's own figures are counted per day as well. -/
theorem chart_addsUp (h : Showable a b now) {rows : List BookingRequest} {slots : List HeldSlot}
    (hrows : ∀ r ∈ rows, a ≤ bangkokDay r.firstStartAt ∧ bangkokDay r.firstStartAt ≤ cutOff b now)
    (hslots : ∀ slot ∈ slots, Plausible slot.toSpan)
    (hclosed : (windowOf a b now).opened = none → slots = []) {buckets : List CalendarBucket}
    (hbuckets : BucketsOf a b buckets) {o : Overview} (hwindow : o.window = windowOf a b now)
    (hcounts : o.requests = countsOf rows) (hheld : o.heldMs = heldBy slots a (cutOff b now)) :
    ∃ trend, buckets.mapM (trendBucket (windowOf a b now) (foldStatusCounts rows).2 slots) =
      .ok trend ∧ AddsUp a b now o slots trend := by
  have hcut : cutOff b now ≤ b := min_le_left _ _
  -- Every row of the chart is drawn, each as the sums over its own days.
  have hyear : ∀ r ∈ rows, InYears (bangkokDay r.firstStartAt) := fun r hr ↦
    (h.cutOff_le (hrows r hr).1 (hrows r hr).2).inYears
  obtain ⟨trend, htrend, hshown⟩ := mapM_ok_of (l := buckets) fun bucket hbucket ↦
    trendBucket_dateString h hyear hslots hclosed (hbuckets.dated bucket hbucket)
      (hbuckets.tiles.bounds (List.mem_map_of_mem hbucket))
  have hsum := fun {M : Type} [AddCommMonoid M] ↦ sum_of_forall₂ (M := M) hshown hbuckets.tiles
  have hmem : ∀ t ∈ trend, ∃ bucket, ShownAs b now rows slots bucket t := by
    clear hsum htrend hbuckets
    induction hshown with
    | nil => exact fun t ht ↦ absurd ht List.not_mem_nil
    | cons hb _ ih =>
      intro t ht
      rcases List.mem_cons.1 ht with rfl | ht
      · exact ⟨_, hb⟩
      · exact ih t ht
  -- The tiling, the three sums, the hours shown, and what lies in the future.
  refine ⟨trend, htrend, ?_, ?_, ?_, ?_, fun t ht ↦ ?_, ?_⟩
  · have hspans : trend.map (fun t ↦ t.toCalendarBucket.span) =
        buckets.map CalendarBucket.span := by
      clear hsum htrend hbuckets hmem
      induction hshown with
      | nil => rfl
      | cons hb _ ih => rw [List.map_cons, List.map_cons, ih, hb.same]
    rw [hspans]
    exact hbuckets.tiles
  · rw [hsum TrendBucket.counts (countsOn rows) fun _ _ hb ↦ hb.counts, sum_countsOn, hcounts]
    refine congrArg countsOf (List.filter_eq_self.2 fun r hr ↦ ?_)
    have := hrows r hr
    exact decide_eq_true ⟨this.1, by omega⟩
  · rw [hsum TrendBucket.schoolDays (schoolDay (cutOff b now)) fun _ _ hb ↦ hb.schoolDays,
      sum_schoolDay, min_eq_right hcut, hwindow]
    rfl
  · rw [hsum (fun t ↦ heldBy slots t.span.1 t.span.2) (heldOnDay slots) fun _ _ hb ↦ by
      rw [hb.same, sum_heldOnDay], sum_heldOnDay, hheld]
    -- Where nothing of the range is over, there are no slots to add up.
    by_cases hc : cutOff b now < a
    · have hnil : slots = [] := hclosed (by unfold windowOf; exact if_pos hc)
      rw [hnil]
      rfl
    · exact heldBy_range slots (by omega) hcut
  · obtain ⟨bucket, hb⟩ := hmem t ht
    rw [hb.heldHours, hb.same]
    exact rounded_hoursBy slots _ _
  -- A bucket after the cut-off has no day that is counted.
  · intro t ht hfuture
    obtain ⟨bucket, hb⟩ := hmem t ht
    rw [hb.future, decide_eq_true_eq] at hfuture
    have hafter : cutOff b now < bucket.span.1 := by
      have : cutOff b now ≤ bangkokDay now - 1 := min_le_right _ _
      omega
    refine ⟨?_, ?_, fun hends ↦ ?_⟩
    · rw [hb.counts, sum_countsOn]
      refine (congrArg countsOf (List.filter_eq_nil_iff.2 fun r hr ↦ ?_)).trans rfl
      have := hrows r hr
      simp only [decide_eq_true_eq]
      omega
    · rw [hb.schoolDays, sum_schoolDay, schoolDates, Finset.Icc_eq_empty (by omega)]
      rfl
    · have hrounded := rounded_hoursBy slots bucket.span.1 bucket.span.2
      rw [heldBy_eq_zero hafter hends, Int.cast_zero, zero_div] at hrounded
      rw [hb.heldHours]
      exact hrounded.eq_zero

end Chart

/-! ### The report -/

/-- A date of the years 1001 to 9998. -/
def ChartDate (dateStr : JsString) : Prop :=
  1001 ≤ yearFromDay (dayOf dateStr) ∧ yearFromDay (dayOf dateStr) ≤ 9998

instance (dateStr : JsString) : Decidable (ChartDate dateStr) :=
  inferInstanceAs (Decidable (_ ∧ _))

/-- The year of a date is the one that was read. -/
theorem year_of_parse {dateStr : JsString} {p : DateParts} (h : parseDateStrict dateStr = some p) :
    p.year = yearFromDay (dayOf dateStr) := by
  have hday : dayOf dateStr = dateUTC p.year (p.month - 1) p.day := by
    unfold dayOf
    rw [h]
  rw [hday]
  unfold parseDateStrict at h
  split at h
  · split at h
    · dsimp only at h
      split_ifs at h with hfields
      obtain rfl := Option.some.inj h
      push Not at hfields
      exact hfields.1.symm
    · cases h
  · cases h

/-- An accepted range of these years is one of days. -/
theorem chartDays_of_parse {startRaw endRaw : JsString} {range : ReportRange}
    (h : parseReportRange startRaw endRaw = .ok range) (hstart : ChartDate startRaw)
    (hend : ChartDate endRaw) :
    ∃ a b, ChartDays a b ∧ startRaw = dateString a ∧ endRaw = dateString b ∧
      range = ⟨dateString a, dateString b, b - a + 1⟩ := by
  unfold parseReportRange parseReportDate at h
  cases hs : parseDateStrict startRaw with
  | none =>
    rw [hs] at h
    cases h
  | some p =>
    cases he : parseDateStrict endRaw with
    | none =>
      rw [hs, he] at h
      cases h
    | some q =>
      obtain ⟨a, ha, rfl, -⟩ := dateString_of_parse hs (by
        rw [year_of_parse hs]; have := hstart.1; omega)
      obtain ⟨b, hb, rfl, -⟩ := dateString_of_parse he (by
        rw [year_of_parse he]; have := hend.1; omega)
      rw [hs, he] at h
      simp only [Option.map_some, compareDate_pos_iff ha hb, inclusiveDays_dateString ha hb] at h
      split at h
      · cases h
      · change (if reportMaxDays < b - a + 1 then _ else _) = _ at h
        split at h
        · cases h
        · next hle hwide =>
          unfold ChartDate at hstart hend
          rw [dayOf_dateString ha] at hstart
          rw [dayOf_dateString hb] at hend
          unfold reportMaxDays at hwide
          exact ⟨a, b, ⟨by omega, hstart.1, hend.2, by omega⟩, rfl, rfl, (Except.ok.inj h).symm⟩

/-- **The trend adds up.** An accepted range of the years 1001 to 9998 has a report, unless a slot
of it touches more days than `MAX_SPAN_DAYS`, which makes the report throw. The buckets of its
charts tile the range, and their status counts and school days come to those of the report. So does
their held time if no slot goes on past the cut-off; otherwise they hold what it holds after the
cut-off as well. A bucket of the future is empty but for such slots. -/
theorem trend_adds_up {d : View} {now : ℤ} {startRaw endRaw : JsString} {filter : ReportFilter}
    {range : ReportRange} (hrange : parseReportRange startRaw endRaw = .ok range)
    (hstart : ChartDate startRaw) (hend : ChartDate endRaw) (htoday : InYears (bangkokDay now))
    (hyesterday : InYears (bangkokDay now - 1))
    (hslots : ∀ s : BookingSlot, s ∈ d.all .slot → InReportYears ⟨s.startAt, s.endAt⟩) :
    ∃ w, reportWindowAt range now = .ok w ∧
      ((∃ slot ∈ slotRows d w filter, Oversized slot.toSpan) →
        getOverview d now startRaw endRaw filter = .error (.thrown .slotTooLong)) ∧
      ((∀ slot ∈ slotRows d w filter, ¬ Oversized slot.toSpan) →
        ∃ o, getOverview d now startRaw endRaw filter = .ok o ∧ o.window = w ∧
          ∀ trend, trend = o.month ∨ trend = o.week →
            AddsUp (dayOf startRaw) (dayOf endRaw) now o (slotRows d w filter) trend ∧
            ((∀ slot ∈ slotRows d w filter,
                slot.endAt ≤ (cutOff (dayOf endRaw) now + 1) * msPerDay - 25200000) →
              (trend.map fun t ↦ heldBy (slotRows d w filter) t.span.1 t.span.2).sum =
                o.heldMs)) := by
  obtain ⟨a, b, hdays, rfl, rfl, rfl⟩ := chartDays_of_parse hrange hstart hend
  have h : Showable a b now := ⟨hdays, htoday, hyesterday⟩
  obtain ⟨ha, hb⟩ := hdays.inYears
  rw [dayOf_dateString ha, dayOf_dateString hb]
  have hyears : ∀ slot ∈ slotRows d (windowOf a b now) filter, InReportYears slot.toSpan :=
    of_mem_slotRows hslots
  refine ⟨windowOf a b now, reportWindowAt_dateString h, fun hsize ↦ ?_, fun hsize ↦ ?_⟩
  -- A slot that is too long makes the totals throw, before anything is drawn.
  · have hthrows := heldTotals_of_oversized h hyears (slotRows_of_closed d filter) hsize
    unfold getOverview
    rw [hrange]
    change ((reportWindowAt _ now).mapError _ >>= _) = _
    rw [reportWindowAt_dateString h]
    change ((heldTotals (windowOf a b now) (slotRows d (windowOf a b now) filter)).mapError _ >>=
      _) = _
    rw [hthrows]
    rfl
  have hplausible : ∀ slot ∈ slotRows d (windowOf a b now) filter, Plausible slot.toSpan :=
    fun slot hslot ↦ (hyears slot hslot).ordinary (hsize slot hslot)
  obtain ⟨held, hheld, htotal⟩ :=
    heldTotals_windowOf h hplausible (slotRows_of_closed d filter)
  -- The months and the weeks tile the same days, so both charts add up to the same figures.
  obtain ⟨months, weeks, hmonths, hweeks, hmonth, hweek⟩ := buckets_tile hdays
  have hchart := fun {buckets : List CalendarBucket} (hbuckets : BucketsOf a b buckets) ↦
    chart_addsUp (o := ⟨windowOf a b now, countsOf (requestRows d (windowOf a b now) filter),
      held.1, held.2, [], []⟩) h (fun _ hr ↦ day_of_mem_requestRows hr) hplausible
      (slotRows_of_closed d filter) hbuckets rfl rfl htotal
  obtain ⟨month, hmonthOk, hmonthAdds⟩ := hchart hmonth
  obtain ⟨week, hweekOk, hweekAdds⟩ := hchart hweek
  refine ⟨⟨windowOf a b now, countsOf (requestRows d (windowOf a b now) filter), held.1, held.2,
    month, week⟩, ?_, rfl, fun trend htrend ↦ ?_⟩
  · unfold getOverview
    rw [hrange]
    change ((reportWindowAt _ now).mapError _ >>= _) = _
    rw [reportWindowAt_dateString h]
    simp only [Except.mapError, Bind.bind, Except.bind, hheld, hmonths, hweeks, hmonthOk, hweekOk,
      (foldStatusCounts_eq _).1]
    rfl
  · have hadds : AddsUp a b now ⟨windowOf a b now,
        countsOf (requestRows d (windowOf a b now) filter), held.1, held.2, month, week⟩
        (slotRows d (windowOf a b now) filter) trend := by
      rcases htrend with rfl | rfl
      exacts [⟨hmonthAdds.tiles, hmonthAdds.counts, hmonthAdds.schoolDays, hmonthAdds.held,
        hmonthAdds.shown, hmonthAdds.future⟩, ⟨hweekAdds.tiles, hweekAdds.counts,
        hweekAdds.schoolDays, hweekAdds.held, hweekAdds.shown, hweekAdds.future⟩]
    refine ⟨hadds, fun hends ↦ ?_⟩
    rw [hadds.held, heldBy_eq_zero (by omega) hends, add_zero]

/-- Six weeks of 1970, two hours of which are booked; the report is of the second week. -/
theorem trend_adds_up_direct : ∃ o,
    getOverview (after Sample.directRun).store.committed 950400000 (lit "1970-01-01")
        (lit "1970-02-10") ⟨none, fun _ ↦ true⟩ = .ok o ∧
      (o.month.map TrendBucket.counts).sum = o.requests ∧
      (o.week.map TrendBucket.schoolDays).sum = o.window.schoolDays := by
  have hrange : parseReportRange (lit "1970-01-01") (lit "1970-02-10") =
      .ok ⟨lit "1970-01-01", lit "1970-02-10", 41⟩ := by
    have hstart : parseReportDate (lit "1970-01-01") = some (lit "1970-01-01") := by decide +kernel
    have hend : parseReportDate (lit "1970-02-10") = some (lit "1970-02-10") := by decide +kernel
    have hdays : inclusiveDays (lit "1970-01-01") (lit "1970-02-10") = .ok 41 := by decide +kernel
    unfold parseReportRange
    rw [hstart, hend]
    dsimp only
    rw [hdays, if_neg (by decide +kernel)]
    rfl
  obtain ⟨w, hw, -, hreport⟩ := @trend_adds_up (after Sample.directRun).store.committed 950400000
    _ _ ⟨none, fun _ ↦ true⟩ _ hrange (by decide +kernel) (by decide +kernel)
    (by unfold InYears; decide +kernel) (by unfold InYears; decide +kernel) (by decide +kernel)
  obtain ⟨o, ho, -, hadds⟩ := hreport (of_mem_slotRows (P := (¬ Oversized ·)) (by decide +kernel))
  exact ⟨o, ho, (hadds o.month (.inl rfl)).1.counts, (hadds o.week (.inr rfl)).1.schoolDays⟩

end EasyBook.Reports

import EasyBook.Ecma.Number
import EasyBook.Ecma.OrderedMap
import EasyBook.Reports.SchoolWindow

/-!
# Held time of a report

`foldHeldMs` and `occupancyOf` of `report-fold.ts`, over `splitAndClipMs`. For dates and slots of
the years 1000 to 9998 the code counts the instants of `heldMs` (`splitAndClipMs_dateString`),
unless a slot touches more days than `MAX_SPAN_DAYS`: such a slot makes it throw
(`foldHeldMs_of_oversized`). What the reports rest on follows (`clipping_is_measure`).
-/

namespace EasyBook.Reports

open JsDate JsNumber JsString

/-- A slot with its venue. -/
structure HeldSlot extends Span where
  venueId : Cuid

/-- `foldHeldMs`: `totalMs` and `msByVenue`. -/
def foldHeldMs (slots : List HeldSlot) (startDate effectiveEndDate : JsString) :
    Except CalendarError (ℤ × List (Cuid × ℤ)) :=
  slots.foldlM (fun acc slot ↦ do
    let ms ← splitAndClipMs slot.toSpan startDate effectiveEndDate
    if ms ≤ 0 then return acc
    return (acc.1 + ms, mapSet acc.2 slot.venueId ((acc.2.lookup slot.venueId).getD 0 + ms)))
    (0, [])

/-- `SCHOOL_DAY_HOURS`. -/
def schoolDayHours : ℕ := 8

/-- Milliseconds by `HOUR_MS`. -/
def hoursOf (ms : ℤ) : ℚ := number (ms / hourMs)

/-- `splitAndClip`. -/
def splitAndClip (slot : Span) (fromStr toStr : JsString) : Except CalendarError ℚ := do
  return hoursOf (← splitAndClipMs slot fromStr toStr)

/-- `OccupancyDto`. -/
structure Occupancy where
  heldHours : ℚ
  schoolDays : ℕ
  venueCount : ℕ
  occupancyPercent : Option ℚ

/-- Held hours in percent of those that there are. -/
def occupancyPercentOf (heldHours : ℚ) (denominator : ℕ) : ℚ :=
  number (number (heldHours / denominator) * 100)

/-- `occupancyOf`. -/
def occupancyOf (heldHours : ℚ) (schoolDays venueCount : ℕ) : Occupancy :=
  let denominator := schoolDays * schoolDayHours * venueCount
  { heldHours, schoolDays, venueCount
    occupancyPercent :=
      if 0 < denominator then some (occupancyPercentOf heldHours denominator) else none }

/-! ### Dates and slots of a report -/

/-- A day of the years 1000 to 9998. -/
def ReportDay (d : ℤ) : Prop := 1000 ≤ yearFromDay d ∧ yearFromDay d ≤ 9998

instance (d : ℤ) : Decidable (ReportDay d) := inferInstanceAs (Decidable (_ ∧ _))

theorem ReportDay.inYears {d : ℤ} (h : ReportDay d) : InYears d :=
  inYears_of_year h.1 (by have := h.2; omega)

theorem ReportDay.inYears_add_one {d : ℤ} (h : ReportDay d) : InYears (d + 1) := by
  have hd := h.inYears
  refine ⟨by have := hd.1; omega, ?_⟩
  have := (yearFromDay_bounds d).2
  have := dayFromYear_strictMono.monotone (show yearFromDay d + 1 ≤ 9999 by have := h.2; omega)
  have := dayFromYear_lt_succ 9999
  norm_num at this
  omega

theorem ReportDay.of_le {a b d : ℤ} (ha : ReportDay a) (hb : ReportDay b) (h : a ≤ d)
    (h' : d ≤ b) : ReportDay d :=
  ⟨ha.1.trans (yearFromDay_mono h), (yearFromDay_mono h').trans hb.2⟩

/-- The day of a date. -/
def dayOf (dateStr : JsString) : ℤ :=
  match parseDateStrict dateStr with
  | some p => dateUTC p.year (p.month - 1) p.day
  | none => 0

/-- A date of the years 1000 to 9998. -/
def ReportDate (dateStr : JsString) : Prop :=
  ∃ p, parseDateStrict dateStr = some p ∧ 1000 ≤ p.year ∧ p.year ≤ 9998

theorem dayOf_dateString {d : ℤ} (h : InYears d) : dayOf (dateString d) = d := by
  unfold dayOf
  rw [parseDateStrict_dateString h]
  have hutc := dateUTC_of_inYears h 0
  rwa [add_zero, add_zero] at hutc

theorem ReportDate.exists_day {dateStr : JsString} (h : ReportDate dateStr) :
    ∃ d, ReportDay d ∧ dateStr = dateString d ∧ dayOf dateStr = d := by
  obtain ⟨p, hp, hy, hy'⟩ := h
  obtain ⟨d, hd, rfl, rfl⟩ := dateString_of_parse hp hy
  exact ⟨d, ⟨hy, hy'⟩, rfl, dayOf_dateString hd⟩

/-- A slot of these years that touches at most `MAX_SPAN_DAYS` days. -/
def Plausible (slot : Span) : Prop :=
  slot.startAt < slot.endAt → ReportDay (bangkokDay slot.startAt) ∧
    ReportDay (bangkokDay (slot.endAt - 1)) ∧
    bangkokDay (slot.endAt - 1) - bangkokDay slot.startAt < maxSpanDays

instance (slot : Span) : Decidable (Plausible slot) := inferInstanceAs (Decidable (_ → _))

/-- A slot of these years, be it as long as it may. -/
def InReportYears (slot : Span) : Prop :=
  slot.startAt < slot.endAt → ReportDay (bangkokDay slot.startAt) ∧
    ReportDay (bangkokDay (slot.endAt - 1))

instance (slot : Span) : Decidable (InReportYears slot) := inferInstanceAs (Decidable (_ → _))

/-- A slot that touches more than `MAX_SPAN_DAYS` days. -/
def Oversized (slot : Span) : Prop :=
  slot.startAt < slot.endAt ∧
    maxSpanDays ≤ bangkokDay (slot.endAt - 1) - bangkokDay slot.startAt

instance (slot : Span) : Decidable (Oversized slot) := inferInstanceAs (Decidable (_ ∧ _))

theorem InReportYears.ordinary {slot : Span} (h : InReportYears slot) (hsize : ¬ Oversized slot) :
    Plausible slot := by
  intro hlt
  obtain ⟨hfirst, hlast⟩ := h hlt
  exact ⟨hfirst, hlast, lt_of_not_ge fun hge ↦ hsize ⟨hlt, hge⟩⟩

/-- A part of a plausible slot is plausible. -/
theorem Plausible.of_le {slot slot' : Span} (h : Plausible slot')
    (hs : slot'.startAt ≤ slot.startAt) (he : slot.endAt ≤ slot'.endAt) : Plausible slot := by
  intro hlt
  obtain ⟨hfirst, hlast, hspan⟩ := h (by omega)
  have h₁ := bangkokDay_mono hs
  have h₂ := bangkokDay_mono (show slot.startAt ≤ slot.endAt - 1 by omega)
  have h₃ := bangkokDay_mono (show slot.endAt - 1 ≤ slot'.endAt - 1 by omega)
  exact ⟨hfirst.of_le hlast h₁ (by omega), hfirst.of_le hlast (by omega) h₃, by omega⟩

/-! ### What the code counts -/

/-- The segment of a slot on a day. -/
def segmentOn (first last : ℤ) (slot : Span) (d : ℤ) : Option ClippedSegment :=
  if ((first ≤ d ∧ d ≤ last) ∧ SchoolDate d) ∧
      max slot.startAt (windowStart d) < min slot.endAt (windowEnd d) then
    some ⟨dateString d, isoWeekday d, max slot.startAt (windowStart d),
      min slot.endAt (windowEnd d)⟩
  else none

theorem schoolWindowStartMs_dateString {d : ℤ} (h : InYears d) :
    schoolWindowStartMs (dateString d) = .ok (windowStart d) := by
  unfold schoolWindowStartMs windowStart
  rw [windowInstant_dateString h]
  exact congrArg Except.ok (by ring)

theorem schoolWindowEndMs_dateString {d : ℤ} (h : InYears d) :
    schoolWindowEndMs (dateString d) = .ok (windowEnd d) := by
  unfold schoolWindowEndMs windowEnd
  rw [windowInstant_dateString h]
  exact congrArg Except.ok (by ring)

theorem clipOn_dateString {first last d : ℤ} (hf : InYears first) (hl : InYears last)
    (hd : InYears d) (slot : Span) :
    clipOn slot (dateString first) (dateString last) (dateString d) =
      .ok (segmentOn first last slot d) := by
  unfold clipOn segmentOn
  rw [isSchoolDay_dateString hd, schoolWindowStartMs_dateString hd, schoolWindowEndMs_dateString hd,
    isoWeekdayOf_dateString hd]
  simp only [compareDate_nonneg_iff hd hf, compareDate_le_iff hd hl]
  by_cases hin : first ≤ d ∧ d ≤ last
  · by_cases hschool : SchoolDate d
    · by_cases hlt : max slot.startAt (windowStart d) < min slot.endAt (windowEnd d)
      · rw [if_pos hin, if_pos ⟨⟨hin, hschool⟩, hlt⟩, decide_eq_true hschool]
        change (if _ then _ else _) = _
        rw [if_pos hlt]
        rfl
      · rw [if_pos hin, if_neg fun h ↦ hlt h.2, decide_eq_true hschool]
        change (if _ then _ else _) = _
        rw [if_neg hlt]
        rfl
    · rw [if_pos hin, if_neg fun h ↦ hschool h.1.2, decide_eq_false hschool]
      rfl
  · rw [if_neg hin, if_neg fun h ↦ hin h.1.1]
    rfl

theorem foldl_append_toList {α β : Type} (g : α → Option β) (l : List α) (segments : List β) :
    l.foldl (fun segments d ↦ segments ++ (g d).toList) segments = segments ++ l.filterMap g := by
  induction l generalizing segments with
  | nil => rw [List.foldl_nil, List.filterMap_nil, List.append_nil]
  | cons d l ih =>
    rw [List.foldl_cons, ih, List.append_assoc]
    cases hg : g d with
    | none => rw [List.filterMap_cons_none hg, Option.toList_none, List.nil_append]
    | some segment => rw [List.filterMap_cons_some hg]; rfl

/-- The segments of a slot are those of the days that it touches. -/
theorem clipToSchoolWindow_dateString {first last : ℤ} (hf : ReportDay first)
    (hl : ReportDay last) {slot : Span} (h : Plausible slot) :
    clipToSchoolWindow slot (dateString first) (dateString last) =
      .ok (if slot.startAt < slot.endAt then
        (days (bangkokDay slot.startAt) (bangkokDay (slot.endAt - 1))).filterMap
          (segmentOn first last slot)
      else []) := by
  unfold clipToSchoolWindow
  simp only [compareDate_pos_iff hf.inYears hl.inYears]
  by_cases hempty : last < first
  · rw [if_pos hempty]
    refine congrArg Except.ok ?_
    split_ifs
    · refine (List.filterMap_eq_nil_iff.2 fun d _ ↦ if_neg fun hd ↦ ?_).symm
      have := hd.1.1
      omega
    · rfl
  rw [if_neg hempty]
  by_cases hlt : slot.startAt < slot.endAt
  · obtain ⟨hs, he, hspan⟩ := h hlt
    change (if _ then _ else _) = _
    rw [if_neg (by omega), if_pos hlt]
    unfold bangkokDate
    rw [inclusiveDays_dateString hs.inYears he.inYears]
    change (if _ then _ else _) = _
    rw [if_neg (by omega)]
    refine (forDates_dateString (f := fun d segments ↦ segments ++
      (segmentOn first last slot d).toList) hs.inYears he.inYears he.inYears_add_one hspan
      (fun d hd hd' segments ↦ ?_) []).trans ?_
    · rw [clipOn_dateString hf.inYears hl.inYears (hs.of_le he hd hd').inYears]
      rfl
    · rw [foldl_append_toList]
      rfl
  · change (if _ then _ else _) = _
    rw [if_pos (by omega), if_neg hlt]
    rfl

/-- The length of a segment. -/
def ClippedSegment.ms (seg : ClippedSegment) : ℤ := seg.endMs - seg.startMs

/-- What the segments of days come to. -/
theorem sum_segmentOn (first last : ℤ) (slot : Span) (l : List ℤ) :
    ((l.filterMap (segmentOn first last slot)).map ClippedSegment.ms).sum =
      (l.map (heldOn first last slot)).sum := by
  induction l with
  | nil => rfl
  | cons d l ih =>
    rw [List.map_cons, List.sum_cons, ← ih, List.filterMap_cons]
    unfold segmentOn heldOn
    by_cases hin : (first ≤ d ∧ d ≤ last) ∧ SchoolDate d
    · by_cases hlt : max slot.startAt (windowStart d) < min slot.endAt (windowEnd d)
      · have hov : overlap slot.startAt slot.endAt (windowStart d) (windowEnd d) =
            min slot.endAt (windowEnd d) - max slot.startAt (windowStart d) := by
          unfold overlap
          omega
        rw [if_pos ⟨hin, hlt⟩, if_pos hin, hov]
        rfl
      · have hov : overlap slot.startAt slot.endAt (windowStart d) (windowEnd d) = 0 := by
          unfold overlap
          omega
        rw [if_neg fun h ↦ hlt h.2, if_pos hin, hov, zero_add]
    · rw [if_neg fun h ↦ hin h.1, if_neg hin, zero_add]

/-- The segments of a slot are as long as what it holds. -/
theorem sum_clipToSchoolWindow {first last : ℤ} (hf : ReportDay first) (hl : ReportDay last)
    {slot : Span} (h : Plausible slot) :
    ∃ segments, clipToSchoolWindow slot (dateString first) (dateString last) = .ok segments ∧
      (segments.map ClippedSegment.ms).sum = heldMs first last slot := by
  refine ⟨_, clipToSchoolWindow_dateString hf hl h, ?_⟩
  split_ifs with hlt
  · rw [sum_segmentOn, ← List.sum_toFinset _ (nodup_days _ _)]
    refine (heldMs_eq_sum fun t ht ↦ ?_).symm
    obtain ⟨hs, he⟩ := Finset.mem_Ico.1 (Finset.mem_filter.1 ht).1
    rw [List.mem_toFinset, mem_days]
    exact ⟨bangkokDay_mono hs, bangkokDay_mono (by omega)⟩
  · unfold heldMs heldInstants
    rw [Finset.Ico_eq_empty hlt]
    rfl

theorem splitAndClipMs_dateString {first last : ℤ} (hf : ReportDay first) (hl : ReportDay last)
    {slot : Span} (h : Plausible slot) :
    splitAndClipMs slot (dateString first) (dateString last) = .ok (heldMs first last slot) := by
  obtain ⟨segments, hsegments, hsum⟩ := sum_clipToSchoolWindow hf hl h
  unfold splitAndClipMs
  rw [hsegments, ← hsum]
  refine congrArg Except.ok ?_
  rw [List.sum_eq_foldl, List.foldl_map]
  rfl

theorem splitAndClipMs_of_oversized {first last : ℤ} (hf : ReportDay first) (hl : ReportDay last)
    (hle : first ≤ last) {slot : Span} (h : InReportYears slot) (hsize : Oversized slot) :
    splitAndClipMs slot (dateString first) (dateString last) = .error .slotTooLong := by
  obtain ⟨hlt, hspan⟩ := hsize
  obtain ⟨hs, he⟩ := h hlt
  unfold splitAndClipMs clipToSchoolWindow
  simp only [compareDate_pos_iff hf.inYears hl.inYears]
  rw [if_neg (by omega)]
  change ((if _ then _ else _) >>= _) = _
  rw [if_neg (by omega)]
  unfold bangkokDate
  rw [inclusiveDays_dateString hs.inYears he.inYears]
  change ((if _ then _ else _) >>= _) = _
  rw [if_pos (by omega)]
  rfl

/-! ### The fold -/

/-- What the slots of a venue hold. -/
noncomputable def heldOf (first last : ℤ) (slots : List HeldSlot) (venueId : Cuid) : ℤ :=
  ((slots.filter fun slot ↦ slot.venueId = venueId).map fun slot ↦
    heldMs first last slot.toSpan).sum

/-- What is folded of slots: the total, and an entry for every venue that holds time. -/
structure FoldedOf (first last : ℤ) (slots : List HeldSlot) (acc : ℤ × List (Cuid × ℤ)) :
    Prop where
  total : acc.1 = (slots.map fun slot ↦ heldMs first last slot.toSpan).sum
  nodup : (acc.2.map Prod.fst).Nodup
  lookup : ∀ v, acc.2.lookup v =
    if 0 < heldOf first last slots v then some (heldOf first last slots v) else none
  sum : (acc.2.map fun e ↦ e.2).sum = acc.1

theorem heldOf_nonneg (first last : ℤ) (slots : List HeldSlot) (v : Cuid) :
    0 ≤ heldOf first last slots v := by
  refine List.sum_nonneg fun x hx ↦ ?_
  obtain ⟨slot, -, rfl⟩ := List.mem_map.1 hx
  exact heldMs_nonneg first last slot.toSpan

theorem heldOf_append (first last : ℤ) (slots : List HeldSlot) (slot : HeldSlot) (v : Cuid) :
    heldOf first last (slots ++ [slot]) v = heldOf first last slots v +
      if slot.venueId = v then heldMs first last slot.toSpan else 0 := by
  unfold heldOf
  rw [List.filter_append, List.map_append, List.sum_append]
  by_cases hv : slot.venueId = v <;> simp [hv]

theorem FoldedOf.nil (first last : ℤ) : FoldedOf first last [] (0, []) :=
  ⟨rfl, List.nodup_nil, fun _ ↦ rfl, rfl⟩

theorem FoldedOf.getD {first last : ℤ} {slots : List HeldSlot} {acc : ℤ × List (Cuid × ℤ)}
    (h : FoldedOf first last slots acc) (v : Cuid) :
    (acc.2.lookup v).getD 0 = heldOf first last slots v := by
  have := heldOf_nonneg first last slots v
  rw [h.lookup]
  split_ifs
  · rfl
  · change (0 : ℤ) = _
    omega

/-- A slot that holds no time leaves everything as it is. -/
theorem FoldedOf.skip {first last : ℤ} {slots : List HeldSlot} {acc : ℤ × List (Cuid × ℤ)}
    (h : FoldedOf first last slots acc) {slot : HeldSlot}
    (hms : heldMs first last slot.toSpan = 0) : FoldedOf first last (slots ++ [slot]) acc := by
  have hheld : ∀ v, heldOf first last (slots ++ [slot]) v = heldOf first last slots v := by
    intro v
    rw [heldOf_append, hms, ite_self, add_zero]
  refine ⟨?_, h.nodup, fun v ↦ ?_, h.sum⟩
  · rw [h.total, List.map_append, List.sum_append, List.map_singleton, List.sum_singleton, hms,
      add_zero]
  · rw [hheld, h.lookup]

/-- A slot that holds time adds it to its venue. -/
theorem FoldedOf.push {first last : ℤ} {slots : List HeldSlot} {acc : ℤ × List (Cuid × ℤ)}
    (h : FoldedOf first last slots acc) {slot : HeldSlot}
    (hms : 0 < heldMs first last slot.toSpan) :
    FoldedOf first last (slots ++ [slot]) (acc.1 + heldMs first last slot.toSpan,
      mapSet acc.2 slot.venueId
        ((acc.2.lookup slot.venueId).getD 0 + heldMs first last slot.toSpan)) := by
  refine ⟨?_, nodup_keys_mapSet h.nodup, fun v ↦ ?_, ?_⟩
  · rw [h.total, List.map_append, List.sum_append, List.map_singleton, List.sum_singleton]
  · have := heldOf_nonneg first last slots slot.venueId
    rw [lookup_mapSet, h.getD, heldOf_append]
    by_cases hv : v = slot.venueId
    · subst hv
      rw [if_pos rfl, if_pos rfl, if_pos (by omega)]
    · rw [if_neg hv, if_neg (Ne.symm hv), add_zero, h.lookup]
  · have hsum := sum_mapSet (a := slot.venueId)
      (b := (acc.2.lookup slot.venueId).getD 0 + heldMs first last slot.toSpan) id h.nodup
    have := h.sum
    rw [Option.map_id] at hsum
    simp only [id_eq] at hsum ⊢
    omega

theorem foldHeldMs_dateString {first last : ℤ} (hf : ReportDay first) (hl : ReportDay last)
    {slots : List HeldSlot} (h : ∀ slot ∈ slots, Plausible slot.toSpan) :
    ∃ acc, foldHeldMs slots (dateString first) (dateString last) = .ok acc ∧
      FoldedOf first last slots acc := by
  refine foldlM_ok_of (FoldedOf first last) (.nil first last) fun done slot hslot acc hacc ↦ ?_
  rw [splitAndClipMs_dateString hf hl (h slot hslot)]
  by_cases hms : heldMs first last slot.toSpan ≤ 0
  · exact ⟨_, if_pos hms, hacc.skip (le_antisymm hms (heldMs_nonneg _ _ _))⟩
  · exact ⟨_, if_neg hms, hacc.push (not_le.1 hms)⟩

/-- A slot that touches too many days makes the fold throw. -/
theorem foldHeldMs_of_oversized {first last : ℤ} (hf : ReportDay first) (hl : ReportDay last)
    (hle : first ≤ last) {slots : List HeldSlot} (h : ∀ slot ∈ slots, InReportYears slot.toSpan)
    (hsize : ∃ slot ∈ slots, Oversized slot.toSpan) :
    foldHeldMs slots (dateString first) (dateString last) = .error .slotTooLong := by
  refine foldlM_error_of (fun slot hslot acc ↦ ?_) hsize (fun slot hslot hbig acc ↦ ?_) _
  · by_cases hbig : Oversized slot.toSpan
    · exact .inr (by rw [splitAndClipMs_of_oversized hf hl hle (h slot hslot) hbig]; rfl)
    · rw [splitAndClipMs_dateString hf hl ((h slot hslot).ordinary hbig)]
      by_cases hms : heldMs first last slot.toSpan ≤ 0
      · exact .inl ⟨_, if_pos hms⟩
      · exact .inl ⟨_, if_neg hms⟩
  · rw [splitAndClipMs_of_oversized hf hl hle (h slot hslot) hbig]
    rfl

theorem occupancyPercentOf_le {heldHours : ℚ} {denominator : ℕ} (h₀ : 0 ≤ heldHours)
    (h : heldHours ≤ denominator) (hpos : 0 < denominator) :
    occupancyPercentOf heldHours denominator ≤ 100 := by
  have hpos' : (0 : ℚ) < denominator := Nat.cast_pos.2 hpos
  have hratio₀ : 0 ≤ number (heldHours / denominator) := number_nonneg (div_nonneg h₀ hpos'.le)
  have hratio : number (heldHours / denominator) ≤ (1 : ℕ) :=
    number_le_natCast (div_nonneg h₀ hpos'.le)
      (by rw [Nat.cast_one]; exact (div_le_one hpos').2 h) (by norm_num)
  have hpercent : number (number (heldHours / denominator) * 100) ≤ (100 : ℕ) := by
    refine number_le_natCast (mul_nonneg hratio₀ (by norm_num)) ?_ (by norm_num)
    push_cast at hratio ⊢
    linarith
  exact_mod_cast hpercent

/-- Time that fits into the hours that there are takes at most all of them. -/
theorem occupancyOf_le {ms : ℤ} {n venueCount : ℕ} (h₀ : 0 ≤ ms)
    (h : ms ≤ 8 * hourMs * n * venueCount) (hn : n * schoolDayHours * venueCount < 2 ^ 53) :
    ∀ p ∈ (occupancyOf (hoursOf ms) n venueCount).occupancyPercent, p ≤ 100 := by
  intro p hp
  unfold occupancyOf at hp
  dsimp only at hp
  split at hp
  · next hpos =>
    obtain rfl := Option.some.inj hp
    have hhour : (0 : ℚ) < hourMs := by norm_num [hourMs]
    have hms : (0 : ℚ) ≤ ms / hourMs := div_nonneg (Int.cast_nonneg h₀) hhour.le
    have hexact : (ms : ℚ) / hourMs ≤ (n * schoolDayHours * venueCount : ℕ) := by
      rw [div_le_iff₀ hhour]
      have hcast : (ms : ℚ) ≤ 8 * hourMs * n * venueCount := by exact_mod_cast h
      unfold schoolDayHours
      push_cast
      linarith
    exact occupancyPercentOf_le (number_nonneg hms) (number_le_natCast hms hexact hn) hpos
  · cases hp

/-! ### The school days of a range -/

theorem length_filter_days (first last : ℤ) :
    ((days first last).filter fun d ↦ SchoolDate d).length = schoolDates first last := by
  rw [schoolDates, ← toFinset_days, ← List.toFinset_card_of_nodup ((nodup_days _ _).filter _),
    List.toFinset_filter]
  simp

theorem schoolDaysIn_dateString {first last : ℤ} (hf : ReportDay first) (hl : ReportDay last) :
    schoolDaysIn (dateString first) (dateString last) =
      if last - first < maxSpanDays then .ok (schoolDates first last)
      else .error .rangeTooWide := by
  unfold schoolDaysIn
  simp only [compareDate_pos_iff hf.inYears hl.inYears,
    inclusiveDays_dateString hf.inYears hl.inYears]
  by_cases hempty : last < first
  · rw [if_pos hempty, if_pos (by unfold maxSpanDays; omega), schoolDates,
      Finset.Icc_eq_empty (by omega)]
    rfl
  rw [if_neg hempty]
  change (if _ then _ else _) = _
  by_cases hspan : last - first < maxSpanDays
  · rw [if_neg (by omega), if_pos hspan,
      forDates_dateString (f := fun d count ↦ if SchoolDate d then count + 1 else count)
        hf.inYears hl.inYears hl.inYears_add_one hspan]
    · have hcount : ∀ (l : List ℤ) (count : ℕ),
          l.foldl (fun count d ↦ if SchoolDate d then count + 1 else count) count =
            count + (l.filter fun d ↦ SchoolDate d).length := by
        intro l
        induction l with
        | nil => exact fun count ↦ rfl
        | cons d l ih =>
          intro count
          rw [List.foldl_cons, ih]
          by_cases hd : SchoolDate d
          · simp [hd]
            omega
          · simp [hd]
      rw [hcount, zero_add, length_filter_days]
    · intro d hd hd' count
      rw [isSchoolDay_dateString (hf.of_le hl hd hd').inYears]
      by_cases hd : SchoolDate d <;> simp [hd]
  · rw [if_pos (by omega), if_neg hspan]
    rfl

/-! ### What the reports rest on -/

/-- Slots in another order hold the same. -/
theorem FoldedOf.perm {first last : ℤ} {slots slots' : List HeldSlot} (h : slots.Perm slots')
    {acc acc' : ℤ × List (Cuid × ℤ)} (hacc : FoldedOf first last slots acc)
    (hacc' : FoldedOf first last slots' acc') :
    acc.1 = acc'.1 ∧ ∀ v, acc.2.lookup v = acc'.2.lookup v := by
  refine ⟨?_, fun v ↦ ?_⟩
  · rw [hacc.total, hacc'.total]
    exact (h.map _).sum_eq
  · have hheld : heldOf first last slots v = heldOf first last slots' v :=
      ((h.filter _).map _).sum_eq
    rw [hacc.lookup, hacc'.lookup, hheld]

/-- What the slots of a venue hold, if they are disjoint. -/
theorem heldOf_le {first last : ℤ} {slots : List HeldSlot} {v : Cuid}
    (h : ((slots.filter fun slot ↦ slot.venueId = v).map HeldSlot.toSpan).Pairwise
      Span.Disjoint) :
    heldOf first last slots v ≤ 8 * hourMs * schoolDates first last := by
  have hle : (List.map (heldMs first last) _).sum ≤ _ := sum_heldMs_le h
  rwa [List.map_map] at hle

theorem heldOf_of_forall {first last : ℤ} {slots : List HeldSlot} {v : Cuid}
    (h : ∀ slot ∈ slots, slot.venueId = v) :
    heldOf first last slots v = (slots.map fun slot ↦ heldMs first last slot.toSpan).sum := by
  unfold heldOf
  rw [List.filter_eq_self.2 fun slot hslot ↦ decide_eq_true (h slot hslot)]

/-- The clipped time is a measure: the sum over the school dates of the range of what the slot has
in common with the window. So it is additive in range and slot, monotone in both, does not depend
on the order of the slots, and is at most what the windows have. -/
theorem clipping_is_measure {fromStr toStr : JsString} (hf : ReportDate fromStr)
    (ht : ReportDate toStr) :
    (∀ slot, Plausible slot → ∃ segments,
      clipToSchoolWindow slot fromStr toStr = .ok segments ∧
      splitAndClipMs slot fromStr toStr = .ok (segments.map ClippedSegment.ms).sum ∧
      (segments.map ClippedSegment.ms).sum =
        ∑ d ∈ (Finset.Icc (dayOf fromStr) (dayOf toStr)).filter SchoolDate,
          overlap slot.startAt slot.endAt (windowStart d) (windowEnd d)) ∧
    (∀ slot midStr, Plausible slot → ReportDate midStr → compareDate fromStr midStr ≤ 0 →
      compareDate midStr toStr < 0 → ∃ nextStr a b, addDays midStr 1 = .ok nextStr ∧
        splitAndClipMs slot fromStr midStr = .ok a ∧ splitAndClipMs slot nextStr toStr = .ok b ∧
        splitAndClipMs slot fromStr toStr = .ok (a + b)) ∧
    (∀ s m e, s ≤ m → m ≤ e → Plausible ⟨s, e⟩ → ∃ a b,
      splitAndClipMs ⟨s, m⟩ fromStr toStr = .ok a ∧ splitAndClipMs ⟨m, e⟩ fromStr toStr = .ok b ∧
        splitAndClipMs ⟨s, e⟩ fromStr toStr = .ok (a + b)) ∧
    (∀ slot slot' fromStr' toStr', Plausible slot' → ReportDate fromStr' → ReportDate toStr' →
      slot'.startAt ≤ slot.startAt → slot.endAt ≤ slot'.endAt → compareDate fromStr' fromStr ≤ 0 →
      compareDate toStr toStr' ≤ 0 → ∃ a b, splitAndClipMs slot fromStr toStr = .ok a ∧
        splitAndClipMs slot' fromStr' toStr' = .ok b ∧ a ≤ b) ∧
    (∀ slots slots' : List HeldSlot, slots.Perm slots' → (∀ slot ∈ slots, Plausible slot.toSpan) →
      ∃ r r', foldHeldMs slots fromStr toStr = .ok r ∧ foldHeldMs slots' fromStr toStr = .ok r' ∧
        r.1 = r'.1 ∧ ∀ v, r.2.lookup v = r'.2.lookup v) ∧
    (dayOf toStr - dayOf fromStr < maxSpanDays → ∃ n, schoolDaysIn fromStr toStr = .ok n) ∧
    (∀ (slots : List HeldSlot) (n : ℕ), (∀ slot ∈ slots, Plausible slot.toSpan) →
      schoolDaysIn fromStr toStr = .ok n → ∃ r, foldHeldMs slots fromStr toStr = .ok r ∧
        ∀ v, ((slots.filter fun slot ↦ slot.venueId = v).map HeldSlot.toSpan).Pairwise
            Span.Disjoint →
          (r.2.lookup v).getD 0 ≤ 8 * hourMs * n ∧
          ((∀ slot ∈ slots, slot.venueId = v) → r.1 ≤ 8 * hourMs * n ∧
            ∀ p ∈ (occupancyOf (hoursOf r.1) n 1).occupancyPercent, p ≤ 100)) := by
  -- Both ends as days; every clause is then one about `heldMs`.
  obtain ⟨first, hfirst, rfl, efirst⟩ := hf.exists_day
  obtain ⟨last, hlast, rfl, elast⟩ := ht.exists_day
  rw [efirst, elast]
  refine ⟨fun slot h ↦ ?_, fun slot midStr h hmid hle hlt ↦ ?_, fun s m e hsm hme h ↦ ?_,
    fun slot slot' fromStr' toStr' h hf' ht' hs he hle hle' ↦ ?_, fun slots slots' hperm h ↦ ?_,
    fun hspan ↦ ?_, fun slots n h hn ↦ ?_⟩
  · obtain ⟨segments, hsegments, hsum⟩ := sum_clipToSchoolWindow hfirst hlast h
    refine ⟨segments, hsegments, ?_, ?_⟩
    · rw [splitAndClipMs_dateString hfirst hlast h, hsum]
    · rw [hsum, heldMs_eq_sum_school]
  -- The range is cut after `mid`.
  · obtain ⟨mid, hday, rfl, -⟩ := hmid.exists_day
    rw [compareDate_le_iff hfirst.inYears hday.inYears] at hle
    have hlt : mid < last := by
      by_contra hge
      have := (compareDate_nonneg_iff hday.inYears hlast.inYears).2 (not_lt.1 hge)
      omega
    have hnext : ReportDay (mid + 1) := hday.of_le hlast (by omega) hlt
    refine ⟨_, _, _, addDays_dateString hday.inYears 1, splitAndClipMs_dateString hfirst hday h,
      splitAndClipMs_dateString hnext hlast h, ?_⟩
    rw [splitAndClipMs_dateString hfirst hlast h, heldMs_range (by omega) hlt.le]
  · refine ⟨_, _, splitAndClipMs_dateString hfirst hlast (h.of_le le_rfl hme),
      splitAndClipMs_dateString hfirst hlast (h.of_le hsm le_rfl), ?_⟩
    rw [splitAndClipMs_dateString hfirst hlast h, heldMs_slot first last hsm hme]
  -- A longer range and a longer slot.
  · obtain ⟨first', hfirst', rfl, -⟩ := hf'.exists_day
    obtain ⟨last', hlast', rfl, -⟩ := ht'.exists_day
    rw [compareDate_le_iff hfirst'.inYears hfirst.inYears] at hle
    rw [compareDate_le_iff hlast.inYears hlast'.inYears] at hle'
    exact ⟨_, _, splitAndClipMs_dateString hfirst hlast (h.of_le hs he),
      splitAndClipMs_dateString hfirst' hlast' h, heldMs_mono hle hle' hs he⟩
  · obtain ⟨r, hr, hfolded⟩ := foldHeldMs_dateString hfirst hlast h
    have h' : ∀ slot ∈ slots', Plausible slot.toSpan :=
      fun slot hslot ↦ h slot (hperm.mem_iff.2 hslot)
    obtain ⟨r', hr', hfolded'⟩ := foldHeldMs_dateString hfirst hlast h'
    exact ⟨r, r', hr, hr', hfolded.perm hperm hfolded'⟩
  · rw [schoolDaysIn_dateString hfirst hlast, if_pos hspan]
    exact ⟨_, rfl⟩
  · obtain ⟨r, hr, hfolded⟩ := foldHeldMs_dateString hfirst hlast h
    rw [schoolDaysIn_dateString hfirst hlast] at hn
    split_ifs at hn with hspan
    obtain rfl := Except.ok.inj hn
    refine ⟨r, hr, fun v hdisjoint ↦ ⟨?_, fun hall ↦ ?_⟩⟩
    · rw [hfolded.getD]
      exact heldOf_le hdisjoint
    -- All slots are of the one venue, so its held time is the whole of it.
    · have htotal : r.1 = heldOf first last slots v := by
        rw [hfolded.total, ← heldOf_of_forall hall]
      have hle : r.1 ≤ 8 * hourMs * schoolDates first last := htotal ▸ heldOf_le hdisjoint
      have hdays : schoolDates first last ≤ (last + 1 - first).toNat :=
        (Finset.card_filter_le _ _).trans_eq (Int.card_Icc first last)
      refine ⟨hle, occupancyOf_le (htotal ▸ heldOf_nonneg first last slots v)
        (by rwa [Nat.cast_one, mul_one]) ?_⟩
      unfold schoolDayHours
      unfold maxSpanDays at *
      omega

/-- Two disjoint slots of a venue, in the week of 1 June 2026. -/
theorem clipping_is_measure_week :
    ∃ r, foldHeldMs [⟨⟨1780275600000, 1780284600000⟩, 1⟩, ⟨⟨1780284600000, 1780459200000⟩, 1⟩]
      (lit "2026-06-01") (lit "2026-06-05") = .ok r ∧ r.1 ≤ 8 * hourMs * 5 ∧
        ∀ p ∈ (occupancyOf (hoursOf r.1) 5 1).occupancyPercent, p ≤ 100 := by
  have hf : ReportDate (lit "2026-06-01") := ⟨⟨2026, 6, 1⟩, by decide +kernel⟩
  have ht : ReportDate (lit "2026-06-05") := ⟨⟨2026, 6, 5⟩, by decide +kernel⟩
  have hn : schoolDaysIn (lit "2026-06-01") (lit "2026-06-05") = .ok 5 := by decide +kernel
  obtain ⟨r, hr, hle⟩ := (clipping_is_measure hf ht).2.2.2.2.2.2
    [⟨⟨1780275600000, 1780284600000⟩, 1⟩, ⟨⟨1780284600000, 1780459200000⟩, 1⟩] 5
    (by decide +kernel) hn
  exact ⟨r, hr, (hle 1 (by decide +kernel)).2 (by decide +kernel)⟩

end EasyBook.Reports

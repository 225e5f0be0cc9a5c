import EasyBook.Order.Tiles
import EasyBook.Reports.HeldTime

/-!
# The buckets of the trend charts

`monthBuckets` and `weekBuckets` of `report-calendar.ts`. Both go from one natural boundary to the
next and clip what lies between to the range; on the days they are the `pieces` of the range
(`monthBuckets_dateString`, `weekBuckets_dateString`), so they tile it.
-/

namespace EasyBook.Reports

open JsDate JsString

/-- `CalendarBucket`. -/
structure CalendarBucket where
  fromDate : JsString
  toDate : JsString
  isPartial : Bool
  deriving DecidableEq

/-- `daysInMonth`: day 0 of the next month is the last day of this one. -/
def daysInMonth (year month : ℤ) : ℤ := dateFromDay (dateUTC year month 0)

/-- A natural span clipped to the range. -/
def clippedBucket (naturalStart naturalEnd fromStr toStr : JsString) : CalendarBucket :=
  let bucketFrom := if compareDate naturalStart fromStr < 0 then fromStr else naturalStart
  let bucketTo := if 0 < compareDate naturalEnd toStr then toStr else naturalEnd
  ⟨bucketFrom, bucketTo, decide (bucketFrom ≠ naturalStart ∨ bucketTo ≠ naturalEnd)⟩

/-- The rounds of `monthBuckets`. -/
def monthBucketsAux (fromStr toStr : JsString) : ℕ → ℤ → ℤ → List CalendarBucket
  | 0, _, _ => []
  | fuel + 1, year, month =>
    let pad := padStart 2 48 (decimal month)
    let monthStart := decimal year ++ 45 :: (pad ++ 45 :: [48, 49])
    let monthEnd :=
      decimal year ++ 45 :: (pad ++ 45 :: padStart 2 48 (decimal (daysInMonth year month)))
    clippedBucket monthStart monthEnd fromStr toStr ::
      if 0 ≤ compareDate monthEnd toStr then []
      else if 12 < month + 1 then monthBucketsAux fromStr toStr fuel (year + 1) 1
      else monthBucketsAux fromStr toStr fuel year (month + 1)

/-- `monthBuckets`. -/
def monthBuckets (fromStr toStr : JsString) : Except CalendarError (List CalendarBucket) := do
  if 0 < compareDate fromStr toStr then return []
  let p ← requireDate fromStr
  return monthBucketsAux fromStr toStr 400 p.year p.month

/-- The rounds of `weekBuckets`. -/
def weekBucketsAux (fromStr toStr : JsString) :
    ℕ → JsString → Except CalendarError (List CalendarBucket)
  | 0, _ => return []
  | fuel + 1, weekStart => do
    let weekEnd ← addDays weekStart 6
    let bucket := clippedBucket weekStart weekEnd fromStr toStr
    if 0 ≤ compareDate weekEnd toStr then return [bucket]
    let nextStart ← addDays weekStart 7
    return bucket :: (← weekBucketsAux fromStr toStr fuel nextStart)

/-- `weekBuckets`. -/
def weekBuckets (fromStr toStr : JsString) : Except CalendarError (List CalendarBucket) := do
  if 0 < compareDate fromStr toStr then return []
  let parts ← requireDate fromStr
  let weekday := weekdayOf parts
  let daysSinceMonday := if weekday = 0 then 6 else weekday - 1
  let weekStart ← addDays fromStr (-daysSinceMonday)
  weekBucketsAux fromStr toStr 600 weekStart

/-! ### Boundaries -/

theorem one_le_monthLength (leap : Bool) {m : ℕ} (h : m < 12) : 28 ≤ monthLength leap m := by
  have hl := leapDay_cases leap
  interval_cases m <;> simp only [monthLength, daysBeforeMonth] <;> omega

/-- The first of the next month comes after the last of this one. -/
theorem makeDay_next_month (y : ℤ) {m : ℕ} (h : m < 12) (date : ℤ) :
    makeDay y (m + 1) date = makeDay y m date + monthLength (inLeapYear y) m := by
  rw [makeDay_of_lt y h, monthLength]
  by_cases hm : m = 11
  · subst hm
    have hsucc := dayFromYear_succ y
    have hmk : makeDay y ((11 : ℕ) + 1) date = dayFromYear (y + 1) + date - 1 := by
      norm_num [makeDay, daysBeforeMonth]
    rw [hmk, hsucc]
    simp only [daysBeforeMonth]
    omega
  · have hmk := makeDay_of_lt y (show m + 1 < 12 by omega) date
    push_cast at hmk
    rw [hmk]
    omega

/-- The first of the month after a day. -/
def nextMonth (d : ℤ) : ℤ := makeDay (yearFromDay d) (monthFromDay d + 1) 1

/-- The Monday after a Monday. -/
def nextWeek (d : ℤ) : ℤ := d + 7

theorem lt_nextMonth (d : ℤ) : d < nextMonth d := by
  have hd := makeDay_fields d
  have hdate := (dateFromDay_bounds d).2
  rw [nextMonth, makeDay_next_month _ (monthFromDay_lt d)]
  have h₁ := makeDay_of_lt (yearFromDay d) (monthFromDay_lt d) 1
  have h₂ := makeDay_of_lt (yearFromDay d) (monthFromDay_lt d) (dateFromDay d)
  omega

/-- The fields of the first of a month. -/
theorem fields_first (y : ℤ) {m : ℕ} (h : m < 12) :
    yearFromDay (makeDay y m 1) = y ∧ monthFromDay (makeDay y m 1) = m ∧
      dateFromDay (makeDay y m 1) = 1 :=
  fields_makeDay y h le_rfl (by have := one_le_monthLength (inLeapYear y) h; omega)

theorem nextMonth_first (y : ℤ) {m : ℕ} (h : m < 12) :
    nextMonth (makeDay y m 1) = makeDay y (m + 1) 1 := by
  obtain ⟨hy, hm, -⟩ := fields_first y h
  rw [nextMonth, hy, hm]

/-- The day before the first of the next month is the last of this one. -/
theorem fields_last (y : ℤ) {m : ℕ} (h : m < 12) :
    yearFromDay (nextMonth (makeDay y m 1) - 1) = y ∧
      monthFromDay (nextMonth (makeDay y m 1) - 1) = m ∧
      dateFromDay (nextMonth (makeDay y m 1) - 1) = monthLength (inLeapYear y) m := by
  have hlength := one_le_monthLength (inLeapYear y) h
  have hlast : nextMonth (makeDay y m 1) - 1 = makeDay y m (monthLength (inLeapYear y) m) := by
    rw [nextMonth_first y h, makeDay_next_month y h, makeDay_of_lt y h, makeDay_of_lt y h]
    omega
  rw [hlast]
  exact fields_makeDay y h (by omega) le_rfl

theorem daysInMonth_eq {y : ℤ} (hy : 1000 ≤ y) {m : ℕ} (h : m < 12) :
    daysInMonth y (m + 1) = monthLength (inLeapYear y) m := by
  unfold daysInMonth dateUTC
  rw [if_neg (by omega)]
  have hlast : makeDay y (m + 1) 0 = nextMonth (makeDay y m 1) - 1 := by
    rw [nextMonth_first y h, makeDay]
    unfold makeDay
    omega
  rw [hlast, (fields_last y h).2.2]

/-- The text of the first of a month. -/
theorem dateString_first (y : ℤ) {m : ℕ} (h : m < 12) :
    decimal y ++ 45 :: (padStart 2 48 (decimal (m + 1)) ++ 45 :: [48, 49]) =
      dateString (makeDay y m 1) := by
  obtain ⟨hy, hm, hd⟩ := fields_first y h
  unfold dateString
  rw [hy, hm, hd, ← decimal_natCast]
  rfl

/-- The text of the last of a month. -/
theorem dateString_last {y : ℤ} (hy : 1000 ≤ y) {m : ℕ} (h : m < 12) :
    decimal y ++ 45 :: (padStart 2 48 (decimal (m + 1)) ++
        45 :: padStart 2 48 (decimal (daysInMonth y (m + 1)))) =
      dateString (nextMonth (makeDay y m 1) - 1) := by
  obtain ⟨hy', hm, hd⟩ := fields_last y h
  unfold dateString
  rw [hy', hm, hd, daysInMonth_eq hy h, ← decimal_natCast]
  rfl

/-! ### The buckets on the days -/

/-- The bucket of a piece; `s` is where the natural span begins, `e` where it ends. -/
def bucketOn (a b s e : ℤ) : CalendarBucket :=
  ⟨dateString (max s a), dateString (min e b), decide (s < a ∨ b < e)⟩

theorem dateString_injOn {d d' : ℤ} (h : InYears d) (h' : InYears d') :
    dateString d = dateString d' ↔ d = d' := by
  refine ⟨fun he ↦ ?_, fun he ↦ by rw [he]⟩
  have hlt := dateString_lt_iff h h'
  have hgt := dateString_lt_iff h' h
  rw [he] at hlt hgt
  have hirrefl : ¬ dateString d' < dateString d' := lt_irrefl _
  by_contra hne
  rcases lt_or_gt_of_ne hne with h | h
  · exact hirrefl (hlt.2 h)
  · exact hirrefl (hgt.2 h)

theorem clippedBucket_dateString {a b s e : ℤ} (ha : InYears a) (hb : InYears b) (hs : InYears s)
    (he : InYears e) :
    clippedBucket (dateString s) (dateString e) (dateString a) (dateString b) =
      bucketOn a b s e := by
  have hfrom : (if compareDate (dateString s) (dateString a) < 0 then dateString a
      else dateString s) = dateString (max s a) := by
    have hiff := compareDate_nonneg_iff hs ha
    split
    · rw [max_eq_right (by omega)]
    · rw [max_eq_left (by omega)]
  have hto : (if 0 < compareDate (dateString e) (dateString b) then dateString b
      else dateString e) = dateString (min e b) := by
    have hiff := compareDate_pos_iff he hb
    split
    · rw [min_eq_right (by omega)]
    · rw [min_eq_left (by omega)]
  have hmax : InYears (max s a) := by rcases max_choice s a with h | h <;> rw [h] <;> assumption
  have hmin : InYears (min e b) := by rcases min_choice e b with h | h <;> rw [h] <;> assumption
  unfold clippedBucket bucketOn
  simp only [hfrom, hto, ne_eq, dateString_injOn hmax hs, dateString_injOn hmin he]
  congr 2
  rw [eq_iff_iff]
  omega

/-- The buckets of a loop that begins at the boundary `s`. -/
def bucketsOn (next : ℤ → ℤ) (a b : ℤ) : ℕ → ℤ → List CalendarBucket
  | 0, _ => []
  | fuel + 1, s =>
    bucketOn a b s (next s - 1) ::
      if b ≤ next s - 1 then [] else bucketsOn next a b fuel (next s)

/-- The days of a bucket. -/
def CalendarBucket.span (bucket : CalendarBucket) : ℤ × ℤ :=
  (dayOf bucket.fromDate, dayOf bucket.toDate)

/-- The spans of the buckets are the pieces of the range. -/
theorem map_span_bucketsOn {next : ℤ → ℤ} (hnext : ∀ s, s < next s) {a b : ℤ} (ha : InYears a)
    (hb : InYears b) (hab : a ≤ b) {fuel : ℕ} {s : ℤ} (hs : s ≤ b) (hnexta : a < next s) :
    (bucketsOn next a b fuel s).map CalendarBucket.span = pieces next a b fuel s := by
  induction fuel generalizing s with
  | zero => rfl
  | succ fuel ih =>
    have hlt := hnext s
    have hfrom : InYears (max s a) := ⟨ha.1.trans (le_max_right _ _), by have := hb.2; omega⟩
    have hto : InYears (min (next s - 1) b) := ⟨by have := ha.1; omega, by have := hb.2; omega⟩
    have hspan : (bucketOn a b s (next s - 1)).span = (max s a, min (next s - 1) b) := by
      unfold CalendarBucket.span bucketOn
      rw [dayOf_dateString hfrom, dayOf_dateString hto]
    unfold bucketsOn pieces
    rw [List.map_cons, hspan]
    split
    · rfl
    · rw [ih (by omega) (by have := hnext (next s); omega)]

/-- `[a, b]` in the years that the charts can show. -/
structure ChartDays (a b : ℤ) : Prop where
  le : a ≤ b
  first : 1001 ≤ yearFromDay a
  last : yearFromDay b ≤ 9998
  /-- `REPORT_MAX_DAYS`. -/
  narrow : b - a < 366

namespace ChartDays

variable {a b : ℤ}

theorem reportDay (h : ChartDays a b) {d : ℤ} (ha : a ≤ d) (hb : d ≤ b) : ReportDay d := by
  have hle := yearFromDay_mono ha
  have hle' := yearFromDay_mono hb
  exact ⟨by have := h.first; omega, by have := h.last; omega⟩

theorem inYears (h : ChartDays a b) : InYears a ∧ InYears b :=
  ⟨(h.reportDay le_rfl h.le).inYears, (h.reportDay h.le le_rfl).inYears⟩

/-- A month before and after are years that can be written. -/
theorem inYears_of_near (h : ChartDays a b) {d : ℤ} (ha : a - 31 ≤ d) (hb : d ≤ b + 31) :
    InYears d := by
  have h₁ := dayFromYear_strictMono.monotone h.first
  have h₂ := (yearFromDay_bounds a).1
  have h₃ := dayFromYear_strictMono.monotone
    (show yearFromDay b + 1 ≤ 9999 by have := h.last; omega)
  have h₄ := (yearFromDay_bounds b).2
  have h₅ : dayFromYear 1001 = dayFromYear 1000 + 365 := by decide
  have h₆ : dayFromYear 10000 = dayFromYear 9999 + 365 := by decide
  exact ⟨by omega, by omega⟩

end ChartDays

/-! ### Months -/

theorem monthBucketsAux_dateString {a b : ℤ} (h : ChartDays a b) {fuel : ℕ} {y : ℤ} {m : ℕ}
    (hm : m < 12) (hy : 1000 ≤ y) (hs : makeDay y m 1 ≤ b) :
    monthBucketsAux (dateString a) (dateString b) fuel y (m + 1) =
      bucketsOn nextMonth a b fuel (makeDay y m 1) := by
  induction fuel generalizing y m with
  | zero => rfl
  | succ fuel ih =>
    obtain ⟨ha, hb⟩ := h.inYears
    obtain ⟨hyear, hmonth, -⟩ := fields_first y hm
    have hyb : y ≤ 9998 := by
      have := yearFromDay_mono hs
      rw [hyear] at this
      have := h.last
      omega
    have hstart : InYears (makeDay y m 1) := inYears_of_year (by omega) (by omega)
    have hend : InYears (nextMonth (makeDay y m 1) - 1) := by
      have := (fields_last y hm).1
      exact inYears_of_year (by omega) (by omega)
    unfold monthBucketsAux bucketsOn
    dsimp only
    rw [dateString_first y hm, dateString_last hy hm, clippedBucket_dateString ha hb hstart hend]
    simp only [compareDate_nonneg_iff hend hb]
    congr 1
    split
    · rfl
    · next hgo =>
      rw [nextMonth_first y hm] at hgo ⊢
      by_cases hlast : m = 11
      · subst hlast
        have hmk : makeDay y ((11 : ℕ) + 1) 1 = makeDay (y + 1) (0 : ℕ) 1 := by
          norm_num [makeDay]
        rw [if_pos (by norm_num), hmk]
        rw [hmk] at hgo
        exact ih (by omega) (by omega) (by omega)
      · rw [if_neg (by omega)]
        exact ih (m := m + 1) (by omega) hy (by push_cast; omega)

theorem monthBuckets_dateString {a b : ℤ} (h : ChartDays a b) :
    ∃ s, s ≤ a ∧ a < nextMonth s ∧ b - s < 400 ∧
      monthBuckets (dateString a) (dateString b) = .ok (bucketsOn nextMonth a b 400 s) := by
  obtain ⟨ha, hb⟩ := h.inYears
  have hm := monthFromDay_lt a
  have hfields := makeDay_fields a
  have hdate := dateFromDay_bounds a
  have hlength := monthLength_le (inLeapYear (yearFromDay a)) hm
  have hfirst : makeDay (yearFromDay a) (monthFromDay a) 1 = a - (dateFromDay a - 1) := by
    rw [makeDay_of_lt _ hm] at hfields ⊢
    omega
  have hnext := makeDay_next_month (yearFromDay a) hm 1
  have hnarrow := h.narrow
  have hle := h.le
  refine ⟨makeDay (yearFromDay a) (monthFromDay a) 1, by omega, ?_, by omega, ?_⟩
  · rw [nextMonth_first _ hm, hnext]
    omega
  · unfold monthBuckets
    rw [if_neg (by rw [compareDate_pos_iff ha hb]; omega), requireDate_dateString ha]
    refine congrArg Except.ok ?_
    show monthBucketsAux _ _ 400 (yearFromDay a) (monthFromDay a + 1) = _
    exact monthBucketsAux_dateString h hm (by have := h.first; omega) (by omega)

/-! ### Weeks -/

theorem weekBucketsAux_dateString {a b : ℤ} (h : ChartDays a b) {fuel : ℕ} {s : ℤ}
    (has : a - 31 ≤ s) (hs : s ≤ b) :
    weekBucketsAux (dateString a) (dateString b) fuel (dateString s) =
      .ok (bucketsOn nextWeek a b fuel s) := by
  induction fuel generalizing s with
  | zero => rfl
  | succ fuel ih =>
    obtain ⟨ha, hb⟩ := h.inYears
    have hstart : InYears s := h.inYears_of_near has (by omega)
    have hend : InYears (s + 6) := h.inYears_of_near (by omega) (by omega)
    have hlast : nextWeek s - 1 = s + 6 := by
      unfold nextWeek
      omega
    unfold weekBucketsAux bucketsOn
    rw [addDays_dateString hstart, addDays_dateString hstart, hlast]
    change (if _ then _ else _) = _
    rw [clippedBucket_dateString ha hb hstart hend]
    simp only [compareDate_nonneg_iff hend hb]
    split
    · rfl
    · next hgo =>
      change (weekBucketsAux _ _ fuel (dateString (s + 7)) >>= fun rest ↦ _) = _
      rw [ih (s := s + 7) (by omega) (by omega)]
      rfl

theorem weekBuckets_dateString {a b : ℤ} (h : ChartDays a b) :
    ∃ s, s ≤ a ∧ a < nextWeek s ∧ b - s < 600 ∧
      weekBuckets (dateString a) (dateString b) = .ok (bucketsOn nextWeek a b 600 s) := by
  obtain ⟨ha, hb⟩ := h.inYears
  have hweek : 0 ≤ weekDay a ∧ weekDay a < 7 := by unfold weekDay; omega
  have hnarrow := h.narrow
  have hle := h.le
  refine ⟨a - (if weekDay a = 0 then 6 else weekDay a - 1), by split <;> omega, ?_,
    by split <;> omega, ?_⟩
  · unfold nextWeek
    split <;> omega
  · unfold weekBuckets
    rw [if_neg (by rw [compareDate_pos_iff ha hb]; omega), requireDate_dateString ha]
    change (addDays (dateString a) _ >>= _) = _
    rw [addDays_dateString ha, weekdayOf_partsOf ha]
    change weekBucketsAux _ _ 600 (dateString _) = _
    rw [weekBucketsAux_dateString h (by split <;> omega) (by split <;> omega),
      ← sub_eq_add_neg]

/-- Buckets that tile `[a, b]`, each with the dates of its days. -/
structure BucketsOf (a b : ℤ) (buckets : List CalendarBucket) : Prop where
  tiles : Tiles b a (buckets.map CalendarBucket.span)
  dated : ∀ bucket ∈ buckets,
    bucket.fromDate = dateString bucket.span.1 ∧ bucket.toDate = dateString bucket.span.2

theorem dated_bucketsOn {next : ℤ → ℤ} (hnext : ∀ s, s < next s) {a b : ℤ} (ha : InYears a)
    (hb : InYears b) (hab : a ≤ b) {fuel : ℕ} {s : ℤ} (hs : s ≤ b) (hns : a < next s)
    {bucket : CalendarBucket} (h : bucket ∈ bucketsOn next a b fuel s) :
    bucket.fromDate = dateString bucket.span.1 ∧ bucket.toDate = dateString bucket.span.2 := by
  induction fuel generalizing s with
  | zero => cases h
  | succ fuel ih =>
    have hlt := hnext s
    have hfrom : InYears (max s a) := ⟨ha.1.trans (le_max_right _ _), by have := hb.2; omega⟩
    have hto : InYears (min (next s - 1) b) := ⟨by have := ha.1; omega, by have := hb.2; omega⟩
    unfold bucketsOn at h
    rcases List.mem_cons.1 h with rfl | h
    · unfold CalendarBucket.span bucketOn
      rw [dayOf_dateString hfrom, dayOf_dateString hto]
      exact ⟨rfl, rfl⟩
    · split at h
      · cases h
      · exact ih (by omega) (by have := hnext (next s); omega) h

/-- **Both grains tile the range.** -/
theorem buckets_tile {a b : ℤ} (h : ChartDays a b) :
    ∃ months weeks, monthBuckets (dateString a) (dateString b) = .ok months ∧
      weekBuckets (dateString a) (dateString b) = .ok weeks ∧
      BucketsOf a b months ∧ BucketsOf a b weeks := by
  obtain ⟨ha, hb⟩ := h.inYears
  have hbuckets : ∀ {next : ℤ → ℤ} {fuel : ℕ} {s : ℤ}, (∀ s, s < next s) → s ≤ a → a < next s →
      b - s < fuel → BucketsOf a b (bucketsOn next a b fuel s) :=
    fun {next fuel s} hnext hs hns hfuel ↦ by
      have hle := h.le
      refine ⟨?_, fun bucket ↦ dated_bucketsOn hnext ha hb hle (by omega) hns⟩
      rw [map_span_bucketsOn hnext ha hb hle (by omega) hns]
      have := tiles_pieces hnext hle (by omega) hns hfuel
      rwa [max_eq_right hs] at this
  obtain ⟨s, hs, hns, hfuel, hmonths⟩ := monthBuckets_dateString h
  obtain ⟨s', hs', hns', hfuel', hweeks⟩ := weekBuckets_dateString h
  exact ⟨_, _, hmonths, hweeks, hbuckets lt_nextMonth hs hns hfuel,
    hbuckets (fun s ↦ by unfold nextWeek; omega) hs' hns' hfuel'⟩

end EasyBook.Reports

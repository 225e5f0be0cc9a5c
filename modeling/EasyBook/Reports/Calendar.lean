import EasyBook.Bookings.Code

/-!
# The calendar of the reports

`report-calendar.ts`. A calendar date is a string `YYYY-MM-DD`: it is compared as a string, and
every function that reads it parses it anew and throws when it is none.

Below the code is what the strings stand for. A day is a number, as in `JsDate`; between the years
1000 and 9999 the strings and the days are in step (`parseDateStrict_dateString`,
`dateString_lt_iff`, `addDays_dateString`), so that a loop over dates is one over days
(`forDates_dateString`).
-/

namespace EasyBook.Reports

open JsDate JsString

/-! ### Dates -/

/-- What the functions of the calendar throw. -/
inductive CalendarError where
  | invalidDate (dateStr : JsString)
  /-- `schoolDaysIn` and `schoolDaysByWeekday`: the range is too wide. -/
  | rangeTooWide
  /-- `clipToSchoolWindow`: the slot spans an implausible number of days. -/
  | slotTooLong
  /-- `foldHeatmap`: an index outside the grid, where there is no cell. -/
  | undefinedCell (index : ℤ)
  /-- A loop that does not end. -/
  | endless
  deriving DecidableEq

/-- `MAX_SPAN_DAYS`. -/
def maxSpanDays : ℤ := 3660

/-- `DateParts`. -/
structure DateParts where
  year : ℤ
  month : ℤ
  day : ℤ
  deriving DecidableEq

/-- The day of `Date.UTC(year, month, date)`. The years up to 99 are those of the 20th century. -/
def dateUTC (year month date : ℤ) : ℤ :=
  makeDay (if 0 ≤ year ∧ year ≤ 99 then 1900 + year else year) month date

/-- A day as `YYYY-MM-DD`, as the code writes it. -/
def dateString (d : ℤ) : JsString :=
  decimal (yearFromDay d) ++ 45 :: (padStart 2 48 (radix 10 (monthFromDay d + 1)) ++
    45 :: padStart 2 48 (decimal (dateFromDay d)))

/-- `bangkokDate`. -/
def bangkokDate (t : ℤ) : JsString := dateString (bangkokDay t)

/-- `parseDateStrict`. -/
def parseDateStrict : JsString → Option DateParts
  | [y₁, y₂, y₃, y₄, 45, m₁, m₂, 45, d₁, d₂] =>
    if [y₁, y₂, y₃, y₄, m₁, m₂, d₁, d₂].all isDigit then
      let year : ℤ := value 10 [y₁, y₂, y₃, y₄]
      let month : ℤ := value 10 [m₁, m₂]
      let day : ℤ := value 10 [d₁, d₂]
      let asUtc := dateUTC year (month - 1) day
      if yearFromDay asUtc ≠ year ∨ (monthFromDay asUtc : ℤ) ≠ month - 1 ∨
          dateFromDay asUtc ≠ day then none
      else some ⟨year, month, day⟩
    else none
  | _ => none

/-- `requireDate`. -/
def requireDate (dateStr : JsString) : Except CalendarError DateParts :=
  match parseDateStrict dateStr with
  | some parts => .ok parts
  | none => .error (.invalidDate dateStr)

/-- `parseReportDate`. -/
def parseReportDate (dateStr : JsString) : Option JsString :=
  (parseDateStrict dateStr).map fun _ ↦ dateStr

/-- `dayStart`. -/
def dayStart (dateStr : JsString) : Except CalendarError ℤ := do
  let p ← requireDate dateStr
  let midnightLocal := dateUTC p.year (p.month - 1) p.day * msPerDay
  return midnightLocal - bangkokUtcOffsetMinutes * 60000

/-- `addDays`. -/
def addDays (dateStr : JsString) (n : ℤ) : Except CalendarError JsString := do
  let p ← requireDate dateStr
  return dateString (dateUTC p.year (p.month - 1) (p.day + n))

/-- `Math.round` of a quotient. -/
def roundDiv (a b : ℤ) : ℤ := (2 * a + b) / (2 * b)

/-- `inclusiveDays`. -/
def inclusiveDays (fromStr toStr : JsString) : Except CalendarError ℤ := do
  let toMs ← dayStart toStr
  let fromMs ← dayStart fromStr
  return roundDiv (toMs - fromMs) msPerDay + 1

/-- `compareDate`. -/
def compareDate (a b : JsString) : ℤ := if a < b then -1 else if b < a then 1 else 0

/-- `weekdayOf`. -/
def weekdayOf (p : DateParts) : ℤ := weekDay (dateUTC p.year (p.month - 1) p.day)

/-- `isoWeekdayOf`. -/
def isoWeekdayOf (dateStr : JsString) : Except CalendarError ℤ := do
  let p ← requireDate dateStr
  let dow := weekdayOf p
  return if dow = 0 then 7 else dow

/-- `isSchoolDay`. `SUMMER_BREAK_START` is 1 April, `SUMMER_BREAK_END` is 15 May. -/
def isSchoolDay (dateStr : JsString) : Except CalendarError Bool := do
  let p ← requireDate dateStr
  let weekday := weekdayOf p
  if weekday = 0 ∨ weekday = 6 then return false
  let afterBreakStart := decide (4 < p.month) || decide (p.month = 4) && decide (1 ≤ p.day)
  let beforeBreakEnd := decide (p.month < 5) || decide (p.month = 5) && decide (p.day ≤ 15)
  return !(afterBreakStart && beforeBreakEnd)

/-! ### Loops over dates -/

section Loops

variable {α : Type}

/-- `let cur = first; while (compareDate(cur, last) <= 0) { …; cur = addDays(cur, 1); }`. -/
def forDatesAux (body : JsString → α → Except CalendarError α) (last : JsString) :
    ℕ → JsString → α → Except CalendarError α
  | 0, _, _ => .error .endless
  | fuel + 1, cur, a =>
    if compareDate cur last ≤ 0 then do
      let a ← body cur a
      let next ← addDays cur 1
      forDatesAux body last fuel next a
    else .ok a

/-- The loop, for a range that was found to be no wider than `MAX_SPAN_DAYS`. -/
def forDates (body : JsString → α → Except CalendarError α) (first last : JsString) (a : α) :
    Except CalendarError α :=
  forDatesAux body last (maxSpanDays.toNat + 1) first a

end Loops

/-- `schoolDaysIn`. -/
def schoolDaysIn (fromStr toStr : JsString) : Except CalendarError ℕ := do
  if 0 < compareDate fromStr toStr then return 0
  if maxSpanDays < (← inclusiveDays fromStr toStr) then throw .rangeTooWide
  forDates (fun cur count ↦ do return if ← isSchoolDay cur then count + 1 else count)
    fromStr toStr 0

/-- `schoolDaysByWeekday`. -/
def schoolDaysByWeekday (fromStr toStr : JsString) : Except CalendarError (List ℕ) := do
  let counts := [0, 0, 0, 0, 0]
  if 0 < compareDate fromStr toStr then return counts
  if maxSpanDays < (← inclusiveDays fromStr toStr) then throw .rangeTooWide
  forDates (fun cur (counts : List ℕ) ↦ do
    if ← isSchoolDay cur then
      let i := (← isoWeekdayOf cur) - 1
      return counts.modify i.toNat (· + 1)
    else return counts) fromStr toStr counts

/-! ### The school window -/

/-- `HOUR_MS`. -/
def hourMs : ℤ := 3600000

/-- `windowInstant`. -/
def windowInstant (dateStr : JsString) (hour minute : ℤ) : Except CalendarError ℤ := do
  return (← dayStart dateStr) + (hour * 60 + minute) * 60000

/-- `schoolWindowStartMs`, at `SCHOOL_WINDOW_START`. -/
def schoolWindowStartMs (dateStr : JsString) : Except CalendarError ℤ := windowInstant dateStr 8 30

/-- The end of the school window, at `SCHOOL_WINDOW_END`. -/
def schoolWindowEndMs (dateStr : JsString) : Except CalendarError ℤ := windowInstant dateStr 16 30

/-- A half-open span of time. -/
structure Span where
  startAt : ℤ
  endAt : ℤ

/-- `ClippedSegment`. -/
structure ClippedSegment where
  date : JsString
  isoWeekday : ℤ
  startMs : ℤ
  endMs : ℤ

/-- The segment of a slot on a date, if there is one. -/
def clipOn (slot : Span) (fromStr toStr cur : JsString) :
    Except CalendarError (Option ClippedSegment) := do
  if 0 ≤ compareDate cur fromStr ∧ compareDate cur toStr ≤ 0 then
    if ← isSchoolDay cur then
      let winStart ← schoolWindowStartMs cur
      let winEnd ← schoolWindowEndMs cur
      let clipStart := max slot.startAt winStart
      let clipEnd := min slot.endAt winEnd
      if clipStart < clipEnd then
        return some ⟨cur, ← isoWeekdayOf cur, clipStart, clipEnd⟩
      else return none
    else return none
  else return none

/-- `clipToSchoolWindow`. -/
def clipToSchoolWindow (slot : Span) (fromStr toStr : JsString) :
    Except CalendarError (List ClippedSegment) := do
  if 0 < compareDate fromStr toStr then return []
  if slot.endAt ≤ slot.startAt then return []
  let startDay := bangkokDate slot.startAt
  let endDay := bangkokDate (slot.endAt - 1)
  if maxSpanDays < (← inclusiveDays startDay endDay) then throw .slotTooLong
  forDates (fun cur segments ↦ do return segments ++ (← clipOn slot fromStr toStr cur).toList)
    startDay endDay []

/-- `splitAndClipMs`. -/
def splitAndClipMs (slot : Span) (fromStr toStr : JsString) : Except CalendarError ℤ := do
  let segments ← clipToSchoolWindow slot fromStr toStr
  return segments.foldl (fun total seg ↦ total + (seg.endMs - seg.startMs)) 0

/-! ### Days -/

/-- The days of the years 1000 to 9999. -/
def InYears (d : ℤ) : Prop := dayFromYear 1000 ≤ d ∧ d < dayFromYear 10000

theorem year_of_inYears {d : ℤ} (h : InYears d) : 1000 ≤ yearFromDay d ∧ yearFromDay d < 10000 := by
  obtain ⟨hl, hu⟩ := yearFromDay_bounds d
  constructor
  · by_contra hlt
    have := dayFromYear_strictMono.monotone (show yearFromDay d + 1 ≤ 1000 by omega)
    have := h.1
    omega
  · by_contra hlt
    have := dayFromYear_strictMono.monotone (show 10000 ≤ yearFromDay d by omega)
    have := h.2
    omega

theorem inYears_of_year {d : ℤ} (h : 1000 ≤ yearFromDay d) (h' : yearFromDay d < 10000) :
    InYears d := by
  obtain ⟨hl, hu⟩ := yearFromDay_bounds d
  have := dayFromYear_strictMono.monotone h
  have := dayFromYear_strictMono.monotone (show yearFromDay d + 1 ≤ 10000 by omega)
  constructor <;> omega

/-- A part of a date with two digits. -/
theorem twoDigits {n : ℕ} (h : n < 100) : ∃ a b, padStart 2 48 (radix 10 n) = [a, b] ∧
    isDigit a = true ∧ isDigit b = true ∧ value 10 [a, b] = n := by
  have hlen : (padStart 2 48 (radix 10 n)).length = 2 := length_padStart (length_radix_le_two h)
  have hdigits := (digits_radix n).padStart 2
  have hval : value 10 (padStart 2 48 (radix 10 n)) = n := by
    rw [value_padStart_zero, value_radix (by decide) (by decide)]
  generalize padStart 2 48 (radix 10 n) = s at hlen hdigits hval
  match s, hlen with
  | [a, b], _ =>
    exact ⟨a, b, rfl, decide_eq_true (hdigits a (by simp)), decide_eq_true (hdigits b (by simp)),
      hval⟩

/-- A year with four digits. -/
theorem fourDigits {y : ℤ} (h : 1000 ≤ y) (h' : y < 10000) : ∃ a b c d, decimal y = [a, b, c, d] ∧
    isDigit a = true ∧ isDigit b = true ∧ isDigit c = true ∧ isDigit d = true ∧
    (value 10 [a, b, c, d] : ℤ) = y := by
  obtain ⟨n, rfl⟩ := Int.eq_ofNat_of_zero_le (show 0 ≤ y by omega)
  have hlen : (decimal (n : ℤ)).length = 4 :=
    length_radix (w := 3) (by omega) (by omega)
  have hdigits : Digits (decimal (n : ℤ)) := digits_radix n
  have hval : value 10 (decimal (n : ℤ)) = n := value_radix (by decide) (by decide) n
  generalize decimal (n : ℤ) = s at hlen hdigits hval
  match s, hlen with
  | [a, b, c, d], _ =>
    exact ⟨a, b, c, d, rfl, decide_eq_true (hdigits a (by simp)),
      decide_eq_true (hdigits b (by simp)), decide_eq_true (hdigits c (by simp)),
      decide_eq_true (hdigits d (by simp)), congrArg Nat.cast hval⟩

theorem dateFromDay_lt (d : ℤ) : dateFromDay d < 32 := by
  have := (dateFromDay_bounds d).2
  have := monthLength_le (inLeapYear (yearFromDay d)) (monthFromDay_lt d)
  omega

theorem decimal_dateFromDay (d : ℤ) :
    decimal (dateFromDay d) = radix 10 (dateFromDay d).toNat ∧ (dateFromDay d).toNat < 100 := by
  have h := (dateFromDay_bounds d).1
  have h' := dateFromDay_lt d
  refine ⟨?_, by omega⟩
  rw [← decimal_natCast, Int.toNat_of_nonneg (by omega)]

/-- The parts of a day. -/
def partsOf (d : ℤ) : DateParts := ⟨yearFromDay d, monthFromDay d + 1, dateFromDay d⟩

theorem dateUTC_of_inYears {d : ℤ} (h : InYears d) (n : ℤ) :
    dateUTC (partsOf d).year ((partsOf d).month - 1) ((partsOf d).day + n) = d + n := by
  have hy := (year_of_inYears h).1
  unfold dateUTC partsOf
  rw [if_neg (by dsimp only; omega), add_sub_cancel_right]
  have hshift : ∀ y m date n : ℤ, makeDay y m (date + n) = makeDay y m date + n := by
    intro y m date n
    unfold makeDay
    omega
  rw [hshift, makeDay_fields]

/-- The date of a day is read as the day. -/
theorem parseDateStrict_dateString {d : ℤ} (h : InYears d) :
    parseDateStrict (dateString d) = some (partsOf d) := by
  obtain ⟨hy, hy'⟩ := year_of_inYears h
  obtain ⟨y₁, y₂, y₃, y₄, hyear, hy₁, hy₂, hy₃, hy₄, hyval⟩ := fourDigits hy hy'
  obtain ⟨m₁, m₂, hmonth, hm₁, hm₂, hmval⟩ :=
    twoDigits (n := monthFromDay d + 1) (by have := monthFromDay_lt d; omega)
  obtain ⟨hdate, hlt⟩ := decimal_dateFromDay d
  obtain ⟨d₁, d₂, hday, hd₁, hd₂, hdval⟩ := twoDigits hlt
  have hdate' := (dateFromDay_bounds d).1
  have hutc := dateUTC_of_inYears h 0
  simp only [partsOf, add_zero, add_sub_cancel_right] at hutc
  have hmval' : ((value 10 [m₁, m₂] : ℕ) : ℤ) = monthFromDay d + 1 := by rw [hmval]; rfl
  have hdval' : ((value 10 [d₁, d₂] : ℕ) : ℤ) = dateFromDay d := by rw [hdval]; omega
  unfold dateString
  rw [hyear, hmonth, hdate, hday]
  simp only [List.cons_append, List.nil_append, parseDateStrict, List.all_cons, List.all_nil, hy₁,
    hy₂, hy₃, hy₄, hm₁, hm₂, hd₁, hd₂, Bool.and_self, if_true, hyval, hmval', hdval',
    add_sub_cancel_right, hutc]
  simp [partsOf]

/-- A date that is read is the date of its day. -/
theorem dateString_of_parse {dateStr : JsString} {p : DateParts}
    (h : parseDateStrict dateStr = some p) (hy : 1000 ≤ p.year) :
    ∃ d, InYears d ∧ dateStr = dateString d ∧ p = partsOf d := by
  unfold parseDateStrict at h
  split at h
  case h_2 => cases h
  case h_1 y₁ y₂ y₃ y₄ m₁ m₂ d₁ d₂ =>
    by_cases hdigits : [y₁, y₂, y₃, y₄, m₁, m₂, d₁, d₂].all isDigit = true
    case neg =>
      rw [if_neg hdigits] at h
      cases h
    rw [if_pos hdigits] at h
    dsimp only at h
    split_ifs at h with hfields
    obtain rfl := (Option.some.inj h).symm
    dsimp only at hy
    push Not at hfields
    obtain ⟨hyear, hmonth, hday⟩ := hfields
    generalize hd : dateUTC (value 10 [y₁, y₂, y₃, y₄]) ((value 10 [m₁, m₂] : ℤ) - 1)
      (value 10 [d₁, d₂]) = d at hyear hmonth hday
    simp only [List.all_cons, List.all_nil, Bool.and_true, Bool.and_eq_true, isDigit,
      decide_eq_true_eq] at hdigits
    have hY : Digits [y₁, y₂, y₃, y₄] := by simp [Digits]; omega
    have hM : Digits [m₁, m₂] := by simp [Digits]; omega
    have hD : Digits [d₁, d₂] := by simp [Digits]; omega
    have hlt : value 10 [y₁, y₂, y₃, y₄] < 10 ^ 4 := hY.value_lt
    have hlt' : value 10 [m₁, m₂] < 10 ^ 2 := hM.value_lt
    have hlt'' : value 10 [d₁, d₂] < 10 ^ 2 := hD.value_lt
    refine ⟨d, inYears_of_year (by omega) (by omega), ?_, ?_⟩
    · have eY : decimal (yearFromDay d) = [y₁, y₂, y₃, y₄] := by
        rw [hyear]
        refine (digits_radix _).eq_of_value hY (length_radix (w := 3) (by omega) (by omega)) ?_
        exact value_radix (by decide) (by decide) _
      have eM : padStart 2 48 (radix 10 (monthFromDay d + 1)) = [m₁, m₂] := by
        refine ((digits_radix _).padStart 2).eq_of_value hM
          (length_padStart (length_radix_le_two (by omega))) ?_
        rw [value_padStart_zero, value_radix (by decide) (by decide)]
        omega
      have eD : padStart 2 48 (decimal (dateFromDay d)) = [d₁, d₂] := by
        rw [hday]
        refine ((digits_radix _).padStart 2).eq_of_value hD
          (length_padStart (length_radix_le_two (by omega))) ?_
        rw [value_padStart_zero, value_radix (by decide) (by decide)]
      unfold dateString
      rw [eY, eM, eD]
      rfl
    · unfold partsOf
      rw [hyear, hmonth, hday, sub_add_cancel]

/-- Dates compare as their days do. -/
theorem dateString_lt_iff {d d' : ℤ} (h : InYears d) (h' : InYears d') :
    dateString d < dateString d' ↔ d < d' := by
  obtain ⟨hy, hy₁⟩ := year_of_inYears h
  obtain ⟨hy', hy₁'⟩ := year_of_inYears h'
  have hm := monthFromDay_lt d
  have hm' := monthFromDay_lt d'
  obtain ⟨hdate, hlt⟩ := decimal_dateFromDay d
  obtain ⟨hdate', hlt'⟩ := decimal_dateFromDay d'
  have hd := (dateFromDay_bounds d).1
  have hd' := (dateFromDay_bounds d').1
  have hyear : decimal (yearFromDay d) < decimal (yearFromDay d') ↔
      yearFromDay d < yearFromDay d' := by
    obtain ⟨n, hn⟩ := Int.eq_ofNat_of_zero_le (show 0 ≤ yearFromDay d by omega)
    obtain ⟨n', hn'⟩ := Int.eq_ofNat_of_zero_le (show 0 ≤ yearFromDay d' by omega)
    rw [hn, hn']
    refine ((digits_radix n).lt_iff (digits_radix n') ?_).trans ?_
    · rw [length_radix (w := 3) (by omega) (by omega), length_radix (w := 3) (by omega) (by omega)]
    · rw [value_radix (by decide) (by decide), value_radix (by decide) (by decide)]
      exact Int.ofNat_lt.symm
  have two : ∀ m n : ℕ, m < 100 → n < 100 →
      (padStart 2 48 (radix 10 m) < padStart 2 48 (radix 10 n) ↔ m < n) ∧
      (padStart 2 48 (radix 10 m)).length = (padStart 2 48 (radix 10 n)).length := by
    intro m n hm hn
    have hlen : (padStart 2 48 (radix 10 m)).length = (padStart 2 48 (radix 10 n)).length := by
      rw [length_padStart (length_radix_le_two hm), length_padStart (length_radix_le_two hn)]
    refine ⟨?_, hlen⟩
    rw [((digits_radix m).padStart 2).lt_iff ((digits_radix n).padStart 2) hlen,
      value_padStart_zero, value_padStart_zero, value_radix (by decide) (by decide),
      value_radix (by decide) (by decide)]
  have hinj := padStart_radix_injective 2 (b := 10) (by decide) (by decide)
  obtain ⟨hmonth, hmlen⟩ := two (monthFromDay d + 1) (monthFromDay d' + 1) (by omega) (by omega)
  obtain ⟨hday, -⟩ := two _ _ hlt hlt'
  have hlen : (decimal (yearFromDay d)).length = (decimal (yearFromDay d')).length := by
    obtain ⟨_, _, _, _, e, -⟩ := fourDigits hy hy₁
    obtain ⟨_, _, _, _, e', -⟩ := fourDigits hy' hy₁'
    rw [e, e']
    rfl
  rw [lt_iff_fieldsLt, FieldsLt, dateString, dateString, append_lt_append_iff hlen, hyear,
    decimal_injective.eq_iff, List.cons_lt_cons_iff, append_lt_append_iff hmlen, hmonth,
    List.cons_lt_cons_iff, hdate, hdate', hday]
  have hmeq : padStart 2 48 (radix 10 (monthFromDay d + 1)) =
      padStart 2 48 (radix 10 (monthFromDay d' + 1)) ↔ monthFromDay d = monthFromDay d' :=
    ⟨fun e ↦ by have := hinj e; omega, fun e ↦ by rw [e]⟩
  rw [hmeq]
  constructor
  · rintro (hlt | ⟨e, hlt | ⟨-, hlt | ⟨e', hlt | ⟨-, hlt⟩⟩⟩⟩) <;> omega
  · rintro (hlt | ⟨e, hlt | ⟨e', hlt⟩⟩)
    · exact .inl hlt
    · exact .inr ⟨e, .inr ⟨rfl, .inl (by omega)⟩⟩
    · exact .inr ⟨e, .inr ⟨rfl, .inr ⟨e', .inr ⟨rfl, by omega⟩⟩⟩⟩

theorem compareDate_le_iff {d d' : ℤ} (h : InYears d) (h' : InYears d') :
    compareDate (dateString d) (dateString d') ≤ 0 ↔ d ≤ d' := by
  simp only [compareDate, dateString_lt_iff h h', dateString_lt_iff h' h]
  split_ifs <;> omega

theorem compareDate_nonneg_iff {d d' : ℤ} (h : InYears d) (h' : InYears d') :
    0 ≤ compareDate (dateString d) (dateString d') ↔ d' ≤ d := by
  simp only [compareDate, dateString_lt_iff h h', dateString_lt_iff h' h]
  split_ifs <;> omega

theorem compareDate_pos_iff {d d' : ℤ} (h : InYears d) (h' : InYears d') :
    0 < compareDate (dateString d) (dateString d') ↔ d' < d := by
  simp only [compareDate, dateString_lt_iff h h', dateString_lt_iff h' h]
  split_ifs <;> omega

theorem requireDate_dateString {d : ℤ} (h : InYears d) :
    requireDate (dateString d) = .ok (partsOf d) := by
  unfold requireDate
  rw [parseDateStrict_dateString h]

theorem addDays_dateString {d : ℤ} (h : InYears d) (n : ℤ) :
    addDays (dateString d) n = .ok (dateString (d + n)) := by
  unfold addDays
  rw [requireDate_dateString h]
  exact congrArg (fun d ↦ Except.ok (dateString d)) (dateUTC_of_inYears h n)

theorem dayStart_dateString {d : ℤ} (h : InYears d) :
    dayStart (dateString d) = .ok (d * msPerDay - 25200000) := by
  unfold dayStart
  rw [requireDate_dateString h]
  have hutc := dateUTC_of_inYears h 0
  rw [add_zero, add_zero] at hutc
  exact congrArg (fun d ↦ Except.ok (d * msPerDay - 25200000)) hutc

theorem roundDiv_mul_msPerDay (n : ℤ) : roundDiv (n * msPerDay) msPerDay = n := by
  unfold roundDiv msPerDay
  omega

theorem inclusiveDays_dateString {d d' : ℤ} (h : InYears d) (h' : InYears d') :
    inclusiveDays (dateString d) (dateString d') = .ok (d' - d + 1) := by
  unfold inclusiveDays
  rw [dayStart_dateString h, dayStart_dateString h']
  refine congrArg Except.ok ?_
  rw [sub_sub_sub_cancel_right, ← sub_mul, roundDiv_mul_msPerDay]

theorem weekdayOf_partsOf {d : ℤ} (h : InYears d) : weekdayOf (partsOf d) = weekDay d := by
  have hutc := dateUTC_of_inYears h 0
  rw [add_zero, add_zero] at hutc
  unfold weekdayOf
  rw [hutc]

/-- The weekday of a day, `1` for Monday. -/
def isoWeekday (d : ℤ) : ℤ := if weekDay d = 0 then 7 else weekDay d

theorem isoWeekdayOf_dateString {d : ℤ} (h : InYears d) :
    isoWeekdayOf (dateString d) = .ok (isoWeekday d) := by
  unfold isoWeekdayOf
  rw [requireDate_dateString h]
  refine congrArg Except.ok ?_
  rw [weekdayOf_partsOf h]
  rfl

/-- The school dates: Monday to Friday, and not from 1 April to 15 May. -/
def SchoolDate (d : ℤ) : Prop :=
  (1 ≤ weekDay d ∧ weekDay d ≤ 5) ∧
    ¬ (monthFromDay d = 3 ∨ monthFromDay d = 4 ∧ dateFromDay d ≤ 15)

instance (d : ℤ) : Decidable (SchoolDate d) := inferInstanceAs (Decidable (_ ∧ _))

theorem isSchoolDay_dateString {d : ℤ} (h : InYears d) :
    isSchoolDay (dateString d) = .ok (decide (SchoolDate d)) := by
  unfold isSchoolDay
  rw [requireDate_dateString h]
  have hw : 0 ≤ weekDay d ∧ weekDay d < 7 := by unfold weekDay; omega
  have hd := (dateFromDay_bounds d).1
  change (if _ then _ else _) = _
  rw [weekdayOf_partsOf h]
  by_cases hwe : weekDay d = 0 ∨ weekDay d = 6
  · rw [if_pos hwe, decide_eq_false (fun hs ↦ by have := hs.1; omega)]
    rfl
  · rw [if_neg hwe]
    refine congrArg Except.ok ?_
    rw [Bool.eq_iff_iff, decide_eq_true_eq]
    simp only [SchoolDate, Bool.not_eq_true', Bool.and_eq_false_iff, Bool.or_eq_false_iff,
      decide_eq_false_iff_not]
    have hmonth : (partsOf d).month = monthFromDay d + 1 := rfl
    have hday : (partsOf d).day = dateFromDay d := rfl
    rw [hmonth, hday]
    omega

theorem windowInstant_dateString {d : ℤ} (h : InYears d) (hour minute : ℤ) :
    windowInstant (dateString d) hour minute =
      .ok (d * msPerDay - 25200000 + (hour * 60 + minute) * 60000) := by
  unfold windowInstant
  rw [dayStart_dateString h]
  rfl

/-! ### Loops over days -/

/-- The days from one to another. -/
def days (a b : ℤ) : List ℤ := (List.range (b + 1 - a).toNat).map fun i : ℕ ↦ a + i

theorem mem_days {a b d : ℤ} : d ∈ days a b ↔ a ≤ d ∧ d ≤ b := by
  unfold days
  simp only [List.mem_map, List.mem_range]
  constructor
  · rintro ⟨i, hi, rfl⟩
    omega
  · exact fun _ ↦ ⟨(d - a).toNat, by omega, by omega⟩

theorem nodup_days (a b : ℤ) : (days a b).Nodup := by
  refine List.Nodup.map (fun i j hij ↦ ?_) List.nodup_range
  omega

theorem days_eq_nil {a b : ℤ} (h : b < a) : days a b = [] := by
  unfold days
  rw [show (b + 1 - a).toNat = 0 by omega]
  rfl

theorem days_eq_cons {a b : ℤ} (h : a ≤ b) : days a b = a :: days (a + 1) b := by
  unfold days
  rw [show (b + 1 - a).toNat = (b + 1 - (a + 1)).toNat + 1 by omega, List.range_succ_eq_map,
    List.map_cons, List.map_map]
  congr 1
  · omega
  · exact List.map_congr_left fun i _ ↦ by simp only [Function.comp_apply]; push_cast; omega

theorem toFinset_days (a b : ℤ) : (days a b).toFinset = Finset.Icc a b := by
  ext d
  rw [List.mem_toFinset, mem_days, Finset.mem_Icc]

/-- A loop that keeps a property of what it has done and the value that it has reached. -/
theorem foldlM_ok_of {α β ε : Type} {f : β → α → Except ε β} {l : List α} {b : β}
    (P : List α → β → Prop) (hnil : P [] b)
    (hstep : ∀ done, ∀ a ∈ l, ∀ b, P done b → ∃ b', f b a = .ok b' ∧ P (done ++ [a]) b') :
    ∃ b', l.foldlM f b = .ok b' ∧ P l b' := by
  have key : ∀ rest done, (∀ a ∈ rest, a ∈ l) → ∀ b, P done b →
      ∃ b', rest.foldlM f b = .ok b' ∧ P (done ++ rest) b' := by
    intro rest
    induction rest with
    | nil => exact fun done _ b hb ↦ ⟨b, rfl, by rwa [List.append_nil]⟩
    | cons a rest ih =>
      intro done hmem b hb
      obtain ⟨b', hb', hP⟩ := hstep done a (hmem a List.mem_cons_self) b hb
      obtain ⟨b'', hb'', hP'⟩ :=
        ih (done ++ [a]) (fun a' ha' ↦ hmem a' (List.mem_cons_of_mem _ ha')) b' hP
      rw [List.append_assoc] at hP'
      refine ⟨b'', ?_, hP'⟩
      rw [List.foldlM_cons, hb']
      exact hb''
  exact key l [] (fun _ ha ↦ ha) b hnil

/-- A loop that throws at one element, and does not throw anything else. -/
theorem foldlM_error_of {α β ε : Type} {f : β → α → Except ε β} {e : ε} {l : List α} {P : α → Prop}
    (hstep : ∀ a ∈ l, ∀ b, (∃ b', f b a = .ok b') ∨ f b a = .error e) (hex : ∃ a ∈ l, P a)
    (hthrow : ∀ a ∈ l, P a → ∀ b, f b a = .error e) (b : β) : l.foldlM f b = .error e := by
  induction l generalizing b with
  | nil =>
    obtain ⟨a, ha, -⟩ := hex
    cases ha
  | cons a l ih =>
    rw [List.foldlM_cons]
    rcases hstep a List.mem_cons_self b with ⟨b', hb'⟩ | herror
    · rw [hb']
      obtain ⟨a', ha', hP⟩ := hex
      rcases List.mem_cons.1 ha' with rfl | ha'
      · rw [hthrow a' List.mem_cons_self hP b] at hb'
        cases hb'
      · exact ih (fun x hx ↦ hstep x (List.mem_cons_of_mem _ hx)) ⟨a', ha', hP⟩
          (fun x hx ↦ hthrow x (List.mem_cons_of_mem _ hx)) b'
    · rw [herror]
      rfl

/-- A loop over dates is one over days. -/
theorem forDates_dateString {α : Type} {body : JsString → α → Except CalendarError α}
    {f : ℤ → α → α} {a b : ℤ} (ha : InYears a) (hb : InYears b) (hb' : InYears (b + 1))
    (hspan : b - a < maxSpanDays)
    (hbody : ∀ d, a ≤ d → d ≤ b → ∀ x, body (dateString d) x = .ok (f d x)) (x : α) :
    forDates body (dateString a) (dateString b) x =
      .ok ((days a b).foldl (fun x d ↦ f d x) x) := by
  have key : ∀ fuel : ℕ, ∀ a x, InYears a → a ≤ b + 1 → b + 1 - a < fuel →
      (∀ d, a ≤ d → d ≤ b → ∀ x, body (dateString d) x = .ok (f d x)) →
      forDatesAux body (dateString b) fuel (dateString a) x =
        .ok ((days a b).foldl (fun x d ↦ f d x) x) := by
    intro fuel
    induction fuel with
    | zero => intros; omega
    | succ fuel ih =>
      intro a x ha hle hfuel hbody
      unfold forDatesAux
      by_cases hab : a ≤ b
      · have hnext : InYears (a + 1) := by
          refine ⟨by have := ha.1; omega, ?_⟩
          have := hb'.2
          omega
        rw [if_pos ((compareDate_le_iff ha hb).2 hab), hbody a le_rfl hab, days_eq_cons hab,
          List.foldl_cons]
        change (addDays (dateString a) 1 >>= fun next ↦
          forDatesAux body (dateString b) fuel next (f a x)) = _
        rw [addDays_dateString ha]
        exact ih (a + 1) (f a x) hnext (by omega) (by push_cast at hfuel; omega)
          fun d hd ↦ hbody d (by omega)
      · rw [if_neg fun hc ↦ hab ((compareDate_le_iff ha hb).1 hc), days_eq_nil (by omega)]
        rfl
  unfold forDates
  by_cases hab : a ≤ b + 1
  · exact key _ a x ha hab (by unfold maxSpanDays at hspan ⊢; omega) hbody
  · unfold forDatesAux
    rw [if_neg fun hc ↦ hab (by have := (compareDate_le_iff ha hb).1 hc; omega),
      days_eq_nil (by omega)]
    rfl

end EasyBook.Reports

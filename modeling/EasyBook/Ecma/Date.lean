import Mathlib

/-!
# ECMAScript dates

The time arithmetic of the language specification: a time value is a number of milliseconds since
the epoch, a day number is its quotient by the length of a day, and year, month and date follow
from the day number by the proleptic Gregorian calendar. Months are counted from zero, dates from
one, and weekdays from Sunday, as in the language.

The lemmas are the two round trips between day numbers and calendar fields (`makeDay_fields`,
`fields_makeDay`) and the order (`makeDay_lt_iff`): day numbers grow with year, month and date, in
this order of significance.
-/

namespace JsDate

/-- Milliseconds in a day. -/
def msPerDay : ℤ := 86400000

/-- The number of the day a time value lies in. -/
def day (t : ℤ) : ℤ := t / msPerDay

/-! ### Years -/

/-- The number of the first day of year `y`. -/
def dayFromYear (y : ℤ) : ℤ :=
  365 * (y - 1970) + (y - 1969) / 4 - (y - 1901) / 100 + (y - 1601) / 400

/-- Leap years of the Gregorian calendar. -/
def inLeapYear (y : ℤ) : Bool := decide (y % 4 = 0 ∧ (y % 100 ≠ 0 ∨ y % 400 = 0))

/-- The leap day of a year, if it has one. -/
def leapDay (leap : Bool) : ℤ := if leap then 1 else 0

/-- A year has one leap day or none. -/
theorem leapDay_cases (leap : Bool) : leapDay leap = 0 ∨ leapDay leap = 1 := by
  cases leap <;> simp [leapDay]

/-- A year is 365 days long, or 366. -/
theorem dayFromYear_succ (y : ℤ) :
    dayFromYear (y + 1) = dayFromYear y + 365 + leapDay (inLeapYear y) := by
  simp only [dayFromYear, leapDay, inLeapYear, decide_eq_true_eq]
  split <;> omega

/-- Years begin one after the other. -/
theorem dayFromYear_lt_succ (y : ℤ) : dayFromYear y < dayFromYear (y + 1) := by
  rw [dayFromYear_succ]
  rcases leapDay_cases (inLeapYear y) with h | h <;> omega

/-- `n` years have at least `365 n` days. -/
theorem dayFromYear_add_le (y : ℤ) (n : ℕ) : dayFromYear y + 365 * n ≤ dayFromYear (y + n) := by
  induction n with
  | zero => simp
  | succ n ih =>
    have := dayFromYear_succ (y + n)
    have hl := leapDay_cases (inLeapYear (y + n))
    push_cast
    rw [← add_assoc]
    omega

/-- Later years begin later. -/
theorem dayFromYear_strictMono : StrictMono dayFromYear := by
  intro y y' h
  obtain ⟨n, hn⟩ := Int.eq_ofNat_of_zero_le (show 0 ≤ y' - y by omega)
  have := dayFromYear_add_le y n
  rw [show y + (n : ℤ) = y' by omega] at this
  omega

/-- The year a day lies in. The quotient by the mean length of a year is off by one at most. -/
def yearFromDay (d : ℤ) : ℤ :=
  let y := 1970 + d * 400 / 146097
  if d < dayFromYear y then y - 1 else if dayFromYear (y + 1) ≤ d then y + 1 else y

/-- A day lies in its year. -/
theorem yearFromDay_bounds (d : ℤ) :
    dayFromYear (yearFromDay d) ≤ d ∧ d < dayFromYear (yearFromDay d + 1) := by
  have hlow : dayFromYear (1970 + d * 400 / 146097 - 1) ≤ d := by
    simp only [dayFromYear]
    omega
  have hhigh : d < dayFromYear (1970 + d * 400 / 146097 + 1 + 1) := by
    simp only [dayFromYear]
    omega
  simp only [yearFromDay]
  split
  · next h => exact ⟨hlow, by rwa [sub_add_cancel]⟩
  · next h =>
    split
    · next h' => exact ⟨h', hhigh⟩
    · next h' => exact ⟨by omega, by omega⟩

/-- Later days lie in later years, or the same. -/
theorem yearFromDay_mono {d d' : ℤ} (h : d ≤ d') : yearFromDay d ≤ yearFromDay d' := by
  have hl := (yearFromDay_bounds d).1
  have hu := (yearFromDay_bounds d').2
  have hlt : yearFromDay d < yearFromDay d' + 1 := dayFromYear_strictMono.lt_iff_lt.1 (by omega)
  omega

/-- The year of a day is the one it lies in. -/
theorem yearFromDay_eq {d y : ℤ} (h : dayFromYear y ≤ d) (h' : d < dayFromYear (y + 1)) :
    yearFromDay d = y := by
  obtain ⟨hl, hu⟩ := yearFromDay_bounds d
  have h₁ : y < yearFromDay d + 1 := dayFromYear_strictMono.lt_iff_lt.1 (by omega)
  have h₂ : yearFromDay d < y + 1 := dayFromYear_strictMono.lt_iff_lt.1 (by omega)
  omega

/-! ### Months -/

/-- Days of the year before the first of month `m`. -/
def daysBeforeMonth (leap : Bool) : ℕ → ℤ
  | 0 => 0
  | 1 => 31
  | 2 => 59 + leapDay leap
  | 3 => 90 + leapDay leap
  | 4 => 120 + leapDay leap
  | 5 => 151 + leapDay leap
  | 6 => 181 + leapDay leap
  | 7 => 212 + leapDay leap
  | 8 => 243 + leapDay leap
  | 9 => 273 + leapDay leap
  | 10 => 304 + leapDay leap
  | 11 => 334 + leapDay leap
  | _ => 365 + leapDay leap

/-- The month of the `k`-th day of a year, the first being the zeroth. -/
def monthOfYearDay (leap : Bool) (k : ℤ) : ℕ :=
  if k < 31 then 0
  else if k < 59 + leapDay leap then 1
  else if k < 90 + leapDay leap then 2
  else if k < 120 + leapDay leap then 3
  else if k < 151 + leapDay leap then 4
  else if k < 181 + leapDay leap then 5
  else if k < 212 + leapDay leap then 6
  else if k < 243 + leapDay leap then 7
  else if k < 273 + leapDay leap then 8
  else if k < 304 + leapDay leap then 9
  else if k < 334 + leapDay leap then 10
  else 11

/-- The length of a month. -/
def monthLength (leap : Bool) (m : ℕ) : ℤ := daysBeforeMonth leap (m + 1) - daysBeforeMonth leap m

/-- Months are numbered from 0 to 11. -/
theorem monthOfYearDay_lt (leap : Bool) (k : ℤ) : monthOfYearDay leap k < 12 := by
  unfold monthOfYearDay
  repeat' split
  all_goals omega

/-- A day of a year lies in its month. -/
theorem monthOfYearDay_bounds (leap : Bool) {k : ℤ} (h : 0 ≤ k) (h' : k < 365 + leapDay leap) :
    daysBeforeMonth leap (monthOfYearDay leap k) ≤ k ∧
      k < daysBeforeMonth leap (monthOfYearDay leap k + 1) := by
  unfold monthOfYearDay
  repeat' split
  all_goals simp only [daysBeforeMonth]; omega

/-- Months begin one after the other. -/
theorem daysBeforeMonth_succ_le (leap : Bool) {m m' : ℕ} (h : m < m') (h' : m' ≤ 12) :
    daysBeforeMonth leap (m + 1) ≤ daysBeforeMonth leap m' := by
  have hl := leapDay_cases leap
  interval_cases m' <;> interval_cases m <;> simp only [daysBeforeMonth] <;> omega

/-- No month begins before its year. -/
theorem daysBeforeMonth_nonneg (leap : Bool) {m : ℕ} (h : m ≤ 12) :
    0 ≤ daysBeforeMonth leap m := by
  have hl := leapDay_cases leap
  interval_cases m <;> simp only [daysBeforeMonth] <;> omega

/-- Nor after its end. -/
theorem daysBeforeMonth_le (leap : Bool) {m : ℕ} (h : m ≤ 12) :
    daysBeforeMonth leap m ≤ 365 + leapDay leap := by
  have hl := leapDay_cases leap
  interval_cases m <;> simp only [daysBeforeMonth] <;> omega

/-- The month of a day is the one it lies in. -/
theorem monthOfYearDay_eq {leap : Bool} {k : ℤ} {m : ℕ} (hm : m < 12)
    (h : daysBeforeMonth leap m ≤ k) (h' : k < daysBeforeMonth leap (m + 1)) :
    monthOfYearDay leap k = m := by
  have hnn := daysBeforeMonth_nonneg leap (show m ≤ 12 by omega)
  have hle := daysBeforeMonth_le leap (show m + 1 ≤ 12 by omega)
  obtain ⟨hl, hu⟩ := monthOfYearDay_bounds leap (k := k) (by omega) (by omega)
  have hlt := monthOfYearDay_lt leap k
  rcases Nat.lt_trichotomy (monthOfYearDay leap k) m with hc | hc | hc
  · have := daysBeforeMonth_succ_le leap hc (by omega)
    omega
  · exact hc
  · have := daysBeforeMonth_succ_le leap hc (by omega)
    omega

/-- No month has more than 31 days. -/
theorem monthLength_le (leap : Bool) {m : ℕ} (h : m < 12) : monthLength leap m ≤ 31 := by
  have hl := leapDay_cases leap
  interval_cases m <;> simp only [monthLength, daysBeforeMonth] <;> omega

/-! ### Calendar fields of a day -/

/-- The month of a day, `0` to `11`. -/
def monthFromDay (d : ℤ) : ℕ :=
  monthOfYearDay (inLeapYear (yearFromDay d)) (d - dayFromYear (yearFromDay d))

/-- The date of a day, from `1`. -/
def dateFromDay (d : ℤ) : ℤ :=
  d - dayFromYear (yearFromDay d) -
    daysBeforeMonth (inLeapYear (yearFromDay d)) (monthFromDay d) + 1

/-- The weekday of a day, `0` for Sunday. -/
def weekDay (d : ℤ) : ℤ := (4 + d) % 7

/-- The number of a day from its calendar fields; months and dates may overflow. -/
def makeDay (y m date : ℤ) : ℤ :=
  dayFromYear (y + m / 12) + daysBeforeMonth (inLeapYear (y + m / 12)) (m % 12).toNat + date - 1

/-- The day of a date whose month is one of the twelve. -/
theorem makeDay_of_lt (y : ℤ) {m : ℕ} (hm : m < 12) (date : ℤ) :
    makeDay y m date = dayFromYear y + daysBeforeMonth (inLeapYear y) m + date - 1 := by
  have hdiv : (m : ℤ) / 12 = 0 := by omega
  have hmod : ((m : ℤ) % 12).toNat = m := by omega
  rw [makeDay, hdiv, hmod, add_zero]

/-- The month of a day is one of the twelve. -/
theorem monthFromDay_lt (d : ℤ) : monthFromDay d < 12 := monthOfYearDay_lt _ _

/-- The date of a day is one of its month's. -/
theorem dateFromDay_bounds (d : ℤ) :
    1 ≤ dateFromDay d ∧
      dateFromDay d ≤ monthLength (inLeapYear (yearFromDay d)) (monthFromDay d) := by
  obtain ⟨hl, hu⟩ := yearFromDay_bounds d
  rw [dayFromYear_succ] at hu
  obtain ⟨h, h'⟩ := monthOfYearDay_bounds (inLeapYear (yearFromDay d))
    (k := d - dayFromYear (yearFromDay d)) (by omega) (by omega)
  simp only [dateFromDay, monthLength, monthFromDay]
  omega

/-- A day is determined by its calendar fields. -/
theorem makeDay_fields (d : ℤ) :
    makeDay (yearFromDay d) (monthFromDay d) (dateFromDay d) = d := by
  rw [makeDay_of_lt _ (monthFromDay_lt d), dateFromDay]
  omega

/-- Valid calendar fields are the fields of the day they name. -/
theorem fields_makeDay (y : ℤ) {m : ℕ} (hm : m < 12) {date : ℤ} (h : 1 ≤ date)
    (h' : date ≤ monthLength (inLeapYear y) m) :
    yearFromDay (makeDay y m date) = y ∧ monthFromDay (makeDay y m date) = m ∧
      dateFromDay (makeDay y m date) = date := by
  have hmk := makeDay_of_lt y hm date
  have hnn := daysBeforeMonth_nonneg (inLeapYear y) (show m ≤ 12 by omega)
  have hle := daysBeforeMonth_le (inLeapYear y) (show m + 1 ≤ 12 by omega)
  have hsucc := dayFromYear_succ y
  rw [monthLength] at h'
  have hy : yearFromDay (makeDay y m date) = y := yearFromDay_eq (by omega) (by omega)
  have hmonth : monthFromDay (makeDay y m date) = m := by
    rw [monthFromDay, hy]
    exact monthOfYearDay_eq hm (by omega) (by omega)
  refine ⟨hy, hmonth, ?_⟩
  rw [dateFromDay, hy, hmonth]
  omega

/-- The fields of a day as a triple compared by significance. -/
def FieldsLt (y : ℤ) (m : ℕ) (date : ℤ) (y' : ℤ) (m' : ℕ) (date' : ℤ) : Prop :=
  y < y' ∨ y = y' ∧ (m < m' ∨ m = m' ∧ date < date')

/-- Later fields name later days. -/
theorem makeDay_lt {y y' date date' : ℤ} {m m' : ℕ} (hm : m < 12) (hm' : m' < 12)
    (hd : date ≤ monthLength (inLeapYear y) m) (hd' : 1 ≤ date')
    (h : FieldsLt y m date y' m' date') : makeDay y m date < makeDay y' m' date' := by
  rw [makeDay_of_lt y hm, makeDay_of_lt y' hm']
  rw [monthLength] at hd
  rcases h with h | ⟨rfl, h | ⟨rfl, h⟩⟩
  · have hle := daysBeforeMonth_le (inLeapYear y) (show m + 1 ≤ 12 by omega)
    have hsucc := dayFromYear_succ y
    have hmono := dayFromYear_strictMono.monotone (show y + 1 ≤ y' by omega)
    have hnn := daysBeforeMonth_nonneg (inLeapYear y') (show m' ≤ 12 by omega)
    omega
  · have := daysBeforeMonth_succ_le (inLeapYear y) h (by omega)
    omega
  · omega

/-- Days compare as their fields do. -/
theorem lt_iff_fieldsLt {d d' : ℤ} :
    d < d' ↔ FieldsLt (yearFromDay d) (monthFromDay d) (dateFromDay d)
      (yearFromDay d') (monthFromDay d') (dateFromDay d') := by
  have key : ∀ d d' : ℤ, FieldsLt (yearFromDay d) (monthFromDay d) (dateFromDay d)
      (yearFromDay d') (monthFromDay d') (dateFromDay d') → d < d' := fun d d' h ↦ by
    have := makeDay_lt (monthFromDay_lt d) (monthFromDay_lt d') (dateFromDay_bounds d).2
      (dateFromDay_bounds d').1 h
    rwa [makeDay_fields, makeDay_fields] at this
  refine ⟨fun h ↦ ?_, key d d'⟩
  -- the fields of two days are comparable, and two of the three cases contradict `d < d'`
  by_contra hn
  simp only [FieldsLt, not_or, not_and] at hn
  have hle : ¬ FieldsLt (yearFromDay d') (monthFromDay d') (dateFromDay d')
      (yearFromDay d) (monthFromDay d) (dateFromDay d) := fun h' ↦ by
    have := key d' d h'
    omega
  simp only [FieldsLt, not_or, not_and] at hle
  have hy : yearFromDay d = yearFromDay d' := by omega
  have hm : monthFromDay d = monthFromDay d' := by
    have := (hn.2 hy).1
    have := (hle.2 hy.symm).1
    omega
  have hdate : dateFromDay d = dateFromDay d' := by
    have := (hn.2 hy).2 hm
    have := (hle.2 hy.symm).2 hm.symm
    omega
  have := makeDay_fields d
  rw [hy, hm, hdate, makeDay_fields] at this
  omega

end JsDate

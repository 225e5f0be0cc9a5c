import EasyBook.Ecma.Date
import EasyBook.Ecma.Text

/-!
# Dates that may be invalid

The time value of a `Date` is an integer or `NaN` (`none`), and so is each of its fields. A field is
at most as long as the largest time value allows (`yearFromDay_bounds_of_clip`).
-/

namespace JsDate

open JsString

/-- `TimeClip`. -/
def timeClip (t : ℤ) : Option ℤ := if t.natAbs ≤ 8640000000000000 then some t else none

/-- `HourFromTime`. -/
def hourFromTime (t : ℤ) : ℤ := t / 3600000 % 24

/-- `MinFromTime`. -/
def minFromTime (t : ℤ) : ℤ := t / 60000 % 60

/-- `SecFromTime`. -/
def secFromTime (t : ℤ) : ℤ := t / 1000 % 60

/-- `msFromTime`. -/
def msFromTime (t : ℤ) : ℤ := t % 1000

/-- `String(n)` for an integer or `NaN`. -/
def ofNumber : Option ℤ → JsString
  | none => lit "NaN"
  | some n => decimal n

/-- `toISOString` of a valid date. A year of more than four digits has a sign and six. -/
def toISOString (t : ℤ) : JsString :=
  let year := yearFromDay (day t)
  (if 0 ≤ year ∧ year ≤ 9999 then padStart 4 48 (decimal year)
    else (if year < 0 then lit "-" else lit "+") ++ padStart 6 48 (radix 10 year.natAbs)) ++
  lit "-" ++ padStart 2 48 (radix 10 (monthFromDay (day t) + 1)) ++
  lit "-" ++ padStart 2 48 (decimal (dateFromDay (day t))) ++
  lit "T" ++ padStart 2 48 (decimal (hourFromTime t)) ++
  lit ":" ++ padStart 2 48 (decimal (minFromTime t)) ++
  lit ":" ++ padStart 2 48 (decimal (secFromTime t)) ++
  lit "." ++ padStart 3 48 (decimal (msFromTime t)) ++ lit "Z"

theorem length_radix_le {w : ℕ} (hw : w ≠ 0) {n : ℕ} (h : n < 10 ^ w) :
    (radix 10 n).length ≤ w := by
  induction w generalizing n with
  | zero => exact absurd rfl hw
  | succ w ih =>
    rw [radix_eq (by norm_num)]
    split_ifs with hn
    · simp
    · rcases eq_or_ne w 0 with rfl | hw'
      · omega
      · have hdiv : n / 10 < 10 ^ w := by
          rw [pow_succ] at h
          omega
        have := ih hw' hdiv
        simpa using this

theorem length_decimal_le {w : ℕ} (hw : w ≠ 0) {n : ℤ} (h : n.natAbs < 10 ^ w) :
    (decimal n).length ≤ w + 1 := by
  cases n with
  | ofNat n => exact (length_radix_le hw h).trans (Nat.le_succ w)
  | negSucc n => simpa [decimal] using length_radix_le hw h

/-- The years of time values. -/
theorem yearFromDay_bounds_of_clip {t t' : ℤ} (h : timeClip t = some t') :
    -271821 ≤ yearFromDay (day t') ∧ yearFromDay (day t') ≤ 275760 := by
  have ht : t.natAbs ≤ 8640000000000000 ∧ t = t' := by
    unfold timeClip at h
    split_ifs at h with hle
    exact ⟨hle, Option.some.inj h⟩
  obtain ⟨hle, rfl⟩ := ht
  have hfirst : yearFromDay (-100000000) = -271821 := yearFromDay_eq (by decide) (by decide)
  have hlast : yearFromDay 100000000 = 275760 := yearFromDay_eq (by decide) (by decide)
  rw [← hfirst, ← hlast]
  constructor <;> refine yearFromDay_mono ?_ <;> unfold day msPerDay <;> omega

end JsDate

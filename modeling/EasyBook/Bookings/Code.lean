import EasyBook.Bookings.Model
import EasyBook.Ecma.Date

/-!
# Booking codes

`booking-code.ts`: the human-readable number of a booking, `BR-` with the Buddhist-era date of the
Bangkok day and the next number of that day, and the day range that the number is counted over.

The date part and the day range agree: two instants have the same date part exactly when they lie
in the same Bangkok day (`bookingCodeDatePart_eq_iff`), and a code determines its day and its
number (`formatBookingCode_inj`).
-/

namespace EasyBook

open ReadCommitted JsDate JsString

/-- `BANGKOK_UTC_OFFSET_MINUTES`. -/
def bangkokUtcOffsetMinutes : ℤ := 420

/-- `BUDDHIST_ERA_OFFSET`. -/
def buddhistEraOffset : ℤ := 543

/-- `BOOKING_CODE_PREFIX`. -/
def bookingCodePrefix : JsString := lit "BR"

/-- `BOOKING_CODE_SEQUENCE_WIDTH`. -/
def bookingCodeSequenceWidth : ℕ := 3

/-- `BOOKING_CODE_MAX_ATTEMPTS`. -/
def bookingCodeMaxAttempts : ℕ := 5

/-- The instant whose UTC fields read as Bangkok's. -/
def inBangkok (t : ℤ) : ℤ := t + bangkokUtcOffsetMinutes * 60000

/-- The Bangkok day of an instant, as a day number. -/
def bangkokDay (t : ℤ) : ℤ := day (inBangkok t)

/-- `yyyyMMdd` of the Bangkok day, in the Buddhist era. -/
def bookingCodeDatePart (t : ℤ) : JsString :=
  let d := bangkokDay t
  let year := yearFromDay d + buddhistEraOffset
  let month := padStart 2 48 (radix 10 (monthFromDay d + 1))
  let date := padStart 2 48 (decimal (dateFromDay d))
  decimal year ++ month ++ date

/-- The half-open range of the Bangkok day of an instant. -/
def bangkokDayRange (t : ℤ) : ℤ × ℤ :=
  let d := bangkokDay t
  let midnightLocal := makeDay (yearFromDay d) (monthFromDay d) (dateFromDay d) * msPerDay
  let start := midnightLocal - bangkokUtcOffsetMinutes * 60000
  (start, start + 86400000)

/-- The code of the booking after the first `sameDayCount` of the day. -/
def formatBookingCode (t : ℤ) (sameDayCount : ℕ) : JsString :=
  bookingCodePrefix ++ lit "-" ++ bookingCodeDatePart t ++ lit "-" ++
    padStart bookingCodeSequenceWidth 48 (radix 10 (sameDayCount + 1))

/-- `createdAt` lies in the Bangkok day of an instant. -/
def BookingRequest.createdOn (t : ℤ) (r : BookingRequest) : Bool :=
  decide ((bangkokDayRange t).1 ≤ r.createdAt) && decide (r.createdAt < (bangkokDayRange t).2)

/-- The number of requests created in the Bangkok day of an instant. -/
def sameDayCount (d : View) (t : ℤ) : ℕ := (d.all .request).countP (BookingRequest.createdOn t)

/-- The next code, counted in the caller's transaction. -/
def nextBookingCode (now : ℤ) : Tx JsString :=
  .select fun d ↦ .ret (formatBookingCode now (sameDayCount d now))

/-! ### Days -/

/-- The day range holds exactly the instants of the day. -/
theorem mem_bangkokDayRange {t u : ℤ} :
    ((bangkokDayRange t).1 ≤ u ∧ u < (bangkokDayRange t).2) ↔ bangkokDay u = bangkokDay t := by
  have hstart : (bangkokDayRange t).1 =
      bangkokDay t * msPerDay - bangkokUtcOffsetMinutes * 60000 := by
    simp only [bangkokDayRange, makeDay_fields]
  have hend : (bangkokDayRange t).2 = (bangkokDayRange t).1 + 86400000 := rfl
  rw [hend, hstart]
  simp only [bangkokDay, day, inBangkok, msPerDay, bangkokUtcOffsetMinutes]
  omega

private theorem length_two {n : ℕ} (h : n < 100) : (padStart 2 48 (radix 10 n)).length = 2 :=
  length_padStart (length_radix_le_two h)

private theorem decimal_date (d : ℤ) :
    decimal (dateFromDay d) = radix 10 (dateFromDay d).toNat ∧ (dateFromDay d).toNat < 100 := by
  obtain ⟨h, h'⟩ := dateFromDay_bounds d
  have hm := daysBeforeMonth_succ_le (inLeapYear (yearFromDay d))
    (Nat.lt_succ_self (monthFromDay d)) (by have := monthFromDay_lt d; omega)
  have hlen : monthLength (inLeapYear (yearFromDay d)) (monthFromDay d) ≤ 31 :=
    monthLength_le _ (monthFromDay_lt d)
  refine ⟨?_, by omega⟩
  rw [← decimal_natCast, Int.toNat_of_nonneg (by omega)]

/-- The date part is that of the day, and no other day has it. -/
theorem bookingCodeDatePart_eq_iff {t u : ℤ} :
    bookingCodeDatePart t = bookingCodeDatePart u ↔ bangkokDay t = bangkokDay u := by
  refine ⟨fun h ↦ ?_, fun h ↦ by simp only [bookingCodeDatePart, h]⟩
  obtain ⟨ht, ht'⟩ := decimal_date (bangkokDay t)
  obtain ⟨hu, hu'⟩ := decimal_date (bangkokDay u)
  have hmt := monthFromDay_lt (bangkokDay t)
  have hmu := monthFromDay_lt (bangkokDay u)
  simp only [bookingCodeDatePart, ht, hu] at h
  obtain ⟨h, hdate⟩ := List.append_inj' h (by rw [length_two ht', length_two hu'])
  obtain ⟨hyear, hmonth⟩ := List.append_inj' h
    (by rw [length_two (by omega), length_two (by omega)])
  have hinj := padStart_radix_injective 2 (b := 10) (by decide) (by decide)
  have hy := decimal_injective hyear
  have hm := hinj hmonth
  have hd := hinj hdate
  have hbt := (dateFromDay_bounds (bangkokDay t)).1
  have hbu := (dateFromDay_bounds (bangkokDay u)).1
  rw [← makeDay_fields (bangkokDay t), ← makeDay_fields (bangkokDay u)]
  have e₁ : yearFromDay (bangkokDay t) = yearFromDay (bangkokDay u) := by omega
  have e₂ : monthFromDay (bangkokDay t) = monthFromDay (bangkokDay u) := by omega
  have e₃ : dateFromDay (bangkokDay t) = dateFromDay (bangkokDay u) := by omega
  rw [e₁, e₂, e₃]

/-- A code determines its day and its number. -/
theorem formatBookingCode_inj {t u : ℤ} {m n : ℕ} :
    formatBookingCode t m = formatBookingCode u n ↔ bangkokDay t = bangkokDay u ∧ m = n := by
  constructor
  · intro h
    have hdigit : ∀ k : ℕ, 45 ∉ padStart bookingCodeSequenceWidth 48 (radix 10 (k + 1)) :=
      fun k hk ↦ by
        rcases mem_padStart hk with hk | hk
        · omega
        · have := mem_radix_ten hk
          omega
    have hsep : ∀ (a b : JsString), a ++ lit "-" ++ b = a ++ 45 :: b := fun a b ↦ by
      rw [List.append_assoc]
      rfl
    simp only [formatBookingCode, hsep] at h
    obtain ⟨hdate, hseq⟩ := append_cons_inj (hdigit m) (hdigit n) h
    have hdate := List.append_cancel_left hdate
    have hseq := padStart_radix_injective _ (b := 10) (by decide) (by decide) hseq
    exact ⟨bookingCodeDatePart_eq_iff.1 (List.cons.inj hdate).2, by omega⟩
  · rintro ⟨h, rfl⟩
    rw [formatBookingCode, formatBookingCode, bookingCodeDatePart_eq_iff.2 h]

example : formatBookingCode 1788321600000 0 = lit "BR-25690902-001" := by decide +kernel

end EasyBook

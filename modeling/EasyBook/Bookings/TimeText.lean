import EasyBook.Bookings.Code
import EasyBook.Ecma.Clock
import EasyBook.Ecma.Surrogates

/-!
# The dates and times of a booking, as text

`describeSlots` names the distinct Bangkok dates of some slots and their common period. Its texts
are never empty and use no character outside the basic plane, whatever the slots are.
-/

namespace EasyBook

open JsString JsDate

/-- `THAI_MONTHS_SHORT`. -/
def thaiMonthsShort : List JsString :=
  [lit "ม.ค.", lit "ก.พ.", lit "มี.ค.", lit "เม.ย.", lit "พ.ค.", lit "มิ.ย.", lit "ก.ค.",
    lit "ส.ค.", lit "ก.ย.", lit "ต.ค.", lit "พ.ย.", lit "ธ.ค."]

/-- `bangkok`, of a time value. -/
def bangkokTime (time : ℤ) : Option ℤ := timeClip (time + bangkokUtcOffsetMinutes * 60000)

/-- `thaiShortDate`. -/
def thaiShortDate (time : ℤ) : JsString :=
  let localTime := bangkokTime time
  ofNumber (localTime.map fun t ↦ dateFromDay (day t)) ++ lit " " ++
    (localTime.bind fun t ↦ thaiMonthsShort[monthFromDay (day t)]?).getD (lit "undefined") ++
    lit " " ++ ofNumber (localTime.map fun t ↦ yearFromDay (day t) + buddhistEraOffset)

/-- `bangkokClock`. -/
def bangkokClock (time : ℤ) : JsString :=
  padStart 2 48 (ofNumber ((bangkokTime time).map hourFromTime)) ++ lit ":" ++
    padStart 2 48 (ofNumber ((bangkokTime time).map minFromTime))

/-- `SlotTimes`. -/
structure SlotTimes where
  startAt : ℤ
  endAt : ℤ

/-- The result of `describeSlots`. -/
structure SlotsText where
  dateText : JsString
  dateSummary : JsString
  periodText : JsString

/-- The distinct dates of the slots, in the order of their starts. -/
def slotDates (slots : List SlotTimes) : List JsString :=
  ((slots.mergeSort fun a b ↦ decide (a.startAt ≤ b.startAt)).map
    fun s ↦ thaiShortDate s.startAt).eraseDups

/-- The distinct periods of the slots. -/
def slotPeriods (slots : List SlotTimes) : List JsString :=
  (slots.map fun s ↦ bangkokClock s.startAt ++ lit " - " ++ bangkokClock s.endAt).eraseDups

/-- `describeSlots`. -/
def describeSlots (slots : List SlotTimes) : SlotsText :=
  if slots = [] then ⟨lit "-", lit "-", lit "-"⟩
  else
    let dates := slotDates slots
    let first := dates.head?.getD []
    let periods := slotPeriods slots
    { dateText := if dates.length = 1 then first else
        [10].intercalate (dates.map fun d ↦ lit "• " ++ d)
      dateSummary := if dates.length = 1 then first else
        first ++ lit " - " ++ dates.getLast?.getD [] ++ lit " (รวม " ++ radix 10 dates.length ++
          lit " วัน)"
      periodText := if periods.length = 1 then periods.head?.getD [] ++ lit " น."
        else lit "หลายช่วงเวลา" }

/-! ### The texts -/

variable {slots : List SlotTimes} {time : ℤ} {n : Option ℤ} {u : ℕ}

/-- Digits are plain. -/
theorem plain_radix {n : ℕ} (hu : u ∈ radix 10 n) : Plain u :=
  .inl ((mem_radix_ten hu).2.trans_lt (by decide))

/-- So is the text of a number. -/
theorem plain_ofNumber (hu : u ∈ ofNumber n) : Plain u := by
  match n with
  | none => exact (by decide : ∀ u ∈ lit "NaN", Plain u) u hu
  | some (.ofNat n) => exact plain_radix hu
  | some (.negSucc n) =>
    rcases List.mem_cons.mp hu with rfl | hu
    · decide
    · exact plain_radix hu

/-- So is a padded number. -/
theorem plain_padStart {width : ℕ} (hu : u ∈ padStart width 48 (ofNumber n)) : Plain u := by
  rcases mem_padStart hu with rfl | hu
  · decide
  · exact plain_ofNumber hu

/-- So is a short date, whose month is Thai. -/
theorem plain_thaiShortDate (hu : u ∈ thaiShortDate time) : Plain u := by
  have hmonths : ∀ m ∈ thaiMonthsShort, ∀ u ∈ m, Plain u := by decide
  have hspace : ∀ u ∈ lit " ", Plain u := by decide
  simp only [thaiShortDate, List.mem_append] at hu
  rcases hu with (((hu | hu) | hu) | hu) | hu
  · exact plain_ofNumber hu
  · exact hspace u hu
  · cases hmonth : (bangkokTime time).bind fun t ↦ thaiMonthsShort[monthFromDay (day t)]? with
    | none =>
      rw [hmonth] at hu
      exact (by decide : ∀ u ∈ lit "undefined", Plain u) u hu
    | some m =>
      rw [hmonth] at hu
      obtain ⟨t, -, hm⟩ := Option.bind_eq_some_iff.mp hmonth
      exact hmonths m (List.mem_of_getElem? hm) u hu
  · exact hspace u hu
  · exact plain_ofNumber hu

/-- A date is never empty. -/
theorem thaiShortDate_ne_nil : thaiShortDate time ≠ [] := by
  have hspace : lit " " ≠ [] := by decide
  simp [thaiShortDate, hspace]

/-- So is a time of day. -/
theorem plain_bangkokClock (hu : u ∈ bangkokClock time) : Plain u := by
  simp only [bangkokClock, List.mem_append] at hu
  rcases hu with (hu | hu) | hu
  · exact plain_padStart hu
  · exact (by decide : ∀ u ∈ lit ":", Plain u) u hu
  · exact plain_padStart hu

/-- Erasing duplicates empties no list. -/
theorem eraseDups_ne_nil {l : List JsString} (h : l ≠ []) : l.eraseDups ≠ [] := by
  cases l with
  | nil => exact absurd rfl h
  | cons a l => simp [List.eraseDups_cons]

/-- Slots have dates. -/
theorem slotDates_ne_nil (h : slots ≠ []) : slotDates slots ≠ [] := by
  refine eraseDups_ne_nil fun hnil ↦ h ?_
  rw [List.map_eq_nil_iff] at hnil
  exact List.length_eq_zero_iff.mp (by rw [← List.length_mergeSort, hnil]; rfl)

/-- Each of which is the short date of some time. -/
theorem mem_slotDates {d : JsString} (h : d ∈ slotDates slots) :
    ∃ time, d = thaiShortDate time := by
  obtain ⟨s, -, rfl⟩ := List.mem_map.mp (List.mem_eraseDups.mp h)
  exact ⟨_, rfl⟩

/-- The periods of the slots are plain. -/
theorem plain_slotPeriods {p : JsString} (h : p ∈ slotPeriods slots) (hu : u ∈ p) : Plain u := by
  obtain ⟨s, -, rfl⟩ := List.mem_map.mp (List.mem_eraseDups.mp h)
  simp only [List.mem_append] at hu
  rcases hu with (hu | hu) | hu
  · exact plain_bangkokClock hu
  · exact (by decide : ∀ u ∈ lit " - ", Plain u) u hu
  · exact plain_bangkokClock hu

/-- Every text of the slots has something in it. -/
theorem describeSlots_ne_nil (slots : List SlotTimes) :
    (describeSlots slots).dateText ≠ [] ∧ (describeSlots slots).periodText ≠ [] := by
  unfold describeSlots
  split_ifs with hslots
  · exact ⟨by decide, by decide⟩
  obtain ⟨first, rest, hdates⟩ := List.exists_cons_of_ne_nil (slotDates_ne_nil hslots)
  obtain ⟨time, hfirst⟩ := mem_slotDates (hdates ▸ List.mem_cons_self (a := first))
  constructor
  · dsimp only
    rw [hdates]
    split_ifs
    · rw [hfirst]
      exact thaiShortDate_ne_nil
    · have hbullet : lit "• " ≠ [] := by decide
      cases rest <;> simp [List.intercalate_cons_cons, hbullet]
  · dsimp only
    split_ifs
    · have hunit : lit " น." ≠ [] := by decide
      simp [hunit]
    · decide

/-- No character of the summary and the period is written with surrogates. -/
theorem plain_describeSlots (slots : List SlotTimes) :
    (∀ u ∈ (describeSlots slots).dateSummary, Plain u) ∧
      ∀ u ∈ (describeSlots slots).periodText, Plain u := by
  unfold describeSlots
  split_ifs with hslots
  · exact ⟨by decide, by decide⟩
  have hdate {d : JsString} (h : d ∈ slotDates slots) : ∀ u ∈ d, Plain u := fun u hu ↦ by
    obtain ⟨time, rfl⟩ := mem_slotDates h
    exact plain_thaiShortDate hu
  have hdefault {o : Option JsString} (h : ∀ d ∈ o, ∀ u ∈ d, Plain u) :
      ∀ u ∈ o.getD [], Plain u := by
    cases o with
    | none => exact fun _ hu ↦ nomatch hu
    | some d => exact h d rfl
  have hfirst := hdefault fun d hd ↦ hdate (List.mem_of_head? hd)
  have hlast := hdefault fun d hd ↦ hdate (List.mem_of_getLast? hd)
  have hperiod : ∀ u ∈ (slotPeriods slots).head?.getD [], Plain u :=
    hdefault fun p hp u hu ↦ plain_slotPeriods (List.mem_of_head? hp) hu
  constructor
  · dsimp only
    split_ifs
    · exact hfirst
    · intro u hu
      simp only [List.mem_append] at hu
      rcases hu with ((((hu | hu) | hu) | hu) | hu) | hu
      · exact hfirst u hu
      · exact (by decide : ∀ u ∈ lit " - ", Plain u) u hu
      · exact hlast u hu
      · exact (by decide : ∀ u ∈ lit " (รวม ", Plain u) u hu
      · exact plain_radix hu
      · exact (by decide : ∀ u ∈ lit " วัน)", Plain u) u hu
  · dsimp only
    split_ifs
    · intro u hu
      rcases List.mem_append.mp hu with hu | hu
      · exact hperiod u hu
      · exact (by decide : ∀ u ∈ lit " น.", Plain u) u hu
    · decide

end EasyBook

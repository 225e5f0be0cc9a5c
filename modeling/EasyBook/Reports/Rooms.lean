import EasyBook.Ecma.Number
import EasyBook.Ecma.OrderedMap
import EasyBook.Reports.SchoolWindow

/-!
# The rooms of the dashboard

`computeRoomStates` of `dashboard-rooms.ts`: from the venues and the slots of the day, which room
is busy, free or off at one instant, and until when. The slots come in any order; what makes the
answer depend on them as a set is that no two slots of a venue begin together
(`roomStates_right`).
-/

namespace EasyBook.Reports

open JsDate JsNumber JsString

/-- `RoomVenueInput`. -/
structure RoomVenueInput where
  id : Cuid
  name : JsString
  capacity : ℤ
  isOpen : Bool
  closedReason : Option JsString

/-- `RoomSlotInput`. -/
structure RoomSlotInput extends Span where
  slotId : Cuid
  venueId : Cuid
  bookingRequestId : Cuid
  code : JsString
  purpose : JsString
  attendees : ℤ
  requesterName : Option JsString
  departmentName : Option JsString

/-- `DashboardVenueState`. -/
inductive DashboardVenueState where
  | busy
  | free
  | off
  deriving DecidableEq

/-- `DashboardFreeWindow`. -/
inductive DashboardFreeWindow where
  | untilNext
  | allDay
  | afternoon
  | restOfDay
  deriving DecidableEq

/-- `ComputedCurrentSlot`. -/
structure ComputedCurrentSlot where
  slotId : Cuid
  bookingRequestId : Cuid
  code : JsString
  startAt : ℤ
  endAt : ℤ
  startsBeforeToday : Bool
  endsAfterToday : Bool
  elapsedPercent : ℤ
  remainingMinutes : ℤ
  purpose : JsString
  attendees : ℤ
  requesterName : Option JsString
  departmentName : Option JsString

/-- `ComputedNextSlot`. -/
structure ComputedNextSlot where
  startAt : ℤ
  endAt : ℤ
  endsAfterToday : Bool
  purpose : JsString

/-- `ComputedRoom`. -/
structure ComputedRoom where
  id : Cuid
  name : JsString
  capacity : ℤ
  state : DashboardVenueState
  closedReason : Option JsString
  todaySlotCount : ℕ
  current : Option ComputedCurrentSlot
  next : Option ComputedNextSlot
  freeUntil : Option ℤ
  freeWindow : Option DashboardFreeWindow

/-- `counts`. -/
structure RoomCounts where
  all : ℕ
  busy : ℕ
  free : ℕ
  off : ℕ

/-- `RoomStatesResult`. -/
structure RoomStatesResult where
  serverTime : ℤ
  today : JsString
  withinOperatingHours : Bool
  todayBookings : ℕ
  inUseNow : ℕ
  counts : RoomCounts
  venues : List ComputedRoom

/-- `STATE_RANK`. -/
def stateRank : DashboardVenueState → ℕ
  | .busy => 0
  | .free => 1
  | .off => 2

/-- `clampPercent`. -/
def clampPercent (value : ℚ) : ℤ := min 100 (max 0 (mathRound value))

/-- `bangkokMinutesOfDay`. -/
def bangkokMinutesOfDay (t : ℤ) : ℤ :=
  let msOfDay := inBangkok t % msPerDay
  msOfDay / 3600000 * 60 + msOfDay % 3600000 / 60000

/-- `isOperatingTime`. `OPERATING_HOURS_START` is 07:30, `OPERATING_HOURS_END` is 16:30. -/
def isOperatingTime (t : ℤ) : Except CalendarError Bool := do
  let weekday := weekdayOf (← requireDate (bangkokDate t))
  if weekday = 0 ∨ weekday = 6 then return false
  let minutes := bangkokMinutesOfDay t
  return decide (7 * 60 + 30 ≤ minutes) && decide (minutes ≤ 16 * 60 + 30)

/-- The reduction to the slot that starts first. -/
def earliest (slots : List RoomSlotInput) : Option RoomSlotInput :=
  slots.foldl (fun earliest s ↦
    match earliest with
    | none => some s
    | some e => if s.startAt < e.startAt then some s else some e) none

/-- `slotsByVenue`, each list sorted. -/
def slotsByVenue (slots : List RoomSlotInput) : List (Cuid × List RoomSlotInput) :=
  (groupBy RoomSlotInput.venueId slots).map fun g ↦
    (g.1, g.2.insertionSort fun a b ↦ a.startAt ≤ b.startAt)

/-- The instant lies in the slot, which is half-open. -/
def Span.Contains (s : Span) (now : ℤ) : Prop := s.startAt ≤ now ∧ now < s.endAt

instance (s : Span) (now : ℤ) : Decidable (s.Contains now) := inferInstanceAs (Decidable (_ ∧ _))

/-- `current`, for the slot that is under way. -/
def computedCurrent (todayStart todayEnd now : ℤ) (s : RoomSlotInput) : ComputedCurrentSlot :=
  let durationMs := number (s.endAt - s.startAt)
  { slotId := s.slotId
    bookingRequestId := s.bookingRequestId
    code := s.code
    startAt := s.startAt
    endAt := s.endAt
    startsBeforeToday := decide (s.startAt < todayStart)
    endsAfterToday := decide (todayEnd < s.endAt)
    elapsedPercent :=
      if 0 < durationMs then
        clampPercent (number (number (number (now - s.startAt) / durationMs) * 100))
      else 100
    remainingMinutes := max 1 (mathCeil (number (number (s.endAt - now) / 60000)))
    purpose := s.purpose
    attendees := s.attendees
    requesterName := s.requesterName
    departmentName := s.departmentName }

/-- The room of a venue. -/
def computeRoom (todayStart todayEnd now : ℤ) (venueSlots : List RoomSlotInput)
    (venue : RoomVenueInput) : ComputedRoom :=
  let todaySlotCount := venueSlots.length
  -- A closed venue is off, whatever is booked in it.
  if venue.isOpen = false then
    { id := venue.id
      name := venue.name
      capacity := venue.capacity
      state := .off
      closedReason := some (venue.closedReason.getD (lit "สถานที่นี้ปิดรับการจองชั่วคราว"))
      todaySlotCount
      current := none
      next := none
      freeUntil := none
      freeWindow := none }
  else
    match earliest (venueSlots.filter fun s ↦ s.Contains now) with
    | some currentSlot =>
      { id := venue.id
        name := venue.name
        capacity := venue.capacity
        state := .busy
        closedReason := none
        todaySlotCount
        current := some (computedCurrent todayStart todayEnd now currentSlot)
        next := none
        freeUntil := none
        freeWindow := none }
    | none =>
      -- The room is free, until the next slot of today if there is one.
      let nextSlot := earliest (venueSlots.filter fun s ↦ now < s.startAt)
      let minutes := bangkokMinutesOfDay now
      { id := venue.id
        name := venue.name
        capacity := venue.capacity
        state := .free
        closedReason := none
        todaySlotCount
        current := none
        next := nextSlot.map fun s ↦
          { startAt := s.startAt
            endAt := s.endAt
            endsAfterToday := decide (todayEnd < s.endAt)
            purpose := s.purpose }
        freeUntil := nextSlot.map fun s ↦ s.startAt
        freeWindow := some (if nextSlot.isSome then .untilNext
          else if minutes < 12 * 60 then .allDay
          else if minutes ≤ 16 * 60 + 30 then .afternoon
          else .restOfDay) }

/-- The comparison of the final sort: by state, and by index within a state. -/
def RoomBefore (a b : ComputedRoom × ℕ) : Prop :=
  stateRank a.1.state < stateRank b.1.state ∨
    stateRank a.1.state = stateRank b.1.state ∧ a.2 ≤ b.2

instance (a b : ComputedRoom × ℕ) : Decidable (RoomBefore a b) :=
  inferInstanceAs (Decidable (_ ∨ _))

/-- The final sort. -/
def sortRooms (rooms : List ComputedRoom) : List ComputedRoom :=
  (rooms.zipIdx.insertionSort RoomBefore).map Prod.fst

/-- `computeRoomStates`. -/
def computeRoomStates (venues : List RoomVenueInput) (slots : List RoomSlotInput) (now : ℤ) :
    Except CalendarError RoomStatesResult := do
  let (todayStart, todayEnd) := bangkokDayRange now
  let slotsByVenue := slotsByVenue slots
  let rooms := venues.map fun venue ↦
    computeRoom todayStart todayEnd now ((slotsByVenue.lookup venue.id).getD []) venue
  let sorted := sortRooms rooms
  let counts : RoomCounts :=
    { all := sorted.length
      busy := (sorted.filter fun r ↦ r.state = .busy).length
      free := (sorted.filter fun r ↦ r.state = .free).length
      off := (sorted.filter fun r ↦ r.state = .off).length }
  -- The bookings of closed venues are not counted.
  let todayBookings :=
    (sorted.filter fun r ↦ r.state ≠ .off).foldl (fun sum r ↦ sum + r.todaySlotCount) 0
  return {
    serverTime := now
    today := bangkokDate now
    withinOperatingHours := ← isOperatingTime now
    todayBookings
    inUseNow := counts.busy
    counts
    venues := sorted }

/-! ### The slots of a venue -/

/-- The slots of a venue, in the order in which they start. -/
def slotsOf (slots : List RoomSlotInput) (venueId : Cuid) : List RoomSlotInput :=
  (slots.filter fun s ↦ s.venueId = venueId).insertionSort fun a b ↦ a.startAt ≤ b.startAt

theorem lookup_slotsByVenue (slots : List RoomSlotInput) (venueId : Cuid) :
    ((slotsByVenue slots).lookup venueId).getD [] = slotsOf slots venueId := by
  unfold slotsByVenue slotsOf
  rw [← lookup_groupBy]
  induction groupBy RoomSlotInput.venueId slots with
  | nil => rfl
  | cons g groups ih =>
    rw [List.map_cons, lookup_cons_if, lookup_cons_if]
    by_cases hk : venueId = g.1
    · simp [hk]
    · simpa [hk] using ih

theorem mem_slotsOf {slots : List RoomSlotInput} {venueId : Cuid} {s : RoomSlotInput} :
    s ∈ slotsOf slots venueId ↔ s ∈ slots ∧ s.venueId = venueId := by
  unfold slotsOf
  rw [List.mem_insertionSort, List.mem_filter, decide_eq_true_eq]

/-- The slots of the day: none is empty, each meets the day, and those of a venue are disjoint. -/
structure TodaySlots (now : ℤ) (slots : List RoomSlotInput) : Prop where
  pos : ∀ s ∈ slots, s.startAt < s.endAt
  today : ∀ s ∈ slots, s.startAt < (bangkokDayRange now).2 ∧ (bangkokDayRange now).1 < s.endAt
  disjoint : slots.Pairwise fun a b ↦ a.venueId = b.venueId → a.toSpan.Disjoint b.toSpan

theorem Span.Disjoint.symm {a b : Span} (h : a.Disjoint b) : b.Disjoint a := Or.symm h

/-- Two slots of a venue that have an instant in common are the same. -/
theorem TodaySlots.eq_of_common {now : ℤ} {slots : List RoomSlotInput} (h : TodaySlots now slots)
    {a b : RoomSlotInput} (ha : a ∈ slots) (hb : b ∈ slots) (hv : a.venueId = b.venueId) {t : ℤ}
    (hat : a.Contains t) (hbt : b.Contains t) : a = b := by
  by_contra hne
  have : Std.Symm fun a b : RoomSlotInput ↦
      a.venueId = b.venueId → a.toSpan.Disjoint b.toSpan := ⟨fun a b hab hv ↦ (hab hv.symm).symm⟩
  have hdisjoint := h.disjoint.forall ha hb hne hv
  unfold Span.Contains at hat hbt
  unfold Span.Disjoint at hdisjoint
  omega

theorem TodaySlots.perm {now : ℤ} {slots slots' : List RoomSlotInput} (h : TodaySlots now slots)
    (hperm : slots.Perm slots') : TodaySlots now slots' where
  pos s hs := h.pos s (hperm.mem_iff.2 hs)
  today s hs := h.today s (hperm.mem_iff.2 hs)
  disjoint := hperm.pairwise h.disjoint fun hab hv ↦ (hab hv.symm).symm

/-- The order of the slots does not matter. -/
theorem slotsOf_perm {now : ℤ} {slots slots' : List RoomSlotInput} (h : TodaySlots now slots)
    (hperm : slots.Perm slots') (venueId : Cuid) :
    slotsOf slots' venueId = slotsOf slots venueId := by
  have hp : (slotsOf slots' venueId).Perm (slotsOf slots venueId) :=
    (List.perm_insertionSort _ _).trans
      (((hperm.filter _).symm).trans (List.perm_insertionSort _ _).symm)
  refine hp.eq_of_pairwise (fun a b ha hb hab hba ↦ ?_)
    (List.pairwise_insertionSort _ _) (List.pairwise_insertionSort _ _)
  obtain ⟨ha, hva⟩ := mem_slotsOf.1 (hp.mem_iff.1 ha)
  obtain ⟨hb, hvb⟩ := mem_slotsOf.1 hb
  have heq : a.startAt = b.startAt := le_antisymm hab hba
  have hposa := h.pos a ha
  have hposb := h.pos b hb
  exact h.eq_of_common ha hb (hva.trans hvb.symm) (t := a.startAt) ⟨le_rfl, hposa⟩
    ⟨by omega, by omega⟩

/-! ### The earliest slot -/

theorem earliest_spec (slots : List RoomSlotInput) :
    (earliest slots = none ↔ slots = []) ∧
      ∀ s, earliest slots = some s → s ∈ slots ∧ ∀ x ∈ slots, s.startAt ≤ x.startAt := by
  unfold earliest
  induction slots using List.reverseRecOn with
  | nil => exact ⟨⟨fun _ ↦ rfl, fun _ ↦ rfl⟩, fun s hs ↦ nomatch hs⟩
  | append_singleton slots s ih =>
    obtain ⟨hnone, hsome⟩ := ih
    rw [List.foldl_append, List.foldl_cons, List.foldl_nil]
    generalize slots.foldl _ none = e at hnone hsome ⊢
    cases e with
    | none =>
      obtain rfl := hnone.1 rfl
      refine ⟨by simp, fun x hx ↦ ?_⟩
      obtain rfl := Option.some.inj hx
      exact ⟨List.mem_singleton_self _, fun y hy ↦ by rw [List.mem_singleton.1 hy]⟩
    | some e =>
      obtain ⟨hmem, hle⟩ := hsome e rfl
      dsimp only
      split_ifs with hlt
      · refine ⟨by simp, fun x hx ↦ ?_⟩
        obtain rfl := Option.some.inj hx
        refine ⟨by simp, fun y hy ↦ ?_⟩
        rcases List.mem_append.1 hy with hy | hy
        · exact hlt.le.trans (hle y hy)
        · rw [List.mem_singleton.1 hy]
      · refine ⟨by simp, fun x hx ↦ ?_⟩
        obtain rfl := Option.some.inj hx
        refine ⟨List.mem_append_left _ hmem, fun y hy ↦ ?_⟩
        rcases List.mem_append.1 hy with hy | hy
        · exact hle y hy
        · rw [List.mem_singleton.1 hy]
          exact not_lt.1 hlt

/-! ### A room -/

/-- The slot has an instant in the half-open range. -/
def Span.Meets (s : Span) (a b : ℤ) : Prop := s.startAt < b ∧ a < s.endAt

theorem clampPercent_mem (value : ℚ) : 0 ≤ clampPercent value ∧ clampPercent value ≤ 100 := by
  unfold clampPercent
  omega

/-- A room says of its venue what the slots of the venue say. -/
structure RoomRight (now : ℤ) (slots : List RoomSlotInput) (venue : RoomVenueInput)
    (room : ComputedRoom) : Prop where
  id : room.id = venue.id
  name : room.name = venue.name
  capacity : room.capacity = venue.capacity
  /-- A closed venue is off. -/
  off : venue.isOpen = false → room.state = .off
  /-- An open one is busy if exactly one of its slots contains the instant, -/
  busy : venue.isOpen = true → (room.state = .busy ↔
    slots.countP (fun s ↦ s.venueId = venue.id ∧ s.Contains now) = 1)
  /-- which is then the current one. -/
  current : room.state = .busy → ∃ s ∈ slots, s.venueId = venue.id ∧ s.Contains now ∧
    ∃ c, room.current = some c ∧
      c = computedCurrent (bangkokDayRange now).1 (bangkokDayRange now).2 now s ∧
      1 ≤ c.remainingMinutes ∧ 0 ≤ c.elapsedPercent ∧ c.elapsedPercent ≤ 100
  /-- Otherwise it is free, -/
  free : venue.isOpen = true → room.state ≠ .busy → room.state = .free
  /-- until a slot starts, -/
  freeUntil : room.state = .free → ∀ t, room.freeUntil = some t →
    (∀ s ∈ slots, s.venueId = venue.id → ¬ s.Meets now t) ∧
      ∃ s ∈ slots, s.venueId = venue.id ∧ s.startAt = t
  /-- or for the rest of the day. -/
  freeAllDay : room.state = .free → room.freeUntil = none →
    ∀ s ∈ slots, s.venueId = venue.id → ¬ s.Meets now (bangkokDayRange now).2
  count : room.todaySlotCount = slots.countP fun s ↦ s.venueId = venue.id

/-- At most one slot of a venue is under way. -/
theorem countP_contains {now : ℤ} {slots : List RoomSlotInput} (h : TodaySlots now slots)
    (venueId : Cuid) : slots.countP (fun s ↦ s.venueId = venueId ∧ s.Contains now) = 1 ↔
      ∃ s ∈ slots, s.venueId = venueId ∧ s.Contains now := by
  have hnodup : slots.Nodup := by
    refine h.disjoint.imp_of_mem fun {a b} ha hb hab he ↦ ?_
    subst he
    have hpos := h.pos a ha
    have hdisjoint := hab rfl
    unfold Span.Disjoint at hdisjoint
    omega
  constructor
  · intro hcount
    obtain ⟨s, hs, hp⟩ := List.countP_pos_iff.1 (show 0 < _ by rw [hcount]; exact Nat.one_pos)
    exact ⟨s, hs, by simpa using hp⟩
  · rintro ⟨s, hs, hv, hc⟩
    have hfilter : slots.filter (fun s ↦ s.venueId = venueId ∧ s.Contains now) = [s] := by
      refine List.perm_singleton.1 ((List.perm_ext_iff_of_nodup (hnodup.filter _)
        (List.nodup_singleton s)).2 fun x ↦ ?_)
      rw [List.mem_filter, List.mem_singleton, decide_eq_true_eq]
      constructor
      · exact fun ⟨hx, hxv, hxc⟩ ↦ h.eq_of_common hx hs (hxv.trans hv.symm) hxc hc
      · rintro rfl
        exact ⟨hs, hv, hc⟩
    rw [List.countP_eq_length_filter, hfilter]
    rfl

theorem length_slotsOf (slots : List RoomSlotInput) (venueId : Cuid) :
    (slotsOf slots venueId).length = slots.countP fun s ↦ decide (s.venueId = venueId) := by
  unfold slotsOf
  rw [List.length_insertionSort, List.countP_eq_length_filter]

section Room

variable {now : ℤ} {slots : List RoomSlotInput} {venue : RoomVenueInput}

/-- A closed venue. -/
private theorem computeRoom_off (hopen : venue.isOpen = false) (a b : ℤ) :
    RoomRight now slots venue (computeRoom a b now (slotsOf slots venue.id) venue) := by
  have hcount := length_slotsOf slots venue.id
  unfold computeRoom
  dsimp only
  rw [if_pos hopen]
  refine ⟨rfl, rfl, rfl, fun _ ↦ rfl, fun ht ↦ ?_, fun hb ↦ ?_, fun ht ↦ ?_, fun hf ↦ ?_,
    fun hf ↦ ?_, hcount⟩
  · rw [hopen] at ht
    cases ht
  · cases hb
  · rw [hopen] at ht
    cases ht
  · cases hf
  · cases hf

/-- An open venue with a slot under way. -/
private theorem computeRoom_busy (h : TodaySlots now slots) (hopen : ¬ venue.isOpen = false)
    {s : RoomSlotInput}
    (hcurrent : earliest ((slotsOf slots venue.id).filter fun s ↦ s.Contains now) = some s) :
    RoomRight now slots venue (computeRoom (bangkokDayRange now).1 (bangkokDayRange now).2 now
      (slotsOf slots venue.id) venue) := by
  have hcount := length_slotsOf slots venue.id
  obtain ⟨hmem, -⟩ := (earliest_spec _).2 s hcurrent
  obtain ⟨hmem, hc⟩ := List.mem_filter.1 hmem
  obtain ⟨hs, hv⟩ := mem_slotsOf.1 hmem
  have hc : s.Contains now := by simpa using hc
  have hone := (countP_contains h venue.id).2 ⟨s, hs, hv, hc⟩
  unfold computeRoom
  dsimp only
  rw [if_neg hopen, hcurrent]
  dsimp only
  refine ⟨rfl, rfl, rfl, fun hoff ↦ absurd hoff hopen, fun _ ↦ ⟨fun _ ↦ hone, fun _ ↦ rfl⟩,
    fun _ ↦ ⟨s, hs, hv, hc, _, rfl, rfl, le_max_left _ _, ?_⟩, fun _ hb ↦ absurd rfl hb,
    fun hf ↦ (by cases hf), fun hf ↦ (by cases hf), hcount⟩
  unfold computedCurrent
  dsimp only
  split_ifs
  · exact clampPercent_mem _
  · exact ⟨by decide, le_rfl⟩

/-- An open venue without one. -/
private theorem computeRoom_free (h : TodaySlots now slots) (hopen : ¬ venue.isOpen = false)
    (hcurrent : earliest ((slotsOf slots venue.id).filter fun s ↦ s.Contains now) = none) :
    RoomRight now slots venue (computeRoom (bangkokDayRange now).1 (bangkokDayRange now).2 now
      (slotsOf slots venue.id) venue) := by
  have hcount := length_slotsOf slots venue.id
  have hidle : ∀ s ∈ slots, s.venueId = venue.id → ¬ s.Contains now := by
    intro s hs hv hc
    have hempty := (earliest_spec _).1.1 hcurrent
    have hmem : s ∈ (slotsOf slots venue.id).filter fun s ↦ s.Contains now :=
      List.mem_filter.2 ⟨mem_slotsOf.2 ⟨hs, hv⟩, by simpa using hc⟩
    rw [hempty] at hmem
    exact List.not_mem_nil hmem
  -- a slot of the venue that has not ended has not begun
  have hlater : ∀ s ∈ slots, s.venueId = venue.id → now < s.endAt → now < s.startAt := by
    intro s hs hv he
    by_contra hle
    exact hidle s hs hv ⟨not_lt.1 hle, he⟩
  have hzero : ¬ slots.countP (fun s ↦ s.venueId = venue.id ∧ s.Contains now) = 1 := by
    rw [countP_contains h]
    rintro ⟨s, hs, hv, hc⟩
    exact hidle s hs hv hc
  obtain ⟨hnone, hsome⟩ :=
    earliest_spec ((slotsOf slots venue.id).filter fun s ↦ now < s.startAt)
  have hmem : ∀ s, s ∈ (slotsOf slots venue.id).filter (fun s ↦ now < s.startAt) ↔
      (s ∈ slots ∧ s.venueId = venue.id) ∧ now < s.startAt := by
    intro s
    rw [List.mem_filter, mem_slotsOf, decide_eq_true_eq]
  unfold computeRoom
  dsimp only
  rw [if_neg hopen, hcurrent]
  dsimp only
  generalize earliest ((slotsOf slots venue.id).filter fun s ↦ now < s.startAt) = next at *
  refine ⟨rfl, rfl, rfl, fun hoff ↦ absurd hoff hopen,
    fun _ ↦ ⟨fun hb ↦ (by cases hb), fun hone ↦ absurd hone hzero⟩, fun hb ↦ (by cases hb),
    fun _ _ ↦ rfl, fun _ t ht ↦ ?_, fun _ hn ↦ ?_, hcount⟩
  · obtain ⟨s, hs, rfl⟩ := Option.map_eq_some_iff.1 ht
    obtain ⟨hs, hle⟩ := hsome s hs
    obtain ⟨⟨hs, hv⟩, -⟩ := (hmem s).1 hs
    refine ⟨fun x hx hxv ⟨hlt, hgt⟩ ↦ ?_, s, hs, hv, rfl⟩
    have := hle x ((hmem x).2 ⟨⟨hx, hxv⟩, hlater x hx hxv hgt⟩)
    omega
  · rintro x hx hxv ⟨-, hgt⟩
    have hx' := (hmem x).2 ⟨⟨hx, hxv⟩, hlater x hx hxv hgt⟩
    rw [hnone.1 (Option.map_eq_none_iff.1 hn)] at hx'
    exact List.not_mem_nil hx'

theorem computeRoom_right (h : TodaySlots now slots) (venue : RoomVenueInput) :
    RoomRight now slots venue (computeRoom (bangkokDayRange now).1 (bangkokDayRange now).2 now
      (slotsOf slots venue.id) venue) := by
  by_cases hopen : venue.isOpen = false
  · exact computeRoom_off hopen _ _
  cases hcurrent : earliest ((slotsOf slots venue.id).filter fun s ↦ s.Contains now) with
  | some s => exact computeRoom_busy h hopen hcurrent
  | none => exact computeRoom_free h hopen hcurrent

end Room

/-! ### The order of the rooms -/

theorem perm_byState {α : Type} (f : α → DashboardVenueState) (l : List α) :
    (l.filter (fun x ↦ f x = .busy) ++
      (l.filter (fun x ↦ f x = .free) ++ l.filter fun x ↦ f x = .off)).Perm l := by
  induction l with
  | nil => exact .refl _
  | cons x l ih =>
    cases hx : f x with
    | busy =>
      simp only [List.filter_cons, hx, decide_true, reduceCtorEq, decide_false, if_true,
        Bool.false_eq_true, if_false, List.cons_append]
      exact ih.cons x
    | free =>
      simp only [List.filter_cons, hx, decide_true, reduceCtorEq, decide_false, if_true,
        Bool.false_eq_true, if_false, List.cons_append]
      exact List.perm_middle.trans (ih.cons x)
    | off =>
      simp only [List.filter_cons, hx, decide_true, reduceCtorEq, decide_false, if_true,
        Bool.false_eq_true, if_false]
      rw [← List.append_assoc] at ih ⊢
      exact List.perm_middle.trans (ih.cons x)

/-- Busy rooms, free rooms, rooms that are off, each in the order of the caller. -/
theorem sortRooms_eq (rooms : List ComputedRoom) :
    sortRooms rooms = rooms.filter (fun r ↦ r.state = .busy) ++
      (rooms.filter (fun r ↦ r.state = .free) ++ rooms.filter fun r ↦ r.state = .off) := by
  have hfst : ∀ p : ComputedRoom → Bool,
      (rooms.zipIdx.filter fun x ↦ p x.1).map Prod.fst = rooms.filter p := by
    intro p
    conv_rhs => rw [← List.zipIdx_map_fst 0 rooms, List.filter_map]
    rfl
  have hidx : rooms.zipIdx.Pairwise fun a b ↦ a.2 < b.2 := by
    rw [← List.pairwise_map (f := Prod.snd) (R := (· < ·)), List.zipIdx_map_snd]
    exact List.pairwise_lt_range'
  have hstate : ∀ {st : DashboardVenueState} {x : ComputedRoom × ℕ},
      x ∈ rooms.zipIdx.filter (fun x ↦ x.1.state = st) → x.1.state = st := by
    intro st x hx
    simpa using (List.mem_filter.1 hx).2
  have hfilter : ∀ st : DashboardVenueState, (rooms.zipIdx.filter fun x ↦ x.1.state = st).Pairwise
      RoomBefore := fun st ↦ (hidx.filter _).imp_of_mem fun {a b} ha hb hab ↦
    .inr ⟨by rw [hstate ha, hstate hb], hab.le⟩
  have hsorted : (rooms.zipIdx.filter (fun x ↦ x.1.state = .busy) ++
      (rooms.zipIdx.filter (fun x ↦ x.1.state = .free) ++
        rooms.zipIdx.filter fun x ↦ x.1.state = .off)).Pairwise RoomBefore := by
    refine List.pairwise_append.2 ⟨hfilter _, List.pairwise_append.2 ⟨hfilter _, hfilter _,
      fun a ha b hb ↦ .inl ?_⟩, fun a ha b hb ↦ .inl ?_⟩
    · rw [hstate ha, hstate hb]
      decide
    · rw [hstate ha]
      rcases List.mem_append.1 hb with hb | hb
      · rw [hstate hb]
        decide
      · rw [hstate hb]
        decide
  have htrans : IsTrans (ComputedRoom × ℕ) RoomBefore := ⟨fun a b c hab hbc ↦ by
    unfold RoomBefore at *
    omega⟩
  have htotal : Std.Total RoomBefore := ⟨fun a b ↦ by
    unfold RoomBefore
    omega⟩
  have heq := ((List.perm_insertionSort RoomBefore rooms.zipIdx).trans
    (perm_byState (fun x : ComputedRoom × ℕ ↦ x.1.state) rooms.zipIdx).symm).eq_of_pairwise
      (fun a b ha hb hab hba ↦ ?_) (List.pairwise_insertionSort _ _) hsorted
  · unfold sortRooms
    rw [heq, List.map_append, List.map_append, ← hfst fun r ↦ decide (r.state = .busy),
      ← hfst fun r ↦ decide (r.state = .free), ← hfst fun r ↦ decide (r.state = .off)]
  · have ha' := List.mem_zipIdx_iff_getElem?.1 ((List.mem_insertionSort RoomBefore).1 ha)
    have hb' := List.mem_zipIdx_iff_getElem?.1
      ((perm_byState (fun x : ComputedRoom × ℕ ↦ x.1.state) rooms.zipIdx).mem_iff.1 hb)
    have hidx : a.2 = b.2 := by
      unfold RoomBefore at hab hba
      omega
    rw [hidx, hb'] at ha'
    exact Prod.ext (Option.some.inj ha').symm hidx

theorem sortRooms_perm (rooms : List ComputedRoom) : (sortRooms rooms).Perm rooms := by
  rw [sortRooms_eq]
  exact perm_byState ComputedRoom.state rooms

private theorem state_of_mem_filter {rooms : List ComputedRoom} {st : DashboardVenueState}
    {room : ComputedRoom} (h : room ∈ rooms.filter fun room ↦ room.state = st) :
    room.state = st := by
  simpa using (List.mem_filter.1 h).2

/-- The rooms are sorted by state. -/
theorem pairwise_sortRooms (rooms : List ComputedRoom) :
    (sortRooms rooms).Pairwise fun a b ↦ stateRank a.state ≤ stateRank b.state := by
  have hsame : ∀ st, (rooms.filter fun room ↦ room.state = st).Pairwise fun a b ↦
      stateRank a.state ≤ stateRank b.state := fun st ↦
    List.pairwise_of_forall_mem_list fun a ha b hb ↦ by
      rw [state_of_mem_filter ha, state_of_mem_filter hb]
  rw [sortRooms_eq]
  refine List.pairwise_append.2 ⟨hsame _, List.pairwise_append.2 ⟨hsame _, hsame _,
    fun a ha b hb ↦ ?_⟩, fun a ha b hb ↦ ?_⟩
  · rw [state_of_mem_filter ha, state_of_mem_filter hb]
    decide
  · rw [state_of_mem_filter ha]
    exact Nat.zero_le _

/-- Within a state they stand as the caller had them. -/
theorem filter_sortRooms (rooms : List ComputedRoom) (st : DashboardVenueState) :
    ((sortRooms rooms).filter fun room ↦ room.state = st) =
      rooms.filter fun room ↦ room.state = st := by
  have hpart : ∀ st', (rooms.filter fun room ↦ room.state = st').filter
      (fun room ↦ room.state = st) =
        if st' = st then rooms.filter fun room ↦ room.state = st else [] := by
    intro st'
    split_ifs with heq
    · rw [heq, List.filter_filter]
      simp only [Bool.and_self]
    · refine List.filter_eq_nil_iff.2 fun room hroom hst ↦ heq ?_
      rw [← state_of_mem_filter hroom]
      simpa using hst
  rw [sortRooms_eq, List.filter_append, List.filter_append, hpart, hpart, hpart]
  cases st <;> simp

/-- Every room is in one of the three states. -/
theorem length_states (rooms : List ComputedRoom) :
    (rooms.filter fun room ↦ room.state = .busy).length +
      (rooms.filter fun room ↦ room.state = .free).length +
      (rooms.filter fun room ↦ room.state = .off).length = rooms.length := by
  have hsum := (perm_byState ComputedRoom.state rooms).length_eq
  rw [List.length_append, List.length_append] at hsum
  omega

/-! ### The result -/

theorem isOperatingTime_ok {now : ℤ} (h : InYears (bangkokDay now)) :
    ∃ b, isOperatingTime now = .ok b := by
  unfold isOperatingTime bangkokDate
  rw [requireDate_dateString h]
  by_cases hweekday : weekdayOf (partsOf (bangkokDay now)) = 0 ∨
      weekdayOf (partsOf (bangkokDay now)) = 6
  · exact ⟨_, if_pos hweekday⟩
  · exact ⟨_, if_neg hweekday⟩

/-- The slots of distinct venues, counted together. -/
theorem sum_countP {slots : List RoomSlotInput} {ids : List Cuid} (h : ids.Nodup) :
    (ids.map fun id ↦ slots.countP fun s ↦ s.venueId = id).sum =
      slots.countP fun s ↦ s.venueId ∈ ids := by
  induction ids with
  | nil => simp
  | cons id ids ih =>
    obtain ⟨hid, h⟩ := List.nodup_cons.1 h
    rw [List.map_cons, List.sum_cons, ih h]
    clear ih
    induction slots with
    | nil => rfl
    | cons s slots ih =>
      rw [List.countP_cons, List.countP_cons, List.countP_cons, ← ih]
      by_cases hs : s.venueId = id
      · simp [hs, hid]
        omega
      · by_cases hmem : s.venueId ∈ ids
        · simp [hs, hmem]
          omega
        · simp [hs, hmem]

/-- The rooms in the order of the venues. -/
def roomsOf (now : ℤ) (slots : List RoomSlotInput) (venues : List RoomVenueInput) :
    List ComputedRoom :=
  venues.map fun venue ↦ computeRoom (bangkokDayRange now).1 (bangkokDayRange now).2 now
    (slotsOf slots venue.id) venue

/-- The result, once the clock could be read. -/
def resultOf (now : ℤ) (operating : Bool) (rooms : List ComputedRoom) : RoomStatesResult where
  serverTime := now
  today := bangkokDate now
  withinOperatingHours := operating
  todayBookings := ((rooms.filter fun r ↦ r.state ≠ .off).map ComputedRoom.todaySlotCount).sum
  inUseNow := (rooms.filter fun r ↦ r.state = .busy).length
  counts :=
    { all := rooms.length
      busy := (rooms.filter fun r ↦ r.state = .busy).length
      free := (rooms.filter fun r ↦ r.state = .free).length
      off := (rooms.filter fun r ↦ r.state = .off).length }
  venues := rooms

theorem computeRoomStates_eq {now : ℤ} {operating : Bool}
    (h : isOperatingTime now = .ok operating) (venues : List RoomVenueInput)
    (slots : List RoomSlotInput) : computeRoomStates venues slots now =
      .ok (resultOf now operating (sortRooms (roomsOf now slots venues))) := by
  unfold computeRoomStates resultOf roomsOf
  simp only [lookup_slotsByVenue, h, List.sum_eq_foldl, List.foldl_map]
  rfl

/-- The slots of the rooms that are not off, counted room by room. -/
theorem sum_todaySlotCount {now : ℤ} {slots : List RoomSlotInput} {venues : List RoomVenueInput}
    {rooms : List ComputedRoom} (hright : ∀ room ∈ rooms, ∃ venue ∈ venues,
      RoomRight now slots venue room) (hids : (rooms.map ComputedRoom.id).Nodup) :
    ((rooms.filter fun r ↦ r.state ≠ .off).map ComputedRoom.todaySlotCount).sum =
      slots.countP (fun s ↦
        s.venueId ∈ (rooms.filter fun room ↦ room.state ≠ .off).map ComputedRoom.id) := by
  have hcount : (rooms.filter fun r ↦ r.state ≠ .off).map ComputedRoom.todaySlotCount =
      ((rooms.filter fun r ↦ r.state ≠ .off).map ComputedRoom.id).map fun id ↦
        slots.countP fun s ↦ s.venueId = id := by
    rw [List.map_map]
    refine List.map_congr_left fun room hroom ↦ ?_
    obtain ⟨venue, -, hr⟩ := hright room (List.mem_filter.1 hroom).1
    rw [hr.count, Function.comp_apply, hr.id]
  rw [hcount, sum_countP]
  exact hids.sublist (List.filter_sublist.map _)

/-- **Dashboard room state is right.** -/
theorem roomStates_right {venues : List RoomVenueInput} {slots : List RoomSlotInput} {now : ℤ}
    (hids : (venues.map RoomVenueInput.id).Nodup) (hslots : TodaySlots now slots)
    (hnow : InYears (bangkokDay now)) :
    ∃ r, computeRoomStates venues slots now = .ok r ∧
      (∀ room ∈ r.venues, ∃ venue ∈ venues, RoomRight now slots venue room) ∧
      (r.venues.map ComputedRoom.id).Perm (venues.map RoomVenueInput.id) ∧
      r.venues.Pairwise (fun a b ↦ stateRank a.state ≤ stateRank b.state) ∧
      (∀ st, ((r.venues.filter fun room ↦ room.state = st).map ComputedRoom.id).Sublist
        (venues.map RoomVenueInput.id)) ∧
      r.counts.all = venues.length ∧
      r.counts.busy + r.counts.free + r.counts.off = venues.length ∧
      r.counts.busy = r.venues.countP (fun room ↦ room.state = .busy) ∧
      r.counts.free = r.venues.countP (fun room ↦ room.state = .free) ∧
      r.counts.off = r.venues.countP (fun room ↦ room.state = .off) ∧
      r.todayBookings = slots.countP (fun s ↦
        s.venueId ∈ (r.venues.filter fun room ↦ room.state ≠ .off).map ComputedRoom.id) ∧
      ∀ slots', slots.Perm slots' → computeRoomStates venues slots' now = .ok r := by
  obtain ⟨operating, hoperating⟩ := isOperatingTime_ok hnow
  refine ⟨_, computeRoomStates_eq hoperating venues slots, ?_⟩
  have hright : ∀ room ∈ roomsOf now slots venues, ∃ venue ∈ venues,
      RoomRight now slots venue room := by
    intro room hroom
    obtain ⟨venue, hvenue, rfl⟩ := List.mem_map.1 hroom
    exact ⟨venue, hvenue, computeRoom_right hslots venue⟩
  have hroomIds : (roomsOf now slots venues).map ComputedRoom.id =
      venues.map RoomVenueInput.id := by
    unfold roomsOf
    rw [List.map_map]
    exact List.map_congr_left fun venue _ ↦ (computeRoom_right hslots venue).id
  have hlen : (roomsOf now slots venues).length = venues.length := List.length_map _
  have horder : ∀ slots', slots.Perm slots' →
      roomsOf now slots' venues = roomsOf now slots venues := by
    intro slots' hperm
    exact List.map_congr_left fun venue _ ↦ by rw [slotsOf_perm hslots hperm]
  generalize roomsOf now slots venues = rooms at hright hroomIds hlen horder ⊢
  have hperm := sortRooms_perm rooms
  have hright' : ∀ room ∈ sortRooms rooms, ∃ venue ∈ venues, RoomRight now slots venue room :=
    fun room hroom ↦ hright room (hperm.mem_iff.1 hroom)
  refine ⟨hright', hroomIds ▸ hperm.map _, pairwise_sortRooms rooms, fun st ↦ ?_,
    hperm.length_eq.trans hlen, (length_states _).trans (hperm.length_eq.trans hlen),
    List.countP_eq_length_filter.symm, List.countP_eq_length_filter.symm,
    List.countP_eq_length_filter.symm, ?_, fun slots' hslots' ↦ ?_⟩
  · change (((sortRooms rooms).filter _).map _).Sublist _
    rw [filter_sortRooms, ← hroomIds]
    exact List.filter_sublist.map _
  · refine sum_todaySlotCount hright' ((hperm.map _).nodup_iff.2 ?_)
    rw [hroomIds]
    exact hids
  · rw [computeRoomStates_eq hoperating venues slots', horder slots' hslots']

namespace Sample

/-- A room. -/
def room : RoomVenueInput := ⟨1, [], 10, true, none⟩

/-- A slot of it, from 08:00 to 10:30 on 1 June 2026. -/
def roomSlot : RoomSlotInput where
  startAt := 1780275600000
  endAt := 1780284600000
  slotId := 2
  venueId := 1
  bookingRequestId := 3
  code := []
  purpose := []
  attendees := 1
  requesterName := none
  departmentName := none

end Sample

/-- A room at nine o'clock. -/
theorem roomStates_right_nine : ∃ r,
    computeRoomStates [Sample.room] [Sample.roomSlot] 1780279200000 = .ok r ∧ r.counts.all = 1 ∧
    r.todayBookings = [Sample.roomSlot].countP (fun s ↦
      s.venueId ∈ (r.venues.filter fun room ↦ room.state ≠ .off).map ComputedRoom.id) := by
  have hslots : TodaySlots 1780279200000 [Sample.roomSlot] :=
    ⟨by decide +kernel, by decide +kernel, List.pairwise_singleton _ _⟩
  have hnow : InYears (bangkokDay 1780279200000) := ⟨by decide +kernel, by decide +kernel⟩
  have hids : ([Sample.room].map RoomVenueInput.id).Nodup := List.nodup_singleton _
  obtain ⟨r, hr, -, -, -, -, hall, -, -, -, -, htoday, -⟩ := roomStates_right hids hslots hnow
  exact ⟨r, hr, hall, htoday⟩

/-- From the year 10000 on there is no answer: the date of the day has five digits for its year. -/
theorem roomStates_year_10000 : TodaySlots 253402300800000 [] ∧
    ∀ r, computeRoomStates [] [] 253402300800000 ≠ .ok r := by
  have herror : isOperatingTime 253402300800000 = .error (.invalidDate (lit "10000-01-01")) := by
    decide +kernel
  refine ⟨⟨fun s hs ↦ (nomatch hs), fun s hs ↦ (nomatch hs), .nil⟩, fun r hr ↦ ?_⟩
  unfold computeRoomStates at hr
  rw [herror] at hr
  cases hr

end EasyBook.Reports

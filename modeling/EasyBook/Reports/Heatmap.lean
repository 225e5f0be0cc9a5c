import EasyBook.Reports.HeldTime

/-!
# The heatmap

`foldHeatmap` of `report-venues.ts`: the clipped segments of the slots, cut again at the hours of
the school window, in a grid of weekdays and hours. It takes the held time apart and loses none of
it (`heatmap_decomposes`).
-/

namespace EasyBook.Reports

open JsDate JsString

/-- `HEAT_SLOT_COUNT`. -/
def heatSlotCount : ℕ := 8

/-- `HEAT_CELL_COUNT`. -/
def heatCellCount : ℕ := 40

/-- `HeatCell`. -/
structure HeatCell where
  ms : ℤ
  segments : ℕ
  deriving DecidableEq

/-- `emptyHeat40`. -/
def emptyHeat40 : List HeatCell := List.replicate heatCellCount ⟨0, 0⟩

/-- `cellIndexOf`. -/
def cellIndexOf (isoWeekday : ℤ) (j : ℕ) : ℤ := (isoWeekday - 1) * heatSlotCount + j

/-- `cells[idx].ms += overlap; cells[idx].segments += 1`. -/
def addToCell (cells : List HeatCell) (idx overlap : ℤ) : Except CalendarError (List HeatCell) :=
  if 0 ≤ idx ∧ idx < cells.length then
    .ok (cells.modify idx.toNat fun c ↦ ⟨c.ms + overlap, c.segments + 1⟩)
  else .error (.undefinedCell idx)

/-- One hour of a segment, into `all` and `venueCells`. -/
def foldHour (winStart : ℤ) (seg : ClippedSegment) (cells : List HeatCell × List HeatCell)
    (j : ℕ) : Except CalendarError (List HeatCell × List HeatCell) := do
  let cellStart := winStart + j * hourMs
  let cellEnd := cellStart + hourMs
  let overlap := min seg.endMs cellEnd - max seg.startMs cellStart
  if overlap ≤ 0 then return cells
  let idx := cellIndexOf seg.isoWeekday j
  return (← addToCell cells.1 idx overlap, ← addToCell cells.2 idx overlap)

/-- The loop over the hours of the window. -/
def foldSegment (cells : List HeatCell × List HeatCell) (seg : ClippedSegment) :
    Except CalendarError (List HeatCell × List HeatCell) := do
  let winStart ← schoolWindowStartMs seg.date
  (List.range heatSlotCount).foldlM (foldHour winStart seg) cells

/-- `foldHeatmap`: `all` and `byVenue`. -/
def foldHeatmap (slots : List HeldSlot) (startDate effectiveEndDate : JsString) :
    Except CalendarError (List HeatCell × List (Cuid × List HeatCell)) :=
  slots.foldlM (fun acc slot ↦ do
    let segments ← clipToSchoolWindow slot.toSpan startDate effectiveEndDate
    if segments.length = 0 then return acc
    let venueCells := (acc.2.lookup slot.venueId).getD emptyHeat40
    let (all, venueCells) ← segments.foldlM foldSegment (acc.1, venueCells)
    return (all, mapSet acc.2 slot.venueId venueCells)) (emptyHeat40, [])

/-! ### Cells -/

/-- The time in the cells of a grid. -/
def cellsMs (cells : List HeatCell) : ℤ := (cells.map HeatCell.ms).sum

theorem sum_modify {α M : Type*} [AddCommMonoid M] {μ : α → M} {f : α → α} {δ : M}
    (hf : ∀ x, μ (f x) = μ x + δ) {l : List α} {i : ℕ} (hi : i < l.length) :
    ((l.modify i f).map μ).sum = (l.map μ).sum + δ := by
  induction l generalizing i with
  | nil => simp at hi
  | cons x l ih =>
    cases i with
    | zero => rw [List.modify_zero_cons, List.map_cons, List.map_cons, List.sum_cons,
        List.sum_cons, hf, add_right_comm]
    | succ i => rw [List.modify_succ_cons, List.map_cons, List.map_cons, List.sum_cons,
        List.sum_cons, ih (by simpa using hi), add_assoc]

/-- A cell of the grid takes the time. -/
theorem addToCell_of_mem {cells : List HeatCell} (hlen : cells.length = heatCellCount)
    {isoWeekday : ℤ} (hw : 1 ≤ isoWeekday ∧ isoWeekday ≤ 5) {j : ℕ} (hj : j < heatSlotCount)
    (overlap : ℤ) : ∃ cells', addToCell cells (cellIndexOf isoWeekday j) overlap = .ok cells' ∧
      cells'.length = heatCellCount ∧ cellsMs cells' = cellsMs cells + overlap := by
  have hidx : 0 ≤ cellIndexOf isoWeekday j ∧ cellIndexOf isoWeekday j < cells.length := by
    rw [hlen]
    unfold cellIndexOf heatSlotCount heatCellCount
    unfold heatSlotCount at hj
    omega
  refine ⟨_, if_pos hidx, ?_, sum_modify (fun _ ↦ rfl) (by omega)⟩
  rw [List.length_modify, hlen]

/-- The hours of the window cut what a span has in common with it. -/
theorem overlap_add {s e a b c : ℤ} (h : a ≤ b) (h' : b ≤ c) :
    overlap s e a b + overlap s e b c = overlap s e a c := by
  unfold overlap
  omega

/-- The hours of the window hold a segment. -/
theorem sum_overlap_hours (s e winStart : ℤ) (n : ℕ) :
    ((List.range n).map fun j : ℕ ↦
      overlap s e (winStart + j * hourMs) (winStart + j * hourMs + hourMs)).sum =
      overlap s e winStart (winStart + n * hourMs) := by
  have hpos : 0 ≤ hourMs := by decide
  induction n with
  | zero =>
    unfold overlap
    simp
  | succ n ih =>
    have hn : (0 : ℤ) ≤ n * hourMs := mul_nonneg (Int.natCast_nonneg n) hpos
    rw [List.range_succ, List.map_append, List.sum_append, ih, List.map_singleton,
      List.sum_singleton, overlap_add (by omega) (by omega)]
    push_cast
    rw [add_mul, one_mul, add_assoc]

/-- A segment of a day in the grid. -/
structure InGrid (seg : ClippedSegment) (d : ℤ) : Prop where
  inYears : InYears d
  date : seg.date = dateString d
  weekday : 1 ≤ seg.isoWeekday ∧ seg.isoWeekday ≤ 5
  start : windowStart d ≤ seg.startMs
  pos : seg.startMs < seg.endMs
  stop : seg.endMs ≤ windowEnd d

/-- Two grids hold as much more than two others. -/
structure Added (cells cells' : List HeatCell × List HeatCell) (ms : ℤ) : Prop where
  length_all : cells'.1.length = heatCellCount
  length_venue : cells'.2.length = heatCellCount
  all : cellsMs cells'.1 = cellsMs cells.1 + ms
  venue : cellsMs cells'.2 = cellsMs cells.2 + ms

theorem Added.zero {cells : List HeatCell × List HeatCell} (hall : cells.1.length = heatCellCount)
    (hvenue : cells.2.length = heatCellCount) : Added cells cells 0 :=
  ⟨hall, hvenue, (add_zero _).symm, (add_zero _).symm⟩

theorem Added.add {c₁ c₂ c₃ : List HeatCell × List HeatCell} {m n : ℤ} (h : Added c₁ c₂ m)
    (h' : Added c₂ c₃ n) : Added c₁ c₃ (m + n) :=
  ⟨h'.length_all, h'.length_venue, by rw [h'.all, h.all, add_assoc],
    by rw [h'.venue, h.venue, add_assoc]⟩

/-- Both grids take what a segment has in common with an hour. -/
theorem foldHour_inGrid {seg : ClippedSegment} {d : ℤ} (h : InGrid seg d) {j : ℕ}
    (hj : j < heatSlotCount) {cells : List HeatCell × List HeatCell}
    (hall : cells.1.length = heatCellCount) (hvenue : cells.2.length = heatCellCount) :
    ∃ cells', foldHour (windowStart d) seg cells j = .ok cells' ∧
      Added cells cells' (overlap seg.startMs seg.endMs (windowStart d + j * hourMs)
        (windowStart d + j * hourMs + hourMs)) := by
  unfold foldHour overlap
  dsimp only
  generalize min seg.endMs (windowStart d + j * hourMs + hourMs) -
    max seg.startMs (windowStart d + j * hourMs) = ms
  by_cases hms : ms ≤ 0
  · rw [max_eq_left hms]
    exact ⟨cells, if_pos hms, .zero hall hvenue⟩
  · rw [max_eq_right (not_le.1 hms).le]
    obtain ⟨all, hall', hlall, hsall⟩ := addToCell_of_mem hall h.weekday hj ms
    obtain ⟨venueCells, hvenue', hlvenue, hsvenue⟩ := addToCell_of_mem hvenue h.weekday hj ms
    refine ⟨(all, venueCells), ?_, hlall, hlvenue, hsall, hsvenue⟩
    rw [if_neg hms, hall', hvenue']
    rfl

/-- Both grids take the time of a segment. -/
theorem foldSegment_inGrid {seg : ClippedSegment} {d : ℤ} (h : InGrid seg d)
    {cells : List HeatCell × List HeatCell} (hall : cells.1.length = heatCellCount)
    (hvenue : cells.2.length = heatCellCount) :
    ∃ cells', foldSegment cells seg = .ok cells' ∧ Added cells cells' seg.ms := by
  have hms : overlap seg.startMs seg.endMs (windowStart d)
      (windowStart d + heatSlotCount * hourMs) = seg.ms := by
    have hstart := h.start
    have hpos := h.pos
    have hstop := h.stop
    unfold overlap ClippedSegment.ms heatSlotCount hourMs
    unfold windowEnd at hstop
    unfold windowStart at hstart ⊢
    omega
  unfold foldSegment
  rw [h.date, schoolWindowStartMs_dateString h.inYears, ← hms, ← sum_overlap_hours]
  refine foldlM_ok_of (l := List.range heatSlotCount) (fun done cells' ↦ Added cells cells'
    (done.map fun j : ℕ ↦ overlap seg.startMs seg.endMs (windowStart d + j * hourMs)
      (windowStart d + j * hourMs + hourMs)).sum) (.zero hall hvenue) fun done j hj cells' h' ↦ ?_
  obtain ⟨cells'', hok, hadded⟩ :=
    foldHour_inGrid h (List.mem_range.1 hj) h'.length_all h'.length_venue
  refine ⟨cells'', hok, ?_⟩
  rw [List.map_append, List.sum_append, List.map_singleton, List.sum_singleton]
  exact h'.add hadded

/-- Both grids take the time of segments. -/
theorem foldSegments_inGrid {segments : List ClippedSegment}
    (h : ∀ seg ∈ segments, ∃ d, InGrid seg d) {c : List HeatCell × List HeatCell}
    (hall : c.1.length = heatCellCount) (hvenue : c.2.length = heatCellCount) :
    ∃ c', segments.foldlM foldSegment c = .ok c' ∧
      Added c c' (segments.map ClippedSegment.ms).sum := by
  refine foldlM_ok_of (fun done c' ↦ Added c c' (done.map ClippedSegment.ms).sum)
    (.zero hall hvenue) fun done seg hseg cells' h' ↦ ?_
  obtain ⟨d, hgrid⟩ := h seg hseg
  obtain ⟨cells'', hok, hadded⟩ := foldSegment_inGrid hgrid h'.length_all h'.length_venue
  refine ⟨cells'', hok, ?_⟩
  rw [List.map_append, List.sum_append, List.map_singleton, List.sum_singleton]
  exact h'.add hadded

/-! ### The segments of a slot -/

theorem isoWeekday_of_schoolDate {d : ℤ} (h : SchoolDate d) :
    1 ≤ isoWeekday d ∧ isoWeekday d ≤ 5 := by
  have hd := h.1
  unfold isoWeekday
  rw [if_neg (by omega)]
  exact hd

theorem segmentOn_inGrid {first last d : ℤ} (hd : InYears d) {slot : Span} {seg : ClippedSegment}
    (h : segmentOn first last slot d = some seg) : InGrid seg d := by
  unfold segmentOn at h
  split_ifs at h with hin
  obtain rfl := Option.some.inj h
  exact ⟨hd, rfl, isoWeekday_of_schoolDate hin.1.2, le_max_right _ _, hin.2, min_le_right _ _⟩

/-- The segments of a slot are in the grid, and there are some if the slot holds time. -/
theorem clipToSchoolWindow_inGrid {first last : ℤ} (hf : ReportDay first) (hl : ReportDay last)
    {slot : Span} (h : Plausible slot) :
    ∃ segments, clipToSchoolWindow slot (dateString first) (dateString last) = .ok segments ∧
      (segments.map ClippedSegment.ms).sum = heldMs first last slot ∧
      (∀ seg ∈ segments, ∃ d, InGrid seg d) ∧ (segments = [] ↔ heldMs first last slot = 0) := by
  obtain ⟨segments, hsegments, hsum⟩ := sum_clipToSchoolWindow hf hl h
  have hgrid : ∀ seg ∈ segments, ∃ d, InGrid seg d := by
    intro seg hseg
    obtain rfl := Except.ok.inj ((clipToSchoolWindow_dateString hf hl h).symm.trans hsegments)
    split_ifs at hseg with hlt
    · obtain ⟨d, hd, hsome⟩ := List.mem_filterMap.1 hseg
      obtain ⟨hd, hd'⟩ := mem_days.1 hd
      exact ⟨d, segmentOn_inGrid ((h hlt).1.of_le (h hlt).2.1 hd hd').inYears hsome⟩
    · cases hseg
  refine ⟨segments, hsegments, hsum, hgrid, ?_⟩
  rw [← hsum]
  constructor
  · rintro rfl
    rfl
  · intro hzero
    cases segments with
    | nil => rfl
    | cons seg segments =>
      rw [List.map_cons, List.sum_cons] at hzero
      obtain ⟨d, hseg⟩ := hgrid seg List.mem_cons_self
      have hpos : 0 < seg.ms := by
        have := hseg.pos
        unfold ClippedSegment.ms
        omega
      have hrest : 0 ≤ (segments.map ClippedSegment.ms).sum := by
        refine List.sum_nonneg fun ms hms ↦ ?_
        obtain ⟨seg', hseg', rfl⟩ := List.mem_map.1 hms
        obtain ⟨d', hgrid'⟩ := hgrid seg' (List.mem_cons_of_mem _ hseg')
        have := hgrid'.pos
        unfold ClippedSegment.ms
        omega
      omega

/-! ### The fold -/

/-- What is folded of slots: a grid of everything, and a grid for every venue that holds time. -/
structure HeatOf (first last : ℤ) (slots : List HeldSlot)
    (acc : List HeatCell × List (Cuid × List HeatCell)) : Prop where
  length : acc.1.length = heatCellCount
  nodup : (acc.2.map Prod.fst).Nodup
  sum : (acc.2.map fun e ↦ cellsMs e.2).sum = cellsMs acc.1
  total : cellsMs acc.1 = (slots.map fun slot ↦ heldMs first last slot.toSpan).sum
  lengths : ∀ v cells, acc.2.lookup v = some cells → cells.length = heatCellCount
  venues : ∀ v, (acc.2.lookup v).map cellsMs =
    if 0 < heldOf first last slots v then some (heldOf first last slots v) else none

theorem HeatOf.getD {first last : ℤ} {slots : List HeldSlot}
    {acc : List HeatCell × List (Cuid × List HeatCell)} (h : HeatOf first last slots acc)
    (v : Cuid) : ((acc.2.lookup v).getD emptyHeat40).length = heatCellCount ∧
      cellsMs ((acc.2.lookup v).getD emptyHeat40) = heldOf first last slots v := by
  have hvenue := h.venues v
  have := heldOf_nonneg first last slots v
  cases hl : acc.2.lookup v with
  | none =>
    rw [hl, Option.map_none] at hvenue
    split_ifs at hvenue with hpos
    have hzero : cellsMs emptyHeat40 = 0 := by decide
    exact ⟨by decide, hzero.trans (by omega)⟩
  | some cells =>
    rw [hl, Option.map_some] at hvenue
    split_ifs at hvenue with hpos
    exact ⟨h.lengths v cells hl, Option.some.inj hvenue⟩

theorem foldHeatmap_dateString {first last : ℤ} (hf : ReportDay first) (hl : ReportDay last)
    {slots : List HeldSlot} (h : ∀ slot ∈ slots, Plausible slot.toSpan) :
    ∃ acc, foldHeatmap slots (dateString first) (dateString last) = .ok acc ∧
      HeatOf first last slots acc := by
  have hempty : cellsMs emptyHeat40 = 0 := by decide
  refine foldlM_ok_of (HeatOf first last)
    ⟨rfl, List.nodup_nil, hempty.symm, hempty, nofun, fun _ ↦ rfl⟩ fun done slot hslot acc hacc ↦ ?_
  obtain ⟨segments, hsegments, hsum, hgrid, hnil⟩ :=
    clipToSchoolWindow_inGrid hf hl (h slot hslot)
  have htotal : ((done ++ [slot]).map fun slot ↦ heldMs first last slot.toSpan).sum =
      (done.map fun slot ↦ heldMs first last slot.toSpan).sum + heldMs first last slot.toSpan := by
    rw [List.map_append, List.sum_append, List.map_singleton, List.sum_singleton]
  rw [hsegments]
  by_cases hempty : segments.length = 0
  · have hms := hnil.1 (List.eq_nil_of_length_eq_zero hempty)
    refine ⟨acc, if_pos hempty, hacc.length, hacc.nodup, hacc.sum, ?_, hacc.lengths, fun v ↦ ?_⟩
    · rw [htotal, hms, add_zero, hacc.total]
    · rw [heldOf_append, hms, ite_self, add_zero, hacc.venues]
  · have hpos : 0 < heldMs first last slot.toSpan := by
      have := heldMs_nonneg first last slot.toSpan
      have : heldMs first last slot.toSpan ≠ 0 := fun hzero ↦ hempty (by rw [hnil.2 hzero]; rfl)
      omega
    obtain ⟨hlen, hheld⟩ := hacc.getD slot.venueId
    obtain ⟨cells, hcells, hadded⟩ := foldSegments_inGrid hgrid
      (c := (acc.1, (acc.2.lookup slot.venueId).getD emptyHeat40)) hacc.length hlen
    refine ⟨(cells.1, mapSet acc.2 slot.venueId cells.2), ?_, hadded.length_all,
      nodup_keys_mapSet hacc.nodup, ?_, ?_,
      fun v venueCells ↦ ?_, fun v ↦ ?_⟩
    · change (if _ then _ else _) = _
      rw [if_neg hempty, hcells]
      rfl
    · have hset := sum_mapSet (a := slot.venueId) (b := cells.2) cellsMs hacc.nodup
      have hsum' := hacc.sum
      have hvenue := hadded.venue
      have hall := hadded.all
      have := heldOf_nonneg first last done slot.venueId
      rw [hacc.venues] at hset
      dsimp only at hvenue hall ⊢
      rw [hheld] at hvenue
      split_ifs at hset <;> simp only [Option.getD_some, Option.getD_none] at hset <;> omega
    · rw [htotal, ← hacc.total, hadded.all, hsum]
    · rw [lookup_mapSet]
      split_ifs
      · rintro ⟨⟩
        exact hadded.length_venue
      · exact hacc.lengths v venueCells
    · rw [lookup_mapSet, heldOf_append]
      by_cases hv : v = slot.venueId
      · subst hv
        have := heldOf_nonneg first last done slot.venueId
        rw [if_pos rfl, if_pos rfl, if_pos (by omega), Option.map_some, hadded.venue, hsum]
        exact congrArg (fun ms ↦ some (ms + _)) hheld
      · rw [if_neg hv, if_neg (Ne.symm hv), add_zero, hacc.venues]

/-! ### The denominators -/

/-- The counts of the weekdays come to the count of the range. -/
theorem sum_schoolDaysByWeekday {first last : ℤ} (hf : ReportDay first) (hl : ReportDay last) :
    (schoolDaysByWeekday (dateString first) (dateString last)).map List.sum =
      schoolDaysIn (dateString first) (dateString last) := by
  rw [schoolDaysIn_dateString hf hl]
  unfold schoolDaysByWeekday
  simp only [compareDate_pos_iff hf.inYears hl.inYears,
    inclusiveDays_dateString hf.inYears hl.inYears]
  by_cases hempty : last < first
  · rw [if_pos hempty, if_pos (by unfold maxSpanDays; omega), schoolDates,
      Finset.Icc_eq_empty (by omega)]
    rfl
  rw [if_neg hempty]
  change Except.map _ (if _ then _ else _) = _
  by_cases hspan : last - first < maxSpanDays
  · rw [if_neg (by omega), if_pos hspan, forDates_dateString (f := fun d counts ↦
      if SchoolDate d then counts.modify (isoWeekday d - 1).toNat (· + 1) else counts)
        hf.inYears hl.inYears hl.inYears_add_one hspan]
    · have hcount : ∀ (l : List ℤ) (counts : List ℕ), counts.length = 5 →
          (l.foldl (fun counts d ↦ if SchoolDate d then
            counts.modify (isoWeekday d - 1).toNat (· + 1) else counts) counts).sum =
            counts.sum + (l.filter fun d ↦ SchoolDate d).length := by
        intro l
        induction l with
        | nil => exact fun counts _ ↦ rfl
        | cons d l ih =>
          intro counts hlen
          rw [List.foldl_cons]
          by_cases hd : SchoolDate d
          · have hweekday := isoWeekday_of_schoolDate hd
            have hmodify := sum_modify (μ := id) (f := fun n : ℕ ↦ n + 1) (fun _ ↦ rfl)
              (l := counts) (i := (isoWeekday d - 1).toNat) (by omega)
            rw [List.map_id, List.map_id] at hmodify
            rw [if_pos hd, ih _ (by rw [List.length_modify, hlen]), hmodify,
              List.filter_cons_of_pos (by simpa using hd), List.length_cons]
            omega
          · rw [if_neg hd, ih _ hlen, List.filter_cons_of_neg (by simpa using hd)]
      refine congrArg Except.ok ?_
      rw [hcount _ _ rfl, length_filter_days]
      exact zero_add _
    · intro d hd hd' counts
      have hyears := (hf.of_le hl hd hd').inYears
      rw [isSchoolDay_dateString hyears, isoWeekdayOf_dateString hyears]
      by_cases hd : SchoolDate d <;> simp [hd] <;> rfl
  · rw [if_pos (by omega), if_neg hspan]
    rfl

/-- The heatmap takes the held time apart: every index is in the grid, the cells come to the held
time, the cells of a venue to what it holds, the venues to the total, and the school days of the
weekdays to those of the range. -/
theorem heatmap_decomposes {fromStr toStr : JsString} (hf : ReportDate fromStr)
    (ht : ReportDate toStr) {slots : List HeldSlot} (h : ∀ slot ∈ slots, Plausible slot.toSpan) :
    (∀ slot ∈ slots, ∃ segments, clipToSchoolWindow slot.toSpan fromStr toStr = .ok segments ∧
      ∀ seg ∈ segments, (1 ≤ seg.isoWeekday ∧ seg.isoWeekday ≤ 5) ∧ ∀ j < heatSlotCount,
        0 ≤ cellIndexOf seg.isoWeekday j ∧ cellIndexOf seg.isoWeekday j < heatCellCount) ∧
    (∃ heat held, foldHeatmap slots fromStr toStr = .ok heat ∧
      foldHeldMs slots fromStr toStr = .ok held ∧ heat.1.length = heatCellCount ∧
      cellsMs heat.1 = held.1 ∧ (held.2.map Prod.snd).sum = held.1 ∧
      (heat.2.map fun e ↦ cellsMs e.2).sum = held.1 ∧
      ∀ v, (heat.2.lookup v).map cellsMs = held.2.lookup v) ∧
    (schoolDaysByWeekday fromStr toStr).map List.sum = schoolDaysIn fromStr toStr := by
  obtain ⟨first, hfirst, rfl, -⟩ := hf.exists_day
  obtain ⟨last, hlast, rfl, -⟩ := ht.exists_day
  refine ⟨fun slot hslot ↦ ?_, ?_, sum_schoolDaysByWeekday hfirst hlast⟩
  · obtain ⟨segments, hsegments, -, hgrid, -⟩ :=
      clipToSchoolWindow_inGrid hfirst hlast (h slot hslot)
    refine ⟨segments, hsegments, fun seg hseg ↦ ?_⟩
    obtain ⟨d, hgrid⟩ := hgrid seg hseg
    have hweekday := hgrid.weekday
    refine ⟨hweekday, fun j hj ↦ ?_⟩
    unfold heatSlotCount at hj
    unfold cellIndexOf heatSlotCount heatCellCount
    omega
  · obtain ⟨heat, hheat, hof⟩ := foldHeatmap_dateString hfirst hlast h
    obtain ⟨held, hheld, hfolded⟩ := foldHeldMs_dateString hfirst hlast h
    refine ⟨heat, held, hheat, hheld, hof.length, ?_, hfolded.sum, ?_, fun v ↦ ?_⟩
    · rw [hof.total, hfolded.total]
    · rw [hof.sum, hof.total, hfolded.total]
    · rw [hof.venues, hfolded.lookup]

/-- Two slots of two venues, in the week of 1 June 2026. -/
theorem heatmap_decomposes_week :
    ∃ heat held,
      foldHeatmap [⟨⟨1780275600000, 1780284600000⟩, 1⟩, ⟨⟨1780284600000, 1780459200000⟩, 2⟩]
        (lit "2026-06-01") (lit "2026-06-05") = .ok heat ∧
      foldHeldMs [⟨⟨1780275600000, 1780284600000⟩, 1⟩, ⟨⟨1780284600000, 1780459200000⟩, 2⟩]
        (lit "2026-06-01") (lit "2026-06-05") = .ok held ∧ cellsMs heat.1 = held.1 := by
  have hf : ReportDate (lit "2026-06-01") := ⟨⟨2026, 6, 1⟩, by decide +kernel⟩
  have ht : ReportDate (lit "2026-06-05") := ⟨⟨2026, 6, 5⟩, by decide +kernel⟩
  have h : ∀ slot ∈ ([⟨⟨1780275600000, 1780284600000⟩, 1⟩,
      ⟨⟨1780284600000, 1780459200000⟩, 2⟩] : List HeldSlot), Plausible slot.toSpan := by
    decide +kernel
  obtain ⟨-, ⟨heat, held, hheat, hheld, -, hcells, -⟩, -⟩ := heatmap_decomposes hf ht h
  exact ⟨heat, held, hheat, hheld, hcells⟩

end EasyBook.Reports

import EasyBook.Bookings.Overlap

/-!
# What the validation of spans lets through

`parseSlots` compares time values, and refuses when a comparison is true. That makes it exact for
spans between instants: only neighbours in the order of the starts are compared, which is enough
(`selfOverlap_eq_false_iff`). A string that is no date makes every comparison false, and the sort
does what it likes (`StartSort`).
-/

namespace EasyBook

/-! ### Spans -/

/-- The instants of a span: from its start to before its end. -/
def ParsedSpan.instants (s : ParsedSpan) : Set ℤ :=
  {t | TimeValue.le s.start (some t) = true ∧ TimeValue.lt (some t) s.end = true}

/-- A span between two instants that is not empty. -/
def ParsedSpan.Proper (s : ParsedSpan) : Prop :=
  ∃ a b : ℤ, s = ⟨some a, some b⟩ ∧ a < b

/-- One of the ends is no date. -/
def ParsedSpan.Invalid (s : ParsedSpan) : Prop := s.start = none ∨ s.end = none

/-- What a list of spans has to be like. -/
structure Bookable (now : ℤ) (spans : List ParsedSpan) : Prop where
  proper : ∀ s ∈ spans, s.Proper
  future : ∀ s ∈ spans, ∀ a ∈ s.start, now < a
  disjoint : spans.Pairwise fun s t ↦ Disjoint s.instants t.instants

/-- Proper spans do not meet when one ends before the other starts. -/
theorem disjoint_instants_iff {s t : ParsedSpan} (hs : s.Proper) (ht : t.Proper) :
    Disjoint s.instants t.instants ↔
      TimeValue.lt t.start s.end = false ∨ TimeValue.lt s.start t.end = false := by
  obtain ⟨a, b, rfl, hab⟩ := hs
  obtain ⟨c, d, rfl, hcd⟩ := ht
  simp only [Set.disjoint_left, ParsedSpan.instants, TimeValue.le, TimeValue.lt,
    decide_eq_true_eq, Set.mem_ofPred_eq, decide_eq_false_iff_not, not_and, not_lt]
  constructor
  · intro h
    by_contra hno
    have hmeet := h (a := max a c) ⟨le_max_left .., by omega⟩ (le_max_right ..)
    omega
  · rintro h x ⟨hax, hxb⟩ hcx
    omega

/-- In the order of the starts it is enough to look at neighbours. -/
theorem selfOverlap_eq_false_iff {l : List ParsedSpan} (hl : ∀ s ∈ l, s.Proper)
    (hsorted : l.Pairwise StartsNotAfter) :
    selfOverlap l = false ↔ l.Pairwise fun s t ↦ Disjoint s.instants t.instants := by
  induction l with
  | nil => simp [selfOverlap]
  | cons s l ih =>
    obtain ⟨hs, hproper⟩ := List.forall_mem_cons.1 hl
    obtain ⟨hfirst, hrest⟩ := List.pairwise_cons.1 hsorted
    have ih := ih hproper hrest
    cases l with
    | nil => simp [selfOverlap]
    | cons t l =>
      rw [selfOverlap, Bool.or_eq_false_iff, ih, List.pairwise_cons (a := s)]
      refine and_congr_left fun _ ↦ ?_
      constructor
      · -- What starts after the neighbour starts after the end as well.
        intro hlt u hu
        refine (disjoint_instants_iff hs (hproper u hu)).2 (Or.inl ?_)
        obtain ⟨a, b, rfl, -⟩ := hs
        obtain ⟨c, d, rfl, -⟩ := hproper t (by simp)
        rcases List.mem_cons.1 hu with rfl | hu'
        · exact hlt
        · obtain ⟨e, f, rfl, -⟩ := hproper u hu
          have hce := (List.pairwise_cons.1 hrest).1 _ hu'
          simp only [StartsNotAfter, TimeValue.lt, decide_eq_false_iff_not, not_lt] at hlt hce ⊢
          omega
      · intro hdisjoint
        have hst := (disjoint_instants_iff hs (hproper t (by simp))).1 (hdisjoint t (by simp))
        have hle := hfirst t (by simp)
        obtain ⟨a, b, rfl, hab⟩ := hs
        obtain ⟨c, d, rfl, hcd⟩ := hproper t (by simp)
        simp only [StartsNotAfter, TimeValue.lt, decide_eq_false_iff_not, not_lt] at hst hle ⊢
        omega

/-! ### The sort -/

/-- `[...slots].sort` by `a.start - b.start`. The runtime gives a permutation back, which is in
order when the comparator is consistent: when all starts are dates. -/
structure StartSort where
  sort : List ParsedSpan → List ParsedSpan
  perm : ∀ l, (sort l).Perm l
  sorted : ∀ l, (∀ s ∈ l, s.start ≠ none) → (sort l).Pairwise StartsNotAfter

theorem startsNotAfter_iff {s t : ParsedSpan} (hs : s.start ≠ none) (ht : t.start ≠ none) :
    StartsNotAfter s t ↔ s.start.getD 0 ≤ t.start.getD 0 := by
  obtain ⟨a, ha⟩ := Option.ne_none_iff_exists'.1 hs
  obtain ⟨b, hb⟩ := Option.ne_none_iff_exists'.1 ht
  simp [StartsNotAfter, TimeValue.lt, ha, hb]

/-- Insertion is such a sort. -/
def StartSort.insertion : StartSort where
  sort l := l.insertionSort StartsNotAfter
  perm l := List.perm_insertionSort _ l
  sorted l hl := by
    have hmap := List.map_insertionSort (r := StartsNotAfter) (s := (· ≤ ·))
      (fun s : ParsedSpan ↦ s.start.getD 0) l fun s hs t ht ↦
        startsNotAfter_iff (hl s hs) (hl t ht)
    have hsorted := List.pairwise_insertionSort (· ≤ ·) (l.map fun s ↦ s.start.getD 0)
    rw [← hmap, List.pairwise_map] at hsorted
    refine hsorted.imp_of_mem fun {s t} hs ht hle ↦ ?_
    rw [List.mem_insertionSort] at hs ht
    exact (startsNotAfter_iff (hl s hs) (hl t ht)).2 hle

/-- `parseSlots` with the sort of the runtime. -/
def parseSlotsBy (sorter : StartSort) (now : ℤ) (input : List BookingSlotInput) :
    Except BookingError (List ParsedSpan) := do
  let slots ← input.mapM (parseSlot now)
  if selfOverlap (sorter.sort slots) then
    throw (.badRequest .slotSelfOverlap)
  return slots

theorem parseSlotsBy_insertion (now : ℤ) (input : List BookingSlotInput) :
    parseSlotsBy .insertion now input = parseSlots now input := rfl

/-- One of the two comparisons of a slot is true. -/
def SlotRefused (now : ℤ) (s : ParsedSpan) : Prop :=
  TimeValue.le s.end s.start = true ∨ TimeValue.le s.start (some now) = true

/-- One of the comparisons of `parseSlots` is true: of a slot's ends, of its start with now, or of
neighbours in the sorted list. -/
def ComparisonRefuses (sorter : StartSort) (now : ℤ) (spans : List ParsedSpan) : Prop :=
  (∃ s ∈ spans, SlotRefused now s) ∨ selfOverlap (sorter.sort spans) = true

theorem parseSlot_eq_ok_iff {now : ℤ} {s : BookingSlotInput} {r : ParsedSpan} :
    parseSlot now s = .ok r ↔
      r = ⟨s.startAt, s.endAt⟩ ∧ ¬ SlotRefused now ⟨s.startAt, s.endAt⟩ := by
  unfold parseSlot SlotRefused
  split_ifs with hend hstart
  · simp [hend]
  · simp [hstart]
  · simp [hend, hstart, eq_comm]

/-- The spans of the input, as they are. -/
def spansOf (input : List BookingSlotInput) : List ParsedSpan :=
  input.map fun s ↦ ⟨s.startAt, s.endAt⟩

theorem mapM_parseSlot_eq_ok_iff {now : ℤ} {input : List BookingSlotInput} {r : List ParsedSpan} :
    input.mapM (parseSlot now) = .ok r ↔
      r = spansOf input ∧ ∀ s ∈ spansOf input, ¬ SlotRefused now s := by
  induction input generalizing r with
  | nil => simp [spansOf, pure, Except.pure, eq_comm]
  | cons s input ih =>
    rw [List.mapM_cons]
    cases hs : parseSlot now s with
    | error e =>
      refine ⟨fun h ↦ (by cases h), fun h ↦ ?_⟩
      rw [parseSlot_eq_ok_iff.2 ⟨rfl, h.2 _ (by simp [spansOf])⟩] at hs
      cases hs
    | ok p =>
      obtain ⟨rfl, hp⟩ := parseSlot_eq_ok_iff.1 hs
      cases hrest : input.mapM (parseSlot now) with
      | error e =>
        refine ⟨fun h ↦ (by cases h), fun h ↦ ?_⟩
        rw [ih.2 ⟨rfl, fun s hs ↦ h.2 s (List.mem_cons_of_mem _ hs)⟩] at hrest
        cases hrest
      | ok ps =>
        obtain ⟨rfl, hps⟩ := ih.1 hrest
        constructor
        · rintro ⟨⟩
          exact ⟨rfl, List.forall_mem_cons.2 ⟨hp, hps⟩⟩
        · rintro ⟨rfl, -⟩
          rfl

theorem parseSlotsBy_eq_ok_iff {sorter : StartSort} {now : ℤ} {input : List BookingSlotInput}
    {r : List ParsedSpan} : parseSlotsBy sorter now input = .ok r ↔
      r = spansOf input ∧ ¬ ComparisonRefuses sorter now (spansOf input) := by
  unfold parseSlotsBy
  cases hslots : input.mapM (parseSlot now) with
  | error e =>
    refine ⟨fun h ↦ (nomatch h), fun ⟨_, h⟩ ↦ ?_⟩
    rw [mapM_parseSlot_eq_ok_iff.2 ⟨rfl, fun s hs hr ↦ h (.inl ⟨s, hs, hr⟩)⟩] at hslots
    exact (nomatch hslots)
  | ok slots =>
    obtain ⟨rfl, hpass⟩ := mapM_parseSlot_eq_ok_iff.1 hslots
    change (if selfOverlap (sorter.sort (spansOf input)) = true then _ else _ : Except _ _) = _ ↔ _
    split_ifs with hself
    · exact ⟨fun h ↦ (nomatch h), fun ⟨_, h⟩ ↦ (h (.inr hself)).elim⟩
    · constructor
      · rintro ⟨⟩
        refine ⟨rfl, ?_⟩
        rintro (⟨s, hs, hr⟩ | h)
        · exact hpass s hs hr
        · exact hself h
      · rintro ⟨rfl, -⟩
        rfl

/-! ### What is handed on -/

/-- The two strings of a requested slot. -/
structure SlotStrings where
  startAt : JsString
  endAt : JsString

/-- The requested slot, when `date` is what `new Date` makes of a string. -/
def SlotStrings.parse (date : JsString → TimeValue) (s : SlotStrings) : BookingSlotInput :=
  ⟨date s.startAt, date s.endAt⟩

/-- `parseSlots` returns if and only if the spans can be booked, and then it returns them in the
caller's order: proper spans in the future. -/
structure ParsedExactly (now : ℤ) (spans : List ParsedSpan)
    (result : Except BookingError (List ParsedSpan)) : Prop where
  returns : (∃ r, result = .ok r) ↔ Bookable now spans
  order : ∀ r, result = .ok r → r = spans
  finite : ∀ r, result = .ok r →
    ∀ s ∈ r, ∃ a b : ℤ, s = ⟨some a, some b⟩ ∧ now < a ∧ a < b

theorem proper_of_not_refused {now : ℤ} {s : ParsedSpan} (hdates : ¬ s.Invalid)
    (hs : ¬ SlotRefused now s) : s.Proper ∧ ∀ a ∈ s.start, now < a := by
  obtain ⟨start, stop⟩ := s
  cases start with
  | none => exact (hdates (.inl rfl)).elim
  | some a =>
    cases stop with
    | none => exact (hdates (.inr rfl)).elim
    | some b =>
      simp only [SlotRefused, TimeValue.le, decide_eq_true_eq, not_or, not_le] at hs
      refine ⟨⟨a, b, rfl, hs.1⟩, fun a' ha' ↦ ?_⟩
      cases ha'
      exact hs.2

theorem not_refused_of_proper {now : ℤ} {s : ParsedSpan} (hs : s.Proper)
    (hfuture : ∀ a ∈ s.start, now < a) : ¬ SlotRefused now s := by
  obtain ⟨a, b, rfl, hab⟩ := hs
  simp only [SlotRefused, TimeValue.le, decide_eq_true_eq, not_or, not_le]
  exact ⟨hab, hfuture a rfl⟩

/-- Of proper spans the sorted list shows the overlaps. -/
theorem selfOverlap_sort_eq_false_iff {sorter : StartSort} {spans : List ParsedSpan}
    (hproper : ∀ s ∈ spans, s.Proper) : selfOverlap (sorter.sort spans) = false ↔
      spans.Pairwise fun s t ↦ Disjoint s.instants t.instants := by
  have hdates : ∀ s ∈ spans, s.start ≠ none := by
    intro s hs
    obtain ⟨a, b, rfl, -⟩ := hproper s hs
    exact Option.some_ne_none a
  rw [selfOverlap_eq_false_iff (fun s hs ↦ hproper s ((sorter.perm _).mem_iff.1 hs))
    (sorter.sorted _ hdates)]
  exact (sorter.perm spans).pairwise_iff fun h ↦ h.symm

/-- Between dates the comparisons find everything that is wrong. -/
theorem bookable_iff {sorter : StartSort} {now : ℤ} {spans : List ParsedSpan}
    (hdates : ∀ s ∈ spans, ¬ s.Invalid) :
    Bookable now spans ↔ ¬ ComparisonRefuses sorter now spans := by
  constructor
  · rintro h (⟨s, hs, hr⟩ | hself)
    · exact not_refused_of_proper (h.proper s hs) (h.future s hs) hr
    · rw [(selfOverlap_sort_eq_false_iff h.proper).2 h.disjoint] at hself
      cases hself
  · intro h
    have hslot : ∀ s ∈ spans, s.Proper ∧ ∀ a ∈ s.start, now < a := fun s hs ↦
      proper_of_not_refused (hdates s hs) fun hr ↦ h (.inl ⟨s, hs, hr⟩)
    have hself : selfOverlap (sorter.sort spans) = false :=
      Bool.eq_false_iff.2 fun hself ↦ h (.inr hself)
    exact ⟨fun s hs ↦ (hslot s hs).1, fun s hs ↦ (hslot s hs).2,
      (selfOverlap_sort_eq_false_iff fun s hs ↦ (hslot s hs).1).1 hself⟩

theorem not_bookable_of_invalid {now : ℤ} {spans : List ParsedSpan} {s : ParsedSpan}
    (hs : s ∈ spans) (hinvalid : s.Invalid) : ¬ Bookable now spans := by
  intro h
  obtain ⟨a, b, rfl, -⟩ := h.proper s hs
  simp [ParsedSpan.Invalid] at hinvalid

/-- `parseSlots` is exact for a list of strings that are all dates, and for a list that one of its
comparisons refuses. A list with a string that is no date is let through otherwise. -/
theorem parseSlots_exact_iff (sorter : StartSort) (date : JsString → TimeValue) (now : ℤ)
    (input : List SlotStrings) :
    ParsedExactly now (spansOf (input.map (SlotStrings.parse date)))
        (parseSlotsBy sorter now (input.map (SlotStrings.parse date))) ↔
      (∀ s ∈ input, date s.startAt ≠ none ∧ date s.endAt ≠ none) ∨
        ComparisonRefuses sorter now (spansOf (input.map (SlotStrings.parse date))) := by
  generalize hspans : spansOf (input.map (SlotStrings.parse date)) = spans
  have hinvalid : (∀ s ∈ spans, ¬ s.Invalid) ↔
      ∀ s ∈ input, date s.startAt ≠ none ∧ date s.endAt ≠ none := by
    simp [← hspans, spansOf, SlotStrings.parse, ParsedSpan.Invalid]
  have hok : ∀ r, parseSlotsBy sorter now (input.map (SlotStrings.parse date)) = .ok r ↔
      r = spans ∧ ¬ ComparisonRefuses sorter now spans := fun r ↦ by
    rw [parseSlotsBy_eq_ok_iff, hspans]
  have hreturns : (∃ r, parseSlotsBy sorter now (input.map (SlotStrings.parse date)) = .ok r) ↔
      ¬ ComparisonRefuses sorter now spans := by
    simp [hok]
  rw [← hinvalid]
  constructor
  · intro h
    by_contra hno
    rw [not_or] at hno
    push Not at hno
    obtain ⟨⟨s, hs, hbad⟩, hpass⟩ := hno
    exact not_bookable_of_invalid hs hbad (h.returns.1 (hreturns.2 hpass))
  · intro hcond
    have hiff : Bookable now spans ↔ ¬ ComparisonRefuses sorter now spans := by
      by_cases hdates : ∀ s ∈ spans, ¬ s.Invalid
      · exact bookable_iff hdates
      · push Not at hdates
        obtain ⟨s, hs, hbad⟩ := hdates
        have hrefuses := hcond.resolve_left fun hall ↦ hall s hs hbad
        exact iff_of_false (not_bookable_of_invalid hs hbad) (not_not_intro hrefuses)
    refine ⟨hreturns.trans hiff.symm, fun r hr ↦ ((hok r).1 hr).1, fun r hr s hs ↦ ?_⟩
    obtain ⟨rfl, hpass⟩ := (hok r).1 hr
    have hbook := hiff.2 hpass
    obtain ⟨a, b, rfl, hab⟩ := hbook.proper s hs
    exact ⟨a, b, rfl, hbook.future _ hs a rfl, hab⟩

/-! ### The spans that are written -/

/-- One of the spans ends before the other starts. -/
def SlotSpan.Apart (a b : SlotSpan) : Prop := a.end ≤ b.start ∨ b.end ≤ a.start

instance (a b : SlotSpan) : Decidable (a.Apart b) := inferInstanceAs (Decidable (_ ∨ _))

theorem SlotSpan.Apart.symm {a b : SlotSpan} (h : a.Apart b) : b.Apart a := Or.symm h

/-- The spans are not empty, and no two of them meet. -/
structure Spread (spans : List SlotSpan) : Prop where
  proper : ∀ m ∈ spans, m.start < m.end
  apart : spans.Pairwise SlotSpan.Apart

/-- The client sends the spans whose ends are instants. -/
theorem slotSpans_eq_ok_iff {slots : List ParsedSpan} {spans : List SlotSpan} :
    slotSpans slots = .ok spans ↔ slots = spans.map fun m ↦ ⟨some m.start, some m.end⟩ := by
  have hmap : slots.mapM ParsedSpan.toSlotSpan = some spans ↔
      slots = spans.map fun m ↦ ⟨some m.start, some m.end⟩ := by
    induction slots generalizing spans with
    | nil => cases spans <;> simp
    | cons s slots ih =>
      obtain ⟨a, b⟩ := s
      cases spans with
      | nil =>
        rw [List.mapM_cons]
        cases a <;> cases b <;> cases slots.mapM ParsedSpan.toSlotSpan <;>
          simp [ParsedSpan.toSlotSpan]
      | cons m spans =>
        obtain ⟨c, d⟩ := m
        rw [List.mapM_cons, List.map_cons, List.cons_eq_cons, ← ih]
        cases a <;> cases b <;> cases slots.mapM ParsedSpan.toSlotSpan <;>
          simp [ParsedSpan.toSlotSpan, and_assoc]
  rw [← hmap]
  unfold slotSpans
  cases slots.mapM ParsedSpan.toSlotSpan <;> simp

/-- Spans that are accepted and sent are spread. -/
theorem spread_of_parseSlots {now : ℤ} {input : List BookingSlotInput} {slots : List ParsedSpan}
    {spans : List SlotSpan} (h : parseSlots now input = .ok slots)
    (hs : slotSpans slots = .ok spans) : Spread spans := by
  rw [← parseSlotsBy_insertion, parseSlotsBy_eq_ok_iff] at h
  obtain ⟨rfl, hpass⟩ := h
  rw [slotSpans_eq_ok_iff.1 hs] at hpass
  have hbook := (bookable_iff fun s hs ↦ by
    obtain ⟨m, -, rfl⟩ := List.mem_map.1 hs
    simp [ParsedSpan.Invalid]).2 hpass
  have hproper : ∀ m ∈ spans, m.start < m.end := fun m hm ↦ by
    obtain ⟨a, b, he, hab⟩ := hbook.proper _ (List.mem_map.2 ⟨m, hm, rfl⟩)
    cases he
    exact hab
  refine ⟨hproper, (List.pairwise_map.1 hbook.disjoint).imp_of_mem fun {m m'} hm hm' hd ↦ ?_⟩
  have hdisjoint := (disjoint_instants_iff ⟨_, _, rfl, hproper m hm⟩
    ⟨_, _, rfl, hproper m' hm'⟩).1 hd
  simpa [SlotSpan.Apart, TimeValue.lt] using hdisjoint

/-- What `new Date` makes of the weeks 37 and 38 of a year: nothing. -/
def weekDate (s : JsString) : TimeValue :=
  if s = JsString.lit "2026-W37" ∨ s = JsString.lit "2026-W38" then none else some 0

/-- A booking for a week is let through, with spans that have no instants. -/
theorem parseSlots_week : ¬ ParsedExactly 0
    (spansOf
      ([⟨JsString.lit "2026-W37", JsString.lit "2026-W38"⟩].map (SlotStrings.parse weekDate)))
    (parseSlotsBy .insertion 0
      ([⟨JsString.lit "2026-W37", JsString.lit "2026-W38"⟩].map (SlotStrings.parse weekDate))) := by
  intro h
  have hok : parseSlotsBy .insertion 0
      ([⟨JsString.lit "2026-W37", JsString.lit "2026-W38"⟩].map (SlotStrings.parse weekDate)) =
        .ok [⟨none, none⟩] := by decide
  obtain ⟨a, b, hs, -⟩ := h.finite _ hok ⟨none, none⟩ (by simp)
  cases hs

end EasyBook

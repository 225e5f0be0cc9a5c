import EasyBook.Reports.Calendar

/-!
# Held time as a number of instants

The milliseconds of a slot that lie in the school window of a school date of a range (`heldMs`): a
number of elements of a set. So the value is additive and monotone because the sets are, and
disjoint slots do not hold more than the windows have.
-/

namespace EasyBook.Reports

open JsDate JsString

/-! ### The school window as a set of instants -/

/-- 08:30 of a day in Bangkok. -/
def windowStart (d : ℤ) : ℤ := d * msPerDay + 5400000

/-- 16:30 of a day in Bangkok. -/
def windowEnd (d : ℤ) : ℤ := d * msPerDay + 34200000

/-- The instant lies in the school window of a school date of the range. -/
def InSchool (first last t : ℤ) : Prop :=
  (first ≤ bangkokDay t ∧ bangkokDay t ≤ last) ∧ SchoolDate (bangkokDay t) ∧
    windowStart (bangkokDay t) ≤ t ∧ t < windowEnd (bangkokDay t)

instance (first last t : ℤ) : Decidable (InSchool first last t) :=
  inferInstanceAs (Decidable (_ ∧ _))

/-- The instants of a span that lie in the school window. -/
noncomputable def heldInstants (first last : ℤ) (slot : Span) : Finset ℤ :=
  (Finset.Ico slot.startAt slot.endAt).filter (InSchool first last)

/-- The milliseconds of a span that lie in the school window. -/
noncomputable def heldMs (first last : ℤ) (slot : Span) : ℤ := (heldInstants first last slot).card

/-- The length of what two half-open spans have in common. -/
def overlap (s e a b : ℤ) : ℤ := max 0 (min e b - max s a)

theorem overlap_eq_card (s e a b : ℤ) :
    overlap s e a b = (Finset.Ico (max s a) (min e b)).card := by
  rw [Int.card_Ico]
  unfold overlap
  omega

theorem bangkokDay_eq_iff {t d : ℤ} :
    bangkokDay t = d ↔ d * msPerDay - 25200000 ≤ t ∧ t < d * msPerDay + 61200000 := by
  unfold bangkokDay day inBangkok bangkokUtcOffsetMinutes msPerDay
  omega

theorem bangkokDay_mono {t u : ℤ} (h : t ≤ u) : bangkokDay t ≤ bangkokDay u := by
  unfold bangkokDay day inBangkok bangkokUtcOffsetMinutes msPerDay
  omega

/-- The window of a day is in the day. -/
theorem bangkokDay_of_window {t d : ℤ} (h : windowStart d ≤ t) (h' : t < windowEnd d) :
    bangkokDay t = d := by
  rw [bangkokDay_eq_iff]
  unfold windowStart at h
  unfold windowEnd at h'
  omega

/-- What a slot holds on one day. -/
def heldOn (first last : ℤ) (slot : Span) (d : ℤ) : ℤ :=
  if (first ≤ d ∧ d ≤ last) ∧ SchoolDate d then
    overlap slot.startAt slot.endAt (windowStart d) (windowEnd d)
  else 0

theorem card_heldInstants_on (first last : ℤ) (slot : Span) (d : ℤ) :
    (((heldInstants first last slot).filter fun t ↦ bangkokDay t = d).card : ℤ) =
      heldOn first last slot d := by
  unfold heldOn
  split_ifs with h
  · rw [overlap_eq_card]
    congr 2
    ext t
    simp only [heldInstants, Finset.mem_filter, Finset.mem_Ico, InSchool]
    constructor
    · rintro ⟨⟨⟨hs, he⟩, -, -, hw⟩, rfl⟩
      omega
    · rintro ⟨ht, ht'⟩
      have hd := bangkokDay_of_window (t := t) (d := d) (by omega) (by omega)
      rw [hd]
      exact ⟨⟨by omega, h.1, h.2, by omega⟩, rfl⟩
  · rw [Finset.filter_false_of_mem]
    · rfl
    · rintro t ht rfl
      obtain ⟨-, hin, hschool, -⟩ := Finset.mem_filter.1 ht
      exact h ⟨hin, hschool⟩

/-- What a slot holds is what it holds on the days that it touches. -/
theorem heldMs_eq_sum {first last : ℤ} {slot : Span} {D : Finset ℤ}
    (hD : ∀ t ∈ heldInstants first last slot, bangkokDay t ∈ D) :
    heldMs first last slot = ∑ d ∈ D, heldOn first last slot d := by
  unfold heldMs
  rw [Finset.card_eq_sum_card_fiberwise hD, Nat.cast_sum]
  exact Finset.sum_congr rfl fun d _ ↦ card_heldInstants_on first last slot d

/-- The formula: the school dates of the range, and the common length with each window. -/
theorem heldMs_eq_sum_school (first last : ℤ) (slot : Span) :
    heldMs first last slot = ∑ d ∈ (Finset.Icc first last).filter SchoolDate,
      overlap slot.startAt slot.endAt (windowStart d) (windowEnd d) := by
  rw [heldMs_eq_sum (D := (Finset.Icc first last).filter SchoolDate)]
  · refine Finset.sum_congr rfl fun d hd ↦ ?_
    obtain ⟨hd, hschool⟩ := Finset.mem_filter.1 hd
    exact if_pos ⟨Finset.mem_Icc.1 hd, hschool⟩
  · intro t ht
    obtain ⟨-, hin, hschool, -⟩ := Finset.mem_filter.1 ht
    exact Finset.mem_filter.2 ⟨Finset.mem_Icc.2 hin, hschool⟩

theorem heldMs_nonneg (first last : ℤ) (slot : Span) : 0 ≤ heldMs first last slot :=
  Int.natCast_nonneg _

/-- Additive in the range. -/
theorem heldMs_range {first mid last : ℤ} (h : first ≤ mid + 1) (h' : mid ≤ last) (slot : Span) :
    heldMs first last slot = heldMs first mid slot + heldMs (mid + 1) last slot := by
  unfold heldMs
  rw [← Nat.cast_add, ← Finset.card_union_of_disjoint]
  · congr 2
    ext t
    simp only [heldInstants, Finset.mem_union, Finset.mem_filter, InSchool]
    constructor
    · rintro ⟨ht, hin, hrest⟩
      by_cases hm : bangkokDay t ≤ mid
      · exact .inl ⟨ht, ⟨hin.1, hm⟩, hrest⟩
      · exact .inr ⟨ht, ⟨by omega, hin.2⟩, hrest⟩
    · rintro (⟨ht, hin, hrest⟩ | ⟨ht, hin, hrest⟩)
      · exact ⟨ht, ⟨hin.1, by omega⟩, hrest⟩
      · exact ⟨ht, ⟨by omega, hin.2⟩, hrest⟩
  · refine Finset.disjoint_left.2 fun t ht ht' ↦ ?_
    have := (Finset.mem_filter.1 ht).2.1.2
    have := (Finset.mem_filter.1 ht').2.1.1
    omega

/-- Additive in the slot. -/
theorem heldMs_slot (first last : ℤ) {s m e : ℤ} (h : s ≤ m) (h' : m ≤ e) :
    heldMs first last ⟨s, e⟩ = heldMs first last ⟨s, m⟩ + heldMs first last ⟨m, e⟩ := by
  unfold heldMs
  rw [← Nat.cast_add, ← Finset.card_union_of_disjoint]
  · congr 2
    ext t
    simp only [heldInstants, Finset.mem_union, Finset.mem_filter, Finset.mem_Ico]
    constructor
    · rintro ⟨ht, hin⟩
      by_cases hm : t < m
      · exact .inl ⟨⟨ht.1, hm⟩, hin⟩
      · exact .inr ⟨⟨by omega, ht.2⟩, hin⟩
    · rintro (⟨ht, hin⟩ | ⟨ht, hin⟩)
      · exact ⟨by omega, hin⟩
      · exact ⟨by omega, hin⟩
  · refine Finset.disjoint_left.2 fun t ht ht' ↦ ?_
    have hm := (Finset.mem_Ico.1 (Finset.mem_filter.1 ht).1).2
    have hm' := (Finset.mem_Ico.1 (Finset.mem_filter.1 ht').1).1
    exact hm.not_ge hm'

/-- Monotone in both. -/
theorem heldMs_mono {first last first' last' : ℤ} {slot slot' : Span} (h : first' ≤ first)
    (h' : last ≤ last') (hs : slot'.startAt ≤ slot.startAt) (he : slot.endAt ≤ slot'.endAt) :
    heldMs first last slot ≤ heldMs first' last' slot' := by
  refine Int.ofNat_le.2 (Finset.card_le_card fun t ht ↦ ?_)
  obtain ⟨ht, ⟨hf, hl⟩, hrest⟩ := Finset.mem_filter.1 ht
  have := Finset.mem_Ico.1 ht
  exact Finset.mem_filter.2 ⟨Finset.mem_Ico.2 ⟨by omega, by omega⟩, ⟨by omega, by omega⟩, hrest⟩

/-- Two spans have no instant in common. -/
def Span.Disjoint (a b : Span) : Prop := a.endAt ≤ b.startAt ∨ b.endAt ≤ a.startAt

instance (a b : Span) : Decidable (a.Disjoint b) := inferInstanceAs (Decidable (_ ∨ _))

/-- The number of school dates of a range. -/
noncomputable def schoolDates (first last : ℤ) : ℕ :=
  ((Finset.Icc first last).filter SchoolDate).card

/-- Disjoint slots do not hold more than the window has. -/
theorem sum_heldMs_le {first last : ℤ} {slots : List Span} (h : slots.Pairwise Span.Disjoint) :
    (slots.map (heldMs first last)).sum ≤ 8 * hourMs * schoolDates first last := by
  -- The instants of all slots are instants of the windows, and no instant is in two slots.
  have hunion : ∃ U : Finset ℤ, (U.card : ℤ) = (slots.map (heldMs first last)).sum ∧
      (∀ t ∈ U, ∃ slot ∈ slots, slot.startAt ≤ t ∧ t < slot.endAt) ∧
      ∀ t ∈ U, InSchool first last t := by
    induction slots with
    | nil => exact ⟨∅, rfl, nofun, nofun⟩
    | cons slot slots ih =>
      obtain ⟨hslot, hslots⟩ := List.pairwise_cons.1 h
      obtain ⟨U, hcard, hmem, hin⟩ := ih hslots
      refine ⟨heldInstants first last slot ∪ U, ?_, ?_, ?_⟩
      · rw [Finset.card_union_of_disjoint, List.map_cons, List.sum_cons, ← hcard, heldMs]
        · push_cast
          rfl
        · refine Finset.disjoint_left.2 fun t ht ht' ↦ ?_
          obtain ⟨slot', hslot', hs, he⟩ := hmem t ht'
          have := Finset.mem_Ico.1 (Finset.mem_filter.1 ht).1
          rcases hslot slot' hslot' with hd | hd <;> omega
      · intro t ht
        rcases Finset.mem_union.1 ht with ht | ht
        · exact ⟨slot, List.mem_cons_self, Finset.mem_Ico.1 (Finset.mem_filter.1 ht).1⟩
        · obtain ⟨slot', hslot', hrest⟩ := hmem t ht
          exact ⟨slot', List.mem_cons_of_mem _ hslot', hrest⟩
      · intro t ht
        rcases Finset.mem_union.1 ht with ht | ht
        · exact (Finset.mem_filter.1 ht).2
        · exact hin t ht
  obtain ⟨U, hcard, -, hin⟩ := hunion
  rw [← hcard, Finset.card_eq_sum_card_fiberwise (f := bangkokDay)
    (t := (Finset.Icc first last).filter SchoolDate) fun t ht ↦ Finset.mem_filter.2
      ⟨Finset.mem_Icc.2 (hin t ht).1, (hin t ht).2.1⟩]
  have hday : ∀ d ∈ (Finset.Icc first last).filter SchoolDate,
      (U.filter fun t ↦ bangkokDay t = d).card ≤ 28800000 := by
    intro d _
    have hsub : (U.filter fun t ↦ bangkokDay t = d) ⊆ Finset.Ico (windowStart d) (windowEnd d) := by
      intro t ht
      obtain ⟨hU, rfl⟩ := Finset.mem_filter.1 ht
      exact Finset.mem_Ico.2 (hin t hU).2.2
    refine (Finset.card_le_card hsub).trans ?_
    rw [Int.card_Ico]
    unfold windowStart windowEnd
    omega
  have hsum := Finset.sum_le_card_nsmul _ _ _ hday
  rw [nsmul_eq_mul, Nat.cast_id] at hsum
  unfold schoolDates hourMs
  omega

end EasyBook.Reports

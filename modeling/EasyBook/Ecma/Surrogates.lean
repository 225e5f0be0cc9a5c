import EasyBook.Ecma.Text

/-!
# Surrogates

A text is read as code points, the two units of a surrogate pair together (`codePoints`). Two texts
can be joined, or one cut, without tearing or forming a pair where they meet in `NoPair`.

`wide` are the code points that need surrogates and the surrogates that stand alone. It does not
change when runs of other characters are rewritten (`Rewrites.wide_eq`).
-/

namespace JsString

variable {a b s t : JsString} {u v : ℕ}

/-- A leading surrogate. -/
def High (u : ℕ) : Prop := 0xD800 ≤ u ∧ u ≤ 0xDBFF

/-- A trailing surrogate. -/
def Low (u : ℕ) : Prop := 0xDC00 ≤ u ∧ u ≤ 0xDFFF

/-- No surrogate. -/
def Plain (u : ℕ) : Prop := u < 0xD800 ∨ 0xDFFF < u ∧ u < 0x10000

instance : DecidablePred High := fun u ↦ inferInstanceAs (Decidable (0xD800 ≤ u ∧ u ≤ 0xDBFF))

instance : DecidablePred Low := fun u ↦ inferInstanceAs (Decidable (0xDC00 ≤ u ∧ u ≤ 0xDFFF))

instance : DecidablePred Plain := fun u ↦
  inferInstanceAs (Decidable (u < 0xD800 ∨ 0xDFFF < u ∧ u < 0x10000))

/-- The code points of a text; a surrogate that stands alone counts for itself. -/
def codePoints : JsString → List ℕ
  | [] => []
  | [u] => [u]
  | u :: v :: s =>
    if High u ∧ Low v then (0x10000 + (u - 0xD800) * 0x400 + (v - 0xDC00)) :: codePoints s
    else u :: codePoints (v :: s)

/-- No surrogate stands alone. -/
def WellFormed (s : JsString) : Prop := ∀ p ∈ codePoints s, ¬ (High p ∨ Low p)

instance : DecidablePred WellFormed := fun s ↦
  inferInstanceAs (Decidable (∀ p ∈ codePoints s, ¬ (High p ∨ Low p)))

/-- The code points that are written with surrogates, and the surrogates that stand alone. -/
def wide (s : JsString) : List ℕ := (codePoints s).filter fun p ↦ decide (¬ Plain p)

/-- No pair is formed where the texts meet. -/
def NoPair (a b : JsString) : Prop :=
  ∀ u v, a.getLast? = some u → b.head? = some v → ¬ (High u ∧ Low v)

/-- A plain unit is no half of a pair. -/
theorem Plain.not_high (h : Plain u) : ¬ High u := by
  unfold Plain High at *
  omega

theorem Plain.not_low (h : Plain u) : ¬ Low u := by
  unfold Plain Low at *
  omega

/-- Nothing pairs across a seam whose left side does not end in a high surrogate. -/
theorem noPair_of_last (h : ∀ u, a.getLast? = some u → ¬ High u) : NoPair a b :=
  fun u _ hu _ hpair ↦ h u hu hpair.1

/-- Nothing pairs across a seam whose right side does not begin with a low surrogate. -/
theorem noPair_of_head (h : ∀ v, b.head? = some v → ¬ Low v) : NoPair a b :=
  fun _ v _ hv hpair ↦ h v hv hpair.2

/-! ### Joining and cutting -/

/-- A unit that is not paired with the next one is a code point of its own. -/
theorem codePoints_cons (h : ∀ v, s.head? = some v → ¬ (High u ∧ Low v)) :
    codePoints (u :: s) = u :: codePoints s := by
  cases s with
  | nil => rfl
  | cons v s => rw [codePoints, if_neg (h v rfl)]

/-- Code points are read on either side of a seam across which nothing pairs. -/
theorem codePoints_append (h : NoPair a b) :
    codePoints (a ++ b) = codePoints a ++ codePoints b := by
  induction a using codePoints.induct with
  | case1 => rfl
  | case2 u => exact codePoints_cons fun v hv ↦ h u v rfl hv
  | case3 u v s hpair ih =>
    rw [List.cons_append, List.cons_append, codePoints, if_pos hpair, codePoints, if_pos hpair,
      List.cons_append]
    refine congrArg _ (ih fun x y hx hy ↦ h x y ?_ hy)
    cases s with
    | nil => cases hx
    | cons w s => exact hx
  | case4 u v s hpair ih =>
    rw [List.cons_append, List.cons_append, codePoints, if_neg hpair, codePoints, if_neg hpair,
      List.cons_append, ← List.cons_append]
    exact congrArg _ (ih fun x y hx hy ↦ h x y hx hy)

/-- So are the visible ones. -/
theorem wide_append (h : NoPair a b) : wide (a ++ b) = wide a ++ wide b := by
  rw [wide, codePoints_append h, List.filter_append]
  rfl

/-- No pair is formed where the parts meet. -/
def NoPairs : List JsString → Prop
  | [] => True
  | p :: ps => NoPair p ps.flatten ∧ NoPairs ps

/-- The visible code points of a text put together from pieces are those of the pieces. -/
theorem wide_flatten {ps : List JsString} (h : NoPairs ps) :
    wide ps.flatten = (ps.map wide).flatten := by
  induction ps with
  | nil => rfl
  | cons p ps ih =>
    rw [List.flatten_cons, wide_append h.1, ih h.2]
    rfl

/-- A plain unit shows nothing. -/
theorem wide_cons_of_plain (h : Plain u) : wide (u :: s) = wide s := by
  rw [wide, codePoints_cons fun _ _ hpair ↦ h.not_high hpair.1, List.filter_cons_of_neg (by simpa)]
  rfl

/-- A text of plain units shows nothing. -/
theorem wide_of_plain (h : ∀ u ∈ s, Plain u) : wide s = [] := by
  induction s with
  | nil => rfl
  | cons u s ih =>
    rw [wide_cons_of_plain (h u (List.mem_cons_self ..))]
    exact ih fun v hv ↦ h v (List.mem_cons_of_mem _ hv)

/-- Plain units before a text do not change what it shows. -/
theorem wide_plain_append (h : ∀ u ∈ a, Plain u) : wide (a ++ s) = wide s := by
  rw [wide_append (noPair_of_last fun u hu ↦ (h u (List.mem_of_getLast? hu)).not_high),
    wide_of_plain h, List.nil_append]

/-- Plain units after a text do not change what it shows. -/
theorem wide_append_plain (h : ∀ u ∈ a, Plain u) : wide (s ++ a) = wide s := by
  rw [wide_append (noPair_of_head fun u hu ↦ (h u (List.mem_of_head? hu)).not_low),
    wide_of_plain h, List.append_nil]

/-- White space is plain: what `trim` takes away is never half of a pair. -/
theorem plain_of_isWhiteSpace (h : isWhiteSpace u) : Plain u := by
  unfold isWhiteSpace at h
  unfold Plain
  simp at h
  omega

/-! ### Texts with no surrogate that stands alone -/

theorem wellFormed_nil : WellFormed [] := fun _ hp ↦ nomatch hp

/-- Being well formed is a matter of the visible code points alone. -/
theorem wellFormed_iff_wide : WellFormed s ↔ ∀ p ∈ wide s, ¬ (High p ∨ Low p) := by
  refine ⟨fun h p hp ↦ h p (List.mem_of_mem_filter hp), fun h p hp hsurrogate ↦ ?_⟩
  refine h p (List.mem_filter.mpr ⟨hp, ?_⟩) hsurrogate
  simpa using fun hplain : Plain p ↦ hsurrogate.elim hplain.not_high hplain.not_low

theorem wellFormed_of_plain (h : ∀ u ∈ s, Plain u) : WellFormed s := by
  rw [wellFormed_iff_wide, wide_of_plain h]
  exact fun _ hp ↦ nomatch hp

/-- What is left of a well-formed text in front of a cut between two code points. -/
theorem WellFormed.of_prefix (h : WellFormed s) (ht : wide t <+: wide s) : WellFormed t :=
  wellFormed_iff_wide.2 fun p hp ↦ wellFormed_iff_wide.1 h p (ht.subset hp)

/-- A well-formed text does not end in a high surrogate. -/
theorem WellFormed.last (h : WellFormed s) (hu : s.getLast? = some u) : ¬ High u := by
  intro hhigh
  obtain ⟨t, rfl⟩ := List.getLast?_eq_some_iff.mp hu
  -- A trailing surrogate that precedes it belongs to `t`.
  have hpair : NoPair t [u] := by
    refine noPair_of_head fun v hv ↦ ?_
    cases hv
    unfold High at hhigh
    unfold Low
    omega
  exact h u (by rw [codePoints_append hpair]; simp [codePoints]) (.inl hhigh)

/-- Well-formed texts are well formed together. -/
theorem WellFormed.append (ha : WellFormed a) (hb : WellFormed b) : WellFormed (a ++ b) := by
  intro p hp
  rw [codePoints_append (noPair_of_last fun u hu ↦ ha.last hu), List.mem_append] at hp
  exact hp.elim (ha p) (hb p)

/-! ### Literals -/

/-- The units of a literal, by its characters. -/
theorem lit_eq {l : String} {cs : List Char} (h : l = String.ofList cs) :
    lit l = cs.flatMap units := by
  rw [lit, h, String.toList_ofList]

/-- A literal that is not empty has units. -/
theorem lit_ne_nil {l : String} (h : l ≠ "") : lit l ≠ [] := by
  have hunits (c : Char) : units c ≠ [] := by
    rw [units]
    split_ifs <;> simp
  intro hnil
  refine h (String.toList_eq_nil_iff.mp ?_)
  cases hl : l.toList with
  | nil => rfl
  | cons c cs =>
    rw [lit, hl, List.flatMap_cons, List.append_eq_nil_iff] at hnil
    exact absurd hnil.1 (hunits c)

/-- The units of one character, one or a pair of them. -/
theorem wellFormed_units (c : Char) : WellFormed (units c) := by
  have hvalid : c.toNat < 0xD800 ∨ 0xDFFF < c.toNat ∧ c.toNat < 0x110000 := c.valid
  rw [units]
  split_ifs with hc
  · exact wellFormed_of_plain (by simpa [Plain] using by omega)
  · have hhigh : High (0xD800 + (c.toNat - 0x10000) / 0x400) := by
      unfold High
      omega
    have hlow : Low (0xDC00 + (c.toNat - 0x10000) % 0x400) := by
      unfold Low
      omega
    intro p hp
    rw [codePoints, if_pos ⟨hhigh, hlow⟩, codePoints, List.mem_singleton] at hp
    unfold High Low
    omega

/-- A literal of the source is well formed. -/
theorem wellFormed_lit (l : String) : WellFormed (lit l) := by
  rw [lit]
  induction l.toList with
  | nil => exact wellFormed_nil
  | cons c cs ih => exact (wellFormed_units c).append ih

end JsString

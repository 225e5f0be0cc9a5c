import Mathlib

/-!
# Occurrences of a run

A mark is a run of one character. It occurs in a concatenation where it occurs in one of the parts,
if no part ends in the character where the next begins with it (`at_append`, `at_flatten`).
-/

namespace List

variable {α : Type} {w s t a b : List α} {c : α} {n i : ℕ}

/-- `w` stands in `s` at position `i`. -/
def At (w s : List α) (i : ℕ) : Prop := w <+: s.drop i

/-- `w` stands nowhere in `s`. -/
def Free (w s : List α) : Prop := ∀ i, ¬ At w s i

/-- `c` does not stand on both sides where the lists meet. -/
def Seam (c : α) (a b : List α) : Prop := a.getLast? = some c → b.head? ≠ some c

theorem Seam.of_last (h : a.getLast? ≠ some c) : Seam c a b := fun hc ↦ absurd hc h

theorem Seam.of_head (h : b.head? ≠ some c) : Seam c a b := fun _ ↦ h

theorem free_iff : Free w s ↔ ¬ w <:+: s := by
  constructor
  · rintro h ⟨a, b, rfl⟩
    refine h a.length ?_
    rw [At, append_assoc, drop_left]
    exact prefix_append _ _
  · intro h i hi
    exact h (hi.isInfix.trans (drop_suffix i s).isInfix)

/-- A list without the mark keeps to be without it when its ends are cut off. -/
theorem Free.mono (h : Free w s) (ht : t <:+: s) : Free w t :=
  free_iff.2 fun hw ↦ free_iff.1 h (hw.trans ht)

theorem not_at_of_le (hw : w ≠ []) (h : s.length ≤ i) : ¬ At w s i := by
  intro hat
  rw [At, drop_eq_nil_of_le h] at hat
  exact hw (prefix_nil.mp hat)

theorem free_nil (hw : w ≠ []) : Free w [] := fun i ↦ not_at_of_le hw (Nat.zero_le i)

/-- A run that starts in a nonempty list ends there, unless it goes over the seam. -/
private theorem replicate_prefix_append (ha : a ≠ []) (h : Seam c a b) :
    replicate n c <+: a ++ b ↔ replicate n c <+: a := by
  refine ⟨fun hp ↦ ?_, fun hp ↦ hp.trans (prefix_append a b)⟩
  by_contra hlong
  have hlt : a.length < n := by
    by_contra hle
    exact hlong (prefix_of_prefix_length_le hp (prefix_append a b) (by simpa using hle))
  -- The run covers the last element of `a` and the first one of `b`.
  obtain ⟨m, rfl⟩ := Nat.exists_eq_add_of_lt hlt
  obtain ⟨rest, hrest⟩ := hp
  have hsplit : replicate (a.length + m + 1) c = replicate a.length c ++ c :: replicate m c := by
    rw [Nat.add_assoc, replicate_add, replicate_succ]
  rw [hsplit, append_assoc] at hrest
  obtain ⟨hleft, hright⟩ := append_inj hrest (by simp)
  refine h ?_ (by rw [← hright]; rfl)
  rw [← hleft, getLast?_replicate, if_neg]
  exact fun h0 ↦ ha (length_eq_zero_iff.mp h0)

/-- A run in a concatenation stands in one of the parts. -/
theorem at_append (h : Seam c a b) : At (replicate (n + 1) c) (a ++ b) i ↔
    At (replicate (n + 1) c) a i ∨ a.length ≤ i ∧ At (replicate (n + 1) c) b (i - a.length) := by
  rcases lt_or_ge i a.length with hi | hi
  · have hne : a.drop i ≠ [] := by simpa using hi
    have hseam : Seam c (a.drop i) b := fun hlast ↦ h (by
      rw [getLast?_drop, if_neg hi.not_ge] at hlast
      exact hlast)
    rw [At, drop_append_of_le_length hi.le, replicate_prefix_append hne hseam]
    exact ⟨.inl, fun hor ↦ hor.resolve_right fun hr ↦ hr.1.not_gt hi⟩
  · rw [At, drop_append, drop_eq_nil_of_le hi, nil_append]
    exact ⟨fun hb ↦ .inr ⟨hi, hb⟩,
      fun hor ↦ hor.resolve_left (not_at_of_le (by simp) hi) |>.2⟩

theorem free_append (h : Seam c a b) : Free (replicate (n + 1) c) (a ++ b) ↔
    Free (replicate (n + 1) c) a ∧ Free (replicate (n + 1) c) b := by
  constructor
  · intro hab
    exact ⟨hab.mono (prefix_append a b).isInfix, hab.mono (suffix_append a b).isInfix⟩
  · rintro ⟨ha, hb⟩ i hi
    rcases (at_append h).1 hi with hi | ⟨-, hi⟩
    · exact ha i hi
    · exact hb _ hi

theorem free_singleton {u : α} (h : u ≠ c) : Free (replicate (n + 1) c) [u] := by
  intro i hi
  cases i with
  | zero =>
    obtain ⟨rest, hrest⟩ := hi
    rw [replicate_succ, drop_zero] at hrest
    exact h (cons_eq_cons.mp hrest).1.symm
  | succ i => exact not_at_of_le (by simp) (by simp) hi

/-- Another character neither makes a mark nor breaks one. -/
theorem free_cons {u : α} (h : u ≠ c) :
    Free (replicate (n + 1) c) (u :: s) ↔ Free (replicate (n + 1) c) s := by
  have hseam : Seam c [u] s := .of_last (by simpa using h)
  exact (free_append hseam).trans (and_iff_right (free_singleton h))

/-- No seam of the parts lies within a run of the character. -/
def Seams (c : α) : List (List α) → Prop
  | [] => True
  | p :: ps => Seam c p ps.flatten ∧ Seams c ps

/-- A run in a concatenation of parts stands in one of them. -/
theorem at_flatten {ps : List (List α)} (h : Seams c ps) :
    At (replicate (n + 1) c) ps.flatten i ↔ ∃ before p after, ps = before ++ p :: after ∧
      ∃ j, At (replicate (n + 1) c) p j ∧ i = before.flatten.length + j := by
  induction ps generalizing i with
  | nil =>
    refine ⟨fun hi ↦ absurd hi (free_nil (by simp) i), ?_⟩
    rintro ⟨before, p, after, hps, -⟩
    simp at hps
  | cons p ps ih =>
    rw [flatten_cons, at_append h.1, ih h.2]
    constructor
    · rintro (hp | ⟨hle, before, q, after, hps, j, hq, hj⟩)
      · exact ⟨[], p, ps, rfl, i, hp, (Nat.zero_add i).symm⟩
      · refine ⟨p :: before, q, after, by rw [hps, cons_append], j, hq, ?_⟩
        rw [flatten_cons, length_append]
        omega
    · rintro ⟨before, q, after, hps, j, hq, rfl⟩
      cases before with
      | nil =>
        cases hps
        exact .inl (by simpa using hq)
      | cons p' before =>
        obtain ⟨rfl, hrest⟩ := cons_eq_cons.mp hps
        rw [flatten_cons, length_append]
        exact .inr ⟨by omega, before, q, after, hrest, j, hq, by omega⟩

end List

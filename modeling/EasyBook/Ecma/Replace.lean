import EasyBook.Ecma.Text

/-!
# Replacing pairs

`s.replace(/xy/g, …)` for patterns of two units: one pass from the left, which goes on after a match
and does not look at what it has put there. `replacePairs_of_unmatched` says when nothing happens.

The other lemmas measure what a pass does. A rule that takes away a unit is measured by the number
of those units, and a rule that exchanges the two units of a pair by the number of `inversions`:
with an equal measure there was no match that counts.
-/

namespace JsString

/-- `s.replace(pattern, …)` for a global pattern of two units. -/
def replacePairs (rule : ℕ → ℕ → Option JsString) : JsString → JsString
  | x :: y :: s => match rule x y with
    | some r => r ++ replacePairs rule s
    | none => x :: replacePairs rule (y :: s)
  | s => s

section

variable {rule : ℕ → ℕ → Option JsString} {a b r s : JsString} {c x y z : ℕ}

theorem replacePairs_of_some (h : rule x y = some r) :
    replacePairs rule (x :: y :: s) = r ++ replacePairs rule s := by
  rw [replacePairs, h]

theorem replacePairs_of_none (h : rule x y = none) :
    replacePairs rule (x :: y :: s) = x :: replacePairs rule (y :: s) := by
  rw [replacePairs, h]

@[simp] theorem replacePairs_nil : replacePairs rule [] = [] := rfl

/-- The cases of a pass. -/
theorem replacePairs_induct (rule : ℕ → ℕ → Option JsString) {P : JsString → Prop} (nil : P [])
    (singleton : ∀ x, P [x])
    (matched : ∀ x y r s, rule x y = some r → P s → P (x :: y :: s))
    (unmatched : ∀ x y s, rule x y = none → P (y :: s) → P (x :: y :: s)) (s : JsString) : P s := by
  induction hn : s.length using Nat.strong_induction_on generalizing s with
  | _ n ih =>
    match s with
    | [] => exact nil
    | [x] => exact singleton x
    | x :: y :: s =>
      cases h : rule x y with
      | some r => exact matched x y r s h (ih s.length (by simp at hn; omega) s rfl)
      | none => exact unmatched x y s h (ih (y :: s).length (by simp at hn ⊢; omega) _ rfl)

/-- Without a match nothing happens. -/
theorem replacePairs_of_unmatched (h : s.IsChain fun x y ↦ rule x y = none) :
    replacePairs rule s = s := by
  induction s using replacePairs_induct rule with
  | nil => rfl
  | singleton x => rfl
  | matched x y r s hr ih =>
    rw [(List.isChain_cons_cons.1 h).1] at hr
    exact nomatch hr
  | unmatched x y s hr ih => rw [replacePairs_of_none hr, ih h.tail]

/-- A unit that belongs to no pair cuts the text. -/
theorem replacePairs_cut (hz : ∀ x, rule x z = none ∧ rule z x = none) :
    replacePairs rule (a ++ z :: b) = replacePairs rule a ++ z :: replacePairs rule b := by
  have hcut : replacePairs rule (z :: b) = z :: replacePairs rule b := by
    cases b with
    | nil => rfl
    | cons y b => exact replacePairs_of_none (hz y).2
  induction a using replacePairs_induct rule with
  | nil => exact hcut
  | singleton x =>
    exact (replacePairs_of_none (hz x).1).trans (congrArg (x :: ·) hcut)
  | matched x y r s hr ih =>
    rw [List.cons_append, List.cons_append, replacePairs_of_some hr, ih, replacePairs_of_some hr,
      List.append_assoc]
  | unmatched x y s hr ih =>
    rw [List.cons_append] at ih
    rw [List.cons_append, List.cons_append, replacePairs_of_none hr, ih, replacePairs_of_none hr,
      List.cons_append]

/-- What holds of every unit still does. -/
theorem forall_mem_replacePairs {P : ℕ → Prop}
    (hrule : ∀ x y r, rule x y = some r → P x → P y → ∀ u ∈ r, P u) (h : ∀ u ∈ s, P u) :
    ∀ u ∈ replacePairs rule s, P u := by
  induction s using replacePairs_induct rule with
  | nil => exact h
  | singleton x => exact h
  | matched x y r s hr ih =>
    obtain ⟨hx, hrest⟩ := List.forall_mem_cons.1 h
    obtain ⟨hy, hs⟩ := List.forall_mem_cons.1 hrest
    rw [replacePairs_of_some hr]
    exact List.forall_mem_append.2 ⟨hrule x y r hr hx hy, ih hs⟩
  | unmatched x y s hr ih =>
    obtain ⟨hx, hrest⟩ := List.forall_mem_cons.1 h
    rw [replacePairs_of_none hr]
    exact List.forall_mem_cons.2 ⟨hx, ih hrest⟩

theorem length_replacePairs_le (hrule : ∀ x y r, rule x y = some r → r.length ≤ 2) :
    (replacePairs rule s).length ≤ s.length := by
  induction s using replacePairs_induct rule with
  | nil => exact le_rfl
  | singleton x => exact le_rfl
  | matched x y r s hr ih =>
    rw [replacePairs_of_some hr, List.length_append, List.length_cons, List.length_cons]
    have hlen := hrule x y r hr
    omega
  | unmatched x y s hr ih =>
    rw [replacePairs_of_none hr]
    exact Nat.succ_le_succ ih

/-! ### Counting a unit -/

private theorem count_pair : (x :: y :: s).count c = [x, y].count c + s.count c := by
  rw [← List.count_append]
  rfl

/-- A rule that keeps the units `c` keeps their number. -/
theorem count_replacePairs (hrule : ∀ x y r, rule x y = some r → r.count c = [x, y].count c) :
    (replacePairs rule s).count c = s.count c := by
  induction s using replacePairs_induct rule with
  | nil => rfl
  | singleton x => rfl
  | matched x y r s hr ih =>
    rw [replacePairs_of_some hr, List.count_append, ih, hrule x y r hr, count_pair (s := s)]
  | unmatched x y s hr ih => rw [replacePairs_of_none hr, List.count_cons, ih, ← List.count_cons]

theorem count_replacePairs_le (hrule : ∀ x y r, rule x y = some r → r.count c < [x, y].count c) :
    (replacePairs rule s).count c ≤ s.count c := by
  induction s using replacePairs_induct rule with
  | nil => exact le_rfl
  | singleton x => exact le_rfl
  | matched x y r s hr ih =>
    rw [replacePairs_of_some hr, List.count_append, count_pair (s := s)]
    exact Nat.add_le_add (hrule x y r hr).le ih
  | unmatched x y s hr ih =>
    rw [replacePairs_of_none hr, List.count_cons, List.count_cons]
    exact Nat.add_le_add_right ih _

/-- A rule that takes units `c` away has not been used if their number is the same. -/
theorem unmatched_of_count_eq
    (hrule : ∀ x y r, rule x y = some r → r.count c < [x, y].count c)
    (h : (replacePairs rule s).count c = s.count c) : s.IsChain fun x y ↦ rule x y = none := by
  induction s using replacePairs_induct rule with
  | nil => exact .nil
  | singleton x => exact .singleton x
  | matched x y r s hr ih =>
    rw [replacePairs_of_some hr, List.count_append, count_pair (s := s)] at h
    have hlt := hrule x y r hr
    have hle := count_replacePairs_le (s := s) hrule
    omega
  | unmatched x y s hr ih =>
    rw [replacePairs_of_none hr, List.count_cons, List.count_cons] at h
    exact .cons_cons hr (ih (Nat.add_right_cancel h))

end

/-! ### Counting inversions -/

section

variable (R : ℕ → ℕ → Prop) [DecidableRel R]

/-- The pairs of places whose units are related, the first one before the second. -/
def inversions : JsString → ℕ
  | [] => 0
  | x :: s => (s.countP fun y ↦ R x y) + inversions s

/-- The related pairs across two texts. -/
def crossings (a b : JsString) : ℕ := (a.map fun x ↦ b.countP fun y ↦ R x y).sum

variable {R} {rule : ℕ → ℕ → Option JsString} {a a' b b' s : JsString} {x y : ℕ}

theorem inversions_append :
    inversions R (a ++ b) = inversions R a + crossings R a b + inversions R b := by
  induction a with
  | nil => rw [List.nil_append, inversions, crossings, List.map_nil, List.sum_nil]; omega
  | cons x a ih =>
    have hcross : crossings R (x :: a) b = (b.countP fun y ↦ R x y) + crossings R a b := rfl
    rw [List.cons_append, inversions, List.countP_append, ih, inversions, hcross]
    omega

theorem crossings_perm (ha : a.Perm a') (hb : b.Perm b') : crossings R a b = crossings R a' b' := by
  have hmap : (a.map fun x ↦ b.countP fun y ↦ R x y) = a.map fun x ↦ b'.countP fun y ↦ R x y :=
    List.map_congr_left fun x _ ↦ hb.countP_eq _
  rw [crossings, hmap]
  exact (ha.map _).sum_eq

/-- An inversion of neighbours counts for one. -/
theorem inversions_swap : inversions R (x :: y :: s) + (if R y x then 1 else 0) =
    inversions R (y :: x :: s) + if R x y then 1 else 0 := by
  simp only [inversions, List.countP_cons, decide_eq_true_eq]
  omega

/-- Units outside of the relation do not matter. -/
theorem inversions_filter {p : ℕ → Bool} (hR : ∀ x y, R x y → p x ∧ p y) :
    inversions R (s.filter p) = inversions R s := by
  induction s with
  | nil => rfl
  | cons x s ih =>
    by_cases hx : p x
    · rw [List.filter_cons_of_pos hx, inversions, inversions, ih, List.countP_filter]
      congr 1
      refine List.countP_congr fun y _ ↦ ?_
      simp only [Bool.and_eq_true, decide_eq_true_eq]
      exact ⟨fun h ↦ h.1, fun h ↦ ⟨h, (hR x y h).2⟩⟩
    · have hzero : (s.countP fun y ↦ R x y) = 0 :=
        List.countP_eq_zero.2 fun y _ h ↦ hx (hR x y (of_decide_eq_true h)).1
      rw [List.filter_cons_of_neg hx, inversions, hzero, ih, Nat.zero_add]

theorem crossings_filter {p : ℕ → Bool} (hR : ∀ x y, R x y → p x ∧ p y) :
    crossings R (a.filter p) (b.filter p) = crossings R a b := by
  induction a with
  | nil => rfl
  | cons x a ih =>
    have hcross : crossings R (x :: a) b = (b.countP fun y ↦ R x y) + crossings R a b := rfl
    rw [hcross, ← ih]
    by_cases hx : p x
    · have hcount : ((b.filter p).countP fun y ↦ R x y) = b.countP fun y ↦ R x y := by
        rw [List.countP_filter]
        refine List.countP_congr fun y _ ↦ ?_
        simp only [Bool.and_eq_true, decide_eq_true_eq]
        exact ⟨fun h ↦ h.1, fun h ↦ ⟨h, (hR x y h).2⟩⟩
      rw [List.filter_cons_of_pos hx, ← hcount]
      rfl
    · have hzero : (b.countP fun y ↦ R x y) = 0 :=
        List.countP_eq_zero.2 fun y _ h ↦ hx (hR x y (of_decide_eq_true h)).1
      rw [List.filter_cons_of_neg hx, hzero, Nat.zero_add]

/-- A rule that exchanges the units of a pair. -/
structure Exchanges (R : ℕ → ℕ → Prop) (rule : ℕ → ℕ → Option JsString) : Prop where
  swap : ∀ x y r, rule x y = some r → r = [y, x]
  back : ∀ x y r, rule x y = some r → ¬ R y x
  apart : ∀ x y r z, rule x y = some r → rule y z = none

omit [DecidableRel R] in
theorem Exchanges.perm (h : Exchanges R rule) : (replacePairs rule s).Perm s := by
  induction s using replacePairs_induct rule with
  | nil => exact .refl _
  | singleton x => exact .refl _
  | matched x y r s hr ih =>
    rw [replacePairs_of_some hr, h.swap x y r hr]
    exact ((ih.cons x).cons y).trans (.swap x y s)
  | unmatched x y s hr ih =>
    rw [replacePairs_of_none hr]
    exact ih.cons x

/-- A match that counts takes an inversion away. -/
private theorem Exchanges.inversions_matched (h : Exchanges R rule) {r : JsString}
    (hr : rule x y = some r) : inversions R (replacePairs rule (x :: y :: s)) +
      (if R x y then 1 else 0) + inversions R s =
        inversions R (x :: y :: s) + inversions R (replacePairs rule s) := by
  have hperm : (replacePairs rule s).Perm s := h.perm
  have hswap := inversions_swap (R := R) (x := x) (y := y) (s := s)
  rw [if_neg (h.back x y r hr)] at hswap
  have hnew : inversions R (y :: x :: replacePairs rule s) + inversions R s =
      inversions R (y :: x :: s) + inversions R (replacePairs rule s) := by
    simp only [inversions, List.countP_cons, hperm.countP_eq]
    omega
  rw [replacePairs_of_some hr, h.swap x y r hr]
  show inversions R (y :: x :: replacePairs rule s) + _ + _ = _
  omega

private theorem Exchanges.inversions_unmatched (h : Exchanges R rule) (hr : rule x y = none) :
    inversions R (replacePairs rule (x :: y :: s)) + inversions R (y :: s) =
      inversions R (x :: y :: s) + inversions R (replacePairs rule (y :: s)) := by
  have hperm : (replacePairs rule (y :: s)).Perm (y :: s) := h.perm
  have hcons (t : JsString) :
      inversions R (x :: t) = (t.countP fun z ↦ R x z) + inversions R t := rfl
  rw [replacePairs_of_none hr, hcons, hcons, hperm.countP_eq]
  omega

theorem Exchanges.inversions_le (h : Exchanges R rule) :
    inversions R (replacePairs rule s) ≤ inversions R s := by
  induction s using replacePairs_induct rule with
  | nil => exact le_rfl
  | singleton x => exact le_rfl
  | matched x y r s hr ih =>
    have heq := h.inversions_matched (s := s) hr
    omega
  | unmatched x y s hr ih =>
    have heq := h.inversions_unmatched (s := s) hr
    omega

/-- With as many inversions as before, no pair that matches was one. -/
theorem Exchanges.of_inversions_eq (h : Exchanges R rule)
    (heq : inversions R (replacePairs rule s) = inversions R s) :
    s.IsChain fun x y ↦ rule x y ≠ none → ¬ R x y := by
  induction s using replacePairs_induct rule with
  | nil => exact .nil
  | singleton x => exact .singleton x
  | matched x y r s hr ih =>
    have hmatched := h.inversions_matched (s := s) hr
    have hle := h.inversions_le (s := s)
    have hxy : ¬ R x y := fun hxy ↦ by rw [if_pos hxy] at hmatched; omega
    rw [if_neg hxy] at hmatched
    have hs := ih (by omega)
    refine .cons_cons (fun _ ↦ hxy) ?_
    cases s with
    | nil => exact .singleton y
    | cons z s => exact .cons_cons (fun hyz ↦ absurd (h.apart x y r z hr) hyz) hs
  | unmatched x y s hr ih =>
    have hunmatched := h.inversions_unmatched (s := s) hr
    exact .cons_cons (fun hne ↦ absurd hr hne) (ih (by omega))

end

end JsString

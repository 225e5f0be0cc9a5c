import EasyBook.Ecma.Surrogates
import EasyBook.Ecma.Occurrences
import EasyBook.Ecma.Trim

/-!
# Rewriting runs of characters

`replaceRuns` is `replace` with a global pattern of the form `[…]+`. What such a replacement does to
a text is that runs of some kind of character become other runs of that kind (`Rewrites`). It leaves
the surrogates of the text alone if none is of that kind (`Rewrites.wide_eq`), and makes no mark of
a character that is not of that kind (`Rewrites.free`).
-/

namespace JsString

open List (At Free Seam)

variable {P : ℕ → Prop} {p : ℕ → Bool} {f : JsString → JsString} {a s t run : JsString}
  {c n u : ℕ}

/-! ### Rewritten texts -/

/-- Runs of characters with `P` are replaced by such runs. -/
inductive Rewrites (P : ℕ → Prop) : JsString → JsString → Prop
  | nil : Rewrites P [] []
  | keep (u : ℕ) {s t : JsString} (h : Rewrites P s t) : Rewrites P (u :: s) (u :: t)
  | run {r r' s t : JsString} (hr : r ≠ []) (hr' : r' ≠ []) (hP : ∀ u ∈ r, P u)
      (hP' : ∀ u ∈ r', P u) (h : Rewrites P s t) : Rewrites P (r ++ s) (r' ++ t)

/-- The surrogates stay, also after a leading surrogate that may belong to a pair. -/
private theorem Rewrites.wide_aux (hP : ∀ u, P u → Plain u) (h : Rewrites P s t) :
    wide t = wide s ∧ ∀ u, wide (u :: t) = wide (u :: s) := by
  have hcons {u : ℕ} {s t : JsString} (hs : wide t = wide s)
      (hsnone : ∀ v, s.head? = some v → ¬ (High u ∧ Low v))
      (htnone : ∀ v, t.head? = some v → ¬ (High u ∧ Low v)) : wide (u :: t) = wide (u :: s) := by
    rw [wide, wide, codePoints_cons hsnone, codePoints_cons htnone, List.filter_cons,
      List.filter_cons]
    rw [wide, wide] at hs
    rw [hs]
  induction h with
  | nil => exact ⟨rfl, fun u ↦ rfl⟩
  | @keep v s t h ih =>
    refine ⟨ih.2 v, fun u ↦ ?_⟩
    by_cases hpair : High u ∧ Low v
    · rw [wide, wide, codePoints, if_pos hpair, codePoints, if_pos hpair, List.filter_cons,
        List.filter_cons]
      have hwide := ih.1
      rw [wide, wide] at hwide
      rw [hwide]
    · refine hcons (ih.2 v) ?_ ?_ <;> rintro w ⟨⟩ <;> exact hpair
  | @run r r' s t hr hr' hPr hPr' h ih =>
    have hwide : wide (r' ++ t) = wide (r ++ s) := by
      rw [wide_plain_append fun u hu ↦ hP u (hPr' u hu), ih.1,
        wide_plain_append fun u hu ↦ hP u (hPr u hu)]
    have hhead {r s : JsString} (hr : r ≠ []) (hPr : ∀ u ∈ r, P u) {u v : ℕ}
        (hv : (r ++ s).head? = some v) : ¬ (High u ∧ Low v) := by
      rw [List.head?_append_of_ne_nil _ hr] at hv
      exact fun hpair ↦ (hP v (hPr v (List.mem_of_head? hv))).not_low hpair.2
    exact ⟨hwide, fun u ↦ hcons hwide (fun v ↦ hhead hr hPr) fun v ↦ hhead hr' hPr'⟩

/-- Rewriting no surrogate keeps the surrogates. -/
theorem Rewrites.wide_eq (h : Rewrites P s t) (hP : ∀ u, P u → Plain u) : wide t = wide s :=
  (h.wide_aux hP).1

/-- How many of a character a text begins with. -/
private def lead (c : ℕ) (s : JsString) : ℕ := (s.takeWhile (· == c)).length

private theorem lead_of_head (h : s.head? ≠ some c) : lead c s = 0 := by
  cases s with
  | nil => rfl
  | cons u s =>
    rw [lead, List.takeWhile_cons_of_neg (by simpa using h)]
    rfl

private theorem at_zero_iff : At (List.replicate n c) s 0 ↔ n ≤ lead c s := by
  rw [At, List.drop_zero]
  induction s generalizing n with
  | nil => cases n <;> simp [lead, List.replicate_succ]
  | cons u s ih =>
    cases n with
    | zero => simp
    | succ n =>
      rw [List.replicate_succ, List.cons_prefix_cons, ih]
      by_cases hu : u = c
      · simp [lead, hu]
      · have hlead : lead c (u :: s) = 0 := lead_of_head (by simpa using hu)
        simp [Ne.symm hu, hlead]

private theorem free_cons_iff : Free (List.replicate n c) (u :: s) ↔
    lead c (u :: s) < n ∧ Free (List.replicate n c) s := by
  rw [← not_le, ← at_zero_iff]
  constructor
  · exact fun h ↦ ⟨h 0, fun i ↦ h (i + 1)⟩
  · rintro ⟨h0, hs⟩ i
    cases i with
    | zero => exact h0
    | succ i => exact hs i

/-- Rewriting other characters makes no mark. -/
theorem Rewrites.free (h : Rewrites P s t) (hP : ∀ u, P u → u ≠ c)
    (hs : Free (List.replicate (n + 1) c) s) : Free (List.replicate (n + 1) c) t := by
  suffices lead c t = lead c s ∧
      (Free (List.replicate (n + 1) c) s → Free (List.replicate (n + 1) c) t) from this.2 hs
  clear hs
  have hfree {r : JsString} (hPr : ∀ u ∈ r, P u) : Free (List.replicate (n + 1) c) r :=
    List.free_iff.2 fun hsub ↦ hP c (hPr c (hsub.subset (by simp))) rfl
  have hlast {r s : JsString} (hPr : ∀ u ∈ r, P u) : Seam c r s :=
    .of_last fun hc ↦ hP c (hPr c (List.mem_of_getLast? hc)) rfl
  have hhead {r s : JsString} (hr : r ≠ []) (hPr : ∀ u ∈ r, P u) : lead c (r ++ s) = 0 := by
    refine lead_of_head ?_
    rw [List.head?_append_of_ne_nil _ hr]
    exact fun hc ↦ hP c (hPr c (List.mem_of_head? hc)) rfl
  induction h with
  | nil => exact ⟨rfl, id⟩
  | @keep u s t h ih =>
    have hlead : lead c (u :: t) = lead c (u :: s) := by
      by_cases hu : u = c
      · have := ih.1
        simp only [lead] at this ⊢
        rw [List.takeWhile_cons_of_pos (by simpa using hu),
          List.takeWhile_cons_of_pos (by simpa using hu), List.length_cons, List.length_cons, this]
      · rw [lead_of_head (by simpa using hu), lead_of_head (by simpa using hu)]
    refine ⟨hlead, fun hs ↦ ?_⟩
    rw [free_cons_iff] at hs ⊢
    exact ⟨hlead ▸ hs.1, ih.2 hs.2⟩
  | @run r r' s t hr hr' hPr hPr' h ih =>
    refine ⟨(hhead hr' hPr').trans (hhead hr hPr).symm, fun hs ↦ ?_⟩
    rw [List.free_append (hlast hPr)] at hs
    rw [List.free_append (hlast hPr')]
    exact ⟨hfree hPr', ih.2 hs.2⟩

/-! ### Replacing runs -/

/-- `replace` with a global pattern of the form `[…]+`: `f` of each longest run of characters with
`p`. The run that has been read is kept aside. -/
def replaceRuns (p : ℕ → Bool) (f : JsString → JsString) (run : JsString) : JsString → JsString
  | [] => if run = [] then [] else f run
  | u :: s =>
    if p u then replaceRuns p f (run ++ [u]) s
    else (if run = [] then [] else f run) ++ u :: replaceRuns p f [] s

theorem rewrites_replaceRuns (hf : ∀ r, r ≠ [] → (∀ u ∈ r, p u) →
      f r ≠ [] ∧ (∀ u ∈ r, P u) ∧ ∀ u ∈ f r, P u)
    (run : JsString) (hrun : ∀ u ∈ run, p u) (s : JsString) :
    Rewrites P (run ++ s) (replaceRuns p f run s) := by
  have hflush {run s t : JsString} (hrun : ∀ u ∈ run, p u) (h : Rewrites P s t) :
      Rewrites P (run ++ s) ((if run = [] then [] else f run) ++ t) := by
    split_ifs with hnil
    · rwa [hnil]
    · obtain ⟨hne, hP, hP'⟩ := hf run hnil hrun
      exact .run hnil hne hP hP' h
  induction s generalizing run with
  | nil => simpa [replaceRuns] using hflush hrun .nil
  | cons u s ih =>
    rw [replaceRuns]
    split_ifs with hu hnil
    · have hrun' : ∀ v ∈ run ++ [u], p v := by
        simpa [or_imp, forall_and, hu] using hrun
      simpa using ih _ hrun'
    · rw [hnil]
      exact .keep u (ih [] fun _ h ↦ nomatch h)
    · have h := hflush hrun (.keep u (ih [] fun _ h ↦ nomatch h))
      rwa [if_neg hnil] at h

/-- What is written is from no run or from what a run became. -/
theorem mem_replaceRuns (h : u ∈ replaceRuns p f run s) (hrun : ∀ u ∈ run, p u) :
    u ∈ s ∧ ¬ p u ∨ ∃ r, r ≠ [] ∧ (∀ v ∈ r, p v) ∧ u ∈ f r := by
  have hflush {run : JsString} (hrun : ∀ u ∈ run, p u) (h : u ∈ if run = [] then [] else f run) :
      ∃ r, r ≠ [] ∧ (∀ v ∈ r, p v) ∧ u ∈ f r := by
    split_ifs at h with hnil
    · cases h
    · exact ⟨run, hnil, hrun, h⟩
  induction s generalizing run with
  | nil => exact .inr (hflush hrun h)
  | cons v s ih =>
    rw [replaceRuns] at h
    by_cases hv : p v
    · rw [if_pos hv] at h
      have hrun' : ∀ w ∈ run ++ [v], p w := by simpa [or_imp, forall_and, hv] using hrun
      exact (ih h hrun').imp_left fun hs ↦ ⟨List.mem_cons_of_mem _ hs.1, hs.2⟩
    · rw [if_neg hv, List.mem_append, List.mem_cons] at h
      rcases h with h | rfl | h
      · exact .inr (hflush hrun h)
      · exact .inl ⟨List.mem_cons_self .., hv⟩
      · exact (ih h fun _ h ↦ nomatch h).imp_left fun hs ↦ ⟨List.mem_cons_of_mem _ hs.1, hs.2⟩

/-- A character that belongs to no run stays. -/
theorem mem_replaceRuns_of_not (hu : u ∈ s) (hp : ¬ p u) : u ∈ replaceRuns p f run s := by
  induction s generalizing run with
  | nil => cases hu
  | cons v s ih =>
    rw [replaceRuns]
    rcases List.mem_cons.mp hu with rfl | hu
    · rw [if_neg hp]
      exact List.mem_append_right _ (List.mem_cons_self ..)
    · split_ifs
      · exact ih hu
      · exact List.mem_cons_of_mem _ (ih hu)
      · exact List.mem_append_right _ (List.mem_cons_of_mem _ (ih hu))

/-- If what a run of the character becomes has no mark of it, then the text has none. -/
theorem free_replaceRuns (hf : ∀ r, (∀ u ∈ r, u = c) → Free (List.replicate (n + 1) c) (f r))
    (run : JsString) (hrun : ∀ u ∈ run, u = c) (s : JsString) :
    Free (List.replicate (n + 1) c) (replaceRuns (· == c) f run s) := by
  have hflush {run : JsString} (hrun : ∀ u ∈ run, u = c) :
      Free (List.replicate (n + 1) c) (if run = [] then [] else f run) := by
    split_ifs
    · exact List.free_nil (by simp)
    · exact hf run hrun
  induction s generalizing run with
  | nil => exact hflush hrun
  | cons u s ih =>
    rw [replaceRuns]
    by_cases hu : u = c
    · rw [if_pos (by simpa using hu)]
      exact ih _ (by simpa [or_imp, forall_and, hu] using hrun)
    · rw [if_neg (by simpa using hu), List.free_append (.of_head (by simpa using hu)),
        List.free_cons hu]
      exact ⟨hflush hrun, ih [] fun _ h ↦ nomatch h⟩

/-! ### Trimming -/

theorem trim_isInfix : trim s <:+: s := by
  obtain ⟨a, b, hs, -, -⟩ := exists_trim s
  exact ⟨a, b, hs.symm⟩

/-- White space is no surrogate. -/
theorem wide_trim : wide (trim s) = wide s := by
  obtain ⟨a, b, hs, ha, hb⟩ := exists_trim s
  conv_rhs => rw [hs]
  rw [wide_append_plain fun u hu ↦ plain_of_isWhiteSpace (hb u hu),
    wide_plain_append fun u hu ↦ plain_of_isWhiteSpace (ha u hu)]

end JsString

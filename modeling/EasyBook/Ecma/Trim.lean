import EasyBook.Ecma.Text

/-!
# Trimming

`trim` takes white space away at either end and nothing else (`exists_trim`), and what is left has
none there (`trim_trim`).
-/

namespace JsString

variable {s : JsString}

theorem exists_trim (s : JsString) : ∃ a b, s = a ++ trim s ++ b ∧
    (∀ u ∈ a, isWhiteSpace u) ∧ ∀ u ∈ b, isWhiteSpace u := by
  refine ⟨s.takeWhile isWhiteSpace,
    ((s.dropWhile isWhiteSpace).reverse.takeWhile isWhiteSpace).reverse, ?_, ?_, ?_⟩
  · rw [List.append_assoc, trim, ← List.reverse_append, List.takeWhile_append_dropWhile,
      List.reverse_reverse, List.takeWhile_append_dropWhile]
  · exact fun u hu ↦ List.mem_takeWhile_imp hu
  · exact fun u hu ↦ List.mem_takeWhile_imp (List.mem_reverse.1 hu)

theorem length_trim_le : (trim s).length ≤ s.length := by
  obtain ⟨a, b, hs, -, -⟩ := exists_trim s
  conv_rhs => rw [hs]
  simp only [List.length_append]
  omega

theorem mem_of_mem_trim {u : ℕ} (hu : u ∈ trim s) : u ∈ s := by
  obtain ⟨a, b, hs, -, -⟩ := exists_trim s
  rw [hs]
  exact List.mem_append_left _ (List.mem_append_right _ hu)

theorem not_isWhiteSpace_of_head? {u : ℕ} (h : (s.dropWhile isWhiteSpace).head? = some u) :
    ¬ isWhiteSpace u := by
  have hhead := List.head?_dropWhile_not isWhiteSpace s
  rw [h] at hhead
  exact fun hu ↦ Bool.false_ne_true (hhead.symm.trans hu)

/-- A text with no white space at its ends stays as it is. -/
theorem trim_eq_self (hfirst : ∀ u, s.head? = some u → ¬ isWhiteSpace u)
    (hlast : ∀ u, s.getLast? = some u → ¬ isWhiteSpace u) : trim s = s := by
  have hdrop {t : JsString} (h : ∀ u, t.head? = some u → ¬ isWhiteSpace u) :
      t.dropWhile isWhiteSpace = t := by
    cases t with
    | nil => rfl
    | cons u t => exact List.dropWhile_cons_of_neg (h u rfl)
  rw [trim, hdrop hfirst, hdrop fun u hu ↦ hlast u (by rw [← List.head?_reverse, hu]),
    List.reverse_reverse]

theorem not_isWhiteSpace_of_head?_trim {u : ℕ} (h : (trim s).head? = some u) :
    ¬ isWhiteSpace u := by
  obtain ⟨t, ht⟩ := List.head?_eq_some_iff.1 h
  have hprefix : (s.dropWhile isWhiteSpace).head? = some u := by
    have hsplit : s.dropWhile isWhiteSpace = trim s ++
        ((s.dropWhile isWhiteSpace).reverse.takeWhile isWhiteSpace).reverse := by
      rw [trim, ← List.reverse_append, List.takeWhile_append_dropWhile, List.reverse_reverse]
    rw [hsplit, ht]
    rfl
  exact not_isWhiteSpace_of_head? hprefix

theorem not_isWhiteSpace_of_getLast?_trim {u : ℕ} (h : (trim s).getLast? = some u) :
    ¬ isWhiteSpace u := by
  rw [trim, List.getLast?_reverse] at h
  exact not_isWhiteSpace_of_head? h

theorem trim_trim : trim (trim s) = trim s :=
  trim_eq_self (fun _ ↦ not_isWhiteSpace_of_head?_trim) fun _ ↦ not_isWhiteSpace_of_getLast?_trim

end JsString

import Mathlib

/-!
# Logs that forget

A log has its newest entry first. `Sheds old l r` says that `r` is `l` without some of its oldest
entries, each of which is `old`. Whatever is done to both leaves them so, and who looks only at the
entries that are not old cannot tell them apart (`Sheds.filter_eq`).
-/

namespace Retention

variable {α : Type*} {old old' : α → Prop} {l r t : List α} {a : α} {n : ℕ} {p : α → Bool}

/-- `r` is `l` without some of its oldest entries, which are `old`. -/
def Sheds (old : α → Prop) (l r : List α) : Prop := ∃ d, l = r ++ d ∧ ∀ a ∈ d, old a

/-- A list that loses nothing. -/
theorem Sheds.refl : Sheds old l l := ⟨[], (List.append_nil l).symm, fun _ h ↦ nomatch h⟩

/-- What is dropped for one reason is dropped for a weaker one. -/
theorem Sheds.imp (h : Sheds old l r) (himp : ∀ a, old a → old' a) : Sheds old' l r := by
  obtain ⟨d, hl, hold⟩ := h
  exact ⟨d, hl, fun a ha ↦ himp a (hold a ha)⟩

/-- Two drops after each other are one. -/
theorem Sheds.trans (h : Sheds old l r) (h' : Sheds old r t) : Sheds old l t := by
  obtain ⟨d, rfl, hold⟩ := h
  obtain ⟨d', rfl, hold'⟩ := h'
  exact ⟨d' ++ d, List.append_assoc .., fun a ha ↦ (List.mem_append.mp ha).elim (hold' a) (hold a)⟩

/-- A new entry at the head does not touch what is dropped at the end. -/
theorem Sheds.cons (h : Sheds old l r) (a : α) : Sheds old (a :: l) (a :: r) := by
  obtain ⟨d, rfl, hold⟩ := h
  exact ⟨d, rfl, hold⟩

/-- Cutting both lists to one length keeps them in step. -/
theorem Sheds.take (h : Sheds old l r) (n : ℕ) : Sheds old (l.take n) (r.take n) := by
  obtain ⟨d, rfl, hold⟩ := h
  exact ⟨d.take (n - r.length), List.take_append, fun a ha ↦ hold a (List.mem_of_mem_take ha)⟩

/-- Filtering both lists by one condition keeps them in step. -/
theorem Sheds.filter (h : Sheds old l r) (p : α → Bool) : Sheds old (l.filter p) (r.filter p) := by
  obtain ⟨d, rfl, hold⟩ := h
  exact ⟨d.filter p, List.filter_append .., fun a ha ↦ hold a (List.mem_of_mem_filter ha)⟩

/-- Old entries that are not looked at may be missing. -/
theorem Sheds.filter_eq (h : Sheds old l r) (hp : ∀ a, old a → ¬ p a) :
    r.filter p = l.filter p := by
  obtain ⟨d, rfl, hold⟩ := h
  rw [List.filter_append, List.filter_eq_nil_iff.mpr fun a ha ↦ hp a (hold a ha), List.append_nil]

/-- What is kept is a start of the list. -/
theorem Sheds.isPrefix (h : Sheds old l r) : r <+: l := by
  obtain ⟨d, rfl, -⟩ := h
  exact List.prefix_append r d

end Retention

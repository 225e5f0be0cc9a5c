import Mathlib

/-!
# Slices of an array

The loop `for (let i = 0; i < xs.length; i += n)` over `xs.slice(i, i + n)`.
-/

namespace EasyBook

variable {α : Type*} {n : ℕ} {xs : List α}

/-- The slices of `xs` of length `n`, the last one as long as what is left. -/
def slices (n : ℕ) (xs : List α) : List (List α) :=
  (List.range ((xs.length + n - 1) / n)).map fun i ↦ (xs.drop (i * n)).take n

theorem flatten_map_range_slices (k : ℕ) :
    ((List.range k).map fun i ↦ (xs.drop (i * n)).take n).flatten = xs.take (k * n) := by
  induction k with
  | zero => simp
  | succ k ih => simp [List.range_succ, ih, Nat.succ_mul, List.take_add]

/-- Together the slices are the array. -/
theorem flatten_slices (h : 0 < n) : (slices n xs).flatten = xs := by
  rw [slices, flatten_map_range_slices]
  refine List.take_of_length_le ?_
  have hdiv := Nat.div_add_mod (xs.length + n - 1) n
  have hmod := Nat.mod_lt (xs.length + n - 1) h
  rw [Nat.mul_comm]
  omega

theorem length_le_of_mem_slices {ys : List α} (h : ys ∈ slices n xs) : ys.length ≤ n := by
  obtain ⟨i, -, rfl⟩ := List.mem_map.1 h
  exact List.length_take_le ..

theorem ne_nil_of_mem_slices {ys : List α} (hn : 0 < n) (h : ys ∈ slices n xs) : ys ≠ [] := by
  obtain ⟨i, hi, rfl⟩ := List.mem_map.1 h
  have hlt : i * n < xs.length := by
    have hle := Nat.mul_le_of_le_div n _ _ (Nat.succ_le_of_lt (List.mem_range.1 hi))
    rw [Nat.succ_mul] at hle
    omega
  exact List.ne_nil_of_length_pos (by simp; omega)

theorem subset_of_mem_slices {ys : List α} (h : ys ∈ slices n xs) : ys ⊆ xs := by
  obtain ⟨i, -, rfl⟩ := List.mem_map.1 h
  exact fun y hy ↦ List.mem_of_mem_drop (List.mem_of_mem_take hy)

end EasyBook

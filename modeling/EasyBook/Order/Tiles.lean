import Mathlib

/-!
# Lists of intervals that tile an interval

A list of closed intervals of integers tiles `[a, b]` if each of them is non-empty, the first begins
at `a`, each of the others begins right after the one before, and the last ends at `b`. What is
summed over the points of `[a, b]` may then be summed tile by tile (`Tiles.sum_Icc`).

`pieces` are the tiles that a loop cuts out of `[a, b]` if it goes from one boundary to the next.
-/

/-- The intervals tile `[a, b]`. -/
def Tiles (b : ℤ) : ℤ → List (ℤ × ℤ) → Prop
  | a, [] => a = b + 1
  | a, p :: l => p.1 = a ∧ a ≤ p.2 ∧ Tiles b (p.2 + 1) l

namespace Tiles

variable {a b : ℤ} {l : List (ℤ × ℤ)}

theorem le (h : Tiles b a l) : a ≤ b + 1 := by
  induction l generalizing a with
  | nil => exact le_of_eq h
  | cons p l ih =>
    have := ih h.2.2
    have := h.2.1
    omega

/-- Every tile is an interval of `[a, b]`. -/
theorem bounds (h : Tiles b a l) {p : ℤ × ℤ} (hp : p ∈ l) : a ≤ p.1 ∧ p.1 ≤ p.2 ∧ p.2 ≤ b := by
  induction l generalizing a with
  | nil => cases hp
  | cons q l ih =>
    obtain ⟨rfl, hle, ht⟩ := h
    rcases List.mem_cons.1 hp with rfl | hp
    · have := ht.le
      omega
    · have := ih ht hp
      omega

/-- **Additivity.** -/
theorem sum_Icc {M : Type*} [AddCommMonoid M] (f : ℤ → M) (h : Tiles b a l) :
    (l.map fun p ↦ ∑ d ∈ Finset.Icc p.1 p.2, f d).sum = ∑ d ∈ Finset.Icc a b, f d := by
  induction l generalizing a with
  | nil =>
    obtain rfl := h
    simp
  | cons p l ih =>
    obtain ⟨rfl, hle, ht⟩ := h
    have hlast := ht.le
    have hsplit : Finset.Icc p.1 b = Finset.Icc p.1 p.2 ∪ Finset.Icc (p.2 + 1) b := by
      ext d
      simp only [Finset.mem_union, Finset.mem_Icc]
      omega
    have hdisjoint : Disjoint (Finset.Icc p.1 p.2) (Finset.Icc (p.2 + 1) b) :=
      Finset.disjoint_left.2 fun d hd hd' ↦ by
        simp only [Finset.mem_Icc] at hd hd'
        omega
    rw [List.map_cons, List.sum_cons, ih ht, hsplit, Finset.sum_union hdisjoint]

end Tiles

/-- What a loop cuts out of `[a, b]` that begins at the boundary `s`, goes on to the next one after
each round, and stops when it has come to `b`. -/
def pieces (next : ℤ → ℤ) (a b : ℤ) : ℕ → ℤ → List (ℤ × ℤ)
  | 0, _ => []
  | fuel + 1, s =>
    (max s a, min (next s - 1) b) :: if b ≤ next s - 1 then [] else pieces next a b fuel (next s)

/-- With enough rounds they tile it. -/
theorem tiles_pieces {next : ℤ → ℤ} (hnext : ∀ s, s < next s) {a b : ℤ} (hab : a ≤ b) {fuel : ℕ}
    {s : ℤ} (hs : s ≤ b) (ha : a < next s) (hfuel : b - s < fuel) :
    Tiles b (max s a) (pieces next a b fuel s) := by
  induction fuel generalizing s with
  | zero => omega
  | succ fuel ih =>
    have hlt := hnext s
    unfold pieces
    split
    · next hlast => exact ⟨rfl, by dsimp only; omega, show _ + 1 = b + 1 by dsimp only; omega⟩
    · next hgo =>
      have hrest := ih (s := next s) (by omega) (by have := hnext (next s); omega)
        (by push_cast at hfuel; omega)
      refine ⟨rfl, by dsimp only; omega, ?_⟩
      rwa [show (min (next s - 1) b) + 1 = max (next s) a by omega]

import Mathlib

/-!
# Rounded arithmetic

An operation on numbers gives the double closest to the exact result, and of two equally close the
one whose significand is even. Results are of normal size here: neither so large that they become
infinite nor so small that they lose digits.

`Rounded n q r` says that `r` comes from `q` by at most `n` roundings in a row, each of which is
relatively small. A sum that is rounded at every step is one of these (`rounded_sum`).
-/

namespace JsNumber

/-- The closest integer, and of two the even one. -/
def roundEven (q : ℚ) : ℤ :=
  if q - ⌊q⌋ < 1 / 2 then ⌊q⌋
  else if 1 / 2 < q - ⌊q⌋ then ⌊q⌋ + 1
  else if ⌊q⌋ % 2 = 0 then ⌊q⌋
  else ⌊q⌋ + 1

/-- The double of an exact result: 53 binary digits of it. -/
def number (q : ℚ) : ℚ :=
  let ulp : ℚ := 2 ^ (Int.log 2 |q| - 52)
  roundEven (q / ulp) * ulp

/-- `Math.round`. -/
def mathRound (q : ℚ) : ℤ := ⌊q + 1 / 2⌋

/-- `Math.ceil`. -/
def mathCeil (q : ℚ) : ℤ := ⌈q⌉

example : mathRound (number (number (29 / 200) * 100)) = 14 := by decide +kernel

/-! ### One rounding -/

/-- Rounding moves a number by half a unit at most. -/
theorem abs_roundEven_sub_le (q : ℚ) : |(roundEven q : ℚ) - q| ≤ 1 / 2 := by
  have hlo := Int.floor_le q
  have hhi := Int.lt_floor_add_one q
  unfold roundEven
  split_ifs <;> push_cast <;> rw [abs_le] <;> constructor <;> linarith

/-- Rounding does not pass an integer. -/
theorem roundEven_le {q : ℚ} {n : ℤ} (h : q ≤ n) : roundEven q ≤ n := by
  have hfloor : (⌊q⌋ : ℚ) ≤ q := Int.floor_le q
  unfold roundEven
  by_cases hlt : q < n
  · have hle : ⌊q⌋ + 1 ≤ n := Int.floor_lt.2 hlt
    split_ifs <;> omega
  · have heq : q = n := le_antisymm h (not_lt.1 hlt)
    have hfl : ⌊q⌋ = n := by rw [heq, Int.floor_intCast]
    rw [if_pos (by rw [hfl, heq, sub_self]; norm_num), hfl]

/-- Rounding keeps the sign. -/
theorem roundEven_nonneg {q : ℚ} (h : 0 ≤ q) : 0 ≤ roundEven q := by
  have hfloor : 0 ≤ ⌊q⌋ := Int.floor_nonneg.2 h
  unfold roundEven
  split_ifs <;> omega

/-- So does rounding to a double. -/
theorem number_nonneg {q : ℚ} (h : 0 ≤ q) : 0 ≤ number q := by
  unfold number
  have hulp : (0 : ℚ) < 2 ^ (Int.log 2 |q| - 52) := by positivity
  exact mul_nonneg (Int.cast_nonneg (roundEven_nonneg (div_nonneg h hulp.le))) hulp.le

/-- Zero is a double. -/
@[simp] theorem number_zero : number 0 = 0 := by
  unfold number roundEven
  simp

/-- The relative error of one rounding. -/
def unitRoundoff : ℚ := 2 ^ (-53 : ℤ)

/-- The relative error of rounding to a double is at most the unit roundoff. -/
theorem abs_number_sub_le (q : ℚ) : |number q - q| ≤ unitRoundoff * |q| := by
  by_cases hq : q = 0
  · rw [hq, number_zero, sub_self, abs_zero, mul_zero]
  have hulp : (0 : ℚ) < 2 ^ (Int.log 2 |q| - 52) := by positivity
  have hlog : (2 : ℚ) ^ Int.log 2 |q| ≤ |q| := Int.zpow_log_le_self (by norm_num) (abs_pos.2 hq)
  have hhalf : (2 : ℚ) ^ (Int.log 2 |q| - 52) * (1 / 2) = unitRoundoff * 2 ^ Int.log 2 |q| := by
    rw [unitRoundoff, ← zpow_add₀ (by norm_num), one_div, ← zpow_neg_one,
      ← zpow_add₀ (by norm_num)]
    congr 1
    omega
  have hsub : number q - q = ((roundEven (q / 2 ^ (Int.log 2 |q| - 52)) : ℚ) -
      q / 2 ^ (Int.log 2 |q| - 52)) * 2 ^ (Int.log 2 |q| - 52) := by
    rw [sub_mul, div_mul_cancel₀ _ hulp.ne']
    rfl
  calc |number q - q|
      = |(roundEven (q / 2 ^ (Int.log 2 |q| - 52)) : ℚ) - q / 2 ^ (Int.log 2 |q| - 52)| *
          2 ^ (Int.log 2 |q| - 52) := by rw [hsub, abs_mul, abs_of_pos hulp]
    _ ≤ 1 / 2 * 2 ^ (Int.log 2 |q| - 52) :=
        mul_le_mul_of_nonneg_right (abs_roundEven_sub_le _) hulp.le
    _ = unitRoundoff * 2 ^ Int.log 2 |q| := by rw [mul_comm, hhalf]
    _ ≤ unitRoundoff * |q| := mul_le_mul_of_nonneg_left hlog (by unfold unitRoundoff; positivity)

/-- Rounding does not pass an integer of 53 digits. -/
theorem number_le_natCast {q : ℚ} {n : ℕ} (h₀ : 0 ≤ q) (h : q ≤ n) (hn : n < 2 ^ 53) :
    number q ≤ n := by
  by_cases hq : q = 0
  · rw [hq, number_zero]
    exact Nat.cast_nonneg n
  have hpos : 0 < q := lt_of_le_of_ne h₀ (Ne.symm hq)
  -- the exponent is at most that of the integer, so the integer is a multiple of the last digit
  have hlog : Int.log 2 |q| ≤ 52 := by
    rw [abs_of_pos hpos]
    by_contra hgt
    have hself : (2 : ℚ) ^ Int.log 2 q ≤ q := Int.zpow_log_le_self (by norm_num) hpos
    have hle : (2 : ℚ) ^ (53 : ℤ) ≤ q :=
      (zpow_le_zpow_right₀ (by norm_num) (by omega)).trans hself
    have hlt : (n : ℚ) < 2 ^ 53 := by exact_mod_cast hn
    rw [show (2 : ℚ) ^ (53 : ℤ) = 2 ^ 53 by norm_num] at hle
    linarith
  obtain ⟨k, hk⟩ : ∃ k : ℕ, Int.log 2 |q| - 52 = -(k : ℤ) := ⟨(52 - Int.log 2 |q|).toNat, by omega⟩
  have hulp : (0 : ℚ) < 2 ^ (-(k : ℤ)) := by positivity
  have hround : roundEven (q / 2 ^ (-(k : ℤ))) ≤ (n * 2 ^ k : ℤ) := by
    refine roundEven_le ?_
    rw [div_le_iff₀ hulp]
    push_cast
    rw [mul_assoc, ← zpow_natCast, ← zpow_add₀ (by norm_num), add_neg_cancel, zpow_zero, mul_one]
    exact h
  calc number q
      = (roundEven (q / 2 ^ (-(k : ℤ))) : ℚ) * 2 ^ (-(k : ℤ)) := by
        unfold number
        rw [hk]
    _ ≤ ((n * 2 ^ k : ℤ) : ℚ) * 2 ^ (-(k : ℤ)) :=
        mul_le_mul_of_nonneg_right (by exact_mod_cast hround) hulp.le
    _ = n := by
        push_cast
        rw [mul_assoc, ← zpow_natCast, ← zpow_add₀ (by norm_num), add_neg_cancel, zpow_zero,
          mul_one]

/-! ### Roundings in a row -/

/-- At most `n` roundings in a row lead from `q` to `r`. -/
def Rounded (n : ℕ) (q r : ℚ) : Prop :=
  q * (1 - unitRoundoff) ^ n ≤ r ∧ r ≤ q * (1 + unitRoundoff) ^ n

/-- The unit roundoff is positive. -/
theorem unitRoundoff_pos : 0 < unitRoundoff := by
  unfold unitRoundoff
  positivity

/-- It is smaller than one. -/
theorem unitRoundoff_lt_one : unitRoundoff < 1 := by
  unfold unitRoundoff
  norm_num

/-- A number that has not been rounded. -/
theorem Rounded.refl (q : ℚ) : Rounded 0 q q := by simp [Rounded]

/-- Rounding keeps the sign, however often. -/
theorem Rounded.nonneg {n : ℕ} {q r : ℚ} (h : Rounded n q r) (hq : 0 ≤ q) : 0 ≤ r :=
  (mul_nonneg hq (pow_nonneg (sub_nonneg.2 unitRoundoff_lt_one.le) n)).trans h.1

/-- Nothing is rounded to nothing. -/
theorem Rounded.eq_zero {n : ℕ} {r : ℚ} (h : Rounded n 0 r) : r = 0 := by
  obtain ⟨hlo, hhi⟩ := h
  rw [zero_mul] at hlo hhi
  exact le_antisymm hhi hlo

/-- One more. -/
theorem Rounded.number {n : ℕ} {q r : ℚ} (h : Rounded n q r) (hq : 0 ≤ q) :
    Rounded (n + 1) q (number r) := by
  have hr := h.nonneg hq
  have hu := unitRoundoff_pos
  have herr := abs_le.1 (abs_number_sub_le r)
  rw [abs_of_nonneg hr] at herr
  constructor
  · calc q * (1 - unitRoundoff) ^ (n + 1)
        = q * (1 - unitRoundoff) ^ n * (1 - unitRoundoff) := by ring
      _ ≤ r * (1 - unitRoundoff) :=
          mul_le_mul_of_nonneg_right h.1 (sub_nonneg.2 unitRoundoff_lt_one.le)
      _ ≤ JsNumber.number r := by linarith [herr.1]
  · calc JsNumber.number r
        ≤ r * (1 + unitRoundoff) := by linarith [herr.2]
      _ ≤ q * (1 + unitRoundoff) ^ n * (1 + unitRoundoff) :=
          mul_le_mul_of_nonneg_right h.2 (by linarith)
      _ = q * (1 + unitRoundoff) ^ (n + 1) := by ring

/-- What is within fewer roundings is within more. -/
theorem Rounded.mono {m n : ℕ} {q r : ℚ} (h : Rounded m q r) (hq : 0 ≤ q) (hmn : m ≤ n) :
    Rounded n q r := by
  have hu := unitRoundoff_pos
  refine ⟨le_trans ?_ h.1, h.2.trans ?_⟩
  · exact mul_le_mul_of_nonneg_left (pow_le_pow_of_le_one
      (sub_nonneg.2 unitRoundoff_lt_one.le) (by linarith) hmn) hq
  · exact mul_le_mul_of_nonneg_left (pow_le_pow_right₀ (by linarith) hmn) hq

/-- The error of a sum of two numbers within `n` roundings each. -/
theorem Rounded.add {n : ℕ} {q q' r r' : ℚ} (h : Rounded n q r) (h' : Rounded n q' r') :
    Rounded n (q + q') (r + r') :=
  ⟨by rw [add_mul]; exact add_le_add h.1 h'.1, by rw [add_mul]; exact add_le_add h.2 h'.2⟩

/-- A sum that is rounded at every step, of numbers that are rounded themselves. -/
theorem rounded_sum {α : Type} {f g : α → ℚ} {l : List α} (hg : ∀ a ∈ l, 0 ≤ g a)
    (hf : ∀ a ∈ l, Rounded 1 (g a) (f a)) :
    Rounded (l.length + 1) (l.map g).sum (l.foldl (fun sum a ↦ number (sum + f a)) 0) := by
  induction l using List.reverseRecOn with
  | nil => exact (Rounded.refl 0).mono le_rfl (Nat.zero_le _)
  | append_singleton l a ih =>
    have hga : 0 ≤ g a := hg a (by simp)
    have hsum : 0 ≤ (l.map g).sum := List.sum_nonneg fun x hx ↦ by
      obtain ⟨b, hb, rfl⟩ := List.mem_map.1 hx
      exact hg b (List.mem_append_left _ hb)
    have hl := ih (fun b hb ↦ hg b (List.mem_append_left _ hb))
      fun b hb ↦ hf b (List.mem_append_left _ hb)
    have ha := (hf a (by simp)).mono hga (show 1 ≤ l.length + 1 by omega)
    rw [List.foldl_append, List.foldl_cons, List.foldl_nil, List.map_append, List.sum_append,
      List.map_singleton, List.sum_singleton, List.length_append, List.length_singleton]
    exact (hl.add ha).number (add_nonneg hsum hga)

end JsNumber

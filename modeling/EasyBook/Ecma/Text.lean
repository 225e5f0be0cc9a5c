import Mathlib

/-!
# ECMAScript strings

A string is the list of its UTF-16 code units, as the language specification has it: its length
counts units, and two strings are compared unit by unit. Numbers are written by `Number.prototype
.toString` with a radix (`radix`, `decimal`) and filled up by `padStart`.

The lemmas say that writing a number loses nothing (`radix_injective`), which units a written
number consists of, and how a separator splits a composed string back into its parts
(`append_cons_inj`).
-/

/-- A string as its UTF-16 code units. -/
abbrev JsString : Type := List ℕ

namespace JsString

instance instLawfulBEq : LawfulBEq JsString := inferInstance

/-! ### Literals -/

/-- The UTF-16 code units of a Unicode scalar value. -/
def units (c : Char) : JsString :=
  let n := c.toNat
  if n < 0x10000 then [n] else [0xD800 + (n - 0x10000) / 0x400, 0xDC00 + (n - 0x10000) % 0x400]

/-- A string literal of the source. -/
def lit (s : String) : JsString := s.toList.flatMap units

/-! ### Numbers -/

/-- The code unit of a digit: `0`–`9`, then `a`–`z`. -/
def digit (d : ℕ) : ℕ := if d < 10 then 48 + d else 87 + d

/-- The digits of `n`, the most significant first, by at most `fuel` divisions. -/
def radixAux (b : ℕ) : ℕ → ℕ → JsString
  | 0, _ => []
  | fuel + 1, n => if n < b then [digit n] else radixAux b fuel (n / b) ++ [digit (n % b)]

/-- `n.toString(b)` for a natural number. -/
def radix (b n : ℕ) : JsString := radixAux b (n + 1) n

/-- `String(n)` for an integer. -/
def decimal : ℤ → JsString
  | .ofNat n => radix 10 n
  | .negSucc n => 45 :: radix 10 (n + 1)

/-- `s.padStart(width, filler)` for a filler of one unit. -/
def padStart (width : ℕ) (filler : ℕ) (s : JsString) : JsString :=
  List.replicate (width - s.length) filler ++ s

/-- The value of a string of digits. -/
def value (b : ℕ) (s : JsString) : ℕ :=
  s.foldl (fun n u ↦ n * b + if u < 58 then u - 48 else u - 87) 0

/-! ### Trimming and parsing -/

/-- White space and line terminators. -/
def isWhiteSpace (u : ℕ) : Bool :=
  (9 ≤ u && u ≤ 13) || u == 32 || u == 0xA0 || u == 0x1680 || (0x2000 ≤ u && u ≤ 0x200A) ||
    u == 0x2028 || u == 0x2029 || u == 0x202F || u == 0x205F || u == 0x3000 || u == 0xFEFF

/-- `s.trim()`. -/
def trim (s : JsString) : JsString :=
  ((s.dropWhile isWhiteSpace).reverse.dropWhile isWhiteSpace).reverse

/-- `s.replace(/^#/, '')`. -/
def stripHash : JsString → JsString
  | 35 :: s => s
  | s => s

/-- `Number.parseInt(s, 10)`: an optional sign and the longest run of digits after leading white
space; `none` is `NaN`. -/
def parseInt (s : JsString) : Option ℤ :=
  let s := s.dropWhile isWhiteSpace
  let (negative, s) := match s with
    | 45 :: s => (true, s)
    | 43 :: s => (false, s)
    | s => (false, s)
  let digits := s.takeWhile fun u ↦ decide (48 ≤ u) && decide (u ≤ 57)
  if digits = [] then none
  else some (if negative then -(value 10 digits : ℤ) else value 10 digits)

/-! ### Writing and reading numbers -/

theorem radixAux_eq {b fuel fuel' n : ℕ} (hb : 1 < b) (h : n < fuel) (h' : n < fuel') :
    radixAux b fuel n = radixAux b fuel' n := by
  induction fuel generalizing fuel' n with
  | zero => omega
  | succ fuel ih =>
    cases fuel' with
    | zero => omega
    | succ fuel' =>
      unfold radixAux
      split
      · rfl
      · next hn =>
        have hdiv : n / b < n := Nat.div_lt_self (by omega) hb
        rw [ih (by omega) (show n / b < fuel' by omega)]

/-- The last digit, and the rest. -/
theorem radix_eq {b : ℕ} (hb : 1 < b) (n : ℕ) :
    radix b n = if n < b then [digit n] else radix b (n / b) ++ [digit (n % b)] := by
  conv_lhs => rw [radix, radixAux]
  split
  · rfl
  · next hn =>
    have hdiv : n / b < n := Nat.div_lt_self (by omega) hb
    rw [radix, radixAux_eq hb hdiv (show n / b < n / b + 1 by omega)]

theorem value_append_digit {b d : ℕ} (s : JsString) (hd : d < 36) :
    value b (s ++ [digit d]) = value b s * b + d := by
  rw [value, List.foldl_append, ← value]
  simp only [List.foldl_cons, List.foldl_nil, digit]
  split <;> split <;> omega

/-- Reading a written number gives it back. -/
theorem value_radix {b : ℕ} (hb : 1 < b) (hb' : b ≤ 36) (n : ℕ) : value b (radix b n) = n := by
  induction n using Nat.strongRecOn with
  | _ n ih =>
    rw [radix_eq hb]
    split
    · next hn => simpa [value] using value_append_digit (b := b) [] (show n < 36 by omega)
    · next hn =>
      have hmod : n % b < b := Nat.mod_lt _ (by omega)
      rw [value_append_digit _ (by omega), ih _ (Nat.div_lt_self (by omega) hb)]
      exact Nat.div_add_mod' n b

theorem radix_injective {b : ℕ} (hb : 1 < b) (hb' : b ≤ 36) : Function.Injective (radix b) :=
  Function.LeftInverse.injective (value_radix hb hb')

/-- A number in base `b ≤ 36` is written with digits only. -/
theorem mem_radix {b : ℕ} (hb : 1 < b) (n : ℕ) {u : ℕ} (hu : u ∈ radix b n) :
    ∃ d < b, u = digit d := by
  induction n using Nat.strongRecOn with
  | _ n ih =>
    rw [radix_eq hb] at hu
    split at hu
    · next hn => exact ⟨n, hn, by simpa using hu⟩
    · next hn =>
      rcases List.mem_append.1 hu with hu | hu
      · exact ih _ (Nat.div_lt_self (by omega) hb) hu
      · exact ⟨n % b, Nat.mod_lt _ (by omega), by simpa using hu⟩

/-- A decimal digit is one of `0`–`9`. -/
theorem mem_radix_ten {n u : ℕ} (hu : u ∈ radix 10 n) : 48 ≤ u ∧ u ≤ 57 := by
  obtain ⟨d, hd, rfl⟩ := mem_radix (by decide) n hu
  simp only [digit]
  split <;> omega

/-- The number of digits, for small numbers. -/
theorem length_radix_le_two {n : ℕ} (h : n < 100) : (radix 10 n).length ≤ 2 := by
  rw [radix_eq (by decide)]
  split
  · simp
  · rw [radix_eq (by decide), if_pos (show n / 10 < 10 by omega)]
    simp

theorem decimal_natCast (n : ℕ) : decimal (n : ℤ) = radix 10 n := rfl

theorem decimal_injective : Function.Injective decimal := by
  have hten : Function.Injective (radix 10) := radix_injective (by decide) (by decide)
  -- a minus sign is no digit
  have hminus : ∀ m n : ℕ, radix 10 m ≠ 45 :: radix 10 n := fun m n h ↦ by
    have := mem_radix_ten (n := m) (u := 45) (by rw [h]; exact List.mem_cons_self)
    omega
  rintro (m | m) (n | n) h
  · exact congrArg Int.ofNat (hten h)
  · exact absurd h (hminus m (n + 1))
  · exact absurd h.symm (hminus n (m + 1))
  · have := hten (List.cons.inj h).2
    exact congrArg Int.negSucc (by omega)

/-! ### Padding -/

theorem length_padStart {width filler : ℕ} {s : JsString} (h : s.length ≤ width) :
    (padStart width filler s).length = width := by
  simp only [padStart, List.length_append, List.length_replicate]
  omega

theorem mem_padStart {width filler u : ℕ} {s : JsString} (h : u ∈ padStart width filler s) :
    u = filler ∨ u ∈ s := by
  rcases List.mem_append.1 h with h | h
  · exact Or.inl (List.eq_of_mem_replicate h)
  · exact Or.inr h

/-- Leading zeros do not change a value. -/
theorem value_padStart_zero (b width : ℕ) (s : JsString) :
    value b (padStart width 48 s) = value b s := by
  have hzero : ∀ k, (List.replicate k 48).foldl
      (fun n u ↦ n * b + if u < 58 then u - 48 else u - 87) 0 = 0 := by
    intro k
    induction k with
    | zero => rfl
    | succ k ih => simpa [List.replicate_succ] using ih
  rw [value, padStart, List.foldl_append, hzero]
  rfl

theorem padStart_radix_injective (width : ℕ) {b : ℕ} (hb : 1 < b) (hb' : b ≤ 36) :
    Function.Injective fun n ↦ padStart width 48 (radix b n) := fun m n h ↦ by
  have := congrArg (value b) h
  simpa only [value_padStart_zero, value_radix hb hb'] using this

/-! ### Order -/

/-- The value of a digit, whatever the unit. -/
private theorem value_foldl (b : ℕ) (s : JsString) (n : ℕ) :
    s.foldl (fun n u ↦ n * b + if u < 58 then u - 48 else u - 87) n =
      n * b ^ s.length + value b s := by
  induction s generalizing n with
  | nil => simp [value]
  | cons u s ih =>
    rw [value, List.foldl_cons, List.foldl_cons, ih, ih, List.length_cons, pow_succ]
    ring

theorem value_cons (b u : ℕ) (s : JsString) :
    value b (u :: s) = (if u < 58 then u - 48 else u - 87) * b ^ s.length + value b s := by
  rw [value, List.foldl_cons, value_foldl]
  simp

/-- `\d`. -/
def isDigit (u : ℕ) : Bool := decide (48 ≤ u ∧ u ≤ 57)

/-- The units are decimal digits. -/
def Digits (s : JsString) : Prop := ∀ u ∈ s, 48 ≤ u ∧ u ≤ 57

theorem Digits.cons_iff {u : ℕ} {s : JsString} :
    Digits (u :: s) ↔ (48 ≤ u ∧ u ≤ 57) ∧ Digits s := List.forall_mem_cons

theorem digits_radix (n : ℕ) : Digits (radix 10 n) := fun _ ↦ mem_radix_ten

theorem Digits.padStart {s : JsString} (h : Digits s) (width : ℕ) :
    Digits (JsString.padStart width 48 s) := fun u hu ↦ by
  rcases mem_padStart hu with rfl | hu
  · omega
  · exact h u hu

theorem Digits.value_lt {s : JsString} (h : Digits s) : value 10 s < 10 ^ s.length := by
  induction s with
  | nil => simp [value]
  | cons u s ih =>
    obtain ⟨hu, hs⟩ := Digits.cons_iff.1 h
    have := ih hs
    rw [value_cons, if_pos (by omega), List.length_cons, pow_succ]
    have hle : (u - 48) * 10 ^ s.length ≤ 9 * 10 ^ s.length := Nat.mul_le_mul_right _ (by omega)
    omega

/-- Numbers written with the same number of digits compare as strings. -/
theorem Digits.lt_iff {s s' : JsString} (h : Digits s) (h' : Digits s')
    (hlen : s.length = s'.length) : s < s' ↔ value 10 s < value 10 s' := by
  induction s generalizing s' with
  | nil =>
    obtain rfl := List.eq_nil_of_length_eq_zero hlen.symm
    simp
  | cons u s ih =>
    obtain _ | ⟨v, s'⟩ := s'
    · cases hlen
    obtain ⟨hu, hs⟩ := Digits.cons_iff.1 h
    obtain ⟨hv, hs'⟩ := Digits.cons_iff.1 h'
    have hlen : s.length = s'.length := Nat.succ_inj.1 hlen
    have hval := hs.value_lt
    have hval' := hs'.value_lt
    rw [List.cons_lt_cons_iff, ih hs hs' hlen, value_cons, value_cons, if_pos (by omega),
      if_pos (by omega), hlen]
    rw [hlen] at hval
    generalize 10 ^ s'.length = k at hval hval'
    -- the leading digits decide, unless they are equal
    rcases Nat.lt_trichotomy u v with huv | rfl | huv
    · have : (u - 48 + 1) * k ≤ (v - 48) * k := Nat.mul_le_mul_right _ (by omega)
      rw [Nat.add_mul] at this
      exact iff_of_true (.inl huv) (by omega)
    · simp
    · have : (v - 48 + 1) * k ≤ (u - 48) * k := Nat.mul_le_mul_right _ (by omega)
      rw [Nat.add_mul] at this
      exact iff_of_false (by omega) (by omega)

/-- A number of known length is written in one way. -/
theorem Digits.eq_of_value {s s' : JsString} (h : Digits s) (h' : Digits s')
    (hlen : s.length = s'.length) (hval : value 10 s = value 10 s') : s = s' := by
  rcases lt_trichotomy s s' with hlt | heq | hlt
  · exact absurd ((h.lt_iff h' hlen).1 hlt) (by omega)
  · exact heq
  · exact absurd ((h'.lt_iff h hlen.symm).1 hlt) (by omega)

/-- Strings with a first part of the same length compare by it, then by the rest. -/
theorem append_lt_append_iff {a a' b b' : JsString} (h : a.length = a'.length) :
    a ++ b < a' ++ b' ↔ a < a' ∨ a = a' ∧ b < b' := by
  induction a generalizing a' with
  | nil =>
    obtain rfl := List.eq_nil_of_length_eq_zero h.symm
    simp
  | cons u a ih =>
    obtain _ | ⟨v, a'⟩ := a'
    · cases h
    simp only [List.cons_append, List.cons_lt_cons_iff, ih (Nat.succ_inj.1 h), List.cons.injEq]
    tauto

/-- A number is written with `w` digits when it has `w` digits. -/
theorem length_radix {n w : ℕ} (hlow : 10 ^ w ≤ n) (hhigh : n < 10 ^ (w + 1)) :
    (radix 10 n).length = w + 1 := by
  induction w generalizing n with
  | zero =>
    rw [radix_eq (by decide), if_pos (by omega)]
    rfl
  | succ w ih =>
    have hten : 10 ≤ n := le_trans (by rw [pow_succ]; have := Nat.one_le_pow w 10; omega) hlow
    rw [radix_eq (by decide), if_neg (by omega), List.length_append,
      ih (by rw [pow_succ] at hlow; omega) (by rw [pow_succ] at hhigh; omega)]
    rfl

/-! ### Separators -/

/-- A separator that the last part does not contain splits a string in one way. -/
theorem append_cons_inj {sep : ℕ} {a a' b b' : JsString} (hb : sep ∉ b) (hb' : sep ∉ b')
    (h : a ++ sep :: b = a' ++ sep :: b') : a = a' ∧ b = b' := by
  induction a generalizing a' with
  | nil =>
    cases a' with
    | nil => exact ⟨rfl, (List.cons.inj h).2⟩
    | cons u a' =>
      obtain ⟨_, rfl⟩ := List.cons.inj h
      exact absurd (List.mem_append_right _ List.mem_cons_self) hb
  | cons u a ih =>
    cases a' with
    | nil =>
      obtain ⟨_, rfl⟩ := List.cons.inj h
      exact absurd (List.mem_append_right _ List.mem_cons_self) hb'
    | cons v a' =>
      simp only [List.cons_append, List.cons.injEq] at h
      obtain ⟨rfl, h⟩ := h
      obtain ⟨rfl, rfl⟩ := ih h
      exact ⟨rfl, rfl⟩

end JsString

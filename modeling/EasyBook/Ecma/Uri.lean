import EasyBook.Ecma.Text

/-!
# Percent-decoding

`decodeURIComponent`: an escape is a percent sign and two hexadecimal digits, one octet; the octets
of a character are decoded as UTF-8, and anything malformed is an error. A text without percent
signs is its own decoding, and a unit that belongs to no escape separates what is decoded
(`decodeURIComponent_append_cons`).
-/

namespace JsString

/-! ### UTF-8 -/

/-- The value of a hexadecimal digit. -/
def hexValue (u : ℕ) : Option ℕ :=
  if 48 ≤ u ∧ u ≤ 57 then some (u - 48)
  else if 65 ≤ u ∧ u ≤ 70 then some (u - 55)
  else if 97 ≤ u ∧ u ≤ 102 then some (u - 87)
  else none

/-- How many octets follow the first one of a character. -/
def followers (b : ℕ) : Option ℕ :=
  if b < 0x80 then some 0
  else if b < 0xC0 then none
  else if b < 0xE0 then some 1
  else if b < 0xF0 then some 2
  else if b < 0xF8 then some 3
  else none

/-- An octet that follows. -/
def Tail (b : ℕ) : Prop := 0x80 ≤ b ∧ b ≤ 0xBF

instance (b : ℕ) : Decidable (Tail b) := inferInstanceAs (Decidable (_ ∧ _))

/-- The code point of a valid UTF-8 encoding. -/
def codePoint : List ℕ → Option ℕ
  | [a] => some a
  | [a, b] =>
    let v := (a - 0xC0) * 0x40 + (b - 0x80)
    if Tail b ∧ 0x80 ≤ v then some v else none
  | [a, b, c] =>
    let v := (a - 0xE0) * 0x1000 + (b - 0x80) * 0x40 + (c - 0x80)
    if Tail b ∧ Tail c ∧ 0x800 ≤ v ∧ ¬ (0xD800 ≤ v ∧ v ≤ 0xDFFF) then some v else none
  | [a, b, c, d] =>
    let v := (a - 0xF0) * 0x40000 + (b - 0x80) * 0x1000 + (c - 0x80) * 0x40 + (d - 0x80)
    if Tail b ∧ Tail c ∧ Tail d ∧ 0x10000 ≤ v ∧ v ≤ 0x10FFFF then some v else none
  | _ => none

/-- The code units of a code point. -/
def codeUnits (v : ℕ) : JsString :=
  if v < 0x10000 then [v] else [0xD800 + (v - 0x10000) / 0x400, 0xDC00 + (v - 0x10000) % 0x400]

/-! ### Escapes -/

/-- The octet that a text starts with, and the rest. -/
def octet : JsString → Option (ℕ × JsString)
  | 37 :: x :: y :: s => (hexValue x).bind fun a ↦ (hexValue y).map fun b ↦ (16 * a + b, s)
  | _ => none

/-- The next `n` octets. -/
def octets : ℕ → JsString → Option (List ℕ × JsString)
  | 0, s => some ([], s)
  | n + 1, s => do
    let (b, s) ← octet s
    let (bs, s) ← octets n s
    return (b :: bs, s)

/-- The character that a text starts with as escapes, and the rest. -/
def escaped (s : JsString) : Option (JsString × JsString) := do
  let (b, s) ← octet s
  let n ← followers b
  let (bs, s) ← octets n s
  let v ← codePoint (b :: bs)
  return (codeUnits v, s)

/-- The loop of `decodeURIComponent`; it comes to the end after at most as many rounds as there are
units. -/
def decodeLoop : ℕ → JsString → Option JsString
  | _, [] => some []
  | 0, _ :: _ => none
  | n + 1, u :: s =>
    if u = 37 then do
      let (c, rest) ← escaped (u :: s)
      let decoded ← decodeLoop n rest
      return c ++ decoded
    else do
      let decoded ← decodeLoop n s
      return u :: decoded

/-- `decodeURIComponent`, `none` for a `URIError`. -/
def decodeURIComponent (s : JsString) : Option JsString := decodeLoop s.length s

/-! ### What is decoded -/

variable {a b s : JsString} {n m : ℕ} {c : ℕ}

theorem octet_eq_some {r : ℕ × JsString} (h : octet s = some r) :
    ∃ x y, s = 37 :: x :: y :: r.2 := by
  unfold octet at h
  split at h
  · next x y s =>
    obtain ⟨a, -, h⟩ := Option.bind_eq_some_iff.1 h
    obtain ⟨b, -, rfl⟩ := Option.map_eq_some_iff.1 h
    exact ⟨x, y, rfl⟩
  · exact nomatch h

theorem length_octets {r : List ℕ × JsString} (h : octets n s = some r) :
    r.2.length ≤ s.length := by
  induction n generalizing s r with
  | zero =>
    obtain rfl := Option.some.inj h
    exact le_rfl
  | succ n ih =>
    obtain ⟨⟨b, t⟩, hb, h⟩ := Option.bind_eq_some_iff.1 h
    obtain ⟨⟨bs, t'⟩, hbs, h⟩ := Option.bind_eq_some_iff.1 h
    obtain rfl := Option.some.inj h
    obtain ⟨x, y, rfl⟩ := octet_eq_some hb
    exact (ih hbs).trans (by simp only [List.length_cons]; omega)

/-- Reading a character makes progress. -/
theorem length_escaped {r : JsString × JsString} (h : escaped s = some r) :
    r.2.length < s.length := by
  obtain ⟨⟨b, t⟩, hb, h⟩ := Option.bind_eq_some_iff.1 h
  obtain ⟨n, -, h⟩ := Option.bind_eq_some_iff.1 h
  obtain ⟨⟨bs, t'⟩, hbs, h⟩ := Option.bind_eq_some_iff.1 h
  obtain ⟨v, -, h⟩ := Option.bind_eq_some_iff.1 h
  obtain rfl := Option.some.inj h
  obtain ⟨x, y, rfl⟩ := octet_eq_some hb
  exact (length_octets hbs).trans_lt (by simp only [List.length_cons]; omega)

/-- Any fuel that covers the length will do. -/
theorem decodeLoop_eq (hn : s.length ≤ n) (hm : s.length ≤ m) :
    decodeLoop n s = decodeLoop m s := by
  induction n generalizing s m with
  | zero =>
    obtain rfl := List.eq_nil_of_length_eq_zero (Nat.le_zero.1 hn)
    cases m <;> rfl
  | succ n ih =>
    cases s with
    | nil => cases m <;> rfl
    | cons u s =>
      obtain ⟨m, rfl⟩ := Nat.exists_eq_add_of_le' (Nat.succ_le_of_lt (Nat.zero_lt_of_lt hm))
      unfold decodeLoop
      split_ifs
      · refine Option.bind_congr fun ⟨c, rest⟩ hr ↦ ?_
        have hlen : rest.length < (u :: s).length := length_escaped hr
        rw [List.length_cons] at hn hm hlen
        have hrest : decodeLoop n rest = decodeLoop m rest := ih (by omega) (by omega)
        simp only [hrest]
      · rw [ih (m := m) (Nat.le_of_succ_le_succ hn) (Nat.le_of_succ_le_succ hm)]

theorem decodeURIComponent_cons {u : ℕ} (hu : u ≠ 37) :
    decodeURIComponent (u :: s) = (decodeURIComponent s).map (u :: ·) := by
  rw [decodeURIComponent, List.length_cons, decodeLoop, if_neg hu, decodeURIComponent]
  cases decodeLoop s.length s <;> rfl

theorem decodeURIComponent_escape : decodeURIComponent (37 :: s) =
    (escaped (37 :: s)).bind fun r ↦ (decodeURIComponent r.2).map (r.1 ++ ·) := by
  rw [decodeURIComponent, List.length_cons, decodeLoop, if_pos rfl]
  refine Option.bind_congr fun ⟨c, rest⟩ hr ↦ ?_
  have hlen : rest.length < (37 :: s).length := length_escaped hr
  rw [List.length_cons] at hlen
  have hrest : decodeLoop s.length rest = decodeURIComponent rest :=
    decodeLoop_eq (by omega) le_rfl
  simp only [hrest]
  cases decodeURIComponent rest <;> rfl

/-- A text without percent signs is its own decoding. -/
theorem decodeURIComponent_of_not_mem (h : 37 ∉ s) : decodeURIComponent s = some s := by
  induction s with
  | nil => rfl
  | cons u s ih =>
    have hu : u ≠ 37 := fun h' ↦ h (h' ▸ List.mem_cons_self)
    rw [decodeURIComponent_cons hu, ih fun h' ↦ h (List.mem_cons_of_mem _ h')]
    rfl

/-- A unit that belongs to no escape. -/
def Separator (c : ℕ) : Prop := c ≠ 37 ∧ hexValue c = none

theorem octet_of_ne {u : ℕ} (hu : u ≠ 37) : octet (u :: s) = none := by
  unfold octet
  split
  · next heq => exact absurd (List.cons.inj heq).1 hu
  · rfl

theorem octet_append_cons (hc : Separator c) : octet (a ++ c :: b) =
    (octet a).map fun r ↦ (r.1, r.2 ++ c :: b) := by
  cases a with
  | nil => exact octet_of_ne hc.1
  | cons p a =>
    by_cases hp : p = 37
    · subst hp
      match a with
      | [] =>
        cases b with
        | nil => rfl
        | cons y b => simp [octet, hc.2]
      | [x] => simp [octet, hc.2]
      | x :: y :: a =>
        simp only [List.cons_append, octet]
        cases hexValue x <;> cases hexValue y <;> rfl
    · rw [List.cons_append, octet_of_ne hp, octet_of_ne hp]
      rfl

theorem octets_append_cons (hc : Separator c) : octets n (a ++ c :: b) =
    (octets n a).map fun r ↦ (r.1, r.2 ++ c :: b) := by
  induction n generalizing a with
  | zero => rfl
  | succ n ih =>
    unfold octets
    rw [octet_append_cons hc]
    cases octet a with
    | none => rfl
    | some r =>
      obtain ⟨v, rest⟩ := r
      show (octets n (rest ++ c :: b)).bind _ = _
      rw [ih]
      cases hrest : octets n rest <;> simp [hrest]

theorem escaped_append_cons (hc : Separator c) : escaped (a ++ c :: b) =
    (escaped a).map fun r ↦ (r.1, r.2 ++ c :: b) := by
  unfold escaped
  rw [octet_append_cons hc]
  cases octet a with
  | none => rfl
  | some r =>
    obtain ⟨v, rest⟩ := r
    cases hf : followers v with
    | none => simp [hf]
    | some k =>
      cases hrest : octets k rest with
      | none => simp [hf, octets_append_cons hc, hrest]
      | some r' =>
        cases hv : codePoint (v :: r'.1) <;> simp [hf, octets_append_cons hc, hrest, hv]

/-- Such a unit separates what is decoded. -/
theorem decodeURIComponent_append_cons (hc : Separator c) : decodeURIComponent (a ++ c :: b) =
    (decodeURIComponent a).bind fun a' ↦ (decodeURIComponent b).map fun b' ↦ a' ++ c :: b' := by
  induction hn : a.length using Nat.strong_induction_on generalizing a with
  | _ n ih =>
    cases a with
    | nil =>
      rw [List.nil_append, decodeURIComponent_cons hc.1]
      rfl
    | cons u a =>
      by_cases hu : u = 37
      · subst hu
        rw [List.cons_append, decodeURIComponent_escape, decodeURIComponent_escape,
          ← List.cons_append, escaped_append_cons hc]
        cases hesc : escaped (37 :: a) with
        | none => rfl
        | some r =>
          have hlen := length_escaped hesc
          simp only [Option.map_some, Option.bind_some]
          rw [ih r.2.length (by omega) rfl]
          cases decodeURIComponent r.2 <;> cases decodeURIComponent b <;> simp
      · rw [List.cons_append, decodeURIComponent_cons hu, decodeURIComponent_cons hu,
          ih a.length (by rw [← hn]; exact Nat.lt_succ_self _) rfl]
        cases decodeURIComponent a <;> cases decodeURIComponent b <;> rfl

end JsString

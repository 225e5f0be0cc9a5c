import EasyBook.Ecma.Text

/-!
# Canonical ordering and NFC

A combining mark has a class; marks of different classes that follow one another are put in the
order of their classes, and a unit of class `0` is passed by none. `reorder` is that ordering. It is
all that NFC does to a text in which nothing decomposes and nothing composes, such as Thai.

`Normalizes` is what the sanitiser's proofs use of NFC on any text, and `normalizes_reorder` says
that the ordering has it.
-/

namespace JsString

/-! ### Canonical ordering -/

section Reorder

variable (cls : ℕ → ℕ)

/-- The mark `d` is to come before the mark `c`. -/
def Precedes (d c : ℕ) : Prop := 0 < cls d ∧ cls d < cls c

instance (d c : ℕ) : Decidable (Precedes cls d c) := inferInstanceAs (Decidable (_ ∧ _))

/-- Puts a unit in front of an ordered text. -/
def insertMark (c : ℕ) : JsString → JsString
  | [] => [c]
  | d :: s => if Precedes cls d c then d :: insertMark c s else c :: d :: s

/-- The text with its marks in order. -/
def reorder : JsString → JsString
  | [] => []
  | c :: s => insertMark cls c (reorder s)

/-- No mark comes after one that it should precede. -/
def Ordered (s : JsString) : Prop := s.IsChain fun x y ↦ ¬ Precedes cls y x

variable {cls} {a b s : JsString} {c x y : ℕ}

theorem insertMark_perm : (insertMark cls c s).Perm (c :: s) := by
  induction s with
  | nil => exact .refl _
  | cons d s ih =>
    rw [insertMark]
    split_ifs with h
    · exact (ih.cons d).trans (.swap c d s)
    · exact .refl _

theorem reorder_perm : (reorder cls s).Perm s := by
  induction s with
  | nil => exact .refl _
  | cons c s ih => exact insertMark_perm.trans (ih.cons c)

theorem not_precedes_of_starter (h : cls c = 0) : ¬ Precedes cls c x ∧ ¬ Precedes cls x c := by
  unfold Precedes
  omega

/-- A unit comes after its own, or after the first that it passes. -/
private theorem ordered_cons_insertMark (h : ¬ Precedes cls c x) (hs : Ordered cls (x :: s))
    (hcs : Ordered cls (insertMark cls c s)) : Ordered cls (x :: insertMark cls c s) := by
  cases s with
  | nil => exact .cons_cons h hcs
  | cons d s =>
    rw [insertMark] at hcs ⊢
    split_ifs at hcs ⊢ with hd
    · exact .cons_cons (List.isChain_cons_cons.1 hs).1 hcs
    · exact .cons_cons h hcs

theorem ordered_insertMark (h : Ordered cls s) : Ordered cls (insertMark cls c s) := by
  induction s with
  | nil => exact .singleton c
  | cons d s ih =>
    have hrest : Ordered cls (insertMark cls c s) := ih h.tail
    rw [insertMark]
    split_ifs with hd
    · exact ordered_cons_insertMark (fun hc ↦ by unfold Precedes at *; omega) h hrest
    · exact .cons_cons hd h

theorem ordered_reorder : Ordered cls (reorder cls s) := by
  induction s with
  | nil => exact .nil
  | cons c s ih => exact ordered_insertMark ih

/-- An ordered text stays as it is. -/
theorem reorder_of_ordered (h : Ordered cls s) : reorder cls s = s := by
  induction s with
  | nil => rfl
  | cons c s ih =>
    rw [reorder, ih h.tail]
    cases s with
    | nil => rfl
    | cons d s => exact if_neg (List.isChain_cons_cons.1 h).1

theorem insertMark_append_cons (h : cls c = 0) :
    insertMark cls x (a ++ c :: b) = insertMark cls x a ++ c :: b := by
  induction a with
  | nil => exact if_neg (not_precedes_of_starter h).1
  | cons d a ih =>
    rw [List.cons_append, insertMark, insertMark]
    split_ifs with hd
    · rw [ih, List.cons_append]
    · rfl

/-- Nothing passes a unit of class `0`. -/
theorem reorder_append_cons (h : cls c = 0) :
    reorder cls (a ++ c :: b) = reorder cls a ++ c :: reorder cls b := by
  induction a with
  | nil =>
    have hfirst : insertMark cls c (reorder cls b) = c :: reorder cls b := by
      cases reorder cls b with
      | nil => rfl
      | cons d s => exact if_neg (not_precedes_of_starter h).2
    exact hfirst
  | cons x a ih => rw [List.cons_append, reorder, ih, insertMark_append_cons h, reorder]

/-- Two marks of different classes may come in either order. -/
theorem insertMark_comm (h : Precedes cls y x) :
    insertMark cls x (insertMark cls y s) = insertMark cls y (insertMark cls x s) := by
  have hxy : ¬ Precedes cls x y := fun h' ↦ by unfold Precedes at *; omega
  induction s with
  | nil => simp only [insertMark, if_pos h, if_neg hxy]
  | cons d s ih =>
    by_cases hd : Precedes cls d y
    · have hdx : Precedes cls d x := by unfold Precedes at *; omega
      simp only [insertMark, if_pos hd, if_pos hdx, ih]
    · by_cases hdx : Precedes cls d x
      · simp only [insertMark, if_neg hd, if_pos hdx, if_pos h]
      · simp only [insertMark, if_neg hd, if_neg hdx, if_pos h, if_neg hxy]

theorem reorder_exchange (h : Precedes cls y x) :
    reorder cls (a ++ x :: y :: b) = reorder cls (a ++ y :: x :: b) := by
  induction a with
  | nil => exact insertMark_comm h
  | cons c a ih => rw [List.cons_append, reorder, ih, List.cons_append, reorder]

end Reorder

/-! ### Thai -/

/-- The code units of the Thai block. -/
def Thai (u : ℕ) : Prop := 0x0E00 ≤ u ∧ u ≤ 0x0E7F

/-- ZWSP, ZWNJ, ZWJ and the BOM. -/
def ZeroWidth (u : ℕ) : Prop := 0x200B ≤ u ∧ u ≤ 0x200D ∨ u = 0xFEFF

/-- `Canonical_Combining_Class` in the Thai block. -/
def thaiClass (u : ℕ) : ℕ :=
  if u = 0x0E38 ∨ u = 0x0E39 then 103
  else if u = 0x0E3A then 9
  else if 0x0E48 ≤ u ∧ u ≤ 0x0E4B then 107
  else 0

/-- The starters of the Thai block, the zero-width characters and NBSP: nothing decomposes to one of
them, none of them decomposes, and none composes with anything. -/
def Inert (u : ℕ) : Prop := Thai u ∧ thaiClass u = 0 ∨ ZeroWidth u ∨ u = 0xA0

/-- What a Thai text is written with. -/
def ThaiText (u : ℕ) : Prop := Thai u ∨ u < 0x80 ∨ ZeroWidth u ∨ u = 0xA0

instance (u : ℕ) : Decidable (Thai u) := inferInstanceAs (Decidable (_ ∧ _))

instance (u : ℕ) : Decidable (ZeroWidth u) := inferInstanceAs (Decidable (_ ∨ _))

instance (u : ℕ) : Decidable (Inert u) := inferInstanceAs (Decidable (_ ∨ _))

instance (u : ℕ) : Decidable (ThaiText u) := inferInstanceAs (Decidable (_ ∨ _))

/-- What is used of NFC. -/
structure Normalizes (nfc : JsString → JsString) : Prop where
  /-- A normalised text is normalised. -/
  idem : ∀ s, nfc (nfc s) = nfc s
  /-- A part of a normalised text is normalised. -/
  part : ∀ a b c, nfc (a ++ b ++ c) = a ++ b ++ c → nfc b = b
  /-- What comes before an inert character and what comes after do not meet. -/
  split : ∀ a c b, Inert c → nfc (a ++ c :: b) = nfc a ++ c :: nfc b
  /-- Thai and inert characters stay, and none is added. -/
  count : ∀ s c, Thai c ∨ Inert c → (nfc s).count c = s.count c
  /-- Marks of different classes may come in either order. -/
  exchange : ∀ a x y b, Precedes thaiClass y x → nfc (a ++ x :: y :: b) = nfc (a ++ y :: x :: b)
  /-- A normalised text has its marks in order. -/
  ordered : ∀ s a x y b, nfc s = a ++ x :: y :: b → ¬ Precedes thaiClass y x
  /-- In a Thai text nothing decomposes and nothing composes. -/
  perm : ∀ s, (∀ u ∈ s, ThaiText u) → (nfc s).Perm s

theorem thaiClass_of_inert {c : ℕ} (h : Inert c) : thaiClass c = 0 := by
  rcases h with ⟨-, hc⟩ | hc | rfl
  · exact hc
  · unfold ZeroWidth at hc
    unfold thaiClass
    split_ifs <;> omega
  · decide

/-- The ordering of Thai marks is a normalisation. -/
theorem normalizes_reorder : Normalizes (reorder thaiClass) where
  idem _ := reorder_of_ordered ordered_reorder
  part a b c h := by
    have hordered : Ordered thaiClass (a ++ b ++ c) := h ▸ ordered_reorder
    exact reorder_of_ordered (hordered.left_of_append.right_of_append)
  split _ _ _ h := reorder_append_cons (thaiClass_of_inert h)
  count _ _ _ := reorder_perm.count_eq _
  exchange _ _ _ _ h := reorder_exchange h
  ordered s a x y b h := by
    have hordered : Ordered thaiClass (a ++ x :: y :: b) := h ▸ ordered_reorder
    exact (List.isChain_append_cons_cons.1 hordered).2.1
  perm _ _ := reorder_perm

end JsString

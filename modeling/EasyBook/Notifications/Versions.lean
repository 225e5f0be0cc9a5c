import EasyBook.Ecma.Text

/-!
# The order of versions

`isDowngrade` of `version-announcer.ts` compares dotted numbers segment by segment. A version is
read as the sequence of its segments, with zeros from its end on (`versionOf`), and a downgrade is a
step down in the lexicographic order of these (`isDowngrade_iff`).
-/

namespace EasyBook.Notifications

open JsString

/-- The number nearest to `n` that has 53 significant bits, the even one of two; `⊤` stands for
`Infinity`. -/
def roundToDouble (n : ℕ) : WithTop ℕ :=
  if n < 2 ^ 53 then (n : WithTop ℕ)
  else
    let unit := 2 ^ (Nat.log2 n - 52)
    let q := n / unit
    let r := n % unit
    let m := (if unit < 2 * r ∨ 2 * r = unit ∧ q % 2 = 1 then q + 1 else q) * unit
    if m < 2 ^ 1024 then (m : WithTop ℕ) else ⊤

/-- `v.split('.')`. -/
def splitDots (v : JsString) : List JsString := v.splitOn 46

/-- `DOTTED_NUMBER`. -/
def dottedNumber (v : JsString) : Bool := (splitDots v).all fun s ↦ !s.isEmpty && s.all isDigit

/-- `stripV`. -/
def stripV : JsString → JsString
  | 118 :: v => v
  | v => v

/-- `v.split('.').map(Number)`, for a dotted number. -/
def segments (v : JsString) : List (WithTop ℕ) :=
  (splitDots v).map fun s ↦ roundToDouble (value 10 s)

/-- `isDowngrade`. -/
def isDowngrade (previous next : JsString) : Bool :=
  let a := stripV previous
  let b := stripV next
  if !dottedNumber a || !dottedNumber b then false
  else
    let as := segments a
    let bs := segments b
    let len := max as.length bs.length
    match (List.range len).find? fun i ↦ decide (as[i]?.getD 0 ≠ bs[i]?.getD 0) with
    | some i => decide (bs[i]?.getD 0 < as[i]?.getD 0)
    | none => false

/-! ### As a lexicographic order -/

/-- The segments of a version, and zeros. -/
def versionOf (v : JsString) : Lex (ℕ → WithTop ℕ) := toLex fun i ↦ (segments (stripV v))[i]?.getD 0

/-- The loop over the segments finds the first that differ. -/
theorem find_range_lt_iff {α : Type*} [LinearOrder α] [Zero α] {as bs : List α} :
    (match (List.range (max as.length bs.length)).find? fun i ↦
        decide (as[i]?.getD 0 ≠ bs[i]?.getD 0) with
      | some i => decide (bs[i]?.getD 0 < as[i]?.getD 0)
      | none => false) = true ↔
    toLex (fun i : ℕ ↦ bs[i]?.getD 0) < toLex fun i : ℕ ↦ as[i]?.getD 0 := by
  constructor
  · intro h
    cases hfind : (List.range (max as.length bs.length)).find? fun i ↦
        decide (as[i]?.getD 0 ≠ bs[i]?.getD 0) with
    | none =>
      rw [hfind] at h
      cases h
    | some i =>
      rw [hfind] at h
      refine ⟨i, fun j hj ↦ ?_, of_decide_eq_true h⟩
      have hbefore := (List.find?_range_eq_some.1 hfind).2.2 j hj
      simpa [eq_comm] using hbefore
  · rintro ⟨i, heq, hlt⟩
    have hlt : bs[i]?.getD 0 < as[i]?.getD 0 := hlt
    have hi : i < max as.length bs.length := by
      by_contra hge
      rw [List.getElem?_eq_none (by omega), List.getElem?_eq_none (by omega)] at hlt
      exact lt_irrefl _ hlt
    have hfind : (List.range (max as.length bs.length)).find? (fun i ↦
        decide (as[i]?.getD 0 ≠ bs[i]?.getD 0)) = some i := by
      refine List.find?_range_eq_some.2 ⟨by simpa using hlt.ne', List.mem_range.2 hi, fun j hj ↦ ?_⟩
      have hj' : bs[j]?.getD 0 = as[j]?.getD 0 := heq j hj
      simp [hj']
    rw [hfind]
    exact decide_eq_true hlt

/-- A downgrade is a smaller version among dotted numbers. -/
theorem isDowngrade_iff {previous next : JsString} : isDowngrade previous next = true ↔
    dottedNumber (stripV previous) = true ∧ dottedNumber (stripV next) = true ∧
      versionOf next < versionOf previous := by
  unfold isDowngrade
  by_cases ha : dottedNumber (stripV previous) = true
  · by_cases hb : dottedNumber (stripV next) = true
    · simp only [ha, hb, Bool.not_true, Bool.or_self, Bool.false_eq_true, if_false, true_and]
      exact find_range_lt_iff
    · simp [hb]
  · simp [ha]

/-- A `.0` at the end does not change the prefix that is stripped. -/
theorem stripV_append_zero (v : JsString) : stripV (v ++ lit ".0") = stripV v ++ lit ".0" := by
  cases v with
  | nil => decide
  | cons u v =>
    by_cases hu : u = 118
    · subst hu
      rfl
    · simp [stripV, hu]

/-- It is one more part. -/
theorem splitDots_append_zero (v : JsString) :
    splitDots (v ++ lit ".0") = splitDots v ++ [lit "0"] :=
  (List.splitOn_append_cons_self v [48]).trans
    (congrArg _ (List.splitOn_eq_singleton (by decide)))

/-- A missing segment counts as zero. -/
theorem versionOf_append_zero (v : JsString) : versionOf (v ++ lit ".0") = versionOf v := by
  have hzero : roundToDouble (value 10 (lit "0")) = 0 := by decide
  refine congrArg toLex (funext fun i ↦ ?_)
  rw [stripV_append_zero, segments, splitDots_append_zero, List.map_append, List.map_singleton,
    hzero, List.getElem?_append]
  split_ifs with hi
  · rfl
  · rw [segments, List.getElem?_eq_none (not_lt.1 hi)]
    cases hn : i - ((splitDots (stripV v)).map fun s ↦ roundToDouble (value 10 s)).length <;> rfl

/-- It does not change whether the text is a dotted number. -/
theorem dottedNumber_append_zero (v : JsString) :
    dottedNumber (stripV (v ++ lit ".0")) = dottedNumber (stripV v) := by
  rw [stripV_append_zero, dottedNumber, splitDots_append_zero, List.all_append]
  exact Bool.and_true _

/-- So `1.2` and `1.2.0` are one version. -/
theorem isDowngrade_append_zero (a b : JsString) :
    isDowngrade (a ++ lit ".0") b = isDowngrade a b ∧
      isDowngrade a (b ++ lit ".0") = isDowngrade a b := by
  constructor
  · rw [Bool.eq_iff_iff, isDowngrade_iff, isDowngrade_iff, versionOf_append_zero,
      dottedNumber_append_zero]
  · rw [Bool.eq_iff_iff, isDowngrade_iff, isDowngrade_iff, versionOf_append_zero,
      dottedNumber_append_zero]

/-- No version is a downgrade of itself. -/
theorem isDowngrade_irrefl (a : JsString) : isDowngrade a a = false :=
  Bool.eq_false_iff.2 fun h ↦ lt_irrefl _ (isDowngrade_iff.1 h).2.2

/-- The way back from a downgrade is none. -/
theorem isDowngrade_asymm {a b : JsString} (h : isDowngrade a b = true) :
    isDowngrade b a = false :=
  Bool.eq_false_iff.2 fun h' ↦ lt_asymm (isDowngrade_iff.1 h).2.2 (isDowngrade_iff.1 h').2.2

/-- Two downgrades are one. -/
theorem isDowngrade_trans {a b c : JsString} (hab : isDowngrade a b = true)
    (hbc : isDowngrade b c = true) : isDowngrade a c = true := by
  obtain ⟨ha, -, hlt⟩ := isDowngrade_iff.1 hab
  obtain ⟨-, hc, hlt'⟩ := isDowngrade_iff.1 hbc
  exact isDowngrade_iff.2 ⟨ha, hc, hlt'.trans hlt⟩

end EasyBook.Notifications

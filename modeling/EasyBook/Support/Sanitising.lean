import EasyBook.Support.DiscordPayload

/-!
# Sanitised and cut texts

A sanitised text has no fence in it (`free_sanitizeBlock`), for a single line also no line break and
no backtick at its ends, and for a spoiler no spoiler mark. Its surrogates are those of the text it
was made of. Cutting it keeps all that (`Inline.cut`, `Spoiler.cut`).
-/

namespace EasyBook.Support

open JsString
open List (At Free Seam)

variable {s t raw : JsString} {u n : ℕ} {max : ℤ}

/-- A spoiler mark. -/
def spoiler : JsString := List.replicate 2 pipe

/-! ### Blocks -/

/-- Only newlines and carriage returns are touched when the line ends are made one. -/
theorem rewrites_normaliseNewlines (s : JsString) :
    Rewrites (fun u ↦ u = 10 ∨ u = 13) s (normaliseNewlines s) := by
  have hbreak {r s t : JsString} (hr : r ≠ []) (hP : ∀ u ∈ r, u = 10 ∨ u = 13)
      (h : Rewrites (fun u ↦ u = 10 ∨ u = 13) s t) :
      Rewrites (fun u ↦ u = 10 ∨ u = 13) (r ++ s) ([10] ++ t) :=
    .run hr (by simp) hP (by simp) h
  induction s using normaliseNewlines.induct with
  | case1 => exact .nil
  | case2 u =>
    rw [normaliseNewlines]
    split_ifs with hu
    · exact hbreak (r := [u]) (by simp) (by simp [hu]) .nil
    · exact .keep u .nil
  | case3 s ih =>
    exact hbreak (r := [13, 10]) (by simp) (by simp) ih
  | case4 v s hv ih =>
    rw [normaliseNewlines, if_pos rfl, if_neg hv]
    exact hbreak (r := [13]) (by simp) (by simp) ih
  | case5 u v s hu ih =>
    rw [normaliseNewlines, if_neg hu]
    exact .keep u ih

/-- No carriage return survives, alone or before a newline. -/
theorem not_mem_normaliseNewlines (s : JsString) : 13 ∉ normaliseNewlines s := by
  induction s using normaliseNewlines.induct with
  | case1 => simp [normaliseNewlines]
  | case2 u =>
    rw [normaliseNewlines]
    split_ifs with hu
    · simp
    · simpa using Ne.symm hu
  | case3 s ih => simpa [normaliseNewlines] using ih
  | case4 v s hv ih =>
    rw [normaliseNewlines, if_pos rfl, if_neg hv]
    simpa using ih
  | case5 u v s hu ih =>
    rw [normaliseNewlines, if_neg hu]
    simpa [Ne.symm hu] using ih

/-- What stands between the units is the only thing that interspersing adds. -/
theorem mem_of_mem_intersperse {z : ℕ} (h : u ∈ s.intersperse z) : u ∈ s ∨ u = z := by
  induction s with
  | nil => exact .inl h
  | cons x s ih =>
    cases s with
    | nil => exact .inl h
    | cons y s =>
      rw [List.intersperse_cons_cons, List.mem_cons, List.mem_cons] at h
      rcases h with rfl | rfl | h
      · exact .inl (List.mem_cons_self ..)
      · exact .inr rfl
      · exact (ih h).imp_left (List.mem_cons_of_mem _)

/-- Two of a character do not stand together where another one stands between any two. -/
theorem free_intersperse {z c : ℕ} (hz : z ≠ c) :
    Free (List.replicate 2 c) (s.intersperse z) := by
  have hsingle (x : ℕ) : Free (List.replicate 2 c) [x] :=
    List.free_iff.2 fun h ↦ by simpa using h.length_le
  induction s with
  | nil => exact List.free_nil (by simp)
  | cons x s ih =>
    cases s with
    | nil => exact hsingle x
    | cons y s =>
      have hseam : Seam c [x] (z :: (y :: s).intersperse z) := .of_head (by simpa using hz)
      rw [List.intersperse_cons_cons, ← List.singleton_append, List.free_append hseam,
        List.free_cons hz]
      exact ⟨hsingle x, ih⟩

/-- Breaking a run of backticks adds nothing but zero-width spaces. -/
theorem mem_breakRun (h : u ∈ breakRun s) : u ∈ s ∨ u = zwsp := by
  unfold breakRun at h
  split_ifs at h
  · exact mem_of_mem_intersperse h
  · exact .inl h

/-- A run that is broken is still there. -/
theorem breakRun_ne_nil (h : s ≠ []) : breakRun s ≠ [] := by
  unfold breakRun
  split_ifs
  · match s with
    | [] => exact absurd rfl h
    | [x] => simp
    | x :: y :: s => simp
  · exact h

/-- No fence is left of a run of backticks. -/
theorem free_breakRun (s : JsString) : Free fence (breakRun s) := by
  unfold breakRun
  split_ifs with hlong
  · have hpair : Free (List.replicate 2 backtick) (s.intersperse zwsp) :=
      free_intersperse (by decide)
    refine List.free_iff.2 fun h ↦ List.free_iff.1 hpair ?_
    exact (List.prefix_append (List.replicate 2 backtick) [backtick]).isInfix.trans h
  · refine List.free_iff.2 fun hsub ↦ hlong ?_
    exact hsub.length_le

/-- Outside the runs of backticks the text is as it was. -/
theorem rewrites_breakRuns (s : JsString) : Rewrites (fun u ↦ u = backtick ∨ u = zwsp) s
    (replaceRuns (· == backtick) breakRun [] s) := by
  refine rewrites_replaceRuns (fun r hr hall ↦ ?_) [] (fun _ h ↦ nomatch h) s
  refine ⟨breakRun_ne_nil hr, fun u hu ↦ .inl (by simpa using hall u hu), fun u hu ↦ ?_⟩
  exact (mem_breakRun hu).imp_left fun h ↦ by simpa using hall u h

/-- A code block keeps every visible character of its text, in order. -/
theorem wide_sanitizeBlock : wide (sanitizeBlock s) = wide s := by
  rw [sanitizeBlock, (rewrites_breakRuns _).wide_eq (by rintro u (rfl | rfl) <;> decide),
    (rewrites_normaliseNewlines s).wide_eq (by rintro u (rfl | rfl) <;> decide)]

/-- No fence is left in a code block, so nothing in the text can end it. -/
theorem free_sanitizeBlock : Free fence (sanitizeBlock s) :=
  free_replaceRuns (fun r _ ↦ free_breakRun r) [] (fun _ h ↦ nomatch h) _

/-- No carriage return is left in a code block. -/
theorem not_mem_sanitizeBlock : 13 ∉ sanitizeBlock s := by
  intro h
  rcases mem_replaceRuns h (fun _ h ↦ nomatch h) with ⟨h, -⟩ | ⟨r, -, hall, h⟩
  · exact not_mem_normaliseNewlines s h
  · rcases mem_breakRun h with h | h
    · exact absurd (hall 13 h) (by decide)
    · exact absurd h (by decide)

/-! ### Lines -/

/-- Putting a text on one line touches its newlines only. -/
theorem rewrites_newlines (s : JsString) : Rewrites (fun u ↦ u = 10 ∨ u = 0x20) s
    (replaceRuns (· == 10) (fun _ ↦ [0x20]) [] s) := by
  refine rewrites_replaceRuns (fun r _ hall ↦ ?_) [] (fun _ h ↦ nomatch h) s
  exact ⟨by simp, fun u hu ↦ .inl (by simpa using hall u hu), by simp⟩

/-- A text for a line. -/
structure Line (raw t : JsString) : Prop where
  wide : wide t <+: wide raw
  free : Free fence t
  no_newline : 10 ∉ t ∧ 13 ∉ t

/-- A text for a line that touches no fence. -/
structure Inline (raw t : JsString) : Prop extends Line raw t where
  head : t.head? ≠ some backtick
  last : t.getLast? ≠ some backtick

/-- An inline text without a spoiler mark. -/
structure Spoiler (raw t : JsString) : Prop extends Inline raw t where
  closed : Free spoiler t

/-- The text on one line is a line of what was written. -/
theorem line_oneLine (s : JsString) : Line s (oneLine s) where
  wide := by
    rw [oneLine, wide_trim, (rewrites_newlines _).wide_eq (by rintro u (rfl | rfl) <;> decide),
      wide_sanitizeBlock]
  free := by
    have hfree := (rewrites_newlines (sanitizeBlock s)).free (c := backtick) (n := 2)
      (by rintro u (rfl | rfl) <;> decide) free_sanitizeBlock
    exact hfree.mono trim_isInfix
  no_newline := by
    have hmem {u : ℕ} (hu : u ∈ oneLine s) : u ∈ sanitizeBlock s ∧ u ≠ 10 ∨ u = 0x20 := by
      rcases mem_replaceRuns (mem_of_mem_trim hu) (fun _ h ↦ nomatch h) with ⟨h, hne⟩ | ⟨r, -, -, h⟩
      · exact .inl ⟨h, by simpa using hne⟩
      · exact .inr (List.mem_singleton.mp h)
    constructor
    · exact fun h ↦ (hmem h).elim (fun h ↦ h.2 rfl) (by decide)
    · exact fun h ↦ (hmem h).elim (fun h ↦ not_mem_sanitizeBlock h.1) (by decide)

/-- A zero-width space before a line leaves it a line. -/
theorem Line.cons (h : Line raw t) : Line raw (zwsp :: t) where
  wide := by
    rw [wide_cons_of_plain (by decide)]
    exact h.wide
  free := (List.free_cons (by decide)).2 h.free
  no_newline := by simpa [zwsp] using h.no_newline

/-- A zero-width space after a line leaves it a line. -/
theorem Line.concat (h : Line raw t) : Line raw (t ++ [zwsp]) where
  wide := by
    rw [wide_append_plain (by decide)]
    exact h.wide
  free := (List.free_append (.of_head (by decide))).2 ⟨h.free, List.free_singleton (by decide)⟩
  no_newline := by simpa [zwsp] using h.no_newline

/-- A text made for inline code is one line of what was written and has no backtick at either
end. -/
theorem inline_sanitizeInline (s : JsString) : Inline s (sanitizeInline s) := by
  -- First the front of the text, then its end.
  have hfront : ∃ t, t = (if (oneLine s).head? = some backtick then zwsp :: oneLine s
      else oneLine s) ∧ Line s t ∧ t.head? ≠ some backtick := by
    refine ⟨_, rfl, ?_⟩
    split_ifs with hhead
    · exact ⟨(line_oneLine s).cons, by simpa using (by decide : zwsp ≠ backtick)⟩
    · exact ⟨line_oneLine s, hhead⟩
  obtain ⟨t, ht, hline, hhead⟩ := hfront
  rw [sanitizeInline, ← ht]
  split_ifs with hlast
  · have hne : t ≠ [] := fun hnil ↦ by simp [hnil] at hlast
    exact { hline.concat with
      head := by rwa [List.head?_append_of_ne_nil _ hne]
      last := by simpa using (by decide : zwsp ≠ backtick) }
  · exact { hline with head := hhead, last := hlast }

/-! ### Spoilers -/

/-- Breaking the double pipes touches the pipes only. -/
theorem rewrites_breakPipes (s : JsString) :
    Rewrites (fun u ↦ u = pipe ∨ u = zwsp) s (breakPipes s) := by
  induction s using breakPipes.induct with
  | case1 => exact .nil
  | case2 u => exact .keep u .nil
  | case3 u v s huv ih =>
    rw [breakPipes, if_pos huv, huv.1]
    exact @Rewrites.run _ [pipe] [pipe, zwsp] _ _ (by simp) (by simp) (by simp) (by simp) ih
  | case4 u v s huv ih =>
    rw [breakPipes, if_neg huv]
    exact .keep u ih

/-- Breaking the double pipes adds nothing but zero-width spaces. -/
theorem mem_breakPipes (h : u ∈ breakPipes s) : u ∈ s ∨ u = zwsp := by
  induction s using breakPipes.induct with
  | case1 => exact .inl h
  | case2 v => exact .inl h
  | case3 v w s hvw ih =>
    rw [breakPipes, if_pos hvw, ← hvw.1, List.mem_cons, List.mem_cons] at h
    rcases h with rfl | rfl | h
    · exact .inl (List.mem_cons_self ..)
    · exact .inr rfl
    · exact (ih h).imp_left (List.mem_cons_of_mem _)
  | case4 v w s hvw ih =>
    rw [breakPipes, if_neg hvw, List.mem_cons] at h
    rcases h with rfl | h
    · exact .inl (List.mem_cons_self ..)
    · exact (ih h).imp_left (List.mem_cons_of_mem _)

/-- The first unit stays the first. -/
theorem head?_breakPipes (s : JsString) : (breakPipes s).head? = s.head? := by
  match s with
  | [] => rfl
  | [u] => rfl
  | u :: v :: s =>
    rw [breakPipes]
    split_ifs with huv
    · rw [huv.1]
      rfl
    · rfl

/-- The last unit stays the last. -/
theorem getLast?_breakPipes (s : JsString) : (breakPipes s).getLast? = s.getLast? := by
  have hne (v : ℕ) (s : JsString) : breakPipes (v :: s) ≠ [] := fun hnil ↦ by
    have := head?_breakPipes (v :: s)
    rw [hnil] at this
    cases this
  induction s using breakPipes.induct with
  | case1 => rfl
  | case2 u => rfl
  | case3 u v s huv ih =>
    rw [breakPipes, if_pos huv, List.getLast?_cons_cons, List.getLast?_cons_cons, ← ih]
    obtain ⟨x, t, ht⟩ := List.exists_cons_of_ne_nil (hne v s)
    rw [ht, List.getLast?_cons_cons]
  | case4 u v s huv ih =>
    rw [breakPipes, if_neg huv, List.getLast?_cons_cons, ← ih]
    obtain ⟨x, t, ht⟩ := List.exists_cons_of_ne_nil (hne v s)
    rw [ht, List.getLast?_cons_cons]

/-- No two pipes stand next to each other afterwards. -/
theorem free_breakPipes (s : JsString) : Free spoiler (breakPipes s) := by
  have hsingle (u : ℕ) : Free spoiler [u] :=
    List.free_iff.2 fun h ↦ by simpa [spoiler] using h.length_le
  have hseam {u : ℕ} {t : JsString} (h : ¬ (u = pipe ∧ t.head? = some pipe)) : Seam pipe [u] t :=
    fun hu ht ↦ h ⟨by simpa using hu, ht⟩
  induction s using breakPipes.induct with
  | case1 => exact List.free_nil (by decide)
  | case2 u => exact hsingle u
  | case3 u v s huv ih =>
    have hmeet : Seam pipe [pipe] (zwsp :: breakPipes (v :: s)) :=
      .of_head (by simpa using (by decide : zwsp ≠ pipe))
    rw [breakPipes, if_pos huv]
    exact (List.free_append hmeet).2 ⟨hsingle pipe, (List.free_cons (by decide)).2 ih⟩
  | case4 u v s huv ih =>
    have hhead : ¬ (u = pipe ∧ (breakPipes (v :: s)).head? = some pipe) := by
      rw [head?_breakPipes]
      simpa using huv
    rw [breakPipes, if_neg huv]
    exact (List.free_append (hseam hhead)).2 ⟨hsingle u, ih⟩

/-- A text made for a spoiler cannot close it: no double pipe is in it, and none forms at its ends.
-/
theorem spoiler_sanitizeSpoiler (s : JsString) : Spoiler s (sanitizeSpoiler s) := by
  have h := inline_sanitizeInline s
  exact {
    wide := by
      rw [sanitizeSpoiler, (rewrites_breakPipes _).wide_eq (by rintro u (rfl | rfl) <;> decide)]
      exact h.wide
    free := (rewrites_breakPipes _).free (by rintro u (rfl | rfl) <;> decide) h.free
    no_newline := ⟨fun hu ↦ (mem_breakPipes hu).elim h.no_newline.1 (by decide),
      fun hu ↦ (mem_breakPipes hu).elim h.no_newline.2 (by decide)⟩
    head := by
      rw [sanitizeSpoiler, head?_breakPipes]
      exact h.head
    last := by
      rw [sanitizeSpoiler, getLast?_breakPipes]
      exact h.last
    closed := free_breakPipes _ }

/-! ### Cutting -/

/-- A text that is too long is cut, but not within a pair. -/
theorem truncateText_cases (hmax : 0 < max) (s : JsString) :
    truncateText s max = s ∧ s.length ≤ max ∨
      max < s.length ∧ ∃ cut rest, s = cut ++ rest ∧ NoPair cut rest ∧
        truncateText s max = cut ++ [ellipsis] ∧ cut.length + 1 ≤ max ∧ max ≤ cut.length + 2 := by
  rw [truncateText, if_neg hmax.not_ge]
  rcases le_or_gt (s.length : ℤ) max with hfits | hlong
  · exact .inl ⟨if_pos hfits, hfits⟩
  have hlen : ((s.take (max - 1).toNat).length : ℤ) = max - 1 := by
    rw [List.length_take]
    omega
  rw [if_neg hlong.not_ge]
  refine .inr ⟨hlong, ?_⟩
  dsimp only
  split_ifs with hlast
  · obtain ⟨last, hlast, hhigh⟩ := hlast
    obtain ⟨cut, hcut⟩ := List.getLast?_eq_some_iff.mp hlast
    have hlow : NoPair cut (last :: s.drop (max - 1).toNat) := by
      refine noPair_of_head fun v hv ↦ ?_
      cases hv
      unfold High at hhigh
      unfold Low
      omega
    rw [hcut, List.length_append, List.length_singleton] at hlen
    refine ⟨cut, last :: s.drop (max - 1).toNat, ?_, hlow, ?_, by omega, by omega⟩
    · calc s = s.take (max - 1).toNat ++ s.drop (max - 1).toNat := (List.take_append_drop ..).symm
        _ = cut ++ last :: s.drop (max - 1).toNat := by rw [hcut, List.append_assoc]; rfl
    · rw [hcut, List.dropLast_concat]
  · exact ⟨s.take (max - 1).toNat, s.drop (max - 1).toNat, (List.take_append_drop ..).symm,
      noPair_of_last fun u hu hu' ↦ hlast ⟨u, hu, hu'⟩, rfl, by omega, by omega⟩

/-- A cut text is within its limit, the ellipsis counted. -/
theorem length_truncateText_le (hmax : 0 ≤ max) : ((truncateText s max).length : ℤ) ≤ max := by
  rcases hmax.eq_or_lt with rfl | hmax
  · simp [truncateText]
  · rcases truncateText_cases hmax s with ⟨h, hle⟩ | ⟨-, cut, rest, -, -, h, hle, -⟩
    · rwa [h]
    · rw [h, List.length_append, List.length_singleton]
      omega

/-- What is left of a cut text is a start of it; the ellipsis is the only character added. -/
theorem wide_truncateText : wide (truncateText s max) <+: wide s := by
  rcases le_or_gt max 0 with hmax | hmax
  · rw [truncateText, if_pos hmax]
    exact List.nil_prefix
  · rcases truncateText_cases hmax s with ⟨h, -⟩ | ⟨-, cut, rest, hs, hpair, h, -⟩
    · rw [h]
    · rw [h, wide_append_plain (by decide), hs, wide_append hpair]
      exact List.prefix_append _ _

/-- A text that has something in it is not cut down to nothing. -/
theorem truncateText_ne_nil (hmax : 0 < max) (hs : s ≠ []) : truncateText s max ≠ [] := by
  rcases truncateText_cases hmax s with ⟨h, -⟩ | ⟨-, cut, rest, -, -, h, -⟩
  · rwa [h]
  · simp [h]

/-- A cut makes no run of a character that was not there, for the ellipsis is another one. -/
theorem free_truncateText {c : ℕ} (hc : c ≠ ellipsis) (h : Free (List.replicate (n + 1) c) s) :
    Free (List.replicate (n + 1) c) (truncateText s max) := by
  rcases le_or_gt max 0 with hmax | hmax
  · rw [truncateText, if_pos hmax]
    exact List.free_nil (by simp)
  · rcases truncateText_cases hmax s with ⟨ht, -⟩ | ⟨-, cut, rest, hs, -, ht, -⟩
    · rwa [ht]
    · rw [ht, List.free_append (.of_head (by simpa using hc.symm))]
      exact ⟨h.mono (hs ▸ (List.prefix_append cut rest).isInfix), List.free_singleton hc.symm⟩

/-- A cut adds nothing but the ellipsis. -/
theorem mem_truncateText (h : u ∈ truncateText s max) : u ∈ s ∨ u = ellipsis := by
  rcases le_or_gt max 0 with hmax | hmax
  · rw [truncateText, if_pos hmax] at h
    cases h
  · rcases truncateText_cases hmax s with ⟨ht, -⟩ | ⟨-, cut, rest, hs, -, ht, -⟩
    · exact .inl (ht ▸ h)
    · rw [ht, List.mem_append, List.mem_singleton] at h
      exact h.imp_left fun h ↦ hs ▸ List.mem_append_left rest h

/-- Inline code stays harmless when it is cut. -/
theorem Inline.cut (h : Inline raw s) (hmax : 3 ≤ max) : Inline raw (truncateText s max) where
  wide := wide_truncateText.trans h.wide
  free := free_truncateText (by decide) h.free
  no_newline := ⟨fun hu ↦ (mem_truncateText hu).elim h.no_newline.1 (by decide),
    fun hu ↦ (mem_truncateText hu).elim h.no_newline.2 (by decide)⟩
  head := by
    rcases truncateText_cases (by omega : 0 < max) s with
      ⟨ht, -⟩ | ⟨-, cut, rest, hs, -, ht, -, hlen⟩
    · rw [ht]
      exact h.head
    · have hne : cut ≠ [] := fun hnil ↦ by
        rw [hnil, List.length_nil] at hlen
        omega
      have hhead := h.head
      rw [hs, List.head?_append_of_ne_nil _ hne] at hhead
      rwa [ht, List.head?_append_of_ne_nil _ hne]
  last := by
    rcases truncateText_cases (by omega : 0 < max) s with ⟨ht, -⟩ | ⟨-, cut, rest, -, -, ht, -⟩
    · rw [ht]
      exact h.last
    · rw [ht, List.getLast?_concat]
      decide

/-- A spoiler stays closed where it should when it is cut. -/
theorem Spoiler.cut (h : Spoiler raw s) (hmax : 3 ≤ max) : Spoiler raw (truncateText s max) :=
  { h.toInline.cut hmax with closed := free_truncateText (by decide) h.closed }

/-! ### Fallbacks -/

/-- A constant that stands in for an empty text. -/
def Harmless (t : JsString) : Prop :=
  t ≠ [] ∧ ∀ u ∈ t, Plain u ∧ u ≠ backtick ∧ u ≠ pipe ∧ u ≠ 10 ∧ u ≠ 13

instance : DecidablePred Harmless := fun t ↦ inferInstanceAs (Decidable (t ≠ [] ∧ ∀ u ∈ t, _))

/-- A harmless text of the program's own may stand in a spoiler. -/
theorem Harmless.spoiler (h : Harmless t) (raw : JsString) : Spoiler raw t where
  wide := by
    rw [wide_of_plain fun u hu ↦ (h.2 u hu).1]
    exact List.nil_prefix
  free := List.free_iff.2 fun hsub ↦
    (h.2 backtick (hsub.subset (List.mem_cons_self ..))).2.1 rfl
  no_newline := ⟨fun hu ↦ (h.2 _ hu).2.2.2.1 rfl, fun hu ↦ (h.2 _ hu).2.2.2.2 rfl⟩
  head := fun hu ↦ (h.2 _ (List.mem_of_head? hu)).2.1 rfl
  last := fun hu ↦ (h.2 _ (List.mem_of_getLast? hu)).2.1 rfl
  closed := List.free_iff.2 fun hsub ↦ (h.2 pipe (hsub.subset (List.mem_cons_self ..))).2.2.1 rfl

/-- With a harmless text to fall back on, the field is never empty. -/
theorem orElse_ne_nil (h : Harmless t) : orElse s t ≠ [] := by
  unfold orElse
  split_ifs with hs
  · exact h.1
  · exact hs

/-- What is written for an inline field is the text or the one it falls back on. -/
theorem Inline.orElse (h : Inline raw s) (ht : Harmless t) : Inline raw (orElse s t) := by
  unfold Support.orElse
  split_ifs
  · exact (ht.spoiler raw).toInline
  · exact h

/-- What is written for a spoiler is the text or the one it falls back on. -/
theorem Spoiler.orElse (h : Spoiler raw s) (ht : Harmless t) : Spoiler raw (orElse s t) := by
  unfold Support.orElse
  split_ifs
  · exact ht.spoiler raw
  · exact h

end EasyBook.Support

import EasyBook.Ecma.Normalize
import EasyBook.Ecma.Replace
import EasyBook.Ecma.Trim

/-!
# The Thai sanitiser

`sanitizeThaiText` rewrites four pairs of characters, each in one pass, removes the zero-width
characters, normalises and trims. The passes come before the removal and none is repeated, so a pair
that is put together by a later step, or by its own pass, stays as it is.

`normalForm_iff` says for which texts the sanitiser is a normal form: nothing in them is to be
rewritten, but for marks that NFC exchanges as well.
-/

namespace EasyBook.Thai

open JsString

/-! ### The function -/

/-- `DOUBLE_SARA_E`, replaced by SARA AE. -/
def doubleSaraE (x y : ℕ) : Option JsString :=
  if x = 0x0E40 ∧ y = 0x0E40 then some [0x0E41] else none

/-- `NIKHAHIT_SARA_AA`, replaced by SARA AM. -/
def nikhahitSaraAa (x y : ℕ) : Option JsString :=
  if x = 0x0E4D ∧ y = 0x0E32 then some [0x0E33] else none

/-- `TONE_BEFORE_VOWEL`, replaced by the vowel and the tone. -/
def toneBeforeVowel (x y : ℕ) : Option JsString :=
  if (0x0E48 ≤ x ∧ x ≤ 0x0E4C) ∧ (y = 0x0E31 ∨ 0x0E34 ≤ y ∧ y ≤ 0x0E39 ∨ y = 0x0E47) then
    some [y, x]
  else none

/-- `SARA_AM_BEFORE_TONE`, replaced by the tone and SARA AM. -/
def saraAmBeforeTone (x y : ℕ) : Option JsString :=
  if x = 0x0E33 ∧ 0x0E48 ≤ y ∧ y ≤ 0x0E4B then some [y, x] else none

/-- The four rewrites. -/
def rewrite (value : JsString) : JsString :=
  replacePairs saraAmBeforeTone (replacePairs toneBeforeVowel
    (replacePairs nikhahitSaraAa (replacePairs doubleSaraE value)))

/-- `.replace(ZERO_WIDTH, '')`. -/
def stripZeroWidth (value : JsString) : JsString := value.filter fun u ↦ decide (¬ ZeroWidth u)

/-- `.replace(NBSP, ' ')`. -/
def replaceNbsp (value : JsString) : JsString := value.map fun u ↦ if u = 0xA0 then 0x20 else u

/-- The text without invisible characters. -/
def plain (value : JsString) : JsString := replaceNbsp (stripZeroWidth value)

/-- `sanitizeThaiText` of a string; `nfc` is `normalize('NFC')`. -/
def sanitizeThaiText (nfc : JsString → JsString) (value : JsString) : JsString :=
  trim (nfc (plain (rewrite value)))

/-! ### Texts with nothing to rewrite -/

/-- A pair that is exchanged, and not by NFC. -/
def Swaps (x y : ℕ) : Prop :=
  (toneBeforeVowel x y ≠ none ∧ ¬ Precedes thaiClass y x) ∨ saraAmBeforeTone x y ≠ none

/-- A pair that is rewritten, and not by NFC. -/
def Rewritten (x y : ℕ) : Prop :=
  doubleSaraE x y ≠ none ∨ nikhahitSaraAa x y ≠ none ∨ Swaps x y

instance : DecidableRel Swaps := fun _ _ ↦ inferInstanceAs (Decidable (_ ∨ _))

instance : DecidableRel Rewritten := fun _ _ ↦ inferInstanceAs (Decidable (_ ∨ _))

/-- A text with no such pair. -/
def Settled (s : JsString) : Prop := s.IsChain fun x y ↦ ¬ Rewritten x y

instance (s : JsString) : Decidable (Settled s) := inferInstanceAs (Decidable (s.IsChain _))

/-- What is asked of the sanitiser at a text. -/
structure NormalForm (nfc : JsString → JsString) (s : JsString) : Prop where
  idem : sanitizeThaiText nfc (sanitizeThaiText nfc s) = sanitizeThaiText nfc s
  length_le : (∀ u ∈ s, ThaiText u) → (sanitizeThaiText nfc s).length ≤ s.length
  zeroWidth : ∀ t, stripZeroWidth t = stripZeroWidth s →
    sanitizeThaiText nfc t = sanitizeThaiText nfc s

/-! ### The rules -/

variable {s t : JsString} {x y : ℕ} {r : JsString}

/-- Two SARA E become one SARA AE. -/
theorem doubleSaraE_eq (h : doubleSaraE x y = some r) :
    x = 0x0E40 ∧ y = 0x0E40 ∧ r = [0x0E41] := by
  unfold doubleSaraE at h
  split_ifs at h with hxy
  exact ⟨hxy.1, hxy.2, (Option.some.inj h).symm⟩

/-- NIKHAHIT and SARA AA become one SARA AM. -/
theorem nikhahitSaraAa_eq (h : nikhahitSaraAa x y = some r) :
    x = 0x0E4D ∧ y = 0x0E32 ∧ r = [0x0E33] := by
  unfold nikhahitSaraAa at h
  split_ifs at h with hxy
  exact ⟨hxy.1, hxy.2, (Option.some.inj h).symm⟩

/-- A tone mark before an upper or lower vowel changes places with it. -/
theorem toneBeforeVowel_eq (h : toneBeforeVowel x y = some r) :
    (0x0E48 ≤ x ∧ x ≤ 0x0E4C) ∧ (y = 0x0E31 ∨ 0x0E34 ≤ y ∧ y ≤ 0x0E39 ∨ y = 0x0E47) ∧
      r = [y, x] := by
  unfold toneBeforeVowel at h
  split_ifs at h with hxy
  exact ⟨hxy.1, hxy.2, (Option.some.inj h).symm⟩

/-- SARA AM before a tone mark changes places with it. -/
theorem saraAmBeforeTone_eq (h : saraAmBeforeTone x y = some r) :
    x = 0x0E33 ∧ (0x0E48 ≤ y ∧ y ≤ 0x0E4B) ∧ r = [y, x] := by
  unfold saraAmBeforeTone at h
  split_ifs at h with hxy
  exact ⟨hxy.1, hxy.2, (Option.some.inj h).symm⟩

/-- A rule that is about Thai characters only. -/
def ThaiRule (rule : ℕ → ℕ → Option JsString) : Prop :=
  ∀ x y r, rule x y = some r → Thai x ∧ Thai y ∧ (∀ u ∈ r, Thai u) ∧ r.length ≤ 2

/-- The first rule reads and writes Thai only. -/
theorem thaiRule_doubleSaraE : ThaiRule doubleSaraE := by
  intro x y r h
  obtain ⟨rfl, rfl, rfl⟩ := doubleSaraE_eq h
  decide

/-- So does the second. -/
theorem thaiRule_nikhahitSaraAa : ThaiRule nikhahitSaraAa := by
  intro x y r h
  obtain ⟨rfl, rfl, rfl⟩ := nikhahitSaraAa_eq h
  decide

/-- A pair of Thai units that change places. -/
private theorem thai_pair (hx : Thai x) (hy : Thai y) :
    Thai x ∧ Thai y ∧ (∀ u ∈ [y, x], Thai u) ∧ [y, x].length ≤ 2 :=
  ⟨hx, hy, List.forall_mem_cons.2 ⟨hy, List.forall_mem_singleton.2 hx⟩, le_rfl⟩

/-- So does the third. -/
theorem thaiRule_toneBeforeVowel : ThaiRule toneBeforeVowel := by
  intro x y r h
  obtain ⟨hx, hy, rfl⟩ := toneBeforeVowel_eq h
  exact thai_pair ⟨by omega, by omega⟩ ⟨by omega, by omega⟩

/-- So does the fourth. -/
theorem thaiRule_saraAmBeforeTone : ThaiRule saraAmBeforeTone := by
  intro x y r h
  obtain ⟨rfl, hy, rfl⟩ := saraAmBeforeTone_eq h
  exact thai_pair (by decide) ⟨by omega, by omega⟩

/-- A rule passes over a pair that does not begin with a Thai unit. -/
theorem ThaiRule.none_left {rule : ℕ → ℕ → Option JsString} (h : ThaiRule rule) (hx : ¬ Thai x) :
    rule x y = none := by
  cases hr : rule x y with
  | none => rfl
  | some r => exact absurd (h x y r hr).1 hx

/-- It passes over a pair that does not end with one. -/
theorem ThaiRule.none_right {rule : ℕ → ℕ → Option JsString} (h : ThaiRule rule)
    (hy : ¬ Thai y) : rule x y = none := by
  cases hr : rule x y with
  | none => rfl
  | some r => exact absurd (h x y r hr).2.1 hy

/-- The third rule exchanges neighbours that are in the wrong order, one pair at a time. -/
theorem exchanges_toneBeforeVowel : Exchanges Swaps toneBeforeVowel where
  swap x y r h := (toneBeforeVowel_eq h).2.2
  back x y r h hback := by
    obtain ⟨hx, hy, -⟩ := toneBeforeVowel_eq h
    rcases hback with ⟨hback, -⟩ | hback <;>
      obtain ⟨r', hr'⟩ := Option.ne_none_iff_exists'.1 hback
    · have htone := (toneBeforeVowel_eq hr').1
      omega
    · have ham := (saraAmBeforeTone_eq hr').1
      omega
  apart x y r z h := by
    obtain ⟨hx, hy, -⟩ := toneBeforeVowel_eq h
    exact if_neg fun hyz ↦ by omega

/-- So does the fourth. -/
theorem exchanges_saraAmBeforeTone : Exchanges Swaps saraAmBeforeTone where
  swap x y r h := (saraAmBeforeTone_eq h).2.2
  back x y r h hback := by
    obtain ⟨hx, hy, -⟩ := saraAmBeforeTone_eq h
    rcases hback with ⟨hback, -⟩ | hback <;>
      obtain ⟨r', hr'⟩ := Option.ne_none_iff_exists'.1 hback
    · have hvowel := (toneBeforeVowel_eq hr').2.1
      omega
    · have ham := (saraAmBeforeTone_eq hr').1
      omega
  apart x y r z h := by
    obtain ⟨hx, hy, -⟩ := saraAmBeforeTone_eq h
    exact if_neg fun hyz ↦ by omega

/-- One of the two characters that are exchanged is passed by nothing in NFC. -/
theorem Swaps.inert (h : Swaps x y) : Thai x ∧ Thai y ∧ (Inert x ∨ Inert y) := by
  rcases h with ⟨h, hprec⟩ | h <;> obtain ⟨r, hr⟩ := Option.ne_none_iff_exists'.1 h
  · obtain ⟨hx, hy, -⟩ := thaiRule_toneBeforeVowel x y r hr
    obtain ⟨hx', hy', -⟩ := toneBeforeVowel_eq hr
    refine ⟨hx, hy, ?_⟩
    by_contra hnot
    obtain ⟨hxi, hyi⟩ := not_or.1 hnot
    have hclass (u : ℕ) (hu : Thai u) (hui : ¬ Inert u) : thaiClass u ≠ 0 :=
      fun hzero ↦ hui (.inl ⟨hu, hzero⟩)
    have hcx := hclass x hx hxi
    have hcy := hclass y hy hyi
    refine hprec ⟨Nat.pos_of_ne_zero hcy, ?_⟩
    unfold thaiClass at *
    split_ifs at * <;> omega
  · obtain ⟨rfl, hy, -⟩ := saraAmBeforeTone_eq hr
    exact ⟨by decide, ⟨by omega, by omega⟩, .inl (by decide)⟩

/-! ### What the later steps cannot change -/

/-- What the rewrites take away: the SARA E, the SARA AA and the pairs that are out of order. -/
def key (s : JsString) : ℕ × ℕ × ℕ := (s.count 0x0E40, s.count 0x0E32, inversions Swaps s)

/-- The Thai characters of a text. -/
def letters (s : JsString) : JsString := s.filter fun u ↦ decide (Thai u)

/-- A Thai unit is as often among the letters as in the text. -/
theorem count_letters {c : ℕ} (hc : Thai c) : (letters s).count c = s.count c :=
  List.count_filter (by exact decide_eq_true hc)

/-- Only Thai units are ever out of order. -/
private theorem swaps_thai (x y : ℕ) (h : Swaps x y) : decide (Thai x) ∧ decide (Thai y) :=
  ⟨decide_eq_true h.inert.1, decide_eq_true h.inert.2.1⟩

/-- The key of a text is a matter of its Thai letters. -/
theorem key_of_letters (h : letters s = letters t) : key s = key t := by
  have hcount (c : ℕ) (hc : Thai c) : s.count c = t.count c := by
    rw [← count_letters hc, h, count_letters hc]
  have hinversions : inversions Swaps s = inversions Swaps t := by
    rw [← inversions_filter swaps_thai, ← inversions_filter (s := t) swaps_thai]
    exact congrArg (inversions Swaps) h
  rw [key, key, hcount _ (by decide), hcount _ (by decide), hinversions]

/-- The letters of two texts after each other. -/
theorem letters_append : letters (s ++ t) = letters s ++ letters t := List.filter_append ..

/-- A text without Thai has no letters. -/
theorem letters_eq_nil (h : ∀ u ∈ s, ¬ Thai u) : letters s = [] :=
  List.filter_eq_nil_iff.2 fun u hu hthai ↦ h u hu (of_decide_eq_true hthai)

/-- White space is not Thai. -/
theorem not_thai_of_isWhiteSpace {u : ℕ} (h : isWhiteSpace u) : ¬ Thai u := by
  simp only [isWhiteSpace, Bool.or_eq_true, Bool.and_eq_true, decide_eq_true_eq, beq_iff_eq] at h
  unfold Thai
  omega

/-- Trimming takes no letter. -/
theorem letters_trim : letters (trim s) = letters s := by
  obtain ⟨a, b, hs, ha, hb⟩ := exists_trim s
  have ha : letters a = [] := letters_eq_nil fun u hu ↦ not_thai_of_isWhiteSpace (ha u hu)
  have hb : letters b = [] := letters_eq_nil fun u hu ↦ not_thai_of_isWhiteSpace (hb u hu)
  conv_rhs => rw [hs, letters_append, letters_append, ha, hb, List.append_nil, List.nil_append]

/-- A Thai unit is not of zero width. -/
theorem not_zeroWidth_of_thai {u : ℕ} (h : Thai u) : ¬ ZeroWidth u := by
  unfold Thai ZeroWidth at *
  omega

/-- Nor does stripping the zero-width units and replacing the hard spaces. -/
theorem letters_plain : letters (plain s) = letters s := by
  induction s with
  | nil => rfl
  | cons u s ih =>
    have hcons (v : ℕ) (s : JsString) :
        letters (v :: s) = (if Thai v then [v] else []) ++ letters s := by
      by_cases hv : Thai v <;> simp [letters, hv]
    by_cases hzero : ZeroWidth u
    · have hplain : plain (u :: s) = plain s := by simp [plain, stripZeroWidth, hzero]
      rw [hplain, ih, hcons, if_neg fun h ↦ not_zeroWidth_of_thai h hzero, List.nil_append]
    · have hplain : plain (u :: s) = (if u = 0xA0 then 0x20 else u) :: plain s := by
        simp [plain, stripZeroWidth, replaceNbsp, hzero]
      rw [hplain, hcons, hcons, ih]
      by_cases hu : u = 0xA0
      · subst hu
        rfl
      · rw [if_neg hu]

variable {nfc : JsString → JsString}

/-- Normalization keeps the letters, in some order. -/
theorem letters_nfc (hnfc : Normalizes nfc) : (letters (nfc s)).Perm (letters s) := by
  refine List.perm_iff_count.2 fun c ↦ ?_
  by_cases hc : Thai c
  · rw [count_letters hc, count_letters hc, hnfc.count s c (.inl hc)]
  · have hzero (s : JsString) : (letters s).count c = 0 :=
      List.count_eq_zero.2 fun h ↦ hc (of_decide_eq_true (List.mem_filter.1 h).2)
    rw [hzero, hzero]

/-- Without an inert character nothing is out of order. -/
theorem inversions_eq_zero (h : ∀ u ∈ s, ¬ Inert u) : inversions Swaps s = 0 := by
  induction s with
  | nil => rfl
  | cons x s ih =>
    obtain ⟨hx, hs⟩ := List.forall_mem_cons.1 h
    have hzero : (s.countP fun y ↦ Swaps x y) = 0 := by
      refine List.countP_eq_zero.2 fun y hy hswaps ↦ ?_
      rcases (of_decide_eq_true hswaps).inert.2.2 with hinert | hinert
      · exact hx hinert
      · exact hs y hy hinert
    rw [inversions, hzero, ih hs]

/-- And keeps how often two of them are out of order. -/
theorem crossings_nfc (hnfc : Normalizes nfc) :
    crossings Swaps (nfc s) (nfc t) = crossings Swaps s t := by
  rw [← crossings_filter swaps_thai, ← crossings_filter (a := s) swaps_thai]
  exact crossings_perm (letters_nfc hnfc) (letters_nfc hnfc)

/-- NFC moves nothing past an inert character, so it leaves the pairs out of order. -/
theorem inversions_nfc (hnfc : Normalizes nfc) (s : JsString) :
    inversions Swaps (nfc s) = inversions Swaps s := by
  induction hn : s.length using Nat.strong_induction_on generalizing s with
  | _ n ih =>
    by_cases h : ∃ c ∈ s, Inert c
    · obtain ⟨c, hc, hinert⟩ := h
      obtain ⟨a, b, rfl⟩ := List.append_of_mem hc
      have hlen : a.length + (b.length + 1) = n := by
        rw [← hn, List.length_append, List.length_cons]
      have hsingle : nfc [c] = [c] := by
        have hnil : nfc [] = [] := by
          refine List.eq_nil_iff_length_eq_zero.2 ?_
          exact (hnfc.perm [] fun u hu ↦ (nomatch hu)).length_eq
        rw [show [c] = [] ++ c :: [] from rfl, hnfc.split [] c [] hinert, hnil]
      have hcb : nfc (c :: b) = [c] ++ nfc b := by
        have hsplit := hnfc.split [] c b hinert
        rw [List.nil_append] at hsplit
        rw [hsplit, (hnfc.perm [] fun u hu ↦ (nomatch hu)).eq_nil]
        rfl
      have hcross : crossings Swaps (nfc a) (c :: nfc b) = crossings Swaps a (c :: b) := by
        rw [← crossings_nfc hnfc (s := a) (t := c :: b), hcb]
        rfl
      have hone : inversions Swaps (c :: nfc b) = inversions Swaps (c :: b) := by
        have hsplit (b : JsString) : inversions Swaps (c :: b) =
            crossings Swaps [c] b + inversions Swaps b := by
          rw [inversions, crossings, List.map_singleton, List.sum_singleton]
        rw [hsplit, hsplit, ih b.length (by omega) b rfl,
          ← crossings_nfc hnfc (s := [c]) (t := b), hsingle]
      rw [hnfc.split a c b hinert, inversions_append, inversions_append,
        ih a.length (by omega) a rfl, hcross, hone]
    · push Not at h
      have hafter : ∀ u ∈ nfc s, ¬ Inert u := fun u hu hinert ↦ by
        have hcount := hnfc.count s u (.inr hinert)
        rw [List.count_eq_zero.2 fun hmem ↦ h u hmem hinert] at hcount
        exact List.count_eq_zero.1 hcount hu
      rw [inversions_eq_zero h, inversions_eq_zero hafter]

/-- **Neither removing invisible characters nor NFC nor trimming does what a rewrite does.** -/
theorem key_sanitize (hnfc : Normalizes nfc) : key (trim (nfc (plain s))) = key s := by
  have hnormal : key (nfc (plain s)) = key (plain s) := by
    rw [key, key, hnfc.count _ _ (.inl (by decide)), hnfc.count _ _ (.inl (by decide)),
      inversions_nfc hnfc]
  rw [key_of_letters letters_trim, hnormal, key_of_letters letters_plain]

/-! ### Settled texts -/

/-- What a rule rewrites is Thai. -/
theorem Rewritten.thai (h : Rewritten x y) : Thai x ∧ Thai y := by
  rcases h with h | h | h
  · obtain ⟨r, hr⟩ := Option.ne_none_iff_exists'.1 h
    exact ⟨(thaiRule_doubleSaraE x y r hr).1, (thaiRule_doubleSaraE x y r hr).2.1⟩
  · obtain ⟨r, hr⟩ := Option.ne_none_iff_exists'.1 h
    exact ⟨(thaiRule_nikhahitSaraAa x y r hr).1, (thaiRule_nikhahitSaraAa x y r hr).2.1⟩
  · exact ⟨h.inert.1, h.inert.2.1⟩

/-- The rule of the tones exchanges only what NFC exchanges. -/
def Light (s : JsString) : Prop :=
  s.IsChain fun x y ↦ toneBeforeVowel x y ≠ none → Precedes thaiClass y x

/-- In a settled text none of the four rules finds a pair. -/
theorem Settled.unmatched (h : Settled s) :
    (s.IsChain fun x y ↦ doubleSaraE x y = none) ∧
      (s.IsChain fun x y ↦ nikhahitSaraAa x y = none) ∧ Light s ∧
      s.IsChain fun x y ↦ saraAmBeforeTone x y = none :=
  ⟨h.imp fun _ _ hxy ↦ not_not.1 fun hne ↦ hxy (.inl hne),
    h.imp fun _ _ hxy ↦ not_not.1 fun hne ↦ hxy (.inr (.inl hne)),
    h.imp fun _ _ hxy hne ↦ not_not.1 fun hprec ↦ hxy (.inr (.inr (.inl ⟨hne, hprec⟩))),
    h.imp fun _ _ hxy ↦ not_not.1 fun hne ↦ hxy (.inr (.inr (.inr hne)))⟩

/-- A pass of the tones ends in the head of its text, or in a vowel. -/
theorem head?_tones {u : ℕ}
    (hu : (replacePairs toneBeforeVowel (y :: s)).head? = some u) :
    u = y ∨ u < 0x0E48 := by
  cases s with
  | nil => exact .inl (Option.some.inj hu).symm
  | cons z s =>
    cases hyz : toneBeforeVowel y z with
    | none =>
      rw [replacePairs_of_none hyz] at hu
      exact .inl (Option.some.inj hu).symm
    | some r =>
      obtain ⟨-, hz, rfl⟩ := toneBeforeVowel_eq hyz
      rw [replacePairs_of_some hyz] at hu
      have huz : z = u := Option.some.inj hu
      exact .inr (by omega)

/-- The pass of the tones puts no tone after a SARA AM. -/
theorem unmatched_tones (h : s.IsChain fun x y ↦ saraAmBeforeTone x y = none) :
    (replacePairs toneBeforeVowel s).IsChain fun x y ↦ saraAmBeforeTone x y = none := by
  induction s using replacePairs_induct toneBeforeVowel with
  | nil => exact h
  | singleton x => exact h
  | matched x y r s hr ih =>
    obtain ⟨hx, hy, rfl⟩ := toneBeforeVowel_eq hr
    rw [replacePairs_of_some hr]
    refine .cons_cons (if_neg fun hyx ↦ by omega) ?_
    have hrest := ih h.tail.tail
    cases hs : replacePairs toneBeforeVowel s with
    | nil => exact .singleton x
    | cons u s' =>
      rw [hs] at hrest
      exact .cons_cons (if_neg fun hxu ↦ by omega) hrest
  | unmatched x y s hr ih =>
    rw [replacePairs_of_none hr]
    have hrest := ih h.tail
    cases hs : replacePairs toneBeforeVowel (y :: s) with
    | nil => exact .singleton x
    | cons u s' =>
      rw [hs] at hrest
      refine .cons_cons ?_ hrest
      rcases head?_tones (y := y) (s := s) (u := u) (by rw [hs]; rfl) with rfl | hu
      · exact (List.isChain_cons_cons.1 h).1
      · exact if_neg fun hxu ↦ by omega

/-- With nothing to rewrite, only the pass of the tones may do something. -/
theorem rewrite_of_unmatched (hdouble : s.IsChain fun x y ↦ doubleSaraE x y = none)
    (hnikhahit : s.IsChain fun x y ↦ nikhahitSaraAa x y = none)
    (ham : s.IsChain fun x y ↦ saraAmBeforeTone x y = none) :
    rewrite s = replacePairs toneBeforeVowel s := by
  rw [rewrite, replacePairs_of_unmatched hdouble, replacePairs_of_unmatched hnikhahit,
    replacePairs_of_unmatched (unmatched_tones ham)]

/-- A Thai unit is left as it is. -/
theorem plain_cons_of_thai (h : Thai x) : plain (x :: s) = x :: plain s := by
  have hnbsp : x ≠ 0xA0 := fun hx ↦ by unfold Thai at h; omega
  simp [plain, stripZeroWidth, replaceNbsp, not_zeroWidth_of_thai h, hnbsp]

/-- `plain` works unit by unit. -/
theorem plain_cons : plain (x :: s) = plain [x] ++ plain s := by
  by_cases hx : ZeroWidth x <;> simp [plain, stripZeroWidth, replaceNbsp, hx]

/-- The exchanges that NFC makes as well are not seen after it. -/
theorem nfc_plain_tones (hnfc : Normalizes nfc) (h : Light s) (a : JsString) :
    nfc (a ++ plain (replacePairs toneBeforeVowel s)) = nfc (a ++ plain s) := by
  induction s using replacePairs_induct toneBeforeVowel generalizing a with
  | nil => rfl
  | singleton x => rfl
  | matched x y r s hr ih =>
    obtain ⟨hx, hy, -⟩ := thaiRule_toneBeforeVowel x y r hr
    have hprec : Precedes thaiClass y x :=
      (List.isChain_cons_cons.1 h).1 fun hnone ↦ (nomatch hnone.symm.trans hr)
    rw [replacePairs_of_some hr, (toneBeforeVowel_eq hr).2.2]
    calc nfc (a ++ plain (y :: x :: replacePairs toneBeforeVowel s))
        = nfc (a ++ y :: x :: plain (replacePairs toneBeforeVowel s)) := by
          rw [plain_cons_of_thai hy, plain_cons_of_thai hx]
      _ = nfc (a ++ [x, y] ++ plain (replacePairs toneBeforeVowel s)) := by
          rw [← hnfc.exchange a x y _ hprec, List.append_assoc]
          rfl
      _ = nfc (a ++ [x, y] ++ plain s) := ih h.tail.tail _
      _ = nfc (a ++ plain (x :: y :: s)) := by
          rw [plain_cons_of_thai hx, plain_cons_of_thai hy, List.append_assoc]
          rfl
  | unmatched x y s hr ih =>
    rw [replacePairs_of_none hr, plain_cons, plain_cons (s := y :: s), ← List.append_assoc,
      ← List.append_assoc]
    exact ih h.tail _

/-- With the zero-width characters put back, pairs of other characters are still neighbours. -/
theorem chain_of_plain {P : ℕ → ℕ → Prop} (hleft : ∀ x y, ¬ Thai x → P x y)
    (hright : ∀ x y, ¬ Thai y → P x y) (h : (plain s).IsChain P) : s.IsChain P := by
  induction s with
  | nil => exact .nil
  | cons x s ih =>
    cases s with
    | nil => exact .singleton x
    | cons y s =>
      have hrest : (y :: s).IsChain P := by
        refine ih ?_
        rw [plain_cons] at h
        exact h.right_of_append
      refine .cons_cons ?_ hrest
      by_cases hx : Thai x
      · by_cases hy : Thai y
        · rw [plain_cons_of_thai hx, plain_cons_of_thai hy] at h
          exact (List.isChain_cons_cons.1 h).1
        · exact hright x y hy
      · exact hleft x y hx

/-- A text that is settled once stripped was settled before. -/
theorem settled_of_plain (h : Settled (plain s)) : Settled s :=
  chain_of_plain (fun _ _ hx hrw ↦ hx hrw.thai.1) (fun _ _ hy hrw ↦ hy hrw.thai.2) h

/-- Of a settled text the rewrites change only what NFC changes as well. -/
theorem nfc_plain_rewrite (hnfc : Normalizes nfc) (h : Settled s) :
    nfc (plain (rewrite s)) = nfc (plain s) := by
  obtain ⟨hdouble, hnikhahit, hlight, ham⟩ := h.unmatched
  rw [rewrite_of_unmatched hdouble hnikhahit ham]
  exact nfc_plain_tones hnfc hlight []

/-! ### Texts with something to rewrite -/

/-- Rewrites that leave the key alone exchange only what NFC exchanges. -/
theorem unmatched_of_key_eq (h : key (rewrite s) = key s) :
    (s.IsChain fun x y ↦ doubleSaraE x y = none) ∧
      (s.IsChain fun x y ↦ nikhahitSaraAa x y = none) ∧ Light s ∧
      (replacePairs toneBeforeVowel s).IsChain fun x y ↦ saraAmBeforeTone x y = none := by
  obtain ⟨hsaraE, hrest⟩ := Prod.ext_iff.1 h
  obtain ⟨hsaraAa, hinversions⟩ := Prod.ext_iff.1 hrest
  have hdouble : s.IsChain fun x y ↦ doubleSaraE x y = none := by
    refine unmatched_of_count_eq (c := 0x0E40) (fun x y r hr ↦ ?_) ?_
    · obtain ⟨rfl, rfl, rfl⟩ := doubleSaraE_eq hr
      decide
    · have hkeep : ∀ x y r, nikhahitSaraAa x y = some r →
          r.count 0x0E40 = [x, y].count 0x0E40 := by
        intro x y r hr
        obtain ⟨rfl, rfl, rfl⟩ := nikhahitSaraAa_eq hr
        rfl
      have hcount : (rewrite s).count 0x0E40 = (replacePairs doubleSaraE s).count 0x0E40 := by
        rw [rewrite, exchanges_saraAmBeforeTone.perm.count_eq,
          exchanges_toneBeforeVowel.perm.count_eq, count_replacePairs hkeep]
      exact hcount.symm.trans hsaraE
  simp only [key, rewrite, replacePairs_of_unmatched hdouble] at hsaraAa hinversions
  have hnikhahit : s.IsChain fun x y ↦ nikhahitSaraAa x y = none := by
    refine unmatched_of_count_eq (c := 0x0E32) (fun x y r hr ↦ ?_) ?_
    · obtain ⟨rfl, rfl, rfl⟩ := nikhahitSaraAa_eq hr
      decide
    · rw [exchanges_saraAmBeforeTone.perm.count_eq,
        exchanges_toneBeforeVowel.perm.count_eq] at hsaraAa
      exact hsaraAa
  rw [replacePairs_of_unmatched hnikhahit] at hinversions
  have htones := exchanges_toneBeforeVowel.inversions_le (s := s)
  have ham := exchanges_saraAmBeforeTone.inversions_le (s := replacePairs toneBeforeVowel s)
  refine ⟨hdouble, hnikhahit, ?_, ?_⟩
  · have hchain := exchanges_toneBeforeVowel.of_inversions_eq (s := s) (by omega)
    exact hchain.imp fun x y hxy hne ↦ not_not.1 fun hprec ↦ hxy hne (.inl ⟨hne, hprec⟩)
  · have hchain := exchanges_saraAmBeforeTone.of_inversions_eq
      (s := replacePairs toneBeforeVowel s) (by omega)
    exact hchain.imp fun x y hxy ↦ not_not.1 fun hne ↦ hxy hne (.inr hne)

/-- In the order of NFC, that is all. -/
theorem settled_of_key_eq (hordered : Ordered thaiClass s) (h : key (rewrite s) = key s) :
    Settled s := by
  obtain ⟨hdouble, hnikhahit, hlight, ham⟩ := unmatched_of_key_eq h
  rw [Light, List.isChain_iff_forall_rel_of_append_cons_cons] at hlight
  rw [Ordered, List.isChain_iff_forall_rel_of_append_cons_cons] at hordered
  have htone : s.IsChain fun x y ↦ toneBeforeVowel x y = none :=
    List.isChain_iff_forall_rel_of_append_cons_cons.2 fun _ _ _ _ hs ↦
      not_not.1 fun hne ↦ hordered hs (hlight hs hne)
  rw [replacePairs_of_unmatched htone] at ham
  rw [List.isChain_iff_forall_rel_of_append_cons_cons] at hdouble hnikhahit htone ham
  refine List.isChain_iff_forall_rel_of_append_cons_cons.2 fun _ _ _ _ hs hrw ↦ ?_
  rcases hrw with hne | hne | ⟨hne, -⟩ | hne
  · exact hne (hdouble hs)
  · exact hne (hnikhahit hs)
  · exact hne (htone hs)
  · exact hne (ham hs)

/-- A zero-width space after each character. -/
def spread (s : JsString) : JsString := s.flatMap fun u ↦ [u, 0x200B]

/-- A rule passes over a text whose units are kept apart. -/
theorem ThaiRule.replacePairs_spread {rule : ℕ → ℕ → Option JsString} (h : ThaiRule rule)
    (a : JsString) : replacePairs rule (spread a ++ s) = spread a ++ replacePairs rule s := by
  have hzero (x : ℕ) : rule x 0x200B = none ∧ rule 0x200B x = none :=
    ⟨h.none_right (by decide), h.none_left (by decide)⟩
  induction a with
  | nil => rfl
  | cons u a ih =>
    have hcut := replacePairs_cut (a := [u]) (b := spread a ++ s) hzero
    rw [ih] at hcut
    exact hcut

/-- So do all four. -/
theorem rewrite_spread : rewrite (spread s) = spread s := by
  have hspread {rule : ℕ → ℕ → Option JsString} (h : ThaiRule rule) :
      replacePairs rule (spread s) = spread s := by
    have hall := h.replacePairs_spread (s := []) s
    rwa [List.append_nil, replacePairs_nil, List.append_nil] at hall
  rw [rewrite, hspread thaiRule_doubleSaraE, hspread thaiRule_nikhahitSaraAa,
    hspread thaiRule_toneBeforeVowel, hspread thaiRule_saraAmBeforeTone]

/-- Stripping works on either side. -/
theorem stripZeroWidth_append : stripZeroWidth (s ++ t) = stripZeroWidth s ++ stripZeroWidth t :=
  List.filter_append ..

/-- Stripping brings units that were kept apart together again. -/
theorem stripZeroWidth_spread : stripZeroWidth (spread s) = stripZeroWidth s := by
  induction s with
  | nil => rfl
  | cons u s ih =>
    have hcons : spread (u :: s) = [u] ++ 0x200B :: spread s := rfl
    have hcons' : u :: s = [u] ++ s := rfl
    have hspace : stripZeroWidth (0x200B :: spread s) = stripZeroWidth (spread s) := rfl
    rw [hcons, stripZeroWidth_append, hspace, ih, hcons', stripZeroWidth_append]

/-- Stripping twice is stripping once. -/
theorem stripZeroWidth_stripZeroWidth : stripZeroWidth (stripZeroWidth s) = stripZeroWidth s :=
  List.filter_eq_self.2 fun _ hu ↦ (List.mem_filter.1 hu).2

/-- If zero-width characters do not matter, then no rewrite does. -/
theorem key_rewrite (hnfc : Normalizes nfc)
    (h : ∀ t, stripZeroWidth t = stripZeroWidth s →
      sanitizeThaiText nfc t = sanitizeThaiText nfc s)
    (ht : stripZeroWidth t = stripZeroWidth s) : key (rewrite t) = key t := by
  have hspread : stripZeroWidth (spread s) = stripZeroWidth s := stripZeroWidth_spread
  calc key (rewrite t) = key (sanitizeThaiText nfc t) := (key_sanitize hnfc).symm
    _ = key (sanitizeThaiText nfc (spread s)) := by rw [h t ht, h (spread s) hspread]
    _ = key (rewrite (spread s)) := key_sanitize hnfc
    _ = key (plain (spread s)) := by rw [rewrite_spread, key_of_letters letters_plain]
    _ = key (plain t) := by rw [plain, plain, hspread, ht]
    _ = key t := key_of_letters letters_plain

/-- So there is nothing to rewrite: any pair could be kept together, all others apart. -/
theorem settled_of_zeroWidth (hnfc : Normalizes nfc)
    (h : ∀ t, stripZeroWidth t = stripZeroWidth s →
      sanitizeThaiText nfc t = sanitizeThaiText nfc s) : Settled (stripZeroWidth s) := by
  refine List.isChain_iff_forall_rel_of_append_cons_cons.2 fun x y a b hs hrw ↦ ?_
  have ht : stripZeroWidth (spread a ++ ([x, y] ++ 0x200B :: spread b)) = stripZeroWidth s := by
    have hspace : stripZeroWidth (0x200B :: spread b) = stripZeroWidth (spread b) := rfl
    have hparts : a ++ x :: y :: b = a ++ ([x, y] ++ b) := rfl
    rw [← stripZeroWidth_stripZeroWidth (s := s), hs, hparts]
    simp only [stripZeroWidth_append, stripZeroWidth_spread, hspace]
  obtain ⟨hdouble, hnikhahit, hlight, ham⟩ := unmatched_of_key_eq (key_rewrite hnfc h ht)
  rcases hrw with hne | hne | ⟨hne, hprec⟩ | hne
  · exact hne (List.isChain_iff_forall_rel_of_append_cons_cons.1 hdouble rfl)
  · exact hne (List.isChain_iff_forall_rel_of_append_cons_cons.1 hnikhahit rfl)
  · exact hprec (List.isChain_iff_forall_rel_of_append_cons_cons.1 hlight rfl hne)
  · obtain ⟨r, hr⟩ := Option.ne_none_iff_exists'.1 hne
    obtain ⟨rfl, hy, -⟩ := saraAmBeforeTone_eq hr
    have htone : toneBeforeVowel 0x0E33 y = none := if_neg fun h ↦ by omega
    have hspace : toneBeforeVowel y 0x200B = none :=
      thaiRule_toneBeforeVowel.none_right (by decide)
    have hkept : replacePairs toneBeforeVowel (spread a ++ ([0x0E33, y] ++ 0x200B :: spread b)) =
        spread a ++ 0x0E33 :: y :: replacePairs toneBeforeVowel (0x200B :: spread b) := by
      rw [thaiRule_toneBeforeVowel.replacePairs_spread, List.cons_append, List.cons_append,
        replacePairs_of_none htone, List.nil_append, replacePairs_of_none hspace]
    exact hne (List.isChain_iff_forall_rel_of_append_cons_cons.1 ham hkept)

/-! ### The normal form -/

/-- A text without zero-width units and hard spaces is left as it is. -/
theorem plain_eq_self (h : ∀ u ∈ s, ¬ ZeroWidth u ∧ u ≠ 0xA0) : plain s = s := by
  have hstrip : stripZeroWidth s = s :=
    List.filter_eq_self.2 fun u hu ↦ decide_eq_true (h u hu).1
  rw [plain, hstrip, replaceNbsp]
  exact (List.map_congr_left fun u hu ↦ if_neg (h u hu).2).trans (List.map_id s)

/-- No such unit is left. -/
theorem not_mem_plain {u : ℕ} (hu : u ∈ plain s) : ¬ ZeroWidth u ∧ u ≠ 0xA0 := by
  obtain ⟨v, hv, rfl⟩ := List.mem_map.1 hu
  have hzero : ¬ ZeroWidth v := of_decide_eq_true (List.mem_filter.1 hv).2
  split_ifs with hnbsp
  · decide
  · exact ⟨hzero, hnbsp⟩

/-- A pair that would be rewritten has no white space, so trimming does not matter. -/
theorem settled_trim_iff : Settled (trim s) ↔ Settled s := by
  obtain ⟨a, b, hs, ha, hb⟩ := exists_trim s
  constructor
  · intro h
    have hblank {a : JsString} (ha : ∀ u ∈ a, isWhiteSpace u) : Settled a :=
      List.isChain_iff_forall_rel_of_append_cons_cons.2 fun x y c d hac hrw ↦
        not_thai_of_isWhiteSpace (ha x (by rw [hac]; simp)) hrw.thai.1
    rw [hs, Settled]
    refine ((hblank ha).append h fun x hx y _ hrw ↦ ?_).append (hblank hb) fun x _ y hy hrw ↦ ?_
    · exact not_thai_of_isWhiteSpace (ha x (List.mem_of_mem_getLast? hx)) hrw.thai.1
    · exact not_thai_of_isWhiteSpace (hb y (List.mem_of_mem_head? hy)) hrw.thai.2
  · intro h
    rw [hs] at h
    exact h.left_of_append.right_of_append

/-- Replacing hard spaces brings no pair together. -/
theorem settled_plain (h : Settled (stripZeroWidth s)) : Settled (plain s) := by
  refine List.isChain_map_of_isChain _ (fun x y hxy hrw ↦ hxy ?_) h
  have hthai (x : ℕ) (hx : Thai (if x = 0xA0 then 0x20 else x)) :
      (if x = 0xA0 then 0x20 else x) = x := by
    split_ifs at hx ⊢ with h
    · exact absurd hx (by decide)
    · rfl
  rwa [hthai x hrw.thai.1, hthai y hrw.thai.2] at hrw

/-- `plain` makes no text longer. -/
theorem length_plain_le : (plain s).length ≤ s.length := by
  rw [plain, replaceNbsp, List.length_map]
  exact List.length_filter_le _ _

/-- A rule keeps a text within the Thai one. -/
theorem ThaiRule.thaiText {rule : ℕ → ℕ → Option JsString} (h : ThaiRule rule)
    (hs : ∀ u ∈ s, ThaiText u) : ∀ u ∈ replacePairs rule s, ThaiText u :=
  forall_mem_replacePairs (fun x y r hr _ _ u hu ↦ .inl ((h x y r hr).2.2.1 u hu)) hs

/-- No step lengthens a Thai text. -/
theorem length_sanitize_le (hnfc : Normalizes nfc) (hs : ∀ u ∈ s, ThaiText u) :
    (sanitizeThaiText nfc s).length ≤ s.length := by
  have hpass {rule : ℕ → ℕ → Option JsString} (h : ThaiRule rule) (s : JsString) :
      (replacePairs rule s).length ≤ s.length :=
    length_replacePairs_le fun x y r hr ↦ (h x y r hr).2.2.2
  have htext : ∀ u ∈ plain (rewrite s), ThaiText u := by
    have hrewrite : ∀ u ∈ rewrite s, ThaiText u :=
      thaiRule_saraAmBeforeTone.thaiText (thaiRule_toneBeforeVowel.thaiText
        (thaiRule_nikhahitSaraAa.thaiText (thaiRule_doubleSaraE.thaiText hs)))
    intro u hu
    obtain ⟨v, hv, rfl⟩ := List.mem_map.1 hu
    split_ifs
    · decide
    · exact hrewrite v (List.mem_filter.1 hv).1
  calc (sanitizeThaiText nfc s).length ≤ (nfc (plain (rewrite s))).length := length_trim_le
    _ = (plain (rewrite s)).length := (hnfc.perm _ htext).length_eq
    _ ≤ (rewrite s).length := length_plain_le
    _ ≤ _ := hpass thaiRule_saraAmBeforeTone _
    _ ≤ _ := hpass thaiRule_toneBeforeVowel _
    _ ≤ _ := hpass thaiRule_nikhahitSaraAa _
    _ ≤ s.length := hpass thaiRule_doubleSaraE s

/-- What the sanitiser returns is in the order of NFC and has no invisible characters. -/
theorem nfc_trim_plain (hnfc : Normalizes nfc) :
    nfc (trim (nfc (plain s))) = trim (nfc (plain s)) ∧
      plain (trim (nfc (plain s))) = trim (nfc (plain s)) ∧
      Ordered thaiClass (trim (nfc (plain s))) := by
  obtain ⟨a, b, hs, -, -⟩ := exists_trim (nfc (plain s))
  refine ⟨hnfc.part a _ b (by rw [← hs, hnfc.idem]), plain_eq_self fun u hu ↦ ?_, ?_⟩
  · by_contra hnot
    have hinert : Inert u := by
      by_cases hzero : ZeroWidth u
      · exact .inr (.inl hzero)
      · exact .inr (.inr (not_not.1 fun hne ↦ hnot ⟨hzero, hne⟩))
    have hcount := hnfc.count (plain s) u (.inr hinert)
    rw [List.count_eq_zero.2 fun hmem ↦ hnot (not_mem_plain hmem)] at hcount
    exact List.count_eq_zero.1 hcount (mem_of_mem_trim hu)
  · have hordered : Ordered thaiClass (nfc (plain s)) :=
      List.isChain_iff_forall_rel_of_append_cons_cons.2 fun x y a b h ↦
        hnfc.ordered (plain s) a x y b h
    rw [hs] at hordered
    exact hordered.left_of_append.right_of_append

/-- The sanitiser has come to an end when it leaves nothing to rewrite. -/
theorem idem_iff (hnfc : Normalizes nfc) :
    sanitizeThaiText nfc (sanitizeThaiText nfc s) = sanitizeThaiText nfc s ↔
      Settled (nfc (plain (rewrite s))) := by
  obtain ⟨hnormal, hplain, hordered⟩ := nfc_trim_plain (s := rewrite s) hnfc
  rw [← settled_trim_iff]
  constructor
  · refine fun hidem ↦ settled_of_key_eq hordered ?_
    calc key (rewrite (trim (nfc (plain (rewrite s)))))
        = key (sanitizeThaiText nfc (sanitizeThaiText nfc s)) := (key_sanitize hnfc).symm
      _ = key (sanitizeThaiText nfc s) := congrArg key hidem
  · intro hsettled
    calc sanitizeThaiText nfc (sanitizeThaiText nfc s)
        = trim (nfc (plain (trim (nfc (plain (rewrite s)))))) :=
          congrArg trim (nfc_plain_rewrite hnfc hsettled)
      _ = sanitizeThaiText nfc s := by
          rw [hplain, hnormal, trim_trim]
          rfl

/-- Zero-width characters do not matter where there is nothing to rewrite without them. -/
theorem zeroWidth_iff (hnfc : Normalizes nfc) :
    (∀ t, stripZeroWidth t = stripZeroWidth s →
      sanitizeThaiText nfc t = sanitizeThaiText nfc s) ↔ Settled (plain s) := by
  constructor
  · exact fun h ↦ settled_plain (settled_of_zeroWidth hnfc h)
  · intro hsettled t ht
    have hsame : plain t = plain s := congrArg replaceNbsp ht
    rw [sanitizeThaiText, sanitizeThaiText,
      nfc_plain_rewrite hnfc (settled_of_plain (hsame ▸ hsettled)),
      nfc_plain_rewrite hnfc (settled_of_plain hsettled), hsame]

/-- **When the sanitiser is a normal form.** It is one for a text without pairs to rewrite, before
NFC and after it, and for no other. -/
theorem normalForm_iff (hnfc : Normalizes nfc) (s : JsString) :
    NormalForm nfc s ↔ Settled (plain s) ∧ Settled (nfc (plain s)) := by
  constructor
  · intro h
    have hsettled : Settled (plain s) := (zeroWidth_iff hnfc).1 h.zeroWidth
    have hafter := (idem_iff hnfc).1 h.idem
    rw [nfc_plain_rewrite hnfc (settled_of_plain hsettled)] at hafter
    exact ⟨hsettled, hafter⟩
  · rintro ⟨hsettled, hafter⟩
    refine ⟨(idem_iff hnfc).2 ?_, length_sanitize_le hnfc, (zeroWidth_iff hnfc).2 hsettled⟩
    rwa [nfc_plain_rewrite hnfc (settled_of_plain hsettled)]

/-- A tone between a consonant and SARA AM is where it belongs. -/
theorem normalForm_nam : NormalForm (reorder thaiClass) [0x0E19, 0x0E49, 0x0E33] :=
  (normalForm_iff normalizes_reorder _).2 (by decide)

/-- Two tones before SARA I are settled one by one, and a zero-width space between two SARA E keeps
them apart. -/
theorem stacked_tones_not_settled :
    sanitizeThaiText (reorder thaiClass)
        (sanitizeThaiText (reorder thaiClass) [0x0E1A, 0x0E48, 0x0E49, 0x0E34]) ≠
      sanitizeThaiText (reorder thaiClass) [0x0E1A, 0x0E48, 0x0E49, 0x0E34] ∧
    stripZeroWidth [0x0E40, 0x200B, 0x0E40] = stripZeroWidth [0x0E40, 0x0E40] ∧
    sanitizeThaiText (reorder thaiClass) [0x0E40, 0x200B, 0x0E40] ≠
      sanitizeThaiText (reorder thaiClass) [0x0E40, 0x0E40] := by
  decide

end EasyBook.Thai

import EasyBook.Ecma.Rewrites

/-!
# Flex messages

A Flex message is a bubble of boxes, texts and buttons, and the line of text that stands for it in
the list of chats. `Accepted` is what LINE asks of a message, and `toAltText` makes such a line of
any text that has something in it (`accepted_toAltText`).
-/

namespace EasyBook.Cards

open JsString

/-! ### Messages -/

/-- A component of a bubble. -/
inductive FlexComponent where
  | text (content : JsString) (style : List (String × String))
  | box (style : List (String × String)) (contents : List FlexComponent)
  | button (style : List (String × String)) (label uri : JsString)

/-- A bubble. -/
structure FlexBubble where
  header : FlexComponent
  body : FlexComponent
  footer : Option FlexComponent

/-- A Flex message. -/
structure FlexMessage where
  altText : JsString
  contents : FlexBubble

mutual

/-- The texts of a component. -/
def FlexComponent.texts : FlexComponent → List JsString
  | .text content _ => [content]
  | .box _ contents => textsOf contents
  | .button .. => []

/-- The texts of some components. -/
def textsOf : List FlexComponent → List JsString
  | [] => []
  | c :: cs => c.texts ++ textsOf cs

end

/-- The texts of a message. -/
def FlexMessage.texts (m : FlexMessage) : List JsString :=
  m.contents.header.texts ++ m.contents.body.texts ++ m.contents.footer.elim [] FlexComponent.texts

/-- A line terminator. -/
def LineTerminator (u : ℕ) : Prop := u = 10 ∨ u = 13 ∨ u = 0x2028 ∨ u = 0x2029

instance : DecidablePred LineTerminator := fun u ↦
  inferInstanceAs (Decidable (u = 10 ∨ u = 13 ∨ u = 0x2028 ∨ u = 0x2029))

/-- `ALT_TEXT_MAX_CHARS`. -/
def altTextMaxChars : ℕ := 400

/-- A line that LINE takes as `altText`. -/
structure AcceptedAltText (altText : JsString) : Prop where
  ne_nil : altText ≠ []
  one_line : ∀ u ∈ altText, ¬ LineTerminator u
  length_le : altText.length ≤ altTextMaxChars
  wellFormed : WellFormed altText

/-- A message that LINE takes. -/
structure Accepted (m : FlexMessage) : Prop where
  altText : AcceptedAltText m.altText
  texts : ∀ t ∈ m.texts, t ≠ []

@[simp] theorem textsOf_nil : textsOf [] = [] := rfl

@[simp] theorem textsOf_cons (c : FlexComponent) (cs : List FlexComponent) :
    textsOf (c :: cs) = c.texts ++ textsOf cs := rfl

@[simp] theorem textsOf_append (cs cs' : List FlexComponent) :
    textsOf (cs ++ cs') = textsOf cs ++ textsOf cs' := by
  induction cs with
  | nil => rfl
  | cons c cs ih => rw [List.cons_append, textsOf_cons, textsOf_cons, ih, List.append_assoc]

@[simp] theorem texts_text (content : JsString) (style : List (String × String)) :
    (FlexComponent.text content style).texts = [content] := rfl

@[simp] theorem texts_box (style : List (String × String)) (contents : List FlexComponent) :
    (FlexComponent.box style contents).texts = textsOf contents := rfl

@[simp] theorem texts_button (style : List (String × String)) (label uri : JsString) :
    (FlexComponent.button style label uri).texts = [] := rfl

/-! ### The line for the list of chats -/

def ellipsis : ℕ := 0x2026

/-- A bullet or white space. -/
def isGap (u : ℕ) : Bool := u == 0x2022 || isWhiteSpace u

/-- `trimEnd`. -/
def trimEnd (s : JsString) : JsString := (s.reverse.dropWhile isWhiteSpace).reverse

/-- `flat`. -/
def flat (raw : JsString) : JsString := trim (replaceRuns isGap (fun _ ↦ [0x20]) [] raw)

/-- `toAltText`. -/
def toAltText (raw : JsString) : JsString :=
  if (flat raw).length ≤ altTextMaxChars then flat raw
  else
    let cut := (flat raw).take (altTextMaxChars - 1)
    let whole := if ∃ last ∈ cut.getLast?, High last then cut.dropLast else cut
    trimEnd whole ++ [ellipsis]

variable {raw s : JsString} {u : ℕ}

theorem trimEnd_isPrefix : trimEnd s <+: s := by
  have h := (List.dropWhile_suffix (p := isWhiteSpace) (l := s.reverse)).reverse
  rwa [List.reverse_reverse] at h

theorem mem_flat (h : u ∈ flat raw) : u ∈ raw ∧ ¬ isGap u ∨ u = 0x20 := by
  rcases mem_replaceRuns (mem_of_mem_trim h) (fun _ h ↦ nomatch h) with h | ⟨-, -, -, h⟩
  · exact .inl h
  · exact .inr (List.mem_singleton.mp h)

theorem isGap_of_lineTerminator (h : LineTerminator u) : isGap u := by
  rcases h with rfl | rfl | rfl | rfl <;> decide

theorem flat_one_line (h : u ∈ flat raw) : ¬ LineTerminator u := by
  rcases mem_flat h with ⟨-, hgap⟩ | rfl
  · exact fun hline ↦ hgap (isGap_of_lineTerminator hline)
  · decide

theorem wide_flat : wide (flat raw) = wide raw := by
  have hplain : ∀ u, isGap u ∨ u = 0x20 → Plain u := by
    rintro u (hu | rfl)
    · rcases (Bool.or_eq_true _ _).mp hu with hu | hu
      · rw [beq_iff_eq.mp hu]
        decide
      · exact plain_of_isWhiteSpace hu
    · decide
  have hrewrites : Rewrites (fun u ↦ isGap u ∨ u = 0x20) raw
      (replaceRuns isGap (fun _ ↦ [0x20]) [] raw) :=
    rewrites_replaceRuns (fun r _ hall ↦ ⟨by simp, fun u hu ↦ .inl (hall u hu), by simp⟩) []
      (fun _ h ↦ nomatch h) raw
  rw [flat, wide_trim, hrewrites.wide_eq hplain]

/-- A character that is no gap stays. -/
theorem flat_ne_nil (hu : u ∈ raw) (hgap : ¬ isGap u) : flat raw ≠ [] := by
  have hkept : u ∈ replaceRuns isGap (fun _ ↦ [0x20]) [] raw := mem_replaceRuns_of_not hu hgap
  obtain ⟨a, b, hsplit, ha, hb⟩ := exists_trim (replaceRuns isGap (fun _ ↦ [0x20]) [] raw)
  rw [hsplit, List.mem_append, List.mem_append] at hkept
  have hspace (h : isWhiteSpace u) : isGap u := by simp [isGap, h]
  rcases hkept with (hkept | hkept) | hkept
  · exact absurd (hspace (ha u hkept)) hgap
  · exact List.ne_nil_of_mem hkept
  · exact absurd (hspace (hb u hkept)) hgap

/-- A line that is too long is cut between two code points. -/
theorem toAltText_cases (raw : JsString) :
    toAltText raw = flat raw ∧ (flat raw).length ≤ altTextMaxChars ∨
      ∃ whole rest, flat raw = whole ++ rest ∧ NoPair whole rest ∧
        whole.length < altTextMaxChars ∧ toAltText raw = trimEnd whole ++ [ellipsis] := by
  rw [toAltText]
  split_ifs with hfits
  · exact .inl ⟨rfl, hfits⟩
  right
  have hlen : ((flat raw).take (altTextMaxChars - 1)).length < altTextMaxChars :=
    (List.length_take_le ..).trans_lt (by decide)
  have hsplit := (List.take_append_drop (altTextMaxChars - 1) (flat raw)).symm
  generalize (flat raw).take (altTextMaxChars - 1) = cut at hlen hsplit ⊢
  generalize (flat raw).drop (altTextMaxChars - 1) = rest at hsplit
  dsimp only
  split_ifs with hlast
  · obtain ⟨last, hlast, hhigh⟩ := hlast
    obtain ⟨whole, rfl⟩ := List.getLast?_eq_some_iff.mp hlast
    have hpair : NoPair whole (last :: rest) := by
      refine noPair_of_head fun v hv ↦ ?_
      cases hv
      unfold High at hhigh
      unfold Low
      omega
    rw [List.length_append] at hlen
    refine ⟨whole, last :: rest, by rw [hsplit, List.append_assoc]; rfl, hpair, by omega, ?_⟩
    rw [List.dropLast_concat]
  · exact ⟨cut, rest, hsplit, noPair_of_last fun u hu hhigh ↦ hlast ⟨u, hu, hhigh⟩, hlen, rfl⟩

/-- A text that has something in it becomes a line that LINE takes. -/
theorem accepted_toAltText (hraw : WellFormed raw) (hu : u ∈ raw) (hgap : ¬ isGap u) :
    AcceptedAltText (toAltText raw) := by
  have hflat : WellFormed (flat raw) := hraw.of_prefix (by rw [wide_flat])
  rcases toAltText_cases raw with ⟨h, hle⟩ | ⟨whole, rest, hsplit, hpair, hlen, h⟩
  · rw [h]
    exact ⟨flat_ne_nil hu hgap, fun _ ↦ flat_one_line, hle, hflat⟩
  · have hsub : trimEnd whole ⊆ flat raw := fun v hv ↦ by
      rw [hsplit]
      exact List.mem_append_left _ (trimEnd_isPrefix.subset hv)
    rw [h]
    refine ⟨by simp, fun v hv ↦ ?_, ?_, hflat.of_prefix ?_⟩
    · rcases List.mem_append.mp hv with hv | hv
      · exact flat_one_line (hsub hv)
      · rw [List.mem_singleton.mp hv]
        decide
    · have := (trimEnd_isPrefix (s := whole)).length_le
      rw [List.length_append, List.length_singleton]
      omega
    · -- White space at the end of the cut has no surrogates.
      have htrim : wide (trimEnd whole) = wide whole := by
        have hdrop := List.takeWhile_append_dropWhile (p := isWhiteSpace) (l := whole.reverse)
        have hwhole : whole = trimEnd whole ++ (whole.reverse.takeWhile isWhiteSpace).reverse := by
          rw [trimEnd, ← List.reverse_append, hdrop, List.reverse_reverse]
        conv_rhs => rw [hwhole]
        exact (wide_append_plain fun v hv ↦
          plain_of_isWhiteSpace (List.mem_takeWhile_imp (List.mem_reverse.mp hv))).symm
      rw [wide_append_plain (by decide), htrim, hsplit, wide_append hpair]
      exact List.prefix_append _ _

end EasyBook.Cards

import EasyBook.Support.Sanitising

/-!
# A report stays in its message

The message of a report is the template with the texts of the report in it (`layout`). `contained`
says that it is not too long, that the texts put no fence and no spoiler mark where the template has
none, and what becomes of a text that does not fit.
-/

namespace EasyBook.Support

open JsString JsDate
open List (At Free Seam Seams)

/-! ### The layout -/

/-- What a piece of the message is. -/
inductive Part where
  | template
  | code
  | reporterName
  | phone
  | path
  | description
  | diagnostics
  deriving DecidableEq

variable (input : SupportPayloadInput) (desc diag : JsString)

/-- The template before the code. -/
def heading : JsString :=
  (if (supportSeverityPing input.severity).line = [] then []
    else (supportSeverityPing input.severity).line ++ [10]) ++ lit "# รายการปัญหาจากระบบ ที่ "

/-- The template before the name. -/
def upToName : JsString :=
  let when := bangkokParts input.timestamp
  lit "/" ++ when.buddhistYear ++ lit " " ++ supportSeverityEmoji input.severity ++ [10] ++
    lit "> วันที่ " ++ when.day ++ lit " " ++ when.month ++ lit " " ++ when.buddhistYear ++
    lit "  เวลา " ++ when.hh ++ lit "." ++ when.mm ++ lit " น." ++ [10] ++ separator ++ [10] ++
    lit "**ผู้แจ้ง:**" ++ [10] ++ lit "||" ++ fence

/-- The template before the telephone number. -/
def upToPhone : JsString :=
  lit "  (" ++ supportRoleLabel input.role ++ lit ")" ++ fence ++ lit "||" ++ [10] ++
    lit "**เบอร์โทรศัพท์:**" ++ [10] ++ lit "||" ++ fence

/-- The template before the page. -/
def upToPath : JsString :=
  fence ++ lit "||" ++ [10] ++ separator ++ [10] ++ lit "**ประเภท:**" ++ [10] ++
    inlineBlock (supportCategoryLabel input.category) ++ [10] ++ lit "**ระดับ:**" ++ [10] ++
    inlineBlock (supportSeverityLabel input.severity) ++ [10] ++ lit "**หน้าที่พบปัญหา:**" ++
    [10] ++ fence

/-- The template before the description. -/
def upToDescription : JsString := fence ++ [10] ++ lit "**รายละเอียด:**" ++ [10] ++ fence ++ [10]

/-- The template before the diagnostics. -/
def upToDiagnostics : JsString :=
  [10] ++ fence ++ [10] ++ lit "**ข้อมูลเวอร์ชันระบบ:**" ++ [10] ++ fence ++ [10]

/-- The end of the template. -/
def ending : JsString := [10] ++ fence

/-- The pieces of the message. -/
def layout : List (Part × JsString) :=
  [(.template, heading input), (.code, input.code), (.template, upToName input),
    (.reporterName, reporterName input), (.template, upToPhone input), (.phone, phone input),
    (.template, upToPath input), (.path, path input), (.template, upToDescription),
    (.description, desc), (.template, upToDiagnostics), (.diagnostics, diag),
    (.template, ending)]

/-- The text of some pieces. -/
def text (pieces : List (Part × JsString)) : JsString := (pieces.map Prod.snd).flatten

/-- The message is the pieces of the layout, one after the other. -/
theorem assemble_eq : assemble input desc diag = text (layout input desc diag) := by
  unfold assemble lines text layout heading upToName upToPhone upToPath upToDescription
    upToDiagnostics ending inlineBlock multilineBlock
  dsimp only
  generalize (supportSeverityPing input.severity).line = ping
  by_cases hping : ping = []
  · simp only [if_pos hping, List.map_cons, List.map_nil, List.flatten_cons, List.flatten_nil,
      List.intercalate_cons_cons, List.intercalate_singleton, List.append_assoc, List.nil_append,
      List.append_nil]
  · simp only [if_neg hping, List.map_cons, List.map_nil, List.flatten_cons, List.flatten_nil,
      List.intercalate_cons_cons, List.intercalate_singleton, List.append_assoc, List.nil_append,
      List.append_nil, List.cons_append]

/-- `w` stands at position `i` of the text, within a piece of a kind `K`. -/
def Stands (K : Part → Prop) (w : JsString) (pieces : List (Part × JsString)) (i : ℕ) : Prop :=
  ∃ before p t after, pieces = before ++ (p, t) :: after ∧ K p ∧
    ∃ j, At w t j ∧ i = (text before).length + j

/-- A mark stands where it stands in one of the pieces that are not free of it. -/
theorem at_text {pieces : List (Part × JsString)} {K : Part → Prop} {c n i : ℕ}
    (hseams : Seams c (pieces.map Prod.snd))
    (hfree : ∀ x ∈ pieces, ¬ K x.1 → Free (List.replicate (n + 1) c) x.2) :
    At (List.replicate (n + 1) c) (text pieces) i ↔
      Stands K (List.replicate (n + 1) c) pieces i := by
  rw [text, List.at_flatten hseams]
  constructor
  · rintro ⟨before, t, after, hpieces, j, hat, hi⟩
    obtain ⟨before, rest, rfl, rfl, hrest⟩ := List.map_eq_append_iff.mp hpieces
    obtain ⟨⟨p, t⟩, after, rfl, rfl, rfl⟩ := List.map_eq_cons_iff.mp hrest
    refine ⟨before, p, t, after, rfl, ?_, j, hat, hi⟩
    by_contra hK
    exact hfree (p, t) (by simp) hK j hat
  · rintro ⟨before, p, t, after, rfl, -, j, hat, hi⟩
    exact ⟨before.map Prod.snd, t, after.map Prod.snd, by simp, j, hat, hi⟩

/-! ### The seams -/

section seams

variable {input} {desc diag}

/-- The heading ends in a space. -/
theorem getLast?_heading : (heading input).getLast? = some 0x20 := by
  rw [heading, List.getLast?_append_of_ne_nil _ (by decide)]
  decide

/-- The name stands right after the template's backtick. -/
theorem getLast?_upToName : (upToName input).getLast? = some backtick := by
  dsimp only [upToName]
  rw [List.getLast?_append_of_ne_nil _ (by decide)]
  decide

/-- So does the phone number. -/
theorem getLast?_upToPhone : (upToPhone input).getLast? = some backtick := by
  rw [upToPhone, List.getLast?_append_of_ne_nil _ (by decide)]
  decide

/-- So does the path. -/
theorem getLast?_upToPath : (upToPath input).getLast? = some backtick := by
  rw [upToPath, List.getLast?_append_of_ne_nil _ (by decide)]
  decide

/-- What comes before the name begins with neither a backtick nor a pipe. -/
theorem head?_upToName : (upToName input).head? = some 0x2F := by
  unfold upToName
  simp only [List.append_assoc]
  exact List.head?_append_of_ne_nil _ (by decide)

/-- What comes before the phone number begins with a space. -/
theorem head?_upToPhone : (upToPhone input).head? = some 0x20 := by
  simp only [upToPhone, List.append_assoc]
  rw [List.head?_append_of_ne_nil _ (by decide)]
  decide

/-- The backtick that closes the phone number begins what comes before the path. -/
theorem head?_upToPath : (upToPath input).head? = some backtick := by
  simp only [upToPath, List.append_assoc]
  rw [List.head?_append_of_ne_nil _ (by decide)]
  decide

/-- The name of the reporter, cut and with its fallback, is still a closed spoiler. -/
theorem inline_reporterName : Spoiler (input.reporterName.getD []) (reporterName input) :=
  ((spoiler_sanitizeSpoiler _).orElse (by decide)).cut (by decide)

/-- So is the phone number. -/
theorem inline_phone : Spoiler (input.phoneNumber.getD []) (phone input) :=
  ((spoiler_sanitizeSpoiler _).orElse (by decide)).cut (by decide)

/-- The path is inline code that stays on its line. -/
theorem inline_path : Inline input.path (path input) :=
  ((inline_sanitizeInline _).orElse (by decide)).cut (by decide)

/-- The name is never an empty field. -/
theorem reporterName_ne_nil : reporterName input ≠ [] :=
  truncateText_ne_nil (by decide) (orElse_ne_nil (by decide))

/-- The phone number is never an empty field. -/
theorem phone_ne_nil : phone input ≠ [] :=
  truncateText_ne_nil (by decide) (orElse_ne_nil (by decide))

/-- The path is never an empty field. -/
theorem path_ne_nil : path input ≠ [] :=
  truncateText_ne_nil (by decide) (orElse_ne_nil (by decide))

/-- A seam is clean where the next piece begins with another character. -/
private theorem seam_next {c u : ℕ} {s t : JsString} {rest : List JsString} (h : t.head? = some u)
    (hu : u ≠ c) : Seam c s (t :: rest).flatten := by
  refine .of_head ?_
  rw [List.flatten_cons, List.head?_append, h]
  simpa using hu

/-- A seam is clean before a piece that does not begin with the character. -/
private theorem seam_text {c : ℕ} {s t : JsString} {rest : List JsString} (hne : t ≠ [])
    (h : t.head? ≠ some c) : Seam c s (t :: rest).flatten := by
  refine .of_head ?_
  rwa [List.flatten_cons, List.head?_append_of_ne_nil _ hne]

/-- A seam is clean after a piece that ends in another character. -/
private theorem seam_last {c u : ℕ} {s t : JsString} (h : s.getLast? = some u) (hu : u ≠ c) :
    Seam c s t :=
  .of_last (by rw [h]; simpa using hu)

/-- No run of backticks forms where two pieces of the message meet. -/
theorem seams_backtick : Seams backtick ((layout input desc diag).map Prod.snd) := by
  rw [layout]
  simp only [List.map_cons, List.map_nil, Seams]
  exact ⟨seam_last getLast?_heading (by decide), seam_next head?_upToName (by decide),
    seam_text reporterName_ne_nil inline_reporterName.head,
    seam_next head?_upToPhone (by decide), seam_text phone_ne_nil inline_phone.head,
    .of_last inline_phone.last, seam_text path_ne_nil inline_path.head, .of_last inline_path.last,
    .of_last (by decide), seam_next (t := upToDiagnostics) rfl (by decide), .of_last (by decide),
    seam_next (t := ending) rfl (by decide), .of_head (by decide), trivial⟩

/-- No double pipe forms where two pieces of the message meet. -/
theorem seams_pipe : Seams pipe ((layout input desc diag).map Prod.snd) := by
  rw [layout]
  simp only [List.map_cons, List.map_nil, Seams]
  exact ⟨seam_last getLast?_heading (by decide), seam_next head?_upToName (by decide),
    seam_last getLast?_upToName (by decide), seam_next head?_upToPhone (by decide),
    seam_last getLast?_upToPhone (by decide), seam_next head?_upToPath (by decide),
    seam_last getLast?_upToPath (by decide), seam_next (t := upToDescription) rfl (by decide),
    .of_last (by decide), seam_next (t := upToDiagnostics) rfl (by decide), .of_last (by decide),
    seam_next (t := ending) rfl (by decide), .of_head (by decide), trivial⟩

/-- Nothing pairs across a seam where the next piece begins with no low surrogate. -/
private theorem noPair_next {u : ℕ} {s t : JsString} {rest : List JsString}
    (h : t.head? = some u) (hu : ¬ Low u) : NoPair s (t :: rest).flatten := by
  refine noPair_of_head fun v hv ↦ ?_
  rw [List.flatten_cons, List.head?_append, h] at hv
  cases hv
  exact hu

/-- Nothing pairs across a seam after a piece that ends in no high surrogate. -/
private theorem noPair_last {u : ℕ} {s t : JsString} (h : s.getLast? = some u) (hu : ¬ High u) :
    NoPair s t := by
  refine noPair_of_last fun v hv ↦ ?_
  rw [h] at hv
  cases hv
  exact hu

/-- No character of the message is put together from two of its pieces. -/
theorem noPairs : NoPairs ((layout input desc diag).map Prod.snd) := by
  rw [layout]
  simp only [List.map_cons, List.map_nil, NoPairs]
  exact ⟨noPair_last getLast?_heading (by decide), noPair_next head?_upToName (by decide),
    noPair_last getLast?_upToName (by decide), noPair_next head?_upToPhone (by decide),
    noPair_last getLast?_upToPhone (by decide), noPair_next head?_upToPath (by decide),
    noPair_last getLast?_upToPath (by decide), noPair_next (t := upToDescription) rfl (by decide),
    noPair_last (u := 10) (by decide) (by decide),
    noPair_next (t := upToDiagnostics) rfl (by decide),
    noPair_last (u := 10) (by decide) (by decide), noPair_next (t := ending) rfl (by decide),
    noPair_last (u := backtick) (by decide) (by decide), trivial⟩

end seams

/-! ### The length -/

section length

variable {input}

/-- A padded number of at most two digits, with its sign. -/
theorem length_pad2_le {n : Option ℤ} (h : ∀ k ∈ n, k.natAbs < 10 ^ 2) : (pad2 n).length ≤ 3 := by
  have hle : (ofNumber n).length ≤ 3 := by
    cases n with
    | none => decide
    | some k => exact length_decimal_le (by decide) (h k rfl)
  rw [pad2, padStart, List.length_append, List.length_replicate]
  omega

/-- The digits of a number that is small enough, with its sign. -/
theorem length_ofNumber_le {w : ℕ} (hw : 2 ≤ w) {n : Option ℤ} (h : ∀ k ∈ n, k.natAbs < 10 ^ w) :
    (ofNumber n).length ≤ w + 1 := by
  cases n with
  | none =>
    have hNaN : (ofNumber none).length = 3 := by decide
    omega
  | some k => exact length_decimal_le (by omega) (h k rfl)

/-- The parts of a Bangkok date are short, for whatever time. -/
theorem length_bangkokParts_le (time : Option ℤ) :
    (bangkokParts time).day.length ≤ 3 ∧ (bangkokParts time).month.length ≤ 10 ∧
      (bangkokParts time).buddhistYear.length ≤ 7 ∧ (bangkokParts time).hh.length ≤ 3 ∧
      (bangkokParts time).mm.length ≤ 3 := by
  have hclip : ∀ t ∈ time.bind fun t ↦ timeClip (t + 7 * 60 * 60 * 1000),
      ∃ t₀, timeClip t₀ = some t := fun t ht ↦ by
    obtain ⟨t₀, -, h⟩ := Option.bind_eq_some_iff.mp ht
    exact ⟨_, h⟩
  unfold bangkokParts
  dsimp only
  generalize (time.bind fun t ↦ timeClip (t + 7 * 60 * 60 * 1000)) = shifted at hclip ⊢
  refine ⟨length_ofNumber_le le_rfl ?_, ?_, length_ofNumber_le (w := 6) (by decide) ?_,
    length_pad2_le ?_, length_pad2_le ?_⟩
  · intro k hk
    obtain ⟨t, -, rfl⟩ := Option.map_eq_some_iff.mp hk
    obtain ⟨hlow, hhigh⟩ := dateFromDay_bounds (JsDate.day t)
    have := monthLength_le (inLeapYear (yearFromDay (JsDate.day t)))
      (monthFromDay_lt (JsDate.day t))
    omega
  · have hmonths : ∀ m ∈ thaiMonths, m.length ≤ 10 := by decide
    cases hmonth : shifted.bind fun t ↦ thaiMonths[monthFromDay (JsDate.day t)]? with
    | none => decide
    | some m =>
      obtain ⟨t, -, hm⟩ := Option.bind_eq_some_iff.mp hmonth
      exact hmonths m (List.mem_of_getElem? hm)
  · intro k hk
    obtain ⟨t, ht, rfl⟩ := Option.map_eq_some_iff.mp hk
    obtain ⟨t₀, h₀⟩ := hclip t ht
    have := yearFromDay_bounds_of_clip h₀
    omega
  · intro k hk
    obtain ⟨t, -, rfl⟩ := Option.map_eq_some_iff.mp hk
    unfold hourFromTime
    omega
  · intro k hk
    obtain ⟨t, -, rfl⟩ := Option.map_eq_some_iff.mp hk
    unfold minFromTime
    omega

/-- The length of the message is that of its pieces. -/
theorem length_text (pieces : List (Part × JsString)) :
    (text pieces).length = (pieces.map fun p ↦ p.2.length).sum := by
  rw [text, List.length_flatten, List.map_map]
  rfl

/-- The description and the diagnostics come on top of the message without them. -/
theorem length_assemble (desc diag : JsString) : (assemble input desc diag).length =
    (assemble input [] []).length + desc.length + diag.length := by
  simp only [assemble_eq, length_text, layout, List.map_cons, List.map_nil, List.sum_cons,
    List.sum_nil, List.length_nil]
  omega

/-- The heading is at most 40 units long. -/
theorem length_heading_le : (heading input).length ≤ 40 := by
  unfold heading
  cases input.severity <;> decide

/-- What stands between the code and the name is at most 120 units long. -/
theorem length_upToName_le : (upToName input).length ≤ 120 := by
  obtain ⟨hday, hmonth, hyear, hhh, hmm⟩ := length_bangkokParts_le input.timestamp
  have hemoji : (supportSeverityEmoji input.severity).length ≤ 2 := by
    cases input.severity <;> decide
  have h₁ : (lit "/").length = 1 := by decide
  have h₂ : (lit " ").length = 1 := by decide
  have h₃ : (lit "> วันที่ ").length ≤ 10 := by decide
  have h₄ : (lit "  เวลา ").length ≤ 10 := by decide
  have h₅ : (lit ".").length = 1 := by decide
  have h₆ : (lit " น.").length = 3 := by decide
  have h₇ : (lit "**ผู้แจ้ง:**").length ≤ 15 := by decide
  have h₈ : (lit "||").length = 2 := by decide
  have h₉ : fence.length = 3 := by decide
  have h₁₀ : separator.length = 1 := by decide
  unfold upToName
  simp only [List.length_append, List.length_singleton]
  omega

/-- What stands between the name and the phone number is at most 60 units long. -/
theorem length_upToPhone_le : (upToPhone input).length ≤ 60 := by
  unfold upToPhone
  cases input.role <;> decide

/-- What stands between the phone number and the path is at most 140 units long. -/
theorem length_upToPath_le : (upToPath input).length ≤ 140 := by
  have hcategory : (inlineBlock (supportCategoryLabel input.category)).length ≤ 30 := by
    cases input.category <;> decide
  have hseverity : (inlineBlock (supportSeverityLabel input.severity)).length ≤ 20 := by
    cases input.severity <;> decide
  have h₁ : (lit "||").length = 2 := by decide
  have h₂ : (lit "**ประเภท:**").length ≤ 15 := by decide
  have h₃ : (lit "**ระดับ:**").length ≤ 15 := by decide
  have h₄ : (lit "**หน้าที่พบปัญหา:**").length ≤ 25 := by decide
  have h₅ : fence.length = 3 := by decide
  have h₆ : separator.length = 1 := by decide
  unfold upToPath
  simp only [List.length_append, List.length_singleton]
  omega

/-- The limit of a cut, as a number of units. -/
theorem length_truncateText_le_of_natCast (t : JsString) (n : ℕ) : (truncateText t n).length ≤ n :=
  Int.ofNat_le.mp (length_truncateText_le (Int.natCast_nonneg n))

/-- What the template and the texts of a line take. -/
theorem length_assemble_nil_le : (assemble input [] []).length ≤ 800 + input.code.length := by
  have hname : (reporterName input).length ≤ 100 := length_truncateText_le_of_natCast _ 100
  have hphone : (phone input).length ≤ 40 := length_truncateText_le_of_natCast _ 40
  have hpath : (path input).length ≤ 200 := length_truncateText_le_of_natCast _ 200
  have h₁ := @length_heading_le input
  have h₂ := @length_upToName_le input
  have h₃ := @length_upToPhone_le input
  have h₄ := @length_upToPath_le input
  have h₅ : upToDescription.length ≤ 30 := by decide
  have h₆ : upToDiagnostics.length ≤ 40 := by decide
  have h₇ : ending.length ≤ 5 := by decide
  rw [assemble_eq, length_text]
  simp only [layout, List.map_cons, List.map_nil, List.sum_cons, List.sum_nil, List.length_nil]
  linarith

end length

/-! ### The bodies -/

section bodies

variable {input}

/-- With a code that is not absurdly long there is room for the description. -/
theorem remaining_le (hcode : input.code.length ≤ 1000) : 200 ≤ remaining input := by
  have hle := @length_assemble_nil_le input
  unfold remaining discordContentMax
  generalize (assemble input [] []).length = n at hle ⊢
  omega

/-- The description is shown as it is, or cut if it does not fit. -/
theorem descBody_cases (hcode : input.code.length ≤ 1000) :
    descBody input = description input ∨
      remaining input < (description input).length + 1 ∧
        ∃ cut, cut <+: description input ∧ descBody input = cut ++ [ellipsis] := by
  have hrem := remaining_le hcode
  unfold descBody descBudget
  generalize remaining input = r at hrem ⊢
  generalize description input = s
  rcases le_or_gt (s.length + 1 : ℤ) r with hfits | hlong
  · left
    rw [min_eq_left (by omega), max_eq_right (by omega), truncateText]
    split_ifs with hnil
    · rw [List.length_eq_zero_iff.mp (by omega : s.length = 0)]
    · rfl
    · omega
  · rw [min_eq_right (by omega), max_eq_right (by omega)]
    rcases truncateText_cases (by omega : 0 < r - 1) s with
      ⟨h, -⟩ | ⟨-, cut, rest, hs, -, h, -⟩
    · exact .inl h
    · exact .inr ⟨hlong, cut, hs ▸ List.prefix_append cut rest, h⟩

/-- The description leaves room for at least one unit of diagnostics. -/
theorem length_descBody_lt (hcode : input.code.length ≤ 1000) :
    ((descBody input).length : ℤ) < remaining input := by
  have hrem := remaining_le hcode
  have hle : ((descBody input).length : ℤ) ≤ descBudget input :=
    length_truncateText_le (le_max_left _ _)
  have hbudget : descBudget input ≤ max 0 (remaining input - 1) :=
    max_le_max le_rfl (min_le_right _ _)
  rw [max_eq_right (by omega)] at hbudget
  omega

/-- The message is within Discord's limit. -/
theorem length_content_le (hcode : input.code.length ≤ 1000) :
    (buildDiscordPayload input).content.length ≤ 2000 := by
  have hlt := length_descBody_lt hcode
  have hdiag : ((diagBody input).length : ℤ) ≤ remaining input - (descBody input).length :=
    length_truncateText_le (by omega)
  have hlen := @length_assemble input (descBody input) (diagBody input)
  have hrem : remaining input = 2000 - (assemble input [] []).length := rfl
  rw [show (buildDiscordPayload input).content = assemble input (descBody input) (diagBody input)
    from rfl, hlen]
  generalize (assemble input [] []).length = n at hrem ⊢
  omega

/-- The diagnostics are never an empty field. -/
theorem diagnostics_ne_nil : diagnostics input ≠ [] := orElse_ne_nil (by decide)

/-- What is left of the diagnostics after the cut is not empty either. -/
theorem diagBody_ne_nil (hcode : input.code.length ≤ 1000) : diagBody input ≠ [] := by
  have hlt := length_descBody_lt hcode
  exact truncateText_ne_nil (by omega) diagnostics_ne_nil

/-- No fence is in the description, cut or not. -/
theorem free_descBody : Free fence (descBody input) :=
  free_truncateText (by decide) (free_sanitizeBlock.mono trim_isInfix)

/-- No fence is in the diagnostics, cut or not. -/
theorem free_diagBody : Free fence (diagBody input) := by
  refine free_truncateText (by decide) ?_
  unfold diagnostics orElse
  split_ifs
  · exact ((by decide : Harmless empty).spoiler []).free
  · exact free_sanitizeBlock.mono trim_isInfix

/-- The description shown is a start of the one that was sent. -/
theorem wide_descBody : wide (descBody input) <+: wide input.description := by
  refine wide_truncateText.trans ?_
  rw [description, wide_trim, wide_sanitizeBlock]

/-- The diagnostics shown are a start of those that were sent. -/
theorem wide_diagBody : wide (diagBody input) <+: wide (input.diagnostics.getD []) := by
  refine wide_truncateText.trans ?_
  unfold diagnostics orElse
  split_ifs
  · exact List.nil_prefix
  · rw [wide_trim, wide_sanitizeBlock]

end bodies

/-! ### The result -/

/-- The text of the report that a piece shows. -/
def raw : Part → JsString
  | .template => []
  | .code => input.code
  | .reporterName => input.reporterName.getD []
  | .phone => input.phoneNumber.getD []
  | .path => input.path
  | .description => input.description
  | .diagnostics => input.diagnostics.getD []

/-- The pieces of the message that is sent. -/
def pieces : List (Part × JsString) := layout input (descBody input) (diagBody input)

/-- A report stays in its message. -/
structure Contained : Prop where
  /-- The message consists of its pieces. -/
  content_eq : (buildDiscordPayload input).content = text (pieces input)
  /-- It is not too long. -/
  length_le : (buildDiscordPayload input).content.length ≤ 2000
  /-- Fences stand where the template has them, or in the code of the report. -/
  fences : ∀ i, At fence (buildDiscordPayload input).content i ↔
    Stands (fun p ↦ p = .template ∨ p = .code) fence (pieces input) i
  /-- No spoiler mark stands within a spoiler or partly in a text. -/
  spoilers : ∀ i, At spoiler (buildDiscordPayload input).content i ↔
    Stands (fun p ↦ p ≠ .reporterName ∧ p ≠ .phone) spoiler (pieces input) i
  /-- A text in a line is not empty, has no line break and does not touch a fence. -/
  lines : ∀ t ∈ [reporterName input, phone input, path input], t ≠ [] ∧ 10 ∉ t ∧ 13 ∉ t ∧
    t.head? ≠ some backtick ∧ t.getLast? ≠ some backtick
  /-- The diagnostics are shown. -/
  diagnostics : diagBody input ≠ []
  /-- The description is cut only if it does not fit. -/
  description : descBody input = description input ∨
    2000 < (assemble input (Support.description input) []).length + 1 ∧
      ∃ cut, cut <+: Support.description input ∧ descBody input = cut ++ [ellipsis]
  /-- A piece has no surrogates but those of its text, up to where it is cut. -/
  pairs : ∀ x ∈ pieces input, x.1 ≠ .template → wide x.2 <+: wide (raw input x.1)
  /-- The pieces meet in no surrogate pair. -/
  meet : wide (buildDiscordPayload input).content =
    ((pieces input).map fun p ↦ wide p.2).flatten

variable {input}

/-- What is true of the pieces is true of the texts; the template has its own reasons. -/
private theorem forall_pieces (Q : Part → JsString → Prop) (htemplate : ∀ t, Q .template t)
    (hcode : Q .code input.code) (hname : Q .reporterName (reporterName input))
    (hphone : Q .phone (phone input)) (hpath : Q .path (path input))
    (hdescription : Q .description (descBody input))
    (hdiagnostics : Q .diagnostics (diagBody input)) : ∀ x ∈ pieces input, Q x.1 x.2 := by
  intro x hx
  simp only [pieces, layout, List.mem_cons, List.not_mem_nil, or_false] at hx
  rcases hx with rfl | rfl | rfl | rfl | rfl | rfl | rfl | rfl | rfl | rfl | rfl | rfl | rfl
  · exact htemplate _
  · exact hcode
  · exact htemplate _
  · exact hname
  · exact htemplate _
  · exact hphone
  · exact htemplate _
  · exact hpath
  · exact htemplate _
  · exact hdescription
  · exact htemplate _
  · exact hdiagnostics
  · exact htemplate _

/-- The message of a report is the text of its pieces. -/
theorem content_eq : (buildDiscordPayload input).content = text (pieces input) :=
  assemble_eq input (descBody input) (diagBody input)

/-- No piece that comes from the reporter has a fence in it. -/
theorem free_fence_pieces :
    ∀ x ∈ pieces input, ¬ (x.1 = .template ∨ x.1 = .code) → Free fence x.2 := by
  refine forall_pieces (fun p t ↦ ¬ (p = .template ∨ p = .code) → Free fence t) ?_ ?_ ?_ ?_ ?_ ?_ ?_
  · exact fun _ h ↦ absurd (.inl rfl) h
  · exact fun h ↦ absurd (.inr rfl) h
  · exact fun _ ↦ inline_reporterName.free
  · exact fun _ ↦ inline_phone.free
  · exact fun _ ↦ inline_path.free
  · exact fun _ ↦ free_descBody
  · exact fun _ ↦ free_diagBody

/-- Neither the name nor the phone number has a spoiler mark in it. -/
theorem free_spoiler_pieces :
    ∀ x ∈ pieces input, ¬ (x.1 ≠ .reporterName ∧ x.1 ≠ .phone) → Free spoiler x.2 := by
  refine forall_pieces (fun p t ↦ ¬ (p ≠ .reporterName ∧ p ≠ .phone) → Free spoiler t)
    ?_ ?_ ?_ ?_ ?_ ?_ ?_
  · exact fun _ h ↦ absurd ⟨nofun, nofun⟩ h
  · exact fun h ↦ absurd ⟨nofun, nofun⟩ h
  · exact fun _ ↦ inline_reporterName.closed
  · exact fun _ ↦ inline_phone.closed
  · exact fun h ↦ absurd ⟨nofun, nofun⟩ h
  · exact fun h ↦ absurd ⟨nofun, nofun⟩ h
  · exact fun h ↦ absurd ⟨nofun, nofun⟩ h

/-- Every piece that comes from the reporter shows a start of what was sent. -/
theorem wide_pieces : ∀ x ∈ pieces input, x.1 ≠ .template → wide x.2 <+: wide (raw input x.1) := by
  refine forall_pieces (fun p t ↦ p ≠ .template → wide t <+: wide (raw input p))
    ?_ ?_ ?_ ?_ ?_ ?_ ?_
  · exact fun _ h ↦ absurd rfl h
  · exact fun _ ↦ List.prefix_refl _
  · exact fun _ ↦ inline_reporterName.wide
  · exact fun _ ↦ inline_phone.wide
  · exact fun _ ↦ inline_path.wide
  · exact fun _ ↦ wide_descBody
  · exact fun _ ↦ wide_diagBody

/-- A fence of the message is one of the template's, or of the code that the program mints. -/
theorem at_fence {i : ℕ} : At fence (text (pieces input)) i ↔
    Stands (fun p ↦ p = .template ∨ p = .code) fence (pieces input) i :=
  at_text (n := 2) seams_backtick free_fence_pieces

/-- A spoiler mark of the message is none of the name's or the phone number's. -/
theorem at_spoiler {i : ℕ} : At spoiler (text (pieces input)) i ↔
    Stands (fun p ↦ p ≠ .reporterName ∧ p ≠ .phone) spoiler (pieces input) i :=
  at_text (n := 1) seams_pipe free_spoiler_pieces

/-- The three inline fields are not empty, stay on their line and do not touch the backticks around
them. -/
theorem lines_of_fields : ∀ t ∈ [reporterName input, phone input, path input], t ≠ [] ∧ 10 ∉ t ∧
    13 ∉ t ∧ t.head? ≠ some backtick ∧ t.getLast? ≠ some backtick := by
  have hfield {raw t : JsString} (hne : t ≠ []) (h : Inline raw t) : t ≠ [] ∧ 10 ∉ t ∧
      13 ∉ t ∧ t.head? ≠ some backtick ∧ t.getLast? ≠ some backtick :=
    ⟨hne, h.no_newline.1, h.no_newline.2, h.head, h.last⟩
  intro t ht
  simp only [List.mem_cons, List.not_mem_nil, or_false] at ht
  rcases ht with rfl | rfl | rfl
  · exact hfield reporterName_ne_nil inline_reporterName.toInline
  · exact hfield phone_ne_nil inline_phone.toInline
  · exact hfield path_ne_nil inline_path

/-- Where the description had to be cut, the message with all of it would have been too long. -/
theorem too_long_of_remaining (h : remaining input < (description input).length + 1) :
    2000 < (assemble input (description input) []).length + 1 := by
  have hrem : remaining input = 2000 - (assemble input [] []).length := rfl
  rw [length_assemble, List.length_nil]
  generalize (assemble input [] []).length = n at hrem ⊢
  omega

/-- A report whose code is not excessively long stays in its message. -/
theorem contained (hcode : input.code.length ≤ 1000) : Contained input where
  content_eq := content_eq
  length_le := length_content_le hcode
  fences i := by
    rw [content_eq]
    exact at_fence
  spoilers i := by
    rw [content_eq]
    exact at_spoiler
  lines := lines_of_fields
  diagnostics := diagBody_ne_nil hcode
  description := (descBody_cases hcode).imp_right (And.imp_left too_long_of_remaining)
  pairs := wide_pieces
  meet := by
    rw [content_eq, text, pieces, wide_flatten noPairs, List.map_map]
    rfl

theorem contained_report : Contained
    ⟨lit "INC-1001", .web, .critical, .admin, some (lit "a||b"), none,
    lit "/backend", lit "a```b", none, some 0, []⟩ :=
  contained (by decide)

end EasyBook.Support

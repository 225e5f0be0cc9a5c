import EasyBook.Bookings.TimeText
import EasyBook.Line.FlexMessage

/-!
# The booking cards

`buildDecisionCard` tells the owner of a booking about a change of its status, `buildReminderCard`
reminds them of it. LINE takes the cards of both, provided that what is always shown has something
in it (`accepted_buildDecisionCard`, `accepted_buildReminderCard`).
-/

namespace EasyBook.Cards

open JsString JsDate

/-! ### The constants -/

/-- `DecisionCardStatus`. -/
inductive DecisionCardStatus where
  | pending
  | approved
  | rejected
  | autoRejected
  | expired
  | cancelledByStaff
  | cancelledByUser
  | slotAvailable
  deriving DecidableEq

/-- `DecisionCardOptions`. -/
structure DecisionCardOptions where
  status : DecisionCardStatus
  bookingCode : JsString
  purpose : Option JsString
  attendees : Option ℤ
  venueName : JsString
  venueLocation : Option JsString
  dateText : JsString
  dateSummary : Option JsString
  periodText : JsString
  reason : Option JsString
  bookingId : Option Cuid
  venueId : Option Cuid
  liffUrl : Option JsString

/-- `leadTimeText`. -/
inductive LeadTime where
  | oneHour
  | thirtyMinutes

def LeadTime.text : LeadTime → JsString
  | oneHour => lit "1 ชั่วโมง"
  | thirtyMinutes => lit "30 นาที"

/-- `ReminderCardOptions`. -/
structure ReminderCardOptions where
  leadTimeText : LeadTime
  bookingCode : JsString
  purpose : JsString
  attendees : ℤ
  venueName : JsString
  venueLocation : Option JsString
  dateText : JsString
  periodText : JsString

/-- A status token. -/
structure Tone where
  fill : String
  ink : String

def Tone.success : Tone := ⟨"#047857", "#ffffff"⟩

def Tone.warning : Tone := ⟨"#f59e0b", "#0f172a"⟩

def Tone.info : Tone := ⟨"#0369a1", "#ffffff"⟩

def Tone.error : Tone := ⟨"#be123c", "#ffffff"⟩

def Tone.neutral : Tone := ⟨"#334155", "#ffffff"⟩

def eyebrowAlpha : String := "bf"

def ink : String := "#0f172a"

def inkSoft : String := "#475569"

def surfaceSoft : String := "#f1f5f9"

def lineSoft : String := "#e2e8f0"

def autoRejectedNotice : JsString := lit "ช่วงเวลาดังกล่าวมีผู้ได้รับสิทธิ์แล้ว"

/-- `bookingRoute`; `encodeURIComponent` leaves a `cuid()` as it is. -/
def bookingRoute (o : DecisionCardOptions) : Option JsString :=
  o.bookingId.map fun id ↦ lit "/booking/" ++ cuidText id

/-- `venueRoute`. -/
def venueRoute (o : DecisionCardOptions) : Option JsString :=
  o.venueId.map fun id ↦ lit "/venue/" ++ cuidText id

/-- `venuesRoute`. -/
def venuesRoute (_ : DecisionCardOptions) : Option JsString := some (lit "/venues")

/-- The button of a card. -/
structure Cta where
  label : JsString
  color : String
  route : DecisionCardOptions → Option JsString

/-- `DecisionCopy`. -/
structure DecisionCopy where
  tone : Tone
  eyebrow : JsString
  headline : JsString
  intro : JsString
  codeLabel : Option JsString
  reasonLabel : Option JsString
  footnote : Option JsString
  cta : Cta
  altText : DecisionCardOptions → JsString → JsString

/-- `DECISION_COPY`. -/
def decisionCopy : DecisionCardStatus → DecisionCopy
  | .pending =>
    { tone := Tone.warning
      eyebrow := lit "สถานะคำขอจองสถานที่"
      headline := lit "ยื่นคำขอสำเร็จ (รอการพิจารณา)"
      intro := lit
        "ระบบได้รับคำขอจองสถานที่ของคุณเรียบร้อยแล้ว เจ้าหน้าที่จะดำเนินการตรวจสอบและแจ้งผลให้ทราบอีกครั้ง"
      codeLabel := some (lit "รหัสคำขอ")
      reasonLabel := none
      footnote := none
      cta := ⟨lit "ดูรายละเอียดคำขอจอง", ink, bookingRoute⟩
      altText := fun o when ↦ lit "ยื่นคำขอจองสำเร็จ: " ++ o.venueName ++ lit " วันที่ " ++ when ++
        lit " (รหัส " ++ o.bookingCode ++ lit ") อยู่ระหว่างรอพิจารณา" }
  | .approved =>
    { tone := Tone.success
      eyebrow := lit "ผลการพิจารณาคำขอจอง"
      headline := lit "อนุมัติคำขอแล้ว"
      intro := lit "คำขอจองสถานที่ของคุณได้รับการอนุมัติเรียบร้อยแล้ว"
      codeLabel := some (lit "รหัสการจอง")
      reasonLabel := none
      footnote := none
      cta := ⟨lit "ดูรายละเอียดคำขอจอง", Tone.success.fill, bookingRoute⟩
      altText := fun o when ↦ lit "อนุมัติคำขอจอง: " ++ o.venueName ++ lit " วันที่ " ++ when ++
        lit " (รหัส " ++ o.bookingCode ++ lit ")" }
  | .rejected =>
    { tone := Tone.error
      eyebrow := lit "ผลการพิจารณาคำขอจอง"
      headline := lit "คำขอไม่ได้รับอนุมัติ"
      intro := lit "ขออภัย คำขอจองสถานที่ของคุณไม่ผ่านการอนุมัติ"
      codeLabel := some (lit "รหัสคำขอ")
      reasonLabel := some (lit "เหตุผลประกอบ")
      footnote := none
      cta := ⟨lit "เลือกจองช่วงเวลาอื่น", ink, venueRoute⟩
      altText := fun o when ↦
        lit "คำขอจองไม่ผ่านการอนุมัติ: " ++ o.venueName ++ lit " วันที่ " ++ when }
  | .autoRejected =>
    { tone := Tone.info
      eyebrow := lit "แจ้งเตือนสถานะช่วงเวลา"
      headline := autoRejectedNotice
      intro := lit
        "ขออภัย ช่วงเวลาที่คุณส่งคำขอมีผู้ได้รับอนุมัติสิทธิ์การใช้งานแล้ว ระบบจึงทำการยกเลิกคำขอของคุณโดยอัตโนมัติ"
      codeLabel := some (lit "รหัสคำขอ")
      reasonLabel := none
      footnote := some (lit "คุณสามารถเลือกดูตารางและยื่นคำขอในช่วงเวลาอื่นได้ทันที")
      cta := ⟨lit "ค้นหาช่วงเวลาอื่นที่ว่าง", Tone.info.fill, venueRoute⟩
      altText := fun o when ↦ lit "ช่วงเวลา " ++ when ++ lit " " ++ o.venueName ++
        lit " มีผู้ได้รับสิทธิ์แล้ว ระบบจึงยกเลิกคำขอของคุณ" }
  | .expired =>
    { tone := Tone.neutral
      eyebrow := lit "ผลการพิจารณาคำขอจอง"
      headline := lit "หมดเวลาพิจารณา"
      intro := lit
        "คำขอจองสถานที่ของคุณหมดอายุโดยอัตโนมัติ เนื่องจากเลยกำหนดเวลาเริ่มต้นใช้งานโดยยังไม่ได้รับการพิจารณา"
      codeLabel := some (lit "รหัสคำขอ")
      reasonLabel := none
      footnote := some (lit "หากยังต้องการใช้งานสถานที่ กรุณายื่นคำขอใหม่อีกครั้ง")
      cta := ⟨lit "เลือกจองช่วงเวลาอื่น", Tone.neutral.fill, venueRoute⟩
      altText := fun o when ↦ lit "คำขอจองหมดเวลาพิจารณา: " ++ o.venueName ++ lit " วันที่ " ++
        when ++ lit " (รหัส " ++ o.bookingCode ++ lit ")" }
  | .cancelledByStaff =>
    { tone := Tone.error
      eyebrow := lit "แจ้งเตือนการยกเลิกการจอง"
      headline := lit "การจองของคุณถูกยกเลิกโดยเจ้าหน้าที่"
      intro := lit
        "ขออภัย รายการจองสถานที่ของคุณที่ได้รับการอนุมัติแล้วจำเป็นต้องถูกยกเลิกเนื่องจากเหตุจำเป็น"
      codeLabel := some (lit "รหัสการจอง")
      reasonLabel := some (lit "เหตุผลการยกเลิก")
      footnote := none
      cta := ⟨lit "ดูรายละเอียดคำขอจอง", ink, bookingRoute⟩
      altText := fun o when ↦ lit "การจองของคุณถูกยกเลิก: " ++ o.venueName ++ lit " วันที่ " ++
        when ++ lit " โดยเจ้าหน้าที่" }
  | .cancelledByUser =>
    { tone := Tone.neutral
      eyebrow := lit "แจ้งเตือนการยกเลิกการจอง"
      headline := lit "ยกเลิกรายการจองสำเร็จแล้ว"
      intro := lit
        "คุณได้ทำการยกเลิกรายการจองสถานที่เรียบร้อยแล้ว ระบบได้ทำการคืนช่วงเวลาดังกล่าวให้ผู้อื่นสามารถจองได้แล้ว"
      codeLabel := some (lit "รหัสคำขอ")
      reasonLabel := none
      footnote := none
      cta := ⟨lit "ค้นหาสถานที่เพื่อจองใหม่", Tone.neutral.fill, venuesRoute⟩
      altText := fun o when ↦ lit "ยกเลิกการจองสำเร็จ: " ++ o.venueName ++ lit " วันที่ " ++ when ++
        lit " (รหัส " ++ o.bookingCode ++ lit ")" }
  | .slotAvailable =>
    { tone := Tone.success
      eyebrow := lit "แจ้งเตือนสล็อตว่าง"
      headline := lit "ช่วงเวลานี้เปิดให้จองอีกครั้ง"
      intro := lit
        "ช่วงเวลาที่คุณเคยให้ความสนใจเปิดว่างแล้วในขณะนี้ หากยังต้องการใช้งาน สามารถส่งคำขอจองใหม่ได้ทันที"
      codeLabel := none
      reasonLabel := none
      footnote := none
      cta := ⟨lit "ส่งคำขอจองทันที", Tone.success.fill, venueRoute⟩
      altText := fun o when ↦ lit "ช่วงเวลา " ++ when ++ lit " " ++ o.venueName ++
        lit " เปิดให้จองได้อีกครั้ง" }

/-! ### The cards -/

/-- `text`. -/
def text (content : JsString) (extra : List (String × String)) : FlexComponent :=
  .text content (("wrap", "true") :: extra)

/-- `row`. -/
def row (label value : JsString) : FlexComponent :=
  .box [("layout", "baseline"), ("spacing", "sm")]
    [text label [("size", "sm"), ("color", inkSoft), ("flex", "3")],
      text value [("size", "sm"), ("color", ink), ("flex", "7")]]

/-- `present`, with the value if there is one. -/
def present (value : Option JsString) : Option JsString :=
  value.filter fun s ↦ decide (trim s ≠ [])

/-- `section`. -/
def sectionBox (title : JsString) (rows : List FlexComponent) : FlexComponent :=
  .box [("layout", "vertical"), ("backgroundColor", surfaceSoft), ("cornerRadius", "8px"),
      ("paddingAll", "12px"), ("margin", "lg"), ("spacing", "sm")]
    (text title [("size", "xs"), ("color", inkSoft), ("weight", "bold")] :: rows)

/-- `bookingSection`. -/
def bookingSection (codeLabel bookingCode : JsString) (purpose : Option JsString)
    (attendees : Option ℤ) : FlexComponent :=
  sectionBox (lit "ข้อมูลการจอง") (row codeLabel bookingCode ::
    (present purpose).toList.map (row (lit "วัตถุประสงค์")) ++
    attendees.toList.map fun n ↦ row (lit "ผู้เข้าร่วม") (decimal n ++ lit " คน"))

/-- `venueSection`. -/
def venueSection (dateLabel venueName : JsString) (venueLocation : Option JsString)
    (dateText periodText : JsString) : FlexComponent :=
  sectionBox (lit "ข้อมูลสถานที่") (row (lit "สถานที่") venueName ::
    (present venueLocation).toList.map (row (lit "อาคาร/พิกัด")) ++
    [row dateLabel dateText, row (lit "ช่วงเวลา") periodText])

/-- `header`. -/
def header (tone : Tone) (eyebrow headline : JsString) : FlexComponent :=
  .box [("layout", "vertical"), ("backgroundColor", tone.fill), ("paddingAll", "16px"),
      ("spacing", "xs")]
    [text eyebrow [("size", "xs"), ("color", tone.ink ++ eyebrowAlpha)],
      text headline [("size", "lg"), ("weight", "bold"), ("color", tone.ink)]]

/-- The box of a reason. -/
def reasonBox (label reason : JsString) : FlexComponent :=
  .box [("layout", "vertical"), ("borderColor", lineSoft), ("borderWidth", "1px"),
      ("cornerRadius", "8px"), ("paddingAll", "12px"), ("margin", "lg"), ("spacing", "sm")]
    [text (lit "เหตุผลจากเจ้าหน้าที่") [("size", "xs"), ("color", inkSoft), ("weight", "bold")],
      text label [("size", "xs"), ("color", inkSoft)],
      text reason [("size", "sm"), ("color", ink), ("lineSpacing", "6px")]]

/-- `.replace(/\/$/, '')`. -/
def dropSlash (s : JsString) : JsString := if s.getLast? = some 47 then s.dropLast else s

/-- The box around a body. -/
def bodyBox (contents : List FlexComponent) : FlexComponent :=
  .box [("layout", "vertical"), ("paddingAll", "16px")] contents

/-- The box around a button. -/
def footerBox (color : String) (label uri : JsString) : FlexComponent :=
  .box [("layout", "vertical"), ("paddingAll", "12px"), ("paddingTop", "none")]
    [.button [("style", "primary"), ("height", "sm"), ("color", color)] label uri]

/-- `buildDecisionCard`. -/
def buildDecisionCard (options : DecisionCardOptions) : FlexMessage :=
  let copy := decisionCopy options.status
  let when := options.dateSummary.getD options.dateText ++ lit " " ++ options.periodText
  let body :=
    text copy.intro [("size", "sm"), ("color", ink), ("lineSpacing", "6px")] ::
      (copy.codeLabel.toList.map fun codeLabel ↦
        bookingSection codeLabel options.bookingCode options.purpose options.attendees) ++
      [venueSection (lit "วันที่ใช้งาน") options.venueName options.venueLocation options.dateText
        options.periodText] ++
      (copy.reasonLabel.toList.flatMap fun label ↦
        (present options.reason).toList.map (reasonBox label)) ++
      copy.footnote.toList.map fun footnote ↦
        text footnote [("size", "sm"), ("color", inkSoft), ("margin", "lg")]
  { altText := toAltText (copy.altText options when)
    contents :=
      { header := header copy.tone copy.eyebrow copy.headline
        body := bodyBox body
        footer := match options.liffUrl, copy.cta.route options with
          | some liffUrl, some route =>
            if liffUrl = [] then none
            else some (footerBox copy.cta.color copy.cta.label (dropSlash liffUrl ++ route))
          | _, _ => none } }

/-- `buildReminderCard`. -/
def buildReminderCard (options : ReminderCardOptions) : FlexMessage where
  altText := toAltText (lit "เตือนความจำ: ใกล้ถึงเวลาเข้าใช้สถานที่ " ++ options.venueName ++
    lit " เวลา " ++ options.periodText)
  contents :=
    { header := header Tone.warning (lit "เตือนความจำการใช้งาน") (lit "ใกล้ถึงเวลาเข้าใช้งานแล้ว")
      body := bodyBox
        [text (lit "รายการจองสถานที่ของคุณใกล้จะเริ่มต้นในอีก " ++ options.leadTimeText.text)
            [("size", "sm"), ("color", ink), ("lineSpacing", "6px")],
          bookingSection (lit "รหัสการจอง") options.bookingCode (some options.purpose)
            (some options.attendees),
          venueSection (lit "วันที่") options.venueName options.venueLocation options.dateText
            options.periodText,
          text (lit "เมื่อถึงเวลาตามกำหนด คุณสามารถเข้าใช้งานสถานที่ได้ทันที")
            [("size", "sm"), ("color", inkSoft), ("margin", "lg")]]
      footer := none }

/-! ### The texts of the cards -/

/-- No text of the component is empty. -/
def FlexComponent.Filled (c : FlexComponent) : Prop := ∀ t ∈ c.texts, t ≠ []

variable {content label value title reason t : JsString} {extra style : List (String × String)}
  {contents rows : List FlexComponent} {codeLabel bookingCode dateLabel venueName : JsString}
  {dateText periodText eyebrow headline uri : JsString} {purpose venueLocation v : Option JsString}
  {tone : Tone} {attendees : Option ℤ} {color : String}

theorem filled_text (h : content ≠ []) : (text content extra).Filled := by
  intro t ht
  rw [text, texts_text] at ht
  rwa [List.mem_singleton.mp ht]

theorem filled_box (h : ∀ c ∈ contents, c.Filled) : (FlexComponent.box style contents).Filled := by
  intro t ht
  rw [texts_box] at ht
  induction contents with
  | nil => cases ht
  | cons c cs ih =>
    rw [textsOf_cons, List.mem_append] at ht
    rcases ht with ht | ht
    · exact h c (List.mem_cons_self ..) t ht
    · exact ih (fun c hc ↦ h c (List.mem_cons_of_mem _ hc)) ht

theorem filled_row (hlabel : label ≠ []) (hvalue : value ≠ []) : (row label value).Filled := by
  refine filled_box ?_
  simp only [List.mem_cons, List.not_mem_nil, or_false]
  rintro c (rfl | rfl)
  · exact filled_text hlabel
  · exact filled_text hvalue

theorem filled_section (htitle : title ≠ []) (hrows : ∀ c ∈ rows, c.Filled) :
    (sectionBox title rows).Filled := by
  refine filled_box fun c hc ↦ ?_
  rcases List.mem_cons.mp hc with rfl | hc
  · exact filled_text htitle
  · exact hrows c hc

theorem ne_nil_of_present (h : t ∈ present v) : t ≠ [] := by
  obtain ⟨-, ht⟩ := Option.filter_eq_some_iff.mp h
  rintro rfl
  exact absurd (of_decide_eq_true ht) (by decide)

theorem filled_bookingSection (hlabel : codeLabel ≠ []) (hcode : bookingCode ≠ []) :
    (bookingSection codeLabel bookingCode purpose attendees).Filled := by
  refine filled_section (by decide) fun c hc ↦ ?_
  rcases List.mem_append.mp hc with hc | hc
  · rcases List.mem_cons.mp hc with rfl | hc
    · exact filled_row hlabel hcode
    · obtain ⟨p, hp, rfl⟩ := List.mem_map.mp hc
      exact filled_row (by decide) (ne_nil_of_present (Option.mem_toList.mp hp))
  · obtain ⟨n, -, rfl⟩ := List.mem_map.mp hc
    have hunit : lit " คน" ≠ [] := by decide
    exact filled_row (by decide) (by simp [hunit])

theorem filled_venueSection (hlabel : dateLabel ≠ []) (hname : venueName ≠ [])
    (hdate : dateText ≠ []) (hperiod : periodText ≠ []) :
    (venueSection dateLabel venueName venueLocation dateText periodText).Filled := by
  refine filled_section (by decide) fun c hc ↦ ?_
  rcases List.mem_append.mp hc with hc | hc
  · rcases List.mem_cons.mp hc with rfl | hc
    · exact filled_row (by decide) hname
    · obtain ⟨p, hp, rfl⟩ := List.mem_map.mp hc
      exact filled_row (by decide) (ne_nil_of_present (Option.mem_toList.mp hp))
  · simp only [List.mem_cons, List.not_mem_nil, or_false] at hc
    rcases hc with rfl | rfl
    · exact filled_row hlabel hdate
    · exact filled_row (by decide) hperiod

theorem filled_header (heyebrow : eyebrow ≠ []) (hheadline : headline ≠ []) :
    (header tone eyebrow headline).Filled := by
  refine filled_box ?_
  simp only [List.mem_cons, List.not_mem_nil, or_false]
  rintro c (rfl | rfl)
  · exact filled_text heyebrow
  · exact filled_text hheadline

theorem filled_reasonBox (hlabel : label ≠ []) (hreason : reason ≠ []) :
    (reasonBox label reason).Filled := by
  refine filled_box ?_
  simp only [List.mem_cons, List.not_mem_nil, or_false]
  rintro c (rfl | rfl | rfl)
  · exact filled_text (by decide)
  · exact filled_text hlabel
  · exact filled_text hreason

theorem filled_footerBox : (footerBox color label uri).Filled := by
  intro t ht
  simp [footerBox] at ht

/-- The texts of a message are those of its parts. -/
theorem texts_ne_nil {m : FlexMessage} (hheader : m.contents.header.Filled)
    (hbody : m.contents.body.Filled) (hfooter : ∀ c ∈ m.contents.footer, c.Filled) :
    ∀ t ∈ m.texts, t ≠ [] := by
  intro t ht
  rw [FlexMessage.texts, List.mem_append, List.mem_append] at ht
  rcases ht with (ht | ht) | ht
  · exact hheader t ht
  · exact hbody t ht
  · cases hc : m.contents.footer with
    | none =>
      rw [hc] at ht
      cases ht
    | some c =>
      rw [hc] at ht
      exact hfooter c hc t ht

/-- The texts of the templates. -/
structure DecisionCopy.Filled (copy : DecisionCopy) : Prop where
  eyebrow : copy.eyebrow ≠ []
  headline : copy.headline ≠ []
  intro : copy.intro ≠ []
  codeLabel : ∀ l ∈ copy.codeLabel, l ≠ []
  reasonLabel : ∀ l ∈ copy.reasonLabel, l ≠ []
  footnote : ∀ l ∈ copy.footnote, l ≠ []

theorem filled_copy (status : DecisionCardStatus) : (decisionCopy status).Filled := by
  have hlit {s : String} (hs : s ≠ "") : ∀ l ∈ some (lit s), l ≠ [] := fun l hl ↦ by
    rw [← Option.some.inj hl]
    exact lit_ne_nil hs
  have hnone : ∀ l ∈ (none : Option JsString), l ≠ [] := fun _ hl ↦ nomatch hl
  constructor
  · cases status <;> simp only [decisionCopy, autoRejectedNotice] <;>
      exact lit_ne_nil (by decide +kernel)
  · cases status <;> simp only [decisionCopy, autoRejectedNotice] <;>
      exact lit_ne_nil (by decide +kernel)
  · cases status <;> simp only [decisionCopy] <;> exact lit_ne_nil (by decide +kernel)
  · cases status <;> simp only [decisionCopy] <;>
      first | exact hlit (by decide +kernel) | exact hnone
  · cases status <;> simp only [decisionCopy] <;>
      first | exact hlit (by decide +kernel) | exact hnone
  · cases status <;> simp only [decisionCopy] <;>
      first | exact hlit (by decide +kernel) | exact hnone

theorem filled_bodyBox (h : ∀ c ∈ contents, c.Filled) : (bodyBox contents).Filled := filled_box h

/-! ### The cards are accepted -/

variable {o : DecisionCardOptions} {r : ReminderCardOptions} {w : JsString}

theorem wellFormed_altText (hname : WellFormed o.venueName) (hcode : WellFormed o.bookingCode)
    (hwhen : WellFormed w) (status : DecisionCardStatus) :
    WellFormed ((decisionCopy status).altText o w) := by
  have hlit (l : String) {s : JsString} (hs : WellFormed s) : WellFormed (s ++ lit l) :=
    hs.append (wellFormed_lit l)
  have hfirst (l : String) : WellFormed (lit l ++ o.venueName) := (wellFormed_lit l).append hname
  cases status with
  | pending | approved | expired | cancelledByUser =>
    exact hlit _ ((hlit _ ((hlit _ (hfirst _)).append hwhen)).append hcode)
  | rejected => exact (hlit _ (hfirst _)).append hwhen
  | cancelledByStaff => exact hlit _ ((hlit _ (hfirst _)).append hwhen)
  | autoRejected | slotAvailable =>
    exact hlit _ ((hlit _ ((wellFormed_lit _).append hwhen)).append hname)

/-- Every template says something of its own. -/
theorem exists_mem_altText (status : DecisionCardStatus) :
    ∃ u ∈ (decisionCopy status).altText o w, ¬ isGap u := by
  have hstart {l : String} {s : JsString} (hl : ∃ u ∈ lit l, ¬ isGap u) :
      ∃ u ∈ lit l ++ s, ¬ isGap u := by
    obtain ⟨u, hu, hgap⟩ := hl
    exact ⟨u, List.mem_append_left _ hu, hgap⟩
  cases status <;> simp only [decisionCopy, List.append_assoc] <;> apply hstart <;>
    rw [lit_eq rfl] <;> decide +kernel

/-- What a decision card always shows. -/
structure DecisionCardOptions.Shown (o : DecisionCardOptions) : Prop where
  bookingCode : o.bookingCode ≠ []
  venueName : o.venueName ≠ []
  dateText : o.dateText ≠ []
  periodText : o.periodText ≠ []
  wellFormed_bookingCode : WellFormed o.bookingCode
  wellFormed_venueName : WellFormed o.venueName
  wellFormed_date : WellFormed (o.dateSummary.getD o.dateText)
  wellFormed_periodText : WellFormed o.periodText

/-- LINE takes every decision card. -/
theorem accepted_buildDecisionCard (h : o.Shown) : Accepted (buildDecisionCard o) := by
  have hcopy := filled_copy o.status
  constructor
  · obtain ⟨u, hu, hgap⟩ := exists_mem_altText o.status
    exact accepted_toAltText (wellFormed_altText h.wellFormed_venueName h.wellFormed_bookingCode
      ((h.wellFormed_date.append (wellFormed_lit _)).append h.wellFormed_periodText) _) hu hgap
  refine texts_ne_nil (filled_header hcopy.eyebrow hcopy.headline) (filled_bodyBox fun c hc ↦ ?_)
    fun c hc ↦ ?_
  · simp only [List.mem_append, List.mem_cons, List.not_mem_nil, or_false] at hc
    rcases hc with (((rfl | hc) | rfl) | hc) | hc
    · exact filled_text hcopy.intro
    · obtain ⟨l, hl, rfl⟩ := List.mem_map.mp hc
      exact filled_bookingSection (hcopy.codeLabel l (Option.mem_toList.mp hl)) h.bookingCode
    · exact filled_venueSection (lit_ne_nil (by decide)) h.venueName h.dateText h.periodText
    · obtain ⟨l, hl, hc⟩ := List.mem_flatMap.mp hc
      obtain ⟨reason, hreason, rfl⟩ := List.mem_map.mp hc
      exact filled_reasonBox (hcopy.reasonLabel l (Option.mem_toList.mp hl))
        (ne_nil_of_present (Option.mem_toList.mp hreason))
    · obtain ⟨l, hl, rfl⟩ := List.mem_map.mp hc
      exact filled_text (hcopy.footnote l (Option.mem_toList.mp hl))
  · simp only [buildDecisionCard] at hc
    split at hc
    · split_ifs at hc
      · cases hc
      · rw [← Option.some.inj hc]
        exact filled_footerBox
    · cases hc

/-- LINE takes every reminder card. -/
theorem accepted_buildReminderCard (hcode : r.bookingCode ≠ []) (hname : r.venueName ≠ [])
    (hdate : r.dateText ≠ []) (hperiod : r.periodText ≠ []) (hwname : WellFormed r.venueName)
    (hwperiod : WellFormed r.periodText) : Accepted (buildReminderCard r) := by
  constructor
  · obtain ⟨u, hu, hgap⟩ : ∃ u ∈ lit "เตือนความจำ: ใกล้ถึงเวลาเข้าใช้สถานที่ ", ¬ isGap u := by
      rw [lit_eq rfl]
      decide +kernel
    simp only [buildReminderCard]
    refine accepted_toAltText ?_ (List.mem_append_left _ ?_) hgap
    · exact (((wellFormed_lit _).append hwname).append (wellFormed_lit _)).append hwperiod
    · simp only [List.mem_append, hu, true_or]
  refine texts_ne_nil (filled_header (lit_ne_nil (by decide)) (lit_ne_nil (by decide)))
    (filled_bodyBox fun c hc ↦ ?_) fun c hc ↦ nomatch hc
  simp only [List.mem_cons, List.not_mem_nil, or_false] at hc
  rcases hc with rfl | rfl | rfl | rfl
  · refine filled_text fun hnil ↦ ?_
    rw [List.append_eq_nil_iff] at hnil
    exact lit_ne_nil (by decide +kernel) hnil.1
  · exact filled_bookingSection (lit_ne_nil (by decide)) hcode
  · exact filled_venueSection (lit_ne_nil (by decide)) hname hdate hperiod
  · exact filled_text (lit_ne_nil (by decide +kernel))

/-- The card of an automatic rejection does not depend on a reason. -/
theorem buildDecisionCard_autoRejected (h : o.status = .autoRejected) (reason : Option JsString) :
    buildDecisionCard { o with reason } = buildDecisionCard o := by
  simp only [buildDecisionCard, h, decisionCopy, Option.toList_none, List.flatMap_nil]
  rfl

end EasyBook.Cards

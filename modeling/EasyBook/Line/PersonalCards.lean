import EasyBook.Line.NotificationCards

/-!
# The cards that are pushed to one person

`sendDecision` and `sendReminder` write the cards of a stored booking, `notifyAccessChange` and
`notifyRejection` those of a registration. LINE takes all of them but some rejections: the reason of
a rejection goes into `altText` as it was typed.
-/

namespace EasyBook.Cards

open JsString JsDate

/-! ### The cards of a booking -/

/-- A slot of a `DecisionRow`. -/
structure DecisionSlot extends SlotTimes where
  id : Cuid
  isCancelled : Bool

/-- The venue of a booking. -/
structure CardVenue where
  name : JsString
  location : Option JsString

/-- `DecisionRow`. -/
structure DecisionRow where
  id : Cuid
  code : JsString
  purpose : JsString
  attendees : ℤ
  venueId : Cuid
  venue : CardVenue
  slots : List DecisionSlot

/-- `DecisionNotice`. -/
structure DecisionNotice where
  status : DecisionCardStatus
  reason : Option JsString
  slotIds : Option (List Cuid)

/-- `ReminderRow`. -/
structure ReminderRow where
  startAt : ℤ
  endAt : ℤ
  code : JsString
  purpose : JsString
  attendees : ℤ
  venue : CardVenue

/-- `pickSlots`. -/
def pickSlots (slots : List DecisionSlot) (slotIds : Option (List Cuid)) : List DecisionSlot :=
  let picked := slots.filter fun s ↦ decide (s.id ∈ slotIds.getD [])
  let live := slots.filter fun s ↦ !s.isCancelled
  if picked ≠ [] then picked else if live ≠ [] then live else slots

/-- The options of `sendDecision`. -/
def decisionOptions (notice : DecisionNotice) (row : DecisionRow) (liffUrl : Option JsString) :
    DecisionCardOptions :=
  let slots := describeSlots ((pickSlots row.slots notice.slotIds).map (·.toSlotTimes))
  { status := notice.status
    bookingCode := row.code
    purpose := some row.purpose
    attendees := some row.attendees
    venueName := row.venue.name
    venueLocation := row.venue.location
    dateText := slots.dateText
    dateSummary := some slots.dateSummary
    periodText := slots.periodText
    reason := if notice.status = .autoRejected then none else notice.reason
    bookingId := some row.id
    venueId := some row.venueId
    liffUrl }

/-- `REMINDER_LEAD_SPLIT_MINUTES`. -/
def reminderLeadSplitMinutes : ℤ := 45

/-- `reminderLeadText`. -/
def reminderLeadText (startAt now : ℤ) : LeadTime :=
  if startAt - now > reminderLeadSplitMinutes * 60000 then .oneHour else .thirtyMinutes

/-- `reminderDateText`. -/
def reminderDateText (startAt now : ℤ) : JsString :=
  if bookingCodeDatePart startAt = bookingCodeDatePart now then
    lit "วันนี้ (" ++ thaiShortDate startAt ++ lit ")"
  else thaiShortDate startAt

/-- The options of `sendReminder`. -/
def reminderOptions (row : ReminderRow) (now : ℤ) : ReminderCardOptions where
  leadTimeText := reminderLeadText row.startAt now
  bookingCode := row.code
  purpose := row.purpose
  attendees := row.attendees
  venueName := row.venue.name
  venueLocation := row.venue.location
  dateText := reminderDateText row.startAt now
  periodText := bangkokClock row.startAt ++ lit " - " ++ bangkokClock row.endAt ++ lit " น."

/-! ### The cards of a registration -/

/-- `CardAccess`. -/
inductive CardAccess where
  | pending
  | allowed
  | rejected
  | blocked
  deriving DecidableEq

namespace AccessCard

/-- `TONE`. -/
def tone : CardAccess → Tone
  | .pending => ⟨"#f59e0b", "#0f172a"⟩
  | .allowed => ⟨"#047857", "#ffffff"⟩
  | .rejected => ⟨"#0369a1", "#ffffff"⟩
  | .blocked => ⟨"#be123c", "#ffffff"⟩

/-- `HEADLINE`. -/
def headline : CardAccess → JsString
  | .pending => lit "รออนุมัติ"
  | .allowed => lit "อนุมัติแล้ว"
  | .rejected => lit "ส่งคืนให้แก้ไข"
  | .blocked => lit "ถูกระงับการใช้งาน"

/-- `BODY`. -/
def body : CardAccess → JsString
  | .pending => lit
      "ระบบได้รับข้อมูลการลงทะเบียนของคุณแล้ว เจ้าหน้าที่กำลังตรวจสอบข้อมูล กรุณารอสักครู่"
  | .allowed => lit
      "บัญชีของคุณใช้งานระบบจองสถานที่ได้แล้ว กดเมนูด้านล่างของหน้าแชทเพื่อเริ่มใช้งานได้ทันที"
  | .rejected => lit
      "ข้อมูลการลงทะเบียนของคุณยังไม่ผ่านการตรวจสอบ กรุณาแก้ไขตามเหตุผลด้านล่าง แล้วส่งกลับมาให้พิจารณาอีกครั้ง"
  | .blocked => lit "บัญชีของคุณถูกระงับสิทธิ์การใช้งานชั่วคราว หากมีข้อสงสัยกรุณาติดต่อเจ้าหน้าที่"

/-- `CTA`. -/
def cta : CardAccess → Option JsString
  | .allowed => some (lit "เปิดแอปพลิเคชัน")
  | .rejected => some (lit "แก้ไขข้อมูล")
  | .pending | .blocked => none

/-- The box of the reason. -/
def reasonBox (reason : JsString) : FlexComponent :=
  .box [("layout", "vertical"), ("backgroundColor", surfaceSoft), ("borderColor", lineSoft),
      ("borderWidth", "1px"), ("cornerRadius", "8px"), ("paddingAll", "12px"), ("margin", "lg"),
      ("spacing", "sm")]
    [text (lit "เหตุผล") [("size", "xs"), ("color", inkSoft), ("weight", "bold")],
      text reason [("size", "sm"), ("color", ink), ("lineSpacing", "6px")]]

/-- The header. -/
def header (access : CardAccess) : FlexComponent :=
  .box [("layout", "vertical"), ("backgroundColor", (tone access).fill), ("paddingAll", "16px"),
      ("spacing", "xs")]
    [text (lit "สถานะการลงทะเบียน") [("size", "xs"), ("color", (tone access).ink ++ eyebrowAlpha)],
      text (headline access) [("size", "xl"), ("weight", "bold"), ("color", (tone access).ink)]]

end AccessCard

/-- `buildAccessCard`. -/
def buildAccessCard (access : CardAccess) (altText : JsString) (reason liffUrl : Option JsString) :
    FlexMessage where
  altText := altText
  contents :=
    { header := AccessCard.header access
      body := bodyBox
        (text (AccessCard.body access) [("size", "sm"), ("color", ink), ("lineSpacing", "6px")] ::
          ((reason.filter fun s ↦ decide (access = .rejected ∧ s ≠ [])).toList.map
            AccessCard.reasonBox))
      footer := match AccessCard.cta access, liffUrl with
        | some cta, some liffUrl =>
          if liffUrl = [] then none
          else some (footerBox (AccessCard.tone access).fill cta liffUrl)
        | _, _ => none }

/-- `ACCESS_NOTIFICATION_MESSAGES`, with the card of the access. -/
def accessNotificationMessages : AppAccess → Option (CardAccess × JsString)
  | .unregistered => none
  | .pending => some (.pending, lit
      "ระบบได้รับข้อมูลการลงทะเบียนของคุณแล้ว เจ้าหน้าที่กำลังดำเนินการตรวจสอบข้อมูล กรุณารอสักครู่ ⏳")
  | .allowed => some (.allowed, lit
      "ยินดีด้วย! บัญชีของคุณได้รับการอนุมัติการใช้งานเรียบร้อยแล้ว คุณสามารถกดที่เมนูด้านล่างเพื่อใช้งานระบบได้ทันที 🎉")
  | .blocked => some (.blocked, lit
      "ขออภัย บัญชีการใช้งานของคุณถูกระงับสิทธิ์ชั่วคราว หากมีข้อสงสัยกรุณาติดต่อเจ้าหน้าที่")
  | .rejected => none

/-- `notifyAccessChange`. -/
def notifyAccessChange (access : AppAccess) (liffUrl : Option JsString) : Option FlexMessage :=
  (accessNotificationMessages access).map fun (access, text) ↦
    buildAccessCard access text none liffUrl

/-- The text before the reason of a rejection. -/
def rejectionStart : JsString := lit "ขออภัย การลงทะเบียนของคุณไม่ผ่านการอนุมัติ เนื่องจาก: "

/-- The text after the reason of a rejection. -/
def rejectionEnd : JsString := lit " กรุณาเปิดแอปพลิเคชันเพื่อแก้ไขข้อมูลใหม่อีกครั้ง"

/-- `buildRejectionMessage`. -/
def buildRejectionMessage (reason : JsString) : JsString := rejectionStart ++ reason ++ rejectionEnd

/-- `notifyRejection`. -/
def notifyRejection (reason : JsString) (liffUrl : Option JsString) : FlexMessage :=
  buildAccessCard .rejected (buildRejectionMessage reason) (some reason) liffUrl

/-! ### What is admitted, and what is promised -/

/-- A card that is pushed to one person. -/
inductive PersonalCard where
  | decision (notice : DecisionNotice) (row : DecisionRow) (liffUrl : Option JsString)
  | reminder (row : ReminderRow) (now : ℤ)
  | access (a : AppAccess) (liffUrl : Option JsString)
  | rejection (reason : JsString) (liffUrl : Option JsString)

namespace PersonalCard

/-- The message of a card; no message goes with some accesses. -/
def message : PersonalCard → Option FlexMessage
  | decision notice row liffUrl => some (buildDecisionCard (decisionOptions notice row liffUrl))
  | reminder row now => some (buildReminderCard (reminderOptions row now))
  | .access a liffUrl => notifyAccessChange a liffUrl
  | rejection reason liffUrl => some (notifyRejection reason liffUrl)

/-- What is stored has passed its checks. `lengthOf` is the length that `MaxLength` measures. -/
def Admitted (lengthOf : JsString → ℕ) : PersonalCard → Prop
  | decision _ row _ => row.code ≠ [] ∧ WellFormed row.code ∧ row.venue.name ≠ [] ∧
      WellFormed row.venue.name
  | reminder row _ => row.code ≠ [] ∧ row.venue.name ≠ [] ∧ WellFormed row.venue.name
  | access .. => True
  | rejection reason _ => reason ≠ [] ∧ WellFormed reason ∧ trim reason = reason ∧
      lengthOf reason ≤ 500

/-- The message does not depend on the reason of an automatic rejection. -/
def HidesReason : PersonalCard → Prop
  | decision notice row liffUrl => notice.status = .autoRejected → ∀ reason,
      buildDecisionCard { decisionOptions notice row liffUrl with reason } =
        buildDecisionCard (decisionOptions notice row liffUrl)
  | _ => True

/-- LINE takes the message, and it tells no reason of an automatic rejection. -/
structure Lawful (card : PersonalCard) : Prop where
  accepted : ∀ m ∈ card.message, Accepted m
  hidesReason : card.HidesReason

/-- A reason is one line of at most 297 units. -/
def Fits : PersonalCard → Prop
  | rejection reason _ => (∀ u ∈ reason, ¬ LineTerminator u) ∧ reason.length ≤ 297
  | _ => True

end PersonalCard

/-! ### The cards of a booking are accepted -/

variable {notice : DecisionNotice} {row : DecisionRow} {liffUrl : Option JsString}

theorem shown_decisionOptions (hcode : row.code ≠ []) (hwcode : WellFormed row.code)
    (hname : row.venue.name ≠ []) (hwname : WellFormed row.venue.name) :
    (decisionOptions notice row liffUrl).Shown := by
  have hslots := describeSlots_ne_nil ((pickSlots row.slots notice.slotIds).map (·.toSlotTimes))
  have hplain := plain_describeSlots ((pickSlots row.slots notice.slotIds).map (·.toSlotTimes))
  exact ⟨hcode, hname, hslots.1, hslots.2, hwcode, hwname, wellFormed_of_plain hplain.1,
    wellFormed_of_plain hplain.2⟩

theorem reminderDateText_ne_nil {startAt now : ℤ} : reminderDateText startAt now ≠ [] := by
  have hclose : lit ")" ≠ [] := lit_ne_nil (by decide)
  rw [reminderDateText]
  split_ifs
  · simp [hclose]
  · exact thaiShortDate_ne_nil

theorem accepted_reminder {row : ReminderRow} {now : ℤ} (hcode : row.code ≠ [])
    (hname : row.venue.name ≠ []) (hwname : WellFormed row.venue.name) :
    Accepted (buildReminderCard (reminderOptions row now)) := by
  have hclock (time : ℤ) : WellFormed (bangkokClock time) :=
    wellFormed_of_plain fun _ ↦ plain_bangkokClock
  have hunit : lit " น." ≠ [] := lit_ne_nil (by decide)
  have hperiod : (reminderOptions row now).periodText ≠ [] := by simp [reminderOptions, hunit]
  exact accepted_buildReminderCard hcode hname reminderDateText_ne_nil hperiod hwname
    ((((hclock _).append (wellFormed_lit _)).append (hclock _)).append (wellFormed_lit _))

/-! ### The cards of a registration -/

variable {access : CardAccess} {altText : JsString} {reason : Option JsString}

theorem texts_buildAccessCard {t : JsString}
    (ht : t ∈ (buildAccessCard access altText reason liffUrl).texts) : t ≠ [] := by
  refine texts_ne_nil (filled_box ?_) (filled_bodyBox fun c hc ↦ ?_) (fun c hc ↦ ?_) t ht
  · simp only [List.mem_cons, List.not_mem_nil, or_false]
    rintro c (rfl | rfl)
    · exact filled_text (lit_ne_nil (by decide))
    · refine filled_text ?_
      cases access <;> exact lit_ne_nil (by decide)
  · rcases List.mem_cons.mp hc with rfl | hc
    · refine filled_text ?_
      cases access <;> simp only [AccessCard.body] <;> exact lit_ne_nil (by decide +kernel)
    · obtain ⟨s, hs, rfl⟩ := List.mem_map.mp hc
      obtain ⟨-, hs⟩ := Option.filter_eq_some_iff.mp (Option.mem_toList.mp hs)
      refine filled_box ?_
      simp only [List.mem_cons, List.not_mem_nil, or_false]
      rintro c (rfl | rfl)
      · exact filled_text (lit_ne_nil (by decide))
      · exact filled_text (of_decide_eq_true hs).2
  · simp only [buildAccessCard] at hc
    split at hc
    · split_ifs at hc
      · cases hc
      · rw [← Option.some.inj hc]
        exact filled_footerBox
    · cases hc

/-- The texts of the accesses are lines as they stand. -/
theorem acceptedAltText_of_message {a : AppAccess} {text : JsString}
    (h : accessNotificationMessages a = some (access, text)) : AcceptedAltText text := by
  have hline {l : String} (hne : lit l ≠ []) (hone : ∀ u ∈ lit l, ¬ LineTerminator u)
      (hle : (lit l).length ≤ altTextMaxChars) : AcceptedAltText (lit l) :=
    ⟨hne, hone, hle, wellFormed_lit l⟩
  cases a <;> simp only [accessNotificationMessages, Option.some.injEq, Prod.mk.injEq,
    reduceCtorEq] at h
  all_goals
    rw [← h.2]
    apply hline <;> rw [lit_eq rfl] <;> decide +kernel

theorem accepted_notifyAccessChange {a : AppAccess} :
    ∀ m ∈ notifyAccessChange a liffUrl, Accepted m := by
  intro m hm
  obtain ⟨⟨access, text⟩, htext, rfl⟩ := Option.map_eq_some_iff.mp hm
  exact ⟨acceptedAltText_of_message htext, fun _ ↦ texts_buildAccessCard⟩

theorem length_buildRejectionMessage (reason : JsString) :
    (buildRejectionMessage reason).length = reason.length + 103 := by
  have hstart : rejectionStart.length = 54 := by
    rw [rejectionStart, lit_eq rfl]
    decide +kernel
  have hend : rejectionEnd.length = 49 := by
    rw [rejectionEnd, lit_eq rfl]
    decide +kernel
  rw [buildRejectionMessage, List.length_append, List.length_append, hstart, hend]
  omega

/-- The line of a rejection is accepted if and only if its reason leaves room for the template. -/
theorem acceptedAltText_buildRejectionMessage {reason : JsString} (hreason : WellFormed reason) :
    AcceptedAltText (buildRejectionMessage reason) ↔
      (∀ u ∈ reason, ¬ LineTerminator u) ∧ reason.length ≤ 297 := by
  have hlines : (∀ u ∈ rejectionStart, ¬ LineTerminator u) ∧
      ∀ u ∈ rejectionEnd, ¬ LineTerminator u := by
    rw [rejectionStart, rejectionEnd, lit_eq rfl, lit_eq rfl]
    decide +kernel
  have hwhole : WellFormed (buildRejectionMessage reason) :=
    ((wellFormed_lit _).append hreason).append (wellFormed_lit _)
  have hlen := length_buildRejectionMessage reason
  constructor
  · intro h
    have hle := h.length_le
    rw [hlen, altTextMaxChars] at hle
    refine ⟨fun u hu ↦ h.one_line u ?_, by omega⟩
    exact List.mem_append_left _ (List.mem_append_right _ hu)
  · rintro ⟨hone, hle⟩
    refine ⟨fun hnil ↦ ?_, fun u hu ↦ ?_, ?_, hwhole⟩
    · rw [hnil, List.length_nil] at hlen
      omega
    · simp only [buildRejectionMessage, List.mem_append] at hu
      rcases hu with (hu | hu) | hu
      · exact hlines.1 u hu
      · exact hone u hu
      · exact hlines.2 u hu
    · rw [hlen, altTextMaxChars]
      omega

/-! ### The personal cards -/

/-- A card is lawful if and only if the reason of its rejection fits. -/
theorem lawful_iff_fits (lengthOf : JsString → ℕ) (card : PersonalCard)
    (h : card.Admitted lengthOf) : card.Lawful ↔ card.Fits := by
  cases card with
  | decision notice row liffUrl =>
    obtain ⟨hcode, hwcode, hname, hwname⟩ := h
    have haccepted : Accepted (buildDecisionCard (decisionOptions notice row liffUrl)) :=
      accepted_buildDecisionCard (shown_decisionOptions hcode hwcode hname hwname)
    refine iff_of_true ⟨fun m hm ↦ ?_, fun hauto ↦ buildDecisionCard_autoRejected hauto⟩ trivial
    rwa [← Option.some.inj hm]
  | reminder row now =>
    obtain ⟨hcode, hname, hwname⟩ := h
    refine iff_of_true ⟨fun m hm ↦ ?_, trivial⟩ trivial
    rw [← Option.some.inj hm]
    exact accepted_reminder hcode hname hwname
  | access a liffUrl => exact iff_of_true ⟨accepted_notifyAccessChange, trivial⟩ trivial
  | rejection reason liffUrl =>
    obtain ⟨-, hwreason, -⟩ := h
    refine Iff.trans ?_ (acceptedAltText_buildRejectionMessage hwreason)
    refine ⟨fun hlawful ↦ (hlawful.accepted _ rfl).altText, fun halt ↦ ⟨fun m hm ↦ ?_, trivial⟩⟩
    rw [← Option.some.inj hm]
    exact ⟨halt, fun _ ↦ texts_buildAccessCard⟩

theorem lawful_iff_fits_of_line :
    (PersonalCard.rejection (lit "เบอร์โทรศัพท์ไม่ถูกต้อง") none).Lawful ↔
      (PersonalCard.rejection (lit "เบอร์โทรศัพท์ไม่ถูกต้อง") none).Fits :=
  lawful_iff_fits (fun s ↦ (codePoints s).length) _ (by
    simp only [PersonalCard.Admitted]
    rw [lit_eq rfl]
    decide +kernel)

/-- A reason of 500 letters is admitted. -/
theorem not_lawful_of_admitted : ¬ ∀ card : PersonalCard,
    card.Admitted (fun s ↦ (codePoints s).length) → card.Lawful := by
  intro h
  have hadmitted : (PersonalCard.rejection (List.replicate 500 0xE01) none).Admitted
      fun s ↦ (codePoints s).length := by
    simp only [PersonalCard.Admitted]
    decide +kernel
  have hreason := (h _ hadmitted).accepted _ rfl
  have hle := hreason.altText.length_le
  simp only [notifyRejection, buildAccessCard, length_buildRejectionMessage, altTextMaxChars,
    List.length_replicate] at hle
  omega

end EasyBook.Cards

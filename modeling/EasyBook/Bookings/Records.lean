import EasyBook.Bookings.Schedule
import EasyBook.Bookings.Statements
import EasyBook.ReadCommitted.Calls
import EasyBook.ReadCommitted.Triggers

/-!
# What is on record of a booking

Every statement of the nine writers is one of a few changes of a row (`RequestWrite`, `SlotWrite`),
or inserts one of a few rows. Read off the statements one by one, whatever was read before them,
this tells what is on record of a booking: who has decided on it, and what stays as it was.

Nothing of this depends on the snapshots that the decisions work on, so it holds of every
interleaving, the ones that break other laws of the booking tables included.
-/

namespace EasyBook

open ReadCommitted ReadCommitted.Prog

/-! ### What the writers write -/

/-- The calls that cancel slots of an approved request one by one. -/
def Op.CancelsSlots : Op → Prop
  | .cancelApprovedSlot .. | .cancel .. => True
  | _ => False

/-- The calls by which a LINE user cancels slots. -/
def Op.CancelsByLine : Op → Prop
  | .cancelPendingBooking .. | .cancelApprovedSlot .. => True
  | _ => False

/-- What the statements of a call make of a request. -/
inductive RequestWrite : Job → BookingRequest → BookingRequest → Prop where
  | withdrawn {lineSub idOrCode : JsString} {r : BookingRequest} (c : ℤ)
      (hpending : r.status = .pending) :
      RequestWrite (.booking (.cancelPendingBooking lineSub idOrCode)) r
        { r with status := .cancelled, updatedAt := c }
  | rejected {id : Cuid} {reason : JsString} {r : BookingRequest} (c : ℤ)
      (hid : r.id = id) (hpending : r.status = .pending) :
      RequestWrite (.booking (.reject id reason)) r
        { r with status := .rejected, rejectReason := some reason, updatedAt := c }
  | autoRejected {op : Op} {r : BookingRequest} (c : ℤ) (hpending : r.status = .pending) :
      RequestWrite (.booking op) r
        { r with status := .rejected, rejectReason := some autoRejectedReason, updatedAt := c }
  | expired {r : BookingRequest} (c : ℤ) (hpending : r.status = .pending) :
      RequestWrite (.booking .expireOverdue) r
        { r with status := .expired, rejectReason := some autoExpiredReason, updatedAt := c }
  | approved {id : Cuid} {actor : Actor} {r : BookingRequest} (approvedAt c : ℤ)
      (hid : r.id = id) (hpending : r.status = .pending) :
      RequestWrite (.booking (.approve id actor)) r
        { r with
          status := .approved, approvedById := some actor.id, approvedAt := some approvedAt,
          updatedAt := c }
  | respanned {op : Op} (hop : op.CancelsSlots) (remaining : List BookingSlot) (r : BookingRequest)
      (c : ℤ) : RequestWrite (.booking op) r (cancelledRequest remaining c r)

/-- What they, and the triggers, make of a slot. -/
inductive SlotWrite : Job → BookingSlot → BookingSlot → Prop where
  | cancelled {op : Op} {s : BookingSlot} (hop : op.CancelsByLine) (lineUserId : Cuid) (t c : ℤ)
      (hlive : s.isCancelled = false) :
      SlotWrite (.booking op) s (cancellation t lineUserId c s)
  | staffCancelled {id : Cuid} {dto : CancelBookingRequestDto} {actor : Actor} {s : BookingSlot}
      (t c : ℤ) (hlive : s.isCancelled = false) :
      SlotWrite (.booking (.cancel id dto actor)) s (staffCancellation t actor dto.reason c s)
  | reminded {s : BookingSlot} (now c : ℤ) (hnot : s.reminderSentAt = none)
      (hlive : s.isCancelled = false) (hnow : now < s.startAt)
      (hsoon : s.startAt ≤ now + bookingReminderLeadMinutes * 60000) :
      SlotWrite .remindUpcoming s { s with reminderSentAt := some now, updatedAt := c }
  | held {job : Job} (s : BookingSlot) (holds : Bool) :
      SlotWrite job s { s with holdsSlot := holds }

/-- A request as it is inserted. -/
inductive RequestInsert : Job → ℕ → BookingRequest → Prop where
  | submitted {lineSub : JsString} {dto : CreateLineBookingDto} {i : ℕ} {r : BookingRequest}
      (hid : r.id = i) (hpending : r.status = .pending) (hreason : r.rejectReason = none)
      (hby : r.approvedById = none) (hat : r.approvedAt = none) :
      RequestInsert (.booking (.createFromLine lineSub dto)) i r
  | direct {dto : CreateDirectBookingDto} {actor : Actor} {i : ℕ} {r : BookingRequest} {now : ℤ}
      (hid : r.id = i) (happroved : r.status = .approved) (hreason : r.rejectReason = none)
      (hby : r.approvedById = some actor.id) (hat : r.approvedAt = some now) :
      RequestInsert (.booking (.createDirect dto actor)) i r

/-- A slot as it is inserted. -/
structure SlotInsert (i : ℕ) (s : BookingSlot) : Prop where
  id : s.id = i
  isCancelled : s.isCancelled = false
  cancelledAt : s.cancelledAt = none
  cancelledById : s.cancelledById = none
  cancelledByRole : s.cancelledByRole = none
  cancelReason : s.cancelReason = none
  reminderSentAt : s.reminderSentAt = none

/-- What the statements of a call make of rows. -/
def Job.writes (job : Job) : ∀ τ, Row τ → Row τ → Prop
  | .request, r, r' => RequestWrite job r r'
  | .slot, s, s' => SlotWrite job s s'

/-- The rows they insert. -/
def Job.inserts (job : Job) : ∀ τ, ℕ → Row τ → Prop
  | .request, i, r => RequestInsert job i r
  | .slot, i, s => SlotInsert i s

/-- The statements of a transaction are those of the call. -/
abbrev Tx.PartOf {α : Type} (job : Job) (p : Tx α) : Prop :=
  p.Obeys (fun τ r x ↦ ∃ r', x = some r' ∧ job.writes τ r r') fun τ i r ↦ job.inserts τ i r

/-- So are those of a session. -/
abbrev Call.PartOf (job : Job) (s : Call) : Prop :=
  s.Obeys (fun τ r x ↦ ∃ r', x = some r' ∧ job.writes τ r r') fun τ i r ↦ job.inserts τ i r

section Writers

variable {job : Job}

/-- A conditional update of requests. -/
theorem partOf_updateRequests {p : BookingRequest → Prop} [DecidablePred p]
    {set : ℤ → BookingRequest → BookingRequest} (h : ∀ c r, p r → RequestWrite job r (set c r)) :
    Tx.PartOf job (updateRequests fun c r ↦ if p r then some (set c r) else none) := by
  refine obeys_update fun c r r' hr ↦ ?_
  split at hr
  · next hp =>
    obtain rfl := Option.some.inj hr
    exact ⟨_, rfl, h c r hp⟩
  · cases hr

/-- A conditional update of slots. -/
theorem partOf_updateSlots {p : BookingSlot → Prop} [DecidablePred p]
    {set : ℤ → BookingSlot → BookingSlot} (h : ∀ c s, p s → SlotWrite job s (set c s)) :
    Tx.PartOf job (updateSlots fun c s ↦ if p s then some (set c s) else none) := by
  refine obeys_update fun c s s' hs ↦ ?_
  split at hs
  · next hp =>
    obtain rfl := Option.some.inj hs
    exact ⟨_, rfl, h c s hp⟩
  · cases hs

/-- The update that follows a cancelled slot is part of every call that cancels slots. -/
theorem partOf_updateRequestById {op : Op} (hop : op.CancelsSlots) (id : Cuid)
    (remaining : List BookingSlot) :
    Tx.PartOf (.booking op) (updateRequestById id (cancelledRequest remaining)) :=
  Obeys.bind (partOf_updateRequests fun c r _ ↦ .respanned hop remaining r c) fun _ ↦
    obeys_refuse _ _

/-- The slots are part of the call that creates the request. -/
theorem partOf_createSlots {op : Op} (row : BookingRequest) (spans : List SlotSpan) :
    Tx.PartOf (.booking op) (createSlots row spans) := by
  induction spans with
  | nil => trivial
  | cons m spans ih =>
    refine Obeys.bind (obeys_create fun _ _ ↦ ?_) fun _ ↦ Obeys.bind ih fun _ ↦ trivial
    exact ⟨rfl, rfl, rfl, rfl, rfl, rfl, rfl⟩

/-- The look for a clash only reads. -/
theorem partOf_assertNoApprovedClash (venueId : Cuid) (spans : List SlotSpan)
    (excludeRequestId : Option Cuid) :
    Tx.PartOf job (assertNoApprovedClash venueId spans excludeRequestId) :=
  Obeys.bind (obeys_query _) fun _ ↦ obeys_refuse _ _

/-- The rejection of the losers is part of an approval. -/
theorem partOf_rejectLosers {op : Op} (losers : List BookingRequest) :
    Tx.PartOf (.booking op) (rejectLosers losers) := by
  unfold rejectLosers
  split
  · trivial
  · exact Obeys.bind (partOf_updateRequests fun c r h ↦ .autoRejected c h.2) fun _ ↦ trivial

/-- Every attempt is the same part. -/
theorem partOf_retryOnCollision {f : BookingError → BookingError} {p : Tx Reply}
    (hp : Tx.PartOf job p) (n : ℕ) : Call.PartOf job (retryOnCollision f p n) := by
  induction n with
  | zero => trivial
  | succ n ih =>
    refine ⟨hp, fun r ↦ ?_⟩
    cases r with
    | ok reply => trivial
    | error e =>
      show Call.PartOf job (if _ then _ else _)
      split
      · intro target
        dsimp only
        split
        · trivial
        · split
          · trivial
          · exact ih
      · trivial

/-- The look-up of the requester only reads. -/
theorem partOf_resolveAllowedRequester {lineSub : JsString} {k : Cuid → Call}
    (h : ∀ id, Call.PartOf job (k id)) : Call.PartOf job (resolveAllowedRequester lineSub k) := by
  intro user
  match user with
  | some (id, .allowed) => exact h id
  | some (_, .unregistered) | some (_, .pending) | some (_, .rejected) | some (_, .blocked)
  | none => trivial

/-- What `createFromLine` writes. -/
theorem partOf_createFromLine (lineSub : JsString) (dto : CreateLineBookingDto) :
    Call.PartOf (.booking (.createFromLine lineSub dto)) (createFromLine lineSub dto) := by
  have honce : ∀ venueId lineUserId slots,
      Tx.PartOf (.booking (.createFromLine lineSub dto))
        (insertOnce venueId lineUserId dto slots) := fun venueId lineUserId slots ↦
    .ofExcept fun spans _ ↦ Obeys.bind (partOf_assertNoApprovedClash _ _ _) fun _ ↦
      .readClock fun now ↦ fun d ↦ .require fun bounds _ ↦
      Obeys.bind (obeys_create fun _ _ ↦ .submitted rfl rfl rfl rfl rfl) fun row ↦
      Obeys.bind (partOf_createSlots _ _) fun _ ↦ trivial
  refine partOf_resolveAllowedRequester fun requester now ↦ ?_
  dsimp only
  split
  · trivial
  · intro venue
    match venue with
    | none => trivial
    | some (_, false) => trivial
    | some (venueId, true) => exact partOf_retryOnCollision (honce _ _ _) _

/-- What `cancelPendingBooking` writes. -/
theorem partOf_cancelPendingBooking (lineSub idOrCode : JsString) :
    Call.PartOf (.booking (.cancelPendingBooking lineSub idOrCode))
      (cancelPendingBooking lineSub idOrCode) := by
  have hop : (Op.cancelPendingBooking lineSub idOrCode).CancelsByLine := trivial
  refine partOf_resolveAllowedRequester fun requester now ↦ ⟨?_, fun _ ↦ trivial⟩
  exact .query fun _ ↦ .require fun booking _ ↦ .refuse fun _ ↦
    Obeys.bind (partOf_updateRequests fun c r h ↦ .withdrawn c h.2) fun _ ↦ .refuse fun _ ↦
    Obeys.bind (partOf_updateSlots fun c s h ↦ .cancelled hop requester now c h.2) fun _ ↦ trivial

/-- What `cancelApprovedSlot` writes. -/
theorem partOf_cancelApprovedSlot (lineSub idOrCode : JsString) (slotId : Cuid) :
    Call.PartOf (.booking (.cancelApprovedSlot lineSub idOrCode slotId))
      (cancelApprovedSlot lineSub idOrCode slotId) := by
  have hline : (Op.cancelApprovedSlot lineSub idOrCode slotId).CancelsByLine := trivial
  have hslots : (Op.cancelApprovedSlot lineSub idOrCode slotId).CancelsSlots := trivial
  refine partOf_resolveAllowedRequester fun requester value now ↦ ⟨?_, fun _ ↦ trivial⟩
  exact .query fun _ ↦ .require fun booking _ ↦ .refuse fun _ ↦ .query fun _ ↦
    .require fun slot _ ↦ .refuse fun _ ↦ .refuse fun _ ↦
    Obeys.bind (partOf_updateSlots fun c s h ↦ .cancelled hline requester now c h.2) fun _ ↦
    .refuse fun _ ↦ .query fun _ ↦ Obeys.bind (partOf_updateRequestById hslots _ _) fun _ ↦ trivial

/-- What `approve` writes. -/
theorem partOf_approve (id : Cuid) (actor : Actor) :
    Call.PartOf (.booking (.approve id actor)) (approve id actor) :=
  ⟨.query fun _ ↦ .require fun _ _ ↦ .query fun _ ↦ .refuse fun _ ↦
    .query fun _ ↦ .refuse fun _ ↦ Obeys.bind (partOf_assertNoApprovedClash _ _ _) fun _ ↦
    .query fun _ ↦ .readClock fun approvedAt ↦
    Obeys.bind (partOf_updateRequests fun c _ h ↦ .approved approvedAt c h.1 h.2) fun _ ↦
    .refuse fun _ ↦ Obeys.bind (partOf_rejectLosers _) fun _ ↦ trivial, fun _ ↦ trivial⟩

/-- What `reject` writes. -/
theorem partOf_reject (id : Cuid) (reason : JsString) :
    Call.PartOf (.booking (.reject id reason)) (reject id reason) :=
  ⟨.query fun _ ↦ .require fun _ _ ↦ .refuse fun _ ↦
    Obeys.bind (partOf_updateRequests fun c _ h ↦ .rejected c h.1 h.2) fun _ ↦
    .refuse fun _ ↦ trivial, fun _ ↦ trivial⟩

/-- What `cancel` writes. -/
theorem partOf_cancel (id : Cuid) (dto : CancelBookingRequestDto) (actor : Actor) :
    Call.PartOf (.booking (.cancel id dto actor)) (cancel id dto actor) := by
  have hop : (Op.cancel id dto actor).CancelsSlots := trivial
  exact ⟨.query fun _ ↦ .require fun _ _ ↦ .query fun _ ↦ .refuse fun _ ↦ .query fun _ ↦
    .refuse fun _ ↦ .ofExcept fun _ _ ↦ .readClock fun cancelledAt ↦
    Obeys.bind (partOf_updateSlots fun c _ h ↦ .staffCancelled cancelledAt c h.2) fun _ ↦
    .refuse fun _ ↦ Obeys.bind (partOf_updateRequestById hop _ _) fun _ ↦ trivial, fun _ ↦ trivial⟩

/-- The checks of the input only ask. -/
theorem partOf_checkInput {α : Type} (input : Option α) (q : α → Ask)
    (yes : ∀ a, Ans (q a) → Bool) (e : BookingError) :
    Tx.PartOf job (checkInput input q yes e) := by
  cases input with
  | none => trivial
  | some a => exact fun answer ↦ obeys_refuse _ _

/-- What `createDirect` writes. -/
theorem partOf_createDirect (dto : CreateDirectBookingDto) (actor : Actor) :
    Call.PartOf (.booking (.createDirect dto actor)) (createDirect dto actor) := by
  have honce : ∀ slots, Tx.PartOf (.booking (.createDirect dto actor))
      (createDirectOnce dto slots actor) := fun slots venue ↦
    .require fun v _ ↦ Obeys.bind (partOf_checkInput _ _ _ _) fun _ ↦
      Obeys.bind (partOf_checkInput _ _ _ _) fun _ ↦ .ofExcept fun spans _ ↦
      Obeys.bind (partOf_assertNoApprovedClash _ _ _) fun _ ↦ .query fun _ ↦
      .readClock fun now ↦ fun d ↦ .require fun bounds _ ↦
      Obeys.bind (obeys_create fun _ _ ↦ .direct rfl rfl rfl rfl rfl) fun row ↦
      Obeys.bind (partOf_createSlots _ _) fun _ ↦
      Obeys.bind (partOf_rejectLosers _) fun _ ↦ trivial
  unfold createDirect
  split
  · trivial
  · intro now
    dsimp only
    split
    · trivial
    · exact partOf_retryOnCollision (honce _) _

/-- What `expireOverdue` writes. -/
theorem partOf_expireOverdue : Call.PartOf (.booking .expireOverdue) expireOverdue := by
  refine fun now ↦ ⟨Obeys.bind (partOf_updateRequests fun c r h ↦ .expired c h.1) fun _ ↦ trivial,
    fun r ↦ ?_⟩
  cases r <;> trivial

/-- **The statements of every writer** are the ones listed. -/
theorem service_partOf (op : Op) : Call.PartOf (.booking op) (service op) := by
  cases op with
  | createFromLine lineSub dto => exact partOf_createFromLine lineSub dto
  | cancelPendingBooking lineSub idOrCode => exact partOf_cancelPendingBooking lineSub idOrCode
  | cancelApprovedSlot lineSub idOrCode slotId =>
    exact partOf_cancelApprovedSlot lineSub idOrCode slotId
  | approve id actor => exact partOf_approve id actor
  | reject id reason => exact partOf_reject id reason
  | cancel id dto actor => exact partOf_cancel id dto actor
  | createDirect dto actor => exact partOf_createDirect dto actor
  | expireOverdue => exact partOf_expireOverdue

/-- What `remindUpcoming` writes. -/
theorem partOf_remindUpcoming : Call.PartOf .remindUpcoming remindUpcoming := by
  refine fun now ↦ ⟨.query fun due ↦ Obeys.bind (partOf_updateSlots fun c s h ↦ ?_) fun _ ↦ trivial,
    fun r ↦ ?_⟩
  · exact .reminded now c h.1 h.2.1 h.2.2.1 h.2.2.2.1
  · cases r <;> trivial

end Writers

/-! ### What is on record -/

/-- A request in order: the columns of a decision are there if there has been one, and a session was
called with it. -/
structure BookingRequest.OnRecord (jobs : ℕ → Job) (i : ℕ) (r : BookingRequest) : Prop where
  id_eq : r.id = i
  pending : r.status = .pending →
    r.approvedById = none ∧ r.approvedAt = none ∧ r.rejectReason = none
  approved : r.status = .approved → r.approvedById.isSome ∧ r.approvedAt.isSome
  refused : r.status = .rejected ∨ r.status = .expired → r.rejectReason.isSome
  approver : ∀ a ∈ r.approvedById, ∃ t actor, Actor.id actor = a ∧
    (jobs t = .booking (.approve i actor) ∨ ∃ dto, jobs t = .booking (.createDirect dto actor))
  reason : ∀ reason ∈ r.rejectReason, reason = autoRejectedReason ∨ reason = autoExpiredReason ∨
    ∃ t, jobs t = .booking (.reject i reason)

/-- A slot in order: the columns of a cancellation are there if there has been one, and one by staff
is one that a session was called with; a reminder came in the hour before the slot. -/
structure BookingSlot.OnRecord (jobs : ℕ → Job) (i : ℕ) (s : BookingSlot) : Prop where
  id_eq : s.id = i
  cancelledAt : s.cancelledAt.isSome ↔ s.isCancelled = true
  cancelledById : s.cancelledById.isSome ↔ s.isCancelled = true
  cancelledByRole : s.cancelledByRole.isSome ↔ s.isCancelled = true
  cancelReason : s.cancelReason.isSome ↔ ∃ role, s.cancelledByRole = some (.staff role)
  canceller : ∀ role, s.cancelledByRole = some (.staff role) → ∃ t id dto actor,
    jobs t = .booking (.cancel id dto actor) ∧ actor.role = role ∧
      s.cancelledById = some actor.id ∧ s.cancelReason = some dto.reason
  reminder : ∀ now ∈ s.reminderSentAt,
    now < s.startAt ∧ s.startAt ≤ now + bookingReminderLeadMinutes * 60000

/-- What stays of a request: who asks for what, and the decision. -/
structure BookingRequest.Keeps (r r' : BookingRequest) : Prop where
  id : r'.id = r.id
  code : r'.code = r.code
  lineUserId : r'.lineUserId = r.lineUserId
  createdById : r'.createdById = r.createdById
  requesterName : r'.requesterName = r.requesterName
  contactPhone : r'.contactPhone = r.contactPhone
  departmentId : r'.departmentId = r.departmentId
  venueId : r'.venueId = r.venueId
  purpose : r'.purpose = r.purpose
  attendees : r'.attendees = r.attendees
  createdAt : r'.createdAt = r.createdAt
  decided : r.status ≠ .pending → r'.status ≠ .pending ∧ r'.approvedById = r.approvedById ∧
    r'.approvedAt = r.approvedAt ∧ r'.rejectReason = r.rejectReason

/-- What stays of a slot: when and where, the cancellation and the reminder. -/
structure BookingSlot.Keeps (s s' : BookingSlot) : Prop where
  id : s'.id = s.id
  bookingRequestId : s'.bookingRequestId = s.bookingRequestId
  venueId : s'.venueId = s.venueId
  startAt : s'.startAt = s.startAt
  endAt : s'.endAt = s.endAt
  createdAt : s'.createdAt = s.createdAt
  cancelled : s.isCancelled = true → s'.isCancelled = true ∧ s'.cancelledAt = s.cancelledAt ∧
    s'.cancelledById = s.cancelledById ∧ s'.cancelledByRole = s.cancelledByRole ∧
    s'.cancelReason = s.cancelReason
  reminded : s.reminderSentAt ≠ none → s'.reminderSentAt = s.reminderSentAt

section Writes

variable {jobs : ℕ → Job} {t i : ℕ} {r r' r'' : BookingRequest} {s s' s'' : BookingSlot}

/-- A request that is not written. -/
theorem BookingRequest.Keeps.refl (r : BookingRequest) : r.Keeps r :=
  ⟨rfl, rfl, rfl, rfl, rfl, rfl, rfl, rfl, rfl, rfl, rfl, fun h ↦ ⟨h, rfl, rfl, rfl⟩⟩

/-- Two writes of a request. -/
theorem BookingRequest.Keeps.trans (h : r.Keeps r') (h' : r'.Keeps r'') : r.Keeps r'' where
  id := h'.id.trans h.id
  code := h'.code.trans h.code
  lineUserId := h'.lineUserId.trans h.lineUserId
  createdById := h'.createdById.trans h.createdById
  requesterName := h'.requesterName.trans h.requesterName
  contactPhone := h'.contactPhone.trans h.contactPhone
  departmentId := h'.departmentId.trans h.departmentId
  venueId := h'.venueId.trans h.venueId
  purpose := h'.purpose.trans h.purpose
  attendees := h'.attendees.trans h.attendees
  createdAt := h'.createdAt.trans h.createdAt
  decided hr := by
    obtain ⟨hr', hby, hat, hreason⟩ := h.decided hr
    obtain ⟨hr'', hby', hat', hreason'⟩ := h'.decided hr'
    exact ⟨hr'', hby'.trans hby, hat'.trans hat, hreason'.trans hreason⟩

/-- A slot that is not written. -/
theorem BookingSlot.Keeps.refl (s : BookingSlot) : s.Keeps s :=
  ⟨rfl, rfl, rfl, rfl, rfl, rfl, fun h ↦ ⟨h, rfl, rfl, rfl, rfl⟩, fun _ ↦ rfl⟩

/-- Two writes of a slot. -/
theorem BookingSlot.Keeps.trans (h : s.Keeps s') (h' : s'.Keeps s'') : s.Keeps s'' where
  id := h'.id.trans h.id
  bookingRequestId := h'.bookingRequestId.trans h.bookingRequestId
  venueId := h'.venueId.trans h.venueId
  startAt := h'.startAt.trans h.startAt
  endAt := h'.endAt.trans h.endAt
  createdAt := h'.createdAt.trans h.createdAt
  cancelled hs := by
    obtain ⟨hs', hat, hby, hrole, hreason⟩ := h.cancelled hs
    obtain ⟨hs'', hat', hby', hrole', hreason'⟩ := h'.cancelled hs'
    exact ⟨hs'', hat'.trans hat, hby'.trans hby, hrole'.trans hrole, hreason'.trans hreason⟩
  reminded hs := by
    have hs' := h.reminded hs
    exact (h'.reminded (hs' ▸ hs)).trans hs'

/-- A write leaves who asks for what, and a decision that has been made. -/
theorem RequestWrite.keeps {job : Job} (h : RequestWrite job r r') : r.Keeps r' := by
  have hundecided : ∀ {p : Prop}, r.status = .pending → r.status ≠ .pending → p :=
    fun h hne ↦ absurd h hne
  cases h with
  | withdrawn c hp => exact ⟨rfl, rfl, rfl, rfl, rfl, rfl, rfl, rfl, rfl, rfl, rfl, hundecided hp⟩
  | rejected c hid hp =>
    exact ⟨rfl, rfl, rfl, rfl, rfl, rfl, rfl, rfl, rfl, rfl, rfl, hundecided hp⟩
  | autoRejected c hp =>
    exact ⟨rfl, rfl, rfl, rfl, rfl, rfl, rfl, rfl, rfl, rfl, rfl, hundecided hp⟩
  | expired c hp => exact ⟨rfl, rfl, rfl, rfl, rfl, rfl, rfl, rfl, rfl, rfl, rfl, hundecided hp⟩
  | approved approvedAt c hid hp =>
    exact ⟨rfl, rfl, rfl, rfl, rfl, rfl, rfl, rfl, rfl, rfl, rfl, hundecided hp⟩
  | respanned _ remaining _ c =>
    unfold cancelledRequest
    split
    · exact ⟨rfl, rfl, rfl, rfl, rfl, rfl, rfl, rfl, rfl, rfl, rfl, fun h ↦ ⟨h, rfl, rfl, rfl⟩⟩
    · exact ⟨rfl, rfl, rfl, rfl, rfl, rfl, rfl, rfl, rfl, rfl, rfl,
        fun _ ↦ ⟨fun h ↦ (nomatch h), rfl, rfl, rfl⟩⟩

/-- A write leaves a request whose stamps are on record: those it sets are its own call's. -/
theorem RequestWrite.onRecord {job : Job} (hjob : jobs t = job) (h : RequestWrite job r r')
    (hr : r.OnRecord jobs i) : r'.OnRecord jobs i := by
  cases h with
  | withdrawn c hp =>
    exact ⟨hr.id_eq, fun h ↦ (nomatch h), fun h ↦ (nomatch h),
      fun h ↦ h.elim (fun h ↦ (nomatch h)) fun h ↦ (nomatch h), hr.approver, hr.reason⟩
  | @rejected id reason _ c hid hp =>
    obtain ⟨hby, hat, -⟩ := hr.pending hp
    refine ⟨hr.id_eq, fun h ↦ (nomatch h), fun h ↦ (nomatch h), fun _ ↦ rfl, hr.approver, ?_⟩
    rintro _ ⟨⟩
    exact .inr (.inr ⟨t, by rw [hjob, ← hid, hr.id_eq]⟩)
  | autoRejected c hp =>
    refine ⟨hr.id_eq, fun h ↦ (nomatch h), fun h ↦ (nomatch h), fun _ ↦ rfl, hr.approver, ?_⟩
    exact fun x hx ↦ .inl (Option.some.inj hx).symm
  | expired c hp =>
    refine ⟨hr.id_eq, fun h ↦ (nomatch h), fun h ↦ (nomatch h), fun _ ↦ rfl, hr.approver, ?_⟩
    exact fun x hx ↦ .inr (.inl (Option.some.inj hx).symm)
  | @approved id actor _ approvedAt c hid hp =>
    refine ⟨hr.id_eq, fun h ↦ (nomatch h), fun _ ↦ ⟨rfl, rfl⟩,
      fun h ↦ h.elim (fun h ↦ (nomatch h)) fun h ↦ (nomatch h), ?_, hr.reason⟩
    rintro _ ⟨⟩
    exact ⟨t, actor, rfl, .inl (by rw [hjob, ← hid, hr.id_eq])⟩
  | respanned _ remaining _ c =>
    unfold cancelledRequest
    split
    · exact ⟨hr.id_eq, hr.pending, hr.approved, hr.refused, hr.approver, hr.reason⟩
    · exact ⟨hr.id_eq, fun h ↦ (nomatch h), fun h ↦ (nomatch h),
        fun h ↦ h.elim (fun h ↦ (nomatch h)) fun h ↦ (nomatch h), hr.approver, hr.reason⟩

/-- A request is born on record. -/
theorem RequestInsert.onRecord {job : Job} (hjob : jobs t = job) (h : RequestInsert job i r) :
    r.OnRecord jobs i := by
  cases h with
  | submitted hid hp hreason hby hat =>
    refine ⟨hid, fun _ ↦ ⟨hby, hat, hreason⟩, fun h ↦ ?_, fun h ↦ ?_, fun a ha ↦ ?_, fun x hx ↦ ?_⟩
    · rw [hp] at h
      cases h
    · rw [hp] at h
      exact h.elim (fun h ↦ (nomatch h)) fun h ↦ (nomatch h)
    · rw [hby] at ha
      cases ha
    · rw [hreason] at hx
      cases hx
  | @direct dto actor _ _ now hid ha hreason hby hat =>
    refine ⟨hid, fun h ↦ ?_, fun _ ↦ ⟨by rw [hby]; rfl, by rw [hat]; rfl⟩, fun h ↦ ?_,
      fun a h ↦ ?_, fun x hx ↦ ?_⟩
    · rw [ha] at h
      cases h
    · rw [ha] at h
      exact h.elim (fun h ↦ (nomatch h)) fun h ↦ (nomatch h)
    · rw [hby] at h
      exact ⟨t, actor, Option.some.inj h, .inr ⟨dto, hjob⟩⟩
    · rw [hreason] at hx
      cases hx

/-- A write leaves when and where, the cancellation and the reminder. -/
theorem SlotWrite.keeps {job : Job} (h : SlotWrite job s s') : s.Keeps s' := by
  have hlive : ∀ {p : Prop}, s.isCancelled = false → s.isCancelled = true → p :=
    fun h h' ↦ absurd (h.symm.trans h') Bool.false_ne_true
  cases h with
  | cancelled _ lineUserId u c hl => exact ⟨rfl, rfl, rfl, rfl, rfl, rfl, hlive hl, fun _ ↦ rfl⟩
  | staffCancelled u c hl => exact ⟨rfl, rfl, rfl, rfl, rfl, rfl, hlive hl, fun _ ↦ rfl⟩
  | reminded now c hnot =>
    exact ⟨rfl, rfl, rfl, rfl, rfl, rfl, fun h ↦ ⟨h, rfl, rfl, rfl, rfl⟩, fun h ↦ absurd hnot h⟩
  | held _ holds =>
    exact ⟨rfl, rfl, rfl, rfl, rfl, rfl, fun h ↦ ⟨h, rfl, rfl, rfl, rfl⟩, fun _ ↦ rfl⟩

/-- A write leaves a slot on record. -/
theorem SlotWrite.onRecord {job : Job} (hjob : jobs t = job) (h : SlotWrite job s s')
    (hs : s.OnRecord jobs i) : s'.OnRecord jobs i := by
  -- a live slot has no reason for its cancellation yet
  have hreason : s.isCancelled = false → s.cancelReason = none := fun hl ↦ by
    have hrole : ¬ s.cancelledByRole.isSome := fun h ↦ by
      rw [hs.cancelledByRole, hl] at h
      cases h
    cases hc : s.cancelReason with
    | none => rfl
    | some x =>
      obtain ⟨role, hr⟩ := hs.cancelReason.1 (by rw [hc]; rfl)
      exact absurd (by rw [hr]; rfl) hrole
  cases h with
  | cancelled _ lineUserId u c hl =>
    refine ⟨hs.id_eq, by simp [cancellation], by simp [cancellation], by simp [cancellation], ?_,
      fun role h ↦ (nomatch h), hs.reminder⟩
    simp [cancellation, hreason hl]
  | @staffCancelled id dto actor _ u c hl =>
    refine ⟨hs.id_eq, by simp [staffCancellation], by simp [staffCancellation],
      by simp [staffCancellation], by simp [staffCancellation], ?_, hs.reminder⟩
    rintro _ ⟨⟩
    exact ⟨t, id, dto, actor, hjob, rfl, rfl, rfl⟩
  | reminded now c hnot hl hnow hsoon =>
    refine ⟨hs.id_eq, hs.cancelledAt, hs.cancelledById, hs.cancelledByRole, hs.cancelReason,
      hs.canceller, ?_⟩
    rintro _ ⟨⟩
    exact ⟨hnow, hsoon⟩
  | held _ holds =>
    exact ⟨hs.id_eq, hs.cancelledAt, hs.cancelledById, hs.cancelledByRole, hs.cancelReason,
      hs.canceller, hs.reminder⟩

/-- A slot is born on record. -/
theorem SlotInsert.onRecord (h : SlotInsert i s) : s.OnRecord jobs i := by
  refine ⟨h.id, ?_, ?_, ?_, ?_, fun role hr ↦ ?_, fun now hnow ↦ ?_⟩
  · simp [h.cancelledAt, h.isCancelled]
  · simp [h.cancelledById, h.isCancelled]
  · simp [h.cancelledByRole, h.isCancelled]
  · simp [h.cancelReason, h.cancelledByRole]
  · rw [h.cancelledByRole] at hr
    cases hr
  · rw [h.reminderSentAt] at hnow
    cases hnow

end Writes

/-! ### The law -/

/-- Every row in order. -/
def OnRecord (jobs : ℕ → Job) : ∀ τ, ℕ → Row τ → Prop
  | .request, i, r => BookingRequest.OnRecord jobs i r
  | .slot, i, s => BookingSlot.OnRecord jobs i s

/-- What stays of every row. -/
def Keeps : ∀ τ, Row τ → Row τ → Prop
  | .request, r, r' => BookingRequest.Keeps r r'
  | .slot, s, s' => BookingSlot.Keeps s s'

/-- A row that is not written. -/
theorem Keeps.refl (τ : Tab) (r : Row τ) : Keeps τ r r := by
  cases τ with
  | request => exact BookingRequest.Keeps.refl r
  | slot => exact BookingSlot.Keeps.refl r

/-- Two writes of a row. -/
theorem Keeps.trans (τ : Tab) (r r' r'' : Row τ) (h : Keeps τ r r') (h' : Keeps τ r' r'') :
    Keeps τ r r'' := by
  cases τ with
  | request => exact BookingRequest.Keeps.trans h h'
  | slot => exact BookingSlot.Keeps.trans h h'

/-- So it does over every statement. -/
theorem keeps_of_writes {jobs : ℕ → Job} (t : ℕ) (τ : Tab) (i : ℕ) (r r' : Row τ)
    (_ : OnRecord jobs τ i r) (h : (jobs t).writes τ r r') : Keeps τ r r' := by
  cases τ with
  | request => exact RequestWrite.keeps h
  | slot => exact SlotWrite.keeps h

/-- The sessions write what their calls write. -/
def recordLaw (jobs : ℕ → Job) : Law Row :=
  .generated (OnRecord jobs) (fun t ↦ (jobs t).writes) (fun t ↦ (jobs t).inserts)
    (fun t τ i r r' hr hw ↦ by
      cases τ with
      | request => exact RequestWrite.onRecord rfl hw hr
      | slot => exact SlotWrite.onRecord rfl hw hr)
    (fun t τ i r hi ↦ by
      cases τ with
      | request => exact RequestInsert.onRecord rfl hi
      | slot => exact SlotInsert.onRecord hi)

/-- The triggers write `holdsSlot` only. -/
theorem writesBy (jobs : ℕ → Job) : schema.WritesBy fun t ↦ (jobs t).writes where
  before t d τ r := by
    cases τ with
    | request => exact .inl rfl
    | slot => exact .inr (SlotWrite.held r _)
  after {t τ old new τ' ch r r'} ha hch := by
    cases τ with
    | slot => cases ha
    | request =>
      obtain ⟨push, hpush, he⟩ := Option.map_eq_some_iff.1 ha
      cases he
      unfold bookingRequestsHoldsSlot at hpush
      split at hpush
      · obtain rfl := Option.some.inj hpush
        dsimp only [pushHoldsSlot] at hch
        split at hch
        · obtain rfl := Option.some.inj hch
          exact SlotWrite.held r _
        · cases hch
      · cases hpush

/-- A contract of the nine writers under this law. -/
abbrev recordContract (jobs : ℕ → Job) (answers : ℕ → Reply → List View → BookingStore → Prop) :
    Contract Row BookingError Reply :=
  (recordLaw jobs).contract answers (fun _ _ _ _ _ ↦ True) fun _ _ _ _ _ ↦ True

/-- A session keeps it, as long as nothing is asked of its answers. -/
theorem safe_of_partOf {jobs : ℕ → Job} {answers : ℕ → Reply → List View → BookingStore → Prop}
    {t : ℕ} {s : Call} {log : List (Failure Row BookingError)} {seen : List View}
    (hs : s.PartOf (jobs t)) (hans : ∀ r reads σ, answers t r reads σ) :
    Safe (recordContract jobs answers) schema scheduled.loses (fun _ _ ↦ True) t log seen s :=
  safe_of_obeys (Law.generated_tolerates (writesBy jobs) fun _ ↦ hans _ _ _) hs

/-- Every call writes what is its part, the scheduled ones too. -/
theorem partOf_scheduled (job : Job) : Call.PartOf job (scheduled.service job) := by
  cases job with
  | booking op => exact service_partOf op
  | remindUpcoming => exact partOf_remindUpcoming

end EasyBook

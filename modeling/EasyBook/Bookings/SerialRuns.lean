import EasyBook.Bookings.Ledger
import EasyBook.ReadCommitted.Serial

/-!
# Serial runs of the booking core

Calls that are made one after the other, with whatever answers and whichever transactions lost:
between any two of them the book is a ledger (`serial_ledger`), and a pending request of it can be
approved (`approve_of_kept`).
-/

namespace EasyBook

open ReadCommitted ReadCommitted.Prog

/-! ### Transactions -/

section Transactions

variable {may : ∀ q, Ans q → Prop} {since : ℤ} {d : View}

/-- A transaction that is alone leaves a kept state, if it commits. -/
abbrev KeepsTx (may : ∀ q, Ans q → Prop) (since : ℤ) (p : Tx Reply) (d : View) : Prop :=
  p.solo schema may since (fun _ ↦ True) (fun _ ↦ Kept) d

/-- An update that closes pending requests. -/
private theorem closes_of_pending {p : BookingRequest → Prop} [DecidablePred p]
    {f : BookingRequest → BookingRequest} (hp : ∀ r, p r → r.status = .pending)
    (hf : ∀ r, ((f r).status = .rejected ∨ (f r).status = .expired) ∧ (f r).id = r.id ∧
      (f r).code = r.code ∧ (f r).venueId = r.venueId ∧ (f r).createdAt = r.createdAt ∧
      (f r).firstStartAt = r.firstStartAt ∧ (f r).lastEndAt = r.lastEndAt) :
    (∀ r r', (if p r then some (f r) else none) = some r' → r.Follows r' ∧ r'.status ≠ .approved) ∧
      ∀ l, Closing (fun r ↦ (if p r then some (f r) else none).getD r) l := by
  refine ⟨fun r r' h ↦ ?_, fun l r _ ↦ ?_⟩
  · split at h
    · next hr =>
      obtain rfl := Option.some.inj h
      obtain ⟨hst, hid, hcode, hvenue, hcreated, -, -⟩ := hf r
      refine ⟨⟨hid, hcode, hvenue, hcreated, .inr (.inl (hp r hr))⟩, fun ha ↦ ?_⟩
      rw [ha] at hst
      rcases hst with hst | hst <;> cases hst
    · cases h
  · by_cases hr : p r
    · obtain ⟨hst, hid, -, hvenue, -, hfirst, hlast⟩ := hf r
      simp only [hr, if_true, Option.getD_some]
      exact .inr ⟨hp r hr, hst, hid, hvenue, hfirst, hlast⟩
    · simp [hr]

/-- A request is EXPIRED while its slots hold nothing, before and after. -/
theorem keeps_expireOverdueTx (h : Kept d) (now : ℤ) :
    KeepsTx may since (expireOverdueTx now) d := by
  have hch := fun c ↦ closes_of_pending (p := fun r ↦ r.status = .pending ∧ r.firstStartAt < now)
    (f := fun r ↦
      { r with status := .expired, rejectReason := some autoExpiredReason, updatedAt := c })
    (fun _ h ↦ h.1) fun _ ↦ ⟨.inr rfl, rfl, rfl, rfl, rfl, rfl, rfl⟩
  refine solo_updateRequests h.sound (fun c i r r' _ hr' ↦ ((hch c).1 r r' hr').1)
    (fun _ _ ↦ trivial) fun c d' hset ↦ ?_
  exact h.close (hset.become fun _ _ _ ↦ rfl) ((hch c).2 _)

/-- A rejected request was PENDING, so none of its slots held. -/
theorem keeps_rejectTx (h : Kept d) (id : Cuid) (reason : JsString) :
    KeepsTx may since (rejectTx id reason) d := by
  have hch := fun c ↦ closes_of_pending (p := fun r ↦ r.id = id ∧ r.status = .pending)
    (f := fun r ↦ { r with status := .rejected, rejectReason := some reason, updatedAt := c })
    (fun _ h ↦ h.2) fun _ ↦ ⟨.inl rfl, rfl, rfl, rfl, rfl, rfl, rfl⟩
  refine solo_query.2 (solo_require (fun _ ↦ trivial) fun booking _ ↦
    solo_refuse (fun _ ↦ trivial) fun _ ↦ ?_)
  refine solo_updateRequests h.sound (fun c i r r' _ hr' ↦ ((hch c).1 r r' hr').1)
    (fun _ _ ↦ trivial) fun c d' hset ↦ solo_refuse (fun _ ↦ trivial) fun _ ↦ ?_
  exact h.close (hset.become fun _ _ _ ↦ rfl) ((hch c).2 _)

/-- An approval finds no clash, and from then on its slots hold. -/
theorem keeps_approveTx (h : Kept d) (id : Cuid) (actor : Actor) :
    KeepsTx may since (approveTx id actor) d := by
  refine solo_mono (fun _ _ ↦ trivial) (fun _ _ ha ↦ h.approve ha)
    (solo_approveTx h.sound ?_)
  rw [liveSpans_eq]
  exact ((h.ledger.apart id).sublist (List.filter_sublist.map _))

/-- An update that writes the columns of a cancellation. -/
private theorem cancelsSlots {i : Cuid} {p : BookingSlot → Prop} [DecidablePred p]
    {f : BookingSlot → BookingSlot} (hp : ∀ s : BookingSlot, p s.bare ↔ p s)
    (hid : ∀ s ∈ d.all .slot, p s → BookingSlot.bookingRequestId s = i)
    (hf : ∀ s : BookingSlot, (f s.bare).bare = (f s).bare ∧
      (f s).bookingRequestId = s.bookingRequestId ∧ (f s).venueId = s.venueId ∧
        (f s).span = s.span ∧ (f s).isCancelled = true ∧ (f s).cancelledAt.isSome = true) :
    CancelsSlots d i fun s ↦ if p s then some (f s) else none := by
  have hset : ∀ s, setSlot (fun s ↦ if p s then some (f s) else none) s =
      if p s then (f s).bare else s.bare := fun s ↦ by
    by_cases h : p s <;> simp [setSlot, h]
  refine ⟨fun s ↦ ?_, fun s ↦ ?_, fun s hmem hs ↦ ?_⟩
  · simp only [hset, hp]
    split
    · exact (hf s).1
    · rfl
  · rw [hset]
    obtain ⟨-, hparent, hvenue, hspan, hcan, hat⟩ := hf s
    split
    · exact ⟨hparent, hvenue, hspan, fun h ↦ absurd (hcan.symm.trans h) (by decide),
        fun _ ↦ ⟨fun _ ↦ hat, fun _ ↦ hcan⟩⟩
    · exact ⟨rfl, rfl, rfl, fun h ↦ h, fun h ↦ h⟩
  · rw [hset, if_neg fun h ↦ hs (hid s hmem h)]

/-- A PENDING request that is cancelled holds nothing. -/
theorem keeps_cancelPendingBookingTx (h : Kept d) (idOrCode : JsString) (requester : Cuid)
    (now : ℤ) : KeepsTx may since (cancelPendingBookingTx idOrCode requester now) d := by
  refine solo_query.2 (solo_require (fun _ ↦ trivial) fun booking hbooking ↦
    solo_refuse (fun _ ↦ trivial) fun hst ↦ ?_)
  rw [ne_eq, not_not] at hst
  have hrow : d.row .request booking.id = some booking :=
    h.sound.mem_request.1 (List.mem_of_find?_eq_some hbooking)
  refine solo_updateRequests h.sound (fun c i r r' _ hr' ↦ ?_) (fun _ _ ↦ trivial)
    fun c d₁ hset ↦ solo_refuse (fun _ ↦ trivial) fun _ ↦ ?_
  · split at hr'
    · next hr =>
      obtain rfl := Option.some.inj hr'
      exact ⟨rfl, rfl, rfl, rfl, .inr (.inl hr.2)⟩
    · cases hr'
  have hbecome : RequestsBecome d
      (fun r ↦
        if r.id = booking.id then { r with status := .cancelled, updatedAt := c } else r) d₁ :=
    hset.become fun i r hr ↦ by
      by_cases hri : r.id = booking.id
      · have hpending : r.status = .pending := by
          rw [h.sound.ok.request_id hr] at hri
          rw [hri, hrow] at hr
          rw [← Option.some.inj hr, hst]
        simp [hri, hpending]
      · simp [hri]
  have hrow₁ : d₁.row .request booking.id =
      some { booking with status := .cancelled, updatedAt := c } := by
    rw [hbecome.request, hrow, Option.map_some, if_pos rfl]
  have hch := fun c ↦ cancelsSlots (d := d) (i := booking.id) (f := cancellation now requester c)
    (p := fun s ↦ s.bookingRequestId = booking.id ∧ s.isCancelled = false) (fun _ ↦ Iff.rfl)
    (fun _ _ h ↦ h.1) fun _ ↦ ⟨rfl, rfl, rfl, rfl, rfl, rfl⟩
  refine solo_updateSlots hset.sound (fun c' j s s' r _ hs' hr ↦ ?_) fun c' d₂ hset' ↦ ?_
  · split at hs'
    · next hs =>
      obtain rfl := Option.some.inj hs'
      refine ⟨⟨rfl, rfl, rfl, rfl, rfl, fun _ ↦ rfl⟩, fun _ ↦ .inr ?_⟩
      rw [hs.1, hrow₁] at hr
      rw [← Option.some.inj hr]
    · cases hs'
  refine h.withdraw (hch c') hrow hbecome hset' fun s hs ↦ ?_
  by_cases hcan : s.isCancelled = true <;> simp [setSlot, hs, hcan, cancellation, BookingSlot.bare]

/-- The last statement of both cancellations. -/
private theorem solo_cancelParent {β : Type} {Q : β → View → Prop} {id : Cuid}
    {booking : BookingRequest} {remaining : List BookingSlot} {k : Unit → Tx β} (hd : Sound d)
    (hrow : d.row .request id = some booking) (hst : booking.status = .approved)
    (hk : ∀ c d', RequestsBecome d
      (fun r ↦ if r.id = id then cancelledRequest remaining c r else r) d' →
        (k ()).solo schema may since (fun _ ↦ True) Q d') :
    (updateRequestById id (cancelledRequest remaining) >>= k).solo schema may since (fun _ ↦ True) Q
      d := by
  refine solo_bind.2 (solo_updateRequests hd (fun c i r r' hr hr' ↦ ?_) (fun _ _ ↦ trivial)
    fun c d' hset ↦ ?_)
  · split at hr'
    · next hri =>
      obtain rfl := Option.some.inj hr'
      have hrst : r.status = .approved := by
        rw [hd.ok.request_id hr] at hri
        rw [hri, hrow] at hr
        rw [← Option.some.inj hr, hst]
      unfold cancelledRequest
      split
      · exact ⟨rfl, rfl, rfl, rfl, .refl _⟩
      · exact ⟨rfl, rfl, rfl, rfl, .inr (.inr ⟨hrst, rfl⟩)⟩
    · cases hr'
  · unfold refuse
    split
    · trivial
    · refine hk c d' (hset.become fun _ r _ ↦ ?_)
      split <;> rfl

/-- A cancelled slot holds no more; the others of its request still do. -/
theorem keeps_cancelApprovedSlotTx (h : Kept d) (idOrCode : JsString) (slotId requester : Cuid)
    (now cutoff : ℤ) :
    KeepsTx may since (cancelApprovedSlotTx idOrCode slotId requester now cutoff) d := by
  refine solo_query.2 (solo_require (fun _ ↦ trivial) fun booking hbooking ↦
    solo_refuse (fun _ ↦ trivial) fun hst ↦ ?_)
  rw [ne_eq, not_not] at hst
  have hrow : d.row .request booking.id = some booking :=
    h.sound.mem_request.1 (List.mem_of_find?_eq_some hbooking)
  refine solo_query.2 (solo_require (fun _ ↦ trivial) fun slot hslot ↦
    solo_refuse (fun _ ↦ trivial) fun _ ↦ solo_refuse (fun _ ↦ trivial) fun _ ↦ ?_)
  obtain ⟨hslot, hparent⟩ := Option.filter_eq_some_iff.1 hslot
  have honly : ∀ s ∈ d.all .slot, BookingSlot.id s = slot.id → BookingSlot.bookingRequestId s =
      booking.id := fun s hs hid ↦ by
    have hs := h.sound.mem_slot.1 hs
    rw [hid, h.sound.ok.slot_id hslot, hslot] at hs
    rw [← Option.some.inj hs]
    simpa using hparent
  have hch := fun c ↦ cancelsSlots (d := d) (i := booking.id) (f := cancellation now requester c)
    (p := fun s ↦ s.id = slot.id ∧ s.isCancelled = false) (fun _ ↦ Iff.rfl)
    (fun s hs h ↦ honly s hs h.1) fun _ ↦ ⟨rfl, rfl, rfl, rfl, rfl, rfl⟩
  refine solo_updateSlots h.sound (fun c j s s' r hs hs' hr ↦ ?_) fun c d₁ hset ↦ ?_
  · split at hs'
    · next hsid =>
      obtain rfl := Option.some.inj hs'
      refine ⟨⟨rfl, rfl, rfl, rfl, rfl, fun _ ↦ rfl⟩, fun _ ↦ .inl ?_⟩
      rw [honly s (Db.mem_all.2 ⟨j, hs⟩) hsid.1, hrow] at hr
      rw [← Option.some.inj hr, hst]
    · cases hs'
  refine solo_refuse (fun _ ↦ trivial) fun _ ↦ solo_query.2 ?_
  refine solo_cancelParent hset.sound (by rw [hset.request]; exact hrow) hst fun c' d₂ hbecome ↦ ?_
  exact h.cancelSlots (hch c) hset hrow hst rfl hbecome

/-- The slots that staff cancel hold no more. -/
theorem keeps_cancelTx (h : Kept d) (id : Cuid) (dto : CancelBookingRequestDto) (actor : Actor) :
    KeepsTx may since (cancelTx id dto actor) d := by
  refine solo_query.2 (solo_require (fun _ ↦ trivial) fun booking hrow ↦ solo_lockVenue.2 ?_)
  refine solo_query.2 (solo_refuse (fun _ ↦ trivial) fun hst ↦ solo_query.2 ?_)
  have hst : booking.status = .approved := by simpa [hrow] using hst
  set all := (d.all .slot).filter fun s ↦ decide (s.bookingRequestId = id) with hall
  refine solo_refuse (fun _ ↦ trivial) fun _ ↦ ?_
  cases htargets : cancelTargets all dto.slotIds with
  | error e => trivial
  | ok targets =>
    have hsub : ∀ s ∈ targets, s ∈ all := fun s hs ↦ by
      unfold cancelTargets at htargets
      split at htargets
      · rw [← Except.ok.inj htargets] at hs
        exact (List.mem_filter.1 hs).1
      · split at htargets
        · cases htargets
        · rw [← Except.ok.inj htargets] at hs
          exact (List.mem_filter.1 (List.mem_filter.1 hs).1).1
    have honly : ∀ s ∈ d.all .slot, BookingSlot.id s ∈ targets.map BookingSlot.id →
        BookingSlot.bookingRequestId s = id := fun s hs hid ↦ by
      obtain ⟨t, ht, hts⟩ := List.mem_map.1 hid
      obtain ⟨htd, hparent⟩ := List.mem_filter.1 (hsub t ht)
      have ht := h.sound.mem_slot.1 htd
      rw [hts, h.sound.mem_slot.1 hs] at ht
      rw [Option.some.inj ht]
      simpa using hparent
    refine solo_readClock.2 fun cancelledAt _ ↦ ?_
    have hch := fun c ↦ cancelsSlots (d := d) (i := id)
      (f := staffCancellation cancelledAt actor dto.reason c)
      (p := fun s ↦ s.id ∈ targets.map BookingSlot.id ∧ s.isCancelled = false) (fun _ ↦ Iff.rfl)
      (fun s hs h ↦ honly s hs h.1) fun _ ↦ ⟨rfl, rfl, rfl, rfl, rfl, rfl⟩
    refine solo_updateSlots h.sound (fun c j s s' r hs hs' hr ↦ ?_) fun c d₁ hset ↦ ?_
    · split at hs'
      · next hsid =>
        obtain rfl := Option.some.inj hs'
        refine ⟨⟨rfl, rfl, rfl, rfl, rfl, fun _ ↦ rfl⟩, fun _ ↦ .inl ?_⟩
        rw [honly s (Db.mem_all.2 ⟨j, hs⟩) hsid.1, hrow] at hr
        rw [← Option.some.inj hr, hst]
      · cases hs'
    refine solo_refuse (fun _ ↦ trivial) fun _ ↦ ?_
    refine solo_cancelParent hset.sound (by rw [hset.request]; exact hrow) hst
      fun c' d₂ hbecome ↦ h.cancelSlots (hch c) hset hrow hst ?_ hbecome
    -- what was live and is no target is what is live now
    rw [hset.liveSpans (hch c), hall, List.filter_filter, List.filter_filter]
    congr 1
    refine List.filter_congr fun s _ ↦ ?_
    by_cases hid : s.id ∈ targets.map BookingSlot.id <;> by_cases hcan : s.isCancelled = true <;>
      simp [setSlot, hid, hcan, staffCancellation, BookingSlot.bare, Bool.and_comm]

/-- A request sent through LINE is PENDING, and its slots lie apart. -/
theorem keeps_insertOnce (h : Kept d) {venueId requester : Cuid} {dto : CreateLineBookingDto}
    {slots : List ParsedSpan} (hspread : ∀ spans, slotSpans slots = .ok spans → Spread spans) :
    KeepsTx may since (insertOnce venueId requester dto slots) d :=
  solo_mono (fun _ _ ↦ trivial) (fun _ _ ⟨spans, hspans, hs⟩ ↦ h.submit (hspread spans hspans) hs)
    (solo_insertOnce h.sound fun spans hspans ↦ (hspread spans hspans).apart)

/-- A direct booking has slots, which lie apart and clash with none that hold. -/
theorem keeps_createDirectOnce (h : Kept d) {dto : CreateDirectBookingDto} {actor : Actor}
    {slots : List ParsedSpan} (hslots : slots ≠ [])
    (hspread : ∀ spans, slotSpans slots = .ok spans → Spread spans) :
    KeepsTx may since (createDirectOnce dto slots actor) d := by
  rw [createDirectOnce_eq]
  refine solo_lockVenue.2 fun answer _ ↦ solo_require (fun _ ↦ trivial) fun ⟨venueId, _⟩ _ ↦ ?_
  refine solo_checkInput (fun _ _ _ _ _ ↦ trivial) fun _ ↦ ?_
  refine solo_checkInput (fun _ _ _ _ _ ↦ trivial) fun _ ↦ ?_
  exact solo_mono (fun _ _ ↦ trivial)
    (fun _ _ ⟨_, spans, hspans, hs⟩ ↦ h.direct (hspread spans hspans) hs)
    (solo_bookDirectly h.sound hslots fun spans hspans ↦ (hspread spans hspans).apart)

end Transactions

/-! ### Calls -/

section Calls

variable {T : Terms Row BookingError Cuid Ans Reply Op} {since : ℤ} {op : Op} {d : View}

/-- A call that is alone leaves a kept state. -/
abbrev KeepsCall (T : Terms Row BookingError Cuid Ans Reply Op) (since : ℤ) (op : Op) (c : Call)
    (d : View) : Prop :=
  bookings.Heads T since op (fun _ ↦ Kept) c d

/-- A transaction that keeps the state, and what follows on the state it leaves. -/
theorem keepsCall_attempt {p : Tx Reply} {k : Except BookingError Reply → Call} (h : Kept d)
    (hp : ∀ {may}, KeepsTx may since p d) (hk : ∀ r d', Kept d' → KeepsCall T since op (k r) d') :
    KeepsCall T since op (.attempt p k) d :=
  ⟨solo_mono (fun _ _ _ hrow ↦ hk _ _ (h.congr hrow)) (fun _ _ hd ↦ hk _ _ hd) hp,
    fun _ _ hrow _ ↦ hk _ _ (h.congr hrow)⟩

/-- Every attempt begins on a state that is kept. -/
theorem keepsCall_retryOnCollision {run : BookingError → BookingError} {p : Tx Reply} (h : Kept d)
    (hp : ∀ {may d}, Kept d → KeepsTx may since p d) (n : ℕ) :
    KeepsCall T since op (retryOnCollision run p n) d := by
  induction n generalizing d with
  | zero => exact h
  | succ n ih =>
    refine keepsCall_attempt h (hp h) fun r d' h' ↦ ?_
    split
    · exact h'
    · split
      · intro target _
        dsimp only
        split
        · exact h'
        · split
          · exact h'
          · exact ih h'
      · exact h'

/-- The look-up of the requester changes nothing. -/
theorem keepsCall_resolveAllowedRequester {lineSub : JsString} {k : Cuid → Call} (h : Kept d)
    (hk : ∀ id, KeepsCall T since op (k id) d) :
    KeepsCall T since op (resolveAllowedRequester lineSub k) d := fun user _ ↦ by
  rcases user with - | ⟨id, - | - | - | - | -⟩
  case some.allowed => exact hk id
  all_goals exact h

/-- Accepted spans are as many as were requested. -/
theorem ne_nil_of_parseSlots {now : ℤ} {input : List BookingSlotInput} {slots : List ParsedSpan}
    (h : parseSlots now input = .ok slots) (hne : input ≠ []) : slots ≠ [] := by
  rw [← parseSlotsBy_insertion, parseSlotsBy_eq_ok_iff] at h
  rw [h.1, spansOf]
  exact fun hnil ↦ hne (List.map_eq_nil_iff.1 hnil)

/-- **Every call** leaves a kept state. -/
theorem keepsCall (h : Kept d) (op : Op) : KeepsCall T since op (service op) d := by
  have hdecision : ∀ {p : Tx Reply}, (∀ {may}, KeepsTx may since p d) →
      KeepsCall T since op (decision p) d :=
    fun hp ↦ keepsCall_attempt h hp fun _ _ h' ↦ h'
  cases op with
  | createFromLine lineSub dto =>
    refine keepsCall_resolveAllowedRequester h fun requester now _ ↦ ?_
    beta_reduce
    cases hslots : parseSlots now dto.slots with
    | error e => exact h
    | ok slots =>
      rintro (- | ⟨venueId, - | -⟩) -
      · exact h
      · exact h
      · exact keepsCall_retryOnCollision h (fun h' ↦ keeps_insertOnce h' fun spans hspans ↦
          spread_of_parseSlots hslots hspans) _
  | cancelPendingBooking lineSub idOrCode =>
    exact keepsCall_resolveAllowedRequester h fun requester now _ ↦
      keepsCall_attempt h (keeps_cancelPendingBookingTx h _ _ _) fun _ _ h' ↦ h'
  | cancelApprovedSlot lineSub idOrCode slotId =>
    exact keepsCall_resolveAllowedRequester h fun requester value _ now _ ↦
      keepsCall_attempt h (keeps_cancelApprovedSlotTx h _ _ _ _ _) fun _ _ h' ↦ h'
  | approve id actor => exact hdecision (keeps_approveTx h id actor)
  | reject id reason => exact keepsCall_attempt h (keeps_rejectTx h id reason) fun _ _ h' ↦ h'
  | cancel id dto actor => exact hdecision (keeps_cancelTx h id dto actor)
  | createDirect dto actor =>
    show KeepsCall T since _ (createDirect dto actor) d
    unfold createDirect
    split
    · exact h
    · intro now _
      beta_reduce
      cases hslots : parseSlots now dto.slots with
      | error e => exact h
      | ok slots =>
        exact keepsCall_retryOnCollision h (fun h' ↦ keeps_createDirectOnce h'
          (ne_nil_of_parseSlots hslots dto.slots_ne_nil) fun spans hspans ↦
            spread_of_parseSlots hslots hspans) _
  | expireOverdue =>
    refine fun now _ ↦ keepsCall_attempt h (keeps_expireOverdueTx h now) fun r d' h' ↦ ?_
    split <;> exact h'

/-- The empty database is kept. -/
theorem kept_init : Kept (Store.init Row).committed := by
  have hnone : ∀ τ i, (Store.init Row).committed.row τ i = none := fun _ _ ↦ rfl
  refine ⟨⟨⟨fun hr ↦ (nomatch hr), fun hs ↦ (nomatch hs), fun hs ↦ (nomatch hs)⟩,
    fun _ _ _ _ _ _ hr ↦ (nomatch hr)⟩, ?_⟩
  have hbook : bookOf (Store.init Row).committed = ⟨[], []⟩ := rfl
  rw [hbook]
  exact ⟨⟨List.nodup_nil, by simp, by simp, by simp, fun _ ↦ .nil⟩, by simp⟩

end Calls

/-! ### Between calls -/

/-- Any answer may come, and no transaction is lost. -/
def undisturbed : Terms Row BookingError Cuid Ans Reply Op where
  call _ _ := True
  may _ _ _ _ := True
  lose _ _ _ _ := False

/-- A pending request of a kept state can be approved. -/
theorem approveRefusal_eq_none {d : View} (h : Kept d) {id : Cuid} {r : BookingRequest}
    (hrow : d.row .request id = some r) (hst : r.status = .pending) :
    approveRefusal d id = none := by
  have hmem : r ∈ (bookOf d).requests := Db.mem_all.2 ⟨id, hrow⟩
  have hid : r.id = id := h.sound.ok.request_id hrow
  have hfiled := h.ledger.filed r hmem
  rw [hid] at hfiled
  have hlive : liveSlots d id ≠ [] := fun hnil ↦ by
    obtain ⟨hne, hall⟩ := hfiled.undecided (.inl hst)
    obtain ⟨s, hs⟩ := List.exists_mem_of_ne_nil _ hne
    obtain ⟨s₀, hs₀, hsid, rfl⟩ := mem_slotsOf.1 hs
    obtain ⟨j, hj⟩ := Db.mem_all.1 hs₀
    have : s₀ ∈ liveSlots d id := mem_liveSlots.2 ⟨⟨j, hj⟩, hsid, (hall s₀.bare hs :)⟩
    rw [hnil] at this
    cases this
  have hfree : (findApprovedClash d r.venueId (liveSpans d id) (some id)).isSome = false := by
    refine Bool.eq_false_iff.2 fun hclash ↦ ?_
    obtain ⟨m, hm, j, s, q, hs, hlive, hvenue, hex, hq, hqst, hover⟩ :=
      findApprovedClash_isSome.1 hclash
    obtain ⟨q', hq', ha⟩ := h.sound.ok.parent hs
    obtain rfl := Option.some.inj (hq'.symm.trans hq)
    rw [liveSpans_eq] at hm
    obtain ⟨t, ht, rfl⟩ := List.mem_map.1 hm
    have hqid : q'.id = s.bookingRequestId := h.sound.ok.request_id hq
    have hapart := h.ledger.clear r hmem hst q' (Db.mem_all.2 ⟨_, hq⟩) hqst
      (hvenue.symm.trans ha.venueId) t (hid ▸ ht) s.bare
      (mem_live.2 ⟨mem_slotsOf.2 ⟨s, Db.mem_all.2 ⟨j, hs⟩, hqid.symm, rfl⟩, hlive⟩)
    simp only [SlotSpan.Apart, BookingSlot.span, BookingSlot.bare] at hapart hover
    omega
  simp [approveRefusal, hrow, hst, hlive, hfree]

/-- **Serial runs keep the ledger**, and leave no pending request that cannot be approved: whoever
approves one without being disturbed is not refused. -/
theorem serial_ledger {T : Terms Row BookingError Cuid Ans Reply Op} {w : BookingWorld}
    (hw : bookings.Serial T w) :
    Ledger (bookOf w.store.committed) ∧ ∀ id r, w.store.committed.row .request id = some r →
      r.status = .pending → ∀ t actor cur w' res,
        bookings.Serving undisturbed t (.approve id actor) w cur w' → w'.result t = some res →
          ∃ losers, res = .ok (.approved id losers) := by
  obtain ⟨hquiet, hkept⟩ := System.Serial.invariant (J := Kept) kept_init
    (fun _ d op h _ ↦ keepsCall h op) hw
  refine ⟨hkept.ledger, fun id r hrow hst t actor cur w' res hserving hres ↦ ?_⟩
  have hpasses := approveRefusal_eq_none hkept hrow hst
  have hapart : (liveSpans w.store.committed id).Pairwise SlotSpan.Apart := by
    rw [liveSpans_eq]
    exact (hkept.ledger.apart id).sublist (List.filter_sublist.map _)
  have hheads : bookings.Heads undisturbed w.store.clock (.approve id actor)
      (fun res _ ↦ ∃ losers, res = .ok (.approved id losers)) (service (.approve id actor))
        w.store.committed := by
    refine ⟨solo_mono (fun e he ↦ ?_) (fun reply d' ha ↦ ?_)
      (solo_approveTx hkept.sound hapart), fun _ _ _ hlost ↦ hlost.2.elim⟩
    · rw [hpasses] at he
      cases he
    · obtain ⟨booking, -, rfl⟩ := ha.reply
      exact ⟨_, rfl⟩
  exact (hserving.sound hquiet hheads hres).2

instance (d : View) (op : Op) : Decidable (undisturbed.call d op) := .isTrue trivial

instance (op : Op) (d : View) (q : Ask) (a : Ans q) : Decidable (undisturbed.may op d q a) :=
  .isTrue trivial

namespace Sample

/-- Two requests for the same hour and one for the next; the first is approved. -/
def decidedCalls : List (Op × ∀ q, Ans q) :=
  [(.createFromLine [] (line 100), oracle), (.createFromLine [] (line 100), oracle),
    (.createFromLine [] (line 101), oracle), (.approve 0 staff, oracle)]

/-- The world after them. -/
def decidedWorld : BookingWorld :=
  (bookings.serveAll undisturbed 20 0 decidedCalls World.init).getD World.init

end Sample

/-- The second request has lost, and the third can be approved. -/
theorem serial_ledger_decided : ∃ w, bookings.Serial undisturbed w ∧
    Ledger (bookOf w.store.committed) ∧
    (w.store.committed.row .request 2).map BookingRequest.status = some .rejected ∧
    (w.store.committed.row .request 4).map BookingRequest.status = some .pending ∧
    ∀ t actor cur w' res, bookings.Serving undisturbed t (.approve 4 actor) w cur w' →
      w'.result t = some res → ∃ losers, res = .ok (.approved 4 losers) := by
  have hserial : bookings.Serial undisturbed Sample.decidedWorld := by
    unfold Sample.decidedWorld
    rcases h : bookings.serveAll undisturbed 20 0 Sample.decidedCalls World.init with - | w
    · exact .init
    · exact System.Serial.serveAll .init h
  have hlost : (Sample.decidedWorld.store.committed.row .request 2).map BookingRequest.status =
      some .rejected := by decide +kernel
  have hpending : (Sample.decidedWorld.store.committed.row .request 4).map BookingRequest.status =
      some .pending := by decide +kernel
  obtain ⟨hledger, happroved⟩ := serial_ledger hserial
  obtain ⟨r, hrow, hst⟩ := Option.map_eq_some_iff.1 hpending
  exact ⟨_, hserial, hledger, hlost, hpending, happroved 4 r hrow hst⟩

end EasyBook

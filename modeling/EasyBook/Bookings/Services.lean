import EasyBook.Bookings.Rules

/-!
# Every service keeps the contract

The verification conditions of the eight writers, in the order of their modules, and from them
`healthy`: in every run, whatever the interleaving, the invariant holds and every session behaves.
-/

namespace EasyBook

open ReadCommitted ReadCommitted.Prog

/-- A caller gets the error of a code that is taken only if each attempt ended with it; and if the
driver names the column, only after the last attempt. -/
def Warranted (log : List (Failure Row BookingError)) (r : Except BookingError Reply) : Prop :=
  ∀ e, r = .error e → e.OfCode → log ≠ [] ∧ (∀ f ∈ log, f.error = .codeCollision) ∧
    (e = .codeCollision → log.length = bookingCodeMaxAttempts)

/-- What an attempt at inserting a request may fail with. -/
def Collides (f : Failure Row BookingError) : Prop :=
  f.error.OfCode → f.error = .codeCollision ∧ Contended f

/-- The condition of a call. -/
abbrev SafeCall (strict : Prop) (t : ℕ) (log : List (Failure Row BookingError)) (c : Call) : Prop :=
  Safe (contract strict) schema bookings.loses Warranted t log [] c

/-- The condition of a transaction. -/
def SafeTx (strict : Prop) (F : Failure Row BookingError → Prop) (p : Tx Reply) : Prop :=
  ∀ t σ, Standing strict σ → σ.Clean t →
    wp (contract strict) schema t F (Committing (contract strict) t) p
      ⟨σ.clock, σ.view (some t)⟩ [] σ

section Sessions

variable {strict : Prop} {t : ℕ} {log : List (Failure Row BookingError)}

/-- A call that ends well claims nothing about codes. -/
theorem warranted_ok (reply : Reply) : Warranted log (.ok reply) := fun _ h ↦ by cases h

/-- Nor does one that fails for another reason. -/
theorem warranted_error {e : BookingError} (he : ¬ e.OfCode) : Warranted log (.error e) :=
  fun _ h hcode ↦ absurd (Except.error.inj h ▸ hcode) he

/-- No transaction is lost to a code that is taken. -/
theorem not_ofCode_of_loses {e : BookingError} (h : bookings.loses e = true) : ¬ e.OfCode := by
  intro hcode
  cases e <;> simp_all [bookings]

/-- `runDecision` maps no other error to one of a code. -/
theorem runDecision_ofCode {e : BookingError} : (runDecision e).OfCode ↔ e.OfCode := by
  cases e <;> simp [runDecision]

/-- One attempt, whose result is handed on and whose error is `g` of the one of the transaction. -/
theorem safe_attempt {p : Tx Reply} {g : Except BookingError Reply → Except BookingError Reply}
    (hp : SafeTx strict Uncollided p) (hok : ∀ r, ∃ r', g (.ok r) = .ok r')
    (herr : ∀ e, ¬ e.OfCode → ∃ e', g (.error e) = .error e' ∧ ¬ e'.OfCode) :
    SafeCall strict t log (.attempt p fun r ↦ .done (g r)) := by
  refine safe_attempt_of_wp Uncollided (hp t) (fun r _ ↦ ?_) fun f hf ↦ ?_
  · obtain ⟨r', hr'⟩ := hok r
    show Warranted log (g (.ok r))
    rw [hr']
    exact warranted_ok r'
  · have hne : ¬ f.error.OfCode := hf.elim id not_ofCode_of_loses
    obtain ⟨e', he', hne'⟩ := herr _ hne
    refine ⟨fun he ↦ absurd (he ▸ trivial) hne, ?_⟩
    show Warranted _ (g (.error f.error))
    rw [he']
    exact warranted_error hne'

/-- A decision is safe when its transaction is. -/
theorem safe_decision {p : Tx Reply} (hp : SafeTx strict Uncollided p) :
    SafeCall strict t log (decision p) :=
  safe_attempt hp (fun r ↦ ⟨r, rfl⟩) fun _ he ↦ ⟨_, rfl, mt runDecision_ofCode.1 he⟩

/-- The look-up of the requester changes nothing. -/
theorem safe_resolveAllowedRequester {lineSub : JsString} {k : Cuid → Call}
    (h : ∀ id, SafeCall strict t log (k id)) :
    SafeCall strict t log (resolveAllowedRequester lineSub k) := by
  intro user
  rcases user with - | ⟨id, access⟩
  · exact warranted_error id
  · cases access
    case allowed => exact h id
    all_goals exact warranted_error fun he ↦ he

/-- The retry loop. `log` holds the attempts so far. -/
theorem safe_retryOnCollision {run : BookingError → BookingError}
    (hrun : ∀ e, (run e).OfCode ↔ e.OfCode) (hkeep : run .codeCollision = .codeCollision)
    {p : Tx Reply} (hp : SafeTx strict Collides p) {n : ℕ}
    (hn : log.length + n = bookingCodeMaxAttempts)
    (hlog : ∀ f ∈ log, f.error = .codeCollision) :
    SafeCall strict t log (retryOnCollision run p n) := by
  induction n generalizing log with
  | zero => exact warranted_error id
  | succ n ih =>
    refine safe_attempt_of_wp _ (hp t) (fun r _ ↦ warranted_ok r) fun f hf ↦ ?_
    have hcollides : Collides f := hf.elim id fun hlost hcode ↦
      absurd hcode (not_ofCode_of_loses hlost)
    refine ⟨fun he ↦ (hcollides (he ▸ trivial)).2, ?_⟩
    show SafeCall strict t (log ++ [f]) (if _ then _ else _)
    split
    · next hcol =>
      have hlog' : ∀ f' ∈ log ++ [f], f'.error = .codeCollision := fun f' hf' ↦ by
        rcases List.mem_append.1 hf' with hf' | hf'
        · exact hlog f' hf'
        · exact List.mem_singleton.1 hf' ▸ (hcollides ((hrun _).1 (hcol ▸ trivial))).1
      have hlen : (log ++ [f]).length + n = bookingCodeMaxAttempts := by
        rw [List.length_append, List.length_singleton]
        omega
      have hne : log ++ [f] ≠ [] := List.append_ne_nil_of_right_ne_nil _ (List.cons_ne_nil _ _)
      intro target
      dsimp only
      split
      · exact fun e he _ ↦ ⟨hne, hlog', fun hcol' ↦ by
          rw [hcol'] at he
          cases he⟩
      · split
        · next hlast =>
          subst hlast
          exact fun _ _ _ ↦ ⟨hne, hlog', fun _ ↦ hlen⟩
        · exact ih hlen hlog'
    · next hcol =>
      -- an error of a code would have been the collision
      refine warranted_error fun hcode ↦ hcol ?_
      rw [(hcollides ((hrun _).1 hcode)).1, hkeep]

end Sessions

section Transactions

variable {strict : Prop} {F : Failure Row BookingError → Prop} {t : ℕ} {clocked : Reading Row}
  {reads : List View} {σ : BookingStore}

/-- A refusal is no collision. -/
private theorem refused (hF : ∀ f, Uncollided f → F f) {e : BookingError}
    (he : ¬ e.OfCode) : ∀ f : Failure Row BookingError, f.error = e → F f :=
  fun f hf ↦ hF f (by rwa [Uncollided, hf])

/-- A transaction that reports no losers is done when it is whole. -/
private theorem wp_done {reply : Reply} (hreply : reply.autoRejected = none)
    (hw : strict → Whole t σ) :
    wp (contract strict) schema t F (Committing (contract strict) t) (pure reply : Tx Reply)
      clocked reads σ :=
  fun _ hr _ ↦ ⟨whole_rely hr hw, fun l hl ↦ by rw [hreply] at hl; cases hl⟩

/-- A version that leaves `PENDING` and nothing else behind. -/
private theorem follows_of_pending {P : BookingRequest → Prop} [DecidablePred P]
    {f : BookingRequest → BookingRequest} (hf : ∀ r, (f r).id = r.id ∧ (f r).code = r.code ∧
      (f r).venueId = r.venueId ∧ (f r).createdAt = r.createdAt ∧
      (f r).firstStartAt = r.firstStartAt ∧ (f r).lastEndAt = r.lastEndAt)
    (hP : ∀ r, P r → r.status = .pending) (r r' : BookingRequest)
    (h : (if P r then some (f r) else none) = some r') :
    r.Follows r' ∧ r.KeepsSpan r' ∧ P r ∧ f r = r' := by
  split at h
  · next hc =>
    obtain rfl := Option.some.inj h
    obtain ⟨hid, hcode, hvenue, hcreated, hfirst, hlast⟩ := hf r
    have hst := hP r hc
    exact ⟨⟨hid, hcode, hvenue, hcreated, Or.inr (Or.inl hst)⟩,
      fun _ ↦ ⟨by rw [hst]; simp, hfirst, hlast⟩, hc, rfl⟩
  · cases h

/-! ### Expiry -/

/-- The sweep moves PENDING requests to EXPIRED, and collides with no code. -/
theorem safe_expireOverdueTx (now : ℤ) : SafeTx strict Uncollided (expireOverdueTx now) := by
  intro t σ hσ hclean
  have hch := fun c ↦ follows_of_pending
    (P := fun r ↦ r.status = .pending ∧ r.firstStartAt < now)
    (f := fun r ↦ { r with
      status := .expired, rejectReason := some autoExpiredReason, updatedAt := c })
    (fun _ ↦ ⟨rfl, rfl, rfl, rfl, rfl, rfl⟩) fun _ h ↦ h.1
  refine wp_updateRequests (fun f hf ↦ hf) fun σ₀ h₀ σ₁ h₁ hσ₁ ↦
    ⟨fun i r r' _ hr' ↦ (hch _ _ _ hr').1, fun rows σ₂ hu hσ₂ _ ↦ wp_done rfl fun hs ↦ ?_⟩
  exact (whole_rely (h₀.trans h₁) (fun _ ↦ .of_clean hclean) hs).requestsUpdated
    hσ₁.integrity (hσ₁.spans hs) hu fun i r r' _ hr' ↦ (hch _ _ _ hr').2.1

/-! ### Rejecting -/

/-- A rejection moves a PENDING request to REJECTED, and collides with no code. -/
theorem safe_rejectTx (id : Cuid) (reason : JsString) :
    SafeTx strict Uncollided (rejectTx id reason) := by
  intro t σ hσ hclean
  have hF : ∀ f, Uncollided f → Uncollided f := fun f hf ↦ hf
  refine wp_query.2 fun σ₁ h₁ _ ↦ wp_require (refused hF (by simp)) fun booking _ ↦
    wp_refuse (refused hF (by simp)) fun _ ↦ ?_
  have hch := fun c ↦ follows_of_pending
    (P := fun r ↦ r.id = id ∧ r.status = .pending)
    (f := fun r ↦ { r with status := .rejected, rejectReason := some reason, updatedAt := c })
    (fun _ ↦ ⟨rfl, rfl, rfl, rfl, rfl, rfl⟩) fun _ h ↦ h.2
  refine wp_updateRequests hF fun σ₂ h₂ σ₃ h₃ hσ₃ ↦
    ⟨fun i r r' _ hr' ↦ (hch _ _ _ hr').1, fun rows σ₄ hu hσ₄ _ ↦
      wp_refuse (refused hF (by simp)) fun _ ↦ wp_done rfl fun hs ↦ ?_⟩
  exact (whole_rely ((h₁.trans h₂).trans h₃) (fun _ ↦ .of_clean hclean) hs).requestsUpdated
    hσ₃.integrity (hσ₃.spans hs) hu fun i r r' _ hr' ↦ (hch _ _ _ hr').2.1

/-! ### Withdrawing -/

/-- A cancellation of a PENDING request collides with no code. -/
theorem safe_cancelPendingBookingTx (idOrCode : JsString) (requester : Cuid) (now : ℤ) :
    SafeTx strict Uncollided (cancelPendingBookingTx idOrCode requester now) := by
  intro t σ hσ hclean
  have hF : ∀ f, Uncollided f → Uncollided f := fun f hf ↦ hf
  refine wp_query.2 fun σ₁ h₁ _ ↦ wp_require (refused hF (by simp)) fun booking _ ↦
    wp_refuse (refused hF (by simp)) fun _ ↦ ?_
  have hch := fun c ↦ follows_of_pending
    (P := fun r ↦ r.id = booking.id ∧ r.status = .pending)
    (f := fun r ↦ { r with status := .cancelled, updatedAt := c })
    (fun _ ↦ ⟨rfl, rfl, rfl, rfl, rfl, rfl⟩) fun _ h ↦ h.2
  refine wp_updateRequests hF fun σ₂ h₂ σ₃ h₃ hσ₃ ↦
    ⟨fun i r r' _ hr' ↦ (hch _ _ _ hr').1, fun rows σ₄ hu hσ₄ _ ↦ ?_⟩
  refine wp_refuse (refused hF (by simp)) fun hlen ↦ ?_
  have hw : strict → Whole t σ₄ := fun hs ↦
    (whole_rely ((h₁.trans h₂).trans h₃) (fun _ ↦ .of_clean hclean) hs).requestsUpdated
      hσ₃.integrity (hσ₃.spans hs) hu fun i r r' _ hr' ↦ (hch _ _ _ hr').2.1
  -- the request is cancelled in the view of `t`, and locked
  obtain ⟨hown, r₄, hr₄, hst₄⟩ : (σ₄.cell .request booking.id).ownedBy t ∧
      ∃ r, (σ₄.cell .request booking.id).seen (some t) = some r ∧
        BookingRequest.status r = .cancelled := by
    obtain ⟨q, hq⟩ := List.exists_mem_of_length_pos (by omega : 0 < rows.length)
    obtain ⟨i, r, hr, hq', hc⟩ := hu.mem_rows q hq
    obtain ⟨_, _, ⟨hid, _⟩, rfl⟩ := hch _ _ _ hq'
    obtain rfl : i = booking.id :=
      ((hσ₃.integrity.view (some t)).request_id hr).symm.trans hid
    exact ⟨⟨_, by rw [hc]; rfl⟩, _, by rw [hc, Cell.seen_write_self], rfl⟩
  refine wp_updateSlots hF fun σ₅ h₅ σ₆ h₆ hσ₆ ↦ ?_
  have hcell := (h₅.trans h₆).cell_of_ownedBy hown
  have hslot : ∀ c (s s' : BookingSlot),
      (if s.bookingRequestId = booking.id ∧ s.isCancelled = false then
        some (cancellation now requester c s) else none) = some s' →
      s.Follows s' ∧ s.bookingRequestId = booking.id := fun c s s' hs' ↦ by
    split at hs'
    · next hc =>
      obtain rfl := Option.some.inj hs'
      exact ⟨⟨rfl, rfl, rfl, rfl, rfl, fun _ ↦ rfl⟩, hc.1⟩
    · cases hs'
  refine ⟨fun j s s' r _ hs' hr ↦ ⟨(hslot _ s s' hs').1, fun _ ↦ ?_⟩, fun _ σ₇ hu₇ _ ↦
    wp_done rfl fun hs ↦ ?_⟩
  · rw [(hslot _ s s' hs').2, hcell, hr₄] at hr
    obtain rfl := Option.some.inj hr
    exact Or.inr hst₄
  · refine (whole_rely (h₅.trans h₆) hw hs).slotsUpdated hu₇ fun j s s' _ hs' ↦ ?_
    obtain ⟨hf, hp⟩ := hslot _ s s' hs'
    refine ⟨hf.bookingRequestId, ?_, r₄, ?_, hst₄⟩ <;> rw [hp, hcell]
    · exact hown
    · exact hr₄

/-! ### Cancelling slots of an approved booking -/

/-- An APPROVED request may lose a slot or be CANCELLED. -/
private theorem cancelledRequest_follows {remaining : List BookingSlot} {c : ℤ}
    {r : BookingRequest} (h : r.status.Settled) : r.Follows (cancelledRequest remaining c r) := by
  unfold cancelledRequest
  split
  · exact ⟨rfl, rfl, rfl, rfl, .refl _⟩
  · refine ⟨rfl, rfl, rfl, rfl, ?_⟩
    rcases h with h | h
    · exact Or.inr (Or.inr ⟨h, rfl⟩)
    · exact Or.inl h

/-- A cancellation of a slot changes the slot in this way only. -/
private theorem follows_of_cancellation {P : BookingSlot → Prop} [DecidablePred P]
    {f : BookingSlot → BookingSlot} (hf : ∀ s, s.Follows (f s) ∧ (f s).isCancelled = true)
    (s s' : BookingSlot) (h : (if P s then some (f s) else none) = some s') :
    s.Follows s' ∧ s'.isCancelled = true ∧ P s := by
  split at h
  · next hc =>
    obtain rfl := Option.some.inj h
    exact ⟨(hf s).1, (hf s).2, hc⟩
  · cases h

/-- The last statement of both cancellations: `t` has cancelled slots of request `i`, and writes
the request from the slots that its last query saw live and it has not cancelled. -/
private theorem wp_cancelParent {i : Cuid} {remaining : List BookingSlot} {k : Unit → Tx Reply}
    (hF : ∀ f, Uncollided f → F f) (hset : ∃ r, (σ.cell .request i).seen (some t) = some r ∧
      BookingStatus.Settled (BookingRequest.status r))
    (hreq : ∀ k, ¬ (σ.cell .request k).ownedBy t)
    (hslot : ∀ j s, (σ.cell .slot j).ownedBy t → (σ.cell .slot j).seen (some t) = some s →
      BookingSlot.bookingRequestId s = i) {d : View}
    (hremaining : (liveSlots d i).filter (fun s ↦ decide (¬ (σ.cell .slot s.id).ownedBy t)) =
      remaining)
    (h : ∀ σ', (strict → Whole t σ') →
      wp (contract strict) schema t F (Committing (contract strict) t) (k ()) clocked
        (d :: reads) σ') :
    wp (contract strict) schema t F (Committing (contract strict) t)
      (updateRequestById i (cancelledRequest remaining) >>= k) clocked (d :: reads) σ := by
  refine wp_updateRequests hF fun σ₀ h₀ σ₁ h₁ hσ₁ ↦ ?_
  have hrely := h₀.trans h₁
  have hown := fun τ j ↦ not_congr (hrely.ownedBy_iff τ j)
  obtain ⟨r₀, hr₀, hset₀⟩ := hset
  obtain ⟨r₁, hr₁, hf₁⟩ := request_seen_rely hrely hr₀
  have hset₁ := hset₀.moves hf₁.moves
  have hid := fun {k r} ↦ (hσ₁.integrity.view (some t)).request_id (i := k) (r := r)
  refine ⟨fun k r r' hr hr' ↦ ?_, fun rows σ₂ hu hσ₂ hfresh ↦
    wp_refuse (refused hF (by simp)) fun hrows ↦ h σ₂ fun hs ↦ ?_⟩
  · split at hr'
    · next hri =>
      obtain rfl := Option.some.inj hr'
      obtain rfl : k = i := (hid hr).symm.trans hri
      obtain rfl := Option.some.inj (hr.symm.trans hr₁)
      exact cancelledRequest_follows hset₁
    · cases hr'
  · refine whole_of_cancelledRequest hσ₁.integrity hu hrows (fun k ↦ (hown _ k).2 (hreq k))
      (fun j s ho hs' ↦ ?_) fun r hr hnc ↦ ?_
    · have ho' := (hrely.ownedBy_iff _ _).1 ho
      rw [hrely.cell_of_ownedBy ho'] at hs'
      exact hslot j s ho' hs'
    · obtain rfl := Option.some.inj (hr.symm.trans hr₁)
      have hri : r.id = i := hid hr
      have := hfresh hs i r hr (hset₁.resolve_right hnc) (by simp [hri]) d reads rfl
      rw [← this, ← hremaining]
      congr 2
      exact List.filter_congr fun s _ ↦ decide_eq_decide.2 (hown Tab.slot s.id).symm

/-- A slot that the transaction has written by its first update is one that the update has
matched. -/
private theorem matched_of_ownedBy {snapshot : View} {ch : BookingSlot → Option BookingSlot}
    {rows : List BookingSlot} {σ' : BookingStore} (hu : SlotsUpdated t snapshot ch rows σ σ')
    (hclean : σ.Clean t) {j : Cuid} (ho : (σ'.cell .slot j).ownedBy t) :
    ∃ s s', (σ.cell .slot j).seen (some t) = some s ∧ ch s = some s' ∧
      (σ'.cell .slot j).seen (some t) = some (refresh (σ.view (some t)) s') := by
  rcases hu.slot j with ⟨s, s', hs, hs', hc⟩ | ⟨_, hc⟩
  · exact ⟨s, s', hs, hs', by rw [hc, Cell.seen_write_self]⟩
  · rw [hc] at ho
    exact absurd ho (hclean Tab.slot j)

/-- If all that the update can match is among `ids` and it has matched as many slots, the
transaction has written those of `ids`. -/
private theorem ownedBy_iff_mem {snapshot : View} {ch : BookingSlot → Option BookingSlot}
    {rows : List BookingSlot} {σ' : BookingStore} (hu : SlotsUpdated t snapshot ch rows σ σ')
    (hclean : σ.Clean t) {ids : List Cuid}
    (hids : ∀ j s s', (σ.cell .slot j).seen (some t) = some s → ch s = some s' → j ∈ ids)
    (hlen : ids.length ≤ rows.length) (j : Cuid) : (σ'.cell .slot j).ownedBy t ↔ j ∈ ids := by
  refine ⟨fun ho ↦ ?_, fun hj ↦ ?_⟩
  · obtain ⟨s, s', hs, hs', -⟩ := matched_of_ownedBy hu hclean ho
    exact hids j s s' hs hs'
  · obtain ⟨keys, hnodup, hcount, hkeys⟩ := hu.keys
    have hsub : keys ⊆ ids := fun j hj ↦ by
      obtain ⟨s, s', hs, hs', -⟩ := hkeys j hj
      exact hids j s s' hs hs'
    have hperm := (List.subperm_of_subset hnodup hsub).perm_of_length_le (hcount ▸ hlen)
    obtain ⟨s, s', -, -, hc⟩ := hkeys j (hperm.symm.subset hj)
    exact ⟨_, by rw [hc]; rfl⟩

/-- Cancelling a slot writes the slot and then its request, and collides with no code. -/
theorem safe_cancelApprovedSlotTx (idOrCode : JsString) (slotId requester : Cuid)
    (now cutoff : ℤ) :
    SafeTx strict Uncollided (cancelApprovedSlotTx idOrCode slotId requester now cutoff) := by
  intro t σ hσ hclean
  have hF : ∀ f, Uncollided f → Uncollided f := fun f hf ↦ hf
  refine wp_query.2 fun σ₁ h₁ hσ₁ ↦ wp_require (refused hF (by simp)) fun booking hbooking ↦
    wp_refuse (refused hF (by simp)) fun hst ↦ ?_
  refine wp_query.2 fun σ₂ h₂ hσ₂ ↦ wp_require (refused hF (by simp)) fun slot hslot ↦
    wp_refuse (refused hF (by simp)) fun _ ↦ wp_refuse (refused hF (by simp)) fun _ ↦ ?_
  have hσ₁ : Standing strict σ₁ := hσ₁
  have hσ₂ : Standing strict σ₂ := hσ₂
  -- the booking was seen approved, and the slot as one of its own
  have hbooking₁ : (σ₁.cell .request booking.id).seen (some t) = some booking := by
    have hmem : booking ∈ (σ₁.view (some t)).all Tab.request := List.mem_of_find?_eq_some hbooking
    obtain ⟨i, hi⟩ := Db.mem_all.1 hmem
    have := (hσ₁.integrity.view (some t)).request_id hi
    rw [this]
    exact hi
  rw [ne_eq, not_not] at hst
  obtain ⟨hslot₂, hparent⟩ : (σ₂.cell .slot slotId).seen (some t) = some slot ∧
      slot.bookingRequestId = booking.id := by
    obtain ⟨hs, hp⟩ := Option.filter_eq_some_iff.1 hslot
    exact ⟨hs, by simpa using hp⟩
  have hslotId : slot.id = slotId := (hσ₂.integrity.view (some t)).slot_id hslot₂
  -- The update writes a cancelled slot that follows the one it has found.
  have hcancel := fun c ↦ follows_of_cancellation
    (P := fun s ↦ s.id = slot.id ∧ s.isCancelled = false) (f := cancellation now requester c)
    fun _ ↦ ⟨⟨rfl, rfl, rfl, rfl, rfl, fun _ ↦ rfl⟩, rfl⟩
  refine wp_updateSlots hF fun σ₃ h₃ σ₄ h₄ hσ₄ ↦ ?_
  obtain ⟨r₄, hr₄, hf₄⟩ := request_seen_rely ((h₂.trans h₃).trans h₄) hbooking₁
  have hset₄ : r₄.status.Settled := BookingStatus.Settled.moves (Or.inl hst) hf₄.moves
  obtain ⟨s₄, hs₄, hsf₄⟩ := slot_seen_rely (h₃.trans h₄) hslot₂
  -- the only slot that the update can match
  have honly : ∀ j s, (σ₄.cell .slot j).seen (some t) = some s → s.id = slot.id →
      s.bookingRequestId = booking.id := fun j s hs hsid ↦ by
    have hj : j = slotId :=
      ((hσ₄.integrity.view (some t)).slot_id hs).symm.trans (hsid.trans hslotId)
    subst hj
    obtain rfl := Option.some.inj (hs.symm.trans hs₄)
    exact hsf₄.bookingRequestId.trans hparent
  refine ⟨fun j s s' r hs hs' hr ↦ ⟨(hcancel _ s s' hs').1, fun _ ↦ ?_⟩,
    fun rows σ₅ hu hσ₅ ↦ wp_refuse (refused hF (by simp)) fun _ ↦ ?_⟩
  · rw [honly j s hs (hcancel _ s s' hs').2.2.1, hr₄] at hr
    exact Option.some.inj hr ▸ hset₄
  have hrely := ((h₁.trans h₂).trans h₃).trans h₄
  have hclean₄ : σ₄.Clean t := fun τ j ho ↦ hclean τ j ((hrely.ownedBy_iff τ j).1 ho)
  -- what `t` has written by now
  have hwritten : ∀ j s, (σ₅.cell .slot j).ownedBy t → (σ₅.cell .slot j).seen (some t) = some s →
      s.bookingRequestId = booking.id ∧ s.isCancelled = true := fun j s ho hs ↦ by
    obtain ⟨s₀, s', hs₀, hs', hseen⟩ := matched_of_ownedBy hu hclean₄ ho
    obtain rfl := Option.some.inj (hseen.symm.trans hs)
    obtain ⟨hf, hcan, hsid, _⟩ := hcancel _ s₀ s' hs'
    exact ⟨hf.bookingRequestId.trans (honly j s₀ hs₀ hsid), hcan⟩
  refine wp_query.2 fun σ₆ h₆ hσ₆ ↦ ?_
  have hσ₆ : Standing strict σ₆ := hσ₆
  have hwritten₆ : ∀ j s, (σ₆.cell .slot j).ownedBy t → (σ₆.cell .slot j).seen (some t) = some s →
      s.bookingRequestId = booking.id ∧ s.isCancelled = true := fun j s ho hs ↦ by
    have ho' := (h₆.ownedBy_iff _ _).1 ho
    rw [h₆.cell_of_ownedBy ho'] at hs
    exact hwritten j s ho' hs
  refine wp_cancelParent hF ?_ (fun k ho ↦ ?_) (fun j s ho hs ↦ (hwritten₆ j s ho hs).1) ?_
    fun σ' hw ↦ wp_done rfl hw
  · have hr₅ : (σ₅.cell .request booking.id).seen (some t) = some r₄ := by
      rw [hu.request]
      exact hr₄
    obtain ⟨r₆, hr₆, hf₆⟩ := request_seen_rely h₆ hr₅
    exact ⟨r₆, hr₆, hset₄.moves hf₆.moves⟩
  · have ho' := (h₆.ownedBy_iff _ _).1 ho
    rw [hu.request] at ho'
    exact hclean₄ _ k ho'
  · -- the query came after the update: a slot that `t` has cancelled is not live in it
    refine List.filter_eq_self.2 fun s hs ↦ decide_eq_true fun ho ↦ ?_
    obtain ⟨⟨j, hj⟩, _, hlive⟩ := mem_liveSlots.1 hs
    have hsj : s.id = j := (hσ₆.integrity.view (some t)).slot_id hj
    rw [hsj] at ho
    rw [(hwritten₆ j s ho hj).2] at hlive
    cases hlive

/-- The slots to cancel are slots of the request. -/
private theorem cancelTargets_subset {all targets : List BookingSlot}
    {slotIds : Option (List Cuid)} (h : cancelTargets all slotIds = .ok targets)
    {s : BookingSlot} (hs : s ∈ targets) : s ∈ all := by
  unfold cancelTargets at h
  dsimp only at h
  split at h
  · obtain rfl := Except.ok.inj h
    exact (List.mem_filter.1 hs).1
  · split at h
    · cases h
    · obtain rfl := Except.ok.inj h
      exact (List.mem_filter.1 (List.mem_filter.1 hs).1).1

/-- None of the refusals when the slots are chosen is about a code. -/
private theorem cancelTargets_error {all : List BookingSlot} {slotIds : Option (List Cuid)}
    {e : BookingError} (h : cancelTargets all slotIds = .error e) : ¬ e.OfCode := by
  unfold cancelTargets at h
  dsimp only at h
  split at h
  · cases h
  · split at h
    · next hids =>
      obtain rfl := Except.error.inj h
      obtain ⟨slotId, _, hfound⟩ := List.exists_of_findSome?_eq_some hids
      split at hfound
      · obtain rfl := Option.some.inj hfound
        simp
      · split at hfound
        · obtain rfl := Option.some.inj hfound
          simp
        · cases hfound
    · cases h

/-- A cancellation by staff writes slots and then their request, and collides with no code. -/
theorem safe_cancelTx (id : Cuid) (dto : CancelBookingRequestDto) (actor : Actor) :
    SafeTx strict Uncollided (cancelTx id dto actor) := by
  intro t σ hσ hclean
  have hF : ∀ f, Uncollided f → Uncollided f := fun f hf ↦ hf
  -- The status is read again under the venue's lock: what is APPROVED is settled and stays so.
  refine wp_query.2 fun σ₁ h₁ _ ↦ wp_require (refused hF (by simp)) fun booking _ ↦ ?_
  refine wp_acquire.2 <| wp_query.2 fun σ₂ h₂ _ ↦ wp_refuse (refused hF (by simp)) fun hst ↦ ?_
  rw [ne_eq, not_not] at hst
  obtain ⟨r₂, hr₂, hst₂⟩ := Option.map_eq_some_iff.1 hst
  refine wp_query.2 fun σ₃ h₃ hσ₃ ↦ wp_refuse (refused hF (by simp)) fun _ ↦
    wp_ofExcept (fun e he ↦ refused hF (cancelTargets_error he)) fun targets htargets ↦ ?_
  have hσ₃ : Standing strict σ₃ := hσ₃
  -- the targets were seen as slots of the booking
  have htarget : ∀ s ∈ targets, (σ₃.cell .slot s.id).seen (some t) = some s ∧
      s.bookingRequestId = id := fun s hs ↦ by
    obtain ⟨hall, hp⟩ := List.mem_filter.1 (cancelTargets_subset htargets hs)
    obtain ⟨j, hj⟩ := Db.mem_all.1 hall
    have hsj : s.id = j := (hσ₃.integrity.view (some t)).slot_id hj
    exact ⟨hsj ▸ hj, by simpa using hp⟩
  refine wp_readClock.2 fun σ₄ h₄ _ ↦ ?_
  have hcancel := fun c ↦ follows_of_cancellation
    (P := fun s ↦ s.id ∈ targets.map BookingSlot.id ∧ s.isCancelled = false)
    (f := staffCancellation σ₄.clock actor dto.reason c)
    fun _ ↦ ⟨⟨rfl, rfl, rfl, rfl, rfl, fun _ ↦ rfl⟩, rfl⟩
  refine wp_updateSlots hF fun σ₅ h₅ σ₆ h₆ hσ₆ ↦ ?_
  obtain ⟨r₆, hr₆, hf₆⟩ := request_seen_rely (((h₃.trans h₄).trans h₅).trans h₆) hr₂
  have hset₆ : r₆.status.Settled := BookingStatus.Settled.moves (Or.inl hst₂) hf₆.moves
  -- The slots that the update finds under the targets' ids are still slots of this booking.
  have honly : ∀ j s, (σ₆.cell .slot j).seen (some t) = some s →
      s.id ∈ targets.map BookingSlot.id → s.bookingRequestId = id := fun j s hs hmem ↦ by
    obtain ⟨s₀, hs₀, hid⟩ := List.mem_map.1 hmem
    obtain ⟨hseen, hp⟩ := htarget s₀ hs₀
    have hj : j = s₀.id := ((hσ₆.integrity.view (some t)).slot_id hs).symm.trans hid.symm
    subst hj
    obtain ⟨s₆, hs₆, hf⟩ := slot_seen_rely ((h₄.trans h₅).trans h₆) hseen
    obtain rfl := Option.some.inj (hs.symm.trans hs₆)
    exact hf.bookingRequestId.trans hp
  refine ⟨fun j s s' r hs hs' hr ↦ ⟨(hcancel _ s s' hs').1, fun _ ↦ ?_⟩,
    fun rows σ₇ hu hσ₇ ↦ wp_refuse (refused hF (by simp)) fun hlen ↦ ?_⟩
  · rw [honly j s hs (hcancel _ s s' hs').2.2.1, hr₆] at hr
    exact Option.some.inj hr ▸ hset₆
  have hrely := ((((h₁.trans h₂).trans h₃).trans h₄).trans h₅).trans h₆
  have hclean₆ : σ₆.Clean t := fun τ j ho ↦ hclean τ j ((hrely.ownedBy_iff τ j).1 ho)
  -- the update has matched every target: there are as many rows as targets
  have hwritten : ∀ j, (σ₇.cell .slot j).ownedBy t ↔ j ∈ targets.map BookingSlot.id := by
    refine ownedBy_iff_mem hu hclean₆ (fun j s s' hs hs' ↦ ?_) (by omega)
    rw [← (hσ₆.integrity.view (some t)).slot_id hs]
    exact (hcancel _ s s' hs').2.2.1
  refine wp_cancelParent hF ?_ (fun k ho ↦ ?_) (fun j s ho hs ↦ ?_) ?_ fun σ' hw ↦ wp_done rfl hw
  · refine ⟨r₆, ?_, hset₆⟩
    rw [hu.request]
    exact hr₆
  · rw [hu.request] at ho
    exact hclean₆ _ k ho
  · obtain ⟨s₀, s', hs₀, hs', hseen⟩ := matched_of_ownedBy hu hclean₆ ho
    obtain rfl := Option.some.inj (hseen.symm.trans hs)
    obtain ⟨hf, _, hmem, _⟩ := hcancel _ s₀ s' hs'
    exact hf.bookingRequestId.trans (honly j s₀ hs₀ hmem)
  · -- the slots were read before the update: those that remain are those it has not matched
    simp only [hwritten, liveSlots, List.filter_filter]
    refine List.filter_congr fun s _ ↦ ?_
    cases s.isCancelled <;> simp [and_comm]

/-! ### Approving -/

/-- A loser is a PENDING request other than the winner. -/
theorem mem_findPendingLosers {d : View} {venueId : Cuid} {spans : List SlotSpan}
    {excludeRequestId : Option Cuid} {l : BookingRequest}
    (h : l ∈ findPendingLosers d venueId spans excludeRequestId) :
    (∃ i, d.row .request i = some l) ∧ l.status = .pending ∧
      ∀ x ∈ excludeRequestId, l.id ≠ x := by
  unfold findPendingLosers at h
  split at h
  · cases h
  · rw [List.mem_insertionSort] at h
    obtain ⟨hall, hw⟩ := List.mem_filter.1 h
    simp only [pendingLoserWhere, Bool.and_eq_true, decide_eq_true_eq] at hw
    refine ⟨Db.mem_all.1 hall, hw.1.1.2, fun x hx he ↦ ?_⟩
    obtain rfl := Option.mem_def.1 hx
    simp [he] at hw

/-- The losers that a transaction without writes has found are committed. -/
private theorem losers_known {σ' : BookingStore} (hσ : Standing strict σ) (hclean : σ.Clean t)
    (hgrow : Grows σ σ') {venueId : Cuid} {spans : List SlotSpan}
    {excludeRequestId : Option Cuid} {l : BookingRequest}
    (h : l ∈ findPendingLosers (σ.view (some t)) venueId spans excludeRequestId) :
    ∃ r, (σ'.cell .request l.id).committed = some r := by
  obtain ⟨⟨i, hi⟩, _⟩ := mem_findPendingLosers h
  have hid : l.id = i := (hσ.integrity.view (some t)).request_id hi
  rw [Store.view_row, Cell.seen_of_not_ownedBy (hclean Tab.request i)] at hi
  obtain ⟨r, hr, _⟩ := hgrow.request hi
  exact ⟨r, hid ▸ hr⟩

/-- A decision is done when it is whole and has told the truth about its losers. -/
private theorem wp_decided {reply : Reply} {d : View} {venueId : Cuid} {spans : List SlotSpan}
    {excludeRequestId : Option Cuid} (hd : d ∈ reads)
    (hreply : reply.autoRejected = some
      ((findPendingLosers d venueId spans excludeRequestId).map BookingRequest.autoRejected))
    (hw : strict → Whole t σ)
    (htold :
      Told t ((findPendingLosers d venueId spans excludeRequestId).map BookingRequest.id) σ) :
    wp (contract strict) schema t F (Committing (contract strict) t) (pure reply : Tx Reply)
      clocked reads σ := by
  refine fun σ' hr _ ↦ ⟨whole_rely hr hw, fun l hl ↦ ?_⟩
  obtain rfl := Option.some.inj (hreply.symm.trans hl)
  refine ⟨d, hd, venueId, spans, excludeRequestId, rfl, ?_⟩
  rw [List.map_map]
  exact htold.rely hr

/-- An approval moves its request and the losers, and collides with no code. -/
theorem safe_approveTx (id : Cuid) (actor : Actor) :
    SafeTx strict Uncollided (approveTx id actor) := by
  intro t σ hσ hclean
  have hF : ∀ f, Uncollided f → Uncollided f := fun f hf ↦ hf
  refine wp_query.2 fun σ₁ h₁ _ ↦ wp_require (refused hF (by simp)) fun booking _ ↦ ?_
  refine wp_acquire.2 <| wp_query.2 fun σ₂ h₂ _ ↦ wp_refuse (refused hF (by simp)) fun _ ↦ ?_
  refine wp_query.2 fun σ₃ h₃ _ ↦ wp_refuse (refused hF (by simp)) fun _ ↦ ?_
  refine wp_assertNoApprovedClash hF fun σ₄ h₄ _ ↦ ?_
  refine wp_query.2 fun σ₅ h₅ hσ₅ ↦ wp_readClock.2 fun σ₆ h₆ _ ↦ ?_
  have hσ₅ : Standing strict σ₅ := hσ₅
  have hch := fun c ↦ follows_of_pending
    (P := fun r ↦ r.id = id ∧ r.status = .pending)
    (f := fun r ↦ { r with
      status := .approved, approvedById := some actor.id, approvedAt := some σ₆.clock,
      updatedAt := c })
    (fun _ ↦ ⟨rfl, rfl, rfl, rfl, rfl, rfl⟩) fun _ h ↦ h.2
  refine wp_updateRequests hF fun σ₇ h₇ σ₈ h₈ hσ₈ ↦
    ⟨fun i r r' _ hr' ↦ (hch _ _ _ hr').1, fun rows σ₉ hu hσ₉ _ ↦
      wp_refuse (refused hF (by simp)) fun _ ↦ ?_⟩
  have hrely₅ := (((h₁.trans h₂).trans h₃).trans h₄).trans h₅
  have hrely₈ := (h₆.trans h₇).trans h₈
  have hclean₅ : σ₅.Clean t := fun τ j ho ↦ hclean τ j ((hrely₅.ownedBy_iff τ j).1 ho)
  have hclean₈ : σ₈.Clean t := fun τ j ho ↦ hclean₅ τ j ((hrely₈.ownedBy_iff τ j).1 ho)
  have hw : strict → Whole t σ₉ := fun hs ↦
    (Whole.of_clean hclean₈).requestsUpdated hσ₈.integrity (hσ₈.spans hs) hu
      fun i r r' _ hr' ↦ (hch _ _ _ hr').2.1
  -- `t` has written one request, the one it approves
  have hown : ∀ i, (σ₉.cell .request i).ownedBy t → i = id ∧
      ∀ r, (σ₉.cell .request i).seen (some t) = some r →
        BookingRequest.status r = .approved := fun i ho ↦ by
    rcases hu.request i with ⟨q, q', hq, hq', hc⟩ | ⟨_, hc⟩
    · obtain ⟨_, _, ⟨hid, _⟩, rfl⟩ := hch _ _ _ hq'
      refine ⟨((hσ₈.integrity.view (some t)).request_id hq).symm.trans hid, fun r hr ↦ ?_⟩
      rw [hc, Cell.seen_write_self] at hr
      exact Option.some.inj hr ▸ rfl
    · rw [hc] at ho
      exact absurd ho (hclean₈ Tab.request i)
  have hgrow : Grows σ₅ σ₉ := (grows hrely₈).trans (.of_committed hu.workBy.committed)
  refine wp_rejectLosers hF hσ₉ hw (fun l hl ↦ losers_known hσ₅ hclean₅ hgrow hl)
    (fun l hl ho ↦ (mem_findPendingLosers hl).2.2 id rfl (hown _ ho).1)
    (fun i r ho hr ↦ by rw [(hown i ho).2 r hr]; simp) fun σ₁₀ _ hw₁₀ htold ↦ ?_
  exact wp_decided List.mem_cons_self rfl hw₁₀ htold

/-! ### Creating -/

/-- Slots that cannot be read are refused for their dates. -/
private theorem slotSpans_error {slots : List ParsedSpan} {e : BookingError}
    (h : slotSpans slots = .error e) : e = .invalidDate := by
  unfold slotSpans at h
  split at h
  · cases h
  · exact (Except.error.inj h).symm

/-- An insert collides only with a code that is in use. -/
theorem safe_insertOnce (venueId lineUserId : Cuid) (dto : CreateLineBookingDto)
    (slots : List ParsedSpan) :
    SafeTx strict Collides
      (insertOnce venueId lineUserId dto slots) := by
  intro t σ hσ hclean
  have hF : ∀ f, Uncollided f → Collides f := fun f hf he ↦ absurd he hf
  refine wp_ofExcept (fun e he ↦ refused hF (by rw [slotSpans_error he]; simp)) fun spans _ ↦ ?_
  refine wp_assertNoApprovedClash hF fun σ₁ h₁ _ ↦ wp_readClock.2 fun σ₂ h₂ hσ₂ σ₃ h₃ _ ↦ ?_
  refine wp_require (refused hF (by simp)) fun bounds hbounds ↦ ?_
  have hrely := (h₁.trans h₂).trans h₃
  have hclean₃ : σ₃.Clean t := fun τ j ho ↦ hclean τ j ((hrely.ownedBy_iff τ j).1 ho)
  refine wp_createRequest (fun _ _ ↦ ⟨rfl, rfl, rfl⟩) hσ₂ h₃ (.refl _ _ σ₃) hclean₃
    (fun f he hf _ ↦ ⟨he, hf⟩) fun σ₄ _ _ hσ₅ hd ↦ ?_
  refine wp_createSlots hF hσ₅ hd fun slots σ₆ _ _ hd₆ ↦ wp_done rfl fun _ ↦ hd₆.whole ?_
  rw [List.nil_append, hbounds]

/-- The checks of the input change nothing. -/
private theorem wp_checkInput {β : Type} {input : Option β} {q : β → Ask}
    {yes : ∀ a, Ans (q a) → Bool} {e : BookingError} {k : Unit → Tx Reply}
    (hF : ∀ f, Uncollided f → F f) (he : ¬ e.OfCode)
    (h : wp (contract strict) schema t F (Committing (contract strict) t) (k ()) clocked reads σ) :
    wp (contract strict) schema t F (Committing (contract strict) t)
      (checkInput input q yes e >>= k) clocked reads σ := by
  cases input with
  | none => exact h
  | some a => exact fun answer ↦ wp_refuse (refused hF he) fun _ ↦ h

/-- So does a direct booking. -/
theorem safe_createDirectOnce (dto : CreateDirectBookingDto) (slots : List ParsedSpan)
    (actor : Actor) :
    SafeTx strict Collides
      (createDirectOnce dto slots actor) := by
  intro t σ hσ hclean
  have hF : ∀ f, Uncollided f → Collides f := fun f hf he ↦ absurd he hf
  refine wp_acquire.2 <| wp_inquire.2 fun venue ↦ wp_require (refused hF (by simp)) fun p _ ↦ ?_
  refine wp_checkInput hF (by simp) <| wp_checkInput hF (by simp) ?_
  refine wp_ofExcept (fun e he ↦ refused hF (by rw [slotSpans_error he]; simp)) fun spans _ ↦ ?_
  refine wp_assertNoApprovedClash hF fun σ₁ h₁ _ ↦ wp_query.2 fun σ₂ h₂ hσ₂ ↦ ?_
  refine wp_readClock.2 fun σ₃ h₃ hσ₃ σ₄ h₄ _ ↦ ?_
  refine wp_require (refused hF (by simp)) fun bounds hbounds ↦ ?_
  have hσ₂ : Standing strict σ₂ := hσ₂
  have hrely := h₁.trans h₂
  have hclean₂ : σ₂.Clean t := fun τ j ho ↦ hclean τ j ((hrely.ownedBy_iff τ j).1 ho)
  have hclean₄ : σ₄.Clean t := fun τ j ho ↦ hclean₂ τ j (((h₃.trans h₄).ownedBy_iff τ j).1 ho)
  refine wp_createRequest (fun _ _ ↦ ⟨rfl, rfl, rfl⟩) hσ₃ h₄ (.refl _ _ σ₄) hclean₄
    (fun f he hf _ ↦ ⟨he, hf⟩) fun σ₅ h₅ _ hσ₆ hd ↦ ?_
  refine wp_createSlots hF hσ₆ hd fun slots σ₇ hσ₇ hgrow hd₇ ↦ ?_
  have hgrow₇ : Grows σ₂ σ₇ := ((grows ((h₃.trans h₄).trans h₅)).trans
    (.of_committed (Store.workBy_add (t := t)).committed)).trans hgrow
  have hknown := fun l (hl : l ∈ findPendingLosers (σ₂.view (some t)) p.1 spans none) ↦
    losers_known hσ₂ hclean₂ hgrow₇ hl
  refine wp_rejectLosers hF hσ₇ (fun _ ↦ hd₇.whole ?_) hknown (fun l hl ho ↦ ?_)
    (fun i r ho hr ↦ ?_) fun σ₈ _ hw₈ htold ↦ ?_
  · rw [List.nil_append, hbounds]
  · -- the new booking is not committed, and the losers are
    obtain ⟨r, hr⟩ := hknown l hl
    rw [hd₇.requests ho, hd₇.cell] at hr
    cases hr
  · obtain rfl := hd₇.requests ho
    rw [Cell.seen_of_dirty (by rw [hd₇.cell])] at hr
    obtain rfl := Option.some.inj hr
    simp
  · exact wp_decided (List.mem_cons_of_mem _ List.mem_cons_self) rfl hw₈ htold

end Transactions

/-! ### The calls -/

/-- Input that is refused is refused for what is in it. -/
private theorem not_ofCode_of_parseSlots {now : ℤ} {input : List BookingSlotInput}
    {e : BookingError} (h : parseSlots now input = .error e) : ¬ e.OfCode := by
  have hslot : ∀ s e, parseSlot now s = .error e → ¬ e.OfCode := fun s e h ↦ by
    unfold parseSlot at h
    split at h
    · obtain rfl := Except.error.inj h
      exact id
    · split at h
      · obtain rfl := Except.error.inj h
        exact id
      · cases h
  have hmap : ∀ (l : List BookingSlotInput) e, l.mapM (parseSlot now) = .error e →
      ¬ e.OfCode := by
    intro l
    induction l with
    | nil => exact fun e h ↦ by cases h
    | cons s l ih =>
      intro e h
      rw [List.mapM_cons] at h
      rcases hs : parseSlot now s with e' | a
      · rw [hs] at h
        obtain rfl := Except.error.inj h
        exact hslot s _ hs
      · rw [hs] at h
        rcases hl : l.mapM (parseSlot now) with e' | as
        · rw [hl] at h
          obtain rfl := Except.error.inj h
          exact ih _ hl
        · rw [hl] at h
          cases h
  unfold parseSlots at h
  rcases hm : input.mapM (parseSlot now) with e' | slots
  · rw [hm] at h
    obtain rfl := Except.error.inj h
    exact hmap input _ hm
  · rw [hm] at h
    change (if _ then Except.error _ else Except.ok _ : Except BookingError _) = _ at h
    split at h
    · obtain rfl := Except.error.inj h
      exact id
    · cases h

/-- Every call keeps the contract. -/
theorem safe_service (strict : Prop) (op : Op) (t : ℕ) :
    SafeCall strict t [] (service op) := by
  have hplain : ∀ {p : Tx Reply}, SafeTx strict Uncollided p →
      SafeCall strict t [] (.attempt p .done) := fun hp ↦
    safe_attempt hp (fun r ↦ ⟨r, rfl⟩) fun e he ↦ ⟨e, rfl, he⟩
  cases op with
  | createFromLine lineSub dto =>
    refine safe_resolveAllowedRequester fun requester now ↦ ?_
    dsimp only
    split
    · next e he => exact warranted_error (not_ofCode_of_parseSlots he)
    · intro venue
      rcases venue with - | ⟨venueId, _ | _⟩
      · exact warranted_error id
      · exact warranted_error id
      · exact safe_retryOnCollision (fun _ ↦ Iff.rfl) rfl (safe_insertOnce _ _ _ _) rfl
          fun _ h ↦ absurd h List.not_mem_nil
  | cancelPendingBooking lineSub idOrCode =>
    exact safe_resolveAllowedRequester fun requester now ↦
      hplain (safe_cancelPendingBookingTx _ _ _)
  | cancelApprovedSlot lineSub idOrCode slotId =>
    exact safe_resolveAllowedRequester fun requester value now ↦
      hplain (safe_cancelApprovedSlotTx _ _ _ _ _)
  | approve id actor => exact safe_decision (safe_approveTx _ _)
  | reject id reason => exact hplain (safe_rejectTx _ _)
  | cancel id dto actor => exact safe_decision (safe_cancelTx _ _ _)
  | createDirect dto actor =>
    change SafeCall strict t [] (createDirect dto actor)
    unfold createDirect
    split
    · exact warranted_error id
    · intro now
      dsimp only
      split
      · next e he => exact warranted_error (not_ofCode_of_parseSlots he)
      · exact safe_retryOnCollision (fun _ ↦ runDecision_ofCode) rfl
          (safe_createDirectOnce _ _ _) rfl fun _ h ↦ absurd h List.not_mem_nil
  | expireOverdue =>
    refine fun now ↦ safe_attempt_of_wp Uncollided (safe_expireOverdueTx now t)
      (fun _ _ ↦ warranted_ok _) fun f hf ↦ ⟨fun he ↦ ?_, warranted_ok _⟩
    exact absurd (he ▸ trivial) (hf.elim id not_ofCode_of_loses)

/-- Without `strict` every step is granted. -/
theorem granted_contract_false (w : BookingWorld) (e : BookingEvent) :
    Granted (contract False).grant w e := by
  unfold Granted
  split
  · split
    · split
      · exact False.elim
      · trivial
    · trivial
  · trivial

/-- **Every reachable world is healthy**: of every run without `strict`, and with it of the runs
whose cancellations work on fresh reads. -/
theorem healthy (strict : Prop) {w : BookingWorld}
    (hw : bookings.Reach (Granted (contract strict).grant) w) :
    Healthy bookings (contract strict) Warranted w :=
  adequate Standing.init (fun _ t op _ ↦ safe_service strict op t) (fun _ _ h ↦ h)
    (fun w e _ ↦ accepted_true w e) (fun _ _ _ _ _ ↦ relyOn_true _ _ _) hw

end EasyBook

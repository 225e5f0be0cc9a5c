import EasyBook.Bookings.Statements
import EasyBook.Bookings.System
import EasyBook.ReadCommitted.Frame

/-!
# The time of an approval

Who approves a request writes the time of it in the same statement, and nobody takes it back: an
approved request has its `approvedAt`, in every version that anybody sees
(`approvedAt_of_approved`). It can be read off the statements of the eight writers one by one.
-/

namespace EasyBook

open ReadCommitted ReadCommitted.Prog

/-- An approved request has the time of its approval. -/
def BookingRequest.Stamped (r : BookingRequest) : Prop :=
  r.status = .approved → r.approvedAt ≠ none

/-! ### The statements -/

/-- A statement leaves a stamped request stamped. -/
def keepsStamp : ∀ τ, Row τ → Option (Row τ) → Prop
  | .request, r, x => ∃ r', x = some r' ∧ (BookingRequest.Stamped r → BookingRequest.Stamped r')
  | .slot, _, _ => True

/-- A request is stamped when it is inserted. -/
def bornStamped : ∀ τ, ℕ → Row τ → Prop
  | .request, _, r => BookingRequest.Stamped r
  | .slot, _, _ => True

/-- The statements of a transaction keep requests stamped. -/
abbrev Tx.Stamps {α : Type} (p : Tx α) : Prop := p.Obeys keepsStamp bornStamped

/-- So do those of a call. -/
abbrev Call.Stamps (s : Call) : Prop := s.Obeys keepsStamp bornStamped

/-- An update of requests keeps the stamp when each of its values does. -/
theorem stamps_updateRequests {ch : ℤ → BookingRequest → Option BookingRequest}
    (h : ∀ c r r', ch c r = some r' → r.Stamped → r'.Stamped) :
    Tx.Stamps (updateRequests ch) :=
  obeys_update fun c r r' hr ↦ ⟨r', rfl, h c r r' hr⟩

/-- Slots carry no stamp. -/
theorem stamps_updateSlots (ch : ℤ → BookingSlot → Option BookingSlot) :
    Tx.Stamps (updateSlots ch) :=
  obeys_update fun _ _ _ _ ↦ trivial

/-- A status that is not `APPROVED` needs no stamp. -/
theorem stamped_of_ne {r : BookingRequest} (h : r.status ≠ .approved) : r.Stamped :=
  fun ha ↦ absurd ha h

/-- A request with a time of approval is stamped, whatever its status. -/
theorem stamped_of_some {r : BookingRequest} {t : ℤ} (h : r.approvedAt = some t) : r.Stamped :=
  fun _ hnone ↦ nomatch h.symm.trans hnone

/-- A conditional update to a status that is not `APPROVED`. -/
theorem stamps_decided {p : BookingRequest → Prop} [DecidablePred p]
    {set : ℤ → BookingRequest → BookingRequest} (h : ∀ c r, (set c r).status ≠ .approved) :
    Tx.Stamps (updateRequests fun c r ↦ if p r then some (set c r) else none) := by
  refine stamps_updateRequests fun c r r' hr _ ↦ ?_
  split at hr
  · obtain rfl := Option.some.inj hr
    exact stamped_of_ne (h c r)
  · cases hr

/-- Slots carry no stamp, however many are inserted. -/
theorem stamps_createSlots (row : BookingRequest) (spans : List SlotSpan) :
    Tx.Stamps (createSlots row spans) := by
  induction spans with
  | nil => trivial
  | cons m spans ih =>
    exact Obeys.bind (obeys_create fun _ _ ↦ trivial) fun _ ↦ Obeys.bind ih fun _ ↦ trivial

/-- The look for a clash only reads. -/
theorem stamps_assertNoApprovedClash (venueId : Cuid) (spans : List SlotSpan)
    (excludeRequestId : Option Cuid) :
    Tx.Stamps (assertNoApprovedClash venueId spans excludeRequestId) :=
  Obeys.bind (obeys_query _) fun _ ↦ obeys_refuse _ _

/-- A loser is REJECTED, and a status that is not APPROVED asks for no stamp. -/
theorem stamps_rejectLosers (losers : List BookingRequest) : Tx.Stamps (rejectLosers losers) := by
  unfold rejectLosers
  split
  · trivial
  · exact Obeys.bind (stamps_decided fun _ _ h ↦ nomatch h) fun _ ↦ trivial

/-- Every attempt of the retry is the same program. -/
theorem stamps_retryOnCollision {f : BookingError → BookingError} {p : Tx Reply}
    (hp : Tx.Stamps p) (n : ℕ) : Call.Stamps (retryOnCollision f p n) := by
  induction n with
  | zero => trivial
  | succ n ih =>
    refine ⟨hp, fun r ↦ ?_⟩
    cases r with
    | ok reply => trivial
    | error e =>
      show Call.Stamps (if _ then _ else _)
      split
      · intro target
        dsimp only
        split
        · trivial
        · split
          · trivial
          · exact ih
      · trivial

/-- The look-up of the requester only reads. -/
theorem stamps_resolveAllowedRequester {lineSub : JsString} {k : Cuid → Call}
    (h : ∀ id, Call.Stamps (k id)) : Call.Stamps (resolveAllowedRequester lineSub k) := by
  intro user
  match user with
  | some (id, .allowed) => exact h id
  | some (_, .unregistered) | some (_, .pending) | some (_, .rejected) | some (_, .blocked)
  | none => trivial

/-- The update of one request, found or not. -/
theorem stamps_updateRequestById {id : Cuid} {data : ℤ → BookingRequest → BookingRequest}
    (h : ∀ c r, r.Stamped → (data c r).Stamped) : Tx.Stamps (updateRequestById id data) := by
  refine Obeys.bind (stamps_updateRequests fun c r r' hr ↦ ?_) fun _ ↦ obeys_refuse _ _
  split at hr
  · obtain rfl := Option.some.inj hr
    exact h c r
  · cases hr

/-- A cancellation moves the span, or cancels. -/
theorem stamped_cancelledRequest (remaining : List BookingSlot) (c : ℤ) (r : BookingRequest)
    (h : r.Stamped) : (cancelledRequest remaining c r).Stamped := by
  unfold cancelledRequest
  split
  · exact h
  · exact stamped_of_ne fun h ↦ nomatch h

/-! ### The writers -/

/-- A request sent through LINE is born PENDING. -/
theorem stamps_insertOnce (venueId lineUserId : Cuid) (dto : CreateLineBookingDto)
    (slots : List ParsedSpan) : Tx.Stamps (insertOnce venueId lineUserId dto slots) :=
  .ofExcept fun _ _ ↦ Obeys.bind (stamps_assertNoApprovedClash _ _ _) fun _ ↦
    .readClock fun _ ↦ fun _ ↦ .require fun _ _ ↦
    Obeys.bind (obeys_create fun _ _ ↦ stamped_of_ne fun h ↦ nomatch h) fun _ ↦
    Obeys.bind (stamps_createSlots _ _) fun _ ↦ trivial

/-- `createFromLine` writes nothing but that insert. -/
theorem stamps_createFromLine (lineSub : JsString) (dto : CreateLineBookingDto) :
    Call.Stamps (createFromLine lineSub dto) := by
  refine stamps_resolveAllowedRequester fun requester now ↦ ?_
  dsimp only
  split
  · trivial
  · intro venue
    match venue with
    | none => trivial
    | some (_, false) => trivial
    | some (venueId, true) => exact stamps_retryOnCollision (stamps_insertOnce _ _ _ _) _

/-- A PENDING request that is cancelled was never approved. -/
theorem stamps_cancelPendingBooking (lineSub idOrCode : JsString) :
    Call.Stamps (cancelPendingBooking lineSub idOrCode) := by
  refine stamps_resolveAllowedRequester fun requester now ↦ ⟨?_, fun _ ↦ trivial⟩
  exact .query fun _ ↦ .require fun booking _ ↦ .refuse fun _ ↦
    Obeys.bind (stamps_decided fun _ _ h ↦ nomatch h) fun _ ↦ .refuse fun _ ↦
    Obeys.bind (stamps_updateSlots _) fun _ ↦ trivial

/-- Cancelling a slot leaves its request APPROVED with the stamp it has, or makes it CANCELLED. -/
theorem stamps_cancelApprovedSlot (lineSub idOrCode : JsString) (slotId : Cuid) :
    Call.Stamps (cancelApprovedSlot lineSub idOrCode slotId) := by
  refine stamps_resolveAllowedRequester fun requester value now ↦ ⟨?_, fun _ ↦ trivial⟩
  exact .query fun _ ↦ .require fun booking _ ↦ .refuse fun _ ↦ .query fun _ ↦
    .require fun slot _ ↦ .refuse fun _ ↦ .refuse fun _ ↦
    Obeys.bind (stamps_updateSlots _) fun _ ↦ .refuse fun _ ↦ .query fun _ ↦
    Obeys.bind (stamps_updateRequestById (stamped_cancelledRequest _)) fun _ ↦ trivial

/-- The approval is the one write that turns a request APPROVED, and it sets `approvedAt` in the
same statement. -/
theorem stamps_approve (id : Cuid) (actor : Actor) : Call.Stamps (approve id actor) := by
  refine ⟨.query fun _ ↦ .require fun _ _ ↦ .query fun _ ↦ .refuse fun _ ↦
    .query fun _ ↦ .refuse fun _ ↦ Obeys.bind (stamps_assertNoApprovedClash _ _ _) fun _ ↦
    .query fun _ ↦ .readClock fun approvedAt ↦
    Obeys.bind (stamps_updateRequests fun c r r' hr _ ↦ ?_) fun _ ↦ .refuse fun _ ↦
    Obeys.bind (stamps_rejectLosers _) fun _ ↦ trivial, fun _ ↦ trivial⟩
  split at hr
  · obtain rfl := Option.some.inj hr
    exact stamped_of_some rfl
  · cases hr

/-- A rejected request asks for no stamp. -/
theorem stamps_reject (id : Cuid) (reason : JsString) : Call.Stamps (reject id reason) :=
  ⟨.query fun _ ↦ .require fun _ _ ↦ .refuse fun _ ↦
    Obeys.bind (stamps_decided fun _ _ h ↦ nomatch h) fun _ ↦ .refuse fun _ ↦ trivial,
    fun _ ↦ trivial⟩

/-- A cancellation by staff keeps the stamp of the request it cancels. -/
theorem stamps_cancel (id : Cuid) (dto : CancelBookingRequestDto) (actor : Actor) :
    Call.Stamps (cancel id dto actor) :=
  ⟨.query fun _ ↦ .require fun _ _ ↦ .query fun _ ↦ .refuse fun _ ↦ .query fun _ ↦
    .refuse fun _ ↦ .ofExcept fun _ _ ↦ .readClock fun _ ↦
    Obeys.bind (stamps_updateSlots _) fun _ ↦ .refuse fun _ ↦
    Obeys.bind (stamps_updateRequestById (stamped_cancelledRequest _)) fun _ ↦ trivial,
    fun _ ↦ trivial⟩

/-- The checks of the input only ask. -/
theorem stamps_checkInput {α : Type} (input : Option α) (q : α → Ask)
    (yes : ∀ a, Ans (q a) → Bool) (e : BookingError) : Tx.Stamps (checkInput input q yes e) := by
  cases input with
  | none => trivial
  | some a => exact fun answer ↦ obeys_refuse _ _

/-- A direct booking is born APPROVED, with `approvedAt` in the insert. -/
theorem stamps_createDirectOnce (dto : CreateDirectBookingDto) (slots : List ParsedSpan)
    (actor : Actor) : Tx.Stamps (createDirectOnce dto slots actor) :=
  fun _ ↦ .require fun _ _ ↦ Obeys.bind (stamps_checkInput _ _ _ _) fun _ ↦
    Obeys.bind (stamps_checkInput _ _ _ _) fun _ ↦ .ofExcept fun _ _ ↦
    Obeys.bind (stamps_assertNoApprovedClash _ _ _) fun _ ↦ .query fun _ ↦
    .readClock fun _ ↦ fun _ ↦ .require fun _ _ ↦
    Obeys.bind (obeys_create fun _ _ ↦ stamped_of_some rfl) fun _ ↦
    Obeys.bind (stamps_createSlots _ _) fun _ ↦ Obeys.bind (stamps_rejectLosers _) fun _ ↦ trivial

/-- `createDirect` writes nothing but that insert and the rejection of the losers. -/
theorem stamps_createDirect (dto : CreateDirectBookingDto) (actor : Actor) :
    Call.Stamps (createDirect dto actor) := by
  unfold createDirect
  split
  · trivial
  · intro now
    dsimp only
    split
    · trivial
    · exact stamps_retryOnCollision (stamps_createDirectOnce _ _ _) _

/-- An overdue request is EXPIRED, which asks for no stamp. -/
theorem stamps_expireOverdue : Call.Stamps expireOverdue := by
  refine fun now ↦ ⟨Obeys.bind (stamps_decided fun _ _ h ↦ nomatch h) fun _ ↦ trivial, fun r ↦ ?_⟩
  cases r <;> trivial

/-- Each of the eight writers keeps the stamps. -/
theorem service_stamps (op : Op) : Call.Stamps (service op) := by
  cases op with
  | createFromLine lineSub dto => exact stamps_createFromLine lineSub dto
  | cancelPendingBooking lineSub idOrCode => exact stamps_cancelPendingBooking lineSub idOrCode
  | cancelApprovedSlot lineSub idOrCode slotId =>
    exact stamps_cancelApprovedSlot lineSub idOrCode slotId
  | approve id actor => exact stamps_approve id actor
  | reject id reason => exact stamps_reject id reason
  | cancel id dto actor => exact stamps_cancel id dto actor
  | createDirect dto actor => exact stamps_createDirect dto actor
  | expireOverdue => exact stamps_expireOverdue

/-! ### The tables -/

/-- Every version of a request is stamped. -/
def AllStamped (σ : BookingStore) : Prop :=
  ∀ v i r, (σ.cell .request i).seen v = some r → BookingRequest.Stamped r

namespace AllStamped

variable {σ σ' : BookingStore} {t : ℕ}

/-- If `t` worked, only what `t` sees has to be looked at. -/
theorem of_work (h : AllStamped σ) (hw : Store.WorkBy t σ σ')
    (hown : ∀ i r, (σ'.cell .request i).seen (some t) = some r → BookingRequest.Stamped r) :
    AllStamped σ' := by
  intro v i r hr
  by_cases hv : v = some t
  · subst hv
    exact hown i r hr
  · exact h v i r ((hw.seen hv .request i).symm.trans hr)

/-- A commit makes visible what was stamped when it was written. -/
theorem commit (h : AllStamped σ) (t : ℕ) : AllStamped (σ.commit t) := by
  intro v i r hr
  rw [Store.commit_cell] at hr
  by_cases ho : (σ.cell .request i).ownedBy t
  · rw [Cell.seen_commit_of_ownedBy ho] at hr
    exact h _ i r hr
  · rw [Cell.seen_commit_of_not_ownedBy ho] at hr
    exact h _ i r hr

/-- After a rollback the rows are those committed before. -/
theorem abort (h : AllStamped σ) (t : ℕ) : AllStamped (σ.abort t) := by
  refine h.of_work Store.workBy_abort fun i r hr ↦ h none i r ?_
  rw [Store.abort_cell, Cell.seen_abort_self] at hr
  exact (Cell.seen_none _).trans hr

/-- The triggers write slots only. -/
theorem cell_fire {τ : Tab} {l : List (ℕ × Row τ × Option (Row τ))}
    (h : σ.fire schema t τ l = .done σ') : σ'.cell .request = σ.cell .request := by
  refine Store.fire_induction (P := fun σ' ↦ σ'.cell .request = σ.cell .request)
    (fun i old new τ' ch _ ha σ₁ σ₂ hr hP ↦ ?_) h rfl
  cases τ with
  | request =>
    obtain ⟨ch', -, he⟩ := Option.map_eq_some_iff.1 ha
    cases he
    exact (hr.cell_of_ne (by decide)).trans hP
  | slot => cases ha

/-- An update of the store keeps the stamps when every value it writes does. -/
theorem modify (h : AllStamped σ) {τ : Tab} {snapshot : View}
    {ch : Row τ → Option (Option (Row τ))} {rows : List (Row τ)}
    (hch : ∀ r x, ch r = some x → keepsStamp τ r x)
    (hm : σ.modify schema t τ snapshot ch = .done (rows, σ')) : AllStamped σ' := by
  obtain ⟨-, σ₁, hrw, hfire⟩ := Store.modify_eq_done hm
  refine h.of_work (hrw.workBy.trans (Store.workBy_fire hfire)) fun i r hr ↦ ?_
  rw [cell_fire hfire] at hr
  cases τ with
  | slot =>
    rw [hrw.cell_of_ne (by decide)] at hr
    exact h _ i r hr
  | request =>
    rw [hrw.eq_put] at hr
    rcases Store.put_cell_cases (σ := σ) (t := t)
      (f := σ.version schema t .request snapshot ch) i with ⟨r₀, x, hr₀, hx, hc⟩ | ⟨-, hc⟩
    · obtain ⟨-, y, hy, rfl⟩ := Store.version_eq_some hx
      obtain ⟨r', rfl, hstamp⟩ := hch r₀ y hy
      rw [hc, Cell.seen_write_self] at hr
      obtain rfl := Option.some.inj hr
      exact hstamp (h _ i r₀ hr₀)
    · rw [hc] at hr
      exact h _ i r hr

/-- An insert keeps the stamps when the row is born with one. -/
theorem insert (h : AllStamped σ) {τ : Tab} {r r' : Row τ} (hr : bornStamped τ σ.next r)
    (hi : σ.insert schema t τ r = .done (r', σ')) : AllStamped σ' := by
  obtain ⟨rfl, rfl, -⟩ := Store.insert_eq_done hi
  refine h.of_work Store.workBy_add fun i q hq ↦ ?_
  cases τ with
  | slot =>
    rw [Store.add_cell_of_ne (by decide)] at hq
    exact h _ i q hq
  | request =>
    by_cases hi : i = σ.next
    · subst hi
      rw [Cell.seen_of_dirty (by rw [Store.add_cell_next])] at hq
      exact Option.some.inj hq ▸ hr
    · rw [Store.add_cell_of_ne_next hi] at hq
      exact h _ i q hq

end AllStamped

/-- The contract of the stamps. -/
def stampContract : Contract Row BookingError Reply where
  inv := AllStamped
  ready _ _ := True
  answers _ _ _ _ := True
  failing _ := True
  grant _ _ _ _ _ := True
  inv_tick h _ := h
  inv_commit h _ := AllStamped.commit h _
  inv_abort h := AllStamped.abort h _

/-- **An approved request has its `approvedAt`**, whatever the interleaving. -/
theorem approvedAt_of_approved {w : BookingWorld} (hw : bookings.Reachable w) {i : Cuid}
    {r : BookingRequest} (hr : w.store.committed.row .request i = some r) : r.Stamped := by
  have htolerates : ∀ t, stampContract.Tolerates schema t keepsStamp bornStamped := fun t ↦
    ⟨fun hch hσ hm _ ↦ AllStamped.modify hσ hch hm, fun hn hσ hi _ ↦ AllStamped.insert hσ hn hi,
      fun _ ↦ trivial, fun _ ↦ trivial, fun _ ↦ trivial⟩
  have hhealthy : Healthy bookings stampContract (fun _ _ ↦ True) w :=
    adequate (fun _ _ _ h ↦ nomatch h)
      (fun _ t op _ ↦ safe_of_obeys (htolerates t) (service_stamps op))
      (fun w e _ ↦ granted_true w e) (fun w e _ ↦ accepted_true w e)
      (fun _ _ _ _ _ ↦ relyOn_true _ _ _) hw
  exact hhealthy.inv none i r hr

end EasyBook

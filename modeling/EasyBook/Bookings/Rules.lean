import EasyBook.Bookings.Contract

/-!
# Proof rules for the statements of the booking core

One rule for each statement that the services send: it hands on what the statement did, keeps the
invariant, and asks for what the statement has to be checked for. The pieces that two services
share, the nested creation of slots and the rejection of losers, have a rule each as well.
-/

namespace EasyBook

open ReadCommitted ReadCommitted.Prog

section Rules

variable {strict : Prop} {F : Failure Row BookingError → Prop} {α : Type}
  {Q : α → Reading Row → List View → BookingStore → Prop} {t : ℕ} {clocked : Reading Row}
  {reads : List View} {σ : BookingStore}

/-- The failures that are not collisions. -/
def Uncollided (f : Failure Row BookingError) : Prop := ¬ f.error.OfCode

theorem wp_updateRequests {ch : ℤ → BookingRequest → Option BookingRequest}
    {k : List BookingRequest → Tx α} (hF : ∀ f, Uncollided f → F f)
    (h : ∀ σ₀, Rely (contract strict) t σ σ₀ → ∀ σ₁, Rely (contract strict) t σ₀ σ₁ →
      Standing strict σ₁ →
      (∀ i r r', (σ₁.cell .request i).seen (some t) = some r → ch σ₀.clock r = some r' →
        r.Follows r') ∧
      ∀ rows σ₂, RequestsUpdated t (σ₀.view (some t)) (ch σ₀.clock) rows σ₁ σ₂ →
        Standing strict σ₂ →
        (strict → FreshRead t reads σ₁ .request fun r ↦ (ch σ₀.clock r).map some) →
        wp (contract strict) schema t F Q (k rows) clocked reads σ₂) :
    wp (contract strict) schema t F Q (updateRequests ch >>= k) clocked reads σ := by
  refine wp_update.2 fun σ₀ h₀ _ σ₁ h₁ hσ₁ ↦ ?_
  have hσ₁ : Standing strict σ₁ := hσ₁
  obtain ⟨hch, hk⟩ := h σ₀ h₀ σ₁ h₁ hσ₁
  refine ⟨fun rows σ₂ hm hg ↦ ?_, fun e he ↦ hF _ (updateRequests_failed hσ₁.compatible
    (fun i r r' hr hr' ↦ (hch i r r' hr hr').code) he)⟩
  have hu := requests_updated hσ₁.integrity (fun i r r' hr hr' ↦ (hch i r r' hr hr').id) hm
  have hσ₂ : Standing strict σ₂ := hσ₁.of_work hu.workBy (hσ₁.compatible.modify hm)
    (hu.integrity hσ₁.integrity hch) (hσ₁.codes.requestsUpdated hu hch)
  exact ⟨hσ₂, hk rows σ₂ hu hσ₂ hg⟩

theorem wp_updateSlots {ch : ℤ → BookingSlot → Option BookingSlot} {k : List BookingSlot → Tx α}
    (hF : ∀ f, Uncollided f → F f)
    (h : ∀ σ₀, Rely (contract strict) t σ σ₀ → ∀ σ₁, Rely (contract strict) t σ₀ σ₁ →
      Standing strict σ₁ →
      (∀ j s s' r, (σ₁.cell .slot j).seen (some t) = some s → ch σ₀.clock s = some s' →
        (σ₁.cell .request s.bookingRequestId).seen (some t) = some r →
        s.Follows s' ∧ (s'.isCancelled = true → r.status.Settled)) ∧
      ∀ rows σ₂, SlotsUpdated t (σ₀.view (some t)) (ch σ₀.clock) rows σ₁ σ₂ →
        Standing strict σ₂ → wp (contract strict) schema t F Q (k rows) clocked reads σ₂) :
    wp (contract strict) schema t F Q (updateSlots ch >>= k) clocked reads σ := by
  refine wp_update.2 fun σ₀ h₀ _ σ₁ h₁ hσ₁ ↦ ?_
  have hσ₁ : Standing strict σ₁ := hσ₁
  obtain ⟨hch, hk⟩ := h σ₀ h₀ σ₁ h₁ hσ₁
  refine ⟨fun rows σ₂ hm _ ↦ ?_, fun e he ↦ hF _ (updateSlots_failed he)⟩
  have hu := slots_updated hm
  have hσ₂ : Standing strict σ₂ := hσ₁.of_work hu.workBy (hσ₁.compatible.modify hm)
    (hu.integrity hσ₁.integrity hch) (hσ₁.codes.of_request_eq hu.workBy hu.request)
  exact ⟨hσ₂, hk rows σ₂ hu hσ₂⟩

theorem wp_assertNoApprovedClash {venueId : Cuid} {spans : List SlotSpan}
    {excludeRequestId : Option Cuid} {k : Unit → Tx α} (hF : ∀ f, Uncollided f → F f)
    (h : ∀ σ₁, Rely (contract strict) t σ σ₁ → Standing strict σ₁ →
      wp (contract strict) schema t F Q (k ()) clocked (σ₁.view (some t) :: reads) σ₁) :
    wp (contract strict) schema t F Q (assertNoApprovedClash venueId spans excludeRequestId >>= k)
      clocked reads σ := by
  intro σ₁ h₁ hσ₁
  exact wp_refuse (fun f hf ↦ hF f (by rw [Uncollided, hf]; simp)) fun _ ↦ h σ₁ h₁ hσ₁

/-! ### A new booking -/

/-- `t` has inserted the request `row`, slots with the spans `done`, and nothing else. -/
structure Drafted (t : ℕ) (row : BookingRequest) (done : List SlotSpan) (σ : BookingStore) :
    Prop where
  cell : σ.cell .request row.id = ⟨none, some (t, some row)⟩
  requests : ∀ {i}, (σ.cell .request i).ownedBy t → i = row.id
  slots : ∀ {j s}, (σ.cell .slot j).ownedBy t → (σ.cell .slot j).seen (some t) = some s →
    BookingSlot.bookingRequestId s = row.id
  spans : ∀ m, m ∈ liveSpans (σ.view (some t)) row.id ↔ m ∈ done

namespace Drafted

variable {row : BookingRequest} {done : List SlotSpan} {σ' : BookingStore}

theorem ownedBy (h : Drafted t row done σ) : (σ.cell .request row.id).ownedBy t :=
  ⟨some row, by rw [h.cell]⟩

/-- The slots of a request that is not committed are those of the transaction that inserted it. -/
theorem slot_ownedBy (hσ : Integrity σ) (h : Drafted t row done σ) {j : ℕ} {s : BookingSlot}
    (hs : (σ.cell .slot j).seen (some t) = some s) (hp : s.bookingRequestId = row.id) :
    (σ.cell .slot j).ownedBy t := by
  by_contra ho
  rw [Cell.seen_of_not_ownedBy ho] at hs
  obtain ⟨r, hr, _⟩ := (hσ.view none).parent (j := j) ((Cell.seen_none _).trans hs)
  rw [Store.view_row, Cell.seen_none, hp, h.cell] at hr
  cases hr

theorem rely (h : Drafted t row done σ) (hσ : Standing strict σ)
    (hr : Rely (contract strict) t σ σ') : Drafted t row done σ' := by
  have hσ' : Standing strict σ' := hr.inv hσ
  have hcell : σ'.cell .request row.id = ⟨none, some (t, some row)⟩ :=
    (hr.cell_of_ownedBy h.ownedBy).trans h.cell
  have hslots : ∀ {j s}, (σ'.cell .slot j).ownedBy t → (σ'.cell .slot j).seen (some t) = some s →
      BookingSlot.bookingRequestId s = row.id := fun {j s} ho hs ↦ by
    have ho' := (hr.ownedBy_iff _ _).1 ho
    rw [hr.cell_of_ownedBy ho'] at hs
    exact h.slots ho' hs
  have h' : Drafted t row (liveSpans (σ'.view (some t)) row.id) σ' :=
    ⟨hcell, fun ho ↦ h.requests ((hr.ownedBy_iff _ _).1 ho), hslots, fun _ ↦ Iff.rfl⟩
  refine ⟨hcell, h'.requests, hslots, fun m ↦ Iff.trans ?_ (h.spans m)⟩
  simp only [mem_liveSpans, Store.view_row]
  refine exists_congr fun j ↦ exists_congr fun s ↦ ⟨fun ⟨hs, hp, hm⟩ ↦ ⟨?_, hp, hm⟩,
    fun ⟨hs, hp, hm⟩ ↦ ⟨?_, hp, hm⟩⟩
  · have ho := (hr.ownedBy_iff _ _).1 (h'.slot_ownedBy hσ'.integrity hs hp)
    rwa [hr.cell_of_ownedBy ho] at hs
  · rwa [hr.cell_of_ownedBy (h.slot_ownedBy hσ.integrity hs hp)]

/-- A booking with all its slots is whole. -/
theorem whole (h : Drafted t row done σ)
    (hb : spanBounds done = some (row.firstStartAt, row.lastEndAt)) : Whole t σ where
  parent ho hs := by
    rw [h.slots ho hs]
    exact h.ownedBy
  spanOk ho := by
    obtain rfl := h.requests ho
    intro r hr _
    rw [Store.view_row, Cell.seen_of_dirty (by rw [h.cell])] at hr
    obtain rfl := Option.some.inj hr
    rw [spanBounds_congr h.spans, hb]

end Drafted

/-- The insertion of a request with the code counted at `σc`, for the clock read at `σn`. -/
theorem wp_createRequest {new : ℤ → Cuid → BookingRequest} {k : BookingRequest → Tx α}
    {σn σc : BookingStore} (hnew : ∀ c id, (new c id).id = id ∧ (new c id).createdAt = c ∧
      (new c id).code =
        formatBookingCode σn.clock (sameDayCount (σc.view (some t)) σn.clock))
    (hσn : Standing strict σn) (hn : Rely (contract strict) t σn σc)
    (hc : Rely (contract strict) t σc σ) (hclean : σ.Clean t)
    (hF : ∀ f, f.error = .codeCollision → Contended f → F f)
    (h : ∀ σ₁, Rely (contract strict) t σ σ₁ → Standing strict σ₁ →
      Standing strict (σ₁.add t .request (new σ₁.clock σ₁.next)) →
      Drafted t (new σ₁.clock σ₁.next) [] (σ₁.add t .request (new σ₁.clock σ₁.next)) →
      wp (contract strict) schema t F Q (k (new σ₁.clock σ₁.next))
        ⟨σn.clock, σn.view (some t)⟩ (σc.view (some t) :: reads)
        (σ₁.add t .request (new σ₁.clock σ₁.next))) :
    wp (contract strict) schema t F Q (createRequest new >>= k) ⟨σn.clock, σn.view (some t)⟩
      (σc.view (some t) :: reads) σ := by
  refine wp_create.2 fun σ₁ h₁ hσ₁ ↦ ?_
  have hσ₁ : Standing strict σ₁ := hσ₁
  have hc₁ := hc.trans h₁
  have hclean₁ : σ₁.Clean t := fun τ i ho ↦ hclean τ i ((h₁.ownedBy_iff τ i).1 ho)
  have hclean_c : σc.Clean t := fun τ i ho ↦ hclean τ i ((hc.ownedBy_iff τ i).2 ho)
  obtain ⟨hid, hcreated, hcode⟩ := hnew σ₁.clock σ₁.next
  refine ⟨fun r σ₂ hi _ ↦ ?_, fun e he ↦ ?_⟩
  · obtain ⟨rfl, rfl⟩ := insert_request hi
    have hσ₂ : Standing strict (σ₁.add t .request (new σ₁.clock σ₁.next)) :=
      hσ₁.of_work Store.workBy_add (hσ₁.compatible.insert hi)
        (integrity_add_request hσ₁.integrity hid)
        (hσ₁.codes.add_request hcode (by rw [hcreated]; exact (hn.trans hc₁).clock_le)
          (by rw [hcreated]) (sameDayCount_le contract_integrity hc₁ (hclean_c Tab.request) _))
    refine ⟨hσ₂, h σ₁ h₁ hσ₁ hσ₂ ?_⟩
    have hslot : (σ₁.add t .request (new σ₁.clock σ₁.next)).cell .slot = σ₁.cell .slot :=
      Store.add_cell_of_ne (by decide)
    have hcell : (σ₁.add t .request (new σ₁.clock σ₁.next)).cell .request
        (new σ₁.clock σ₁.next).id = ⟨none, some (t, some (new σ₁.clock σ₁.next))⟩ := by
      rw [hid, Store.add_cell_next]
    refine ⟨hcell, fun {i} ho ↦ ?_, fun {j s} ho _ ↦ ?_, fun m ↦ ⟨fun hm ↦ ?_, fun hm ↦ ?_⟩⟩
    · by_contra hne
      rw [Store.add_cell_of_ne_next (hid ▸ hne)] at ho
      exact hclean₁ _ i ho
    · rw [hslot] at ho
      exact absurd ho (hclean₁ Tab.slot j)
    · -- a slot of the new request would have had a parent before
      obtain ⟨j, s, hs, hp, _⟩ := mem_liveSpans.1 hm
      rw [Store.view_row, hslot] at hs
      obtain ⟨r, hr, _⟩ := (hσ₁.integrity.view (some t)).parent (j := j) hs
      rw [hp, hid] at hr
      exact absurd (Db.lt_next hr) (Nat.lt_irrefl _)
    · cases hm
  · obtain ⟨rfl, j, q, hq, hcode'⟩ := createRequest_failed he
    exact hF _ rfl <| contended_of_collision contract_integrity contract_codes hσn hσ₁ hn hc₁
      (hclean₁ Tab.request) hq (hcode'.trans hcode) _ _

/-- One slot of a new booking. -/
theorem Drafted.add_slot {row : BookingRequest} {done : List SlotSpan} {s : BookingSlot}
    (h : Drafted t row done σ) (hlive : s.isCancelled = false)
    (hp : s.bookingRequestId = row.id) :
    Drafted t row (done ++ [s.span]) (σ.add t .slot (refresh (σ.view (some t)) s)) := by
  have hreq : (σ.add t .slot (refresh (σ.view (some t)) s)).cell .request = σ.cell .request :=
    Store.add_cell_of_ne (by decide)
  have hself : ((σ.add t .slot (refresh (σ.view (some t)) s)).cell .slot σ.next).seen (some t) =
      some (refresh (σ.view (some t)) s) := Cell.seen_of_dirty (by rw [Store.add_cell_next])
  refine ⟨by rw [hreq, h.cell], fun ho ↦ h.requests (hreq ▸ ho), fun {j q} ho hq ↦ ?_,
    fun m ↦ ?_⟩
  · by_cases hj : j = σ.next
    · subst hj
      obtain rfl := Option.some.inj (hself.symm.trans hq)
      exact hp
    · rw [Store.add_cell_of_ne_next hj] at ho hq
      exact h.slots ho hq
  · rw [List.mem_append, ← h.spans m, List.mem_singleton]
    simp only [mem_liveSpans, Store.view_row]
    constructor
    · rintro ⟨j, q, hq, hqp, hql, rfl⟩
      by_cases hj : j = σ.next
      · subst hj
        obtain rfl := Option.some.inj (hself.symm.trans hq)
        exact Or.inr rfl
      · rw [Store.add_cell_of_ne_next hj] at hq
        exact Or.inl ⟨j, q, hq, hqp, hql, rfl⟩
    · rintro (⟨j, q, hq, hqp, hql, hm⟩ | rfl)
      · have hj : j ≠ σ.next := fun he ↦ by
          rw [he, σ.bounded _ _ (Nat.le_refl _)] at hq
          cases hq
        exact ⟨j, q, by rw [Store.add_cell_of_ne_next hj, hq], hqp, hql, hm⟩
      · exact ⟨σ.next, _, hself, hp, hlive, rfl⟩

/-- The nested creation of slots. -/
theorem wp_createSlots {row : BookingRequest} {spans done : List SlotSpan}
    {k : List BookingSlot → Tx α} (hF : ∀ f, Uncollided f → F f) (hσ : Standing strict σ)
    (hd : Drafted t row done σ)
    (h : ∀ slots σ', Standing strict σ' → Grows σ σ' → Drafted t row (done ++ spans) σ' →
      wp (contract strict) schema t F Q (k slots) clocked reads σ') :
    wp (contract strict) schema t F Q (createSlots row spans >>= k) clocked reads σ := by
  induction spans generalizing σ done k with
  | nil => exact h [] σ hσ (.refl σ) (by rwa [List.append_nil])
  | cons m spans ih =>
    refine wp_create.2 fun σ₁ h₁ hσ₁ ↦ ?_
    have hσ₁ : Standing strict σ₁ := hσ₁
    have hd₁ := hd.rely hσ h₁
    refine ⟨fun s σ₂ hi _ ↦ ?_, fun e he ↦ hF _ (createSlot_failed he)⟩
    obtain ⟨rfl, rfl⟩ := insert_slot hi
    have hparent : (σ₁.cell .request row.id).seen (some t) = some row :=
      Cell.seen_of_dirty (by rw [hd₁.cell])
    have hσ₂ := hσ₁.of_work Store.workBy_add (hσ₁.compatible.insert hi)
      (integrity_add_slot hσ₁.integrity rfl rfl hparent (by rw [hd₁.cell]) rfl)
      (hσ₁.codes.of_request_eq Store.workBy_add (Store.add_cell_of_ne (by decide)))
    refine ⟨hσ₂, ?_⟩
    change wp _ _ _ _ _ (((createSlots row spans).bind _).bind k) _ _ _
    rw [Prog.bind_assoc]
    refine ih hσ₂ (hd₁.add_slot rfl rfl) fun slots σ' hσ' hgrow hd' ↦ ?_
    refine h _ σ' hσ' (((grows h₁).trans (.of_committed fun τ i ↦ ?_)).trans hgrow)
      (by rwa [List.append_assoc] at hd')
    exact (Store.workBy_add).committed τ i

/-! ### The losers of a decision -/

/-- The new version of a loser. -/
private def rejectLoser (ids : List Cuid) (c : ℤ) (r : BookingRequest) : Option BookingRequest :=
  if r.id ∈ ids ∧ r.status = .pending then
    some { r with
      status := .rejected, rejectReason := some autoRejectedReason, updatedAt := c }
  else none

private theorem rejectLoser_follows {ids : List Cuid} {c : ℤ} {r r' : BookingRequest}
    (h : rejectLoser ids c r = some r') : r.Follows r' ∧ r.KeepsSpan r' ∧ r.id ∈ ids := by
  unfold rejectLoser at h
  split at h
  · next hc =>
    obtain rfl := Option.some.inj h
    refine ⟨⟨rfl, rfl, rfl, rfl, Or.inr (Or.inl hc.2)⟩, fun _ ↦ ⟨?_, rfl, rfl⟩, hc.1⟩
    rw [hc.2]
    simp
  · cases h

private theorem told_of_update {ids : List Cuid} {c : ℤ} {rows : List BookingRequest}
    {σ₀ σ₁ σ₂ : BookingStore} (hσ₁ : Standing strict σ₁) (h₀ : Rely (contract strict) t σ σ₀)
    (h₁ : Rely (contract strict) t σ₀ σ₁)
    (hknown : ∀ i ∈ ids, ∃ r, (σ.cell .request i).committed = some r)
    (hfree : ∀ i ∈ ids, ¬ (σ.cell .request i).ownedBy t)
    (hnone : ∀ i r, (σ.cell .request i).ownedBy t → (σ.cell .request i).seen (some t) = some r →
      BookingRequest.status r ≠ .rejected)
    (hu : RequestsUpdated t (σ₀.view (some t)) (rejectLoser ids c) rows σ₁ σ₂) :
    Told t ids σ₂ := by
  have hrely := h₀.trans h₁
  have hcom := hu.workBy.committed Tab.request
  have hpending : ∀ i, PendingIn σ₂ i ↔ PendingIn σ₁ i := fun i ↦ by
    rw [PendingIn, PendingIn, hcom]
  refine ⟨fun i hi ↦ ?_, fun i ↦ ⟨fun ⟨hp, r, hr, hst, _⟩ ↦ ⟨?_, hp⟩, fun ⟨hi, hp⟩ ↦ ⟨hp, ?_⟩⟩⟩
  · obtain ⟨r, hr⟩ := hknown i hi
    obtain ⟨r', hr', _⟩ := (grows hrely).request hr
    exact ⟨r', (hcom i).trans hr'⟩
  · rcases hu.request i with ⟨q, q', hq, hq', _⟩ | ⟨_, hc⟩
    · have hid : q.id = i := (hσ₁.integrity.view (some t)).request_id hq
      exact hid ▸ (rejectLoser_follows hq').2.2
    · -- what was rejected before this statement was not rejected by `t`
      rw [hc] at hr
      by_cases ho : (σ₁.cell .request i).ownedBy t
      · have ho' := (hrely.ownedBy_iff _ _).1 ho
        rw [hrely.cell_of_ownedBy ho'] at hr
        exact absurd hst (hnone i r ho' hr)
      · rw [Cell.seen_of_not_ownedBy ho] at hr
        obtain ⟨q, hq, hqp⟩ := (hpending i).1 hp
        obtain rfl := Option.some.inj (hq.symm.trans hr)
        rw [hqp] at hst
        cases hst
  · -- a loser that is pending still was pending throughout, so the statement matched it
    obtain ⟨r, hr⟩ := hknown i hi
    have hp₁ := (hpending i).1 hp
    obtain ⟨r₀, hr₀, _⟩ := (grows h₀).request hr
    have hst₀ := hp₁.of_grows (grows h₁) hr₀
    obtain ⟨r₁, hr₁, hst₁⟩ := hp₁
    have hseen₀ : (σ₀.cell .request i).seen (some t) = some r₀ := by
      rw [Cell.seen_of_not_ownedBy fun ho ↦ hfree i hi ((h₀.ownedBy_iff _ _).1 ho), hr₀]
    have hseen₁ : (σ₁.cell .request i).seen (some t) = some r₁ := by
      rw [Cell.seen_of_not_ownedBy fun ho ↦ hfree i hi ((hrely.ownedBy_iff _ _).1 ho), hr₁]
    have hid₁ : r₁.id = i := (hσ₁.integrity.view (some t)).request_id hseen₁
    have hid₀ : r₀.id = i := by
      obtain ⟨q, hq, hf⟩ := request_seen_rely h₁ hseen₀
      obtain rfl := Option.some.inj (hq.symm.trans hseen₁)
      exact hf.id.symm.trans hid₁
    have hmatch : ∀ q : BookingRequest, q.id = i → q.status = .pending →
        rejectLoser ids c q ≠ none := fun q hq hst ↦ by simp [rejectLoser, hq, hi, hst]
    rcases hu.request i with ⟨q, q', hq, hq', hc⟩ | ⟨hn, _⟩
    · rw [hc, Cell.seen_write_self]
      refine ⟨q', rfl, ?_⟩
      unfold rejectLoser at hq'
      split at hq'
      · obtain rfl := Option.some.inj hq'
        exact ⟨rfl, rfl⟩
      · cases hq'
    · exact absurd (hn r₁ r₀ hseen₁ hseen₀ (hmatch r₀ hid₀ hst₀)) (hmatch r₁ hid₁ hst₁)

/-- The rejection of the losers found by an earlier query. -/
theorem wp_rejectLosers {losers : List BookingRequest} {k : List AutoRejectedBooking → Tx α}
    (hF : ∀ f, Uncollided f → F f) (hσ : Standing strict σ) (hw : strict → Whole t σ)
    (hknown : ∀ l ∈ losers, ∃ r, (σ.cell .request l.id).committed = some r)
    (hfree : ∀ l ∈ losers, ¬ (σ.cell .request l.id).ownedBy t)
    (hnone : ∀ i r, (σ.cell .request i).ownedBy t → (σ.cell .request i).seen (some t) = some r →
      BookingRequest.status r ≠ .rejected)
    (h : ∀ σ', Standing strict σ' → (strict → Whole t σ') →
      Told t (losers.map BookingRequest.id) σ' →
      wp (contract strict) schema t F Q (k (losers.map BookingRequest.autoRejected)) clocked reads
        σ') :
    wp (contract strict) schema t F Q (rejectLosers losers >>= k) clocked reads σ := by
  unfold rejectLosers
  split
  · next hnil =>
    subst hnil
    refine h σ hσ hw ⟨fun i hi ↦ absurd hi List.not_mem_nil, fun i ↦ ⟨fun hold ↦ ?_,
      fun hi ↦ absurd hi.1 List.not_mem_nil⟩⟩
    obtain ⟨hp, r, hr, hst, -⟩ := hold
    by_cases ho : (σ.cell .request i).ownedBy t
    · exact absurd hst (hnone i r ho hr)
    · rw [Cell.seen_of_not_ownedBy ho] at hr
      obtain ⟨q, hq, hqp⟩ := hp
      obtain rfl := Option.some.inj (hq.symm.trans hr)
      rw [hqp] at hst
      cases hst
  · refine wp_updateRequests hF fun σ₀ h₀ σ₁ h₁ hσ₁ ↦
      ⟨fun i r r' _ hr' ↦ (rejectLoser_follows hr').1, fun rows σ₂ hu hσ₂ _ ↦ ?_⟩
    refine h σ₂ hσ₂ (fun hs ↦ ?_) (told_of_update hσ₁ h₀ h₁ ?_ ?_ hnone hu)
    · exact (whole_rely (h₀.trans h₁) hw hs).requestsUpdated hσ₁.integrity (hσ₁.spans hs) hu
        fun i r r' _ hr' ↦ (rejectLoser_follows hr').2.1
    · intro i hi
      obtain ⟨l, hl, rfl⟩ := List.mem_map.1 hi
      exact hknown l hl
    · intro i hi
      obtain ⟨l, hl, rfl⟩ := List.mem_map.1 hi
      exact hfree l hl

end Rules

end EasyBook

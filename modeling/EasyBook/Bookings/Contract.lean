import EasyBook.Bookings.Minting
import EasyBook.Bookings.Spans

/-!
# The contract of the booking core

One invariant of the store (`Standing`), one promise of every transaction that commits, and one
proof rule for each statement that the services send, in terms of what the statement does to rows
(`RequestsUpdated`, `SlotsUpdated`) and not of how the store is built.

The contract comes in two strengths. Without `strict` it is kept by every run. With `strict` it
includes the law of spans, and holds of the runs whose cancellations work on fresh reads.
-/

namespace EasyBook

open ReadCommitted

/-! ### The invariant -/

/-- The tables are in order. -/
structure Standing (strict : Prop) (σ : BookingStore) : Prop where
  compatible : Compatible schema σ
  integrity : Integrity σ
  codes : Codes σ
  spans : strict → Spans σ

namespace Standing

variable {strict : Prop} {σ σ' : BookingStore} {t : ℕ}

/-- The empty store stands. -/
theorem init : Standing strict (Store.init Row) :=
  ⟨.init schema, .init, .init, fun _ _ _ h ↦ (nomatch h)⟩

/-- The clock only runs forward. -/
theorem tick (h : Standing strict σ) {c : ℤ} (hc : σ.clock ≤ c) : Standing strict (σ.tick c) :=
  ⟨h.compatible.tick c, h.integrity.tick c, h.codes.tick hc, h.spans⟩

/-- A rollback leaves the store standing. -/
theorem abort (h : Standing strict σ) (t : ℕ) : Standing strict (σ.abort t) :=
  ⟨h.compatible.abort t, h.integrity.abort t, h.codes.abort t, fun hs ↦
    spans_of_committed_eq (h.spans hs) fun _ _ ↦ by rw [Store.abort_cell, Cell.committed_abort]⟩

/-- A commit does too, where the transaction has left no request half made. -/
theorem commit (h : Standing strict σ) (hw : strict → Whole t σ) :
    Standing strict (σ.commit t) :=
  ⟨h.compatible.commit t, h.integrity.commit t, h.codes.commit h.integrity t, fun hs ↦
    (h.spans hs).commit h.integrity (hw hs)⟩

/-- The law of spans is about what is committed, so work keeps it. -/
theorem of_work (h : Standing strict σ) (hw : Store.WorkBy t σ σ')
    (hc : Compatible schema σ') (hi : Integrity σ') (hcodes : Codes σ') : Standing strict σ' :=
  ⟨hc, hi, hcodes, fun hs ↦ spans_of_committed_eq (h.spans hs) hw.committed⟩

end Standing

/-! ### What the answer of a decision says -/

/-- Request `i` is committed as pending. -/
def PendingIn (σ : BookingStore) (i : Cuid) : Prop :=
  ∃ r, (σ.cell .request i).committed = some r ∧ BookingRequest.status r = .pending

/-- `t` has moved request `i` from `PENDING` to `REJECTED`, for the automatic reason. -/
def AutoRejectedBy (t : ℕ) (σ : BookingStore) (i : Cuid) : Prop :=
  PendingIn σ i ∧ ∃ r, (σ.cell .request i).seen (some t) = some r ∧
    BookingRequest.status r = .rejected ∧ BookingRequest.rejectReason r = some autoRejectedReason

/-- The losers that a decision reports. -/
def Reply.autoRejected : Reply → Option (List AutoRejectedBooking)
  | .approved _ l => some l
  | .direct _ l => some l
  | _ => none

/-- What `t` has automatically rejected is what is left pending of the requests `ids`. -/
structure Told (t : ℕ) (ids : List Cuid) (σ : BookingStore) : Prop where
  known : ∀ i ∈ ids, ∃ r, (σ.cell .request i).committed = some r
  autoRejectedBy_iff : ∀ i, AutoRejectedBy t σ i ↔ i ∈ ids ∧ PendingIn σ i

/-- The report of a loser. -/
def BookingRequest.autoRejected (l : BookingRequest) : AutoRejectedBooking := ⟨l.id, l.code⟩

/-- The story of a decision: the losers it reports are those one of its queries found, and the ones
still pending when it commits are those it rejects. -/
def Story (t : ℕ) (reply : Reply) (reads : List View) (σ : BookingStore) : Prop :=
  ∀ l, reply.autoRejected = some l →
    ∃ d ∈ reads, ∃ venueId spans excludeRequestId,
      l = (findPendingLosers d venueId spans excludeRequestId).map BookingRequest.autoRejected ∧
        Told t (l.map AutoRejectedBooking.id) σ

/-- The contract of the booking core. -/
def contract (strict : Prop) : Contract Row BookingError Reply where
  inv := Standing strict
  ready t σ := strict → Whole t σ
  answers := Story
  failing f := f.error = .codeCollision → Contended f
  grant t reads σ τ ch := strict → FreshRead t reads σ τ ch
  inv_tick h hc := Standing.tick h hc
  inv_commit h hw := Standing.commit h hw
  inv_abort h := h.abort _

section Rely

variable {strict : Prop} {σ σ' : BookingStore} {t : ℕ}

/-- The contract's invariant, its part about the two copies of a status. -/
theorem contract_integrity (σ : BookingStore) (h : (contract strict).inv σ) : Integrity σ :=
  Standing.integrity h

/-- The contract's invariant, its part about the codes. -/
theorem contract_codes (σ : BookingStore) (h : (contract strict).inv σ) : Codes σ :=
  Standing.codes h

/-- What the others guarantee: nothing shrinks. -/
theorem grows (h : Rely (contract strict) t σ σ') : Grows σ σ' :=
  grows_of_rely contract_integrity h

/-- A request the transaction sees is still seen after the others' steps, moved on at most. -/
theorem request_seen_rely (h : Rely (contract strict) t σ σ') {i : ℕ} {r : BookingRequest}
    (hr : (σ.cell .request i).seen (some t) = some r) :
    ∃ r', (σ'.cell .request i).seen (some t) = some r' ∧ BookingRequest.Follows r r' :=
  request_seen_of_rely contract_integrity h hr

/-- So is a slot. -/
theorem slot_seen_rely (h : Rely (contract strict) t σ σ') {j : ℕ} {s : BookingSlot}
    (hs : (σ.cell .slot j).seen (some t) = some s) :
    ∃ s', (σ'.cell .slot j).seen (some t) = some s' ∧ BookingSlot.Follows s s' :=
  slot_seen_of_rely contract_integrity h hs

/-- The others do not undo what the transaction has made whole. -/
theorem whole_rely (h : Rely (contract strict) t σ σ') (hw : strict → Whole t σ) :
    strict → Whole t σ' := fun hs ↦
  (hw hs).rely contract_integrity (fun u σ (hr : strict → Whole u σ) ↦ hr hs) h

/-- A request that is pending now was pending before. -/
theorem PendingIn.of_grows {i : Cuid} (h : Grows σ σ') (hp : PendingIn σ' i)
    {r : BookingRequest} (hr : (σ.cell .request i).committed = some r) : r.status = .pending := by
  obtain ⟨r', hr', hpending⟩ := hp
  obtain ⟨q, hq, hf⟩ := h.request hr
  obtain rfl := Option.some.inj (hq.symm.trans hr')
  have := hf.moves
  rw [hpending] at this
  rcases this with h | h | ⟨_, h⟩
  · exact h
  · exact h
  · cases h

/-- Nor what it has told of. -/
theorem Told.rely {ids : List Cuid} (h : Told t ids σ) (hr : Rely (contract strict) t σ σ') :
    Told t ids σ' := by
  have hgrow := grows hr
  refine ⟨fun i hi ↦ ?_, fun i ↦ ?_⟩
  · obtain ⟨r, hc⟩ := h.known i hi
    obtain ⟨r', hc', _⟩ := hgrow.request hc
    exact ⟨r', hc'⟩
  by_cases ho : (σ.cell .request i).ownedBy t
  · have hcell := hr.cell_of_ownedBy ho
    have := h.autoRejectedBy_iff i
    unfold AutoRejectedBy PendingIn at *
    rwa [hcell]
  · -- others may have decided a loser, but nobody makes one pending again
    refine ⟨fun ⟨hp, r, hseen, hst, _⟩ ↦ ?_, fun ⟨hi, hp⟩ ↦ ?_⟩
    · rw [Cell.seen_of_not_ownedBy fun ho' ↦ ho ((hr.ownedBy_iff _ _).1 ho')] at hseen
      obtain ⟨r', hr', hpending⟩ := hp
      obtain rfl := Option.some.inj (hr'.symm.trans hseen)
      rw [hst] at hpending
      cases hpending
    · obtain ⟨r, hc⟩ := h.known i hi
      obtain ⟨_, q, hq, hst, _⟩ := (h.autoRejectedBy_iff i).2 ⟨hi, r, hc, hp.of_grows hgrow hc⟩
      rw [Cell.seen_of_not_ownedBy ho, hc] at hq
      obtain rfl := Option.some.inj hq
      have := hp.of_grows hgrow hc
      rw [hst] at this
      cases this

end Rely

/-! ### Why a statement is refused -/

section Failure

variable {σ : BookingStore} {t : ℕ} {snapshot : View} {e : BookingError}

/-- Slots conflict through the exclusion constraint alone. -/
private theorem slot_conflict {s s' : BookingSlot} (h : schema.conflict .slot s s' = some e) :
    e = .overlapViolation := by
  simp only [schema] at h
  split at h
  · exact (Option.some.inj h).symm
  · cases h

/-- So an update of slots fails with its error alone. -/
private theorem rewrite_slots_failed {ch : BookingSlot → Option (Option BookingSlot)}
    (h : σ.rewrite schema t .slot snapshot ch = .failed e) : e = .overlapViolation := by
  obtain ⟨_, _, _, _, _, _, _, _, _, hc⟩ := Store.rewrite_eq_failed h
  exact slot_conflict hc

/-- The triggers of the requests write slots only. -/
private theorem nested_failed {old new : BookingRequest}
    {x : Σ τ, Row τ → Option (Row τ)} (hx : schema.after .request old new = some x)
    (h : σ.rewrite schema t x.1 (σ.view (some t)) (fun r ↦ (x.2 r).map some) = .failed e) :
    e = .overlapViolation := by
  obtain ⟨ch, _, rfl⟩ := Option.map_eq_some_iff.1 hx
  exact rewrite_slots_failed h

/-- Which is not about a code. -/
theorem updateSlots_failed {ch : BookingSlot → Option BookingSlot}
    (h : σ.modify schema t .slot snapshot (fun s ↦ (ch s).map some) = .failed e) :
    ¬ e.OfCode := by
  rcases Store.modify_eq_failed h with h | ⟨_, _, _, _, _, ha, _⟩
  · rw [rewrite_slots_failed h]
    simp
  · cases ha

/-- An update that leaves the codes alone runs into no code. -/
theorem updateRequests_failed {ch : BookingRequest → Option BookingRequest}
    (hσ : Compatible schema σ) (hcode : ∀ i r r', (σ.cell .request i).seen (some t) = some r →
      ch r = some r' → r'.code = r.code)
    (h : σ.modify schema t .request snapshot (fun r ↦ (ch r).map some) = .failed e) :
    ¬ e.OfCode := by
  rcases Store.modify_eq_failed h with h | ⟨_, _, _, _, _, ha, hn⟩
  · obtain ⟨i, r, x, j, q, hr, hx, hj, hq, hc⟩ := Store.rewrite_eq_failed h
    obtain ⟨_, y, hy, hxy⟩ := Store.version_eq_some hx
    obtain ⟨r', hr', rfl⟩ := Option.map_eq_some_iff.1 hy
    obtain rfl : x = r' := Option.some.inj hxy
    -- the row in the way has the code it had before the statement
    obtain ⟨q₀, hq₀, hqc⟩ : ∃ q₀, (σ.cell .request j).seen (some t) = some q₀ ∧
        q.code = q₀.code := by
      rcases Store.put_cell_cases (σ := σ) (t := t) (τ := Tab.request)
        (f := σ.version schema t .request snapshot fun r ↦ (ch r).map some) j with
        ⟨p, z, hp, hz, hcell⟩ | ⟨_, hcell⟩
      · obtain ⟨_, w, hw, hzw⟩ := Store.version_eq_some hz
        obtain ⟨p', hp', rfl⟩ := Option.map_eq_some_iff.1 hw
        rw [hcell, Cell.seen_write_self, hzw] at hq
        obtain rfl : p' = q := Option.some.inj hq
        exact ⟨p, hp, hcode j p p' hp hp'⟩
      · rw [hcell] at hq
        exact ⟨q, hq, rfl⟩
    have hcompat := hσ.seen hj.symm hr hq₀
    have hx' := hcode i r x hr hr'
    simp only [schema] at hc hcompat
    split at hc
    · next heq =>
      rw [if_pos (by rw [← hx', heq, hqc])] at hcompat
      cases hcompat
    · cases hc
  · rw [nested_failed ha hn]
    simp

/-- Nor is the failure of an insert of a slot. -/
theorem createSlot_failed {s : BookingSlot} (h : σ.insert schema t .slot s = .failed e) :
    ¬ e.OfCode := by
  obtain ⟨_, _, _, hc⟩ := Store.insert_eq_failed h
  rw [slot_conflict hc]
  simp

/-- An insertion of a request is refused because its code is taken. -/
theorem createRequest_failed {r : BookingRequest}
    (h : σ.insert schema t .request r = .failed e) :
    e = .codeCollision ∧ ∃ j q, (σ.cell .request j).seen (some t) = some q ∧ q.code = r.code := by
  obtain ⟨j, q, hq, hc⟩ := Store.insert_eq_failed h
  simp only [schema] at hc
  split at hc
  · next heq => exact ⟨(Option.some.inj hc).symm, j, q, hq, heq.symm⟩
  · cases hc

end Failure

end EasyBook

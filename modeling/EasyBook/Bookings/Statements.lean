import EasyBook.Bookings.Integrity

/-!
# What the statements of the booking core do

One description for each kind of statement, triggers included, so that no proof about a service
opens the store again:

* `RequestsUpdated`: an update of requests rewrites the rows that match and refreshes the flag of
  the slots whose parent changed status;
* `SlotsUpdated`: an update of slots rewrites the rows that match, each with a fresh flag;
* `insert_request`, `insert_slot`: an insertion.

Each is followed by the reason why it keeps `Integrity`.
-/

namespace EasyBook

open ReadCommitted

/-- A slot with its flag computed anew. -/
abbrev refresh (d : View) (s : BookingSlot) : BookingSlot := bookingSlotsHoldsSlot d s

/-- The refreshed flag depends on the requests only. -/
theorem refresh_congr {d d' : View} (h : ∀ i, d.row .request i = d'.row .request i)
    (s : BookingSlot) : refresh d s = refresh d' s := by
  simp only [refresh, bookingSlotsHoldsSlot, h]

@[simp] theorem refresh_refresh (d : View) (s : BookingSlot) :
    refresh d (refresh d s) = refresh d s := rfl

theorem follows_refresh (d : View) (s : BookingSlot) : s.Follows (refresh d s) :=
  ⟨rfl, rfl, rfl, rfl, rfl, fun h ↦ h⟩

theorem mirrors_refresh {d : View} {s : BookingSlot} {r : BookingRequest}
    (h : d.row .request s.bookingRequestId = some r) : (refresh d s).Mirrors r := by
  simp [refresh, bookingSlotsHoldsSlot, BookingSlot.Mirrors, h]

/-- A slot that mirrors its parent is refreshed already. -/
theorem refresh_eq_self {d : View} {s : BookingSlot} {r : BookingRequest}
    (h : d.row .request s.bookingRequestId = some r) (hm : s.Mirrors r) : refresh d s = s := by
  have : s.holdsSlot = (!s.isCancelled && decide (r.status = .approved)) := hm
  simp only [refresh, bookingSlotsHoldsSlot, h, Option.any_some]
  rw [← this]

/-! ### Updates of requests -/

variable {σ σ' : BookingStore} {t : ℕ} {snapshot : View}

/-- The nested update that the parent trigger sends: the slots of the parent are refreshed, and a
slot that is left alone needed no refreshing. -/
private theorem nested_update {new : BookingRequest}
    (hnew : (σ.cell .request new.id).seen (some t) = some new)
    (h : Store.Rewritten schema σ t .slot (σ.view (some t))
      (fun s ↦ (pushHoldsSlot new s).map some) σ') (j : ℕ) :
    (σ'.cell .slot j = σ.cell .slot j ∧
      ∀ s, (σ.cell .slot j).seen (some t) = some s → s.bookingRequestId = new.id →
        refresh (σ.view (some t)) s = s) ∨
    ∃ s, (σ.cell .slot j).seen (some t) = some s ∧ s.bookingRequestId = new.id ∧
      σ'.cell .slot j = (σ.cell .slot j).write t (some (refresh (σ.view (some t)) s)) := by
  rcases h.update_cases j with ⟨s, s', _, hs, hs', _, _, hc⟩ | ⟨hn, hc⟩
  · simp only [pushHoldsSlot] at hs'
    split at hs'
    · next hcond =>
      obtain rfl := Option.some.inj hs'
      exact Or.inr ⟨s, hs, hcond.1, hc⟩
    · cases hs'
  · refine Or.inl ⟨hc, fun s hs hid ↦ ?_⟩
    have hnone : pushHoldsSlot new s = none := by
      by_contra hne
      exact hne (hn s s hs hs hne)
    -- it was not written, so it holds already what the trigger would write
    simp only [pushHoldsSlot, ite_eq_right_iff, reduceCtorEq, imp_false, not_and, not_not] at hnone
    exact refresh_eq_self (hid ▸ hnew) (hnone hid)

/-- All the nested updates of one statement. `l` lists the changes of requests that were made. -/
private theorem fire_requests {l : List (ℕ × BookingRequest × Option BookingRequest)}
    (hl : ∀ i old x, (i, old, x) ∈ l →
      ∃ new, x = some new ∧ new.id = i ∧ (σ.cell .request i).seen (some t) = some new)
    (h : σ.fire schema t .request l = .done σ') :
    σ'.cell .request = σ.cell .request ∧
      (∀ j, σ'.cell .slot j = σ.cell .slot j ∨
        ∃ s, (σ.cell .slot j).seen (some t) = some s ∧
          (∃ old x, (s.bookingRequestId, old, x) ∈ l) ∧
          σ'.cell .slot j =
            (σ.cell .slot j).write t (some (refresh (σ.view (some t)) s))) ∧
      ∀ i old new, (i, old, some new) ∈ l → new.status ≠ old.status →
        ∀ j s, (σ.cell .slot j).seen (some t) = some s → s.bookingRequestId = i →
          (σ'.cell .slot j).seen (some t) = some (refresh (σ.view (some t)) s) := by
  -- Induction on the rows whose triggers are still to fire.
  induction l generalizing σ with
  | nil =>
    obtain rfl : σ = σ' := by simpa [Store.fire] using h
    exact ⟨rfl, fun _ ↦ Or.inl rfl, fun _ _ _ hm ↦ absurd hm List.not_mem_nil⟩
  | cons c l ih =>
    obtain ⟨i, old, x⟩ := c
    obtain ⟨new, rfl, hid, hnew⟩ := hl i old x List.mem_cons_self
    have hl' := fun i old x hm ↦ hl i old x (List.mem_cons_of_mem _ hm)
    by_cases hst : new.status = old.status
    · -- the status is what it was, and the trigger sends nothing
      have hfire : σ.fire schema t .request l = .done σ' := by
        simpa [Store.fire, schema, bookingRequestsHoldsSlot, hst] using h
      obtain ⟨hreq, hslot, hall⟩ := ih hl' hfire
      refine ⟨hreq, fun j ↦ (hslot j).imp id ?_, fun i' old' new' hm hne ↦ ?_⟩
      · rintro ⟨s, hs, ⟨o, y, hm⟩, hc⟩
        exact ⟨s, hs, ⟨o, y, List.mem_cons_of_mem _ hm⟩, hc⟩
      rcases List.mem_cons.1 hm with he | hm
      · obtain ⟨rfl, rfl, hnn⟩ : i' = i ∧ old' = old ∧ new' = new := by simpa using he
        exact absurd (hnn ▸ hst) hne
      · exact hall i' old' new' hm hne
    · have hbind : (σ.rewrite schema t .slot (σ.view (some t))
          fun s ↦ (pushHoldsSlot new s).map some).bind
            (fun p ↦ p.2.fire schema t .request l) = .done σ' := by
        simpa [Store.fire, schema, bookingRequestsHoldsSlot, hst] using h
      obtain ⟨⟨written, σ₁⟩, hr, hfire⟩ := Outcome.bind_eq_done hbind
      have hrw := (Store.rewrite_eq_done hr).2
      have hreq₁ : σ₁.cell .request = σ.cell .request := hrw.cell_of_ne (by decide)
      have hfresh : ∀ s, refresh (σ₁.view (some t)) s = refresh (σ.view (some t)) s :=
        refresh_congr fun i ↦ by rw [Store.view_row, Store.view_row, hreq₁]
      have hnested := nested_update (hid.symm ▸ hnew) hrw
      obtain ⟨hreq, hslot, hall⟩ := ih (fun i old x hm ↦ hreq₁ ▸ hl' i old x hm) hfire
      simp only [hfresh] at hslot hall
      -- what the first nested update made of a slot
      have hstep : ∀ j s, (σ.cell .slot j).seen (some t) = some s →
          ∃ s₁, (σ₁.cell .slot j).seen (some t) = some s₁ ∧
            refresh (σ.view (some t)) s₁ = refresh (σ.view (some t)) s ∧
            s₁.bookingRequestId = s.bookingRequestId := fun j s hs ↦ by
        rcases hnested j with ⟨hc, _⟩ | ⟨s', hs', _, hc⟩
        · exact ⟨s, hc ▸ hs, rfl, rfl⟩
        · obtain rfl := Option.some.inj (hs'.symm.trans hs)
          exact ⟨refresh (σ.view (some t)) s', by rw [hc, Cell.seen_write_self], rfl, rfl⟩
      refine ⟨hreq.trans hreq₁, fun j ↦ ?_, fun i' old' new' hm hne j s hs hbr ↦ ?_⟩
      -- A slot is as the rest of the triggers left it, on top of what the first one did.
      · rcases hslot j with hc | ⟨s₁, hs₁, ⟨o, y, hm⟩, hc⟩
        · rcases hnested j with ⟨hc₁, _⟩ | ⟨s, hs, hbr, hc₁⟩
          · exact Or.inl (hc.trans hc₁)
          · refine Or.inr ⟨s, hs, ⟨old, some new, ?_⟩, hc.trans hc₁⟩
            rw [hbr, hid]
            exact List.mem_cons_self
        · rcases hnested j with ⟨hc₁, _⟩ | ⟨s, hs, hbr, hc₁⟩
          · exact Or.inr ⟨s₁, hc₁ ▸ hs₁, ⟨o, y, List.mem_cons_of_mem _ hm⟩, by rw [hc, hc₁]⟩
          · rw [hc₁, Cell.seen_write_self] at hs₁
            obtain rfl := Option.some.inj hs₁
            exact Or.inr ⟨s, hs, ⟨o, y, List.mem_cons_of_mem _ hm⟩, by rw [hc, hc₁]; rfl⟩
      -- The trigger of the request in question is the first one or a later one.
      · rcases List.mem_cons.1 hm with he | hm
        · obtain ⟨rfl, rfl, rfl⟩ : i' = i ∧ old' = old ∧ new' = new := by simpa using he
          have h₁ : (σ₁.cell .slot j).seen (some t) = some (refresh (σ.view (some t)) s) := by
            rcases hnested j with ⟨hc, hself⟩ | ⟨s', hs', _, hc⟩
            · rw [hc, hs, hself s hs (hbr.trans hid.symm)]
            · obtain rfl := Option.some.inj (hs'.symm.trans hs)
              rw [hc, Cell.seen_write_self]
          rcases hslot j with hc | ⟨s₁, hs₁, _, hc⟩
          · rw [hc, h₁]
          · obtain rfl := Option.some.inj (hs₁.symm.trans h₁)
            rw [hc, Cell.seen_write_self, refresh_refresh]
        · obtain ⟨s₁, hs₁, hf, hbr₁⟩ := hstep j s hs
          rw [hall i' old' new' hm hne j s₁ hs₁ (hbr₁.trans hbr), hf]

/-- What an update of requests with `WHERE`/`SET` clause `ch` did. -/
structure RequestsUpdated (t : ℕ) (snapshot : View) (ch : BookingRequest → Option BookingRequest)
    (rows : List BookingRequest) (σ σ' : BookingStore) : Prop where
  workBy : Store.WorkBy t σ σ'
  /-- A request is rewritten if it was a candidate and still matches, and left alone otherwise. -/
  request : ∀ i,
    (∃ r r', (σ.cell .request i).seen (some t) = some r ∧ ch r = some r' ∧
      σ'.cell .request i = (σ.cell .request i).write t (some r')) ∨
    ((∀ r r₀, (σ.cell .request i).seen (some t) = some r → snapshot.row .request i = some r₀ →
        ch r₀ ≠ none → ch r = none) ∧ σ'.cell .request i = σ.cell .request i)
  /-- A slot is left alone or has its flag refreshed, and the latter only if its parent was
  rewritten. -/
  slot : ∀ j, σ'.cell .slot j = σ.cell .slot j ∨
    ∃ s, (σ.cell .slot j).seen (some t) = some s ∧
      σ'.cell .slot j = (σ.cell .slot j).write t (some (refresh (σ'.view (some t)) s)) ∧
      (σ'.cell .request s.bookingRequestId).ownedBy t
  /-- Every slot that mirrored its parent does so again. -/
  refreshed : ∀ j s r, (σ.cell .slot j).seen (some t) = some s →
    (σ.cell .request s.bookingRequestId).seen (some t) = some r → s.Mirrors r →
    (σ'.cell .slot j).seen (some t) = some (refresh (σ'.view (some t)) s)
  /-- The rows handed back are the new versions. -/
  mem_rows : ∀ r', r' ∈ rows → ∃ i r, (σ.cell .request i).seen (some t) = some r ∧
    ch r = some r' ∧ σ'.cell .request i = (σ.cell .request i).write t (some r')

/-- An update of requests that keeps their keys. -/
theorem requests_updated {ch : BookingRequest → Option BookingRequest} {rows : List BookingRequest}
    (hσ : Integrity σ)
    (hid : ∀ i r r', (σ.cell .request i).seen (some t) = some r → ch r = some r' → r'.id = r.id)
    (h : σ.modify schema t .request snapshot (fun r ↦ (ch r).map some) = .done (rows, σ')) :
    RequestsUpdated t snapshot ch rows σ σ' := by
  obtain ⟨hrows, σ₁, hrw, hfire⟩ := Store.modify_eq_done h
  have hcases := @Store.Rewritten.update_cases Tab Row _ _ _ _ _ _ Tab.request _ ch hrw
  have hslot₁ : σ₁.cell .slot = σ.cell .slot := hrw.cell_of_ne (by decide)
  -- What the statement itself changed, before its triggers.
  have hchange : ∀ i old x, (i, old, x) ∈ σ.changes schema t .request snapshot
      (fun r ↦ (ch r).map some) →
        ∃ new, x = some new ∧ (σ.cell .request i).seen (some t) = some old ∧ ch old = some new ∧
          σ₁.cell .request i = (σ.cell .request i).write t (some new) := by
    intro i old x hm
    obtain ⟨hold, hx⟩ := Store.mem_changes.1 hm
    obtain ⟨_, y, hy, rfl⟩ := Store.version_eq_some hx
    obtain ⟨new, hnew, rfl⟩ := Option.map_eq_some_iff.1 hy
    refine ⟨new, rfl, hold, hnew, ?_⟩
    rw [hrw.eq_put, Store.put_cell_of_some hold hx]
    rfl
  obtain ⟨hreq, hslot, hall⟩ := fire_requests (fun i old x hm ↦ by
    obtain ⟨new, rfl, hold, hnew, hc⟩ := hchange i old x hm
    refine ⟨new, rfl, (hid _ _ _ hold hnew).trans ((hσ.view (some t)).request_id hold), ?_⟩
    rw [hc, Cell.seen_write_self]) hfire
  -- The triggers write slots only, so a slot refreshed by one of them is refreshed for good.
  have hfresh : ∀ s, refresh (σ₁.view (some t)) s = refresh (σ'.view (some t)) s :=
    refresh_congr fun i ↦ by rw [Store.view_row, Store.view_row, hreq]
  simp only [hslot₁, hfresh] at hslot hall
  refine ⟨hrw.workBy.trans (Store.workBy_fire hfire), fun i ↦ ?_, fun j ↦ ?_,
    fun j s r hs hr hm ↦ ?_, fun r' hr' ↦ ?_⟩
  · rw [hreq]
    rcases hcases i with ⟨r, r', _, hr, hr', _, _, hc⟩ | ⟨hn, hc⟩
    · exact Or.inl ⟨r, r', hr, hr', hc⟩
    · exact Or.inr ⟨hn, hc⟩
  · rcases hslot j with hc | ⟨s, hs, ⟨old, x, hm⟩, hc⟩
    · exact Or.inl hc
    · obtain ⟨new, _, _, _, hown⟩ := hchange _ _ _ hm
      refine Or.inr ⟨s, hs, hc, some new, ?_⟩
      rw [hreq, hown]
      rfl
  · -- was the parent of the slot changed, and did its status change?
    by_cases hst : ∃ r', (σ'.cell .request s.bookingRequestId).seen (some t) = some r' ∧
        r'.status = r.status
    · obtain ⟨r', hr', hst⟩ := hst
      have hself : refresh (σ'.view (some t)) s = s :=
        refresh_eq_self hr' (by unfold BookingSlot.Mirrors at *; rw [hm, hst])
      rcases hslot j with hc | ⟨s', hs', _, hc⟩
      · rw [hc, hs, hself]
      · obtain rfl := Option.some.inj (hs'.symm.trans hs)
        rw [hc, Cell.seen_write_self]
    · rcases hcases s.bookingRequestId with ⟨q, q', q₀, hq, hq', hq₀, hqc, hc⟩ | ⟨_, hc⟩
      · obtain rfl := Option.some.inj (hq.symm.trans hr)
        have hmem : (s.bookingRequestId, q, some q') ∈ σ.changes schema t .request snapshot
            (fun r ↦ (ch r).map some) := by
          refine Store.mem_changes.2 ⟨hq, ?_⟩
          obtain ⟨y, hy⟩ := Option.ne_none_iff_exists'.1 hqc
          simp [Store.version, hq₀, hy, hq', schema]
        refine hall _ q q' hmem (fun he ↦ hst ⟨q', ?_, he⟩) j s hs rfl
        rw [hreq, hc, Cell.seen_write_self]
        rfl
      · exact absurd ⟨r, by rw [hreq, hc, hr], rfl⟩ hst
  · rw [hrows] at hr'
    obtain ⟨⟨i, old, x⟩, hm, he⟩ := List.mem_map.1 hr'
    obtain ⟨new, rfl, hold, hnew, hc⟩ := hchange i old x hm
    obtain rfl : new = r' := he
    exact ⟨i, old, hold, hnew, by rw [hreq, hc]⟩

/-- An update that moves requests along the state machine keeps the tables in order. -/
theorem RequestsUpdated.integrity {ch : BookingRequest → Option BookingRequest}
    {rows : List BookingRequest} (h : RequestsUpdated t snapshot ch rows σ σ') (hσ : Integrity σ)
    (hf : ∀ i r r', (σ.cell .request i).seen (some t) = some r → ch r = some r' → r.Follows r') :
    Integrity σ' := by
  have hview := hσ.view (some t)
  -- every request the transaction saw is still there, in a version that follows
  have hreq : ∀ i r, (σ.cell .request i).seen (some t) = some r →
      ∃ r', (σ'.cell .request i).seen (some t) = some r' ∧ BookingRequest.Follows r r' := by
    intro i r hr
    rcases h.request i with ⟨q, q', hq, hq', hc⟩ | ⟨_, hc⟩
    · obtain rfl := Option.some.inj (hq.symm.trans hr)
      exact ⟨q', by rw [hc, Cell.seen_write_self], hf i q q' hq hq'⟩
    · exact ⟨r, by rw [hc, hr], .refl r⟩
  refine hσ.of_work h.workBy ⟨fun {i r} hi ↦ ?_, fun {j s} hj ↦ ?_, fun {j s} hj ↦ ?_⟩
    (fun i x hd ↦ ?_) (fun j x hd ↦ ?_)
  · rw [Store.view_row] at hi
    rcases h.request i with ⟨q, q', hq, hq', hc⟩ | ⟨_, hc⟩
    · rw [hc, Cell.seen_write_self] at hi
      obtain rfl := Option.some.inj hi
      exact (hf i q q' hq hq').id.trans (hview.request_id hq)
    · rw [hc] at hi
      exact hview.request_id hi
  · rw [Store.view_row] at hj
    rcases h.slot j with hc | ⟨q, hq, hc, _⟩
    · rw [hc] at hj
      exact hview.slot_id hj
    · rw [hc, Cell.seen_write_self] at hj
      obtain rfl := Option.some.inj hj
      exact hview.slot_id (s := q) hq
  -- A slot seen after the statement, and the one it was before.
  · rw [Store.view_row] at hj
    obtain ⟨q, hq, hfol⟩ : ∃ q, (σ.cell .slot j).seen (some t) = some q ∧ q.Follows s := by
      rcases h.slot j with hc | ⟨q, hq, hc, _⟩
      · exact ⟨s, hc ▸ hj, .refl s⟩
      · rw [hc, Cell.seen_write_self] at hj
        exact ⟨q, hq, Option.some.inj hj ▸ follows_refresh _ q⟩
    obtain ⟨r, hr, ha⟩ := hview.parent hq
    have hs := h.refreshed j q r hq hr ha.mirrors
    obtain rfl : s = refresh (σ'.view (some t)) q := Option.some.inj (hj.symm.trans hs)
    obtain ⟨r', hr', hrfol⟩ := hreq _ r hr
    exact ⟨r', hr', ha.venueId.trans hrfol.venueId.symm, mirrors_refresh hr',
      fun hc ↦ (ha.settled hc).moves hrfol.moves⟩
  · rcases h.request i with ⟨q, q', hq, hq', hc⟩ | ⟨_, hc⟩
    · rw [hc] at hd
      obtain rfl : x = some q' := by simpa [Cell.write] using hd.symm
      refine ⟨q', rfl, fun r₀ hr₀ ↦ ?_⟩
      obtain ⟨r, hr, hfol⟩ := hσ.request_seen (v := some t) hr₀
      obtain rfl := Option.some.inj (hr.symm.trans hq)
      exact hfol.trans (hf i r q' hq hq')
    · exact hσ.request (hc ▸ hd)
  · rcases h.slot j with hc | ⟨q, hq, hc, _⟩
    · exact hσ.slot (hc ▸ hd)
    · rw [hc] at hd
      obtain rfl : x = some (refresh (σ'.view (some t)) q) := by simpa [Cell.write] using hd.symm
      refine ⟨_, rfl, fun s₀ hs₀ ↦ ?_, fun hn ↦ ?_⟩
      · obtain ⟨s, hs, hfol⟩ := hσ.slot_seen (v := some t) hs₀
        obtain rfl := Option.some.inj (hs.symm.trans hq)
        exact hfol.trans (follows_refresh _ s)
      · have := hσ.slot_new hq hn
        exact this

/-! ### Updates of slots -/

/-- What an update of slots with `WHERE`/`SET` clause `ch` did. -/
structure SlotsUpdated (t : ℕ) (snapshot : View) (ch : BookingSlot → Option BookingSlot)
    (rows : List BookingSlot) (σ σ' : BookingStore) : Prop where
  workBy : Store.WorkBy t σ σ'
  /-- No request is touched. -/
  request : σ'.cell .request = σ.cell .request
  /-- A slot is rewritten, with a fresh flag, if it was a candidate and still matches. -/
  slot : ∀ j,
    (∃ s s', (σ.cell .slot j).seen (some t) = some s ∧ ch s = some s' ∧
      σ'.cell .slot j = (σ.cell .slot j).write t (some (refresh (σ.view (some t)) s'))) ∨
    ((∀ s s₀, (σ.cell .slot j).seen (some t) = some s → snapshot.row .slot j = some s₀ →
        ch s₀ ≠ none → ch s = none) ∧ σ'.cell .slot j = σ.cell .slot j)
  /-- One row is handed back for each slot rewritten. -/
  keys : ∃ keys : List ℕ, keys.Nodup ∧ keys.length = rows.length ∧
    ∀ j ∈ keys, ∃ s s', (σ.cell .slot j).seen (some t) = some s ∧ ch s = some s' ∧
      σ'.cell .slot j = (σ.cell .slot j).write t (some (refresh (σ.view (some t)) s'))

private theorem fire_slots {l : List (ℕ × BookingSlot × Option BookingSlot)} :
    σ.fire schema t .slot l = .done σ := by
  induction l with
  | nil => rfl
  | cons c l ih => obtain ⟨i, old, - | new⟩ := c <;> simpa [Store.fire, schema] using ih

theorem slots_updated {ch : BookingSlot → Option BookingSlot} {rows : List BookingSlot}
    (h : σ.modify schema t .slot snapshot (fun s ↦ (ch s).map some) = .done (rows, σ')) :
    SlotsUpdated t snapshot ch rows σ σ' := by
  obtain ⟨hrows, σ₁, hrw, hfire⟩ := Store.modify_eq_done h
  obtain rfl : σ₁ = σ' := by
    rw [fire_slots] at hfire
    simpa using hfire
  refine ⟨hrw.workBy, hrw.cell_of_ne (by decide), fun j ↦ ?_, ?_⟩
  · rcases @Store.Rewritten.update_cases Tab Row _ _ _ _ _ _ Tab.slot _ ch hrw j with
      ⟨s, s', _, hs, hs', _, _, hc⟩ | ⟨hn, hc⟩
    · exact Or.inl ⟨s, s', hs, hs', hc⟩
    · exact Or.inr ⟨hn, hc⟩
  · refine ⟨_, Store.nodup_changes, by rw [hrows, List.length_map, List.length_map], fun j hj ↦ ?_⟩
    obtain ⟨⟨i, old, x⟩, hm, rfl⟩ := List.mem_map.1 hj
    obtain ⟨hold, hx⟩ := Store.mem_changes.1 hm
    obtain ⟨_, y, hy, rfl⟩ := Store.version_eq_some hx
    obtain ⟨s', hs', rfl⟩ := Option.map_eq_some_iff.1 hy
    refine ⟨old, s', hold, hs', ?_⟩
    rw [hrw.eq_put, Store.put_cell_of_some hold hx]
    rfl

/-- An update that follows the slots, and cancels them under a settled parent only, keeps the
tables in order. -/
theorem SlotsUpdated.integrity {ch : BookingSlot → Option BookingSlot} {rows : List BookingSlot}
    (h : SlotsUpdated t snapshot ch rows σ σ') (hσ : Integrity σ)
    (hf : ∀ j s s' r, (σ.cell .slot j).seen (some t) = some s → ch s = some s' →
      (σ.cell .request s.bookingRequestId).seen (some t) = some r →
      s.Follows s' ∧ (s'.isCancelled = true → r.status.Settled)) : Integrity σ' := by
  have hview := hσ.view (some t)
  have hfol : ∀ j s s', (σ.cell .slot j).seen (some t) = some s → ch s = some s' →
      s.Follows s' := fun j s s' hs hs' ↦ by
    obtain ⟨r, hr, _⟩ := hview.parent hs
    exact (hf j s s' r hs hs' hr).1
  refine hσ.of_work h.workBy ⟨fun {i r} hi ↦ ?_, fun {j s} hj ↦ ?_, fun {j s} hj ↦ ?_⟩
    (fun i x hd ↦ ?_) (fun j x hd ↦ ?_)
  · rw [Store.view_row, h.request] at hi
    exact hview.request_id hi
  · rw [Store.view_row] at hj
    rcases h.slot j with ⟨q, q', hq, hq', hc⟩ | ⟨_, hc⟩
    · rw [hc, Cell.seen_write_self] at hj
      obtain rfl := Option.some.inj hj
      exact (hfol j q q' hq hq').id.trans (hview.slot_id hq)
    · rw [hc] at hj
      exact hview.slot_id hj
  · rw [Store.view_row] at hj
    rw [Store.view_row, h.request]
    rcases h.slot j with ⟨q, q', hq, hq', hc⟩ | ⟨_, hc⟩
    · rw [hc, Cell.seen_write_self] at hj
      obtain rfl := Option.some.inj hj
      obtain ⟨r, hr, ha⟩ := hview.parent hq
      obtain ⟨hqf, hset⟩ := hf j q q' r hq hq' hr
      rw [Store.view_row] at hr
      have hr' : (σ.view (some t)).row .request q'.bookingRequestId = some r := by
        rw [hqf.bookingRequestId]
        exact hr
      exact ⟨r, hr', hqf.venueId.trans ha.venueId, mirrors_refresh hr', hset⟩
    · rw [hc] at hj
      exact hview.parent hj
  · rw [h.request] at hd
    exact hσ.request hd
  · rcases h.slot j with ⟨q, q', hq, hq', hc⟩ | ⟨_, hc⟩
    · rw [hc] at hd
      obtain rfl : x = some (refresh (σ.view (some t)) q') := by simpa [Cell.write] using hd.symm
      have hqf := hfol j q q' hq hq'
      refine ⟨_, rfl, fun s₀ hs₀ ↦ ?_, fun hn ↦ ?_⟩
      · obtain ⟨s, hs, hsf⟩ := hσ.slot_seen (v := some t) hs₀
        obtain rfl := Option.some.inj (hs.symm.trans hq)
        exact (hsf.trans hqf).trans (follows_refresh _ q')
      · have := hσ.slot_new hq hn
        rwa [← hqf.bookingRequestId] at this
    · exact hσ.slot (hc ▸ hd)

/-! ### Insertions -/

theorem insert_request {r r' : BookingRequest}
    (h : σ.insert schema t .request r = .done (r', σ')) :
    r' = r ∧ σ' = σ.add t .request r := by
  obtain ⟨rfl, rfl, _⟩ := Store.insert_eq_done h
  exact ⟨rfl, rfl⟩

theorem integrity_add_request (hσ : Integrity σ) {r : BookingRequest} (hid : r.id = σ.next) :
    Integrity (σ.add t .request r) := by
  have hview := hσ.view (some t)
  have hslot : (σ.add t .request r).cell .slot = σ.cell .slot := Store.add_cell_of_ne (by decide)
  have hself : ((σ.add t .request r).cell .request σ.next).seen (some t) = some r :=
    Cell.seen_of_dirty (by rw [Store.add_cell_next])
  refine hσ.of_work Store.workBy_add ⟨fun {i q} hi ↦ ?_, fun {j s} hj ↦ ?_, fun {j s} hj ↦ ?_⟩
    (fun i x hd ↦ ?_) (fun j x hd ↦ hσ.slot (hslot ▸ hd))
  · by_cases hn : i = σ.next
    · subst hn
      obtain rfl := Option.some.inj (hself.symm.trans hi)
      exact hid
    · rw [Store.view_row, Store.add_cell_of_ne_next hn] at hi
      exact hview.request_id hi
  · rw [Store.view_row, hslot] at hj
    exact hview.slot_id hj
  · rw [Store.view_row, hslot] at hj
    obtain ⟨q, hq, ha⟩ := hview.parent hj
    have hlt := Db.lt_next hq
    refine ⟨q, ?_, ha⟩
    rw [Store.view_row, Store.add_cell_of_ne_next (by exact Nat.ne_of_lt hlt)]
    exact hq
  · by_cases hn : i = σ.next
    · subst hn
      rw [Store.add_cell_next] at hd
      obtain rfl : x = some r := by simpa using hd.symm
      refine ⟨r, rfl, fun r₀ hr₀ ↦ ?_⟩
      rw [σ.bounded .request _ (Nat.le_refl _)] at hr₀
      cases hr₀
    · rw [Store.add_cell_of_ne_next hn] at hd
      exact hσ.request hd

theorem insert_slot {s s' : BookingSlot} (h : σ.insert schema t .slot s = .done (s', σ')) :
    s' = refresh (σ.view (some t)) s ∧ σ' = σ.add t .slot s' := by
  obtain ⟨rfl, rfl, _⟩ := Store.insert_eq_done h
  exact ⟨rfl, rfl⟩

/-- A slot is inserted below a request that its own transaction inserted. -/
theorem integrity_add_slot (hσ : Integrity σ) {s : BookingSlot} {r : BookingRequest}
    (hid : s.id = σ.next) (hlive : s.isCancelled = false)
    (hr : (σ.cell .request s.bookingRequestId).seen (some t) = some r)
    (hnew : (σ.cell .request s.bookingRequestId).committed = none)
    (hvenue : s.venueId = r.venueId) :
    Integrity (σ.add t .slot (refresh (σ.view (some t)) s)) := by
  have hview := hσ.view (some t)
  have hreq : (σ.add t .slot (refresh (σ.view (some t)) s)).cell .request = σ.cell .request :=
    Store.add_cell_of_ne (by decide)
  have hself : ((σ.add t .slot (refresh (σ.view (some t)) s)).cell .slot σ.next).seen (some t) =
      some (refresh (σ.view (some t)) s) := Cell.seen_of_dirty (by rw [Store.add_cell_next])
  refine hσ.of_work Store.workBy_add ⟨fun {i q} hi ↦ ?_, fun {j q} hj ↦ ?_, fun {j q} hj ↦ ?_⟩
    (fun i x hd ↦ hσ.request (hreq ▸ hd)) (fun j x hd ↦ ?_)
  · rw [Store.view_row, hreq] at hi
    exact hview.request_id hi
  · by_cases hn : j = σ.next
    · subst hn
      obtain rfl := Option.some.inj (hself.symm.trans hj)
      exact hid
    · rw [Store.view_row, Store.add_cell_of_ne_next hn] at hj
      exact hview.slot_id hj
  · rw [Store.view_row, hreq]
    by_cases hn : j = σ.next
    · subst hn
      obtain rfl := Option.some.inj (hself.symm.trans hj)
      refine ⟨r, hr, hvenue, mirrors_refresh hr, fun hc ↦ ?_⟩
      have hnot : (refresh (σ.view (some t)) s).isCancelled = false := hlive
      exact absurd hc (by rw [hnot]; simp)
    · rw [Store.view_row, Store.add_cell_of_ne_next hn] at hj
      exact hview.parent hj
  · by_cases hn : j = σ.next
    · subst hn
      rw [Store.add_cell_next] at hd
      obtain rfl : x = some (refresh (σ.view (some t)) s) := by simpa using hd.symm
      refine ⟨_, rfl, fun s₀ hs₀ ↦ ?_, fun _ ↦ hnew⟩
      rw [σ.bounded .slot _ (Nat.le_refl _)] at hs₀
      cases hs₀
    · rw [Store.add_cell_of_ne_next hn] at hd
      exact hσ.slot hd

end EasyBook

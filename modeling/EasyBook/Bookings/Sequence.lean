import EasyBook.Bookings.Statements
import EasyBook.Bookings.Validation
import EasyBook.ReadCommitted.Cascade

/-!
# The booking tables, one transaction at a time

What the statements of the booking core do when nobody else is writing. A state is `Sound` if every
row is under its own key, every slot agrees with its parent and no two rows are in conflict. Such a
state is known by its requests and by its slots without their flags, which follow from the rest; a
statement is described by what it does to these (`RequestsSet`, `SlotsSet`, `SlotsAdded`).

Only two things can go wrong: a code that is taken, and a slot that comes to be held in the way of
one that is held already (`Crowded`).
-/

namespace EasyBook

open ReadCommitted ReadCommitted.Prog

/-- The slot without its flag. -/
def BookingSlot.bare (s : BookingSlot) : BookingSlot := { s with holdsSlot := false }

/-- A view in order, no two of whose rows are in conflict. -/
structure Sound (d : View) : Prop where
  ok : ViewOk d
  compatible : d.Compatible schema

namespace Sound

variable {d : View} {i j : Cuid} {s s' : BookingSlot} {r : BookingRequest}

theorem mem_request (h : Sound d) : r ∈ d.all .request ↔ d.row .request r.id = some r := by
  refine ⟨fun hr ↦ ?_, fun hr ↦ Db.mem_all.2 ⟨_, hr⟩⟩
  obtain ⟨i, hi⟩ := Db.mem_all.1 hr
  rwa [h.ok.request_id hi]

theorem mem_slot (h : Sound d) : s ∈ d.all .slot ↔ d.row .slot s.id = some s := by
  refine ⟨fun hs ↦ ?_, fun hs ↦ Db.mem_all.2 ⟨_, hs⟩⟩
  obtain ⟨j, hj⟩ := Db.mem_all.1 hs
  rwa [h.ok.slot_id hj]

theorem nodup_ids (h : Sound d) : ((d.all .request).map BookingRequest.id).Nodup := by
  rw [Db.all, List.map_filterMap]
  refine List.nodup_range.filterMap fun i i' k hk hk' ↦ ?_
  obtain ⟨r, hr, rfl⟩ := Option.map_eq_some_iff.1 hk
  obtain ⟨r', hr', he⟩ := Option.map_eq_some_iff.1 hk'
  exact (h.ok.request_id hr).symm.trans (he.symm.trans (h.ok.request_id hr'))

/-- An update of the request with an id changes one row. -/
theorem length_filterMap (h : Sound d) {ch : BookingRequest → Option BookingRequest}
    (hch : ∀ r, (ch r).isSome = true → r.id = i) (hr : d.row .request i = some r)
    (hsome : (ch r).isSome = true) : ((d.all .request).filterMap ch).length = 1 := by
  rw [List.length_filterMap_eq_countP]
  have hpos : 0 < (d.all .request).countP fun r ↦ (ch r).isSome :=
    List.countP_pos_iff.2 ⟨r, Db.mem_all.2 ⟨i, hr⟩, hsome⟩
  have hle : (d.all .request).countP (fun r ↦ (ch r).isSome) ≤ 1 :=
    calc (d.all .request).countP (fun r ↦ (ch r).isSome)
        ≤ (d.all .request).countP (fun r ↦ r.id == i) :=
          List.countP_mono_left fun r _ hr ↦ by simpa using hch r hr
      _ = ((d.all .request).map BookingRequest.id).count i := by
          rw [List.count_eq_countP, List.countP_map]
          rfl
      _ ≤ 1 := List.nodup_iff_count_le_one.1 h.nodup_ids i
  omega

theorem congr {d' : View} (h : Sound d) (hrow : d'.row = d.row) : Sound d' := by
  refine ⟨⟨fun hr ↦ h.ok.request_id (hrow ▸ hr), fun hs ↦ h.ok.slot_id (hrow ▸ hs), fun hs ↦ ?_⟩,
    fun τ i j r q hij hr hq ↦ h.compatible τ i j r q hij (hrow ▸ hr) (hrow ▸ hq)⟩
  obtain ⟨r, hr, ha⟩ := h.ok.parent (hrow ▸ hs)
  exact ⟨r, hrow ▸ hr, ha⟩

/-- A slot is held if and only if it is live and its request approved. -/
theorem holdsSlot_iff (h : Sound d) (hs : d.row .slot j = some s)
    (hr : d.row .request s.bookingRequestId = some r) :
    s.holdsSlot = true ↔ s.isCancelled = false ∧ r.status = .approved := by
  obtain ⟨q, hq, ha⟩ := h.ok.parent hs
  obtain rfl := Option.some.inj (hq.symm.trans hr)
  rw [show s.holdsSlot = _ from ha.mirrors]
  simp

end Sound

/-! ### Updates of requests -/

/-- The two spans have an instant in common, both slots are live, and at one venue. -/
def BookingSlot.Collides (s s' : BookingSlot) : Prop :=
  s.isCancelled = false ∧ s'.isCancelled = false ∧ s.venueId = s'.venueId ∧
    tsrangeOverlap s.startAt s.endAt s'.startAt s'.endAt = true

/-- An update of requests approves one that has a live slot in the way of another approved one's. -/
def Crowded (d : View) (ch : BookingRequest → Option BookingRequest) : Prop :=
  ∃ j s r r' j' s' q, j ≠ j' ∧ d.row .slot j = some s ∧ d.row .slot j' = some s' ∧ s.Collides s' ∧
    d.row .request s.bookingRequestId = some r ∧ ch r = some r' ∧ r.status ≠ .approved ∧
      r'.status = .approved ∧ d.row .request s'.bookingRequestId = some q ∧
        (q.status = .approved ∨ ∃ q', ch q = some q' ∧ q'.status = .approved)

/-- What an update of requests has made of `d`. -/
structure RequestsSet (d : View) (ch : BookingRequest → Option BookingRequest) (d' : View) :
    Prop where
  sound : Sound d'
  request : ∀ i, d'.row .request i = (d.row .request i).map fun r ↦ (ch r).getD r
  slot : ∀ j, (d'.row .slot j).map BookingSlot.bare = (d.row .slot j).map BookingSlot.bare

/-! ### Slots without their flags -/

section Bare

variable {s s' t t' : BookingSlot} {r : BookingRequest}

theorem BookingSlot.eq_of_bare (h : s.bare = s'.bare) :
    s' = { s with holdsSlot := s'.holdsSlot } := by
  cases s
  cases s'
  simpa [BookingSlot.bare] using h.symm

theorem BookingSlot.parent_of_bare (h : s.bare = s'.bare) :
    s.bookingRequestId = s'.bookingRequestId :=
  (congrArg BookingSlot.bookingRequestId h :)

theorem BookingSlot.collides_congr (h : s.bare = s'.bare) (h' : t.bare = t'.bare) :
    s.Collides t ↔ s'.Collides t' := by
  rw [BookingSlot.eq_of_bare h, BookingSlot.eq_of_bare h']
  exact Iff.rfl

/-- Slots that lie apart do not collide. -/
theorem BookingSlot.Collides.not_apart (h : s.Collides s') : ¬ s.span.Apart s'.span := by
  obtain ⟨-, -, -, hover⟩ := h
  simp only [tsrangeOverlap, decide_eq_true_eq] at hover
  simp only [SlotSpan.Apart, BookingSlot.span]
  omega

/-- A held slot is live, and its request is approved. -/
theorem BookingSlot.Mirrors.held (h : s.Mirrors r) (hs : s.holdsSlot = true) :
    s.isCancelled = false ∧ r.status = .approved := by
  rw [show s.holdsSlot = _ from h] at hs
  simpa using hs

/-- Held slots in each other's way collide. -/
theorem BookingSlot.collides_of_overlap (h : s.Mirrors r) {q : BookingRequest} (h' : s'.Mirrors q)
    (ho : bookingSlotsNoOverlap s s' = true) :
    s.Collides s' ∧ r.status = .approved ∧ q.status = .approved := by
  simp only [bookingSlotsNoOverlap, Bool.and_eq_true, decide_eq_true_eq] at ho
  obtain ⟨⟨⟨hs, hs'⟩, hvenue⟩, hover⟩ := ho
  exact ⟨⟨(h.held hs).1, (h'.held hs').1, hvenue, hover⟩, (h.held hs).2, (h'.held hs').2⟩

end Bare

section Requests

variable {d : View} {ch : BookingRequest → Option BookingRequest}

/-- While the triggers run, a slot mirrors its request as it is now, or as it was and its request is
still to come. -/
private structure Pushing (d : View) (ch : BookingRequest → Option BookingRequest)
    (l : List (ℕ × BookingRequest × Option BookingRequest)) (e : View) : Prop where
  changes : ∀ c ∈ l, c ∈ d.changes schema .request fun r ↦ (ch r).map some
  request : ∀ i, e.row .request i = (d.row .request i).map fun r ↦ (ch r).getD r
  slot : ∀ j, (e.row .slot j).map BookingSlot.bare = (d.row .slot j).map BookingSlot.bare
  mirrors : ∀ j s r, e.row .slot j = some s → d.row .request s.bookingRequestId = some r →
    s.Mirrors ((ch r).getD r) ∨
      s.Mirrors r ∧ ∃ r', (s.bookingRequestId, r, some r') ∈ l ∧ r'.status ≠ r.status

/-- The slots of `e` are those of `d`. -/
private theorem slot_of_bare {e : View}
    (h : ∀ j, (e.row .slot j).map BookingSlot.bare = (d.row .slot j).map BookingSlot.bare)
    {j : Cuid} {s : BookingSlot} (hs : e.row .slot j = some s) :
    ∃ s₀, d.row .slot j = some s₀ ∧ s₀.bare = s.bare := by
  have := h j
  rw [hs] at this
  obtain ⟨s₀, hs₀, he⟩ := Option.map_eq_some_iff.1 this.symm
  exact ⟨s₀, hs₀, he⟩

/-- What a parent trigger makes of a slot. -/
private theorem pushed {e : View} {new : BookingRequest}
    (hnew : e.row .request new.id = some new) (s : BookingSlot) :
    let s' := ((pushHoldsSlot new s).map (schema.before e .slot)).getD s
    s'.bare = s.bare ∧ (s.bookingRequestId = new.id → s'.Mirrors new) ∧
      (s.bookingRequestId ≠ new.id → s' = s) := by
  simp only [pushHoldsSlot]
  split
  · next h =>
    refine ⟨rfl, fun hid ↦ ?_, fun hne ↦ absurd h.1 hne⟩
    show BookingSlot.Mirrors (refresh e _) new
    exact mirrors_refresh (by exact hid ▸ hnew)
  · next h =>
    refine ⟨rfl, fun hid ↦ ?_, fun _ ↦ rfl⟩
    rw [not_and, not_not] at h
    exact h hid

variable (hd : Sound d)
  (hch : ∀ i r r', d.row .request i = some r → ch r = some r' → r.Follows r')

include hd hch

/-- One parent trigger. -/
private theorem push_step {e : View} {i : ℕ} {old new : BookingRequest}
    {l : List (ℕ × BookingRequest × Option BookingRequest)}
    (h : Pushing d ch ((i, old, some new) :: l) e) (hst : new.status ≠ old.status) :
    (∃ err, e.rewrite schema .slot (fun s ↦ (pushHoldsSlot new s).map some) = .error err ∧
      err = .overlapViolation ∧ Crowded d ch) ∨
    ∃ p, e.rewrite schema .slot (fun s ↦ (pushHoldsSlot new s).map some) = .ok p ∧
      Pushing d ch l p.2 := by
  obtain ⟨x, hold, hx, hxn⟩ := Db.mem_changes.1 (h.changes _ List.mem_cons_self)
  obtain ⟨y, hy, rfl⟩ := Option.map_eq_some_iff.1 hx
  obtain rfl : new = y := Option.some.inj hxn
  have hold : d.row .request i = some old := hold
  have hy : ch old = some new := hy
  have hid : new.id = i := (hch i old new hold hy).id.trans (hd.ok.request_id hold)
  have hnew : e.row .request new.id = some new := by
    rw [h.request, hid, hold, Option.map_some, hy]
    rfl
  set e' := e.written schema .slot fun s ↦ (pushHoldsSlot new s).map some with he'
  -- what holds of a slot once the trigger has run
  have hpush : ∀ {j s'}, e'.row .slot j = some s' → ∃ s, e.row .slot j = some s ∧
      s'.bare = s.bare ∧ (s.bookingRequestId = new.id → s'.Mirrors new) ∧
      (s.bookingRequestId ≠ new.id → s' = s) := fun {j s'} hs' ↦ by
    rw [he', Db.written_row_self] at hs'
    obtain ⟨s, hs, rfl⟩ := Option.map_eq_some_iff.1 hs'
    exact ⟨s, hs, pushed hnew s⟩
  -- A slot mirrors its request as it will be, unless the trigger of that request is still to come.
  have hmirror : ∀ j s' r, e'.row .slot j = some s' →
      d.row .request s'.bookingRequestId = some r → s'.Mirrors ((ch r).getD r) ∨
        s'.Mirrors r ∧ ∃ r', (s'.bookingRequestId, r, some r') ∈ l ∧ r'.status ≠ r.status :=
    fun j s' r hs' hr ↦ by
      obtain ⟨s, hs, hbare, hself, hother⟩ := hpush hs'
      by_cases heq : s.bookingRequestId = new.id
      · rw [BookingSlot.parent_of_bare hbare, heq, hid, hold] at hr
        obtain rfl := Option.some.inj hr
        exact .inl (by rw [hy]; exact hself heq)
      · obtain rfl := hother heq
        refine (h.mirrors j s' r hs hr).imp id fun ⟨hm, r', hmem, hne⟩ ↦ ⟨hm, r', ?_, hne⟩
        refine (List.mem_cons.1 hmem).resolve_left fun he ↦ heq ?_
        rw [hid]
        exact congrArg Prod.fst he
  have hslot : ∀ j, (e'.row .slot j).map BookingSlot.bare = (d.row .slot j).map BookingSlot.bare :=
    fun j ↦ by
      rw [he', Db.written_row_self, ← h.slot, Option.map_map]
      exact Option.map_congr fun s _ ↦ (pushed hnew s).1
  -- The trigger's update meets the exclusion constraint, or it does not.
  rcases Db.rewrite_cases (S := schema) (d := e) (τ := Tab.slot)
      fun s ↦ (pushHoldsSlot new s).map some with
    ⟨err, j, s, s', j', q, herr, hs, hs', hj, hq, hconf⟩ | ⟨hok, -⟩
  · refine .inl ⟨err, herr, ?_⟩
    have hparent : s.bookingRequestId = new.id := by
      obtain ⟨y, hy', -⟩ := Option.map_eq_some_iff.1 hs'
      simp only [pushHoldsSlot] at hy'
      split at hy'
      · next h => exact h.1
      · cases hy'
    have hwritten : e'.row .slot j = some (schema.before e .slot s') := by
      obtain ⟨y, hpush', hys⟩ := Option.map_eq_some_iff.1 hs'
      rw [he', Db.written_row_self, hs, Option.map_some, hpush', Option.some.inj hys]
      rfl
    -- The two slots in question, as they were before the statement.
    obtain ⟨s₂, hs₂, hbare, hself, -⟩ := hpush hwritten
    obtain rfl := Option.some.inj (hs.symm.trans hs₂)
    obtain ⟨s₀, hs₀, hbare₀⟩ := slot_of_bare hslot hwritten
    obtain ⟨q₀, hq₀, hqbare₀⟩ := slot_of_bare hslot hq
    obtain ⟨r₂, hr₂, -⟩ := hd.ok.parent hq₀
    have hs₀r : d.row .request s₀.bookingRequestId = some old := by
      rw [BookingSlot.parent_of_bare (hbare₀.trans hbare), hparent, hid, hold]
    simp only [schema] at hconf
    split at hconf
    · next hover =>
      refine ⟨(Option.some.inj hconf).symm, ?_⟩
      -- The other slot mirrors its request as that will be, or its trigger is still to come.
      rcases hmirror j' q r₂ hq (BookingSlot.parent_of_bare hqbare₀ ▸ hr₂) with hm | ⟨hm, -⟩
      · obtain ⟨hcoll, hnewst, hqst⟩ := BookingSlot.collides_of_overlap (hself hparent) hm hover
        refine ⟨j, s₀, old, new, j', q₀, r₂, hj.symm, hs₀, hq₀,
          (BookingSlot.collides_congr hbare₀ hqbare₀).2 hcoll, hs₀r, hy,
          fun ho ↦ hst (hnewst.trans ho.symm), hnewst, hr₂, ?_⟩
        cases hc : ch r₂ with
        | none => exact .inl (by rwa [hc] at hqst)
        | some q' => exact .inr ⟨q', rfl, by rwa [hc] at hqst⟩
      · obtain ⟨hcoll, hnewst, hqst⟩ := BookingSlot.collides_of_overlap (hself hparent) hm hover
        exact ⟨j, s₀, old, new, j', q₀, r₂, hj.symm, hs₀, hq₀,
          (BookingSlot.collides_congr hbare₀ hqbare₀).2 hcoll, hs₀r, hy,
          fun ho ↦ hst (hnewst.trans ho.symm), hnewst, hr₂, .inl hqst⟩
    · cases hconf
  · refine .inr ⟨_, hok, fun c hc ↦ h.changes c (List.mem_cons_of_mem _ hc), fun k ↦ ?_, hslot,
      hmirror⟩
    show e'.row .request k = _
    rw [he', Db.written_row_of_ne (by decide), h.request]

/-- All of them. -/
private theorem push_all {e : View} {l : List (ℕ × BookingRequest × Option BookingRequest)}
    (h : Pushing d ch l e) :
    (∃ err, e.fire schema .request l = .error err ∧ err = .overlapViolation ∧ Crowded d ch) ∨
      ∃ e', e.fire schema .request l = .ok e' ∧ Pushing d ch [] e' := by
  refine Db.fire_cases (fun c l e h hnone ↦ ?_) (fun i old new l e τ' ch' h ha ↦ ?_) h
  · refine ⟨fun c' hc' ↦ h.changes c' (List.mem_cons_of_mem _ hc'), h.request, h.slot,
      fun j s r hs hr ↦ (h.mirrors j s r hs hr).imp id fun ⟨hm, r', hmem, hne⟩ ↦
        ⟨hm, r', (List.mem_cons.1 hmem).resolve_left fun he ↦ ?_, hne⟩⟩
    -- a change of the status is not skipped
    have := hnone r' (he ▸ rfl)
    rw [show c.2.1 = r from he ▸ rfl] at this
    simp [schema, bookingRequestsHoldsSlot, hne] at this
  · simp only [schema, bookingRequestsHoldsSlot] at ha
    split at ha
    · next hne =>
      cases ha
      exact push_step hd hch h hne
    · cases ha

/-- **An update of requests**, triggers included. -/
theorem modify_requests :
    (d.modify schema .request (fun r ↦ (ch r).map some) = .error .overlapViolation ∧
      Crowded d ch) ∨
    ∃ d', d.modify schema .request (fun r ↦ (ch r).map some) =
      .ok ((d.all .request).filterMap ch, d') ∧ RequestsSet d ch d' := by
  -- The rows as the statement itself leaves them, before its triggers.
  have hrow : ∀ i, (d.written schema .request fun r ↦ (ch r).map some).row .request i =
      (d.row .request i).map fun r ↦ (ch r).getD r := fun i ↦ by
    rw [Db.written_row_self]
    exact Option.map_congr fun r _ ↦ by cases ch r <;> rfl
  rcases Db.rewrite_cases (S := schema) (d := d) (τ := Tab.request) fun r ↦ (ch r).map some with
    ⟨e, i, r, r', j, q, -, hr, hr', hj, hq, hconf⟩ | ⟨hok, -⟩
  · -- codes are left alone
    exfalso
    obtain ⟨y, hy, he⟩ := Option.map_eq_some_iff.1 hr'
    obtain rfl := Option.some.inj he
    rw [hrow] at hq
    obtain ⟨q₀, hq₀, rfl⟩ := Option.map_eq_some_iff.1 hq
    have hcode : ((ch q₀).getD q₀).code = q₀.code := by
      cases hc : ch q₀ with
      | none => rfl
      | some q' => exact (hch j q₀ q' hq₀ hc).code
    have hfree := hd.compatible Tab.request i j r q₀ hj.symm hr hq₀
    simp only [schema, id_eq, (hch i r y hr hy).code, hcode] at hconf hfree
    rw [hfree] at hconf
    cases hconf
  -- At first the triggers of all changed requests are still to come.
  have hinit : Pushing d ch (d.changes schema .request fun r ↦ (ch r).map some)
      (d.written schema .request fun r ↦ (ch r).map some) := by
    refine ⟨fun c hc ↦ hc, hrow, fun j ↦ by rw [Db.written_row_of_ne (by decide)],
      fun j s r hs hr ↦ ?_⟩
    rw [Db.written_row_of_ne (by decide)] at hs
    obtain ⟨q, hq, ha⟩ := hd.ok.parent hs
    obtain rfl := Option.some.inj (hq.symm.trans hr)
    cases hc : ch q with
    | none => exact .inl ha.mirrors
    | some q' =>
      by_cases hst : q'.status = q.status
      · left
        show s.holdsSlot = _
        rw [ha.mirrors, Option.getD_some, hst]
      · exact .inr ⟨ha.mirrors, q', Db.mem_changes.2 ⟨some q', hq, by
          show (ch q).map some = _
          rw [hc]
          rfl, rfl⟩, hst⟩
  simp only [Db.modify, hok, Except.bind]
  rcases push_all hd hch hinit with ⟨err, herr, rfl, hcrowded⟩ | ⟨d', hd', hpushed⟩
  · exact .inl ⟨by rw [herr], hcrowded⟩
  have hrows : (d.changes schema .request fun r ↦ (ch r).map some).map (fun c ↦ c.2.2.getD c.2.1) =
      (d.all .request).filterMap ch := by
    rw [Db.changes_rows]
    exact List.filterMap_congr fun r _ ↦ by cases ch r <;> rfl
  -- After the last trigger every slot mirrors its request again.
  refine .inr ⟨d', by rw [hd', hrows], ⟨⟨fun {i r} hr ↦ ?_, fun {j s} hs ↦ ?_, fun {j s} hs ↦ ?_⟩,
    ?_⟩, hpushed.request, hpushed.slot⟩
  · rw [hpushed.request] at hr
    obtain ⟨r₀, hr₀, rfl⟩ := Option.map_eq_some_iff.1 hr
    cases hc : ch r₀ with
    | none => exact hd.ok.request_id hr₀
    | some r' => exact (hch i r₀ r' hr₀ hc).id.trans (hd.ok.request_id hr₀)
  · obtain ⟨s₀, hs₀, hbare⟩ := slot_of_bare hpushed.slot hs
    have hid : s₀.id = s.id := (congrArg BookingSlot.id hbare :)
    exact hid.symm.trans (hd.ok.slot_id hs₀)
  · obtain ⟨s₀, hs₀, hbare⟩ := slot_of_bare hpushed.slot hs
    obtain ⟨r, hr, ha⟩ := hd.ok.parent hs₀
    have hparent := BookingSlot.parent_of_bare hbare
    have hf : r.Follows ((ch r).getD r) := by
      cases hc : ch r with
      | none => exact .refl r
      | some r' => exact hch _ r r' hr hc
    refine ⟨(ch r).getD r, by rw [hpushed.request, ← hparent, hr]; rfl, ?_, ?_, fun hcan ↦ ?_⟩
    · exact ((congrArg BookingSlot.venueId hbare :).symm.trans ha.venueId).trans hf.venueId.symm
    · refine (hpushed.mirrors j s r hs (hparent ▸ hr)).resolve_right fun hleft ↦ ?_
      obtain ⟨-, r', hmem, -⟩ := hleft
      cases hmem
    · exact (ha.settled ((congrArg BookingSlot.isCancelled hbare :).trans hcan)).moves hf.moves
  · have hmodify : d.modify schema .request (fun r ↦ (ch r).map some) =
        .ok ((d.all .request).filterMap ch, d') := by
      simp only [Db.modify, hok, Except.bind, hd', hrows]
    exact hd.compatible.modify hmodify

end Requests

/-! ### Updates of slots -/

/-- What an update of slots has made of `d`. -/
structure SlotsSet (d : View) (ch : BookingSlot → Option BookingSlot) (d' : View) : Prop where
  sound : Sound d'
  request : d'.row .request = d.row .request
  slot : ∀ j, (d'.row .slot j).map BookingSlot.bare =
    (d.row .slot j).map fun s ↦ ((ch s).getD s).bare

/-- **An update of slots** is never refused: a slot that is held was held before. -/
theorem modify_slots {d : View} {ch : BookingSlot → Option BookingSlot} (hd : Sound d)
    (hch : ∀ j s s' r, d.row .slot j = some s → ch s = some s' →
      d.row .request s.bookingRequestId = some r →
        s.Follows s' ∧ (s'.isCancelled = true → r.status.Settled)) :
    ∃ d', d.modify schema .slot (fun s ↦ (ch s).map some) =
      .ok (((d.all .slot).filterMap ch).map (refresh d), d') ∧ SlotsSet d ch d' := by
  -- a slot that is written, before and after
  have hwritten : ∀ j s', (d.written schema .slot fun s ↦ (ch s).map some).row .slot j = some s' →
      ∃ s r, d.row .slot j = some s ∧ d.row .request s.bookingRequestId = some r ∧
        s'.bare = ((ch s).getD s).bare ∧ s.Follows s' ∧ s'.Agrees r := fun j s' hs' ↦ by
    rw [Db.written_row_self] at hs'
    obtain ⟨s, hs, rfl⟩ := Option.map_eq_some_iff.1 hs'
    obtain ⟨r, hr, ha⟩ := hd.ok.parent hs
    cases hc : ch s with
    | none => exact ⟨s, r, hs, hr, by rw [hc]; rfl, .refl s, ha⟩
    | some x =>
      obtain ⟨hf, hset⟩ := hch j s x r hs hc hr
      have hfr : s.Follows (refresh d x) := hf.trans (follows_refresh d x)
      exact ⟨s, r, hs, hr, by rw [hc]; rfl, hfr, hfr.venueId.trans ha.venueId,
        mirrors_refresh (by rw [hf.bookingRequestId]; exact hr), hset⟩
  -- A slot that holds after the write held before it: a write sets no slot free to hold.
  have hheld : ∀ {j s' s r}, d.row .slot j = some s → d.row .request s.bookingRequestId = some r →
      s.Follows s' → s'.Agrees r → s'.holdsSlot = true → s.holdsSlot = true :=
    fun hs hr hf ha hheld ↦ by
      obtain ⟨hlive, hst⟩ := ha.mirrors.held hheld
      refine (hd.holdsSlot_iff hs hr).2 ⟨?_, hst⟩
      by_contra hcan
      rw [hf.isCancelled (by simpa using hcan)] at hlive
      cases hlive
  -- So the exclusion constraint, which nothing violated before, is not violated.
  have hconf : ∀ j j' s s', j ≠ j' →
      (d.written schema .slot fun s ↦ (ch s).map some).row .slot j = some s →
      (d.written schema .slot fun s ↦ (ch s).map some).row .slot j' = some s' →
      schema.conflict .slot s s' = none := fun j j' s s' hj hs hs' ↦ by
    obtain ⟨s₀, r, hs₀, hr, -, hf, ha⟩ := hwritten j s hs
    obtain ⟨s₀', r', hs₀', hr', -, hf', ha'⟩ := hwritten j' s' hs'
    have hfree := hd.compatible Tab.slot j j' s₀ s₀' hj hs₀ hs₀'
    simp only [schema, ite_eq_right_iff, reduceCtorEq, imp_false] at hfree ⊢
    intro hover
    refine hfree ?_
    simp only [bookingSlotsNoOverlap, Bool.and_eq_true, decide_eq_true_eq] at hover ⊢
    obtain ⟨⟨⟨h₁, h₂⟩, hvenue⟩, hover⟩ := hover
    refine ⟨⟨⟨hheld hs₀ hr hf ha h₁, hheld hs₀' hr' hf' ha' h₂⟩, ?_⟩, ?_⟩
    · rw [← hf.venueId, ← hf'.venueId, hvenue]
    · rwa [← hf.startAt, ← hf.endAt, ← hf'.startAt, ← hf'.endAt]
  rcases Db.rewrite_cases (S := schema) (d := d) (τ := Tab.slot) fun s ↦ (ch s).map some with
    ⟨e, j, s, s', j', q, -, hs, hs', hj, hq, he⟩ | ⟨hok, -⟩
  · exfalso
    obtain ⟨y, hy, hys⟩ := Option.map_eq_some_iff.1 hs'
    obtain rfl := Option.some.inj hys
    rw [hconf j j' _ q hj.symm (by rw [Db.written_row_self, hs, Option.map_some, hy]; rfl) hq] at he
    cases he
  -- slots have no AFTER trigger
  have hfire := Db.fire_cases (S := schema) (τ := Tab.slot)
    (P := fun _ e ↦ e = d.written schema .slot fun s ↦ (ch s).map some) (E := fun _ ↦ False)
    (fun _ _ _ h _ ↦ h) (fun _ _ _ _ _ _ _ _ ha ↦ by cases ha)
    (l := d.changes schema .slot fun s ↦ (ch s).map some) rfl
  obtain ⟨d', hd', rfl⟩ := hfire.resolve_left (by rintro ⟨_, _, h⟩; exact h)
  have hrows : (d.changes schema .slot fun s ↦ (ch s).map some).map (fun c ↦ c.2.2.getD c.2.1) =
      ((d.all .slot).filterMap ch).map (refresh d) := by
    rw [Db.changes_rows, List.map_filterMap]
    exact List.filterMap_congr fun s _ ↦ by cases ch s <;> rfl
  have hmodify : d.modify schema .slot (fun s ↦ (ch s).map some) =
      .ok (((d.all .slot).filterMap ch).map (refresh d),
        d.written schema .slot fun s ↦ (ch s).map some) := by
    simp only [Db.modify, hok, Except.bind, hd', hrows]
  refine ⟨_, hmodify, ⟨⟨fun {i r} hr ↦ ?_, fun {j s} hs ↦ ?_, fun {j s} hs ↦ ?_⟩,
    hd.compatible.modify hmodify⟩, Db.written_row_of_ne (by decide), fun j ↦ ?_⟩
  · rw [Db.written_row_of_ne (by decide)] at hr
    exact hd.ok.request_id hr
  · obtain ⟨s₀, r, hs₀, -, -, hf, -⟩ := hwritten j s hs
    exact hf.id.trans (hd.ok.slot_id hs₀)
  · obtain ⟨s₀, r, hs₀, hr, -, hf, ha⟩ := hwritten j s hs
    exact ⟨r, by rw [Db.written_row_of_ne (by decide), hf.bookingRequestId, hr], ha⟩
  · rw [Db.written_row_self, Option.map_map]
    exact Option.map_congr fun s _ ↦ by
      show BookingSlot.bare (((ch s).map (schema.before d Tab.slot)).getD s) = _
      cases ch s <;> rfl

/-! ### Insertions -/

section Insertions

variable {d : View}

/-- **A new request** is refused if its code is taken. -/
theorem Sound.insert_request (hd : Sound d) {r : BookingRequest} (hid : r.id = d.next) :
    (d.insert schema .request r = .error .codeCollision ∧
      ∃ j q, d.row .request j = some q ∧ BookingRequest.code q = r.code) ∨
    d.insert schema .request r = .ok (r, d.add .request r) ∧ Sound (d.add .request r) := by
  rcases Db.insert_cases (S := schema) (d := d) (τ := Tab.request) r with
    ⟨e, j, q, he, hq, hc⟩ | hok
  · left
    simp only [schema] at hc
    split at hc
    · next hcode => exact ⟨by rw [he, Option.some.inj hc], j, q, hq, hcode.symm⟩
    · cases hc
  refine .inr ⟨hok, ⟨fun {i q} hq ↦ ?_, fun {j s} hs ↦ ?_, fun {j s} hs ↦ ?_⟩,
    hd.compatible.insert hok⟩
  · rcases Db.add_row_eq_some hq with hq | ⟨_, rfl, rfl⟩
    · exact hd.ok.request_id hq
    · exact hid
  · rw [Db.add_row_of_ne (by decide)] at hs
    exact hd.ok.slot_id hs
  · rw [Db.add_row_of_ne (by decide)] at hs
    obtain ⟨q, hq, ha⟩ := hd.ok.parent hs
    exact ⟨q, Db.add_row_of_some hq, ha⟩

/-- **A new slot** is refused if it is to be held and collides with a slot that is. -/
theorem Sound.insert_slot (hd : Sound d) {s : BookingSlot} {r : BookingRequest}
    (hid : s.id = d.next) (hr : d.row .request s.bookingRequestId = some r)
    (hvenue : s.venueId = r.venueId) (hlive : s.isCancelled = false) :
    (d.insert schema .slot s = .error .overlapViolation ∧ r.status = .approved ∧
      ∃ j s' q, d.row .slot j = some s' ∧ s.Collides s' ∧
        d.row .request s'.bookingRequestId = some q ∧ q.status = .approved) ∨
    d.insert schema .slot s = .ok (refresh d s, d.add .slot (refresh d s)) ∧
      Sound (d.add .slot (refresh d s)) := by
  have hm : (refresh d s).Mirrors r := mirrors_refresh hr
  rcases Db.insert_cases (S := schema) (d := d) (τ := Tab.slot) s with
    ⟨e, j, s', he, hs', hc⟩ | hok
  · left
    simp only [schema] at hc
    split at hc
    · next hover =>
      obtain ⟨q, hq, ha⟩ := hd.ok.parent hs'
      obtain ⟨hcoll, hst, hqst⟩ := BookingSlot.collides_of_overlap hm ha.mirrors hover
      exact ⟨by rw [he, Option.some.inj hc], hst, j, s', q, hs', hcoll, hq, hqst⟩
    · cases hc
  refine .inr ⟨hok, ⟨fun {i q} hq ↦ ?_, fun {j q} hq ↦ ?_, fun {j q} hq ↦ ?_⟩,
    hd.compatible.insert hok⟩
  · rw [Db.add_row_of_ne (by decide)] at hq
    exact hd.ok.request_id hq
  · rcases Db.add_row_eq_some hq with hq | ⟨_, rfl, rfl⟩
    · exact hd.ok.slot_id hq
    · exact hid
  · rw [Db.add_row_of_ne (by decide)]
    rcases Db.add_row_eq_some hq with hq | ⟨_, rfl, rfl⟩
    · exact hd.ok.parent hq
    · exact ⟨r, hr, hvenue, hm, fun hcan ↦ absurd (hlive.symm.trans hcan) (by decide)⟩

end Insertions

/-! ### Transactions -/

/-- A live slot of an approved request at the venue, and not of the request that is left out, meets
the span. -/
def Met (d : View) (venueId : Cuid) (exclude : Option Cuid) (m : SlotSpan) : Prop :=
  ∃ j s q, d.row .slot j = some s ∧ s.isCancelled = false ∧ s.venueId = venueId ∧
    (∀ id ∈ exclude, s.bookingRequestId ≠ id) ∧ d.row .request s.bookingRequestId = some q ∧
      q.status = .approved ∧ s.startAt < m.end ∧ m.start < s.endAt

/-- The clash query finds such a slot if there is one. -/
theorem findApprovedClash_isSome {d : View} {venueId : Cuid} {spans : List SlotSpan}
    {exclude : Option Cuid} : (findApprovedClash d venueId spans exclude).isSome = true ↔
      ∃ m ∈ spans, Met d venueId exclude m := by
  have hwhere : ∀ s, approvedClashWhere d venueId spans exclude s = true ↔
      s.venueId = venueId ∧ s.isCancelled = false ∧
        (∃ q, d.row .request s.bookingRequestId = some q ∧ q.status = .approved) ∧
        (∀ id ∈ exclude, s.bookingRequestId ≠ id) ∧
        ∃ m ∈ spans, s.startAt < m.end ∧ m.start < s.endAt := fun s ↦ by
    cases exclude <;> cases hq : d.row .request s.bookingRequestId <;>
      simp [approvedClashWhere, overlapOr, hq, and_assoc]
  unfold findApprovedClash
  split
  · next hnil => simp [hnil]
  rw [List.find?_isSome]
  constructor
  · rintro ⟨s, hs, hw⟩
    obtain ⟨hvenue, hlive, ⟨q, hq, hst⟩, hex, m, hm, hover⟩ := (hwhere s).1 hw
    obtain ⟨j, hj⟩ := Db.mem_all.1 hs
    exact ⟨m, hm, j, s, q, hj, hlive, hvenue, hex, hq, hst, hover⟩
  · rintro ⟨m, hm, j, s, q, hj, hlive, hvenue, hex, hq, hst, hover⟩
    exact ⟨s, Db.mem_all.2 ⟨j, hj⟩,
      (hwhere s).2 ⟨hvenue, hlive, ⟨q, hq, hst⟩, hex, m, hm, hover⟩⟩

/-- `s` is the slot of `row` at `m`, as it was created. -/
structure NewSlot (row : BookingRequest) (m : SlotSpan) (s : BookingSlot) : Prop where
  bookingRequestId : s.bookingRequestId = row.id
  venueId : s.venueId = row.venueId
  span : s.span = m
  isCancelled : s.isCancelled = false
  cancelledAt : s.cancelledAt = none

/-- What `createSlots` has made of `d`. -/
structure SlotsAdded (row : BookingRequest) (spans : List SlotSpan) (d d' : View) : Prop where
  sound : Sound d'
  request : d'.row .request = d.row .request
  slot : ∃ news, d'.all .slot = d.all .slot ++ news ∧ List.Forall₂ (NewSlot row) spans news

section Transactions

variable {β : Type} {may : ∀ q, Ans q → Prop} {since : ℤ} {F : BookingError → Prop}
  {Q : β → View → Prop} {d : View}

theorem solo_updateRequests {ch : ℤ → BookingRequest → Option BookingRequest}
    {k : List BookingRequest → Tx β} (hd : Sound d)
    (hch : ∀ c i r r', d.row .request i = some r → ch c r = some r' → r.Follows r')
    (hF : ∀ c, Crowded d (ch c) → F .overlapViolation)
    (hk : ∀ c d', RequestsSet d (ch c) d' →
      (k ((d.all .request).filterMap (ch c))).solo schema may since F Q d') :
    (updateRequests ch >>= k).solo schema may since F Q d := by
  intro c
  rcases modify_requests hd (hch c) with ⟨he, hcrowded⟩ | ⟨d', hok, hset⟩
  · rw [he]
    exact hF c hcrowded
  · rw [hok]
    exact hk c d' hset

theorem solo_updateSlots {ch : ℤ → BookingSlot → Option BookingSlot}
    {k : List BookingSlot → Tx β} (hd : Sound d)
    (hch : ∀ c j s s' r, d.row .slot j = some s → ch c s = some s' →
      d.row .request s.bookingRequestId = some r →
        s.Follows s' ∧ (s'.isCancelled = true → r.status.Settled))
    (hk : ∀ c d', SlotsSet d (ch c) d' →
      (k (((d.all .slot).filterMap (ch c)).map (refresh d))).solo schema may since F Q d') :
    (updateSlots ch >>= k).solo schema may since F Q d := by
  intro c
  obtain ⟨d', hok, hset⟩ := modify_slots hd (hch c)
  rw [hok]
  exact hk c d' hset

theorem solo_createRequest {new : ℤ → Cuid → BookingRequest} {k : BookingRequest → Tx β}
    (hd : Sound d) (hnew : ∀ c i, (new c i).id = i)
    (hF : ∀ c j q, d.row .request j = some q → BookingRequest.code q = (new c d.next).code →
      F .codeCollision)
    (hk : ∀ c, Sound (d.add .request (new c d.next)) →
      (k (new c d.next)).solo schema may since F Q (d.add .request (new c d.next))) :
    (createRequest new >>= k).solo schema may since F Q d := by
  intro c
  rcases hd.insert_request (hnew c d.next) with ⟨he, j, q, hq, hcode⟩ | ⟨hok, hsound⟩
  · rw [he]
    exact hF c j q hq hcode
  · rw [hok]
    exact hk c hsound

theorem solo_createSlot {row : BookingRequest} {m : SlotSpan} {new : ℤ → Cuid → BookingSlot}
    {k : BookingSlot → Tx β} (hd : Sound d) (hrow : d.row .request row.id = some row)
    (hid : ∀ c i, (new c i).id = i) (hnew : ∀ c i, NewSlot row m (new c i))
    (hF : row.status = .approved → Met d row.venueId none m → F .overlapViolation)
    (hk : ∀ s, Sound (d.add .slot s) → NewSlot row m s →
      (k s).solo schema may since F Q (d.add .slot s)) :
    (createSlot new >>= k).solo schema may since F Q d := by
  intro c
  obtain ⟨hparent, hvenue, hspan, hlive, hat⟩ := hnew c d.next
  rcases hd.insert_slot (hid c d.next) (hparent ▸ hrow) hvenue hlive with
    ⟨he, hst, j, s', q, hs', ⟨-, hlive', hvenue', hover⟩, hq, hqst⟩ | ⟨hok, hsound⟩
  · rw [he]
    refine hF hst ⟨j, s', q, hs', hlive', hvenue'.symm.trans hvenue, fun _ h ↦ (nomatch h), hq,
      hqst,
      ?_⟩
    simp only [tsrangeOverlap, decide_eq_true_eq] at hover
    rw [← hspan]
    simp only [BookingSlot.span]
    omega
  · rw [hok]
    exact hk _ hsound ⟨hparent, hvenue, hspan, hlive, hat⟩

/-- The slots of a request that has just been inserted. -/
theorem solo_createSlots {row : BookingRequest} {spans : List SlotSpan}
    {k : List BookingSlot → Tx β} (hd : Sound d) (hrow : d.row .request row.id = some row)
    (hapart : spans.Pairwise SlotSpan.Apart)
    (hF : row.status = .approved → ∀ m ∈ spans, Met d row.venueId none m → F .overlapViolation)
    (hk : ∀ d' slots, SlotsAdded row spans d d' → (k slots).solo schema may since F Q d') :
    (createSlots row spans >>= k).solo schema may since F Q d := by
  induction spans generalizing d k with
  | nil => exact hk d [] ⟨hd, rfl, [], by rw [List.append_nil], .nil⟩
  | cons m spans ih =>
    obtain ⟨hfirst, hrest⟩ := List.pairwise_cons.1 hapart
    refine solo_createSlot (k := fun slot ↦
      (createSlots row spans >>= fun rest ↦ pure (slot :: rest)) >>= k) hd hrow (fun _ _ ↦ rfl)
      (fun _ _ ↦ ⟨rfl, rfl, rfl, rfl, rfl⟩) (fun hst ↦ hF hst m List.mem_cons_self)
      fun s hsound hnew ↦ ?_
    have hrec : (createSlots row spans >>= fun rest ↦ k (s :: rest)).solo schema may since F Q
        (d.add .slot s) := by
      refine ih hsound ?_ hrest ?_ fun d' slots hadded ↦ hk d' (s :: slots) ?_
      · rwa [Db.add_row_of_ne (by decide)]
      · -- the slot just written lies apart from the spans to come
        intro hst m' hm' ⟨j, s', q, hs', hlive, hvenue, hex, hq, hqst, hover⟩
        refine hF hst m' (List.mem_cons_of_mem _ hm') ?_
        rw [Db.add_row_of_ne (by decide)] at hq
        rcases Db.add_row_eq_some hs' with hs' | ⟨_, rfl, rfl⟩
        · exact ⟨j, s', q, hs', hlive, hvenue, hex, hq, hqst, hover⟩
        · have hapart := hfirst m' hm'
          rw [← hnew.span] at hapart
          simp only [SlotSpan.Apart, BookingSlot.span] at hapart
          omega
      · obtain ⟨hsound', hreq, news, hall, hnews⟩ := hadded
        refine ⟨hsound', hreq.trans (Db.add_row_of_ne (by decide)), s :: news, ?_, .cons hnew hnews⟩
        rw [hall, Db.all_add, List.append_assoc, List.singleton_append]
    rw [show (createSlots row spans >>= fun rest ↦ k (s :: rest)) =
      (createSlots row spans).bind fun rest ↦ k (s :: rest) from rfl, solo_bind] at hrec
    exact solo_bind.2 (solo_bind.2 hrec)

end Transactions

end EasyBook

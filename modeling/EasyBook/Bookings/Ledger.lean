import EasyBook.Bookings.Outcomes

/-!
# The ledger

What the booking tables look like between calls that are made one after the other. A `Book` is what
is filed: requests, and slots without their flags. A `Ledger` is a book in order: every request has
the slots its status promises and carries their bounds, the slots of a request lie apart, and no
pending request wants what an approved one has.

The last of these is what the losers of a decision are rejected for. It makes every pending request
one that can be approved.
-/

namespace EasyBook

open ReadCommitted ReadCommitted.Prog

/-! ### Books -/

/-- Requests, and slots without their flags. -/
structure Book where
  requests : List BookingRequest
  slots : List BookingSlot

/-- What is filed in a state. -/
def bookOf (d : View) : Book := ⟨d.all .request, (d.all .slot).map BookingSlot.bare⟩

namespace Book

/-- The slots of a request. -/
def slotsOf (b : Book) (id : Cuid) : List BookingSlot :=
  b.slots.filter fun s ↦ decide (s.bookingRequestId = id)

end Book

/-- The live ones of some slots. -/
def live (l : List BookingSlot) : List BookingSlot := l.filter fun s ↦ !s.isCancelled

theorem mem_live {l : List BookingSlot} {s : BookingSlot} :
    s ∈ live l ↔ s ∈ l ∧ s.isCancelled = false := by
  simp [live]

/-- A request has the slots that its status promises. -/
structure Filed (r : BookingRequest) (l : List BookingSlot) : Prop where
  venueId : ∀ s ∈ l, s.venueId = r.venueId
  undecided : r.status = .pending ∨ r.status = .rejected ∨ r.status = .expired →
    l ≠ [] ∧ ∀ s ∈ l, s.isCancelled = false
  approved : r.status = .approved →
    r.approvedAt.isSome = true ∧ r.approvedById.isSome = true ∧ live l ≠ []
  cancelled : r.status = .cancelled → live l = []
  span : r.status ≠ .cancelled →
    spanBounds ((live l).map BookingSlot.span) = some (r.firstStartAt, r.lastEndAt)

/-- Every request is filed with its slots. -/
structure Orderly (b : Book) : Prop where
  ids : (b.requests.map BookingRequest.id).Nodup
  parent : ∀ s ∈ b.slots, ∃ r ∈ b.requests, r.id = s.bookingRequestId
  slot : ∀ s ∈ b.slots, s.startAt < s.endAt ∧ (s.isCancelled = true ↔ s.cancelledAt.isSome = true)
  filed : ∀ r ∈ b.requests, Filed r (b.slotsOf r.id)
  apart : ∀ id, ((b.slotsOf id).map BookingSlot.span).Pairwise SlotSpan.Apart

/-- No live slot of `p` meets a live slot of `a` at the same venue. -/
def Book.Clear (b : Book) (p a : BookingRequest) : Prop :=
  p.venueId = a.venueId → ∀ s ∈ live (b.slotsOf p.id), ∀ s' ∈ live (b.slotsOf a.id),
    s.span.Apart s'.span

/-- A book in order. -/
structure Ledger (b : Book) : Prop extends Orderly b where
  clear : ∀ p ∈ b.requests, p.status = .pending → ∀ a ∈ b.requests, a.status = .approved →
    b.Clear p a

/-! ### Rows that change -/

/-- A slot stays where it is; it may be cancelled. -/
structure BookingSlot.Stays (s s' : BookingSlot) : Prop where
  bookingRequestId : s'.bookingRequestId = s.bookingRequestId
  venueId : s'.venueId = s.venueId
  span : s'.span = s.span
  isCancelled : s'.isCancelled = false → s.isCancelled = false
  cancelledAt : (s.isCancelled = true ↔ s.cancelledAt.isSome = true) →
    (s'.isCancelled = true ↔ s'.cancelledAt.isSome = true)

section Change

variable {b : Book} {f : BookingRequest → BookingRequest} {g : BookingSlot → BookingSlot}

theorem Book.slotsOf_map {l : List BookingRequest}
    (hg : ∀ s ∈ b.slots, (g s).bookingRequestId = s.bookingRequestId) (id : Cuid) :
    (Book.mk l (b.slots.map g)).slotsOf id = (b.slotsOf id).map g := by
  unfold slotsOf
  rw [List.filter_map]
  congr 1
  exact List.filter_congr fun s hs ↦ by rw [Function.comp_apply, hg s hs]

/-- The live slots after a change were live before. -/
theorem mem_live_map {l : List BookingSlot} (hg : ∀ s ∈ l, s.Stays (g s)) {s' : BookingSlot}
    (h : s' ∈ live (l.map g)) : ∃ s ∈ live l, s.Stays s' := by
  obtain ⟨hmem, hlive⟩ := mem_live.1 h
  obtain ⟨s, hs, rfl⟩ := List.mem_map.1 hmem
  exact ⟨s, mem_live.2 ⟨hs, (hg s hs).isCancelled hlive⟩, hg s hs⟩

theorem Orderly.map (h : Orderly b) (hid : ∀ r ∈ b.requests, (f r).id = r.id)
    (hg : ∀ s ∈ b.slots, s.Stays (g s))
    (hfiled : ∀ r ∈ b.requests, Filed (f r) ((b.slotsOf r.id).map g)) :
    Orderly ⟨b.requests.map f, b.slots.map g⟩ := by
  have hslots := Book.slotsOf_map (l := b.requests.map f) fun s hs ↦ (hg s hs).bookingRequestId
  refine ⟨?_, fun s' hs' ↦ ?_, fun s' hs' ↦ ?_, fun r' hr' ↦ ?_, fun id ↦ ?_⟩
  · have hids : (b.requests.map f).map BookingRequest.id = b.requests.map BookingRequest.id := by
      rw [List.map_map]
      exact List.map_congr_left fun r hr ↦ hid r hr
    rw [hids]
    exact h.ids
  · obtain ⟨s, hs, rfl⟩ := List.mem_map.1 hs'
    obtain ⟨r, hr, hrs⟩ := h.parent s hs
    exact ⟨f r, List.mem_map_of_mem hr,
      (hid r hr).trans (hrs.trans (hg s hs).bookingRequestId.symm)⟩
  · obtain ⟨s, hs, rfl⟩ := List.mem_map.1 hs'
    obtain ⟨hproper, hcancelled⟩ := h.slot s hs
    obtain ⟨hstart, hend⟩ := SlotSpan.mk.inj (hg s hs).span
    exact ⟨by rwa [hstart, hend], (hg s hs).cancelledAt hcancelled⟩
  · obtain ⟨r, hr, rfl⟩ := List.mem_map.1 hr'
    rw [hslots, hid r hr]
    exact hfiled r hr
  · rw [hslots, List.map_map]
    have hspans : (b.slotsOf id).map (BookingSlot.span ∘ g) = (b.slotsOf id).map BookingSlot.span :=
      List.map_congr_left fun s hs ↦ (hg s (List.mem_filter.1 hs).1).span
    rw [hspans]
    exact h.apart id

/-- What was clear is clear after a change. -/
theorem Book.Clear.map {p a : BookingRequest} {l : List BookingRequest} (h : b.Clear p a)
    (hg : ∀ s ∈ b.slots, s.Stays (g s)) {p' a' : BookingRequest} (hp : p'.id = p.id)
    (ha : a'.id = a.id) (hvp : p'.venueId = p.venueId) (hva : a'.venueId = a.venueId) :
    (Book.mk l (b.slots.map g)).Clear p' a' := by
  have hslots := Book.slotsOf_map (l := l) fun s hs ↦ (hg s hs).bookingRequestId
  have hof : ∀ id, ∀ s ∈ b.slotsOf id, s.Stays (g s) := fun id s hs ↦ hg s (List.mem_filter.1 hs).1
  intro hvenue t ht t' ht'
  rw [hslots] at ht ht'
  obtain ⟨s, hs, hst⟩ := mem_live_map (hof _) ht
  obtain ⟨s', hs', hst'⟩ := mem_live_map (hof _) ht'
  rw [hst.span, hst'.span]
  exact h (hvp.symm.trans (hvenue.trans hva)) s (hp ▸ hs) s' (ha ▸ hs')

end Change

/-! ### Closing pending requests -/

/-- A pending request is rejected or expires. -/
structure BookingRequest.Closes (r r' : BookingRequest) : Prop where
  pending : r.status = .pending
  closed : r'.status = .rejected ∨ r'.status = .expired
  id : r'.id = r.id
  venueId : r'.venueId = r.venueId
  firstStartAt : r'.firstStartAt = r.firstStartAt
  lastEndAt : r'.lastEndAt = r.lastEndAt

theorem Filed.close {r r' : BookingRequest} {l : List BookingSlot} (h : Filed r l)
    (hr : r.Closes r') : Filed r' l := by
  have hst := hr.closed
  refine ⟨fun s hs ↦ (h.venueId s hs).trans hr.venueId.symm, fun _ ↦ h.undecided (.inl hr.pending),
    fun ha ↦ ?_, fun hc ↦ ?_, fun _ ↦ ?_⟩
  · rw [ha] at hst
    rcases hst with hst | hst <;> cases hst
  · rw [hc] at hst
    rcases hst with hst | hst <;> cases hst
  · rw [hr.firstStartAt, hr.lastEndAt]
    exact h.span (by rw [hr.pending]; decide)

/-- Some pending requests are closed, and nothing else is changed. -/
def Closing (f : BookingRequest → BookingRequest) (l : List BookingRequest) : Prop :=
  ∀ r ∈ l, f r = r ∨ r.Closes (f r)

section Closing

variable {b : Book} {f : BookingRequest → BookingRequest} {l : List BookingRequest}
  {r : BookingRequest}

theorem Closing.id (h : Closing f l) (hr : r ∈ l) : (f r).id = r.id := by
  rcases h r hr with he | hc
  · rw [he]
  · exact hc.id

/-- What is not closed by now is as it was. -/
theorem Closing.eq_self (h : Closing f l) (hr : r ∈ l)
    (hst : (f r).status = .pending ∨ (f r).status = .approved) : f r = r := by
  refine (h r hr).resolve_right fun hc ↦ ?_
  rcases hc.closed with hcl | hcl <;> rw [hcl] at hst <;> rcases hst with hst | hst <;> cases hst

theorem Orderly.close (h : Orderly b) (hf : Closing f b.requests) :
    Orderly ⟨b.requests.map f, b.slots⟩ := by
  have := h.map (f := f) (g := fun s ↦ s) (fun r hr ↦ hf.id hr)
    (fun s _ ↦ ⟨rfl, rfl, rfl, fun h ↦ h, fun h ↦ h⟩) fun r hr ↦ ?_
  · rwa [List.map_id'] at this
  · rw [List.map_id']
    rcases hf r hr with he | hc
    · rw [he]
      exact h.filed r hr
    · exact (h.filed r hr).close hc

theorem Ledger.close (h : Ledger b) (hf : Closing f b.requests) :
    Ledger ⟨b.requests.map f, b.slots⟩ := by
  refine ⟨h.toOrderly.close hf, fun p' hp' hpending a' ha' happroved ↦ ?_⟩
  obtain ⟨p, hp, rfl⟩ := List.mem_map.1 hp'
  obtain ⟨a, ha, rfl⟩ := List.mem_map.1 ha'
  have hp₀ := hf.eq_self hp (.inl hpending)
  have ha₀ := hf.eq_self ha (.inr happroved)
  rw [hp₀] at hpending ⊢
  rw [ha₀] at happroved ⊢
  exact h.clear p hp hpending a ha happroved

end Closing

/-! ### New requests -/

theorem spans_of_new {row : BookingRequest} {spans : List SlotSpan} {news : List BookingSlot}
    (h : List.Forall₂ (NewSlot row) spans news) : news.map BookingSlot.span = spans := by
  induction h with
  | nil => rfl
  | cons hm _ ih => rw [List.map_cons, hm.span, ih]

theorem newSlot_of_mem {row : BookingRequest} {spans : List SlotSpan} {news : List BookingSlot}
    (h : List.Forall₂ (NewSlot row) spans news) {s : BookingSlot} (hs : s ∈ news) :
    NewSlot row s.span s ∧ s.span ∈ spans := by
  induction h with
  | nil => cases hs
  | cons hm _ ih =>
    rcases List.mem_cons.1 hs with rfl | hs
    · exact ⟨hm.span ▸ hm, hm.span ▸ List.mem_cons_self⟩
    · exact ⟨(ih hs).1, List.mem_cons_of_mem _ (ih hs).2⟩

section Insert

variable {b : Book} {row : BookingRequest} {spans : List SlotSpan} {news : List BookingSlot}

/-- The slots of the old requests, and those of the new one. -/
theorem slotsOf_insert (h : Orderly b) (hid : ∀ r ∈ b.requests, r.id ≠ row.id)
    (hnews : List.Forall₂ (NewSlot row) spans news) (l : List BookingRequest) (id : Cuid) :
    (Book.mk l (b.slots ++ news)).slotsOf id =
      if id = row.id then news else b.slotsOf id := by
  have hnew : ∀ s ∈ news, s.bookingRequestId = row.id := fun s hs ↦
    (newSlot_of_mem hnews hs).1.bookingRequestId
  unfold Book.slotsOf
  rw [List.filter_append]
  split
  · next he =>
    subst he
    have hold : b.slots.filter (fun s ↦ decide (s.bookingRequestId = row.id)) = [] :=
      List.filter_eq_nil_iff.2 fun s hs ↦ by
        obtain ⟨r, hr, hrs⟩ := h.parent s hs
        have := hid r hr
        rw [hrs] at this
        simpa using this
    rw [hold, List.nil_append]
    exact List.filter_eq_self.2 fun s hs ↦ by simp [hnew s hs]
  · next hne =>
    have hnone : news.filter (fun s ↦ decide (s.bookingRequestId = id)) = [] :=
      List.filter_eq_nil_iff.2 fun s hs ↦ by
        rw [hnew s hs]
        simpa using fun he ↦ hne he.symm
    rw [hnone, List.append_nil]

theorem Orderly.insert (h : Orderly b) (hid : ∀ r ∈ b.requests, r.id ≠ row.id)
    (hnews : List.Forall₂ (NewSlot row) spans news) (hspread : Spread spans)
    (hbounds : spanBounds spans = some (row.firstStartAt, row.lastEndAt))
    (hst : row.status = .pending ∨ row.status = .approved ∧ row.approvedAt.isSome = true ∧
      row.approvedById.isSome = true) :
    Orderly ⟨b.requests ++ [row], b.slots ++ news⟩ := by
  have hslots := slotsOf_insert h hid hnews (b.requests ++ [row])
  have hnew := fun s hs ↦ newSlot_of_mem (s := s) hnews hs
  have hlive : live news = news := List.filter_eq_self.2 fun s hs ↦ by
    simp [(hnew s hs).1.isCancelled]
  have hne : news ≠ [] := fun hnil ↦ by
    have hspans := spans_of_new hnews
    rw [hnil] at hspans
    rw [← hspans] at hbounds
    cases hbounds
  refine ⟨?_, fun s hs ↦ ?_, fun s hs ↦ ?_, fun r hr ↦ ?_, fun id ↦ ?_⟩
  · rw [List.map_append, List.nodup_append]
    refine ⟨h.ids, List.nodup_singleton _, fun i hi j hj ↦ ?_⟩
    obtain ⟨r, hr, rfl⟩ := List.mem_map.1 hi
    rw [List.mem_singleton.1 hj]
    exact hid r hr
  · rcases List.mem_append.1 hs with hs | hs
    · obtain ⟨r, hr, hrs⟩ := h.parent s hs
      exact ⟨r, List.mem_append_left _ hr, hrs⟩
    · exact ⟨row, List.mem_append_right _ List.mem_cons_self, (hnew s hs).1.bookingRequestId.symm⟩
  · rcases List.mem_append.1 hs with hs | hs
    · exact h.slot s hs
    · obtain ⟨hs', hm⟩ := hnew s hs
      exact ⟨hspread.proper _ hm, by rw [hs'.isCancelled, hs'.cancelledAt]; simp⟩
  · rw [hslots]
    rcases List.mem_append.1 hr with hr | hr
    · rw [if_neg (hid r hr)]
      exact h.filed r hr
    · obtain rfl := List.mem_singleton.1 hr
      rw [if_pos rfl]
      refine ⟨fun s hs ↦ (hnew s hs).1.venueId, fun _ ↦ ⟨hne, fun s hs ↦ (hnew s hs).1.isCancelled⟩,
        fun ha ↦ ?_, fun hc ↦ ?_, fun _ ↦ ?_⟩
      · rcases hst with hst | ⟨-, hat, hby⟩
        · rw [hst] at ha
          cases ha
        · exact ⟨hat, hby, by rwa [hlive]⟩
      · rw [hc] at hst
        rcases hst with hst | ⟨hst, -⟩ <;> cases hst
      · rw [hlive, spans_of_new hnews]
        exact hbounds
  · rw [hslots]
    split
    · rw [spans_of_new hnews]
      exact hspread.apart
    · exact h.apart id

end Insert

/-! ### States -/

/-- A state whose book is in order. -/
structure Kept (d : View) : Prop where
  sound : Sound d
  ledger : Ledger (bookOf d)

theorem Kept.congr {d d' : View} (h : Kept d) (hrow : d'.row = d.row) : Kept d' := by
  have hall : ∀ τ, d'.all τ = d.all τ := fun τ ↦ Db.all_congr fun i ↦ by rw [hrow]
  have hbook : bookOf d' = bookOf d := by rw [bookOf, bookOf, hall, hall]
  exact ⟨h.sound.congr hrow, hbook ▸ h.ledger⟩

section States

variable {d d' d₁ d₂ : View} {id : Cuid} {p booking : BookingRequest}

theorem mem_slotsOf {s : BookingSlot} :
    s ∈ (bookOf d).slotsOf id ↔ ∃ s₀ ∈ d.all .slot, s₀.bookingRequestId = id ∧ s₀.bare = s := by
  simp only [Book.slotsOf, bookOf, List.mem_filter, List.mem_map, decide_eq_true_eq]
  constructor
  · rintro ⟨⟨s₀, hs₀, rfl⟩, hid⟩
    exact ⟨s₀, hs₀, hid, rfl⟩
  · rintro ⟨s₀, hs₀, hid, rfl⟩
    exact ⟨⟨s₀, hs₀, rfl⟩, hid⟩

/-- The live spans of a request can be read off the book. -/
theorem liveSpans_eq (d : View) (id : Cuid) :
    liveSpans d id = (live ((bookOf d).slotsOf id)).map BookingSlot.span := by
  simp only [liveSpans, liveSlots, live, Book.slotsOf, bookOf, List.filter_map, List.map_map,
    List.filter_filter]
  congr 1
  exact List.filter_congr fun s _ ↦ Bool.and_comm _ _

theorem mem_findPendingLosers_iff {venueId : Cuid} {spans : List SlotSpan} {exclude : Option Cuid} :
    p ∈ findPendingLosers d venueId spans exclude ↔
      p ∈ d.all .request ∧ p.venueId = venueId ∧ p.status = .pending ∧
        (∀ x ∈ exclude, p.id ≠ x) ∧ ∃ s ∈ d.all .slot, s.bookingRequestId = p.id ∧
          s.isCancelled = false ∧ ∃ m ∈ spans, s.startAt < m.end ∧ m.start < s.endAt := by
  unfold findPendingLosers
  split
  · next hnil => simp [hnil]
  · rw [List.mem_insertionSort, List.mem_filter]
    cases exclude <;> simp [pendingLoserWhere, overlapOr, and_assoc]

theorem venueId_of_slotsOf (hd : Sound d) (hr : d.row .request id = some p) {s : BookingSlot}
    (hs : s ∈ (bookOf d).slotsOf id) : s.venueId = p.venueId := by
  obtain ⟨s₀, hs₀, rfl, rfl⟩ := mem_slotsOf.1 hs
  obtain ⟨j, hj⟩ := Db.mem_all.1 hs₀
  obtain ⟨r, hr', ha⟩ := hd.ok.parent hj
  obtain rfl := Option.some.inj (hr'.symm.trans hr)
  exact ha.venueId

/-- A request that is not among the losers has no slot in the way. -/
theorem apart_of_not_loser {venueId : Cuid} {spans : List SlotSpan} {exclude : Option Cuid}
    (hp : p ∈ d.all .request) (hvenue : p.venueId = venueId) (hst : p.status = .pending)
    (hex : ∀ x ∈ exclude, p.id ≠ x) (hno : p ∉ findPendingLosers d venueId spans exclude)
    {s : BookingSlot} (hs : s ∈ live ((bookOf d).slotsOf p.id)) {m : SlotSpan} (hm : m ∈ spans) :
    s.span.Apart m := by
  obtain ⟨hmem, hlive⟩ := mem_live.1 hs
  obtain ⟨s₀, hs₀, hid, rfl⟩ := mem_slotsOf.1 hmem
  by_contra hmeet
  refine hno (mem_findPendingLosers_iff.2 ⟨hp, hvenue, hst, hex, s₀, hs₀, hid, hlive, m, hm, ?_⟩)
  simp only [SlotSpan.Apart, BookingSlot.span, BookingSlot.bare] at hmeet
  omega

/-- Spans that meet no held slot lie apart from the slots of the approved requests. -/
theorem apart_of_free (hd : Sound d) {venueId : Cuid} {m : SlotSpan}
    (hfree : ¬ Met d venueId none m)
    (hp : p ∈ d.all .request) (hst : p.status = .approved) (hvenue : p.venueId = venueId)
    {s : BookingSlot} (hs : s ∈ live ((bookOf d).slotsOf p.id)) : m.Apart s.span := by
  obtain ⟨hmem, hlive⟩ := mem_live.1 hs
  obtain ⟨s₀, hs₀, hid, rfl⟩ := mem_slotsOf.1 hmem
  obtain ⟨j, hj⟩ := Db.mem_all.1 hs₀
  by_contra hmeet
  obtain ⟨r, hr, ha⟩ := hd.ok.parent hj
  have hrow := hd.mem_request.1 hp
  rw [← hid, hr] at hrow
  obtain rfl := Option.some.inj hrow
  refine hfree ⟨j, s₀, r, hj, hlive, ha.venueId.trans hvenue, fun _ h ↦ (nomatch h), hr, hst, ?_⟩
  simp only [SlotSpan.Apart, BookingSlot.span, BookingSlot.bare] at hmeet
  omega

/-- Requests with one id are one. -/
theorem Orderly.eq_of_id {b : Book} (h : Orderly b) {r r' : BookingRequest} (hr : r ∈ b.requests)
    (hr' : r' ∈ b.requests) (hid : r.id = r'.id) : r = r' :=
  List.inj_on_of_nodup_map h.ids hr hr' hid

theorem closing_withLosers (losers : List BookingRequest) (c : ℤ) (l : List BookingRequest) :
    Closing (withLosers losers c) l := fun r _ ↦ by
  unfold withLosers
  split
  · next h => exact .inr ⟨h.2, .inl rfl, rfl, rfl, rfl, rfl⟩
  · exact .inl rfl

/-- A loser is rejected, and whoever is pending after that was no loser. -/
theorem not_loser_of_pending {losers : List BookingRequest} {c : ℤ}
    (hst : (withLosers losers c p).status = .pending) : withLosers losers c p = p ∧ p ∉ losers := by
  have hself := (closing_withLosers losers c [p]).eq_self (List.mem_singleton_self p) (.inl hst)
  refine ⟨hself, fun hmem ↦ ?_⟩
  rw [hself] at hst
  have hrejected : withLosers losers c p = rejectedBy c p :=
    if_pos ⟨List.mem_map_of_mem hmem, hst⟩
  rw [← hself, hrejected] at hst
  cases hst

/-! ### What every transaction keeps -/

theorem RequestsBecome.book {f : BookingRequest → BookingRequest} (h : RequestsBecome d f d') :
    bookOf d' = ⟨(bookOf d).requests.map f, (bookOf d).slots⟩ := by
  rw [bookOf, h.all_request, h.all_slot]
  rfl

/-- Pending requests are closed. -/
theorem Kept.close (h : Kept d) {f : BookingRequest → BookingRequest}
    (hbecome : RequestsBecome d f d') (hf : Closing f (d.all .request)) : Kept d' :=
  ⟨hbecome.sound, hbecome.book ▸ h.ledger.close hf⟩

/-- **Approving.** The slots of the request are clear of what is approved, because it was pending,
and clear of what is left pending, because the losers are not. -/
theorem Kept.approve (h : Kept d) {actor : Actor} {reply : Reply}
    (ha : Approves d id actor reply d') : Kept d' := by
  obtain ⟨hpasses, -, booking, now, c, c', hrow, hbecome⟩ := ha
  have hmem : booking ∈ (bookOf d).requests := Db.mem_all.2 ⟨id, hrow⟩
  have hid : booking.id = id := h.sound.ok.request_id hrow
  have hpending : booking.status = .pending := by
    by_contra hst
    simp [approveRefusal, hrow, hst] at hpasses
  -- The approval first and then the losers: two updates of the ledger.
  set losers := findPendingLosers d booking.venueId (liveSpans d id) (some id) with hlosers
  set flip : BookingRequest → BookingRequest :=
    fun r ↦ if r.id = id then approvedBy actor now c r else r with hflip
  have hother : ∀ r, r.id ≠ id → flip r = r := fun r hr ↦ if_neg hr
  have hself : flip booking = approvedBy actor now c booking := if_pos hid
  have horderly : Orderly ⟨(bookOf d).requests.map flip, (bookOf d).slots.map fun s ↦ s⟩ := by
    refine h.ledger.map (fun r _ ↦ ?_) (fun s _ ↦ ⟨rfl, rfl, rfl, fun h ↦ h, fun h ↦ h⟩)
      fun r hr ↦ ?_
    · simp only [hflip]
      split <;> rfl
    · rw [List.map_id']
      have hfiled := h.ledger.filed r hr
      by_cases hri : r.id = id
      · obtain rfl := h.ledger.eq_of_id hr hmem (hri.trans hid.symm)
        -- The approved request has its live slots, all of them.
        rw [hself]
        obtain ⟨hne, hlive⟩ := hfiled.undecided (.inl hpending)
        have hall : live ((bookOf d).slotsOf r.id) = (bookOf d).slotsOf r.id :=
          List.filter_eq_self.2 fun s hs ↦ by simp [hlive s hs]
        refine ⟨hfiled.venueId, fun hst ↦ ?_, fun _ ↦ ⟨rfl, rfl, by rwa [hall]⟩, fun hst ↦ ?_,
          fun _ ↦ hfiled.span (by rw [hpending]; decide)⟩
        · rcases hst with hst | hst | hst <;> cases hst
        · cases hst
      · rw [hother r hri]
        exact hfiled
  have hbook : bookOf d' = ⟨((bookOf d).requests.map flip).map (withLosers losers c'),
      (bookOf d).slots⟩ := by
    rw [hbecome.book, List.map_map]
    rfl
  rw [List.map_id'] at horderly
  refine ⟨hbecome.sound, hbook ▸ ⟨horderly.close (closing_withLosers losers c' _),
    fun p' hp' hst' a' ha' hst'' ↦ ?_⟩⟩
  -- A request that is still PENDING is no loser, and meets no slot of an approved one.
  obtain ⟨p₁, hp₁, rfl⟩ := List.mem_map.1 hp'
  obtain ⟨p, hp, rfl⟩ := List.mem_map.1 hp₁
  obtain ⟨a₁, ha₁, rfl⟩ := List.mem_map.1 ha'
  obtain ⟨a, ha, rfl⟩ := List.mem_map.1 ha₁
  obtain ⟨hpself, hno⟩ := not_loser_of_pending hst'
  rw [hpself] at hst' ⊢
  have haself := (closing_withLosers losers c' [flip a]).eq_self (List.mem_singleton_self _)
    (.inr hst'')
  rw [haself] at hst'' ⊢
  have hpid : p.id ≠ id := fun hpi ↦ by
    rw [show flip p = approvedBy actor now c p from if_pos hpi] at hst'
    cases hst'
  rw [hother p hpid] at hst' hno ⊢
  -- Against the request just approved it would have been a loser, against another it was free
  -- before.
  by_cases hai : a.id = id
  · obtain rfl := h.ledger.eq_of_id ha hmem (hai.trans hid.symm)
    rw [hself]
    intro hvenue s hs s' hs'
    refine apart_of_not_loser hp hvenue hst' (fun x hx ↦ ?_) hno hs ?_
    · rw [← Option.some.inj hx]
      exact hpid
    · rw [liveSpans_eq, ← hid]
      exact List.mem_map_of_mem hs'
  · rw [hother a hai] at hst'' ⊢
    exact h.ledger.clear p hp hst' a ha hst''

/-! ### New bookings -/

theorem NewSlot.bare {row : BookingRequest} {m : SlotSpan} {s : BookingSlot} (h : NewSlot row m s) :
    NewSlot row m s.bare :=
  ⟨h.bookingRequestId, h.venueId, h.span, h.isCancelled, h.cancelledAt⟩

/-- **A new booking**, whose spans are clear of what is approved; and of what is pending after `f`,
if it is approved itself. -/
theorem Kept.books (h : Kept d) {row : BookingRequest} {spans : List SlotSpan}
    {f : BookingRequest → BookingRequest} (hb : Books row spans f d d') (hspread : Spread spans)
    (hst : row.status = .pending ∨ row.status = .approved ∧ row.approvedAt.isSome = true ∧
      row.approvedById.isSome = true)
    (hf : Closing f (d.all .request ++ [row])) (hrow : f row = row)
    (hfree : ∀ m ∈ spans, ¬ Met d row.venueId none m)
    (hpending : row.status = .approved → ∀ p ∈ d.all .request, (f p).status = .pending →
      p.venueId = row.venueId → ∀ s ∈ live ((bookOf d).slotsOf p.id), ∀ m ∈ spans, s.span.Apart m) :
    Kept d' := by
  obtain ⟨hsound, hid, hbounds, hreq, news, hall, hnews⟩ := hb
  have hfresh : ∀ r ∈ (bookOf d).requests, r.id ≠ row.id := fun r hr he ↦ by
    have hlt := Db.lt_next (h.sound.mem_request.1 hr)
    rw [he, hid] at hlt
    exact lt_irrefl _ hlt
  have hbare : List.Forall₂ (NewSlot row) spans (news.map BookingSlot.bare) := by
    rw [List.forall₂_map_right_iff]
    exact hnews.imp fun _ _ h ↦ h.bare
  have hbook : bookOf d' = ⟨((bookOf d).requests ++ [row]).map f,
      (bookOf d).slots ++ news.map BookingSlot.bare⟩ := by
    rw [bookOf, hreq, hall]
    congr 1
    exact List.map_append
  have horderly := h.ledger.toOrderly.insert hfresh hbare hspread hbounds hst
  refine ⟨hsound, hbook ▸ ⟨horderly.close hf, fun p' hp' hst' a' ha' hst'' ↦ ?_⟩⟩
  have hslots :=
    slotsOf_insert h.ledger.toOrderly hfresh hbare (((bookOf d).requests ++ [row]).map f)
  obtain ⟨p, hp, rfl⟩ := List.mem_map.1 hp'
  obtain ⟨a, ha, rfl⟩ := List.mem_map.1 ha'
  have hpself := hf.eq_self hp (.inl hst')
  have haself := hf.eq_self ha (.inr hst'')
  have hpst := hst'
  rw [hpself] at hst' ⊢
  rw [haself] at hst'' ⊢
  intro hvenue s hs s' hs'
  rw [hslots] at hs hs'
  have hspan : ∀ {s}, s ∈ live (news.map BookingSlot.bare) → s.span ∈ spans := fun hs ↦
    (newSlot_of_mem hbare (mem_live.1 hs).1).2
  rcases List.mem_append.1 hp with hp₀ | hp₀ <;> rcases List.mem_append.1 ha with ha₀ | ha₀
  · rw [if_neg (hfresh p hp₀)] at hs
    rw [if_neg (hfresh a ha₀)] at hs'
    exact h.ledger.clear p hp₀ hst' a ha₀ hst'' hvenue s hs s' hs'
  · obtain rfl := List.mem_singleton.1 ha₀
    rw [if_neg (hfresh p hp₀)] at hs
    rw [if_pos rfl] at hs'
    exact hpending hst'' p hp₀ hpst hvenue s hs _ (hspan hs')
  · obtain rfl := List.mem_singleton.1 hp₀
    rw [if_pos rfl] at hs
    rw [if_neg (hfresh a ha₀)] at hs'
    exact apart_of_free h.sound (hfree _ (hspan hs)) ha₀ hst'' hvenue.symm hs'
  · obtain rfl := List.mem_singleton.1 hp₀
    obtain rfl := List.mem_singleton.1 ha₀
    rw [hst'] at hst''
    cases hst''

theorem Kept.submit (h : Kept d) {venueId lineUserId : Cuid} {spans : List SlotSpan}
    (hspread : Spread spans) (hs : Submits d venueId lineUserId spans d') : Kept d' := by
  obtain ⟨hfree, row, rfl, -, hst, hbooks⟩ := hs
  exact h.books hbooks hspread (.inl hst) (fun _ _ ↦ .inl rfl) rfl hfree fun ha ↦ by
    rw [hst] at ha
    cases ha

theorem Kept.direct (h : Kept d) {dto : CreateDirectBookingDto} {venueId : Cuid} {actor : Actor}
    {spans : List SlotSpan} {reply : Reply} (hspread : Spread spans)
    (hs : Directs d dto venueId actor spans reply d') : Kept d' := by
  obtain ⟨-, hfree, row, c, ⟨rfl, hst, -, hby, hat, -⟩, hbooks⟩ := hs
  have hrow : withLosers (findPendingLosers d row.venueId spans none) c row = row :=
    if_neg fun ⟨_, hp⟩ ↦ by
      rw [hst] at hp
      cases hp
  refine h.books hbooks hspread (.inr ⟨hst, hat, by rw [hby]; rfl⟩)
    (closing_withLosers _ _ _) hrow hfree fun _ p hp hpst hvenue s hs m hm ↦ ?_
  obtain ⟨hself, hno⟩ := not_loser_of_pending hpst
  rw [hself] at hpst
  exact apart_of_not_loser hp hvenue hpst (by simp) hno hs hm

/-! ### Cancelling -/

/-- A slot after an update. -/
def setSlot (ch : BookingSlot → Option BookingSlot) (s : BookingSlot) : BookingSlot :=
  ((ch s).getD s).bare

/-- An update of the slots of `d` cancels live ones of request `id` and does nothing else. -/
structure CancelsSlots (d : View) (id : Cuid) (ch : BookingSlot → Option BookingSlot) : Prop where
  bare : ∀ s : BookingSlot, setSlot ch s.bare = setSlot ch s
  stays : ∀ s : BookingSlot, s.Stays (setSlot ch s)
  only : ∀ s ∈ d.all .slot, BookingSlot.bookingRequestId s ≠ id → setSlot ch s = BookingSlot.bare s

theorem SlotsSet.all_slot {ch : BookingSlot → Option BookingSlot} (h : SlotsSet d ch d')
    (hbare : ∀ s : BookingSlot, setSlot ch s.bare = setSlot ch s) :
    (d'.all .slot).map BookingSlot.bare =
      ((d.all .slot).map BookingSlot.bare).map (setSlot ch) := by
  have hall : ∀ (d : View) (g : BookingSlot → BookingSlot), (d.mapRows .slot g).all .slot =
      (d.all .slot).map g := fun d g ↦ Db.all_mapRows
  rw [List.map_map, ← hall, ← hall]
  refine Db.all_congr fun j ↦ ?_
  rw [Db.mapRows_row_self, Db.mapRows_row_self]
  refine (h.slot j).trans (Option.map_congr fun s _ ↦ ?_)
  exact (hbare s).symm

/-- The live spans after a cancellation. -/
theorem SlotsSet.liveSpans {ch : BookingSlot → Option BookingSlot} (h : SlotsSet d ch d')
    (hch : CancelsSlots d id ch) : liveSpans d' id = ((d.all .slot).filter fun s ↦
      decide (s.bookingRequestId = id) && !(setSlot ch s).isCancelled).map BookingSlot.span := by
  have hslots : (bookOf d').slots = (d.all .slot).map (setSlot ch) := by
    rw [bookOf, h.all_slot hch.bare, List.map_map]
    exact List.map_congr_left fun s _ ↦ hch.bare s
  rw [liveSpans_eq, live, Book.slotsOf, hslots, List.filter_map, List.filter_map, List.map_map,
    List.filter_filter]
  have hspan : ∀ l : List BookingSlot,
      l.map (BookingSlot.span ∘ setSlot ch) = l.map BookingSlot.span := fun l ↦
    List.map_congr_left fun s _ ↦ (hch.stays s).span
  rw [hspan]
  congr 1
  refine List.filter_congr fun s _ ↦ ?_
  rw [Function.comp_apply, Function.comp_apply, (hch.stays s).bookingRequestId, Bool.and_comm]

/-- **One approved or pending request changes**, with its slots: it is not pending any more, and
approved only if it was. -/
theorem Kept.change (h : Kept d) (hsound : Sound d') {f : BookingRequest → BookingRequest}
    {ch : BookingSlot → Option BookingSlot} (hch : CancelsSlots d id ch)
    (hreq : d'.all .request = (d.all .request).map f)
    (hslot : (d'.all .slot).map BookingSlot.bare =
      ((d.all .slot).map BookingSlot.bare).map (setSlot ch))
    (hrow : d.row .request id = some booking) (hother : ∀ r, r.id ≠ id → f r = r)
    (hid : (f booking).id = id) (hvenue : (f booking).venueId = booking.venueId)
    (hnot : (f booking).status ≠ .pending)
    (hst : (f booking).status = .approved → booking.status = .approved)
    (hfiled : Filed (f booking) ((bookOf d').slotsOf id)) : Kept d' := by
  have hmem : booking ∈ (bookOf d).requests := Db.mem_all.2 ⟨id, hrow⟩
  have hbid : booking.id = id := h.sound.ok.request_id hrow
  have hbook : bookOf d' = ⟨(bookOf d).requests.map f, (bookOf d).slots.map (setSlot ch)⟩ := by
    rw [bookOf, hreq, hslot]
    rfl
  have hslots := Book.slotsOf_map (b := bookOf d) (g := setSlot ch) (l := (bookOf d).requests.map f)
    fun s _ ↦ (hch.stays s).bookingRequestId
  have hcases : ∀ r ∈ (bookOf d).requests, r = booking ∨ r.id ≠ id ∧ f r = r := fun r hr ↦ by
    by_cases hri : r.id = id
    · exact .inl (h.ledger.eq_of_id hr hmem (hri.trans hbid.symm))
    · exact .inr ⟨hri, hother r hri⟩
  have hfid : ∀ r ∈ (bookOf d).requests, (f r).id = r.id := fun r hr ↦ by
    rcases hcases r hr with rfl | ⟨-, he⟩
    · rw [hid, hbid]
    · rw [he]
  refine ⟨hsound, hbook ▸ ⟨h.ledger.map hfid (fun s _ ↦ hch.stays s) fun r hr ↦ ?_,
    fun p' hp' hst' a' ha' hst'' ↦ ?_⟩⟩
  · rcases hcases r hr with rfl | ⟨hri, he⟩
    · rwa [hbid, ← hslots, ← hbook]
    · -- the slots of the others are left alone
      have hself : ((bookOf d).slotsOf r.id).map (setSlot ch) = (bookOf d).slotsOf r.id := by
        refine (List.map_congr_left fun s hs ↦ ?_).trans (List.map_id' _)
        obtain ⟨s₀, hmem₀, hs₀, rfl⟩ := mem_slotsOf.1 hs
        exact (hch.bare s₀).trans (hch.only s₀ hmem₀ (by rwa [hs₀]))
      rw [hself, he]
      exact h.ledger.filed r hr
  · obtain ⟨p, hp, rfl⟩ := List.mem_map.1 hp'
    obtain ⟨a, ha, rfl⟩ := List.mem_map.1 ha'
    have hp₁ := (hcases p hp).resolve_left fun he ↦ hnot (he ▸ hst')
    have hast : a.status = .approved ∧ (f a).venueId = a.venueId := by
      rcases hcases a ha with rfl | ⟨-, he⟩
      · exact ⟨hst hst'', hvenue⟩
      · rw [he] at hst'' ⊢
        exact ⟨hst'', rfl⟩
    rw [hp₁.2] at hst'
    exact (h.ledger.clear p hp hst' a ha hast.1).map (fun s _ ↦ hch.stays s) (hfid p hp)
      (hfid a ha) (by rw [hp₁.2]) hast.2

/-- **Dropping slots** of an approved request: what remains makes its bounds, and the last slot
takes the request with it. -/
theorem Kept.cancelSlots (h : Kept d) {ch : BookingSlot → Option BookingSlot}
    (hch : CancelsSlots d id ch) (hset : SlotsSet d ch d₁) (hrow : d.row .request id = some booking)
    (hst : booking.status = .approved) {remaining : List BookingSlot} {c : ℤ}
    (hremaining : remaining.map BookingSlot.span = liveSpans d₁ id)
    (hbecome : RequestsBecome d₁ (fun r ↦ if r.id = id then cancelledRequest remaining c r else r)
      d₂) : Kept d₂ := by
  have hbid : booking.id = id := h.sound.ok.request_id hrow
  have hmem : booking ∈ (bookOf d).requests := Db.mem_all.2 ⟨id, hrow⟩
  have hreq₁ : d₁.all .request = d.all .request := Db.all_congr fun i ↦ by rw [hset.request]
  have hslot : (d₂.all .slot).map BookingSlot.bare =
      ((d.all .slot).map BookingSlot.bare).map (setSlot ch) :=
    hbecome.all_slot.trans (hset.all_slot hch.bare)
  -- The live slots that are left are those the call has read back.
  have hspans : (live ((bookOf d₂).slotsOf id)).map BookingSlot.span =
      remaining.map BookingSlot.span := by
    rw [hremaining, liveSpans_eq, hbecome.book]
    rfl
  have hrow₂ : d₂.row .request id = some (cancelledRequest remaining c booking) := by
    rw [hbecome.request, hset.request, hrow, Option.map_some, if_pos hbid]
  have hf : (if booking.id = id then cancelledRequest remaining c booking else booking) =
      cancelledRequest remaining c booking := if_pos hbid
  have hfiled : Filed (cancelledRequest remaining c booking) ((bookOf d₂).slotsOf id) ∧
      (cancelledRequest remaining c booking).id = id ∧
      (cancelledRequest remaining c booking).venueId = booking.venueId ∧
      (cancelledRequest remaining c booking).status ≠ .pending := by
    have hvenue := fun s ↦ venueId_of_slotsOf hbecome.sound hrow₂ (s := s)
    unfold cancelledRequest at hvenue ⊢
    -- Without one left the request is CANCELLED, and otherwise its span is that of the rest.
    cases hbounds : spanBounds (remaining.map BookingSlot.span) with
    | none =>
      rw [hbounds] at hvenue
      have hnil : live ((bookOf d₂).slotsOf id) = [] := by
        rw [spanBounds_eq_none, ← hspans] at hbounds
        exact List.map_eq_nil_iff.1 hbounds
      refine ⟨⟨hvenue, fun hst ↦ ?_, fun hst ↦ (nomatch hst), fun _ ↦ hnil,
        fun hst ↦ absurd rfl hst⟩, hbid, rfl, fun h ↦ (nomatch h)⟩
      rcases hst with hst | hst | hst <;> cases hst
    | some bounds =>
      obtain ⟨first, last⟩ := bounds
      rw [hbounds] at hvenue
      have hfiled := h.ledger.filed booking hmem
      obtain ⟨hat, hby, -⟩ := hfiled.approved hst
      refine ⟨⟨hvenue, fun hst' ↦ ?_, fun _ ↦ ⟨hat, hby, fun hnil ↦ ?_⟩, fun hst' ↦ ?_, fun _ ↦ ?_⟩,
        hbid, rfl, ?_⟩
      · have hst' : booking.status = .pending ∨ booking.status = .rejected ∨
            booking.status = .expired := hst'
        rw [hst] at hst'
        rcases hst' with hst' | hst' | hst' <;> cases hst'
      · rw [← hspans, hnil] at hbounds
        cases hbounds
      · exact absurd (hst.symm.trans hst') (by decide)
      · rw [hspans]
        exact hbounds
      · show booking.status ≠ .pending
        rw [hst]
        decide
  refine h.change hbecome.sound hch (hbecome.all_request.trans (by rw [hreq₁])) hslot hrow
    (fun r hr ↦ if_neg hr) ?_ ?_ ?_ (fun _ ↦ hst) ?_ <;> rw [hf]
  · exact hfiled.2.1
  · exact hfiled.2.2.1
  · exact hfiled.2.2.2
  · exact hfiled.1

/-- **Withdrawing** a pending request, with all of its slots. -/
theorem Kept.withdraw (h : Kept d) {ch : BookingSlot → Option BookingSlot} {c : ℤ}
    (hch : CancelsSlots d id ch) (hrow : d.row .request id = some booking)
    (hbecome : RequestsBecome d
      (fun r ↦ if r.id = id then { r with status := .cancelled, updatedAt := c } else r) d₁)
    (hset : SlotsSet d₁ ch d₂)
    (hall : ∀ s, s.bookingRequestId = id → (setSlot ch s).isCancelled = true) : Kept d₂ := by
  have hbid : booking.id = id := h.sound.ok.request_id hrow
  have hrow₂ : d₂.row .request id = some { booking with status := .cancelled, updatedAt := c } := by
    rw [hset.request, hbecome.request, hrow, Option.map_some, if_pos hbid]
  have hslot : (d₂.all .slot).map BookingSlot.bare =
      ((d.all .slot).map BookingSlot.bare).map (setSlot ch) := by
    rw [hset.all_slot hch.bare, hbecome.all_slot]
  have hreq : d₂.all .request = (d.all .request).map fun r ↦
      if r.id = id then { r with status := .cancelled, updatedAt := c } else r := by
    rw [← hbecome.all_request]
    exact Db.all_congr fun i ↦ by rw [hset.request]
  have hf : (if booking.id = id
      then { booking with status := BookingStatus.cancelled, updatedAt := c }
      else booking) = { booking with status := .cancelled, updatedAt := c } := if_pos hbid
  refine h.change hset.sound hch hreq hslot hrow (fun r hr ↦ if_neg hr) ?_ ?_ ?_ ?_ ?_ <;> rw [hf]
  · exact hbid
  · exact fun hst ↦ (nomatch hst)
  · exact fun hst ↦ (nomatch hst)
  · refine ⟨fun s ↦ venueId_of_slotsOf hset.sound hrow₂, fun hst ↦ ?_, fun hst ↦ (nomatch hst),
      fun _ ↦ ?_, fun hst ↦ absurd rfl hst⟩
    · rcases hst with hst | hst | hst <;> cases hst
    · refine List.filter_eq_nil_iff.2 fun s hs ↦ ?_
      obtain ⟨s₀, hs₀, hid, rfl⟩ := mem_slotsOf.1 hs
      have hmem : s₀.bare ∈ ((d.all .slot).map BookingSlot.bare).map (setSlot ch) := by
        rw [← hslot]
        exact List.mem_map_of_mem hs₀
      obtain ⟨s₁, -, he⟩ := List.mem_map.1 hmem
      have hparent : s₁.bookingRequestId = id := by
        rw [← (hch.stays s₁).bookingRequestId, he]
        exact hid
      rw [← he, hall s₁ hparent]
      simp

end States

end EasyBook

import EasyBook.Bookings.Statements

/-!
# The span of a request

A request carries the first start and the last end of its live slots, and the request whose last
slot is gone is `CANCELLED`. No constraint ties the two tables together. `Whole` says when a
transaction has written slots and requests so that the law holds in its view; if every transaction
commits whole, the law holds in the committed state (`Spans.commit`), and what a transaction knows
about a request it has written is out of reach of the others (`slot_seen_iff_of_rely`).

The two cancellations are whole only if what they read is fresh when they write it (`FreshRead`).
-/

namespace EasyBook

open ReadCommitted

/-! ### Bounds -/

theorem spanBounds_eq_some {l : List SlotSpan} {a b : ℤ} :
    spanBounds l = some (a, b) ↔
      ((∃ m ∈ l, m.start = a) ∧ ∀ m ∈ l, a ≤ m.start) ∧
        (∃ m ∈ l, m.end = b) ∧ ∀ m ∈ l, m.end ≤ b := by
  have hmin : (l.map SlotSpan.start).min? = some a ↔
      (∃ m ∈ l, m.start = a) ∧ ∀ m ∈ l, a ≤ m.start := by
    rw [List.min?_eq_some_iff]
    simp
  have hmax : (l.map SlotSpan.end).max? = some b ↔
      (∃ m ∈ l, m.end = b) ∧ ∀ m ∈ l, m.end ≤ b := by
    rw [List.max?_eq_some_iff]
    simp
  rw [← hmin, ← hmax, spanBounds]
  split
  · next h h' => simp [h, h']
  · next hn =>
    refine ⟨fun h ↦ (nomatch h), fun ⟨h, h'⟩ ↦ absurd h' (hn a b h)⟩

theorem spanBounds_eq_none {l : List SlotSpan} : spanBounds l = none ↔ l = [] := by
  cases l with
  | nil => simp [spanBounds]
  | cons m l => simp [spanBounds, List.min?_cons, List.max?_cons]

/-- Only which spans there are counts. -/
theorem spanBounds_congr {l l' : List SlotSpan} (h : ∀ m, m ∈ l ↔ m ∈ l') :
    spanBounds l = spanBounds l' := by
  rcases hb : spanBounds l with - | ⟨a, b⟩
  · rw [spanBounds_eq_none] at hb
    subst hb
    refine (spanBounds_eq_none.2 (List.eq_nil_iff_forall_not_mem.2 fun m hm ↦ ?_)).symm
    exact absurd ((h m).2 hm) (by simp)
  · rw [spanBounds_eq_some] at hb
    refine (spanBounds_eq_some.2 ?_).symm
    simpa only [h] using hb

/-- The spans of the live slots of a request. -/
def liveSpans (d : View) (i : Cuid) : List SlotSpan := (liveSlots d i).map BookingSlot.span

theorem mem_liveSlots {d : View} {i : Cuid} {s : BookingSlot} :
    s ∈ liveSlots d i ↔
      (∃ j, d.row .slot j = some s) ∧ s.bookingRequestId = i ∧ s.isCancelled = false := by
  simp [liveSlots, Db.mem_all]

theorem mem_liveSpans {d : View} {i : Cuid} {m : SlotSpan} :
    m ∈ liveSpans d i ↔ ∃ j s, d.row .slot j = some s ∧ s.bookingRequestId = i ∧
      s.isCancelled = false ∧ s.span = m := by
  simp only [liveSpans, List.mem_map, mem_liveSlots]
  constructor
  · rintro ⟨s, ⟨⟨j, hj⟩, hp, hl⟩, hm⟩
    exact ⟨j, s, hj, hp, hl, hm⟩
  · rintro ⟨j, s, hj, hp, hl, hm⟩
    exact ⟨s, ⟨⟨j, hj⟩, hp, hl⟩, hm⟩

/-! ### The law -/

/-- Request `i` carries the bounds of its live slots, unless it is cancelled. -/
def SpanOk (d : View) (i : Cuid) : Prop :=
  ∀ r, d.row .request i = some r → r.status ≠ .cancelled →
    spanBounds (liveSpans d i) = some (r.firstStartAt, r.lastEndAt)

theorem SpanOk.congr {d d' : View} {i : Cuid} (h : SpanOk d i)
    (hrow : d'.row .request i = d.row .request i)
    (hslot : ∀ j s, s.bookingRequestId = i →
      (d'.row .slot j = some s ↔ d.row .slot j = some s)) : SpanOk d' i := by
  intro r hr hc
  rw [← h r (hrow ▸ hr) hc]
  refine spanBounds_congr fun m ↦ ?_
  simp only [mem_liveSpans]
  refine exists_congr fun j ↦ exists_congr fun s ↦ ⟨fun ⟨hj, hp, h⟩ ↦ ?_, fun ⟨hj, hp, h⟩ ↦ ?_⟩
  · exact ⟨(hslot j s hp).1 hj, hp, h⟩
  · exact ⟨(hslot j s hp).2 hj, hp, h⟩

/-- The law holds of everything committed. -/
def Spans (σ : BookingStore) : Prop := ∀ i, SpanOk σ.committed i

/-- What `t` has written is whole: each slot together with its parent, and the law holds of each
request. -/
structure Whole (t : ℕ) (σ : BookingStore) : Prop where
  parent : ∀ {j s}, (σ.cell .slot j).ownedBy t → (σ.cell .slot j).seen (some t) = some s →
    (σ.cell .request (BookingSlot.bookingRequestId s)).ownedBy t
  spanOk : ∀ {i}, (σ.cell .request i).ownedBy t → SpanOk (σ.view (some t)) i

/-- When a bulk statement rewrites an approved request, the bounds of the slots that the last query
saw live and `t` has not written since are those of the slots that are live now. -/
def FreshRead (t : ℕ) (reads : List View) (σ : BookingStore) :
    ∀ τ, (Row τ → Option (Option (Row τ))) → Prop
  | .request, ch => ∀ i r, (σ.cell .request i).seen (some t) = some r → r.status = .approved →
      ch r ≠ none → ∀ d rest, reads = d :: rest →
        spanBounds (((liveSlots d i).filter fun s ↦
          decide (¬ (σ.cell .slot s.id).ownedBy t)).map BookingSlot.span) =
        spanBounds (liveSpans (σ.view (some t)) i)
  | .slot, _ => True

instance (t : ℕ) (reads : List View) (σ : BookingStore) (τ : Tab)
    (ch : Row τ → Option (Option (Row τ))) : Decidable (FreshRead t reads σ τ ch) :=
  match τ, ch with
  | .slot, _ => .isTrue trivial
  | .request, ch =>
    decidable_of_iff (∀ i ∈ List.range σ.next, ∀ r ∈ (σ.cell .request i).seen (some t),
        BookingRequest.status r = .approved → ch r ≠ none → ∀ d ∈ reads.head?,
          spanBounds (((liveSlots d i).filter fun s ↦
            decide (¬ (σ.cell .slot s.id).ownedBy t)).map BookingSlot.span) =
          spanBounds (liveSpans (σ.view (some t)) i)) <| by
      refine ⟨fun h i r hr hst hc d rest hd ↦ ?_, fun h i _ r hr hst hc d hd ↦ ?_⟩
      · have hlt : i < σ.next := Db.lt_next (d := σ.view (some t)) hr
        exact h i (List.mem_range.2 hlt) r hr hst hc d (by rw [hd]; rfl)
      · obtain ⟨rest, hreads⟩ := List.head?_eq_some_iff.1 hd
        exact h i r hr hst hc d rest hreads

variable {σ σ' : BookingStore} {t : ℕ}

theorem spans_of_committed_eq (h : Spans σ) (he : ∀ τ i, (σ'.cell τ i).committed =
    (σ.cell τ i).committed) : Spans σ' := fun i ↦ by
  have hrow : ∀ τ i, σ'.committed.row τ i = σ.committed.row τ i := fun τ i ↦
    (Cell.seen_none _).trans ((he τ i).trans (Cell.seen_none _).symm)
  exact (h i).congr (hrow .request i) fun j s _ ↦ by rw [hrow]

namespace Whole

/-- A transaction that wrote nothing is whole. -/
theorem of_clean (h : σ.Clean t) : Whole t σ :=
  ⟨fun ho _ ↦ absurd ho (h _ _), fun ho ↦ absurd ho (h _ _)⟩

/-- The law holds in the whole view of a transaction that is whole. -/
theorem spanOk_view (h : Whole t σ) (hσ : Integrity σ) (hs : Spans σ) (i : Cuid) :
    SpanOk (σ.view (some t)) i := by
  by_cases ho : (σ.cell .request i).ownedBy t
  · exact h.spanOk ho
  refine (hs i).congr ?_ fun j s hp ↦ ?_
  · rw [Store.view_row, Cell.seen_of_not_ownedBy ho]
    exact (Cell.seen_none _).symm
  · have hno : (σ.cell .slot j).ownedBy t → (σ.cell .slot j).seen (some t) ≠ some s :=
      fun hj hs ↦ ho (hp ▸ h.parent hj hs)
    have hcom : σ.committed.row .slot j = (σ.cell .slot j).committed := Cell.seen_none _
    rw [Store.view_row, hcom]
    by_cases hj : (σ.cell .slot j).ownedBy t
    · refine ⟨fun hs ↦ absurd hs (hno hj), fun hs ↦ ?_⟩
      obtain ⟨s', hs', hf⟩ := hσ.slot_seen (v := some t) hs
      exact absurd (h.parent hj hs') (by rw [hf.bookingRequestId, hp]; exact ho)
    · rw [Cell.seen_of_not_ownedBy hj]

end Whole

theorem Spans.commit (hs : Spans σ) (hσ : Integrity σ) (h : Whole t σ) : Spans (σ.commit t) := by
  intro i
  have hview : (σ.commit t).committed = σ.view (some t) := Store.committed_commit σ t
  rw [hview]
  exact h.spanOk_view hσ hs i

/-! ### Out of reach of the others -/

section Rely

variable {C : Contract Row BookingError Reply}

/-- One step of the environment leaves the slots of a request that `t` has written alone, if
everybody commits whole. -/
theorem slot_seen_iff_of_interfere (hσ : Integrity σ) (hW : ∀ u σ, C.ready u σ → Whole u σ)
    (h : Interfere C t σ σ') {i : ℕ} (ho : (σ.cell .request i).ownedBy t) {j : ℕ}
    {s : BookingSlot} (hp : s.bookingRequestId = i) :
    (σ'.cell .slot j).seen (some t) = some s ↔ (σ.cell .slot j).seen (some t) = some s := by
  cases h with
  | tick c _ => exact Iff.rfl
  | work u hu hw => rw [hw.seen (fun he ↦ hu (Option.some.inj he).symm)]
  | commit u hu hr =>
    by_cases hj : (σ.cell .slot j).ownedBy u
    · -- the parent would be locked by `u` as well
      have hno : ∀ s', (σ.cell .slot j).seen (some u) = some s' →
          s'.bookingRequestId ≠ i := fun s' hs' he ↦
        hu (Cell.ownedBy_unique ((hW u σ hr).parent hj hs') (he ▸ ho))
      rw [Store.commit_cell, Cell.seen_commit_of_ownedBy hj]
      refine ⟨fun hs ↦ absurd hp (hno s hs), fun hs ↦ ?_⟩
      rw [Cell.seen_of_not_ownedBy fun ht ↦ hu (Cell.ownedBy_unique hj ht)] at hs
      obtain ⟨s', hs', hf⟩ := hσ.slot_seen (v := some u) hs
      exact absurd (hf.bookingRequestId.trans hp) (hno s' hs')
    · rw [Store.commit_cell, Cell.commit_of_not_ownedBy hj]

theorem slot_seen_iff_of_rely (hC : ∀ σ, C.inv σ → Integrity σ)
    (hW : ∀ u σ, C.ready u σ → Whole u σ) (h : Rely C t σ σ') {i : ℕ}
    (ho : (σ.cell .request i).ownedBy t) {j : ℕ} {s : BookingSlot} (hp : s.bookingRequestId = i) :
    (σ'.cell .slot j).seen (some t) = some s ↔ (σ.cell .slot j).seen (some t) = some s := by
  let P := fun σ' : BookingStore ↦ (σ'.cell .request i).ownedBy t ∧
    ((σ'.cell .slot j).seen (some t) = some s ↔ (σ.cell .slot j).seen (some t) = some s)
  have hP : P σ' := h.stable (P := P) (fun σ₁ σ₂ h₁ _ hi ⟨ho₁, hiff⟩ ↦
    ⟨hi.cell_of_ownedBy ho₁ ▸ ho₁,
      (slot_seen_iff_of_interfere (hC σ₁ h₁) hW hi ho₁ hp).trans hiff⟩) ⟨ho, Iff.rfl⟩
  exact hP.2

theorem Whole.rely (hC : ∀ σ, C.inv σ → Integrity σ) (hW : ∀ u σ, C.ready u σ → Whole u σ)
    (h : Whole t σ) (hr : Rely C t σ σ') : Whole t σ' where
  parent ho hs := by
    have ho' := (hr.ownedBy_iff _ _).1 ho
    rw [hr.cell_of_ownedBy ho'] at hs
    exact (hr.ownedBy_iff _ _).2 (h.parent ho' hs)
  spanOk ho := by
    have ho' := (hr.ownedBy_iff _ _).1 ho
    refine (h.spanOk ho').congr ?_ fun j s hp ↦ slot_seen_iff_of_rely hC hW hr ho' hp
    rw [Store.view_row, Store.view_row, hr.cell_of_ownedBy ho']

end Rely

/-! ### Updates -/

section Updates

variable {snapshot : View}

/-- An update of requests leaves the live slots where they are. -/
theorem RequestsUpdated.mem_liveSpans {ch : BookingRequest → Option BookingRequest}
    {rows : List BookingRequest} (h : RequestsUpdated t snapshot ch rows σ σ') {i : Cuid}
    {m : SlotSpan} :
    m ∈ liveSpans (σ'.view (some t)) i ↔ m ∈ liveSpans (σ.view (some t)) i := by
  simp only [EasyBook.mem_liveSpans, Store.view_row]
  refine exists_congr fun j ↦ ?_
  rcases h.slot j with hc | ⟨s, hs, hc, _⟩
  · rw [hc]
  · rw [hc, Cell.seen_write_self, hs]
    constructor
    · rintro ⟨s', hs', hp, hl, hm⟩
      obtain rfl := Option.some.inj hs'
      exact ⟨s, rfl, hp, hl, hm⟩
    · rintro ⟨s', hs', hp, hl, hm⟩
      obtain rfl := Option.some.inj hs'
      exact ⟨_, rfl, hp, hl, hm⟩

theorem RequestsUpdated.ownedBy {ch : BookingRequest → Option BookingRequest}
    {rows : List BookingRequest} (h : RequestsUpdated t snapshot ch rows σ σ') {i : ℕ}
    (ho : (σ.cell .request i).ownedBy t) : (σ'.cell .request i).ownedBy t := by
  rcases h.request i with ⟨r, r', _, _, hc⟩ | ⟨_, hc⟩
  · rw [hc]
    exact ⟨_, rfl⟩
  · rwa [hc]

/-- The slots it touches belong to requests it has written. -/
theorem RequestsUpdated.parent_ownedBy {ch : BookingRequest → Option BookingRequest}
    {rows : List BookingRequest} (h : RequestsUpdated t snapshot ch rows σ σ')
    (hp : ∀ j s, (σ.cell .slot j).ownedBy t → (σ.cell .slot j).seen (some t) = some s →
      (σ'.cell .request s.bookingRequestId).ownedBy t) {j : ℕ} {s : BookingSlot}
    (ho : (σ'.cell .slot j).ownedBy t) (hs : (σ'.cell .slot j).seen (some t) = some s) :
    (σ'.cell .request s.bookingRequestId).ownedBy t := by
  rcases h.slot j with hc | ⟨s₀, _, hc, ho'⟩
  · rw [hc] at ho hs
    exact hp j s ho hs
  · rw [hc, Cell.seen_write_self] at hs
    obtain rfl := Option.some.inj hs
    exact ho'

/-- A new version of a request with the bounds it had. -/
def BookingRequest.KeepsSpan (r r' : BookingRequest) : Prop :=
  r'.status ≠ .cancelled →
    r.status ≠ .cancelled ∧ r'.firstStartAt = r.firstStartAt ∧ r'.lastEndAt = r.lastEndAt

/-- An update of requests that keeps their bounds keeps a transaction whole. -/
theorem Whole.requestsUpdated {ch : BookingRequest → Option BookingRequest}
    {rows : List BookingRequest} (hw : Whole t σ) (hσ : Integrity σ) (hs : Spans σ)
    (h : RequestsUpdated t snapshot ch rows σ σ')
    (hch : ∀ i r r', (σ.cell .request i).seen (some t) = some r → ch r = some r' →
      r.KeepsSpan r') : Whole t σ' where
  parent := h.parent_ownedBy fun _ _ ho hs ↦ h.ownedBy (hw.parent ho hs)
  spanOk {i} _ := by
    intro r' hr' hc
    have hold := hw.spanOk_view hσ hs i
    rw [spanBounds_congr fun m ↦ h.mem_liveSpans]
    rw [Store.view_row] at hr'
    rcases h.request i with ⟨r, q, hr, hq, hcell⟩ | ⟨_, hcell⟩
    · rw [hcell, Cell.seen_write_self] at hr'
      obtain rfl := Option.some.inj hr'
      obtain ⟨hrc, hfirst, hlast⟩ := hch i r q hr hq hc
      rw [hold r hr hrc, hfirst, hlast]
    · rw [hcell] at hr'
      exact hold r' hr' hc

/-- So does an update of slots whose parents are cancelled in the same transaction. -/
theorem Whole.slotsUpdated {ch : BookingSlot → Option BookingSlot} {rows : List BookingSlot}
    (hw : Whole t σ) (h : SlotsUpdated t snapshot ch rows σ σ')
    (hch : ∀ j s s', (σ.cell .slot j).seen (some t) = some s → ch s = some s' →
      s'.bookingRequestId = s.bookingRequestId ∧
        (σ.cell .request s.bookingRequestId).ownedBy t ∧
        ∃ r, (σ.cell .request s.bookingRequestId).seen (some t) = some r ∧
          r.status = .cancelled) : Whole t σ' where
  parent {j s} ho hs := by
    rw [h.request]
    rcases h.slot j with ⟨s₀, s', hs₀, hs', hc⟩ | ⟨_, hc⟩
    · rw [hc, Cell.seen_write_self] at hs
      obtain rfl := Option.some.inj hs
      obtain ⟨hp, ho', _⟩ := hch j s₀ s' hs₀ hs'
      rw [← hp] at ho'
      exact ho'
    · rw [hc] at ho hs
      exact hw.parent ho hs
  spanOk {i} ho := by
    rw [h.request] at ho
    intro r hr hc
    rw [Store.view_row, h.request] at hr
    refine (spanBounds_congr fun m ↦ ?_).trans (hw.spanOk ho r hr hc)
    simp only [mem_liveSpans, Store.view_row]
    refine exists_congr fun j ↦ ?_
    rcases h.slot j with ⟨s₀, s', hs₀, hs', hcell⟩ | ⟨_, hcell⟩
    · -- a slot that was written is not one of a request that is not cancelled
      obtain ⟨hp, _, r', hr', hcancelled⟩ := hch j s₀ s' hs₀ hs'
      have hne : s₀.bookingRequestId ≠ i := fun he ↦ by
        rw [he] at hr'
        obtain rfl := Option.some.inj (hr'.symm.trans hr)
        exact hc hcancelled
      rw [hcell, Cell.seen_write_self, hs₀]
      constructor
      · rintro ⟨s, hs, hp', _⟩
        obtain rfl := Option.some.inj hs
        exact absurd (hp.symm.trans hp') hne
      · rintro ⟨s, hs, hp', _⟩
        obtain rfl := Option.some.inj hs
        exact absurd hp' hne
    · rw [hcell]

/-- A cancellation: it wrote slots of request `i`, and now writes the request with the bounds of
the slots that remain. -/
theorem whole_of_cancelledRequest {i : Cuid} {remaining : List BookingSlot} {c : ℤ}
    {rows : List BookingRequest} (hσ : Integrity σ)
    (h : RequestsUpdated t snapshot
      (fun r ↦ if r.id = i then some (cancelledRequest remaining c r) else none) rows σ σ')
    (hrows : rows ≠ []) (hreq : ∀ k, ¬ (σ.cell .request k).ownedBy t)
    (hslot : ∀ j s, (σ.cell .slot j).ownedBy t → (σ.cell .slot j).seen (some t) = some s →
      s.bookingRequestId = i)
    (hb : ∀ r, (σ.cell .request i).seen (some t) = some r → r.status ≠ .cancelled →
      spanBounds (remaining.map BookingSlot.span) =
        spanBounds (liveSpans (σ.view (some t)) i)) : Whole t σ' := by
  have hid := fun {k r} ↦ (hσ.view (some t)).request_id (i := k) (r := r)
  have hwritten : ∃ r, (σ.cell .request i).seen (some t) = some r ∧ σ'.cell .request i =
      (σ.cell .request i).write t (some (cancelledRequest remaining c r)) := by
    obtain ⟨q, hq⟩ := List.exists_mem_of_ne_nil rows hrows
    obtain ⟨k, r, hr, hq', hc⟩ := h.mem_rows q hq
    split at hq'
    · next hri =>
      obtain rfl := Option.some.inj hq'
      obtain rfl : k = i := (hid hr).symm.trans hri
      exact ⟨r, hr, hc⟩
    · cases hq'
  obtain ⟨r, hr, hc⟩ := hwritten
  have hown : (σ'.cell .request i).ownedBy t := ⟨_, by rw [hc]; rfl⟩
  refine ⟨fun {j s} ↦ h.parent_ownedBy fun j s ho hs ↦ hslot j s ho hs ▸ hown,
    fun {k} ho ↦ ?_⟩
  by_cases hk : k = i
  · subst hk
    intro r' hr' hnc
    rw [Store.view_row, hc, Cell.seen_write_self] at hr'
    obtain rfl := Option.some.inj hr'
    rw [spanBounds_congr fun m ↦ h.mem_liveSpans]
    rcases hbounds : spanBounds (remaining.map BookingSlot.span) with - | ⟨a, b⟩
    · exact absurd (by simp [cancelledRequest, hbounds]) hnc
    · have hstatus : r.status ≠ .cancelled := by simpa [cancelledRequest, hbounds] using hnc
      rw [← hb r hr hstatus, hbounds]
      simp [cancelledRequest, hbounds]
  · rcases h.request k with ⟨q, q', hq, hq', _⟩ | ⟨_, hcell⟩
    · split at hq'
      · next hqi => exact absurd ((hid hq).symm.trans hqi) hk
      · cases hq'
    · rw [hcell] at ho
      exact absurd ho (hreq k)

end Updates

end EasyBook

import EasyBook.Bookings.Services

/-!
# The law of spans, and how two cancellations break it

An approved request has a live slot and carries the bounds of its live slots. Both cancellations
read the slots that remain and write the request from what they have read. Between the two, another
cancellation of the same booking may commit: neither waits for the other before the parent, and the
second to write it writes what is no longer so. `crossedRun` is that interleaving; it leaves a
request that is approved and has no slot.

In the runs whose parent updates find the bounds as the transaction read them, the law holds in
every state.
-/

namespace EasyBook

open ReadCommitted

/-- The law: an approved request has a live slot, and its span is theirs; a request whose slots are
all cancelled is cancelled. -/
def SpanLaw (d : View) : Prop :=
  ∀ i r, d.row .request i = some r →
    (r.status = .approved →
      liveSlots d i ≠ [] ∧
        IsLeast {x | ∃ s ∈ liveSlots d i, s.startAt = x} r.firstStartAt ∧
        IsGreatest {x | ∃ s ∈ liveSlots d i, s.endAt = x} r.lastEndAt) ∧
    (liveSlots d i = [] → r.status = .cancelled)

/-- The law from the bounds that the code computes. -/
theorem spanLaw_of_spanOk {d : View} (h : ∀ i, SpanOk d i) : SpanLaw d := by
  intro i r hr
  have hbounds : r.status ≠ .cancelled →
      spanBounds ((liveSlots d i).map BookingSlot.span) = some (r.firstStartAt, r.lastEndAt) :=
    h i r hr
  have hne : r.status ≠ .cancelled → liveSlots d i ≠ [] := fun hc hnil ↦ by
    have := hbounds hc
    rw [hnil] at this
    cases this
  refine ⟨fun hst ↦ ?_, fun hnil ↦ by_contra fun hc ↦ hne hc hnil⟩
  have hc : r.status ≠ .cancelled := by
    rw [hst]
    simp
  obtain ⟨⟨⟨m, hm, hfirst⟩, hmin⟩, ⟨m', hm', hlast⟩, hmax⟩ := spanBounds_eq_some.1 (hbounds hc)
  obtain ⟨s, hs, rfl⟩ := List.mem_map.1 hm
  obtain ⟨s', hs', rfl⟩ := List.mem_map.1 hm'
  refine ⟨hne hc, ⟨⟨s, hs, hfirst⟩, ?_⟩, ⟨s', hs', hlast⟩, ?_⟩
  · rintro x ⟨q, hq, rfl⟩
    exact hmin _ (List.mem_map_of_mem hq)
  · rintro x ⟨q, hq, rfl⟩
    exact hmax _ (List.mem_map_of_mem hq)

/-- The steps that find fresh what a cancellation has read. -/
abbrev FreshStep : BookingWorld → BookingEvent → Prop := Granted FreshRead

theorem granted_of_freshStep {w : BookingWorld} {e : BookingEvent} (h : FreshStep w e) :
    Granted (contract True).grant w e := by
  unfold FreshStep Granted at *
  split
  · split
    · next hp =>
      simp only [hp] at h
      split
      · next hprog hissued =>
        simp only [hprog, hissued] at h
        exact fun _ ↦ h
      · trivial
    · trivial
  · trivial

/-- **In every run whose cancellations write what is still so, the law of spans holds.** -/
theorem spanLaw_of_freshStep {w : BookingWorld} (hw : bookings.Reach FreshStep w) :
    SpanLaw w.store.committed := by
  have hinv : Standing True w.store :=
    (healthy True (hw.mono fun _ _ ↦ granted_of_freshStep)).inv
  exact spanLaw_of_spanOk (hinv.spans trivial)

/-- The world after a schedule that can be run on fresh reads. -/
def afterFresh (es : List BookingEvent) : BookingWorld :=
  (bookings.execUnder FreshStep es World.init).getD World.init

theorem reach_afterFresh (es : List BookingEvent) : bookings.Reach FreshStep (afterFresh es) := by
  unfold afterFresh
  rcases h : bookings.execUnder FreshStep es World.init with - | w
  · exact .init
  · exact .execUnder .init h

namespace Sample

/-- User 7 drops a slot of booking 0, up to the read of the slots that remain. -/
def dropSlot (t : ℕ) (slotId : Cuid) : List BookingEvent :=
  [.call t (.cancelApprovedSlot [] (cuidText 0) slotId), .answer t oracle, .answer t oracle] ++
    steps t 7

/-- One slot of two is dropped, undisturbed. -/
def serialRun : List BookingEvent := directRun ++ dropSlot 1 1 ++ steps 1 3

/-- Both slots are dropped at once: each transaction reads the other's slot as one that remains. -/
def crossedRun : List BookingEvent :=
  directRun ++ dropSlot 1 1 ++ dropSlot 2 2 ++ steps 1 3 ++ steps 2 3

end Sample

/-- Drop one slot, and the span shrinks to the other. -/
theorem spanLaw_serialRun :
    ((afterFresh Sample.serialRun).store.committed.row .request 0).map
        BookingRequest.firstStartAt = some 363600000 ∧
      SpanLaw (afterFresh Sample.serialRun).store.committed :=
  ⟨by decide +kernel, spanLaw_of_freshStep (reach_afterFresh Sample.serialRun)⟩

/-- Drop both at once, and an approved request is left without a slot. -/
theorem spanLaw_crossedRun :
    ∃ w : BookingWorld, bookings.Reachable w ∧ ¬ SpanLaw w.store.committed := by
  refine ⟨after Sample.crossedRun, reachable_after _, fun h ↦ ?_⟩
  have hrow : ((after Sample.crossedRun).store.committed.row .request 0).map
      BookingRequest.status = some .approved := by decide +kernel
  have hlive : liveSlots (after Sample.crossedRun).store.committed 0 = [] := by decide +kernel
  obtain ⟨r, hr, hst⟩ := Option.map_eq_some_iff.1 hrow
  exact ((h 0 r hr).1 hst).1 hlive

end EasyBook

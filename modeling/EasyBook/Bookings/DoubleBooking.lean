import EasyBook.Bookings.Services

/-!
# No room is booked twice

The flag of every committed slot is what the slot and its parent make it, whatever the
interleaving; the constraint on the slots whose flag is set is checked against everything that may
become committed; so two live slots of approved requests at one venue never overlap.
-/

namespace EasyBook

open ReadCommitted

/-- Every slot's `holdsSlot` is "live, and the parent is approved". -/
def FlagsMirror (d : View) : Prop :=
  ∀ j s, d.row .slot j = some s → ∃ r, d.row .request s.bookingRequestId = some r ∧
    s.holdsSlot = (!s.isCancelled && decide (r.status = .approved))

/-- The slot is live and belongs to an approved request. -/
def HeldByApproved (d : View) (s : BookingSlot) : Prop :=
  s.isCancelled = false ∧
    ∃ r, d.row .request s.bookingRequestId = some r ∧ r.status = .approved

/-- Slots of one venue that approved requests hold do not overlap. -/
def NoDoubleBooking (d : View) : Prop :=
  ∀ i j s s', i ≠ j → d.row .slot i = some s → d.row .slot j = some s' → HeldByApproved d s →
    HeldByApproved d s' → s.venueId = s'.venueId →
    Disjoint (Set.Ico s.startAt s.endAt) (Set.Ico s'.startAt s'.endAt)

theorem ViewOk.flagsMirror {d : View} (h : ViewOk d) : FlagsMirror d := fun j s hs ↦ by
  obtain ⟨r, hr, ha⟩ := h.parent hs
  exact ⟨r, hr, ha.mirrors⟩

theorem HeldByApproved.holdsSlot {d : View} (h : FlagsMirror d) {j : ℕ} {s : BookingSlot}
    (hs : d.row .slot j = some s) (hheld : HeldByApproved d s) : s.holdsSlot = true := by
  obtain ⟨hlive, r, hr, hst⟩ := hheld
  obtain ⟨r', hr', hflag⟩ := h j s hs
  obtain rfl := Option.some.inj (hr'.symm.trans hr)
  rw [hflag, hlive, hst]
  rfl

/-- Rows that the constraint lets stand together are disjoint. -/
theorem disjoint_of_no_conflict {s s' : BookingSlot} (h : schema.conflict .slot s s' = none)
    (hs : s.holdsSlot = true) (hs' : s'.holdsSlot = true) (hv : s.venueId = s'.venueId) :
    Disjoint (Set.Ico s.startAt s.endAt) (Set.Ico s'.startAt s'.endAt) := by
  have hno : bookingSlotsNoOverlap s s' = false := by
    simp only [schema, ite_eq_right_iff, reduceCtorEq, imp_false, Bool.not_eq_true] at h
    exact h
  simp only [bookingSlotsNoOverlap, tsrangeOverlap, hs, hs', hv, decide_true, Bool.and_self,
    Bool.true_and, decide_eq_false_iff_not, not_lt] at hno
  rw [Set.Ico_disjoint_Ico]
  exact hno

/-- **Double-booking freedom.** In every reachable world the committed flags mirror the requests,
and so no two slots that approved requests hold at one venue overlap. -/
theorem no_double_booking {w : BookingWorld} (hw : bookings.Reachable w) :
    FlagsMirror w.store.committed ∧ NoDoubleBooking w.store.committed := by
  have hinv : Standing False w.store :=
    (healthy False (hw.mono fun w e _ ↦ granted_contract_false w e)).inv
  have hflags := (hinv.integrity.view none).flagsMirror
  refine ⟨hflags, fun i j s s' hij hs hs' hheld hheld' hv ↦ ?_⟩
  refine disjoint_of_no_conflict ?_ (hheld.holdsSlot hflags hs) (hheld'.holdsSlot hflags hs') hv
  exact hinv.compatible.committed hij ((Cell.seen_none _).symm.trans hs)
    ((Cell.seen_none _).symm.trans hs')

/-- The law at work: two slots are held after a direct booking. -/
theorem no_double_booking_directRun :
    ((after Sample.directRun).store.committed.all .slot).countP BookingSlot.holdsSlot = 2 ∧
      FlagsMirror (after Sample.directRun).store.committed ∧
      NoDoubleBooking (after Sample.directRun).store.committed :=
  ⟨by decide +kernel, no_double_booking (reachable_after Sample.directRun)⟩

end EasyBook

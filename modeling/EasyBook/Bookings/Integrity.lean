import EasyBook.Bookings.System
import EasyBook.ReadCommitted.Adequacy

/-!
# Integrity of the booking tables

What every statement of every writer keeps, whoever is in between. `holdsSlot` is a denormalised
flag: one trigger computes it from the parent as the writer of the slot sees it, the other pushes a
change of the parent to the slots that the writer of the parent sees. That no interleaving leaves a
committed slot with a stale flag rests on two facts about versions, kept by `Integrity`:

* in every reader's view each slot agrees with its parent (`ViewOk`);
* a written version *follows* the committed one: identity columns never change, a cancelled slot
  stays cancelled, and a status moves only as the state machine allows.

The heart of the argument is `Agrees.diamond`: if a slot and its parent are rewritten by two
transactions, each of which left its own view in order, the two new versions agree with each other.
-/

namespace EasyBook

open ReadCommitted

/-! ### Moves of a row -/

/-- The state machine of a request: `PENDING` is left once, `APPROVED` only for `CANCELLED`. -/
def BookingStatus.Moves (s s' : BookingStatus) : Prop :=
  s = s' ∨ s = .pending ∨ s = .approved ∧ s' = .cancelled

instance (s s' : BookingStatus) : Decidable (s.Moves s') :=
  inferInstanceAs (Decidable (_ ∨ _))

namespace BookingStatus.Moves

/-- A status may stay. -/
theorem refl (s : BookingStatus) : s.Moves s := Or.inl rfl

/-- Two moves of a status are one. -/
theorem trans {s s' s'' : BookingStatus} (h : s.Moves s') (h' : s'.Moves s'') : s.Moves s'' := by
  cases s <;> cases s' <;> cases s'' <;> first | decide | (revert h h'; decide)

end BookingStatus.Moves

/-- Approved, or cancelled after that: the requests whose slots may be cancelled one by one. -/
def BookingStatus.Settled (s : BookingStatus) : Prop := s = .approved ∨ s = .cancelled

/-- What is settled stays settled. -/
theorem BookingStatus.Settled.moves {s s' : BookingStatus} (h : s.Settled) (hm : s.Moves s') :
    s'.Settled := by
  rcases h with rfl | rfl <;> cases s' <;> revert hm <;> simp [Settled, Moves]

/-- `r'` is a later version of the request `r`. -/
structure BookingRequest.Follows (r r' : BookingRequest) : Prop where
  id : r'.id = r.id
  code : r'.code = r.code
  venueId : r'.venueId = r.venueId
  createdAt : r'.createdAt = r.createdAt
  moves : r.status.Moves r'.status

/-- A request follows itself. -/
theorem BookingRequest.Follows.refl (r : BookingRequest) : r.Follows r :=
  ⟨rfl, rfl, rfl, rfl, .refl _⟩

/-- Following is transitive. -/
theorem BookingRequest.Follows.trans {r r' r'' : BookingRequest} (h : r.Follows r')
    (h' : r'.Follows r'') : r.Follows r'' :=
  ⟨h'.id.trans h.id, h'.code.trans h.code, h'.venueId.trans h.venueId,
    h'.createdAt.trans h.createdAt, h.moves.trans h'.moves⟩

/-- `s'` is a later version of the slot `s`. -/
structure BookingSlot.Follows (s s' : BookingSlot) : Prop where
  id : s'.id = s.id
  bookingRequestId : s'.bookingRequestId = s.bookingRequestId
  venueId : s'.venueId = s.venueId
  startAt : s'.startAt = s.startAt
  endAt : s'.endAt = s.endAt
  isCancelled : s.isCancelled = true → s'.isCancelled = true

/-- A slot follows itself. -/
theorem BookingSlot.Follows.refl (s : BookingSlot) : s.Follows s :=
  ⟨rfl, rfl, rfl, rfl, rfl, fun h ↦ h⟩

/-- Following is transitive for slots. -/
theorem BookingSlot.Follows.trans {s s' s'' : BookingSlot} (h : s.Follows s')
    (h' : s'.Follows s'') : s.Follows s'' :=
  ⟨h'.id.trans h.id, h'.bookingRequestId.trans h.bookingRequestId, h'.venueId.trans h.venueId,
    h'.startAt.trans h.startAt, h'.endAt.trans h.endAt, fun hc ↦ h'.isCancelled (h.isCancelled hc)⟩

/-! ### A slot and its parent -/

/-- `holdsSlot` mirrors the flag of the slot and the status of its parent. -/
def BookingSlot.Mirrors (s : BookingSlot) (r : BookingRequest) : Prop :=
  s.holdsSlot = (!s.isCancelled && decide (r.status = .approved))

/-- A slot is in order next to its parent. -/
structure BookingSlot.Agrees (s : BookingSlot) (r : BookingRequest) : Prop where
  venueId : s.venueId = r.venueId
  mirrors : s.Mirrors r
  settled : s.isCancelled = true → r.status.Settled

/-- **Two writers, one of the slot and one of its parent**: if each left its own view in order, so
are the two new versions next to each other. -/
theorem BookingSlot.Agrees.diamond {s s' : BookingSlot} {r r' : BookingRequest}
    (h : s.Agrees r) (hs : s'.Agrees r) (hr : s.Agrees r') (hss : s.Follows s')
    (hrr : r.Follows r') : s'.Agrees r' := by
  refine ⟨hs.venueId.trans hrr.venueId.symm, ?_, fun hc ↦ (hs.settled hc).moves hrr.moves⟩
  have h₁ := h.mirrors
  have h₂ := hs.mirrors
  have h₃ := hr.mirrors
  unfold BookingSlot.Mirrors at *
  by_cases hc : s.isCancelled = true
  · have hc' := hss.isCancelled hc
    simp only [hc', Bool.not_true, Bool.false_and] at h₂ ⊢
    exact h₂
  · -- the slot was live, so the parent's two versions are approved together
    have he : decide (r.status = .approved) = decide (r'.status = .approved) := by
      rw [h₁] at h₃
      simpa [hc] using h₃
    rw [h₂, he]

/-- A view in order: every row under its own key, every slot with a parent it agrees with. -/
structure ViewOk (d : View) : Prop where
  request_id : ∀ {i r}, d.row .request i = some r → r.id = i
  slot_id : ∀ {j s}, d.row .slot j = some s → s.id = j
  parent : ∀ {j s}, d.row .slot j = some s →
    ∃ r, d.row .request s.bookingRequestId = some r ∧ s.Agrees r

/-! ### The store -/

/-- The tables are in order for every reader, and every written version follows the committed one.
A new slot belongs to a request that is new as well. -/
structure Integrity (σ : BookingStore) : Prop where
  view : ∀ v, ViewOk (σ.view v)
  request : ∀ {t i x}, (σ.cell .request i).dirty = some (t, x) →
    ∃ r, x = some r ∧ ∀ r₀, (σ.cell .request i).committed = some r₀ → BookingRequest.Follows r₀ r
  slot : ∀ {t j x}, (σ.cell .slot j).dirty = some (t, x) →
    ∃ s, x = some s ∧
      (∀ s₀, (σ.cell .slot j).committed = some s₀ → BookingSlot.Follows s₀ s) ∧
      ((σ.cell .slot j).committed = none →
        (σ.cell .request s.bookingRequestId).committed = none)

namespace Integrity

variable {σ σ' : BookingStore} {t : ℕ}

/-- The empty store has no copy of a status to differ. -/
theorem init : Integrity (Store.init Row) where
  view _ := ⟨fun h ↦ (nomatch h), fun h ↦ (nomatch h), fun h ↦ (nomatch h)⟩
  request h := nomatch h
  slot h := nomatch h

/-- The clock is no part of it. -/
theorem tick (h : Integrity σ) (c : ℤ) : Integrity (σ.tick c) := ⟨h.view, h.request, h.slot⟩

/-- Whatever a reader sees of a request that was committed follows the committed version. -/
theorem request_seen (h : Integrity σ) {v : Option ℕ} {i : ℕ} {r₀ : BookingRequest}
    (hc : (σ.cell .request i).committed = some r₀) :
    ∃ r, (σ.cell .request i).seen v = some r ∧ BookingRequest.Follows r₀ r := by
  unfold Cell.seen
  split
  · next u x hd =>
    split
    · obtain ⟨r, rfl, hf⟩ := h.request hd
      exact ⟨r, rfl, hf r₀ hc⟩
    · exact ⟨r₀, hc, .refl r₀⟩
  · exact ⟨r₀, hc, .refl r₀⟩

/-- A committed slot is seen by everybody, moved on at most. -/
theorem slot_seen (h : Integrity σ) {v : Option ℕ} {j : ℕ} {s₀ : BookingSlot}
    (hc : (σ.cell .slot j).committed = some s₀) :
    ∃ s, (σ.cell .slot j).seen v = some s ∧ BookingSlot.Follows s₀ s := by
  unfold Cell.seen
  split
  · next u x hd =>
    split
    · obtain ⟨s, rfl, hf, _⟩ := h.slot hd
      exact ⟨s, rfl, hf s₀ hc⟩
    · exact ⟨s₀, hc, .refl s₀⟩
  · exact ⟨s₀, hc, .refl s₀⟩

/-- A slot that is not committed has a parent that is not. -/
theorem slot_new (h : Integrity σ) {v : Option ℕ} {j : ℕ} {s : BookingSlot}
    (hs : (σ.cell .slot j).seen v = some s) (hc : (σ.cell .slot j).committed = none) :
    (σ.cell .request s.bookingRequestId).committed = none := by
  unfold Cell.seen at hs
  split at hs
  · next u x hd =>
    obtain ⟨s', rfl, _, hnew⟩ := h.slot hd
    split at hs
    · obtain rfl := Option.some.inj hs
      exact hnew hc
    · exact absurd hs (by rw [hc]; simp)
  · exact absurd hs (by rw [hc]; simp)

/-- Time, and the view of whoever did nothing, are not in the way: if `t` worked, only what `t`
sees and what `t` wrote has to be looked at. -/
theorem of_work (h : Integrity σ) (hw : Store.WorkBy t σ σ') (hv : ViewOk (σ'.view (some t)))
    (hr : ∀ i x, (σ'.cell .request i).dirty = some (t, x) →
      ∃ r, x = some r ∧
        ∀ r₀, (σ.cell .request i).committed = some r₀ → BookingRequest.Follows r₀ r)
    (hs : ∀ j x, (σ'.cell .slot j).dirty = some (t, x) →
      ∃ s, x = some s ∧
        (∀ s₀, (σ.cell .slot j).committed = some s₀ → BookingSlot.Follows s₀ s) ∧
        ((σ.cell .slot j).committed = none →
          (σ.cell .request s.bookingRequestId).committed = none)) : Integrity σ' where
  view v := by
    by_cases hvt : v = some t
    · exact hvt ▸ hv
    · have hseen := fun τ i ↦ hw.seen hvt τ i
      refine ⟨fun {i r} hi ↦ ?_, fun {j s} hj ↦ ?_, fun {j s} hj ↦ ?_⟩
      · exact (h.view v).request_id ((hseen .request i).symm.trans hi)
      · exact (h.view v).slot_id ((hseen .slot j).symm.trans hj)
      · obtain ⟨r, hr, ha⟩ := (h.view v).parent ((hseen .slot j).symm.trans hj)
        exact ⟨r, (hseen .request _).trans hr, ha⟩
  request {u i x} hd := by
    simp only [hw.committed]
    by_cases hu : u = t
    · exact hr i x (hu ▸ hd)
    · exact h.request ((hw.others .request i u x hu).1 hd)
  slot {u j x} hd := by
    simp only [hw.committed]
    by_cases hu : u = t
    · exact hs j x (hu ▸ hd)
    · exact h.slot ((hw.others .slot j u x hu).1 hd)

/-- After a rollback the copies are those committed before. -/
theorem abort (h : Integrity σ) (t : ℕ) : Integrity (σ.abort t) := by
  have hclean : (σ.abort t).Clean t := Store.clean_abort
  refine h.of_work Store.workBy_abort ?_ (fun i x hd ↦ ?_) (fun j x hd ↦ ?_)
  · have hview : (σ.abort t).view (some t) = σ.committed := by
      rw [Store.view_of_clean hclean, Store.committed_abort]
    rw [hview]
    exact h.view none
  · exact absurd ⟨x, hd⟩ (hclean .request i)
  · exact absurd ⟨x, hd⟩ (hclean .slot j)

/-- A slot as reader `a` sees it agrees with its parent as reader `b` sees it, unless `a` has
written the parent or `b` the slot. -/
theorem agrees_across (h : Integrity σ) {a b : Option ℕ} {j : ℕ} {s : BookingSlot}
    {r : BookingRequest} (hs : (σ.cell .slot j).seen a = some s)
    (hr : (σ.cell .request s.bookingRequestId).seen b = some r)
    (ha : (σ.cell .request s.bookingRequestId).seen a =
      (σ.cell .request s.bookingRequestId).committed)
    (hb : (σ.cell .slot j).seen b = (σ.cell .slot j).committed) : s.Agrees r := by
  obtain ⟨p, hp, hsp⟩ := (h.view a).parent hs
  have hpc : (σ.cell .request s.bookingRequestId).committed = some p := ha.symm.trans hp
  rcases hc : (σ.cell .slot j).committed with - | s₀
  · exact absurd (h.slot_new hs hc) (by rw [hpc]; simp)
  · obtain ⟨s', hs', hfol⟩ := h.slot_seen (v := a) hc
    obtain rfl : s' = s := Option.some.inj (hs'.symm.trans hs)
    obtain ⟨r', hr', hrfol⟩ := h.request_seen (v := b) hpc
    obtain rfl : r' = r := Option.some.inj (hr'.symm.trans hr)
    obtain ⟨p', hp', hbase⟩ := (h.view none).parent (j := j) (s := s₀) (by
      rw [Store.view_row, Cell.seen_none, hc])
    obtain ⟨q, hq, hright⟩ := (h.view b).parent (j := j) (s := s₀) (hb.trans hc)
    rw [← hfol.bookingRequestId, Store.view_row] at hp' hq
    rw [Cell.seen_none, hpc] at hp'
    rw [hr] at hq
    obtain rfl := Option.some.inj hp'
    obtain rfl := Option.some.inj hq
    exact hbase.diamond hsp hright hfol hrfol

/-- A commit makes a request and the copies in its slots visible together. -/
theorem commit (h : Integrity σ) (t : ℕ) : Integrity (σ.commit t) where
  view v := by
    -- For every reader the rows after the commit are those `t` saw where `t` has written, and as
    -- before elsewhere.
    have hsee : ∀ τ i, ((σ.commit t).cell τ i).seen v = (σ.cell τ i).seen (some t) ∧
        (σ.cell τ i).ownedBy t ∨ ((σ.commit t).cell τ i).seen v = (σ.cell τ i).seen v ∧
        ¬ (σ.cell τ i).ownedBy t := fun τ i ↦ by
      by_cases ho : (σ.cell τ i).ownedBy t
      · exact Or.inl ⟨Cell.seen_commit_of_ownedBy ho v, ho⟩
      · exact Or.inr ⟨Cell.seen_commit_of_not_ownedBy ho v, ho⟩
    -- a reader other than `t` sees the committed version of what `t` has written
    have hother : ∀ τ i, (σ.cell τ i).ownedBy t → v ≠ some t →
        (σ.cell τ i).seen v = (σ.cell τ i).committed := fun τ i ho hv ↦ by
      rcases v with - | u
      · exact Cell.seen_none _
      · exact Cell.seen_of_not_ownedBy fun hu ↦ hv (by rw [Cell.ownedBy_unique ho hu])
    refine ⟨fun {i r} hi ↦ ?_, fun {j s} hj ↦ ?_, fun {j s} hj ↦ ?_⟩
    · rcases hsee .request i with ⟨he, _⟩ | ⟨he, _⟩ <;> rw [Store.view_row, he] at hi
      · exact (h.view (some t)).request_id hi
      · exact (h.view v).request_id hi
    · rcases hsee .slot j with ⟨he, _⟩ | ⟨he, _⟩ <;> rw [Store.view_row, he] at hj
      · exact (h.view (some t)).slot_id hj
      · exact (h.view v).slot_id hj
    · by_cases hv : v = some t
      · subst hv
        have hview : (σ.commit t).view (some t) = σ.view (some t) := by
          rw [Store.view_of_clean Store.clean_commit, Store.committed_commit]
        rw [hview] at hj ⊢
        exact (h.view (some t)).parent hj
      -- A slot and its request, each written by `t` or not; one that is not is the committed one.
      · rcases hsee .slot j with ⟨he, hso⟩ | ⟨he, hso⟩ <;> rw [Store.view_row, he] at hj <;>
          rcases hsee .request s.bookingRequestId with ⟨hr, hro⟩ | ⟨hr, hro⟩ <;>
          rw [Store.view_row, hr]
        · exact (h.view (some t)).parent hj
        · obtain ⟨p, hp, _⟩ := (h.view (some t)).parent hj
          have hown := Cell.seen_of_not_ownedBy hro
          obtain ⟨r, hr', _⟩ := h.request_seen (v := v) (hown.symm.trans hp)
          exact ⟨r, hr', h.agrees_across hj hr' hown (hother .slot j hso hv)⟩
        · obtain ⟨p, hp, _⟩ := (h.view v).parent hj
          have hown := hother .request _ hro hv
          obtain ⟨r, hr', _⟩ := h.request_seen (v := some t) (hown.symm.trans hp)
          exact ⟨r, hr', h.agrees_across hj hr' hown (Cell.seen_of_not_ownedBy hso)⟩
        · exact (h.view v).parent hj
  request {u i x} hd := by
    by_cases ho : (σ.cell .request i).ownedBy t
    · obtain ⟨y, hy⟩ := ho
      rw [Store.commit_cell, Cell.commit_of_dirty hy] at hd
      cases hd
    · rw [Store.commit_cell, Cell.commit_of_not_ownedBy ho] at hd ⊢
      exact h.request hd
  slot {u j x} hd := by
    by_cases ho : (σ.cell .slot j).ownedBy t
    · obtain ⟨y, hy⟩ := ho
      rw [Store.commit_cell, Cell.commit_of_dirty hy] at hd
      cases hd
    · rw [Store.commit_cell, Cell.commit_of_not_ownedBy ho] at hd ⊢
      have hu : u ≠ t := fun he ↦ ho ⟨x, he ▸ hd⟩
      obtain ⟨s, rfl, hfol, hnew⟩ := h.slot hd
      refine ⟨s, rfl, hfol, fun hc ↦ ?_⟩
      -- the parent of a new slot is the work of the same transaction
      have hpc := hnew hc
      obtain ⟨p, hp, _⟩ := (h.view (some u)).parent (j := j) (Cell.seen_of_dirty hd)
      have hpo : (σ.cell .request s.bookingRequestId).ownedBy u := by
        by_contra hno
        rw [Store.view_row, Cell.seen_of_not_ownedBy hno, hpc] at hp
        cases hp
      rw [Store.commit_cell, Cell.commit_of_not_ownedBy fun ht ↦ hu (Cell.ownedBy_unique hpo ht)]
      exact hpc

end Integrity

/-! ### Growth -/

/-- What is committed stays, and changes only to versions that follow. -/
structure Grows (σ σ' : BookingStore) : Prop where
  request : ∀ {i r}, (σ.cell .request i).committed = some r →
    ∃ r', (σ'.cell .request i).committed = some r' ∧ BookingRequest.Follows r r'
  slot : ∀ {j s}, (σ.cell .slot j).committed = some s →
    ∃ s', (σ'.cell .slot j).committed = some s' ∧ BookingSlot.Follows s s'

namespace Grows

variable {σ σ' σ'' : BookingStore} {t : ℕ}

theorem refl (σ : BookingStore) : Grows σ σ :=
  ⟨fun h ↦ ⟨_, h, .refl _⟩, fun h ↦ ⟨_, h, .refl _⟩⟩

theorem trans (h : Grows σ σ') (h' : Grows σ' σ'') : Grows σ σ'' where
  request hr := by
    obtain ⟨r', hr', hf⟩ := h.request hr
    obtain ⟨r'', hr'', hf'⟩ := h'.request hr'
    exact ⟨r'', hr'', hf.trans hf'⟩
  slot hs := by
    obtain ⟨s', hs', hf⟩ := h.slot hs
    obtain ⟨s'', hs'', hf'⟩ := h'.slot hs'
    exact ⟨s'', hs'', hf.trans hf'⟩

/-- Growing is a matter of the committed rows alone. -/
theorem of_committed (h : ∀ τ i, (σ'.cell τ i).committed = (σ.cell τ i).committed) : Grows σ σ' :=
  ⟨fun hr ↦ ⟨_, (h _ _).trans hr, .refl _⟩, fun hs ↦ ⟨_, (h _ _).trans hs, .refl _⟩⟩

theorem commit (h : Integrity σ) (t : ℕ) : Grows σ (σ.commit t) where
  request hr := by
    rw [Store.commit_cell, Cell.committed_commit]
    exact h.request_seen hr
  slot hs := by
    rw [Store.commit_cell, Cell.committed_commit]
    exact h.slot_seen hs

end Grows

section Rely

variable {C : Contract Row BookingError Reply} {t : ℕ} {σ σ' : BookingStore}

/-- The environment lets the tables grow. -/
theorem grows_of_rely (hC : ∀ σ, C.inv σ → Integrity σ) (h : Rely C t σ σ') : Grows σ σ' :=
  h.stable (P := Grows σ) (fun σ₁ σ₂ h₁ _ hi hg ↦ hg.trans <| by
    cases hi with
    | tick c _ => exact .of_committed fun _ _ ↦ rfl
    | work u _ hw => exact .of_committed hw.committed
    | commit u _ _ => exact .commit (hC _ h₁) u) (.refl σ)

/-- A request in the view of `t` stays there, in a version that follows. -/
theorem request_seen_of_rely (hC : ∀ σ, C.inv σ → Integrity σ) (h : Rely C t σ σ') {i : ℕ}
    {r : BookingRequest} (hr : (σ.cell .request i).seen (some t) = some r) :
    ∃ r', (σ'.cell .request i).seen (some t) = some r' ∧ BookingRequest.Follows r r' := by
  by_cases ho : (σ.cell .request i).ownedBy t
  · exact ⟨r, by rw [h.cell_of_ownedBy ho, hr], .refl r⟩
  · rw [Cell.seen_of_not_ownedBy ho] at hr
    rw [Cell.seen_of_not_ownedBy fun ho' ↦ ho ((h.ownedBy_iff _ _).1 ho')]
    exact (grows_of_rely hC h).request hr

/-- So does a slot. -/
theorem slot_seen_of_rely (hC : ∀ σ, C.inv σ → Integrity σ) (h : Rely C t σ σ') {j : ℕ}
    {s : BookingSlot} (hs : (σ.cell .slot j).seen (some t) = some s) :
    ∃ s', (σ'.cell .slot j).seen (some t) = some s' ∧ BookingSlot.Follows s s' := by
  by_cases ho : (σ.cell .slot j).ownedBy t
  · exact ⟨s, by rw [h.cell_of_ownedBy ho, hs], .refl s⟩
  · rw [Cell.seen_of_not_ownedBy ho] at hs
    rw [Cell.seen_of_not_ownedBy fun ho' ↦ ho ((h.ownedBy_iff _ _).1 ho')]
    exact (grows_of_rely hC h).slot hs

end Rely

end EasyBook

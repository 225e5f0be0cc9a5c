import EasyBook.Bookings.Records

/-!
# What the columns of a decision and of a cancellation say

`Records` reads the statements one by one. Two things need what a transaction has read before: a
cancellation through LINE names the owner of the booking, because the transaction has looked the
booking up by its owner; and it is an approved request that loses its slots one by one, so that a
request which was refused stays refused, and the reason with it.

Both speak of the row that is committed, of the parent or of the request itself, so the law is one
relative to what is committed (`ownerLaw`). It stays true because a committed row never changes in
what it is read for (`Lasts`).
-/

namespace EasyBook

open ReadCommitted ReadCommitted.Prog

/-! ### The columns -/

/-- The columns of a decision are there exactly if it has been made: who approved and when go
together, and nobody approved what is pending, rejected or expired; and a reason is there exactly
for a rejection or an expiry. -/
structure BookingRequest.Fits (r : BookingRequest) : Prop where
  approver : r.approvedById.isSome ↔ r.approvedAt.isSome
  approved : r.status = .approved → r.approvedById.isSome
  unapproved : r.status = .pending ∨ r.status = .rejected ∨ r.status = .expired →
    r.approvedById = none
  reason : r.rejectReason.isSome ↔ r.status = .rejected ∨ r.status = .expired

/-- A cancellation through LINE names the owner of the booking, and a session was called with it:
to withdraw this booking, or to drop this slot. -/
def BookingSlot.Owned (jobs : ℕ → Job) (d : View) (s : BookingSlot) : Prop :=
  s.cancelledByRole = some .lineUser → ∃ r owner, d.row .request s.bookingRequestId = some r ∧
    s.cancelledById = some owner ∧
    ∃ t lineSub idOrCode, ownedBookingWhere idOrCode owner r = true ∧
      (jobs t = .booking (.cancelPendingBooking lineSub idOrCode) ∨
        jobs t = .booking (.cancelApprovedSlot lineSub idOrCode s.id))

/-- How a request goes on: its status moves as it may, and one that was rejected or has expired does
not change any more. -/
structure BookingRequest.GoesOn (r r' : BookingRequest) : Prop where
  moves : r.status.Moves r'.status
  closed : r.status = .rejected ∨ r.status = .expired → r' = r

theorem BookingRequest.GoesOn.refl (r : BookingRequest) : r.GoesOn r := ⟨.refl _, fun _ ↦ rfl⟩

theorem BookingRequest.GoesOn.trans {r r' r'' : BookingRequest} (h : r.GoesOn r')
    (h' : r'.GoesOn r'') : r.GoesOn r'' where
  moves := h.moves.trans h'.moves
  closed hr := by
    have he := h.closed hr
    exact (h'.closed (he ▸ hr)).trans he

/-- A pending request may become anything. -/
theorem BookingRequest.GoesOn.of_pending {r r' : BookingRequest} (h : r.status = .pending) :
    r.GoesOn r' :=
  ⟨.inr (.inl h), fun hr ↦ by simp [h] at hr⟩

/-- What lasts of a committed row, and how it goes on. -/
def Lasts : ∀ τ, Row τ → Row τ → Prop
  | .request, r, r' => BookingRequest.Keeps r r' ∧ BookingRequest.GoesOn r r'
  | .slot, s, s' => BookingSlot.Keeps s s'

theorem Lasts.keeps {τ : Tab} {r r' : Row τ} (h : Lasts τ r r') : Keeps τ r r' := by
  cases τ with
  | request => exact h.1
  | slot => exact h

theorem Lasts.refl (τ : Tab) (r : Row τ) : Lasts τ r r := by
  cases τ with
  | request => exact ⟨.refl _, .refl _⟩
  | slot => exact BookingSlot.Keeps.refl r

theorem Lasts.trans {τ : Tab} {r r' r'' : Row τ} (h : Lasts τ r r') (h' : Lasts τ r' r'') :
    Lasts τ r r'' := by
  cases τ with
  | request => exact ⟨h.1.trans h'.1, h.2.trans h'.2⟩
  | slot => exact BookingSlot.Keeps.trans h h'

/-- How a row goes on. -/
def GoesOn : ∀ τ, Row τ → Row τ → Prop
  | .request, r, r' => BookingRequest.GoesOn r r'
  | .slot, _, _ => True

theorem GoesOn.refl (τ : Tab) (r : Row τ) : GoesOn τ r r := by
  cases τ with
  | request => exact BookingRequest.GoesOn.refl r
  | slot => trivial

theorem GoesOn.trans {τ : Tab} {r r' r'' : Row τ} (h : GoesOn τ r r') (h' : GoesOn τ r' r'') :
    GoesOn τ r r'' := by
  cases τ with
  | request => exact BookingRequest.GoesOn.trans h h'
  | slot => trivial

theorem lasts_trans (τ : Tab) (r r' r'' : Row τ) : Lasts τ r r' → Lasts τ r' r'' → Lasts τ r r'' :=
  Lasts.trans

theorem Lasts.of_keeps {τ : Tab} {r r' : Row τ} (h : Keeps τ r r') (h' : GoesOn τ r r') :
    Lasts τ r r' := by
  cases τ with
  | request => exact ⟨h, h'⟩
  | slot => exact h

section Writes

variable {jobs : ℕ → Job} {d d' : View} {r r' : BookingRequest} {s s' : BookingSlot}

theorem ownedBookingWhere_of_keeps (h : r.Keeps r') {idOrCode : JsString} {owner : Cuid}
    (hr : ownedBookingWhere idOrCode owner r = true) :
    ownedBookingWhere idOrCode owner r' = true := by
  unfold ownedBookingWhere at hr ⊢
  rwa [h.lineUserId, h.id, h.code]

/-- A slot names the owner, whatever becomes of the booking. -/
theorem BookingSlot.Owned.evolves (hs : s.Owned jobs d) (h : Evolves Lasts d d') :
    s.Owned jobs d' := by
  intro hrole
  obtain ⟨r, owner, hr, howner, t, lineSub, idOrCode, hwhere, hjob⟩ := hs hrole
  obtain ⟨r', hr', hstays⟩ := h .request _ r hr
  have hkeeps : BookingRequest.Keeps r r' := hstays.1
  exact ⟨r', owner, hr', howner, t, lineSub, idOrCode, ownedBookingWhere_of_keeps hkeeps hwhere,
    hjob⟩

/-- What is not cancelled through LINE names nobody. -/
theorem BookingSlot.owned_of_ne (h : s.cancelledByRole ≠ some .lineUser) : s.Owned jobs d :=
  fun hrole ↦ absurd hrole h

/-- Only a LINE user cancels in the name of one. -/
theorem SlotWrite.owned {job : Job} (h : SlotWrite job s s')
    (hjob : ∀ op, job = .booking op → ¬ op.CancelsByLine) (hs : s.Owned jobs d) :
    s'.Owned jobs d := by
  cases h with
  | @cancelled op _ hop => exact absurd hop (hjob op rfl)
  | staffCancelled t c hlive => exact BookingSlot.owned_of_ne fun h ↦ by cases h
  | reminded => exact hs
  | held => exact hs

/-- A cancellation by the owner of the booking. -/
theorem owned_cancellation {t : ℕ} {lineSub idOrCode : JsString} {owner : Cuid} {now c : ℤ}
    (hr : d.row .request s.bookingRequestId = some r)
    (hwhere : ownedBookingWhere idOrCode owner r = true)
    (hjob : jobs t = .booking (.cancelPendingBooking lineSub idOrCode) ∨
      jobs t = .booking (.cancelApprovedSlot lineSub idOrCode s.id)) :
    (cancellation now owner c s).Owned jobs d :=
  fun _ ↦ ⟨r, owner, hr, rfl, t, lineSub, idOrCode, hwhere, hjob⟩

/-- Taking the slots of an approved request leaves its decision. -/
theorem fits_cancelledRequest {remaining : List BookingSlot} {c : ℤ} (hr : r.Fits)
    (hsettled : r.status.Settled) : (cancelledRequest remaining c r).Fits ∧
      r.GoesOn (cancelledRequest remaining c r) := by
  have hreason : ¬ r.rejectReason.isSome := fun h ↦ by
    rcases hsettled with hs | hs <;> simp [hr.reason, hs] at h
  have hclosed : ∀ r', r.status = .rejected ∨ r.status = .expired → r' = r := fun r' h ↦ by
    rcases hsettled with hs | hs <;> simp [hs] at h
  unfold cancelledRequest
  split
  · exact ⟨⟨hr.approver, hr.approved, hr.unapproved, hr.reason⟩, .refl _, hclosed _⟩
  · refine ⟨⟨hr.approver, fun h ↦ (by cases h), fun h ↦ by simp at h, ?_⟩, ?_, hclosed _⟩
    · simpa using hreason
    · rcases hsettled with hs | hs
      · exact .inr (.inr ⟨hs, rfl⟩)
      · exact .inl hs

/-- Every other statement decides on a pending request. -/
theorem RequestWrite.fits {job : Job} (h : RequestWrite job r r')
    (hjob : ∀ op, job = .booking op → ¬ op.CancelsSlots) (hr : r.Fits) :
    r'.Fits ∧ r.GoesOn r' := by
  have hopen : r.status = .pending → r.approvedById = none ∧ r.approvedAt = none ∧
      r.rejectReason = none := fun hp ↦ by
    have hby := hr.unapproved (.inl hp)
    have hat : ¬ r.approvedAt.isSome := fun h ↦ by
      have := hr.approver.2 h
      simp [hby] at this
    have hreason : ¬ r.rejectReason.isSome := fun h ↦ by
      simp [hr.reason, hp] at h
    exact ⟨hby, by simpa using hat, by simpa using hreason⟩
  cases h with
  | withdrawn c hp =>
    obtain ⟨hby, hat, hreason⟩ := hopen hp
    exact ⟨⟨by simp [hby, hat], by simp, by simp, by simp [hreason]⟩, .of_pending hp⟩
  | rejected c hid hp =>
    obtain ⟨hby, hat, -⟩ := hopen hp
    exact ⟨⟨by simp [hby, hat], by simp, by simp [hby], by simp⟩, .of_pending hp⟩
  | autoRejected c hp =>
    obtain ⟨hby, hat, -⟩ := hopen hp
    exact ⟨⟨by simp [hby, hat], by simp, by simp [hby], by simp⟩, .of_pending hp⟩
  | expired c hp =>
    obtain ⟨hby, hat, -⟩ := hopen hp
    exact ⟨⟨by simp [hby, hat], by simp, by simp [hby], by simp⟩, .of_pending hp⟩
  | approved approvedAt c hid hp =>
    obtain ⟨-, -, hreason⟩ := hopen hp
    exact ⟨⟨by simp, by simp, by simp, by simp [hreason]⟩, .of_pending hp⟩
  | @respanned op hop => exact absurd hop (hjob op rfl)

theorem RequestInsert.fits {job : Job} {i : ℕ} (h : RequestInsert job i r) : r.Fits := by
  cases h with
  | submitted hid hp hreason hby hat =>
    exact ⟨by simp [hby, hat], by simp [hp], by simp [hby], by simp [hreason, hp]⟩
  | direct hid ha hreason hby hat =>
    exact ⟨by simp [hby, hat], by simp [hby], by simp [ha], by simp [hreason, ha]⟩

theorem SlotInsert.owned {i : ℕ} (h : SlotInsert i s) : s.Owned jobs d :=
  BookingSlot.owned_of_ne (by simp [h.cancelledByRole])

end Writes

/-! ### The law -/

/-- The columns of every row tell, next to the committed rows `d`. -/
def Tells (jobs : ℕ → Job) (d : View) : ∀ τ, Row τ → Prop
  | .request, r => BookingRequest.Fits r
  | .slot, s => BookingSlot.Owned jobs d s

/-- Rows whose columns tell are made of such rows. -/
def ownerLaw (jobs : ℕ → Job) (d : View) : Law Row where
  good τ _ r := Tells jobs d τ r
  may _ τ _ x y := ∃ r', y = some r' ∧ Tells jobs d τ r' ∧ ∀ r, x = some r → GoesOn τ r r'
  keeps _ h := by
    obtain ⟨r', hr', htells, -⟩ := h
    exact Option.some.inj hr' ▸ htells

theorem ownerLaw_covers (jobs : ℕ → Job) (d : View) : (ownerLaw jobs d).Covers schema where
  before {t τ i x r} d' h := by
    obtain ⟨r', hr', htells, hmoves⟩ := h
    obtain rfl := Option.some.inj hr'
    cases τ with
    | request => exact ⟨_, rfl, htells, hmoves⟩
    | slot => exact ⟨_, rfl, htells, hmoves⟩
  after {τ old new τ' ch t i x r r'} ha hr _ hch := by
    cases τ with
    | slot => cases ha
    | request =>
      obtain ⟨push, hpush, he⟩ := Option.map_eq_some_iff.1 ha
      cases he
      unfold bookingRequestsHoldsSlot at hpush
      split at hpush
      · obtain rfl := Option.some.inj hpush
        dsimp only [pushHoldsSlot] at hch
        split at hch
        · obtain rfl := Option.some.inj hch
          exact ⟨_, rfl, hr, fun _ _ ↦ trivial⟩
        · cases hch
      · cases hpush

/-- The tables are on record, and their columns tell. -/
structure Recorded (jobs : ℕ → Job) (σ : BookingStore) : Prop where
  law : (recordLaw jobs).Lawful σ
  tells : (ownerLaw jobs σ.committed).Lawful σ

namespace Recorded

variable {jobs : ℕ → Job} {σ σ' : BookingStore} {t : ℕ} {τ : Tab}

theorem init (jobs : ℕ → Job) : Recorded jobs (Store.init Row) := ⟨.init _, .init _⟩

/-- What `d` knows of the parents, a later `d'` knows. -/
private theorem lawful_evolves {d d' : View} (h : (ownerLaw jobs d).Lawful σ)
    (hd : Evolves Lasts d d') : (ownerLaw jobs d').Lawful σ := by
  have htells : ∀ τ (r : Row τ), Tells jobs d τ r → Tells jobs d' τ r := fun τ r hr ↦ by
    cases τ with
    | request => exact hr
    | slot => exact BookingSlot.Owned.evolves hr hd
  refine ⟨fun τ i r hr ↦ htells τ r (h.good τ i r hr), fun τ i t x hx ↦ ?_⟩
  obtain ⟨r', hr', htold, hmoves⟩ := h.may τ i t x hx
  exact ⟨r', hr', htells τ r' htold, hmoves⟩

/-- A commit leaves what stays. -/
theorem evolves_commit (h : Recorded jobs σ) (t : ℕ) :
    Evolves Lasts σ.committed (σ.commit t).committed := by
  have hkeeps : Evolves Keeps σ.committed (σ.commit t).committed :=
    h.law.evolves_commit Keeps.refl (fun _ _ _ _ h ↦ h)
      (Law.le_of_generated Keeps.refl Keeps.trans keeps_of_writes) t
  have hmoves : Evolves GoesOn σ.committed (σ.commit t).committed := by
    refine h.tells.evolves_commit GoesOn.refl (fun _ _ _ _ h ↦ ?_) (fun _ _ _ r _ _ h ↦ ?_) t
    · obtain ⟨_, hr', -⟩ := h
      cases hr'
    · obtain ⟨_, hr', -, hmoves⟩ := h
      exact Option.some.inj hr' ▸ hmoves r rfl
  intro τ i r hr
  obtain ⟨r', hr', hk⟩ := hkeeps τ i r hr
  obtain ⟨r'', hr'', hm⟩ := hmoves τ i r hr
  obtain rfl := Option.some.inj (hr'.symm.trans hr'')
  exact ⟨r', hr', .of_keeps hk hm⟩

theorem tick (h : Recorded jobs σ) (c : ℤ) : Recorded jobs (σ.tick c) :=
  ⟨h.law.tick c, h.tells.tick c⟩

theorem commit (h : Recorded jobs σ) (t : ℕ) : Recorded jobs (σ.commit t) :=
  ⟨h.law.commit t, lawful_evolves (h.tells.commit t) (h.evolves_commit t)⟩

theorem abort (h : Recorded jobs σ) (t : ℕ) : Recorded jobs (σ.abort t) :=
  ⟨h.law.abort t, by rw [Store.committed_abort]; exact h.tells.abort t⟩

/-- What nobody has committed stays. -/
private theorem evolves_work (hw : Store.WorkBy t σ σ') : Evolves Lasts σ.committed σ'.committed :=
  .of_row_eq Lasts.refl fun τ i ↦ by simpa using hw.committed τ i

/-- A bulk statement keeps both laws. -/
theorem modify (h : Recorded jobs σ) {snapshot : View} {ch : Row τ → Option (Option (Row τ))}
    {rows : List (Row τ)} (hm : σ.modify schema t τ snapshot ch = .done (rows, σ'))
    (hch : ∀ i r x, (σ.cell τ i).seen (some t) = some r → ch r = some x →
      ∃ r', x = some r' ∧ (jobs t).writes τ r r' ∧ Tells jobs σ.committed τ r' ∧ GoesOn τ r r') :
    Recorded jobs σ' := by
  refine ⟨h.law.modify_of_covers (Law.generated_covers (writesBy jobs)) hm fun i r x hr hx ↦ ?_,
    lawful_evolves (h.tells.modify_of_covers (ownerLaw_covers jobs _) hm fun i r x hr hx ↦ ?_)
      (evolves_work (Store.workBy_modify hm))⟩
  · obtain ⟨r', rfl, hw, -⟩ := hch i r x hr hx
    exact Law.generated_tail (h.law.seen_cases hr) hw
  · obtain ⟨r', rfl, -, htells, hmoves⟩ := hch i r x hr hx
    refine ⟨r', rfl, htells, fun r₀ hr₀ ↦ ?_⟩
    rcases h.tells.seen_cases hr with hc | ⟨r₁, hr₁, -, hmoves₁⟩
    · obtain rfl := Option.some.inj (hr₀.symm.trans hc)
      exact hmoves
    · obtain rfl := Option.some.inj hr₁
      exact (hmoves₁ r₀ hr₀).trans hmoves

/-- So does an insertion. -/
theorem insert (h : Recorded jobs σ) {r r' : Row τ}
    (hi : σ.insert schema t τ r = .done (r', σ')) (hr : (jobs t).inserts τ σ.next r)
    (htells : Tells jobs σ.committed τ r) : Recorded jobs σ' :=
  ⟨h.law.insert_of_covers (Law.generated_covers (writesBy jobs)) hi ⟨r, hr, .refl⟩,
    lawful_evolves (h.tells.insert_of_covers (ownerLaw_covers jobs _) hi
      ⟨r, rfl, htells, fun _ h ↦ (by cases h)⟩) (evolves_work (Store.workBy_insert hi))⟩

/-- What a transaction sees of a row that was committed once. -/
theorem seen_lasts (h : Recorded jobs σ) {d : View} (hd : Evolves Lasts d σ.committed) {i : ℕ}
    {r₀ r : Row τ} (hr₀ : d.row τ i = some r₀) (hr : (σ.cell τ i).seen (some t) = some r) :
    Lasts τ r₀ r := by
  obtain ⟨r₁, hr₁, hstays⟩ := hd τ i r₀ hr₀
  have hr₁ : (σ.cell τ i).committed = some r₁ := by simpa using hr₁
  refine hstays.trans ?_
  rcases h.tells.seen_cases hr with hc | ⟨r', hr', -, hmoves⟩
  · exact Option.some.inj (hr₁.symm.trans hc) ▸ .refl τ r₁
  obtain rfl := Option.some.inj hr'
  refine .of_keeps ?_ (hmoves r₁ hr₁)
  rcases h.law.seen_cases hr with hc | hmay
  · exact Option.some.inj (hr₁.symm.trans hc) ▸ Keeps.refl τ r₁
  · rw [hr₁] at hmay
    exact Law.le_of_generated Keeps.refl Keeps.trans keeps_of_writes t τ i r₁ r
      (h.law.good τ i r₁ hr₁) hmay

end Recorded

/-! ### The contract -/

/-- A contract of the nine writers that keeps the tables on record. -/
def ownerContract (jobs : ℕ → Job) : Contract Row BookingError Reply where
  inv := Recorded jobs
  ready _ _ := True
  answers _ _ _ _ := True
  failing _ := True
  grant _ _ _ _ _ := True
  inv_tick h _ := h.tick _
  inv_commit h _ := h.commit _
  inv_abort h := h.abort _

section Services

variable {jobs : ℕ → Job} {t : ℕ} {log : List (Failure Row BookingError)} {seen reads : List View}
  {clocked : Reading Row} {σ σ' : BookingStore}

/-- A commit under the contract leaves what stays. -/
theorem lasts_of_commit (σ : BookingStore) (hσ : (ownerContract jobs).inv σ) (t : ℕ) :
    Evolves Lasts σ.committed (σ.commit t).committed :=
  Recorded.evolves_commit hσ t

theorem stays_of_rely (h : Rely (ownerContract jobs) t σ σ') :
    Evolves Lasts σ.committed σ'.committed :=
  h.evolves Lasts.refl lasts_trans lasts_of_commit

/-- A call that neither takes the slots of an approved request nor cancels through LINE keeps the
tables on record, whatever it has read. -/
theorem tolerates_of_not_cancels
    (hslots : ∀ op, jobs t = .booking op → ¬ op.CancelsSlots)
    (hline : ∀ op, jobs t = .booking op → ¬ op.CancelsByLine) :
    (ownerContract jobs).Tolerates schema t (fun τ r x ↦ ∃ r', x = some r' ∧ (jobs t).writes τ r r')
      fun τ i r ↦ (jobs t).inserts τ i r where
  modify {τ σ σ' snapshot ch rows reads} hch hσ hm _ := by
    refine Recorded.modify hσ hm fun i r x hr hx ↦ ?_
    obtain ⟨r', rfl, hw⟩ := hch r x hx
    refine ⟨r', rfl, hw, ?_⟩
    have htells := hσ.tells.seen_good hr
    cases τ with
    | request => exact RequestWrite.fits hw hslots htells
    | slot => exact ⟨SlotWrite.owned hw hline htells, trivial⟩
  insert {τ σ σ' r r' reads} hr hσ hi _ := by
    refine Recorded.insert hσ hi hr ?_
    cases τ with
    | request => exact RequestInsert.fits hr
    | slot => exact SlotInsert.owned hr
  ready _ := trivial
  answers _ := trivial
  failing _ := trivial

/-- An update in a transaction that knows something of what was committed. -/
private theorem wp_update_recorded {τ : Tab} {ch : ℤ → Row τ → Option (Row τ)}
    {k : List (Row τ) → Tx Reply} {d : View} (hd : Evolves Lasts d σ.committed)
    (hch : ∀ σ', Recorded jobs σ' → Evolves Lasts d σ'.committed → ∀ c i r r',
      (σ'.cell τ i).seen (some t) = some r → ch c r = some r' →
      (jobs t).writes τ r r' ∧ Tells jobs σ'.committed τ r' ∧ GoesOn τ r r')
    (hk : ∀ rows σ', Evolves Lasts d σ'.committed → wp (ownerContract jobs) schema t
      (fun _ ↦ True) (Committing (ownerContract jobs) t) (k rows) clocked reads σ') :
    wp (ownerContract jobs) schema t (fun _ ↦ True) (Committing (ownerContract jobs) t)
      (Prog.update τ ch >>= k) clocked reads σ := by
  refine wp_update.2 fun σ₀ h₀ _ σ₁ h₁ hσ₁ ↦ ⟨fun rows σ₂ hm _ ↦ ?_, fun _ _ ↦ trivial⟩
  have hd₁ := (hd.trans lasts_trans (stays_of_rely h₀)).trans lasts_trans (stays_of_rely h₁)
  refine ⟨Recorded.modify hσ₁ hm fun i r x hr hx ↦ ?_, hk rows σ₂ (hd₁.trans lasts_trans ?_)⟩
  · obtain ⟨r', hr', rfl⟩ := Option.map_eq_some_iff.1 hx
    obtain ⟨hw, htells, hmoves⟩ := hch σ₁ hσ₁ hd₁ _ i r r' hr hr'
    exact ⟨r', rfl, hw, htells, hmoves⟩
  · exact .of_row_eq Lasts.refl fun τ i ↦ by
      simpa using (Store.workBy_modify hm).committed τ i

/-- A transaction whose answer nobody relies on. -/
private theorem wp_reply {reply : Reply} :
    wp (ownerContract jobs) schema t (fun _ ↦ True) (Committing (ownerContract jobs) t)
      (pure reply : Tx Reply) clocked reads σ :=
  fun _ _ _ ↦ ⟨trivial, trivial⟩

/-- The condition of a transaction of `t`. -/
abbrev RecordingTx (jobs : ℕ → Job) (t : ℕ) (p : Tx Reply) : Prop :=
  ∀ σ, Recorded jobs σ → σ.Clean t → ∀ clocked seen,
    wp (ownerContract jobs) schema t (fun _ ↦ True) (Committing (ownerContract jobs) t) p clocked
      seen σ

/-- The booking that the transaction has looked up by its owner. -/
private theorem owned_of_found {idOrCode : JsString} {owner : Cuid} {booking : BookingRequest}
    (hσ : Recorded jobs σ) (hclean : σ.Clean t)
    (h : ((σ.view (some t)).all .request).find? (ownedBookingWhere idOrCode owner) =
      some booking) :
    σ.committed.row .request booking.id = some booking ∧
      ownedBookingWhere idOrCode owner booking = true := by
  rw [Store.view_of_clean hclean] at h
  have hmem : booking ∈ σ.committed.all Tab.request := List.mem_of_find?_eq_some h
  obtain ⟨i, hi⟩ := Db.mem_all.1 hmem
  have hrecord : BookingRequest.OnRecord jobs i booking := hσ.law.seen_good hi
  rw [hrecord.id_eq]
  exact ⟨hi, List.find?_some h⟩

/-- The last statement of both cancellations of single slots. -/
private theorem wp_updateParent {op : Op} (ht : jobs t = .booking op) (hop : op.CancelsSlots)
    {d : View} (hd : Evolves Lasts d σ.committed) {booking : BookingRequest}
    (hbooking : d.row .request booking.id = some booking) (happroved : booking.status = .approved)
    (remaining : List BookingSlot) {reply : Reply} :
    wp (ownerContract jobs) schema t (fun _ ↦ True) (Committing (ownerContract jobs) t)
      (updateRequestById booking.id (cancelledRequest remaining) >>= fun _ ↦ pure reply) clocked
      reads σ := by
  refine wp_update_recorded hd (fun σ' hσ' hd' c i r r' hr hch ↦ ?_) fun rows σ' _ ↦
    wp_refuse (fun _ _ ↦ trivial) fun _ ↦ wp_reply
  split at hch
  · next hid =>
    obtain rfl := Option.some.inj hch
    have hrecord : BookingRequest.OnRecord jobs i r := hσ'.law.seen_good hr
    have hi : i = booking.id := hrecord.id_eq.symm.trans hid
    subst hi
    have hstays : Lasts .request booking r := hσ'.seen_lasts hd' hbooking hr
    have hsettled : r.status.Settled := BookingStatus.Settled.moves (.inl happroved) hstays.2.moves
    refine ⟨?_, fits_cancelledRequest (hσ'.tells.seen_good hr) hsettled⟩
    rw [ht]
    exact .respanned hop remaining r c
  · cases hch

theorem recording_cancelPendingBookingTx {lineSub idOrCode : JsString}
    (ht : jobs t = .booking (.cancelPendingBooking lineSub idOrCode)) (requester : Cuid) (now : ℤ) :
    RecordingTx jobs t (cancelPendingBookingTx idOrCode requester now) := by
  intro σ hσ hclean clocked seen
  have hop : (Op.cancelPendingBooking lineSub idOrCode).CancelsByLine := trivial
  refine wp_query.2 fun σ₁ h₁ hσ₁ ↦ wp_require (fun _ _ ↦ trivial) fun booking hfound ↦
    wp_refuse (fun _ _ ↦ trivial) fun _ ↦ ?_
  obtain ⟨hbooking, hwhere⟩ := owned_of_found hσ₁ (h₁.clean hclean) hfound
  refine wp_update_recorded (.refl Lasts.refl _) (fun σ' hσ' _ c i r r' hr hch ↦ ?_)
    fun rows σ₂ hd₂ ↦ wp_refuse (fun _ _ ↦ trivial) fun _ ↦
      wp_update_recorded hd₂ (fun σ' _ hd' c j s s' _ hch ↦ ?_) fun _ _ _ ↦ wp_reply
  · split at hch
    · next hp =>
      obtain rfl := Option.some.inj hch
      have hw : RequestWrite (.booking (.cancelPendingBooking lineSub idOrCode)) r _ :=
        .withdrawn c hp.2
      refine ⟨ht ▸ hw, hw.fits (fun op he ↦ ?_) (hσ'.tells.seen_good hr)⟩
      obtain rfl := Job.booking.inj he
      exact id
    · cases hch
  · split at hch
    · next hp =>
      obtain rfl := Option.some.inj hch
      obtain ⟨r', hr', hstays⟩ := hd' .request booking.id booking hbooking
      have hkeeps : BookingRequest.Keeps booking r' := hstays.1
      refine ⟨?_, ?_, trivial⟩
      · rw [ht]
        exact .cancelled hop requester now c hp.2
      · exact owned_cancellation (hp.1 ▸ hr') (ownedBookingWhere_of_keeps hkeeps hwhere) (.inl ht)
    · cases hch

theorem recording_cancelApprovedSlotTx {lineSub idOrCode : JsString} {slotId : Cuid}
    (ht : jobs t = .booking (.cancelApprovedSlot lineSub idOrCode slotId)) (requester : Cuid)
    (now cutoff : ℤ) :
    RecordingTx jobs t (cancelApprovedSlotTx idOrCode slotId requester now cutoff) := by
  intro σ hσ hclean clocked seen
  have hline : (Op.cancelApprovedSlot lineSub idOrCode slotId).CancelsByLine := trivial
  have hslots : (Op.cancelApprovedSlot lineSub idOrCode slotId).CancelsSlots := trivial
  refine wp_query.2 fun σ₁ h₁ hσ₁ ↦ wp_require (fun _ _ ↦ trivial) fun booking hfound ↦
    wp_refuse (fun _ _ ↦ trivial) fun happroved ↦ ?_
  obtain ⟨hbooking₁, hwhere⟩ := owned_of_found hσ₁ (h₁.clean hclean) hfound
  refine wp_query.2 fun σ₂ h₂ hσ₂ ↦ wp_require (fun _ _ ↦ trivial) fun slot hslot ↦
    wp_refuse (fun _ _ ↦ trivial) fun _ ↦ wp_refuse (fun _ _ ↦ trivial) fun _ ↦ ?_
  obtain ⟨hslot₂, hparent⟩ : σ₂.committed.row .slot slotId = some slot ∧
      slot.bookingRequestId = booking.id := by
    obtain ⟨hs, hp⟩ := Option.filter_eq_some_iff.1 hslot
    rw [Store.view_of_clean (h₂.clean (h₁.clean hclean))] at hs
    exact ⟨hs, by simpa using hp⟩
  have hslotId : slot.id = slotId := by
    have hσ₂ : Recorded jobs σ₂ := hσ₂
    have hrecord : BookingSlot.OnRecord jobs slotId slot := hσ₂.law.seen_good hslot₂
    exact hrecord.id_eq
  obtain ⟨booking₂, hbooking₂, hstays₂⟩ := stays_of_rely h₂ .request booking.id booking hbooking₁
  have hkeeps₂ : BookingRequest.Keeps booking booking₂ := hstays₂.1
  refine wp_update_recorded (.refl Lasts.refl _) (fun σ' hσ' hd' c j s s' hs hch ↦ ?_)
    fun rows σ₃ hd₃ ↦ wp_refuse (fun _ _ ↦ trivial) fun _ ↦ wp_query.2 fun σ₄ h₄ _ ↦
      wp_updateParent ht hslots (((stays_of_rely h₂).trans lasts_trans hd₃).trans lasts_trans
        (stays_of_rely h₄)) hbooking₁ (by simpa using happroved) _
  split at hch
  · next hp =>
    obtain rfl := Option.some.inj hch
    -- the slot is the one that was looked up, and its parent the booking
    have hrecord : BookingSlot.OnRecord jobs j s := hσ'.law.seen_good hs
    have hj : j = slotId := hrecord.id_eq.symm.trans (hp.1.trans hslotId)
    subst hj
    have hkeeps : BookingSlot.Keeps slot s := hσ'.seen_lasts hd' hslot₂ hs
    obtain ⟨r', hr', hstays'⟩ := hd' .request booking.id booking₂ hbooking₂
    have hkeeps' : BookingRequest.Keeps booking₂ r' := hstays'.1
    have hrow : σ'.committed.row .request s.bookingRequestId = some r' := by
      rw [hkeeps.bookingRequestId, hparent]
      exact hr'
    have hcall : jobs t = .booking (.cancelApprovedSlot lineSub idOrCode s.id) := by
      rw [ht, hrecord.id_eq]
    refine ⟨?_, owned_cancellation hrow (ownedBookingWhere_of_keeps (hkeeps₂.trans hkeeps') hwhere)
      (.inr hcall), trivial⟩
    rw [ht]
    exact .cancelled hline requester now c hp.2
  · cases hch

theorem recording_cancelTx {id : Cuid} {dto : CancelBookingRequestDto} {actor : Actor}
    (ht : jobs t = .booking (.cancel id dto actor)) :
    RecordingTx jobs t (cancelTx id dto actor) := by
  intro σ hσ hclean clocked seen
  have hslots : (Op.cancel id dto actor).CancelsSlots := trivial
  refine wp_query.2 fun σ₁ h₁ _ ↦ wp_require (fun _ _ ↦ trivial) fun _ _ ↦
    wp_acquire.2 <| wp_query.2 fun σ₂ h₂ hσ₂ ↦ wp_refuse (fun _ _ ↦ trivial) fun hst ↦ ?_
  rw [ne_eq, not_not] at hst
  obtain ⟨booking, hbooking, happroved⟩ := Option.map_eq_some_iff.1 hst
  have hclean₂ := h₂.clean (h₁.clean hclean)
  rw [Store.view_of_clean hclean₂] at hbooking
  have hid : booking.id = id := by
    have hσ₂ : Recorded jobs σ₂ := hσ₂
    have hrecord : BookingRequest.OnRecord jobs id booking := hσ₂.law.seen_good hbooking
    exact hrecord.id_eq
  subst hid
  refine wp_query.2 fun σ₃ h₃ _ ↦ wp_refuse (fun _ _ ↦ trivial) fun _ ↦
    wp_ofExcept (fun _ _ _ _ ↦ trivial) fun targets _ ↦ wp_readClock.2 fun σ₄ h₄ _ ↦ ?_
  refine wp_update_recorded ((stays_of_rely h₃).trans lasts_trans (stays_of_rely h₄))
    (fun σ' _ _ c j s s' _ hch ↦ ?_) fun rows σ₅ hd₅ ↦ wp_refuse (fun _ _ ↦ trivial) fun _ ↦
      wp_updateParent ht hslots hd₅ hbooking happroved _
  split at hch
  · next hp =>
    obtain rfl := Option.some.inj hch
    have howned : (staffCancellation σ₄.clock actor dto.reason c s).Owned jobs σ'.committed :=
      BookingSlot.owned_of_ne fun h ↦ by cases h
    refine ⟨?_, howned, trivial⟩
    rw [ht]
    exact .staffCancelled σ₄.clock c hp.2
  · cases hch

/-- A session that tries such a transaction once. -/
private theorem safe_attempt_of_recordingTx {p : Tx Reply} (hp : RecordingTx jobs t p)
    {g : Except BookingError Reply → Except BookingError Reply} :
    Safe (ownerContract jobs) schema scheduled.loses (fun _ _ ↦ True) t log seen
      (.attempt p fun r ↦ .done (g r)) :=
  safe_attempt_of_wp (fun _ ↦ True) (fun σ hσ hclean ↦ hp σ hσ hclean _ _) (fun _ _ ↦ trivial)
    fun _ _ ↦ ⟨trivial, trivial⟩

private theorem safe_requester {lineSub : JsString} {k : Cuid → Call}
    (h : ∀ id, Safe (ownerContract jobs) schema scheduled.loses (fun _ _ ↦ True) t log seen
      (k id)) :
    Safe (ownerContract jobs) schema scheduled.loses (fun _ _ ↦ True) t log seen
      (resolveAllowedRequester lineSub k) := by
  intro user
  match user with
  | some (id, .allowed) => exact h id
  | some (_, .unregistered) | some (_, .pending) | some (_, .rejected) | some (_, .blocked)
  | none => trivial

/-- Every call keeps the tables on record. -/
theorem safe_recorded (job : Job) (ht : jobs t = job) :
    Safe (ownerContract jobs) schema scheduled.loses (fun _ _ ↦ True) t log seen
      (scheduled.service job) := by
  have hother : (∀ op, job = .booking op → ¬ op.CancelsSlots ∧ ¬ op.CancelsByLine) →
      Safe (ownerContract jobs) schema scheduled.loses (fun _ _ ↦ True) t log seen
        (scheduled.service job) := fun hop ↦
    safe_of_obeys (tolerates_of_not_cancels (fun op h ↦ (hop op (ht.symm.trans h)).1)
      fun op h ↦ (hop op (ht.symm.trans h)).2) (ht ▸ partOf_scheduled job)
  cases job with
  | remindUpcoming => exact hother fun op h ↦ by cases h
  | booking op =>
    cases op with
    | cancelPendingBooking lineSub idOrCode =>
      exact safe_requester fun requester now ↦
        safe_attempt_of_recordingTx (recording_cancelPendingBookingTx ht requester now)
    | cancelApprovedSlot lineSub idOrCode slotId =>
      exact safe_requester fun requester value now ↦
        safe_attempt_of_recordingTx (recording_cancelApprovedSlotTx ht requester now _)
    | cancel id dto actor => exact safe_attempt_of_recordingTx (recording_cancelTx ht)
    | _ =>
      refine hother fun op h ↦ ?_
      obtain rfl := Job.booking.inj h
      exact ⟨id, id⟩

end Services

/-! ### Runs -/

theorem healthy_recorded {jobs : ℕ → Job} {w : BookingWorld} (hw : scheduled.ReachAs jobs w) :
    Healthy scheduled (ownerContract jobs) (fun _ _ ↦ True) w :=
  adequate (Recorded.init jobs) (fun _ _ _ ha ↦ safe_recorded _ ha.symm)
    (fun w e _ ↦ granted_true w e) (fun w e _ ↦ accepted_true w e)
    (fun _ _ _ _ _ ↦ relyOn_true _ _ _) hw

/-- Whatever is committed stays. -/
theorem stays_step {jobs : ℕ → Job} {w w' : BookingWorld} {e : ScheduledEvent}
    (hw : scheduled.ReachAs jobs w) (hs : scheduled.step e w = some w') :
    Evolves Lasts w.store.committed w'.store.committed :=
  System.evolves_step Lasts.refl lasts_of_commit (healthy_recorded hw) hs

/-- **What is on record stands.** In any interleaving every row is in order and its columns tell,
and whatever has been committed is still there, with everything that stays of it. -/
theorem records_stand {jobs : ℕ → Job} {α : Type} {obs : BookingWorld → ScheduledEvent → List α}
    {log : List α} {w₀ w : BookingWorld} (h₀ : scheduled.ReachAs jobs w₀)
    (h : scheduled.TraceAs jobs obs w₀ log w) :
    (∀ τ i r, w.store.committed.row τ i = some r →
        OnRecord jobs τ i r ∧ Tells jobs w.store.committed τ r) ∧
      Evolves Lasts w₀.store.committed w.store.committed := by
  refine ⟨fun τ i r hr ↦ ?_, System.evolves Lasts.refl lasts_trans lasts_of_commit
    (fun _ hw ↦ healthy_recorded hw) h₀ h⟩
  have hrecorded : Recorded jobs w.store := (healthy_recorded (h.reach h₀)).inv
  exact ⟨hrecorded.law.seen_good hr, hrecorded.tells.seen_good hr⟩

namespace Sample

/-- What is written while a booking is on record: its first slot is reminded of, and the LINE user
whom it is for drops the second one. -/
def recorded : List ScheduledEvent :=
  .tick (100 * 3600000 - 1800000) :: .call 1 .remindUpcoming :: go 1 6 ++
    .call 2 (.booking (.cancelApprovedSlot [] (cuidText 0) 2)) ::
      [.answer 2 oracle, .answer 2 oracle] ++ go 2 10

end Sample

/-- A booking on which a reminder and a cancellation by its owner are put on record. -/
theorem records_stand_recorded : ∃ (jobs : ℕ → Job) (w₀ w : BookingWorld),
    scheduled.ReachAs jobs w₀ ∧ (w₀.store.committed.row .slot 2).isSome ∧
    Evolves Lasts w₀.store.committed w.store.committed ∧
    (∃ s : BookingSlot, w.store.committed.row .slot 1 = some s ∧ s.reminderSentAt.isSome ∧
      BookingSlot.OnRecord jobs 1 s) ∧
    ∃ s : BookingSlot, w.store.committed.row .slot 2 = some s ∧
      s.cancelledByRole = some .lineUser ∧ s.cancelledById = some 7 ∧
      BookingSlot.OnRecord jobs 2 s ∧ s.Owned jobs w.store.committed := by
  have hcalls : ((Sample.booked ++ Sample.recorded).filterMap Event.caller).Nodup := by
    decide +kernel
  have hallowed : ∀ e ∈ Sample.booked ++ Sample.recorded,
      e.CalledAs (callsIn .remindUpcoming (Sample.booked ++ Sample.recorded)) :=
    calledAs_callsIn hcalls
  have htrace : ∀ {es : List ScheduledEvent} {w w' : BookingWorld},
      (∀ e ∈ es, e ∈ Sample.booked ++ Sample.recorded) → scheduled.exec es w = some w' →
      scheduled.TraceAs (callsIn .remindUpcoming (Sample.booked ++ Sample.recorded))
        (fun _ _ ↦ ([] : List Unit)) w _ w' := fun hes hw ↦
    .exec .refl (fun _ e he ↦ hallowed e (hes e he)) hw
  have hval : (scheduled.exec Sample.booked World.init).map (fun w : BookingWorld ↦
      (w.store.committed.row .slot 2).isSome &&
      ((scheduled.exec Sample.recorded w).map fun w : BookingWorld ↦
        ((w.store.committed.row .slot 1).map fun s ↦ BookingSlot.reminderSentAt s |>.isSome,
          (w.store.committed.row .slot 2).map fun s ↦
            (BookingSlot.cancelledByRole s, BookingSlot.cancelledById s))) =
        some (some true, some (some .lineUser, some 7))) = some true := by
    decide +kernel
  obtain ⟨w₀, hw₀, hval⟩ := Option.map_eq_some_iff.1 hval
  simp only [Bool.and_eq_true, decide_eq_true_eq] at hval
  obtain ⟨w, hw, hrows⟩ := Option.map_eq_some_iff.1 hval.2
  obtain ⟨hfirst, hsecond⟩ := Prod.mk.inj hrows
  obtain ⟨s₁, hs₁, hreminded⟩ := Option.map_eq_some_iff.1 hfirst
  obtain ⟨s₂, hs₂, hline⟩ := Option.map_eq_some_iff.1 hsecond
  obtain ⟨hrole, hby⟩ := Prod.mk.inj hline
  have hreach := (htrace (fun e he ↦ List.mem_append_left _ he) hw₀).reach .init
  obtain ⟨hrecord, hstays⟩ :=
    records_stand hreach (htrace (fun e he ↦ List.mem_append_right _ he) hw)
  exact ⟨_, w₀, w, hreach, hval.1, hstays, ⟨s₁, hs₁, hreminded, (hrecord .slot 1 s₁ hs₁).1⟩,
    s₂, hs₂, hrole, hby, hrecord .slot 2 s₂ hs₂⟩

end EasyBook

import EasyBook.Bookings.Owners
import EasyBook.ReadCommitted.Claims

/-!
# The sweeps hand on every row once

`remindUpcoming` marks the slots that begin within the hour, `expireOverdue` the requests whose time
has passed undecided, and each hands the keys that its statement returned to the notifier. The
statement is the claim: whatever else runs, and however many instances sweep at once, no key is
handed on twice, a slot is reminded of and a request expires by no other way, and what a sweep hands
on has stayed so.
-/

namespace EasyBook

open ReadCommitted ReadCommitted.Prog

/-! ### What a sweep claims -/

/-- What a reminder makes of a slot; `reads` is what its transaction has seen. -/
structure Reminded (reads : List View) (s s' : BookingSlot) : Prop where
  live : s.isCancelled = false
  unreminded : s.reminderSentAt = none
  remindable : ∃ d ∈ reads, remindable d s.bookingRequestId = true
  sent : ∃ now, s'.reminderSentAt = some now ∧ now < s.startAt ∧
    s.startAt ≤ now + bookingReminderLeadMinutes * 60000

/-- What the expiry makes of a request. -/
structure Expired (r r' : BookingRequest) : Prop where
  pending : r.status = .pending
  expired : ∃ c, r' = { r with
    status := .expired, rejectReason := some autoExpiredReason, updatedAt := c }

theorem Expired.status {r r' : BookingRequest} (h : Expired r r') : r'.status = .expired := by
  obtain ⟨c, rfl⟩ := h.expired
  rfl

/-- The answer of a sweep is what it has claimed. -/
def AnswersClaims (jobs : ℕ → Job) (t : ℕ) (reply : Reply) (reads : List View)
    (σ : BookingStore) : Prop :=
  match jobs t with
  | .remindUpcoming => ∃ ids, reply = .expired ids ∧ σ.Claimed t .slot (Reminded reads) ids
  | .booking .expireOverdue => ∃ ids, reply = .expired ids ∧ σ.Claimed t .request Expired ids
  | .booking _ => True

theorem outward_slot : schema.Outward .slot := fun _ _ _ _ h ↦ (nomatch h)

theorem outward_request : schema.Outward .request := fun _ _ _ _ h ↦ by
  obtain ⟨push, -, he⟩ := Option.map_eq_some_iff.1 h
  cases he
  exact fun h ↦ (nomatch h)

section Safe

variable {jobs : ℕ → Job} {t : ℕ} {log : List (Failure Row BookingError)} {seen : List View}

theorem covers (jobs : ℕ → Job) : (recordLaw jobs).Covers schema :=
  Law.generated_covers (writesBy jobs)

theorem safe_remindUpcoming (ht : jobs t = .remindUpcoming) :
    Safe (recordContract jobs (AnswersClaims jobs)) schema scheduled.loses (fun _ _ ↦ True) t log
      seen remindUpcoming := by
  intro now
  refine safe_attempt_of_wp (fun _ ↦ True) (fun σ _ hclean ↦ wp_query.2 fun σ₁ h₁ _ ↦ ?_)
    (fun r reads ↦ trivial) fun f _ ↦ ⟨trivial, trivial⟩
  refine wp_update_claims BookingSlot.id (Reminded (σ₁.view (some t) :: seen)) (covers jobs)
    outward_slot (fun _ ↦ trivial) (h₁.clean hclean) (fun σ' c i s s' hσ' hs hch ↦ ?_)
    fun rows σ' _ hclaimed σ₂ h₂ _ ↦ ⟨trivial, ?_⟩
  · split at hch
    · next hp =>
      obtain rfl := Option.some.inj hch
      obtain ⟨hnot, hlive, hnow, hsoon, hdue⟩ := hp
      have hin : BookingSlot.OnRecord jobs i s := hσ'.good .slot i s hs
      refine ⟨.single ?_, hin.id_eq, hlive, hnot, ⟨_, List.mem_cons_self, hdue⟩,
        now, rfl, hnow, hsoon⟩
      show SlotWrite (jobs t) s _
      rw [ht]
      exact .reminded now c hnot hlive hnow hsoon
    · cases hch
  · show AnswersClaims jobs t _ _ σ₂
    simp only [AnswersClaims, ht]
    exact ⟨_, rfl, hclaimed.rely h₂⟩

theorem safe_expireOverdue (ht : jobs t = .booking .expireOverdue) :
    Safe (recordContract jobs (AnswersClaims jobs)) schema scheduled.loses (fun _ _ ↦ True) t log
      seen expireOverdue := by
  intro now
  refine safe_attempt_of_wp (fun _ ↦ True) (fun σ _ hclean ↦ ?_)
    (fun r reads ↦ trivial) fun f _ ↦ ⟨trivial, trivial⟩
  refine wp_update_claims BookingRequest.id Expired (covers jobs) outward_request
    (fun _ ↦ trivial) hclean (fun σ' c i r r' hσ' hr hch ↦ ?_)
    fun rows σ' _ hclaimed σ₂ h₂ _ ↦ ⟨trivial, ?_⟩
  · split at hch
    · next hp =>
      obtain rfl := Option.some.inj hch
      have hin : BookingRequest.OnRecord jobs i r := hσ'.good .request i r hr
      refine ⟨.single ?_, hin.id_eq, hp.1, c, rfl⟩
      show RequestWrite (jobs t) r _
      rw [ht]
      exact .expired c hp.1
    · cases hch
  · show AnswersClaims jobs t _ _ σ₂
    simp only [AnswersClaims, ht]
    exact ⟨_, rfl, hclaimed.rely h₂⟩

/-- Every call keeps the contract. -/
theorem safe_scheduled (job : Job) (ht : jobs t = job) :
    Safe (recordContract jobs (AnswersClaims jobs)) schema scheduled.loses (fun _ _ ↦ True) t log
      seen (scheduled.service job) := by
  have hother : (∀ reply reads σ, AnswersClaims jobs t reply reads σ) →
      Safe (recordContract jobs (AnswersClaims jobs)) schema scheduled.loses (fun _ _ ↦ True) t log
        seen (scheduled.service job) := fun htold ↦
    safe_of_partOf (ht ▸ partOf_scheduled job) htold
  cases job with
  | remindUpcoming => exact safe_remindUpcoming ht
  | booking op =>
    cases op with
    | expireOverdue => exact safe_expireOverdue ht
    | _ => exact hother fun _ _ _ ↦ by simp [AnswersClaims, ht]

end Safe

theorem healthy_sweeps {jobs : ℕ → Job} {w : BookingWorld} (hw : scheduled.ReachAs jobs w) :
    Healthy scheduled (recordContract jobs (AnswersClaims jobs)) (fun _ _ ↦ True) w :=
  adequate (Law.Lawful.init _) (fun _ _ _ ha ↦ safe_scheduled _ ha.symm)
    (fun w e _ ↦ granted_true w e) (fun w e _ ↦ accepted_true w e)
    (fun _ _ _ _ _ ↦ relyOn_true _ _ _) hw

/-! ### What is handed on -/

/-- What a committed sweep returns: a key, and what was committed under it until then. -/
inductive Notice where
  | reminder (id : Cuid) (before : Option BookingSlot) (reads : List View)
  | expiry (id : Cuid) (before : Option BookingRequest)

/-- The row that a notice is about. -/
def Notice.key : Notice → Tab × Cuid
  | .reminder id _ _ => (.slot, id)
  | .expiry id _ => (.request, id)

/-- What a sweep that returns `ids` has to hand on. -/
def Job.notices (job : Job) (d : View) (reads : List View) (ids : List Cuid) : List Notice :=
  match job with
  | .remindUpcoming => ids.map fun i ↦ .reminder i (d.row .slot i) reads
  | .booking .expireOverdue => ids.map fun i ↦ .expiry i (d.row .request i)
  | .booking _ => []

/-- What a step returns to a sweep. -/
def handedOn (jobs : ℕ → Job) (w : BookingWorld) : ScheduledEvent → List Notice
  | .run t =>
    match w.returning t with
    | some (.expired ids, reads) => (jobs t).notices w.store.committed reads ids
    | _ => []
  | _ => []

/-- A notice was right when it was given, and what it tells is still so. -/
def Notice.Stands (d : View) : Notice → Prop
  | .reminder id before reads => ∃ s s' : BookingSlot, before = some s ∧
      d.row .slot id = some s' ∧ Reminded reads s s'
  | .expiry id before => ∃ r r' : BookingRequest, before = some r ∧
      d.row .request id = some r' ∧ Expired r r'

/-- No sweep takes the row any more. -/
def taken : ∀ τ, Row τ → Prop
  | .slot, s => BookingSlot.reminderSentAt s ≠ none
  | .request, r => BookingRequest.status r ≠ .pending

/-- A sweep has taken the row. -/
def swept : ∀ τ, Row τ → Prop
  | .slot, s => BookingSlot.reminderSentAt s ≠ none
  | .request, r => BookingRequest.status r = .expired

theorem taken_of_stays (τ : Tab) (r r' : Row τ) (h : Lasts τ r r') (hr : taken τ r) :
    taken τ r' := by
  have h := h.keeps
  cases τ with
  | slot =>
    show BookingSlot.reminderSentAt r' ≠ none
    rw [BookingSlot.Keeps.reminded h hr]
    exact hr
  | request => exact (BookingRequest.Keeps.decided h hr).1

theorem Notice.Stands.evolves {d d' : View} (h : Evolves Lasts d d') {n : Notice}
    (hn : n.Stands d) : n.Stands d' := by
  cases n with
  | reminder id before reads =>
    obtain ⟨s, s₁, hbefore, hs₁, hlive, hnot, hdue, now, hsent, hnow⟩ := hn
    obtain ⟨s', hs', hkeeps⟩ := h .slot id s₁ hs₁
    have hkeeps : BookingSlot.Keeps s₁ s' := hkeeps
    have hstamp : s'.reminderSentAt = some now := by
      rw [hkeeps.reminded (by rw [hsent]; simp), hsent]
    exact ⟨s, s', hbefore, hs', hlive, hnot, hdue, now, hstamp, hnow⟩
  | expiry id before =>
    obtain ⟨r, r₁, hbefore, hr₁, hexpired⟩ := hn
    obtain ⟨r', hr', hstays⟩ := h .request id r₁ hr₁
    have hgoes : BookingRequest.GoesOn r₁ r' := hstays.2
    obtain rfl : r' = r₁ := hgoes.closed (.inr hexpired.status)
    exact ⟨r, r', hbefore, hr', hexpired⟩

/-! ### One step -/

/-- Only a reminder stamps a slot. -/
theorem SlotWrite.reminderSentAt_eq {job : Job} {s s' : BookingSlot} (h : SlotWrite job s s')
    (hjob : job ≠ .remindUpcoming) : s'.reminderSentAt = s.reminderSentAt := by
  cases h with
  | reminded => exact absurd rfl hjob
  | _ => rfl

/-- Only the expiry makes a request expire. -/
theorem RequestWrite.expired_of {job : Job} {r r' : BookingRequest} (h : RequestWrite job r r')
    (hjob : job ≠ .booking .expireOverdue) (hr' : r'.status = .expired) : r.status = .expired := by
  cases h with
  | expired => exact absurd rfl hjob
  | respanned remaining _ c =>
    unfold cancelledRequest at hr'
    split at hr'
    · exact hr'
    · cases hr'
  | _ => cases hr'

theorem RequestInsert.not_expired {job : Job} {i : ℕ} {r : BookingRequest}
    (h : RequestInsert job i r) : r.status ≠ .expired := by
  cases h with
  | submitted _ hpending => simp [hpending]
  | direct _ happroved => simp [happroved]

section Step

variable {jobs : ℕ → Job} {w w' : BookingWorld} {t : ℕ} {e : ScheduledEvent}

/-- Only a sweep of its table takes a row. -/
theorem swept_of_commit {σ : BookingStore} (hσ : (recordLaw jobs).Lawful σ) {τ : Tab} {i : ℕ}
    (hslot : τ = .slot → jobs t ≠ .remindUpcoming)
    (hrequest : τ = .request → jobs t ≠ .booking .expireOverdue)
    (h : (σ.commit t).committed.Marked swept (τ, i)) : σ.committed.Marked swept (τ, i) := by
  refine Law.marked_of_commit hσ (fun r r' hw hr' ↦ ?_) (fun r hi hr ↦ ?_) h
  · cases τ with
    | slot => exact (SlotWrite.reminderSentAt_eq hw (hslot rfl)).symm.trans_ne hr'
    | request => exact RequestWrite.expired_of hw (hrequest rfl) hr'
  · cases τ with
    | slot => exact hr (SlotInsert.reminderSentAt hi)
    | request => exact RequestInsert.not_expired hi hr

/-- What the commit of `t` returns. -/
structure Handed (d d' : View) (notices : List Notice) : Prop where
  nodup : (notices.map Notice.key).Nodup
  taken : ∀ n ∈ notices, ¬ d.Marked taken n.key ∧ d'.Marked taken n.key
  stands : ∀ n ∈ notices, n.Stands d'
  swept : ∀ k, d'.Marked swept k → d.Marked swept k ∨ k ∈ notices.map Notice.key

theorem handed_reminders (hσ : (recordLaw jobs).Lawful w.store) (ht : jobs t = .remindUpcoming)
    {reads : List View} {ids : List Cuid} (h : w.store.Claimed t .slot (Reminded reads) ids) :
    Handed w.store.committed (w.store.commit t).committed
      (Job.remindUpcoming.notices w.store.committed reads ids) := by
  have hkeys : (Job.remindUpcoming.notices w.store.committed reads ids).map Notice.key =
      ids.map fun i ↦ (Tab.slot, i) := List.map_map
  refine ⟨?_, fun n hn ↦ ?_, fun n hn ↦ ?_, fun k hk ↦ ?_⟩
  · rw [hkeys]
    exact h.nodup.map fun i j h ↦ (Prod.mk.inj h).2
  · obtain ⟨i, hi, rfl⟩ := List.mem_map.1 hn
    refine h.marks hi fun s s' hs ↦ ⟨fun htaken ↦ htaken hs.unreminded, ?_⟩
    obtain ⟨now, hsent, -⟩ := hs.sent
    show s'.reminderSentAt ≠ none
    simp [hsent]
  · obtain ⟨i, hi, rfl⟩ := List.mem_map.1 hn
    rcases h.commit i with ⟨-, s, s', hs, hs', hreminded⟩ | ⟨hno, -⟩
    · exact ⟨s, s', hs, hs', hreminded⟩
    · exact absurd hi hno
  · obtain ⟨τ, i⟩ := k
    cases τ with
    | request => exact .inl (swept_of_commit hσ (fun h ↦ (nomatch h)) (fun _ ↦ by simp [ht]) hk)
    | slot =>
      rw [hkeys]
      exact (h.of_marked hk).imp id fun hi ↦ List.mem_map_of_mem hi

theorem handed_expiries (hσ : (recordLaw jobs).Lawful w.store)
    (ht : jobs t = .booking .expireOverdue) {reads : List View} {ids : List Cuid}
    (h : w.store.Claimed t .request Expired ids) :
    Handed w.store.committed (w.store.commit t).committed
      ((Job.booking .expireOverdue).notices w.store.committed reads ids) := by
  have hkeys : ((Job.booking .expireOverdue).notices w.store.committed reads ids).map Notice.key =
      ids.map fun i ↦ (Tab.request, i) := List.map_map
  refine ⟨?_, fun n hn ↦ ?_, fun n hn ↦ ?_, fun k hk ↦ ?_⟩
  · rw [hkeys]
    exact h.nodup.map fun i j h ↦ (Prod.mk.inj h).2
  · obtain ⟨i, hi, rfl⟩ := List.mem_map.1 hn
    refine h.marks hi fun r r' hr ↦ ⟨fun htaken ↦ htaken hr.pending, ?_⟩
    show r'.status ≠ .pending
    simp [hr.status]
  · obtain ⟨i, hi, rfl⟩ := List.mem_map.1 hn
    rcases h.commit i with ⟨-, r, r', hr, hr', hexpired⟩ | ⟨hno, -⟩
    · exact ⟨r, r', hr, hr', hexpired⟩
    · exact absurd hi hno
  · obtain ⟨τ, i⟩ := k
    cases τ with
    | slot => exact .inl (swept_of_commit hσ (fun _ ↦ by simp [ht]) (fun h ↦ (nomatch h)) hk)
    | request =>
      rw [hkeys]
      exact (h.of_marked hk).imp id fun hi ↦ List.mem_map_of_mem hi

/-- Nobody else takes anything. -/
theorem handed_nothing (hσ : (recordLaw jobs).Lawful w.store) (hremind : jobs t ≠ .remindUpcoming)
    (hexpire : jobs t ≠ .booking .expireOverdue) :
    Handed w.store.committed (w.store.commit t).committed [] :=
  ⟨List.nodup_nil, fun _ h ↦ (nomatch h), fun _ h ↦ (nomatch h),
    fun _ hk ↦ .inl (swept_of_commit hσ (fun _ ↦ hremind) (fun _ ↦ hexpire) hk)⟩

/-- **The step lemma.** A step returns what it takes, each once, and it takes nothing else. -/
theorem handedOn_step (hw : scheduled.ReachAs jobs w) (hs : scheduled.step e w = some w') :
    Handed w.store.committed w'.store.committed (handedOn jobs w e) := by
  have hhealthy := healthy_sweeps hw
  have hlaw : (recordLaw jobs).Lawful w.store := hhealthy.inv
  rcases System.committed_step hhealthy hs with ⟨hnone, hsame⟩ | ⟨t, reply, reads, rfl, hr, -, hst⟩
  · have hnil : handedOn jobs w e = [] := by
      cases e with
      | run t =>
        cases hr : w.returning t with
        | none => simp only [handedOn, hr]
        | some x =>
          rw [World.commits, hr] at hnone
          cases hnone
      | _ => rfl
    rw [hnil]
    refine ⟨List.nodup_nil, fun n hn ↦ absurd hn List.not_mem_nil,
      fun n hn ↦ absurd hn List.not_mem_nil, fun k hk ↦ .inl ?_⟩
    obtain ⟨r, hr, hswept⟩ := hk
    exact ⟨r, (hsame k.1 k.2).symm.trans hr, hswept⟩
  have htold : AnswersClaims jobs t reply reads w.store := (hhealthy.committing hr).2
  rw [hst]
  cases hjob : jobs t with
  | remindUpcoming =>
    simp only [AnswersClaims, hjob] at htold
    obtain ⟨ids, rfl, hclaimed⟩ := htold
    simp only [handedOn, hr, hjob]
    exact handed_reminders hlaw hjob hclaimed
  | booking op =>
    by_cases hop : op = .expireOverdue
    · subst hop
      simp only [AnswersClaims, hjob] at htold
      obtain ⟨ids, rfl, hclaimed⟩ := htold
      simp only [handedOn, hr, hjob]
      exact handed_expiries hlaw hjob hclaimed
    · have hnil : handedOn jobs w (.run t) = [] := by
        simp only [handedOn, hr, hjob]
        split
        · cases op with
          | expireOverdue => exact absurd rfl hop
          | _ => rfl
        · rfl
      rw [hnil]
      exact handed_nothing hlaw (by simp [hjob]) (by simp [hjob, hop])

end Step

end EasyBook

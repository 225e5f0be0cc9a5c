import EasyBook.Bookings.Services

/-!
# Decisions and the story told about them

A request is decided once: whatever the interleaving, its status moves along the state machine and
never back. The list of losers that a decision reports is another matter. It is the list that a
query found; the update that rejects them comes later, skips those that somebody else has decided
in between, and nobody compares the two. `staleRun` is such a run: the loser was rejected by hand,
for a reason of its own, and the approval still reports it, publishes it and sends it the card of
an automatic rejection.
-/

namespace EasyBook

open ReadCommitted

/-! ### Growth over runs -/

/-- One step lets the tables grow. -/
theorem grows_step {w w' : BookingWorld} {e : BookingEvent} (hw : bookings.Reachable w)
    (hs : bookings.step e w = some w') : Grows w.store w'.store := by
  have hinv : Standing False w.store :=
    (healthy False (hw.mono fun w e _ ↦ granted_contract_false w e)).inv
  obtain ⟨t, hstep⟩ := System.step_cases hs
  generalize w.store = σ at hinv hstep
  generalize w'.store = σ' at hstep
  cases hstep with
  | same => exact .refl _
  | tick c => exact .of_committed fun _ _ ↦ rfl
  | modify h => exact .of_committed (Store.workBy_modify h).committed
  | insert h => exact .of_committed (Store.workBy_insert h).committed
  | commit => exact .commit hinv.integrity t
  | abort => exact .of_committed (Store.workBy_abort (t := t)).committed

/-- So does every run. -/
theorem grows_exec {es : List BookingEvent} {w w' : BookingWorld} (hw : bookings.Reachable w)
    (h : bookings.exec es w = some w') : Grows w.store w'.store := by
  induction es generalizing w with
  | nil =>
    obtain rfl := Option.some.inj h
    exact .refl _
  | cons e es ih =>
    obtain ⟨w₁, hs, hes⟩ := Option.bind_eq_some_iff.1 h
    exact (grows_step hw hs).trans (ih (.step hw trivial hs) hes)

/-! ### The story -/

/-- Between two states request `i` went from `PENDING` to `REJECTED`, for the automatic reason. -/
def AutoRejected (d d' : View) (i : Cuid) : Prop :=
  (∃ r, d.row .request i = some r ∧ r.status = .pending) ∧
    ∃ r', d'.row .request i = some r' ∧ r'.status = .rejected ∧
      r'.rejectReason = some autoRejectedReason

/-- The booking that a reply is about. -/
def Reply.bookingId : Reply → Option Cuid
  | .approved id _ => some id
  | .direct id _ => some id
  | _ => none

/-- What a decision reports, publishes and sends cards for is what it has moved. -/
structure StoryTrue (reply : Reply) (l : List AutoRejectedBooking) (moved : Cuid → Prop) :
    Prop where
  returned : ∀ i, i ∈ l.map AutoRejectedBooking.id ↔ moved i
  published : ∀ i, i ∈ (publishes reply).flatMap Prod.snd ↔ reply.bookingId = some i ∨ moved i
  cards : ∀ i, (i, NoticeStatus.autoRejected) ∈ notices reply ↔ moved i

/-- The three say the same. -/
theorem storyTrue_iff {reply : Reply} {l : List AutoRejectedBooking} {moved : Cuid → Prop}
    (h : reply.autoRejected = some l) :
    StoryTrue reply l moved ↔ ∀ i, i ∈ l.map AutoRejectedBooking.id ↔ moved i := by
  refine ⟨StoryTrue.returned, fun hr ↦ ⟨hr, fun i ↦ ?_, fun i ↦ ?_⟩⟩ <;> rw [← hr i]
  · cases reply <;> cases h <;> simp [publishes, Reply.bookingId, eq_comm]
  · cases reply <;> cases h <;> simp [notices]

/-- The commit of `t` moves what `t` has automatically rejected. -/
theorem autoRejected_commit {σ : BookingStore} {t : ℕ} {i : Cuid} :
    AutoRejected σ.committed (σ.commit t).committed i ↔ AutoRejectedBy t σ i := by
  have hview : (σ.commit t).committed = σ.view (some t) := Store.committed_commit σ t
  have hrow : σ.committed.row .request i = (σ.cell .request i).committed := Cell.seen_none _
  rw [AutoRejected, AutoRejectedBy, PendingIn, hview, hrow]
  rfl

/-! ### Two runs -/

namespace Sample

/-- A request for one hour, from the call of session `t` to its commit. -/
def lineRun (t : ℕ) (i : ℤ) : List BookingEvent :=
  [.call t (.createFromLine [] (line i)), .answer t oracle] ++ steps t 1 ++ [.answer t oracle] ++
    steps t 7

/-- Two requests for the same hour: 0 and 2. -/
def rivals : List BookingEvent := lineRun 0 100 ++ lineRun 1 100

/-- Request 0 is approved, up to the query that finds the losers. -/
def approval : List BookingEvent := .call 2 (.approve 0 staff) :: steps 2 7

/-- Undisturbed, up to the commit. -/
def promptRun : List BookingEvent := rivals ++ approval ++ steps 2 5

/-- Request 2 is rejected by hand between the query and the update. -/
def staleRun : List BookingEvent :=
  rivals ++ approval ++ .call 3 (.reject 2 (JsString.lit "no")) :: steps 3 5 ++ steps 2 5

end Sample

/-- **A request is decided once**, and the story told about the losers is true exactly if all of
them are still pending when the decision commits.

Of a run from a reachable world: a request that was decided stays decided, and rejected, cancelled
and expired are final. Of a commit of a decision at its end: the losers it reports are those one of
its queries found, and the report, the publication and the cards are of the requests it has moved
if and only if nobody else has decided one of them since. -/
theorem decided_once_and_told {w w' : BookingWorld} {es : List BookingEvent}
    (hw : bookings.Reachable w) (hes : bookings.exec es w = some w') :
    (∀ i r, w.store.committed.row .request i = some r →
      ∃ r', w'.store.committed.row .request i = some r' ∧
        (BookingRequest.status r ≠ .pending → BookingRequest.status r' ≠ .pending) ∧
        (r.status = .rejected ∨ r.status = .cancelled ∨ r.status = .expired →
          r'.status = r.status)) ∧
    ∀ t reply reads l w'', w'.returning t = some (reply, reads) →
      reply.autoRejected = some l → bookings.step (.run t) w' = some w'' →
        ∃ d ∈ reads, ∃ venueId spans excludeRequestId,
          l = (findPendingLosers d venueId spans excludeRequestId).map
            BookingRequest.autoRejected ∧
          (StoryTrue reply l (AutoRejected w'.store.committed w''.store.committed) ↔
            ∀ r ∈ findPendingLosers d venueId spans excludeRequestId,
              PendingIn w'.store r.id) := by
  refine ⟨fun i r hr ↦ ?_, fun t reply reads l w'' hret hl hs ↦ ?_⟩
  · obtain ⟨r', hr', hf⟩ := (grows_exec hw hes).request ((Cell.seen_none _).symm.trans hr)
    refine ⟨r', (Cell.seen_none _).trans hr', fun hst hst' ↦ ?_, fun hst ↦ ?_⟩
    · rcases hf.moves with h | h | ⟨_, h⟩
      · exact hst (h.trans hst')
      · exact hst h
      · rw [hst'] at h
        cases h
    · rcases hf.moves with h | h | ⟨h, _⟩
      · exact h.symm
      · rcases hst with h' | h' | h' <;> rw [h] at h' <;> cases h'
      · rcases hst with h' | h' | h' <;> rw [h] at h' <;> cases h'
  · have hhealthy := healthy False ((hw.exec hes).mono fun w e _ ↦ granted_contract_false w e)
    obtain ⟨d, hd, venueId, spans, excludeRequestId, rfl, htold⟩ :=
      (hhealthy.committing hret).2 l hl
    refine ⟨d, hd, venueId, spans, excludeRequestId, rfl, ?_⟩
    rw [storyTrue_iff hl, System.store_of_returning hret hs]
    simp only [autoRejected_commit, htold.autoRejectedBy_iff]
    rw [List.map_map]
    refine ⟨fun h r hr ↦ ((h r.id).1 (List.mem_map_of_mem hr)).2, fun h i ↦ ⟨fun hi ↦ ⟨hi, ?_⟩,
      And.left⟩⟩
    obtain ⟨r, hr, rfl⟩ := List.mem_map.1 hi
    exact h r hr

/-- Undisturbed, the approval of request 0 tells the truth about request 2. -/
theorem decided_once_and_told_promptRun :
    ∃ w w' reply l, bookings.Reachable w ∧ bookings.step (.run 2) w = some w' ∧
      reply.autoRejected = some l ∧ l.map AutoRejectedBooking.id = [2] ∧
      (∃ r, w'.store.committed.row .request 0 = some r) ∧
      StoryTrue reply l (AutoRejected w.store.committed w'.store.committed) := by
  have hreach := reachable_after Sample.promptRun
  have hpending : ((after Sample.promptRun).store.cell .request 2).committed.map
      BookingRequest.status = some .pending := by decide +kernel
  have hfirst : ((after Sample.promptRun).store.committed.row .request 0).isSome := by
    decide +kernel
  have hids : (((after Sample.promptRun).returning 2).bind fun p ↦ p.1.autoRejected).map
      (List.map AutoRejectedBooking.id) = some [2] := by decide +kernel
  obtain ⟨l, hl, hids⟩ := Option.map_eq_some_iff.1 hids
  obtain ⟨⟨reply, reads⟩, hret, hl⟩ := Option.bind_eq_some_iff.1 hl
  have hstep : (bookings.step (.run 2) (after Sample.promptRun)).isSome := by decide +kernel
  obtain ⟨w', hs⟩ := Option.isSome_iff_exists.1 hstep
  obtain ⟨r, hr⟩ := Option.isSome_iff_exists.1 hfirst
  obtain ⟨r', hr', _⟩ := (decided_once_and_told hreach
    (show bookings.exec [.run 2] _ = some w' by rw [System.exec, hs]; rfl)).1 0 r hr
  obtain ⟨_, _, _, _, _, he, hiff⟩ :=
    (decided_once_and_told hreach (show bookings.exec [] _ = some _ from rfl)).2 2 reply reads l w'
      hret hl hs
  refine ⟨_, w', reply, l, hreach, hs, hl, hids, ⟨r', hr'⟩, hiff.2 fun q hq ↦ ?_⟩
  have hid : q.id ∈ l.map AutoRejectedBooking.id := by
    rw [he, List.map_map]
    exact List.mem_map_of_mem hq
  rw [hids, List.mem_singleton] at hid
  rw [hid]
  obtain ⟨p, hp, hst⟩ := Option.map_eq_some_iff.1 hpending
  exact ⟨p, hp, hst⟩

/-- Decided by somebody else in between, request 2 is reported all the same. -/
theorem decided_once_and_told_staleRun :
    ∃ w w' reply reads l, bookings.Reachable w ∧ w.returning 2 = some (reply, reads) ∧
      reply.autoRejected = some l ∧ bookings.step (.run 2) w = some w' ∧
      ¬ StoryTrue reply l (AutoRejected w.store.committed w'.store.committed) := by
  have hrejected : ((after Sample.staleRun).store.committed.row .request 2).map
      BookingRequest.status = some .rejected := by decide +kernel
  have hids : (((after Sample.staleRun).returning 2).bind fun p ↦ p.1.autoRejected).map
      (List.map AutoRejectedBooking.id) = some [2] := by decide +kernel
  obtain ⟨l, hl, hids⟩ := Option.map_eq_some_iff.1 hids
  obtain ⟨⟨reply, reads⟩, hret, hl⟩ := Option.bind_eq_some_iff.1 hl
  have hstep : (bookings.step (.run 2) (after Sample.staleRun)).isSome := by decide +kernel
  obtain ⟨w', hs⟩ := Option.isSome_iff_exists.1 hstep
  refine ⟨_, w', reply, reads, l, reachable_after _, hret, hl, hs, fun h ↦ ?_⟩
  obtain ⟨⟨r, hr, hst⟩, _⟩ := (h.returned 2).1 (by rw [hids]; exact List.mem_singleton_self 2)
  rw [hr, Option.map_some, hst] at hrejected
  cases hrejected

end EasyBook

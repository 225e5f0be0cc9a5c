import EasyBook.Announcements.StateMachine
import EasyBook.ReadCommitted.Inquiries

/-!
# Who gets an announcement

A send that fails is sent again, and what has become of its requests to LINE is not known: some are
still on their way, and where the transaction has timed out the code does not know and sends the
rest. Every request has the retry key of its users and of the announcement as it was read under the
lock; LINE takes no request under a key that it has seen in the last day.

So a user gets an announcement once as long as all attempts, within a day, read the announcement
and its recipients the same. Where somebody has joined or left in between, the chunks are other
ones and have other keys, and nothing keeps LINE from taking them as well.
-/

namespace EasyBook.Announcements

open ReadCommitted Line

/-! ### What is asked of LINE -/

/-- The department whose users get the announcement; `none` is everybody. -/
def Announcement.target (r : Announcement) : Option Cuid :=
  if r.audience = .department then r.departmentId else none

/-- The announcement that a send has read under the lock: its first query. -/
def contentIn (id : Cuid) (reads : List View) : Option Announcement :=
  reads.getLast?.bind fun d ↦ (d.all .announcement).find? fun r : Announcement ↦ decide (r.id = id)

/-- The recipients that a send has read: its last two queries before it turns to LINE, the users
and their settings. -/
def recipientsIn (id : Cuid) (reads : List View) : List JsString :=
  match contentIn id reads, reads with
  | some row, settings :: users :: _ => recipientsAmong (eligibleUsers users row.target) settings
  | _, _ => []

/-- What a call asks of LINE after the queries `reads` are requests for chunks of the recipients,
with the announcement as it was read, and under the keys of the chunks. -/
def AsksOf (service : LineService) (op : Op) (reads : List View) (q : Ask) : Prop :=
  ∀ req, q = .multicast req → ∃ id row now, op = .send id ∧ contentIn id reads = some row ∧
    ForChunk service [announcementMessage row now] (retryKeySeed row)
      (slices lineMulticastMaxRecipients (recipientsIn id reads).eraseDups) req

section Questions

variable {P : List View → Ask → Prop} {line : LineService} {reads : List View}

/-- The questions of a task are those of its transaction. -/
theorem inquires_ofTask {ρ : Type} {task : Machine.Task Ask Ans ρ}
    (htask : task.Asks (P reads) (fun _ _ ↦ True) fun _ ↦ True) :
    (ofTask task).Inquires P (fun _ reads' ↦ reads' = reads) reads := by
  induction task with
  | done r => exact rfl
  | ask q f ih =>
    obtain ⟨hq, hf⟩ := htask
    exact ⟨hq, fun a ↦ Prog.Inquires.bind (ih a (hf a trivial))⟩

theorem silent_writeSent (id : Cuid) (now : ℤ) (n : ℕ) : (writeSent id now n).Silent :=
  fun _ ↦ Prog.silent_require _ _

theorem contentIn_cons {id : Cuid} {row : Announcement} (h : contentIn id reads = some row)
    (d : View) : contentIn id (d :: reads) = some row := by
  unfold contentIn at h ⊢
  cases reads with
  | nil => cases h
  | cons d' reads => rwa [List.getLast?_cons_cons]

/-- The department of the recipients is the one that the announcement is for. -/
theorem inquires_audienceDepartment {id : Cuid} {row : Announcement}
    (hrow : contentIn id reads = some row) :
    (audienceDepartment row).Inquires P
      (fun departmentId reads ↦ departmentId = row.target ∧ contentIn id reads = some row)
      reads := by
  unfold audienceDepartment Announcement.target
  split
  · split
    · trivial
    · next departmentId hid =>
      intro d
      refine Prog.Inquires.require fun department hdepartment ↦ ⟨?_, contentIn_cons hrow d⟩
      have hp := List.find?_some hdepartment
      simp only [Bool.and_eq_true, decide_eq_true_eq] at hp
      rw [hid, hp.1]
  · exact ⟨rfl, hrow⟩

/-- A send that has read the announcement `row` asks for chunks of its recipients. -/
theorem inquires_deliver {start : ℤ} {id : Cuid} {row : Announcement}
    (hrow : contentIn id reads = some row) :
    (deliver line start row).Inquires (AsksOf line (.send id)) (fun _ _ ↦ True) reads := by
  refine Prog.Inquires.bind ((inquires_audienceDepartment hrow).mono ?_)
  rintro _ reads ⟨rfl, hcontent⟩ users settings
  have hcontent := contentIn_cons (contentIn_cons hcontent users) settings
  show Prog.Inquires _ _ (ite _ _ _) _
  split
  · intro now
    show Prog.Inquires _ _ (writeSent row.id now 0 >>= _) _
    exact Prog.Inquires.bind ((silent_writeSent _ _ _).inquires fun _ _ ↦ trivial)
  · intro now
    show Prog.Inquires _ _ (ofTask (askLine line row start now _) >>= _) _
    refine Prog.Inquires.bind ((inquires_ofTask ?_).mono ?_)
    · have hrecipients : recipientsIn id (settings :: users :: reads) =
          recipientsAmong (eligibleUsers users row.target) settings := by
        simp only [recipientsIn, hcontent]
      refine asks_multicast.mono fun q hq req hreq ↦ ⟨id, row, now, rfl, hcontent, ?_⟩
      rw [hrecipients]
      exact hq req hreq
    · rintro x reads -
      refine .ofExcept fun outcome _ ↦ ?_
      split
      · trivial
      · exact Prog.Inquires.bind ((silent_writeSent _ _ _).inquires fun _ _ ↦ trivial)

theorem inquires_sendTx (id : Cuid) :
    (sendTx line id).Inquires (AsksOf line (.send id)) (fun _ _ ↦ True) [] := by
  intro start locked
  refine .require fun first _ ↦ .refuse fun _ d ↦ .require fun row hrow ↦ .refuse fun _ ↦ ?_
  exact inquires_deliver hrow

/-! ### The other calls ask nothing -/

theorem silent_resolveDepartmentId {audience : AnnouncementAudience}
    {sent : Option (Option Cuid)} {stored : Option Cuid} {includeReserved : Bool}
    {k : Option Cuid → Call} (hk : ∀ departmentId, (k departmentId).Silent) :
    (resolveDepartmentId audience sent stored includeReserved k).Silent := by
  unfold resolveDepartmentId
  split
  · split
    · trivial
    · exact hk none
  · split
    · trivial
    · refine ⟨fun d ↦ trivial, fun r ↦ ?_⟩
      dsimp only
      split
      · exact hk _
      · trivial
      · trivial

theorem silent_get (id : Cuid) : (get id).Silent :=
  ⟨fun _ ↦ (Prog.silent_require _ _).bind fun _ ↦ trivial, fun _ ↦ trivial⟩

theorem silent_update (id : Cuid) (dto : UpdateAnnouncementDto) (actor : AnnouncementActor) :
    (update id dto actor).Silent := by
  unfold update
  split
  · trivial
  refine ⟨fun d ↦ trivial, fun r ↦ ?_⟩
  dsimp only
  split
  · split
    · trivial
    · refine silent_resolveDepartmentId fun departmentId ↦ ⟨fun rows ↦ trivial, fun r ↦ ?_⟩
      dsimp only
      split
      · refine ⟨fun d ↦ trivial, fun r ↦ ?_⟩
        dsimp only
        split
        · split <;> trivial
        · trivial
        · trivial
      · exact silent_get id
      · trivial
      · trivial
  · trivial
  · trivial

theorem silent_remove (id : Cuid) : (remove id).Silent :=
  ⟨fun _ ↦ (Prog.silent_require _ _).bind fun _ _ _ ↦ (Prog.silent_refuse _ _).bind fun _ ↦ trivial,
    fun _ ↦ trivial⟩

theorem silent_saveDirectory (τ : DirectoryTab) (row : Row (.directory τ)) :
    (saveDirectory τ row).Silent := by
  refine ⟨fun rows ↦ ?_, fun _ ↦ trivial⟩
  show Prog.Silent (ite _ _ _)
  split
  · exact fun _ ↦ trivial
  · trivial

theorem silent_create (dto : CreateAnnouncementDto) (actor : AnnouncementActor) :
    (create dto actor).Silent := by
  unfold create
  exact silent_resolveDepartmentId fun departmentId ↦ ⟨fun _ ↦ trivial, fun _ ↦ trivial⟩

theorem inquires_service (op : Op) : (service line op).Inquires (AsksOf line op) [] := by
  cases op with
  | create dto actor => exact (silent_create dto actor).inquires
  | update id dto actor => exact (silent_update id dto actor).inquires
  | remove id => exact (silent_remove id).inquires
  | send id =>
    refine ⟨(inquires_sendTx id).mono fun r reads _ ↦ ?_, fun e ↦ trivial⟩
    dsimp only
    split
    · trivial
    · split <;> trivial
    · trivial
    · trivial
  | saveDirectory τ row => exact (silent_saveDirectory τ row).inquires

end Questions

/-! ### A day of retry keys -/

/-- A request that has gone to LINE: when, and the queries of its transaction, the last one
first. -/
structure Posting where
  clock : ℤ
  reads : List View
  request : MulticastRequest LineMessage

/-- What is noted of the sends of an announcement: a request that goes out, or a transaction that is
lost, with the code that goes on. -/
inductive Traffic where
  | sent (p : Posting)
  | lost (reads : List View) (code : Tx Reply)

/-- The call sends announcement `id`. -/
def Op.sends (id : Cuid) : Op → Bool
  | .send i => decide (i = id)
  | _ => false

/-- The request that session `t` waits for the answer to. -/
def awaited (w : AnnouncementWorld) (t : ℕ) : Option Posting :=
  match w.phase t with
  | .inside _ ⟨.ask (.multicast request) _, _, _, reads, _⟩ => some ⟨w.store.clock, reads, request⟩
  | _ => none

/-- The transaction that session `t` is in. -/
def abandoned (w : AnnouncementWorld) (t : ℕ) : List Traffic :=
  match w.phase t with
  | .inside _ x => [.lost x.reads x.prog]
  | _ => []

/-- The request that goes out with a step of session `t`: the one whose answer it waits for then. -/
def outgoing (line : LineService) (w : AnnouncementWorld) (e : AnnouncementEvent) (t : ℕ) :
    List Traffic :=
  (((announcements line).step e w).bind fun w' ↦ awaited w' t).toList.map .sent

/-- What a step has to do with the sends of announcement `id`. -/
def traffic (line : LineService) (calls : ℕ → Op) (id : Cuid) (w : AnnouncementWorld)
    (e : AnnouncementEvent) : List Traffic :=
  match e with
  | .answer t _ => if (calls t).sends id then outgoing line w e t else []
  | .run t => if (calls t).sends id then outgoing line w e t else []
  | .lose t _ => if (calls t).sends id then abandoned w t else []
  | _ => []

/-- The request went out in a transaction, or the code of a lost one sent it. -/
def SentIn (log : List Traffic) (p : Posting) : Prop :=
  .sent p ∈ log ∨ ∃ code, .lost p.reads code ∈ log ∧ code.StillAsks (.multicast p.request)

/-- How long LINE knows a retry key. -/
def retryKeyMs : ℤ := 24 * 60 * 60 * 1000

/-- Of `requests`, the last one first, LINE delivers those of `delivered`: any, but none under a key
that it has delivered in the last day. -/
structure LineDelivers (requests delivered : List Posting) : Prop where
  sublist : delivered.Sublist requests
  fresh : delivered.Pairwise fun p q ↦
    p.request.retryKey = q.request.retryKey → q.clock + retryKeyMs ≤ p.clock

/-- Two requests of announcement `id` as it is, for the same users, made within a day. -/
structure Alike (id : Cuid) (p q : Posting) : Prop where
  withinDay : p.clock < q.clock + retryKeyMs
  unedited : (contentIn id p.reads).map Announcement.updatedAt =
    (contentIn id q.reads).map Announcement.updatedAt
  members : p.request.recipients.Perm q.request.recipients

/-- The request is for a chunk of the recipients, with the announcement as it was read under the
lock, and under the key of the chunk. -/
def Posting.IsChunk (line : LineService) (id : Cuid) (p : Posting) : Prop :=
  ∃ row now, contentIn id p.reads = some row ∧
    ForChunk line [announcementMessage row now] (retryKeySeed row)
      (slices lineMulticastMaxRecipients (recipientsIn id p.reads).eraseDups) p.request

section Runs

variable {calls : ℕ → Op} {line : LineService} {w w' : AnnouncementWorld} {id : Cuid} {t : ℕ}
  {e : AnnouncementEvent} {log : List Traffic} {p q : Posting}

theorem eq_send_of_sends {op : Op} (h : op.sends id = true) : op = .send id := by
  cases op with
  | send i => exact congrArg _ (of_decide_eq_true h)
  | _ => cases h

/-- What a send may ask of LINE is a request for a chunk. -/
theorem isChunk_of_asksOf (ht : (calls t).sends id = true)
    (h : AsksOf line (calls t) p.reads (.multicast p.request)) : p.IsChunk line id := by
  obtain ⟨i, row, now, hi, hrow, hchunk⟩ := h _ rfl
  rw [eq_send_of_sends ht] at hi
  obtain rfl := Op.send.inj hi
  exact ⟨row, now, hrow, hchunk⟩

/-- Whatever a session asks, its call may ask. -/
theorem inquires_calls (_ : AnnouncementWorld) (t : ℕ) (op : Op)
    (h : Event.CalledAs calls (.call t op : AnnouncementEvent)) :
    (service line op).Inquires (AsksOf line (calls t)) [] := by
  obtain rfl : op = calls t := h
  exact inquires_service _

theorem isChunk_of_awaited (hw : (announcements line).ReachAs calls w)
    (ht : (calls t).sends id = true) (hp : awaited w t = some p) : p.IsChunk line id := by
  unfold awaited at hp
  split at hp
  · next hphase =>
    obtain rfl := Option.some.inj hp
    refine isChunk_of_asksOf ht ?_
    exact hw.asked (P := fun t ↦ AsksOf line (calls t)) inquires_calls hphase rfl
  · cases hp

theorem of_mem_outgoing {x : Traffic} (hs : (announcements line).step e w = some w')
    (hx : x ∈ outgoing line w e t) : ∃ p, x = .sent p ∧ awaited w' t = some p := by
  unfold outgoing at hx
  rw [hs] at hx
  obtain ⟨p, hp, rfl⟩ := List.mem_map.1 hx
  exact ⟨p, rfl, Option.mem_toList.1 hp⟩

theorem of_mem_abandoned {x : Traffic} (hx : x ∈ abandoned w t) :
    ∃ log y, w.phase t = .inside log y ∧ x = .lost y.reads y.prog := by
  unfold abandoned at hx
  split at hx
  · next log y hphase => exact ⟨log, y, hphase, List.mem_singleton.1 hx⟩
  · cases hx

/-- What a step notes is of a send of the announcement: a request that is waited for then, or the
transaction that is lost. -/
theorem of_mem_traffic {x : Traffic} (hs : (announcements line).step e w = some w')
    (hx : x ∈ traffic line calls id w e) : ∃ t, (calls t).sends id = true ∧
      ((∃ p, x = .sent p ∧ awaited w' t = some p) ∨
        ∃ log y, w.phase t = .inside log y ∧ x = .lost y.reads y.prog) := by
  cases e with
  | tick c => cases hx
  | call t op => cases hx
  | answer t oracle =>
    replace hx : x ∈ if (calls t).sends id then _ else _ := hx
    split at hx
    · next ht => exact ⟨t, ht, .inl (of_mem_outgoing hs hx)⟩
    · cases hx
  | run t =>
    replace hx : x ∈ if (calls t).sends id then _ else _ := hx
    split at hx
    · next ht => exact ⟨t, ht, .inl (of_mem_outgoing hs hx)⟩
    · cases hx
  | lose t e =>
    replace hx : x ∈ if (calls t).sends id then _ else _ := hx
    split at hx
    · next ht => exact ⟨t, ht, .inr (of_mem_abandoned hx)⟩
    · cases hx

/-- **The step lemma.** Every request that a step sends, and every one that the code of a lost
transaction still sends, is for a chunk. -/
theorem isChunk_of_step (hw : (announcements line).ReachAs calls w) (ha : e.CalledAs calls)
    (hs : (announcements line).step e w = some w')
    (hp : SentIn (traffic line calls id w e) p) : p.IsChunk line id := by
  rcases hp with hp | ⟨code, hcode, hasks⟩
  · obtain ⟨t, ht, ⟨p', he, hawaited⟩ | ⟨log, y, hphase, he⟩⟩ := of_mem_traffic hs hp
    · obtain rfl := Traffic.sent.inj he
      exact isChunk_of_awaited (hw.step ha hs) ht hawaited
    · cases he
  · obtain ⟨t, ht, ⟨p', he, hawaited⟩ | ⟨log, y, hphase, he⟩⟩ := of_mem_traffic hs hcode
    · cases he
    · obtain ⟨hreads, rfl⟩ := Traffic.lost.inj he
      refine isChunk_of_asksOf ht ?_
      rw [hreads]
      exact hw.stillAsks (P := fun t ↦ AsksOf line (calls t)) inquires_calls hphase hasks

/-- Whatever becomes of the attempts, every request is for a chunk. -/
theorem isChunk_of_sentIn
    (h : (announcements line).TraceAs calls (traffic line calls id) World.init log w)
    (hp : SentIn log p) : p.IsChunk line id := by
  induction h with
  | refl =>
    rcases hp with hp | ⟨code, hcode, -⟩
    · cases hp
    · cases hcode
  | step h ha hs ih =>
    have hstep : SentIn (traffic line calls id _ _) p → p.IsChunk line id :=
      isChunk_of_step (h.reach .init) ha hs
    rcases hp with hp | ⟨code, hcode, hasks⟩
    · rcases List.mem_append.1 hp with hp | hp
      · exact hstep (.inl hp)
      · exact ih (.inl hp)
    · rcases List.mem_append.1 hcode with hcode | hcode
      · exact hstep (.inr ⟨code, hcode, hasks⟩)
      · exact ih (.inr ⟨code, hcode, hasks⟩)

theorem id_of_contentIn {reads : List View} {r : Announcement} (h : contentIn id reads = some r) :
    r.id = id := by
  obtain ⟨d, -, hd⟩ := Option.bind_eq_some_iff.1 h
  simpa using List.find?_some hd

/-- Requests that are alike have one key. -/
theorem Alike.retryKey_eq (h : Alike id p q) (hp : p.IsChunk line id) (hq : q.IsChunk line id) :
    p.request.retryKey = q.request.retryKey := by
  obtain ⟨row, now, hrow, -, -, hkey⟩ := hp
  obtain ⟨row', now', hrow', -, -, hkey'⟩ := hq
  have hupdated : row.updatedAt = row'.updatedAt := by
    have := h.unedited
    simpa [hrow, hrow'] using this
  have hseed : retryKeySeed row = retryKeySeed row' := by
    rw [retryKeySeed, retryKeySeed, id_of_contentIn hrow, id_of_contentIn hrow', hupdated]
  rw [hkey, hkey', hseed, lineRetryKey_congr h.members]

/-- **A user gets an announcement once**, whatever becomes of the attempts. Every request that goes
out, also one whose answer never comes and one of a transaction that has been lost, is for a chunk
of the recipients read under the lock, under the key of the chunk; and a user gets the announcement
once at most if all the requests that the user is in are alike. -/
theorem delivered_at_most_once {requests : List Posting}
    (h : (announcements line).TraceAs calls (traffic line calls id) World.init log w)
    (hsent : ∀ p ∈ requests, SentIn log p) : (∀ p ∈ requests, p.IsChunk line id) ∧
      ∀ (delivered : List Posting) (u : JsString), LineDelivers requests delivered →
        (∀ p ∈ requests, ∀ q ∈ requests, u ∈ p.request.recipients → u ∈ q.request.recipients →
          Alike id p q) →
        (delivered.filter fun p ↦ decide (u ∈ p.request.recipients)).length ≤ 1 := by
  have hchunks : ∀ p ∈ requests, p.IsChunk line id := fun p hp ↦ isChunk_of_sentIn h (hsent p hp)
  refine ⟨hchunks, fun delivered u hline halike ↦ ?_⟩
  have hpair : (delivered.filter fun p ↦ decide (u ∈ p.request.recipients)).Pairwise
      fun _ _ ↦ False := by
    refine List.pairwise_filter.2 (hline.fresh.imp_of_mem fun {p q} hp hq hfresh hup huq ↦ ?_)
    have hp := hline.sublist.subset hp
    have hq := hline.sublist.subset hq
    have hpq := halike p hp q hq (of_decide_eq_true hup) (of_decide_eq_true huq)
    exact absurd hpq.withinDay (not_lt.2 (hfresh (hpq.retryKey_eq (hchunks p hp) (hchunks q hq))))
  match hl : delivered.filter fun p ↦ decide (u ∈ p.request.recipients) with
  | [] => simp [hl]
  | [p] => simp [hl]
  | p :: q :: l =>
    rw [hl] at hpair
    exact (List.rel_of_pairwise_cons hpair List.mem_cons_self).elim

end Runs

namespace Sample

/-- Two attempts to send the announcement to the only user. The first one loses its transaction
while it waits for LINE; in the second one LINE is not heard of at first, and then knows the key. -/
def resentRun : List AnnouncementEvent :=
  followed ++ .call 3 (.send 1) :: steps 3 8 ++ answers 3 1 .pending ++
    .lose 3 .unavailable ::
    .call 4 (.send 1) :: steps 4 8 ++ answers 4 2 .pending ++
      answers 4 2 (.rejected (.httpFetchError 409)) ++ steps 4 3

/-- The requests that go out in a schedule. -/
def sentIn (es : List AnnouncementEvent) : List Posting :=
  let log := (announcements line).observe (traffic line (callsIn (.remove 0) es) 1) es World.init []
  log.filterMap fun
    | .sent p => some p
    | .lost .. => none

end Sample

/-- The only user gets the announcement by the request of which nothing is heard, and by neither of
the others. -/
theorem delivered_at_most_once_resentRun :
    (Sample.sentIn Sample.resentRun).length = 3 ∧
    (∀ p ∈ Sample.sentIn Sample.resentRun, p.IsChunk Sample.line 1) ∧
    (((Sample.sentIn Sample.resentRun).drop 2).filter fun p ↦
      decide ((Sample.user 5 49).lineUserId ∈ p.request.recipients)).length ≤ 1 := by
  have hcalls : (Sample.resentRun.filterMap Event.caller).Nodup := by decide +kernel
  have hrun : ((announcements Sample.line).exec Sample.resentRun World.init).isSome := by
    decide +kernel
  have hlength : (Sample.sentIn Sample.resentRun).length = 3 := by decide +kernel
  have halike : ∀ p ∈ Sample.sentIn Sample.resentRun, ∀ q ∈ Sample.sentIn Sample.resentRun,
      p.clock < q.clock + retryKeyMs ∧
        (contentIn 1 p.reads).map Announcement.updatedAt =
          (contentIn 1 q.reads).map Announcement.updatedAt ∧
        p.request.recipients.Perm q.request.recipients := by decide +kernel
  obtain ⟨w, hw⟩ := Option.isSome_iff_exists.1 hrun
  have htrace := System.traceAs_of_exec (.remove 0)
    (traffic Sample.line (callsIn (.remove 0) Sample.resentRun) 1) hcalls hw
  have hsent : ∀ p ∈ Sample.sentIn Sample.resentRun, SentIn ((announcements Sample.line).observe
      (traffic Sample.line (callsIn (.remove 0) Sample.resentRun) 1) Sample.resentRun World.init [])
      p := fun p hp ↦ by
    obtain ⟨x, hx, hxp⟩ := List.mem_filterMap.1 hp
    cases x with
    | sent p' =>
      obtain rfl := Option.some.inj hxp
      exact .inl hx
    | lost => cases hxp
  have hdrop : ((Sample.sentIn Sample.resentRun).drop 2).length = 1 := by
    rw [List.length_drop, hlength]
  obtain ⟨p, hp⟩ := List.length_eq_one_iff.1 hdrop
  obtain ⟨hchunks, honce⟩ := delivered_at_most_once htrace hsent
  refine ⟨hlength, hchunks, honce _ _ ⟨List.drop_sublist _ _, ?_⟩ fun p hp q hq _ _ ↦ ?_⟩
  · rw [hp]
    exact List.pairwise_singleton _ _
  · obtain ⟨hday, hupdated, hmembers⟩ := halike p hp q hq
    exact ⟨hday, hupdated, hmembers⟩

end EasyBook.Announcements

import EasyBook.Sessions.Model

/-!
# What the calls on the sessions ask for

A call deletes a session key, or takes an id out of the index, only with a reason that it has seen
itself (`Justified`). When a call that ends the sessions of an account is over, it has deleted the
key of every member that it has read of the account, and it counts a key that it has deleted.
-/

namespace EasyBook.Sessions

open Machine Machine.Task Realtime

variable {C : SessionConfig} {sid userId : JsString}

/-- The session is one of the account. -/
def OwnedBy (userId : JsString) (raw : Raw) : Prop :=
  ∃ data, raw = .json data ∧ data.systemUserId = some userId

/-! ### What the calls ask for -/

/-- The session with which an account acts on its own sessions. -/
def SessionCall.own : SessionCall → Option JsString
  | list sid | revokeOne sid _ | revokeOthers sid => some sid
  | _ => none

/-- A member was read, and is not a live session of the account. -/
def Stale (C : SessionConfig) (h : List SessionExchange) (userId sid : JsString) : Prop :=
  ∃ raw pttl now, (⟨.get sid, raw⟩ : SessionExchange) ∈ h ∧
    (⟨.now, now⟩ : SessionExchange) ∈ h ∧ (classify C userId sid raw pttl now).session = none

/-- `SessionGuard` turns the session away: it is past its cap, or its account may not sign in. -/
def Rejected (h : List SessionExchange) (sid : JsString) : Prop :=
  ∃ data, (⟨.load sid, some (.json data)⟩ : SessionExchange) ∈ h ∧
    ((∃ now, (⟨.now, now⟩ : SessionExchange) ∈ h ∧
        sessionAbsoluteMaxAgeMs < now - data.createdAt.getD 0) ∨
      ∃ id row, data.systemUserId = some id ∧
        (⟨.findUser id, .found row⟩ : SessionExchange) ∈ h ∧ resolveSystemUser row = none)

/-- The session of the cookie is one of the account. -/
def Carries (h : List SessionExchange) (sid userId : JsString) : Prop :=
  ∃ raw, (⟨.load sid, some raw⟩ : SessionExchange) ∈ h ∧ OwnedBy userId raw

/-- What a call has seen when it asks for something that changes the sessions or the index. -/
def Justified (C : SessionConfig) (op : SessionCall) (h : List SessionExchange) :
    SessionQuery → Prop
  | .destroy sid => (∃ raw, (⟨.load sid, some raw⟩ : SessionExchange) ∈ h) ∧
      ∀ own, op.own = some own → sid = own ∧ Rejected h sid
  | .save data => (∃ cookie ip userAgent, op = .login cookie ip userAgent) ∧
      ∃ now, (⟨.now, now⟩ : SessionExchange) ∈ h ∧ data.createdAt = some now
  | .track userId sid prev =>
      (∃ data, (⟨.save data, sid⟩ : SessionExchange) ∈ h ∧ data.systemUserId = some userId) ∧
      ∀ old, prev = some old → (⟨.destroy old.2, ()⟩ : SessionExchange) ∈ h
  | .get sid => ∃ userId sids, (⟨.smembers userId, sids⟩ : SessionExchange) ∈ h ∧ sid ∈ sids
  | .srem userId sids => ∀ sid ∈ sids,
      (⟨.destroy sid, ()⟩ : SessionExchange) ∈ h ∨ Stale C h userId sid
  | .revoke deleted userId sids =>
      (∀ sid ∈ deleted, (∃ raw, (⟨.get sid, some raw⟩ : SessionExchange) ∈ h ∧ OwnedBy userId raw) ∧
        ∀ own, op.own = some own → sid ≠ own ∧ Carries h own userId) ∧
      ∀ sid ∈ sids, sid ∈ deleted ∨ Stale C h userId sid
  | _ => True

/-! ### Every request is justified -/

section Asking

variable {op : SessionCall} {h : List SessionExchange} {ρ : Type}

/-- The calls up to now have not read the index, and have not revoked. -/
def Before (h : List SessionExchange) : Prop :=
  ∀ e ∈ h, (∀ userId, e.1 ≠ .smembers userId) ∧ ∀ deleted userId sids,
    e.1 ≠ .revoke deleted userId sids

/-- The session keys that the exchange has deleted in a revocation. -/
def deletedBy : SessionExchange → List JsString
  | ⟨.revoke deleted _ _, results⟩ => ((deleted.zip results).filter (·.2)).map (·.1)
  | _ => []

/-- A command that is justified, followed by what is justified after its answer. -/
theorem asking_send_bind {post : List SessionExchange → ρ → Prop} {q : SessionQuery}
    {f : SessionAnswer q → SessionTask ρ} (hq : Justified C op h q)
    (hf : ∀ a, (f a).AsksAfter (Justified C op) post (h ++ [⟨q, a⟩])) :
    (send q >>= f).AsksAfter (Justified C op) post h := ⟨hq, hf⟩

/-- The members of the index, as `readMembers` has read them. -/
structure MembersRead (C : SessionConfig) (h h' : List SessionExchange) (userId : JsString)
    (members : List Member) : Prop where
  subset : ∀ e ∈ h, e ∈ h'
  found : (⟨.smembers userId, members.map (·.sid)⟩ : SessionExchange) ∈ h'
  only : ∀ u sids, (⟨.smembers u, sids⟩ : SessionExchange) ∈ h' →
    u = userId ∧ sids = members.map (·.sid)
  unrevoked : ∀ e ∈ h', ∀ deleted u sids, e.1 ≠ .revoke deleted u sids
  read : ∀ m ∈ members, ∃ raw pttl now, (⟨.get m.sid, raw⟩ : SessionExchange) ∈ h' ∧
    (⟨.now, now⟩ : SessionExchange) ∈ h' ∧ m.classified = classify C userId m.sid raw pttl now

/-- The sessions of a set's members are read one after the other; every reply is the answer of its
key. -/
theorem asking_readKeys {sids all : List JsString}
    (hall : (⟨.smembers userId, all⟩ : SessionExchange) ∈ h) (hsids : ∀ sid ∈ sids, sid ∈ all) :
    (readKeys sids).AsksAfter (Justified C op) (fun h' replies ↦ (∀ e ∈ h, e ∈ h') ∧
      (∀ e ∈ h', e ∈ h ∨ (∃ sid, e.1 = .get sid) ∨ ∃ sid, e.1 = .pttl sid) ∧
      replies.map (·.1) = sids ∧
      ∀ r ∈ replies, (⟨.get r.1, r.2.1⟩ : SessionExchange) ∈ h') h := by
  induction sids generalizing h with
  | nil => exact ⟨fun _ he ↦ he, fun _ he ↦ .inl he, rfl, fun _ hr ↦ (List.not_mem_nil hr).elim⟩
  | cons sid sids ih =>
    refine asking_send_bind ⟨userId, all, hall, hsids sid List.mem_cons_self⟩ fun raw ↦
      asking_send_bind trivial fun pttl ↦ ?_
    refine (ih (List.mem_append_left _ (List.mem_append_left _ hall))
      fun sid hmem ↦ hsids sid (List.mem_cons_of_mem _ hmem)).bind ?_
    rintro h' replies ⟨hsub, hnew, hmap, hread⟩
    refine ⟨fun e he ↦ hsub e (by simp [he]), fun e he ↦ ?_, congrArg (sid :: ·) hmap, ?_⟩
    · rcases hnew e he with he | he
      · simp only [List.append_assoc, List.mem_append, List.cons_append, List.nil_append,
          List.mem_cons, List.not_mem_nil, or_false] at he
        rcases he with he | rfl | rfl
        · exact .inl he
        · exact .inr (.inl ⟨sid, rfl⟩)
        · exact .inr (.inr ⟨sid, rfl⟩)
      · exact .inr he
    · intro r hr
      rcases List.mem_cons.1 hr with rfl | hr
      · exact hsub _ (by simp)
      · exact hread r hr

/-- `readMembers` asks for the set once and reads those of its sessions that are still there. -/
theorem asking_readMembers (hbefore : Before h) (userId : JsString) :
    (readMembers C userId).AsksAfter (Justified C op) (MembersRead C h · userId) h := by
  refine asking_send_bind trivial fun sids ↦ ?_
  have hnot : ∀ {u l}, (⟨.smembers u, l⟩ : SessionExchange) ∉ h := fun he ↦ (hbefore _ he).1 _ rfl
  split
  · next hempty =>
    subst hempty
    refine ⟨fun e he ↦ by simp [he], by simp, fun u l he ↦ ?_, fun e he ↦ ?_, by simp⟩
    · rcases List.mem_append.1 he with he | he
      · exact (hnot he).elim
      · cases List.mem_singleton.1 he
        exact ⟨rfl, rfl⟩
    · rcases List.mem_append.1 he with he | he
      · exact (hbefore e he).2
      · obtain rfl := List.mem_singleton.1 he
        exact nofun
  · refine (asking_readKeys (List.mem_append_right _ (List.mem_singleton_self _))
      fun _ hmem ↦ hmem).bind ?_
    rintro h' replies ⟨hsub, hnew, hmap, hread⟩
    refine asking_send_bind trivial fun now ↦ ?_
    have hsids : (replies.map fun r ↦ (⟨r.1, classify C userId r.1 r.2.1 r.2.2 now⟩ : Member)).map
        (·.sid) = sids := by
      rw [List.map_map]
      exact hmap
    refine ⟨fun e he ↦ List.mem_append_left _ (hsub e (List.mem_append_left _ he)), ?_,
      fun u l he ↦ ?_, fun e he ↦ ?_, fun m hm ↦ ?_⟩
    · rw [hsids]
      exact List.mem_append_left _ (hsub _ (List.mem_append_right _ (List.mem_singleton_self _)))
    · rw [hsids]
      rcases List.mem_append.1 he with he | he
      · rcases hnew _ he with he | ⟨sid, he⟩ | ⟨sid, he⟩
        · rcases List.mem_append.1 he with he | he
          · exact (hnot he).elim
          · cases List.mem_singleton.1 he
            exact ⟨rfl, rfl⟩
        · cases he
        · cases he
      · cases List.mem_singleton.1 he
    · rcases List.mem_append.1 he with he | he
      · rcases hnew _ he with he | ⟨sid, he⟩ | ⟨sid, he⟩
        · rcases List.mem_append.1 he with he | he
          · exact (hbefore e he).2
          · obtain rfl := List.mem_singleton.1 he
            exact nofun
        · rw [he]
          exact nofun
        · rw [he]
          exact nofun
      · obtain rfl := List.mem_singleton.1 he
        exact nofun
    · obtain ⟨r, hr, rfl⟩ := List.mem_map.1 hm
      exact ⟨r.2.1, r.2.2, now, List.mem_append_left _ (hread r hr), by simp, rfl⟩

/-- What `SessionGuard` has found when it lets a session pass. -/
structure Passed (h : List SessionExchange) (sid : JsString) (ctx : SessionContext) : Prop where
  before : Before h
  own : ctx.sid = sid
  carries : Carries h sid ctx.userId

/-- The guard lets a call pass only with the session its cookie names, as Redis had it. -/
theorem asking_sessionGuard {allow : Bool} (hown : ∀ own, op.own = some own → sid = own) :
    (sessionGuard allow sid).AsksAfter (Justified C op)
      (fun h r ↦ Before h ∧ ∀ ctx, r = .ok ctx → Passed h sid ctx) [] := by
  refine asking_send_bind trivial fun found ↦ ?_
  cases found with
  | none => exact ⟨by simp [Before], nofun⟩
  | some raw =>
    cases raw with
    | junk => exact ⟨by simp [Before], nofun⟩
    | json session =>
      cases huser : session.systemUserId.filter (· ≠ []) with
      | none =>
        simp only [huser]
        exact ⟨by simp [Before], nofun⟩
      | some userId =>
        simp only [huser]
        have hid : session.systemUserId = some userId := (Option.filter_eq_some_iff.1 huser).1
        refine asking_send_bind trivial fun now ↦ ?_
        split
        · next hpast =>
          exact asking_send_bind ⟨⟨.json session, by simp⟩, fun own ho ↦ ⟨hown own ho, session,
            by simp, .inl ⟨now, by simp, hpast⟩⟩⟩ fun _ ↦ ⟨by simp [Before], nofun⟩
        · refine asking_send_bind trivial fun answer ↦ ?_
          cases answer with
          | failed => exact ⟨by simp [Before], nofun⟩
          | found row =>
            cases hrow : resolveSystemUser row with
            | none =>
              simp only [hrow]
              exact asking_send_bind ⟨⟨.json session, by simp⟩, fun own ho ↦ ⟨hown own ho, session,
                by simp, .inr ⟨userId, row, hid, by simp, hrow⟩⟩⟩ fun _ ↦ ⟨by simp [Before], nofun⟩
            | some user =>
              simp only [hrow]
              split
              · exact ⟨by simp [Before], nofun⟩
              · refine ⟨by simp [Before], fun ctx hctx ↦ ?_⟩
                cases hctx
                exact ⟨by simp [Before], rfl, .json session, by simp, session, rfl, hid⟩

/-- A guarded call either fails before it has done anything, or runs with the context of its own
session. -/
theorem asking_guarded {allow : Bool} {post : List SessionExchange → SessionResult → Prop}
    {f : SessionContext → SessionTask SessionResult}
    (hown : ∀ own, op.own = some own → sid = own) (hfailed : ∀ h e, Before h → post h (.error e))
    (hf : ∀ h ctx, Passed h sid ctx → (f ctx).AsksAfter (Justified C op) post h) :
    (guarded allow sid f).AsksAfter (Justified C op) post [] := by
  refine (asking_sessionGuard hown).bind fun h r hr ↦ ?_
  cases r with
  | error e => exact hfailed h e hr.1
  | ok ctx => exact hf h ctx (hr.2 ctx rfl)

/-! ### What is read of a member -/

variable {raw : Option Raw} {pttl now : ℤ}

/-- A session classified as the user's own is owned by the user. -/
theorem ownedBy_of_classify (h : (classify C userId sid raw pttl now).isOwn = true) :
    ∃ r, raw = some r ∧ OwnedBy userId r := by
  cases raw with
  | none => cases h
  | some r =>
    cases r with
    | junk => cases h
    | json data =>
      by_cases huser : data.systemUserId = some userId
      · exact ⟨_, rfl, data, rfl, huser⟩
      · simp [classify, huser, Classified.isOwn] at h

/-- One that is not, is not. -/
theorem not_ownedBy_of_classify (h : (classify C userId sid raw pttl now).isOwn = false) {r : Raw}
    (hr : raw = some r) : ¬ OwnedBy userId r := by
  rintro ⟨data, rfl, huser⟩
  subst hr
  simp only [classify, huser, ne_eq, not_true_eq_false, if_false] at h
  split at h
  · cases h
  · split at h <;> cases h

/-- A session that is listed carries the id and the handle of its key. -/
theorem session_of_classify {session : TrackedSession}
    (h : (classify C userId sid raw pttl now).session = some session) :
    session.sid = sid ∧ session.handle = C.handleOf sid ∧ ∃ r, raw = some r ∧ OwnedBy userId r := by
  have hown : (classify C userId sid raw pttl now).isOwn = true := by
    cases hc : classify C userId sid raw pttl now with
    | live session => rfl
    | _ =>
      rw [hc] at h
      cases h
  obtain ⟨r, rfl, data, rfl, huser⟩ := ownedBy_of_classify hown
  refine ⟨?_, ?_, _, rfl, data, rfl, huser⟩ <;>
    simp only [classify, huser, ne_eq, not_true_eq_false, if_false] at h <;> split at h
  · cases h
  · split at h <;> cases h
    rfl
  · cases h
  · split at h <;> cases h
    rfl

/-! ### How a call ends -/

/-- The session of a member has been deleted, or there was none of the account. -/
def Ended (h : List SessionExchange) (userId sid : JsString) : Prop :=
  (∃ deleted sids results, (⟨.revoke deleted userId sids, results⟩ : SessionExchange) ∈ h ∧
    sid ∈ deleted) ∨
  ∃ raw, (⟨.get sid, raw⟩ : SessionExchange) ∈ h ∧ ∀ r, raw = some r → ¬ OwnedBy userId r

/-- The session that a call which ends all sessions of an account leaves. -/
def SessionCall.spared : SessionCall → Option (Option JsString)
  | revokeOthers sid => some (some sid)
  | forceRevoke _ => some none
  | _ => none

/-- The call is to end the sessions of the account, which it names, or which has the session of the
cookie. -/
def SessionCall.Ends (op : SessionCall) (h : List SessionExchange) (userId : JsString) : Prop :=
  op = .forceRevoke userId ∨ ∃ own, op = .revokeOthers own ∧ Carries h own userId

/-- Commands that came later do not take back that the call ends its sessions. -/
theorem SessionCall.Ends.mono {h' : List SessionExchange} (he : op.Ends h userId)
    (hsub : ∀ e ∈ h, e ∈ h') : op.Ends h' userId :=
  he.imp_right fun ⟨own, hop, raw, hload, howned⟩ ↦ ⟨own, hop, raw, hsub _ hload, howned⟩

/-- What a call has done when it is over. -/
structure Over (op : SessionCall) (h : List SessionExchange) (r : SessionResult) : Prop where
  read : op.spared ≠ none → ∀ reply, r = .ok reply → ∃ userId sids,
    op.Ends h userId ∧ (⟨.smembers userId, sids⟩ : SessionExchange) ∈ h
  ended : ∀ spared, op.spared = some spared → ∀ userId sids,
    (⟨.smembers userId, sids⟩ : SessionExchange) ∈ h → ∀ sid ∈ sids, some sid ≠ spared →
      Ended h userId sid
  counted : ∀ n, r = .ok (.revoked n) →
    ∃ l : List JsString, l.Sublist (h.flatMap deletedBy) ∧ l.length = n

/-- A call that answers with no number of sessions has nothing to account for. -/
theorem Over.of_ne {r : SessionResult} (hop : op.spared = none) (hr : ∀ n, r ≠ .ok (.revoked n)) :
    Over op h r where
  read hs := absurd hop hs
  ended spared hs := by
    rw [hop] at hs
    cases hs
  counted n hn := (hr n hn).elim

/-- Nor has one that fails before its first change. -/
theorem Over.of_before {e : SessionError} (hbefore : Before h) : Over op h (.error e) where
  read _ _ hr := by cases hr
  ended _ _ _ _ he := ((hbefore _ he).1 _ rfl).elim
  counted _ hn := by cases hn

/-- The list of a user's sessions holds those classified from what was read, and no others. -/
theorem asking_listTracked (hbefore : Before h) (userId : JsString) :
    (listTracked C userId).AsksAfter (Justified C op) (fun h' tracked ↦ (∀ e ∈ h, e ∈ h') ∧
      ∀ session ∈ tracked, ∃ m : Member, (∃ raw pttl now,
        (⟨.get m.sid, raw⟩ : SessionExchange) ∈ h' ∧
        m.classified = classify C userId m.sid raw pttl now) ∧
        m.classified.session = some session) h := by
  refine (asking_readMembers hbefore userId).bind fun h' members hread ↦ ?_
  have hsessions : ∀ session ∈ members.filterMap (·.classified.session), ∃ m ∈ members,
      m.classified.session = some session := fun session hmem ↦ List.mem_filterMap.1 hmem
  dsimp only
  split
  · refine ⟨hread.subset, fun session hmem ↦ ?_⟩
    obtain ⟨m, hm, hsession⟩ := hsessions session hmem
    obtain ⟨raw, pttl, now, hget, -, hclass⟩ := hread.read m hm
    exact ⟨m, ⟨raw, pttl, now, hget, hclass⟩, hsession⟩
  · refine asking_send_bind (fun sid hsid ↦ .inr ?_) fun _ ↦
      ⟨fun e he ↦ List.mem_append_left _ (hread.subset e he), fun session hmem ↦ ?_⟩
    · obtain ⟨m, hm, rfl⟩ := List.mem_map.1 hsid
      obtain ⟨hm, hnone⟩ := List.mem_filter.1 hm
      obtain ⟨raw, pttl, now, hget, hnow, hclass⟩ := hread.read m hm
      rw [Option.isNone_iff_eq_none, hclass] at hnone
      exact ⟨raw, pttl, now, hget, hnow, hnone⟩
    · obtain ⟨m, hm, hsession⟩ := hsessions session hmem
      obtain ⟨raw, pttl, now, hget, -, hclass⟩ := hread.read m hm
      exact ⟨m, ⟨raw, pttl, now, List.mem_append_left _ hget, hclass⟩, hsession⟩

/-- The live sessions counted are among those destroyed. -/
theorem sublist_revokedLive (members : List Member) (results : List Bool) :
    ((revokedLive members results).map (·.sid)).Sublist
      ((((members.map (·.sid)).zip results).filter (·.2)).map (·.1)) := by
  induction members generalizing results with
  | nil => exact .slnil
  | cons m members ih =>
    cases results with
    | nil => exact .slnil
    | cons b results =>
      have htail := ih results
      unfold revokedLive at htail ⊢
      rw [List.map_map] at htail
      simp only [List.zip_cons_cons, List.map_cons, List.filter_cons]
      cases b <;> cases hm : m.classified.session.isSome <;> simp [htail, List.Sublist.cons]

/-- Revoking all sessions of a user spares the caller's own one, if any, and destroys only what was
read as the user's. -/
theorem asking_revokeAll {spared : Option JsString} (hbefore : Before h) (userId : JsString)
    (hspared : ∀ own, op.own = some own → spared = some own ∧ Carries h own userId)
    (hop : op.spared = some spared) (hends : op.Ends h userId) :
    (revokeAll C userId spared >>= fun n ↦ Task.done (.ok (.revoked n))).AsksAfter (Justified C op)
      (Over op) h := by
  suffices hcall : (revokeAll C userId spared).AsksAfter (Justified C op)
      (fun h' n ↦ Over op h' (.ok (.revoked n))) h from hcall.bind fun _ _ hover ↦ hover
  refine (asking_readMembers hbefore userId).bind fun h' members hread ↦ ?_
  dsimp only
  -- a member that is not of the account has never been
  have hforeign : ∀ m ∈ members, m.classified.isOwn = false → ∃ raw,
      (⟨.get m.sid, raw⟩ : SessionExchange) ∈ h' ∧ ∀ r, raw = some r → ¬ OwnedBy userId r := by
    intro m hm hnot
    obtain ⟨raw, pttl, now, hget, -, hclass⟩ := hread.read m hm
    rw [hclass] at hnot
    exact ⟨raw, hget, fun r ↦ not_ownedBy_of_classify hnot⟩
  -- Without a target nothing is sent; otherwise there is one command with all of them.
  split
  · next hempty =>
    refine ⟨fun _ _ _ ↦ ⟨userId, _, hends.mono hread.subset, hread.found⟩,
      fun spared' hs u sids he sid hmem hne ↦ ?_, fun n hn ↦ ⟨[], List.nil_sublist _, ?_⟩⟩
    · obtain ⟨rfl, rfl⟩ := hread.only u sids he
      rw [hop] at hs
      cases hs
      obtain ⟨m, hm, rfl⟩ := List.mem_map.1 hmem
      have hin : m ∈ members.filter fun m ↦ decide (some m.sid ≠ spared) :=
        List.mem_filter.2 ⟨hm, decide_eq_true hne⟩
      rw [List.isEmpty_iff.1 hempty] at hin
      cases hin
    · cases hn
      rfl
  · refine asking_send_bind ⟨fun sid hsid ↦ ?_, fun sid hsid ↦ ?_⟩ fun results ↦
      ⟨fun _ _ _ ↦ ⟨userId, _, hends.mono fun e he ↦ List.mem_append_left _ (hread.subset e he),
        List.mem_append_left _ hread.found⟩, fun spared' hs u sids he sid hmem hne ↦ ?_,
        fun n hn ↦ ?_⟩
    -- The keys that are deleted: read as the account's own, and none of them spared.
    · obtain ⟨m, hm, rfl⟩ := List.mem_map.1 hsid
      obtain ⟨hm, hown⟩ := List.mem_filter.1 hm
      obtain ⟨hm, hne⟩ := List.mem_filter.1 hm
      obtain ⟨raw, pttl, now, hget, -, hclass⟩ := hread.read m hm
      rw [hclass] at hown
      obtain ⟨r, rfl, howned⟩ := ownedBy_of_classify hown
      refine ⟨⟨r, hget, howned⟩, fun own ho ↦ ?_⟩
      obtain ⟨rfl, raw, hload, hraw⟩ := hspared own ho
      refine ⟨?_, raw, hread.subset _ hload, hraw⟩
      rintro rfl
      exact of_decide_eq_true hne rfl
    -- The members that are taken out of the set: deleted with it, or read as stale.
    · obtain ⟨m, hm, rfl⟩ := List.mem_map.1 hsid
      obtain ⟨raw, pttl, now, hget, hnow, hclass⟩ := hread.read m (List.mem_of_mem_filter hm)
      cases hown : m.classified.isOwn with
      | true => exact .inl (List.mem_map_of_mem (List.mem_filter.2 ⟨hm, hown⟩))
      | false =>
        refine .inr ⟨raw, pttl, now, hget, hnow, ?_⟩
        rw [← hclass]
        cases hc : m.classified with
        | live session =>
          rw [hc] at hown
          cases hown
        | _ => rfl
    -- Every other member found is deleted by the command, or was read as somebody else's.
    · have hin : ∀ x, (⟨.smembers u, x⟩ : SessionExchange) ∈
          h' ++ [⟨.revoke _ userId _, results⟩] → (⟨.smembers u, x⟩ : SessionExchange) ∈ h' := by
        intro x hx
        rcases List.mem_append.1 hx with hx | hx
        · exact hx
        · cases List.mem_singleton.1 hx
      obtain ⟨rfl, rfl⟩ := hread.only u sids (hin _ he)
      rw [hop] at hs
      cases hs
      obtain ⟨m, hm, rfl⟩ := List.mem_map.1 hmem
      have hm' : m ∈ members.filter fun m ↦ decide (some m.sid ≠ spared) :=
        List.mem_filter.2 ⟨hm, decide_eq_true hne⟩
      cases hown : m.classified.isOwn with
      | true =>
        exact .inl ⟨_, _, results, List.mem_append_right _ (List.mem_singleton_self _),
          List.mem_map_of_mem (List.mem_filter.2 ⟨hm', hown⟩)⟩
      | false =>
        obtain ⟨raw, hget, hraw⟩ := hforeign m hm hown
        exact .inr ⟨raw, List.mem_append_left _ hget, hraw⟩
    -- The number that is answered counts live sessions among those deleted.
    · cases hn
      refine ⟨(revokedLive _ results).map (·.sid), (sublist_revokedLive _ results).trans ?_,
        List.length_map ..⟩
      rw [List.flatMap_append]
      exact List.sublist_append_of_sublist_right (by simp [deletedBy])

/-- Revoking one session destroys the one of the handle, which must be the user's own. -/
theorem asking_revokeOne {handle : JsString} {ctx : SessionContext} (hpassed : Passed h sid ctx) :
    (revokeOne C ctx handle >>= fun r ↦ Task.done (r.map .revoked)).AsksAfter
      (Justified C (.revokeOne sid handle)) (Over (.revokeOne sid handle)) h := by
  suffices hcall : (revokeOne C ctx handle).AsksAfter (Justified C (.revokeOne sid handle))
      (fun h' r ↦ Over (.revokeOne sid handle) h' (r.map .revoked)) h from
    hcall.bind fun _ _ hover ↦ hover
  have hspared : (SessionCall.revokeOne sid handle).spared = none := rfl
  have hfailed : ∀ h e, Over (.revokeOne sid handle) h (.error e) :=
    fun h e ↦ .of_ne hspared nofun
  unfold revokeOne
  split
  · exact hfailed h _
  · next hcurrent =>
    split
    · exact hfailed h _
    · have hresolve : (resolveHandle C ctx.userId handle).AsksAfter
          (Justified C (.revokeOne sid handle)) (fun h' target ↦ (∀ e ∈ h, e ∈ h') ∧
            ∀ session, target = some session → session.sid ≠ sid ∧ ∃ r,
              (⟨.get session.sid, some r⟩ : SessionExchange) ∈ h' ∧ OwnedBy ctx.userId r) h := by
        refine (asking_listTracked hpassed.before ctx.userId).bind ?_
        rintro h' tracked ⟨hsub, htracked⟩
        refine ⟨hsub, fun session hfind ↦ ?_⟩
        obtain ⟨m, ⟨raw, pttl, now, hget, hclass⟩, hsession⟩ :=
          htracked session (List.mem_of_find?_eq_some hfind)
        rw [hclass] at hsession
        obtain ⟨hsid, hhandle, r, rfl, hr⟩ := session_of_classify hsession
        refine ⟨fun he ↦ hcurrent ?_, r, by rwa [hsid], hr⟩
        have hfound : session.handle = handle := by simpa using List.find?_some hfind
        rw [← hfound, hhandle, ← hsid, he, hpassed.own]
      refine hresolve.bind ?_
      rintro h' target ⟨hsub, htarget⟩
      cases target with
      | none => exact hfailed h' _
      | some target =>
        obtain ⟨hne, r, hget, hr⟩ := htarget target rfl
        obtain ⟨raw, hload, hraw⟩ := hpassed.carries
        refine asking_send_bind ⟨fun x hx ↦ ?_, fun x hx ↦ .inl hx⟩ fun results ↦ ?_
        · obtain rfl := List.mem_singleton.1 hx
          refine ⟨⟨r, hget, hr⟩, fun own ho ↦ ?_⟩
          obtain rfl := Option.some.inj ho
          exact ⟨hne, raw, hsub _ hload, hraw⟩
        · simp only
          split
          · next hhead =>
            refine ⟨fun hs ↦ absurd hspared hs, nofun, fun n hn ↦ ⟨[target.sid], ?_, ?_⟩⟩
            · obtain ⟨rest, rfl⟩ : ∃ rest, results = true :: rest := by
                cases results with
                | nil => cases of_decide_eq_true hhead
                | cons b rest => exact ⟨rest, by simpa using hhead⟩
              rw [List.flatMap_append]
              exact List.sublist_append_of_sublist_right (by simp [deletedBy])
            · cases hn
              rfl
          · exact hfailed _ _

/-- Opening a session destroys the one that was carried and writes the new one. -/
theorem asking_openSession {cookie : Option JsString} {ip userAgent : JsString}
    {carried : Option SessionContext} (userId : JsString)
    (hgone : ∀ c, carried = some c → (⟨.destroy c.sid, ()⟩ : SessionExchange) ∈ h) :
    (openSession carried userId ip userAgent).AsksAfter
      (Justified C (.login cookie ip userAgent)) (fun _ _ ↦ True) h := by
  refine asking_send_bind trivial fun now ↦ asking_send_bind
    ⟨⟨cookie, ip, userAgent, rfl⟩, now, by simp, rfl⟩ fun sid ↦
    asking_send_bind ⟨⟨⟨some userId, some now, some ip, some userAgent⟩, by simp, rfl⟩,
      fun old hold ↦ ?_⟩ fun _ ↦ trivial
  obtain ⟨c, hc, rfl⟩ := Option.map_eq_some_iff.1 hold
  have hmem := hgone c (Option.filter_eq_some_iff.1 hc).1
  simp [hmem]

/-- A login asks for the session its cookie names, and opens a new one for the account that signed
in. -/
theorem asking_login (cookie : Option JsString) (ip userAgent : JsString) :
    (login cookie ip userAgent).AsksAfter (Justified C (.login cookie ip userAgent))
      (fun _ _ ↦ True) [] := by
  have hload : (loadSession cookie).AsksAfter (Justified C (.login cookie ip userAgent))
      (fun h r ↦ ∀ c, r = .ok (some c) →
        ∃ raw, (⟨.load c.sid, some raw⟩ : SessionExchange) ∈ h) [] := by
    cases cookie with
    | none => exact nofun
    | some sid =>
      refine asking_send_bind trivial fun found ↦ ?_
      cases found with
      | none => exact nofun
      | some raw =>
        cases raw with
        | junk => exact nofun
        | json session =>
          intro c hc
          cases hc
          exact ⟨_, List.mem_singleton_self _⟩
  refine hload.bind fun h r hr ↦ ?_
  cases r with
  | error e => trivial
  | ok carried =>
    refine asking_send_bind trivial fun user ↦ ?_
    cases user with
    | none => trivial
    | some userId =>
      cases carried with
      | none =>
        exact (asking_openSession userId fun _ hc ↦ by cases hc).bind fun _ _ _ ↦ trivial
      | some c =>
        obtain ⟨raw, hraw⟩ := hr c rfl
        refine asking_send_bind ⟨⟨raw, List.mem_append_left _ hraw⟩, nofun⟩ fun _ ↦
          (asking_openSession userId fun c' hc' ↦ ?_).bind fun _ _ _ ↦ trivial
        cases hc'
        simp

/-- The list of sessions changes nothing. -/
theorem asking_list {ctx : SessionContext} (hbefore : Before h) :
    (list C ctx).AsksAfter (Justified C op) (fun _ r ↦ ∀ n, r ≠ .revoked n) h := by
  refine asking_send_bind trivial fun now ↦ ?_
  have hbefore' : Before (h ++ [⟨.now, now⟩]) := by
    intro e he
    rcases List.mem_append.1 he with he | he
    · exact hbefore e he
    · obtain rfl := List.mem_singleton.1 he
      exact ⟨nofun, nofun⟩
  exact (asking_listTracked hbefore' ctx.userId).bind fun _ _ _ ↦ nofun

/-- Every call asks only what is justified, and answers for the sessions it has ended. -/
theorem asking_task (op : SessionCall) :
    (op.task C).AsksAfter (Justified C op) (Over op) [] := by
  have hfailed : ∀ {op : SessionCall} h e, Before h → Over op h (.error e) :=
    fun h e hbefore ↦ .of_before hbefore
  cases op with
  | login cookie ip userAgent =>
    refine (asking_login cookie ip userAgent).bind fun h r _ ↦ .of_ne rfl fun n ↦ ?_
    cases r <;> exact nofun
  | logout sid =>
    refine asking_guarded nofun hfailed fun h ctx hpassed ↦ ?_
    obtain ⟨raw, hload, -⟩ := hpassed.carries
    refine asking_send_bind ⟨⟨raw, hpassed.own ▸ hload⟩, nofun⟩ fun _ ↦
      asking_send_bind (fun sid hsid ↦ ?_) fun _ ↦ .of_ne rfl nofun
    obtain rfl := List.mem_singleton.1 hsid
    exact .inl (List.mem_append_right _ (List.mem_singleton_self _))
  | pass allow sid =>
    exact asking_guarded nofun hfailed fun h ctx _ ↦ .of_ne rfl nofun
  | list sid =>
    exact asking_guarded (fun own ho ↦ Option.some.inj ho) hfailed fun h ctx hpassed ↦
      (asking_list hpassed.before).bind fun _ _ hr ↦
        Over.of_ne rfl fun n hn ↦ hr n (Except.ok.inj hn)
  | revokeOne sid handle =>
    exact asking_guarded (fun own ho ↦ Option.some.inj ho) hfailed fun h ctx hpassed ↦
      asking_revokeOne hpassed
  | revokeOthers sid =>
    refine asking_guarded (fun own ho ↦ Option.some.inj ho) hfailed fun h ctx hpassed ↦ ?_
    refine asking_revokeAll hpassed.before ctx.userId (fun own ho ↦ ?_) ?_
      (.inr ⟨sid, rfl, hpassed.carries⟩)
    · obtain rfl := Option.some.inj ho
      exact ⟨congrArg some hpassed.own, hpassed.carries⟩
    · exact congrArg (fun sid ↦ some (some sid)) hpassed.own.symm
  | summary userId =>
    exact (asking_listTracked (fun e he ↦ (List.not_mem_nil he).elim) userId).bind fun _ _ _ ↦
      Over.of_ne rfl nofun
  | forceRevoke userId =>
    exact asking_revokeAll (fun e he ↦ (List.not_mem_nil he).elim) userId nofun rfl (.inl rfl)

end Asking

end EasyBook.Sessions

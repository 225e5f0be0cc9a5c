import EasyBook.Sessions.Calls

/-!
# The session index is complete

Any calls interleaved command by command. A session of an account that is in force is in the index
of the account, unless its login has still to put it there: an id is taken out of the index only by
a call that has seen that the session is over, and the index outlives its members. So whoever reads
the index and deletes what it finds there ends every session of the account, and what it finds there
is of no other account.
-/

namespace EasyBook.Sessions

open Machine Machine.Task Realtime

variable {C : SessionConfig} {s s' : SessionState}

/-! ### Session keys -/

/-- The session of the id has been one of these, and may be gone. -/
def Was (sessions : JsString → Slot SessionKey) (sid : JsString) (p : Raw → Prop) : Prop :=
  sessions sid = .gone ∨ ∃ key, sessions sid = .live key ∧ p key.raw

/-- The session is gone. -/
abbrev Gone (sessions : JsString → Slot SessionKey) (sid : JsString) : Prop :=
  Was sessions sid fun _ ↦ False

variable {f : JsString → Slot SessionKey} {sid sid' : JsString} {p p' : Raw → Prop}
  {key : SessionKey}

/-- A weaker condition on what a key has held. -/
theorem Was.imp (h : Was f sid p) (himp : ∀ raw, p raw → p' raw) : Was f sid p' :=
  Or.imp id (fun ⟨key, hkey, hp⟩ ↦ ⟨key, hkey, himp _ hp⟩) h

/-- A live key holds what it has held from its start. -/
theorem Was.of_live (h : Was f sid p) (hkey : f sid = .live key) : p key.raw := by
  rcases h with h | ⟨key', h, hp⟩
  · rw [hkey] at h
    cases h
  · rw [hkey] at h
    obtain rfl := Slot.live.inj h
    exact hp

/-- Two conditions on what a key has held. -/
theorem Was.and (h : Was f sid p) (h' : Was f sid p') : Was f sid fun raw ↦ p raw ∧ p' raw := by
  rcases h with h | ⟨key, hkey, hp⟩
  · exact .inl h
  · exact .inr ⟨key, hkey, hp, h'.of_live hkey⟩

/-- What was read of a key is what it has held. -/
theorem was_of_get (h : (f sid).get.map (·.raw) = some raw) : Was f sid (· = raw) := by
  obtain ⟨key, hkey, rfl⟩ := Option.map_eq_some_iff.1 h
  exact .inr ⟨key, Slot.get_eq_some.1 hkey, rfl⟩

/-- Deleting a key leaves the others. -/
theorem del_of_ne (h : sid ≠ sid') : del f sid' sid = f sid := by
  unfold del
  split
  · exact Function.update_of_ne h ..
  · rfl

/-- A key that is live after a deletion was live before. -/
theorem live_of_del (h : del f sid' sid = .live key) : f sid = .live key := by
  by_cases he : sid = sid'
  · subst he
    unfold del at h
    split at h
    · rw [Function.update_self] at h
      cases h
    · exact h
  · rwa [del_of_ne he] at h

/-- A deletion does not change what a key has held. -/
theorem Was.del (h : Was f sid p) : Was (del f sid') sid p := by
  by_cases he : sid = sid'
  · subst he
    unfold Sessions.del
    split
    · exact .inl (Function.update_self ..)
    · exact h
  · unfold Was
    rwa [del_of_ne he]

/-- A key that was in use and is deleted is gone. -/
theorem Was.del_self (h : Was f sid p) : Gone (Sessions.del f sid) sid := by
  rcases h with h | ⟨key, h, -⟩
  · exact Was.del (.inl h)
  · exact .inl (by simp [Sessions.del, h, Slot.get])

/-- A key that is live after some deletions was live before. -/
theorem live_of_delAll {sids : List JsString} (h : delAll f sids sid = .live key) :
    f sid = .live key := by
  induction sids generalizing f with
  | nil => exact h
  | cons _ _ ih => exact live_of_del (ih h)

/-- Deletions do not change what a key has held. -/
theorem Was.delAll {sids : List JsString} (h : Was f sid p) : Was (delAll f sids) sid p := by
  induction sids generalizing f with
  | nil => exact h
  | cons _ _ ih => exact ih h.del

/-- Each of the deleted keys is gone. -/
theorem Was.delAll_of_mem {sids : List JsString} (h : Was f sid p) (hmem : sid ∈ sids) :
    Gone (Sessions.delAll f sids) sid := by
  induction sids generalizing f with
  | nil => cases hmem
  | cons sid' sids ih =>
    rcases List.mem_cons.1 hmem with rfl | hmem
    · exact h.del_self.delAll
    · exact ih h.del hmem

/-! ### What a step changes -/

/-- A session that is known stays what it is, or goes. -/
theorem Was.does {q : SessionQuery} {a : SessionAnswer q} (h : Was s.sessions sid p)
    (hd : SessionDoes C s q a s') : Was s'.sessions sid p := by
  cases hd with
  | destroy sid' => exact h.del
  | save data sid' hunused =>
    have hne : sid ≠ sid' := by
      rintro rfl
      rcases h with h | ⟨key, h, -⟩ <;> rw [hunused] at h <;> cases h
    unfold Was SessionState.set
    dsimp only
    rwa [Function.update_of_ne hne]
  | track userId sid' prev => cases prev <;> exact h
  | revoke deleted userId sids => exact h.delAll
  | _ => exact h

/-- Expiry does not change what a key has held. -/
theorem Was.env (h : Was s.sessions sid p) (he : SessionEnv s s') : Was s'.sessions sid p := by
  cases he with
  | touch sid' key hkey expiresAt =>
    by_cases hs : sid = sid'
    · subst hs
      have hp := h.of_live hkey
      exact .inr ⟨_, Function.update_self .., hp⟩
    · unfold Was
      dsimp only
      rwa [Function.update_of_ne hs]
  | expire sid' => exact h.del
  | _ => exact h

/-- A session that is there has been there before, or it has just been saved. -/
theorem live_of_does {q : SessionQuery} {a : SessionAnswer q} (hd : SessionDoes C s q a s')
    (h : s'.sessions sid = .live key) : s.sessions sid = .live key ∨
      ∃ data, (⟨q, a⟩ : SessionExchange) = ⟨.save data, sid⟩ ∧ s.sessions sid = .unused ∧
        key.raw = .json data := by
  cases hd with
  | destroy sid' => exact .inl (live_of_del h)
  | save data sid' hunused =>
    by_cases he : sid = sid'
    · subst he
      simp only [SessionState.set, Function.update_self, Slot.live.injEq] at h
      subst h
      exact .inr ⟨data, rfl, hunused, rfl⟩
    · exact .inl ((Function.update_of_ne he ..).symm.trans h)
  | track userId sid' prev => cases prev <;> exact .inl h
  | revoke deleted userId sids => exact .inl (live_of_delAll h)
  | _ => exact .inl h

/-- A key that is live after some time was live before, with the same content. -/
theorem live_of_env (he : SessionEnv s s') (h : s'.sessions sid = .live key) :
    ∃ key', s.sessions sid = .live key' ∧ key'.raw = key.raw := by
  cases he with
  | touch sid' key' hkey expiresAt =>
    by_cases hs : sid = sid'
    · subst hs
      simp only [Function.update_self, Slot.live.injEq] at h
      subst h
      exact ⟨key', hkey, rfl⟩
    · exact ⟨key, (Function.update_of_ne hs ..).symm.trans h, rfl⟩
  | expire sid' => exact ⟨key, live_of_del h, rfl⟩
  | _ => exact ⟨key, h, rfl⟩

/-- A command takes no time. -/
theorem clock_of_does {q : SessionQuery} {a : SessionAnswer q} (hd : SessionDoes C s q a s') :
    s'.clock = s.clock := by
  cases hd with
  | track userId sid' prev => cases prev <;> rfl
  | _ => rfl

/-- Time only passes. -/
theorem clock_of_env (he : SessionEnv s s') : s.clock ≤ s'.clock := by
  cases he with
  | tick clock h => exact h
  | _ => exact le_rfl

/-! ### What the exchanges tell -/

/-- What has been exchanged tells this of the state ever after. -/
def Fact (s : SessionState) : SessionExchange → Prop
  | ⟨.now, now⟩ => now ≤ s.clock
  | ⟨.load sid, some raw⟩ => Was s.sessions sid (· = raw)
  | ⟨.destroy sid, _⟩ => Gone s.sessions sid
  | ⟨.save data, sid⟩ => Was s.sessions sid (· = .json data)
  | ⟨.track userId sid _, _⟩ => Was s.sessions sid (OwnedBy userId)
  | ⟨.smembers userId, sids⟩ => ∀ sid ∈ sids, Was s.sessions sid (OwnedBy userId)
  | ⟨.get sid, none⟩ => Gone s.sessions sid
  | ⟨.get sid, some raw⟩ => Was s.sessions sid (· = raw)
  | ⟨.revoke deleted _ _, _⟩ => ∀ sid ∈ deleted, Gone s.sessions sid
  | _ => True

/-- A fact that tells of session keys that they were such and of the clock that it was late stays
true. -/
theorem Fact.mono {e : SessionExchange} (hclock : s.clock ≤ s'.clock)
    (hkept : ∀ sid p, Was s.sessions sid p → Was s'.sessions sid p) (h : Fact s e) : Fact s' e := by
  obtain ⟨q, a⟩ := e
  cases q with
  | now => exact le_trans h hclock
  | load sid =>
    cases a with
    | none => trivial
    | some raw => exact hkept sid (· = raw) h
  | destroy sid => exact hkept sid (fun _ ↦ False) h
  | save data => exact hkept a (· = .json data) h
  | track userId sid prev => exact hkept sid _ h
  | smembers userId => exact fun sid hmem ↦ hkept _ _ (h sid hmem)
  | get sid =>
    cases a with
    | none => exact hkept sid (fun _ ↦ False) h
    | some raw => exact hkept sid (· = raw) h
  | revoke deleted userId sids => exact fun sid hmem ↦ hkept _ _ (h sid hmem)
  | _ => trivial

/-! ### The index -/

/-- The session is in force: its key is there, and it is not past its cap. `SessionGuard` lets no
other session of the account pass, and of these only if it finds the account in order. -/
def InForce (s : SessionState) (sid userId : JsString) : Prop :=
  ∃ key data, s.sessions sid = .live key ∧ key.raw = .json data ∧
    data.systemUserId = some userId ∧ s.clock - data.createdAt.getD 0 ≤ sessionAbsoluteMaxAgeMs

/-- The login of the session has still to track it. -/
def BeingTracked (w : SessionWorld) (sid userId : JsString) : Prop :=
  ∃ t th prev k, w.threads t = some th ∧ th.rest = .ask (.track userId sid prev) k

/-- What was exchanged is true, the index has only sessions of the account, and a session says when
it was made. -/
structure Truthful (w : SessionWorld) : Prop where
  fact : ∀ t th, w.threads t = some th → ∀ e ∈ th.history, Fact w.state e
  owned : ∀ userId sid, sid ∈ w.state.members userId → Was w.state.sessions sid (OwnedBy userId)
  dated : ∀ sid key, w.state.sessions sid = .live key → ∃ data createdAt,
    key.raw = .json data ∧ data.createdAt = some createdAt ∧ createdAt ≤ w.state.clock

/-- What a session is that is in the index when it has to be. -/
def Indexed (s : SessionState) (sid userId : JsString) : Prop :=
  ∀ key data, s.sessions sid = .live key → key.raw = .json data →
    s.clock - data.createdAt.getD 0 ≤ sessionAbsoluteMaxAgeMs →
    sid ∈ s.members userId ∧
      data.createdAt.getD 0 + sessionIndexTtlSeconds * 1000 ≤ s.indexExpiresAt userId

/-! ### Members -/

variable {userId : JsString}

/-- What a set holds after some members are taken out. -/
theorem mem_srem {u : JsString} {sids : List JsString} :
    sid ∈ (s.srem u sids).members userId ↔
      sid ∈ s.members userId ∧ (userId = u → sid ∉ sids) := by
  by_cases hu : userId = u
  · subst hu
    simp [SessionState.srem]
  · simp [SessionState.srem, hu]

/-- What a set holds after the previous session is taken out of its set. -/
theorem mem_sremPrevious {prev : Option (JsString × JsString)} :
    sid ∈ (s.sremPrevious prev).members userId ↔
      sid ∈ s.members userId ∧ ∀ old, prev = some old → userId = old.1 → sid ≠ old.2 := by
  cases prev with
  | none => simp [SessionState.sremPrevious]
  | some old => simp [SessionState.sremPrevious, mem_srem]

/-- What a set holds after a member is added. -/
theorem mem_sadd {u : JsString} :
    sid ∈ (s.sadd u sid').members userId ↔ sid ∈ s.members userId ∨ userId = u ∧ sid = sid' := by
  by_cases hu : userId = u
  · subst hu
    simp [SessionState.sadd, or_comm]
  · simp [SessionState.sadd, hu]

/-- An id comes into the index as its login tracks it. -/
theorem mem_of_does {q : SessionQuery} {a : SessionAnswer q} (hd : SessionDoes C s q a s')
    (h : sid ∈ s'.members userId) :
    sid ∈ s.members userId ∨ ∃ prev, q = .track userId sid prev := by
  cases hd with
  | track u sid' prev =>
    rcases mem_sadd.1 h with h | ⟨rfl, rfl⟩
    · exact .inl (mem_sremPrevious.1 h).1
    · exact .inr ⟨prev, rfl⟩
  | srem u sids => exact .inl (mem_srem.1 h).1
  | revoke deleted u sids => exact .inl (mem_srem.1 h).1
  | _ => exact .inl h

/-- An id is taken out of the index where it is named. -/
theorem kept_of_does {q : SessionQuery} {a : SessionAnswer q} (hd : SessionDoes C s q a s')
    (h : sid ∈ s.members userId) : sid ∈ s'.members userId ∨
      (∃ u sid', q = .track u sid' (some (userId, sid))) ∨
      (∃ sids, q = .srem userId sids ∧ sid ∈ sids) ∨
      ∃ deleted sids, q = .revoke deleted userId sids ∧ sid ∈ sids := by
  cases hd with
  | track u sid' prev =>
    by_cases hold : prev = some (userId, sid)
    · subst hold
      exact .inr (.inl ⟨u, sid', rfl⟩)
    · refine .inl (mem_sadd.2 (.inl (mem_sremPrevious.2 ⟨h, ?_⟩)))
      rintro old rfl rfl rfl
      exact hold rfl
  | srem u sids =>
    by_cases hold : userId = u ∧ sid ∈ sids
    · obtain ⟨rfl, hmem⟩ := hold
      exact .inr (.inr (.inl ⟨sids, rfl, hmem⟩))
    · exact .inl (mem_srem.2 ⟨h, fun hu hmem ↦ hold ⟨hu, hmem⟩⟩)
  | revoke deleted u sids =>
    by_cases hold : userId = u ∧ sid ∈ sids
    · obtain ⟨rfl, hmem⟩ := hold
      exact .inr (.inr (.inr ⟨deleted, sids, rfl, hmem⟩))
    · exact .inl (mem_srem.2 ⟨h, fun hu hmem ↦ hold ⟨hu, hmem⟩⟩)
  | _ => exact .inl h

/-- A tracking gives the index more time. -/
theorem indexExpiresAt_of_does (userId : JsString) {q : SessionQuery} {a : SessionAnswer q}
    (hd : SessionDoes C s q a s') : s'.indexExpiresAt userId = s.indexExpiresAt userId ∨
      s'.indexExpiresAt userId = s.clock + sessionIndexTtlSeconds * 1000 := by
  cases hd with
  | track u sid' prev =>
    by_cases hu : userId = u
    · subst hu
      right
      cases prev <;> simp [SessionState.sadd, SessionState.sremPrevious, SessionState.srem]
    · left
      cases prev <;> simp [SessionState.sadd, SessionState.sremPrevious, SessionState.srem, hu]
  | _ => exact .inl rfl

/-! ### What is known is so -/

variable {w w' : SessionWorld} {op : SessionCall} {hist : List SessionExchange}

/-- What a command has shown of a session is true when it has answered. -/
theorem fact_of_does {q : SessionQuery} {a : SessionAnswer q} (hfact : ∀ e ∈ hist, Fact s e)
    (howned : ∀ userId sid, sid ∈ s.members userId → Was s.sessions sid (OwnedBy userId))
    (hq : Justified C op hist q) (hd : SessionDoes C s q a s') : Fact s' ⟨q, a⟩ := by
  cases hd with
  | now => exact le_rfl
  | load sid =>
    cases hget : (s.sessions sid).get.map (·.raw) with
    | none => trivial
    | some raw => exact was_of_get hget
  | destroy sid =>
    obtain ⟨raw, hload⟩ := hq.1
    have hwas : Was s.sessions sid (· = raw) := hfact _ hload
    exact hwas.del_self
  | save data sid hunused => exact .inr ⟨_, Function.update_self .., rfl⟩
  | track userId sid prev =>
    obtain ⟨data, hsave, huser⟩ := hq.1
    have hwas : Was s.sessions sid (· = .json data) := hfact _ hsave
    have howns : Was s.sessions sid (OwnedBy userId) := hwas.imp fun raw hraw ↦ ⟨data, hraw, huser⟩
    cases prev <;> exact howns
  | smembers userId sids hnodup hmem => exact fun sid hsid ↦ howned userId sid ((hmem sid).1 hsid)
  | get sid =>
    cases hget : (s.sessions sid).get.map (·.raw) with
    | none =>
      obtain ⟨userId, sids, hmembers, hsid⟩ := hq
      have hwas : ∀ sid ∈ sids, Was s.sessions sid (OwnedBy userId) := hfact _ hmembers
      rcases hwas sid hsid with hgone | ⟨key, hkey, -⟩
      · exact .inl hgone
      · rw [hkey] at hget
        cases hget
    | some raw => exact was_of_get hget
  | revoke deleted userId sids =>
    intro sid hsid
    obtain ⟨⟨raw, hget, -⟩, -⟩ := hq.1 sid hsid
    have hwas : Was s.sessions sid (· = raw) := hfact _ hget
    exact hwas.delAll_of_mem hsid
  | _ => trivial

/-- Everything that the calls know is so, in every run. -/
theorem truthful_of_reach (hw : Reach (sessions C) (fun _ _ ↦ True) (.init .init) w) :
    Truthful w := by
  induction hw with
  | init =>
    refine ⟨fun t th ht ↦ ?_, fun userId sid hmem ↦ (List.not_mem_nil hmem).elim,
      fun sid key hkey ↦ ?_⟩
    · cases ht
    · cases hkey
  | step hw _ h ih =>
    have hstep := h
    cases h with
    | start ht' =>
      refine ⟨fun t th ht e he ↦ ?_, ih.owned, ih.dated⟩
      rcases hstep.mem_history ht he with ⟨th', hth', -, he'⟩ | heq
      · exact ih.fact t th' hth' e he'
      · cases heq
    | environment henv =>
      refine ⟨fun t th ht e he ↦ (ih.fact t th ht e he).mono (clock_of_env henv)
        fun _ _ hwas ↦ hwas.env henv, fun userId sid hmem ↦ ?_, fun sid key hkey ↦ ?_⟩
      · refine (ih.owned userId sid ?_).env henv
        cases henv with
        | expireIndex u hexpired =>
          dsimp only at hmem
          by_cases hu : userId = u
          · subst hu
            rw [Function.update_self] at hmem
            cases hmem
          · rwa [Function.update_of_ne hu] at hmem
        | _ => exact hmem
      · obtain ⟨key', hkey', hraw⟩ := live_of_env henv hkey
        obtain ⟨data, createdAt, hdata, hcreated, hle⟩ := ih.dated sid key' hkey'
        exact ⟨data, createdAt, hraw ▸ hdata, hcreated, hle.trans (clock_of_env henv)⟩
    | @exchange t' op hist q k a s ht' hd =>
      have hq : Justified C op hist q := (hw.asksAfter asking_task ht').1
      have hfact := fact_of_does (ih.fact t' _ ht') ih.owned hq hd
      refine ⟨fun t th ht e he ↦ ?_, fun userId sid hmem ↦ ?_, fun sid key hkey ↦ ?_⟩
      · rcases hstep.mem_history ht he with ⟨th', hth', -, he'⟩ | heq
        · exact (ih.fact t th' hth' e he').mono (clock_of_does hd).ge fun _ _ hwas ↦ hwas.does hd
        · cases heq
          exact hfact
      · rcases mem_of_does hd hmem with hmem | ⟨prev, rfl⟩
        · exact (ih.owned userId sid hmem).does hd
        · exact hfact
      · rcases live_of_does hd hkey with hkey | ⟨data, he, -, hraw⟩
        · rw [clock_of_does hd]
          exact ih.dated sid key hkey
        · obtain ⟨rfl, -⟩ := Sigma.mk.inj_iff.1 he
          obtain ⟨-, now, hnow, hcreated⟩ := hq
          have hle : now ≤ _ := ih.fact t' _ ht' _ hnow
          exact ⟨data, now, hraw, hcreated, hle.trans (clock_of_does hd).ge⟩

/-! ### A session in force is in the index -/

/-- A login has put the session into the index. -/
def Tracked (w : SessionWorld) (sid userId : JsString) : Prop :=
  ∃ t th prev, w.threads t = some th ∧
    (⟨.track userId sid prev, ()⟩ : SessionExchange) ∈ th.history

/-- A session that was stale when it was read is past its cap ever after. -/
theorem pastCap_of_stale (hfact : ∀ e ∈ hist, Fact s e) (hstale : Stale C hist userId sid)
    {data : SessionData} (hkey : s.sessions sid = .live key) (hraw : key.raw = .json data)
    (huser : data.systemUserId = some userId) {createdAt : ℤ}
    (hcreated : data.createdAt = some createdAt) :
    sessionAbsoluteMaxAgeMs < s.clock - createdAt := by
  obtain ⟨raw, pttl, now, hget, hnow, hnone⟩ := hstale
  have hclock : now ≤ s.clock := hfact _ hnow
  cases raw with
  | none =>
    have hgone : Gone s.sessions sid := hfact _ hget
    exact (hgone.of_live hkey).elim
  | some raw =>
    have hwas : Was s.sessions sid (· = raw) := hfact _ hget
    obtain rfl := (hwas.of_live hkey).symm.trans hraw
    simp only [classify, huser, hcreated, ne_eq, not_true_eq_false, if_false] at hnone
    split at hnone
    · next hpast => exact hpast.trans_le (sub_le_sub_right hclock _)
    · cases hnone

/-- The set does not expire while a session in it is in force. -/
private theorem Indexed.of_env (h : Indexed s sid userId) (henv : SessionEnv s s') :
    Indexed s' sid userId := by
  intro key data hkey hraw hcap
  obtain ⟨key', hkey', hraw'⟩ := live_of_env henv hkey
  have hcap' : s.clock - data.createdAt.getD 0 ≤ sessionAbsoluteMaxAgeMs :=
    (sub_le_sub_right (clock_of_env henv) _).trans hcap
  obtain ⟨hmem, hexpires⟩ := h key' data hkey' (hraw'.trans hraw) hcap'
  cases henv with
  | expireIndex u hexpired =>
    have hne : userId ≠ u := by
      rintro rfl
      have hlong : sessionAbsoluteMaxAgeMs < sessionIndexTtlSeconds * 1000 := by decide
      omega
    exact ⟨by simpa [Function.update_of_ne hne] using hmem, hexpires⟩
  | _ => exact ⟨hmem, hexpires⟩

/-- Nor does a command take the session out of the set: nothing that does so is justified while
the session is in force. -/
private theorem Indexed.of_does (h : Indexed w.state sid userId) (htrue : Truthful w) {t : ℕ}
    {q : SessionQuery} {k : SessionAnswer q → SessionTask SessionResult} {a : SessionAnswer q}
    (ht : w.threads t = some ⟨op, hist, .ask q k⟩) (hq : Justified C op hist q)
    (hd : SessionDoes C w.state q a s) (hwas : Was w.state.sessions sid (OwnedBy userId)) :
    Indexed s sid userId := by
  intro key data hkey hraw hcap
  have hfact := htrue.fact t _ ht
  have hclock := clock_of_does hd
  have hlive : w.state.sessions sid = .live key := by
    rcases live_of_does hd hkey with hlive | ⟨data', -, hunused, -⟩
    · exact hlive
    · rcases hwas with hgone | ⟨key', hkey', -⟩
      · rw [hunused] at hgone
        cases hgone
      · rw [hunused] at hkey'
        cases hkey'
  obtain ⟨data', hraw', huser⟩ := hwas.of_live hlive
  obtain rfl := Raw.json.inj (hraw'.symm.trans hraw)
  obtain ⟨hmem, hexpires⟩ := h key data' hlive hraw (hclock ▸ hcap)
  obtain ⟨data, createdAt, hraw', hcreated, hle⟩ := htrue.dated sid key hlive
  obtain rfl := Raw.json.inj (hraw.symm.trans hraw')
  -- As it is within its absolute age, nobody had reason to take it out of the set as stale.
  have hstale : ¬ Stale C hist userId sid := by
    intro hstale
    have hpast := pastCap_of_stale hfact hstale hlive hraw huser hcreated
    rw [hclock, hcreated] at hcap
    exact hpast.not_ge hcap
  refine ⟨?_, ?_⟩
  -- What takes members out of the set: a logout, a cleaning of the set, a revocation.
  · rcases kept_of_does hd hmem with hkept | ⟨u, sid', rfl⟩ | ⟨sids, rfl, hsid⟩ |
      ⟨deleted, sids, rfl, hsid⟩
    · exact hkept
    · have hgone : Gone w.state.sessions sid := hfact _ (hq.2 _ rfl)
      exact (hgone.of_live hlive).elim
    · rcases hq sid hsid with hdestroyed | hs
      · have hgone : Gone w.state.sessions sid := hfact _ hdestroyed
        exact (hgone.of_live hlive).elim
      · exact (hstale hs).elim
    · rcases hq.2 sid hsid with hdeleted | hs
      · have hgone : ∀ sid ∈ deleted, Gone s.sessions sid :=
          fact_of_does hfact htrue.owned hq hd
        exact ((hgone sid hdeleted).of_live hkey).elim
      · exact (hstale hs).elim
  · rw [hcreated, Option.getD_some] at hexpires ⊢
    rcases indexExpiresAt_of_does userId hd with hsame | hlater
    · rwa [hsame]
    · rw [hlater]
      omega

/-- Tracking a session puts it into the set and sets the set's time to live. -/
private theorem indexed_track (htrue : Truthful w) (prev : Option (JsString × JsString)) :
    Indexed ((w.state.sremPrevious prev).sadd userId sid) sid userId := by
  intro key data hkey hraw _
  have hlive : w.state.sessions sid = .live key := by cases prev <;> exact hkey
  obtain ⟨data, createdAt, hraw', hcreated, hle⟩ := htrue.dated sid key hlive
  obtain rfl := Raw.json.inj (hraw.symm.trans hraw')
  refine ⟨mem_sadd.2 (.inr ⟨rfl, rfl⟩), ?_⟩
  have hexpires : ((w.state.sremPrevious prev).sadd userId sid).indexExpiresAt userId =
      w.state.clock + sessionIndexTtlSeconds * 1000 := by
    cases prev <;> exact Function.update_self ..
  rw [hexpires, hcreated, Option.getD_some]
  omega

/-- A tracked session that is in force is in its user's set, in every state of every run. -/
theorem indexed_of_reach (hw : Reach (sessions C) (fun _ _ ↦ True) (.init .init) w) :
    ∀ sid userId, Tracked w sid userId → Indexed w.state sid userId := by
  induction hw with
  | init =>
    rintro sid userId ⟨t, th, prev, ht, -⟩
    cases ht
  | @step w w' e hw _ h ih =>
    have htrue := truthful_of_reach hw
    intro sid userId htracked
    -- It was tracked before the step, or the step is what tracks it.
    have hold : Tracked w sid userId ∨ ∃ t prev, e = .exchange t ⟨.track userId sid prev, ()⟩ := by
      obtain ⟨t, th, prev, ht, hmem⟩ := htracked
      rcases h.mem_history ht hmem with ⟨th', ht', -, hmem'⟩ | rfl
      · exact .inl ⟨t, th', prev, ht', hmem'⟩
      · exact .inr ⟨t, prev, rfl⟩
    cases h with
    | start ht' =>
      rcases hold with hold | ⟨t, prev, he⟩
      · exact ih sid userId hold
      · cases he
    | environment henv =>
      rcases hold with hold | ⟨t, prev, he⟩
      · exact (ih sid userId hold).of_env henv
      · cases he
    | @exchange t' op hist q k a s ht' hd =>
      have hq : Justified C op hist q := (hw.asksAfter asking_task ht').1
      rcases hold with hold | ⟨t, prev, he⟩
      · -- A session tracked before was the user's then.
        refine (ih sid userId hold).of_does htrue ht' hq hd ?_
        obtain ⟨t, th, prev, ht, hmem⟩ := hold
        exact htrue.fact t th ht _ hmem
      · cases he
        cases hd
        exact indexed_track htrue prev

/-- A session that is there was saved by a login. -/
theorem written_of_reach (hw : Reach (sessions C) (fun _ _ ↦ True) (.init .init) w)
    (hkey : w.state.sessions sid = .live key) :
    ∃ t th data, w.threads t = some th ∧
      (∃ cookie ip userAgent, th.op = .login cookie ip userAgent) ∧
      (⟨.save data, sid⟩ : SessionExchange) ∈ th.history ∧ key.raw = .json data := by
  induction hw generalizing key with
  | init => cases hkey
  | @step w w' e hw _ h ih =>
    have hstep := h
    cases h with
    | @start t' op ht' =>
      obtain ⟨t, th, data, ht, hrest⟩ := ih hkey
      refine ⟨t, th, data, (Function.update_of_ne ?_ ..).trans ht, hrest⟩
      rintro rfl
      rw [ht'] at ht
      cases ht
    | environment henv =>
      obtain ⟨key', hkey', hraw⟩ := live_of_env henv hkey
      obtain ⟨t, th, data, ht, hop, hmem, hdata⟩ := ih hkey'
      exact ⟨t, th, data, ht, hop, hmem, hraw ▸ hdata⟩
    | @exchange t' op hist q k a s ht' hd =>
      rcases live_of_does hd hkey with hlive | ⟨data, he, -, hraw⟩
      · obtain ⟨t, th, data, ht, hop, hmem, hdata⟩ := ih hlive
        by_cases htt : t = t'
        · subst htt
          rw [ht'] at ht
          cases ht
          exact ⟨t, _, data, Function.update_self .., hop, List.mem_append_left _ hmem, hdata⟩
        · exact ⟨t, th, data, (Function.update_of_ne htt ..).trans ht, hop, hmem, hdata⟩
      · obtain ⟨rfl, ha⟩ := Sigma.mk.inj_iff.1 he
        obtain rfl := eq_of_heq ha
        have hq : Justified C op hist (.save data) := (hw.asksAfter asking_task ht').1
        exact ⟨t', _, data, Function.update_self .., hq.1,
          List.mem_append_right _ (List.mem_singleton_self _), hraw⟩

/-! ### The window of a login -/

/-- A login that has saved a session tracks it next. -/
def InTime (h : List SessionExchange) (q : SessionQuery) : Prop :=
  ∀ data sid, (⟨.save data, sid⟩ : SessionExchange) ∈ h → ∃ userId prev,
    data.systemUserId = some userId ∧
      ((⟨.track userId sid prev, ()⟩ : SessionExchange) ∈ h ∨ q = .track userId sid prev)

/-- A login that is over has tracked what it has saved. -/
def InTimeOver (h : List SessionExchange) : Prop :=
  ∀ data sid, (⟨.save data, sid⟩ : SessionExchange) ∈ h → ∃ userId prev,
    data.systemUserId = some userId ∧ (⟨.track userId sid prev, ()⟩ : SessionExchange) ∈ h

/-- Nothing has been saved. -/
def Unsaved (h : List SessionExchange) : Prop := ∀ e ∈ h, ∀ data, e.1 ≠ .save data

/-- An exchange that saves nothing leaves it unsaved. -/
theorem Unsaved.snoc {h : List SessionExchange} (hh : Unsaved h) {q : SessionQuery}
    {a : SessionAnswer q} (hq : ∀ data, q ≠ .save data) : Unsaved (h ++ [⟨q, a⟩]) := by
  intro e he
  rcases List.mem_append.1 he with he | he
  · exact hh e he
  · obtain rfl := List.mem_singleton.1 he
    exact hq

/-- Before a session is saved every command is in time. -/
theorem Unsaved.inTime {h : List SessionExchange} (hh : Unsaved h) (q : SessionQuery) :
    InTime h q := fun data _ he ↦ (hh _ he data rfl).elim

/-- A call that has saved nothing has been in time. -/
theorem Unsaved.over {h : List SessionExchange} (hh : Unsaved h) : InTimeOver h :=
  fun data _ he ↦ (hh _ he data rfl).elim

/-- A command that saves nothing, and what follows it. -/
theorem inTime_send_bind {ρ : Type} {post : List SessionExchange → ρ → Prop}
    {h : List SessionExchange} {q : SessionQuery} {f : SessionAnswer q → SessionTask ρ}
    (hh : Unsaved h) (hq : ∀ data, q ≠ .save data)
    (hf : ∀ a, Unsaved (h ++ [⟨q, a⟩]) → (f a).AsksAfter InTime post (h ++ [⟨q, a⟩])) :
    (send q >>= f).AsksAfter InTime post h := ⟨hh.inTime _, fun a ↦ hf a (hh.snoc hq)⟩

/-- Opening a session saves it and tracks it at once. -/
theorem inTime_openSession {h : List SessionExchange} (hh : Unsaved h)
    (carried : Option SessionContext) (userId ip userAgent : JsString) :
    (openSession carried userId ip userAgent).AsksAfter InTime (fun h _ ↦ InTimeOver h) h := by
  refine inTime_send_bind hh (by nofun) fun now hh ↦ ⟨hh.inTime _, fun sid ↦ ?_⟩
  have hsaved : ∀ data sid', (⟨.save data, sid'⟩ : SessionExchange) ∈ (h ++ [⟨.now, now⟩]) ++
      [⟨.save ⟨some userId, some now, some ip, some userAgent⟩, sid⟩] →
      sid' = sid ∧ data.systemUserId = some userId := by
    intro data sid' he
    rcases List.mem_append.1 he with he | he
    · exact (hh _ he data rfl).elim
    · cases List.mem_singleton.1 he
      exact ⟨rfl, rfl⟩
  refine ⟨fun data sid' he ↦ ?_, fun _ data sid' he ↦ ?_⟩
  · obtain ⟨rfl, huser⟩ := hsaved data sid' he
    exact ⟨userId, _, huser, .inr rfl⟩
  · rcases List.mem_append.1 he with he | he
    · obtain ⟨rfl, huser⟩ := hsaved data sid' he
      exact ⟨userId, _, huser, List.mem_append_right _ (List.mem_singleton_self _)⟩
    · cases List.mem_singleton.1 he

/-- So does a login. -/
theorem inTime_login (cookie : Option JsString) (ip userAgent : JsString) :
    (login cookie ip userAgent).AsksAfter InTime (fun h _ ↦ InTimeOver h) [] := by
  have hnil : Unsaved [] := fun e he ↦ (List.not_mem_nil he).elim
  have hload : (loadSession cookie).AsksAfter InTime (fun h _ ↦ Unsaved h) [] := by
    cases cookie with
    | none => exact hnil
    | some sid =>
      refine inTime_send_bind hnil (by nofun) fun found hh ↦ ?_
      cases found with
      | none => exact hh
      | some raw => cases raw <;> exact hh
  refine hload.bind fun h r hh ↦ ?_
  cases r with
  | error e => exact hh.over
  | ok carried =>
    refine inTime_send_bind hh (by nofun) fun user hh ↦ ?_
    cases user with
    | none => exact hh.over
    | some userId =>
      cases carried with
      | none =>
        refine (inTime_openSession hh none userId ip userAgent).bind ?_
        exact fun _ _ hover ↦ hover
      | some c =>
        refine inTime_send_bind hh (by nofun) fun _ hh ↦
          (inTime_openSession hh (some c) userId ip userAgent).bind ?_
        exact fun _ _ hover ↦ hover

/-- `InTime`, of the logins. -/
def LoginInTime : SessionCall → List SessionExchange → SessionQuery → Prop
  | .login _ _ _ => InTime
  | _ => fun _ _ ↦ True

/-- `InTimeOver`, of the logins. -/
def LoginOver : SessionCall → List SessionExchange → SessionResult → Prop
  | .login _ _ _ => fun h _ ↦ InTimeOver h
  | _ => fun _ _ ↦ True

/-- No other call saves a session. -/
theorem inTime_task (op : SessionCall) :
    (op.task C).AsksAfter (LoginInTime op) (LoginOver op) [] := by
  cases op with
  | login cookie ip userAgent =>
    refine (inTime_login cookie ip userAgent).bind ?_
    exact fun _ _ hover ↦ hover
  | _ => exact Task.asksAfter_of_forall (fun _ _ ↦ trivial) (fun _ _ ↦ trivial) _ _

/-- A session of a login is tracked, or it is tracked next. -/
theorem tracked_of_login (hw : Reach (sessions C) (fun _ _ ↦ True) (.init .init) w) {t : ℕ}
    {th : Thread SessionQuery SessionAnswer SessionResult SessionCall} (ht : w.threads t = some th)
    {cookie : Option JsString} {ip userAgent : JsString}
    (hop : th.op = .login cookie ip userAgent) {data : SessionData}
    (hsave : (⟨.save data, sid⟩ : SessionExchange) ∈ th.history) :
    ∃ userId, data.systemUserId = some userId ∧
      (Tracked w sid userId ∨ BeingTracked w sid userId) := by
  have hasks := hw.asksAfter inTime_task ht
  rw [hop] at hasks
  generalize hrest : th.rest = rest at hasks
  cases rest with
  | done r =>
    obtain ⟨userId, prev, huser, hmem⟩ := hasks data sid hsave
    exact ⟨userId, huser, .inl ⟨t, th, prev, ht, hmem⟩⟩
  | ask q k =>
    obtain ⟨userId, prev, huser, hmem | rfl⟩ := hasks.1 data sid hsave
    · exact ⟨userId, huser, .inl ⟨t, th, prev, ht, hmem⟩⟩
    · exact ⟨userId, huser, .inr ⟨t, th, prev, k, ht, hrest⟩⟩

/-- **A session in force is in the index**, or its login is about to put it there. -/
theorem indexed_of_inForce (hw : Reach (sessions C) (fun _ _ ↦ True) (.init .init) w)
    (h : InForce w.state sid userId) :
    sid ∈ w.state.members userId ∨ BeingTracked w sid userId := by
  obtain ⟨key, data, hkey, hraw, huser, hcap⟩ := h
  obtain ⟨t, th, data', ht, ⟨cookie, ip, userAgent, hop⟩, hsave, hraw'⟩ := written_of_reach hw hkey
  obtain rfl := Raw.json.inj (hraw'.symm.trans hraw)
  obtain ⟨userId', huser', htracked | hbeing⟩ := tracked_of_login hw ht hop hsave
  · obtain rfl := Option.some.inj (huser.symm.trans huser')
    exact .inl (indexed_of_reach hw sid userId htracked key data' hkey hraw hcap).1
  · obtain rfl := Option.some.inj (huser.symm.trans huser')
    exact .inr hbeing

/-! ### Revocations -/

/-- What a key has held, it has held in every later state. -/
theorem was_of_run (hrun : Reach (sessions C) (fun _ _ ↦ True) w w')
    (hwas : Was w.state.sessions sid p) : Was w'.state.sessions sid p := by
  refine hrun.invariant (I := fun w ↦ Was w.state.sessions sid p) hwas fun w e w' hwas _ h ↦ ?_
  cases h with
  | start => exact hwas
  | environment henv => exact hwas.env henv
  | exchange _ hd => exact hwas.does hd

/-- The clock of a run only moves forward. -/
theorem clock_of_run (hrun : Reach (sessions C) (fun _ _ ↦ True) w w') :
    w.state.clock ≤ w'.state.clock := by
  refine hrun.invariant (I := fun w' ↦ w.state.clock ≤ w'.state.clock) le_rfl
    fun w e w' hle _ h ↦ ?_
  cases h with
  | start => exact hle
  | environment henv => exact hle.trans (clock_of_env henv)
  | exchange _ hd => exact hle.trans (clock_of_does hd).ge

/-- A session that is in force after a run and is tracked before it is in the index before it. -/
theorem mem_of_inForce (hw : Reach (sessions C) (fun _ _ ↦ True) (.init .init) w)
    (hrun : Reach (sessions C) (fun _ _ ↦ True) w w') (htracked : Tracked w sid userId)
    (h : InForce w'.state sid userId) : sid ∈ w.state.members userId := by
  obtain ⟨key, data, hkey, hraw, -, hcap⟩ := h
  obtain ⟨t, th, prev, ht, hmem⟩ := id htracked
  have hwas : Was w.state.sessions sid (OwnedBy userId) :=
    (truthful_of_reach hw).fact t th ht _ hmem
  rcases hwas with hgone | ⟨key', hkey', -⟩
  · have hgone' : Gone w.state.sessions sid := .inl hgone
    exact ((was_of_run hrun hgone').of_live hkey).elim
  · have hsame : Was w.state.sessions sid (· = key'.raw) := .inr ⟨key', hkey', rfl⟩
    have hraw' := (was_of_run hrun hsame).of_live hkey
    exact (indexed_of_reach hw sid userId htracked key' data hkey' (hraw'.symm.trans hraw)
      ((sub_le_sub_right (clock_of_run hrun) _).trans hcap)).1

/-- A member that was not spared is gone when the call is over. -/
theorem gone_of_ends (hw : Reach (sessions C) (fun _ _ ↦ True) (.init .init) w) {t : ℕ}
    {th : Thread SessionQuery SessionAnswer SessionResult SessionCall} (ht : w.threads t = some th)
    {sids : List JsString} {spared : Option JsString} (hspared : th.op.spared = some spared)
    (hread : (⟨.smembers userId, sids⟩ : SessionExchange) ∈ th.history) {r : SessionResult}
    (hover : th.rest = .done r) (hmem : sid ∈ sids) (hne : some sid ≠ spared) :
    Gone w.state.sessions sid := by
  have htrue := truthful_of_reach hw
  have hdone := hw.asksAfter asking_task ht
  rw [hover] at hdone
  rcases hdone.ended spared hspared userId sids hread sid hmem hne with
    ⟨deleted, taken, results, hrevoke, hdeleted⟩ | ⟨raw, hget, hforeign⟩
  · have hgone : ∀ sid ∈ deleted, Gone w.state.sessions sid := htrue.fact t th ht _ hrevoke
    exact hgone sid hdeleted
  · have howned : ∀ sid ∈ sids, Was w.state.sessions sid (OwnedBy userId) :=
      htrue.fact t th ht _ hread
    have hfact := htrue.fact t th ht _ hget
    cases raw with
    | none => exact hfact
    | some raw =>
      have hwas : Was w.state.sessions sid (· = raw) := hfact
      refine (hwas.and (howned sid hmem)).imp ?_
      rintro _ ⟨rfl, hown⟩
      exact hforeign _ rfl hown

/-- What the `DEL`s have found was there, and it is listed once. -/
theorem nodup_deleted (f : JsString → Slot SessionKey) (sids : List JsString) :
    ((((sids.zip (delReplies f sids)).filter (·.2)).map (·.1)).Nodup) ∧
      ∀ sid ∈ ((sids.zip (delReplies f sids)).filter (·.2)).map (·.1),
        (∃ key, f sid = .live key) ∧ Gone (delAll f sids) sid := by
  induction sids generalizing f with
  | nil => exact ⟨.nil, fun sid hmem ↦ (List.not_mem_nil hmem).elim⟩
  | cons sid sids ih =>
    obtain ⟨hnodup, hall⟩ := ih (del f sid)
    have hrest : ∀ x ∈ ((sids.zip (delReplies (del f sid) sids)).filter (·.2)).map (·.1),
        (∃ key, f x = .live key) ∧ Gone (delAll f (sid :: sids)) x := by
      intro x hx
      obtain ⟨⟨key, hkey⟩, hgone⟩ := hall x hx
      exact ⟨⟨key, live_of_del hkey⟩, hgone⟩
    unfold delReplies
    cases hlive : (f sid).get with
    | none =>
      simp only [Option.isSome_none, List.zip_cons_cons, List.filter_cons, Bool.false_eq_true,
        if_false]
      exact ⟨hnodup, hrest⟩
    | some key =>
      have hkey := Slot.get_eq_some.1 hlive
      have hwas : Was f sid fun _ ↦ True := .inr ⟨key, hkey, trivial⟩
      have hgone : Gone (del f sid) sid := hwas.del_self
      simp only [Option.isSome_some, List.zip_cons_cons, List.filter_cons, if_true, List.map_cons,
        List.nodup_cons, List.forall_mem_cons]
      refine ⟨⟨fun hmem ↦ ?_, hnodup⟩, ⟨⟨key, hkey⟩, hgone.delAll⟩, hrest⟩
      obtain ⟨⟨key', hkey'⟩, -⟩ := hall sid hmem
      exact hgone.of_live hkey'

/-- The session keys that the call has deleted in a revocation. -/
def revokedKeys (h : List SessionExchange) : List JsString := h.flatMap deletedBy

/-- A key that a revocation deletes was there, and is gone. -/
theorem deletedBy_of_does {q : SessionQuery} {a : SessionAnswer q} (hd : SessionDoes C s q a s') :
    (deletedBy ⟨q, a⟩).Nodup ∧ ∀ sid ∈ deletedBy ⟨q, a⟩,
      (∃ key, s.sessions sid = .live key) ∧ Gone s'.sessions sid := by
  cases hd with
  | revoke deleted userId sids => exact nodup_deleted _ deleted
  | _ => exact ⟨.nil, fun sid hmem ↦ (List.not_mem_nil hmem).elim⟩

/-- A session that a call has destroyed is gone. -/
theorem gone_of_revoked (htrue : Truthful w) {t : ℕ}
    {th : Thread SessionQuery SessionAnswer SessionResult SessionCall} (ht : w.threads t = some th)
    (hmem : sid ∈ revokedKeys th.history) : Gone w.state.sessions sid := by
  obtain ⟨⟨q, a⟩, he, hmem⟩ := List.mem_flatMap.1 hmem
  have hfact := htrue.fact t th ht _ he
  cases q with
  | revoke deleted userId sids =>
    obtain ⟨⟨x, b⟩, hx, rfl⟩ := List.mem_map.1 hmem
    exact hfact x (List.of_mem_zip (List.mem_of_mem_filter hx)).1
  | _ => cases hmem

/-- No key is deleted twice. -/
theorem revoked_once (hw : Reach (sessions C) (fun _ _ ↦ True) (.init .init) w) :
    (∀ t th, w.threads t = some th → (revokedKeys th.history).Nodup) ∧
      ∀ t t' th th' sid, w.threads t = some th → w.threads t' = some th' →
        sid ∈ revokedKeys th.history → sid ∈ revokedKeys th'.history → t = t' := by
  induction hw with
  | init =>
    refine ⟨fun t th ht ↦ ?_, fun t t' th th' sid ht ↦ ?_⟩ <;> cases ht
  | @step w w' e hw _ h ih =>
    have htrue := truthful_of_reach hw
    obtain ⟨hnodup, hapart⟩ := ih
    -- a key that this step deletes was there, so no call had deleted it
    have hfresh : ∀ t x t' th' sid, e = .exchange t x → sid ∈ deletedBy x →
        w.threads t' = some th' → sid ∉ revokedKeys th'.history := by
      rintro t x t' th' sid rfl hnew ht' hold
      cases h with
      | exchange ht hd =>
        obtain ⟨⟨key, hkey⟩, -⟩ := (deletedBy_of_does hd).2 sid hnew
        exact (gone_of_revoked htrue ht' hold).of_live hkey
    -- A key deleted after the step was deleted before it or by it.
    have hcases : ∀ t th sid, w'.threads t = some th → sid ∈ revokedKeys th.history →
        (∃ th', w.threads t = some th' ∧ sid ∈ revokedKeys th'.history) ∨
          ∃ x, e = .exchange t x ∧ sid ∈ deletedBy x := by
      intro t th sid ht hmem
      obtain ⟨x, hx, hmem⟩ := List.mem_flatMap.1 hmem
      rcases h.mem_history ht hx with ⟨th', ht', -, hx'⟩ | he
      · exact .inl ⟨th', ht', List.mem_flatMap.2 ⟨x, hx', hmem⟩⟩
      · exact .inr ⟨x, he, hmem⟩
    refine ⟨fun t th ht ↦ ?_, fun t t' th th' sid ht ht' hmem hmem' ↦ ?_⟩
    · cases h with
      | @start t' op _ =>
        dsimp only at ht
        by_cases htt : t = t'
        · subst htt
          rw [Function.update_self] at ht
          cases ht
          exact .nil
        · rw [Function.update_of_ne htt] at ht
          exact hnodup t th ht
      | environment => exact hnodup t th ht
      | @exchange t' op hist q k a s ht' hd =>
        dsimp only at ht
        by_cases htt : t = t'
        · subst htt
          rw [Function.update_self] at ht
          cases ht
          have hold : (revokedKeys hist).Nodup := hnodup t _ ht'
          simp only [revokedKeys, List.flatMap_append, List.flatMap_cons, List.flatMap_nil,
            List.append_nil]
          refine List.nodup_append'.2 ⟨hold, (deletedBy_of_does hd).1, fun sid hmem hmem' ↦ ?_⟩
          exact hfresh t _ t _ sid rfl hmem' ht' hmem
        · rw [Function.update_of_ne htt] at ht
          exact hnodup t th ht
    -- Deleted before by both, by one of them before and the other now, or by both now.
    · rcases hcases t th sid ht hmem with ⟨th₀, ht₀, hold⟩ | ⟨x, rfl, hnew⟩ <;>
        rcases hcases t' th' sid ht' hmem' with ⟨th₁, ht₁, hold'⟩ | ⟨x', he, hnew'⟩
      · exact hapart t t' th₀ th₁ sid ht₀ ht₁ hold hold'
      · exact (hfresh t' x' t th₀ sid he hnew' ht₀ hold).elim
      · exact (hfresh t x t' th₁ sid rfl hnew ht₁ hold').elim
      · cases he
        rfl

/-! ### Confinement -/

/-- Deletions leave the keys they do not name. -/
theorem live_delAll_of_not_mem {sids : List JsString} (h : f sid = .live key)
    (hnot : sid ∉ sids) : delAll f sids sid = .live key := by
  induction sids generalizing f with
  | nil => exact h
  | cons sid' sids ih =>
    obtain ⟨hne, hnot⟩ := not_or.1 (mt List.mem_cons.2 hnot)
    exact ih ((del_of_ne hne).trans h) hnot

/-- A call with which an account acts on its own sessions deletes no key but those of the account,
and not the one of its own session, unless `SessionGuard` turns that one away. -/
def Confined (w w' : SessionWorld) : SessionEvent → Prop
  | .exchange t ⟨q, _⟩ => ∀ th own sid key, w.threads t = some th → th.op.own = some own →
      w.state.sessions sid = .live key → w'.state.sessions sid = .gone →
      (sid ≠ own ∧ ∃ userId, Carries th.history own userId ∧ OwnedBy userId key.raw) ∨
        sid = own ∧ q = .destroy own ∧ Rejected th.history own
  | _ => True

/-- No step takes away a session that it has no reason to. -/
theorem confined_of_step (hw : Reach (sessions C) (fun _ _ ↦ True) (.init .init) w)
    {e : SessionEvent} (h : Step (sessions C) w e w') : Confined w w' e := by
  cases h with
  | start => trivial
  | environment => trivial
  | @exchange t op hist q k a s ht hd =>
    intro th own sid key hth hown hkey hgone
    obtain rfl := Option.some.inj (ht.symm.trans hth)
    have hq : Justified C op hist q := (hw.asksAfter asking_task ht).1
    have hsame : s.sessions = w.state.sessions → False := by
      intro he
      rw [he, hkey] at hgone
      cases hgone
    cases hd with
    | destroy sid' =>
      by_cases he : sid = sid'
      · subst he
        obtain ⟨rfl, hrejected⟩ := hq.2 own hown
        exact .inr ⟨rfl, rfl, hrejected⟩
      · simp only [del_of_ne he, hkey] at hgone
        cases hgone
    | save data sid' hunused =>
      have he : sid ≠ sid' := by
        rintro rfl
        rw [hkey] at hunused
        cases hunused
      simp only [SessionState.set, Function.update_of_ne he, hkey] at hgone
      cases hgone
    | track userId sid' prev => cases prev <;> exact (hsame rfl).elim
    | revoke deleted userId sids =>
      have hmem : sid ∈ deleted := by
        by_contra hnot
        have hlive : delAll w.state.sessions deleted sid = .live key :=
          live_delAll_of_not_mem hkey hnot
        cases hlive.symm.trans hgone
      obtain ⟨⟨raw, hget, howned⟩, hotherwise⟩ := hq.1 sid hmem
      have hwas : Was w.state.sessions sid (· = raw) := (truthful_of_reach hw).fact t _ ht _ hget
      obtain ⟨hne, hcarries⟩ := hotherwise own hown
      exact .inl ⟨hne, userId, hcarries, hwas.of_live hkey ▸ howned⟩
    | _ => exact (hsame rfl).elim

/-! ### The main result -/

/-- What is tracked stays so. -/
theorem Tracked.of_run (htracked : Tracked w sid userId)
    (hrun : Reach (sessions C) (fun _ _ ↦ True) w w') : Tracked w' sid userId := by
  obtain ⟨t, th, prev, ht, hmem⟩ := htracked
  obtain ⟨th', ht', -, hmem'⟩ := hrun.keeps_history ht hmem
  exact ⟨t, th', prev, ht', hmem'⟩

/-- A call that has read the index after the session was put there has ended it. -/
theorem ended_of_read {w₁ w₂ : SessionWorld}
    (hw : Reach (sessions C) (fun _ _ ↦ True) (.init .init) w) (htracked : Tracked w sid userId)
    {t : ℕ} {sids : List JsString}
    (hread : Step (sessions C) w (.exchange t ⟨.smembers userId, sids⟩) w₁)
    (hrun : Reach (sessions C) (fun _ _ ↦ True) w₁ w₂)
    {th : Thread SessionQuery SessionAnswer SessionResult SessionCall} (ht : w₂.threads t = some th)
    {spared : Option JsString} (hspared : th.op.spared = some spared) {r : SessionResult}
    (hover : th.rest = .done r) (hne : some sid ≠ spared) : ¬ InForce w₂.state sid userId := by
  intro hforce
  have hmem := mem_of_inForce hw ((Reach.init.step trivial hread).trans hrun) htracked hforce
  have hw₂ := (hw.step trivial hread).trans hrun
  cases hread with
  | exchange ht₀ hd =>
    obtain ⟨th', ht', -, hhistory⟩ := hrun.keeps_history (Function.update_self ..)
      (List.mem_append_right _ (List.mem_singleton_self _))
    obtain rfl := Option.some.inj (ht.symm.trans ht')
    cases hd with
    | smembers _ _ _ hall =>
      have hgone := gone_of_ends hw₂ ht hspared hhistory hover ((hall sid).2 hmem) hne
      obtain ⟨key, data, hkey, -⟩ := hforce
      exact hgone.of_live hkey

/-- **Revocation is complete and confined.** In every run a session in force is in the index of its
account, unless its login is about to put it there; a call that ends the sessions of an account,
and reads the index after the session was put there, has ended it when it is over, unless it spares
it; one that has started since does read the index, and so has ended all that were there; an
account that acts on its own sessions deletes no key of another account and not its own one; and a
call that answers how many sessions it has revoked counts keys that it has deleted itself, no two
calls the same one. -/
theorem sessions_revoked (hw : Reach (sessions C) (fun _ _ ↦ True) (.init .init) w) :
    (∀ sid userId, InForce w.state sid userId →
      sid ∈ w.state.members userId ∨ BeingTracked w sid userId) ∧
    (∀ sid userId, Tracked w sid userId → ∀ t sids w₁ w₂ th spared r,
      Step (sessions C) w (.exchange t ⟨.smembers userId, sids⟩) w₁ →
      Reach (sessions C) (fun _ _ ↦ True) w₁ w₂ → w₂.threads t = some th →
      th.op.spared = some spared → th.rest = .done r → some sid ≠ spared →
      ¬ InForce w₂.state sid userId) ∧
    (∀ t w₂ th reply, w.threads t = none → Reach (sessions C) (fun _ _ ↦ True) w w₂ →
      w₂.threads t = some th → th.op.spared ≠ none → th.rest = .done (.ok reply) →
      ∃ userId, th.op.Ends th.history userId ∧ ∀ sid, Tracked w sid userId →
        th.op.spared ≠ some (some sid) → ¬ InForce w₂.state sid userId) ∧
    (∀ e w', Step (sessions C) w e w' → Confined w w' e) ∧
    (∀ t th n, w.threads t = some th → th.rest = .done (.ok (.revoked n)) →
      ∃ l : List JsString, l.Sublist (revokedKeys th.history) ∧ l.length = n) ∧
    (∀ t th, w.threads t = some th → (revokedKeys th.history).Nodup) ∧
    ∀ t t' th th' sid, w.threads t = some th → w.threads t' = some th' →
      sid ∈ revokedKeys th.history → sid ∈ revokedKeys th'.history → t = t' := by
  refine ⟨fun sid userId h ↦ indexed_of_inForce hw h,
    fun sid userId htracked t sids w₁ w₂ th spared r hread hrun ht hspared hover hne ↦
      ended_of_read hw htracked hread hrun ht hspared hover hne, ?_,
    fun e w' h ↦ confined_of_step hw h, fun t th n ht hrest ↦ ?_, revoked_once hw⟩
  · intro t w₂ th reply hfree hrun ht hspared hrest
    have hdone := (hw.trans hrun).asksAfter asking_task ht
    rw [hrest] at hdone
    obtain ⟨userId, sids, hends, hread⟩ := hdone.read hspared reply rfl
    refine ⟨userId, hends, fun sid htracked hne ↦ ?_⟩
    obtain ⟨w₀, w₁, hw₀, hstep, hw₁⟩ := hrun.answered hfree ht hread
    obtain ⟨spared, hspared⟩ := Option.ne_none_iff_exists'.1 hspared
    refine ended_of_read (hw.trans hw₀) (htracked.of_run hw₀) hstep hw₁ ht hspared hrest ?_
    rintro rfl
    exact hne hspared
  · have hdone := hw.asksAfter asking_task ht
    rw [hrest] at hdone
    exact hdone.counted n rfl

/-- Eight hours for a session, and a handle that is the session's id. -/
private def exampleConfig : SessionConfig := ⟨fun sid ↦ sid, 28800⟩

/-- The session of the user `[2]`, signed in at 0. -/
private def exampleSession : SessionData := ⟨some [2], some 0, some [], some []⟩

/-- An active account that need not change its password. -/
private def accountRow : SystemUser := ⟨.admin, false, true, none⟩

/-- One account, and nobody signed in. -/
private def enrolled : SessionState :=
  { SessionState.init with users := Function.update (fun _ ↦ none) [2] (some accountRow) }

/-- After a login. -/
private def signedIn (s : SessionState) (sid : ℕ) : SessionState :=
  (s.set [sid] exampleSession 28800).sadd [2] [sid]

/-- A login at 0 under a session id that has not been used. -/
private theorem login_runs (s : SessionState) (sid : ℕ) (hclock : s.clock = 0)
    (hsid : s.sessions [sid] = .unused) :
    Runs (sessions exampleConfig).does s ((sessions exampleConfig).task (.login none [] []))
      [⟨.validateCredentials, some [2]⟩, ⟨.now, 0⟩, ⟨.save exampleSession, [sid]⟩,
        ⟨.track [2] [sid] none, ()⟩] (.ok (.signedIn [sid])) (signedIn s sid) := by
  have hnow := SessionDoes.now (C := exampleConfig) s
  rw [hclock] at hnow
  exact .ask (.validateCredentials s (some [2])) (.ask hnow
    (.ask (.save s exampleSession [sid] hsid) (.ask (.track _ [2] [sid] none) (.refl _ _))))

/-- Two sessions of the one account. -/
private def bothSignedIn : SessionState := signedIn (signedIn enrolled 1) 4

/-- The second of them is revoked from the first. -/
private theorem revokeOthers_runs : ∃ s h,
    Runs (sessions exampleConfig).does bothSignedIn
      ((sessions exampleConfig).task (.revokeOthers [1])) h (.ok (.revoked 1)) s ∧
      s.sessions [4] = .gone ∧ InForce s [1] [2] :=
  ⟨_, [⟨.load [1], some (.json exampleSession)⟩, ⟨.now, 0⟩,
    ⟨.findUser [2], .found (some accountRow)⟩, ⟨.smembers [2], [[4], [1]]⟩,
    ⟨.get [4], some (.json exampleSession)⟩, ⟨.pttl [4], 28800000⟩,
    ⟨.get [1], some (.json exampleSession)⟩, ⟨.pttl [1], 28800000⟩, ⟨.now, 0⟩,
    ⟨.revoke [[4]] [2] [[4]], [true]⟩],
    .ask (.load _ [1]) (.ask (.now _) (.ask (.findUser _ [2]) (.ask (.smembers _ [2] [[4], [1]]
      (by decide) fun sid ↦ Iff.rfl) (.ask (.get _ [4]) (.ask (.pttl _ [4]) (.ask (.get _ [1])
      (.ask (.pttl _ [1]) (.ask (.now _) (.ask (.revoke _ [[4]] [2] [[4]]) (.refl _ _)))))))))),
    rfl, ⟨_, exampleSession, rfl, rfl, rfl, by decide⟩⟩

/-- An account signs in twice and then ends its other session: the session that is left is in the
index, and one key is counted. -/
theorem sessions_revoked_others : ∃ w,
    Reach (sessions exampleConfig) (fun _ _ ↦ True) (.init .init) w ∧
      w.state.sessions [4] = .gone ∧
      ([1] ∈ w.state.members [2] ∨ BeingTracked w [1] [2]) ∧
      ∃ th, w.threads 2 = some th ∧
        ∃ l : List JsString, l.Sublist (revokedKeys th.history) ∧ l.length = 1 := by
  have hinit : Reach (sessions exampleConfig) (fun _ _ ↦ True) (.init .init) (.init .init) := .init
  have henrolled := hinit.step trivial (.environment (.write _ [2] (some accountRow)))
  have hfirst := henrolled.call 0 _ rfl (login_runs enrolled 1 rfl rfl) (fun _ ↦ trivial)
    fun _ _ _ ↦ trivial
  have hboth := hfirst.call 1 _ rfl (login_runs (signedIn enrolled 1) 4 rfl rfl)
    (fun _ ↦ trivial) fun _ _ _ ↦ trivial
  obtain ⟨s, h, hruns, hgone, hforce⟩ := revokeOthers_runs
  have hrevoked := hboth.call 2 _ rfl hruns (fun _ ↦ trivial) fun _ _ _ ↦ trivial
  obtain ⟨w, hw, hth, rfl⟩ : ∃ w, Reach (sessions exampleConfig) (fun _ _ ↦ True) (.init .init) w ∧
      w.threads 2 = some ⟨.revokeOthers [1], h, .done (.ok (.revoked 1))⟩ ∧ w.state = s :=
    ⟨_, hrevoked, rfl, rfl⟩
  have hall := sessions_revoked hw
  exact ⟨w, hw, hgone, hall.1 [1] [2] hforce, _, hth, hall.2.2.2.2.1 2 _ 1 hth rfl⟩

end EasyBook.Sessions

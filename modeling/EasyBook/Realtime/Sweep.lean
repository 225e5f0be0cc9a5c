import EasyBook.Realtime.Model

/-!
# What a sweep closes

Handshakes and sweeps interleaved request by request, with whatever happens to the sessions and the
accounts meanwhile. A sweep works on the sockets that it finds at its start, so it closes every
socket of a session or an account that was revoked by then, unless a handshake that has read them
before connects during the sweep, or a read of an account fails, which ends the sweep.

Whatever the interleaving, a socket is in the room of the super admins if and only if the role last
read for it says so.
-/

namespace EasyBook.Realtime

open Machine Machine.Task

/-! ### The law -/

/-- No socket of the session connects. -/
def SparesSession (sid : JsString) : SocketEvent → Prop
  | .exchange _ ⟨.connect data, _⟩ => data.sid ≠ sid
  | _ => True

/-- No socket of the account connects, and call `t` is not ended by a read that fails as long as one
is open. -/
def SparesUser (t : ℕ) (id : JsString) (w : SocketWorld) : SocketEvent → Prop
  | .exchange _ ⟨.connect data, _⟩ => data.systemUserId ≠ id
  | .exchange u ⟨.findUser _, .failed⟩ =>
    u = t → ∀ n socket, w.state.sockets n = .live socket → socket.data.systemUserId ≠ id
  | _ => True

/-- The role that the exchange gives a socket. -/
def roleGiven (n : ℕ) : SocketExchange → Option SystemRole
  | ⟨.connect data, n'⟩ => if n' = n then some data.role else none
  | ⟨.applyRole sockets role, _⟩ => if n ∈ sockets then some role else none
  | _ => none

/-- The role last given to a socket. -/
def lastRole (n : ℕ) : List SocketEvent → Option SystemRole
  | [] => none
  | .exchange _ e :: log => (roleGiven n e).or (lastRole n log)
  | _ :: log => lastRole n log

/-- A role is given to a socket only as its call has just read it for the account of the socket. -/
def GivenAsRead (w w' : SocketWorld) : SocketEvent → Prop
  | .exchange t e => ∀ n role socket, roleGiven n e = some role →
    w'.state.sockets n = .live socket →
    ∃ th h row user, w.threads t = some th ∧
      th.history = h ++ [⟨.findUser socket.data.systemUserId, .found row⟩] ∧
      eligible row = some user ∧ user.role = role
  | _ => True

/-- A socket is in the room if and only if the role last given to it is that of a super admin. -/
def RoomsRight (w : SocketWorld) : Prop :=
  ∀ n socket, w.state.sockets n = .live socket →
    (socket.inSuperRoom = true ↔ lastRole n w.log = some .superAdmin)

/-! ### The sockets -/

variable {s s' : SocketState}

/-- A socket of a state is one of the state before, of the same session and account, or it has just
been connected. -/
theorem socket_of_does {q : SocketQuery} {a : SocketAnswer q} (hd : SocketDoes s q a s') {n : ℕ}
    {socket' : Socket} (hn : s'.sockets n = .live socket') :
    (∃ socket, s.sockets n = .live socket ∧ socket'.data.sid = socket.data.sid ∧
      socket'.data.systemUserId = socket.data.systemUserId ∧
      ∀ sockets, q = .closeAll sockets → n ∉ sockets) ∨
    ∃ data, (⟨q, a⟩ : SocketExchange) = ⟨.connect data, n⟩ ∧
      socket' = applyRoleRoom data.role ⟨data, false⟩ := by
  cases hd with
  | now | readSession | readSessionFailed | findUser | findUserFailed | idle | begin | finish =>
    exact .inl ⟨socket', hn, rfl, rfl, nofun⟩
  | connect data n' h =>
    by_cases he : n = n'
    · subst he
      simp only [SocketState.connect, Function.update_self, Slot.live.injEq] at hn
      exact .inr ⟨data, rfl, hn.symm⟩
    · simp only [SocketState.connect, Function.update_of_ne he] at hn
      exact .inl ⟨socket', hn, rfl, rfl, nofun⟩
  | closeAll sockets =>
    simp only [SocketState.closeAll] at hn
    split at hn
    · cases hn
    · next hnot =>
      refine .inl ⟨socket', hn, rfl, rfl, fun l hl ↦ ?_⟩
      cases hl
      exact hnot
  | applyRole sockets role =>
    simp only [SocketState.applyRole] at hn
    split at hn
    · next socket hold =>
      obtain rfl := Slot.live.inj hn
      refine .inl ⟨socket, hold, ?_, ?_, nofun⟩ <;> split <;> rfl
    · next hnot => exact (hnot socket' hn).elim

theorem socket_of_env (he : SocketEnv s s') {n : ℕ} {socket : Socket}
    (hn : s'.sockets n = .live socket) : s.sockets n = .live socket := by
  cases he with
  | leave n' =>
    by_cases h : n = n'
    · subst h
      simp [Function.update_self] at hn
    · simpa only [Function.update_of_ne h] using hn
  | _ => exact hn

/-- A session that is gone does not come back. -/
theorem gone_of_step {w w' : SocketWorld} {e : SocketEvent} (h : Step gateway w e w')
    {sid : JsString} (hgone : w.state.sessions sid = .gone) : w'.state.sessions sid = .gone := by
  cases h with
  | start => exact hgone
  | exchange _ hd => cases hd <;> exact hgone
  | environment he =>
    cases he with
    | login sid' session hunused =>
      have hne : sid ≠ sid' := by
        rintro rfl
        rw [hgone] at hunused
        cases hunused
      exact (Function.update_of_ne hne ..).trans hgone
    | destroy sid' =>
      by_cases hs : sid = sid'
      · subst hs
        exact Function.update_self ..
      · exact (Function.update_of_ne hs ..).trans hgone
    | _ => exact hgone

/-! ### What a sweep is to close -/

variable {n : ℕ} {data : SocketData}

/-- Until the sweep is over. -/
def NotFinish (q : SocketQuery) : Prop := q ≠ .finish

/-- The request closes the socket. -/
def Closes (n : ℕ) (q : SocketQuery) : Prop := ∃ sockets, q = .closeAll sockets ∧ n ∈ sockets

/-- The answers while a session is gone. -/
def SessionGone (sid : JsString) : ∀ q, SocketAnswer q → Prop
  | .readSession sid', answer => sid' = sid → ∀ session, answer ≠ .found (some session)
  | _, _ => True

/-- The answers while an account may not hold a socket, if no read of an account fails. -/
def UserRevoked (id : JsString) : ∀ q, SocketAnswer q → Prop
  | .findUser id', answer => ∃ row, answer = .found row ∧ (id' = id → eligible row = none)
  | _, _ => True

theorem until_send_bind {ρ : Type} {K : ∀ q, SocketAnswer q → Prop} {post : ρ → Prop}
    {q : SocketQuery} {f : SocketAnswer q → SocketTask ρ} (hq : q ≠ .finish)
    (hf : ∀ a, K q a → (f a).Until NotFinish (Closes n) K post) :
    (send q >>= f).Until NotFinish (Closes n) K post := .inr ⟨hq, hf⟩

/-- What comes after a request that closes the socket is of no interest. -/
theorem until_close_bind {ρ : Type} {K : ∀ q, SocketAnswer q → Prop} {post : ρ → Prop}
    {group : Group} {f : Unit → SocketTask ρ} (hmem : (n, data) ∈ group) :
    (send (.closeAll (group.map (·.1))) >>= f).Until NotFinish (Closes n) K post :=
  .inl ⟨_, rfl, List.mem_map_of_mem hmem⟩

/-- The pass over the sessions closes a socket, or leaves it to the other pass when it has found the
session. -/
theorem until_sweepBySid (data : SocketData) {K : ∀ q, SocketAnswer q → Prop} {groups : Groups}
    (hg : Grouped (·.2.sid) groups) :
    (sweepBySid groups).Until NotFinish (Closes n) K fun survivors ↦
      (∃ g ∈ groups, (n, data) ∈ g.2) →
        (n, data) ∈ survivors ∧ ∃ session, K (.readSession data.sid) (.found (some session)) := by
  induction groups with
  | nil => rintro ⟨g, hg, -⟩; cases hg
  | cons g groups ih =>
    obtain ⟨sid, group⟩ := g
    have hkey : ∀ x ∈ group, x.2.sid = sid := (hg _ List.mem_cons_self).2
    have htail := ih fun g hmem ↦ hg g (List.mem_cons_of_mem _ hmem)
    -- a group that is closed is of no interest afterwards
    have hclose : (send (.closeAll (group.map (·.1))) >>= fun _ ↦ sweepBySid groups).Until
        NotFinish (Closes n) K fun survivors ↦
          (∃ g ∈ (sid, group) :: groups, (n, data) ∈ g.2) → (n, data) ∈ survivors ∧
            ∃ session, K (.readSession data.sid) (.found (some session)) := by
      by_cases hmem : (n, data) ∈ group
      · exact until_close_bind hmem
      · refine until_send_bind nofun fun _ _ ↦ htail.imp fun survivors h ↦ ?_
        rintro ⟨g, hg, hin⟩
        rcases List.mem_cons.1 hg with rfl | hg
        · exact absurd hin hmem
        · exact h ⟨g, hg, hin⟩
    unfold sweepBySid
    split
    · exact hclose
    · refine until_send_bind nofun fun answer hread ↦ ?_
      cases answer with
      | failed => exact hclose
      | found session =>
        refine until_send_bind nofun fun now _ ↦ ?_
        split
        · next hany =>
          obtain ⟨found, rfl, -⟩ := (Option.any_eq_true _ _).1 hany
          refine htail.bind fun survivors h ↦ ?_
          rintro ⟨g, hg, hin⟩
          rcases List.mem_cons.1 hg with rfl | hg
          · have hsid : data.sid = sid := hkey _ hin
            exact ⟨List.mem_append_left _ hin, found, by rwa [hsid]⟩
          · obtain ⟨hsurvives, hfound⟩ := h ⟨g, hg, hin⟩
            exact ⟨List.mem_append_right _ hsurvives, hfound⟩
        · exact hclose

/-- The pass over the accounts closes a socket if no read fails and the account is not found to be
in order. -/
theorem until_sweepByUser {K : ∀ q, SocketAnswer q → Prop} {groups : Groups}
    (hg : Grouped (·.2.systemUserId) groups) (hmem : ∃ g ∈ groups, (n, data) ∈ g.2)
    (hread : ∀ id, ¬ K (.findUser id) .failed)
    (hrow : ∀ row, K (.findUser data.systemUserId) (.found row) → eligible row = none) :
    (sweepByUser groups).Until NotFinish (Closes n) K fun _ ↦ False := by
  induction groups with
  | nil =>
    obtain ⟨g, hg, -⟩ := hmem
    cases hg
  | cons g groups ih =>
    obtain ⟨id, group⟩ := g
    have hkey : ∀ x ∈ group, x.2.systemUserId = id := (hg _ List.mem_cons_self).2
    have htail : (n, data) ∉ group →
        (sweepByUser groups).Until NotFinish (Closes n) K fun _ ↦ False := by
      intro hnot
      refine ih (fun g hmem ↦ hg g (List.mem_cons_of_mem _ hmem)) ?_
      obtain ⟨g, hg, hin⟩ := hmem
      rcases List.mem_cons.1 hg with rfl | hg
      · exact absurd hin hnot
      · exact ⟨g, hg, hin⟩
    have hclose : (send (.closeAll (group.map (·.1))) >>= fun _ ↦ sweepByUser groups).Until
        NotFinish (Closes n) K fun _ ↦ False := by
      by_cases hin : (n, data) ∈ group
      · exact until_close_bind hin
      · exact until_send_bind nofun fun _ _ ↦ htail hin
    unfold sweepByUser
    split
    · exact hclose
    · refine until_send_bind nofun fun answer hanswer ↦ ?_
      cases answer with
      | failed => exact (hread _ hanswer).elim
      | found row =>
        cases hrow' : eligible row with
        | none => simpa only [hrow'] using hclose
        | some user =>
          simp only [hrow']
          refine until_send_bind nofun fun _ _ ↦ htail fun hin ↦ ?_
          have hid : data.systemUserId = id := hkey _ hin
          rw [← hid] at hanswer
          rw [hrow row hanswer] at hrow'
          cases hrow'

/-- A sweep closes the sockets that it has found of a session that is gone. -/
theorem until_revalidate_session {sockets : Group} (hmem : (n, data) ∈ sockets) :
    (revalidate sockets).Until NotFinish (Closes n) (SessionGone data.sid) fun _ ↦ False := by
  have hpass : (sweepBySid (groupBy (·.2.sid) sockets)).Until NotFinish (Closes n)
      (SessionGone data.sid) fun _ ↦ False := by
    refine (until_sweepBySid data (grouped_groupBy _ sockets)).imp fun survivors h ↦ ?_
    obtain ⟨-, session, hfound⟩ := h (exists_mem_groupBy.2 hmem)
    exact hfound rfl session rfl
  exact hpass.bind fun _ h ↦ h.elim

/-- A sweep whose reads do not fail closes the sockets that it has found of a revoked account. -/
theorem until_revalidate_user {sockets : Group} (hmem : (n, data) ∈ sockets) :
    (revalidate sockets).Until NotFinish (Closes n) (UserRevoked data.systemUserId)
      fun _ ↦ False := by
  refine (until_sweepBySid data (grouped_groupBy _ sockets)).bind fun survivors h ↦ ?_
  refine until_sweepByUser (grouped_groupBy _ survivors)
    (exists_mem_groupBy.2 (h (exists_mem_groupBy.2 hmem)).1) ?_ ?_
  · rintro id ⟨row, hrow, -⟩
    cases hrow
  · rintro row ⟨row', hrow, hnone⟩
    cases hrow
    exact hnone rfl

/-! ### Runs in which a sweep closes sockets -/

variable {C : SocketWorld → SocketEvent → Prop} {w w' w₁ w₂ : SocketWorld} {t : ℕ}

/-- The sockets that meet `B` are still to be closed by the call, before it sends `finish`. -/
def ToBeClosed (B : SocketData → Prop) (K : ∀ q, SocketAnswer q → Prop) (t : ℕ) (w : SocketWorld) :
    Prop :=
  ∃ th, w.threads t = some th ∧ ∀ n socket, w.state.sockets n = .live socket → B socket.data →
    th.rest.Until NotFinish (Closes n) K fun _ ↦ False

theorem toBeClosed_of_run {B : SocketData → Prop} {K : ∀ q, SocketAnswer q → Prop}
    (hB : ∀ d d', d'.sid = d.sid → d'.systemUserId = d.systemUserId → B d' → B d)
    (hspares : ∀ w u data n, C w (.exchange u ⟨.connect data, n⟩) → ¬ B data)
    (hK : ∀ w q a s', C w (.exchange t ⟨q, a⟩) → SocketDoes w.state q a s' →
      ∀ n socket, w.state.sockets n = .live socket → B socket.data → K q a)
    (h₁ : ToBeClosed B K t w₁) (hw : Reach gateway C w₁ w₂) : ToBeClosed B K t w₂ := by
  refine hw.invariant h₁ fun w e w' hI hC h ↦ ?_
  obtain ⟨th, hth, hopen⟩ := hI
  cases h with
  | @start t' op ht' =>
    have hne : t ≠ t' := by
      rintro rfl
      rw [ht'] at hth
      cases hth
    exact ⟨th, (Function.update_of_ne hne ..).trans hth, hopen⟩
  | environment he => exact ⟨th, hth, fun n socket hn ↦ hopen n socket (socket_of_env he hn)⟩
  | @exchange t' op hist q k a s ht' hd =>
    -- a socket that is still there was there before, and the exchange has not closed it
    have hbefore : ∀ n socket, s.sockets n = .live socket → B socket.data → ∃ old,
        w.state.sockets n = .live old ∧ B old.data ∧ ¬ Closes n q := by
      intro n socket hn hb
      rcases socket_of_does hd hn with ⟨old, hold, hsid, hid, hnot⟩ | ⟨data, he, rfl⟩
      · exact ⟨old, hold, hB _ _ hsid hid hb, fun ⟨l, hl, hmem⟩ ↦ hnot l hl hmem⟩
      · rw [he] at hC
        exact (hspares w t' data n hC (hB _ _ rfl rfl hb)).elim
    by_cases hne : t = t'
    · subst hne
      rw [ht'] at hth
      cases hth
      refine ⟨_, Function.update_self .., fun n socket hn hb ↦ ?_⟩
      obtain ⟨old, hold, hbold, hnot⟩ := hbefore n socket hn hb
      rcases hopen n old hold hbold with hclose | ⟨-, hk⟩
      · exact (hnot hclose).elim
      · exact hk a (hK w q a s hC hd n old hold hbold)
    · refine ⟨th, (Function.update_of_ne hne ..).trans hth, fun n socket hn hb ↦ ?_⟩
      obtain ⟨old, hold, hbold, -⟩ := hbefore n socket hn hb
      exact hopen n old hold hbold

/-- When the call sends `finish`, none is left. -/
theorem none_left_of_finish {B : SocketData → Prop} {K : ∀ q, SocketAnswer q → Prop}
    (h : ToBeClosed B K t w) (hfinish : Step gateway w (.exchange t ⟨.finish, ()⟩) w') (n : ℕ)
    (socket : Socket) (hn : w'.state.sockets n = .live socket) : ¬ B socket.data := by
  intro hb
  obtain ⟨th, hth, hopen⟩ := h
  cases hfinish with
  | exchange ht hd =>
    cases hd
    rw [ht] at hth
    cases hth
    rcases hopen n socket hn hb with ⟨l, hl, -⟩ | ⟨hnot, -⟩
    · cases hl
    · exact hnot rfl

/-! ### What a role is given for -/

/-- When a call sends a request: a sweep begins once, and a role is given as it was just read. -/
def AskedAfter (h : List SocketExchange) : SocketQuery → Prop
  | .begin => h = []
  | .connect data => ∃ h' row user, h = h' ++ [⟨.findUser data.systemUserId, .found row⟩] ∧
      eligible row = some user ∧ user.role = data.role
  | .applyRole group role => ∃ h' id row user, h = h' ++ [⟨.findUser id, .found row⟩] ∧
      eligible row = some user ∧ user.role = role ∧ ∃ sockets,
        (⟨.begin, some sockets⟩ : SocketExchange) ∈ h ∧
        ∀ n ∈ group, ∃ data, (n, data) ∈ sockets ∧ data.systemUserId = id
  | _ => True

/-- The task sends its requests so, and ends with `post`. -/
abbrev Asking {ρ : Type} (p : SocketTask ρ) (post : List SocketExchange → ρ → Prop)
    (h : List SocketExchange) : Prop :=
  p.AsksAfter AskedAfter post h

theorem asking_send_bind {ρ : Type} {post : List SocketExchange → ρ → Prop} {q : SocketQuery}
    {f : SocketAnswer q → SocketTask ρ} {h : List SocketExchange} (hq : AskedAfter h q)
    (hf : ∀ a, Asking (f a) post (h ++ [⟨q, a⟩])) : Asking (send q >>= f) post h := ⟨hq, hf⟩

theorem asking_sweepByUser {sockets : Group} {groups : Groups} {h : List SocketExchange}
    (hg : Grouped (·.2.systemUserId) groups) (hin : ∀ g ∈ groups, ∀ x ∈ g.2, x ∈ sockets)
    (hbegin : (⟨.begin, some sockets⟩ : SocketExchange) ∈ h) :
    Asking (sweepByUser groups) (fun _ _ ↦ True) h := by
  induction groups generalizing h with
  | nil => trivial
  | cons g groups ih =>
    obtain ⟨id, group⟩ := g
    have hkey : ∀ x ∈ group, x.2.systemUserId = id := (hg _ List.mem_cons_self).2
    have htail : ∀ {h}, (⟨.begin, some sockets⟩ : SocketExchange) ∈ h →
        Asking (sweepByUser groups) (fun _ _ ↦ True) h :=
      ih (fun g hmem ↦ hg g (List.mem_cons_of_mem _ hmem))
        fun g hmem ↦ hin g (List.mem_cons_of_mem _ hmem)
    unfold sweepByUser
    split
    · exact asking_send_bind trivial fun _ ↦ htail (List.mem_append_left _ hbegin)
    · refine asking_send_bind trivial fun answer ↦ ?_
      have hbegin' := List.mem_append_left [(⟨.findUser id, answer⟩ : SocketExchange)] hbegin
      cases answer with
      | failed => trivial
      | found row =>
        cases hrow : eligible row with
        | none =>
          simp only [hrow]
          exact asking_send_bind trivial fun _ ↦ htail (List.mem_append_left _ hbegin')
        | some user =>
          simp only [hrow]
          refine asking_send_bind ⟨h, id, row, user, rfl, hrow, rfl, sockets, hbegin', ?_⟩
            fun _ ↦ htail (List.mem_append_left _ hbegin')
          intro n hn
          obtain ⟨x, hx, rfl⟩ := List.mem_map.1 hn
          exact ⟨x.2, hin _ List.mem_cons_self x hx, hkey x hx⟩

/-- The pass over the sessions leaves nothing that it was not given. -/
theorem asking_sweepBySid {groups : Groups} {h : List SocketExchange} {e : SocketExchange}
    (he : e ∈ h) : Asking (sweepBySid groups)
      (fun h' survivors ↦ e ∈ h' ∧ ∀ x ∈ survivors, ∃ g ∈ groups, x ∈ g.2) h := by
  induction groups generalizing h with
  | nil => exact ⟨he, fun x hx ↦ (List.not_mem_nil hx).elim⟩
  | cons g groups ih =>
    obtain ⟨sid, group⟩ := g
    have hclose : ∀ {h}, e ∈ h → Asking (send (.closeAll (group.map (·.1))) >>= fun _ ↦
        sweepBySid groups) (fun h' survivors ↦ e ∈ h' ∧
          ∀ x ∈ survivors, ∃ g ∈ (sid, group) :: groups, x ∈ g.2) h := by
      intro h he
      refine asking_send_bind trivial fun _ ↦ (ih (List.mem_append_left _ he)).imp ?_
      rintro h' survivors ⟨he', hsub⟩
      refine ⟨he', fun x hx ↦ ?_⟩
      obtain ⟨g, hg, hxg⟩ := hsub x hx
      exact ⟨g, List.mem_cons_of_mem _ hg, hxg⟩
    unfold sweepBySid
    split
    · exact hclose he
    · refine asking_send_bind trivial fun answer ↦ ?_
      have he₁ := List.mem_append_left [(⟨.readSession sid, answer⟩ : SocketExchange)] he
      cases answer with
      | failed => exact hclose he₁
      | found session =>
        refine asking_send_bind trivial fun now ↦ ?_
        have he₂ := List.mem_append_left [(⟨.now, now⟩ : SocketExchange)] he₁
        split
        · refine (ih he₂).bind fun h' survivors ⟨he', hsub⟩ ↦ ⟨he', fun x hx ↦ ?_⟩
          rcases List.mem_append.1 hx with hx | hx
          · exact ⟨_, List.mem_cons_self, hx⟩
          · obtain ⟨g, hg, hxg⟩ := hsub x hx
            exact ⟨g, List.mem_cons_of_mem _ hg, hxg⟩
        · exact hclose he₂

theorem asking_revalidate {sockets : Group} {h : List SocketExchange}
    (hbegin : (⟨.begin, some sockets⟩ : SocketExchange) ∈ h) :
    Asking (revalidate sockets) (fun _ _ ↦ True) h := by
  refine (asking_sweepBySid hbegin).bind fun h' survivors ⟨hbegin', hsub⟩ ↦ ?_
  refine asking_sweepByUser (grouped_groupBy _ survivors) (fun g hg x hx ↦ ?_) hbegin'
  exact exists_mem_groupBy.1 (hsub x (exists_mem_groupBy.1 ⟨g, hg, hx⟩))

theorem asking_handshake (sid : JsString) (h : List SocketExchange) :
    Asking (handshake sid) (fun _ _ ↦ True) h := by
  refine asking_send_bind trivial fun answer ↦ ?_
  cases answer with
  | failed => trivial
  | found session =>
    cases session with
    | none => trivial
    | some session =>
      simp only
      split
      · trivial
      · refine asking_send_bind trivial fun now ↦ ?_
        split
        · trivial
        · refine asking_send_bind trivial fun answer ↦ ?_
          cases answer with
          | failed => trivial
          | found row =>
            cases hrow : resolveSystemUser row with
            | none =>
              simp only [hrow]
              trivial
            | some user =>
              simp only [hrow]
              split
              · next heligible =>
                refine asking_send_bind ⟨_, row, user, rfl, ?_, rfl⟩ fun _ ↦ trivial
                rw [eligible, hrow, Option.filter_some, if_pos heligible]
              · trivial

theorem asking_task (call : SocketCall) : Asking call.task (fun _ _ ↦ True) [] := by
  cases call with
  | handshake sid => exact (asking_handshake sid []).bind fun _ _ _ ↦ trivial
  | sweep =>
    have hsweep : Asking sweep (fun _ _ ↦ True) [] := by
      refine asking_send_bind rfl fun answer ↦ ?_
      cases answer with
      | none => trivial
      | some sockets =>
        exact (asking_revalidate List.mem_cons_self).bind fun _ _ _ ↦
          asking_send_bind trivial fun _ ↦ trivial
    exact hsweep.bind fun _ _ _ ↦ trivial

/-! ### Rooms -/

/-- What a sweep has found of a socket that is still there. -/
def SnapshotRight (w : SocketWorld) : Prop :=
  ∀ t th sockets n data, w.threads t = some th →
    (⟨.begin, some sockets⟩ : SocketExchange) ∈ th.history → (n, data) ∈ sockets →
    w.state.sockets n ≠ .unused ∧
      ∀ socket, w.state.sockets n = .live socket → socket.data.systemUserId = data.systemUserId

theorem used_of_does {q : SocketQuery} {a : SocketAnswer q} (hd : SocketDoes s q a s') {n : ℕ}
    (hn : s.sockets n ≠ .unused) : s'.sockets n ≠ .unused := by
  cases hd with
  | connect data n' h =>
    have hne : n ≠ n' := by
      rintro rfl
      exact hn h
    simpa only [SocketState.connect, Function.update_of_ne hne] using hn
  | closeAll sockets =>
    simp only [SocketState.closeAll]
    split
    · exact nofun
    · exact hn
  | applyRole sockets role =>
    simp only [SocketState.applyRole]
    split
    · exact nofun
    · exact hn
  | _ => exact hn

theorem used_of_env (he : SocketEnv s s') {n : ℕ} (hn : s.sockets n ≠ .unused) :
    s'.sockets n ≠ .unused := by
  cases he with
  | leave n' =>
    by_cases h : n = n'
    · subst h
      simp [Function.update_self]
    · simpa only [Function.update_of_ne h] using hn
  | _ => exact hn

theorem snapshotRight_of_reach (hw : Reach gateway C (.init .init) w) : SnapshotRight w := by
  refine hw.invariant (I := SnapshotRight) ?_ fun w e w' hI _ h ↦ ?_
  · intro t th _ _ _ hth
    cases hth
  intro t th sockets n data hth hbegin hmem
  cases h with
  | @start t' op ht' =>
    by_cases ht : t = t'
    · subst ht
      dsimp only at hth
      rw [Function.update_self] at hth
      cases hth
      cases hbegin
    · exact hI t th sockets n data ((Function.update_of_ne ht ..).symm.trans hth) hbegin hmem
  | environment he =>
    obtain ⟨hused, hsame⟩ := hI t th sockets n data hth hbegin hmem
    exact ⟨used_of_env he hused, fun socket hn ↦ hsame socket (socket_of_env he hn)⟩
  | @exchange t' op hist q k a s ht' hd =>
    -- a socket found before is the same socket, as no number is given twice
    have hkept : w.state.sockets n ≠ .unused ∧ (∀ socket, w.state.sockets n = .live socket →
        socket.data.systemUserId = data.systemUserId) → s.sockets n ≠ .unused ∧
        ∀ socket, s.sockets n = .live socket →
          socket.data.systemUserId = data.systemUserId := by
      rintro ⟨hused, hsame⟩
      refine ⟨used_of_does hd hused, fun socket hn ↦ ?_⟩
      rcases socket_of_does hd hn with ⟨old, hold, -, hid, -⟩ | ⟨data', he, -⟩
      · rw [hid]
        exact hsame old hold
      · obtain ⟨rfl, ha⟩ := Sigma.mk.inj_iff.1 he
        obtain rfl := eq_of_heq ha
        cases hd with
        | connect _ _ hfree => exact (hused hfree).elim
    by_cases ht : t = t'
    · subst ht
      dsimp only at hth
      rw [Function.update_self] at hth
      cases hth
      rcases List.mem_append.1 hbegin with hbegin | hbegin
      · exact hkept (hI t _ sockets n data ht' hbegin hmem)
      · have he := List.mem_singleton.1 hbegin
        obtain ⟨rfl, ha⟩ := Sigma.mk.inj_iff.1 he
        obtain rfl := eq_of_heq ha
        cases hd with
        | begin _ _ _ hall =>
          have hfound := (hall n data).1 hmem
          obtain ⟨socket, hget, hdata⟩ := Option.map_eq_some_iff.1 hfound
          have hlive := Slot.get_eq_some.1 hget
          refine ⟨by rw [hlive]; exact nofun, fun socket' hn ↦ ?_⟩
          rw [hlive] at hn
          obtain rfl := Slot.live.inj hn
          rw [hdata]
    · have hth' := (Function.update_of_ne ht ..).symm.trans hth
      exact hkept (hI t th sockets n data hth' hbegin hmem)

/-- A role is given as it was read. -/
theorem givenAsRead_of_step (hw : Reach gateway C (.init .init) w) {e : SocketEvent}
    (h : Step gateway w e w') : GivenAsRead w w' e := by
  cases h with
  | start => trivial
  | environment => trivial
  | @exchange t op hist q k a s ht hd =>
    intro n role socket hgiven hn
    have hasked : AskedAfter hist q := (hw.asksAfter asking_task ht).1
    cases hd with
    | connect data n' hfree =>
      simp only [roleGiven] at hgiven
      split at hgiven
      · next hnn =>
        subst hnn
        obtain rfl := Option.some.inj hgiven
        obtain ⟨h, row, user, rfl, hrow, hrole⟩ := hasked
        simp only [SocketState.connect, Function.update_self, Slot.live.injEq] at hn
        subst hn
        exact ⟨_, h, row, user, ht, rfl, hrow, hrole⟩
      · cases hgiven
    | applyRole group role' =>
      simp only [roleGiven] at hgiven
      split at hgiven
      · next hmem =>
        obtain rfl := Option.some.inj hgiven
        obtain ⟨h, id, row, user, rfl, hrow, hrole, sockets, hbegin, hgroup⟩ := hasked
        obtain ⟨data, hfound, rfl⟩ := hgroup n hmem
        have hsame := (snapshotRight_of_reach hw t _ sockets n data ht hbegin hfound).2
        rcases socket_of_does (.applyRole w.state group role') hn with
          ⟨old, hold, -, hid, -⟩ | hconnect
        · rw [hid, hsame old hold]
          exact ⟨_, h, row, user, ht, rfl, hrow, hrole⟩
        · obtain ⟨_, he, -⟩ := hconnect
          cases he
      · cases hgiven
    | _ => cases hgiven

/-- In every run, a socket is in the room if and only if its last role is that of a super admin. -/
theorem roomsRight_of_reach (hw : Reach gateway C (.init .init) w) : RoomsRight w := by
  have hinv : ∀ n socket, w.state.sockets n = .live socket →
      lastRole n w.log = some socket.data.role ∧
        socket.inSuperRoom = decide (socket.data.role = .superAdmin) := by
    refine hw.invariant (I := fun w ↦ ∀ n socket, w.state.sockets n = .live socket →
      lastRole n w.log = some socket.data.role ∧
        socket.inSuperRoom = decide (socket.data.role = .superAdmin)) ?_ ?_
    · intro n socket hn
      cases hn
    intro w e w' hI _ h n socket hn
    cases h with
    | start => exact hI n socket hn
    | environment he => exact hI n socket (socket_of_env he hn)
    | @exchange t op hist q k a s ht hd =>
      dsimp only [lastRole]
      cases hd with
      | connect data n' hfree =>
        by_cases he : n' = n
        · subst he
          simp only [SocketState.connect, Function.update_self, Slot.live.injEq] at hn
          subst hn
          exact ⟨by simp [roleGiven, applyRoleRoom], rfl⟩
        · simp only [SocketState.connect, Function.update_of_ne (Ne.symm he)] at hn
          simpa [roleGiven, he] using hI n socket hn
      | closeAll sockets =>
        simp only [SocketState.closeAll] at hn
        split at hn
        · cases hn
        · simpa [roleGiven] using hI n socket hn
      | applyRole sockets role =>
        simp only [SocketState.applyRole] at hn
        split at hn
        · next old hold =>
          obtain rfl := Slot.live.inj hn
          by_cases hmem : n ∈ sockets
          · rw [if_pos hmem]
            exact ⟨by simp [roleGiven, hmem, applyRoleRoom], rfl⟩
          · rw [if_neg hmem]
            simpa [roleGiven, hmem] using hI n old hold
        · next hnot => exact (hnot socket hn).elim
      | _ => simpa [roleGiven] using hI n socket hn
  intro n socket hn
  obtain ⟨hlast, hroom⟩ := hinv n socket hn
  rw [hlast, hroom, decide_eq_true_iff, Option.some.injEq]

/-! ### The main result -/

/-- What a sweep is about to do when it has begun. -/
theorem revalidate_of_begin (hw : Reach gateway C (.init .init) w) {sockets : Group}
    (h : Step gateway w (.exchange t ⟨.begin, some sockets⟩) w') :
    (∃ op hist f, w'.threads t = some ⟨op, hist, revalidate sockets >>= f⟩) ∧
      ∀ n socket, w'.state.sockets n = .live socket → (n, socket.data) ∈ sockets := by
  cases h with
  | @exchange _ op hist _ k _ s ht hd =>
    have hempty : hist = [] := (hw.asksAfter asking_task ht).1
    have hp := hw.path ht
    subst hempty
    refine ⟨⟨op, [⟨.begin, some sockets⟩], ?_⟩, fun n socket hn ↦ ?_⟩
    · cases op with
      | handshake sid => cases hp
      | sweep =>
        cases hp
        refine ⟨fun _ ↦ send .finish >>= fun _ ↦ .done (.inr ()), ?_⟩
        dsimp only
        rw [Function.update_self, ← Task.bind_assoc]
        rfl
    · cases hd with
      | begin _ _ _ hall => exact (hall n socket.data).2 (by rw [hn]; rfl)

/-- **A sweep closes what was revoked before it began**: the sockets of a session, if none connects
meanwhile, and those of an account, if moreover no read of an account fails as long as one is open.
In every run, a socket is in the room of the super admins if and only if the role last read for it
says so. -/
theorem sweep_closes (hw : Reach gateway (fun _ _ ↦ True) (.init .init) w) :
    RoomsRight w ∧ (∀ e w', Step gateway w e w' → GivenAsRead w w' e) ∧
      ∀ w₁ w₂ w₃ t sockets, Step gateway w (.exchange t ⟨.begin, some sockets⟩) w₁ →
        Step gateway w₂ (.exchange t ⟨.finish, ()⟩) w₃ →
        (∀ sid, w₁.state.sessions sid = .gone →
          Reach gateway (fun _ e ↦ SparesSession sid e) w₁ w₂ →
          ∀ n socket, w₃.state.sockets n = .live socket → socket.data.sid ≠ sid) ∧
        ∀ id, Reach gateway (fun w e ↦
            eligible (w.state.users id) = none ∧ SparesUser t id w e) w₁ w₂ →
          ∀ n socket, w₃.state.sockets n = .live socket → socket.data.systemUserId ≠ id := by
  refine ⟨roomsRight_of_reach hw, fun e w' h ↦ givenAsRead_of_step hw h,
    fun w₁ w₂ w₃ t sockets hbegin hfinish ↦ ?_⟩
  obtain ⟨⟨op, hist, f, hth⟩, hall⟩ := revalidate_of_begin hw hbegin
  refine ⟨fun sid hgone hrun n socket hn ↦ ?_, fun id hrun n socket hn ↦ ?_⟩
  · have hrun' := hrun.and (I := fun w ↦ w.state.sessions sid = .gone) hgone
      fun w e w' hgone _ h ↦ gone_of_step h hgone
    refine none_left_of_finish (B := fun d ↦ d.sid = sid) (K := SessionGone sid) ?_ hfinish n
      socket hn
    refine toBeClosed_of_run (fun d d' hsid _ hb ↦ hsid ▸ hb) (fun w u data n hC ↦ hC.1) ?_
      ⟨_, hth, fun n socket hn hsid ↦ ?_⟩ hrun'
    · intro w q a s' hC hd _ _ _ _
      cases hd with
      | readSession sid' =>
        intro hsid session hfound
        rw [hsid, hC.2] at hfound
        cases hfound
      | readSessionFailed sid' => exact fun _ _ ↦ nofun
      | _ => trivial
    · obtain rfl := hsid
      exact (until_revalidate_session (hall n socket hn)).bind fun _ h ↦ h.elim
  · refine none_left_of_finish (B := fun d ↦ d.systemUserId = id) (K := UserRevoked id) ?_ hfinish n
      socket hn
    refine toBeClosed_of_run (fun d d' _ hid hb ↦ hid ▸ hb) (fun w u data n hC ↦ hC.2) ?_
      ⟨_, hth, fun n socket hn hid ↦ ?_⟩ hrun
    · intro w q a s' hC hd n socket hn hb
      cases hd with
      | findUser id' => exact ⟨_, rfl, fun hid ↦ hid ▸ hC.1⟩
      | findUserFailed id' => exact (hC.2 rfl n socket hn hb).elim
      | _ => trivial
    · obtain rfl := hid
      exact (until_revalidate_user (hall n socket hn)).bind fun _ h ↦ h.elim

private def adminRow : SystemUser := ⟨.admin, false, true, none⟩

/-- The row of an administrator who is suspended. -/
private def suspendedRow : SystemUser := { adminRow with isActive := false }

/-- Two administrators with a session each. -/
private def signedIn : SocketState where
  clock := 0
  sessions := Function.update (Function.update (fun _ ↦ .unused) [1] (.live ⟨[2], 0⟩)) [4]
    (.live ⟨[3], 0⟩)
  users := Function.update (Function.update (fun _ ↦ none) [2] (some adminRow)) [3] (some adminRow)
  sockets := fun _ ↦ .unused
  sweeping := false

private def connectedSockets : Group := [(0, ⟨[2], [1], .admin⟩), (1, ⟨[3], [4], .admin⟩)]

/-- Both have a socket. -/
private def bothConnected : SocketState :=
  (signedIn.connect 0 ⟨[2], [1], .admin⟩).connect 1 ⟨[3], [4], .admin⟩

private theorem mem_connectedSockets (n : ℕ) (data : SocketData) :
    (n, data) ∈ connectedSockets ↔ (bothConnected.sockets n).get.map (·.data) = some data := by
  by_cases h1 : n = 1
  · subst h1
    simp [connectedSockets, bothConnected, SocketState.connect, Slot.get, applyRoleRoom, eq_comm]
  · by_cases h0 : n = 0
    · subst h0
      simp [connectedSockets, bothConnected, SocketState.connect, Slot.get, applyRoleRoom, eq_comm]
    · simp [connectedSockets, bothConnected, SocketState.connect, signedIn, Slot.get, h0, h1]

private theorem handshake_runs (s : SocketState) (n id sid : ℕ) (hclock : s.clock = 0)
    (hsid : s.sessions [sid] = .live ⟨[id], 0⟩) (hrow : s.users [id] = some adminRow)
    (hn : s.sockets n = .unused) :
    Runs gateway.does s (gateway.task (.handshake [sid]))
      [⟨.readSession [sid], .found (some ⟨[id], 0⟩)⟩, ⟨.now, 0⟩,
        ⟨.findUser [id], .found (some adminRow)⟩, ⟨.connect ⟨[id], [sid], .admin⟩, n⟩]
      (.inl (.ok n)) (s.connect n ⟨[id], [sid], .admin⟩) := by
  have hread := SocketDoes.readSession s [sid]
  have hnow := SocketDoes.now s
  have hfind := SocketDoes.findUser s [id]
  rw [hsid] at hread
  rw [hclock] at hnow
  rw [hrow] at hfind
  exact .ask hread (.ask hnow (.ask hfind (.ask (.connect s _ n hn) (.refl _ _))))

private theorem reach_bothConnected : ∃ threads log, threads 2 = none ∧
    Reach gateway (fun _ _ ↦ True) (.init .init) ⟨bothConnected, threads, log⟩ := by
  have hinit : Reach gateway (fun _ _ ↦ True) (.init .init) (.init .init) := .init
  have hfirst := hinit.step trivial (.environment (.login _ [1] ⟨[2], 0⟩ rfl))
  have hsecond := hfirst.step trivial (.environment (.login _ [4] ⟨[3], 0⟩ rfl))
  have hrow := hsecond.step trivial (.environment (.write _ [2] (some adminRow)))
  have hsigned := hrow.step trivial (.environment (.write _ [3] (some adminRow)))
  have hone := hsigned.call 0 _ rfl (handshake_runs signedIn 0 2 1 rfl
    rfl rfl rfl) (fun _ ↦ trivial) fun _ _ _ ↦ trivial
  have hboth := hone.call 1 _ rfl (handshake_runs _ 1 3 4 rfl rfl rfl
    rfl) (fun _ ↦ trivial) fun _ _ _ ↦ trivial
  exact ⟨_, _, rfl, hboth⟩

/-- What the sweep of the sockets does once it has begun. -/
private def begun : SocketTask SocketResult :=
  (revalidate connectedSockets >>= fun _ ↦ send .finish) >>= fun _ ↦ .done (.inr ())

private def begunThread : Thread SocketQuery SocketAnswer SocketResult SocketCall :=
  ⟨.sweep, [⟨.begin, some connectedSockets⟩], begun⟩

private theorem reach_begun {s : SocketState} {threads log} (hfree : threads 2 = none)
    (hs : s.sockets = bothConnected.sockets) (hsweeping : s.sweeping = false)
    (hw : Reach gateway (fun _ _ ↦ True) (.init .init) ⟨s, threads, log⟩) : ∃ w₀ threads log,
    Reach gateway (fun _ _ ↦ True) (.init .init) w₀ ∧
      Step gateway w₀ (.exchange 2 ⟨.begin, some connectedSockets⟩)
        ⟨{ s with sweeping := true }, Function.update threads 2 (some begunThread), log⟩ := by
  have hstart := hw.step (e := .start 2 .sweep) trivial (.start hfree)
  have hbegin := Step.exchange (M := gateway) (w := ⟨s, Function.update threads 2
    (some ⟨.sweep, [], SocketCall.sweep.task⟩), .start 2 .sweep :: log⟩)
    (Function.update_self ..)
    (SocketDoes.begin s connectedSockets hsweeping nofun (hs ▸ mem_connectedSockets))
  exact ⟨_, _, _, hstart, hbegin⟩

/-- From then on the sweep runs alone, so that the accounts are as they were. -/
private theorem reach_swept {s s' : SocketState} (threads log) {h p}
    {P : SocketEvent → Prop} (hrow : s.users [3] = some suspendedRow)
    (hr : Steps SocketDoes s begun h p s') (hP : ∀ e ∈ h, P (.exchange 2 e)) :
    Reach gateway (fun w e ↦ P e ∧ eligible (w.state.users [3]) = none)
      ⟨s, Function.update threads 2 (some begunThread), log⟩
      ⟨s', Function.update threads 2
        (some ⟨.sweep, [⟨.begin, some connectedSockets⟩] ++ h, p⟩),
        (h.map (.exchange 2)).reverse ++ log⟩ := by
  have hrun : Reach gateway (fun _ e ↦ P e ∧ e ≠ .environment) _ _ :=
    .steps hr (fun _ e he ↦ ⟨hP e he, nofun⟩) (@Reach.init _ _ _ _ _ _ _
      ⟨_, Function.update threads 2 (some begunThread), log⟩)
  have hkept := hrun.and (I := fun w ↦ w.state.users [3] = some suspendedRow) hrow ?_
  · refine hkept.imp fun w e h ↦ ⟨h.1.1, ?_⟩
    rw [h.2]
    rfl
  · intro w e w' hI hC h
    cases h with
    | start => exact hI
    | exchange _ hd => cases hd <;> exact hI
    | environment => exact (hC.2 rfl).elim

/-- The session of the one is gone, the account of the other is suspended, and a sweep has begun. -/
private def bothRevoked : SocketState :=
  { bothConnected with
    sessions := Function.update bothConnected.sessions [1] .gone
    users := Function.update bothConnected.users [3] (some suspendedRow)
    sweeping := true }

/-- Before the end of the sweep. -/
private def beforeFinish : SocketTask SocketResult := send .finish >>= fun _ ↦ .done (.inr ())

private theorem begun_runs_bothRevoked : Steps SocketDoes bothRevoked begun
    [⟨.readSession [1], .found none⟩, ⟨.now, 0⟩, ⟨.closeAll [0], ()⟩,
      ⟨.readSession [4], .found (some ⟨[3], 0⟩)⟩, ⟨.now, 0⟩,
      ⟨.findUser [3], .found (some suspendedRow)⟩, ⟨.closeAll [1], ()⟩] beforeFinish
    ((bothRevoked.closeAll [0]).closeAll [1]) :=
  .ask (.readSession _ [1]) (.ask (.now _) (.ask (.closeAll _ [0]) (.ask (.readSession _ [4])
    (.ask (.now _) (.ask (.findUser _ [3]) (.ask (.closeAll _ [1]) (.refl _ _)))))))

private theorem finish_beforeFinish (s : SocketState) (threads h log) : ∃ w₃ : SocketWorld,
    w₃.state.sockets = s.sockets ∧
      Step gateway ⟨s, Function.update threads 2 (some ⟨.sweep, h, beforeFinish⟩), log⟩
        (.exchange 2 ⟨.finish, ()⟩) w₃ := by
  have ht : Function.update threads 2 (some ⟨.sweep, h, beforeFinish⟩) 2 =
    some (⟨.sweep, h, beforeFinish⟩ : Thread SocketQuery SocketAnswer SocketResult SocketCall) :=
    Function.update_self ..
  exact ⟨_, rfl, .exchange ht (SocketDoes.finish s)⟩

/-- The session of the one is destroyed and the account of the other suspended: a sweep that starts
then closes both sockets. -/
theorem sweep_closes_both : ∃ w₀ w₁ w₂ w₃, Reach gateway (fun _ _ ↦ True) (.init .init) w₀ ∧
    Step gateway w₀ (.exchange 2 ⟨.begin, some connectedSockets⟩) w₁ ∧
    w₁.state.sockets = bothConnected.sockets ∧
    Reach gateway (fun w e ↦ (SparesSession [1] e ∧ ∀ w, SparesUser 2 [3] w e) ∧
      eligible (w.state.users [3]) = none) w₁ w₂ ∧
    Step gateway w₂ (.exchange 2 ⟨.finish, ()⟩) w₃ ∧
    (∀ n socket, w₃.state.sockets n = .live socket → socket.data.sid ≠ [1]) ∧
    ∀ n socket, w₃.state.sockets n = .live socket → socket.data.systemUserId ≠ [3] := by
  obtain ⟨threads, log, hfree, hboth⟩ := reach_bothConnected
  have hgone := hboth.step trivial (.environment (.destroy _ [1]))
  have hsuspended := hgone.step trivial (.environment (.write _ [3] (some suspendedRow)))
  obtain ⟨w₀, threads, log, hw₀, hbegin⟩ :=
    reach_begun (s := { bothRevoked with sweeping := false }) hfree rfl rfl hsuspended
  have hrun := reach_swept threads log
    (P := fun e ↦ SparesSession [1] e ∧ ∀ w, SparesUser 2 [3] w e) rfl begun_runs_bothRevoked
    (by simp [SparesSession, SparesUser])
  obtain ⟨w₃, hsockets, hfinish⟩ := finish_beforeFinish _ _ _ _
  obtain ⟨hsession, huser⟩ := (sweep_closes hw₀).2.2 _ _ _ _ _ hbegin hfinish
  exact ⟨w₀, _, _, w₃, hw₀, hbegin, rfl, hrun, hfinish,
    hsession [1] rfl (hrun.imp fun _ _ h ↦ h.1.1),
    huser [3] (hrun.imp fun w _ h ↦ ⟨h.2, h.1.2 w⟩)⟩

/-! ### A socket that is left open -/

/-- The account of the one is suspended, and a sweep has begun. -/
private def oneRevoked : SocketState :=
  { bothConnected with
    users := Function.update bothConnected.users [3] (some suspendedRow)
    sweeping := true }

private theorem begun_runs_oneRevoked : Steps SocketDoes oneRevoked begun
    [⟨.readSession [1], .found (some ⟨[2], 0⟩)⟩, ⟨.now, 0⟩,
      ⟨.readSession [4], .found (some ⟨[3], 0⟩)⟩, ⟨.now, 0⟩, ⟨.findUser [2], .failed⟩] beforeFinish
    oneRevoked :=
  .ask (.readSession _ [1]) (.ask (.now _) (.ask (.readSession _ [4]) (.ask (.now _)
    (.ask (.findUserFailed _ [2]) (.refl _ _)))))

/-- An account is suspended before a sweep begins, and stays so. The read of another account fails
in the sweep, which ends and leaves the socket of the suspended account open. -/
theorem sweep_leaves_open : ∃ w₀ w₁ w₂ w₃, Reach gateway (fun _ _ ↦ True) (.init .init) w₀ ∧
    Step gateway w₀ (.exchange 2 ⟨.begin, some connectedSockets⟩) w₁ ∧
    Reach gateway (fun w e ↦ (∀ data n, e ≠ .exchange 2 ⟨.connect data, n⟩) ∧
      eligible (w.state.users [3]) = none) w₁ w₂ ∧
    Step gateway w₂ (.exchange 2 ⟨.finish, ()⟩) w₃ ∧
    ∃ socket, w₃.state.sockets 1 = .live socket ∧ socket.data.systemUserId = [3] := by
  obtain ⟨threads, log, hfree, hboth⟩ := reach_bothConnected
  have hsuspended := hboth.step trivial (.environment (.write _ [3] (some suspendedRow)))
  obtain ⟨w₀, threads, log, hw₀, hbegin⟩ :=
    reach_begun (s := { oneRevoked with sweeping := false }) hfree rfl rfl hsuspended
  have hrun := reach_swept threads log
    (P := fun e ↦ ∀ data n, e ≠ .exchange 2 ⟨.connect data, n⟩) rfl begun_runs_oneRevoked
    (by simp)
  obtain ⟨w₃, hsockets, hfinish⟩ := finish_beforeFinish _ _ _ _
  exact ⟨w₀, _, _, w₃, hw₀, hbegin, hrun, hfinish, _, congrFun hsockets 1, rfl⟩

end EasyBook.Realtime

import EasyBook.Directory.Rules

/-!
# Access decisions under concurrency

An administrator decides who may use the system; the user's own calls only ever ask. `register` and
`updateRegistration` look at the access in one statement and write `PENDING` in a later one, by id
alone, so a decision committed in between is overwritten. `staleRun` exhibits it. As long as the
access at the write is still the one that the call has read, or `PENDING`, its own check is enough:
decisions stand, and the columns that go with access agree with it in every committed state.
-/

namespace EasyBook.Directory

open ReadCommitted ReadCommitted.Prog

/-- A decision that the user may not undo. -/
def Decided (a : AppAccess) : Prop := a = .allowed ∨ a = .blocked

instance : DecidablePred Decided := fun _ ↦ inferInstanceAs (Decidable (_ ∨ _))

/-- The columns that go with access agree with it. -/
def Coupled (r : LineUser) : Prop :=
  (r.rejectionReason ≠ none → r.access = .rejected) ∧ (r.blockReason ≠ none → r.access = .blocked) ∧
    (r.richMenuType = .type2 ↔ r.access = .allowed)

instance : DecidablePred Coupled := fun _ ↦ inferInstanceAs (Decidable (_ ∧ _))

/-- The undeleted user of a subject, as a view shows it. -/
def activeLineUser (d : View) (lineUserId : JsString) : Option LineUser :=
  (d.all .lineUser).find? fun r ↦
    decide (LineUser.lineUserId r = lineUserId) && r.deletedAt.isNone

/-- The calls by which administrators decide. -/
def Op.decides : Op → Prop
  | .updateAccess .. => True
  | _ => False

/-- The subject whose access a call judges before it writes `PENDING`. -/
def Op.judges : Op → Option JsString
  | .register lineUserId _ => some lineUserId
  | .updateRegistration lineUserId _ => some lineUserId
  | _ => none

/-- The row has the access that the first query of the call has found, if it found the user, or is
`PENDING` already. -/
def Op.AccessAsRead (op : Op) (reads : List View) (r : LineUser) : Prop :=
  ∀ s ∈ op.judges, ∀ d ∈ reads.getLast?, ∀ user ∈ activeLineUser d s,
    r.access = user.access ∨ r.access = .pending

instance (op : Op) (reads : List View) (r : LineUser) : Decidable (op.AccessAsRead reads r) :=
  inferInstanceAs (Decidable (∀ s ∈ op.judges, ∀ d ∈ reads.getLast?,
    ∀ user ∈ activeLineUser d s, r.access = user.access ∨ r.access = .pending))

/-- A user's call writes a row on which nobody has decided since the call read it. -/
def FreshAccess (calls : ℕ → Op) (t : ℕ) (reads : List View) (σ : Store Row) :
    ∀ τ, (Row τ → Option (Option (Row τ))) → Prop
  | .lineUser, ch => ∀ i ∈ List.range σ.next, ∀ r ∈ (σ.cell .lineUser i).seen (some t),
      (ch r).isSome → (calls t).AccessAsRead reads r
  | _, _ => True

instance (calls : ℕ → Op) (t : ℕ) (reads : List View) (σ : Store Row) (τ : Tab)
    (ch : Row τ → Option (Option (Row τ))) : Decidable (FreshAccess calls t reads σ τ ch) := by
  unfold FreshAccess
  induction τ using Tab.casesOn <;> infer_instance

/-- A step of a run of `calls` in which nobody decides between the check of a user's call and its
write. -/
def AccessStep (calls : ℕ → Op) (w : DirectoryWorld) (e : DirectoryEvent) : Prop :=
  e.CalledAs calls ∧ Granted (FreshAccess calls) w e

instance (calls : ℕ → Op) (w : DirectoryWorld) (e : DirectoryEvent) :
    Decidable (AccessStep calls w e) :=
  inferInstanceAs (Decidable (_ ∧ _))

/-! ### The law -/

/-- Rows of LINE users stay coupled, and only an administrator moves them off a decision. -/
def accessLaw (calls : ℕ → Op) : Law Row where
  good
    | .lineUser => fun i r ↦ LineUser.id r = i ∧ Coupled r
    | _ => fun _ _ ↦ True
  may t
    | .lineUser => fun i old new ↦ ∃ r', new = some r' ∧ LineUser.id r' = i ∧ Coupled r' ∧
        (¬ (calls t).decides → ∀ r, old = some r → Decided (LineUser.access r) →
          r'.access = r.access)
    | _ => fun _ _ _ ↦ True
  keeps {t τ i x r} _ h := by
    cases τ with
    | lineUser =>
      obtain ⟨r', hr', hid, hc, _⟩ := h
      exact Option.some.inj hr' ▸ ⟨hid, hc⟩
    | _ => trivial

/-- The contract of runs in which the access is fresh. -/
abbrev accessContract (calls : ℕ → Op) : Contract Row DirectoryError Reply :=
  (accessLaw calls).contract (fun _ _ _ _ ↦ True) (FreshAccess calls) fun _ _ _ _ _ ↦ True

theorem coupled_setAccess (access : AppAccess) (reason : Option JsString) (r : LineUser) :
    Coupled (setAccess access reason r) := by
  refine ⟨fun h ↦ ?_, fun h ↦ ?_, ?_⟩
  · by_contra hne
    exact h (if_neg hne)
  · by_contra hne
    exact h (if_neg hne)
  · simp only [setAccess, accessToRichMenuType]
    split <;> simp_all

/-- Registering a user who is not registered couples the row. -/
theorem coupled_registered {r : LineUser} (hr : Coupled r)
    (ha : r.access = .unregistered ∨ r.access = .pending) (c : Option ℤ) :
    Coupled { r with access := .pending, registeredAt := c } := by
  refine ⟨fun hj ↦ ?_, fun hb ↦ ?_, fun hm ↦ ?_, fun hp ↦ by cases hp⟩
  · rcases ha with ha | ha <;> cases ha.symm.trans (hr.1 hj)
  · rcases ha with ha | ha <;> cases ha.symm.trans (hr.2.1 hb)
  · rcases ha with ha | ha <;> cases ha.symm.trans (hr.2.2.1 hm)

/-- So does the resubmission of one who is rejected. -/
theorem coupled_resubmitted {r : LineUser} (hr : Coupled r)
    (ha : r.access = .rejected ∨ r.access = .pending) :
    Coupled { r with access := .pending, rejectionReason := none } := by
  refine ⟨fun hj ↦ absurd rfl hj, fun hb ↦ ?_, fun hm ↦ ?_, fun hp ↦ by cases hp⟩
  · rcases ha with ha | ha <;> cases ha.symm.trans (hr.2.1 hb)
  · rcases ha with ha | ha <;> cases ha.symm.trans (hr.2.2.1 hm)

/-- What any other call makes of a LINE user is lawful. -/
theorem coupled_of_effect {op : Op} (hop : op.judges = none) {r : LineUser} {x : Option LineUser}
    (hr : Coupled r) (h : op.effect .lineUser r x) :
    ∃ r', x = some r' ∧ r'.id = r.id ∧ Coupled r' ∧ (¬ op.decides → r'.access = r.access) := by
  cases op with
  | upsertOnFollow s profile =>
    obtain ⟨_, c, rfl⟩ := h
    exact ⟨_, rfl, rfl, hr, fun _ ↦ rfl⟩
  | softDeleteByLineUserId s =>
    obtain ⟨_, c, rfl⟩ := h
    exact ⟨_, rfl, rfl, hr, fun _ ↦ rfl⟩
  | register s dto => cases hop
  | updateRegistration s dto => cases hop
  | getStatus s profile =>
    obtain ⟨n, p, rfl⟩ := h
    exact ⟨_, rfl, rfl, hr, fun _ ↦ rfl⟩
  | updateAccess id access actor reason =>
    obtain ⟨_, _, rfl⟩ := h
    exact ⟨_, rfl, rfl, coupled_setAccess access reason r, fun hd ↦ absurd trivial hd⟩
  | _ => exact h.elim

theorem coupled_newLineUser (s : JsString) (c : ℤ) (i : Cuid) : Coupled (newLineUser s c i) :=
  ⟨fun h ↦ absurd rfl h, fun h ↦ absurd rfl h, by simp [newLineUser]⟩

/-- A row that a call inserts is coupled. -/
theorem coupled_of_inserts {op : Op} {i : ℕ} {r : LineUser} (h : op.inserts .lineUser i r) :
    r.id = i ∧ Coupled r := by
  cases op with
  | upsertOnFollow s profile =>
    obtain ⟨c, rfl⟩ := h
    exact ⟨rfl, coupled_newLineUser s c i⟩
  | register s dto =>
    obtain ⟨c, rfl⟩ := h
    exact ⟨rfl, coupled_newLineUser s c i⟩
  | getStatus s profile =>
    obtain ⟨c, rfl⟩ := h
    exact ⟨rfl, coupled_newLineUser s c i⟩
  | patchSettings s dto =>
    obtain ⟨c, rfl⟩ := h
    exact ⟨rfl, coupled_newLineUser s c i⟩
  | _ => exact h.elim

section Writes

variable {calls : ℕ → Op} {t : ℕ} {σ : Store Row}

/-- A write is lawful if it couples the row and keeps a decision, of whoever the row as seen is. -/
theorem may_of_seen (hσ : (accessLaw calls).Lawful σ) {i : ℕ} {r r' : LineUser}
    (hseen : (σ.cell .lineUser i).seen (some t) = some r) (hid : r'.id = r.id) (hc : Coupled r')
    (hkeep : ¬ (calls t).decides → Decided r.access → r'.access = r.access) :
    (accessLaw calls).may t .lineUser i (σ.cell .lineUser i).committed (some r') := by
  refine ⟨r', rfl, hid.trans (hσ.seen_good hseen).1, hc, fun hd q hq hdq ↦ ?_⟩
  -- the row is as committed, or `t` has kept a decision before
  have hrq : r.access = q.access := by
    rcases hσ.seen_cases hseen with h | ⟨r₁, hr₁, _, _, hstand⟩
    · rw [Option.some.inj (h.symm.trans hq)]
    · rw [Option.some.inj hr₁]
      exact hstand hd q hq hdq
  rw [hkeep hd (hrq ▸ hdq), hrq]

/-- A call that judges nobody is tolerated. -/
theorem access_tolerates (ht : (calls t).judges = none) :
    (accessContract calls).Tolerates schema t (calls t).effect (calls t).inserts := by
  refine Law.tolerates schema_plain (fun reads σ τ ch i r x hσ _ hseen _ he ↦ ?_)
    (fun reads σ τ r _ _ hn ↦ ?_) fun _ ↦ trivial
  · cases τ with
    | lineUser =>
      obtain ⟨r', rfl, hid, hc, hkeep⟩ := coupled_of_effect ht (hσ.seen_good hseen).2 he
      exact may_of_seen hσ hseen hid hc fun hd _ ↦ hkeep hd
    | _ => trivial
  · cases τ with
    | lineUser =>
      obtain ⟨hid, hc⟩ := coupled_of_inserts hn
      exact ⟨r, rfl, hid, hc, fun _ q hq ↦ by cases hq⟩
    | _ => trivial

/-! ### The calls that judge -/

/-- The row that `t` is going to write is the one that its first query has found, or its own new
one. -/
def FoundOrCreated (t : ℕ) (reads : List View) (σ : Store Row) (lineUserId : JsString)
    (user : LineUser) :
    Prop :=
  (∃ d, reads.getLast? = some d ∧ activeLineUser d lineUserId = some user) ∨
    (σ.cell .lineUser user.id).dirty = some (t, some user)

theorem FoundOrCreated.rely {C : Contract Row DirectoryError Reply} {reads : List View}
    {s : JsString}
    {user : LineUser} (h : FoundOrCreated t reads σ s user) {σ' : Store Row} (hr : Rely C t σ σ') :
    FoundOrCreated t reads σ' s user :=
  h.imp_right (hr.dirty_iff _ _ _).2

theorem FoundOrCreated.query {reads : List View} {s : JsString} {user : LineUser}
    (h : FoundOrCreated t reads σ s user) (d : View) : FoundOrCreated t (d :: reads) σ s user := by
  refine h.imp_left fun ⟨d₀, hlast, hfound⟩ ↦ ⟨d₀, ?_, hfound⟩
  rw [List.getLast?_cons, hlast]
  rfl

/-- At a granted write, the row under the id has the access that was judged, or is `PENDING`. -/
theorem FoundOrCreated.access_cases {reads : List View} {s : JsString} {user : LineUser}
    (h : FoundOrCreated t reads σ s user) (hj : (calls t).judges = some s)
    (hσ : (accessLaw calls).Lawful σ) {ch : LineUser → Option (Option LineUser)}
    (hg : FreshAccess calls t reads σ .lineUser ch) {i : ℕ} {r : LineUser}
    (hseen : (σ.cell .lineUser i).seen (some t) = some r) (hch : (ch r).isSome)
    (hid : r.id = user.id) : r.access = user.access ∨ r.access = .pending := by
  rcases h with ⟨d, hlast, hfound⟩ | hdirty
  · have hi : i < σ.next := Db.lt_next (d := σ.view (some t)) hseen
    exact hg i (List.mem_range.2 hi) r hseen hch s hj d hlast user hfound
  · rw [← hid, (hσ.seen_good hseen).1] at hdirty
    rw [Cell.seen_of_dirty hdirty] at hseen
    exact .inl (by rw [Option.some.inj hseen])

/-- The write of `PENDING`, by id alone. -/
theorem wp_setPending {s : JsString} (hj : (calls t).judges = some s) {user : LineUser}
    {set : ℤ → LineUser → LineUser} (hset : ∀ c r, (set c r).id = r.id)
    (hjudge : ∀ c r, r.access = user.access ∨ r.access = .pending → Coupled r →
      Coupled (set c r) ∧ ¬ Decided r.access)
    {α : Type} {Q : α → Reading Row → List View → Store Row → Prop} {k : LineUser → Tx α}
    {clocked : Reading Row} {reads : List View} (hjudged : FoundOrCreated t reads σ s user)
    (hk : ∀ σ' r, wp (accessContract calls) schema t (fun _ ↦ True) Q (k r) clocked reads σ') :
    wp (accessContract calls) schema t (fun _ ↦ True) Q
      (updateOne .lineUser (fun r ↦ decide (r.id = user.id)) set >>= k) clocked reads σ := by
  change wp _ schema t _ Q ((Prog.bind _ _).bind k) clocked reads σ
  rw [Prog.bind_assoc]
  refine wp_update_law schema_plain (fun _ ↦ trivial)
    (fun σ' c i r r' hr hlaw hseen hch hg ↦ ?_) fun _ _ rows σ' _ _ _ _ _ _ ↦ ?_
  · split at hch
    · next hp =>
      obtain rfl := Option.some.inj hch
      have hid : r.id = user.id := of_decide_eq_true hp
      have ha := (hjudged.rely hr).access_cases hj hlaw hg hseen (by simp [hid]) hid
      obtain ⟨hc, hno⟩ := hjudge c r ha (hlaw.seen_good hseen).2
      exact may_of_seen hlaw hseen (hset c r) hc fun _ hd ↦ absurd hd hno
    · cases hch
  · cases rows with
    | nil => exact fun _ _ _ ↦ trivial
    | cons r l => exact hk σ' r

theorem wp_registerTx {s : JsString} {dto : RegistrationDto} (ht : calls t = .register s dto)
    {clocked : Reading Row} :
    wp (accessContract calls) schema t (fun _ ↦ True) (Committing (accessContract calls) t)
      (registerTx s dto) clocked [] σ := by
  have hj : (calls t).judges = some s := by rw [ht]; rfl
  -- what follows once the user has been found or created
  have hrest : ∀ {user : LineUser} {reads : List View} {σ : Store Row},
      FoundOrCreated t reads σ s user →
      wp (accessContract calls) schema t (fun _ ↦ True) (Committing (accessContract calls) t)
        (do
          refuse (user.access ≠ .unregistered) (.conflict .alreadyRegistered)
          assertActiveOptions dto.departmentId dto.personnelRoleId
          let created : LineUserRegistration ←
            create Tab.registration (newRegistration user.id dto)
          let registration ← ownerSelect created
          let updated ← updateOne .lineUser (fun r ↦ decide (r.id = user.id)) fun _ r ↦
            { r with access := .pending, registeredAt := some created.createdAt }
          pure (Reply.status ⟨updated.access, some registration, none⟩)) clocked reads σ := by
    intro user reads σ hjudged
    refine wp_refuse (fun _ _ ↦ trivial) fun hun ↦ ?_
    refine wp_assertActiveOptions (fun _ ↦ trivial) fun σ₁ σ₂ h₁ _ h₂ _ _ _ ↦ ?_
    refine wp_create_law schema_plain (fun _ ↦ trivial) fun σ₃ h₃ _ _ ↦ ⟨trivial, fun _ ↦ ?_⟩
    refine wp_query.2 fun σ₄ h₄ _ ↦ ?_
    have hadd : FoundOrCreated t reads
        (σ₃.add t .registration (newRegistration user.id dto σ₃.clock σ₃.next)) s user :=
      (hjudged.rely ((h₁.trans h₂).trans h₃)).imp_right fun hd ↦ by
        rwa [Store.add_cell_of_ne (by simp)]
    refine wp_setPending hj (fun _ _ ↦ ?_) (fun c r ha hc ↦ ?_)
      (((hadd.query _).query _).query _ |>.rely h₄) fun _ _ ↦ ?_
    · rfl
    · rw [not_not.1 hun] at ha
      exact ⟨coupled_registered hc ha _, by rcases ha with ha | ha <;> rw [ha] <;> decide⟩
    · exact fun _ _ _ ↦ ⟨trivial, trivial⟩
  change wp _ schema t _ _ ((Prog.bind (Prog.bind _ _) _)) clocked [] σ
  rw [Prog.bind_assoc]
  refine wp_findFirst.2 fun σ₁ _ _ ↦ ?_
  rcases hfound : activeLineUser (σ₁.view (some t)) s with - | user
  · rw [activeLineUser] at hfound
    rw [hfound]
    refine wp_create_law schema_plain (fun _ ↦ trivial) fun σ₂ _ _ _ ↦
      ⟨⟨_, rfl, rfl, coupled_newLineUser _ _ _, fun _ q hq ↦ by cases hq⟩, fun _ ↦
        hrest (.inr ?_)⟩
    rw [newLineUser, Store.add_cell_next]
  · have h := hfound
    rw [activeLineUser] at h
    rw [h]
    exact hrest (.inl ⟨_, rfl, hfound⟩)

theorem wp_updateRegistrationTx {s : JsString} {dto : RegistrationDto}
    (ht : calls t = .updateRegistration s dto) {clocked : Reading Row} :
    wp (accessContract calls) schema t (fun _ ↦ True) (Committing (accessContract calls) t)
      (updateRegistrationTx s dto) clocked [] σ := by
  have hj : (calls t).judges = some s := by rw [ht]; rfl
  refine wp_findFirst.2 fun σ₁ _ _ ↦ wp_require (fun _ _ ↦ trivial) fun user hfound ↦
    wp_refuse (fun _ _ ↦ trivial) fun _ ↦
    wp_assertActiveOptions (fun _ ↦ trivial) fun _ _ _ _ _ _ _ _ ↦ ?_
  have hjudged : ∀ d₁ d₂ d₃ σ, FoundOrCreated t [d₃, d₂, d₁, σ₁.view (some t)] σ s user :=
    fun _ _ _ _ ↦ .inl ⟨_, rfl, hfound⟩
  change wp _ schema t _ _ ((Prog.bind (Prog.bind _ _) _)) clocked _ _
  rw [Prog.bind_assoc]
  refine wp_update_law schema_plain (fun _ ↦ trivial) (fun _ _ _ _ _ _ _ _ _ _ ↦ trivial)
    fun _ _ rows _ _ _ _ _ _ _ ↦ ?_
  cases rows with
  | nil => exact fun _ _ _ ↦ trivial
  | cons updated l =>
    refine wp_query.2 fun _ _ _ ↦ ?_
    split
    · next hrej =>
      refine wp_setPending hj (fun _ _ ↦ ?_) (fun c r ha hc ↦ ?_) (hjudged _ _ _ _) fun _ _ ↦ ?_
      · rfl
      · rw [hrej] at ha
        exact ⟨coupled_resubmitted hc ha, by rcases ha with ha | ha <;> rw [ha] <;> decide⟩
      · exact fun _ _ _ ↦ ⟨trivial, trivial⟩
    · exact fun _ _ _ ↦ ⟨trivial, trivial⟩

end Writes

/-- Every world of such a run is healthy. -/
theorem access_healthy {calls : ℕ → Op} {w : DirectoryWorld}
    (hw : directory.Reach (AccessStep calls) w) :
    Healthy directory (accessContract calls) (fun _ _ ↦ True) w := by
  refine adequate (Law.Lawful.init _) (fun w t op ha ↦ ?_) (fun _ _ ha ↦ ha.2)
    (fun w e _ ↦ accepted_true w e) (fun _ _ _ _ _ ↦ relyOn_true _ _ _) hw
  obtain rfl : op = calls t := ha.1
  -- what follows the transaction touches no LINE user
  have hrest : ∀ {log reads} (k : Call), k.Writes (fun τ ↦ τ = .statusCache) →
      Safe (accessContract calls) schema directory.loses (fun _ _ ↦ True) t log reads k :=
    fun k hk ↦ safe_of_obeys (Law.tolerates_writes schema_plain
      (by rintro _ rfl; exact fun _ _ _ ↦ trivial) fun _ ↦ trivial) hk
  by_cases hop : (calls t).judges = none
  · exact safe_of_obeys (access_tolerates hop) (service_does _)
  · change Safe _ schema _ _ t [] [] (service (calls t))
    cases hc : calls t with
    | register s dto =>
      refine safe_attempt_of_wp (fun _ ↦ True) (fun _ _ _ ↦ wp_registerTx hc) (fun r reads ↦ ?_)
        fun f _ ↦ ⟨trivial, trivial⟩
      cases r with
      | status st => exact hrest _ (writes_notifyAccessChange (writes_dropThen s _) s _)
      | _ => trivial
    | updateRegistration s dto =>
      refine safe_attempt_of_wp (fun _ ↦ True) (fun _ _ _ ↦ wp_updateRegistrationTx hc)
        (fun r reads ↦ ?_) fun f _ ↦ ⟨trivial, trivial⟩
      split
      · split
        · exact hrest _ (writes_notifyAccessChange (writes_dropThen s _) s _)
        · exact hrest _ (writes_dropThen s _)
      · trivial
      · trivial
    | _ => exact absurd (by rw [hc]; rfl) hop

/-- **Decisions stand.** In a run whose user calls find, when they write, the access that they have
read or `PENDING`, the columns of every committed LINE user agree with its access, and a step that
takes a row off `ALLOWED` or `BLOCKED` is the commit of an administrator's call. -/
theorem access_decisions_stand {calls : ℕ → Op} {w : DirectoryWorld}
    (hw : directory.Reach (AccessStep calls) w) :
    (∀ i r, w.store.committed.row .lineUser i = some r → Coupled r) ∧
      ∀ e w', directory.step e w = some w' → ∀ i r, w.store.committed.row .lineUser i = some r →
        Decided (LineUser.access r) →
        (∃ r', w'.store.committed.row .lineUser i = some r' ∧ r'.access = r.access) ∨
          ∃ t, e = .run t ∧ (calls t).decides := by
  have hhealthy := access_healthy hw
  have hlaw : (accessLaw calls).Lawful w.store := hhealthy.inv
  refine ⟨fun i r hr ↦ (hlaw.good .lineUser i r (by simpa using hr)).2,
    fun e w' hs i r hr hd ↦ ?_⟩
  rcases System.committed_step hhealthy hs with ⟨_, hsame⟩ | ⟨t, reply, reads, rfl, _, _, hst⟩
  · exact .inl ⟨r, (hsame .lineUser i).trans hr, rfl⟩
  · by_cases hdec : (calls t).decides
    · exact .inr ⟨t, rfl, hdec⟩
    · rw [hst]
      rcases hlaw.commit_cases t .lineUser i with ⟨hsame, _⟩ | ⟨_, r', hr', _, _, hkeep⟩
      · exact .inl ⟨r, hsame.trans hr, rfl⟩
      · exact .inl ⟨r', hr', hkeep hdec r hr hd⟩

namespace Sample

/-- An administrator. -/
def admin : AdminActor := ⟨0, .admin⟩

/-- A user registers, under key 2, and is rejected. -/
def rejected : List DirectoryEvent :=
  options ++ .call 2 (.register [] registration) :: steps 2 10 ++ .answer 2 oracle :: steps 2 4 ++
    .call 3 (.updateAccess 2 .rejected admin (some [1])) :: steps 3 5 ++
    [.answer 3 oracle, .answer 3 oracle] ++ steps 3 4

/-- The user is blocked, and the attempt to resubmit comes too late. -/
def promptRun : List DirectoryEvent :=
  rejected ++ .call 5 (.updateAccess 2 .blocked admin (some [2])) :: steps 5 5 ++
    .call 4 (.updateRegistration [] registration) :: steps 4 2

/-- The user is blocked while a resubmission, which has read `REJECTED`, is under way. -/
def staleRun : List DirectoryEvent :=
  rejected ++ .call 4 (.updateRegistration [] registration) :: steps 4 2 ++
    .call 5 (.updateAccess 2 .blocked admin (some [2])) :: steps 5 5 ++ steps 4 7

end Sample

/-- A user who resubmits too late stays blocked. -/
theorem access_decisions_stand_promptRun :
    ∃ r, (afterUnder (AccessStep (calledIn Sample.promptRun)) Sample.promptRun).store.committed.row
      .lineUser 2 = some r ∧ r.access = .blocked ∧ Coupled r := by
  have hrow : ((afterUnder (AccessStep (calledIn Sample.promptRun))
      Sample.promptRun).store.committed.row .lineUser 2).map LineUser.access = some .blocked := by
    decide +kernel
  obtain ⟨r, hr, ha⟩ := Option.map_eq_some_iff.1 hrow
  exact ⟨r, hr, ha, (access_decisions_stand (reach_afterUnder _ _)).1 2 r hr⟩

/-- The commit of a resubmission that began before the block lifts the block, and leaves the reason
of the block behind. -/
theorem access_decisions_staleRun :
    directory.Reachable (after Sample.staleRun) ∧
      ((after Sample.staleRun).store.committed.row .lineUser 2).map LineUser.access =
        some .blocked ∧
      (directory.step (.run 4) (after Sample.staleRun)).bind (fun w ↦
        (w.store.committed.row .lineUser 2).map fun r ↦
          (LineUser.access r, decide (r.blockReason = none))) = some (.pending, false) :=
  ⟨reachable_after _, by decide +kernel, by decide +kernel⟩

end EasyBook.Directory

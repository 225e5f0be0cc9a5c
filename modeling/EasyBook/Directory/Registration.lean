import EasyBook.Directory.Lifecycle

/-!
# The registration lifecycle

Whether a user has registered is kept twice: in the column `access`, which the calls check, and in
the registration table, which they write. Where the two agree (`Agrees`), a user who is
`UNREGISTERED` can register and a user who is `PENDING` or `REJECTED` can edit. A `SUPER_ADMIN` may
set any access without a look at the other table; as long as nobody does so against it, the two
agree in every serial run (`registration_lifecycle`). Where it is done, the user is stuck
(`registration_lifecycle_forced`).
-/

namespace EasyBook.Directory

open ReadCommitted

/-- The accesses that presuppose a registration. -/
def Submitted (a : AppAccess) : Prop := a = .pending ∨ a = .rejected ∨ a = .allowed

/-- The access of a user goes with what the registration table says of it. -/
def Agrees (d : View) (userId : Cuid) (a : AppAccess) : Prop :=
  (Submitted a → HasRegistration d userId) ∧ (a = .unregistered → ¬ HasRegistration d userId)

instance (a : AppAccess) : Decidable (Submitted a) := by
  unfold Submitted
  infer_instance

instance (d : View) (userId : Cuid) : Decidable (HasRegistration d userId) :=
  decidable_of_iff (∃ q ∈ d.all .registration, LineUserRegistration.lineUserId q = userId) <| by
    simp only [Db.mem_all, HasRegistration]
    exact ⟨fun ⟨q, ⟨i, hi⟩, hq⟩ ↦ ⟨i, q, hi, hq⟩, fun ⟨i, q, hi, hq⟩ ↦ ⟨q, ⟨i, hi⟩, hq⟩⟩

instance (d : View) (userId : Cuid) (a : AppAccess) : Decidable (Agrees d userId a) := by
  unfold Agrees
  infer_instance

instance (u : LineUser) (access : AppAccess) (actor : AdminActor) :
    Decidable (MaySetAccess u access actor) := by
  unfold MaySetAccess
  infer_instance

/-! ### The invariant -/

/-- Every access goes with the registration table, and every registration has its user. -/
structure Consistent (d : View) : Prop where
  agrees : ∀ i u, d.row .lineUser i = some u → Agrees d (LineUser.id u) (LineUser.access u)
  owned : ∀ i q, d.row .registration i = some q →
    (d.row .lineUser (LineUserRegistration.lineUserId q)).isSome

namespace Consistent

variable {d d' : View}

theorem init : Consistent (Store.init Row).committed :=
  ⟨fun _ _ h ↦ (nomatch h), fun _ _ h ↦ (nomatch h)⟩

/-- The other tables do not matter. -/
theorem congr (h : Consistent d) (hu : d'.row .lineUser = d.row .lineUser)
    (hr : d'.row .registration = d.row .registration) : Consistent d' := by
  refine ⟨fun i u hi ↦ ?_, fun i q hi ↦ ?_⟩
  · rw [hu] at hi
    unfold Agrees HasRegistration
    rw [hr]
    exact h.agrees i u hi
  · rw [hu]
    rw [hr] at hi
    exact h.owned i q hi

theorem dropEntry (h : Consistent d) {lineUserId : JsString} :
    Consistent (dropEntry d lineUserId) :=
  h.congr (Db.keepRows_row_of_ne (by simp)) (Db.keepRows_row_of_ne (by simp))

theorem storeEntry (h : Consistent d) {lineUserId : JsString} {s : StatusResponse} :
    Consistent (storeEntry d lineUserId s) :=
  h.dropEntry.congr (Db.add_row_of_ne (by simp)) (Db.add_row_of_ne (by simp))

/-- Users may be changed as long as their access goes with the registration table. -/
theorem mapUsers (h : Consistent d) {f : LineUser → LineUser} (hid : ∀ u, (f u).id = u.id)
    (hf : ∀ i u, d.row .lineUser i = some u → Agrees d u.id (f u).access) :
    Consistent (d.mapRows .lineUser f) := by
  have hreg : (d.mapRows .lineUser f).row .registration = d.row .registration :=
    Db.mapRows_row_of_ne (by simp)
  refine ⟨fun i u hi ↦ ?_, fun i q hi ↦ ?_⟩
  · rw [Db.mapRows_row_self] at hi
    obtain ⟨r, hr, rfl⟩ := Option.map_eq_some_iff.1 hi
    unfold Agrees HasRegistration
    rw [hreg, hid]
    exact hf i r hr
  · rw [hreg] at hi
    rw [Db.mapRows_row_self, Option.isSome_map]
    exact h.owned i q hi

theorem setUser (h : Consistent d) {id : Cuid} {f : LineUser → LineUser}
    (hid : ∀ u, (f u).id = u.id)
    (hf : ∀ i u, d.row .lineUser i = some u → u.id = id → Agrees d id (f u).access) :
    Consistent (setUser d id f) := by
  refine h.mapUsers (fun u ↦ ?_) fun i u hi ↦ ?_
  · split
    · exact hid u
    · rfl
  · split
    · next he => exact he ▸ hf i u hi he
    · exact h.agrees i u hi

/-- A change that leaves the access alone. -/
theorem setUser_of_access (h : Consistent d) {id : Cuid} {f : LineUser → LineUser}
    (hf : ∀ u, (f u).id = u.id ∧ (f u).access = u.access) : Consistent (Directory.setUser d id f) :=
  h.setUser (fun u ↦ (hf u).1) fun i u hi he ↦ by
    rw [(hf u).2, ← he]
    exact h.agrees i u hi

/-- A new user has no registration. -/
theorem addUser (h : Consistent d) {u : LineUser} (hid : u.id = d.next)
    (ha : u.access = .unregistered) : Consistent (d.add .lineUser u) := by
  have hreg : (d.add .lineUser u).row .registration = d.row .registration :=
    Db.add_row_of_ne (by simp)
  refine ⟨fun i x hi ↦ ?_, fun i q hi ↦ ?_⟩
  · unfold Agrees HasRegistration
    rw [hreg]
    rcases Db.add_row_eq_some hi with hi' | ⟨_, rfl, hx⟩
    · exact h.agrees i x hi'
    · obtain rfl : x = u := hx
      refine ⟨fun hs ↦ ?_, fun _ ⟨j, q, hj, hq⟩ ↦ ?_⟩
      · rcases hs with hs | hs | hs <;> rw [ha] at hs <;> cases hs
      · have := h.owned j q hj
        rw [hq, hid, d.bounded _ _ (Nat.le_refl _)] at this
        cases this
  · rw [hreg] at hi
    obtain ⟨r, hr⟩ := Option.isSome_iff_exists.1 (h.owned i q hi)
    exact Option.isSome_iff_exists.2 ⟨r, Db.add_row_of_some hr⟩

theorem found (h : Consistent d) {lineUserId : JsString} {u : LineUser}
    (hf : Found d lineUserId u d') : Consistent d' := by
  cases hf with
  | existing _ => exact h
  | created c _ => exact h.addUser rfl rfl

/-- Who has a registration does not change when one is edited. -/
theorem hasRegistration_setRegistration {id id' : Cuid}
    {f : LineUserRegistration → LineUserRegistration}
    (hf : ∀ q, (f q).lineUserId = q.lineUserId) :
    HasRegistration (setRegistration d id f) id' ↔ HasRegistration d id' := by
  have howner : ∀ q : LineUserRegistration,
      (if q.lineUserId = id then f q else q).lineUserId = q.lineUserId := fun q ↦ by
    split
    · exact hf q
    · rfl
  unfold HasRegistration Directory.setRegistration
  constructor
  · rintro ⟨i, q, hi, rfl⟩
    rw [Db.mapRows_row_self] at hi
    obtain ⟨r, hr, rfl⟩ := Option.map_eq_some_iff.1 hi
    exact ⟨i, r, hr, (howner r).symm⟩
  · rintro ⟨i, q, hi, rfl⟩
    exact ⟨i, _, by rw [Db.mapRows_row_self, hi]; rfl, howner q⟩

theorem setRegistration (h : Consistent d) {id : Cuid}
    {f : LineUserRegistration → LineUserRegistration}
    (hf : ∀ q, (f q).lineUserId = q.lineUserId) : Consistent (setRegistration d id f) := by
  have husers : (Directory.setRegistration d id f).row .lineUser = d.row .lineUser :=
    Db.mapRows_row_of_ne (by simp)
  refine ⟨fun i u hi ↦ ?_, fun i q hi ↦ ?_⟩
  · rw [husers] at hi
    unfold Agrees
    rw [hasRegistration_setRegistration hf]
    exact h.agrees i u hi
  · rw [husers]
    rw [Directory.setRegistration, Db.mapRows_row_self] at hi
    obtain ⟨r, hr, rfl⟩ := Option.map_eq_some_iff.1 hi
    have := h.owned i r hr
    split
    · rwa [hf]
    · exact this

/-- Registering makes the access go with the new registration. -/
theorem enrol (h : Consistent d) {q : LineUserRegistration} {u : LineUser}
    (hu : d.row .lineUser q.lineUserId = some u) : Consistent (enrol d q) := by
  have husers : (d.add .registration q).row .lineUser = d.row .lineUser :=
    Db.add_row_of_ne (by simp)
  have hreg : ∀ id, HasRegistration (d.add .registration q) id ↔
      HasRegistration d id ∨ q.lineUserId = id := fun id ↦ by
    constructor
    · rintro ⟨i, x, hi, rfl⟩
      rcases Db.add_row_eq_some hi with hi' | ⟨_, _, hx⟩
      · exact .inl ⟨i, x, hi', rfl⟩
      · obtain rfl : x = q := hx
        exact .inr rfl
    · rintro (⟨i, x, hi, rfl⟩ | rfl)
      · exact ⟨i, x, Db.add_row_of_some hi, rfl⟩
      · exact ⟨d.next, q, Db.add_row_next, rfl⟩
  have hafter : ∀ id, HasRegistration (Directory.enrol d q) id ↔
      HasRegistration (d.add .registration q) id := fun id ↦ by
    unfold HasRegistration Directory.enrol Directory.setUser
    rw [Db.mapRows_row_of_ne (by simp)]
  refine ⟨fun i x hi ↦ ?_, fun i x hi ↦ ?_⟩
  · rw [Directory.enrol, Directory.setUser, Db.mapRows_row_self, husers] at hi
    obtain ⟨r, hr, rfl⟩ := Option.map_eq_some_iff.1 hi
    unfold Agrees
    rw [hafter, hreg]
    split
    · next he => exact ⟨fun _ ↦ .inr he.symm, fun ha ↦ (nomatch ha)⟩
    · next hne =>
      have := h.agrees i r hr
      exact ⟨fun hs ↦ .inl (this.1 hs), fun ha hor ↦ hor.elim (this.2 ha) fun he ↦ hne he.symm⟩
  · rw [Directory.enrol, Directory.setUser, Db.mapRows_row_of_ne (by simp)] at hi
    rw [Directory.enrol, Directory.setUser, Db.mapRows_row_self, husers, Option.isSome_map]
    rcases Db.add_row_eq_some hi with hi' | ⟨_, _, hx⟩
    · exact h.owned i x hi'
    · obtain rfl : x = q := hx
      rw [hu]
      rfl

end Consistent

/-- An access is set only if it goes with the registration table. -/
def SetsWithRegistration (d : View) : Op → Prop
  | .updateAccess id access actor _ =>
    ∀ u ∈ d.all .lineUser, LineUser.id u = id → MaySetAccess u access actor → Agrees d id access
  | _ => True

instance (d : View) (op : Op) : Decidable (SetsWithRegistration d op) := by
  unfold SetsWithRegistration
  induction op using Op.casesOn <;> infer_instance

/-- The calls keep the two tables together. -/
theorem Does.consistent {T : DirectoryTerms} {d d' : View} {op : Op}
    {r : Except DirectoryError Reply} (hd : Tidy d) (h : Consistent d)
    (hset : SetsWithRegistration d op) (hr : Does T d op r d') : Consistent d' := by
  have hedit : ∀ id dto c, Consistent (setRegistration d id (editRegistration dto c)) :=
    fun _ _ _ ↦ h.setRegistration fun _ ↦ rfl
  have haccess : ∀ id access reason, Agrees d id access →
      Consistent (setUser d id (setAccess access reason)) := fun _ _ _ ha ↦
    h.setUser (fun _ ↦ rfl) fun _ _ _ _ ↦ ha
  cases hr with
  | lost _ _ _ hrow => exact h.congr (by rw [hrow]) (by rw [hrow])
  | refused _ hrow => exact h.congr (by rw [hrow]) (by rw [hrow])
  | followed _ _ =>
    refine (h.mapUsers (fun u ↦ ?_) fun i u hi ↦ ?_).dropEntry
    · split <;> rfl
    · have := h.agrees i u hi
      split <;> exact this
  | joined _ => exact (h.addUser rfl rfl).dropEntry
  | stranger _ => exact h
  | unfollowed _ =>
    refine (h.setUser_of_access fun u ↦ ?_).dropEntry
    split <;> exact ⟨rfl, rfl⟩
  | registered hu _ _ _ _ => exact ((h.found hu).enrol (hu.row hd).1).dropEntry
  | @edited _ dto u c _ hu _ _ _ hreg =>
    have hreg' : HasRegistration (setRegistration d u.id (editRegistration dto c)) u.id :=
      (Consistent.hasRegistration_setRegistration (f := editRegistration dto c) fun _ ↦ rfl).2 hreg
    refine Consistent.dropEntry ?_
    unfold resubmit
    split
    · exact (hedit _ _ _).setUser (fun _ ↦ rfl) fun i x _ _ ↦
        ⟨fun _ ↦ hreg', fun ha ↦ (nomatch ha)⟩
    · exact hedit _ _ _
  | cached _ => exact h
  | answered _ hu hp =>
    refine Consistent.storeEntry ?_
    rcases hp with ⟨rfl, _⟩ | ⟨claims, _, rfl, _⟩
    · exact h.found hu
    · exact (h.found hu).setUser_of_access fun _ ↦ ⟨rfl, rfl⟩
  | @unanswered _ _ _ _ d₂ _ _ _ _ hu hp _ _ _ hrow =>
    refine Consistent.congr (d := d₂) ?_ (by rw [hrow]) (by rw [hrow])
    rcases hp with rfl | ⟨claims, rfl⟩
    · exact h.found hu
    · exact (h.found hu).setUser_of_access fun _ ↦ ⟨rfl, rfl⟩
  | patched hu _ hrow => exact (h.found hu).congr (hrow _ (by simp)) (hrow _ (by simp))
  | unpatched hu _ _ _ hrow => exact (h.found hu).congr (by rw [hrow]) (by rw [hrow])
  | accessSetUnseen hu hid _ hmay =>
    exact haccess _ _ _ (hset _ (Db.mem_all.2 ⟨_, hu⟩) hid hmay)
  | menuNotApplied hu hid _ hmay _ _ =>
    exact haccess _ _ _ (hset _ (Db.mem_all.2 ⟨_, hu⟩) hid hmay)
  | accessSet hu hid _ hmay =>
    exact (haccess _ _ _ (hset _ (Db.mem_all.2 ⟨_, hu⟩) hid hmay)).dropEntry
  | corrected _ _ _ _ => exact (hedit _ _ _).dropEntry
  | correctedUnread _ _ _ _ _ _ _ hrow =>
    exact (hedit _ _ _).congr (by rw [hrow]) (by rw [hrow])
  | optionCreated _ => exact h.congr (Db.add_row_of_ne (by simp)) (Db.add_row_of_ne (by simp))

/-! ### No dead end -/

/-- The options of a form may be chosen. -/
def ValidOptions (d : View) (dto : RegistrationDto) : Prop :=
  OptionActive d .department dto.departmentId ∧ OptionActive d .personnelRole dto.personnelRoleId

/-- The errors of a row that is missing, or there already. -/
def DatabaseError (e : DirectoryError) : Prop :=
  e = .recordNotFound ∨ e = .uniqueViolation ∨ e = .conflict .alreadyRegistered

/-- **No dead end** in what is committed between calls. -/
structure NoDeadEnd (w : DirectoryWorld) : Prop where
  /-- Who has submitted a registration has one. -/
  filed : ∀ i u, w.store.committed.row .lineUser i = some u → Submitted (LineUser.access u) →
    HasRegistration w.store.committed u.id
  /-- Who is unregistered can register. -/
  register : ∀ t lineUserId dto u, w.phase t = .idle →
    ActiveUser w.store.committed lineUserId u → u.access = .unregistered →
    ValidOptions w.store.committed dto → Succeeds w t (.register lineUserId dto)
  /-- Who is pending or rejected can edit. -/
  updateRegistration : ∀ t lineUserId dto u, w.phase t = .idle →
    ActiveUser w.store.committed lineUserId u → u.access = .pending ∨ u.access = .rejected →
    ValidOptions w.store.committed dto → Succeeds w t (.updateRegistration lineUserId dto)
  /-- Neither call fails on a row, valid or not, even where transactions are lost. -/
  rows : ∀ t lineUserId dto u op cur w' e, ActiveUser w.store.committed lineUserId u →
    u.access = .unregistered ∧ op = .register lineUserId dto ∨
      (u.access = .pending ∨ u.access = .rejected) ∧ op = .updateRegistration lineUserId dto →
    directory.Serving lineCalls t op w cur w' → w'.result t = some (.error e) → ¬ DatabaseError e

section NoDeadEnd

variable {d : View} {lineUserId : JsString} {dto : RegistrationDto} {u : LineUser}
  {e : DirectoryError}

private theorem register_refused (hd : Tidy d) (h : Consistent d)
    (hu : ActiveUser d lineUserId u) (ha : u.access = .unregistered)
    (hr : Refuses d (.register lineUserId dto) e) :
    ∃ m, e = .badRequest m ∧ ¬ ValidOptions d dto := by
  cases hr with
  | registerGone hno _ => exact absurd hu (hno u)
  | alreadyRegistered hu' ha' => exact absurd ha (hd.active_unique hu hu' ▸ ha')
  | registrationInTheWay hf _ hreg =>
    cases hf with
    | existing hu' =>
      obtain rfl := hd.active_unique hu hu'
      obtain ⟨i, hi, _⟩ := hu
      exact absurd hreg ((h.agrees i u hi).2 ha)
    | created c hn =>
      obtain ⟨i, hi, hs, _⟩ := hu
      exact absurd ⟨i, u, hi, hs⟩ hn
  | registerOptions hn => exact ⟨_, rfl, hn⟩

private theorem updateRegistration_refused (hd : Tidy d) (h : Consistent d)
    (hu : ActiveUser d lineUserId u) (ha : u.access = .pending ∨ u.access = .rejected)
    (hr : Refuses d (.updateRegistration lineUserId dto) e) :
    ∃ m, e = .badRequest m ∧ ¬ ValidOptions d dto := by
  cases hr with
  | notEditable hno => exact (ha.elim (hno u hu).1 (hno u hu).2).elim
  | editOptions hn => exact ⟨_, rfl, hn⟩
  | nothingToEdit hu' _ hno =>
    obtain rfl := hd.active_unique hu hu'
    obtain ⟨i, hi, _⟩ := hu
    refine absurd ((h.agrees i u hi).1 ?_) hno
    exact ha.elim .inl fun ha ↦ .inr (.inl ha)

end NoDeadEnd

/-- The calls of a serial run, where no access is set against the registration table. -/
def unforced : DirectoryTerms where
  call d op := LineOp op ∧ SetsWithRegistration d op
  may := lineCalls.may
  lose := lineCalls.lose

instance (d : View) (op : Op) : Decidable (unforced.call d op) :=
  inferInstanceAs (Decidable (LineOp op ∧ SetsWithRegistration d op))

instance (op : Op) (d : View) (q : Ask) (a : Ans q) : Decidable (unforced.may op d q a) :=
  .isTrue trivial

/-- **The registration lifecycle has no dead end** in serial runs that set no access against the
registration table. -/
theorem registration_lifecycle {w : DirectoryWorld} (h : directory.Serial unforced w) :
    NoDeadEnd w := by
  have hredis : RedisUp unforced := redisUp_lineCalls
  obtain ⟨hq, hd, hc⟩ := serial_invariant hredis (fun _ _ hc ↦ hc.1) Consistent.init
    (fun d op r d' hd hc hcall hr ↦ hr.consistent hd hc hcall.2) h
  refine ⟨fun i u hi ↦ (hc.agrees i u hi).1, fun t lineUserId dto u ht hu ha hv ↦ ?_,
    fun t lineUserId dto u ht hu ha hv ↦ ?_,
    fun t lineUserId dto u op cur w' e hu hop hsv hr he ↦ ?_⟩
  · refine succeeds_of_does hq hd ht trivial fun e d' hdoes ↦ ?_
    cases hdoes with
    | lost _ _ hl _ => exact hl
    | refused hr _ =>
      obtain ⟨_, _, hn⟩ := register_refused hd hc hu ha hr
      exact hn hv
  · refine succeeds_of_does hq hd ht trivial fun e d' hdoes ↦ ?_
    cases hdoes with
    | lost _ _ hl _ => exact hl
    | refused hr _ =>
      obtain ⟨_, _, hn⟩ := updateRegistration_refused hd hc hu ha hr
      exact hn hv
  · have hlost : directory.loses e = true → ¬ DatabaseError e := fun hl he ↦ by
      rcases he with rfl | rfl | rfl <;> cases hl
    have hbad : ∀ m, ¬ DatabaseError (.badRequest m) := fun m he ↦ by
      rcases he with he | he | he <;> cases he
    rcases hop with ⟨ha, rfl⟩ | ⟨ha, rfl⟩
    · have hop : LineOp (.register lineUserId dto) := trivial
      cases (served_does redisUp_lineCalls hq hd hop hsv hr).2 with
      | lost hl _ _ _ => exact hlost hl he
      | refused hr _ =>
        obtain ⟨m, rfl, _⟩ := register_refused hd hc hu ha hr
        exact hbad m he
    · have hop : LineOp (.updateRegistration lineUserId dto) := trivial
      cases (served_does redisUp_lineCalls hq hd hop hsv hr).2 with
      | lost hl _ _ _ => exact hlost hl he
      | refused hr _ =>
        obtain ⟨m, rfl, _⟩ := updateRegistration_refused hd hc hu ha hr
        exact hbad m he

/-! ### What becomes of a user whose access was forced -/

section Stuck

variable {w : DirectoryWorld} {lineUserId : JsString} {dto : RegistrationDto} {u : LineUser} {t : ℕ}

/-- A user who has a registration cannot register, whatever its access says. -/
theorem register_stuck (hq : w.Quiet) (hd : Tidy w.store.committed)
    (hu : ActiveUser w.store.committed lineUserId u)
    (hreg : HasRegistration w.store.committed u.id) :
    ¬ Succeeds w t (.register lineUserId dto) := by
  rintro ⟨⟨cur, w', r, hsv, hr⟩, hall⟩
  obtain ⟨reply, rfl⟩ := hall cur w' r hsv hr
  have hop : LineOp (.register lineUserId dto) := trivial
  have hdoes := (served_does redisUp_undisturbed hq hd hop hsv hr).2
  generalize w'.store.committed = d' at hdoes
  cases hdoes with
  | registered hf _ _ _ hno =>
    cases hf with
    | existing hu' => exact hno (hd.active_unique hu hu' ▸ hreg)
    | created c hn =>
      obtain ⟨i, hi, hs, _⟩ := hu
      exact hn ⟨i, u, hi, hs⟩

/-- A user who has none cannot edit. -/
theorem updateRegistration_stuck (hq : w.Quiet) (hd : Tidy w.store.committed)
    (hu : ActiveUser w.store.committed lineUserId u)
    (hno : ¬ HasRegistration w.store.committed u.id) :
    ¬ Succeeds w t (.updateRegistration lineUserId dto) := by
  rintro ⟨⟨cur, w', r, hsv, hr⟩, hall⟩
  obtain ⟨reply, rfl⟩ := hall cur w' r hsv hr
  have hop : LineOp (.updateRegistration lineUserId dto) := trivial
  have hdoes := (served_does redisUp_undisturbed hq hd hop hsv hr).2
  generalize w'.store.committed = d' at hdoes
  cases hdoes with
  | edited hu' _ _ _ hreg => exact hno (hd.active_unique hu hu' ▸ hreg)

end Stuck

instance (d : View) (v : Vocabulary) (id : Cuid) : Decidable (OptionActive d v id) :=
  decidable_of_iff (∃ r ∈ d.all (.option v), OptionRow.id r = id ∧ OptionRow.deletedAt r = none ∧
    OptionRow.isSystemReserved r = false) <| by
    simp only [Db.mem_all, OptionActive]
    exact ⟨fun ⟨r, ⟨i, hi⟩, hr⟩ ↦ ⟨i, r, hi, hr⟩, fun ⟨i, r, hi, hr⟩ ↦ ⟨r, ⟨i, hi⟩, hr⟩⟩

instance (d : View) (dto : RegistrationDto) : Decidable (ValidOptions d dto) := by
  unfold ValidOptions
  infer_instance

namespace Sample

/-- A super admin. -/
def adminActor : AdminActor := ⟨0, .superAdmin⟩

/-- Two options, and a user who registers for them under key 2. -/
def enrolled : List Op :=
  [.createOption .department [], .createOption .personnelRole [], .register [] registration]

/-- The same options, and a user who has followed only. -/
def followed : List Op :=
  [.createOption .department [], .createOption .personnelRole [],
    .upsertOnFollow [] ⟨none, none, none, none⟩]

/-- The user under key 2 is sent to the given access. -/
def forcing (access : AppAccess) (reason : Option JsString) : Op :=
  .updateAccess 2 access adminActor reason

end Sample

/-- A registration that was sent back for revision. -/
theorem registration_lifecycle_sentBack :
    (served unforced (Sample.calls (Sample.enrolled ++ [Sample.forcing .rejected (some [0])]))
      |>.store.committed.all .lineUser).map LineUser.access = [.rejected] ∧
    NoDeadEnd
      (served unforced (Sample.calls (Sample.enrolled ++ [Sample.forcing .rejected (some [0])]))) :=
  ⟨by decide +kernel, registration_lifecycle (serial_served unforced _)⟩

private theorem user_of_any {d : View} {i : ℕ} {p : LineUser → Bool}
    (h : (d.row .lineUser i).any p = true) : ∃ u, d.row .lineUser i = some u ∧ p u = true :=
  (Option.any_eq_true _ _).1 h

/-- **A forced access leads into a dead end**: a follower is approved without a registration, a
registered user is made `UNREGISTERED` and cannot register, a follower is made `PENDING` and cannot
edit. -/
theorem registration_lifecycle_forced :
    (∃ w i u, directory.Serial lineCalls w ∧ w.store.committed.row .lineUser i = some u ∧
      Submitted (LineUser.access u) ∧ ¬ HasRegistration w.store.committed u.id) ∧
    (∃ w t u, directory.Serial lineCalls w ∧ w.phase t = .idle ∧
      ActiveUser w.store.committed [] u ∧ u.access = .unregistered ∧
      ValidOptions w.store.committed Sample.registration ∧
      ¬ Succeeds w t (.register [] Sample.registration)) ∧
    ∃ w t u, directory.Serial lineCalls w ∧ w.phase t = .idle ∧
      ActiveUser w.store.committed [] u ∧ u.access = .pending ∧
      ValidOptions w.store.committed Sample.registration ∧
      ¬ Succeeds w t (.updateRegistration [] Sample.registration) := by
  have hinv := fun l ↦ serial_tidy (serial_served lineCalls l)
  refine ⟨?_, ?_, ?_⟩
  · obtain ⟨u, hu, hp⟩ := user_of_any (i := 2)
      (d := (served lineCalls
        (Sample.calls (Sample.followed ++ [Sample.forcing .allowed none]))).store.committed)
      (p := fun u ↦ decide (u.id = 2 ∧ u.access = .allowed)) (by decide +kernel)
    obtain ⟨hid, ha⟩ := of_decide_eq_true hp
    exact ⟨_, 2, u, serial_served lineCalls _, hu, .inr (.inr ha), hid ▸ by decide +kernel⟩
  · obtain ⟨u, hu, hp⟩ := user_of_any (i := 2)
      (d := (served lineCalls (Sample.calls
        (Sample.enrolled ++ [Sample.forcing .unregistered none]))).store.committed)
      (p := fun u ↦ decide (u.id = 2 ∧ u.access = .unregistered ∧ u.lineUserId = [] ∧
        u.deletedAt = none)) (by decide +kernel)
    obtain ⟨hid, ha, hs⟩ := of_decide_eq_true hp
    refine ⟨_, 4, u, serial_served lineCalls _, phase_of_isIdle (by decide +kernel),
      ⟨2, hu, hs⟩, ha,
      by decide +kernel, register_stuck (hinv _).1 (hinv _).2 ⟨2, hu, hs⟩ (hid ▸ by decide +kernel)⟩
  · obtain ⟨u, hu, hp⟩ := user_of_any (i := 2)
      (d := (served lineCalls (Sample.calls
        (Sample.followed ++ [Sample.forcing .pending none]))).store.committed)
      (p := fun u ↦ decide (u.id = 2 ∧ u.access = .pending ∧ u.lineUserId = [] ∧
        u.deletedAt = none)) (by decide +kernel)
    obtain ⟨hid, ha, hs⟩ := of_decide_eq_true hp
    refine ⟨_, 4, u, serial_served lineCalls _, phase_of_isIdle (by decide +kernel),
      ⟨2, hu, hs⟩, ha,
      by decide +kernel,
      updateRegistration_stuck (hinv _).1 (hinv _).2 ⟨2, hu, hs⟩ (hid ▸ by decide +kernel)⟩

end EasyBook.Directory

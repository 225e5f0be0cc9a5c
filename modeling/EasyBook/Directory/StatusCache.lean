import EasyBook.Directory.Returning

/-!
# The LIFF status cache

The cache holds, under a LINE subject, what `getStatus` answered last. Whoever changes the access of
a user, its rejection reason or its registration drops the entry afterwards; `Fresh` is what this
keeps between calls. The drop comes last, so a call that ends with an error after its commit leaves
the entry behind: `updateAccess` when LINE does not apply the rich menu, and
`updateRegistrationByAdmin` when the user cannot be read again. In serial runs in which this happens
only where the entry agrees already, the cache is coherent (`statusCache_coherent`).
-/

namespace EasyBook.Directory

open ReadCommitted

/-- Made when the rows are those of `d`, `getStatus` answers `s`. -/
def Answers (d : View) (lineUserId : JsString) (s : StatusResponse) : Prop :=
  ∀ profile t cur w r,
    directory.Serving undisturbed t (.getStatus lineUserId profile) (World.holding d) cur w →
      w.result t = some r → r = .ok (.status s)

/-- Every entry is what `getStatus` would answer without it. -/
def Coherent (d : View) : Prop :=
  ∀ lineUserId s, Cached d lineUserId s → Answers (dropEntry d lineUserId) lineUserId s

/-! ### What a status depends on -/

/-- The registration of a user, with the names of its options. -/
def registrationOf (d : View) (userId : Cuid) : Option RegistrationResponse :=
  ((d.all .registration).find? fun r ↦
    decide (LineUserRegistration.lineUserId r = userId) && r.deletedAt.isNone).map
      (toRegistrationResponse d)

/-- The options of every registration exist. -/
def Filed (d : View) : Prop :=
  ∀ i q, d.row .registration i = some q →
    (∃ j r, d.row (.option .department) j = some r ∧
      OptionRow.id r = LineUserRegistration.departmentId q) ∧
    ∃ j r, d.row (.option .personnelRole) j = some r ∧
      OptionRow.id r = LineUserRegistration.personnelRoleId q

section RegistrationOf

variable {d d' : View} {userId : Cuid}

private theorem toRegistrationResponse_congr (ho : ∀ v, d'.row (.option v) = d.row (.option v)) :
    toRegistrationResponse d' = toRegistrationResponse d := by
  have hname : optionName d' = optionName d := funext fun v ↦ funext fun id ↦ by
    have hall : d'.all (.option v) = d.all (.option v) := Db.all_congr fun i ↦ by rw [ho]
    rw [optionName, optionName, hall]
  exact funext fun q ↦ by simp only [toRegistrationResponse, hname]

theorem registrationOf_congr (hr : d'.row .registration = d.row .registration)
    (ho : ∀ v, d'.row (.option v) = d.row (.option v)) :
    registrationOf d' userId = registrationOf d userId := by
  have hall : d'.all .registration = d.all .registration := Db.all_congr fun i ↦ by rw [hr]
  rw [registrationOf, registrationOf, toRegistrationResponse_congr ho, hall]

/-- The registration of another user does not matter. -/
theorem registrationOf_setRegistration {id : Cuid} (hne : id ≠ userId)
    {f : LineUserRegistration → LineUserRegistration}
    (hf : ∀ q, (f q).lineUserId = q.lineUserId) :
    registrationOf (setRegistration d id f) userId = registrationOf d userId := by
  rw [registrationOf, registrationOf, setRegistration, toRegistrationResponse_congr (d := d) fun v ↦
    Db.mapRows_row_of_ne (by simp), Db.all_mapRows, List.find?_map]
  have hp : ((fun r : LineUserRegistration ↦ decide (r.lineUserId = userId) && r.deletedAt.isNone) ∘
      fun q : LineUserRegistration ↦ if q.lineUserId = id then f q else q) =
      fun r ↦ decide (r.lineUserId = userId) && r.deletedAt.isNone := funext fun q ↦ by
    by_cases hq : q.lineUserId = id
    · simp [hq, hf, hne]
    · simp [hq]
  rw [hp, Option.map_map]
  cases hfind : (d.all .registration).find? fun r ↦
      decide (LineUserRegistration.lineUserId r = userId) && r.deletedAt.isNone with
  | none => rfl
  | some q =>
    have hq := List.find?_some hfind
    simp only [Bool.and_eq_true, decide_eq_true_eq] at hq
    have hid : q.lineUserId ≠ id := fun he ↦ hne (he.symm.trans hq.1)
    simp [hid]

theorem registrationOf_add {q : LineUserRegistration} (hne : q.lineUserId ≠ userId) :
    registrationOf (d.add .registration q) userId = registrationOf d userId := by
  rw [registrationOf, registrationOf, toRegistrationResponse_congr (d := d) fun v ↦
    Db.add_row_of_ne (by simp), Db.all_add, List.find?_append]
  simp [hne]

/-- A new option is the option of no registration. -/
theorem registrationOf_addOption (h : Filed d) {v : Vocabulary} {r : OptionRow} :
    registrationOf (d.add (.option v) r) userId = registrationOf d userId := by
  have hname : ∀ v' id, (∃ j x, d.row (.option v') j = some x ∧ OptionRow.id x = id) →
      optionName (d.add (.option v) r) v' id = optionName d v' id := by
    rintro v' id ⟨j, x, hj, hx⟩
    by_cases hv : v' = v
    · subst hv
      have hsome : ((d.all (.option v')).find? fun r ↦ decide (OptionRow.id r = id)).isSome :=
        List.find?_isSome.2 ⟨x, Db.mem_all.2 ⟨j, hj⟩, decide_eq_true hx⟩
      obtain ⟨y, hy⟩ := Option.isSome_iff_exists.1 hsome
      rw [optionName, optionName, Db.all_add, List.find?_append, hy]
      rfl
    · have hall : (d.add (.option v) r).all (.option v') = d.all (.option v') :=
        Db.all_congr fun i ↦ by rw [Db.add_row_of_ne (by simp [hv])]
      rw [optionName, optionName, hall]
  have hall : (d.add (.option v) r).all .registration = d.all .registration :=
    Db.all_congr fun i ↦ by rw [Db.add_row_of_ne (by simp)]
  rw [registrationOf, registrationOf, hall]
  cases hfind : (d.all .registration).find? fun r ↦
      decide (LineUserRegistration.lineUserId r = userId) && r.deletedAt.isNone with
  | none => rfl
  | some q =>
    have hmem : q ∈ d.all .registration := List.mem_of_find?_eq_some hfind
    obtain ⟨i, hi⟩ := Db.mem_all.1 hmem
    obtain ⟨hdep, hrole⟩ := h i q hi
    simp only [Option.map_some, toRegistrationResponse, hname _ _ hdep, hname _ _ hrole]

end RegistrationOf

/-! ### Subjects whose status stays -/

/-- Whatever user the subject sees, it sees with the same status afterwards. -/
def Stays (d d' : View) (lineUserId : JsString) : Prop :=
  ∀ u, ActiveUser d lineUserId u → ∃ u', ActiveUser d' lineUserId u' ∧ statusOf d' u' = statusOf d u

namespace Stays

variable {d d' d'' : View} {lineUserId : JsString}

theorem trans (h : Stays d d' lineUserId) (h' : Stays d' d'' lineUserId) :
    Stays d d'' lineUserId := fun u hu ↦ by
  obtain ⟨u', hu', hs⟩ := h u hu
  obtain ⟨u'', hu'', hs'⟩ := h' u' hu'
  exact ⟨u'', hu'', hs'.trans hs⟩

/-- Only the users, the registrations and the options matter. -/
theorem congr (hu : d'.row .lineUser = d.row .lineUser)
    (hr : d'.row .registration = d.row .registration)
    (ho : ∀ v, d'.row (.option v) = d.row (.option v)) : Stays d d' lineUserId := fun u h ↦
  ⟨u, h.congr hu, congrArg (StatusResponse.mk u.access · u.rejectionReason)
    (registrationOf_congr hr ho)⟩

theorem dropEntry {s : JsString} : Stays d (dropEntry d s) lineUserId :=
  congr (Db.keepRows_row_of_ne (by simp)) (Db.keepRows_row_of_ne (by simp)) fun _ ↦
    Db.keepRows_row_of_ne (by simp)

theorem storeEntry {s : JsString} {x : StatusResponse} : Stays d (storeEntry d s x) lineUserId :=
  dropEntry.trans <| congr (Db.add_row_of_ne (by simp)) (Db.add_row_of_ne (by simp)) fun _ ↦
    Db.add_row_of_ne (by simp)

/-- Users may be changed where the status does not show it. -/
theorem mapUsers {f : LineUser → LineUser} (hf : ∀ u, ActiveUser d lineUserId u →
    (f u).id = u.id ∧ (f u).lineUserId = u.lineUserId ∧ (f u).deletedAt = u.deletedAt ∧
      (f u).access = u.access ∧ (f u).rejectionReason = u.rejectionReason) :
    Stays d (d.mapRows .lineUser f) lineUserId := fun u hu ↦ by
  obtain ⟨hid, hs, hdel, ha, hr⟩ := hf u hu
  obtain ⟨i, hi, hs', hdel'⟩ := hu
  refine ⟨f u, ⟨i, by rw [Db.mapRows_row_self, hi]; rfl, hs.trans hs', hdel.trans hdel'⟩, ?_⟩
  have hreg : registrationOf (d.mapRows .lineUser f) u.id = registrationOf d u.id :=
    registrationOf_congr (Db.mapRows_row_of_ne (by simp)) fun _ ↦ Db.mapRows_row_of_ne (by simp)
  change StatusResponse.mk (f u).access (registrationOf _ (f u).id) (f u).rejectionReason = _
  rw [hid, ha, hr, hreg]
  rfl

/-- Another user may be changed. -/
theorem setUser_of_ne {id : Cuid} (hne : ∀ u, ActiveUser d lineUserId u → u.id ≠ id)
    {f : LineUser → LineUser} : Stays d (setUser d id f) lineUserId :=
  mapUsers fun u hu ↦ by simp [hne u hu]

/-- The profile of a user may be changed. -/
theorem takeProfile {id : Cuid} {u : LineUser} {claims : LineProfile} :
    Stays d (setUser d id (takeProfile u claims)) lineUserId :=
  mapUsers fun r _ ↦ by split <;> simp [Directory.takeProfile]

theorem addUser {u : LineUser} : Stays d (d.add .lineUser u) lineUserId := fun x hx ↦ by
  obtain ⟨i, hi, hs⟩ := hx
  exact ⟨x, ⟨i, Db.add_row_of_some hi, hs⟩,
    congrArg (StatusResponse.mk x.access · x.rejectionReason)
      (registrationOf_congr (Db.add_row_of_ne (by simp)) fun _ ↦ Db.add_row_of_ne (by simp))⟩

theorem found {s : JsString} {u : LineUser} (h : Found d s u d') : Stays d d' lineUserId := by
  cases h with
  | existing _ => exact fun x hx ↦ ⟨x, hx, rfl⟩
  | created c _ => exact addUser

/-- The registration of another user may be changed. -/
theorem setRegistration {id : Cuid} (hne : ∀ u, ActiveUser d lineUserId u → u.id ≠ id)
    {f : LineUserRegistration → LineUserRegistration} (hf : ∀ q, (f q).lineUserId = q.lineUserId) :
    Stays d (setRegistration d id f) lineUserId := fun u hu ↦
  ⟨u, hu.congr (Db.mapRows_row_of_ne (by simp)),
    congrArg (StatusResponse.mk u.access · u.rejectionReason)
      (registrationOf_setRegistration (hne u hu).symm hf)⟩

/-- Another user may register. -/
theorem enrol {q : LineUserRegistration}
    (hne : ∀ u, ActiveUser d lineUserId u → u.id ≠ q.lineUserId) :
    Stays d (enrol d q) lineUserId := by
  have hadd : Stays d (d.add .registration q) lineUserId := fun u hu ↦
    ⟨u, hu.congr (Db.add_row_of_ne (by simp)),
      congrArg (StatusResponse.mk u.access · u.rejectionReason)
        (registrationOf_add (hne u hu).symm)⟩
  refine hadd.trans (setUser_of_ne fun u hu ↦ hne u ?_)
  exact hu.congr (Db.add_row_of_ne (by simp)).symm

theorem addOption (h : Filed d) {v : Vocabulary} {r : OptionRow} :
    Stays d (d.add (.option v) r) lineUserId := fun u hu ↦
  ⟨u, hu.congr (Db.add_row_of_ne (by simp)),
    congrArg (StatusResponse.mk u.access · u.rejectionReason) (registrationOf_addOption h)⟩

end Stays

/-! ### The invariant -/

/-- **What holds between calls**: an entry is the status of the user that its subject sees. -/
structure Fresh (d : View) : Prop where
  entry : ∀ lineUserId s, Cached d lineUserId s → ∃ u, ActiveUser d lineUserId u ∧ s = statusOf d u
  filed : Filed d

/-- The cached access and reason of the subject are those that are being set. -/
def SetsAsCached (d : View) (lineUserId : JsString) (access : AppAccess)
    (reason : Option JsString) : Prop :=
  ∀ e ∈ d.all .statusCache, StatusEntry.lineUserId e = lineUserId →
    e.status.access = access ∧
      e.status.rejectionReason = if access = .rejected then reason else none

/-- The cached registration of the user is the stored one. -/
def CorrectedAsCached (d : View) (id : Cuid) : Prop :=
  ∀ u ∈ d.all .lineUser, LineUser.id u = id → ∀ e ∈ d.all .statusCache,
    StatusEntry.lineUserId e = u.lineUserId → e.status.registration = registrationOf d id

instance (d : View) (lineUserId : JsString) (access : AppAccess) (reason : Option JsString) :
    Decidable (SetsAsCached d lineUserId access reason) := by
  unfold SetsAsCached
  infer_instance

/-- The serial runs in which a call that fails after its commit leaves behind an entry that agrees:
LINE applies the rich menu, unless the user is cached with the access that is being set, and
`updateRegistrationByAdmin` is not lost after its update, unless the user is cached with it. -/
def inStep : DirectoryTerms where
  call _ op := LineOp op
  may op d q a :=
    match op, q, a with
    | .updateAccess _ access _ reason, .applyRichMenu lineUserId _, applied =>
      applied = true ∨ SetsAsCached d lineUserId access reason
    | _, _, _ => True
  lose op d p _ := ¬ ToRedis p ∧
    match op with
    | .updateRegistrationByAdmin id _ _ => CorrectedAsCached d id
    | _ => True

namespace Fresh

variable {d d' : View}

theorem init : Fresh (Store.init Row).committed :=
  ⟨fun _ _ ⟨_, h⟩ ↦ (nomatch h), fun _ _ h ↦ (nomatch h)⟩

/-- A change that adds no entry and leaves the status of who has one. -/
theorem step (h : Fresh d) (hf : Filed d')
    (hs : ∀ lineUserId s, Cached d' lineUserId s →
      Cached d lineUserId s ∧ Stays d d' lineUserId) : Fresh d' := by
  refine ⟨fun lineUserId s hc ↦ ?_, hf⟩
  obtain ⟨hc', hstays⟩ := hs lineUserId s hc
  obtain ⟨u, hu, rfl⟩ := h.entry lineUserId s hc'
  obtain ⟨u', hu', he⟩ := hstays u hu
  exact ⟨u', hu', he.symm⟩

theorem cached_congr (hc : d'.row .statusCache = d.row .statusCache) {lineUserId : JsString}
    {s : StatusResponse} (h : Cached d' lineUserId s) : Cached d lineUserId s := by
  unfold Cached at h ⊢
  rwa [← hc]

theorem filed_congr (h : Filed d) (hr : d'.row .registration = d.row .registration)
    (ho : ∀ v, d'.row (.option v) = d.row (.option v)) : Filed d' := by
  unfold Filed
  rw [hr, ho, ho]
  exact h

theorem congr (h : Fresh d) (hrow : d'.row = d.row) : Fresh d' :=
  h.step (filed_congr h.filed (by rw [hrow]) fun _ ↦ by rw [hrow]) fun _ _ hc ↦
    ⟨cached_congr (by rw [hrow]) hc, .congr (by rw [hrow]) (by rw [hrow]) fun _ ↦ by rw [hrow]⟩

/-- Users may be changed if the status of who has an entry stays. -/
theorem mapUsers (h : Fresh d) {f : LineUser → LineUser}
    (hs : ∀ lineUserId s, Cached d lineUserId s → Stays d (d.mapRows .lineUser f) lineUserId) :
    Fresh (d.mapRows .lineUser f) := by
  refine h.step (filed_congr h.filed (Db.mapRows_row_of_ne (by simp)) fun _ ↦
    Db.mapRows_row_of_ne (by simp)) fun s x hx ↦ ?_
  have hx' : Cached d s x := cached_congr (Db.mapRows_row_of_ne (by simp)) hx
  exact ⟨hx', hs s x hx'⟩

/-- What is left when an entry is dropped. -/
theorem cached_dropEntry {lineUserId lineUserId' : JsString} {s : StatusResponse}
    (h : Cached (dropEntry d lineUserId) lineUserId' s) :
    lineUserId' ≠ lineUserId ∧ Cached d lineUserId' s := by
  obtain ⟨i, hi⟩ := h
  rw [dropEntry, Db.keepRows_row_self] at hi
  obtain ⟨hi, hne⟩ := Option.filter_eq_some_iff.1 hi
  exact ⟨of_decide_eq_true hne, i, hi⟩

theorem filed_setRegistration (h : Filed d) {id : Cuid} {dto : RegistrationDto} {c : ℤ}
    (hdep : OptionActive d .department dto.departmentId)
    (hrole : OptionActive d .personnelRole dto.personnelRoleId) :
    Filed (setRegistration d id (editRegistration dto c)) := by
  intro i q hi
  rw [setRegistration, Db.mapRows_row_self] at hi
  obtain ⟨r, hr, rfl⟩ := Option.map_eq_some_iff.1 hi
  have ho : ∀ v, (setRegistration d id (editRegistration dto c)).row (.option v) =
      d.row (.option v) := fun v ↦ Db.mapRows_row_of_ne (by simp)
  rw [ho, ho]
  split
  · obtain ⟨j, x, hj, hx, _⟩ := hdep
    obtain ⟨k, y, hk, hy, _⟩ := hrole
    exact ⟨⟨j, x, hj, hx⟩, k, y, hk, hy⟩
  · exact h i r hr

theorem filed_enrol (h : Filed d) {q : LineUserRegistration}
    (hdep : OptionActive d .department q.departmentId)
    (hrole : OptionActive d .personnelRole q.personnelRoleId) : Filed (enrol d q) := by
  intro i x hi
  have hr : (enrol d q).row .registration = (d.add .registration q).row .registration :=
    Db.mapRows_row_of_ne (by simp)
  have ho : ∀ v, (enrol d q).row (.option v) = d.row (.option v) := fun v ↦
    (Db.mapRows_row_of_ne (by simp)).trans (Db.add_row_of_ne (by simp))
  rw [hr] at hi
  rw [ho, ho]
  rcases Db.add_row_eq_some hi with hi' | ⟨_, _, hx⟩
  · exact h i x hi'
  · obtain rfl : x = q := hx
    obtain ⟨j, y, hj, hy, _⟩ := hdep
    obtain ⟨k, z, hk, hz, _⟩ := hrole
    exact ⟨⟨j, y, hj, hy⟩, k, z, hk, hz⟩

theorem filed_addOption (h : Filed d) {v : Vocabulary} {r : OptionRow} :
    Filed (d.add (.option v) r) := by
  intro i q hi
  rw [Db.add_row_of_ne (by simp)] at hi
  have hkeep : ∀ v' id, (∃ j x, d.row (.option v') j = some x ∧ OptionRow.id x = id) →
      ∃ j x, (d.add (.option v) r).row (.option v') j = some x ∧ OptionRow.id x = id := by
    rintro v' id ⟨j, x, hj, hx⟩
    by_cases hv : v' = v
    · subst hv
      exact ⟨j, x, Db.add_row_of_some hj, hx⟩
    · exact ⟨j, x, by rwa [Db.add_row_of_ne (by simp [hv])], hx⟩
  exact ⟨hkeep _ _ (h i q hi).1, hkeep _ _ (h i q hi).2⟩

/-- A change that may show in the status of one subject, whose entry is dropped. -/
theorem drop (h : Fresh d) {d₁ : View} {lineUserId : JsString}
    (hc : d₁.row .statusCache = d.row .statusCache) (hf : Filed d₁)
    (hs : ∀ s, s ≠ lineUserId → Stays d d₁ s) : Fresh (Directory.dropEntry d₁ lineUserId) := by
  have hf' : Filed (Directory.dropEntry d₁ lineUserId) :=
    filed_congr hf (Db.keepRows_row_of_ne (by simp)) fun _ ↦ Db.keepRows_row_of_ne (by simp)
  refine h.step hf' fun s x hx ↦ ?_
  obtain ⟨hne, hx⟩ := cached_dropEntry hx
  exact ⟨cached_congr hc hx, (hs s hne).trans .dropEntry⟩

end Fresh

section Does

variable {d d' : View}

/-- Nobody else is filed under the key of a user. -/
theorem Tidy.id_ne (hd : Tidy d) {s s' : JsString} (hne : s' ≠ s) {i : ℕ} {u : LineUser}
    (hu : d.row .lineUser i = some u) (hs : u.lineUserId = s) {u' : LineUser}
    (hu' : ActiveUser d s' u') : u'.id ≠ u.id := by
  obtain ⟨j, hj, hs', _⟩ := hu'
  intro he
  have hij : j = i := (hd.keyed j u' hj).symm.trans (he.trans (hd.keyed i u hu))
  obtain rfl : u' = u := Option.some.inj ((hij ▸ hj).symm.trans hu)
  exact hne (hs'.symm.trans hs)

/-- The user whose status is answered is the one that the subject sees. -/
theorem Found.synced (hd : Tidy d) {lineUserId : JsString} {u u' : LineUser} {d₁ d₂ : View}
    {profile : Option LineProfile} (h : Found d lineUserId u d₁)
    (hp : d₂ = d₁ ∧ u' = u ∨ ∃ claims, profile = some claims ∧
      d₂ = setUser d₁ u.id (takeProfile u claims) ∧ u' = takeProfile u claims u) :
    ActiveUser d₂ lineUserId u' := by
  obtain ⟨hi, hs, hdel⟩ := h.row hd
  rcases hp with ⟨rfl, rfl⟩ | ⟨claims, _, rfl, rfl⟩
  · exact ⟨_, hi, hs, hdel⟩
  · refine ⟨u.id, ?_, hs, hdel⟩
    rw [setUser, Db.mapRows_row_self, hi]
    simp

/-- The profile of the user that was found may have been taken over. -/
theorem Fresh.profiled (h : Fresh d) {s : JsString} {u : LineUser} {d₁ d₂ : View}
    (hu : Found d s u d₁)
    (hp : d₂ = d₁ ∨ ∃ claims, d₂ = setUser d₁ u.id (takeProfile u claims)) : Fresh d₂ := by
  have hrow : ∀ τ, τ ≠ .lineUser → d₂.row τ = d.row τ := fun τ hτ ↦ by
    rcases hp with rfl | ⟨claims, rfl⟩
    · exact hu.row_of_ne hτ
    · exact (Db.mapRows_row_of_ne hτ).trans (hu.row_of_ne hτ)
  refine h.step (filed_congr h.filed (hrow _ (by simp)) fun _ ↦ hrow _ (by simp))
    fun s' x hc ↦ ⟨cached_congr (hrow _ (by simp)) hc, (Stays.found hu).trans ?_⟩
  rcases hp with rfl | ⟨claims, rfl⟩
  · exact fun x hx ↦ ⟨x, hx, rfl⟩
  · exact .takeProfile

/-- A registration is filed, and the entry of its user dropped. -/
theorem Fresh.registered (hd : Tidy d) (h : Fresh d) {lineUserId : JsString}
    {dto : RegistrationDto} {u : LineUser} {d₁ : View} {c : ℤ} (hu : Found d lineUserId u d₁)
    (hdep : OptionActive d .department dto.departmentId)
    (hrole : OptionActive d .personnelRole dto.personnelRoleId) :
    Fresh (Directory.dropEntry (enrol d₁ (newRegistration u.id dto c d₁.next)) lineUserId) := by
  have hd₁ := hd.found hu
  have hfiled : Filed d₁ :=
    filed_congr h.filed (hu.row_of_ne (by simp)) fun _ ↦ hu.row_of_ne (by simp)
  have hcache : (enrol d₁ (newRegistration u.id dto c d₁.next)).row .statusCache =
      d.row .statusCache :=
    ((Db.mapRows_row_of_ne (by simp)).trans (Db.add_row_of_ne (by simp))).trans
      (hu.row_of_ne (by simp))
  refine h.drop hcache (filed_enrol hfiled (hu.optionActive.2 hdep) (hu.optionActive.2 hrole))
    fun s' hne ↦ (Stays.found hu).trans (.enrol fun x hx ↦ ?_)
  exact hd₁.id_ne hne (hu.row hd).1 (hu.row hd).2.1 hx

/-- A registration is edited by its user, whose entry is dropped. -/
theorem Fresh.edited (hd : Tidy d) (h : Fresh d) {lineUserId : JsString} {dto : RegistrationDto}
    {u : LineUser} {c : ℤ} (hu : ActiveUser d lineUserId u)
    (hdep : OptionActive d .department dto.departmentId)
    (hrole : OptionActive d .personnelRole dto.personnelRoleId) :
    Fresh (Directory.dropEntry (resubmit d u dto c) lineUserId) := by
  obtain ⟨i, hi, hs, _⟩ := hu
  have hfiled : Filed (setRegistration d u.id (editRegistration dto c)) :=
    filed_setRegistration h.filed hdep hrole
  have hstays : ∀ s', s' ≠ lineUserId →
      Stays d (setRegistration d u.id (editRegistration dto c)) s' := fun s' hne ↦
    .setRegistration (fun _ hx ↦ hd.id_ne hne hi hs hx) fun _ ↦ rfl
  unfold resubmit
  split
  · refine h.drop ((Db.mapRows_row_of_ne (by simp)).trans (Db.mapRows_row_of_ne (by simp)))
      (filed_congr hfiled (Db.mapRows_row_of_ne (by simp)) fun _ ↦
        Db.mapRows_row_of_ne (by simp)) fun s' hne ↦ (hstays s' hne).trans ?_
    refine .setUser_of_ne fun x hx ↦ hd.id_ne hne hi hs (hx.congr ?_)
    exact (Db.mapRows_row_of_ne (by simp)).symm
  · exact h.drop (Db.mapRows_row_of_ne (by simp)) hfiled hstays

/-- A status is answered and stored. -/
theorem Fresh.answered (hd : Tidy d) (h : Fresh d) {lineUserId : JsString}
    {profile : Option LineProfile} {u u' : LineUser} {d₁ d₂ : View} (hu : Found d lineUserId u d₁)
    (hp : d₂ = d₁ ∧ u' = u ∨ ∃ claims, profile = some claims ∧
      d₂ = setUser d₁ u.id (takeProfile u claims) ∧ u' = takeProfile u claims u) :
    Fresh (storeEntry d₂ lineUserId (statusOf d₂ u')) := by
  have hp' : d₂ = d₁ ∨ ∃ claims, d₂ = setUser d₁ u.id (takeProfile u claims) := by
    rcases hp with ⟨rfl, _⟩ | ⟨claims, _, rfl, _⟩
    · exact .inl rfl
    · exact .inr ⟨claims, rfl⟩
  have hfresh : Fresh d₂ := h.profiled hu hp'
  have hrow : ∀ τ, τ ≠ .statusCache →
      (storeEntry d₂ lineUserId (statusOf d₂ u')).row τ = d₂.row τ := fun τ hτ ↦
    (Db.add_row_of_ne hτ).trans (Db.keepRows_row_of_ne hτ)
  refine ⟨fun s x hx ↦ ?_, filed_congr hfresh.filed (hrow _ (by simp)) fun _ ↦
    hrow _ (by simp)⟩
  have hstays : ∀ s, Stays d₂ (storeEntry d₂ lineUserId (statusOf d₂ u')) s := fun _ ↦ .storeEntry
  obtain ⟨i, hi⟩ := hx
  rcases Db.add_row_eq_some hi with hi' | ⟨_, _, he⟩
  · -- an entry of before
    obtain ⟨_, hx⟩ := cached_dropEntry ⟨i, hi'⟩
    obtain ⟨v, hv, rfl⟩ := hfresh.entry s x hx
    obtain ⟨v', hv', hs⟩ := hstays s v hv
    exact ⟨v', hv', hs.symm⟩
  · obtain ⟨rfl, rfl⟩ := StatusEntry.mk.inj he
    obtain ⟨v', hv', hs⟩ := hstays s u' (hu.synced hd hp)
    exact ⟨v', hv', hs.symm⟩

/-- The access of a user who has left is set: the subject does not see that row. -/
theorem Fresh.accessSetUnseen (hd : Tidy d) (h : Fresh d) {f : LineUser → LineUser} {i : ℕ}
    {u : LineUser} (hu : d.row .lineUser i = some u) (hdel : u.deletedAt ≠ none) :
    Fresh (setUser d u.id f) := by
  refine h.mapUsers fun s x hx ↦ .setUser_of_ne fun v hv ↦ ?_
  obtain ⟨j, hj, hs, hdel'⟩ := hv
  intro he
  have hij : j = i := by rw [← hd.keyed j v hj, ← hd.keyed i u hu, he]
  obtain rfl : v = u := Option.some.inj ((hij ▸ hj).symm.trans hu)
  exact hdel hdel'

/-- The access is set and the entry stays: what it has is what is being set. -/
theorem Fresh.menuNotApplied (hd : Tidy d) (h : Fresh d) {access : AppAccess}
    {reason : Option JsString} {i : ℕ} {u : LineUser} {d₁ : View}
    (hu : d.row .lineUser i = some u) (hdel : u.deletedAt = none)
    (hrow : d₁.row = (setUser d u.id (setAccess access reason)).row)
    (hset : SetsAsCached d₁ u.lineUserId access reason) :
    Fresh (setUser d u.id (setAccess access reason)) := by
  refine h.mapUsers fun s x hx ↦ ?_
  by_cases hs : s = u.lineUserId
  · subst hs
    obtain ⟨v, hv, rfl⟩ := h.entry _ _ hx
    obtain rfl : v = u := hd.active_unique hv ⟨i, hu, rfl, hdel⟩
    obtain ⟨j, hj⟩ := hx
    have hj' : d₁.row .statusCache j = some ⟨v.lineUserId, statusOf d v⟩ := by
      rw [hrow, setUser, Db.mapRows_row_of_ne (by simp), hj]
    obtain ⟨haccess, hreason⟩ := hset _ (Db.mem_all.2 ⟨j, hj'⟩) rfl
    refine .mapUsers fun v' hv' ↦ ?_
    obtain rfl := hd.active_unique hv hv'
    rw [if_pos rfl]
    exact ⟨rfl, rfl, rfl, haccess.symm, hreason.symm⟩
  · exact .setUser_of_ne fun _ hv ↦ hd.id_ne hs hu rfl hv

/-- A registration is corrected and the entry stays: what it has is what is stored now. -/
theorem Fresh.correctedUnread (hd : Tidy d) (h : Fresh d) {dto : RegistrationDto} {i : ℕ}
    {u : LineUser} {c : ℤ} {d₁ : View} (hu : d.row .lineUser i = some u)
    (hdep : OptionActive d .department dto.departmentId)
    (hrole : OptionActive d .personnelRole dto.personnelRoleId)
    (hrow : d₁.row = (setRegistration d u.id (editRegistration dto c)).row)
    (hcached : CorrectedAsCached d₁ u.id) :
    Fresh (setRegistration d u.id (editRegistration dto c)) := by
  have hcache : (setRegistration d u.id (editRegistration dto c)).row .statusCache =
      d.row .statusCache := Db.mapRows_row_of_ne (by simp)
  refine h.step (filed_setRegistration h.filed hdep hrole) fun s x hx ↦ ?_
  have hx' : Cached d s x := cached_congr hcache hx
  refine ⟨hx', ?_⟩
  by_cases hs : s = u.lineUserId
  · subst hs
    obtain ⟨v, hv, rfl⟩ := h.entry _ _ hx'
    obtain rfl : v = u := by
      obtain ⟨k, hk, hsub, _⟩ := hv
      exact hd.subject hk hu hsub
    obtain ⟨j, hj⟩ := hx
    have hi : d₁.row .lineUser i = some v := by
      rw [hrow, setRegistration, Db.mapRows_row_of_ne (by simp), hu]
    have hreg : registrationOf d v.id = registrationOf d₁ v.id :=
      hcached v (Db.mem_all.2 ⟨i, hi⟩) rfl _ (Db.mem_all.2 ⟨j, by rw [hrow]; exact hj⟩) rfl
    intro v' hv'
    obtain rfl := hd.active_unique hv hv'
    refine ⟨v, hv.congr (Db.mapRows_row_of_ne (by simp)), ?_⟩
    have hreg' : registrationOf (setRegistration d v.id (editRegistration dto c)) v.id =
        registrationOf d v.id := by
      rw [hreg]
      exact (registrationOf_congr (by rw [hrow]) fun _ ↦ by rw [hrow]).symm
    exact congrArg (StatusResponse.mk v.access · v.rejectionReason) hreg'
  · exact .setRegistration (fun _ hv ↦ hd.id_ne hs hu rfl hv) fun _ ↦ rfl

/-- **The calls keep the cache fresh.** -/
theorem Does.fresh {op : Op} {r : Except DirectoryError Reply} {d d' : View} (hd : Tidy d)
    (h : Fresh d) (hr : Does inStep d op r d') : Fresh d' := by
  cases hr with
  | lost _ _ _ hrow => exact h.congr hrow
  | refused _ hrow => exact h.congr hrow
  | followed _ hs =>
    refine h.drop (Db.mapRows_row_of_ne (by simp)) (Fresh.filed_congr h.filed
      (Db.mapRows_row_of_ne (by simp)) fun _ ↦ Db.mapRows_row_of_ne (by simp)) fun s' hne ↦ ?_
    refine .mapUsers fun u hu ↦ ?_
    obtain ⟨_, _, hs', _⟩ := hu
    have hu' : u.lineUserId ≠ _ := fun he ↦ hne (hs'.symm.trans he)
    rw [if_neg hu']
    exact ⟨rfl, rfl, rfl, rfl, rfl⟩
  | joined _ =>
    exact h.drop (Db.add_row_of_ne (by simp)) (Fresh.filed_congr h.filed
      (Db.add_row_of_ne (by simp)) fun _ ↦ Db.add_row_of_ne (by simp)) fun s' _ ↦ .addUser
  | stranger _ => exact h
  | unfollowed hu =>
    obtain ⟨i, hi, hs, _⟩ := hu
    exact h.drop (Db.mapRows_row_of_ne (by simp)) (Fresh.filed_congr h.filed
      (Db.mapRows_row_of_ne (by simp)) fun _ ↦ Db.mapRows_row_of_ne (by simp)) fun s' hne ↦
        .setUser_of_ne fun _ hx ↦ hd.id_ne hne hi hs hx
  | registered hu _ hdep hrole _ => exact h.registered hd hu hdep hrole
  | edited hu _ hdep hrole _ => exact h.edited hd hu hdep hrole
  | cached _ => exact h
  | answered _ hu hp => exact h.answered hd hu hp
  | unanswered hu hp _ _ _ hrow => exact (h.profiled hu hp).congr hrow
  | patched hu _ hrow =>
    have hrow' : ∀ τ, τ ≠ .settings → τ ≠ .lineUser → d'.row τ = d.row τ := fun τ hτ hτ' ↦
      (hrow τ hτ).trans (hu.row_of_ne hτ')
    refine h.step (Fresh.filed_congr h.filed (hrow' _ (by simp) (by simp)) fun _ ↦
      hrow' _ (by simp) (by simp)) fun s x hx ↦
        ⟨Fresh.cached_congr (hrow' _ (by simp) (by simp)) hx, (Stays.found hu).trans ?_⟩
    exact .congr (hrow _ (by simp)) (hrow _ (by simp)) fun _ ↦ hrow _ (by simp)
  | unpatched hu _ _ _ hrow => exact (h.profiled hu (.inl rfl)).congr hrow
  | accessSetUnseen hu hid hdel _ =>
    subst hid
    exact h.accessSetUnseen hd hu hdel
  | menuNotApplied hu hid hdel _ hrow hmay =>
    subst hid
    exact h.menuNotApplied hd hu hdel hrow (hmay.resolve_left (by simp))
  | accessSet hu hid hdel _ =>
    subst hid
    exact h.drop (Db.mapRows_row_of_ne (by simp)) (Fresh.filed_congr h.filed
      (Db.mapRows_row_of_ne (by simp)) fun _ ↦ Db.mapRows_row_of_ne (by simp)) fun s hne ↦
        .setUser_of_ne fun _ hx ↦ hd.id_ne hne hu rfl hx
  | corrected hu hid hdep hrole =>
    subst hid
    exact h.drop (Db.mapRows_row_of_ne (by simp)) (Fresh.filed_setRegistration h.filed hdep hrole)
      fun s hne ↦ .setRegistration (fun _ hx ↦ hd.id_ne hne hu rfl hx) fun _ ↦ rfl
  | correctedUnread hu hid hdep hrole _ hrow₁ hl hrow =>
    subst hid
    exact (h.correctedUnread hd hu hdep hrole hrow₁ hl.2).congr hrow
  | optionCreated _ =>
    exact h.step (Fresh.filed_addOption h.filed) fun s x hx ↦
      ⟨Fresh.cached_congr (Db.add_row_of_ne (by simp)) hx, .addOption h.filed⟩

/-- The subject that sees `u` is answered its status. -/
theorem answers_statusOf (hd : Tidy d) {lineUserId : JsString} {u : LineUser}
    (hu : ActiveUser d lineUserId u) (hno : ∀ s, ¬ Cached d lineUserId s) :
    Answers d lineUserId (statusOf d u) := by
  intro profile t cur w r hsv hr
  have hop : LineOp (.getStatus lineUserId profile) := trivial
  have hdoes := (served_does redisUp_undisturbed (World.quiet_holding d) hd hop hsv hr).2
  rw [show (World.holding d : DirectoryWorld).store.committed = d from rfl] at hdoes
  generalize w.store.committed = d' at hdoes
  cases hdoes with
  | lost _ _ hl _ => exact hl.elim
  | refused h _ =>
    cases h with
    | statusGone hgone _ _ => exact absurd hu (hgone u)
  | cached hc => exact absurd hc (hno _)
  | unanswered _ _ _ _ hl _ => exact hl.elim
  | @answered _ _ v d₁ d₂ u' _ hf hp =>
    have hstays : Stays d d₂ lineUserId := by
      refine (Stays.found hf).trans ?_
      rcases hp with ⟨rfl, _⟩ | ⟨claims, _, rfl, _⟩
      · exact fun x hx ↦ ⟨x, hx, rfl⟩
      · exact .takeProfile
    have hd₂ : Tidy d₂ := by
      rcases hp with ⟨rfl, _⟩ | ⟨claims, _, rfl, _⟩
      · exact hd.found hf
      · exact (hd.found hf).setUser fun _ ↦ ⟨rfl, rfl⟩
    obtain ⟨x, hx, hs⟩ := hstays u hu
    rw [hd₂.active_unique (hf.synced hd hp) hx, hs]

theorem Fresh.coherent (hd : Tidy d) (h : Fresh d) : Coherent d := by
  intro lineUserId s hc
  obtain ⟨u, hu, rfl⟩ := h.entry lineUserId s hc
  obtain ⟨u', hu', hs⟩ := (Stays.dropEntry (s := lineUserId)) u hu
  rw [← hs]
  exact answers_statusOf hd.dropEntry hu' fun _ hc ↦ (Fresh.cached_dropEntry hc).1 rfl

end Does

theorem redisUp_inStep : RedisUp inStep := fun _ _ _ _ h ↦ h.1

instance (d : View) (op : Op) : Decidable (inStep.call d op) :=
  inferInstanceAs (Decidable (LineOp op))

instance (op : Op) (d : View) (q : Ask) (a : Ans q) : Decidable (inStep.may op d q a) := by
  unfold inStep
  dsimp only
  induction op using Op.casesOn with
  | updateAccess => induction q using Ask.casesOn <;> infer_instance
  | _ => infer_instance

/-- **Between the calls of such a run the cache is coherent.** -/
theorem statusCache_coherent {w : DirectoryWorld} (h : directory.Serial inStep w) :
    Coherent w.store.committed := by
  obtain ⟨_, hd, hfresh⟩ := serial_invariant redisUp_inStep (fun _ _ h ↦ h) Fresh.init
    (fun _ _ _ _ hd hJ _ hr ↦ hr.fresh hd hJ) h
  exact hfresh.coherent hd

namespace Sample

/-- A user registers and asks for its status. -/
def asked : List Op :=
  [.createOption .department [], .createOption .personnelRole [], .register [] registration,
    .getStatus [] none]

/-- LINE never applies a rich menu. -/
def unapplied : ∀ q, Ans q
  | .applyRichMenu _ _ => false
  | q => oracle q

/-- The user of key 2 is approved. -/
def approval : Op := .updateAccess 2 .allowed ⟨0, .admin⟩ none

end Sample

/-- A user is approved and asks for its status again. -/
theorem statusCache_coherent_approved :
    ((served inStep (Sample.calls (Sample.asked ++ [Sample.approval, .getStatus [] none])))
      |>.store.committed.all .statusCache).map (fun e ↦ e.status.access) = [.allowed] ∧
    Coherent (served inStep (Sample.calls
      (Sample.asked ++ [Sample.approval, .getStatus [] none]))).store.committed :=
  ⟨by decide +kernel, statusCache_coherent (serial_served inStep _)⟩

/-- `getStatus`, made when the rows are those of `d`, answers a status with this access. -/
private def answersAccess (d : View) (lineUserId : JsString) (access : AppAccess) : Bool :=
  ((directory.step (.call 0 (.getStatus lineUserId none)) (World.holding d)).bind
    (directory.serve undisturbed 0 (.getStatus lineUserId none) Sample.oracle 40)).any fun w ↦
      match w.result 0 with
      | some (.ok (.status s)) => decide (s.access = access)
      | _ => false

private theorem access_of_answers {d : View} {lineUserId : JsString} {s : StatusResponse}
    {access : AppAccess} (h : Answers d lineUserId s)
    (ha : answersAccess d lineUserId access = true) : s.access = access := by
  obtain ⟨w, hw, hp⟩ := (Option.any_eq_true _ _).1 ha
  obtain ⟨w₁, hs, hsv⟩ := Option.bind_eq_some_iff.1 hw
  obtain ⟨cur, r, hsv, _⟩ := System.Serving.serve (.call hs) hsv
  split at hp
  · next s' hr =>
    obtain rfl : s' = s := Reply.status.inj (Except.ok.inj (h none 0 cur w _ hsv hr))
    exact of_decide_eq_true hp
  · cases hp

/-- **A rich menu that is not applied leaves a stale status behind**: the user is approved, and the
cache goes on answering that it is pending. -/
theorem statusCache_coherent_unapplied :
    ∃ w, directory.Serial lineCalls w ∧
      (w.store.committed.all .lineUser).map LineUser.access = [.allowed] ∧
      (w.store.committed.all .statusCache).map (fun e ↦ e.status.access) = [.pending] ∧
      ¬ Coherent w.store.committed := by
  refine ⟨served lineCalls (Sample.calls Sample.asked ++ [(Sample.approval, Sample.unapplied)]),
    serial_served lineCalls _, by decide +kernel, by decide +kernel, fun h ↦ ?_⟩
  obtain ⟨e, he, hp⟩ : ∃ e, (served lineCalls (Sample.calls Sample.asked ++
      [(Sample.approval, Sample.unapplied)])).store.committed.row .statusCache 4 = some e ∧
      decide (StatusEntry.lineUserId e = [] ∧ e.status.access = .pending) = true :=
    (Option.any_eq_true _ _).1 (by decide +kernel)
  obtain ⟨subject, s⟩ := e
  obtain ⟨rfl, hpending⟩ := of_decide_eq_true hp
  have hallowed : s.access = .allowed := access_of_answers (h [] s ⟨4, he⟩) (by decide +kernel)
  cases hpending.symm.trans hallowed

end EasyBook.Directory

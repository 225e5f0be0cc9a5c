import EasyBook.Directory.System
import EasyBook.ReadCommitted.Frame

/-!
# What each call does to rows

`Op.effect` and `Op.inserts` say for every table what a call may make of a row and which rows it may
insert, whatever it has read. `service_obeys` is the one lemma that reads this off the services;
every law of the directory is then a statement about these two relations, and only where a law
depends on what a transaction has read is its program looked at again.
-/

namespace EasyBook.Directory

open ReadCommitted ReadCommitted.Prog

/-- What a call may make of a row. -/
def Op.effect (op : Op) : ∀ τ, Row τ → Option (Row τ) → Prop
  | .option v, r, x =>
    match op with
    | .updateOption v' id name => v = v' ∧ r.id = id ∧ x = some { r with name := name }
    | .softDeleteOption model id =>
      v = model.vocabulary ∧ r.id = id ∧ ∃ c, x = some { r with deletedAt := some c }
    | .softDeleteVenueType _ => v = .venueType ∧ ∃ c, x = some { r with deletedAt := some c }
    | _ => False
  | .lineUser, r, x =>
    match op with
    | .upsertOnFollow lineUserId profile => r.lineUserId = lineUserId ∧ ∃ c, x = some { r with
        displayName := profile.displayName
        pictureUrl := profile.pictureUrl
        statusMessage := profile.statusMessage
        language := profile.language
        deletedAt := none
        followedAt := c }
    | .softDeleteByLineUserId _ => r.deletedAt = none ∧ ∃ c, x = some { r with deletedAt := some c }
    | .register .. => ∃ c, x = some { r with access := .pending, registeredAt := some c }
    | .updateRegistration .. => x = some { r with access := .pending, rejectionReason := none }
    | .getStatus .. => ∃ n p, x = some { r with displayName := n, pictureUrl := p }
    | .updateAccess id access _ reason =>
      r.id = id ∧ (access = .rejected → reason.getD [] ≠ []) ∧
        x = some (setAccess access reason r)
    | _ => False
  | .registration, r, x =>
    match op with
    | .updateRegistration _ dto => ∃ c, x = some (editRegistration dto c r)
    | .updateRegistrationByAdmin id dto _ =>
      r.lineUserId = id ∧ ∃ c, x = some (editRegistration dto c r)
    | .softDeleteOption model id => r.option model = id ∧ ∃ f, x = some (r.setOption model f)
    | _ => False
  | .settings, r, x =>
    match op with
    | .patchSettings _ dto => ∃ existing c, x = some { r with
        theme := mergedTheme existing dto
        notifications := fun key ↦ some (mergedNotifications existing dto key)
        updatedAt := c }
    | _ => False
  | .systemUser, r, x =>
    match op with
    | .updateSystemUser _ id patch => r.id = id ∧ x = some (applyPatch patch r)
    | .softDeleteSystemUser _ id => r.id = id ∧ ∃ c, x = some { r with deletedAt := some c }
    | .restoreSystemUser id => r.id = id ∧ x = some { r with deletedAt := none }
    | .resetPassword _ id => r.id = id ∧ ∃ digest,
        x = some { r with passwordHash := digest, mustChangePassword := true }
    | .changeOwnPassword _ _ newPassword => ∃ salt,
        x = some { r with passwordHash := ⟨newPassword, salt⟩, mustChangePassword := false }
    | .createSuperAdmin credentials _ => r.email = credentials.email ∧ ∃ salt d p, x = some { r with
        passwordHash := ⟨credentials.password, salt⟩
        departmentId := d
        personnelRoleId := p
        mustChangePassword := false
        isActive := true
        deletedAt := none }
    | .softDeleteOption model id => r.option model = id ∧ ∃ f, x = some (r.setOption model f)
    | _ => False
  | .venue, r, x =>
    match op with
    | .updateVenue id dto => r.id = id ∧ x = some (editVenue dto r)
    | .softDeleteVenue id => r.id = id ∧ ∃ c, x = some { r with deletedAt := some c }
    | .softDeleteVenueType _ => ∃ f, x = some { r with venueTypeId := f }
    | _ => False
  | .statusCache, _, x => x = none

/-- Which rows a call may insert, under the fresh key `i`. -/
def Op.inserts (op : Op) : ∀ τ, ℕ → Row τ → Prop
  | .option v, i, r =>
    match op with
    | .createOption v' name => v = v' ∧ r = newOption name false i
    | .createSuperAdmin .. =>
      (v = .department ∨ v = .personnelRole) ∧
        (r = newOption (reservedName v) true i ∨ r = newOption (tombstoneName v) true i)
    | .softDeleteVenueType _ => v = .venueType ∧ r = newOption (tombstoneName v) true i
    | _ => False
  | .lineUser, i, r =>
    match op with
    | .upsertOnFollow lineUserId profile => ∃ c, r = { newLineUser lineUserId c i with
        displayName := profile.displayName
        pictureUrl := profile.pictureUrl
        statusMessage := profile.statusMessage
        language := profile.language }
    | .register lineUserId _ => ∃ c, r = newLineUser lineUserId c i
    | .getStatus lineUserId _ => ∃ c, r = newLineUser lineUserId c i
    | .patchSettings lineUserId _ => ∃ c, r = newLineUser lineUserId c i
    | _ => False
  | .registration, i, r =>
    match op with
    | .register _ dto => ∃ userId c, r = newRegistration userId dto c i
    | _ => False
  | .settings, i, r =>
    match op with
    | .patchSettings _ dto => ∃ userId existing c, r =
        { id := i
          lineUserId := userId
          theme := mergedTheme existing dto
          notifications := fun key ↦ some (mergedNotifications existing dto key)
          updatedAt := c }
    | _ => False
  | .systemUser, i, r =>
    match op with
    | .createSystemUser actor dto => ∃ digest, r = newSystemUser actor dto digest i
    | .createSuperAdmin credentials _ => ∃ digest d p, r =
        { id := i
          email := credentials.email
          passwordHash := digest
          firstName := credentials.firstName
          lastName := credentials.lastName
          role := .superAdmin
          mustChangePassword := false
          departmentId := d
          personnelRoleId := p
          phoneNumber := none
          profilePictureUrl := none
          isActive := true
          deletedAt := none
          createdById := none }
    | _ => False
  | .venue, i, r =>
    match op with
    | .createVenue dto => r = newVenue dto i
    | _ => False
  | .statusCache, _, _ => True

/-- The transactions of a call do what it may. -/
abbrev Tx.Does {α : Type} (op : Op) (p : Tx α) : Prop := p.Obeys op.effect op.inserts

/-- So does the call. -/
abbrev Call.Does (op : Op) (s : Call) : Prop := s.Obeys op.effect op.inserts

/-! ### Statements -/

section Statements

variable {α : Type} {op : Op}

/-- A read changes no row; what follows it may use that the row found satisfies the condition. -/
theorem does_findFirst_bind {τ : Tab} {p : Row τ → Bool} {f : Option (Row τ) → Tx α}
    (h : ∀ o, (∀ r, o = some r → p r = true) → Tx.Does op (f o)) :
    Tx.Does op (findFirst τ p >>= f) :=
  fun _ ↦ h _ fun _ hr ↦ List.find?_some hr

/-- An update of one row obeys as soon as the new value is one the call may give to every row of its
condition: which of them is found does not matter. -/
theorem does_updateOne {τ : Tab} {p : Row τ → Bool} {set : ℤ → Row τ → Row τ}
    (h : ∀ c r, p r = true → op.effect τ r (some (set c r))) : Tx.Does op (updateOne τ p set) := by
  refine Obeys.bind (obeys_update fun c r r' hr ↦ ?_) fun rows ↦ ?_
  · split at hr
    · next hp =>
      obtain rfl := Option.some.inj hr
      exact h c r hp
    · cases hr
  · cases rows <;> trivial

/-- The same for an update of all rows of a condition. -/
theorem does_updateMany {τ : Tab} {p : Row τ → Bool} {set : ℤ → Row τ → Row τ}
    (h : ∀ c r, p r = true → op.effect τ r (some (set c r))) :
    Tx.Does op (updateMany τ p set) := by
  refine Obeys.bind (obeys_update fun c r r' hr ↦ ?_) fun rows ↦ trivial
  split at hr
  · next hp =>
    obtain rfl := Option.some.inj hr
    exact h c r hp
  · cases hr

/-- An upsert obeys when both of its branches do, the update of a row found and the insert of a new
one. -/
theorem does_upsert {τ : Tab} {p : Row τ → Bool} {set : ℤ → Row τ → Row τ} {new : ℤ → ℕ → Row τ}
    (h : ∀ c r, p r = true → op.effect τ r (some (set c r)))
    (hn : ∀ c i, op.inserts τ i (new c i)) :
    Tx.Does op (upsert τ p set new) := by
  refine Obeys.bind (obeys_update fun c r r' hr ↦ ?_) fun rows ↦ ?_
  · split at hr
    · next hp =>
      obtain rfl := Option.some.inj hr
      exact h c r hp
    · cases hr
  · cases rows with
    | nil => exact obeys_create hn
    | cons r l => trivial

/-- `redis.del` of a status takes an entry away, which every call may do. -/
theorem does_dropStatus (s : JsString) : Tx.Does op (dropStatus s) := by
  refine ⟨fun _ _ r x hx ↦ ?_, fun _ ↦ trivial⟩
  dsimp only at hx
  split at hx
  · exact (Option.some.inj hx).symm
  · cases hx

/-- The drop of a status at a call's end, after its transaction. -/
theorem does_dropThen (s : JsString) (reply : Reply) : Call.Does op (dropThen s reply) :=
  ⟨does_dropStatus s, fun _ ↦ trivial⟩

/-- `redis.set` of a status: an entry is written over, and no row of the database is touched. -/
theorem does_storeStatus (s : JsString) (status : StatusResponse) :
    Tx.Does op (storeStatus s status) := by
  refine ⟨fun _ _ r x hx ↦ ?_, fun _ ↦ ⟨fun _ _ ↦ trivial, fun _ ↦ trivial⟩⟩
  dsimp only at hx
  split at hx
  · exact (Option.some.inj hx).symm
  · cases hx

/-- The row of a LINE user that is read or created: only the new row has to be one the call may
insert. -/
theorem does_getOrCreate {s : JsString} (h : ∀ c i, op.inserts .lineUser i (newLineUser s c i)) :
    Tx.Does op (getOrCreateByLineUserId s) :=
  does_findFirst_bind fun existing _ ↦ by
    cases existing with
    | none => exact obeys_create h
    | some r => trivial

/-- The check of a registration's two options only reads. -/
theorem does_assertActiveOptions (d r : Cuid) : Tx.Does op (assertActiveOptions d r) :=
  does_findFirst_bind fun _ _ ↦ does_findFirst_bind fun _ _ ↦
    .require fun _ _ ↦ .require fun _ _ ↦ trivial

/-- What follows a verdict runs only where nothing was refused. -/
theorem does_permit_bind {v : Option Refusal} {f : Unit → Tx α}
    (h : v = none → Tx.Does op (f ())) : Tx.Does op (permit v >>= f) := by
  cases v with
  | none => exact h rfl
  | some e => trivial

/-- What follows the read of an account is about the account of the id asked for. -/
theorem does_findActiveSystemUser_bind {id : Cuid} {f : SystemUser → Tx α}
    (h : ∀ r : SystemUser, r.id = id → Tx.Does op (f r)) :
    Tx.Does op (findActiveSystemUser id >>= f) := by
  change Tx.Does op ((Prog.bind _ _).bind f)
  rw [Prog.bind_assoc]
  refine does_findFirst_bind fun o ho ↦ .require fun r hr ↦ h r ?_
  have := ho r hr
  simp only [Bool.and_eq_true, decide_eq_true_eq] at this
  exact this.1

/-- The check of one option only reads. -/
theorem does_assertAssignable (v : Vocabulary) (id : Option Cuid) (b : Bool) (e : Refusal) :
    Tx.Does op (assertAssignable v id b e) := by
  cases id with
  | none => trivial
  | some id => exact does_findFirst_bind fun _ _ ↦ .require fun _ _ ↦ trivial

/-- The check of a patch's two options only reads. -/
theorem does_assertOptionsAssignable (d r : Option Cuid) (b : Bool) :
    Tx.Does op (assertOptionsAssignable d r b) :=
  Obeys.bind (does_assertAssignable _ _ _ _) fun _ ↦ does_assertAssignable _ _ _ _

/-- The count of the remaining SUPER_ADMINs only reads. -/
theorem does_assertActiveSuperAdminRemains : Tx.Does op assertActiveSuperAdminRemains :=
  Obeys.bind (obeys_query _) fun _ ↦ obeys_refuse _ _

/-- A reserved option that is found or made under its reserved name. -/
theorem does_findOrCreateReserved {v : Vocabulary} {name : JsString}
    (h : ∀ i, op.inserts (.option v) i (newOption name true i)) :
    Tx.Does op (findOrCreateReserved v name) :=
  does_findFirst_bind fun existing _ ↦ by
    cases existing with
    | none => exact Obeys.bind (obeys_create fun _ ↦ h) fun _ ↦ trivial
    | some r => trivial

/-- What follows the read of an option that may be edited is about the option of that id, and it is
not a reserved one. -/
theorem does_findEditableOption_bind {v : Vocabulary} {id : Cuid} {f : OptionRow → Tx α}
    (h : ∀ r : OptionRow, r.id = id → r.isSystemReserved = false → Tx.Does op (f r)) :
    Tx.Does op (findEditableOption v id >>= f) := by
  change Tx.Does op ((Prog.bind _ _).bind f)
  rw [Prog.bind_assoc]
  refine does_findFirst_bind fun o ho ↦ .require fun r hr ↦ ?_
  have hp := ho r hr
  simp only [Bool.and_eq_true, decide_eq_true_eq, Bool.not_eq_true'] at hp
  exact h r hp.1.1 hp.2

/-- What follows the read of a venue is about the venue of the id asked for. -/
theorem does_findActiveVenue_bind {id : Cuid} {f : Venue → Tx α}
    (h : ∀ r : Venue, r.id = id → Tx.Does op (f r)) :
    Tx.Does op (findActiveVenue id >>= f) := by
  change Tx.Does op ((Prog.bind _ _).bind f)
  rw [Prog.bind_assoc]
  refine does_findFirst_bind fun o ho ↦ .require fun r hr ↦ h r ?_
  have := ho r hr
  simp only [Bool.and_eq_true, decide_eq_true_eq] at this
  exact this.1

/-- The check of a venue's type only reads. -/
theorem does_assertAssignableVenueType (id : Cuid) :
    Tx.Does op (assertAssignableVenueType id) :=
  does_findFirst_bind fun _ _ ↦ .require fun _ _ ↦ trivial

/-- The check of a venue's amenities only reads, one of them after the other. -/
theorem does_assertActiveAmenities (ids : List ℤ) : Tx.Does op (assertActiveAmenities ids) := by
  unfold assertActiveAmenities
  split
  · exact Obeys.bind (obeys_inquire _) fun _ ↦ obeys_refuse _ _
  · trivial

/-- The upsert and its second attempt after a P2002 obey when one attempt does. -/
theorem does_attemptUpsert {p : Tx Reply} {k : Except DirectoryError Reply → Call}
    (hp : Tx.Does op p) (hk : ∀ r, Call.Does op (k r)) : Call.Does op (attemptUpsert p k) := by
  refine ⟨hp, fun r ↦ ?_⟩
  dsimp only
  split
  · exact ⟨hp, hk⟩
  · exact hk _

/-- A call that ends touches nothing. -/
theorem does_finish (f : DirectoryError → DirectoryError) (r : Except DirectoryError Reply) :
    Call.Does op (finish f r) := by
  cases r <;> trivial

/-- The notice of an access change is sent, whatever comes of it, before the call goes on. -/
theorem does_notifyAccessChange {k : Call} (hk : Call.Does op k) (s : JsString) (a : AppAccess) :
    Call.Does op (notifyAccessChange s a k) := by
  unfold notifyAccessChange
  split
  · exact hk
  · exact fun _ ↦ hk

/-- The option a call falls back to, and the new one where none of that name is there. -/
theorem does_resolveOrCreateReserved {v : Vocabulary} {name : JsString} {k : Cuid → Call}
    (h : ∀ i, op.inserts (.option v) i (newOption name true i)) (hk : ∀ id, Call.Does op (k id)) :
    Call.Does op (resolveOrCreateReserved v name k) := by
  refine ⟨does_findOrCreateReserved h, fun r ↦ ?_⟩
  dsimp only
  split
  · exact hk _
  · trivial
  · trivial

/-- The venue type that takes the venues of a removed one, with its second attempt. -/
theorem does_resolveTombstoneId {k : Cuid → Call}
    (h : ∀ i, op.inserts (.option .venueType) i (newOption (tombstoneName .venueType) true i))
    (hk : ∀ id, Call.Does op (k id)) : Call.Does op (resolveTombstoneId k) := by
  refine ⟨does_findOrCreateReserved h, fun r ↦ ?_⟩
  dsimp only
  split
  · exact hk _
  · trivial
  · refine ⟨does_findFirst_bind fun _ _ ↦ trivial, fun r ↦ ?_⟩
    dsimp only
    split
    · exact hk _
    · trivial
    · trivial
  · trivial

end Statements

/-! ### Calls -/

section Calls

/-- The condition of a `where` on an id, read as an equation. -/
private theorem eq_of_decide {a b : ℕ} (h : decide (a = b) = true) : a = b := of_decide_eq_true h

/-- A follow refreshes the profile of the user's own row and lifts its deletion; `access` is left as
it is. -/
theorem does_upsertOnFollow (s : JsString) (profile : LineProfile) :
    Call.Does (.upsertOnFollow s profile) (upsertOnFollow s profile) := by
  refine does_attemptUpsert (Obeys.bind (does_upsert (fun c r hr ↦ ?_) fun c i ↦ ⟨c, rfl⟩)
    fun _ ↦ trivial) fun r ↦ ?_
  · exact ⟨of_decide_eq_true hr, c, rfl⟩
  · cases r with
    | ok reply => exact does_dropThen s reply
    | error e => trivial

/-- An unfollow marks the user's row deleted and drops its status. -/
theorem does_softDeleteByLineUserId (s : JsString) :
    Call.Does (.softDeleteByLineUserId s) (softDeleteByLineUserId s) := by
  refine ⟨does_findFirst_bind fun row _ ↦ ?_, fun r ↦ ?_⟩
  · cases row with
    | none => trivial
    | some row =>
      refine Obeys.bind (does_updateMany fun c r hr ↦ ?_) fun _ ↦ trivial
      simp only [Bool.and_eq_true, Option.isNone_iff_eq_none] at hr
      exact ⟨hr.2, c, rfl⟩
  · dsimp only
    split
    · exact does_dropThen s _
    · trivial

/-- A registration makes the user PENDING and inserts one registration. -/
theorem does_register (s : JsString) (dto : RegistrationDto) :
    Call.Does (.register s dto) (register s dto) := by
  refine ⟨Obeys.bind (does_getOrCreate fun c i ↦ ⟨c, rfl⟩) fun user ↦ .refuse fun _ ↦
    Obeys.bind (does_assertActiveOptions _ _) fun _ ↦
    Obeys.bind (obeys_create fun c i ↦ ⟨user.id, c, rfl⟩) fun created ↦
    Obeys.bind (obeys_query _) fun _ ↦
      Obeys.bind (does_updateOne fun c r _ ↦ ⟨_, rfl⟩) fun _ ↦ trivial,
    fun r ↦ ?_⟩
  dsimp only
  split
  · exact does_notifyAccessChange (does_dropThen s _) _ _
  · trivial
  · trivial

/-- A corrected registration is edited in place, and its user is PENDING again without a reason. -/
theorem does_updateRegistration (s : JsString) (dto : RegistrationDto) :
    Call.Does (.updateRegistration s dto) (updateRegistration s dto) := by
  refine ⟨does_findFirst_bind fun _ _ ↦ .require fun user _ ↦ .refuse fun _ ↦
    Obeys.bind (does_assertActiveOptions _ _) fun _ ↦
    Obeys.bind (does_updateOne fun c r _ ↦ ⟨c, rfl⟩) fun _ ↦ Obeys.bind (obeys_query _) fun _ ↦ ?_,
    fun r ↦ ?_⟩
  · split
    · exact Obeys.bind (does_updateOne fun c r _ ↦ rfl) fun _ ↦ trivial
    · trivial
  · dsimp only
    split
    · split
      · exact does_notifyAccessChange (does_dropThen s _) _ _
      · exact does_dropThen s _
    · trivial
    · trivial

/-- The profile that a status read brings along is written to the row, and nothing else of it. -/
theorem does_syncProfile {op : Op} (user : LineUser) (profile : LineProfile)
    (h : ∀ (r : LineUser) n p,
      op.effect .lineUser r (some { r with displayName := n, pictureUrl := p })) :
    Tx.Does op (syncProfile user profile) := by
  unfold syncProfile
  dsimp only
  split
  · trivial
  · exact does_updateOne fun _ r _ ↦ h r _ _

/-- A status read may create the row, write the profile over it and fill the cache. -/
theorem does_getStatus (s : JsString) (profile : Option LineProfile) :
    Call.Does (.getStatus s profile) (getStatus s profile) := by
  refine ⟨does_findFirst_bind fun _ _ ↦ trivial, fun r ↦ ?_⟩
  dsimp only
  split
  · refine ⟨Obeys.bind (does_getOrCreate fun c i ↦ ⟨c, rfl⟩) fun _ ↦ trivial, fun r ↦ ?_⟩
    dsimp only
    split
    · refine ⟨Obeys.bind ?_ fun _ ↦ trivial, fun r ↦ ?_⟩
      · cases profile with
        | none => trivial
        | some profile => exact does_syncProfile _ profile fun r n p ↦ ⟨n, p, rfl⟩
      · dsimp only
        split
        · refine ⟨obeys_query _, fun r ↦ ?_⟩
          dsimp only
          split
          · exact ⟨does_storeStatus s _, fun _ ↦ trivial⟩
          · trivial
        · trivial
    · trivial
  · trivial

/-- A patch of the settings writes the merge of the document it read, or inserts the merge of the
default one. -/
theorem does_patchSettings (s : JsString) (dto : SettingsDto) :
    Call.Does (.patchSettings s dto) (patchSettings s dto) := by
  refine ⟨Obeys.bind (does_getOrCreate fun c i ↦ ⟨c, rfl⟩) fun _ ↦ trivial, fun r ↦ ?_⟩
  dsimp only
  split
  · refine ⟨does_findFirst_bind fun _ _ ↦ trivial, fun r ↦ ?_⟩
    dsimp only
    split
    · exact does_attemptUpsert (Obeys.bind (does_upsert (fun c r _ ↦ ⟨_, c, rfl⟩)
        fun c i ↦ ⟨_, _, c, rfl⟩) fun _ ↦ trivial) fun _ ↦ trivial
    · trivial
  · trivial

/-- A decision on access sets `access` and the reason of the row of its id; REJECTED never goes
without a reason. -/
theorem does_updateAccess (id : Cuid) (access : AppAccess) (actor : AdminActor)
    (reason : Option JsString) :
    Call.Does (.updateAccess id access actor reason) (updateAccess id access actor reason) := by
  refine ⟨does_findFirst_bind fun o ho ↦ .require fun row hrow ↦ .refuse fun _ ↦ .refuse fun _ ↦
    .refuse fun _ ↦ .refuse fun hreason ↦
      Obeys.bind (does_updateOne fun c r hr ↦ ?_) fun _ ↦ trivial,
    fun r ↦ ?_⟩
  · refine ⟨(eq_of_decide hr).trans (eq_of_decide (ho row hrow)), fun ha he ↦ ?_, rfl⟩
    exact hreason ⟨ha, he⟩
  · dsimp only
    split
    · trivial
    · refine fun applied ↦ ?_
      dsimp only
      split
      · exact does_notifyAccessChange (does_dropThen _ _) _ _
      · trivial
    · trivial
    · trivial

/-- An edit by a member of staff changes the registration of the user it names and no other. -/
theorem does_updateRegistrationByAdmin (id : Cuid) (dto : RegistrationDto) (actor : AdminActor) :
    Call.Does (.updateRegistrationByAdmin id dto actor)
      (updateRegistrationByAdmin id dto actor) := by
  refine ⟨does_findFirst_bind fun o ho ↦ .require fun row hrow ↦ .refuse fun _ ↦
    does_findFirst_bind fun _ _ ↦ .require fun _ _ ↦
      Obeys.bind (does_assertActiveOptions _ _) fun _ ↦
    Obeys.bind (does_updateOne fun c r hr ↦ ?_) fun _ ↦ trivial, fun r ↦ ?_⟩
  · exact ⟨(eq_of_decide hr).trans (eq_of_decide (ho row hrow)), c, rfl⟩
  · dsimp only
    split
    · refine ⟨does_findFirst_bind fun _ _ ↦ trivial, fun r ↦ ?_⟩
      dsimp only
      split
      · exact does_dropThen _ _
      · trivial
      · trivial
    · trivial

/-- A new account is the one the request describes, under the digest of its first password. -/
theorem does_createSystemUser (actor : Actor) (dto : CreateSystemUserDto) :
    Call.Does (.createSystemUser actor dto) (createSystemUser actor dto) := by
  refine fun _ _ ↦ ⟨Obeys.bind (does_assertOptionsAssignable _ _ _) fun _ ↦
    Obeys.bind (obeys_create fun _ _ ↦ ⟨_, rfl⟩) fun _ ↦ trivial, fun r ↦ ?_⟩
  cases r <;> trivial

/-- A patch of an account changes the account of its id. -/
theorem does_updateSystemUser (actor : Actor) (id : Cuid) (patch : UpdateSystemUserDto) :
    Call.Does (.updateSystemUser actor id patch) (updateSystemUser actor id patch) := by
  refine ⟨does_findActiveSystemUser_bind fun target ht ↦ does_permit_bind fun _ ↦
    Obeys.bind (does_assertOptionsAssignable _ _ _) fun _ ↦
      Obeys.bind (does_updateOne fun _ r hr ↦ ?_) fun _ ↦
    ?_, fun r ↦ ?_⟩
  · exact ⟨(eq_of_decide hr).trans ht, rfl⟩
  · split
    · exact Obeys.bind does_assertActiveSuperAdminRemains fun _ ↦ trivial
    · trivial
  · cases r <;> trivial

/-- The removal of an account marks the account of its id. -/
theorem does_softDeleteSystemUser (actor : Actor) (id : Cuid) :
    Call.Does (.softDeleteSystemUser actor id) (softDeleteSystemUser actor id) := by
  refine ⟨does_findActiveSystemUser_bind fun target ht ↦ does_permit_bind fun _ ↦
    Obeys.bind (does_updateOne fun c r hr ↦ ?_) fun _ ↦
    Obeys.bind does_assertActiveSuperAdminRemains fun _ ↦ trivial, fun r ↦ ?_⟩
  · exact ⟨(eq_of_decide hr).trans ht, c, rfl⟩
  · cases r <;> trivial

/-- The restore of an account lifts the mark from the account of its id. -/
theorem does_restoreSystemUser (id : Cuid) :
    Call.Does (.restoreSystemUser id) (restoreSystemUser id) := by
  refine ⟨does_findFirst_bind fun o ho ↦ .require fun target ht ↦ .refuse fun _ ↦
    Obeys.bind (does_updateOne fun _ r hr ↦ ?_) fun _ ↦ trivial, fun _ ↦ trivial⟩
  exact ⟨(eq_of_decide hr).trans (eq_of_decide (ho target ht)), rfl⟩

/-- A reset writes a new digest and the demand to change it. -/
theorem does_resetPassword (actor : Actor) (id : Cuid) :
    Call.Does (.resetPassword actor id) (resetPassword actor id) := by
  refine fun _ _ ↦ ⟨does_findActiveSystemUser_bind fun target ht ↦ does_permit_bind fun _ ↦
    Obeys.bind (does_updateOne fun _ r hr ↦ ?_) fun _ ↦ trivial, fun _ ↦ trivial⟩
  exact ⟨(eq_of_decide hr).trans ht, _, rfl⟩

/-- A change of password writes a digest of the new one and lifts the demand to change it. -/
theorem does_changeOwnPassword (id : Cuid) (currentPassword newPassword : JsString) :
    Call.Does (.changeOwnPassword id currentPassword newPassword)
      (changeOwnPassword id currentPassword newPassword) := by
  refine ⟨does_findFirst_bind fun _ _ ↦ trivial, fun r ↦ ?_⟩
  dsimp only
  split
  · split
    · trivial
    · split
      · trivial
      · exact fun salt ↦ ⟨Obeys.bind (does_updateOne fun _ r _ ↦ ⟨salt, rfl⟩) fun _ ↦ trivial,
          fun _ ↦ trivial⟩
  · trivial
  · trivial

/-- The bootstrap account is inserted, or the row of its address is made whole again where `force`
allows it. -/
theorem does_createSuperAdmin (credentials : Credentials) (force : Bool) :
    Call.Does (.createSuperAdmin credentials force) (createSuperAdmin credentials force) := by
  refine ⟨obeys_query _, fun r ↦ ?_⟩
  dsimp only
  split
  · split
    · trivial
    · refine ⟨does_findFirst_bind fun _ _ ↦ .refuse fun _ ↦ trivial, fun r ↦ ?_⟩
      dsimp only
      split
      · refine fun salt ↦
          does_resolveOrCreateReserved (fun i ↦ ⟨.inr rfl, .inl rfl⟩) fun p ↦
          does_resolveOrCreateReserved (fun i ↦ ⟨.inl rfl, .inl rfl⟩) fun d ↦
          does_resolveOrCreateReserved (fun i ↦ ⟨.inr rfl, .inr rfl⟩) fun _ ↦
          does_resolveOrCreateReserved (fun i ↦ ⟨.inl rfl, .inr rfl⟩) fun _ ↦
          does_attemptUpsert (Obeys.bind (does_upsert (fun _ r hr ↦ ?_) fun _ i ↦ ?_)
            fun _ ↦ trivial) fun _ ↦ trivial
        · exact ⟨of_decide_eq_true hr, salt, d, p, rfl⟩
        · exact ⟨_, d, p, rfl⟩
      · trivial
  · trivial

/-- A new option is an ordinary one, never a reserved one. -/
theorem does_createOption (v : Vocabulary) (name : JsString) :
    Call.Does (.createOption v name) (createOption v name) :=
  ⟨Obeys.bind (obeys_create fun _ _ ↦ ⟨rfl, rfl⟩) fun _ ↦ trivial, does_finish _⟩

/-- The edit of an option renames the option of its id. -/
theorem does_updateOption (v : Vocabulary) (id : Cuid) (name : JsString) :
    Call.Does (.updateOption v id name) (updateOption v id name) := by
  refine ⟨does_findEditableOption_bind fun existing he _ ↦
    Obeys.bind (does_updateOne fun _ r hr ↦ ?_)
    fun _ ↦ trivial, does_finish _⟩
  exact ⟨rfl, (eq_of_decide hr).trans he, rfl⟩

/-- The removal of an option re-points the accounts and registrations that hold it and marks its
row. -/
theorem does_softDeleteOption (model : OptionModel) (id : Cuid) :
    Call.Does (.softDeleteOption model id) (softDeleteOption model id) := by
  refine ⟨does_findEditableOption_bind fun existing he _ ↦ does_findFirst_bind fun _ _ ↦
    .require fun fallback _ ↦ Obeys.bind (does_updateMany fun _ r hr ↦ ?_) fun _ ↦
    Obeys.bind (does_updateMany fun _ r hr ↦ ?_) fun _ ↦
      Obeys.bind (does_updateOne fun c r hr ↦ ?_) fun _ ↦
    trivial, fun _ ↦ trivial⟩
  · exact ⟨(eq_of_decide hr).trans he, fallback.id, rfl⟩
  · exact ⟨(eq_of_decide hr).trans he, fallback.id, rfl⟩
  · exact ⟨rfl, (eq_of_decide hr).trans he, c, rfl⟩

/-- The removal of a venue type re-points its venues to the tombstone type, which may have to be
made first. -/
theorem does_softDeleteVenueType (id : Cuid) :
    Call.Does (.softDeleteVenueType id) (softDeleteVenueType id) := by
  refine ⟨does_findEditableOption_bind fun _ _ _ ↦ trivial, fun r ↦ ?_⟩
  dsimp only
  split
  · next existing =>
    exact does_resolveTombstoneId (fun i ↦ ⟨rfl, rfl⟩) fun fallbackId ↦
      ⟨Obeys.bind (does_updateMany fun _ r _ ↦ ⟨fallbackId, rfl⟩) fun _ ↦
        Obeys.bind (does_updateOne fun c r _ ↦ ⟨rfl, c, rfl⟩) fun _ ↦ trivial, fun _ ↦ trivial⟩
  · trivial

/-- A new venue is the one its request describes. -/
theorem does_createVenue (dto : CreateVenueDto) :
    Call.Does (.createVenue dto) (createVenue dto) :=
  ⟨Obeys.bind (does_assertAssignableVenueType _) fun _ ↦
    Obeys.bind (does_assertActiveAmenities _) fun _ ↦
    Obeys.bind (obeys_create fun _ _ ↦ rfl) fun _ ↦ trivial, does_finish _⟩

/-- A patch of a venue changes the venue of its id. -/
theorem does_updateVenue (id : Cuid) (dto : UpdateVenueDto) :
    Call.Does (.updateVenue id dto) (updateVenue id dto) := by
  refine ⟨does_findActiveVenue_bind fun existing he ↦ Obeys.bind ?_ fun _ ↦
    Obeys.bind (does_assertActiveAmenities _) fun _ ↦
    Obeys.bind (does_updateOne fun _ r hr ↦ ?_) fun _ ↦ trivial, does_finish _⟩
  · cases dto.venueTypeId with
    | none => trivial
    | some v => exact does_assertAssignableVenueType v
  · exact ⟨(eq_of_decide hr).trans he, rfl⟩

/-- The removal of a venue marks the venue of its id. -/
theorem does_softDeleteVenue (id : Cuid) :
    Call.Does (.softDeleteVenue id) (softDeleteVenue id) := by
  refine ⟨does_findActiveVenue_bind fun existing he ↦ Obeys.bind (does_updateOne fun c r hr ↦ ?_)
    fun _ ↦ trivial, fun _ ↦ trivial⟩
  exact ⟨(eq_of_decide hr).trans he, c, rfl⟩

/-- **Every call does what it may.** -/
theorem service_does (op : Op) : Call.Does op (service op) := by
  cases op with
  | upsertOnFollow s profile => exact does_upsertOnFollow s profile
  | softDeleteByLineUserId s => exact does_softDeleteByLineUserId s
  | register s dto => exact does_register s dto
  | updateRegistration s dto => exact does_updateRegistration s dto
  | getStatus s profile => exact does_getStatus s profile
  | patchSettings s dto => exact does_patchSettings s dto
  | updateAccess id access actor reason => exact does_updateAccess id access actor reason
  | updateRegistrationByAdmin id dto actor => exact does_updateRegistrationByAdmin id dto actor
  | createSystemUser actor dto => exact does_createSystemUser actor dto
  | updateSystemUser actor id patch => exact does_updateSystemUser actor id patch
  | softDeleteSystemUser actor id => exact does_softDeleteSystemUser actor id
  | restoreSystemUser id => exact does_restoreSystemUser id
  | resetPassword actor id => exact does_resetPassword actor id
  | changeOwnPassword id c n => exact does_changeOwnPassword id c n
  | createSuperAdmin credentials force => exact does_createSuperAdmin credentials force
  | createOption v name => exact does_createOption v name
  | updateOption v id name => exact does_updateOption v id name
  | softDeleteOption model id => exact does_softDeleteOption model id
  | softDeleteVenueType id => exact does_softDeleteVenueType id
  | createVenue dto => exact does_createVenue dto
  | updateVenue id dto => exact does_updateVenue id dto
  | softDeleteVenue id => exact does_softDeleteVenue id

end Calls

end EasyBook.Directory

import EasyBook.Directory.Model

/-!
# LINE users

The writers of `line-user.service.ts`. A statement that the source sends outside `$transaction` is a
transaction of its own. Where it is a query, it is the first statement of the transaction that
follows: under READ COMMITTED a query leaves nothing behind and its snapshot is its own either way.

What is published, logged or pushed after a commit changes no table. A push that fails is swallowed;
the rich menu of `updateAccess` is not.
-/

namespace EasyBook.Directory

open ReadCommitted ReadCommitted.Prog

/-- `CreateLineUserRegistrationDto`, and the two DTOs that have the same fields. -/
structure RegistrationDto where
  firstName : JsString
  lastName : JsString
  phone : JsString
  departmentId : Cuid
  personnelRoleId : Cuid
  deriving DecidableEq

/-- `LineProfileInput` without the subject, and `LineProfileClaims`. -/
structure LineProfile where
  displayName : Option JsString
  pictureUrl : Option JsString
  statusMessage : Option JsString
  language : Option JsString
  deriving DecidableEq

/-- `UpdateLineUserSettingsDto`. -/
structure SettingsDto where
  theme : Option JsString
  notifications : NotificationKey → Option Bool
  deriving DecidableEq

/-- `AdminActor`. -/
structure AdminActor where
  id : Cuid
  role : SystemRole
  deriving DecidableEq

/-! ### The status cache -/

/-- `redis.del(lineStatusKey(lineUserId))`. -/
def dropStatus (lineUserId : JsString) : Tx Reply :=
  modify .statusCache
    (fun _ _ (e : StatusEntry) ↦ if e.lineUserId = lineUserId then some none else none)
    fun _ ↦ ret .done

/-- Drop the status of a subject, then hand back `reply`. -/
def dropThen (lineUserId : JsString) (reply : Reply) : Call :=
  .attempt (dropStatus lineUserId) fun _ ↦ .done (.ok reply)

/-- `redis.setJson(lineStatusKey(lineUserId), status)`. -/
def storeStatus (lineUserId : JsString) (status : StatusResponse) : Tx Reply :=
  modify .statusCache
    (fun _ _ (e : StatusEntry) ↦ if e.lineUserId = lineUserId then some none else none)
    fun _ ↦ insert .statusCache (fun _ _ ↦ StatusEntry.mk lineUserId status) fun _ ↦ ret .done

/-- `redis.getJson(lineStatusKey(lineUserId))`. -/
def cachedStatus (lineUserId : JsString) : Tx Reply := do
  let entry ← findFirst .statusCache fun e ↦ decide (e.lineUserId = lineUserId)
  pure (entry.elim .missing fun e ↦ .status e.status)

/-! ### Reading -/

/-- The name of an option, deleted or not. -/
def optionName (d : View) (v : Vocabulary) (id : Cuid) : JsString :=
  ((d.all (.option v)).find? fun r ↦ decide (OptionRow.id r = id)).elim [] OptionRow.name

/-- `toRegistrationResponseDto`, with the names that the select joins. -/
def toRegistrationResponse (d : View) (r : LineUserRegistration) : RegistrationResponse where
  id := r.id
  firstName := r.firstName
  lastName := r.lastName
  phone := r.phone
  departmentId := r.departmentId
  department := optionName d .department r.departmentId
  personnelRoleId := r.personnelRoleId
  personnelRole := optionName d .personnelRole r.personnelRoleId
  createdAt := r.createdAt
  updatedAt := r.updatedAt

/-- The relations that `REGISTRATION_OWNER_SELECT` loads with a row. -/
def ownerSelect (r : LineUserRegistration) : Tx RegistrationResponse :=
  query fun d ↦ toRegistrationResponse d r

/-- `findActiveByLineUserId`. -/
def findActiveByLineUserId (lineUserId : JsString) : Tx (Option LineUser) :=
  findFirst .lineUser fun r ↦ decide (r.lineUserId = lineUserId) && r.deletedAt.isNone

/-- `lineUser.create({ data: { lineUserId } })`. -/
def newLineUser (lineUserId : JsString) (c : ℤ) (id : Cuid) : LineUser where
  id := id
  lineUserId := lineUserId
  displayName := none
  pictureUrl := none
  statusMessage := none
  language := none
  richMenuType := .type1
  access := .unregistered
  rejectionReason := none
  blockReason := none
  followedAt := c
  registeredAt := none
  deletedAt := none

/-- `getOrCreateByLineUserId`. -/
def getOrCreateByLineUserId (lineUserId : JsString) : Tx LineUser := do
  match ← findActiveByLineUserId lineUserId with
  | some existing => pure existing
  | none => create Tab.lineUser (newLineUser lineUserId)

/-- `assertActiveOptions`. -/
def assertActiveOptions (departmentId personnelRoleId : Cuid) : Tx Unit := do
  let department ← findFirst (.option .department) fun r ↦
    decide (r.id = departmentId) && r.deletedAt.isNone && !r.isSystemReserved
  let personnelRole ← findFirst (.option .personnelRole) fun r ↦
    decide (r.id = personnelRoleId) && r.deletedAt.isNone && !r.isSystemReserved
  let _ ← require department (.badRequest .invalidDepartment)
  let _ ← require personnelRole (.badRequest .invalidPersonnelRole)

/-! ### Following -/

/-- `upsert`, sent as `INSERT … ON CONFLICT DO UPDATE`. -/
def upsert (τ : Tab) (p : Row τ → Bool) (set : ℤ → Row τ → Row τ) (new : ℤ → ℕ → Row τ) :
    Tx (Row τ) := do
  let rows ← update τ fun c r ↦ if p r then some (set c r) else none
  match rows with
  | r :: _ => pure r
  | [] => create τ new

/-- An upsert looks again when the row was inserted meanwhile. -/
def attemptUpsert (p : Tx Reply) (k : Except DirectoryError Reply → Call) : Call :=
  .attempt p fun r ↦
    match r with
    | .error .uniqueViolation => .attempt p k
    | r => k r

/-- The statement of `upsertOnFollow`. -/
def upsertOnFollowTx (lineUserId : JsString) (profile : LineProfile) : Tx Reply := do
  let user ← upsert .lineUser (fun r ↦ decide (r.lineUserId = lineUserId))
    -- `access` and the registration are left as they are.
    (fun c r ↦ { r with
      displayName := profile.displayName
      pictureUrl := profile.pictureUrl
      statusMessage := profile.statusMessage
      language := profile.language
      deletedAt := none
      followedAt := c })
    (fun c id ↦ { newLineUser lineUserId c id with
      displayName := profile.displayName
      pictureUrl := profile.pictureUrl
      statusMessage := profile.statusMessage
      language := profile.language })
  pure (.lineUser user)

/-- `upsertOnFollow`. -/
def upsertOnFollow (lineUserId : JsString) (profile : LineProfile) : Call :=
  attemptUpsert (upsertOnFollowTx lineUserId profile) fun r ↦
    match r with
    | .ok reply => dropThen lineUserId reply
    | .error e => .done (.error e)

/-- The statements of `softDeleteByLineUserId`. -/
def softDeleteByLineUserIdTx (lineUserId : JsString) : Tx Reply := do
  match ← findActiveByLineUserId lineUserId with
  | none => pure (.removed 0)
  | some row =>
    let count ← updateMany .lineUser (fun r ↦ decide (r.id = row.id) && r.deletedAt.isNone)
      fun c r ↦ { r with deletedAt := some c }
    pure (.removed count)

/-- `softDeleteByLineUserId`. -/
def softDeleteByLineUserId (lineUserId : JsString) : Call :=
  .attempt (softDeleteByLineUserIdTx lineUserId) fun r ↦
    match r with
    | .ok (.removed (n + 1)) => dropThen lineUserId (.removed (n + 1))
    | r => .done r

/-! ### Registration -/

/-- `notifyAccessChange`: there is no message for `UNREGISTERED`. -/
def notifyAccessChange (lineUserId : JsString) (access : AppAccess) (k : Call) : Call :=
  if access = .unregistered then k else .ask (.push lineUserId) fun _ ↦ k

/-- The row that `register` creates. -/
def newRegistration (userId : Cuid) (dto : RegistrationDto) (c : ℤ) (id : Cuid) :
    LineUserRegistration where
  id := id
  lineUserId := userId
  firstName := dto.firstName
  lastName := dto.lastName
  phone := dto.phone
  departmentId := dto.departmentId
  personnelRoleId := dto.personnelRoleId
  createdAt := c
  updatedAt := c
  deletedAt := none

/-- The update of a registration, by its owner or by staff. -/
def editRegistration (dto : RegistrationDto) (c : ℤ) (r : LineUserRegistration) :
    LineUserRegistration :=
  { r with
    firstName := dto.firstName
    lastName := dto.lastName
    phone := dto.phone
    departmentId := dto.departmentId
    personnelRoleId := dto.personnelRoleId
    updatedAt := c }

/-- The transaction of `register`. -/
def registerTx (lineUserId : JsString) (dto : RegistrationDto) : Tx Reply := do
  let user ← getOrCreateByLineUserId lineUserId
  refuse (user.access ≠ .unregistered) (.conflict .alreadyRegistered)
  assertActiveOptions dto.departmentId dto.personnelRoleId
  let created : LineUserRegistration ← create Tab.registration (newRegistration user.id dto)
  let registration ← ownerSelect created
  let updated ← updateOne .lineUser (fun r ↦ decide (r.id = user.id)) fun _ r ↦
    { r with access := .pending, registeredAt := some created.createdAt }
  pure (.status ⟨updated.access, some registration, none⟩)

/-- `mapRegistrationWriteError`. -/
def mapRegistrationWriteError (e : DirectoryError) : DirectoryError :=
  if e = .uniqueViolation then .conflict .alreadyRegistered else e

/-- `register`. -/
def register (lineUserId : JsString) (dto : RegistrationDto) : Call :=
  .attempt (registerTx lineUserId dto) fun r ↦
    match r with
    | .ok (.status s) =>
      notifyAccessChange lineUserId s.access (dropThen lineUserId (.status s))
    | .ok _ => .done (.error .unreachable)
    | .error e => .done (.error (mapRegistrationWriteError e))

/-- The statements of `updateRegistration`. Only a rejected registration goes back to pending. -/
def updateRegistrationTx (lineUserId : JsString) (dto : RegistrationDto) : Tx Reply := do
  let user ← require (← findActiveByLineUserId lineUserId) (.forbidden .registrationNotEditable)
  refuse (user.access ≠ .pending ∧ user.access ≠ .rejected) (.forbidden .registrationNotEditable)
  assertActiveOptions dto.departmentId dto.personnelRoleId
  let updated ← updateOne .registration (fun r ↦ decide (r.lineUserId = user.id))
    (editRegistration dto)
  let registration ← ownerSelect updated
  if user.access = .rejected then
    let _ ← updateOne .lineUser (fun r ↦ decide (r.id = user.id)) fun _ r ↦
      { r with access := .pending, rejectionReason := none }
    pure (.edited true ⟨.pending, some registration, none⟩)
  else pure (.edited false ⟨.pending, some registration, none⟩)

/-- `updateRegistration`. -/
def updateRegistration (lineUserId : JsString) (dto : RegistrationDto) : Call :=
  .attempt (updateRegistrationTx lineUserId dto) fun r ↦
    match r with
    | .ok (.edited wasRejected s) =>
      if wasRejected then
        notifyAccessChange lineUserId .pending (dropThen lineUserId (.status s))
      else dropThen lineUserId (.status s)
    | .ok _ => .done (.error .unreachable)
    | .error e => .done (.error e)

/-! ### The status -/

/-- The part of a claim that is news: not empty, and not what is stored. -/
def news (next stored : Option JsString) : Option JsString :=
  next.filter fun s ↦ decide (s ≠ []) && decide (some s ≠ stored)

/-- `syncProfile`. -/
def syncProfile (user : LineUser) (profile : LineProfile) : Tx LineUser :=
  let displayName := news profile.displayName user.displayName
  let pictureUrl := news profile.pictureUrl user.pictureUrl
  if displayName = none ∧ pictureUrl = none then pure user
  else
    updateOne .lineUser (fun r ↦ decide (r.id = user.id)) fun _ r ↦
      { r with
        displayName := displayName <|> r.displayName
        pictureUrl := pictureUrl <|> r.pictureUrl }

/-- The registration of a user as `getStatus` reads it, in `toStatusDto`. -/
def readStatus (user : LineUser) : Tx Reply :=
  query fun d ↦
    let registration := (d.all .registration).find? fun r ↦
      decide (LineUserRegistration.lineUserId r = user.id) && r.deletedAt.isNone
    .status ⟨user.access, registration.map (toRegistrationResponse d), user.rejectionReason⟩

/-- `getStatus`. -/
def getStatus (lineUserId : JsString) (profile : Option LineProfile) : Call :=
  .attempt (cachedStatus lineUserId) fun r ↦
    match r with
    | .ok .missing =>
      .attempt (do pure (.lineUser (← getOrCreateByLineUserId lineUserId))) fun r ↦
        match r with
        | .ok (.lineUser user) =>
          .attempt (do pure (.lineUser (← profile.elim (pure user) (syncProfile user)))) fun r ↦
            match r with
            | .ok (.lineUser user) =>
              .attempt (readStatus user) fun r ↦
                match r with
                | .ok (.status s) =>
                  -- Whether the status could be stored makes no difference to the answer.
                  .attempt (storeStatus lineUserId s) fun _ ↦ .done (.ok (.status s))
                | r => .done r
            | r => .done r
        | r => .done r
    | r => .done r

/-! ### Settings -/

/-- `toNotificationPreferences`: what is missing, or no boolean, is on. -/
def toNotificationPreferences (stored : Option (NotificationKey → Option Bool))
    (key : NotificationKey) : Bool :=
  (stored.bind fun row ↦ row key).getD true

/-- `DEFAULT_LINE_USER_THEME`. -/
def defaultLineUserTheme : JsString := JsString.lit "system"

/-- `lineUserSettings.findUnique`. -/
def findSettings (userId : Cuid) : Tx Reply := do
  let row ← findFirst .settings fun r ↦ decide (r.lineUserId = userId)
  pure (.storedSettings row)

/-- `definedPreferences` over what is stored. -/
def mergedNotifications (existing : Option LineUserSettings) (dto : SettingsDto)
    (key : NotificationKey) : Bool :=
  (dto.notifications key).getD
    (toNotificationPreferences (existing.map LineUserSettings.notifications) key)

/-- The theme to be stored. -/
def mergedTheme (existing : Option LineUserSettings) (dto : SettingsDto) : JsString :=
  (dto.theme <|> existing.map LineUserSettings.theme).getD defaultLineUserTheme

/-- `lineUserSettings.upsert`. -/
def upsertSettings (userId : Cuid) (existing : Option LineUserSettings) (dto : SettingsDto) :
    Tx Reply := do
  let saved ← upsert .settings (fun r ↦ decide (r.lineUserId = userId))
    (fun c r ↦ { r with
      theme := mergedTheme existing dto
      notifications := fun key ↦ some (mergedNotifications existing dto key)
      updatedAt := c })
    (fun c id ↦
      { id := id
        lineUserId := userId
        theme := mergedTheme existing dto
        notifications := fun key ↦ some (mergedNotifications existing dto key)
        updatedAt := c })
  pure (.settings saved.theme (toNotificationPreferences (some saved.notifications))
    saved.updatedAt)

/-- `patchSettings`. -/
def patchSettings (lineUserId : JsString) (dto : SettingsDto) : Call :=
  .attempt (do pure (.lineUser (← getOrCreateByLineUserId lineUserId))) fun r ↦
    match r with
    | .ok (.lineUser user) =>
      .attempt (findSettings user.id) fun r ↦
        match r with
        | .ok (.storedSettings existing) =>
          attemptUpsert (upsertSettings user.id existing dto) .done
        | r => .done r
    | r => .done r

/-! ### Decisions of the staff -/

/-- `canAdminSetAccess`. -/
def canAdminSetAccess (source target : AppAccess) : Bool :=
  if target = .rejected then
    decide (source = .pending ∨ source = .allowed ∨ source = .blocked)
  else decide ((target = .allowed ∨ target = .blocked) ∧ source ≠ .unregistered)

/-- `accessToRichMenuType`. -/
def accessToRichMenuType (access : AppAccess) : RichMenuType :=
  if access = .allowed then .type2 else .type1

/-- The update of `updateAccess`. -/
def setAccess (access : AppAccess) (reason : Option JsString) (r : LineUser) : LineUser :=
  { r with
    access := access
    richMenuType := accessToRichMenuType access
    rejectionReason := if access = .rejected then reason else none
    blockReason := if access = .blocked then reason else none }

/-- The statements of `updateAccess`. -/
def updateAccessTx (id : Cuid) (access : AppAccess) (actor : AdminActor)
    (reason : Option JsString) : Tx Reply := do
  let row ← require (← findFirst .lineUser fun r ↦ decide (r.id = id))
    (.notFound .lineUserNotFound)
  refuse (actor.role = .admin ∧ row.deletedAt ≠ none) (.notFound .lineUserNotFound)
  refuse (actor.role = .admin ∧ canAdminSetAccess row.access access = false)
    (.forbidden .lineUserAccessTransitionForbidden)
  refuse (access = .rejected ∧ row.access = .unregistered) (.badRequest .cannotRejectUnregistered)
  refuse (access = .rejected ∧ reason.getD [] = []) (.badRequest .rejectionReasonRequired)
  let updated ← updateOne .lineUser (fun r ↦ decide (r.id = row.id)) fun _ ↦
    setAccess access reason
  pure (.accessSet row.deletedAt.isSome updated)

/-- `updateAccess`. -/
def updateAccess (id : Cuid) (access : AppAccess) (actor : AdminActor)
    (reason : Option JsString) : Call :=
  .attempt (updateAccessTx id access actor reason) fun r ↦
    match r with
    | .ok (.accessSet true updated) => .done (.ok (.lineUser updated))
    | .ok (.accessSet false updated) =>
      .ask (.applyRichMenu updated.lineUserId updated.richMenuType) fun applied ↦
        if applied then
          notifyAccessChange updated.lineUserId access
            (dropThen updated.lineUserId (.lineUser updated))
        else .done (.error (.badGateway .lineRichMenuApplyFailed))
    | .ok _ => .done (.error .unreachable)
    | .error e => .done (.error e)

/-- The statements of `updateRegistrationByAdmin`. -/
def updateRegistrationByAdminTx (id : Cuid) (dto : RegistrationDto) (actor : AdminActor) :
    Tx Reply := do
  let row ← require (← findFirst .lineUser fun r ↦ decide (r.id = id))
    (.notFound .lineUserNotFound)
  refuse (actor.role = .admin ∧ row.deletedAt ≠ none) (.notFound .lineUserNotFound)
  let registration ← findFirst .registration fun r ↦
    decide (r.lineUserId = row.id) && r.deletedAt.isNone
  let _ ← require registration (.notFound .lineUserRegistrationNotFound)
  assertActiveOptions dto.departmentId dto.personnelRoleId
  let _ ← updateOne .registration (fun r ↦ decide (r.lineUserId = row.id)) (editRegistration dto)
  pure .done

/-- `updateRegistrationByAdmin`. -/
def updateRegistrationByAdmin (id : Cuid) (dto : RegistrationDto) (actor : AdminActor) : Call :=
  .attempt (updateRegistrationByAdminTx id dto actor) fun r ↦
    match r with
    | .ok _ =>
      .attempt (do
          pure ((← findFirst .lineUser fun r ↦ decide (r.id = id)).elim .missing .lineUser))
        fun r ↦
          match r with
          | .ok (.lineUser updated) => dropThen updated.lineUserId (.lineUser updated)
          | .ok _ => .done (.error .unreachable)
          | .error e => .done (.error e)
    | .error e => .done (.error e)

end EasyBook.Directory

import EasyBook.Directory.Line

/-!
# Staff accounts

The writers of `system-users.service.ts` with their policy, `changeOwnPassword` of
`auth.service.ts`, and the bootstrap script `create-super-admin.ts`.

`update` with a role or an active flag and `softDelete` ask for isolation level SERIALIZABLE. A
program is the same at either level; what the level adds is a condition on the runs.
-/

namespace EasyBook.Directory

open ReadCommitted ReadCommitted.Prog

/-! ### Policy -/

/-- `Actor` of `system-users.policy.ts`. -/
structure Actor where
  id : Cuid
  role : SystemRole
  createdById : Option Cuid
  deriving DecidableEq

/-- `UpdateSystemUserDto`: a column is `none` if the patch does not name it. -/
structure UpdateSystemUserDto where
  firstName : Option JsString
  lastName : Option JsString
  departmentId : Option Cuid
  personnelRoleId : Option Cuid
  phoneNumber : Option (Option JsString)
  profilePictureUrl : Option (Option JsString)
  role : Option SystemRole
  isActive : Option Bool
  deriving DecidableEq

/-- `mayNotManageOwnCreator`. -/
def mayNotManageOwnCreator (actor : Actor) (target : SystemUser) : Bool :=
  decide (actor.createdById = some target.id)

/-- `mayUseSystemReservedOptions`. -/
def mayUseSystemReservedOptions (actor : Actor) : Bool := decide (actor.role = .superAdmin)

/-- `canPatch`: the reason of the denial, if it is denied. -/
def canPatch (actor : Actor) (target : SystemUser) (patch : UpdateSystemUserDto) :
    Option Refusal :=
  if mayNotManageOwnCreator actor target then some .cannotManageOwnCreator
  else if actor.id = target.id ∧ patch.role ≠ none then some .cannotChangeOwnRole
  else if actor.id = target.id ∧ patch.isActive ≠ none then some .cannotChangeOwnActiveStatus
  else if patch.role ≠ none ∧ actor.role ≠ .superAdmin then some .onlySuperAdminMayChangeRole
  else
    match actor.role with
    | .superAdmin => none
    | .admin =>
      if target.role = .viewer ∨ actor.id = target.id then none
      else some .adminMayOnlyModifyViewer
    | .viewer => some .insufficientRole

/-- `canDelete`. -/
def canDelete (actor : Actor) (target : SystemUser) : Option Refusal :=
  if actor.id = target.id then some .cannotDeleteOwnAccount
  else if mayNotManageOwnCreator actor target then some .cannotManageOwnCreator
  else if actor.role ≠ .superAdmin then some .onlySuperAdminMayDelete
  else none

/-- `canResetPassword`. -/
def canResetPassword (actor : Actor) (target : SystemUser) : Option Refusal :=
  if actor.id = target.id then some .cannotResetOwnPassword
  else if mayNotManageOwnCreator actor target then some .cannotManageOwnCreator
  else if actor.role ≠ .superAdmin then some .insufficientRole
  else none

/-- Throw the reason of a denial as 403. -/
def permit (verdict : Option Refusal) : Tx Unit :=
  match verdict with
  | none => pure ()
  | some reason => .throw (.forbidden reason)

/-! ### Checks -/

/-- One half of `assertOptionsAssignable`. -/
def assertAssignable (v : Vocabulary) (id : Option Cuid) (allowReserved : Bool) (e : Refusal) :
    Tx Unit :=
  match id with
  | none => pure ()
  | some id => do
    let ok ← findFirst (.option v) fun r ↦
      decide (r.id = id) && r.deletedAt.isNone && (allowReserved || !r.isSystemReserved)
    let _ ← require ok (.badRequest e)

/-- `assertOptionsAssignable`. -/
def assertOptionsAssignable (departmentId personnelRoleId : Option Cuid) (allowReserved : Bool) :
    Tx Unit := do
  assertAssignable .department departmentId allowReserved .invalidDepartment
  assertAssignable .personnelRole personnelRoleId allowReserved .invalidPersonnelRole

/-- `ACTIVE_SUPER_ADMIN`. -/
def activeSuperAdmin (r : SystemUser) : Bool :=
  decide (r.role = .superAdmin) && r.isActive && r.deletedAt.isNone

/-- `assertActiveSuperAdminRemains`. -/
def assertActiveSuperAdminRemains : Tx Unit := do
  let remaining ← query fun d ↦ (d.all .systemUser).countP activeSuperAdmin
  refuse (remaining = 0) (.conflict .lastSuperAdmin)

/-- `findFirst({ where: { id, deletedAt: null } })`. -/
def findActiveSystemUser (id : Cuid) : Tx SystemUser := do
  let target ← findFirst .systemUser fun r ↦ decide (r.id = id) && r.deletedAt.isNone
  require target (.notFound .systemUserNotFound)

/-- `mapTransactionError`. -/
def mapTransactionError (e : DirectoryError) : DirectoryError :=
  if e = .writeConflict then .conflict .concurrentModification else e

/-! ### The service -/

/-- `CreateSystemUserDto`; its email is already normalised. -/
structure CreateSystemUserDto where
  email : JsString
  firstName : JsString
  lastName : JsString
  role : SystemRole
  departmentId : Cuid
  personnelRoleId : Cuid
  phoneNumber : Option JsString
  profilePictureUrl : Option JsString
  deriving DecidableEq

/-- The row that `create` inserts. -/
def newSystemUser (actor : Actor) (dto : CreateSystemUserDto) (digest : Digest) (id : Cuid) :
    SystemUser where
  id := id
  email := dto.email
  passwordHash := digest
  firstName := dto.firstName
  lastName := dto.lastName
  role := dto.role
  mustChangePassword := true
  departmentId := dto.departmentId
  personnelRoleId := dto.personnelRoleId
  phoneNumber := dto.phoneNumber
  profilePictureUrl := dto.profilePictureUrl
  isActive := true
  deletedAt := none
  createdById := some actor.id

/-- The transaction of `create`. -/
def createSystemUserTx (actor : Actor) (dto : CreateSystemUserDto) (temporaryPassword : JsString)
    (digest : Digest) : Tx Reply := do
  assertOptionsAssignable (some dto.departmentId) (some dto.personnelRoleId)
    (mayUseSystemReservedOptions actor)
  let created ← create Tab.systemUser fun _ ↦ newSystemUser actor dto digest
  pure (.temporary created temporaryPassword)

/-- `create`. -/
def createSystemUser (actor : Actor) (dto : CreateSystemUserDto) : Call :=
  .ask .temporaryPassword fun temporaryPassword ↦ .ask .salt fun salt ↦
    .attempt (createSystemUserTx actor dto temporaryPassword ⟨temporaryPassword, salt⟩) fun r ↦
      match r with
      | .ok reply => .done (.ok reply)
      | .error e => .done (.error (if e = .uniqueViolation then .conflict .emailTaken else e))

/-- The transaction of `resetPassword`. -/
def resetPasswordTx (actor : Actor) (id : Cuid) (temporaryPassword : JsString) (digest : Digest) :
    Tx Reply := do
  let target ← findActiveSystemUser id
  permit (canResetPassword actor target)
  let updated ← updateOne .systemUser (fun r ↦ decide (r.id = target.id)) fun _ r ↦
    { r with passwordHash := digest, mustChangePassword := true }
  pure (.temporary updated temporaryPassword)

/-- `resetPassword`. -/
def resetPassword (actor : Actor) (id : Cuid) : Call :=
  .ask .temporaryPassword fun temporaryPassword ↦ .ask .salt fun salt ↦
    .attempt (resetPasswordTx actor id temporaryPassword ⟨temporaryPassword, salt⟩) .done

/-- `touchesInvariant`: the patch is carried out at level SERIALIZABLE. -/
def touchesInvariant (patch : UpdateSystemUserDto) : Bool :=
  patch.role.isSome || patch.isActive.isSome

/-- The update of a patch. -/
def applyPatch (patch : UpdateSystemUserDto) (r : SystemUser) : SystemUser :=
  { r with
    firstName := patch.firstName.getD r.firstName
    lastName := patch.lastName.getD r.lastName
    departmentId := patch.departmentId.getD r.departmentId
    personnelRoleId := patch.personnelRoleId.getD r.personnelRoleId
    phoneNumber := patch.phoneNumber.getD r.phoneNumber
    profilePictureUrl := patch.profilePictureUrl.getD r.profilePictureUrl
    role := patch.role.getD r.role
    isActive := patch.isActive.getD r.isActive }

/-- The transaction of `update`. -/
def updateSystemUserTx (actor : Actor) (id : Cuid) (patch : UpdateSystemUserDto) : Tx Reply := do
  let target ← findActiveSystemUser id
  permit (canPatch actor target patch)
  assertOptionsAssignable patch.departmentId patch.personnelRoleId
    (mayUseSystemReservedOptions actor)
  let updated ← updateOne .systemUser (fun r ↦ decide (r.id = target.id)) fun _ ↦ applyPatch patch
  if touchesInvariant patch then assertActiveSuperAdminRemains
  pure (.systemUser updated)

/-- `update`. -/
def updateSystemUser (actor : Actor) (id : Cuid) (patch : UpdateSystemUserDto) : Call :=
  .attempt (updateSystemUserTx actor id patch) fun r ↦
    match r with
    | .ok reply => .done (.ok reply)
    | .error e => .done (.error (mapTransactionError e))

/-- The transaction of `softDelete`. -/
def softDeleteSystemUserTx (actor : Actor) (id : Cuid) : Tx Reply := do
  let target ← findActiveSystemUser id
  permit (canDelete actor target)
  let _ ← updateOne .systemUser (fun r ↦ decide (r.id = target.id)) fun c r ↦
    { r with deletedAt := some c }
  assertActiveSuperAdminRemains
  pure .done

/-- `softDelete`. -/
def softDeleteSystemUser (actor : Actor) (id : Cuid) : Call :=
  .attempt (softDeleteSystemUserTx actor id) fun r ↦
    match r with
    | .ok reply => .done (.ok reply)
    | .error e => .done (.error (mapTransactionError e))

/-- The transaction of `restore`. -/
def restoreSystemUserTx (id : Cuid) : Tx Reply := do
  let target ← require (← findFirst .systemUser fun r ↦ decide (r.id = id))
    (.notFound .systemUserNotFound)
  refuse (target.deletedAt = none) (.conflict .userNotDeleted)
  let restored ← updateOne .systemUser (fun r ↦ decide (r.id = target.id)) fun _ r ↦
    { r with deletedAt := none }
  pure (.systemUser restored)

/-- `restore`. -/
def restoreSystemUser (id : Cuid) : Call := .attempt (restoreSystemUserTx id) .done

/-! ### Passwords -/

/-- `password.verify`. -/
def verify (digest : Digest) (password : JsString) : Bool := decide (digest.password = password)

/-- `systemUser.findUnique`. -/
def findSystemUser (id : Cuid) : Tx Reply := do
  let user ← findFirst .systemUser fun r ↦ decide (r.id = id)
  pure (user.elim .missing .systemUser)

/-- The write of `changeOwnPassword`. -/
def storePassword (id : Cuid) (digest : Digest) : Tx Reply := do
  let _ ← updateOne .systemUser (fun r ↦ decide (r.id = id)) fun _ r ↦
    { r with passwordHash := digest, mustChangePassword := false }
  pure .done

/-- `changeOwnPassword`. The write is a statement of its own, after two slow hashes. -/
def changeOwnPassword (id : Cuid) (currentPassword newPassword : JsString) : Call :=
  .attempt (findSystemUser id) fun r ↦
    match r with
    | .ok (.systemUser user) =>
      if verify user.passwordHash currentPassword = false then
        .done (.error (.badRequest .invalidCurrentPassword))
      else if currentPassword = newPassword then
        .done (.error (.badRequest .passwordUnchanged))
      else .ask .salt fun salt ↦ .attempt (storePassword user.id ⟨newPassword, salt⟩) .done
    | .ok _ => .done (.error (.unauthorized .invalidCredentials))
    | .error e => .done (.error e)

/-! ### The bootstrap script -/

/-- `Credentials`. -/
structure Credentials where
  email : JsString
  password : JsString
  firstName : JsString
  lastName : JsString
  deriving DecidableEq

/-- `RESERVED_DEPARTMENT_NAME` and `RESERVED_PERSONNEL_ROLE_NAME`. -/
def reservedName : Vocabulary → JsString
  | .department => JsString.lit "ฝ่ายพัฒนาระบบ (System Development)"
  | _ => JsString.lit "ผู้พัฒนาระบบ (System Developer)"

/-- The names of the rows that take over the holders of a deleted option. -/
def tombstoneName : Vocabulary → JsString
  | .department => JsString.lit "ไม่พบกลุ่ม/ฝ่าย"
  | .personnelRole => JsString.lit "ไม่พบตำแหน่ง"
  | .venueType => JsString.lit "ไม่พบประเภทสถานที่"

/-- An active reserved row of this name. -/
def findReserved (v : Vocabulary) (name : JsString) : Tx (Option OptionRow) :=
  findFirst (.option v) fun r ↦ decide (r.name = name) && r.deletedAt.isNone && r.isSystemReserved

/-- The row that `create({ data: { name, isSystemReserved } })` inserts. -/
def newOption (name : JsString) (isSystemReserved : Bool) (id : Cuid) : OptionRow where
  id := id
  name := name
  isSystemReserved := isSystemReserved
  deletedAt := none

/-- Find a reserved row or create it. -/
def findOrCreateReserved (v : Vocabulary) (name : JsString) : Tx Reply := do
  match ← findReserved v name with
  | some existing => pure (.option existing)
  | none => pure (.option (← create (Tab.option v) fun _ ↦ newOption name true))

/-- `resolveOrCreateReservedDepartment` and `resolveOrCreateReservedPersonnelRole`. -/
def resolveOrCreateReserved (v : Vocabulary) (name : JsString) (k : Cuid → Call) : Call :=
  .attempt (findOrCreateReserved v name) fun r ↦
    match r with
    | .ok (.option row) => k row.id
    | .ok _ => .done (.error .unreachable)
    | .error e =>
      .done (.error (if e = .uniqueViolation then .aborted .reservedOptionConflict else e))

/-- How many SUPER_ADMIN accounts are not deleted, as the script counts them. -/
def countSuperAdmins : Tx Reply := query fun d ↦
  .removed ((d.all .systemUser).countP fun r ↦
    decide (SystemUser.role r = .superAdmin) && r.deletedAt.isNone)

/-- `assertTargetIsSuperAdminOrAbsent`. -/
def assertTargetIsSuperAdminOrAbsent (email : JsString) : Tx Reply := do
  let existing ← findFirst .systemUser fun r ↦ decide (r.email = email)
  refuse (∃ r ∈ existing, r.role ≠ .superAdmin) (.aborted .notASuperAdmin)
  pure .done

/-- The upsert of the script. -/
def upsertSuperAdmin (credentials : Credentials) (digest : Digest)
    (departmentId personnelRoleId : Cuid) : Tx Reply := do
  let user ← upsert .systemUser (fun r ↦ decide (r.email = credentials.email))
    (fun _ r ↦ { r with
      passwordHash := digest
      departmentId := departmentId
      personnelRoleId := personnelRoleId
      mustChangePassword := false
      isActive := true
      deletedAt := none })
    (fun _ id ↦
      { id := id
        email := credentials.email
        passwordHash := digest
        firstName := credentials.firstName
        lastName := credentials.lastName
        role := .superAdmin
        mustChangePassword := false
        departmentId := departmentId
        personnelRoleId := personnelRoleId
        phoneNumber := none
        profilePictureUrl := none
        isActive := true
        deletedAt := none
        createdById := none })
  pure (.systemUser user)

/-- `createSuperAdmin`. -/
def createSuperAdmin (credentials : Credentials) (force : Bool) : Call :=
  .attempt countSuperAdmins fun r ↦
    match r with
    | .ok (.removed existing) =>
      -- With a SUPER_ADMIN in place nothing is created, unless it is forced.
      if existing > 0 ∧ force = false then .done (.ok .missing)
      else
        .attempt (assertTargetIsSuperAdminOrAbsent credentials.email) fun r ↦
          match r with
          | .ok _ =>
            .ask .salt fun salt ↦
              resolveOrCreateReserved .personnelRole (reservedName .personnelRole) fun roleId ↦
                resolveOrCreateReserved .department (reservedName .department) fun deptId ↦
                  -- The two tombstones are made as well, and their ids not used here.
                  resolveOrCreateReserved .personnelRole (tombstoneName .personnelRole) fun _ ↦
                    resolveOrCreateReserved .department (tombstoneName .department) fun _ ↦
                      attemptUpsert
                        (upsertSuperAdmin credentials ⟨credentials.password, salt⟩ deptId roleId)
                        .done
          | .error e => .done (.error e)
    | r => .done r

end EasyBook.Directory

import EasyBook.Bookings.Model
import EasyBook.ReadCommitted.Rowwise

/-!
# The directory tables

Who may use the system and what they are filed under: LINE users with their registration and
settings, staff accounts, the vocabularies (departments, personnel roles, venue types) and the
venues that use one. The LIFF status cache, which is kept in Redis, is a table of its own here;
each Redis command is then a transaction of one statement.

Rows carry the columns that the modelled services read or hand back. A password digest is the
password it was made from with its salt, which is what `argon2` promises about verification and
nothing more. LINE calls and random values are questions, and any answer may come back.
-/

namespace EasyBook.Directory

open ReadCommitted

/-! ### Rows -/

/-- The vocabularies. -/
inductive Vocabulary where
  | department
  | personnelRole
  | venueType
  deriving DecidableEq, Repr

/-- A row of `departments`, `personnel_roles` or `venue_types`. -/
structure OptionRow where
  id : Cuid
  name : JsString
  isSystemReserved : Bool
  deletedAt : Option ℤ
  deriving DecidableEq

/-- `RichMenuType`. -/
inductive RichMenuType where
  /-- The menu of everybody else. -/
  | type1
  /-- The menu of approved users. -/
  | type2
  deriving DecidableEq, Repr

/-- A row of `line_users`. `lineUserId` is the LINE subject. -/
structure LineUser where
  id : Cuid
  lineUserId : JsString
  displayName : Option JsString
  pictureUrl : Option JsString
  statusMessage : Option JsString
  language : Option JsString
  richMenuType : RichMenuType
  access : AppAccess
  rejectionReason : Option JsString
  blockReason : Option JsString
  followedAt : ℤ
  registeredAt : Option ℤ
  deletedAt : Option ℤ
  deriving DecidableEq

/-- A row of `line_user_registrations`. `lineUserId` is the `id` of the LINE user. -/
structure LineUserRegistration where
  id : Cuid
  lineUserId : Cuid
  firstName : JsString
  lastName : JsString
  phone : JsString
  departmentId : Cuid
  personnelRoleId : Cuid
  createdAt : ℤ
  updatedAt : ℤ
  deletedAt : Option ℤ
  deriving DecidableEq

/-- The keys of the notification preferences. -/
inductive NotificationKey where
  | announcements
  | decisions
  | reminders
  deriving DecidableEq, Repr

instance : Fintype NotificationKey where
  elems := {.announcements, .decisions, .reminders}
  complete key := by cases key <;> simp

/-- A row of `line_user_settings`. Of the JSON in `notifications` only the booleans under the known
keys are ever read. -/
structure LineUserSettings where
  id : Cuid
  lineUserId : Cuid
  theme : JsString
  notifications : NotificationKey → Option Bool
  updatedAt : ℤ

/-- An `argon2` digest. -/
structure Digest where
  password : JsString
  salt : ℕ
  deriving DecidableEq

/-- A row of `system_users`. -/
structure SystemUser where
  id : Cuid
  email : JsString
  passwordHash : Digest
  firstName : JsString
  lastName : JsString
  role : SystemRole
  mustChangePassword : Bool
  departmentId : Cuid
  personnelRoleId : Cuid
  phoneNumber : Option JsString
  profilePictureUrl : Option JsString
  isActive : Bool
  deletedAt : Option ℤ
  createdById : Option Cuid
  deriving DecidableEq

/-- A row of `venues`, without its photos and amenities. -/
structure Venue where
  id : Cuid
  name : JsString
  venueTypeId : Cuid
  capacity : ℤ
  location : Option JsString
  description : Option JsString
  deletedAt : Option ℤ
  deriving DecidableEq

/-- `LineUserRegistrationResponseDto`. -/
structure RegistrationResponse where
  id : Cuid
  firstName : JsString
  lastName : JsString
  phone : JsString
  departmentId : Cuid
  department : JsString
  personnelRoleId : Cuid
  personnelRole : JsString
  createdAt : ℤ
  updatedAt : ℤ
  deriving DecidableEq

/-- `LineUserStatusResponseDto`. -/
structure StatusResponse where
  access : AppAccess
  registration : Option RegistrationResponse
  rejectionReason : Option JsString
  deriving DecidableEq

/-- The entry of the status cache under `lineStatusKey(lineUserId)`. -/
structure StatusEntry where
  lineUserId : JsString
  status : StatusResponse
  deriving DecidableEq

/-- The tables. -/
inductive Tab where
  | option (v : Vocabulary)
  | lineUser
  | registration
  | settings
  | systemUser
  | venue
  | statusCache
  deriving DecidableEq

/-- The row type of each table. -/
@[reducible] def Row : Tab → Type
  | .option _ => OptionRow
  | .lineUser => LineUser
  | .registration => LineUserRegistration
  | .settings => LineUserSettings
  | .systemUser => SystemUser
  | .venue => Venue
  | .statusCache => StatusEntry

/-- What a reader sees of the tables. -/
abbrev View : Type := Db Row

/-! ### Errors -/

/-- The refusals, under the names of their message constants. -/
inductive Refusal where
  | alreadyRegistered
  | registrationNotEditable
  | invalidDepartment
  | invalidPersonnelRole
  | lineUserNotFound
  | lineUserAccessTransitionForbidden
  | cannotRejectUnregistered
  | rejectionReasonRequired
  | lineRichMenuApplyFailed
  | lineUserRegistrationNotFound
  | emailTaken
  | systemUserNotFound
  | userNotDeleted
  | lastSuperAdmin
  | concurrentModification
  | cannotChangeOwnRole
  | cannotChangeOwnActiveStatus
  | cannotDeleteOwnAccount
  | onlySuperAdminMayChangeRole
  | adminMayOnlyModifyViewer
  | onlySuperAdminMayDelete
  | insufficientRole
  | cannotResetOwnPassword
  | cannotManageOwnCreator
  | invalidCredentials
  | invalidCurrentPassword
  | passwordUnchanged
  | optionNotFound
  | optionNameTaken
  | tombstoneRowMissing
  | venueNotFound
  | venueNameTaken
  | invalidVenueType
  | invalidAmenity
  | notASuperAdmin
  | reservedOptionConflict
  deriving DecidableEq, Repr

/-- What a call can end with instead of a result. -/
inductive DirectoryError where
  /-- 400. -/
  | badRequest (m : Refusal)
  /-- 401. -/
  | unauthorized (m : Refusal)
  /-- 403. -/
  | forbidden (m : Refusal)
  /-- 404. -/
  | notFound (m : Refusal)
  /-- 409. -/
  | conflict (m : Refusal)
  /-- 500. -/
  | internalServerError (m : Refusal)
  /-- 502. -/
  | badGateway (m : Refusal)
  /-- An `Error` of a script, which ends it. -/
  | aborted (m : Refusal)
  /-- `P2002`. -/
  | uniqueViolation
  /-- `P2025`: `update` found no row. -/
  | recordNotFound
  /-- `P2034`, SQLSTATE `40001` or `40P01`. -/
  | writeConflict
  /-- The transaction timed out or the connection broke. -/
  | unavailable
  /-- A statement handed back something of another kind. -/
  | unreachable
  deriving DecidableEq, Repr

/-! ### Facts from outside -/

/-- A question about something that is not in the tables. -/
inductive Ask where
  /-- Did LINE link the rich menu to the user? -/
  | applyRichMenu (lineUserId : JsString) (menu : RichMenuType)
  /-- Did LINE take the push message? -/
  | push (lineUserId : JsString)
  /-- A salt. -/
  | salt
  /-- A temporary password. -/
  | temporaryPassword
  /-- Are these amenities all active? -/
  | amenities (ids : List ℤ)

/-- The answers. -/
@[reducible] def Ans : Ask → Type
  | .applyRichMenu _ _ => Bool
  | .push _ => Bool
  | .salt => ℕ
  | .temporaryPassword => JsString
  | .amenities _ => Bool

/-- What a statement or a call hands back. -/
inductive Reply where
  /-- Nothing. -/
  | done
  /-- A LINE user. -/
  | lineUser (user : LineUser)
  /-- A LINE user whose access was set; `wasDeleted` of the row before. -/
  | accessSet (wasDeleted : Bool) (user : LineUser)
  /-- No row, or none that was wanted. -/
  | missing
  /-- The number of rows removed. -/
  | removed (count : ℕ)
  /-- A registration status. -/
  | status (s : StatusResponse)
  /-- A registration that its owner edited. -/
  | edited (wasRejected : Bool) (s : StatusResponse)
  /-- The stored settings of a LINE user, if there are any. -/
  | storedSettings (row : Option LineUserSettings)
  /-- The settings of a LINE user. -/
  | settings (theme : JsString) (notifications : NotificationKey → Bool) (updatedAt : ℤ)
  /-- A staff account. -/
  | systemUser (user : SystemUser)
  /-- A staff account with a temporary password. -/
  | temporary (user : SystemUser) (password : JsString)
  /-- A row of a vocabulary. -/
  | option (row : OptionRow)
  /-- A venue. -/
  | venue (row : Venue)

/-- A transaction. -/
abbrev Tx : Type → Type := Prog Row DirectoryError Empty Ans

/-- A call of a service. -/
abbrev Call : Type := Session Row DirectoryError Empty Ans Reply

/-! ### Constraints -/

/-- The unique indexes. Those on names leave out the deleted rows. -/
def clash : ∀ τ, Row τ → Row τ → Bool
  | .option _ => fun r r' ↦
    decide (r.name = r'.name) && r.deletedAt.isNone && r'.deletedAt.isNone
  | .lineUser => fun r r' ↦ decide (r.lineUserId = r'.lineUserId)
  | .registration => fun r r' ↦ decide (r.lineUserId = r'.lineUserId)
  | .settings => fun r r' ↦ decide (r.lineUserId = r'.lineUserId)
  | .systemUser => fun r r' ↦ decide (r.email = r'.email)
  | .venue => fun r r' ↦
    decide (r.name = r'.name) && r.deletedAt.isNone && r'.deletedAt.isNone
  | .statusCache => fun r r' ↦ decide (r.lineUserId = r'.lineUserId)

theorem clash_comm (τ : Tab) (r r' : Row τ) : clash τ r r' = clash τ r' r := by
  have hdec : ∀ {α : Type} [DecidableEq α] (a b : α), decide (a = b) = decide (b = a) :=
    fun a b ↦ by rw [decide_eq_decide, eq_comm]
  cases τ with
  | option v =>
    simp only [clash, hdec (OptionRow.name r), Bool.and_assoc, Bool.and_comm r.deletedAt.isNone]
  | venue =>
    simp only [clash, hdec (Venue.name r), Bool.and_assoc, Bool.and_comm r.deletedAt.isNone]
  | lineUser => exact hdec _ _
  | registration => exact hdec _ _
  | settings => exact hdec _ _
  | systemUser => exact hdec _ _
  | statusCache => exact hdec _ _

/-- The constraints of the tables. There are no triggers. -/
def schema : Schema Row DirectoryError where
  before _ _ r := r
  after _ _ _ := none
  conflict τ r r' := if clash τ r r' then some .uniqueViolation else none
  conflict_symm := by
    intro τ r r' h
    rwa [clash_comm τ r' r]

theorem schema_plain : schema.Plain := ⟨fun _ _ _ ↦ rfl, fun _ _ _ ↦ rfl⟩

/-! ### Statements -/

/-- `findFirst` and `findUnique`. -/
def findFirst (τ : Tab) (p : Row τ → Bool) : Tx (Option (Row τ)) :=
  Prog.query fun d ↦ (d.all τ).find? p

/-- `update` of the row that `p` singles out. -/
def updateOne (τ : Tab) (p : Row τ → Bool) (set : ℤ → Row τ → Row τ) : Tx (Row τ) := do
  let rows ← Prog.update τ fun c r ↦ if p r then some (set c r) else none
  match rows with
  | r :: _ => pure r
  | [] => .throw .recordNotFound

/-- `updateMany`; the number of rows is handed back. -/
def updateMany (τ : Tab) (p : Row τ → Bool) (set : ℤ → Row τ → Row τ) : Tx ℕ := do
  let rows ← Prog.update τ fun c r ↦ if p r then some (set c r) else none
  pure rows.length

end EasyBook.Directory

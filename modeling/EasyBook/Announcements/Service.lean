import EasyBook.Announcements.Model
import EasyBook.ReadCommitted.Calls

/-!
# Announcements: the calls

`announcements.service.ts`, where it writes. A statement that the source sends outside
`$transaction` is a transaction of its own. `send` holds the row from its first statement to its
commit, with the requests to LINE in between.
-/

namespace EasyBook.Announcements

open ReadCommitted ReadCommitted.Prog Directory JsString

/-! ### Requests -/

/-- `CreateAnnouncementDto`. A `departmentId` of `some none` is `null`. -/
structure CreateAnnouncementDto where
  title : JsString
  body : Option JsString
  format : Option AnnouncementFormat
  audience : Option AnnouncementAudience
  departmentId : Option (Option Cuid)
  deriving DecidableEq

/-- `UpdateAnnouncementDto`. -/
structure UpdateAnnouncementDto where
  title : Option JsString
  body : Option JsString
  format : Option AnnouncementFormat
  audience : Option AnnouncementAudience
  departmentId : Option (Option Cuid)
  deriving DecidableEq

/-- `AnnouncementActor`. -/
structure AnnouncementActor where
  id : Cuid
  includeReserved : Bool
  deriving DecidableEq

/-- Every field is absent. -/
def UpdateAnnouncementDto.isEmpty (dto : UpdateAnnouncementDto) : Bool :=
  dto.title.isNone && dto.body.isNone && dto.format.isNone && dto.audience.isNone &&
    dto.departmentId.isNone

/-- `resolveDepartmentId`, and what is done with the department that is to be stored. -/
def resolveDepartmentId (audience : AnnouncementAudience) (sent : Option (Option Cuid))
    (stored : Option Cuid) (includeReserved : Bool) (k : Option Cuid → Call) : Call :=
  match audience with
  | .all =>
    -- An id sent along with ALL is refused; an id that is stored is dropped.
    match sent with
    | some (some _) => .done (.error (.badRequest .departmentNotAllowed))
    | _ => k none
  | .department =>
    -- What was not sent is what is stored.
    match sent.getD stored with
    | none => .done (.error (.badRequest .departmentRequired))
    | some id =>
      .attempt (do
        let department ← findFirst (.directory .department) fun d ↦
          decide (d.id = id) && d.deletedAt.isNone && (includeReserved || !d.isSystemReserved)
        pure (.department department)) fun r ↦
          match r with
          | .ok (.department (some department)) => k (some department.id)
          | .ok _ => .done (.error (.badRequest .departmentInvalid))
          | .error e => .done (.error e)

/-! ### Authoring -/

/-- `get`. -/
def get (id : Cuid) : Call :=
  .attempt (do
    let row ← findFirst .announcement fun r ↦ decide (r.id = id) && r.deletedAt.isNone
    pure (.announcement (← require row (.notFound .notFound)))) .done

/-- The row that `create` inserts. -/
def newAnnouncement (dto : CreateAnnouncementDto) (audience : AnnouncementAudience)
    (departmentId : Option Cuid) (createdById : Cuid) (c : ℤ) (id : Cuid) : Announcement where
  id := id
  title := dto.title
  body := dto.body.getD []
  format := dto.format.getD .text
  status := .draft
  audience := audience
  departmentId := departmentId
  sentAt := none
  sentCount := 0
  deletedAt := none
  createdById := createdById
  createdAt := c
  updatedAt := c

/-- `create`. -/
def create (dto : CreateAnnouncementDto) (actor : AnnouncementActor) : Call :=
  let audience := dto.audience.getD .all
  resolveDepartmentId audience dto.departmentId none actor.includeReserved fun departmentId ↦
    .attempt (do
      let row ← Prog.create Tab.announcement
        (newAnnouncement dto audience departmentId actor.id)
      pure (.announcement row)) .done

/-- The columns of a draft after a patch; an absent field is left out of the `data`. -/
def applyPatch (dto : UpdateAnnouncementDto) (audience : AnnouncementAudience)
    (departmentId : Option Cuid) (r : Announcement) : Announcement :=
  { r with
    title := dto.title.getD r.title
    body := dto.body.getD r.body
    format := dto.format.getD r.format
    audience := audience
    departmentId := departmentId }

/-- The conditional write of `update`. -/
def writePatch (id : Cuid) (dto : UpdateAnnouncementDto) (audience : AnnouncementAudience)
    (departmentId : Option Cuid) : Tx Reply := do
  let rows ← updateAnnouncements
    (fun r ↦ decide (r.id = id) && decide (r.status = .draft) && r.deletedAt.isNone)
    (applyPatch dto audience departmentId)
  pure (.count rows.length)

/-- Why the conditional write found nothing: the announcement is gone, or it has been sent. -/
def refusePatch (id : Cuid) : Call :=
  .attempt (do pure (.found (← findFirst .announcement fun r ↦ decide (r.id = id)))) fun r ↦
    match r with
    | .ok (.found (some after)) =>
      if after.deletedAt ≠ none then .done (.error (.notFound .notFound))
      else .done (.error (.conflict .sentImmutable))
    | .ok _ => .done (.error (.notFound .notFound))
    | .error e => .done (.error e)

/-- `update`. -/
def update (id : Cuid) (dto : UpdateAnnouncementDto) (actor : AnnouncementActor) : Call :=
  if dto.isEmpty then .done (.error (.badRequest .updateEmpty))
  else
    .attempt (do
      pure (.found (← findFirst .announcement fun r ↦
        decide (r.id = id) && r.deletedAt.isNone))) fun r ↦
      match r with
      | .ok (.found (some current)) =>
        -- The status as it was read; the patch itself asks for the status again.
        if current.status = .sent then .done (.error (.conflict .sentImmutable))
        else
          let audience := dto.audience.getD current.audience
          resolveDepartmentId audience dto.departmentId current.departmentId
            actor.includeReserved fun departmentId ↦
              .attempt (writePatch id dto audience departmentId) fun r ↦
                match r with
                | .ok (.count 0) => refusePatch id
                | .ok (.count _) => get id
                | .ok _ => .done (.error .unreachable)
                | .error e => .done (.error e)
      | .ok _ => .done (.error (.notFound .notFound))
      | .error e => .done (.error e)

/-! ### Under the lock -/

/-- `mapTransactionError`, with what the callbacks make of a row that somebody else holds. -/
def mapTransactionError : AnnouncementError → AnnouncementError
  | .lockNotAvailable => .conflict .sendInProgress
  | .writeConflict => .conflict .concurrentModification
  | e => e

/-- The transaction of `remove`. -/
def removeTx (id : Cuid) : Tx Reply := do
  let locked ← lockForUpdate id
  let _ ← require locked.head? (.notFound .notFound)
  let now ← readClock
  let rows ← updateAnnouncements (fun r ↦ decide (r.id = id) && r.deletedAt.isNone)
    fun r ↦ { r with deletedAt := some now }
  refuse (rows.length = 0) (.notFound .notFound)
  pure .done

/-- `remove`. -/
def remove (id : Cuid) : Call :=
  .attempt (removeTx id) fun r ↦ .done (r.mapError mapTransactionError)

/-- `LINE_USER_ID_PATTERN.test`. -/
def isLineUserId (s : JsString) : Bool :=
  s.length == 33 && s.head? == some 85 &&
    s.tail.all fun u ↦ decide (48 ≤ u ∧ u ≤ 57) || decide (97 ≤ u ∧ u ≤ 102)

/-- The users that `resolveRecipients` selects, in the order of their ids. -/
def eligibleUsers (d : View) (departmentId : Option Cuid) : List LineUser :=
  ((d.all (.directory .lineUser)).filter fun u : LineUser ↦
      decide (u.access = .allowed) && u.deletedAt.isNone && decide (u.lineUserId ≠ []) &&
        departmentId.all fun departmentId ↦
          (d.all (.directory .registration)).any fun r : LineUserRegistration ↦
            decide (r.lineUserId = u.id) && r.deletedAt.isNone &&
              decide (r.departmentId = departmentId)).mergeSort
    fun u u' ↦ decide (cuidText u.id ≤ cuidText u'.id)

/-- The user has not opted out. -/
def optedIn (d : View) (u : LineUser) : Bool :=
  toNotificationPreferences (((d.all (.directory .settings)).find? fun r : LineUserSettings ↦
    decide (r.lineUserId = u.id)).map LineUserSettings.notifications) .announcements

/-- Who is left of the users, by the settings that `d` holds. -/
def recipientsAmong (users : List LineUser) (d : View) : List JsString :=
  ((users.filter (optedIn d)).filter fun u ↦ isLineUserId u.lineUserId).map LineUser.lineUserId

/-- `resolveRecipients`. The settings that the `select` names are a query of their own. -/
def resolveRecipients (departmentId : Option Cuid) : Tx (List JsString) := do
  let users ← query fun d ↦ eligibleUsers d departmentId
  query (recipientsAmong users)

/-- `lineSendError`. -/
def lineSendError : Line.LineErrorKind → AnnouncementError
  | .notConfigured => .serviceUnavailable .lineNotConfigured
  | .rateLimited => .serviceUnavailable .lineRateLimited
  | _ => .badGateway .lineSendFailed

/-- `ANNOUNCEMENT_SEND_DEADLINE_MS`. -/
def announcementSendDeadlineMs : ℤ := 90000

/-- The department of the recipients; `none` is everybody. -/
def audienceDepartment (row : Announcement) : Tx (Option Cuid) :=
  if row.audience = .department then
    match row.departmentId with
    | none => .throw (.badRequest .departmentInvalid)
    | some id => do
      let department ← findFirst (.directory .department) fun d ↦
        decide (d.id = id) && d.deletedAt.isNone
      let department ← require department (.badRequest .departmentInvalid)
      pure (some department.id)
  else pure none

/-- A sent announcement. -/
def markSent (now : ℤ) (acceptedCount : ℕ) (r : Announcement) : Announcement :=
  { r with status := .sent, sentAt := some now, sentCount := acceptedCount }

/-- The last write of a send: `announcement.update`. -/
def writeSent (id : Cuid) (now : ℤ) (acceptedCount : ℕ) : Tx Announcement := do
  let rows ← updateAnnouncements (fun r ↦ decide (r.id = id)) (markSent now acceptedCount)
  require rows.head? .recordNotFound

/-- The seed of the retry keys. -/
def retryKeySeed (row : Announcement) : JsString :=
  cuidText row.id ++ lit "|" ++ JsDate.toISOString row.updatedAt

/-- The requests to LINE. -/
def askLine (service : Line.LineService) (row : Announcement) (start now : ℤ)
    (recipients : List JsString) : Machine.Task Ask Ans (Except String Line.MulticastOutcome) :=
  Line.multicast service recipients [announcementMessage row now]
    ⟨retryKeySeed row, some (start + announcementSendDeadlineMs)⟩

/-- The transaction of `send`, once the content has been read under the lock. -/
def deliver (service : Line.LineService) (start : ℤ) (row : Announcement) : Tx Reply := do
  let departmentId ← audienceDepartment row
  let recipients ← resolveRecipients departmentId
  -- With nobody to send to, the announcement is SENT to nobody.
  if recipients.length = 0 then
    let now ← readClock
    let written ← writeSent row.id now 0
    pure (.sent written none)
  else
    let now ← readClock
    let (exchanges, result) ← ofTask (askLine service row start now recipients)
    let outcome ← ofExcept (result.mapError .programmerError)
    if outcome.acceptedCount = 0 then
      -- Nothing was accepted: the transaction is rolled back and the row stays as it was.
      .throw (lineSendError (outcome.failure.elim .transient Line.MulticastFailure.kind))
    else
      let written ← writeSent row.id now outcome.acceptedCount
      pure (.sent written (some ⟨recipients, exchanges, outcome⟩))

/-- The transaction of `send`. -/
def sendTx (service : Line.LineService) (id : Cuid) : Tx Reply := do
  let start ← readClock
  let locked ← lockForUpdate id
  let first ← require locked.head? (.notFound .notFound)
  refuse (first.status = .sent) (.conflict .alreadySent)
  let row ← findFirst .announcement fun r ↦ decide (r.id = id)
  let row ← require row .recordNotFound
  refuse (trim row.body = []) (.badRequest .bodyRequired)
  deliver service start row

/-- `send`. A partial send has been committed when it is reported. -/
def send (service : Line.LineService) (id : Cuid) : Call :=
  .attempt (sendTx service id) fun r ↦
    match r with
    | .ok (.sent saved none) => .done (.ok (.announcement saved))
    | .ok (.sent saved (some sending)) =>
      if sending.outcome.failure ≠ none then
        .done (.error (.badGateway (.partiallySent sending.outcome.acceptedCount
          sending.outcome.targetedCount)))
      else .done (.ok (.announcement saved))
    | .ok _ => .done (.error .unreachable)
    | .error e => .done (.error (mapTransactionError e))

/-! ### The system -/

/-- The rest of the program saves a row of the directory. -/
def saveDirectory (τ : DirectoryTab) (row : Row (.directory τ)) : Call :=
  .attempt (do
    let rows ← Prog.update (.directory τ) fun _ r ↦
      if idOf τ r = idOf τ row then some row else none
    if rows.length = 0 then
      let _ ← Prog.create (.directory τ) fun _ _ ↦ row
      pure .done
    else pure .done) .done

/-- The calls. -/
inductive Op where
  | create (dto : CreateAnnouncementDto) (actor : AnnouncementActor)
  | update (id : Cuid) (dto : UpdateAnnouncementDto) (actor : AnnouncementActor)
  | remove (id : Cuid)
  | send (id : Cuid)
  | saveDirectory (τ : DirectoryTab) (row : Row (.directory τ))

/-- What each call does. -/
def service (line : Line.LineService) : Op → Call
  | .create dto actor => Announcements.create dto actor
  | .update id dto actor => Announcements.update id dto actor
  | .remove id => Announcements.remove id
  | .send id => Announcements.send line id
  | .saveDirectory τ row => Announcements.saveDirectory τ row

/-- The tables and everything that writes them. -/
def announcements (line : Line.LineService) :
    System Row AnnouncementError Empty Ans Reply Op where
  schema := schema
  service := service line
  loses e := decide (e = .lockNotAvailable ∨ e = .writeConflict ∨ e = .unavailable)

/-- The state of the tables and of every call under way. -/
abbrev AnnouncementWorld : Type := World Row AnnouncementError Empty Ans Reply

/-- A step of a schedule. -/
abbrev AnnouncementEvent : Type := Event AnnouncementError Ans Op

/-! ### Sample runs -/

namespace Sample

/-- Time stands still, and requests to LINE end as `settled`. -/
def oracle (settled : Line.Settled) : ∀ q : Ask, Ans q
  | .now => (0 : ℤ)
  | .multicast _ => settled
  | .external _ => ()
  | .lineDeliveryFailed _ _ => ()

/-- Session `t` takes `n` steps. -/
def steps (t n : ℕ) : List AnnouncementEvent := List.replicate n (.run t)

/-- Session `t` gets `n` answers. -/
def answers (t n : ℕ) (settled : Line.Settled) : List AnnouncementEvent :=
  List.replicate n (.answer t (oracle settled))

/-- A department. -/
def department : Directory.OptionRow := ⟨7, [], false, none⟩

/-- A super admin. -/
def actor : AnnouncementActor := ⟨0, true⟩

/-- A user whose LINE id is `U`, 31 zeros and `digit`. -/
def user (id : Cuid) (digit : ℕ) : Directory.LineUser :=
  { Directory.newLineUser (85 :: List.replicate 31 48 ++ [digit]) 0 id with access := .allowed }

/-- A draft for everybody. -/
def draft : CreateAnnouncementDto := ⟨[84], some [66], none, none, none⟩

/-- A patch that names nothing. -/
def nothing : UpdateAnnouncementDto := ⟨none, none, none, none, none⟩

/-- A department and a draft, under keys 0 and 1. -/
def drafted : List AnnouncementEvent :=
  .call 0 (.saveDirectory .department department) :: steps 0 5 ++
    .call 1 (.create draft actor) :: steps 1 3

/-- A user, under key 2. -/
def followed : List AnnouncementEvent :=
  drafted ++ .call 2 (.saveDirectory .lineUser (user 5 49)) :: steps 2 5

/-- A patch of the title. -/
def retitle : UpdateAnnouncementDto := { nothing with title := some [85] }

/-- The title is patched, and the announcement is sent to the only user. -/
def sentRun : List AnnouncementEvent :=
  followed ++ .call 3 (.update 1 retitle actor) :: steps 3 10 ++
    .call 4 (.send 1) :: steps 4 8 ++ answers 4 2 .resolved ++ steps 4 3

/-- A patch that makes the draft one for the department. -/
def target : UpdateAnnouncementDto :=
  { nothing with audience := some .department, departmentId := some (some 7) }

/-- The draft is given another audience between the read and the write of a patch of the title. -/
def crossed : List AnnouncementEvent :=
  drafted ++ .call 3 (.update 1 retitle actor) :: steps 3 3 ++
    .call 2 (.update 1 target actor) :: steps 2 13 ++ steps 3 7

/-- The line with the retry key of the only user. -/
def line : Line.LineService where
  client := true
  incidents := false
  uuidV5 _ := lit "04cfe682-23a4-5e3f-9e1e-b334cdd6e076"

end Sample

end EasyBook.Announcements

import EasyBook.Bookings.TimeText
import EasyBook.Directory.Line
import EasyBook.Line.Multicast
import EasyBook.Line.NotificationCards

/-!
# Announcements: tables, messages and questions

The rows that announcements are made of and the rows of the directory that decide who gets them.
The rest of the program writes the directory; here its rows are saved at will.

What a send asks of LINE is the task `Line.multicast`, whose questions are those of a transaction
(`ofTask`). Its answers are kept with its result, so that what was asked can be compared with what
is stored.
-/

namespace EasyBook.Announcements

open ReadCommitted Directory JsString

/-! ### Rows -/

/-- `AnnouncementFormat`. -/
inductive AnnouncementFormat where
  | text
  | flex
  deriving DecidableEq, Repr

/-- `AnnouncementStatus`. -/
inductive AnnouncementStatus where
  | draft
  | sent
  deriving DecidableEq, Repr

/-- `AnnouncementAudience`. -/
inductive AnnouncementAudience where
  | all
  | department
  deriving DecidableEq, Repr

/-- A row of `announcements`. -/
structure Announcement where
  id : Cuid
  title : JsString
  body : JsString
  format : AnnouncementFormat
  status : AnnouncementStatus
  audience : AnnouncementAudience
  departmentId : Option Cuid
  sentAt : Option ℤ
  sentCount : ℕ
  deletedAt : Option ℤ
  createdById : Cuid
  createdAt : ℤ
  updatedAt : ℤ
  deriving DecidableEq

/-- The tables of the directory that announcements look at. -/
inductive DirectoryTab where
  | department
  | lineUser
  | registration
  | settings
  deriving DecidableEq

/-- The tables. -/
inductive Tab where
  | announcement
  | directory (τ : DirectoryTab)
  deriving DecidableEq

/-- Their rows. -/
@[reducible] def Row : Tab → Type
  | .announcement => Announcement
  | .directory .department => OptionRow
  | .directory .lineUser => LineUser
  | .directory .registration => LineUserRegistration
  | .directory .settings => LineUserSettings

/-- The primary key of a row of the directory. -/
def idOf : ∀ τ : DirectoryTab, Row (.directory τ) → Cuid
  | .department => OptionRow.id
  | .lineUser => LineUser.id
  | .registration => LineUserRegistration.id
  | .settings => LineUserSettings.id

/-- The tables as somebody sees them. -/
abbrev View : Type := Db Row

/-! ### Messages -/

/-- A message of LINE. -/
inductive LineMessage where
  /-- A text message. -/
  | text (text : JsString)
  /-- A Flex message. -/
  | flex (message : Cards.FlexMessage)

/-- `ANNOUNCEMENT_CARD_HEADER`. -/
def announcementCardHeader : JsString := lit "ประกาศจาก EasyBook"

/-- `ANNOUNCEMENT_ALT_PREFIX`. -/
def announcementAltPrefix : JsString := lit "ประกาศ: "

/-- `buildAnnouncementText`. -/
def buildAnnouncementText (title body : JsString) : LineMessage :=
  .text (title ++ lit "\n\n" ++ body)

/-- `buildAnnouncementCard`. -/
def buildAnnouncementCard (title body sentAtText : JsString) : LineMessage :=
  .flex
    { altText := Cards.toAltText (announcementAltPrefix ++ title)
      contents :=
        { header := .box [("layout", "vertical"), ("backgroundColor", Cards.Tone.success.fill),
              ("paddingAll", "12px")]
            [.text announcementCardHeader [("size", "sm"), ("weight", "bold"),
              ("color", Cards.Tone.success.ink), ("wrap", "true")]]
          body := .box [("layout", "vertical"), ("paddingAll", "16px"), ("spacing", "md")]
            [.text title [("size", "lg"), ("weight", "bold"), ("color", Cards.ink),
                ("wrap", "true")],
              .text body [("size", "sm"), ("color", Cards.ink), ("wrap", "true"),
                ("lineSpacing", "6px")]]
          footer := some (.box [("layout", "horizontal"), ("paddingAll", "12px")]
            [.text sentAtText [("size", "xs"), ("color", Cards.inkSoft), ("flex", "1"),
                ("wrap", "true")],
              .text (lit "EasyBook") [("size", "xs"), ("weight", "bold"),
                ("color", Cards.Tone.success.fill), ("align", "end"), ("flex", "0")]]) } }

/-- The message of an announcement that is sent at the instant `now`. -/
def announcementMessage (row : Announcement) (now : ℤ) : LineMessage :=
  match row.format with
  | .flex => buildAnnouncementCard row.title row.body
      (thaiShortDate now ++ lit " " ++ bangkokClock now ++ lit " น.")
  | .text => buildAnnouncementText row.title row.body

/-! ### Errors and replies -/

/-- The refusals, under the names of their message constants. -/
inductive Refusal where
  | notFound
  | sentImmutable
  | departmentRequired
  | departmentNotAllowed
  | departmentInvalid
  | updateEmpty
  | bodyRequired
  | sendInProgress
  | alreadySent
  | partiallySent (acceptedCount targetedCount : ℕ)
  | lineSendFailed
  | lineNotConfigured
  | lineRateLimited
  | concurrentModification
  deriving DecidableEq, Repr

/-- What a call can end with instead of a result. -/
inductive AnnouncementError where
  /-- 400. -/
  | badRequest (m : Refusal)
  /-- 404. -/
  | notFound (m : Refusal)
  /-- 409. -/
  | conflict (m : Refusal)
  /-- 502. -/
  | badGateway (m : Refusal)
  /-- 503. -/
  | serviceUnavailable (m : Refusal)
  /-- `P2025`: a row that has to be there is not. -/
  | recordNotFound
  /-- An `Error` of LINE's wrapper about its arguments. -/
  | programmerError (m : String)
  /-- SQLSTATE `55P03`: somebody else holds the row. -/
  | lockNotAvailable
  /-- `P2034`, SQLSTATE `40001` or `40P01`. -/
  | writeConflict
  /-- The transaction timed out or the connection broke. -/
  | unavailable
  /-- A statement handed back something of another kind. -/
  | unreachable
  deriving DecidableEq, Repr

/-- A question of a send. -/
abbrev Ask : Type := Line.Ask LineMessage

/-- The answers. -/
@[reducible] def Ans : Ask → Type := Line.Answer

/-- What a send has asked of LINE, and what came of it. -/
structure Sending where
  recipients : List JsString
  exchanges : Line.Exchanges LineMessage
  outcome : Line.MulticastOutcome

/-- What a statement or a call hands back. -/
inductive Reply where
  /-- Nothing. -/
  | done
  /-- An announcement, if there is one. -/
  | found (row : Option Announcement)
  /-- A department, if there is one. -/
  | department (row : Option OptionRow)
  /-- The number of rows updated. -/
  | count (n : ℕ)
  /-- The announcement as it was saved, and the message to LINE, if there was anybody to send
  one to. -/
  | sent (saved : Announcement) (sending : Option Sending)
  /-- An announcement. -/
  | announcement (row : Announcement)

/-- A transaction. -/
abbrev Tx : Type → Type := Prog Row AnnouncementError Empty Ans

/-- A call of a service. -/
abbrev Call : Type := Session Row AnnouncementError Empty Ans Reply

/-- No constraint of the tables matters here. There are no triggers. -/
def schema : Schema Row AnnouncementError where
  before _ _ r := r
  after _ _ _ := none
  conflict _ _ _ := none
  conflict_symm := fun h ↦ h

theorem schema_plain : schema.Plain := ⟨fun _ _ _ ↦ rfl, fun _ _ _ ↦ rfl⟩

/-! ### Statements -/

/-- `findFirst` and `findUnique`. -/
def findFirst (τ : Tab) (p : Row τ → Bool) : Tx (Option (Row τ)) :=
  Prog.query fun d ↦ (d.all τ).find? p

/-- `UPDATE announcements SET … WHERE …`; an update by Prisma stamps `updatedAt`. -/
def updateAnnouncements (p : Announcement → Bool) (set : Announcement → Announcement) :
    Tx (List Announcement) :=
  Prog.update Tab.announcement fun c r ↦ if p r then some { set r with updatedAt := c } else none

/-- `SELECT … WHERE id AND "deletedAt" IS NULL FOR UPDATE NOWAIT`: the row is locked as it is. That
somebody else holds it is the loss of the transaction with `lockNotAvailable`. -/
def lockForUpdate (id : Cuid) : Tx (List Announcement) :=
  Prog.update Tab.announcement fun _ r ↦ if r.id = id ∧ r.deletedAt = none then some r else none

/-- A task as a part of a transaction; the exchanges are handed back with the result. -/
def ofTask {ρ : Type} : Machine.Task Ask Ans ρ → Tx (Line.Exchanges LineMessage × ρ)
  | .done r => .ret ([], r)
  | .ask q k => .ask q fun a ↦ (ofTask (k a)).bind fun x ↦ .ret (⟨q, a⟩ :: x.1, x.2)

end EasyBook.Announcements

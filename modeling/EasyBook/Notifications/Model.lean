import EasyBook.Bookings.Code
import EasyBook.Machine.World
import EasyBook.Thai.Sanitize

/-!
# Admin notifications

The notifications of the back office and the receipts of its operators. A notification has no row
for an operator who has neither read nor dismissed it, so the state of a notification is the absence
or the shape of a receipt.

`NotificationsService` is one task for each call. A statement that writes receipts takes a snapshot
to find the rows that it is about (`select`), and then comes to one row after the other (`write`),
which it sees, and locks, as it is by then; what it has written counts when its transaction commits.
-/

namespace EasyBook.Notifications

open Machine Machine.Task JsString

/-! ### Data -/

/-- `AdminNotificationCategory`. -/
inductive AdminNotificationCategory where
  | booking
  | registration
  | feedback
  | system
  deriving DecidableEq

/-- `AdminNotificationTargetRole`. -/
inductive AdminNotificationTargetRole where
  | all
  | admin
  | superAdmin
  deriving DecidableEq

/-- A row of `admin_notifications`. -/
structure AdminNotification where
  id : JsString
  category : AdminNotificationCategory
  code : Option JsString
  title : JsString
  body : JsString
  targetRole : AdminNotificationTargetRole
  createdAt : ℤ

/-- A row of `admin_notification_receipts`, but for its key. -/
structure Receipt where
  readAt : Option ℤ
  dismissedAt : Option ℤ
  deriving DecidableEq

/-- `VISIBLE_TARGET_ROLES`. -/
def visibleTargetRoles : SystemRole → List AdminNotificationTargetRole
  | .superAdmin => [.all, .admin, .superAdmin]
  | .admin => [.all, .admin]
  | .viewer => [.all]

/-- `NotificationCaller`. -/
structure NotificationCaller where
  id : JsString
  role : SystemRole

/-! ### `notifications.policy.ts` -/

/-- The receipts by user and notification. -/
abbrev Receipts : Type := JsString → JsString → Option Receipt

/-- A condition on a notification and the receipts. -/
abbrev NotificationFilter : Type := Receipts → AdminNotification → Bool

/-- `receipts: { some: … }`, for the receipt of one user. -/
def someReceipt (userId : JsString) (p : Receipt → Bool) : NotificationFilter :=
  fun receipts n ↦ (receipts userId n.id).any p

/-- `receipts: { none: … }`, for the receipt of one user. -/
def noReceipt (userId : JsString) (p : Receipt → Bool) : NotificationFilter :=
  fun receipts n ↦ !(receipts userId n.id).any p

/-- `allOf`. -/
def allOf (clauses : List NotificationFilter) : NotificationFilter :=
  fun receipts n ↦ clauses.all fun clause ↦ clause receipts n

/-- `{ targetRole: { in: … } }`. -/
def targetRoleIn (roles : List AdminNotificationTargetRole) : NotificationFilter :=
  fun _ n ↦ decide (n.targetRole ∈ roles)

/-- `{ id: { in: … } }`. -/
def idIn (ids : List JsString) : NotificationFilter := fun _ n ↦ decide (n.id ∈ ids)

/-- `visibleTo`. -/
def visibleTo (caller : NotificationCaller) : NotificationFilter :=
  allOf [targetRoleIn (visibleTargetRoles caller.role),
    noReceipt caller.id fun r ↦ r.dismissedAt.isSome]

/-- `unreadFor`. -/
def unreadFor (userId : JsString) : NotificationFilter :=
  noReceipt userId fun r ↦ r.readAt.isSome

/-- `readFor`. -/
def readFor (userId : JsString) : NotificationFilter :=
  someReceipt userId fun r ↦ r.readAt.isSome

/-! ### The list -/

/-- What the database and the Unicode tables decide. -/
structure NotificationConfig where
  /-- `normalize('NFC')`. -/
  nfc : JsString → JsString
  /-- `ILIKE`: a pattern and a text. -/
  ilike : JsString → JsString → Bool

/-- `NotificationPeriod`. -/
inductive NotificationPeriod where
  | today
  | days7
  | days30

/-- `DAYS_BACK`. -/
def daysBack : NotificationPeriod → ℤ
  | .today => 0
  | .days7 => 7
  | .days30 => 30

/-- `periodFloor`. -/
def periodFloor (period : Option NotificationPeriod) (now : ℤ) : Option ℤ :=
  period.map fun p ↦ (bangkokDayRange now).1 - daysBack p * 86400000

/-- `ListAdminNotificationsQueryDto`. -/
structure ListAdminNotificationsQuery where
  page : ℕ
  limit : ℕ
  category : Option AdminNotificationCategory
  isRead : Option Bool
  period : Option NotificationPeriod
  search : Option JsString

/-- `notificationSearchTerm`. -/
def notificationSearchTerm (search : Option JsString) : Option JsString :=
  let term := (search.map fun s ↦ trim (stripHash (trim s))).getD []
  if term = [] then none else some term

/-- `escapeLike`. -/
def escapeLike (term : JsString) : JsString :=
  term.flatMap fun c ↦ if c ∈ lit "\\%_" then lit "\\" ++ [c] else [c]

/-- `contains`, for the text of a search. -/
def contains (C : NotificationConfig) (term text : JsString) : Bool :=
  C.ilike (lit "%" ++ escapeLike term ++ lit "%") text

/-- `notificationListWhere`. -/
def notificationListWhere (C : NotificationConfig) (caller : NotificationCaller)
    (query : ListAdminNotificationsQuery) (floor : Option ℤ) : NotificationFilter :=
  let category : List NotificationFilter := match query.category with
    | none => []
    | some category => [fun _ n ↦ decide (n.category = category)]
  let isRead : List NotificationFilter := match query.isRead with
    | none => []
    | some true => [readFor caller.id]
    | some false => [unreadFor caller.id]
  let floor : List NotificationFilter := match floor with
    | none => []
    | some floor => [fun _ n ↦ decide (floor ≤ n.createdAt)]
  let search : List NotificationFilter := match notificationSearchTerm query.search with
    | none => []
    | some term => [fun _ n ↦
        contains C term n.title || contains C term n.body || n.code.any (contains C term)]
  allOf ([visibleTo caller] ++ category ++ isRead ++ floor ++ search)

/-- `AdminNotificationDto`. -/
structure AdminNotificationDto where
  id : JsString
  category : AdminNotificationCategory
  code : Option JsString
  title : JsString
  body : JsString
  targetRole : AdminNotificationTargetRole
  isRead : Bool
  readAt : Option ℤ
  createdAt : ℤ

/-- `toAdminNotificationDto`, for a row with the receipt of the caller. -/
def toAdminNotificationDto (row : AdminNotification × Option Receipt) : AdminNotificationDto :=
  let readAt := row.2.bind (·.readAt)
  { id := row.1.id, category := row.1.category, code := row.1.code, title := row.1.title
    body := row.1.body, targetRole := row.1.targetRole, isRead := readAt.isSome, readAt := readAt
    createdAt := row.1.createdAt }

/-- `orderBy: [{ createdAt: 'desc' }, { id: 'desc' }]`. -/
def newestFirst (a b : AdminNotification) : Bool :=
  decide (b.createdAt < a.createdAt) || decide (a.createdAt = b.createdAt) && decide (b.id ≤ a.id)

/-- The unread counts, for each category and in all. -/
structure UnreadCount where
  total : ℕ
  byCategory : AdminNotificationCategory → ℕ

/-- `toUnreadCount`. -/
def toUnreadCount (groups : List (AdminNotificationCategory × ℕ)) : UnreadCount :=
  let byCategory := groups.foldl (fun counts g ↦ Function.update counts g.1 g.2) fun _ ↦ 0
  { byCategory := byCategory
    total := byCategory .booking + byCategory .registration + byCategory .feedback +
      byCategory .system }

/-! ### What is created -/

/-- `CreateAdminNotificationInput`. -/
structure CreateAdminNotificationInput where
  category : AdminNotificationCategory
  title : JsString
  body : JsString
  code : Option JsString
  targetRole : Option AdminNotificationTargetRole

/-- How a call may fail. -/
inductive NotificationError where
  /-- `fail` of `normaliseCreateInput`. -/
  | invalid (what : String)
  /-- `NOTIFICATION_NOT_FOUND`. -/
  | notFound
  /-- `NOTIFICATION_DISMISS_TARGET`. -/
  | dismissTarget
  | database
  deriving DecidableEq

/-- `NOTIFICATION_TITLE_MAX`. -/
def notificationTitleMax : ℕ := 200

/-- `NOTIFICATION_BODY_MAX`. -/
def notificationBodyMax : ℕ := 1000

/-- `NOTIFICATION_CODE_MAX`. -/
def notificationCodeMax : ℕ := 64

/-- `text` of `normaliseCreateInput`. -/
def sanitizedText (C : NotificationConfig) (field : String) (value : JsString) (max : ℕ) :
    Except NotificationError JsString :=
  let clean := Thai.sanitizeThaiText C.nfc value
  if clean.length < 1 ∨ max < clean.length then
    .error (.invalid (field ++ " must be 1.." ++ toString max ++ " characters"))
  else .ok clean

/-- What a row is created from. -/
structure NotificationData where
  category : AdminNotificationCategory
  code : Option JsString
  title : JsString
  body : JsString
  targetRole : AdminNotificationTargetRole

/-- The row that is created. -/
def NotificationData.row (data : NotificationData) (id : JsString) (createdAt : ℤ) :
    AdminNotification where
  id := id
  category := data.category
  code := data.code
  title := data.title
  body := data.body
  targetRole := data.targetRole
  createdAt := createdAt

/-- `normaliseCreateInput`. -/
def normaliseCreateInput (C : NotificationConfig) (input : CreateAdminNotificationInput) :
    Except NotificationError NotificationData := do
  let title ← sanitizedText C "title" input.title notificationTitleMax
  let body ← sanitizedText C "body" input.body notificationBodyMax
  let code ← match input.code with
    | none => .ok none
    | some code =>
      let trimmed := trim code
      if notificationCodeMax < trimmed.length then
        .error (.invalid ("code must be at most " ++ toString notificationCodeMax ++ " characters"))
      else .ok (if trimmed = [] then none else some trimmed)
  return { category := input.category, code := code, title := title, body := body
           targetRole := input.targetRole.getD .all }

/-! ### The database -/

/-- What a statement does to a receipt. -/
inductive ReceiptWrite where
  /-- `INSERT … ON CONFLICT DO UPDATE SET "readAt"` of `markManyRead`. -/
  | markRead (now : ℤ)
  /-- The `updateMany` of `markUnread`. -/
  | markUnread
  /-- The `updateMany` of `dismiss`, for `allRead`. -/
  | dismissRead (now : ℤ)
  /-- The `createMany` of `dismissIds`, which skips duplicates. -/
  | createDismissed (now : ℤ)
  /-- The `updateMany` of `dismissIds`. -/
  | dismiss (now : ℤ)

/-- The row that the statement makes of a row, if its condition holds of it. -/
def ReceiptWrite.apply : ReceiptWrite → Option Receipt → Option Receipt
  | markRead now, none => some ⟨some now, none⟩
  | markRead now, some r =>
    if r.readAt.isNone && r.dismissedAt.isNone then some { r with readAt := some now } else none
  | markUnread, none => none
  | markUnread, some r => if r.readAt.isSome then some { r with readAt := none } else none
  | dismissRead _, none => none
  | dismissRead now, some r =>
    if r.readAt.isSome && r.dismissedAt.isNone then some { r with dismissedAt := some now }
    else none
  | createDismissed now, none => some ⟨none, some now⟩
  | createDismissed _, some _ => none
  | dismiss _, none => none
  | dismiss now, some r =>
    if r.dismissedAt.isNone then some { r with dismissedAt := some now } else none

/-- A key of the receipts: its row, and the row that an open transaction has written over it. -/
structure Cell where
  committed : Option Receipt
  written : Option (ℕ × Receipt)

/-- The row as a transaction sees it. -/
def Cell.seenBy (tx : ℕ) (c : Cell) : Option Receipt :=
  match c.written with
  | some (owner, r) => if owner = tx then some r else c.committed
  | none => c.committed

/-- The row may be locked by the transaction. -/
def Cell.FreeFor (tx : ℕ) (c : Cell) : Prop := ∀ owner r, c.written = some (owner, r) → owner = tx

/-- The row after the write of a transaction. -/
def Cell.write (tx : ℕ) (w : ReceiptWrite) (c : Cell) : Cell :=
  match w.apply (c.seenBy tx) with
  | some r => { c with written := some (tx, r) }
  | none => c

/-- The row after the transaction commits. -/
def Cell.commit (tx : ℕ) (c : Cell) : Cell :=
  match c.written with
  | some (owner, r) => if owner = tx then ⟨some r, none⟩ else c
  | none => c

/-- The row after the transaction is rolled back. -/
def Cell.rollback (tx : ℕ) (c : Cell) : Cell :=
  match c.written with
  | some (owner, _) => if owner = tx then ⟨c.committed, none⟩ else c
  | none => c

/-- The two tables, and how many transactions were begun. -/
structure NotificationState where
  notifications : List AdminNotification
  receipts : JsString → JsString → Cell
  transactions : ℕ

namespace NotificationState

variable (s : NotificationState)

/-- The committed receipts. -/
def committed : Receipts := fun userId id ↦ (s.receipts userId id).committed

/-- The receipts that a statement of a transaction sees. -/
def seenBy (tx : ℕ) : Receipts := fun userId id ↦ (s.receipts userId id).seenBy tx

/-- The notifications that a condition holds of. -/
def matching (filter : NotificationFilter) (receipts : Receipts) : List AdminNotification :=
  s.notifications.filter (filter receipts)

/-- The transaction writes a receipt. -/
def write (tx : ℕ) (userId id : JsString) (w : ReceiptWrite) : NotificationState :=
  { s with
    receipts := Function.update s.receipts userId
      (Function.update (s.receipts userId) id ((s.receipts userId id).write tx w)) }

/-- The transaction commits. -/
def commit (tx : ℕ) : NotificationState :=
  { s with receipts := fun userId id ↦ (s.receipts userId id).commit tx }

/-- The transaction is rolled back. -/
def rollback : Option ℕ → NotificationState
  | some tx => { s with receipts := fun userId id ↦ (s.receipts userId id).rollback tx }
  | none => s

/-- The state before any call. -/
def init : NotificationState := ⟨[], fun _ _ ↦ ⟨none, none⟩, 0⟩

end NotificationState

/-- The requests. -/
inductive NotificationQuery where
  | begin
  | commit (tx : ℕ)
  /-- The snapshot of a statement that writes receipts: the notifications that it is about. A
  receipt is always that of a notification. -/
  | select (tx : ℕ) (filter : NotificationFilter)
  /-- The statement comes to one of them. -/
  | write (tx : ℕ) (userId id : JsString) (w : ReceiptWrite)
  | findMany (filter : NotificationFilter) (userId : JsString) (skip take : ℕ)
  | count (filter : NotificationFilter)
  /-- `groupBy({ by: ['category'], _count })`. -/
  | groupByCategory (filter : NotificationFilter)
  | findFirst (filter : NotificationFilter) (userId : JsString)
  | create (data : NotificationData)

/-- What they are answered with. -/
abbrev NotificationResult : NotificationQuery → Type
  | .begin => ℕ
  | .commit _ => Unit
  | .select _ _ => List JsString
  | .write _ _ _ _ => Bool
  | .findMany _ _ _ _ => List (AdminNotification × Option Receipt)
  | .count _ => ℕ
  | .groupByCategory _ => List (AdminNotificationCategory × ℕ)
  | .findFirst _ _ => Option (AdminNotification × Option Receipt)
  | .create _ => AdminNotification

/-- The answers. Every statement may fail. -/
abbrev NotificationAnswer (q : NotificationQuery) : Type := Option (NotificationResult q)

/-- The transaction of a statement, if it is not one by itself. -/
def NotificationQuery.transaction : NotificationQuery → Option ℕ
  | commit tx | select tx _ | write tx _ _ _ => some tx
  | _ => none

/-- The categories with their numbers, in any order, are those of the rows. -/
structure IsGroupBy (groups : List (AdminNotificationCategory × ℕ))
    (rows : List AdminNotification) : Prop where
  nodup : (groups.map (·.1)).Nodup
  mem : ∀ c k, (c, k) ∈ groups ↔ 0 < k ∧ k = rows.countP (decide <| ·.category = c)

/-- What a request does, and how it may be answered. A statement waits for a row that another
transaction has written, and what fails takes its transaction with it. -/
inductive NotificationDoes : NotificationState → (q : NotificationQuery) → NotificationAnswer q →
    NotificationState → Prop where
  | failed (s : NotificationState) (q : NotificationQuery) :
      NotificationDoes s q none (s.rollback q.transaction)
  | begin (s : NotificationState) :
      NotificationDoes s .begin (some s.transactions)
        { s with transactions := s.transactions + 1 }
  | commit (s : NotificationState) (tx : ℕ) :
      NotificationDoes s (.commit tx) (some ()) (s.commit tx)
  | select (s : NotificationState) (tx : ℕ) (filter : NotificationFilter) (ids : List JsString)
      (h : ids.Perm ((s.matching filter (s.seenBy tx)).map (·.id))) :
      NotificationDoes s (.select tx filter) (some ids) s
  | write (s : NotificationState) (tx : ℕ) (userId id : JsString) (w : ReceiptWrite)
      (h : (s.receipts userId id).FreeFor tx) :
      NotificationDoes s (.write tx userId id w)
        (some (w.apply ((s.receipts userId id).seenBy tx)).isSome) (s.write tx userId id w)
  | findMany (s : NotificationState) (filter : NotificationFilter) (userId : JsString)
      (skip take : ℕ) :
      NotificationDoes s (.findMany filter userId skip take)
        (some (((((s.matching filter s.committed).mergeSort newestFirst).drop skip).take take).map
          fun n ↦ (n, s.committed userId n.id))) s
  | count (s : NotificationState) (filter : NotificationFilter) :
      NotificationDoes s (.count filter) (some (s.matching filter s.committed).length) s
  | groupByCategory (s : NotificationState) (filter : NotificationFilter)
      (groups : List (AdminNotificationCategory × ℕ))
      (h : IsGroupBy groups (s.matching filter s.committed)) :
      NotificationDoes s (.groupByCategory filter) (some groups) s
  | found (s : NotificationState) (filter : NotificationFilter) (userId : JsString)
      (n : AdminNotification) (h : n ∈ s.matching filter s.committed) :
      NotificationDoes s (.findFirst filter userId) (some (some (n, s.committed userId n.id))) s
  | notFound (s : NotificationState) (filter : NotificationFilter) (userId : JsString)
      (h : s.matching filter s.committed = []) :
      NotificationDoes s (.findFirst filter userId) (some none) s
  | create (s : NotificationState) (data : NotificationData) (id : JsString) (createdAt : ℤ)
      (h : ∀ n ∈ s.notifications, n.id ≠ id) :
      NotificationDoes s (.create data) (some (data.row id createdAt))
        { s with notifications := s.notifications ++ [data.row id createdAt] }

/-! ### `NotificationsService` -/

/-- A call, or a part of one. -/
abbrev NotificationTask : Type → Type :=
  ExceptT NotificationError (Task NotificationQuery NotificationAnswer)

/-- A request with its answer. -/
abbrev NotificationExchange : Type := Task.Exchange NotificationQuery NotificationAnswer

/-- Send a request. -/
def send (q : NotificationQuery) : NotificationTask (NotificationResult q) :=
  ExceptT.mk (.ask q fun
    | some a => .done (.ok a)
    | none => .done (.error .database))

/-- A transaction. -/
def transaction {α : Type} (body : ℕ → NotificationTask α) : NotificationTask α := do
  let tx ← send .begin
  let a ← body tx
  send (.commit tx)
  return a

/-- A statement comes to one row after the other. The number of those that it changes. -/
def writeEach (tx : ℕ) (userId : JsString) (w : ReceiptWrite) : List JsString → NotificationTask ℕ
  | [] => return 0
  | id :: ids => do
    let changed ← send (.write tx userId id w)
    let n ← writeEach tx userId w ids
    return (if changed then 1 else 0) + n

/-- A statement that writes the receipts of a user for the notifications that its snapshot finds. -/
def writeWhere (tx : ℕ) (userId : JsString) (w : ReceiptWrite) (filter : NotificationFilter) :
    NotificationTask ℕ := do
  let ids ← send (.select tx filter)
  writeEach tx userId w ids

/-- What a call answers. -/
inductive NotificationReply where
  | created (row : AdminNotification)
  | page (data : List AdminNotificationDto) (page limit total totalPages : ℕ)
  | unread (count : UnreadCount)
  | item (row : AdminNotificationDto)
  | updated (n : ℕ)
  | deleted (n : ℕ)

variable (C : NotificationConfig) (caller : NotificationCaller)

/-- `list`. The two statements are sent together, and may come in either order. -/
def list (query : ListAdminNotificationsQuery) (now : ℤ) (countFirst : Bool) :
    NotificationTask NotificationReply := do
  let filter := notificationListWhere C caller query (periodFloor query.period now)
  let find := NotificationQuery.findMany filter caller.id ((query.page - 1) * query.limit)
    query.limit
  -- The two queries are sent together and may be answered in either order.
  let (rows, total) ← if countFirst then do
      let total ← send (.count filter)
      let rows ← send find
      pure (rows, total)
    else do
      let rows ← send find
      let total ← send (.count filter)
      pure (rows, total)
  return .page (rows.map toAdminNotificationDto) query.page query.limit total
    (if total = 0 then 0 else (total + query.limit - 1) / query.limit)

/-- `unreadCount`. -/
def unreadCount : NotificationTask NotificationReply := do
  let groups ← send (.groupByCategory (allOf [visibleTo caller, unreadFor caller.id]))
  return .unread (toUnreadCount groups)

/-- `NOTIFICATION_ID_PATTERN`. -/
def notificationIdPattern (id : JsString) : Bool :=
  decide (id.length = 25) && decide (id.head? = some 99) &&
    id.tail.all fun c ↦ decide (97 ≤ c ∧ c ≤ 122) || decide (48 ≤ c ∧ c ≤ 57)

/-- `assertVisible`. -/
def assertVisible (id : JsString) : NotificationTask Unit := do
  if !notificationIdPattern id then throw .notFound
  match ← send (.findFirst (allOf [visibleTo caller, idIn [id]]) caller.id) with
  | none => throw .notFound
  | some _ => return ()

/-- `readOne`. -/
def readOne (id : JsString) : NotificationTask NotificationReply := do
  match ← send (.findFirst (allOf [visibleTo caller, idIn [id]]) caller.id) with
  | none => throw .notFound
  | some row => return .item (toAdminNotificationDto row)

/-- The condition of the `SELECT` of `markManyRead`. -/
def unreadTargets (ids : Option (List JsString)) : NotificationFilter :=
  allOf [targetRoleIn (visibleTargetRoles caller.role),
    match ids with
      | some ids => idIn ids
      | none => fun _ _ ↦ true,
    noReceipt caller.id fun r ↦ r.readAt.isSome || r.dismissedAt.isSome]

/-- `markManyRead`. -/
def markManyRead (ids : Option (List JsString)) (now : ℤ) : NotificationTask ℕ :=
  transaction fun tx ↦ writeWhere tx caller.id (.markRead now) (unreadTargets caller ids)

/-- `markRead`. -/
def markRead (id : JsString) (now : ℤ) : NotificationTask NotificationReply := do
  assertVisible caller id
  let _ ← markManyRead caller (some [id]) now
  readOne caller id

/-- `markUnread`. -/
def markUnread (id : JsString) : NotificationTask NotificationReply := do
  assertVisible caller id
  let _ ← transaction fun tx ↦ writeWhere tx caller.id .markUnread
    (allOf [idIn [id], someReceipt caller.id fun r ↦ r.readAt.isSome])
  readOne caller id

/-- `dismissIds`. -/
def dismissIds (ids : List JsString) (now : ℤ) : NotificationTask ℕ :=
  transaction fun tx ↦ do
    let targetIds ← send (.select tx (allOf [visibleTo caller, idIn ids]))
    if targetIds = [] then return 0
    let created ← writeEach tx caller.id (.createDismissed now) targetIds
    let updated ← writeWhere tx caller.id (.dismiss now)
      (allOf [idIn targetIds, someReceipt caller.id fun r ↦ r.dismissedAt.isNone])
    return created + updated

/-- `dismiss`. -/
def dismiss (ids : Option (List JsString)) (allRead : Option Bool) (now : ℤ) :
    NotificationTask NotificationReply := do
  if ids.isNone = allRead.isNone then throw .dismissTarget
  let deleted ← if allRead = some true then
      transaction fun tx ↦ writeWhere tx caller.id (.dismissRead now)
        (allOf [someReceipt caller.id fun r ↦ r.readAt.isSome && r.dismissedAt.isNone,
          targetRoleIn (visibleTargetRoles caller.role)])
    else dismissIds caller (ids.getD []) now
  return .deleted deleted

/-- `create`. -/
def create (input : CreateAdminNotificationInput) : NotificationTask NotificationReply := do
  let data ← ExceptT.mk (.done (normaliseCreateInput C input))
  let row ← send (.create data)
  return .created row

/-- The calls, each with the readings of its clock. -/
inductive NotificationCall where
  | create (input : CreateAdminNotificationInput)
  | list (caller : NotificationCaller) (query : ListAdminNotificationsQuery) (now : ℤ)
      (countFirst : Bool)
  | unreadCount (caller : NotificationCaller)
  | markRead (caller : NotificationCaller) (id : JsString) (now : ℤ)
  | markUnread (caller : NotificationCaller) (id : JsString)
  | markManyRead (caller : NotificationCaller) (ids : Option (List JsString)) (now : ℤ)
  | dismiss (caller : NotificationCaller) (ids : Option (List JsString)) (allRead : Option Bool)
      (now : ℤ)

/-- What a call does. -/
def NotificationCall.task : NotificationCall → NotificationTask NotificationReply
  | create input => Notifications.create C input
  | list caller query now countFirst => Notifications.list C caller query now countFirst
  | unreadCount caller => Notifications.unreadCount caller
  | markRead caller id now => Notifications.markRead caller id now
  | markUnread caller id => Notifications.markUnread caller id
  | markManyRead caller ids now => do return .updated (← Notifications.markManyRead caller ids now)
  | dismiss caller ids allRead now => Notifications.dismiss caller ids allRead now

/-- The notifications service. -/
def notifications : Actions NotificationState NotificationQuery NotificationAnswer
    (Except NotificationError NotificationReply) NotificationCall where
  task op := (op.task C).run
  does := NotificationDoes
  env _ _ := False

/-- The calls at one time. -/
abbrev NotificationWorld : Type :=
  World NotificationState NotificationQuery NotificationAnswer
    (Except NotificationError NotificationReply) NotificationCall

/-- What happens. -/
abbrev NotificationEvent : Type := Event NotificationQuery NotificationAnswer NotificationCall

end EasyBook.Notifications

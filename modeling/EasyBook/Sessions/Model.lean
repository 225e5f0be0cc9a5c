import EasyBook.Realtime.Model

/-!
# Sessions and their index

`session-tracker.service.ts`, `sessions.service.ts`, `SessionGuard`, and the login and logout of
`auth-system.controller.ts`. A session is a key of its own; besides there is a set of the session
ids of each account, the index, which the logins write and the reads prune. Every command is a
request of its own (`SessionQuery`), and a `MULTI` is one request.

Keys expire and are touched, accounts change, and time passes in between (`SessionEnv`).
-/

namespace EasyBook.Sessions

open Machine Realtime

/-- What a session holds. A field of another type than expected counts as missing. -/
structure SessionData where
  systemUserId : Option JsString
  createdAt : Option ℤ
  ip : Option JsString
  userAgent : Option JsString
  deriving DecidableEq

/-- What `JSON.parse` makes of the value of a session key. -/
inductive Raw where
  | junk
  | json (data : SessionData)
  deriving DecidableEq

/-- A session key. -/
structure SessionKey where
  raw : Raw
  expiresAt : ℤ
  deriving DecidableEq

/-- The session keys, the index with its expiries, and the accounts. -/
structure SessionState where
  clock : ℤ
  sessions : JsString → Slot SessionKey
  members : JsString → List JsString
  indexExpiresAt : JsString → ℤ
  users : JsString → Option SystemUser

/-- `SESSION_SECRET` as far as it makes the handles, and `SESSION_TTL_SECONDS`. -/
structure SessionConfig where
  handleOf : JsString → JsString
  ttlSeconds : ℤ

/-- `SESSION_INDEX_TTL_SECONDS`. -/
def sessionIndexTtlSeconds : ℤ := sessionAbsoluteMaxAgeMs / 1000 + 60

/-! ### Requests -/

/-- The requests. -/
inductive SessionQuery where
  | now
  /-- The session of a cookie, as the session store gets it. -/
  | load (sid : JsString)
  | destroy (sid : JsString)
  /-- The session is saved under an id that is generated for it. -/
  | save (data : SessionData)
  | validateCredentials
  | findUser (id : JsString)
  /-- The `MULTI` of `track`. -/
  | track (userId sid : JsString) (prev : Option (JsString × JsString))
  | srem (userId : JsString) (sids : List JsString)
  | smembers (userId : JsString)
  | get (sid : JsString)
  | pttl (sid : JsString)
  /-- The `MULTI` that deletes session keys and takes ids out of the index. -/
  | revoke (deleted : List JsString) (userId : JsString) (sids : List JsString)

/-- The answers. -/
abbrev SessionAnswer : SessionQuery → Type
  | .now | .pttl _ => ℤ
  | .load _ | .get _ => Option Raw
  | .save _ => JsString
  | .validateCredentials => Option JsString
  | .findUser _ => Read (Option SystemUser)
  | .smembers _ => List JsString
  | .revoke _ _ _ => List Bool
  | .destroy _ | .track _ _ _ | .srem _ _ => Unit

/-- `DEL` of a session key. -/
def del (sessions : JsString → Slot SessionKey) (sid : JsString) : JsString → Slot SessionKey :=
  if (sessions sid).get.isSome then Function.update sessions sid .gone else sessions

/-- One `DEL` after the other. -/
def delAll (sessions : JsString → Slot SessionKey) : List JsString → JsString → Slot SessionKey
  | [] => sessions
  | sid :: sids => delAll (del sessions sid) sids

/-- Whether they find a key. -/
def delReplies (sessions : JsString → Slot SessionKey) : List JsString → List Bool
  | [] => []
  | sid :: sids => (sessions sid).get.isSome :: delReplies (del sessions sid) sids

namespace SessionState

variable (s : SessionState)

/-- `SREM`. -/
def srem (userId : JsString) (sids : List JsString) : SessionState :=
  { s with members := Function.update s.members userId ((s.members userId).filter (· ∉ sids)) }

/-- `SREM` of the session that a login replaces. -/
def sremPrevious : Option (JsString × JsString) → SessionState
  | none => s
  | some prev => s.srem prev.1 [prev.2]

/-- `SADD` and `EXPIRE`. -/
def sadd (userId sid : JsString) : SessionState :=
  { s with
    members := Function.update s.members userId ((s.members userId).insert sid)
    indexExpiresAt :=
      Function.update s.indexExpiresAt userId (s.clock + sessionIndexTtlSeconds * 1000) }

/-- A session key is written. -/
def set (sid : JsString) (data : SessionData) (ttlSeconds : ℤ) : SessionState :=
  { s with
    sessions := Function.update s.sessions sid
      (.live ⟨.json data, s.clock + ttlSeconds * 1000⟩) }

end SessionState

/-- The time that is left of a key. -/
def pttlOf (clock : ℤ) : Slot SessionKey → ℤ
  | .live key => key.expiresAt - clock
  | _ => -2

/-- A request or an answer of a call. -/
abbrev SessionTask : Type → Type := Task SessionQuery SessionAnswer

/-- A request with its answer. -/
abbrev SessionExchange : Type := Task.Exchange SessionQuery SessionAnswer

variable (C : SessionConfig)

/-- What a request does, and how it may be answered. -/
inductive SessionDoes :
    SessionState → (q : SessionQuery) → SessionAnswer q → SessionState → Prop where
  | now (s : SessionState) : SessionDoes s .now s.clock s
  | load (s : SessionState) (sid : JsString) :
      SessionDoes s (.load sid) ((s.sessions sid).get.map (·.raw)) s
  | destroy (s : SessionState) (sid : JsString) :
      SessionDoes s (.destroy sid) () { s with sessions := del s.sessions sid }
  | save (s : SessionState) (data : SessionData) (sid : JsString) (h : s.sessions sid = .unused) :
      SessionDoes s (.save data) sid (s.set sid data C.ttlSeconds)
  | validateCredentials (s : SessionState) (user : Option JsString) :
      SessionDoes s .validateCredentials user s
  | findUser (s : SessionState) (id : JsString) :
      SessionDoes s (.findUser id) (.found (s.users id)) s
  | findUserFailed (s : SessionState) (id : JsString) : SessionDoes s (.findUser id) .failed s
  | track (s : SessionState) (userId sid : JsString) (prev : Option (JsString × JsString)) :
      SessionDoes s (.track userId sid prev) () ((s.sremPrevious prev).sadd userId sid)
  | srem (s : SessionState) (userId : JsString) (sids : List JsString) :
      SessionDoes s (.srem userId sids) () (s.srem userId sids)
  | smembers (s : SessionState) (userId : JsString) (sids : List JsString) (hnodup : sids.Nodup)
      (h : ∀ sid, sid ∈ sids ↔ sid ∈ s.members userId) : SessionDoes s (.smembers userId) sids s
  | get (s : SessionState) (sid : JsString) :
      SessionDoes s (.get sid) ((s.sessions sid).get.map (·.raw)) s
  | pttl (s : SessionState) (sid : JsString) :
      SessionDoes s (.pttl sid) (pttlOf s.clock (s.sessions sid)) s
  | revoke (s : SessionState) (deleted : List JsString) (userId : JsString) (sids : List JsString) :
      SessionDoes s (.revoke deleted userId sids) (delReplies s.sessions deleted)
        { s.srem userId sids with sessions := delAll s.sessions deleted }

/-- What happens besides. A session key may expire early, the index only when its time is over. -/
inductive SessionEnv : SessionState → SessionState → Prop where
  | tick (s : SessionState) (clock : ℤ) (h : s.clock ≤ clock) :
      SessionEnv s { s with clock := clock }
  | touch (s : SessionState) (sid : JsString) (key : SessionKey) (h : s.sessions sid = .live key)
      (expiresAt : ℤ) :
      SessionEnv s { s with
        sessions := Function.update s.sessions sid (.live { key with expiresAt := expiresAt }) }
  | expire (s : SessionState) (sid : JsString) :
      SessionEnv s { s with sessions := del s.sessions sid }
  | expireIndex (s : SessionState) (userId : JsString) (h : s.indexExpiresAt userId ≤ s.clock) :
      SessionEnv s { s with members := Function.update s.members userId [] }
  | write (s : SessionState) (id : JsString) (row : Option SystemUser) :
      SessionEnv s { s with users := Function.update s.users id row }

/-! ### `SessionGuard` -/

/-- Send a request. -/
def send (q : SessionQuery) : SessionTask (SessionAnswer q) := .request q

/-- How a call may fail. -/
inductive SessionError where
  | storeUnavailable
  | internal
  | authenticationRequired
  | accountUnavailable
  | mustChangePassword
  | invalidCredentials
  | cannotRevokeCurrentSession
  | sessionNotFound
  deriving DecidableEq

/-- `CurrentSessionContext`. -/
structure SessionContext where
  userId : JsString
  sid : JsString
  session : SessionData

/-- `SessionGuard`, from the read of the account on. -/
def guardAccount (allowPasswordChange : Bool) (ctx : SessionContext) :
    SessionTask (Except SessionError SessionContext) := do
  match ← send (.findUser ctx.userId) with
  | .failed => .done (.error .internal)
  | .found row =>
    match resolveSystemUser row with
    | none => do
      send (.destroy ctx.sid)
      .done (.error .accountUnavailable)
    | some user =>
      if user.mustChangePassword && !allowPasswordChange then .done (.error .mustChangePassword)
      else .done (.ok ctx)

/-- `SessionGuard`, for the session of the cookie. -/
def sessionGuard (allowPasswordChange : Bool) (sid : JsString) :
    SessionTask (Except SessionError SessionContext) := do
  match ← send (.load sid) with
  | none => .done (.error .authenticationRequired)
  | some .junk => .done (.error .storeUnavailable)
  | some (.json session) =>
    match session.systemUserId.filter (· ≠ []) with
    | none => .done (.error .authenticationRequired)
    | some userId => do
      let now ← send .now
      if sessionAbsoluteMaxAgeMs < now - session.createdAt.getD 0 then do
        send (.destroy sid)
        .done (.error .authenticationRequired)
      else guardAccount allowPasswordChange ⟨userId, sid, session⟩

/-! ### `SessionTrackerService` -/

/-- `TrackedSession`. -/
structure TrackedSession where
  sid : JsString
  handle : JsString
  loginAt : ℤ
  lastActiveAt : ℤ
  ip : Option JsString
  userAgent : Option JsString

/-- `Classified`. -/
inductive Classified where
  | live (session : TrackedSession)
  | pastCap
  | foreign
  | missing

/-- The session, if it is live. -/
def Classified.session : Classified → Option TrackedSession
  | live session => some session
  | _ => none

/-- Whether its key is to be deleted. -/
def Classified.isOwn : Classified → Bool
  | live _ | pastCap => true
  | foreign | missing => false

/-- `classify`. -/
def classify (userId sid : JsString) (raw : Option Raw) (pttl now : ℤ) : Classified :=
  match raw with
  | none | some .junk => .missing
  | some (.json data) =>
    if data.systemUserId ≠ some userId then .foreign
    else match data.createdAt with
      | none => .pastCap
      | some loginAt =>
        if sessionAbsoluteMaxAgeMs < now - loginAt then .pastCap
        else
          let idleMs := if 0 ≤ pttl then C.ttlSeconds * 1000 - pttl else now - loginAt
          .live ⟨sid, C.handleOf sid, loginAt, min (max (now - idleMs) loginAt) now, data.ip,
            data.userAgent⟩

/-- The `GET` and the `PTTL` of every id. -/
def readKeys : List JsString → SessionTask (List (JsString × Option Raw × ℤ))
  | [] => .done []
  | sid :: sids => do
    let raw ← send (.get sid)
    let pttl ← send (.pttl sid)
    let replies ← readKeys sids
    .done ((sid, raw, pttl) :: replies)

/-- A member of the index, with its key as it was read. -/
structure Member where
  sid : JsString
  classified : Classified

/-- `readMembers`. -/
def readMembers (userId : JsString) : SessionTask (List Member) := do
  let sids ← send (.smembers userId)
  if sids = [] then .done []
  else do
    let replies ← readKeys sids
    let now ← send .now
    .done (replies.map fun r ↦ ⟨r.1, classify C userId r.1 r.2.1 r.2.2 now⟩)

/-- `list`. -/
def listTracked (userId : JsString) : SessionTask (List TrackedSession) := do
  let members ← readMembers C userId
  let stale := (members.filter (·.classified.session.isNone)).map (·.sid)
  let sessions := members.filterMap (·.classified.session)
  if stale = [] then .done sessions
  else do
    send (.srem userId stale)
    .done sessions

/-- `resolveHandle`. -/
def resolveHandle (userId handle : JsString) : SessionTask (Option TrackedSession) := do
  let sessions ← listTracked C userId
  .done (sessions.find? fun s ↦ decide (s.handle = handle))

/-- `revokeOne` of the tracker. -/
def revokeSid (userId sid : JsString) : SessionTask Bool := do
  let results ← send (.revoke [sid] userId [sid])
  .done (results.head? = some true)

/-- The sessions of `revoked`, from the members and what the `DEL`s have answered. -/
def revokedLive (toDelete : List Member) (results : List Bool) : List Member :=
  ((toDelete.zip results).filter fun m ↦ m.1.classified.session.isSome && m.2).map (·.1)

/-- `revokeAll`. -/
def revokeAll (userId : JsString) (except : Option JsString) : SessionTask ℕ := do
  let members ← readMembers C userId
  let members := members.filter fun m ↦ decide (some m.sid ≠ except)
  if members.isEmpty then .done 0
  else do
    let toDelete := members.filter (·.classified.isOwn)
    let results ← send (.revoke (toDelete.map (·.sid)) userId (members.map (·.sid)))
    .done (revokedLive toDelete results).length

/-! ### Login and logout -/

/-- The session that a request carries. -/
def loadSession : Option JsString → SessionTask (Except SessionError (Option SessionContext))
  | none => .done (.ok none)
  | some sid => do
    match ← send (.load sid) with
    | none => .done (.ok none)
    | some .junk => .done (.error .storeUnavailable)
    | some (.json session) => .done (.ok (some ⟨session.systemUserId.getD [], sid, session⟩))

/-- `login`, once the credentials are found to be right. -/
def openSession (carried : Option SessionContext) (userId ip userAgent : JsString) :
    SessionTask JsString := do
  let now ← send .now
  let sid ← send (.save ⟨some userId, some now, some ip, some userAgent⟩)
  send (.track userId sid ((carried.filter (·.userId ≠ [])).map fun c ↦ (c.userId, c.sid)))
  .done sid

/-- `regenerate`: the key of the session that the request carries is deleted. -/
def regenerate : Option SessionContext → SessionTask Unit
  | none => .done ()
  | some carried => send (.destroy carried.sid)

/-- `login`. -/
def login (cookie : Option JsString) (ip userAgent : JsString) :
    SessionTask (Except SessionError JsString) := do
  match ← loadSession cookie with
  | .error e => .done (.error e)
  | .ok carried => do
    match ← send .validateCredentials with
    | none => .done (.error .invalidCredentials)
    | some userId => do
      regenerate carried
      let sid ← openSession carried userId ip userAgent
      .done (.ok sid)

/-- `logout`. -/
def logout (ctx : SessionContext) : SessionTask Unit := do
  send (.destroy ctx.sid)
  send (.srem ctx.userId [ctx.sid])

/-! ### `SessionsService` -/

/-- `SessionItemDto`, with the user agent that the device is parsed from. -/
structure SessionItem where
  handle : JsString
  isCurrent : Bool
  userAgent : Option JsString
  ipAddress : Option JsString
  loginAt : ℤ
  lastActiveAt : ℤ

/-- `toItem`. -/
def toItem (session : TrackedSession) : SessionItem where
  handle := session.handle
  isCurrent := false
  userAgent := session.userAgent
  ipAddress := session.ip
  loginAt := session.loginAt
  lastActiveAt := session.lastActiveAt

/-- The most recently active session first. -/
def recentFirst (a b : TrackedSession) : Bool :=
  decide (b.lastActiveAt < a.lastActiveAt ∨
    b.lastActiveAt = a.lastActiveAt ∧ b.loginAt ≤ a.loginAt)

/-- What the calls answer. -/
inductive SessionReply where
  | signedIn (sid : JsString)
  | signedOut
  | passed
  | sessions (current : SessionItem) (others : List SessionItem)
  | tracked (sessions : List TrackedSession)
  | revoked (n : ℕ)

/-- `list`. -/
def list (ctx : SessionContext) : SessionTask SessionReply := do
  let now ← send .now
  let tracked ← listTracked C ctx.userId
  let current : SessionItem := ⟨C.handleOf ctx.sid, true, ctx.session.userAgent, ctx.session.ip,
    ctx.session.createdAt.getD now, now⟩
  .done (.sessions current
    (((tracked.filter (·.sid ≠ ctx.sid)).mergeSort recentFirst).map toItem))

/-- `revokeOthers`. -/
def revokeOthers (ctx : SessionContext) : SessionTask ℕ := revokeAll C ctx.userId (some ctx.sid)

/-- The characters of `SESSION_HANDLE_PATTERN`. -/
def isHandleChar (c : ℕ) : Bool :=
  decide (65 ≤ c ∧ c ≤ 90 ∨ 97 ≤ c ∧ c ≤ 122 ∨ 48 ≤ c ∧ c ≤ 57 ∨ c = 95 ∨ c = 45)

/-- `SESSION_HANDLE_PATTERN`. -/
def isHandle (handle : JsString) : Bool := decide (handle.length = 22) && handle.all isHandleChar

/-- `revokeOne`. -/
def revokeOne (ctx : SessionContext) (handle : JsString) :
    SessionTask (Except SessionError ℕ) := do
  if handle = C.handleOf ctx.sid then .done (.error .cannotRevokeCurrentSession)
  else if !isHandle handle then .done (.error .sessionNotFound)
  else do
    match ← resolveHandle C ctx.userId handle with
    | none => .done (.error .sessionNotFound)
    | some target => do
      if ← revokeSid ctx.userId target.sid then .done (.ok 1)
      else .done (.error .sessionNotFound)

/-! ### The system -/

/-- The calls. The first three operations on the sessions are those that an account has on its own
ones, and the last two those that others have. -/
inductive SessionCall where
  | login (cookie : Option JsString) (ip userAgent : JsString)
  | logout (sid : JsString)
  /-- Any other request that `SessionGuard` stands before. -/
  | pass (allowPasswordChange : Bool) (sid : JsString)
  | list (sid : JsString)
  | revokeOne (sid handle : JsString)
  | revokeOthers (sid : JsString)
  | summary (userId : JsString)
  | forceRevoke (userId : JsString)

/-- How they end. -/
abbrev SessionResult : Type := Except SessionError SessionReply

/-- What comes after the guard. -/
def guarded (allowPasswordChange : Bool) (sid : JsString)
    (f : SessionContext → SessionTask SessionResult) : SessionTask SessionResult := do
  match ← sessionGuard allowPasswordChange sid with
  | .error e => .done (.error e)
  | .ok ctx => f ctx

/-- What is behind the calls. -/
def SessionCall.task : SessionCall → SessionTask SessionResult
  | login cookie ip userAgent => do
    let r ← Sessions.login cookie ip userAgent
    .done (r.map .signedIn)
  | logout sid => guarded true sid fun ctx ↦ do
    Sessions.logout ctx
    .done (.ok .signedOut)
  | pass allowPasswordChange sid => guarded allowPasswordChange sid fun _ ↦ .done (.ok .passed)
  | list sid => guarded false sid fun ctx ↦ do
    let r ← Sessions.list C ctx
    .done (.ok r)
  | revokeOne sid handle => guarded false sid fun ctx ↦ do
    let r ← Sessions.revokeOne C ctx handle
    .done (r.map .revoked)
  | revokeOthers sid => guarded false sid fun ctx ↦ do
    let n ← Sessions.revokeOthers C ctx
    .done (.ok (.revoked n))
  | summary userId => do
    let sessions ← listTracked C userId
    .done (.ok (.tracked sessions))
  | forceRevoke userId => do
    let n ← revokeAll C userId none
    .done (.ok (.revoked n))

/-- The sessions of the back office. -/
def sessions : Actions SessionState SessionQuery SessionAnswer SessionResult SessionCall where
  task := SessionCall.task C
  does := SessionDoes C
  env := SessionEnv

/-- A state of the system. -/
abbrev SessionWorld : Type :=
  World SessionState SessionQuery SessionAnswer SessionResult SessionCall

/-- An event of the system. -/
abbrev SessionEvent : Type := Event SessionQuery SessionAnswer SessionCall

/-- No session and no account. -/
def SessionState.init : SessionState :=
  ⟨0, fun _ ↦ .unused, fun _ ↦ [], fun _ ↦ 0, fun _ ↦ none⟩

end EasyBook.Sessions

import EasyBook.Bookings.Model
import EasyBook.Ecma.OrderedMap
import EasyBook.Machine.World

/-!
# The sockets of the back office

`realtime.gateway.ts` and `realtime.handshake.ts`: the handshake that authorises a socket of the
`/admin` namespace, and the sweep that authorises it again. Their requests (`SocketQuery`) go to the
session store, to the database, and to the namespace itself, whose sockets they connect, close and
put into the room of the super admins. A read may fail.

The sessions, the accounts and the clients have lives of their own (`SocketEnv`). A session id is
given once, and a socket is connected once.
-/

namespace EasyBook.Realtime

open Machine

/-- `SessionData`. The id is empty where there is none. -/
structure SessionData where
  systemUserId : JsString
  createdAt : ℤ
  deriving DecidableEq

/-- What a name stands for that is given once: a session id, or a socket. -/
inductive Slot (α : Type) where
  | unused
  | live (a : α)
  | gone
  deriving DecidableEq

/-- What is found under the name. -/
def Slot.get {α : Type} : Slot α → Option α
  | live a => some a
  | _ => none

theorem Slot.get_eq_some {α : Type} {slot : Slot α} {a : α} :
    slot.get = some a ↔ slot = .live a := by
  cases slot <;> simp [get]

/-- A row of `system_users`, as far as it is read here. -/
structure SystemUser where
  role : SystemRole
  mustChangePassword : Bool
  isActive : Bool
  deletedAt : Option ℤ
  deriving DecidableEq

/-- `RealtimeSocketData`. -/
structure SocketData where
  systemUserId : JsString
  sid : JsString
  role : SystemRole
  deriving DecidableEq

/-- A socket of the namespace, with its room. -/
structure Socket where
  data : SocketData
  inSuperRoom : Bool
  deriving DecidableEq

/-- The stores, the namespace, and `sweeping`. -/
structure SocketState where
  clock : ℤ
  sessions : JsString → Slot SessionData
  users : JsString → Option SystemUser
  sockets : ℕ → Slot Socket
  sweeping : Bool

/-- A read, which may fail. -/
inductive Read (α : Type) where
  | failed
  | found (a : α)

/-! ### Who may hold a socket -/

/-- `SESSION_ABSOLUTE_MAX_AGE_MS`. -/
def sessionAbsoluteMaxAgeMs : ℤ := 24 * 60 * 60 * 1000

/-- `resolveSystemUserById`, from the row read. -/
def resolveSystemUser (row : Option SystemUser) : Option SystemUser :=
  row.filter fun user ↦ user.deletedAt.isNone && user.isActive

/-- `isRealtimeEligible`. -/
def isRealtimeEligible (user : SystemUser) : Bool :=
  !user.mustChangePassword && decide (user.role = .superAdmin ∨ user.role = .admin)

/-- The user of the row, if the row may hold a socket. -/
def eligible (row : Option SystemUser) : Option SystemUser :=
  (resolveSystemUser row).filter isRealtimeEligible

/-- `applyRoleRoom`. -/
def applyRoleRoom (role : SystemRole) (socket : Socket) : Socket where
  data := { socket.data with role := role }
  inSuperRoom := decide (role = .superAdmin)

/-! ### Requests -/

/-- The requests. -/
inductive SocketQuery where
  | now
  | readSession (sid : JsString)
  | findUser (id : JsString)
  /-- The connection of an authorised socket, with `handleConnection`. -/
  | connect (data : SocketData)
  /-- The start of a sweep: what it finds in the namespace, unless there is nothing to do. -/
  | begin
  | closeAll (sockets : List ℕ)
  | applyRole (sockets : List ℕ) (role : SystemRole)
  /-- The end of a sweep. -/
  | finish

/-- The answers. -/
abbrev SocketAnswer : SocketQuery → Type
  | .now => ℤ
  | .readSession _ => Read (Option SessionData)
  | .findUser _ => Read (Option SystemUser)
  | .connect _ => ℕ
  | .begin => Option (List (ℕ × SocketData))
  | .closeAll _ | .applyRole _ _ | .finish => Unit

namespace SocketState

variable (s : SocketState)

/-- A socket enters the namespace, and the room of its role. -/
def connect (n : ℕ) (data : SocketData) : SocketState :=
  { s with sockets := Function.update s.sockets n (.live (applyRoleRoom data.role ⟨data, false⟩)) }

/-- Sockets are disconnected. -/
def closeAll (sockets : List ℕ) : SocketState :=
  { s with sockets := fun n ↦ if n ∈ sockets then .gone else s.sockets n }

/-- The role of the sockets that are still there is set, and their room. -/
def applyRole (sockets : List ℕ) (role : SystemRole) : SocketState :=
  { s with sockets := fun n ↦
      match s.sockets n with
      | .live socket => .live (if n ∈ sockets then applyRoleRoom role socket else socket)
      | slot => slot }

end SocketState

/-- A handshake or a sweep. -/
abbrev SocketTask : Type → Type := Task SocketQuery SocketAnswer

/-- A request with its answer. -/
abbrev SocketExchange : Type := Task.Exchange SocketQuery SocketAnswer

/-- What a request does, and how it may be answered. -/
inductive SocketDoes : SocketState → (q : SocketQuery) → SocketAnswer q → SocketState → Prop where
  | now (s : SocketState) : SocketDoes s .now s.clock s
  | readSession (s : SocketState) (sid : JsString) :
      SocketDoes s (.readSession sid) (.found (s.sessions sid).get) s
  | readSessionFailed (s : SocketState) (sid : JsString) : SocketDoes s (.readSession sid) .failed s
  | findUser (s : SocketState) (id : JsString) : SocketDoes s (.findUser id) (.found (s.users id)) s
  | findUserFailed (s : SocketState) (id : JsString) : SocketDoes s (.findUser id) .failed s
  | connect (s : SocketState) (data : SocketData) (n : ℕ) (h : s.sockets n = .unused) :
      SocketDoes s (.connect data) n (s.connect n data)
  /-- A sweep that is under way already is not stacked, and there may be no socket. -/
  | idle (s : SocketState) (h : s.sweeping = true ∨ ∀ n, (s.sockets n).get = none) :
      SocketDoes s .begin none s
  | begin (s : SocketState) (sockets : List (ℕ × SocketData)) (h : s.sweeping = false)
      (hne : sockets ≠ [])
      (hmem : ∀ n data, (n, data) ∈ sockets ↔ (s.sockets n).get.map (·.data) = some data) :
      SocketDoes s .begin (some sockets) { s with sweeping := true }
  | closeAll (s : SocketState) (sockets : List ℕ) :
      SocketDoes s (.closeAll sockets) () (s.closeAll sockets)
  | applyRole (s : SocketState) (sockets : List ℕ) (role : SystemRole) :
      SocketDoes s (.applyRole sockets role) () (s.applyRole sockets role)
  | finish (s : SocketState) : SocketDoes s .finish () { s with sweeping := false }

/-- What happens besides: time passes, sessions come and go, accounts change, and clients leave. -/
inductive SocketEnv : SocketState → SocketState → Prop where
  | tick (s : SocketState) (clock : ℤ) (h : s.clock ≤ clock) : SocketEnv s { s with clock := clock }
  | login (s : SocketState) (sid : JsString) (session : SessionData)
      (h : s.sessions sid = .unused) :
      SocketEnv s { s with sessions := Function.update s.sessions sid (.live session) }
  | destroy (s : SocketState) (sid : JsString) :
      SocketEnv s { s with sessions := Function.update s.sessions sid .gone }
  | write (s : SocketState) (id : JsString) (row : Option SystemUser) :
      SocketEnv s { s with users := Function.update s.users id row }
  | leave (s : SocketState) (n : ℕ) :
      SocketEnv s { s with sockets := Function.update s.sockets n .gone }

/-! ### The handshake -/

/-- Send a request. -/
def send (q : SocketQuery) : SocketTask (SocketAnswer q) := .request q

/-- `REALTIME_ERRORS`. -/
inductive HandshakeError where
  | sessionStoreUnavailable
  | unauthenticated
  | forbidden
  deriving DecidableEq

/-- `createAuthenticateMiddleware`, from the read of the user on, and the connection. -/
def authenticate (id sid : JsString) : SocketTask (Except HandshakeError ℕ) := do
  match ← send (.findUser id) with
  | .failed => .done (.error .unauthenticated)
  | .found row =>
    match resolveSystemUser row with
    | none => .done (.error .unauthenticated)
    | some user =>
      if isRealtimeEligible user then do
        let n ← send (.connect ⟨id, sid, user.role⟩)
        .done (.ok n)
      else .done (.error .forbidden)

/-- The handshake of a client whose cookie names a session. -/
def handshake (sid : JsString) : SocketTask (Except HandshakeError ℕ) := do
  match ← send (.readSession sid) with
  | .failed => .done (.error .sessionStoreUnavailable)
  | .found none => .done (.error .unauthenticated)
  | .found (some session) =>
    if session.systemUserId = [] then .done (.error .unauthenticated)
    else do
      let now ← send .now
      if sessionAbsoluteMaxAgeMs < now - session.createdAt then .done (.error .unauthenticated)
      else authenticate session.systemUserId sid

/-! ### The sweep -/

/-- The sockets of a group. -/
abbrev Group : Type := List (ℕ × SocketData)

/-- The groups of one key each, in the order in which they come. -/
abbrev Groups : Type := List (JsString × Group)

/-- `expectedUserId`. -/
def expectedUserId (group : Group) : JsString := (group.head?.map (·.2.systemUserId)).getD []

/-- `sweepBySid`, from the groups on: the sockets that it leaves open. -/
def sweepBySid : Groups → SocketTask Group
  | [] => .done []
  | (sid, group) :: groups =>
    -- Sockets without a session id have nothing to be checked against.
    if sid = [] then do
      send (.closeAll (group.map (·.1)))
      sweepBySid groups
    else do
      match ← send (.readSession sid) with
      -- A session that cannot be read closes its sockets, and the sweep goes on.
      | .failed => do
        send (.closeAll (group.map (·.1)))
        sweepBySid groups
      | .found session => do
        let now ← send .now
        if session.any fun data ↦ decide (data.systemUserId = expectedUserId group ∧
            now - data.createdAt ≤ sessionAbsoluteMaxAgeMs) then do
          let survivors ← sweepBySid groups
          .done (group ++ survivors)
        -- Gone, another user's, or past its absolute age.
        else do
          send (.closeAll (group.map (·.1)))
          sweepBySid groups

/-- `sweepByUser`, from the groups on. A read that fails ends it. -/
def sweepByUser : Groups → SocketTask Unit
  | [] => .done ()
  | (systemUserId, group) :: groups =>
    if systemUserId = [] then do
      send (.closeAll (group.map (·.1)))
      sweepByUser groups
    else do
      match ← send (.findUser systemUserId) with
      -- There is no `catch` here: what comes after is not reached.
      | .failed => .done ()
      | .found row =>
        match eligible row with
        | none => do
          send (.closeAll (group.map (·.1)))
          sweepByUser groups
        | some user => do
          send (.applyRole (group.map (·.1)) user.role)
          sweepByUser groups

/-- What a sweep does between its start and its end. -/
def revalidate (sockets : Group) : SocketTask Unit := do
  let survivors ← sweepBySid (groupBy (·.2.sid) sockets)
  sweepByUser (groupBy (·.2.systemUserId) survivors)

/-- `sweep`. -/
def sweep : SocketTask Unit := do
  match ← send .begin with
  | none => .done ()
  | some sockets => do
    revalidate sockets
    send .finish

/-! ### The system -/

/-- The calls. -/
inductive SocketCall where
  | handshake (sid : JsString)
  | sweep

/-- How they end. -/
abbrev SocketResult : Type := Except HandshakeError ℕ ⊕ Unit

/-- What is behind the calls. -/
def SocketCall.task : SocketCall → SocketTask SocketResult
  | handshake sid => do
    let r ← Realtime.handshake sid
    .done (.inl r)
  | sweep => do
    Realtime.sweep
    .done (.inr ())

/-- The gateway. -/
def gateway : Actions SocketState SocketQuery SocketAnswer SocketResult SocketCall where
  task := SocketCall.task
  does := SocketDoes
  env := SocketEnv

/-- A state of the system. -/
abbrev SocketWorld : Type := World SocketState SocketQuery SocketAnswer SocketResult SocketCall

/-- An event of the system. -/
abbrev SocketEvent : Type := Event SocketQuery SocketAnswer SocketCall

/-- No session, no account, no socket. -/
def SocketState.init : SocketState := ⟨0, fun _ ↦ .unused, fun _ ↦ none, fun _ ↦ .unused, false⟩

end EasyBook.Realtime

import EasyBook.Ecma.Text

/-!
# Incidents

What the recorder hands to the store: a record that has been redacted and has no id yet.
-/

namespace EasyBook.Incidents

open JsString

/-- `MESSAGE_MAX`. -/
def messageMax : ℕ := 500

/-- `IncidentSeverity`. -/
inductive IncidentSeverity where
  | critical
  | error
  | warning
  deriving DecidableEq, Repr

/-- `IncidentComponent`. -/
inductive IncidentComponent where
  | lineOa
  | prismaDb
  | cloudflareR2
  | redis
  | auth
  | api
  deriving DecidableEq, Repr

/-- The values of the enumeration. -/
def IncidentSeverity.text : IncidentSeverity → JsString
  | critical => lit "CRITICAL"
  | error => lit "ERROR"
  | warning => lit "WARNING"

/-- The values of the enumeration. -/
def IncidentComponent.text : IncidentComponent → JsString
  | lineOa => lit "LINE_OA"
  | prismaDb => lit "PRISMA_DB"
  | cloudflareR2 => lit "CLOUDFLARE_R2"
  | redis => lit "REDIS"
  | auth => lit "AUTH"
  | api => lit "API"

/-- `IncidentCallerKind`. -/
inductive IncidentCallerKind where
  | staff
  | lineUser
  | linePlatform
  | anonymous
  | system
  deriving DecidableEq, Repr

/-- `IncidentCaller`. -/
structure IncidentCaller where
  kind : IncidentCallerKind
  label : JsString
  deriving DecidableEq, Repr

/-- `IncidentContext`. -/
structure IncidentContext where
  operation : Option JsString := none
  attempt : Option ℤ := none
  attempts : Option ℤ := none
  latencyMs : Option ℤ := none
  budgetMs : Option ℤ := none
  upstreamStatus : Option ℤ := none
  lineErrorKind : Option JsString := none
  prismaCode : Option JsString := none
  sqlState : Option JsString := none
  prismaTarget : Option JsString := none
  bucket : Option JsString := none
  keyPrefix : Option JsString := none
  suppressedCount : Option ℕ := none
  params : Option (List (JsString × JsString)) := none
  deriving DecidableEq, Repr

/-- `IncidentDraftRecord`. -/
structure IncidentDraftRecord where
  traceId : JsString
  atMs : ℤ
  severity : IncidentSeverity
  component : IncidentComponent
  status : Option ℕ
  method : Option JsString
  path : Option JsString
  routeTemplate : Option JsString
  message : JsString
  caller : IncidentCaller
  ip : Option JsString
  userAgent : Option JsString
  errorCode : Option JsString
  queryKeys : List JsString
  stack : Option JsString
  context : IncidentContext
  deriving DecidableEq, Repr

/-- The texts of a record that come from a caller and are written to the ring. -/
def IncidentDraftRecord.texts (r : IncidentDraftRecord) : List JsString :=
  r.traceId :: r.method.toList ++ r.path.toList ++ r.routeTemplate.toList ++
    r.message :: r.caller.label :: r.ip.toList

end EasyBook.Incidents

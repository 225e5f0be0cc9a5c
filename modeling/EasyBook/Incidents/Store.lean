import EasyBook.Ecma.Surrogates
import EasyBook.Incidents.Record
import EasyBook.Machine.Redis

/-!
# The incident store

`IncidentStore`: a ring of summaries in Redis, newest first, and a hash with the details of each. A
script adds an incident and drops what is too old or too many, another one purges what is older than
a date.

An entry of the ring is the text that `JSON.stringify` makes of a summary. It is given by the
summary, which `JSON.parse` reads back; `cjson.decode` does so unless the text has the escape of a
surrogate that stands alone.
-/

namespace EasyBook.IncidentRing

open JsString Redis
open Incidents (IncidentSeverity IncidentComponent IncidentCaller IncidentDraftRecord messageMax)

/-! ### Records -/

/-- `IncidentDetailRecord`. -/
structure IncidentDetailRecord extends IncidentDraftRecord where
  id : JsString
  seq : ℕ

/-- `IncidentSummaryRecord`. -/
structure IncidentSummaryRecord where
  id : JsString
  seq : ℕ
  traceId : JsString
  atMs : ℤ
  severity : IncidentSeverity
  component : IncidentComponent
  status : Option ℕ
  method : Option JsString
  path : Option JsString
  routeTemplate : Option JsString
  message : JsString
  caller : IncidentCaller
  ip : Option JsString
  deriving DecidableEq

/-- `summaryOf`. -/
def summaryOf (r : IncidentDetailRecord) : IncidentSummaryRecord where
  id := r.id
  seq := r.seq
  traceId := r.traceId
  atMs := r.atMs
  severity := r.severity
  component := r.component
  status := r.status
  method := r.method
  path := r.path
  routeTemplate := r.routeTemplate
  message := r.message
  caller := r.caller
  ip := r.ip

/-- `messageOf`, of a text that is scrubbed. -/
def messageOf (scrubbed : JsString) : JsString := scrubbed.take messageMax

/-- The texts of a summary that are not among a few constants. -/
def IncidentSummaryRecord.texts (r : IncidentSummaryRecord) : List JsString :=
  r.id :: r.traceId :: r.method.toList ++ r.path.toList ++ r.routeTemplate.toList ++
    r.message :: r.caller.label :: r.ip.toList

/-- `cjson.decode`, of the text of a summary. -/
def cjsonDecode (r : IncidentSummaryRecord) : Option IncidentSummaryRecord :=
  if ∀ t ∈ r.texts, WellFormed t then some r else none

/-! ### The store -/

/-- `INCIDENT_CAP`. -/
def incidentCap : ℤ := 5000

/-- `INCIDENT_MAX_AGE_DAYS`. -/
def incidentMaxAgeDays : ℤ := 90

/-- `DAY_MS`. -/
def dayMs : ℤ := 86400000

/-- `IncidentStoreOptions`. -/
structure IncidentStoreOptions where
  cap : Option ℤ
  maxAgeDays : Option ℤ

/-- `IncidentStore`. -/
structure IncidentStore where
  cap : ℤ
  maxAgeMs : ℤ

/-- The constructor of `IncidentStore`. -/
def IncidentStore.ofOptions (options : IncidentStoreOptions) : IncidentStore where
  cap := options.cap.getD incidentCap
  maxAgeMs := options.maxAgeDays.getD incidentMaxAgeDays * dayMs

/-- The three keys of the store. -/
structure Keyspace where
  ring : List IncidentSummaryRecord
  detail : Hash JsString IncidentDetailRecord
  seq : ℕ

/-- Nothing is stored. -/
def Keyspace.empty : Keyspace := ⟨[], fun _ ↦ none, 0⟩

/-- The loop of `ADD_LUA` over the tail of the ring. -/
def dropTail (cutoff : ℤ) : ℕ → Keyspace → Keyspace
  | 0, s => s
  | n + 1, s =>
    match s.ring.getLast? with
    | none => s
    | some tail =>
      match cjsonDecode tail with
      | none => dropTail cutoff n { s with ring := s.ring.dropLast }
      | some rec =>
        if rec.atMs < cutoff then
          dropTail cutoff n { s with ring := s.ring.dropLast, detail := hdel s.detail rec.id }
        else s

/-- The details of an entry that `cjson.decode` reads are deleted. -/
def dropDetail (detail : Hash JsString IncidentDetailRecord) (v : IncidentSummaryRecord) :
    Hash JsString IncidentDetailRecord :=
  match cjsonDecode v with
  | none => detail
  | some rec => hdel detail rec.id

/-- What `ADD_LUA` does about the length of the ring. -/
def dropExtra (cap : ℤ) (s : Keyspace) : Keyspace :=
  if s.ring.length > cap then
    { s with
      ring := ltrim s.ring 0 (cap - 1)
      detail := (lrange s.ring cap (-1)).foldl dropDetail s.detail }
  else s

/-- `ADD_LUA`. -/
def incidentAdd (C : IncidentStore) (now : ℤ) (full : IncidentDetailRecord) (s : Keyspace) :
    Keyspace :=
  dropExtra C.cap (dropTail (now - C.maxAgeMs) 100
    { s with ring := summaryOf full :: s.ring, detail := hset s.detail full.id full })

/-- The id of an incident. -/
def mintId (status : Option ℕ) (seq : ℕ) : JsString :=
  lit "ERR-" ++ (status.map (radix 10)).getD (lit "SYS") ++ lit "-" ++ padStart 4 48 (radix 10 seq)

/-- The record with its id. -/
def mint (record : IncidentDraftRecord) (seq : ℕ) : IncidentDetailRecord :=
  { record with id := mintId record.status seq, seq }

/-- `add`. -/
def add (C : IncidentStore) (now : ℤ) (record : IncidentDraftRecord) (s : Keyspace) :
    JsString × Keyspace :=
  let full := mint record (s.seq + 1)
  (full.id, incidentAdd C now full { s with seq := s.seq + 1 })

/-- `(a, b) => b.atMs - a.atMs || b.seq - a.seq`. -/
def newestFirst (a b : IncidentSummaryRecord) : Bool :=
  decide (b.atMs < a.atMs ∨ b.atMs = a.atMs ∧ b.seq ≤ a.seq)

/-- `list`. -/
def list (C : IncidentStore) (now : ℤ) (s : Keyspace) : List IncidentSummaryRecord :=
  let raw := lrange s.ring 0 (-1)
  (raw.filter fun rec ↦ decide (now - C.maxAgeMs ≤ rec.atMs)).mergeSort newestFirst

/-- The variables of `PURGE_LUA`. -/
structure Purge where
  kept : List IncidentSummaryRecord
  removed : ℕ
  detail : Hash JsString IncidentDetailRecord

/-- A round of `PURGE_LUA`. -/
def Purge.visit (cutoff : ℤ) (p : Purge) (v : IncidentSummaryRecord) : Purge :=
  match cjsonDecode v with
  | none => { p with kept := p.kept ++ [v] }
  | some rec =>
    if rec.atMs < cutoff then
      { p with removed := p.removed + 1, detail := hdel p.detail rec.id }
    else { p with kept := p.kept ++ [v] }

/-- The entries are pushed a thousand at a time. -/
def rpushAll (ring kept : List IncidentSummaryRecord) : List IncidentSummaryRecord :=
  if kept = [] then ring else rpushAll (ring ++ kept.take 1000) (kept.drop 1000)
termination_by kept.length
decreasing_by
  rename_i hne
  have := List.length_pos_iff.mpr hne
  rw [List.length_drop]
  omega

/-- `purgeBefore`. -/
def purgeBefore (cutoff : ℤ) (s : Keyspace) : ℕ × Keyspace :=
  let p := (lrange s.ring 0 (-1)).foldl (Purge.visit cutoff) ⟨[], 0, s.detail⟩
  (p.removed,
    { s with
      ring := if p.removed > 0 then rpushAll [] p.kept else s.ring
      detail := p.detail })

/-! ### Runs -/

/-- A call of the store. -/
inductive Call where
  | add (record : IncidentDraftRecord)
  | purgeBefore (cutoff : ℤ)
  | list

/-- A call and the time of it. -/
structure Event where
  now : ℤ
  call : Call

/-- A call is run. -/
def step (C : IncidentStore) (s : Keyspace) (e : Event) : Keyspace :=
  match e.call with
  | .add record => (add C e.now record s).2
  | .purgeBefore cutoff => (purgeBefore cutoff s).2
  | .list => s

/-- The calls are run from an empty store. -/
def run (C : IncidentStore) (es : List Event) : Keyspace := es.foldl (step C) .empty

end EasyBook.IncidentRing

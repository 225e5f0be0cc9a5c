import EasyBook.Ecma.OrderedMap
import EasyBook.Incidents.Record

/-!
# The incident recorder

`IncidentRecorder`: what happens to a record after it has been redacted. The storm control lets the
first records of a signature through and counts the rest of a window (`admit`), a record that cannot
be stored waits in a buffer (`pushFifo`), and the buffer is emptied when Redis is back
(`flushLoop`).

Everything between two `await`s is one event, in which the clock stands still. `log` is no part of
the program: it lists what has happened, for the statements.
-/

namespace EasyBook.Incidents

open JsString

/-! ### Constants -/

/-- `INCIDENT_FIFO`. -/
def incidentFifo : ℕ := 200

/-- `SIGNATURE_LIMIT`. -/
def signatureLimit : ℕ := 20

/-- `SIGNATURE_WINDOW_MS`. -/
def signatureWindowMs : ℤ := 60000

/-! ### Records -/

/-- The signature of a record; `join` makes nothing of `null`. -/
def signatureOf (r : IncidentDraftRecord) : JsString :=
  (lit "|").intercalate [r.component.text, r.severity.text, (r.status.map (radix 10)).getD [],
    r.method.getD [], r.routeTemplate.getD [], r.errorCode.getD []]

/-- A record in memory: the same record sent twice is two of these. -/
structure Entry where
  id : ℕ
  record : IncidentDraftRecord
  deriving DecidableEq, Repr

/-- `SignatureState`. -/
structure SignatureState where
  windowStart : ℤ
  count : ℕ
  suppressed : ℕ
  last : Option IncidentDraftRecord
  deriving DecidableEq, Repr

/-- What has happened. -/
inductive Happening where
  | persisted (r : IncidentDraftRecord)
  /-- The storm control has let a record through. -/
  | admitted (r : IncidentDraftRecord) (now : ℤ)
  /-- The sweep has forgotten a signature. -/
  | swept (signature : JsString) (now : ℤ)
  /-- A record that stands for others was sent. -/
  | summarized (r : IncidentDraftRecord)
  /-- A record has entered the buffer. -/
  | entered (x : Entry)
  /-- With `waiting` in the buffer the oldest was dropped. -/
  | dropped (waiting : List Entry)
  /-- A `store.add` was resolved. -/
  | stored (x : Entry)
  /-- A `store.add` of the flush was resolved. -/
  | flushed (x : Entry)
  deriving DecidableEq, Repr

/-- The recorder. -/
structure Recorder where
  /-- `redis.status === 'ready'`. -/
  ready : Bool
  fifo : List Entry
  signatures : List (JsString × SignatureState)
  /-- The records whose `store.add` in `send` is not settled. -/
  sending : List Entry
  /-- The record whose `store.add` the flush waits for; `flushing` when there is one. -/
  flushing : Option Entry
  /-- How many records have been sent. -/
  next : ℕ
  log : List Happening

namespace Recorder

/-- The recorder when the process starts. -/
def init : Recorder := ⟨false, [], [], [], none, 0, []⟩

/-- Something happens. -/
def note (x : Happening) (s : Recorder) : Recorder := { s with log := s.log ++ [x] }

/-! ### Storage -/

/-- `while (this.fifo.length > INCIDENT_FIFO) this.fifo.shift();` -/
def shiftOver : List Entry → Recorder → Recorder
  | [], s => { s with fifo := [] }
  | x :: l, s =>
    if incidentFifo < (x :: l).length then shiftOver l (s.note (.dropped (x :: l)))
    else { s with fifo := x :: l }

/-- `pushFifo`. -/
def pushFifo (x : Entry) (s : Recorder) : Recorder :=
  shiftOver (s.fifo ++ [x]) (s.note (.entered x))

/-- `send`, up to the answer of the store. -/
def send (r : IncidentDraftRecord) (s : Recorder) : Recorder :=
  let x : Entry := ⟨s.next, r⟩
  let s := { s with next := s.next + 1 }
  if s.ready then { s with sending := s.sending ++ [x] } else s.pushFifo x

/-- The loop of `flush` up to its next `await`, or its end. -/
def flushLoop (s : Recorder) : Recorder :=
  match s.fifo with
  | next :: _ => { s with flushing := if s.ready then some next else none }
  | [] => { s with flushing := none }

/-- `flush`, when it is called. -/
def flush (s : Recorder) : Recorder := if s.flushing.isSome then s else s.flushLoop

/-! ### Storm control -/

/-- `text.slice(0, n)`. -/
def sliceTo (n : ℤ) (text : JsString) : JsString :=
  text.take (if 0 ≤ n then n else n + text.length).toNat

/-- The record that stands for the suppressed ones. -/
def summaryOf (now : ℤ) (state : SignatureState) (last : IncidentDraftRecord) :
    IncidentDraftRecord :=
  let suffix := lit " (+" ++ radix 10 state.suppressed ++ lit " similar incidents suppressed in " ++
    radix 10 (signatureWindowMs / 1000).toNat ++ lit " s)"
  { last with
    atMs := now
    message := sliceTo (messageMax - suffix.length) last.message ++ suffix
    context := { last.context with suppressedCount := some state.suppressed } }

/-- `emitSuppressed`. -/
def emitSuppressed (now : ℤ) (state : SignatureState) (s : Recorder) : Recorder :=
  match state.last with
  | none => s
  | some last =>
    if state.suppressed = 0 then s
    else (s.note (.summarized (summaryOf now state last))).send (summaryOf now state last)

/-- `this.signatures.set`. -/
def setSignature (signature : JsString) (state : SignatureState) (s : Recorder) : Recorder :=
  { s with signatures := mapSet s.signatures signature state }

/-- `admit`. -/
def admitRecord (now : ℤ) (r : IncidentDraftRecord) (s : Recorder) : Bool × Recorder :=
  let signature := signatureOf r
  match s.signatures.lookup signature with
  | none => (true, (s.setSignature signature ⟨now, 1, 0, none⟩).note (.admitted r now))
  | some state =>
    if signatureWindowMs ≤ now - state.windowStart then
      (true, ((s.setSignature signature ⟨now, 1, 0, none⟩).note (.admitted r now)).emitSuppressed
        now state)
    else if state.count < signatureLimit then
      (true, (s.setSignature signature { state with count := state.count + 1 }).note
        (.admitted r now))
    else
      (false, s.setSignature signature
        { state with suppressed := state.suppressed + 1, last := some r })

/-- `persist`. -/
def persist (now : ℤ) (r : IncidentDraftRecord) (s : Recorder) : Recorder :=
  match (s.note (.persisted r)).admitRecord now r with
  | (true, s) => s.send r
  | (false, s) => s

/-- One round of `sweepSignatures`. -/
def sweepEntry (now : ℤ) (s : Recorder) (e : JsString × SignatureState) : Recorder :=
  if now - e.2.windowStart < signatureWindowMs then s
  else
    ({ s with signatures := mapDelete s.signatures e.1 }.note (.swept e.1 now)).emitSuppressed now
      e.2

/-- `sweepSignatures`. -/
def sweepSignatures (now : ℤ) (s : Recorder) : Recorder := s.signatures.foldl (sweepEntry now) s

/-! ### Events -/

/-- What may happen next. -/
inductive Event where
  | persist (now : ℤ) (r : IncidentDraftRecord)
  /-- The status of the client changes. -/
  | status (ready : Bool)
  /-- The client emits `ready`. -/
  | onReady
  /-- A `store.add` of `send` is settled. -/
  | addResolved (x : Entry)
  | addRejected (x : Entry)
  /-- The `store.add` of `flush` is settled. -/
  | flushResolved
  | flushRejected
  | sweep (now : ℤ)
  deriving DecidableEq, Repr

/-- One event. What is not under way is not settled. -/
def step (s : Recorder) : Event → Recorder
  | .persist now r => s.persist now r
  | .status ready => { s with ready }
  | .onReady => s.flush
  | .addResolved x =>
    if x ∈ s.sending then { s with sending := s.sending.erase x }.note (.stored x) else s
  | .addRejected x =>
    if x ∈ s.sending then { s with sending := s.sending.erase x }.pushFifo x else s
  | .flushResolved =>
    match s.flushing with
    | none => s
    | some x => ({ s with fifo := s.fifo.tail }.note (.flushed x)).flushLoop
  | .flushRejected => { s with flushing := none }
  | .sweep now => s.sweepSignatures now

end Recorder

end EasyBook.Incidents

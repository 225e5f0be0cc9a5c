import EasyBook.Ecma.OrderedMap
import EasyBook.Ecma.Slices
import EasyBook.Ecma.Text
import EasyBook.Machine.World

/-!
# Sending one message to many users

`LineService.multicast`: the recipients are cut into chunks, a chunk whose request fails for a
passing reason is tried once more, and the first chunk that fails for good stops the send. A send
asks the clock, LINE and the two observers of its failures; what they answer is not known.

`multicast_accounts` reads the requests that were made off the exchanges and compares them with the
counters that the send hands back.
-/

namespace EasyBook.Line

open Machine Task JsString

/-! ### Errors -/

/-- `LineErrorKind`. -/
inductive LineErrorKind where
  | notConfigured
  | rateLimited
  | alreadyAccepted
  | transient
  | rejected
  deriving DecidableEq, Repr

/-- `LineCallError`. -/
structure LineCallError where
  kind : LineErrorKind
  status : Option ℕ
  deriving DecidableEq, Repr

/-- What a request can be rejected with. -/
inductive LineFault where
  /-- The wrapper's own error. -/
  | lineCallError (e : LineCallError)
  /-- `HTTPFetchError`: LINE answered with this status. -/
  | httpFetchError (status : ℕ)
  /-- Anything else: no answer, or one that cannot be read. -/
  | other
  deriving DecidableEq, Repr

/-- `classifyLineError`. -/
def classifyLineError : LineFault → LineCallError
  | .lineCallError e => e
  | .httpFetchError status =>
    if status = 401 ∨ status = 403 then ⟨.notConfigured, some status⟩
    else if status = 429 then ⟨.rateLimited, some status⟩
    else if status = 409 then ⟨.alreadyAccepted, some status⟩
    else if 500 ≤ status then ⟨.transient, some status⟩
    else ⟨.rejected, some status⟩
  | .other => ⟨.transient, none⟩

/-- What has become of a request when the timer of `withTimeout` fires or before. -/
inductive Settled where
  | resolved
  | rejected (err : LineFault)
  /-- Nothing yet. -/
  | pending
  deriving DecidableEq, Repr

/-- `withTimeout`. -/
def withTimeout : Settled → Except LineFault Unit
  | .resolved => .ok ()
  | .rejected err => .error err
  | .pending => .error (.lineCallError ⟨.transient, none⟩)

/-! ### Requests -/

/-- `LINE_MULTICAST_MAX_RECIPIENTS`. -/
def lineMulticastMaxRecipients : ℕ := 500

/-- `LINE_MULTICAST_MAX_MESSAGES`. -/
def lineMulticastMaxMessages : ℕ := 5

/-- `LINE_SLOW_MS`. -/
def lineSlowMs : ℤ := 3000

/-- What the incident recorder is told about a chunk. -/
structure ExternalOutcome where
  /-- `none` is the deadline; the outer `none` is that there is no error. -/
  error : Option (Option LineFault)
  attempts : ℕ
  latencyMs : ℤ
  budgetMs : ℤ
  deriving DecidableEq

/-- A request to LINE: the recipients, the messages and the retry key. -/
structure MulticastRequest (μ : Type) where
  recipients : List JsString
  messages : List μ
  retryKey : JsString
  deriving DecidableEq

/-- What a send asks. -/
inductive Ask (μ : Type) where
  /-- `Date.now`. -/
  | now
  /-- Send the messages to some users. -/
  | multicast (request : MulticastRequest μ)
  /-- `IncidentRecorder.external`. -/
  | external (outcome : ExternalOutcome)
  /-- `AdminNotificationTriggers.lineDeliveryFailed`. -/
  | lineDeliveryFailed (kind : LineErrorKind) (status : Option ℕ)

/-- The answers. -/
@[reducible] def Answer {μ : Type} : Ask μ → Type
  | .now => ℤ
  | .multicast _ => Settled
  | .external _ => Unit
  | .lineDeliveryFailed _ _ => Unit

/-- A call of the service. -/
abbrev LineTask (μ : Type) : Type → Type := Task (Ask μ) Answer

/-! ### Results -/

/-- `MulticastFailure`. -/
structure MulticastFailure where
  chunkIndex : ℕ
  kind : LineErrorKind
  status : Option ℕ
  deriving DecidableEq, Repr

/-- `MulticastOutcome`. -/
structure MulticastOutcome where
  targetedCount : ℕ
  acceptedCount : ℕ
  requestCount : ℕ
  failure : Option MulticastFailure
  deriving DecidableEq, Repr

/-- The options of a send. -/
structure MulticastOptions where
  retryKeySeed : JsString
  deadlineAt : Option ℤ

/-- What the service was built with: whether there is a client and an incident recorder, and the
hash that turns a name into a UUID. -/
structure LineService where
  client : Bool
  incidents : Bool
  uuidV5 : JsString → JsString

/-! ### The send -/

/-- `lineRetryKey`. -/
def lineRetryKey (service : LineService) (seed : JsString) (chunk : List JsString) : JsString :=
  service.uuidV5 (seed ++ lit "|" ++
    (lit ",").intercalate (chunk.mergeSort fun a b ↦ decide (a ≤ b)))

/-- The key does not depend on the order of the users. -/
theorem lineRetryKey_congr {service : LineService} {seed : JsString}
    {chunk chunk' : List JsString} (h : chunk.Perm chunk') :
    lineRetryKey service seed chunk = lineRetryKey service seed chunk' := by
  have hsort : chunk.mergeSort (fun a b ↦ decide (a ≤ b)) =
      chunk'.mergeSort fun a b ↦ decide (a ≤ b) :=
    ((List.mergeSort_perm _ _).trans (h.trans (List.mergeSort_perm _ _).symm)).eq_of_pairwise'
      (r := (· ≤ ·)) (List.pairwise_mergeSort' _ _) (List.pairwise_mergeSort' _ _)
  rw [lineRetryKey, lineRetryKey, hsort]

/-- What the attempts of a chunk leave behind. -/
structure Attempts where
  failure : Option MulticastFailure
  requestCount : ℕ
  lastAttempt : ℕ
  lastError : Option LineFault

variable {μ : Type}

/-- Whether the deadline, if there is one, is past. -/
def pastDeadline : Option ℤ → LineTask μ Bool
  | none => return false
  | some deadlineAt => do
    let now ← request Ask.now
    return decide (deadlineAt ≤ now)

/-- The inner loop: the attempts of chunk `i`, from number `attempt` on. -/
def attemptChunk (deadlineAt : Option ℤ) (i : ℕ) (req : MulticastRequest μ) (attempt : ℕ)
    (seen : Attempts) : LineTask μ Attempts := do
  -- Past the deadline there is no attempt, and nothing is counted.
  if ← pastDeadline deadlineAt then
    return { seen with failure := some ⟨i, .transient, none⟩ }
  let requestCount := seen.requestCount + 1
  let settled ← request (.multicast req)
  match withTimeout settled with
  | .ok () => return { seen with requestCount, lastAttempt := attempt }
  | .error err =>
    let e := classifyLineError err
    let seen := { seen with requestCount, lastAttempt := attempt, lastError := some err }
    -- An earlier attempt with the same retry key had arrived.
    if e.kind = .alreadyAccepted then
      return seen
    else if _h : e.kind = .transient ∧ attempt < 2 then
      attemptChunk deadlineAt i req (attempt + 1) seen
    else
      return { seen with failure := some ⟨i, e.kind, e.status⟩ }
termination_by 2 - attempt

/-- The clock before a chunk, which only a recorder needs. -/
def chunkStart (service : LineService) : LineTask μ ℤ :=
  if service.incidents then request Ask.now else return 0

/-- The report about a chunk. -/
def report (service : LineService) (chunkStartedAt : ℤ) (run : Attempts) : LineTask μ Unit :=
  if service.incidents then do
    let now ← request Ask.now
    request (Ask.external
      { error := if run.failure.isSome then some run.lastError else none
        attempts := run.lastAttempt
        latencyMs := now - chunkStartedAt
        budgetMs := lineSlowMs })
  else return ()

/-- The outer loop, from chunk `i` on. -/
def sendChunks (service : LineService) (messages : List μ) (options : MulticastOptions) :
    ℕ → List (List JsString) → MulticastOutcome → LineTask μ MulticastOutcome
  | _, [], outcome => return outcome
  | i, chunk :: chunks, outcome => do
    let key := lineRetryKey service options.retryKeySeed chunk
    let chunkStartedAt ← chunkStart service
    let run ← attemptChunk options.deadlineAt i ⟨chunk, messages, key⟩ 1
      ⟨none, outcome.requestCount, 0, none⟩
    report service chunkStartedAt run
    let outcome := { outcome with requestCount := run.requestCount }
    if run.failure.isSome then
      return { outcome with failure := run.failure }
    sendChunks service messages options (i + 1) chunks
      { outcome with acceptedCount := outcome.acceptedCount + chunk.length }

/-- `multicast`. The error is the message of a plain `Error`. -/
def multicast (service : LineService) (recipients : List JsString) (messages : List μ)
    (options : MulticastOptions) : LineTask μ (Except String MulticastOutcome) := do
  if messages.length < 1 ∨ lineMulticastMaxMessages < messages.length then
    return .error
      s!"multicast takes 1-{lineMulticastMaxMessages} messages, got {messages.length}."
  let ids := recipients.eraseDups
  let outcome : MulticastOutcome := ⟨ids.length, 0, 0, none⟩
  -- With nobody to send to, LINE is not asked.
  if ids.length = 0 then
    return .ok outcome
  -- Without a client the failure is the same for everybody.
  if !service.client then
    let failure : MulticastFailure := ⟨0, .notConfigured, none⟩
    request (Ask.lineDeliveryFailed failure.kind failure.status)
    return .ok { outcome with failure := some failure }
  let chunks := slices lineMulticastMaxRecipients ids
  let outcome ← sendChunks service messages options 0 chunks outcome
  match outcome.failure with
  | some failure => request (Ask.lineDeliveryFailed failure.kind failure.status)
  | none => pure ()
  return .ok outcome

/-! ### What was sent -/

/-- The exchanges of a send. -/
abbrev Exchanges (μ : Type) : Type := List (Exchange (Ask μ) Answer)

/-- The requests to LINE among some exchanges, each with how it ended. -/
def requests (h : Exchanges μ) : List (MulticastRequest μ × Settled) :=
  h.filterMap fun
    | ⟨.multicast req, settled⟩ => some (req, settled)
    | _ => none

/-- The error of a request, if it has not been fulfilled in time. -/
def errorOf (settled : Settled) : Option LineErrorKind :=
  match withTimeout settled with
  | .ok () => none
  | .error err => some (classifyLineError err).kind

/-- LINE has taken the request, now or before. -/
def Settled.Accepted (settled : Settled) : Prop :=
  errorOf settled = none ∨ errorOf settled = some .alreadyAccepted

/-- A chunk that was tried, and how its requests ended. -/
structure Tried where
  chunk : List JsString
  answers : List Settled

/-- Tried once, or twice if LINE failed for a passing reason. -/
structure Tried.Regular (t : Tried) : Prop where
  ne_nil : t.answers ≠ []
  length_le : t.answers.length ≤ 2
  transient : ∀ a ∈ t.answers.dropLast, errorOf a = some .transient

/-- The last request of the chunk was taken. -/
def Tried.Accepted (t : Tried) : Prop :=
  ∃ a ∈ t.answers.getLast?, a.Accepted

/-- The requests of a chunk, all with one key. -/
def Tried.requests (key : List JsString → JsString) (messages : List μ) (t : Tried) :
    List (MulticastRequest μ × Settled) :=
  t.answers.map fun a ↦ (⟨t.chunk, messages, key t.chunk⟩, a)

/-- Every request comes right after a look at the clock, before the deadline. -/
def InTime (deadlineAt : Option ℤ) (h : Exchanges μ) : Prop :=
  ∀ h₁ req a h₂, h = h₁ ++ ⟨.multicast req, a⟩ :: h₂ → ∀ d ∈ deadlineAt,
    ∃ h₀ t, h₁ = h₀ ++ [⟨.now, t⟩] ∧ t < d

section InTime

variable {deadlineAt : Option ℤ} {h h' : Exchanges μ}

theorem requests_append : requests (h ++ h') = requests h ++ requests h' := by
  simp [requests]

theorem InTime.append (hh : InTime deadlineAt h) (hh' : InTime deadlineAt h') :
    InTime deadlineAt (h ++ h') := by
  intro h₁ req a h₂ he d hd
  rcases List.append_eq_append_iff.1 he with ⟨m, rfl, hm⟩ | ⟨m, rfl, hm⟩
  · obtain ⟨h₀, t, rfl, ht⟩ := hh' m req a h₂ hm d hd
    exact ⟨h ++ h₀, t, by simp, ht⟩
  · cases m with
    | nil =>
      obtain ⟨h₀, t, hnil, -⟩ := hh' [] req a h₂ hm.symm d hd
      simp at hnil
    | cons x m =>
      obtain ⟨rfl, -⟩ := List.cons_eq_cons.1 hm
      exact hh h₁ req a m rfl d hd

/-- Exchanges without a request. -/
theorem InTime.of_requests (hh : requests h = []) : InTime deadlineAt h := by
  rintro h₁ req a h₂ rfl
  simp [requests] at hh

/-- A request after a look at the clock. -/
theorem InTime.request {req : MulticastRequest μ} {a : Settled} {t : ℤ}
    (ht : ∀ d ∈ deadlineAt, t < d) :
    InTime deadlineAt [(⟨.now, t⟩ : Exchange (Ask μ) Answer), ⟨.multicast req, a⟩] := by
  intro h₁ req' a' h₂ he d hd
  match h₁, he with
  | [x], he =>
    simp only [List.singleton_append, List.cons.injEq] at he
    exact ⟨[], t, by rw [← he.1]; rfl, ht d hd⟩
  | [], he => simp at he
  | x :: y :: h₁, he => simp at he

end InTime

/-! ### A chunk -/

section Chunk

variable {deadlineAt : Option ℤ} {i : ℕ} {req : MulticastRequest μ} {h : Exchanges μ}

theorem path_pastDeadline (req : MulticastRequest μ) {late : Bool}
    (hp : Path (pastDeadline deadlineAt) h (done late)) :
    requests h = [] ∧ (late = false → ∀ a, InTime deadlineAt (h ++ [⟨.multicast req, a⟩])) := by
  cases deadlineAt with
  | none =>
    obtain ⟨rfl, -⟩ := path_done.1 hp
    exact ⟨rfl, fun _ a h₁ req' a' h₂ _ d hd ↦ (nomatch hd)⟩
  | some d =>
    obtain ⟨t, h', rfl, hend⟩ := path_ask_done.1 hp
    obtain ⟨rfl, hlate⟩ := path_done.1 hend
    cases hlate
    refine ⟨rfl, fun hlate a ↦ InTime.request fun d' hd' ↦ ?_⟩
    cases hd'
    simpa using hlate

/-- The requests that the attempts from number `attempt` on have made, and what they have added to
`seen`. -/
structure Attempted (deadlineAt : Option ℤ) (req : MulticastRequest μ) (attempt : ℕ)
    (seen r : Attempts) (h : Exchanges μ) (answers : List Settled) : Prop where
  requests : requests h = answers.map fun a ↦ (req, a)
  length_le : answers.length + attempt ≤ 3
  transient : ∀ a ∈ answers.dropLast, errorOf a = some .transient
  requestCount : r.requestCount = seen.requestCount + answers.length
  failure : r.failure = none ↔ ∃ a ∈ answers.getLast?, a.Accepted
  inTime : InTime deadlineAt h

theorem path_attemptChunk {attempt : ℕ} {seen r : Attempts}
    (hp : Path (attemptChunk deadlineAt i req attempt seen) h (done r)) (hle : attempt ≤ 2)
    (hseen : seen.failure = none) :
    ∃ answers, Attempted deadlineAt req attempt seen r h answers := by
  -- Induction on the attempts that are left.
  induction hn : 2 - attempt using Nat.strong_induction_on generalizing attempt seen h with
  | _ n ih =>
  rw [attemptChunk] at hp
  obtain ⟨h₁, h₂, late, rfl, hclock, hloop⟩ := path_bind_done.1 hp
  obtain ⟨hnone, htime⟩ := path_pastDeadline req hclock
  cases late with
  | true =>
    obtain ⟨rfl, he⟩ := path_done.1 hloop
    cases he
    refine ⟨[], by simp [hnone], by simpa using hle.trans (by decide), by simp, by simp,
      by simp, ?_⟩
    exact InTime.of_requests (by simp [hnone])
  | false =>
    simp only [Bool.false_eq_true, if_false, request_bind] at hloop
    obtain ⟨a, h₃, rfl, hrest⟩ := path_ask_done.1 hloop
    have htime := htime rfl a
    have hreq : requests (h₁ ++ ⟨.multicast req, a⟩ :: h₃) = (req, a) :: requests h₃ := by
      rw [requests_append, hnone]
      rfl
    -- The request is the last one of the chunk.
    have hlast : Path (done r) h₃ (done r) → r.requestCount = seen.requestCount + 1 →
        (r.failure = none ↔ a.Accepted) →
        ∃ answers, Attempted deadlineAt req attempt seen r (h₁ ++ ⟨.multicast req, a⟩ :: h₃)
          answers := by
      intro hend hcount hfailure
      obtain ⟨rfl, -⟩ := path_done.1 hend
      exact ⟨[a], hreq, by rw [List.length_singleton]; omega, by simp, hcount,
        by simpa using hfailure, htime⟩
    -- The request is accepted, was accepted before, is tried again, or fails for good.
    cases hw : withTimeout a with
    | ok u =>
      simp only [hw] at hrest
      obtain ⟨rfl, he⟩ := path_done.1 hrest
      cases he
      exact hlast (.nil _) rfl (by simp [hseen, Settled.Accepted, errorOf, hw])
    | error err =>
      simp only [hw] at hrest
      by_cases hkind : (classifyLineError err).kind = .alreadyAccepted
      · rw [if_pos hkind] at hrest
        obtain ⟨rfl, he⟩ := path_done.1 hrest
        cases he
        exact hlast (.nil _) rfl (by simp [hseen, Settled.Accepted, errorOf, hw, hkind])
      · rw [if_neg hkind] at hrest
        by_cases hretry : (classifyLineError err).kind = .transient ∧ attempt < 2
        · rw [dif_pos hretry] at hrest
          obtain ⟨answers, hrun⟩ := ih _ (by omega) hrest (by omega) hseen rfl
          have ha : errorOf a = some .transient := by simp [errorOf, hw, hretry.1]
          have hlen := hrun.length_le
          refine ⟨a :: answers, by simp [hreq, hrun.requests], by simp; omega, ?_, ?_, ?_, ?_⟩
          · cases answers with
            | nil => simp
            | cons b answers =>
              rw [List.dropLast_cons_cons]
              exact List.forall_mem_cons.2 ⟨ha, hrun.transient⟩
          · rw [hrun.requestCount]
            simp
            omega
          · rw [hrun.failure]
            cases answers with
            | nil => simp [Settled.Accepted, ha]
            | cons b answers => rw [List.getLast?_cons_cons]
          · simpa using htime.append hrun.inTime
        · rw [dif_neg hretry] at hrest
          obtain ⟨rfl, he⟩ := path_done.1 hrest
          cases he
          exact hlast (.nil _) rfl (by simp [Settled.Accepted, errorOf, hw, hkind])

end Chunk

/-! ### All chunks -/

section Chunks

variable {service : LineService} {messages : List μ} {options : MulticastOptions} {h : Exchanges μ}

theorem requests_of_chunkStart {t : ℤ} (hp : Path (chunkStart (μ := μ) service) h (done t)) :
    requests h = [] := by
  unfold chunkStart at hp
  cases hs : service.incidents with
  | true =>
    rw [hs] at hp
    obtain ⟨a, h', rfl, hend⟩ := path_ask_done.1 hp
    obtain ⟨rfl, -⟩ := path_done.1 hend
    rfl
  | false =>
    rw [hs] at hp
    obtain ⟨rfl, -⟩ := path_done.1 hp
    rfl

theorem requests_of_report {t : ℤ} {run : Attempts} {u : Unit}
    (hp : Path (report service t run) h (done u)) : requests h = [] := by
  unfold report at hp
  cases hs : service.incidents with
  | true =>
    rw [hs] at hp
    obtain ⟨a, h', rfl, hend⟩ := path_ask_done.1 hp
    obtain ⟨b, h'', rfl, hend'⟩ := path_ask_done.1 hend
    obtain ⟨rfl, -⟩ := path_done.1 hend'
    rfl
  | false =>
    rw [hs] at hp
    obtain ⟨rfl, -⟩ := path_done.1 hp
    rfl

/-- The chunks that a send has tried, and what it has added to its counters. -/
structure Sent (service : LineService) (messages : List μ) (options : MulticastOptions)
    (chunks : List (List JsString)) (before after : MulticastOutcome) (h : Exchanges μ)
    (accepted failed : List Tried) : Prop where
  isPrefix : (accepted ++ failed).map Tried.chunk <+: chunks
  requests : requests h = (accepted ++ failed).flatMap
    (Tried.requests (lineRetryKey service options.retryKeySeed) messages)
  regular : ∀ t ∈ accepted ++ failed, t.Regular
  allAccepted : ∀ t ∈ accepted, t.Accepted
  allFailed : ∀ t ∈ failed, ¬ t.Accepted
  failed_le : failed.length ≤ 1
  targetedCount : after.targetedCount = before.targetedCount
  acceptedCount : after.acceptedCount =
    before.acceptedCount + (accepted.map fun t ↦ t.chunk.length).sum
  requestCount : after.requestCount = before.requestCount + (Line.requests h).length
  failure : after.failure = none ↔
    (accepted.map fun t ↦ t.chunk.length).sum = chunks.flatten.length
  inTime : InTime options.deadlineAt h

theorem path_sendChunks {i : ℕ} {chunks : List (List JsString)} {before after : MulticastOutcome}
    (hp : Path (sendChunks service messages options i chunks before) h (done after))
    (hbefore : before.failure = none) (hne : ∀ c ∈ chunks, c ≠ []) :
    ∃ accepted failed, Sent service messages options chunks before after h accepted failed := by
  -- Induction on the chunks that are left; a failed one ends the loop.
  induction chunks generalizing i before h with
  | nil =>
    obtain ⟨rfl, he⟩ := path_done.1 hp
    cases he
    exact ⟨[], [], List.prefix_rfl, rfl, by simp, by simp, by simp, by simp, rfl, by simp, rfl,
      by simp [hbefore], InTime.of_requests rfl⟩
  | cons chunk chunks ih =>
    obtain ⟨h₁, h₂, t, rfl, hstart, hp₂⟩ := path_bind_done.1 hp
    obtain ⟨h₃, h₄, run, rfl, hrun, hp₄⟩ := path_bind_done.1 hp₂
    obtain ⟨h₅, h₆, u, rfl, hreport, hp₆⟩ := path_bind_done.1 hp₄
    obtain ⟨answers, ha⟩ := path_attemptChunk hrun (by decide) rfl
    have hnone₁ := requests_of_chunkStart hstart
    have hnone₅ := requests_of_report hreport
    have hreq : requests (h₁ ++ (h₃ ++ (h₅ ++ h₆))) = answers.map (fun a ↦
        (⟨chunk, messages, lineRetryKey service options.retryKeySeed chunk⟩, a)) ++
          requests h₆ := by
      simp only [requests_append, hnone₁, hnone₅, ha.requests, List.nil_append]
    have htime : InTime options.deadlineAt h₆ →
        InTime options.deadlineAt (h₁ ++ (h₃ ++ (h₅ ++ h₆))) := fun h ↦
      (InTime.of_requests hnone₁).append (ha.inTime.append ((InTime.of_requests hnone₅).append h))
    have hregular : answers ≠ [] → Tried.Regular ⟨chunk, answers⟩ := fun hne ↦
      ⟨hne, Nat.le_of_lt_succ (Nat.lt_of_succ_le ha.length_le), ha.transient⟩
    have hcount : run.requestCount = before.requestCount + answers.length := ha.requestCount
    cases hfail : run.failure with
    | some f =>
      have hrejected : ¬ Tried.Accepted ⟨chunk, answers⟩ := fun hacc ↦ by
        simpa [hfail] using ha.failure.2 hacc
      simp only [hfail, Option.isSome_some, if_true] at hp₆
      obtain ⟨rfl, he⟩ := path_done.1 hp₆
      cases he
      have htime := htime (InTime.of_requests rfl)
      generalize h₁ ++ (h₃ ++ (h₅ ++ [])) = h at hreq htime
      rw [show requests ([] : Exchanges μ) = [] from rfl, List.append_nil] at hreq
      have hpos : 0 < chunk.length := List.length_pos_iff.2 (hne chunk (by simp))
      -- Past the deadline the chunk has not been tried at all.
      refine ⟨[], if answers = [] then [] else [⟨chunk, answers⟩], ?_⟩
      split_ifs with hnil
      · subst hnil
        exact ⟨by simp, by simpa using hreq, by simp, by simp, by simp, by simp, rfl, by simp,
          by simp [hreq, hcount], by simp; omega, htime⟩
      · exact ⟨by simp, by simpa [Tried.requests] using hreq, by simpa using hregular hnil,
          by simp, by simpa using hrejected, by simp, rfl, by simp, by simp [hreq, hcount],
          by simp; omega, htime⟩
    | none =>
      -- The chunk has been accepted, and the loop goes on.
      have hacc : Tried.Accepted ⟨chunk, answers⟩ := ha.failure.1 hfail
      have hnil : answers ≠ [] := by
        rintro rfl
        simp [Tried.Accepted] at hacc
      simp only [hfail, Option.isSome_none, Bool.false_eq_true, if_false] at hp₆
      obtain ⟨accepted, failed, hsent⟩ := ih hp₆ hbefore fun c hc ↦ hne c (by simp [hc])
      refine ⟨⟨chunk, answers⟩ :: accepted, failed, ?_, ?_, ?_, ?_, hsent.allFailed,
        hsent.failed_le, hsent.targetedCount, ?_, ?_, ?_, htime hsent.inTime⟩
      · simpa using hsent.isPrefix
      · rw [hreq, hsent.requests]
        simp [Tried.requests]
      · simpa using ⟨hregular hnil, by simpa using hsent.regular⟩
      · simpa using ⟨hacc, hsent.allAccepted⟩
      · rw [hsent.acceptedCount]
        simp
        omega
      · rw [hsent.requestCount, hreq, hcount]
        simp
        omega
      · rw [hsent.failure]
        simp

/-- A send that is over has tried the chunks of its recipients. -/
theorem path_multicast {recipients : List JsString} {o : MulticastOutcome}
    (hp : Path (multicast service recipients messages options) h (done (.ok o))) :
    ∃ accepted failed, Sent service messages options
      (slices lineMulticastMaxRecipients recipients.eraseDups)
      ⟨recipients.eraseDups.length, 0, 0, none⟩ o h accepted failed := by
  have hpos : 0 < lineMulticastMaxRecipients := by decide
  unfold multicast at hp
  by_cases hlen : messages.length < 1 ∨ lineMulticastMaxMessages < messages.length
  · rw [if_pos hlen] at hp
    cases (path_done.1 hp).2
  rw [if_neg hlen] at hp
  by_cases hnil : recipients.eraseDups.length = 0
  · rw [if_pos hnil] at hp
    obtain ⟨rfl, he⟩ := path_done.1 hp
    cases he
    exact ⟨[], [], List.nil_prefix, rfl, by simp, by simp, by simp, by simp, rfl, rfl, rfl,
      by simp [flatten_slices hpos, hnil], InTime.of_requests rfl⟩
  rw [if_neg hnil] at hp
  cases hclient : service.client with
  | false =>
    simp only [hclient, Bool.not_false, if_true, request_bind] at hp
    obtain ⟨u, h', rfl, hend⟩ := path_ask_done.1 hp
    obtain ⟨rfl, he⟩ := path_done.1 hend
    cases he
    exact ⟨[], [], List.nil_prefix, rfl, by simp, by simp, by simp, by simp, rfl, rfl, rfl,
      by simpa [flatten_slices hpos] using Ne.symm hnil, InTime.of_requests rfl⟩
  | true =>
    simp only [hclient, Bool.not_true, Bool.false_eq_true, if_false] at hp
    obtain ⟨h₁, h₂, after, rfl, hsend, hend⟩ := path_bind_done.1 hp
    obtain ⟨accepted, failed, hsent⟩ := path_sendChunks hsend rfl fun c ↦
      ne_nil_of_mem_slices hpos
    obtain ⟨hnone, rfl⟩ : requests h₂ = [] ∧ after = o := by
      cases hf : after.failure with
      | none =>
        simp only [hf] at hend
        obtain ⟨rfl, he⟩ := path_done.1 hend
        cases he
        exact ⟨rfl, rfl⟩
      | some f =>
        simp only [hf] at hend
        obtain ⟨u, h', rfl, hend'⟩ := path_ask_done.1 hend
        obtain ⟨rfl, he⟩ := path_done.1 hend'
        cases he
        exact ⟨rfl, rfl⟩
    have hreq : requests (h₁ ++ h₂) = requests h₁ := by rw [requests_append, hnone, List.append_nil]
    exact ⟨accepted, failed, hsent.isPrefix, hreq.trans hsent.requests, hsent.regular,
      hsent.allAccepted, hsent.allFailed, hsent.failed_le, hsent.targetedCount,
      hsent.acceptedCount, by rw [hsent.requestCount, hreq], hsent.failure,
      hsent.inTime.append (InTime.of_requests hnone)⟩

/-- A send that is over has cut the recipients, without repetitions and in their order, into chunks
and has tried a prefix of these. The chunks that LINE has taken come first, and at most one comes
after them. Each has been tried once or twice with one key, in time, and the counters count what
has been accepted and what has been asked. -/
theorem multicast_accounts {recipients : List JsString} {o : MulticastOutcome}
    (hp : Path (multicast service recipients messages options) h (done (.ok o))) :
    (recipients.eraseDups.Nodup ∧ recipients.eraseDups.Sublist recipients ∧
      recipients ⊆ recipients.eraseDups) ∧
    ((slices lineMulticastMaxRecipients recipients.eraseDups).flatten = recipients.eraseDups ∧
      ∀ c ∈ slices lineMulticastMaxRecipients recipients.eraseDups,
        c.length ≤ lineMulticastMaxRecipients) ∧
    ∃ accepted failed : List Tried,
      ((accepted ++ failed).map Tried.chunk <+:
          slices lineMulticastMaxRecipients recipients.eraseDups) ∧
      requests h = (accepted ++ failed).flatMap
        (Tried.requests (lineRetryKey service options.retryKeySeed) messages) ∧
      (∀ t ∈ accepted ++ failed, t.Regular) ∧
      (∀ t ∈ accepted, t.Accepted) ∧ (∀ t ∈ failed, ¬ t.Accepted) ∧ failed.length ≤ 1 ∧
      InTime options.deadlineAt h ∧
      o.targetedCount = recipients.eraseDups.length ∧
      o.acceptedCount = (accepted.map fun t ↦ t.chunk.length).sum ∧
      (o.failure = none ↔ o.acceptedCount = o.targetedCount) ∧
      o.requestCount = (requests h).length := by
  have hpos : 0 < lineMulticastMaxRecipients := by decide
  obtain ⟨accepted, failed, hsent⟩ := path_multicast hp
  have haccepted := hsent.acceptedCount
  rw [Nat.zero_add] at haccepted
  refine ⟨⟨nodup_eraseDups _, eraseDups_sublist _, fun x ↦ List.mem_eraseDups.2⟩,
    ⟨flatten_slices hpos, fun c ↦ length_le_of_mem_slices⟩, accepted, failed, hsent.isPrefix,
    hsent.requests, hsent.regular, hsent.allAccepted, hsent.allFailed, hsent.failed_le,
    hsent.inTime, hsent.targetedCount, haccepted, ?_, ?_⟩
  · rw [hsent.failure, haccepted, hsent.targetedCount, flatten_slices hpos]
  · rw [hsent.requestCount, Nat.zero_add]

/-! ### What LINE has taken -/

instance : DecidablePred Settled.Accepted := fun settled ↦
  inferInstanceAs (Decidable (errorOf settled = none ∨ errorOf settled = some .alreadyAccepted))

instance : DecidablePred Tried.Accepted := fun t ↦
  inferInstanceAs (Decidable (∃ a ∈ t.answers.getLast?, a.Accepted))

/-- The recipients of a request, if LINE has taken it. -/
def taken (r : MulticastRequest μ × Settled) : ℕ :=
  if r.2.Accepted then r.1.recipients.length else 0

/-- The number of recipients that LINE has accepted. -/
def acceptedRecipients (h : Exchanges μ) : ℕ := ((requests h).map taken).sum

/-- A chunk that was tried again had not been taken before, so it counts once. -/
theorem sum_taken_requests {t : Tried} (ht : t.Regular) (key : List JsString → JsString) :
    ((t.requests key messages).map taken).sum = if t.Accepted then t.chunk.length else 0 := by
  obtain ⟨chunk, answers⟩ := t
  obtain ⟨before, last, rfl⟩ : ∃ before last, answers = before ++ [last] :=
    ⟨_, _, (List.dropLast_append_getLast ht.ne_nil).symm⟩
  have htransient : ∀ a ∈ before, errorOf a = some .transient := by
    simpa using ht.transient
  have hzero : (before.map fun a ↦
      taken (⟨chunk, messages, key chunk⟩, a)) = before.map fun _ ↦ 0 :=
    List.map_congr_left fun a ha ↦ by simp [taken, Settled.Accepted, htransient a ha]
  have hlast : Tried.Accepted ⟨chunk, before ++ [last]⟩ ↔ last.Accepted := by
    simp [Tried.Accepted]
  simp only [Tried.requests, List.map_append, List.map_map, Function.comp_def, hzero,
    List.sum_append, hlast]
  simp [taken]

/-- The counter of a send is right. -/
theorem Sent.acceptedCount_eq {chunks : List (List JsString)} {before after : MulticastOutcome}
    {accepted failed : List Tried}
    (hsent : Sent service messages options chunks before after h accepted failed) :
    after.acceptedCount = before.acceptedCount + acceptedRecipients h := by
  have hsum : ∀ l : List Tried, (∀ t ∈ l, t.Regular) →
      ((l.flatMap (Tried.requests (lineRetryKey service options.retryKeySeed) messages)).map
        taken).sum = (l.map fun t ↦ if t.Accepted then t.chunk.length else 0).sum := by
    intro l hl
    induction l with
    | nil => rfl
    | cons t l ih =>
      rw [List.flatMap_cons, List.map_append, List.sum_append, List.map_cons, List.sum_cons,
        sum_taken_requests (hl t (by simp)), ih fun u hu ↦ hl u (by simp [hu])]
  have haccepted : accepted.map (fun t ↦ if t.Accepted then t.chunk.length else 0) =
      accepted.map fun t ↦ t.chunk.length :=
    List.map_congr_left fun t ht ↦ if_pos (hsent.allAccepted t ht)
  have hfailed : failed.map (fun t ↦ if t.Accepted then t.chunk.length else 0) =
      failed.map fun _ ↦ 0 :=
    List.map_congr_left fun t ht ↦ if_neg (hsent.allFailed t ht)
  rw [hsent.acceptedCount, acceptedRecipients, hsent.requests, hsum _ hsent.regular,
    List.map_append, List.sum_append, haccepted, hfailed]
  simp

/-- A request for a chunk of the recipients, under the key of the chunk. -/
def ForChunk (service : LineService) (messages : List μ) (seed : JsString)
    (chunks : List (List JsString)) (req : MulticastRequest μ) : Prop :=
  req.messages = messages ∧ req.recipients ∈ chunks ∧
    req.retryKey = lineRetryKey service seed req.recipients

section Asks

variable {P : Ask μ → Prop} {K : ∀ q : Ask μ, Answer q → Prop}

theorem asks_attemptChunk {deadlineAt : Option ℤ} {i attempt : ℕ} {req : MulticastRequest μ}
    {seen : Attempts} (hnow : P .now) (hreq : P (.multicast req)) :
    (attemptChunk deadlineAt i req attempt seen).Asks P K fun _ ↦ True := by
  induction hn : 2 - attempt using Nat.strong_induction_on generalizing attempt seen with
  | _ n ih =>
  have hclock : (pastDeadline (μ := μ) deadlineAt).Asks P K fun _ ↦ True := by
    cases deadlineAt with
    | none => trivial
    | some d => exact ⟨hnow, fun _ _ ↦ trivial⟩
  rw [attemptChunk]
  refine hclock.bind fun late _ ↦ ?_
  cases late with
  | true => trivial
  | false =>
    simp only [Bool.false_eq_true, if_false, request_bind]
    refine ⟨hreq, fun settled _ ↦ ?_⟩
    cases hw : withTimeout settled with
    | ok u =>
      simp only [hw]
      trivial
    | error err =>
      simp only [hw]
      split
      · trivial
      · split
        · next h => exact ih _ (by omega) rfl
        · trivial

theorem asks_sendChunks {i : ℕ} {chunks : List (List JsString)} {outcome : MulticastOutcome}
    (hnow : P .now) (hreport : ∀ o, P (.external o))
    (hreq : ∀ chunk ∈ chunks, P (.multicast
      ⟨chunk, messages, lineRetryKey service options.retryKeySeed chunk⟩)) :
    (sendChunks service messages options i chunks outcome).Asks P K fun _ ↦ True := by
  induction chunks generalizing i outcome with
  | nil => trivial
  | cons chunk chunks ih =>
    have hstart : (chunkStart (μ := μ) service).Asks P K fun _ ↦ True := by
      unfold chunkStart
      split
      · exact ⟨hnow, fun _ _ ↦ trivial⟩
      · trivial
    have hend : ∀ t run, (report (μ := μ) service t run).Asks P K fun _ ↦ True := fun t run ↦ by
      unfold report
      split
      · exact ⟨hnow, fun _ _ ↦ ⟨hreport _, fun _ _ ↦ trivial⟩⟩
      · trivial
    rw [sendChunks]
    refine hstart.bind fun t _ ↦ (asks_attemptChunk hnow (hreq chunk (by simp))).bind fun run _ ↦
      (hend t run).bind fun _ _ ↦ ?_
    split
    · trivial
    · exact ih fun c hc ↦ hreq c (by simp [hc])

/-- A send asks LINE for chunks of its recipients only. -/
theorem asks_multicast {recipients : List JsString} :
    (multicast service recipients messages options).Asks
      (fun q ↦ ∀ req, q = Ask.multicast req → ForChunk service messages options.retryKeySeed
        (slices lineMulticastMaxRecipients recipients.eraseDups) req)
      K fun _ ↦ True := by
  unfold multicast
  split
  · trivial
  dsimp only
  split
  · trivial
  split
  · exact ⟨fun _ h ↦ (nomatch h), fun _ _ ↦ trivial⟩
  refine (asks_sendChunks (fun _ h ↦ (nomatch h)) (fun _ _ h ↦ (nomatch h)) ?_).bind
    fun outcome _ ↦ ?_
  · rintro chunk hchunk _ ⟨⟩
    exact ⟨rfl, hchunk, rfl⟩
  · cases outcome.failure with
    | none => trivial
    | some failure => exact ⟨fun _ h ↦ (nomatch h), fun _ _ ↦ trivial⟩

end Asks

/-- The exchanges with LINE about one recipient: it fails, and knows the key when it is asked
again. -/
def twice : Exchanges String :=
  [⟨.now, 1⟩, ⟨.multicast ⟨[lit "U1"], ["hello"], lit "key"⟩, .rejected (.httpFetchError 500)⟩,
    ⟨.now, 2⟩, ⟨.multicast ⟨[lit "U1"], ["hello"], lit "key"⟩, .rejected (.httpFetchError 409)⟩]

theorem multicast_accounts_twice : ∃ accepted failed : List Tried,
    requests twice = (accepted ++ failed).flatMap (Tried.requests
      (lineRetryKey ⟨true, false, fun _ ↦ lit "key"⟩ (lit "seed")) ["hello"]) ∧
    InTime (some 10) twice := by
  have hchunk : Path (attemptChunk (some 10) 0 ⟨[lit "U1"], ["hello"], lit "key"⟩ 1
      ⟨none, 0, 0, none⟩) twice (done ⟨none, 2, 2, some (.httpFetchError 409)⟩) := by
    rw [attemptChunk]
    refine .cons (.cons ?_)
    change Path (attemptChunk (some 10) 0 _ 2 _) _ _
    rw [attemptChunk]
    exact .cons (.cons (.nil _))
  have hsend : Path (sendChunks ⟨true, false, fun _ ↦ lit "key"⟩ ["hello"] ⟨lit "seed", some 10⟩ 0
      [[lit "U1"]] ⟨1, 0, 0, none⟩) twice (done ⟨1, 1, 2, none⟩) :=
    path_bind_done.2 ⟨[], _, 0, rfl, .nil _, path_bind_done.2
      ⟨_, [], _, (List.append_nil _).symm, hchunk, .nil _⟩⟩
  have hp : Path (multicast ⟨true, false, fun _ ↦ lit "key"⟩ [lit "U1", lit "U1"] ["hello"]
      ⟨lit "seed", some 10⟩) twice (done (.ok ⟨1, 1, 2, none⟩)) :=
    path_bind_done.2 ⟨_, [], _, (List.append_nil _).symm, hsend, .nil _⟩
  obtain ⟨-, -, accepted, failed, -, hreq, -, -, -, -, htime, -⟩ := multicast_accounts hp
  exact ⟨accepted, failed, hreq, htime⟩

end Chunks

end EasyBook.Line

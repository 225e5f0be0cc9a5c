import EasyBook.Machine.Promise
import EasyBook.Machine.Run

/-!
# One query at a time

`SerialQueryClient` puts each query behind a promise chain: `result = tail.then(forward)`, and the
new `tail` is what settles after `result`. The promises of the chain are the names `tail`, `result`
and `query`, the last one for what the driver returns; whatever else runs between two jobs can do
nothing to them but call `query` again.

The chain is a server that takes one query after the other (`Server`), and `heap_eq` says that its
promises and jobs are at all times those of a state of that server.
-/

namespace EasyBook.Prisma

open Machine

/-! ### The client -/

/-- The promises: the tail before the `i`-th call, and the result and the driver's promise of it. -/
inductive Name where
  | tail (i : ℕ)
  | result (i : ℕ)
  | query (i : ℕ)
  deriving DecidableEq

/-- The functions passed to `then`. -/
inductive Handler where
  /-- `forward` of a call. -/
  | forward (i : ℕ)
  /-- `() => undefined`, for both outcomes. -/
  | ignore
  deriving DecidableEq

/-- What `super.query` does: it returns a promise, or throws. -/
inductive Sent (ν : Type) where
  | promise
  | thrown (reason : ν)
  deriving DecidableEq

/-- The arguments of `query`, as far as it looks at them. -/
structure QueryArgs where
  valuesIsFunction : Bool
  callbackIsFunction : Bool
  submittable : Bool

variable {ν : Type}

/-- A client. `log` and `ran` are no part of the program: the queries forwarded by the chain, in
their order, and the number of jobs that have run. -/
structure Client (ν : Type) where
  heap : Heap Name Handler ν
  calls : ℕ
  passed : ℕ
  log : List (ℕ × Sent ν)
  ran : ℕ

/-- What happens to a client. -/
inductive Event (ν : Type) where
  /-- `query` is called. -/
  | query (args : QueryArgs)
  /-- The next job runs; `sent` is what `super.query` does if the job forwards a query. -/
  | job (sent : Sent ν)
  /-- The driver settles the promise of a query that is in flight. -/
  | settle (i : ℕ) (how : Settlement ν)

variable (undefined : ν)

/-- A new client: `Promise.resolve()` is its tail. -/
def start : Client ν where
  heap := ⟨fun p ↦ if p = .tail 0 then .settled (.fulfilled undefined) else .pending [], []⟩
  calls := 0
  passed := 0
  log := []
  ran := 0

/-- `query`, with the promise that it returns; there is none of the chain where the caller gets what
`super.query` returns. -/
def query (args : QueryArgs) (c : Client ν) : Client ν × Option Name :=
  if args.valuesIsFunction || args.callbackIsFunction || args.submittable then
    ({ c with passed := c.passed + 1 }, none)
  else
    ({ c with
        heap := (c.heap.performThen (.tail c.calls)
          (.handle (.forward c.calls) (.result c.calls))).performThen (.result c.calls)
          (.handle .ignore (.tail (c.calls + 1)))
        calls := c.calls + 1 },
      some (.result c.calls))

/-- A job runs. -/
def runJob (sent : Sent ν) (c : Client ν) : Job Name Handler ν → Client ν
  | .react (.handle (.forward i) derived) (.fulfilled _) =>
    { c with
      heap := c.heap.complete derived (match sent with
        | .promise => .promise (.query i)
        | .thrown reason => .thrown reason)
      log := c.log ++ [(i, sent)] }
  -- `then(forward)` has no second function.
  | .react (.handle (.forward _) derived) (.rejected reason) =>
    { c with heap := c.heap.settle derived (.rejected reason) }
  | .react (.handle .ignore derived) _ =>
    { c with heap := c.heap.settle derived (.fulfilled undefined) }
  | .react (.resolve target) how => { c with heap := c.heap.settle target how }
  | .adopt source target => { c with heap := c.heap.performThen source (.resolve target) }

/-- `super.query` has returned a promise. -/
def Sent.isPromise : Sent ν → Bool
  | promise => true
  | thrown _ => false

/-- The query was forwarded, and its promise is pending. -/
def InFlight (c : Client ν) (i : ℕ) : Prop :=
  (i, Sent.promise) ∈ c.log ∧ ∃ rs, c.heap.cell (.query i) = .pending rs

/-- What an event does; what cannot happen changes nothing. -/
def step (c : Client ν) : Event ν → Client ν
  | .query args => (query args c).1
  | .job sent => match c.heap.jobs with
    | [] => c
    | job :: jobs =>
      runJob undefined sent { c with heap := { c.heap with jobs := jobs }, ran := c.ran + 1 } job
  | .settle i how =>
    if c.log.any fun e ↦ decide (e.1 = i) && e.2.isPromise then
      { c with heap := c.heap.settle (.query i) how }
    else c

/-- The outcome of a query that was forwarded. -/
inductive Outcome (c : Client ν) (i : ℕ) : Settlement ν → Prop
  | thrown {reason} (h : (i, Sent.thrown reason) ∈ c.log) : Outcome c i (.rejected reason)
  | settled {how} (h : (i, Sent.promise) ∈ c.log) (hq : c.heap.cell (.query i) = .settled how) :
      Outcome c i how

/-! ### The server -/

/-- How far the query being served is. -/
inductive Stage (ν : Type) where
  /-- `forward` is about to run. -/
  | called
  /-- The result is about to adopt the driver's promise, which may be settled. -/
  | adopting (how : Option (Settlement ν))
  /-- The result waits for the driver. -/
  | flying
  /-- The result is about to be settled. -/
  | landing (how : Settlement ν)
  /-- The tail is about to be settled. -/
  | closing (sent : Sent ν) (how : Settlement ν)

/-- What `super.query` has done. -/
def Stage.sent : Stage ν → Option (Sent ν)
  | called => none
  | adopting _ | flying | landing _ => some .promise
  | closing sent _ => some sent

/-- The jobs that have run for the query. -/
def Stage.ran : Stage ν → ℕ
  | called => 0
  | adopting _ => 1
  | flying | landing _ => 2
  | closing _ _ => 3

/-- The job that is due. -/
def Stage.jobs (i : ℕ) : Stage ν → List (Job Name Handler ν)
  | called => [.react (.handle (.forward i) (.result i)) (.fulfilled undefined)]
  | adopting _ => [.adopt (.query i) (.result i)]
  | flying => []
  | landing how => [.react (.resolve (.result i)) how]
  | closing _ how => [.react (.handle .ignore (.tail (i + 1))) how]

/-- The result of the query. -/
def Stage.result (i : ℕ) : Stage ν → Cell Name Handler ν
  | closing _ how => .settled how
  | called | adopting _ | flying | landing _ => .pending [.handle .ignore (.tail (i + 1))]

/-- The promise of the driver for a query that has an outcome; there is none if it threw. -/
def Sent.query (how : Settlement ν) : Sent ν → Cell Name Handler ν
  | promise => .settled how
  | thrown _ => .pending []

/-- The promise of the driver. -/
def Stage.query (i : ℕ) : Stage ν → Cell Name Handler ν
  | called | adopting none => .pending []
  | flying => .pending [.resolve (.result i)]
  | adopting (some how) | landing how => .settled how
  | closing sent how => sent.query how

/-- A server of queries: those that are done, the one being served and the number of those that
wait. -/
structure Server (ν : Type) where
  done : List (Sent ν × Settlement ν)
  busy : Option (Stage ν × ℕ)

namespace Server

/-- The number of queries. -/
def calls (s : Server ν) : ℕ := s.done.length + s.busy.elim 0 fun b ↦ b.2 + 1

/-- What was forwarded. -/
def log (s : Server ν) : List (ℕ × Sent ν) :=
  (s.done.map Prod.fst ++ (s.busy.bind fun b ↦ b.1.sent).toList).zipIdx.map Prod.swap

/-- The jobs that have run. -/
def ran (s : Server ν) : ℕ := 4 * s.done.length + s.busy.elim 0 fun b ↦ b.1.ran

/-- The jobs that are due. -/
def jobs (s : Server ν) : List (Job Name Handler ν) :=
  s.busy.elim [] fun b ↦ b.1.jobs undefined s.done.length

/-- The promises. -/
def cell (s : Server ν) : Name → Cell Name Handler ν
  | .tail i =>
    if i ≤ s.done.length then .settled (.fulfilled undefined)
    else if i < s.calls then .pending [.handle (.forward i) (.result i)]
    else .pending []
  | .result i => match s.done[i]? with
    | some d => .settled d.2
    | none => s.busy.elim (.pending []) fun b ↦
      if i = s.done.length then b.1.result i
      else if i < s.calls then .pending [.handle .ignore (.tail (i + 1))]
      else .pending []
  | .query i => match s.done[i]? with
    | some d => d.1.query d.2
    | none => s.busy.elim (.pending []) fun b ↦
      if i = s.done.length then b.1.query i else .pending []

/-- A query that threw is rejected with what it threw. -/
def Fair (s : Server ν) : Prop :=
  (∀ d ∈ s.done, ∀ reason, d.1 = .thrown reason → d.2 = .rejected reason) ∧
    ∀ reason how w, s.busy = some (.closing (.thrown reason) how, w) → how = .rejected reason

end Server

/-- The client is a server in this state. -/
structure Serves (c : Client ν) (s : Server ν) : Prop where
  heap_eq : c.heap = ⟨s.cell undefined, s.jobs undefined⟩
  calls_eq : c.calls = s.calls
  log_eq : c.log = s.log
  ran_le : c.ran ≤ s.ran
  fair : s.Fair

variable {undefined} {c : Client ν} {s : Server ν} {done : List (Sent ν × Settlement ν)}
  {stage : Stage ν} {w : ℕ}

theorem serves_start : Serves undefined (start undefined) ⟨[], none⟩ := by
  refine ⟨?_, rfl, rfl, le_rfl, fun d hd ↦ (nomatch hd), fun _ _ _ h ↦ (nomatch h)⟩
  refine Heap.ext (funext fun p ↦ ?_) rfl
  cases p with
  | tail i => simp [start, Server.cell, Server.calls]
  | result i | query i => rfl

/-! ### A call -/

/-- A call through the chain. -/
theorem query_eq {args : QueryArgs}
    (hargs : (args.valuesIsFunction || args.callbackIsFunction || args.submittable) = false)
    (hresult : c.heap.cell (.result c.calls) = .pending []) :
    (query args c).1 = { c with
      heap := { c.heap.performThen (.tail c.calls)
          (.handle (.forward c.calls) (.result c.calls)) with
        cell := Function.update ((c.heap.performThen (.tail c.calls)
            (.handle (.forward c.calls) (.result c.calls))).cell) (.result c.calls)
          (.pending [.handle .ignore (.tail (c.calls + 1))]) }
      calls := c.calls + 1 } := by
  have hkept : (c.heap.performThen (.tail c.calls)
      (.handle (.forward c.calls) (.result c.calls))).cell (.result c.calls) = .pending [] := by
    rw [← hresult]
    exact Heap.cell_performThen_of_ne (by simp)
  rw [query, if_neg (by simp [hargs])]
  dsimp only
  rw [Heap.performThen_of_pending hkept]
  rfl

/-- A call of an idle client is served at once. -/
theorem Serves.query_idle (h : Serves undefined c ⟨done, none⟩) {args : QueryArgs}
    (hargs : (args.valuesIsFunction || args.callbackIsFunction || args.submittable) = false) :
    Serves undefined (query args c).1 ⟨done, some (.called, 0)⟩ := by
  have hcalls : c.calls = done.length := h.calls_eq
  have htail : c.heap.cell (.tail c.calls) = .settled (.fulfilled undefined) := by
    rw [h.heap_eq, hcalls]
    exact if_pos le_rfl
  have hresult : c.heap.cell (.result c.calls) = .pending [] := by
    rw [h.heap_eq, hcalls]
    simp [Server.cell]
  rw [query_eq hargs hresult, Heap.performThen_of_settled htail, hcalls]
  refine ⟨Heap.ext (funext fun p ↦ ?_) ?_, ?_, h.log_eq, h.ran_le, h.fair.1, fun _ _ _ h ↦ ?_⟩
  · cases p with
    | tail i =>
      rcases le_or_gt i done.length with hi | hi
      · simp [h.heap_eq, Server.cell, hi]
      · have hi' : ¬ i ≤ done.length := hi.not_ge
        have hi'' : ¬ i < done.length + 1 := by omega
        simp [h.heap_eq, Server.cell, Server.calls, hi', hi'', hi.not_gt]
    | result i =>
      rcases lt_trichotomy i done.length with hi | rfl | hi
      · simp [h.heap_eq, Server.cell, hi, hi.ne]
      · simp [Server.cell, Stage.result]
      · have hi' : ¬ i < done.length + 1 := by omega
        simp [h.heap_eq, Server.cell, Server.calls, hi.ne', hi.le, hi']
    | query i =>
      rcases lt_trichotomy i done.length with hi | rfl | hi
      · simp [h.heap_eq, Server.cell, hi]
      · simp [h.heap_eq, Server.cell, Stage.query]
      · simp [h.heap_eq, Server.cell, hi.ne', hi.le]
  · simp [h.heap_eq, Server.jobs, Stage.jobs]
  · rfl
  · exact nomatch h

/-- A call of a busy client waits. -/
theorem Serves.query_busy (h : Serves undefined c ⟨done, some (stage, w)⟩) {args : QueryArgs}
    (hargs : (args.valuesIsFunction || args.callbackIsFunction || args.submittable) = false) :
    Serves undefined (query args c).1 ⟨done, some (stage, w + 1)⟩ := by
  have hcalls : c.calls = done.length + (w + 1) := h.calls_eq
  have htail : c.heap.cell (.tail c.calls) = .pending [] := by
    rw [h.heap_eq, hcalls]
    simp [Server.cell, Server.calls]
  have hresult : c.heap.cell (.result c.calls) = .pending [] := by
    rw [h.heap_eq, hcalls]
    simp [Server.cell, Server.calls]
  rw [query_eq hargs hresult, Heap.performThen_of_pending htail, hcalls]
  refine ⟨Heap.ext (funext fun p ↦ ?_) ?_, rfl, h.log_eq, h.ran_le, h.fair.1,
    fun reason how w' hbusy ↦ ?_⟩
  · cases p with
    | tail i =>
      rcases lt_trichotomy i (done.length + (w + 1)) with hi | rfl | hi
      · have hi' : i < done.length + (w + 1 + 1) := by omega
        simp [Heap.set, h.heap_eq, Server.cell, Server.calls, hi, hi', hi.ne]
      · simp [Heap.set, Server.cell, Server.calls]
      · have hi' : ¬ i < done.length + (w + 1 + 1) := by omega
        simp [Heap.set, h.heap_eq, Server.cell, Server.calls, hi.not_gt, hi', hi.ne']
    | result i =>
      rcases lt_trichotomy i (done.length + (w + 1)) with hi | rfl | hi
      · have hi' : i < done.length + (w + 1 + 1) := by omega
        simp [Heap.set, h.heap_eq, Server.cell, Server.calls, hi, hi', hi.ne]
      · simp [Server.cell, Server.calls]
      · have hi' : ¬ i < done.length + (w + 1 + 1) := by omega
        simp [Heap.set, h.heap_eq, Server.cell, Server.calls, hi.not_gt, hi', hi.ne']
    | query i => simp [Heap.set, h.heap_eq, Server.cell]
  · simp [Heap.set, h.heap_eq, Server.jobs]
  · simp only [Option.some.injEq, Prod.mk.injEq] at hbusy
    exact h.fair.2 reason how w (by rw [hbusy.1])

/-! ### A turn of the query being served -/

/-- Only the result and the driver's promise of the query change. -/
theorem Serves.turn {c' : Client ν} {stage' : Stage ν}
    (h : Serves undefined c ⟨done, some (stage, w)⟩)
    (hresult : c'.heap.cell (.result done.length) = stage'.result done.length)
    (hquery : c'.heap.cell (.query done.length) = stage'.query done.length)
    (hrest : ∀ p, p ≠ .result done.length → p ≠ .query done.length →
      c'.heap.cell p = c.heap.cell p)
    (hjobs : c'.heap.jobs = stage'.jobs undefined done.length) (hcalls : c'.calls = c.calls)
    (hlog : c'.log = (⟨done, some (stage', w)⟩ : Server ν).log)
    (hran : c'.ran + stage.ran ≤ c.ran + stage'.ran)
    (hfair : ∀ reason how, stage' = .closing (.thrown reason) how → how = .rejected reason) :
    Serves undefined c' ⟨done, some (stage', w)⟩ := by
  have hran' : c'.ran ≤ 4 * done.length + stage'.ran := by
    have hc : c.ran ≤ 4 * done.length + stage.ran := h.ran_le
    omega
  refine ⟨Heap.ext (funext fun p ↦ ?_) hjobs, hcalls.trans h.calls_eq, hlog, hran', h.fair.1,
    fun reason how w' hbusy ↦ hfair reason how ?_⟩
  · cases p with
    | tail i =>
      rw [hrest (.tail i) nofun nofun, h.heap_eq]
      rfl
    | result i =>
      rcases eq_or_ne i done.length with rfl | hi
      · simp [hresult, Server.cell]
      · rw [hrest (.result i) (by simpa using hi) nofun, h.heap_eq]
        simp only [Server.cell, if_neg hi]
        rfl
    | query i =>
      rcases eq_or_ne i done.length with rfl | hi
      · simp [hquery, Server.cell]
      · rw [hrest (.query i) nofun (by simpa using hi), h.heap_eq]
        simp only [Server.cell, if_neg hi]
        rfl
  · simp only [Option.some.injEq, Prod.mk.injEq] at hbusy
    exact hbusy.1

/-- The heap of a client that is serving a query. -/
theorem Serves.jobs_eq (h : Serves undefined c ⟨done, some (stage, w)⟩) :
    c.heap.jobs = stage.jobs undefined done.length := by
  rw [h.heap_eq]
  rfl

theorem Serves.result_eq (h : Serves undefined c ⟨done, some (stage, w)⟩) :
    c.heap.cell (.result done.length) = stage.result done.length := by
  rw [h.heap_eq]
  simp [Server.cell]

theorem Serves.query_eq (h : Serves undefined c ⟨done, some (stage, w)⟩) :
    c.heap.cell (.query done.length) = stage.query done.length := by
  rw [h.heap_eq]
  simp [Server.cell]

/-- A job that is due runs. -/
theorem step_job {job : Job Name Handler ν} {jobs} (hjobs : c.heap.jobs = job :: jobs)
    (sent : Sent ν) :
    step undefined c (.job sent) =
      runJob undefined sent { c with heap := { c.heap with jobs := jobs }, ran := c.ran + 1 }
        job := by
  rw [step]
  simp only [hjobs]

/-- `forward` runs, and the driver returns a promise. -/
theorem Serves.forward_promise (h : Serves undefined c ⟨done, some (.called, w)⟩) :
    Serves undefined (step undefined c (.job .promise)) ⟨done, some (.adopting none, w)⟩ := by
  rw [step_job h.jobs_eq]
  refine h.turn h.result_eq h.query_eq (fun _ _ _ ↦ rfl) rfl rfl ?_ le_rfl
    (fun _ _ hs ↦ nomatch hs)
  simp [runJob, h.log_eq, Server.log, Stage.sent, List.zipIdx_append]

/-- `forward` runs, and the driver throws. -/
theorem Serves.forward_thrown (h : Serves undefined c ⟨done, some (.called, w)⟩) (reason : ν) :
    Serves undefined (step undefined c (.job (.thrown reason)))
      ⟨done, some (.closing (.thrown reason) (.rejected reason), w)⟩ := by
  rw [step_job h.jobs_eq]
  dsimp only [runJob, Heap.complete]
  rw [Heap.settle_of_pending (h := ⟨c.heap.cell, []⟩) h.result_eq]
  refine h.turn (Function.update_self ..) ?_ (fun p hr _ ↦ Function.update_of_ne hr ..) rfl rfl
    ?_ ?_ (fun _ _ hs ↦ ?_)
  · simp [Heap.set, h.query_eq, Stage.query, Sent.query]
  · simp [h.log_eq, Server.log, Stage.sent, List.zipIdx_append]
  · simp [Stage.ran]
  · cases hs
    rfl

/-- The result adopts the promise of the driver. -/
theorem Serves.adopt {how : Option (Settlement ν)}
    (h : Serves undefined c ⟨done, some (.adopting how, w)⟩) (sent : Sent ν) :
    Serves undefined (step undefined c (.job sent))
      ⟨done, some (how.elim .flying .landing, w)⟩ := by
  rw [step_job h.jobs_eq]
  dsimp only [runJob]
  cases how with
  | none =>
    rw [Heap.performThen_of_pending (h := ⟨c.heap.cell, []⟩) h.query_eq]
    refine h.turn ?_ (Function.update_self ..) (fun p _ hq ↦ Function.update_of_ne hq ..) rfl rfl
      h.log_eq le_rfl (fun _ _ hs ↦ nomatch hs)
    simp [Heap.set, h.result_eq, Stage.result]
  | some how =>
    rw [Heap.performThen_of_settled (h := ⟨c.heap.cell, []⟩) h.query_eq]
    exact h.turn h.result_eq h.query_eq (fun _ _ _ ↦ rfl) rfl rfl h.log_eq le_rfl
      (fun _ _ hs ↦ nomatch hs)

/-- The result is settled. -/
theorem Serves.land {how : Settlement ν}
    (h : Serves undefined c ⟨done, some (.landing how, w)⟩) (sent : Sent ν) :
    Serves undefined (step undefined c (.job sent)) ⟨done, some (.closing .promise how, w)⟩ := by
  rw [step_job h.jobs_eq]
  dsimp only [runJob]
  rw [Heap.settle_of_pending (h := ⟨c.heap.cell, []⟩) h.result_eq]
  refine h.turn (Function.update_self ..) ?_ (fun p hr _ ↦ Function.update_of_ne hr ..) rfl rfl
    h.log_eq le_rfl (fun _ _ hs ↦ nomatch hs)
  simp [Heap.set, h.query_eq, Stage.query, Sent.query]

/-- The driver settles the promise that the result waits for. -/
theorem Serves.settle_flying (h : Serves undefined c ⟨done, some (.flying, w)⟩)
    (how : Settlement ν) :
    Serves undefined { c with heap := c.heap.settle (.query done.length) how }
      ⟨done, some (.landing how, w)⟩ := by
  rw [Heap.settle_of_pending h.query_eq]
  refine h.turn ?_ (Function.update_self ..) (fun p _ hq ↦ Function.update_of_ne hq ..) ?_ rfl
    h.log_eq le_rfl (fun _ _ hs ↦ nomatch hs)
  · simp [Heap.set, h.result_eq, Stage.result]
  · simp only [h.jobs_eq]
    rfl

/-- The driver settles a promise that the result has not adopted yet. -/
theorem Serves.settle_adopting (h : Serves undefined c ⟨done, some (.adopting none, w)⟩)
    (how : Settlement ν) :
    Serves undefined { c with heap := c.heap.settle (.query done.length) how }
      ⟨done, some (.adopting (some how), w)⟩ := by
  rw [Heap.settle_of_pending h.query_eq]
  refine h.turn ?_ (Function.update_self ..) (fun p _ hq ↦ Function.update_of_ne hq ..) ?_ rfl
    h.log_eq le_rfl (fun _ _ hs ↦ nomatch hs)
  · simp [Heap.set, h.result_eq, Stage.result]
  · simp only [h.jobs_eq]
    rfl

/-! ### The next query -/

/-- The query that is served next. -/
def next : ℕ → Option (Stage ν × ℕ)
  | 0 => none
  | w + 1 => some (.called, w)

/-- The tail of a query that is done. -/
theorem Serves.tail_eq (h : Serves undefined c ⟨done, some (stage, w)⟩) :
    c.heap.cell (.tail (done.length + 1)) = .pending (match w with
      | 0 => []
      | _ + 1 => [.handle (.forward (done.length + 1)) (.result (done.length + 1))]) := by
  rw [h.heap_eq]
  cases w <;> simp [Server.cell, Server.calls]

theorem calls_next {d : Sent ν × Settlement ν} :
    (⟨done ++ [d], next w⟩ : Server ν).calls = done.length + (w + 1) := by
  cases w with
  | zero => simp [next, Server.calls]
  | succ w =>
    simp [next, Server.calls]
    omega

theorem log_next {how : Settlement ν} {sent : Sent ν} :
    (⟨done ++ [(sent, how)], next w⟩ : Server ν).log =
      (⟨done, some (.closing sent how, w)⟩ : Server ν).log := by
  cases w with
  | zero => simp [next, Server.log, Stage.sent]
  | succ w => simp [next, Server.log, Stage.sent]

/-- Only the tail changes when a query is done. -/
theorem cell_next {sent : Sent ν} {how : Settlement ν} (p : Name) :
    Server.cell undefined ⟨done ++ [(sent, how)], next w⟩ p =
      Function.update (Server.cell undefined ⟨done, some (.closing sent how, w)⟩)
        (.tail (done.length + 1)) (.settled (.fulfilled undefined)) p := by
  have hlast {i : ℕ} (hi : done.length < i) : (done ++ [(sent, how)])[i]? = none :=
    List.getElem?_eq_none (by rw [List.length_append]; exact hi)
  cases p with
  | tail i =>
    simp only [Function.update_apply, Name.tail.injEq, Server.cell, calls_next,
      List.length_append, List.length_singleton]
    rcases lt_trichotomy i (done.length + 1) with hi | rfl | hi
    · rw [if_neg hi.ne, if_pos (Nat.lt_succ_iff.mp hi), if_pos hi.le]
    · simp
    · rw [if_neg hi.ne', if_neg hi.not_ge, if_neg (show ¬ i ≤ done.length by omega)]
      rfl
  | result i =>
    rw [Function.update_of_ne (by simp : _ ≠ Name.tail (done.length + 1))]
    simp only [Server.cell, calls_next, List.length_append, List.length_singleton]
    rcases lt_trichotomy i done.length with hi | rfl | hi
    · simp [hi, List.getElem?_append_left hi]
    · simp [Stage.result]
    · rw [List.getElem?_eq_none hi.le, hlast hi]
      cases w with
      | zero =>
        have hi' : ¬ i < done.length + 1 := by omega
        simp [next, hi.ne', Server.calls, hi']
      | succ w =>
        simp only [next, Option.elim_some, if_neg hi.ne', Server.calls]
        rcases eq_or_ne i (done.length + 1) with rfl | hne
        · simp [Stage.result]
        · rw [if_neg hne]
          rfl
  | query i =>
    rw [Function.update_of_ne (by simp : _ ≠ Name.tail (done.length + 1))]
    simp only [Server.cell, List.length_append, List.length_singleton]
    rcases lt_trichotomy i done.length with hi | rfl | hi
    · simp [hi, List.getElem?_append_left hi]
    · simp [Stage.query]
    · rw [List.getElem?_eq_none hi.le, hlast hi]
      cases w <;> simp [next, hi.ne', Stage.query]

/-- The tail is settled. -/
theorem Serves.close {sent : Sent ν} {how : Settlement ν}
    (h : Serves undefined c ⟨done, some (.closing sent how, w)⟩) (sent' : Sent ν) :
    Serves undefined (step undefined c (.job sent')) ⟨done ++ [(sent, how)], next w⟩ := by
  rw [step_job h.jobs_eq]
  dsimp only [runJob]
  rw [Heap.settle_of_pending (h := ⟨c.heap.cell, []⟩) h.tail_eq]
  refine ⟨Heap.ext (funext fun p ↦ ?_) ?_, h.calls_eq.trans calls_next.symm,
    h.log_eq.trans log_next.symm, ?_, ?_, ?_⟩
  · refine Eq.trans ?_ (cell_next p).symm
    simp [Heap.set, h.heap_eq]
  · cases w <;> simp [Server.jobs, next, Stage.jobs]
  · have hran : c.ran ≤ 4 * done.length + 3 := h.ran_le
    cases w <;> simp [Server.ran, next, Stage.ran] <;> omega
  · intro d hd reason hthrown
    rcases List.mem_append.mp hd with hd | hd
    · exact h.fair.1 d hd reason hthrown
    · rw [List.mem_singleton.mp hd] at hthrown ⊢
      exact h.fair.2 reason how w (by rw [← hthrown])
  · intro reason how' w' hbusy
    cases w <;> simp [next] at hbusy

/-! ### Runs -/

/-- What was forwarded, by the number of the call. -/
theorem Server.mem_log_iff {i : ℕ} {sent : Sent ν} : (i, sent) ∈ s.log ↔
    (s.done.map Prod.fst ++ (s.busy.bind fun b ↦ b.1.sent).toList)[i]? = some sent := by
  rw [Server.log, List.mem_map]
  constructor
  · rintro ⟨⟨_, _⟩, hx, hxe⟩
    cases hxe
    exact List.mem_zipIdx_iff_getElem?.mp hx
  · intro hi
    exact ⟨(sent, i), List.mem_zipIdx_iff_getElem?.mpr hi, rfl⟩

/-- A query that was forwarded is done or being served. -/
theorem Server.mem_log {i : ℕ} {sent : Sent ν} (h : (i, sent) ∈ s.log) :
    (∃ how, s.done[i]? = some (sent, how)) ∨
      i = s.done.length ∧ ∃ stage w, s.busy = some (stage, w) ∧ stage.sent = some sent := by
  rw [mem_log_iff] at h
  rcases lt_or_ge i s.done.length with hi | hi
  · rw [List.getElem?_append_left (by simpa using hi), List.getElem?_map,
      Option.map_eq_some_iff] at h
    obtain ⟨⟨_, how⟩, hd, rfl⟩ := h
    exact .inl ⟨how, hd⟩
  · rw [List.getElem?_append_right (by simpa using hi), List.length_map] at h
    have hmem := List.mem_of_getElem? h
    rw [Option.mem_toList, Option.bind_eq_some_iff] at hmem
    obtain ⟨⟨stage, w⟩, hbusy, hsent⟩ := hmem
    have hlt : i - s.done.length < 1 := by
      have hlen := (List.getElem?_eq_some_iff.mp h).1
      rw [hbusy, Option.bind_some, hsent] at hlen
      exact hlen
    exact .inr ⟨by omega, stage, w, hbusy, hsent⟩

/-- A query that is done was forwarded. -/
theorem Server.mem_log_of_done {i : ℕ} {sent : Sent ν} {how : Settlement ν}
    (h : s.done[i]? = some (sent, how)) : (i, sent) ∈ s.log := by
  have hi := (List.getElem?_eq_some_iff.mp h).1
  rw [mem_log_iff, List.getElem?_append_left (by simpa using hi), List.getElem?_map, h]
  rfl

/-- A query that is being served has been forwarded unless it is the first job. -/
theorem Server.mem_log_of_busy {sent : Sent ν} (hsent : stage.sent = some sent) :
    (done.length, sent) ∈ (⟨done, some (stage, w)⟩ : Server ν).log := by
  rw [mem_log_iff, List.getElem?_append_right (by simp)]
  simp [hsent]

/-- The promise of a query that is done. -/
theorem Serves.query_done (h : Serves undefined c s) {i : ℕ} {sent : Sent ν} {how : Settlement ν}
    (hd : s.done[i]? = some (sent, how)) : c.heap.cell (.query i) = sent.query how := by
  rw [h.heap_eq]
  simp only [Server.cell, hd]

theorem Serves.result_done (h : Serves undefined c s) {i : ℕ} {sent : Sent ν} {how : Settlement ν}
    (hd : s.done[i]? = some (sent, how)) : c.heap.cell (.result i) = .settled how := by
  rw [h.heap_eq]
  simp only [Server.cell, hd]

/-- A call. -/
theorem Serves.query (h : Serves undefined c s) (args : QueryArgs) :
    ∃ s', Serves undefined (Prisma.query args c).1 s' := by
  by_cases hargs :
    (args.valuesIsFunction || args.callbackIsFunction || args.submittable) = true
  · refine ⟨s, ?_⟩
    rw [Prisma.query, if_pos hargs]
    exact ⟨h.heap_eq, h.calls_eq, h.log_eq, h.ran_le, h.fair⟩
  · rw [Bool.not_eq_true] at hargs
    obtain ⟨done, _ | ⟨stage, w⟩⟩ := s
    · exact ⟨_, h.query_idle hargs⟩
    · exact ⟨_, h.query_busy hargs⟩

/-- A job. -/
theorem Serves.job (h : Serves undefined c s) (sent : Sent ν) :
    ∃ s', Serves undefined (step undefined c (.job sent)) s' := by
  obtain ⟨done, busy⟩ := s
  cases busy with
  | none =>
    have hjobs : c.heap.jobs = [] := by
      rw [h.heap_eq]
      rfl
    refine ⟨⟨done, none⟩, ?_⟩
    rw [step]
    simpa only [hjobs] using h
  | some b =>
    obtain ⟨stage, w⟩ := b
    cases stage with
    | called =>
      cases sent with
      | promise => exact ⟨_, h.forward_promise⟩
      | thrown reason => exact ⟨_, h.forward_thrown reason⟩
    | adopting how => exact ⟨_, h.adopt sent⟩
    | flying =>
      refine ⟨⟨done, some (.flying, w)⟩, ?_⟩
      rw [step]
      simpa only [h.jobs_eq, Stage.jobs] using h
    | landing how => exact ⟨_, h.land sent⟩
    | closing sent' how => exact ⟨_, h.close sent⟩

/-- The driver settles a promise. -/
theorem Serves.settle (h : Serves undefined c s) (i : ℕ) (how : Settlement ν) :
    ∃ s', Serves undefined (step undefined c (.settle i how)) s' := by
  rw [step]
  split_ifs with hlog
  · obtain ⟨⟨_, sent⟩, hmem, hi⟩ := List.any_eq_true.mp hlog
    simp only [Bool.and_eq_true, decide_eq_true_eq] at hi
    obtain ⟨rfl, hsent⟩ := hi
    obtain rfl : sent = .promise := by
      cases sent with
      | promise => rfl
      | thrown reason => cases hsent
    rw [h.log_eq] at hmem
    rcases Server.mem_log hmem with ⟨how', hd⟩ | ⟨rfl, stage, w, hbusy, hstage⟩
    · rw [Heap.settle_of_settled (h.query_done hd)]
      exact ⟨s, h⟩
    · obtain ⟨done, busy⟩ := s
      cases hbusy
      cases stage with
      | called => cases hstage
      | adopting how' =>
        cases how' with
        | none => exact ⟨_, h.settle_adopting how⟩
        | some how' =>
          rw [Heap.settle_of_settled h.query_eq]
          exact ⟨_, h⟩
      | flying => exact ⟨_, h.settle_flying how⟩
      | landing how' =>
        rw [Heap.settle_of_settled h.query_eq]
        exact ⟨_, h⟩
      | closing sent how' =>
        cases hstage
        rw [Heap.settle_of_settled h.query_eq]
        exact ⟨_, h⟩
  · exact ⟨s, h⟩

variable (undefined) in
/-- The client is a server at all times. -/
theorem serves_run (es : List (Event ν)) :
    ∃ s, Serves undefined (es.foldl (step undefined) (start undefined)) s := by
  induction es using List.reverseRecOn with
  | nil => exact ⟨_, serves_start⟩
  | append_singleton es e ih =>
    obtain ⟨s, hs⟩ := ih
    rw [List.foldl_append]
    cases e with
    | query args => exact hs.query args
    | job sent => exact hs.job sent
    | settle i how => exact hs.settle i how

/-! ### What callers get -/

/-- The call is one in the promise form, which is chained. -/
def Event.chained : Event ν → Bool
  | query args => !(args.valuesIsFunction || args.callbackIsFunction || args.submittable)
  | job _ | settle _ _ => false

variable (undefined) in
/-- The client after a run. -/
abbrev run (es : List (Event ν)) : Client ν := es.foldl (step undefined) (start undefined)

variable (undefined) in
/-- The queries of a run are served one after the other, and none is lost. A call has the number of
the chained calls before it. -/
structure Serialises (es : List (Event ν)) : Prop where
  /-- At most one query is in flight. -/
  alone : ∀ i j, InFlight (run undefined es) i → InFlight (run undefined es) j → i = j
  /-- Queries are forwarded in the order of the calls, each once. -/
  order : (run undefined es).log.map Prod.fst = List.range (run undefined es).log.length
  /-- Only calls are forwarded. -/
  called : (run undefined es).log.length ≤ es.countP Event.chained
  /-- Every call gets a promise, and from it the outcome of its own query. -/
  own : ∀ es₁ args es₂, es = es₁ ++ .query args :: es₂ → (Event.query (ν := ν) args).chained →
    ∃ p, (query args (run undefined es₁)).2 = some p ∧ ∀ how,
      (run undefined es).heap.cell p = .settled how →
        Outcome (run undefined es) (es₁.countP Event.chained) how
  /-- When there is nothing to do a query whose predecessors have an outcome was forwarded. -/
  forwarded : (run undefined es).heap.jobs = [] → ∀ i < es.countP Event.chained,
    (∀ j < i, ∃ how, Outcome (run undefined es) j how) → i ∈ (run undefined es).log.map Prod.fst
  /-- When there is nothing to do callers have the outcomes there are. -/
  settled : (run undefined es).heap.jobs = [] → ∀ es₁ args es₂, es = es₁ ++ .query args :: es₂ →
    ∀ p, (query args (run undefined es₁)).2 = some p → ∀ how,
      Outcome (run undefined es) (es₁.countP Event.chained) how →
        (run undefined es).heap.cell p = .settled how
  /-- A call costs four jobs, so the queue always empties. -/
  jobs : (run undefined es).ran ≤ 4 * es.countP Event.chained

theorem calls_runJob {sent : Sent ν} (job : Job Name Handler ν) :
    (runJob undefined sent c job).calls = c.calls := by
  rcases job with ⟨⟨handler | _, derived⟩ | target, how | how⟩ | ⟨source, target⟩ <;> rfl

/-- Only `query` adds a call. -/
theorem calls_step (e : Event ν) :
    (step undefined c e).calls = c.calls + if e.chained then 1 else 0 := by
  cases e with
  | query args =>
    change (query args c).1.calls = _
    unfold query Event.chained
    split_ifs with hargs <;> simp_all
  | job sent =>
    change (match c.heap.jobs with | [] => c | job :: jobs => _ : Client ν).calls = _
    split
    · rfl
    · exact calls_runJob _
  | settle i how =>
    change (if _ then _ else c : Client ν).calls = c.calls
    split_ifs <;> rfl

variable (undefined) in
/-- The calls of the client are those that were made. -/
theorem calls_run (es : List (Event ν)) : (run undefined es).calls = es.countP Event.chained := by
  induction es using List.reverseRecOn with
  | nil => rfl
  | append_singleton es e ih =>
    rw [run, List.foldl_append, List.countP_append, ← ih]
    exact (calls_step e).trans (by rw [List.countP_singleton])

variable (undefined) in
/-- The promise that a call returns. -/
theorem query_snd {args : QueryArgs} (h : (Event.query (ν := ν) args).chained)
    (es : List (Event ν)) :
    (query args (run undefined es)).2 = some (.result (es.countP Event.chained)) := by
  rw [← calls_run undefined es]
  exact congrArg Prod.snd (if_neg (by simpa [Event.chained] using h))

/-- A query in flight is the one being served. -/
theorem Serves.inFlight (h : Serves undefined c s) {i : ℕ} (hi : InFlight c i) :
    i = s.done.length := by
  obtain ⟨hlog, rs, hq⟩ := hi
  rw [h.log_eq] at hlog
  rcases Server.mem_log hlog with ⟨how, hd⟩ | ⟨hi, -⟩
  · cases hq.symm.trans (h.query_done hd)
  · exact hi

/-- The outcome of a query that is done. -/
theorem Serves.outcome_done (h : Serves undefined c s) {i : ℕ} {sent : Sent ν}
    {how : Settlement ν} (hd : s.done[i]? = some (sent, how)) : Outcome c i how := by
  have hlog : (i, sent) ∈ c.log := by
    rw [h.log_eq]
    exact Server.mem_log_of_done hd
  cases sent with
  | promise => exact .settled hlog (h.query_done hd)
  | thrown reason =>
    obtain rfl : how = .rejected reason := h.fair.1 _ (List.mem_of_getElem? hd) reason rfl
    exact .thrown hlog

/-- The outcome of a query whose tail is about to be settled. -/
theorem Serves.outcome_closing {sent : Sent ν} {how : Settlement ν}
    (h : Serves undefined c ⟨done, some (.closing sent how, w)⟩) : Outcome c done.length how := by
  have hlog : (done.length, sent) ∈ c.log := by
    rw [h.log_eq]
    exact Server.mem_log_of_busy rfl
  cases sent with
  | promise => exact .settled hlog h.query_eq
  | thrown reason =>
    obtain rfl := h.fair.2 reason how w rfl
    exact .thrown hlog

/-- A result that is settled has the outcome of its query. -/
theorem Serves.outcome (h : Serves undefined c s) {i : ℕ} {how : Settlement ν}
    (hi : c.heap.cell (.result i) = .settled how) : Outcome c i how := by
  cases hd : s.done[i]? with
  | some d =>
    cases hi.symm.trans (h.result_done hd)
    exact h.outcome_done hd
  | none =>
    obtain ⟨done, busy⟩ := s
    have hcell := hi
    rw [h.heap_eq] at hcell
    simp only [Server.cell, hd] at hcell
    cases busy with
    | none => cases hcell
    | some b =>
      obtain ⟨stage, w⟩ := b
      rw [Option.elim_some] at hcell
      split_ifs at hcell with hlast
      cases stage with
      | closing sent how' =>
        cases hcell
        rw [hlast]
        exact h.outcome_closing
      | called | adopting how' | flying | landing how' => cases hcell

/-- When there is no job, nothing is being served or the driver is awaited. -/
theorem Serves.busy (h : Serves undefined c s) (hjobs : c.heap.jobs = []) :
    s.busy = none ∨ ∃ w, s.busy = some (.flying, w) := by
  obtain ⟨done, _ | ⟨stage, w⟩⟩ := s
  · exact .inl rfl
  · rw [h.jobs_eq] at hjobs
    cases stage with
    | flying => exact .inr ⟨w, rfl⟩
    | called | adopting how | landing how | closing sent how => cases hjobs

/-- When there is no job the query being served has no outcome. -/
theorem Serves.done_of_outcome (h : Serves undefined c s) (hjobs : c.heap.jobs = []) {i : ℕ}
    {how : Settlement ν} (hi : Outcome c i how) : ∃ sent, s.done[i]? = some (sent, how) := by
  cases hi with
  | thrown hlog =>
    rw [h.log_eq] at hlog
    rcases Server.mem_log hlog with ⟨how, hd⟩ | ⟨-, stage, w, hbusy, hsent⟩
    · obtain rfl := h.fair.1 _ (List.mem_of_getElem? hd) _ rfl
      exact ⟨_, hd⟩
    · rcases h.busy hjobs with hnone | ⟨w, hflying⟩
      · cases hnone.symm.trans hbusy
      · cases hflying.symm.trans hbusy
        cases hsent
  | settled hlog hq =>
    rw [h.log_eq] at hlog
    rcases Server.mem_log hlog with ⟨how', hd⟩ | ⟨rfl, stage, w, hbusy, hsent⟩
    · cases hq.symm.trans (h.query_done hd)
      exact ⟨_, hd⟩
    · rcases h.busy hjobs with hnone | ⟨w, hflying⟩
      · cases hnone.symm.trans hbusy
      · obtain ⟨done, busy⟩ := s
        cases hflying
        cases hq.symm.trans h.query_eq

/-- When there is no job a query is forwarded as soon as those before it have an outcome. -/
theorem Serves.mem_log (h : Serves undefined c s) (hjobs : c.heap.jobs = []) {i : ℕ}
    (hi : i < c.calls) (hbefore : ∀ j < i, ∃ how, Outcome c j how) : ∃ sent, (i, sent) ∈ c.log := by
  rw [h.log_eq]
  rcases lt_or_ge i s.done.length with hlt | hge
  · exact ⟨_, Server.mem_log_of_done (List.getElem?_eq_getElem hlt)⟩
  · rw [h.calls_eq] at hi
    obtain ⟨done, busy⟩ := s
    rcases h.busy hjobs with hnone | ⟨w, hflying⟩
    · cases hnone
      exact absurd hi hge.not_gt
    · cases hflying
      rcases hge.eq_or_lt with rfl | hlater
      · exact ⟨_, Server.mem_log_of_busy rfl⟩
      · obtain ⟨how, hout⟩ := hbefore _ hlater
        obtain ⟨sent, hd⟩ := h.done_of_outcome hjobs hout
        rw [List.getElem?_eq_none le_rfl] at hd
        cases hd

theorem Server.map_fst_log : s.log.map Prod.fst = List.range s.log.length := by
  rw [Server.log, List.map_map, List.length_map, List.length_zipIdx, List.range_eq_range']
  exact List.zipIdx_map_snd ..

theorem Server.length_log_le : s.log.length ≤ s.calls := by
  obtain ⟨done, _ | ⟨stage, w⟩⟩ := s
  · simp [Server.log, Server.calls]
  · cases hs : stage.sent <;> simp [Server.log, Server.calls, hs]

theorem Server.ran_le : s.ran ≤ 4 * s.calls := by
  obtain ⟨done, _ | ⟨stage, w⟩⟩ := s
  · simp [Server.ran, Server.calls]
  · have hstage : stage.ran ≤ 3 := by cases stage <;> simp [Stage.ran]
    simp only [Server.ran, Server.calls, Option.elim_some]
    omega

/-- **The chain serialises** the queries of its callers, whatever they and the driver do. -/
theorem serialises (es : List (Event ν)) : Serialises undefined es := by
  obtain ⟨s, h⟩ := serves_run undefined es
  have hcalls := calls_run undefined es
  refine ⟨fun i j hi hj ↦ ?_, ?_, ?_, fun es₁ args es₂ hes hargs ↦ ?_,
    fun hjobs i hi hbefore ↦ ?_, fun hjobs es₁ args es₂ hes p hp how hout ↦ ?_, ?_⟩
  · rw [h.inFlight hi, h.inFlight hj]
  · rw [h.log_eq]
    exact Server.map_fst_log
  · rw [← hcalls, h.log_eq, h.calls_eq]
    exact Server.length_log_le
  · exact ⟨_, query_snd undefined hargs es₁, fun how hi ↦ h.outcome hi⟩
  · obtain ⟨sent, hlog⟩ := h.mem_log hjobs (hcalls ▸ hi) hbefore
    exact List.mem_map_of_mem hlog
  · obtain ⟨sent, hd⟩ := h.done_of_outcome hjobs hout
    by_cases hargs : (Event.query (ν := ν) args).chained
    · rw [query_snd undefined hargs es₁] at hp
      obtain rfl := Option.some.inj hp
      exact h.result_done hd
    · have hpass : (args.valuesIsFunction || args.callbackIsFunction || args.submittable) = true :=
        not_not.1 fun h ↦ hargs (by rw [Event.chained, Bool.eq_false_of_not_eq_true h]; rfl)
      have hnone : (query args (run undefined es₁)).2 = none := congrArg Prod.snd (if_pos hpass)
      rw [hnone] at hp
      cases hp
  · rw [← hcalls, h.calls_eq]
    exact h.ran_le.trans Server.ran_le

/-- Two calls at once: the first query throws, the second is fulfilled. -/
private def overlappingRun : List (Event ℕ) :=
  [.query ⟨false, false, false⟩, .query ⟨false, false, false⟩, .job (.thrown 7), .job .promise,
    .job .promise, .job .promise, .settle 1 (.fulfilled 5), .job .promise, .job .promise]

/-- Each caller gets its own outcome. -/
theorem serialises_overlapping :
    (run 0 overlappingRun).heap.cell (.result 0) = .settled (.rejected 7) ∧
      Outcome (run 0 overlappingRun) 0 (.rejected 7) ∧
      (run 0 overlappingRun).heap.cell (.result 1) = .settled (.fulfilled 5) ∧
      Outcome (run 0 overlappingRun) 1 (.fulfilled 5) := by
  have hfirst : (run 0 overlappingRun).heap.cell (.result 0) = .settled (.rejected 7) := by decide
  have hsecond : (run 0 overlappingRun).heap.cell (.result 1) = .settled (.fulfilled 5) := by decide
  obtain ⟨p, hp, hown⟩ := (@serialises ℕ 0 overlappingRun).own [] ⟨false, false, false⟩
    _ rfl rfl
  obtain ⟨p', hp', hown'⟩ := (@serialises ℕ 0 overlappingRun).own
    [.query ⟨false, false, false⟩] ⟨false, false, false⟩ _ rfl rfl
  cases hp
  cases hp'
  exact ⟨hfirst, hown _ hfirst, hsecond, hown' _ hsecond⟩

end EasyBook.Prisma

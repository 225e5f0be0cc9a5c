import EasyBook.Graph.Walk
import EasyBook.Incidents.Record

/-!
# What an error means

Three walkers look at the objects that an error links by `cause` and `meta`. `errorChain` and
`chainOf` keep a set of what they have seen; `isWriteConflict` follows `cause` alone and keeps
nothing. `runDecision` and `classifyHttp` both call it, so both hang on an error whose causes run in
a circle without a write conflict among them, and on no other (`classifies_iff`).
-/

namespace EasyBook.Errors

open JsString EasyBook.Graph Incidents

/-! ### Errors -/

/-- A value of the language; an object is a node of the graph. -/
inductive Value (ν : Type) where
  | undefined
  | null
  | primitive
  | object (n : ν)
  deriving DecidableEq

/-- The constructors that `instanceof` tells apart; `plain` is an object that is no `Error`. -/
inductive ErrorClass where
  | plain
  | error
  | httpException
  | lineCallError
  | httpFetchError
  | knownRequest
  | unknownRequest
  | validation
  | initialization
  | rustPanic
  deriving DecidableEq

/-- `meta.target` of a unique violation. -/
inductive Target where
  | array (fields : List JsString)
  | string (field : JsString)
  | other
  deriving DecidableEq

/-- The `meta` of an error, where it is an object. -/
structure Meta (ν : Type) where
  target : Target
  cause : Value ν
  driverAdapterError : Value ν

/-- What the walkers read of an error; a text is `none` where the property is no string. -/
structure ErrorNode (ν : Type) where
  cls : ErrorClass
  code : Option JsString
  originalCode : Option JsString
  message : Option JsString
  name : Option JsString
  /-- `$metadata !== undefined`. -/
  metadata : Bool
  cause : Value ν
  info : Option (Meta ν)

/-- The objects of an error, linked as they are. -/
abbrev ErrorGraph (ν : Type) : Type := ν → ErrorNode ν

variable {ν : Type}

/-- `typeof cur === 'object'`, and not `null`. -/
def Value.node : Value ν → Option ν
  | .object n => some n
  | .undefined | .null | .primitive => none

/-- `cur == null`. -/
def Value.Nullish : Value ν → Bool
  | .undefined | .null => true
  | .primitive | .object _ => false

/-- `typeof n.originalCode === 'string' ? n.originalCode : n.code`. -/
def ErrorNode.sqlState (n : ErrorNode ν) : Option JsString := n.originalCode.or n.code

/-- `cur.cause`; a primitive has no property of that name. -/
def ErrorGraph.cause (G : ErrorGraph ν) : Value ν → Value ν
  | .object n => (G n).cause
  | .undefined | .null | .primitive => .undefined

/-- `cur` is a `PrismaClientKnownRequestError` with this code. -/
def ErrorGraph.isKnown (G : ErrorGraph ν) (code : JsString) : Value ν → Bool
  | .object n => decide ((G n).cls = .knownRequest ∧ (G n).code = some code)
  | .undefined | .null | .primitive => false

/-! ### The walkers of a decision -/

/-- `WRITE_CONFLICT_SQLSTATES`. -/
def writeConflictSqlstates : List JsString := [lit "40001", lit "40P01"]

/-- `EXCLUSION_VIOLATION`. -/
def exclusionViolation : JsString := lit "23P01"

/-- `OVERLAP_CONSTRAINT`. -/
def overlapConstraint : JsString := lit "booking_slots_no_overlap"

/-- `SLOT_TAKEN`. -/
def slotTaken : JsString := lit "One or more of the requested times is already booked."

/-- `BOOKING_DECISION_RACE`. -/
def bookingDecisionRace : JsString :=
  lit "Another decision on an overlapping booking was in progress. Please try again."

/-- `WRITE_CONFLICT_SQLSTATES.has(code)`. -/
def ErrorNode.writeConflict (n : ErrorNode ν) : Bool :=
  n.sqlState.any fun code ↦ decide (code ∈ writeConflictSqlstates)

/-- The test of one node in `isOverlapViolation`. -/
def ErrorNode.overlap (n : ErrorNode ν) : Bool :=
  decide (n.sqlState = some exclusionViolation) ||
    n.message.any fun message ↦ decide (overlapConstraint <:+: message)

/-- What the loop of `isWriteConflict` returns at a value, if it returns there. -/
def ErrorGraph.conflictAt (G : ErrorGraph ν) : Value ν → Option Bool
  | .undefined | .null => some false
  | .primitive => none
  | .object n => if (G n).writeConflict then some true else none

/-- `isWriteConflict`, with fuel for its loop. -/
def isWriteConflict (fuel : ℕ) (G : ErrorGraph ν) (e : Value ν) : Option Bool :=
  if G.isKnown (lit "P2034") e then some true else follow G.cause G.conflictAt fuel e

/-- `isTransactionRace`. -/
def isTransactionRace (fuel : ℕ) (G : ErrorGraph ν) (err : Value ν) : Option Bool :=
  isWriteConflict fuel G err

/-- `isCodeCollision`. -/
def isCodeCollision (G : ErrorGraph ν) (err : Value ν) : Bool :=
  G.isKnown (lit "P2002") err &&
    match err.node.bind fun n ↦ (G n).info with
    | none => false
    | some info => match info.target with
      | .array fields => decide (lit "code" ∈ fields)
      | .string field => decide (field = lit "code")
      | .other => false

/-- What `errorChain` pushes after a node. -/
def ErrorGraph.links (G : ErrorGraph ν) (n : ν) : List (Value ν) :=
  [(G n).cause, (G n).info.elim .undefined Meta.cause]

section

variable [Fintype ν] [DecidableEq ν]

/-- `errorChain`. -/
def errorChain (G : ErrorGraph ν) (err : Value ν) : List ν := search Value.node G.links ∅ [err]

/-- `isOverlapViolation`. -/
def isOverlapViolation (G : ErrorGraph ν) (err : Value ν) : Bool :=
  (errorChain G err).any fun n ↦ (G n).overlap

/-- What `runDecision` throws. -/
inductive Answer where
  | rethrown
  | conflict (message : JsString)
  deriving DecidableEq

/-- The `catch` of `runDecision`. -/
def runDecision (fuel : ℕ) (G : ErrorGraph ν) (err : Value ν) : Option Answer :=
  if isCodeCollision G err then some .rethrown
  else if isOverlapViolation G err then some (.conflict slotTaken)
  else (isTransactionRace fuel G err).map fun race ↦
    if race then .conflict bookingDecisionRace else .rethrown

end

/-! ### The classification of a failed request -/

/-- `CHAIN_MAX_NODES`. -/
def chainMaxNodes : ℕ := 16

/-- `DB_UNREACHABLE_PRISMA_CODES`. -/
def dbUnreachablePrismaCodes : List JsString :=
  [lit "P1001", lit "P1002", lit "P1008", lit "P1017", lit "P2024"]

/-- `DB_UNREACHABLE_CAUSE_CODES`. -/
def dbUnreachableCauseCodes : List JsString :=
  [lit "ECONNREFUSED", lit "ETIMEDOUT", lit "EHOSTUNREACH", lit "ENOTFOUND", lit "57P01",
    lit "57P03", lit "53300", lit "08000", lit "08001", lit "08003", lit "08006"]

/-- `REDIS_ERROR_NAMES`. -/
def redisErrorNames : List JsString :=
  [lit "ReplyError", lit "MaxRetriesPerRequestError", lit "AbortError"]

/-- The alternatives of `REDIS_MESSAGE`. -/
def redisMessage : List JsString :=
  [lit "Connection is closed", lit "Stream isn't writeable", lit "enableOfflineQueue"]

/-- `LINE_VERIFICATION_UNAVAILABLE`. -/
def lineVerificationUnavailable : JsString := lit "LINE verification unavailable."

/-- `IMAGE_UPLOAD_FAILED`. -/
def imageUploadFailed : JsString := lit "Image storage is unavailable. Please retry."

/-- What `chainOf` pushes after a node. -/
def ErrorGraph.chainLinks (G : ErrorGraph ν) (n : ν) : List (Value ν) :=
  (G n).cause :: (G n).info.elim [] fun info ↦ [info.cause, info.driverAdapterError]

/-- `chainOf`. -/
def chainOf [DecidableEq ν] (G : ErrorGraph ν) (e : Value ν) : List ν :=
  searchBelow Value.node G.chainLinks chainMaxNodes ∅ [e]

/-- `isDbUnreachable`. -/
def isDbUnreachable [DecidableEq ν] (G : ErrorGraph ν) (e : Value ν) : Bool :=
  (e.node.any fun n ↦ decide ((G n).cls = .initialization)) ||
    (dbUnreachablePrismaCodes.any fun code ↦ G.isKnown code e) ||
    (chainOf G e).any fun n ↦
      (G n).sqlState.any fun code ↦ decide (code ∈ dbUnreachableCauseCodes)

/-- `isPrismaError`. -/
def isPrismaError (n : ErrorNode ν) : Bool :=
  decide (n.cls = .knownRequest ∨ n.cls = .unknownRequest ∨ n.cls = .validation ∨
    n.cls = .initialization ∨ n.cls = .rustPanic ∨ n.name = some (lit "DriverAdapterError"))

/-- `isRedisError`. -/
def isRedisError (n : ErrorNode ν) : Bool :=
  decide (n.cls ≠ .plain) &&
    ((n.name.any fun name ↦ decide (name ∈ redisErrorNames)) ||
      n.message.any fun message ↦ redisMessage.any fun part ↦ decide (part <:+: message))

/-- `isLineError`. -/
def isLineError (n : ErrorNode ν) : Bool :=
  decide (n.cls = .lineCallError ∨ n.cls = .httpFetchError ∨
    n.cls = .httpException ∧ n.message = some lineVerificationUnavailable)

/-- `isR2Error`. -/
def isR2Error (n : ErrorNode ν) : Bool :=
  if n.cls = .httpException then decide (n.message = some imageUploadFailed)
  else n.metadata || decide (n.name = some (lit "S3ServiceException"))

/-- `HttpClassification`. -/
structure HttpClassification where
  severity : IncidentSeverity
  component : IncidentComponent
  deriving DecidableEq

/-- `classifyHttp`. -/
def classifyHttp [DecidableEq ν] (fuel : ℕ) (G : ErrorGraph ν) (error : Value ν)
    (routeTemplate : Option JsString) (redisReady : Bool) : Option HttpClassification :=
  if error = .undefined then some ⟨.error, if redisReady then .api else .redis⟩
  else (isWriteConflict fuel G error).map fun conflict ↦
    if conflict then ⟨.critical, .prismaDb⟩
    else if isDbUnreachable G error then ⟨.critical, .prismaDb⟩
    else if error.node.any fun n ↦ isPrismaError (G n) then ⟨.error, .prismaDb⟩
    else if error.node.any fun n ↦ isRedisError (G n) then ⟨.error, .redis⟩
    else if error.node.any fun n ↦ isLineError (G n) then ⟨.error, .lineOa⟩
    else if error.node.any fun n ↦ isR2Error (G n) then ⟨.error, .cloudflareR2⟩
    else if routeTemplate.any fun route ↦ decide (lit "/api/v1/auth/" <+: route) then
      ⟨.error, .auth⟩
    else ⟨.error, .api⟩

/-! ### The single chain -/

instance [Finite ν] : Finite (Value ν) := by
  let value : Option (Option (Option ν)) → Value ν
    | none => .undefined
    | some none => .null
    | some (some none) => .primitive
    | some (some (some n)) => .object n
  refine Finite.of_surjective value fun v ↦ ?_
  cases v with
  | undefined => exact ⟨none, rfl⟩
  | null => exact ⟨some none, rfl⟩
  | primitive => exact ⟨some (some none), rfl⟩
  | object n => exact ⟨some (some (some n)), rfl⟩

/-- An error with a write conflict among its causes; `P2034` is what Prisma calls a `40001`. -/
def ErrorGraph.Race (G : ErrorGraph ν) (err : Value ν) : Prop :=
  G.isKnown (lit "P2034") err ∨ ∃ k n, G.cause^[k] err = .object n ∧ (G n).writeConflict

/-- An error whose causes run in a circle, without a write conflict among them. -/
def ErrorGraph.CyclicCause (G : ErrorGraph ν) (err : Value ν) : Prop :=
  ¬ G.isKnown (lit "P2034") err ∧
    ∃ i j, i < j ∧ G.cause^[i] err = G.cause^[j] err ∧
      ∀ k < j, ∃ n, G.cause^[k] err = .object n ∧ ¬ (G n).writeConflict

variable {G : ErrorGraph ν} {err : Value ν} {fuel : ℕ}

theorem conflictAt_eq_true_iff {v : Value ν} :
    G.conflictAt v = some true ↔ ∃ n, v = .object n ∧ (G n).writeConflict := by
  cases v with
  | object n => by_cases h : (G n).writeConflict <;> simp [ErrorGraph.conflictAt, h]
  | _ => simp [ErrorGraph.conflictAt]

theorem conflictAt_eq_false_iff {v : Value ν} : G.conflictAt v = some false ↔ v.Nullish := by
  cases v with
  | object n => by_cases h : (G n).writeConflict <;> simp [ErrorGraph.conflictAt, Value.Nullish, h]
  | _ => simp [ErrorGraph.conflictAt, Value.Nullish]

theorem conflictAt_eq_none {v : Value ν} (h : G.conflictAt v = none) :
    v = .primitive ∨ ∃ n, v = .object n ∧ ¬ (G n).writeConflict := by
  cases v with
  | object n =>
    refine .inr ⟨n, rfl, fun hn ↦ ?_⟩
    rw [ErrorGraph.conflictAt, if_pos hn] at h
    exact nomatch h
  | primitive => exact .inl rfl
  | undefined | null => exact nomatch h

/-- A circle of causes consists of objects. -/
theorem loops_iff_objects : Loops G.cause G.conflictAt err ↔
    ∃ i j, i < j ∧ G.cause^[i] err = G.cause^[j] err ∧
      ∀ k < j, ∃ n, G.cause^[k] err = .object n ∧ ¬ (G n).writeConflict := by
  constructor
  · rintro ⟨i, j, hij, heq, hnone⟩
    refine ⟨i, j, hij, heq, fun k hk ↦ ?_⟩
    refine (conflictAt_eq_none (hnone k hk)).resolve_left fun hprim ↦ ?_
    -- After a primitive comes `undefined`, at which the loop returns.
    have hundefined : G.cause^[k + 1] err = .undefined := by
      rw [Function.iterate_succ_apply', hprim]
      rfl
    have hnone' : G.conflictAt (G.cause^[k + 1] err) = none := by
      rcases (Nat.succ_le_of_lt hk).lt_or_eq with hlt | heq'
      · exact hnone _ hlt
      · rw [show k + 1 = j from heq', ← heq]
        exact hnone i hij
    rw [hundefined] at hnone'
    exact nomatch hnone'
  · rintro ⟨i, j, hij, heq, hobjects⟩
    refine ⟨i, j, hij, heq, fun k hk ↦ ?_⟩
    obtain ⟨n, hn, hconflict⟩ := hobjects k hk
    rw [hn, ErrorGraph.conflictAt, if_neg hconflict]

/-- The loop stays at a nullish value. -/
theorem nullish_iterate {v : Value ν} (h : v.Nullish) (k : ℕ) : (G.cause^[k] v).Nullish := by
  induction k with
  | zero => exact h
  | succ k ih =>
    rw [Function.iterate_succ_apply']
    cases hv : G.cause^[k] v with
    | undefined | null => rfl
    | primitive | object n =>
      rw [hv] at ih
      exact nomatch ih

theorem isWriteConflict_of_known (h : G.isKnown (lit "P2034") err) :
    isWriteConflict fuel G err = some true := if_pos h

theorem isWriteConflict_of_not_known (h : ¬ G.isKnown (lit "P2034") err) :
    isWriteConflict fuel G err = follow G.cause G.conflictAt fuel err := if_neg h

/-- A write conflict among the causes is found. -/
theorem isWriteConflict_of_race (h : G.Race err) :
    Returns (fun fuel ↦ isWriteConflict fuel G err) true := by
  by_cases hknown : G.isKnown (lit "P2034") err
  · exact ⟨0, fun _ _ ↦ isWriteConflict_of_known hknown⟩
  · obtain ⟨k, n, hk, hconflict⟩ := h.resolve_left hknown
    have hexists : ∃ k, G.conflictAt (G.cause^[k] err) = some true :=
      ⟨k, conflictAt_eq_true_iff.2 ⟨n, hk, hconflict⟩⟩
    classical
    obtain ⟨m, hm⟩ : Returns (fun fuel ↦ follow G.cause G.conflictAt fuel err) true := by
      refine returns_follow (Nat.find_spec hexists) fun j hj ↦ ?_
      have hnot : G.conflictAt (G.cause^[j] err) ≠ some true := Nat.find_min hexists hj
      cases hstop : G.conflictAt (G.cause^[j] err) with
      | none => rfl
      | some b =>
        cases b with
        | true => exact absurd hstop hnot
        | false =>
          -- The causes end before the conflict.
          have hend := nullish_iterate (G := G) (conflictAt_eq_false_iff.1 hstop)
            (Nat.find hexists - j)
          rw [← Function.iterate_add_apply, Nat.sub_add_cancel hj.le,
            ← conflictAt_eq_false_iff (G := G), Nat.find_spec hexists] at hend
          exact nomatch hend
    exact ⟨m, fun fuel hfuel ↦ (isWriteConflict_of_not_known hknown).trans (hm fuel hfuel)⟩

/-- Without a write conflict, and without a circle, the causes come to an end. -/
theorem isWriteConflict_of_not_race [Finite ν] (h : ¬ G.Race err) (hcycle : ¬ G.CyclicCause err) :
    Returns (fun fuel ↦ isWriteConflict fuel G err) false := by
  obtain ⟨hknown, hchain⟩ := not_or.1 h
  obtain ⟨b, m, hm⟩ : Terminates fun fuel ↦ follow G.cause G.conflictAt fuel err :=
    terminates_follow_iff.2 fun hloops ↦ hcycle ⟨hknown, loops_iff_objects.1 hloops⟩
  cases b with
  | false =>
    exact ⟨m, fun fuel hfuel ↦ (isWriteConflict_of_not_known hknown).trans (hm fuel hfuel)⟩
  | true =>
    refine absurd ?_ hchain
    obtain ⟨k, hk⟩ := exists_stop_of_follow (hm m le_rfl)
    obtain ⟨n, hn, hconflict⟩ := conflictAt_eq_true_iff.1 hk
    exact ⟨k, n, hn, hconflict⟩

/-- On a circle the loop never ends. -/
theorem isWriteConflict_of_cyclic [Finite ν] (h : G.CyclicCause err) :
    isWriteConflict fuel G err = none := by
  rw [isWriteConflict_of_not_known h.1]
  exact follow_eq_none (loops_iff.1 (loops_iff_objects.2 h.2)) fuel

/-- **`isWriteConflict` ends unless the causes run in a circle.** -/
theorem terminates_isWriteConflict_iff [Finite ν] :
    Terminates (fun fuel ↦ isWriteConflict fuel G err) ↔ ¬ G.CyclicCause err := by
  constructor
  · exact fun h hcycle ↦ not_terminates (fun _ ↦ isWriteConflict_of_cyclic hcycle) h
  · intro hcycle
    by_cases hrace : G.Race err
    · exact ⟨true, isWriteConflict_of_race hrace⟩
    · exact ⟨false, isWriteConflict_of_not_race hrace hcycle⟩

/-! ### The work lists -/

section

variable [Fintype ν] [DecidableEq ν]

/-- The nodes reachable by `cause` and `meta.cause`. -/
abbrev ErrorGraph.Reaches (G : ErrorGraph ν) (err : Value ν) (n : ν) : Prop :=
  Reachable Value.node G.links err n

/-- A node that says that a slot is taken, by its SQLSTATE or by the name of the constraint. -/
def ErrorGraph.Overlap (G : ErrorGraph ν) (err : Value ν) : Prop :=
  ∃ n, G.Reaches err n ∧ (G n).overlap

omit [Fintype ν] [DecidableEq ν] in
theorem overlap_of_sqlState {n : ErrorNode ν} (h : n.sqlState = some exclusionViolation) :
    n.overlap := by
  rw [ErrorNode.overlap, decide_eq_true h, Bool.true_or]

theorem isOverlapViolation_iff : isOverlapViolation G err ↔ G.Overlap err := by
  rw [isOverlapViolation, List.any_eq_true]
  exact exists_congr fun n ↦ and_congr_left' mem_search_iff

/-! ### The answers -/

/-- What is asked of the classification of an error: it ends, and it ends with the right answer. -/
structure Classifies (G : ErrorGraph ν) (err : Value ν) : Prop where
  decision_ends : Terminates fun fuel ↦ runDecision fuel G err
  request_ends : ∀ route ready, Terminates fun fuel ↦ classifyHttp fuel G err route ready
  excluded : ¬ isCodeCollision G err → ∀ n, G.Reaches err n →
    (G n).sqlState = some exclusionViolation →
    Returns (fun fuel ↦ runDecision fuel G err) (.conflict slotTaken)
  taken : ¬ isCodeCollision G err → G.Overlap err →
    Returns (fun fuel ↦ runDecision fuel G err) (.conflict slotTaken)
  race : ¬ isCodeCollision G err → ¬ G.Overlap err → G.Race err →
    Returns (fun fuel ↦ runDecision fuel G err) (.conflict bookingDecisionRace)
  otherwise : ¬ isCodeCollision G err → ¬ G.Overlap err → ¬ G.Race err →
    Returns (fun fuel ↦ runDecision fuel G err) .rethrown

theorem runDecision_of_overlap (hcode : ¬ isCodeCollision G err) (h : G.Overlap err) :
    runDecision fuel G err = some (.conflict slotTaken) := by
  rw [runDecision, if_neg hcode, if_pos (isOverlapViolation_iff.2 h)]

theorem runDecision_of_not_overlap (hcode : ¬ isCodeCollision G err) (h : ¬ G.Overlap err) :
    runDecision fuel G err = (isWriteConflict fuel G err).map fun race ↦
      if race then .conflict bookingDecisionRace else .rethrown := by
  rw [runDecision, if_neg hcode, if_neg (mt isOverlapViolation_iff.1 h)]
  rfl

omit [Fintype ν] in
theorem classifyHttp_eq (h : err ≠ .undefined) (route : Option JsString) (ready : Bool) :
    ∃ f, ∀ fuel, classifyHttp fuel G err route ready = (isWriteConflict fuel G err).map f :=
  ⟨_, fun _ ↦ if_neg h⟩

/-- A decision ends if it need not ask for a write conflict, or if that question ends. -/
theorem terminates_runDecision_iff : Terminates (fun fuel ↦ runDecision fuel G err) ↔
    isCodeCollision G err ∨ G.Overlap err ∨ ¬ G.CyclicCause err := by
  by_cases hcode : isCodeCollision G err
  · exact iff_of_true ⟨.rethrown, 0, fun _ _ ↦ if_pos hcode⟩ (.inl hcode)
  · by_cases hoverlap : G.Overlap err
    · exact iff_of_true ⟨_, 0, fun _ _ ↦ runDecision_of_overlap hcode hoverlap⟩
        (.inr (.inl hoverlap))
    · simp only [runDecision_of_not_overlap hcode hoverlap]
      constructor
      · refine fun h ↦ .inr (.inr fun hcycle ↦ not_terminates (fun fuel ↦ ?_) h)
        rw [isWriteConflict_of_cyclic hcycle, Option.map_none]
      · intro h
        have hcycle := (h.resolve_left hcode).resolve_left hoverlap
        obtain ⟨b, hb⟩ := terminates_isWriteConflict_iff.2 hcycle
        exact ⟨_, hb.map _⟩

/-- A failed request is classified unless the causes of its error run in a circle. -/
theorem terminates_classifyHttp_iff {route : Option JsString} {ready : Bool} :
    Terminates (fun fuel ↦ classifyHttp fuel G err route ready) ↔ ¬ G.CyclicCause err := by
  by_cases hundefined : err = .undefined
  · subst hundefined
    refine iff_of_true ⟨_, 0, fun _ _ ↦ if_pos rfl⟩ ?_
    rintro ⟨-, i, j, hij, -, hobjects⟩
    obtain ⟨n, hn, -⟩ := hobjects 0 (Nat.zero_lt_of_lt hij)
    exact nomatch hn
  · obtain ⟨f, hf⟩ := classifyHttp_eq (G := G) hundefined route ready
    simp only [hf]
    constructor
    · refine fun h hcycle ↦ not_terminates (fun fuel ↦ ?_) h
      rw [isWriteConflict_of_cyclic hcycle, Option.map_none]
    · intro hcycle
      obtain ⟨b, hb⟩ := terminates_isWriteConflict_iff.2 hcycle
      exact ⟨_, hb.map _⟩

/-- **An error is classified unless its causes run in a circle without a write conflict.** -/
theorem classifies_iff (G : ErrorGraph ν) (err : Value ν) :
    Classifies G err ↔ ¬ G.CyclicCause err := by
  constructor
  · exact fun h ↦ terminates_classifyHttp_iff.1 (h.request_ends none true)
  · intro hcycle
    refine ⟨terminates_runDecision_iff.2 (.inr (.inr hcycle)),
      fun _ _ ↦ terminates_classifyHttp_iff.2 hcycle,
      fun hcode n hn hstate ↦ ⟨0, fun _ _ ↦
        runDecision_of_overlap hcode ⟨n, hn, overlap_of_sqlState hstate⟩⟩,
      fun hcode hoverlap ↦ ⟨0, fun _ _ ↦ runDecision_of_overlap hcode hoverlap⟩,
      fun hcode hoverlap hrace ↦ ?_, fun hcode hoverlap hrace ↦ ?_⟩
    · simp only [runDecision_of_not_overlap hcode hoverlap]
      exact (isWriteConflict_of_race hrace).map _
    · simp only [runDecision_of_not_overlap hcode hoverlap]
      exact (isWriteConflict_of_not_race hrace hcycle).map _

end

/-- Two errors, each the cause of the other. -/
def circle : ErrorGraph Bool := fun n ↦
  ⟨.error, none, none, some (lit "boom"), some (lit "Error"), false, .object (!n), none⟩

/-- Neither a decision nor the classification of a request comes back from the circle. -/
theorem circle_not_classified : ¬ Classifies circle (.object true) ∧
    (∀ fuel, runDecision fuel circle (.object true) = none) ∧
    ∀ fuel route ready, classifyHttp fuel circle (.object true) route ready = none := by
  have hcycle : circle.CyclicCause (.object true) := by
    refine ⟨by decide, 0, 2, by decide, by decide, fun k hk ↦ ?_⟩
    match k, hk with
    | 0, _ => exact ⟨true, rfl, by decide⟩
    | 1, _ => exact ⟨false, rfl, by decide⟩
  have hoverlap : ¬ circle.Overlap (.object true) := by
    rintro ⟨n, -, hn⟩
    cases n <;> exact absurd hn (by decide)
  refine ⟨fun h ↦ terminates_classifyHttp_iff.1 (h.request_ends none true) hcycle,
    fun fuel ↦ ?_, fun fuel route ready ↦ ?_⟩
  · rw [runDecision_of_not_overlap (by decide) hoverlap, isWriteConflict_of_cyclic hcycle]
    rfl
  · have hne : Value.object true ≠ .undefined := fun h ↦ (nomatch h)
    obtain ⟨f, hf⟩ := classifyHttp_eq (G := circle) hne route ready
    rw [hf, isWriteConflict_of_cyclic hcycle]
    rfl

end EasyBook.Errors

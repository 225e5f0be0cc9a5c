import EasyBook.ReadCommitted.Statement

/-!
# Transactions, sessions and their interleavings

A transaction is a tree of statements (`Prog`): each node sends one statement, or reads the clock,
or asks for a fact from outside the modelled tables, and carries on with the answer. A session is
one call of a service (`Session`): what it does outside transactions, the transactions it attempts,
and what it makes of an attempt that failed.

A `World` is the store together with what each session is doing, and `System.step` is the one
transition function. A bulk statement takes two steps, issue and execution, since its candidate
rows come from the snapshot of the first and its locks are those of the second; a statement that is
blocked has no step, so waiting is a matter of the schedule. Everything else is one step: whatever
the schedule, a transaction's statements see each other's effects, the last committed version of
everything else, and nothing of what other transactions have not committed.

The schedule is a list of `Event`s, so a run is the evaluation of a function and a particular
interleaving is checked by computing it.
-/

namespace ReadCommitted

variable {Tab : Type} (Row : Tab → Type) (Err Key : Type) {Ask : Type} (Ans : Ask → Type)

/-! ### Transactions -/

/-- A transaction that returns an `α`. -/
inductive Prog (α : Type) : Type where
  /-- Return. -/
  | ret (a : α)
  /-- Raise an error, which rolls the transaction back. -/
  | throw (e : Err)
  /-- Read the wall clock. -/
  | now (k : ℤ → Prog α)
  /-- Ask for a fact that lives outside the modelled tables. -/
  | ask (q : Ask) (k : Ans q → Prog α)
  /-- A query: read what is visible now. -/
  | select (k : Db Row → Prog α)
  /-- Take an advisory lock, held to the end of the transaction. -/
  | lock (key : Key) (k : Prog α)
  /-- A bulk update or deletion. `ch` is its `WHERE` and `SET` in one: given the snapshot and the
  time the statement was issued, `none` leaves a row alone, `some none` deletes it and
  `some (some r)` makes it `r`. -/
  | modify (τ : Tab) (ch : Db Row → ℤ → Row τ → Option (Option (Row τ)))
      (k : List (Row τ) → Prog α)
  /-- Insert the row built from the time and the fresh key. -/
  | insert (τ : Tab) (new : ℤ → ℕ → Row τ) (k : Row τ → Prog α)

/-- A reading of the clock, with the view at that moment. -/
structure Reading where
  /-- The time. -/
  time : ℤ
  /-- What was visible then. -/
  view : Db Row

/-- How an attempted transaction failed, with what it had seen. -/
structure Failure where
  /-- The error raised. -/
  error : Err
  /-- The last reading of the clock. -/
  clocked : Reading Row
  /-- The views of the session's queries, the last one first. -/
  reads : List (Db Row)
  /-- What was committed by then. -/
  committed : Db Row

/-- One call of a service, with result `Res`. -/
inductive Session (Res : Type) : Type where
  /-- The call is over. -/
  | done (r : Except Err Res)
  /-- Read the wall clock. -/
  | now (k : ℤ → Session Res)
  /-- Ask for a fact that lives outside the modelled tables. -/
  | ask (q : Ask) (k : Ans q → Session Res)
  /-- Attempt a transaction, and carry on with its result or its error. -/
  | attempt (p : Prog Row Err Key Ans Res) (k : Except Err Res → Session Res)

variable {Row Err Key Ans}

namespace Prog

variable {α β : Type}

/-- Run `p`, then what `f` makes of its result. -/
def bind : Prog Row Err Key Ans α → (α → Prog Row Err Key Ans β) → Prog Row Err Key Ans β
  | ret a, f => f a
  | throw e, _ => throw e
  | now k, f => now fun c ↦ (k c).bind f
  | ask q k, f => ask q fun a ↦ (k a).bind f
  | select k, f => select fun d ↦ (k d).bind f
  | lock key k, f => lock key (k.bind f)
  | modify τ ch k, f => modify τ ch fun rows ↦ (k rows).bind f
  | insert τ new k, f => insert τ new fun r ↦ (k r).bind f

theorem bind_assoc {γ : Type} (p : Prog Row Err Key Ans α) (f : α → Prog Row Err Key Ans β)
    (g : β → Prog Row Err Key Ans γ) : (p.bind f).bind g = p.bind fun a ↦ (f a).bind g := by
  induction p with
  | ret a => rfl
  | throw e => rfl
  | now k ih => exact congrArg now (funext ih)
  | ask q k ih => exact congrArg (ask q) (funext ih)
  | select k ih => exact congrArg select (funext ih)
  | lock key k ih => exact congrArg (lock key) ih
  | modify τ ch k ih => exact congrArg (modify τ ch) (funext ih)
  | insert τ new k ih => exact congrArg (insert τ new) (funext ih)

instance : Monad (Prog Row Err Key Ans) where
  pure := ret
  bind := bind

/-- Compute a result from what is visible now. -/
def query (f : Db Row → α) : Prog Row Err Key Ans α := select fun d ↦ ret (f d)

/-- Raise `e` if `c` holds. -/
def refuse (c : Prop) [Decidable c] (e : Err) : Prog Row Err Key Ans Unit :=
  if c then throw e else ret ()

/-- The value, or raise `e`. -/
def require (o : Option α) (e : Err) : Prog Row Err Key Ans α :=
  match o with
  | some a => ret a
  | none => throw e

/-- The value, or raise the error found instead. -/
def ofExcept (x : Except Err α) : Prog Row Err Key Ans α :=
  match x with
  | .ok a => ret a
  | .error e => throw e

/-- The wall clock. -/
def readClock : Prog Row Err Key Ans ℤ := now ret

/-- A fact from outside. -/
def inquire (q : Ask) : Prog Row Err Key Ans (Ans q) := ask q ret

/-- Take an advisory lock. -/
def acquire (key : Key) : Prog Row Err Key Ans Unit := lock key (ret ())

/-- `UPDATE … WHERE … RETURNING`: `ch` gives the new version of a row that matches, from the time
the statement was issued. -/
def update (τ : Tab) (ch : ℤ → Row τ → Option (Row τ)) : Prog Row Err Key Ans (List (Row τ)) :=
  modify τ (fun _ c r ↦ (ch c r).map some) ret

/-- `INSERT … RETURNING`. -/
def create (τ : Tab) (new : ℤ → ℕ → Row τ) : Prog Row Err Key Ans (Row τ) := insert τ new ret

end Prog

namespace Session

variable {Res Res' : Type}

/-- Run a session, then what `f` makes of its result; an error ends both. -/
def bind : Session Row Err Key Ans Res → (Res → Session Row Err Key Ans Res) →
    Session Row Err Key Ans Res
  | done (.ok r), f => f r
  | done (.error e), _ => done (.error e)
  | now k, f => now fun c ↦ (k c).bind f
  | ask q k, f => ask q fun a ↦ (k a).bind f
  | attempt p k, f => attempt p fun r ↦ (k r).bind f

end Session

/-! ### The world -/

variable (Row Err Key Ans) in
/-- A transaction under way. -/
structure Txn (Res : Type) where
  /-- What it has still to do. -/
  prog : Prog Row Err Key Ans Res
  /-- A bulk statement that was issued: its snapshot and the time. -/
  issued : Option (Db Row × ℤ)
  /-- Its last reading of the clock; at first, the time it began. -/
  clocked : Reading Row
  /-- The views of the queries, the last one first; those of the session's earlier transactions
  included. -/
  reads : List (Db Row)
  /-- What its session does afterwards. -/
  after : Except Err Res → Session Row Err Key Ans Res

variable (Row Err Key Ans) in
/-- What a session is doing. Its attempts that failed are remembered. -/
inductive Phase (Res : Type) : Type where
  /-- It has not been called. -/
  | idle
  /-- It is between transactions, or over. -/
  | outside (log : List (Failure Row Err)) (s : Session Row Err Key Ans Res)
  /-- It is in a transaction. -/
  | inside (log : List (Failure Row Err)) (x : Txn Row Err Key Ans Res)

/-- It is in a transaction. -/
def Phase.isInside {Res : Type} : Phase Row Err Key Ans Res → Bool
  | .inside .. => true
  | _ => false

variable (Row Err Key Ans) in
/-- The store, the advisory locks, and what every session is doing and has seen. -/
structure World (Res : Type) where
  /-- The database. -/
  store : Store Row
  /-- The owner of each advisory lock. -/
  locks : Key → Option ℕ
  /-- The sessions. -/
  phase : ℕ → Phase Row Err Key Ans Res
  /-- The views of the queries in the transactions that a session has committed, the last one
  first. -/
  seen : ℕ → List (Db Row)

variable (Ans Err) in
/-- What a schedule may do next. -/
inductive Event (Op : Type) : Type where
  /-- The clock moves on to `c`. -/
  | tick (c : ℤ)
  /-- Session `t` is called with `op`. -/
  | call (t : ℕ) (op : Op)
  /-- Session `t` gets the answer it asked for. -/
  | answer (t : ℕ) (oracle : ∀ q, Ans q)
  /-- Session `t` takes its next step. -/
  | run (t : ℕ)
  /-- Session `t` loses its transaction to a deadlock, a timeout or a broken connection. -/
  | lose (t : ℕ) (e : Err)

/-- The session that takes the step. -/
def Event.session {Op : Type} : Event Err Ans Op → Option ℕ
  | .tick _ => none
  | .call t _ => some t
  | .answer t _ => some t
  | .run t => some t
  | .lose t _ => some t

/-- A database and the service that runs on it. -/
structure System (Row : Tab → Type) (Err Key : Type) (Ans : Ask → Type) (Res Op : Type) where
  /-- Triggers and constraints. -/
  schema : Schema Row Err
  /-- What a call does. -/
  service : Op → Session Row Err Key Ans Res
  /-- The errors by which a transaction is lost through no statement of its own. -/
  loses : Err → Bool

variable {Res Op : Type}

namespace World

/-- Nothing was written and nobody was called. -/
def init : World Row Err Key Ans Res := ⟨Store.init Row, fun _ ↦ none, fun _ ↦ .idle, fun _ ↦ []⟩

/-- The result with which the transaction of `t` is about to commit, and the views of the queries
of its session. -/
def returning (w : World Row Err Key Ans Res) (t : ℕ) : Option (Res × List (Db Row)) :=
  match w.phase t with
  | .inside _ x =>
    match x.prog, x.issued with
    | .ret r, none => some (r, x.reads)
    | _, _ => none
  | _ => none

/-- The failed attempts of session `t`, the first one first. -/
def failures (w : World Row Err Key Ans Res) (t : ℕ) : List (Failure Row Err) :=
  match w.phase t with
  | .idle => []
  | .outside log _ => log
  | .inside log _ => log

/-- The result of session `t`, if it is over. -/
def result (w : World Row Err Key Ans Res) (t : ℕ) : Option (Except Err Res) :=
  match w.phase t with
  | .outside _ (.done r) => some r
  | _ => none

/-- Session `t` is now doing `p`. -/
def setPhase (w : World Row Err Key Ans Res) (t : ℕ) (p : Phase Row Err Key Ans Res) :
    World Row Err Key Ans Res :=
  { w with phase := Function.update w.phase t p }

/-- Session `t` drops its advisory locks. -/
def release (w : World Row Err Key Ans Res) (t : ℕ) : World Row Err Key Ans Res :=
  { w with locks := fun k ↦ if w.locks k = some t then none else w.locks k }

/-- The transaction of `t` commits with result `r`. -/
def commit (w : World Row Err Key Ans Res) (t : ℕ) (log : List (Failure Row Err))
    (x : Txn Row Err Key Ans Res) (r : Res) : World Row Err Key Ans Res :=
  ({ w with
      store := w.store.commit t
      seen := Function.update w.seen t x.reads }.release t).setPhase t
    (.outside log (x.after (.ok r)))

/-- The transaction of `t` is rolled back with error `e`. -/
def rollback (w : World Row Err Key Ans Res) (t : ℕ) (log : List (Failure Row Err))
    (x : Txn Row Err Key Ans Res) (e : Err) : World Row Err Key Ans Res :=
  ({ w with store := w.store.abort t }.release t).setPhase t <|
    .outside (log ++ [Failure.mk e x.clocked x.reads w.store.committed]) (x.after (.error e))

end World

variable [DecidableEq Tab] [DecidableEq Key]

namespace System

variable (sys : System Row Err Key Ans Res Op)

/-- The next step of a transaction of `t`. -/
def advance (w : World Row Err Key Ans Res) (t : ℕ) (log : List (Failure Row Err))
    (x : Txn Row Err Key Ans Res) : Option (World Row Err Key Ans Res) :=
  match x.prog with
  | .ret r => some (w.commit t log x r)
  | .throw e => some (w.rollback t log x e)
  | .now k =>
    some <| w.setPhase t <| .inside log
      { x with prog := k w.store.clock, clocked := ⟨w.store.clock, w.store.view (some t)⟩ }
  -- A transaction that asks goes on with `answer` only.
  | .ask _ _ => none
  | .select k =>
    some <| w.setPhase t <| .inside log
      { x with
        prog := k (w.store.view (some t)), reads := w.store.view (some t) :: x.reads }
  | .lock key k =>
    -- A lock of another transaction's makes it wait: the event cannot happen now.
    if w.locks key = none ∨ w.locks key = some t then
      some <| { w with locks := Function.update w.locks key (some t) }.setPhase t <|
        .inside log { x with prog := k }
    else none
  | .modify τ ch k =>
    match x.issued with
    -- The statement takes its snapshot first, and writes in a later step.
    | none =>
      some <| w.setPhase t <| .inside log
        { x with issued := some (w.store.view (some t), w.store.clock) }
    | some (snapshot, c) =>
      match w.store.modify sys.schema t τ snapshot (ch snapshot c) with
      -- A row of another open transaction is in the way, and the statement waits for its end.
      | .blocked => none
      | .failed e => some (w.rollback t log x e)
      | .done (rows, σ) =>
        some <| { w with store := σ }.setPhase t <| .inside log
          { x with prog := k rows, issued := none }
  | .insert τ new k =>
    match w.store.insert sys.schema t τ (new w.store.clock w.store.next) with
    | .blocked => none
    | .failed e => some (w.rollback t log x e)
    | .done (r, σ) =>
      some <| { w with store := σ }.setPhase t <| .inside log { x with prog := k r }

/-- The transition function; `none` where the event cannot happen now. -/
def step (e : Event Err Ans Op) (w : World Row Err Key Ans Res) :
    Option (World Row Err Key Ans Res) :=
  match e with
  | .tick c => if w.store.clock ≤ c then some { w with store := w.store.tick c } else none
  | .call t op =>
    match w.phase t with
    | .idle => some (w.setPhase t (.outside [] (sys.service op)))
    | _ => none
  | .answer t oracle =>
    match w.phase t with
    | .outside log (.ask q k) => some (w.setPhase t (.outside log (k (oracle q))))
    | .inside log x =>
      match x.prog with
      | .ask q k => some (w.setPhase t (.inside log { x with prog := k (oracle q) }))
      | _ => none
    | _ => none
  | .run t =>
    match w.phase t with
    | .outside log (.now k) => some (w.setPhase t (.outside log (k w.store.clock)))
    | .outside log (.attempt p k) =>
      some <| w.setPhase t <| .inside log
        -- A transaction begins with the clock and the view of this moment.
        ⟨p, none, ⟨w.store.clock, w.store.view (some t)⟩, w.seen t, k⟩
    | .inside log x => sys.advance w t log x
    | _ => none
  | .lose t e =>
    match w.phase t with
    | .inside log x => if sys.loses e then some (w.rollback t log x e) else none
    | _ => none

/-- A whole schedule. -/
def exec : List (Event Err Ans Op) → World Row Err Key Ans Res →
    Option (World Row Err Key Ans Res)
  | [], w => some w
  | e :: es, w => (sys.step e w).bind (exec es)

/-- A whole schedule, as long as its steps meet `allow`. -/
def execUnder (allow : World Row Err Key Ans Res → Event Err Ans Op → Prop)
    [∀ w e, Decidable (allow w e)] : List (Event Err Ans Op) → World Row Err Key Ans Res →
    Option (World Row Err Key Ans Res)
  | [], w => some w
  | e :: es, w => if allow w e then (sys.step e w).bind (execUnder allow es) else none

/-- The worlds reached by runs all of whose steps meet `allow`. -/
inductive Reach (allow : World Row Err Key Ans Res → Event Err Ans Op → Prop) :
    World Row Err Key Ans Res → Prop
  | init : Reach allow World.init
  | step {w w' e} : Reach allow w → allow w e → sys.step e w = some w' → Reach allow w'

/-- The worlds reached by any interleaving whatsoever. -/
abbrev Reachable : World Row Err Key Ans Res → Prop := sys.Reach fun _ _ ↦ True

variable {sys}

theorem Reach.mono {allow allow' : World Row Err Key Ans Res → Event Err Ans Op → Prop}
    (h : ∀ w e, allow w e → allow' w e) {w : World Row Err Key Ans Res}
    (hw : sys.Reach allow w) : sys.Reach allow' w := by
  induction hw with
  | init => exact .init
  | step _ ha hs ih => exact .step ih (h _ _ ha) hs

theorem Reach.execUnder {allow : World Row Err Key Ans Res → Event Err Ans Op → Prop}
    [∀ w e, Decidable (allow w e)] {es : List (Event Err Ans Op)} {w w' : World Row Err Key Ans Res}
    (hw : sys.Reach allow w) (h : sys.execUnder allow es w = some w') : sys.Reach allow w' := by
  induction es generalizing w with
  | nil =>
    obtain rfl := Option.some.inj h
    exact hw
  | cons e es ih =>
    unfold System.execUnder at h
    split at h
    · next ha =>
      obtain ⟨w₁, hs, hes⟩ := Option.bind_eq_some_iff.1 h
      exact ih (.step hw ha hs) hes
    · cases h

theorem Reachable.exec {es : List (Event Err Ans Op)} {w w' : World Row Err Key Ans Res}
    (hw : sys.Reachable w) (h : sys.exec es w = some w') : sys.Reachable w' := by
  induction es generalizing w with
  | nil =>
    obtain rfl := Option.some.inj h
    exact hw
  | cons e es ih =>
    obtain ⟨w₁, hs, hes⟩ := Option.bind_eq_some_iff.1 h
    exact ih (.step hw trivial hs) hes

end System

end ReadCommitted

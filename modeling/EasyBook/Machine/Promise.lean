import Mathlib

/-!
# Promises and their jobs

A promise is pending, with the reactions that wait for it, or settled. Settling it puts a job into
the queue for each reaction, and a reaction to a settled promise is a job at once. A promise that is
resolved with another one adopts it by a job of its own, which waits for the other with `resolve`.

Promises have names; `κ` are the handlers that a program passes to `then`, and a program says itself
what they do.
-/

namespace EasyBook.Machine

variable {π κ ν : Type}

/-- How a promise is settled. -/
inductive Settlement (ν : Type) where
  | fulfilled (value : ν)
  | rejected (reason : ν)
  deriving DecidableEq

/-- What waits for a promise. -/
inductive Reaction (π κ : Type) where
  /-- A handler; the promise that `then` has returned gets what the handler does. -/
  | handle (handler : κ) (derived : π)
  /-- The resolving functions of a promise. -/
  | resolve (target : π)
  deriving DecidableEq

/-- A promise. -/
inductive Cell (π κ ν : Type) where
  | pending (reactions : List (Reaction π κ))
  | settled (how : Settlement ν)
  deriving DecidableEq

/-- A job of the queue. -/
inductive Job (π κ ν : Type) where
  | react (reaction : Reaction π κ) (how : Settlement ν)
  | adopt (source target : π)
  deriving DecidableEq

/-- The promises and the queue. -/
@[ext]
structure Heap (π κ ν : Type) where
  cell : π → Cell π κ ν
  jobs : List (Job π κ ν)

/-- What a promise is resolved with. -/
inductive Completion (π ν : Type) where
  | promise (source : π)
  | thrown (reason : ν)

variable [DecidableEq π]

namespace Heap

/-- A promise gets a new content. -/
def set (h : Heap π κ ν) (p : π) (c : Cell π κ ν) : Heap π κ ν :=
  { h with cell := Function.update h.cell p c }

/-- `PerformPromiseThen`. -/
def performThen (h : Heap π κ ν) (p : π) (r : Reaction π κ) : Heap π κ ν :=
  match h.cell p with
  | .pending rs => h.set p (.pending (rs ++ [r]))
  | .settled how => { h with jobs := h.jobs ++ [.react r how] }

/-- `FulfillPromise` and `RejectPromise`. -/
def settle (h : Heap π κ ν) (p : π) (how : Settlement ν) : Heap π κ ν :=
  match h.cell p with
  | .pending rs => { h.set p (.settled how) with jobs := h.jobs ++ rs.map (.react · how) }
  | .settled _ => h

/-- The resolving functions of a promise. -/
def complete (h : Heap π κ ν) (p : π) : Completion π ν → Heap π κ ν
  | .promise source => { h with jobs := h.jobs ++ [.adopt source p] }
  | .thrown reason => h.settle p (.rejected reason)

variable {h : Heap π κ ν} {p : π} {r : Reaction π κ} {rs : List (Reaction π κ)}
  {how : Settlement ν}

theorem performThen_of_pending (hp : h.cell p = .pending rs) :
    h.performThen p r = h.set p (.pending (rs ++ [r])) := by
  rw [performThen, hp]

theorem performThen_of_settled (hp : h.cell p = .settled how) :
    h.performThen p r = { h with jobs := h.jobs ++ [.react r how] } := by
  rw [performThen, hp]

theorem cell_performThen_of_ne {q : π} (hq : q ≠ p) :
    (h.performThen p r).cell q = h.cell q := by
  cases hp : h.cell p with
  | pending rs =>
    rw [performThen_of_pending hp]
    exact Function.update_of_ne hq _ _
  | settled how => rw [performThen_of_settled hp]

theorem settle_of_pending (hp : h.cell p = .pending rs) :
    h.settle p how = { h.set p (.settled how) with jobs := h.jobs ++ rs.map (.react · how) } := by
  rw [settle, hp]

theorem settle_of_settled {how' : Settlement ν} (hp : h.cell p = .settled how') :
    h.settle p how = h := by
  rw [settle, hp]

end Heap

end EasyBook.Machine

import EasyBook.ReadCommitted.Rowwise

/-!
# Which session is called with what

An operation is known to a session, but not to the store. A result that speaks of what the sessions
were called with fixes a table `calls` beforehand and asks of a run that its steps call nobody with
anything else (`Event.CalledAs`). Every schedule in which nobody is called twice has such a table
(`calledAs_callsIn`).
-/

namespace ReadCommitted

variable {Tab : Type} {Row : Tab → Type} {Err Key : Type} {Ask : Type} {Ans : Ask → Type}
  {Res Op : Type}

namespace Event

/-- The step calls a session with what `calls` has for it, if it is a call. -/
def CalledAs (calls : ℕ → Op) : Event Err Ans Op → Prop
  | .call t op => op = calls t
  | _ => True

instance [DecidableEq Op] (calls : ℕ → Op) (e : Event Err Ans Op) :
    Decidable (e.CalledAs calls) := by
  unfold CalledAs
  induction e using Event.casesOn <;> infer_instance

/-- The session that a step calls. -/
def caller : Event Err Ans Op → Option ℕ
  | .call t _ => some t
  | _ => none

/-- What a step calls session `t` with. -/
def called (t : ℕ) : Event Err Ans Op → Option Op
  | .call u op => if u = t then some op else none
  | _ => none

end Event

/-- What the sessions of a schedule are called with; `other` is for those that are not called. -/
def callsIn (other : Op) (es : List (Event Err Ans Op)) (t : ℕ) : Op :=
  (es.findSome? (Event.called t)).getD other

/-- Whoever is not called has the other call. -/
theorem callsIn_of_not_mem {other : Op} {es : List (Event Err Ans Op)} {t : ℕ}
    (ht : t ∉ es.filterMap Event.caller) : callsIn other es t = other := by
  have hnone : es.findSome? (Event.called t) = none := by
    refine List.findSome?_eq_none_iff.2 fun e he ↦ ?_
    cases e with
    | call u op =>
      have hu : u ≠ t := fun hu ↦ ht (hu ▸ List.mem_filterMap.2 ⟨_, he, rfl⟩)
      exact if_neg hu
    | _ => rfl
  rw [callsIn, hnone, Option.getD_none]

/-- No session is called twice, so each is called with what the schedule has for it. -/
theorem calledAs_callsIn {other : Op} {es : List (Event Err Ans Op)}
    (hes : (es.filterMap Event.caller).Nodup) : ∀ e ∈ es, e.CalledAs (callsIn other es) := by
  intro e he
  cases e with
  | call t op =>
    show op = callsIn other es t
    rw [callsIn]
    induction es with
    | nil => cases he
    | cons e es ih =>
      rw [List.findSome?_cons]
      rcases List.mem_cons.1 he with rfl | hlater
      · simp [Event.called]
      · have hmem : t ∈ es.filterMap Event.caller := List.mem_filterMap.2 ⟨_, hlater, rfl⟩
        cases e with
        | call u op' =>
          obtain ⟨hu, hes⟩ := List.nodup_cons.1
            (show (u :: es.filterMap Event.caller).Nodup from hes)
          have hne : u ≠ t := fun h ↦ hu (h ▸ hmem)
          simpa [Event.called, hne] using ih hes hlater
        | _ => exact ih hes hlater
  | _ => trivial

namespace System

variable [DecidableEq Tab] [DecidableEq Key] (sys : System Row Err Key Ans Res Op)

/-- The runs whose sessions are called as `calls` says. -/
abbrev ReachAs (calls : ℕ → Op) : World Row Err Key Ans Res → Prop :=
  sys.Reach fun _ e ↦ e.CalledAs calls

/-- Such a run, with what `obs` notes down of its steps. -/
abbrev TraceAs {α : Type} (calls : ℕ → Op)
    (obs : World Row Err Key Ans Res → Event Err Ans Op → List α) :
    World Row Err Key Ans Res → List α → World Row Err Key Ans Res → Prop :=
  sys.Trace (fun _ e ↦ e.CalledAs calls) obs

variable {sys}

/-- A schedule that can be run, from the start. -/
theorem traceAs_of_exec {α : Type} (other : Op)
    (obs : World Row Err Key Ans Res → Event Err Ans Op → List α) {es : List (Event Err Ans Op)}
    {w : World Row Err Key Ans Res} (hcalls : (es.filterMap Event.caller).Nodup)
    (hes : sys.exec es World.init = some w) :
    sys.TraceAs (callsIn other es) obs World.init (sys.observe obs es World.init []) w :=
  .exec .refl (fun _ ↦ calledAs_callsIn hcalls) hes

end System

end ReadCommitted

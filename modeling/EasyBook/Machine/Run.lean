import Mathlib

/-!
# Serial runs of a machine

A machine takes one event at a time. `Along` says something of every event of a run, `Always` of
every state, and `WhileHolds` of the states up to the first at which a condition is lost. They are
proved from one step: `Along.of_each`, `WhileHolds.of_step`.
-/

namespace EasyBook.Machine

variable {σ ε : Type*} {step : σ → ε → σ}

/-- `P` holds of every event of the run, of the state it meets and the events that follow it. -/
def Along (step : σ → ε → σ) (P : σ → ε → List ε → Prop) : σ → List ε → Prop
  | _, [] => True
  | s, e :: es => P s e es ∧ Along step P (step s e) es

/-- `C` holds of every event of the run and the state it meets. -/
abbrev Each (step : σ → ε → σ) (C : σ → ε → Prop) : σ → List ε → Prop :=
  Along step fun s e _ ↦ C s e

/-- `Q` holds of every state of the run. -/
def Always (step : σ → ε → σ) (Q : σ → Prop) : σ → List ε → Prop
  | s, [] => Q s
  | s, e :: es => Q s ∧ Always step Q (step s e) es

/-- `Q` holds of every state of the run up to the first of which `H` does not hold. -/
def WhileHolds (step : σ → ε → σ) (H Q : σ → Prop) : σ → List ε → Prop
  | s, [] => H s → Q s
  | s, e :: es => H s → Q s ∧ WhileHolds step H Q (step s e) es

variable {s : σ} {es : List ε}

/-- The last event of a run meets the condition. -/
theorem Each.last {C : σ → ε → Prop} {e : ε} (h : Each step C s (es ++ [e])) :
    C (es.foldl step s) e := by
  induction es generalizing s with
  | nil => exact h.1
  | cons e' es ih => exact ih h.2

theorem Along.and {P R : σ → ε → List ε → Prop} (hP : Along step P s es)
    (hR : Along step R s es) : Along step (fun s e es ↦ P s e es ∧ R s e es) s es := by
  induction es generalizing s with
  | nil => trivial
  | cons e es ih => exact ⟨⟨hP.1, hR.1⟩, ih hP.2 hR.2⟩

/-- What a step that meets `C` establishes of itself and of the events after it. -/
theorem Along.of_each {P : σ → ε → List ε → Prop} {C : σ → ε → Prop}
    (h : ∀ s e es, C s e → Each step C (step s e) es → P s e es) (hC : Each step C s es) :
    Along step P s es := by
  induction es generalizing s with
  | nil => trivial
  | cons e es ih => exact ⟨h s e es hC.1 hC.2, ih hC.2⟩

/-- What holds at first and is kept by an event that meets `C` holds as long as `H` does. -/
theorem WhileHolds.of_step {H Q : σ → Prop} {C : σ → ε → Prop}
    (h : ∀ s e, H s → Q s → C s e → H (step s e) → Q (step s e)) (hs : H s → Q s)
    (hC : Each step C s es) : WhileHolds step H Q s es := by
  induction es generalizing s with
  | nil => exact hs
  | cons e es ih =>
    exact fun hH ↦ ⟨hs hH, ih (fun hH' ↦ h s e hH (hs hH) hC.1 hH') hC.2⟩

end EasyBook.Machine

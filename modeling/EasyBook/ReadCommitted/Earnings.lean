import EasyBook.ReadCommitted.Rowwise

/-!
# What a session has committed when it ends well

A contract says what a transaction has written when it commits. That a call which *ends* ok has
committed anything is a fact about its session: no other way leads to such an end. `Session.Earns P`
says so, path by path, and `Trace.earned` finds the commit in a run.
-/

namespace ReadCommitted

variable {Tab : Type} {Row : Tab → Type} {Err Key : Type} {Ask : Type} {Ans : Ask → Type}
  {Res Op : Type} {α β : Type}

namespace Prog

/-- Whatever the transaction reads and is answered, what it returns meets `Q`. -/
def Returns (Q : α → Prop) : Prog Row Err Key Ans α → Prop
  | ret a => Q a
  | throw _ => True
  | now k => ∀ c, (k c).Returns Q
  | ask _ k => ∀ a, (k a).Returns Q
  | select k => ∀ d, (k d).Returns Q
  | lock _ k => k.Returns Q
  | modify _ _ k => ∀ rows, (k rows).Returns Q
  | insert _ _ k => ∀ r, (k r).Returns Q

/-- A program that returns at once. -/
theorem returns_pure {Q : α → Prop} {a : α} (h : Q a) :
    (pure a : Prog Row Err Key Ans α).Returns Q := h

/-- What the last step of a transaction makes of anything, the transaction returns. -/
theorem Returns.bind {Q : β → Prop} {f : α → Prog Row Err Key Ans β} (hf : ∀ a, (f a).Returns Q)
    (p : Prog Row Err Key Ans α) : (p >>= f).Returns Q := by
  change (p.bind f).Returns Q
  induction p with
  | ret a => exact hf a
  | throw e => trivial
  | now k ih => exact fun c ↦ ih c
  | ask q k ih => exact fun a ↦ ih a
  | select k ih => exact fun d ↦ ih d
  | lock key k ih => exact ih
  | modify τ ch k ih => exact fun rows ↦ ih rows
  | insert τ new k ih => exact fun r ↦ ih r

/-- A weaker demand on what is returned. -/
theorem Returns.mono {Q Q' : α → Prop} (h : ∀ a, Q a → Q' a) {p : Prog Row Err Key Ans α}
    (hp : p.Returns Q) : p.Returns Q' := by
  induction p with
  | ret a => exact h a hp
  | throw e => trivial
  | now k ih => exact fun c ↦ ih c (hp c)
  | ask q k ih => exact fun a ↦ ih a (hp a)
  | select k ih => exact fun d ↦ ih d (hp d)
  | lock key k ih => exact ih hp
  | modify τ ch k ih => exact fun rows ↦ ih rows (hp rows)
  | insert τ new k ih => exact fun r ↦ ih r (hp r)

end Prog

/-- The session ends ok only after one of its transactions has returned a result of `P`. -/
def Session.Earns (P : Res → Prop) : Session Row Err Key Ans Res → Prop
  | .done r => ∀ a, r ≠ .ok a
  | .now k => ∀ c, (k c).Earns P
  | .ask _ k => ∀ a, (k a).Earns P
  | .attempt p k => p.Returns (fun a ↦ P a ∨ (k (.ok a)).Earns P) ∧ ∀ e, (k (.error e)).Earns P

/-- What is left of a session still earns its end. -/
def Phase.Earns (P : Res → Prop) : Phase Row Err Key Ans Res → Prop
  | .idle => True
  | .outside _ s => s.Earns P
  | .inside _ x =>
    x.prog.Returns (fun a ↦ P a ∨ (x.after (.ok a)).Earns P) ∧ ∀ e, (x.after (.error e)).Earns P

variable [DecidableEq Tab] [DecidableEq Key] {sys : System Row Err Key Ans Res Op}
  {C : Contract Row Err Res} {Post : List (Failure Row Err) → Except Err Res → Prop}
  {w w' : World Row Err Key Ans Res} {e : Event Err Ans Op} {t u : ℕ} {P : Res → Prop}

omit [DecidableEq Tab] [DecidableEq Key] in
/-- A call whose phase is not touched still earns its answer. -/
private theorem earns_setPhase {p : Phase Row Err Key Ans Res} (ht : (w.phase t).Earns P)
    (hphase : w'.phase = w.phase) (hp : u = t → p.Earns P) :
    ((w'.setPhase u p).phase t).Earns P := by
  change (Function.update w'.phase u p t).Earns P
  by_cases hu : u = t
  · subst hu
    rw [Function.update_self]
    exact hp rfl
  · rw [Function.update_of_ne (Ne.symm hu), hphase]
    exact ht

omit [DecidableEq Tab] [DecidableEq Key] in
/-- So does every call after a rollback. -/
private theorem earns_rollback {log : List (Failure Row Err)} {x : Txn Row Err Key Ans Res}
    {f : Err} (ht : (w.phase t).Earns P) (hp : u = t → (Phase.inside log x).Earns P) :
    ((w.rollback u log x f).phase t).Earns P := by
  unfold World.rollback
  exact earns_setPhase ht rfl fun hu ↦ (hp hu).2 f

/-- A statement either ends its transaction with what is demanded, or leaves that still to be
earned. -/
private theorem earns_advance {log : List (Failure Row Err)} {x : Txn Row Err Key Ans Res}
    (hw : Healthy sys C Post w) (ht : (w.phase t).Earns P) (hp : w.phase u = .inside log x)
    (hs : sys.advance w u log x = some w') :
    (u = t ∧ ∃ a reads, w.returning t = some (a, reads) ∧ P a) ∨ (w'.phase t).Earns P := by
  have hx : u = t → (Phase.inside log x).Earns P := fun hu ↦ by
    subst hu
    exact hp ▸ ht
  have hholds := hw.holds u
  rw [hp] at hholds
  obtain ⟨F, G, hholds, _⟩ := hholds
  obtain ⟨prog, issued, clocked, reads, after⟩ := x
  unfold System.advance at hs
  -- Only a return can end the transaction; every other statement leaves what is demanded to its
  -- rest.
  cases prog with
  | ret r =>
    obtain rfl := Option.some.inj hs
    by_cases hearned : u = t ∧ P r
    · -- a transaction that returns has no statement under way
      cases issued with
      | none =>
        obtain ⟨rfl, hP⟩ := hearned
        exact .inl ⟨rfl, r, reads, by rw [World.returning, hp], hP⟩
      | some i => exact hholds.elim
    · refine .inr ?_
      unfold World.commit
      refine earns_setPhase ht ?_ fun hu ↦ ?_
      · rfl
      · exact (hx hu).1.resolve_left fun hP ↦ hearned ⟨hu, hP⟩
  | throw f => exact .inr (Option.some.inj hs ▸ earns_rollback ht hx)
  | now k =>
    obtain rfl := Option.some.inj hs
    exact .inr (earns_setPhase ht rfl fun hu ↦ ⟨(hx hu).1 _, (hx hu).2⟩)
  | ask q k => cases hs
  | select k =>
    obtain rfl := Option.some.inj hs
    exact .inr (earns_setPhase ht rfl fun hu ↦ ⟨(hx hu).1 _, (hx hu).2⟩)
  | lock key k =>
    dsimp only at hs
    split at hs
    · obtain rfl := Option.some.inj hs
      exact .inr (earns_setPhase ht rfl fun hu ↦ ⟨(hx hu).1, (hx hu).2⟩)
    · cases hs
  | modify τ ch k =>
    cases issued with
    | none =>
      obtain rfl := Option.some.inj hs
      exact .inr (earns_setPhase ht rfl fun hu ↦ ⟨(hx hu).1, (hx hu).2⟩)
    | some i =>
      dsimp only at hs
      split at hs
      · cases hs
      · exact .inr (Option.some.inj hs ▸ earns_rollback ht hx)
      · obtain rfl := Option.some.inj hs
        exact .inr (earns_setPhase ht rfl fun hu ↦ ⟨(hx hu).1 _, (hx hu).2⟩)
  | insert τ new k =>
    dsimp only at hs
    split at hs
    · cases hs
    · exact .inr (Option.some.inj hs ▸ earns_rollback ht hx)
    · obtain rfl := Option.some.inj hs
      exact .inr (earns_setPhase ht rfl fun hu ↦ ⟨(hx hu).1 _, (hx hu).2⟩)

/-- A step leaves a session its end to earn, or commits what it earns it with. -/
theorem System.earns_step (hw : Healthy sys C Post w) (ht : (w.phase t).Earns P)
    (hserv : ∀ op, e = .call t op → (sys.service op).Earns P) (hs : sys.step e w = some w') :
    (e = .run t ∧ ∃ a reads, w.returning t = some (a, reads) ∧ P a) ∨ (w'.phase t).Earns P := by
  have hphase : ∀ {u p}, w.phase u = p → u = t → p.Earns P := fun h hu ↦ by
    subst hu
    exact h ▸ ht
  cases e with
  | tick c =>
    simp only [System.step] at hs
    split at hs
    · exact .inr (Option.some.inj hs ▸ ht)
    · cases hs
  | call u op =>
    simp only [System.step] at hs
    split at hs
    · exact .inr (Option.some.inj hs ▸ earns_setPhase ht rfl fun hu ↦ hserv op (by rw [hu]))
    · cases hs
  | answer u oracle =>
    simp only [System.step] at hs
    split at hs
    · next hp =>
      exact .inr (Option.some.inj hs ▸ earns_setPhase ht rfl fun hu ↦ hphase hp hu _)
    · next log x hp =>
      have hx := hphase hp
      split at hs
      · next q k hq =>
        obtain rfl := Option.some.inj hs
        refine .inr (earns_setPhase ht rfl fun hu ↦ ?_)
        obtain ⟨hprog, herr⟩ := hx hu
        rw [hq] at hprog
        exact ⟨hprog _, herr⟩
      · cases hs
    · cases hs
  | run u =>
    simp only [System.step] at hs
    split at hs
    · next hp =>
      exact .inr (Option.some.inj hs ▸ earns_setPhase ht rfl fun hu ↦ hphase hp hu _)
    · next hp =>
      obtain rfl := Option.some.inj hs
      exact .inr (earns_setPhase ht rfl fun hu ↦ ⟨(hphase hp hu).1, (hphase hp hu).2⟩)
    · next hp =>
      rcases earns_advance hw ht hp hs with ⟨rfl, h⟩ | h
      · exact .inl ⟨rfl, h⟩
      · exact .inr h
    · cases hs
  | lose u f =>
    simp only [System.step] at hs
    split at hs
    · next hp =>
      split at hs
      · exact .inr (Option.some.inj hs ▸ earns_rollback ht (hphase hp))
      · cases hs
    · cases hs

/-- **What a call that ended ok has committed.** A session that was called in the run and ended ok
has committed a result of `P`, and what is noted down of that commit is in the log. -/
theorem System.Trace.earned {γ : Type}
    {allow : World Row Err Key Ans Res → Event Err Ans Op → Prop}
    {obs : World Row Err Key Ans Res → Event Err Ans Op → List γ}
    {w₀ : World Row Err Key Ans Res} {log : List γ} {r : Res}
    (hw : ∀ w, sys.Reach allow w → Healthy sys C Post w) (h₀ : sys.Reach allow w₀)
    (h : sys.Trace allow obs w₀ log w) (hidle : w₀.phase t = .idle)
    (hserv : ∀ w op, allow w (.call t op) → (sys.service op).Earns P)
    (hr : w.result t = some (.ok r)) :
    ∃ w₁ a reads, Healthy sys C Post w₁ ∧ w₁.returning t = some (a, reads) ∧ P a ∧
      ∀ x ∈ obs w₁ (.run t), x ∈ log := by
  suffices hmain : (w.phase t).Earns P ∨ ∃ w₁ a reads, Healthy sys C Post w₁ ∧
      w₁.returning t = some (a, reads) ∧ P a ∧ ∀ x ∈ obs w₁ (.run t), x ∈ log by
    refine hmain.resolve_left fun hp ↦ ?_
    unfold World.result at hr
    split at hr
    · next hphase =>
      obtain rfl := Option.some.inj hr
      rw [hphase] at hp
      exact hp r rfl
    · cases hr
  clear hr
  induction h with
  | refl => exact .inl (by rw [hidle]; trivial)
  | @step log w w' e h ha hs ih =>
    rcases ih with hp | ⟨w₁, a, reads, hw₁, hret, hPa, hlog⟩
    · have hhealthy := hw w (h.reach h₀)
      rcases System.earns_step hhealthy hp (fun op he ↦ hserv w op (he ▸ ha)) hs with
        ⟨rfl, a, reads, hret, hPa⟩ | hp'
      · exact .inr ⟨w, a, reads, hhealthy, hret, hPa, fun x hx ↦ List.mem_append_left _ hx⟩
      · exact .inl hp'
    · exact .inr ⟨w₁, a, reads, hw₁, hret, hPa, fun x hx ↦ List.mem_append_right _ (hlog x hx)⟩

end ReadCommitted

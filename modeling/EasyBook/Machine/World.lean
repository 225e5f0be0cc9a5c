import EasyBook.Machine.Task

/-!
# Interleaved calls

Any number of calls are under way at once (`World`), each with what it has exchanged so far and what
is left of it. A step starts a call, lets one send its next request, or is the environment's own;
`Reach` is what may come about when every step meets a condition.

The rules: `Reach.path` (what a call has exchanged is a path of its task), `Reach.asks` (every
request is one that the task may send), `Reach.invariant`, and `Reach.perm_callsThat` (what holds
of every call holds of the log).
-/

namespace EasyBook.Machine

open EasyBook.Machine.Task

variable {Q : Type} {A : Q → Type} {ρ σ ω : Type}

/-- A call that is under way or over. -/
structure Thread (Q : Type) (A : Q → Type) (ρ ω : Type) where
  op : ω
  history : List (Exchange Q A)
  rest : Task Q A ρ

/-- What happens in a step. -/
inductive Event (Q : Type) (A : Q → Type) (ω : Type) where
  | start (t : ℕ) (op : ω)
  | exchange (t : ℕ) (e : Exchange Q A)
  | environment

/-- The shared state, the calls, and what has happened, the last event first. -/
structure World (σ : Type) (Q : Type) (A : Q → Type) (ρ ω : Type) where
  state : σ
  threads : ℕ → Option (Thread Q A ρ ω)
  log : List (Event Q A ω)

/-- How the calls and the environment act on the state. -/
structure Actions (σ : Type) (Q : Type) (A : Q → Type) (ρ ω : Type) where
  task : ω → Task Q A ρ
  does : σ → (q : Q) → A q → σ → Prop
  env : σ → σ → Prop

variable {M : Actions σ Q A ρ ω} {C : World σ Q A ρ ω → Event Q A ω → Prop}
  {w w' w₀ : World σ Q A ρ ω}

/-- One step. A number is used for one call. -/
inductive Step (M : Actions σ Q A ρ ω) :
    World σ Q A ρ ω → Event Q A ω → World σ Q A ρ ω → Prop where
  | start {w : World σ Q A ρ ω} {t : ℕ} {op : ω} (ht : w.threads t = none) :
      Step M w (.start t op)
        ⟨w.state, Function.update w.threads t (some ⟨op, [], M.task op⟩), .start t op :: w.log⟩
  | exchange {w : World σ Q A ρ ω} {t : ℕ} {op : ω} {h : List (Exchange Q A)} {q : Q}
      {k : A q → Task Q A ρ} {a : A q} {s : σ} (ht : w.threads t = some ⟨op, h, .ask q k⟩)
      (hd : M.does w.state q a s) :
      Step M w (.exchange t ⟨q, a⟩)
        ⟨s, Function.update w.threads t (some ⟨op, h ++ [⟨q, a⟩], k a⟩),
          .exchange t ⟨q, a⟩ :: w.log⟩
  | environment {w : World σ Q A ρ ω} {s : σ} (hs : M.env w.state s) :
      Step M w .environment ⟨s, w.threads, .environment :: w.log⟩

/-- The state before any call. -/
def World.init (s : σ) : World σ Q A ρ ω := ⟨s, fun _ ↦ none, []⟩

/-- What may come about when each step meets `C`. -/
inductive Reach (M : Actions σ Q A ρ ω) (C : World σ Q A ρ ω → Event Q A ω → Prop)
    (w₀ : World σ Q A ρ ω) : World σ Q A ρ ω → Prop where
  | init : Reach M C w₀ w₀
  | step {w w' : World σ Q A ρ ω} {e : Event Q A ω} (hw : Reach M C w₀ w) (hC : C w e)
      (h : Step M w e w') : Reach M C w₀ w'

/-- What holds at first and is kept by every step that meets `C` holds from then on. -/
theorem Reach.invariant {I : World σ Q A ρ ω → Prop} (h₀ : I w₀)
    (step : ∀ w e w', I w → C w e → Step M w e w' → I w') (hw : Reach M C w₀ w) : I w := by
  induction hw with
  | init => exact h₀
  | step _ hC h ih => exact step _ _ _ ih hC h

theorem Reach.imp {C' : World σ Q A ρ ω → Event Q A ω → Prop} (h : ∀ w e, C w e → C' w e)
    (hw : Reach M C w₀ w) : Reach M C' w₀ w := by
  induction hw with
  | init => exact .init
  | step _ hC hs ih => exact .step ih (h _ _ hC) hs

theorem Reach.trans {w₁ w₂ : World σ Q A ρ ω} (hw : Reach M C w₀ w₁) (hw' : Reach M C w₁ w₂) :
    Reach M C w₀ w₂ := by
  induction hw' with
  | init => exact hw
  | step _ hC h ih => exact ih.step hC h

/-- A run with its steps, the last one first. -/
inductive Trace (M : Actions σ Q A ρ ω) (C : World σ Q A ρ ω → Event Q A ω → Prop)
    (w₀ : World σ Q A ρ ω) :
    List (World σ Q A ρ ω × Event Q A ω × World σ Q A ρ ω) → World σ Q A ρ ω → Prop where
  | init : Trace M C w₀ [] w₀
  | step {l : List (World σ Q A ρ ω × Event Q A ω × World σ Q A ρ ω)} {w w' : World σ Q A ρ ω}
      {e : Event Q A ω} (hw : Trace M C w₀ l w) (hC : C w e) (h : Step M w e w') :
      Trace M C w₀ ((w, e, w') :: l) w'

theorem Trace.reach {l : List (World σ Q A ρ ω × Event Q A ω × World σ Q A ρ ω)}
    (hw : Trace M C w₀ l w) : Reach M C w₀ w := by
  induction hw with
  | init => exact .init
  | step _ hC h ih => exact ih.step hC h

theorem Reach.exists_trace (hw : Reach M C w₀ w) : ∃ l, Trace M C w₀ l w := by
  induction hw with
  | init => exact ⟨[], .init⟩
  | step _ hC h ih =>
    obtain ⟨l, hl⟩ := ih
    exact ⟨_, hl.step hC h⟩

/-- Every step of a run is one from a state that may come about. -/
theorem Trace.step_of_mem {l : List (World σ Q A ρ ω × Event Q A ω × World σ Q A ρ ω)}
    (hw : Trace M C w₀ l w) {x : World σ Q A ρ ω × Event Q A ω × World σ Q A ρ ω} (hx : x ∈ l) :
    Reach M C w₀ x.1 ∧ Step M x.1 x.2.1 x.2.2 := by
  induction hw with
  | init => cases hx
  | step hw hC h ih =>
    rcases List.mem_cons.1 hx with rfl | hx
    · exact ⟨hw.reach, h⟩
    · exact ih hx

/-- What holds at first and is kept may be added to the condition of a run. -/
theorem Reach.and {I : World σ Q A ρ ω → Prop} (h₀ : I w₀)
    (step : ∀ w e w', I w → C w e → Step M w e w' → I w') (hw : Reach M C w₀ w) :
    Reach M (fun w e ↦ C w e ∧ I w) w₀ w := by
  induction hw with
  | init => exact .init
  | step hw hC h ih => exact .step ih ⟨hC, hw.invariant h₀ step⟩ h

/-- What a call has exchanged it had exchanged before a step, or has exchanged in it. -/
theorem Step.mem_history {e : Event Q A ω} (h : Step M w e w') {t : ℕ} {th : Thread Q A ρ ω}
    (ht : w'.threads t = some th) {x : Exchange Q A} (hx : x ∈ th.history) :
    (∃ th₀, w.threads t = some th₀ ∧ th₀.op = th.op ∧ x ∈ th₀.history) ∨ e = .exchange t x := by
  cases h with
  | @start t' op ht' =>
    dsimp only at ht
    by_cases he : t = t'
    · subst he
      rw [Function.update_self] at ht
      cases ht
      cases hx
    · rw [Function.update_of_ne he] at ht
      exact .inl ⟨th, ht, rfl, hx⟩
  | @exchange t' op h q k a s ht' hd =>
    dsimp only at ht
    by_cases he : t = t'
    · subst he
      rw [Function.update_self] at ht
      cases ht
      rcases List.mem_append.1 hx with hx | hx
      · exact .inl ⟨_, ht', rfl, hx⟩
      · exact .inr (congrArg _ (List.mem_singleton.1 hx).symm)
    · rw [Function.update_of_ne he] at ht
      exact .inl ⟨th, ht, rfl, hx⟩
  | environment => exact .inl ⟨th, ht, rfl, hx⟩

/-- What a call has exchanged it has exchanged ever after. -/
theorem Reach.keeps_history (hw : Reach M C w w') {t : ℕ} {th : Thread Q A ρ ω}
    (ht : w.threads t = some th) {x : Exchange Q A} (hx : x ∈ th.history) :
    ∃ th', w'.threads t = some th' ∧ th'.op = th.op ∧ x ∈ th'.history := by
  induction hw with
  | init => exact ⟨th, ht, rfl, hx⟩
  | step _ _ h ih =>
    obtain ⟨th', ht', hop, hx'⟩ := ih
    cases h with
    | @start t' op hfree =>
      refine ⟨th', (Function.update_of_ne ?_ ..).trans ht', hop, hx'⟩
      rintro rfl
      rw [hfree] at ht'
      cases ht'
    | @exchange t' op h q k a s ht'' hd =>
      by_cases he : t = t'
      · subst he
        rw [ht''] at ht'
        cases ht'
        exact ⟨_, Function.update_self .., hop, List.mem_append_left _ hx'⟩
      · exact ⟨th', (Function.update_of_ne he ..).trans ht', hop, hx'⟩
    | environment => exact ⟨th', ht', hop, hx'⟩

/-- The call that sends a request is the one that has it as its next; any other is as it was. -/
theorem update_eq_some {α : Type} {f : ℕ → Option α} {t t' : ℕ} {a b : α}
    (h : Function.update f t (some a) t' = some b) : t' = t ∧ b = a ∨ t' ≠ t ∧ f t' = some b := by
  by_cases he : t' = t
  · subst he
    rw [Function.update_self] at h
    exact .inl ⟨rfl, (Option.some.inj h).symm⟩
  · rw [Function.update_of_ne he] at h
    exact .inr ⟨he, h⟩

/-- A call that has started since has been answered since. -/
theorem Reach.answered (hw : Reach M C w w') {t : ℕ} (hfree : w.threads t = none)
    {th : Thread Q A ρ ω} (ht : w'.threads t = some th) {x : Exchange Q A} (hx : x ∈ th.history) :
    ∃ w₁ w₂, Reach M C w w₁ ∧ Step M w₁ (.exchange t x) w₂ ∧ Reach M C w₂ w' := by
  induction hw generalizing th with
  | init =>
    rw [hfree] at ht
    cases ht
  | step hw hC h ih =>
    rcases h.mem_history ht hx with ⟨th₀, ht₀, -, hx₀⟩ | rfl
    · obtain ⟨w₁, w₂, hw₁, hstep, hw₂⟩ := ih ht₀ hx₀
      exact ⟨w₁, w₂, hw₁, hstep, hw₂.step hC h⟩
    · exact ⟨_, _, hw, h, .init⟩

/-- What the tasks of the threads have, and keep as they are answered. -/
theorem Reach.thread {P : ω → List (Exchange Q A) → Task Q A ρ → Prop} {s₀ : σ}
    (start : ∀ op, P op [] (M.task op))
    (exchange : ∀ op h q k a s s', P op h (.ask q k) → M.does s q a s' →
      P op (h ++ [⟨q, a⟩]) (k a)) (hw : Reach M C (.init s₀) w) {t : ℕ} {th : Thread Q A ρ ω}
    (ht : w.threads t = some th) : P th.op th.history th.rest := by
  induction hw generalizing t th with
  | init => cases ht
  | step _ _ h ih =>
    cases h with
    | @start t' op _ =>
      dsimp only at ht
      by_cases he : t = t'
      · subst he
        rw [Function.update_self] at ht
        cases ht
        exact start op
      · rw [Function.update_of_ne he] at ht
        exact ih ht
    | @exchange t' op h q k a s ht' hd =>
      dsimp only at ht
      by_cases he : t = t'
      · subst he
        rw [Function.update_self] at ht
        cases ht
        exact exchange op h q k a _ s (ih ht') hd
      · rw [Function.update_of_ne he] at ht
        exact ih ht
    | environment => exact ih ht

/-- What a call has exchanged is a path of its task. -/
theorem Reach.path {s₀ : σ} (hw : Reach M C (.init s₀) w) {t : ℕ} {th : Thread Q A ρ ω}
    (ht : w.threads t = some th) : Path (M.task th.op) th.history th.rest :=
  hw.thread (P := fun op h p ↦ Path (M.task op) h p) (fun _ ↦ .nil _)
    (fun _ _ _ _ a _ _ hp _ ↦ hp.snoc a) ht

/-! ### The log -/

/-- What a call has exchanged, as the log has it. -/
def exchangesOf (t : ℕ) : List (Event Q A ω) → List (Exchange Q A)
  | [] => []
  | .exchange u e :: log => if u = t then exchangesOf t log ++ [e] else exchangesOf t log
  | _ :: log => exchangesOf t log

/-- The log has what the calls have exchanged. -/
theorem Reach.exchangesOf {s₀ : σ} (hw : Reach M C (.init s₀) w) (t : ℕ) :
    exchangesOf t w.log = ((w.threads t).map (·.history)).getD [] := by
  induction hw with
  | init => rfl
  | @step w _ _ _ _ h ih =>
    cases h with
    | @start t' op ht' =>
      change Machine.exchangesOf t w.log = ((Function.update w.threads t' _ t).map _).getD []
      by_cases he : t = t'
      · subst he
        rw [ih, ht', Function.update_self]
        rfl
      · rw [ih, Function.update_of_ne he]
    | @exchange t' op h q k a s ht' hd =>
      change (if t' = t then Machine.exchangesOf t w.log ++ [⟨q, a⟩] else _) =
        ((Function.update w.threads t' _ t).map _).getD []
      by_cases he : t' = t
      · subst he
        rw [if_pos rfl, ih, ht', Function.update_self]
        rfl
      · rw [if_neg he, ih, Function.update_of_ne (Ne.symm he)]
    | environment => exact ih

/-- The calls that were started, the last one first. -/
def started : List (Event Q A ω) → List ℕ
  | [] => []
  | .start t _ :: log => t :: started log
  | _ :: log => started log

theorem Reach.mem_started {s₀ : σ} (hw : Reach M C (.init s₀) w) {t : ℕ} :
    t ∈ started w.log ↔ ∃ th, w.threads t = some th := by
  induction hw with
  | init => exact ⟨fun h ↦ (List.not_mem_nil h).elim, fun ⟨_, h⟩ ↦ by cases h⟩
  | @step w _ _ _ _ h ih =>
    cases h with
    | @start t' op ht' =>
      rw [started, List.mem_cons, ih]
      by_cases he : t = t'
      · subst he
        exact ⟨fun _ ↦ ⟨_, Function.update_self ..⟩, fun _ ↦ .inl rfl⟩
      · dsimp only
        rw [Function.update_of_ne he]
        exact or_iff_right he
    | @exchange t' op h q k a s ht' hd =>
      refine Iff.trans ih ?_
      by_cases he : t = t'
      · subst he
        exact ⟨fun _ ↦ ⟨_, Function.update_self ..⟩, fun _ ↦ ⟨_, ht'⟩⟩
      · dsimp only
        rw [Function.update_of_ne he]
    | environment => exact ih

theorem Reach.nodup_started {s₀ : σ} (hw : Reach M C (.init s₀) w) : (started w.log).Nodup := by
  induction hw with
  | init => exact .nil
  | step hw _ h ih =>
    cases h with
    | start ht =>
      refine List.nodup_cons.2 ⟨fun hmem ↦ ?_, ih⟩
      obtain ⟨th, hth⟩ := hw.mem_started.1 hmem
      rw [ht] at hth
      cases hth
    | exchange => exact ih
    | environment => exact ih

/-- The calls whose exchanges meet `p`, once for each, the last one first. -/
def callsThat (p : Exchange Q A → Bool) : List (Event Q A ω) → List ℕ
  | [] => []
  | .exchange t e :: log => if p e then t :: callsThat p log else callsThat p log
  | _ :: log => callsThat p log

theorem count_callsThat (p : Exchange Q A → Bool) (t : ℕ) (log : List (Event Q A ω)) :
    (callsThat p log).count t = (Machine.exchangesOf t log).countP p := by
  induction log with
  | nil => rfl
  | cons e log ih =>
    cases e with
    | start => exact ih
    | environment => exact ih
    | exchange u e =>
      unfold callsThat Machine.exchangesOf
      by_cases hu : u = t <;> by_cases hp : p e = true <;> simp [hu, hp, ih]

/-- If every call has made as many exchanges of the one kind as of the other, there are as many of
the one as of the other. -/
theorem Reach.perm_callsThat {p q : Exchange Q A → Bool} {s₀ : σ} (hw : Reach M C (.init s₀) w)
    (h : ∀ t th, w.threads t = some th → th.history.countP p = th.history.countP q) :
    (callsThat p w.log).Perm (callsThat q w.log) := by
  refine List.perm_iff_count.2 fun t ↦ ?_
  rw [count_callsThat, count_callsThat, hw.exchangesOf]
  cases ht : w.threads t with
  | none => rfl
  | some th => exact h t th ht

/-! ### Requests that a task may send -/

/-- Every request of the task is allowed by `P`, and its end meets `post`, given answers that are
allowed by `K`. -/
def Task.Asks (P : Q → Prop) (K : ∀ q, A q → Prop) (post : ρ → Prop) : Task Q A ρ → Prop
  | .done r => post r
  | .ask q k => P q ∧ ∀ a, K q a → (k a).Asks P K post

variable {P : Q → Prop} {K : ∀ q, A q → Prop} {post : ρ → Prop}

theorem Task.Asks.bind {ρ' : Type} {post' : ρ' → Prop} {p : Task Q A ρ} {f : ρ → Task Q A ρ'}
    (hp : p.Asks P K post) (hf : ∀ r, post r → (f r).Asks P K post') :
    (p >>= f).Asks P K post' := by
  induction p with
  | done r => exact hf r hp
  | ask q k ih => exact ⟨hp.1, fun a ha ↦ ih a (hp.2 a ha)⟩

theorem Task.Asks.request_bind {q : Q} {f : A q → Task Q A ρ} (hq : P q)
    (hf : ∀ a, K q a → (f a).Asks P K post) : (.request q >>= f : Task Q A ρ).Asks P K post :=
  ⟨hq, hf⟩

theorem Task.Asks.mono {P' : Q → Prop} (h : ∀ q, P q → P' q) {p : Task Q A ρ}
    (hp : p.Asks P K post) : p.Asks P' K post := by
  induction p with
  | done r => exact hp
  | ask q k ih => exact ⟨h q hp.1, fun a ha ↦ ih a (hp.2 a ha)⟩

/-- What a task has sent it may send. -/
theorem Task.Asks.of_path {p p' : Task Q A ρ} {h : List (Exchange Q A)}
    (hp : p.Asks P (fun _ _ ↦ True) post) (hpath : Path p h p') : ∀ e ∈ h, P e.1 := by
  induction hpath with
  | nil => exact fun _ he ↦ (List.not_mem_nil he).elim
  | cons _ ih =>
    intro e he
    rcases List.mem_cons.1 he with rfl | he
    · exact hp.1
    · exact ih (hp.2 _ trivial) e he

/-- A request that a call is about to send is one that its task may send. -/
theorem Reach.asks {P : ω → Q → Prop} {post : ω → ρ → Prop} {s₀ : σ}
    (hM : ∀ op, (M.task op).Asks (P op) K (post op)) (hK : ∀ s q a s', M.does s q a s' → K q a)
    (hw : Reach M C (.init s₀) w) {t : ℕ} {th : Thread Q A ρ ω} (ht : w.threads t = some th) :
    th.rest.Asks (P th.op) K (post th.op) :=
  hw.thread (P := fun op _ p ↦ p.Asks (P op) K (post op)) hM
    (fun _ _ q _ a s s' hp hd ↦ hp.2 a (hK s q a s' hd)) ht

/-- A request that it has sent is one as well. -/
theorem Reach.asked {P : ω → Q → Prop} {post : ω → ρ → Prop} {s₀ : σ}
    (hM : ∀ op, (M.task op).Asks (P op) K (post op)) (hK : ∀ s q a s', M.does s q a s' → K q a)
    (hw : Reach M C (.init s₀) w) {t : ℕ} {th : Thread Q A ρ ω} (ht : w.threads t = some th) :
    ∀ e ∈ th.history, P th.op e.1 := by
  refine (hw.thread (P := fun op h p ↦ (∀ e ∈ h, P op e.1) ∧ p.Asks (P op) K (post op))
    (fun op ↦ ⟨fun _ he ↦ (List.not_mem_nil he).elim, hM op⟩) ?_ ht).1
  intro op h q k a s s' hp hd
  refine ⟨fun e he ↦ ?_, hp.2.2 a (hK s q a s' hd)⟩
  rcases List.mem_append.1 he with he | he
  · exact hp.1 e he
  · obtain rfl := List.mem_singleton.1 he
    exact hp.2.1

/-- Every request that the task sends after `h` is allowed by `P`, and its end meets `post`. Both
may speak of what has been exchanged before. -/
def Task.AsksAfter (P : List (Exchange Q A) → Q → Prop) (post : List (Exchange Q A) → ρ → Prop) :
    Task Q A ρ → List (Exchange Q A) → Prop
  | .done r, h => post h r
  | .ask q k, h => P h q ∧ ∀ a, (k a).AsksAfter P post (h ++ [⟨q, a⟩])

theorem Task.AsksAfter.bind {ρ' : Type} {P : List (Exchange Q A) → Q → Prop}
    {mid : List (Exchange Q A) → ρ → Prop} {post : List (Exchange Q A) → ρ' → Prop}
    {p : Task Q A ρ} {f : ρ → Task Q A ρ'} {h : List (Exchange Q A)} (hp : p.AsksAfter P mid h)
    (hf : ∀ h r, mid h r → (f r).AsksAfter P post h) : (p >>= f).AsksAfter P post h := by
  induction p generalizing h with
  | done r => exact hf h r hp
  | ask q k ih => exact ⟨hp.1, fun a ↦ ih a (hp.2 a)⟩

theorem Task.AsksAfter.imp {P : List (Exchange Q A) → Q → Prop}
    {post post' : List (Exchange Q A) → ρ → Prop} {p : Task Q A ρ} {h : List (Exchange Q A)}
    (hp : p.AsksAfter P post h) (himp : ∀ h r, post h r → post' h r) : p.AsksAfter P post' h := by
  induction p generalizing h with
  | done r => exact himp h r hp
  | ask q k ih => exact ⟨hp.1, fun a ↦ ih a (hp.2 a)⟩

theorem Task.asksAfter_of_forall {P : List (Exchange Q A) → Q → Prop}
    {post : List (Exchange Q A) → ρ → Prop} (hP : ∀ h q, P h q) (hpost : ∀ h r, post h r)
    (p : Task Q A ρ) (h : List (Exchange Q A)) : p.AsksAfter P post h := by
  induction p generalizing h with
  | done r => exact hpost h r
  | ask q k ih => exact ⟨hP h q, fun a ↦ ih a _⟩

/-- What is sent after `h` is allowed as long as `I` holds of the history, which every exchange of
the task keeps. -/
theorem Task.Asks.asksAfter {P' : List (Exchange Q A) → Q → Prop} {I : List (Exchange Q A) → Prop}
    {p : Task Q A ρ} {h : List (Exchange Q A)} (hp : p.Asks P (fun _ _ ↦ True) post)
    (hP : ∀ h q, I h → P q → P' h q) (hI : ∀ h q a, I h → P q → I (h ++ [⟨q, a⟩])) (hh : I h) :
    p.AsksAfter P' (fun h r ↦ I h ∧ post r) h := by
  induction p generalizing h with
  | done r => exact ⟨hh, hp⟩
  | ask q k ih =>
    exact ⟨hP h q hh hp.1, fun a ↦ ih a (hp.2 a trivial) (hI h q a hh hp.1)⟩

/-- A request that a call is about to send may be sent after what it has exchanged. -/
theorem Reach.asksAfter {P : ω → List (Exchange Q A) → Q → Prop}
    {post : ω → List (Exchange Q A) → ρ → Prop} {s₀ : σ}
    (hM : ∀ op, (M.task op).AsksAfter (P op) (post op) [])
    (hw : Reach M C (.init s₀) w) {t : ℕ} {th : Thread Q A ρ ω} (ht : w.threads t = some th) :
    th.rest.AsksAfter (P th.op) (post th.op) th.history :=
  hw.thread (P := fun op h p ↦ p.AsksAfter (P op) (post op) h) hM
    (fun _ _ _ _ a _ _ hp _ ↦ hp.2 a) ht

/-! ### Calls that are not interrupted -/

/-- A call may run alone for a while if its exchanges meet the condition anywhere. -/
theorem Reach.steps {s₀ s : σ} {p p' : Task Q A ρ} {h h₀ : List (Exchange Q A)} {t : ℕ}
    {op : ω} (hr : Steps M.does s₀ p h p' s) (hC : ∀ w, ∀ e ∈ h, C w (.exchange t e))
    {threads : ℕ → Option (Thread Q A ρ ω)} {log : List (Event Q A ω)}
    (hw : Reach M C w₀ ⟨s₀, Function.update threads t (some ⟨op, h₀, p⟩), log⟩) :
    Reach M C w₀ ⟨s, Function.update threads t (some ⟨op, h₀ ++ h, p'⟩),
      (h.map (.exchange t)).reverse ++ log⟩ := by
  induction hr generalizing h₀ log with
  | refl s p => simpa using hw
  | @ask s₁ s₂ s₃ q a k h p hd _ ih =>
    have hstep := hw.step (hC _ _ List.mem_cons_self) (.exchange (Function.update_self ..) hd)
    rw [Function.update_idem] at hstep
    have hend := ih (fun w e he ↦ hC w e (List.mem_cons_of_mem _ he)) hstep
    rw [List.append_assoc] at hend
    simpa using hend

/-- A call may start and run alone for a while. -/
theorem Reach.call (t : ℕ) (op : ω) {threads : ℕ → Option (Thread Q A ρ ω)}
    {log : List (Event Q A ω)} {s s' : σ} (hw : Reach M C w₀ ⟨s, threads, log⟩)
    (ht : threads t = none)
    {h : List (Exchange Q A)} {p : Task Q A ρ} (hr : Steps M.does s (M.task op) h p s')
    (hstart : ∀ w, C w (.start t op)) (hC : ∀ w, ∀ e ∈ h, C w (.exchange t e)) :
    Reach M C w₀ ⟨s', Function.update threads t (some ⟨op, h, p⟩),
      (h.map (.exchange t)).reverse ++ .start t op :: log⟩ :=
  (hw.step (hstart _) (.start ht)).steps hr hC

end EasyBook.Machine

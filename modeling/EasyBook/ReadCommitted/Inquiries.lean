import EasyBook.ReadCommitted.Adequacy

/-!
# What transactions ask of the outside

A question to the outside changes no store, so the contracts do not see it. `Prog.Inquires P` says
that every question of a transaction meets `P`, which may speak of the views that its queries have
seen so far; `Reach.asked` says so of every question that is ever asked in a run, and
`Reach.stillAsks` of those that the code goes on to ask when its transaction has been lost.
-/

namespace ReadCommitted

variable {Tab : Type} {Row : Tab → Type} {Err Key : Type} {Ask : Type} {Ans : Ask → Type}
  {Res Op : Type} {α β : Type}

namespace Prog

/-- Given the views of the queries before it, every question of the transaction meets `P`, and what
it returns meets `Q`. -/
def Inquires (P : List (Db Row) → Ask → Prop) (Q : α → List (Db Row) → Prop) :
    Prog Row Err Key Ans α → List (Db Row) → Prop
  | ret a, reads => Q a reads
  | throw _, _ => True
  | now k, reads => ∀ c, (k c).Inquires P Q reads
  | ask q k, reads => P reads q ∧ ∀ a, (k a).Inquires P Q reads
  | select k, reads => ∀ d, (k d).Inquires P Q (d :: reads)
  | lock _ k, reads => k.Inquires P Q reads
  | modify _ _ k, reads => ∀ rows, (k rows).Inquires P Q reads
  | insert _ _ k, reads => ∀ r, (k r).Inquires P Q reads

variable {P : List (Db Row) → Ask → Prop} {Q : β → List (Db Row) → Prop} {reads : List (Db Row)}

/-- What a sequence asks is what its two parts ask, the second after the reads of the first. -/
theorem Inquires.bind {p : Prog Row Err Key Ans α} {f : α → Prog Row Err Key Ans β}
    (hp : p.Inquires P (fun a reads ↦ (f a).Inquires P Q reads) reads) :
    (p >>= f).Inquires P Q reads := by
  change (p.bind f).Inquires P Q reads
  induction p generalizing reads with
  | ret a => exact hp
  | throw e => trivial
  | now k ih => exact fun c ↦ ih c (hp c)
  | ask q k ih => exact ⟨hp.1, fun a ↦ ih a (hp.2 a)⟩
  | select k ih => exact fun d ↦ ih d (hp d)
  | lock key k ih => exact ih hp
  | modify τ ch k ih => exact fun rows ↦ ih rows (hp rows)
  | insert τ new k ih => exact fun r ↦ ih r (hp r)

/-- A weaker demand is met where the stronger one is. -/
theorem Inquires.mono {Q' : β → List (Db Row) → Prop} (h : ∀ b reads, Q b reads → Q' b reads)
    {p : Prog Row Err Key Ans β} (hp : p.Inquires P Q reads) : p.Inquires P Q' reads := by
  induction p generalizing reads with
  | ret b => exact h b reads hp
  | throw e => trivial
  | now k ih => exact fun c ↦ ih c (hp c)
  | ask q k ih => exact ⟨hp.1, fun a ↦ ih a (hp.2 a)⟩
  | select k ih => exact fun d ↦ ih d (hp d)
  | lock key k ih => exact ih hp
  | modify τ ch k ih => exact fun rows ↦ ih rows (hp rows)
  | insert τ new k ih => exact fun r ↦ ih r (hp r)

/-- A refusal asks nothing. -/
theorem Inquires.refuse {c : Prop} [Decidable c] {e : Err} {f : Unit → Prog Row Err Key Ans β}
    (h : ¬ c → (f ()).Inquires P Q reads) : (Prog.refuse c e >>= f).Inquires P Q reads := by
  unfold Prog.refuse
  split
  · trivial
  · next hc => exact h hc

/-- What was required is there. -/
theorem Inquires.require {o : Option α} {e : Err} {f : α → Prog Row Err Key Ans β}
    (h : ∀ a, o = some a → (f a).Inquires P Q reads) :
    (Prog.require o e >>= f).Inquires P Q reads := by
  cases o with
  | none => trivial
  | some a => exact h a rfl

/-- What was checked is in order. -/
theorem Inquires.ofExcept {x : Except Err α} {f : α → Prog Row Err Key Ans β}
    (h : ∀ a, x = .ok a → (f a).Inquires P Q reads) :
    (Prog.ofExcept x >>= f).Inquires P Q reads := by
  cases x with
  | ok a => exact h a rfl
  | error e => trivial

/-- What the code of a transaction goes on to when the transaction itself is gone: it may read the
clock and ask, but the next statement fails. -/
inductive GoesOn : Prog Row Err Key Ans α → Prog Row Err Key Ans α → Prop where
  | now (k : ℤ → Prog Row Err Key Ans α) (c : ℤ) : GoesOn (.now k) (k c)
  | ask (q : Ask) (k : Ans q → Prog Row Err Key Ans α) (a : Ans q) : GoesOn (.ask q k) (k a)

/-- A question that it comes to after the one that it is waiting for. -/
def StillAsks (p : Prog Row Err Key Ans α) (q : Ask) : Prop :=
  ∃ k, Relation.TransGen GoesOn p (.ask q k)

/-- A program that has got on asks nothing it would not have asked. -/
theorem Inquires.goesOn {p p' : Prog Row Err Key Ans β} (hp : p.Inquires P Q reads)
    (h : p.GoesOn p') : p'.Inquires P Q reads := by
  cases h with
  | now k c => exact hp c
  | ask q k a => exact hp.2 a

/-- What a program still asks is warranted by what it has read. -/
theorem Inquires.stillAsks {p : Prog Row Err Key Ans β} (hp : p.Inquires P Q reads) {q : Ask}
    (h : p.StillAsks q) : P reads q := by
  have hall : ∀ p', Relation.TransGen GoesOn p p' → p'.Inquires P Q reads := fun p' h ↦ by
    induction h with
    | single hs => exact hp.goesOn hs
    | tail _ hs ih => exact ih.goesOn hs
  obtain ⟨k, hk⟩ := h
  exact (hall _ hk).1

/-- A transaction without questions. -/
def Silent : Prog Row Err Key Ans α → Prop
  | ret _ => True
  | throw _ => True
  | now k => ∀ c, (k c).Silent
  | ask _ _ => False
  | select k => ∀ d, (k d).Silent
  | lock _ k => k.Silent
  | modify _ _ k => ∀ rows, (k rows).Silent
  | insert _ _ k => ∀ r, (k r).Silent

/-- A sequence of silent programs is silent. -/
theorem Silent.bind {p : Prog Row Err Key Ans α} {f : α → Prog Row Err Key Ans β} (hp : p.Silent)
    (hf : ∀ a, (f a).Silent) : (p >>= f).Silent := by
  change (p.bind f).Silent
  induction p with
  | ret a => exact hf a
  | throw e => trivial
  | now k ih => exact fun c ↦ ih c (hp c)
  | ask q k ih => exact hp.elim
  | select k ih => exact fun d ↦ ih d (hp d)
  | lock key k ih => exact ih hp
  | modify τ ch k ih => exact fun rows ↦ ih rows (hp rows)
  | insert τ new k ih => exact fun r ↦ ih r (hp r)

/-- A value that has to be there is no question. -/
theorem silent_require (o : Option α) (e : Err) :
    (require o e : Prog Row Err Key Ans α).Silent := by
  cases o <;> trivial

/-- Nor is a check. -/
theorem silent_refuse (c : Prop) [Decidable c] (e : Err) :
    (refuse c e : Prog Row Err Key Ans Unit).Silent := by
  unfold refuse
  split <;> trivial

theorem Silent.inquires {p : Prog Row Err Key Ans β} (hp : p.Silent) (hQ : ∀ a reads, Q a reads) :
    p.Inquires P Q reads := by
  induction p generalizing reads with
  | ret a => exact hQ a reads
  | throw e => trivial
  | now k ih => exact fun c ↦ ih c (hp c)
  | ask q k ih => exact hp.elim
  | select k ih => exact fun d ↦ ih d (hp d)
  | lock key k ih => exact ih hp
  | modify τ ch k ih => exact fun rows ↦ ih rows (hp rows)
  | insert τ new k ih => exact fun r ↦ ih r (hp r)

end Prog

namespace Session

/-- Every question of the session meets `P`. -/
def Inquires (P : List (Db Row) → Ask → Prop) :
    Session Row Err Key Ans Res → List (Db Row) → Prop
  | done _, _ => True
  | now k, seen => ∀ c, (k c).Inquires P seen
  | ask _ _, _ => False
  | attempt p k, seen =>
    p.Inquires P (fun r reads ↦ (k (.ok r)).Inquires P reads) seen ∧
      ∀ e, (k (.error e)).Inquires P seen

/-- A session without questions. -/
def Silent : Session Row Err Key Ans Res → Prop
  | done _ => True
  | now k => ∀ c, (k c).Silent
  | ask _ _ => False
  | attempt p k => p.Silent ∧ ∀ r, (k r).Silent

theorem Silent.inquires {P : List (Db Row) → Ask → Prop} {s : Session Row Err Key Ans Res}
    (hs : s.Silent) {seen : List (Db Row)} : s.Inquires P seen := by
  induction s generalizing seen with
  | done r => trivial
  | now k ih => exact fun c ↦ ih c (hs c)
  | ask q k ih => exact hs.elim
  | attempt p k ih =>
    exact ⟨hs.1.inquires fun r reads ↦ ih _ (hs.2 _), fun e ↦ ih _ (hs.2 _)⟩

end Session

/-! ### Runs -/

/-- Every question that a session has still to ask meets `P`. -/
def Phase.Inquires (P : List (Db Row) → Ask → Prop) (seen : List (Db Row)) :
    Phase Row Err Key Ans Res → Prop
  | .idle => seen = []
  | .outside _ s => s.Inquires P seen
  | .inside _ x =>
    x.prog.Inquires P (fun r reads ↦ (x.after (.ok r)).Inquires P reads) x.reads ∧
      ∀ e, (x.after (.error e)).Inquires P seen

namespace System

variable [DecidableEq Tab] [DecidableEq Key] {sys : System Row Err Key Ans Res Op}
  {P : ℕ → List (Db Row) → Ask → Prop} {w w' : World Row Err Key Ans Res}
  {allow : World Row Err Key Ans Res → Event Err Ans Op → Prop}

omit [DecidableEq Tab] [DecidableEq Key] in
/-- A session that takes a step keeps to `P`, and the others do as they did. -/
private theorem inquires_setPhase (hw : ∀ u, (w.phase u).Inquires (P u) (w.seen u)) {t : ℕ}
    {p : Phase Row Err Key Ans Res} (hphase : w'.phase = w.phase)
    (hseen : ∀ u, u ≠ t → w'.seen u = w.seen u) (hp : p.Inquires (P t) (w'.seen t)) (u : ℕ) :
    ((w'.setPhase t p).phase u).Inquires (P u) ((w'.setPhase t p).seen u) := by
  change (Function.update w'.phase t p u).Inquires (P u) (w'.seen u)
  by_cases hu : u = t
  · subst hu
    rwa [Function.update_self]
  · rw [Function.update_of_ne hu, hphase, hseen u hu]
    exact hw u

omit [DecidableEq Tab] [DecidableEq Key] in
/-- After a rollback only its own call goes on, with the error. -/
private theorem inquires_rollback (hw : ∀ u, (w.phase u).Inquires (P u) (w.seen u)) {t : ℕ}
    {log : List (Failure Row Err)} {x : Txn Row Err Key Ans Res} {e : Err}
    (he : (x.after (.error e)).Inquires (P t) (w.seen t)) (u : ℕ) :
    ((w.rollback t log x e).phase u).Inquires (P u) ((w.rollback t log x e).seen u) := by
  unfold World.rollback
  exact inquires_setPhase hw rfl (fun _ _ ↦ rfl) (show Phase.Inquires _ _ (.outside _ _) from he) u

/-- A statement that runs hands its call one more read at most. -/
private theorem inquires_advance {t : ℕ} {log : List (Failure Row Err)}
    {x : Txn Row Err Key Ans Res} (hw : ∀ u, (w.phase u).Inquires (P u) (w.seen u))
    (hx : (Phase.inside log x).Inquires (P t) (w.seen t)) (hs : sys.advance w t log x = some w')
    (u : ℕ) : (w'.phase u).Inquires (P u) (w'.seen u) := by
  obtain ⟨prog, issued, clocked, reads, after⟩ := x
  obtain ⟨hprog, herr⟩ := hx
  dsimp only at hprog herr
  unfold advance at hs
  -- One case for each statement; whatever it reads is one more read of its own call.
  cases prog with
  | ret r =>
    obtain rfl := Option.some.inj hs
    unfold World.commit
    refine inquires_setPhase hw ?_ (fun v hv ↦ ?_) ?_ u
    · rfl
    · exact Function.update_of_ne hv _ _
    · show (after (.ok r)).Inquires (P t) (Function.update w.seen t reads t)
      rw [Function.update_self]
      exact hprog
  | throw e =>
    obtain rfl := Option.some.inj hs
    exact inquires_rollback hw (herr e) u
  | now k =>
    obtain rfl := Option.some.inj hs
    refine inquires_setPhase hw rfl (fun _ _ ↦ rfl) ?_ u
    exact ⟨hprog _, herr⟩
  | ask q k => cases hs
  | select k =>
    obtain rfl := Option.some.inj hs
    refine inquires_setPhase hw rfl (fun _ _ ↦ rfl) ?_ u
    exact ⟨hprog _, herr⟩
  | lock key k =>
    dsimp only at hs
    split at hs
    · obtain rfl := Option.some.inj hs
      refine inquires_setPhase hw rfl (fun _ _ ↦ rfl) ?_ u
      exact ⟨hprog, herr⟩
    · cases hs
  | modify τ ch k =>
    cases issued with
    | none =>
      obtain rfl := Option.some.inj hs
      refine inquires_setPhase hw rfl (fun _ _ ↦ rfl) ?_ u
      exact ⟨hprog, herr⟩
    | some snapshot =>
      dsimp only at hs
      split at hs
      · cases hs
      · obtain rfl := Option.some.inj hs
        exact inquires_rollback hw (herr _) u
      · obtain rfl := Option.some.inj hs
        refine inquires_setPhase hw rfl (fun _ _ ↦ rfl) ?_ u
        exact ⟨hprog _, herr⟩
  | insert τ new k =>
    dsimp only at hs
    split at hs
    · cases hs
    · obtain rfl := Option.some.inj hs
      exact inquires_rollback hw (herr _) u
    · obtain rfl := Option.some.inj hs
      refine inquires_setPhase hw rfl (fun _ _ ↦ rfl) ?_ u
      exact ⟨hprog _, herr⟩

/-- A step keeps the reads of every call and what each of them may still ask. -/
private theorem inquires_step {e : Event Err Ans Op}
    (hw : ∀ u, (w.phase u).Inquires (P u) (w.seen u))
    (hcall : ∀ t op, e = .call t op → (sys.service op).Inquires (P t) [])
    (hs : sys.step e w = some w') (u : ℕ) : (w'.phase u).Inquires (P u) (w'.seen u) := by
  have hphase : ∀ {t p}, w.phase t = p → p.Inquires (P t) (w.seen t) := fun h ↦ h ▸ hw _
  cases e with
  | tick c =>
    simp only [step] at hs
    split at hs
    · obtain rfl := Option.some.inj hs
      exact hw u
    · cases hs
  | call t op =>
    simp only [step] at hs
    split at hs
    · next hp =>
      obtain rfl := Option.some.inj hs
      -- A call that starts has read nothing yet.
      have hidle : w.seen t = [] := hphase hp
      refine inquires_setPhase hw rfl (fun _ _ ↦ rfl) ?_ u
      show (sys.service op).Inquires (P t) (w.seen t)
      rw [hidle]
      exact hcall t op rfl
    · cases hs
  | answer t oracle =>
    simp only [step] at hs
    split at hs
    · next hp => exact (hphase hp).elim
    · next log x hp =>
      obtain ⟨hprog, herr⟩ := hphase hp
      split at hs
      · next q k hq =>
        obtain rfl := Option.some.inj hs
        rw [hq] at hprog
        refine inquires_setPhase hw rfl (fun _ _ ↦ rfl) ?_ u
        exact ⟨hprog.2 _, herr⟩
      · cases hs
    · cases hs
  | run t =>
    simp only [step] at hs
    split at hs
    · next log k hp =>
      obtain rfl := Option.some.inj hs
      refine inquires_setPhase hw rfl (fun _ _ ↦ rfl) ?_ u
      exact hphase hp _
    · next log p k hp =>
      obtain rfl := Option.some.inj hs
      have hx := hphase hp
      refine inquires_setPhase hw rfl (fun _ _ ↦ rfl) ?_ u
      exact ⟨hx.1, hx.2⟩
    · next log x hp => exact inquires_advance hw (hphase hp) hs u
    · cases hs
  | lose t e =>
    simp only [step] at hs
    split at hs
    · next log x hp =>
      split at hs
      · obtain rfl := Option.some.inj hs
        exact inquires_rollback hw ((hphase hp).2 e) u
      · cases hs
    · cases hs

/-- So in every state of a run each call asks only what its reads warrant. -/
theorem Reach.inquires
    (hcall : ∀ w t op, allow w (.call t op) → (sys.service op).Inquires (P t) [])
    (hw : sys.Reach allow w) (u : ℕ) : (w.phase u).Inquires (P u) (w.seen u) := by
  induction hw generalizing u with
  | init => exact rfl
  | step _ ha hs ih => exact inquires_step ih (fun t op he ↦ hcall _ t op (he ▸ ha)) hs u

/-- **Every question of a run meets `P`**, given the views of the queries before it. -/
theorem Reach.asked
    (hcall : ∀ w t op, allow w (.call t op) → (sys.service op).Inquires (P t) [])
    (hw : sys.Reach allow w) {t : ℕ} {log : List (Failure Row Err)} {x : Txn Row Err Key Ans Res}
    (hp : w.phase t = .inside log x) {q : Ask} {k : Ans q → Prog Row Err Key Ans Res}
    (hq : x.prog = .ask q k) : P t x.reads q := by
  have hx := hw.inquires hcall t
  rw [hp] at hx
  have hask := hx.1
  rw [hq] at hask
  exact hask.1

/-- So does every question that the code of a transaction still asks when the transaction is
lost. -/
theorem Reach.stillAsks
    (hcall : ∀ w t op, allow w (.call t op) → (sys.service op).Inquires (P t) [])
    (hw : sys.Reach allow w) {t : ℕ} {log : List (Failure Row Err)} {x : Txn Row Err Key Ans Res}
    (hp : w.phase t = .inside log x) {q : Ask} (hq : x.prog.StillAsks q) : P t x.reads q := by
  have hx := hw.inquires hcall t
  rw [hp] at hx
  exact hx.1.stillAsks hq

end System

end ReadCommitted

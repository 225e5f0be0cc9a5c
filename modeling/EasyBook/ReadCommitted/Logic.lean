import EasyBook.ReadCommitted.Constraint
import EasyBook.ReadCommitted.Program

/-!
# A rely–guarantee logic for interleaved transactions

To verify a service against every interleaving it is enough to verify each transaction alone, if
what the others may do between its statements is known. A `Contract` fixes that:

* `inv`, an invariant of the store that every statement keeps;
* `ready t`, what transaction `t` has established by the time it commits. The others rely on it: a
  commit is the only step of `t` that they can notice;
* `answers t`, what the result of the transaction says about the store it is about to commit;
* `failing`, what is known of an attempt that failed;
* `grant` and `accept`, conditions on the run under which a bulk statement is executed and a row is
  inserted, and `rely t`, one on the steps of the others while a transaction of `t` is under way. A
  theorem about every run takes them to be `True`; a theorem about the runs that avoid some race
  states the race here.

`wp` is the verification condition of a transaction, with a postcondition for its return and one
for its failure: at each statement it assumes a store that the others have moved to by steps of
`Interfere`, and asks for the invariant after it. `Safe` is the condition of a session, and
`adequate` is the soundness theorem: if every service is safe, then whatever the interleaving, the
invariant holds, every committing transaction is ready and its answer is true, and every finished
session meets its postcondition.
-/

namespace ReadCommitted

variable {Tab : Type} {Row : Tab → Type} {Err Key : Type} {Ask : Type} {Ans : Ask → Type}
  {Res Op : Type}

/-- What the transactions of a service agree on. -/
structure Contract (Row : Tab → Type) (Err Res : Type) where
  /-- The invariant of the store. -/
  inv : Store Row → Prop
  /-- What `t` has established when it commits. -/
  ready : ℕ → Store Row → Prop
  /-- What a result of `t`, whose queries saw the given views, says about the store it commits. -/
  answers : ℕ → Res → List (Db Row) → Store Row → Prop
  /-- What is known of a failed attempt. -/
  failing : Failure Row Err → Prop
  /-- When `t`, whose queries saw the given views, may execute a bulk statement. -/
  grant : ℕ → List (Db Row) → Store Row → ∀ τ, (Row τ → Option (Option (Row τ))) → Prop
  /-- When it may insert a row. -/
  accept : ℕ → List (Db Row) → Store Row → ∀ τ, Row τ → Prop := fun _ _ _ _ _ ↦ True
  /-- What the others may do in one step while a transaction of `t` is under way. -/
  rely : ℕ → Store Row → Store Row → Prop := fun _ _ _ ↦ True
  /-- Time does not break the invariant. -/
  inv_tick : ∀ {σ c}, inv σ → σ.clock ≤ c → inv (σ.tick c)
  /-- Neither does a commit. -/
  inv_commit : ∀ {σ t}, inv σ → ready t σ → inv (σ.commit t)
  /-- Nor a rollback. -/
  inv_abort : ∀ {σ t}, inv σ → inv (σ.abort t)

variable {C : Contract Row Err Res} {t : ℕ} {σ σ' σ'' : Store Row}

/-! ### What the others may do -/

/-- One step of the environment of `t`. -/
inductive Interfere (C : Contract Row Err Res) (t : ℕ) : Store Row → Store Row → Prop where
  /-- Time passes. -/
  | tick {σ : Store Row} (c : ℤ) (h : σ.clock ≤ c) : Interfere C t σ (σ.tick c)
  /-- Somebody else works, or gives up. -/
  | work {σ σ' : Store Row} (u : ℕ) (hu : u ≠ t) (h : Store.WorkBy u σ σ') : Interfere C t σ σ'
  /-- Somebody else commits. -/
  | commit {σ : Store Row} (u : ℕ) (hu : u ≠ t) (h : C.ready u σ) : Interfere C t σ (σ.commit u)

/-- Any number of steps of the environment of `t`, the invariant holding throughout. -/
def Rely (C : Contract Row Err Res) (t : ℕ) : Store Row → Store Row → Prop :=
  Relation.ReflTransGen fun σ σ' ↦ C.inv σ ∧ C.inv σ' ∧ C.rely t σ σ' ∧ Interfere C t σ σ'

namespace Rely

/-- The others may have done nothing. -/
theorem refl (C : Contract Row Err Res) (t : ℕ) (σ : Store Row) : Rely C t σ σ :=
  Relation.ReflTransGen.refl

/-- What the others may do in two steps they may do in one. -/
theorem trans (h : Rely C t σ σ') (h' : Rely C t σ' σ'') : Rely C t σ σ'' :=
  Relation.ReflTransGen.trans h h'

/-- What every step that may be relied on preserves, the environment preserves. -/
theorem stable_of_rely {P : Store Row → Prop}
    (hP : ∀ σ σ', C.inv σ → C.inv σ' → C.rely t σ σ' → Interfere C t σ σ' → P σ → P σ')
    (h : Rely C t σ σ') (hσ : P σ) : P σ' := by
  induction h with
  | refl => exact hσ
  | tail _ hs ih => exact hP _ _ hs.1 hs.2.1 hs.2.2.1 hs.2.2.2 ih

/-- What every step of the environment preserves, the environment preserves. -/
theorem stable {P : Store Row → Prop}
    (hP : ∀ σ σ', C.inv σ → C.inv σ' → Interfere C t σ σ' → P σ → P σ')
    (h : Rely C t σ σ') (hσ : P σ) : P σ' :=
  h.stable_of_rely (fun σ σ' hi hi' _ ↦ hP σ σ' hi hi') hσ

/-- The others keep the invariant. -/
theorem inv (h : Rely C t σ σ') (hσ : C.inv σ) : C.inv σ' :=
  h.stable (fun _ _ _ hi _ _ ↦ hi) hσ

end Rely

/-- The environment of `t` leaves the versions of `t` alone. -/
theorem Interfere.dirty_iff (h : Interfere C t σ σ') (τ : Tab) (i : ℕ) (x : Option (Row τ)) :
    (σ'.cell τ i).dirty = some (t, x) ↔ (σ.cell τ i).dirty = some (t, x) := by
  cases h with
  | tick c _ => rfl
  | work u hu h => exact h.others τ i t x (Ne.symm hu)
  | commit u hu _ =>
    by_cases ho : (σ.cell τ i).ownedBy u
    · obtain ⟨y, hy⟩ := ho
      simp [Cell.commit_of_dirty hy, hy, hu]
    · rw [Store.commit_cell, Cell.commit_of_not_ownedBy ho]

/-- The others write nothing in the transaction's name. -/
theorem Interfere.clean (h : Interfere C t σ σ') (hc : σ.Clean t) : σ'.Clean t :=
  fun τ i ⟨x, hx⟩ ↦ hc τ i ⟨x, (h.dirty_iff τ i x).1 hx⟩

/-- The transaction's own writes are not touched by the others. -/
theorem Rely.dirty_iff (h : Rely C t σ σ') (τ : Tab) (i : ℕ) (x : Option (Row τ)) :
    (σ'.cell τ i).dirty = some (t, x) ↔ (σ.cell τ i).dirty = some (t, x) :=
  h.stable (P := fun σ' ↦ (σ'.cell τ i).dirty = some (t, x) ↔ (σ.cell τ i).dirty = some (t, x))
    (fun _ _ _ _ hi hP ↦ (hi.dirty_iff τ i x).trans hP) Iff.rfl

/-- Nor are its locks. -/
theorem Rely.ownedBy_iff (h : Rely C t σ σ') (τ : Tab) (i : ℕ) :
    (σ'.cell τ i).ownedBy t ↔ (σ.cell τ i).ownedBy t :=
  exists_congr fun x ↦ h.dirty_iff τ i x

/-- If it has written nothing, it still has not. -/
theorem Rely.clean (h : Rely C t σ σ') (hc : σ.Clean t) : σ'.Clean t :=
  fun τ i ho ↦ hc τ i ((h.ownedBy_iff τ i).1 ho)

/-- A row that `t` has locked stays as it is. -/
theorem Interfere.cell_of_ownedBy (h : Interfere C t σ σ') {τ : Tab} {i : ℕ}
    (ho : (σ.cell τ i).ownedBy t) : σ'.cell τ i = σ.cell τ i := by
  cases h with
  | tick c _ => rfl
  | work u hu hw =>
    obtain ⟨x, hx⟩ := ho
    refine Cell.ext (hw.committed τ i) ?_
    rw [hx, (hw.others τ i t x (Ne.symm hu)).2 hx]
  | commit u hu _ =>
    rw [Store.commit_cell, Cell.commit_of_not_ownedBy fun h ↦ hu (Cell.ownedBy_unique h ho)]

/-- A cell the transaction has locked stays as it is. -/
theorem Rely.cell_of_ownedBy (h : Rely C t σ σ') {τ : Tab} {i : ℕ}
    (ho : (σ.cell τ i).ownedBy t) : σ'.cell τ i = σ.cell τ i :=
  h.stable (P := fun σ' ↦ σ'.cell τ i = σ.cell τ i)
    (fun _ _ _ _ hi hP ↦ (hi.cell_of_ownedBy (by rwa [hP])).trans hP) rfl

/-- The clock does not run backwards. -/
theorem Rely.clock_le (h : Rely C t σ σ') : σ.clock ≤ σ'.clock :=
  h.stable (P := fun σ' ↦ σ.clock ≤ σ'.clock) (fun _ _ _ _ hi hP ↦ by
    cases hi with
    | tick c hc => exact le_trans hP hc
    | work u _ hw => exact le_of_le_of_eq hP hw.clock.symm
    | commit u _ _ => exact hP) (le_refl _)

/-! ### The verification conditions -/

variable [DecidableEq Tab]

/-- Whatever the environment does, `Q` holds when the transaction `p` of `t` returns (of the result,
the last reading of the clock, the views of the queries, and the store), and `F` if it fails. -/
def wp {α : Type} (C : Contract Row Err Res) (S : Schema Row Err) (t : ℕ)
    (F : Failure Row Err → Prop) (Q : α → Reading Row → List (Db Row) → Store Row → Prop) :
    Prog Row Err Key Ans α → Reading Row → List (Db Row) → Store Row → Prop
  | .ret a, clocked, reads, σ => ∀ σ', Rely C t σ σ' → C.inv σ' → Q a clocked reads σ'
  | .throw e, clocked, reads, σ =>
    ∀ σ', Rely C t σ σ' → C.inv σ' → F ⟨e, clocked, reads, σ'.committed⟩
  | .now k, _, reads, σ =>
    ∀ σ', Rely C t σ σ' → C.inv σ' → wp C S t F Q (k σ'.clock) ⟨σ'.clock, σ'.view (some t)⟩ reads σ'
  | .ask _ k, clocked, reads, σ => ∀ a, wp C S t F Q (k a) clocked reads σ
  | .select k, clocked, reads, σ =>
    ∀ σ', Rely C t σ σ' → C.inv σ' →
      wp C S t F Q (k (σ'.view (some t))) clocked (σ'.view (some t) :: reads) σ'
  | .lock _ k, clocked, reads, σ => wp C S t F Q k clocked reads σ
  | .modify τ ch k, clocked, reads, σ =>
    ∀ σ₀, Rely C t σ σ₀ → C.inv σ₀ → ∀ σ₁, Rely C t σ₀ σ₁ → C.inv σ₁ →
      (∀ rows σ₂,
        σ₁.modify S t τ (σ₀.view (some t)) (ch (σ₀.view (some t)) σ₀.clock) =
          .done (rows, σ₂) →
        C.grant t reads σ₁ τ (ch (σ₀.view (some t)) σ₀.clock) →
        C.inv σ₂ ∧ wp C S t F Q (k rows) clocked reads σ₂) ∧
      ∀ e, σ₁.modify S t τ (σ₀.view (some t)) (ch (σ₀.view (some t)) σ₀.clock) = .failed e →
        F ⟨e, clocked, reads, σ₁.committed⟩
  | .insert τ new k, clocked, reads, σ =>
    ∀ σ₁, Rely C t σ σ₁ → C.inv σ₁ →
      (∀ r σ₂, σ₁.insert S t τ (new σ₁.clock σ₁.next) = .done (r, σ₂) →
        C.accept t reads σ₁ τ (new σ₁.clock σ₁.next) →
        C.inv σ₂ ∧ wp C S t F Q (k r) clocked reads σ₂) ∧
      ∀ e, σ₁.insert S t τ (new σ₁.clock σ₁.next) = .failed e →
        F ⟨e, clocked, reads, σ₁.committed⟩

/-- A verification condition allows for what the environment does next. -/
theorem wp_rely {α : Type} {S : Schema Row Err} {F : Failure Row Err → Prop}
    {Q : α → Reading Row → List (Db Row) → Store Row → Prop} {p : Prog Row Err Key Ans α}
    {clocked : Reading Row} {reads : List (Db Row)} (h : wp C S t F Q p clocked reads σ)
    (hr : Rely C t σ σ') : wp C S t F Q p clocked reads σ' := by
  induction p generalizing clocked reads with
  | ret a => exact fun σ₁ h₁ ↦ h σ₁ (hr.trans h₁)
  | throw e => exact fun σ₁ h₁ ↦ h σ₁ (hr.trans h₁)
  | now k ih => exact fun σ₁ h₁ ↦ h σ₁ (hr.trans h₁)
  | ask q k ih => exact fun a ↦ ih a (h a)
  | select k ih => exact fun σ₁ h₁ ↦ h σ₁ (hr.trans h₁)
  | lock key k ih => exact ih h
  | modify τ ch k ih => exact fun σ₁ h₁ ↦ h σ₁ (hr.trans h₁)
  | insert τ new k ih => exact fun σ₁ h₁ ↦ h σ₁ (hr.trans h₁)

/-- The sequencing rule. -/
theorem wp_bind {α β : Type} {S : Schema Row Err} {F : Failure Row Err → Prop}
    {Q : β → Reading Row → List (Db Row) → Store Row → Prop} {p : Prog Row Err Key Ans α}
    {f : α → Prog Row Err Key Ans β} {clocked : Reading Row} {reads : List (Db Row)}
    (hσ : C.inv σ)
    (h : wp C S t F (fun a clocked reads σ ↦ wp C S t F Q (f a) clocked reads σ) p clocked reads
      σ) :
    wp C S t F Q (p.bind f) clocked reads σ := by
  induction p generalizing clocked reads σ with
  | ret a => exact h σ (Rely.refl C t σ) hσ
  | throw e => exact h
  | now k ih => exact fun σ₁ h₁ hσ₁ ↦ ih _ hσ₁ (h σ₁ h₁ hσ₁)
  | ask q k ih => exact fun a ↦ ih a hσ (h a)
  | select k ih => exact fun σ₁ h₁ hσ₁ ↦ ih _ hσ₁ (h σ₁ h₁ hσ₁)
  | lock key k ih => exact ih hσ h
  | modify τ ch k ih =>
    intro σ₀ h₀ hσ₀ σ₁ h₁ hσ₁
    obtain ⟨hd, hf⟩ := h σ₀ h₀ hσ₀ σ₁ h₁ hσ₁
    refine ⟨fun rows σ₂ hm hg ↦ ?_, hf⟩
    obtain ⟨hσ₂, hw⟩ := hd rows σ₂ hm hg
    exact ⟨hσ₂, ih rows hσ₂ hw⟩
  | insert τ new k ih =>
    intro σ₁ h₁ hσ₁
    obtain ⟨hd, hf⟩ := h σ₁ h₁ hσ₁
    refine ⟨fun r σ₂ hi ha ↦ ?_, hf⟩
    obtain ⟨hσ₂, hw⟩ := hd r σ₂ hi ha
    exact ⟨hσ₂, ih r hσ₂ hw⟩

/-- A weaker postcondition. -/
theorem wp_mono {α : Type} {S : Schema Row Err} {F F' : Failure Row Err → Prop}
    {Q Q' : α → Reading Row → List (Db Row) → Store Row → Prop} {p : Prog Row Err Key Ans α}
    {clocked : Reading Row} {reads : List (Db Row)} (h : wp C S t F Q p clocked reads σ)
    (hF : ∀ f, F f → F' f)
    (hQ : ∀ a clocked reads σ, C.inv σ → Q a clocked reads σ → Q' a clocked reads σ) :
    wp C S t F' Q' p clocked reads σ := by
  induction p generalizing clocked reads σ with
  | ret a => exact fun σ₁ h₁ hσ₁ ↦ hQ _ _ _ _ hσ₁ (h σ₁ h₁ hσ₁)
  | throw e => exact fun σ₁ h₁ hσ₁ ↦ hF _ (h σ₁ h₁ hσ₁)
  | now k ih => exact fun σ₁ h₁ hσ₁ ↦ ih _ (h σ₁ h₁ hσ₁)
  | ask q k ih => exact fun a ↦ ih a (h a)
  | select k ih => exact fun σ₁ h₁ hσ₁ ↦ ih _ (h σ₁ h₁ hσ₁)
  | lock key k ih => exact ih h
  | modify τ ch k ih =>
    intro σ₀ h₀ hσ₀ σ₁ h₁ hσ₁
    obtain ⟨hd, hf⟩ := h σ₀ h₀ hσ₀ σ₁ h₁ hσ₁
    refine ⟨fun rows σ₂ hm hg ↦ ?_, fun e he ↦ hF _ (hf e he)⟩
    obtain ⟨hσ₂, hw⟩ := hd rows σ₂ hm hg
    exact ⟨hσ₂, ih rows hw⟩
  | insert τ new k ih =>
    intro σ₁ h₁ hσ₁
    obtain ⟨hd, hf⟩ := h σ₁ h₁ hσ₁
    refine ⟨fun r σ₂ hi ha ↦ ?_, fun e he ↦ hF _ (hf e he)⟩
    obtain ⟨hσ₂, hw⟩ := hd r σ₂ hi ha
    exact ⟨hσ₂, ih r hw⟩

/-! ### Rules for the statements -/

section Rules

variable {α β : Type} {S : Schema Row Err} {F : Failure Row Err → Prop}
  {Q : β → Reading Row → List (Db Row) → Store Row → Prop} {clocked : Reading Row}
  {reads : List (Db Row)}

/-- A read is about some state that the others have left. -/
theorem wp_query {f : Db Row → α} {k : α → Prog Row Err Key Ans β} :
    wp C S t F Q (Prog.query f >>= k) clocked reads σ ↔
      ∀ σ', Rely C t σ σ' → C.inv σ' →
        wp C S t F Q (k (f (σ'.view (some t)))) clocked (σ'.view (some t) :: reads) σ' := Iff.rfl

/-- So is a look at the clock, which also fixes what the transaction has seen then. -/
theorem wp_readClock {k : ℤ → Prog Row Err Key Ans β} :
    wp C S t F Q (Prog.readClock >>= k) clocked reads σ ↔
      ∀ σ', Rely C t σ σ' → C.inv σ' →
        wp C S t F Q (k σ'.clock) ⟨σ'.clock, σ'.view (some t)⟩ reads σ' := Iff.rfl

/-- An answer from outside may be any. -/
theorem wp_inquire {q : Ask} {k : Ans q → Prog Row Err Key Ans β} :
    wp C S t F Q (Prog.inquire q >>= k) clocked reads σ ↔
      ∀ a, wp C S t F Q (k a) clocked reads σ := Iff.rfl

/-- A lock that is granted changes no row. -/
theorem wp_acquire {key : Key} {k : Unit → Prog Row Err Key Ans β} :
    wp C S t F Q (Prog.acquire key >>= k) clocked reads σ ↔
      wp C S t F Q (k ()) clocked reads σ := Iff.rfl

/-- An update selects on one state and writes on a later one; the invariant is owed after it. -/
theorem wp_update {τ : Tab} {ch : ℤ → Row τ → Option (Row τ)}
    {k : List (Row τ) → Prog Row Err Key Ans β} :
    wp C S t F Q (Prog.update τ ch >>= k) clocked reads σ ↔
      ∀ σ₀, Rely C t σ σ₀ → C.inv σ₀ → ∀ σ₁, Rely C t σ₀ σ₁ → C.inv σ₁ →
        (∀ rows σ₂, σ₁.modify S t τ (σ₀.view (some t)) (fun r ↦ (ch σ₀.clock r).map some) =
            .done (rows, σ₂) →
          C.grant t reads σ₁ τ (fun r ↦ (ch σ₀.clock r).map some) →
          C.inv σ₂ ∧ wp C S t F Q (k rows) clocked reads σ₂) ∧
        ∀ e, σ₁.modify S t τ (σ₀.view (some t)) (fun r ↦ (ch σ₀.clock r).map some) = .failed e →
          F ⟨e, clocked, reads, σ₁.committed⟩ := Iff.rfl

/-- An insert runs on a state the others have left; the invariant is owed after it. -/
theorem wp_create {τ : Tab} {new : ℤ → ℕ → Row τ} {k : Row τ → Prog Row Err Key Ans β} :
    wp C S t F Q (Prog.create τ new >>= k) clocked reads σ ↔
      ∀ σ₁, Rely C t σ σ₁ → C.inv σ₁ →
        (∀ r σ₂, σ₁.insert S t τ (new σ₁.clock σ₁.next) = .done (r, σ₂) →
          C.accept t reads σ₁ τ (new σ₁.clock σ₁.next) →
          C.inv σ₂ ∧ wp C S t F Q (k r) clocked reads σ₂) ∧
        ∀ e, σ₁.insert S t τ (new σ₁.clock σ₁.next) = .failed e →
          F ⟨e, clocked, reads, σ₁.committed⟩ := Iff.rfl

/-- A transaction that throws leaves nothing behind but its failure. -/
theorem wp_throw {e : Err} {k : α → Prog Row Err Key Ans β}
    (h : ∀ f : Failure Row Err, f.error = e → F f) :
    wp C S t F Q ((Prog.throw e : Prog Row Err Key Ans α) >>= k) clocked reads σ :=
  fun _ _ _ ↦ h _ rfl

/-- A check either fails with its error or lets the rest run. -/
theorem wp_refuse {c : Prop} [Decidable c] {e : Err} {k : Unit → Prog Row Err Key Ans β}
    (hf : ∀ f : Failure Row Err, f.error = e → F f)
    (h : ¬ c → wp C S t F Q (k ()) clocked reads σ) :
    wp C S t F Q (Prog.refuse c e >>= k) clocked reads σ := by
  unfold Prog.refuse
  split
  · exact wp_throw hf
  · next hc => exact h hc

/-- A value that has to be there. -/
theorem wp_require {o : Option α} {e : Err} {k : α → Prog Row Err Key Ans β}
    (hf : ∀ f : Failure Row Err, f.error = e → F f)
    (h : ∀ a, o = some a → wp C S t F Q (k a) clocked reads σ) :
    wp C S t F Q (Prog.require o e >>= k) clocked reads σ := by
  cases o with
  | none => exact wp_throw hf
  | some a => exact h a rfl

/-- A computation that may refuse. -/
theorem wp_ofExcept {x : Except Err α} {k : α → Prog Row Err Key Ans β}
    (hf : ∀ e, x = .error e → ∀ f : Failure Row Err, f.error = e → F f)
    (h : ∀ a, x = .ok a → wp C S t F Q (k a) clocked reads σ) :
    wp C S t F Q (Prog.ofExcept x >>= k) clocked reads σ := by
  cases x with
  | error e => exact wp_throw (hf e rfl)
  | ok a => exact h a rfl

end Rules

/-- What a transaction owes when it returns. -/
def Committing (C : Contract Row Err Res) (t : ℕ) :
    Res → Reading Row → List (Db Row) → Store Row → Prop :=
  fun r _ reads σ ↦ C.ready t σ ∧ C.answers t r reads σ

/-- Every attempt of the session is correct, and its result satisfies `Post` together with the
attempts that failed. `G` is what the session goes on with: the result of the attempt, and the
views seen by then. An attempt may also be lost, by the errors `lost`. -/
def Safe (C : Contract Row Err Res) (S : Schema Row Err) (lost : Err → Bool)
    (Post : List (Failure Row Err) → Except Err Res → Prop) (t : ℕ) :
    List (Failure Row Err) → List (Db Row) → Session Row Err Key Ans Res → Prop
  | log, _, .done r => Post log r
  | log, seen, .now k => ∀ c, Safe C S lost Post t log seen (k c)
  | log, seen, .ask _ k => ∀ a, Safe C S lost Post t log seen (k a)
  | log, seen, .attempt p k =>
    ∃ (F : Failure Row Err → Prop) (G : Res → List (Db Row) → Prop),
      (∀ σ, C.inv σ → σ.Clean t →
        wp C S t F (fun r clocked reads σ ↦ Committing C t r clocked reads σ ∧ G r reads) p
          ⟨σ.clock, σ.view (some t)⟩ seen σ) ∧
      (∀ r reads, G r reads → Safe C S lost Post t log reads (k (.ok r))) ∧
      ∀ f, F f ∨ lost f.error →
        C.failing f ∧ Safe C S lost Post t (log ++ [f]) seen (k (.error f.error))

/-- The rule for an attempt of which the session keeps nothing but the result. -/
theorem safe_attempt_of_wp {S : Schema Row Err} {lost : Err → Bool}
    {Post : List (Failure Row Err) → Except Err Res → Prop} {log : List (Failure Row Err)}
    {seen : List (Db Row)} {p : Prog Row Err Key Ans Res}
    {k : Except Err Res → Session Row Err Key Ans Res} (F : Failure Row Err → Prop)
    (hp : ∀ σ, C.inv σ → σ.Clean t →
      wp C S t F (Committing C t) p ⟨σ.clock, σ.view (some t)⟩ seen σ)
    (hok : ∀ r reads, Safe C S lost Post t log reads (k (.ok r)))
    (herr : ∀ f, F f ∨ lost f.error →
      C.failing f ∧ Safe C S lost Post t (log ++ [f]) seen (k (.error f.error))) :
    Safe C S lost Post t log seen (.attempt p k) :=
  ⟨F, fun _ _ ↦ True, fun σ hσ hc ↦ wp_mono (hp σ hσ hc) (fun _ h ↦ h) fun _ _ _ _ _ h ↦
    ⟨h, trivial⟩, fun r reads _ ↦ hok r reads, herr⟩

end ReadCommitted

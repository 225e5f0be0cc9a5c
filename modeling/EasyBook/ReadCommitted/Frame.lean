import EasyBook.ReadCommitted.Rowwise

/-!
# Transactions known by their statements alone

Much that a contract asks of a service can be read off its statements one by one, whatever it reads
and is answered. `Prog.Obeys R N` says that every bulk statement of a transaction changes rows as
`R` allows and every insertion is one that `N` allows. `Session.Writes T` is the coarsest case: only
tables of `T` are written at all.

`safe_of_obeys` is the rule that goes with it. A contract that speaks of a few tables is kept by
every service that writes others, and one that speaks of a few columns by every service that leaves
these alone; nothing else has to be known of them.
-/

namespace ReadCommitted

variable {Tab : Type} {Row : Tab → Type} {Err Key : Type} {Ask : Type} {Ans : Ask → Type}
  {Res : Type} {α β : Type}

namespace Prog

/-- Every bulk statement changes rows as `R` allows, and `N` allows every row inserted. -/
def Obeys (R : ∀ τ, Row τ → Option (Row τ) → Prop) (N : ∀ τ, ℕ → Row τ → Prop) :
    Prog Row Err Key Ans α → Prop
  | ret _ => True
  | throw _ => True
  | now k => ∀ c, (k c).Obeys R N
  | ask _ k => ∀ a, (k a).Obeys R N
  | select k => ∀ d, (k d).Obeys R N
  | lock _ k => k.Obeys R N
  | modify τ ch k => (∀ d c r x, ch d c r = some x → R τ r x) ∧ ∀ rows, (k rows).Obeys R N
  | insert τ new k => (∀ c i, N τ i (new c i)) ∧ ∀ r, (k r).Obeys R N

variable {R R' : ∀ τ, Row τ → Option (Row τ) → Prop} {N N' : ∀ τ, ℕ → Row τ → Prop} {T : Tab → Prop}

theorem Obeys.bind {p : Prog Row Err Key Ans α} {f : α → Prog Row Err Key Ans β}
    (hp : p.Obeys R N) (hf : ∀ a, (f a).Obeys R N) : (p >>= f).Obeys R N := by
  change (p.bind f).Obeys R N
  induction p with
  | ret a => exact hf a
  | throw e => trivial
  | now k ih => exact fun c ↦ ih c (hp c)
  | ask q k ih => exact fun a ↦ ih a (hp a)
  | select k ih => exact fun d ↦ ih d (hp d)
  | lock key k ih => exact ih hp
  | modify τ ch k ih => exact ⟨hp.1, fun rows ↦ ih rows (hp.2 rows)⟩
  | insert τ new k ih => exact ⟨hp.1, fun r ↦ ih r (hp.2 r)⟩

theorem obeys_query (f : Db Row → α) : (query f : Prog Row Err Key Ans α).Obeys R N :=
  fun _ ↦ trivial

theorem obeys_inquire (q : Ask) : (inquire q : Prog Row Err Key Ans (Ans q)).Obeys R N :=
  fun _ ↦ trivial

/-- A refusal that does not happen is known not to have a reason. -/
theorem Obeys.refuse {c : Prop} [Decidable c] {e : Err} {f : Unit → Prog Row Err Key Ans β}
    (h : ¬ c → (f ()).Obeys R N) : (Prog.refuse c e >>= f).Obeys R N := by
  unfold Prog.refuse
  split
  · trivial
  · next hc => exact h hc

/-- What was required is there. -/
theorem Obeys.require {o : Option α} {e : Err} {f : α → Prog Row Err Key Ans β}
    (h : ∀ a, o = some a → (f a).Obeys R N) : (Prog.require o e >>= f).Obeys R N := by
  cases o with
  | none => trivial
  | some a => exact h a rfl

/-- What was checked is in order. -/
theorem Obeys.ofExcept {x : Except Err α} {f : α → Prog Row Err Key Ans β}
    (h : ∀ a, x = .ok a → (f a).Obeys R N) : (Prog.ofExcept x >>= f).Obeys R N := by
  cases x with
  | ok a => exact h a rfl
  | error e => trivial

/-- A query may return anything. -/
theorem Obeys.query {g : Db Row → α} {f : α → Prog Row Err Key Ans β}
    (h : ∀ d, (f (g d)).Obeys R N) : (Prog.query g >>= f).Obeys R N := h

theorem Obeys.readClock {f : ℤ → Prog Row Err Key Ans β} (h : ∀ c, (f c).Obeys R N) :
    (Prog.readClock >>= f).Obeys R N := h

theorem obeys_refuse (c : Prop) [Decidable c] (e : Err) :
    (refuse c e : Prog Row Err Key Ans Unit).Obeys R N := by
  unfold refuse
  split <;> trivial

theorem obeys_update {τ : Tab} {ch : ℤ → Row τ → Option (Row τ)}
    (h : ∀ c r r', ch c r = some r' → R τ r (some r')) :
    (update τ ch : Prog Row Err Key Ans (List (Row τ))).Obeys R N := by
  refine ⟨fun d c r x hx ↦ ?_, fun _ ↦ trivial⟩
  obtain ⟨r', hr', rfl⟩ := Option.map_eq_some_iff.1 hx
  exact h c r r' hr'

theorem obeys_create {τ : Tab} {new : ℤ → ℕ → Row τ} (h : ∀ c i, N τ i (new c i)) :
    (create τ new : Prog Row Err Key Ans (Row τ)).Obeys R N :=
  ⟨h, fun _ ↦ trivial⟩

end Prog

namespace Session

/-- Every transaction of the session changes rows as `R` and `N` allow. -/
def Obeys (R : ∀ τ, Row τ → Option (Row τ) → Prop) (N : ∀ τ, ℕ → Row τ → Prop) :
    Session Row Err Key Ans Res → Prop
  | done _ => True
  | now k => ∀ c, (k c).Obeys R N
  | ask _ k => ∀ a, (k a).Obeys R N
  | attempt p k => p.Obeys R N ∧ ∀ r, (k r).Obeys R N

/-- The session writes tables of `T` only. -/
abbrev Writes (T : Tab → Prop) (s : Session Row Err Key Ans Res) : Prop :=
  s.Obeys (fun τ _ _ ↦ T τ) fun τ _ _ ↦ T τ

end Session

section Rules

variable [DecidableEq Tab] {C : Contract Row Err Res} {S : Schema Row Err} {t : ℕ}
  {R : ∀ τ, Row τ → Option (Row τ) → Prop} {N : ∀ τ, ℕ → Row τ → Prop} {T : Tab → Prop}

/-- A contract that `t` meets as long as its statements obey `R` and `N`. -/
structure Contract.Tolerates (C : Contract Row Err Res) (S : Schema Row Err) (t : ℕ)
    (R : ∀ τ, Row τ → Option (Row τ) → Prop) (N : ∀ τ, ℕ → Row τ → Prop) : Prop where
  /-- A bulk statement keeps the invariant. -/
  modify : ∀ {τ σ σ' snapshot ch rows reads}, (∀ r x, ch r = some x → R τ r x) → C.inv σ →
    σ.modify S t τ snapshot ch = .done (rows, σ') → C.grant t reads σ τ ch → C.inv σ'
  /-- So does an insertion. -/
  insert : ∀ {τ σ σ' r r' reads}, N τ σ.next r → C.inv σ → σ.insert S t τ r = .done (r', σ') →
    C.accept t reads σ τ r → C.inv σ'
  /-- The transaction is ready whenever it returns, -/
  ready : ∀ {σ}, C.inv σ → C.ready t σ
  /-- its answer is true, -/
  answers : ∀ {σ r reads}, C.inv σ → C.answers t r reads σ
  /-- and it may fail. -/
  failing : ∀ f, C.failing f

theorem wp_of_obeys (hC : C.Tolerates S t R N) {p : Prog Row Err Key Ans Res} (hp : p.Obeys R N)
    {clocked : Reading Row} {reads : List (Db Row)} {σ : Store Row} :
    wp C S t (fun _ ↦ True) (Committing C t) p clocked reads σ := by
  induction p generalizing clocked reads σ with
  | ret a => exact fun σ' _ hσ' ↦ ⟨hC.ready hσ', hC.answers hσ'⟩
  | throw e => exact fun _ _ _ ↦ trivial
  | now k ih => exact fun σ' _ _ ↦ ih _ (hp _)
  | ask q k ih => exact fun a ↦ ih a (hp a)
  | select k ih => exact fun σ' _ _ ↦ ih _ (hp _)
  | lock key k ih => exact ih hp
  | modify τ ch k ih =>
    exact fun σ₀ _ _ σ₁ _ hσ₁ ↦ ⟨fun rows σ₂ hm hg ↦
      ⟨hC.modify (hp.1 _ _) hσ₁ hm hg, ih rows (hp.2 rows)⟩, fun _ _ ↦ trivial⟩
  | insert τ new k ih =>
    exact fun σ₁ _ hσ₁ ↦ ⟨fun r σ₂ hi ha ↦
      ⟨hC.insert (hp.1 _ _) hσ₁ hi ha, ih r (hp.2 r)⟩, fun _ _ ↦ trivial⟩

/-- **The frame rule for services.** A session whose statements a contract tolerates is safe. -/
theorem safe_of_obeys {lost : Err → Bool} (hC : C.Tolerates S t R N)
    {s : Session Row Err Key Ans Res} (hs : s.Obeys R N) {log : List (Failure Row Err)}
    {seen : List (Db Row)} : Safe C S lost (fun _ _ ↦ True) t log seen s := by
  induction s generalizing log seen with
  | done r => trivial
  | now k ih => exact fun c ↦ ih c (hs c)
  | ask q k ih => exact fun a ↦ ih a (hs a)
  | attempt p k ih =>
    exact safe_attempt_of_wp (fun _ ↦ True) (fun σ _ _ ↦ wp_of_obeys hC hs.1)
      (fun r reads ↦ ih _ (hs.2 _)) fun f _ ↦ ⟨hC.failing f, ih _ (hs.2 _)⟩

/-- A law tolerates statements if it allows what they make of the rows they see. -/
theorem Law.tolerates {L : Law Row} {answers : ℕ → Res → List (Db Row) → Store Row → Prop}
    {grant : ℕ → List (Db Row) → Store Row → ∀ τ, (Row τ → Option (Option (Row τ))) → Prop}
    {accept : ℕ → List (Db Row) → Store Row → ∀ τ, Row τ → Prop} (hS : S.Plain)
    (hR : ∀ reads σ τ ch i r x, L.Lawful σ → grant t reads σ τ ch →
      (σ.cell τ i).seen (some t) = some r → ch r = some x → R τ r x →
      L.may t τ i (σ.cell τ i).committed x)
    (hN : ∀ reads σ τ r, L.Lawful σ → accept t reads σ τ r → N τ σ.next r →
      L.may t τ σ.next none (some r))
    (hans : ∀ {σ r reads}, L.Lawful σ → answers t r reads σ) :
    (L.contract answers grant accept : Contract Row Err Res).Tolerates S t R N where
  modify hch hσ hm hg := Law.Lawful.modify hσ hS hm fun i r x hseen hx ↦
    hR _ _ _ _ i r x hσ hg hseen hx (hch r x hx)
  insert hn hσ hi ha := Law.Lawful.insert hσ hS hi (hN _ _ _ _ hσ ha hn)
  ready _ := trivial
  answers := hans
  failing _ := trivial

/-- A law tolerates whatever is written to tables in which it lets `t` do anything. -/
theorem Law.tolerates_writes {L : Law Row}
    {answers : ℕ → Res → List (Db Row) → Store Row → Prop}
    {grant : ℕ → List (Db Row) → Store Row → ∀ τ, (Row τ → Option (Option (Row τ))) → Prop}
    {accept : ℕ → List (Db Row) → Store Row → ∀ τ, Row τ → Prop} (hS : S.Plain)
    (hfree : ∀ τ, T τ → ∀ i x y, L.may t τ i x y)
    (hans : ∀ {σ r reads}, L.Lawful σ → answers t r reads σ) :
    (L.contract answers grant accept : Contract Row Err Res).Tolerates S t (fun τ _ _ ↦ T τ)
      fun τ _ _ ↦ T τ :=
  Law.tolerates hS (fun _ _ τ _ i _ x _ _ _ _ hτ ↦ hfree τ hτ i _ x)
    (fun _ _ τ r _ _ hτ ↦ hfree τ hτ _ none (some r)) hans

end Rules

end ReadCommitted

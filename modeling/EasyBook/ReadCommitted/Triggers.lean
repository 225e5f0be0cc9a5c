import EasyBook.ReadCommitted.Frame

/-!
# Laws and triggers

A law about single rows in a database with triggers. `Law.Covers` asks that the triggers make of
rows only what anybody may make of them; then bulk statements and insertions keep the law for the
reasons they had without triggers, and a service is safe as soon as its own statements are
(`Law.tolerates_of_covers`).

Most laws come from a list of single changes: `Law.generated` allows a transaction any number of
them, so nothing has to be said of what several statements make of one row.

`System.evolves` is the run lemma: where every commit is a step up in a preorder (and it is, if what
a law allows is one: `Law.Lawful.evolves_commit`), whatever is committed stays, and goes up in it.
-/

namespace ReadCommitted

variable {Tab : Type} {Row : Tab → Type} {Err Key : Type} {Ask : Type} {Ans : Ask → Type}
  {Res Op : Type}

/-- The triggers make of rows what anybody may make of them. -/
structure Law.Covers (L : Law Row) (S : Schema Row Err) : Prop where
  /-- What a BEFORE trigger makes of an allowed version is allowed. -/
  before : ∀ {t τ i x r} (d : Db Row), L.may t τ i x (some r) →
    L.may t τ i x (some (S.before d τ r))
  /-- So is what an AFTER trigger makes of a row in order. -/
  after : ∀ {τ old new τ' ch t i x r r'}, S.after τ old new = some ⟨τ', ch⟩ → L.good τ' i r →
    x = some r ∨ L.may t τ' i x (some r) → ch r = some r' → L.may t τ' i x (some r')

namespace Law.Lawful

variable [DecidableEq Tab] {S : Schema Row Err} {L : Law Row} {t : ℕ} {σ σ' : Store Row} {τ : Tab}
  {snapshot : Db Row} {ch : Row τ → Option (Option (Row τ))}

theorem rewrite (h : L.Lawful σ) (hS : L.Covers S) (hr : Store.Rewritten S σ t τ snapshot ch σ')
    (hmay : ∀ i r x, (σ.cell τ i).seen (some t) = some r → ch r = some x →
      L.may t τ i (σ.cell τ i).committed x) : L.Lawful σ' := by
  rw [hr.eq_put]
  refine h.put fun i r x hseen hv ↦ ?_
  obtain ⟨y, hy, rfl⟩ := (Store.version_eq_some hv).2
  have hmay := hmay i r y hseen hy
  cases y with
  | none => exact hmay
  | some r' => exact hS.before _ hmay

/-- The AFTER triggers keep the law. -/
theorem fire (h : L.Lawful σ) (hS : L.Covers S) {l : List (ℕ × Row τ × Option (Row τ))}
    (hf : σ.fire S t τ l = .done σ') : L.Lawful σ' := by
  refine Store.fire_induction (P := L.Lawful) (fun _ old new τ' ch _ ha σ₁ σ₂ hr h₁ ↦ ?_) hf h
  refine h₁.rewrite hS hr fun i r x hseen hx ↦ ?_
  obtain ⟨r', hr', rfl⟩ := Option.map_eq_some_iff.1 hx
  exact hS.after ha (h₁.seen_good hseen) (h₁.seen_cases hseen) hr'

/-- A bulk statement keeps the law if it allows what is made of each row seen. -/
theorem modify_of_covers (h : L.Lawful σ) (hS : L.Covers S) {rows : List (Row τ)}
    (hm : σ.modify S t τ snapshot ch = .done (rows, σ'))
    (hmay : ∀ i r x, (σ.cell τ i).seen (some t) = some r → ch r = some x →
      L.may t τ i (σ.cell τ i).committed x) : L.Lawful σ' := by
  obtain ⟨_, σ₁, hr, hf⟩ := Store.modify_eq_done hm
  exact (h.rewrite hS hr hmay).fire hS hf

/-- So does an insertion. -/
theorem insert_of_covers (h : L.Lawful σ) (hS : L.Covers S) {r r' : Row τ}
    (hi : σ.insert S t τ r = .done (r', σ')) (hmay : L.may t τ σ.next none (some r)) :
    L.Lawful σ' := by
  obtain ⟨rfl, rfl, _⟩ := Store.insert_eq_done hi
  exact h.add (hS.before _ hmay)

end Law.Lawful

section Rules

variable [DecidableEq Tab] {S : Schema Row Err} {t : ℕ}
  {R : ∀ τ, Row τ → Option (Row τ) → Prop} {N : ∀ τ, ℕ → Row τ → Prop} {L : Law Row}
  {answers : ℕ → Res → List (Db Row) → Store Row → Prop}
  {grant : ℕ → List (Db Row) → Store Row → ∀ τ, (Row τ → Option (Option (Row τ))) → Prop}
  {accept : ℕ → List (Db Row) → Store Row → ∀ τ, Row τ → Prop}

/-- A law that covers the triggers tolerates statements if it allows what they make of the rows
they see. -/
theorem Law.tolerates_of_covers (hS : L.Covers S)
    (hR : ∀ σ τ i r x, L.Lawful σ → (σ.cell τ i).seen (some t) = some r → R τ r x →
      L.may t τ i (σ.cell τ i).committed x)
    (hN : ∀ τ i r, N τ i r → L.may t τ i none (some r))
    (hans : ∀ {σ r reads}, L.Lawful σ → answers t r reads σ) :
    (L.contract answers grant accept : Contract Row Err Res).Tolerates S t R N where
  modify hch hσ hm _ := Law.Lawful.modify_of_covers hσ hS hm fun i r x hseen hx ↦
    hR _ _ i r x hσ hseen (hch r x hx)
  insert hn hσ hi _ := Law.Lawful.insert_of_covers hσ hS hi (hN _ _ _ hn)
  ready _ := trivial
  answers := hans
  failing _ := trivial

end Rules

/-! ### Laws from single changes -/

section Generated

variable {good : ∀ τ, ℕ → Row τ → Prop} {writes : ℕ → ∀ τ, Row τ → Row τ → Prop}
  {inserts : ℕ → ∀ τ, ℕ → Row τ → Prop}

/-- The law of transactions that insert certain rows and change rows by certain steps, one or
more. Nothing is deleted. -/
def Law.generated (good : ∀ τ, ℕ → Row τ → Prop) (writes : ℕ → ∀ τ, Row τ → Row τ → Prop)
    (inserts : ℕ → ∀ τ, ℕ → Row τ → Prop)
    (hwrites : ∀ t τ i r r', good τ i r → writes t τ r r' → good τ i r')
    (hinserts : ∀ t τ i r, inserts t τ i r → good τ i r) : Law Row where
  good := good
  may t τ i
    | none, some r => ∃ r₀, inserts t τ i r₀ ∧ Relation.ReflTransGen (writes t τ) r₀ r
    | some r, some r' => Relation.ReflTransGen (writes t τ) r r'
    | _, none => False
  keeps {t τ i x r} hx h := by
    have hstar : ∀ {q q'}, good τ i q → Relation.ReflTransGen (writes t τ) q q' → good τ i q' :=
      fun hq h ↦ by
        induction h with
        | refl => exact hq
        | tail _ hs ih => exact hwrites t τ i _ _ ih hs
    cases x with
    | none =>
      obtain ⟨r₀, hr₀, hstar'⟩ := h
      exact hstar (hinserts t τ i r₀ hr₀) hstar'
    | some q => exact hstar (hx q rfl) h

/-- The triggers make single steps, whoever writes. -/
structure Schema.WritesBy (S : Schema Row Err) (writes : ℕ → ∀ τ, Row τ → Row τ → Prop) :
    Prop where
  before : ∀ t d τ r, S.before d τ r = r ∨ writes t τ r (S.before d τ r)
  after : ∀ {t τ old new τ' ch r r'}, S.after τ old new = some ⟨τ', ch⟩ → ch r = some r' →
    writes t τ' r r'

variable {hwrites : ∀ t τ i r r', good τ i r → writes t τ r r' → good τ i r'}
  {hinserts : ∀ t τ i r, inserts t τ i r → good τ i r} {S : Schema Row Err}

/-- One more step is allowed. -/
theorem Law.generated_tail {t : ℕ} {τ : Tab} {i : ℕ} {x : Option (Row τ)} {r r' : Row τ}
    (h : x = some r ∨ (Law.generated good writes inserts hwrites hinserts).may t τ i x (some r))
    (hs : writes t τ r r') :
    (Law.generated good writes inserts hwrites hinserts).may t τ i x (some r') := by
  rcases h with rfl | h
  · exact .single hs
  · cases x with
    | none =>
      obtain ⟨r₀, hr₀, hstar⟩ := h
      exact ⟨r₀, hr₀, hstar.tail hs⟩
    | some q => exact Relation.ReflTransGen.tail h hs

theorem Law.generated_covers (hS : S.WritesBy writes) :
    (Law.generated good writes inserts hwrites hinserts).Covers S where
  before {t τ i x r} d h := by
    rcases hS.before t d τ r with he | hw
    · rwa [he]
    · exact Law.generated_tail (.inr h) hw
  after ha _ hx hch := Law.generated_tail hx (hS.after ha hch)

/-- A generated law tolerates the statements it is generated by. -/
theorem Law.generated_tolerates [DecidableEq Tab] {t : ℕ}
    {answers : ℕ → Res → List (Db Row) → Store Row → Prop}
    {grant : ℕ → List (Db Row) → Store Row → ∀ τ, (Row τ → Option (Option (Row τ))) → Prop}
    {accept : ℕ → List (Db Row) → Store Row → ∀ τ, Row τ → Prop} (hS : S.WritesBy writes)
    (hans : ∀ {σ r reads}, (Law.generated good writes inserts hwrites hinserts).Lawful σ →
      answers t r reads σ) :
    ((Law.generated good writes inserts hwrites hinserts).contract answers grant accept :
      Contract Row Err Res).Tolerates S t (fun τ r x ↦ ∃ r', x = some r' ∧ writes t τ r r')
      fun τ i r ↦ inserts t τ i r :=
  Law.tolerates_of_covers (Law.generated_covers hS)
    (fun _ _ _ _ _ hσ hseen ⟨_, hx, hw⟩ ↦ hx ▸ Law.generated_tail (hσ.seen_cases hseen) hw)
    (fun _ _ r hr ↦ ⟨r, hr, .refl⟩) hans

end Generated

/-! ### Runs -/

/-- What is committed stays, in a version that `R` relates to it. -/
def Evolves (R : ∀ τ, Row τ → Row τ → Prop) (d d' : Db Row) : Prop :=
  ∀ τ i r, d.row τ i = some r → ∃ r', d'.row τ i = some r' ∧ R τ r r'

theorem Evolves.refl (hR : ∀ τ r, R τ r r) (d : Db Row) : Evolves R d d :=
  fun τ _ r hr ↦ ⟨r, hr, hR τ r⟩

theorem Evolves.trans (hR : ∀ τ r r' r'', R τ r r' → R τ r' r'' → R τ r r'') {d d' d'' : Db Row}
    (h : Evolves R d d') (h' : Evolves R d' d'') : Evolves R d d'' := by
  intro τ i r hr
  obtain ⟨r', hr', hR₁⟩ := h τ i r hr
  obtain ⟨r'', hr'', hR₂⟩ := h' τ i r' hr'
  exact ⟨r'', hr'', hR τ r r' r'' hR₁ hR₂⟩

theorem Evolves.of_row_eq {R : ∀ τ, Row τ → Row τ → Prop} (hR : ∀ τ r, R τ r r) {d d' : Db Row}
    (h : ∀ τ i, d'.row τ i = d.row τ i) : Evolves R d d' :=
  fun τ i r hr ↦ ⟨r, (h τ i).trans hr, hR τ r⟩

section Laws

variable {L : Law Row} {R : ∀ τ, Row τ → Row τ → Prop}

/-- What a law allows, a commit does. -/
theorem Law.Lawful.evolves_commit {σ : Store Row} (h : L.Lawful σ) (hrefl : ∀ τ r, R τ r r)
    (hdeletes : ∀ t τ i r, ¬ L.may t τ i (some r) none)
    (hmay : ∀ t τ i r r', L.good τ i r → L.may t τ i (some r) (some r') → R τ r r') (t : ℕ) :
    Evolves R σ.committed (σ.commit t).committed := by
  intro τ i r hr
  rcases h.commit_cases t τ i with ⟨hsame, -⟩ | ⟨-, hcommit⟩
  · exact ⟨r, hsame.trans hr, hrefl τ r⟩
  · rw [hr] at hcommit
    cases hr' : (σ.commit t).committed.row τ i with
    | none =>
      rw [hr'] at hcommit
      exact absurd hcommit (hdeletes t τ i r)
    | some r' =>
      rw [hr'] at hcommit
      exact ⟨r', rfl, hmay t τ i r r' (h.seen_good hr) hcommit⟩

/-- What a generated law allows lies in any preorder that contains its single steps. -/
theorem Law.le_of_generated {good : ∀ τ, ℕ → Row τ → Prop}
    {writes : ℕ → ∀ τ, Row τ → Row τ → Prop} {inserts : ℕ → ∀ τ, ℕ → Row τ → Prop}
    {hwrites : ∀ t τ i r r', good τ i r → writes t τ r r' → good τ i r'}
    {hinserts : ∀ t τ i r, inserts t τ i r → good τ i r} (hrefl : ∀ τ r, R τ r r)
    (htrans : ∀ τ r r' r'', R τ r r' → R τ r' r'' → R τ r r'')
    (hR : ∀ t τ i r r', good τ i r → writes t τ r r' → R τ r r') (t : ℕ) (τ : Tab) (i : ℕ)
    (r r' : Row τ) (hr : good τ i r)
    (h : (Law.generated good writes inserts hwrites hinserts).may t τ i (some r) (some r')) :
    R τ r r' := by
  have hstar : Relation.ReflTransGen (writes t τ) r r' := h
  clear h
  have hboth : R τ r r' ∧ good τ i r' := by
    induction hstar with
    | refl => exact ⟨hrefl τ r, hr⟩
    | tail _ hs ih =>
      exact ⟨htrans τ _ _ _ ih.1 (hR t τ i _ _ ih.2 hs), hwrites t τ i _ _ ih.2 hs⟩
  exact hboth.1

/-- The environment lets what is committed evolve, if every commit does. -/
theorem Rely.evolves {C : Contract Row Err Res} {t : ℕ} {σ σ' : Store Row}
    (hrefl : ∀ τ r, R τ r r) (htrans : ∀ τ r r' r'', R τ r r' → R τ r' r'' → R τ r r'')
    (hcommit : ∀ σ, C.inv σ → ∀ u, Evolves R σ.committed (σ.commit u).committed)
    (h : Rely C t σ σ') : Evolves R σ.committed σ'.committed := by
  refine h.stable (P := fun σ' ↦ Evolves R σ.committed σ'.committed)
    (fun σ₁ σ₂ h₁ _ hi hP ↦ hP.trans htrans ?_) (.refl hrefl _)
  cases hi with
  | tick c _ => exact .refl hrefl _
  | work u _ hw => exact .of_row_eq hrefl fun τ i ↦ by simpa using hw.committed τ i
  | commit u _ _ => exact hcommit σ₁ h₁ u

end Laws

namespace System

variable [DecidableEq Tab] [DecidableEq Key] {sys : System Row Err Key Ans Res Op}
  {C : Contract Row Err Res} {Post : List (Failure Row Err) → Except Err Res → Prop}
  {w w' : World Row Err Key Ans Res} {e : Event Err Ans Op} {R : ∀ τ, Row τ → Row τ → Prop}

/-- One step. -/
theorem evolves_step (hrefl : ∀ τ r, R τ r r)
    (hcommit : ∀ σ, C.inv σ → ∀ t, Evolves R σ.committed (σ.commit t).committed)
    (hw : Healthy sys C Post w) (hs : sys.step e w = some w') :
    Evolves R w.store.committed w'.store.committed := by
  rcases System.committed_step hw hs with ⟨-, hsame⟩ | ⟨t, -, -, -, -, -, hst⟩
  · exact .of_row_eq hrefl hsame
  · rw [hst]
    exact hcommit _ hw.inv t

/-- **The run lemma.** Whatever is committed stays, and evolves by `R`. -/
theorem evolves {allow : World Row Err Key Ans Res → Event Err Ans Op → Prop} {α : Type}
    {obs : World Row Err Key Ans Res → Event Err Ans Op → List α} {log : List α}
    (hrefl : ∀ τ r, R τ r r) (htrans : ∀ τ r r' r'', R τ r r' → R τ r' r'' → R τ r r'')
    (hcommit : ∀ σ, C.inv σ → ∀ t, Evolves R σ.committed (σ.commit t).committed)
    (hhealthy : ∀ w, sys.Reach allow w → Healthy sys C Post w)
    (h₀ : sys.Reach allow w) (h : sys.Trace allow obs w log w') :
    Evolves R w.store.committed w'.store.committed := by
  induction h with
  | refl => exact .refl hrefl _
  | step h _ hs ih =>
    exact ih.trans htrans (evolves_step hrefl hcommit (hhealthy _ (h.reach h₀)) hs)

end System

end ReadCommitted

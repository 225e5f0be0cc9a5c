import EasyBook.ReadCommitted.Adequacy

/-!
# Labels of fresh keys

The logic hands facts about results from one transaction of a session to the next, but no facts
about the store. What a row never changes can be known of it all the same: it may be taken to be
written on its key before the run begins. `Reach.labelled` says that this loses no run: for every
run there is a labelling of the keys under which each row that is inserted has the label of its key.
-/

namespace ReadCommitted

variable {Tab : Type} {Row : Tab → Type} {Err Key : Type} {Ask : Type} {Ans : Ask → Type}
  {Res Op : Type} [DecidableEq Tab] {β : Type}

namespace Store

variable {S : Schema Row Err} {σ σ' : Store Row} {t : ℕ} {τ : Tab}

theorem Rewritten.next {snapshot : Db Row} {ch : Row τ → Option (Option (Row τ))}
    (h : Rewritten S σ t τ snapshot ch σ') : σ'.next = σ.next := by
  rw [h.eq_put, put_next]

/-- A bulk statement draws no key. -/
theorem next_modify {snapshot : Db Row} {ch : Row τ → Option (Option (Row τ))} {rows : List (Row τ)}
    (h : σ.modify S t τ snapshot ch = .done (rows, σ')) : σ'.next = σ.next := by
  obtain ⟨_, σ₁, hr, hf⟩ := modify_eq_done h
  exact fire_induction (P := fun σ' ↦ σ'.next = σ.next) (fun _ _ _ _ _ _ _ _ _ hr hP ↦
    hr.next.trans hP) hf hr.next

/-- An insertion draws one. -/
theorem next_insert {r r' : Row τ} (h : σ.insert S t τ r = .done (r', σ')) :
    σ'.next = σ.next + 1 := by
  obtain ⟨_, rfl, _⟩ := insert_eq_done h
  rfl

end Store

variable [DecidableEq Key] {sys : System Row Err Key Ans Res Op} {w w' : World Row Err Key Ans Res}
  {e : Event Err Ans Op}

/-- No key is drawn twice. -/
theorem System.next_le (hs : sys.step e w = some w') : w.store.next ≤ w'.store.next := by
  obtain ⟨t, hs⟩ := System.step_cases hs
  generalize World.store w = σ at hs ⊢
  generalize World.store w' = σ' at hs ⊢
  cases hs with
  | same => exact le_refl σ.next
  | tick c => exact le_refl σ.next
  | modify h => exact (Store.next_modify h).ge
  | insert h => exact (Nat.le_succ σ.next).trans (Store.next_insert h).ge
  | commit => exact le_refl σ.next
  | abort => exact le_refl σ.next

/-- A row that is inserted has the label of its key. -/
def Labelled (S : Schema Row Err) (f : ∀ τ, Row τ → β) (ℓ : Tab → ℕ → β) (t : ℕ)
    (_ : List (Db Row)) (σ : Store Row) (τ : Tab) (r : Row τ) : Prop :=
  ∀ r' σ', σ.insert S t τ r = .done (r', σ') → ℓ τ σ.next = f τ r'

/-- The labels that a step needs, given those of the keys drawn before. -/
private theorem exists_labels (f : ∀ τ, Row τ → β) (ℓ : Tab → ℕ → β)
    (hs : sys.step e w = some w') :
    ∃ ℓ₁ : Tab → ℕ → β, (∀ τ i, i < w.store.next → ℓ₁ τ i = ℓ τ i) ∧
      ∀ ℓ' : Tab → ℕ → β, (∀ τ i, i < w'.store.next → ℓ' τ i = ℓ₁ τ i) →
        Accepted (Labelled sys.schema f ℓ') w e := by
  by_cases hins : ∃ t log x τ new k r σ, e = .run t ∧ w.phase t = .inside log x ∧
      x.prog = .insert τ new k ∧
      w.store.insert sys.schema t τ (new w.store.clock w.store.next) = .done (r, σ)
  · obtain ⟨t, log, x, τ, new, k, r, σ, rfl, hp, hprog, hi⟩ := hins
    have hnext : w'.store.next = w.store.next + 1 := by
      simp only [System.step, hp, System.advance, hprog, hi] at hs
      exact Option.some.inj hs ▸ Store.next_insert hi
    refine ⟨Function.update ℓ τ (Function.update (ℓ τ) w.store.next (f τ r)), fun τ' i hlt ↦ ?_,
      fun ℓ' h' ↦ ?_⟩
    · by_cases hτ : τ' = τ
      · subst hτ
        rw [Function.update_self, Function.update_of_ne (Nat.ne_of_lt hlt)]
      · rw [Function.update_of_ne hτ]
    · unfold Accepted
      simp only [hp, hprog]
      intro r' σ' hi'
      obtain ⟨rfl, _⟩ : r = r' ∧ σ = σ' := by simpa using hi.symm.trans hi'
      rw [h' τ _ (by omega), Function.update_self, Function.update_self]
  · refine ⟨ℓ, fun _ _ _ ↦ rfl, fun ℓ' _ ↦ ?_⟩
    unfold Accepted
    split
    · next t =>
      split
      · next log x hp =>
        split
        · next τ new k hprog =>
          exact fun r' σ' hi ↦ absurd ⟨t, log, x, τ, new, k, r', σ', rfl, hp, hprog, hi⟩ hins
        · trivial
      · trivial
    · trivial

/-- **Keys may be labelled in advance.** -/
theorem System.Reach.labelled [Inhabited β]
    {allow : World Row Err Key Ans Res → Event Err Ans Op → Prop} (f : ∀ τ, Row τ → β)
    (hw : sys.Reach allow w) : ∃ ℓ : Tab → ℕ → β,
      sys.Reach (fun w e ↦ allow w e ∧ Accepted (Labelled sys.schema f ℓ) w e) w := by
  -- the labels of keys not yet drawn are free
  suffices h : ∃ ℓ : Tab → ℕ → β, ∀ ℓ' : Tab → ℕ → β,
      (∀ τ i, i < w.store.next → ℓ' τ i = ℓ τ i) →
      sys.Reach (fun w e ↦ allow w e ∧ Accepted (Labelled sys.schema f ℓ') w e) w by
    obtain ⟨ℓ, hℓ⟩ := h
    exact ⟨ℓ, hℓ ℓ fun _ _ _ ↦ rfl⟩
  induction hw with
  | init => exact ⟨fun _ _ ↦ default, fun _ _ ↦ .init⟩
  | step _ ha hs ih =>
    obtain ⟨ℓ, hℓ⟩ := ih
    obtain ⟨ℓ₁, hold, hnew⟩ := exists_labels f ℓ hs
    exact ⟨ℓ₁, fun ℓ' h' ↦ .step (hℓ ℓ' fun τ i hi ↦
      (h' τ i (lt_of_lt_of_le hi (System.next_le hs))).trans (hold τ i hi)) ⟨ha, hnew ℓ' h'⟩ hs⟩

end ReadCommitted

import EasyBook.Machine.World

/-!
# Calls among others

`Task.Under` is the weakest precondition of a call between whose requests the others act: what they
may do to the state (`R`) may depend on what the call has exchanged so far, such as the locks that
it has been given. `Reach.under` is the rule: if every step of the others is one that the call
relies on, a call that starts under the precondition ends with `post`.
-/

namespace EasyBook.Machine

open EasyBook.Machine.Task

variable {Q : Type} {A : Q → Type} {ρ ρ' σ ω : Type}

/-- What has to hold for the rest of a call to end with `post`, if the others act by `R`. -/
def Task.Under (does : σ → (q : Q) → A q → σ → Prop) (R : List (Exchange Q A) → σ → σ → Prop)
    (post : List (Exchange Q A) → ρ → σ → Prop) :
    Task Q A ρ → List (Exchange Q A) → σ → Prop
  | .done r, h, s => ∀ s', R h s s' → post h r s'
  | .ask q k, h, s => ∀ s₁, R h s s₁ → ∀ a s₂, does s₁ q a s₂ →
      (k a).Under does R post (h ++ [⟨q, a⟩]) s₂

section Under

variable {does : σ → (q : Q) → A q → σ → Prop} {R : List (Exchange Q A) → σ → σ → Prop}
  {post : List (Exchange Q A) → ρ → σ → Prop} {h : List (Exchange Q A)} {s s' : σ}

/-- The precondition is not lost by what the others do. -/
theorem Task.Under.rely (htrans : ∀ h s s' s'', R h s s' → R h s' s'' → R h s s'')
    {p : Task Q A ρ} (hp : p.Under does R post h s) (hR : R h s s') :
    p.Under does R post h s' := by
  cases p with
  | done r => exact fun s'' hR' ↦ hp s'' (htrans _ _ _ _ hR hR')
  | ask q k => exact fun s₁ hR' ↦ hp s₁ (htrans _ _ _ _ hR hR')

theorem Task.Under.mono {post' : List (Exchange Q A) → ρ → σ → Prop} {p : Task Q A ρ}
    (hp : p.Under does R post h s) (himp : ∀ h r s, post h r s → post' h r s) :
    p.Under does R post' h s := by
  induction p generalizing h s with
  | done r => exact fun s' hR ↦ himp h r s' (hp s' hR)
  | ask q k ih => exact fun s₁ hR a s₂ hd ↦ ih a (hp s₁ hR a s₂ hd)

theorem Task.Under.bind (hrefl : ∀ h s, R h s s) {p : Task Q A ρ} {f : ρ → Task Q A ρ'}
    {post' : List (Exchange Q A) → ρ' → σ → Prop}
    (hp : p.Under does R (fun h r s ↦ (f r).Under does R post' h s) h s) :
    (p >>= f).Under does R post' h s := by
  induction p generalizing h s with
  | done r => exact hp s (hrefl h s)
  | ask q k ih => exact fun s₁ hR a s₂ hd ↦ ih a (hp s₁ hR a s₂ hd)

end Under

variable {M : Actions σ Q A ρ ω} {C : World σ Q A ρ ω → Event Q A ω → Prop}
  {w w' : World σ Q A ρ ω} {R : List (Exchange Q A) → σ → σ → Prop}
  {post : List (Exchange Q A) → ρ → σ → Prop}

variable (post) in
/-- A call that has started since is under its precondition, at any point of it. -/
theorem Reach.under (hrefl : ∀ h s, R h s s)
    (htrans : ∀ h s s' s'', R h s s' → R h s' s'' → R h s s'') {t : ℕ} {op : ω}
    (hfree : w.threads t = none)
    (hstart : ∀ w₁, Reach M C w w₁ → (M.task op).Under M.does R post [] w₁.state)
    (hothers : ∀ w₁ e w₂ th, Reach M C w w₁ → C w₁ e → Step M w₁ e w₂ → w₁.threads t = some th →
      th.op = op → (∀ x, e ≠ .exchange t x) → R th.history w₁.state w₂.state)
    (hrun : Reach M C w w') {th : Thread Q A ρ ω} (ht : w'.threads t = some th)
    (hop : th.op = op) : th.rest.Under M.does R post th.history w'.state := by
  induction hrun generalizing th with
  | init =>
    rw [hfree] at ht
    cases ht
  | @step w₁ w₂ e hrun hC h ih =>
    have hstep := h
    cases h with
    | @start t' op' ht' =>
      rcases update_eq_some ht with ⟨rfl, rfl⟩ | ⟨-, ht⟩
      · cases hop
        exact hstart _ (hrun.step hC hstep)
      · exact ih ht hop
    | @exchange t' op' h q k a s ht' hd =>
      rcases update_eq_some ht with ⟨rfl, rfl⟩ | ⟨hne, ht⟩
      · exact ih ht' hop _ (hrefl _ _) a s hd
      · refine (ih ht hop).rely htrans (hothers _ _ _ th hrun hC hstep ht hop ?_)
        rintro x ⟨⟩
        exact hne rfl
    | environment hs =>
      exact (ih ht hop).rely htrans (hothers _ _ _ th hrun hC hstep ht hop (by rintro x ⟨⟩))

end EasyBook.Machine

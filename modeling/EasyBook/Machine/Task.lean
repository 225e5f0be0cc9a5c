import Mathlib

/-!
# Calls that send requests

A call is a tree of requests (`Task`): it sends one, and carries on with the answer. What a request
does to the shared state, and which answers it may get, is a relation (`does`).

`Task.wp` is the weakest precondition of a call that runs alone, and `Task.Path` says what a call
may have exchanged on its way, whatever the state was like.
-/

namespace EasyBook.Machine

/-- A call with requests in `Q`, the answers `A`, and a result in `ρ`. -/
inductive Task (Q : Type) (A : Q → Type) (ρ : Type) : Type where
  /-- The call is over. -/
  | done (r : ρ)
  /-- Send a request, and carry on with its answer. -/
  | ask (q : Q) (k : A q → Task Q A ρ)

namespace Task

variable {Q : Type} {A : Q → Type} {ρ ρ' σ : Type}

/-- Run `p`, then what `f` makes of its result. -/
def bind : Task Q A ρ → (ρ → Task Q A ρ') → Task Q A ρ'
  | done r, f => f r
  | ask q k, f => ask q fun a ↦ (k a).bind f

instance : Monad (Task Q A) where
  pure := done
  bind := bind

/-- Send one request. -/
def request (q : Q) : Task Q A (A q) := ask q done

@[simp] theorem pure_eq (r : ρ) : (pure r : Task Q A ρ) = done r := rfl

@[simp] theorem done_bind (r : ρ) (f : ρ → Task Q A ρ') : (done r >>= f) = f r := rfl

@[simp] theorem ask_bind (q : Q) (k : A q → Task Q A ρ) (f : ρ → Task Q A ρ') :
    (ask q k >>= f) = ask q fun a ↦ k a >>= f := rfl

@[simp] theorem request_bind (q : Q) (f : A q → Task Q A ρ') :
    (request q >>= f) = ask q f := rfl

/-- Sequences of tasks may be bracketed as one likes. -/
theorem bind_assoc {ρ'' : Type} (p : Task Q A ρ) (f : ρ → Task Q A ρ') (g : ρ' → Task Q A ρ'') :
    (p >>= f >>= g) = p >>= fun r ↦ f r >>= g := by
  induction p with
  | done r => rfl
  | ask q k ih =>
    simp only [ask_bind, ih]

/-- A request with its answer. -/
abbrev Exchange (Q : Type) (A : Q → Type) : Type := (q : Q) × A q

/-! ### Running alone -/

/-- What has to hold for `p`, running alone, to end with `post`, which may speak of the exchanges
that `p` has made. -/
def wp (does : σ → (q : Q) → A q → σ → Prop) :
    Task Q A ρ → (List (Exchange Q A) → ρ → σ → Prop) → σ → Prop
  | done r, post, s => post [] r s
  | ask q k, post, s => ∀ a s', does s q a s' → (k a).wp does (fun h ↦ post (⟨q, a⟩ :: h)) s'

/-- A call that runs alone, from one state to another: the exchanges it makes, and what is left of
it. -/
inductive Steps (does : σ → (q : Q) → A q → σ → Prop) :
    σ → Task Q A ρ → List (Exchange Q A) → Task Q A ρ → σ → Prop where
  | refl (s : σ) (p : Task Q A ρ) : Steps does s p [] p s
  | ask {s s' s'' : σ} {q : Q} {a : A q} {k : A q → Task Q A ρ} {h : List (Exchange Q A)}
      {p : Task Q A ρ} (hd : does s q a s') (hk : Steps does s' (k a) h p s'') :
      Steps does s (ask q k) (⟨q, a⟩ :: h) p s''

/-- A call that runs alone to its end. -/
abbrev Runs (does : σ → (q : Q) → A q → σ → Prop) (s : σ) (p : Task Q A ρ)
    (h : List (Exchange Q A)) (r : ρ) (s' : σ) : Prop :=
  Steps does s p h (done r) s'

variable {does : σ → (q : Q) → A q → σ → Prop} {s s' : σ} {r : ρ}

/-- What a task's condition promises holds where its run ends. -/
theorem Runs.wp {p : Task Q A ρ} {h : List (Exchange Q A)}
    {post : List (Exchange Q A) → ρ → σ → Prop} (hr : Runs does s p h r s')
    (hp : p.wp does post s) : post h r s' := by
  unfold Runs at hr
  generalize he : done r = rest at hr
  induction hr generalizing post with
  | refl s p =>
    subst he
    exact hp
  | ask hd _ ih => exact ih (hp _ _ hd) he

/-- A run of the first part and steps of the second are steps of the whole. -/
theorem Runs.bind {p : Task Q A ρ} {f : ρ → Task Q A ρ'} {h h' : List (Exchange Q A)}
    {p' : Task Q A ρ'} {s'' : σ} (hp : Runs does s p h r s') (hf : Steps does s' (f r) h' p' s'') :
    Steps does s (p >>= f) (h ++ h') p' s'' := by
  unfold Runs at hp
  generalize he : done r = rest at hp
  induction hp with
  | refl s p =>
    subst he
    exact hf
  | ask hd _ ih => exact .ask hd (ih hf he)

theorem wp_done {post : List (Exchange Q A) → ρ → σ → Prop} :
    (done r : Task Q A ρ).wp does post s ↔ post [] r s := Iff.rfl

/-- A weaker demand is met where the stronger one is. -/
theorem wp_mono {p : Task Q A ρ} {post post' : List (Exchange Q A) → ρ → σ → Prop}
    (hp : p.wp does post s) (himp : ∀ h r s, post h r s → post' h r s) : p.wp does post' s := by
  induction p generalizing s post post' with
  | done r => exact himp [] r s hp
  | ask q k ih => exact fun a s' hd ↦ ih a (hp a s' hd) fun h ↦ himp _

/-- The condition of a sequence, through that of its first part. -/
theorem wp_bind {p : Task Q A ρ} {f : ρ → Task Q A ρ'}
    {post : List (Exchange Q A) → ρ' → σ → Prop}
    (hp : p.wp does (fun h r s ↦ (f r).wp does (fun h' ↦ post (h ++ h')) s) s) :
    (p >>= f).wp does post s := by
  induction p generalizing s post with
  | done r => exact hp
  | ask q k ih => exact fun a s' hd ↦ ih a (hp a s' hd)

/-- The states between calls when one is made after the other, the next one by `C` of its state and
its exchanges. -/
inductive Serially {ω : Type} (does : σ → (q : Q) → A q → σ → Prop) (task : ω → Task Q A ρ)
    (C : σ → ω → List (Exchange Q A) → Prop) (s₀ : σ) : σ → Prop where
  | init : Serially does task C s₀ s₀
  | call {s s' : σ} {op : ω} {h : List (Exchange Q A)} {r : ρ} (hs : Serially does task C s₀ s)
      (hr : Runs does s (task op) h r s') (hC : C s op h) : Serially does task C s₀ s'

/-- What holds at first and is kept by every call that meets `C` holds between calls. -/
theorem Serially.invariant {ω : Type} {task : ω → Task Q A ρ}
    {C : σ → ω → List (Exchange Q A) → Prop} {s₀ : σ} {I : σ → Prop} (h₀ : I s₀)
    (step : ∀ s op h r s', I s → Runs does s (task op) h r s' → C s op h → I s')
    (hs : Serially does task C s₀ s) : I s := by
  induction hs with
  | init => exact h₀
  | call _ hr hC ih => exact step _ _ _ _ _ ih hr hC

/-! ### What a call does first -/

/-- Given answers that are allowed by `K`, the call sends requests in `P` until it sends one in `D`
or ends with `post`. -/
def Until (P D : Q → Prop) (K : ∀ q, A q → Prop) (post : ρ → Prop) : Task Q A ρ → Prop
  | done r => post r
  | ask q k => D q ∨ P q ∧ ∀ a, K q a → (k a).Until P D K post

/-- A sequence obeys when both of its parts do. -/
theorem Until.bind {P D : Q → Prop} {K : ∀ q, A q → Prop} {mid : ρ → Prop} {post : ρ' → Prop}
    {p : Task Q A ρ} {f : ρ → Task Q A ρ'} (hp : p.Until P D K mid)
    (hf : ∀ r, mid r → (f r).Until P D K post) : (p >>= f).Until P D K post := by
  induction p with
  | done r => exact hf r hp
  | ask q k ih => exact hp.imp id fun ⟨hq, hk⟩ ↦ ⟨hq, fun a ha ↦ ih a (hk a ha)⟩

/-- A weaker demand on what is returned. -/
theorem Until.imp {P D : Q → Prop} {K : ∀ q, A q → Prop} {post post' : ρ → Prop} {p : Task Q A ρ}
    (hp : p.Until P D K post) (himp : ∀ r, post r → post' r) : p.Until P D K post' := by
  induction p with
  | done r => exact himp r hp
  | ask q k ih => exact Or.imp id (fun ⟨hq, hk⟩ ↦ ⟨hq, fun a ha ↦ ih a (hk a ha)⟩) hp

/-! ### Exchanges -/

/-- The exchanges that lead from one call to what is left of it. -/
inductive Path : Task Q A ρ → List (Exchange Q A) → Task Q A ρ → Prop where
  | nil (p : Task Q A ρ) : Path p [] p
  | cons {q : Q} {k : A q → Task Q A ρ} {a : A q} {h : List (Exchange Q A)} {p : Task Q A ρ}
      (hk : Path (k a) h p) : Path (ask q k) (⟨q, a⟩ :: h) p

variable {p p' : Task Q A ρ} {h : List (Exchange Q A)}

/-- A path is continued by one more answer. -/
theorem Path.snoc {q : Q} {k : A q → Task Q A ρ} (hp : Path p h (ask q k)) (a : A q) :
    Path p (h ++ [⟨q, a⟩]) (k a) := by
  generalize he : ask q k = rest at hp
  induction hp with
  | nil p => exact he ▸ .cons (.nil _)
  | cons _ ih => exact .cons (ih he)

/-- A task that is done goes no further. -/
theorem path_done {r : ρ} : Path (done r) h p ↔ h = [] ∧ p = done r := by
  constructor
  · rintro ⟨⟩
    exact ⟨rfl, rfl⟩
  · rintro ⟨rfl, rfl⟩
    exact .nil _

/-- A task that asks has an answer before it is done. -/
theorem path_ask_done {q : Q} {k : A q → Task Q A ρ} {r : ρ} :
    Path (ask q k) h (done r) ↔ ∃ a h', h = ⟨q, a⟩ :: h' ∧ Path (k a) h' (done r) := by
  constructor
  · intro hp
    cases hp with
    | cons hk => exact ⟨_, _, rfl, hk⟩
  · rintro ⟨a, h', rfl, hk⟩
    exact .cons hk

/-- A call made of two ends after the exchanges of both. -/
theorem path_bind_done {f : ρ → Task Q A ρ'} {r : ρ'} :
    Path (p >>= f) h (done r) ↔
      ∃ h₁ h₂ b, h = h₁ ++ h₂ ∧ Path p h₁ (done b) ∧ Path (f b) h₂ (done r) := by
  induction p generalizing h with
  | done b =>
    constructor
    · exact fun hp ↦ ⟨[], h, b, rfl, .nil _, hp⟩
    · rintro ⟨h₁, h₂, b', rfl, hb, hf⟩
      obtain ⟨rfl, hb'⟩ := path_done.1 hb
      cases hb'
      exact hf
  | ask q k ih =>
    rw [ask_bind, path_ask_done]
    constructor
    · rintro ⟨a, h', rfl, hp⟩
      obtain ⟨h₁, h₂, b, rfl, hb, hf⟩ := (ih a).1 hp
      exact ⟨⟨q, a⟩ :: h₁, h₂, b, rfl, .cons hb, hf⟩
    · rintro ⟨h₁, h₂, b, rfl, hb, hf⟩
      obtain ⟨a, h', rfl, hk⟩ := path_ask_done.1 hb
      exact ⟨a, h' ++ h₂, rfl, (ih a).2 ⟨h', h₂, b, rfl, hk, hf⟩⟩

end Task

end EasyBook.Machine

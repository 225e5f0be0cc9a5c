import EasyBook.ReadCommitted.Logic

/-!
# Soundness of the logic

`Healthy` is the invariant of a whole world: the store meets the contract's invariant, and every
session has its verification condition still to hold. A step of one session keeps its own condition
because of what `wp` asks at that node, and everybody else's because the step is one that their
conditions allow for (`wp_rely`). `adequate` is the induction over the run.

The constraint check needs no contract: `Reach.compatible` holds of every system.
-/

namespace ReadCommitted

variable {Tab : Type} {Row : Tab → Type} {Err Key : Type} {Ask : Type} {Ans : Ask → Type}
  {Res Op : Type} [DecidableEq Tab]
  {sys : System Row Err Key Ans Res Op} {C : Contract Row Err Res}
  {Post : List (Failure Row Err) → Except Err Res → Prop}

/-- The condition of a transaction under way: `F` if it fails, and `Q` of its result when it
commits. -/
def Txn.Holds (C : Contract Row Err Res) (S : Schema Row Err) (t : ℕ)
    (F : Failure Row Err → Prop) (Q : Res → Reading Row → List (Db Row) → Store Row → Prop)
    (σ : Store Row) (x : Txn Row Err Key Ans Res) : Prop :=
  match x.issued with
  | none => wp C S t F Q x.prog x.clocked x.reads σ
  | some (snapshot, c) =>
    match x.prog with
    | .modify τ ch k =>
      ∀ σ₁, Rely C t σ σ₁ → C.inv σ₁ →
        (∀ rows σ₂, σ₁.modify S t τ snapshot (ch snapshot c) = .done (rows, σ₂) →
          C.grant t x.reads σ₁ τ (ch snapshot c) →
          C.inv σ₂ ∧ wp C S t F Q (k rows) x.clocked x.reads σ₂) ∧
        ∀ e, σ₁.modify S t τ snapshot (ch snapshot c) = .failed e →
          F ⟨e, x.clocked, x.reads, σ₁.committed⟩
    | _ => False

/-- What a transaction owes, and what its session goes on with. -/
abbrev Handing (C : Contract Row Err Res) (t : ℕ) (G : Res → List (Db Row) → Prop) :
    Res → Reading Row → List (Db Row) → Store Row → Prop :=
  fun r clocked reads σ ↦ Committing C t r clocked reads σ ∧ G r reads

/-- The condition of a session that has seen `seen`. -/
def Phase.Holds (C : Contract Row Err Res) (S : Schema Row Err) (lost : Err → Bool)
    (Post : List (Failure Row Err) → Except Err Res → Prop) (t : ℕ) (seen : List (Db Row))
    (σ : Store Row) : Phase Row Err Key Ans Res → Prop
  | .idle => σ.Clean t ∧ seen = []
  | .outside log s => (∀ f ∈ log, C.failing f) ∧ σ.Clean t ∧ Safe C S lost Post t log seen s
  | .inside log x => ∃ (F : Failure Row Err → Prop) (G : Res → List (Db Row) → Prop),
      x.Holds C S t F (Handing C t G) σ ∧
      ((∀ f ∈ log, C.failing f) ∧
        ∀ r reads, G r reads → Safe C S lost Post t log reads (x.after (.ok r))) ∧
      ∀ f, F f ∨ lost f.error →
        C.failing f ∧ Safe C S lost Post t (log ++ [f]) seen (x.after (.error f.error))

theorem Txn.Holds.rely {S : Schema Row Err} {t : ℕ} {F : Failure Row Err → Prop}
    {Q : Res → Reading Row → List (Db Row) → Store Row → Prop}
    {σ σ' : Store Row} {x : Txn Row Err Key Ans Res} (h : x.Holds C S t F Q σ)
    (hr : Rely C t σ σ') : x.Holds C S t F Q σ' := by
  unfold Txn.Holds at h ⊢
  split at h
  · exact wp_rely h hr
  · split at h
    · exact fun σ₁ h₁ ↦ h σ₁ (hr.trans h₁)
    · exact h.elim

theorem Phase.Holds.interfere {S : Schema Row Err} {lost : Err → Bool} {t : ℕ}
    {seen : List (Db Row)} {σ σ' : Store Row} {p : Phase Row Err Key Ans Res}
    (h : p.Holds C S lost Post t seen σ) (hσ : C.inv σ) (hσ' : C.inv σ')
    (hr : p.isInside → C.rely t σ σ') (hi : Interfere C t σ σ') :
    p.Holds C S lost Post t seen σ' := by
  cases p with
  | idle => exact ⟨hi.clean h.1, h.2⟩
  | outside log s => exact ⟨h.1, hi.clean h.2.1, h.2.2⟩
  | inside log x =>
    obtain ⟨F, G, hx, hafter⟩ := h
    exact ⟨F, G, hx.rely (Relation.ReflTransGen.single ⟨hσ, hσ', hr rfl, hi⟩), hafter⟩

/-- The invariant of a whole world. -/
structure Healthy (sys : System Row Err Key Ans Res Op) (C : Contract Row Err Res)
    (Post : List (Failure Row Err) → Except Err Res → Prop)
    (w : World Row Err Key Ans Res) : Prop where
  /-- The store is in order. -/
  inv : C.inv w.store
  /-- So is every session. -/
  holds : ∀ t, (w.phase t).Holds C sys.schema sys.loses Post t (w.seen t) w.store

/-- The transactions under way, but for that of `t`, may rely on what becomes of the store. -/
def World.RelyOn (w : World Row Err Key Ans Res) (rely : ℕ → Store Row → Store Row → Prop)
    (t : Option ℕ) (σ : Store Row) : Prop :=
  ∀ u, some u ≠ t → (w.phase u).isInside → rely u w.store σ

/-- A step of session `t` that the others can stand. -/
theorem Healthy.set {w w' : World Row Err Key Ans Res} (h : Healthy sys C Post w) {t : ℕ}
    (hinv : C.inv w'.store)
    (hothers : w'.store = w.store ∨
      w.RelyOn C.rely (some t) w'.store ∧ ∀ u, u ≠ t → Interfere C u w.store w'.store)
    (hphase : ∀ u, u ≠ t → w'.phase u = w.phase u) (hseen : ∀ u, u ≠ t → w'.seen u = w.seen u)
    (ht : (w'.phase t).Holds C sys.schema sys.loses Post t (w'.seen t) w'.store) :
    Healthy sys C Post w' := by
  refine ⟨hinv, fun u ↦ ?_⟩
  by_cases hu : u = t
  · exact hu ▸ ht
  · rw [hphase u hu, hseen u hu]
    rcases hothers with he | ⟨hr, hi⟩
    · rw [he]
      exact h.holds u
    · exact (h.holds u).interfere h.inv hinv (hr u (by simpa using hu)) (hi u hu)

/-- The next step is granted: a bulk statement is executed under `grant`, everything else is
free. -/
def Granted (grant : ℕ → List (Db Row) → Store Row → ∀ τ, (Row τ → Option (Option (Row τ))) → Prop)
    (w : World Row Err Key Ans Res) : Event Err Ans Op → Prop
  | .run t =>
    match w.phase t with
    | .inside _ x =>
      match x.prog, x.issued with
      | .modify τ ch _, some (snapshot, c) => grant t x.reads w.store τ (ch snapshot c)
      | _, _ => True
    | _ => True
  | _ => True

instance {grant : ℕ → List (Db Row) → Store Row → ∀ τ, (Row τ → Option (Option (Row τ))) → Prop}
    [∀ t reads σ τ ch, Decidable (grant t reads σ τ ch)] (w : World Row Err Key Ans Res)
    (e : Event Err Ans Op) : Decidable (Granted grant w e) := by
  unfold Granted
  split
  · split
    · split <;> infer_instance
    · infer_instance
  · infer_instance

/-- The next step is accepted: a row is inserted under `accept`, everything else is free. -/
def Accepted (accept : ℕ → List (Db Row) → Store Row → ∀ τ, Row τ → Prop)
    (w : World Row Err Key Ans Res) : Event Err Ans Op → Prop
  | .run t =>
    match w.phase t with
    | .inside _ x =>
      match x.prog with
      | .insert τ new _ => accept t x.reads w.store τ (new w.store.clock w.store.next)
      | _ => True
    | _ => True
  | _ => True

instance {accept : ℕ → List (Db Row) → Store Row → ∀ τ, Row τ → Prop}
    [∀ t reads σ τ r, Decidable (accept t reads σ τ r)] (w : World Row Err Key Ans Res)
    (e : Event Err Ans Op) : Decidable (Accepted accept w e) := by
  unfold Accepted
  split
  · split
    · split <;> infer_instance
    · infer_instance
  · infer_instance

omit [DecidableEq Tab] in
/-- A weaker condition on bulk statements. -/
theorem Granted.mono
    {grant grant' : ℕ → List (Db Row) → Store Row → ∀ τ, (Row τ → Option (Option (Row τ))) → Prop}
    {w : World Row Err Key Ans Res} {e : Event Err Ans Op} (h : Granted grant w e)
    (hg : ∀ t reads σ τ ch, grant t reads σ τ ch → grant' t reads σ τ ch) : Granted grant' w e := by
  unfold Granted at h ⊢
  split
  · split
    · split
      · simp_all only
      · trivial
    · trivial
  · trivial

omit [DecidableEq Tab] in
/-- Where every bulk statement is granted, every step is. -/
theorem granted_true (w : World Row Err Key Ans Res) (e : Event Err Ans Op) :
    Granted (fun _ _ _ _ _ ↦ True) w e := by
  unfold Granted
  split
  · split
    · split <;> trivial
    · trivial
  · trivial

omit [DecidableEq Tab] in
/-- Where every insertion is accepted, every step is. -/
theorem accepted_true (w : World Row Err Key Ans Res) (e : Event Err Ans Op) :
    Accepted (fun _ _ _ _ _ ↦ True) w e := by
  unfold Accepted
  split
  · split
    · split <;> trivial
    · trivial
  · trivial

omit [DecidableEq Tab] in
/-- Where nothing is relied on, every step may be. -/
theorem relyOn_true (w : World Row Err Key Ans Res) (t : Option ℕ) (σ : Store Row) :
    w.RelyOn (fun _ _ _ ↦ True) t σ := fun _ _ _ ↦ trivial

omit [DecidableEq Tab] in
/-- A step that is accepted twice is accepted once under both conditions. -/
theorem Accepted.and {accept accept' : ℕ → List (Db Row) → Store Row → ∀ τ, Row τ → Prop}
    {w : World Row Err Key Ans Res} {e : Event Err Ans Op} (h : Accepted accept w e)
    (h' : Accepted accept' w e) :
    Accepted (fun t reads σ τ r ↦ accept t reads σ τ r ∧ accept' t reads σ τ r) w e := by
  unfold Accepted at h h' ⊢
  split
  · split
    · split
      · simp_all only [and_self]
      · trivial
    · trivial
  · trivial

namespace Healthy

/-- A transaction about to commit is ready, and its answer is true. -/
theorem committing {w : World Row Err Key Ans Res} {t : ℕ} {r : Res} {reads : List (Db Row)}
    (h : Healthy sys C Post w) (hr : w.returning t = some (r, reads)) :
    C.ready t w.store ∧ C.answers t r reads w.store := by
  have ht := h.holds t
  unfold World.returning at hr
  split at hr
  · next log x hp =>
    rw [hp] at ht
    obtain ⟨F, G, hx, _⟩ := ht
    obtain ⟨prog, issued, clocked, reads', after⟩ := x
    split at hr
    · next r' hprog hissued =>
      obtain rfl : prog = _ := hprog
      obtain rfl : issued = _ := hissued
      obtain ⟨rfl, rfl⟩ : r' = r ∧ reads' = reads := by simpa using hr
      exact (hx _ (Rely.refl C t w.store) h.inv).1
    · cases hr
  · cases hr

/-- What is known of failed attempts is known of each. -/
theorem failing {w : World Row Err Key Ans Res} {t : ℕ} {f : Failure Row Err}
    (h : Healthy sys C Post w) (hf : f ∈ w.failures t) : C.failing f := by
  have ht := h.holds t
  unfold World.failures at hf
  split at hf
  · cases hf
  · next hp =>
    rw [hp] at ht
    exact ht.1 f hf
  · next hp =>
    rw [hp] at ht
    obtain ⟨_, _, _, ⟨hlog, _⟩, _⟩ := ht
    exact hlog f hf

/-- A session that is over meets its postcondition. -/
theorem result {w : World Row Err Key Ans Res} {t : ℕ} {r : Except Err Res}
    (h : Healthy sys C Post w) (hr : w.result t = some r) : Post (w.failures t) r := by
  have ht := h.holds t
  unfold World.result at hr
  split at hr
  · next log r' hp =>
    obtain rfl := Option.some.inj hr
    rw [hp] at ht
    unfold World.failures
    rw [hp]
    exact ht.2.2
  · cases hr

variable {w w' : World Row Err Key Ans Res} {t : ℕ} {log : List (Failure Row Err)}
  {x : Txn Row Err Key Ans Res}

omit [DecidableEq Tab] in
private theorem phase_setPhase (w : World Row Err Key Ans Res) (t : ℕ)
    (p : Phase Row Err Key Ans Res) :
    (w.setPhase t p).phase t = p ∧ ∀ u, u ≠ t → (w.setPhase t p).phase u = w.phase u :=
  ⟨Function.update_self .., fun _ hu ↦ Function.update_of_ne hu ..⟩

/-- Session `t` moves on without touching the store. -/
private theorem move (h : Healthy sys C Post w) {p : Phase Row Err Key Ans Res}
    (hp : p.Holds C sys.schema sys.loses Post t (w.seen t) w.store) :
    Healthy sys C Post (w.setPhase t p) :=
  h.set (t := t) h.inv (Or.inl rfl) (phase_setPhase w t p).2 (fun _ _ ↦ rfl)
    (by rwa [(phase_setPhase w t p).1])

/-- Session `t` moves on with work of its own. -/
private theorem work (h : Healthy sys C Post w) {σ : Store Row} (hσ : C.inv σ)
    (hw : Store.WorkBy t w.store σ) (hr : w.RelyOn C.rely (some t) σ)
    {p : Phase Row Err Key Ans Res} (hp : p.Holds C sys.schema sys.loses Post t (w.seen t) σ) :
    Healthy sys C Post ({ w with store := σ }.setPhase t p) :=
  h.set (t := t) hσ (Or.inr ⟨hr, fun _ hu ↦ .work t (Ne.symm hu) hw⟩) (phase_setPhase _ t p).2
    (fun _ _ ↦ rfl) (by rw [(phase_setPhase _ t p).1]; exact hp)

private theorem rollback (h : Healthy sys C Post w)
    (hr : w.RelyOn C.rely (some t) (w.store.abort t))
    {F : Failure Row Err → Prop} (hlog : ∀ f ∈ log, C.failing f)
    (hx : ∀ f, F f ∨ sys.loses f.error → C.failing f ∧
      Safe C sys.schema sys.loses Post t (log ++ [f]) (w.seen t) (x.after (.error f.error)))
    {e : Err}
    (hf : F ⟨e, x.clocked, x.reads, w.store.committed⟩ ∨ sys.loses e) :
    Healthy sys C Post (w.rollback t log x e) := by
  refine h.set (t := t) (C.inv_abort h.inv) (Or.inr ⟨hr, fun u hu ↦ ?_⟩) (phase_setPhase _ t _).2
    (fun _ _ ↦ rfl) ?_
  · exact .work t (Ne.symm hu) Store.workBy_abort
  · rw [World.rollback, (phase_setPhase _ t _).1]
    obtain ⟨hf, hsafe⟩ := hx ⟨e, x.clocked, x.reads, w.store.committed⟩ hf
    refine ⟨fun f' hf' ↦ ?_, Store.clean_abort, hsafe⟩
    rcases List.mem_append.1 hf' with hf' | hf'
    · exact hlog f' hf'
    · exact List.mem_singleton.1 hf' ▸ hf

private theorem commit (h : Healthy sys C Post w)
    (hrely : w.RelyOn C.rely (some t) (w.store.commit t)) {r : Res}
    {G : Res → List (Db Row) → Prop}
    (hx : (∀ f ∈ log, C.failing f) ∧
      ∀ r reads, G r reads → Safe C sys.schema sys.loses Post t log reads (x.after (.ok r)))
    (hr : C.ready t w.store) (hg : G r x.reads) :
    Healthy sys C Post (w.commit t log x r) := by
  refine h.set (t := t) (C.inv_commit h.inv hr) (Or.inr ⟨hrely, fun u hu ↦ ?_⟩)
    (phase_setPhase _ t _).2 (fun u hu ↦ Function.update_of_ne hu ..) ?_
  · exact .commit t (Ne.symm hu) hr
  · have hseen : (w.commit t log x r).seen t = x.reads := Function.update_self ..
    have hphase : (w.commit t log x r).phase t = .outside log (x.after (.ok r)) :=
      Function.update_self ..
    rw [hphase, hseen]
    exact ⟨hx.1, Store.clean_commit, hx.2 r x.reads hg⟩

variable [DecidableEq Key]

/-- A step inside a transaction. -/
private theorem advance (h : Healthy sys C Post w) (hp : w.phase t = .inside log x)
    (hg : Granted C.grant w (.run t : Event Err Ans Op))
    (ha : Accepted C.accept w (.run t : Event Err Ans Op)) (hs : sys.advance w t log x = some w')
    (hr : w.RelyOn C.rely (some t) w'.store) : Healthy sys C Post w' := by
  have ht := h.holds t
  rw [hp] at ht
  obtain ⟨F, G, hx, hok, herr⟩ := ht
  unfold Granted at hg
  unfold Accepted at ha
  simp only [hp] at hg ha
  obtain ⟨prog, issued, clocked, reads, after⟩ := x
  have hrefl := Rely.refl C t w.store
  -- The condition of the program was proved for every state the others may leave, this one too.
  cases prog with
  | ret r =>
    obtain rfl := Option.some.inj hs
    cases issued with
    | none => exact h.commit hr hok (hx _ hrefl h.inv).1.1 (hx _ hrefl h.inv).2
    | some i => exact hx.elim
  | throw e =>
    obtain rfl := Option.some.inj hs
    cases issued with
    | none => exact h.rollback hr hok.1 herr (Or.inl (hx _ hrefl h.inv))
    | some i => exact hx.elim
  | now k =>
    obtain rfl := Option.some.inj hs
    cases issued with
    | none => exact h.move ⟨F, G, hx _ hrefl h.inv, hok, herr⟩
    | some i => exact hx.elim
  | ask q k => cases hs
  | select k =>
    obtain rfl := Option.some.inj hs
    cases issued with
    | none => exact h.move ⟨F, G, hx _ hrefl h.inv, hok, herr⟩
    | some i => exact hx.elim
  | lock key k =>
    simp only [System.advance] at hs
    split at hs
    · obtain rfl := Option.some.inj hs
      cases issued with
      | none =>
        exact h.set (t := t) h.inv (Or.inl rfl) (phase_setPhase _ t _).2 (fun _ _ ↦ rfl)
          (by rw [(phase_setPhase _ t _).1]; exact ⟨F, G, hx, hok, herr⟩)
      | some i => exact hx.elim
    · cases hs
  | modify τ ch k =>
    -- The first step of an update takes the snapshot, the second one writes.
    cases issued with
    | none =>
      obtain rfl := Option.some.inj hs
      exact h.move ⟨F, G, fun σ₁ h₁ hσ₁ ↦ hx _ hrefl h.inv σ₁ h₁ hσ₁, hok, herr⟩
    -- That the write is granted is what the contract demands of the step.
    | some i =>
      obtain ⟨hdone, hfail⟩ := hx _ hrefl h.inv
      simp only [System.advance] at hs
      split at hs
      · cases hs
      · next e he =>
        obtain rfl := Option.some.inj hs
        exact h.rollback hr hok.1 herr (Or.inl (hfail e he))
      · next rows σ he =>
        obtain rfl := Option.some.inj hs
        obtain ⟨hσ, hk⟩ := hdone rows σ he hg
        exact h.work hσ (Store.workBy_modify he) hr ⟨F, G, hk, hok, herr⟩
  | insert τ new k =>
    cases issued with
    | none =>
      obtain ⟨hdone, hfail⟩ := hx _ hrefl h.inv
      simp only [System.advance] at hs
      split at hs
      · cases hs
      · next e he =>
        obtain rfl := Option.some.inj hs
        exact h.rollback hr hok.1 herr (Or.inl (hfail e he))
      · next r σ he =>
        obtain rfl := Option.some.inj hs
        obtain ⟨hσ, hk⟩ := hdone r σ he ha
        exact h.work hσ (Store.workBy_insert he) hr ⟨F, G, hk, hok, herr⟩
    | some i => exact hx.elim

/-- Every step keeps the invariant of the world. -/
theorem step (h : Healthy sys C Post w) {e : Event Err Ans Op}
    (hserv : ∀ t op, e = .call t op → Safe C sys.schema sys.loses Post t [] [] (sys.service op))
    (hg : Granted C.grant w e) (ha : Accepted C.accept w e) (hs : sys.step e w = some w')
    (hr : w.RelyOn C.rely e.session w'.store) : Healthy sys C Post w' := by
  -- What each event does to its own session; the others only see that the store moves on.
  cases e with
  | tick c =>
    simp only [System.step] at hs
    split at hs
    · next hc =>
      obtain rfl := Option.some.inj hs
      have hinv := C.inv_tick h.inv hc
      exact ⟨hinv, fun u ↦ (h.holds u).interfere h.inv hinv (hr u (by simp [Event.session]))
        (.tick c hc)⟩
    · cases hs
  | call t op =>
    have ht := h.holds t
    simp only [System.step] at hs
    split at hs
    · next hp =>
      obtain rfl := Option.some.inj hs
      rw [hp] at ht
      -- A call begins with a clean log, and its service is safe.
      refine h.move ⟨fun _ hf ↦ (nomatch hf), ht.1, ?_⟩
      rw [ht.2]
      exact hserv t op rfl
    · cases hs
  | answer t oracle =>
    have ht := h.holds t
    simp only [System.step] at hs
    split at hs
    · next log q k hp =>
      obtain rfl := Option.some.inj hs
      rw [hp] at ht
      exact h.move ⟨ht.1, ht.2.1, ht.2.2 (oracle q)⟩
    · next log x hp =>
      rw [hp] at ht
      obtain ⟨prog, issued, clocked, reads, after⟩ := x
      split at hs
      · next q k hq =>
        obtain rfl := Option.some.inj hs
        obtain rfl : prog = _ := hq
        obtain ⟨F, G, hx, hok, herr⟩ := ht
        cases issued with
        | none => exact h.move ⟨F, G, hx (oracle q), hok, herr⟩
        | some i => exact hx.elim
      · cases hs
    · cases hs
  | run t =>
    have ht := h.holds t
    simp only [System.step] at hs
    split at hs
    · next log k hp =>
      obtain rfl := Option.some.inj hs
      rw [hp] at ht
      exact h.move ⟨ht.1, ht.2.1, ht.2.2 _⟩
    · next log p k hp =>
      obtain rfl := Option.some.inj hs
      rw [hp] at ht
      -- A transaction begins on the invariant, with nothing written.
      obtain ⟨hlog, hclean, F, G, hp, hok, herr⟩ := ht
      exact h.move ⟨F, G, hp _ h.inv hclean, ⟨hlog, hok⟩, herr⟩
    · next log x hp => exact h.advance hp hg ha hs hr
    · cases hs
  | lose t e =>
    have ht := h.holds t
    simp only [System.step] at hs
    split at hs
    · next log x hp =>
      rw [hp] at ht
      split at hs
      · next he =>
        obtain rfl := Option.some.inj hs
        obtain ⟨F, G, _, hok, herr⟩ := ht
        exact h.rollback hr hok.1 herr (Or.inr he)
      · cases hs
    · cases hs

end Healthy

variable [DecidableEq Key]

/-- **Soundness of the logic.** If every call that a run may make is safe, and its steps are
granted, accepted and relied on, every world reached is healthy. -/
theorem adequate {allow : World Row Err Key Ans Res → Event Err Ans Op → Prop}
    (hinit : C.inv (Store.init Row))
    (hserv : ∀ w t op, allow w (.call t op) →
      Safe C sys.schema sys.loses Post t [] [] (sys.service op))
    (hgrant : ∀ w e, allow w e → Granted C.grant w e)
    (haccept : ∀ w e, allow w e → Accepted C.accept w e)
    (hrely : ∀ w e w', allow w e → sys.step e w = some w' → w.RelyOn C.rely e.session w'.store)
    {w : World Row Err Key Ans Res} (hw : sys.Reach allow w) : Healthy sys C Post w := by
  induction hw with
  | init =>
    refine ⟨hinit, fun t ↦ ⟨fun τ i ⟨x, hx⟩ ↦ ?_, rfl⟩⟩
    cases hx
  | step _ ha hs ih =>
    exact ih.step (fun t op he ↦ hserv _ t op (he ▸ ha)) (hgrant _ _ ha) (haccept _ _ ha) hs
      (hrely _ _ _ ha hs)

/-! ### The constraint, over whole runs -/

/-- What one step does to the store. -/
inductive StoreStep (S : Schema Row Err) (t : ℕ) : Store Row → Store Row → Prop where
  /-- Nothing. -/
  | same (σ : Store Row) : StoreStep S t σ σ
  /-- Time passes. -/
  | tick (σ : Store Row) (c : ℤ) : StoreStep S t σ (σ.tick c)
  /-- A bulk statement of `t` is carried out. -/
  | modify {σ σ' : Store Row} {τ : Tab} {snapshot : Db Row}
      {ch : Row τ → Option (Option (Row τ))} {rows : List (Row τ)}
      (h : σ.modify S t τ snapshot ch = .done (rows, σ')) : StoreStep S t σ σ'
  /-- An insertion of `t` is carried out. -/
  | insert {σ σ' : Store Row} {τ : Tab} {r r' : Row τ}
      (h : σ.insert S t τ r = .done (r', σ')) : StoreStep S t σ σ'
  /-- `t` commits. -/
  | commit (σ : Store Row) : StoreStep S t σ (σ.commit t)
  /-- `t` is rolled back. -/
  | abort (σ : Store Row) : StoreStep S t σ (σ.abort t)

namespace System

variable {w w' : World Row Err Key Ans Res}

theorem advance_cases {t : ℕ} {log : List (Failure Row Err)} {x : Txn Row Err Key Ans Res}
    (hs : sys.advance w t log x = some w') : StoreStep sys.schema t w.store w'.store := by
  unfold advance at hs
  split at hs
  · exact Option.some.inj hs ▸ .commit _
  · exact Option.some.inj hs ▸ .abort _
  · exact Option.some.inj hs ▸ .same _
  · cases hs
  · exact Option.some.inj hs ▸ .same _
  · split at hs
    · exact Option.some.inj hs ▸ .same _
    · cases hs
  · split at hs
    · exact Option.some.inj hs ▸ .same _
    · split at hs
      · cases hs
      · exact Option.some.inj hs ▸ .abort _
      · next he => exact Option.some.inj hs ▸ .modify he
  · split at hs
    · cases hs
    · exact Option.some.inj hs ▸ .abort _
    · next he => exact Option.some.inj hs ▸ .insert he

theorem step_cases {e : Event Err Ans Op} (hs : sys.step e w = some w') :
    ∃ t, StoreStep sys.schema t w.store w'.store := by
  unfold step at hs
  split at hs
  · split at hs
    · exact ⟨0, Option.some.inj hs ▸ .tick _ _⟩
    · cases hs
  · split at hs
    · exact ⟨0, Option.some.inj hs ▸ .same _⟩
    · cases hs
  · split at hs
    · exact ⟨0, Option.some.inj hs ▸ .same _⟩
    · split at hs
      · exact ⟨0, Option.some.inj hs ▸ .same _⟩
      · cases hs
    · cases hs
  · next t =>
    split at hs
    · exact ⟨t, Option.some.inj hs ▸ .same _⟩
    · exact ⟨t, Option.some.inj hs ▸ .same _⟩
    · exact ⟨t, advance_cases hs⟩
    · cases hs
  · next t e =>
    split at hs
    · split at hs
      · exact ⟨t, Option.some.inj hs ▸ .abort _⟩
      · cases hs
    · cases hs

/-- A transaction that returns commits. -/
theorem store_of_returning {t : ℕ} {r : Res} {reads : List (Db Row)}
    (hr : w.returning t = some (r, reads)) (hs : sys.step (.run t) w = some w') :
    w'.store = w.store.commit t := by
  unfold World.returning at hr
  split at hr
  · next log x hp =>
    obtain ⟨prog, issued, clocked, reads', after⟩ := x
    split at hr
    · next r' hprog hissued =>
      obtain rfl : prog = _ := hprog
      simp only [System.step, hp, System.advance] at hs
      exact Option.some.inj hs ▸ rfl
    · cases hr
  · cases hr

/-- **The constraint holds in every reachable world**, whatever the services do. -/
theorem Reach.compatible {allow : World Row Err Key Ans Res → Event Err Ans Op → Prop}
    (hw : sys.Reach allow w) : Compatible sys.schema w.store := by
  induction hw with
  | init => exact Compatible.init sys.schema
  | step _ _ hs ih =>
    obtain ⟨t, hs⟩ := step_cases hs
    generalize World.store _ = σ at hs ih
    generalize World.store _ = σ' at hs
    cases hs with
    | same => exact ih
    | tick c => exact ih.tick c
    | modify h => exact ih.modify h
    | insert h => exact ih.insert h
    | commit => exact ih.commit t
    | abort => exact ih.abort t

end System

end ReadCommitted

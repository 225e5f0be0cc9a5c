import EasyBook.ReadCommitted.Sequential

/-!
# Serial runs

Runs in which a call is made only when the one before is over. `System.Serving` are the worlds while
one call is served, `System.Serial` those between two calls, and `Terms` says which calls are made,
which answers they get and which of their transactions they may lose.

In such a run the multi-version store is a plain database. `Session.serves` is the weakest
precondition of a call over it; `Serving.sound` reads a call's outcome off that, and
`Serial.invariant` what every call preserves. `exists_served` is the converse of the first: a call
that is made in a quiet world comes to an end.
-/

namespace ReadCommitted

variable {Tab : Type} {Row : Tab → Type} {Err Key : Type} {Ask : Type} {Ans : Ask → Type}
  {Res Op : Type}

/-- What may happen in a serial run. -/
structure Terms (Row : Tab → Type) (Err Key : Type) {Ask : Type} (Ans : Ask → Type)
    (Res Op : Type) where
  /-- The calls that may be made in a state. -/
  call : Db Row → Op → Prop
  /-- The answers that a call may get, by what is committed. -/
  may : Op → Db Row → ∀ q, Ans q → Prop
  /-- The transactions that a call may lose, by what is committed. -/
  lose : Op → Db Row → Prog Row Err Key Ans Res → Err → Prop

namespace World

/-- What session `t` is waiting to be told. -/
def asks (w : World Row Err Key Ans Res) (t : ℕ) : Option Ask :=
  match w.phase t with
  | .outside _ (.ask q _) => some q
  | .inside _ x =>
    match x.prog with
    | .ask q _ => some q
    | _ => none
  | _ => none

/-- The transaction that session `t` is about to begin. -/
def begins (w : World Row Err Key Ans Res) (t : ℕ) : Option (Prog Row Err Key Ans Res) :=
  match w.phase t with
  | .outside _ (.attempt p _) => some p
  | _ => none

/-- Nothing is under way. -/
structure Quiet (w : World Row Err Key Ans Res) : Prop where
  clean : ∀ t, w.store.Clean t
  locks : ∀ key, w.locks key = none

/-- At the start nothing is under way. -/
theorem quiet_init : (init : World Row Err Key Ans Res).Quiet :=
  ⟨fun _ _ _ ⟨_, hx⟩ ↦ (nomatch hx), fun _ ↦ rfl⟩

/-- The world in which the rows of `d` are committed and nobody has been called. -/
def holding (d : Db Row) : World Row Err Key Ans Res :=
  { (init : World Row Err Key Ans Res) with store := .holding d }

/-- Nor where a database is given. -/
theorem quiet_holding (d : Db Row) : (holding d : World Row Err Key Ans Res).Quiet :=
  ⟨fun _ _ _ ⟨_, hx⟩ ↦ (nomatch hx), fun _ ↦ rfl⟩

end World

variable [DecidableEq Tab] [DecidableEq Key]

namespace System

variable (sys : System Row Err Key Ans Res Op) (T : Terms Row Err Key Ans Res Op)

/-- The worlds while session `t`, called with `op` in `w₀`, is served; the transaction it has begun
last is kept beside. -/
inductive Serving (t : ℕ) (op : Op) (w₀ : World Row Err Key Ans Res) :
    Option (Prog Row Err Key Ans Res) → World Row Err Key Ans Res → Prop
  | call {w} : sys.step (.call t op) w₀ = some w → Serving t op w₀ none w
  | tick {cur w w' c} : Serving t op w₀ cur w → sys.step (.tick c) w = some w' →
      Serving t op w₀ cur w'
  | run {cur w w'} : Serving t op w₀ cur w → sys.step (.run t) w = some w' →
      Serving t op w₀ (w.begins t <|> cur) w'
  | answer {cur w w' oracle} : Serving t op w₀ cur w →
      (∀ q, w.asks t = some q → T.may op w.store.committed q (oracle q)) →
      sys.step (.answer t oracle) w = some w' → Serving t op w₀ cur w'
  | lose {p w w' e} : Serving t op w₀ (some p) w → T.lose op w.store.committed p e →
      sys.step (.lose t e) w = some w' → Serving t op w₀ (some p) w'

/-- The worlds between the calls of a serial run. -/
inductive Serial : World Row Err Key Ans Res → Prop
  | init : Serial World.init
  | tick {w w' c} : Serial w → sys.step (.tick c) w = some w' → Serial w'
  | served {w₀ w t op cur r} : Serial w₀ → T.call w₀.store.committed op →
      sys.Serving T t op w₀ cur w → w.result t = some r → Serial w

end System

/-! ### The calls -/

namespace Session

/-- The weakest precondition of a call that nobody disturbs and that is made at `since`. A
transaction that fails leaves the rows as they were, though keys may have been drawn. -/
def serves (S : Schema Row Err) (since : ℤ) (may : Db Row → ∀ q, Ans q → Prop)
    (lose : Db Row → Prog Row Err Key Ans Res → Err → Prop) (Q : Except Err Res → Db Row → Prop) :
    Session Row Err Key Ans Res → Db Row → Prop
  | .done r, d => Q r d
  | .now k, d => ∀ c, since ≤ c → (k c).serves S since may lose Q d
  | .ask q k, d => ∀ a, may d q a → (k a).serves S since may lose Q d
  | .attempt p k, d =>
    p.solo S (fun q a ↦ ∃ d', d'.row = d.row ∧ may d' q a) since
      (fun e ↦ ∀ d', d'.row = d.row → (k (.error e)).serves S since may lose Q d')
      (fun r d' ↦ (k (.ok r)).serves S since may lose Q d') d ∧
    ∀ e d', d'.row = d.row → lose d' p e → (k (.error e)).serves S since may lose Q d'

omit [DecidableEq Key] in
/-- A weaker demand is met where the stronger one is. -/
theorem serves_mono {S : Schema Row Err} {since : ℤ} {may : Db Row → ∀ q, Ans q → Prop}
    {lose : Db Row → Prog Row Err Key Ans Res → Err → Prop}
    {Q Q' : Except Err Res → Db Row → Prop} (hQ : ∀ r d, Q r d → Q' r d)
    {s : Session Row Err Key Ans Res} {d : Db Row} (h : s.serves S since may lose Q d) :
    s.serves S since may lose Q' d := by
  induction s generalizing d with
  | done r => exact hQ r d h
  | now k ih => exact fun c hc ↦ ih c (h c hc)
  | ask q k ih => exact fun a ha ↦ ih a (h a ha)
  | attempt p k ih =>
    exact ⟨Prog.solo_mono (fun e he d' hd' ↦ ih _ (he d' hd')) (fun r d' hr ↦ ih _ hr) h.1,
      fun e d' hd' hl ↦ ih _ (h.2 e d' hd' hl)⟩

end Session

namespace System

variable {sys : System Row Err Key Ans Res Op} {T : Terms Row Err Key Ans Res Op} {since : ℤ}
  {t : ℕ} {op : Op} {w₀ w w' : World Row Err Key Ans Res} {Q : Except Err Res → Db Row → Prop}
  {cur : Option (Prog Row Err Key Ans Res)}

/-- Call `op`, made at `since`, is on its way to `Q`. -/
abbrev Heads (sys : System Row Err Key Ans Res Op) (T : Terms Row Err Key Ans Res Op) (since : ℤ)
    (op : Op) (Q : Except Err Res → Db Row → Prop) : Session Row Err Key Ans Res → Db Row → Prop :=
  Session.serves sys.schema since (T.may op) (fun d p e ↦ sys.loses e = true ∧ T.lose op d p e) Q

/-- What is known of the transaction under way: it began as `p` when the rows were those of `d`. -/
structure Underway (sys : System Row Err Key Ans Res Op) (T : Terms Row Err Key Ans Res Op)
    (since : ℤ) (t : ℕ) (op : Op) (Q : Except Err Res → Db Row → Prop) (σ : Store Row)
    (x : Txn Row Err Key Ans Res) (p : Prog Row Err Key Ans Res) (d : Db Row) : Prop where
  /-- Nothing was committed since. -/
  rows : σ.committed.row = d.row
  /-- Only bulk statements are issued, and nothing was written since. -/
  issued : ∀ snapshot c, x.issued = some (snapshot, c) → snapshot = σ.view (some t) ∧
    ∃ τ ch k, x.prog = .modify τ ch k
  /-- The rest of the transaction is on its way. -/
  solo : x.prog.solo sys.schema (fun q a ↦ ∃ d', d'.row = d.row ∧ T.may op d' q a) since
    (fun e ↦ ∀ d', d'.row = d.row → sys.Heads T since op Q (x.after (.error e)) d')
    (fun r d' ↦ sys.Heads T since op Q (x.after (.ok r)) d') (σ.view (some t))
  /-- So is what follows if it is lost. -/
  lost : ∀ e d', d'.row = d.row → sys.loses e = true ∧ T.lose op d' p e →
    sys.Heads T since op Q (x.after (.error e)) d'

/-- What is known of the session that is served. -/
def Attends (sys : System Row Err Key Ans Res Op) (T : Terms Row Err Key Ans Res Op)
    (since : ℤ) (t : ℕ) (op : Op) (Q : Except Err Res → Db Row → Prop) (σ : Store Row)
    (cur : Option (Prog Row Err Key Ans Res)) : Phase Row Err Key Ans Res → Prop
  | .idle => False
  | .outside _ s => σ.Clean t ∧ sys.Heads T since op Q s σ.committed
  | .inside _ x => ∃ p d, cur = some p ∧ Underway sys T since t op Q σ x p d

/-- **What is known while a call is served.** -/
structure Attending (sys : System Row Err Key Ans Res Op) (T : Terms Row Err Key Ans Res Op)
    (since : ℤ) (t : ℕ) (op : Op) (Q : Except Err Res → Db Row → Prop)
    (cur : Option (Prog Row Err Key Ans Res)) (w : World Row Err Key Ans Res) : Prop where
  alone : w.store.Alone t
  since_le : since ≤ w.store.clock
  locks : ∀ key, w.locks key = none ∨ w.locks key = some t
  /-- Locks are held inside transactions only. -/
  unlocked : ∀ log s, w.phase t = .outside log s → ∀ key, w.locks key = none
  phase : sys.Attends T since t op Q w.store cur (w.phase t)

namespace Attending

omit [DecidableEq Tab] [DecidableEq Key] in
private theorem phase_setPhase (w : World Row Err Key Ans Res) (t : ℕ)
    (p : Phase Row Err Key Ans Res) : (w.setPhase t p).phase t = p :=
  Function.update_self _ _ _

omit [DecidableEq Tab] in
/-- Work of a transaction that is still open is not committed. -/
private theorem committed_row {σ σ' : Store Row} (h : Store.WorkBy t σ σ') :
    σ'.committed.row = σ.committed.row := by
  funext τ i
  rw [Store.view_row, Store.view_row, Cell.seen_none, Cell.seen_none, h.committed]

omit [DecidableEq Key] in
/-- Between transactions nothing is under way. -/
theorem quiet (h : sys.Attending T since t op Q cur w) {log : List (Failure Row Err)}
    {s : Session Row Err Key Ans Res} (hp : w.phase t = .outside log s) :
    w.Quiet ∧ sys.Heads T since op Q s w.store.committed := by
  have hph := h.phase
  rw [hp] at hph
  refine ⟨⟨fun u ↦ ?_, h.unlocked log s hp⟩, hph.2⟩
  by_cases hu : u = t
  · exact hu ▸ hph.1
  · exact h.alone u hu

omit [DecidableEq Key] in
/-- The session of a quiet world is on its way. -/
theorem of_quiet (hq : w.Quiet) (hsince : since ≤ w.store.clock) {log : List (Failure Row Err)}
    {s : Session Row Err Key Ans Res}
    (hs : sys.Heads T since op Q s w.store.committed) :
    sys.Attending T since t op Q cur (w.setPhase t (.outside log s)) where
  alone u _ := hq.clean u
  since_le := hsince
  locks key := .inl (hq.locks key)
  unlocked _ _ _ := hq.locks
  phase := by
    rw [phase_setPhase]
    exact ⟨hq.clean t, hs⟩

/-- The clock may move on while a call is served. -/
theorem tick (h : sys.Attending T since t op Q cur w) {c : ℤ}
    (hs : sys.step (.tick c) w = some w') :
    sys.Attending T since t op Q cur w' := by
  simp only [step] at hs
  split at hs
  · next hc =>
    obtain rfl := Option.some.inj hs
    refine ⟨h.alone, h.since_le.trans hc, h.locks, h.unlocked, ?_⟩
    have hp := h.phase
    revert hp
    change sys.Attends T since t op Q w.store cur (w.phase t) →
      sys.Attends T since t op Q (w.store.tick c) cur (w.phase t)
    cases w.phase t with
    | idle => exact id
    | outside log s => exact id
    | inside log x =>
      rintro ⟨p, d, hcur, hu⟩
      exact ⟨p, d, hcur, hu.rows, hu.issued, hu.solo, hu.lost⟩
  · cases hs

section Inside

variable {log : List (Failure Row Err)} {x : Txn Row Err Key Ans Res}
  {p : Prog Row Err Key Ans Res} {d : Db Row}

omit [DecidableEq Key] in
/-- A call inside its transaction, with the rest of it under way. -/
private theorem of_inside {σ : Store Row} {locks : Key → Option ℕ} {seen : ℕ → List (Db Row)}
    (halone : σ.Alone t) (hsince : since ≤ σ.clock)
    (hlocks : ∀ key, locks key = none ∨ locks key = some t)
    (hu : Underway sys T since t op Q σ x p d) :
    sys.Attending T since t op Q (some p)
      ((World.mk σ locks w.phase seen).setPhase t (.inside log x)) where
  alone := halone
  since_le := hsince
  locks := hlocks
  unlocked log' s hp := by
    rw [phase_setPhase] at hp
    cases hp
  phase := by
    rw [phase_setPhase]
    exact ⟨p, d, rfl, hu⟩

omit [DecidableEq Key] in
/-- At its end a transaction holds no lock. -/
private theorem release_locks {locks : Key → Option ℕ}
    (h : ∀ key, locks key = none ∨ locks key = some t) (key : Key) :
    (if locks key = some t then none else locks key) = none := by
  split
  · rfl
  · next hne => exact (h key).resolve_right hne

omit [DecidableEq Key] in
/-- After a rollback the call goes on with the error, on the database as it was. -/
theorem rollback (h : sys.Attending T since t op Q cur w) {e : Err}
    (hs : sys.Heads T since op Q (x.after (.error e)) w.store.committed) :
    sys.Attending T since t op Q cur (w.rollback t log x e) := by
  have halone := h.alone.workBy (Store.workBy_abort (t := t))
  refine of_quiet (w := { w with store := w.store.abort t }.release t)
    ⟨fun u ↦ ?_, release_locks h.locks⟩ h.since_le ?_
  · by_cases hu : u = t
    · exact hu ▸ Store.clean_abort
    · exact halone u hu
  · exact (Store.committed_abort w.store t).symm ▸ hs

omit [DecidableEq Key] in
/-- After a commit the call goes on with the result, on what its transaction saw. -/
theorem commit (h : sys.Attending T since t op Q cur w) {r : Res}
    (hs : sys.Heads T since op Q (x.after (.ok r)) (w.store.view (some t))) :
    sys.Attending T since t op Q cur (w.commit t log x r) := by
  refine of_quiet (w := { w with
      store := w.store.commit t, seen := Function.update w.seen t x.reads }.release t)
    ⟨fun u ↦ ?_, release_locks h.locks⟩ h.since_le ?_
  · by_cases hu : u = t
    · exact hu ▸ Store.clean_commit
    · rintro τ i ⟨y, hy⟩
      have hclean := h.alone u hu τ i
      change ((w.store.cell τ i).commit t).dirty = some (u, y) at hy
      by_cases ho : (w.store.cell τ i).ownedBy t
      · obtain ⟨z, hz⟩ := ho
        rw [Cell.commit_of_dirty hz] at hy
        cases hy
      · rw [Cell.commit_of_not_ownedBy ho] at hy
        exact hclean ⟨y, hy⟩
  · exact (Store.committed_commit w.store t).symm ▸ hs

/-- The next step of the transaction under way. -/
private theorem advance (h : sys.Attending T since t op Q (some p) w)
    (hu : Underway sys T since t op Q w.store x p d) (hs : sys.advance w t log x = some w') :
    sys.Attending T since t op Q (some p) w' := by
  obtain ⟨prog, issued, clocked, reads, after⟩ := x
  obtain ⟨hrows, hissued, hsolo, hlost⟩ := hu
  -- One case for each statement; only a write can fail, and only on a constraint, as no lock is
  -- another's.
  cases prog with
  | ret r =>
    obtain rfl := Option.some.inj hs
    exact h.commit hsolo
  | throw e =>
    obtain rfl := Option.some.inj hs
    exact h.rollback (hsolo _ hrows)
  | now k =>
    obtain rfl := Option.some.inj hs
    refine of_inside h.alone h.since_le h.locks
      ⟨hrows, fun _ _ he ↦ ?_, hsolo _ h.since_le, hlost⟩
    exact absurd (hissued _ _ he).2 (by simp)
  | ask q k => cases hs
  | select k =>
    obtain rfl := Option.some.inj hs
    refine of_inside h.alone h.since_le h.locks ⟨hrows, fun _ _ he ↦ ?_, hsolo, hlost⟩
    exact absurd (hissued _ _ he).2 (by simp)
  | lock key k =>
    simp only [System.advance] at hs
    split at hs
    · obtain rfl := Option.some.inj hs
      refine of_inside h.alone h.since_le (fun key' ↦ ?_) ⟨hrows, fun _ _ he ↦ ?_, hsolo, hlost⟩
      · by_cases hk : key' = key
        · exact .inr (by rw [hk, Function.update_self])
        · rw [Function.update_of_ne hk]
          exact h.locks key'
      · exact absurd (hissued _ _ he).2 (by simp)
    · cases hs
  | modify τ ch k =>
    rcases issued with - | ⟨snapshot, c⟩
    -- The snapshot is taken first; that it is what the transaction sees is kept for the write.
    · obtain rfl := Option.some.inj hs
      refine of_inside h.alone h.since_le h.locks ⟨hrows, fun _ _ he ↦ ?_, hsolo, hlost⟩
      cases he
      exact ⟨rfl, τ, ch, k, rfl⟩
    · obtain rfl := (hissued snapshot c rfl).1
      have hm := h.alone.modify (S := sys.schema) (ch (w.store.view (some t)) c)
      have hsolo := hsolo c
      -- What the statement does on the store it does on the view, which the terms speak of.
      simp only [System.advance] at hs
      split at hs
      · cases hs
      · next e he =>
        obtain rfl := Option.some.inj hs
        rw [he] at hm
        rw [hm.failed] at hsolo
        exact h.rollback (hsolo _ hrows)
      · next rows σ he =>
        obtain rfl := Option.some.inj hs
        rw [he] at hm
        rw [hm.done.1] at hsolo
        have hw := Store.workBy_modify he
        exact of_inside hm.done.2 (h.since_le.trans hw.clock.ge) h.locks
          ⟨(committed_row hw).trans hrows, fun _ _ hn ↦ (by cases hn), hsolo, hlost⟩
  | insert τ new k =>
    -- As for an update, with the row that is inserted.
    have hm : (w.store.insert sys.schema t τ (new w.store.clock w.store.next)).Matches t
        ((w.store.view (some t)).insert sys.schema τ
          (new w.store.clock (w.store.view (some t)).next)) := h.alone.insert _
    have hsolo := hsolo w.store.clock
    simp only [System.advance] at hs
    split at hs
    · cases hs
    · next e he =>
      obtain rfl := Option.some.inj hs
      rw [he] at hm
      rw [hm.failed] at hsolo
      exact h.rollback (hsolo _ hrows)
    · next r σ he =>
      obtain rfl := Option.some.inj hs
      rw [he] at hm
      rw [hm.done.1] at hsolo
      have hw := Store.workBy_insert he
      refine of_inside hm.done.2 (h.since_le.trans hw.clock.ge) h.locks
        ⟨(committed_row hw).trans hrows, fun _ _ hi ↦ ?_, hsolo, hlost⟩
      exact absurd (hissued _ _ hi).2 (by simp)

end Inside

/-- A statement of the call that is served. -/
theorem run (h : sys.Attending T since t op Q cur w) (hs : sys.step (.run t) w = some w') :
    sys.Attending T since t op Q (w.begins t <|> cur) w' := by
  have hph := h.phase
  simp only [step] at hs
  unfold World.begins
  split at hs
  · next log k hp =>
    obtain rfl := Option.some.inj hs
    obtain ⟨hq, hk⟩ := h.quiet hp
    exact of_quiet hq h.since_le (hk _ h.since_le)
  · next log p k hp =>
    obtain rfl := Option.some.inj hs
    obtain ⟨hq, hk⟩ := h.quiet hp
    rw [hp]
    refine of_inside h.alone h.since_le h.locks ⟨rfl, fun _ _ hn ↦ (by cases hn), ?_, hk.2⟩
    rw [Store.view_of_clean (hq.clean t)]
    exact hk.1
  · next log x hp =>
    rw [hp] at hph ⊢
    obtain ⟨p, d, rfl, hu⟩ := hph
    exact h.advance hu hs
  · cases hs

/-- An answer that the terms allow. -/
theorem answer (h : sys.Attending T since t op Q cur w) {oracle : ∀ q, Ans q}
    (hmay : ∀ q, w.asks t = some q → T.may op w.store.committed q (oracle q))
    (hs : sys.step (.answer t oracle) w = some w') : sys.Attending T since t op Q cur w' := by
  have hph := h.phase
  unfold World.asks at hmay
  simp only [step] at hs
  split at hs
  · next log q k hp =>
    obtain rfl := Option.some.inj hs
    obtain ⟨hq, hk⟩ := h.quiet hp
    rw [hp] at hmay
    exact of_quiet hq h.since_le (hk _ (hmay q rfl))
  · next log x hp =>
    rw [hp] at hmay hph
    obtain ⟨p, d, rfl, hrows, hissued, hsolo, hlost⟩ := hph
    obtain ⟨prog, issued, clocked, reads, after⟩ := x
    cases prog with
    | ask q k =>
      obtain rfl := Option.some.inj hs
      refine of_inside h.alone h.since_le h.locks
        ⟨hrows, fun _ _ he ↦ ?_, hsolo _ ⟨_, hrows, hmay q rfl⟩, hlost⟩
      exact absurd (hissued _ _ he).2 (by simp)
    | _ => cases hs
  · cases hs

/-- A loss that the terms allow. -/
theorem lose {p : Prog Row Err Key Ans Res} (h : sys.Attending T since t op Q (some p) w) {e : Err}
    (hl : T.lose op w.store.committed p e) (hs : sys.step (.lose t e) w = some w') :
    sys.Attending T since t op Q (some p) w' := by
  have hph := h.phase
  simp only [step] at hs
  split at hs
  · next log x hp =>
    rw [hp] at hph
    obtain ⟨p', d, he, hu⟩ := hph
    obtain rfl := Option.some.inj he
    split at hs
    · next hloses =>
      obtain rfl := Option.some.inj hs
      exact h.rollback (hu.lost e _ hu.rows ⟨hloses, hl⟩)
    · cases hs
  · cases hs

end Attending

/-! ### Runs -/

/-- While a call is served it is on its way. -/
theorem Serving.attending (hq : w₀.Quiet)
    (hserves : sys.Heads T w₀.store.clock op Q (sys.service op) w₀.store.committed)
    (h : sys.Serving T t op w₀ cur w) : sys.Attending T w₀.store.clock t op Q cur w := by
  induction h with
  | call hs =>
    simp only [step] at hs
    split at hs
    · obtain rfl := Option.some.inj hs
      exact .of_quiet hq le_rfl hserves
    · cases hs
  | tick _ hs ih => exact ih.tick hs
  | run _ hs ih => exact ih.run hs
  | answer _ hmay hs ih => exact ih.answer hmay hs
  | lose _ hl hs ih => exact ih.lose hl hs

omit [DecidableEq Tab] [DecidableEq Key] in
/-- A call with a result is done. -/
theorem phase_of_result {r : Except Err Res} (h : w.result t = some r) :
    ∃ log, w.phase t = .outside log (.done r) := by
  unfold World.result at h
  split at h
  · next log r' hp =>
    obtain rfl := Option.some.inj h
    exact ⟨log, hp⟩
  · cases h

/-- **What a call did**: when it is over, it has done what it was on its way to. -/
theorem Serving.sound (hq : w₀.Quiet)
    (hserves : sys.Heads T w₀.store.clock op Q (sys.service op) w₀.store.committed)
    (h : sys.Serving T t op w₀ cur w) {r : Except Err Res} (hr : w.result t = some r) :
    w.Quiet ∧ Q r w.store.committed := by
  obtain ⟨log, hp⟩ := phase_of_result hr
  exact (h.attending hq hserves).quiet hp

/-- **What holds between calls**: what is true at the start and preserved by every call. -/
theorem Serial.invariant {J : Db Row → Prop} (hinit : J (Store.init Row).committed)
    (hcall : ∀ since d op, J d → T.call d op →
      sys.Heads T since op (fun _ ↦ J) (sys.service op) d)
    (h : sys.Serial T w) : w.Quiet ∧ J w.store.committed := by
  induction h with
  | init => exact ⟨World.quiet_init, hinit⟩
  | tick _ hs ih =>
    simp only [step] at hs
    split at hs
    · obtain rfl := Option.some.inj hs
      exact ⟨⟨ih.1.clean, ih.1.locks⟩, ih.2⟩
    · cases hs
  | served _ hc hsv hr ih => exact hsv.sound ih.1 (hcall _ _ _ ih.2 hc) hr

/-! ### Calls end -/

section Finish

variable {oracle : ∀ q, Ans q}

omit [DecidableEq Key] in
/-- A condition that demands nothing holds. -/
private theorem solo_true {α : Type} {S : Schema Row Err} {may : ∀ q, Ans q → Prop}
    {F : Err → Prop} {G : α → Db Row → Prop} (hF : ∀ e, F e) (hG : ∀ a d, G a d)
    (p : Prog Row Err Key Ans α) (d : Db Row) : p.solo S may since F G d := by
  induction p generalizing d with
  | ret a => exact hG a d
  | throw e => exact hF e
  | now k ih => exact fun c _ ↦ ih c d
  | ask q k ih => exact fun a _ ↦ ih a d
  | select k ih => exact ih d d
  | lock key k ih => exact ih d
  | modify τ ch k ih =>
    intro c
    cases d.modify S τ (ch d c) with
    | error e => exact hF e
    | ok p => exact ih p.1 p.2
  | insert τ new k ih =>
    intro c
    cases d.insert S τ (new c d.next) with
    | error e => exact hF e
    | ok p => exact ih p.1 p.2

omit [DecidableEq Key] in
/-- The same for a whole call. -/
private theorem heads_true (s : Session Row Err Key Ans Res) (d : Db Row) :
    sys.Heads T since op (fun _ _ ↦ True) s d := by
  induction s generalizing d with
  | done r => trivial
  | now k ih => exact fun c _ ↦ ih c d
  | ask q k ih => exact fun a _ ↦ ih a d
  | attempt p k ih =>
    exact ⟨solo_true (fun e d' _ ↦ ih _ d') (fun r d' ↦ ih _ d') p d, fun e d' _ _ ↦ ih _ d'⟩

/-- A step of a transaction. -/
private theorem step_run_inside {log : List (Failure Row Err)} {x : Txn Row Err Key Ans Res}
    (hp : w.phase t = .inside log x) : sys.step (.run t) w = sys.advance w t log x := by
  simp only [step, hp]

/-- A transaction of the call that is served comes to an end. -/
private theorem finish_txn (hq : w₀.Quiet) (hmay : ∀ d q, T.may op d q (oracle q))
    (p : Prog Row Err Key Ans Res) {cur : Option (Prog Row Err Key Ans Res)}
    {w : World Row Err Key Ans Res} {log : List (Failure Row Err)} {clocked : Reading Row}
    {reads : List (Db Row)} {after : Except Err Res → Session Row Err Key Ans Res}
    (hsv : sys.Serving T t op w₀ cur w)
    (hp : w.phase t = .inside log ⟨p, none, clocked, reads, after⟩) :
    ∃ cur' w' log' r, sys.Serving T t op w₀ cur' w' ∧ w'.phase t = .outside log' (after r) := by
  have hset : ∀ (w : World Row Err Key Ans Res) ph, (w.setPhase t ph).phase t = ph :=
    fun _ _ ↦ Function.update_self _ _ _
  -- Induction on the program: each statement is served, and the rest of it follows.
  induction p generalizing cur w log clocked reads with
  | ret r => exact ⟨_, _, log, .ok r, hsv.run (step_run_inside hp), hset _ _⟩
  | throw e => exact ⟨_, _, _, .error e, hsv.run (step_run_inside hp), hset _ _⟩
  | now k ih =>
    have hstep : sys.step (.run t) w = some (w.setPhase t (.inside log
        ⟨k w.store.clock, none, ⟨w.store.clock, w.store.view (some t)⟩, reads, after⟩)) :=
      step_run_inside hp
    exact ih _ (hsv.run hstep) (hset _ _)
  | ask q k ih =>
    have hstep : sys.step (.answer t oracle) w = some (w.setPhase t (.inside log
        ⟨k (oracle q), none, clocked, reads, after⟩)) := by
      simp only [step, hp]
    exact ih _ (hsv.answer (fun q' _ ↦ hmay _ q') hstep) (hset _ _)
  | select k ih =>
    have hstep : sys.step (.run t) w = some (w.setPhase t (.inside log
        ⟨k (w.store.view (some t)), none, clocked, w.store.view (some t) :: reads, after⟩)) :=
      step_run_inside hp
    exact ih _ (hsv.run hstep) (hset _ _)
  | lock key k ih =>
    -- The lock is free or `t`'s own, as nobody else is under way.
    have hlock := (hsv.attending hq (heads_true _ _)).locks key
    have hstep : sys.step (.run t) w = some ({ w with
        locks := Function.update w.locks key (some t) }.setPhase t (.inside log
          ⟨k, none, clocked, reads, after⟩)) := by
      rw [step_run_inside hp]
      simp only [System.advance, hlock, if_true]
    exact ih (hsv.run hstep) (hset _ _)
  | modify τ ch k ih =>
    -- Two steps, one for the snapshot and one for the write.
    obtain ⟨w₁, hw₁⟩ : ∃ w₁, w₁ = w.setPhase t (.inside log ⟨.modify τ ch k,
      some (w.store.view (some t), w.store.clock), clocked, reads, after⟩) := ⟨_, rfl⟩
    have hsv₁ : sys.Serving T t op w₀ _ w₁ := hsv.run (hw₁ ▸ step_run_inside hp)
    have hp₁ : w₁.phase t = _ := hw₁ ▸ hset _ _
    have hstore : w₁.store = w.store := hw₁ ▸ rfl
    have hm := (hsv.attending hq (heads_true _ _)).alone.modify (S := sys.schema)
      (ch (w.store.view (some t)) w.store.clock)
    cases hres : w.store.modify sys.schema t τ (w.store.view (some t))
        (ch (w.store.view (some t)) w.store.clock) with
    -- No lock is another's, so the write does not wait.
    | blocked =>
      rw [hres] at hm
      exact hm.elim
    | failed e =>
      have hstep : sys.step (.run t) w₁ = some (w₁.rollback t log ⟨.modify τ ch k,
          some (w.store.view (some t), w.store.clock), clocked, reads, after⟩ e) := by
        rw [step_run_inside hp₁]
        simp only [System.advance, hstore, hres]
      exact ⟨_, _, _, .error e, hsv₁.run hstep, hset _ _⟩
    | done a =>
      have hstep : sys.step (.run t) w₁ = some ({ w₁ with store := a.2 }.setPhase t (.inside log
          ⟨k a.1, none, clocked, reads, after⟩)) := by
        rw [step_run_inside hp₁]
        simp only [System.advance, hstore, hres]
      exact ih _ (hsv₁.run hstep) (hset _ _)
  | insert τ new k ih =>
    have hm := (hsv.attending hq (heads_true _ _)).alone.insert (S := sys.schema)
      (new w.store.clock w.store.next)
    cases hres : w.store.insert sys.schema t τ (new w.store.clock w.store.next) with
    | blocked =>
      rw [hres] at hm
      exact hm.elim
    | failed e =>
      have hstep : sys.step (.run t) w = some (w.rollback t log
          ⟨.insert τ new k, none, clocked, reads, after⟩ e) := by
        rw [step_run_inside hp]
        simp only [System.advance, hres]
      exact ⟨_, _, _, .error e, hsv.run hstep, hset _ _⟩
    | done a =>
      have hstep : sys.step (.run t) w = some ({ w with store := a.2 }.setPhase t (.inside log
          ⟨k a.1, none, clocked, reads, after⟩)) := by
        rw [step_run_inside hp]
        simp only [System.advance, hres]
      exact ih _ (hsv.run hstep) (hset _ _)

/-- **A call that is made in a quiet world comes to an end.** -/
theorem exists_served (oracle : ∀ q, Ans q) (hq : w₀.Quiet) (hidle : w₀.phase t = .idle)
    (hmay : ∀ d q, T.may op d q (oracle q)) :
    ∃ cur w r, sys.Serving T t op w₀ cur w ∧ w.result t = some r := by
  have hset : ∀ (w : World Row Err Key Ans Res) ph, (w.setPhase t ph).phase t = ph :=
    fun _ _ ↦ Function.update_self _ _ _
  have hfinish : ∀ (s : Session Row Err Key Ans Res) {cur w log}, sys.Serving T t op w₀ cur w →
      w.phase t = .outside log s →
      ∃ cur w r, sys.Serving T t op w₀ cur w ∧ w.result t = some r := by
    intro s
    induction s with
    | done r =>
      intro cur w log hsv hp
      exact ⟨cur, w, r, hsv, by simp only [World.result, hp]⟩
    | now k ih =>
      intro cur w log hsv hp
      have hstep : sys.step (.run t) w = some (w.setPhase t (.outside log (k w.store.clock))) := by
        simp only [step, hp]
      exact ih _ (hsv.run hstep) (hset _ _)
    | ask q k ih =>
      intro cur w log hsv hp
      have hstep : sys.step (.answer t oracle) w =
          some (w.setPhase t (.outside log (k (oracle q)))) := by
        simp only [step, hp]
      exact ih _ (hsv.answer (fun q' _ ↦ hmay _ q') hstep) (hset _ _)
    | attempt p k ih =>
      intro cur w log hsv hp
      have hstep : sys.step (.run t) w = some (w.setPhase t (.inside log
          ⟨p, none, ⟨w.store.clock, w.store.view (some t)⟩, w.seen t, k⟩)) := by
        simp only [step, hp]
      obtain ⟨cur', w', log', r, hsv', hp'⟩ := finish_txn hq hmay p (hsv.run hstep) (hset _ _)
      exact ih r hsv' hp'
  have hcall : sys.step (.call t op) w₀ = some (w₀.setPhase t (.outside [] (sys.service op))) := by
    simp only [step, hidle]
  exact hfinish _ (.call hcall) (hset _ _)

end Finish

/-! ### Running one -/

section Run

variable (sys T)

/-- Session `t` is served to its end in at most `n` steps, with the answers of `oracle`, if they may
come. -/
def serve [∀ op d q a, Decidable (T.may op d q a)] (t : ℕ) (op : Op) (oracle : ∀ q, Ans q) :
    ℕ → World Row Err Key Ans Res → Option (World Row Err Key Ans Res)
  | 0, w => if (w.result t).isSome then some w else none
  | n + 1, w =>
    if (w.result t).isSome then some w
    else
      match w.asks t with
      | none => (sys.step (.run t) w).bind (serve t op oracle n)
      | some q =>
        if T.may op w.store.committed q (oracle q) then
          (sys.step (.answer t oracle) w).bind (serve t op oracle n)
        else none

/-- The calls are made one after the other, by session `t` and those after it. -/
def serveAll [∀ d op, Decidable (T.call d op)] [∀ op d q a, Decidable (T.may op d q a)] (n : ℕ) :
    ℕ → List (Op × ∀ q, Ans q) → World Row Err Key Ans Res → Option (World Row Err Key Ans Res)
  | _, [], w => some w
  | t, (op, oracle) :: l, w =>
    if T.call w.store.committed op then
      ((sys.step (.call t op) w).bind (sys.serve T t op oracle n)).bind (serveAll n (t + 1) l)
    else none

variable {sys T}

/-- A call that is served to its end has been served throughout. -/
theorem Serving.serve [∀ op d q a, Decidable (T.may op d q a)] {oracle : ∀ q, Ans q} {n : ℕ}
    (hsv : sys.Serving T t op w₀ cur w) (h : sys.serve T t op oracle n w = some w') :
    ∃ cur' r, sys.Serving T t op w₀ cur' w' ∧ w'.result t = some r := by
  induction n generalizing cur w with
  | zero =>
    unfold System.serve at h
    split at h
    · next hr =>
      obtain rfl := Option.some.inj h
      obtain ⟨r, hr⟩ := Option.isSome_iff_exists.1 hr
      exact ⟨cur, r, hsv, hr⟩
    · cases h
  | succ n ih =>
    unfold System.serve at h
    split at h
    · next hr =>
      obtain rfl := Option.some.inj h
      obtain ⟨r, hr⟩ := Option.isSome_iff_exists.1 hr
      exact ⟨cur, r, hsv, hr⟩
    · split at h
      · obtain ⟨w₁, hs, h⟩ := Option.bind_eq_some_iff.1 h
        exact ih (hsv.run hs) h
      · next q hasks =>
        split at h
        · next hmay =>
          obtain ⟨w₁, hs, h⟩ := Option.bind_eq_some_iff.1 h
          refine ih (hsv.answer (fun q' hq' ↦ ?_) hs) h
          obtain rfl := Option.some.inj (hasks.symm.trans hq')
          exact hmay
        · cases h

/-- Calls served one after the other make a serial run. -/
theorem Serial.serveAll [∀ d op, Decidable (T.call d op)] [∀ op d q a, Decidable (T.may op d q a)]
    {n t : ℕ} {l : List (Op × ∀ q, Ans q)} (hw : sys.Serial T w)
    (h : sys.serveAll T n t l w = some w') : sys.Serial T w' := by
  induction l generalizing t w with
  | nil =>
    obtain rfl := Option.some.inj h
    exact hw
  | cons p l ih =>
    unfold System.serveAll at h
    split at h
    · next hc =>
      obtain ⟨w₂, hsv, hl⟩ := Option.bind_eq_some_iff.1 h
      obtain ⟨w₁, hs, hsv⟩ := Option.bind_eq_some_iff.1 hsv
      obtain ⟨cur, r, hsv, hr⟩ := Serving.serve (.call hs) hsv
      exact ih (.served hw hc hsv hr) hl
    · cases h

end Run

end System

end ReadCommitted

import EasyBook.ReadCommitted.Store

/-!
# Statements, triggers and constraints

One SQL statement of a READ COMMITTED transaction. A bulk `UPDATE` or `DELETE` picks its candidate
rows from the snapshot taken when it was issued; once no candidate is locked by another
transaction it re-evaluates its condition on the newest version of each candidate
(*EvalPlanQual*), so a candidate that no longer matches is skipped, and a row that came to match
after the snapshot is not touched.

A `Schema` gives what the database adds to the statements it is sent: a BEFORE ROW trigger that
computes the version stored, an AFTER UPDATE trigger that sends one more bulk update, and a
constraint on pairs of rows of one table, by which uniqueness and exclusion are both expressed. The
constraint is checked at once against every version that may survive: against a version another
transaction has written or may bring back, the statement waits.

A statement that finds a lock in its way is `blocked` and changes nothing; a transaction that
waits is a run in which it is tried again later.
-/

namespace ReadCommitted

/-- What became of a statement. -/
inductive Outcome (Err α : Type) : Type where
  /-- It waits for a lock. -/
  | blocked
  /-- It was refused, and with it the transaction. -/
  | failed (e : Err)
  /-- It was carried out. -/
  | done (a : α)

namespace Outcome

variable {Err α β : Type}

/-- Carry on with the result, if there is one. -/
def bind : Outcome Err α → (α → Outcome Err β) → Outcome Err β
  | blocked, _ => blocked
  | failed e, _ => failed e
  | done a, k => k a

/-- A sequence that is done has done both parts. -/
theorem bind_eq_done {x : Outcome Err α} {k : α → Outcome Err β} {b : β}
    (h : x.bind k = done b) : ∃ a, x = done a ∧ k a = done b := by
  cases x with
  | blocked => cases h
  | failed e => cases h
  | done a => exact ⟨a, rfl, h⟩

/-- A sequence that has failed has failed in one of them. -/
theorem bind_eq_failed {x : Outcome Err α} {k : α → Outcome Err β} {e : Err}
    (h : x.bind k = failed e) : x = failed e ∨ ∃ a, x = done a ∧ k a = failed e := by
  cases x with
  | blocked => cases h
  | failed e' =>
    obtain rfl : e' = e := by simpa [bind] using h
    exact Or.inl rfl
  | done a => exact Or.inr ⟨a, rfl, h⟩

end Outcome

variable {Tab : Type} {Row : Tab → Type} {Err : Type}

/-- What the database adds to the statements it is sent. -/
structure Schema (Row : Tab → Type) (Err : Type) where
  /-- BEFORE INSERT OR UPDATE, per row: the version stored, computed in the writer's view. -/
  before : Db Row → ∀ τ, Row τ → Row τ
  /-- AFTER UPDATE, per row: the bulk update that a change of a row sends. -/
  after : ∀ τ, Row τ → Row τ → Option (Σ τ', Row τ' → Option (Row τ'))
  /-- The error raised when two rows of a table may not stand together. -/
  conflict : ∀ τ, Row τ → Row τ → Option Err
  /-- Standing together is symmetric. -/
  conflict_symm : ∀ {τ} {r r' : Row τ}, conflict τ r r' = none → conflict τ r' r = none

/-- The versions of a row that may survive. -/
def Cell.versions {α : Type} (c : Cell α) : List α :=
  c.committed.toList ++ (c.dirty.bind Prod.snd).toList

namespace Store

/-! ### The immediate constraint check -/

/-- What stands in the way of row `r` under key `i`, written by `t`: a version of a row that
somebody else has locked makes `t` wait, any other row it sees makes the statement fail. -/
def obstacle (S : Schema Row Err) (σ : Store Row) (t : ℕ) (τ : Tab) (i : ℕ) (r : Row τ) :
    Outcome Err Unit :=
  let rivals := (List.range σ.next).filter fun j ↦ decide (j ≠ i)
  if rivals.any fun j ↦ (σ.cell τ j).lockedFor t &&
      (σ.cell τ j).versions.any fun q ↦ (S.conflict τ r q).isSome then
    .blocked
  else
    match rivals.findSome? fun j ↦
        ((σ.cell τ j).seen (some t)).bind (S.conflict τ r) with
    | some e => .failed e
    | none => .done ()

/-- The check of every row a statement wrote. -/
def obstacles (S : Schema Row Err) (σ : Store Row) (t : ℕ) (τ : Tab) :
    List (ℕ × Row τ) → Outcome Err Unit
  | [] => .done ()
  | (i, r) :: l => (σ.obstacle S t τ i r).bind fun _ ↦ obstacles S σ t τ l

variable [DecidableEq Tab]

/-! ### Bulk updates and deletions -/

/-- The version a statement gives a row, if the row is a candidate of its snapshot and still
matches. -/
def version (S : Schema Row Err) (σ : Store Row) (t : ℕ) (τ : Tab) (snapshot : Db Row)
    (ch : Row τ → Option (Option (Row τ))) (i : ℕ) (r : Row τ) : Option (Option (Row τ)) :=
  if (snapshot.row τ i).any fun r ↦ (ch r).isSome then
    (ch r).map fun x ↦ x.map (S.before (σ.view (some t)) τ)
  else none

/-- The rows a statement changes, each with its key, the version it had and the one it gets. -/
def changes (S : Schema Row Err) (σ : Store Row) (t : ℕ) (τ : Tab) (snapshot : Db Row)
    (ch : Row τ → Option (Option (Row τ))) : List (ℕ × Row τ × Option (Row τ)) :=
  (List.range σ.next).filterMap fun i ↦
    ((σ.cell τ i).seen (some t)).bind fun r ↦
      (σ.version S t τ snapshot ch i r).map fun x ↦ (i, r, x)

/-- A bulk statement without its AFTER triggers: the changes, and the store with them made. -/
def rewrite (S : Schema Row Err) (σ : Store Row) (t : ℕ) (τ : Tab) (snapshot : Db Row)
    (ch : Row τ → Option (Option (Row τ))) :
    Outcome Err (List (ℕ × Row τ × Option (Row τ)) × Store Row) :=
  if (List.range σ.next).any fun i ↦
      ((snapshot.row τ i).any fun r ↦ (ch r).isSome) && (σ.cell τ i).lockedFor t then
    .blocked
  else
    let σ' := σ.put t τ (σ.version S t τ snapshot ch)
    let written := σ.changes S t τ snapshot ch
    (σ'.obstacles S t τ (written.filterMap fun c ↦ c.2.2.map fun r ↦ (c.1, r))).bind fun _ ↦
      .done (written, σ')

/-- The AFTER UPDATE triggers of the changes, one after the other. A statement that a trigger
sends takes a snapshot of its own and fires no AFTER trigger in turn. -/
def fire (S : Schema Row Err) (t : ℕ) (τ : Tab) :
    List (ℕ × Row τ × Option (Row τ)) → Store Row → Outcome Err (Store Row)
  | [], σ => .done σ
  | (_, _, none) :: l, σ => fire S t τ l σ
  | (_, old, some new) :: l, σ =>
    match S.after τ old new with
    | none => fire S t τ l σ
    | some ⟨τ', ch⟩ =>
      (σ.rewrite S t τ' (σ.view (some t)) fun r ↦ (ch r).map some).bind fun p ↦
        fire S t τ l p.2

/-- A whole bulk statement: the rows it hands back are the new versions, and the old ones of a
deletion. -/
def modify (S : Schema Row Err) (σ : Store Row) (t : ℕ) (τ : Tab) (snapshot : Db Row)
    (ch : Row τ → Option (Option (Row τ))) : Outcome Err (List (Row τ) × Store Row) :=
  (σ.rewrite S t τ snapshot ch).bind fun p ↦
    (p.2.fire S t τ p.1).bind fun σ' ↦ .done (p.1.map fun c ↦ c.2.2.getD c.2.1, σ')

/-- An insertion: the row stored, and the store with it. -/
def insert (S : Schema Row Err) (σ : Store Row) (t : ℕ) (τ : Tab) (r : Row τ) :
    Outcome Err (Row τ × Store Row) :=
  let r' := S.before (σ.view (some t)) τ r
  let σ' := σ.add t τ r'
  (σ'.obstacle S t τ σ.next r').bind fun _ ↦ .done (r', σ')

/-! ### What a statement that was carried out did -/

variable {S : Schema Row Err} {σ σ' : Store Row} {t : ℕ} {τ : Tab} {snapshot : Db Row}
  {ch : Row τ → Option (Option (Row τ))}

omit [DecidableEq Tab] in
/-- A row that met no obstacle may stand next to every version that may survive. -/
theorem obstacle_eq_done {i : ℕ} {r : Row τ} (h : σ.obstacle S t τ i r = .done ())
    {j : ℕ} (hj : j ≠ i) :
    ((σ.cell τ j).lockedFor t = true → ∀ q ∈ (σ.cell τ j).versions, S.conflict τ r q = none) ∧
      ∀ q, (σ.cell τ j).seen (some t) = some q → S.conflict τ r q = none := by
  by_cases hlt : j < σ.next
  · have hmem : j ∈ (List.range σ.next).filter fun j ↦ decide (j ≠ i) := by simp [hlt, hj]
    simp only [obstacle] at h
    split at h
    · cases h
    · next hany =>
      refine ⟨fun hl q hq ↦ ?_, fun q hq ↦ ?_⟩
      · by_contra hne
        refine hany (List.any_eq_true.2 ⟨j, hmem, ?_⟩)
        rw [hl, Bool.true_and]
        exact List.any_eq_true.2 ⟨q, hq, Option.isSome_iff_ne_none.2 hne⟩
      · split at h
        · cases h
        · next hnone =>
          have := List.findSome?_eq_none_iff.1 hnone j hmem
          rwa [hq] at this
  · rw [σ.bounded τ j (by omega)]
    exact ⟨fun hl ↦ absurd hl (by simp [Cell.empty, Cell.lockedFor]), fun q hq ↦ by simp at hq⟩

omit [DecidableEq Tab] in
/-- Where a statement met no obstacle, none of its rows did. -/
theorem obstacles_eq_done {l : List (ℕ × Row τ)} (h : σ.obstacles S t τ l = .done ())
    {i : ℕ} {r : Row τ} (hmem : (i, r) ∈ l) : σ.obstacle S t τ i r = .done () := by
  induction l with
  | nil => cases hmem
  | cons p l ih =>
    obtain ⟨_, hp, hl⟩ := Outcome.bind_eq_done h
    rcases List.mem_cons.1 hmem with rfl | hmem
    · exact hp
    · exact ih hl hmem

omit [DecidableEq Tab] in
/-- A row is written where the snapshot selects it, and its new value is computed from what is seen
now. -/
theorem version_eq_some {i : ℕ} {r : Row τ} {x : Option (Row τ)}
    (h : σ.version S t τ snapshot ch i r = some x) :
    (∃ r₀, snapshot.row τ i = some r₀ ∧ (ch r₀).isSome) ∧
      ∃ y, ch r = some y ∧ x = y.map (S.before (σ.view (some t)) τ) := by
  unfold version at h
  split at h
  · next hc =>
    obtain ⟨y, hy, rfl⟩ := Option.map_eq_some_iff.1 h
    exact ⟨(Option.any_eq_true _ _).1 hc, y, hy, rfl⟩
  · cases h

omit [DecidableEq Tab] in
/-- The changes of a statement, row by row. -/
theorem mem_changes {i : ℕ} {r : Row τ} {x : Option (Row τ)} :
    (i, r, x) ∈ σ.changes S t τ snapshot ch ↔
      (σ.cell τ i).seen (some t) = some r ∧ σ.version S t τ snapshot ch i r = some x := by
  simp only [changes, List.mem_filterMap, List.mem_range]
  constructor
  · rintro ⟨j, _, hj⟩
    obtain ⟨q, hq, hm⟩ := Option.bind_eq_some_iff.1 hj
    obtain ⟨y, hy, he⟩ := Option.map_eq_some_iff.1 hm
    obtain ⟨rfl, rfl, rfl⟩ : j = i ∧ q = r ∧ y = x := by simpa using he
    exact ⟨hq, hy⟩
  · rintro ⟨hr, hx⟩
    have hlt : i < σ.next := Db.lt_next (d := σ.view (some t)) hr
    exact ⟨i, hlt, by rw [hr, Option.bind_some, hx, Option.map_some]⟩

omit [DecidableEq Tab] in
/-- A statement changes a row once. -/
theorem nodup_changes : ((σ.changes S t τ snapshot ch).map Prod.fst).Nodup := by
  have hsub : ((σ.changes S t τ snapshot ch).map Prod.fst).Sublist (List.range σ.next) := by
    unfold changes
    generalize List.range σ.next = l
    induction l with
    | nil => exact List.Sublist.refl _
    | cons i l ih =>
      rw [List.filterMap_cons]
      rcases hc : ((σ.cell τ i).seen (some t)).bind fun r ↦
          (σ.version S t τ snapshot ch i r).map fun x ↦ (i, r, x) with - | c
      · exact ih.cons i
      · obtain ⟨r, _, hr⟩ := Option.bind_eq_some_iff.1 hc
        obtain ⟨x, _, rfl⟩ := Option.map_eq_some_iff.1 hr
        exact ih.cons_cons i
  exact hsub.nodup List.nodup_range

/-- **What a bulk statement did**, its AFTER triggers left out. -/
structure Rewritten (S : Schema Row Err) (σ : Store Row) (t : ℕ) (τ : Tab) (snapshot : Db Row)
    (ch : Row τ → Option (Option (Row τ))) (σ' : Store Row) : Prop where
  /-- Exactly the rows that match were written. -/
  eq_put : σ' = σ.put t τ (σ.version S t τ snapshot ch)
  /-- No candidate was locked by somebody else. -/
  free : ∀ i r, snapshot.row τ i = some r → (ch r).isSome → (σ.cell τ i).lockedFor t = false
  /-- No written row met an obstacle. -/
  unobstructed : ∀ i r x, (σ.cell τ i).seen (some t) = some r →
    σ.version S t τ snapshot ch i r = some (some x) → σ'.obstacle S t τ i x = .done ()

/-- A statement that is done has returned its changes and written them. -/
theorem rewrite_eq_done {l : List (ℕ × Row τ × Option (Row τ))}
    (h : σ.rewrite S t τ snapshot ch = .done (l, σ')) :
    l = σ.changes S t τ snapshot ch ∧ Rewritten S σ t τ snapshot ch σ' := by
  simp only [rewrite] at h
  split at h
  · cases h
  · next hfree =>
    obtain ⟨_, hobs, hdone⟩ := Outcome.bind_eq_done h
    obtain ⟨rfl, rfl⟩ : σ.changes S t τ snapshot ch = l ∧
        σ.put t τ (σ.version S t τ snapshot ch) = σ' := by simpa using hdone
    refine ⟨rfl, rfl, fun i r hr hc ↦ ?_, fun i r x hr hx ↦ ?_⟩
    · by_cases hlt : i < σ.next
      · by_contra hl
        refine hfree (List.any_eq_true.2 ⟨i, List.mem_range.2 hlt, ?_⟩)
        rw [hr, Option.any_some, hc, Bool.true_and]
        exact eq_true_of_ne_false hl
      · rw [σ.bounded τ i (by omega)]
        rfl
    · refine obstacles_eq_done hobs (List.mem_filterMap.2 ⟨(i, r, some x), ?_, rfl⟩)
      exact mem_changes.2 ⟨hr, hx⟩

namespace Rewritten

/-- Only unlocked rows are written. -/
theorem lockedFor_eq_false (h : Rewritten S σ t τ snapshot ch σ') {i : ℕ} {r : Row τ}
    {x : Option (Row τ)} (hx : σ.version S t τ snapshot ch i r = some x) :
    (σ.cell τ i).lockedFor t = false := by
  obtain ⟨⟨r₀, hr₀, hc⟩, _⟩ := version_eq_some hx
  exact h.free i r₀ hr₀ hc

/-- What a statement writes is its transaction's work. -/
theorem workBy (h : Rewritten S σ t τ snapshot ch σ') : WorkBy t σ σ' := by
  rw [h.eq_put]
  exact workBy_put fun i r x _ hx ↦ h.lockedFor_eq_false hx

/-- It leaves the other tables. -/
theorem cell_of_ne (h : Rewritten S σ t τ snapshot ch σ') {τ' : Tab} (hτ : τ' ≠ τ) :
    σ'.cell τ' = σ.cell τ' := by
  rw [h.eq_put, put_cell_of_ne hτ]

/-- What an update did to a row: it was rewritten, or it did not match, or it was no candidate. -/
theorem update_cases {ch : Row τ → Option (Row τ)}
    (h : Rewritten S σ t τ snapshot (fun r ↦ (ch r).map some) σ') (i : ℕ) :
    (∃ r r' r₀, (σ.cell τ i).seen (some t) = some r ∧ ch r = some r' ∧
      snapshot.row τ i = some r₀ ∧ ch r₀ ≠ none ∧
      σ'.cell τ i = (σ.cell τ i).write t (some (S.before (σ.view (some t)) τ r'))) ∨
    ((∀ r r₀, (σ.cell τ i).seen (some t) = some r → snapshot.row τ i = some r₀ → ch r₀ ≠ none →
        ch r = none) ∧ σ'.cell τ i = σ.cell τ i) := by
  rw [h.eq_put]
  rcases put_cell_cases (σ := σ) (t := t)
    (f := σ.version S t τ snapshot fun r ↦ (ch r).map some) i with ⟨r, x, hr, hx, hc⟩ | ⟨hn, hc⟩
  · obtain ⟨⟨r₀, hr₀, hc₀⟩, y, hy, rfl⟩ := version_eq_some hx
    obtain ⟨r', hr', rfl⟩ := Option.map_eq_some_iff.1 hy
    refine Or.inl ⟨r, r', r₀, hr, hr', hr₀, fun hnone ↦ ?_, hc⟩
    rw [hnone] at hc₀
    cases hc₀
  · refine Or.inr ⟨fun r r₀ hr hr₀ hc₀ ↦ ?_, hc⟩
    have hv := hn r hr
    by_contra hne
    obtain ⟨r', hr'⟩ := Option.ne_none_iff_exists'.1 hne
    obtain ⟨r₀', hr₀'⟩ := Option.ne_none_iff_exists'.1 hc₀
    simp [version, hr₀, hr₀', hr'] at hv

end Rewritten

/-- **The trigger rule**: what every nested bulk update preserves, the AFTER triggers preserve. -/
theorem fire_induction {P : Store Row → Prop} {l : List (ℕ × Row τ × Option (Row τ))}
    (hP : ∀ i old new τ' ch, (i, old, some new) ∈ l → S.after τ old new = some ⟨τ', ch⟩ →
      ∀ σ σ', Rewritten S σ t τ' (σ.view (some t)) (fun r ↦ (ch r).map some) σ' → P σ → P σ')
    (h : σ.fire S t τ l = .done σ') (hσ : P σ) : P σ' := by
  induction l generalizing σ with
  | nil =>
    simp only [fire, Outcome.done.injEq] at h
    exact h ▸ hσ
  | cons c l ih =>
    have hP' := fun i old new τ' ch hm ↦ hP i old new τ' ch (List.mem_cons_of_mem _ hm)
    obtain ⟨i, old, - | new⟩ := c
    · exact ih hP' h hσ
    · unfold fire at h
      split at h
      · exact ih hP' h hσ
      · next τ' ch ha =>
        obtain ⟨⟨l', σ₁⟩, hr, hl⟩ := Outcome.bind_eq_done h
        exact ih hP' hl (hP i old new τ' ch List.mem_cons_self ha σ σ₁ (rewrite_eq_done hr).2 hσ)

/-- So is what its triggers write. -/
theorem workBy_fire {l : List (ℕ × Row τ × Option (Row τ))}
    (h : σ.fire S t τ l = .done σ') : WorkBy t σ σ' :=
  fire_induction (P := WorkBy t σ) (fun _ _ _ _ _ _ _ _ _ hr hw ↦ hw.trans hr.workBy) h
    (WorkBy.refl t σ)

/-- An update that is done is its own statement and then those of its triggers. -/
theorem modify_eq_done {l : List (Row τ)} (h : σ.modify S t τ snapshot ch = .done (l, σ')) :
    l = (σ.changes S t τ snapshot ch).map (fun c ↦ c.2.2.getD c.2.1) ∧
      ∃ σ₁, Rewritten S σ t τ snapshot ch σ₁ ∧
        σ₁.fire S t τ (σ.changes S t τ snapshot ch) = .done σ' := by
  obtain ⟨⟨l', σ₁⟩, hr, hf⟩ := Outcome.bind_eq_done h
  obtain ⟨rfl, hrw⟩ := rewrite_eq_done hr
  obtain ⟨σ₂, hfire, hd⟩ := Outcome.bind_eq_done hf
  obtain ⟨rfl, rfl⟩ : _ = l ∧ σ₂ = σ' := by simpa using hd
  exact ⟨rfl, σ₁, hrw, hfire⟩

/-- All of it is the transaction's work. -/
theorem workBy_modify {l : List (Row τ)} (h : σ.modify S t τ snapshot ch = .done (l, σ')) :
    WorkBy t σ σ' := by
  obtain ⟨_, σ₁, hr, hf⟩ := modify_eq_done h
  exact hr.workBy.trans (workBy_fire hf)

/-- An insert that is done has added the row its trigger has filled in, and met no obstacle. -/
theorem insert_eq_done {r r' : Row τ} (h : σ.insert S t τ r = .done (r', σ')) :
    r' = S.before (σ.view (some t)) τ r ∧ σ' = σ.add t τ r' ∧
      σ'.obstacle S t τ σ.next r' = .done () := by
  obtain ⟨_, ho, hd⟩ := Outcome.bind_eq_done h
  obtain ⟨rfl, rfl⟩ : S.before (σ.view (some t)) τ r = r' ∧
      σ.add t τ (S.before (σ.view (some t)) τ r) = σ' := by simpa using hd
  exact ⟨rfl, rfl, ho⟩

/-- It is the transaction's work. -/
theorem workBy_insert {r r' : Row τ} (h : σ.insert S t τ r = .done (r', σ')) :
    WorkBy t σ σ' := by
  obtain ⟨_, rfl, _⟩ := insert_eq_done h
  exact workBy_add

/-! ### Why a statement was refused -/

omit [DecidableEq Tab] in
/-- A row fails on another row that conflicts with it. -/
theorem obstacle_eq_failed {i : ℕ} {r : Row τ} {e : Err}
    (h : σ.obstacle S t τ i r = .failed e) :
    ∃ j q, j ≠ i ∧ (σ.cell τ j).seen (some t) = some q ∧ S.conflict τ r q = some e := by
  simp only [obstacle] at h
  split at h
  · cases h
  · split at h
    · next e' hsome =>
      obtain rfl : e' = e := by simpa using h
      obtain ⟨j, hj, hjc⟩ := List.exists_of_findSome?_eq_some hsome
      obtain ⟨q, hq, hc⟩ := Option.bind_eq_some_iff.1 hjc
      exact ⟨j, q, by simpa using (List.mem_filter.1 hj).2, hq, hc⟩
    · cases h

omit [DecidableEq Tab] in
/-- A statement fails on one of its rows. -/
theorem obstacles_eq_failed {l : List (ℕ × Row τ)} {e : Err}
    (h : σ.obstacles S t τ l = .failed e) :
    ∃ i r, (i, r) ∈ l ∧ σ.obstacle S t τ i r = .failed e := by
  induction l with
  | nil => cases h
  | cons p l ih =>
    rcases Outcome.bind_eq_failed h with hp | ⟨_, _, hl⟩
    · exact ⟨p.1, p.2, List.mem_cons_self, hp⟩
    · obtain ⟨i, r, hm, ho⟩ := ih hl
      exact ⟨i, r, List.mem_cons_of_mem _ hm, ho⟩

/-- A refused bulk statement would have written a row next to one that it may not stand with. -/
theorem rewrite_eq_failed {e : Err} (h : σ.rewrite S t τ snapshot ch = .failed e) :
    ∃ i r x j q, (σ.cell τ i).seen (some t) = some r ∧
      σ.version S t τ snapshot ch i r = some (some x) ∧ j ≠ i ∧
      ((σ.put t τ (σ.version S t τ snapshot ch)).cell τ j).seen (some t) = some q ∧
      S.conflict τ x q = some e := by
  simp only [rewrite] at h
  split at h
  · cases h
  · rcases Outcome.bind_eq_failed h with hobs | ⟨_, _, hd⟩
    · obtain ⟨i, x, hm, ho⟩ := obstacles_eq_failed hobs
      obtain ⟨⟨k, r, y⟩, hk, he⟩ := List.mem_filterMap.1 hm
      obtain ⟨z, rfl, hz⟩ := Option.map_eq_some_iff.1 he
      obtain ⟨rfl, rfl⟩ : k = i ∧ z = x := by simpa using hz
      obtain ⟨hr, hx⟩ := mem_changes.1 hk
      obtain ⟨j, q, hj, hq, hc⟩ := obstacle_eq_failed ho
      exact ⟨k, r, z, j, q, hr, hx, hj, hq, hc⟩
    · cases hd

/-- A trigger fails in one of its statements. -/
theorem fire_eq_failed {l : List (ℕ × Row τ × Option (Row τ))} {e : Err}
    (h : σ.fire S t τ l = .failed e) :
    ∃ old new τ' ch' σ₁, S.after τ old new = some ⟨τ', ch'⟩ ∧
      rewrite S σ₁ t τ' (σ₁.view (some t)) (fun r ↦ (ch' r).map some) = .failed e := by
  induction l generalizing σ with
  | nil => cases h
  | cons c l ih =>
    obtain ⟨i, old, - | new⟩ := c
    · exact ih h
    · unfold fire at h
      split at h
      · exact ih h
      · next τ' ch' ha =>
        rcases Outcome.bind_eq_failed h with hr | ⟨_, _, hl⟩
        · exact ⟨old, new, τ', ch', σ, ha, hr⟩
        · exact ih hl

/-- An update fails in its own statement or in one of its triggers'. -/
theorem modify_eq_failed {e : Err} (h : σ.modify S t τ snapshot ch = .failed e) :
    σ.rewrite S t τ snapshot ch = .failed e ∨
      ∃ old new τ' ch' σ₁, S.after τ old new = some ⟨τ', ch'⟩ ∧
        rewrite S σ₁ t τ' (σ₁.view (some t)) (fun r ↦ (ch' r).map some) = .failed e := by
  rcases Outcome.bind_eq_failed h with hr | ⟨p, _, hf⟩
  · exact Or.inl hr
  · rcases Outcome.bind_eq_failed hf with hfire | ⟨_, _, hd⟩
    · exact Or.inr (fire_eq_failed hfire)
    · cases hd

/-- An insert fails on a row that conflicts with the new one. -/
theorem insert_eq_failed {r : Row τ} {e : Err} (h : σ.insert S t τ r = .failed e) :
    ∃ j q, (σ.cell τ j).seen (some t) = some q ∧
      S.conflict τ (S.before (σ.view (some t)) τ r) q = some e := by
  rcases Outcome.bind_eq_failed h with ho | ⟨_, _, hd⟩
  · obtain ⟨j, q, hj, hq, hc⟩ := obstacle_eq_failed ho
    rw [add_cell_of_ne_next hj] at hq
    exact ⟨j, q, hq, hc⟩
  · cases hd

end Store

end ReadCommitted

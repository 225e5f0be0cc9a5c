import EasyBook.ReadCommitted.Rowwise

/-!
# One transaction at a time

What a database does when nobody else is writing: a state is what one reader sees (`Db`), and a
statement either fails or gives the next state. `Db.modify` and `Db.insert` are the statements, and
`Prog.solo` is the weakest precondition of a whole transaction over them.

The multi-version store is a refinement of this. A transaction that is alone in it is never blocked,
and its statements do to its view what they do here (`Store.Alone.modify`, `Store.Alone.insert`).
-/

namespace ReadCommitted

variable {Tab : Type} {Row : Tab → Type} {Err Key : Type} {Ask : Type} {Ans : Ask → Type}
  [DecidableEq Tab]

/-! ### Statements -/

namespace Db

omit [DecidableEq Tab] in
/-- A database is its rows and its next key. -/
theorem ext_row {d d' : Db Row} (hn : d.next = d'.next) (hr : ∀ τ i, d.row τ i = d'.row τ i) :
    d = d' := by
  have hrow : d.row = d'.row := funext fun τ ↦ funext (hr τ)
  cases d
  cases d'
  simp_all

/-- Every row for which `f` gives a version gets it; `none` is a deletion. -/
def put (d : Db Row) (τ : Tab) (f : Row τ → Option (Option (Row τ))) : Db Row where
  next := d.next
  row := Function.update d.row τ fun i ↦ ((d.row τ i).bind f).getD (d.row τ i)
  bounded τ' i h := by
    by_cases hτ : τ' = τ
    · subst hτ
      simp [d.bounded τ' i h]
    · rw [Function.update_of_ne hτ, d.bounded τ' i h]

/-- A row under the next fresh key. -/
def add (d : Db Row) (τ : Tab) (r : Row τ) : Db Row where
  next := d.next + 1
  row := Function.update d.row τ (Function.update (d.row τ) d.next (some r))
  bounded τ' i h := by
    by_cases hτ : τ' = τ
    · subst hτ
      rw [Function.update_self, Function.update_of_ne (by omega), d.bounded τ' i (by omega)]
    · rw [Function.update_of_ne hτ, d.bounded τ' i (by omega)]

/-- The error of the first row that `r` under key `i` may not stand next to. -/
def obstacle (S : Schema Row Err) (d : Db Row) (τ : Tab) (i : ℕ) (r : Row τ) : Option Err :=
  ((List.range d.next).filter fun j ↦ decide (j ≠ i)).findSome? fun j ↦
    (d.row τ j).bind (S.conflict τ r)

/-- The rows a bulk statement changes, each with its key, the version it had and the one it
gets. -/
def changes (S : Schema Row Err) (d : Db Row) (τ : Tab) (ch : Row τ → Option (Option (Row τ))) :
    List (ℕ × Row τ × Option (Row τ)) :=
  (List.range d.next).filterMap fun i ↦
    (d.row τ i).bind fun r ↦ (ch r).map fun x ↦ (i, r, x.map (S.before d τ))

/-- A bulk statement without its AFTER triggers. -/
def rewrite (S : Schema Row Err) (d : Db Row) (τ : Tab) (ch : Row τ → Option (Option (Row τ))) :
    Except Err (List (ℕ × Row τ × Option (Row τ)) × Db Row) :=
  let d' := d.put τ fun r ↦ (ch r).map fun x ↦ x.map (S.before d τ)
  let written := (d.changes S τ ch).filterMap fun c ↦ c.2.2.map fun r ↦ (c.1, r)
  match written.findSome? fun p ↦ d'.obstacle S τ p.1 p.2 with
  | some e => .error e
  | none => .ok (d.changes S τ ch, d')

/-- The AFTER UPDATE triggers of the changes. -/
def fire (S : Schema Row Err) (τ : Tab) :
    List (ℕ × Row τ × Option (Row τ)) → Db Row → Except Err (Db Row)
  | [], d => .ok d
  | (_, _, none) :: l, d => fire S τ l d
  | (_, old, some new) :: l, d =>
    match S.after τ old new with
    | none => fire S τ l d
    | some ⟨τ', ch⟩ => (d.rewrite S τ' fun r ↦ (ch r).map some).bind fun p ↦ fire S τ l p.2

/-- A whole bulk statement. -/
def modify (S : Schema Row Err) (d : Db Row) (τ : Tab) (ch : Row τ → Option (Option (Row τ))) :
    Except Err (List (Row τ) × Db Row) :=
  (d.rewrite S τ ch).bind fun p ↦
    (p.2.fire S τ p.1).bind fun d' ↦ .ok (p.1.map fun c ↦ c.2.2.getD c.2.1, d')

/-- An insertion. -/
def insert (S : Schema Row Err) (d : Db Row) (τ : Tab) (r : Row τ) : Except Err (Row τ × Db Row) :=
  let r' := S.before d τ r
  let d' := d.add τ r'
  match d'.obstacle S τ d.next r' with
  | some e => .error e
  | none => .ok (r', d')

variable {d : Db Row} {τ : Tab} {f : Row τ → Option (Option (Row τ))} {r : Row τ} {i : ℕ}

/-- An update of one table leaves the others. -/
theorem put_row_of_ne {τ' : Tab} (h : τ' ≠ τ) : (d.put τ f).row τ' = d.row τ' :=
  Function.update_of_ne h _ _

/-- The row under a key after an update of its table. -/
theorem put_row_self : (d.put τ f).row τ i = ((d.row τ i).bind f).getD (d.row τ i) := by
  simp [put]

/-- An update gives every row a version, if only the old one. -/
def mapRows (d : Db Row) (τ : Tab) (f : Row τ → Row τ) : Db Row := d.put τ fun r ↦ some (some (f r))

/-- A deletion keeps the rows that satisfy `p`. -/
def keepRows (d : Db Row) (τ : Tab) (p : Row τ → Bool) : Db Row :=
  d.put τ fun r ↦ if p r then none else some none

/-- Every row of the table is mapped. -/
@[simp] theorem mapRows_row_self {g : Row τ → Row τ} :
    (d.mapRows τ g).row τ i = (d.row τ i).map g := by
  rw [mapRows, put_row_self]
  cases d.row τ i <;> rfl

/-- The rows of other tables are not. -/
theorem mapRows_row_of_ne {g : Row τ → Row τ} {τ' : Tab} (h : τ' ≠ τ) :
    (d.mapRows τ g).row τ' = d.row τ' := put_row_of_ne h

/-- A row stays where it meets the condition. -/
@[simp] theorem keepRows_row_self {p : Row τ → Bool} :
    (d.keepRows τ p).row τ i = (d.row τ i).filter p := by
  rw [keepRows, put_row_self]
  cases d.row τ i with
  | none => rfl
  | some r => cases hp : p r <;> simp [hp, Option.filter]

/-- The rows of other tables all stay. -/
theorem keepRows_row_of_ne {p : Row τ → Bool} {τ' : Tab} (h : τ' ≠ τ) :
    (d.keepRows τ p).row τ' = d.row τ' := put_row_of_ne h

/-- An update that deletes nothing maps the rows of its table, those it passes over to themselves.
-/
theorem put_eq_mapRows (ch : Row τ → Option (Row τ)) :
    (d.put τ fun r ↦ (ch r).map some) = d.mapRows τ fun r ↦ (ch r).getD r := by
  refine ext_row rfl fun τ' i ↦ ?_
  by_cases hτ : τ' = τ
  · subst hτ
    rw [mapRows_row_self, put_row_self]
    cases d.row τ' i with
    | none => rfl
    | some r => cases hc : ch r <;> simp [hc]
  · rw [put_row_of_ne hτ, mapRows_row_of_ne hτ]

/-- An insert leaves the other tables. -/
theorem add_row_of_ne {τ' : Tab} (h : τ' ≠ τ) : (d.add τ r).row τ' = d.row τ' :=
  Function.update_of_ne h _ _

/-- The new row stands under the next key. -/
@[simp] theorem add_row_next : (d.add τ r).row τ d.next = some r := by
  simp [add]

/-- Every other key of its table is as it was. -/
theorem add_row_of_ne_next (h : i ≠ d.next) : (d.add τ r).row τ i = d.row τ i := by
  simp [add, h]

/-- A row that is there already is not the one that is added. -/
theorem add_row_of_some {q : Row τ} (h : d.row τ i = some q) : (d.add τ r).row τ i = some q := by
  rw [add_row_of_ne_next (lt_next h).ne, h]

/-- Mapping the rows keeps their order. -/
theorem all_mapRows {g : Row τ → Row τ} : (d.mapRows τ g).all τ = (d.all τ).map g := by
  rw [all, all, List.map_filterMap]
  exact List.filterMap_congr fun i _ ↦ mapRows_row_self

/-- A new row is the last one of its table. -/
theorem all_add : (d.add τ r).all τ = d.all τ ++ [r] := by
  have hold : ∀ i ∈ List.range d.next, (d.add τ r).row τ i = d.row τ i := fun i hi ↦
    add_row_of_ne_next (List.mem_range.1 hi).ne
  change (List.range (d.next + 1)).filterMap _ = _
  rw [List.range_succ, List.filterMap_append, List.filterMap_congr hold]
  simp [all]

/-- A row found after an insert was there before, or is the new one. -/
theorem add_row_eq_some {τ' : Tab} {q : Row τ'} (h : (d.add τ r).row τ' i = some q) :
    d.row τ' i = some q ∨ ∃ hτ : τ' = τ, i = d.next ∧ hτ ▸ q = r := by
  by_cases hτ : τ' = τ
  · subst hτ
    by_cases hi : i = d.next
    · subst hi
      rw [add_row_next] at h
      exact .inr ⟨rfl, rfl, (Option.some.inj h).symm⟩
    · exact .inl (by rwa [add_row_of_ne_next hi] at h)
  · exact .inl (by rwa [add_row_of_ne hτ] at h)

end Db

/-! ### Being alone in a store -/

namespace Store

variable {S : Schema Row Err} {σ σ' : Store Row} {t : ℕ} {τ : Tab}

omit [DecidableEq Tab] in
/-- Nobody but `t` has uncommitted work. -/
def Alone (σ : Store Row) (t : ℕ) : Prop := ∀ u, u ≠ t → σ.Clean u

namespace Alone

omit [DecidableEq Tab] in
/-- A transaction that is alone waits for nobody's lock. -/
theorem lockedFor (h : σ.Alone t) (τ : Tab) (i : ℕ) : (σ.cell τ i).lockedFor t = false := by
  unfold Cell.lockedFor
  split
  · next u x hd =>
    by_contra hne
    exact h u (by simpa using hne) τ i ⟨x, hd⟩
  · rfl

omit [DecidableEq Tab] in
/-- What the transaction writes itself leaves it alone. -/
theorem workBy (h : σ.Alone t) (hw : WorkBy t σ σ') : σ'.Alone t := fun u hu τ i ⟨x, hx⟩ ↦
  h u hu τ i ⟨x, (hw.others τ i u x hu).1 hx⟩

omit [DecidableEq Tab] in
/-- The constraint is checked against the rows the transaction sees, for there are no others. -/
theorem obstacle (h : σ.Alone t) (i : ℕ) (r : Row τ) :
    σ.obstacle S t τ i r =
      match (σ.view (some t)).obstacle S τ i r with
      | some e => .failed e
      | none => .done () := by
  have hany : ∀ (l : List ℕ) (p : ℕ → Bool),
      (l.any fun j ↦ (σ.cell τ j).lockedFor t && p j) = false := fun l p ↦ by
    simp [h.lockedFor]
  simp only [Store.obstacle, hany, Bool.false_eq_true, if_false]
  rfl

omit [DecidableEq Tab] in
/-- The same for the rows of a whole statement. -/
theorem obstacles (h : σ.Alone t) (l : List (ℕ × Row τ)) :
    σ.obstacles S t τ l =
      match l.findSome? fun p ↦ (σ.view (some t)).obstacle S τ p.1 p.2 with
      | some e => .failed e
      | none => .done () := by
  induction l with
  | nil => rfl
  | cons p l ih =>
    rw [Store.obstacles, h.obstacle, List.findSome?_cons]
    cases (σ.view (some t)).obstacle S τ p.1 p.2 with
    | none => exact ih
    | some e => rfl

end Alone

end Store

/-- What a statement does to a store is what it does to the view of `t`, and `t` stays alone. -/
def Outcome.Matches {α : Type} (t : ℕ) :
    Outcome Err (α × Store Row) → Except Err (α × Db Row) → Prop
  | .failed e, .error e' => e = e'
  | .done (a, σ), .ok (b, d) => a = b ∧ σ.view (some t) = d ∧ σ.Alone t
  | _, _ => False

omit [DecidableEq Tab] in
/-- A statement that fails on the store fails on the view. -/
theorem Outcome.Matches.failed {α : Type} {t : ℕ} {e : Err} {y : Except Err (α × Db Row)}
    (h : (Outcome.failed e).Matches t y) : y = .error e := by
  cases y with
  | error e' => exact congrArg _ (Eq.symm h)
  | ok q => exact h.elim

omit [DecidableEq Tab] in
/-- A statement that is done on the store is done on the view. -/
theorem Outcome.Matches.done {α : Type} {t : ℕ} {a : α} {σ : Store Row}
    {y : Except Err (α × Db Row)} (h : (Outcome.done (a, σ)).Matches t y) :
    y = .ok (a, σ.view (some t)) ∧ σ.Alone t := by
  cases y with
  | error e' => exact h.elim
  | ok q =>
    obtain ⟨b, d⟩ := q
    obtain ⟨rfl, rfl, halone⟩ := h
    exact ⟨rfl, halone⟩

/-- Outcomes compose like any monad. -/
theorem Outcome.bind_assoc {α β γ : Type} (x : Outcome Err α) (k : α → Outcome Err β)
    (m : β → Outcome Err γ) : (x.bind k).bind m = x.bind fun a ↦ (k a).bind m := by
  cases x <;> rfl

namespace Store.Alone

variable {S : Schema Row Err} {σ σ' : Store Row} {t : ℕ} {τ : Tab}

omit [DecidableEq Tab] in
/-- The version written over a row is computed from the row that is seen. -/
private theorem version_eq {ch : Row τ → Option (Option (Row τ))} {i : ℕ}
    {r : Row τ} (hr : (σ.cell τ i).seen (some t) = some r) :
    σ.version S t τ (σ.view (some t)) ch i r =
      (ch r).map fun x ↦ x.map (S.before (σ.view (some t)) τ) := by
  unfold version
  rw [view_row, hr, Option.any_some]
  cases hc : ch r <;> simp

/-- What the transaction sees after its update is the update of what it saw. -/
private theorem view_put (σ : Store Row) (t : ℕ) (ch : Row τ → Option (Option (Row τ))) :
    (σ.put t τ (σ.version S t τ (σ.view (some t)) ch)).view (some t) =
      (σ.view (some t)).put τ fun r ↦ (ch r).map fun x ↦ x.map (S.before (σ.view (some t)) τ) := by
  refine Db.ext_row rfl fun τ' i ↦ ?_
  by_cases hτ : τ' = τ
  · subst hτ
    rw [Db.put_row_self, view_row, view_row]
    rcases put_cell_cases (σ := σ) (t := t) (f := σ.version S t τ' (σ.view (some t)) ch) i with
      ⟨r, x, hr, hx, hc⟩ | ⟨hn, hc⟩
    · rw [version_eq hr] at hx
      rw [hc, Cell.seen_write_self, hr, Option.bind_some, hx, Option.getD_some]
    · rw [hc]
      cases hr : (σ.cell τ' i).seen (some t) with
      | none => rfl
      | some r =>
        have hx := hn r hr
        rw [version_eq hr] at hx
        rw [Option.bind_some, hx, Option.getD_none]
  · rw [view_row, put_cell_of_ne hτ, Db.put_row_of_ne hτ, view_row]

omit [DecidableEq Tab] in
/-- The changes of a statement are those of what the transaction sees. -/
private theorem changes_eq (σ : Store Row) (t : ℕ) (ch : Row τ → Option (Option (Row τ))) :
    σ.changes S t τ (σ.view (some t)) ch = (σ.view (some t)).changes S τ ch := by
  unfold changes Db.changes
  refine List.filterMap_congr fun i _ ↦ ?_
  rw [view_row]
  cases hr : (σ.cell τ i).seen (some t) with
  | none => rfl
  | some r =>
    rw [Option.bind_some, Option.bind_some, version_eq hr]
    cases ch r <;> rfl

/-- A statement with its triggers does to the store what the sequential one does to the view. -/
theorem rewrite (h : σ.Alone t) (ch : Row τ → Option (Option (Row τ))) :
    (σ.rewrite S t τ (σ.view (some t)) ch).Matches t ((σ.view (some t)).rewrite S τ ch) := by
  have hfree : ((List.range σ.next).any fun i ↦
      (((σ.view (some t)).row τ i).any fun r ↦ (ch r).isSome) && (σ.cell τ i).lockedFor t) =
        false := by
    simp [h.lockedFor]
  have hput : (σ.put t τ (σ.version S t τ (σ.view (some t)) ch)).Alone t :=
    h.workBy (workBy_put fun i _ _ _ _ ↦ h.lockedFor τ i)
  simp only [Store.rewrite, hfree, Bool.false_eq_true, if_false, hput.obstacles, view_put,
    changes_eq, Db.rewrite]
  split
  · rfl
  · exact ⟨rfl, view_put σ t ch, hput⟩

omit [DecidableEq Tab] in
/-- Matching runs that are continued by matching runs match. -/
private theorem matches_bind {α β : Type} {x : Outcome Err (α × Store Row)}
    {y : Except Err (α × Db Row)} (h : x.Matches t y)
    {k : α × Store Row → Outcome Err (β × Store Row)} {l : α × Db Row → Except Err (β × Db Row)}
    (hk : ∀ a σ, σ.Alone t → (k (a, σ)).Matches t (l (a, σ.view (some t)))) :
    (x.bind k).Matches t (y.bind l) := by
  cases x with
  | blocked => cases y <;> exact h.elim
  | failed e =>
    rw [h.failed]
    exact rfl
  | done p =>
    obtain ⟨a, σ⟩ := p
    obtain ⟨rfl, halone⟩ := h.done
    exact hk a σ halone

/-- The triggers of the changes of a statement. -/
private theorem fire (h : σ.Alone t) (l : List (ℕ × Row τ × Option (Row τ))) {α : Type} (a : α) :
    ((σ.fire S t τ l).bind fun σ' ↦ .done (a, σ')).Matches t
      (((σ.view (some t)).fire S τ l).bind fun d' ↦ .ok (a, d')) := by
  induction l generalizing σ with
  | nil => exact ⟨rfl, rfl, h⟩
  | cons c l ih =>
    obtain ⟨i, old, - | new⟩ := c
    · exact ih h
    · simp only [Store.fire, Db.fire]
      cases S.after τ old new with
      | none => exact ih h
      | some p =>
        obtain ⟨τ', ch⟩ := p
        have hassoc : ∀ {β γ δ : Type} (x : Except Err β) (k : β → Except Err γ)
            (m : γ → Except Err δ), (x.bind k).bind m = x.bind fun b ↦ (k b).bind m := by
          rintro β γ δ (e | b) k m <;> rfl
        rw [Outcome.bind_assoc, hassoc]
        exact matches_bind (h.rewrite fun r ↦ (ch r).map some) fun _ σ₁ h₁ ↦ ih h₁

/-- A bulk statement of a transaction that is alone. -/
theorem modify (h : σ.Alone t) (ch : Row τ → Option (Option (Row τ))) :
    (σ.modify S t τ (σ.view (some t)) ch).Matches t ((σ.view (some t)).modify S τ ch) :=
  matches_bind (h.rewrite ch) fun l _ h₁ ↦ h₁.fire l _

/-- An insertion of a transaction that is alone. -/
theorem insert (h : σ.Alone t) (r : Row τ) :
    (σ.insert S t τ r).Matches t ((σ.view (some t)).insert S τ r) := by
  have hadd : (σ.add t τ (S.before (σ.view (some t)) τ r)).Alone t := h.workBy workBy_add
  have hview : (σ.add t τ (S.before (σ.view (some t)) τ r)).view (some t) =
      (σ.view (some t)).add τ (S.before (σ.view (some t)) τ r) := by
    refine Db.ext_row rfl fun τ' i ↦ ?_
    rw [view_row]
    by_cases hτ : τ' = τ
    · subst hτ
      by_cases hi : i = σ.next
      · subst hi
        rw [add_cell_next]
        exact (Cell.seen_of_dirty rfl).trans Db.add_row_next.symm
      · rw [add_cell_of_ne_next hi, Db.add_row_of_ne_next hi, view_row]
    · rw [add_cell_of_ne hτ, Db.add_row_of_ne hτ, view_row]
  have hnext : (σ.view (some t)).next = σ.next := rfl
  simp only [Store.insert, hadd.obstacle, hview, Db.insert, hnext]
  split
  · rfl
  · exact ⟨rfl, hview, hadd⟩

end Store.Alone

/-! ### Transactions -/

namespace Prog

variable {α β : Type} {S : Schema Row Err} {may : ∀ q, Ans q → Prop} {since : ℤ} {F : Err → Prop}

/-- The weakest precondition of a transaction that nobody disturbs: it may return `a` in a state
only if `Q`, and fail with an error only if `F`, whatever the clock says when it is read, from
`since` on, and whichever answers that `may` come it gets. -/
def solo (S : Schema Row Err) (may : ∀ q, Ans q → Prop) (since : ℤ) (F : Err → Prop)
    (Q : α → Db Row → Prop) : Prog Row Err Key Ans α → Db Row → Prop
  | .ret a, d => Q a d
  | .throw e, _ => F e
  | .now k, d => ∀ c, since ≤ c → (k c).solo S may since F Q d
  | .ask q k, d => ∀ a, may q a → (k a).solo S may since F Q d
  | .select k, d => (k d).solo S may since F Q d
  | .lock _ k, d => k.solo S may since F Q d
  | .modify τ ch k, d => ∀ c,
    match d.modify S τ (ch d c) with
    | .error e => F e
    | .ok (rows, d') => (k rows).solo S may since F Q d'
  | .insert τ new k, d => ∀ c,
    match d.insert S τ (new c d.next) with
    | .error e => F e
    | .ok (r, d') => (k r).solo S may since F Q d'

variable {Q : β → Db Row → Prop} {d : Db Row}

/-- The condition of a sequence: that of its head, with that of the rest as what should hold then.
-/
theorem solo_bind {p : Prog Row Err Key Ans α} {f : α → Prog Row Err Key Ans β} :
    (p.bind f).solo S may since F Q d ↔
      p.solo S may since F (fun a d' ↦ (f a).solo S may since F Q d') d := by
  induction p generalizing d with
  | ret a => exact Iff.rfl
  | throw e => exact Iff.rfl
  | now k ih => exact forall_congr' fun c ↦ imp_congr_right fun _ ↦ ih c
  | ask q k ih => exact forall_congr' fun a ↦ imp_congr_right fun _ ↦ ih a
  | select k ih => exact ih d
  | lock key k ih => exact ih
  | modify τ ch k ih =>
    refine forall_congr' fun c ↦ ?_
    cases d.modify S τ (ch d c) with
    | error e => exact Iff.rfl
    | ok p => exact ih p.1
  | insert τ new k ih =>
    refine forall_congr' fun c ↦ ?_
    cases d.insert S τ (new c d.next) with
    | error e => exact Iff.rfl
    | ok p => exact ih p.1

/-- A read hands the database to what follows. -/
theorem solo_query {f : Db Row → α} {k : α → Prog Row Err Key Ans β} :
    (query f >>= k).solo S may since F Q d ↔ (k (f d)).solo S may since F Q d := Iff.rfl

/-- A check either fails with its error or lets the rest run. -/
theorem solo_refuse {c : Prop} [Decidable c] {e : Err} {k : Unit → Prog Row Err Key Ans β}
    (hF : c → F e) (hk : ¬ c → (k ()).solo S may since F Q d) :
    (refuse c e >>= k).solo S may since F Q d := by
  by_cases h : c
  · rw [refuse, if_pos h]
    exact hF h
  · rw [refuse, if_neg h]
    exact hk h

/-- A value that has to be there. -/
theorem solo_require {o : Option α} {e : Err} {k : α → Prog Row Err Key Ans β}
    (hF : o = none → F e) (hk : ∀ a, o = some a → (k a).solo S may since F Q d) :
    (require o e >>= k).solo S may since F Q d := by
  cases o with
  | none => exact hF rfl
  | some a => exact hk a rfl

/-- A weaker demand is met where the stronger one is. -/
theorem solo_mono {F' : Err → Prop} {Q Q' : α → Db Row → Prop} {p : Prog Row Err Key Ans α}
    (hF : ∀ e, F e → F' e) (hQ : ∀ a d, Q a d → Q' a d) (h : p.solo S may since F Q d) :
    p.solo S may since F' Q' d := by
  induction p generalizing d with
  | ret a => exact hQ a d h
  | throw e => exact hF e h
  | now k ih => exact fun c hc ↦ ih c (h c hc)
  | ask q k ih => exact fun a ha ↦ ih a (h a ha)
  | select k ih => exact ih d h
  | lock key k ih => exact ih h
  | modify τ ch k ih =>
    intro c
    have hc := h c
    revert hc
    cases d.modify S τ (ch d c) with
    | error e => exact hF e
    | ok p => exact ih p.1
  | insert τ new k ih =>
    intro c
    have hc := h c
    revert hc
    cases d.insert S τ (new c d.next) with
    | error e => exact hF e
    | ok p => exact ih p.1

end Prog

/-! ### Without triggers -/

namespace Db

variable {S : Schema Row Err} {d d' : Db Row} {τ : Tab}

omit [DecidableEq Tab] in
/-- An obstacle is another row that conflicts. -/
theorem obstacle_eq_some {i : ℕ} {r : Row τ} {e : Err} (h : d.obstacle S τ i r = some e) :
    ∃ j q, j ≠ i ∧ d.row τ j = some q ∧ S.conflict τ r q = some e := by
  obtain ⟨j, hj, hjc⟩ := List.exists_of_findSome?_eq_some h
  obtain ⟨q, hq, hc⟩ := Option.bind_eq_some_iff.1 hjc
  exact ⟨j, q, by simpa using (List.mem_filter.1 hj).2, hq, hc⟩

omit [DecidableEq Tab] in
/-- Without an obstacle no other row conflicts. -/
theorem obstacle_eq_none {i j : ℕ} {r q : Row τ} (h : d.obstacle S τ i r = none) (hj : j ≠ i)
    (hq : d.row τ j = some q) : S.conflict τ r q = none := by
  have hmem : j ∈ (List.range d.next).filter fun j ↦ decide (j ≠ i) := by simp [lt_next hq, hj]
  have := List.findSome?_eq_none_iff.1 h j hmem
  rwa [hq] at this

/-- Where a schema has no triggers, none fire. -/
private theorem fire_of_plain (hS : S.Plain) (l : List (ℕ × Row τ × Option (Row τ))) (d : Db Row) :
    d.fire S τ l = .ok d := by
  induction l with
  | nil => rfl
  | cons c l ih =>
    obtain ⟨i, old, - | new⟩ := c
    · exact ih
    · simp only [fire, hS.after]
      exact ih

omit [DecidableEq Tab] in
/-- Where a schema has no triggers, the rows a statement returns are those it computes. -/
private theorem changes_of_plain (hS : S.Plain) (ch : Row τ → Option (Option (Row τ))) :
    (d.changes S τ ch).map (fun c ↦ c.2.2.getD c.2.1) =
      (d.all τ).filterMap fun r ↦ (ch r).map fun x ↦ x.getD r := by
  rw [changes, all, List.map_filterMap, List.filterMap_filterMap]
  refine List.filterMap_congr fun i _ ↦ ?_
  cases d.row τ i with
  | none => rfl
  | some r =>
    rw [Option.bind_some, Option.bind_some]
    rcases ch r with - | - | r' <;> simp [hS.before]

/-- **What a bulk statement does** in a database without triggers. If it fails, it would have
written a row next to one that it may not stand with. -/
theorem modify_of_plain (hS : S.Plain) (ch : Row τ → Option (Option (Row τ))) :
    (∃ e i r r' j q, d.modify S τ ch = .error e ∧ d.row τ i = some r ∧ ch r = some (some r') ∧
      j ≠ i ∧ (d.put τ ch).row τ j = some q ∧ S.conflict τ r' q = some e) ∨
    d.modify S τ ch =
      .ok ((d.all τ).filterMap fun r ↦ (ch r).map fun x ↦ x.getD r, d.put τ ch) := by
  have hmap : (fun r ↦ (ch r).map fun x ↦ x.map (S.before d τ)) = ch := funext fun r ↦ by
    rcases ch r with - | - | r' <;> simp [hS.before]
  simp only [modify, rewrite, hmap]
  split
  · next e he =>
    obtain ⟨⟨i, r'⟩, hp, ho⟩ := List.exists_of_findSome?_eq_some he
    obtain ⟨⟨i', r, x⟩, hc, hx⟩ := List.mem_filterMap.1 hp
    obtain ⟨r'', rfl, heq⟩ := Option.map_eq_some_iff.1 hx
    obtain ⟨rfl, rfl⟩ := Prod.mk.inj heq
    obtain ⟨i, _, hi⟩ := List.mem_filterMap.1 hc
    obtain ⟨r₀, hr₀, hm⟩ := Option.bind_eq_some_iff.1 hi
    obtain ⟨y, hy, hyx⟩ := Option.map_eq_some_iff.1 hm
    obtain ⟨rfl, rfl, hbefore⟩ : i = i' ∧ r₀ = r ∧ y.map (S.before d τ) = some r'' := by
      simpa using hyx
    obtain ⟨j, q, hj, hq, hconf⟩ := obstacle_eq_some ho
    obtain ⟨z, rfl, hz⟩ := Option.map_eq_some_iff.1 hbefore
    rw [hS.before] at hz
    exact .inl ⟨e, i, r₀, r'', j, q, rfl, hr₀, hz ▸ hy, hj, hq, hconf⟩
  · refine .inr ?_
    simp only [Except.bind, fire_of_plain hS, changes_of_plain hS]

/-- **What an insertion does** in a database without triggers. -/
theorem insert_of_plain (hS : S.Plain) (r : Row τ) :
    (∃ e j q, d.insert S τ r = .error e ∧ d.row τ j = some q ∧ S.conflict τ r q = some e) ∨
    d.insert S τ r = .ok (r, d.add τ r) ∧
      ∀ j q, d.row τ j = some q → S.conflict τ r q = none := by
  simp only [insert, hS.before]
  split
  · next e he =>
    obtain ⟨j, q, hj, hq, hc⟩ := obstacle_eq_some he
    rw [add_row_of_ne_next hj] at hq
    exact .inl ⟨e, j, q, rfl, hq, hc⟩
  · next hn =>
    exact .inr ⟨rfl, fun j q hq ↦ obstacle_eq_none hn (lt_next hq).ne (add_row_of_some hq)⟩

end Db

namespace Prog

variable {β : Type} {S : Schema Row Err} {may : ∀ q, Ans q → Prop} {since : ℤ} {F : Err → Prop}
  {Q : β → Db Row → Prop} {d : Db Row} {τ : Tab}

/-- An update without triggers: it fails on a conflict of a new value with another row, and
otherwise the rest runs on the rows it returns. -/
theorem solo_modify (hS : S.Plain) {ch : Db Row → ℤ → Row τ → Option (Option (Row τ))}
    {k : List (Row τ) → Prog Row Err Key Ans β}
    (hF : ∀ c e i r r' j q, d.row τ i = some r → ch d c r = some (some r') → j ≠ i →
      (d.put τ (ch d c)).row τ j = some q → S.conflict τ r' q = some e → F e)
    (hk : ∀ c,
      (k ((d.all τ).filterMap fun r ↦ (ch d c r).map fun x ↦ x.getD r)).solo S may since F Q
      (d.put τ (ch d c))) :
    (modify τ ch k).solo S may since F Q d := by
  intro c
  rcases Db.modify_of_plain (d := d) hS (ch d c) with ⟨e, i, r, r', j, q, h, hr, hc, hj, hq, he⟩ | h
  · rw [h]
    exact hF c e i r r' j q hr hc hj hq he
  · rw [h]
    exact hk c

/-- An update hands back the new versions in key order. -/
theorem solo_update (hS : S.Plain) {ch : ℤ → Row τ → Option (Row τ)}
    {k : List (Row τ) → Prog Row Err Key Ans β}
    (hF : ∀ c e i r r' j q, d.row τ i = some r → ch c r = some r' → j ≠ i →
      d.row τ j = some q → S.conflict τ r' ((ch c q).getD q) = some e → F e)
    (hk : ∀ c, (k ((d.all τ).filterMap (ch c))).solo S may since F Q
      (d.mapRows τ fun r ↦ (ch c r).getD r)) :
    (update τ ch >>= k).solo S may since F Q d := by
  have hmap : ∀ c, (fun r ↦ ((ch c r).map some).map fun x ↦ x.getD r) = ch c := fun c ↦
    funext fun r ↦ by cases ch c r <;> rfl
  refine solo_modify hS (fun c e i r r' j q hr hc hj hq ↦ ?_) fun c ↦ ?_
  · rw [Db.put_eq_mapRows, Db.mapRows_row_self] at hq
    obtain ⟨q₀, hq₀, rfl⟩ := Option.map_eq_some_iff.1 hq
    exact hF c e i r r' j q₀ hr (by simpa using hc) hj hq₀
  · rw [hmap, Db.put_eq_mapRows]
    exact hk c

/-- An insert: it fails on a conflict of the new row with another one, and otherwise the rest runs
on the new row. -/
theorem solo_insert (hS : S.Plain) {new : ℤ → ℕ → Row τ} {k : Row τ → Prog Row Err Key Ans β}
    (hF : ∀ c e j q, d.row τ j = some q → S.conflict τ (new c d.next) q = some e → F e)
    (hk : ∀ c, (∀ j q, d.row τ j = some q → S.conflict τ (new c d.next) q = none) →
      (k (new c d.next)).solo S may since F Q (d.add τ (new c d.next))) :
    (insert τ new k).solo S may since F Q d := by
  intro c
  rcases Db.insert_of_plain (d := d) hS (new c d.next) with ⟨e, j, q, h, hq, he⟩ | ⟨h, hn⟩
  · rw [h]
    exact hF c e j q hq he
  · rw [h]
    exact hk c hn

end Prog

end ReadCommitted

import Mathlib

/-!
# A multi-version row store

The storage half of a READ COMMITTED database: every row is a `Cell` that holds the committed
version and at most one *dirty* version, written by the transaction that holds the row's lock. A
transaction reads its own dirty versions and otherwise what is committed, so a store has one
**view** per reader (`Store.view`), the outsider who reads committed rows only included.

Nothing in this module knows a table, a service or a constraint of any application: tables are an
arbitrary type `Tab`, and `Row` gives each table its row type. Row keys are natural numbers drawn
from one counter, which stands for a source of fresh identifiers; a key is never used again, a
deletion included.

## Contents

* `Db`: what one reader sees, with the listing of a table in key order;
* `Cell` and `Store`: versions, locks and the clock;
* `Store.put`, `Store.add`, `Store.commit`, `Store.abort`: the four ways a transaction changes
  cells, each with its effect on every view.
-/

namespace ReadCommitted

/-! ### What one reader sees -/

section Db

variable {Tab : Type} {Row : Tab → Type}

/-- The rows one reader sees at one moment. -/
structure Db (Row : Tab → Type) where
  /-- Every key in use is below `next`. -/
  next : ℕ
  /-- The row under a key, if the reader sees one. -/
  row : ∀ τ, ℕ → Option (Row τ)
  /-- No row lives at or above `next`. -/
  bounded : ∀ τ i, next ≤ i → row τ i = none

namespace Db

/-- A table's rows in key order. -/
def all (d : Db Row) (τ : Tab) : List (Row τ) :=
  (List.range d.next).filterMap (d.row τ)

/-- Keys in use lie below the next one. -/
theorem lt_next {d : Db Row} {τ : Tab} {i : ℕ} {r : Row τ} (h : d.row τ i = some r) :
    i < d.next := by
  by_contra hge
  rw [d.bounded τ i (by omega)] at h
  exact absurd h (by simp)

/-- The rows of a table are those under its keys. -/
theorem mem_all {d : Db Row} {τ : Tab} {r : Row τ} : r ∈ d.all τ ↔ ∃ i, d.row τ i = some r := by
  simp only [all, List.mem_filterMap, List.mem_range]
  exact ⟨fun ⟨i, _, h⟩ ↦ ⟨i, h⟩, fun ⟨i, h⟩ ↦ ⟨i, lt_next h, h⟩⟩

private theorem filterMap_range_add {α : Type} (f : ℕ → Option α) (n k : ℕ)
    (h : ∀ i, n ≤ i → f i = none) :
    (List.range (n + k)).filterMap f = (List.range n).filterMap f := by
  induction k with
  | zero => rfl
  | succ k ih =>
    rw [← Nat.add_assoc, List.range_succ, List.filterMap_append, ih]
    simp [h (n + k) (by omega)]

/-- Two databases with the same rows list them alike, however far their keys go. -/
private theorem all_eq_of_le {d d' : Db Row} {τ : Tab} (hle : d.next ≤ d'.next)
    (h : ∀ i, d.row τ i = d'.row τ i) : d.all τ = d'.all τ := by
  obtain ⟨k, hk⟩ := Nat.exists_eq_add_of_le hle
  have hrow : d'.row τ = d.row τ := funext fun i ↦ (h i).symm
  rw [all, all, hrow, hk, filterMap_range_add _ _ _ (d.bounded τ)]

/-- A listing depends on the rows only, not on how many keys were drawn. -/
theorem all_congr {d d' : Db Row} {τ : Tab} (h : ∀ i, d.row τ i = d'.row τ i) :
    d.all τ = d'.all τ := by
  rcases Nat.le_total d.next d'.next with hle | hle
  · exact all_eq_of_le hle h
  · exact (all_eq_of_le hle fun i ↦ (h i).symm).symm

/-- The keys of the rows that satisfy `p`. -/
private def keys (d : Db Row) (τ : Tab) (p : Row τ → Bool) : List ℕ :=
  (List.range d.next).filter fun i ↦ (d.row τ i).any p

/-- The keys of a condition are those of the rows that meet it. -/
private theorem mem_keys {d : Db Row} {τ : Tab} {p : Row τ → Bool} {i : ℕ} :
    i ∈ d.keys τ p ↔ ∃ r, d.row τ i = some r ∧ p r = true := by
  simp only [keys, List.mem_filter, List.mem_range, Option.any_eq_true]
  exact ⟨fun h ↦ h.2, fun ⟨r, h, hp⟩ ↦ ⟨lt_next h, r, h, hp⟩⟩

/-- No key is listed twice. -/
private theorem nodup_keys (d : Db Row) (τ : Tab) (p : Row τ → Bool) : (d.keys τ p).Nodup :=
  List.nodup_range.filter _

/-- A condition holds for as many rows as it has keys. -/
private theorem countP_all (d : Db Row) (τ : Tab) (p : Row τ → Bool) :
    (d.all τ).countP p = (d.keys τ p).length := by
  rw [all, keys, List.countP_filterMap, List.countP_eq_length_filter]
  congr 2
  funext i
  cases d.row τ i <;> rfl

/-- If the rows that count in `d` count in `d'` as well, there are no fewer of them. -/
theorem countP_all_le {d d' : Db Row} {τ : Tab} {p p' : Row τ → Bool}
    (h : ∀ i r, d.row τ i = some r → p r = true → ∃ r', d'.row τ i = some r' ∧ p' r' = true) :
    (d.all τ).countP p ≤ (d'.all τ).countP p' := by
  rw [countP_all, countP_all]
  refine (List.subperm_of_subset (nodup_keys d τ p) fun i hi ↦ ?_).length_le
  obtain ⟨r, hr, hp⟩ := mem_keys.1 hi
  exact mem_keys.2 (h i r hr hp)

/-- One more row makes one more. -/
theorem countP_all_lt {d d' : Db Row} {τ : Tab} {p p' : Row τ → Bool} {k : ℕ} {q : Row τ}
    (h : ∀ i r, d.row τ i = some r → p r = true → ∃ r', d'.row τ i = some r' ∧ p' r' = true)
    (hk : d.row τ k = none) (hq : d'.row τ k = some q) (hp : p' q = true) :
    (d.all τ).countP p < (d'.all τ).countP p' := by
  rw [countP_all, countP_all]
  have hnot : k ∉ d.keys τ p := fun hm ↦ by
    obtain ⟨r, hr, _⟩ := mem_keys.1 hm
    rw [hk] at hr
    cases hr
  refine (List.subperm_of_subset (List.nodup_cons.2 ⟨hnot, nodup_keys d τ p⟩) fun i hi ↦
    ?_).length_le
  rcases List.mem_cons.1 hi with rfl | hi
  · exact mem_keys.2 ⟨q, hq, hp⟩
  · obtain ⟨r, hr, hp⟩ := mem_keys.1 hi
    exact mem_keys.2 (h i r hr hp)

end Db

end Db

/-! ### Cells -/

/-- One row: its committed version, and the version of the transaction that holds its lock. A
dirty `none` is a deletion that has not been committed. -/
@[ext] structure Cell (α : Type) where
  /-- The version every reader sees who has not written the row. -/
  committed : Option α
  /-- The lock's owner and its version. -/
  dirty : Option (ℕ × Option α)

namespace Cell

variable {α : Type}

/-- A key that was never written. -/
def empty : Cell α := ⟨none, none⟩

/-- What reader `v` sees: a transaction `some t` sees its own version, and everybody else the
committed one. The reader `none` is an outsider. -/
def seen (c : Cell α) (v : Option ℕ) : Option α :=
  match c.dirty with
  | some (u, x) => if v = some u then x else c.committed
  | none => c.committed

/-- Some transaction other than `t` holds the row's lock. -/
def lockedFor (c : Cell α) (t : ℕ) : Bool :=
  match c.dirty with
  | some (u, _) => decide (u ≠ t)
  | none => false

/-- `t` holds the row's lock. -/
def ownedBy (c : Cell α) (t : ℕ) : Prop := ∃ x, c.dirty = some (t, x)

instance (c : Cell α) (t : ℕ) : Decidable (c.ownedBy t) :=
  match h : c.dirty with
  | some (u, x) =>
    decidable_of_iff (u = t) ⟨fun he ↦ ⟨x, by rw [h, he]⟩, fun ⟨y, hy⟩ ↦ by
      rw [h] at hy
      exact (Prod.mk.inj (Option.some.inj hy)).1⟩
  | none => .isFalse fun ⟨y, hy⟩ ↦ by
    rw [h] at hy
    cases hy

/-- `t` writes the row. -/
def write (c : Cell α) (t : ℕ) (x : Option α) : Cell α := { c with dirty := some (t, x) }

/-- `t` commits: its version becomes the committed one. -/
def commit (c : Cell α) (t : ℕ) : Cell α :=
  match c.dirty with
  | some (u, x) => if u = t then ⟨x, none⟩ else c
  | none => c

/-- `t` gives up: its version is forgotten. -/
def abort (c : Cell α) (t : ℕ) : Cell α :=
  match c.dirty with
  | some (u, _) => if u = t then { c with dirty := none } else c
  | none => c

@[simp] theorem seen_empty (v : Option ℕ) : (empty : Cell α).seen v = none := rfl

@[simp] theorem seen_none (c : Cell α) : c.seen none = c.committed := by
  unfold seen
  split <;> simp

/-- A transaction sees its own write. -/
theorem seen_of_dirty {c : Cell α} {t : ℕ} {x : Option α} (h : c.dirty = some (t, x)) :
    c.seen (some t) = x := by
  simp [seen, h]

/-- Whoever has not written a row sees its committed version. -/
theorem seen_of_not_ownedBy {c : Cell α} {t : ℕ} (h : ¬ c.ownedBy t) :
    c.seen (some t) = c.committed := by
  unfold seen
  split
  · next u x hd =>
    refine if_neg fun he ↦ h ⟨x, ?_⟩
    rw [hd, Option.some.inj he]
  · rfl

@[simp] theorem seen_write_self (c : Cell α) (t : ℕ) (x : Option α) :
    (c.write t x).seen (some t) = x := by
  simp [write, seen]

/-- A commit leaves the rows of others. -/
theorem commit_of_not_ownedBy {c : Cell α} {t : ℕ} (h : ¬ c.ownedBy t) : c.commit t = c := by
  unfold commit
  split
  · next u x hd => exact if_neg fun he ↦ h ⟨x, by rw [hd, he]⟩
  · rfl

/-- A commit makes the transaction's write the committed row. -/
theorem commit_of_dirty {c : Cell α} {t : ℕ} {x : Option α} (h : c.dirty = some (t, x)) :
    c.commit t = ⟨x, none⟩ := by
  simp [commit, h]

/-- A rollback leaves the rows of others. -/
theorem abort_of_not_ownedBy {c : Cell α} {t : ℕ} (h : ¬ c.ownedBy t) : c.abort t = c := by
  unfold abort
  split
  · next u x hd => exact if_neg fun he ↦ h ⟨x, by rw [hd, he]⟩
  · rfl

/-- A rollback takes the transaction's write back. -/
theorem abort_of_dirty {c : Cell α} {t : ℕ} {x : Option α} (h : c.dirty = some (t, x)) :
    c.abort t = { c with dirty := none } := by
  simp [abort, h]

/-- What `t` commits is what `t` saw. -/
theorem committed_commit (c : Cell α) (t : ℕ) : (c.commit t).committed = c.seen (some t) := by
  unfold commit seen
  split
  · next u x hd =>
    by_cases h : u = t
    · simp [h]
    · simp [h, Ne.symm h]
  · rfl

/-- A row that `t` wrote reads alike for everybody once `t` has committed. -/
theorem seen_commit_of_ownedBy {c : Cell α} {t : ℕ} (h : c.ownedBy t) (v : Option ℕ) :
    (c.commit t).seen v = c.seen (some t) := by
  obtain ⟨x, hx⟩ := h
  rw [commit_of_dirty hx, seen_of_dirty hx]
  rfl

theorem seen_commit_of_not_ownedBy {c : Cell α} {t : ℕ} (h : ¬ c.ownedBy t) (v : Option ℕ) :
    (c.commit t).seen v = c.seen v := by
  rw [commit_of_not_ownedBy h]

/-- Once `t` has given up, it sees what is committed. -/
theorem seen_abort_self (c : Cell α) (t : ℕ) : (c.abort t).seen (some t) = c.committed := by
  by_cases h : c.ownedBy t
  · obtain ⟨x, hx⟩ := h
    rw [abort_of_dirty hx]
    rfl
  · rw [abort_of_not_ownedBy h, seen_of_not_ownedBy h]

/-- A row has one owner. -/
theorem ownedBy_unique {c : Cell α} {t u : ℕ} (h : c.ownedBy t) (h' : c.ownedBy u) : t = u := by
  obtain ⟨x, hx⟩ := h
  obtain ⟨y, hy⟩ := h'
  exact (Prod.mk.inj (Option.some.inj (hx.symm.trans hy))).1

@[simp] theorem committed_abort (c : Cell α) (t : ℕ) : (c.abort t).committed = c.committed := by
  unfold abort
  split
  · split <;> rfl
  · rfl

end Cell

/-! ### Stores -/

section Store

variable {Tab : Type} {Row : Tab → Type}

/-- The whole store: cells, the key counter and the wall clock. -/
structure Store (Row : Tab → Type) where
  /-- The next fresh key. -/
  next : ℕ
  /-- The wall clock. -/
  clock : ℤ
  /-- The cell under a key of a table. -/
  cell : ∀ τ, ℕ → Cell (Row τ)
  /-- Keys that were not drawn hold nothing. -/
  bounded : ∀ τ i, next ≤ i → cell τ i = Cell.empty

namespace Store

/-- The store before anything was written. -/
def init (Row : Tab → Type) : Store Row where
  next := 0
  clock := 0
  cell _ _ := Cell.empty
  bounded _ _ _ := rfl

/-- What reader `v` sees. -/
def view (σ : Store Row) (v : Option ℕ) : Db Row where
  next := σ.next
  row τ i := (σ.cell τ i).seen v
  bounded τ i h := by rw [σ.bounded τ i h]; rfl

@[simp] theorem view_row (σ : Store Row) (v : Option ℕ) (τ : Tab) (i : ℕ) :
    (σ.view v).row τ i = (σ.cell τ i).seen v := rfl

/-- What everybody sees. -/
abbrev committed (σ : Store Row) : Db Row := σ.view none

/-- The rows of `d` are committed, and nothing else is written. -/
def holding (d : Db Row) : Store Row where
  next := d.next
  clock := 0
  cell τ i := ⟨d.row τ i, none⟩
  bounded τ i h := by rw [d.bounded τ i h]; rfl

@[simp] theorem committed_holding (d : Db Row) : (holding d).committed = d := rfl

/-- The clock reads `c`. -/
def tick (σ : Store Row) (c : ℤ) : Store Row := { σ with clock := c }

@[simp] theorem tick_cell (σ : Store Row) (c : ℤ) (τ : Tab) (i : ℕ) :
    (σ.tick c).cell τ i = σ.cell τ i := rfl

@[simp] theorem tick_view (σ : Store Row) (c : ℤ) (v : Option ℕ) : (σ.tick c).view v = σ.view v :=
  rfl

/-- `t` commits everything it wrote. -/
def commit (σ : Store Row) (t : ℕ) : Store Row where
  next := σ.next
  clock := σ.clock
  cell τ i := (σ.cell τ i).commit t
  bounded τ i h := by rw [σ.bounded τ i h]; rfl

/-- `t` gives up everything it wrote. -/
def abort (σ : Store Row) (t : ℕ) : Store Row where
  next := σ.next
  clock := σ.clock
  cell τ i := (σ.cell τ i).abort t
  bounded τ i h := by rw [σ.bounded τ i h]; rfl

@[simp] theorem commit_cell (σ : Store Row) (t : ℕ) (τ : Tab) (i : ℕ) :
    (σ.commit t).cell τ i = (σ.cell τ i).commit t := rfl

@[simp] theorem abort_cell (σ : Store Row) (t : ℕ) (τ : Tab) (i : ℕ) :
    (σ.abort t).cell τ i = (σ.cell τ i).abort t := rfl

@[simp] theorem commit_clock (σ : Store Row) (t : ℕ) : (σ.commit t).clock = σ.clock := rfl

@[simp] theorem abort_clock (σ : Store Row) (t : ℕ) : (σ.abort t).clock = σ.clock := rfl

/-- After a commit, everybody sees what `t` saw. -/
theorem committed_commit (σ : Store Row) (t : ℕ) :
    (σ.commit t).committed = σ.view (some t) := by
  simp only [committed, view, Db.mk.injEq]
  refine ⟨rfl, ?_⟩
  funext τ i
  rw [commit_cell, Cell.seen_none, Cell.committed_commit]

/-- A rollback changes nothing for everybody else. -/
theorem committed_abort (σ : Store Row) (t : ℕ) : (σ.abort t).committed = σ.committed := by
  simp only [committed, view, Db.mk.injEq]
  refine ⟨rfl, ?_⟩
  funext τ i
  rw [abort_cell, Cell.seen_none, Cell.seen_none, Cell.committed_abort]

/-- `t` has no uncommitted work. -/
def Clean (σ : Store Row) (t : ℕ) : Prop := ∀ τ i, ¬ (σ.cell τ i).ownedBy t

/-- A transaction that has written nothing sees what is committed. -/
theorem view_of_clean {σ : Store Row} {t : ℕ} (h : σ.Clean t) :
    σ.view (some t) = σ.committed := by
  simp only [committed, view, Db.mk.injEq, true_and]
  funext τ i
  rw [Cell.seen_none, Cell.seen_of_not_ownedBy (h τ i)]

/-! ### Writing -/

variable [DecidableEq Tab]

/-- `t` writes every row of `τ` it sees for which `f` gives a version. -/
def put (σ : Store Row) (t : ℕ) (τ : Tab) (f : ℕ → Row τ → Option (Option (Row τ))) :
    Store Row where
  next := σ.next
  clock := σ.clock
  cell := Function.update σ.cell τ fun i ↦
    match ((σ.cell τ i).seen (some t)).bind (f i) with
    | some x => (σ.cell τ i).write t x
    | none => σ.cell τ i
  bounded τ' i h := by
    by_cases hτ : τ' = τ
    · subst hτ
      simp [σ.bounded τ' i h]
    · rw [Function.update_of_ne hτ, σ.bounded τ' i h]

variable {σ : Store Row} {t : ℕ} {τ : Tab} {f : ℕ → Row τ → Option (Option (Row τ))}

@[simp] theorem put_clock : (σ.put t τ f).clock = σ.clock := rfl

@[simp] theorem put_next : (σ.put t τ f).next = σ.next := rfl

/-- A write to one table leaves the others. -/
theorem put_cell_of_ne {τ' : Tab} (h : τ' ≠ τ) : (σ.put t τ f).cell τ' = σ.cell τ' :=
  Function.update_of_ne h _ _

/-- The cell of a row that is changed. -/
theorem put_cell_of_some {i : ℕ} {r : Row τ} {x : Option (Row τ)}
    (hr : (σ.cell τ i).seen (some t) = some r) (hx : f i r = some x) :
    (σ.put t τ f).cell τ i = (σ.cell τ i).write t x := by
  simp [put, hr, hx]

/-- The cell of a row that is passed over. -/
theorem put_cell_of_none {i : ℕ} (h : ∀ r, (σ.cell τ i).seen (some t) = some r → f i r = none) :
    (σ.put t τ f).cell τ i = σ.cell τ i := by
  have hn : ((σ.cell τ i).seen (some t)).bind (f i) = none :=
    Option.bind_eq_none_iff.2 fun r hr ↦ h r hr
  simp [put, hn]

/-- A written cell belongs to a row that was seen and matched; every other cell is unchanged. -/
theorem put_cell_cases (i : ℕ) :
    (∃ r x, (σ.cell τ i).seen (some t) = some r ∧ f i r = some x ∧
      (σ.put t τ f).cell τ i = (σ.cell τ i).write t x) ∨
    ((∀ r, (σ.cell τ i).seen (some t) = some r → f i r = none) ∧
      (σ.put t τ f).cell τ i = σ.cell τ i) := by
  by_cases h : ∀ r, (σ.cell τ i).seen (some t) = some r → f i r = none
  · exact Or.inr ⟨h, put_cell_of_none h⟩
  · push Not at h
    obtain ⟨r, hr, hx⟩ := h
    obtain ⟨x, hx⟩ := Option.ne_none_iff_exists'.1 hx
    exact Or.inl ⟨r, x, hr, hx, put_cell_of_some hr hx⟩

/-- `t` inserts a row under the next fresh key. -/
def add (σ : Store Row) (t : ℕ) (τ : Tab) (r : Row τ) : Store Row where
  next := σ.next + 1
  clock := σ.clock
  cell := Function.update σ.cell τ <|
    Function.update (σ.cell τ) σ.next (Cell.empty.write t (some r))
  bounded τ' i h := by
    by_cases hτ : τ' = τ
    · subst hτ
      rw [Function.update_self, Function.update_of_ne (by omega), σ.bounded τ' i (by omega)]
    · rw [Function.update_of_ne hτ, σ.bounded τ' i (by omega)]

variable {r : Row τ}

@[simp] theorem add_clock : (σ.add t τ r).clock = σ.clock := rfl

@[simp] theorem add_next : (σ.add t τ r).next = σ.next + 1 := rfl

/-- An insert into one table leaves the others. -/
theorem add_cell_of_ne {τ' : Tab} (h : τ' ≠ τ) : (σ.add t τ r).cell τ' = σ.cell τ' :=
  Function.update_of_ne h _ _

/-- The new row is written under the next key, and only its transaction sees it. -/
theorem add_cell_next : (σ.add t τ r).cell τ σ.next = ⟨none, some (t, some r)⟩ := by
  simp [add, Cell.write, Cell.empty]

/-- Every other cell of the table is as it was. -/
theorem add_cell_of_ne_next {i : ℕ} (h : i ≠ σ.next) : (σ.add t τ r).cell τ i = σ.cell τ i := by
  simp [add, h]

/-! ### Work that is not committed -/

/-- `t` worked: what is committed and what others have written is as it was. -/
structure WorkBy (t : ℕ) (σ σ' : Store Row) : Prop where
  /-- No time is taken. -/
  clock : σ'.clock = σ.clock
  /-- Nothing committed is touched. -/
  committed : ∀ τ i, (σ'.cell τ i).committed = (σ.cell τ i).committed
  /-- No other owner's version is touched. -/
  others : ∀ τ i u x, u ≠ t →
    ((σ'.cell τ i).dirty = some (u, x) ↔ (σ.cell τ i).dirty = some (u, x))

omit [DecidableEq Tab] in
/-- Nothing done is work of anybody's. -/
theorem WorkBy.refl (t : ℕ) (σ : Store Row) : WorkBy t σ σ :=
  ⟨rfl, fun _ _ ↦ rfl, fun _ _ _ _ _ ↦ Iff.rfl⟩

omit [DecidableEq Tab] in
/-- Work after work is work. -/
theorem WorkBy.trans {t : ℕ} {σ σ' σ'' : Store Row} (h : WorkBy t σ σ') (h' : WorkBy t σ' σ'') :
    WorkBy t σ σ'' :=
  ⟨h'.clock.trans h.clock, fun τ i ↦ (h'.committed τ i).trans (h.committed τ i),
    fun τ i u x hu ↦ (h'.others τ i u x hu).trans (h.others τ i u x hu)⟩

omit [DecidableEq Tab] in
/-- Nobody else notices the work of `t`. -/
theorem WorkBy.seen {t : ℕ} {σ σ' : Store Row} (h : WorkBy t σ σ') {v : Option ℕ}
    (hv : v ≠ some t) (τ : Tab) (i : ℕ) : (σ'.cell τ i).seen v = (σ.cell τ i).seen v := by
  rcases v with - | u
  · simpa using h.committed τ i
  · have hu : u ≠ t := fun he ↦ hv (by rw [he])
    by_cases ho : (σ.cell τ i).ownedBy u
    · obtain ⟨x, hx⟩ := ho
      rw [Cell.seen_of_dirty hx, Cell.seen_of_dirty ((h.others τ i u x hu).2 hx)]
    · have ho' : ¬ (σ'.cell τ i).ownedBy u := fun ⟨x, hx⟩ ↦ ho ⟨x, (h.others τ i u x hu).1 hx⟩
      rw [Cell.seen_of_not_ownedBy ho, Cell.seen_of_not_ownedBy ho', h.committed]

/-- A write takes no other transaction's open write away. -/
private theorem dirty_write_iff {α : Type} {c : Cell α} {t u : ℕ} {x y : Option α}
    (hl : c.lockedFor t = false) (hu : u ≠ t) :
    (c.write t x).dirty = some (u, y) ↔ c.dirty = some (u, y) := by
  refine ⟨fun h ↦ absurd (Option.some.inj h) fun he ↦ hu (Prod.mk.inj he).1.symm, fun h ↦ ?_⟩
  rw [Cell.lockedFor, h] at hl
  exact absurd hu (by simpa using hl)

/-- Writing rows that nobody else has locked is work. -/
theorem workBy_put
    (h : ∀ i r x, (σ.cell τ i).seen (some t) = some r → f i r = some x →
      (σ.cell τ i).lockedFor t = false) : WorkBy t σ (σ.put t τ f) := by
  refine ⟨rfl, fun τ' i ↦ ?_, fun τ' i u y hu ↦ ?_⟩ <;> by_cases hτ : τ' = τ
  · subst hτ
    rcases put_cell_cases (σ := σ) (t := t) (f := f) i with ⟨r, x, _, _, hc⟩ | ⟨_, hc⟩ <;> rw [hc]
    rfl
  · rw [put_cell_of_ne hτ]
  · subst hτ
    rcases put_cell_cases (σ := σ) (t := t) (f := f) i with ⟨r, x, hr, hx, hc⟩ | ⟨_, hc⟩ <;> rw [hc]
    exact dirty_write_iff (h i r x hr hx) hu
  · rw [put_cell_of_ne hτ]

/-- An insert is work of its transaction. -/
theorem workBy_add : WorkBy t σ (σ.add t τ r) := by
  refine ⟨rfl, fun τ' i ↦ ?_, fun τ' i u y hu ↦ ?_⟩ <;> by_cases hτ : τ' = τ
  · subst hτ
    by_cases hi : i = σ.next
    · rw [hi, add_cell_next, σ.bounded _ _ (Nat.le_refl _)]
      rfl
    · rw [add_cell_of_ne_next hi]
  · rw [add_cell_of_ne hτ]
  · subst hτ
    by_cases hi : i = σ.next
    · rw [hi, add_cell_next, σ.bounded _ _ (Nat.le_refl _)]
      simp [Cell.empty, Ne.symm hu]
    · rw [add_cell_of_ne_next hi]
  · rw [add_cell_of_ne hτ]

omit [DecidableEq Tab] in
/-- So is a rollback. -/
theorem workBy_abort : WorkBy t σ (σ.abort t) := by
  refine ⟨rfl, fun τ i ↦ by simp, fun τ i u x hu ↦ ?_⟩
  by_cases ho : (σ.cell τ i).ownedBy t
  · obtain ⟨y, hy⟩ := ho
    simp [Cell.abort_of_dirty hy, hy, Ne.symm hu]
  · rw [abort_cell, Cell.abort_of_not_ownedBy ho]

omit [DecidableEq Tab] in
/-- After a rollback nothing of the transaction is open. -/
theorem clean_abort : (σ.abort t).Clean t := by
  rintro τ i ⟨x, hx⟩
  by_cases ho : (σ.cell τ i).ownedBy t
  · obtain ⟨y, hy⟩ := ho
    simp [Cell.abort_of_dirty hy] at hx
  · rw [abort_cell, Cell.abort_of_not_ownedBy ho] at hx
    exact ho ⟨x, hx⟩

omit [DecidableEq Tab] in
/-- After a commit nothing of the transaction is open. -/
theorem clean_commit : (σ.commit t).Clean t := by
  rintro τ i ⟨x, hx⟩
  by_cases ho : (σ.cell τ i).ownedBy t
  · obtain ⟨y, hy⟩ := ho
    simp [Cell.commit_of_dirty hy] at hx
  · rw [commit_cell, Cell.commit_of_not_ownedBy ho] at hx
    exact ho ⟨x, hx⟩

end Store

end Store

end ReadCommitted

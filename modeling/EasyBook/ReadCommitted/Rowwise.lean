import EasyBook.ReadCommitted.Adequacy

/-!
# Laws about single rows

Many services are held to a law that speaks of one row at a time: what is true of every row that is
committed, and what a given transaction may make of a given row. A `Law` states both. `Law.Lawful`
is the invariant that keeps it in a store full of uncommitted versions: every committed row is good,
and every dirty version is one that its owner may make of the committed one. The lock on the row
keeps the second half true while the owner goes on, so nothing has to be known of the environment.

`Law.contract` is the contract of such a service, `wp_update_law` and `wp_create_law` are its rules
for the statements, and `committed_step` reads the law back off the runs: whatever a step changes
for everybody, it is a commit, and its transaction was allowed to make the change.

`Trace` is a run together with what is noted down of its steps.
-/

namespace ReadCommitted

variable {Tab : Type} {Row : Tab → Type} {Err Key : Type} {Ask : Type} {Ans : Ask → Type}
  {Res Op : Type}

/-- What is true of committed rows, and what transactions may make of them. -/
structure Law (Row : Tab → Type) where
  /-- A committed row under this key is in order. -/
  good : ∀ τ, ℕ → Row τ → Prop
  /-- Transaction `t` may replace the one version by the other; `none` is no row. -/
  may : ℕ → ∀ τ, ℕ → Option (Row τ) → Option (Row τ) → Prop
  /-- What may be made of a row in order is in order. -/
  keeps : ∀ {t τ i x r}, (∀ q, x = some q → good τ i q) → may t τ i x (some r) → good τ i r

namespace Law

variable {L : Law Row} {σ σ' : Store Row} {t : ℕ} {τ : Tab}

/-- The law in a store. -/
structure Lawful (L : Law Row) (σ : Store Row) : Prop where
  good : ∀ τ i r, (σ.cell τ i).committed = some r → L.good τ i r
  may : ∀ τ i t x, (σ.cell τ i).dirty = some (t, x) → L.may t τ i (σ.cell τ i).committed x

namespace Lawful

theorem init (L : Law Row) : L.Lawful (Store.init Row) :=
  ⟨fun _ _ _ h ↦ (nomatch h), fun _ _ _ _ h ↦ (nomatch h)⟩

theorem tick (h : L.Lawful σ) (c : ℤ) : L.Lawful (σ.tick c) := ⟨h.good, h.may⟩

/-- Whatever anybody sees is in order. -/
theorem seen_good (h : L.Lawful σ) {v : Option ℕ} {i : ℕ} {r : Row τ}
    (hr : (σ.cell τ i).seen v = some r) : L.good τ i r := by
  unfold Cell.seen at hr
  split at hr
  · next u x hd =>
    split at hr
    · exact L.keeps (fun q hq ↦ h.good τ i q hq) (hr ▸ h.may τ i u x hd)
    · exact h.good τ i r hr
  · exact h.good τ i r hr

/-- What `t` sees of a row is committed, or its own version. -/
theorem seen_cases (h : L.Lawful σ) {i : ℕ} {r : Row τ}
    (hr : (σ.cell τ i).seen (some t) = some r) :
    (σ.cell τ i).committed = some r ∨ L.may t τ i (σ.cell τ i).committed (some r) := by
  by_cases ho : (σ.cell τ i).ownedBy t
  · obtain ⟨x, hx⟩ := ho
    rw [Cell.seen_of_dirty hx] at hr
    exact .inr (hr ▸ h.may τ i t x hx)
  · rw [Cell.seen_of_not_ownedBy ho] at hr
    exact .inl hr

theorem commit (h : L.Lawful σ) (t : ℕ) : L.Lawful (σ.commit t) := by
  refine ⟨fun τ i r hr ↦ ?_, fun τ i u x hx ↦ ?_⟩
  · rw [Store.commit_cell, Cell.committed_commit] at hr
    exact h.seen_good hr
  · rw [Store.commit_cell] at hx ⊢
    by_cases ho : (σ.cell τ i).ownedBy t
    · obtain ⟨y, hy⟩ := ho
      rw [Cell.commit_of_dirty hy] at hx
      cases hx
    · rw [Cell.commit_of_not_ownedBy ho] at hx ⊢
      exact h.may τ i u x hx

theorem abort (h : L.Lawful σ) (t : ℕ) : L.Lawful (σ.abort t) := by
  refine ⟨fun τ i r hr ↦ h.good τ i r (by simpa using hr), fun τ i u x hx ↦ ?_⟩
  rw [Store.abort_cell] at hx ⊢
  rw [Cell.committed_abort]
  by_cases ho : (σ.cell τ i).ownedBy t
  · obtain ⟨y, hy⟩ := ho
    rw [Cell.abort_of_dirty hy] at hx
    cases hx
  · rw [Cell.abort_of_not_ownedBy ho] at hx
    exact h.may τ i u x hx

variable [DecidableEq Tab]

/-- Writing keeps the law if every version written is allowed. -/
theorem put (h : L.Lawful σ) {f : ℕ → Row τ → Option (Option (Row τ))}
    (hf : ∀ i r x, (σ.cell τ i).seen (some t) = some r → f i r = some x →
      L.may t τ i (σ.cell τ i).committed x) : L.Lawful (σ.put t τ f) := by
  have hcell : ∀ τ' i, (σ.put t τ f).cell τ' i = σ.cell τ' i ∨
      ∃ x, (σ.put t τ f).cell τ' i = (σ.cell τ' i).write t x ∧
        L.may t τ' i (σ.cell τ' i).committed x := fun τ' i ↦ by
    by_cases hτ : τ' = τ
    · subst hτ
      rcases Store.put_cell_cases (σ := σ) (t := t) (f := f) i with ⟨r, x, hr, hx, hc⟩ | ⟨_, hc⟩
      · exact .inr ⟨x, hc, hf i r x hr hx⟩
      · exact .inl hc
    · exact .inl (by rw [Store.put_cell_of_ne hτ])
  refine ⟨fun τ' i r hr ↦ ?_, fun τ' i u x hx ↦ ?_⟩
  · rcases hcell τ' i with hc | ⟨y, hc, _⟩ <;> rw [hc] at hr <;> exact h.good τ' i r hr
  · rcases hcell τ' i with hc | ⟨y, hc, hy⟩ <;> rw [hc] at hx ⊢
    · exact h.may τ' i u x hx
    · obtain ⟨rfl, rfl⟩ := Prod.mk.inj (Option.some.inj hx)
      exact hy

/-- So does an insertion. -/
theorem add (h : L.Lawful σ) {r : Row τ} (hr : L.may t τ σ.next none (some r)) :
    L.Lawful (σ.add t τ r) := by
  have hcell : ∀ τ' i, (σ.add t τ r).cell τ' i = σ.cell τ' i ∨
      ∃ x, (σ.add t τ r).cell τ' i = ⟨none, some (t, x)⟩ ∧ L.may t τ' i none x := fun τ' i ↦ by
    by_cases hτ : τ' = τ
    · subst hτ
      by_cases hi : i = σ.next
      · exact .inr ⟨some r, by rw [hi, Store.add_cell_next], hi ▸ hr⟩
      · exact .inl (Store.add_cell_of_ne_next hi)
    · exact .inl (by rw [Store.add_cell_of_ne hτ])
  refine ⟨fun τ' i q hq ↦ ?_, fun τ' i u x hx ↦ ?_⟩
  · rcases hcell τ' i with hc | ⟨y, hc, _⟩ <;> rw [hc] at hq
    · exact h.good τ' i q hq
    · cases hq
  · rcases hcell τ' i with hc | ⟨y, hc, hy⟩ <;> rw [hc] at hx ⊢
    · exact h.may τ' i u x hx
    · obtain ⟨rfl, rfl⟩ := Prod.mk.inj (Option.some.inj hx)
      exact hy

end Lawful

/-! ### The contract -/

/-- The contract of a service under a law. -/
def contract (L : Law Row) (answers : ℕ → Res → List (Db Row) → Store Row → Prop)
    (grant : ℕ → List (Db Row) → Store Row → ∀ τ, (Row τ → Option (Option (Row τ))) → Prop)
    (accept : ℕ → List (Db Row) → Store Row → ∀ τ, Row τ → Prop) : Contract Row Err Res where
  inv := L.Lawful
  ready _ _ := True
  answers := answers
  failing _ := True
  grant := grant
  accept := accept
  inv_tick h _ := h.tick _
  inv_commit h _ := h.commit _
  inv_abort h := h.abort _

end Law

/-- A database without triggers. -/
structure Schema.Plain (S : Schema Row Err) : Prop where
  before : ∀ d τ r, S.before d τ r = r
  after : ∀ τ r r', S.after τ r r' = none

namespace Store

variable [DecidableEq Tab] {S : Schema Row Err} {σ σ' : Store Row} {t : ℕ} {τ : Tab}
  {snapshot : Db Row}

omit [DecidableEq Tab] in
theorem version_of_plain (hS : S.Plain) {ch : Row τ → Option (Option (Row τ))} {i : ℕ}
    {r : Row τ} :
    σ.version S t τ snapshot ch i r =
      if (snapshot.row τ i).any fun r ↦ (ch r).isSome then ch r else none := by
  have hmap : ∀ x : Option (Option (Row τ)),
      x.map (Option.map (S.before (σ.view (some t)) τ)) = x := by
    rintro (- | - | r) <;> simp [hS.before]
  simp only [version]
  split
  · exact hmap (ch r)
  · rfl

theorem fire_of_plain (hS : S.Plain) {l : List (ℕ × Row τ × Option (Row τ))}
    (h : σ.fire S t τ l = .done σ') : σ' = σ := by
  refine fire_induction (P := fun σ' ↦ σ' = σ) (fun _ _ _ _ _ _ ha ↦ ?_) h rfl
  rw [hS.after] at ha
  cases ha

/-- A bulk statement in a database without triggers writes free cells of its table, each as it
says. -/
theorem cell_modify_of_plain (hS : S.Plain) {ch : Row τ → Option (Option (Row τ))}
    {rows : List (Row τ)} (h : σ.modify S t τ snapshot ch = .done (rows, σ')) :
    (∀ τ', τ' ≠ τ → σ'.cell τ' = σ.cell τ') ∧
      ∀ i, σ'.cell τ i = σ.cell τ i ∨ ∃ r x, (σ.cell τ i).seen (some t) = some r ∧ ch r = some x ∧
        (σ.cell τ i).lockedFor t = false ∧ σ'.cell τ i = (σ.cell τ i).write t x := by
  obtain ⟨_, σ₁, hr, hf⟩ := modify_eq_done h
  obtain rfl := fire_of_plain hS hf
  refine ⟨fun τ' hτ ↦ hr.cell_of_ne hτ, fun i ↦ ?_⟩
  rw [hr.eq_put]
  rcases put_cell_cases (σ := σ) (t := t) (f := σ.version S t τ snapshot ch) i with
    ⟨r, x, hseen, hv, hc⟩ | ⟨_, hc⟩
  · obtain ⟨y, hy, rfl⟩ := (version_eq_some hv).2
    have hx : y.map (S.before (σ.view (some t)) τ) = y := by cases y <;> simp [hS.before]
    exact .inr ⟨r, y, hseen, hy, hr.lockedFor_eq_false hv, by rw [hc, hx]⟩
  · exact .inl hc

/-- **What a bulk update did** in a database without triggers: the rows it hands back are those it
wrote, in key order, and every one of them was free. -/
structure Updated (σ : Store Row) (t : ℕ) (τ : Tab) (snapshot : Db Row)
    (ch : Row τ → Option (Row τ)) (rows : List (Row τ)) (σ' : Store Row) : Prop where
  /-- Every other cell is as it was. -/
  cell : ∀ τ' i, (σ'.cell τ' i) = σ.cell τ' i ∨ τ' = τ
  /-- A cell was written, or there was nothing to write. -/
  cases : ∀ i, (∃ r r', (σ.cell τ i).seen (some t) = some r ∧ ch r = some r' ∧
      (∃ r₀, snapshot.row τ i = some r₀ ∧ ch r₀ ≠ none) ∧
      σ'.cell τ i = (σ.cell τ i).write t (some r') ∧ r' ∈ rows) ∨
    ((∀ r r₀, (σ.cell τ i).seen (some t) = some r → snapshot.row τ i = some r₀ → ch r₀ ≠ none →
        ch r = none) ∧ σ'.cell τ i = σ.cell τ i)
  /-- What was handed back was written. -/
  mem : ∀ r' ∈ rows, ∃ i r, (σ.cell τ i).seen (some t) = some r ∧ ch r = some r' ∧
    σ'.cell τ i = (σ.cell τ i).write t (some r')
  /-- It is work. -/
  workBy : WorkBy t σ σ'

theorem modify_of_plain (hS : S.Plain) {ch : Row τ → Option (Row τ)} {rows : List (Row τ)}
    (h : σ.modify S t τ snapshot (fun r ↦ (ch r).map some) = .done (rows, σ')) :
    Updated σ t τ snapshot ch rows σ' := by
  obtain ⟨hrows, σ₁, hr, hf⟩ := modify_eq_done h
  obtain rfl := fire_of_plain hS hf
  have hmem : ∀ i r r', (σ.cell τ i).seen (some t) = some r → ch r = some r' →
      (∃ r₀, snapshot.row τ i = some r₀ ∧ ch r₀ ≠ none) → r' ∈ rows := by
    rintro i r r' hseen hch ⟨r₀, hr₀, hc₀⟩
    rw [hrows]
    refine List.mem_map.2 ⟨(i, r, some r'), mem_changes.2 ⟨hseen, ?_⟩, rfl⟩
    obtain ⟨q, hq⟩ := Option.ne_none_iff_exists'.1 hc₀
    simp [version_of_plain hS, hr₀, hq, hch]
  refine ⟨fun τ' i ↦ ?_, fun i ↦ ?_, fun r' hr' ↦ ?_, workBy_modify h⟩
  · by_cases hτ : τ' = τ
    · exact .inr hτ
    · exact .inl (by rw [hr.cell_of_ne hτ])
  · rcases hr.update_cases i with ⟨r, r', r₀, hseen, hch, hr₀, hc₀, hc⟩ | hn
    · rw [hS.before] at hc
      exact .inl ⟨r, r', hseen, hch, ⟨r₀, hr₀, hc₀⟩, hc, hmem i r r' hseen hch ⟨r₀, hr₀, hc₀⟩⟩
    · exact .inr hn
  · rw [hrows] at hr'
    obtain ⟨⟨i, r, x⟩, hc, rfl⟩ := List.mem_map.1 hr'
    obtain ⟨hseen, hv⟩ := mem_changes.1 hc
    obtain ⟨y, hy, rfl⟩ := (version_eq_some hv).2
    obtain ⟨q, hq, rfl⟩ := Option.map_eq_some_iff.1 hy
    refine ⟨i, r, hseen, ?_, ?_⟩
    · simpa [hS.before] using hq
    · rw [hr.eq_put, put_cell_of_some hseen hv]
      simp [hS.before]

omit [DecidableEq Tab] in
/-- If nothing of the table was written before, every row owned afterwards was committed, and is
written as the statement says. -/
theorem Updated.of_clean {ch : Row τ → Option (Row τ)} {rows : List (Row τ)}
    (h : Updated σ t τ snapshot ch rows σ') (hc : ∀ i, ¬ (σ.cell τ i).ownedBy t) {i : ℕ}
    (ho : (σ'.cell τ i).ownedBy t) : ∃ r r', (σ.cell τ i).committed = some r ∧ ch r = some r' ∧
      (σ'.cell τ i).committed = some r ∧ (σ'.cell τ i).dirty = some (t, some r') := by
  rcases h.cases i with ⟨r, r', hseen, hch, _, hcell, _⟩ | ⟨_, hcell⟩
  · rw [Cell.seen_of_not_ownedBy (hc i)] at hseen
    exact ⟨r, r', hseen, hch, by rw [hcell]; exact hseen, by rw [hcell]; rfl⟩
  · exact absurd (hcell ▸ ho) (hc i)

theorem insert_of_plain (hS : S.Plain) {r r' : Row τ} (h : σ.insert S t τ r = .done (r', σ')) :
    r' = r ∧ σ' = σ.add t τ r := by
  obtain ⟨rfl, rfl, _⟩ := insert_eq_done h
  rw [hS.before]
  exact ⟨rfl, rfl⟩

/-- It is a write to the empty cell under the fresh key. -/
theorem cell_insert_of_plain (hS : S.Plain) {r r' : Row τ} (h : σ.insert S t τ r = .done (r', σ')) :
    (∀ τ', τ' ≠ τ → σ'.cell τ' = σ.cell τ') ∧
      ∀ i, σ'.cell τ i = σ.cell τ i ∨ i = σ.next ∧ (σ.cell τ i).lockedFor t = false ∧
        σ'.cell τ i = (σ.cell τ i).write t (some r) := by
  obtain ⟨rfl, rfl⟩ := insert_of_plain hS h
  refine ⟨fun τ' hτ ↦ add_cell_of_ne hτ, fun i ↦ ?_⟩
  by_cases hi : i = σ.next
  · subst hi
    rw [σ.bounded τ σ.next (le_refl _), add_cell_next]
    exact .inr ⟨rfl, rfl, rfl⟩
  · exact .inl (add_cell_of_ne_next hi)

end Store

namespace Law.Lawful

variable [DecidableEq Tab] {S : Schema Row Err} {L : Law Row} {t : ℕ} {σ σ' : Store Row} {τ : Tab}

/-- A bulk statement keeps the law if it allows what is made of each row seen. -/
theorem modify (h : L.Lawful σ) (hS : S.Plain) {snapshot : Db Row}
    {ch : Row τ → Option (Option (Row τ))} {rows : List (Row τ)}
    (hm : σ.modify S t τ snapshot ch = .done (rows, σ'))
    (hmay : ∀ i r x, (σ.cell τ i).seen (some t) = some r → ch r = some x →
      L.may t τ i (σ.cell τ i).committed x) : L.Lawful σ' := by
  obtain ⟨_, σ₁, hr, hf⟩ := Store.modify_eq_done hm
  obtain rfl := Store.fire_of_plain hS hf
  rw [hr.eq_put]
  refine h.put fun i r x hseen hv ↦ ?_
  obtain ⟨y, hy, rfl⟩ := (Store.version_eq_some hv).2
  have hx : y.map (S.before (σ.view (some t)) τ) = y := by cases y <;> simp [hS.before]
  rw [hx]
  exact hmay i r y hseen hy

/-- So does an insertion. -/
theorem insert (h : L.Lawful σ) (hS : S.Plain) {r r' : Row τ}
    (hi : σ.insert S t τ r = .done (r', σ')) (hmay : L.may t τ σ.next none (some r)) :
    L.Lawful σ' := by
  obtain ⟨rfl, rfl⟩ := Store.insert_of_plain hS hi
  exact h.add hmay

end Law.Lawful

/-! ### Rules for the statements -/

section Rules

variable [DecidableEq Tab] {α β : Type} {S : Schema Row Err} {L : Law Row}
  {answers : ℕ → Res → List (Db Row) → Store Row → Prop}
  {grant : ℕ → List (Db Row) → Store Row → ∀ τ, (Row τ → Option (Option (Row τ))) → Prop}
  {accept : ℕ → List (Db Row) → Store Row → ∀ τ, Row τ → Prop}
  {t : ℕ} {σ : Store Row} {F : Failure Row Err → Prop}
  {Q : β → Reading Row → List (Db Row) → Store Row → Prop} {clocked : Reading Row}
  {reads : List (Db Row)}

/-- An update keeps the law if each version it writes is allowed. -/
theorem wp_update_law (hS : S.Plain) (hF : ∀ f, F f) {τ : Tab} {ch : ℤ → Row τ → Option (Row τ)}
    {k : List (Row τ) → Prog Row Err Key Ans β}
    (hmay : ∀ σ' c i r r', Rely (L.contract answers grant accept : Contract Row Err Res) t σ σ' →
      L.Lawful σ' → (σ'.cell τ i).seen (some t) = some r → ch c r = some r' →
      grant t reads σ' τ (fun r ↦ (ch c r).map some) →
      L.may t τ i (σ'.cell τ i).committed (some r'))
    (hk : ∀ σ₀ σ₁ rows σ₂, Rely (L.contract answers grant accept : Contract Row Err Res) t σ σ₀ →
      Rely (L.contract answers grant accept : Contract Row Err Res) t σ₀ σ₁ → L.Lawful σ₁ →
      grant t reads σ₁ τ (fun r ↦ (ch σ₀.clock r).map some) →
      Store.Updated σ₁ t τ (σ₀.view (some t)) (ch σ₀.clock) rows σ₂ → L.Lawful σ₂ →
      wp (L.contract answers grant accept) S t F Q (k rows) clocked reads σ₂) :
    wp (L.contract answers grant accept) S t F Q (Prog.update τ ch >>= k) clocked reads σ := by
  refine wp_update.2 fun σ₀ h₀ hσ₀ σ₁ h₁ hσ₁ ↦ ⟨fun rows σ₂ hm hg ↦ ?_, fun e _ ↦ hF _⟩
  have hlaw : L.Lawful σ₁ := hσ₁
  have hu := Store.modify_of_plain hS hm
  have hσ₂ : L.Lawful σ₂ := hlaw.modify hS hm fun i r x hseen hx ↦ by
    obtain ⟨r', hr', rfl⟩ := Option.map_eq_some_iff.1 hx
    exact hmay σ₁ _ i r r' (h₀.trans h₁) hlaw hseen hr' hg
  exact ⟨hσ₂, hk σ₀ σ₁ rows σ₂ h₀ h₁ hlaw hg hu hσ₂⟩

/-- An insertion keeps the law if the row is allowed. -/
theorem wp_create_law (hS : S.Plain) (hF : ∀ f, F f) {τ : Tab} {new : ℤ → ℕ → Row τ}
    {k : Row τ → Prog Row Err Key Ans β}
    (h : ∀ σ₁, Rely (L.contract answers grant accept : Contract Row Err Res) t σ σ₁ →
      L.Lawful σ₁ → accept t reads σ₁ τ (new σ₁.clock σ₁.next) →
      L.may t τ σ₁.next none (some (new σ₁.clock σ₁.next)) ∧
        (L.Lawful (σ₁.add t τ (new σ₁.clock σ₁.next)) →
          wp (L.contract answers grant accept) S t F Q (k (new σ₁.clock σ₁.next)) clocked reads
            (σ₁.add t τ (new σ₁.clock σ₁.next)))) :
    wp (L.contract answers grant accept) S t F Q (Prog.create τ new >>= k) clocked reads σ := by
  refine wp_create.2 fun σ₁ h₁ hσ₁ ↦ ⟨fun r σ₂ hi ha ↦ ?_, fun e _ ↦ hF _⟩
  obtain ⟨rfl, rfl⟩ := Store.insert_of_plain hS hi
  have hlaw : L.Lawful σ₁ := hσ₁
  obtain ⟨hmay, hk⟩ := h σ₁ h₁ hlaw ha
  exact ⟨hlaw.add hmay, hk (hlaw.add hmay)⟩

end Rules

/-! ### What a run commits -/

section Runs

variable [DecidableEq Tab] [DecidableEq Key] {sys : System Row Err Key Ans Res Op}
  {C : Contract Row Err Res} {Post : List (Failure Row Err) → Except Err Res → Prop}
  {w w' : World Row Err Key Ans Res} {e : Event Err Ans Op}

/-- The result that a step commits, with its session. -/
def World.commits (w : World Row Err Key Ans Res) : Event Err Ans Op → List (ℕ × Res)
  | .run t => ((w.returning t).map fun p ↦ (t, p.1)).toList
  | _ => []

/-- A run from `w₀`, with what `obs` notes down of its steps, the last note first. -/
inductive System.Trace {α : Type} (sys : System Row Err Key Ans Res Op)
    (allow : World Row Err Key Ans Res → Event Err Ans Op → Prop)
    (obs : World Row Err Key Ans Res → Event Err Ans Op → List α)
    (w₀ : World Row Err Key Ans Res) : List α → World Row Err Key Ans Res → Prop
  | refl : Trace sys allow obs w₀ [] w₀
  | step {log w w' e} : Trace sys allow obs w₀ log w → allow w e → sys.step e w = some w' →
      Trace sys allow obs w₀ (obs w e ++ log) w'

theorem System.Trace.reach {α : Type}
    {allow : World Row Err Key Ans Res → Event Err Ans Op → Prop}
    {obs : World Row Err Key Ans Res → Event Err Ans Op → List α}
    {w₀ : World Row Err Key Ans Res} {log : List α} (h : sys.Trace allow obs w₀ log w)
    (h₀ : sys.Reach allow w₀) : sys.Reach allow w := by
  induction h with
  | refl => exact h₀
  | step _ ha hs ih => exact .step ih ha hs

/-- What `obs` notes down of a schedule, on top of `log`. -/
def System.observe {α : Type} (sys : System Row Err Key Ans Res Op)
    (obs : World Row Err Key Ans Res → Event Err Ans Op → List α) :
    List (Event Err Ans Op) → World Row Err Key Ans Res → List α → List α
  | [], _, log => log
  | e :: es, w, log =>
    match sys.step e w with
    | some w' => observe sys obs es w' (obs w e ++ log)
    | none => log

theorem System.Trace.execUnder {α : Type}
    {allow : World Row Err Key Ans Res → Event Err Ans Op → Prop} [∀ w e, Decidable (allow w e)]
    {obs : World Row Err Key Ans Res → Event Err Ans Op → List α}
    {w₀ : World Row Err Key Ans Res} {log : List α} {es : List (Event Err Ans Op)}
    (h : sys.Trace allow obs w₀ log w) (hes : sys.execUnder allow es w = some w') :
    sys.Trace allow obs w₀ (sys.observe obs es w log) w' := by
  induction es generalizing w log with
  | nil =>
    obtain rfl := Option.some.inj hes
    exact h
  | cons e es ih =>
    unfold System.execUnder at hes
    split at hes
    · next ha =>
      obtain ⟨w₁, hs, hes⟩ := Option.bind_eq_some_iff.1 hes
      rw [System.observe, hs]
      exact ih (.step h ha hs) hes
    · cases hes

theorem System.Trace.exec {α : Type}
    {allow : World Row Err Key Ans Res → Event Err Ans Op → Prop}
    {obs : World Row Err Key Ans Res → Event Err Ans Op → List α}
    {w₀ : World Row Err Key Ans Res} {log : List α} {es : List (Event Err Ans Op)}
    (h : sys.Trace allow obs w₀ log w) (ha : ∀ w, ∀ e ∈ es, allow w e)
    (hes : sys.exec es w = some w') : sys.Trace allow obs w₀ (sys.observe obs es w log) w' := by
  induction es generalizing w log with
  | nil =>
    obtain rfl := Option.some.inj hes
    exact h
  | cons e es ih =>
    obtain ⟨w₁, hs, hes⟩ := Option.bind_eq_some_iff.1 hes
    rw [System.observe, hs]
    exact ih (.step h (ha w e List.mem_cons_self) hs)
      (fun w e he ↦ ha w e (List.mem_cons_of_mem _ he)) hes

omit [DecidableEq Tab] in
/-- What a transaction does before its end is not committed. -/
private theorem Store.WorkBy.committed_row {σ σ' : Store Row} {t : ℕ} (h : Store.WorkBy t σ σ')
    (τ : Tab) (i : ℕ) : σ'.committed.row τ i = σ.committed.row τ i := by
  simpa using h.committed τ i

/-- A statement inside a transaction that does not return commits nothing. -/
private theorem System.committed_advance {t : ℕ} {log : List (Failure Row Err)}
    {x : Txn Row Err Key Ans Res} (hret : ∀ r, x.prog ≠ .ret r)
    (hs : sys.advance w t log x = some w') (τ : Tab) (i : ℕ) :
    w'.store.committed.row τ i = w.store.committed.row τ i := by
  unfold System.advance at hs
  split at hs
  · next r hprog => exact absurd hprog (hret r)
  · rw [← Option.some.inj hs]
    exact (Store.workBy_abort (t := t)).committed_row τ i
  · rw [← Option.some.inj hs]
    rfl
  · cases hs
  · rw [← Option.some.inj hs]
    rfl
  -- A lock, which is granted or waited for.
  · split at hs
    · rw [← Option.some.inj hs]
      rfl
    · cases hs
  -- An update, whose snapshot comes first.
  · split at hs
    · rw [← Option.some.inj hs]
      rfl
    · split at hs
      · cases hs
      · rw [← Option.some.inj hs]
        exact (Store.workBy_abort (t := t)).committed_row τ i
      · next he =>
        rw [← Option.some.inj hs]
        exact (Store.workBy_modify he).committed_row τ i
  · split at hs
    · cases hs
    · rw [← Option.some.inj hs]
      exact (Store.workBy_abort (t := t)).committed_row τ i
    · next he =>
      rw [← Option.some.inj hs]
      exact (Store.workBy_insert he).committed_row τ i

/-- A step changes what is committed only as the commit of a transaction that returns. -/
theorem System.committed_step (hw : Healthy sys C Post w) (hs : sys.step e w = some w') :
    (w.commits e = [] ∧ ∀ τ i, w'.store.committed.row τ i = w.store.committed.row τ i) ∨
      ∃ t r reads, e = .run t ∧ w.returning t = some (r, reads) ∧ w.commits e = [(t, r)] ∧
        w'.store = w.store.commit t := by
  -- Of all events only a statement of a call can commit, and only where its transaction returns.
  cases e with
  | tick c =>
    simp only [System.step] at hs
    split at hs
    · exact .inl ⟨rfl, fun τ i ↦ by rw [← Option.some.inj hs]; rfl⟩
    · cases hs
  | call t op =>
    simp only [System.step] at hs
    split at hs
    · exact .inl ⟨rfl, fun τ i ↦ by rw [← Option.some.inj hs]; rfl⟩
    · cases hs
  | answer t oracle =>
    refine .inl ⟨rfl, fun τ i ↦ ?_⟩
    simp only [System.step] at hs
    split at hs
    · rw [← Option.some.inj hs]
      rfl
    · split at hs
      · rw [← Option.some.inj hs]
        rfl
      · cases hs
    · cases hs
  | lose t e =>
    refine .inl ⟨rfl, fun τ i ↦ ?_⟩
    simp only [System.step] at hs
    split at hs
    · split at hs
      · rw [← Option.some.inj hs]
        exact (Store.workBy_abort (t := t)).committed_row τ i
      · cases hs
    · cases hs
  | run t =>
    rcases hr : w.returning t with - | ⟨r, reads⟩
    · refine .inl ⟨by rw [World.commits, hr]; rfl, fun τ i ↦ ?_⟩
      simp only [System.step] at hs
      split at hs
      · rw [← Option.some.inj hs]
        rfl
      · rw [← Option.some.inj hs]
        rfl
      · next log x hp =>
        refine System.committed_advance (fun r hprog ↦ ?_) hs τ i
        -- a transaction that returns has no statement under way
        have ht := hw.holds t
        rw [hp] at ht
        obtain ⟨F, G, hx, _⟩ := ht
        obtain ⟨prog, issued, clocked, reads, after⟩ := x
        obtain rfl : prog = _ := hprog
        cases issued with
        | none =>
          rw [World.returning, hp] at hr
          cases hr
        | some i => exact hx.elim
      · cases hs
    · exact .inr ⟨t, r, reads, rfl, hr, by rw [World.commits, hr]; rfl,
        System.store_of_returning hr hs⟩

end Runs

/-- What a transaction of a lawful store commits, it may. -/
theorem Law.Lawful.commit_cases {L : Law Row} {σ : Store Row} (h : L.Lawful σ) (t : ℕ) (τ : Tab)
    (i : ℕ) :
    (σ.commit t).committed.row τ i = σ.committed.row τ i ∧ ¬ (σ.cell τ i).ownedBy t ∨
      (σ.cell τ i).ownedBy t ∧
        L.may t τ i (σ.committed.row τ i) ((σ.commit t).committed.row τ i) := by
  rw [Store.committed_commit]
  simp only [Store.view_row, Cell.seen_none]
  by_cases ho : (σ.cell τ i).ownedBy t
  · refine .inr ⟨ho, ?_⟩
    obtain ⟨x, hx⟩ := ho
    rw [Cell.seen_of_dirty hx]
    exact h.may τ i t x hx
  · exact .inl ⟨Cell.seen_of_not_ownedBy ho, ho⟩

end ReadCommitted

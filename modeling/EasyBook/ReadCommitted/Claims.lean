import EasyBook.ReadCommitted.Triggers

/-!
# Sweeps that claim rows

A sweep is one bulk update that marks the rows it finds unmarked and hands back their keys, so that
somebody can be told of them afterwards. Several may run at once, each with a snapshot of its own,
and the statement is what keeps them from claiming a row twice: it waits for the row and looks
again.

`Claimed` is what such a statement has established, `wp_update_claims` its rule, and
`System.Trace.claims` the run lemma: what is claimed open and stays closed is claimed once.
-/

namespace ReadCommitted

variable {Tab : Type} {Row : Tab → Type} {Err Key : Type} {Ask : Type} {Ans : Ask → Type}
  {Res Op : Type}

/-- No AFTER trigger of a table writes to the table itself. -/
def Schema.Outward (S : Schema Row Err) (τ : Tab) : Prop :=
  ∀ old new τ' ch, S.after τ old new = some ⟨τ', ch⟩ → τ' ≠ τ

/-- Transaction `t` has written the rows `ids` of a table and no others, each once, and made of a
committed version what `P` says. -/
structure Store.Claimed (σ : Store Row) (t : ℕ) (τ : Tab) (P : Row τ → Row τ → Prop)
    (ids : List ℕ) : Prop where
  nodup : ids.Nodup
  mem_iff : ∀ i, i ∈ ids ↔ (σ.cell τ i).ownedBy t
  of_mem : ∀ i ∈ ids, ∃ r r', σ.cell τ i = ⟨some r, some (t, some r')⟩ ∧ P r r'

namespace Store.Claimed

variable {σ σ' : Store Row} {t : ℕ} {τ : Tab} {P : Row τ → Row τ → Prop} {ids : List ℕ}

/-- The others leave it alone. -/
theorem rely {C : Contract Row Err Res} (h : σ.Claimed t τ P ids) (hr : Rely C t σ σ') :
    σ'.Claimed t τ P ids where
  nodup := h.nodup
  mem_iff i := (h.mem_iff i).trans (hr.ownedBy_iff τ i).symm
  of_mem i hi := by
    rw [hr.cell_of_ownedBy ((h.mem_iff i).1 hi)]
    exact h.of_mem i hi

/-- What is committed with it. -/
theorem commit (h : σ.Claimed t τ P ids) (i : ℕ) :
    (i ∈ ids ∧ ∃ r r', σ.committed.row τ i = some r ∧
      (σ.commit t).committed.row τ i = some r' ∧ P r r') ∨
    (i ∉ ids ∧ (σ.commit t).committed.row τ i = σ.committed.row τ i) := by
  rw [Store.committed_commit]
  simp only [Store.view_row, Cell.seen_none]
  by_cases hi : i ∈ ids
  · obtain ⟨r, r', hcell, hP⟩ := h.of_mem i hi
    refine .inl ⟨hi, r, r', by rw [hcell], ?_, hP⟩
    rw [hcell]
    exact Cell.seen_of_dirty rfl
  · exact .inr ⟨hi, Cell.seen_of_not_ownedBy fun ho ↦ hi ((h.mem_iff i).2 ho)⟩

end Store.Claimed

section Statements

variable [DecidableEq Tab] {S : Schema Row Err} {σ σ' : Store Row} {t : ℕ} {τ : Tab}
  {snapshot : Db Row}

/-- The AFTER triggers leave their own table alone. -/
theorem Store.cell_fire_of_outward (hS : S.Outward τ) {l : List (ℕ × Row τ × Option (Row τ))}
    (h : σ.fire S t τ l = .done σ') : σ'.cell τ = σ.cell τ :=
  Store.fire_induction (P := fun σ' ↦ σ'.cell τ = σ.cell τ)
    (fun _ _ _ _ _ _ ha _ _ hr hσ ↦ (hr.cell_of_ne (hS _ _ _ _ ha).symm).trans hσ) h rfl

/-- **A bulk update claims the rows that it hands back.** -/
theorem Store.claimed_of_modify (hS : S.Outward τ) {key : Row τ → ℕ} {P : Row τ → Row τ → Prop}
    {ch : Row τ → Option (Row τ)} {rows : List (Row τ)}
    (hclean : ∀ i, ¬ (σ.cell τ i).ownedBy t)
    (hch : ∀ i r r', (σ.cell τ i).committed = some r → ch r = some r' →
      key (S.before (σ.view (some t)) τ r') = i ∧ P r (S.before (σ.view (some t)) τ r'))
    (h : σ.modify S t τ snapshot (fun r ↦ (ch r).map some) = .done (rows, σ')) :
    σ'.Claimed t τ P (rows.map key) := by
  obtain ⟨hrows, σ₁, hrw, hfire⟩ := Store.modify_eq_done h
  have hcell : ∀ i, σ'.cell τ i = σ₁.cell τ i := fun i ↦ by
    rw [Store.cell_fire_of_outward hS hfire]
  -- a change writes the row under its key, and the row handed back has that key
  have hchange : ∀ c ∈ σ.changes S t τ snapshot (fun r ↦ (ch r).map some),
      key (c.2.2.getD c.2.1) = c.1 ∧
        ∃ r r', σ'.cell τ c.1 = ⟨some r, some (t, some r')⟩ ∧ P r r' := by
    rintro ⟨i, r, x⟩ hc
    obtain ⟨hseen, hv⟩ := Store.mem_changes.1 hc
    obtain ⟨-, y, hy, rfl⟩ := Store.version_eq_some hv
    obtain ⟨r', hr', rfl⟩ := Option.map_eq_some_iff.1 hy
    have hcommitted : (σ.cell τ i).committed = some r := by
      rwa [Cell.seen_of_not_ownedBy (hclean i)] at hseen
    obtain ⟨hkey, hP⟩ := hch i r r' hcommitted hr'
    refine ⟨hkey, r, _, ?_, hP⟩
    rw [hcell, hrw.eq_put, Store.put_cell_of_some hseen hv, ← hcommitted]
    rfl
  have hkeys : rows.map key =
      (σ.changes S t τ snapshot fun r ↦ (ch r).map some).map Prod.fst := by
    rw [hrows, List.map_map]
    exact List.map_congr_left fun c hc ↦ (hchange c hc).1
  rw [hkeys]
  refine ⟨Store.nodup_changes, fun i ↦ ⟨fun hi ↦ ?_, fun ho ↦ ?_⟩, fun i hi ↦ ?_⟩
  · obtain ⟨c, hc, rfl⟩ := List.mem_map.1 hi
    obtain ⟨-, r, r', hwritten, -⟩ := hchange c hc
    exact ⟨some r', by rw [hwritten]⟩
  · rw [hcell, hrw.eq_put] at ho
    rcases Store.put_cell_cases (σ := σ) (t := t)
      (f := σ.version S t τ snapshot fun r ↦ (ch r).map some) i with ⟨r, x, hseen, hv, -⟩ | ⟨-, hc⟩
    · exact List.mem_map.2 ⟨(i, r, x), Store.mem_changes.2 ⟨hseen, hv⟩, rfl⟩
    · exact absurd (hc ▸ ho) (hclean i)
  · obtain ⟨c, hc, rfl⟩ := List.mem_map.1 hi
    exact (hchange c hc).2

/-- The rule for a sweep: its first write, under a law that covers the triggers. -/
theorem wp_update_claims {L : Law Row} {β : Type}
    {answers : ℕ → Res → List (Db Row) → Store Row → Prop}
    {grant : ℕ → List (Db Row) → Store Row → ∀ τ, (Row τ → Option (Option (Row τ))) → Prop}
    {accept : ℕ → List (Db Row) → Store Row → ∀ τ, Row τ → Prop} {F : Failure Row Err → Prop}
    {Q : β → Reading Row → List (Db Row) → Store Row → Prop} {clocked : Reading Row}
    {reads : List (Db Row)} {ch : ℤ → Row τ → Option (Row τ)} (key : Row τ → ℕ)
    (P : Row τ → Row τ → Prop) {k : List (Row τ) → Prog Row Err Key Ans β}
    (hcovers : L.Covers S) (hS : S.Outward τ) (hF : ∀ f, F f) (hclean : σ.Clean t)
    (hch : ∀ σ' c i r r', L.Lawful σ' → (σ'.cell τ i).committed = some r → ch c r = some r' →
      L.may t τ i (some r) (some r') ∧ key (S.before (σ'.view (some t)) τ r') = i ∧
        P r (S.before (σ'.view (some t)) τ r'))
    (hk : ∀ rows σ', L.Lawful σ' → σ'.Claimed t τ P (rows.map key) →
      wp (L.contract answers grant accept) S t F Q (k rows) clocked reads σ') :
    wp (L.contract answers grant accept) S t F Q (Prog.update τ ch >>= k) clocked reads σ := by
  refine wp_update.2 fun σ₀ h₀ _ σ₁ h₁ hσ₁ ↦ ⟨fun rows σ₂ hm _ ↦ ?_, fun _ _ ↦ hF _⟩
  have hclean₁ : ∀ i, ¬ (σ₁.cell τ i).ownedBy t := h₁.clean (h₀.clean hclean) τ
  have hσ₂ : L.Lawful σ₂ := by
    refine Law.Lawful.modify_of_covers hσ₁ hcovers hm fun i r x hseen hx ↦ ?_
    obtain ⟨r', hr', rfl⟩ := Option.map_eq_some_iff.1 hx
    rw [Cell.seen_of_not_ownedBy (hclean₁ i)] at hseen
    rw [hseen]
    exact (hch σ₁ _ i r r' hσ₁ hseen hr').1
  exact ⟨hσ₂, hk rows σ₂ hσ₂ (Store.claimed_of_modify hS hclean₁
    (fun i r r' hr hr' ↦ (hch σ₁ _ i r r' hσ₁ hr hr').2) hm)⟩

end Statements

/-! ### Marks -/

/-- There is a row under this key, and it is marked. -/
def Db.Marked (d : Db Row) (mark : ∀ τ, Row τ → Prop) (k : Tab × ℕ) : Prop :=
  ∃ r, d.row k.1 k.2 = some r ∧ mark k.1 r

/-- Marks stay if they stay in what rows evolve to. -/
theorem Db.Marked.evolves {R : ∀ τ, Row τ → Row τ → Prop} {mark : ∀ τ, Row τ → Prop}
    {d d' : Db Row} {k : Tab × ℕ} (h : Evolves R d d')
    (hmark : ∀ τ r r', R τ r r' → mark τ r → mark τ r') (hk : d.Marked mark k) :
    d'.Marked mark k := by
  obtain ⟨r, hr, hmarked⟩ := hk
  obtain ⟨r', hr', hR⟩ := h k.1 k.2 r hr
  exact ⟨r', hr', hmark k.1 r r' hR hmarked⟩

namespace Store.Claimed

variable {σ : Store Row} {t : ℕ} {τ : Tab} {P : Row τ → Row τ → Prop} {ids : List ℕ} {i : ℕ}
  {mark : ∀ τ, Row τ → Prop}

/-- What is claimed was unmarked and is marked by the commit. -/
theorem marks (h : σ.Claimed t τ P ids) (hi : i ∈ ids)
    (hP : ∀ r r', P r r' → ¬ mark τ r ∧ mark τ r') :
    ¬ σ.committed.Marked mark (τ, i) ∧ (σ.commit t).committed.Marked mark (τ, i) := by
  rcases h.commit i with ⟨-, r, r', hr, hr', hrr'⟩ | ⟨hno, -⟩
  · refine ⟨?_, r', hr', (hP r r' hrr').2⟩
    rintro ⟨q, hq, hmarked⟩
    obtain rfl := Option.some.inj (hr.symm.trans hq)
    exact (hP _ r' hrr').1 hmarked
  · exact absurd hi hno

/-- What the commit marks in the table is claimed. -/
theorem of_marked (h : σ.Claimed t τ P ids)
    (hmarked : (σ.commit t).committed.Marked mark (τ, i)) :
    σ.committed.Marked mark (τ, i) ∨ i ∈ ids := by
  rcases h.commit i with ⟨hi, -⟩ | ⟨-, hsame⟩
  · exact .inr hi
  · obtain ⟨r, hr, hmark⟩ := hmarked
    exact .inl ⟨r, hsame.symm.trans hr, hmark⟩

end Store.Claimed

/-- Under a generated law, a mark that neither the insertions nor the single steps of `t` make was
there before `t` committed. -/
theorem Law.marked_of_commit {good : ∀ τ, ℕ → Row τ → Prop}
    {writes : ℕ → ∀ τ, Row τ → Row τ → Prop} {inserts : ℕ → ∀ τ, ℕ → Row τ → Prop}
    {hwrites : ∀ t τ i r r', good τ i r → writes t τ r r' → good τ i r'}
    {hinserts : ∀ t τ i r, inserts t τ i r → good τ i r} {σ : Store Row} {t : ℕ} {τ : Tab} {i : ℕ}
    {mark : ∀ τ, Row τ → Prop}
    (hσ : (Law.generated good writes inserts hwrites hinserts).Lawful σ)
    (hstep : ∀ r r', writes t τ r r' → mark τ r' → mark τ r)
    (hnew : ∀ r, inserts t τ i r → ¬ mark τ r)
    (h : (σ.commit t).committed.Marked mark (τ, i)) : σ.committed.Marked mark (τ, i) := by
  have hback : ∀ {q q'}, Relation.ReflTransGen (writes t τ) q q' → mark τ q' → mark τ q :=
    fun h ↦ by
      induction h with
      | refl => exact id
      | tail _ hs ih => exact fun hq ↦ ih (hstep _ _ hs hq)
  obtain ⟨r', hr', hmarked⟩ := h
  dsimp only at hr' hmarked
  rcases hσ.commit_cases t τ i with ⟨hsame, -⟩ | ⟨-, hmay⟩
  · exact ⟨r', hsame.symm.trans hr', hmarked⟩
  · rw [hr'] at hmay
    cases hr : σ.committed.row τ i with
    | none =>
      rw [hr] at hmay
      obtain ⟨r₀, hr₀, hstar⟩ := hmay
      exact absurd (hback hstar hmarked) (hnew r₀ hr₀)
    | some r =>
      rw [hr] at hmay
      exact ⟨r, hr, hback hmay hmarked⟩

namespace System

variable [DecidableEq Tab] [DecidableEq Key] {sys : System Row Err Key Ans Res Op} {α β : Type}
  {allow : World Row Err Key Ans Res → Event Err Ans Op → Prop}
  {obs : World Row Err Key Ans Res → Event Err Ans Op → List α}
  {w₀ w : World Row Err Key Ans Res} {log : List α}

/-- **The run lemma.** If every step claims, each once, what was open, and what is closed stays
closed, then nothing is claimed twice. -/
theorem Trace.claims {key : α → β} (closed : World Row Err Key Ans Res → β → Prop)
    (hkeep : ∀ w e w' b, sys.Reach allow w → allow w e → sys.step e w = some w' → closed w b →
      closed w' b)
    (hclaim : ∀ w e w', sys.Reach allow w → allow w e → sys.step e w = some w' →
      ((obs w e).map key).Nodup ∧ ∀ b ∈ (obs w e).map key, ¬ closed w b ∧ closed w' b)
    (h₀ : sys.Reach allow w₀) (h : sys.Trace allow obs w₀ log w) :
    (log.map key).Nodup ∧ ∀ b ∈ log.map key, ¬ closed w₀ b ∧ closed w b := by
  suffices hall : (log.map key).Nodup ∧ (∀ b ∈ log.map key, ¬ closed w₀ b ∧ closed w b) ∧
      ∀ b, closed w₀ b → closed w b from ⟨hall.1, hall.2.1⟩
  induction h with
  | refl => exact ⟨List.nodup_nil, fun b hb ↦ (nomatch hb), fun b hb ↦ hb⟩
  | @step log w₁ w₂ e h ha hs ih =>
    obtain ⟨ihnodup, ihmem, ihkept⟩ := ih
    have hkeep' : ∀ b, closed w₁ b → closed w₂ b := fun b ↦ hkeep _ _ _ b (h.reach h₀) ha hs
    obtain ⟨hnodup, hmem⟩ := hclaim _ _ _ (h.reach h₀) ha hs
    refine ⟨?_, fun b hb ↦ ?_, fun b hb ↦ hkeep' b (ihkept b hb)⟩
    · rw [List.map_append]
      refine List.nodup_append.2 ⟨hnodup, ihnodup, fun b hb b' hb' he ↦ ?_⟩
      exact (hmem b hb).1 (he ▸ (ihmem b' hb').2)
    · rw [List.map_append, List.mem_append] at hb
      rcases hb with hb | hb
      · exact ⟨fun h ↦ (hmem b hb).1 (ihkept b h), (hmem b hb).2⟩
      · exact ⟨(ihmem b hb).1, hkeep' b (ihmem b hb).2⟩

/-- If a mark is made by claims only, every mark has been claimed. -/
theorem Trace.claimed {key : α → β} (marked : World Row Err Key Ans Res → β → Prop)
    (hmark : ∀ w e w' b, sys.Reach allow w → allow w e → sys.step e w = some w' → marked w' b →
      marked w b ∨ b ∈ (obs w e).map key)
    (h₀ : sys.Reach allow w₀) (h : sys.Trace allow obs w₀ log w) :
    ∀ b, marked w b → marked w₀ b ∨ b ∈ log.map key := by
  induction h with
  | refl => exact fun b hb ↦ .inl hb
  | step h ha hs ih =>
    intro b hb
    rw [List.map_append, List.mem_append]
    rcases hmark _ _ _ b (h.reach h₀) ha hs hb with hold | hnew
    · exact (ih b hold).imp id .inr
    · exact .inr (.inl hnew)

end System

end ReadCommitted

import EasyBook.ReadCommitted.Statement

/-!
# Soundness of the immediate constraint check

The check of a statement looks at one transaction's view and at the versions others have locked;
the property wanted is about what everybody sees, later, whichever transactions commit. The
invariant between the two is `Compatible`: **any two versions that can become committed together
may stand together**. The one pair it leaves out is a committed version next to a version of the
very transaction that has overwritten it: those two never coexist.

Every change of the store keeps it, so in a store reached by statements, commits and aborts no two
committed rows of a table conflict (`Compatible.committed`).
-/

namespace ReadCommitted

variable {Tab : Type} {Row : Tab → Type} {Err : Type}

/-- Versions that may become committed together may stand together. -/
structure Compatible (S : Schema Row Err) (σ : Store Row) : Prop where
  /-- Two committed rows. -/
  committed : ∀ {τ i j r q}, i ≠ j → (σ.cell τ i).committed = some r →
    (σ.cell τ j).committed = some q → S.conflict τ r q = none
  /-- A written row next to a committed one that its writer has not overwritten. -/
  written : ∀ {τ i j t r q}, i ≠ j → (σ.cell τ i).dirty = some (t, some r) →
    ¬ (σ.cell τ j).ownedBy t → (σ.cell τ j).committed = some q → S.conflict τ r q = none
  /-- Two written rows, by one transaction or two. -/
  dirty : ∀ {τ i j t u r q}, i ≠ j → (σ.cell τ i).dirty = some (t, some r) →
    (σ.cell τ j).dirty = some (u, some q) → S.conflict τ r q = none

namespace Compatible

variable {S : Schema Row Err} {σ σ' : Store Row} {t : ℕ} {τ : Tab}

/-- In an empty store no two rows can clash. -/
theorem init (S : Schema Row Err) : Compatible S (Store.init Row) where
  committed _ h := by simp [Store.init, Cell.empty] at h
  written _ h := by simp [Store.init, Cell.empty] at h
  dirty _ h := by simp [Store.init, Cell.empty] at h

/-- The clock is no part of any constraint. -/
theorem tick (h : Compatible S σ) (c : ℤ) : Compatible S (σ.tick c) :=
  ⟨h.committed, h.written, h.dirty⟩

/-- Two rows that one transaction sees. -/
theorem seen (h : Compatible S σ) {i j : ℕ} {r q : Row τ} (hij : i ≠ j)
    (hr : (σ.cell τ i).seen (some t) = some r) (hq : (σ.cell τ j).seen (some t) = some q) :
    S.conflict τ r q = none := by
  by_cases hi : (σ.cell τ i).ownedBy t <;> by_cases hj : (σ.cell τ j).ownedBy t
  · obtain ⟨x, hx⟩ := hi
    obtain ⟨y, hy⟩ := hj
    rw [Cell.seen_of_dirty hx] at hr
    rw [Cell.seen_of_dirty hy] at hq
    exact h.dirty hij (hr ▸ hx) (hq ▸ hy)
  · obtain ⟨x, hx⟩ := hi
    rw [Cell.seen_of_dirty hx] at hr
    rw [Cell.seen_of_not_ownedBy hj] at hq
    exact h.written hij (hr ▸ hx) hj hq
  · obtain ⟨y, hy⟩ := hj
    rw [Cell.seen_of_not_ownedBy hi] at hr
    rw [Cell.seen_of_dirty hy] at hq
    exact S.conflict_symm (h.written hij.symm (hq ▸ hy) hi hr)
  · rw [Cell.seen_of_not_ownedBy hi] at hr
    rw [Cell.seen_of_not_ownedBy hj] at hq
    exact h.committed hij hr hq

/-- A row committed after `t`'s commit is either `t`'s own write or was committed before by somebody
else. -/
private theorem committed_or_dirty {α : Type} {c : Cell α} {t : ℕ} {r : α}
    (h : (c.commit t).committed = some r) :
    c.dirty = some (t, some r) ∨ ¬ c.ownedBy t ∧ c.committed = some r := by
  by_cases ho : c.ownedBy t
  · obtain ⟨x, hx⟩ := ho
    rw [Cell.commit_of_dirty hx] at h
    exact Or.inl (hx.trans (by rw [← h]))
  · rw [Cell.commit_of_not_ownedBy ho] at h
    exact Or.inr ⟨ho, h⟩

/-- A write still open after `t`'s commit was open before, and is another transaction's. -/
private theorem dirty_of_commit {α : Type} {c : Cell α} {t u : ℕ} {x : Option α}
    (h : (c.commit t).dirty = some (u, x)) : c.dirty = some (u, x) ∧ u ≠ t := by
  by_cases ho : c.ownedBy t
  · obtain ⟨y, hy⟩ := ho
    rw [Cell.commit_of_dirty hy] at h
    cases h
  · rw [Cell.commit_of_not_ownedBy ho] at h
    exact ⟨h, fun he ↦ ho ⟨x, by rw [h, he]⟩⟩

/-- A commit makes visible only rows that were compared with all others when they were written. -/
theorem commit (h : Compatible S σ) (t : ℕ) : Compatible S (σ.commit t) where
  committed hij hi hj := by
    rcases committed_or_dirty hi with hi | ⟨hio, hi⟩ <;>
      rcases committed_or_dirty hj with hj | ⟨hjo, hj⟩
    · exact h.dirty hij hi hj
    · exact h.written hij hi hjo hj
    · exact S.conflict_symm (h.written hij.symm hj hio hi)
    · exact h.committed hij hi hj
  written := by
    intro τ i j u r q hij hi hjo hj
    obtain ⟨hi, hu⟩ := dirty_of_commit hi
    rcases committed_or_dirty hj with hj | ⟨hjt, hj⟩
    · exact h.dirty hij hi hj
    · refine h.written hij hi (fun ho ↦ hjo ?_) hj
      rwa [Store.commit_cell, Cell.commit_of_not_ownedBy hjt]
  dirty hij hi hj := h.dirty hij (dirty_of_commit hi).1 (dirty_of_commit hj).1

/-- A write still open after `t`'s rollback was open before, and is another transaction's. -/
private theorem dirty_of_abort {α : Type} {c : Cell α} {t u : ℕ} {x : Option α}
    (h : (c.abort t).dirty = some (u, x)) : c.dirty = some (u, x) ∧ u ≠ t := by
  by_cases ho : c.ownedBy t
  · obtain ⟨y, hy⟩ := ho
    rw [Cell.abort_of_dirty hy] at h
    cases h
  · rw [Cell.abort_of_not_ownedBy ho] at h
    exact ⟨h, fun he ↦ ho ⟨x, by rw [h, he]⟩⟩

/-- A rollback takes rows away, and what is left was compatible before. -/
theorem abort (h : Compatible S σ) (t : ℕ) : Compatible S (σ.abort t) where
  committed hij hi hj := h.committed hij (by simpa using hi) (by simpa using hj)
  written := by
    intro τ i j u r q hij hi hjo hj
    obtain ⟨hi, hu⟩ := dirty_of_abort hi
    refine h.written hij hi (fun ho ↦ hjo ?_) (by simpa using hj)
    have hjt : ¬ (σ.cell τ j).ownedBy t := fun ⟨x, hx⟩ ↦ by
      obtain ⟨y, hy⟩ := ho
      exact hu (Prod.mk.inj (Option.some.inj (hy.symm.trans hx))).1
    rwa [Store.abort_cell, Cell.abort_of_not_ownedBy hjt]
  dirty hij hi hj := h.dirty hij (dirty_of_abort hi).1 (dirty_of_abort hj).1

/-- The rule behind every write: if what is committed stays, and each dirty version is either old
or new, unobstructed and its cell was not locked by another, then compatibility stays. -/
private theorem of_written (h : Compatible S σ) (hw : Store.WorkBy t σ σ')
    (hown : ∀ τ i, (σ.cell τ i).ownedBy t → (σ'.cell τ i).ownedBy t)
    (hnew : ∀ τ i r, (σ'.cell τ i).dirty = some (t, some r) →
      (σ.cell τ i).dirty = some (t, some r) ∨ σ'.obstacle S t τ i r = .done ()) :
    Compatible S σ' := by
  have hold : ∀ {τ i u r}, u ≠ t → (σ'.cell τ i).dirty = some (u, r) →
      (σ.cell τ i).dirty = some (u, r) := fun hu hd ↦ (hw.others _ _ _ _ hu).1 hd
  -- a version of `t` against any other, whichever of the two is newer
  have hdirty : ∀ {τ i j u r q}, i ≠ j → (σ'.cell τ i).dirty = some (t, some r) →
      (σ'.cell τ j).dirty = some (u, some q) → S.conflict τ r q = none := by
    intro τ i j u r q hij hi hj
    rcases hnew τ i r hi with hi₀ | ho
    · by_cases hu : u = t
      · subst hu
        rcases hnew τ j q hj with hj₀ | ho
        · exact h.dirty hij hi₀ hj₀
        · exact S.conflict_symm ((Store.obstacle_eq_done ho hij).2 r (Cell.seen_of_dirty hi))
      · exact h.dirty hij hi₀ (hold hu hj)
    · obtain ⟨hlocked, hseen⟩ := Store.obstacle_eq_done ho hij.symm
      by_cases hu : u = t
      · subst hu
        exact hseen q (Cell.seen_of_dirty hj)
      · refine hlocked (by simp [Cell.lockedFor, hj, hu]) q ?_
        simp [Cell.versions, hj]
  refine ⟨fun {τ i j r q} hij hi hj ↦ ?_, fun {τ i j u r q} hij hi hjo hj ↦ ?_,
    fun {τ i j u v r q} hij hi hj ↦ ?_⟩
  · exact h.committed hij (hw.committed τ i ▸ hi) (hw.committed τ j ▸ hj)
  · have hj₀ : (σ.cell τ j).committed = some q := hw.committed τ j ▸ hj
    by_cases hu : u = t
    · subst hu
      rcases hnew τ i r hi with hi₀ | ho
      · exact h.written hij hi₀ (fun ho ↦ hjo (hown τ j ho)) hj₀
      · exact (Store.obstacle_eq_done ho hij.symm).2 q
          ((Cell.seen_of_not_ownedBy hjo).trans hj)
    · refine h.written hij (hold hu hi) (fun ho ↦ ?_) hj₀
      obtain ⟨x, hx⟩ := ho
      exact hjo ⟨x, (hw.others τ j u x hu).2 hx⟩
  · by_cases hu : u = t
    · subst hu
      exact hdirty hij hi hj
    · by_cases hv : v = t
      · subst hv
        exact S.conflict_symm (hdirty hij.symm hj hi)
      · exact h.dirty hij (hold hu hi) (hold hv hj)

variable [DecidableEq Tab] {snapshot : Db Row} {ch : Row τ → Option (Option (Row τ))}

/-- A row that is written over was compared with every other row, committed or open, at the write.
-/
theorem rewritten (h : Compatible S σ) (hr : Store.Rewritten S σ t τ snapshot ch σ') :
    Compatible S σ' := by
  refine h.of_written hr.workBy (fun τ' i ho ↦ ?_) fun τ' i r hd ↦ ?_ <;>
    by_cases hτ : τ' = τ
  · subst hτ
    rw [hr.eq_put]
    rcases Store.put_cell_cases (σ := σ) (t := t)
      (f := σ.version S t τ' snapshot ch) i with ⟨q, x, _, _, hc⟩ | ⟨_, hc⟩ <;> rw [hc]
    · exact ⟨x, rfl⟩
    · exact ho
  · rwa [hr.eq_put, Store.put_cell_of_ne hτ]
  · subst hτ
    rcases Store.put_cell_cases (σ := σ) (t := t)
      (f := σ.version S t τ' snapshot ch) i with ⟨q, x, hq, hx, hc⟩ | ⟨_, hc⟩ <;>
        rw [hr.eq_put, hc] at hd
    · obtain rfl : x = some r := by simpa [Cell.write] using hd
      exact Or.inr (hr.unobstructed i q r hq hx)
    · exact Or.inl hd
  · rw [hr.eq_put, Store.put_cell_of_ne hτ] at hd
    exact Or.inl hd

/-- An update keeps the store compatible, row by row. -/
theorem modify {l : List (Row τ)} (h : Compatible S σ)
    (hm : σ.modify S t τ snapshot ch = .done (l, σ')) : Compatible S σ' := by
  obtain ⟨_, σ₁, hr, hf⟩ := Store.modify_eq_done hm
  exact Store.fire_induction (fun _ _ _ _ _ _ _ _ _ hr hc ↦ hc.rewritten hr) hf (h.rewritten hr)

/-- An insert keeps the store compatible: the new row was compared like any other. -/
theorem insert {r r' : Row τ} (h : Compatible S σ)
    (hi : σ.insert S t τ r = .done (r', σ')) : Compatible S σ' := by
  obtain ⟨_, rfl, ho⟩ := Store.insert_eq_done hi
  refine h.of_written Store.workBy_add (fun τ' i hw ↦ ?_) fun τ' i q hd ↦ ?_ <;>
    by_cases hτ : τ' = τ
  · subst hτ
    by_cases hi : i = σ.next
    · rw [hi, σ.bounded _ _ (Nat.le_refl _)] at hw
      obtain ⟨x, hx⟩ := hw
      cases hx
    · rwa [Store.add_cell_of_ne_next hi]
  · rwa [Store.add_cell_of_ne hτ]
  · subst hτ
    by_cases hi : i = σ.next
    · subst hi
      rw [Store.add_cell_next] at hd
      obtain rfl : r' = q := by simpa using hd
      exact Or.inr ho
    · rw [Store.add_cell_of_ne_next hi] at hd
      exact Or.inl hd
  · rw [Store.add_cell_of_ne hτ] at hd
    exact Or.inl hd

end Compatible

end ReadCommitted

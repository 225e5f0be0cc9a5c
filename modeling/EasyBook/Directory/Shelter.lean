import EasyBook.Directory.Rules

/-!
# Holders of vocabulary rows

A registration, a staff account and a venue refer to rows of vocabularies. A store is `Sheltered` if
no version of a holder refers to a row that is deleted, and no row is being deleted that a surviving
version refers to. Commits and rollbacks keep that; a write to a holder keeps it if the rows it
newly refers to are `Offered`, and a write to a vocabulary if nobody refers to the row that it
deletes.
-/

namespace EasyBook.Directory

open ReadCommitted

/-! ### Holders -/

/-- The rows of vocabularies to which a row refers. -/
def refs : ∀ τ, Row τ → List (Vocabulary × Cuid)
  | .systemUser, r =>
    [(.department, SystemUser.departmentId r), (.personnelRole, r.personnelRoleId)]
  | .registration, r =>
    [(.department, LineUserRegistration.departmentId r), (.personnelRole, r.personnelRoleId)]
  | .venue, r => [(.venueType, Venue.venueTypeId r)]
  | _, _ => []

/-- The versions of a row of which one may be committed once `u` has committed. -/
def survivors {α : Type} (c : Cell α) (u : ℕ) : List α :=
  (c.dirty.bind Prod.snd).toList ++ if c.ownedBy u then [] else c.committed.toList

/-- What may be there after a commit or a rollback of `u`: somebody's open row, or a committed one
that `u` has not written. -/
theorem mem_survivors {α : Type} {c : Cell α} {u : ℕ} {r : α} :
    r ∈ survivors c u ↔
      (∃ t, c.dirty = some (t, some r)) ∨ c.committed = some r ∧ ¬ c.ownedBy u := by
  have hdirty : r ∈ (c.dirty.bind Prod.snd).toList ↔ ∃ t, c.dirty = some (t, some r) := by
    rw [Option.mem_toList, Option.bind_eq_some_iff]
    exact ⟨fun ⟨p, hp, hr⟩ ↦ ⟨p.1, by rw [hp, ← hr]⟩, fun ⟨t, h⟩ ↦ ⟨_, h, rfl⟩⟩
  rw [survivors, List.mem_append, hdirty]
  refine or_congr_right ?_
  split
  · next ho => simp [ho]
  · next ho => simp [ho]

/-- The row is there for everybody, and nobody is deleting it. -/
def Offered (σ : Store Row) (p : Vocabulary × Cuid) : Prop :=
  (∃ o ∈ (σ.cell (.option p.1) p.2).committed, OptionRow.deletedAt o = none) ∧
    ∀ q ∈ (σ.cell (.option p.1) p.2).dirty, ∀ o ∈ q.2, OptionRow.deletedAt o = none

instance (σ : Store Row) (p : Vocabulary × Cuid) : Decidable (Offered σ p) :=
  inferInstanceAs (Decidable ((∃ o ∈ (σ.cell (.option p.1) p.2).committed,
    OptionRow.deletedAt o = none) ∧ ∀ q ∈ (σ.cell (.option p.1) p.2).dirty, ∀ o ∈ q.2,
    OptionRow.deletedAt o = none))

/-! ### No version refers to a retired row -/

/-- Every version of a holder refers to committed rows that are not deleted, and whoever is deleting
a row leaves no holder of it. -/
structure Sheltered (σ : Store Row) : Prop where
  live : ∀ τ i r, ((σ.cell τ i).committed = some r ∨ ∃ t, (σ.cell τ i).dirty = some (t, some r)) →
    ∀ p ∈ refs τ r, ∃ o, (σ.cell (.option p.1) p.2).committed = some o ∧ o.deletedAt = none
  spared : ∀ v k u o, (σ.cell (.option v) k).dirty = some (u, some o) →
    OptionRow.deletedAt o ≠ none →
    ∀ τ i, ∀ r ∈ survivors (σ.cell τ i) u, (v, k) ∉ refs τ r
  kept : ∀ v k u, (σ.cell (.option v) k).dirty ≠ some (u, none)

namespace Sheltered

variable {σ σ' : Store Row} {t : ℕ}

/-- The empty store shelters. -/
theorem init : Sheltered (Store.init Row) :=
  ⟨fun _ _ _ h ↦ h.elim (fun h ↦ (nomatch h)) fun ⟨_, h⟩ ↦ (nomatch h),
    fun _ _ _ _ h ↦ (nomatch h), fun _ _ _ h ↦ (nomatch h)⟩

/-- The clock is no part of it. -/
theorem tick (h : Sheltered σ) (c : ℤ) : Sheltered (σ.tick c) := ⟨h.live, h.spared, h.kept⟩

/-- A write still open after `t`'s commit was open before, and is another transaction's. -/
private theorem dirty_of_commit {α : Type} {c : Cell α} {t u : ℕ} {x : Option α}
    (h : (c.commit t).dirty = some (u, x)) : c.dirty = some (u, x) ∧ ¬ c.ownedBy t := by
  by_cases ho : c.ownedBy t
  · obtain ⟨y, hy⟩ := ho
    rw [Cell.commit_of_dirty hy] at h
    cases h
  · exact ⟨by rwa [Cell.commit_of_not_ownedBy ho] at h, ho⟩

/-- What is committed once `t` has committed survives `t`. -/
private theorem survives_of_commit {α : Type} {c : Cell α} {t : ℕ} {r : α}
    (h : (c.commit t).committed = some r) : r ∈ survivors c t := by
  by_cases ho : c.ownedBy t
  · obtain ⟨y, hy⟩ := ho
    rw [Cell.commit_of_dirty hy] at h
    obtain rfl : y = some r := h
    exact mem_survivors.2 (.inl ⟨t, hy⟩)
  · rw [Cell.commit_of_not_ownedBy ho] at h
    exact mem_survivors.2 (.inr ⟨h, ho⟩)

/-- What may be there later is there now, for somebody. -/
private theorem holds_of_survives {α : Type} {c : Cell α} {t : ℕ} {r : α} (h : r ∈ survivors c t) :
    c.committed = some r ∨ ∃ t, c.dirty = some (t, some r) :=
  (mem_survivors.1 h).symm.imp_left And.left

/-- A commit shelters when the option it marks is held by nothing that may survive. -/
theorem commit (h : Sheltered σ) (t : ℕ) : Sheltered (σ.commit t) := by
  have hsurvives : ∀ {τ : Tab} {i : ℕ} {r : Row τ},
      (((σ.commit t).cell τ i).committed = some r ∨
        ∃ u, ((σ.commit t).cell τ i).dirty = some (u, some r)) → r ∈ survivors (σ.cell τ i) t := by
    rintro τ i r (hr | ⟨u, hr⟩)
    · exact survives_of_commit hr
    · exact mem_survivors.2 (.inl ⟨u, (dirty_of_commit hr).1⟩)
  refine ⟨fun τ i r hr p hp ↦ ?_, fun v k u o ho hdel τ i r hr ↦ ?_, fun v k u ho ↦
    h.kept v k u (dirty_of_commit ho).1⟩
  · have hs := hsurvives hr
    obtain ⟨o, hcom, hlive⟩ := h.live τ i r (holds_of_survives hs) p hp
    by_cases ho : (σ.cell (.option p.1) p.2).ownedBy t
    · obtain ⟨x, hx⟩ := ho
      cases x with
      | none => exact absurd hx (h.kept _ _ _)
      | some o' =>
        refine ⟨o', by rw [Store.commit_cell, Cell.commit_of_dirty hx], ?_⟩
        by_contra hdel
        exact h.spared _ _ _ _ hx hdel τ i r hs hp
    · exact ⟨o, by rw [Store.commit_cell, Cell.commit_of_not_ownedBy ho]; exact hcom, hlive⟩
  · obtain ⟨hold, hfree⟩ := dirty_of_commit ho
    have hu : u ≠ t := fun he ↦ hfree ⟨some o, he ▸ hold⟩
    refine h.spared v k u o hold hdel τ i r (mem_survivors.2 ?_)
    rcases mem_survivors.1 hr with ⟨s, hs⟩ | ⟨hcom, hno⟩
    · exact .inl ⟨s, (dirty_of_commit hs).1⟩
    · rcases mem_survivors.1 (survives_of_commit hcom) with hd | ⟨hcom', hnt⟩
      · exact .inl hd
      · refine .inr ⟨hcom', fun ho ↦ hno ?_⟩
        rwa [Store.commit_cell, Cell.commit_of_not_ownedBy hnt]

/-- A rollback leaves only rows that were there. -/
theorem abort (h : Sheltered σ) (t : ℕ) : Sheltered (σ.abort t) := by
  have hdirty : ∀ {τ : Tab} {i u : ℕ} {x : Option (Row τ)},
      ((σ.abort t).cell τ i).dirty = some (u, x) → (σ.cell τ i).dirty = some (u, x) := by
    intro τ i u x hx
    by_cases ho : (σ.cell τ i).ownedBy t
    · obtain ⟨y, hy⟩ := ho
      rw [Store.abort_cell, Cell.abort_of_dirty hy] at hx
      cases hx
    · rwa [Store.abort_cell, Cell.abort_of_not_ownedBy ho] at hx
  have hcom : ∀ (τ : Tab) i, ((σ.abort t).cell τ i).committed = (σ.cell τ i).committed :=
    fun τ i ↦ Cell.committed_abort _ _
  refine ⟨fun τ i r hr p hp ↦ ?_, fun v k u o ho hdel τ i r hr ↦ ?_, fun v k u ho ↦
    h.kept v k u (hdirty ho)⟩
  · rw [hcom]
    rw [hcom] at hr
    exact h.live τ i r (hr.imp_right fun ⟨u, hu⟩ ↦ ⟨u, hdirty hu⟩) p hp
  · refine h.spared v k u o (hdirty ho) hdel τ i r (mem_survivors.2 ?_)
    rcases mem_survivors.1 hr with ⟨s, hs⟩ | ⟨hc, hno⟩
    · exact .inl ⟨s, hdirty hs⟩
    · rw [hcom] at hc
      by_cases hu : u = t
      · subst hu
        rw [Store.abort_cell] at ho
        by_cases hown : (σ.cell (.option v) k).ownedBy u
        · obtain ⟨y, hy⟩ := hown
          rw [Cell.abort_of_dirty hy] at ho
          cases ho
        · rw [Cell.abort_of_not_ownedBy hown] at ho
          exact absurd ⟨_, ho⟩ hown
      · refine .inr ⟨hc, fun ⟨x, hx⟩ ↦ hno ⟨x, ?_⟩⟩
        have hnt : ¬ (σ.cell τ i).ownedBy t := fun ho ↦ hu (Cell.ownedBy_unique ⟨x, hx⟩ ho)
        rwa [Store.abort_cell, Cell.abort_of_not_ownedBy hnt]

/-- Whoever may write a row and sees a version of it sees one that survives everybody. -/
private theorem survives_of_seen {α : Type} {c : Cell α} {t : ℕ} {r : α}
    (hr : c.seen (some t) = some r) (hfree : c.lockedFor t = false) (u : ℕ) :
    r ∈ survivors c u := by
  by_cases ho : c.ownedBy t
  · obtain ⟨x, hx⟩ := ho
    rw [Cell.seen_of_dirty hx] at hr
    exact mem_survivors.2 (.inl ⟨t, hr ▸ hx⟩)
  · rw [Cell.seen_of_not_ownedBy ho] at hr
    refine mem_survivors.2 (.inr ⟨hr, fun hu ↦ ?_⟩)
    obtain ⟨x, hx⟩ := hu
    simp only [Cell.lockedFor, hx, decide_eq_false_iff_not, not_not] at hfree
    exact ho ⟨x, hfree ▸ hx⟩

/-- Filing holders under rows that are offered, or leaving them where they are. -/
theorem write_holder (h : Sheltered σ) {τ₀ : Tab} (hτ₀ : ∀ v, τ₀ ≠ .option v)
    (hne : ∀ τ, τ ≠ τ₀ → σ'.cell τ = σ.cell τ)
    (hcell : ∀ i, σ'.cell τ₀ i = σ.cell τ₀ i ∨ ∃ x, (σ.cell τ₀ i).lockedFor t = false ∧
      σ'.cell τ₀ i = (σ.cell τ₀ i).write t x ∧ ∀ r', x = some r' → ∀ p ∈ refs τ₀ r',
        (∃ r, (σ.cell τ₀ i).seen (some t) = some r ∧ p ∈ refs τ₀ r) ∨ Offered σ p) :
    Sheltered σ' := by
  have hopt : ∀ v, σ'.cell (.option v) = σ.cell (.option v) := fun v ↦ hne _ (hτ₀ v).symm
  refine ⟨fun τ i r hr p hp ↦ ?_, fun v k u o ho hdel τ i r hr hp ↦ ?_, fun v k u ho ↦
    h.kept v k u (hopt v ▸ ho)⟩
  · rw [hopt]
    by_cases hτ : τ = τ₀
    · subst hτ
      rcases hcell i with hc | ⟨x, hfree, hc, hx⟩
      · rw [hc] at hr
        exact h.live τ i r hr p hp
      · rw [hc] at hr
        rcases hr with hr | ⟨u, hr⟩
        · exact h.live τ i r (.inl hr) p hp
        · obtain ⟨rfl, rfl⟩ := Prod.mk.inj (Option.some.inj hr)
          rcases hx r rfl p hp with ⟨r₀, hseen, hp₀⟩ | ⟨⟨o, ho, hlive⟩, _⟩
          · exact h.live τ i r₀ (holds_of_survives (survives_of_seen hseen hfree 0)) p hp₀
          · exact ⟨o, ho, hlive⟩
    · rw [hne τ hτ] at hr
      exact h.live τ i r hr p hp
  · rw [hopt] at ho
    by_cases hτ : τ = τ₀
    · subst hτ
      rcases hcell i with hc | ⟨x, hfree, hc, hx⟩
      · rw [hc] at hr
        exact h.spared v k u o ho hdel τ i r hr hp
      · rw [hc] at hr
        rcases mem_survivors.1 hr with ⟨s, hs⟩ | ⟨hcom, hno⟩
        · obtain ⟨rfl, rfl⟩ := Prod.mk.inj (Option.some.inj hs)
          rcases hx r rfl _ hp with ⟨r₀, hseen, hp₀⟩ | ⟨_, hoffer⟩
          · exact h.spared v k u o ho hdel τ i r₀ (survives_of_seen hseen hfree u) hp₀
          · exact hdel (hoffer _ ho o rfl)
        · refine h.spared v k u o ho hdel τ i r (mem_survivors.2 (.inr ⟨hcom, fun ⟨y, hy⟩ ↦ ?_⟩)) hp
          simp only [Cell.lockedFor, hy, decide_eq_false_iff_not, not_not] at hfree
          exact hno ⟨x, by rw [hfree]; rfl⟩
    · rw [hne τ hτ] at hr
      exact h.spared v k u o ho hdel τ i r hr hp

/-- Deleting rows that nobody refers to, or leaving them deleted or not. -/
theorem write_option (h : Sheltered σ) {v₀ : Vocabulary} (hw : Store.WorkBy t σ σ')
    (hne : ∀ τ, τ ≠ .option v₀ → σ'.cell τ = σ.cell τ)
    (hcell : ∀ k, σ'.cell (.option v₀) k = σ.cell (.option v₀) k ∨
      ∃ o, σ'.cell (.option v₀) k = (σ.cell (.option v₀) k).write t (some o) ∧
        (OptionRow.deletedAt o ≠ none →
          (∃ r, (σ.cell (.option v₀) k).seen (some t) = some r ∧ OptionRow.deletedAt r ≠ none) ∨
          ∀ τ i, ∀ r ∈ survivors (σ.cell τ i) t, (v₀, k) ∉ refs τ r)) :
    Sheltered σ' := by
  -- the options refer to nothing
  have hholder : ∀ {τ : Tab} {r : Row τ} {p}, p ∈ refs τ r → σ'.cell τ = σ.cell τ := by
    intro τ r p hp
    refine hne τ fun hτ ↦ ?_
    subst hτ
    cases hp
  refine ⟨fun τ i r hr p hp ↦ ?_, fun v k u o ho hdel τ i r hr hp ↦ ?_, fun v k u ho ↦ ?_⟩
  · rw [hholder hp] at hr
    obtain ⟨o, ho, hlive⟩ := h.live τ i r hr p hp
    exact ⟨o, (hw.committed _ _).trans ho, hlive⟩
  · rw [hholder hp] at hr
    by_cases hv : v = v₀
    · subst hv
      rcases hcell k with hc | ⟨o', hc, hx⟩
      · exact h.spared v k u o (hc ▸ ho) hdel τ i r hr hp
      · rw [hc] at ho
        obtain ⟨rfl, hsome⟩ := Prod.mk.inj (Option.some.inj ho)
        obtain rfl := Option.some.inj hsome
        rcases hx hdel with ⟨r₀, hseen, hr₀⟩ | hno
        · by_cases hown : (σ.cell (.option v) k).ownedBy t
          · obtain ⟨y, hy⟩ := hown
            rw [Cell.seen_of_dirty hy] at hseen
            exact h.spared v k t r₀ (hseen ▸ hy) hr₀ τ i r hr hp
          · rw [Cell.seen_of_not_ownedBy hown] at hseen
            obtain ⟨o₁, ho₁, hlive⟩ := h.live τ i r (holds_of_survives hr) _ hp
            obtain rfl := Option.some.inj (hseen.symm.trans ho₁)
            exact hr₀ hlive
        · exact hno τ i r hr hp
    · rw [hne _ fun he ↦ hv (Tab.option.inj he)] at ho
      exact h.spared v k u o ho hdel τ i r hr hp
  · by_cases hv : v = v₀
    · subst hv
      rcases hcell k with hc | ⟨o', hc, _⟩
      · exact h.kept v k u (hc ▸ ho)
      · rw [hc] at ho
        exact absurd (Prod.mk.inj (Option.some.inj ho)).2 (by simp)
    · rw [hne _ fun he ↦ hv (Tab.option.inj he)] at ho
      exact h.kept v k u ho

end Sheltered

end EasyBook.Directory

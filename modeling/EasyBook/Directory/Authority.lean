import EasyBook.Directory.Rules

/-!
# Authority over staff accounts

Every write to a staff account is authorised against the account as a query of its transaction has
read it, and is then carried out by id alone. Patches of a role or an active flag and deletions run
at level SERIALIZABLE, which makes the two one moment: such transactions take turns (`Turn`), and
one that would write a row that has changed under it is refused. The others run at READ COMMITTED,
and an account promoted or deleted in between is patched all the same, as in `promotedRun` and
`deletedRun`.

Only the serializable calls can take away an active super admin, and each counts what is left after
its write; so one is left in every committed state.
-/

namespace EasyBook.Directory

open ReadCommitted ReadCommitted.Prog

/-! ### The levels, and the condition -/

/-- The calls that run at level SERIALIZABLE. -/
def Op.serializable : Op → Bool
  | .updateSystemUser _ _ patch => touchesInvariant patch
  | .softDeleteSystemUser .. => true
  | _ => false

/-- The account that a call has to find undeleted. -/
def Op.target : Op → Option Cuid
  | .updateSystemUser _ id _ => some id
  | .softDeleteSystemUser _ id => some id
  | .resetPassword _ id => some id
  | _ => none

/-- The role of the target decides: an ADMIN patches somebody else's account. -/
def Op.judgesRole : Op → Bool
  | .updateSystemUser actor id _ => decide (actor.role = .admin ∧ actor.id ≠ id)
  | _ => false

/-- The row is in what its authorisation rests on as the first query of the call has read it. -/
def Op.AsRead (op : Op) (reads : List View) (r : SystemUser) : Prop :=
  ∀ id ∈ op.target, ∀ d ∈ reads.getLast?, ∀ target ∈ activeAccount d id,
    r.deletedAt = target.deletedAt ∧ (op.judgesRole → r.role = target.role)

instance (op : Op) (reads : List View) (r : SystemUser) : Decidable (op.AsRead reads r) :=
  inferInstanceAs (Decidable (∀ id ∈ op.target, ∀ d ∈ reads.getLast?, ∀ target ∈ activeAccount d id,
    r.deletedAt = target.deletedAt ∧ (op.judgesRole → r.role = target.role)))

/-- Every account that `t` writes is as read. -/
def WritesAsRead (calls : ℕ → Op) (t : ℕ) (reads : List View) (σ : Store Row)
    (ch : SystemUser → Option (Option SystemUser)) : Prop :=
  ∀ i ∈ List.range σ.next, ∀ r ∈ (σ.cell .systemUser i).seen (some t), (ch r).isSome →
    (calls t).AsRead reads r

instance (calls : ℕ → Op) (t : ℕ) (reads : List View) (σ : Store Row)
    (ch : SystemUser → Option (Option SystemUser)) : Decidable (WritesAsRead calls t reads σ ch) :=
  inferInstanceAs (Decidable (∀ i ∈ List.range σ.next, ∀ r ∈ (σ.cell .systemUser i).seen (some t),
    (ch r).isSome → (calls t).AsRead reads r))

/-- No other serializable transaction has uncommitted work on the accounts. -/
def Turn (calls : ℕ → Op) (t : ℕ) (σ : Store Row) : Prop :=
  ∀ i ∈ List.range σ.next, ∀ p ∈ (σ.cell .systemUser i).dirty, p.1 ≠ t →
    (calls p.1).serializable = false

instance (calls : ℕ → Op) (t : ℕ) (σ : Store Row) : Decidable (Turn calls t σ) :=
  inferInstanceAs (Decidable (∀ i ∈ List.range σ.next, ∀ p ∈ (σ.cell .systemUser i).dirty, p.1 ≠ t →
    (calls p.1).serializable = false))

/-- What level SERIALIZABLE makes of a write. -/
def AtLevel (calls : ℕ → Op) (t : ℕ) (reads : List View) (σ : Store Row) :
    ∀ τ, (Row τ → Option (Option (Row τ))) → Prop
  | .systemUser, ch => (calls t).serializable = true →
      Turn calls t σ ∧ WritesAsRead calls t reads σ ch
  | _, _ => True

instance (calls : ℕ → Op) (t : ℕ) (reads : List View) (σ : Store Row) (τ : Tab)
    (ch : Row τ → Option (Option (Row τ))) : Decidable (AtLevel calls t reads σ τ ch) := by
  unfold AtLevel
  induction τ using Tab.casesOn <;> infer_instance

/-- At READ COMMITTED, the target is at the write as it was read. -/
def FreshTarget (calls : ℕ → Op) (t : ℕ) (reads : List View) (σ : Store Row) :
    ∀ τ, (Row τ → Option (Option (Row τ))) → Prop
  | .systemUser, ch => (calls t).serializable = false → WritesAsRead calls t reads σ ch
  | _, _ => True

instance (calls : ℕ → Op) (t : ℕ) (reads : List View) (σ : Store Row) (τ : Tab)
    (ch : Row τ → Option (Option (Row τ))) : Decidable (FreshTarget calls t reads σ τ ch) := by
  unfold FreshTarget
  induction τ using Tab.casesOn <;> infer_instance

/-- A step of a run of `calls` at their levels. -/
def LevelStep (calls : ℕ → Op) (w : DirectoryWorld) (e : DirectoryEvent) : Prop :=
  e.CalledAs calls ∧ Granted (AtLevel calls) w e

instance (calls : ℕ → Op) (w : DirectoryWorld) (e : DirectoryEvent) :
    Decidable (LevelStep calls w e) :=
  inferInstanceAs (Decidable (_ ∧ _))

/-- A step of such a run in which no target changes between its check and the write. -/
def StaffStep (calls : ℕ → Op) (w : DirectoryWorld) (e : DirectoryEvent) : Prop :=
  e.CalledAs calls ∧
    Granted (fun t reads σ τ ch ↦ AtLevel calls t reads σ τ ch ∧ FreshTarget calls t reads σ τ ch)
      w e

instance (calls : ℕ → Op) (w : DirectoryWorld) (e : DirectoryEvent) :
    Decidable (StaffStep calls w e) :=
  inferInstanceAs (Decidable (_ ∧ _))

/-- Its calls run at their levels. -/
theorem LevelStep.of_staffStep {calls : ℕ → Op} {w : DirectoryWorld} {e : DirectoryEvent}
    (h : StaffStep calls w e) : LevelStep calls w e :=
  ⟨h.1, h.2.mono fun _ _ _ _ _ hg ↦ hg.1⟩

/-! ### The contract -/

/-- The rows that a call may write. -/
def Op.authorised (op : Op) (r : SystemUser) : Prop :=
  match op with
  | .updateSystemUser actor _ _ =>
    r.deletedAt = none ∧ (actor.role = .admin → r.role = .viewer ∨ r.id = actor.id)
  | .softDeleteSystemUser .. => r.deletedAt = none
  | .resetPassword .. => r.deletedAt = none
  | _ => True

/-- The rows of any table that a call may write. -/
def Op.authorisedIn (op : Op) : ∀ τ, Row τ → Prop
  | .systemUser, r => op.authorised r
  | _, _ => True

/-- A call writes what it may if it is serializable, or if all targets are `fresh`, and takes away
an active super admin only if it is serializable. -/
def staffLaw (fresh : Prop) (calls : ℕ → Op) : Law Row where
  good _ _ _ := True
  may t
    | .systemUser => fun _ old new ↦ ∃ r', new = some r' ∧ ∀ r, old = some r →
        (fresh ∨ (calls t).serializable = true → (calls t).authorised r) ∧
          ((calls t).serializable = false → activeSuperAdmin r → activeSuperAdmin r')
    | _ => fun _ _ _ ↦ True
  keeps _ _ := trivial

/-- At most one serializable transaction has uncommitted work on the accounts. -/
def Exclusive (calls : ℕ → Op) (σ : Store Row) : Prop :=
  ∀ i j t u, (σ.cell .systemUser i).ownedBy t → (σ.cell .systemUser j).ownedBy u →
    (calls t).serializable = true → (calls u).serializable = true → t = u

/-- An active super admin is seen. -/
def HasSuperAdmin (d : View) : Prop :=
  ∃ i r, d.row .systemUser i = some r ∧ activeSuperAdmin r

theorem ownedBy_of_commit {α : Type} {c : Cell α} {t u : ℕ} (h : (c.commit t).ownedBy u) :
    c.ownedBy u := by
  by_cases ho : c.ownedBy t
  · obtain ⟨x, hx⟩ := ho
    rw [Cell.commit_of_dirty hx] at h
    obtain ⟨y, hy⟩ := h
    cases hy
  · rwa [Cell.commit_of_not_ownedBy ho] at h

theorem ownedBy_of_abort {α : Type} {c : Cell α} {t u : ℕ} (h : (c.abort t).ownedBy u) :
    c.ownedBy u := by
  by_cases ho : c.ownedBy t
  · obtain ⟨x, hx⟩ := ho
    rw [Cell.abort_of_dirty hx] at h
    obtain ⟨y, hy⟩ := h
    cases hy
  · rwa [Cell.abort_of_not_ownedBy ho] at h

/-- The contract of staff administration, where targets may be known to be `fresh`. -/
def staffContract (fresh : Prop) (calls : ℕ → Op) : Contract Row DirectoryError Reply where
  inv σ := (staffLaw fresh calls).Lawful σ ∧ Exclusive calls σ
  ready t σ := HasSuperAdmin σ.committed → HasSuperAdmin (σ.view (some t))
  answers _ _ _ _ := True
  failing _ := True
  grant t reads σ τ ch :=
    AtLevel calls t reads σ τ ch ∧ (fresh → FreshTarget calls t reads σ τ ch)
  inv_tick h _ := ⟨h.1.tick _, h.2⟩
  inv_commit h _ := ⟨h.1.commit _, fun i j t u ht hu ↦
    h.2 i j t u (ownedBy_of_commit ht) (ownedBy_of_commit hu)⟩
  inv_abort h := ⟨h.1.abort _, fun i j t u ht hu ↦
    h.2 i j t u (ownedBy_of_abort ht) (ownedBy_of_abort hu)⟩

section Statements

variable {fresh : Prop} {calls : ℕ → Op} {t : ℕ} {σ σ' : Store Row}

theorem writesAsRead_of_grant {reads : List View} {ch : SystemUser → Option (Option SystemUser)}
    (h : (staffContract fresh calls).grant t reads σ .systemUser ch)
    (hf : fresh ∨ (calls t).serializable = true) : WritesAsRead calls t reads σ ch := by
  rcases hs : (calls t).serializable with - | -
  · exact h.2 (hf.resolve_right (by rw [hs]; exact Bool.false_ne_true)) hs
  · exact (h.1 hs).2

/-- The accounts that others have written stay theirs. -/
theorem Exclusive.workBy (h : Exclusive calls σ) (hw : Store.WorkBy t σ σ')
    (ht : (calls t).serializable = true →
      (∀ i, (σ'.cell .systemUser i).ownedBy t → (σ.cell .systemUser i).ownedBy t) ∨
        Turn calls t σ) :
    Exclusive calls σ' := by
  have hold : ∀ i u, u ≠ t → (σ'.cell .systemUser i).ownedBy u → (σ.cell .systemUser i).ownedBy u :=
    fun i u hu ⟨x, hx⟩ ↦ ⟨x, (hw.others .systemUser i u x hu).1 hx⟩
  -- a serializable owner besides `t` rules out that `t` is one
  have hother : ∀ i j u, u ≠ t → (σ'.cell .systemUser i).ownedBy t →
      (σ'.cell .systemUser j).ownedBy u → (calls t).serializable = true →
      (calls u).serializable = true → False := by
    intro i j u hu hit hju hst hsu
    rcases ht hst with hkeep | hturn
    · exact hu (h j i u t (hold j u hu hju) (hkeep i hit) hsu hst)
    · obtain ⟨x, hx⟩ := hold j u hu hju
      have hj : j < σ.next := by
        by_contra hge
        rw [σ.bounded _ _ (Nat.le_of_not_lt hge)] at hx
        cases hx
      have := hturn j (List.mem_range.2 hj) (u, x) hx hu
      rw [hsu] at this
      cases this
  intro i j u v hiu hjv hsu hsv
  by_cases hu : u = t
  · by_contra hne
    subst hu
    exact hother i j v (Ne.symm hne) hiu hjv hsu hsv
  · by_cases hv : v = t
    · subst hv
      exact (hother j i u hu hjv hiu hsv hsu).elim
    · exact h i j u v (hold i u hu hiu) (hold j v hv hjv) hsu hsv

/-- What a call that is not serializable makes of an account keeps it an active super admin. -/
theorem keeps_of_effect {op : Op} (hs : op.serializable = false) {r : SystemUser}
    {x : Option SystemUser} (h : op.effect .systemUser r x) :
    ∃ r', x = some r' ∧ (activeSuperAdmin r → activeSuperAdmin r') := by
  cases op with
  | updateSystemUser actor id patch =>
    obtain ⟨hrole, hactive⟩ : patch.role = none ∧ patch.isActive = none := by
      simpa [Op.serializable, touchesInvariant] using hs
    exact ⟨_, h.2, fun hr ↦ by simpa [activeSuperAdmin, applyPatch, hrole, hactive] using hr⟩
  | softDeleteSystemUser actor id => cases hs
  | restoreSystemUser id =>
    refine ⟨_, h.2, fun hr ↦ ?_⟩
    simp only [activeSuperAdmin, Bool.and_eq_true] at hr ⊢
    exact ⟨hr.1, rfl⟩
  | resetPassword actor id =>
    obtain ⟨_, digest, rfl⟩ := h
    exact ⟨_, rfl, fun hr ↦ hr⟩
  | changeOwnPassword id c n =>
    obtain ⟨salt, rfl⟩ := h
    exact ⟨_, rfl, fun hr ↦ hr⟩
  | createSuperAdmin credentials force =>
    obtain ⟨_, salt, d, p, rfl⟩ := h
    refine ⟨_, rfl, fun hr ↦ ?_⟩
    simp only [activeSuperAdmin, Bool.and_eq_true] at hr ⊢
    exact ⟨⟨hr.1.1, trivial⟩, rfl⟩
  | softDeleteOption model id =>
    obtain ⟨_, f, rfl⟩ := h
    cases model <;> exact ⟨_, rfl, fun hr ↦ hr⟩
  | _ => exact h.elim

theorem exists_of_effect {op : Op} {r : SystemUser} {x : Option SystemUser}
    (h : op.effect .systemUser r x) : ∃ r', x = some r' ∧
      (op.serializable = false → activeSuperAdmin r → activeSuperAdmin r') := by
  rcases hs : op.serializable with - | -
  · obtain ⟨r', rfl, hr⟩ := keeps_of_effect hs h
    exact ⟨r', rfl, fun _ ↦ hr⟩
  · cases op with
    | updateSystemUser actor id patch => exact ⟨_, h.2, fun hf ↦ (nomatch hf)⟩
    | softDeleteSystemUser actor id =>
      obtain ⟨_, c, rfl⟩ := h
      exact ⟨_, rfl, fun hf ↦ (nomatch hf)⟩
    | _ => cases hs

/-- A bulk statement keeps the invariant if the rows it meets are authorised. -/
theorem staff_modify {τ : Tab} {snapshot : View} {ch : Row τ → Option (Option (Row τ))}
    {rows : List (Row τ)} {reads : List View}
    (hch : ∀ r x, ch r = some x → (calls t).effect τ r x) (hσ : (staffContract fresh calls).inv σ)
    (hm : σ.modify schema t τ snapshot ch = .done (rows, σ'))
    (hg : (staffContract fresh calls).grant t reads σ τ ch)
    (hauth : fresh ∨ (calls t).serializable = true → ∀ i r,
      (σ.cell τ i).seen (some t) = some r → (ch r).isSome → (calls t).authorisedIn τ r) :
    (staffContract fresh calls).inv σ' := by
  refine ⟨hσ.1.modify schema_plain hm fun i r x hseen hx ↦ ?_,
    hσ.2.workBy (Store.workBy_modify hm) fun hs ↦ ?_⟩
  · cases τ with
    | systemUser =>
      obtain ⟨r', rfl, hkeep⟩ := exists_of_effect (hch r x hx)
      refine ⟨r', rfl, fun q hq ↦ ?_⟩
      rcases hσ.1.seen_cases hseen with hcom | ⟨r₁, hr₁, hmay⟩
      · obtain rfl := Option.some.inj (hcom.symm.trans hq)
        exact ⟨fun hf ↦ hauth hf i r hseen (by rw [hx]; rfl), hkeep⟩
      · obtain rfl := Option.some.inj hr₁
        exact ⟨(hmay q hq).1, fun hf ha ↦ hkeep hf ((hmay q hq).2 hf ha)⟩
    | _ => trivial
  · by_cases hτ : τ = .systemUser
    · subst hτ
      exact .inr (hg.1 hs).1
    · obtain ⟨_, σ₁, hr, hf⟩ := Store.modify_eq_done hm
      obtain rfl := Store.fire_of_plain schema_plain hf
      exact .inl fun i ho ↦ by rwa [hr.cell_of_ne (Ne.symm hτ)] at ho

/-- No serializable call inserts an account. -/
theorem not_inserts_of_serializable {op : Op} (hs : op.serializable = true) {i : ℕ}
    {r : SystemUser} : ¬ op.inserts .systemUser i r := by
  cases op with
  | createSystemUser actor dto => cases hs
  | createSuperAdmin credentials force => cases hs
  | _ => exact id

/-- So does an insertion. -/
theorem staff_insert {τ : Tab} {r r' : Row τ} (hn : (calls t).inserts τ σ.next r)
    (hσ : (staffContract fresh calls).inv σ) (hi : σ.insert schema t τ r = .done (r', σ')) :
    (staffContract fresh calls).inv σ' := by
  refine ⟨hσ.1.insert schema_plain hi ?_, hσ.2.workBy (Store.workBy_insert hi) fun hs ↦ .inl ?_⟩
  · cases τ with
    | systemUser => exact ⟨r, rfl, fun q hq ↦ (nomatch hq)⟩
    | _ => trivial
  · obtain ⟨rfl, rfl⟩ := Store.insert_of_plain schema_plain hi
    intro i ho
    by_cases hτ : τ = .systemUser
    · subst hτ
      exact absurd hn (not_inserts_of_serializable hs)
    · rwa [Store.add_cell_of_ne (Ne.symm hτ)] at ho

/-- A call that is not serializable leaves the active super admins it sees. -/
theorem ready_of_lawful (hσ : (staffContract fresh calls).inv σ)
    (hs : (calls t).serializable = false) :
    (staffContract fresh calls).ready t σ := by
  rintro ⟨i, r, hr, ha⟩
  have hcom : (σ.cell .systemUser i).committed = some r := by simpa using hr
  by_cases ho : (σ.cell .systemUser i).ownedBy t
  · obtain ⟨x, hx⟩ := ho
    obtain ⟨r', rfl, hmay⟩ := hσ.1.may .systemUser i t x hx
    exact ⟨i, r', Cell.seen_of_dirty hx, (hmay r hcom).2 hs ha⟩
  · exact ⟨i, r, (Cell.seen_of_not_ownedBy ho).trans hcom, ha⟩

/-- A call without a target has no level and needs no authority. -/
theorem free_of_target_eq_none {op : Op} (h : op.target = none) :
    op.serializable = false ∧ ∀ r, op.authorised r := by
  cases op with
  | updateSystemUser actor id patch => cases h
  | softDeleteSystemUser actor id => cases h
  | resetPassword actor id => cases h
  | _ => exact ⟨rfl, fun _ ↦ trivial⟩

/-- A call without a target is tolerated. -/
theorem staff_tolerates (ht : (calls t).target = none) :
    (staffContract fresh calls).Tolerates schema t (calls t).effect (calls t).inserts where
  modify {τ} _ _ _ _ _ _ hch hσ hm hg := staff_modify hch hσ hm hg fun _ i r _ _ ↦ by
    cases τ with
    | systemUser => exact (free_of_target_eq_none ht).2 r
    | _ => trivial
  insert hn hσ hi _ := staff_insert hn hσ hi
  ready hσ := ready_of_lawful hσ (free_of_target_eq_none ht).1
  answers _ := trivial
  failing _ := trivial

/-- While a serializable transaction has work on the accounts, nobody else takes away the super
admin it sees. -/
theorem hasSuperAdmin_rely (h : Rely (staffContract fresh calls) t σ σ')
    (hs : (calls t).serializable = true) (ho : ∃ i, (σ.cell .systemUser i).ownedBy t)
    (ha : HasSuperAdmin (σ.view (some t))) : HasSuperAdmin (σ'.view (some t)) := by
  have hstable := h.stable (P := fun σ ↦ (∃ i, (σ.cell .systemUser i).ownedBy t) ∧
    HasSuperAdmin (σ.view (some t))) ?_ ⟨ho, ha⟩
  · exact hstable.2
  rintro σ₁ σ₂ hσ₁ hσ₂ hi ⟨⟨j, hj⟩, i, r, hr, hactive⟩
  have hj₂ : (σ₂.cell .systemUser j).ownedBy t := by rwa [hi.cell_of_ownedBy hj]
  refine ⟨⟨j, hj₂⟩, ?_⟩
  by_cases hown : (σ₁.cell .systemUser i).ownedBy t
  · exact ⟨i, r, by rw [Store.view_row, hi.cell_of_ownedBy hown]; exact hr, hactive⟩
  have hown₂ : ¬ (σ₂.cell .systemUser i).ownedBy t := fun ⟨x, hx⟩ ↦
    hown ⟨x, (hi.dirty_iff .systemUser i x).1 hx⟩
  rw [Store.view_row, Cell.seen_of_not_ownedBy hown] at hr
  cases hi with
  | tick c hc => exact ⟨i, r, by rwa [Store.view_row, Cell.seen_of_not_ownedBy hown₂], hactive⟩
  | work u hu hw =>
    refine ⟨i, r, ?_, hactive⟩
    rwa [Store.view_row, Cell.seen_of_not_ownedBy hown₂, hw.committed]
  | commit u hu hready =>
    by_cases hou : (σ₁.cell .systemUser i).ownedBy u
    · have hsu : (calls u).serializable = false := by
        rcases hsu : (calls u).serializable with - | -
        · rfl
        · exact absurd (hσ₁.2 i j u t hou hj hsu hs) hu
      obtain ⟨x, hx⟩ := hou
      obtain ⟨r', rfl, hmay⟩ := hσ₁.1.may .systemUser i u x hx
      refine ⟨i, r', ?_, (hmay r hr).2 hsu hactive⟩
      rw [Store.view_row, Cell.seen_of_not_ownedBy hown₂, Store.commit_cell,
        Cell.commit_of_dirty hx]
    · refine ⟨i, r, ?_, hactive⟩
      rwa [Store.view_row, Cell.seen_of_not_ownedBy hown₂, Store.commit_cell,
        Cell.commit_of_not_ownedBy hou]

end Statements

/-! ### The calls with a target -/

section Programs

variable {fresh : Prop} {calls : ℕ → Op} {t : ℕ} {σ : Store Row}

/-- The write to the target: it is authorised if the target that was read is. -/
theorem wp_updateTarget {id : Cuid} (ht : (calls t).target = some id) {d : View}
    {target : SystemUser} (hd : activeAccount d id = some target)
    (hauth : ∀ r : SystemUser, r.id = id → r.deletedAt = none →
      ((calls t).judgesRole → r.role = target.role) → (calls t).authorised r)
    {set : ℤ → SystemUser → SystemUser}
    (heff : ∀ c r, r.id = id → (calls t).effect .systemUser r (some (set c r)))
    {k : SystemUser → Tx Reply} {clocked : Reading Row} {reads : List View}
    (hreads : reads.getLast? = some d)
    (hk : ∀ σ' r, (staffContract fresh calls).inv σ' → (∃ i, (σ'.cell .systemUser i).ownedBy t) →
      wp (staffContract fresh calls) schema t (fun _ ↦ True)
        (Committing (staffContract fresh calls) t) (k r) clocked reads σ') :
    wp (staffContract fresh calls) schema t (fun _ ↦ True)
      (Committing (staffContract fresh calls) t)
      (updateOne .systemUser (fun r ↦ decide (r.id = target.id)) set >>= k) clocked reads σ := by
  obtain ⟨hid, hdel⟩ := activeAccount_eq_some hd
  change wp _ schema t _ _ ((Prog.bind _ _).bind k) clocked reads σ
  rw [Prog.bind_assoc]
  refine wp_update.2 fun σ₀ _ _ σ₁ _ hσ₁ ↦ ⟨fun rows σ₂ hm hg ↦ ?_, fun _ _ ↦ trivial⟩
  have hchange : ∀ {r : SystemUser} {x : Option SystemUser},
      ((if decide (r.id = target.id) then some (set σ₀.clock r) else none).map some) = some x →
      r.id = id ∧ x = some (set σ₀.clock r) := by
    intro r x hx
    obtain ⟨r', hr', rfl⟩ := Option.map_eq_some_iff.1 hx
    split at hr'
    · next hp => exact ⟨(of_decide_eq_true hp).trans hid, by rw [← Option.some.inj hr']⟩
    · cases hr'
  have hσ₂ : (staffContract fresh calls).inv σ₂ := by
    refine staff_modify (fun r x hx ↦ ?_) hσ₁ hm hg fun hf i r hseen hch ↦ ?_
    · obtain ⟨hr, rfl⟩ := hchange hx
      exact heff _ r hr
    · obtain ⟨x, hx⟩ := Option.isSome_iff_exists.1 hch
      have hi : i < σ₁.next := Db.lt_next (d := σ₁.view (some t)) hseen
      obtain ⟨hdel', hrole⟩ := writesAsRead_of_grant hg hf i (List.mem_range.2 hi) r hseen hch id
        ht d hreads target hd
      exact hauth r (hchange hx).1 (hdel'.trans hdel) hrole
  refine ⟨hσ₂, ?_⟩
  cases rows with
  | nil => exact fun _ _ _ ↦ trivial
  | cons r l =>
    obtain ⟨i, r₀, _, _, hcell⟩ := (Store.modify_of_plain schema_plain hm).mem r List.mem_cons_self
    exact hk σ₂ r hσ₂ ⟨i, by rw [hcell]; exact ⟨_, rfl⟩⟩

/-- The count after the write of a serializable transaction makes it ready. -/
theorem wp_assertActiveSuperAdminRemains (hs : (calls t).serializable = true)
    (ho : ∃ i, (σ.cell .systemUser i).ownedBy t) {reply : Reply} {clocked : Reading Row}
    {reads : List View} :
    wp (staffContract fresh calls) schema t (fun _ ↦ True)
      (Committing (staffContract fresh calls) t)
      (assertActiveSuperAdminRemains >>= fun _ ↦ pure reply) clocked reads σ := by
  change wp _ schema t _ _ ((Prog.bind _ _).bind _) clocked reads σ
  rw [Prog.bind_assoc]
  refine wp_query.2 fun σ₁ h₁ _ ↦ wp_refuse (fun _ _ ↦ trivial) fun hcount σ₂ h₂ _ ↦
    ⟨fun _ ↦ hasSuperAdmin_rely h₂ hs ?_ ?_, trivial⟩
  · obtain ⟨i, hi⟩ := ho
    exact ⟨i, (h₁.ownedBy_iff .systemUser i).2 hi⟩
  · obtain ⟨r, hr, ha⟩ := List.countP_pos_iff.1 (Nat.pos_of_ne_zero hcount)
    obtain ⟨i, hi⟩ := Db.mem_all.1 hr
    exact ⟨i, r, hi, ha⟩

theorem authorised_of_canPatch {actor : Actor} {id : Cuid} {patch : UpdateSystemUserDto}
    {target : SystemUser} (hid : target.id = id) (h : canPatch actor target patch = none)
    {r : SystemUser} (hr : r.id = id) (hdel : r.deletedAt = none)
    (hrole : (Op.updateSystemUser actor id patch).judgesRole → r.role = target.role) :
    (Op.updateSystemUser actor id patch).authorised r := by
  refine ⟨hdel, fun hadmin ↦ ?_⟩
  by_cases hown : actor.id = id
  · exact .inr (hr.trans hown.symm)
  · rw [hrole (by simp [Op.judgesRole, hadmin, hown])]
    unfold canPatch at h
    simp only [hadmin] at h
    split at h
    · cases h
    · split at h
      · cases h
      · split at h
        · cases h
        · split at h
          · cases h
          · split at h
            · next hv => exact .inl (hv.resolve_right fun he ↦ hown (he.trans hid))
            · cases h

theorem wp_updateSystemUserTx {actor : Actor} {id : Cuid} {patch : UpdateSystemUserDto}
    (ht : calls t = .updateSystemUser actor id patch) {clocked : Reading Row} :
    wp (staffContract fresh calls) schema t (fun _ ↦ True)
      (Committing (staffContract fresh calls) t)
      (updateSystemUserTx actor id patch) clocked [] σ := by
  refine wp_findActiveSystemUser (fun _ ↦ trivial) fun σ₀ target _ hσ₀ htarget ↦
    wp_permit (fun _ ↦ trivial) fun hcan ↦ wp_assertOptionsAssignable (fun _ ↦ trivial)
    (fun σ₁ reads _ hσ₁ hreads _ _ ↦ ?_) hσ₀
  have hid := (activeAccount_eq_some htarget).1
  have hlast : reads.getLast? = some (σ₀.view (some t)) := by
    obtain ⟨l, rfl⟩ := hreads
    simp
  refine wp_updateTarget (by rw [ht]; rfl) htarget (fun r hr hdel hrole ↦ ?_)
    (fun c r hr ↦ by rw [ht]; exact ⟨hr, rfl⟩) hlast (fun σ₂ r hσ₂ ho ↦ ?_)
  · rw [ht] at hrole ⊢
    exact authorised_of_canPatch hid hcan hr hdel hrole
  · split
    · next htouch => exact wp_assertActiveSuperAdminRemains (by rw [ht]; exact htouch) ho
    · next htouch =>
      exact fun σ₃ _ hσ₃ ↦
        ⟨ready_of_lawful hσ₃ (by rw [ht]; exact eq_false_of_ne_true htouch), trivial⟩

theorem wp_softDeleteSystemUserTx {actor : Actor} {id : Cuid}
    (ht : calls t = .softDeleteSystemUser actor id) {clocked : Reading Row} :
    wp (staffContract fresh calls) schema t (fun _ ↦ True)
      (Committing (staffContract fresh calls) t)
      (softDeleteSystemUserTx actor id) clocked [] σ := by
  refine wp_findActiveSystemUser (fun _ ↦ trivial) fun σ₀ target _ hσ₀ htarget ↦
    wp_permit (fun _ ↦ trivial) fun _ ↦ wp_updateTarget (by rw [ht]; rfl) htarget
    (fun r _ hdel _ ↦ by rw [ht]; exact hdel) (fun c r hr ↦ by rw [ht]; exact ⟨hr, c, rfl⟩) rfl
    (fun σ₂ r _ ho ↦ wp_assertActiveSuperAdminRemains (by rw [ht]; rfl) ho)

theorem wp_resetPasswordTx_staff {actor : Actor} {id : Cuid}
    (ht : calls t = .resetPassword actor id) {password : JsString} {digest : Digest}
    {clocked : Reading Row} :
    wp (staffContract fresh calls) schema t (fun _ ↦ True)
      (Committing (staffContract fresh calls) t)
      (resetPasswordTx actor id password digest) clocked [] σ := by
  refine wp_findActiveSystemUser (fun _ ↦ trivial) fun σ₀ target _ hσ₀ htarget ↦
    wp_permit (fun _ ↦ trivial) fun _ ↦ wp_updateTarget (by rw [ht]; rfl) htarget
    (fun r _ hdel _ ↦ by rw [ht]; exact hdel) (fun c r hr ↦ by rw [ht]; exact ⟨hr, digest, rfl⟩) rfl
    (fun σ₂ r _ _ σ₃ _ hσ₃ ↦ ⟨ready_of_lawful hσ₃ (by rw [ht]; rfl), trivial⟩)

end Programs

/-- Every world of such a run is healthy. -/
theorem staff_healthy {fresh : Prop} {calls : ℕ → Op} {w : DirectoryWorld}
    {allow : DirectoryWorld → DirectoryEvent → Prop} (hcall : ∀ w e, allow w e → e.CalledAs calls)
    (hgrant : ∀ w e, allow w e → Granted (staffContract fresh calls).grant w e)
    (hw : directory.Reach allow w) :
    Healthy directory (staffContract fresh calls) (fun _ _ ↦ True) w := by
  have hinit : (staffContract fresh calls).inv (Store.init Row) :=
    ⟨Law.Lawful.init _, fun _ _ _ _ ⟨_, hx⟩ ↦ (nomatch hx)⟩
  refine adequate hinit (fun w t op ha ↦ ?_) hgrant
    (fun w e _ ↦ accepted_true w e) (fun _ _ _ _ _ ↦ relyOn_true _ _ _) hw
  obtain rfl : op = calls t := hcall _ _ ha
  change Safe _ schema _ _ t [] [] (service (calls t))
  have hfail : ∀ f : Failure Row DirectoryError, (staffContract fresh calls).failing f :=
    fun _ ↦ trivial
  by_cases htarget : (calls t).target = none
  · exact safe_of_obeys (staff_tolerates htarget) (service_does _)
  · cases hop : calls t with
    | updateSystemUser actor id patch =>
      refine safe_attempt_of_wp (fun _ ↦ True) (fun _ _ _ ↦ wp_updateSystemUserTx hop)
        (fun _ _ ↦ trivial) fun f _ ↦ ⟨hfail f, trivial⟩
    | softDeleteSystemUser actor id =>
      exact safe_attempt_of_wp (fun _ ↦ True) (fun _ _ _ ↦ wp_softDeleteSystemUserTx hop)
        (fun _ _ ↦ trivial) fun f _ ↦ ⟨hfail f, trivial⟩
    | resetPassword actor id =>
      exact fun _ _ ↦ safe_attempt_of_wp (fun _ ↦ True) (fun _ _ _ ↦ wp_resetPasswordTx_staff hop)
        (fun _ _ ↦ trivial) fun f _ ↦ ⟨hfail f, trivial⟩
    | _ => exact absurd (by rw [hop]; rfl) htarget

/-- A run of calls at their levels is healthy. -/
theorem staff_healthy_of_levelStep {calls : ℕ → Op} {w : DirectoryWorld}
    (hw : directory.Reach (LevelStep calls) w) :
    Healthy directory (staffContract False calls) (fun _ _ ↦ True) w :=
  staff_healthy (fun _ _ h ↦ h.1) (fun _ _ h ↦ h.2.mono fun _ _ _ _ _ hg ↦ ⟨hg, False.elim⟩) hw

/-- Where targets are fresh, it keeps to more. -/
theorem staff_healthy_of_staffStep {calls : ℕ → Op} {w : DirectoryWorld}
    (hw : directory.Reach (StaffStep calls) w) :
    Healthy directory (staffContract True calls) (fun _ _ ↦ True) w :=
  staff_healthy (fun _ _ h ↦ h.1)
    (fun _ _ h ↦ h.2.mono fun _ _ _ _ _ hg ↦ ⟨hg.1, fun _ ↦ hg.2⟩) hw

/-- What a transaction has written, it was authorised to write. -/
theorem authorised_of_ownedBy {fresh : Prop} {calls : ℕ → Op} {σ : Store Row} {t i : ℕ}
    {r : SystemUser} (hσ : (staffContract fresh calls).inv σ)
    (hf : fresh ∨ (calls t).serializable = true) (ho : (σ.cell .systemUser i).ownedBy t)
    (hr : σ.committed.row .systemUser i = some r) : (calls t).authorised r := by
  obtain ⟨x, hx⟩ := ho
  obtain ⟨_, _, hmay⟩ := hσ.1.may .systemUser i t x hx
  exact (hmay r (by simpa using hr)).1 hf

/-- **Authority holds at the write.** Let serializable calls run at their level. Once there is an
active super admin, there is one in every committed state that follows; and every row that a
serializable patch or deletion is about to commit was at its write undeleted, and a viewer's or the
actor's own if the actor is an ADMIN: the version it replaces is the committed one, which the lock
has kept. If no target changes between the check of a READ COMMITTED call and its write, the same
goes for every patch, deletion and reset. -/
theorem staff_authority {calls : ℕ → Op} {w : DirectoryWorld} :
    (directory.Reach (LevelStep calls) w →
      (HasSuperAdmin w.store.committed → ∀ es w',
        directory.execUnder (LevelStep calls) es w = some w' → HasSuperAdmin w'.store.committed) ∧
      ∀ t i r, (calls t).serializable = true → (w.returning t).isSome →
        (w.store.cell .systemUser i).ownedBy t →
        w.store.committed.row .systemUser i = some r → (calls t).authorised r) ∧
    (directory.Reach (StaffStep calls) w →
      ∀ t i r, (w.returning t).isSome → (w.store.cell .systemUser i).ownedBy t →
        w.store.committed.row .systemUser i = some r → (calls t).authorised r) := by
  refine ⟨fun hw ↦ ⟨fun ha es w' hes ↦ ?_, fun t i r hs _ ho hr ↦ ?_⟩, fun hw t i r _ ho hr ↦ ?_⟩
  · induction es generalizing w with
    | nil => exact Option.some.inj hes ▸ ha
    | cons e es ih =>
      unfold System.execUnder at hes
      split at hes
      · next hallow =>
        obtain ⟨w₁, hs, hes⟩ := Option.bind_eq_some_iff.1 hes
        refine ih (.step hw hallow hs) ?_ hes
        have hhealthy := staff_healthy_of_levelStep hw
        rcases System.committed_step hhealthy hs with
          ⟨_, hsame⟩ | ⟨t, reply, reads, _, hret, _, hst⟩
        · obtain ⟨i, r, hr, hactive⟩ := ha
          exact ⟨i, r, (hsame .systemUser i).trans hr, hactive⟩
        · rw [hst, Store.committed_commit]
          exact (hhealthy.committing hret).1 ha
      · cases hes
  · exact authorised_of_ownedBy (staff_healthy_of_levelStep hw).inv (.inr hs) ho hr
  · exact authorised_of_ownedBy (staff_healthy_of_staffStep hw).inv (.inl trivial) ho hr

namespace Sample

/-- A viewer under key 2 and a second super admin under key 3. -/
def staff : List DirectoryEvent :=
  account ++
    .call 3 (.createSystemUser superAdmin { viewer with email := [2], role := .superAdmin }) ::
    .answer 3 oracle :: .answer 3 oracle :: steps 3 5

/-- A patch of the first name. -/
def rename : UpdateSystemUserDto := ⟨some [8], none, none, none, none, none, none, none⟩

/-- An ADMIN, whose account is another, renames the viewer. -/
def renamedRun : List DirectoryEvent :=
  staff ++ .call 4 (.updateSystemUser ⟨9, .admin, none⟩ 2 rename) :: steps 4 4

/-- The viewer is promoted while the ADMIN's patch is under way. -/
def promotedRun : List DirectoryEvent :=
  staff ++ .call 4 (.updateSystemUser ⟨9, .admin, none⟩ 2 rename) :: steps 4 2 ++
    .call 5 (.updateSystemUser superAdmin 2
      ⟨none, none, none, none, none, none, some .admin, none⟩) ::
    steps 5 6 ++ steps 4 2

/-- The viewer is deleted while a reset of the password is under way. -/
def deletedRun : List DirectoryEvent :=
  staff ++ .call 4 (.resetPassword superAdmin 2) :: .answer 4 oracle :: .answer 4 oracle ::
    steps 4 2 ++ .call 5 (.softDeleteSystemUser superAdmin 2) :: steps 5 6 ++ steps 4 2

end Sample

/-- An ADMIN renames a viewer, and the super admin is still there afterwards. -/
theorem staff_authority_renamedRun :
    HasSuperAdmin (afterUnder (StaffStep (calledIn Sample.renamedRun))
        Sample.renamedRun).store.committed ∧
      (∃ w', directory.execUnder (LevelStep (calledIn Sample.renamedRun)) [.run 4]
          (afterUnder (StaffStep (calledIn Sample.renamedRun)) Sample.renamedRun) = some w' ∧
        HasSuperAdmin w'.store.committed) ∧
      ∃ r, (afterUnder (StaffStep (calledIn Sample.renamedRun))
          Sample.renamedRun).store.committed.row .systemUser 2 = some r ∧
        (calledIn Sample.renamedRun 4).authorised r := by
  have hsuper : ((afterUnder (StaffStep (calledIn Sample.renamedRun))
      Sample.renamedRun).store.committed.row .systemUser 3).any activeSuperAdmin = true := by
    decide +kernel
  have hnext : (directory.execUnder (LevelStep (calledIn Sample.renamedRun)) [.run 4]
      (afterUnder (StaffStep (calledIn Sample.renamedRun)) Sample.renamedRun)).isSome := by
    decide +kernel
  have hret : ((afterUnder (StaffStep (calledIn Sample.renamedRun))
      Sample.renamedRun).returning 4).isSome := by decide +kernel
  have ho : ((afterUnder (StaffStep (calledIn Sample.renamedRun))
      Sample.renamedRun).store.cell .systemUser 2).ownedBy 4 := by decide +kernel
  have hrow : ((afterUnder (StaffStep (calledIn Sample.renamedRun))
      Sample.renamedRun).store.committed.row .systemUser 2).isSome := by decide +kernel
  have hreach := reach_afterUnder (StaffStep (calledIn Sample.renamedRun)) Sample.renamedRun
  obtain ⟨hlevel, hauth⟩ := @staff_authority (calledIn Sample.renamedRun)
    (afterUnder (StaffStep (calledIn Sample.renamedRun)) Sample.renamedRun)
  obtain ⟨r₃, hr₃, hactive⟩ := (Option.any_eq_true _ _).1 hsuper
  obtain ⟨w', hw'⟩ := Option.isSome_iff_exists.1 hnext
  obtain ⟨r, hr⟩ := Option.isSome_iff_exists.1 hrow
  have hstays := (hlevel (hreach.mono fun _ _ ↦ LevelStep.of_staffStep)).1
  exact ⟨⟨3, r₃, hr₃, hactive⟩, ⟨w', hw', hstays ⟨3, r₃, hr₃, hactive⟩ _ _ hw'⟩, r, hr,
    hauth hreach 4 2 r hret ho hr⟩

/-- At their levels, the patch of an ADMIN is about to be committed to the account of another ADMIN,
and the reset of a password to a deleted account. -/
theorem staff_authority_staleRuns :
    (directory.Reach (LevelStep (calledIn Sample.promotedRun))
          (afterUnder (LevelStep (calledIn Sample.promotedRun)) Sample.promotedRun) ∧
        ((afterUnder (LevelStep (calledIn Sample.promotedRun))
          Sample.promotedRun).returning 4).isSome ∧
        ((afterUnder (LevelStep (calledIn Sample.promotedRun)) Sample.promotedRun).store.cell
          .systemUser 2).ownedBy 4 ∧
        ((afterUnder (LevelStep (calledIn Sample.promotedRun))
          Sample.promotedRun).store.committed.row .systemUser 2).map (fun r ↦
            (SystemUser.id r, r.role)) = some (2, .admin)) ∧
      directory.Reach (LevelStep (calledIn Sample.deletedRun))
          (afterUnder (LevelStep (calledIn Sample.deletedRun)) Sample.deletedRun) ∧
        ((afterUnder (LevelStep (calledIn Sample.deletedRun))
          Sample.deletedRun).returning 4).isSome ∧
        ((afterUnder (LevelStep (calledIn Sample.deletedRun)) Sample.deletedRun).store.cell
          .systemUser 2).ownedBy 4 ∧
        ((afterUnder (LevelStep (calledIn Sample.deletedRun))
          Sample.deletedRun).store.committed.row .systemUser 2).map (fun r ↦
            decide (SystemUser.deletedAt r = none)) = some false := by
  refine ⟨⟨reach_afterUnder _ _, ?_, ?_, ?_⟩, reach_afterUnder _ _, ?_, ?_, ?_⟩ <;> decide +kernel

end EasyBook.Directory

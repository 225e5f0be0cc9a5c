import EasyBook.Directory.Shelter
import EasyBook.ReadCommitted.Labels

/-!
# Filing holders

A call that files a registration, a staff account or a venue under a row of a vocabulary checks the
row in a statement of its own, and nothing locks it afterwards. `VocabularyStep` excludes the two
races that follow: that the row is deleted between the check and the write, and that a holder is
filed while a transaction that deletes the row is under way.

What the checks establish is `Judged`: the call has read the row undeleted, or the row is reserved.
A row that is judged is offered at the write, the first by the condition and the second because a
reserved row is never deleted, so each call that files keeps the store sheltered.
-/

namespace EasyBook.Directory

open ReadCommitted ReadCommitted.Prog

/-! ### The condition -/

/-- The tables whose rows refer to vocabularies. -/
def holderTables : List Tab := [.systemUser, .registration, .venue]

theorem mem_holderTables {τ : Tab} {r : Row τ} {p : Vocabulary × Cuid} (h : p ∈ refs τ r) :
    τ ∈ holderTables := by
  cases τ with
  | systemUser => simp [holderTables]
  | registration => simp [holderTables]
  | venue => simp [holderTables]
  | _ => cases h

/-- A query of the call has shown the row, undeleted and not reserved. -/
def ReadActive (reads : List View) (p : Vocabulary × Cuid) : Prop :=
  ∃ d ∈ reads, ∃ o ∈ d.row (.option p.1) p.2,
    OptionRow.deletedAt o = none ∧ o.isSystemReserved = false

instance (reads : List View) (p : Vocabulary × Cuid) : Decidable (ReadActive reads p) :=
  inferInstanceAs (Decidable (∃ d ∈ reads, ∃ o ∈ d.row (.option p.1) p.2,
    OptionRow.deletedAt o = none ∧ o.isSystemReserved = false))

/-- The foreign key finds the row, and if the call has read it undeleted it still is, for everybody,
and nobody is deleting it. -/
def Assignable (t : ℕ) (reads : List View) (σ : Store Row) (p : Vocabulary × Cuid) : Prop :=
  ((σ.cell (.option p.1) p.2).seen (some t)).isSome ∧ (ReadActive reads p → Offered σ p)

instance (t : ℕ) (reads : List View) (σ : Store Row) (p : Vocabulary × Cuid) :
    Decidable (Assignable t reads σ p) :=
  inferInstanceAs (Decidable (_ ∧ _))

/-- No transaction but `t` has an uncommitted holder of the row. -/
def NoneFiling (t : ℕ) (σ : Store Row) (p : Vocabulary × Cuid) : Prop :=
  ∀ τ ∈ holderTables, ∀ i ∈ List.range σ.next, ∀ q ∈ (σ.cell τ i).dirty, q.1 ≠ t → ∀ r ∈ q.2,
    p ∉ refs τ r

instance (t : ℕ) (σ : Store Row) (p : Vocabulary × Cuid) : Decidable (NoneFiling t σ p) :=
  inferInstanceAs (Decidable (∀ τ ∈ holderTables, ∀ i ∈ List.range σ.next,
    ∀ q ∈ (σ.cell τ i).dirty, q.1 ≠ t → ∀ r ∈ q.2, p ∉ refs τ r))

/-- Holders are filed under rows that are still as they were checked, and a row is deleted while
nobody is filing anything under it. -/
def FreshReference (t : ℕ) (reads : List View) (σ : Store Row) :
    ∀ τ, (Row τ → Option (Option (Row τ))) → Prop
  | .option v, ch => ∀ i ∈ List.range σ.next, ∀ r ∈ (σ.cell (.option v) i).seen (some t),
      ∀ x ∈ ch r, ∀ o ∈ x, OptionRow.deletedAt r = none → OptionRow.deletedAt o ≠ none →
        NoneFiling t σ (v, i)
  | τ, ch => ∀ i ∈ List.range σ.next, ∀ r ∈ (σ.cell τ i).seen (some t), ∀ x ∈ ch r, ∀ r' ∈ x,
      ∀ p ∈ refs τ r', p ∉ refs τ r → Assignable t reads σ p

instance (t : ℕ) (reads : List View) (σ : Store Row) (τ : Tab)
    (ch : Row τ → Option (Option (Row τ))) : Decidable (FreshReference t reads σ τ ch) := by
  unfold FreshReference
  induction τ using Tab.casesOn <;> infer_instance

/-- So are new holders. -/
def FreshHolder (t : ℕ) (reads : List View) (σ : Store Row) (τ : Tab) (r : Row τ) : Prop :=
  ∀ p ∈ refs τ r, Assignable t reads σ p

instance (t : ℕ) (reads : List View) (σ : Store Row) (τ : Tab) (r : Row τ) :
    Decidable (FreshHolder t reads σ τ r) :=
  inferInstanceAs (Decidable (∀ p ∈ refs τ r, Assignable t reads σ p))

/-- The row that a call deletes. -/
def Op.deletes : Op → Option (Vocabulary × Cuid)
  | .softDeleteOption model id => some (model.vocabulary, id)
  | .softDeleteVenueType id => some (.venueType, id)
  | _ => none

/-- No holder of the row that the call deletes is committed, if it was not one before. -/
def Undisturbed (op : Op) (σ σ' : Store Row) : Prop :=
  ∀ p ∈ op.deletes, ∀ τ ∈ holderTables, ∀ i ∈ List.range σ'.next, ∀ r' ∈ (σ'.cell τ i).committed,
    p ∈ refs τ r' → ∃ r ∈ (σ.cell τ i).committed, p ∈ refs τ r

instance (op : Op) (σ σ' : Store Row) : Decidable (Undisturbed op σ σ') :=
  inferInstanceAs (Decidable (∀ p ∈ op.deletes, ∀ τ ∈ holderTables, ∀ i ∈ List.range σ'.next,
    ∀ r' ∈ (σ'.cell τ i).committed, p ∈ refs τ r' → ∃ r ∈ (σ.cell τ i).committed, p ∈ refs τ r))

/-- A step of a run of `calls` in which no row is retired between its check and its use, and nobody
files anything under a row while a transaction that deletes it is under way. -/
def VocabularyStep (calls : ℕ → Op) (w : DirectoryWorld) (e : DirectoryEvent) : Prop :=
  e.CalledAs calls ∧ Granted FreshReference w e ∧ Accepted FreshHolder w e ∧
    ∀ w', directory.step e w = some w' →
      w.RelyOn (fun t ↦ Undisturbed (calls t)) e.session w'.store

/-! ### The contract -/

/-- Whether a row is reserved, which is its label. -/
def reserved : ∀ τ, Row τ → Bool
  | .option _, r => OptionRow.isSystemReserved r
  | _, _ => false

/-- File under `f` what was filed under `p`. -/
def redirect (p : Vocabulary × Cuid) (f : Cuid) (q : Vocabulary × Cuid) : Vocabulary × Cuid :=
  if q = p then (p.1, f) else q

/-- Reserved rows stay as they are, and a deletion moves the holders of the row it deletes. -/
def vocabularyLaw (calls : ℕ → Op) (ℓ : Tab → ℕ → Bool) : Law Row where
  good
    | .option v => fun i r ↦ OptionRow.id r = i ∧ r.isSystemReserved = ℓ (.option v) i ∧
        (ℓ (.option v) i = true → r.deletedAt = none)
    | _ => fun _ _ ↦ True
  may t
    | .option v => fun i old new ↦ ∃ r', new = some r' ∧ OptionRow.id r' = i ∧
        r'.isSystemReserved = ℓ (.option v) i ∧
        (ℓ (.option v) i = true → r'.deletedAt = none ∧ ∀ r, old = some r → r' = r)
    | τ => fun _ old new ↦ ∀ p ∈ (calls t).deletes, ∀ r, old = some r → refs τ r ≠ [] →
        ∃ r' f, new = some r' ∧ refs τ r' = (refs τ r).map (redirect p f)
  keeps {t τ i x r} _ h := by
    cases τ with
    | option v =>
      obtain ⟨r', hr', hid, hres, hkeep⟩ := h
      exact Option.some.inj hr' ▸ ⟨hid, hres, fun hl ↦ (hkeep hl).1⟩
    | _ => trivial

/-- The contract of the vocabularies; `strict` is for the runs without the races. -/
def vocabularyContract (strict : Prop) (calls : ℕ → Op) (ℓ : Tab → ℕ → Bool) :
    Contract Row DirectoryError Reply where
  inv σ := (vocabularyLaw calls ℓ).Lawful σ ∧ (strict → Sheltered σ)
  ready _ _ := True
  answers _ _ _ _ := True
  failing _ := True
  grant t reads σ τ ch := strict → FreshReference t reads σ τ ch
  accept t reads σ τ r :=
    (strict → FreshHolder t reads σ τ r) ∧ Labelled schema reserved ℓ t reads σ τ r
  rely t σ σ' := strict → Undisturbed (calls t) σ σ'
  inv_tick h _ := ⟨h.1.tick _, fun hs ↦ (h.2 hs).tick _⟩
  inv_commit h _ := ⟨h.1.commit _, fun hs ↦ (h.2 hs).commit _⟩
  inv_abort h := ⟨h.1.abort _, fun hs ↦ (h.2 hs).abort _⟩

section Statements

variable {strict : Prop} {calls : ℕ → Op} {ℓ : Tab → ℕ → Bool} {t : ℕ} {σ σ' : Store Row}
  {reads : List View}

/-- What a call knows of a row under which it files something: it has read it undeleted, or it is
reserved. -/
def Judged (ℓ : Tab → ℕ → Bool) (reads : List View) (p : Vocabulary × Cuid) : Prop :=
  ReadActive reads p ∨ ℓ (.option p.1) p.2 = true

/-- The transaction has written no row of the table. -/
def Untouched (τ : Tab) (t : ℕ) (σ : Store Row) : Prop := ∀ i, ¬ (σ.cell τ i).ownedBy t

theorem Untouched.rely {C : Contract Row DirectoryError Reply} {τ : Tab} (h : Untouched τ t σ)
    (hr : Rely C t σ σ') : Untouched τ t σ' :=
  fun i ho ↦ h i ((hr.ownedBy_iff τ i).1 ho)

/-- A transaction that has written nothing has touched nothing, whatever the others do. -/
theorem untouched_of_clean {C : Contract Row DirectoryError Reply} (h : σ.Clean t)
    (hr : Rely C t σ σ') (τ : Tab) : Untouched τ t σ' :=
  hr.clean h τ

theorem Untouched.congr {τ : Tab} (h : Untouched τ t σ) (hc : ∀ i, σ'.cell τ i = σ.cell τ i) :
    Untouched τ t σ' :=
  fun i ho ↦ h i (hc i ▸ ho)

/-- A query of a store in order that shows the row undeleted judges it. -/
theorem judged_of_shows (hσ : (vocabularyLaw calls ℓ).Lawful σ) {v : Vocabulary} {id : Cuid}
    (h : Shows (σ.view (some t)) v id) (hmem : σ.view (some t) ∈ reads) :
    Judged ℓ reads (v, id) := by
  obtain ⟨i, r, hr, rfl, hdel⟩ := h
  obtain ⟨hid, hres, _⟩ := hσ.seen_good hr
  rw [hid]
  rcases hl : ℓ (.option v) i with - | -
  · exact .inl ⟨_, hmem, r, hr, hdel, hres.trans hl⟩
  · exact .inr hl

theorem judged_of_checked {v : Vocabulary} {id : Cuid}
    (h : Checked (vocabularyContract strict calls ℓ) t reads v id) : Judged ℓ reads (v, id) := by
  obtain ⟨σ, hσ, hmem, hshows⟩ := h
  exact judged_of_shows hσ.1 hshows hmem

/-- A row that is judged, and assignable, is offered. -/
theorem offered_of_judged (hσ : (vocabularyLaw calls ℓ).Lawful σ) {p : Vocabulary × Cuid}
    (hown : Untouched (.option p.1) t σ) (hj : Judged ℓ reads p) (ha : Assignable t reads σ p) :
    Offered σ p := by
  rcases hj with hread | hl
  · exact ha.2 hread
  · obtain ⟨o, ho⟩ := Option.isSome_iff_exists.1 ha.1
    rw [Cell.seen_of_not_ownedBy (hown _)] at ho
    refine ⟨⟨o, ho, (hσ.good _ _ o ho).2.2 hl⟩, fun q hq o' ho' ↦ ?_⟩
    obtain ⟨r', hr', _, _, hkeep⟩ := hσ.may (.option p.1) p.2 q.1 q.2 hq
    obtain rfl := Option.some.inj (ho'.symm.trans hr')
    exact (hkeep hl).1

/-- A bulk statement on holders keeps the invariant if it keeps the law and files under rows that
are judged. -/
theorem modify_holder {τ : Tab} (hτ : ∀ v, τ ≠ .option v) {snapshot : View}
    {ch : Row τ → Option (Option (Row τ))} {rows : List (Row τ)}
    (hσ : (vocabularyContract strict calls ℓ).inv σ)
    (hm : σ.modify schema t τ snapshot ch = .done (rows, σ'))
    (hg : (vocabularyContract strict calls ℓ).grant t reads σ τ ch)
    (hmay : ∀ i r x, (σ.cell τ i).seen (some t) = some r → ch r = some x →
      (vocabularyLaw calls ℓ).may t τ i (σ.cell τ i).committed x)
    (hj : ∀ r r' p, ch r = some (some r') → p ∈ refs τ r' → p ∉ refs τ r →
      Untouched (.option p.1) t σ ∧ Judged ℓ reads p) :
    (vocabularyContract strict calls ℓ).inv σ' := by
  refine ⟨hσ.1.modify schema_plain hm hmay, fun hs ↦ ?_⟩
  have hfresh : FreshReference t reads σ τ ch := hg hs
  obtain ⟨hne, hcell⟩ := Store.cell_modify_of_plain schema_plain hm
  refine (hσ.2 hs).write_holder (t := t) hτ hne fun i ↦ (hcell i).imp_right ?_
  rintro ⟨r, x, hseen, hx, hfree, hc⟩
  refine ⟨x, hfree, hc, fun r' hr' p hp ↦ ?_⟩
  by_cases hold : p ∈ refs τ r
  · exact .inl ⟨r, hseen, hold⟩
  · subst hr'
    have hi : i ∈ List.range σ.next :=
      List.mem_range.2 (Db.lt_next (d := σ.view (some t)) hseen)
    obtain ⟨hown, hjudged⟩ := hj r r' p hx hp hold
    refine .inr (offered_of_judged hσ.1 hown hjudged ?_)
    cases τ with
    | option v => exact absurd rfl (hτ v)
    | _ => exact hfresh i hi r hseen _ hx r' rfl p hp hold

/-- `t` sees no holder of the row. -/
def Vacated (t : ℕ) (σ : Store Row) (p : Vocabulary × Cuid) : Prop :=
  ∀ τ i r, (σ.cell τ i).seen (some t) = some r → p ∉ refs τ r

/-- Where `t` sees no holder and nobody else is filing one, none survives `t`. -/
theorem not_mem_refs_of_survives {p : Vocabulary × Cuid} (hv : Vacated t σ p)
    (hn : NoneFiling t σ p) {τ : Tab} {i : ℕ} {r : Row τ} (hr : r ∈ survivors (σ.cell τ i) t) :
    p ∉ refs τ r := by
  intro hp
  rcases mem_survivors.1 hr with ⟨u, hu⟩ | ⟨hcom, hno⟩
  · by_cases hut : u = t
    · subst hut
      exact hv τ i r (Cell.seen_of_dirty hu) hp
    · have hi : i < σ.next := by
        by_contra hge
        rw [σ.bounded τ i (Nat.le_of_not_lt hge)] at hu
        cases hu
      exact hn τ (mem_holderTables hp) i (List.mem_range.2 hi) (u, some r) hu hut r rfl hp
  · exact hv τ i r ((Cell.seen_of_not_ownedBy hno).trans hcom) hp

/-- A bulk statement on a vocabulary keeps the invariant if it keeps the law and deletes rows of
which no holder is seen. -/
theorem modify_option {v : Vocabulary} {snapshot : View}
    {ch : OptionRow → Option (Option OptionRow)} {rows : List OptionRow}
    (hσ : (vocabularyContract strict calls ℓ).inv σ)
    (hm : σ.modify schema t (.option v) snapshot ch = .done (rows, σ'))
    (hg : (vocabularyContract strict calls ℓ).grant t reads σ (.option v) ch)
    (hmay : ∀ i r x, (σ.cell (.option v) i).seen (some t) = some r → ch r = some x →
      (vocabularyLaw calls ℓ).may t (.option v) i (σ.cell (.option v) i).committed x)
    (hdel : strict → ∀ i r o, (σ.cell (.option v) i).seen (some t) = some r →
      ch r = some (some o) → OptionRow.deletedAt r = none → OptionRow.deletedAt o ≠ none →
      Vacated t σ (v, i)) :
    (vocabularyContract strict calls ℓ).inv σ' := by
  refine ⟨hσ.1.modify schema_plain hm hmay, fun hs ↦ ?_⟩
  have hfresh : FreshReference t reads σ (.option v) ch := hg hs
  obtain ⟨hne, hcell⟩ := Store.cell_modify_of_plain schema_plain hm
  refine (hσ.2 hs).write_option (Store.workBy_modify hm) hne fun k ↦ (hcell k).imp_right ?_
  rintro ⟨r, x, hseen, hx, _, hc⟩
  obtain ⟨o, rfl, _⟩ := hmay k r x hseen hx
  refine ⟨o, hc, fun ho ↦ ?_⟩
  by_cases hr : OptionRow.deletedAt r = none
  · have hk : k ∈ List.range σ.next :=
      List.mem_range.2 (Db.lt_next (d := σ.view (some t)) hseen)
    exact .inr fun τ i q hq ↦ not_mem_refs_of_survives (hdel hs k r o hseen hx hr ho)
      (hfresh k hk r hseen _ hx o rfl hr ho) hq
  · exact .inl ⟨r, hseen, hr⟩

/-- An insertion of a holder under rows that are judged keeps the invariant. -/
theorem insert_holder {τ : Tab} (hτ : ∀ v, τ ≠ .option v) {r r' : Row τ}
    (hσ : (vocabularyContract strict calls ℓ).inv σ)
    (hi : σ.insert schema t τ r = .done (r', σ'))
    (ha : (vocabularyContract strict calls ℓ).accept t reads σ τ r)
    (hj : ∀ p ∈ refs τ r, Untouched (.option p.1) t σ ∧ Judged ℓ reads p) :
    (vocabularyContract strict calls ℓ).inv σ' := by
  obtain ⟨hne, hcell⟩ := Store.cell_insert_of_plain schema_plain hi
  refine ⟨hσ.1.insert schema_plain hi ?_, fun hs ↦
    (hσ.2 hs).write_holder (t := t) hτ hne fun i ↦ (hcell i).imp_right ?_⟩
  · cases τ with
    | option v => exact absurd rfl (hτ v)
    | _ => exact fun _ _ _ h ↦ by cases h
  · rintro ⟨_, hfree, hc⟩
    refine ⟨some r, hfree, hc, fun q hq p hp ↦ .inr ?_⟩
    obtain rfl := Option.some.inj hq
    obtain ⟨hown, hjudged⟩ := hj p hp
    exact offered_of_judged hσ.1 hown hjudged (ha.1 hs p hp)

/-- So does that of an undeleted row of a vocabulary under its key. -/
theorem insert_option {v : Vocabulary} {r r' : OptionRow}
    (hσ : (vocabularyContract strict calls ℓ).inv σ)
    (hi : σ.insert schema t (.option v) r = .done (r', σ'))
    (ha : (vocabularyContract strict calls ℓ).accept t reads σ (.option v) r)
    (hid : r.id = σ.next) (hdel : r.deletedAt = none) :
    (vocabularyContract strict calls ℓ).inv σ' ∧ ℓ (.option v) σ.next = r.isSystemReserved := by
  obtain ⟨hne, hcell⟩ := Store.cell_insert_of_plain schema_plain hi
  have hlabel : ℓ (.option v) σ.next = r.isSystemReserved := by
    rw [ha.2 r' σ' hi, (Store.insert_of_plain schema_plain hi).1]
    rfl
  refine ⟨⟨hσ.1.insert schema_plain hi ⟨r, rfl, hid, hlabel.symm, fun _ ↦ ⟨hdel, fun _ h ↦ by
    cases h⟩⟩, fun hs ↦ ?_⟩, hlabel⟩
  refine (hσ.2 hs).write_option (Store.workBy_insert hi) hne fun k ↦ (hcell k).imp_right ?_
  rintro ⟨_, _, hc⟩
  exact ⟨r, hc, fun h ↦ absurd hdel h⟩

end Statements

/-! ### Rules -/

section Programs

variable {strict : Prop} {calls : ℕ → Op} {ℓ : Tab → ℕ → Bool} {t : ℕ} {σ : Store Row} {α : Type}
  {Q : α → Reading Row → List View → Store Row → Prop} {clocked : Reading Row} {reads : List View}

/-- The verification condition of a call under the contract of the vocabularies. -/
abbrev wpv (strict : Prop) (calls : ℕ → Op) (ℓ : Tab → ℕ → Bool) (t : ℕ)
    (Q : α → Reading Row → List View → Store Row → Prop) :
    Tx α → Reading Row → List View → Store Row → Prop :=
  wp (vocabularyContract strict calls ℓ) schema t (fun _ ↦ True) Q

/-- What a transaction owes when it returns is nothing. -/
theorem wp_committed {reply : Reply} :
    wpv strict calls ℓ t (Committing (vocabularyContract strict calls ℓ) t) (pure reply) clocked
      reads σ :=
  fun _ _ _ ↦ ⟨trivial, trivial⟩

theorem may_of_not_deletes (ht : (calls t).deletes = none) {τ : Tab} (hτ : ∀ v, τ ≠ .option v)
    {i : ℕ} {old new : Option (Row τ)} : (vocabularyLaw calls ℓ).may t τ i old new := by
  cases τ with
  | option v => exact absurd rfl (hτ v)
  | _ =>
    intro p hp
    rw [ht] at hp
    cases hp

/-- Filing the row under an id: what it newly refers to is judged. -/
theorem wp_file {τ : Tab} (hτ : ∀ v, τ ≠ .option v) (ht : (calls t).deletes = none)
    (hown : ∀ v, Untouched (.option v) t σ) {q : Row τ → Bool} {set : ℤ → Row τ → Row τ}
    (hj : ∀ c r p, p ∈ refs τ (set c r) → p ∉ refs τ r → Judged ℓ reads p) {k : Row τ → Tx α}
    (hk : ∀ σ' r, (∀ v, Untouched (.option v) t σ') →
      wpv strict calls ℓ t Q (k r) clocked reads σ') :
    wpv strict calls ℓ t Q (updateOne τ q set >>= k) clocked reads σ := by
  change wp _ schema t _ Q ((Prog.bind _ _).bind k) clocked reads σ
  rw [Prog.bind_assoc]
  refine wp_update.2 fun σ₀ h₀ _ σ₁ h₁ hσ₁ ↦ ⟨fun rows σ₂ hm hg ↦ ?_, fun _ _ ↦ trivial⟩
  have hown₁ : ∀ v, Untouched (.option v) t σ₁ := fun v ↦ (hown v).rely (h₀.trans h₁)
  have hown₂ : ∀ v, Untouched (.option v) t σ₂ := fun v ↦ (hown₁ v).congr fun i ↦ by
    rw [(Store.cell_modify_of_plain schema_plain hm).1 _ (hτ v).symm]
  refine ⟨modify_holder hτ hσ₁ hm hg (fun _ _ _ _ _ ↦ may_of_not_deletes ht hτ)
    fun r r' p hch hp hnew ↦ ⟨hown₁ p.1, ?_⟩, ?_⟩
  · split at hch
    · obtain rfl := Option.some.inj (Option.some.inj hch)
      exact hj _ r p hp hnew
    · cases hch
  · cases rows with
    | nil => exact fun _ _ _ ↦ trivial
    | cons r l => exact hk σ₂ r hown₂

/-- A new row is filed under rows that are judged. -/
theorem wp_fileNew {τ : Tab} (hτ : ∀ v, τ ≠ .option v) (hown : ∀ v, Untouched (.option v) t σ)
    {new : ℤ → ℕ → Row τ} (hj : ∀ c i, ∀ p ∈ refs τ (new c i), Judged ℓ reads p)
    {k : Row τ → Tx α}
    (hk : ∀ σ' r, (∀ v, Untouched (.option v) t σ') →
      wpv strict calls ℓ t Q (k r) clocked reads σ') :
    wpv strict calls ℓ t Q (create τ new >>= k) clocked reads σ := by
  refine wp_create.2 fun σ₁ h₁ hσ₁ ↦ ⟨fun r σ₂ hi ha ↦ ?_, fun _ _ ↦ trivial⟩
  have hown₁ : ∀ v, Untouched (.option v) t σ₁ := fun v ↦ (hown v).rely h₁
  exact ⟨insert_holder hτ hσ₁ hi ha fun p hp ↦ ⟨hown₁ p.1, hj _ _ p hp⟩,
    hk σ₂ r fun v ↦ (hown₁ v).congr fun i ↦ by
      rw [(Store.cell_insert_of_plain schema_plain hi).1 _ (hτ v).symm]⟩

/-! ### The calls that file -/

theorem refs_newRegistration {userId : Cuid} {dto : RegistrationDto}
    (hd : Judged ℓ reads (.department, dto.departmentId))
    (hp : Judged ℓ reads (.personnelRole, dto.personnelRoleId)) {c : ℤ} {i : ℕ} :
    ∀ p ∈ refs .registration (newRegistration userId dto c i), Judged ℓ reads p := by
  simp only [refs, newRegistration, List.mem_cons, List.not_mem_nil, or_false]
  rintro p (rfl | rfl)
  · exact hd
  · exact hp

theorem refs_editRegistration {dto : RegistrationDto}
    (hd : Judged ℓ reads (.department, dto.departmentId))
    (hp : Judged ℓ reads (.personnelRole, dto.personnelRoleId)) {c : ℤ}
    {r : LineUserRegistration} :
    ∀ p ∈ refs .registration (editRegistration dto c r), Judged ℓ reads p := by
  simp only [refs, editRegistration, List.mem_cons, List.not_mem_nil, or_false]
  rintro p (rfl | rfl)
  · exact hd
  · exact hp

theorem wp_registerTx_vocabulary {s : JsString} {dto : RegistrationDto}
    (ht : calls t = .register s dto) (hclean : σ.Clean t) :
    wpv strict calls ℓ t (Committing (vocabularyContract strict calls ℓ) t) (registerTx s dto)
      clocked [] σ := by
  have hdel : (calls t).deletes = none := by rw [ht]; rfl
  -- what follows once the user has been found or created
  have hrest : ∀ {user : LineUser} {reads : List View} {σ : Store Row},
      (∀ v, Untouched (.option v) t σ) →
      wpv strict calls ℓ t (Committing (vocabularyContract strict calls ℓ) t)
        (do
          refuse (user.access ≠ .unregistered) (.conflict .alreadyRegistered)
          assertActiveOptions dto.departmentId dto.personnelRoleId
          let created : LineUserRegistration ←
            create Tab.registration (newRegistration user.id dto)
          let registration ← ownerSelect created
          let updated ← updateOne .lineUser (fun r ↦ decide (r.id = user.id)) fun _ r ↦
            { r with access := .pending, registeredAt := some created.createdAt }
          pure (Reply.status ⟨updated.access, some registration, none⟩)) clocked reads σ := by
    intro user reads σ hown
    refine wp_refuse (fun _ _ ↦ trivial) fun _ ↦
      wp_assertActiveOptions (fun _ ↦ trivial) fun σ₁ σ₂ h₁ hσ₁ h₂ hσ₂ hd hp ↦
      wp_fileNew (fun _ h ↦ by cases h) (fun v ↦ (hown v).rely (h₁.trans h₂)) (fun c i ↦ ?_)
        fun σ₃ created hown₃ ↦ wp_query.2 fun σ₄ h₄ _ ↦
      wp_file (fun _ h ↦ by cases h) hdel (fun v ↦ (hown₃ v).rely h₄)
        (fun _ _ _ h ↦ by cases h) fun _ _ _ ↦ wp_committed
    exact refs_newRegistration (judged_of_shows hσ₁.1 hd (by simp))
      (judged_of_shows hσ₂.1 hp (by simp))
  change wp _ schema t _ _ ((Prog.bind (Prog.bind _ _) _)) clocked [] σ
  rw [Prog.bind_assoc]
  refine wp_findFirst.2 fun σ₁ h₁ _ ↦ ?_
  have hown : ∀ v, Untouched (.option v) t σ₁ := fun v ↦ untouched_of_clean hclean h₁ (.option v)
  split
  · exact hrest hown
  · exact wp_fileNew (fun _ h ↦ by cases h) hown (fun _ _ _ h ↦ by cases h) fun _ _ hown₂ ↦
      hrest hown₂

theorem wp_updateRegistrationTx_vocabulary {s : JsString} {dto : RegistrationDto}
    (ht : calls t = .updateRegistration s dto) (hclean : σ.Clean t) :
    wpv strict calls ℓ t (Committing (vocabularyContract strict calls ℓ) t)
      (updateRegistrationTx s dto) clocked [] σ := by
  have hdel : (calls t).deletes = none := by rw [ht]; rfl
  refine wp_findFirst.2 fun σ₀ h₀ _ ↦ wp_require (fun _ _ ↦ trivial) fun user _ ↦
    wp_refuse (fun _ _ ↦ trivial) fun _ ↦
    wp_assertActiveOptions (fun _ ↦ trivial) fun σ₁ σ₂ h₁ hσ₁ h₂ hσ₂ hd hp ↦
    wp_file (fun _ h ↦ by cases h) hdel
      (fun v ↦ untouched_of_clean hclean ((h₀.trans h₁).trans h₂) (.option v))
      (fun c r p hmem _ ↦ ?_) fun σ₃ updated hown ↦ wp_query.2 fun σ₄ h₄ _ ↦ ?_
  · exact refs_editRegistration (judged_of_shows hσ₁.1 hd (by simp))
      (judged_of_shows hσ₂.1 hp (by simp)) p hmem
  · split
    · exact wp_file (fun _ h ↦ by cases h) hdel (fun v ↦ (hown v).rely h₄)
        (fun _ _ _ h ↦ by cases h) fun _ _ _ ↦ wp_committed
    · exact wp_committed

theorem wp_updateRegistrationByAdminTx {id : Cuid} {dto : RegistrationDto} {actor : AdminActor}
    (ht : calls t = .updateRegistrationByAdmin id dto actor) (hclean : σ.Clean t) :
    wpv strict calls ℓ t (Committing (vocabularyContract strict calls ℓ) t)
      (updateRegistrationByAdminTx id dto actor) clocked [] σ := by
  have hdel : (calls t).deletes = none := by rw [ht]; rfl
  refine wp_findFirst.2 fun σ₀ h₀ _ ↦ wp_require (fun _ _ ↦ trivial) fun row _ ↦
    wp_refuse (fun _ _ ↦ trivial) fun _ ↦
    wp_findFirst.2 fun σ₁ h₁ _ ↦ wp_require (fun _ _ ↦ trivial) fun _ _ ↦
    wp_assertActiveOptions (fun _ ↦ trivial) fun σ₂ σ₃ h₂ hσ₂ h₃ hσ₃ hd hp ↦
    wp_file (fun _ h ↦ by cases h) hdel
      (fun v ↦ untouched_of_clean hclean (((h₀.trans h₁).trans h₂).trans h₃) (.option v))
      (fun c r p hmem _ ↦ ?_) fun _ _ _ ↦ wp_committed
  exact refs_editRegistration (judged_of_shows hσ₂.1 hd (by simp))
    (judged_of_shows hσ₃.1 hp (by simp)) p hmem

theorem wp_createSystemUserTx {actor : Actor} {dto : CreateSystemUserDto} {password : JsString}
    {digest : Digest} (hσ : (vocabularyContract strict calls ℓ).inv σ) (hclean : σ.Clean t) :
    wpv strict calls ℓ t (Committing (vocabularyContract strict calls ℓ) t)
      (createSystemUserTx actor dto password digest) clocked [] σ := by
  refine wp_assertOptionsAssignable (fun _ ↦ trivial) (fun σ₁ reads h₁ _ _ hd hp ↦
    wp_fileNew (fun _ h ↦ by cases h) (fun v ↦ untouched_of_clean hclean h₁ (.option v))
      (fun c i ↦ ?_) fun _ _ _ ↦ wp_committed) hσ
  simp only [refs, newSystemUser, List.mem_cons, List.not_mem_nil, or_false]
  rintro p (rfl | rfl)
  · exact judged_of_checked (hd _ rfl)
  · exact judged_of_checked (hp _ rfl)

/-- A patch refers to what it names, and to what the row referred to. -/
theorem refs_applyPatch {patch : UpdateSystemUserDto}
    (hd : ∀ i ∈ patch.departmentId, Judged ℓ reads (.department, i))
    (hp : ∀ i ∈ patch.personnelRoleId, Judged ℓ reads (.personnelRole, i)) {r : SystemUser}
    {p : Vocabulary × Cuid} (hmem : p ∈ refs .systemUser (applyPatch patch r))
    (hnew : p ∉ refs .systemUser r) : Judged ℓ reads p := by
  simp only [refs, applyPatch, List.mem_cons, List.not_mem_nil, or_false] at hmem hnew
  rcases hmem with rfl | rfl
  · cases h : patch.departmentId with
    | none => exact absurd (.inl (by rw [h]; rfl)) hnew
    | some i => exact hd i h
  · cases h : patch.personnelRoleId with
    | none => exact absurd (.inr (by rw [h]; rfl)) hnew
    | some i => exact hp i h

theorem wp_updateSystemUserTx_vocabulary {actor : Actor} {id : Cuid} {patch : UpdateSystemUserDto}
    (ht : calls t = .updateSystemUser actor id patch) (hclean : σ.Clean t) :
    wpv strict calls ℓ t (Committing (vocabularyContract strict calls ℓ) t)
      (updateSystemUserTx actor id patch) clocked [] σ := by
  have hdel : (calls t).deletes = none := by rw [ht]; rfl
  refine wp_findActiveSystemUser (fun _ ↦ trivial) fun σ₀ target h₀ hσ₀ _ ↦
    wp_permit (fun _ ↦ trivial) fun _ ↦ wp_assertOptionsAssignable (fun _ ↦ trivial)
    (fun σ₁ reads h₁ _ _ hd hp ↦ wp_file (fun _ h ↦ by cases h) hdel
      (fun v ↦ untouched_of_clean hclean (h₀.trans h₁) (.option v)) (fun c r p ↦ ?_)
      fun _ _ _ ↦ ?_) hσ₀
  · exact refs_applyPatch (fun i hi ↦ judged_of_checked (hd i hi)) fun i hi ↦
      judged_of_checked (hp i hi)
  · split
    · change wp _ schema t _ _ ((Prog.bind _ _).bind _) _ _ _
      rw [Prog.bind_assoc]
      exact wp_query.2 fun _ _ _ ↦ wp_refuse (fun _ _ ↦ trivial) fun _ ↦ wp_committed
    · exact wp_committed

/-- The check of the amenities touches nothing. -/
theorem wp_assertActiveAmenities {ids : List ℤ} {k : Unit → Tx α}
    (h : wpv strict calls ℓ t Q (k ()) clocked reads σ) :
    wpv strict calls ℓ t Q (assertActiveAmenities ids >>= k) clocked reads σ := by
  unfold assertActiveAmenities
  split
  · change wp _ schema t _ Q ((Prog.bind _ _).bind k) clocked reads σ
    rw [Prog.bind_assoc]
    exact wp_inquire.2 fun _ ↦ wp_refuse (fun _ _ ↦ trivial) fun _ ↦ h
  · exact h

theorem wp_createVenueTx {dto : CreateVenueDto} (hclean : σ.Clean t) :
    wpv strict calls ℓ t (Committing (vocabularyContract strict calls ℓ) t) (createVenueTx dto)
      clocked [] σ := by
  refine wp_assertAssignableVenueType (fun _ ↦ trivial) fun σ₁ h₁ hσ₁ hv ↦
    wp_assertActiveAmenities (wp_fileNew (fun _ h ↦ by cases h)
      (fun v ↦ untouched_of_clean hclean h₁ (.option v)) (fun c i ↦ ?_)
      fun _ _ _ ↦ wp_committed)
  simp only [refs, newVenue, List.mem_cons, List.not_mem_nil, or_false]
  rintro p rfl
  exact judged_of_shows hσ₁.1 hv (by simp)

theorem wp_updateVenueTx {id : Cuid} {dto : UpdateVenueDto} (ht : calls t = .updateVenue id dto)
    (hclean : σ.Clean t) :
    wpv strict calls ℓ t (Committing (vocabularyContract strict calls ℓ) t) (updateVenueTx id dto)
      clocked [] σ := by
  have hdel : (calls t).deletes = none := by rw [ht]; rfl
  -- what follows once the type has been checked, if one is named
  have hrest : ∀ {existing : Venue} {reads : List View} {σ : Store Row},
      (∀ v, Untouched (.option v) t σ) →
      (∀ i ∈ dto.venueTypeId, Judged ℓ reads (.venueType, i)) →
      wpv strict calls ℓ t (Committing (vocabularyContract strict calls ℓ) t)
        (do
          assertActiveAmenities (dto.amenityIds.getD [])
          let updated ← updateOne .venue (fun r ↦ decide (r.id = existing.id)) fun _ ↦
            editVenue dto
          pure (Reply.venue updated)) clocked reads σ := by
    intro existing reads σ hown hv
    refine wp_assertActiveAmenities (wp_file (fun _ h ↦ by cases h) hdel hown
      (fun c r p hmem hnew ↦ ?_) fun _ _ _ ↦ wp_committed)
    simp only [refs, editVenue, List.mem_cons, List.not_mem_nil, or_false] at hmem hnew
    subst hmem
    cases h : dto.venueTypeId with
    | none => exact absurd (by rw [h]; rfl) hnew
    | some i => exact hv i h
  change wp _ schema t _ _ ((Prog.bind (Prog.bind _ _) _)) clocked [] σ
  rw [Prog.bind_assoc]
  refine wp_findFirst.2 fun σ₀ h₀ _ ↦ wp_require (fun _ _ ↦ trivial) fun existing _ ↦ ?_
  have hown : ∀ v, Untouched (.option v) t σ₀ := fun v ↦ untouched_of_clean hclean h₀ (.option v)
  cases hd : dto.venueTypeId with
  | none => exact hrest hown (by rw [hd]; exact fun _ h ↦ by cases h)
  | some i =>
    refine wp_assertAssignableVenueType (fun _ ↦ trivial) fun σ₁ h₁ hσ₁ hv ↦
      hrest (fun v ↦ (hown v).rely h₁) fun j hj ↦ ?_
    rw [hd] at hj
    obtain rfl := Option.some.inj hj
    exact judged_of_shows hσ₁.1 hv (by simp)

end Programs

end EasyBook.Directory

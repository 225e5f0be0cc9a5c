import EasyBook.Directory.Filing

/-!
# Retired vocabulary rows

Deleting a row of a vocabulary re-points its holders to the reserved fallback row and then marks it
deleted. If the row is deleted while a call that has checked it is about to file something under it,
or if the new holder is not yet committed when the deletion looks for holders, the holder is left
with a retired row, as in `retiredRun`.

In a run without these two races the checks and the re-pointing are enough: no version of a holder
refers to a retired row. That the reserved rows stay as they are, and that a deletion moves only the
holders of the row it deletes, needs no condition.
-/

namespace EasyBook.Directory

open ReadCommitted ReadCommitted.Prog

section Programs

variable {strict : Prop} {calls : ℕ → Op} {ℓ : Tab → ℕ → Bool} {t : ℕ} {σ : Store Row} {α : Type}
  {Q : α → Reading Row → List View → Store Row → Prop} {clocked : Reading Row} {reads : List View}

/-! ### The calls that edit a vocabulary -/

/-- What a committed holder refers to while a deletion of it is under way, one referred to when the
deletion began to be watched. -/
theorem holder_before (hs : strict) {p : Vocabulary × Cuid} (hp : (calls t).deletes = some p)
    {σ' : Store Row} (hr : Rely (vocabularyContract strict calls ℓ) t σ σ') {τ : Tab} {i : ℕ}
    {r' : Row τ} (hcom : (σ'.cell τ i).committed = some r') (hmem : p ∈ refs τ r') :
    ∃ r, (σ.cell τ i).committed = some r ∧ p ∈ refs τ r := by
  have hstable := hr.stable_of_rely (P := fun σ' ↦ ∀ r', (σ'.cell τ i).committed = some r' →
    p ∈ refs τ r' → ∃ r, (σ.cell τ i).committed = some r ∧ p ∈ refs τ r)
    (fun σ₁ σ₂ _ _ hstep _ hP r₂ hr₂ hp₂ ↦ ?_) fun r hr hp ↦ ⟨r, hr, hp⟩
  · exact hstable r' hcom hmem
  · have hi : i < σ₂.next := by
      by_contra hge
      rw [σ₂.bounded τ i (Nat.le_of_not_lt hge)] at hr₂
      cases hr₂
    obtain ⟨r₁, hr₁, hp₁⟩ :=
      hstep hs p hp τ (mem_holderTables hp₂) i (List.mem_range.2 hi) r₂ hr₂ hp₂
    exact hP r₁ hr₁ hp₁

/-- `t` sees no holder of the row in the table. -/
def VacatedIn (τ : Tab) (t : ℕ) (σ : Store Row) (p : Vocabulary × Cuid) : Prop :=
  ∀ i r, (σ.cell τ i).seen (some t) = some r → p ∉ refs τ r

theorem VacatedIn.rely {τ : Tab} {p : Vocabulary × Cuid} (h : VacatedIn τ t σ p) (hs : strict)
    (hp : (calls t).deletes = some p) {σ' : Store Row}
    (hr : Rely (vocabularyContract strict calls ℓ) t σ σ') : VacatedIn τ t σ' p := by
  intro i r hseen hmem
  by_cases ho : (σ'.cell τ i).ownedBy t
  · obtain ⟨x, hx⟩ := ho
    rw [Cell.seen_of_dirty hx] at hseen
    subst hseen
    exact h i r (Cell.seen_of_dirty ((hr.dirty_iff τ i _).1 hx)) hmem
  · rw [Cell.seen_of_not_ownedBy ho] at hseen
    obtain ⟨r₀, hr₀, hmem₀⟩ := holder_before hs hp hr hseen hmem
    refine h i r₀ ?_ hmem₀
    rwa [Cell.seen_of_not_ownedBy fun ho' ↦ ho ((hr.ownedBy_iff τ i).2 ho')]

theorem redirect_redirect (p q : Vocabulary × Cuid) (f g : Cuid) :
    redirect p g (redirect p f q) = redirect p (if f = p.2 then g else f) q := by
  by_cases hq : q = p
  · subst hq
    by_cases hf : f = q.2
    · subst hf
      simp [redirect]
    · have hne : (q.1, f) ≠ q := fun h ↦ hf (congrArg Prod.snd h)
      simp [redirect, hf, hne]
  · simp [redirect, hq]

theorem redirect_self (p q : Vocabulary × Cuid) : redirect p p.2 q = q := by
  unfold redirect
  split
  · next h => exact h.symm
  · rfl

theorem redirect_ne {p : Vocabulary × Cuid} {f : Cuid} (hf : f ≠ p.2) (q : Vocabulary × Cuid) :
    redirect p f q ≠ p := by
  unfold redirect
  split
  · exact fun h ↦ hf (congrArg Prod.snd h)
  · next hq => exact hq

/-- A holder that is re-pointed, once more or for the first time, is re-pointed. -/
theorem may_redirect {τ : Tab} {i : ℕ} {r r' : Row τ} {p : Vocabulary × Cuid} {f : Cuid}
    (hσ : (vocabularyLaw calls ℓ).Lawful σ) (hτ : ∀ v, τ ≠ .option v)
    (hp : (calls t).deletes = some p) (hseen : (σ.cell τ i).seen (some t) = some r)
    (hr : refs τ r' = (refs τ r).map (redirect p f)) :
    (vocabularyLaw calls ℓ).may t τ i (σ.cell τ i).committed (some r') := by
  have hmay : ∀ new, (vocabularyLaw calls ℓ).may t τ i (σ.cell τ i).committed new ↔
      ∀ p ∈ (calls t).deletes, ∀ r, (σ.cell τ i).committed = some r → refs τ r ≠ [] →
        ∃ r' f, new = some r' ∧ refs τ r' = (refs τ r).map (redirect p f) := fun new ↦ by
    cases τ with
    | option v => exact absurd rfl (hτ v)
    | _ => rfl
  refine (hmay _).2 fun p' hp' q hq hne ↦ ?_
  obtain rfl : p = p' := Option.some.inj (hp.symm.trans hp')
  rcases hσ.seen_cases hseen with hcom | hown
  · obtain rfl := Option.some.inj (hcom.symm.trans hq)
    exact ⟨r', f, rfl, hr⟩
  · obtain ⟨r₁, f₁, hr₁, hrefs⟩ := (hmay _).1 hown p hp q hq hne
    obtain rfl := Option.some.inj hr₁
    refine ⟨r', if f₁ = p.2 then f else f₁, rfl, ?_⟩
    rw [hr, hrefs, List.map_map]
    exact List.map_congr_left fun q _ ↦ redirect_redirect p q f₁ f

/-- Re-pointing leaves the deletion no holder to see in the table: one that the snapshot has missed
would have been committed while the deletion was under way. -/
theorem vacatedIn_of_updated {τ : Tab} {p : Vocabulary × Cuid} (hs : strict)
    (hp : (calls t).deletes = some p) {q : Row τ → Bool} (hq : ∀ r, q r = true ↔ p ∈ refs τ r)
    {f : Cuid} (hf : f ≠ p.2) {set : Row τ → Row τ}
    (hset : ∀ r, q r = true → refs τ (set r) = (refs τ r).map (redirect p f)) {σ₁ σ₂ : Store Row}
    (hown : Untouched τ t σ) (hr : Rely (vocabularyContract strict calls ℓ) t σ σ₁)
    {rows : List (Row τ)} (hu : Store.Updated σ₁ t τ (σ.view (some t))
      (fun r ↦ if q r then some (set r) else none) rows σ₂) : VacatedIn τ t σ₂ p := by
  intro i r hseen hmem
  rcases hu.cases i with ⟨r₁, r', _, hch, _, hcell, _⟩ | ⟨hkeep, hcell⟩
  · rw [hcell, Cell.seen_write_self] at hseen
    obtain rfl := Option.some.inj hseen
    split at hch
    · next hq₁ =>
      obtain rfl := Option.some.inj hch
      rw [hset r₁ hq₁] at hmem
      obtain ⟨x, _, hx⟩ := List.mem_map.1 hmem
      exact redirect_ne hf x hx
    · cases hch
  · rw [hcell] at hseen
    have hcom : (σ₁.cell τ i).committed = some r := by
      rwa [Cell.seen_of_not_ownedBy (hown.rely hr i)] at hseen
    obtain ⟨r₀, hr₀, hmem₀⟩ := holder_before hs hp hr hcom hmem
    have hsnap : (σ.view (some t)).row τ i = some r₀ := by
      rw [Store.view_row, Cell.seen_of_not_ownedBy (hown i)]
      exact hr₀
    have hnone := hkeep r r₀ hseen hsnap
      (by rw [if_pos ((hq r₀).2 hmem₀)]; exact fun h ↦ by cases h)
    rw [if_pos ((hq r).2 hmem)] at hnone
    cases hnone

/-- The re-pointing of the holders in one table to a reserved row. -/
theorem wp_repoint {τ : Tab} (hτ : ∀ v, τ ≠ .option v) {p : Vocabulary × Cuid}
    (hp : (calls t).deletes = some p) {f : Cuid} (hf : ℓ (.option p.1) f = true)
    (hpℓ : ℓ (.option p.1) p.2 = false) {q : Row τ → Bool} (hq : ∀ r, q r = true ↔ p ∈ refs τ r)
    {set : Row τ → Row τ}
    (hset : ∀ r, q r = true → refs τ (set r) = (refs τ r).map (redirect p f))
    (hown : ∀ v, Untouched (.option v) t σ) (hclean : Untouched τ t σ) {k : ℕ → Tx α}
    (hk : ∀ σ₁ σ₂ n, Rely (vocabularyContract strict calls ℓ) t σ σ₁ →
      (∀ τ', τ' ≠ τ → σ₂.cell τ' = σ₁.cell τ') → (strict → VacatedIn τ t σ₂ p) →
      wpv strict calls ℓ t Q (k n) clocked reads σ₂) :
    wpv strict calls ℓ t Q (updateMany τ q (fun _ ↦ set) >>= k) clocked reads σ := by
  have hne : f ≠ p.2 := by
    rintro rfl
    rw [hpℓ] at hf
    cases hf
  change wp _ schema t _ Q ((Prog.bind _ _).bind k) clocked reads σ
  rw [Prog.bind_assoc]
  refine wp_update.2 fun σ₀ h₀ _ σ₁ h₁ hσ₁ ↦ ⟨fun rows σ₂ hm hg ↦ ⟨?_, ?_⟩, fun _ _ ↦ trivial⟩
  · refine modify_holder hτ hσ₁ hm hg (fun i r x hseen hx ↦ ?_) fun r r' p' hx hp' hnew ↦
      ⟨(hown p'.1).rely (h₀.trans h₁), ?_⟩
    · obtain ⟨r', hch, rfl⟩ := Option.map_eq_some_iff.1 hx
      split at hch
      · next hqr =>
        obtain rfl := Option.some.inj hch
        exact may_redirect hσ₁.1 hτ hp hseen (hset r hqr)
      · cases hch
    · obtain ⟨r'', hch, hr''⟩ := Option.map_eq_some_iff.1 hx
      obtain rfl := Option.some.inj hr''
      split at hch
      · next hqr =>
        obtain rfl := Option.some.inj hch
        rw [hset r hqr] at hp'
        obtain ⟨x, hx, rfl⟩ := List.mem_map.1 hp'
        -- what is new is the fallback row
        by_cases hxp : x = p
        · subst hxp
          exact .inr (by simpa [redirect] using hf)
        · exact absurd (by simpa [redirect, hxp] using hx) hnew
      · cases hch
  · exact hk σ₁ σ₂ _ (h₀.trans h₁) (fun τ' hτ' ↦
      (Store.cell_modify_of_plain schema_plain hm).1 τ' hτ') fun hs ↦
        vacatedIn_of_updated hs hp hq hne hset (hclean.rely h₀) h₁
          (Store.modify_of_plain schema_plain hm)

/-- A row that is not reserved may be edited, and deleted where no holder of it is seen. -/
theorem wp_editOption {v : Vocabulary} {id : Cuid} (hℓ : ℓ (.option v) id = false)
    {set : ℤ → OptionRow → OptionRow}
    (hset : ∀ c r, (set c r).id = r.id ∧ (set c r).isSystemReserved = r.isSystemReserved)
    (hdel : strict → (∀ c r, (set c r).deletedAt = r.deletedAt) ∨
      ∀ σ', Rely (vocabularyContract strict calls ℓ) t σ σ' → Vacated t σ' (v, id))
    {k : OptionRow → Tx α} (hk : ∀ σ' r, wpv strict calls ℓ t Q (k r) clocked reads σ') :
    wpv strict calls ℓ t Q (updateOne (.option v) (fun r ↦ decide (r.id = id)) set >>= k) clocked
      reads σ := by
  change wp _ schema t _ Q ((Prog.bind _ _).bind k) clocked reads σ
  rw [Prog.bind_assoc]
  refine wp_update.2 fun σ₀ h₀ _ σ₁ h₁ hσ₁ ↦ ⟨fun rows σ₂ hm hg ↦ ⟨?_, ?_⟩, fun _ _ ↦ trivial⟩
  · -- the row that is written is the one under the key
    have hwritten : ∀ {i r x}, (σ₁.cell (.option v) i).seen (some t) = some r →
        ((if decide (OptionRow.id r = id) then some (set σ₀.clock r) else none).map some) = some x →
        i = id ∧ x = some (set σ₀.clock r) := by
      intro i r x hseen hx
      obtain ⟨r', hch, rfl⟩ := Option.map_eq_some_iff.1 hx
      split at hch
      · next hid =>
        exact ⟨(hσ₁.1.seen_good hseen).1.symm.trans (of_decide_eq_true hid),
          by rw [← Option.some.inj hch]⟩
      · cases hch
    refine modify_option hσ₁ hm hg (fun i r x hseen hx ↦ ?_) fun hs i r o hseen hx hr ho ↦ ?_
    · obtain ⟨rfl, rfl⟩ := hwritten hseen hx
      obtain ⟨hid, hres, _⟩ := hσ₁.1.seen_good hseen
      exact ⟨_, rfl, (hset _ r).1.trans hid, (hset _ r).2.trans hres, fun htrue ↦ by
        rw [hℓ] at htrue
        cases htrue⟩
    · obtain ⟨rfl, ho'⟩ := hwritten hseen hx
      obtain rfl := Option.some.inj ho'
      rcases hdel hs with hkeep | hvacated
      · exact absurd ((hkeep _ r).trans hr) ho
      · exact hvacated σ₁ (h₀.trans h₁)
  · cases rows with
    | nil => exact fun _ _ _ ↦ trivial
    | cons r l => exact hk σ₂ r

theorem wp_tombstone {v : Vocabulary} {id : Cuid} (hℓ : ℓ (.option v) id = false)
    (hdel : strict → ∀ σ', Rely (vocabularyContract strict calls ℓ) t σ σ' → Vacated t σ' (v, id))
    {k : OptionRow → Tx α} (hk : ∀ σ' r, wpv strict calls ℓ t Q (k r) clocked reads σ') :
    wpv strict calls ℓ t Q (tombstone v id >>= k) clocked reads σ := by
  unfold tombstone
  refine wp_editOption hℓ (fun _ _ ↦ ?_) (fun hs ↦ .inr (hdel hs)) hk
  exact ⟨rfl, rfl⟩

/-- The row found is not reserved, now and at any other time. -/
theorem wp_findEditableOption {v : Vocabulary} {id : Cuid} {k : OptionRow → Tx α}
    (h : ∀ σ' existing, Rely (vocabularyContract strict calls ℓ) t σ σ' →
      OptionRow.id existing = id → ℓ (.option v) id = false →
      wpv strict calls ℓ t Q (k existing) clocked (σ'.view (some t) :: reads) σ') :
    wpv strict calls ℓ t Q (findEditableOption v id >>= k) clocked reads σ := by
  change wp _ schema t _ Q ((Prog.bind _ _).bind k) clocked reads σ
  rw [Prog.bind_assoc]
  refine wp_findFirst.2 fun σ' hr hσ' ↦ wp_require (fun _ _ ↦ trivial) fun existing hfind ↦ ?_
  obtain ⟨i, hi⟩ := Db.mem_all.1 (List.mem_of_find?_eq_some hfind)
  have hp := List.find?_some hfind
  simp only [Bool.and_eq_true, decide_eq_true_eq, Bool.not_eq_true'] at hp
  obtain ⟨hid, hres, _⟩ := hσ'.1.seen_good hi
  refine h σ' existing hr hp.1.1 ?_
  rw [← hp.1.1, hid, ← hres, hp.2]

/-- The row found is reserved, now and at any other time. -/
theorem wp_findReserved {v : Vocabulary} {name : JsString} {k : Option OptionRow → Tx α}
    (h : ∀ σ' row, Rely (vocabularyContract strict calls ℓ) t σ σ' →
      (vocabularyContract strict calls ℓ).inv σ' →
      (∀ r ∈ row, ℓ (.option v) (OptionRow.id r) = true) →
      wpv strict calls ℓ t Q (k row) clocked (σ'.view (some t) :: reads) σ') :
    wpv strict calls ℓ t Q (findReserved v name >>= k) clocked reads σ := by
  refine wp_findFirst.2 fun σ' hr hσ' ↦ h σ' _ hr hσ' fun r hfind ↦ ?_
  obtain ⟨i, hi⟩ := Db.mem_all.1 (List.mem_of_find?_eq_some hfind)
  have hp := List.find?_some hfind
  simp only [Bool.and_eq_true] at hp
  obtain ⟨hid, hres, _⟩ := hσ'.1.seen_good hi
  rw [hid, ← hres]
  exact hp.2

theorem wp_updateOptionTx {v : Vocabulary} {id : Cuid} {name : JsString} :
    wpv strict calls ℓ t (Committing (vocabularyContract strict calls ℓ) t)
      (updateOptionTx v id name) clocked reads σ := by
  refine wp_findEditableOption fun _ existing _ hid hℓ ↦ ?_
  subst hid
  refine wp_editOption hℓ (fun _ _ ↦ ?_) (fun _ ↦ .inl fun _ _ ↦ ?_) fun σ' r ↦ wp_committed
  · exact ⟨rfl, rfl⟩
  · rfl

theorem refs_setOption (u : SystemUser) (model : OptionModel) {id : Cuid} (h : u.option model = id)
    (f : Cuid) : refs .systemUser (u.setOption model f) =
      (refs .systemUser u).map (redirect (model.vocabulary, id) f) := by
  subst h
  cases model <;> simp [refs, redirect, SystemUser.setOption, SystemUser.option,
    OptionModel.vocabulary]

theorem mem_refs_option (u : SystemUser) (model : OptionModel) (id : Cuid) :
    u.option model = id ↔ (model.vocabulary, id) ∈ refs .systemUser u := by
  cases model <;> simp [refs, SystemUser.option, OptionModel.vocabulary, eq_comm]

theorem refs_setOption_registration (r : LineUserRegistration) (model : OptionModel) {id : Cuid}
    (h : r.option model = id) (f : Cuid) : refs .registration (r.setOption model f) =
      (refs .registration r).map (redirect (model.vocabulary, id) f) := by
  subst h
  cases model <;> simp [refs, redirect, LineUserRegistration.setOption,
    LineUserRegistration.option, OptionModel.vocabulary]

theorem mem_refs_option_registration (r : LineUserRegistration) (model : OptionModel) (id : Cuid) :
    r.option model = id ↔ (model.vocabulary, id) ∈ refs .registration r := by
  cases model <;> simp [refs, LineUserRegistration.option, OptionModel.vocabulary, eq_comm]

theorem wp_softDeleteOptionTx {model : OptionModel} {id : Cuid}
    (ht : calls t = .softDeleteOption model id) (hclean : σ.Clean t) :
    wpv strict calls ℓ t (Committing (vocabularyContract strict calls ℓ) t)
      (softDeleteOptionTx model id) clocked reads σ := by
  have hdel : (calls t).deletes = some (model.vocabulary, id) := by rw [ht]; rfl
  refine wp_findEditableOption fun σ₁ existing h₁ hid hℓ ↦ ?_
  subst hid
  refine wp_findReserved fun σ₂ row h₂ _ hrow ↦ wp_require (fun _ _ ↦ trivial) fun fallback hfb ↦ ?_
  have h₁₂ := h₁.trans h₂
  refine wp_repoint (fun _ h ↦ by cases h) hdel (hrow fallback hfb) hℓ
    (fun r ↦ by rw [decide_eq_true_eq]; exact mem_refs_option r model _)
    (fun r hr ↦ refs_setOption r model (of_decide_eq_true hr) fallback.id)
    (fun v ↦ untouched_of_clean hclean h₁₂ (.option v))
    (untouched_of_clean hclean h₁₂ .systemUser) fun σ₃ σ₄ _ h₃ hc₄ hsys ↦ ?_
  have h₁₃ := h₁₂.trans h₃
  have huntouched : ∀ τ, τ ≠ .systemUser → Untouched τ t σ₄ := fun τ hτ ↦
    (untouched_of_clean hclean h₁₃ τ).congr fun i ↦ by rw [hc₄ τ hτ]
  refine wp_repoint (fun _ h ↦ by cases h) hdel (hrow fallback hfb) hℓ
    (fun r ↦ by rw [decide_eq_true_eq]; exact mem_refs_option_registration r model _)
    (fun r hr ↦ refs_setOption_registration r model (of_decide_eq_true hr) fallback.id)
    (fun v ↦ huntouched (.option v) fun h ↦ by cases h)
    (huntouched .registration fun h ↦ by cases h) fun σ₅ σ₆ _ h₅ hc₆ hreg ↦ ?_
  have hsys₆ : strict → VacatedIn .systemUser t σ₆ (model.vocabulary, existing.id) :=
    fun hs i r hseen ↦ (hsys hs).rely hs hdel h₅ i r (by
      rwa [hc₆ .systemUser fun h ↦ by cases h] at hseen)
  refine wp_tombstone hℓ (fun hs σ' hr τ i r hseen hmem ↦ ?_) fun _ _ ↦ wp_committed
  cases τ with
  | systemUser => exact (hsys₆ hs).rely hs hdel hr i r hseen hmem
  | registration => exact (hreg hs).rely hs hdel hr i r hseen hmem
  | venue => cases model <;> simp [refs, OptionModel.vocabulary] at hmem
  | _ => cases hmem

theorem wp_softDeleteVenueTypeTx {id fallbackId : Cuid} (ht : calls t = .softDeleteVenueType id)
    (hℓ : ℓ (.option .venueType) id = false) (hf : ℓ (.option .venueType) fallbackId = true)
    (hclean : σ.Clean t) :
    wpv strict calls ℓ t (Committing (vocabularyContract strict calls ℓ) t)
      (softDeleteVenueTypeTx id fallbackId) clocked reads σ := by
  have hdel : (calls t).deletes = some (.venueType, id) := by rw [ht]; rfl
  refine wp_repoint (fun _ h ↦ by cases h) hdel hf hℓ (fun r ↦ ?_) (fun r hr ↦ ?_)
    (fun v ↦ hclean (.option v)) (hclean .venue) fun σ₁ σ₂ _ _ _ hvenue ↦
    wp_tombstone hℓ (fun hs σ' hr τ i r hseen hmem ↦ ?_) fun _ _ ↦ wp_committed
  · simp [refs, eq_comm]
  · have hid : Venue.venueTypeId r = id := of_decide_eq_true hr
    simp [refs, redirect, hid]
  · cases τ with
    | venue => exact (hvenue hs).rely hs hdel hr i r hseen hmem
    | systemUser => simp [refs] at hmem
    | registration => simp [refs] at hmem
    | _ => cases hmem

/-! ### The reserved rows -/

/-- A reply with a row of the vocabulary has a reserved one. -/
def RepliesReserved (ℓ : Tab → ℕ → Bool) (v : Vocabulary) (reply : Reply) : Prop :=
  ∀ row, reply = .option row → ℓ (.option v) (OptionRow.id row) = true

/-- Finding or creating a reserved row is safe, and the row is reserved. -/
theorem wp_findOrCreateReserved {v : Vocabulary} {name : JsString} :
    wpv strict calls ℓ t (fun r clocked reads σ ↦
        Committing (vocabularyContract strict calls ℓ) t r clocked reads σ ∧ RepliesReserved ℓ v r)
      (findOrCreateReserved v name) clocked reads σ := by
  refine wp_findReserved fun σ₁ row _ _ hrow ↦ ?_
  cases row with
  | some existing =>
    refine fun _ _ _ ↦ ⟨⟨trivial, trivial⟩, ?_⟩
    rintro _ ⟨⟩
    exact hrow existing rfl
  | none =>
    refine wp_create.2 fun σ₂ _ hσ₂ ↦ ⟨fun r σ₃ hi ha ↦ ?_, fun _ _ ↦ trivial⟩
    obtain ⟨hσ₃, hlabel⟩ := insert_option hσ₂ hi ha rfl rfl
    refine ⟨hσ₃, fun _ _ _ ↦ ⟨⟨trivial, trivial⟩, ?_⟩⟩
    rintro _ ⟨⟩
    rw [(Store.insert_of_plain schema_plain hi).1]
    exact hlabel

/-- A session under the contract of the vocabularies. -/
abbrev SafeV (strict : Prop) (calls : ℕ → Op) (ℓ : Tab → ℕ → Bool) (t : ℕ) :
    List (Failure Row DirectoryError) → List View → Call → Prop :=
  Safe (vocabularyContract strict calls ℓ) schema directory.loses (fun _ _ ↦ True) t

/-- The rule for an attempt of which the session keeps that its row is reserved. -/
theorem safe_reserved {v : Vocabulary} {p : Tx Reply} {k : Except DirectoryError Reply → Call}
    {log : List (Failure Row DirectoryError)}
    (hp : ∀ {clocked reads σ}, wpv strict calls ℓ t (fun r clocked reads σ ↦
        Committing (vocabularyContract strict calls ℓ) t r clocked reads σ ∧ RepliesReserved ℓ v r)
      p clocked reads σ)
    (hok : ∀ r reads, RepliesReserved ℓ v r → SafeV strict calls ℓ t log reads (k (.ok r)))
    (herr : ∀ log e, SafeV strict calls ℓ t log reads (k (.error e))) :
    SafeV strict calls ℓ t log reads (.attempt p k) :=
  ⟨fun _ ↦ True, fun r _ ↦ RepliesReserved ℓ v r, fun _ _ _ ↦ hp, hok,
    fun _ _ ↦ ⟨trivial, herr _ _⟩⟩

/-- Resolving a reserved row hands on a reserved row. -/
theorem safe_resolveOrCreateReserved {v : Vocabulary} {name : JsString} {k : Cuid → Call}
    {log : List (Failure Row DirectoryError)}
    (hk : ∀ id reads, ℓ (.option v) id = true → SafeV strict calls ℓ t log reads (k id)) :
    SafeV strict calls ℓ t log reads (resolveOrCreateReserved v name k) := by
  refine safe_reserved wp_findOrCreateReserved (fun r reads hr ↦ ?_) fun log e ↦ trivial
  cases r with
  | option row => exact hk _ _ (hr row rfl)
  | _ => trivial

theorem safe_softDeleteVenueType {id : Cuid} (ht : calls t = .softDeleteVenueType id) :
    SafeV strict calls ℓ t [] [] (softDeleteVenueType id) := by
  have hfail : ∀ f, (vocabularyContract strict calls ℓ).failing f := fun _ ↦ trivial
  -- what the first query has found stays not reserved
  refine ⟨fun _ ↦ True, fun reply _ ↦ ∀ existing, reply = .option existing →
    OptionRow.id existing = id ∧ ℓ (.option .venueType) id = false, fun σ _ _ ↦ ?_, ?_,
    fun f _ ↦ ⟨hfail f, trivial⟩⟩
  · refine wp_findEditableOption fun σ' existing _ hid hℓ ↦ fun _ _ _ ↦ ⟨⟨trivial, trivial⟩, ?_⟩
    rintro _ ⟨⟩
    exact ⟨hid, hℓ⟩
  rintro reply reads hreply
  cases reply with
  | option existing =>
    obtain ⟨rfl, hℓ⟩ := hreply existing rfl
    have hlast : ∀ {log reads} fallbackId, ℓ (.option .venueType) fallbackId = true →
        SafeV strict calls ℓ t log reads
          (.attempt (softDeleteVenueTypeTx existing.id fallbackId) .done) := fun _ hf ↦
      safe_attempt_of_wp (fun _ ↦ True)
        (fun _ _ hclean ↦ wp_softDeleteVenueTypeTx ht hℓ hf hclean) (fun _ _ ↦ trivial)
        fun f _ ↦ ⟨hfail f, trivial⟩
    refine safe_reserved wp_findOrCreateReserved (fun r reads hr ↦ ?_) fun log e ↦ ?_
    · cases r with
      | option row => exact hlast _ (hr row rfl)
      | _ => trivial
    · split
      · next h => cases h
      · next h => cases h
      · refine safe_reserved (v := .venueType) (wp_findReserved fun σ₁ row _ _ hrow ↦ ?_)
          (fun r reads hr ↦ ?_) fun log e ↦ trivial
        · refine fun _ _ _ ↦ ⟨⟨trivial, trivial⟩, fun winner hw ↦ ?_⟩
          cases row with
          | none => cases hw
          | some r =>
            obtain rfl : r = winner := by simpa using hw
            exact hrow r rfl
        · cases r with
          | option winner => exact hlast _ (hr winner rfl)
          | _ => trivial
      · trivial
  | _ => trivial

/-! ### The bootstrap script -/

/-- The upsert of the script files the account under the rows that were resolved. -/
theorem wp_upsertSuperAdmin {credentials : Credentials} {digest : Digest} {d p : Cuid}
    (ht : (calls t).deletes = none) (hd : ℓ (.option .department) d = true)
    (hp : ℓ (.option .personnelRole) p = true) (hclean : σ.Clean t) :
    wpv strict calls ℓ t (Committing (vocabularyContract strict calls ℓ) t)
      (upsertSuperAdmin credentials digest d p) clocked reads σ := by
  have hj : ∀ q : Vocabulary × Cuid, q = (.department, d) ∨ q = (.personnelRole, p) →
      Judged ℓ reads q := by
    rintro q (rfl | rfl)
    · exact .inr hd
    · exact .inr hp
  change wp _ schema t _ _ ((Prog.bind (Prog.bind _ _) _)) clocked reads σ
  rw [Prog.bind_assoc]
  refine wp_update.2 fun σ₀ h₀ _ σ₁ h₁ hσ₁ ↦ ⟨fun rows σ₂ hm hg ↦ ?_, fun _ _ ↦ trivial⟩
  have hown : ∀ τ, Untouched τ t σ₁ := untouched_of_clean hclean (h₀.trans h₁)
  have hτ : ∀ v, Tab.systemUser ≠ .option v := fun _ h ↦ by cases h
  refine ⟨modify_holder hτ hσ₁ hm hg (fun _ _ _ _ _ ↦ may_of_not_deletes ht hτ)
    fun r r' q hch hq _ ↦ ⟨hown _, hj q ?_⟩, ?_⟩
  · split at hch
    · obtain rfl := Option.some.inj (Option.some.inj hch)
      simpa [refs] using hq
    · cases hch
  · cases rows with
    | cons r l => exact wp_committed
    | nil =>
      refine wp_fileNew hτ (fun v ↦ (hown (.option v)).congr fun i ↦ ?_) (fun c i q hq ↦ hj q ?_)
        fun _ _ _ ↦ wp_committed
      · rw [(Store.cell_modify_of_plain schema_plain hm).1 _ (hτ v).symm]
      · simpa [refs] using hq

theorem safe_createSuperAdmin {credentials : Credentials} {force : Bool}
    (ht : calls t = .createSuperAdmin credentials force) :
    SafeV strict calls ℓ t [] [] (createSuperAdmin credentials force) := by
  have hdel : (calls t).deletes = none := by rw [ht]; rfl
  have hlast : ∀ {salt : ℕ} {p d : Cuid}, ℓ (.option .personnelRole) p = true →
      ℓ (.option .department) d = true → ∀ log reads, SafeV strict calls ℓ t log reads
        (attemptUpsert (upsertSuperAdmin credentials ⟨credentials.password, salt⟩ d p) .done) := by
    intro salt p d hp hd log reads
    refine safe_attempt_of_wp (fun _ ↦ True)
      (fun _ _ hclean ↦ wp_upsertSuperAdmin hdel hd hp hclean) (fun _ _ ↦ trivial) fun f _ ↦
        ⟨trivial, ?_⟩
    split
    · exact safe_attempt_of_wp (fun _ ↦ True)
        (fun _ _ hclean ↦ wp_upsertSuperAdmin hdel hd hp hclean) (fun _ _ ↦ trivial) fun _ _ ↦
          ⟨trivial, trivial⟩
    · trivial
  refine safe_attempt_of_wp (fun _ ↦ True) (fun _ _ _ ↦ wp_query.2 fun _ _ _ ↦ wp_committed)
    (fun r reads ↦ ?_) fun _ _ ↦ ⟨trivial, trivial⟩
  split
  · split
    · trivial
    · refine safe_attempt_of_wp (fun _ ↦ True) (fun _ _ _ ↦ wp_findFirst.2 fun _ _ _ ↦
        wp_refuse (fun _ _ ↦ trivial) fun _ ↦ wp_committed) (fun r reads ↦ ?_)
        fun _ _ ↦ ⟨trivial, trivial⟩
      exact fun salt ↦ safe_resolveOrCreateReserved fun p _ hp ↦
        safe_resolveOrCreateReserved fun d _ hd ↦
        safe_resolveOrCreateReserved fun _ _ _ ↦
        safe_resolveOrCreateReserved fun _ _ _ ↦ hlast hp hd _ _
  · trivial

/-! ### The calls that do neither -/

/-- The calls that file a holder, or edit a vocabulary. -/
def Op.filesOrEdits : Op → Bool
  | .register .. => true
  | .updateRegistration .. => true
  | .updateRegistrationByAdmin .. => true
  | .createSystemUser .. => true
  | .updateSystemUser .. => true
  | .createSuperAdmin .. => true
  | .updateOption .. => true
  | .softDeleteOption .. => true
  | .softDeleteVenueType _ => true
  | .createVenue _ => true
  | .updateVenue .. => true
  | _ => false

/-- The others leave the references of a holder, and the vocabularies. -/
theorem refs_of_effect {op : Op} (hop : op.filesOrEdits = false) {τ : Tab} {r : Row τ}
    {x : Option (Row τ)} (h : op.effect τ r x) :
    (∀ v, τ ≠ .option v) ∧ ∀ r', x = some r' → refs τ r' = refs τ r := by
  have hrefs : ∀ {τ : Tab} {r r' : Row τ} {x : Option (Row τ)}, x = some r' →
      refs τ r' = refs τ r → ∀ q, x = some q → refs τ q = refs τ r := by
    rintro τ r r' x rfl h q hq
    obtain rfl := Option.some.inj hq
    exact h
  cases τ with
  | option v =>
    cases op with
    | updateOption v' id name => cases hop
    | softDeleteOption model id => cases hop
    | softDeleteVenueType id => cases hop
    | _ => exact h.elim
  | lineUser => exact ⟨(fun _ h ↦ by cases h), fun _ _ ↦ rfl⟩
  | settings => exact ⟨(fun _ h ↦ by cases h), fun _ _ ↦ rfl⟩
  | statusCache => exact ⟨(fun _ h ↦ by cases h), fun _ _ ↦ rfl⟩
  | registration =>
    cases op with
    | updateRegistration s dto => cases hop
    | updateRegistrationByAdmin id dto actor => cases hop
    | softDeleteOption model id => cases hop
    | _ => exact h.elim
  | systemUser =>
    refine ⟨(fun _ h ↦ by cases h), ?_⟩
    cases op with
    | updateSystemUser actor id patch => cases hop
    | createSuperAdmin credentials force => cases hop
    | softDeleteOption model id => cases hop
    | softDeleteSystemUser actor id =>
      obtain ⟨_, c, hx⟩ := h
      exact hrefs hx rfl
    | restoreSystemUser id => exact hrefs h.2 rfl
    | resetPassword actor id =>
      obtain ⟨_, digest, hx⟩ := h
      exact hrefs hx rfl
    | changeOwnPassword id c n =>
      obtain ⟨salt, hx⟩ := h
      exact hrefs hx rfl
    | _ => exact h.elim
  | venue =>
    refine ⟨(fun _ h ↦ by cases h), ?_⟩
    cases op with
    | updateVenue id dto => cases hop
    | softDeleteVenueType id => cases hop
    | softDeleteVenue id =>
      obtain ⟨_, c, hx⟩ := h
      exact hrefs hx rfl
    | _ => exact h.elim

/-- What they insert refers to nothing, or is an undeleted row of a vocabulary. -/
theorem inserts_of_filesOrEdits {op : Op} (hop : op.filesOrEdits = false) {τ : Tab} {i : ℕ}
    {r : Row τ} (h : op.inserts τ i r) :
    (∃ v name, τ = .option v ∧ HEq r (newOption name false i)) ∨
      (∀ v, τ ≠ .option v) ∧ refs τ r = [] := by
  cases τ with
  | option v =>
    cases op with
    | createOption v' name => exact .inl ⟨v, name, rfl, heq_of_eq h.2⟩
    | createSuperAdmin credentials force => cases hop
    | softDeleteVenueType id => cases hop
    | _ => exact h.elim
  | registration =>
    cases op with
    | register s dto => cases hop
    | _ => exact h.elim
  | systemUser =>
    cases op with
    | createSystemUser actor dto => cases hop
    | createSuperAdmin credentials force => cases hop
    | _ => exact h.elim
  | venue =>
    cases op with
    | createVenue dto => cases hop
    | _ => exact h.elim
  | _ => exact .inr ⟨(fun _ h ↦ by cases h), rfl⟩

theorem deletes_of_filesOrEdits {op : Op} (hop : op.filesOrEdits = false) : op.deletes = none := by
  cases op with
  | softDeleteOption model id => cases hop
  | softDeleteVenueType id => cases hop
  | _ => rfl

theorem vocabulary_tolerates (hop : (calls t).filesOrEdits = false) :
    (vocabularyContract strict calls ℓ).Tolerates schema t (calls t).effect (calls t).inserts where
  modify {τ _ _ _ _ _ _} hch hσ hm hg := by
    by_cases hτ : ∀ v, τ ≠ .option v
    · refine modify_holder hτ hσ hm hg
        (fun _ _ _ _ _ ↦ may_of_not_deletes (deletes_of_filesOrEdits hop) hτ)
        fun r r' p hx hp hnew ↦ ?_
      rw [(refs_of_effect hop (hch r _ hx)).2 r' rfl] at hp
      exact absurd hp hnew
    · obtain ⟨v, rfl⟩ := not_forall_not.1 hτ
      exact modify_option hσ hm hg (fun i r x _ hx ↦ absurd rfl ((refs_of_effect hop
        (hch r x hx)).1 v)) fun _ i r o _ hx ↦ absurd rfl ((refs_of_effect hop (hch r _ hx)).1 v)
  insert hn hσ hi ha := by
    rcases inserts_of_filesOrEdits hop hn with ⟨v, name, rfl, hr⟩ | ⟨hτ, hrefs⟩
    · obtain rfl := eq_of_heq hr
      exact (insert_option hσ hi ha rfl rfl).1
    · exact insert_holder hτ hσ hi ha fun p hp ↦ by
        rw [hrefs] at hp
        cases hp
  ready _ := trivial
  answers _ := trivial
  failing _ := trivial

/-- What follows a transaction touches only the cache of the statuses. -/
theorem safe_cacheOnly {k : Call} (hk : k.Writes fun τ ↦ τ = .statusCache)
    {log : List (Failure Row DirectoryError)} : SafeV strict calls ℓ t log reads k := by
  refine safe_of_obeys (R := fun τ _ _ ↦ τ = .statusCache) (N := fun τ _ _ ↦ τ = .statusCache)
    ⟨fun {τ _ _ _ _ _ _} hch hσ hm hg ↦ ?_, fun hn hσ hi ha ↦ ?_, fun _ ↦ trivial,
      fun _ ↦ trivial, fun _ ↦ trivial⟩ hk
  · by_cases hτ : ∀ v, τ ≠ .option v
    · refine modify_holder hτ hσ hm hg (fun i r x _ hx ↦ ?_) fun r r' p hx hp ↦ ?_
      · obtain rfl := hch r x hx
        exact fun _ _ _ _ h ↦ absurd rfl h
      · obtain rfl := hch r _ hx
        cases hp
    · obtain ⟨v, rfl⟩ := not_forall_not.1 hτ
      exact modify_option hσ hm hg (fun _ r x _ hx ↦ by cases hch r x hx)
        fun _ _ r o _ hx ↦ by cases hch r _ hx
  · subst hn
    exact insert_holder (fun _ h ↦ by cases h) hσ hi ha fun _ h ↦ by cases h

end Programs

/-! ### Whole runs -/

/-- Every world of such a run is healthy. -/
theorem vocabulary_healthy {strict : Prop} {calls : ℕ → Op} {ℓ : Tab → ℕ → Bool}
    {allow : DirectoryWorld → DirectoryEvent → Prop}
    (hcalls : ∀ w e, allow w e → e.CalledAs calls)
    (hstrict : strict → ∀ w e, allow w e → VocabularyStep calls w e) {w : DirectoryWorld}
    (hw : directory.Reach (fun w e ↦ allow w e ∧ Accepted (Labelled schema reserved ℓ) w e) w) :
    Healthy directory (vocabularyContract strict calls ℓ) (fun _ _ ↦ True) w := by
  have hinit : (vocabularyContract strict calls ℓ).inv (Store.init Row) :=
    ⟨Law.Lawful.init _, fun _ ↦ .init⟩
  -- Without `strict` the contract demands nothing of a step.
  have hgrant : ∀ w e, allow w e → Granted (vocabularyContract strict calls ℓ).grant w e := by
    intro w e ha
    by_cases hs : strict
    · have hg : (vocabularyContract strict calls ℓ).grant = FreshReference := by
        simp [vocabularyContract, hs]
      rw [hg]
      exact (hstrict hs w e ha).2.1
    · have hg : (vocabularyContract strict calls ℓ).grant = fun _ _ _ _ _ ↦ True := by
        simp [vocabularyContract, hs]
      rw [hg]
      exact granted_true w e
  have haccept : ∀ w e, allow w e → Accepted (fun t reads σ τ r ↦
      strict → FreshHolder t reads σ τ r) w e := by
    intro w e ha
    by_cases hs : strict
    · simpa [hs] using (hstrict hs w e ha).2.2.1
    · simpa [hs] using accepted_true w e
  refine adequate hinit (fun w t op ha ↦ ?_) (fun w e ha ↦ hgrant w e ha.1)
    (fun w e ha ↦ (haccept w e ha.1).and ha.2)
    (fun w e w' ha hst u hu hin hs ↦ (hstrict hs w e ha.1).2.2.2 w' hst u hu hin) hw
  obtain rfl : op = calls t := hcalls w _ ha.1
  -- A call that neither files nor edits obeys by the rows it writes alone.
  by_cases hop : (calls t).filesOrEdits = false
  · exact safe_of_obeys (vocabulary_tolerates hop) (service_does _)
  change SafeV strict calls ℓ t [] [] (service (calls t))
  -- a call of one transaction, which goes on to touch only the cache
  have hone : ∀ {p : Tx Reply} {k : Except DirectoryError Reply → Call},
      (∀ {clocked σ}, (vocabularyContract strict calls ℓ).inv σ → σ.Clean t →
        wpv strict calls ℓ t (Committing (vocabularyContract strict calls ℓ) t) p clocked [] σ) →
      (∀ r, (k r).Writes fun τ ↦ τ = .statusCache) →
      SafeV strict calls ℓ t [] [] (.attempt p k) := fun hp hk ↦
    safe_attempt_of_wp (fun _ ↦ True) (fun _ hσ hclean ↦ hp hσ hclean)
      (fun r _ ↦ safe_cacheOnly (hk _)) fun f _ ↦ ⟨trivial, safe_cacheOnly (hk _)⟩
  -- Each of the others is a transaction with a condition of its own.
  cases ht : calls t with
  | register s dto =>
    refine hone (fun _ hclean ↦ wp_registerTx_vocabulary ht hclean) fun r ↦ ?_
    split
    · exact writes_notifyAccessChange (writes_dropThen _ _) _ _
    · trivial
    · trivial
  | updateRegistration s dto =>
    refine hone (fun _ hclean ↦ wp_updateRegistrationTx_vocabulary ht hclean) fun r ↦ ?_
    split
    · split
      · exact writes_notifyAccessChange (writes_dropThen _ _) _ _
      · exact writes_dropThen _ _
    · trivial
    · trivial
  | updateRegistrationByAdmin id dto actor =>
    refine hone (fun _ hclean ↦ wp_updateRegistrationByAdminTx ht hclean) fun r ↦ ?_
    split
    · refine ⟨fun _ ↦ trivial, fun r ↦ ?_⟩
      dsimp only
      split
      · exact writes_dropThen _ _
      · trivial
      · trivial
    · trivial
  | createSystemUser actor dto =>
    refine fun _ _ ↦ hone (fun hσ hclean ↦ wp_createSystemUserTx hσ hclean) fun r ↦ ?_
    cases r <;> trivial
  | updateSystemUser actor id patch =>
    refine hone (fun _ hclean ↦ wp_updateSystemUserTx_vocabulary ht hclean) fun r ↦ ?_
    cases r <;> trivial
  | createSuperAdmin credentials force => exact safe_createSuperAdmin ht
  | updateOption v id name =>
    refine hone (fun _ _ ↦ wp_updateOptionTx) fun r ↦ ?_
    cases r <;> trivial
  | softDeleteOption model id =>
    exact hone (fun _ hclean ↦ wp_softDeleteOptionTx ht hclean) fun _ ↦ trivial
  | softDeleteVenueType id => exact safe_softDeleteVenueType ht
  | createVenue dto =>
    refine hone (fun _ hclean ↦ wp_createVenueTx hclean) fun r ↦ ?_
    cases r <;> trivial
  | updateVenue id dto =>
    refine hone (fun _ hclean ↦ wp_updateVenueTx ht hclean) fun r ↦ ?_
    cases r <;> trivial
  | _ => exact absurd (by rw [ht]; rfl) hop

/-- The reserved row that takes over the holders of a deleted one. -/
def IsFallback (v : Vocabulary) (r : OptionRow) : Prop :=
  r.name = tombstoneName v ∧ r.isSystemReserved = true ∧ r.deletedAt = none

section Runs

variable {calls : ℕ → Op} {w w' : DirectoryWorld} {e : DirectoryEvent}

/-- In a run without the races, every committed holder refers to rows that are not deleted. -/
theorem live_of_reach (hw : directory.Reach (VocabularyStep calls) w) {τ : Tab} {i : ℕ} {r : Row τ}
    (hr : w.store.committed.row τ i = some r) {p : Vocabulary × Cuid} (hp : p ∈ refs τ r) :
    ∃ o, w.store.committed.row (.option p.1) p.2 = some o ∧ o.id = p.2 ∧ o.deletedAt = none := by
  obtain ⟨ℓ, hℓ⟩ := hw.labelled reserved
  have hinv := (@vocabulary_healthy True _ _ _ (fun _ _ h ↦ h.1) (fun _ _ _ h ↦ h) _ hℓ).inv
  obtain ⟨o, ho, hlive⟩ := (hinv.2 trivial).live τ i r (.inl (by simpa using hr)) p hp
  exact ⟨o, by simpa using ho, (hinv.1.good _ _ o ho).1, hlive⟩

/-- There is at most one committed fallback row of a vocabulary. -/
theorem fallback_unique (hw : directory.ReachAs calls w) {v : Vocabulary} {i j : ℕ}
    {r q : OptionRow} (hr : w.store.committed.row (.option v) i = some r)
    (hq : w.store.committed.row (.option v) j = some q) (hfr : IsFallback v r)
    (hfq : IsFallback v q) : i = j := by
  by_contra hij
  have hcom : (w.store.cell (.option v) i).committed = some r := by simpa using hr
  have hcom' : (w.store.cell (.option v) j).committed = some q := by simpa using hq
  have hclash : clash (.option v) r q = true := by
    simp [clash, hfr.1, hfq.1, hfr.2.2, hfq.2.2]
  have hno : (if clash (.option v) r q then some DirectoryError.uniqueViolation else none) = none :=
    hw.compatible.committed hij hcom hcom'
  rw [if_pos hclash] at hno
  cases hno

/-- A step leaves the committed reserved rows as they are. -/
theorem reserved_of_step (hw : directory.ReachAs calls w) (hs : directory.step e w = some w')
    {v : Vocabulary} {i : ℕ} {r : OptionRow} (hr : w.store.committed.row (.option v) i = some r)
    (hres : r.isSystemReserved = true) : w'.store.committed.row (.option v) i = some r := by
  obtain ⟨ℓ, hℓ⟩ := hw.labelled reserved
  have hhealthy := @vocabulary_healthy False _ _ _ (fun _ _ h ↦ h) (fun h ↦ h.elim) _ hℓ
  have hlaw : (vocabularyLaw calls ℓ).Lawful w.store := hhealthy.inv.1
  rcases System.committed_step hhealthy hs with ⟨_, hsame⟩ | ⟨t, _, _, _, _, _, hst⟩
  · exact (hsame (.option v) i).trans hr
  · rw [hst]
    rcases hlaw.commit_cases t (.option v) i with ⟨hsame, _⟩ | ⟨_, r', hr', _, _, hkeep⟩
    · exact hsame.trans hr
    · have hlabel : ℓ (.option v) i = true := by
        rw [← (hlaw.good (.option v) i r (by simpa using hr)).2.1]
        exact hres
      exact hr'.trans (congrArg some ((hkeep hlabel).2 r hr))

/-- A step of a deletion re-points the committed holders of the row it deletes and no others. -/
theorem redirected_of_step (hw : directory.ReachAs calls w) {t : ℕ}
    (hs : directory.step (.run t) w = some w') {p : Vocabulary × Cuid}
    (hdel : (calls t).deletes = some p) {τ : Tab} {i : ℕ} {r : Row τ}
    (hr : w.store.committed.row τ i = some r) (hne : refs τ r ≠ []) :
    ∃ r' f, w'.store.committed.row τ i = some r' ∧
      refs τ r' = (refs τ r).map (redirect p f) := by
  obtain ⟨ℓ, hℓ⟩ := hw.labelled reserved
  have hhealthy := @vocabulary_healthy False _ _ _ (fun _ _ h ↦ h) (fun h ↦ h.elim) _ hℓ
  have hlaw : (vocabularyLaw calls ℓ).Lawful w.store := hhealthy.inv.1
  have hsame : (refs τ r).map (redirect p p.2) = refs τ r :=
    List.map_congr_left (fun q _ ↦ redirect_self p q) |>.trans (List.map_id _)
  rcases System.committed_step hhealthy hs with ⟨_, hrow⟩ | ⟨u, _, _, hu, _, _, hst⟩
  · exact ⟨r, p.2, (hrow τ i).trans hr, hsame.symm⟩
  · obtain rfl : t = u := by simpa using hu
    rw [hst]
    rcases hlaw.commit_cases t τ i with ⟨hrow, _⟩ | ⟨_, hmay⟩
    · exact ⟨r, p.2, hrow.trans hr, hsame.symm⟩
    · cases τ with
      | option v => exact absurd rfl hne
      | _ => exact hmay p hdel r hr hne

end Runs

/-- **No holder is left with a retired row.** In a run in which no row is retired between the check
of an assignment and its use, and nobody files anything under a row while it is being deleted, every
committed registration, staff account and venue, deleted or not, refers to rows that are not
deleted. In every run there is at most one fallback row of a vocabulary, reserved rows stay as they
are, and a deletion re-points the holders of the row it deletes and no others. -/
theorem vocabularies_sound {calls : ℕ → Op} {w : DirectoryWorld} (hw : directory.ReachAs calls w) :
    (directory.Reach (VocabularyStep calls) w → ∀ τ i r, w.store.committed.row τ i = some r →
        ∀ p ∈ refs τ r, ∃ o, w.store.committed.row (.option p.1) p.2 = some o ∧ o.id = p.2 ∧
          o.deletedAt = none) ∧
      (∀ v i j r q, w.store.committed.row (.option v) i = some r →
        w.store.committed.row (.option v) j = some q → IsFallback v r → IsFallback v q → i = j) ∧
      ∀ e w', directory.step e w = some w' →
        (∀ v i r, w.store.committed.row (.option v) i = some r →
          OptionRow.isSystemReserved r = true →
          w'.store.committed.row (.option v) i = some r) ∧
        ∀ t p, e = .run t → (calls t).deletes = some p → ∀ τ i r,
          w.store.committed.row τ i = some r → refs τ r ≠ [] →
          ∃ r' f, w'.store.committed.row τ i = some r' ∧
            refs τ r' = (refs τ r).map (redirect p f) := by
  refine ⟨fun hstrict τ i r hr p hp ↦ live_of_reach hstrict hr hp,
    fun v i j r q hr hq hfr hfq ↦ fallback_unique hw hr hq hfr hfq, fun e w' hs ↦
    ⟨fun v i r hr hres ↦ reserved_of_step hw hs hr hres, ?_⟩⟩
  rintro t p rfl hdel τ i r hr hne
  exact redirected_of_step hw hs hdel hr hne

/-! ### Runs of few sessions -/

/-- The condition, looked up only for the sessions below `n`. -/
def VocabularyStepBelow (n : ℕ) (calls : ℕ → Op) (w : DirectoryWorld) (e : DirectoryEvent) : Prop :=
  e.CalledAs calls ∧ Granted FreshReference w e ∧ Accepted FreshHolder w e ∧
    ∀ w' ∈ directory.step e w, ∀ t ∈ List.range n, some t ≠ e.session → (w.phase t).isInside →
      Undisturbed (calls t) w.store w'.store

instance (n : ℕ) (calls : ℕ → Op) (w : DirectoryWorld) (e : DirectoryEvent) :
    Decidable (VocabularyStepBelow n calls w e) :=
  inferInstanceAs (Decidable (_ ∧ _ ∧ _ ∧ ∀ w' ∈ directory.step e w, ∀ t ∈ List.range n,
    some t ≠ e.session → (w.phase t).isInside → Undisturbed (calls t) w.store w'.store))

/-- It is enough where the other sessions delete nothing. -/
theorem VocabularyStepBelow.step {n : ℕ} {calls : ℕ → Op}
    (hn : ∀ t, n ≤ t → (calls t).deletes = none) {w : DirectoryWorld} {e : DirectoryEvent}
    (h : VocabularyStepBelow n calls w e) : VocabularyStep calls w e := by
  refine ⟨h.1, h.2.1, h.2.2.1, fun w' hs t ht hin ↦ ?_⟩
  rcases Nat.lt_or_ge t n with hlt | hge
  · exact h.2.2.2 w' hs t (List.mem_range.2 hlt) ht hin
  · intro p hp
    rw [hn t hge] at hp
    cases hp

namespace Sample

/-- A venue of type 0, under key 1. -/
def filedVenue : List DirectoryEvent :=
  .call 0 (.createOption .venueType []) :: steps 0 3 ++
    .call 1 (.createVenue ⟨[], 0, 1, none, none, []⟩) :: steps 1 4

/-- The type is deleted; up to the commit. -/
def retiredPromptly : List DirectoryEvent :=
  filedVenue ++ .call 2 (.softDeleteVenueType 0) :: steps 2 12

/-- And committed. -/
def retired : List DirectoryEvent := retiredPromptly ++ steps 2 1

/-- The type is deleted while another venue of the type, already checked, is to be created. -/
def retiredRun : List DirectoryEvent :=
  filedVenue ++ .call 3 (.createVenue ⟨[1], 0, 1, none, none, []⟩) :: steps 3 2 ++
    .call 2 (.softDeleteVenueType 0) :: steps 2 13 ++ steps 3 2

end Sample

/-- A deletion re-points the venue of the deleted type to the fallback row, which is not deleted. -/
theorem vocabularies_sound_retiredPromptly :
    (∃ w' r f, directory.step (.run 2) (afterUnder (VocabularyStepBelow 3
        (calledIn Sample.retiredPromptly)) Sample.retiredPromptly) = some w' ∧
      w'.store.committed.row .venue 1 = some r ∧
      refs .venue r = [(Vocabulary.venueType, 0)].map (redirect (.venueType, 0) f)) ∧
    ∃ r o, (afterUnder (VocabularyStepBelow 3 (calledIn Sample.retired))
        Sample.retired).store.committed.row .venue 1 = some r ∧
      refs .venue r = [(.venueType, 2)] ∧
      (afterUnder (VocabularyStepBelow 3 (calledIn Sample.retired))
        Sample.retired).store.committed.row (.option .venueType) 2 = some o ∧
      OptionRow.deletedAt o = none := by
  have hstep : (directory.step (.run 2) (afterUnder (VocabularyStepBelow 3
      (calledIn Sample.retiredPromptly)) Sample.retiredPromptly)).isSome := by decide +kernel
  have hrow : ((afterUnder (VocabularyStepBelow 3 (calledIn Sample.retiredPromptly))
      Sample.retiredPromptly).store.committed.row .venue 1).map (refs .venue) =
        some [(.venueType, 0)] := by decide +kernel
  have hrow' : ((afterUnder (VocabularyStepBelow 3 (calledIn Sample.retired))
      Sample.retired).store.committed.row .venue 1).map (refs .venue) =
        some [(.venueType, 2)] := by decide +kernel
  have hother : ∀ t, 3 ≤ t → (calledIn Sample.retired t).deletes = none := fun t ht ↦ by
    have hmem : ∀ u ∈ Sample.retired.filterMap Event.caller, u < 3 := by decide
    rw [calledIn, callsIn_of_not_mem fun h ↦ absurd (hmem t h) (Nat.not_lt.2 ht)]
    rfl
  have hreach := reach_afterUnder (VocabularyStepBelow 3 (calledIn Sample.retiredPromptly))
    Sample.retiredPromptly
  have hreach' := reach_afterUnder (VocabularyStepBelow 3 (calledIn Sample.retired)) Sample.retired
  obtain ⟨w', hs⟩ := Option.isSome_iff_exists.1 hstep
  obtain ⟨r, hr, hrefs⟩ := Option.map_eq_some_iff.1 hrow
  obtain ⟨q, hq, hqrefs⟩ := Option.map_eq_some_iff.1 hrow'
  obtain ⟨r', f, hr', hrefs'⟩ := ((vocabularies_sound (hreach.mono fun _ _ h ↦ h.1)).2.2 _ w' hs).2
    2 (.venueType, 0) rfl rfl .venue 1 r hr (by rw [hrefs]; simp)
  obtain ⟨o, ho, _, hdel⟩ := (vocabularies_sound (hreach'.mono fun _ _ h ↦ h.1)).1
    (hreach'.mono fun _ _ h ↦ h.step hother) .venue 1 q hq (.venueType, 2) (by rw [hqrefs]; simp)
  exact ⟨⟨w', r', f, hs, hr', by rw [hrefs', hrefs]⟩, q, o, hq, hqrefs, ho, hdel⟩

/-- A venue is committed under a type that has been deleted since it was checked. -/
theorem vocabularies_retiredRun :
    directory.Reachable (after Sample.retiredRun) ∧
      ((after Sample.retiredRun).store.committed.row .venue 3).map (refs .venue) =
        some [(.venueType, 0)] ∧
      ((after Sample.retiredRun).store.committed.row (.option .venueType) 0).map (fun r ↦
        decide (OptionRow.deletedAt r = none)) = some false :=
  ⟨reachable_after _, by decide +kernel, by decide +kernel⟩

end EasyBook.Directory

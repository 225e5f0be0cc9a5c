import EasyBook.Directory.Effects

/-!
# Rules for the statements of the directory

Proof rules for the statements that several services share, under any contract.
-/

namespace EasyBook.Directory

open ReadCommitted ReadCommitted.Prog

/-- The undeleted account under an id in a view. -/
def activeAccount (d : View) (id : Cuid) : Option SystemUser :=
  (d.all .systemUser).find? fun r ↦ decide (SystemUser.id r = id) && r.deletedAt.isNone

/-- An active account has the id asked for and no mark. -/
theorem activeAccount_eq_some {d : View} {id : Cuid} {r : SystemUser}
    (h : activeAccount d id = some r) : r.id = id ∧ r.deletedAt = none := by
  have hp := List.find?_some h
  simpa only [Bool.and_eq_true, decide_eq_true_eq, Option.isNone_iff_eq_none] using hp

/-- The view shows an undeleted row of a vocabulary. -/
def Shows (d : View) (v : Vocabulary) (id : Cuid) : Prop :=
  ∃ i r, d.row (.option v) i = some r ∧ OptionRow.id r = id ∧ r.deletedAt = none

/-- An option that was found shows that its id can be offered. -/
theorem shows_of_find {d : View} {v : Vocabulary} {id : Cuid} {free : OptionRow → Bool}
    {o : Row (.option v)} (ho : ((d.all (.option v)).find? fun r ↦
      decide (OptionRow.id r = id) && r.deletedAt.isNone && free r) = some o) : Shows d v id := by
  have hmem : o ∈ d.all (.option v) := List.mem_of_find?_eq_some ho
  obtain ⟨i, hi⟩ := Db.mem_all.1 hmem
  have hp := List.find?_some ho
  simp only [Bool.and_eq_true, decide_eq_true_eq, Option.isNone_iff_eq_none] at hp
  exact ⟨i, o, hi, hp.1.1, hp.1.2⟩

section Rules

variable {α : Type} {C : Contract Row DirectoryError Reply} {t : ℕ} {σ : Store Row}
  {F : Failure Row DirectoryError → Prop} {Q : α → Reading Row → List View → Store Row → Prop}
  {clocked : Reading Row} {reads : List View}

/-- A read of the first row of a condition is about some state the others have left. -/
theorem wp_findFirst {τ : Tab} {p : Row τ → Bool} {k : Option (Row τ) → Tx α} :
    wp C schema t F Q (findFirst τ p >>= k) clocked reads σ ↔
      ∀ σ', Rely C t σ σ' → C.inv σ' →
        wp C schema t F Q (k (((σ'.view (some t)).all τ).find? p)) clocked
          (σ'.view (some t) :: reads) σ' := Iff.rfl

/-- A verdict refuses, or lets the rest run. -/
theorem wp_permit {v : Option Refusal} {k : Unit → Tx α} (hF : ∀ f, F f)
    (h : v = none → wp C schema t F Q (k ()) clocked reads σ) :
    wp C schema t F Q (permit v >>= k) clocked reads σ := by
  cases v with
  | none => exact h rfl
  | some reason => exact fun _ _ _ ↦ hF _

/-- The account found is the one that the view of the query shows. -/
theorem wp_findActiveSystemUser {id : Cuid} {k : SystemUser → Tx α} (hF : ∀ f, F f)
    (h : ∀ σ' r, Rely C t σ σ' → C.inv σ' → activeAccount (σ'.view (some t)) id = some r →
      wp C schema t F Q (k r) clocked (σ'.view (some t) :: reads) σ') :
    wp C schema t F Q (findActiveSystemUser id >>= k) clocked reads σ := by
  change wp C schema t F Q ((Prog.bind _ _).bind k) clocked reads σ
  rw [Prog.bind_assoc]
  exact wp_findFirst.2 fun σ' hr hσ' ↦ wp_require (fun _ _ ↦ hF _) fun r hfind ↦ h σ' r hr hσ' hfind

/-- The checks of a user's options are two queries, and each shows its row. -/
theorem wp_assertActiveOptions {departmentId personnelRoleId : Cuid} {k : Unit → Tx α}
    (hF : ∀ f, F f)
    (h : ∀ σ₁ σ₂, Rely C t σ σ₁ → C.inv σ₁ → Rely C t σ₁ σ₂ → C.inv σ₂ →
      Shows (σ₁.view (some t)) .department departmentId →
      Shows (σ₂.view (some t)) .personnelRole personnelRoleId →
      wp C schema t F Q (k ()) clocked (σ₂.view (some t) :: σ₁.view (some t) :: reads) σ₂) :
    wp C schema t F Q (assertActiveOptions departmentId personnelRoleId >>= k) clocked reads σ := by
  change wp C schema t F Q ((Prog.bind _ _).bind k) clocked reads σ
  rw [Prog.bind_assoc]
  refine wp_findFirst.2 fun σ₁ h₁ hσ₁ ↦ ?_
  change wp C schema t F Q ((Prog.bind _ _).bind k) clocked _ σ₁
  rw [Prog.bind_assoc]
  refine wp_findFirst.2 fun σ₂ h₂ hσ₂ ↦ ?_
  change wp C schema t F Q ((Prog.bind _ _).bind k) clocked _ σ₂
  rw [Prog.bind_assoc]
  refine wp_require (fun _ _ ↦ hF _) fun department hd ↦ ?_
  change wp C schema t F Q ((Prog.bind _ _).bind k) clocked _ σ₂
  rw [Prog.bind_assoc]
  exact wp_require (fun _ _ ↦ hF _) fun personnelRole hp ↦
    h σ₁ σ₂ h₁ hσ₁ h₂ hσ₂ (shows_of_find hd) (shows_of_find hp)

/-- So is that of a venue type. -/
theorem wp_assertAssignableVenueType {id : Cuid} {k : Unit → Tx α} (hF : ∀ f, F f)
    (h : ∀ σ', Rely C t σ σ' → C.inv σ' → Shows (σ'.view (some t)) .venueType id →
      wp C schema t F Q (k ()) clocked (σ'.view (some t) :: reads) σ') :
    wp C schema t F Q (assertAssignableVenueType id >>= k) clocked reads σ := by
  change wp C schema t F Q ((Prog.bind _ _).bind k) clocked reads σ
  rw [Prog.bind_assoc]
  refine wp_findFirst.2 fun σ' hr hσ' ↦ ?_
  change wp C schema t F Q ((Prog.bind _ _).bind k) clocked _ σ'
  rw [Prog.bind_assoc]
  exact wp_require (fun _ _ ↦ hF _) fun _ hfind ↦ h σ' hr hσ' (shows_of_find hfind)

/-- Some query of the call has shown the row, undeleted, in a store that was in order. -/
def Checked (C : Contract Row DirectoryError Reply) (t : ℕ) (reads : List View) (v : Vocabulary)
    (id : Cuid) : Prop :=
  ∃ σ : Store Row, C.inv σ ∧ σ.view (some t) ∈ reads ∧ Shows (σ.view (some t)) v id

/-- What was checked stays checked as more is read. -/
theorem Checked.mono {reads' : List View} {v : Vocabulary} {id : Cuid} (h : Checked C t reads v id)
    (hs : reads <:+ reads') : Checked C t reads' v id :=
  h.imp fun _ ⟨hσ, hmem, hshows⟩ ↦ ⟨hσ, hs.subset hmem, hshows⟩

/-- One half of the check of a staff account's options is a query if there is something to check. -/
theorem wp_assertAssignable {v : Vocabulary} {id : Option Cuid} {allowReserved : Bool} {e : Refusal}
    {k : Unit → Tx α} (hF : ∀ f, F f) (hσ : C.inv σ)
    (h : ∀ σ' reads', Rely C t σ σ' → C.inv σ' → reads <:+ reads' →
      (∀ i ∈ id, Checked C t reads' v i) → wp C schema t F Q (k ()) clocked reads' σ') :
    wp C schema t F Q (assertAssignable v id allowReserved e >>= k) clocked reads σ := by
  cases id with
  | none =>
    exact h σ reads (Rely.refl C t σ) hσ (List.suffix_refl reads) fun _ hi ↦ by cases hi
  | some id =>
    change wp C schema t F Q ((Prog.bind _ _).bind k) clocked reads σ
    rw [Prog.bind_assoc]
    refine wp_findFirst.2 fun σ' hr hσ' ↦ ?_
    change wp C schema t F Q ((Prog.bind _ _).bind k) clocked _ σ'
    rw [Prog.bind_assoc]
    refine wp_require (fun _ _ ↦ hF _) fun _ hfind ↦
      h σ' _ hr hσ' (List.suffix_cons _ reads) fun i hi ↦ ?_
    obtain rfl := Option.some.inj hi
    exact ⟨σ', hσ', List.mem_cons_self, shows_of_find hfind⟩

/-- The checks of the options read at most; the first query stays the first. -/
theorem wp_assertOptionsAssignable {departmentId personnelRoleId : Option Cuid}
    {allowReserved : Bool} {k : Unit → Tx α} (hF : ∀ f, F f)
    (h : ∀ σ' reads', Rely C t σ σ' → C.inv σ' → reads <:+ reads' →
      (∀ i ∈ departmentId, Checked C t reads' .department i) →
      (∀ i ∈ personnelRoleId, Checked C t reads' .personnelRole i) →
      wp C schema t F Q (k ()) clocked reads' σ')
    (hσ : C.inv σ) :
    wp C schema t F Q (assertOptionsAssignable departmentId personnelRoleId allowReserved >>= k)
      clocked reads σ := by
  change wp C schema t F Q ((Prog.bind _ _).bind k) clocked reads σ
  rw [Prog.bind_assoc]
  exact wp_assertAssignable hF hσ fun σ₁ reads₁ h₁ hσ₁ hs₁ hd ↦
    wp_assertAssignable hF hσ₁ fun σ₂ reads₂ h₂ hσ₂ hs₂ hp ↦
      h σ₂ reads₂ (h₁.trans h₂) hσ₂ (hs₁.trans hs₂) (fun i hi ↦ (hd i hi).mono hs₂) hp

end Rules

/-! ### What follows a transaction -/

/-- The drop of a status writes to the cache only. -/
theorem writes_dropThen (s : JsString) (reply : Reply) :
    (dropThen s reply).Writes fun τ ↦ τ = .statusCache :=
  ⟨⟨fun _ _ _ _ _ ↦ rfl, fun _ ↦ trivial⟩, fun _ ↦ trivial⟩

/-- The notice writes nothing. -/
theorem writes_notifyAccessChange {k : Call} {T : Tab → Prop} (hk : k.Writes T) (s : JsString)
    (a : AppAccess) : (notifyAccessChange s a k).Writes T := by
  unfold notifyAccessChange
  split
  · exact hk
  · exact fun _ ↦ hk

end EasyBook.Directory

import EasyBook.Directory.Rules

/-!
# Password resets under concurrency

An administrator's reset locks out whoever knows the old password. `changeOwnPassword` verifies the
current password against a digest it has read, and writes the new digest two slow hashes later, by
id alone and with `mustChangePassword` off; a reset committed in between is undone, as in
`overtakenRun`. If the digest is at the write what the call has read, every change replaces the
digest it was verified against, and a reset stands until somebody uses its temporary password or it
is reset again.
-/

namespace EasyBook.Directory

open ReadCommitted

/-! ### The condition -/

/-- The digest of an account in a view. -/
def digestIn (d : View) (id : Cuid) : Option Digest :=
  ((d.all .systemUser).find? fun r ↦ decide (SystemUser.id r = id)).map SystemUser.passwordHash

/-- The account whose password a call changes for its owner. -/
def Op.changes : Op → Option Cuid
  | .changeOwnPassword id _ _ => some id
  | _ => none

/-- A change of password overwrites the digest that its call has read. -/
def FreshDigest (calls : ℕ → Op) (t : ℕ) (reads : List View) (σ : Store Row) :
    ∀ τ, (Row τ → Option (Option (Row τ))) → Prop
  | .systemUser, ch => ∀ i ∈ List.range σ.next, ∀ r ∈ (σ.cell .systemUser i).seen (some t),
      (ch r).isSome → ∀ id ∈ (calls t).changes, ∀ d ∈ reads.head?,
        digestIn d id = some (SystemUser.passwordHash r)
  | _, _ => True

instance (calls : ℕ → Op) (t : ℕ) (reads : List View) (σ : Store Row) (τ : Tab)
    (ch : Row τ → Option (Option (Row τ))) : Decidable (FreshDigest calls t reads σ τ ch) := by
  unfold FreshDigest
  induction τ using Tab.casesOn <;> infer_instance

/-- A step of a run of `calls` in which no change of password overwrites a digest that it was not
verified against. -/
def PasswordStep (calls : ℕ → Op) (w : DirectoryWorld) (e : DirectoryEvent) : Prop :=
  e.CalledAs calls ∧ Granted (FreshDigest calls) w e

instance (calls : ℕ → Op) (w : DirectoryWorld) (e : DirectoryEvent) :
    Decidable (PasswordStep calls w e) :=
  inferInstanceAs (Decidable (_ ∧ _))

/-! ### The law -/

/-- The calls that may replace a digest: a reset, the bootstrap script, and a change by somebody who
gives the password of the digest. -/
def Op.supersedes (op : Op) (digest : Digest) : Prop :=
  match op with
  | .resetPassword .. => True
  | .createSuperAdmin .. => True
  | .changeOwnPassword _ currentPassword _ => digest.password = currentPassword
  | _ => False

instance (op : Op) (digest : Digest) : Decidable (op.supersedes digest) := by
  unfold Op.supersedes
  induction op using Op.casesOn <;> infer_instance

/-- The credentials of an account are as they were. -/
def KeepsCredentials (r r' : SystemUser) : Prop :=
  r'.passwordHash = r.passwordHash ∧ r'.mustChangePassword = r.mustChangePassword

/-- Credentials change only at the hands of those who may replace them. -/
def passwordLaw (calls : ℕ → Op) : Law Row where
  good _ _ _ := True
  may t
    | .systemUser => fun _ old new ↦ ∃ r', new = some r' ∧ ∀ r, old = some r →
        KeepsCredentials r r' ∨ (calls t).supersedes (SystemUser.passwordHash r)
    | _ => fun _ _ _ ↦ True
  keeps _ _ := trivial

/-- What the commit of a call says about the accounts it writes. -/
def PasswordAnswer (calls : ℕ → Op) (t : ℕ) (reply : Reply) (reads : List View) (σ : Store Row) :
    Prop :=
  match calls t with
  | .changeOwnPassword id currentPassword _ => ∀ i, (σ.cell .systemUser i).ownedBy t →
      ∃ r d, (σ.cell .systemUser i).committed = some r ∧ reads.head? = some d ∧
        digestIn d id = some (SystemUser.passwordHash r) ∧
        verify (SystemUser.passwordHash r) currentPassword = true
  | .resetPassword .. => ∀ user password, reply = .temporary user password →
      ∀ i x, (σ.cell .systemUser i).dirty = some (t, x) → ∃ r', x = some r' ∧
        (SystemUser.passwordHash r').password = password ∧ r'.mustChangePassword = true
  | _ => True

/-- The contract of runs in which changes of password are fresh. -/
abbrev passwordContract (calls : ℕ → Op) : Contract Row DirectoryError Reply :=
  (passwordLaw calls).contract (PasswordAnswer calls) (FreshDigest calls) fun _ _ _ _ _ ↦ True

/-- The effect of every other call on an account. -/
theorem keepsCredentials_of_effect {op : Op} (hc : op.changes = none) {r : SystemUser}
    {x : Option SystemUser} (h : op.effect .systemUser r x) :
    ∃ r', x = some r' ∧ (KeepsCredentials r r' ∨ ∀ digest, op.supersedes digest) := by
  cases op with
  | updateSystemUser actor id patch => exact ⟨_, h.2, .inl ⟨rfl, rfl⟩⟩
  | softDeleteSystemUser actor id =>
    obtain ⟨_, c, rfl⟩ := h
    exact ⟨_, rfl, .inl ⟨rfl, rfl⟩⟩
  | restoreSystemUser id => exact ⟨_, h.2, .inl ⟨rfl, rfl⟩⟩
  | resetPassword actor id =>
    obtain ⟨_, digest, rfl⟩ := h
    exact ⟨_, rfl, .inr fun _ ↦ trivial⟩
  | changeOwnPassword id c n => cases hc
  | createSuperAdmin credentials force =>
    obtain ⟨_, salt, d, p, rfl⟩ := h
    exact ⟨_, rfl, .inr fun _ ↦ trivial⟩
  | softDeleteOption model id =>
    obtain ⟨_, f, rfl⟩ := h
    cases model <;> exact ⟨_, rfl, .inl ⟨rfl, rfl⟩⟩
  | _ => exact h.elim

/-- What a call makes of the version it sees, it may make of the committed one. -/
theorem may_of_keeps {calls : ℕ → Op} {t i : ℕ} {σ : Store Row} {r r' : SystemUser}
    (hσ : (passwordLaw calls).Lawful σ) (hseen : (σ.cell .systemUser i).seen (some t) = some r)
    (h : KeepsCredentials r r' ∨ (calls t).supersedes r.passwordHash ∧
        (σ.cell .systemUser i).committed = some r ∨ ∀ digest, (calls t).supersedes digest) :
    (passwordLaw calls).may t .systemUser i (σ.cell .systemUser i).committed (some r') := by
  refine ⟨r', rfl, fun q hq ↦ ?_⟩
  rcases h with h | ⟨hs, hcom⟩ | h
  · rcases hσ.seen_cases hseen with hcom | ⟨r₁, hr₁, hmay⟩
    · obtain rfl := Option.some.inj (hcom.symm.trans hq)
      exact .inl h
    · obtain rfl := Option.some.inj hr₁
      exact (hmay q hq).imp_left fun hk ↦ ⟨h.1.trans hk.1, h.2.trans hk.2⟩
  · obtain rfl := Option.some.inj (hcom.symm.trans hq)
    exact .inr hs
  · exact .inr (h _)

theorem password_tolerates {calls : ℕ → Op} {t : ℕ} (hc : (calls t).changes = none)
    (hans : ∀ {σ r reads}, (passwordLaw calls).Lawful σ → PasswordAnswer calls t r reads σ) :
    (passwordContract calls).Tolerates schema t (calls t).effect (calls t).inserts := by
  refine Law.tolerates schema_plain (fun reads σ τ ch i r x hσ hg hseen hx he ↦ ?_)
    (fun reads σ τ r _ _ hn ↦ ?_) hans
  · cases τ with
    | systemUser =>
      obtain ⟨r', rfl, h⟩ := keepsCredentials_of_effect hc he
      exact may_of_keeps hσ hseen (h.imp_right .inr)
    | _ => trivial
  · cases τ with
    | systemUser => exact ⟨r, rfl, fun q hq ↦ (nomatch hq)⟩
    | _ => trivial

/-! ### The two programs that depend on what they have read -/

section Programs

variable {calls : ℕ → Op} {t : ℕ}

/-- The write of a change of password, verified against the digest of its last query. -/
theorem wp_storePassword {id : Cuid} {currentPassword newPassword : JsString}
    (ht : calls t = .changeOwnPassword id currentPassword newPassword) {d : View}
    {rest : List View} {digest : Digest} (hd : digestIn d id = some digest)
    (hv : verify digest currentPassword = true) {userId : Cuid} {newDigest : Digest}
    {clocked : Reading Row} {σ : Store Row} (hσ : (passwordLaw calls).Lawful σ)
    (hclean : σ.Clean t) :
    wp (passwordContract calls) schema t (fun _ ↦ True) (Committing (passwordContract calls) t)
      (storePassword userId newDigest) clocked (d :: rest) σ := by
  have hfresh : ∀ {σ' : Store Row} {ch : SystemUser → Option (Option SystemUser)} {i r},
      FreshDigest calls t (d :: rest) σ' .systemUser ch → (ch r).isSome →
      (σ'.cell .systemUser i).seen (some t) = some r → SystemUser.passwordHash r = digest := by
    intro σ' ch i r hg hch hseen
    have hi : i < σ'.next := Db.lt_next (d := σ'.view (some t)) hseen
    have := hg i (List.mem_range.2 hi) r hseen hch id (by rw [ht]; rfl) d rfl
    exact (Option.some.inj (hd.symm.trans this)).symm
  refine wp_bind hσ (wp_update_law schema_plain (fun _ ↦ trivial)
    (fun σ' c i r r' hrely hlaw hseen hch hg ↦ ?_)
    fun σ₀ σ₁ rows σ₂ h₀ h₁ hlaw hg hu hσ₂ ↦ ?_)
  · split at hch
    · next hp =>
      obtain rfl := Option.some.inj hch
      refine may_of_keeps hlaw hseen (.inr (.inl ⟨?_, ?_⟩))
      · rw [ht, hfresh hg (by simp [hp]) hseen]
        exact of_decide_eq_true hv
      · rwa [Cell.seen_of_not_ownedBy (hrely.clean hclean _ i)] at hseen
    · cases hch
  · have hclean₁ : σ₁.Clean t := (h₀.trans h₁).clean hclean
    have hans : PasswordAnswer calls t .done (d :: rest) σ₂ := by
      rw [PasswordAnswer, ht]
      intro i ho
      obtain ⟨r, r', hcom, hch, hcom₂, _⟩ := hu.of_clean (hclean₁ .systemUser) ho
      have hr := hfresh hg (i := i) (r := r) (by rw [hch]; rfl)
        ((Cell.seen_of_not_ownedBy (hclean₁ _ i)).trans hcom)
      exact ⟨r, d, hcom₂, rfl, by rw [hd, hr], by rw [hr]; exact hv⟩
    have hstable : ∀ {σ₃}, Rely (passwordContract calls) t σ₂ σ₃ →
        PasswordAnswer calls t .done (d :: rest) σ₃ := by
      intro σ₃ h₃
      rw [PasswordAnswer, ht] at hans ⊢
      intro i ho
      have ho₂ := (h₃.ownedBy_iff .systemUser i).1 ho
      rw [h₃.cell_of_ownedBy ho₂]
      exact hans i ho₂
    cases rows with
    | nil => exact fun _ _ _ ↦ trivial
    | cons r l => exact fun σ₃ h₃ _ σ₄ h₄ _ ↦ ⟨trivial, hstable (h₃.trans h₄)⟩

/-- A change of password is safe. -/
theorem safe_changeOwnPassword {id : Cuid} {currentPassword newPassword : JsString}
    (ht : calls t = .changeOwnPassword id currentPassword newPassword) :
    Safe (passwordContract calls) schema directory.loses (fun _ _ ↦ True) t [] []
      (changeOwnPassword id currentPassword newPassword) := by
  -- the query writes nothing, so it has nothing to answer for
  refine ⟨fun _ ↦ True, fun reply reads ↦ ∃ d rest, reads = d :: rest ∧ reply =
    ((d.all .systemUser).find? fun r ↦ decide (SystemUser.id r = id)).elim .missing .systemUser,
    fun σ _ hclean σ' h₁ hσ' σ'' h₂ _ ↦ ⟨⟨trivial, ?_⟩, _, _, rfl, rfl⟩, ?_, fun f _ ↦
    ⟨trivial, trivial⟩⟩
  · change PasswordAnswer calls t _ _ σ''
    rw [PasswordAnswer, ht]
    exact fun i ho ↦ absurd ho ((h₁.trans h₂).clean hclean _ i)
  rintro reply reads ⟨d, rest, rfl, rfl⟩
  rcases hfind : (d.all .systemUser).find? fun r ↦ decide (SystemUser.id r = id) with - | user
  · exact trivial
  · have hd : digestIn d id = some user.passwordHash := by rw [digestIn, hfind]; rfl
    change Safe _ _ _ _ _ _ _ (if _ then _ else if _ then _ else _)
    split
    · trivial
    · next hv =>
      split
      · trivial
      · exact fun salt ↦ safe_attempt_of_wp (fun _ ↦ True) (fun σ hσ hclean ↦
          wp_storePassword ht hd (Bool.eq_true_of_not_eq_false hv) hσ hclean)
          (fun _ _ ↦ trivial) fun f _ ↦ ⟨trivial, trivial⟩

/-- The transaction of a reset. -/
theorem wp_resetPasswordTx {actor : Actor} {id : Cuid} (ht : calls t = .resetPassword actor id)
    {password : JsString} {salt : ℕ} {clocked : Reading Row} {reads : List View} {σ : Store Row}
    (hclean : σ.Clean t) :
    wp (passwordContract calls) schema t (fun _ ↦ True) (Committing (passwordContract calls) t)
      (resetPasswordTx actor id password ⟨password, salt⟩) clocked reads σ := by
  refine wp_findActiveSystemUser (fun _ ↦ trivial) fun σ₀ target h₀ hσ₀ _ ↦
    wp_permit (fun _ ↦ trivial) fun _ ↦ wp_bind hσ₀ (wp_update_law schema_plain (fun _ ↦ trivial)
    (fun σ' c i r r' _ hlaw hseen hch _ ↦ ?_) fun σ₁ σ₂ rows σ₃ h₁ h₂ _ _ hu _ ↦ ?_)
  · split at hch
    · obtain rfl := Option.some.inj hch
      exact may_of_keeps hlaw hseen (.inr (.inr fun _ ↦ by rw [ht]; trivial))
    · cases hch
  · have hclean₂ : σ₂.Clean t := ((h₀.trans h₁).trans h₂).clean hclean
    have hans : ∀ {σ₄}, Rely (passwordContract calls) t σ₃ σ₄ → ∀ user,
        PasswordAnswer calls t (.temporary user password) reads σ₄ := by
      intro σ₄ h₄ user
      rw [PasswordAnswer, ht]
      intro user' password' hreply i x hx
      obtain ⟨rfl, rfl⟩ : user = user' ∧ password = password' := by simpa using hreply
      have hx₃ := (h₄.dirty_iff .systemUser i x).1 hx
      obtain ⟨r, r', _, hch, _, hdirty⟩ := hu.of_clean (hclean₂ .systemUser) ⟨x, hx₃⟩
      obtain rfl : x = some r' := (Prod.mk.inj (Option.some.inj (hx₃.symm.trans hdirty))).2
      split at hch
      · exact ⟨r', rfl, by rw [← Option.some.inj hch], by rw [← Option.some.inj hch]⟩
      · cases hch
    cases rows with
    | nil => exact fun _ _ _ ↦ trivial
    | cons r l =>
      refine fun σ₄ h₄ _ σ₅ h₅ _ ↦ ⟨trivial, ?_⟩
      have := hans (h₄.trans h₅) r
      change PasswordAnswer _ _ _ _ _
      unfold PasswordAnswer at this ⊢
      rw [ht] at this ⊢
      exact this

/-- A reset is safe. -/
theorem safe_resetPassword {actor : Actor} {id : Cuid} (ht : calls t = .resetPassword actor id) :
    Safe (passwordContract calls) schema directory.loses (fun _ _ ↦ True) t [] []
      (resetPassword actor id) :=
  fun _ _ ↦ safe_attempt_of_wp (fun _ ↦ True) (fun _ _ hclean ↦ wp_resetPasswordTx ht hclean)
    (fun _ _ ↦ trivial) fun _ _ ↦ ⟨trivial, trivial⟩

end Programs

/-- Every world of such a run is healthy. -/
theorem password_healthy {calls : ℕ → Op} {w : DirectoryWorld}
    (hw : directory.Reach (PasswordStep calls) w) :
    Healthy directory (passwordContract calls) (fun _ _ ↦ True) w := by
  refine adequate (Law.Lawful.init _) (fun w t op ha ↦ ?_) (fun _ _ ha ↦ ha.2)
    (fun w e _ ↦ accepted_true w e) (fun _ _ _ _ _ ↦ relyOn_true _ _ _) hw
  obtain rfl : op = calls t := ha.1
  by_cases hchange : ∃ id c n, calls t = .changeOwnPassword id c n
  · obtain ⟨id, c, n, hc⟩ := hchange
    rw [hc]
    exact safe_changeOwnPassword hc
  · by_cases hreset : ∃ actor id, calls t = .resetPassword actor id
    · obtain ⟨actor, id, hc⟩ := hreset
      rw [hc]
      exact safe_resetPassword hc
    · refine safe_of_obeys (password_tolerates ?_ fun {σ r reads} _ ↦ ?_) (service_does _)
      · unfold Op.changes
        split
        · next id c n hc => exact absurd ⟨id, c, n, hc⟩ hchange
        · rfl
      · unfold PasswordAnswer
        split
        · next id c n hc => exact absurd ⟨id, c, n, hc⟩ hchange
        · next actor id hc => exact absurd ⟨actor, id, hc⟩ hreset
        · trivial

/-- The calls whose commits replace the digest of account `i` while its password is `password`. -/
def supersessions (calls : ℕ → Op) (i : ℕ) (digest : Digest) (w : DirectoryWorld) :
    DirectoryEvent → List ℕ
  | .run t =>
    if (w.returning t).isSome ∧ (w.store.cell .systemUser i).ownedBy t ∧
        (calls t).supersedes digest then [t]
    else []
  | _ => []

/-- As long as nobody who may replaces the credentials of an account, they stay. -/
theorem credentials_stand {calls : ℕ → Op} {i : ℕ} {w₀ w : DirectoryWorld} {r₀ : SystemUser}
    (h₀ : directory.Reach (PasswordStep calls) w₀)
    (hr₀ : w₀.store.committed.row .systemUser i = some r₀)
    (h : directory.Trace (PasswordStep calls) (supersessions calls i r₀.passwordHash) w₀ [] w) :
    ∃ r, w.store.committed.row .systemUser i = some r ∧ KeepsCredentials r₀ r := by
  generalize hlog : ([] : List ℕ) = log at h
  induction h with
  | refl => exact ⟨r₀, hr₀, rfl, rfl⟩
  | @step log w w' e h ha hs ih =>
    obtain ⟨hobs, hlog⟩ := List.append_eq_nil_iff.1 hlog.symm
    obtain ⟨r, hr, hkeep⟩ := ih hlog.symm
    have hhealthy := password_healthy (h.reach h₀)
    have hlaw : (passwordLaw calls).Lawful w.store := hhealthy.inv
    rcases System.committed_step hhealthy hs with ⟨_, hsame⟩ | ⟨t, reply, reads, rfl, hret, _, hst⟩
    · exact ⟨r, (hsame .systemUser i).trans hr, hkeep⟩
    · rw [hst]
      rcases hlaw.commit_cases t .systemUser i with ⟨hsame, _⟩ | ⟨ho, r', hr', hmay⟩
      · exact ⟨r, hsame.trans hr, hkeep⟩
      · refine ⟨r', hr', ?_⟩
        rcases hmay r hr with hk | hsup
        · exact ⟨hk.1.trans hkeep.1, hk.2.trans hkeep.2⟩
        · rw [hkeep.1] at hsup
          rw [supersessions, if_pos ⟨by rw [hret]; rfl, ho, hsup⟩] at hobs
          cases hobs

namespace Sample

/-- The reset password is `[7]`. -/
def freshPassword : ∀ q, Ans q
  | .temporaryPassword => [7]
  | q => oracle q

/-- A reset, up to its commit. -/
def reset : List DirectoryEvent :=
  .call 4 (.resetPassword superAdmin 2) :: .answer 4 freshPassword :: .answer 4 freshPassword ::
    steps 4 4

/-- A change of password is over when the reset comes. -/
def changedRun : List DirectoryEvent :=
  account ++ .call 3 (.changeOwnPassword 2 [] [5]) :: steps 3 3 ++ .answer 3 oracle :: steps 3 4 ++
    reset

/-- The reset is committed while a change of password is being hashed. -/
def overtakenRun : List DirectoryEvent :=
  account ++ .call 3 (.changeOwnPassword 2 [] [5]) :: steps 3 3 ++ reset ++ steps 4 1

end Sample

end EasyBook.Directory

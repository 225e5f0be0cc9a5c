import EasyBook.Announcements.Law

/-!
# The state machine of announcements

In any interleaving, what has been sent stays as it was sent, what has been deleted stays, and a
sent announcement is the one that LINE was told, with the number of recipients that LINE accepted.
The columns `title`, `body` and `format` have the values of the last patches that named them.

A patch writes `audience` and `departmentId` whether it names them or not, merged with what its call
has read. So these two follow the patches that name them only as long as every patch still finds
them as its call has read them; and naming the audience `ALL` names the department as well.
-/

namespace EasyBook.Announcements

open ReadCommitted

/-! ### The contract -/

/-- The department that a patch asks for, if it asks for any. -/
def UpdateAnnouncementDto.namedDepartment (dto : UpdateAnnouncementDto) : Option (Option Cuid) :=
  match dto.departmentId with
  | some departmentId => some departmentId
  | none => if dto.audience = some .all then some none else none

/-- What LINE was told is the announcement as it is saved, and the count is what LINE accepted. -/
def Delivered (saved : Announcement) : Option Sending → Prop
  | none => saved.sentCount = 0
  | some sending => saved.sentCount = Line.acceptedRecipients sending.exchanges ∧
      ∃ now, saved.sentAt = some now ∧ ∀ r ∈ Line.requests sending.exchanges,
        r.1.messages = [announcementMessage saved now]

/-- What a reply tells of a row that is replaced with it. -/
def TellsOf (op : Op) (reply : Reply) (reads : List View) (row row' : Announcement) : Prop :=
  match op, reply with
  | .update _ dto _, _ => ∃ d ∈ reads, ∃ cur : Announcement,
      d.row .announcement row.id = some cur ∧ row'.audience = dto.audience.getD cur.audience ∧
        row'.departmentId = dto.namedDepartment.getD cur.departmentId
  | .send _, .sent saved sending => row' = saved ∧ Delivered saved sending
  | .send _, _ => False
  | _, _ => True

/-- What a reply tells of the rows of its transaction. -/
def Told (calls : ℕ → Op) (t : ℕ) (reply : Reply) (reads : List View) (σ : Store Row) : Prop :=
  ∀ i row row', (σ.cell .announcement i).committed = some row →
    (σ.cell .announcement i).dirty = some (t, some row') →
      TellsOf (calls t) reply reads row row'

/-- The contract of the calls. -/
abbrev announcementContract (calls : ℕ → Op) : Contract Row AnnouncementError Reply :=
  (announcementLaw calls).contract (Told calls) (fun _ _ _ _ _ ↦ True) (fun _ _ _ _ _ ↦ True)

section Safe

variable {calls : ℕ → Op} {t : ℕ} {σ : Store Row} {log : List (Failure Row AnnouncementError)}
  {seen : List View} {line : Line.LineService}

/-- The session keeps the contract. -/
abbrev SafeCall (calls : ℕ → Op) (line : Line.LineService) (t : ℕ)
    (log : List (Failure Row AnnouncementError)) (seen : List View) (s : Call) : Prop :=
  Safe (announcementContract calls) schema (announcements line).loses (fun _ _ ↦ True) t log seen s

/-- A transaction that has written nothing tells nothing. -/
theorem told_of_clean (hσ : σ.Clean t) {reply : Reply} {reads : List View} :
    Told calls t reply reads σ :=
  fun i _ row' _ hd ↦ absurd ⟨some row', hd⟩ (hσ .announcement i)

/-- A query, with what its view says of its result. -/
theorem safe_query {f : View → Reply} {k : Except AnnouncementError Reply → Call}
    (hok : ∀ d : View, (∀ i r, d.row .announcement i = some r → Announcement.InOrder i r) →
      SafeCall calls line t log (d :: seen) (k (.ok (f d))))
    (herr : ∀ log e, SafeCall calls line t log seen (k (.error e))) :
    SafeCall calls line t log seen (.attempt (Prog.query f) k) := by
  refine ⟨fun _ ↦ True, fun reply reads ↦ ∃ d : View,
    (∀ i r, d.row .announcement i = some r → Announcement.InOrder i r) ∧ reads = d :: seen ∧
      reply = f d, fun σ _ hclean σ₁ h₁ hσ₁ σ₂ h₂ _ ↦ ?_, ?_, fun f _ ↦ ⟨trivial, herr _ _⟩⟩
  · exact ⟨⟨trivial, told_of_clean (h₂.clean (h₁.clean hclean))⟩, _,
      fun i r hr ↦ inOrder_of_view hσ₁ hr, rfl, rfl⟩
  · rintro _ _ ⟨d, hd, rfl, rfl⟩
    exact hok d hd

/-- What `resolveDepartmentId` has found. -/
structure Resolved (audience : AnnouncementAudience) (sent : Option (Option Cuid))
    (stored departmentId : Option Cuid) : Prop where
  department_iff : audience = .department ↔ departmentId.isSome
  all : audience = .all → ∀ x ∈ sent, x = none
  department : audience = .department → departmentId = sent.getD stored

theorem safe_resolveDepartmentId {audience : AnnouncementAudience} {sent : Option (Option Cuid)}
    {stored : Option Cuid} {includeReserved : Bool} {k : Option Cuid → Call}
    (hk : ∀ departmentId reads, seen ⊆ reads → Resolved audience sent stored departmentId →
      SafeCall calls line t log reads (k departmentId)) :
    SafeCall calls line t log seen
      (resolveDepartmentId audience sent stored includeReserved k) := by
  unfold resolveDepartmentId
  cases audience with
  | all =>
    dsimp only
    split
    · trivial
    · next hsent =>
      refine hk none seen (List.Subset.refl _) ⟨by simp, fun _ x hx ↦ ?_, fun h ↦ (nomatch h)⟩
      cases x with
      | none => rfl
      | some id => exact absurd hx (hsent id)
  | department =>
    dsimp only
    split
    · trivial
    · next id hid =>
      refine safe_query (fun d _ ↦ ?_) fun _ _ ↦ trivial
      dsimp only
      cases hfind : (d.all (.directory .department)).find? fun r : Directory.OptionRow ↦
          decide (r.id = id) && r.deletedAt.isNone && (includeReserved || !r.isSystemReserved) with
      | none => trivial
      | some department =>
        have hdepartment : department.id = id := by
          have hp := List.find?_some hfind
          simp only [Bool.and_eq_true, decide_eq_true_eq] at hp
          exact hp.1.1
        exact hk (some department.id) _ (List.subset_cons_self _ _)
          ⟨by simp, fun h ↦ (nomatch h), fun _ ↦ by rw [hid, hdepartment]⟩

/-- The department that is stored is the one that the patch asks for, or the one that was read. -/
theorem Resolved.eq_named {dto : UpdateAnnouncementDto} {cur : Announcement} {i : ℕ}
    {departmentId : Option Cuid} (hcur : cur.InOrder i)
    (h : Resolved (dto.audience.getD cur.audience) dto.departmentId cur.departmentId departmentId) :
    departmentId = dto.namedDepartment.getD cur.departmentId := by
  unfold UpdateAnnouncementDto.namedDepartment
  cases haudience : dto.audience.getD cur.audience with
  | department =>
    rw [h.department haudience]
    cases hsent : dto.departmentId with
    | some departmentId => rfl
    | none =>
      have hne : dto.audience ≠ some .all := fun he ↦ by
        rw [he] at haudience
        cases haudience
      simp [hne]
  | all =>
    have hnone : departmentId = none := by
      have hiff := h.department_iff
      rw [haudience] at hiff
      simpa using hiff
    subst hnone
    cases hsent : dto.departmentId with
    | some x =>
      obtain rfl := h.all haudience x (by rw [hsent]; rfl)
      rfl
    | none =>
      dsimp only
      split
      · rfl
      · next hne =>
        have hall : cur.audience = .all := by
          cases hd : dto.audience with
          | none => simpa [hd] using haudience
          | some a => simp [hd] at haudience; exact absurd (haudience ▸ hd) hne
        have hiff := hcur.department_iff
        rw [hall] at hiff
        symm
        simpa using hiff

/-! ### Authoring -/

/-- A query that may be refused ends a session safely. -/
theorem safe_get (id : Cuid) : SafeCall calls line t log seen (get id) := by
  refine safe_attempt_of_wp (fun _ ↦ True) (fun σ hσ hclean ↦ ?_) (fun _ _ ↦ trivial)
    fun f _ ↦ ⟨trivial, trivial⟩
  refine fun σ₁ h₁ hσ₁ ↦ wp_require (fun _ _ ↦ trivial) fun row _ σ₂ h₂ hσ₂ ↦ ⟨trivial, ?_⟩
  exact told_of_clean (h₂.clean (h₁.clean hclean))

theorem safe_refusePatch (id : Cuid) : SafeCall calls line t log seen (refusePatch id) := by
  refine safe_query (fun d _ ↦ ?_) fun _ _ ↦ trivial
  dsimp only
  split
  · split <;> trivial
  · trivial
  · trivial

/-- The call that a session is in may make of a row it sees what it may make of the row. -/
theorem wp_updateAnnouncements {β : Type} {F : Failure Row AnnouncementError → Prop}
    {Q : β → Reading Row → List View → Store Row → Prop} {clocked : Reading Row}
    {reads : List View} (hF : ∀ f, F f) {p : Announcement → Bool}
    {set : Announcement → Announcement}
    {k : List Announcement → Tx β}
    (hset : ∀ σ' c i r, Rely (announcementContract calls) t σ σ' →
      (announcementLaw calls).Lawful σ' → (σ'.cell .announcement i).seen (some t) = some r →
      p r = true → Changes (calls t) r { set r with updatedAt := c })
    (hk : ∀ (σ₀ σ₁ : Store Row) rows σ₂, Rely (announcementContract calls) t σ σ₀ →
      Rely (announcementContract calls) t σ₀ σ₁ → (announcementLaw calls).Lawful σ₁ →
      Store.Updated σ₁ t .announcement (σ₀.view (some t))
        (fun r : Announcement ↦ if p r then some { set r with updatedAt := σ₀.clock } else none)
        rows σ₂ → (announcementLaw calls).Lawful σ₂ →
      wp (announcementContract calls) schema t F Q (k rows) clocked reads σ₂) :
    wp (announcementContract calls) schema t F Q (updateAnnouncements p set >>= k) clocked reads
      σ := by
  refine wp_update_law schema_plain hF (fun σ' c i r r' hrely hσ' hseen hch _ ↦ ?_)
    fun σ₀ σ₁ rows σ₂ h₀ h₁ hσ₁ _ hup hσ₂ ↦ hk σ₀ σ₁ rows σ₂ h₀ h₁ hσ₁ hup hσ₂
  split at hch
  · next hp =>
    obtain rfl := Option.some.inj hch
    exact may_of_seen hσ' hseen (hset σ' c i r hrely hσ' hseen hp)
  · cases hch

/-- The write of a patch whose call has read `cur`. -/
theorem wp_writePatch {id : Cuid} {dto : UpdateAnnouncementDto} {actor : AnnouncementActor}
    (ht : calls t = .update id dto actor) {cur : Announcement} {departmentId : Option Cuid}
    {d : View} (hd : d ∈ seen) (hcur : d.row .announcement id = some cur) (hin : cur.InOrder id)
    (hres : Resolved (dto.audience.getD cur.audience) dto.departmentId cur.departmentId
      departmentId) (hclean : σ.Clean t)
    {clocked : Reading Row} :
    wp (announcementContract calls) schema t (fun _ ↦ True)
      (Committing (announcementContract calls) t)
      (writePatch id dto (dto.audience.getD cur.audience) departmentId) clocked seen σ := by
  refine wp_updateAnnouncements (fun _ ↦ trivial) (fun σ' c i r _ _ _ hp ↦ ?_)
    fun σ₀ σ₁ rows σ₂ h₀ h₁ _ hup _ σ₃ h₃ _ ↦ ⟨trivial, fun i row row' hrow hrow' ↦ ?_⟩
  · simp only [Bool.and_eq_true, decide_eq_true_eq, Option.isNone_iff_eq_none] at hp
    rw [ht]
    exact .patched c hp.1.2 hp.2 hres.department_iff
  · have ho : (σ₂.cell .announcement i).ownedBy t := (h₃.ownedBy_iff _ _).1 ⟨_, hrow'⟩
    obtain ⟨r, r', -, hch, hcommitted, hdirty⟩ := hup.of_clean (h₁.clean (h₀.clean hclean) _) ho
    rw [h₃.cell_of_ownedBy ho] at hrow hrow'
    obtain rfl : row = r := Option.some.inj (hrow.symm.trans hcommitted)
    obtain rfl : row' = r' := by
      have := hrow'.symm.trans hdirty
      simpa using this
    dsimp only at hch
    split at hch
    · next hp =>
      simp only [Bool.and_eq_true, decide_eq_true_eq] at hp
      obtain rfl := Option.some.inj hch
      rw [ht]
      exact ⟨d, hd, cur, by rw [hp.1.1]; exact hcur, rfl, hres.eq_named hin⟩
    · cases hch

theorem safe_update {id : Cuid} {dto : UpdateAnnouncementDto} {actor : AnnouncementActor}
    (ht : calls t = .update id dto actor) :
    SafeCall calls line t log seen (update id dto actor) := by
  unfold update
  split
  · trivial
  refine safe_query (fun d hd ↦ ?_) fun _ _ ↦ trivial
  dsimp only
  cases hfind : (d.all .announcement).find? fun r : Announcement ↦
      decide (r.id = id) && r.deletedAt.isNone with
  | none => trivial
  | some current =>
    have hrow : d.row .announcement id = some current := by
      rw [find?_eq_row fun i r hr ↦ (hd i r hr).id_eq] at hfind
      exact (Option.filter_eq_some_iff.1 hfind).1
    dsimp only
    split
    · trivial
    refine safe_resolveDepartmentId fun departmentId reads hreads hres ↦ ?_
    refine safe_attempt_of_wp (fun _ ↦ True) (fun σ hσ hclean ↦
      wp_writePatch ht (hreads List.mem_cons_self) hrow (hd id current hrow) hres hclean)
      (fun r reads ↦ ?_) fun f _ ↦ ⟨trivial, trivial⟩
    split
    · exact safe_refusePatch id
    · exact safe_get id
    · trivial
    · trivial

theorem safe_create {dto : CreateAnnouncementDto} {actor : AnnouncementActor}
    (ht : calls t = .create dto actor) : SafeCall calls line t log seen (create dto actor) := by
  unfold create
  refine safe_resolveDepartmentId fun departmentId reads _ hres ↦ ?_
  refine safe_attempt_of_wp (fun _ ↦ True) (fun σ _ _ ↦ ?_) (fun _ _ ↦ trivial)
    fun f _ ↦ ⟨trivial, trivial⟩
  refine wp_create_law schema_plain (fun _ ↦ trivial) fun σ₁ _ _ _ ↦ ⟨?_, fun _ _ _ _ ↦
    ⟨trivial, fun i row row' _ _ ↦ ?_⟩⟩
  · show Created (calls t) _ _
    exact ⟨dto, actor, departmentId, _, ht, hres.department_iff, rfl⟩
  · rw [ht]
    trivial

/-! ### Deleting, and the rest of the program -/

/-- What the statements of a call may make of the rows they see. -/
def Op.effect (op : Op) : ∀ τ, Row τ → Option (Row τ) → Prop
  | .announcement, r, x => ∃ r', x = some r' ∧ Changes op r r'
  | .directory _, _, _ => True

/-- Only the rows of the directory are inserted without a look at the call. -/
def insertsDirectory : ∀ τ, ℕ → Row τ → Prop
  | .announcement, _, _ => False
  | .directory _, _, _ => True

theorem tolerates (ht : ∀ reply reads row row', TellsOf (calls t) reply reads row row') :
    (announcementContract calls).Tolerates schema t (calls t).effect insertsDirectory := by
  refine Law.tolerates schema_plain (fun reads σ τ ch i r x hσ _ hseen _ he ↦ ?_)
    (fun reads σ τ r _ _ hn ↦ ?_) fun _ i row row' _ _ ↦ ht _ _ _ _
  · cases τ with
    | announcement =>
      obtain ⟨r', rfl, hr'⟩ := he
      exact may_of_seen hσ hseen hr'
    | directory τ => trivial
  · cases τ with
    | announcement => exact hn.elim
    | directory τ => trivial

theorem obeys_lockForUpdate {op : Op} (hop : op.patch = none) (id : Cuid) :
    (lockForUpdate id).Obeys op.effect insertsDirectory := by
  refine Prog.obeys_update fun c r r' hr ↦ ?_
  split at hr
  · obtain rfl := Option.some.inj hr
    exact ⟨_, rfl, .locked _ hop⟩
  · cases hr

theorem obeys_removeTx (id : Cuid) :
    (removeTx id).Obeys (Op.remove id).effect insertsDirectory := by
  refine (obeys_lockForUpdate rfl id).bind fun locked ↦ .require fun _ _ ↦ .readClock fun now ↦
    (Prog.obeys_update fun c r r' hr ↦ ?_).bind fun rows ↦ .refuse fun _ ↦ trivial
  split at hr
  · next hp =>
    obtain rfl := Option.some.inj hr
    simp only [Bool.and_eq_true, decide_eq_true_eq, Option.isNone_iff_eq_none] at hp
    exact ⟨_, rfl, .removed now c hp.2⟩
  · cases hr

theorem safe_remove {id : Cuid} (ht : calls t = .remove id) :
    SafeCall calls line t log seen (remove id) := by
  have hobeys : (remove id).Obeys (calls t).effect insertsDirectory := by
    rw [ht]
    exact ⟨obeys_removeTx id, fun _ ↦ trivial⟩
  refine safe_of_obeys (tolerates fun reply reads row row' ↦ ?_) hobeys
  rw [ht]
  trivial

theorem safe_saveDirectory {τ : DirectoryTab} {row : Row (.directory τ)}
    (ht : calls t = .saveDirectory τ row) :
    SafeCall calls line t log seen (saveDirectory τ row) := by
  have hobeys : (saveDirectory τ row).Obeys (calls t).effect insertsDirectory := by
    refine ⟨(Prog.obeys_update fun _ _ _ _ ↦ trivial).bind fun rows ↦ ?_, fun _ ↦ trivial⟩
    split
    · exact (Prog.obeys_create fun _ _ ↦ trivial).bind fun _ ↦ trivial
    · trivial
  refine safe_of_obeys (tolerates fun reply reads row row' ↦ ?_) hobeys
  rw [ht]
  trivial

/-! ### Sending -/

/-- Transaction `t` holds the announcement as it was committed, and nothing else. -/
structure Holding (t : ℕ) (id : Cuid) (row : Announcement) (σ : Store Row) : Prop where
  committed : (σ.cell .announcement id).committed = some row
  dirty : (σ.cell .announcement id).dirty = some (t, some row)
  only : ∀ i, (σ.cell .announcement i).ownedBy t → i = id

theorem Holding.rely {id : Cuid} {row : Announcement} {σ' : Store Row}
    (h : Holding t id row σ) (hr : Rely (announcementContract calls) t σ σ') :
    Holding t id row σ' := by
  have hcell := hr.cell_of_ownedBy ⟨_, h.dirty⟩
  exact ⟨hcell ▸ h.committed, hcell ▸ h.dirty, fun i ho ↦ h.only i ((hr.ownedBy_iff _ i).1 ho)⟩

/-- Whoever holds a row sees it. -/
theorem Holding.find? {id : Cuid} {row : Announcement} (h : Holding t id row σ)
    (hσ : (announcementLaw calls).Lawful σ) :
    ((σ.view (some t)).all .announcement).find? (fun r : Announcement ↦ decide (r.id = id)) =
      some row := by
  have hrow : (σ.view (some t)).row .announcement id = some row := Cell.seen_of_dirty h.dirty
  have hfind := find?_eq_row (d := σ.view (some t))
    (fun i r hr ↦ (inOrder_of_view hσ hr).id_eq) (fun _ ↦ true) id
  rw [hrow, Option.filter_some_pos rfl] at hfind
  simpa using hfind

variable {F : Failure Row AnnouncementError → Prop} {β : Type}
  {Q : β → Reading Row → List View → Store Row → Prop} {clocked : Reading Row}
  {reads : List View} {id : Cuid}

/-- A lock is taken on a live announcement, or there is none. -/
theorem wp_lockForUpdate (ht : calls t = .send id) (hF : ∀ f, F f) (hclean : σ.Clean t)
    {k : List Announcement → Tx β}
    (hnone : ∀ σ', wp (announcementContract calls) schema t F Q (k []) clocked reads σ')
    (hk : ∀ σ' row rows, (announcementLaw calls).Lawful σ' → Holding t id row σ' →
      row.deletedAt = none →
      wp (announcementContract calls) schema t F Q (k (row :: rows)) clocked reads σ') :
    wp (announcementContract calls) schema t F Q (lockForUpdate id >>= k) clocked reads σ := by
  refine wp_update_law schema_plain hF (fun σ' c i r r' _ hσ' hseen hch _ ↦ ?_)
    fun σ₀ σ₁ rows σ₂ h₀ h₁ hσ₁ _ hup hσ₂ ↦ ?_
  · split at hch
    · obtain rfl := Option.some.inj hch
      exact may_of_seen hσ' hseen (.locked _ (by rw [ht]; rfl))
    · cases hch
  have hclean₁ : ∀ i, ¬ (σ₁.cell .announcement i).ownedBy t := h₁.clean (h₀.clean hclean) _
  -- a row that is owned now is the row under `id`, as it was committed
  have howned : ∀ i, (σ₂.cell .announcement i).ownedBy t → ∃ row : Announcement, i = id ∧
      row.deletedAt = none ∧ (σ₂.cell .announcement i).committed = some row ∧
      (σ₂.cell .announcement i).dirty = some (t, some row) := fun i ho ↦ by
    obtain ⟨row, row', hrow, hch, hcommitted, hdirty⟩ := hup.of_clean hclean₁ ho
    split at hch
    · next hp =>
      obtain rfl := Option.some.inj hch
      have hin : Announcement.InOrder i row := hσ₁.good .announcement i row hrow
      exact ⟨row, hin.id_eq.symm.trans hp.1, hp.2, hcommitted, hdirty⟩
    · cases hch
  cases rows with
  | nil => exact hnone σ₂
  | cons row rows =>
    obtain ⟨i, r, -, -, hcell⟩ := hup.mem row List.mem_cons_self
    obtain ⟨row', rfl, hlive, hcommitted, hdirty⟩ := howned i ⟨some row, by rw [hcell]; rfl⟩
    obtain rfl : row = row' := by
      rw [hcell] at hdirty
      simpa [Cell.write] using hdirty
    exact hk σ₂ row rows hσ₂ ⟨hcommitted, hdirty, fun j ho ↦ (howned j ho).choose_spec.1⟩ hlive

/-- The questions of a task, whatever they are answered. -/
theorem wp_ofTask {ρ : Type} {p : Machine.Task Ask Ans ρ}
    {k : Line.Exchanges LineMessage × ρ → Tx β}
    (hk : ∀ h r, Machine.Task.Path p h (.done r) →
      wp (announcementContract calls) schema t F Q (k (h, r)) clocked reads σ) :
    wp (announcementContract calls) schema t F Q (ofTask p >>= k) clocked reads σ := by
  induction p generalizing k with
  | done r => exact hk [] r (.nil _)
  | ask q p ih =>
    intro a
    change wp _ _ _ _ _ (((ofTask (p a)).bind _).bind k) _ _ _
    rw [Prog.bind_assoc]
    exact ih a fun h r hp ↦ hk _ _ (.cons hp)

/-- The last write of a send. -/
theorem wp_writeSent {row : Announcement} (ht : calls t = .send id) (hdraft : row.status = .draft)
    (hlive : row.deletedAt = none) (hF : ∀ f, F f) {now : ℤ} {n : ℕ}
    {k : Announcement → Tx β} (hhold : Holding t id row σ)
    (hk : ∀ c σ', (announcementLaw calls).Lawful σ' → (∀ i, (σ'.cell .announcement i).ownedBy t →
        (σ'.cell .announcement i).dirty =
          some (t, some { markSent now n row with updatedAt := c })) →
      wp (announcementContract calls) schema t F Q
        (k { markSent now n row with updatedAt := c }) clocked reads σ') :
    wp (announcementContract calls) schema t F Q (writeSent id now n >>= k) clocked reads σ := by
  have hseen : ∀ {σ' i r}, Rely (announcementContract calls) t σ σ' →
      (announcementLaw calls).Lawful σ' → (σ'.cell .announcement i).seen (some t) = some r →
      Announcement.id r = id → i = id ∧ r = row := fun {σ' i r} hrely hσ' hr hid ↦ by
    have hin : r.InOrder i := hσ'.seen_good hr
    obtain rfl : i = id := hin.id_eq.symm.trans hid
    rw [Cell.seen_of_dirty (hhold.rely hrely).dirty] at hr
    exact ⟨rfl, (Option.some.inj hr).symm⟩
  change wp _ _ _ _ _ (((updateAnnouncements _ _).bind _).bind k) _ _ _
  rw [Prog.bind_assoc]
  refine wp_updateAnnouncements hF (fun σ' c i r hrely hσ' hr hp ↦ ?_)
    fun σ₀ σ₁ rows σ₂ h₀ h₁ hσ₁ hup hσ₂ ↦ ?_
  · obtain ⟨-, rfl⟩ := hseen hrely hσ' hr (of_decide_eq_true hp)
    rw [ht]
    exact .sent now n c hdraft hlive
  have hold₁ := (hhold.rely h₀).rely h₁
  have hrow₁ : (σ₁.cell .announcement id).seen (some t) = some row := Cell.seen_of_dirty hold₁.dirty
  have hid : row.id = id := (hσ₁.seen_good hrow₁ : Announcement.InOrder id row).id_eq
  have hrow₀ : (σ₀.view (some t)).row .announcement id = some row :=
    Cell.seen_of_dirty (hhold.rely h₀).dirty
  have hwritten : ∀ i r r', (σ₁.cell .announcement i).seen (some t) = some r →
      (if decide (Announcement.id r = id) then
        some { markSent now n r with updatedAt := σ₀.clock } else none) = some r' →
      r' = { markSent now n row with updatedAt := σ₀.clock } := fun i r r' hr hch ↦ by
    split at hch
    · next hp =>
      obtain ⟨-, rfl⟩ := hseen (h₀.trans h₁) hσ₁ hr (of_decide_eq_true hp)
      exact (Option.some.inj hch).symm
    · cases hch
  have hhead : ∃ rest, rows = { markSent now n row with updatedAt := σ₀.clock } :: rest := by
    rcases hup.cases id with ⟨r, r', hr, hch, -, -, hmem⟩ | ⟨hnone, -⟩
    · cases rows with
      | nil => cases hmem
      | cons r' rest =>
        obtain ⟨i, r, hr, hch, -⟩ := hup.mem r' List.mem_cons_self
        exact ⟨rest, by rw [hwritten i r r' hr hch]⟩
    · have := hnone row row hrow₁ hrow₀ (by simp [hid])
      simp [hid] at this
  obtain ⟨rest, rfl⟩ := hhead
  refine hk σ₀.clock σ₂ hσ₂ fun i ho ↦ ?_
  rcases hup.cases i with ⟨r, r', hr, hch, -, hcell, -⟩ | ⟨hnone, hcell⟩
  · rw [hcell, hwritten i r r' hr hch]
    rfl
  · obtain rfl : i = id := hold₁.only i (hcell ▸ ho)
    have := hnone row row hrow₁ hrow₀ (by simp [hid])
    simp [hid] at this

/-- The requests of a send tell the announcement, and the counter counts what LINE has taken. -/
theorem delivered_of_path {row : Announcement} {start now : ℤ} {recipients : List JsString}
    {h : Line.Exchanges LineMessage} {o : Line.MulticastOutcome}
    (hp : Machine.Task.Path (askLine line row start now recipients) h (.done (.ok o))) (c : ℤ) :
    Delivered { markSent now o.acceptedCount row with updatedAt := c }
      (some ⟨recipients, h, o⟩) := by
  obtain ⟨accepted, failed, hsent⟩ := Line.path_multicast hp
  refine ⟨?_, now, rfl, fun r hr ↦ ?_⟩
  · show o.acceptedCount = _
    rw [hsent.acceptedCount_eq, Nat.zero_add]
  · rw [hsent.requests] at hr
    obtain ⟨tried, -, hr⟩ := List.mem_flatMap.1 hr
    obtain ⟨a, -, rfl⟩ := List.mem_map.1 hr
    rfl

/-- What is saved last is what is told. -/
theorem told_of_sent {saved : Announcement} {sending : Option Sending} {σ' : Store Row}
    (ht : calls t = .send id) (hdelivered : Delivered saved sending)
    (hdirty : ∀ i, (σ.cell .announcement i).ownedBy t →
      (σ.cell .announcement i).dirty = some (t, some saved))
    (hr : Rely (announcementContract calls) t σ σ') :
    Committing (announcementContract calls) t (.sent saved sending) clocked reads σ' := by
  refine ⟨trivial, fun i _ row' _ hrow' ↦ ?_⟩
  have hold : (σ.cell .announcement i).dirty = some (t, some row') := (hr.dirty_iff _ i _).1 hrow'
  have hsaved := (hdirty i ⟨_, hold⟩).symm.trans hold
  rw [ht]
  exact ⟨by simpa using hsaved.symm, hdelivered⟩

theorem wp_deliver {row : Announcement} (ht : calls t = .send id) (hdraft : row.status = .draft)
    (hlive : row.deletedAt = none) (hid : row.id = id) (hσ : (announcementLaw calls).Lawful σ)
    (hhold : Holding t id row σ) {start : ℤ} :
    wp (announcementContract calls) schema t (fun _ ↦ True)
      (Committing (announcementContract calls) t) (deliver line start row) clocked reads σ := by
  subst hid
  have hrest : ∀ (departmentId : Option Cuid) {σ : Store Row} {reads : List View},
      (announcementLaw calls).Lawful σ → Holding t row.id row σ →
      wp (announcementContract calls) schema t (fun _ ↦ True)
        (Committing (announcementContract calls) t) (do
          let recipients ← resolveRecipients departmentId
          if recipients.length = 0 then
            let now ← Prog.readClock
            let written ← writeSent row.id now 0
            pure (.sent written none)
          else
            let now ← Prog.readClock
            let told ← ofTask (askLine line row start now recipients)
            let outcome ← Prog.ofExcept (told.2.mapError .programmerError)
            if outcome.acceptedCount = 0 then
              .throw (lineSendError (outcome.failure.elim .transient Line.MulticastFailure.kind))
            else
              let written ← writeSent row.id now outcome.acceptedCount
              pure (.sent written (some ⟨recipients, told.1, outcome⟩))) clocked reads σ := by
    intro departmentId σ reads hσ hhold
    refine fun σ₀ h₀ _ σ₁ h₁ hσ₁ ↦ ?_
    have hhold₁ := (hhold.rely h₀).rely h₁
    change wp _ _ _ _ _ (ite _ _ _) _ _ _
    split
    · refine fun σ₂ h₂ hσ₂ ↦ wp_writeSent ht hdraft hlive (fun _ ↦ trivial) (hhold₁.rely h₂)
        fun c σ₃ _ hdirty σ₄ h₄ _ ↦ ?_
      exact told_of_sent ht rfl hdirty h₄
    · refine fun σ₂ h₂ hσ₂ ↦ wp_ofTask fun h r hp ↦ ?_
      refine wp_ofExcept (fun _ _ _ _ ↦ trivial) fun o ho ↦ ?_
      obtain rfl : r = .ok o := by
        cases r with
        | error e => cases ho
        | ok o' => exact congrArg _ (Except.ok.inj ho)
      split
      · exact fun _ _ _ ↦ trivial
      · refine wp_writeSent ht hdraft hlive (fun _ ↦ trivial) (hhold₁.rely h₂)
          fun c σ₃ _ hdirty σ₄ h₄ _ ↦ ?_
        exact told_of_sent ht (delivered_of_path hp c) hdirty h₄
  unfold deliver audienceDepartment
  split
  · split
    · exact fun _ _ _ ↦ trivial
    · next departmentId _ =>
      change wp _ _ _ _ _ (((Prog.query _).bind _).bind _) _ _ _
      rw [Prog.bind_assoc]
      refine fun σ₁ h₁ hσ₁ ↦ ?_
      change wp _ _ _ _ _ ((Prog.bind (Prog.require _ _) _).bind _) _ _ _
      rw [Prog.bind_assoc]
      exact wp_require (fun _ _ ↦ trivial) fun department _ ↦
        hrest (some department.id) hσ₁ (hhold.rely h₁)
  · exact hrest none hσ hhold

theorem safe_send (ht : calls t = .send id) : SafeCall calls line t log seen (send line id) := by
  refine safe_attempt_of_wp (fun _ ↦ True) (fun σ hσ hclean ↦ ?_) (fun r reads ↦ ?_)
    fun f _ ↦ ⟨trivial, trivial⟩
  · intro σ₁ h₁ hσ₁
    refine wp_lockForUpdate ht (fun _ ↦ trivial) (h₁.clean hclean) (fun σ₂ ↦ fun _ _ _ ↦ trivial)
      fun σ₂ first rows hσ₂ hhold hlive ↦ ?_
    refine wp_require (fun _ _ ↦ trivial) fun row hrow ↦ ?_
    obtain rfl : first = row := by simpa using hrow
    refine wp_refuse (fun _ _ ↦ trivial) fun hsent ↦ wp_query.2 fun σ₃ h₃ hσ₃ ↦ ?_
    have hhold₃ := hhold.rely h₃
    rw [hhold₃.find? hσ₃]
    have hin : first.InOrder id := hσ₃.good .announcement id first hhold₃.committed
    have hdraft : first.status = .draft := by
      cases hs : first.status with
      | draft => rfl
      | sent => exact absurd hs hsent
    refine wp_require (fun _ _ ↦ trivial) fun row hrow ↦ ?_
    obtain rfl := Option.some.inj hrow
    exact wp_refuse (fun _ _ ↦ trivial) fun _ ↦ wp_deliver ht hdraft hlive hin.id_eq hσ₃ hhold₃
  · split
    · trivial
    · split <;> trivial
    · trivial
    · trivial

/-- Every call keeps the contract. -/
theorem safe_service {op : Op} (ht : calls t = op) :
    SafeCall calls line t log seen (service line op) := by
  cases op with
  | create dto actor => exact safe_create ht
  | update id dto actor => exact safe_update ht
  | remove id => exact safe_remove ht
  | send id => exact safe_send ht
  | saveDirectory τ row => exact safe_saveDirectory ht

end Safe

/-- Every world of a run is healthy. -/
theorem healthy {calls : ℕ → Op} {line : Line.LineService} {w : AnnouncementWorld}
    (hw : (announcements line).ReachAs calls w) :
    Healthy (announcements line) (announcementContract calls) (fun _ _ ↦ True) w := by
  refine adequate (Law.Lawful.init _) (fun w t op ha ↦ ?_) (fun w e _ ↦ granted_true w e)
    (fun w e _ ↦ accepted_true w e) (fun _ _ _ _ _ ↦ relyOn_true _ _ _) hw
  obtain rfl : op = calls t := ha
  exact safe_service rfl

/-! ### What a run commits -/

/-- What a step commits to an announcement. -/
inductive Note where
  /-- A patch. It is stale if its call has seen the announcement with another audience or
  department than it has when the patch is committed. -/
  | patched (dto : UpdateAnnouncementDto) (stale : Bool)
  /-- A send. -/
  | sent (saved : Announcement) (sending : Option Sending)

/-- In a view of `reads`, row `i` has another audience or department than now. -/
def staleIn (reads : List View) (i : ℕ) (row : Option Announcement) : Bool :=
  reads.any fun d ↦ (d.row .announcement i).any fun cur : Announcement ↦ row.any fun r ↦
    decide (cur.audience ≠ r.audience ∨ cur.departmentId ≠ r.departmentId)

/-- What a call that commits a change of row `i` notes down of it. -/
def notesOf (op : Op) (reply : Reply) (reads : List View) (i : ℕ) (row : Option Announcement) :
    List Note :=
  match op, reply with
  | .update _ dto _, _ => [.patched dto (staleIn reads i row)]
  | .send _, .sent saved sending => [.sent saved sending]
  | _, _ => []

/-- What a step commits to row `i` of the announcements. -/
def notes (calls : ℕ → Op) (i : ℕ) (w : AnnouncementWorld) : AnnouncementEvent → List Note
  | .run t =>
    match w.returning t with
    | some (reply, reads) =>
      if (w.store.cell .announcement i).ownedBy t then
        notesOf (calls t) reply reads i (w.store.committed.row .announcement i)
      else []
    | none => []
  | _ => []

/-- The patch of a note. -/
def Note.patch : Note → Option UpdateAnnouncementDto
  | .patched dto _ => some dto
  | .sent _ _ => none

/-- The patch of a note did not find the announcement as its call had seen it. -/
def Note.isStale : Note → Bool
  | .patched _ stale => stale
  | .sent _ _ => false

/-- The value that the last patch to name a column has named. -/
def lastNamed {α : Type} (column : UpdateAnnouncementDto → Option α) (log : List Note) :
    Option α :=
  log.findSome? fun n ↦ n.patch.bind column

/-- The columns of a row are those of the patches noted down since it was `r₀`. -/
structure Reflected (log : List Note) (r₀ r : Announcement) : Prop where
  title : r.title = (lastNamed (·.title) log).getD r₀.title
  body : r.body = (lastNamed (·.body) log).getD r₀.body
  format : r.format = (lastNamed (·.format) log).getD r₀.format
  audience : (∀ n ∈ log, ¬ n.isStale) →
    r.audience = (lastNamed (·.audience) log).getD r₀.audience
  department : (∀ n ∈ log, ¬ n.isStale) →
    r.departmentId = (lastNamed UpdateAnnouncementDto.namedDepartment log).getD r₀.departmentId

/-- What is sent is as it was sent. -/
structure SentAs (saved r : Announcement) : Prop where
  title : r.title = saved.title
  body : r.body = saved.body
  format : r.format = saved.format
  audience : r.audience = saved.audience
  departmentId : r.departmentId = saved.departmentId
  sentAt : r.sentAt = saved.sentAt
  sentCount : r.sentCount = saved.sentCount

section Runs

variable {calls : ℕ → Op} {line : Line.LineService} {w w' : AnnouncementWorld} {i : ℕ}
  {e : AnnouncementEvent}

/-- What is committed of an announcement is not changed by a step, or by its call. -/
theorem step_cases (hw : (announcements line).ReachAs calls w)
    (hs : (announcements line).step e w = some w') :
    (notes calls i w e = [] ∧
        w'.store.committed.row .announcement i = w.store.committed.row .announcement i) ∨
      ∃ t reply reads, e = .run t ∧ w.returning t = some (reply, reads) ∧
        (w.store.cell .announcement i).ownedBy t ∧
        (announcementLaw calls).may t .announcement i (w.store.committed.row .announcement i)
          (w'.store.committed.row .announcement i) ∧
        ∀ row row', w.store.committed.row .announcement i = some row →
          w'.store.committed.row .announcement i = some row' →
          TellsOf (calls t) reply reads row row' := by
  have hhealthy := healthy hw
  have hlaw : (announcementLaw calls).Lawful w.store := hhealthy.inv
  rcases System.committed_step hhealthy hs with ⟨hnone, hsame⟩ | ⟨t, reply, reads, rfl, hr, -, hst⟩
  · refine .inl ⟨?_, hsame _ _⟩
    cases e with
    | run t =>
      cases hr : w.returning t with
      | none => simp only [notes, hr]
      | some x =>
        rw [World.commits, hr] at hnone
        cases hnone
    | _ => rfl
  · rw [hst]
    rcases hlaw.commit_cases t .announcement i with ⟨hsame, hno⟩ | ⟨ho, hmay⟩
    · exact .inl ⟨by simp only [notes, hr, if_neg hno], hsame⟩
    · refine .inr ⟨t, reply, reads, rfl, hr, ho, hmay, fun row row' hrow hrow' ↦ ?_⟩
      obtain ⟨x, hx⟩ := ho
      rw [Store.committed_commit, Store.view_row, Cell.seen_of_dirty hx] at hrow'
      rw [Store.committed, Store.view_row, Cell.seen_none] at hrow
      exact (hhealthy.committing hr).2 i row row' hrow (hrow' ▸ hx)

/-- The sent announcement `r` is one that a send of the log has stored and delivered. -/
def Sent (log : List Note) (r : Announcement) : Prop :=
  ∃ saved sending, Note.sent saved sending ∈ log ∧ SentAs saved r ∧ Delivered saved sending

/-- What has been sent is known of the same send later on. -/
theorem Sent.later {log log' : List Note} {r r' : Announcement} (h : Sent log r)
    (hr : r.status = .sent) (hlater : Later r r') : Sent (log' ++ log) r' := by
  obtain ⟨saved, sending, hmem, has, hdelivered⟩ := h
  obtain ⟨-, h₁, h₂, h₃, h₄, h₅, h₆, h₇⟩ := hlater.sent hr
  exact ⟨saved, sending, List.mem_append_right _ hmem, ⟨h₁.trans has.title, h₂.trans has.body,
    h₃.trans has.format, h₄.trans has.audience, h₅.trans has.departmentId, h₆.trans has.sentAt,
    h₇.trans has.sentCount⟩, hdelivered⟩

theorem Sent.append {log : List Note} {r : Announcement} (h : Sent log r) (log' : List Note) :
    Sent (log ++ log') r := by
  obtain ⟨saved, sending, hmem, hsaved⟩ := h
  exact ⟨saved, sending, List.mem_append_left _ hmem, hsaved⟩

/-- What has come of an announcement while `log` was noted down. -/
structure Became (log : List Note) (r₀ r : Announcement) : Prop where
  later : Later r₀ r
  reflected : Reflected log r₀ r
  sent : r.status = .sent → r₀.status = .sent ∨ Sent log r

theorem Became.refl (r : Announcement) : Became [] r r :=
  ⟨.refl r, ⟨rfl, rfl, rfl, fun _ ↦ rfl, fun _ ↦ rfl⟩, .inl⟩

theorem lastNamed_append {α : Type} (column : UpdateAnnouncementDto → Option α)
    (log log' : List Note) (a : α) : (lastNamed column (log' ++ log)).getD a =
      (lastNamed column log').getD ((lastNamed column log).getD a) := by
  unfold lastNamed
  rw [List.findSome?_append]
  cases List.findSome? (fun n : Note ↦ n.patch.bind column) log' <;> rfl

/-- Where no patch is noted down, the columns stay. -/
theorem reflected_of_quiet {log : List Note} {r₀ r : Announcement}
    (hlog : ∀ n ∈ log, n.patch = none) (h : SentAs { r₀ with
      sentAt := r.sentAt
      sentCount := r.sentCount } r) : Reflected log r₀ r := by
  have hnone : ∀ {α : Type} (column : UpdateAnnouncementDto → Option α),
      lastNamed column log = none := fun column ↦
    List.findSome?_eq_none_iff.2 fun n hn ↦ by rw [hlog n hn]; rfl
  refine ⟨?_, ?_, ?_, fun _ ↦ ?_, fun _ ↦ ?_⟩ <;> rw [hnone]
  exacts [h.title, h.body, h.format, h.audience, h.departmentId]

theorem Became.trans {log log' : List Note} {r₀ r r' : Announcement} (h : Became log r₀ r)
    (h' : Became log' r r') : Became (log' ++ log) r₀ r' := by
  refine ⟨h.later.trans h'.later, ?_, fun hs ↦ ?_⟩
  · refine ⟨?_, ?_, ?_, fun hfresh ↦ ?_, fun hfresh ↦ ?_⟩
    · rw [h'.reflected.title, h.reflected.title, lastNamed_append]
    · rw [h'.reflected.body, h.reflected.body, lastNamed_append]
    · rw [h'.reflected.format, h.reflected.format, lastNamed_append]
    · rw [h'.reflected.audience fun n hn ↦ hfresh n (List.mem_append_left _ hn),
        h.reflected.audience fun n hn ↦ hfresh n (List.mem_append_right _ hn), lastNamed_append]
    · rw [h'.reflected.department fun n hn ↦ hfresh n (List.mem_append_left _ hn),
        h.reflected.department fun n hn ↦ hfresh n (List.mem_append_right _ hn), lastNamed_append]
  · rcases h'.sent hs with hr | hsent
    · exact (h.sent hr).imp id fun hsent ↦ hsent.later hr h'.later
    · exact .inr (hsent.append log)

/-- What a call that commits a change notes down of it. -/
theorem became_of_changes {op : Op} {reply : Reply} {reads : List View} {r r' : Announcement}
    (hin : r.InOrder i) (hchanges : Changes op r r') (htells : TellsOf op reply reads r r') :
    Became (notesOf op reply reads i (some r)) r r' := by
  unfold notesOf
  refine ⟨hchanges.later, ?_, ?_⟩
  · cases hchanges with
    | locked _ hop =>
      refine reflected_of_quiet ?_ ⟨rfl, rfl, rfl, rfl, rfl, rfl, rfl⟩
      split
      · cases hop
      · simp [Note.patch]
      · simp
    | removed => exact reflected_of_quiet (by simp) ⟨rfl, rfl, rfl, rfl, rfl, rfl, rfl⟩
    | sent =>
      refine reflected_of_quiet ?_ ⟨rfl, rfl, rfl, rfl, rfl, rfl, rfl⟩
      cases reply <;> simp [Note.patch]
    | @patched id dto actor _ audience departmentId c =>
      obtain ⟨d, hd, cur, hcur, haudience, hdepartment⟩ := htells
      have hsingle : ∀ {α : Type} (column : UpdateAnnouncementDto → Option α) (stale : Bool),
          lastNamed column [.patched dto stale] = column dto := fun column stale ↦ by
        simp only [lastNamed, List.findSome?_cons, List.findSome?_nil, Note.patch,
          Option.bind_some]
        cases column dto <;> rfl
      -- a patch that is not stale has read the columns as they are
      have hfresh : (∀ n ∈ [Note.patched dto (staleIn reads i (some r))], ¬ n.isStale) →
          cur.audience = r.audience ∧ cur.departmentId = r.departmentId := fun h ↦ by
        have hstale := h _ List.mem_cons_self
        simp only [Note.isStale, staleIn, List.any_eq_true, not_exists, not_and] at hstale
        have hnot := hstale d hd
        rw [hin.id_eq] at hcur
        simpa [hcur, not_or] using hnot
      refine ⟨?_, ?_, ?_, fun h ↦ ?_, fun h ↦ ?_⟩ <;> rw [hsingle]
      exacts [rfl, rfl, rfl, (hfresh h).1 ▸ haudience, (hfresh h).2 ▸ hdepartment]
  · intro hs
    cases hchanges with
    | locked => exact .inl hs
    | removed => exact .inl hs
    | patched c hdraft =>
      rw [show AnnouncementStatus.draft = _ from hdraft.symm] at *
      exact .inl hs
    | @sent id _ now n c hdraft hlive =>
      cases reply with
      | sent saved sending =>
        obtain ⟨hsaved, hdelivered⟩ := htells
        exact .inr ⟨saved, sending, List.mem_cons_self,
          hsaved ▸ ⟨rfl, rfl, rfl, rfl, rfl, rfl, rfl⟩, hdelivered⟩
      | _ => exact htells.elim

/-- **The step lemma.** A step notes down what it makes of an announcement. -/
theorem became_step (hw : (announcements line).ReachAs calls w)
    (hs : (announcements line).step e w = some w') {r : Announcement}
    (hr : w.store.committed.row .announcement i = some r) :
    ∃ r', w'.store.committed.row .announcement i = some r' ∧ Became (notes calls i w e) r r' := by
  rcases step_cases hw hs with ⟨hnone, hsame⟩ | ⟨t, reply, reads, he, hret, ho, hmay, htells⟩
  · exact ⟨r, hsame.trans hr, hnone ▸ .refl r⟩
  have hin : r.InOrder i := inOrder_of_view (healthy hw).inv hr
  cases hr' : w'.store.committed.row .announcement i with
  | none =>
    rw [hr, hr'] at hmay
    exact hmay.elim
  | some r' =>
    rw [hr, hr'] at hmay
    have hbecame := became_of_changes hin hmay (htells r r' hr hr')
    refine ⟨r', rfl, ?_⟩
    rw [he]
    simp only [notes, hret, if_pos ho, hr]
    exact hbecame

/-- A new announcement is a draft. -/
theorem draft_of_created {op : Op} {r : Announcement} (h : Created op i r) : r.status = .draft := by
  obtain ⟨dto, actor, departmentId, c, -, -, rfl⟩ := h
  rfl

/-- **The state machine of announcements.** Rows are in order; what was there is there still, with
the columns that the patches in between have named; and what has been sent since is as a send has
stored it and LINE was told. -/
theorem announcement_machine {log : List Note} {w₀ : AnnouncementWorld}
    (h₀ : (announcements line).ReachAs calls w₀)
    (h : (announcements line).TraceAs calls (notes calls i) w₀ log w) :
    (∀ r : Announcement, w.store.committed.row .announcement i = some r → r.InOrder i) ∧
    (∀ r₀ : Announcement, w₀.store.committed.row .announcement i = some r₀ →
      ∃ r, w.store.committed.row .announcement i = some r ∧ Became log r₀ r) ∧
    (w₀.store.committed.row .announcement i = none → ∀ r : Announcement,
      w.store.committed.row .announcement i = some r → r.status = .sent → Sent log r) := by
  refine ⟨fun r hr ↦ inOrder_of_view (healthy (h.reach h₀)).inv hr, fun r₀ hr₀ ↦ ?_,
    fun hnone ↦ ?_⟩
  · induction h with
    | refl => exact ⟨r₀, hr₀, .refl r₀⟩
    | step h ha hs ih =>
      obtain ⟨r, hr, hbecame⟩ := ih
      obtain ⟨r', hr', hstep⟩ := became_step (h.reach h₀) hs hr
      exact ⟨r', hr', hbecame.trans hstep⟩
  · induction h with
    | refl =>
      intro r hr
      rw [hnone] at hr
      cases hr
    | @step log w₁ w₂ e h ha hs ih =>
      intro r hr hsent
      cases hr₁ : w₁.store.committed.row .announcement i with
      | some r₁ =>
        obtain ⟨r', hr', hstep⟩ := became_step (h.reach h₀) hs hr₁
        obtain rfl := Option.some.inj (hr.symm.trans hr')
        rcases hstep.sent hsent with hsent₁ | hnew
        · exact (ih r₁ hr₁ hsent₁).later hsent₁ hstep.later
        · exact hnew.append log
      | none =>
        rcases step_cases (h.reach h₀) hs with ⟨-, hsame⟩ | ⟨t, reply, reads, -, -, -, hmay, -⟩
        · rw [hsame, hr₁] at hr
          cases hr
        · rw [hr, hr₁] at hmay
          rw [draft_of_created hmay] at hsent
          cases hsent

end Runs

/-- A draft is given another title and sent to one user. -/
theorem announcement_machine_sentRun : ∃ calls log w r,
    (announcements Sample.line).TraceAs calls (notes calls 1) World.init log w ∧
    w.store.committed.row .announcement 1 = some r ∧ r.status = .sent ∧ Sent log r := by
  have hcalls : (Sample.sentRun.filterMap Event.caller).Nodup := by decide +kernel
  have hval : ((announcements Sample.line).exec Sample.sentRun World.init).map (fun w ↦
      (w.store.committed.row .announcement 1).map Announcement.status) = some (some .sent) := by
    decide +kernel
  obtain ⟨w, hw, hval⟩ := Option.map_eq_some_iff.1 hval
  obtain ⟨r, hr, hsent⟩ := Option.map_eq_some_iff.1 hval
  have htrace := System.traceAs_of_exec (.remove 0)
    (notes (callsIn (.remove 0) Sample.sentRun) 1) hcalls hw
  exact ⟨_, _, w, r, htrace, hr, hsent, (announcement_machine .init htrace).2.2 rfl r hr hsent⟩

/-- A patch of the title takes back the audience that another patch has set in the meantime. -/
example : ((announcements Sample.line).exec Sample.crossed World.init).map (fun w ↦
    (w.store.committed.row .announcement 1).map Announcement.audience) = some (some .all) := by
  decide +kernel

end EasyBook.Announcements

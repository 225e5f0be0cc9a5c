import EasyBook.Announcements.Service
import EasyBook.ReadCommitted.Frame

/-!
# What the calls make of announcements

`Changes` says what each call may make of a row: a patch and a send start from a draft that is not
deleted, and nothing is ever made of a deleted row. The rows of a law that allows no more are in
order (`Announcement.InOrder`), and what has been sent or deleted stays (`Later`).

The contract adds what a transaction that commits can tell of its row: a patch has merged its
fields with an audience and a department that the call has seen, and a send has stored what it has
told LINE.
-/

namespace EasyBook.Announcements

open ReadCommitted

/-! ### Rows -/

/-- The row under key `i` is in order. -/
structure Announcement.InOrder (i : ℕ) (r : Announcement) : Prop where
  id_eq : r.id = i
  sent_iff : r.sentAt.isSome ↔ r.status = .sent
  /-- Only a sending counts recipients. -/
  draft_count : r.status = .draft → r.sentCount = 0
  department_iff : r.audience = .department ↔ r.departmentId.isSome

/-- The patch of a call. -/
def Op.patch : Op → Option UpdateAnnouncementDto
  | .update _ dto _ => some dto
  | _ => none

/-- What a call may make of a row. -/
inductive Changes : Op → Announcement → Announcement → Prop where
  /-- The row is locked as it is. -/
  | locked {op : Op} (r : Announcement) (hop : op.patch = none) : Changes op r r
  | patched {id : Cuid} {dto : UpdateAnnouncementDto} {actor : AnnouncementActor}
      {r : Announcement} {audience : AnnouncementAudience} {departmentId : Option Cuid} (c : ℤ)
      (hdraft : r.status = .draft) (hlive : r.deletedAt = none)
      (haudience : audience = .department ↔ departmentId.isSome) :
      Changes (.update id dto actor) r
        { applyPatch dto audience departmentId r with updatedAt := c }
  | removed {id : Cuid} {r : Announcement} (now c : ℤ) (hlive : r.deletedAt = none) :
      Changes (.remove id) r { r with deletedAt := some now, updatedAt := c }
  | sent {id : Cuid} {r : Announcement} (now : ℤ) (n : ℕ) (c : ℤ) (hdraft : r.status = .draft)
      (hlive : r.deletedAt = none) :
      Changes (.send id) r { markSent now n r with updatedAt := c }

/-- What a call may insert under key `i`. -/
def Created (op : Op) (i : ℕ) (r : Announcement) : Prop :=
  ∃ dto actor departmentId c, op = .create dto actor ∧
    (dto.audience.getD .all = .department ↔ departmentId.isSome) ∧
    r = newAnnouncement dto (dto.audience.getD .all) departmentId actor.id c i

/-- What has been sent stays sent as it is, and what has been deleted stays. -/
structure Later (r r' : Announcement) : Prop where
  sent : r.status = .sent → r'.status = .sent ∧ r'.title = r.title ∧ r'.body = r.body ∧
    r'.format = r.format ∧ r'.audience = r.audience ∧ r'.departmentId = r.departmentId ∧
    r'.sentAt = r.sentAt ∧ r'.sentCount = r.sentCount
  deleted : r.deletedAt ≠ none → r' = r

section Rows

variable {op : Op} {i : ℕ} {r r' r'' : Announcement}

theorem Changes.inOrder (h : Changes op r r') (hr : r.InOrder i) : r'.InOrder i := by
  cases h with
  | locked => exact hr
  | patched c hdraft hlive haudience =>
    exact ⟨hr.id_eq, hr.sent_iff, hr.draft_count, haudience⟩
  | removed => exact ⟨hr.id_eq, hr.sent_iff, hr.draft_count, hr.department_iff⟩
  | sent => exact ⟨hr.id_eq, by simp [markSent], fun h ↦ absurd h (by simp [markSent]),
      hr.department_iff⟩

theorem Created.inOrder (h : Created op i r) : r.InOrder i := by
  obtain ⟨dto, actor, departmentId, c, -, haudience, rfl⟩ := h
  exact ⟨rfl, by simp [newAnnouncement], fun _ ↦ rfl, haudience⟩

/-- What is made of a row in two steps could have been made in one. -/
theorem Changes.trans (h : Changes op r r') (h' : Changes op r' r'') : Changes op r r'' := by
  cases h with
  | locked => exact h'
  | @patched id dto actor _ audience departmentId c hdraft hlive haudience =>
    cases h' with
    | locked _ hop => cases hop
    | patched c' _ _ haudience' =>
      have hagain : ∀ {α : Type} (o : Option α) (a : α), o.getD (o.getD a) = o.getD a :=
        fun o a ↦ by cases o <;> rfl
      simpa [applyPatch, hagain] using
        @Changes.patched id dto actor _ _ _ c' hdraft hlive haudience'
  | removed now c hlive =>
    cases h' with
    | locked => exact .removed now c hlive
    | removed now' c' hlive' => cases hlive'
  | sent now n c hdraft hlive =>
    cases h' with
    | locked => exact .sent now n c hdraft hlive
    | sent now' n' c' hdraft' => cases hdraft'

theorem Later.refl (r : Announcement) : Later r r :=
  ⟨fun h ↦ ⟨h, rfl, rfl, rfl, rfl, rfl, rfl, rfl⟩, fun _ ↦ rfl⟩

theorem Later.trans (h : Later r r') (h' : Later r' r'') : Later r r'' := by
  constructor
  · intro hs
    obtain ⟨hs', h₁, h₂, h₃, h₄, h₅, h₆, h₇⟩ := h.sent hs
    obtain ⟨hs'', k₁, k₂, k₃, k₄, k₅, k₆, k₇⟩ := h'.sent hs'
    exact ⟨hs'', k₁.trans h₁, k₂.trans h₂, k₃.trans h₃, k₄.trans h₄, k₅.trans h₅, k₆.trans h₆,
      k₇.trans h₇⟩
  · intro hd
    obtain rfl := h.deleted hd
    exact h'.deleted hd

theorem Changes.later (h : Changes op r r') : Later r r' := by
  cases h with
  | locked => exact .refl _
  | patched c hdraft hlive => exact ⟨fun h ↦ (nomatch hdraft.symm.trans h), fun h ↦ absurd hlive h⟩
  | removed now c hlive =>
    exact ⟨fun h ↦ ⟨h, rfl, rfl, rfl, rfl, rfl, rfl, rfl⟩, fun h ↦ absurd hlive h⟩
  | sent now n c hdraft hlive =>
    exact ⟨fun h ↦ (nomatch hdraft.symm.trans h), fun h ↦ absurd hlive h⟩

end Rows

/-! ### The law -/

/-- The calls change announcements as they may. -/
def announcementLaw (calls : ℕ → Op) : Law Row where
  good
    | .announcement, i, r => Announcement.InOrder i r
    | .directory _, _, _ => True
  may t
    | .announcement, i, none, some r => Created (calls t) i r
    | .announcement, _, some r, some r' => Changes (calls t) r r'
    | .announcement, _, _, none => False
    | .directory _, _, _, _ => True
  keeps {t τ i x r} hx h := by
    cases τ with
    | announcement =>
      cases x with
      | none => exact Created.inOrder h
      | some q => exact Changes.inOrder h (hx q rfl)
    | directory τ => trivial

section Law

variable {calls : ℕ → Op} {t : ℕ} {σ : Store Row} {i : ℕ} {r r' : Announcement}

/-- A call may make of its own version what it may make of the row. -/
theorem may_of_seen (hσ : (announcementLaw calls).Lawful σ)
    (hseen : (σ.cell .announcement i).seen (some t) = some r) (h : Changes (calls t) r r') :
    (announcementLaw calls).may t .announcement i (σ.cell .announcement i).committed (some r') := by
  rcases hσ.seen_cases hseen with hcommitted | hmay
  · rw [hcommitted]
    exact h
  · generalize (σ.cell .announcement i).committed = x at hmay ⊢
    cases x with
    | none =>
      have hcreated : Created (calls t) i r := hmay
      obtain ⟨dto, actor, -, -, hop, -⟩ := hcreated
      rw [hop] at h
      cases h
      exact hmay
    | some q => exact Changes.trans hmay h

/-- Whatever anybody sees of an announcement is in order. -/
theorem inOrder_of_view (hσ : (announcementLaw calls).Lawful σ) {v : Option ℕ}
    (hr : (σ.view v).row .announcement i = some r) : r.InOrder i :=
  hσ.seen_good hr

end Law

/-- Where announcements are under their ids, a search by id looks at one row. -/
theorem find?_eq_row {d : View} (hd : ∀ i (r : Announcement), d.row .announcement i = some r →
    r.id = i) (p : Announcement → Bool) (id : ℕ) :
    ((d.all .announcement).find? fun r : Announcement ↦ decide (r.id = id) && p r) =
      Option.filter p (d.row .announcement id) := by
  cases h : (d.all .announcement).find? fun r : Announcement ↦ decide (r.id = id) && p r with
  | none =>
    rw [List.find?_eq_none] at h
    cases hr : d.row .announcement id with
    | none => rfl
    | some r =>
      have hp := h r (Db.mem_all.2 ⟨id, hr⟩)
      simp only [hd id r hr, decide_true, Bool.true_and] at hp
      exact (Option.filter_some_neg (Bool.eq_false_of_not_eq_true hp)).symm
  | some r =>
    have hp := List.find?_some h
    simp only [Bool.and_eq_true, decide_eq_true_eq] at hp
    have hmem : r ∈ d.all .announcement := List.mem_of_find?_eq_some h
    obtain ⟨i, hi⟩ := Db.mem_all.1 hmem
    obtain rfl : i = id := (hd i r hi).symm.trans hp.1
    rw [hi]
    exact (Option.filter_some_pos hp.2).symm

end EasyBook.Announcements

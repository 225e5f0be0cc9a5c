import EasyBook.Directory.Lifecycle

/-!
# A LINE user who comes back

An unfollow keeps the row of the user and marks it deleted. The LIFF calls look for an active row,
and create one if there is none; but the index on the LINE subject counts deleted rows too, so the
creation fails. A subject that has a row is served if and only if the row is active
(`returning_user`): one that has left is turned away until it follows again.
-/

namespace EasyBook.Directory

open ReadCommitted

/-- The LIFF calls of a subject that find or create its row. -/
def LiffCall (lineUserId : JsString) (op : Op) : Prop :=
  (∃ profile, op = .getStatus lineUserId profile) ∨ (∃ dto, op = .patchSettings lineUserId dto) ∨
    ∃ dto, op = .register lineUserId dto

/-- The result of a call of the subject does not speak of a row that the subject does not see. -/
def Presentable (d : View) (lineUserId : JsString) (r : Except DirectoryError Reply) : Prop :=
  r ≠ .error .uniqueViolation ∧
    (r = .error (.conflict .alreadyRegistered) → ∃ u, ActiveUser d lineUserId u)

/-- Whatever LINE answers, a call made in `w` ends with an active row for the subject, and with a
result that is presentable. -/
def Welcomed (w : DirectoryWorld) (t : ℕ) (op : Op) (lineUserId : JsString) : Prop :=
  ∀ cur w' r, directory.Serving undisturbed t op w cur w' → w'.result t = some r →
    (∃ u, ActiveUser w'.store.committed lineUserId u) ∧ Presentable w.store.committed lineUserId r

section ActiveUser

variable {d d' : View} {lineUserId : JsString} {u : LineUser}

theorem ActiveUser.congr (h : ActiveUser d lineUserId u)
    (hrow : d'.row .lineUser = d.row .lineUser) : ActiveUser d' lineUserId u := by
  obtain ⟨i, hi, hs⟩ := h
  exact ⟨i, by rw [hrow]; exact hi, hs⟩

theorem ActiveUser.setUser (h : ActiveUser d lineUserId u) {id : Cuid} {f : LineUser → LineUser}
    (hf : ∀ r, (f r).lineUserId = r.lineUserId ∧ (f r).deletedAt = r.deletedAt) :
    ∃ u', ActiveUser (setUser d id f) lineUserId u' := by
  obtain ⟨i, hi, hs, hdel⟩ := h
  refine ⟨if u.id = id then f u else u, i, ?_, ?_, ?_⟩
  · rw [Directory.setUser, Db.mapRows_row_self, hi]
    rfl
  · split
    · rw [(hf u).1, hs]
    · exact hs
  · split
    · rw [(hf u).2, hdel]
    · exact hdel

theorem ActiveUser.enrol (h : ActiveUser d lineUserId u) (q : LineUserRegistration) :
    ∃ u', ActiveUser (enrol d q) lineUserId u' := by
  have hadd : ActiveUser (d.add .registration q) lineUserId u :=
    h.congr (Db.add_row_of_ne (by simp))
  exact hadd.setUser fun _ ↦ ⟨rfl, rfl⟩

theorem Found.active (hd : Tidy d) (h : Found d lineUserId u d') : ActiveUser d' lineUserId u :=
  ⟨u.id, h.row hd⟩

/-- A subject that has left is not found. -/
theorem Found.not_gone (h : Found d lineUserId u d') (hk : Known d lineUserId)
    (hno : ∀ u, ¬ ActiveUser d lineUserId u) : False := by
  cases h with
  | existing hu => exact hno u hu
  | created c hn => exact hn hk

end ActiveUser

/-! ### Who is served -/

section LiffCall

variable {d d' : View} {lineUserId : JsString} {op : Op} {r : Except DirectoryError Reply}

/-- A call of a subject that has left leaves it without an active row. -/
theorem not_active_of_gone (hop : LiffCall lineUserId op) (hk : Known d lineUserId)
    (hno : ∀ u, ¬ ActiveUser d lineUserId u) (h : Does undisturbed d op r d') (u : LineUser) :
    ¬ ActiveUser d' lineUserId u := by
  intro hu
  have hsame : d'.row = d.row → False := fun hrow ↦ hno u (hu.congr (by rw [hrow]))
  rcases hop with ⟨profile, rfl⟩ | ⟨dto, rfl⟩ | ⟨dto, rfl⟩
  · cases h with
    | lost _ _ hl _ => exact hl
    | refused _ hrow => exact hsame hrow
    | cached _ => exact hno u hu
    | answered _ hf _ => exact hf.not_gone hk hno
    | unanswered hf _ _ _ _ _ => exact hf.not_gone hk hno
  · cases h with
    | lost _ _ hl _ => exact hl
    | refused _ hrow => exact hsame hrow
    | patched hf _ _ => exact hf.not_gone hk hno
    | unpatched hf _ _ _ _ => exact hf.not_gone hk hno
  · cases h with
    | lost _ _ hl _ => exact hl
    | refused _ hrow => exact hsame hrow
    | registered hf _ _ _ _ => exact hf.not_gone hk hno

/-- A call of a subject with an active row ends well. -/
theorem active_of_active (hd : Tidy d) (hop : LiffCall lineUserId op) {u : LineUser}
    (hu : ActiveUser d lineUserId u) (h : Does undisturbed d op r d') :
    (∃ u', ActiveUser d' lineUserId u') ∧ r ≠ .error .uniqueViolation := by
  have hsame : d'.row = d.row → ∃ u', ActiveUser d' lineUserId u' := fun hrow ↦
    ⟨u, hu.congr (by rw [hrow])⟩
  have hok : ∀ reply : Reply, (.ok reply : Except DirectoryError Reply) ≠ .error .uniqueViolation :=
    fun reply hr ↦ (nomatch hr)
  rcases hop with ⟨profile, rfl⟩ | ⟨dto, rfl⟩ | ⟨dto, rfl⟩
  · cases h with
    | lost _ _ hl _ => exact hl.elim
    | refused hr _ =>
      cases hr with
      | statusGone hno _ _ => exact absurd hu (hno u)
    | cached _ => exact ⟨⟨u, hu⟩, hok _⟩
    | answered _ hf hp =>
      refine ⟨?_, hok _⟩
      have husers : ∀ d s, (storeEntry d lineUserId s).row .lineUser = d.row .lineUser :=
        fun d s ↦ (Db.add_row_of_ne (by simp)).trans (Db.keepRows_row_of_ne (by simp))
      rcases hp with ⟨rfl, _⟩ | ⟨claims, _, rfl, _⟩
      · exact ⟨_, (hf.active hd).congr (husers _ _)⟩
      · obtain ⟨u', hu'⟩ := (hf.active hd).setUser (f := takeProfile _ claims) fun _ ↦ ⟨rfl, rfl⟩
        exact ⟨u', hu'.congr (husers _ _)⟩
    | unanswered _ _ _ _ hl _ => exact hl.elim
  · cases h with
    | lost _ _ hl _ => exact hl.elim
    | refused hr _ =>
      cases hr with
      | settingsGone hno _ => exact absurd hu (hno u)
    | patched hf _ hrow => exact ⟨⟨_, (hf.active hd).congr (hrow _ (by simp))⟩, hok _⟩
    | unpatched _ _ _ hl _ => exact hl.elim
  · cases h with
    | lost _ _ hl _ => exact hl.elim
    | refused hr hrow => exact ⟨hsame hrow, by cases hr <;> simp⟩
    | registered hf _ _ _ _ =>
      refine ⟨?_, hok _⟩
      obtain ⟨u', hu'⟩ := (hf.active hd).enrol _
      exact ⟨u', hu'.congr (Db.keepRows_row_of_ne (by simp))⟩

end LiffCall

/-- **Who comes back is served if and only if its row is active again.** -/
theorem returning_user {w : DirectoryWorld} (h : directory.Serial lineCalls w) {t : ℕ}
    (ht : w.phase t = .idle) {lineUserId : JsString} (hk : Known w.store.committed lineUserId)
    {op : Op} (hop : LiffCall lineUserId op) :
    Welcomed w t op lineUserId ↔ ∃ u, ActiveUser w.store.committed lineUserId u := by
  obtain ⟨hq, hd⟩ := serial_tidy h
  have hline : LineOp op := by
    rcases hop with ⟨profile, rfl⟩ | ⟨dto, rfl⟩ | ⟨dto, rfl⟩ <;> trivial
  constructor
  · intro hw
    by_contra hno
    push Not at hno
    obtain ⟨cur, w', r, hsv, hr⟩ := System.exists_served (T := undisturbed) Sample.oracle hq ht
      fun _ _ ↦ trivial
    obtain ⟨⟨u, hu⟩, _⟩ := hw cur w' r hsv hr
    exact not_active_of_gone hop hk hno (served_does redisUp_undisturbed hq hd hline hsv hr).2 u hu
  · rintro ⟨u, hu⟩ cur w' r hsv hr
    obtain ⟨hactive, hne⟩ := active_of_active hd hop hu
      (served_does redisUp_undisturbed hq hd hline hsv hr).2
    exact ⟨hactive, hne, fun _ ↦ ⟨u, hu⟩⟩

namespace Sample

/-- Two options, and a user who follows and leaves. -/
def left : List Op :=
  [.createOption .department [], .createOption .personnelRole [],
    .upsertOnFollow [] ⟨none, none, none, none⟩, .softDeleteByLineUserId []]

/-- The user follows again. -/
def back : List Op := left ++ [.upsertOnFollow [] ⟨none, none, none, none⟩]

end Sample

/-- A user who has followed again. -/
theorem returning_user_back :
    Welcomed (served lineCalls (Sample.calls Sample.back)) 5 (.getStatus [] none) [] := by
  obtain ⟨u, hu, hp⟩ : ∃ u, (served lineCalls (Sample.calls Sample.back)).store.committed.row
      .lineUser 2 = some u ∧ decide (LineUser.lineUserId u = [] ∧ u.deletedAt = none) = true :=
    (Option.any_eq_true _ _).1 (by decide +kernel)
  have hs := of_decide_eq_true hp
  exact (returning_user (serial_served lineCalls _) (phase_of_isIdle (by decide +kernel))
    ⟨2, u, hu, hs.1⟩ (.inl ⟨none, rfl⟩)).2 ⟨u, 2, hu, hs⟩

/-- **A user who has left is turned away**: the status and the settings fail on the unique index,
and a registration is refused as if the user had one. -/
theorem returning_user_turnedAway :
    ∃ w t, directory.Serial lineCalls w ∧ w.phase t = .idle ∧ Known w.store.committed [] ∧
      (∀ u ∈ w.store.committed.all .lineUser, LineUser.deletedAt u ≠ none) ∧
      (∃ cur w', directory.Serving undisturbed t (.getStatus [] none) w cur w' ∧
        w'.result t = some (.error .uniqueViolation)) ∧
      (∃ cur w', directory.Serving undisturbed t (.patchSettings [] ⟨none, fun _ ↦ none⟩) w cur w' ∧
        w'.result t = some (.error .uniqueViolation)) ∧
      ∃ cur w', directory.Serving undisturbed t (.register [] Sample.registration) w cur w' ∧
        w'.result t = some (.error (.conflict .alreadyRegistered)) := by
  obtain ⟨u, hu, hp⟩ : ∃ u, (served lineCalls (Sample.calls Sample.left)).store.committed.row
      .lineUser 2 = some u ∧ decide (LineUser.lineUserId u = []) = true :=
    (Option.any_eq_true _ _).1 (by decide +kernel)
  exact ⟨_, 4, serial_served lineCalls _, phase_of_isIdle (by decide +kernel),
    ⟨2, u, hu, of_decide_eq_true hp⟩, by decide +kernel, serving_of_endsWith (by decide +kernel),
    serving_of_endsWith (by decide +kernel), serving_of_endsWith (by decide +kernel)⟩

end EasyBook.Directory

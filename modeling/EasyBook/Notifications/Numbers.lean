import EasyBook.Notifications.Dismissals

/-!
# Receipts are exact

What a call has changed in a run are the receipts that it was told it has changed
(`changedBy_of_trace`), so the numbers that the calls answer are exact, and those of the dismissals
add up to what was dismissed (`receipts_exact`).
-/

namespace EasyBook.Notifications

open Machine Machine.Task

variable {C : NotificationConfig} {s s' : NotificationState} {w w' : NotificationWorld}
  {userId id : JsString} {tx : ℕ}

/-! ### Counts -/

/-- The fold over the groups leaves at each category the count of its group, or what was there. -/
private theorem foldl_update {groups : List (AdminNotificationCategory × ℕ)}
    (hnodup : (groups.map (·.1)).Nodup) (counts : AdminNotificationCategory → ℕ)
    (c : AdminNotificationCategory) :
    (∀ k, (c, k) ∈ groups →
      groups.foldl (fun counts g ↦ Function.update counts g.1 g.2) counts c = k) ∧
    ((∀ k, (c, k) ∉ groups) →
      groups.foldl (fun counts g ↦ Function.update counts g.1 g.2) counts c = counts c) := by
  induction groups generalizing counts with
  | nil => exact ⟨fun _ hk ↦ (List.not_mem_nil hk).elim, fun _ ↦ rfl⟩
  | cons g groups ih =>
    obtain ⟨hg, hnodup⟩ := List.nodup_cons.1 hnodup
    obtain ⟨hin, hout⟩ := ih hnodup (Function.update counts g.1 g.2)
    refine ⟨fun k hk ↦ ?_, fun hk ↦ ?_⟩
    · rcases List.mem_cons.1 hk with rfl | hk
      · exact (hout fun k' hk' ↦ hg (List.mem_map.2 ⟨_, hk', rfl⟩)).trans (Function.update_self ..)
      · exact hin k hk
    · refine (hout fun k' hk' ↦ hk k' (List.mem_cons_of_mem _ hk')).trans ?_
      refine Function.update_of_ne ?_ ..
      rintro rfl
      exact hk g.2 List.mem_cons_self

/-- The counts are those of the rows, category by category. -/
theorem byCategory_of_isGroupBy {groups : List (AdminNotificationCategory × ℕ)}
    {rows : List AdminNotification} (h : IsGroupBy groups rows) (c : AdminNotificationCategory) :
    (toUnreadCount groups).byCategory c = rows.countP (decide <| ·.category = c) := by
  obtain ⟨hin, hout⟩ := foldl_update h.nodup (fun _ ↦ 0) c
  by_cases hc : 0 < rows.countP (decide <| ·.category = c)
  · exact hin _ ((h.mem c _).2 ⟨hc, rfl⟩)
  · refine (hout fun k hk ↦ ?_).trans (Nat.eq_zero_of_not_pos hc).symm
    obtain ⟨hpos, rfl⟩ := (h.mem c k).1 hk
    exact hc hpos

/-- Every row has one of the four categories. -/
private theorem length_eq_sum (rows : List AdminNotification) :
    rows.length = rows.countP (decide <| ·.category = .booking) +
      rows.countP (decide <| ·.category = .registration) +
      rows.countP (decide <| ·.category = .feedback) +
      rows.countP (decide <| ·.category = .system) := by
  induction rows with
  | nil => rfl
  | cons n rows ih =>
    simp only [List.length_cons, List.countP_cons, ih]
    cases n.category <;> simp <;> omega

/-- The total of the unread counts is the number of the rows. -/
theorem total_of_isGroupBy {groups : List (AdminNotificationCategory × ℕ)}
    {rows : List AdminNotification} (h : IsGroupBy groups rows) :
    (toUnreadCount groups).total = rows.length := by
  rw [length_eq_sum, ← byCategory_of_isGroupBy h, ← byCategory_of_isGroupBy h,
    ← byCategory_of_isGroupBy h, ← byCategory_of_isGroupBy h]
  rfl

/-! ### The numbers that the calls answer -/

/-- A step of a run. -/
abbrev NotificationStep : Type := NotificationWorld × NotificationEvent × NotificationWorld

/-- The notifications whose state for a user a call has changed in a run. -/
def changedBy (l : List NotificationStep) (t : ℕ) (userId : JsString) : Set JsString :=
  {id | ∃ x ∈ l, (∃ y, x.2.1 = .exchange t y) ∧
    x.1.state.committed userId id ≠ x.2.2.state.committed userId id}

/-- A step that commits nothing of the user's adds nothing to what a call has changed. -/
theorem changedBy_cons_of_not {l : List NotificationStep} {t : ℕ} {x : NotificationStep}
    (hx : (∃ y, x.2.1 = .exchange t y) →
      ∀ id, x.1.state.committed userId id = x.2.2.state.committed userId id) :
    changedBy (x :: l) t userId = changedBy l t userId := by
  ext id
  constructor
  · rintro ⟨y, hy, he, hne⟩
    rcases List.mem_cons.1 hy with rfl | hy
    · exact (hne (hx he id)).elim
    · exact ⟨y, hy, he, hne⟩
  · rintro ⟨y, hy, he, hne⟩
    exact ⟨y, List.mem_cons_of_mem _ hy, he, hne⟩

/-- A history has committed after one more exchange. -/
theorem committed_snoc {h : List NotificationExchange} {e : NotificationExchange} :
    Committed (h ++ [e]) ↔ Committed h ∨ ∃ tx, e = ⟨.commit tx, some ()⟩ := by
  constructor
  · rintro ⟨tx, htx⟩
    rcases List.mem_append.1 htx with htx | htx
    · exact .inl ⟨tx, htx⟩
    · exact .inr ⟨tx, (List.mem_singleton.1 htx).symm⟩
  · rintro (⟨tx, htx⟩ | ⟨tx, rfl⟩)
    · exact ⟨tx, List.mem_append_left _ htx⟩
    · exact ⟨tx, List.mem_append_right _ List.mem_cons_self⟩

/-- The commit of a call makes visible what its history has changed, and only that. -/
private theorem changedBy_commit {l : List NotificationStep} {t tx : ℕ} {op : NotificationCall}
    {h : List NotificationExchange}
    {k : NotificationAnswer (.commit tx) → Task NotificationQuery NotificationAnswer
      (Except NotificationError NotificationReply)}
    (hw : Reach (notifications C) (fun _ _ ↦ True) (.init .init) w)
    (ht : w.threads t = some ⟨op, h, .ask (.commit tx) k⟩)
    (hstep : Step (notifications C) w (.exchange t ⟨.commit tx, some ()⟩) w')
    (hnone : changedBy l t userId = ∅) :
    changedBy ((w, .exchange t ⟨.commit tx, some ()⟩, w') :: l) t userId =
      {id | (userId, id) ∈ changes h} := by
  ext id
  constructor
  · rintro ⟨x, hx, hex, hne⟩
    rcases List.mem_cons.1 hx with rfl | hx
    · obtain ⟨r, t₁, tx₁, th₁, hc, -⟩ := commits_of_step hw hstep hne
      obtain rfl : t = t₁ := by
        cases hc.event
        rfl
      have hth := hc.thread
      rw [ht] at hth
      cases hth
      exact hc.mem
    · have : id ∈ changedBy l t userId := ⟨x, hx, hex, hne⟩
      rw [hnone] at this
      exact this.elim
  · intro hmem
    refine ⟨_, List.mem_cons_self, ⟨_, rfl⟩, ?_⟩
    cases hstep with
    | exchange ht' hd =>
      cases hd
      exact ne_of_commit hw ht hmem

/-- The changes that the call has made visible. -/
private def madeVisible (userId : JsString) (h : List NotificationExchange) : Set JsString :=
  {id | Committed h ∧ (userId, id) ∈ changes h}

/-- An exchange that is no commit makes nothing visible: a call writes nothing once it has
committed. -/
private theorem madeVisible_snoc {h : List NotificationExchange} {e : NotificationExchange}
    (hcommit : ¬ ∃ tx, e = ⟨.commit tx, some ()⟩) (hopen : ∀ key, changed e = some key → IsOpen h) :
    madeVisible userId (h ++ [e]) = madeVisible userId h := by
  ext id
  change _ ∧ _ ↔ _ ∧ _
  rw [committed_snoc, or_iff_left hcommit]
  refine and_congr_right fun hcom ↦ ?_
  cases hch : changed e with
  | none => rw [changes_snoc_of_none hch]
  | some key => exact ((hopen key hch).not_committed hcom).elim

/-- What a call has changed is what it has made visible, after one more exchange of its own. -/
private theorem changedBy_exchange {l : List NotificationStep} {t : ℕ} {op : NotificationCall}
    {h : List NotificationExchange} {q : NotificationQuery} {a : NotificationAnswer q}
    {k : NotificationAnswer q → Task NotificationQuery NotificationAnswer
      (Except NotificationError NotificationReply)}
    (hw : Reach (notifications C) (fun _ _ ↦ True) (.init .init) w)
    (ht : w.threads t = some ⟨op, h, .ask q k⟩)
    (hstep : Step (notifications C) w (.exchange t ⟨q, a⟩) w')
    (hold : changedBy l t userId = madeVisible userId h) :
    changedBy ((w, .exchange t ⟨q, a⟩, w') :: l) t userId =
      madeVisible userId (h ++ [⟨q, a⟩]) := by
  have hq := justified_of_reach hw ht
  -- it matters whether the exchange is the commit
  by_cases hcommit : ∃ tx, (⟨q, a⟩ : NotificationExchange) = ⟨.commit tx, some ()⟩
  · obtain ⟨tx, hcommit⟩ := hcommit
    cases hcommit
    have hnone : changedBy l t userId = ∅ := by
      rw [hold]
      ext id
      exact ⟨fun h ↦ hq.2.not_committed h.1, fun h ↦ h.elim⟩
    have hchanges : changes (h ++ [⟨.commit tx, some ()⟩]) = changes h :=
      changes_snoc_of_none rfl
    rw [changedBy_commit hw ht hstep hnone, madeVisible, hchanges]
    ext id
    exact ⟨fun hmem ↦ ⟨committed_snoc.2 (.inr ⟨tx, rfl⟩), hmem⟩, fun hmem ↦ hmem.2⟩
  · rw [changedBy_cons_of_not, hold, madeVisible_snoc hcommit]
    · intro key hch
      cases q with
      | write tx userId id wr => exact hq.2.1
      | _ => cases hch
    -- Another exchange of the call changes no committed receipt.
    · rintro - id
      by_contra hne
      obtain ⟨r, t₁, tx₁, th₁, hc, -⟩ := commits_of_step hw hstep hne
      refine hcommit ⟨tx₁, ?_⟩
      cases hc.event
      rfl

/-- What a call has changed in a run are the receipts that it was told it has changed, if it has
committed. -/
theorem changedBy_of_trace {l : List NotificationStep}
    (hw : Trace (notifications C) (fun _ _ ↦ True) (.init .init) l w) (t : ℕ) (userId : JsString) :
    (w.threads t = none → changedBy l t userId = ∅) ∧
    ∀ th, w.threads t = some th → changedBy l t userId =
      {id | Committed th.history ∧ (userId, id) ∈ changes th.history} := by
  induction hw with
  | init =>
    refine ⟨fun _ ↦ ?_, fun th ht ↦ by cases ht⟩
    ext id
    exact ⟨fun ⟨_, hx, _⟩ ↦ (List.not_mem_nil hx).elim, fun h ↦ h.elim⟩
  | @step l w w' e hw _ h ih =>
    cases h with
    | environment hs => exact hs.elim
    | @start t' op ht' =>
      -- a call that starts commits nothing
      rw [changedBy_cons_of_not (by rintro ⟨y, ⟨⟩⟩)]
      refine ⟨fun ht ↦ ih.1 ?_, fun th ht ↦ ?_⟩
      · by_cases he : t = t'
        · rw [he]
          exact ht'
        · exact (Function.update_of_ne he ..).symm.trans ht
      · rcases update_eq_some ht with ⟨rfl, rfl⟩ | ⟨-, ht⟩
        · rw [ih.1 ht']
          ext id
          exact ⟨fun h ↦ h.elim, fun ⟨_, h⟩ ↦ (List.not_mem_nil h).elim⟩
        · exact ih.2 th ht
    | @exchange t' op h q k a s' ht' hd =>
      by_cases he : t = t'
      · subst he
        refine ⟨fun ht ↦ ?_, fun th ht ↦ ?_⟩
        · cases (Function.update_self ..).symm.trans ht
        rcases update_eq_some ht with ⟨-, rfl⟩ | ⟨hne, -⟩
        · exact changedBy_exchange hw.reach ht' (.exchange ht' hd) (ih.2 _ ht')
        · exact (hne rfl).elim
      -- The exchange is another call's.
      · rw [changedBy_cons_of_not]
        · dsimp only
          rw [Function.update_of_ne he]
          exact ih
        · rintro ⟨y, hy⟩
          cases hy
          exact (he rfl).elim

/-- The set of the changed receipts of a user has as many elements as the list. -/
private theorem ncard_of_changes (userId : JsString) {keys : List (JsString × JsString)}
    (hnodup : keys.Nodup) (hown : ∀ k ∈ keys, k.1 = userId) :
    {id | (userId, id) ∈ keys} = ((keys.map (·.2)).toFinset : Set JsString) ∧
      (keys.map (·.2)).toFinset.card = keys.length := by
  constructor
  · ext id
    change (userId, id) ∈ keys ↔ id ∈ ((keys.map (·.2)).toFinset : Set JsString)
    rw [List.coe_toFinset]
    change _ ↔ id ∈ keys.map (·.2)
    rw [List.mem_map]
    constructor
    · exact fun h ↦ ⟨_, h, rfl⟩
    · rintro ⟨⟨u, i⟩, hk, rfl⟩
      obtain rfl := hown _ hk
      exact hk
  · rw [List.toFinset_card_of_nodup, List.length_map]
    refine (List.nodup_map_iff_inj_on hnodup).2 ?_
    rintro ⟨u, i⟩ hk ⟨u', i'⟩ hk' he
    exact Prod.ext ((hown _ hk).trans (hown _ hk').symm) he

/-- The numbers that the calls answer are exact. -/
theorem number_of_trace {l : List NotificationStep}
    (hw : Trace (notifications C) (fun _ _ ↦ True) (.init .init) l w) {t : ℕ}
    {th : Thread NotificationQuery NotificationAnswer (Except NotificationError NotificationReply)
      NotificationCall} (ht : w.threads t = some th) {caller : NotificationCaller}
    (hcaller : th.op.caller = some caller) {n : ℕ}
    (hn : th.rest = .done (.ok (.updated n)) ∨ th.rest = .done (.ok (.deleted n))) :
    (changedBy l t caller.id).Finite ∧ (changedBy l t caller.id).ncard = n := by
  have hask : ∀ op, ((notifications C).task op).AsksAfter (Justified op) (Reported op) [] :=
    asking_task
  have hcons := consistent_of_reach hw.reach
  have hrep : Committed th.history ∧ (changes th.history).length = n := by
    have := hw.reach.asksAfter hask ht
    rcases hn with hn | hn
    · rw [hn] at this
      exact this.2
    · rw [hn] at this
      exact this.2
  obtain ⟨hset, hcard⟩ := ncard_of_changes caller.id (hcons.nodup _ _ ht) (by
    intro k hk
    obtain ⟨caller', hc, hid, -⟩ := hcons.own _ _ _ ht hk
    rw [hcaller] at hc
    cases hc
    exact hid.symm)
  have hchanged : changedBy l t caller.id = ((changes th.history).map (·.2)).toFinset := by
    rw [(changedBy_of_trace hw t caller.id).2 th ht, ← hset]
    ext id
    exact and_iff_right hrep.1
  rw [hchanged]
  exact ⟨Finset.finite_toSet _, (Set.ncard_coe_finset _).trans (hcard.trans hrep.2)⟩

/-! ### The sum of the dismissals -/

/-- The number that a call of a user has answered as that of the dismissed notifications. -/
def deletedNumber (userId : JsString) : Option (Thread NotificationQuery NotificationAnswer
    (Except NotificationError NotificationReply) NotificationCall) → ℕ
  | some ⟨.dismiss caller _ _ _, _, .done (.ok (.deleted n))⟩ =>
    if caller.id = userId then n else 0
  | _ => 0

/-- A call that does not dismiss for the user reports no number for the user. -/
theorem deletedNumber_of_ne {th : Thread NotificationQuery NotificationAnswer
    (Except NotificationError NotificationReply) NotificationCall}
    (h : th.op.dismisser ≠ some userId) : deletedNumber userId (some th) = 0 := by
  obtain ⟨op, hist, rest⟩ := th
  unfold deletedNumber
  split
  · rename_i heq
    cases heq
    exact if_neg fun he ↦ h (congrArg some he)
  · rfl

/-- A dismissing call has answered when it has committed, and not before. -/
theorem deletedNumber_of_reach (hw : Reach (notifications C) (fun _ _ ↦ True) (.init .init) w)
    {t : ℕ} {th : Thread NotificationQuery NotificationAnswer
      (Except NotificationError NotificationReply) NotificationCall} (ht : w.threads t = some th)
    (hop : th.op.dismisser = some userId) :
    (Committed th.history → deletedNumber userId (some th) = (changes th.history).length) ∧
      (¬ Committed th.history → deletedNumber userId (some th) = 0) := by
  have hask : ∀ op, ((notifications C).task op).AsksAfter (Justified op) (Reported op) [] :=
    asking_task
  have hrest := hw.asksAfter hask ht
  obtain ⟨op, hist, rest⟩ := th
  cases op with
  | dismiss caller ids allRead now =>
    obtain rfl : caller.id = userId := Option.some.inj hop
    cases rest with
    | ask q k =>
      have hopen : IsOpen hist := by
        obtain ⟨hq, -⟩ := hrest
        cases q with
        | begin => exact hq.1
        | commit | select => exact hq.2
        | write => exact hq.2.1
        | _ => cases hq
      exact ⟨fun hc ↦ (hopen.not_committed hc).elim, fun _ ↦ rfl⟩
    | done r =>
      rcases r with e | reply
      · exact ⟨fun hc ↦ (hrest nofun hc).elim, fun _ ↦ rfl⟩
      · cases reply with
        | deleted n =>
          obtain ⟨-, hcom, hlen⟩ := hrest
          refine ⟨fun _ ↦ ?_, fun hc ↦ (hc hcom).elim⟩
          rw [hlen]
          exact if_pos rfl
        | updated n => cases hrest.1
        | _ => exact ⟨fun hc ↦ (hrest nofun hc).elim, fun _ ↦ rfl⟩
  | _ => cases hop

/-- A sum in which one term grows. -/
private theorem sum_map_of_eq {f f' : ℕ → ℕ} {l : List ℕ} {t d : ℕ} (hnodup : l.Nodup)
    (ht : t ∈ l) (hother : ∀ t' ∈ l, t' ≠ t → f' t' = f t') (hself : f' t = f t + d) :
    (l.map f').sum = (l.map f).sum + d := by
  induction l with
  | nil => cases ht
  | cons a l ih =>
    obtain ⟨ha, hnodup⟩ := List.nodup_cons.1 hnodup
    rw [List.map_cons, List.map_cons, List.sum_cons, List.sum_cons]
    rcases List.mem_cons.1 ht with rfl | ht
    · have : l.map f' = l.map f := List.map_congr_left fun t' ht' ↦
        hother t' (List.mem_cons_of_mem _ ht') fun he ↦ ha (he ▸ ht')
      rw [this, hself]
      omega
    · rw [ih hnodup ht fun t' ht' ↦ hother t' (List.mem_cons_of_mem _ ht'),
        hother a List.mem_cons_self fun he ↦ ha (he ▸ ht)]
      omega

/-- What a dismissing call writes is a dismissal of what was not dismissed before. -/
theorem dismisses_of_mayWrite {op : NotificationCall} {wr : ReceiptWrite} {x : Option Receipt}
    {r : Receipt} (hop : op.dismisser ≠ none) (hmay : op.MayWrite id wr)
    (h : wr.apply x = some r) :
    r.dismissedAt.isSome ∧ ∀ r', x = some r' → r'.dismissedAt = none := by
  cases op with
  | dismiss caller ids allRead now =>
    rcases x with _ | ⟨readAt, dismissedAt⟩ <;> rcases hmay with rfl | rfl | rfl
    · cases h
    · cases h
      exact ⟨rfl, nofun⟩
    · cases h
    · cases readAt <;> cases dismissedAt <;> simp [ReceiptWrite.apply] at h
      subst h
      refine ⟨rfl, ?_⟩
      rintro _ ⟨⟩
      rfl
    · cases h
    · cases dismissedAt <;> simp [ReceiptWrite.apply] at h
      subst h
      refine ⟨rfl, ?_⟩
      rintro _ ⟨⟩
      rfl
  | _ => exact (hop rfl).elim

/-- What another call writes is a dismissal only of what was dismissed before. -/
theorem dismissed_of_mayWrite {op : NotificationCall} {wr : ReceiptWrite} {x : Option Receipt}
    {r : Receipt} (hop : op.dismisser = none) (hmay : op.MayWrite id wr)
    (h : wr.apply x = some r) (hr : r.dismissedAt.isSome) :
    ∃ r', x = some r' ∧ r'.dismissedAt.isSome := by
  cases op with
  | markRead caller id' now | markManyRead caller ids now =>
    cases hmay
    rcases x with _ | ⟨readAt, dismissedAt⟩
    · cases h
      cases hr
    · cases readAt <;> cases dismissedAt <;> simp [ReceiptWrite.apply] at h
      subst h
      cases hr
  | markUnread caller id' =>
    obtain ⟨-, rfl⟩ := hmay
    rcases x with _ | ⟨readAt, dismissedAt⟩
    · cases h
    · cases readAt <;> simp [ReceiptWrite.apply] at h
      subst h
      exact ⟨_, rfl, hr⟩
  | dismiss caller ids allRead now => cases hop
  | _ => exact hmay.elim

/-- Being dismissed is a matter of the committed receipt. -/
theorem dismissed_iff_of_committed_eq
    (h : s.committed userId id = s'.committed userId id) :
    Dismissed s userId id ↔ Dismissed s' userId id := by
  unfold Dismissed
  rw [h]

/-- An answer other than to a commit dismisses nothing. -/
theorem committed_of_not_commit (hw : Reach (notifications C) (fun _ _ ↦ True) (.init .init) w)
    {t : ℕ} {x : NotificationExchange} (h : Step (notifications C) w (.exchange t x) w')
    (hx : ∀ tx, x ≠ ⟨.commit tx, some ()⟩) (userId id : JsString) :
    w.state.committed userId id = w'.state.committed userId id := by
  by_contra hne
  obtain ⟨r, t₁, tx₁, th₁, hc, -⟩ := commits_of_step hw h hne
  refine hx tx₁ ?_
  cases hc.event
  rfl

/-- What is dismissed when a call commits. -/
theorem dismissed_of_commit (userId : JsString)
    (hw : Reach (notifications C) (fun _ _ ↦ True) (.init .init) w) {t : ℕ}
    {op : NotificationCall} {h : List NotificationExchange}
    {k : NotificationAnswer (.commit tx) → Task NotificationQuery NotificationAnswer
      (Except NotificationError NotificationReply)}
    (ht : w.threads t = some ⟨op, h, .ask (.commit tx) k⟩) :
    (∀ id, op.dismisser = some userId → (userId, id) ∈ changes h →
      ¬ Dismissed w.state userId id ∧ Dismissed (w.state.commit tx) userId id) ∧
    ∀ id, Dismissed (w.state.commit tx) userId id → ¬ Dismissed w.state userId id →
      op.dismisser = some userId ∧ (userId, id) ∈ changes h := by
  have hstep : Step (notifications C) w _ _ := .exchange ht (.commit w.state tx)
  have hwrite : ∀ id, w.state.committed userId id ≠ (w.state.commit tx).committed userId id →
      (userId, id) ∈ changes h ∧ ∃ r wr, op.MayWrite id wr ∧
        wr.apply (w.state.committed userId id) = some r ∧
        (w.state.commit tx).committed userId id = some r := by
    intro id hne
    obtain ⟨r, t₁, tx₁, th₁, ⟨hevent, hthread, -, hmem, wr, hmay, happly⟩, hr⟩ :=
      commits_of_step hw hstep hne
    cases hevent
    rw [ht] at hthread
    cases hthread
    exact ⟨hmem, r, wr, hmay, happly, hr⟩
  refine ⟨fun id hop hmem ↦ ?_, fun id hafter hbefore ↦ ?_⟩
  · obtain ⟨-, r, wr, hmay, happly, hr⟩ := hwrite id (ne_of_commit hw ht hmem)
    obtain ⟨hdis, hnot⟩ := dismisses_of_mayWrite (by rw [hop]; exact nofun) hmay happly
    refine ⟨?_, r, hr, hdis⟩
    rintro ⟨r', hr', hdis'⟩
    rw [hnot r' hr'] at hdis'
    cases hdis'
  · have hne : w.state.committed userId id ≠ (w.state.commit tx).committed userId id :=
      fun he ↦ hbefore ((dismissed_iff_of_committed_eq he).2 hafter)
    obtain ⟨hmem, r, wr, hmay, happly, hr⟩ := hwrite id hne
    refine ⟨?_, hmem⟩
    obtain ⟨r', hr', hdis⟩ := hafter
    rw [hr] at hr'
    cases hr'
    by_cases hop : op.dismisser = none
    · obtain ⟨r', hr', hdis'⟩ := dismissed_of_mayWrite hop hmay happly hdis
      exact (hbefore ⟨r', hr', hdis'⟩).elim
    · -- The one who dismisses does it for the user of the receipt.
      obtain ⟨caller, hc, hid, -⟩ := (consistent_of_reach hw).own _ _ _ ht hmem
      cases op with
      | dismiss caller' ids allRead now =>
        cases hc
        exact congrArg some hid
      | _ => exact (hop rfl).elim

/-- The numbers that the dismissing calls of a user have answered add up to what is dismissed. -/
def AddsUp (userId : JsString) (w : NotificationWorld) : Prop :=
  ∃ F : Finset JsString, (∀ id, id ∈ F ↔ Dismissed w.state userId id) ∧
    F.card = ((started w.log).map fun t ↦ deletedNumber userId (w.threads t)).sum

namespace AddsUp

variable {t : ℕ} {op : NotificationCall} {h : List NotificationExchange} {q : NotificationQuery}
  {a : NotificationAnswer q}
  {k : NotificationAnswer q → Task NotificationQuery NotificationAnswer
    (Except NotificationError NotificationReply)}

/-- A call that starts has answered nothing. -/
theorem start (hw : Reach (notifications C) (fun _ _ ↦ True) (.init .init) w)
    (ha : AddsUp userId w) (ht : w.threads t = none) :
    AddsUp userId ⟨w.state, Function.update w.threads t (some ⟨op, [], (notifications C).task op⟩),
      .start t op :: w.log⟩ := by
  obtain ⟨F, hF, hcard⟩ := ha
  refine ⟨F, hF, hcard.trans ?_⟩
  have hstep : Step (notifications C) w (.start t op) _ := .start ht
  have hw' := hw.step trivial hstep
  have hzero : deletedNumber userId (some ⟨op, [], (notifications C).task op⟩) = 0 := by
    by_cases hop : op.dismisser = some userId
    · refine (deletedNumber_of_reach hw' (Function.update_self ..) hop).2 ?_
      rintro ⟨tx, htx⟩
      cases htx
    · exact deletedNumber_of_ne hop
  have hother : ∀ t' ∈ started w.log, deletedNumber userId (w.threads t') =
      deletedNumber userId (Function.update w.threads t
        (some ⟨op, [], (notifications C).task op⟩) t') := by
    intro t' ht'
    obtain ⟨th, hth⟩ := hw.mem_started.1 ht'
    refine congrArg _ (Function.update_of_ne ?_ ..).symm
    rintro rfl
    rw [ht] at hth
    cases hth
  change _ = ((t :: started w.log).map _).sum
  rw [List.map_cons, List.sum_cons, List.map_congr_left hother]
  dsimp only
  rw [Function.update_self, hzero, zero_add]

/-- What an exchange adds to the sum. -/
private theorem sum_exchange (hw : Reach (notifications C) (fun _ _ ↦ True) (.init .init) w)
    (ht : w.threads t = some ⟨op, h, .ask q k⟩) {d : ℕ}
    (hd : deletedNumber userId (some ⟨op, h ++ [⟨q, a⟩], k a⟩) =
      deletedNumber userId (some ⟨op, h, .ask q k⟩) + d) :
    ((started w.log).map fun t' ↦ deletedNumber userId
      (Function.update w.threads t (some ⟨op, h ++ [⟨q, a⟩], k a⟩) t')).sum =
    ((started w.log).map fun t' ↦ deletedNumber userId (w.threads t')).sum + d := by
  refine sum_map_of_eq hw.nodup_started (hw.mem_started.2 ⟨_, ht⟩) (fun t' _ hne ↦ ?_) ?_
  · exact congrArg _ (Function.update_of_ne hne ..)
  · rw [Function.update_self, ht]
    exact hd

/-- When a dismissing call commits, it answers the number of what it has changed. -/
theorem commit_dismisser (hw : Reach (notifications C) (fun _ _ ↦ True) (.init .init) w)
    (ha : AddsUp userId w)
    {k : NotificationAnswer (.commit tx) → Task NotificationQuery NotificationAnswer
      (Except NotificationError NotificationReply)}
    (ht : w.threads t = some ⟨op, h, .ask (.commit tx) k⟩) (hop : op.dismisser = some userId) :
    AddsUp userId ⟨w.state.commit tx,
      Function.update w.threads t (some ⟨op, h ++ [⟨.commit tx, some ()⟩], k (some ())⟩),
      .exchange t ⟨.commit tx, some ()⟩ :: w.log⟩ := by
  obtain ⟨F, hF, hcard⟩ := ha
  have hstep : Step (notifications C) w _ _ := .exchange ht (.commit w.state tx)
  obtain ⟨hnew, honly⟩ := dismissed_of_commit userId hw ht
  obtain ⟨hset, hlen⟩ := ncard_of_changes userId ((consistent_of_reach hw).nodup _ _ ht) (by
    intro key hkey
    obtain ⟨caller, hc, hid, -⟩ := (consistent_of_reach hw).own _ _ _ ht hkey
    cases op with
    | dismiss caller' ids allRead now =>
      cases hc
      exact hid.symm.trans (Option.some.inj hop)
    | _ => cases hop)
  have hG : ∀ id, id ∈ ((changes h).map (·.2)).toFinset ↔ (userId, id) ∈ changes h :=
    fun id ↦ (Set.ext_iff.1 hset id).symm
  refine ⟨F ∪ ((changes h).map (·.2)).toFinset, fun id ↦ ?_, ?_⟩
  · rw [Finset.mem_union, hF, hG]
    constructor
    · rintro (hid | hid)
      · exact hid.step hw hstep
      · exact (hnew id hop hid).2
    · intro hid
      by_cases hbefore : Dismissed w.state userId id
      · exact .inl hbefore
      · exact .inr (honly id hid hbefore).2
  · rw [Finset.card_union_of_disjoint, hcard, hlen]
    · refine (sum_exchange hw ht ?_).symm
      have hopen := (justified_of_reach hw ht).2
      rw [(deletedNumber_of_reach hw ht hop).2 hopen.not_committed, zero_add]
      refine ((deletedNumber_of_reach (hw.step trivial hstep) (Function.update_self ..) hop).1
        (committed_snoc.2 (.inr ⟨tx, rfl⟩))).trans ?_
      rw [changes_snoc_of_none rfl]
    · refine Finset.disjoint_left.2 fun id hid hid' ↦ ?_
      exact (hnew id hop ((hG id).1 hid')).1 ((hF id).1 hid)

/-- When another call commits, nothing is dismissed for the user. -/
theorem commit_other (hw : Reach (notifications C) (fun _ _ ↦ True) (.init .init) w)
    (ha : AddsUp userId w)
    {k : NotificationAnswer (.commit tx) → Task NotificationQuery NotificationAnswer
      (Except NotificationError NotificationReply)}
    (ht : w.threads t = some ⟨op, h, .ask (.commit tx) k⟩) (hop : op.dismisser ≠ some userId) :
    AddsUp userId ⟨w.state.commit tx,
      Function.update w.threads t (some ⟨op, h ++ [⟨.commit tx, some ()⟩], k (some ())⟩),
      .exchange t ⟨.commit tx, some ()⟩ :: w.log⟩ := by
  obtain ⟨F, hF, hcard⟩ := ha
  have hstep : Step (notifications C) w _ _ := .exchange ht (.commit w.state tx)
  refine ⟨F, fun id ↦ ?_, hcard.trans ?_⟩
  · rw [hF]
    refine ⟨fun hid ↦ hid.step hw hstep, fun hid ↦ ?_⟩
    by_contra hbefore
    exact hop ((dismissed_of_commit userId hw ht).2 id hid hbefore).1
  · refine (sum_exchange hw ht (d := 0) ?_).symm
    rw [deletedNumber_of_ne hop, deletedNumber_of_ne hop]

/-- A request that is no commit dismisses nothing, and no call ends by it with a number. -/
theorem exchange_other (hw : Reach (notifications C) (fun _ _ ↦ True) (.init .init) w)
    (ha : AddsUp userId w) (ht : w.threads t = some ⟨op, h, .ask q k⟩)
    (hd : NotificationDoes w.state q a s')
    (hcommit : ¬ ∃ tx, (⟨q, a⟩ : NotificationExchange) = ⟨.commit tx, some ()⟩) :
    AddsUp userId ⟨s', Function.update w.threads t (some ⟨op, h ++ [⟨q, a⟩], k a⟩),
      .exchange t ⟨q, a⟩ :: w.log⟩ := by
  obtain ⟨F, hF, hcard⟩ := ha
  have hstep : Step (notifications C) w _ _ := .exchange ht hd
  have hsame := committed_of_not_commit hw hstep (fun tx htx ↦ hcommit ⟨tx, htx⟩) userId
  refine ⟨F, fun id ↦ (hF id).trans (dismissed_iff_of_committed_eq (hsame id)), hcard.trans ?_⟩
  refine (sum_exchange hw ht (d := 0) ?_).symm
  by_cases hop : op.dismisser = some userId
  · -- a dismissing call sends requests only while its transaction is open
    have hopen : IsOpen h := by
      have hq := justified_of_reach hw ht
      cases q with
      | begin => exact hq.1
      | commit | select => exact hq.2
      | write => exact hq.2.1
      | _ =>
        rw [hq] at hop
        cases hop
    have hafter : ¬ Committed (h ++ [⟨q, a⟩]) := fun hc ↦
      (committed_snoc.1 hc).elim hopen.not_committed hcommit
    rw [(deletedNumber_of_reach (hw.step trivial hstep) (Function.update_self ..) hop).2 hafter,
      (deletedNumber_of_reach hw ht hop).2 hopen.not_committed]
  · rw [deletedNumber_of_ne hop, deletedNumber_of_ne hop]

end AddsUp

/-- In every state of a run the numbers of the user's dismissals add up to what is dismissed. -/
theorem sum_of_reach (hw : Reach (notifications C) (fun _ _ ↦ True) (.init .init) w)
    (userId : JsString) : AddsUp userId w := by
  induction hw with
  | init =>
    refine ⟨∅, fun id ↦ ⟨fun h ↦ (Finset.notMem_empty _ h).elim, ?_⟩, rfl⟩
    rintro ⟨r, hr, -⟩
    cases hr
  | @step w w' e hw _ h ih =>
    cases h with
    | environment hs => exact hs.elim
    | start ht => exact ih.start hw ht
    | @exchange t op h q k a s' ht hd =>
      by_cases hcommit : ∃ tx, (⟨q, a⟩ : NotificationExchange) = ⟨.commit tx, some ()⟩
      · obtain ⟨tx, hcommit⟩ := hcommit
        cases hcommit
        obtain rfl : s' = w.state.commit tx := by
          cases hd
          rfl
        by_cases hop : op.dismisser = some userId
        · exact ih.commit_dismisser hw ht hop
        · exact ih.commit_other hw ht hop
      · exact ih.exchange_other hw ht hd hcommit

/-! ### What the lists and the counts show -/

/-- What the answers of the calls that read are made of. -/
def ReadFrom (C : NotificationConfig) (op : NotificationCall) (h : List NotificationExchange)
    (r : Except NotificationError NotificationReply) : Prop :=
  (∀ caller query now countFirst, op = .list caller query now countFirst →
    ∀ data page limit total pages, r = .ok (.page data page limit total pages) →
      let filter := notificationListWhere C caller query (periodFloor query.period now)
      (∃ skip take rows, data = rows.map toAdminNotificationDto ∧
        (⟨.findMany filter caller.id skip take, some rows⟩ : NotificationExchange) ∈ h) ∧
      (⟨.count filter, some total⟩ : NotificationExchange) ∈ h) ∧
  ∀ caller, op = .unreadCount caller → ∀ count, r = .ok (.unread count) →
    ∃ groups, count = toUnreadCount groups ∧
      (⟨.groupByCategory (allOf [visibleTo caller, unreadFor caller.id]), some groups⟩ :
        NotificationExchange) ∈ h

/-- A call that fails shows nothing. -/
theorem readFrom_error {op : NotificationCall} {h : List NotificationExchange}
    {e : NotificationError} : ReadFrom C op h (.error e) := by
  constructor
  · intro caller query now countFirst _ data page limit total pages hr
    cases hr
  · intro caller _ count hr
    cases hr

/-- Nor does one that neither lists nor counts. -/
theorem readFrom_other {op : NotificationCall} {h : List NotificationExchange}
    {r : Except NotificationError NotificationReply}
    (hlist : ∀ caller query now countFirst, op ≠ .list caller query now countFirst)
    (hunread : ∀ caller, op ≠ .unreadCount caller) : ReadFrom C op h r :=
  ⟨fun _ _ _ _ hop ↦ (hlist _ _ _ _ hop).elim, fun _ hop ↦ (hunread _ hop).elim⟩

/-- A page shows the rows and the total that were read. -/
theorem readFrom_page {caller : NotificationCaller} {query : ListAdminNotificationsQuery} {now : ℤ}
    {countFirst : Bool} {h : List NotificationExchange} {skip take page limit total pages : ℕ}
    {rows : List (AdminNotification × Option Receipt)}
    (hrows : (⟨.findMany (notificationListWhere C caller query (periodFloor query.period now))
      caller.id skip take, some rows⟩ : NotificationExchange) ∈ h)
    (htotal : (⟨.count (notificationListWhere C caller query (periodFloor query.period now)),
      some total⟩ : NotificationExchange) ∈ h) :
    ReadFrom C (.list caller query now countFirst) h
      (.ok (.page (rows.map toAdminNotificationDto) page limit total pages)) := by
  constructor
  · intro caller' query' now' countFirst' hop data page' limit' total' pages' hr
    cases hop
    cases hr
    exact ⟨⟨skip, take, rows, rfl, hrows⟩, htotal⟩
  · intro caller' hop
    cases hop

/-- Every call shows only what it has read. -/
theorem readFrom_task (op : NotificationCall) :
    ((notifications C).task op).AsksAfter (fun _ _ ↦ True) (ReadFrom C op) [] := by
  cases op with
  | list caller query now countFirst =>
    change (list C caller query now countFirst).run.AsksAfter _ _ []
    unfold list
    cases countFirst with
    | true =>
      refine ⟨trivial, fun total ↦ ?_⟩
      rcases total with _ | total
      · exact readFrom_error
      refine ⟨trivial, fun rows ↦ ?_⟩
      rcases rows with _ | rows
      · exact readFrom_error
      exact readFrom_page (List.mem_append_right _ List.mem_cons_self)
        (List.mem_append_left _ (List.mem_append_right [] List.mem_cons_self))
    | false =>
      refine ⟨trivial, fun rows ↦ ?_⟩
      rcases rows with _ | rows
      · exact readFrom_error
      refine ⟨trivial, fun total ↦ ?_⟩
      rcases total with _ | total
      · exact readFrom_error
      exact readFrom_page
        (List.mem_append_left _ (List.mem_append_right [] List.mem_cons_self))
        (List.mem_append_right _ List.mem_cons_self)
  | unreadCount caller =>
    refine ⟨trivial, fun groups ↦ ?_⟩
    rcases groups with _ | groups
    · exact readFrom_error
    constructor
    · intro caller' query now countFirst hop
      cases hop
    · intro caller' hop count hr
      cases hop
      cases hr
      exact ⟨groups, rfl, List.mem_cons_self⟩
  | _ =>
    exact Task.asksAfter_of_forall (fun _ _ ↦ trivial)
      (fun _ _ ↦ readFrom_other (fun _ _ _ _ hop ↦ by cases hop) fun _ hop ↦ by cases hop) _ _

/-- A number of notifications at some time of a run, none of which is the one. -/
def CountsWithout (C : NotificationConfig) (w : NotificationWorld) (filter : NotificationFilter)
    (id : JsString) (total : ℕ) : Prop :=
  ∃ w₁, Reach (notifications C) (fun _ _ ↦ True) w w₁ ∧
    total = (w₁.state.matching filter w₁.state.committed).length ∧
    ∀ n ∈ w₁.state.matching filter w₁.state.committed, n.id ≠ id

/-- What was dismissed before a call is not in its list, nor in its counts. -/
structure Hidden (C : NotificationConfig) (w : NotificationWorld) (id : JsString)
    (th : Thread NotificationQuery NotificationAnswer (Except NotificationError NotificationReply)
      NotificationCall) : Prop where
  page : ∀ caller query now countFirst, th.op = .list caller query now countFirst →
    ∀ data page limit total pages, th.rest = .done (.ok (.page data page limit total pages)) →
      (∀ row ∈ data, row.id ≠ id) ∧ CountsWithout C w
        (notificationListWhere C caller query (periodFloor query.period now)) id total
  unread : ∀ caller, th.op = .unreadCount caller →
    ∀ count, th.rest = .done (.ok (.unread count)) →
      CountsWithout C w (allOf [visibleTo caller, unreadFor caller.id]) id count.total

/-- What is dismissed is in no answer of a call that starts afterwards. -/
theorem hidden_of_dismissed (hw : Reach (notifications C) (fun _ _ ↦ True) (.init .init) w)
    (hdis : Dismissed w.state userId id)
    (hrun : Reach (notifications C) (fun _ _ ↦ True) w w') {t : ℕ}
    {th : Thread NotificationQuery NotificationAnswer (Except NotificationError NotificationReply)
      NotificationCall} (hfree : w.threads t = none) (ht : w'.threads t = some th)
    {caller : NotificationCaller} (hcaller : th.op.caller = some caller)
    (hid : caller.id = userId) : Hidden C w id th := by
  subst hid
  have hread := (hw.trans hrun).asksAfter (readFrom_task (C := C)) ht
  -- Whatever the call was told it was told when the notification was dismissed.
  have told : ∀ x ∈ th.history, ∃ w₁ s, Reach (notifications C) (fun _ _ ↦ True) w w₁ ∧
      NotificationDoes w₁.state x.1 x.2 s ∧ Dismissed w₁.state caller.id id := by
    intro x hx
    obtain ⟨w₁, w₂, hw₁, hstep, -⟩ := hrun.answered hfree ht hx
    cases hstep with
    | exchange _ hd => exact ⟨w₁, _, hw₁, hd, hdis.reach hw hw₁⟩
  constructor
  · intro caller' query now countFirst hop data page limit total pages hrest
    rw [hop] at hcaller
    cases hcaller
    rw [hrest] at hread
    obtain ⟨⟨skip, take, rows, rfl, hfind⟩, hcount⟩ := hread.1 _ _ _ _ hop _ _ _ _ _ rfl
    have hvisible : ∀ receipts n,
        notificationListWhere C caller query (periodFloor query.period now) receipts n = true →
        visibleTo caller receipts n = true := fun _ _ ↦ visibleTo_of_listWhere
    refine ⟨fun row hrow ↦ ?_, ?_⟩
    · obtain ⟨w₁, s₁, -, hd, hdis₁⟩ := told _ hfind
      obtain ⟨⟨n, receipt⟩, hn, rfl⟩ := List.mem_map.1 hrow
      cases hd with
      | findMany =>
        obtain ⟨n', hn', he⟩ := List.mem_map.1 hn
        cases he
        refine hdis₁.not_matching hvisible n ?_
        exact List.mem_mergeSort.1 (List.mem_of_mem_drop (List.mem_of_mem_take hn'))
    · obtain ⟨w₁, s₁, hw₁, hd, hdis₁⟩ := told _ hcount
      cases hd with
      | count =>
        exact ⟨w₁, hw₁, rfl, hdis₁.not_matching hvisible⟩
  · intro caller' hop count hrest
    rw [hop] at hcaller
    cases hcaller
    rw [hrest] at hread
    obtain ⟨groups, rfl, hgroups⟩ := hread.2 _ hop _ rfl
    obtain ⟨w₁, s₁, hw₁, hd, hdis₁⟩ := told _ hgroups
    cases hd with
    | groupByCategory _ _ h =>
      exact ⟨w₁, hw₁, total_of_isGroupBy h,
        hdis₁.not_matching fun _ _ hp ↦ (allOf_pair.1 hp).1⟩

/-! ### Calls that run alone -/

section Alone

variable {α β : Type} {caller : NotificationCaller}

/-- If the call, running alone, ends with a result, that meets `post`. -/
def Ends (p : NotificationTask α) (post : α → NotificationState → Prop) (s : NotificationState) :
    Prop :=
  p.run.wp NotificationDoes (fun _ r s' ↦ ∀ a, r = .ok a → post a s') s

/-- A call that returns at its end. -/
theorem ends_return {a : α} {post : α → NotificationState → Prop} (h : post a s) :
    Ends (pure a) post s := by
  rintro _ ⟨⟩
  exact h

/-- The condition of a sequence, through that of its first part. -/
theorem ends_bind {p : NotificationTask α} {f : α → NotificationTask β}
    {post : β → NotificationState → Prop} (h : Ends p (fun a s ↦ Ends (f a) post s) s) :
    Ends (p >>= f) post s := by
  refine Task.wp_bind (Task.wp_mono h fun h r s hr ↦ ?_)
  cases r with
  | ok a => exact hr a rfl
  | error e =>
    rintro _ ⟨⟩

/-- A command and what follows its result. -/
theorem ends_send_bind {q : NotificationQuery} {f : NotificationResult q → NotificationTask β}
    {post : β → NotificationState → Prop}
    (h : ∀ a s', NotificationDoes s q (some a) s' → Ends (f a) post s') :
    Ends (send q >>= f) post s := by
  intro a s' hd
  cases a with
  | none =>
    rintro _ ⟨⟩
  | some a => exact h a s' hd

/-- What is promised at the end holds where a run ends. -/
theorem Ends.of_runs {p : NotificationTask α} {post : α → NotificationState → Prop}
    (h : Ends p post s) {hist : List NotificationExchange} {a : α}
    (hr : Runs NotificationDoes s p.run hist (.ok a) s') : post a s' :=
  hr.wp h a rfl

/-- The unread notifications of a user. -/
def unread (caller : NotificationCaller) (s : NotificationState) : List AdminNotification :=
  s.matching (allOf [visibleTo caller, unreadFor caller.id]) s.committed

/-- Alone, the badge counts the caller's unread notifications. -/
theorem ends_unreadCount :
    Ends (unreadCount caller)
      (fun reply _ ↦ ∃ count,
        reply = .unread count ∧ count.total = (unread caller s).length) s := by
  refine ends_send_bind fun groups s' hd ↦ ends_return ⟨_, rfl, ?_⟩
  cases hd with
  | groupByCategory _ _ h => exact total_of_isGroupBy h

/-- The query asks for what is unread, and for nothing else. -/
structure AsksUnread (query : ListAdminNotificationsQuery) : Prop where
  category : query.category = none
  isRead : query.isRead = some false
  period : query.period = none
  search : notificationSearchTerm query.search = none

/-- The condition of a list of unread notifications. -/
theorem AsksUnread.listWhere {query : ListAdminNotificationsQuery} (h : AsksUnread query)
    (now : ℤ) : notificationListWhere C caller query (periodFloor query.period now) =
      allOf [visibleTo caller, unreadFor caller.id] := by
  unfold notificationListWhere periodFloor
  rw [h.category, h.isRead, h.period, h.search]
  rfl

/-- Alone, such a list has the same total. -/
theorem ends_list {query : ListAdminNotificationsQuery} (h : AsksUnread query) {now : ℤ}
    {countFirst : Bool} :
    Ends (list C caller query now countFirst) (fun reply _ ↦ ∃ data page limit total pages,
      reply = .page data page limit total pages ∧ total = (unread caller s).length) s := by
  unfold list
  rw [h.listWhere now]
  cases countFirst with
  | true =>
    refine ends_send_bind fun total s' hd ↦ ends_send_bind fun rows s'' hd' ↦
      ends_return ⟨_, _, _, _, _, rfl, ?_⟩
    cases hd
    rfl
  | false =>
    refine ends_send_bind fun rows s' hd ↦ ends_send_bind fun total s'' hd' ↦
      ends_return ⟨_, _, _, _, _, rfl, ?_⟩
    cases hd
    cases hd'
    rfl

/-- The receipt says that the notification was read, or that it was dismissed. -/
def Settled (x : Option Receipt) : Prop :=
  ∃ r, x = some r ∧ (r.readAt.isSome ∨ r.dismissedAt.isSome)

/-- Marking read passes over what is settled and settles the rest. -/
theorem apply_markRead (now : ℤ) (x : Option Receipt) :
    (Settled x → (ReceiptWrite.markRead now).apply x = none) ∧
      ∀ r, (ReceiptWrite.markRead now).apply x = some r → r.readAt.isSome := by
  rcases x with _ | ⟨readAt, dismissedAt⟩
  · refine ⟨?_, ?_⟩
    · rintro ⟨r, ⟨⟩, -⟩
    · rintro r ⟨⟩
      rfl
  · refine ⟨?_, fun r hr ↦ ?_⟩
    · rintro ⟨r, ⟨⟩, hr⟩
      cases readAt <;> cases dismissedAt <;> simp [ReceiptWrite.apply] at hr ⊢
    · cases readAt <;> cases dismissedAt <;> simp [ReceiptWrite.apply] at hr
      subst hr
      rfl

/-- What it passes over was settled. -/
theorem settled_of_apply {now : ℤ} {x : Option Receipt}
    (h : (ReceiptWrite.markRead now).apply x = none) : Settled x := by
  rcases x with _ | ⟨readAt, dismissedAt⟩
  · cases h
  · cases readAt with
    | some at' => exact ⟨_, rfl, .inl rfl⟩
    | none =>
      cases dismissedAt with
      | some at' => exact ⟨_, rfl, .inr rfl⟩
      | none => simp [ReceiptWrite.apply] at h

/-- After a write of `markManyRead` the transaction sees the notification as settled, and what it
has seen as settled stays so. -/
theorem settled_of_write {now : ℤ} (id' : JsString)
    (h : Settled (s.seenBy tx userId id') ∨ id' = id) :
    Settled ((s.write tx userId id (.markRead now)).seenBy tx userId id') := by
  rw [seenBy_write]
  split_ifs with hid
  · cases happly : (ReceiptWrite.markRead now).apply (s.seenBy tx userId id) with
    | none => exact settled_of_apply happly
    | some r => exact ⟨r, rfl, .inl ((apply_markRead now _).2 r happly)⟩
  · exact h.resolve_right hid

/-- After `writeEach` every id asked for is settled. -/
theorem ends_writeEach {now : ℤ} {ids : List JsString} :
    Ends (writeEach tx userId (.markRead now) ids)
      (fun _ s' ↦ s'.notifications = s.notifications ∧
        ∀ id, Settled (s.seenBy tx userId id) ∨ id ∈ ids → Settled (s'.seenBy tx userId id)) s := by
  induction ids generalizing s with
  | nil => exact ends_return ⟨rfl, fun id h ↦ h.resolve_right List.not_mem_nil⟩
  | cons id ids ih =>
    refine ends_send_bind fun changed s' hd ↦ ends_bind ?_
    cases hd with
    | write _ _ _ _ hfree =>
      refine Task.wp_mono ih fun _ r s' hr n hn ↦ ends_return ?_
      obtain ⟨hnotif, hset⟩ := hr n hn
      refine ⟨hnotif, fun id' hid' ↦ hset id' ?_⟩
      rw [List.mem_cons] at hid'
      rcases hid' with hid' | rfl | hid'
      · exact .inl (settled_of_write id' (.inl hid'))
      · exact .inl (settled_of_write id' (.inr rfl))
      · exact .inr hid'

/-- Nothing is unread after a `markManyRead` without ids. -/
theorem ends_markManyRead {now : ℤ} :
    Ends (markManyRead caller none now) (fun _ s' ↦ unread caller s' = []) s := by
  refine ends_send_bind fun tx s₁ _ ↦ ends_bind (ends_send_bind fun ids s₂ hd ↦ ?_)
  refine Task.wp_mono ends_writeEach fun _ r s₃ hr n hn ↦
    ends_send_bind fun _ s₄ hd' ↦ ends_return ?_
  obtain ⟨hnotif, hset⟩ := hr n hn
  cases hd with
  | select _ _ _ hids =>
    cases hd' with
    | commit =>
      refine List.filter_eq_nil_iff.2 fun m hm hp ↦ ?_
      change m ∈ s₃.notifications at hm
      rw [hnotif] at hm
      obtain ⟨hvisible, hunread⟩ := allOf_pair.1 hp
      obtain ⟨hrole, hdismissed⟩ := allOf_pair.1 hvisible
      -- The receipt is settled, either from the start or because the statement came to it.
      obtain ⟨r', hr', hsettled⟩ : Settled (s₃.seenBy tx caller.id m.id) := by
        refine hset m.id ?_
        rcases noReceipt_or_some (s₁.seenBy tx) m caller.id
          fun r ↦ r.readAt.isSome || r.dismissedAt.isSome with hnone | ⟨r, hr, hsettled⟩
        · refine .inr (mem_selected hids hm (List.all_eq_true.2 fun clause hclause ↦ ?_))
          simp only [List.mem_cons, List.not_mem_nil, or_false] at hclause
          rcases hclause with rfl | rfl | rfl
          · exact targetRoleIn_iff.2 (targetRoleIn_iff.1 hrole)
          · rfl
          · exact hnone
        · exact .inl ⟨r, hr, Bool.or_eq_true_iff.1 hsettled⟩
      unfold unreadFor noReceipt at hunread
      unfold noReceipt at hdismissed
      rw [committed_commit, hr'] at hunread hdismissed
      rcases hsettled with h | h
      · simp [h] at hunread
      · simp [h] at hdismissed

end Alone

/-! ### Receipts are exact -/

/-- In every run: what was dismissed stays so and is not shown to calls that start then; a dismissal
that has ended has dismissed what it names, and with `allRead` all that was read; a time of
reading is only taken back by `markUnread`; the numbers that are answered are those of the
notifications whose state the call has changed, and those of the dismissals add up; no call writes
the receipt of another user, or for a notification that its caller's role may not see; and the
counts of a call that runs alone are those of the list, and zero after a `markManyRead` without
ids. -/
theorem receipts_exact {l : List NotificationStep}
    (hw : Trace (notifications C) (fun _ _ ↦ True) (.init .init) l w) :
    (∀ userId id, Dismissed w.state userId id → ∀ w',
      Reach (notifications C) (fun _ _ ↦ True) w w' → Dismissed w'.state userId id ∧
        ∀ t th caller, w.threads t = none → w'.threads t = some th → th.op.caller = some caller →
          caller.id = userId → Hidden C w id th) ∧
    (∀ w', Reach (notifications C) (fun _ _ ↦ True) w w' → ∀ t th caller ids allRead now n,
      w.threads t = none → w'.threads t = some th → th.op = .dismiss caller ids allRead now →
      th.rest = .done (.ok (.deleted n)) → ∀ m ∈ w.state.notifications,
      m.targetRole ∈ visibleTargetRoles caller.role →
        ((∃ l, ids = some l ∧ m.id ∈ l) → Dismissed w'.state caller.id m.id) ∧
        (allRead = some true → SaysRead (w.state.committed caller.id m.id) →
          Reach (notifications C) (fun w e ↦ ¬ TakesBack caller.id m.id w e) w w' →
          Dismissed w'.state caller.id m.id)) ∧
    (∀ x ∈ l, ∀ userId id r readAt, x.1.state.committed userId id = some r →
      r.readAt = some readAt →
      (∃ r', x.2.2.state.committed userId id = some r' ∧ r'.readAt = some readAt) ∨
        TakesBack userId id x.1 x.2.1) ∧
    (∀ t th caller n, w.threads t = some th → th.op.caller = some caller →
      th.rest = .done (.ok (.updated n)) ∨ th.rest = .done (.ok (.deleted n)) →
      (changedBy l t caller.id).Finite ∧ (changedBy l t caller.id).ncard = n) ∧
    (∀ userId, {id | Dismissed w.state userId id}.Finite ∧
      ((started w.log).map fun t ↦ deletedNumber userId (w.threads t)).sum =
        {id | Dismissed w.state userId id}.ncard) ∧
    (∀ x ∈ l, ∀ userId id, x.1.state.receipts userId id ≠ x.2.2.state.receipts userId id →
      ∃ t y th caller, x.2.1 = .exchange t y ∧ x.1.threads t = some th ∧
        th.op.caller = some caller ∧ caller.id = userId ∧
        ∃ n ∈ x.2.2.state.notifications, n.id = id ∧
          n.targetRole ∈ visibleTargetRoles caller.role) ∧
    ∀ caller,
      (∀ query now countFirst, AsksUnread query → ∀ h h' s s' count data page limit total pages,
        Runs NotificationDoes w.state (unreadCount caller).run h (.ok (.unread count)) s →
        Runs NotificationDoes w.state (list C caller query now countFirst).run h'
          (.ok (.page data page limit total pages)) s' → count.total = total) ∧
      ∀ now h h' s s' n count,
        Runs NotificationDoes w.state (markManyRead caller none now).run h (.ok n) s →
        Runs NotificationDoes s (unreadCount caller).run h' (.ok (.unread count)) s' →
        count.total = 0 := by
  refine ⟨?_, ?_, ?_, ?_, ?_, ?_, ?_⟩
  · intro userId id hdis w' hrun
    exact ⟨hdis.reach hw.reach hrun, fun t th caller hfree ht hc hid ↦
      hidden_of_dismissed hw.reach hdis hrun hfree ht hc hid⟩
  · intro w' hrun t th caller ids allRead now n hfree ht hop hend m hm hrole
    refine ⟨fun hids ↦ ?_, fun hall hread hspared ↦ ?_⟩
    · exact dismissed_of_dismiss (fun _ ↦ False) hw.reach
        (hrun.imp fun _ _ _ _ h ↦ h.elim) hfree ht hop hend hm hrole (.inl hids)
    · exact dismissed_of_dismiss (fun id ↦ id = m.id) hw.reach
        (hspared.imp fun _ _ h _ hid ↦ hid ▸ h) hfree ht hop hend hm hrole (.inr ⟨hall, rfl, hread⟩)
  · intro x hx userId id r readAt hr hread
    obtain ⟨hreach, hstep⟩ := hw.step_of_mem hx
    exact readAt_of_step hreach hstep hr hread
  · exact fun t th caller n ht hc hn ↦ number_of_trace hw ht hc hn
  · intro userId
    obtain ⟨F, hF, hcard⟩ := sum_of_reach hw.reach userId
    have hset : {id | Dismissed w.state userId id} = (F : Set JsString) :=
      Set.ext fun id ↦ (hF id).symm
    rw [hset]
    exact ⟨F.finite_toSet, hcard.symm.trans (Set.ncard_coe_finset F).symm⟩
  · intro x hx userId id hne
    obtain ⟨hreach, hstep⟩ := hw.step_of_mem hx
    exact own_of_step hreach hstep hne
  · refine fun caller ↦ ⟨?_, ?_⟩
    · intro query now countFirst hquery h h' s s' count data page limit total pages hr hr'
      obtain ⟨count', hcount, htotal⟩ := ends_unreadCount.of_runs hr
      obtain ⟨_, _, _, _, _, hpage, htotal'⟩ := (ends_list hquery).of_runs hr'
      cases hcount
      cases hpage
      exact htotal.trans htotal'.symm
    · intro now h h' s s' n count hr hr'
      obtain ⟨count', hcount, htotal⟩ := ends_unreadCount.of_runs hr'
      cases hcount
      rw [htotal, ends_markManyRead.of_runs hr]
      rfl

private def exampleConfig : NotificationConfig := ⟨fun text ↦ text, fun _ _ ↦ false⟩

private def exampleInput : CreateAdminNotificationInput := ⟨.booking, [97], [98], none, none⟩

private def exampleRow : AdminNotification := ⟨[99], .booking, none, [97], [98], .all, 0⟩

private def exampleCaller : NotificationCaller := ⟨[1], .viewer⟩

private theorem create_runs :
    Runs NotificationDoes .init ((notifications exampleConfig).task (.create exampleInput))
      [⟨.create ⟨.booking, none, [97], [98], .all⟩, some exampleRow⟩] (.ok (.created exampleRow))
      { NotificationState.init with notifications := [exampleRow] } :=
  .ask (NotificationDoes.create .init ⟨.booking, none, [97], [98], .all⟩ [99] 0 nofun) (.refl _ _)

private theorem dismiss_runs : ∃ h s,
    Runs NotificationDoes { NotificationState.init with notifications := [exampleRow] }
      ((notifications exampleConfig).task (.dismiss exampleCaller (some [[99]]) none 5)) h
      (.ok (.deleted 1)) s :=
  ⟨[⟨.begin, some 0⟩,
      ⟨.select 0 (allOf [visibleTo exampleCaller, idIn [[99]]]), some [[99]]⟩,
      ⟨.write 0 [1] [99] (.createDismissed 5), some true⟩,
      ⟨.select 0 (allOf [idIn [[99]], someReceipt [1] fun r ↦ r.dismissedAt.isNone]), some []⟩,
      ⟨.commit 0, some ()⟩], _,
    .ask (.begin _) (.ask (.select _ 0 _ [[99]] (.refl _)) (.ask
      (.write _ 0 [1] [99] (.createDismissed 5) nofun) (.ask (.select _ 0 _ [] (.refl _))
        (.ask (.commit _ 0) (.refl _ _)))))⟩

/-- A notification is created and dismissed: one notification has changed, it is dismissed, and no
other is. -/
theorem receipts_exact_dismissed : ∃ l w,
    Trace (notifications exampleConfig) (fun _ _ ↦ True) (.init .init) l w ∧
      (changedBy l 1 [1]).ncard = 1 ∧ Dismissed w.state [1] [99] ∧
      ((started w.log).map fun t ↦ deletedNumber [1] (w.threads t)).sum =
        {id | Dismissed w.state [1] id}.ncard := by
  have hinit : Reach (notifications exampleConfig) (fun _ _ ↦ True) (.init .init) (.init .init) :=
    .init
  obtain ⟨threads, log, hcreated, hfree⟩ : ∃ threads log,
      Reach (notifications exampleConfig) (fun _ _ ↦ True) (.init .init)
        ⟨{ NotificationState.init with notifications := [exampleRow] }, threads, log⟩ ∧
      threads 1 = none :=
    ⟨_, _, hinit.call 0 _ rfl create_runs (fun _ ↦ trivial) fun _ _ _ ↦ trivial, rfl⟩
  obtain ⟨h, s, hruns⟩ := dismiss_runs
  obtain ⟨w, hw, hth⟩ : ∃ w, Reach (notifications exampleConfig) (fun _ _ ↦ True)
      ⟨{ NotificationState.init with notifications := [exampleRow] }, threads, log⟩ w ∧
      w.threads 1 =
        some ⟨.dismiss exampleCaller (some [[99]]) none 5, h, .done (.ok (.deleted 1))⟩ :=
    ⟨_, Reach.init.call 1 _ hfree hruns (fun _ ↦ trivial) fun _ _ _ ↦ trivial, by
      dsimp only
      rw [Function.update_self]⟩
  obtain ⟨l₀, hl₀⟩ := hcreated.exists_trace
  obtain ⟨l, hl⟩ := (hcreated.trans hw).exists_trace
  have hdis := ((receipts_exact hl₀).2.1 w hw 1 _ exampleCaller _ none 5 1 hfree hth rfl rfl
    exampleRow List.mem_cons_self (by decide)).1 ⟨_, rfl, List.mem_cons_self⟩
  have hall := (receipts_exact hl).2.2.2
  exact ⟨l, w, hl, (hall.1 1 _ exampleCaller 1 hth rfl (.inr rfl)).2, hdis, (hall.2.1 [1]).2⟩

end EasyBook.Notifications

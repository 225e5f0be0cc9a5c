import EasyBook.Notifications.Calls

/-!
# Who writes a receipt

A receipt is written by one call at a time (`Consistent`), and committed only by the call that has
written it (`commits_of_step`). So a dismissal stands (`Dismissed.reach`).
-/

namespace EasyBook.Notifications

open Machine Machine.Task

variable {C : NotificationConfig} {s s' : NotificationState} {w w' : NotificationWorld}
  {userId id : JsString} {tx : ℕ}

/-! ### What a write makes of a receipt -/

/-- A write that is made changes something: the condition of its statement leaves out rows that are
so already. -/
theorem ReceiptWrite.apply_ne {wr : ReceiptWrite} {x : Option Receipt} {r : Receipt}
    (h : wr.apply x = some r) : x ≠ some r := by
  rintro rfl
  obtain ⟨readAt, dismissedAt⟩ := r
  cases wr <;> cases readAt <;> cases dismissedAt <;> simp [ReceiptWrite.apply] at h

/-- A dismissal stands. -/
theorem ReceiptWrite.apply_dismissed {wr : ReceiptWrite} {r r' : Receipt}
    (h : wr.apply (some r) = some r') (hr : r.dismissedAt.isSome) :
    r'.dismissedAt = r.dismissedAt := by
  obtain ⟨readAt, dismissedAt⟩ := r
  cases wr <;> cases readAt <;> cases dismissedAt <;> simp [ReceiptWrite.apply] at h hr
  simp [← h]

/-- Only `markUnread` takes back that a notification was read. -/
theorem ReceiptWrite.apply_readAt {wr : ReceiptWrite} {r r' : Receipt}
    (h : wr.apply (some r) = some r') (hr : r.readAt.isSome) :
    wr = .markUnread ∨ r'.readAt = r.readAt := by
  obtain ⟨readAt, dismissedAt⟩ := r
  cases wr <;> cases readAt <;> cases dismissedAt <;> simp [ReceiptWrite.apply] at h hr <;>
    simp [← h]

/-- What a call has written it does not write again. -/
theorem apply_of_mayWrite {op : NotificationCall} {wr wr' : ReceiptWrite} {x : Option Receipt}
    {r : Receipt} (hmay : op.MayWrite id wr) (hmay' : op.MayWrite id wr')
    (h : wr.apply x = some r) : wr'.apply (some r) = none := by
  cases op with
  | create | list | unreadCount => exact hmay.elim
  | markRead caller id' now | markManyRead caller ids now =>
    cases hmay
    cases hmay'
    rcases x with _ | ⟨readAt, dismissedAt⟩
    · cases h
      rfl
    · cases readAt <;> cases dismissedAt <;> simp [ReceiptWrite.apply] at h
      simp [← h, ReceiptWrite.apply]
  | markUnread caller id' =>
    obtain ⟨-, rfl⟩ := hmay
    obtain ⟨-, rfl⟩ := hmay'
    rcases x with _ | ⟨readAt, dismissedAt⟩
    · cases h
    · cases readAt <;> simp [ReceiptWrite.apply] at h
      simp [← h, ReceiptWrite.apply]
  | dismiss caller ids allRead now =>
    have hr : r.dismissedAt = some now := by
      rcases x with _ | ⟨readAt, dismissedAt⟩ <;> rcases hmay with rfl | rfl | rfl
      · cases h
      · cases h
        rfl
      · cases h
      · cases readAt <;> cases dismissedAt <;> simp [ReceiptWrite.apply] at h
        simp [← h]
      · cases h
      · cases dismissedAt <;> simp [ReceiptWrite.apply] at h
        simp [← h]
    rcases hmay' with rfl | rfl | rfl <;> simp [ReceiptWrite.apply, hr]

/-! ### Cells -/

namespace Cell

variable {c : Cell} {r : Receipt}

/-- A commit makes the transaction's own row the committed one. -/
theorem commit_of_written (h : c.written = some (tx, r)) : c.commit tx = ⟨some r, none⟩ := by
  unfold commit
  rw [h]
  exact if_pos rfl

/-- It does not touch the rows of others. -/
theorem commit_of_not (h : ∀ r, c.written ≠ some (tx, r)) : c.commit tx = c := by
  unfold commit
  rcases hc : c.written with _ | ⟨owner, r⟩
  · rfl
  · refine if_neg ?_
    rintro rfl
    exact h r hc

/-- A rollback takes the transaction's own row back. -/
theorem rollback_of_written (h : c.written = some (tx, r)) :
    c.rollback tx = ⟨c.committed, none⟩ := by
  unfold rollback
  rw [h]
  exact if_pos rfl

/-- It does not touch the rows of others. -/
theorem rollback_of_not (h : ∀ r, c.written ≠ some (tx, r)) : c.rollback tx = c := by
  unfold rollback
  rcases hc : c.written with _ | ⟨owner, r⟩
  · rfl
  · refine if_neg ?_
    rintro rfl
    exact h r hc

/-- A transaction sees what it has written. -/
theorem seenBy_of_written (h : c.written = some (tx, r)) : c.seenBy tx = some r := by
  unfold seenBy
  rw [h]
  exact if_pos rfl

/-- Where nobody has written, everybody sees what is committed. -/
theorem seenBy_of_none (h : c.written = none) : c.seenBy tx = c.committed := by
  unfold seenBy
  rw [h]

end Cell

/-- After its commit everybody sees what the transaction saw. -/
theorem committed_commit (userId id : JsString) :
    (s.commit tx).committed userId id = s.seenBy tx userId id := by
  change ((s.receipts userId id).commit tx).committed = (s.receipts userId id).seenBy tx
  unfold Cell.commit Cell.seenBy
  rcases (s.receipts userId id).written with _ | ⟨owner, r⟩
  · rfl
  · by_cases h : owner = tx
    · dsimp only
      rw [if_pos h, if_pos h]
    · dsimp only
      rw [if_neg h, if_neg h]

/-! ### What a request does -/

/-- No command takes a notification away. -/
theorem notifications_of_does {q : NotificationQuery} {a : NotificationAnswer q}
    (hd : NotificationDoes s q a s') : ∀ n ∈ s.notifications, n ∈ s'.notifications := by
  cases hd with
  | failed =>
    cases q.transaction <;> exact fun _ hn ↦ hn
  | create => exact fun _ hn ↦ List.mem_append_left _ hn
  | _ => exact fun _ hn ↦ hn

/-- No number of a transaction is given twice. -/
theorem transactions_of_does {q : NotificationQuery} {a : NotificationAnswer q}
    (hd : NotificationDoes s q a s') : s.transactions ≤ s'.transactions := by
  cases hd with
  | failed => cases q.transaction <;> exact le_rfl
  | begin => exact Nat.le_succ _
  | _ => exact le_rfl

/-- What a command has shown of the notifications is true when it has answered. -/
theorem holds_of_does {q : NotificationQuery} {a : NotificationAnswer q}
    (hd : NotificationDoes s q a s') : Holds (· ∈ s'.notifications) ⟨q, a⟩ := by
  cases hd with
  | failed => cases q <;> trivial
  | select tx filter ids h =>
    intro id hid
    obtain ⟨n, hn, rfl⟩ := List.mem_map.1 (h.mem_iff.1 hid)
    obtain ⟨hn, hp⟩ := List.mem_filter.1 hn
    exact ⟨_, n, hn, rfl, hp⟩
  | found filter userId n h =>
    obtain ⟨hn, hp⟩ := List.mem_filter.1 h
    exact ⟨_, n, hn, hp⟩
  | _ => trivial

/-- And remains true while notifications are only added. -/
theorem Holds.mono {R R' : AdminNotification → Prop} {e : NotificationExchange} (h : Holds R e)
    (hR : ∀ n, R n → R' n) : Holds R' e := by
  obtain ⟨q, a⟩ := e
  cases q with
  | select tx filter =>
    cases a with
    | none => trivial
    | some ids =>
      intro id hid
      obtain ⟨receipts, n, hn, hnid, hp⟩ := h id hid
      exact ⟨receipts, n, hR n hn, hnid, hp⟩
  | findFirst filter userId =>
    rcases a with _ | _ | row
    · trivial
    · trivial
    · obtain ⟨receipts, n, hn, hp⟩ := h
      exact ⟨receipts, n, hR n hn, hp⟩
  | _ => trivial

/-- The request of an exchange ends a transaction, and does not commit it. -/
structure RollsBack (tx : ℕ) (e : NotificationExchange) : Prop where
  transaction : e.1.transaction = some tx
  closes : Closes e
  unchanged : changed e = none
  uncommitted : ∀ tx, e ≠ ⟨.commit tx, some ()⟩

/-- What a request does to the receipts. -/
inductive ReceiptsStep (s : NotificationState) :
    NotificationExchange → NotificationState → Prop where
  | keep {e : NotificationExchange} {s' : NotificationState} (hs : s'.receipts = s.receipts)
      (hclose : ¬ Closes e) (hchanged : changed e = none) : ReceiptsStep s e s'
  | commit (tx : ℕ) : ReceiptsStep s ⟨.commit tx, some ()⟩ (s.commit tx)
  | rollback {e : NotificationExchange} (tx : ℕ) (he : RollsBack tx e) :
      ReceiptsStep s e (s.rollback (some tx))
  | write (tx : ℕ) (userId id : JsString) (wr : ReceiptWrite) (r : Receipt)
      (hfree : (s.receipts userId id).FreeFor tx)
      (hr : wr.apply ((s.receipts userId id).seenBy tx) = some r) :
      ReceiptsStep s ⟨.write tx userId id wr, some true⟩ (s.write tx userId id wr)

/-- What one command can do to the receipts. -/
theorem receiptsStep_of_does {q : NotificationQuery} {a : NotificationAnswer q}
    (hd : NotificationDoes s q a s') : ReceiptsStep s ⟨q, a⟩ s' := by
  cases hd with
  | failed =>
    cases q with
    | commit tx | select tx filter | write tx userId id wr =>
      exact .rollback tx ⟨rfl, trivial, rfl, nofun⟩
    | _ => exact .keep rfl (fun hc ↦ hc) rfl
  | commit tx => exact .commit tx
  | write tx userId id wr h =>
    cases hr : wr.apply ((s.receipts userId id).seenBy tx) with
    | none =>
      refine .keep ?_ (fun hc ↦ hc) rfl
      have hcell : (s.receipts userId id).write tx wr = s.receipts userId id := by
        unfold Cell.write
        rw [hr]
      change Function.update s.receipts userId _ = s.receipts
      rw [hcell, Function.update_eq_self, Function.update_eq_self]
    | some r => exact .write tx userId id wr r h hr
  | _ => exact .keep rfl (fun hc ↦ hc) rfl

/-! ### Who has written a receipt -/

/-- What the calls have done, and the receipts that they have written. -/
structure Consistent (w : NotificationWorld) : Prop where
  lt : ∀ t th tx, w.threads t = some th → Began tx th.history → tx < w.state.transactions
  owner : ∀ t th t' th' tx, w.threads t = some th → w.threads t' = some th' →
    Began tx th.history → Began tx th'.history → t = t'
  once : ∀ t th tx tx', w.threads t = some th → Began tx th.history → Began tx' th.history →
    tx = tx'
  holds : ∀ t th, w.threads t = some th → ∀ e ∈ th.history, Holds (· ∈ w.state.notifications) e
  nodup : ∀ t th, w.threads t = some th → (changes th.history).Nodup
  own : ∀ t th k, w.threads t = some th → k ∈ changes th.history →
    ∃ caller, th.op.caller = some caller ∧ caller.id = k.1 ∧
      ∃ n ∈ w.state.notifications, n.id = k.2 ∧ n.targetRole ∈ visibleTargetRoles caller.role
  written : ∀ userId id tx r, (w.state.receipts userId id).written = some (tx, r) →
    ∃ t th wr, w.threads t = some th ∧ Began tx th.history ∧ IsOpen th.history ∧
      (userId, id) ∈ changes th.history ∧ th.op.MayWrite id wr ∧
      wr.apply (w.state.receipts userId id).committed = some r
  locked : ∀ t th k, w.threads t = some th → k ∈ changes th.history → IsOpen th.history →
    ∃ tx r, Began tx th.history ∧ (w.state.receipts k.1 k.2).written = some (tx, r)

/-- The write itself. -/
theorem write_receipts_self {wr : ReceiptWrite} {r : Receipt}
    (h : wr.apply ((s.receipts userId id).seenBy tx) = some r) :
    (s.write tx userId id wr).receipts userId id =
      ⟨(s.receipts userId id).committed, some (tx, r)⟩ := by
  change Function.update s.receipts userId _ userId id = _
  rw [Function.update_self, Function.update_self]
  unfold Cell.write
  rw [h]

/-- Every other receipt is as it was. -/
theorem write_receipts_of_ne {wr : ReceiptWrite} {userId' id' : JsString}
    (h : (userId', id') ≠ (userId, id)) :
    (s.write tx userId id wr).receipts userId' id' = s.receipts userId' id' := by
  change Function.update s.receipts userId _ userId' id' = _
  by_cases hu : userId' = userId
  · subst hu
    have hid : id' ≠ id := fun he ↦ h (congrArg (userId', ·) he)
    rw [Function.update_self, Function.update_of_ne hid]
  · rw [Function.update_of_ne hu]

/-- A transaction has begun after one more exchange. -/
theorem began_snoc {h : List NotificationExchange} {e : NotificationExchange} :
    Began tx (h ++ [e]) ↔ Began tx h ∨ e = ⟨.begin, some tx⟩ := by
  unfold Began
  rw [List.mem_append, List.mem_singleton]
  exact or_congr_right eq_comm

/-- It is still open after one more exchange unless that one closes it. -/
theorem isOpen_snoc {h : List NotificationExchange} {e : NotificationExchange} :
    IsOpen (h ++ [e]) ↔ IsOpen h ∧ ¬ Closes e := by
  constructor
  · exact fun ho ↦ ⟨fun e' he' ↦ ho e' (List.mem_append_left _ he'),
      ho e (List.mem_append_right _ List.mem_cons_self)⟩
  · exact fun ⟨ho, he⟩ ↦ ho.snoc he

/-- The changes of a history after one more exchange. -/
theorem changes_snoc {h : List NotificationExchange} {e : NotificationExchange} :
    changes (h ++ [e]) = changes h ++ (changed e).toList := by
  rw [changes_append]
  cases hc : changed e <;> simp [changes, hc]

/-- An exchange that changes nothing leaves them. -/
theorem changes_snoc_of_none {h : List NotificationExchange} {e : NotificationExchange}
    (hc : changed e = none) : changes (h ++ [e]) = changes h := by
  rw [changes_snoc, hc]
  exact List.append_nil _

/-- A command inside a transaction is justified only while that one is open. -/
theorem Justified.began {op : NotificationCall} {h : List NotificationExchange}
    {q : NotificationQuery} (hq : Justified op h q) (htx : q.transaction = some tx) :
    Began tx h ∧ IsOpen h := by
  cases q with
  | commit tx' | select tx' filter =>
    cases htx
    exact hq
  | write tx' userId id wr =>
    cases htx
    exact ⟨hq.1, hq.2.1⟩
  | _ => cases htx

/-- `begin` gives out the next number. -/
theorem begin_of_does (hd : NotificationDoes s .begin (some tx) s') :
    tx = s.transactions ∧ s'.transactions = s.transactions + 1 := by
  cases hd
  exact ⟨rfl, rfl⟩

namespace Consistent

variable {t : ℕ} {op : NotificationCall} {h : List NotificationExchange} {q : NotificationQuery}
  {a : NotificationAnswer q}
  {k : NotificationAnswer q → Task NotificationQuery NotificationAnswer
    (Except NotificationError NotificationReply)}

/-- The one who writes a receipt has not written it before, and nobody else has. -/
theorem written_none (hw : Consistent w)
    {rest : Task NotificationQuery NotificationAnswer (Except NotificationError NotificationReply)}
    (ht : w.threads t = some ⟨op, h, rest⟩) {wr : ReceiptWrite}
    (hbegan : Began tx h) (hmay : op.MayWrite id wr)
    (hfree : (w.state.receipts userId id).FreeFor tx) {r : Receipt}
    (hr : wr.apply ((w.state.receipts userId id).seenBy tx) = some r) :
    (w.state.receipts userId id).written = none := by
  rcases hc : (w.state.receipts userId id).written with _ | ⟨tx', r'⟩
  · rfl
  · obtain rfl := hfree _ _ hc
    obtain ⟨t', th', wr', ht', hbegan', -, -, hmay', hr'⟩ := hw.written _ _ _ _ hc
    obtain rfl := hw.owner _ _ _ _ _ ht ht' hbegan hbegan'
    rw [ht] at ht'
    cases ht'
    rw [Cell.seenBy_of_written hc, apply_of_mayWrite hmay' hmay hr'] at hr
    cases hr

/-- Another call that has its transaction open keeps the receipts that it has written. -/
theorem cell_of_other (hw : Consistent w) (ht : w.threads t = some ⟨op, h, .ask q k⟩)
    (hq : Justified op h q) (hstep : ReceiptsStep w.state ⟨q, a⟩ s') {t' : ℕ}
    {th : Thread NotificationQuery NotificationAnswer (Except NotificationError NotificationReply)
      NotificationCall} (hne : t' ≠ t) (ht' : w.threads t' = some th) {r : Receipt}
    (hbegan : Began tx th.history) (hr : (w.state.receipts userId id).written = some (tx, r)) :
    s'.receipts userId id = w.state.receipts userId id := by
  have hother : ∀ tx', Began tx' h → tx ≠ tx' := by
    rintro tx' hbegan' rfl
    exact hne (hw.owner _ _ _ _ _ ht' ht hbegan hbegan')
  have hnot : ∀ tx', Began tx' h → ∀ r', (w.state.receipts userId id).written ≠ some (tx', r') := by
    intro tx' hbegan' r' hr'
    rw [hr] at hr'
    cases hr'
    exact hother _ hbegan' rfl
  generalize he : (⟨q, a⟩ : NotificationExchange) = e at hstep
  cases hstep with
  | keep hs => rw [hs]
  | commit tx' =>
    cases he
    exact Cell.commit_of_not (hnot tx' hq.1)
  | rollback tx' hrb =>
    subst he
    exact Cell.rollback_of_not (hnot tx' (hq.began hrb.transaction).1)
  | write tx' userId' id' wr r' hfree =>
    cases he
    refine write_receipts_of_ne fun heq ↦ ?_
    cases heq
    exact hother _ hq.1 (hfree _ _ hr)

/-- What is written after a step. -/
theorem written_step (hw : Consistent w) (ht : w.threads t = some ⟨op, h, .ask q k⟩)
    (hq : Justified op h q) (hstep : ReceiptsStep w.state ⟨q, a⟩ s') {r : Receipt}
    (hr : (s'.receipts userId id).written = some (tx, r)) :
    ∃ t' th wr, Function.update w.threads t (some ⟨op, h ++ [⟨q, a⟩], k a⟩) t' = some th ∧
      Began tx th.history ∧ IsOpen th.history ∧ (userId, id) ∈ changes th.history ∧
      th.op.MayWrite id wr ∧ wr.apply (s'.receipts userId id).committed = some r := by
  -- A row that the step leaves as it is.
  have old : s'.receipts userId id = w.state.receipts userId id →
      (¬ Closes ⟨q, a⟩ ∨ ¬ Began tx h) →
      ∃ t' th wr, Function.update w.threads t (some ⟨op, h ++ [⟨q, a⟩], k a⟩) t' = some th ∧
        Began tx th.history ∧ IsOpen th.history ∧ (userId, id) ∈ changes th.history ∧
        th.op.MayWrite id wr ∧ wr.apply (s'.receipts userId id).committed = some r := by
    intro hsame hopen
    rw [hsame] at hr ⊢
    obtain ⟨t', th, wr, ht', hbegan, hth, hmem, hmay, happly⟩ := hw.written _ _ _ _ hr
    by_cases he : t' = t
    · subst he
      rw [ht] at ht'
      cases ht'
      refine ⟨t', _, wr, Function.update_self .., List.mem_append_left _ hbegan,
        hth.snoc (hopen.resolve_right fun hn ↦ hn hbegan), ?_, hmay, happly⟩
      rw [changes_append]
      exact List.mem_append_left _ hmem
    · exact ⟨t', th, wr, (Function.update_of_ne he ..).trans ht', hbegan, hth, hmem, hmay, happly⟩
  generalize he : (⟨q, a⟩ : NotificationExchange) = e at hstep
  -- What a transaction has written it has written before, unless the step is the write.
  cases hstep with
  | keep hs hclose =>
    subst he
    exact old (by rw [hs]) (.inl hclose)
  | commit tx' =>
    cases he
    -- The transaction that commits has no open row afterwards.
    have hnot : ∀ r', (w.state.receipts userId id).written ≠ some (tx', r') := by
      intro r' hr'
      change ((w.state.receipts userId id).commit tx').written = _ at hr
      rw [Cell.commit_of_written hr'] at hr
      cases hr
    have hsame : (w.state.commit tx').receipts userId id = w.state.receipts userId id :=
      Cell.commit_of_not hnot
    refine old hsame (.inr fun hbegan ↦ ?_)
    rw [hsame] at hr
    obtain rfl := hw.once _ _ _ _ ht hbegan hq.1
    exact hnot r hr
  | rollback tx' hrb =>
    subst he
    have hnot : ∀ r', (w.state.receipts userId id).written ≠ some (tx', r') := by
      intro r' hr'
      change ((w.state.receipts userId id).rollback tx').written = _ at hr
      rw [Cell.rollback_of_written hr'] at hr
      cases hr
    have hsame : (w.state.rollback (some tx')).receipts userId id = w.state.receipts userId id :=
      Cell.rollback_of_not hnot
    refine old hsame (.inr fun hbegan ↦ ?_)
    rw [hsame] at hr
    obtain rfl := hw.once _ _ _ _ ht hbegan (hq.began hrb.transaction).1
    exact hnot r hr
  | write tx' userId' id' wr r' hfree hr' =>
    cases he
    by_cases hkey : (userId, id) = (userId', id')
    -- The write that the step makes, in an open transaction of its caller.
    · cases hkey
      obtain ⟨hbegan, hopen, caller, -, -, hmay⟩ := hq
      have hmay' := (hmay _ (hw.holds _ _ ht)).1
      have hnone := hw.written_none ht hbegan hmay' hfree hr'
      rw [write_receipts_self hr'] at hr ⊢
      cases hr
      refine ⟨t, _, wr, Function.update_self .., List.mem_append_left _ hbegan,
        hopen.snoc fun hc ↦ hc, ?_, hmay', ?_⟩
      · rw [changes_snoc]
        exact List.mem_append_right _ List.mem_cons_self
      · rw [← Cell.seenBy_of_none hnone]
        exact hr'
    · exact old (write_receipts_of_ne hkey) (.inl fun hc ↦ hc)

/-- A transaction that is begun is a new one, and the first of the call. -/
private theorem begin_new (hq : Justified op h q) (hd : NotificationDoes w.state q a s')
    (he : (⟨q, a⟩ : NotificationExchange) = ⟨.begin, some tx⟩) :
    tx = w.state.transactions ∧ tx < s'.transactions ∧ ∀ tx', ¬ Began tx' h := by
  cases he
  obtain ⟨rfl, hs⟩ := begin_of_does hd
  exact ⟨rfl, hs ▸ Nat.lt_succ_self _, hq.2⟩

/-- The numbers in the histories stay below the next one. -/
private theorem lt_step (hw : Consistent w) (ht : w.threads t = some ⟨op, h, .ask q k⟩)
    (hq : Justified op h q) (hd : NotificationDoes w.state q a s') (t' : ℕ)
    (th : Thread NotificationQuery NotificationAnswer (Except NotificationError NotificationReply)
      NotificationCall) (tx : ℕ)
    (ht' : Function.update w.threads t (some ⟨op, h ++ [⟨q, a⟩], k a⟩) t' = some th)
    (hbegan : Began tx th.history) : tx < s'.transactions := by
  have htx := transactions_of_does hd
  rcases update_eq_some ht' with ⟨rfl, rfl⟩ | ⟨-, ht'⟩
  · rcases began_snoc.1 hbegan with hbegan | he
    · exact (hw.lt _ _ _ ht hbegan).trans_le htx
    · exact (begin_new hq hd he).2.1
  · exact (hw.lt _ _ _ ht' hbegan).trans_le htx

/-- Two calls never share a transaction. -/
private theorem owner_step (hw : Consistent w) (ht : w.threads t = some ⟨op, h, .ask q k⟩)
    (hq : Justified op h q) (hd : NotificationDoes w.state q a s') (t₁ : ℕ)
    (th₁ : Thread NotificationQuery NotificationAnswer (Except NotificationError NotificationReply)
      NotificationCall) (t₂ : ℕ)
    (th₂ : Thread NotificationQuery NotificationAnswer (Except NotificationError NotificationReply)
      NotificationCall) (tx : ℕ)
    (ht₁ : Function.update w.threads t (some ⟨op, h ++ [⟨q, a⟩], k a⟩) t₁ = some th₁)
    (ht₂ : Function.update w.threads t (some ⟨op, h ++ [⟨q, a⟩], k a⟩) t₂ = some th₂)
    (hb₁ : Began tx th₁.history) (hb₂ : Began tx th₂.history) : t₁ = t₂ := by
  rcases update_eq_some ht₁ with ⟨rfl, rfl⟩ | ⟨hne₁, hold₁⟩ <;>
    rcases update_eq_some ht₂ with ⟨h₂, rfl⟩ | ⟨hne₂, hold₂⟩
  · exact h₂.symm
  · rcases began_snoc.1 hb₁ with hb₁ | he
    · exact hw.owner _ _ _ _ _ ht hold₂ hb₁ hb₂
    · exact ((hw.lt _ _ _ hold₂ hb₂).ne (begin_new hq hd he).1).elim
  · subst h₂
    rcases began_snoc.1 hb₂ with hb₂ | he
    · exact hw.owner _ _ _ _ _ hold₁ ht hb₁ hb₂
    · exact ((hw.lt _ _ _ hold₁ hb₁).ne (begin_new hq hd he).1).elim
  · exact hw.owner _ _ _ _ _ hold₁ hold₂ hb₁ hb₂

/-- A call begins one transaction at most. -/
private theorem once_step (hw : Consistent w) (ht : w.threads t = some ⟨op, h, .ask q k⟩)
    (hq : Justified op h q) (hd : NotificationDoes w.state q a s') (t' : ℕ)
    (th : Thread NotificationQuery NotificationAnswer (Except NotificationError NotificationReply)
      NotificationCall) (tx tx' : ℕ)
    (ht' : Function.update w.threads t (some ⟨op, h ++ [⟨q, a⟩], k a⟩) t' = some th)
    (hb : Began tx th.history) (hb' : Began tx' th.history) : tx = tx' := by
  rcases update_eq_some ht' with ⟨rfl, rfl⟩ | ⟨-, ht'⟩
  · rcases began_snoc.1 hb with hb | he <;> rcases began_snoc.1 hb' with hb' | he'
    · exact hw.once _ _ _ _ ht hb hb'
    · exact ((begin_new hq hd he').2.2 tx hb).elim
    · exact ((begin_new hq hd he).2.2 tx' hb').elim
    · exact (begin_new hq hd he).1.trans (begin_new hq hd he').1.symm
  · exact hw.once _ _ _ _ ht' hb hb'

/-- What the histories show stays true. -/
private theorem holds_step (hw : Consistent w) (ht : w.threads t = some ⟨op, h, .ask q k⟩)
    (hd : NotificationDoes w.state q a s') (t' : ℕ)
    (th : Thread NotificationQuery NotificationAnswer (Except NotificationError NotificationReply)
      NotificationCall)
    (ht' : Function.update w.threads t (some ⟨op, h ++ [⟨q, a⟩], k a⟩) t' = some th) :
    ∀ e ∈ th.history, Holds (· ∈ s'.notifications) e := by
  have hnotif := notifications_of_does hd
  intro e he
  rcases update_eq_some ht' with ⟨rfl, rfl⟩ | ⟨-, ht'⟩
  · rcases List.mem_append.1 he with he | he
    · exact (hw.holds _ _ ht e he).mono hnotif
    · obtain rfl := List.mem_singleton.1 he
      exact holds_of_does hd
  · exact (hw.holds _ _ ht' e he).mono hnotif

/-- A receipt that is written now was not written by the call before: it would still be locked. -/
private theorem nodup_step (hw : Consistent w) (ht : w.threads t = some ⟨op, h, .ask q k⟩)
    (hq : Justified op h q) (hstep : ReceiptsStep w.state ⟨q, a⟩ s') (t' : ℕ)
    (th : Thread NotificationQuery NotificationAnswer (Except NotificationError NotificationReply)
      NotificationCall)
    (ht' : Function.update w.threads t (some ⟨op, h ++ [⟨q, a⟩], k a⟩) t' = some th) :
    (changes th.history).Nodup := by
  rcases update_eq_some ht' with ⟨rfl, rfl⟩ | ⟨-, ht'⟩
  · rw [changes_snoc]
    generalize he : (⟨q, a⟩ : NotificationExchange) = e at hstep
    cases hstep with
    | keep hs hclose hchanged =>
      rw [hchanged]
      simpa using hw.nodup _ _ ht
    | commit => simpa [changed] using hw.nodup _ _ ht
    | rollback tx hrb =>
      rw [hrb.unchanged]
      simpa using hw.nodup _ _ ht
    | write tx userId id wr r hfree hr =>
      cases he
      obtain ⟨hbegan, hopen, caller, -, -, hmay⟩ := hq
      have hnone := hw.written_none ht hbegan (hmay _ (hw.holds _ _ ht)).1 hfree hr
      refine List.nodup_append.2 ⟨hw.nodup _ _ ht, List.nodup_singleton _, ?_⟩
      rintro k' hk' _ hk rfl
      cases List.mem_singleton.1 hk
      obtain ⟨tx', r', -, hr'⟩ := hw.locked _ _ _ ht hk' hopen
      rw [hnone] at hr'
      cases hr'
  · exact hw.nodup _ _ ht'

/-- A call changes receipts of its own caller and of notifications the caller may see. -/
private theorem own_step (hw : Consistent w) (ht : w.threads t = some ⟨op, h, .ask q k⟩)
    (hq : Justified op h q) (hd : NotificationDoes w.state q a s') (t' : ℕ)
    (th : Thread NotificationQuery NotificationAnswer (Except NotificationError NotificationReply)
      NotificationCall) (key : JsString × JsString)
    (ht' : Function.update w.threads t (some ⟨op, h ++ [⟨q, a⟩], k a⟩) t' = some th)
    (hkey : key ∈ changes th.history) :
    ∃ caller, th.op.caller = some caller ∧ caller.id = key.1 ∧
      ∃ n ∈ s'.notifications, n.id = key.2 ∧ n.targetRole ∈ visibleTargetRoles caller.role := by
  have hnotif := notifications_of_does hd
  rcases update_eq_some ht' with ⟨rfl, rfl⟩ | ⟨-, ht'⟩
  · rw [changes_snoc, List.mem_append] at hkey
    rcases hkey with hold | hlast
    · obtain ⟨caller, hc, hid, n, hn, hrest⟩ := hw.own _ _ _ ht hold
      exact ⟨caller, hc, hid, n, hnotif n hn, hrest⟩
    · have hstep := receiptsStep_of_does hd
      generalize he : (⟨q, a⟩ : NotificationExchange) = e at hstep hlast
      cases hstep with
      | keep hs hclose hchanged =>
        rw [hchanged] at hlast
        cases hlast
      | commit => cases hlast
      | rollback tx hrb =>
        rw [hrb.unchanged] at hlast
        cases hlast
      | write tx userId id wr r hfree hr =>
        cases he
        cases List.mem_singleton.1 hlast
        obtain ⟨-, -, caller, hc, hid, hmay⟩ := hq
        exact ⟨caller, hc, hid, (hmay _ (hw.holds _ _ ht)).2⟩
  · obtain ⟨caller, hc, hid, n, hn, hrest⟩ := hw.own _ _ _ ht' hkey
    exact ⟨caller, hc, hid, n, hnotif n hn, hrest⟩

/-- What an open transaction has changed is still its own: nobody else can write there. -/
private theorem locked_step (hw : Consistent w) (ht : w.threads t = some ⟨op, h, .ask q k⟩)
    (hq : Justified op h q) (hstep : ReceiptsStep w.state ⟨q, a⟩ s') (t' : ℕ)
    (th : Thread NotificationQuery NotificationAnswer (Except NotificationError NotificationReply)
      NotificationCall) (key : JsString × JsString)
    (ht' : Function.update w.threads t (some ⟨op, h ++ [⟨q, a⟩], k a⟩) t' = some th)
    (hkey : key ∈ changes th.history) (hopen : IsOpen th.history) :
    ∃ tx r, Began tx th.history ∧ (s'.receipts key.1 key.2).written = some (tx, r) := by
  rcases update_eq_some ht' with ⟨rfl, rfl⟩ | ⟨hne, ht'⟩
  · obtain ⟨hbefore, hclose⟩ := isOpen_snoc.1 hopen
    rw [changes_snoc] at hkey
    clear hopen
    generalize he : (⟨q, a⟩ : NotificationExchange) = e at hstep hkey hclose
    cases hstep with
    | keep hs _ hchanged =>
      rw [hchanged] at hkey
      obtain ⟨tx, r, hbegan, hr⟩ := hw.locked _ _ _ ht (by simpa using hkey) hbefore
      exact ⟨tx, r, List.mem_append_left _ hbegan, hs ▸ hr⟩
    | commit => exact (hclose trivial).elim
    | rollback tx hrb => exact (hclose hrb.closes).elim
    | write tx userId id wr r hfree hr =>
      cases he
      by_cases hk : key = (userId, id)
      · subst hk
        exact ⟨tx, r, List.mem_append_left _ hq.1, by rw [write_receipts_self hr]⟩
      · have hkey : key ∈ changes h :=
          (List.mem_append.1 hkey).resolve_right fun hm ↦ hk (List.mem_singleton.1 hm)
        obtain ⟨tx', r', hbegan, hr'⟩ := hw.locked _ _ _ ht hkey hbefore
        refine ⟨tx', r', List.mem_append_left _ hbegan, ?_⟩
        rw [write_receipts_of_ne hk]
        exact hr'
  · obtain ⟨tx, r, hbegan, hr⟩ := hw.locked _ _ _ ht' hkey hopen
    refine ⟨tx, r, hbegan, ?_⟩
    rw [hw.cell_of_other ht hq hstep hne ht' hbegan hr]
    exact hr

/-- The calls stay consistent when one of them is answered. -/
theorem exchange (hw : Consistent w) (ht : w.threads t = some ⟨op, h, .ask q k⟩)
    (hq : Justified op h q) (hd : NotificationDoes w.state q a s')
    {log : List NotificationEvent} :
    Consistent ⟨s', Function.update w.threads t (some ⟨op, h ++ [⟨q, a⟩], k a⟩), log⟩ where
  lt := hw.lt_step ht hq hd
  owner := hw.owner_step ht hq hd
  once := hw.once_step ht hq hd
  holds := hw.holds_step ht hd
  nodup := hw.nodup_step ht hq (receiptsStep_of_does hd)
  own := hw.own_step ht hq hd
  written _ _ _ _ hr := hw.written_step ht hq (receiptsStep_of_does hd) hr
  locked := hw.locked_step ht hq (receiptsStep_of_does hd)

/-- The calls stay consistent when one is started. -/
theorem start (hw : Consistent w) (ht : w.threads t = none)
    {p : Task NotificationQuery NotificationAnswer (Except NotificationError NotificationReply)}
    {log : List NotificationEvent} :
    Consistent ⟨w.state, Function.update w.threads t (some ⟨op, [], p⟩), log⟩ := by
  refine ⟨?_, ?_, ?_, ?_, ?_, ?_, ?_, ?_⟩
  · intro t' th tx ht' hbegan
    rcases update_eq_some ht' with ⟨rfl, rfl⟩ | ⟨-, ht'⟩
    · cases hbegan
    · exact hw.lt _ _ _ ht' hbegan
  · intro t₁ th₁ t₂ th₂ tx ht₁ ht₂ hb₁ hb₂
    rcases update_eq_some ht₁ with ⟨rfl, rfl⟩ | ⟨-, hold₁⟩
    · cases hb₁
    rcases update_eq_some ht₂ with ⟨rfl, rfl⟩ | ⟨-, hold₂⟩
    · cases hb₂
    exact hw.owner _ _ _ _ _ hold₁ hold₂ hb₁ hb₂
  · intro t' th tx tx' ht' hb hb'
    rcases update_eq_some ht' with ⟨rfl, rfl⟩ | ⟨-, ht'⟩
    · cases hb
    · exact hw.once _ _ _ _ ht' hb hb'
  · intro t' th ht' e he
    rcases update_eq_some ht' with ⟨rfl, rfl⟩ | ⟨-, ht'⟩
    · cases he
    · exact hw.holds _ _ ht' e he
  · intro t' th ht'
    rcases update_eq_some ht' with ⟨rfl, rfl⟩ | ⟨-, ht'⟩
    · exact List.nodup_nil
    · exact hw.nodup _ _ ht'
  · intro t' th key ht' hkey
    rcases update_eq_some ht' with ⟨rfl, rfl⟩ | ⟨-, ht'⟩
    · cases hkey
    · exact hw.own _ _ _ ht' hkey
  · intro userId id tx r hr
    obtain ⟨t', th, wr, ht', hrest⟩ := hw.written _ _ _ _ hr
    refine ⟨t', th, wr, (Function.update_of_ne ?_ ..).trans ht', hrest⟩
    rintro rfl
    rw [ht] at ht'
    cases ht'
  · intro t' th key ht' hkey hopen
    rcases update_eq_some ht' with ⟨rfl, rfl⟩ | ⟨-, ht'⟩
    · cases hkey
    · exact hw.locked _ _ _ ht' hkey hopen

end Consistent

/-- At the start no call has asked anything. -/
theorem consistent_init : Consistent (.init .init) where
  lt _ _ _ ht := by cases ht
  owner _ _ _ _ _ ht := by cases ht
  once _ _ _ _ ht := by cases ht
  holds _ _ ht := by cases ht
  nodup _ _ ht := by cases ht
  own _ _ _ ht := by cases ht
  written _ _ _ _ hr := by cases hr
  locked _ _ _ ht := by cases ht

/-- The calls are consistent in any state that may come about. -/
theorem consistent_of_reach (hw : Reach (notifications C) (fun _ _ ↦ True) (.init .init) w) :
    Consistent w := by
  have hask : ∀ op, ((notifications C).task op).AsksAfter (Justified op) (Reported op) [] :=
    asking_task
  induction hw with
  | init => exact consistent_init
  | @step w _ _ hw _ h ih =>
    cases h with
    | start ht => exact ih.start ht
    | exchange ht hd => exact ih.exchange ht (hw.asksAfter hask ht).1 hd
    | environment hs => exact hs.elim

/-! ### What a step commits -/

/-- A call that is about to send a request has reason to. -/
theorem justified_of_reach (hw : Reach (notifications C) (fun _ _ ↦ True) (.init .init) w) {t : ℕ}
    {op : NotificationCall} {h : List NotificationExchange} {q : NotificationQuery}
    {k : NotificationAnswer q → Task NotificationQuery NotificationAnswer
      (Except NotificationError NotificationReply)}
    (ht : w.threads t = some ⟨op, h, .ask q k⟩) : Justified op h q := by
  have hask : ∀ op, ((notifications C).task op).AsksAfter (Justified op) (Reported op) [] :=
    asking_task
  exact (hw.asksAfter hask ht).1

/-- A call commits the receipt that it has written. -/
structure Commits (w : NotificationWorld) (e : NotificationEvent) (userId id : JsString)
    (r : Receipt) (t : ℕ) (tx : ℕ)
    (th : Thread NotificationQuery NotificationAnswer (Except NotificationError NotificationReply)
      NotificationCall) : Prop where
  event : e = .exchange t ⟨.commit tx, some ()⟩
  thread : w.threads t = some th
  isOpen : IsOpen th.history
  mem : (userId, id) ∈ changes th.history
  write : ∃ wr, th.op.MayWrite id wr ∧ wr.apply (w.state.committed userId id) = some r

/-- A committed receipt only changes when the call that has written it commits. -/
theorem commits_of_step (hw : Reach (notifications C) (fun _ _ ↦ True) (.init .init) w)
    {e : NotificationEvent} (h : Step (notifications C) w e w')
    (hne : w.state.committed userId id ≠ w'.state.committed userId id) :
    ∃ r t tx th, Commits w e userId id r t tx th ∧ w'.state.committed userId id = some r := by
  cases h with
  | start => exact (hne rfl).elim
  | environment hs => exact hs.elim
  | @exchange t op h q k a s' ht hd =>
    have hq := justified_of_reach hw ht
    have hstep := receiptsStep_of_does hd
    generalize he : (⟨q, a⟩ : NotificationExchange) = x at hstep
    cases hstep with
    | keep hs =>
      refine (hne ?_).elim
      unfold NotificationState.committed
      rw [hs]
    | commit tx =>
      cases he
      rcases hc : (w.state.receipts userId id).written with _ | ⟨tx', r⟩
      · refine (hne (congrArg Cell.committed ?_)).elim
        exact (Cell.commit_of_not fun r hr ↦ by rw [hc] at hr; cases hr).symm
      · by_cases htx : tx' = tx
        · subst htx
          obtain ⟨t', th, wr, ht', hbegan, hopen, hmem, hmay, happly⟩ :=
            (consistent_of_reach hw).written _ _ _ _ hc
          obtain rfl := (consistent_of_reach hw).owner _ _ _ _ _ ht ht' hq.1 hbegan
          exact ⟨r, t, tx', th, ⟨rfl, ht', hopen, hmem, wr, hmay, happly⟩,
            congrArg Cell.committed (Cell.commit_of_written hc)⟩
        · refine (hne (congrArg Cell.committed ?_)).elim
          refine (Cell.commit_of_not fun r' hr' ↦ htx ?_).symm
          rw [hc] at hr'
          cases hr'
          rfl
    | rollback tx hrb =>
      refine (hne ?_).elim
      rcases hc : (w.state.receipts userId id).written with _ | ⟨tx', r⟩
      · exact congrArg Cell.committed (Cell.rollback_of_not fun r hr ↦ by
          rw [hc] at hr; cases hr).symm
      · by_cases htx : tx' = tx
        · subst htx
          exact (congrArg Cell.committed (Cell.rollback_of_written hc)).symm
        · refine congrArg Cell.committed (Cell.rollback_of_not fun r' hr' ↦ htx ?_).symm
          rw [hc] at hr'
          cases hr'
          rfl
    | write tx userId' id' wr r hfree hr =>
      refine (hne ?_).elim
      unfold NotificationState.committed
      by_cases hkey : (userId, id) = (userId', id')
      · cases hkey
        rw [write_receipts_self hr]
      · rw [write_receipts_of_ne hkey]

/-- What a call commits are the receipts that it has changed. -/
theorem ne_of_commit (hw : Reach (notifications C) (fun _ _ ↦ True) (.init .init) w) {t : ℕ}
    {op : NotificationCall} {h : List NotificationExchange}
    {k : NotificationAnswer (.commit tx) → Task NotificationQuery NotificationAnswer
      (Except NotificationError NotificationReply)}
    (ht : w.threads t = some ⟨op, h, .ask (.commit tx) k⟩) (hmem : (userId, id) ∈ changes h) :
    w.state.committed userId id ≠ (w.state.commit tx).committed userId id := by
  obtain ⟨hbegan, hopen⟩ := justified_of_reach hw ht
  have hcons := consistent_of_reach hw
  obtain ⟨tx', r, hbegan', hr⟩ := hcons.locked _ _ _ ht hmem hopen
  obtain rfl := hcons.once _ _ _ _ ht hbegan hbegan'
  obtain ⟨t', th, wr, -, -, -, -, -, happly⟩ := hcons.written _ _ _ _ hr
  have hafter : (w.state.commit tx).committed userId id = some r :=
    congrArg Cell.committed (Cell.commit_of_written hr)
  rw [hafter]
  exact wr.apply_ne happly

/-- A step changes a receipt only for the caller of the call that takes it, and only for a
notification that the caller's role may see. -/
theorem own_of_step (hw : Reach (notifications C) (fun _ _ ↦ True) (.init .init) w)
    {e : NotificationEvent} (h : Step (notifications C) w e w')
    (hne : w.state.receipts userId id ≠ w'.state.receipts userId id) :
    ∃ t x th caller, e = .exchange t x ∧ w.threads t = some th ∧ th.op.caller = some caller ∧
      caller.id = userId ∧ ∃ n ∈ w'.state.notifications, n.id = id ∧
        n.targetRole ∈ visibleTargetRoles caller.role := by
  have hcons := consistent_of_reach hw
  cases h with
  | start => exact (hne rfl).elim
  | environment hs => exact hs.elim
  | @exchange t op h q k a s' ht hd =>
    have hq := justified_of_reach hw ht
    have hnotif := notifications_of_does hd
    -- A receipt that the transaction of the call has written.
    have ended : ∀ tx, Began tx h → (¬ ∀ r, (w.state.receipts userId id).written ≠ some (tx, r)) →
        ∃ t' x th caller, (.exchange t ⟨q, a⟩ : NotificationEvent) = .exchange t' x ∧
          w.threads t' = some th ∧ th.op.caller = some caller ∧ caller.id = userId ∧
          ∃ n ∈ s'.notifications, n.id = id ∧
            n.targetRole ∈ visibleTargetRoles caller.role := by
      intro tx hbegan hwritten
      push Not at hwritten
      obtain ⟨r, hr⟩ := hwritten
      obtain ⟨t', th, wr, ht', hbegan', -, hmem, -⟩ := hcons.written _ _ _ _ hr
      obtain rfl := hcons.owner _ _ _ _ _ ht ht' hbegan hbegan'
      obtain ⟨caller, hc, hid, n, hn, hrest⟩ := hcons.own _ _ _ ht' hmem
      exact ⟨t, _, th, caller, rfl, ht', hc, hid, n, hnotif n hn, hrest⟩
    have hstep := receiptsStep_of_does hd
    generalize he : (⟨q, a⟩ : NotificationExchange) = x at hstep
    cases hstep with
    | keep hs =>
      refine (hne ?_).elim
      rw [hs]
    | commit tx =>
      cases he
      exact ended tx hq.1 fun hnot ↦ hne (Cell.commit_of_not hnot).symm
    | rollback tx hrb =>
      subst he
      exact ended tx (hq.began hrb.transaction).1 fun hnot ↦ hne (Cell.rollback_of_not hnot).symm
    | write tx userId' id' wr r hfree hr =>
      cases he
      by_cases hkey : (userId, id) = (userId', id')
      · cases hkey
        obtain ⟨-, -, caller, hc, hid, hmay⟩ := hq
        obtain ⟨-, n, hn, hrest⟩ := hmay _ (hcons.holds _ _ ht)
        exact ⟨t, _, _, caller, rfl, ht, hc, hid, n, hnotif n hn, hrest⟩
      · exact (hne (write_receipts_of_ne hkey).symm).elim

/-- The step takes back that the user has read the notification. -/
def TakesBack (userId id : JsString) (w : NotificationWorld) (e : NotificationEvent) : Prop :=
  ∃ t tx th caller, e = .exchange t ⟨.commit tx, some ()⟩ ∧ w.threads t = some th ∧
    th.op = .markUnread caller id ∧ caller.id = userId

/-- A time of reading that is committed changes only when a `markUnread` of the notification
commits. -/
theorem readAt_of_step (hw : Reach (notifications C) (fun _ _ ↦ True) (.init .init) w)
    {e : NotificationEvent} (h : Step (notifications C) w e w') {r : Receipt}
    (hr : w.state.committed userId id = some r) {readAt : ℤ} (hread : r.readAt = some readAt) :
    (∃ r', w'.state.committed userId id = some r' ∧ r'.readAt = some readAt) ∨
      TakesBack userId id w e := by
  by_cases hne : w.state.committed userId id = w'.state.committed userId id
  · exact .inl ⟨r, hne ▸ hr, hread⟩
  · obtain ⟨r', t, tx, th, ⟨hevent, ht, -, hmem, wr, hmay, happly⟩, hr'⟩ :=
      commits_of_step hw h hne
    rw [hr] at happly
    have hsome : r.readAt.isSome := by rw [hread]; rfl
    rcases wr.apply_readAt happly hsome with rfl | hkeep
    · refine .inr ⟨t, tx, th, ?_⟩
      obtain ⟨caller, hc, hid, -⟩ := (consistent_of_reach hw).own _ _ _ ht hmem
      obtain ⟨op, hist, rest⟩ := th
      cases op with
      | markUnread caller' id' =>
        cases hc
        obtain ⟨rfl, -⟩ := hmay
        exact ⟨caller, hevent, ht, rfl, hid⟩
      | markRead | markManyRead => cases hmay
      | dismiss => rcases hmay with h | h | h <;> cases h
      | _ => exact hmay.elim
    · exact .inl ⟨r', hr', hkeep.trans hread⟩

/-! ### Dismissals -/

/-- The user has dismissed the notification. -/
def Dismissed (s : NotificationState) (userId id : JsString) : Prop :=
  ∃ r, s.committed userId id = some r ∧ r.dismissedAt.isSome

/-- No step takes a dismissal back. -/
theorem Dismissed.step (hw : Reach (notifications C) (fun _ _ ↦ True) (.init .init) w)
    (h : Dismissed w.state userId id) {e : NotificationEvent}
    (hstep : Step (notifications C) w e w') : Dismissed w'.state userId id := by
  obtain ⟨r, hr, hdis⟩ := h
  by_cases hne : w.state.committed userId id = w'.state.committed userId id
  · exact ⟨r, hne ▸ hr, hdis⟩
  · obtain ⟨r', t, tx, th, hc, hr'⟩ := commits_of_step hw hstep hne
    obtain ⟨wr, -, happly⟩ := hc.write
    rw [hr] at happly
    exact ⟨r', hr', by rw [wr.apply_dismissed happly hdis]; exact hdis⟩

/-- So no run does. -/
theorem Dismissed.reach (hw : Reach (notifications C) (fun _ _ ↦ True) (.init .init) w)
    (h : Dismissed w.state userId id)
    (hrun : Reach (notifications C) (fun _ _ ↦ True) w w') : Dismissed w'.state userId id := by
  induction hrun with
  | init => exact h
  | step hrun _ hstep ih => exact ih.step (hw.trans hrun) hstep

/-- A condition that includes `visibleTo` does not hold of a notification that was dismissed. -/
theorem Dismissed.not_matching {caller : NotificationCaller} {filter : NotificationFilter}
    (h : Dismissed s caller.id id)
    (hfilter : ∀ receipts n, filter receipts n = true → visibleTo caller receipts n = true) :
    ∀ n ∈ s.matching filter s.committed, n.id ≠ id := by
  rintro n hn rfl
  obtain ⟨-, hp⟩ := List.mem_filter.1 hn
  obtain ⟨r, hr, hdis⟩ := h
  have hvis := (allOf_pair.1 (hfilter _ _ hp)).2
  simp [noReceipt, hr, hdis] at hvis

/-- What is listed is visible to the caller. -/
theorem visibleTo_of_listWhere {caller : NotificationCaller} {query : ListAdminNotificationsQuery}
    {floor : Option ℤ} {receipts : Receipts} {n : AdminNotification}
    (h : notificationListWhere C caller query floor receipts n = true) :
    visibleTo caller receipts n = true := by
  unfold notificationListWhere allOf at h
  exact List.all_eq_true.1 h _ (by simp)

end EasyBook.Notifications

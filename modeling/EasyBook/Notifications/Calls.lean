import EasyBook.Notifications.Model

/-!
# What the calls on the notifications ask for

A call writes a receipt in a transaction that it has begun and not yet ended, for its own caller,
and only for a notification that it has been shown as one for the caller's role (`Justified`). The
number that it answers is that of the receipts which it was told it has changed (`Reported`).
-/

namespace EasyBook.Notifications

open Machine Machine.Task

variable {C : NotificationConfig}

/-! ### Calls -/

namespace NotificationCall

/-- For whom the call is made. -/
def caller : NotificationCall → Option NotificationCaller
  | create _ => none
  | list caller _ _ _ | unreadCount caller | markRead caller _ _ | markUnread caller _
  | markManyRead caller _ _ | dismiss caller _ _ _ => some caller

/-- The user whose notifications the call dismisses. -/
def dismisser : NotificationCall → Option JsString
  | dismiss caller _ _ _ => some caller.id
  | _ => none

/-- What the call may do to the receipt for a notification. -/
def MayWrite : NotificationCall → JsString → ReceiptWrite → Prop
  | markRead _ _ now, _, w | markManyRead _ _ now, _, w => w = .markRead now
  | markUnread _ id, id', w => id' = id ∧ w = .markUnread
  | dismiss _ _ _ now, _, w => w = .dismissRead now ∨ w = .createDismissed now ∨ w = .dismiss now
  | _, _, _ => False

end NotificationCall

/-! ### Exchanges -/

/-- The receipt that the exchange has changed. -/
def changed : NotificationExchange → Option (JsString × JsString)
  | ⟨.write _ userId id _, some true⟩ => some (userId, id)
  | _ => none

/-- The receipts that a call has changed. -/
def changes (h : List NotificationExchange) : List (JsString × JsString) := h.filterMap changed

/-- The exchange ends the transaction of the call. -/
def Closes : NotificationExchange → Prop
  | ⟨.commit _, _⟩ | ⟨.select _ _, none⟩ | ⟨.write _ _ _ _, none⟩ => True
  | _ => False

/-- The transaction of the call, if it has begun one, is not over. -/
def IsOpen (h : List NotificationExchange) : Prop := ∀ e ∈ h, ¬ Closes e

/-- The call has begun the transaction. -/
def Began (tx : ℕ) (h : List NotificationExchange) : Prop :=
  (⟨.begin, some tx⟩ : NotificationExchange) ∈ h

/-- The call has committed its transaction. -/
def Committed (h : List NotificationExchange) : Prop :=
  ∃ tx, (⟨.commit tx, some ()⟩ : NotificationExchange) ∈ h

/-- What an answer says about the notifications that there are. -/
def Holds (R : AdminNotification → Prop) : NotificationExchange → Prop
  | ⟨.select _ filter, some ids⟩ =>
    ∀ id ∈ ids, ∃ receipts n, R n ∧ n.id = id ∧ filter receipts n = true
  | ⟨.findFirst filter _, some (some _)⟩ => ∃ receipts n, R n ∧ filter receipts n = true
  | _ => True

/-- By the answers that it has had, the call may change a receipt: it is one for a notification that
the role of its caller may see. -/
def MayChange (op : NotificationCall) (caller : NotificationCaller) (h : List NotificationExchange)
    (id : JsString) (w : ReceiptWrite) : Prop :=
  ∀ R, (∀ e ∈ h, Holds R e) →
    op.MayWrite id w ∧ ∃ n, R n ∧ n.id = id ∧ n.targetRole ∈ visibleTargetRoles caller.role

/-- When a call sends a request. -/
def Justified (op : NotificationCall) (h : List NotificationExchange) : NotificationQuery → Prop
  | .begin => IsOpen h ∧ ∀ tx, ¬ Began tx h
  | .commit tx | .select tx _ => Began tx h ∧ IsOpen h
  | .write tx userId id w => Began tx h ∧ IsOpen h ∧
      ∃ caller, op.caller = some caller ∧ caller.id = userId ∧ MayChange op caller h id w
  | _ => op.dismisser = none

/-- What a call has done when it is over. -/
def Reported (op : NotificationCall) (h : List NotificationExchange) :
    Except NotificationError NotificationReply → Prop
  | .ok (.updated n) => op.dismisser = none ∧ Committed h ∧ (changes h).length = n
  | .ok (.deleted n) => op.dismisser ≠ none ∧ Committed h ∧ (changes h).length = n
  | _ => op.dismisser ≠ none → ¬ Committed h

/-- What is open has not been committed. -/
theorem IsOpen.not_committed {h : List NotificationExchange} (hopen : IsOpen h) :
    ¬ Committed h := by
  rintro ⟨tx, htx⟩
  exact hopen _ htx trivial

/-- An exchange that closes nothing leaves it open. -/
theorem IsOpen.snoc {h : List NotificationExchange} {e : NotificationExchange} (hopen : IsOpen h)
    (he : ¬ Closes e) : IsOpen (h ++ [e]) := by
  intro e' he'
  rcases List.mem_append.1 he' with he' | he'
  · exact hopen e' he'
  · obtain rfl := List.mem_singleton.1 he'
    exact he

/-- An open call that sends something other than a commit has not committed. -/
theorem IsOpen.not_committed_snoc {h : List NotificationExchange} {e : NotificationExchange}
    (hopen : IsOpen h) (he : ∀ tx, e.1 ≠ .commit tx) : ¬ Committed (h ++ [e]) := by
  rintro ⟨tx, htx⟩
  rcases List.mem_append.1 htx with htx | htx
  · exact hopen _ htx trivial
  · obtain rfl := List.mem_singleton.1 htx
    exact he tx rfl

@[simp] theorem changes_append (h h' : List NotificationExchange) :
    changes (h ++ h') = changes h ++ changes h' := List.filterMap_append

/-- What a call may change, it may change later too. -/
theorem MayChange.mono {op : NotificationCall} {caller : NotificationCaller}
    {h h' : List NotificationExchange} {id : JsString} {w : ReceiptWrite}
    (hmay : MayChange op caller h id w) (hsub : ∀ e ∈ h, e ∈ h') : MayChange op caller h' id w :=
  fun R hR ↦ hmay R fun e he ↦ hR e (hsub e he)

/-! ### What is asked on the way -/

section Asking

variable {op : NotificationCall} {caller : NotificationCaller} {α β : Type}
  {h : List NotificationExchange} {tx : ℕ} {w : ReceiptWrite}

/-- A condition on the two ways in which a part of a call may end. -/
def Outcome (ok : List NotificationExchange → α → Prop)
    (error : List NotificationExchange → Prop) (h : List NotificationExchange) :
    Except NotificationError α → Prop
  | .ok a => ok h a
  | .error _ => error h

/-- A part of a call sends only what is justified, and ends in one of two ways. -/
abbrev Asking (op : NotificationCall) (h : List NotificationExchange) (p : NotificationTask α)
    (ok : List NotificationExchange → α → Prop) (error : List NotificationExchange → Prop) : Prop :=
  p.run.AsksAfter (Justified op) (Outcome ok error) h

variable {ok : List NotificationExchange → α → Prop} {error : List NotificationExchange → Prop}

/-- A call that returns asks nothing more. -/
theorem asking_return {a : α} (ha : ok h a) : Asking op h (pure a) ok error := ha

/-- A call that fails asks nothing more. -/
theorem asking_throw {e : NotificationError} (he : error h) :
    Asking op h (throw e : NotificationTask α) ok error := he

/-- What a sequence asks is what its two parts ask. -/
theorem asking_bind {ok' : List NotificationExchange → β → Prop} {p : NotificationTask α}
    {f : α → NotificationTask β} (hp : Asking op h p ok error)
    (hf : ∀ h a, ok h a → Asking op h (f a) ok' error) : Asking op h (p >>= f) ok' error := by
  refine Task.AsksAfter.bind hp fun h r hr ↦ ?_
  cases r with
  | ok a => exact hf h a hr
  | error e => exact hr

/-- A command that is justified, with its answer or without one. -/
theorem asking_send_bind {q : NotificationQuery} {f : NotificationResult q → NotificationTask α}
    (hq : Justified op h q) (hf : ∀ a, Asking op (h ++ [⟨q, some a⟩]) (f a) ok error)
    (herror : error (h ++ [⟨q, none⟩])) : Asking op h (send q >>= f) ok error := by
  refine ⟨hq, fun a ↦ ?_⟩
  cases a with
  | none => exact herror
  | some a => exact hf a

/-- A weaker demand is met where the stronger one is. -/
theorem asking_imp {ok' : List NotificationExchange → α → Prop}
    {error' : List NotificationExchange → Prop} {p : NotificationTask α}
    (hp : Asking op h p ok error) (hok : ∀ h a, ok h a → ok' h a)
    (herror : ∀ h, error h → error' h) : Asking op h p ok' error' := by
  refine Task.AsksAfter.imp hp fun h r hr ↦ ?_
  cases r with
  | ok a => exact hok h a hr
  | error e => exact herror h hr

/-- What a transaction has done on its way, from one history to another: it has changed `n`
receipts. -/
structure Writing (h h' : List NotificationExchange) (n : ℕ) : Prop where
  subset : ∀ e ∈ h, e ∈ h'
  isOpen : IsOpen h'
  count : (changes h').length = (changes h).length + n

/-- The counts of two stretches of writes add up. -/
theorem Writing.trans {h h' h'' : List NotificationExchange} {n m : ℕ} (hw : Writing h h' n)
    (hw' : Writing h' h'' m) : Writing h h'' (n + m) where
  subset e he := hw'.subset e (hw.subset e he)
  isOpen := hw'.isOpen
  count := by rw [hw'.count, hw.count, Nat.add_assoc]

/-- `writeEach` counts the rows its statements change, one id after the other. -/
theorem asking_writeEach {ids : List JsString} (hbegan : Began tx h) (hopen : IsOpen h)
    (hcaller : op.caller = some caller) (hids : ∀ id ∈ ids, MayChange op caller h id w) :
    Asking op h (writeEach tx caller.id w ids) (Writing h) (¬ Committed ·) := by
  induction ids generalizing h with
  | nil => exact asking_return ⟨fun _ he ↦ he, hopen, rfl⟩
  | cons id ids ih =>
    refine asking_send_bind
      ⟨hbegan, hopen, caller, hcaller, rfl, hids id List.mem_cons_self⟩ (fun changed ↦ ?_)
      (hopen.not_committed_snoc fun _ ↦ nofun)
    have hsub : ∀ e ∈ h, e ∈ h ++ [⟨.write tx caller.id id w, some changed⟩] :=
      fun e he ↦ List.mem_append_left _ he
    have hstep : Writing h (h ++ [⟨.write tx caller.id id w, some changed⟩])
        (if changed then 1 else 0) := by
      refine ⟨hsub, hopen.snoc fun hc ↦ hc, ?_⟩
      rw [changes_append, List.length_append]
      cases changed <;> rfl
    exact asking_bind (ih (hsub _ hbegan) hstep.isOpen fun id' hid' ↦
      (hids id' (List.mem_cons_of_mem _ hid')).mono hsub) fun h' n hn ↦
        asking_return (hstep.trans hn)

/-- `writeWhere` selects first and then writes what it has selected. -/
theorem asking_writeWhere {filter : NotificationFilter} (hbegan : Began tx h) (hopen : IsOpen h)
    (hcaller : op.caller = some caller)
    (hids : ∀ ids, ∀ id ∈ ids, MayChange op caller (h ++ [⟨.select tx filter, some ids⟩]) id w) :
    Asking op h (writeWhere tx caller.id w filter) (Writing h) (¬ Committed ·) := by
  refine asking_send_bind ⟨hbegan, hopen⟩ (fun ids ↦ ?_)
    (hopen.not_committed_snoc fun _ ↦ nofun)
  have hopen' : IsOpen (h ++ [⟨.select tx filter, some ids⟩]) := hopen.snoc fun hc ↦ hc
  refine asking_imp (asking_writeEach (List.mem_append_left _ hbegan) hopen' hcaller (hids ids))
    (fun h' n hn ↦ ?_) fun _ he ↦ he
  refine ⟨fun e he ↦ hn.subset e (List.mem_append_left _ he), hn.isOpen, hn.count.trans ?_⟩
  rw [changes_append, List.length_append]
  rfl

/-- What a call has done when its transaction is over. -/
structure Written (h h' : List NotificationExchange) (n : ℕ) : Prop where
  committed : Committed h'
  count : (changes h').length = (changes h).length + n

/-- A transaction commits when its body ends well, and is rolled back when it fails. -/
theorem asking_transaction {body : ℕ → NotificationTask ℕ} (hopen : IsOpen h)
    (hfresh : ∀ tx, ¬ Began tx h)
    (hbody : ∀ tx, Asking op (h ++ [⟨.begin, some tx⟩]) (body tx)
      (Writing (h ++ [⟨.begin, some tx⟩])) (¬ Committed ·)) :
    Asking op h (transaction body) (Written h) (¬ Committed ·) := by
  refine asking_send_bind ⟨hopen, hfresh⟩ (fun tx ↦ asking_bind (hbody tx) fun h' n hn ↦ ?_)
    (hopen.not_committed_snoc fun _ ↦ nofun)
  refine asking_send_bind ⟨hn.subset _ (by simp), hn.isOpen⟩ (fun _ ↦ asking_return ?_) ?_
  · refine ⟨⟨tx, by simp⟩, ?_⟩
    rw [changes_append, List.length_append, hn.count, changes_append, List.length_append]
    rfl
  · rintro ⟨tx', htx'⟩
    rcases List.mem_append.1 htx' with htx' | htx'
    · exact hn.isOpen _ htx' trivial
    · cases List.mem_singleton.1 htx'

/-! ### The calls -/

/-- Two conditions at once. -/
theorem allOf_pair {p q : NotificationFilter} {receipts : Receipts} {n : AdminNotification} :
    allOf [p, q] receipts n = true ↔ p receipts n = true ∧ q receipts n = true := by
  simp [allOf]

/-- The filter of ids. -/
theorem idIn_iff {ids : List JsString} {receipts : Receipts} {n : AdminNotification} :
    idIn ids receipts n = true ↔ n.id ∈ ids := decide_eq_true_iff

/-- The filter of roles. -/
theorem targetRoleIn_iff {roles : List AdminNotificationTargetRole} {receipts : Receipts}
    {n : AdminNotification} : targetRoleIn roles receipts n = true ↔ n.targetRole ∈ roles :=
  decide_eq_true_iff

/-- What is visible to a caller is meant for the caller's role. -/
theorem targetRole_of_visibleTo {receipts : Receipts} {n : AdminNotification}
    (h : visibleTo caller receipts n = true) : n.targetRole ∈ visibleTargetRoles caller.role :=
  targetRoleIn_iff.1 (allOf_pair.1 h).1

/-- So is what is marked read. -/
theorem targetRole_of_unreadTargets {ids : Option (List JsString)} {receipts : Receipts}
    {n : AdminNotification} (h : unreadTargets caller ids receipts n = true) :
    n.targetRole ∈ visibleTargetRoles caller.role := by
  unfold unreadTargets allOf at h
  exact targetRoleIn_iff.1 (List.all_eq_true.1 h _ List.mem_cons_self)

/-- The notifications that a snapshot finds are such that a call may write their receipts. -/
theorem mayChange_of_select {filter : NotificationFilter} {ids : List JsString} {id : JsString}
    (hid : id ∈ ids) (hmay : op.MayWrite id w)
    (hfilter : ∀ receipts n, filter receipts n = true →
      n.targetRole ∈ visibleTargetRoles caller.role) :
    MayChange op caller (h ++ [⟨.select tx filter, some ids⟩]) id w := by
  intro R hR
  obtain ⟨receipts, n, hn, hnid, hp⟩ :=
    hR ⟨.select tx filter, some ids⟩ (List.mem_append_right _ List.mem_cons_self) id hid
  exact ⟨hmay, n, hn, hnid, hfilter receipts n hp⟩

/-- Marking read writes receipts of the caller for what the caller may see. -/
theorem asking_markManyRead {ids : Option (List JsString)} {now : ℤ} (hopen : IsOpen h)
    (hfresh : ∀ tx, ¬ Began tx h) (hcaller : op.caller = some caller)
    (hmay : ∀ id, op.MayWrite id (.markRead now)) :
    Asking op h (markManyRead caller ids now) (Written h) (¬ Committed ·) :=
  asking_transaction hopen hfresh fun tx ↦
    asking_writeWhere (by simp [Began]) (hopen.snoc fun hc ↦ hc) hcaller fun _ id hid ↦
      mayChange_of_select hid (hmay id) fun _ _ ↦ targetRole_of_unreadTargets

/-- A call that has found a notification has been shown it. -/
def Shown (caller : NotificationCaller) (id : JsString) (h : List NotificationExchange) : Prop :=
  IsOpen h ∧ (∀ tx, ¬ Began tx h) ∧
    ∀ R, (∀ e ∈ h, Holds R e) → ∃ n, R n ∧ n.id = id ∧
      n.targetRole ∈ visibleTargetRoles caller.role

/-- The check of one notification has shown it when it passes. -/
theorem asking_assertVisible {id : JsString} (hop : op.dismisser = none) :
    Asking op [] (assertVisible caller id) (fun h _ ↦ Shown caller id h) fun _ ↦ True := by
  unfold assertVisible
  by_cases hid : notificationIdPattern id = true
  · rw [hid]
    refine asking_send_bind hop (fun row ↦ ?_) trivial
    cases row with
    | none => exact asking_throw trivial
    | some row =>
      refine asking_return ⟨?_, ?_, fun R hR ↦ ?_⟩
      · exact fun e he ↦ by
          obtain rfl := List.mem_singleton.1 he
          exact fun hc ↦ hc
      · intro tx htx
        cases List.mem_singleton.1 htx
      · obtain ⟨receipts, n, hn, hp⟩ := hR _ (List.mem_singleton.2 rfl)
        obtain ⟨hvisible, hn'⟩ := allOf_pair.1 hp
        exact ⟨n, hn, List.mem_singleton.1 (idIn_iff.1 hn'), targetRole_of_visibleTo hvisible⟩
  · rw [Bool.not_eq_true] at hid
    rw [hid]
    exact asking_throw trivial

/-- The row that is answered is read after the write. -/
theorem asking_readOne {id : JsString} (hop : op.dismisser = none) :
    Asking op h (readOne caller id) (fun _ reply ↦ ∃ row, reply = .item row) fun _ ↦ True := by
  refine asking_send_bind hop (fun row ↦ ?_) trivial
  cases row with
  | none => exact asking_throw trivial
  | some row => exact asking_return ⟨_, rfl⟩

/-- Dismissing by id writes for those of the ids that are visible. -/
theorem asking_dismissIds {ids : List JsString} {allRead : Option Bool} {now : ℤ}
    {ids' : Option (List JsString)} (hop : op = .dismiss caller ids' allRead now) :
    Asking op [] (dismissIds caller ids now) (Written []) (¬ Committed ·) := by
  have hcaller : op.caller = some caller := by rw [hop]; rfl
  have hempty : IsOpen [] := fun _ he ↦ (List.not_mem_nil he).elim
  refine asking_transaction hempty (fun _ ↦ List.not_mem_nil) fun tx ↦ ?_
  have hopen : IsOpen [⟨.begin, some tx⟩] := hempty.snoc fun hc ↦ hc
  refine asking_send_bind ⟨List.mem_cons_self, hopen⟩ (fun targetIds ↦ ?_)
    (hopen.not_committed_snoc fun _ ↦ nofun)
  have hopen' : IsOpen [⟨.begin, some tx⟩,
      ⟨.select tx (allOf [visibleTo caller, idIn ids]), some targetIds⟩] :=
    hopen.snoc fun hc ↦ hc
  have hvisible : ∀ id ∈ targetIds, ∀ w, op.MayWrite id w → MayChange op caller
      [⟨.begin, some tx⟩, ⟨.select tx (allOf [visibleTo caller, idIn ids]), some targetIds⟩] id w :=
    fun id hid w hmay ↦ mayChange_of_select (h := [⟨.begin, some tx⟩]) hid hmay
      fun _ _ hp ↦ targetRole_of_visibleTo (allOf_pair.1 hp).1
  by_cases htargets : targetIds = []
  · rw [if_pos htargets]
    exact asking_return ⟨fun _ he ↦ List.mem_append_left _ he, hopen', rfl⟩
  rw [if_neg htargets]
  refine asking_bind (asking_writeEach List.mem_cons_self hopen' hcaller fun id hid ↦
    hvisible id hid _ (by rw [hop]; exact .inr (.inl rfl))) fun h' created hcreated ↦ ?_
  refine asking_bind (asking_writeWhere (hcreated.subset _ List.mem_cons_self) hcreated.isOpen
    hcaller fun ids' id hid R hR ↦ ?_) fun h'' updated hupdated ↦ asking_return ?_
  · -- What is updated was among the targets.
    obtain ⟨receipts, n, -, rfl, hp⟩ :=
      hR ⟨.select _ _, some ids'⟩ (List.mem_append_right _ List.mem_cons_self) id hid
    have hmay : op.MayWrite n.id (.dismiss now) := by rw [hop]; exact .inr (.inr rfl)
    exact hvisible n.id (idIn_iff.1 (allOf_pair.1 hp).1) _ hmay R fun e he ↦
      hR e (List.mem_append_left _ (hcreated.subset e he))
  · exact ⟨fun e he ↦ hupdated.subset e (hcreated.subset e (List.mem_append_left _ he)),
      hupdated.isOpen, (hcreated.trans hupdated).count⟩

/-- `dismiss` answers with the number of receipts it has changed, and has committed them. -/
theorem asking_dismiss {ids : Option (List JsString)} {allRead : Option Bool} {now : ℤ}
    (hop : op = .dismiss caller ids allRead now) :
    Asking op [] (dismiss caller ids allRead now)
      (fun h reply ↦ ∃ n, reply = .deleted n ∧ Written [] h n) (¬ Committed ·) := by
  have hcaller : op.caller = some caller := by rw [hop]; rfl
  have hempty : IsOpen [] := fun _ he ↦ (List.not_mem_nil he).elim
  unfold dismiss
  by_cases htarget : ids.isNone = allRead.isNone
  · rw [if_pos htarget]
    exact asking_throw hempty.not_committed
  rw [if_neg htarget]
  dsimp only
  by_cases hall : allRead = some true
  · rw [if_pos hall]
    refine asking_bind (asking_transaction hempty (fun _ ↦ List.not_mem_nil) fun tx ↦
      asking_writeWhere List.mem_cons_self (hempty.snoc fun hc ↦ hc) hcaller fun _ id hid ↦
        mayChange_of_select hid (by rw [hop]; exact .inl rfl) fun _ _ hp ↦
          targetRoleIn_iff.1 (allOf_pair.1 hp).2) fun h n hn ↦ asking_return ⟨n, rfl, hn⟩
  · rw [if_neg hall]
    exact asking_bind (asking_dismissIds hop) fun h n hn ↦ asking_return ⟨n, rfl, hn⟩

/-- The reply is not a number of changes. -/
def Unnumbered (reply : NotificationReply) : Prop :=
  (∀ n, reply ≠ .updated n) ∧ ∀ n, reply ≠ .deleted n

/-- A call that answers with no number has nothing to account for. -/
theorem reported_of_unnumbered {p : NotificationTask NotificationReply}
    (hop : op.dismisser = none)
    (hp : Asking op [] p (fun _ reply ↦ Unnumbered reply) fun _ ↦ True) :
    p.run.AsksAfter (Justified op) (Reported op) [] := by
  refine Task.AsksAfter.imp hp fun h r hr ↦ ?_
  rcases r with e | reply
  · exact fun hne ↦ (hne hop).elim
  · cases reply with
    | updated n => exact (hr.1 n rfl).elim
    | deleted n => exact (hr.2 n rfl).elim
    | created | page | unread | item => exact fun hne ↦ (hne hop).elim

/-- Listing only reads. -/
theorem asking_list {query : ListAdminNotificationsQuery} {now : ℤ} {countFirst : Bool}
    (hop : op.dismisser = none) :
    Asking op [] (list C caller query now countFirst) (fun _ reply ↦ Unnumbered reply)
      fun _ ↦ True := by
  unfold list
  cases countFirst with
  | true =>
    exact asking_send_bind hop (fun _ ↦ asking_send_bind hop (fun _ ↦
      asking_return ⟨nofun, nofun⟩) trivial) trivial
  | false =>
    exact asking_send_bind hop (fun _ ↦ asking_send_bind hop (fun _ ↦
      asking_return ⟨nofun, nofun⟩) trivial) trivial

/-- Every request is justified, and the numbers that are answered are those of the changes. -/
theorem asking_task (op : NotificationCall) :
    (op.task C).run.AsksAfter (Justified op) (Reported op) [] := by
  have hempty : IsOpen [] := fun _ he ↦ (List.not_mem_nil he).elim
  have unnumbered : ∀ (_ : List NotificationExchange) (reply : NotificationReply),
      (∃ row, reply = .item row) → Unnumbered reply := by
    rintro _ _ ⟨row, rfl⟩
    exact ⟨nofun, nofun⟩
  cases op with
  | create input =>
    refine reported_of_unnumbered rfl ?_
    change Asking _ [] (create C input) _ _
    unfold create
    cases normaliseCreateInput C input with
    | error e => exact asking_throw trivial
    | ok data => exact asking_send_bind rfl (fun _ ↦ asking_return ⟨nofun, nofun⟩) trivial
  | list caller query now countFirst => exact reported_of_unnumbered rfl (asking_list rfl)
  | unreadCount caller =>
    exact reported_of_unnumbered rfl
      (asking_send_bind rfl (fun _ ↦ asking_return ⟨nofun, nofun⟩) trivial)
  | markRead caller id now =>
    refine reported_of_unnumbered rfl (asking_bind (asking_assertVisible rfl) ?_)
    rintro h _ ⟨hopen, hfresh, -⟩
    refine asking_bind (asking_imp (asking_markManyRead hopen hfresh rfl fun _ ↦ rfl)
      (fun _ _ hw ↦ hw) fun _ _ ↦ trivial) fun h' n _ ↦ ?_
    exact asking_imp (asking_readOne rfl) unnumbered fun _ _ ↦ trivial
  | markUnread caller id =>
    refine reported_of_unnumbered rfl (asking_bind (asking_assertVisible rfl) ?_)
    rintro h _ ⟨hopen, hfresh, hshown⟩
    refine asking_bind (asking_imp (asking_transaction hopen hfresh fun tx ↦
      asking_writeWhere (by simp [Began]) (hopen.snoc fun hc ↦ hc) rfl fun ids id' hid R hR ↦ ?_)
      (fun _ _ hw ↦ hw) fun _ _ ↦ trivial) fun h' n _ ↦
        asking_imp (asking_readOne rfl) unnumbered fun _ _ ↦ trivial
    obtain ⟨receipts, n, -, rfl, hp⟩ :=
      hR ⟨.select _ _, some ids⟩ (List.mem_append_right _ List.mem_cons_self) id' hid
    have hn : n.id = id := List.mem_singleton.1 (idIn_iff.1 (allOf_pair.1 hp).1)
    exact ⟨⟨hn, rfl⟩, hn ▸ hshown R fun e he ↦
      hR e (List.mem_append_left _ (List.mem_append_left _ he))⟩
  | markManyRead caller ids now =>
    have hp : Asking (.markManyRead caller ids now) [] (markManyRead caller ids now) (Written [])
        (¬ Committed ·) :=
      asking_markManyRead hempty (fun _ ↦ List.not_mem_nil) rfl fun _ ↦ rfl
    refine Task.AsksAfter.bind hp fun h r hr ↦ ?_
    rcases r with e | n
    · exact fun hne ↦ (hne rfl).elim
    · exact ⟨rfl, hr.committed, hr.count.trans (Nat.zero_add n)⟩
  | dismiss caller ids allRead now =>
    refine Task.AsksAfter.imp (asking_dismiss rfl) fun h r hr ↦ ?_
    rcases r with e | reply
    · exact fun _ ↦ hr
    · obtain ⟨n, rfl, hn⟩ := hr
      exact ⟨nofun, hn.committed, hn.count.trans (Nat.zero_add n)⟩

end Asking

end EasyBook.Notifications

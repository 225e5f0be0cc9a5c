import EasyBook.Machine.Rely
import EasyBook.Notifications.Receipts

/-!
# What a dismissal has dismissed

A `dismiss` that has ended without an error has dismissed what it was asked to, whoever else wrote
the receipts in the meantime (`dismissed_of_dismiss`): the insertion of `dismissIds` leaves a
receipt for every target, and its update then finds each that is not dismissed yet.

The proof goes along the call. Between its requests others may commit (`Relies`); what its own
transaction sees of a receipt only moves on (`Later`).
-/

namespace EasyBook.Notifications

open Machine Machine.Task

variable {C : NotificationConfig} {s s' s'' : NotificationState} {w w' : NotificationWorld}
  {userId id : JsString} {tx : ℕ}

/-! ### What the others may do -/

/-- A receipt is there ever after; a dismissal stands, and with `keep` a reading. -/
def Later (keep : Prop) (x x' : Option Receipt) : Prop :=
  ∀ r, x = some r → ∃ r', x' = some r' ∧ (r.dismissedAt.isSome → r'.dismissedAt.isSome) ∧
    (keep → r.readAt.isSome → r'.readAt.isSome)

/-- A receipt is no earlier than itself. -/
theorem Later.refl {keep : Prop} (x : Option Receipt) : Later keep x x :=
  fun r hr ↦ ⟨r, hr, id, fun _ ↦ id⟩

/-- Later than later is later. -/
theorem Later.trans {keep : Prop} {x x' x'' : Option Receipt} (h : Later keep x x')
    (h' : Later keep x' x'') : Later keep x x'' := by
  intro r hr
  obtain ⟨r', hr', hdis, hread⟩ := h r hr
  obtain ⟨r'', hr'', hdis', hread'⟩ := h' r' hr'
  exact ⟨r'', hr'', hdis' ∘ hdis, fun hk ↦ hread' hk ∘ hread hk⟩

/-- Who has written over a receipt has begun. -/
def Sane (s : NotificationState) : Prop :=
  ∀ userId id tx r, (s.receipts userId id).written = some (tx, r) → tx < s.transactions

/-- What a call of the user relies on after what it has exchanged. -/
structure Relies (userId : JsString) (keep : JsString → Prop) (h : List NotificationExchange)
    (s s' : NotificationState) : Prop where
  notifications : ∀ n ∈ s.notifications, n ∈ s'.notifications
  sane : Sane s → Sane s'
  committed : ∀ id, Later (keep id) (s.committed userId id) (s'.committed userId id)
  seen : ∀ tx, Began tx h → ∀ id,
    Later (keep id) (s.seenBy tx userId id) (s'.seenBy tx userId id)

variable {keep : JsString → Prop} {h : List NotificationExchange}

/-- A state may be followed by itself. -/
theorem Relies.refl (h : List NotificationExchange) (s : NotificationState) :
    Relies userId keep h s s :=
  ⟨fun _ hn ↦ hn, id, fun _ ↦ .refl _, fun _ _ _ ↦ .refl _⟩

/-- What the others may do in two steps they may do in one. -/
theorem Relies.trans (h : List NotificationExchange) (s s' s'' : NotificationState)
    (hR : Relies userId keep h s s') (hR' : Relies userId keep h s' s'') :
    Relies userId keep h s s'' where
  notifications n hn := hR'.notifications n (hR.notifications n hn)
  sane := hR'.sane ∘ hR.sane
  committed id := (hR.committed id).trans (hR'.committed id)
  seen tx hbegan id := (hR.seen tx hbegan id).trans (hR'.seen tx hbegan id)

/-- Every state of a run is sane. -/
theorem sane_of_reach (hw : Reach (notifications C) (fun _ _ ↦ True) (.init .init) w) :
    Sane w.state := by
  intro userId id tx r hr
  obtain ⟨t, th, -, ht, hbegan, -⟩ := (consistent_of_reach hw).written _ _ _ _ hr
  exact (consistent_of_reach hw).lt _ _ _ ht hbegan

/-- A committed receipt moves one way only, unless the step takes it back. -/
theorem later_committed (hw : Reach (notifications C) (fun _ _ ↦ True) (.init .init) w)
    {e : NotificationEvent} (hstep : Step (notifications C) w e w') :
    Later (¬ TakesBack userId id w e) (w.state.committed userId id)
      (w'.state.committed userId id) := by
  intro r hr
  by_cases hne : w.state.committed userId id = w'.state.committed userId id
  · exact ⟨r, hne ▸ hr, fun h ↦ h, fun _ h ↦ h⟩
  obtain ⟨r', t, tx, th, -, hr'⟩ := commits_of_step hw hstep hne
  refine ⟨r', hr', fun hdis ↦ ?_, fun hkeep hread ↦ ?_⟩
  · obtain ⟨r'', hr'', hdis'⟩ := Dismissed.step hw ⟨r, hr, hdis⟩ hstep
    rw [hr'] at hr''
    exact Option.some.inj hr'' ▸ hdis'
  · obtain ⟨readAt, hat⟩ := Option.isSome_iff_exists.1 hread
    rcases readAt_of_step hw hstep hr hat with ⟨r'', hr'', hat'⟩ | hback
    · rw [hr'] at hr''
      rw [Option.some.inj hr'', hat']
      rfl
    · exact (hkeep hback).elim

/-- A transaction that has not written there sees what is committed. -/
theorem Cell.seenBy_of_not {c : Cell} (h : ∀ r, c.written ≠ some (tx, r)) :
    c.seenBy tx = c.committed := by
  unfold Cell.seenBy
  rcases hc : c.written with _ | ⟨owner, r⟩
  · rfl
  · refine if_neg ?_
    rintro rfl
    exact h r hc

/-- A step of another call, or of nobody, is one that a call relies on. -/
theorem relies_of_step (hw : Reach (notifications C) (fun _ _ ↦ True) (.init .init) w)
    {e : NotificationEvent} (hstep : Step (notifications C) w e w')
    (hkeep : ∀ id, keep id → ¬ TakesBack userId id w e) {t : ℕ}
    {th : Thread NotificationQuery NotificationAnswer (Except NotificationError NotificationReply)
      NotificationCall} (ht : w.threads t = some th) (hother : ∀ x, e ≠ .exchange t x) :
    Relies userId keep th.history w.state w'.state := by
  have hw' := hw.step trivial hstep
  have hcons := consistent_of_reach hw
  have hcons' := consistent_of_reach hw'
  have hcommitted : ∀ id,
      Later (keep id) (w.state.committed userId id) (w'.state.committed userId id) := by
    intro id r hr
    obtain ⟨r', hr', hdis, hread⟩ := later_committed hw hstep r hr
    exact ⟨r', hr', hdis, fun hk ↦ hread (hkeep id hk)⟩
  -- The call itself has not moved.
  have ht' : w'.threads t = some th := by
    cases hstep with
    | @start t' op hfree =>
      refine (Function.update_of_ne ?_ ..).trans ht
      rintro rfl
      rw [hfree] at ht
      cases ht
    | @exchange t' op h q k a s hask hd =>
      refine (Function.update_of_ne ?_ ..).trans ht
      rintro rfl
      exact hother _ rfl
    | environment hs => exact ht
  refine ⟨?_, fun _ ↦ sane_of_reach hw', hcommitted, fun tx hbegan id ↦ ?_⟩
  · cases hstep with
    | start => exact fun _ hn ↦ hn
    | exchange _ hd => exact notifications_of_does hd
    | environment hs => exact hs.elim
  by_cases hown : ∃ r, (w.state.receipts userId id).written = some (tx, r)
  · -- what the call has written nobody else touches
    obtain ⟨r, hr⟩ := hown
    have hsame : w'.state.receipts userId id = w.state.receipts userId id := by
      cases hstep with
      | start => rfl
      | @exchange t' op h q k a s hask hd =>
        refine hcons.cell_of_other hask (justified_of_reach hw hask) (receiptsStep_of_does hd) ?_
          ht hbegan hr
        rintro rfl
        exact hother _ rfl
      | environment hs => exact hs.elim
    unfold NotificationState.seenBy
    rw [hsame]
    exact .refl _
  · -- and what it has not written it has not written after the step
    have hnot : ∀ r, (w'.state.receipts userId id).written ≠ some (tx, r) := by
      intro r hr
      obtain ⟨t₁, th₁, -, ht₁, hbegan₁, hopen, hmem, -⟩ := hcons'.written _ _ _ _ hr
      obtain rfl := hcons'.owner _ _ _ _ _ ht₁ ht' hbegan₁ hbegan
      rw [ht'] at ht₁
      obtain rfl := Option.some.inj ht₁
      obtain ⟨tx', r', hbegan', hr'⟩ := hcons.locked _ _ _ ht hmem hopen
      obtain rfl := hcons.once _ _ _ _ ht hbegan hbegan'
      exact hown ⟨r', hr'⟩
    have hbefore : w.state.seenBy tx userId id = w.state.committed userId id :=
      Cell.seenBy_of_not fun r hr ↦ hown ⟨r, hr⟩
    have hafter : w'.state.seenBy tx userId id = w'.state.committed userId id :=
      Cell.seenBy_of_not hnot
    rw [hbefore, hafter]
    exact hcommitted id

/-! ### Along a call -/

section Along

variable {α β : Type}

/-- A part of a call that ends with a result ends with one that meets `post`, whatever the others
do that it relies on. -/
abbrev Along (userId : JsString) (keep : JsString → Prop) (p : NotificationTask α)
    (post : List NotificationExchange → α → NotificationState → Prop)
    (h : List NotificationExchange) (s : NotificationState) : Prop :=
  p.run.Under NotificationDoes (Relies userId keep) (fun h r s ↦ ∀ a, r = .ok a → post h a s) h s

/-- What a call returns at its end, after whatever the others have done meanwhile. -/
theorem along_return {a : α} {post : List NotificationExchange → α → NotificationState → Prop}
    (hpost : ∀ s', Relies userId keep h s s' → post h a s') :
    Along userId keep (pure a) post h s := by
  rintro s' hR _ ⟨⟩
  exact hpost s' hR

/-- A call that fails promises nothing. -/
theorem along_throw {e : NotificationError}
    {post : List NotificationExchange → α → NotificationState → Prop} :
    Along userId keep (throw e) post h s := by
  rintro s' hR _ ⟨⟩

/-- The condition of a sequence, through that of its first part. -/
theorem along_bind {p : NotificationTask α} {f : α → NotificationTask β}
    {post : List NotificationExchange → β → NotificationState → Prop}
    (hp : Along userId keep p (fun h a s ↦ Along userId keep (f a) post h s) h s) :
    Along userId keep (p >>= f) post h s := by
  refine Task.Under.bind .refl (Task.Under.mono hp fun _ r _ hr ↦ ?_)
  cases r with
  | ok a => exact hr a rfl
  | error e =>
    rintro s' - _ ⟨⟩

/-- A command runs on whatever the others have left, and what follows on its result. -/
theorem along_send_bind {q : NotificationQuery} {f : NotificationResult q → NotificationTask β}
    {post : List NotificationExchange → β → NotificationState → Prop}
    (hf : ∀ s₁, Relies userId keep h s s₁ → ∀ a s₂, NotificationDoes s₁ q (some a) s₂ →
      Along userId keep (f a) post (h ++ [⟨q, some a⟩]) s₂) :
    Along userId keep (send q >>= f) post h s := by
  intro s₁ hR a s₂ hd
  cases a with
  | none =>
    rintro s' - _ ⟨⟩
  | some a => exact hf s₁ hR a s₂ hd

/-- A weaker demand is met where the stronger one is. -/
theorem along_mono {p : NotificationTask α}
    {post post' : List NotificationExchange → α → NotificationState → Prop}
    (hp : Along userId keep p post h s) (himp : ∀ h a s, post h a s → post' h a s) :
    Along userId keep p post' h s :=
  Task.Under.mono hp fun h _ s hr a ha ↦ himp h a s (hr a ha)

/-- How a call moves on in its transaction. -/
structure Onward (userId : JsString) (keep : JsString → Prop) (tx : ℕ)
    (s s' : NotificationState) : Prop where
  notifications : ∀ n ∈ s.notifications, n ∈ s'.notifications
  seen : ∀ id, Later (keep id) (s.seenBy tx userId id) (s'.seenBy tx userId id)

/-- What a transaction sees moves one way over two steps when it does over each. -/
theorem Onward.trans (ho : Onward userId keep tx s s') (ho' : Onward userId keep tx s' s'') :
    Onward userId keep tx s s'' :=
  ⟨fun n hn ↦ ho'.notifications n (ho.notifications n hn),
    fun id ↦ (ho.seen id).trans (ho'.seen id)⟩

/-- The others cannot take back what a transaction sees. -/
theorem Relies.onward (hR : Relies userId keep h s s') (hbegan : Began tx h) :
    Onward userId keep tx s s' := ⟨hR.notifications, hR.seen tx hbegan⟩

/-- What a write makes of what the transaction sees. -/
theorem seenBy_write (wr : ReceiptWrite) (id' : JsString) :
    (s.write tx userId id wr).seenBy tx userId id' =
      if id' = id then (wr.apply (s.seenBy tx userId id)).or (s.seenBy tx userId id)
      else s.seenBy tx userId id' := by
  unfold NotificationState.seenBy
  cases happly : wr.apply ((s.receipts userId id).seenBy tx) with
  | none =>
    have hcell : (s.receipts userId id).write tx wr = s.receipts userId id := by
      unfold Cell.write
      rw [happly]
    have hsame : s.write tx userId id wr = s := by
      unfold NotificationState.write
      rw [hcell, Function.update_eq_self, Function.update_eq_self]
    rw [hsame, Option.none_or]
    split_ifs with hid
    · rw [hid]
    · rfl
  | some r =>
    split_ifs with hid
    · rw [hid, write_receipts_self happly]
      exact Cell.seenBy_of_written rfl
    · rw [write_receipts_of_ne fun he ↦ hid (congrArg Prod.snd he)]

/-- No write but `markUnread` moves a receipt back. -/
theorem ReceiptWrite.later {wr : ReceiptWrite} (hwr : wr ≠ .markUnread) {k : Prop}
    (x : Option Receipt) : Later k x ((wr.apply x).or x) := by
  intro r hr
  subst hr
  cases happly : wr.apply (some r) with
  | none => exact ⟨r, rfl, fun h ↦ h, fun _ h ↦ h⟩
  | some r' =>
    refine ⟨r', rfl, fun hdis ↦ ?_, fun _ hread ↦ ?_⟩
    · rw [wr.apply_dismissed happly hdis]
      exact hdis
    · rw [(wr.apply_readAt happly hread).resolve_left hwr]
      exact hread

/-- So the transaction's own writes move what it sees one way. -/
theorem onward_write {wr : ReceiptWrite} (hwr : wr ≠ .markUnread) :
    Onward userId keep tx s (s.write tx userId id wr) := by
  refine ⟨fun n hn ↦ hn, fun id' ↦ ?_⟩
  rw [seenBy_write]
  split_ifs with hid
  · rw [hid]
    exact wr.later hwr _
  · exact .refl _

/-- A property of a receipt that others do not take away. -/
def Lasting (keep : JsString → Prop) (P : JsString → Option Receipt → Prop) : Prop :=
  ∀ id x x', P id x → Later (keep id) x x' → P id x'

/-- A statement comes to every row: what a write makes of a receipt that meets `pre` meets
`goal`. -/
theorem along_writeEach {wr : ReceiptWrite} (pre goal : JsString → Option Receipt → Prop)
    (hwr : wr ≠ .markUnread) (hpre : Lasting keep pre)
    (hgoal : Lasting keep goal) (hmake : ∀ id x, pre id x → goal id ((wr.apply x).or x))
    {ids : List JsString} (hbegan : Began tx h) :
    Along userId keep (writeEach tx userId wr ids)
      (fun h' _ s' ↦ Began tx h' ∧ Onward userId keep tx s s' ∧
        ∀ id ∈ ids, pre id (s.seenBy tx userId id) → goal id (s'.seenBy tx userId id)) h s := by
  induction ids generalizing h s with
  | nil =>
    refine along_return fun s' hR ↦ ⟨hbegan, hR.onward hbegan, ?_⟩
    exact fun id hid ↦ (List.not_mem_nil hid).elim
  | cons id ids ih =>
    refine along_send_bind fun s₁ hR changed s₂ hd ↦ along_bind ?_
    have ho₁ : Onward userId keep tx s s₁ := hR.onward hbegan
    cases hd with
    | write _ _ _ _ hfree =>
      have ho₂ : Onward userId keep tx s₁ (s₁.write tx userId id wr) := onward_write hwr
      refine along_mono (ih (List.mem_append_left _ hbegan)) fun h' n s' ⟨hb, ho, hrest⟩ ↦
        along_return fun s'' hR' ↦ ?_
      have ho₃ := ho.trans (hR'.onward hb)
      refine ⟨hb, (ho₁.trans ho₂).trans ho₃, fun id' hid' hp ↦ ?_⟩
      have hp₁ := hpre id' _ _ hp (ho₁.seen id')
      rcases List.mem_cons.1 hid' with rfl | hid'
      · refine hgoal _ _ _ ?_ (ho₃.seen _)
        rw [seenBy_write, if_pos rfl]
        exact hmake _ _ hp₁
      · exact hgoal _ _ _ (hrest id' hid' (hpre id' _ _ hp₁ (ho₂.seen id'))) (hR'.seen tx hb id')

/-- A transaction that has begun has begun later too. -/
theorem began_mono {h' : List NotificationExchange} (hbegan : Began tx h) : Began tx (h ++ h') :=
  List.mem_append_left _ hbegan

/-- A transaction: what holds of the receipts that it sees at its end it commits. -/
theorem along_transaction {body : ℕ → NotificationTask ℕ} {goal : JsString → Prop}
    (hbody : ∀ s₁ tx, Relies userId keep h s s₁ → tx = s₁.transactions →
      Along userId keep (body tx) (fun h' _ s' ↦ Began tx h' ∧
        ∀ id, goal id → ∃ r, s'.seenBy tx userId id = some r ∧ r.dismissedAt.isSome)
        (h ++ [⟨.begin, some tx⟩]) { s₁ with transactions := s₁.transactions + 1 }) :
    Along userId keep (transaction body) (fun _ _ s' ↦ ∀ id, goal id → Dismissed s' userId id)
      h s := by
  refine along_send_bind fun s₁ hR tx s₂ hd ↦ along_bind ?_
  cases hd with
  | begin =>
    refine along_mono (hbody s₁ _ hR rfl) fun h' n s₃ ⟨hbegan, hdone⟩ ↦
      along_send_bind fun s₄ hR' _ s₅ hd' ↦ along_return fun s₆ hR'' id hid ↦ ?_
    obtain ⟨r, hr, hdis⟩ := hdone id hid
    obtain ⟨r', hr', hdis', -⟩ := hR'.seen _ hbegan id r hr
    cases hd' with
    | commit =>
      obtain ⟨r'', hr'', hdis'', -⟩ :=
        hR''.committed id r' ((committed_commit userId id).trans hr')
      exact ⟨r'', hr'', hdis'' (hdis' hdis)⟩

/-- The receipt is there, and says that the notification was dismissed. -/
abbrev SaysDismissed (x : Option Receipt) : Prop := ∃ r, x = some r ∧ r.dismissedAt.isSome

/-- The receipt is there, and says that the notification was read. -/
abbrev SaysRead (x : Option Receipt) : Prop := ∃ r, x = some r ∧ r.readAt.isSome

/-- Once a receipt says dismissed, it says so. -/
theorem lasting_saysDismissed : Lasting keep fun _ ↦ SaysDismissed := by
  rintro id x x' ⟨r, hr, hdis⟩ hl
  obtain ⟨r', hr', hdis', -⟩ := hl r hr
  exact ⟨r', hr', hdis' hdis⟩

/-- Once there is a receipt, there is one. -/
theorem lasting_isSome (keep : JsString → Prop) : Lasting keep fun _ x ↦ x.isSome := by
  intro id x x' hx hl
  obtain ⟨r, hr⟩ := Option.isSome_iff_exists.1 hx
  obtain ⟨r', hr', -⟩ := hl r hr
  rw [hr']
  rfl

/-- Once a receipt says read, it says so unless somebody takes that back. -/
theorem lasting_saysRead : Lasting keep fun id x ↦ keep id ∧ SaysRead x := by
  rintro id x x' ⟨hk, r, hr, hread⟩ hl
  obtain ⟨r', hr', -, hread'⟩ := hl r hr
  exact ⟨hk, r', hr', hread' hk hread⟩

variable {caller : NotificationCaller} {now : ℤ}

/-- A statement comes to what meets its filter. -/
theorem mem_selected {filter : NotificationFilter} {ids : List JsString} {m : AdminNotification}
    (hids : ids.Perm ((s.matching filter (s.seenBy tx)).map (·.id))) (hm : m ∈ s.notifications)
    (hfilter : filter (s.seenBy tx) m = true) : m.id ∈ ids :=
  hids.mem_iff.2 (List.mem_map_of_mem (List.mem_filter.2 ⟨hm, hfilter⟩))

section DismissIds

variable {receipts : JsString → JsString → Option Receipt} {ids : List JsString}
  {m : AdminNotification}

/-- The user has no such receipt of the notification, or it is there. -/
theorem noReceipt_or_some (receipts : JsString → JsString → Option Receipt)
    (m : AdminNotification) (userId : JsString) (p : Receipt → Bool) :
    noReceipt userId p receipts m = true ∨
      ∃ r, receipts userId m.id = some r ∧ p r = true := by
  unfold noReceipt
  cases receipts userId m.id with
  | none => exact .inl rfl
  | some r =>
    cases hp : p r with
    | true => exact .inr ⟨r, rfl, hp⟩
    | false => exact .inl (by rw [Option.any_some, hp]; rfl)

/-- What was asked for and is no target was dismissed before. -/
theorem target_or_dismissed (hid : m.id ∈ ids)
    (hrole : m.targetRole ∈ visibleTargetRoles caller.role) :
    allOf [visibleTo caller, idIn ids] receipts m = true ∨
      SaysDismissed (receipts caller.id m.id) :=
  (noReceipt_or_some receipts m caller.id fun r ↦ r.dismissedAt.isSome).imp_left fun hnone ↦
    allOf_pair.2 ⟨allOf_pair.2 ⟨targetRoleIn_iff.2 hrole, hnone⟩, idIn_iff.2 hid⟩

/-- A target with a receipt is one that is left to update, or the receipt says dismissed. -/
theorem left_or_dismissed (hid : m.id ∈ ids) (hsome : (receipts caller.id m.id).isSome) :
    allOf [idIn ids, someReceipt caller.id fun r ↦ r.dismissedAt.isNone] receipts m = true ∨
      SaysDismissed (receipts caller.id m.id) := by
  obtain ⟨r, hr⟩ := Option.isSome_iff_exists.1 hsome
  by_cases hdis : r.dismissedAt.isSome
  · exact .inr ⟨r, hr, hdis⟩
  refine .inl (allOf_pair.2 ⟨idIn_iff.2 hid, ?_⟩)
  unfold someReceipt
  rw [hr]
  simpa using hdis

/-- The insertion and the update of `dismissIds` together leave no target that is not dismissed: the
insertion leaves a receipt for each of them, and the update finds each that is not dismissed
yet. -/
theorem along_dismissTargets {R : List AdminNotification} (hs : ∀ m ∈ R, m ∈ s.notifications)
    (hbegan : Began tx h) :
    Along caller.id keep (do
        let created ← writeEach tx caller.id (.createDismissed now) ids
        let updated ← writeWhere tx caller.id (.dismiss now)
          (allOf [idIn ids, someReceipt caller.id fun r ↦ r.dismissedAt.isNone])
        return created + updated)
      (fun h' _ s' ↦ Began tx h' ∧ Onward caller.id keep tx s s' ∧
        ∀ m ∈ R, m.id ∈ ids → SaysDismissed (s'.seenBy tx caller.id m.id)) h s := by
  refine along_bind (along_mono (along_writeEach (fun _ _ ↦ True) (fun _ x ↦ x.isSome)
    (by rintro ⟨⟩) (fun _ _ _ _ _ ↦ trivial) (lasting_isSome keep) ?_ hbegan)
    fun h₁ created s₁ ⟨hbegan₁, ho₁, hmade⟩ ↦ along_bind ?_)
  · rintro - (_ | r) - <;> rfl
  refine along_send_bind fun s₂ hR ids' s₃ hd ↦ ?_
  have ho₂ := ho₁.trans (hR.onward hbegan₁)
  have hsome : ∀ id ∈ ids, (s₂.seenBy tx caller.id id).isSome := fun id hid ↦
    lasting_isSome keep id _ _ (hmade id hid trivial) (hR.seen tx hbegan₁ id)
  cases hd with
  | select _ _ _ hids' =>
    refine along_mono (along_writeEach (fun _ x ↦ x.isSome) (fun _ ↦ SaysDismissed)
      (by rintro ⟨⟩) (lasting_isSome keep) lasting_saysDismissed ?_ (began_mono hbegan₁))
      fun h₄ updated s₄ ⟨hbegan₄, ho₄, hdone⟩ ↦ along_return fun s₅ hR₅ ↦
        ⟨hbegan₄, (ho₂.trans ho₄).trans (hR₅.onward hbegan₄), fun m hm hid ↦ ?_⟩
    · rintro - (_ | ⟨readAt, dismissedAt⟩) hx
      · cases hx
      · cases dismissedAt <;> exact ⟨_, rfl, rfl⟩
    have hlast := hR₅.seen tx hbegan₄ m.id
    -- dismissed by the update or by the insertion
    rcases left_or_dismissed hid (hsome m.id hid) with hleft | hdis
    · have hin := mem_selected hids' (ho₂.notifications m (hs m hm)) hleft
      exact lasting_saysDismissed _ _ _ (hdone m.id hin (hsome m.id hid)) hlast
    · exact lasting_saysDismissed _ _ _ hdis ((ho₄.seen m.id).trans hlast)

/-- What `dismissIds` was asked for is dismissed. -/
theorem along_dismissIds {R : List AdminNotification} (hs : ∀ m ∈ R, m ∈ s.notifications) :
    Along caller.id keep (dismissIds caller ids now)
      (fun _ _ s' ↦ ∀ id, (∃ m ∈ R, m.id = id ∧ id ∈ ids ∧
        m.targetRole ∈ visibleTargetRoles caller.role) → Dismissed s' caller.id id) h s := by
  refine along_transaction fun s₁ tx hR htx ↦ along_send_bind fun s₂ hR₂ targetIds s₃ hd ↦ ?_
  have hbegan : Began tx (h ++ [⟨.begin, some tx⟩]) :=
    List.mem_append_right _ List.mem_cons_self
  have hs₂ : ∀ m ∈ R, m ∈ s₂.notifications := fun m hm ↦
    hR₂.notifications m (hR.notifications m (hs m hm))
  cases hd with
  | select _ _ _ htargets =>
    have hfound : ∀ m ∈ R, m.id ∈ ids → m.targetRole ∈ visibleTargetRoles caller.role →
        m.id ∈ targetIds ∨ SaysDismissed (s₂.seenBy tx caller.id m.id) := fun m hm hid hrole ↦
      (target_or_dismissed hid hrole).imp_left (mem_selected htargets (hs₂ m hm))
    -- Without a target there is nothing to write.
    by_cases hempty : targetIds = []
    · rw [if_pos hempty]
      refine along_return fun s₃ hR₃ ↦ ⟨began_mono hbegan, ?_⟩
      rintro _ ⟨m, hm, rfl, hid, hrole⟩
      rcases hfound m hm hid hrole with hin | hdis
      · rw [hempty] at hin
        exact (List.not_mem_nil hin).elim
      · exact lasting_saysDismissed _ _ _ hdis (hR₃.seen tx (began_mono hbegan) m.id)
    rw [if_neg hempty]
    refine along_mono (along_dismissTargets hs₂ (began_mono hbegan))
      fun h₃ n s₃ ⟨hbegan₃, ho₃, hdone⟩ ↦ ⟨hbegan₃, ?_⟩
    -- a target, or dismissed before
    rintro _ ⟨m, hm, rfl, hid, hrole⟩
    rcases hfound m hm hid hrole with hin | hdis
    · exact hdone m hm hin
    · exact lasting_saysDismissed _ _ _ hdis (ho₃.seen m.id)

end DismissIds

/-- What was read at first and is not taken back is dismissed by `dismiss` with `allRead`. -/
theorem along_dismissRead {R : List AdminNotification} (hs : ∀ m ∈ R, m ∈ s.notifications)
    (hsane : Sane s)
    (hread : ∀ m ∈ R, keep m.id → SaysRead (s.committed caller.id m.id)) :
    Along caller.id keep (transaction fun tx ↦ writeWhere tx caller.id (.dismissRead now)
        (allOf [someReceipt caller.id fun r ↦ r.readAt.isSome && r.dismissedAt.isNone,
          targetRoleIn (visibleTargetRoles caller.role)]))
      (fun _ _ s' ↦ ∀ id, (∃ m ∈ R, m.id = id ∧ keep id ∧
        m.targetRole ∈ visibleTargetRoles caller.role) → Dismissed s' caller.id id) h s := by
  refine along_transaction fun s₁ tx hR htx ↦ along_send_bind fun s₂ hR₂ ids s₃ hd ↦ ?_
  have hbegan : Began tx (h ++ [⟨.begin, some tx⟩]) :=
    List.mem_append_right _ List.mem_cons_self
  -- a new transaction sees what is committed
  have hfresh : ∀ id, s₁.seenBy tx caller.id id = s₁.committed caller.id id := fun id ↦
    Cell.seenBy_of_not fun r hr ↦ (hR.sane hsane _ _ _ _ hr).ne htx
  have hread₂ : ∀ m ∈ R, keep m.id → SaysRead (s₂.seenBy tx caller.id m.id) := by
    intro m hm hk
    obtain ⟨r, hr, hat⟩ := hread m hm hk
    obtain ⟨r₁, hr₁, -, hat₁⟩ := hR.committed m.id r hr
    obtain ⟨r₂, hr₂, -, hat₂⟩ := hR₂.seen tx hbegan m.id r₁ ((hfresh m.id).trans hr₁)
    exact ⟨r₂, hr₂, hat₂ hk (hat₁ hk hat)⟩
  cases hd with
  | select _ _ _ hids =>
    refine along_mono (along_writeEach (fun id x ↦ keep id ∧ SaysRead x)
      (fun _ ↦ SaysDismissed) (by rintro ⟨⟩) lasting_saysRead lasting_saysDismissed ?_
      (began_mono hbegan)) fun h₄ n s₄ ⟨hbegan₄, ho₄, hdone⟩ ↦ ⟨hbegan₄, ?_⟩
    · rintro - _ ⟨-, ⟨readAt, dismissedAt⟩, rfl, hat⟩
      obtain ⟨at', rfl⟩ := Option.isSome_iff_exists.1 hat
      cases dismissedAt <;> exact ⟨_, rfl, rfl⟩
    rintro _ ⟨m, hm, rfl, hk, hrole⟩
    obtain ⟨r, hr, hat⟩ := hread₂ m hm hk
    by_cases hdis : r.dismissedAt.isSome
    · exact lasting_saysDismissed _ _ _ ⟨r, hr, hdis⟩ (ho₄.seen m.id)
    refine hdone m.id (mem_selected hids (hR₂.notifications m (hR.notifications m (hs m hm)))
      (allOf_pair.2 ⟨?_, targetRoleIn_iff.2 hrole⟩)) ⟨hk, r, hr, hat⟩
    unfold someReceipt
    rw [hr]
    simpa [hat] using hdis

end Along

/-! ### A dismissal -/

/-- What a run leaves of the notifications and the receipts. -/
theorem later_of_reach (hw : Reach (notifications C) (fun _ _ ↦ True) (.init .init) w)
    (hrun : Reach (notifications C) (fun w e ↦ ∀ id, keep id → ¬ TakesBack userId id w e) w w') :
    (∀ n ∈ w.state.notifications, n ∈ w'.state.notifications) ∧
      ∀ id, Later (keep id) (w.state.committed userId id) (w'.state.committed userId id) := by
  induction hrun with
  | init => exact ⟨fun _ hn ↦ hn, fun _ ↦ .refl _⟩
  | @step w₁ w₂ e hrun hC hstep ih =>
    refine ⟨fun n hn ↦ ?_, fun id ↦ (ih.2 id).trans fun r hr ↦ ?_⟩
    · have hn₁ := ih.1 n hn
      cases hstep with
      | start => exact hn₁
      | exchange _ hd => exact notifications_of_does hd n hn₁
      | environment hs => exact hs.elim
    · obtain ⟨r', hr', hdis, hread⟩ :=
        later_committed (hw.trans (hrun.imp fun _ _ _ ↦ trivial)) hstep r hr
      exact ⟨r', hr', hdis, fun hk ↦ hread (hC id hk)⟩

/-- **A dismissal that has ended has dismissed** every notification visible to its caller's role
that it names; with `allRead` every one that was read when it started and was not taken back. -/
theorem dismissed_of_dismiss (keep : JsString → Prop)
    (hw : Reach (notifications C) (fun _ _ ↦ True) (.init .init) w)
    {caller : NotificationCaller} {ids : Option (List JsString)} {allRead : Option Bool} {now : ℤ}
    (hrun : Reach (notifications C) (fun w e ↦ ∀ id, keep id → ¬ TakesBack caller.id id w e) w w')
    {t : ℕ} {th : Thread NotificationQuery NotificationAnswer
      (Except NotificationError NotificationReply) NotificationCall}
    (hfree : w.threads t = none) (ht : w'.threads t = some th)
    (hop : th.op = .dismiss caller ids allRead now) {n : ℕ}
    (hend : th.rest = .done (.ok (.deleted n))) {m : AdminNotification}
    (hm : m ∈ w.state.notifications) (hrole : m.targetRole ∈ visibleTargetRoles caller.role)
    (hasked : (∃ l, ids = some l ∧ m.id ∈ l) ∨
      allRead = some true ∧ keep m.id ∧ SaysRead (w.state.committed caller.id m.id)) :
    Dismissed w'.state caller.id m.id := by
  have htrue : ∀ {w₁}, Reach (notifications C)
      (fun w e ↦ ∀ id, keep id → ¬ TakesBack caller.id id w e) w w₁ →
      Reach (notifications C) (fun _ _ ↦ True) (.init .init) w₁ :=
    fun h ↦ hw.trans (h.imp fun _ _ _ ↦ trivial)
  have hunder := hrun.under (R := Relies caller.id keep)
    (fun _ r s ↦ ∀ a, r = .ok a → Dismissed s caller.id m.id) .refl .trans hfree
    (fun w₁ hrun₁ ↦ ?_) (fun w₁ e w₂ th' hrun₁ hC hstep ht' _ hother ↦
      relies_of_step (htrue hrun₁) hstep hC ht' hother) ht hop
  · rw [hend] at hunder
    exact hunder _ (.refl _ _) _ rfl
  · obtain ⟨hnotif, hlater⟩ := later_of_reach hw hrun₁
    change Along caller.id keep (dismiss caller ids allRead now)
      (fun _ _ s ↦ Dismissed s caller.id m.id) [] w₁.state
    unfold dismiss
    by_cases htarget : ids.isNone = allRead.isNone
    · rw [if_pos htarget]
      exact along_throw
    rw [if_neg htarget]
    dsimp only
    by_cases hall : allRead = some true
    · rw [if_pos hall]
      -- then no ids are given
      have hread : keep m.id ∧ SaysRead (w.state.committed caller.id m.id) := by
        rcases hasked with ⟨l, rfl, -⟩ | ⟨-, hread⟩
        · rw [hall] at htarget
          exact (htarget rfl).elim
        · exact hread
      refine along_bind (along_mono (along_dismissRead (R := [m]) (fun m' hm' ↦ ?_)
        (sane_of_reach (htrue hrun₁)) fun m' hm' hk ↦ ?_) fun h' n' s' hdone ↦
          along_return fun s'' hR ↦ ?_)
      · rw [List.mem_singleton.1 hm']
        exact hnotif m hm
      · rw [List.mem_singleton.1 hm'] at hk ⊢
        obtain ⟨r, hr, hat⟩ := hread.2
        obtain ⟨r', hr', -, hat'⟩ := hlater m.id r hr
        exact ⟨r', hr', hat' hk hat⟩
      · obtain ⟨r, hr, hdis⟩ := hdone m.id ⟨m, List.mem_singleton_self m, rfl, hread.1, hrole⟩
        obtain ⟨r', hr', hdis', -⟩ := hR.committed m.id r hr
        exact ⟨r', hr', hdis' hdis⟩
    · rw [if_neg hall]
      obtain ⟨l, rfl, hid⟩ := hasked.resolve_right fun h ↦ hall h.1
      refine along_bind (along_mono (along_dismissIds (R := [m]) fun m' hm' ↦ ?_)
        fun h' n' s' hdone ↦ along_return fun s'' hR ↦ ?_)
      · rw [List.mem_singleton.1 hm']
        exact hnotif m hm
      · obtain ⟨r, hr, hdis⟩ := hdone m.id ⟨m, List.mem_singleton_self m, rfl, hid, hrole⟩
        obtain ⟨r', hr', hdis', -⟩ := hR.committed m.id r hr
        exact ⟨r', hr', hdis' hdis⟩

end EasyBook.Notifications

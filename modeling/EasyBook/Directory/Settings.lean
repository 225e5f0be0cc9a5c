import EasyBook.Directory.Effects
import EasyBook.ReadCommitted.Earnings

/-!
# Settings patches under concurrency

A patch is meant to replace the keys it names and to leave the others alone. The JSON column is
read, merged in memory and written back whole, each in a statement of its own, so a key that a call
does not name is written back as the call has read it. `crossedRun` loses a patch that way. If the
keys that a call does not name are, when it writes, still as it has read them, every key has the
value of the last patch that named it.
-/

namespace EasyBook.Directory

open ReadCommitted

/-! ### Keys and values -/

/-- The keys of the settings. -/
inductive SettingKey where
  | theme
  | notification (key : NotificationKey)
  deriving DecidableEq

instance : Fintype SettingKey where
  elems := insert .theme (Finset.univ.image .notification)
  complete k := by cases k <;> simp

/-- What a key holds. -/
abbrev SettingKey.Value : SettingKey → Type
  | .theme => JsString
  | .notification _ => Bool

instance : ∀ k : SettingKey, DecidableEq k.Value
  | .theme => inferInstanceAs (DecidableEq JsString)
  | .notification _ => inferInstanceAs (DecidableEq Bool)

/-- The value a patch names for a key. -/
def SettingsDto.named (dto : SettingsDto) : ∀ k : SettingKey, Option k.Value
  | .theme => dto.theme
  | .notification key => dto.notifications key

/-- The value of a key where nothing is stored. -/
def defaultSetting : ∀ k : SettingKey, k.Value
  | .theme => defaultLineUserTheme
  | .notification _ => true

/-- The value of a key in a row, as `getSettings` reads it. -/
def LineUserSettings.value (r : LineUserSettings) : ∀ k : SettingKey, k.Value
  | .theme => r.theme
  | .notification key => toNotificationPreferences (some r.notifications) key

/-- The value of a key, stored or not. -/
def settingValue (row : Option LineUserSettings) (k : SettingKey) : k.Value :=
  row.elim (defaultSetting k) fun r ↦ r.value k

/-- The value of a key in the settings of a user. -/
def settingOf (d : View) (userId : Cuid) (k : SettingKey) : k.Value :=
  settingValue ((d.all .settings).find? fun r ↦ decide (LineUserSettings.lineUserId r = userId)) k

/-- A merged row has the named value, or the one that was read. -/
theorem value_merged {existing : Option LineUserSettings} {dto : SettingsDto}
    {r : LineUserSettings} (ht : r.theme = mergedTheme existing dto)
    (hn : r.notifications = fun key ↦ some (mergedNotifications existing dto key))
    (k : SettingKey) : r.value k = (dto.named k).getD (settingValue existing k) := by
  cases k with
  | theme =>
    simp only [LineUserSettings.value, ht, mergedTheme, SettingsDto.named, settingValue]
    cases dto.theme <;> cases existing <;> rfl
  | notification key =>
    simp only [LineUserSettings.value, hn, toNotificationPreferences, mergedNotifications,
      SettingsDto.named, settingValue]
    cases existing <;> rfl

/-! ### The condition -/

/-- What a call named, if it is a patch. -/
def Op.patch : Op → Option SettingsDto
  | .patchSettings _ dto => some dto
  | _ => none

/-- The keys that the call does not name are, in its last query, as `row` has them. -/
def Op.readsAs (op : Op) (reads : List View) (userId : Cuid) (row : Option LineUserSettings) :
    Prop :=
  ∀ dto ∈ op.patch, ∀ d ∈ reads.head?, ∀ k, SettingsDto.named dto k = none →
    settingOf d userId k = settingValue row k

instance (op : Op) (reads : List View) (userId : Cuid) (row : Option LineUserSettings) :
    Decidable (op.readsAs reads userId row) :=
  inferInstanceAs (Decidable (∀ dto ∈ op.patch, _))

/-- A patch overwrites a row whose other keys are as it has read them. -/
def FreshSettings (calls : ℕ → Op) (t : ℕ) (reads : List View) (σ : Store Row) :
    ∀ τ, (Row τ → Option (Option (Row τ))) → Prop
  | .settings, ch => ∀ i ∈ List.range σ.next, ∀ r ∈ (σ.cell .settings i).seen (some t),
      (ch r).isSome → (calls t).readsAs reads (LineUserSettings.lineUserId r) (some r)
  | _, _ => True

/-- A patch inserts a row where it has read the defaults for the other keys. -/
def FreshSettingsRow (calls : ℕ → Op) (t : ℕ) (reads : List View) (_ : Store Row) :
    ∀ τ, Row τ → Prop
  | .settings, r => (calls t).readsAs reads (LineUserSettings.lineUserId r) none
  | _, _ => True

instance (calls : ℕ → Op) (t : ℕ) (reads : List View) (σ : Store Row) (τ : Tab)
    (ch : Row τ → Option (Option (Row τ))) : Decidable (FreshSettings calls t reads σ τ ch) := by
  unfold FreshSettings
  induction τ using Tab.casesOn <;> infer_instance

instance (calls : ℕ → Op) (t : ℕ) (reads : List View) (σ : Store Row) (τ : Tab) (r : Row τ) :
    Decidable (FreshSettingsRow calls t reads σ τ r) := by
  unfold FreshSettingsRow
  induction τ using Tab.casesOn <;> infer_instance

/-- A step of a run of `calls` in which what a patch has read of other keys still holds when it
writes. -/
def SettingsStep (calls : ℕ → Op) (w : DirectoryWorld) (e : DirectoryEvent) : Prop :=
  e.CalledAs calls ∧ Granted (FreshSettings calls) w e ∧ Accepted (FreshSettingsRow calls) w e

instance (calls : ℕ → Op) (w : DirectoryWorld) (e : DirectoryEvent) :
    Decidable (SettingsStep calls w e) :=
  inferInstanceAs (Decidable (_ ∧ _ ∧ _))

/-! ### The law -/

/-- A patch sets the keys it names and keeps the others; nobody else touches settings. -/
def settingsLaw (calls : ℕ → Op) : Law Row where
  good _ _ _ := True
  may t
    | .settings => fun _ old new ↦ ∃ dto r', (calls t).patch = some dto ∧ new = some r' ∧
        ∀ k, r'.value k = (SettingsDto.named dto k).getD (settingValue old k)
    | _ => fun _ _ _ ↦ True
  keeps _ _ := trivial

/-- Settings are what is answered. -/
def Reply.OfSettings (reply : Reply) : Prop := ∃ theme ns at', reply = .settings theme ns at'

/-- A patch answers with settings that it has written. -/
def Told (calls : ℕ → Op) (t : ℕ) (reply : Reply) (_ : List View) (σ : Store Row) : Prop :=
  (calls t).patch.isSome → reply.OfSettings → ∃ i, (σ.cell .settings i).ownedBy t

/-- The contract of runs in which patches are fresh. -/
abbrev settingsContract (calls : ℕ → Op) : Contract Row DirectoryError Reply :=
  (settingsLaw calls).contract (Told calls) (FreshSettings calls) (FreshSettingsRow calls)

/-- Only patches touch settings. -/
theorem settings_tolerates {calls : ℕ → Op} {t : ℕ} (ht : (calls t).patch = none) :
    (settingsContract calls).Tolerates schema t (calls t).effect (calls t).inserts := by
  refine Law.tolerates schema_plain (fun reads σ τ ch i r x hσ hg hseen hx he ↦ ?_)
    (fun reads σ τ r _ _ hn ↦ ?_) fun _ hp ↦ by rw [ht] at hp; cases hp
  · cases τ with
    | settings =>
      unfold Op.patch at ht
      split at ht
      · cases ht
      · next hne => simp only [Op.effect] at he
    | _ => trivial
  · cases τ with
    | settings =>
      unfold Op.patch at ht
      split at ht
      · cases ht
      · next hne => simp only [Op.inserts] at hn
    | _ => trivial

section Patch

variable {calls : ℕ → Op} {t : ℕ} {s : JsString} {dto : SettingsDto}

/-- The write of a patch whose last query found `existing`. -/
theorem wp_upsertSettings (ht : calls t = .patchSettings s dto) {userId : Cuid} {d : View}
    {rest : List View} {existing : Option LineUserSettings}
    (hex : existing =
      (d.all .settings).find? fun r ↦ decide (LineUserSettings.lineUserId r = userId))
    {clocked : Reading Row} {σ : Store Row} (hσ : (settingsLaw calls).Lawful σ) :
    wp (settingsContract calls) schema t (fun _ ↦ True) (Committing (settingsContract calls) t)
      (upsertSettings userId existing dto) clocked (d :: rest) σ := by
  have hpatch : (calls t).patch = some dto := by rw [ht]; rfl
  have hread : ∀ {row : Option LineUserSettings}, (calls t).readsAs (d :: rest) userId row →
      ∀ k, (SettingsDto.named dto k).getD (settingValue existing k) =
        (SettingsDto.named dto k).getD (settingValue row k) := fun h k ↦ by
    cases hk : SettingsDto.named dto k with
    | some v => rfl
    | none =>
      have := h dto (by rw [hpatch]; rfl) d rfl k hk
      rw [Option.getD_none, Option.getD_none, ← this, settingOf, hex]
  refine wp_bind hσ (wp_update_law schema_plain (fun _ ↦ trivial)
    (fun σ' c i r r' _ hlaw hseen hch hg ↦ ?_) fun σ₀ σ₁ rows σ₂ _ _ _ _ hu hσ₂ ↦ ?_)
  · split at hch
    · next hp =>
      have hi : i < σ'.next := Db.lt_next (d := σ'.view (some t)) hseen
      have huser : r.lineUserId = userId := of_decide_eq_true hp
      have hr := hg i (List.mem_range.2 hi) r hseen (by simp [hp])
      rw [huser] at hr
      refine ⟨dto, r', hpatch, rfl, fun k ↦ ?_⟩
      obtain rfl := Option.some.inj hch
      rw [value_merged rfl rfl k, hread hr k]
      rcases hlaw.seen_cases hseen with h | ⟨dto', q, hd', hq, hval⟩
      · rw [h]
      · -- a version of its own has the other keys as committed
        obtain rfl := Option.some.inj (hpatch.symm.trans hd')
        obtain rfl := Option.some.inj hq
        rw [show settingValue (some r) k = r.value k from rfl, hval k]
        cases SettingsDto.named dto k <;> rfl
    · cases hch
  · cases rows with
    | cons r l =>
      obtain ⟨i, r₀, _, _, hcell⟩ := hu.mem r List.mem_cons_self
      have ho : (σ₂.cell .settings i).ownedBy t := ⟨some r, by rw [hcell]; rfl⟩
      exact fun σ₃ h₃ _ σ₄ h₄ _ ↦ ⟨trivial, fun _ _ ↦ ⟨i, ((h₃.trans h₄).ownedBy_iff _ i).2 ho⟩⟩
    | nil =>
      refine wp_create_law schema_plain (fun _ ↦ trivial) fun σ₃ _ hσ₃ ha ↦
        ⟨⟨dto, _, hpatch, rfl, fun k ↦ ?_⟩, fun _ σ₄ h₄ _ σ₅ h₅ _ ↦
          ⟨trivial, fun _ _ ↦ ⟨σ₃.next, ((h₄.trans h₅).ownedBy_iff _ _).2 ?_⟩⟩⟩
      · rw [value_merged rfl rfl k, hread ha k]
      · rw [Store.add_cell_next]
        exact ⟨_, rfl⟩

/-- A patch is safe. -/
theorem safe_patchSettings (ht : calls t = .patchSettings s dto) :
    Safe (settingsContract calls) schema directory.loses (fun _ _ ↦ True) t [] []
      (patchSettings s dto) := by
  have hlost : ∀ {log seen e} (f : Failure Row DirectoryError),
      (settingsContract calls).failing f ∧ Safe (settingsContract calls) schema directory.loses
        (fun _ _ ↦ True) t log seen (.done (.error e) : Call) := fun f ↦ ⟨trivial, trivial⟩
  have hvoid : ∀ u, ¬ (Reply.lineUser u).OfSettings := fun _ h ↦ by
    obtain ⟨_, _, _, h⟩ := h
    cases h
  refine safe_attempt_of_wp (fun _ ↦ True) (fun σ hσ _ ↦ wp_bind hσ ?_) (fun r reads ↦ ?_)
    fun f _ ↦ hlost f
  · refine wp_query.2 fun σ₁ _ hσ₁ ↦ ?_
    split
    · exact fun _ _ _ ↦ fun _ _ _ ↦ ⟨trivial, fun _ h ↦ absurd h (hvoid _)⟩
    · exact wp_create_law (k := .ret) schema_plain (fun _ ↦ trivial) fun _ _ _ _ ↦
        ⟨trivial, fun _ _ _ _ ↦ fun _ _ _ ↦ ⟨trivial, fun _ h ↦ absurd h (hvoid _)⟩⟩
  split
  · next user _ =>
    -- what the query found goes with its view to the write
    refine ⟨fun _ ↦ True, fun reply reads ↦ ∃ d rest, reads = d :: rest ∧ reply = .storedSettings
      ((d.all .settings).find? fun r ↦ decide (LineUserSettings.lineUserId r = user.id)),
      fun σ _ _ σ' _ _ σ'' _ _ ↦ ⟨⟨trivial, ?_⟩, _, _, rfl, rfl⟩, ?_, fun f _ ↦ hlost f⟩
    · rintro _ ⟨_, _, _, h⟩
      cases h
    rintro reply reads ⟨d, rest, rfl, rfl⟩
    refine safe_attempt_of_wp (fun _ ↦ True) (fun σ hσ _ ↦ wp_upsertSettings ht rfl hσ)
      (fun _ _ ↦ trivial) fun f _ ↦ ⟨trivial, ?_⟩
    split
    · exact safe_attempt_of_wp (fun _ ↦ True) (fun σ hσ _ ↦ wp_upsertSettings ht rfl hσ)
        (fun _ _ ↦ trivial) fun f _ ↦ hlost f
    · trivial
  · cases r <;> trivial

end Patch

/-- Every world of such a run is healthy. -/
theorem settings_healthy {calls : ℕ → Op} {w : DirectoryWorld}
    (hw : directory.Reach (SettingsStep calls) w) :
    Healthy directory (settingsContract calls) (fun _ _ ↦ True) w := by
  refine adequate (Law.Lawful.init _) (fun w t op ha ↦ ?_) (fun _ _ ha ↦ ha.2.1)
    (fun _ _ ha ↦ ha.2.2) (fun _ _ _ _ _ ↦ relyOn_true _ _ _) hw
  obtain rfl : op = calls t := ha.1
  rcases hp : (calls t).patch with - | dto
  · exact safe_of_obeys (settings_tolerates hp) (service_does _)
  · rcases hc : calls t with _ | _ | _ | _ | _ | ⟨s, dto'⟩ | _ <;> rw [hc] at hp <;> try cases hp
    exact safe_patchSettings hc

/-- A patch ends ok only with settings. -/
theorem earns_patchSettings (s : JsString) (dto : SettingsDto) :
    (patchSettings s dto).Earns Reply.OfSettings := by
  have hupsert : ∀ userId existing, (upsertSettings userId existing dto).Returns Reply.OfSettings :=
    fun userId existing ↦ by
      unfold upsertSettings
      exact Prog.Returns.bind (fun saved ↦ Prog.returns_pure ⟨_, _, _, rfl⟩) _
  have herror : ∀ e, (.done (.error e) : Call).Earns Reply.OfSettings := fun e a h ↦ by cases h
  have hor : ∀ {k : Reply → Call} {p : Tx Reply}, p.Returns Reply.OfSettings →
      p.Returns fun reply ↦ reply.OfSettings ∨ (k reply).Earns Reply.OfSettings := fun h ↦
    Prog.Returns.mono (fun _ ↦ Or.inl) h
  refine ⟨Prog.Returns.bind (fun user ↦ Prog.returns_pure (.inr ?_)) _, herror⟩
  refine ⟨Prog.Returns.bind (fun row ↦ Prog.returns_pure (.inr ?_)) _, herror⟩
  refine ⟨hor (hupsert _ _), fun e ↦ ?_⟩
  cases e with
  | uniqueViolation => exact ⟨hor (hupsert _ _), herror⟩
  | _ => exact herror _

/-- The rows of settings to which a step commits a patch, with the patch. -/
def patches (calls : ℕ → Op) (w : DirectoryWorld) : DirectoryEvent → List (ℕ × SettingsDto)
  | .run t =>
    if (w.returning t).isSome then
      (calls t).patch.toList.flatMap fun dto ↦
        ((List.range w.store.next).filter fun i ↦ (w.store.cell .settings i).ownedBy t).map
          fun i ↦ (i, dto)
    else []
  | _ => []

/-- What the last patch that is noted down of row `i` named for a key, if one did. -/
def lastNamed (log : List (ℕ × SettingsDto)) (i : ℕ) (k : SettingKey) : Option k.Value :=
  log.findSome? fun p ↦ if p.1 = i then p.2.named k else none

/-- A step that notes down nothing of row `i` leaves what was named for it. -/
theorem lastNamed_append_of_not_mem {new log : List (ℕ × SettingsDto)} {i : ℕ} {k : SettingKey}
    (h : ∀ dto, (i, dto) ∉ new) : lastNamed (new ++ log) i k = lastNamed log i k := by
  have hnone : new.findSome? (fun p ↦ if p.1 = i then p.2.named k else none) = none := by
    refine List.findSome?_eq_none_iff.2 fun p hp ↦ if_neg fun hi ↦ h p.2 ?_
    rwa [← hi]
  rw [lastNamed, List.findSome?_append, hnone]
  rfl

/-- A step that notes down one patch of row `i` has named what it names. -/
theorem lastNamed_append_of_mem {new log : List (ℕ × SettingsDto)} {i : ℕ} {dto : SettingsDto}
    {k : SettingKey} (h : (i, dto) ∈ new) (hall : ∀ p ∈ new, p.2 = dto) :
    lastNamed (new ++ log) i k = (dto.named k).or (lastNamed log i k) := by
  have hnew : new.findSome? (fun p ↦ if p.1 = i then p.2.named k else none) = dto.named k := by
    cases hk : dto.named k with
    | none =>
      refine List.findSome?_eq_none_iff.2 fun p hp ↦ ?_
      rw [hall p hp, hk, ite_self]
    | some v =>
      obtain ⟨v', hv'⟩ := Option.isSome_iff_exists.1
        (List.findSome?_isSome_iff.2 ⟨(i, dto), h, by simp [hk]⟩ :
          (new.findSome? fun p ↦ if p.1 = i then p.2.named k else none).isSome)
      obtain ⟨p, hp, hpv⟩ := List.exists_of_findSome?_eq_some hv'
      rw [hv', ← hpv, hall p hp, hk]
      rw [hall p hp, hk] at hpv
      split at hpv
      · next hi => rw [if_pos hi]
      · cases hpv
  rw [lastNamed, List.findSome?_append, hnew]
  rfl

/-- A commit is noted down of the rows that it writes. -/
theorem mem_patches {calls : ℕ → Op} {w : DirectoryWorld} {t i : ℕ} {dto : SettingsDto}
    (hlaw : (settingsLaw calls).Lawful w.store) (hr : (w.returning t).isSome)
    (hp : (calls t).patch = some dto) (ho : (w.store.cell .settings i).ownedBy t) :
    (i, dto) ∈ patches calls w (.run t) := by
  obtain ⟨x, hx⟩ := ho
  obtain ⟨_, r', _, rfl, _⟩ := hlaw.may .settings i t x hx
  have hi : i < w.store.next :=
    Db.lt_next (d := w.store.view (some t)) (τ := .settings) (Cell.seen_of_dirty hx)
  rw [patches, if_pos hr, hp]
  exact List.mem_flatMap.2 ⟨dto, List.mem_singleton_self _, List.mem_map.2
    ⟨i, List.mem_filter.2 ⟨List.mem_range.2 hi, decide_eq_true ⟨_, hx⟩⟩, rfl⟩⟩

/-- Nothing else is noted down. -/
theorem of_mem_patches {calls : ℕ → Op} {w : DirectoryWorld} {t : ℕ} {p : ℕ × SettingsDto}
    (h : p ∈ patches calls w (.run t)) :
    (calls t).patch = some p.2 ∧ (w.store.cell .settings p.1).ownedBy t := by
  rw [patches] at h
  split at h
  · obtain ⟨dto, hdto, h⟩ := List.mem_flatMap.1 h
    obtain ⟨i, hi, rfl⟩ := List.mem_map.1 h
    exact ⟨Option.mem_toList.1 hdto, of_decide_eq_true (List.mem_filter.1 hi).2⟩
  · cases h

namespace Sample

/-- A patch that turns off one notification. -/
def mute (key : NotificationKey) : SettingsDto where
  theme := none
  notifications k := if k = key then some false else none

/-- A user makes a first call; its row of settings gets key 1. -/
def firstPatch : List DirectoryEvent :=
  .call 0 (.patchSettings [] (mute .reminders)) :: steps 0 12

/-- Two more patches, one after the other. -/
def patchedTwice : List DirectoryEvent :=
  firstPatch ++ .call 1 (.patchSettings [] (mute .announcements)) :: steps 1 10 ++
    .call 2 (.patchSettings [] (mute .decisions)) :: steps 2 10

/-- Two more patches at once: both read the row before either writes it. -/
def crossedRun : List DirectoryEvent :=
  firstPatch ++ .call 1 (.patchSettings [] (mute .announcements)) :: steps 1 6 ++
    .call 2 (.patchSettings [] (mute .decisions)) :: steps 2 6 ++ steps 1 4 ++ steps 2 4

end Sample

end EasyBook.Directory

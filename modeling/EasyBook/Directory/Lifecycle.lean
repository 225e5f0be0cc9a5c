import EasyBook.Directory.System
import EasyBook.ReadCommitted.Serial

/-!
# The calls about LINE users, one at a time

What the calls about LINE users do when nobody else is at work. `Does` lists, call by call, with
which result a call ends and what it makes of the rows, and `does` proves that the services do
nothing else.

A call that loses a transaction, or whose rich menu is not applied, is listed with what it leaves
behind. The commands sent to Redis are never lost (`RedisUp`).
-/

namespace EasyBook.Directory

open ReadCommitted ReadCommitted.Prog

/-- What may happen in a serial run of the directory. -/
abbrev DirectoryTerms := Terms Row DirectoryError Empty Ans Reply Op

/-! ### Tidy tables -/

/-- The unique indexes hold, and users are filed under their ids. -/
structure Tidy (d : View) : Prop where
  distinct : ∀ τ i j r q, d.row τ i = some r → d.row τ j = some q → clash τ r q = true → i = j
  keyed : ∀ i r, d.row .lineUser i = some r → LineUser.id r = i

namespace Tidy

variable {d d' : View} {τ : Tab}

/-- The empty directory is tidy. -/
theorem init : Tidy (Store.init Row).committed :=
  ⟨fun _ _ _ _ _ h ↦ (nomatch h), fun _ _ h ↦ (nomatch h)⟩

/-- Being tidy is a matter of the rows. -/
theorem congr (h : Tidy d) (hrow : d'.row = d.row) : Tidy d' :=
  ⟨hrow ▸ h.distinct, hrow ▸ h.keyed⟩

/-- A row that clashes with none may be added. -/
theorem add (h : Tidy d) {r : Row τ} (hr : ∀ j q, d.row τ j = some q → clash τ r q = false)
    (hid : ∀ i q, (d.add τ r).row .lineUser i = some q → LineUser.id q = i) : Tidy (d.add τ r) := by
  refine ⟨fun τ' i j x y hx hy hc ↦ ?_, hid⟩
  rcases Db.add_row_eq_some hx with hx' | ⟨rfl, rfl, hxr⟩ <;>
    rcases Db.add_row_eq_some hy with hy' | ⟨hτ, rfl, hyr⟩
  · exact h.distinct τ' i j x y hx' hy' hc
  · subst hτ
    obtain rfl : y = r := hyr
    rw [clash_comm, hr i x hx'] at hc
    cases hc
  · obtain rfl : x = r := hxr
    rw [hr j y hy'] at hc
    cases hc
  · rfl

/-- Rows may be changed as long as what they clash with stays the same. -/
theorem mapRows (h : Tidy d) {f : Row τ → Row τ} (hf : ∀ r q, clash τ (f r) q = clash τ r q)
    (hid : ∀ i q, (d.mapRows τ f).row .lineUser i = some q → LineUser.id q = i) :
    Tidy (d.mapRows τ f) := by
  refine ⟨fun τ' i j x y hx hy hc ↦ ?_, hid⟩
  by_cases hτ : τ' = τ
  · subst hτ
    rw [Db.mapRows_row_self] at hx hy
    obtain ⟨x₀, hx₀, rfl⟩ := Option.map_eq_some_iff.1 hx
    obtain ⟨y₀, hy₀, rfl⟩ := Option.map_eq_some_iff.1 hy
    rw [hf, clash_comm, hf, clash_comm] at hc
    exact h.distinct τ' i j x₀ y₀ hx₀ hy₀ hc
  · rw [Db.mapRows_row_of_ne hτ] at hx hy
    exact h.distinct τ' i j x y hx hy hc

/-- Rows may be deleted. -/
theorem keepRows (h : Tidy d) {p : Row τ → Bool} : Tidy (d.keepRows τ p) := by
  have hsub : ∀ τ' i x, (d.keepRows τ p).row τ' i = some x → d.row τ' i = some x := by
    intro τ' i x hx
    by_cases hτ : τ' = τ
    · subst hτ
      rw [Db.keepRows_row_self] at hx
      exact (Option.filter_eq_some_iff.1 hx).1
    · rwa [Db.keepRows_row_of_ne hτ] at hx
  exact ⟨fun τ' i j x y hx hy ↦ h.distinct τ' i j x y (hsub τ' i x hx) (hsub τ' j y hy),
    fun i x hx ↦ h.keyed i x (hsub _ i x hx)⟩

end Tidy

/-! ### Rules for the statements -/

section Rules

variable {α : Type} {may : ∀ q, Ans q → Prop} {since : ℤ} {F : DirectoryError → Prop}
  {Q : α → View → Prop}
  {d : View} {τ : Tab}

/-- Alone, a read answers what is there. -/
theorem solo_findFirst {p : Row τ → Bool} {k : Option (Row τ) → Tx α} :
    (findFirst τ p >>= k).solo schema may since F Q d ↔
      (k ((d.all τ).find? p)).solo schema may since F Q d :=
  Iff.rfl

/-- An update that does not touch what is unique does not fail. -/
theorem solo_updateWhere (hd : Tidy d) {p : Row τ → Bool} {set g : ℤ → Row τ → Row τ}
    {k : List (Row τ) → Tx α} (hset : ∀ c r q, clash τ (set c r) q = clash τ r q)
    (hg : ∀ c r, (if p r then set c r else r) = g c r)
    (hnone : (∀ i r, d.row τ i = some r → p r = false) → (k []).solo schema may since F Q d)
    (hsome : ∀ c i r rest, d.row τ i = some r → p r = true →
      (k (set c r :: rest)).solo schema may since F Q (d.mapRows τ (g c))) :
    (update τ (fun c r ↦ if p r then some (set c r) else none) >>= k).solo schema may since F Q
      d := by
  have hgetD : ∀ c,
      (fun r ↦ ((if p r then some (set c r) else none) : Option (Row τ)).getD r) = g c :=
    fun c ↦ funext fun r ↦ by
      rw [← hg]
      by_cases h : p r <;> simp [h]
  have hclash : ∀ c r q, clash τ (g c r) q = clash τ r q := fun c r q ↦ by
    rw [← hg]
    split
    · exact hset c r q
    · rfl
  refine solo_update schema_plain (fun c e i r r' j q hr hr' hj hq he ↦ ?_) fun c ↦ ?_
  · have hr' : r' = g c r := by
      rw [← hg]
      by_cases h : p r
      · simpa [h, eq_comm] using hr'
      · simp [h] at hr'
    have hne : clash τ r q ≠ true := fun hc ↦ hj (hd.distinct τ j i q r hq hr (by rwa [clash_comm]))
    have hsame : clash τ r' (g c q) = clash τ r q := by
      rw [hr', hclash, clash_comm, hclash, clash_comm]
    have hnone : schema.conflict τ r' (g c q) = none := if_neg (by rwa [hsame])
    rw [congrFun (hgetD c) q, hnone] at he
    cases he
  · rw [hgetD]
    cases hrows : (d.all τ).filterMap fun r ↦ if p r then some (set c r) else none with
    | nil =>
      have hno : ∀ i r, d.row τ i = some r → p r = false := fun i r hr ↦ by
        have := List.filterMap_eq_nil_iff.1 hrows r (Db.mem_all.2 ⟨i, hr⟩)
        simpa using this
      have hsame : d.mapRows τ (g c) = d := Db.ext_row rfl fun τ' i ↦ by
        by_cases hτ : τ' = τ
        · subst hτ
          rw [Db.mapRows_row_self]
          cases hr : d.row τ' i with
          | none => rfl
          | some r => simp [← hg, hno i r hr]
        · rw [Db.mapRows_row_of_ne hτ]
      rw [hsame]
      exact hnone hno
    | cons r' rest =>
      have hmem : r' ∈ (d.all τ).filterMap fun r ↦ if p r then some (set c r) else none :=
        hrows ▸ List.mem_cons_self
      obtain ⟨r, hr, hr'⟩ := List.mem_filterMap.1 hmem
      obtain ⟨i, hi⟩ := Db.mem_all.1 hr
      by_cases h : p r
      · obtain rfl : set c r = r' := by simpa [h] using hr'
        exact hsome c i r rest hi h
      · simp [h] at hr'

/-- Alone, an update of one row fails where there is none, and otherwise maps the rows of its table.
-/
theorem solo_updateOne (hd : Tidy d) {p : Row τ → Bool} {set g : ℤ → Row τ → Row τ}
    {k : Row τ → Tx α} (hset : ∀ c r q, clash τ (set c r) q = clash τ r q)
    (hg : ∀ c r, (if p r then set c r else r) = g c r)
    (hF : (∀ i r, d.row τ i = some r → p r = false) → F .recordNotFound)
    (hk : ∀ c i r, d.row τ i = some r → p r = true →
      (k (set c r)).solo schema may since F Q (d.mapRows τ (g c))) :
    (updateOne τ p set >>= k).solo schema may since F Q d := by
  change (Prog.bind (Prog.bind _ _) k).solo schema may since F Q d
  rw [Prog.bind_assoc]
  exact solo_updateWhere hd hset hg hF fun c i r _ ↦ hk c i r

/-- Alone, an update of many rows counts those it has mapped. -/
theorem solo_updateMany (hd : Tidy d) {p : Row τ → Bool} {set g : ℤ → Row τ → Row τ}
    {k : ℕ → Tx α} (hset : ∀ c r q, clash τ (set c r) q = clash τ r q)
    (hg : ∀ c r, (if p r then set c r else r) = g c r)
    (hnone : (∀ i r, d.row τ i = some r → p r = false) → (k 0).solo schema may since F Q d)
    (hk : ∀ c i r n, d.row τ i = some r → p r = true →
      (k (n + 1)).solo schema may since F Q (d.mapRows τ (g c))) :
    (updateMany τ p set >>= k).solo schema may since F Q d := by
  change (Prog.bind (Prog.bind _ _) k).solo schema may since F Q d
  rw [Prog.bind_assoc]
  exact solo_updateWhere hd hset hg hnone fun c i r rest ↦ hk c i r rest.length

/-- A creation fails only next to a row that it clashes with. -/
theorem solo_create {new : ℤ → ℕ → Row τ} {k : Row τ → Tx α}
    (hF : ∀ c i r, d.row τ i = some r → clash τ (new c d.next) r = true → F .uniqueViolation)
    (hk : ∀ c, (∀ i r, d.row τ i = some r → clash τ (new c d.next) r = false) →
      (k (new c d.next)).solo schema may since F Q (d.add τ (new c d.next))) :
    (create τ new >>= k).solo schema may since F Q d := by
  have hconflict : ∀ (r q : Row τ) e, schema.conflict τ r q = some e →
      clash τ r q = true ∧ e = .uniqueViolation := fun r q e he ↦ by
    by_cases h : clash τ r q = true
    · exact ⟨h, Option.some.inj (he.symm.trans (if_pos h))⟩
    · cases he.symm.trans (if_neg h)
  refine solo_insert schema_plain (fun c e i r hr he ↦ ?_) fun c hn ↦ hk c fun i r hr ↦ ?_
  · obtain ⟨hc, rfl⟩ := hconflict _ _ e he
    exact hF c i r hr hc
  · by_contra hc
    have hsome : schema.conflict τ (new c d.next) r = some .uniqueViolation :=
      if_pos (eq_true_of_ne_false hc)
    rw [hn i r hr] at hsome
    cases hsome

/-- An upsert that singles out what its creation clashes with does not fail. -/
theorem solo_upsert (hd : Tidy d) {p : Row τ → Bool} {set g : ℤ → Row τ → Row τ}
    {new : ℤ → ℕ → Row τ} {k : Row τ → Tx α}
    (hset : ∀ c r q, clash τ (set c r) q = clash τ r q)
    (hg : ∀ c r, (if p r then set c r else r) = g c r)
    (hnew : ∀ c r, p r = false → clash τ (new c d.next) r = false)
    (hcreate : (∀ i r, d.row τ i = some r → p r = false) → ∀ c,
      (k (new c d.next)).solo schema may since F Q (d.add τ (new c d.next)))
    (hk : ∀ c i r, d.row τ i = some r → p r = true →
      (k (set c r)).solo schema may since F Q (d.mapRows τ (g c))) :
    (upsert τ p set new >>= k).solo schema may since F Q d := by
  change (Prog.bind (Prog.bind _ _) k).solo schema may since F Q d
  rw [Prog.bind_assoc]
  refine solo_updateWhere hd hset hg (fun hno ↦ ?_) fun c i r _ ↦ hk c i r
  refine solo_create (fun c i r hr hc ↦ ?_) fun c _ ↦ hcreate hno c
  rw [hnew c r (hno i r hr)] at hc
  cases hc

end Rules

/-! ### What the calls look at -/

/-- Some row is filed under the subject, deleted or not. -/
def Known (d : View) (lineUserId : JsString) : Prop :=
  ∃ i r, d.row .lineUser i = some r ∧ LineUser.lineUserId r = lineUserId

/-- `u` is the row that the subject sees. -/
def ActiveUser (d : View) (lineUserId : JsString) (u : LineUser) : Prop :=
  ∃ i, d.row .lineUser i = some u ∧ u.lineUserId = lineUserId ∧ u.deletedAt = none

/-- The user has a registration. -/
def HasRegistration (d : View) (userId : Cuid) : Prop :=
  ∃ i q, d.row .registration i = some q ∧ LineUserRegistration.lineUserId q = userId

/-- The option may be chosen. -/
def OptionActive (d : View) (v : Vocabulary) (id : Cuid) : Prop :=
  ∃ i r, d.row (.option v) i = some r ∧ OptionRow.id r = id ∧ r.deletedAt = none ∧
    r.isSystemReserved = false

/-- The status cache has an entry for the subject. -/
def Cached (d : View) (lineUserId : JsString) (s : StatusResponse) : Prop :=
  ∃ i, d.row .statusCache i = some ⟨lineUserId, s⟩

/-- `getOrCreateByLineUserId` ends with user `u`. -/
inductive Found (d : View) (lineUserId : JsString) : LineUser → View → Prop
  | existing {u} : ActiveUser d lineUserId u → Found d lineUserId u d
  | created (c : ℤ) : ¬ Known d lineUserId →
      Found d lineUserId (newLineUser lineUserId c d.next)
        (d.add .lineUser (newLineUser lineUserId c d.next))

namespace Tidy

variable {d : View} {lineUserId : JsString}

/-- The subject of a user is its key. -/
theorem subject (h : Tidy d) {i j : ℕ} {r q : LineUser} (hr : d.row .lineUser i = some r)
    (hq : d.row .lineUser j = some q) (hs : r.lineUserId = q.lineUserId) : r = q := by
  obtain rfl := h.distinct .lineUser i j r q hr hq (decide_eq_true hs)
  exact Option.some.inj (hr.symm.trans hq)

/-- A LINE user has one row. -/
theorem active_unique (h : Tidy d) {u u' : LineUser} (hu : ActiveUser d lineUserId u)
    (hu' : ActiveUser d lineUserId u') : u = u' := by
  obtain ⟨i, hr, hs, _⟩ := hu
  obtain ⟨j, hq, hs', _⟩ := hu'
  exact h.subject hr hq (hs.trans hs'.symm)

/-- The directory stays tidy when a user's row is created on demand. -/
theorem found (h : Tidy d) {u : LineUser} {d' : View} (hf : Found d lineUserId u d') : Tidy d' := by
  cases hf with
  | existing _ => exact h
  | created c hn =>
    refine h.add (fun j q hq ↦ decide_eq_false fun hs ↦ hn ⟨j, q, hq, hs.symm⟩) fun i q hq ↦ ?_
    rcases Db.add_row_eq_some hq with hq' | ⟨_, rfl, hqr⟩
    · exact h.keyed i q hq'
    · obtain rfl : q = _ := hqr
      rfl

end Tidy

section Rules

variable {α : Type} {may : ∀ q, Ans q → Prop} {since : ℤ} {F : DirectoryError → Prop}
  {Q : α → View → Prop}
  {d : View} {lineUserId : JsString}

/-- The read of a user's row answers the active one, if there is one. -/
theorem solo_findActiveByLineUserId {k : Option LineUser → Tx α}
    (hnone : (∀ u, ¬ ActiveUser d lineUserId u) → (k none).solo schema may since F Q d)
    (hsome : ∀ u, ActiveUser d lineUserId u → (k (some u)).solo schema may since F Q d) :
    (findActiveByLineUserId lineUserId >>= k).solo schema may since F Q d := by
  refine solo_findFirst.2 ?_
  cases hfind : (d.all .lineUser).find? fun r ↦
      decide (LineUser.lineUserId r = lineUserId) && r.deletedAt.isNone with
  | none =>
    refine hnone fun u ⟨i, hu, hs, hd⟩ ↦ ?_
    have := List.find?_eq_none.1 hfind u (Db.mem_all.2 ⟨i, hu⟩)
    simp [hs, hd] at this
  | some u =>
    have hmem : u ∈ d.all .lineUser := List.mem_of_find?_eq_some hfind
    obtain ⟨i, hu⟩ := Db.mem_all.1 hmem
    have hp := List.find?_some hfind
    simp only [Bool.and_eq_true, decide_eq_true_eq, Option.isNone_iff_eq_none] at hp
    exact hsome u ⟨i, hu, hp⟩

/-- It fails on the row of a subject that has left. -/
theorem solo_getOrCreateByLineUserId {k : LineUser → Tx α}
    (hF : (∀ u, ¬ ActiveUser d lineUserId u) → Known d lineUserId → F .uniqueViolation)
    (hk : ∀ u d', Found d lineUserId u d' → (k u).solo schema may since F Q d') :
    (getOrCreateByLineUserId lineUserId >>= k).solo schema may since F Q d := by
  change (Prog.bind (Prog.bind _ _) k).solo schema may since F Q d
  rw [Prog.bind_assoc]
  refine solo_findActiveByLineUserId (fun hno ↦ ?_) fun u hu ↦ hk u d (.existing hu)
  refine solo_create (fun c i r hr hc ↦ hF hno ⟨i, r, hr, ?_⟩) fun c hn ↦ hk _ _ (.created c ?_)
  · exact (of_decide_eq_true hc).symm
  · rintro ⟨i, r, hr, hs⟩
    exact absurd (hn i r hr) (by simp [clash, newLineUser, hs])

/-- An option that was found is active. -/
private theorem option_of_find {v : Vocabulary} {id : Cuid} {r : OptionRow}
    (h : (d.all (.option v)).find? (fun r ↦
      decide (OptionRow.id r = id) && r.deletedAt.isNone && !r.isSystemReserved) = some r) :
    OptionActive d v id := by
  have hmem : r ∈ d.all (.option v) := List.mem_of_find?_eq_some h
  obtain ⟨i, hr⟩ := Db.mem_all.1 hmem
  have hp := List.find?_some h
  simp only [Bool.and_eq_true, decide_eq_true_eq, Option.isNone_iff_eq_none,
    Bool.not_eq_eq_eq_not, Bool.not_true] at hp
  exact ⟨i, r, hr, hp.1.1, hp.1.2, hp.2⟩

/-- Where none was found, none is. -/
private theorem not_option_of_find {v : Vocabulary} {id : Cuid}
    (h : (d.all (.option v)).find? (fun r ↦
      decide (OptionRow.id r = id) && r.deletedAt.isNone && !r.isSystemReserved) = none) :
    ¬ OptionActive d v id := by
  rintro ⟨i, r, hr, hid, hd, hs⟩
  have := List.find?_eq_none.1 h r (Db.mem_all.2 ⟨i, hr⟩)
  simp [hid, hd, hs] at this

/-- The check of a registration's options refuses where one of them is not active. -/
theorem solo_assertActiveOptions {departmentId personnelRoleId : Cuid} {k : Unit → Tx α}
    (hF : ∀ m, ¬ (OptionActive d .department departmentId ∧
      OptionActive d .personnelRole personnelRoleId) → F (.badRequest m))
    (hk : OptionActive d .department departmentId → OptionActive d .personnelRole personnelRoleId →
      (k ()).solo schema may since F Q d) :
    (assertActiveOptions departmentId personnelRoleId >>= k).solo schema may since F Q d := by
  change (Prog.bind (Prog.bind _ _) k).solo schema may since F Q d
  rw [Prog.bind_assoc]
  refine solo_findFirst.2 ?_
  change (Prog.bind (Prog.bind _ _) k).solo schema may since F Q d
  rw [Prog.bind_assoc]
  refine solo_findFirst.2 ?_
  change (Prog.bind (Prog.bind _ _) k).solo schema may since F Q d
  rw [Prog.bind_assoc]
  refine solo_require (fun hn ↦ hF _ fun h ↦ not_option_of_find hn h.1) fun r hr ↦ ?_
  change (Prog.bind (Prog.bind _ _) k).solo schema may since F Q d
  rw [Prog.bind_assoc]
  refine solo_require (fun hn ↦ hF _ fun h ↦ not_option_of_find hn h.2) fun q hq ↦ ?_
  exact hk (option_of_find hr) (option_of_find hq)

end Rules

/-! ### What the calls make of the rows -/

/-- User `id` is changed. -/
def setUser (d : View) (id : Cuid) (f : LineUser → LineUser) : View :=
  d.mapRows .lineUser fun r ↦ if r.id = id then f r else r

/-- The registration of user `id` is changed. -/
def setRegistration (d : View) (id : Cuid) (f : LineUserRegistration → LineUserRegistration) :
    View :=
  d.mapRows .registration fun q ↦ if q.lineUserId = id then f q else q

/-- The status of a subject is dropped. -/
def dropEntry (d : View) (lineUserId : JsString) : View :=
  d.keepRows .statusCache fun e ↦ decide (e.lineUserId ≠ lineUserId)

/-- The status of a subject is stored. -/
def storeEntry (d : View) (lineUserId : JsString) (s : StatusResponse) : View :=
  (dropEntry d lineUserId).add .statusCache ⟨lineUserId, s⟩

/-- The update of `upsertOnFollow`. -/
def refollow (profile : LineProfile) (c : ℤ) (r : LineUser) : LineUser :=
  { r with
    displayName := profile.displayName
    pictureUrl := profile.pictureUrl
    statusMessage := profile.statusMessage
    language := profile.language
    deletedAt := none
    followedAt := c }

/-- The row that a first follow creates. -/
def newFollower (lineUserId : JsString) (profile : LineProfile) (c : ℤ) (id : Cuid) : LineUser :=
  { newLineUser lineUserId c id with
    displayName := profile.displayName
    pictureUrl := profile.pictureUrl
    statusMessage := profile.statusMessage
    language := profile.language }

/-- The update of `syncProfile`. -/
def takeProfile (user : LineUser) (profile : LineProfile) (r : LineUser) : LineUser :=
  { r with
    displayName := news profile.displayName user.displayName <|> r.displayName
    pictureUrl := news profile.pictureUrl user.pictureUrl <|> r.pictureUrl }

/-- What `toStatusDto` makes of a user in a view. -/
def statusOf (d : View) (user : LineUser) : StatusResponse :=
  ⟨user.access,
    ((d.all .registration).find? fun r ↦
      decide (LineUserRegistration.lineUserId r = user.id) && r.deletedAt.isNone).map
        (toRegistrationResponse d),
    user.rejectionReason⟩

/-- The rows after `registerTx` has filed `created`. -/
def enrol (d : View) (created : LineUserRegistration) : View :=
  setUser (d.add .registration created) created.lineUserId fun r ↦
    { r with access := .pending, registeredAt := some created.createdAt }

/-- The calls that end with an error before anything is written. -/
inductive Refuses (d : View) : Op → DirectoryError → Prop
  /-- The subject has left, and its row is in the way. -/
  | registerGone {lineUserId dto} : (∀ u, ¬ ActiveUser d lineUserId u) → Known d lineUserId →
      Refuses d (.register lineUserId dto) (.conflict .alreadyRegistered)
  | statusGone {lineUserId profile} : (∀ u, ¬ ActiveUser d lineUserId u) → Known d lineUserId →
      (∀ s, ¬ Cached d lineUserId s) → Refuses d (.getStatus lineUserId profile) .uniqueViolation
  | settingsGone {lineUserId dto} : (∀ u, ¬ ActiveUser d lineUserId u) → Known d lineUserId →
      Refuses d (.patchSettings lineUserId dto) .uniqueViolation
  /-- The user is past its registration. -/
  | alreadyRegistered {lineUserId dto u} : ActiveUser d lineUserId u → u.access ≠ .unregistered →
      Refuses d (.register lineUserId dto) (.conflict .alreadyRegistered)
  /-- The user is `UNREGISTERED` and has a registration all the same. -/
  | registrationInTheWay {lineUserId dto u d'} : Found d lineUserId u d' →
      u.access = .unregistered → HasRegistration d' u.id →
      Refuses d (.register lineUserId dto) (.conflict .alreadyRegistered)
  | registerOptions {lineUserId dto m} : ¬ (OptionActive d .department dto.departmentId ∧
      OptionActive d .personnelRole dto.personnelRoleId) →
      Refuses d (.register lineUserId dto) (.badRequest m)
  | notEditable {lineUserId dto} :
      (∀ u, ActiveUser d lineUserId u → u.access ≠ .pending ∧ u.access ≠ .rejected) →
      Refuses d (.updateRegistration lineUserId dto) (.forbidden .registrationNotEditable)
  | editOptions {lineUserId dto m} : ¬ (OptionActive d .department dto.departmentId ∧
      OptionActive d .personnelRole dto.personnelRoleId) →
      Refuses d (.updateRegistration lineUserId dto) (.badRequest m)
  /-- The user may edit its registration and has none. -/
  | nothingToEdit {lineUserId dto u} : ActiveUser d lineUserId u →
      u.access = .pending ∨ u.access = .rejected → ¬ HasRegistration d u.id →
      Refuses d (.updateRegistration lineUserId dto) .recordNotFound
  | updateAccess {id access actor reason e} : Refuses d (.updateAccess id access actor reason) e
  | updateRegistrationByAdmin {id dto actor e} :
      Refuses d (.updateRegistrationByAdmin id dto actor) e
  | createOption {v name e} : Refuses d (.createOption v name) e

/-- The update of a registration by its owner: only a rejected one goes back to pending. -/
def resubmit (d : View) (u : LineUser) (dto : RegistrationDto) (c : ℤ) : View :=
  let d' := setRegistration d u.id (editRegistration dto c)
  if u.access = .rejected then
    setUser d' u.id fun r ↦ { r with access := .pending, rejectionReason := none }
  else d'

/-- `SUPER_ADMIN` aside, a transition must be admissible; rejecting needs a registration, if only by
the name of the access. -/
def MaySetAccess (u : LineUser) (access : AppAccess) (actor : AdminActor) : Prop :=
  (actor.role = .admin → u.deletedAt = none ∧ canAdminSetAccess u.access access = true) ∧
    (access = .rejected → u.access ≠ .unregistered)

/-- **What the calls about LINE users do**: the result with which a call ends, and the rows it
leaves behind. -/
inductive Does (T : DirectoryTerms) (d : View) : Op → Except DirectoryError Reply → View → Prop
  /-- The first transaction is lost. -/
  | lost {op e p d₁ d'} : directory.loses e = true → d₁.row = d.row → T.lose op d₁ p e →
      d'.row = d.row → Does T d op (.error e) d'
  | refused {op e d'} : Refuses d op e → d'.row = d.row → Does T d op (.error e) d'
  | followed {lineUserId profile c i u} : d.row .lineUser i = some u → u.lineUserId = lineUserId →
      Does T d (.upsertOnFollow lineUserId profile) (.ok (.lineUser (refollow profile c u)))
        (dropEntry (d.mapRows .lineUser fun r ↦
          if r.lineUserId = lineUserId then refollow profile c r else r) lineUserId)
  | joined {lineUserId profile c} : ¬ Known d lineUserId →
      Does T d (.upsertOnFollow lineUserId profile)
        (.ok (.lineUser (newFollower lineUserId profile c d.next)))
        (dropEntry (d.add .lineUser (newFollower lineUserId profile c d.next)) lineUserId)
  | stranger {lineUserId} : (∀ u, ¬ ActiveUser d lineUserId u) →
      Does T d (.softDeleteByLineUserId lineUserId) (.ok (.removed 0)) d
  | unfollowed {lineUserId u c n} : ActiveUser d lineUserId u →
      Does T d (.softDeleteByLineUserId lineUserId) (.ok (.removed (n + 1)))
        (dropEntry (setUser d u.id fun r ↦
          if r.deletedAt = none then { r with deletedAt := some c } else r) lineUserId)
  | registered {lineUserId dto u d₁ c} : Found d lineUserId u d₁ → u.access = .unregistered →
      OptionActive d .department dto.departmentId →
      OptionActive d .personnelRole dto.personnelRoleId → ¬ HasRegistration d₁ u.id →
      Does T d (.register lineUserId dto)
        (.ok (.status ⟨.pending, some (toRegistrationResponse
          (d₁.add .registration (newRegistration u.id dto c d₁.next))
          (newRegistration u.id dto c d₁.next)), none⟩))
        (dropEntry (enrol d₁ (newRegistration u.id dto c d₁.next)) lineUserId)
  | edited {lineUserId dto u c s} : ActiveUser d lineUserId u →
      u.access = .pending ∨ u.access = .rejected → OptionActive d .department dto.departmentId →
      OptionActive d .personnelRole dto.personnelRoleId → HasRegistration d u.id →
      Does T d (.updateRegistration lineUserId dto) (.ok (.status s))
        (dropEntry (resubmit d u dto c) lineUserId)
  | cached {lineUserId profile s} : Cached d lineUserId s →
      Does T d (.getStatus lineUserId profile) (.ok (.status s)) d
  | answered {lineUserId profile u d₁ d₂ u'} : (∀ s, ¬ Cached d lineUserId s) →
      Found d lineUserId u d₁ →
      (d₂ = d₁ ∧ u' = u ∨ ∃ claims, profile = some claims ∧
        d₂ = setUser d₁ u.id (takeProfile u claims) ∧ u' = takeProfile u claims u) →
      Does T d (.getStatus lineUserId profile) (.ok (.status (statusOf d₂ u')))
        (storeEntry d₂ lineUserId (statusOf d₂ u'))
  /-- The status was asked for, and a transaction lost after the first. -/
  | unanswered {lineUserId profile u d₁ d₂ d₃ d' e p} : Found d lineUserId u d₁ →
      (d₂ = d₁ ∨ ∃ claims, d₂ = setUser d₁ u.id (takeProfile u claims)) →
      directory.loses e = true → d₃.row = d₂.row →
      T.lose (.getStatus lineUserId profile) d₃ p e → d'.row = d₂.row →
      Does T d (.getStatus lineUserId profile) (.error e) d'
  | patched {lineUserId dto u d₁ d' reply} : Found d lineUserId u d₁ → Tidy d' →
      (∀ τ, τ ≠ .settings → d'.row τ = d₁.row τ) →
      Does T d (.patchSettings lineUserId dto) (.ok reply) d'
  | unpatched {lineUserId dto u d₁ d₂ d' e p} : Found d lineUserId u d₁ →
      directory.loses e = true → d₂.row = d₁.row →
      T.lose (.patchSettings lineUserId dto) d₂ p e → d'.row = d₁.row →
      Does T d (.patchSettings lineUserId dto) (.error e) d'
  /-- The user has left: nobody is told and nothing is dropped. -/
  | accessSetUnseen {id access actor reason i u} : d.row .lineUser i = some u → u.id = id →
      u.deletedAt ≠ none → MaySetAccess u access actor →
      Does T d (.updateAccess id access actor reason) (.ok (.lineUser (setAccess access reason u)))
        (setUser d id (setAccess access reason))
  /-- LINE did not link the rich menu. -/
  | menuNotApplied {id access actor reason i u d₁} : d.row .lineUser i = some u → u.id = id →
      u.deletedAt = none → MaySetAccess u access actor →
      d₁.row = (setUser d id (setAccess access reason)).row →
      T.may (.updateAccess id access actor reason) d₁
        (.applyRichMenu u.lineUserId (accessToRichMenuType access)) false →
      Does T d (.updateAccess id access actor reason)
        (.error (.badGateway .lineRichMenuApplyFailed))
        (setUser d id (setAccess access reason))
  | accessSet {id access actor reason i u} : d.row .lineUser i = some u → u.id = id →
      u.deletedAt = none → MaySetAccess u access actor →
      Does T d (.updateAccess id access actor reason) (.ok (.lineUser (setAccess access reason u)))
        (dropEntry (setUser d id (setAccess access reason)) u.lineUserId)
  | corrected {id dto actor i u c} : d.row .lineUser i = some u → u.id = id →
      OptionActive d .department dto.departmentId →
      OptionActive d .personnelRole dto.personnelRoleId →
      Does T d (.updateRegistrationByAdmin id dto actor) (.ok (.lineUser u))
        (dropEntry (setRegistration d id (editRegistration dto c)) u.lineUserId)
  /-- The user could not be read again. -/
  | correctedUnread {id dto actor i u c e p d₁ d'} : d.row .lineUser i = some u → u.id = id →
      OptionActive d .department dto.departmentId →
      OptionActive d .personnelRole dto.personnelRoleId →
      directory.loses e = true → d₁.row = (setRegistration d id (editRegistration dto c)).row →
      T.lose (.updateRegistrationByAdmin id dto actor) d₁ p e →
      d'.row = (setRegistration d id (editRegistration dto c)).row →
      Does T d (.updateRegistrationByAdmin id dto actor) (.error e) d'
  | optionCreated {v name} :
      (∀ i r, d.row (.option v) i = some r →
        clash (.option v) (newOption name false d.next) r = false) →
      Does T d (.createOption v name) (.ok (.option (newOption name false d.next)))
        (d.add (.option v) (newOption name false d.next))

/-- The calls about LINE users, and the creation of an option. -/
def LineOp : Op → Prop
  | .upsertOnFollow _ _ | .softDeleteByLineUserId _ | .register _ _ | .updateRegistration _ _
  | .getStatus _ _ | .patchSettings _ _ | .updateAccess _ _ _ _ | .updateRegistrationByAdmin _ _ _
  | .createOption _ _ => True
  | _ => False

instance (op : Op) : Decidable (LineOp op) := by
  unfold LineOp
  induction op using Op.casesOn <;> infer_instance

/-! ### The services do that -/

/-- A command that writes to Redis. -/
def ToRedis : Tx Reply → Prop
  | .modify τ _ _ => τ = .statusCache
  | _ => False

/-- No command that writes to Redis is lost. -/
def RedisUp (T : DirectoryTerms) : Prop := ∀ op d p e, T.lose op d p e → ¬ ToRedis p

section Does

variable {T : DirectoryTerms} {since : ℤ} {op : Op} {Q : Except DirectoryError Reply → View → Prop}
  {d : View} {lineUserId : JsString}

/-- A statement is lost to a write conflict or to an unreachable database. -/
private theorem loses_cases {e : DirectoryError} (h : directory.loses e = true) :
    e = .writeConflict ∨ e = .unavailable := of_decide_eq_true h

/-- `redis.del` drops the user's entry. -/
private theorem solo_dropStatus {α : Type} {may : ∀ q, Ans q → Prop} {since : ℤ}
    {F : DirectoryError → Prop} {G : α → View → Prop} {k : List StatusEntry → Tx α}
    (hk : ∀ rows, (k rows).solo schema may since F G (dropEntry d lineUserId)) :
    (modify .statusCache (fun _ _ (e : StatusEntry) ↦
      if e.lineUserId = lineUserId then some none else none) k).solo schema may since F G d := by
  have hput : ∀ ch : StatusEntry → Option (Option StatusEntry),
      ch = (fun e ↦ if e.lineUserId = lineUserId then some none else none) →
      d.put .statusCache ch = dropEntry d lineUserId := by
    rintro ch rfl
    refine congrArg (d.put .statusCache) (funext fun e ↦ ?_)
    by_cases he : e.lineUserId = lineUserId <;> simp [he]
  refine solo_modify schema_plain (fun c e i r r' j q _ hch ↦ ?_) fun c ↦ ?_
  · split at hch <;> cases hch
  · rw [hput _ rfl]
    exact hk _

/-- A call that ends with the drop of its status. -/
theorem heads_dropThen (hT : RedisUp T) {reply : Reply}
    (h : Q (.ok reply) (dropEntry d lineUserId)) :
    directory.Heads T since op Q (dropThen lineUserId reply) d :=
  ⟨solo_dropStatus fun _ ↦ h, fun _ _ _ hl ↦ absurd rfl (hT _ _ _ _ hl.2)⟩

/-- The notice changes nothing. -/
theorem heads_notifyAccessChange {access : AppAccess} {k : Call}
    (h : directory.Heads T since op Q k d) :
    directory.Heads T since op Q (notifyAccessChange lineUserId access k) d := by
  unfold notifyAccessChange
  split
  · exact h
  · exact fun _ _ ↦ h

/-- A user's row clashes through its LINE id alone. -/
private theorem clash_of_subject {r r' : LineUser} (h : r'.lineUserId = r.lineUserId)
    (q : LineUser) : clash .lineUser r' q = clash .lineUser r q := by
  simp [clash, h]

/-- What a follow does, served alone. -/
theorem upsertOnFollow_does (hT : RedisUp T) (hd : Tidy d) (profile : LineProfile) :
    directory.Heads T since (.upsertOnFollow lineUserId profile)
      (Does T d (.upsertOnFollow lineUserId profile)) (upsertOnFollow lineUserId profile) d := by
  refine ⟨?_, fun e d' hd' hl ↦ ?_⟩
  · refine solo_upsert hd (fun c r ↦ clash_of_subject rfl) (g := fun c (r : LineUser) ↦
      if r.lineUserId = lineUserId then refollow profile c r else r)
      (fun c r ↦ by simp only [decide_eq_true_eq]; rfl) (fun c r hr ↦ ?_) (fun hno c ↦ ?_)
      fun c i r hr hp ↦ ?_
    · exact decide_eq_false fun hs ↦ of_decide_eq_false hr hs.symm
    · refine heads_dropThen hT (.joined fun ⟨i, r, hr, hs⟩ ↦ ?_)
      exact of_decide_eq_false (hno i r hr) hs
    · exact heads_dropThen hT (.followed hr (of_decide_eq_true hp))
  · rcases loses_cases hl.1 with rfl | rfl <;> exact .lost hl.1 hd' hl.2 hd'

/-- What an unfollow does, served alone. -/
theorem softDeleteByLineUserId_does (hT : RedisUp T) (hd : Tidy d) :
    directory.Heads T since (.softDeleteByLineUserId lineUserId)
      (Does T d (.softDeleteByLineUserId lineUserId)) (softDeleteByLineUserId lineUserId) d := by
  refine ⟨?_, fun e d' hd' hl ↦ .lost hl.1 hd' hl.2 hd'⟩
  refine solo_findActiveByLineUserId (fun hno ↦ .stranger hno) fun u hu ↦ ?_
  refine solo_updateMany hd (fun c r ↦ clash_of_subject rfl)
    (g := fun c (r : LineUser) ↦ (if r.id = u.id then
      if r.deletedAt = none then { r with deletedAt := some c } else r else r : LineUser))
    (fun c r ↦ ?_) (fun hno ↦ ?_) fun c i r n hr hp ↦ heads_dropThen hT (.unfollowed hu)
  · by_cases hid : r.id = u.id <;> by_cases hdel : r.deletedAt = none <;> simp [hid, hdel]
  · obtain ⟨i, hi, _, hdel⟩ := hu
    have := hno i u hi
    simp [hdel] at this

/-- The user that was found. -/
theorem Found.row (hd : Tidy d) {u : LineUser} {d' : View} (h : Found d lineUserId u d') :
    d'.row .lineUser u.id = some u ∧ u.lineUserId = lineUserId ∧ u.deletedAt = none := by
  cases h with
  | existing hu =>
    obtain ⟨i, hi, hs⟩ := hu
    rw [hd.keyed i u hi]
    exact ⟨hi, hs⟩
  | created c _ => exact ⟨Db.add_row_next, rfl, rfl⟩

/-- Finding a user touches no other table. -/
theorem Found.row_of_ne {u : LineUser} {d' : View} (h : Found d lineUserId u d') {τ : Tab}
    (hτ : τ ≠ .lineUser) : d'.row τ = d.row τ := by
  cases h with
  | existing _ => rfl
  | created c _ => exact Db.add_row_of_ne hτ

/-- Creating a user's row touches no option. -/
theorem Found.optionActive {u : LineUser} {d' : View} (h : Found d lineUserId u d')
    {v : Vocabulary} {id : Cuid} : OptionActive d' v id ↔ OptionActive d v id := by
  unfold OptionActive
  rw [h.row_of_ne (by simp)]

/-- What a registration does, served alone. -/
theorem register_does (hT : RedisUp T) (hd : Tidy d) (dto : RegistrationDto) :
    directory.Heads T since (.register lineUserId dto) (Does T d (.register lineUserId dto))
      (register lineUserId dto) d := by
  refine ⟨?_, fun e d' hd' hl ↦ ?_⟩
  · refine solo_getOrCreateByLineUserId (fun hno hk d' hd' ↦ .refused (.registerGone hno hk) hd')
      fun u d₁ hu ↦ ?_
    have hd₁ := hd.found hu
    refine solo_refuse (fun ha d' hd' ↦ .refused ?_ hd') fun ha ↦ ?_
    · cases hu with
      | existing hu => exact .alreadyRegistered hu ha
      | created c _ => exact absurd rfl ha
    · have ha : u.access = .unregistered := not_not.1 ha
      refine solo_assertActiveOptions (fun m hm d' hd' ↦ .refused (.registerOptions ?_) hd')
        fun hdep hrole ↦ ?_
      · rwa [← hu.optionActive, ← hu.optionActive]
      rw [hu.optionActive] at hdep hrole
      refine solo_create (fun c i q hq hc d' hd' ↦ .refused (.registrationInTheWay hu ha ?_) hd')
        fun c hn ↦ ?_
      · exact ⟨i, q, hq, (of_decide_eq_true hc).symm⟩
      have hno : ¬ HasRegistration d₁ u.id := fun ⟨i, q, hq, hs⟩ ↦
        of_decide_eq_false (hn i q hq) hs.symm
      have hrow := (hu.row hd).1
      refine solo_query.2 (solo_updateOne (hd₁.add hn fun i q hq ↦ ?_)
        (fun c r ↦ clash_of_subject rfl) (g := fun _ (r : LineUser) ↦ (if r.id = u.id then
          { r with access := .pending, registeredAt := some c } else r : LineUser))
        (fun _ r ↦ by simp only [decide_eq_true_eq]; rfl) (fun hnone ↦ ?_) fun c' i r hr hp ↦ ?_)
      · rw [Db.add_row_of_ne (by simp)] at hq
        exact hd₁.keyed i q hq
      · have := hnone u.id u (by rwa [Db.add_row_of_ne (by simp)])
        simp at this
      · exact heads_notifyAccessChange (heads_dropThen hT (.registered hu ha hdep hrole hno))
  · rcases loses_cases hl.1 with rfl | rfl <;> exact .lost hl.1 hd' hl.2 hd'

/-- A registration clashes through its user alone. -/
private theorem clash_of_owner {q q' : LineUserRegistration} (h : q'.lineUserId = q.lineUserId)
    (x : LineUserRegistration) : clash .registration q' x = clash .registration q x := by
  simp [clash, h]

/-- An edit of a registration that keeps its user keeps the directory tidy. -/
theorem Tidy.setRegistration (hd : Tidy d) {id : Cuid}
    {f : LineUserRegistration → LineUserRegistration}
    (hf : ∀ q, (f q).lineUserId = q.lineUserId) : Tidy (setRegistration d id f) := by
  refine hd.mapRows (fun r ↦ clash_of_owner ?_) fun i q hq ↦ ?_
  · split
    · exact hf r
    · rfl
  · rw [Db.mapRows_row_of_ne (by simp)] at hq
    exact hd.keyed i q hq

/-- So does an edit of a user's row that keeps its ids. -/
theorem Tidy.setUser (hd : Tidy d) {id : Cuid} {f : LineUser → LineUser}
    (hf : ∀ r, (f r).lineUserId = r.lineUserId ∧ (f r).id = r.id) : Tidy (setUser d id f) := by
  refine hd.mapRows (fun r ↦ clash_of_subject ?_) fun i q hq ↦ ?_
  · split
    · exact (hf r).1
    · rfl
  · rw [Db.mapRows_row_self] at hq
    obtain ⟨r, hr, rfl⟩ := Option.map_eq_some_iff.1 hq
    split
    · exact (hf r).2.trans (hd.keyed i r hr)
    · exact hd.keyed i r hr

/-- What a corrected registration does, served alone. -/
theorem updateRegistration_does (hT : RedisUp T) (hd : Tidy d) (dto : RegistrationDto) :
    directory.Heads T since (.updateRegistration lineUserId dto)
      (Does T d (.updateRegistration lineUserId dto)) (updateRegistration lineUserId dto) d := by
  refine ⟨?_, fun e d' hd' hl ↦ .lost hl.1 hd' hl.2 hd'⟩
  refine solo_findActiveByLineUserId (fun hno d' hd' ↦ ?_) fun u hu ↦ ?_
  · exact .refused (.notEditable fun u hu ↦ absurd hu (hno u)) hd'
  refine solo_refuse (fun ha d' hd' ↦ .refused (.notEditable fun u' hu' ↦ ?_) hd') fun ha ↦ ?_
  · exact hd.active_unique hu hu' ▸ ha
  have hedit : u.access = .pending ∨ u.access = .rejected := by
    by_contra hn
    exact ha (not_or.1 hn)
  refine solo_assertActiveOptions (fun m hm d' hd' ↦ .refused (.editOptions hm) hd')
    fun hdep hrole ↦ ?_
  refine solo_updateOne hd (fun c r ↦ clash_of_owner rfl) (g := fun c (q : LineUserRegistration) ↦
      if q.lineUserId = u.id then editRegistration dto c q else q)
    (fun _ r ↦ by simp only [decide_eq_true_eq]) (fun hno d' hd' ↦ ?_) fun c i q hq hp ↦ ?_
  · refine .refused (.nothingToEdit hu hedit fun ⟨i, q, hq, hs⟩ ↦ ?_) hd'
    exact of_decide_eq_false (hno i q hq) hs
  have hreg : HasRegistration d u.id := ⟨i, q, hq, of_decide_eq_true hp⟩
  refine solo_query.2 ?_
  have hdone := fun s ↦ Does.edited (T := T) (c := c) (s := s) hu hedit hdep hrole hreg
  by_cases hrej : u.access = .rejected
  · rw [if_pos hrej]
    obtain ⟨j, hj, _⟩ := hu
    have hd₁ : Tidy (setRegistration d u.id (editRegistration dto c)) :=
      hd.setRegistration fun _ ↦ rfl
    refine solo_updateOne hd₁ (fun c r ↦ clash_of_subject rfl)
      (g := fun _ (r : LineUser) ↦ (if r.id = u.id then
        { r with access := .pending, rejectionReason := none } else r : LineUser))
      (fun _ r ↦ by simp only [decide_eq_true_eq]) (fun hno ↦ ?_) fun c' k r _ _ ↦ ?_
    · have := hno j u (by rwa [setRegistration, Db.mapRows_row_of_ne (by simp)])
      simp at this
    · rw [resubmit, if_pos hrej] at hdone
      change directory.Heads T since (.updateRegistration lineUserId dto) _
        (notifyAccessChange lineUserId .pending (dropThen lineUserId _)) _
      exact heads_notifyAccessChange (heads_dropThen hT (hdone _))
  · rw [if_neg hrej]
    rw [resubmit, if_neg hrej] at hdone
    change directory.Heads T since (.updateRegistration lineUserId dto) _ (dropThen lineUserId _) _
    exact heads_dropThen hT (hdone _)

/-- A call that ends with the storing of a status. -/
private theorem heads_storeStatus (hT : RedisUp T) {s : StatusResponse} {reply : Reply}
    (h : Q (.ok reply) (storeEntry d lineUserId s)) :
    directory.Heads T since op Q
      (.attempt (storeStatus lineUserId s) fun _ ↦ .done (.ok reply)) d := by
  refine ⟨solo_dropStatus fun _ ↦ ?_, fun _ _ _ hl ↦ absurd rfl (hT _ _ _ _ hl.2)⟩
  refine solo_insert schema_plain (fun c e j q hq he ↦ ?_) fun c _ ↦ h
  rw [dropEntry, Db.keepRows_row_self] at hq
  have hne : q.lineUserId ≠ lineUserId := of_decide_eq_true (Option.filter_eq_some_iff.1 hq).2
  have hnone : schema.conflict .statusCache ⟨lineUserId, s⟩ q = none :=
    if_neg fun hc ↦ hne (of_decide_eq_true hc).symm
  rw [hnone] at he
  cases he

/-- The profile is written, or there is none to write. -/
private theorem solo_syncProfile {may : ∀ q, Ans q → Prop} {since : ℤ} {F : DirectoryError → Prop}
    {G : Reply → View → Prop} (hd : Tidy d) {u : LineUser} (hu : d.row .lineUser u.id = some u)
    {profile : Option LineProfile} {k : LineUser → Tx Reply}
    (hsame : (k u).solo schema may since F G d)
    (htaken : ∀ claims, profile = some claims →
      (k (takeProfile u claims u)).solo schema may since F G
        (setUser d u.id (takeProfile u claims))) :
    (profile.elim (pure u) (syncProfile u) >>= k).solo schema may since F G d := by
  cases profile with
  | none => exact hsame
  | some claims =>
    change (syncProfile u claims >>= k).solo schema may since F G d
    by_cases hnews : news claims.displayName u.displayName = none ∧
        news claims.pictureUrl u.pictureUrl = none
    · simp only [syncProfile, if_pos hnews]
      exact hsame
    · simp only [syncProfile, if_neg hnews]
      refine solo_updateOne hd (fun c r ↦ clash_of_subject rfl)
        (g := fun _ (r : LineUser) ↦ if r.id = u.id then takeProfile u claims r else r)
        (fun _ r ↦ by simp only [decide_eq_true_eq]; rfl) (fun hno ↦ ?_) fun c i r hr hp ↦ ?_
      · have := hno u.id u hu
        simp at this
      · have hid : i = u.id := (hd.keyed i r hr).symm.trans (of_decide_eq_true hp)
        obtain rfl : r = u := Option.some.inj ((hid ▸ hr).symm.trans hu)
        exact htaken claims rfl

/-- What a status read does, served alone. -/
theorem getStatus_does (hT : RedisUp T) (hd : Tidy d) (profile : Option LineProfile) :
    directory.Heads T since (.getStatus lineUserId profile)
      (Does T d (.getStatus lineUserId profile))
      (getStatus lineUserId profile) d := by
  refine ⟨?_, fun e d' hd' hl ↦ .lost hl.1 hd' hl.2 hd'⟩
  refine solo_findFirst.2 ?_
  cases hfind : (d.all .statusCache).find? fun e ↦
      decide (StatusEntry.lineUserId e = lineUserId) with
  | some e =>
    have hmem : e ∈ d.all .statusCache := List.mem_of_find?_eq_some hfind
    obtain ⟨i, hi⟩ := Db.mem_all.1 hmem
    obtain ⟨subject, s⟩ := e
    have hp := List.find?_some hfind
    obtain rfl : subject = lineUserId := of_decide_eq_true hp
    exact .cached ⟨i, hi⟩
  | none =>
    have hno : ∀ s, ¬ Cached d lineUserId s := fun s ⟨i, hi⟩ ↦ by
      have := List.find?_eq_none.1 hfind _ (Db.mem_all.2 ⟨i, hi⟩)
      simp at this
    refine ⟨?_, fun e d' hd' hl ↦ .lost hl.1 hd' hl.2 hd'⟩
    refine solo_getOrCreateByLineUserId
      (fun hn hk d' hd' ↦ .refused (.statusGone hn hk hno) hd') fun u d₁ hu ↦ ?_
    have hd₁ := hd.found hu
    refine ⟨?_, fun e d' hd' hl ↦ .unanswered hu (.inl rfl) hl.1 hd' hl.2 hd'⟩
    refine solo_syncProfile hd₁ (hu.row hd).1 ?_ fun claims hc ↦ ?_
    · refine ⟨?_, fun e d' hd' hl ↦ .unanswered hu (.inl rfl) hl.1 hd' hl.2 hd'⟩
      exact heads_storeStatus hT (.answered hno hu (.inl ⟨rfl, rfl⟩))
    · refine ⟨?_, fun e d' hd' hl ↦ .unanswered hu (.inr ⟨claims, rfl⟩) hl.1 hd' hl.2 hd'⟩
      exact heads_storeStatus hT (.answered hno hu (.inr ⟨claims, hc, rfl, rfl⟩))

/-- What a patch of the settings does, served alone. -/
theorem patchSettings_does (hd : Tidy d) (dto : SettingsDto) :
    directory.Heads T since (.patchSettings lineUserId dto)
      (Does T d (.patchSettings lineUserId dto))
      (patchSettings lineUserId dto) d := by
  refine ⟨?_, fun e d' hd' hl ↦ .lost hl.1 hd' hl.2 hd'⟩
  refine solo_getOrCreateByLineUserId (fun hn hk d' hd' ↦ .refused (.settingsGone hn hk) hd')
    fun u d₁ hu ↦ ?_
  have hd₁ := hd.found hu
  refine ⟨solo_findFirst.2 ?_, fun e d' hd' hl ↦ .unpatched hu hl.1 hd' hl.2 hd'⟩
  refine ⟨?_, fun e d' hd' hl ↦ ?_⟩
  · have hclash : ∀ {r r' : LineUserSettings}, r'.lineUserId = r.lineUserId →
        ∀ q, clash .settings r' q = clash .settings r q := fun h q ↦ by simp [clash, h]
    have hfresh : ∀ {r new : LineUserSettings}, new.lineUserId = u.id →
        decide (r.lineUserId = u.id) = false → clash .settings new r = false := fun h hr ↦
      decide_eq_false fun hs ↦ of_decide_eq_false hr (hs.symm.trans h)
    refine solo_upsert hd₁ (fun c r ↦ hclash rfl) (fun _ _ ↦ rfl) (fun c r hr ↦ hfresh rfl hr)
      (fun hno c ↦ .patched hu (hd₁.add (fun j q hq ↦ hfresh rfl (hno j q hq)) fun i q hq ↦ ?_)
        fun τ hτ ↦ Db.add_row_of_ne hτ)
      fun c i r hr hp ↦ .patched hu (hd₁.mapRows (fun r ↦ hclash ?_) fun i q hq ↦ ?_)
        fun τ hτ ↦ Db.mapRows_row_of_ne hτ
    · rw [Db.add_row_of_ne (by simp)] at hq
      exact hd₁.keyed i q hq
    · split <;> rfl
    · rw [Db.mapRows_row_of_ne (by simp)] at hq
      exact hd₁.keyed i q hq
  · rcases loses_cases hl.1 with rfl | rfl <;> exact .unpatched hu hl.1 hd' hl.2 hd'

/-- What a decision on access does, served alone. -/
theorem updateAccess_does (hT : RedisUp T) (hd : Tidy d) (id : Cuid) (access : AppAccess)
    (actor : AdminActor) (reason : Option JsString) :
    directory.Heads T since (.updateAccess id access actor reason)
      (Does T d (.updateAccess id access actor reason))
      (updateAccess id access actor reason) d := by
  refine ⟨?_, fun e d' hd' hl ↦ .lost hl.1 hd' hl.2 hd'⟩
  have hF : ∀ e : DirectoryError, ∀ d' : View, d'.row = d.row →
      Does T d (.updateAccess id access actor reason) (.error e) d' :=
    fun e d' hd' ↦ .refused .updateAccess hd'
  refine solo_findFirst.2 (solo_require (fun _ ↦ hF _) fun u hfind ↦ ?_)
  have hmem : u ∈ d.all .lineUser := List.mem_of_find?_eq_some hfind
  obtain ⟨i, hu⟩ := Db.mem_all.1 hmem
  have hp := List.find?_some hfind
  have hid : u.id = id := of_decide_eq_true hp
  refine solo_refuse (fun _ ↦ hF _) fun hgone ↦ solo_refuse (fun _ ↦ hF _) fun hmatrix ↦
    solo_refuse (fun _ ↦ hF _) fun hrej ↦ solo_refuse (fun _ ↦ hF _) fun _ ↦ ?_
  have hmay : MaySetAccess u access actor := by
    refine ⟨fun ha ↦ ⟨?_, ?_⟩, fun ha hun ↦ hrej ⟨ha, hun⟩⟩
    · by_contra hdel
      exact hgone ⟨ha, hdel⟩
    · by_contra hno
      exact hmatrix ⟨ha, eq_false_of_ne_true hno⟩
  refine solo_updateOne hd (fun c r ↦ clash_of_subject rfl)
    (g := fun _ (r : LineUser) ↦ if r.id = id then setAccess access reason r else r)
    (fun _ r ↦ by simp only [decide_eq_true_eq, hid]) (fun hno ↦ ?_) fun c j r hr hpr ↦ ?_
  · have := hno i u hu
    simp at this
  · have hj : j = i := by
      rw [← hd.keyed j r hr, ← hd.keyed i u hu]
      exact of_decide_eq_true hpr
    obtain rfl : r = u := Option.some.inj ((hj ▸ hr).symm.trans hu)
    by_cases hdel : r.deletedAt = none
    · have hdel' : r.deletedAt.isSome = false := by rw [hdel]; rfl
      rw [hdel']
      intro applied happlied
      cases applied with
      | true => exact heads_notifyAccessChange (heads_dropThen hT (.accessSet hu hid hdel hmay))
      | false => exact .menuNotApplied hu hid hdel hmay rfl happlied
    · have hdel' : r.deletedAt.isSome = true := Option.isSome_iff_ne_none.2 hdel
      rw [hdel']
      exact .accessSetUnseen hu hid hdel hmay

/-- What an edit by staff does, served alone. -/
theorem updateRegistrationByAdmin_does (hT : RedisUp T) (hd : Tidy d) (id : Cuid)
    (dto : RegistrationDto) (actor : AdminActor) :
    directory.Heads T since (.updateRegistrationByAdmin id dto actor)
      (Does T d (.updateRegistrationByAdmin id dto actor))
      (updateRegistrationByAdmin id dto actor) d := by
  refine ⟨?_, fun e d' hd' hl ↦ .lost hl.1 hd' hl.2 hd'⟩
  have hF : ∀ e : DirectoryError, ∀ d' : View, d'.row = d.row →
      Does T d (.updateRegistrationByAdmin id dto actor) (.error e) d' :=
    fun e d' hd' ↦ .refused .updateRegistrationByAdmin hd'
  refine solo_findFirst.2 (solo_require (fun _ ↦ hF _) fun u hfind ↦ ?_)
  have hmem : u ∈ d.all .lineUser := List.mem_of_find?_eq_some hfind
  obtain ⟨i, hu⟩ := Db.mem_all.1 hmem
  have hp := List.find?_some hfind
  have hid : u.id = id := of_decide_eq_true hp
  refine solo_refuse (fun _ ↦ hF _) fun _ ↦ solo_findFirst.2 (solo_require (fun _ ↦ hF _)
    fun _ _ ↦ solo_assertActiveOptions (fun _ _ ↦ hF _) fun hdep hrole ↦ ?_)
  refine solo_updateOne hd (fun c r ↦ clash_of_owner rfl)
    (g := fun c (q : LineUserRegistration) ↦
      if q.lineUserId = id then editRegistration dto c q else q)
    (fun _ r ↦ by simp only [decide_eq_true_eq, hid]) (fun _ ↦ hF _) fun c j r hr hpr ↦ ?_
  refine ⟨solo_findFirst.2 ?_, fun e d' hd' hl ↦
    .correctedUnread hu hid hdep hrole hl.1 hd' hl.2 hd'⟩
  have hsame : (Db.all (d.mapRows .registration fun q ↦
      if q.lineUserId = id then editRegistration dto c q else q) .lineUser) = d.all .lineUser :=
    Db.all_congr fun i ↦ by rw [Db.mapRows_row_of_ne (by simp)]
  rw [hsame, hfind]
  exact heads_dropThen hT (.corrected hu hid hdep hrole)

/-- What a new option does, served alone. -/
theorem createOption_does (v : Vocabulary) (name : JsString) :
    directory.Heads T since (.createOption v name) (Does T d (.createOption v name))
      (createOption v name) d := by
  refine ⟨?_, fun e d' hd' hl ↦ ?_⟩
  · exact solo_create (fun _ _ _ _ _ _ hd' ↦ .refused .createOption hd')
      fun _ hn ↦ .optionCreated hn
  · exact .refused .createOption hd'

/-- **The services do what is listed.** -/
theorem does (hT : RedisUp T) (hd : Tidy d) {op : Op} (hop : LineOp op) :
    directory.Heads T since op (Does T d op) (service op) d := by
  cases op with
  | upsertOnFollow lineUserId profile => exact upsertOnFollow_does hT hd profile
  | softDeleteByLineUserId lineUserId => exact softDeleteByLineUserId_does hT hd
  | register lineUserId dto => exact register_does hT hd dto
  | updateRegistration lineUserId dto => exact updateRegistration_does hT hd dto
  | getStatus lineUserId profile => exact getStatus_does hT hd profile
  | patchSettings lineUserId dto => exact patchSettings_does hd dto
  | updateAccess id access actor reason => exact updateAccess_does hT hd id access actor reason
  | updateRegistrationByAdmin id dto actor =>
    exact updateRegistrationByAdmin_does hT hd id dto actor
  | createOption v name => exact createOption_does v name
  | _ => exact hop.elim

/-! ### The tables stay tidy -/

/-- Dropping a status keeps the directory tidy. -/
theorem Tidy.dropEntry (hd : Tidy d) : Tidy (dropEntry d lineUserId) := hd.keepRows

/-- So does storing one. -/
theorem Tidy.storeEntry (hd : Tidy d) {s : StatusResponse} : Tidy (storeEntry d lineUserId s) := by
  refine hd.dropEntry.add (fun j q hq ↦ decide_eq_false fun hs ↦ ?_) fun i q hq ↦ ?_
  · rw [Directory.dropEntry, Db.keepRows_row_self] at hq
    exact of_decide_eq_true (Option.filter_eq_some_iff.1 hq).2 hs.symm
  · rw [Db.add_row_of_ne (by simp)] at hq
    exact hd.dropEntry.keyed i q hq

/-- A new user is filed under its key. -/
theorem Tidy.addUser (hd : Tidy d) {u : LineUser} (hid : u.id = d.next)
    (hu : ¬ Known d u.lineUserId) : Tidy (d.add .lineUser u) := by
  refine hd.add (fun j q hq ↦ decide_eq_false fun hs ↦ hu ⟨j, q, hq, hs.symm⟩) fun i q hq ↦ ?_
  rcases Db.add_row_eq_some hq with hq' | ⟨_, rfl, hqu⟩
  · exact hd.keyed i q hq'
  · obtain rfl : q = u := hqu
    exact hid

/-- So is a registration, whatever its key. -/
theorem Tidy.enrol (hd : Tidy d) {q : LineUserRegistration}
    (hq : ¬ HasRegistration d q.lineUserId) : Tidy (enrol d q) := by
  have hadd : Tidy (d.add .registration q) := by
    refine hd.add (fun j x hx ↦ decide_eq_false fun hs ↦ hq ⟨j, x, hx, hs.symm⟩) fun i x hx ↦ ?_
    rw [Db.add_row_of_ne (by simp)] at hx
    exact hd.keyed i x hx
  exact hadd.setUser fun _ ↦ ⟨rfl, rfl⟩

/-- So does every call. -/
theorem Does.tidy (hd : Tidy d) {op : Op} {r : Except DirectoryError Reply} {d' : View}
    (h : Does T d op r d') : Tidy d' := by
  have hset : ∀ id access reason, Tidy (setUser d id (setAccess access reason)) := fun _ _ _ ↦
    hd.setUser fun _ ↦ ⟨rfl, rfl⟩
  have hedit : ∀ id dto c, Tidy (setRegistration d id (editRegistration dto c)) := fun _ _ _ ↦
    hd.setRegistration fun _ ↦ rfl
  cases h with
  | lost _ _ _ hrow => exact hd.congr hrow
  | refused _ hrow => exact hd.congr hrow
  | followed _ _ =>
    refine (hd.mapRows (fun r ↦ clash_of_subject ?_) fun i q hq ↦ ?_).dropEntry
    · split <;> rfl
    · rw [Db.mapRows_row_self] at hq
      obtain ⟨r, hr, rfl⟩ := Option.map_eq_some_iff.1 hq
      split <;> exact hd.keyed i r hr
  | joined hn => exact (hd.addUser rfl hn).dropEntry
  | stranger _ => exact hd
  | unfollowed _ =>
    refine (hd.setUser fun r ↦ ?_).dropEntry
    split <;> exact ⟨rfl, rfl⟩
  | registered hu _ _ _ hn => exact ((hd.found hu).enrol hn).dropEntry
  | edited _ _ _ _ _ =>
    refine Tidy.dropEntry ?_
    unfold resubmit
    split
    · exact (hedit _ _ _).setUser fun _ ↦ ⟨rfl, rfl⟩
    · exact hedit _ _ _
  | cached _ => exact hd
  | answered _ hu h =>
    refine Tidy.storeEntry ?_
    rcases h with ⟨rfl, _⟩ | ⟨claims, _, rfl, _⟩
    · exact hd.found hu
    · exact (hd.found hu).setUser fun _ ↦ ⟨rfl, rfl⟩
  | unanswered hu h _ _ _ hrow =>
    refine Tidy.congr ?_ hrow
    rcases h with rfl | ⟨claims, rfl⟩
    · exact hd.found hu
    · exact (hd.found hu).setUser fun _ ↦ ⟨rfl, rfl⟩
  | patched _ hd' _ => exact hd'
  | unpatched hu _ _ _ hrow => exact (hd.found hu).congr hrow
  | accessSetUnseen _ _ _ _ => exact hset _ _ _
  | menuNotApplied _ _ _ _ _ _ => exact hset _ _ _
  | accessSet _ _ _ _ => exact (hset _ _ _).dropEntry
  | corrected _ _ _ _ => exact (hedit _ _ _).dropEntry
  | correctedUnread _ _ _ _ _ _ _ hrow => exact (hedit _ _ _).congr hrow
  | optionCreated hn =>
    refine hd.add hn fun i q hq ↦ ?_
    rw [Db.add_row_of_ne (by simp)] at hq
    exact hd.keyed i q hq

end Does

/-! ### Serial runs -/

/-- **Serial runs of the calls about LINE users**: what every call that is listed preserves holds
between calls. -/
theorem serial_invariant {T : DirectoryTerms} (hT : RedisUp T)
    (hcall : ∀ d op, T.call d op → LineOp op) {J : View → Prop}
    (hinit : J (Store.init Row).committed)
    (hdoes : ∀ d op r d', Tidy d → J d → T.call d op → Does T d op r d' → J d')
    {w : DirectoryWorld} (h : directory.Serial T w) :
    w.Quiet ∧ Tidy w.store.committed ∧ J w.store.committed := by
  refine h.invariant (J := fun d ↦ Tidy d ∧ J d) ⟨.init, hinit⟩ fun _ d op ⟨hd, hJ⟩ hc ↦ ?_
  exact Session.serves_mono (fun r d' hr ↦ ⟨hr.tidy hd, hdoes d op r d' hd hJ hc hr⟩)
    (does hT hd (hcall d op hc))

/-- What a call that is made between two others ends with. -/
theorem served_does {T : DirectoryTerms} (hT : RedisUp T) {w₀ w : DirectoryWorld}
    (hq : w₀.Quiet) (hd : Tidy w₀.store.committed) {t : ℕ} {op : Op} (hop : LineOp op)
    {cur : Option (Tx Reply)} (h : directory.Serving T t op w₀ cur w)
    {r : Except DirectoryError Reply} (hr : w.result t = some r) :
    w.Quiet ∧ Does T w₀.store.committed op r w.store.committed :=
  h.sound hq (does hT hd hop) hr

/-- Any of the calls, any answer, and any transaction lost that is not sent to Redis. -/
def lineCalls : DirectoryTerms where
  call _ op := LineOp op
  may _ _ _ _ := True
  lose _ _ p _ := ¬ ToRedis p

instance (d : View) (op : Op) : Decidable (lineCalls.call d op) :=
  inferInstanceAs (Decidable (LineOp op))

instance (op : Op) (d : View) (q : Ask) (a : Ans q) : Decidable (lineCalls.may op d q a) :=
  .isTrue trivial

/-- Redis is reachable in these runs. -/
theorem redisUp_lineCalls : RedisUp lineCalls := fun _ _ _ _ h ↦ h

/-- Nothing is lost, and any answer may come. -/
def undisturbed : DirectoryTerms := ⟨fun _ _ ↦ True, fun _ _ _ _ ↦ True, fun _ _ _ _ ↦ False⟩

instance (op : Op) (d : View) (q : Ask) (a : Ans q) : Decidable (undisturbed.may op d q a) :=
  .isTrue trivial

/-- So it is in these. -/
theorem redisUp_undisturbed : RedisUp undisturbed := fun _ _ _ _ h ↦ h.elim

/-- Made in `w`, the call comes to an end whatever LINE answers, and ends well. -/
def Succeeds (w : DirectoryWorld) (t : ℕ) (op : Op) : Prop :=
  (∃ cur w' r, directory.Serving undisturbed t op w cur w' ∧ w'.result t = some r) ∧
    ∀ cur w' r, directory.Serving undisturbed t op w cur w' → w'.result t = some r →
      ∃ reply, r = .ok reply

/-- A call succeeds if nothing is listed that it would fail with. -/
theorem succeeds_of_does {w : DirectoryWorld} (hq : w.Quiet) (hd : Tidy w.store.committed) {t : ℕ}
    (ht : w.phase t = .idle) {op : Op} (hop : LineOp op)
    (h : ∀ e d', ¬ Does undisturbed w.store.committed op (.error e) d') : Succeeds w t op := by
  refine ⟨System.exists_served Sample.oracle hq ht fun _ _ ↦ trivial,
    fun cur w' r hsv hr ↦ ?_⟩
  have hdoes := (served_does redisUp_undisturbed hq hd hop hsv hr).2
  cases r with
  | error e => exact absurd hdoes (h e _)
  | ok reply => exact ⟨reply, rfl⟩

/-- Between calls the tables are tidy. -/
theorem serial_tidy {w : DirectoryWorld} (h : directory.Serial lineCalls w) :
    w.Quiet ∧ Tidy w.store.committed := by
  obtain ⟨hq, hd, _⟩ := serial_invariant redisUp_lineCalls (fun _ _ h ↦ h) (J := fun _ ↦ True)
    trivial (fun _ _ _ _ _ _ _ _ ↦ trivial) h
  exact ⟨hq, hd⟩

/-! ### Sample runs -/

/-- The world after the calls have been made one after the other, if `T` allows them. -/
def served (T : DirectoryTerms) [∀ d op, Decidable (T.call d op)]
    [∀ op d q a, Decidable (T.may op d q a)] (calls : List (Op × ∀ q, Ans q)) : DirectoryWorld :=
  (directory.serveAll T 40 0 calls World.init).getD World.init

/-- Serving calls one after the other is a serial run. -/
theorem serial_served (T : DirectoryTerms) [∀ d op, Decidable (T.call d op)]
    [∀ op d q a, Decidable (T.may op d q a)] (calls : List (Op × ∀ q, Ans q)) :
    directory.Serial T (served T calls) := by
  unfold served
  rcases h : directory.serveAll T 40 0 calls World.init with - | w
  · exact .init
  · exact System.Serial.serveAll .init h

/-- The session has not been called. -/
def isIdle (w : DirectoryWorld) (t : ℕ) : Bool :=
  match w.phase t with
  | .idle => true
  | _ => false

/-- The check of an idle phase, read as an equation. -/
theorem phase_of_isIdle {w : DirectoryWorld} {t : ℕ} (h : isIdle w t = true) :
    w.phase t = .idle := by
  unfold isIdle at h
  split at h
  · assumption
  · cases h

/-- The call, made by session `t` in `w`, ends with the error. -/
def endsWith (w : DirectoryWorld) (t : ℕ) (op : Op) (e : DirectoryError) : Bool :=
  ((directory.step (.call t op) w).bind
    (directory.serve undisturbed t op Sample.oracle 40)).any fun w' ↦
      match w'.result t with
      | some (.error e') => decide (e' = e)
      | _ => false

/-- The check of a served call's error, read as what it says. -/
theorem serving_of_endsWith {w : DirectoryWorld} {t : ℕ} {op : Op} {e : DirectoryError}
    (h : endsWith w t op e = true) :
    ∃ cur w', directory.Serving undisturbed t op w cur w' ∧ w'.result t = some (.error e) := by
  obtain ⟨w', hw', hp⟩ := (Option.any_eq_true _ _).1 h
  obtain ⟨w₁, hs, hsv⟩ := Option.bind_eq_some_iff.1 hw'
  obtain ⟨cur, r, hsv, _⟩ := System.Serving.serve (.call hs) hsv
  split at hp
  · next e' hr =>
    obtain rfl := of_decide_eq_true hp
    exact ⟨cur, w', hsv, hr⟩
  · cases hp

namespace Sample

/-- Calls whose questions are all answered with success. -/
def calls (ops : List Op) : List (Op × ∀ q, Ans q) := ops.map fun op ↦ (op, oracle)

end Sample

end EasyBook.Directory

import EasyBook.Machine.World
import EasyBook.Storage.PhotoObjects
import EasyBook.Storage.Sweep

/-!
# Re-homing among interleaved calls

The calls of the photo services and any number of sweeps, interleaved request by request. A row
comes to name a staged object by a set that a `create` or an `update` commits (`stagedRow_of_does`),
and re-homing takes it off again: `moves_of_path` says of a call that is over, and whose requests to
the bucket and the database were met, that it has repointed the rows of its set.
-/

namespace EasyBook.Storage

open JsString Machine Machine.Task

/-! ### The system -/

/-- The calls and the sweeps. -/
inductive StorageOp where
  | call (call : PhotoCall)
  | sweep (options : SweepOptions) (fuel : ℕ)

/-- How they end. -/
abbrev StorageResult : Type := PhotoResult ⊕ SweepOutcome

/-- The services behind them. -/
def StorageOp.task (base : JsString) : StorageOp → PhotoTask StorageResult
  | call c => do
    let r ← c.task base
    .done (.inl r)
  | sweep options fuel => do
    let r ← sweepStagedPhotos options fuel
    .done (.inr r)

/-- Nothing but the calls acts on the state. -/
def storage (base : JsString) :
    Actions PhotoState PhotoQuery PhotoAnswer StorageResult StorageOp where
  task := StorageOp.task base
  does := PhotoDoes
  env s s' := s' = s

/-- A state of the system. -/
abbrev StorageWorld : Type := World PhotoState PhotoQuery PhotoAnswer StorageResult StorageOp

/-- An event of the system. -/
abbrev StorageEvent : Type := Event PhotoQuery PhotoAnswer StorageOp

/-! ### The sets that calls commit -/

/-- A set of photos that a call has committed, and whether the call was told. -/
structure VenueSet where
  call : ℕ
  photos : List VenuePhoto
  acknowledged : Bool

/-- The set of the venue `id` after an exchange of the call `t`. -/
def setAfter (id : Cuid) (t : ℕ) (before : Option VenueSet) : PhotoExchange → Option VenueSet
  | ⟨.createVenue _, .committed v photos⟩ => if v = id then some ⟨t, photos, true⟩ else before
  | ⟨.createVenue _, .lost v photos⟩ => if v = id then some ⟨t, photos, false⟩ else before
  | ⟨.updateVenue _ _, .committed v photos⟩ => if v = id then some ⟨t, photos, true⟩ else before
  | ⟨.updateVenue _ _, .lost v photos⟩ => if v = id then some ⟨t, photos, false⟩ else before
  | ⟨.deleteVenue v, out⟩ => if v = id ∧ Outcome.made out = true then none else before
  | _ => before

/-- The set that was committed last for the venue, unless the venue has been deleted since. -/
def lastSet (id : Cuid) : List StorageEvent → Option VenueSet
  | [] => none
  | .exchange t e :: log => setAfter id t (lastSet id log) e
  | _ :: log => lastSet id log

/-! ### Rows on staged objects -/

variable {base : JsString}

/-- The operation commits sets of photos. -/
def StorageOp.writesSets : StorageOp → Bool
  | call (.create _) | call (.update _ _) => true
  | _ => false

/-- What the requests of an operation keep to: the sweep deletes staged objects only, rows are not
repointed to staged objects, and only some operations commit sets of photos. -/
def Allowed (base : JsString) (writesSets : Bool) : PhotoQuery → Prop
  | .createVenue _ | .updateVenue _ _ => writesSets = true
  | .deleteObjects keys => ∀ key ∈ keys, isStagedVenuePhotoKey key = true
  | .repoint moves => ∀ m ∈ moves, ∀ key, isStagedVenuePhotoKey key = true →
      m.2 ≠ publicUrlFor base key
  | _ => True

/-- What the answers keep to: only the folder is listed. -/
def Listed : ∀ q, PhotoAnswer q → Prop
  | .listObjects _, page => ∀ p ∈ (page : Option Page), ∀ object ∈ p.contents,
      ∀ key ∈ object.key, isStagedVenuePhotoKey key = true
  | _, _ => True

/-- The exchange repoints the row. -/
def Moves (p : VenuePhoto) (e : PhotoExchange) : Prop :=
  ∃ moves, ∃ out : Outcome, e = ⟨.repoint moves, out⟩ ∧ out.made = true ∧
    p.id ∈ moves.map (·.1)

/-- Where a row of the venue `id` comes from that names a staged object after an exchange: it was
there before, or the exchange has committed it. -/
inductive StagedRow (s : PhotoState) (id : Cuid) (venue : Venue) (p : VenuePhoto)
    (e : PhotoExchange) : Prop where
  | kept (old : Venue) (hold : s.active id = some old) (hp : p ∈ old.photos)
      (hset : ∀ t before, setAfter id t before e = before) (hmoves : ¬ Moves p e)
  | committed (acknowledged : Bool)
      (hset : ∀ t before, setAfter id t before e = some ⟨t, venue.photos, acknowledged⟩)

variable {s s' : PhotoState} {id : Cuid} {venue : Venue} {p : VenuePhoto} {key : JsString}

/-- An exchange that is none of those that write rows. -/
theorem StagedRow.of_venues_eq {e : PhotoExchange} (hs : s'.venues = s.venues)
    (hvenue : s'.active id = some venue) (hp : p ∈ venue.photos)
    (hset : ∀ t before, setAfter id t before e = before) (hmoves : ¬ Moves p e) :
    StagedRow s id venue p e := by
  rw [PhotoState.active, hs] at hvenue
  exact .kept venue hvenue hp hset hmoves

/-- A venue that gets a set. -/
theorem StagedRow.of_setVenue {e : PhotoExchange} {v : Cuid} {new : Venue} (acknowledged : Bool)
    (hvenue : (s.setVenue v new).active id = some venue) (hp : p ∈ venue.photos)
    (hset : ∀ t before, setAfter id t before e =
      if v = id then some ⟨t, new.photos, acknowledged⟩ else before)
    (hmoves : ¬ Moves p e) : StagedRow s id venue p e := by
  by_cases hid : v = id
  · subst hid
    simp only [PhotoState.active, PhotoState.setVenue, Function.update_self] at hvenue
    obtain rfl := Option.some.inj (Option.filter_eq_some_iff.1 hvenue).1
    exact .committed acknowledged fun t before ↦ by rw [hset, if_pos rfl]
  · rw [active_setVenue_of_ne (Ne.symm hid)] at hvenue
    exact .kept venue hvenue hp (fun t before ↦ by rw [hset, if_neg hid]) hmoves

/-- No row comes to name a staged object but by a set that is committed. -/
theorem stagedRow_of_does {writesSets : Bool} {q : PhotoQuery} {a : PhotoAnswer q}
    (hq : Allowed base writesSets q)
    (hd : PhotoDoes s q a s') (hvenue : s'.active id = some venue) (hp : p ∈ venue.photos)
    (hstaged : isStagedVenuePhotoKey key = true) (hurl : p.url = publicUrlFor base key) :
    StagedRow s id venue p ⟨q, a⟩ := by
  have hother : (∀ moves, q ≠ .repoint moves) → ¬ Moves p ⟨q, a⟩ := by
    rintro hne ⟨moves, out, he, -⟩
    exact hne moves (congrArg Sigma.fst he)
  cases hd with
  | randomHex | now | listObjects | findVenue | findPhotos | findPhotoByUrl | createRefused
  | updateRefused | putImage | copyObject | deleteObject | deleteObjects =>
    exact .of_venues_eq rfl hvenue hp (fun _ _ ↦ rfl) (hother (by simp))
  | createVenue urls v rows acknowledged =>
    refine .of_setVenue acknowledged hvenue hp (fun t before ↦ ?_)
      (hother (by simp))
    cases acknowledged <;> rfl
  | updateVenue v urls old rows acknowledged =>
    refine .of_setVenue acknowledged hvenue hp (fun t before ↦ ?_)
      (hother (by simp))
    cases acknowledged <;> rfl
  | deleteVenue v old out =>
    cases hmade : out.made with
    | false =>
      simp only [hmade, Bool.false_eq_true, if_false] at hvenue
      refine .kept venue hvenue hp (fun _ _ ↦ if_neg ?_) (hother (by simp))
      simp [hmade]
    | true =>
      simp only [hmade, if_true] at hvenue
      have hid : id ≠ v := by
        rintro rfl
        simp only [PhotoState.active, PhotoState.setVenue, Function.update_self,
          Option.filter_some] at hvenue
        cases hvenue
      rw [active_setVenue_of_ne hid] at hvenue
      exact .kept venue hvenue hp (fun _ _ ↦ if_neg fun h ↦ hid h.1.symm) (hother (by simp))
  | repoint moves out =>
    cases hmade : out.made with
    | false =>
      simp only [hmade, Bool.false_eq_true, if_false] at hvenue
      refine .kept venue hvenue hp (fun _ _ ↦ rfl) ?_
      rintro ⟨moves', out', he, hmade', -⟩
      cases he
      rw [hmade] at hmade'
      cases hmade'
    | true =>
      simp only [hmade, if_true] at hvenue
      obtain ⟨old, hold, hphotos⟩ := active_of_repoint rfl hvenue
      rw [hphotos] at hp
      obtain ⟨p', hp', hid, hmoved | ⟨hsame, hstay⟩⟩ := url_of_repoint hp
      · exact absurd hurl (hq _ hmoved key hstaged)
      · obtain rfl : p = p' := VenuePhoto.ext hid hsame
        refine .kept old hold hp' (fun _ _ ↦ rfl) ?_
        rintro ⟨moves', out', he, -, hmem⟩
        cases he
        obtain ⟨m, hm, hmid⟩ := List.mem_map.1 hmem
        exact hstay m.2 (hmid ▸ hm)

/-! ### The requests of the services -/

variable {writesSets : Bool} {K : ∀ q, PhotoAnswer q → Prop}

theorem asks_rehomePhotos (id : Cuid) (photos : List VenuePhoto) :
    (rehomePhotos base id photos).Asks (Allowed base writesSets) K fun _ ↦ True :=
  have hfresh : (send (.findPhotos id)).Asks (Allowed base writesSets) K fun _ ↦ True :=
    ⟨trivial, fun _ _ ↦ trivial⟩
  PhotoRequests.asks_rehomePhotos (fun _ _ ↦ trivial) (fun _ ↦ trivial) (fun _ hmoves ↦ hmoves)
    hfresh id photos photos

theorem asks_call (c : PhotoCall) :
    (c.task base).Asks (Allowed base (StorageOp.call c).writesSets) K fun _ ↦ True := by
  cases c with
  | upload file =>
    rw [PhotoCall.task, uploadPhoto]
    split
    · trivial
    · split
      · trivial
      · refine .request_bind trivial fun hex _ ↦ .request_bind trivial fun out _ ↦ ?_
        split <;> trivial
  | discard url =>
    rw [PhotoCall.task, discard]
    split
    · trivial
    · split
      · trivial
      · refine .request_bind trivial fun found _ ↦ ?_
        split
        · trivial
        · exact ⟨trivial, fun _ _ ↦ trivial⟩
  | create photoUrls =>
    rw [PhotoCall.task, createVenue]
    split
    · refine .request_bind rfl fun commit _ ↦ ?_
      split
      · exact (asks_rehomePhotos _ _).bind fun _ _ ↦ trivial
      · trivial
    · trivial
  | update id photoUrls =>
    -- What an update does once its transaction has answered.
    have hafter : ∀ before commit, (afterUpdate base before (photoUrls.map (·.urls)) commit).Asks
        (Allowed base true) K fun _ ↦ True := by
      intro before commit
      cases commit with
      | refused | lost => trivial
      | committed v photos =>
        have hdrop : (dropObjects base before (photoUrls.map (·.urls))).Asks (Allowed base true) K
            fun _ ↦ True := by
          cases photoUrls with
          | none => trivial
          | some photoUrls => exact PhotoRequests.asks_deleteObjectsFor (fun _ ↦ trivial) _
        exact hdrop.bind fun _ _ ↦ (asks_rehomePhotos v photos).bind fun _ _ ↦ trivial
    rw [PhotoCall.task, updateVenue]
    split
    · refine .request_bind trivial fun found _ ↦ ?_
      split
      · cases photoUrls with
        | none => exact ⟨rfl, fun commit _ ↦ hafter _ commit⟩
        | some photoUrls => exact ⟨trivial, fun _ _ ↦ ⟨rfl, fun commit _ ↦ hafter _ commit⟩⟩
      · trivial
    · trivial
  | softDelete id =>
    rw [PhotoCall.task, softDelete]
    refine .request_bind trivial fun found _ ↦ ?_
    split
    · refine .request_bind trivial fun out _ ↦ ?_
      split <;> trivial
    · trivial

/-- The sweep submits what it has listed. -/
def StagedKeys (m : List (JsString × ℕ)) : Prop :=
  ∀ key ∈ m.map (·.1), isStagedVenuePhotoKey key = true

theorem StagedKeys.collect {m : List (JsString × ℕ)} (hm : StagedKeys m) {cutoff : ℤ}
    {objects : List ListedObject}
    (h : ∀ object ∈ objects, ∀ key ∈ object.key, isStagedVenuePhotoKey key = true) :
    StagedKeys (collect cutoff m objects) := by
  intro key hkey
  rw [collect_eq, mem_keys_mapSetAll] at hkey
  rcases hkey with hkey | hkey
  · exact hm key hkey
  · obtain ⟨⟨k, size⟩, hentry, rfl⟩ := List.mem_map.1 hkey
    obtain ⟨object, hobject, he⟩ := List.mem_filterMap.1 hentry
    exact h object hobject _ (eligibleEntry_eq_some.1 he).1

theorem asks_listStaged {cutoff : ℤ} (fuel : ℕ) {token : Option JsString} {n : ℕ}
    {m : List (JsString × ℕ)} (hm : StagedKeys m) :
    (listStaged cutoff fuel token n m).Asks (Allowed base writesSets) Listed
      fun r ↦ ∀ x, r = some (some x) → StagedKeys x.2 := by
  induction fuel generalizing token n m with
  | zero => exact nofun
  | succ fuel ih =>
    refine .request_bind trivial fun page hpage ↦ ?_
    cases page with
    | none => exact nofun
    | some page =>
      have hm' : StagedKeys (collect cutoff m page.contents) := hm.collect (hpage page rfl)
      dsimp only
      split
      · rintro x hx
        obtain rfl := Option.some.inj (Option.some.inj hx)
        exact hm'
      · exact ih hm'

theorem asks_deleteBatches {eligible : List (JsString × ℕ)} {batches : List (List JsString)}
    (hb : ∀ batch ∈ batches, ∀ key ∈ batch, isStagedVenuePhotoKey key = true) {counts : ℕ × ℕ} :
    (deleteBatches eligible batches counts).Asks (Allowed base writesSets) Listed fun _ ↦ True := by
  induction batches generalizing counts with
  | nil => trivial
  | cons batch batches ih =>
    refine .request_bind (hb batch List.mem_cons_self) fun report _ ↦ ?_
    cases report with
    | none => trivial
    | some report => exact ih fun b hmem ↦ hb b (List.mem_cons_of_mem _ hmem)

theorem asks_sweep (options : SweepOptions) (fuel : ℕ) :
    (sweepStagedPhotos options fuel).Asks (Allowed base writesSets) Listed fun _ ↦ True := by
  refine .request_bind trivial fun now _ ↦ ?_
  refine (asks_listStaged fuel (fun _ h ↦ (List.not_mem_nil h).elim)).bind fun r hr ↦ ?_
  rcases r with _ | _ | ⟨scannedCount, eligible⟩
  · trivial
  · trivial
  · change Asks _ _ _ (sweepEligible _ scannedCount eligible)
    unfold sweepEligible
    split
    · trivial
    · refine (asks_deleteBatches fun batch hbatch key hkey ↦ ?_).bind fun counts _ ↦ ?_
      · exact hr _ rfl key (subset_of_mem_slices hbatch hkey)
      · cases counts <;> trivial

theorem asks_task (op : StorageOp) :
    (op.task base).Asks (Allowed base op.writesSets) Listed fun _ ↦ True := by
  cases op with
  | call c => exact (asks_call c).bind fun _ _ ↦ trivial
  | sweep options fuel => exact (asks_sweep options fuel).bind fun _ _ ↦ trivial

theorem listed_of_does {q : PhotoQuery} {a : PhotoAnswer q} (hd : PhotoDoes s q a s') :
    Listed q a := by
  cases hd with
  | listObjects _ _ h => exact h
  | _ => trivial

/-! ### The course of a call -/

/-- If a list has one element that meets `P`, it splits there in one way. -/
theorem eq_of_append_cons {α : Type} {P : α → Prop} {l l' r r' : List α} {a b : α}
    (h : l ++ a :: r = l' ++ b :: r') (hb : P b) (hl : ∀ x ∈ l, ¬ P x) (hr : ∀ x ∈ r, ¬ P x) :
    a = b ∧ r = r' := by
  induction l generalizing l' with
  | nil =>
    cases l' with
    | nil => exact ⟨(List.cons.inj h).1, (List.cons.inj h).2⟩
    | cons x l' =>
      have hmem : b ∈ r := (List.cons.inj h).2 ▸ List.mem_append_right _ List.mem_cons_self
      exact absurd hb (hr b hmem)
  | cons x l ih =>
    cases l' with
    | nil => exact absurd ((List.cons.inj h).1 ▸ hb) (hl x List.mem_cons_self)
    | cons y l' => exact ih (List.cons.inj h).2 fun z hz ↦ hl z (List.mem_cons_of_mem _ hz)

/-- A photo whose object is copied whenever this is asked for is among the moves. -/
theorem mem_of_path_moveStaged {v : Cuid} {photos : List VenuePhoto} {h : List PhotoExchange}
    {moves : List (Cuid × JsString)}
    (hpath : Path (photoRequests.moveStaged base v photos) h (.done moves))
    (hp : p ∈ photos) (hstaged : isStagedVenuePhotoKey key = true)
    (hurl : p.url = publicUrlFor base key)
    (hcopied : ∀ target out, ⟨.copyObject key target, out⟩ ∈ h → out = Outcome.done) :
    p.id ∈ moves.map (·.1) := by
  induction photos generalizing h moves with
  | nil => exact absurd hp List.not_mem_nil
  | cons photo photos ih =>
    rw [PhotoRequests.moveStaged] at hpath
    split at hpath
    · next hown =>
      rcases List.mem_cons.1 hp with rfl | hp
      · rw [ownKey_eq_some.2 ⟨hurl, hstaged⟩] at hown
        cases hown
      · exact ih hpath hp hcopied
    · next own hown =>
      obtain ⟨hphoto, -⟩ := ownKey_eq_some.1 hown
      obtain ⟨out, h₁, rfl, hcopy⟩ := path_send_done.1 hpath
      by_cases hout : out = .done
      · rw [if_pos (decide_eq_true hout)] at hcopy
        obtain ⟨out', h₂, rfl, hdelete⟩ := path_send_done.1 hcopy
        obtain ⟨h₃, h₄, moves', rfl, hmoves, hdone⟩ := path_bind_done.1 hdelete
        obtain ⟨rfl, hend⟩ := path_done.1 hdone
        obtain rfl := Task.done.inj hend
        rcases List.mem_cons.1 hp with rfl | hp
        · exact List.mem_cons_self
        · refine List.mem_cons_of_mem _ (ih hmoves hp fun target out hmem ↦ ?_)
          exact hcopied target out
            (List.mem_cons_of_mem _ (List.mem_cons_of_mem _ (List.mem_append_left _ hmem)))
      · rw [if_neg (by simpa using hout)] at hcopy
        rcases List.mem_cons.1 hp with rfl | hp
        · obtain rfl := publicUrlFor_inj.1 (hphoto.symm.trans hurl)
          exact absurd (hcopied _ out List.mem_cons_self) hout
        · exact ih hcopy hp fun target out hmem ↦
            hcopied target out (List.mem_cons_of_mem _ hmem)

/-- A photo whose object is copied and whose row is repointed whenever this is asked for has been
repointed when re-homing is over. -/
theorem moves_of_path_rehomePhotos (hbase : base ≠ []) {v : Cuid} {photos r : List VenuePhoto}
    {h : List PhotoExchange} (hpath : Path (rehomePhotos base v photos) h (.done r))
    (hp : p ∈ photos) (hstaged : isStagedVenuePhotoKey key = true)
    (hurl : p.url = publicUrlFor base key)
    (hcopied : ∀ target out, ⟨.copyObject key target, out⟩ ∈ h → out = Outcome.done)
    (hrepointed : Repoints h) : ∃ e ∈ h, Moves p e := by
  rw [rehomePhotos, PhotoRequests.rehomePhotos, if_neg hbase] at hpath
  obtain ⟨h₁, h₂, moves, rfl, hmoves, hpath⟩ := path_bind_done.1 hpath
  have hmem := mem_of_path_moveStaged hmoves hp hstaged hurl fun target out hmem ↦
    hcopied target out (List.mem_append_left _ hmem)
  split at hpath
  · next hnil =>
    rw [hnil] at hmem
    cases hmem
  · obtain ⟨out, h₃, rfl, -⟩ := path_send_done.1 hpath
    have hsent : (⟨.repoint moves, out⟩ : PhotoExchange) ∈ h₁ ++ ⟨.repoint moves, out⟩ :: h₃ :=
      List.mem_append_right _ List.mem_cons_self
    exact ⟨_, hsent, moves, out, rfl, hrepointed moves out hsent, hmem⟩

/-- The exchange commits the set of the venue `id`, and the call is told. -/
def CommitsSet (id : Cuid) (photos : List VenuePhoto) (e : PhotoExchange) : Prop :=
  ∀ t before, setAfter id t before e = some ⟨t, photos, true⟩

theorem CommitsSet.exchange_eq {id : Cuid} {photos : List VenuePhoto} {e : PhotoExchange}
    (h : CommitsSet id photos e) : (∃ urls, e = ⟨.createVenue urls, .committed id photos⟩) ∨
      ∃ v urls, e = ⟨.updateVenue v urls, .committed id photos⟩ := by
  have hnone := h 0 none
  obtain ⟨q, a⟩ := e
  cases q with
  | createVenue urls =>
    cases a with
    | refused => cases hnone
    | lost v rows =>
      simp only [setAfter] at hnone
      split at hnone <;> cases hnone
    | committed v rows =>
      simp only [setAfter] at hnone
      split at hnone
      · next hv =>
        cases hnone
        exact .inl ⟨urls, hv ▸ rfl⟩
      · cases hnone
  | updateVenue v' urls =>
    cases a with
    | refused => cases hnone
    | lost v rows =>
      simp only [setAfter] at hnone
      split at hnone <;> cases hnone
    | committed v rows =>
      simp only [setAfter] at hnone
      split at hnone
      · next hv =>
        cases hnone
        exact .inr ⟨v', urls, hv ▸ rfl⟩
      · cases hnone
  | deleteVenue v =>
    simp only [setAfter] at hnone
    split at hnone <;> cases hnone
  | _ => cases hnone

/-- Only an operation that commits sets may do so. -/
theorem CommitsSet.not_allowed {id : Cuid} {photos : List VenuePhoto} {e : PhotoExchange}
    (h : CommitsSet id photos e) : ¬ Allowed base false e.1 := by
  obtain ⟨urls, rfl⟩ | ⟨v, urls, rfl⟩ := h.exchange_eq <;> exact Bool.false_ne_true

/-- What `create` and `update` do once their set is committed commits no other set. -/
theorem commitsSet_of_path {q : PhotoQuery} {a : PhotoAnswer q} {rest : PhotoTask PhotoResult}
    (pre : List PhotoExchange) {h before after : List PhotoExchange} {e : PhotoExchange}
    {r : PhotoResult} (hpath : Path rest h (.done r)) (hasks : rest.Asks (Allowed base false)
      (fun _ _ ↦ True) fun _ ↦ True) (hpre : ∀ x ∈ pre, Allowed base false x.1)
    (heq : pre ++ ⟨q, a⟩ :: h = before ++ e :: after) {id : Cuid} {photos : List VenuePhoto}
    (he : CommitsSet id photos e) : e = ⟨q, a⟩ ∧ after = h := by
  obtain ⟨rfl, rfl⟩ := eq_of_append_cons (P := fun x : PhotoExchange ↦ ¬ Allowed base false x.1)
    heq he.not_allowed (fun x hx ↦ not_not.2 (hpre x hx))
    fun x hx ↦ not_not.2 (hasks.of_path hpath x hx)
  exact ⟨rfl, rfl⟩

/-- A `create` that is over has re-homed the photos of the set that it was told of. -/
theorem rehomes_of_create {photoUrls : PhotoUrls} {h before after : List PhotoExchange}
    {e : PhotoExchange} {r : PhotoResult}
    (hpath : Path (createVenue base photoUrls) h (.done r)) (heq : h = before ++ e :: after)
    {id : Cuid} {photos : List VenuePhoto} (he : CommitsSet id photos e) :
    ∃ hrehome rows, (∀ x ∈ hrehome, x ∈ after) ∧
      Path (rehomePhotos base id photos) hrehome (.done rows) := by
  unfold createVenue at hpath
  split at hpath
  · obtain ⟨commit, h', rfl, hrest⟩ := path_send_done.1 hpath
    cases commit with
    | refused | lost v rows =>
      have hpre : ∀ x ∈ ([] : List PhotoExchange), Allowed base false x.1 := by simp
      obtain ⟨rfl, -⟩ := commitsSet_of_path _ hrest trivial hpre heq he
      obtain ⟨urls, hq⟩ | ⟨v, urls, hq⟩ := he.exchange_eq <;> cases hq
    | committed v rows =>
      obtain ⟨rfl, rfl⟩ := commitsSet_of_path [] hrest
        ((asks_rehomePhotos v rows).bind fun _ _ ↦ trivial) (by simp) heq he
      obtain ⟨urls, hq⟩ | ⟨v, urls, hq⟩ := he.exchange_eq
      · cases hq
        obtain ⟨h₁, h₂, rows', rfl, hrehome, -⟩ := path_bind_done.1 hrest
        exact ⟨h₁, rows', fun x hx ↦ List.mem_append_left _ hx, hrehome⟩
      · cases hq
  · obtain ⟨rfl, -⟩ := path_done.1 hpath
    simp at heq

/-- So has an `update`. -/
theorem rehomes_of_update {v : Cuid} {photoUrls : Option PhotoUrls}
    {h before after : List PhotoExchange} {e : PhotoExchange} {r : PhotoResult}
    (hpath : Path (updateVenue base v photoUrls) h (.done r)) (heq : h = before ++ e :: after)
    {id : Cuid} {photos : List VenuePhoto} (he : CommitsSet id photos e) :
    ∃ hrehome rows, (∀ x ∈ hrehome, x ∈ after) ∧
      Path (rehomePhotos base id photos) hrehome (.done rows) := by
  -- whatever came before the transaction, its answer decides what comes after
  have hafter : ∀ pre commit h' photosBefore,
      h = pre ++ ⟨.updateVenue v (photoUrls.map (·.urls)), commit⟩ :: h' →
      (∀ x ∈ pre, Allowed base false x.1) →
      Path (afterUpdate base photosBefore (photoUrls.map (·.urls)) commit) h' (.done r) →
        ∃ hrehome rows, (∀ x ∈ hrehome, x ∈ after) ∧
          Path (rehomePhotos base id photos) hrehome (.done rows) := by
    intro pre commit h' photosBefore hh hpre hrest
    cases commit with
    | refused | lost v rows =>
      obtain ⟨rfl, -⟩ := commitsSet_of_path _ hrest trivial hpre (hh.symm.trans heq) he
      obtain ⟨urls, hq⟩ | ⟨v, urls, hq⟩ := he.exchange_eq <;> cases hq
    | committed v rows =>
      have hdrop : (dropObjects base photosBefore (photoUrls.map (·.urls))).Asks
          (Allowed base false) (fun _ _ ↦ True) fun _ ↦ True := by
        cases photoUrls with
        | none => trivial
        | some photoUrls => exact PhotoRequests.asks_deleteObjectsFor (fun _ ↦ trivial) _
      obtain ⟨rfl, rfl⟩ := commitsSet_of_path _ hrest
        (hdrop.bind fun _ _ ↦ (asks_rehomePhotos v rows).bind fun _ _ ↦ trivial) hpre
        (hh.symm.trans heq) he
      obtain ⟨urls, hq⟩ | ⟨v, urls, hq⟩ := he.exchange_eq
      · cases hq
      · cases hq
        obtain ⟨h₁, h₂, _, rfl, -, hrest⟩ := path_bind_done.1 hrest
        obtain ⟨h₃, h₄, rows', rfl, hrehome, -⟩ := path_bind_done.1 hrest
        exact ⟨h₃, rows', fun x hx ↦ List.mem_append_right _ (List.mem_append_left _ hx), hrehome⟩
  unfold updateVenue at hpath
  dsimp only at hpath
  split at hpath
  · obtain ⟨found, h₁, rfl, hfound⟩ := path_send_done.1 hpath
    split at hfound
    · cases photoUrls with
      | none =>
        obtain ⟨commit, h₂, rfl, hrest⟩ := path_send_done.1 hfound
        exact hafter [_] commit h₂ [] rfl (by simp [Allowed]) hrest
      | some photoUrls =>
        obtain ⟨photosBefore, h₂, rfl, hupdate⟩ := path_send_done.1 hfound
        obtain ⟨commit, h₃, rfl, hrest⟩ := path_send_done.1 hupdate
        exact hafter [_, _] commit h₃ photosBefore rfl (by simp [Allowed]) hrest
    · obtain ⟨rfl, -⟩ := path_done.1 hfound
      have hmem : e ∈ [(⟨.findVenue v, found⟩ : PhotoExchange)] :=
        heq ▸ List.mem_append_right _ List.mem_cons_self
      obtain rfl := List.mem_singleton.1 hmem
      obtain ⟨urls, hq⟩ | ⟨v, urls, hq⟩ := he.exchange_eq <;> cases hq
  · obtain ⟨rfl, -⟩ := path_done.1 hpath
    simp at heq

/-- A call that is over has repointed the row of a photo that its last set names on a staged object,
if it ran its course. -/
theorem moves_of_path (hbase : base ≠ []) {op : StorageOp} (hop : op.writesSets = true)
    {before after : List PhotoExchange} {e : PhotoExchange} {r : StorageResult}
    (hpath : Path (op.task base) (before ++ e :: after) (.done r)) {photos : List VenuePhoto}
    (he : CommitsSet id photos e) (hp : p ∈ photos) (hstaged : isStagedVenuePhotoKey key = true)
    (hurl : p.url = publicUrlFor base key)
    (hcopied : ∀ target out, ⟨.copyObject key target, out⟩ ∈ before ++ e :: after →
      out = Outcome.done) (hrepointed : Repoints (before ++ e :: after)) :
    ∃ x ∈ after, Moves p x := by
  have hrehome : ∃ hrehome rows, (∀ x ∈ hrehome, x ∈ after) ∧
      Path (rehomePhotos base id photos) hrehome (.done rows) := by
    cases op with
    | sweep => cases hop
    | call c =>
      obtain ⟨h₁, h₂, result, heq, hcall, hdone⟩ := path_bind_done.1 hpath
      obtain ⟨rfl, -⟩ := path_done.1 hdone
      rw [List.append_nil] at heq
      cases c with
      | create photoUrls => exact rehomes_of_create hcall heq.symm he
      | update v photoUrls => exact rehomes_of_update hcall heq.symm he
      | upload | discard | softDelete => cases hop
  obtain ⟨h, rows, hsub, hrehome⟩ := hrehome
  have hmem : ∀ x ∈ h, x ∈ before ++ e :: after := fun x hx ↦
    List.mem_append_right _ (List.mem_cons_of_mem _ (hsub x hx))
  obtain ⟨x, hx, hmoves⟩ := moves_of_path_rehomePhotos hbase hrehome hp hstaged hurl
    (fun target out hx ↦ hcopied target out (hmem _ hx))
    fun moves out hx ↦ hrepointed moves out (hmem _ hx)
  exact ⟨x, hsub x hx, hmoves⟩

end EasyBook.Storage

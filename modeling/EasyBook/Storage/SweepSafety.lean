import EasyBook.Storage.Rehoming

/-!
# What the sweep deletes

A sweep looks at nothing but the folder and the age of its objects, so it may delete an object that
a row names as long as the row has not been taken off it. That the row will be is up to the call
that has committed it: `storage_safe` says that the sweep deletes abandoned objects only, if it
submits the keys of a set once the call of the set has run its course (`SweepsSettled`).
-/

namespace EasyBook.Storage

open JsString Machine Machine.Task

/-! ### Sweeps that wait for the calls -/

/-- The call has run its course: it was told of the set, the bucket has copied the object of the key
and the database has repointed the rows whenever they were asked to, and the call is over. -/
structure RanItsCourse (set : VenueSet) (key : JsString)
    (th : Thread PhotoQuery PhotoAnswer StorageResult StorageOp) : Prop where
  acknowledged : set.acknowledged = true
  copied : ∀ target out, ⟨.copyObject key target, out⟩ ∈ th.history → out = Outcome.done
  repointed : Repoints th.history
  ended : ∃ r, th.rest = .done r

/-- A sweep submits a key only when the calls have run their course that have committed, as the last
ones for their venues, sets that name it. -/
def SweepsSettled (base : JsString) (w : StorageWorld) : StorageEvent → Prop
  | .exchange _ ⟨.deleteObjects keys, _⟩ =>
    ∀ key ∈ keys, ∀ id set, lastSet id w.log = some set →
      (∃ p ∈ set.photos, p.url = publicUrlFor base key) →
        ∀ th, w.threads set.call = some th → RanItsCourse set key th
  | _ => True

/-! ### Safety -/

variable {base : JsString} {id : Cuid} {p : VenuePhoto} {key : JsString} {bucket : Bucket}
  {C : StorageWorld → StorageEvent → Prop} {w w' : StorageWorld} {t : ℕ}
  {th : Thread PhotoQuery PhotoAnswer StorageResult StorageOp}

/-- Every request is one that the services keep to. -/
theorem allowed_of_reach (hw : Reach (storage base) C (.init (.init bucket)) w)
    {op : StorageOp} {h : List PhotoExchange} {q : PhotoQuery}
    {k : PhotoAnswer q → PhotoTask StorageResult}
    (ht : w.threads t = some ⟨op, h, .ask q k⟩) : Allowed base op.writesSets q :=
  (hw.asks (P := fun op ↦ Allowed base op.writesSets) (K := Listed) asks_task
    (fun _ _ _ _ hd ↦ listed_of_does hd) ht).1

/-- So is every request that has been answered. -/
theorem allowed_of_history (hw : Reach (storage base) C (.init (.init bucket)) w)
    (ht : w.threads t = some th) : ∀ e ∈ th.history, Allowed base th.op.writesSets e.1 :=
  hw.asked (P := fun op ↦ Allowed base op.writesSets) (K := Listed) asks_task
    (fun _ _ _ _ hd ↦ listed_of_does hd) ht

/-- The call has committed the set of the photo, and has not repointed the row since. -/
def Unmoved (id : Cuid) (p : VenuePhoto) (set : VenueSet)
    (th : Thread PhotoQuery PhotoAnswer StorageResult StorageOp) : Prop :=
  ∃ before e after, th.history = before ++ e :: after ∧
    (∀ t old, setAfter id t old e = some ⟨t, set.photos, set.acknowledged⟩) ∧
    ∀ x ∈ after, ¬ Moves p x

/-- Rows that name staged objects belong to the last set of their venue, and the call that has
committed it has not repointed them. -/
def StagedByCalls (base : JsString) (w : StorageWorld) : Prop :=
  ∀ id venue, w.state.active id = some venue → ∀ p ∈ venue.photos, ∀ key,
    isStagedVenuePhotoKey key = true → p.url = publicUrlFor base key →
      ∃ set th, lastSet id w.log = some set ∧ p ∈ set.photos ∧
        w.threads set.call = some th ∧ Unmoved id p set th

/-- An exchange keeps this of a row that it leaves as it is. -/
theorem Unmoved.snoc {id : Cuid} {p : VenuePhoto} {set : VenueSet} {op : StorageOp}
    {h : List PhotoExchange} {rest rest' : PhotoTask StorageResult} {e : PhotoExchange}
    (hu : Unmoved id p set ⟨op, h, rest⟩) (he : ¬ Moves p e) :
    Unmoved id p set ⟨op, h ++ [e], rest'⟩ := by
  obtain ⟨before, c, after, rfl, hset, hafter⟩ := hu
  refine ⟨before, c, after ++ [e], by simp, hset, fun x hx ↦ ?_⟩
  rcases List.mem_append.1 hx with hx | hx
  · exact hafter x hx
  · exact List.mem_singleton.1 hx ▸ he

/-- One request and its answer. -/
theorem StagedByCalls.exchange (hI : StagedByCalls base w) {op : StorageOp}
    {h : List PhotoExchange} {q : PhotoQuery} {k : PhotoAnswer q → PhotoTask StorageResult}
    {a : PhotoAnswer q} {s : PhotoState} (ht : w.threads t = some ⟨op, h, .ask q k⟩)
    (hq : Allowed base op.writesSets q) (hd : PhotoDoes w.state q a s) :
    StagedByCalls base ⟨s, Function.update w.threads t (some ⟨op, h ++ [⟨q, a⟩], k a⟩),
      .exchange t ⟨q, a⟩ :: w.log⟩ := by
  intro id venue hvenue p hp key hstaged hurl
  cases stagedRow_of_does hq hd hvenue hp hstaged hurl with
  | kept old hold hp' hset hmoves =>
    obtain ⟨set, th, hlast, hmem, hth, hu⟩ := hI id old hold p hp' key hstaged hurl
    have hlast' : lastSet id (.exchange t ⟨q, a⟩ :: w.log) = some set := (hset t _).trans hlast
    by_cases hcall : set.call = t
    · obtain rfl := Option.some.inj (ht.symm.trans (hcall ▸ hth))
      refine ⟨set, ⟨op, h ++ [⟨q, a⟩], k a⟩, hlast', hmem, ?_, hu.snoc hmoves⟩
      rw [hcall]
      exact Function.update_self ..
    · exact ⟨set, th, hlast', hmem, (Function.update_of_ne hcall ..).trans hth, hu⟩
  | committed acknowledged hset =>
    exact ⟨⟨t, venue.photos, acknowledged⟩, _, hset t _, hp, Function.update_self ..,
      h, _, [], rfl, hset, fun _ hx ↦ (List.not_mem_nil hx).elim⟩

/-- In every run, rows that name staged objects wait for the call that has committed them. -/
theorem stagedByCalls_of_reach (hw : Reach (storage base) C (.init (.init bucket)) w) :
    StagedByCalls base w := by
  induction hw with
  | init => exact fun _ _ hvenue ↦ by cases hvenue
  | step hw _ h ih =>
    cases h with
    | @start t op hfree =>
      intro id venue hvenue p hp key hstaged hurl
      obtain ⟨set, th, hlast, hmem, hth, hu⟩ := ih id venue hvenue p hp key hstaged hurl
      refine ⟨set, th, hlast, hmem, (Function.update_of_ne ?_ ..).trans hth, hu⟩
      rintro rfl
      rw [hfree] at hth
      cases hth
    | exchange ht hd => exact ih.exchange ht (allowed_of_reach hw ht) hd
    | environment hs =>
      cases hs
      exact ih

/-- The call of a set has not run its course as long as a row of the set names a staged object. -/
theorem not_ranItsCourse (hbase : base ≠ [])
    (hw : Reach (storage base) C (.init (.init bucket)) w) {set : VenueSet}
    (ht : w.threads t = some th) (hu : Unmoved id p set th) (hp : p ∈ set.photos)
    (hstaged : isStagedVenuePhotoKey key = true) (hurl : p.url = publicUrlFor base key) :
    ¬ RanItsCourse set key th := by
  intro hran
  obtain ⟨before, e, after, hhistory, hset, hafter⟩ := hu
  have he : CommitsSet id set.photos e := fun t old ↦ by rw [hset, hran.acknowledged]
  have hop : th.op.writesSets = true := by
    by_contra hop
    have hmem : e ∈ th.history := by
      rw [hhistory]
      exact List.mem_append_right _ List.mem_cons_self
    have hallowed : Allowed base false e.1 :=
      Bool.eq_false_iff.2 hop ▸ allowed_of_history hw ht e hmem
    exact he.not_allowed hallowed
  obtain ⟨r, hr⟩ := hran.ended
  have hpath : Path (th.op.task base) th.history th.rest := hw.path ht
  rw [hhistory, hr] at hpath
  obtain ⟨x, hx, hmoves⟩ := moves_of_path hbase hop hpath he hp hstaged hurl
    (hhistory ▸ hran.copied) (hhistory ▸ hran.repointed)
  exact hafter x hx hmoves

/-- An object that the event deletes is named by no venue that is not deleted. -/
def DeletesAbandoned (base : JsString) (w : StorageWorld) (w' : StorageWorld) :
    StorageEvent → Prop
  | .exchange _ ⟨.deleteObjects _, _⟩ => ∀ key, w.state.bucket key = true →
      w'.state.bucket key = false → ∀ id venue, w.state.active id = some venue →
        ∀ p ∈ venue.photos, p.url ≠ publicUrlFor base key
  | _ => True

theorem deletesAbandoned_of_settled (hbase : base ≠ [])
    (hw : Reach (storage base) C (.init (.init bucket)) w) {e : StorageEvent}
    (hC : SweepsSettled base w e) (h : Step (storage base) w e w') :
    DeletesAbandoned base w w' e := by
  cases h with
  | start => trivial
  | environment => trivial
  | @exchange t op hist q k a s ht hd =>
    cases hd with
    | deleteObjects keys b hb =>
      intro key hkey hgone id venue hvenue p hp hurl
      by_cases hmem : key ∈ keys
      · have hstaged := allowed_of_reach hw ht key hmem
        obtain ⟨set, th, hlast, hp', hth, hu⟩ :=
          stagedByCalls_of_reach hw id venue hvenue p hp key hstaged hurl
        exact not_ranItsCourse hbase hw hth hu hp' hstaged hurl
          (hC key hmem id set hlast ⟨p, hp', hurl⟩ th hth)
      · have hstill : b key = false := hgone
        rw [hb key hmem, hkey] at hstill
        cases hstill
    | _ => trivial

/-- A sweep that is over has returned what it counted, or has run out of fuel. -/
structure SweepDone (options : SweepOptions) (fuel : ℕ) (h : List PhotoExchange)
    (rest : PhotoTask StorageResult) : Prop where
  swept : ∀ r, rest = .done (.inr (some (.ok r))) →
    ∃ now, h.head? = some ⟨.now, now⟩ ∧ Swept options now h r
  exhausted : rest = .done (.inr none) →
    (listings h).length = fuel ∧ ∀ x ∈ listings h, x.2.next ≠ none

theorem sweepDone_of_path {options : SweepOptions} {fuel : ℕ} {h : List PhotoExchange}
    {rest : PhotoTask StorageResult}
    (hp : Path (StorageOp.task base (.sweep options fuel)) h rest) :
    SweepDone options fuel h rest := by
  have hend : ∀ r, rest = .done (.inr r) → Path (sweepStagedPhotos options fuel) h (.done r) := by
    rintro r rfl
    obtain ⟨h₁, h₂, b, rfl, hsweep, hdone⟩ := path_bind_done.1 hp
    obtain ⟨rfl, hb⟩ := path_done.1 hdone
    cases hb
    rwa [List.append_nil]
  exact ⟨fun r hr ↦ sweep_counts (hend _ hr), fun hr ↦ sweep_ends (hend _ hr)⟩

private def sweptBase : JsString := lit "https://cdn.example.com"

private def sweptHex : JsString := lit "0123456789abcdef0123456789abcdef"

private def sweptKey : JsString := buildVenuePhotoKey sweptHex .png

private def sweptUpload : PhotoCall :=
  .upload ⟨some .png, [0x89, 0x50, 0x4e, 0x47, 0x0d, 0x0a, 0x1a, 0x0a]⟩

private theorem runs_sweptUpload :
    Runs (storage sweptBase).does (.init fun _ ↦ false)
      ((storage sweptBase).task (.call sweptUpload))
      [⟨.randomHex, sweptHex⟩, ⟨.putImage sweptKey, .done⟩]
      (.inl (.ok (.url (publicUrlFor sweptBase sweptKey))))
      (.init (Bucket.put (fun _ ↦ false) sweptKey)) :=
  .ask (.randomHex _ sweptHex) (.ask (.putImage _ _ .done) (.refl _ _))

/-- Two days later. -/
private def sweptNow : ℤ := 2 * 24 * 60 * 60 * 1000

private def sweptPage : Page := ⟨[⟨some sweptKey, some 0, some 8⟩], false, none⟩

/-- What is left of the sweep when it has listed the folder. -/
private def sweptRest : PhotoTask StorageResult := do
  let r ← sweepEligible false 1 [(sweptKey, 8)]
  .done (.inr r)

/-- It submits the photo. -/
private theorem sweptRest_eq : ∃ k, sweptRest = .ask (.deleteObjects [sweptKey]) k := by
  have hbatches : slices deleteBatchLimit ([(sweptKey, 8)].map (·.1)) = [[sweptKey]] := rfl
  unfold sweptRest sweepEligible
  rw [if_neg (by decide), hbatches]
  exact ⟨_, rfl⟩

/-- The sweep lists the photo, two days after it was uploaded. -/
private theorem steps_sweptListing (s : PhotoState) :
    Steps (storage sweptBase).does s ((storage sweptBase).task (.sweep ⟨none, none⟩ 1))
      [⟨.now, sweptNow⟩, ⟨.listObjects none, some sweptPage⟩] sweptRest s := by
  refine .ask (.now _ sweptNow) (.ask (.listObjects _ none (some sweptPage) ?_) (.refl _ _))
  intro page hpage object hobject key hkey
  obtain rfl := Option.some.inj hpage
  obtain rfl := List.mem_singleton.1 hobject
  obtain rfl := Option.some.inj hkey
  decide

/-- The bucket deletes the photo, and reports it. -/
private theorem step_sweptDelete {s : PhotoState} {threads : ℕ → Option
    (Thread PhotoQuery PhotoAnswer StorageResult StorageOp)} {log : List StorageEvent} {t : ℕ}
    {op : StorageOp} {h : List PhotoExchange}
    {k : PhotoAnswer (.deleteObjects [sweptKey]) → PhotoTask StorageResult}
    (ht : threads t = some ⟨op, h, .ask (.deleteObjects [sweptKey]) k⟩) :
    Step (storage sweptBase) ⟨s, threads, log⟩
      (.exchange t ⟨.deleteObjects [sweptKey], some ⟨[some sweptKey], 0⟩⟩)
      ⟨{ s with bucket := s.bucket.delete sweptKey }, Function.update threads t (some ⟨op,
        h ++ [⟨.deleteObjects [sweptKey], some ⟨[some sweptKey], 0⟩⟩],
        k (some ⟨[some sweptKey], 0⟩)⟩),
        .exchange t ⟨.deleteObjects [sweptKey], some ⟨[some sweptKey], 0⟩⟩ :: log⟩ := by
  refine .exchange ht (.deleteObjects s [sweptKey] _ (fun key hkey ↦ ?_) _ fun r hr ↦ ?_)
  · exact Bucket.delete_of_ne fun he ↦ hkey (he ▸ List.mem_cons_self)
  · obtain rfl := Option.some.inj hr
    exact fun key hkey ↦ hkey

/-! ### A photo that is re-homed, and one that is swept away -/

private def sweptPhotos : PhotoUrls where
  urls := [publicUrlFor sweptBase sweptKey]
  arrayMaxSize := by decide
  arrayUnique := by decide

private def sweptVenue : Venue := ⟨false, [⟨1, publicUrlFor sweptBase sweptKey⟩]⟩

/-- The photo has been uploaded, and a venue created with it. -/
private def sweptState : PhotoState :=
  (PhotoState.init (Bucket.put (fun _ ↦ false) sweptKey)).setVenue 7 sweptVenue

private theorem ownKey_swept :
    ownKey sweptBase venuePhotoStagingPrefix (publicUrlFor sweptBase sweptKey) = some sweptKey :=
  ownKey_eq_some.2 ⟨rfl, by decide⟩

private theorem exists_swept : sweptState.bucket sweptKey = true := by
  change Bucket.put (fun _ ↦ false) sweptKey sweptKey = true
  exact Bucket.put_self

private def sweptTarget : JsString := venuePhotoKeyFor 7 sweptKey

private def sweptMoves : List (Cuid × JsString) := [(1, publicUrlFor sweptBase sweptTarget)]

/-- What the create exchanges if the bucket copies the photo, but fails to delete it. -/
private def rehomedHistory : List PhotoExchange :=
  [⟨.createVenue sweptPhotos.urls, .committed 7 sweptVenue.photos⟩,
    ⟨.copyObject sweptKey sweptTarget, .done⟩, ⟨.deleteObject sweptKey, .failed⟩,
    ⟨.repoint sweptMoves, .done⟩, ⟨.findPhotos 7, [⟨1, publicUrlFor sweptBase sweptTarget⟩]⟩]

private def rehomedState : PhotoState :=
  PhotoState.repoint { sweptState with bucket := sweptState.bucket.put sweptTarget } sweptMoves

private theorem runs_rehomedCreate :
    Runs (storage sweptBase).does (.init (Bucket.put (fun _ ↦ false) sweptKey))
      ((storage sweptBase).task (.call (.create sweptPhotos))) rehomedHistory
      (.inl (.ok (.photos [⟨1, publicUrlFor sweptBase sweptTarget⟩]))) rehomedState := by
  have hmove : Runs PhotoDoes sweptState (photoRequests.moveStaged sweptBase 7 sweptVenue.photos)
      [⟨.copyObject sweptKey sweptTarget, .done⟩, ⟨.deleteObject sweptKey, .failed⟩] sweptMoves
      { sweptState with bucket := sweptState.bucket.put sweptTarget } := by
    rw [sweptVenue, PhotoRequests.moveStaged, ownKey_swept]
    exact .ask (.copyObject _ _ _ .done fun _ ↦ exists_swept)
      (.ask (.deleteObject _ _ .failed) (.refl _ _))
  have hrehome : Runs PhotoDoes sweptState (rehomePhotos sweptBase 7 sweptVenue.photos)
      rehomedHistory.tail [⟨1, publicUrlFor sweptBase sweptTarget⟩] rehomedState := by
    rw [rehomePhotos, PhotoRequests.rehomePhotos, if_neg (by decide)]
    exact hmove.bind (.ask (.repoint _ _ .done) (.ask (.findPhotos _ 7) (.refl _ _)))
  have hcreate : Runs PhotoDoes (.init (Bucket.put (fun _ ↦ false) sweptKey))
      (PhotoCall.task sweptBase (.create sweptPhotos)) rehomedHistory
      (.ok (.photos [⟨1, publicUrlFor sweptBase sweptTarget⟩])) rehomedState := by
    rw [PhotoCall.task, createVenue, if_pos (by decide)]
    refine .ask (.createVenue _ _ 7 sweptVenue.photos true rfl rfl) ?_
    exact hrehome.bind (f := fun rows ↦ .done (.ok (.photos rows) : PhotoResult)) (.refl _ _)
  exact hcreate.bind (f := fun r ↦ .done (.inl r : StorageResult)) (.refl _ _)

private theorem ranItsCourse_rehomed (key : JsString) :
    RanItsCourse ⟨1, sweptVenue.photos, true⟩ key ⟨.call (.create sweptPhotos), rehomedHistory,
      .done (.inl (.ok (.photos [⟨1, publicUrlFor sweptBase sweptTarget⟩])))⟩ where
  acknowledged := rfl
  copied target out h := by
    simp only [rehomedHistory, List.mem_cons, List.not_mem_nil, or_false] at h
    rcases h with h | h | h | h | h <;> cases h
    rfl
  repointed moves out h := by
    simp only [rehomedHistory, List.mem_cons, List.not_mem_nil, or_false] at h
    rcases h with h | h | h | h | h <;> cases h
    rfl
  ended := ⟨_, rfl⟩

/-- The bucket fails to copy the photo to the folder of its venue. -/
private theorem runs_sweptCreate :
    Runs (storage sweptBase).does (.init (Bucket.put (fun _ ↦ false) sweptKey))
      ((storage sweptBase).task (.call (.create sweptPhotos)))
      [⟨.createVenue sweptPhotos.urls, .committed 7 sweptVenue.photos⟩,
        ⟨.copyObject sweptKey sweptTarget, .failed⟩]
      (.inl (.ok (.photos sweptVenue.photos))) sweptState := by
  have hrehome : Runs PhotoDoes sweptState (rehomePhotos sweptBase 7 sweptVenue.photos)
      [⟨.copyObject sweptKey sweptTarget, .failed⟩] sweptVenue.photos
      sweptState := by
    rw [rehomePhotos, PhotoRequests.rehomePhotos, if_neg (by decide), sweptVenue,
      PhotoRequests.moveStaged, ownKey_swept]
    exact .ask (.copyObject _ _ _ .failed (by rintro ⟨⟩)) (.refl _ _)
  have hcreate : Runs PhotoDoes (.init (Bucket.put (fun _ ↦ false) sweptKey))
      (PhotoCall.task sweptBase (.create sweptPhotos))
      [⟨.createVenue sweptPhotos.urls, .committed 7 sweptVenue.photos⟩,
        ⟨.copyObject sweptKey sweptTarget, .failed⟩]
      (.ok (.photos sweptVenue.photos)) sweptState := by
    rw [PhotoCall.task, createVenue, if_pos (by decide)]
    refine .ask (.createVenue _ _ 7 sweptVenue.photos true rfl rfl) ?_
    exact hrehome.bind (f := fun rows ↦ .done (.ok (.photos rows) : PhotoResult)) (.refl _ _)
  exact hcreate.bind (f := fun r ↦ .done (.inl r : StorageResult)) (.refl _ _)

end EasyBook.Storage

import EasyBook.Storage.VenuePhotos

/-!
# The objects behind the photos of venues

Calls one after the other, with every pattern of failures. `Sound` says that the rows of venues name
objects, and `sound_of_careful` that a call keeps this unless it deletes an object that another
venue names, or a staged object whose row is then not repointed.
-/

namespace EasyBook.Storage

open JsString Machine Task

variable (base : JsString)

/-! ### Sound states -/

/-- The URL names an object. -/
def PhotoState.Exists (s : PhotoState) (url : JsString) : Prop :=
  ∃ key, url = publicUrlFor base key ∧ s.bucket key = true

/-- Every photo of a venue that is not deleted names an object. -/
def PhotosExist (s : PhotoState) : Prop :=
  ∀ id venue, s.active id = some venue → ∀ p ∈ venue.photos, s.Exists base p.url

/-- The photos exist, and no two of a venue name the same staged object. -/
structure Sound (s : PhotoState) : Prop where
  photosExist : PhotosExist base s
  distinct : ∀ id venue, s.active id = some venue → ∀ p ∈ venue.photos, ∀ p' ∈ venue.photos,
    ∀ key, isStagedVenuePhotoKey key = true → p.url = publicUrlFor base key →
      p'.url = publicUrlFor base key → p.id = p'.id

/-! ### Calls -/

/-- The bucket deletes the object of the key. -/
def Deletes (h : List PhotoExchange) (key : JsString) : Prop :=
  ∃ out : Outcome, ⟨.deleteObject key, out⟩ ∈ h ∧ out.made = true

/-- The database repoints the rows whose objects were moved. -/
def Repoints (h : List PhotoExchange) : Prop :=
  ∀ moves (out : Outcome), ⟨.repoint moves, out⟩ ∈ h → out.made = true

/-- The call names photos, and all of them exist. -/
def Admissible (s : PhotoState) : PhotoCall → Prop
  | .create photoUrls => ∀ url ∈ photoUrls.urls, s.Exists base url
  | .update _ (some photoUrls) => ∀ url ∈ photoUrls.urls, s.Exists base url
  | _ => True

/-- No other venue than `id` names the URL. -/
def Alone (s : PhotoState) (id : Option Cuid) (url : JsString) : Prop :=
  ∀ v venue, id ≠ some v → s.active v = some venue → ∀ p ∈ venue.photos, p.url ≠ url

/-- When the bucket deletes an object that a call drops or moves, no other venue names it, and if
it was moved then the database repoints its row. -/
def CarefulCall (s : PhotoState) (call : PhotoCall) (h : List PhotoExchange) : Prop :=
  let moves (id : Option Cuid) (key : JsString) :=
    isStagedVenuePhotoKey key = true → Alone s id (publicUrlFor base key) ∧ Repoints h
  ∀ key, Deletes h key → match call with
    | .create photoUrls => publicUrlFor base key ∈ photoUrls.urls → moves none key
    | .update id (some photoUrls) =>
      if publicUrlFor base key ∈ photoUrls.urls then moves (some id) key
      else Alone s (some id) (publicUrlFor base key)
    | .update id none => moves (some id) key
    | _ => True

variable {base} {s : PhotoState} {v : Cuid}

theorem Deletes.append_left {h h' : List PhotoExchange} {key : JsString} (hd : Deletes h key) :
    Deletes (h ++ h') key :=
  let ⟨out, hmem, hmade⟩ := hd
  ⟨out, List.mem_append_left _ hmem, hmade⟩

theorem Deletes.append_right {h h' : List PhotoExchange} {key : JsString} (hd : Deletes h' key) :
    Deletes (h ++ h') key :=
  let ⟨out, hmem, hmade⟩ := hd
  ⟨out, List.mem_append_right _ hmem, hmade⟩

/-- A request to delete an object deletes no other. -/
theorem kept_of_deleteObject {b : Bucket} {key : JsString} (h : b key = true) (own : JsString)
    (out : Outcome) : b.deleteIf own out.made key = true ∨ key = own ∧ out.made = true := by
  by_cases hkey : key = own
  · cases hmade : out.made
    · exact .inl h
    · exact .inr ⟨hkey, rfl⟩
  · exact .inl (by rw [Bucket.deleteIf_of_ne hkey, h])

/-- Only objects of the URLs are deleted. -/
theorem wp_deleteObjectsFor (urls : List JsString) :
    (photoRequests.deleteObjectsFor base urls).wp PhotoDoes (fun h _ s' ↦ s'.venues = s.venues ∧
      ∀ key, s.bucket key = true → s'.bucket key = true ∨
        publicUrlFor base key ∈ urls ∧ Deletes h key) s := by
  induction urls generalizing s with
  | nil => exact ⟨rfl, fun _ hkey ↦ .inl hkey⟩
  | cons url urls ih =>
    rw [PhotoRequests.deleteObjectsFor]
    split
    · exact ⟨rfl, fun _ hkey ↦ .inl hkey⟩
    · split
      · refine wp_mono ih fun h _ s' hpost ↦ ⟨hpost.1, fun key hkey ↦ ?_⟩
        exact (hpost.2 key hkey).imp id fun hd ↦ ⟨List.mem_cons_of_mem _ hd.1, hd.2⟩
      · next own hown =>
        obtain ⟨rfl, -⟩ := ownKey_eq_some.1 hown
        intro out s₁ hd
        cases hd with
        | deleteObject =>
          refine wp_mono ih fun h _ s' hpost ↦ ⟨hpost.1, fun key hkey ↦ ?_⟩
          rcases kept_of_deleteObject hkey own out with hkept | ⟨rfl, hmade⟩
          · exact (hpost.2 key hkept).imp id fun hd ↦
              ⟨List.mem_cons_of_mem _ hd.1, Deletes.append_right (h := [_]) hd.2⟩
          · exact .inr ⟨List.mem_cons_self, out, List.mem_cons_self, hmade⟩

/-- The objects that the moves leave behind: those of the targets, and all others but the ones
that were moved. -/
structure Moved (base : JsString) (s : PhotoState) (id : Cuid) (photos : List VenuePhoto)
    (h : List PhotoExchange) (moves : List (Cuid × JsString)) (s' : PhotoState) : Prop where
  venues_eq : s'.venues = s.venues
  target : ∀ m ∈ moves, ∃ key, m.2 = publicUrlFor base (venuePhotoKeyFor id key) ∧
    s'.bucket (venuePhotoKeyFor id key) = true
  kept : ∀ key, s.bucket key = true → s'.bucket key = true ∨
    isStagedVenuePhotoKey key = true ∧ Deletes h key ∧
      ∃ p ∈ photos, p.url = publicUrlFor base key ∧ ∃ url, (p.id, url) ∈ moves

namespace Moved

variable {photos : List VenuePhoto} {h : List PhotoExchange} {moves : List (Cuid × JsString)}
  {s₁ s' : PhotoState}

/-- A photo that stays where it is. -/
theorem skip (hm : Moved base s₁ v photos h moves s') (photo : VenuePhoto)
    (hvenues : s₁.venues = s.venues) (hbucket : ∀ key, s.bucket key = true → s₁.bucket key = true)
    (before : List PhotoExchange) :
    Moved base s v (photo :: photos) (before ++ h) moves s' where
  venues_eq := hm.venues_eq.trans hvenues
  target := hm.target
  kept key hkey := (hm.kept key (hbucket key hkey)).imp id fun ⟨hstaged, hd, p, hp, hmoved⟩ ↦
    ⟨hstaged, hd.append_right, p, List.mem_cons_of_mem _ hp, hmoved⟩

/-- A photo that is moved. -/
theorem move (hm : Moved base s₁ v photos h moves s') {photo : VenuePhoto} {own : JsString}
    (hvenues : s₁.venues = s.venues) (hurl : photo.url = publicUrlFor base own)
    (htarget : s₁.bucket (venuePhotoKeyFor v own) = true) (before : List PhotoExchange)
    (hbucket : ∀ key, s.bucket key = true → s₁.bucket key = true ∨
      key = own ∧ isStagedVenuePhotoKey key = true ∧ Deletes before key) :
    Moved base s v (photo :: photos) (before ++ h)
      ((photo.id, publicUrlFor base (venuePhotoKeyFor v own)) :: moves) s' where
  venues_eq := hm.venues_eq.trans hvenues
  target m hmem := by
    rcases List.mem_cons.1 hmem with rfl | hmem
    · refine ⟨own, rfl, (hm.kept _ htarget).resolve_right fun hstaged ↦ ?_⟩
      exact absurd hstaged.1 (by simp [not_staged_venuePhotoKeyFor])
    · exact hm.target m hmem
  kept key hkey := by
    rcases hbucket key hkey with hkept | ⟨rfl, hstaged, hd⟩
    · refine (hm.kept key hkept).imp id fun ⟨hstaged, hd, p, hp, hurl, url, hmoved⟩ ↦ ?_
      exact ⟨hstaged, hd.append_right, p, List.mem_cons_of_mem _ hp, hurl, url,
        List.mem_cons_of_mem _ hmoved⟩
    · exact .inr ⟨hstaged, hd.append_left, photo, List.mem_cons_self, hurl, _, List.mem_cons_self⟩

end Moved

theorem wp_moveStaged (photos : List VenuePhoto) :
    (photoRequests.moveStaged base v photos).wp PhotoDoes (Moved base s v photos) s := by
  induction photos generalizing s with
  | nil => exact ⟨rfl, fun _ h ↦ (List.not_mem_nil h).elim, fun _ h ↦ .inl h⟩
  | cons photo photos ih =>
    rw [PhotoRequests.moveStaged]
    split
    · exact wp_mono ih fun h moves s' hm ↦ hm.skip photo rfl (fun _ hkey ↦ hkey) []
    · next own hown =>
      obtain ⟨hurl, hstaged⟩ := ownKey_eq_some.1 hown
      refine wp_send fun out s₁ hd ↦ ?_
      cases hd with
      | copyObject _ _ _ hcopy =>
        have hput : ∀ key, s.bucket key = true →
            (if out.made then s.bucket.put (venuePhotoKeyFor v own) else s.bucket) key = true := by
          intro key hkey
          split
          · exact Bucket.put_of_mem hkey
          · exact hkey
        split
        · next hout =>
          obtain rfl := of_decide_eq_true hout
          refine wp_send fun out' s₂ hd' ↦ ?_
          cases hd' with
          | deleteObject =>
            refine wp_bind (wp_mono ih fun h moves s' hm ↦ ?_)
            have hne : venuePhotoKeyFor v own ≠ own := by
              intro he
              have hnot := not_staged_venuePhotoKeyFor v own
              rw [he, isStagedVenuePhotoKey, hstaged] at hnot
              cases hnot
            rw [Task.wp_done, List.append_nil]
            let before : List PhotoExchange :=
              [⟨.copyObject own (venuePhotoKeyFor v own), .done⟩, ⟨.deleteObject own, out'⟩]
            refine hm.move (s := s) rfl hurl ?_ before fun key hkey ↦ ?_
            · exact (Bucket.deleteIf_of_ne hne).trans Bucket.put_self
            · refine (kept_of_deleteObject (hput key hkey) own out').imp_right fun hgone ↦ ?_
              obtain ⟨hkey', hmade⟩ := hgone
              exact ⟨hkey', hkey' ▸ hstaged, out',
                List.mem_cons_of_mem _ (hkey' ▸ List.mem_cons_self), hmade⟩
        · exact wp_mono ih fun h moves s' hm ↦ hm.skip (s := s) photo rfl hput [⟨_, out⟩]

/-- What re-homing leaves behind: the rows name the objects that were moved, if the database has
repointed them. -/
structure Rehomed (base : JsString) (s : PhotoState) (v : Cuid) (photos : List VenuePhoto)
    (h : List PhotoExchange) (moves : List (Cuid × JsString)) (s' : PhotoState) : Prop where
  venues_eq : s'.venues = (s.repoint moves).venues
  target : ∀ m ∈ moves, ∃ key, m.2 = publicUrlFor base (venuePhotoKeyFor v key) ∧
    s'.bucket (venuePhotoKeyFor v key) = true
  kept : ∀ key, s.bucket key = true → s'.bucket key = true ∨
    isStagedVenuePhotoKey key = true ∧ Deletes h key ∧
      ∃ p ∈ photos, p.url = publicUrlFor base key ∧ (Repoints h → ∃ url, (p.id, url) ∈ moves)

/-- The moves are written to the rows, or the database fails to. -/
theorem Moved.repoint {photos : List VenuePhoto} {h : List PhotoExchange}
    {moves : List (Cuid × JsString)} {s₁ : PhotoState} (hm : Moved base s v photos h moves s₁)
    (out : Outcome) (h' : List PhotoExchange) :
    Rehomed base s v photos (h ++ ⟨.repoint moves, out⟩ :: h') (if out.made then moves else [])
      (if out.made then s₁.repoint moves else s₁) := by
  have hmem : (⟨.repoint moves, out⟩ : PhotoExchange) ∈ h ++ ⟨.repoint moves, out⟩ :: h' :=
    List.mem_append_right _ List.mem_cons_self
  cases hmade : out.made with
  | false =>
    refine ⟨by simp [PhotoState.repoint_nil, hm.venues_eq], fun _ h ↦ (by simp at h), ?_⟩
    intro key hkey
    refine (hm.kept key hkey).imp_right fun ⟨hstaged, hd, p, hp, hurl, _⟩ ↦ ?_
    refine ⟨hstaged, hd.append_left, p, hp, hurl, fun hrep ↦ ?_⟩
    rw [hrep _ _ hmem] at hmade
    cases hmade
  | true =>
    refine ⟨by simp [PhotoState.repoint, hm.venues_eq], hm.target, fun key hkey ↦ ?_⟩
    refine (hm.kept key hkey).imp_right fun ⟨hstaged, hd, p, hp, hurl, hmoved⟩ ↦ ?_
    exact ⟨hstaged, hd.append_left, p, hp, hurl, fun _ ↦ hmoved⟩

theorem wp_rehomePhotos (photos : List VenuePhoto) :
    (rehomePhotos base v photos).wp PhotoDoes
      (fun h _ s' ↦ ∃ moves, Rehomed base s v photos h moves s') s := by
  have hsame : ∀ h, Rehomed base s v photos h [] s := fun h ↦
    ⟨by rw [PhotoState.repoint_nil], fun _ hm ↦ (List.not_mem_nil hm).elim, fun _ hk ↦ .inl hk⟩
  unfold rehomePhotos PhotoRequests.rehomePhotos
  split
  · exact ⟨[], hsame []⟩
  · refine wp_bind (wp_mono (wp_moveStaged photos) fun h moves s₁ hm ↦ ?_)
    split
    · next hnil =>
      subst hnil
      rw [Task.wp_done, List.append_nil]
      refine ⟨[], by rw [PhotoState.repoint_nil, hm.venues_eq], hm.target, fun key hkey ↦ ?_⟩
      refine (hm.kept key hkey).imp_right fun ⟨_, _, _, _, _, _, hmoved⟩ ↦ ?_
      exact (List.not_mem_nil hmoved).elim
    · refine wp_send fun out s₂ hd ↦ ?_
      cases hd with
      | repoint =>
        have hend : ∀ h', Rehomed base s v photos (h ++ ⟨.repoint moves, out⟩ :: h')
            (if out.made then moves else []) (if out.made then s₁.repoint moves else s₁) :=
          fun h' ↦ hm.repoint out h'
        split
        · intro rows s₃ hd
          cases hd with
          | findPhotos => exact ⟨_, hend _⟩
        · exact ⟨_, hend _⟩

/-! ### Soundness -/

/-- Re-homing keeps a state sound if no other venue names what it moves. -/
theorem Sound.rehomed (hs : Sound base s) {venue : Venue} (hvenue : s.active v = some venue)
    {h : List PhotoExchange} {moves : List (Cuid × JsString)} {s' : PhotoState}
    (hr : Rehomed base s v venue.photos h moves s')
    (hcare : ∀ key, isStagedVenuePhotoKey key = true → Deletes h key →
      (∃ p ∈ venue.photos, p.url = publicUrlFor base key) →
        Alone s (some v) (publicUrlFor base key) ∧ Repoints h) : Sound base s' where
  photosExist id venue' hvenue' p hp := by
    obtain ⟨old, hold, hphotos⟩ := active_of_repoint hr.venues_eq hvenue'
    rw [hphotos] at hp
    obtain ⟨q, hq, hid, hmoved | ⟨hurl, hstay⟩⟩ := url_of_repoint hp
    · obtain ⟨key, hkey, hmem⟩ := hr.target _ hmoved
      exact ⟨_, hkey, hmem⟩
    · obtain ⟨key, hkey, hmem⟩ := hs.photosExist id old hold q hq
      rcases hr.kept key hmem with hkept | ⟨hstaged, hd, q', hq', hurl', hmoved⟩
      · exact ⟨key, hurl.trans hkey, hkept⟩
      · obtain ⟨halone, hrep⟩ := hcare key hstaged hd ⟨q', hq', hurl'⟩
        by_cases hv : id = v
        · subst hv
          obtain rfl : old = venue := Option.some.inj (hold.symm.trans hvenue)
          obtain ⟨url, hmem'⟩ := hmoved hrep
          rw [← hs.distinct id old hold q hq q' hq' key hstaged hkey hurl'] at hmem'
          exact absurd hmem' (hstay url)
        · exact absurd hkey (halone id old (fun he ↦ hv (Option.some.inj he).symm) hold q hq)
  distinct id venue' hvenue' p hp p' hp' key hstaged hurl hurl' := by
    obtain ⟨old, hold, hphotos⟩ := active_of_repoint hr.venues_eq hvenue'
    rw [hphotos] at hp hp'
    have hnot : ∀ m ∈ moves, m.2 ≠ publicUrlFor base key := by
      intro m hm he
      obtain ⟨key', hkey', -⟩ := hr.target m hm
      rw [he, publicUrlFor_inj] at hkey'
      rw [hkey', not_staged_venuePhotoKeyFor] at hstaged
      cases hstaged
    obtain ⟨q, hq, hid, hmoved | ⟨hqurl, -⟩⟩ := url_of_repoint hp
    · exact absurd hurl (hnot _ hmoved)
    · obtain ⟨q', hq', hid', hmoved' | ⟨hqurl', -⟩⟩ := url_of_repoint hp'
      · exact absurd hurl' (hnot _ hmoved')
      · rw [hid, hid']
        exact hs.distinct id old hold q hq q' hq' key hstaged (hqurl ▸ hurl) (hqurl' ▸ hurl')

/-- Venues may be deleted, and objects that no venue names. -/
theorem Sound.mono (hs : Sound base s) {s' : PhotoState}
    (hactive : ∀ id venue, s'.active id = some venue → s.active id = some venue)
    (hkept : ∀ id venue, s.active id = some venue → ∀ p ∈ venue.photos, ∀ key,
      p.url = publicUrlFor base key → s.bucket key = true → s'.bucket key = true) :
    Sound base s' where
  photosExist id venue hvenue p hp := by
    have hold := hactive id venue hvenue
    obtain ⟨key, hkey, hmem⟩ := hs.photosExist id venue hold p hp
    exact ⟨key, hkey, hkept id venue hold p hp key hkey hmem⟩
  distinct id venue hvenue := hs.distinct id venue (hactive id venue hvenue)

/-- A venue may be given a set of photos that exist. -/
theorem Sound.setVenue (hs : Sound base s) {venue : Venue} (hdeleted : venue.deleted = false)
    (hexist : ∀ p ∈ venue.photos, s.Exists base p.url)
    (hdistinct : ∀ p ∈ venue.photos, ∀ p' ∈ venue.photos, ∀ key,
      isStagedVenuePhotoKey key = true → p.url = publicUrlFor base key →
        p'.url = publicUrlFor base key → p.id = p'.id) : Sound base (s.setVenue v venue) where
  photosExist id venue' hvenue p hp := by
    by_cases hid : id = v
    · subst hid
      rw [active_setVenue_self hdeleted] at hvenue
      cases hvenue
      exact hexist p hp
    · rw [active_setVenue_of_ne hid] at hvenue
      exact hs.photosExist id venue' hvenue p hp
  distinct id venue' hvenue p hp p' hp' key hstaged hurl hurl' := by
    by_cases hid : id = v
    · subst hid
      rw [active_setVenue_self hdeleted] at hvenue
      cases hvenue
      exact hdistinct p hp p' hp' key hstaged hurl hurl'
    · rw [active_setVenue_of_ne hid] at hvenue
      exact hs.distinct id venue' hvenue p hp p' hp' key hstaged hurl hurl'

/-- The photos of a request may become the set of a venue. -/
theorem Sound.newSet (hs : Sound base s) {venue : Venue} (hdeleted : venue.deleted = false)
    (photoUrls : PhotoUrls) (hurls : venue.photos.map (·.url) = photoUrls.urls)
    (hadm : ∀ url ∈ photoUrls.urls, s.Exists base url) : Sound base (s.setVenue v venue) :=
  hs.setVenue hdeleted (fun _ hp ↦ hadm _ (hurls ▸ List.mem_map_of_mem hp))
    fun _ hp _ hp' _ _ hurl hurl' ↦ congrArg VenuePhoto.id
      (List.inj_on_of_nodup_map (hurls ▸ photoUrls.arrayUnique) hp hp' (hurl.trans hurl'.symm))

theorem Alone.setVenue {url : JsString} {venue : Venue} {o : Option Cuid} (h : Alone s o url)
    (ho : o = none ∨ o = some v) : Alone (s.setVenue v venue) (some v) url := by
  intro id venue' hid hvenue
  have hne : id ≠ v := fun he ↦ hid (he ▸ rfl)
  rw [active_setVenue_of_ne hne] at hvenue
  refine h id venue' ?_ hvenue
  rcases ho with rfl | rfl
  · exact nofun
  · exact hid

/-! ### One call -/

/-- What a call that runs alone has to establish. -/
def Keeps (base : JsString) (s : PhotoState) (call : PhotoCall) : Prop :=
  Admissible base s call →
    (call.task base).wp PhotoDoes (fun h _ s' ↦ CarefulCall base s call h → Sound base s') s

theorem keeps_upload (hs : Sound base s) (file : File) : Keeps base s (.upload file) := by
  rw [Keeps, PhotoCall.task, uploadPhoto]
  intro _
  split
  · exact fun _ ↦ hs
  · split
    · exact fun _ ↦ hs
    · refine wp_send fun hex s₁ hd ↦ ?_
      cases hd with
      | randomHex =>
        refine wp_send fun out s₂ hd' ↦ ?_
        cases hd' with
        | putImage =>
          have hput : ∀ own, Sound base { s with
              bucket := if out.made then s.bucket.put own else s.bucket } :=
            fun own ↦ hs.mono (fun _ _ h ↦ h) fun _ _ _ _ _ key _ hkey ↦ by
              dsimp only
              split
              · exact Bucket.put_of_mem hkey
              · exact hkey
          split <;> exact fun _ ↦ hput _

theorem keeps_discard (hs : Sound base s) (url : JsString) : Keeps base s (.discard url) := by
  rw [Keeps, PhotoCall.task, discard]
  intro _
  split
  · exact fun _ ↦ hs
  · split
    · exact fun _ ↦ hs
    · next own hown =>
      obtain ⟨rfl, -⟩ := ownKey_eq_some.1 hown
      refine wp_send fun found s₁ hd ↦ ?_
      cases hd with
      | findPhotoByUrl _ _ hfound =>
        split
        · exact fun _ ↦ hs
        · next hnot =>
          refine wp_send fun out s₂ hd' ↦ ?_
          cases hd' with
          | deleteObject =>
            refine fun _ ↦ hs.mono (fun _ _ h ↦ h) fun id venue hvenue p hp key hkey hmem ↦ ?_
            refine (Bucket.deleteIf_of_ne fun he ↦ hnot (hfound.2 ?_)).trans hmem
            exact ⟨id, venue, (Option.filter_eq_some_iff.1 hvenue).1, p, hp, he ▸ hkey⟩

theorem keeps_softDelete (hs : Sound base s) (id : Cuid) : Keeps base s (.softDelete id) := by
  rw [Keeps, PhotoCall.task, softDelete]
  intro _
  refine wp_send fun found s₁ hd ↦ ?_
  cases hd with
  | findVenue =>
    split
    · refine wp_send fun out s₂ hd' ↦ ?_
      cases hd' with
      | deleteVenue _ venue =>
        have hdel : Sound base (if out.made then s.setVenue id { venue with deleted := true }
            else s) := by
          split
          · refine hs.mono (fun id' venue' h ↦ ?_) fun _ _ _ _ _ _ _ h ↦ h
            by_cases hid : id' = id
            · subst hid
              simp only [PhotoState.active, PhotoState.setVenue, Function.update_self,
                Option.filter_some] at h
              cases h
            · rwa [active_setVenue_of_ne hid] at h
          · exact hs
        split <;> exact fun _ ↦ hdel
    · exact fun _ ↦ hs

theorem keeps_create (hs : Sound base s) (photoUrls : PhotoUrls) :
    Keeps base s (.create photoUrls) := by
  rw [Keeps, PhotoCall.task, createVenue]
  intro hadm
  split
  · refine wp_send fun commit s₁ hd ↦ ?_
    cases hd with
    | createRefused => exact fun _ ↦ hs
    | createVenue _ v rows acknowledged hv hrows =>
      have hurls : rows.map (·.url) = photoUrls.urls := hrows
      have hset : Sound base (s.setVenue v ⟨false, rows⟩) := hs.newSet rfl photoUrls hurls hadm
      cases acknowledged with
      | false => exact fun _ ↦ hset
      | true =>
        refine wp_bind (wp_mono (wp_rehomePhotos rows) ?_)
        rintro h rows' s₂ ⟨moves, hr⟩ hcare
        refine hset.rehomed (active_setVenue_self rfl) hr fun key hstaged hd hrow ↦ ?_
        obtain ⟨p, hp, hurl⟩ := hrow
        obtain ⟨halone, hrep⟩ := hcare key (hd.append_left.append_right (h := [_]))
          (hurl ▸ hurls ▸ List.mem_map_of_mem hp) hstaged
        refine ⟨halone.setVenue (.inl rfl), fun moves out hmem ↦ hrep moves out ?_⟩
        exact List.mem_cons_of_mem _ (List.mem_append_left _ hmem)
  · exact fun _ ↦ hs

theorem Repoints.of_append_right {h h' : List PhotoExchange} (hr : Repoints (h ++ h')) :
    Repoints h' :=
  fun moves out hmem ↦ hr moves out (List.mem_append_right _ hmem)

theorem Alone.congr {s' : PhotoState} {o : Option Cuid} {url : JsString} (h : Alone s o url)
    (hs' : s'.venues = s.venues) : Alone s' o url := by
  intro id venue hid hvenue
  rw [PhotoState.active, hs'] at hvenue
  exact h id venue hid hvenue

theorem wp_dropObjects (before : List VenuePhoto) (urls : Option (List JsString)) :
    (dropObjects base before urls).wp PhotoDoes (fun h _ s' ↦ s'.venues = s.venues ∧
      ∀ key, s.bucket key = true → s'.bucket key = true ∨
        Deletes h key ∧ ∃ us, urls = some us ∧ publicUrlFor base key ∉ us) s := by
  cases urls with
  | none => exact ⟨rfl, fun _ hkey ↦ .inl hkey⟩
  | some us =>
    refine wp_mono (wp_deleteObjectsFor _) fun h _ s' hpost ↦ ⟨hpost.1, fun key hkey ↦ ?_⟩
    refine (hpost.2 key hkey).imp_right fun ⟨hmem, hd⟩ ↦ ⟨hd, us, rfl, ?_⟩
    simpa using (List.mem_filter.1 hmem).2

/-- What `update` does after its transaction keeps a state sound. -/
theorem wp_afterUpdate (hs : Sound base s) {venue : Venue} (hvenue : s.active v = some venue)
    (before : List VenuePhoto) {urls : Option (List JsString)}
    (hrows : ∀ us, urls = some us → venue.photos.map (·.url) = us) :
    (afterUpdate base before urls (.committed v venue.photos)).wp PhotoDoes (fun h _ s' ↦
      (∀ key, Deletes h key →
        (∀ us, urls = some us → publicUrlFor base key ∉ us →
          Alone s (some v) (publicUrlFor base key)) ∧
        (isStagedVenuePhotoKey key = true → (∃ p ∈ venue.photos, p.url = publicUrlFor base key) →
          Alone s (some v) (publicUrlFor base key) ∧ Repoints h)) → Sound base s') s := by
  refine wp_bind (wp_mono (wp_dropObjects before urls) fun h₁ _ s₁ hdropped ↦ ?_)
  obtain ⟨hvenues, hkept⟩ := hdropped
  refine wp_bind (wp_mono (wp_rehomePhotos venue.photos) ?_)
  rintro h₂ rows s₂ ⟨moves, hr⟩
  rw [Task.wp_done, List.append_nil]
  intro hcare
  have hvenue₁ : s₁.active v = some venue := by rwa [PhotoState.active, hvenues]
  have hs₁ : Sound base s₁ := by
    refine hs.mono (fun id _ h ↦ by rwa [PhotoState.active, hvenues] at h) ?_
    intro id venue' hvenue' p hp key hkey hmem
    refine (hkept key hmem).resolve_right fun hgone ↦ ?_
    obtain ⟨hd, us, hus, hnot⟩ := hgone
    by_cases hid : v = id
    · subst hid
      obtain rfl : venue' = venue := Option.some.inj (hvenue'.symm.trans hvenue)
      exact hnot (hkey ▸ hrows us hus ▸ List.mem_map_of_mem hp)
    · exact (hcare key hd.append_left).1 us hus hnot id venue' (fun he ↦ hid (Option.some.inj he))
        hvenue' p hp hkey
  refine hs₁.rehomed hvenue₁ hr fun key hstaged hd hrow ↦ ?_
  obtain ⟨halone, hrep⟩ := (hcare key hd.append_right).2 hstaged hrow
  exact ⟨halone.congr hvenues, hrep.of_append_right⟩

/-- The transaction of `update` and what follows it. -/
theorem wp_commitUpdate (hs : Sound base s) {venue : Venue} (hvenue : s.active v = some venue)
    (before : List VenuePhoto) (photoUrls : Option PhotoUrls)
    (hadm : Admissible base s (.update v photoUrls)) (pre : List PhotoExchange) :
    (send (.updateVenue v (photoUrls.map (·.urls))) >>=
      afterUpdate base before (photoUrls.map (·.urls))).wp PhotoDoes
        (fun h _ s' ↦ CarefulCall base s (.update v photoUrls) (pre ++ h) → Sound base s') s := by
  refine wp_send fun commit s₁ hd ↦ ?_
  cases hd with
  | updateRefused => exact fun _ ↦ hs
  | updateVenue _ _ old rows acknowledged hold hrows =>
    obtain ⟨hrow, hdel⟩ := Option.filter_eq_some_iff.1 hvenue
    obtain rfl : venue = old := Option.some.inj (hrow.symm.trans hold)
    have hdeleted : venue.deleted = false := by simpa using hdel
    have hset : Sound base (s.setVenue v { venue with photos := rows }) := by
      cases photoUrls with
      | none =>
        obtain rfl : rows = venue.photos := hrows
        exact hs.setVenue hdeleted (hs.photosExist v venue hvenue) (hs.distinct v venue hvenue)
      | some photoUrls => exact hs.newSet hdeleted photoUrls hrows hadm
    cases acknowledged with
    | false => exact fun _ ↦ hset
    | true =>
      have hrows' : ∀ us, photoUrls.map (·.urls) = some us → rows.map (·.url) = us := by
        intro us hus
        rw [hus] at hrows
        exact hrows
      refine wp_mono (wp_afterUpdate hset (active_setVenue_self hdeleted) before hrows') ?_
      intro h _ s₂ hpost hcare
      refine hpost fun key hd ↦ ?_
      have hc := hcare key ((hd.append_right (h := [_])).append_right)
      cases photoUrls with
      | none =>
        refine ⟨nofun, fun hstaged _ ↦ ?_⟩
        obtain ⟨halone, hrep⟩ := hc hstaged
        exact ⟨halone.setVenue (.inr rfl), (hrep.of_append_right).of_append_right (h := [_])⟩
      | some photoUrls =>
        refine ⟨fun us hus hnot ↦ ?_, fun hstaged ⟨p, hp, hurl⟩ ↦ ?_⟩
        · obtain rfl : photoUrls.urls = us := Option.some.inj hus
          simp only [if_neg hnot] at hc
          exact hc.setVenue (.inr rfl)
        · have hurls : rows.map (·.url) = photoUrls.urls := hrows' _ rfl
          have hmem : publicUrlFor base key ∈ photoUrls.urls :=
            hurl ▸ hurls ▸ List.mem_map_of_mem hp
          simp only [if_pos hmem] at hc
          obtain ⟨halone, hrep⟩ := hc hstaged
          exact ⟨halone.setVenue (.inr rfl), (hrep.of_append_right).of_append_right (h := [_])⟩

theorem keeps_update (hs : Sound base s) (id : Cuid) (photoUrls : Option PhotoUrls) :
    Keeps base s (.update id photoUrls) := by
  rw [Keeps, PhotoCall.task, updateVenue]
  intro hadm
  split
  · refine wp_send fun found s₁ hd ↦ ?_
    cases hd with
    | findVenue =>
      cases hvenue : s.active id with
      | none => exact fun _ ↦ hs
      | some venue =>
        cases photoUrls with
        | none => exact wp_commitUpdate hs hvenue [] none hadm [⟨.findVenue id, true⟩]
        | some photoUrls =>
          intro before s₂ hd'
          cases hd' with
          | findPhotos =>
            exact wp_commitUpdate hs hvenue _ (some photoUrls) hadm
              [⟨.findVenue id, true⟩, ⟨.findPhotos id, s.photos id⟩]
  · exact fun _ ↦ hs

/-- A call keeps a state sound if it meets the condition. -/
theorem sound_step (hs : Sound base s) (call : PhotoCall) : Keeps base s call := by
  cases call with
  | upload file => exact keeps_upload hs file
  | discard url => exact keeps_discard hs url
  | create photoUrls => exact keeps_create hs photoUrls
  | update id photoUrls => exact keeps_update hs id photoUrls
  | softDelete id => exact keeps_softDelete hs id

theorem Sound.init (bucket : Bucket) : Sound base (.init bucket) :=
  ⟨fun _ _ h ↦ (nomatch h), fun _ _ h ↦ (nomatch h)⟩

/-- Calls one after the other, with photos that exist. -/
abbrev PhotoRun (base : JsString) (C : PhotoState → PhotoCall → List PhotoExchange → Prop)
    (s : PhotoState) : Prop :=
  ∃ bucket, Serially PhotoDoes (PhotoCall.task base)
    (fun s call h ↦ Admissible base s call ∧ C s call h) (.init bucket) s

/-- Between careful calls, every photo of a venue names an object. -/
theorem photosExist_of_careful (hs : PhotoRun base (CarefulCall base) s) : PhotosExist base s :=
  let ⟨bucket, hrun⟩ := hs
  (hrun.invariant (Sound.init bucket) fun _ call _ _ _ h hr hC ↦
    hr.wp (sound_step h call hC.1) hC.2).photosExist

/-! ### A staged object that is lost -/

private def exampleBase : JsString := lit "https://cdn.example.com"

private def exampleHex : JsString := lit "0123456789abcdef0123456789abcdef"

private def exampleKey : JsString := buildVenuePhotoKey exampleHex .png

private def exampleUpload : PhotoCall :=
  .upload ⟨some .png, [0x89, 0x50, 0x4e, 0x47, 0x0d, 0x0a, 0x1a, 0x0a]⟩

private def examplePhotos : PhotoUrls where
  urls := [publicUrlFor exampleBase exampleKey]
  arrayMaxSize := by decide
  arrayUnique := by decide

/-- The objects after the upload. -/
private def exampleStaged : Bucket := Bucket.put (fun _ ↦ false) exampleKey

private theorem exampleStaged_key : exampleStaged exampleKey = true := Bucket.put_self

private def exampleTarget : JsString := venuePhotoKeyFor 7 exampleKey

/-- The venue that names the staged object. -/
private def exampleVenue : Venue := ⟨false, [⟨1, publicUrlFor exampleBase exampleKey⟩]⟩

/-- The state when the object has been moved. -/
private def exampleMoved : PhotoState where
  venues := ((PhotoState.init exampleStaged).setVenue 7 exampleVenue).venues
  bucket := (exampleStaged.put exampleTarget).delete exampleKey

private theorem runs_exampleUpload :
    Runs PhotoDoes (.init fun _ ↦ false) (exampleUpload.task exampleBase)
      [⟨.randomHex, exampleHex⟩, ⟨.putImage exampleKey, .done⟩]
      (.ok (.url (publicUrlFor exampleBase exampleKey))) (.init exampleStaged) :=
  .ask (.randomHex _ exampleHex) (.ask (.putImage _ _ .done) (.refl _ _))

/-- A venue is created with the photo, whose row is repointed or not. -/
private theorem runs_exampleCreate (out : Outcome) {h : List PhotoExchange}
    {rows : List VenuePhoto} {s' : PhotoState}
    (hend : Runs PhotoDoes (if out.made then exampleMoved.repoint
        [(1, publicUrlFor exampleBase exampleTarget)] else exampleMoved)
      (if decide (out = .done) then send (.findPhotos 7) else .done exampleVenue.photos) h rows
      s') :
    Runs PhotoDoes (.init exampleStaged) (PhotoCall.task exampleBase (.create examplePhotos))
      (⟨.createVenue examplePhotos.urls, .committed 7 exampleVenue.photos⟩ ::
        ⟨.copyObject exampleKey exampleTarget, .done⟩ :: ⟨.deleteObject exampleKey, .done⟩ ::
        ⟨.repoint [(1, publicUrlFor exampleBase exampleTarget)], out⟩ :: h)
      (.ok (.photos rows)) s' := by
  have hown : ownKey exampleBase venuePhotoStagingPrefix (publicUrlFor exampleBase exampleKey) =
      some exampleKey := ownKey_eq_some.2 ⟨rfl, by decide⟩
  rw [PhotoCall.task, createVenue, if_pos (by decide)]
  refine .ask (.createVenue _ _ 7 exampleVenue.photos true rfl rfl) ?_
  have hrehome : Runs PhotoDoes ((PhotoState.init exampleStaged).setVenue 7 exampleVenue)
      (rehomePhotos exampleBase 7 exampleVenue.photos)
      (⟨.copyObject exampleKey exampleTarget, .done⟩ :: ⟨.deleteObject exampleKey, .done⟩ ::
        ⟨.repoint [(1, publicUrlFor exampleBase exampleTarget)], out⟩ :: h) rows s' := by
    rw [rehomePhotos, PhotoRequests.rehomePhotos, if_neg (by decide), exampleVenue,
      PhotoRequests.moveStaged, hown]
    exact .ask (.copyObject _ _ _ .done fun _ ↦ exampleStaged_key)
      (.ask (.deleteObject _ _ .done) (.ask (.repoint _ _ out) hend))
  have hrun := hrehome.bind (f := fun rows ↦ .done (.ok (.photos rows) : PhotoResult)) (.refl _ _)
  rw [List.append_nil] at hrun
  exact hrun

/-- A venue is created with a photo that is moved to its folder. -/
theorem photosExist_of_careful_create :
    PhotosExist exampleBase
      (exampleMoved.repoint [(1, publicUrlFor exampleBase exampleTarget)]) := by
  refine photosExist_of_careful ⟨_, (Serially.init.call runs_exampleUpload
    ⟨trivial, fun _ _ ↦ trivial⟩).call
      (runs_exampleCreate .done (.ask (.findPhotos _ _) (.refl _ _))) ⟨?_, ?_⟩⟩
  · intro url hurl
    exact ⟨exampleKey, List.mem_singleton.1 hurl, exampleStaged_key⟩
  · refine fun key _ _ _ ↦ ⟨fun _ _ _ hv ↦ (nomatch hv), fun moves out hmem ↦ ?_⟩
    obtain ⟨-, rfl⟩ : moves = _ ∧ out = .done := by simpa using hmem
    rfl

/-- A staged photo is moved, and the database then fails to repoint its row. -/
theorem create_loses_photo : ∃ s, PhotoRun exampleBase (fun _ _ _ ↦ True) s ∧
    ¬ PhotosExist exampleBase s := by
  refine ⟨exampleMoved, ⟨_, (Serially.init.call runs_exampleUpload ⟨trivial, trivial⟩).call
    (runs_exampleCreate .failed (.refl _ _)) ⟨?_, trivial⟩⟩, fun h ↦ ?_⟩
  · intro url hurl
    exact ⟨exampleKey, List.mem_singleton.1 hurl, exampleStaged_key⟩
  · obtain ⟨key, hkey, hmem⟩ := h 7 exampleVenue rfl _ List.mem_cons_self
    rw [← publicUrlFor_inj.1 hkey] at hmem
    exact absurd hmem (by simp [exampleMoved, Bucket.delete_self])

end EasyBook.Storage

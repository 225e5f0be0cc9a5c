import EasyBook.Machine.Task
import EasyBook.Storage.Bucket

/-!
# Venue photos in the bucket and in the database

The state that the photo services share, `venues` with `venue_photos` and the bucket, and the
requests that they send (`PhotoQuery`). `PhotoDoes` is what a request does and how it may be
answered: every write may fail, and every write may be made although its answer is lost.

A transaction is one request. The rows of a venue's set come as a list in the order of their
positions, since a set is only ever written as a whole.
-/

namespace EasyBook.Storage

open JsString Machine

/-- A row of `venue_photos`. -/
@[ext]
structure VenuePhoto where
  id : Cuid
  url : JsString
  deriving DecidableEq

/-- A row of `venues`, with its photos. -/
structure Venue where
  deleted : Bool
  photos : List VenuePhoto
  deriving DecidableEq

/-- The tables and the objects. -/
structure PhotoState where
  venues : Cuid → Option Venue
  bucket : Bucket

/-- How a transaction that writes a venue ends. -/
inductive Commit where
  | committed (id : Cuid) (photos : List VenuePhoto)
  | refused
  /-- It was committed, but its answer was lost. -/
  | lost (id : Cuid) (photos : List VenuePhoto)

/-- An entry of a listing. -/
structure ListedObject where
  key : Option JsString
  lastModified : Option ℤ
  size : Option ℕ

/-- An answer of `ListObjectsV2`. -/
structure Page where
  contents : List ListedObject
  isTruncated : Bool
  nextContinuationToken : Option JsString

/-- An answer of `DeleteObjects`: the keys reported as deleted, and the number of errors. -/
structure DeleteReport where
  deleted : List (Option JsString)
  errors : ℕ

/-- The requests. -/
inductive PhotoQuery where
  | randomHex
  | now
  | putImage (key : JsString)
  | copyObject (fromKey toKey : JsString)
  | deleteObject (key : JsString)
  | listObjects (token : Option JsString)
  | deleteObjects (keys : List JsString)
  | findVenue (id : Cuid)
  | findPhotos (venueId : Cuid)
  | findPhotoByUrl (url : JsString)
  | createVenue (photoUrls : List JsString)
  | updateVenue (id : Cuid) (photoUrls : Option (List JsString))
  | deleteVenue (id : Cuid)
  | repoint (moves : List (Cuid × JsString))
  deriving DecidableEq

/-- The answers. -/
abbrev PhotoAnswer : PhotoQuery → Type
  | .randomHex => JsString
  | .now => ℤ
  | .putImage _ | .copyObject _ _ | .deleteObject _ | .deleteVenue _ | .repoint _ => Outcome
  | .listObjects _ => Option Page
  | .deleteObjects _ => Option DeleteReport
  | .findVenue _ | .findPhotoByUrl _ => Bool
  | .findPhotos _ => List VenuePhoto
  | .createVenue _ | .updateVenue _ _ => Commit

/-- A call of a photo service. -/
abbrev PhotoTask : Type → Type := Task PhotoQuery PhotoAnswer

/-- A request of a photo service with its answer. -/
abbrev PhotoExchange : Type := Task.Exchange PhotoQuery PhotoAnswer

/-- Nothing in the tables, and any objects. -/
def PhotoState.init (bucket : Bucket) : PhotoState where
  venues _ := none
  bucket := bucket

namespace PhotoState

variable (s : PhotoState)

/-- The venue of an id, unless it is deleted. -/
def active (id : Cuid) : Option Venue := (s.venues id).filter (!·.deleted)

/-- The rows of a venue. -/
def photos (id : Cuid) : List VenuePhoto := ((s.venues id).map (·.photos)).getD []

/-- A row of some venue names the URL, be the venue deleted or not. -/
def Referenced (url : JsString) : Prop :=
  ∃ id venue, s.venues id = some venue ∧ ∃ p ∈ venue.photos, p.url = url

/-- Write a venue. -/
def setVenue (id : Cuid) (venue : Venue) : PhotoState :=
  { s with venues := Function.update s.venues id (some venue) }

/-- `update` of the URLs of some rows. -/
def repoint (moves : List (Cuid × JsString)) : PhotoState :=
  { s with venues := fun id ↦ (s.venues id).map fun venue ↦
      { venue with photos := venue.photos.map fun p ↦
          { p with url := (moves.lookup p.id).getD p.url } } }

theorem repoint_nil : s.repoint [] = s := by
  simp [repoint]

end PhotoState

theorem active_setVenue_self {s : PhotoState} {v : Cuid} {venue : Venue}
    (h : venue.deleted = false) :
    (s.setVenue v venue).active v = some venue := by
  simp [PhotoState.active, PhotoState.setVenue, h]

theorem active_setVenue_of_ne {s : PhotoState} {v id : Cuid} {venue : Venue} (h : id ≠ v) :
    (s.setVenue v venue).active id = s.active id := by
  simp [PhotoState.active, PhotoState.setVenue, Function.update_of_ne h]

/-- What a row names after the moves: a target, or what it named before. -/
theorem url_of_repoint {photos : List VenuePhoto} {moves : List (Cuid × JsString)} {p : VenuePhoto}
    (hp : p ∈ photos.map fun q ↦ { q with url := (moves.lookup q.id).getD q.url }) :
    ∃ q ∈ photos, p.id = q.id ∧
      ((q.id, p.url) ∈ moves ∨ p.url = q.url ∧ ∀ url, (q.id, url) ∉ moves) := by
  obtain ⟨q, hq, rfl⟩ := List.mem_map.1 hp
  refine ⟨q, hq, rfl, ?_⟩
  cases hl : moves.lookup q.id with
  | some url =>
    obtain ⟨l₁, l₂, rfl, -⟩ := List.lookup_eq_some_iff.1 hl
    exact .inl (by simp)
  | none =>
    refine .inr ⟨by simp, fun url hmem ↦ ?_⟩
    exact absurd (List.lookup_eq_none_iff.1 hl _ hmem) (by simp)

theorem active_of_repoint {s s' : PhotoState} {moves : List (Cuid × JsString)} {id : Cuid}
    {venue : Venue} (hs' : s'.venues = (s.repoint moves).venues)
    (h : s'.active id = some venue) : ∃ old, s.active id = some old ∧
      venue.photos = old.photos.map fun q ↦ { q with url := (moves.lookup q.id).getD q.url } := by
  rw [PhotoState.active, hs', Option.filter_eq_some_iff] at h
  obtain ⟨hv, hd⟩ := h
  obtain ⟨old, hold, rfl⟩ := Option.map_eq_some_iff.1 hv
  exact ⟨old, Option.filter_eq_some_iff.2 ⟨hold, hd⟩, rfl⟩

/-- The rows that a write leaves: those of the new set, in its order, or those that were there. -/
def SetOf (old rows : List VenuePhoto) : Option (List JsString) → Prop
  | none => rows = old
  | some urls => rows.map (·.url) = urls

/-- The answer to a transaction that was committed. -/
def Commit.answer (id : Cuid) (photos : List VenuePhoto) (acknowledged : Bool) : Commit :=
  if acknowledged then .committed id photos else .lost id photos

/-- What a request does, and how it may be answered. -/
inductive PhotoDoes : PhotoState → (q : PhotoQuery) → PhotoAnswer q → PhotoState → Prop where
  | randomHex (s : PhotoState) (hex : JsString) : PhotoDoes s .randomHex hex s
  | now (s : PhotoState) (time : ℤ) : PhotoDoes s .now time s
  | putImage (s : PhotoState) (key : JsString) (out : Outcome) :
      PhotoDoes s (.putImage key) out
        { s with bucket := if out.made then s.bucket.put key else s.bucket }
  /-- Only what is there is copied. -/
  | copyObject (s : PhotoState) (fromKey toKey : JsString) (out : Outcome)
      (h : out.made = true → s.bucket fromKey = true) :
      PhotoDoes s (.copyObject fromKey toKey) out
        { s with bucket := if out.made then s.bucket.put toKey else s.bucket }
  | deleteObject (s : PhotoState) (key : JsString) (out : Outcome) :
      PhotoDoes s (.deleteObject key) out { s with bucket := s.bucket.deleteIf key out.made }
  /-- Pages of any kind may come back, but for the folder that is listed. -/
  | listObjects (s : PhotoState) (token : Option JsString) (page : Option Page)
      (h : ∀ p ∈ page, ∀ object ∈ p.contents, ∀ key ∈ object.key,
        isStagedVenuePhotoKey key = true) :
      PhotoDoes s (.listObjects token) page s
  /-- Any of the keys may be deleted, and any of them reported as deleted. -/
  | deleteObjects (s : PhotoState) (keys : List JsString) (b : Bucket)
      (h : ∀ key, key ∉ keys → b key = s.bucket key) (report : Option DeleteReport)
      (hreport : ∀ r, report = some r → r.deleted.filterMap id ⊆ keys) :
      PhotoDoes s (.deleteObjects keys) report { s with bucket := b }
  | findVenue (s : PhotoState) (id : Cuid) : PhotoDoes s (.findVenue id) (s.active id).isSome s
  | findPhotos (s : PhotoState) (id : Cuid) : PhotoDoes s (.findPhotos id) (s.photos id) s
  | findPhotoByUrl (s : PhotoState) (url : JsString) (found : Bool)
      (h : found = true ↔ s.Referenced url) : PhotoDoes s (.findPhotoByUrl url) found s
  | createVenue (s : PhotoState) (urls : List JsString) (id : Cuid) (rows : List VenuePhoto)
      (acknowledged : Bool) (hid : s.venues id = none) (h : SetOf [] rows (some urls)) :
      PhotoDoes s (.createVenue urls) (.answer id rows acknowledged) (s.setVenue id ⟨false, rows⟩)
  | createRefused (s : PhotoState) (urls : List JsString) :
      PhotoDoes s (.createVenue urls) .refused s
  | updateVenue (s : PhotoState) (id : Cuid) (urls : Option (List JsString)) (venue : Venue)
      (rows : List VenuePhoto) (acknowledged : Bool) (hvenue : s.venues id = some venue)
      (h : SetOf venue.photos rows urls) :
      PhotoDoes s (.updateVenue id urls) (.answer id rows acknowledged)
        (s.setVenue id { venue with photos := rows })
  | updateRefused (s : PhotoState) (id : Cuid) (urls : Option (List JsString)) :
      PhotoDoes s (.updateVenue id urls) .refused s
  | deleteVenue (s : PhotoState) (id : Cuid) (venue : Venue) (out : Outcome)
      (hvenue : s.venues id = some venue) :
      PhotoDoes s (.deleteVenue id) out
        (if out.made then s.setVenue id { venue with deleted := true } else s)
  | repoint (s : PhotoState) (moves : List (Cuid × JsString)) (out : Outcome) :
      PhotoDoes s (.repoint moves) out (if out.made then s.repoint moves else s)

end EasyBook.Storage

import EasyBook.Machine.World
import EasyBook.Storage.VenuePhotos

/-!
# Venues and their notifications

The rows of `venues` with all their columns and both sets, the notifications of closed venues, and
the requests that `venues.service.ts` sends (`VenueQuery`). `VenueDoes` is what a request does and
how it may be answered.

A transaction is one request. Every write may be refused, for whatever reason, and does nothing
then. Of the bucket no more is known than its answers.
-/

namespace EasyBook.Venues

open JsString Machine Storage

/-- A row of `venues`, with its photos and amenities. -/
structure Venue where
  name : JsString
  venueTypeId : ℤ
  capacity : ℤ
  location : Option JsString
  description : Option JsString
  isOpen : Bool
  closedReason : Option JsString
  deletedAt : Option ℤ
  photos : List VenuePhoto
  amenityIds : List ℤ
  deriving DecidableEq

/-- `CreateVenueDto`. -/
structure CreateVenueDto where
  name : JsString
  venueTypeId : ℤ
  capacity : ℤ
  location : Option JsString
  description : Option JsString
  amenityIds : Option (List ℤ)
  photoUrls : Option PhotoUrls

/-- `UpdateVenueDto`: what is absent stays, and an absent value that may be `null` is another thing
than `null`. -/
structure UpdateVenueDto where
  name : Option JsString
  venueTypeId : Option ℤ
  capacity : Option ℤ
  location : Option (Option JsString)
  description : Option (Option JsString)
  amenityIds : Option (List ℤ)
  photoUrls : Option PhotoUrls

/-- `NotificationActor`. -/
structure NotificationActor where
  id : Cuid
  name : JsString
  deriving DecidableEq

/-- What a `venueClosed` notification is built from. -/
structure VenueClosed where
  venueId : Cuid
  venueName : JsString
  reason : JsString
  actor : NotificationActor
  deriving DecidableEq

/-- The URLs of a new venue. -/
def CreateVenueDto.urls (dto : CreateVenueDto) : List JsString :=
  (dto.photoUrls.map (·.urls)).getD []

/-- The row that `create` inserts, from the rows of its photos. -/
def CreateVenueDto.row (dto : CreateVenueDto) (photos : List VenuePhoto) : Venue where
  name := dto.name
  venueTypeId := dto.venueTypeId
  capacity := dto.capacity
  location := dto.location
  description := dto.description
  isOpen := true
  closedReason := none
  deletedAt := none
  photos := photos
  amenityIds := dto.amenityIds.getD []

/-- The row that `update` makes, from the rows of its photos. -/
def UpdateVenueDto.row (dto : UpdateVenueDto) (photos : List VenuePhoto) (venue : Venue) : Venue :=
  { venue with
    name := dto.name.getD venue.name
    venueTypeId := dto.venueTypeId.getD venue.venueTypeId
    capacity := dto.capacity.getD venue.capacity
    location := dto.location.getD venue.location
    description := dto.description.getD venue.description
    photos := photos
    amenityIds := dto.amenityIds.getD venue.amenityIds }

/-- The tables. The last notification comes first. -/
structure VenueState where
  rows : Cuid → Option Venue
  notifications : List VenueClosed

/-- The requests. -/
inductive VenueQuery where
  | now
  /-- `isOpen` of the undeleted row. -/
  | findVenue (id : Cuid)
  | findPhotos (venueId : Cuid)
  | findUnique (id : Cuid)
  | createVenue (dto : CreateVenueDto)
  | updateVenue (id : Cuid) (dto : UpdateVenueDto)
  | setOpen (id : Cuid) (isOpen : Bool) (closedReason : Option JsString)
  | setDeletedAt (id : Cuid) (deletedAt : ℤ)
  | copyObject (fromKey toKey : JsString)
  | deleteObject (key : JsString)
  | repoint (moves : List (Cuid × JsString))
  | notify (n : VenueClosed)

/-- The answers. -/
abbrev VenueAnswer : VenueQuery → Type
  | .now => ℤ
  | .findVenue _ => Option Bool
  | .findPhotos _ => List VenuePhoto
  | .findUnique _ | .updateVenue _ _ | .setOpen _ _ _ => Option Venue
  | .createVenue _ => Option (Cuid × Venue)
  | .setDeletedAt _ _ | .copyObject _ _ | .repoint _ | .notify _ => Bool
  | .deleteObject _ => Unit

/-- A call of the service. -/
abbrev VenueTask : Type → Type := Task VenueQuery VenueAnswer

/-- A request with its answer. -/
abbrev VenueExchange : Type := Task.Exchange VenueQuery VenueAnswer

namespace VenueState

/-- Nothing in the tables. -/
def init : VenueState := ⟨fun _ ↦ none, []⟩

variable (s : VenueState)

/-- The venue of an id, unless it is deleted. -/
def active (id : Cuid) : Option Venue := (s.rows id).filter (·.deletedAt.isNone)

/-- Write a venue. -/
def set (id : Cuid) (venue : Venue) : VenueState :=
  { s with rows := Function.update s.rows id (some venue) }

/-- `update` of the URLs of some photos. -/
def repoint (moves : List (Cuid × JsString)) : VenueState :=
  { s with rows := fun id ↦ (s.rows id).map fun venue ↦
      { venue with photos := venue.photos.map fun p ↦
          { p with url := (moves.lookup p.id).getD p.url } } }

variable {s} {id id' : Cuid} {venue : Venue}

theorem active_eq_some :
    s.active id = some venue ↔ s.rows id = some venue ∧ venue.deletedAt = none := by
  simp [active, Option.filter_eq_some_iff]

theorem set_rows_self : (s.set id venue).rows id = some venue := Function.update_self ..

theorem set_rows_of_ne (h : id' ≠ id) : (s.set id venue).rows id' = s.rows id' :=
  Function.update_of_ne h ..

/-- A venue none of whose photos is moved stays as it is. -/
theorem repoint_rows_of_stays {moves : List (Cuid × JsString)} (hrow : s.rows id = some venue)
    (h : ∀ p ∈ venue.photos, p.id ∉ moves.map (·.1)) : (s.repoint moves).rows id = some venue := by
  have hphotos : (venue.photos.map fun p ↦ { p with url := (moves.lookup p.id).getD p.url }) =
      venue.photos := by
    refine (List.map_congr_left fun p hp ↦ ?_).trans (List.map_id _)
    have hnone : moves.lookup p.id = none := by
      refine List.lookup_eq_none_iff.2 fun m hm ↦ ?_
      have hne : p.id ≠ m.1 := fun he ↦ h p hp (List.mem_map.2 ⟨m, hm, he.symm⟩)
      simpa using hne
    rw [hnone]
    rfl
  change (s.rows id).map _ = _
  rw [hrow, Option.map_some, hphotos]

end VenueState

/-- What a request does, and how it may be answered. -/
inductive VenueDoes : VenueState → (q : VenueQuery) → VenueAnswer q → VenueState → Prop where
  | now (s : VenueState) (time : ℤ) : VenueDoes s .now time s
  | findVenue (s : VenueState) (id : Cuid) :
      VenueDoes s (.findVenue id) ((s.active id).map (·.isOpen)) s
  | findPhotos (s : VenueState) (id : Cuid) :
      VenueDoes s (.findPhotos id) (((s.rows id).map (·.photos)).getD []) s
  | findUnique (s : VenueState) (id : Cuid) : VenueDoes s (.findUnique id) (s.rows id) s
  | createVenue (s : VenueState) (dto : CreateVenueDto) (id : Cuid) (photos : List VenuePhoto)
      (hid : s.rows id = none) (h : SetOf [] photos (some dto.urls)) :
      VenueDoes s (.createVenue dto) (some (id, dto.row photos)) (s.set id (dto.row photos))
  | createRefused (s : VenueState) (dto : CreateVenueDto) : VenueDoes s (.createVenue dto) none s
  | updateVenue (s : VenueState) (id : Cuid) (dto : UpdateVenueDto) (venue : Venue)
      (photos : List VenuePhoto) (hrow : s.rows id = some venue)
      (h : SetOf venue.photos photos (dto.photoUrls.map (·.urls))) :
      VenueDoes s (.updateVenue id dto) (some (dto.row photos venue))
        (s.set id (dto.row photos venue))
  | updateRefused (s : VenueState) (id : Cuid) (dto : UpdateVenueDto) :
      VenueDoes s (.updateVenue id dto) none s
  /-- The row is updated by its id, whatever it holds. -/
  | setOpen (s : VenueState) (id : Cuid) (isOpen : Bool) (closedReason : Option JsString)
      (venue : Venue) (hrow : s.rows id = some venue) :
      VenueDoes s (.setOpen id isOpen closedReason)
        (some { venue with isOpen := isOpen, closedReason := closedReason })
        (s.set id { venue with isOpen := isOpen, closedReason := closedReason })
  | setOpenRefused (s : VenueState) (id : Cuid) (isOpen : Bool) (closedReason : Option JsString) :
      VenueDoes s (.setOpen id isOpen closedReason) none s
  | setDeletedAt (s : VenueState) (id : Cuid) (deletedAt : ℤ) (venue : Venue)
      (hrow : s.rows id = some venue) :
      VenueDoes s (.setDeletedAt id deletedAt) true
        (s.set id { venue with deletedAt := some deletedAt })
  | setDeletedAtRefused (s : VenueState) (id : Cuid) (deletedAt : ℤ) :
      VenueDoes s (.setDeletedAt id deletedAt) false s
  | copyObject (s : VenueState) (fromKey toKey : JsString) (copied : Bool) :
      VenueDoes s (.copyObject fromKey toKey) copied s
  | deleteObject (s : VenueState) (key : JsString) : VenueDoes s (.deleteObject key) () s
  /-- If one of the rows is gone, none is updated. -/
  | repoint (s : VenueState) (moves : List (Cuid × JsString))
      (h : ∀ m ∈ moves, ∃ id venue, s.rows id = some venue ∧ m.1 ∈ venue.photos.map (·.id)) :
      VenueDoes s (.repoint moves) true (s.repoint moves)
  | repointRefused (s : VenueState) (moves : List (Cuid × JsString)) :
      VenueDoes s (.repoint moves) false s
  | notify (s : VenueState) (n : VenueClosed) :
      VenueDoes s (.notify n) true { s with notifications := n :: s.notifications }
  | notifyFailed (s : VenueState) (n : VenueClosed) : VenueDoes s (.notify n) false s

/-! ### The services -/

/-- The errors of the service. -/
inductive VenueError where
  | invalidPhotoUrl
  | venueNotFound
  | closeReasonRequired
  | venueAlreadyInState
  /-- What the database answered. -/
  | writeFailed
  deriving DecidableEq

/-- How a call ends: with the venue, or with nothing. -/
abbrev VenueResult : Type := Except VenueError (Option Venue)

/-- Send a request. -/
def send (q : VenueQuery) : VenueTask (VenueAnswer q) := .request q

/-- The requests of `deleteObjectsFor` and `rehomePhotos`. -/
abbrev venueRequests : PhotoRequests VenueQuery VenueAnswer where
  copyObject := .copyObject
  copied out := out
  deleteObject := .deleteObject
  repoint := .repoint
  repointed out := out

variable (base : JsString)

/-- `rehomePhotos`. -/
def rehomePhotos (id : Cuid) (row : Venue) : VenueTask Venue :=
  let fresh : VenueTask Venue := do
    let fresh ← send (.findUnique id)
    .done (fresh.getD row)
  venueRequests.rehomePhotos base fresh id row.photos row

/-- `create`. -/
def create (dto : CreateVenueDto) : VenueTask VenueResult :=
  if assertOwnPhotoUrls base dto.urls then do
    match ← send (.createVenue dto) with
    | some (id, created) =>
      let row ← rehomePhotos base id created
      .done (.ok (some row))
    | none => .done (.error .writeFailed)
  else .done (.error .invalidPhotoUrl)

/-- `update`, from its transaction on. -/
def commitUpdate (id : Cuid) (dto : UpdateVenueDto) (before : List VenuePhoto) :
    VenueTask VenueResult := do
  match ← send (.updateVenue id dto) with
  | none => .done (.error .writeFailed)
  | some updated =>
    match dto.photoUrls with
    | some photoUrls =>
      venueRequests.deleteObjectsFor base ((before.map (·.url)).filter (· ∉ photoUrls.urls))
    | none => .done ()
    let row ← rehomePhotos base id updated
    .done (.ok (some row))

/-- `update`. -/
def update (id : Cuid) (dto : UpdateVenueDto) : VenueTask VenueResult :=
  if (dto.photoUrls.map (·.urls)).all (assertOwnPhotoUrls base) then do
    match ← send (.findVenue id) with
    | none => .done (.error .venueNotFound)
    | some _ =>
      let before ← if dto.photoUrls.isSome then send (.findPhotos id) else .done []
      commitUpdate base id dto before
  else .done (.error .invalidPhotoUrl)

/-- `close`, from its write on. -/
def commitClose (id : Cuid) (trimmed : JsString) (actor : NotificationActor) :
    VenueTask VenueResult := do
  match ← send (.setOpen id false (some trimmed)) with
  | none => .done (.error .writeFailed)
  | some updated =>
    let _ ← send (.notify ⟨id, updated.name, trimmed, actor⟩)
    .done (.ok (some updated))

/-- `close`. -/
def close (id : Cuid) (reason : JsString) (actor : NotificationActor) : VenueTask VenueResult :=
  let trimmed := trim reason
  if trimmed = [] then .done (.error .closeReasonRequired)
  else do
    match ← send (.findVenue id) with
    | none => .done (.error .venueNotFound)
    | some isOpen =>
      if isOpen then commitClose id trimmed actor else .done (.error .venueAlreadyInState)

/-- `reopen`. -/
def reopen (id : Cuid) : VenueTask VenueResult := do
  match ← send (.findVenue id) with
  | none => .done (.error .venueNotFound)
  | some isOpen =>
    if isOpen then .done (.error .venueAlreadyInState)
    else
      match ← send (.setOpen id true none) with
      | none => .done (.error .writeFailed)
      | some updated => .done (.ok (some updated))

/-- `softDelete`. -/
def softDelete (id : Cuid) : VenueTask VenueResult := do
  match ← send (.findVenue id) with
  | none => .done (.error .venueNotFound)
  | some _ =>
    let time ← send .now
    if ← send (.setDeletedAt id time) then .done (.ok none) else .done (.error .writeFailed)

/-- The calls. -/
inductive VenueCall where
  | create (dto : CreateVenueDto)
  | update (id : Cuid) (dto : UpdateVenueDto)
  | close (id : Cuid) (reason : JsString) (actor : NotificationActor)
  | reopen (id : Cuid)
  | softDelete (id : Cuid)

/-- The services behind the calls. -/
def VenueCall.task : VenueCall → VenueTask VenueResult
  | create dto => Venues.create base dto
  | update id dto => Venues.update base id dto
  | close id reason actor => Venues.close id reason actor
  | reopen id => Venues.reopen id
  | softDelete id => Venues.softDelete id

/-- Nothing but the calls acts on the tables. -/
def venues : Actions VenueState VenueQuery VenueAnswer VenueResult VenueCall where
  task := VenueCall.task base
  does := VenueDoes
  env s s' := s' = s

/-- A state of the system. -/
abbrev VenueWorld : Type := World VenueState VenueQuery VenueAnswer VenueResult VenueCall

/-- An event of the system. -/
abbrev VenueEvent : Type := Event VenueQuery VenueAnswer VenueCall

end EasyBook.Venues

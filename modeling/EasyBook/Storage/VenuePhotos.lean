import EasyBook.Storage.PhotoRequests

/-!
# The services of venue photos

`venue-photo-upload.service.ts` and the calls of `venues.service.ts` that write photos: `create`,
`update` and `softDelete`, with `rehomePhotos` and `deleteObjectsFor`. What they write besides
photos is left out; that a transaction is refused may have any reason. A read that fails ends a call
before it has written anything, and is left out as well.
-/

namespace EasyBook.Storage

open JsString Machine

/-- The errors of the services. -/
inductive PhotoError where
  | venuePhotoRequired
  | venuePhotoTypeUnsupported
  | imageUploadFailed
  | invalidPhotoUrl
  | venuePhotoInUse
  | venueNotFound
  /-- What the database answered, by way of `mapWriteError`. -/
  | writeFailed
  deriving DecidableEq

/-- The replies of the services. -/
inductive PhotoReply where
  | url (url : JsString)
  | photos (rows : List VenuePhoto)
  | empty

/-- How a call ends. -/
abbrev PhotoResult : Type := Except PhotoError PhotoReply

/-- The URLs that the DTOs admit: at most ten, and no two the same. -/
structure PhotoUrls where
  urls : List JsString
  arrayMaxSize : urls.length ≤ 10
  arrayUnique : urls.Nodup

/-- Send a request. -/
def send (q : PhotoQuery) : PhotoTask (PhotoAnswer q) := .request q

theorem wp_send {ρ : Type} {q : PhotoQuery} {f : PhotoAnswer q → PhotoTask ρ} {s : PhotoState}
    {post : List PhotoExchange → ρ → PhotoState → Prop}
    (h : ∀ a s', PhotoDoes s q a s' → (f a).wp PhotoDoes (fun h ↦ post (⟨q, a⟩ :: h)) s') :
    (send q >>= f).wp PhotoDoes post s := h

/-- The requests of `deleteObjectsFor` and `rehomePhotos`. -/
abbrev photoRequests : PhotoRequests PhotoQuery PhotoAnswer where
  copyObject := .copyObject
  copied out := out = .done
  deleteObject := .deleteObject
  repoint := .repoint
  repointed out := out = .done

variable (base : JsString)

/-- `VenuePhotoUploadService.upload`. -/
def uploadPhoto (file : File) : PhotoTask PhotoResult :=
  if file.buffer = [] then .done (.error .venuePhotoRequired)
  else match file.sniffed with
    | none => .done (.error .venuePhotoTypeUnsupported)
    | some type => do
      let hex ← send .randomHex
      let key := buildVenuePhotoKey hex type
      let out ← send (.putImage key)
      if out = .done then .done (.ok (.url (publicUrlFor base key)))
      else .done (.error .imageUploadFailed)

/-- `VenuePhotoUploadService.discard`. -/
def discard (url : JsString) : PhotoTask PhotoResult :=
  if base = [] then .done (.error .invalidPhotoUrl)
  else match ownKey base venuesFolder url with
    | none => .done (.error .invalidPhotoUrl)
    | some key => do
      if ← send (.findPhotoByUrl url) then .done (.error .venuePhotoInUse)
      else
        let _ ← send (.deleteObject key)
        .done (.ok .empty)

/-- `assertOwnPhotoUrls`. An empty base is falsy. -/
def assertOwnPhotoUrls (urls : List JsString) : Bool :=
  base = [] || urls.all fun url ↦ (ownKey base venuesFolder url).isSome

/-- `rehomePhotos`, of which the rows of the photos are kept. -/
def rehomePhotos (id : Cuid) (photos : List VenuePhoto) : PhotoTask (List VenuePhoto) :=
  photoRequests.rehomePhotos base (send (.findPhotos id)) id photos photos

/-- `VenuesService.create`. -/
def createVenue (photoUrls : PhotoUrls) : PhotoTask PhotoResult :=
  if assertOwnPhotoUrls base photoUrls.urls then do
    match ← send (.createVenue photoUrls.urls) with
    | .committed id photos =>
      let rows ← rehomePhotos base id photos
      .done (.ok (.photos rows))
    | _ => .done (.error .writeFailed)
  else .done (.error .invalidPhotoUrl)

/-- The objects that a new set has lost are deleted. -/
def dropObjects (before : List VenuePhoto) : Option (List JsString) → PhotoTask Unit
  | some urls => photoRequests.deleteObjectsFor base ((before.map (·.url)).filter (· ∉ urls))
  | none => .done ()

/-- What `update` does after its transaction. -/
def afterUpdate (before : List VenuePhoto) (photoUrls : Option (List JsString)) :
    Commit → PhotoTask PhotoResult
  | .committed id photos => do
    dropObjects base before photoUrls
    let rows ← rehomePhotos base id photos
    .done (.ok (.photos rows))
  | _ => .done (.error .writeFailed)

/-- `VenuesService.update`. -/
def updateVenue (id : Cuid) (photoUrls : Option PhotoUrls) : PhotoTask PhotoResult :=
  let urls := photoUrls.map (·.urls)
  if urls.all (assertOwnPhotoUrls base) then do
    if ← send (.findVenue id) then
      let before ← if urls.isSome then send (.findPhotos id) else .done []
      let commit ← send (.updateVenue id urls)
      afterUpdate base before urls commit
    else .done (.error .venueNotFound)
  else .done (.error .invalidPhotoUrl)

/-- `VenuesService.softDelete`. -/
def softDelete (id : Cuid) : PhotoTask PhotoResult := do
  if ← send (.findVenue id) then
    let out ← send (.deleteVenue id)
    if out = .done then .done (.ok .empty) else .done (.error .writeFailed)
  else .done (.error .venueNotFound)

/-- The calls. -/
inductive PhotoCall where
  | upload (file : File)
  | discard (url : JsString)
  | create (photoUrls : PhotoUrls)
  | update (id : Cuid) (photoUrls : Option PhotoUrls)
  | softDelete (id : Cuid)

/-- The services behind the calls. -/
def PhotoCall.task : PhotoCall → PhotoTask PhotoResult
  | upload file => uploadPhoto base file
  | discard url => Storage.discard base url
  | create photoUrls => createVenue base photoUrls
  | update id photoUrls => updateVenue base id photoUrls
  | softDelete id => Storage.softDelete id

end EasyBook.Storage

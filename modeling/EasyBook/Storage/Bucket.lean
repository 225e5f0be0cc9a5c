import EasyBook.Bookings.Model
import EasyBook.Ecma.Text

/-!
# The object bucket

`r2-storage.service.ts` as far as keys and URLs go, and `image-sniff.ts`. A bucket is the set of the
keys under which it holds an object.

A URL names an object of the bucket if it starts with the public base; `ownKey` is the key that the
services derive from a URL, behind their guard on the folder.
-/

namespace EasyBook.Storage

open JsString

/-! ### Images -/

/-- `AvatarImageType`. -/
inductive ImageType where
  | jpeg
  | png
  | webp
  deriving DecidableEq, Repr

/-- `sniffImageType`: the type that the bytes are of. -/
def sniffImageType (b : List ℕ) : Option ImageType :=
  if [0xff, 0xd8, 0xff].isPrefixOf b then some .jpeg
  else if [0x89, 0x50, 0x4e, 0x47, 0x0d, 0x0a, 0x1a, 0x0a].isPrefixOf b then some .png
  else if 12 ≤ b.length ∧ b.take 4 = [0x52, 0x49, 0x46, 0x46] ∧
      (b.drop 8).take 4 = [0x57, 0x45, 0x42, 0x50] then some .webp
  else none

/-- `EXTENSION`. -/
def extension : ImageType → JsString
  | .jpeg => lit "jpg"
  | .png => lit "png"
  | .webp => lit "webp"

/-- An uploaded file. The declared type is `none` if it is not in the list. -/
structure File where
  mimetype : Option ImageType
  buffer : List ℕ
  deriving DecidableEq

/-- The type of a file that is not empty and is what it is declared to be. -/
def File.sniffed (file : File) : Option ImageType :=
  if file.buffer = [] then none
  else if sniffImageType file.buffer = file.mimetype then file.mimetype
  else none

/-! ### Keys -/

/-- `VENUE_PHOTO_STAGING_PREFIX`. -/
def venuePhotoStagingPrefix : JsString := lit "venues/_new/"

/-- `buildAvatarKey`, from the random digits. -/
def buildAvatarKey (systemUserId : Cuid) (hex : JsString) (type : ImageType) : JsString :=
  lit "avatars/" ++ cuidText systemUserId ++ lit "/" ++ hex ++ lit "." ++ extension type

/-- `buildVenuePhotoKey`, from the random digits. -/
def buildVenuePhotoKey (hex : JsString) (type : ImageType) : JsString :=
  venuePhotoStagingPrefix ++ hex ++ lit "." ++ extension type

/-- `venuePhotoKeyFor`. -/
def venuePhotoKeyFor (venueId : Cuid) (stagingKey : JsString) : JsString :=
  lit "venues/" ++ cuidText venueId ++ lit "/" ++ stagingKey.drop venuePhotoStagingPrefix.length

/-- `isStagedVenuePhotoKey`. -/
def isStagedVenuePhotoKey (key : JsString) : Bool := venuePhotoStagingPrefix.isPrefixOf key

/-- The final key of a photo is not a staging key: an id does not start with an underscore. -/
theorem not_staged_venuePhotoKeyFor (venueId : Cuid) (key : JsString) :
    isStagedVenuePhotoKey (venuePhotoKeyFor venueId key) = false := by
  simp only [isStagedVenuePhotoKey, venuePhotoKeyFor, cuidText, List.append_assoc]
  rfl

/-! ### URLs -/

/-- `publicUrlFor`. -/
def publicUrlFor (base key : JsString) : JsString := base ++ 47 :: key

/-- The key that a URL names in a folder of the bucket. -/
def ownKey (base folder url : JsString) : Option JsString :=
  if (publicUrlFor base folder).isPrefixOf url then some (url.drop (base.length + 1)) else none

theorem publicUrlFor_inj {base key key' : JsString} :
    publicUrlFor base key = publicUrlFor base key' ↔ key = key' := by
  simp [publicUrlFor]

theorem ownKey_eq_some {base folder url key : JsString} :
    ownKey base folder url = some key ↔
      url = publicUrlFor base key ∧ folder.isPrefixOf key = true := by
  unfold ownKey
  constructor
  · intro h
    split at h
    · next hp =>
      obtain ⟨rest, rfl⟩ := List.isPrefixOf_iff_prefix.1 hp
      have hkey : folder ++ rest = key := by simpa [publicUrlFor] using h
      exact ⟨by simp [publicUrlFor, ← hkey], List.isPrefixOf_iff_prefix.2 ⟨rest, hkey⟩⟩
    · cases h
  · rintro ⟨rfl, hp⟩
    obtain ⟨rest, rfl⟩ := List.isPrefixOf_iff_prefix.1 hp
    rw [if_pos (List.isPrefixOf_iff_prefix.2 ⟨rest, by simp [publicUrlFor]⟩)]
    simp [publicUrlFor]

/-! ### Objects -/

/-- How a write ends, to the bucket or to the database. -/
inductive Outcome where
  | done
  | failed
  /-- It was made, but its answer was lost. -/
  | unacknowledged
  deriving DecidableEq

/-- Whether a write that ended so was made. -/
def Outcome.made : Outcome → Bool
  | .failed => false
  | _ => true

/-- The keys that hold an object. -/
abbrev Bucket : Type := JsString → Bool

namespace Bucket

variable (b : Bucket) (key key' : JsString)

/-- An object is stored. -/
def put : Bucket := Function.update b key true

/-- An object is removed. -/
def delete : Bucket := Function.update b key false

/-- `deleteObject`, which may fail. -/
def deleteIf (succeeds : Bool) : Bucket := if succeeds then b.delete key else b

variable {b key key'}

theorem put_self : b.put key key = true := Function.update_self ..

theorem put_of_ne (h : key' ≠ key) : b.put key key' = b key' := Function.update_of_ne h ..

theorem put_of_mem (h : b key' = true) : b.put key key' = true := by
  by_cases he : key' = key
  · rw [he, put_self]
  · rw [put_of_ne he, h]

theorem delete_self : b.delete key key = false := Function.update_self ..

theorem delete_of_ne (h : key' ≠ key) : b.delete key key' = b key' := Function.update_of_ne h ..

/-- Only the object that was to be removed may be missing. -/
theorem deleteIf_of_ne {succeeds : Bool} (h : key' ≠ key) :
    b.deleteIf key succeeds key' = b key' := by
  unfold deleteIf
  split
  · exact delete_of_ne h
  · rfl

end Bucket

end EasyBook.Storage

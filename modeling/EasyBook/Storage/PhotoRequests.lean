import EasyBook.Machine.World
import EasyBook.Storage.Model

/-!
# Dropping and re-homing photos

`deleteObjectsFor` and `rehomePhotos` of `venues.service.ts`, over whatever requests a model of the
service sends (`PhotoRequests`): they are written once, and the models of the service tell how much
they know of an answer.
-/

namespace EasyBook.Storage

open JsString Machine

/-- The requests by which objects are moved and dropped, and rows repointed. -/
structure PhotoRequests (Q : Type) (A : Q → Type) where
  copyObject : JsString → JsString → Q
  /-- The bucket says that it has copied. -/
  copied : ∀ {fromKey toKey}, A (copyObject fromKey toKey) → Bool
  deleteObject : JsString → Q
  repoint : List (Cuid × JsString) → Q
  /-- The database says that it has repointed. -/
  repointed : ∀ {moves}, A (repoint moves) → Bool

/-- The folder of the guards. -/
def venuesFolder : JsString := lit "venues/"

/-- Photos are moved to keys that are not staged. -/
def Homed (base : JsString) (moves : List (Cuid × JsString)) : Prop :=
  ∀ m ∈ moves, ∀ key, isStagedVenuePhotoKey key = true → m.2 ≠ publicUrlFor base key

namespace PhotoRequests

variable {Q : Type} {A : Q → Type} (R : PhotoRequests Q A) (base : JsString)

/-- `deleteObjectsFor`. -/
def deleteObjectsFor : List JsString → Task Q A Unit
  | [] => .done ()
  | url :: urls =>
    if base = [] then .done ()
    else match ownKey base venuesFolder url with
      | none => deleteObjectsFor urls
      | some key => do
        let _ ← .request (R.deleteObject key)
        deleteObjectsFor urls

/-- The loop of `rehomePhotos`: the rows whose objects were moved, with their new URLs. -/
def moveStaged (id : Cuid) : List VenuePhoto → Task Q A (List (Cuid × JsString))
  | [] => .done []
  | photo :: photos =>
    match ownKey base venuePhotoStagingPrefix photo.url with
    | none => moveStaged id photos
    | some key => do
      let target := venuePhotoKeyFor id key
      let out ← .request (R.copyObject key target)
      if R.copied out then
        let _ ← .request (R.deleteObject key)
        let moves ← moveStaged id photos
        .done ((photo.id, publicUrlFor base target) :: moves)
      else moveStaged id photos

/-- `rehomePhotos`, of a row with these photos, which `fresh` reads again. -/
def rehomePhotos {ρ : Type} (fresh : Task Q A ρ) (id : Cuid) (photos : List VenuePhoto) (row : ρ) :
    Task Q A ρ :=
  if base = [] then .done row
  else do
    let moves ← R.moveStaged base id photos
    if moves = [] then .done row
    else
      let out ← .request (R.repoint moves)
      if R.repointed out then fresh else .done row

/-! ### What is sent -/

variable {R base} {P : Q → Prop} {K : ∀ q, A q → Prop}

theorem asks_deleteObjectsFor (hdelete : ∀ key, P (R.deleteObject key)) (urls : List JsString) :
    (R.deleteObjectsFor base urls).Asks P K fun _ ↦ True := by
  induction urls with
  | nil => trivial
  | cons url urls ih =>
    rw [deleteObjectsFor]
    split
    · trivial
    · split
      · exact ih
      · exact ⟨hdelete _, fun _ _ ↦ ih⟩

theorem asks_moveStaged (hcopy : ∀ fromKey toKey, P (R.copyObject fromKey toKey))
    (hdelete : ∀ key, P (R.deleteObject key)) (id : Cuid) (photos : List VenuePhoto) :
    (R.moveStaged base id photos).Asks P K (Homed base) := by
  induction photos with
  | nil => exact fun _ h ↦ (List.not_mem_nil h).elim
  | cons photo photos ih =>
    rw [moveStaged]
    split
    · exact ih
    · next own hown =>
      refine .request_bind (hcopy _ _) fun out _ ↦ ?_
      split
      · refine .request_bind (hdelete _) fun _ _ ↦ ih.bind fun moves hmoves m hm ↦ ?_
        rcases List.mem_cons.1 hm with rfl | hm
        · intro key hstaged he
          rw [← publicUrlFor_inj.1 he, not_staged_venuePhotoKeyFor] at hstaged
          cases hstaged
        · exact hmoves m hm
      · exact ih

theorem asks_rehomePhotos {ρ : Type} {fresh : Task Q A ρ}
    (hcopy : ∀ fromKey toKey, P (R.copyObject fromKey toKey))
    (hdelete : ∀ key, P (R.deleteObject key))
    (hrepoint : ∀ moves, Homed base moves → P (R.repoint moves))
    (hfresh : fresh.Asks P K fun _ ↦ True) (id : Cuid) (photos : List VenuePhoto) (row : ρ) :
    (R.rehomePhotos base fresh id photos row).Asks P K fun _ ↦ True := by
  unfold rehomePhotos
  split
  · trivial
  · refine (asks_moveStaged hcopy hdelete id photos).bind fun moves hmoves ↦ ?_
    split
    · trivial
    · refine .request_bind (hrepoint moves hmoves) fun out _ ↦ ?_
      split
      · exact hfresh
      · trivial

end PhotoRequests

end EasyBook.Storage

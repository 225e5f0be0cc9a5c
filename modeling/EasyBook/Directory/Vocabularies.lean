import EasyBook.Directory.Staff

/-!
# Vocabularies and venues

The writers of `options.service.ts`, `venue-types.service.ts` and, of `venues.service.ts`, those
that touch the columns of a venue. Deleting a row of a vocabulary re-points its holders to the
fallback row of that vocabulary first.
-/

namespace EasyBook.Directory

open ReadCommitted ReadCommitted.Prog

/-- `OptionModel`: the vocabularies of people. -/
inductive OptionModel where
  | department
  | personnelRole
  deriving DecidableEq, Repr

/-- The vocabulary of a model. -/
def OptionModel.vocabulary : OptionModel → Vocabulary
  | .department => .department
  | .personnelRole => .personnelRole

/-! ### Rows of a vocabulary -/

/-- `mapWriteError` of both services. -/
def mapOptionError (e : DirectoryError) : DirectoryError :=
  if e = .uniqueViolation then .conflict .optionNameTaken else e

/-- Hand back the result of the last transaction, its error mapped by `f`. -/
def finish (f : DirectoryError → DirectoryError) : Except DirectoryError Reply → Call
  | .ok reply => .done (.ok reply)
  | .error e => .done (.error (f e))

/-- The row of a vocabulary that its services may touch. -/
def findEditableOption (v : Vocabulary) (id : Cuid) : Tx OptionRow := do
  let existing ← findFirst (.option v) fun r ↦
    decide (r.id = id) && r.deletedAt.isNone && !r.isSystemReserved
  require existing (.notFound .optionNotFound)

/-- The insertion of `create`. -/
def createOptionTx (v : Vocabulary) (name : JsString) : Tx Reply := do
  let created ← create (Tab.option v) fun _ ↦ newOption name false
  pure (.option created)

/-- The statements of `update`. -/
def updateOptionTx (v : Vocabulary) (id : Cuid) (name : JsString) : Tx Reply := do
  let existing ← findEditableOption v id
  let updated ← updateOne (.option v) (fun r ↦ decide (r.id = existing.id)) fun _ r ↦
    { r with name := name }
  pure (.option updated)

/-- `create` of either service. -/
def createOption (v : Vocabulary) (name : JsString) : Call :=
  .attempt (createOptionTx v name) (finish mapOptionError)

/-- `update` of either service. -/
def updateOption (v : Vocabulary) (id : Cuid) (name : JsString) : Call :=
  .attempt (updateOptionTx v id name) (finish mapOptionError)

/-- The last statement of a deletion. -/
def tombstone (v : Vocabulary) (id : Cuid) : Tx OptionRow :=
  updateOne (.option v) (fun r ↦ decide (r.id = id)) fun c r ↦ { r with deletedAt := some c }

/-! ### `OptionsService.softDelete` -/

/-- The option a staff account holds. -/
def SystemUser.option (u : SystemUser) : OptionModel → Cuid
  | .department => u.departmentId
  | .personnelRole => u.personnelRoleId

/-- File a staff account under another option. -/
def SystemUser.setOption (u : SystemUser) (model : OptionModel) (id : Cuid) : SystemUser :=
  match model with
  | .department => { u with departmentId := id }
  | .personnelRole => { u with personnelRoleId := id }

/-- The option a registration holds. -/
def LineUserRegistration.option (r : LineUserRegistration) : OptionModel → Cuid
  | .department => r.departmentId
  | .personnelRole => r.personnelRoleId

/-- File a registration under another option. -/
def LineUserRegistration.setOption (r : LineUserRegistration) (model : OptionModel) (id : Cuid) :
    LineUserRegistration :=
  match model with
  | .department => { r with departmentId := id }
  | .personnelRole => { r with personnelRoleId := id }

/-- `softDelete` of `OptionsService`, both queries before its transaction included. -/
def softDeleteOptionTx (model : OptionModel) (id : Cuid) : Tx Reply := do
  let existing ← findEditableOption model.vocabulary id
  let fallback ← require (← findReserved model.vocabulary (tombstoneName model.vocabulary))
    (.internalServerError .tombstoneRowMissing)
  let _ ← updateMany .systemUser (fun r ↦ decide (r.option model = existing.id)) fun _ r ↦
    r.setOption model fallback.id
  let _ ← updateMany .registration (fun r ↦ decide (r.option model = existing.id)) fun _ r ↦
    r.setOption model fallback.id
  let _ ← tombstone model.vocabulary existing.id
  pure .done

/-- `softDelete` of `OptionsService`. -/
def softDeleteOption (model : OptionModel) (id : Cuid) : Call :=
  .attempt (softDeleteOptionTx model id) .done

/-! ### `VenueTypesService.softDelete` -/

/-- `resolveTombstoneId`: a concurrent delete that created the row first is its own answer. -/
def resolveTombstoneId (k : Cuid → Call) : Call :=
  .attempt (findOrCreateReserved .venueType (tombstoneName .venueType)) fun r ↦
    match r with
    | .ok (.option row) => k row.id
    | .ok _ => .done (.error .unreachable)
    -- Somebody else has made the row meanwhile: it is read, and without it the error stands.
    | .error .uniqueViolation =>
      .attempt
        (do
          let winner ← findReserved .venueType (tombstoneName .venueType)
          pure (winner.elim .missing .option))
        fun r ↦
          match r with
          | .ok (.option winner) => k winner.id
          | .ok _ => .done (.error .uniqueViolation)
          | .error e => .done (.error e)
    | .error e => .done (.error e)

/-- The transaction of `softDelete`. -/
def softDeleteVenueTypeTx (id fallbackId : Cuid) : Tx Reply := do
  let _ ← updateMany .venue (fun r ↦ decide (r.venueTypeId = id)) fun _ r ↦
    { r with venueTypeId := fallbackId }
  let _ ← tombstone .venueType id
  pure .done

/-- `softDelete` of `VenueTypesService`. -/
def softDeleteVenueType (id : Cuid) : Call :=
  .attempt (do pure (.option (← findEditableOption .venueType id))) fun r ↦
    match r with
    | .ok (.option existing) =>
      resolveTombstoneId fun fallbackId ↦
        .attempt (softDeleteVenueTypeTx existing.id fallbackId) .done
    | r => .done r

/-! ### Venues -/

/-- `CreateVenueDto` without photos. -/
structure CreateVenueDto where
  name : JsString
  venueTypeId : Cuid
  capacity : ℤ
  location : Option JsString
  description : Option JsString
  amenityIds : List ℤ
  deriving DecidableEq

/-- `UpdateVenueDto` without photos: a column is `none` if the patch does not name it. -/
structure UpdateVenueDto where
  name : Option JsString
  venueTypeId : Option Cuid
  capacity : Option ℤ
  location : Option (Option JsString)
  description : Option (Option JsString)
  amenityIds : Option (List ℤ)
  deriving DecidableEq

/-- `assertAssignableVenueType`. -/
def assertAssignableVenueType (id : Cuid) : Tx Unit := do
  let row ← findFirst (.option .venueType) fun r ↦
    decide (r.id = id) && r.deletedAt.isNone && !r.isSystemReserved
  let _ ← require row (.badRequest .invalidVenueType)

/-- `assertActiveAmenities`. -/
def assertActiveAmenities (ids : List ℤ) : Tx Unit := do
  if ids ≠ [] then
    let active ← inquire (.amenities ids)
    refuse (active = false) (.badRequest .invalidAmenity)

/-- The row that `create` inserts. -/
def newVenue (dto : CreateVenueDto) (id : Cuid) : Venue where
  id := id
  name := dto.name
  venueTypeId := dto.venueTypeId
  capacity := dto.capacity
  location := dto.location
  description := dto.description
  deletedAt := none

/-- The transaction of `create`. -/
def createVenueTx (dto : CreateVenueDto) : Tx Reply := do
  assertAssignableVenueType dto.venueTypeId
  assertActiveAmenities dto.amenityIds
  let created ← create Tab.venue fun _ ↦ newVenue dto
  pure (.venue created)

/-- The undeleted venue. -/
def findActiveVenue (id : Cuid) : Tx Venue := do
  let existing ← findFirst .venue fun r ↦ decide (r.id = id) && r.deletedAt.isNone
  require existing (.notFound .venueNotFound)

/-- The update of a venue. -/
def editVenue (dto : UpdateVenueDto) (r : Venue) : Venue :=
  { r with
    name := dto.name.getD r.name
    venueTypeId := dto.venueTypeId.getD r.venueTypeId
    capacity := dto.capacity.getD r.capacity
    location := dto.location.getD r.location
    description := dto.description.getD r.description }

/-- The statements of `update`. -/
def updateVenueTx (id : Cuid) (dto : UpdateVenueDto) : Tx Reply := do
  let existing ← findActiveVenue id
  dto.venueTypeId.elim (pure ()) assertAssignableVenueType
  assertActiveAmenities (dto.amenityIds.getD [])
  let updated ← updateOne .venue (fun r ↦ decide (r.id = existing.id)) fun _ ↦ editVenue dto
  pure (.venue updated)

/-- The statements of `softDelete`. -/
def softDeleteVenueTx (id : Cuid) : Tx Reply := do
  let existing ← findActiveVenue id
  let _ ← updateOne .venue (fun r ↦ decide (r.id = existing.id)) fun c r ↦
    { r with deletedAt := some c }
  pure .done

/-- `mapWriteError` of `VenuesService`. -/
def mapVenueError (e : DirectoryError) : DirectoryError :=
  if e = .uniqueViolation then .conflict .venueNameTaken else e

/-- `create` of `VenuesService`. -/
def createVenue (dto : CreateVenueDto) : Call :=
  .attempt (createVenueTx dto) (finish mapVenueError)

/-- `update` of `VenuesService`. -/
def updateVenue (id : Cuid) (dto : UpdateVenueDto) : Call :=
  .attempt (updateVenueTx id dto) (finish mapVenueError)

/-- `softDelete` of `VenuesService`. -/
def softDeleteVenue (id : Cuid) : Call := .attempt (softDeleteVenueTx id) .done

end EasyBook.Directory

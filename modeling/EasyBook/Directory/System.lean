import EasyBook.Directory.Vocabularies
import EasyBook.ReadCommitted.Calls

/-!
# The directory system

All writers of the directory tables as one system.

A session is called once, so what the sessions of a run are called with is a function `calls` from
sessions to calls; the laws below speak of the run under a given `calls`.
-/

namespace EasyBook.Directory

open ReadCommitted ReadCommitted.Prog

/-- The calls of the directory. -/
inductive Op where
  | upsertOnFollow (lineUserId : JsString) (profile : LineProfile)
  | softDeleteByLineUserId (lineUserId : JsString)
  | register (lineUserId : JsString) (dto : RegistrationDto)
  | updateRegistration (lineUserId : JsString) (dto : RegistrationDto)
  | getStatus (lineUserId : JsString) (profile : Option LineProfile)
  | patchSettings (lineUserId : JsString) (dto : SettingsDto)
  | updateAccess (id : Cuid) (access : AppAccess) (actor : AdminActor) (reason : Option JsString)
  | updateRegistrationByAdmin (id : Cuid) (dto : RegistrationDto) (actor : AdminActor)
  | createSystemUser (actor : Actor) (dto : CreateSystemUserDto)
  | updateSystemUser (actor : Actor) (id : Cuid) (patch : UpdateSystemUserDto)
  | softDeleteSystemUser (actor : Actor) (id : Cuid)
  | restoreSystemUser (id : Cuid)
  | resetPassword (actor : Actor) (id : Cuid)
  | changeOwnPassword (id : Cuid) (currentPassword newPassword : JsString)
  | createSuperAdmin (credentials : Credentials) (force : Bool)
  | createOption (v : Vocabulary) (name : JsString)
  | updateOption (v : Vocabulary) (id : Cuid) (name : JsString)
  | softDeleteOption (model : OptionModel) (id : Cuid)
  | softDeleteVenueType (id : Cuid)
  | createVenue (dto : CreateVenueDto)
  | updateVenue (id : Cuid) (dto : UpdateVenueDto)
  | softDeleteVenue (id : Cuid)
  deriving DecidableEq

/-- What each call does. -/
def service : Op → Call
  | .upsertOnFollow lineUserId profile => upsertOnFollow lineUserId profile
  | .softDeleteByLineUserId lineUserId => softDeleteByLineUserId lineUserId
  | .register lineUserId dto => register lineUserId dto
  | .updateRegistration lineUserId dto => updateRegistration lineUserId dto
  | .getStatus lineUserId profile => getStatus lineUserId profile
  | .patchSettings lineUserId dto => patchSettings lineUserId dto
  | .updateAccess id access actor reason => updateAccess id access actor reason
  | .updateRegistrationByAdmin id dto actor => updateRegistrationByAdmin id dto actor
  | .createSystemUser actor dto => createSystemUser actor dto
  | .updateSystemUser actor id patch => updateSystemUser actor id patch
  | .softDeleteSystemUser actor id => softDeleteSystemUser actor id
  | .restoreSystemUser id => restoreSystemUser id
  | .resetPassword actor id => resetPassword actor id
  | .changeOwnPassword id currentPassword newPassword =>
    changeOwnPassword id currentPassword newPassword
  | .createSuperAdmin credentials force => createSuperAdmin credentials force
  | .createOption v name => createOption v name
  | .updateOption v id name => updateOption v id name
  | .softDeleteOption model id => softDeleteOption model id
  | .softDeleteVenueType id => softDeleteVenueType id
  | .createVenue dto => createVenue dto
  | .updateVenue id dto => updateVenue id dto
  | .softDeleteVenue id => softDeleteVenue id

/-- The directory tables and everything that writes them. -/
def directory : System Row DirectoryError Empty Ans Reply Op where
  schema := schema
  service := service
  loses e := decide (e = .writeConflict ∨ e = .unavailable)

/-- The state of the tables and of every call under way. -/
abbrev DirectoryWorld : Type := World Row DirectoryError Empty Ans Reply

/-- A step of a schedule. -/
abbrev DirectoryEvent : Type := Event DirectoryError Ans Op

/-! ### Sample runs -/

/-- The world after a schedule that can be run. -/
def after (es : List DirectoryEvent) : DirectoryWorld :=
  (directory.exec es World.init).getD World.init

theorem reachable_after (es : List DirectoryEvent) : directory.Reachable (after es) := by
  unfold after
  rcases h : directory.exec es World.init with - | w
  · exact .init
  · exact System.Reachable.exec .init h

/-- The world after a schedule whose steps meet `allow`. -/
def afterUnder (allow : DirectoryWorld → DirectoryEvent → Prop) [∀ w e, Decidable (allow w e)]
    (es : List DirectoryEvent) : DirectoryWorld :=
  (directory.execUnder allow es World.init).getD World.init

theorem reach_afterUnder (allow : DirectoryWorld → DirectoryEvent → Prop)
    [∀ w e, Decidable (allow w e)] (es : List DirectoryEvent) :
    directory.Reach allow (afterUnder allow es) := by
  unfold afterUnder
  rcases h : directory.execUnder allow es World.init with - | w
  · exact .init
  · exact .execUnder .init h

/-- What the sessions of a schedule are called with. -/
abbrev calledIn (es : List DirectoryEvent) : ℕ → Op := callsIn (.softDeleteVenue 0) es

namespace Sample

/-- LINE takes everything; passwords and salts are always the same. -/
def oracle : ∀ q, Ans q
  | .applyRichMenu _ _ => true
  | .push _ => true
  | .salt => 0
  | .temporaryPassword => []
  | .amenities _ => true

/-- Session `t` takes `n` steps. -/
def steps (t n : ℕ) : List DirectoryEvent := List.replicate n (.run t)

/-- A department under key 0 and a personnel role under key 1. -/
def options : List DirectoryEvent :=
  .call 0 (.createOption .department []) :: steps 0 3 ++
    .call 1 (.createOption .personnelRole []) :: steps 1 3

/-- A registration for them. -/
def registration : RegistrationDto := ⟨[], [], [], 0, 1⟩

/-- A super admin. -/
def superAdmin : Actor := ⟨0, .superAdmin, none⟩

/-- A new viewer. -/
def viewer : CreateSystemUserDto := ⟨[1], [], [], .viewer, 0, 1, none, none⟩

/-- The account of a viewer, under key 2, with the empty temporary password. -/
def account : List DirectoryEvent :=
  options ++ .call 2 (.createSystemUser superAdmin viewer) :: .answer 2 oracle ::
    .answer 2 oracle :: steps 2 5

end Sample

end EasyBook.Directory

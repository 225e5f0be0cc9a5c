import EasyBook.Machine.Run
import EasyBook.Storage.Bucket

/-!
# Avatars

`avatar-upload.service.ts` and the writers of `profilePictureUrl`, one call after the other, with
every pattern of failures of the bucket and of the database.

An upload deletes the object that the uploader's row named before, on the evidence of its URL alone
(`deletePreviousAvatar`). `lost_of_step` says which objects a call may delete. The guard is on the
folder of all avatars, so that an upload deletes someone else's object if the uploader's row holds
the same URL as another one; `replaceAvatar_of_careful` says that nothing else goes wrong.
-/

namespace EasyBook.Storage

open JsString Machine

/-! ### Accounts and calls -/

/-- `R2_PUBLIC_BASE_URL`, and the `@IsUrl` of the DTOs. -/
structure AvatarConfig where
  base : JsString
  isUrl : JsString → Bool

/-- A value of `profilePictureUrl` that the DTOs admit. -/
structure ProfilePictureUrl (isUrl : JsString → Bool) where
  val : JsString
  maxLength : val.length ≤ 2048
  isUrl_val : isUrl val = true

/-- The columns of `system_users` that the avatars depend on. -/
structure AvatarOwner where
  deleted : Bool
  profilePictureUrl : Option JsString
  deriving DecidableEq

/-- The accounts and the objects. -/
structure AvatarState where
  users : Cuid → Option AvatarOwner
  bucket : Bucket

/-- The calls, with what the bucket and the database do in them. An absent field of a patch is
`none`. -/
inductive AvatarOp (c : AvatarConfig) where
  /-- `POST /auth/system/me/avatar`: the new key gets the digits `hex`. -/
  | upload (user : Cuid) (file : File) (hex : JsString) (put write : Outcome) (deleted : Bool)
  /-- `PATCH /auth/system/me`. -/
  | updateOwnProfile (user : Cuid) (patch : Option (Option (ProfilePictureUrl c.isUrl)))
      (write : Outcome)
  /-- `PATCH /system-users/:id`. -/
  | update (id : Cuid) (patch : Option (Option (ProfilePictureUrl c.isUrl))) (write : Outcome)

/-- The account whose row a call may change. -/
def AvatarOp.account {c : AvatarConfig} : AvatarOp c → Cuid
  | .upload user _ _ _ _ _ => user
  | .updateOwnProfile user _ _ => user
  | .update id _ _ => id

namespace AvatarState

variable (s : AvatarState)

/-- The row of an account that is not deleted. -/
def active (id : Cuid) : Option AvatarOwner := (s.users id).filter (!·.deleted)

/-- The stored `profilePictureUrl`. -/
def picture (id : Cuid) : Option JsString := (s.users id).bind (·.profilePictureUrl)

/-- `systemUser.update` of the one column. -/
def setPicture (id : Cuid) (url : Option JsString) (write : Outcome) : AvatarState :=
  if write.made then
    let row := (s.users id).map fun u ↦ { u with profilePictureUrl := url }
    { s with users := Function.update s.users id row }
  else s

end AvatarState

/-! ### The services -/

/-- The folder of the guard in `deletePreviousAvatar`. -/
def avatarFolder : JsString := lit "avatars/"

/-- `deletePreviousAvatar`. An empty string is falsy. -/
def deletePreviousAvatar (base : JsString) (previousUrl : Option JsString) (deleted : Bool)
    (b : Bucket) : Bucket :=
  match previousUrl with
  | none => b
  | some url =>
    if url = [] ∨ base = [] then b
    else match ownKey base avatarFolder url with
      | none => b
      | some key => b.deleteIf key deleted

variable (c : AvatarConfig)

/-- `replaceAvatar`, and the URL that its reply names. -/
def replaceAvatar (s : AvatarState) (user : Cuid) (file : File) (hex : JsString)
    (put write : Outcome) (deleted : Bool) : AvatarState × Option JsString :=
  match s.active user, file.sniffed with
  | some me, some type =>
    let key := buildAvatarKey user hex type
    let url := publicUrlFor c.base key
    -- The object is there whenever the upload has reached the bucket, whatever its answer.
    let stored := if put.made then { s with bucket := s.bucket.put key } else s
    if put = .done then
      let updated := stored.setPicture user (some url) write
      if write = .done then
        ({ updated with bucket :=
            deletePreviousAvatar c.base me.profilePictureUrl deleted updated.bucket }, some url)
      -- The row was not written, so the new object is taken back.
      else ({ updated with bucket := updated.bucket.deleteIf key deleted }, none)
    else (stored, none)
  | _, _ => (s, none)

/-- `updateOwnProfile` and the write of `SystemUsersService.update`. A write that the policy
refuses is a failed one. -/
def patchPicture (s : AvatarState) (id : Cuid) {isUrl : JsString → Bool}
    (patch : Option (Option (ProfilePictureUrl isUrl))) (write : Outcome) : AvatarState :=
  match s.active id, patch with
  | some _, some url => s.setPicture id (url.map (·.val)) write
  | _, _ => s

/-- A call, and the URL that its reply names if it is an upload. -/
def avatarCall (s : AvatarState) : AvatarOp c → AvatarState × Option JsString
  | .upload user file hex put write deleted => replaceAvatar c s user file hex put write deleted
  | .updateOwnProfile user patch write => (patchPicture s user patch write, none)
  | .update id patch write => (patchPicture s id patch write, none)

/-- The state after a call. -/
def avatarStep (s : AvatarState) (op : AvatarOp c) : AvatarState := (avatarCall c s op).1

/-! ### What the calls do -/

/-- The digits are random: no row names the new key before it is issued. -/
def FreshKey (s : AvatarState) : AvatarOp c → Prop
  | .upload user file hex _ _ _ => ∀ type, file.sniffed = some type →
      ∀ v, s.picture v ≠ some (publicUrlFor c.base (buildAvatarKey user hex type))
  | _ => True

/-- When an upload is written to the row, the avatar that the row named before is named by no
other row. -/
def Careful (s : AvatarState) : AvatarOp c → Prop
  | .upload user _ _ _ write _ => write = .done →
      ∀ key, avatarFolder.isPrefixOf key = true → s.picture user = some (publicUrlFor c.base key) →
        ∀ v, v ≠ user → s.picture v ≠ some (publicUrlFor c.base key)
  | _ => True

variable {c} {s : AvatarState} {op : AvatarOp c} {key : JsString}

theorem AvatarState.picture_of_active {id : Cuid} {u : AvatarOwner} (h : s.active id = some u) :
    s.picture id = u.profilePictureUrl := by
  have hu : s.users id = some u := (Option.filter_eq_some_iff.1 h).1
  simp [picture, hu]

@[simp] theorem AvatarState.setPicture_bucket {id : Cuid} {url : Option JsString}
    {write : Outcome} : (s.setPicture id url write).bucket = s.bucket := by
  unfold setPicture
  split <;> rfl

theorem AvatarState.picture_setPicture {id : Cuid} {u : AvatarOwner} {url : Option JsString}
    {write : Outcome} (h : s.users id = some u) (hw : write = .done) :
    (s.setPicture id url write).picture id = url := by
  simp [picture, setPicture, hw, Outcome.made, h]

theorem AvatarState.setPicture_users_of_ne {id v : Cuid} {url : Option JsString}
    {write : Outcome} (h : v ≠ id) : (s.setPicture id url write).users v = s.users v := by
  unfold setPicture
  split
  · exact Function.update_of_ne h ..
  · rfl

/-- A call changes no row but that of its account. -/
theorem users_of_ne_account {v : Cuid} (h : v ≠ op.account) :
    (avatarStep c s op).users v = s.users v := by
  cases op with
  | upload user file hex put write deleted =>
    simp only [avatarStep, avatarCall, replaceAvatar]
    split
    · have hput : ∀ b : Bucket,
          (if put.made then { s with bucket := b } else s).users v = s.users v := by
        intro b
        split <;> rfl
      split
      · split <;> exact (AvatarState.setPicture_users_of_ne h).trans (hput _)
      · exact hput _
    · rfl
  | updateOwnProfile id patch write | update id patch write =>
    simp only [avatarStep, avatarCall, patchPicture]
    split
    · exact AvatarState.setPicture_users_of_ne h
    · rfl

theorem picture_of_ne_account {v : Cuid} (h : v ≠ op.account) :
    (avatarStep c s op).picture v = s.picture v := by
  rw [AvatarState.picture, users_of_ne_account h, AvatarState.picture]

@[simp] theorem patchPicture_bucket {id : Cuid} {isUrl : JsString → Bool}
    {patch : Option (Option (ProfilePictureUrl isUrl))} {write : Outcome} :
    (patchPicture s id patch write).bucket = s.bucket := by
  unfold patchPicture
  split
  · exact AvatarState.setPicture_bucket
  · rfl

/-- `deletePreviousAvatar` deletes the object that the URL names, and only from the folder. -/
theorem lost_of_deletePrevious {base : JsString} {url : Option JsString} {deleted : Bool}
    {b : Bucket} (h : b key = true) (h' : deletePreviousAvatar base url deleted b key = false) :
    url = some (publicUrlFor base key) ∧ avatarFolder.isPrefixOf key = true := by
  cases url with
  | none => exact absurd h (by simpa [deletePreviousAvatar] using h')
  | some url =>
    rw [deletePreviousAvatar] at h'
    split at h'
    · exact absurd h (by simp [h'])
    · cases hown : ownKey base avatarFolder url with
      | none => exact absurd h (by simpa [hown] using h')
      | some own =>
        obtain ⟨rfl, hfolder⟩ := ownKey_eq_some.1 hown
        simp only [hown] at h'
        have hkey : key = own := by
          by_contra hne
          rw [Bucket.deleteIf_of_ne hne, h] at h'
          cases h'
        exact ⟨hkey ▸ rfl, hkey ▸ hfolder⟩

/-- The objects that a call may delete: the one that an upload has just stored, and the avatar
that the uploader's row named before and does not name any more. -/
theorem lost_of_step (h : s.bucket key = true) (h' : (avatarStep c s op).bucket key = false) :
    ∃ user file hex put write deleted type, op = .upload user file hex put write deleted ∧
      file.sniffed = some type ∧ (key = buildAvatarKey user hex type ∨
        write = .done ∧ avatarFolder.isPrefixOf key = true ∧
          s.picture user = some (publicUrlFor c.base key) ∧
          (avatarStep c s op).picture user =
            some (publicUrlFor c.base (buildAvatarKey user hex type))) := by
  cases op with
  | updateOwnProfile user patch write => simp [avatarStep, avatarCall, h] at h'
  | update id patch write => simp [avatarStep, avatarCall, h] at h'
  | upload user file hex put write deleted =>
    simp only [avatarStep, avatarCall, replaceAvatar] at h' ⊢
    split at h'
    · next me type hme htype =>
      refine ⟨user, file, hex, put, write, deleted, type, rfl, htype, ?_⟩
      have hput : (if put.made then
          { s with bucket := s.bucket.put (buildAvatarKey user hex type) } else s).bucket key
          = true := by
        split
        · exact Bucket.put_of_mem h
        · exact h
      split at h'
      · next hput' =>
        split at h'
        · next hwrite =>
          obtain ⟨hprev, hfolder⟩ :=
            lost_of_deletePrevious (by rw [AvatarState.setPicture_bucket]; exact hput) h'
          have hrow : s.users user = some me := (Option.filter_eq_some_iff.1 hme).1
          refine .inr ⟨hwrite, hfolder, by rw [AvatarState.picture_of_active hme, hprev], ?_⟩
          simp only [hput', hwrite, if_true]
          exact AvatarState.picture_setPicture (by split <;> exact hrow) rfl
        · left
          by_contra hne
          dsimp only at h'
          rw [Bucket.deleteIf_of_ne hne, AvatarState.setPicture_bucket, hput] at h'
          cases h'
      · rw [hput] at h'
        cases h'
    · rw [h] at h'
      cases h'

/-! ### Uploads -/

/-- An upload deletes no object that another row names. -/
def SparesOthers (s : AvatarState) : AvatarOp c → Prop
  | op@(.upload user _ _ _ _ _) => ∀ v key, v ≠ user →
      s.picture v = some (publicUrlFor c.base key) → s.bucket key = true →
        (avatarStep c s op).bucket key = true
  | _ => True

/-- The URL that an upload returns names an object as long as the row of the uploader holds it. -/
def UrlKept (s : AvatarState) (op : AvatarOp c) (ops : List (AvatarOp c)) : Prop :=
  ∀ user file hex put write deleted, op = .upload user file hex put write deleted →
    ∀ url, (avatarCall c s op).2 = some url →
      WhileHolds (avatarStep c) (fun s' ↦ s'.picture user = some url)
        (fun s' ↦ ∃ key, url = publicUrlFor c.base key ∧ s'.bucket key = true)
        (avatarStep c s op) ops

/-- What an upload returns is the URL of the object it has stored, which its row now holds. -/
theorem returned_of_upload {user : Cuid} {file : File} {hex : JsString} {put write : Outcome}
    {deleted : Bool} {url : JsString}
    (h : (replaceAvatar c s user file hex put write deleted).2 = some url) :
    ∃ me type, s.active user = some me ∧ file.sniffed = some type ∧
      url = publicUrlFor c.base (buildAvatarKey user hex type) ∧ put = .done ∧ write = .done := by
  unfold replaceAvatar at h
  split at h
  · next me type hme htype =>
    dsimp only at h
    split at h
    · next hput =>
      split at h
      · next hwrite => exact ⟨me, type, hme, htype, (Option.some.inj h).symm, hput, hwrite⟩
      · cases h
    · cases h
  · cases h

/-- The object that an upload has stored outlives the deletion of the one before. -/
theorem exists_of_upload {user : Cuid} {file : File} {hex : JsString} {put write : Outcome}
    {deleted : Bool} {url : JsString}
    (hfresh : FreshKey c s (.upload user file hex put write deleted))
    (h : (replaceAvatar c s user file hex put write deleted).2 = some url) :
    ∃ key, url = publicUrlFor c.base key ∧
      (replaceAvatar c s user file hex put write deleted).1.bucket key = true := by
  obtain ⟨me, type, hme, htype, rfl, rfl, rfl⟩ := returned_of_upload h
  refine ⟨_, rfl, ?_⟩
  by_contra hlost
  simp only [replaceAvatar, hme, htype, if_true, Outcome.made, AvatarState.setPicture_bucket]
    at hlost
  obtain ⟨hprev, -⟩ := lost_of_deletePrevious Bucket.put_self (Bool.not_eq_true _ ▸ hlost)
  exact hfresh type htype user (by rw [AvatarState.picture_of_active hme, hprev])

/-- A careful upload deletes no object that a row named which still names it. -/
theorem kept_of_step {user : Cuid} (hfresh : FreshKey c s op) (hcare : Careful c s op)
    (hheld : s.picture user = some (publicUrlFor c.base key)) (h : s.bucket key = true)
    (hstill : (avatarStep c s op).picture user = some (publicUrlFor c.base key)) :
    (avatarStep c s op).bucket key = true := by
  by_contra hlost
  obtain ⟨w, file, hex, put, write, deleted, type, rfl, htype,
      rfl | ⟨hwrite, hfolder, hprev, hnow⟩⟩ := lost_of_step h (Bool.not_eq_true _ ▸ hlost)
  · exact hfresh type htype user hheld
  · by_cases hw : user = w
    · subst hw
      rw [hstill] at hnow
      exact hfresh type htype user (hheld.trans hnow)
    · exact hcare hwrite key hfolder hprev user hw hheld

/-- A careful upload deletes no object that the row of another user names. -/
theorem sparesOthers_of_careful (hfresh : FreshKey c s op) (hcare : Careful c s op) :
    SparesOthers s op := by
  cases op with
  | updateOwnProfile user patch write => trivial
  | update id patch write => trivial
  | upload user file hex put write deleted =>
    intro v key hv hheld h
    by_contra hlost
    obtain ⟨w, _, _, _, _, _, type, hop, htype, hkey⟩ := lost_of_step h (Bool.not_eq_true _ ▸ hlost)
    obtain ⟨rfl, rfl, rfl, rfl, rfl, rfl⟩ := AvatarOp.upload.inj hop
    rcases hkey with rfl | ⟨hwrite, hfolder, hprev, -⟩
    · exact hfresh type htype v hheld
    · exact hcare hwrite key hfolder hprev v hv hheld

/-- What an upload has returned is kept as long as the calls after it are careful. -/
theorem urlKept_of_careful {ops : List (AvatarOp c)} (hfresh : FreshKey c s op)
    (hafter : Each (avatarStep c) (fun s op ↦ FreshKey c s op ∧ Careful c s op)
      (avatarStep c s op) ops) : UrlKept s op ops := by
  rintro user file hex put write deleted rfl url hurl
  refine WhileHolds.of_step (fun s op hH hQ hC hH' ↦ ?_)
    (fun _ ↦ exists_of_upload hfresh hurl) hafter
  obtain ⟨key, rfl, hmem⟩ := hQ
  exact ⟨key, rfl, kept_of_step hC.1 hC.2 hH hmem hH'⟩

/-- In a run of careful uploads no upload deletes an object that another row names, and what an
upload returns names an object as long as the row of the uploader holds it. -/
theorem replaceAvatar_of_careful {ops : List (AvatarOp c)}
    (hfresh : Each (avatarStep c) (FreshKey c) s ops)
    (hcare : Each (avatarStep c) (Careful c) s ops) :
    Along (avatarStep c) (fun s op ops ↦ SparesOthers s op ∧ UrlKept s op ops) s ops :=
  Along.of_each (fun _ _ _ hC hafter ↦
    ⟨sparesOthers_of_careful hC.1 hC.2, urlKept_of_careful hC.1 hafter⟩) (hfresh.and hcare)

/-- A bucket behind a custom domain. -/
private def exampleConfig : AvatarConfig where
  base := lit "https://cdn.example.com"
  isUrl url := (lit "https://").isPrefixOf url

/-- Two accounts without a picture, and an empty bucket. -/
private def exampleState : AvatarState where
  users id := if id = 1 ∨ id = 2 then some ⟨false, none⟩ else none
  bucket _ := false

private theorem exampleState_picture (v : Cuid) (url : JsString) :
    exampleState.picture v ≠ some url := by
  by_cases hrow : v = 1 ∨ v = 2 <;> simp [AvatarState.picture, exampleState, hrow]

/-- A file with the signature of a PNG. -/
private def exampleFile : File := ⟨some .png, [0x89, 0x50, 0x4e, 0x47, 0x0d, 0x0a, 0x1a, 0x0a]⟩

/-- An account that replaces its avatar. -/
theorem replaceAvatar_of_careful_twice :
    let ops : List (AvatarOp exampleConfig) :=
      [.upload 1 exampleFile (lit "0123456789abcdef0123456789abcdef") .done .done true,
        .upload 1 exampleFile (lit "fedcba9876543210fedcba9876543210") .done .done true]
    Along (avatarStep exampleConfig) (fun s op ops ↦ SparesOthers s op ∧ UrlKept s op ops)
      exampleState ops := by
  refine replaceAvatar_of_careful ⟨?_, ?_, trivial⟩ ⟨?_, ?_, trivial⟩
  · intro type _ v hv
    exact exampleState_picture v _ hv
  · intro type htype v hv
    obtain rfl : ImageType.png = type := Option.some.inj htype
    by_cases h1 : v = 1
    · subst h1
      exact absurd hv (by decide)
    · rw [picture_of_ne_account h1] at hv
      exact exampleState_picture v _ hv
  · intro _ key _ _ v _ hv
    exact exampleState_picture v _ hv
  · intro _ key _ _ v h1 hv
    rw [picture_of_ne_account h1] at hv
    exact exampleState_picture v _ hv

/-! ### A shared avatar -/

/-- The avatar of the first account. -/
private def exampleUrl : ProfilePictureUrl exampleConfig.isUrl where
  val := lit "https://cdn.example.com/avatars/c1/0123456789abcdef0123456789abcdef.png"
  maxLength := by decide
  isUrl_val := by decide

/-- The second account names the avatar of the first one as its own, and uploads another. -/
private def exampleOps : List (AvatarOp exampleConfig) :=
  [.upload 1 exampleFile (lit "0123456789abcdef0123456789abcdef") .done .done true,
    .updateOwnProfile 2 (some (some exampleUrl)) .done,
    .upload 2 exampleFile (lit "fedcba9876543210fedcba9876543210") .done .done true]

/-- The upload of the second account deletes the avatar that the row of the first one names. -/
theorem upload_deletes_shared_avatar :
    Each (avatarStep exampleConfig) (FreshKey exampleConfig) exampleState exampleOps ∧
      ¬ Along (avatarStep exampleConfig) (fun s op ops ↦ SparesOthers s op ∧ UrlKept s op ops)
        exampleState exampleOps := by
  refine ⟨⟨?_, trivial, ?_, trivial⟩, fun h ↦ ?_⟩
  · intro type _ v hv
    exact exampleState_picture v _ hv
  · intro type htype v hv
    obtain rfl : ImageType.png = type := Option.some.inj htype
    by_cases h1 : v = 1
    · subst h1
      exact absurd hv (by decide)
    · by_cases h2 : v = 2
      · subst h2
        exact absurd hv (by decide)
      · rw [picture_of_ne_account h2, picture_of_ne_account h1] at hv
        exact exampleState_picture v _ hv
  · obtain ⟨-, -, ⟨hspares, -⟩, -⟩ := h
    have hkept := hspares 1 (lit "avatars/c1/0123456789abcdef0123456789abcdef.png") (by decide)
      (by decide) (by decide)
    exact absurd hkept (by decide)

end EasyBook.Storage

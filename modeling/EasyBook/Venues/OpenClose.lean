import EasyBook.Venues.Model

/-!
# Closing and reopening a venue

The calls of `venues.service.ts` on any number of venues, interleaved request by request. `close`
and `reopen` judge the venue in one request and write it, by its id, in another, so what they
promise holds where the row is still as the call has read it (`AsRead`): closings and reopenings
alternate then, each closing is notified once, and a deleted venue stays as it is.

Whatever the interleaving, a venue has a reason to be closed exactly while it is closed.
-/

namespace EasyBook.Venues

open JsString Machine Machine.Task Storage

/-! ### The law -/

/-- The call `t` has been told of the venue what would be said of it now. -/
def FoundAsIs (w : VenueWorld) (t : ℕ) (id : Cuid) : Prop :=
  ∃ th, w.threads t = some th ∧
    (⟨.findVenue id, (w.state.active id).map (·.isOpen)⟩ : VenueExchange) ∈ th.history

/-- Whatever is written is still as its call has read it: nobody has closed, reopened or deleted a
venue that is closed or reopened, and a venue that is edited or deleted, or whose photos are moved,
is not there any more only if the call has been told so. -/
def AsRead (w : VenueWorld) : VenueEvent → Prop
  | .exchange t ⟨.setOpen id _ _, some _⟩ => FoundAsIs w t id
  | .exchange t ⟨.updateVenue id _, some _⟩ => w.state.active id = none → FoundAsIs w t id
  | .exchange t ⟨.setDeletedAt id _, true⟩ => w.state.active id = none → FoundAsIs w t id
  | .exchange t ⟨.repoint moves, true⟩ =>
    ∀ id venue, w.state.rows id = some venue → (∃ p ∈ venue.photos, p.id ∈ moves.map (·.1)) →
      w.state.active id = none → FoundAsIs w t id
  | _ => True

/-- The notification of a closed venue is created. -/
def Notified : VenueEvent → Prop
  | .exchange _ ⟨.notify _, created⟩ => created = true
  | _ => True

/-- To what the exchange switches the venue. -/
def switchOf (id : Cuid) : VenueExchange → Option Bool
  | ⟨.setOpen id' isOpen _, some _⟩ => if id' = id then some isOpen else none
  | _ => none

/-- The switches of a venue, the last one first. -/
def switches (id : Cuid) : List VenueEvent → List Bool
  | [] => []
  | .exchange _ e :: log => (switchOf id e).toList ++ switches id log
  | _ :: log => switches id log

/-- The exchange closes the venue. -/
def isClosing (id : Cuid) (e : VenueExchange) : Bool := decide (switchOf id e = some false)

/-- The exchange is to create a notification of the venue. -/
def isNotice (id : Cuid) : VenueExchange → Bool
  | ⟨.notify n, _⟩ => decide (n.venueId = id)
  | _ => false

/-- The exchanges switch no venue, and are to notify of none. -/
def Silent (h : List VenueExchange) : Prop :=
  ∀ x ∈ h, ∀ id, switchOf id x = none ∧ isNotice id x = false

/-- What a step of a lawful run does to a venue. -/
structure Lawful (id : Cuid) (w w' : VenueWorld) (e : VenueEvent) : Prop where
  /-- A closing takes it from open to closed, a reopening from closed to open. -/
  switched : ∀ t isOpen reason row, e = .exchange t ⟨.setOpen id isOpen reason, some row⟩ →
    ∃ venue, w.state.active id = some venue ∧ venue.isOpen = !isOpen ∧
      w'.state.active id = some { venue with isOpen := isOpen, closedReason := reason }
  /-- Nothing else opens or closes it, or touches the reason. -/
  unswitched : (∀ t x, e = .exchange t x → switchOf id x = none) → ∀ venue,
    w.state.rows id = some venue → ∃ venue', w'.state.rows id = some venue' ∧
      venue'.isOpen = venue.isOpen ∧ venue'.closedReason = venue.closedReason
  /-- If it is deleted, it stays as it is. -/
  deleted : ∀ venue, w.state.rows id = some venue → venue.deletedAt ≠ none →
    w'.state.rows id = some venue

/-- The switches of a venue, which was created open, alternate; the last one says how it is now. -/
structure Alternating (id : Cuid) (w : VenueWorld) : Prop where
  chain : (switches id w.log ++ [true]).IsChain (· ≠ ·)
  last : ∀ venue, w.state.rows id = some venue →
    (switches id w.log ++ [true]).head? = some venue.isOpen

/-- A venue has a reason to be closed exactly while it is closed. -/
def Consistent (s : VenueState) : Prop :=
  ∀ id venue, s.rows id = some venue → venue.closedReason.isSome = !venue.isOpen

/-- A `close` that succeeds has found the venue open, and has closed and notified it once. One that
fails has done neither. -/
structure CloseDone (id : Cuid) (reason : JsString) (actor : NotificationActor)
    (h : List VenueExchange) (rest : VenueTask VenueResult) : Prop where
  succeeded : ∀ reply, rest = .done (.ok reply) → ∃ row created,
    reply = some row ∧ h = [⟨.findVenue id, some true⟩,
      ⟨.setOpen id false (some (trim reason)), some row⟩,
      ⟨.notify ⟨id, row.name, trim reason, actor⟩, created⟩]
  failed : ∀ e, rest = .done (.error e) → Silent h

/-- A `reopen` that succeeds has found the venue closed, and has opened it once. -/
structure ReopenDone (id : Cuid) (h : List VenueExchange) (rest : VenueTask VenueResult) :
    Prop where
  succeeded : ∀ reply, rest = .done (.ok reply) → ∃ row, reply = some row ∧
    h = [⟨.findVenue id, some false⟩, ⟨.setOpen id true none, some row⟩]
  failed : ∀ e, rest = .done (.error e) → Silent h

/-! ### What an exchange does to a row -/

variable {s s' : VenueState} {id : Cuid}

/-- What an exchange does to the row of a venue. -/
inductive RowChange (id : Cuid) (e : VenueExchange) : Option Venue → Option Venue → Prop where
  | same (row : Option Venue) (h : switchOf id e = none) : RowChange id e row row
  | created (venue : Venue) (h : switchOf id e = none) (hopen : venue.isOpen = true)
      (hreason : venue.closedReason = none) : RowChange id e none (some venue)
  | edited (venue venue' : Venue) (h : switchOf id e = none)
      (hopen : venue'.isOpen = venue.isOpen) (hreason : venue'.closedReason = venue.closedReason) :
      RowChange id e (some venue) (some venue')
  | switched (venue : Venue) (isOpen : Bool) (reason : Option JsString)
      (he : ∃ row, e = ⟨.setOpen id isOpen reason, some row⟩) :
      RowChange id e (some venue)
        (some { venue with isOpen := isOpen, closedReason := reason })

/-- What one request can do to a venue's row. -/
theorem rowChange_of_does {q : VenueQuery} {a : VenueAnswer q} (hd : VenueDoes s q a s')
    (id : Cuid) : RowChange id ⟨q, a⟩ (s.rows id) (s'.rows id) := by
  cases hd with
  | now | findVenue | findPhotos | findUnique | createRefused | updateRefused | setOpenRefused
  | setDeletedAtRefused | copyObject | deleteObject | repointRefused | notify | notifyFailed =>
    exact .same _ rfl
  | createVenue dto id' photos hid _ =>
    by_cases he : id = id'
    · subst he
      rw [VenueState.set_rows_self, hid]
      exact .created _ rfl rfl rfl
    · rw [VenueState.set_rows_of_ne he]
      exact .same _ rfl
  | updateVenue id' dto venue photos hrow _ =>
    by_cases he : id = id'
    · subst he
      rw [VenueState.set_rows_self, hrow]
      exact .edited _ _ rfl rfl rfl
    · rw [VenueState.set_rows_of_ne he]
      exact .same _ rfl
  | setOpen id' isOpen reason venue hrow =>
    by_cases he : id = id'
    · subst he
      rw [VenueState.set_rows_self, hrow]
      exact .switched _ _ _ ⟨_, rfl⟩
    · rw [VenueState.set_rows_of_ne he]
      exact .same _ (if_neg (Ne.symm he))
  | setDeletedAt id' deletedAt venue hrow =>
    by_cases he : id = id'
    · subst he
      rw [VenueState.set_rows_self, hrow]
      exact .edited _ _ rfl rfl rfl
    · rw [VenueState.set_rows_of_ne he]
      exact .same _ rfl
  | repoint moves _ =>
    change RowChange id _ _ ((s.rows id).map _)
    cases s.rows id with
    | none => exact .same _ rfl
    | some venue => exact .edited _ _ rfl rfl rfl

/-! ### What the calls request -/

variable {base : JsString} {reason : JsString} {actor : NotificationActor} {h : List VenueExchange}

/-- The request switches no venue and notifies of none. -/
def VenueQuery.Quiet : VenueQuery → Prop
  | .setOpen _ _ _ => False
  | .notify _ => False
  | _ => True

/-- Every request of the call is quiet. -/
abbrev Quietly {ρ : Type} (p : VenueTask ρ) : Prop :=
  p.Asks VenueQuery.Quiet (fun _ _ ↦ True) fun _ ↦ True

/-- A sequence of quiet tasks is quiet. -/
theorem quietly_bind {ρ ρ' : Type} {p : VenueTask ρ} {f : ρ → VenueTask ρ'} (hp : Quietly p)
    (hf : ∀ r, Quietly (f r)) : Quietly (p >>= f) := Task.Asks.bind hp fun r _ ↦ hf r

/-- A quiet request, and what follows. -/
theorem quietly_send_bind {ρ : Type} {q : VenueQuery} {f : VenueAnswer q → VenueTask ρ}
    (hq : q.Quiet) (hf : ∀ a, Quietly (f a)) : Quietly (send q >>= f) := ⟨hq, fun a _ ↦ hf a⟩

/-- The request looks no venue up and writes none, but for the photos that are moved. -/
def VenueQuery.Aside : VenueQuery → Prop
  | .copyObject _ _ | .deleteObject _ | .repoint _ | .findUnique _ => True
  | _ => False

/-- What is no matter of the switches is quiet. -/
theorem VenueQuery.Aside.quiet {q : VenueQuery} (h : q.Aside) : q.Quiet := by
  cases q with
  | setOpen | notify => exact h
  | _ => trivial

/-- Every request of the call is aside. -/
abbrev Asides {ρ : Type} (p : VenueTask ρ) : Prop :=
  p.Asks VenueQuery.Aside (fun _ _ ↦ True) fun _ ↦ True

/-- Re-homing photos is no matter of the switches. -/
theorem aside_rehomePhotos (id : Cuid) (row : Venue) : Asides (rehomePhotos base id row) :=
  have hfresh : Asides (send (.findUnique id) >>= fun fresh ↦ .done (fresh.getD row)) :=
    ⟨trivial, fun _ _ ↦ trivial⟩
  PhotoRequests.asks_rehomePhotos (fun _ _ ↦ trivial) (fun _ ↦ trivial) (fun _ _ ↦ trivial) hfresh
    id row.photos row

/-- Nor is deleting objects. -/
theorem aside_deleteObjectsFor (urls : List JsString) :
    Asides (venueRequests.deleteObjectsFor base urls) :=
  PhotoRequests.asks_deleteObjectsFor (fun _ ↦ trivial) urls

/-- A task that keeps aside is quiet. -/
theorem quietly_of_aside {ρ : Type} {p : VenueTask ρ} (hp : Asides p) : Quietly p :=
  Task.Asks.mono (fun _ ↦ VenueQuery.Aside.quiet) hp

/-- A new venue is created open, in silence. -/
theorem quietly_create (dto : CreateVenueDto) : Quietly (create base dto) := by
  unfold create
  split
  · refine quietly_send_bind trivial fun created ↦ ?_
    cases created with
    | none => trivial
    | some created =>
      exact quietly_bind (quietly_of_aside (aside_rehomePhotos created.1 created.2))
        fun _ ↦ trivial
  · trivial

/-- The transaction of an update switches nothing. -/
theorem quietly_commitUpdate (dto : UpdateVenueDto) (before : List VenuePhoto) :
    Quietly (commitUpdate base id dto before) := by
  refine quietly_send_bind trivial fun updated ↦ ?_
  cases updated with
  | none => trivial
  | some updated =>
    have hend : Quietly (do
        let row ← rehomePhotos base id updated
        .done (.ok (some row)) : VenueTask VenueResult) :=
      quietly_bind (quietly_of_aside (aside_rehomePhotos id updated)) fun _ ↦ trivial
    cases dto.photoUrls with
    | none => exact hend
    | some photoUrls =>
      exact quietly_bind (quietly_of_aside (aside_deleteObjectsFor _)) fun _ ↦ hend

/-- So an update switches nothing. -/
theorem quietly_update (dto : UpdateVenueDto) : Quietly (update base id dto) := by
  unfold update
  split
  · refine quietly_send_bind trivial fun found ↦ ?_
    cases found with
    | none => trivial
    | some found =>
      simp only
      split
      · exact quietly_send_bind trivial fun before ↦ quietly_commitUpdate dto before
      · exact quietly_commitUpdate dto []
  · trivial

/-- A deletion switches nothing. -/
theorem quietly_softDelete : Quietly (softDelete id) := by
  refine quietly_send_bind trivial fun found ↦ ?_
  cases found with
  | none => trivial
  | some found =>
    refine quietly_send_bind trivial fun time ↦ quietly_send_bind trivial fun made ↦ ?_
    cases made <;> trivial

/-! ### Heeding the answers -/

/-- No venue that was looked up was not there. -/
def Heeds (h : List VenueExchange) : Prop := ∀ id, (⟨.findVenue id, none⟩ : VenueExchange) ∉ h

/-- A history heeds its reads after one more exchange that is no failed read. -/
theorem Heeds.snoc (hh : Heeds h) {q : VenueQuery} {a : VenueAnswer q}
    (hq : ∀ id, (⟨q, a⟩ : VenueExchange) ≠ ⟨.findVenue id, none⟩) : Heeds (h ++ [⟨q, a⟩]) := by
  intro id hmem
  rcases List.mem_append.1 hmem with hmem | hmem
  · exact hh id hmem
  · exact hq id (List.mem_singleton.1 hmem).symm

/-- The call goes on only as long as the venue it has looked up is there. -/
abbrev Heedful {ρ : Type} (p : VenueTask ρ) (h : List VenueExchange) : Prop :=
  p.AsksAfter (fun h _ ↦ Heeds h) (fun _ _ ↦ True) h

/-- A task that keeps aside, and what follows. -/
theorem heedful_of_aside {ρ ρ' : Type} {p : VenueTask ρ} {f : ρ → VenueTask ρ'} (hp : Asides p)
    (hh : Heeds h) (hf : ∀ h r, Heeds h → Heedful (f r) h) : Heedful (p >>= f) h := by
  have hafter := hp.asksAfter (I := Heeds) (fun _ _ hh _ ↦ hh)
    (fun h q a hh hq ↦ hh.snoc fun id he ↦ by cases he; exact hq) hh
  exact hafter.bind fun h r hr ↦ hf h r hr.1

/-- A new venue is read by nobody before. -/
theorem heedful_create (dto : CreateVenueDto) : Heedful (create base dto) [] := by
  unfold create
  split
  · refine ⟨fun _ hmem ↦ absurd hmem List.not_mem_nil, fun created ↦ ?_⟩
    cases created with
    | none => trivial
    | some created =>
      have hh : Heeds [⟨.createVenue dto, some created⟩] :=
        Heeds.snoc (h := []) (fun _ hmem ↦ absurd hmem List.not_mem_nil) fun _ he ↦ by cases he
      have hend : Heedful (do
          let row ← rehomePhotos base created.1 created.2
          .done (.ok (some row)) : VenueTask VenueResult) [⟨.createVenue dto, some created⟩] :=
        heedful_of_aside (aside_rehomePhotos created.1 created.2) hh fun _ _ _ ↦ trivial
      exact hend
  · trivial

/-- The transaction of an update runs on a venue that was found. -/
theorem heedful_commitUpdate (dto : UpdateVenueDto) (before : List VenuePhoto) (hh : Heeds h) :
    Heedful (commitUpdate base id dto before) h := by
  refine ⟨hh, fun updated ↦ ?_⟩
  cases updated with
  | none => trivial
  | some updated =>
    have hh' := hh.snoc (q := .updateVenue id dto) (a := some updated) fun _ he ↦ by cases he
    have hend : ∀ h, Heeds h → Heedful (do
        let row ← rehomePhotos base id updated
        .done (.ok (some row)) : VenueTask VenueResult) h :=
      fun h hh ↦ heedful_of_aside (aside_rehomePhotos id updated) hh fun _ _ _ ↦ trivial
    cases dto.photoUrls with
    | none => exact hend _ hh'
    | some photoUrls =>
      have hdrop : Heedful (do
          let _ ← venueRequests.deleteObjectsFor base
            ((before.map (·.url)).filter (· ∉ photoUrls.urls))
          let row ← rehomePhotos base id updated
          .done (.ok (some row)) : VenueTask VenueResult) _ :=
        heedful_of_aside (aside_deleteObjectsFor _) hh' fun h _ hh ↦ hend h hh
      exact hdrop

/-- A venue that was found. -/
theorem heedful_found {isOpen : Bool} : Heeds [⟨.findVenue id, some isOpen⟩] :=
  Heeds.snoc (h := []) (fun _ hmem ↦ absurd hmem List.not_mem_nil) fun _ he ↦ by cases he

/-- Every call goes on only with a venue that it found. -/
theorem heedful_task (op : VenueCall) : Heedful (op.task base) [] := by
  have hnil : Heeds [] := fun _ hmem ↦ absurd hmem List.not_mem_nil
  cases op with
  | create dto => exact heedful_create dto
  | update id dto =>
    change Heedful (update base id dto) []
    unfold update
    split
    · refine ⟨hnil, fun found ↦ ?_⟩
      cases found with
      | none => trivial
      | some isOpen =>
        simp only
        split
        · refine ⟨heedful_found, fun before ↦ heedful_commitUpdate dto before ?_⟩
          exact heedful_found.snoc fun _ he ↦ by cases he
        · exact heedful_commitUpdate dto [] heedful_found
    · trivial
  | close id reason actor =>
    change Heedful (close id reason actor) []
    unfold close
    dsimp only
    split
    · trivial
    · refine ⟨hnil, fun found ↦ ?_⟩
      rcases found with _ | _ | _
      · trivial
      · trivial
      · refine ⟨heedful_found, fun updated ↦ ?_⟩
        cases updated with
        | none => trivial
        | some updated =>
          exact ⟨heedful_found.snoc fun _ he ↦ (by cases he), fun _ ↦ trivial⟩
  | reopen id =>
    refine ⟨hnil, fun found ↦ ?_⟩
    rcases found with _ | _ | _
    · trivial
    · refine ⟨heedful_found, fun updated ↦ ?_⟩
      cases updated <;> trivial
    · trivial
  | softDelete id =>
    refine ⟨hnil, fun found ↦ ?_⟩
    cases found with
    | none => trivial
    | some found =>
      refine ⟨heedful_found, fun time ↦ ⟨heedful_found.snoc fun _ he ↦ (by cases he),
        fun made ↦ ?_⟩⟩
      cases made <;> trivial

/-! ### The stages of the switches -/

/-- The stages of `close`. -/
inductive CloseAt (id : Cuid) (reason : JsString) (actor : NotificationActor) :
    List VenueExchange → VenueTask VenueResult → Prop where
  | start (k : VenueAnswer _ → VenueTask VenueResult) :
      CloseAt id reason actor [] (.ask (.findVenue id) k)
  | found (hreason : trim reason ≠ []) (k : VenueAnswer _ → VenueTask VenueResult) :
      CloseAt id reason actor [⟨.findVenue id, some true⟩]
        (.ask (.setOpen id false (some (trim reason))) k)
  | written (hreason : trim reason ≠ []) (row : Venue) (k : Bool → VenueTask VenueResult) :
      CloseAt id reason actor
        [⟨.findVenue id, some true⟩, ⟨.setOpen id false (some (trim reason)), some row⟩]
        (.ask (.notify ⟨id, row.name, trim reason, actor⟩) k)
  | notified (row : Venue) (created : Bool) :
      CloseAt id reason actor
        [⟨.findVenue id, some true⟩, ⟨.setOpen id false (some (trim reason)), some row⟩,
          ⟨.notify ⟨id, row.name, trim reason, actor⟩, created⟩]
        (.done (.ok (some row)))
  | failed (e : VenueError) (h : List VenueExchange) (hq : Silent h) :
      CloseAt id reason actor h (.done (.error e))

/-- Where a closing stands after each of its exchanges. -/
theorem closeAt_of_path {rest : VenueTask VenueResult} (hp : Path (close id reason actor) h rest) :
    CloseAt id reason actor h rest := by
  by_cases hreason : trim reason = []
  · have hclose : close id reason actor = .done (.error .closeReasonRequired) := if_pos hreason
    rw [hclose] at hp
    obtain ⟨rfl, rfl⟩ := path_done.1 hp
    exact .failed _ _ fun _ hx ↦ (List.not_mem_nil hx).elim
  · have hclose : close id reason actor = (send (.findVenue id) >>= _) := if_neg hreason
    rw [hclose] at hp
    cases hp with
    | nil => exact .start _
    | @cons _ _ found _ _ hk =>
      rcases found with _ | _ | _
      · obtain ⟨rfl, rfl⟩ := path_done.1 hk
        exact .failed _ _ fun x hx v ↦ by simp_all [switchOf, isNotice]
      · obtain ⟨rfl, rfl⟩ := path_done.1 hk
        exact .failed _ _ fun x hx v ↦ by simp_all [switchOf, isNotice]
      · cases hk with
        | nil => exact .found hreason _
        | @cons _ _ updated _ _ hk =>
          cases updated with
          | none =>
            obtain ⟨rfl, rfl⟩ := path_done.1 hk
            exact .failed _ _ fun x hx v ↦ by
              rcases List.mem_pair.1 hx with rfl | rfl <;> exact ⟨rfl, rfl⟩
          | some row =>
            cases hk with
            | nil => exact .written hreason row _
            | @cons _ _ created _ _ hk =>
              obtain ⟨rfl, rfl⟩ := path_done.1 hk
              exact .notified row created

/-- The stages of `reopen`. -/
inductive ReopenAt (id : Cuid) : List VenueExchange → VenueTask VenueResult → Prop where
  | start (k : VenueAnswer _ → VenueTask VenueResult) : ReopenAt id [] (.ask (.findVenue id) k)
  | found (k : VenueAnswer _ → VenueTask VenueResult) :
      ReopenAt id [⟨.findVenue id, some false⟩] (.ask (.setOpen id true none) k)
  | written (row : Venue) :
      ReopenAt id [⟨.findVenue id, some false⟩, ⟨.setOpen id true none, some row⟩]
        (.done (.ok (some row)))
  | failed (e : VenueError) (h : List VenueExchange) (hq : Silent h) :
      ReopenAt id h (.done (.error e))

/-- Where a reopening stands after each of its exchanges. -/
theorem reopenAt_of_path {rest : VenueTask VenueResult} (hp : Path (reopen id) h rest) :
    ReopenAt id h rest := by
  cases hp with
  | nil => exact .start _
  | @cons _ _ found _ _ hk =>
    rcases found with _ | _ | _
    · obtain ⟨rfl, rfl⟩ := path_done.1 hk
      exact .failed _ _ fun x hx v ↦ by simp_all [switchOf, isNotice]
    · cases hk with
      | nil => exact .found _
      | @cons _ _ updated _ _ hk =>
        cases updated with
        | none =>
          obtain ⟨rfl, rfl⟩ := path_done.1 hk
          exact .failed _ _ fun x hx v ↦ by
            rcases List.mem_pair.1 hx with rfl | rfl <;> exact ⟨rfl, rfl⟩
        | some row =>
          obtain ⟨rfl, rfl⟩ := path_done.1 hk
          exact .written row
    · obtain ⟨rfl, rfl⟩ := path_done.1 hk
      exact .failed _ _ fun x hx v ↦ by simp_all [switchOf, isNotice]

/-- The calls that switch no venue are quiet. -/
def Requested : VenueCall → VenueQuery → Prop
  | .close _ _ _, _ => True
  | .reopen _, _ => True
  | _, q => q.Quiet

/-- Every call asks only for what is its own. -/
theorem asks_task (op : VenueCall) :
    (op.task base).Asks (Requested op) (fun _ _ ↦ True) fun _ ↦ True := by
  have hany : ∀ p : VenueTask VenueResult, p.Asks (fun _ ↦ True) (fun _ _ ↦ True) fun _ ↦ True := by
    intro p
    induction p with
    | done r => trivial
    | ask q k ih => exact ⟨trivial, fun a _ ↦ ih a⟩
  cases op with
  | create dto => exact quietly_create dto
  | update id dto => exact quietly_update dto
  | softDelete id => exact quietly_softDelete
  | close id reason actor => exact hany _
  | reopen id => exact hany _

/-! ### Runs -/

variable {C : VenueWorld → VenueEvent → Prop} {w w' : VenueWorld}

/-- A venue is switched by a call that has found it the other way round. -/
theorem found_of_switch (hw : Reach (venues base) C (.init .init) w) {t : ℕ} {op : VenueCall}
    {isOpen : Bool} {reason : Option JsString}
    {k : VenueAnswer (.setOpen id isOpen reason) → VenueTask VenueResult}
    (ht : w.threads t = some ⟨op, h, .ask (.setOpen id isOpen reason) k⟩) :
    h = [⟨.findVenue id, some (!isOpen)⟩] ∧ reason.isSome = !isOpen := by
  have hp := hw.path ht
  cases op with
  | create | update | softDelete =>
    exact (hw.asks asks_task (fun _ _ _ _ _ ↦ trivial) ht).1.elim
  | close id' reason' actor =>
    cases closeAt_of_path hp with
    | found => exact ⟨rfl, rfl⟩
  | reopen id' =>
    cases reopenAt_of_path hp with
    | found => exact ⟨rfl, rfl⟩

/-- In every state of a run a closed venue has its reason, and an open one has none. -/
theorem consistent_of_reach (hw : Reach (venues base) C (.init .init) w) : Consistent w.state := by
  induction hw with
  | init => exact fun _ _ h ↦ (nomatch h)
  | @step w _ _ hw _ h ih =>
    cases h with
    | start => exact ih
    | environment hs =>
      cases hs
      exact ih
    | @exchange t op hist q k a s ht hd =>
      intro id venue hrow
      have hchange := rowChange_of_does hd id
      cases hold : w.state.rows id with
      | none =>
        rw [hold, hrow] at hchange
        cases hchange with
        | created _ _ hopen hreason => rw [hopen, hreason]; rfl
      | some old =>
        have hc := ih id old hold
        rw [hold, hrow] at hchange
        cases hchange with
        | same => exact hc
        | edited _ _ _ hopen hreason => rw [hopen, hreason, hc]
        | switched _ isOpen reason he =>
          obtain ⟨row, he⟩ := he
          obtain ⟨rfl, -⟩ := Sigma.mk.inj_iff.1 he
          exact (found_of_switch hw ht).2

/-- A deleted row is not written by an exchange that meets the condition. -/
theorem deleted_of_does {w : VenueWorld} {t : ℕ} {q : VenueQuery} {a : VenueAnswer q}
    (hd : VenueDoes w.state q a s') (hC : AsRead w (.exchange t ⟨q, a⟩))
    (hheeds : ∀ th, w.threads t = some th → Heeds th.history)
    (hswitch : switchOf id ⟨q, a⟩ = none) {venue : Venue} (hrow : w.state.rows id = some venue)
    (hdeleted : venue.deletedAt ≠ none) : s'.rows id = some venue := by
  have hnone : w.state.active id = none := by
    by_contra hsome
    obtain ⟨v, hv⟩ := Option.ne_none_iff_exists'.1 hsome
    obtain ⟨hr, hundeleted⟩ := VenueState.active_eq_some.1 hv
    obtain rfl := Option.some.inj (hrow.symm.trans hr)
    exact hdeleted hundeleted
  -- a call that has been told that the venue is not there sends nothing more
  have hgone : (w.state.active id = none → FoundAsIs w t id) → False := fun hfound ↦ by
    obtain ⟨th, ht, hread⟩ := hfound hnone
    rw [hnone] at hread
    exact hheeds th ht id hread
  cases hd with
  | now | findVenue | findPhotos | findUnique | createRefused | updateRefused | setOpenRefused
  | setDeletedAtRefused | copyObject | deleteObject | repointRefused | notify | notifyFailed =>
    exact hrow
  | createVenue dto id' photos hid _ =>
    have he : id ≠ id' := by
      rintro rfl
      rw [hid] at hrow
      cases hrow
    rwa [VenueState.set_rows_of_ne he]
  | updateVenue id' dto venue photos hrow' _ =>
    have he : id ≠ id' := by
      rintro rfl
      exact hgone hC
    rwa [VenueState.set_rows_of_ne he]
  | setOpen id' isOpen reason venue hrow' =>
    have he : id ≠ id' := by
      rintro rfl
      exact absurd hswitch (by simp [switchOf])
    rwa [VenueState.set_rows_of_ne he]
  | setDeletedAt id' deletedAt venue hrow' =>
    have he : id ≠ id' := by
      rintro rfl
      exact hgone hC
    rwa [VenueState.set_rows_of_ne he]
  | repoint moves _ =>
    refine VenueState.repoint_rows_of_stays hrow fun p hp hmoved ↦ ?_
    exact hgone (hC id venue hrow ⟨p, hp, hmoved⟩)

/-- A switch of a lawful run turns the venue over. -/
theorem active_of_switch (hw : Reach (venues base) C (.init .init) w) {t : ℕ} {op : VenueCall}
    {isOpen : Bool} {reason : Option JsString} {row : Venue}
    {k : VenueAnswer (.setOpen id isOpen reason) → VenueTask VenueResult}
    (ht : w.threads t = some ⟨op, h, .ask (.setOpen id isOpen reason) k⟩)
    (hC : AsRead w (.exchange t ⟨.setOpen id isOpen reason, some row⟩)) :
    ∃ venue, w.state.active id = some venue ∧ venue.isOpen = !isOpen := by
  obtain ⟨rfl, -⟩ := found_of_switch hw ht
  obtain ⟨th, ht', hread⟩ := hC
  rw [ht] at ht'
  obtain rfl := Option.some.inj ht'
  have hanswer : (w.state.active id).map (·.isOpen) = some (!isOpen) := by
    simpa using hread
  exact Option.map_eq_some_iff.1 hanswer

/-- A step whose reads still hold is lawful. -/
theorem lawful_of_step (hw : Reach (venues base) C (.init .init) w) {e : VenueEvent}
    (hC : AsRead w e) (h : Step (venues base) w e w') (id : Cuid) : Lawful id w w' e := by
  cases h with
  | start => exact ⟨nofun, fun _ venue hrow ↦ ⟨venue, hrow, rfl, rfl⟩, fun _ hrow _ ↦ hrow⟩
  | environment hs =>
    cases hs
    exact ⟨nofun, fun _ venue hrow ↦ ⟨venue, hrow, rfl, rfl⟩, fun _ hrow _ ↦ hrow⟩
  | @exchange t op hist q k a s ht hd =>
    have hchange := rowChange_of_does hd id
    refine ⟨fun t' isOpen reason row he ↦ ?_, fun hq venue hrow ↦ ?_, fun venue hrow hdeleted ↦ ?_⟩
    · obtain ⟨rfl, hx⟩ : t = t' ∧
          (⟨q, a⟩ : VenueExchange) = ⟨.setOpen id isOpen reason, some row⟩ := by
        simpa using he
      obtain ⟨rfl, ha⟩ := Sigma.mk.inj_iff.1 hx
      obtain rfl := eq_of_heq ha
      obtain ⟨venue, hactive, hopen⟩ := active_of_switch hw ht hC
      obtain ⟨hrow, hundeleted⟩ := VenueState.active_eq_some.1 hactive
      refine ⟨venue, hactive, hopen, VenueState.active_eq_some.2 ⟨?_, hundeleted⟩⟩
      cases hd with
      | setOpen _ _ _ venue' hrow' =>
        rw [hrow] at hrow'
        obtain rfl := Option.some.inj hrow'
        exact VenueState.set_rows_self
    · have hquiet : switchOf id ⟨q, a⟩ = none := hq t _ rfl
      rw [hrow] at hchange
      generalize hnew : s.rows id = new at hchange
      cases hchange with
      | same => exact ⟨venue, rfl, rfl, rfl⟩
      | edited _ venue' _ hopen hreason => exact ⟨venue', rfl, hopen, hreason⟩
      | switched _ isOpen reason he =>
        obtain ⟨row, he⟩ := he
        rw [he] at hquiet
        simp [switchOf] at hquiet
    · have hheeds : ∀ th, w.threads t = some th → Heeds th.history := fun th ht' ↦ by
        obtain rfl := Option.some.inj (ht.symm.trans ht')
        exact (hw.asksAfter heedful_task ht).1
      refine deleted_of_does hd hC hheeds ?_ hrow hdeleted
      by_contra hswitch
      cases hd with
      | setOpen id' isOpen reason venue' hrow' =>
        have hid : id' = id := by
          by_contra hne
          exact hswitch (if_neg hne)
        subst hid
        obtain ⟨v, hactive, -⟩ := active_of_switch hw ht hC
        obtain ⟨hv, hundeleted⟩ := VenueState.active_eq_some.1 hactive
        rw [hrow] at hv
        obtain rfl := Option.some.inj hv
        exact hdeleted hundeleted
      | _ => exact hswitch rfl

/-- In a lawful run, the switches of a venue alternate. -/
theorem alternating_of_reach (hw : Reach (venues base) AsRead (.init .init) w) (id : Cuid) :
    Alternating id w ∧ (w.state.rows id = none → switches id w.log = []) := by
  induction hw with
  | init => exact ⟨⟨.singleton _, fun _ h ↦ (nomatch h)⟩, fun _ ↦ rfl⟩
  | @step w w' _ hw hC h ih =>
    cases h with
    | start => exact ⟨⟨ih.1.chain, ih.1.last⟩, ih.2⟩
    | environment hs =>
      cases hs
      exact ⟨⟨ih.1.chain, ih.1.last⟩, ih.2⟩
    | @exchange t op hist q k a s ht hd =>
      have hchange := rowChange_of_does hd id
      generalize hold : w.state.rows id = old at hchange
      generalize hnew : s.rows id = new at hchange
      have hquiet : switchOf id ⟨q, a⟩ = none →
          switches id (.exchange t ⟨q, a⟩ :: w.log) = switches id w.log := by
        intro hq
        rw [switches, hq]
        rfl
      -- The row of the venue stays, is created open, is edited, or is switched.
      cases hchange with
      | same _ hq =>
        refine ⟨⟨?_, fun venue hrow ↦ ?_⟩, fun hnone ↦ ?_⟩ <;> dsimp only <;> rw [hquiet hq]
        · exact ih.1.chain
        · exact ih.1.last venue (by rw [hold, ← hnew]; exact hrow)
        · exact ih.2 (hold.trans hnone)
      | created venue hq hopen =>
        have hempty := ih.2 hold
        refine ⟨⟨?_, fun venue' hrow ↦ ?_⟩, fun hnone ↦ ?_⟩ <;> dsimp only <;>
      rw [hquiet hq, hempty]
        · exact .singleton _
        · rw [hnew] at hrow
          obtain rfl := Option.some.inj hrow
          rw [hopen]
          rfl
      | edited venue venue' hq hopen =>
        refine ⟨⟨?_, fun venue'' hrow ↦ ?_⟩, fun hnone ↦ ?_⟩ <;> dsimp only
        · rw [hquiet hq]
          exact ih.1.chain
        · rw [hquiet hq, ih.1.last venue hold]
          rw [hnew] at hrow
          obtain rfl := Option.some.inj hrow
          rw [hopen]
        · cases hnone
      | switched venue isOpen reason he =>
        obtain ⟨row, he⟩ := he
        obtain ⟨rfl, ha⟩ := Sigma.mk.inj_iff.1 he
        obtain rfl := eq_of_heq ha
        -- The venue was the other way round when it was switched, as the call's own read had found
        -- it.
        obtain ⟨v, hactive, hopen⟩ := active_of_switch hw ht hC
        have hv := (VenueState.active_eq_some.1 hactive).1
        have hswitch : switches id (.exchange t ⟨.setOpen id isOpen reason, some row⟩ :: w.log) =
            isOpen :: switches id w.log := by
          simp [switches, switchOf]
        refine ⟨⟨?_, fun venue' hrow ↦ ?_⟩, fun hnone ↦ ?_⟩ <;> dsimp only
        · rw [hswitch, List.cons_append]
          refine List.isChain_cons.2 ⟨fun b hb ↦ ?_, ih.1.chain⟩
          rw [ih.1.last v hv, hopen] at hb
          obtain rfl := Option.some.inj hb
          cases isOpen <;> decide
        · rw [hswitch]
          rw [hnew] at hrow
          obtain rfl := Option.some.inj hrow
          rfl
        · cases hnone

/-! ### Notifications -/

/-- A venue is closed as often as a closing has switched it. -/
theorem count_switches (log : List VenueEvent) :
    (switches id log).count false = (callsThat (isClosing id) log).length := by
  induction log with
  | nil => rfl
  | cons e log ih =>
    cases e with
    | start => exact ih
    | environment => exact ih
    | exchange t e =>
      rw [switches, callsThat, isClosing, List.count_append, ih]
      rcases switchOf id e with _ | _ | _
      · simp
      · simp [Nat.add_comm]
      · simp

/-- What is to be created is created, and nothing else. -/
theorem notifications_of_reach (hnotified : ∀ w e, C w e → Notified e)
    (hw : Reach (venues base) C (.init .init) w) (id : Cuid) :
    (w.state.notifications.filter (·.venueId = id)).length =
      (callsThat (isNotice id) w.log).length := by
  induction hw with
  | init => rfl
  | step _ hC h ih =>
    cases h with
    | start => exact ih
    | environment hs =>
      cases hs
      exact ih
    | exchange ht hd =>
      cases hd with
      | notify n =>
        dsimp only
        rw [callsThat, isNotice]
        by_cases hid : n.venueId = id
        · rw [if_pos (decide_eq_true hid), List.filter_cons_of_pos (by simpa using hid),
            List.length_cons, List.length_cons, ih]
        · rw [if_neg (by simpa using hid), List.filter_cons_of_neg (by simpa using hid), ih]
      | notifyFailed n => exact absurd (hnotified _ _ hC) Bool.false_ne_true
      | repoint => exact ih
      | _ => exact ih

/-- In a silent history there are no switches and no notices. -/
theorem Silent.counts (hq : Silent h) (id : Cuid) :
    h.countP (isClosing id) = h.countP (isNotice id) := by
  rw [List.countP_eq_zero.2 fun x hx ↦ ?notice, List.countP_eq_zero.2 fun x hx ↦ ?closing]
  case notice => simp [isClosing, (hq x hx id).1]
  case closing => simp [(hq x hx id).2]

/-- Quiet requests make a silent history. -/
theorem silent_of_quiet (hq : ∀ x ∈ h, x.1.Quiet) : Silent h := by
  rintro ⟨q, a⟩ hx id
  have hquiet := hq _ hx
  cases q with
  | setOpen => exact hquiet.elim
  | notify => exact hquiet.elim
  | _ => exact ⟨rfl, rfl⟩

/-- A call that is over has notified as often as it has closed. -/
theorem count_of_over (hw : Reach (venues base) C (.init .init) w) {t : ℕ}
    {th : Thread VenueQuery VenueAnswer VenueResult VenueCall} (ht : w.threads t = some th)
    (hover : ∃ r, th.rest = .done r) (id : Cuid) :
    th.history.countP (isClosing id) = th.history.countP (isNotice id) := by
  obtain ⟨op, h, rest⟩ := th
  obtain ⟨r, rfl⟩ := hover
  have hp := hw.path ht
  have hasked := hw.asked asks_task (fun _ _ _ _ _ ↦ trivial) ht
  cases op with
  | create | update | softDelete => exact (silent_of_quiet hasked).counts id
  | close id' reason actor =>
    cases closeAt_of_path hp with
    | notified row created => by_cases hid : id' = id <;> simp [isClosing, isNotice, switchOf, hid]
    | failed e _ hq => exact hq.counts id
  | reopen id' =>
    cases reopenAt_of_path hp with
    | written row => simp [isClosing, isNotice, switchOf]
    | failed e _ hq => exact hq.counts id

/-! ### The main result -/

/-- Where every write finds the row as its call has read it, closings and reopenings of a venue
alternate, take it from the one state to the other, and leave a deleted venue as it is; if moreover
no notification fails, there is one for each closing when the calls are over. In every run, a venue
has a reason to be closed exactly while it is closed. -/
theorem openClose_of_asRead :
    (∀ w, Reach (venues base) AsRead (.init .init) w → ∀ id, Alternating id w ∧
      ∀ e w', AsRead w e → Step (venues base) w e w' → Lawful id w w' e) ∧
    (∀ w, Reach (venues base) (fun w e ↦ AsRead w e ∧ Notified e) (.init .init) w →
      (∀ t th, w.threads t = some th → ∃ r, th.rest = .done r) → ∀ id,
        (w.state.notifications.filter (·.venueId = id)).length = (switches id w.log).count false) ∧
    ∀ w, Reach (venues base) (fun _ _ ↦ True) (.init .init) w → Consistent w.state ∧
      ∀ t th, w.threads t = some th →
        (∀ id reason actor, th.op = .close id reason actor →
          CloseDone id reason actor th.history th.rest) ∧
        ∀ id, th.op = .reopen id → ReopenDone id th.history th.rest := by
  refine ⟨fun w hw id ↦ ⟨(alternating_of_reach hw id).1, fun e w' hC h ↦ lawful_of_step hw hC h id⟩,
    fun w hw hover id ↦ ?_, fun w hw ↦ ⟨consistent_of_reach hw, fun t th ht ↦ ⟨?_, ?_⟩⟩⟩
  · rw [notifications_of_reach (fun _ _ h ↦ h.2) hw, count_switches]
    exact (hw.perm_callsThat fun t th ht ↦ count_of_over hw ht (hover t th ht) id).length_eq.symm
  · intro id reason actor hop
    have hp := hw.path ht
    rw [hop] at hp
    have hclose := closeAt_of_path hp
    refine ⟨fun reply hrest ↦ ?_, fun e hrest ↦ ?_⟩ <;> rw [hrest] at hclose
    · generalize hh : th.history = hist at hclose
      cases hclose with
      | notified row created => exact ⟨row, created, rfl, rfl⟩
    · generalize hh : th.history = hist at hclose
      cases hclose with
      | failed _ _ hq => exact hq
  · intro id hop
    have hp := hw.path ht
    rw [hop] at hp
    have hreopen := reopenAt_of_path hp
    refine ⟨fun reply hrest ↦ ?_, fun e hrest ↦ ?_⟩ <;> rw [hrest] at hreopen
    · generalize hh : th.history = hist at hreopen
      cases hreopen with
      | written row => exact ⟨row, rfl, rfl⟩
    · generalize hh : th.history = hist at hreopen
      cases hreopen with
      | failed _ _ hq => exact hq

private theorem steps_found (id : Cuid) (reason : JsString) (actor : NotificationActor)
    {venue : Venue} (hactive : s.active id = some venue) (hopen : venue.isOpen = true)
    (hreason : trim reason ≠ []) :
    Steps (venues base).does s ((venues base).task (.close id reason actor))
      [⟨.findVenue id, some true⟩] (commitClose id (trim reason) actor) s := by
  have hclose : close id reason actor = (send (.findVenue id) >>= _) := if_neg hreason
  have hd := VenueDoes.findVenue s id
  rw [hactive, Option.map_some, hopen] at hd
  change Steps VenueDoes s (close id reason actor) _ _ s
  rw [hclose]
  exact .ask hd (.refl s (commitClose id (trim reason) actor))

private def closedDto : CreateVenueDto := ⟨lit "Hall", 1, 100, none, none, none, none⟩

/-- The venue as it is created. -/
private def openVenue : Venue := closedDto.row []

private def closedActor : NotificationActor := ⟨1, lit "Staff"⟩

/-- The venue as `close` leaves it. -/
private def closedVenue (reason : JsString) : Venue :=
  { openVenue with isOpen := false, closedReason := some reason }

private def createdState : VenueState := VenueState.init.set 7 openVenue

private theorem runs_closedCreate :
    Runs (venues []).does .init ((venues []).task (.create closedDto))
      [⟨.createVenue closedDto, some (7, openVenue)⟩] (.ok (some openVenue)) createdState :=
  .ask (.createVenue _ _ 7 [] rfl rfl) (.refl _ _)

private theorem created_of_notified {C : VenueWorld → VenueEvent → Prop}
    (hC : ∀ w t op, C w (.start t op))
    (hx : ∀ w t, C w (.exchange t ⟨.createVenue closedDto, some (7, openVenue)⟩)) :
    Reach (venues []) C (.init .init) ⟨createdState, Function.update (fun _ ↦ none) 0
      (some ⟨.create closedDto, [⟨.createVenue closedDto, some (7, openVenue)⟩],
        .done (.ok (some openVenue))⟩),
      [.exchange 0 ⟨.createVenue closedDto, some (7, openVenue)⟩, .start 0 (.create closedDto)]⟩ :=
  Reach.init.call 0 _ rfl runs_closedCreate (fun w ↦ hC w 0 _) fun w e he ↦ by
    obtain rfl := List.mem_singleton.1 he
    exact hx w 0

/-- A venue is created and closed: it is switched once, and there is one notification. -/
theorem openClose_of_asRead_closed : ∃ w,
    Reach (venues []) (fun w e ↦ AsRead w e ∧ Notified e) (.init .init) w ∧
      switches 7 w.log = [false] ∧
      (w.state.notifications.filter (·.venueId = 7)).length = (switches 7 w.log).count false := by
  have hcreated := created_of_notified (C := fun w e ↦ AsRead w e ∧ Notified e)
    (fun _ _ _ ↦ ⟨trivial, trivial⟩) fun _ _ ↦ ⟨trivial, trivial⟩
  have hfound := hcreated.call 1 _ rfl
    (steps_found 7 (lit "Wet floor") closedActor rfl rfl (by decide))
    (fun _ ↦ ⟨trivial, trivial⟩) fun w e he ↦ by
      obtain rfl := List.mem_singleton.1 he
      exact ⟨trivial, trivial⟩
  have hclosed := hfound.step
    (e := (.exchange 1 ⟨.setOpen 7 false (some (trim (lit "Wet floor"))),
      some (closedVenue (trim (lit "Wet floor")))⟩ : VenueEvent))
    ⟨⟨_, rfl, .head _⟩, trivial⟩
    (.exchange rfl (.setOpen _ 7 false _ openVenue rfl))
  have hnotified := hclosed.step
    (e := (.exchange 1 ⟨.notify ⟨7, lit "Hall", trim (lit "Wet floor"), closedActor⟩, true⟩ :
      VenueEvent)) ⟨trivial, rfl⟩ (.exchange rfl (.notify _ _))
  refine ⟨_, hnotified, rfl, openClose_of_asRead.2.1 _ hnotified (fun t th ht ↦ ?_) 7⟩
  dsimp only at ht
  by_cases h1 : t = 1
  · subst h1
    rw [Function.update_self] at ht
    cases ht
    exact ⟨_, rfl⟩
  · simp only [Function.update_of_ne h1] at ht
    by_cases h0 : t = 0
    · subst h0
      rw [Function.update_self] at ht
      cases ht
      exact ⟨_, rfl⟩
    · rw [Function.update_of_ne h0] at ht
      cases ht

/-! ### A reason that is replaced -/

/-- Two calls find the venue open and close it, one after the other: the second one replaces the
reason of the first, and there are two notifications. -/
theorem close_replaces_reason : ∃ w,
    Reach (venues []) (fun _ _ ↦ True) (.init .init) w ∧ switches 7 w.log = [false, false] ∧
      w.state.notifications = [⟨7, lit "Hall", lit "Painting", closedActor⟩,
        ⟨7, lit "Hall", lit "Wet floor", closedActor⟩] ∧
      w.state.active 7 = some (closedVenue (lit "Painting")) := by
  have hcreated := created_of_notified (C := fun _ _ ↦ True) (fun _ _ _ ↦ trivial) fun _ _ ↦ trivial
  have hfirst := hcreated.call 1 _ rfl
    (steps_found 7 (lit "Wet floor") closedActor rfl rfl (by decide))
    (fun _ ↦ trivial) fun _ _ _ ↦ trivial
  have hsecond := hfirst.call 2 _ rfl
    (steps_found 7 (lit "Painting") closedActor rfl rfl (by decide))
    (fun _ ↦ trivial) fun _ _ _ ↦ trivial
  have hclosed := hsecond.step trivial
    (.exchange (t := 1) rfl (.setOpen _ 7 false _ openVenue rfl))
  have hnotified := hclosed.step trivial (.exchange (t := 1) rfl (.notify _ _))
  have hreplaced := hnotified.step trivial
    (.exchange (t := 2) rfl (.setOpen _ 7 false _ (closedVenue (lit "Wet floor")) rfl))
  have hagain := hreplaced.step trivial (.exchange (t := 2) rfl (.notify _ _))
  exact ⟨_, hagain, rfl, rfl, rfl⟩

end EasyBook.Venues

import EasyBook.Bookings.Sequence
import EasyBook.Bookings.Services

/-!
# What a decision does when nobody else decides

The outcome of `approveTx`, `createDirectOnce` and `insertOnce` on a sound state, as a function of
it: the refusal, if there is one, and otherwise the requests that change and how. The tables refuse
nothing that the transaction has not refused before (`solo_approveTx`, `solo_createDirectOnce`),
since a slot that comes to be held has been compared with every slot that is held already, and
since the slots of one request lie apart.
-/

namespace EasyBook

open ReadCommitted ReadCommitted.Prog

variable {β : Type} {may : ∀ q, Ans q → Prop} {since : ℤ} {F : BookingError → Prop}
  {Q : β → View → Prop}
  {d d' : View}

/-- Alone, the lock of the venue is granted at once. -/
theorem solo_lockVenue {venueId : Cuid} {k : Unit → Tx β} :
    (lockVenue venueId >>= k).solo schema may since F Q d ↔ (k ()).solo schema may since F Q d :=
  Iff.rfl

/-- The clock may have moved on, never back. -/
theorem solo_readClock {k : ℤ → Tx β} :
    ((readClock : Tx ℤ) >>= k).solo schema may since F Q d ↔
      ∀ c, since ≤ c → (k c).solo schema may since F Q d := Iff.rfl

/-- The check fails on a clash, and lets the rest run where no span meets a slot that holds. -/
theorem solo_assertNoApprovedClash {venueId : Cuid} {spans : List SlotSpan} {exclude : Option Cuid}
    {k : Unit → Tx β}
    (hF : (findApprovedClash d venueId spans exclude).isSome = true → F (.conflict .slotTaken))
    (hk : (∀ m ∈ spans, ¬ Met d venueId exclude m) → (k ()).solo schema may since F Q d) :
    (assertNoApprovedClash venueId spans exclude >>= k).solo schema may since F Q d :=
  solo_refuse hF fun hno ↦ hk fun m hm hmet ↦ hno (findApprovedClash_isSome.2 ⟨m, hm, hmet⟩)

/-! ### Losers -/

/-- A loser of a decision. -/
def rejectedBy (c : ℤ) (r : BookingRequest) : BookingRequest :=
  { r with status := .rejected, rejectReason := some autoRejectedReason, updatedAt := c }

/-- A request after the losers have been rejected. -/
def withLosers (losers : List BookingRequest) (c : ℤ) (r : BookingRequest) : BookingRequest :=
  if r.id ∈ losers.map BookingRequest.id ∧ r.status = .pending then rejectedBy c r else r

/-- The requests of `d'` are those of `d` after `f`, and the slots are the same but for their
flags. -/
structure RequestsBecome (d : View) (f : BookingRequest → BookingRequest) (d' : View) : Prop where
  sound : Sound d'
  request : ∀ i, d'.row .request i = (d.row .request i).map f
  slot : ∀ j, (d'.row .slot j).map BookingSlot.bare = (d.row .slot j).map BookingSlot.bare

/-- An update of requests, as the map it applies to each. -/
theorem RequestsSet.become {ch : BookingRequest → Option BookingRequest}
    {f : BookingRequest → BookingRequest} (h : RequestsSet d ch d')
    (hf : ∀ i r, d.row .request i = some r → (ch r).getD r = f r) : RequestsBecome d f d' :=
  ⟨h.sound, fun i ↦ (h.request i).trans (Option.map_congr fun r hr ↦ hf i r hr), h.slot⟩

/-- Two updates of requests are one. -/
theorem RequestsBecome.trans {d'' : View} {f g : BookingRequest → BookingRequest}
    (h : RequestsBecome d f d') (h' : RequestsBecome d' g d'') :
    RequestsBecome d (fun r ↦ g (f r)) d'' :=
  ⟨h'.sound, fun i ↦ by rw [h'.request, h.request, Option.map_map]; rfl,
    fun j ↦ (h'.slot j).trans (h.slot j)⟩

/-- A decided request, in one of the ways a pending one can be. -/
private theorem follows_of_decided {p : Prop} [Decidable p] {r q s : BookingRequest}
    (hp : p → r.status = .pending) (hid : s.id = r.id) (hcode : s.code = r.code)
    (hvenue : s.venueId = r.venueId) (hcreated : s.createdAt = r.createdAt)
    (h : (if p then some s else none) = some q) : r.Follows q ∧ p ∧ s = q := by
  split at h
  · next hc =>
    obtain rfl := Option.some.inj h
    exact ⟨⟨hid, hcode, hvenue, hcreated, .inr (.inl (hp hc))⟩, hc, rfl⟩
  · cases h

/-- The losers are rejected, and their reports returned. -/
theorem solo_rejectLosers {losers : List BookingRequest} {k : List AutoRejectedBooking → Tx β}
    (hd : Sound d) (hk : ∀ c d', RequestsBecome d (withLosers losers c) d' →
      (k (losers.map BookingRequest.autoRejected)).solo schema may since F Q d') :
    (rejectLosers losers >>= k).solo schema may since F Q d := by
  unfold rejectLosers
  split
  · next hnil =>
    subst hnil
    refine hk 0 d ⟨hd, fun i ↦ ?_, fun _ ↦ rfl⟩
    rw [show withLosers [] 0 = id from funext fun r ↦ by simp [withLosers], Option.map_id]
    rfl
  · have hch := fun c (r r' : BookingRequest) ↦ follows_of_decided (r := r) (q := r')
      (s := rejectedBy c r) (p := r.id ∈ losers.map BookingRequest.id ∧ r.status = .pending)
      (fun h ↦ h.2) rfl rfl rfl rfl
    refine solo_updateRequests (k := fun _ ↦ k (losers.map BookingRequest.autoRejected)) hd
      (fun c i r r' _ h ↦ (hch c r r' h).1)
      (fun c ⟨_, _, r, r', _, _, _, _, _, _, _, _, hr', _, hst, _⟩ ↦ ?_)
      fun c d' hset ↦ hk c d' (hset.become fun _ r _ ↦ ?_)
    · -- nothing is approved
      obtain ⟨-, -, rfl⟩ := hch c r r' hr'
      cases hst
    · unfold withLosers rejectedBy
      split <;> rfl

/-! ### Approving -/

/-- The approved request. -/
def approvedBy (actor : Actor) (now c : ℤ) (r : BookingRequest) : BookingRequest :=
  { r with
    status := .approved, approvedById := some actor.id, approvedAt := some now, updatedAt := c }

/-- Why an approval is refused. -/
def approveRefusal (d : View) (id : Cuid) : Option BookingError :=
  match d.row .request id with
  | none => some (.notFound .bookingNotFound)
  | some booking =>
    if booking.status ≠ .pending then some (.conflict .bookingNotPendingForDecision)
    else if liveSlots d id = [] then some (.conflict .bookingAlreadyCancelled)
    else if (findApprovedClash d booking.venueId (liveSpans d id) (some id)).isSome then
      some (.conflict .slotTaken)
    else none

/-- The live slots of a request whose live spans lie apart. -/
theorem apart_of_live (hd : Sound d) {id : Cuid} (h : (liveSpans d id).Pairwise SlotSpan.Apart)
    {i j : Cuid} {s s' : BookingSlot} (hij : i ≠ j) (hs : d.row .slot i = some s)
    (hs' : d.row .slot j = some s') (hlive : s.isCancelled = false)
    (hlive' : s'.isCancelled = false)
    (hid : s.bookingRequestId = id) (hid' : s'.bookingRequestId = id) : s.span.Apart s'.span := by
  have : Std.Symm fun a b : BookingSlot ↦ a.span.Apart b.span := ⟨fun _ _ h ↦ h.symm⟩
  refine List.Pairwise.forall (List.pairwise_map.1 h) (mem_liveSlots.2 ⟨⟨i, hs⟩, hid, hlive⟩)
    (mem_liveSlots.2 ⟨⟨j, hs'⟩, hid', hlive'⟩) fun he ↦ hij ?_
  rw [← hd.ok.slot_id hs, ← hd.ok.slot_id hs', he]

/-- What an approval that is not refused does. -/
structure Approves (d : View) (id : Cuid) (actor : Actor) (reply : Reply) (d' : View) : Prop where
  passes : approveRefusal d id = none
  reply : ∃ booking, d.row .request id = some booking ∧ reply = .approved id
    ((findPendingLosers d booking.venueId (liveSpans d id) (some id)).map
      BookingRequest.autoRejected)
  become : ∃ booking now c c', d.row .request id = some booking ∧ RequestsBecome d (fun r ↦
    withLosers (findPendingLosers d booking.venueId (liveSpans d id) (some id)) c'
      (if r.id = id then approvedBy actor now c r else r)) d'

/-- Alone, an approval does what it is for, and fails exactly where it should. -/
theorem solo_approveTx {id : Cuid} {actor : Actor} (hd : Sound d)
    (hapart : (liveSpans d id).Pairwise SlotSpan.Apart) :
    (approveTx id actor).solo schema may since (fun e ↦ approveRefusal d id = some e)
      (Approves d id actor) d := by
  unfold approveTx
  -- The checks one by one; each fails where `approveRefusal` says so.
  refine solo_query.2 (solo_require (fun hnone ↦ by simp [approveRefusal, hnone])
    fun booking hbooking ↦ ?_)
  refine solo_lockVenue.2 (solo_query.2 (solo_refuse (fun hst ↦ ?_) fun hst ↦ ?_))
  · have : booking.status ≠ .pending := fun h ↦ hst (by rw [hbooking, Option.map_some, h])
    simp [approveRefusal, hbooking, this]
  have hpending : booking.status = .pending := by simpa [hbooking] using hst
  refine solo_query.2 (solo_refuse (fun hlive ↦ ?_) fun hlive ↦ ?_)
  · simp [approveRefusal, hbooking, hpending, hlive]
  refine solo_assertNoApprovedClash (fun hclash ↦ ?_) fun hfree ↦ ?_
  · have hclash' : (findApprovedClash d booking.venueId (liveSpans d id) (some id)).isSome = true :=
      hclash
    simp [approveRefusal, hbooking, hpending, hlive, hclash']
  have hpasses : approveRefusal d id = none := by
    have hclash : (findApprovedClash d booking.venueId (liveSpans d id) (some id)).isSome = false :=
      Bool.eq_false_iff.2 fun h ↦ by
        obtain ⟨m, hm, hmet⟩ := findApprovedClash_isSome.1 h
        exact hfree m hm hmet
    simp [approveRefusal, hbooking, hpending, hlive, hclash]
  refine solo_query.2 (solo_readClock.2 fun now _ ↦ ?_)
  have hch := fun c (r r' : BookingRequest) ↦ follows_of_decided (r := r) (q := r')
    (s := approvedBy actor now c r) (p := r.id = id ∧ r.status = .pending)
    (fun h ↦ h.2) rfl rfl rfl rfl
  have hid : booking.id = id := hd.ok.request_id hbooking
  refine solo_updateRequests hd (fun c i r r' _ h ↦ (hch c r r' h).1) (fun c hcrowded ↦ ?_)
    fun c d₁ hset ↦ ?_
  · -- the slots of the request have been compared with those that are held, and lie apart
    exfalso
    obtain ⟨j, s, r, r', j', s', q, hj, hs, hs', hcoll, hr, hr', -, -, hq, hst'⟩ := hcrowded
    obtain ⟨-, ⟨hrid, -⟩, -⟩ := hch c r r' hr'
    have hsid : s.bookingRequestId = id := (hd.ok.request_id hr).symm.trans hrid
    by_cases hsid' : s'.bookingRequestId = id
    · exact hcoll.not_apart (apart_of_live hd hapart hj hs hs' hcoll.1 hcoll.2.1 hsid hsid')
    · have hqst : q.status = .approved := hst'.resolve_right fun ⟨q', hq', _⟩ ↦ hsid' <| by
        obtain ⟨-, ⟨hqid, -⟩, -⟩ := hch c q q' hq'
        exact (hd.ok.request_id hq).symm.trans hqid
      obtain ⟨hlive₁, hlive₂, hvenue, hover⟩ := hcoll
      have hsvenue : s.venueId = booking.venueId := by
        obtain ⟨b, hb, ha⟩ := hd.ok.parent hs
        rw [hsid, hbooking] at hb
        rw [Option.some.inj hb, ha.venueId]
      simp only [tsrangeOverlap, decide_eq_true_eq] at hover
      refine hfree s.span (List.mem_map.2 ⟨s, mem_liveSlots.2 ⟨⟨j, hs⟩, hsid, hlive₁⟩, rfl⟩)
        ⟨j', s', q, hs', hlive₂, hvenue.symm.trans hsvenue, ?_, hq, hqst, ?_⟩
      · rintro _ ⟨⟩
        exact hsid'
      · simp only [BookingSlot.span]
        omega
  -- The update has found the one PENDING request of the id.
  refine solo_refuse (fun hlen ↦ ?_) fun _ ↦ ?_
  · refine absurd (hd.length_filterMap (fun r hr ↦ ?_) hbooking ?_) hlen
    · obtain ⟨r', hr'⟩ := Option.isSome_iff_exists.1 hr
      exact (hch c r r' hr').2.1.1
    · rw [if_pos ⟨hid, hpending⟩]
      rfl
  refine solo_rejectLosers hset.sound fun c' d₂ hbecome ↦ ?_
  refine ⟨hpasses, ⟨booking, hbooking, rfl⟩, booking, now, c, c', hbooking, .trans ?_ hbecome⟩
  refine hset.become fun i r hr ↦ ?_
  -- A request is approved by its id alone: the one of that id is PENDING.
  by_cases hri : r.id = id
  · have hrpending : r.status = .pending := by
      rw [hd.ok.request_id hr] at hri
      rw [hri, hbooking] at hr
      rw [← Option.some.inj hr, hpending]
    rw [if_pos ⟨hri, hrpending⟩, if_pos hri]
    rfl
  · rw [if_neg fun h ↦ hri h.1, if_neg hri]
    rfl

/-! ### Inserting a booking -/

/-- `row` and its slots at `spans` are new in `d'`, whose requests are those of `d` and `row` after
`f`. -/
structure Books (row : BookingRequest) (spans : List SlotSpan)
    (f : BookingRequest → BookingRequest) (d d' : View) : Prop where
  sound : Sound d'
  id : row.id = d.next
  bounds : spanBounds spans = some (row.firstStartAt, row.lastEndAt)
  request : d'.all .request = (d.all .request ++ [row]).map f
  slot : ∃ news, (d'.all .slot).map BookingSlot.bare = (d.all .slot ++ news).map BookingSlot.bare ∧
    List.Forall₂ (NewSlot row) spans news

/-- All requests are mapped. -/
theorem RequestsBecome.all_request {f : BookingRequest → BookingRequest}
    (h : RequestsBecome d f d') : d'.all .request = (d.all .request).map f := by
  have hall : (d.mapRows .request f).all .request = (d.all .request).map f := Db.all_mapRows
  rw [← hall]
  refine Db.all_congr fun i ↦ ?_
  rw [Db.mapRows_row_self]
  exact h.request i

/-- The slots stay, but for the copies of the status in them. -/
theorem RequestsBecome.all_slot {f : BookingRequest → BookingRequest} (h : RequestsBecome d f d') :
    (d'.all .slot).map BookingSlot.bare = (d.all .slot).map BookingSlot.bare := by
  have hall : ∀ d : View, (d.mapRows .slot BookingSlot.bare).all .slot =
      (d.all .slot).map BookingSlot.bare := fun d ↦ Db.all_mapRows
  rw [← hall, ← hall]
  refine Db.all_congr fun j ↦ ?_
  rw [Db.mapRows_row_self, Db.mapRows_row_self]
  exact h.slot j

/-- A request and its slots are a booking. -/
theorem SlotsAdded.books {row : BookingRequest} {spans : List SlotSpan}
    (h : SlotsAdded row spans (d.add .request row) d') (hid : row.id = d.next)
    (hbounds : spanBounds spans = some (row.firstStartAt, row.lastEndAt)) :
    Books row spans id d d' := by
  obtain ⟨hsound, hreq, news, hall, hnews⟩ := h
  refine ⟨hsound, hid, hbounds, ?_, news, ?_, hnews⟩
  · rw [List.map_id, ← Db.all_add]
    exact Db.all_congr fun i ↦ by rw [hreq]
  · rw [hall]
    congr 2
    exact Db.all_congr fun j ↦ by rw [Db.add_row_of_ne (by decide)]

/-- A booking, followed by an update of requests. -/
theorem Books.become {d'' : View} {row : BookingRequest} {spans : List SlotSpan}
    {f g : BookingRequest → BookingRequest} (h : Books row spans f d d')
    (h' : RequestsBecome d' g d'') : Books row spans (fun r ↦ g (f r)) d d'' := by
  obtain ⟨-, hid, hbounds, hreq, news, hall, hnews⟩ := h
  exact ⟨h'.sound, hid, hbounds, by rw [h'.all_request, hreq, List.map_map]; rfl, news,
    h'.all_slot.trans hall, hnews⟩

/-- What `insertOnce` does. -/
structure Submits (d : View) (venueId lineUserId : Cuid) (spans : List SlotSpan) (d' : View) :
    Prop where
  free : ∀ m ∈ spans, ¬ Met d venueId none m
  books : ∃ row, row.venueId = venueId ∧ row.lineUserId = some lineUserId ∧
    row.status = .pending ∧ Books row spans id d d'

/-- Alone, a request sent through LINE submits a booking. -/
theorem solo_insertOnce {venueId lineUserId : Cuid} {dto : CreateLineBookingDto}
    {slots : List ParsedSpan} (hd : Sound d)
    (hspread : ∀ spans, slotSpans slots = .ok spans → spans.Pairwise SlotSpan.Apart) :
    (insertOnce venueId lineUserId dto slots).solo schema may since (fun _ ↦ True)
      (fun _ d' ↦ ∃ spans, slotSpans slots = .ok spans ∧ Submits d venueId lineUserId spans d')
      d := by
  unfold insertOnce
  cases hspans : slotSpans slots with
  | error e => trivial
  | ok spans =>
    have hapart := hspread spans hspans
    refine solo_assertNoApprovedClash (fun _ ↦ trivial) fun hfree ↦ solo_readClock.2 fun now _ ↦ ?_
    refine solo_query.2 (solo_require (fun _ ↦ trivial) fun bounds hbounds ↦ ?_)
    refine solo_createRequest hd (fun _ _ ↦ rfl) (fun _ _ _ _ _ ↦ trivial) fun c hsound ↦ ?_
    refine solo_createSlots hsound Db.add_row_next hapart (fun h ↦ (nomatch h))
      fun d' created h ↦ ?_
    exact ⟨spans, rfl, hfree, _, rfl, rfl, rfl, h.books rfl hbounds⟩

/-! ### Booking directly -/

/-- `createDirectOnce` once its questions are answered. -/
def bookDirectly (dto : CreateDirectBookingDto) (venueId : Cuid) (slots : List ParsedSpan)
    (actor : Actor) : Tx Reply := do
  let spans ← ofExcept (slotSpans slots)
  assertNoApprovedClash venueId spans none
  let losers ← query fun d ↦ findPendingLosers d venueId spans none
  let now ← readClock
  let code ← nextBookingCode now
  let (firstStartAt, lastEndAt) ← require (spanBounds spans) .invalidDate
  let created ← createRequest fun c id ↦
    { id, code, lineUserId := dto.lineUserId, createdById := some actor.id,
      requesterName := dto.requesterName, contactPhone := dto.contactPhone,
      departmentId := dto.departmentId, venueId, purpose := dto.purpose,
      attendees := dto.attendees, status := .approved, rejectReason := none, firstStartAt,
      lastEndAt, approvedById := some actor.id, approvedAt := some now, createdAt := c,
      updatedAt := c }
  let _ ← createSlots created spans
  let autoRejected ← rejectLosers losers
  pure (.direct created.id autoRejected)

/-- The checks of a direct booking stand before the booking itself. -/
theorem createDirectOnce_eq (dto : CreateDirectBookingDto) (slots : List ParsedSpan)
    (actor : Actor) : createDirectOnce dto slots actor = (do
      lockVenue dto.venueId
      let venue ← inquire (.venue dto.venueId)
      let (venueId, _) ← require venue (.notFound .venueNotFound)
      checkInput dto.lineUserId .allowedLineUser (fun _ b ↦ b) (.badRequest .invalidLineUser)
      checkInput dto.departmentId .department (fun _ b ↦ b) (.badRequest .invalidDepartment)
      bookDirectly dto venueId slots actor) := rfl

/-- Why the spans are refused. -/
def spansRefusal (d : View) (venueId : Cuid) (slots : List ParsedSpan) : Option BookingError :=
  match slotSpans slots with
  | .error e => some e
  | .ok spans =>
    if (findApprovedClash d venueId spans none).isSome then some (.conflict .slotTaken) else none

/-- `row` is the request that a direct booking makes. -/
structure DirectRow (dto : CreateDirectBookingDto) (venueId : Cuid) (actor : Actor)
    (row : BookingRequest) : Prop where
  venueId : row.venueId = venueId
  status : row.status = .approved
  createdById : row.createdById = some actor.id
  approvedById : row.approvedById = some actor.id
  approvedAt : row.approvedAt.isSome
  /-- The rest is as it was asked for. -/
  asked : row.lineUserId = dto.lineUserId ∧ row.requesterName = dto.requesterName ∧
    row.contactPhone = dto.contactPhone ∧ row.departmentId = dto.departmentId ∧
    row.purpose = dto.purpose ∧ row.attendees = dto.attendees

/-- What a direct booking that is not refused does. -/
structure Directs (d : View) (dto : CreateDirectBookingDto) (venueId : Cuid) (actor : Actor)
    (spans : List SlotSpan) (reply : Reply) (d' : View) : Prop where
  reply : reply =
    .direct d.next ((findPendingLosers d venueId spans none).map BookingRequest.autoRejected)
  free : ∀ m ∈ spans, ¬ Met d venueId none m
  books : ∃ row c, DirectRow dto venueId actor row ∧
    Books row spans (withLosers (findPendingLosers d venueId spans none) c) d d'

/-- From `since` on some clock draws a code that is taken. -/
def CodeTaken (since : ℤ) (d : View) : Prop :=
  ∃ now i r, since ≤ now ∧ d.row .request i = some r ∧
    BookingRequest.code r = formatBookingCode now (sameDayCount d now)

/-- Alone, a direct booking is made, or refused for its spans, or collides with a code in use. -/
theorem solo_bookDirectly {dto : CreateDirectBookingDto} {venueId : Cuid} {slots : List ParsedSpan}
    {actor : Actor} (hd : Sound d) (hslots : slots ≠ [])
    (hspread : ∀ spans, slotSpans slots = .ok spans → spans.Pairwise SlotSpan.Apart) :
    (bookDirectly dto venueId slots actor).solo schema may since
      (fun e ↦ spansRefusal d venueId slots = some e ∨
        spansRefusal d venueId slots = none ∧ e = .codeCollision ∧ CodeTaken since d)
      (fun reply d' ↦ spansRefusal d venueId slots = none ∧ ∃ spans,
        slotSpans slots = .ok spans ∧ Directs d dto venueId actor spans reply d') d := by
  unfold bookDirectly
  cases hspans : slotSpans slots with
  | error e => exact .inl (by simp only [spansRefusal, hspans])
  | ok spans =>
    have hrefusal : spansRefusal d venueId slots =
        if (findApprovedClash d venueId spans none).isSome then some (.conflict .slotTaken)
        else none := by
      simp only [spansRefusal, hspans]
    refine solo_assertNoApprovedClash (fun hclash ↦ .inl ?_) fun hfree ↦ ?_
    · rw [hrefusal, if_pos hclash]
    have hpasses : spansRefusal d venueId slots = none := by
      rw [hrefusal, if_neg fun hclash ↦ ?_]
      obtain ⟨m, hm, hmet⟩ := findApprovedClash_isSome.1 hclash
      exact hfree m hm hmet
    refine solo_query.2 (solo_readClock.2 fun now hnow ↦ solo_query.2 ?_)
    refine solo_require (fun hnone ↦ absurd (spanBounds_eq_none.1 hnone) fun hnil ↦ ?_)
      fun bounds hbounds ↦ ?_
    · subst hnil
      exact hslots (slotSpans_eq_ok_iff.1 hspans)
    refine solo_createRequest hd (fun _ _ ↦ rfl)
      (fun _ j q hq hcode ↦ .inr ⟨hpasses, rfl, now, j, q, hnow, hq, hcode⟩) fun c hsound ↦ ?_
    refine solo_createSlots hsound Db.add_row_next (hspread spans hspans)
      (fun _ m hm ⟨j, s, q, hs, hlive, hsvenue, _, hq, hst, hover⟩ ↦ ?_) fun d₁ created hadded ↦ ?_
    · -- the slots are those of before, and the new request has none of them
      exfalso
      rw [Db.add_row_of_ne (by decide)] at hs
      obtain ⟨r, hr, ha⟩ := hd.ok.parent hs
      rw [Db.add_row_of_some hr] at hq
      obtain rfl := Option.some.inj hq
      exact hfree m hm ⟨j, s, r, hs, hlive, hsvenue, fun _ h ↦ (nomatch h), hr, hst, hover⟩
    have hbooks := hadded.books rfl hbounds
    refine solo_rejectLosers hadded.sound fun c' d₂ hbecome ↦ ?_
    exact ⟨hpasses, spans, rfl, rfl, hfree, _, c',
      ⟨rfl, rfl, rfl, rfl, rfl, rfl, rfl, rfl, rfl, rfl, rfl⟩, hbooks.become hbecome⟩

/-- A check of the input refuses on the answer, or lets the rest run. -/
theorem solo_checkInput {α : Type} {input : Option α} {q : α → Ask} {yes : ∀ a, Ans (q a) → Bool}
    {e : BookingError} {k : Unit → Tx β} (hF : ∀ a answer, input = some a → may (q a) answer →
      yes a answer = false → F e)
    (hk : (∀ a, input = some a → ∃ answer, may (q a) answer ∧ yes a answer = true) →
      (k ()).solo schema may since F Q d) :
    (checkInput input q yes e >>= k).solo schema may since F Q d := by
  cases input with
  | none => exact hk fun _ h ↦ (nomatch h)
  | some a =>
    refine fun answer hanswer ↦ solo_refuse (hF a answer rfl hanswer) fun hyes ↦ hk fun a' ha' ↦ ?_
    obtain rfl := Option.some.inj ha'
    exact ⟨answer, hanswer, by simpa using hyes⟩

end EasyBook

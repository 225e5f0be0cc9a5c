import EasyBook.Bookings.Apart
import EasyBook.Bookings.Decisions
import EasyBook.Bookings.SerialRuns

/-!
# The conflicts that are shown before a decision

`conflictPicture` of `admin-bookings.service.ts` and the two reads that are made of it: `preflight`,
for spans that are not in the tables yet, and the `conflicts` of a request. Both say what the
decision would say if it were made now: whether it would be refused because the hours are taken, and
which pending requests it would reject.

An overlap is put in four ways: as the `where` of a slot, as that of a request, as the range
operator of the exclusion constraint, and as two sets of instants that meet. `clashReport` is where
they agree.
-/

namespace EasyBook

open ReadCommitted ReadCommitted.Prog

/-! ### The reads -/

/-- The names on the registration of a LINE user. -/
structure Registration where
  firstName : JsString
  lastName : JsString

/-- `requesterOf(row).name`: the registration wins when there is one. -/
def requesterNameOf (registration : Cuid → Option Registration) (r : BookingRequest) :
    Option JsString :=
  match r.lineUserId.bind registration with
  | some reg =>
    let name := JsString.trim (reg.firstName ++ JsString.lit " " ++ reg.lastName)
    if name = [] then none else some name
  | none => r.requesterName

/-- A pending request that would lose. -/
structure PendingLoser where
  id : Cuid
  code : JsString
  purpose : JsString
  requesterName : Option JsString
  firstStartAt : ℤ
  lastEndAt : ℤ

/-- What holds the hours already, and who would lose them. -/
structure ConflictPicture where
  approvedClashCount : ℕ
  pending : List PendingLoser

section Reads

variable (registration : Cuid → Option Registration) (d : View)

/-- `requestersOf`: the entries of the map, by id. -/
def requestersOf (ids : List Cuid) : List (Cuid × Option JsString × JsString) :=
  ((d.all .request).filter fun r ↦ decide (r.id ∈ ids)).map fun r ↦
    (r.id, requesterNameOf registration r, r.purpose)

/-- `conflictPicture`, whose three reads find the same rows. -/
def conflictPicture (venueId : Cuid) (spans : List SlotSpan) (excludeRequestId : Option Cuid) :
    ConflictPicture :=
  if spans = [] then ⟨0, []⟩
  else
    let losers := findPendingLosers d venueId spans excludeRequestId
    let requesters := requestersOf registration d (losers.map BookingRequest.id)
    { approvedClashCount :=
        (d.all .slot).countP (approvedClashWhere d venueId spans excludeRequestId)
      pending := losers.map fun l ↦
        let who := (requesters.find? fun p ↦ decide (p.1 = l.id)).map Prod.snd
        { id := l.id, code := l.code, purpose := (who.map Prod.snd).getD [],
          requesterName := who.bind Prod.fst, firstStartAt := l.firstStartAt,
          lastEndAt := l.lastEndAt } }

/-- A loser in `BookingConflictsDto`. -/
structure ConflictingRequest where
  id : Cuid
  code : JsString
  requesterName : Option JsString
  firstStartAt : ℤ
  lastEndAt : ℤ

/-- `BookingConflictsDto`. -/
structure BookingConflicts where
  approvedClash : Bool
  pendingLosers : List ConflictingRequest

/-- `conflictsOf`. -/
def conflictsOf (row : BookingRequest) : BookingConflicts :=
  if row.status ≠ .pending then ⟨false, []⟩
  else
    let spans := liveSpans d row.id
    if spans = [] then ⟨false, []⟩
    else
      let picture := conflictPicture registration d row.venueId spans (some row.id)
      ⟨decide (0 < picture.approvedClashCount), picture.pending.map fun p ↦
        ⟨p.id, p.code, p.requesterName, p.firstStartAt, p.lastEndAt⟩⟩

/-- `BookingPreflightDto`. -/
structure BookingPreflightDto where
  venueId : Cuid
  slots : List BookingSlotInput

/-- A loser in `BookingPreflightResponseDto`. -/
structure OverlappingPendingRequest where
  id : Cuid
  code : JsString
  purpose : JsString
  requesterName : Option JsString

/-- `BookingPreflightResponseDto`. -/
structure BookingPreflightResponse where
  hasApprovedClash : Bool
  approvedClashCount : ℕ
  overlappingPendingRequests : List OverlappingPendingRequest
  venueIsOpen : Bool

/-- `checkPreflight`, at the time `now` and with what is found of the venue. -/
def checkPreflight (now : ℤ) (venue : Cuid → Option (Cuid × Bool)) (dto : BookingPreflightDto) :
    Except BookingError BookingPreflightResponse :=
  match parseSlots now dto.slots with
  | .error e => .error e
  | .ok slots =>
    match venue dto.venueId with
    | none => .error (.notFound .venueNotFound)
    | some (venueId, isOpen) =>
      -- the client refuses a date that is none
      match slotSpans slots with
      | .error e => .error e
      | .ok spans =>
        let picture := conflictPicture registration d venueId spans none
        .ok ⟨decide (0 < picture.approvedClashCount), picture.approvedClashCount,
          picture.pending.map fun p ↦ ⟨p.id, p.code, p.purpose, p.requesterName⟩, isOpen⟩

end Reads

section Picture

variable {registration : Cuid → Option Registration} {d : View} {venueId : Cuid}
  {spans : List SlotSpan} {exclude : Option Cuid}

/-- What is counted is what the decision looks for. -/
theorem approvedClashCount_pos :
    0 < (conflictPicture registration d venueId spans exclude).approvedClashCount ↔
      (findApprovedClash d venueId spans exclude).isSome = true := by
  unfold conflictPicture findApprovedClash
  split
  · simp
  · rw [List.find?_isSome]
    exact List.countP_pos_iff

/-- The reading of the requesters finds the losers themselves. -/
theorem pending_eq (hd : Sound d) :
    (conflictPicture registration d venueId spans exclude).pending =
      (findPendingLosers d venueId spans exclude).map fun l ↦
        { id := l.id, code := l.code, purpose := l.purpose,
          requesterName := requesterNameOf registration l, firstStartAt := l.firstStartAt,
          lastEndAt := l.lastEndAt } := by
  unfold conflictPicture
  split
  · next hnil => simp [findPendingLosers, hnil]
  refine List.map_congr_left fun l hl ↦ ?_
  have hmem : l ∈ d.all .request := (mem_findPendingLosers_iff.1 hl).1
  have hfind : (requestersOf registration d
      ((findPendingLosers d venueId spans exclude).map BookingRequest.id)).find?
        (fun p ↦ decide (p.1 = l.id)) =
      some (l.id, requesterNameOf registration l, l.purpose) := by
    have hin : (l.id, requesterNameOf registration l, l.purpose) ∈ requestersOf registration d
        ((findPendingLosers d venueId spans exclude).map BookingRequest.id) :=
      List.mem_map.2 ⟨l, List.mem_filter.2 ⟨hmem, by simpa using ⟨l, hl, rfl⟩⟩, rfl⟩
    rcases hq : List.find? _ _ with - | q
    · exact absurd (List.find?_eq_none.1 hq _ hin) (by simp)
    · obtain ⟨r, hr, rfl⟩ := List.mem_map.1 (List.mem_of_find?_eq_some hq)
      have hid : r.id = l.id := by simpa using List.find?_some hq
      have hrow := hd.mem_request.1 (List.mem_filter.1 hr).1
      rw [hid, hd.mem_request.1 hmem] at hrow
      rw [Option.some.inj hrow]
  rw [hfind]
  rfl

/-! ### What a clash is -/

/-- A slot that is held at the span. -/
def HeldAt (venueId : Cuid) (m : SlotSpan) (s : BookingSlot) : Prop :=
  s.span = m ∧ s.venueId = venueId ∧ s.holdsSlot = true

/-- The four ways to put it agree. -/
structure ClashReport (d : View) (venueId : Cuid) (spans : List SlotSpan) (exclude : Option Cuid)
    (clash : Bool) : Prop where
  /-- One of the spans has an instant in common with a live slot of another approved request. -/
  meets : clash = true ↔ ∃ m ∈ spans, ∃ j s q, d.row .slot j = some s ∧ s.isCancelled = false ∧
    s.venueId = venueId ∧ d.row .request s.bookingRequestId = some q ∧ q.status = .approved ∧
      (∀ id ∈ exclude, q.id ≠ id) ∧
        (Set.Ico m.start m.end ∩ Set.Ico s.startAt s.endAt).Nonempty
  /-- The exclusion constraint would not hold of the table with slots held at the spans. -/
  violates : ∀ news : List BookingSlot,
    List.Forall₂ (HeldAt venueId) spans news →
      (clash = true ↔ ¬ (d.all .slot ++ news).Pairwise fun s s' ↦ schema.conflict .slot s s' = none)

/-- The slots of the state are not empty. -/
def ProperSlots (d : View) : Prop :=
  ∀ j s, d.row .slot j = some s → BookingSlot.startAt s < BookingSlot.endAt s

theorem conflict_slot_eq_none {s s' : BookingSlot} :
    schema.conflict .slot s s' = none ↔ bookingSlotsNoOverlap s s' = false := by
  simp [schema]

theorem not_overlap_of_apart {m m' : SlotSpan} (h : m.Apart m') :
    tsrangeOverlap m.start m.end m'.start m'.end = false := by
  simp only [SlotSpan.Apart] at h
  simp only [tsrangeOverlap, decide_eq_false_iff_not, max_lt_iff, lt_min_iff]
  omega

/-- The slots of a table are compatible. -/
theorem Sound.pairwise_slots (hd : Sound d) :
    (d.all .slot).Pairwise fun s s' ↦ schema.conflict .slot s s' = none := by
  refine List.Pairwise.filterMap _ (fun i j hij s hs s' hs' ↦ ?_) List.nodup_range
  exact hd.compatible .slot i j s s' hij hs hs'

theorem pairwise_of_heldAt {news : List BookingSlot} (h : spans.Pairwise SlotSpan.Apart)
    (hnews : List.Forall₂ (HeldAt venueId) spans news) :
    news.Pairwise fun s s' ↦ schema.conflict .slot s s' = none := by
  have hspans : news.map BookingSlot.span = spans := by
    induction hnews with
    | nil => rfl
    | cons hm _ ih => rw [List.map_cons, hm.1, ih h.of_cons]
  rw [← hspans, List.pairwise_map] at h
  refine h.imp fun {s s'} hapart ↦ conflict_slot_eq_none.2 ?_
  have hover : tsrangeOverlap s.startAt s.endAt s'.startAt s'.endAt = false :=
    not_overlap_of_apart hapart
  rw [bookingSlotsNoOverlap, hover, Bool.and_false]

theorem mem_of_heldAt {news : List BookingSlot}
    (hnews : List.Forall₂ (HeldAt venueId) spans news) :
    (∀ m ∈ spans, ∃ s ∈ news, HeldAt venueId m s) ∧
      ∀ s ∈ news, ∃ m ∈ spans, HeldAt venueId m s := by
  induction hnews with
  | nil => simp
  | cons hm _ ih => exact ⟨by simpa using ⟨.inl hm, fun m h ↦ .inr (ih.1 m h)⟩,
      by simpa using ⟨.inl hm, fun s h ↦ .inr (ih.2 s h)⟩⟩

/-- A row and a slot that is held at a span are in conflict. -/
theorem noOverlap_iff (hd : Sound d) (hproper : ProperSlots d) {j : Cuid} {s s' : BookingSlot}
    {q : BookingRequest} {m : SlotSpan} (hs : d.row .slot j = some s)
    (hq : d.row .request s.bookingRequestId = some q) (hm : m.start < m.end)
    (hs' : HeldAt venueId m s') : bookingSlotsNoOverlap s s' = true ↔
      s.isCancelled = false ∧ q.status = .approved ∧ s.venueId = venueId ∧
        s.startAt < m.end ∧ m.start < s.endAt := by
  obtain ⟨rfl, rfl, hholds⟩ := hs'
  have hslot := hproper j s hs
  simp only [BookingSlot.span] at hm
  simp only [bookingSlotsNoOverlap, Bool.and_eq_true, decide_eq_true_eq, hholds, and_true,
    hd.holdsSlot_iff hs hq, tsrangeOverlap, BookingSlot.span, and_assoc]
  refine and_congr_right fun _ ↦ and_congr_right fun _ ↦ and_congr_right fun _ ↦ ?_
  omega

theorem clashReport (hd : Sound d) (hproper : ProperSlots d) (hspans : Spread spans)
    (hexclude : ∀ id ∈ exclude, ∀ q, d.row .request id = some q → q.status ≠ .approved) :
    ClashReport d venueId spans exclude (findApprovedClash d venueId spans exclude).isSome := by
  have hmet : ∀ m ∈ spans, Met d venueId exclude m ↔ ∃ j s q, d.row .slot j = some s ∧
      s.isCancelled = false ∧ s.venueId = venueId ∧ d.row .request s.bookingRequestId = some q ∧
        q.status = .approved ∧ (∀ id ∈ exclude, q.id ≠ id) ∧
          (Set.Ico m.start m.end ∩ Set.Ico s.startAt s.endAt).Nonempty := fun m hm ↦ by
    refine exists_congr fun j ↦ exists_congr fun s ↦ exists_congr fun q ↦ ?_
    refine ⟨fun ⟨hs, hlive, hv, hex, hq, hst, hover⟩ ↦ ?_,
      fun ⟨hs, hlive, hv, hq, hst, hex, hover⟩ ↦ ?_⟩
    · refine ⟨hs, hlive, hv, hq, hst, ?_, ?_⟩
      · rwa [hd.ok.request_id hq]
      · rw [Set.Ico_inter_Ico, Set.nonempty_Ico]
        have := hproper j s hs
        have := hspans.proper m hm
        simp only [max_lt_iff, lt_min_iff]
        omega
    · refine ⟨hs, hlive, hv, ?_, hq, hst, ?_⟩
      · rwa [hd.ok.request_id hq] at hex
      · rw [Set.Ico_inter_Ico, Set.nonempty_Ico] at hover
        simp only [max_lt_iff, lt_min_iff] at hover
        omega
  refine ⟨?_, fun news hnews ↦ ?_⟩
  · rw [findApprovedClash_isSome]
    exact exists_congr fun m ↦ and_congr_right fun hm ↦ hmet m hm
  · have hcross : (d.all .slot ++ news).Pairwise (fun s s' ↦ schema.conflict .slot s s' = none) ↔
        ∀ s ∈ d.all .slot, ∀ s' ∈ news, schema.conflict .slot s s' = none := by
      rw [List.pairwise_append]
      exact ⟨fun h ↦ h.2.2, fun h ↦ ⟨hd.pairwise_slots, pairwise_of_heldAt hspans.apart hnews, h⟩⟩
    obtain ⟨hspan, hnew⟩ := mem_of_heldAt hnews
    rw [hcross, findApprovedClash_isSome]
    push Not
    constructor
    · rintro ⟨m, hm, j, s, q, hs, hlive, hvenue, -, hq, hst, hover⟩
      obtain ⟨s', hs', hheld⟩ := hspan m hm
      refine ⟨s, Db.mem_all.2 ⟨j, hs⟩, s', hs', fun hnone ↦ ?_⟩
      have hconf := (noOverlap_iff hd hproper hs hq (hspans.proper m hm) hheld).2
        ⟨hlive, hst, hvenue, hover⟩
      rw [conflict_slot_eq_none.1 hnone] at hconf
      cases hconf
    · rintro ⟨s, hs, s', hs', hconf⟩
      obtain ⟨j, hs⟩ := Db.mem_all.1 hs
      obtain ⟨m, hm, hheld⟩ := hnew s' hs'
      obtain ⟨q, hq, -⟩ := hd.ok.parent hs
      rw [ne_eq, conflict_slot_eq_none, Bool.not_eq_false] at hconf
      obtain ⟨hlive, hst, hvenue, hover⟩ :=
        (noOverlap_iff hd hproper hs hq (hspans.proper m hm) hheld).1 hconf
      refine ⟨m, hm, j, s, q, hs, hlive, hvenue, fun id hid he ↦ ?_, hq, hst, hover⟩
      exact hexclude id hid q (he ▸ hq) hst

end Picture

/-! ### The decisions -/

section Decisions

variable {registration : Cuid → Option Registration} {d d' d'' : View}

/-- The requests that a decision rejects are the losers it has found. -/
theorem autoRejected_iff (hd : Sound d) {losers : List BookingRequest} {c : ℤ}
    {f : BookingRequest → BookingRequest}
    (hlosers : ∀ l ∈ losers, l ∈ d.all .request ∧ l.status = .pending)
    (hf : ∀ r, (f r).id = r.id ∧
      (f r = r ∨ (f r).status = .approved ∧ r.id ∉ losers.map BookingRequest.id))
    (h : ∀ i r, d.row .request i = some r →
      d'.row .request i = some (withLosers losers c (f r))) (i : Cuid) :
    AutoRejected d d' i ↔ i ∈ losers.map BookingRequest.id := by
  constructor
  · rintro ⟨⟨r, hr, hst⟩, r', hr', hst', -⟩
    obtain rfl := Option.some.inj (hr'.symm.trans (h i r hr))
    rw [← hd.ok.request_id hr, ← (hf r).1]
    unfold withLosers at hst'
    split at hst'
    · next hmem => exact hmem.1
    · rcases (hf r).2 with he | ⟨ha, -⟩
      · rw [he, hst] at hst'
        cases hst'
      · rw [ha] at hst'
        cases hst'
  · intro hi
    obtain ⟨l, hl, rfl⟩ := List.mem_map.1 hi
    obtain ⟨hmem, hst⟩ := hlosers l hl
    have hrow := hd.mem_request.1 hmem
    have hfl : f l = l := (hf l).2.resolve_right fun ha ↦ ha.2 hi
    refine ⟨⟨l, hrow, hst⟩, _, h _ l hrow, ?_⟩
    rw [hfl, withLosers, if_pos ⟨hi, hst⟩]
    exact ⟨rfl, rfl⟩

/-- The `conflicts` of a pending request. -/
theorem conflictsOf_eq (hd : Sound d) {r : BookingRequest} (hst : r.status = .pending) :
    conflictsOf registration d r =
      ⟨(findApprovedClash d r.venueId (liveSpans d r.id) (some r.id)).isSome,
        (findPendingLosers d r.venueId (liveSpans d r.id) (some r.id)).map fun l ↦
          ⟨l.id, l.code, requesterNameOf registration l, l.firstStartAt, l.lastEndAt⟩⟩ := by
  unfold conflictsOf
  rw [if_neg (by simpa using hst)]
  dsimp only
  split
  · next hnil => simp [hnil, findApprovedClash, findPendingLosers]
  · have hclash : 0 < (conflictPicture registration d r.venueId (liveSpans d r.id)
        (some r.id)).approvedClashCount ↔
          (findApprovedClash d r.venueId (liveSpans d r.id) (some r.id)).isSome = true :=
      approvedClashCount_pos
    rw [pending_eq hd, List.map_map]
    congr 1
    rw [Bool.eq_iff_iff, decide_eq_true_iff]
    exact hclash

/-! ### Reachable states -/

theorem sound_of_reachable {w : BookingWorld} (hw : bookings.Reachable w) :
    Sound w.store.committed := by
  have hstanding : Standing False w.store :=
    (healthy False (hw.mono fun w e _ ↦ granted_contract_false w e)).inv
  exact ⟨hstanding.integrity.view none, .view hstanding.compatible none⟩

/-- Whoever reads the clock now and counts draws a free code: every booking was stamped before now,
so those minted for today are counted. -/
theorem not_codeTaken_of_reachable {w : BookingWorld} (hw : bookings.Reachable w) :
    ¬ CodeTaken w.store.clock w.store.committed := by
  rintro ⟨now, i, r, hnow, hr, hcode⟩
  have hstanding : Standing False w.store :=
    (healthy False (hw.mono fun w e _ ↦ granted_contract_false w e)).inv
  have hlt := hstanding.codes.counted ((Cell.seen_none _).symm.trans hr) hcode
  refine absurd hlt (Nat.not_lt.2 (Db.countP_all_le fun j q hq hp ↦ ⟨q, hq, ?_⟩))
  obtain ⟨m, n, hm, hle, hle'⟩ := hstanding.codes.minted (v := none) hq
  rcases Bool.or_eq_true_iff.1 hp with hp | hp
  · exact hp
  · rw [createdOn_iff]
    rw [mintedFor_iff hm] at hp
    exact le_antisymm (bangkokDay_mono (hle'.trans hnow)) (hp ▸ bangkokDay_mono hle)

theorem properSlots_of_reachable {w : BookingWorld} (hw : bookings.Reachable w) :
    ProperSlots w.store.committed :=
  fun j s hs ↦ (scattered_of_reachable hw).proper none j s hs

theorem spread_liveSpans {w : BookingWorld} (hw : bookings.Reachable w) (id : Cuid) :
    Spread (liveSpans w.store.committed id) := by
  have hscattered := scattered_of_reachable hw
  refine ⟨fun m hm ↦ ?_, ?_⟩
  · obtain ⟨j, s, hs, -, -, rfl⟩ := mem_liveSpans.1 hm
    exact hscattered.proper none j s hs
  · have hall : (w.store.committed.all .slot).Pairwise fun s s' ↦
        BookingSlot.bookingRequestId s = BookingSlot.bookingRequestId s' →
          (BookingSlot.span s).Apart (BookingSlot.span s') :=
      List.Pairwise.filterMap _ (fun i j hij s hs s' hs' ↦
        hscattered.apart none none i j s s' hij hs hs') List.nodup_range
    refine List.pairwise_map.2 ((hall.filter _).imp_of_mem fun {s s'} hs hs' hapart ↦ hapart ?_)
    exact (mem_liveSlots.1 hs).2.1.trans (mem_liveSlots.1 hs').2.1.symm

/-- **A pending request has a live slot**: it has one, and only what was settled loses slots. -/
theorem liveSlots_ne_nil_of_reachable {w : BookingWorld} (hw : bookings.Reachable w)
    {r : BookingRequest} (hrow : w.store.committed.row .request r.id = some r)
    (hst : r.status = .pending) : liveSlots w.store.committed r.id ≠ [] := by
  obtain ⟨j, s, hs, hid⟩ := peopled_of_reachable hw r.id r hrow
  obtain ⟨q, hq, hagrees⟩ := (sound_of_reachable hw).ok.parent hs
  rw [hid] at hq
  obtain rfl := Option.some.inj (hrow.symm.trans hq)
  have hlive : s.isCancelled = false := by
    by_contra hc
    rcases hagrees.settled (by simpa using hc) with h | h <;> simp [hst] at h
  exact List.ne_nil_of_mem (mem_liveSlots.2 ⟨⟨j, hs⟩, hid, hlive⟩)

/-! ### Approving -/

/-- What becomes of an approval. -/
def ApproveOutcome (d : View) (id : Cuid) (actor : Actor) (res : Except BookingError Reply)
    (d' : View) : Prop :=
  (∃ e, approveRefusal d id = some e ∧ res = .error e) ∨
    ∃ reply, res = .ok reply ∧ Approves d id actor reply d'

theorem heads_approve (hd : Sound d) {since : ℤ} {id : Cuid} {actor : Actor}
    (hapart : (liveSpans d id).Pairwise SlotSpan.Apart) :
    bookings.Heads undisturbed since (.approve id actor) (ApproveOutcome d id actor)
      (service (.approve id actor)) d := by
  refine ⟨solo_mono (fun e he d' hd' ↦ ?_) (fun reply d' ha ↦ .inr ⟨reply, rfl, ha⟩)
    (solo_approveTx hd hapart), fun _ _ _ hlost ↦ hlost.2.elim⟩
  refine .inl ⟨e, he, ?_⟩
  unfold approveRefusal at he
  split at he
  · obtain rfl := Option.some.inj he
    rfl
  · split_ifs at he <;> obtain rfl := Option.some.inj he <;> rfl

/-- The `conflicts` of a request are what becomes of its approval. -/
structure Foretells (d : View) (id : Cuid) (c : BookingConflicts) (res : Except BookingError Reply)
    (d' : View) : Prop where
  refused : res = .error (.conflict .slotTaken) ↔ c.approvedClash = true
  accepted : (∃ reply, res = .ok reply) ↔ c.approvedClash = false
  reply : ∀ reply, res = .ok reply →
    reply = .approved id (c.pendingLosers.map fun l ↦ ⟨l.id, l.code⟩)
  rejected : ∀ reply, res = .ok reply →
    ∀ i, AutoRejected d d' i ↔ i ∈ c.pendingLosers.map ConflictingRequest.id

theorem foretells_of_outcome (hd : Sound d) {r : BookingRequest} {actor : Actor}
    {res : Except BookingError Reply} (hrow : d.row .request r.id = some r)
    (hst : r.status = .pending) (hlive : liveSlots d r.id ≠ [])
    (h : ApproveOutcome d r.id actor res d') :
    Foretells d r.id (conflictsOf registration d r) res d' := by
  have hrefusal : approveRefusal d r.id =
      if (findApprovedClash d r.venueId (liveSpans d r.id) (some r.id)).isSome then
        some (.conflict .slotTaken)
      else none := by
    simp [approveRefusal, hrow, hst, hlive]
  rw [conflictsOf_eq hd hst]
  rcases h with ⟨e, he, rfl⟩ | ⟨reply, rfl, happroves⟩
  · rw [hrefusal] at he
    split_ifs at he with hc
    obtain rfl := Option.some.inj he
    exact ⟨by simp [hc], by simp [hc], fun _ h ↦ (by cases h), fun _ h ↦ by cases h⟩
  · have hpasses := happroves.passes
    rw [hrefusal] at hpasses
    split_ifs at hpasses with hc
    refine ⟨by simp [hc], by simp [hc], fun reply' he ↦ ?_, fun _ _ i ↦ ?_⟩
    · obtain rfl := Except.ok.inj he
      obtain ⟨booking, hb, rfl⟩ := happroves.reply
      obtain rfl := Option.some.inj (hrow.symm.trans hb)
      simp [BookingRequest.autoRejected, Function.comp_def]
    · obtain ⟨booking, now, c, c', hb, hbecome⟩ := happroves.become
      obtain rfl := Option.some.inj (hrow.symm.trans hb)
      rw [List.map_map]
      refine autoRejected_iff hd (c := c')
        (f := fun q ↦ if q.id = r.id then approvedBy actor now c q else q)
        (fun l hl ↦ ?_) (fun q ↦ ?_) (fun i q hq ↦ ?_) i
      · obtain ⟨hmem, -, hst, -⟩ := mem_findPendingLosers_iff.1 hl
        exact ⟨hmem, hst⟩
      · split
        · next hid =>
          refine ⟨rfl, .inr ⟨rfl, fun hin ↦ ?_⟩⟩
          obtain ⟨l, hl, hlid⟩ := List.mem_map.1 hin
          exact (mem_findPendingLosers_iff.1 hl).2.2.2.1 r.id rfl (hlid.trans hid)
        · exact ⟨rfl, .inl rfl⟩
      · rw [hbecome.request, hq]
        rfl

/-- **The conflicts of a request are the outcome of its approval.** What is said of a pending
request in any state that can be reached comes true if nothing is written before the decision. -/
theorem conflicts_foretell {w w₀ w' : BookingWorld} (hw : bookings.Reachable w) (hq : w₀.Quiet)
    (hrows : w₀.store.committed = w.store.committed) {r : BookingRequest}
    (hrow : w.store.committed.row .request r.id = some r) (hst : r.status = .pending) {t : ℕ}
    {actor : Actor} {cur : Option (Tx Reply)} {res : Except BookingError Reply}
    (hserving : bookings.Serving undisturbed t (.approve r.id actor) w₀ cur w')
    (hres : w'.result t = some res) :
    ClashReport w.store.committed r.venueId (liveSpans w.store.committed r.id) (some r.id)
        (conflictsOf registration w.store.committed r).approvedClash ∧
      Foretells w.store.committed r.id (conflictsOf registration w.store.committed r) res
        w'.store.committed := by
  have hd := sound_of_reachable hw
  have hspread := spread_liveSpans hw r.id
  constructor
  · rw [conflictsOf_eq hd hst]
    refine clashReport hd (properSlots_of_reachable hw) hspread fun id hid q hq hqst ↦ ?_
    obtain rfl := Option.some.inj hid
    obtain rfl := Option.some.inj (hrow.symm.trans hq)
    rw [hst] at hqst
    cases hqst
  · have hheads : bookings.Heads undisturbed w₀.store.clock (.approve r.id actor)
        (ApproveOutcome w.store.committed r.id actor) (service (.approve r.id actor))
        w.store.committed :=
      heads_approve hd hspread.apart
    rw [← hrows] at hheads
    have houtcome := (hserving.sound hq hheads hres).2
    rw [hrows] at houtcome
    exact foretells_of_outcome hd hrow hst (liveSlots_ne_nil_of_reachable hw hrow hst) houtcome

/-- Two requests want the same hour: each is told of the other. -/
theorem conflicts_foretell_rivals : ∃ (w w' : BookingWorld) (r : BookingRequest)
    (res : Except BookingError Reply), bookings.Reachable w ∧ w'.result 0 = some res ∧
      (conflictsOf (fun _ ↦ none) w.store.committed r).pendingLosers.map ConflictingRequest.id =
        [2] ∧
      Foretells w.store.committed r.id (conflictsOf (fun _ ↦ none) w.store.committed r) res
        w'.store.committed := by
  have hw := reachable_after Sample.rivals
  have hlosers : ((after Sample.rivals).store.committed.row .request 0).map (fun r ↦
      (r.id, r.status, (conflictsOf (fun _ ↦ none) (after Sample.rivals).store.committed
        r).pendingLosers.map ConflictingRequest.id)) = some (0, .pending, [2]) := by
    decide +kernel
  obtain ⟨r, hrow, he⟩ := Option.map_eq_some_iff.1 hlosers
  obtain ⟨hid, hrest⟩ := Prod.mk.inj he
  obtain ⟨hst, hlosers⟩ := Prod.mk.inj hrest
  obtain ⟨cur, w', res, hserving, hres⟩ : ∃ cur w' res, bookings.Serving undisturbed 0
      (.approve r.id Sample.staff) _ cur w' ∧ w'.result 0 = some res :=
    System.exists_served Sample.oracle
      (World.quiet_holding (after Sample.rivals).store.committed) rfl fun _ _ ↦ trivial
  refine ⟨_, w', r, res, hw, hres, hlosers, (conflicts_foretell hw
    (World.quiet_holding (after Sample.rivals).store.committed) rfl ?_ hst hserving hres).2⟩
  rw [hid, hrow]

/-! ### Booking directly -/

/-- Nothing is lost, and the questions get the answers of an oracle. -/
def answering (oracle : ∀ q, Ans q) : Terms Row BookingError Cuid Ans Reply Op where
  call _ _ := True
  may _ _ q a := a = oracle q
  lose _ _ _ _ := False

instance (oracle : ∀ q, Ans q) (op : Op) (d : View) (q : Ask) (a : Ans q) :
    Decidable ((answering oracle).may op d q a) := by
  unfold answering
  induction q using Ask.casesOn <;> infer_instance

section Direct

variable {oracle : ∀ q, Ans q} {dto : CreateDirectBookingDto} {slots : List ParsedSpan}
  {actor : Actor} {venueId : Cuid} {isOpen : Bool} {e : BookingError} {since : ℤ}

/-- An input is named that may not be. -/
inductive InputRefused (oracle : ∀ q, Ans q) (dto : CreateDirectBookingDto) : BookingError → Prop
  | lineUser {id} (h : dto.lineUserId = some id) (hno : oracle (.allowedLineUser id) = false) :
      InputRefused oracle dto (.badRequest .invalidLineUser)
  | department {id} (h : dto.departmentId = some id) (hno : oracle (.department id) = false) :
      InputRefused oracle dto (.badRequest .invalidDepartment)

/-- A reason to refuse a direct booking that has nothing to do with the hours that are taken. The
clock may have moved on, to where one of the slots has begun. -/
inductive Elsewhere (oracle : ∀ q, Ans q) (since : ℤ) (dto : CreateDirectBookingDto) :
    BookingError → Prop
  | originShape (h : originShapeOk dto = false) :
      Elsewhere oracle since dto (.badRequest .originShape)
  | parsing {now err} (hnow : since ≤ now) (h : parseSlots now dto.slots = .error err) :
      Elsewhere oracle since dto err
  | input {err} (h : InputRefused oracle dto err) : Elsewhere oracle since dto err

/-- What an attempt fails with. -/
def FailsWith (oracle : ∀ q, Ans q) (d : View) (dto : CreateDirectBookingDto) (venueId : Cuid)
    (slots : List ParsedSpan) (e : BookingError) : Prop :=
  InputRefused oracle dto e ∨ spansRefusal d venueId slots = some e

/-- What an attempt that does not fail does. -/
def BooksDirectly (d : View) (dto : CreateDirectBookingDto) (venueId : Cuid)
    (slots : List ParsedSpan) (actor : Actor) (reply : Reply) (d' : View) : Prop :=
  spansRefusal d venueId slots = none ∧
    ∃ spans, slotSpans slots = .ok spans ∧ Directs d dto venueId actor spans reply d'

theorem solo_createDirectOnce {may : ∀ q, Ans q → Prop} (hmay : ∀ q a, may q a → a = oracle q)
    (hd : Sound d) (hcodes : ¬ CodeTaken since d) (hslots : slots ≠ [])
    (hspread : ∀ spans, slotSpans slots = .ok spans → Spread spans)
    (hvenue : oracle (.venue dto.venueId) = some (venueId, isOpen)) :
    (createDirectOnce dto slots actor).solo schema may since (FailsWith oracle d dto venueId slots)
      (BooksDirectly d dto venueId slots actor) d := by
  rw [createDirectOnce_eq]
  refine solo_lockVenue.2 fun venue hv ↦ ?_
  obtain rfl := (hmay _ _ hv).trans hvenue
  refine solo_require (fun h ↦ (nomatch h)) fun found hfound ↦ ?_
  obtain rfl := Option.some.inj hfound
  refine solo_checkInput (fun id answer hid ha hno ↦ ?_) fun _ ↦
    solo_checkInput (fun id answer hid ha hno ↦ ?_) fun _ ↦ ?_
  · exact .inl (.lineUser hid ((hmay _ _ ha).symm.trans hno))
  · exact .inl (.department hid ((hmay _ _ ha).symm.trans hno))
  · refine solo_mono (fun e he ↦ ?_) (fun _ _ h ↦ h)
      (solo_bookDirectly hd hslots fun spans hspans ↦ (hspread spans hspans).apart)
    rcases he with he | ⟨-, -, htaken⟩
    · exact .inr he
    · exact absurd htaken hcodes

/-- Such an error is handed on as it is, and is no collision. -/
theorem runDecision_of_failsWith (h : FailsWith oracle d dto venueId slots e) :
    runDecision e = e ∧ e ≠ .codeCollision := by
  rcases h with h | h
  · cases h <;> exact ⟨rfl, fun h ↦ by cases h⟩
  · unfold spansRefusal at h
    split at h
    · next e' he =>
      obtain rfl := Option.some.inj h
      unfold slotSpans at he
      split at he
      · cases he
      · obtain rfl := Except.error.inj he
        exact ⟨rfl, fun h ↦ by cases h⟩
    · split_ifs at h
      obtain rfl := Option.some.inj h
      exact ⟨rfl, fun h ↦ by cases h⟩

/-- What becomes of a direct booking whose slots are accepted. -/
def DirectOutcome (oracle : ∀ q, Ans q) (d : View) (dto : CreateDirectBookingDto) (venueId : Cuid)
    (slots : List ParsedSpan) (actor : Actor) (res : Except BookingError Reply)
    (d' : View) : Prop :=
  (∃ e, FailsWith oracle d dto venueId slots e ∧ res = .error e) ∨
    ∃ reply, res = .ok reply ∧ BooksDirectly d dto venueId slots actor reply d'

/-- The first attempt is the only one. -/
theorem heads_retryOnCollision {op : Op} (hd : Sound d) (hcodes : ¬ CodeTaken since d)
    (hslots : slots ≠ []) (hspread : ∀ spans, slotSpans slots = .ok spans → Spread spans)
    (hvenue : oracle (.venue dto.venueId) = some (venueId, isOpen)) (n : ℕ) :
    bookings.Heads (answering oracle) since op (DirectOutcome oracle d dto venueId slots actor)
      (retryOnCollision runDecision (createDirectOnce dto slots actor) (n + 1)) d := by
  refine ⟨solo_mono (fun e he d'' _ ↦ ?_) (fun reply d'' hb ↦ .inr ⟨reply, rfl, hb⟩)
    (solo_createDirectOnce (fun q a ⟨_, _, ha⟩ ↦ ha) hd hcodes hslots hspread hvenue),
    fun _ _ _ hlost ↦ hlost.2.elim⟩
  obtain ⟨hrun, hne⟩ := runDecision_of_failsWith he
  show Session.serves _ _ _ _ _ (if _ then _ else _) _
  rw [hrun, if_neg hne]
  exact .inl ⟨e, he, rfl⟩

/-- A direct booking has been made: `row` is new, and so is a slot for each of the spans. -/
structure BookedDirectly (dto : CreateDirectBookingDto) (venueId : Cuid) (actor : Actor)
    (spans : List SlotSpan) (row : BookingRequest) (d d' : View) : Prop where
  fresh : d.row .request row.id = none
  request : d'.row .request row.id = some row
  direct : DirectRow dto venueId actor row
  bounds : spanBounds spans = some (row.firstStartAt, row.lastEndAt)
  slots : ∃ news, List.Forall₂ (NewSlot row) spans news ∧
    (d'.all .slot).map BookingSlot.bare = (d.all .slot ++ news).map BookingSlot.bare

/-- What the preflight says is what becomes of the booking. -/
inductive ForetellsDirect (oracle : ∀ q, Ans q) (since : ℤ) (dto : CreateDirectBookingDto)
    (venueId : Cuid) (spans : List SlotSpan) (actor : Actor) (p : BookingPreflightResponse)
    (d : View) (res : Except BookingError Reply) (d' : View) : Prop
  | elsewhere {err} (h : Elsewhere oracle since dto err) (hres : res = .error err)
  | refused (hclash : p.hasApprovedClash = true) (hres : res = .error (.conflict .slotTaken))
  | booked (row : BookingRequest) (hfree : p.hasApprovedClash = false)
      (hbooked : BookedDirectly dto venueId actor spans row d d')
      (hres : res =
        .ok (.direct row.id (p.overlappingPendingRequests.map fun l ↦ ⟨l.id, l.code⟩)))
      (hrejected : ∀ i, AutoRejected d d' i ↔
        i ∈ p.overlappingPendingRequests.map OverlappingPendingRequest.id)

/-- What the preflight says. -/
structure Previews (registration : Cuid → Option Registration) (d : View) (venueId : Cuid)
    (spans : List SlotSpan) (p : BookingPreflightResponse) : Prop where
  clash : p.hasApprovedClash = (findApprovedClash d venueId spans none).isSome
  pending : p.overlappingPendingRequests = (findPendingLosers d venueId spans none).map fun l ↦
    ⟨l.id, l.code, l.purpose, requesterNameOf registration l⟩

theorem checkPreflight_eq_ok (hd : Sound d) {now : ℤ} {venue : Cuid → Option (Cuid × Bool)}
    {dto : BookingPreflightDto} {p : BookingPreflightResponse}
    (h : checkPreflight registration d now venue dto = .ok p) :
    ∃ slots venueId isOpen spans, parseSlots now dto.slots = .ok slots ∧
      venue dto.venueId = some (venueId, isOpen) ∧ slotSpans slots = .ok spans ∧
        Previews registration d venueId spans p := by
  unfold checkPreflight at h
  split at h
  · cases h
  · next slots hslots =>
    split at h
    · cases h
    · next venueId isOpen hvenue =>
      split at h
      · cases h
      · next spans hspans =>
        obtain rfl := Except.ok.inj h
        refine ⟨slots, venueId, isOpen, spans, hslots, hvenue, hspans, ?_, ?_⟩
        · rw [Bool.eq_iff_iff, decide_eq_true_iff]
          exact approvedClashCount_pos
        · rw [pending_eq hd, List.map_map]
          rfl

/-- Slots that are accepted at two moments are the same. -/
theorem parseSlots_unique {now now' : ℤ} {input : List BookingSlotInput} {slots' : List ParsedSpan}
    (h : parseSlots now input = .ok slots) (h' : parseSlots now' input = .ok slots') :
    slots' = slots := by
  rw [← parseSlotsBy_insertion, parseSlotsBy_eq_ok_iff] at h h'
  exact h'.1.trans h.1.symm

theorem heads_createDirect (hd : Sound d) (hcodes : ¬ CodeTaken since d) {now : ℤ}
    (hparse : parseSlots now dto.slots = .ok slots)
    (hvenue : oracle (.venue dto.venueId) = some (venueId, isOpen)) :
    bookings.Heads (answering oracle) since (.createDirect dto actor)
      (fun res d' ↦ (∃ err, Elsewhere oracle since dto err ∧ res = .error err) ∨
        DirectOutcome oracle d dto venueId slots actor res d')
      (service (.createDirect dto actor)) d := by
  show Session.serves _ _ _ _ _ (createDirect dto actor) _
  unfold createDirect
  split
  · next hshape => exact .inl ⟨_, .originShape hshape, rfl⟩
  · intro c hc
    beta_reduce
    split
    · next err herr => exact .inl ⟨err, .parsing hc herr, rfl⟩
    · next slots' hslots' =>
      obtain rfl := parseSlots_unique hparse hslots'
      exact Session.serves_mono (fun _ _ h ↦ .inr h) (heads_retryOnCollision hd hcodes
        (ne_nil_of_parseSlots hparse dto.slots_ne_nil)
        (fun spans hspans ↦ spread_of_parseSlots hparse hspans) hvenue 4)

/-- The request that was booked is none of the losers. -/
theorem withLosers_of_approved {losers : List BookingRequest} {c : ℤ} {row : BookingRequest}
    (h : row.status = .approved) : withLosers losers c row = row :=
  if_neg fun ⟨_, hp⟩ ↦ by
    rw [h] at hp
    cases hp

theorem foretellsDirect_of_outcome (hd : Sound d) {spans : List SlotSpan}
    {p : BookingPreflightResponse} {res : Except BookingError Reply}
    (hspans : slotSpans slots = .ok spans) (hp : Previews registration d venueId spans p)
    (h : DirectOutcome oracle d dto venueId slots actor res d') :
    ForetellsDirect oracle since dto venueId spans actor p d res d' := by
  have hrefusal : spansRefusal d venueId slots =
      if p.hasApprovedClash then some (.conflict .slotTaken) else none := by
    simp only [spansRefusal, hspans, hp.clash]
  rcases h with ⟨err, herr | herr, rfl⟩ | ⟨reply, rfl, hpasses, hbook⟩
  · exact .elsewhere (.input herr) rfl
  · rw [hrefusal] at herr
    split_ifs at herr with hc
    obtain rfl := Option.some.inj herr
    exact .refused hc rfl
  · rw [hrefusal] at hpasses
    split_ifs at hpasses with hc
    obtain ⟨spans', hspans', hreply, -, row, c, hdirect, hbooks⟩ := hbook
    obtain rfl := Except.ok.inj (hspans.symm.trans hspans')
    obtain rfl := hreply
    -- a row of `d` and the new one are among those of `d'`, under their ids
    have hmem : ∀ q ∈ d.all .request ++ [row],
        d'.row .request q.id = some (withLosers (findPendingLosers d venueId spans none) c q) :=
      fun q hq ↦ by
        have hid : (withLosers (findPendingLosers d venueId spans none) c q).id = q.id := by
          unfold withLosers
          split <;> rfl
        rw [← hid]
        refine hbooks.sound.mem_request.1 ?_
        rw [hbooks.request]
        exact List.mem_map_of_mem hq
    obtain ⟨news, hslots, hnews⟩ := hbooks.slot
    refine .booked row (by simpa using hc) ⟨?_, ?_, hdirect, hbooks.bounds, news, hnews, hslots⟩
      ?_ fun i ↦ ?_
    · rw [hbooks.id]
      exact d.bounded _ _ le_rfl
    · rw [hmem row (List.mem_append_right _ List.mem_cons_self),
        withLosers_of_approved hdirect.status]
    · rw [hp.pending, List.map_map, hbooks.id]
      rfl
    · rw [hp.pending, List.map_map]
      refine autoRejected_iff hd (f := id) (c := c) (fun l hl ↦ ?_) (fun q ↦ ⟨rfl, .inl rfl⟩)
        (fun i q hq ↦ ?_) i
      · obtain ⟨hmem, -, hst, -⟩ := mem_findPendingLosers_iff.1 hl
        exact ⟨hmem, hst⟩
      · have hqid : q.id = i := hd.ok.request_id hq
        rw [← hqid]
        exact hmem q (List.mem_append_left _ (Db.mem_all.2 ⟨i, hq⟩))

/-- **The preflight is the outcome of the booking.** What is said of spans in any state that can be
reached comes true if nothing is written before they are booked. -/
theorem preflight_foretells {w w₀ w' : BookingWorld} (hw : bookings.Reachable w) (hq : w₀.Quiet)
    (hrows : w₀.store.committed = w.store.committed) (hclock : w.store.clock ≤ w₀.store.clock)
    {now : ℤ} {p : BookingPreflightResponse}
    (hp : checkPreflight registration w.store.committed now (fun id ↦ oracle (.venue id))
      ⟨dto.venueId, dto.slots⟩ = .ok p) {t : ℕ} {cur : Option (Tx Reply)}
    {res : Except BookingError Reply}
    (hserving : bookings.Serving (answering oracle) t (.createDirect dto actor) w₀ cur w')
    (hres : w'.result t = some res) :
    ∃ slots venueId isOpen spans, parseSlots now dto.slots = .ok slots ∧
      slotSpans slots = .ok spans ∧ oracle (.venue dto.venueId) = some (venueId, isOpen) ∧
      ClashReport w.store.committed venueId spans none p.hasApprovedClash ∧
      ForetellsDirect oracle w₀.store.clock dto venueId spans actor p w.store.committed res
        w'.store.committed := by
  have hd := sound_of_reachable hw
  obtain ⟨slots, venueId, isOpen, spans, hslots, hvenue, hspans, hpreview⟩ :=
    checkPreflight_eq_ok hd hp
  refine ⟨slots, venueId, isOpen, spans, hslots, hspans, hvenue, ?_, ?_⟩
  · rw [hpreview.clash]
    exact clashReport hd (properSlots_of_reachable hw) (spread_of_parseSlots hslots hspans)
      fun _ h ↦ (nomatch h)
  · have hcodes : ¬ CodeTaken w₀.store.clock w.store.committed := fun ⟨now, i, r, hnow, htaken⟩ ↦
      not_codeTaken_of_reachable hw ⟨now, i, r, hclock.trans hnow, htaken⟩
    have hheads : bookings.Heads (answering oracle) w₀.store.clock (.createDirect dto actor)
        (fun res d' ↦ (∃ err, Elsewhere oracle w₀.store.clock dto err ∧ res = .error err) ∨
          DirectOutcome oracle w.store.committed dto venueId slots actor res d')
        (service (.createDirect dto actor)) w.store.committed :=
      heads_createDirect hd hcodes hslots hvenue
    rw [← hrows] at hheads
    rcases (hserving.sound hq hheads hres).2 with ⟨err, herr, rfl⟩ | houtcome
    · exact .elsewhere herr rfl
    · rw [hrows] at houtcome
      exact foretellsDirect_of_outcome hd hspans hpreview houtcome

/-- Both requests for an hour are shown to whoever would book it directly, and lose it. -/
theorem preflight_foretells_rivals : ∃ (w w' : BookingWorld) (p : BookingPreflightResponse)
    (reply : Reply), bookings.Reachable w ∧ w'.result 0 = some (.ok reply) ∧
      p.overlappingPendingRequests.map OverlappingPendingRequest.id = [0, 2] ∧
      ∃ venueId spans, ForetellsDirect Sample.oracle 0 (Sample.direct 100) venueId spans
        Sample.staff p w.store.committed (.ok reply) w'.store.committed := by
  have hw := reachable_after Sample.rivals
  have hpending : (checkPreflight (fun _ ↦ none) (after Sample.rivals).store.committed 0
      (fun id ↦ Sample.oracle (.venue id)) ⟨1, (Sample.direct 100).slots⟩).toOption.map
        (fun p ↦ p.overlappingPendingRequests.map OverlappingPendingRequest.id) =
      some [0, 2] := by
    decide +kernel
  have hclock : (after Sample.rivals).store.clock = 0 := by decide +kernel
  obtain ⟨p, hp, hpending⟩ := Option.map_eq_some_iff.1 hpending
  rcases hcheck : checkPreflight (fun _ ↦ none) (after Sample.rivals).store.committed 0
      (fun id ↦ Sample.oracle (.venue id)) ⟨1, (Sample.direct 100).slots⟩ with e | q
  · rw [hcheck] at hp
    cases hp
  · rw [hcheck] at hp
    obtain rfl : q = p := Option.some.inj hp
    have hserved : ((bookings.step (.call 0 (.createDirect (Sample.direct 100) Sample.staff))
        (World.holding (after Sample.rivals).store.committed)).bind
          (bookings.serve (answering Sample.oracle) 0
            (.createDirect (Sample.direct 100) Sample.staff) Sample.oracle 20)).any
              (fun w : BookingWorld ↦ (w.result 0).any Except.toBool) = true := by
      decide +kernel
    obtain ⟨w', hw', hresult⟩ := (Option.any_eq_true _ _).1 hserved
    obtain ⟨w₁, hcall, hrun⟩ := Option.bind_eq_some_iff.1 hw'
    obtain ⟨cur, res, hserving, hres⟩ := System.Serving.serve (.call hcall) hrun
    rw [hres] at hresult
    cases res with
    | error e => cases hresult
    | ok reply =>
      obtain ⟨_, venueId, _, spans, -, -, -, -, htold⟩ := preflight_foretells hw
        (World.quiet_holding (after Sample.rivals).store.committed) rfl hclock.le hcheck hserving
        hres
      exact ⟨_, w', q, reply, hw, hres, hpending, venueId, spans, htold⟩

end Direct

end Decisions

end EasyBook

import EasyBook.Bookings.Outcomes
import EasyBook.Bookings.Services
import EasyBook.ReadCommitted.Frame

/-!
# The slots of one request

No two slots of one request have an instant in common, and no slot is empty, whatever the
interleaving (`scattered_of_reachable`); and every request has a slot (`peopled_of_reachable`). The
slots of a request are inserted by one transaction, from spans that `parseSlots` has accepted, and
no statement moves a slot afterwards. `Tx.Spreads` says so of a transaction; the contract of the
booking core supplies the rest, that nobody else inserts slots below a request that is not
committed.
-/

namespace EasyBook

open ReadCommitted ReadCommitted.Prog

/-! ### Statements -/

/-- `s'` has the parent and the span of `s`. -/
def BookingSlot.SamePlace (s s' : BookingSlot) : Prop :=
  s'.bookingRequestId = s.bookingRequestId ∧ s'.span = s.span

/-- A slot is where it is. -/
theorem BookingSlot.SamePlace.refl (s : BookingSlot) : s.SamePlace s := ⟨rfl, rfl⟩

/-- Two updates that keep a slot's place keep it together. -/
theorem BookingSlot.SamePlace.trans {s s' s'' : BookingSlot} (h : s.SamePlace s')
    (h' : s'.SamePlace s'') : s.SamePlace s'' :=
  ⟨h'.1.trans h.1, h'.2.trans h.2⟩

/-- Nothing is deleted, and a slot keeps its place. -/
def keepsPlace : ∀ τ, Row τ → Option (Row τ) → Prop
  | .request => fun _ _ ↦ True
  | .slot => fun s x ↦ ∃ s', x = some s' ∧ s.SamePlace s'

/-- What a transaction has inserted: the key of the request, and the spans of its slots. -/
abbrev Draft : Type := Option (Cuid × List SlotSpan)

/-- What is inserted when a transaction returns: a request has its slots. -/
def Complete (b : Draft) : Prop := ∀ id spans, b = some (id, spans) → spans ≠ []

/-- Slots keep their places, at most one request is inserted, and each slot that is inserted belongs
to the request that was inserted before it, lies apart from the slots before it and is not empty.
`Q` is said of the result and of what is inserted when the transaction returns. -/
def Tx.Spreads {α : Type} (Q : α → Draft → Prop) : Tx α → Draft → Prop
  | .ret a, b => Q a b
  | .throw _, _ => True
  | .now k, b => ∀ c, Tx.Spreads Q (k c) b
  | .ask _ k, b => ∀ a, Tx.Spreads Q (k a) b
  | .select k, b => ∀ d, Tx.Spreads Q (k d) b
  | .lock _ k, b => Tx.Spreads Q k b
  | .modify τ ch k, b =>
    (∀ d c r x, ch d c r = some x → keepsPlace τ r x) ∧ ∀ rows, Tx.Spreads Q (k rows) b
  | .insert .request new k, b => b = none ∧
    ∀ c i, (new c i).id = i ∧ Tx.Spreads Q (k (new c i)) (some (i, []))
  | .insert .slot new k, b => ∃ id spans m, b = some (id, spans) ∧ m.start < m.end ∧
      (∀ m' ∈ spans, m'.Apart m) ∧ ∀ c i,
        (new c i).bookingRequestId = id ∧ (new c i).span = m ∧
          ∀ d : View, Tx.Spreads Q (k (refresh d (new c i))) (some (id, spans ++ [m]))

/-- Every transaction of a session does, and gives its request slots. -/
def Call.Spreads : Call → Prop
  | .done _ => True
  | .now k => ∀ c, Call.Spreads (k c)
  | .ask _ k => ∀ a, Call.Spreads (k a)
  | .attempt p k => Tx.Spreads (fun _ ↦ Complete) p none ∧ ∀ r, Call.Spreads (k r)

section Rules

variable {α β : Type} {Q : β → Draft → Prop} {b : Draft}

/-- The sequencing rule. -/
theorem Tx.Spreads.bind {p : Tx α} {f : α → Tx β}
    (h : Tx.Spreads (fun a b ↦ Tx.Spreads Q (f a) b) p b) : Tx.Spreads Q (p >>= f) b := by
  change Tx.Spreads Q (p.bind f) b
  induction p generalizing b with
  | ret a => exact h
  | throw e => trivial
  | now k ih => exact fun c ↦ ih c (h c)
  | ask q k ih => exact fun a ↦ ih a (h a)
  | select k ih => exact fun d ↦ ih d (h d)
  | lock key k ih => exact ih h
  | modify τ ch k ih => exact ⟨h.1, fun rows ↦ ih rows (h.2 rows)⟩
  | insert τ new k ih =>
    cases τ with
    | request => exact ⟨h.1, fun c i ↦ ⟨(h.2 c i).1, ih _ (h.2 c i).2⟩⟩
    | slot =>
      obtain ⟨id, spans, m, hb, hm, hapart, hk⟩ := h
      exact ⟨id, spans, m, hb, hm, hapart, fun c i ↦ ⟨(hk c i).1, (hk c i).2.1, fun d ↦
        ih _ ((hk c i).2.2 d)⟩⟩

/-- A transaction that inserts nothing. -/
theorem Tx.Spreads.of_obeys {p : Tx β} (hp : p.Obeys keepsPlace fun _ _ _ ↦ False)
    (hQ : ∀ a, Q a b) : Tx.Spreads Q p b := by
  induction p generalizing b with
  | ret a => exact hQ a
  | throw e => trivial
  | now k ih => exact fun c ↦ ih c (hp c) hQ
  | ask q k ih => exact fun a ↦ ih a (hp a) hQ
  | select k ih => exact fun d ↦ ih d (hp d) hQ
  | lock key k ih => exact ih hp hQ
  | modify τ ch k ih => exact ⟨hp.1, fun rows ↦ ih rows (hp.2 rows) hQ⟩
  | insert τ new k ih => exact (hp.1 0 0).elim

end Rules

/-! ### The store -/

/-- The slots of a request lie apart, whoever sees them. -/
structure Scattered (σ : BookingStore) : Prop where
  proper : ∀ v j s, (σ.cell .slot j).seen v = some s → BookingSlot.startAt s < BookingSlot.endAt s
  apart : ∀ v v' i j s s', i ≠ j → (σ.cell .slot i).seen v = some s →
    (σ.cell .slot j).seen v' = some s' →
    BookingSlot.bookingRequestId s = BookingSlot.bookingRequestId s' →
    (BookingSlot.span s).Apart (BookingSlot.span s')

namespace Scattered

variable {σ σ' : BookingStore} {t : ℕ}

/-- Where there are no slots, none overlap. -/
theorem init : Scattered (Store.init Row) :=
  ⟨fun _ _ _ h ↦ (nomatch h), fun _ _ _ _ _ _ _ h ↦ (nomatch h)⟩

/-- Nobody sees a slot in a new place. -/
theorem of_seen (h : Scattered σ) (hseen : ∀ v j s', (σ'.cell .slot j).seen v = some s' →
    ∃ v' s, (σ.cell .slot j).seen v' = some s ∧ BookingSlot.SamePlace s s') : Scattered σ' := by
  refine ⟨fun v j s' hs' ↦ ?_, fun v v' i j s₁ s₂ hij h₁ h₂ hreq ↦ ?_⟩
  · obtain ⟨v', s, hs, -, hspan⟩ := hseen v j s' hs'
    have hproper := h.proper v' j s hs
    obtain ⟨hstart, hend⟩ := SlotSpan.mk.inj hspan
    rwa [hstart, hend]
  · obtain ⟨u, q₁, hq₁, hreq₁, hspan₁⟩ := hseen v i s₁ h₁
    obtain ⟨u', q₂, hq₂, hreq₂, hspan₂⟩ := hseen v' j s₂ h₂
    rw [hspan₁, hspan₂]
    exact h.apart u u' i j q₁ q₂ hij hq₁ hq₂ (hreq₁.symm.trans (hreq.trans hreq₂))

/-- A commit changes which slots are visible, not where they lie. -/
theorem commit (h : Scattered σ) (t : ℕ) : Scattered (σ.commit t) := by
  refine h.of_seen fun v j s hs ↦ ?_
  rw [Store.commit_cell] at hs
  by_cases ho : (σ.cell .slot j).ownedBy t
  · rw [Cell.seen_commit_of_ownedBy ho] at hs
    exact ⟨_, s, hs, .refl s⟩
  · rw [Cell.seen_commit_of_not_ownedBy ho] at hs
    exact ⟨_, s, hs, .refl s⟩

/-- After a rollback the slots are those committed before. -/
theorem abort (h : Scattered σ) (t : ℕ) : Scattered (σ.abort t) := by
  refine h.of_seen fun v j s hs ↦ ?_
  by_cases hv : v = some t
  · subst hv
    rw [Store.abort_cell, Cell.seen_abort_self] at hs
    exact ⟨none, s, (Cell.seen_none _).trans hs, .refl s⟩
  · have hw : Store.WorkBy t σ (σ.abort t) := Store.workBy_abort
    exact ⟨v, s, (hw.seen hv .slot j).symm.trans hs, .refl s⟩

end Scattered

/-- `t` keeps its rows and inserts none, and sees no slot in a new place. -/
structure KeepsPlaces (t : ℕ) (σ σ' : BookingStore) : Prop where
  owned : ∀ τ i, (σ.cell τ i).ownedBy t → (σ'.cell τ i).ownedBy t
  committed : ∀ τ i, (σ'.cell τ i).committed = (σ.cell τ i).committed
  drafted : ∀ τ i, (σ'.cell τ i).ownedBy t → (σ.cell τ i).committed = none →
    (σ.cell τ i).ownedBy t
  slot : ∀ j s', (σ'.cell .slot j).seen (some t) = some s' →
    ∃ s, (σ.cell .slot j).seen (some t) = some s ∧ BookingSlot.SamePlace s s'

section Statements

variable {σ σ' σ'' : BookingStore} {t : ℕ}

/-- Two steps that move no slot move none together. -/
theorem KeepsPlaces.trans (h : KeepsPlaces t σ σ') (h' : KeepsPlaces t σ' σ'') :
    KeepsPlaces t σ σ'' := by
  refine ⟨fun τ i ho ↦ h'.owned τ i (h.owned τ i ho),
    fun τ i ↦ (h'.committed τ i).trans (h.committed τ i), fun τ i ho hc ↦ ?_, fun j s'' hs'' ↦ ?_⟩
  · exact h.drafted τ i (h'.drafted τ i ho ((h.committed τ i).trans hc)) hc
  · obtain ⟨s', hs', hsame'⟩ := h'.slot j s'' hs''
    obtain ⟨s, hs, hsame⟩ := h.slot j s' hs'
    exact ⟨s, hs, hsame.trans hsame'⟩

/-- An update that moves no slot of its own table moves none at all: the triggers write only
`holdsSlot`. -/
theorem keepsPlaces_rewritten {τ : Tab} {snapshot : View} {ch : Row τ → Option (Option (Row τ))}
    (hch : ∀ r x, ch r = some x → keepsPlace τ r x)
    (h : Store.Rewritten schema σ t τ snapshot ch σ') : KeepsPlaces t σ σ' := by
  have hcell : ∀ τ' i, (∃ r x, (σ.cell τ' i).seen (some t) = some r ∧
      σ'.cell τ' i = (σ.cell τ' i).write t x) ∨ σ'.cell τ' i = σ.cell τ' i := fun τ' i ↦ by
    by_cases hτ : τ' = τ
    · subst hτ
      rw [h.eq_put]
      rcases Store.put_cell_cases (σ := σ) (t := t) (f := σ.version schema t τ' snapshot ch) i with
        ⟨r, x, hr, -, hc⟩ | ⟨-, hc⟩
      · exact .inl ⟨r, x, hr, hc⟩
      · exact .inr hc
    · exact .inr (congrFun (h.cell_of_ne hτ) i)
  refine ⟨fun τ' i ho ↦ ?_, fun τ' i ↦ ?_, fun τ' i ho hnew ↦ ?_, fun j s' hs' ↦ ?_⟩
  · rcases hcell τ' i with ⟨r, x, -, hc⟩ | hc
    · exact ⟨x, by rw [hc]; rfl⟩
    · rwa [hc]
  · rcases hcell τ' i with ⟨r, x, -, hc⟩ | hc <;> rw [hc]
    rfl
  · rcases hcell τ' i with ⟨r, x, hr, -⟩ | hc
    · by_contra hno
      rw [Cell.seen_of_not_ownedBy hno, hnew] at hr
      cases hr
    · rwa [← hc]
  cases τ with
  | request =>
    rw [h.cell_of_ne (by decide)] at hs'
    exact ⟨s', hs', .refl s'⟩
  | slot =>
    rw [h.eq_put] at hs'
    rcases Store.put_cell_cases (σ := σ) (t := t) (f := σ.version schema t .slot snapshot ch) j with
      ⟨s, x, hs, hx, hc⟩ | ⟨-, hc⟩
    · obtain ⟨-, y, hy, rfl⟩ := Store.version_eq_some hx
      obtain ⟨s₁, rfl, hsame⟩ := hch s y hy
      rw [hc, Cell.seen_write_self] at hs'
      obtain rfl := Option.some.inj hs'
      exact ⟨s, hs, hsame⟩
    · rw [hc] at hs'
      exact ⟨s', hs', .refl s'⟩

/-- The trigger of the requests writes `holdsSlot` and moves nothing. -/
theorem keepsPlace_pushHoldsSlot {new : BookingRequest} {s : BookingSlot} {x : Option BookingSlot}
    (h : (pushHoldsSlot new s).map some = some x) : keepsPlace .slot s x := by
  obtain ⟨s', hs', rfl⟩ := Option.map_eq_some_iff.1 h
  simp only [pushHoldsSlot] at hs'
  split at hs'
  · obtain rfl := Option.some.inj hs'
    exact ⟨_, rfl, rfl, rfl⟩
  · cases hs'

/-- A bulk statement, with its triggers. -/
theorem keepsPlaces_modify {τ : Tab} {snapshot : View} {ch : Row τ → Option (Option (Row τ))}
    {rows : List (Row τ)} (hch : ∀ r x, ch r = some x → keepsPlace τ r x)
    (h : σ.modify schema t τ snapshot ch = .done (rows, σ')) : KeepsPlaces t σ σ' := by
  obtain ⟨-, σ₁, hrw, hfire⟩ := Store.modify_eq_done h
  refine Store.fire_induction (P := fun σ' ↦ KeepsPlaces t σ σ')
    (fun i old new τ' ch' _ ha σ₂ σ₃ hrw' hP ↦ ?_) hfire (keepsPlaces_rewritten hch hrw)
  refine hP.trans (keepsPlaces_rewritten ?_ hrw')
  cases τ with
  | request =>
    obtain ⟨push, hpush, he⟩ := Option.map_eq_some_iff.1 ha
    cases he
    simp only [bookingRequestsHoldsSlot] at hpush
    split at hpush
    · obtain rfl := Option.some.inj hpush
      exact fun _ _ hx ↦ keepsPlace_pushHoldsSlot hx
    · cases hpush
  | slot => cases ha

/-- A step that moves no slot keeps them apart. -/
theorem Scattered.work (h : Scattered σ) (hw : Store.WorkBy t σ σ') (hk : KeepsPlaces t σ σ') :
    Scattered σ' := by
  refine h.of_seen fun v j s' hs' ↦ ?_
  by_cases hv : v = some t
  · subst hv
    obtain ⟨s, hs, hsame⟩ := hk.slot j s' hs'
    exact ⟨_, s, hs, hsame⟩
  · exact ⟨v, s', (hw.seen hv .slot j).symm.trans hs', .refl s'⟩

/-! ### What a transaction has inserted -/

/-- The slots of the request that `t` has inserted are at `spans`. -/
def Drawn (t : ℕ) : Draft → BookingStore → Prop
  | none, _ => True
  | some (id, spans), σ => (σ.cell .request id).committed = none ∧
      (σ.cell .request id).ownedBy t ∧
      ∀ j s, (σ.cell .slot j).seen (some t) = some s → BookingSlot.bookingRequestId s = id →
        BookingSlot.span s ∈ spans

/-- Request `i` has a slot that `t` has inserted with it. -/
def HasSlot (t : ℕ) (σ : BookingStore) (i : Cuid) : Prop :=
  ∃ j s, (σ.cell .slot j).ownedBy t ∧ (σ.cell .slot j).seen (some t) = some s ∧
    BookingSlot.bookingRequestId s = i

/-- `t` has inserted no request but that of the draft, which has a slot if it has a span. -/
structure Drafts (t : ℕ) (b : Draft) (σ : BookingStore) : Prop where
  only : ∀ i, (σ.cell .request i).ownedBy t → (σ.cell .request i).committed = none →
    ∃ spans, b = some (i, spans)
  slot : ∀ id spans, b = some (id, spans) → spans ≠ [] → HasSlot t σ id

/-- Every request that is committed has a slot. -/
def Peopled (σ : BookingStore) : Prop :=
  ∀ i r, σ.committed.row .request i = some r →
    ∃ j s, σ.committed.row .slot j = some s ∧ BookingSlot.bookingRequestId s = i

/-- `t` commits no request without a slot. -/
def Furnished (t : ℕ) (σ : BookingStore) : Prop :=
  ∀ i, (σ.cell .request i).ownedBy t → (σ.cell .request i).committed = none → HasSlot t σ i

/-- A request whose slots have all been inserted may become visible. -/
theorem Drafts.furnished {b : Draft} (h : Drafts t b σ) (hb : Complete b) : Furnished t σ := by
  intro i ho hc
  obtain ⟨spans, hspans⟩ := h.only i ho hc
  exact h.slot i spans hspans (hb i spans hspans)

/-- Having a slot is a matter of the committed rows alone. -/
theorem Peopled.of_committed_eq (h : Peopled σ) (he : σ'.committed.row = σ.committed.row) :
    Peopled σ' := by
  unfold Peopled
  rw [he]
  exact h

/-- What nobody has committed changes nothing. -/
theorem Peopled.work (h : Peopled σ) (hw : Store.WorkBy t σ σ') : Peopled σ' :=
  h.of_committed_eq (funext fun τ ↦ funext fun i ↦
    (Cell.seen_none _).trans ((hw.committed τ i).trans (Cell.seen_none _).symm))

/-- A commit of a transaction whose requests all have slots keeps it so for all requests. -/
theorem Peopled.commit (h : Peopled σ) (hσ : Integrity σ) (hf : Furnished t σ) :
    Peopled (σ.commit t) := by
  intro i r hr
  rw [Store.committed_commit] at hr ⊢
  by_cases hnew : (σ.cell .request i).committed = none
  · -- what is committed for the first time is `t`'s own
    have ho : (σ.cell .request i).ownedBy t := by
      by_contra hno
      rw [Store.view_row, Cell.seen_of_not_ownedBy hno, hnew] at hr
      cases hr
    obtain ⟨j, s, -, hs, hi⟩ := hf i ho hnew
    exact ⟨j, s, hs, hi⟩
  · obtain ⟨r₀, hr₀⟩ := Option.ne_none_iff_exists'.1 hnew
    obtain ⟨j, s, hs, hi⟩ := h i r₀ ((Cell.seen_none _).trans hr₀)
    obtain ⟨s', hs', hfollows⟩ := hσ.slot_seen (v := some t) ((Cell.seen_none _).symm.trans hs)
    exact ⟨j, s', hs', hfollows.bookingRequestId.trans hi⟩

/-- The contract of the booking core, and that the slots lie apart and every request has some. -/
def spreadContract : Contract Row BookingError Reply :=
  { contract False with
    inv := fun σ ↦ Standing False σ ∧ Scattered σ ∧ Peopled σ
    ready := fun t σ ↦ (contract False).ready t σ ∧ Furnished t σ
    inv_tick := fun h hc ↦ ⟨h.1.tick hc, ⟨h.2.1.proper, h.2.1.apart⟩, h.2.2⟩
    inv_commit := fun h hw ↦ ⟨h.1.commit hw.1, h.2.1.commit _, h.2.2.commit h.1.integrity hw.2⟩
    inv_abort := fun h ↦
      ⟨h.1.abort _, h.2.1.abort _, h.2.2.of_committed_eq (by rw [Store.committed_abort])⟩ }

/-- What the others guarantee of places, as what they guarantee of slots. -/
theorem rely_of_spread (h : Rely spreadContract t σ σ') : Rely (contract False) t σ σ' := by
  refine Relation.ReflTransGen.mono (fun σ σ' ⟨hσ, hσ', hrely, hi⟩ ↦
    ⟨hσ.1, hσ'.1, hrely, ?_⟩) _ _ h
  cases hi with
  | tick c hc => exact .tick c hc
  | work u hu hw => exact .work u hu hw
  | commit u hu hr => exact .commit u hu hr.1

/-- A slot of a request that `t` has inserted is its own. -/
theorem slot_ownedBy_of_new (hσ : Integrity σ) {id : Cuid}
    (hnew : (σ.cell .request id).committed = none) (hown : (σ.cell .request id).ownedBy t)
    {v : Option ℕ} {j : ℕ} {s : BookingSlot} (hs : (σ.cell .slot j).seen v = some s)
    (hid : s.bookingRequestId = id) : v = some t ∧ (σ.cell .slot j).ownedBy t := by
  obtain ⟨r, hr, -⟩ := (hσ.view v).parent hs
  rw [hid, Store.view_row] at hr
  have hv : v = some t := by
    by_contra hv
    cases v with
    | none => rw [Cell.seen_none, hnew] at hr; cases hr
    | some u =>
      rw [Cell.seen_of_not_ownedBy fun hu ↦ hv (by rw [Cell.ownedBy_unique hown hu]), hnew] at hr
      cases hr
  refine ⟨hv, ?_⟩
  by_contra hno
  rw [hv, Cell.seen_of_not_ownedBy hno] at hs
  obtain ⟨r, hr, -⟩ := (hσ.view none).parent (j := j) ((Cell.seen_none _).trans hs)
  rw [hid, Store.view_row, Cell.seen_none, hnew] at hr
  cases hr

/-- Nobody else adds a slot to the request that is being made, or moves one of its slots. -/
theorem Drawn.rely {b : Draft} (h : Drawn t b σ) (hσ' : Integrity σ')
    (hr : Rely (contract False) t σ σ') : Drawn t b σ' := by
  cases b with
  | none => trivial
  | some b =>
    obtain ⟨id, spans⟩ := b
    obtain ⟨hnew, hown, hspans⟩ := h
    have hcell := hr.cell_of_ownedBy hown
    refine ⟨hcell ▸ hnew, hcell ▸ hown, fun j s hs hid ↦ ?_⟩
    have ho := (slot_ownedBy_of_new hσ' (hcell ▸ hnew) (hcell ▸ hown) hs hid).2
    rw [hr.cell_of_ownedBy ((hr.ownedBy_iff _ _).1 ho)] at hs
    exact hspans j s hs hid

/-- An update that moves no slot keeps the new request's slots as they were inserted. -/
theorem Drawn.modify {b : Draft} (h : Drawn t b σ) {τ : Tab} {snapshot : View}
    {ch : Row τ → Option (Option (Row τ))} {rows : List (Row τ)}
    (hch : ∀ r x, ch r = some x → keepsPlace τ r x)
    (hm : σ.modify schema t τ snapshot ch = .done (rows, σ')) : Drawn t b σ' := by
  cases b with
  | none => trivial
  | some b =>
    obtain ⟨id, spans⟩ := b
    obtain ⟨hnew, hown, hspans⟩ := h
    have hk := keepsPlaces_modify hch hm
    refine ⟨((Store.workBy_modify hm).committed .request id).trans hnew, hk.owned _ _ hown,
      fun j s' hs' hid ↦ ?_⟩
    obtain ⟨s, hs, hreq, hspan⟩ := hk.slot j s' hs'
    rw [hspan]
    exact hspans j s hs (hreq.symm.trans hid)

/-- A transaction begins with no request in the making. -/
theorem Drafts.init (h : σ.Clean t) : Drafts t none σ :=
  ⟨fun i ho ↦ absurd ho (h _ i), fun _ _ hb ↦ by cases hb⟩

/-- The others leave the request in the making alone. -/
theorem Drafts.rely {b : Draft} (h : Drafts t b σ) (hr : Rely (contract False) t σ σ') :
    Drafts t b σ' := by
  refine ⟨fun i ho hc ↦ ?_, fun id spans hb hne ↦ ?_⟩
  · have ho' := (hr.ownedBy_iff _ _).1 ho
    rw [hr.cell_of_ownedBy ho'] at hc
    exact h.only i ho' hc
  · obtain ⟨j, s, ho, hs, hid⟩ := h.slot id spans hb hne
    exact ⟨j, s, hr.cell_of_ownedBy ho ▸ ho, hr.cell_of_ownedBy ho ▸ hs, hid⟩

/-- So do the transaction's own updates. -/
theorem Drafts.modify {b : Draft} (h : Drafts t b σ) (hσ' : Integrity σ') {τ : Tab}
    {snapshot : View} {ch : Row τ → Option (Option (Row τ))} {rows : List (Row τ)}
    (hch : ∀ r x, ch r = some x → keepsPlace τ r x)
    (hm : σ.modify schema t τ snapshot ch = .done (rows, σ')) : Drafts t b σ' := by
  have hk := keepsPlaces_modify hch hm
  refine ⟨fun i ho hc ↦ ?_, fun id spans hb hne ↦ ?_⟩
  · have hc' := (hk.committed _ i).symm.trans hc
    exact h.only i (hk.drafted _ i ho hc') hc'
  · obtain ⟨j, s, ho, hs, hid⟩ := h.slot id spans hb hne
    obtain ⟨x, hx⟩ := hk.owned _ j ho
    obtain ⟨s', rfl, -⟩ := hσ'.slot hx
    have hs' := Cell.seen_of_dirty hx
    obtain ⟨s₀, hs₀, hsame⟩ := hk.slot j s' hs'
    obtain rfl := Option.some.inj (hs₀.symm.trans hs)
    exact ⟨j, s', ⟨_, hx⟩, hs', hsame.1.trans hid⟩

/-- The slot that `t` inserts, or one that was seen before. -/
private theorem seen_add_slot {s s' : BookingSlot} {v : Option ℕ} {j : ℕ}
    (h : ((σ.add t .slot s).cell .slot j).seen v = some s') :
    (j = σ.next ∧ v = some t ∧ s' = s) ∨ (σ.cell .slot j).seen v = some s' := by
  by_cases hj : j = σ.next
  · subst hj
    by_cases hv : v = some t
    · subst hv
      rw [Cell.seen_of_dirty (by rw [Store.add_cell_next])] at h
      exact .inl ⟨rfl, rfl, (Option.some.inj h).symm⟩
    · rw [Store.workBy_add.seen hv] at h
      exact .inr h
  · rw [Store.add_cell_of_ne_next hj] at h
    exact .inr h

/-- A new request has no slots yet. -/
theorem Scattered.add_request (h : Scattered σ) (r : BookingRequest) :
    Scattered (σ.add t .request r) :=
  have hcell : (σ.add t .request r).cell .slot = σ.cell .slot := Store.add_cell_of_ne (by decide)
  ⟨hcell ▸ h.proper, hcell ▸ h.apart⟩

/-- A slot that is proper and lies apart from those of its request inserted so far. -/
theorem Scattered.add_slot (h : Scattered σ) (hσ : Integrity σ) {id : Cuid}
    {spans : List SlotSpan} (hb : Drawn t (some (id, spans)) σ) {s : BookingSlot}
    (hs : s.bookingRequestId = id) (hproper : s.span.start < s.span.end)
    (hapart : ∀ m ∈ spans, m.Apart s.span) :
    Scattered (σ.add t .slot (refresh (σ.view (some t)) s)) := by
  obtain ⟨hnew, hown, hspans⟩ := hb
  have hmine : ∀ {v j s'}, (σ.cell .slot j).seen v = some s' →
      BookingSlot.bookingRequestId s' = id → SlotSpan.Apart (BookingSlot.span s') s.span :=
    fun {v j s'} hs' hid ↦ by
      obtain ⟨rfl, -⟩ := slot_ownedBy_of_new hσ hnew hown hs' hid
      exact hapart _ (hspans j s' hs' hid)
  refine ⟨fun v j s' hs' ↦ ?_, fun v v' i j s₁ s₂ hij h₁ h₂ hreq ↦ ?_⟩
  · rcases seen_add_slot hs' with ⟨-, -, rfl⟩ | hs'
    · exact hproper
    · exact h.proper v j s' hs'
  · rcases seen_add_slot h₁ with ⟨hi, -, rfl⟩ | h₁ <;>
      rcases seen_add_slot h₂ with ⟨hj, -, rfl⟩ | h₂
    · exact absurd (hi.trans hj.symm) hij
    · exact (hmine h₂ (hreq.symm.trans hs)).symm
    · exact hmine h₁ (hreq.trans hs)
    · exact h.apart v v' i j s₁ s₂ hij h₁ h₂ hreq

/-- A request begins with no slots. -/
theorem Drawn.add_request (hσ : Integrity σ) (r : BookingRequest) :
    Drawn t (some (σ.next, [])) (σ.add t .request r) := by
  have hcell : (σ.add t .request r).cell .slot = σ.cell .slot := Store.add_cell_of_ne (by decide)
  have hself : (σ.add t .request r).cell .request σ.next = ⟨none, some (t, some r)⟩ :=
    Store.add_cell_next
  refine ⟨by rw [hself], ⟨some r, by rw [hself]⟩, fun j s hs hid ↦ ?_⟩
  -- a slot of the new request would have had a parent before
  rw [hcell] at hs
  obtain ⟨q, hq, -⟩ := (hσ.view (some t)).parent (j := j) hs
  rw [hid] at hq
  exact absurd (Db.lt_next hq) (Nat.lt_irrefl _)

/-- The slot inserted is one more of the list. -/
theorem Drawn.add_slot {id : Cuid} {spans : List SlotSpan} (h : Drawn t (some (id, spans)) σ)
    {s : BookingSlot} :
    Drawn t (some (id, spans ++ [s.span])) (σ.add t .slot (refresh (σ.view (some t)) s)) := by
  obtain ⟨hnew, hown, hspans⟩ := h
  have hcell : (σ.add t .slot (refresh (σ.view (some t)) s)).cell .request = σ.cell .request :=
    Store.add_cell_of_ne (by decide)
  refine ⟨hcell ▸ hnew, hcell ▸ hown, fun j s' hs' hid ↦ List.mem_append.2 ?_⟩
  rcases seen_add_slot hs' with ⟨-, -, rfl⟩ | hs'
  · exact .inr (List.mem_singleton_self _)
  · exact .inl (hspans j s' hs' hid)

/-- The request that is inserted is now the one in the making. -/
theorem Drafts.add_request (h : Drafts t none σ) (r : BookingRequest) :
    Drafts t (some (σ.next, [])) (σ.add t .request r) := by
  refine ⟨fun i ho hc ↦ ?_, fun id spans hb hne ↦ ?_⟩
  · by_cases hi : i = σ.next
    · exact ⟨[], by rw [hi]⟩
    · rw [Store.add_cell_of_ne_next hi] at ho hc
      obtain ⟨_, hnone⟩ := h.only i ho hc
      cases hnone
  · cases hb
    exact absurd rfl hne

/-- The slot inserted belongs to the request in the making. -/
theorem Drafts.add_slot {id : Cuid} {spans : List SlotSpan} (h : Drafts t (some (id, spans)) σ)
    {s : BookingSlot} (hs : s.bookingRequestId = id) :
    Drafts t (some (id, spans ++ [s.span])) (σ.add t .slot (refresh (σ.view (some t)) s)) := by
  have hcell : (σ.add t .slot (refresh (σ.view (some t)) s)).cell .request = σ.cell .request :=
    Store.add_cell_of_ne (by decide)
  refine ⟨fun i ho hc ↦ ?_, fun id' spans' hb _ ↦ ?_⟩
  · rw [hcell] at ho hc
    obtain ⟨spans', hspans⟩ := h.only i ho hc
    cases hspans
    exact ⟨_, rfl⟩
  · cases hb
    refine ⟨σ.next, refresh (σ.view (some t)) s, ?_, ?_, hs⟩
    · exact ⟨some (refresh (σ.view (some t)) s), by rw [Store.add_cell_next]⟩
    · exact Cell.seen_of_dirty (by rw [Store.add_cell_next])

/-- A transaction that is correct and spreads its slots keeps them apart as well, and has drafted
what it says. -/
theorem wp_spread {α : Type} {F : Failure Row BookingError → Prop}
    {Q : α → Reading Row → List View → BookingStore → Prop} {P : α → Draft → Prop} {p : Tx α}
    {clocked : Reading Row} {reads : List View} {b : Draft}
    (h : wp (contract False) schema t F Q p clocked reads σ) (hp : Tx.Spreads P p b)
    (hb : Drawn t b σ) (hd : Drafts t b σ) :
    wp spreadContract schema t F
      (fun a clocked reads σ ↦ Q a clocked reads σ ∧ ∃ b, P a b ∧ Drafts t b σ)
      p clocked reads σ := by
  induction p generalizing clocked reads σ b with
  | ret a =>
    exact fun σ₁ h₁ hσ₁ ↦ ⟨h σ₁ (rely_of_spread h₁) hσ₁.1, b, hp, hd.rely (rely_of_spread h₁)⟩
  | throw e => exact fun σ₁ h₁ hσ₁ ↦ h σ₁ (rely_of_spread h₁) hσ₁.1
  | now k ih =>
    exact fun σ₁ h₁ hσ₁ ↦ ih _ (h σ₁ (rely_of_spread h₁) hσ₁.1) (hp _)
      (hb.rely hσ₁.1.integrity (rely_of_spread h₁)) (hd.rely (rely_of_spread h₁))
  | ask q k ih => exact fun a ↦ ih a (h a) (hp a) hb hd
  | select k ih =>
    exact fun σ₁ h₁ hσ₁ ↦ ih _ (h σ₁ (rely_of_spread h₁) hσ₁.1) (hp _)
      (hb.rely hσ₁.1.integrity (rely_of_spread h₁)) (hd.rely (rely_of_spread h₁))
  | lock key k ih => exact ih h hp hb hd
  | modify τ ch k ih =>
    intro σ₀ h₀ hσ₀ σ₁ h₁ hσ₁
    obtain ⟨hdone, hfail⟩ := h σ₀ (rely_of_spread h₀) hσ₀.1 σ₁ (rely_of_spread h₁) hσ₁.1
    refine ⟨fun rows σ₂ hm hg ↦ ?_, hfail⟩
    obtain ⟨hσ₂, hk⟩ := hdone rows σ₂ hm hg
    have hr := (rely_of_spread h₀).trans (rely_of_spread h₁)
    have hw := Store.workBy_modify hm
    exact ⟨⟨hσ₂, hσ₁.2.1.work hw (keepsPlaces_modify (hp.1 _ _) hm), hσ₁.2.2.work hw⟩,
      ih rows hk (hp.2 rows) ((hb.rely hσ₁.1.integrity hr).modify (hp.1 _ _) hm)
        ((hd.rely hr).modify hσ₂.integrity (hp.1 _ _) hm)⟩
  | insert τ new k ih =>
    intro σ₁ h₁ hσ₁
    obtain ⟨hdone, hfail⟩ := h σ₁ (rely_of_spread h₁) hσ₁.1
    refine ⟨fun r σ₂ hi ha ↦ ?_, hfail⟩
    obtain ⟨hσ₂, hk⟩ := hdone r σ₂ hi ha
    have hb₁ := hb.rely hσ₁.1.integrity (rely_of_spread h₁)
    have hd₁ := hd.rely (rely_of_spread h₁)
    have hpeopled := hσ₁.2.2.work (Store.workBy_insert hi)
    cases τ with
    | request =>
      obtain ⟨rfl, rfl⟩ := insert_request hi
      obtain ⟨rfl, hp⟩ := hp
      obtain ⟨hid, hp⟩ := hp σ₁.clock σ₁.next
      exact ⟨⟨hσ₂, hσ₁.2.1.add_request _, hpeopled⟩,
        ih _ hk hp (Drawn.add_request hσ₁.1.integrity _) (hd₁.add_request _)⟩
    | slot =>
      obtain ⟨rfl, rfl⟩ := insert_slot hi
      obtain ⟨id, spans, m, rfl, hm, hapart, hp⟩ := hp
      obtain ⟨hparent, hspan, hp⟩ := hp σ₁.clock σ₁.next
      refine ⟨⟨hσ₂, hσ₁.2.1.add_slot hσ₁.1.integrity hb₁ hparent ?_ ?_, hpeopled⟩,
        ih _ hk (hp _) (hspan ▸ hb₁.add_slot) (hspan ▸ hd₁.add_slot hparent)⟩
      · rw [hspan]; exact hm
      · rw [hspan]; exact hapart

end Statements

/-! ### The services -/

/-- Slots keep their places, and nothing is inserted. -/
abbrev Tx.Places {α : Type} (p : Tx α) : Prop := p.Obeys keepsPlace fun _ _ _ ↦ False

section Services

variable {α β : Type} {Q : β → Draft → Prop} {b : Draft}

/-- An update of requests moves no slot. -/
theorem places_updateRequests (ch : ℤ → BookingRequest → Option BookingRequest) :
    Tx.Places (updateRequests ch) :=
  obeys_update fun _ _ _ _ ↦ trivial

/-- An update of slots that keeps their places. -/
theorem places_updateSlots {p : BookingSlot → Prop} [DecidablePred p]
    {set : ℤ → BookingSlot → BookingSlot} (h : ∀ c s, BookingSlot.SamePlace s (set c s)) :
    Tx.Places (updateSlots fun c s ↦ if p s then some (set c s) else none) := by
  refine obeys_update fun c s s' hs ↦ ⟨s', rfl, ?_⟩
  split at hs
  · obtain rfl := Option.some.inj hs
    exact h c s
  · cases hs

/-- An update of one request moves no slot. -/
theorem places_updateRequestById (id : Cuid) (data : ℤ → BookingRequest → BookingRequest) :
    Tx.Places (updateRequestById id data) :=
  Obeys.bind (places_updateRequests _) fun _ ↦ obeys_refuse _ _

/-- The look for a clash only reads. -/
theorem places_assertNoApprovedClash (venueId : Cuid) (spans : List SlotSpan)
    (excludeRequestId : Option Cuid) :
    Tx.Places (assertNoApprovedClash venueId spans excludeRequestId) :=
  Obeys.bind (obeys_query _) fun _ ↦ obeys_refuse _ _

/-- A rejection moves no slot. -/
theorem places_rejectLosers (losers : List BookingRequest) : Tx.Places (rejectLosers losers) := by
  unfold rejectLosers
  split
  · trivial
  · exact Obeys.bind (places_updateRequests _) fun _ ↦ trivial

/-- The checks of the input only ask. -/
theorem places_checkInput (input : Option α) (q : α → Ask) (yes : ∀ a, Ans (q a) → Bool)
    (e : BookingError) : Tx.Places (checkInput input q yes e) := by
  cases input with
  | none => trivial
  | some a => exact fun _ ↦ obeys_refuse _ _

/-- A cancelled request keeps its slots where they are. -/
theorem places_cancelPendingBookingTx (idOrCode : JsString) (requester : Cuid) (now : ℤ) :
    Tx.Places (cancelPendingBookingTx idOrCode requester now) :=
  .query fun _ ↦ .require fun _ _ ↦ .refuse fun _ ↦
    Obeys.bind (places_updateRequests _) fun _ ↦ .refuse fun _ ↦
    Obeys.bind (places_updateSlots fun _ _ ↦ ⟨rfl, rfl⟩) fun _ ↦ trivial

/-- A cancelled slot stays where it was; only `cancelledAt` is written. -/
theorem places_cancelApprovedSlotTx (idOrCode : JsString) (slotId requester : Cuid)
    (now cutoff : ℤ) : Tx.Places (cancelApprovedSlotTx idOrCode slotId requester now cutoff) :=
  .query fun _ ↦ .require fun _ _ ↦ .refuse fun _ ↦ .query fun _ ↦ .require fun _ _ ↦
    .refuse fun _ ↦ .refuse fun _ ↦ Obeys.bind (places_updateSlots fun _ _ ↦ ⟨rfl, rfl⟩) fun _ ↦
    .refuse fun _ ↦ .query fun _ ↦ Obeys.bind (places_updateRequestById _ _) fun _ ↦ trivial

/-- An approval makes slots hold and moves none. -/
theorem places_approveTx (id : Cuid) (actor : Actor) : Tx.Places (approveTx id actor) :=
  .query fun _ ↦ .require fun _ _ ↦ .query fun _ ↦ .refuse fun _ ↦ .query fun _ ↦
    .refuse fun _ ↦ Obeys.bind (places_assertNoApprovedClash _ _ _) fun _ ↦ .query fun _ ↦
    .readClock fun _ ↦ Obeys.bind (places_updateRequests _) fun _ ↦ .refuse fun _ ↦
    Obeys.bind (places_rejectLosers _) fun _ ↦ trivial

/-- A rejection by staff moves no slot. -/
theorem places_rejectTx (id : Cuid) (reason : JsString) : Tx.Places (rejectTx id reason) :=
  .query fun _ ↦ .require fun _ _ ↦ .refuse fun _ ↦
    Obeys.bind (places_updateRequests _) fun _ ↦ .refuse fun _ ↦ trivial

/-- A cancellation by staff marks slots and moves none. -/
theorem places_cancelTx (id : Cuid) (dto : CancelBookingRequestDto) (actor : Actor) :
    Tx.Places (cancelTx id dto actor) :=
  .query fun _ ↦ .require fun _ _ ↦ .query fun _ ↦ .refuse fun _ ↦ .query fun _ ↦ .refuse fun _ ↦
    .ofExcept fun _ _ ↦ .readClock fun _ ↦
    Obeys.bind (places_updateSlots fun _ _ ↦ ⟨rfl, rfl⟩) fun _ ↦ .refuse fun _ ↦
    Obeys.bind (places_updateRequestById _ _) fun _ ↦ trivial

/-- The sweep of overdue requests moves no slot. -/
theorem places_expireOverdueTx (now : ℤ) : Tx.Places (expireOverdueTx now) :=
  Obeys.bind (places_updateRequests _) fun _ ↦ trivial

/-- What keeps the slots in their places comes first. -/
theorem Tx.Spreads.seq {p : Tx α} {f : α → Tx β} (hp : Tx.Places p)
    (h : ∀ a, Tx.Spreads Q (f a) b) : Tx.Spreads Q (p >>= f) b :=
  .bind (.of_obeys hp h)

/-- A value that has to be there: what follows has it. -/
theorem Tx.Spreads.require {o : Option α} {e : BookingError} {f : α → Tx β}
    (h : ∀ a, o = some a → Tx.Spreads Q (f a) b) : Tx.Spreads Q (require o e >>= f) b := by
  cases o with
  | none => trivial
  | some a => exact h a rfl

/-- A read, whatever it answers. -/
theorem Tx.Spreads.query {g : View → α} {f : α → Tx β} (h : ∀ d, Tx.Spreads Q (f (g d)) b) :
    Tx.Spreads Q (query g >>= f) b :=
  h

/-- The clock, whatever it shows. -/
theorem Tx.Spreads.readClock {f : ℤ → Tx β} (h : ∀ c, Tx.Spreads Q (f c) b) :
    Tx.Spreads Q (readClock >>= f) b :=
  h

/-- A computation that may refuse: what follows runs on its value. -/
theorem Tx.Spreads.ofExcept {x : Except BookingError α} {f : α → Tx β}
    (h : ∀ a, x = .ok a → Tx.Spreads Q (f a) b) : Tx.Spreads Q (ofExcept x >>= f) b := by
  cases x with
  | error e => trivial
  | ok a => exact h a rfl

/-- The nested creation of slots, below the request that was inserted last. -/
theorem spreads_createSlots {row : BookingRequest} {done spans : List SlotSpan}
    {f : List BookingSlot → Tx β} (h : Spread (done ++ spans))
    (hf : ∀ slots, Tx.Spreads Q (f slots) (some (row.id, done ++ spans))) :
    Tx.Spreads Q (createSlots row spans >>= f) (some (row.id, done)) := by
  induction spans generalizing done f with
  | nil => exact (List.append_nil done) ▸ hf []
  | cons m spans ih =>
    have hm : m ∈ done ++ m :: spans := by simp
    have hapart : ∀ m' ∈ done, SlotSpan.Apart m' m := fun m' hm' ↦
      (List.pairwise_append.1 h.apart).2.2 m' hm' m List.mem_cons_self
    refine ⟨row.id, done, m, rfl, h.proper m hm, hapart, fun c i ↦ ⟨rfl, rfl, fun d ↦ ?_⟩⟩
    change Tx.Spreads Q (((createSlots row spans).bind _).bind f) _
    rw [Prog.bind_assoc]
    refine ih (by rwa [List.append_assoc]) fun slots ↦ ?_
    rw [List.append_assoc]
    exact hf _

/-- Spans that have bounds make a request complete. -/
theorem complete_of_spanBounds {id : Cuid} {spans : List SlotSpan} {bounds : ℤ × ℤ}
    (h : spanBounds spans = some bounds) : Complete (some (id, spans)) := by
  rintro id' spans' hb rfl
  cases hb
  cases h

/-- A request sent through LINE inserts the slots that were parsed, which lie apart, and ends with
all of them there. -/
theorem spreads_insertOnce {venueId lineUserId : Cuid} {dto : CreateLineBookingDto}
    {slots : List ParsedSpan} (h : ∀ spans, slotSpans slots = .ok spans → Spread spans) :
    Tx.Spreads (fun _ ↦ Complete) (insertOnce venueId lineUserId dto slots) none := by
  refine .ofExcept fun spans hspans ↦ .seq (places_assertNoApprovedClash _ _ _) fun _ ↦
    .readClock fun now ↦ .query fun d ↦ .require fun bounds hbounds ↦ ⟨rfl, fun c i ↦ ⟨rfl, ?_⟩⟩
  exact @spreads_createSlots _ _ _ [] _ _ (h spans hspans) fun _ ↦ complete_of_spanBounds hbounds

/-- So does a direct booking. -/
theorem spreads_createDirectOnce {dto : CreateDirectBookingDto} {slots : List ParsedSpan}
    {actor : Actor} (h : ∀ spans, slotSpans slots = .ok spans → Spread spans) :
    Tx.Spreads (fun _ ↦ Complete) (createDirectOnce dto slots actor) none := by
  have hbook : ∀ venueId,
      Tx.Spreads (fun _ ↦ Complete) (bookDirectly dto venueId slots actor) none :=
    fun venueId ↦ .ofExcept fun spans hspans ↦ .seq (places_assertNoApprovedClash _ _ _) fun _ ↦
      .query fun losers ↦ .readClock fun now ↦ .query fun d ↦ .require fun bounds hbounds ↦ ⟨rfl,
        fun c i ↦ ⟨rfl, @spreads_createSlots _ _ _ [] _ _ (h spans hspans) fun _ ↦
          .seq (places_rejectLosers _) fun _ ↦ complete_of_spanBounds hbounds⟩⟩
  rw [createDirectOnce_eq]
  exact fun venue ↦ .require fun v _ ↦ .seq (places_checkInput _ _ _ _) fun _ ↦
    .seq (places_checkInput _ _ _ _) fun _ ↦ hbook _

/-! ### The calls -/

/-- A transaction that creates nothing, and what follows. -/
theorem Call.Spreads.attempt {p : Tx Reply} {k : Except BookingError Reply → Call}
    (hp : Tx.Places p) (hk : ∀ r, Call.Spreads (k r)) : Call.Spreads (.attempt p k) :=
  ⟨.of_obeys hp fun _ _ _ hb ↦ (by cases hb), hk⟩

/-- Every attempt begins with no request in the making and ends with a complete one. -/
theorem spreads_retryOnCollision {f : BookingError → BookingError} {p : Tx Reply}
    (hp : Tx.Spreads (fun _ ↦ Complete) p none) (n : ℕ) :
    Call.Spreads (retryOnCollision f p n) := by
  induction n with
  | zero => trivial
  | succ n ih =>
    refine ⟨hp, fun r ↦ ?_⟩
    cases r with
    | ok reply => trivial
    | error e =>
      show Call.Spreads (if _ then _ else _)
      split
      · intro target
        dsimp only
        split
        · trivial
        · split
          · trivial
          · exact ih
      · trivial

/-- The look-up of the requester creates nothing. -/
theorem spreads_resolveAllowedRequester {lineSub : JsString} {k : Cuid → Call}
    (h : ∀ id, Call.Spreads (k id)) : Call.Spreads (resolveAllowedRequester lineSub k) := by
  intro user
  match user with
  | some (id, .allowed) => exact h id
  | some (_, .unregistered) | some (_, .pending) | some (_, .rejected) | some (_, .blocked)
  | none => trivial

/-- **Every call** spreads the slots of a request. -/
theorem spreads_service (op : Op) : Call.Spreads (service op) := by
  cases op with
  | createFromLine lineSub dto =>
    refine spreads_resolveAllowedRequester fun requester now ↦ ?_
    dsimp only
    split
    · trivial
    · next slots hslots =>
      intro venue
      match venue with
      | none => trivial
      | some (_, false) => trivial
      | some (venueId, true) =>
        exact spreads_retryOnCollision (spreads_insertOnce fun spans hspans ↦
          spread_of_parseSlots hslots hspans) _
  | cancelPendingBooking lineSub idOrCode =>
    exact spreads_resolveAllowedRequester fun requester now ↦
      .attempt (places_cancelPendingBookingTx _ _ _) fun _ ↦ trivial
  | cancelApprovedSlot lineSub idOrCode slotId =>
    exact spreads_resolveAllowedRequester fun requester value now ↦
      .attempt (places_cancelApprovedSlotTx _ _ _ _ _) fun _ ↦ trivial
  | approve id actor => exact .attempt (places_approveTx id actor) fun _ ↦ trivial
  | reject id reason => exact .attempt (places_rejectTx id reason) fun _ ↦ trivial
  | cancel id dto actor => exact .attempt (places_cancelTx id dto actor) fun _ ↦ trivial
  | createDirect dto actor =>
    show Call.Spreads (createDirect dto actor)
    unfold createDirect
    split
    · trivial
    · intro now
      dsimp only
      split
      · trivial
      · next slots hslots =>
        exact spreads_retryOnCollision (spreads_createDirectOnce fun spans hspans ↦
          spread_of_parseSlots hslots hspans) _
  | expireOverdue =>
    refine fun now ↦ .attempt (places_expireOverdueTx now) fun r ↦ ?_
    cases r <;> trivial

end Services

/-! ### Runs -/

/-- A call that is safe and spreads its slots is safe with both. -/
theorem safe_of_spreads {t : ℕ} {log : List (Failure Row BookingError)} {seen : List View}
    {s : Call} (h : Safe (contract False) schema bookings.loses Warranted t log seen s)
    (hs : Call.Spreads s) : Safe spreadContract schema bookings.loses Warranted t log seen s := by
  induction s generalizing log seen with
  | done r => exact h
  | now k ih => exact fun c ↦ ih c (h c) (hs c)
  | ask q k ih => exact fun a ↦ ih a (h a) (hs a)
  | attempt p k ih =>
    obtain ⟨F, G, hp, hok, herr⟩ := h
    refine ⟨F, G, fun σ hσ hclean ↦ ?_, fun r reads hG ↦ ih _ (hok r reads hG) (hs.2 _),
      fun f hf ↦ ⟨(herr f hf).1, ih _ (herr f hf).2 (hs.2 _)⟩⟩
    exact wp_mono (wp_spread (hp σ hσ.1 hclean) hs.1 trivial (.init hclean)) (fun _ h ↦ h)
      fun r clocked reads σ _ ⟨⟨⟨hready, hanswers⟩, hG⟩, b, hb, hdrafts⟩ ↦
        ⟨⟨⟨hready, hdrafts.furnished hb⟩, hanswers⟩, hG⟩

/-- The two invariants of a reachable state. -/
private theorem spread_of_reachable {w : BookingWorld} (hw : bookings.Reachable w) :
    Scattered w.store ∧ Peopled w.store := by
  have hsafe : ∀ op t, Safe spreadContract bookings.schema bookings.loses Warranted t [] []
      (bookings.service op) :=
    fun op t ↦ safe_of_spreads (safe_service False op t) (spreads_service op)
  have hinit : spreadContract.inv (Store.init Row) :=
    ⟨Standing.init, .init, fun _ _ h ↦ (by cases h)⟩
  have hhealthy : Healthy bookings spreadContract Warranted w :=
    adequate hinit (fun _ t op _ ↦ hsafe op t) (fun w e _ ↦ granted_contract_false w e)
      (fun w e _ ↦ accepted_true w e) (fun _ _ _ _ _ ↦ relyOn_true _ _ _) hw
  exact hhealthy.inv.2

/-- **The slots of a request lie apart**, whatever the interleaving and whoever looks. -/
theorem scattered_of_reachable {w : BookingWorld} (hw : bookings.Reachable w) :
    Scattered w.store :=
  (spread_of_reachable hw).1

/-- **No request is committed without a slot.** -/
theorem peopled_of_reachable {w : BookingWorld} (hw : bookings.Reachable w) : Peopled w.store :=
  (spread_of_reachable hw).2

/-- **No two slots of one request have an instant in common**, and every slot has one, in whatever
anybody sees at any point of any interleaving. -/
theorem slots_lie_apart {w : BookingWorld} (hw : bookings.Reachable w) (v : Option ℕ) :
    (∀ j s, (w.store.view v).row .slot j = some s →
      (Set.Ico (BookingSlot.startAt s) (BookingSlot.endAt s)).Nonempty) ∧
    ∀ i j s s', i ≠ j → (w.store.view v).row .slot i = some s →
      (w.store.view v).row .slot j = some s' →
        BookingSlot.bookingRequestId s = BookingSlot.bookingRequestId s' →
          Disjoint (Set.Ico (BookingSlot.startAt s) (BookingSlot.endAt s))
            (Set.Ico (BookingSlot.startAt s') (BookingSlot.endAt s')) := by
  have hscattered := scattered_of_reachable hw
  refine ⟨fun j s hs ↦ Set.nonempty_Ico.2 (hscattered.proper v j s hs),
    fun i j s s' hij hs hs' hreq ↦ ?_⟩
  have hapart := hscattered.apart v v i j s s' hij hs hs' hreq
  rw [Set.Ico_disjoint_Ico]
  rcases hapart with h | h
  · exact (min_le_left _ _).trans (h.trans (le_max_right _ _))
  · exact (min_le_right _ _).trans (h.trans (le_max_left _ _))

/-- The two slots of a direct booking. -/
theorem slots_lie_apart_directRun : ∃ s s', (after Sample.directRun).store.committed.row .slot 1 =
      some s ∧ (after Sample.directRun).store.committed.row .slot 2 = some s' ∧
    Disjoint (Set.Ico (BookingSlot.startAt s) (BookingSlot.endAt s))
      (Set.Ico (BookingSlot.startAt s') (BookingSlot.endAt s')) := by
  have hslot : ∀ j : Fin 2, ((after Sample.directRun).store.committed.row .slot (j + 1)).map
      BookingSlot.bookingRequestId = some 0 := by
    decide +kernel
  obtain ⟨s, hs, hreq⟩ := Option.map_eq_some_iff.1 (hslot 0)
  obtain ⟨s', hs', hreq'⟩ := Option.map_eq_some_iff.1 (hslot 1)
  exact ⟨s, s', hs, hs', (slots_lie_apart (reachable_after Sample.directRun) none).2 1 2 s s'
    (by decide) hs hs' (hreq.trans hreq'.symm)⟩

end EasyBook

import EasyBook.Bookings.Statements

/-!
# Minting booking codes

The number in a code is a count over `createdAt`, while its date comes from a clock that was read
earlier: a booking minted just before midnight and stamped just after it is counted for neither
day's numbers. The bound that survives is over both readings at once, `dayBookings`: the bookings
created on a day or minted for it. `Codes` is the invariant, and `contended_of_collision` is what a
collision says about the attempt that ran into it.
-/

namespace EasyBook

open ReadCommitted JsString

/-! ### The day of a code -/

/-- A code without its number: everything up to the last `-`. -/
def codeHead (code : JsString) : JsString := code.rdropWhile fun u ↦ decide (u ≠ 45)

/-- The code was minted for the Bangkok day of an instant. -/
def BookingRequest.mintedFor (t : ℤ) (r : BookingRequest) : Bool :=
  decide (codeHead r.code = bookingCodePrefix ++ lit "-" ++ bookingCodeDatePart t ++ lit "-")

/-- The bookings created on the Bangkok day of an instant or minted for it. -/
def dayBookings (d : View) (t : ℤ) : ℕ :=
  (d.all .request).countP fun r ↦ r.createdOn t || r.mintedFor t

/-- The head of a code is the prefix and the day. -/
theorem codeHead_formatBookingCode (t : ℤ) (n : ℕ) :
    codeHead (formatBookingCode t n) =
      bookingCodePrefix ++ lit "-" ++ bookingCodeDatePart t ++ lit "-" := by
  have hdigit : ∀ u ∈ padStart bookingCodeSequenceWidth 48 (radix 10 (n + 1)), u ≠ 45 :=
    fun u hu he ↦ by
      rcases mem_padStart hu with hk | hk
      · omega
      · have := mem_radix_ten hk
        omega
  have hdash : lit "-" = [45] := rfl
  rw [codeHead, formatBookingCode, List.rdropWhile, List.reverse_append,
    List.dropWhile_append_of_pos (by simpa using hdigit)]
  simp [hdash]

/-- Being created on a day is a matter of Bangkok's calendar. -/
theorem createdOn_iff {t : ℤ} {r : BookingRequest} :
    r.createdOn t = true ↔ bangkokDay r.createdAt = bangkokDay t := by
  rw [← mem_bangkokDayRange]
  simp [BookingRequest.createdOn]

/-- A code is minted for its own day. -/
theorem mintedFor_iff {t u : ℤ} {n : ℕ} {r : BookingRequest}
    (h : r.code = formatBookingCode u n) :
    r.mintedFor t = true ↔ bangkokDay u = bangkokDay t := by
  rw [BookingRequest.mintedFor, h, codeHead_formatBookingCode, decide_eq_true_iff,
    List.append_left_inj, List.append_right_inj, bookingCodeDatePart_eq_iff]

/-- A request keeps the day it was created on. -/
theorem BookingRequest.Follows.createdOn {r r' : BookingRequest} (h : r.Follows r') (t : ℤ) :
    r'.createdOn t = r.createdOn t := by
  rw [BookingRequest.createdOn, BookingRequest.createdOn, h.createdAt]

/-- It keeps its code, and so the day that was minted for. -/
theorem BookingRequest.Follows.mintedFor {r r' : BookingRequest} (h : r.Follows r') (t : ℤ) :
    r'.mintedFor t = r.mintedFor t := by
  rw [BookingRequest.mintedFor, BookingRequest.mintedFor, h.code]

/-- Later times lie on later days, or the same. -/
theorem bangkokDay_mono {t u : ℤ} (h : t ≤ u) : bangkokDay t ≤ bangkokDay u := by
  simp only [bangkokDay, JsDate.day, inBangkok, JsDate.msPerDay]
  omega

/-! ### The invariant -/

/-- How a code came about: minted from a count at some moment, and stamped no earlier. -/
def BookingRequest.Minted (clock : ℤ) (r : BookingRequest) : Prop :=
  ∃ m n, r.code = formatBookingCode m n ∧ m ≤ r.createdAt ∧ r.createdAt ≤ clock

/-- A code that was minted stays minted. -/
theorem BookingRequest.Follows.minted {r r' : BookingRequest} {clock : ℤ} (h : r.Follows r')
    (hm : r.Minted clock) : r'.Minted clock := by
  obtain ⟨m, n, hcode, hle, hle'⟩ := hm
  exact ⟨m, n, h.code.trans hcode, h.createdAt ▸ hle, h.createdAt ▸ hle'⟩

/-- The invariant of the codes. A number never runs ahead of the bookings of its day. -/
structure Codes (σ : BookingStore) : Prop where
  minted : ∀ {v i r}, (σ.cell .request i).seen v = some r → BookingRequest.Minted σ.clock r
  counted : ∀ {i r m n}, (σ.cell .request i).committed = some r →
    BookingRequest.code r = formatBookingCode m n → n < dayBookings σ.committed m
  drafted : ∀ {t i r m n}, (σ.cell .request i).dirty = some (t, some r) →
    (σ.cell .request i).committed = none →
    BookingRequest.code r = formatBookingCode m n → n ≤ dayBookings σ.committed m

/-- Bookings are never deleted, so the count never falls. -/
theorem dayBookings_le {d d' : View} (m : ℤ)
    (h : ∀ i r, d.row .request i = some r →
      ∃ r', d'.row .request i = some r' ∧ BookingRequest.Follows r r') :
    dayBookings d m ≤ dayBookings d' m := by
  refine Db.countP_all_le fun i r hr hp ↦ ?_
  obtain ⟨r', hr', hf⟩ := h i r hr
  exact ⟨r', hr', by rw [hf.createdOn, hf.mintedFor, hp]⟩

namespace Codes

variable {σ σ' : BookingStore} {t : ℕ}

/-- The empty store has no codes. -/
theorem init : Codes (Store.init Row) where
  minted h := nomatch h
  counted h := nomatch h
  drafted h := nomatch h

/-- What was minted until now was minted until later. -/
theorem tick (h : Codes σ) {c : ℤ} (hc : σ.clock ≤ c) : Codes (σ.tick c) where
  minted hr := by
    obtain ⟨m, n, hcode, hle, hle'⟩ := h.minted hr
    exact ⟨m, n, hcode, hle, hle'.trans hc⟩
  counted := h.counted
  drafted := h.drafted

/-- If `t` worked, only its own versions have to be looked at. -/
theorem of_work (h : Codes σ) (hw : Store.WorkBy t σ σ')
    (hown : ∀ i r, (σ'.cell .request i).dirty = some (t, some r) →
      BookingRequest.Minted σ.clock r ∧ ((σ.cell .request i).committed = none →
        ∀ m n, r.code = formatBookingCode m n → n ≤ dayBookings σ.committed m)) : Codes σ' := by
  have hday : ∀ m, dayBookings σ'.committed m = dayBookings σ.committed m := fun m ↦ by
    refine congrArg _ (Db.all_congr fun i ↦ ?_)
    exact (Cell.seen_none _).trans ((hw.committed .request i).trans (Cell.seen_none _).symm)
  refine ⟨fun {v i r} hr ↦ ?_, fun {i r m n} hr hcode ↦ ?_, fun {u i r m n} hd hc hcode ↦ ?_⟩
  · rw [hw.clock]
    by_cases hv : v = some t
    · subst hv
      by_cases ho : (σ'.cell .request i).ownedBy t
      · obtain ⟨x, hx⟩ := ho
        rw [Cell.seen_of_dirty hx] at hr
        exact (hown i r (hr ▸ hx)).1
      · rw [Cell.seen_of_not_ownedBy ho, hw.committed] at hr
        exact h.minted (v := none) ((Cell.seen_none _).trans hr)
    · exact h.minted ((hw.seen hv .request i).symm.trans hr)
  · rw [hday]
    exact h.counted ((hw.committed .request i).symm.trans hr) hcode
  · rw [hday]
    rw [hw.committed] at hc
    by_cases hu : u = t
    · exact (hown i r (hu ▸ hd)).2 hc m n hcode
    · exact h.drafted ((hw.others .request i u _ hu).1 hd) hc hcode

/-- After a rollback the codes are those committed before. -/
theorem abort (h : Codes σ) (t : ℕ) : Codes (σ.abort t) :=
  h.of_work Store.workBy_abort fun i _ hd ↦ absurd ⟨_, hd⟩ (Store.clean_abort Tab.request i)

/-- A commit makes codes visible that were compared with all others when they were inserted. -/
theorem commit (h : Codes σ) (hσ : Integrity σ) (t : ℕ) : Codes (σ.commit t) := by
  have hview : (σ.commit t).committed = σ.view (some t) := Store.committed_commit σ t
  have hgrow : ∀ i r, σ.committed.row .request i = some r →
      ∃ r', (σ.view (some t)).row .request i = some r' ∧ BookingRequest.Follows r r' :=
    fun i r hr ↦ hσ.request_seen ((Cell.seen_none _).symm.trans hr)
  refine ⟨fun {v i r} hr ↦ ?_, fun {i r m n} hr hcode ↦ ?_, fun {u i r m n} hd hc hcode ↦ ?_⟩
  · by_cases ho : (σ.cell .request i).ownedBy t
    · rw [Store.commit_cell, Cell.seen_commit_of_ownedBy ho] at hr
      exact h.minted hr
    · rw [Store.commit_cell, Cell.seen_commit_of_not_ownedBy ho] at hr
      exact h.minted hr
  · rw [Store.commit_cell, Cell.committed_commit] at hr
    rw [hview]
    rcases hc : (σ.cell .request i).committed with - | r₀
    · -- the new booking counts for its own day
      have hd : (σ.cell .request i).dirty = some (t, some r) := by
        by_cases ho : (σ.cell .request i).ownedBy t
        · obtain ⟨x, hx⟩ := ho
          rw [Cell.seen_of_dirty hx] at hr
          rw [hx, hr]
        · rw [Cell.seen_of_not_ownedBy ho, hc] at hr
          cases hr
      refine Nat.lt_of_le_of_lt (h.drafted hd hc hcode) ?_
      refine Db.countP_all_lt (fun j q hq hp ↦ ?_) ((Cell.seen_none _).trans hc) hr ?_
      · obtain ⟨q', hq', hf⟩ := hgrow j q hq
        exact ⟨q', hq', by rw [hf.createdOn, hf.mintedFor, hp]⟩
      · rw [(mintedFor_iff hcode).2 rfl, Bool.or_true]
    · obtain ⟨r', hr', hf⟩ := hσ.request_seen (v := some t) hc
      obtain rfl := Option.some.inj (hr'.symm.trans hr)
      exact Nat.lt_of_lt_of_le (h.counted hc (hf.code.symm.trans hcode)) (dayBookings_le m hgrow)
  · have hu : ¬ (σ.cell .request i).ownedBy t := fun ⟨x, hx⟩ ↦ by
      rw [Store.commit_cell, Cell.commit_of_dirty hx] at hd
      cases hd
    rw [Store.commit_cell, Cell.commit_of_not_ownedBy hu] at hd hc
    rw [hview]
    exact (h.drafted hd hc hcode).trans (dayBookings_le m hgrow)

/-- An update that follows keeps the codes. -/
theorem requestsUpdated (h : Codes σ) {snapshot : View}
    {ch : BookingRequest → Option BookingRequest} {rows : List BookingRequest}
    (hu : RequestsUpdated t snapshot ch rows σ σ')
    (hf : ∀ i r r', (σ.cell .request i).seen (some t) = some r → ch r = some r' →
      r.Follows r') : Codes σ' := by
  refine h.of_work hu.workBy fun i r' hd ↦ ?_
  rcases hu.request i with ⟨r, q, hr, hq, hc⟩ | ⟨_, hc⟩
  · rw [hc] at hd
    obtain rfl : q = r' := by simpa [Cell.write] using hd
    have hfol := hf i r q hr hq
    refine ⟨hfol.minted (h.minted hr), fun hnone m n hcode ↦ ?_⟩
    by_cases ho : (σ.cell .request i).ownedBy t
    · obtain ⟨x, hx⟩ := ho
      rw [Cell.seen_of_dirty hx] at hr
      exact h.drafted (hr ▸ hx) hnone (hfol.code.symm.trans hcode)
    · rw [Cell.seen_of_not_ownedBy ho, hnone] at hr
      cases hr
  · rw [hc] at hd
    exact ⟨h.minted (Cell.seen_of_dirty hd), fun hnone m n hcode ↦ h.drafted hd hnone hcode⟩

/-- Statements that write no request keep the codes. -/
theorem of_request_eq (h : Codes σ) (hw : Store.WorkBy t σ σ')
    (he : σ'.cell .request = σ.cell .request) : Codes σ' := by
  refine h.of_work hw fun i r hd ↦ ?_
  rw [he] at hd
  exact ⟨h.minted (Cell.seen_of_dirty hd), fun hnone m n hcode ↦ h.drafted hd hnone hcode⟩

/-- A booking with the next code of its day, counted before. -/
theorem add_request (h : Codes σ) {r : BookingRequest} {m : ℤ} {n : ℕ}
    (hcode : r.code = formatBookingCode m n) (hm : m ≤ r.createdAt) (hc : r.createdAt ≤ σ.clock)
    (hn : n ≤ dayBookings σ.committed m) : Codes (σ.add t .request r) := by
  refine h.of_work Store.workBy_add fun i q hd ↦ ?_
  by_cases hi : i = σ.next
  · subst hi
    rw [Store.add_cell_next] at hd
    obtain rfl : r = q := by simpa using hd
    refine ⟨⟨m, n, hcode, hm, hc⟩, fun _ m' n' hcode' ↦ ?_⟩
    obtain ⟨hday, rfl⟩ := formatBookingCode_inj.1 (hcode.symm.trans hcode')
    refine hn.trans (Db.countP_all_le fun j q hq hp ↦ ⟨q, hq, ?_⟩)
    have hcr : q.createdOn m' = q.createdOn m := by
      rw [Bool.eq_iff_iff, createdOn_iff, createdOn_iff, hday]
    have hmi : q.mintedFor m' = q.mintedFor m := by
      rw [BookingRequest.mintedFor, BookingRequest.mintedFor, bookingCodeDatePart_eq_iff.2 hday]
    rw [hcr, hmi, hp]
  · rw [Store.add_cell_of_ne_next hi] at hd
    exact ⟨h.minted (Cell.seen_of_dirty hd), fun hnone m n hcode ↦ h.drafted hd hnone hcode⟩

end Codes

/-! ### Collisions -/

/-- Another booking got in the way of an attempt: one committed between its count and its failure,
or one minted for the same day and stamped on a later one committed between its reading of the
clock and its count. -/
def Contended (f : Failure Row BookingError) : Prop :=
  ∃ count rest, f.reads = count :: rest ∧
    ((∃ i r, f.committed.row .request i = some r ∧ count.row .request i = none) ∨
      ∃ i r, count.row .request i = some r ∧ f.clocked.view.row .request i = none ∧
        BookingRequest.mintedFor f.clocked.time r = true ∧
        bangkokDay f.clocked.time < bangkokDay (BookingRequest.createdAt r))

section Contended

variable {C : Contract Row BookingError Reply} {t : ℕ} {σ₀ σ₁ σ₂ : BookingStore}

/-- The count of a transaction that has written no request is over committed bookings, and bounds
what is committed later. -/
theorem sameDayCount_le (hC : ∀ σ, C.inv σ → Integrity σ) (h : Rely C t σ₁ σ₂)
    (hfree : ∀ i, ¬ (σ₁.cell .request i).ownedBy t) (m : ℤ) :
    sameDayCount (σ₁.view (some t)) m ≤ dayBookings σ₂.committed m := by
  refine @Db.countP_all_le Tab Row _ _ Tab.request _ _ fun i r hr hp ↦ ?_
  rw [Store.view_row, Cell.seen_of_not_ownedBy (hfree i)] at hr
  obtain ⟨r', hr', hf⟩ := (grows_of_rely hC h).request hr
  exact ⟨r', (Cell.seen_none _).trans hr', by rw [hf.createdOn, hp, Bool.true_or]⟩

/-- **A collision has a cause.** `σ₀` is the store at the reading of the clock, `σ₁` at the count
and `σ₂` at the insertion, which finds the code taken. -/
theorem contended_of_collision (hC : ∀ σ, C.inv σ → Integrity σ) (hcodes : ∀ σ, C.inv σ → Codes σ)
    (h₀ : C.inv σ₀) (h₂ : C.inv σ₂) (h₀₁ : Rely C t σ₀ σ₁) (h₁₂ : Rely C t σ₁ σ₂)
    (hfree : ∀ i, ¬ (σ₂.cell .request i).ownedBy t) {j : ℕ} {q : BookingRequest}
    (hq : (σ₂.cell .request j).seen (some t) = some q)
    (hcode : q.code = formatBookingCode σ₀.clock (sameDayCount (σ₁.view (some t)) σ₀.clock))
    (e : BookingError) (reads : List View) :
    Contended ⟨e, ⟨σ₀.clock, σ₀.view (some t)⟩, σ₁.view (some t) :: reads, σ₂.committed⟩ := by
  by_contra hnot
  rw [Contended] at hnot
  push Not at hnot
  obtain ⟨hfresh, hlate⟩ := hnot _ _ rfl
  have hfree₁ : ∀ i, ¬ (σ₁.cell .request i).ownedBy t := fun i ho ↦
    hfree i ((h₁₂.ownedBy_iff _ _).2 ho)
  rw [Cell.seen_of_not_ownedBy (hfree j)] at hq
  have hlt := (hcodes σ₂ h₂).counted hq hcode
  refine absurd hlt (Nat.not_lt.2 (Db.countP_all_le fun i r hr hp ↦ ?_))
  -- what is committed at the insertion was there at the count
  obtain ⟨r₁, hr₁⟩ := Option.ne_none_iff_exists'.1 (hfresh i r hr)
  obtain ⟨r', hr', hf⟩ := request_seen_of_rely hC h₁₂ hr₁
  rw [Cell.seen_of_not_ownedBy (hfree i)] at hr'
  obtain rfl := Option.some.inj (hr'.symm.trans ((Cell.seen_none _).symm.trans hr))
  refine ⟨r₁, hr₁, ?_⟩
  rw [hf.createdOn, hf.mintedFor] at hp
  rcases Bool.or_eq_true_iff.1 hp with hp | hp
  · exact hp
  -- minted for the day of the clock: then it was created on that day
  rw [createdOn_iff]
  have hle : bangkokDay σ₀.clock ≤ bangkokDay r₁.createdAt := by
    obtain ⟨m, n, hm, hle, _⟩ := (hcodes σ₂ h₂).minted (v := none)
      ((Cell.seen_none _).trans hr')
    rw [← hf.createdAt, ← (mintedFor_iff (hf.code.symm.trans hm)).1 hp]
    exact bangkokDay_mono hle
  rcases hr₀ : (σ₀.cell .request i).seen (some t) with - | r₀
  · exact le_antisymm (hlate i r₁ hr₁ hr₀ hp) hle
  · obtain ⟨r₁', hr₁', hf₀⟩ := request_seen_of_rely hC h₀₁ hr₀
    obtain rfl := Option.some.inj (hr₁'.symm.trans hr₁)
    obtain ⟨_, _, _, _, hclock⟩ := (hcodes σ₀ h₀).minted hr₀
    have := bangkokDay_mono hclock
    rw [hf₀.createdAt] at *
    omega

end Contended

end EasyBook

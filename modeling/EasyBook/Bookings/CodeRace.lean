import EasyBook.Bookings.Services

/-!
# Codes under contention

Codes are distinct, and a code's number never exceeds the bookings of its day, counted by creation
or by minting. An attempt that collides was contended; but the window is wider than the one between
its count and its insertion. In `midnightRun` the other booking was minted for the same day and
stamped on the next, so the count of the attempt does not see it although it was committed before.

Whether a collision is tried again is up to the driver: `isCodeCollision` looks for the column in
`meta.target`, and a `P2002` without it is thrown after one attempt.
-/

namespace EasyBook

open ReadCommitted

/-- **Minting under any interleaving.** Codes are distinct; each was minted from a clock that was
read no later than the row was stamped; a number is bounded by the bookings of its day; every
collision has a cause, and a caller gets one only when each of its attempts had, and if the driver
names the column only when there were as many attempts as may be. -/
theorem codes_under_contention {w : BookingWorld} (hw : bookings.Reachable w) :
    (∀ i j r q, i ≠ j → w.store.committed.row .request i = some r →
      w.store.committed.row .request j = some q →
      BookingRequest.code r ≠ BookingRequest.code q) ∧
    (∀ i r, w.store.committed.row .request i = some r →
      ∃ m n, BookingRequest.code r = formatBookingCode m n ∧ m ≤ r.createdAt) ∧
    (∀ i r m n, w.store.committed.row .request i = some r →
      BookingRequest.code r = formatBookingCode m n →
      n + 1 ≤ dayBookings w.store.committed m) ∧
    (∀ t, ∀ f ∈ w.failures t, f.error = .codeCollision → Contended f) ∧
    ∀ t e, w.result t = some (.error e) → e.OfCode →
      w.failures t ≠ [] ∧ (∀ f ∈ w.failures t, f.error = .codeCollision ∧ Contended f) ∧
        (e = .codeCollision → (w.failures t).length = bookingCodeMaxAttempts) := by
  have hhealthy := healthy False (hw.mono fun w e _ ↦ granted_contract_false w e)
  have hinv : Standing False w.store := hhealthy.inv
  have hcom : ∀ {i r}, w.store.committed.row .request i = some r →
      (w.store.cell .request i).committed = some r := fun h ↦ (Cell.seen_none _).symm.trans h
  refine ⟨fun i j r q hij hr hq hcode ↦ ?_, fun i r hr ↦ ?_, fun i r m n hr hcode ↦ ?_,
    fun t f hf ↦ hhealthy.failing hf, fun t e hres hcode ↦ ?_⟩
  · have hno := hinv.compatible.committed hij (hcom hr) (hcom hq)
    simp only [schema, hcode, if_true] at hno
    cases hno
  · obtain ⟨m, n, hcode, hle, _⟩ := hinv.codes.minted hr
    exact ⟨m, n, hcode, hle⟩
  · exact hinv.codes.counted (hcom hr) hcode
  · obtain ⟨hne, hall, hlen⟩ := hhealthy.result hres e rfl hcode
    exact ⟨hne, fun f hf ↦ ⟨hall f hf, hhealthy.failing hf (hall f hf)⟩, hlen⟩

namespace Sample

/-- A request of session `t`, up to its reading of the clock in the transaction. -/
def draft (t : ℕ) (i : ℤ) : List BookingEvent :=
  [.call t (.createFromLine [] (line i)), .answer t oracle] ++ steps t 1 ++ [.answer t oracle] ++
    steps t 3

/-- Two requests read the clock a millisecond before midnight. The first is stamped at midnight and
commits; then the second counts, and inserts at once. -/
def midnightRun : List BookingEvent :=
  .tick 61199999 :: draft 0 100 ++ draft 1 200 ++ steps 0 1 ++ .tick 61200000 :: steps 0 3 ++
    steps 1 2

/-- The driver does not name the column. -/
def anonymous : ∀ q, Ans q
  | .violatedTarget => .other
  | q => oracle q

end Sample

/-- No booking committed between the count of an attempt and its failure. -/
def Undisturbed (f : Failure Row BookingError) : Prop :=
  ∀ count ∈ f.reads.head?, ∀ i r, f.committed.row .request i = some r →
    count.row .request i ≠ none

instance (f : Failure Row BookingError) : Decidable (Undisturbed f) :=
  decidable_of_iff (∀ count ∈ f.reads.head?, ∀ i ∈ List.range f.committed.next,
      (f.committed.row .request i).isSome → (count.row .request i).isSome) <| by
    refine ⟨fun h count hc i r hr ↦ ?_, fun h count hc i _ hr ↦ ?_⟩
    · have := h count hc i (List.mem_range.2 (Db.lt_next hr)) (by rw [hr]; rfl)
      exact Option.isSome_iff_ne_none.1 this
    · obtain ⟨r, hr⟩ := Option.isSome_iff_exists.1 hr
      exact Option.isSome_iff_ne_none.2 (h count hc i r hr)

/-- At midnight an attempt collides although nothing was committed in its window. -/
theorem undisturbed_midnightRun :
    ∃ w : BookingWorld, bookings.Reachable w ∧
      ∃ f ∈ w.failures 1, f.error = .codeCollision ∧ Undisturbed f := by
  have hf : ((after Sample.midnightRun).failures 1).any fun f ↦
      decide (f.error = .codeCollision) && decide (Undisturbed f) := by decide +kernel
  obtain ⟨f, hmem, hf⟩ := List.any_eq_true.1 hf
  rw [Bool.and_eq_true, decide_eq_true_iff, decide_eq_true_iff] at hf
  exact ⟨_, reachable_after _, f, hmem, hf⟩

/-- The collision at midnight has its cause: the other booking, stamped on the next day. From a
driver that does not name the column the caller gets it after the first attempt. -/
theorem codes_under_contention_midnightRun :
    ((after (Sample.midnightRun ++ [.answer 1 Sample.anonymous])).failures 1).length = 1 ∧
    (after (Sample.midnightRun ++ [.answer 1 Sample.anonymous])).result 1 =
      some (.error .unnamedCollision) ∧
    ∀ f ∈ (after (Sample.midnightRun ++ [.answer 1 Sample.anonymous])).failures 1,
      f.error = .codeCollision ∧ Contended f := by
  have hresult : (after (Sample.midnightRun ++ [.answer 1 Sample.anonymous])).result 1 =
      some (.error .unnamedCollision) := by decide +kernel
  obtain ⟨_, _, _, _, htold⟩ := codes_under_contention
    (reachable_after (Sample.midnightRun ++ [.answer 1 Sample.anonymous]))
  exact ⟨by decide +kernel, hresult, (htold 1 _ hresult trivial).2.1⟩

end EasyBook

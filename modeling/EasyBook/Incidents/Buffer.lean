import EasyBook.Incidents.Recorder
import EasyBook.Machine.Run

/-!
# The outage buffer

What is known of the buffer after any events (`Buffered`): it is the end of what has entered it, and
the flush has stored a part of what has left, in order. A record that has left was stored or dropped
(`Kept`), unless the flush takes a record out that it has not stored (`Overtaken`): the oldest
record may be dropped while the flush waits for it to be stored, and then the one after it pays.
-/

namespace EasyBook.Incidents

/-! ### What has happened to the buffer -/

/-- The record that enters the buffer. -/
@[simp] def Happening.enters : Happening → Option Entry
  | .entered x => some x
  | _ => none

/-- The record that `send` has stored. -/
@[simp] def Happening.stores : Happening → Option Entry
  | .stored x => some x
  | _ => none

/-- The record that the flush has stored. -/
@[simp] def Happening.flushes : Happening → Option Entry
  | .flushed x => some x
  | _ => none

/-- The records that wait when one is dropped. -/
@[simp] def Happening.drops : Happening → Option (List Entry)
  | .dropped waiting => some waiting
  | _ => none

namespace Recorder

/-- The records that have entered the buffer. -/
def entered (log : List Happening) : List Entry := log.filterMap Happening.enters

/-- The records that `send` has stored. -/
def stored (log : List Happening) : List Entry := log.filterMap Happening.stores

/-- The records that the flush has stored. -/
def flushed (log : List Happening) : List Entry := log.filterMap Happening.flushes

/-- The waiting records at each time one was dropped. -/
def dropped (log : List Happening) : List (List Entry) := log.filterMap Happening.drops

/-- Every record that has entered the buffer is there, or a `store.add` of it was resolved, or it
was dropped when it was the oldest and too many were waiting. -/
def Kept (s : Recorder) : Prop :=
  ∀ x ∈ entered s.log, x ∈ s.fifo ∨ (x ∈ stored s.log ∨ x ∈ flushed s.log) ∨
    ∃ waiting ∈ dropped s.log, incidentFifo < waiting.length ∧ waiting.head? = some x

/-- The records that the flush has stored it has stored in the order in which they have entered. -/
def InOrder (s : Recorder) : Prop := (flushed s.log).Sublist (entered s.log)

/-- The flush has stored a record that is no longer the oldest. -/
def Overtaken (s : Recorder) (e : Event) : Prop :=
  e = .flushResolved ∧ ∃ x, s.flushing = some x ∧ s.fifo.head? ≠ some x

/-- The numbers of the records that are known. -/
def ids (s : Recorder) : List ℕ :=
  (entered s.log ++ s.sending ++ stored s.log).map Entry.id

/-- What is known of the buffer; `gone` has left it. -/
structure Buffered (gone : List Entry) (s : Recorder) : Prop where
  lt_next : ∀ i ∈ s.ids, i < s.next
  nodup : s.ids.Nodup
  length_le : s.fifo.length ≤ incidentFifo
  entered_eq : entered s.log = gone ++ s.fifo
  flushed_gone : (flushed s.log).Sublist gone
  dropped_gone : ∀ waiting ∈ dropped s.log, ∀ x ∈ waiting.head?, x ∈ gone
  after_flushed : ∀ x ∈ s.flushing, (flushed s.log ++ [x]).Sublist (gone ++ s.fifo.take 1)
  full : ∀ x ∈ s.flushing, s.fifo.head? = some x ∨ s.fifo.length = incidentFifo

/-- At the start nothing is buffered and nothing has entered. -/
theorem buffered_init : Buffered [] init where
  lt_next _ h := nomatch h
  nodup := .nil
  length_le := Nat.zero_le _
  entered_eq := rfl
  flushed_gone := .slnil
  dropped_gone _ h := nomatch h
  after_flushed _ h := nomatch h
  full _ h := nomatch h

/-! ### One record more -/

section Log

/-- A `filterMap` at its head. -/
private theorem filterMap_cons_toList {α β : Type} (f : α → Option β) (a : α) (l : List α) :
    (a :: l).filterMap f = (f a).toList ++ l.filterMap f := by
  rw [List.filterMap_cons]
  cases f a <;> rfl

variable (l l' : List Happening) (x : Happening)

@[simp] theorem entered_append : entered (l ++ l') = entered l ++ entered l' :=
  List.filterMap_append

@[simp] theorem entered_cons : entered (x :: l) = x.enters.toList ++ entered l :=
  filterMap_cons_toList ..

@[simp] theorem entered_nil : entered [] = [] := rfl

@[simp] theorem stored_append : stored (l ++ l') = stored l ++ stored l' := List.filterMap_append

@[simp] theorem stored_cons : stored (x :: l) = x.stores.toList ++ stored l :=
  filterMap_cons_toList ..

@[simp] theorem stored_nil : stored [] = [] := rfl

@[simp] theorem flushed_append : flushed (l ++ l') = flushed l ++ flushed l' :=
  List.filterMap_append

@[simp] theorem flushed_cons : flushed (x :: l) = x.flushes.toList ++ flushed l :=
  filterMap_cons_toList ..

@[simp] theorem flushed_nil : flushed [] = [] := rfl

@[simp] theorem dropped_append : dropped (l ++ l') = dropped l ++ dropped l' :=
  List.filterMap_append

@[simp] theorem dropped_cons : dropped (x :: l) = x.drops.toList ++ dropped l :=
  filterMap_cons_toList ..

@[simp] theorem dropped_nil : dropped [] = [] := rfl

end Log

section Push

variable {gone : List Entry} {s : Recorder} {x : Entry}

/-- A list within the bound is kept whole. -/
theorem shiftOver_of_le {l : List Entry} (h : l.length ≤ incidentFifo) :
    shiftOver l s = { s with fifo := l } := by
  cases l with
  | nil => rfl
  | cons x l => exact if_neg (not_lt.2 h)

/-- With room left, the record goes to the end of the queue. -/
theorem pushFifo_of_lt (h : s.fifo.length < incidentFifo) :
    s.pushFifo x = { s with fifo := s.fifo ++ [x], log := s.log ++ [.entered x] } :=
  shiftOver_of_le (by
    rw [List.length_append]
    exact h)

/-- Into a full queue the record goes at the cost of the oldest one. -/
theorem pushFifo_of_eq (h : s.fifo.length = incidentFifo) :
    s.pushFifo x = { s with
      fifo := (s.fifo ++ [x]).tail
      log := s.log ++ [.entered x] ++ [.dropped (s.fifo ++ [x])] } := by
  unfold pushFifo
  cases hfifo : s.fifo with
  | nil =>
    rw [hfifo] at h
    exact absurd h (by decide)
  | cons y l =>
    have hlen : (l ++ [x]).length = incidentFifo := by
      rw [← h, hfifo]
      simp
    rw [List.cons_append, shiftOver, if_pos (by simp [hlen]), shiftOver_of_le hlen.le]
    simp [note]

/-- A record enters the buffer, which has not been there. -/
theorem buffered_pushFifo (h : Buffered gone s) (hlt : x.id < s.next) (hnew : x.id ∉ s.ids) :
    ∃ gone', Buffered gone' (s.pushFifo x) := by
  have hids : ((entered s.log ++ [x] ++ s.sending ++ stored s.log).map Entry.id).Perm
      (x.id :: s.ids) := by
    rw [ids, ← List.map_cons]
    refine List.Perm.map _ ?_
    rw [List.append_assoc, List.append_assoc, List.append_assoc]
    exact List.perm_middle
  have hlt' : ∀ i ∈ (entered s.log ++ [x] ++ s.sending ++ stored s.log).map Entry.id,
      i < s.next := by
    intro i hi
    rcases List.mem_cons.1 (hids.mem_iff.1 hi) with rfl | hi
    · exact hlt
    · exact h.lt_next i hi
  have hnodup := hids.nodup_iff.2 (List.nodup_cons.2 ⟨hnew, h.nodup⟩)
  rcases Nat.lt_or_eq_of_le h.length_le with hlen | hlen
  · rw [pushFifo_of_lt hlen]
    refine ⟨gone, ⟨?_, ?_, ?_, ?_, ?_, ?_, ?_, ?_⟩⟩
    · simpa [ids] using hlt'
    · simpa [ids] using hnodup
    · rw [List.length_append]
      exact hlen
    · simp [h.entered_eq]
    · simpa using h.flushed_gone
    · simpa using h.dropped_gone
    · intro y hy
      have hle : (s.fifo.take 1).Sublist ((s.fifo ++ [x]).take 1) := by
        rw [List.take_append]
        exact List.sublist_append_left ..
      simpa using (h.after_flushed y hy).trans (hle.append_left gone)
    · intro y hy
      have hhead := (h.full y hy).resolve_right hlen.ne
      exact .inl (by simp [hhead])
  · rw [pushFifo_of_eq hlen]
    obtain ⟨y, l, hfifo⟩ := List.exists_cons_of_length_pos (hlen ▸ (by decide : 0 < incidentFifo))
    refine ⟨gone ++ [y], ⟨?_, ?_, ?_, ?_, ?_, ?_, ?_, ?_⟩⟩
    · simpa [ids] using hlt'
    · simpa [ids] using hnodup
    · simpa using hlen.le
    · simp [h.entered_eq, hfifo]
    · simpa using h.flushed_gone.trans (List.sublist_append_left gone [y])
    · intro waiting hwaiting z hz
      simp only [dropped_append, dropped_cons, dropped_nil, Happening.drops, Option.toList_none,
        Option.toList_some, List.append_nil, List.mem_append, List.mem_singleton] at hwaiting
      rcases hwaiting with hw | rfl
      · exact List.mem_append_left _ (h.dropped_gone waiting hw z hz)
      · rw [hfifo] at hz
        exact List.mem_append_right _ (by simpa [eq_comm] using hz)
    · intro z hz
      have hz' := h.after_flushed z hz
      rw [hfifo] at hz'
      simpa using hz'.trans (List.sublist_append_left (gone ++ [y]) _)
    · exact fun _ _ ↦ .inr (by simpa using hlen)

/-- A push drops only from a full queue. -/
theorem kept_pushFifo (h : Buffered gone s) (hk : Kept s) : Kept (s.pushFifo x) := by
  rcases Nat.lt_or_eq_of_le h.length_le with hlen | hlen
  · rw [pushFifo_of_lt hlen]
    intro z hz
    rw [entered_append, List.mem_append] at hz
    rcases hz with hz | hz
    · rcases hk z hz with hz | hz
      · exact .inl (List.mem_append_left _ hz)
      · exact .inr (by simpa using hz)
    · exact .inl (List.mem_append_right _ (by simpa using hz))
  · rw [pushFifo_of_eq hlen]
    obtain ⟨y, l, hfifo⟩ := List.exists_cons_of_length_pos (hlen ▸ (by decide : 0 < incidentFifo))
    have htail : (s.fifo ++ [x]).tail = l ++ [x] := by rw [hfifo]; rfl
    intro z hz
    have hz : z ∈ entered s.log ∨ z = x := by simpa using hz
    rw [htail]
    rcases hz with hz | rfl
    · rcases hk z hz with hz | hz | ⟨waiting, hw, hz⟩
      · rcases List.mem_cons.1 (hfifo ▸ hz) with rfl | hz
        · exact .inr (.inr ⟨s.fifo ++ [x], by simp, by simp [hlen], by simp [hfifo]⟩)
        · exact .inl (List.mem_append_left _ hz)
      · exact .inr (.inl (by simpa using hz))
      · exact .inr (.inr ⟨waiting, by simp [hw], hz⟩)
    · exact .inl (List.mem_append_right _ (List.mem_singleton_self _))

end Push

/-! ### Persisting and sweeping -/

/-- What the storm control says of itself. -/
def Aside : Happening → Prop
  | .persisted _ | .admitted _ _ | .swept _ _ | .summarized _ => True
  | _ => False

/-- `P` is kept by what the storm control does, and by sending a record. -/
structure Closed (P : Recorder → Prop) : Prop where
  note : ∀ s x, Aside x → P s → P (s.note x)
  signatures : ∀ (s : Recorder) (signatures : List (JsString × SignatureState)), P s →
    P { s with signatures }
  send : ∀ s r, P s → P (s.send r)

namespace Closed

variable {P : Recorder → Prop} {s : Recorder} {now : ℤ} {r : IncidentDraftRecord}

/-- A summary is one more record that is sent. -/
theorem emitSuppressed (hP : Closed P) (state : SignatureState) (h : P s) :
    P (s.emitSuppressed now state) := by
  unfold Recorder.emitSuppressed
  cases state.last with
  | none => exact h
  | some last =>
    dsimp only
    split_ifs
    · exact h
    · exact hP.send _ _ (hP.note _ _ trivial h)

/-- Letting a record in touches the buffer only through the summary of the window before. -/
theorem admitRecord (hP : Closed P) (h : P s) : P (s.admitRecord now r).2 := by
  unfold Recorder.admitRecord setSignature
  dsimp only
  cases s.signatures.lookup (signatureOf r) with
  | none => exact hP.note _ _ trivial (hP.signatures _ _ h)
  | some state =>
    dsimp only
    split_ifs
    · exact hP.emitSuppressed _ (hP.note _ _ trivial (hP.signatures _ _ h))
    · exact hP.note _ _ trivial (hP.signatures _ _ h)
    · exact hP.signatures _ _ h

/-- What is persisted is sent, if the limiter lets it in. -/
theorem persist (hP : Closed P) (h : P s) : P (s.persist now r) := by
  unfold Recorder.persist
  have hadmit : P ((s.note (.persisted r)).admitRecord now r).2 :=
    hP.admitRecord (hP.note _ _ trivial h)
  rcases hres : (s.note (.persisted r)).admitRecord now r with ⟨_ | _, s'⟩
  · rw [hres] at hadmit
    exact hadmit
  · rw [hres] at hadmit
    exact hP.send _ _ hadmit

/-- A sweep sends the summaries that are due. -/
theorem sweepSignatures (hP : Closed P) (h : P s) : P (s.sweepSignatures now) := by
  unfold Recorder.sweepSignatures
  have hfold : ∀ (l : List (JsString × SignatureState)) (s : Recorder), P s →
      P (l.foldl (sweepEntry now) s) := by
    intro l
    induction l with
    | nil => exact fun _ h ↦ h
    | cons e l ih =>
      refine fun s h ↦ ih _ ?_
      unfold sweepEntry
      split_ifs
      · exact h
      · exact hP.emitSuppressed _ (hP.note _ _ trivial (hP.signatures _ _ h))
  exact hfold _ _ h

end Closed

/-! ### The invariant -/

section Invariant

variable {gone : List Entry} {s : Recorder}

/-- What is no matter of the buffer is in none of its four lists. -/
theorem note_aside (s : Recorder) {x : Happening} (hx : Aside x) :
    entered (s.note x).log = entered s.log ∧ stored (s.note x).log = stored s.log ∧
      flushed (s.note x).log = flushed s.log ∧ dropped (s.note x).log = dropped s.log := by
  cases x with
  | persisted | admitted | swept | summarized => simp [Recorder.note]
  | _ => exact hx.elim

/-- Noting such a thing leaves the buffer as it is. -/
theorem Buffered.note (h : Buffered gone s) {x : Happening} (hx : Aside x) :
    Buffered gone (s.note x) := by
  obtain ⟨hentered, hstored, hflushed, hdropped⟩ := note_aside s hx
  have hids : (s.note x).ids = s.ids := by
    unfold ids
    rw [hentered, hstored]
    rfl
  exact ⟨hids ▸ h.lt_next, hids ▸ h.nodup, h.length_le, hentered.trans h.entered_eq,
    hflushed ▸ h.flushed_gone, hdropped ▸ h.dropped_gone, hflushed ▸ h.after_flushed, h.full⟩

/-- And no record is dropped by it. -/
theorem Kept.note (h : Kept s) {x : Happening} (hx : Aside x) : Kept (s.note x) := by
  obtain ⟨hentered, hstored, hflushed, hdropped⟩ := note_aside s hx
  unfold Kept
  rw [hentered, hstored, hflushed, hdropped]
  exact h

/-- The next record has a number of its own. -/
theorem Buffered.next_notMem (h : Buffered gone s) : s.next ∉ s.ids := fun hmem ↦
  lt_irrefl _ (h.lt_next _ hmem)

/-- The count of the records is no part of the buffer. -/
theorem Buffered.succ (h : Buffered gone s) : Buffered gone { s with next := s.next + 1 } :=
  ⟨fun i hi ↦ (h.lt_next i hi).trans (Nat.lt_succ_self _), h.nodup, h.length_le, h.entered_eq,
    h.flushed_gone, h.dropped_gone, h.after_flushed, h.full⟩

/-- A record that is sent is stored at once or queued. -/
theorem buffered_send (h : Buffered gone s) (r : IncidentDraftRecord) :
    ∃ gone', Buffered gone' (s.send r) := by
  unfold send
  dsimp only
  split_ifs
  · have hmid : (entered s.log ++ (s.sending ++ [(⟨s.next, r⟩ : Entry)]) ++ stored s.log).Perm
        ((⟨s.next, r⟩ : Entry) :: (entered s.log ++ s.sending ++ stored s.log)) := by
      rw [← List.append_assoc, List.append_assoc]
      exact List.perm_middle
    have hids : ((entered s.log ++ (s.sending ++ [(⟨s.next, r⟩ : Entry)]) ++ stored s.log).map
        Entry.id).Perm (s.next :: s.ids) := hmid.map _
    refine ⟨gone, ⟨fun i hi ↦ ?_, ?_, h.length_le, h.entered_eq, h.flushed_gone, h.dropped_gone,
      h.after_flushed, h.full⟩⟩
    · rcases List.mem_cons.1 (hids.mem_iff.1 hi) with rfl | hi
      · exact Nat.lt_succ_self _
      · exact (h.lt_next i hi).trans (Nat.lt_succ_self _)
    · exact hids.nodup_iff.2 (List.nodup_cons.2 ⟨h.next_notMem, h.nodup⟩)
  · exact buffered_pushFifo h.succ (Nat.lt_succ_self _) h.next_notMem

/-- A record is dropped only where the queue is full. -/
theorem kept_send (h : Buffered gone s) (hk : Kept s) (r : IncidentDraftRecord) :
    Kept (s.send r) := by
  unfold send
  dsimp only
  split_ifs
  · exact hk
  · exact kept_pushFifo h.succ hk

/-- Being buffered is closed under all that a recorder does by itself. -/
theorem closed_buffered : Closed fun s ↦ ∃ gone, Buffered gone s where
  note _ _ hx := fun ⟨gone, h⟩ ↦ ⟨gone, h.note hx⟩
  signatures _ _ := fun ⟨gone, h⟩ ↦ ⟨gone, ⟨h.lt_next, h.nodup, h.length_le, h.entered_eq,
    h.flushed_gone, h.dropped_gone, h.after_flushed, h.full⟩⟩
  send _ r := fun ⟨_, h⟩ ↦ buffered_send h r

/-- So is having dropped nothing but from a full queue. -/
theorem closed_kept : Closed fun s ↦ (∃ gone, Buffered gone s) ∧ Kept s where
  note s x hx := fun ⟨h, hk⟩ ↦ ⟨closed_buffered.note s x hx h, hk.note hx⟩
  signatures s m := fun ⟨h, hk⟩ ↦ ⟨closed_buffered.signatures s m h, hk⟩
  send s r := fun ⟨h, hk⟩ ↦ ⟨closed_buffered.send s r h, h.elim fun _ h ↦ kept_send h hk r⟩

end Invariant

/-! ### One event -/

section Step

variable {gone : List Entry} {s : Recorder}

/-- A record that waits to be flushed is still the head of the queue. -/
theorem Buffered.idle (h : Buffered gone s) : Buffered gone { s with flushing := none } :=
  ⟨h.lt_next, h.nodup, h.length_le, h.entered_eq, h.flushed_gone, h.dropped_gone,
    fun _ hx ↦ (nomatch hx), fun _ hx ↦ (nomatch hx)⟩

/-- The loop takes up the head of the queue where the store is ready. -/
theorem flushLoop_eq (s : Recorder) :
    s.flushLoop = { s with flushing := if s.ready then s.fifo.head? else none } := by
  obtain ⟨ready, fifo, signatures, sending, flushing, next, log⟩ := s
  cases fifo <;> cases ready <;> rfl

/-- Taking up the head moves no record. -/
theorem buffered_flushLoop (h : Buffered gone { s with flushing := none }) :
    Buffered gone s.flushLoop := by
  rw [flushLoop_eq]
  refine ⟨h.lt_next, h.nodup, h.length_le, h.entered_eq, h.flushed_gone, h.dropped_gone, ?_, ?_⟩
  · intro x hx
    dsimp only at hx
    split_ifs at hx
    · obtain ⟨l, hfifo⟩ := List.head?_eq_some_iff.1 hx
      dsimp only
      rw [hfifo]
      exact h.flushed_gone.append (List.Sublist.refl _)
    · cases hx
  · intro x hx
    dsimp only at hx
    split_ifs at hx
    · exact .inl hx
    · cases hx

/-- And drops none. -/
theorem kept_flushLoop : Kept s.flushLoop ↔ Kept s := by
  rw [flushLoop_eq]
  rfl

/-- The flush has stored a record, and takes the oldest out. -/
theorem buffered_flushResolved {x : Entry} (h : Buffered gone s) (hx : s.flushing = some x) :
    Buffered (gone ++ s.fifo.take 1)
      { ({ s with fifo := s.fifo.tail }.note (.flushed x)) with flushing := none } := by
  refine ⟨?_, ?_, ?_, ?_, ?_, ?_, fun _ hx ↦ (nomatch hx), fun _ hx ↦ (nomatch hx)⟩
  · simpa [ids, note] using h.lt_next
  · simpa [ids, note] using h.nodup
  · exact (List.length_tail ▸ Nat.sub_le _ _ : s.fifo.tail.length ≤ s.fifo.length).trans h.length_le
  · have hsplit : s.fifo.take 1 ++ s.fifo.tail = s.fifo := by
      rw [← List.drop_one, List.take_append_drop]
    simp [note, h.entered_eq, hsplit]
  · simpa [note] using h.after_flushed x hx
  · intro waiting hwaiting y hy
    exact List.mem_append_left _ (h.dropped_gone waiting (by simpa [note] using hwaiting) y hy)

open scoped List in
/-- A record whose `add` has ended well is stored. -/
theorem buffered_addResolved {x : Entry} (h : Buffered gone s) (hx : x ∈ s.sending) :
    Buffered gone ({ s with sending := s.sending.erase x }.note (.stored x)) := by
  have hids : ((entered s.log ++ s.sending.erase x ++ (stored s.log ++ [x])).map Entry.id).Perm
      s.ids := by
    refine List.Perm.map _ ?_
    rw [List.append_assoc, List.append_assoc]
    refine List.Perm.append_left _ ?_
    calc s.sending.erase x ++ (stored s.log ++ [x])
      _ = s.sending.erase x ++ stored s.log ++ [x] := (List.append_assoc ..).symm
      _ ~ x :: (s.sending.erase x ++ stored s.log) := List.perm_append_singleton ..
      _ = x :: s.sending.erase x ++ stored s.log := rfl
      _ ~ s.sending ++ stored s.log := (List.perm_cons_erase hx).symm.append_right _
  refine ⟨fun i hi ↦ ?_, ?_, h.length_le, ?_, ?_, ?_, ?_, h.full⟩
  · exact h.lt_next i (hids.mem_iff.1 (by simpa [ids, note] using hi))
  · simpa [ids, note] using hids.nodup_iff.2 h.nodup
  · simpa [note] using h.entered_eq
  · simpa [note] using h.flushed_gone
  · simpa [note] using h.dropped_gone
  · simpa [note] using h.after_flushed

open scoped List in
/-- A `store.add` of `send` was rejected. -/
theorem Buffered.erase {x : Entry} (h : Buffered gone s) (hx : x ∈ s.sending) :
    Buffered gone { s with sending := s.sending.erase x } ∧ x.id < s.next ∧
      x.id ∉ ids { s with sending := s.sending.erase x } := by
  have hids : s.ids.Perm
      (x.id :: (entered s.log ++ s.sending.erase x ++ stored s.log).map Entry.id) := by
    have hperm : (entered s.log ++ s.sending ++ stored s.log).Perm
        (x :: (entered s.log ++ s.sending.erase x ++ stored s.log)) := ?_
    · exact hperm.map Entry.id
    calc entered s.log ++ s.sending ++ stored s.log
      _ ~ entered s.log ++ (x :: s.sending.erase x) ++ stored s.log :=
          ((List.perm_cons_erase hx).append_left _).append_right _
      _ = entered s.log ++ x :: (s.sending.erase x ++ stored s.log) := by simp
      _ ~ x :: (entered s.log ++ (s.sending.erase x ++ stored s.log)) := List.perm_middle
      _ = x :: (entered s.log ++ s.sending.erase x ++ stored s.log) := by simp
  have hnodup := List.nodup_cons.1 (hids.nodup_iff.1 h.nodup)
  exact ⟨⟨fun i hi ↦ h.lt_next i (hids.mem_iff.2 (List.mem_cons_of_mem _ hi)), hnodup.2,
    h.length_le, h.entered_eq, h.flushed_gone, h.dropped_gone, h.after_flushed, h.full⟩,
    h.lt_next _ (hids.mem_iff.2 List.mem_cons_self), hnodup.1⟩

/-- Every event keeps the buffer: nothing is lost, doubled or reordered by a step. -/
theorem buffered_step (h : Buffered gone s) (e : Event) : ∃ gone', Buffered gone' (s.step e) := by
  cases e with
  | persist now r => exact closed_buffered.persist ⟨gone, h⟩
  | status ready =>
    exact ⟨gone, ⟨h.lt_next, h.nodup, h.length_le, h.entered_eq, h.flushed_gone, h.dropped_gone,
      h.after_flushed, h.full⟩⟩
  | onReady =>
    unfold step flush
    dsimp only
    split_ifs
    · exact ⟨gone, h⟩
    · exact ⟨gone, buffered_flushLoop h.idle⟩
  | addResolved x =>
    unfold step
    dsimp only
    split_ifs with hx
    · exact ⟨gone, buffered_addResolved h hx⟩
    · exact ⟨gone, h⟩
  | addRejected x =>
    unfold step
    dsimp only
    split_ifs with hx
    · obtain ⟨hrest, hlt, hnew⟩ := h.erase hx
      exact buffered_pushFifo hrest hlt hnew
    · exact ⟨gone, h⟩
  | flushResolved =>
    unfold step
    cases hx : s.flushing with
    | none => exact ⟨gone, h⟩
    | some x => exact ⟨_, buffered_flushLoop (buffered_flushResolved h hx)⟩
  | flushRejected => exact ⟨gone, h.idle⟩
  | sweep now => exact closed_buffered.sweepSignatures ⟨gone, h⟩

/-- Who is taken out when the flush has stored `x`. -/
theorem kept_flushResolved_iff {x : Entry} (h : Buffered gone s) (hk : Kept s)
    (hx : s.flushing = some x) :
    Kept ({ s with fifo := s.fifo.tail }.note (.flushed x)) ↔ s.fifo.head? = some x := by
  constructor
  · intro hkept
    by_contra hne
    have hlen := (h.full x hx).resolve_left hne
    obtain ⟨y, l, hfifo⟩ := List.exists_cons_of_length_pos (hlen ▸ (by decide : 0 < incidentFifo))
    have hyx : y ≠ x := by
      rintro rfl
      exact hne (by rw [hfifo, List.head?_cons])
    have hent : entered s.log = gone ++ y :: l := by rw [h.entered_eq, hfifo]
    have hmem : y ∈ entered s.log := by
      rw [hent]
      simp
    have hnodup := List.Nodup.of_map _ h.nodup
    have hnotstored : y ∉ stored s.log := fun hy ↦
      List.disjoint_of_nodup_append hnodup (List.mem_append_left _ hmem) hy
    obtain ⟨hrest, -⟩ := List.nodup_cons.1 (List.nodup_middle.1
      (hent ▸ (List.nodup_append.1 (List.nodup_append.1 hnodup).1).1))
    rw [List.mem_append, not_or] at hrest
    rcases hkept y (by simpa [note] using hmem) with hy | (hy | hy) | ⟨waiting, hw, -, hy⟩
    · exact hrest.2 (by simpa [note, hfifo] using hy)
    · exact hnotstored (by simpa [note] using hy)
    · rcases (by simpa [note] using hy : y ∈ flushed s.log ∨ y = x) with hy | hy
      · exact hrest.1 (h.flushed_gone.subset hy)
      · exact hyx hy
    · exact hrest.1 (h.dropped_gone waiting (by simpa [note] using hw) y hy)
  · intro hhead z hz
    obtain ⟨l, hfifo⟩ := List.head?_eq_some_iff.1 hhead
    rcases hk z (by simpa [note] using hz) with hz | hz | hz
    · rcases List.mem_cons.1 (hfifo ▸ hz) with rfl | hz
      · exact .inr (.inl (.inr (by simp [note])))
      · exact .inl (by simpa [note, hfifo] using hz)
    · exact .inr (.inl (hz.imp (fun hz ↦ by simpa [note] using hz) fun hz ↦ by simp [note, hz]))
    · exact .inr (.inr (by simpa [note] using hz))

/-- A record is lost in a step if and only if the flush has been overtaken. -/
theorem kept_step_iff (h : Buffered gone s) (hk : Kept s) (e : Event) :
    Kept (s.step e) ↔ ¬ Overtaken s e := by
  have hother : e ≠ .flushResolved → Kept (s.step e) → (Kept (s.step e) ↔ ¬ Overtaken s e) :=
    fun he hkept ↦ iff_of_true hkept fun ho ↦ he ho.1
  cases e with
  | persist now r => exact hother nofun (closed_kept.persist ⟨⟨gone, h⟩, hk⟩).2
  | status ready => exact hother nofun hk
  | onReady =>
    refine hother nofun ?_
    unfold step flush
    dsimp only
    split_ifs
    · exact hk
    · exact kept_flushLoop.2 hk
  | addResolved x =>
    refine hother nofun ?_
    unfold step
    dsimp only
    split_ifs with hx
    · intro z hz
      refine (hk z (by simpa [note] using hz)).imp_right ?_
      exact Or.imp (Or.imp (fun hz ↦ by simp [note, hz]) fun hz ↦ by simpa [note] using hz)
        fun hz ↦ by simpa [note] using hz
    · exact hk
  | addRejected x =>
    refine hother nofun ?_
    unfold step
    dsimp only
    split_ifs with hx
    · exact kept_pushFifo (h.erase hx).1 hk
    · exact hk
  | flushResolved =>
    unfold step
    cases hx : s.flushing with
    | none =>
      refine iff_of_true hk ?_
      rintro ⟨-, x, hx', -⟩
      rw [hx] at hx'
      cases hx'
    | some x =>
      refine (kept_flushLoop.trans (kept_flushResolved_iff h hk hx)).trans ?_
      constructor
      · rintro hhead ⟨-, y, hy, hne⟩
        rw [hx] at hy
        cases hy
        exact hne hhead
      · intro ho
        by_contra hne
        exact ho ⟨rfl, x, hx, hne⟩
  | flushRejected => exact hother nofun hk
  | sweep now => exact hother nofun (closed_kept.sweepSignatures ⟨⟨gone, h⟩, hk⟩).2

end Step

end Recorder

end EasyBook.Incidents

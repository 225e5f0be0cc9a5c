import EasyBook.Incidents.Store
import EasyBook.Machine.Retention

/-!
# The ring and its details

What the store should retain is a `Ledger`: an incident is put in front, at most `cap` stay, and a
purge takes out what is older than its date. As long as no surrogate stands alone in a summary, the
ring is the ledger without some of its oldest entries that are past their age (`Serves`), and the
details are those of the ring.
-/

namespace EasyBook.IncidentRing

open JsString Redis Retention
open Incidents (IncidentDraftRecord)

variable {C : IncidentStore} {s s' : Keyspace} {cutoff now : ℤ} {n : ℕ} {es : List Event}
  {e : Event}

/-! ### What is promised -/

/-- What is retained, newest first, and the number of incidents so far. -/
structure Ledger where
  records : List IncidentSummaryRecord
  added : ℕ

/-- A call is entered. -/
def Ledger.enter (cap : ℤ) (L : Ledger) : Call → Ledger
  | .add record =>
    { records := (summaryOf (mint record (L.added + 1)) :: L.records).take cap.toNat
      added := L.added + 1 }
  | .purgeBefore cutoff =>
    { L with records := L.records.filter fun r ↦ decide (cutoff ≤ r.atMs) }
  | .list => L

/-- The ledger of some calls. -/
def ledger (cap : ℤ) (es : List Event) : Ledger :=
  es.foldl (fun L e ↦ L.enter cap e.call) ⟨[], 0⟩

/-- `a` is listed before `b`. -/
def Newer (a b : IncidentSummaryRecord) : Prop :=
  b.atMs < a.atMs ∨ b.atMs = a.atMs ∧ b.seq < a.seq

/-- What `purgeBefore` should answer, and leave behind. -/
structure Purged (cutoff : ℤ) (s : Keyspace) (answer : ℕ × Keyspace) : Prop where
  ring : answer.2.ring = s.ring.filter fun r ↦ decide (cutoff ≤ r.atMs)
  removed : answer.1 = s.ring.countP fun r ↦ decide (r.atMs < cutoff)
  again : purgeBefore cutoff answer.2 = (0, answer.2)

/-- The ring and the details are in step. -/
structure Lawful (C : IncidentStore) (es : List Event) : Prop where
  nodup : ((run C es).ring.map (·.id)).Nodup
  length_le : (run C es).ring.length ≤ C.cap
  fields : Indexes (run C es).detail ((run C es).ring.map (·.id))
  listed : ∀ now, (∀ e ∈ es, e.now ≤ now) →
    (list C now (run C es)).Perm
      ((ledger C.cap es).records.filter fun r ↦ decide (now - C.maxAgeMs ≤ r.atMs))
  newest : ∀ now, (list C now (run C es)).Pairwise Newer
  purged : ∀ cutoff, Purged cutoff (run C es) (purgeBefore cutoff (run C es))

/-- The clock does not go back. -/
def Clocked (es : List Event) : Prop := (es.map (·.now)).Pairwise (· ≤ ·)

instance : DecidablePred Clocked := fun es ↦
  inferInstanceAs (Decidable ((es.map (·.now)).Pairwise (· ≤ ·)))

/-- At least one entry may stay, and no surrogate stands alone in a text of the ring. -/
structure Fits (C : IncidentStore) (es : List Event) : Prop where
  cap_pos : 0 < C.cap
  wellFormed : ∀ e ∈ es, ∀ record, e.call = .add record → ∀ t ∈ record.texts, WellFormed t

/-! ### The ids -/

/-- What follows the last separator. -/
theorem eq_of_append_cons {a b x y : JsString} {u : ℕ} (hx : u ∉ x) (hy : u ∉ y)
    (h : a ++ u :: x = b ++ u :: y) : x = y := by
  rcases List.append_eq_append_iff.mp h with ⟨c, -, hc⟩ | ⟨c, -, hc⟩
  · cases c with
    | nil => exact (List.cons.inj hc).2
    | cons v c => exact absurd (by rw [(List.cons.inj hc).2]; simp) hx
  · cases c with
    | nil => exact (List.cons.inj hc).2.symm
    | cons v c => exact absurd (by rw [(List.cons.inj hc).2]; simp) hy

/-- A sequence number is written in digits. -/
theorem digits_seq (seq : ℕ) : Digits (padStart 4 48 (radix 10 seq)) :=
  (digits_radix seq).padStart 4

/-- Ids of different sequence numbers differ, whatever their status. -/
theorem mintId_inj {status status' : Option ℕ} {seq seq' : ℕ}
    (h : mintId status seq = mintId status' seq') : seq = seq' := by
  have hdash (seq : ℕ) : 45 ∉ padStart 4 48 (radix 10 seq) := fun hmem ↦ by
    have := digits_seq seq 45 hmem
    omega
  have hlit : lit "-" = [45] := by decide
  simp only [mintId, hlit, List.append_assoc, List.singleton_append] at h
  rw [← List.append_assoc, ← List.append_assoc] at h
  exact padStart_radix_injective 4 (by decide) (by decide)
    (eq_of_append_cons (hdash seq) (hdash seq') h)

/-- A minted id is well formed. -/
theorem wellFormed_mintId (status : Option ℕ) (seq : ℕ) : WellFormed (mintId status seq) := by
  have hdigits {t : JsString} (ht : Digits t) : WellFormed t :=
    wellFormed_of_plain fun u hu ↦ .inl ((ht u hu).2.trans_lt (by decide))
  have hstatus : WellFormed ((status.map (radix 10)).getD (lit "SYS")) := by
    cases status with
    | none => exact wellFormed_lit _
    | some n => exact hdigits (digits_radix n)
  exact (((wellFormed_lit _).append hstatus).append (wellFormed_lit _)).append
    (hdigits (digits_seq seq))

/-- A record of well-formed texts is read back as it was written. -/
theorem cjsonDecode_eq_some {r : IncidentSummaryRecord} (h : ∀ t ∈ r.texts, WellFormed t) :
    cjsonDecode r = some r := if_pos h

/-- So is one that has been minted. -/
theorem cjsonDecode_mint {record : IncidentDraftRecord} (h : ∀ t ∈ record.texts, WellFormed t) :
    cjsonDecode (summaryOf (mint record n)) = some (summaryOf (mint record n)) := by
  refine cjsonDecode_eq_some fun t ht ↦ ?_
  have htexts : (summaryOf (mint record n)).texts = mintId record.status n :: record.texts := rfl
  rw [htexts, List.mem_cons] at ht
  rcases ht with rfl | ht
  · exact wellFormed_mintId record.status n
  · exact h t ht

/-! ### `ADD_LUA` -/

/-- Every entry can be read, and no two have the same id. -/
structure Readable (s : Keyspace) : Prop where
  decode : ∀ r ∈ s.ring, cjsonDecode r = some r
  nodup : (s.ring.map (·.id)).Nodup
  fields : Indexes s.detail (s.ring.map (·.id))

/-- Some entries of `s` at the end of the ring are dropped, and their details. -/
structure Drops (old : IncidentSummaryRecord → Prop) (s s' : Keyspace) : Prop where
  sheds : Sheds old s.ring s'.ring
  fields : Indexes s'.detail (s'.ring.map (·.id))
  seq : s'.seq = s.seq

/-- Dropping the oldest records leaves the rest readable. -/
theorem Readable.of_prefix (h : Readable s) (hring : s'.ring <+: s.ring)
    (hfields : Indexes s'.detail (s'.ring.map (·.id))) : Readable s' :=
  ⟨fun r hr ↦ h.decode r (hring.subset hr), h.nodup.sublist (hring.sublist.map _), hfields⟩

/-- `dropTail` drops what is too old from the end of the list. -/
theorem drops_dropTail (cutoff : ℤ) (n : ℕ) (h : Readable s) :
    Drops (fun r ↦ r.atMs < cutoff) s (dropTail cutoff n s) := by
  induction n generalizing s with
  | zero => exact ⟨.refl, h.fields, rfl⟩
  | succ n ih =>
    rw [dropTail]
    cases hlast : s.ring.getLast? with
    | none => exact ⟨.refl, h.fields, rfl⟩
    | some tail =>
      obtain ⟨init, hring⟩ := List.getLast?_eq_some_iff.mp hlast
      dsimp only
      rw [h.decode tail (by rw [hring]; simp)]
      dsimp only
      split_ifs with hold
      · have hids : s.ring.map (·.id) = init.map (·.id) ++ [tail.id] := by rw [hring]; simp
        have hdel : Indexes ([tail.id].foldl hdel s.detail) (init.map (·.id)) :=
          Indexes.foldl_hdel_append (hids ▸ h.fields) (hids ▸ h.nodup)
        have hinit : Readable { s with ring := init, detail := Redis.hdel s.detail tail.id } :=
          h.of_prefix (hring ▸ List.prefix_append ..) hdel
        rw [hring, List.dropLast_concat]
        have hnext := ih hinit
        refine ⟨Sheds.trans ⟨[tail], hring, ?_⟩ hnext.sheds, hnext.fields, hnext.seq⟩
        intro r hr
        rw [List.mem_singleton.mp hr]
        exact hold
      · exact ⟨.refl, h.fields, rfl⟩

/-- The details of the dropped records are deleted. -/
theorem foldl_dropDetail {l : List IncidentSummaryRecord} {d : Hash JsString IncidentDetailRecord}
    (h : ∀ r ∈ l, cjsonDecode r = some r) :
    l.foldl dropDetail d = (l.map (·.id)).foldl hdel d := by
  induction l generalizing d with
  | nil => rfl
  | cons r l ih =>
    rw [List.foldl_cons, List.map_cons, List.foldl_cons,
      ih fun r' hr' ↦ h r' (List.mem_cons_of_mem _ hr')]
    rw [dropDetail, h r (List.mem_cons_self ..)]

/-- `dropExtra` keeps the newest `cap` records, and their details. -/
theorem dropExtra_spec {cap : ℤ} (hcap : 0 < cap) (h : Readable s) :
    (dropExtra cap s).ring = s.ring.take cap.toNat ∧
      Indexes (dropExtra cap s).detail ((dropExtra cap s).ring.map (·.id)) ∧
      (dropExtra cap s).seq = s.seq := by
  rw [dropExtra]
  split_ifs with hlen
  · rw [ltrim_take hcap, lrange_drop hcap.le]
    refine ⟨rfl, ?_, rfl⟩
    have hsplit : s.ring.map (·.id) =
        (s.ring.take cap.toNat).map (·.id) ++ (s.ring.drop cap.toNat).map (·.id) := by
      rw [← List.map_append, List.take_append_drop]
    dsimp only
    rw [foldl_dropDetail fun r hr ↦ h.decode r (List.mem_of_mem_drop hr)]
    exact Indexes.foldl_hdel_append (hsplit ▸ h.fields) (hsplit ▸ h.nodup)
  · exact ⟨(List.take_of_length_le (by omega)).symm, h.fields, rfl⟩

/-! ### `PURGE_LUA` -/

/-- Pushing one after the other keeps the order. -/
theorem rpushAll_eq (ring kept : List IncidentSummaryRecord) :
    rpushAll ring kept = ring ++ kept := by
  induction ring, kept using rpushAll.induct with
  | case1 ring => rw [rpushAll, if_pos rfl, List.append_nil]
  | case2 ring kept hne ih =>
    rw [rpushAll, if_neg hne, ih, List.append_assoc, List.take_append_drop]

/-- The purge's loop over the list, in one formula. -/
theorem foldl_visit {l : List IncidentSummaryRecord} (p : Purge)
    (h : ∀ r ∈ l, cjsonDecode r = some r) :
    l.foldl (Purge.visit cutoff) p =
      { kept := p.kept ++ l.filter fun r ↦ decide (cutoff ≤ r.atMs)
        removed := p.removed + l.countP fun r ↦ decide (r.atMs < cutoff)
        detail := ((l.filter fun r ↦ decide (r.atMs < cutoff)).map (·.id)).foldl hdel
          p.detail } := by
  induction l generalizing p with
  | nil => simp
  | cons r l ih =>
    rw [List.foldl_cons, ih _ fun r' hr' ↦ h r' (List.mem_cons_of_mem _ hr'), Purge.visit,
      h r (List.mem_cons_self ..)]
    dsimp only
    by_cases hold : r.atMs < cutoff
    · have hnot : ¬ cutoff ≤ r.atMs := by omega
      simp only [List.filter_cons, List.countP_cons, hold, hnot, decide_true,
        decide_false, if_true, List.map_cons, List.foldl_cons, Bool.false_eq_true, if_false]
      rw [Nat.add_assoc, Nat.add_comm 1]
    · have hkept : cutoff ≤ r.atMs := by omega
      simp only [List.filter_cons, List.countP_cons, hold, hkept, decide_true,
        decide_false, if_true, Bool.false_eq_true, if_false, Nat.add_zero, List.append_assoc,
        List.singleton_append]

/-- What the purge leaves, and how many records it has taken. -/
theorem purgeBefore_eq (h : ∀ r ∈ s.ring, cjsonDecode r = some r) :
    purgeBefore cutoff s = (s.ring.countP fun r ↦ decide (r.atMs < cutoff),
      { s with
        ring := s.ring.filter fun r ↦ decide (cutoff ≤ r.atMs)
        detail := ((s.ring.filter fun r ↦ decide (r.atMs < cutoff)).map (·.id)).foldl hdel
          s.detail }) := by
  rw [purgeBefore, lrange_all, foldl_visit _ h]
  simp only [Nat.zero_add, List.nil_append, rpushAll_eq]
  split_ifs with hremoved
  · rfl
  · -- Nothing is old, so that the ring is left alone.
    have hnone : ∀ r ∈ s.ring, ¬ r.atMs < cutoff := by simpa using hremoved
    rw [List.filter_eq_self.mpr fun r hr ↦ decide_eq_true (not_lt.mp (hnone r hr))]

/-- Nothing is old. -/
theorem purgeBefore_of_none (hread : ∀ r ∈ s.ring, cjsonDecode r = some r)
    (h : ∀ r ∈ s.ring, ¬ r.atMs < cutoff) : purgeBefore cutoff s = (0, s) := by
  have hold : (s.ring.filter fun r ↦ decide (r.atMs < cutoff)) = [] :=
    List.filter_eq_nil_iff.mpr fun r hr ↦ by simpa using h r hr
  have hkept : (s.ring.filter fun r ↦ decide (cutoff ≤ r.atMs)) = s.ring :=
    List.filter_eq_self.mpr fun r hr ↦ decide_eq_true (not_lt.mp (h r hr))
  rw [purgeBefore_eq hread, List.countP_eq_length_filter, hold, hkept]
  rfl

/-- The purge takes the records before the cut-off and no others. -/
theorem purged_purgeBefore (h : Readable s) : Purged cutoff s (purgeBefore cutoff s) := by
  rw [purgeBefore_eq h.decode]
  refine ⟨rfl, rfl, purgeBefore_of_none (fun r hr ↦ h.decode r (List.mem_of_mem_filter hr)) ?_⟩
  exact fun r hr ↦ not_lt.mpr (of_decide_eq_true (List.mem_filter.mp hr).2)

/-! ### The store keeps the ledger -/

/-- The store holds what the ledger retains, but for some of the oldest that are past their age. -/
structure Serves (C : IncidentStore) (now : ℤ) (L : Ledger) (s : Keyspace) : Prop where
  seq : s.seq = L.added
  minted : ∀ r ∈ L.records, r.id = mintId r.status r.seq ∧ r.seq ≤ L.added
  decode : ∀ r ∈ L.records, cjsonDecode r = some r
  newest : L.records.Pairwise fun a b ↦ b.seq < a.seq
  length_le : L.records.length ≤ C.cap
  sheds : Sheds (fun r ↦ r.atMs < now - C.maxAgeMs) L.records s.ring
  fields : Indexes s.detail (s.ring.map (·.id))

variable {L : Ledger} {record : IncidentDraftRecord}

/-- Time does not change what the ring serves. -/
theorem Serves.mono (h : Serves C now L s) {now' : ℤ} (hle : now ≤ now') : Serves C now' L s :=
  { h with sheds := h.sheds.imp fun r hr ↦ by omega }

/-- The ids are those of different numbers. -/
theorem nodup_ids {l : List IncidentSummaryRecord} (hid : ∀ r ∈ l, r.id = mintId r.status r.seq)
    (hnewest : l.Pairwise fun a b ↦ b.seq < a.seq) : (l.map (·.id)).Nodup := by
  refine List.pairwise_map.mpr (hnewest.imp_of_mem fun {a b} ha hb hlt heq ↦ ?_)
  rw [hid a ha, hid b hb] at heq
  exact absurd (mintId_inj heq) (by omega)

/-- What serves can be read. -/
theorem Serves.readable (h : Serves C now L s) : Readable s where
  decode r hr := h.decode r (h.sheds.isPrefix.subset hr)
  nodup := (nodup_ids (fun r hr ↦ (h.minted r hr).1) h.newest).sublist
    (h.sheds.isPrefix.sublist.map _)
  fields := h.fields

/-- A record that is added is the newest one, and the oldest beyond the cap goes. -/
theorem Serves.add (h : Serves C now L s) (hcap : 0 < C.cap)
    (hrecord : ∀ t ∈ record.texts, WellFormed t) :
    Serves C now (L.enter C.cap (.add record)) (add C now record s).2 := by
  have hseq : s.seq + 1 = L.added + 1 := by rw [h.seq]
  -- The ledger with the new record, before anything is dropped.
  have hminted : ∀ r ∈ summaryOf (mint record (L.added + 1)) :: L.records,
      r.id = mintId r.status r.seq ∧ r.seq ≤ L.added + 1 := by
    intro r hr
    rcases List.mem_cons.mp hr with rfl | hr
    · exact ⟨rfl, le_refl _⟩
    · exact ⟨(h.minted r hr).1, (h.minted r hr).2.trans (Nat.le_succ _)⟩
  have hdecode : ∀ r ∈ summaryOf (mint record (L.added + 1)) :: L.records,
      cjsonDecode r = some r := by
    intro r hr
    rcases List.mem_cons.mp hr with rfl | hr
    · exact cjsonDecode_mint hrecord
    · exact h.decode r hr
  have hnewest : (summaryOf (mint record (L.added + 1)) :: L.records).Pairwise
      fun a b ↦ b.seq < a.seq :=
    List.pairwise_cons.mpr ⟨fun r hr ↦ Nat.lt_succ_of_le (h.minted r hr).2, h.newest⟩
  have hsheds := h.sheds.cons (summaryOf (mint record (L.added + 1)))
  have hpushed : Readable
      { s with
        ring := summaryOf (mint record (L.added + 1)) :: s.ring
        detail := hset s.detail (mint record (L.added + 1)).id (mint record (L.added + 1))
        seq := L.added + 1 } :=
    { decode := fun r hr ↦ hdecode r (hsheds.isPrefix.subset hr)
      nodup := (nodup_ids (fun r hr ↦ (hminted r hr).1) hnewest).sublist
        (hsheds.isPrefix.sublist.map _)
      fields := h.fields.hset }
  have hdrops := drops_dropTail (now - C.maxAgeMs) 100 hpushed
  obtain ⟨hring, hfields, hlast⟩ := dropExtra_spec hcap
    (hpushed.of_prefix hdrops.sheds.isPrefix hdrops.fields)
  have hle : (List.take C.cap.toNat (summaryOf (mint record (L.added + 1)) :: L.records)).length ≤
      C.cap := by
    have := List.length_take_le C.cap.toNat (summaryOf (mint record (L.added + 1)) :: L.records)
    omega
  rw [EasyBook.IncidentRing.add, hseq]
  refine ⟨hlast.trans hdrops.seq, fun r hr ↦ hminted r (List.mem_of_mem_take hr),
    fun r hr ↦ hdecode r (List.mem_of_mem_take hr), hnewest.sublist (List.take_sublist ..), hle,
    ?_, hfields⟩
  rw [incidentAdd, hring]
  exact (hsheds.trans hdrops.sheds).take _

/-- A purge takes the same records from the ring and from the ledger. -/
theorem Serves.purgeBefore (h : Serves C now L s) :
    Serves C now (L.enter C.cap (.purgeBefore cutoff)) (purgeBefore cutoff s).2 := by
  rw [purgeBefore_eq h.readable.decode]
  refine ⟨h.seq, fun r hr ↦ h.minted r (List.mem_of_mem_filter hr),
    fun r hr ↦ h.decode r (List.mem_of_mem_filter hr), h.newest.filter _, ?_, h.sheds.filter _, ?_⟩
  · have hle := h.length_le
    have hfilter := List.length_filter_le (fun r ↦ decide (cutoff ≤ r.atMs)) L.records
    dsimp only [Ledger.enter]
    omega
  · refine h.fields.foldl_hdel fun k ↦ ?_
    have hnodup := h.readable.nodup
    constructor
    · intro hk
      obtain ⟨r, hr, rfl⟩ := List.mem_map.mp hk
      obtain ⟨hring, hkept⟩ := List.mem_filter.mp hr
      refine ⟨fun hold ↦ ?_, List.mem_map_of_mem hring⟩
      obtain ⟨r', hr', hid⟩ := List.mem_map.mp hold
      obtain ⟨hring', hold⟩ := List.mem_filter.mp hr'
      rw [List.inj_on_of_nodup_map hnodup hring' hring hid] at hold
      exact absurd (of_decide_eq_true hold) (not_lt.mpr (of_decide_eq_true hkept))
    · rintro ⟨hnot, hk⟩
      obtain ⟨r, hr, rfl⟩ := List.mem_map.mp hk
      have hkept : cutoff ≤ r.atMs := not_lt.mp fun hold ↦
        hnot (List.mem_map_of_mem (List.mem_filter.mpr ⟨hr, decide_eq_true hold⟩))
      exact List.mem_map_of_mem (List.mem_filter.mpr ⟨hr, decide_eq_true hkept⟩)

/-- A call is entered in the ledger. -/
theorem Serves.step (h : Serves C now L s) (hcap : 0 < C.cap) (hle : now ≤ e.now)
    (hfits : ∀ record, e.call = .add record → ∀ t ∈ record.texts, WellFormed t) :
    Serves C e.now (L.enter C.cap e.call) (step C s e) := by
  have hnow := h.mono hle
  obtain ⟨time, call⟩ := e
  cases call with
  | add record => exact hnow.add hcap (hfits record rfl)
  | purgeBefore cutoff => exact hnow.purgeBefore
  | list => exact hnow

/-- Every run keeps the ledger. -/
theorem serves_run (hcap : 0 < C.cap) (hclock : Clocked es)
    (hfits : ∀ e ∈ es, ∀ record, e.call = .add record → ∀ t ∈ record.texts, WellFormed t)
    (hnow : ∀ e ∈ es, e.now ≤ now) : Serves C now (ledger C.cap es) (run C es) := by
  induction es using List.reverseRecOn generalizing now with
  | nil =>
    exact ⟨rfl, (fun _ h ↦ nomatch h), (fun _ h ↦ nomatch h), .nil, hcap.le, .refl, indexes_nil⟩
  | append_singleton es e ih =>
    rw [Clocked, List.map_append, List.pairwise_append] at hclock
    have hlast : Serves C e.now (ledger C.cap es) (run C es) :=
      ih hclock.1 (fun e' he' ↦ hfits e' (List.mem_append_left _ he'))
        fun e' he' ↦ hclock.2.2 _ (List.mem_map_of_mem he') _ (List.mem_singleton.mpr rfl)
    rw [ledger, run, List.foldl_append, List.foldl_append]
    exact (hlast.step hcap (le_refl _) (hfits e (by simp))).mono (hnow e (by simp))

/-! ### The store is lawful -/

/-- The list is the ledger's records that are not too old. -/
theorem perm_list (h : Serves C now L s) :
    (list C now s).Perm (L.records.filter fun r ↦ decide (now - C.maxAgeMs ≤ r.atMs)) := by
  have hfilter := h.sheds.filter_eq (p := fun r ↦ decide (now - C.maxAgeMs ≤ r.atMs))
    fun r hr hlate ↦ absurd (of_decide_eq_true hlate) (not_le.mpr hr)
  rw [list, lrange_all, hfilter]
  exact List.mergeSort_perm ..

/-- It is ordered newest first, and by sequence number within one millisecond. -/
theorem pairwise_list (h : Serves C now L s) (time : ℤ) : (list C time s).Pairwise Newer := by
  have hsorted : (list C time s).Pairwise fun a b ↦ newestFirst a b := by
    refine List.pairwise_mergeSort (fun a b c hab hbc ↦ ?_) (fun a b ↦ ?_) _
    · simp only [newestFirst, decide_eq_true_eq] at *
      omega
    · simp only [newestFirst, Bool.or_eq_true, decide_eq_true_eq]
      omega
  have hring : s.ring.Pairwise fun a b ↦ b.seq ≠ a.seq :=
    (h.newest.sublist h.sheds.isPrefix.sublist).imp fun hlt ↦ hlt.ne
  have hseq : (list C time s).Pairwise fun a b ↦ b.seq ≠ a.seq := by
    rw [list, lrange_all]
    exact (hring.filter _).perm (List.mergeSort_perm ..).symm fun hne ↦ hne.symm
  refine (hsorted.and hseq).imp fun {a b} hab ↦ ?_
  have hle := of_decide_eq_true hab.1
  have hne := hab.2
  unfold Newer
  omega

/-- Every history has a last moment. -/
theorem exists_now (es : List Event) : ∃ now, ∀ e ∈ es, e.now ≤ now := by
  induction es with
  | nil => exact ⟨0, fun _ h ↦ nomatch h⟩
  | cons e es ih =>
    obtain ⟨now, hnow⟩ := ih
    refine ⟨max e.now now, List.forall_mem_cons.mpr ⟨le_max_left .., fun e' he' ↦ ?_⟩⟩
    exact (hnow e' he').trans (le_max_right ..)

/-- After every run of calls the ring and its details are in step, what is listed is what the ledger
retains, and a purge takes out what is older than its date. -/
theorem lawful_of_fits (C : IncidentStore) (es : List Event) (hclock : Clocked es)
    (h : Fits C es) : Lawful C es := by
  have hserves {now : ℤ} (hnow : ∀ e ∈ es, e.now ≤ now) :
      Serves C now (ledger C.cap es) (run C es) := serves_run h.cap_pos hclock h.wellFormed hnow
  obtain ⟨now, hnow⟩ := exists_now es
  have hrun := hserves hnow
  have hle := hrun.sheds.isPrefix.length_le
  exact
    { nodup := hrun.readable.nodup
      length_le := by have := hrun.length_le; omega
      fields := hrun.fields
      listed := fun now hnow ↦ perm_list (hserves hnow)
      newest := pairwise_list hrun
      purged := fun cutoff ↦ purged_purgeBefore hrun.readable }

/-- A warning about the API, of a time and with a message. -/
def warningOf (atMs : ℤ) (message : JsString) : IncidentDraftRecord where
  traceId := lit "tr-0123456789abcdef"
  atMs := atMs
  severity := .warning
  component := .api
  status := some 500
  method := some (lit "GET")
  path := some (lit "/api/v1/x")
  routeTemplate := some (lit "/api/v1/x")
  message := message
  caller := ⟨.anonymous, lit "anonymous"⟩
  ip := none
  userAgent := none
  errorCode := none
  queryKeys := []
  stack := none
  context := {}

/-- Five warnings, not in the order of their times, where three may stay. The fourth drops the
first, and a purge takes out two of the others. -/
def fiveWarnings : List Event :=
  [⟨0, .add (warningOf 5 (lit "boom"))⟩, ⟨1, .add (warningOf 3 (lit "boom"))⟩,
    ⟨2, .add (warningOf 4 (messageOf (lit "boom")))⟩, ⟨3, .add (warningOf 3 (lit "boom"))⟩,
    ⟨4, .list⟩, ⟨5, .purgeBefore 4⟩, ⟨6, .add (warningOf 2 (lit "boom"))⟩]

/-- The third and the fifth are left, and the third is listed first. -/
theorem lawful_of_fits_warnings :
    Lawful (.ofOptions ⟨some 3, none⟩) fiveWarnings ∧
      (list (.ofOptions ⟨some 3, none⟩) 7 (run (.ofOptions ⟨some 3, none⟩) fiveWarnings)).map
        IncidentSummaryRecord.seq = [3, 5] := by
  have htexts : ∀ atMs, ∀ t ∈ (warningOf atMs (lit "boom")).texts, WellFormed t := fun atMs ↦ by
    change ∀ t ∈ (warningOf 0 (lit "boom")).texts, WellFormed t
    decide +kernel
  have hlawful := lawful_of_fits (.ofOptions ⟨some 3, none⟩) fiveWarnings (by decide)
    ⟨by decide, ?_⟩
  · -- two orders of the same entries are the same order
    have hsorted : ((ledger 3 fiveWarnings).records.filter fun r ↦ decide
        (7 - (IncidentStore.ofOptions ⟨some 3, none⟩).maxAgeMs ≤ r.atMs)).reverse.Pairwise
          Newer := by
      unfold Newer
      decide +kernel
    have hlist := List.Perm.eq_of_pairwise
      (fun a b _ _ (hab : Newer a b) (hba : Newer b a) ↦ by unfold Newer at hab hba; omega)
      (hlawful.newest 7) hsorted ((hlawful.listed 7 (by decide)).trans (List.reverse_perm _).symm)
    exact ⟨hlawful, by rw [hlist]; decide +kernel⟩
  intro e he record hrecord
  simp only [fiveWarnings, List.mem_cons, List.not_mem_nil, or_false] at he
  rcases he with rfl | rfl | rfl | rfl | rfl | rfl | rfl
  · rw [← Call.add.inj hrecord]
    exact htexts 5
  · rw [← Call.add.inj hrecord]
    exact htexts 3
  · rw [← Call.add.inj hrecord]
    exact htexts 4
  · rw [← Call.add.inj hrecord]
    exact htexts 3
  · cases hrecord
  · cases hrecord
  · rw [← Call.add.inj hrecord]
    exact htexts 2

/-- A message that is cut in the middle of a character is dropped, and its details stay. -/
theorem not_lawful_of_cut : ¬ ∀ (C : IncidentStore) (es : List Event), 0 < C.cap → Clocked es →
    Lawful C es := by
  intro h
  have hfields := (h (.ofOptions ⟨none, none⟩) [⟨0, .add (warningOf 0 (messageOf
    (List.replicate 499 0xE01 ++ lit "😀")))⟩] (by decide) (by decide)).fields (mintId (some 500) 1)
  have hring : (run (.ofOptions ⟨none, none⟩) [⟨0, .add (warningOf 0 (messageOf
      (List.replicate 499 0xE01 ++ lit "😀")))⟩]).ring = [] := by decide +kernel
  have hdetail : ((run (.ofOptions ⟨none, none⟩) [⟨0, .add (warningOf 0 (messageOf
      (List.replicate 499 0xE01 ++ lit "😀")))⟩]).detail (mintId (some 500) 1)).isSome := by
    decide +kernel
  rw [hring] at hfields
  exact absurd (hfields.mp hdetail) List.not_mem_nil

end EasyBook.IncidentRing

import EasyBook.Incidents.StormControl

/-!
# What the recorder loses

The order in which the buffer is stored and the counts of the storm control hold in every run. A
record is lost by exactly the runs in which the flush takes out a record that it has not stored
(`lawful_iff`), and there are such runs (`lost_in_outage`).
-/

namespace EasyBook.Incidents

open Machine Recorder

/-- The recorder has lost nothing that it had room for. -/
structure Lawful (s : Recorder) : Prop where
  kept : Kept s
  inOrder : InOrder s
  conserved : Conserved s
  windowed : Windowed s

/-- What is known after any events. -/
structure Known (s : Recorder) : Prop where
  buffered : ∃ gone, Buffered gone s
  storm : Storm s

/-- At the start everything is accounted for. -/
theorem known_init : Known init := ⟨⟨[], buffered_init⟩, storm_init⟩

variable {s : Recorder}

/-- And after every event. -/
theorem Known.step (h : Known s) (e : Event) : Known (s.step e) :=
  ⟨h.buffered.elim fun _ hb ↦ buffered_step hb e, storm_step h.storm e⟩

/-- Records are stored in the order in which they came. -/
theorem Recorder.Buffered.inOrder {gone : List Entry} (h : Buffered gone s) : InOrder s := by
  unfold InOrder
  rw [h.entered_eq]
  exact h.flushed_gone.trans (List.sublist_append_left _ _)

/-- Every record of a signature was let in, is counted in a summary, or waits for one. -/
theorem Storm.conserved (h : Storm s) : Conserved s := fun signature ↦
  (h.agrees signature).conserved

/-- No window lets in more than the limit. -/
theorem Storm.windowed (h : Storm s) : Windowed s := fun signature W hW ↦ by
  rw [(h.agrees signature).window] at hW
  obtain ⟨state, hstate, rfl⟩ := Option.map_eq_some_iff.1 hW
  exact (h.agrees signature).limit state hstate

/-- Of what the recorder promises, only the records of the buffer are ever in question. -/
theorem Known.lawful_iff_kept (h : Known s) : Lawful s ↔ Kept s := by
  obtain ⟨gone, hb⟩ := h.buffered
  exact ⟨Lawful.kept, fun hk ↦ ⟨hk, hb.inOrder, h.storm.conserved, h.storm.windowed⟩⟩

/-- An event breaks the law exactly where it overtakes the queue. -/
theorem Known.lawful_step_iff (h : Known s) (hs : Lawful s) (e : Event) :
    Lawful (s.step e) ↔ ¬ Overtaken s e := by
  obtain ⟨gone, hb⟩ := h.buffered
  exact (h.step e).lawful_iff_kept.trans (kept_step_iff hb hs.kept e)

/-- A run is lawful from a lawful state if and only if the flush is never overtaken. -/
theorem Known.always_lawful_iff (h : Known s) (hs : Lawful s) (es : List Event) :
    Always Recorder.step Lawful s es ↔ Each Recorder.step (fun s e ↦ ¬ Overtaken s e) s es := by
  induction es generalizing s with
  | nil => exact iff_of_true hs trivial
  | cons e es ih =>
    have hstep := h.lawful_step_iff hs e
    constructor
    · rintro ⟨-, hrest⟩
      have hnext : Lawful (s.step e) := by
        cases es with
        | nil => exact hrest
        | cons => exact hrest.1
      exact ⟨hstep.1 hnext, (ih (h.step e) hnext).1 hrest⟩
    · rintro ⟨he, hrest⟩
      exact ⟨hs, (ih (h.step e) (hstep.2 he)).2 hrest⟩

/-- The start is lawful. -/
theorem lawful_init : Lawful init := known_init.lawful_iff_kept.2 fun _ h ↦ nomatch h

/-- Whatever happens to the recorder, nothing is lost, stored out of order, uncounted or let through
beyond the limit, if and only if no record that the flush has stored was dropped before. -/
theorem lawful_iff (es : List Event) :
    Always Recorder.step Lawful init es ↔
      Each Recorder.step (fun s e ↦ ¬ Overtaken s e) init es :=
  known_init.always_lawful_iff lawful_init es

/-! ### An outage -/

/-- A record of a failure of the database. -/
def failure : IncidentDraftRecord :=
  { traceId := JsString.lit "tr-0123456789abcdef"
    atMs := 0
    severity := .critical
    component := .prismaDb
    status := some 500
    method := some (JsString.lit "GET")
    path := some (JsString.lit "/admin/bookings")
    routeTemplate := some (JsString.lit "/admin/bookings")
    message := JsString.lit "connection refused"
    caller := ⟨.anonymous, JsString.lit "anonymous"⟩
    ip := none
    userAgent := none
    errorCode := none
    queryKeys := []
    stack := none
    context := {} }

/-- A minute between any two records fills the buffer. Redis is back, and away again while the
oldest is being stored; one record more drops it. -/
def outage : List Event :=
  (List.range 200).map (fun i ↦ .persist (60000 * i) failure) ++
    [.status true, .onReady, .status false, .persist 12000000 failure]

set_option maxRecDepth 4000 in
/-- When the first record of the outage was stored, the second has left the buffer. -/
theorem lost_in_outage : ¬ Always Recorder.step Lawful init (outage ++ [.flushResolved]) := by
  intro h
  have hfair := (known_init.always_lawful_iff lawful_init _).1 h
  have hwaits : (outage.foldl Recorder.step init).flushing = some ⟨0, failure⟩ ∧
      (outage.foldl Recorder.step init).fifo.head? = some ⟨1, failure⟩ := by
    decide +kernel
  refine Each.last hfair ⟨rfl, ⟨0, failure⟩, hwaits.1, ?_⟩
  rw [hwaits.2]
  decide

end EasyBook.Incidents

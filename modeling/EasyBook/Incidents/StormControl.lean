import EasyBook.Incidents.Buffer

/-!
# Storm control

For every signature the records let through, those that a summary stands for and those that are
still counted are the records that were persisted, and no window of the clock has let too many
through (`Storm`). This speaks of each signature on its own, from the state that is kept for it and
what has happened to its records (`StormAt`).
-/

namespace EasyBook.Incidents

open Recorder

/-! ### Counts -/

/-- `1` for a record of the signature. -/
def ofSignature (signature : JsString) (r : IncidentDraftRecord) : ℕ :=
  if signatureOf r = signature then 1 else 0

/-- Whether a record of the signature was persisted. -/
def Happening.persists (signature : JsString) : Happening → ℕ
  | .persisted r => ofSignature signature r
  | _ => 0

/-- Whether a record of the signature was let through. -/
def Happening.admits (signature : JsString) : Happening → ℕ
  | .admitted r _ => ofSignature signature r
  | _ => 0

/-- The number on a summary of the signature. -/
def Happening.summarizes (signature : JsString) : Happening → ℕ
  | .summarized r => ofSignature signature r * r.context.suppressedCount.getD 0
  | _ => 0

/-- A window of time: when it began, and how many records it has let through. -/
structure Window where
  start : ℤ
  admitted : ℕ

/-- By `now` the window is over. -/
def Window.Over (W : Window) (now : ℤ) : Prop := signatureWindowMs ≤ now - W.start

instance (W : Window) (now : ℤ) : Decidable (W.Over now) := inferInstanceAs (Decidable (_ ≤ _))

/-- A record is let through at `now`: in the window that is open, or in a new one. -/
def Window.letsIn (now : ℤ) : Option Window → Window
  | none => ⟨now, 1⟩
  | some W => if W.Over now then ⟨now, 1⟩ else { W with admitted := W.admitted + 1 }

/-- What is open of the windows of a signature after `x`, by the readings of the clock. -/
def windowAfter (signature : JsString) (W : Option Window) : Happening → Option Window
  | .admitted r now => if signatureOf r = signature then some (Window.letsIn now W) else W
  | .swept k now => if k = signature then W.filter fun W ↦ ¬ W.Over now else W
  | _ => W

/-- The window of the signature after what has happened, if one is open. -/
def windowOf (signature : JsString) (log : List Happening) : Option Window :=
  log.foldl (windowAfter signature) none

/-- The total over a log. -/
def total (f : Happening → ℕ) (log : List Happening) : ℕ := (log.map f).sum

/-- The suppressed records of the signature that no summary stands for yet. -/
def pending (signature : JsString) (s : Recorder) : ℕ :=
  ((s.signatures.lookup signature).map SignatureState.suppressed).getD 0

/-- No record of the signature is lost from the count. -/
def Conserved (s : Recorder) : Prop := ∀ signature,
  total (Happening.admits signature) s.log + total (Happening.summarizes signature) s.log +
    pending signature s = total (Happening.persists signature) s.log

/-- No window has let too many records through. -/
def Windowed (s : Recorder) : Prop :=
  ∀ signature, ∀ W ∈ windowOf signature s.log, W.admitted ≤ signatureLimit

/-! ### One signature -/

/-- The state of a signature and the log agree. -/
structure StormAt (signature : JsString) (found : Option SignatureState) (log : List Happening) :
    Prop where
  conserved : total (Happening.admits signature) log + total (Happening.summarizes signature) log +
    (found.map SignatureState.suppressed).getD 0 = total (Happening.persists signature) log
  window : windowOf signature log = found.map fun state ↦ ⟨state.windowStart, state.count⟩
  limit : ∀ state ∈ found, state.count ≤ signatureLimit
  last : ∀ state ∈ found, state.last = none → state.suppressed = 0
  signature : ∀ state ∈ found, ∀ r ∈ state.last, signatureOf r = signature

/-- What has happened has nothing to do with records of the signature. -/
def Elsewhere (signature : JsString) : Happening → Prop
  | .persisted r | .admitted r _ | .summarized r => signatureOf r ≠ signature
  | .swept k _ => k ≠ signature
  | _ => True

section Log

variable {signature : JsString} {found : Option SignatureState} {log : List Happening}
  {x : Happening} {r : IncidentDraftRecord}

@[simp] theorem total_nil (f : Happening → ℕ) : total f [] = 0 := rfl

@[simp] theorem total_cons (f : Happening → ℕ) : total f (x :: log) = f x + total f log := by
  simp [total]

@[simp] theorem total_append (f : Happening → ℕ) (log log' : List Happening) :
    total f (log ++ log') = total f log + total f log' := by
  simp [total]

@[simp] theorem windowOf_snoc (log : List Happening) (x : Happening) :
    windowOf signature (log ++ [x]) = windowAfter signature (windowOf signature log) x := by
  simp [windowOf]

/-- What happens to other signatures changes no window. -/
theorem windowAfter_elsewhere (W : Option Window) (hx : Elsewhere signature x) :
    windowAfter signature W x = W := by
  cases x with
  | admitted r now => exact if_neg hx
  | swept k now => exact if_neg hx
  | _ => rfl

/-- Nor does it change the account of the signature. -/
theorem StormAt.elsewhere (h : StormAt signature found log) (hx : Elsewhere signature x) :
    StormAt signature found (log ++ [x]) := by
  have hadmits : x.admits signature = 0 := by
    cases x with
    | admitted r now => exact if_neg hx
    | _ => rfl
  have hsummarizes : x.summarizes signature = 0 := by
    cases x with
    | summarized r =>
      have hne : ofSignature signature r = 0 := if_neg hx
      simp [Happening.summarizes, hne]
    | _ => rfl
  have hpersists : x.persists signature = 0 := by
    cases x with
    | persisted r => exact if_neg hx
    | _ => rfl
  exact ⟨by simpa [hadmits, hsummarizes, hpersists] using h.conserved,
    by rw [windowOf_snoc, windowAfter_elsewhere _ hx, h.window], h.limit, h.last, h.signature⟩

@[simp] theorem ofSignature_self : ofSignature (signatureOf r) r = 1 := if_pos rfl

/-- The window of the log is over when that of the state is. -/
theorem StormAt.over_of_window {now : ℤ} (h : StormAt signature found log)
    (hover : ∀ state ∈ found, signatureWindowMs ≤ now - state.windowStart) :
    ∀ W ∈ windowOf signature (log ++ [.persisted r]), W.Over now := by
  intro W hW
  change W ∈ windowOf signature (log ++ [Happening.persisted r]) at hW
  rw [windowOf_snoc] at hW
  change W ∈ windowOf signature log at hW
  rw [h.window] at hW
  obtain ⟨state, hstate, rfl⟩ := Option.map_eq_some_iff.1 hW
  exact hover state hstate

/-- A window that opens. -/
theorem windowAfter_opens {now : ℤ} (hover : ∀ W ∈ windowOf (signatureOf r) log, W.Over now) :
    windowAfter (signatureOf r) (windowOf (signatureOf r) log) (.admitted r now) =
      some ⟨now, 1⟩ := by
  rw [windowAfter, if_pos rfl]
  cases hW : windowOf (signatureOf r) log with
  | none => rfl
  | some W => rw [Window.letsIn, if_pos (hover W hW)]

/-- The state of a signature that was never seen, or whose window is over without suppressed
records. -/
theorem StormAt.opens {now : ℤ} (h : StormAt (signatureOf r) found log)
    (hover : ∀ state ∈ found, signatureWindowMs ≤ now - state.windowStart)
    (hnone : (found.map SignatureState.suppressed).getD 0 = 0) :
    StormAt (signatureOf r) (some ⟨now, 1, 0, none⟩)
      (log ++ [.persisted r] ++ [.admitted r now]) := by
  have hconserved := h.conserved
  refine ⟨?_, ?_, ?_, ?_, ?_⟩
  · simp only [total_append, total_cons, total_nil, Happening.admits, Happening.persists,
      Happening.summarizes, ofSignature_self, Option.map_some, Option.getD_some]
    omega
  · rw [windowOf_snoc, windowAfter_opens (h.over_of_window hover)]
    rfl
  · rintro state ⟨⟩
    exact (by decide : 1 ≤ signatureLimit)
  · rintro state ⟨⟩ _
    rfl
  · rintro state ⟨⟩ _ ⟨⟩

/-- A summary carries the signature of what it sums up. -/
theorem signatureOf_summaryOf (now : ℤ) (state : SignatureState) (last : IncidentDraftRecord) :
    signatureOf (summaryOf now state last) = signatureOf last := by
  simp only [signatureOf, summaryOf]

/-- A summary counts for the records that it stands for. -/
theorem summarizes_summaryOf (now : ℤ) (state : SignatureState) {last : IncidentDraftRecord}
    (h : signatureOf last = signature) :
    Happening.summarizes signature (.summarized (summaryOf now state last)) =
      state.suppressed := by
  rw [Happening.summarizes, ofSignature, signatureOf_summaryOf, if_pos h, Nat.one_mul]
  simp only [summaryOf, Option.getD_some]

/-- The same with a summary. -/
theorem StormAt.opensAndEmits {now : ℤ} {state : SignatureState} {last : IncidentDraftRecord}
    (h : StormAt (signatureOf r) (some state) log)
    (hover : signatureWindowMs ≤ now - state.windowStart) (hlast : state.last = some last) :
    StormAt (signatureOf r) (some ⟨now, 1, 0, none⟩)
      (log ++ [.persisted r] ++ [.admitted r now] ++ [.summarized (summaryOf now state last)]) := by
  have hconserved := h.conserved
  have hsummary := summarizes_summaryOf now state (h.signature state rfl last hlast)
  refine ⟨?_, ?_, ?_, ?_, ?_⟩
  · simp only [total_append, total_cons, total_nil, hsummary]
    simp only [Happening.admits, Happening.persists, Happening.summarizes, ofSignature_self,
      Option.map_some, Option.getD_some] at hconserved ⊢
    omega
  · have hopen : ∀ W ∈ windowOf (signatureOf r) (log ++ [.persisted r]), W.Over now :=
      h.over_of_window fun state hstate ↦ by
        obtain rfl := Option.some.inj hstate
        exact hover
    rw [windowOf_snoc, windowOf_snoc, windowAfter_opens hopen]
    rfl
  · rintro state ⟨⟩
    exact (by decide : 1 ≤ signatureLimit)
  · rintro state ⟨⟩ _
    rfl
  · rintro state ⟨⟩ _ ⟨⟩

/-- One record more in the window. -/
theorem StormAt.admits {now : ℤ} {state : SignatureState}
    (h : StormAt (signatureOf r) (some state) log)
    (hopen : ¬ signatureWindowMs ≤ now - state.windowStart)
    (hcount : state.count < signatureLimit) :
    StormAt (signatureOf r) (some { state with count := state.count + 1 })
      (log ++ [.persisted r] ++ [.admitted r now]) := by
  have hconserved := h.conserved
  refine ⟨?_, ?_, ?_, ?_, ?_⟩
  · simp only [total_append, total_cons, total_nil, Happening.admits, Happening.persists,
      Happening.summarizes, ofSignature_self, Option.map_some, Option.getD_some] at hconserved ⊢
    omega
  · rw [windowOf_snoc, windowOf_snoc]
    change windowAfter _ (windowOf _ log) _ = _
    rw [h.window, windowAfter, if_pos rfl]
    exact congrArg some (if_neg hopen)
  · rintro _ ⟨⟩
    exact hcount
  · rintro _ ⟨⟩
    exact h.last state rfl
  · rintro _ ⟨⟩
    exact h.signature state rfl

/-- The window is full. -/
theorem StormAt.suppresses {state : SignatureState}
    (h : StormAt (signatureOf r) (some state) log) :
    StormAt (signatureOf r)
      (some { state with suppressed := state.suppressed + 1, last := some r })
      (log ++ [.persisted r]) := by
  have hconserved := h.conserved
  refine ⟨?_, ?_, ?_, ?_, ?_⟩
  · simp only [total_append, total_cons, total_nil, Happening.admits, Happening.persists,
      Happening.summarizes, ofSignature_self, Option.map_some, Option.getD_some] at hconserved ⊢
    omega
  · rw [windowOf_snoc]
    exact h.window
  · rintro _ ⟨⟩
    exact h.limit state rfl
  · rintro _ ⟨⟩ hnone
    cases hnone
  · rintro _ ⟨⟩ _ ⟨⟩
    rfl

/-- A window that closes. -/
theorem StormAt.window_closes {now : ℤ} {state : SignatureState}
    (h : StormAt signature (some state) log)
    (hover : signatureWindowMs ≤ now - state.windowStart) :
    windowAfter signature (windowOf signature log) (.swept signature now) = none := by
  have hdead : ¬ ¬ (Window.mk state.windowStart state.count).Over now := not_not.2 hover
  rw [h.window, windowAfter, if_pos rfl, Option.map_some, Option.filter_some,
    if_neg (by rwa [decide_eq_true_eq])]

/-- The state is deleted. -/
theorem StormAt.forgets {now : ℤ} {state : SignatureState}
    (h : StormAt signature (some state) log)
    (hover : signatureWindowMs ≤ now - state.windowStart) (hnone : state.suppressed = 0) :
    StormAt signature none (log ++ [.swept signature now]) := by
  have hconserved := h.conserved
  refine ⟨?_, ?_, fun _ h ↦ (by cases h), fun _ h ↦ (by cases h), fun _ h ↦ (by cases h)⟩
  · simpa [hnone, Happening.admits, Happening.persists, Happening.summarizes] using hconserved
  · rw [windowOf_snoc, h.window_closes hover]
    rfl

/-- It is deleted with a summary. -/
theorem StormAt.emits {now : ℤ} {state : SignatureState} {last : IncidentDraftRecord}
    (h : StormAt signature (some state) log)
    (hover : signatureWindowMs ≤ now - state.windowStart) (hlast : state.last = some last) :
    StormAt signature none
      (log ++ [.swept signature now] ++ [.summarized (summaryOf now state last)]) := by
  have hconserved := h.conserved
  have hsummary := summarizes_summaryOf now state (h.signature state rfl last hlast)
  refine ⟨?_, ?_, fun _ h ↦ (by cases h), fun _ h ↦ (by cases h), fun _ h ↦ (by cases h)⟩
  · simp only [total_append, total_cons, total_nil, hsummary]
    simp only [Happening.admits, Happening.persists, Happening.summarizes, Option.map_some,
      Option.getD_some, Option.map_none, Option.getD_none] at hconserved ⊢
    omega
  · rw [windowOf_snoc, windowOf_snoc, h.window_closes hover]
    rfl

/-- What has happened elsewhere since. -/
theorem StormAt.append {l : List Happening} (h : StormAt signature found log)
    (hl : ∀ x ∈ l, Elsewhere signature x) : StormAt signature found (log ++ l) := by
  induction l generalizing log with
  | nil => simpa using h
  | cons x l ih =>
    rw [List.append_cons]
    exact ih (h.elsewhere (hl x List.mem_cons_self)) fun y hy ↦ hl y (List.mem_cons_of_mem _ hy)

end Log

/-! ### The recorder -/

/-- The state of every signature and the log agree. -/
structure Storm (s : Recorder) : Prop where
  nodup : (s.signatures.map Prod.fst).Nodup
  agrees : ∀ signature, StormAt signature (s.signatures.lookup signature) s.log

/-- The storm control has not been at work between two states. -/
def Undisturbed (s s' : Recorder) : Prop :=
  s'.signatures = s.signatures ∧
    ∃ l, s'.log = s.log ++ l ∧ ∀ x ∈ l, ∀ signature, Elsewhere signature x

section Recorder

variable {s s' s'' : Recorder} {now : ℤ} {r : IncidentDraftRecord}

/-- A step that touches neither the states nor the log. -/
theorem undisturbed_of_eq (hsig : s'.signatures = s.signatures) (hlog : s'.log = s.log) :
    Undisturbed s s' :=
  ⟨hsig, [], by rw [hlog, List.append_nil], fun _ hx ↦ (nomatch hx)⟩

/-- Two such steps. -/
theorem Undisturbed.trans (h : Undisturbed s s') (h' : Undisturbed s' s'') :
    Undisturbed s s'' := by
  obtain ⟨hsig, l, hlog, hl⟩ := h
  obtain ⟨hsig', l', hlog', hl'⟩ := h'
  refine ⟨hsig'.trans hsig, l ++ l', by rw [hlog', hlog, List.append_assoc], fun x hx ↦ ?_⟩
  exact (List.mem_append.1 hx).elim (hl x) (hl' x)

/-- Noting what belongs to no signature. -/
theorem undisturbed_note (x : Happening) (hx : ∀ signature, Elsewhere signature x)
    (s : Recorder) : Undisturbed s (s.note x) :=
  ⟨rfl, [x], rfl, fun _ hy ↦ List.mem_singleton.1 hy ▸ hx⟩

/-- Dropping from the queue is no matter of a signature. -/
theorem undisturbed_shiftOver (l : List Entry) (s : Recorder) :
    Undisturbed s (shiftOver l s) := by
  induction l generalizing s with
  | nil => exact undisturbed_of_eq rfl rfl
  | cons x l ih =>
    unfold shiftOver
    split_ifs
    · exact (undisturbed_note (.dropped (x :: l)) (fun _ ↦ trivial) s).trans (ih _)
    · exact undisturbed_of_eq rfl rfl

/-- Nor is queueing. -/
theorem undisturbed_pushFifo (x : Entry) (s : Recorder) : Undisturbed s (s.pushFifo x) :=
  (undisturbed_note (.entered x) (fun _ ↦ trivial) s).trans (undisturbed_shiftOver _ _)

/-- Nor is sending. -/
theorem undisturbed_send (r : IncidentDraftRecord) (s : Recorder) : Undisturbed s (s.send r) := by
  unfold send
  dsimp only
  split_ifs
  · exact undisturbed_of_eq rfl rfl
  · exact (undisturbed_of_eq rfl rfl).trans (undisturbed_pushFifo _ _)

/-- What leaves the signatures alone keeps their account. -/
theorem Storm.undisturbed (h : Storm s) (hs : Undisturbed s s') : Storm s' := by
  obtain ⟨hsig, l, hlog, hl⟩ := hs
  refine ⟨hsig ▸ h.nodup, fun signature ↦ ?_⟩
  rw [hsig, hlog]
  exact (h.agrees signature).append fun x hx ↦ hl x hx signature

/-- The storm control has been at work on one signature. -/
theorem Storm.update (h : Storm s) (signature : JsString) (found : Option SignatureState)
    (l : List Happening) (hnodup : (s'.signatures.map Prod.fst).Nodup)
    (hlookup : ∀ k, s'.signatures.lookup k =
      if k = signature then found else s.signatures.lookup k)
    (hlog : s'.log = s.log ++ l) (hl : ∀ k ≠ signature, ∀ x ∈ l, Elsewhere k x)
    (hat : StormAt signature found (s.log ++ l)) : Storm s' := by
  refine ⟨hnodup, fun k ↦ ?_⟩
  rw [hlookup, hlog]
  split_ifs with hk
  · exact hk ▸ hat
  · exact (h.agrees k).append (hl k hk)

/-- What `emitSuppressed` adds. -/
theorem emitSuppressed_cases (now : ℤ) (state : SignatureState) (s : Recorder) :
    (s.emitSuppressed now state = s ∧ (state.last = none ∨ state.suppressed = 0)) ∨
      ∃ last, state.last = some last ∧
        Undisturbed (s.note (.summarized (summaryOf now state last)))
          (s.emitSuppressed now state) := by
  unfold emitSuppressed
  cases hlast : state.last with
  | none => exact .inl ⟨rfl, .inl rfl⟩
  | some last =>
    dsimp only
    split_ifs with hzero
    · exact .inl ⟨rfl, .inr hzero⟩
    · exact .inr ⟨last, rfl, undisturbed_send _ _⟩

/-- Where no record is kept for a summary, none is suppressed. -/
theorem StormAt.suppressed_eq_zero {signature : JsString} {state : SignatureState}
    {log : List Happening} (h : StormAt signature (some state) log)
    (hnone : state.last = none ∨ state.suppressed = 0) : state.suppressed = 0 :=
  hnone.elim (h.last state rfl) id

/-- A summary accounts for what was suppressed. -/
theorem storm_emitSuppressed {state : SignatureState}
    (hquiet : state.last = none ∨ state.suppressed = 0 → Storm s)
    (hemits : ∀ last, state.last = some last →
      Storm (s.note (.summarized (summaryOf now state last)))) :
    Storm (s.emitSuppressed now state) := by
  rcases emitSuppressed_cases now state s with ⟨heq, hnone⟩ | ⟨last, hlast, hrest⟩
  · rw [heq]
    exact hquiet hnone
  · exact (hemits last hlast).undisturbed hrest

/-- Letting a record in, or counting it, keeps the account. -/
theorem storm_admitRecord (h : Storm s) :
    Storm ((s.note (.persisted r)).admitRecord now r).2 := by
  have hat := h.agrees (signatureOf r)
  have hset : ∀ state, ((mapSet s.signatures (signatureOf r) state).map Prod.fst).Nodup :=
    fun state ↦ nodup_keys_mapSet h.nodup
  have helse : ∀ l : List Happening, (∀ x ∈ l, x = .persisted r ∨ (∃ now, x = .admitted r now) ∨
      ∃ r', x = .summarized r' ∧ signatureOf r' = signatureOf r) →
      ∀ k ≠ signatureOf r, ∀ x ∈ l, Elsewhere k x := by
    intro l hl k hk x hx
    rcases hl x hx with rfl | ⟨now, rfl⟩ | ⟨r', rfl, hr'⟩
    · exact Ne.symm hk
    · exact Ne.symm hk
    · exact fun heq ↦ hk (heq ▸ hr')
  unfold admitRecord setSignature
  dsimp only
  rw [show (s.note (.persisted r)).signatures = s.signatures from rfl]
  cases hfound : s.signatures.lookup (signatureOf r) with
  | none =>
    rw [hfound] at hat
    refine h.update _ _ ([.persisted r] ++ [.admitted r now]) (hset _) (fun k ↦ lookup_mapSet)
      (by simp [note]) (helse _ (by simp)) ?_
    rw [← List.append_assoc]
    exact hat.opens (fun _ h ↦ by cases h) rfl
  | some state =>
    rw [hfound] at hat
    dsimp only
    split_ifs with hexpired hcount
    · refine storm_emitSuppressed (fun hnone ↦ ?_) fun last hlast ↦ ?_
      · refine h.update _ _ ([.persisted r] ++ [.admitted r now]) (hset _)
          (fun k ↦ lookup_mapSet) (by simp [note]) (helse _ (by simp)) ?_
        rw [← List.append_assoc]
        refine hat.opens (fun state' h ↦ ?_) (hat.suppressed_eq_zero hnone)
        obtain rfl := Option.some.inj h
        exact hexpired
      · have hsig := (signatureOf_summaryOf now state last).trans
          (hat.signature state rfl last hlast)
        refine h.update _ _ ([.persisted r] ++ [.admitted r now] ++
          [.summarized (summaryOf now state last)]) (hset _) (fun k ↦ lookup_mapSet)
          (by simp [note])
          (helse _ (by simp [hsig])) ?_
        rw [← List.append_assoc, ← List.append_assoc]
        exact hat.opensAndEmits hexpired hlast
    · refine h.update _ _ ([.persisted r] ++ [.admitted r now]) (hset _)
        (fun k ↦ lookup_mapSet) (by simp [note]) (helse _ (by simp)) ?_
      rw [← List.append_assoc]
      exact hat.admits hexpired hcount
    · exact h.update _ _ [.persisted r] (hset _) (fun k ↦ lookup_mapSet) rfl
        (helse _ (by simp)) hat.suppresses

/-- So does persisting one. -/
theorem storm_persist (h : Storm s) : Storm (s.persist now r) := by
  unfold Recorder.persist
  have hadmit : Storm ((s.note (.persisted r)).admitRecord now r).2 := storm_admitRecord h
  rcases hres : (s.note (.persisted r)).admitRecord now r with ⟨_ | _, s'⟩
  · rw [hres] at hadmit
    exact hadmit
  · rw [hres] at hadmit
    exact hadmit.undisturbed (undisturbed_send r s')

/-! ### The sweep -/

/-- The signatures that one round leaves alone. -/
theorem lookup_sweepEntry {e : JsString × SignatureState} {k : JsString} (hk : k ≠ e.1) :
    (sweepEntry now s e).signatures.lookup k = s.signatures.lookup k := by
  unfold sweepEntry
  split_ifs
  · rfl
  · rcases emitSuppressed_cases now e.2
      ({ s with signatures := mapDelete s.signatures e.1 }.note (.swept e.1 now)) with
      ⟨heq, -⟩ | ⟨last, -, hsig, -⟩
    · rw [heq]
      exact lookup_mapDelete.trans (if_neg hk)
    · rw [hsig]
      exact lookup_mapDelete.trans (if_neg hk)

/-- So does sweeping one signature. -/
theorem storm_sweepEntry {e : JsString × SignatureState} (h : Storm s)
    (he : s.signatures.lookup e.1 = some e.2) : Storm (sweepEntry now s e) := by
  have hat := h.agrees e.1
  rw [he] at hat
  unfold sweepEntry
  split_ifs with hopen
  · exact h
  · have hover := not_lt.1 hopen
    refine storm_emitSuppressed (fun hnone ↦ ?_) fun last hlast ↦ ?_
    · refine h.update e.1 none [.swept e.1 now] (nodup_keys_mapDelete h.nodup)
        (fun k ↦ lookup_mapDelete) rfl (fun k hk x hx ↦ ?_)
        (hat.forgets hover (hat.suppressed_eq_zero hnone))
      obtain rfl := List.mem_singleton.1 hx
      exact Ne.symm hk
    · have hsig := (signatureOf_summaryOf now e.2 last).trans (hat.signature e.2 rfl last hlast)
      refine h.update e.1 none ([.swept e.1 now] ++ [.summarized (summaryOf now e.2 last)])
        (nodup_keys_mapDelete h.nodup) (fun k ↦ lookup_mapDelete) (by simp [note])
        (fun k hk x hx ↦ ?_) ?_
      · rcases List.mem_append.1 hx with hx | hx
        · obtain rfl := List.mem_singleton.1 hx
          exact Ne.symm hk
        · obtain rfl := List.mem_singleton.1 hx
          exact fun heq ↦ hk (heq ▸ hsig)
      · rw [← List.append_assoc]
        exact hat.emits hover hlast

/-- So does sweeping them all. -/
theorem storm_sweepSignatures (h : Storm s) : Storm (s.sweepSignatures now) := by
  unfold Recorder.sweepSignatures
  have hfold : ∀ (l : List (JsString × SignatureState)) (s : Recorder), (l.map Prod.fst).Nodup →
      (∀ e ∈ l, s.signatures.lookup e.1 = some e.2) → Storm s →
      Storm (l.foldl (sweepEntry now) s) := by
    intro l
    induction l with
    | nil => exact fun _ _ _ h ↦ h
    | cons e l ih =>
      intro s hl hfound h
      obtain ⟨hnot, hl⟩ := List.nodup_cons.1 hl
      refine ih _ hl (fun e' he' ↦ ?_) (storm_sweepEntry h (hfound e List.mem_cons_self))
      have hne : e'.1 ≠ e.1 := fun heq ↦ hnot (heq ▸ List.mem_map_of_mem he')
      rw [lookup_sweepEntry hne]
      exact hfound e' (List.mem_cons_of_mem _ he')
  exact hfold _ _ h.nodup (fun e he ↦ lookup_of_mem h.nodup he) h

/-! ### One event -/

/-- At the start there is nothing to account for. -/
theorem storm_init : Storm init :=
  ⟨.nil, fun _ ↦ ⟨rfl, rfl, fun _ h ↦ (by cases h), fun _ h ↦ (by cases h), fun _ h ↦ (by cases h)⟩⟩

/-- The loop of the flush is no matter of a signature. -/
theorem undisturbed_flushLoop (s : Recorder) : Undisturbed s s.flushLoop := by
  rw [flushLoop_eq]
  exact undisturbed_of_eq rfl rfl

/-- Every event keeps the account. -/
theorem storm_step (h : Storm s) (e : Event) : Storm (s.step e) := by
  cases e with
  | persist now r => exact storm_persist h
  | status ready => exact h.undisturbed (undisturbed_of_eq rfl rfl)
  | onReady =>
    unfold step flush
    dsimp only
    split_ifs
    · exact h
    · exact h.undisturbed (undisturbed_flushLoop s)
  | addResolved x =>
    unfold step
    dsimp only
    split_ifs
    · have herase : Undisturbed s { s with sending := s.sending.erase x } :=
        undisturbed_of_eq rfl rfl
      exact h.undisturbed (herase.trans (undisturbed_note (.stored x) (fun _ ↦ trivial) _))
    · exact h
  | addRejected x =>
    unfold step
    dsimp only
    split_ifs
    · have herase : Undisturbed s { s with sending := s.sending.erase x } :=
        undisturbed_of_eq rfl rfl
      exact h.undisturbed (herase.trans (undisturbed_pushFifo x _))
    · exact h
  | flushResolved =>
    unfold step
    cases s.flushing with
    | none => exact h
    | some x =>
      have hfifo : Undisturbed s { s with fifo := s.fifo.tail } := undisturbed_of_eq rfl rfl
      exact h.undisturbed ((hfifo.trans
        (undisturbed_note (.flushed x) (fun _ ↦ trivial) _)).trans (undisturbed_flushLoop _))
  | flushRejected => exact h.undisturbed (undisturbed_of_eq rfl rfl)
  | sweep now => exact storm_sweepSignatures h

end Recorder

end EasyBook.Incidents

import EasyBook.Ecma.OrderedMap
import EasyBook.Ecma.Slices
import EasyBook.Storage.VenuePhotos

/-!
# The sweep of staged photos

`sweepStagedPhotos`: the staging folder is listed page by page, the keys that are old enough are
collected in a map, and deleted in batches. The loop over the pages is bounded by a fuel, and a
sweep that runs out of it returns `none`.

`sweep_counts` says what a sweep that returns has listed, submitted and counted, and
`sweep_ends` that the fuel does not matter as soon as the listing ends.
-/

namespace EasyBook.Storage

open JsString Machine Machine.Task

/-- `STAGED_PHOTO_MIN_AGE_MS`. -/
def stagedPhotoMinAgeMs : ℤ := 24 * 60 * 60 * 1000

/-- `DELETE_BATCH_LIMIT`. -/
def deleteBatchLimit : ℕ := 1000

/-- The options of a sweep. -/
structure SweepOptions where
  olderThanMs : Option ℤ
  dryRun : Option Bool

/-- `StagedPhotoSweepResult`. -/
structure StagedPhotoSweepResult where
  scannedCount : ℕ
  eligibleCount : ℕ
  deletedCount : ℕ
  freedBytes : ℕ
  dryRun : Bool
  deriving DecidableEq

/-- `STORAGE_SWEEP_FAILED`. -/
inductive SweepError where
  | storageSweepFailed
  deriving DecidableEq

/-- The end of a sweep, `none` if it runs out of fuel. -/
abbrev SweepOutcome : Type := Option (Except SweepError StagedPhotoSweepResult)

/-- The entry of the map that a listed object makes, if it is eligible. -/
def eligibleEntry (cutoff : ℤ) (object : ListedObject) : Option (JsString × ℕ) :=
  match object.key, object.lastModified with
  | some key, some lastModified =>
    if key = [] ∨ cutoff ≤ lastModified then none else some (key, object.size.getD 0)
  | _, _ => none

/-- The map after the objects of a page. -/
def collect (cutoff : ℤ) (eligible : List (JsString × ℕ)) (objects : List ListedObject) :
    List (JsString × ℕ) :=
  objects.foldl (fun m object ↦ match eligibleEntry cutoff object with
    | some (key, size) => mapSet m key size
    | none => m) eligible

/-- The token of the next page. -/
def Page.next (page : Page) : Option JsString :=
  if page.isTruncated then page.nextContinuationToken.filter (· ≠ []) else none

/-- The loop over the pages: the number of objects and the map, or a failure. -/
def listStaged (cutoff : ℤ) : ℕ → Option JsString → ℕ → List (JsString × ℕ) →
    PhotoTask (Option (Option (ℕ × List (JsString × ℕ))))
  | 0, _, _, _ => .done none
  | fuel + 1, token, scannedCount, eligible => do
    match ← send (.listObjects token) with
    | none => .done (some none)
    | some page =>
      let scannedCount := scannedCount + page.contents.length
      let eligible := collect cutoff eligible page.contents
      match page.next with
      | none => .done (some (some (scannedCount, eligible)))
      | some next => listStaged cutoff fuel (some next) scannedCount eligible

/-- The counters after an entry of a report. -/
def countDeleted (eligible : List (JsString × ℕ)) (counts : ℕ × ℕ) : Option JsString → ℕ × ℕ
  | none => counts
  | some key =>
    if key = [] then counts else (counts.1 + 1, counts.2 + (eligible.lookup key).getD 0)

/-- The loop over the batches: the counters, or a failure. -/
def deleteBatches (eligible : List (JsString × ℕ)) :
    List (List JsString) → ℕ × ℕ → PhotoTask (Option (ℕ × ℕ))
  | [], counts => .done (some counts)
  | batch :: batches, counts => do
    match ← send (.deleteObjects batch) with
    | none => .done none
    | some report =>
      deleteBatches eligible batches (report.deleted.foldl (countDeleted eligible) counts)

/-- What follows the listing. -/
def sweepEligible (dryRun : Bool) (scannedCount : ℕ) (eligible : List (JsString × ℕ)) :
    PhotoTask SweepOutcome :=
  if dryRun then
    .done (some (.ok ⟨scannedCount, eligible.length, 0, (eligible.map (·.2)).sum, dryRun⟩))
  else do
    match ← deleteBatches eligible (slices deleteBatchLimit (eligible.map (·.1))) (0, 0) with
    | none => .done (some (.error .storageSweepFailed))
    | some (deletedCount, freedBytes) =>
      .done (some (.ok ⟨scannedCount, eligible.length, deletedCount, freedBytes, dryRun⟩))

/-- `sweepStagedPhotos`. -/
def sweepStagedPhotos (options : SweepOptions) (fuel : ℕ) : PhotoTask SweepOutcome := do
  let now ← send .now
  let cutoff := now - options.olderThanMs.getD stagedPhotoMinAgeMs
  match ← listStaged cutoff fuel none 0 [] with
  | none => .done none
  | some none => .done (some (.error .storageSweepFailed))
  | some (some (scannedCount, eligible)) =>
    sweepEligible (options.dryRun.getD false) scannedCount eligible

/-! ### What a sweep has exchanged -/

/-- The pages that were listed, with the tokens they were asked for by. -/
def listings (h : List PhotoExchange) : List (Option JsString × Page) :=
  h.flatMap fun
    | ⟨.listObjects token, some page⟩ => [(token, page)]
    | _ => []

/-- The objects that were listed. -/
def listed (h : List PhotoExchange) : List ListedObject :=
  (listings h).flatMap (·.2.contents)

/-- The keys that were submitted for deletion. -/
def submitted (h : List PhotoExchange) : List JsString :=
  h.flatMap fun
    | ⟨.deleteObjects keys, _⟩ => keys
    | _ => []

/-- The keys that were reported as deleted. -/
def reported (h : List PhotoExchange) : List JsString :=
  h.flatMap fun
    | ⟨.deleteObjects _, some report⟩ => report.deleted.filterMap (·.filter (· ≠ []))
    | _ => []

/-- The listing is complete: it starts without a token, every page is asked for by the token of
the page before, and it stops at the first page that names no next one. -/
def Complete : Option JsString → List (Option JsString × Page) → Prop
  | _, [] => False
  | token, x :: xs => x.1 = token ∧ match x.2.next with
    | none => xs = []
    | some next => Complete (some next) xs

theorem path_send_done {ρ : Type} {q : PhotoQuery} {f : PhotoAnswer q → PhotoTask ρ}
    {h : List PhotoExchange} {r : ρ} : Path (send q >>= f) h (done r) ↔
      ∃ a h', h = ⟨q, a⟩ :: h' ∧ Path (f a) h' (done r) := path_ask_done

variable {cutoff : ℤ} {fuel : ℕ} {token : Option JsString} {n : ℕ} {h : List PhotoExchange}
  {m : List (JsString × ℕ)}

/-- The exchange that lists a page. -/
def listExchange (x : Option JsString × Page) : PhotoExchange := ⟨.listObjects x.1, some x.2⟩

/-- The exchange that deletes a batch. -/
def deleteExchange (x : List JsString × DeleteReport) : PhotoExchange :=
  ⟨.deleteObjects x.1, some x.2⟩

theorem collect_append {xs ys : List ListedObject} :
    collect cutoff (collect cutoff m xs) ys = collect cutoff m (xs ++ ys) := by
  simp [collect]

/-- The loop over the pages ends with a complete listing, all of which it has collected. -/
theorem path_listStaged {r : ℕ × List (JsString × ℕ)}
    (hp : Path (listStaged cutoff fuel token n m) h (done (some (some r)))) :
    ∃ xs, Complete token xs ∧ h = xs.map listExchange ∧
      r = (n + (xs.flatMap (·.2.contents)).length,
        collect cutoff m (xs.flatMap (·.2.contents))) := by
  induction fuel generalizing token n m h with
  | zero => cases (path_done.1 hp).2
  | succ fuel ih =>
    obtain ⟨a, h', rfl, hk⟩ := path_ask_done.1 hp
    cases a with
    | none => cases (path_done.1 hk).2
    | some page =>
      change Path (match page.next with
        | none => done (some (some (n + page.contents.length, collect cutoff m page.contents)))
        | some next => listStaged cutoff fuel (some next) (n + page.contents.length)
            (collect cutoff m page.contents)) h' _ at hk
      cases hnext : page.next with
      | none =>
        rw [hnext] at hk
        obtain ⟨rfl, hr⟩ := path_done.1 hk
        cases hr
        exact ⟨[(token, page)], ⟨rfl, by rw [hnext]⟩, rfl, by simp⟩
      | some next =>
        rw [hnext] at hk
        obtain ⟨xs, hxs, rfl, rfl⟩ := ih hk
        refine ⟨(token, page) :: xs, ⟨rfl, by rw [hnext]; exact hxs⟩, rfl, ?_⟩
        rw [collect_append, List.flatMap_cons, List.length_append, Nat.add_assoc]

/-- A loop that runs out of fuel has listed as many pages as it had fuel, each of which names a
next one. -/
theorem path_listStaged_none (hp : Path (listStaged cutoff fuel token n m) h (done none)) :
    (listings h).length = fuel ∧ ∀ x ∈ listings h, x.2.next ≠ none := by
  induction fuel generalizing token n m h with
  | zero =>
    obtain ⟨rfl, -⟩ := path_done.1 hp
    exact ⟨rfl, fun _ hx ↦ (List.not_mem_nil hx).elim⟩
  | succ fuel ih =>
    obtain ⟨a, h', rfl, hk⟩ := path_ask_done.1 hp
    cases a with
    | none => cases (path_done.1 hk).2
    | some page =>
      change Path (match page.next with
        | none => done (some (some (n + page.contents.length, collect cutoff m page.contents)))
        | some next => listStaged cutoff fuel (some next) (n + page.contents.length)
            (collect cutoff m page.contents)) h' _ at hk
      cases hnext : page.next with
      | none =>
        rw [hnext] at hk
        cases (path_done.1 hk).2
      | some next =>
        rw [hnext] at hk
        obtain ⟨hlen, hall⟩ := ih hk
        refine ⟨congrArg (· + 1) hlen, fun x hx ↦ ?_⟩
        rcases List.mem_cons.1 hx with rfl | hx
        · rw [hnext]
          exact nofun
        · exact hall x hx

/-- The loop over the batches submits each of them once, and counts what is reported. -/
theorem path_deleteBatches {eligible : List (JsString × ℕ)} {batches : List (List JsString)}
    {counts r : ℕ × ℕ} (hp : Path (deleteBatches eligible batches counts) h (done (some r))) :
    ∃ xs : List (List JsString × DeleteReport), xs.map (·.1) = batches ∧
      h = xs.map deleteExchange ∧
      r = (xs.flatMap (·.2.deleted)).foldl (countDeleted eligible) counts := by
  induction batches generalizing counts h with
  | nil =>
    obtain ⟨rfl, hr⟩ := path_done.1 hp
    cases hr
    exact ⟨[], rfl, rfl, rfl⟩
  | cons batch batches ih =>
    obtain ⟨a, h', rfl, hk⟩ := path_ask_done.1 hp
    cases a with
    | none => cases (path_done.1 hk).2
    | some report =>
      obtain ⟨xs, rfl, rfl, rfl⟩ := ih hk
      exact ⟨(batch, report) :: xs, rfl, rfl, by simp [List.foldl_append]⟩

/-- The map holds the entries of the eligible objects. -/
theorem collect_eq {objects : List ListedObject} :
    collect cutoff m objects = mapSetAll m (objects.filterMap (eligibleEntry cutoff)) := by
  rw [collect, mapSetAll, List.foldl_filterMap]
  congr 1
  funext m object
  cases eligibleEntry cutoff object <;> rfl

theorem foldl_countDeleted {eligible : List (JsString × ℕ)} {keys : List (Option JsString)}
    {counts : ℕ × ℕ} :
    keys.foldl (countDeleted eligible) counts =
      (counts.1 + (keys.filterMap (·.filter (· ≠ []))).length,
        counts.2 + ((keys.filterMap (·.filter (· ≠ []))).map
          fun key ↦ (eligible.lookup key).getD 0).sum) := by
  induction keys generalizing counts with
  | nil => rfl
  | cons key keys ih =>
    rw [List.foldl_cons, ih]
    cases key with
    | none => rfl
    | some key =>
      by_cases hkey : key = []
      · simp [countDeleted, hkey]
      · simp [countDeleted, hkey, Option.filter_some, Nat.add_assoc, Nat.add_comm 1]

/-! ### What a sweep has done -/

/-- A listed object makes the key eligible: it is older than the age limit. -/
def Eligible (cutoff : ℤ) (h : List PhotoExchange) (key : JsString) : Prop :=
  ∃ object ∈ listed h, object.key = some key ∧ key ≠ [] ∧
    ∃ lastModified, object.lastModified = some lastModified ∧ lastModified < cutoff

/-- The size of an eligible key, as it was listed last. -/
def listedSize (cutoff : ℤ) (h : List PhotoExchange) (key : JsString) : ℕ :=
  ((((listed h).filterMap (eligibleEntry cutoff)).reverse.lookup key).getD 0)

/-- What a sweep that has returned `r` has done. -/
structure Swept (options : SweepOptions) (now : ℤ) (h : List PhotoExchange)
    (r : StagedPhotoSweepResult) : Prop where
  dryRun : r.dryRun = options.dryRun.getD false
  complete : Complete none (listings h)
  scannedCount : r.scannedCount = (listed h).length
  nodup : (submitted h).Nodup
  mem_submitted : ∀ key, key ∈ submitted h ↔
    r.dryRun = false ∧ Eligible (now - options.olderThanMs.getD stagedPhotoMinAgeMs) h key
  batch : ∀ keys report, ⟨.deleteObjects keys, report⟩ ∈ h → keys.length ≤ deleteBatchLimit
  deletedCount : r.deletedCount = (reported h).length
  freedBytes : r.dryRun = false → r.freedBytes =
    ((reported h).map (listedSize (now - options.olderThanMs.getD stagedPhotoMinAgeMs) h)).sum

theorem eligibleEntry_eq_some {object : ListedObject} {key : JsString} {size : ℕ} :
    eligibleEntry cutoff object = some (key, size) ↔ object.key = some key ∧ key ≠ [] ∧
      (∃ lastModified, object.lastModified = some lastModified ∧ lastModified < cutoff) ∧
      object.size.getD 0 = size := by
  obtain ⟨key', lastModified, size'⟩ := object
  unfold eligibleEntry
  split
  · next k l hk hl =>
    obtain rfl : key' = some k := hk
    obtain rfl : lastModified = some l := hl
    split
    · next h =>
      simp only [reduceCtorEq, Option.some.injEq, exists_eq_left', false_iff]
      rintro ⟨rfl, hne, hlt, -⟩
      rcases h with h | h
      · exact hne h
      · exact absurd hlt (not_lt.2 h)
    · next h =>
      obtain ⟨hne, hlt⟩ := not_or.1 h
      simp only [Option.some.injEq, Prod.mk.injEq, exists_eq_left']
      constructor
      · rintro ⟨rfl, hsize⟩
        exact ⟨rfl, hne, not_le.1 hlt, hsize⟩
      · rintro ⟨rfl, -, -, hsize⟩
        exact ⟨rfl, hsize⟩
  · next hno =>
    simp only [reduceCtorEq, false_iff]
    rintro ⟨hk, -, ⟨l, hl, -⟩, -⟩
    exact hno key l hk hl

theorem mem_eligible {key : JsString} :
    key ∈ ((listed h).filterMap (eligibleEntry cutoff)).map (·.1) ↔ Eligible cutoff h key := by
  simp only [List.mem_map, List.mem_filterMap, Prod.exists, exists_and_right, exists_eq_right]
  constructor
  · rintro ⟨size, object, hmem, hentry⟩
    obtain ⟨hkey, hne, hold, -⟩ := eligibleEntry_eq_some.1 hentry
    exact ⟨object, hmem, hkey, hne, hold⟩
  · rintro ⟨object, hmem, hkey, hne, hold⟩
    exact ⟨_, object, hmem, eligibleEntry_eq_some.2 ⟨hkey, hne, hold, rfl⟩⟩

/-! The exchanges of a sweep are those of the two loops. -/

variable {now : ℤ} {xs : List (Option JsString × Page)} {ys : List (List JsString × DeleteReport)}

theorem listings_sweep :
    listings (⟨.now, now⟩ :: (xs.map listExchange ++ ys.map deleteExchange)) = xs := by
  have hxs : listings (xs.map listExchange) = xs := by
    induction xs with
    | nil => rfl
    | cons x xs ih => exact congrArg (x :: ·) ih
  have hys : listings (ys.map deleteExchange) = [] := by
    induction ys with
    | nil => rfl
    | cons y ys ih => exact ih
  change listings (xs.map listExchange ++ ys.map deleteExchange) = xs
  rw [listings, List.flatMap_append, ← listings, ← listings, hxs, hys, List.append_nil]

theorem submitted_sweep :
    submitted (⟨.now, now⟩ :: (xs.map listExchange ++ ys.map deleteExchange)) =
      (ys.map (·.1)).flatten := by
  have hxs : submitted (xs.map listExchange) = [] := by
    induction xs with
    | nil => rfl
    | cons x xs ih => exact ih
  have hys : submitted (ys.map deleteExchange) = (ys.map (·.1)).flatten := by
    induction ys with
    | nil => rfl
    | cons y ys ih => exact congrArg (y.1 ++ ·) ih
  change submitted (xs.map listExchange ++ ys.map deleteExchange) = _
  rw [submitted, List.flatMap_append, ← submitted, ← submitted, hxs, hys, List.nil_append]

theorem reported_sweep :
    reported (⟨.now, now⟩ :: (xs.map listExchange ++ ys.map deleteExchange)) =
      (ys.flatMap (·.2.deleted)).filterMap (·.filter (· ≠ [])) := by
  have hxs : reported (xs.map listExchange) = [] := by
    induction xs with
    | nil => rfl
    | cons x xs ih => exact ih
  have hys : reported (ys.map deleteExchange) =
      (ys.flatMap (·.2.deleted)).filterMap (·.filter (· ≠ [])) := by
    induction ys with
    | nil => rfl
    | cons y ys ih =>
      rw [List.flatMap_cons, List.filterMap_append, ← ih]
      rfl
  change reported (xs.map listExchange ++ ys.map deleteExchange) = _
  rw [reported, List.flatMap_append, ← reported, ← reported, hxs, hys, List.nil_append]

/-- What follows the listing ends after the batches, or at once. -/
theorem path_sweepEligible {dryRun : Bool} {eligible : List (JsString × ℕ)}
    {r : StagedPhotoSweepResult}
    (hp : Path (sweepEligible dryRun n eligible) h (done (some (.ok r)))) :
    ∃ ys : List (List JsString × DeleteReport), h = ys.map deleteExchange ∧
      ys.map (·.1) = (if dryRun then [] else slices deleteBatchLimit (eligible.map (·.1))) ∧
      r.scannedCount = n ∧ r.dryRun = dryRun ∧ (dryRun = true → r.deletedCount = 0) ∧
      (dryRun = false → (r.deletedCount, r.freedBytes) =
        (ys.flatMap (·.2.deleted)).foldl (countDeleted eligible) (0, 0)) := by
  unfold sweepEligible at hp
  split at hp
  · next hdry =>
    obtain ⟨rfl, hr⟩ := path_done.1 hp
    cases hr
    exact ⟨[], rfl, by simp [hdry], rfl, rfl, fun _ ↦ rfl, fun hnot ↦ by simp [hdry] at hnot⟩
  · next hdry =>
    obtain ⟨h₁, h₂, b, rfl, hloop, hend⟩ := path_bind_done.1 hp
    cases b with
    | none => cases (path_done.1 hend).2
    | some counts =>
      obtain ⟨rfl, hr⟩ := path_done.1 hend
      cases hr
      obtain ⟨ys, hys, rfl, rfl⟩ := path_deleteBatches hloop
      exact ⟨ys, List.append_nil _, by simp [hdry, hys], rfl, rfl, fun h ↦ absurd h hdry,
        fun _ ↦ rfl⟩

theorem not_path_sweepEligible_none {dryRun : Bool} {eligible : List (JsString × ℕ)} :
    ¬ Path (sweepEligible dryRun n eligible) h (done none) := by
  intro hp
  unfold sweepEligible at hp
  split at hp
  · cases (path_done.1 hp).2
  · obtain ⟨h₁, h₂, b, rfl, -, hend⟩ := path_bind_done.1 hp
    cases b <;> cases (path_done.1 hend).2

/-- A sweep that returns has listed the folder to its end, has submitted every eligible key once,
and its counters are those of what was listed and of what was reported as deleted. -/
theorem sweep_counts {options : SweepOptions} {r : StagedPhotoSweepResult}
    (hp : Path (sweepStagedPhotos options fuel) h (done (some (.ok r)))) :
    ∃ now, h.head? = some ⟨.now, now⟩ ∧ Swept options now h r := by
  obtain ⟨now, h', rfl, hk⟩ := path_send_done.1 hp
  refine ⟨now, rfl, ?_⟩
  -- The listing first, and then the batches of what is eligible.
  obtain ⟨h₁, h₂, b, rfl, hlist, hrest⟩ := path_bind_done.1 hk
  rcases b with _ | _ | ⟨scannedCount, eligible⟩
  · cases (path_done.1 hrest).2
  · cases (path_done.1 hrest).2
  · obtain ⟨xs, hcomplete, rfl, he⟩ := path_listStaged hlist
    obtain ⟨ys, rfl, hbatches, hscanned, hdry, hdeleted, hcounts⟩ := path_sweepEligible hrest
    obtain ⟨hn, hm⟩ := Prod.mk.inj he
    have hlisted : listed (⟨.now, now⟩ :: (xs.map listExchange ++ ys.map deleteExchange)) =
        xs.flatMap (·.2.contents) := by rw [listed, listings_sweep]
    have hkeys : eligible = mapSetAll [] ((xs.flatMap (·.2.contents)).filterMap
        (eligibleEntry (now - options.olderThanMs.getD stagedPhotoMinAgeMs))) := by
      rw [hm, collect_eq]
    have hsub : submitted (⟨.now, now⟩ :: (xs.map listExchange ++ ys.map deleteExchange)) =
        if options.dryRun.getD false then [] else eligible.map (·.1) := by
      rw [submitted_sweep, hbatches]
      split
      · rfl
      · exact flatten_slices (by decide)
    have hmem (key : JsString) : key ∈ eligible.map (·.1) ↔ Eligible
        (now - options.olderThanMs.getD stagedPhotoMinAgeMs)
        (⟨.now, now⟩ :: (xs.map listExchange ++ ys.map deleteExchange)) key := by
      rw [← mem_eligible, hlisted, hkeys, mem_keys_mapSetAll]
      simp
    -- Completeness and the counts, each read off the exchanges.
    refine ⟨hdry, listings_sweep ▸ hcomplete, ?_, ?_, fun key ↦ ?_, ?_, ?_, fun hnot ↦ ?_⟩
    · rw [hscanned, hn, hlisted, Nat.zero_add]
    · rw [hsub]
      split
      · exact List.nodup_nil
      · exact hkeys ▸ nodup_keys_mapSetAll List.nodup_nil
    · rw [hsub, ← hmem, hdry]
      cases options.dryRun.getD false <;> simp
    · intro keys report hin
      rcases List.mem_cons.1 hin with h | h
      · cases h
      · rcases List.mem_append.1 h with h | h
        · obtain ⟨x, -, hx⟩ := List.mem_map.1 h
          cases hx
        · obtain ⟨y, hy, hye⟩ := List.mem_map.1 h
          cases hye
          have hbatch : y.1 ∈ ys.map (·.1) := List.mem_map_of_mem hy
          rw [hbatches] at hbatch
          split at hbatch
          · cases hbatch
          · exact length_le_of_mem_slices hbatch
    · rw [reported_sweep]
      cases hdr : options.dryRun.getD false with
      | true =>
        rw [hdr, if_pos rfl, List.map_eq_nil_iff] at hbatches
        rw [hdeleted hdr, hbatches]
        rfl
      | false =>
        have hcount := hcounts hdr
        rw [foldl_countDeleted] at hcount
        rw [(Prod.mk.inj hcount).1, Nat.zero_add]
    · have hcount := hcounts (hdry ▸ hnot)
      rw [foldl_countDeleted] at hcount
      rw [(Prod.mk.inj hcount).2, reported_sweep, Nat.zero_add]
      refine congrArg List.sum (List.map_congr_left fun key _ ↦ ?_)
      rw [listedSize, hlisted, hkeys, lookup_mapSetAll, List.lookup_nil, Option.or_none]

/-- A sweep that runs out of fuel has listed as many pages as it had fuel, and the listing has gone
on after each of them. -/
theorem sweep_ends {options : SweepOptions}
    (hp : Path (sweepStagedPhotos options fuel) h (done none)) :
    (listings h).length = fuel ∧ ∀ x ∈ listings h, x.2.next ≠ none := by
  obtain ⟨now, h', rfl, hk⟩ := path_send_done.1 hp
  obtain ⟨h₁, h₂, b, rfl, hlist, hrest⟩ := path_bind_done.1 hk
  rcases b with _ | _ | ⟨scannedCount, eligible⟩
  · obtain ⟨rfl, -⟩ := path_done.1 hrest
    have hnow : listings (⟨.now, now⟩ :: (h₁ ++ [])) = listings h₁ := by
      rw [List.append_nil]
      rfl
    exact hnow ▸ path_listStaged_none hlist
  · cases (path_done.1 hrest).2
  · exact absurd hrest not_path_sweepEligible_none

end EasyBook.Storage

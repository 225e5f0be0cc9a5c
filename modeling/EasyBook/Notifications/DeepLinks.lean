import EasyBook.Ecma.Uri
import EasyBook.Notifications.Model

/-!
# Deep links

The `actionUrl` of a notification is a path of the back office. `assertNoDangerousSegments` decodes
each segment of it until no percent sign is left, and refuses what is dangerous on the way, so
however often the path is decoded before its dot segments are removed, it stays under `/backend/`
(`actionUrl_stays`).
-/

namespace EasyBook.Notifications

open JsString

/-! ### The check -/

/-- `NOTIFICATION_ACTION_URL_MAX`. -/
def notificationActionUrlMax : ℕ := 512

/-- `NOTIFICATION_ACTION_LABEL_MAX`. -/
def notificationActionLabelMax : ℕ := 60

/-- `NOTIFICATION_ACTION_URL_PREFIX`. -/
def notificationActionUrlPrefix : JsString := lit "/backend/"

/-- `ACTION_URL_SEGMENT`. -/
def actionUrlSegment : String :=
  "actionUrl must not contain dot segments, encoded separators or malformed escapes"

/-- `URL_FORBIDDEN_CHARS`. -/
def urlForbidden (u : ℕ) : Bool := isWhiteSpace u || decide (u ≤ 0x1F) || decide (u = 0x7F)

/-- A dot segment, or one with a separator. -/
def Dangerous (s : JsString) : Prop := s = [46] ∨ s = [46, 46] ∨ 47 ∈ s ∨ 92 ∈ s

instance (s : JsString) : Decidable (Dangerous s) := inferInstanceAs (Decidable (_ ∨ _))

/-- The inner loop of `assertNoDangerousSegments`, from a pass on: whether the segment is accepted,
and the number of rounds. -/
def segmentLoop : ℕ → ℕ → JsString → Option (Bool × ℕ)
  | 0, _, _ => none
  | fuel + 1, pass, s =>
    if Dangerous s then some (false, pass + 1)
    else if 37 ∉ s then some (true, pass + 1)
    else if pass = 3 then some (false, pass + 1)
    else match decodeURIComponent s with
      | none => some (false, pass + 1)
      | some s => segmentLoop fuel (pass + 1) s

/-- The outer loop of `assertNoDangerousSegments`. -/
def checkSegments (fuel : ℕ) : List JsString → Option Bool
  | [] => some true
  | seg :: segs =>
    if seg = [] then checkSegments fuel segs
    else match segmentLoop fuel 0 seg with
      | none => none
      | some (false, _) => some false
      | some (true, _) => checkSegments fuel segs

/-- `rawUrl.split(/[?#]/, 1)[0]`. -/
def urlPath (rawUrl : JsString) : JsString :=
  rawUrl.takeWhile fun u ↦ decide (u ≠ 63) && decide (u ≠ 35)

/-- `path.split('/')`. -/
def urlSegments (path : JsString) : List JsString := path.splitOn 47

/-- `assertNoDangerousSegments`; whether it returns. -/
def assertNoDangerousSegments (fuel : ℕ) (rawUrl : JsString) : Option Bool :=
  checkSegments fuel (urlSegments (urlPath rawUrl))

/-- The link in `normaliseCreateInput`. -/
def normaliseLink (fuel : ℕ) (C : NotificationConfig) :
    Option JsString → Option JsString →
      Option (Except NotificationError (Option JsString × Option JsString))
  | none, none => some (.ok (none, none))
  | some rawUrl, some rawLabel =>
    if notificationActionUrlMax < rawUrl.length ∨ ¬ notificationActionUrlPrefix <+: rawUrl ∨
        [47, 47] <:+: rawUrl ∨ 92 ∈ rawUrl ∨ rawUrl.any urlForbidden then
      some (.error (.invalid "actionUrl must be a portal-relative path starting with /backend/"))
    else (assertNoDangerousSegments fuel rawUrl).map fun
      | false => .error (.invalid actionUrlSegment)
      | true => (sanitizedText C "actionLabel" rawLabel notificationActionLabelMax).map fun label ↦
          (some rawUrl, some label)
  | none, some _ | some _, none =>
    some (.error (.invalid "actionUrl and actionLabel must both be set or both be null"))

/-- `CreateAdminNotificationInput` with its link. -/
structure LinkedInput extends CreateAdminNotificationInput where
  actionUrl : Option JsString
  actionLabel : Option JsString

/-- What a row with a link is created from. -/
structure LinkedData extends NotificationData where
  actionUrl : Option JsString
  actionLabel : Option JsString

/-- `normaliseCreateInput` with its link. -/
def normaliseLinkedInput (fuel : ℕ) (C : NotificationConfig) (input : LinkedInput) :
    Option (Except NotificationError LinkedData) :=
  match normaliseCreateInput C input.toCreateAdminNotificationInput with
  | .error e => some (.error e)
  | .ok data => (normaliseLink fuel C input.actionUrl input.actionLabel).map fun link ↦
      link.map fun link ↦ { data with actionUrl := link.1, actionLabel := link.2 }

/-! ### Resolving a path -/

/-- Removes the dot segments of a path; a path that ends in one ends in a slash. -/
def removeDotSegments : List JsString → List JsString → List JsString
  | out, [] => out
  | out, s :: rest =>
    if s = [46] then removeDotSegments (if rest = [] then out ++ [[]] else out) rest
    else if s = [46, 46] then
      removeDotSegments (if rest = [] then out.dropLast ++ [[]] else out.dropLast) rest
    else removeDotSegments (out ++ [s]) rest

/-- A path without its dot segments. -/
def resolve (path : JsString) : JsString :=
  [47].intercalate (removeDotSegments [] (urlSegments path))

/-- The text after `k` decodings. -/
def decodeTimes : ℕ → JsString → Option JsString
  | 0, s => some s
  | k + 1, s => (decodeURIComponent s).bind (decodeTimes k)

/-! ### The loop over a segment -/

variable {s seg : JsString} {segs : List JsString} {fuel pass n k : ℕ}

/-- Without a percent sign every decoding is the text itself. -/
theorem decodeTimes_of_not_mem (h : 37 ∉ s) (k : ℕ) : decodeTimes k s = some s := by
  induction k with
  | zero => rfl
  | succ k ih => rw [decodeTimes, decodeURIComponent_of_not_mem h, Option.bind_some, ih]

/-- However often an accepted segment is decoded, it is not dangerous. -/
theorem decodeTimes_of_accepted (h : segmentLoop fuel pass s = some (true, n)) (k : ℕ) :
    ∃ s', decodeTimes k s = some s' ∧ ¬ Dangerous s' := by
  induction fuel generalizing pass s k with
  | zero => exact nomatch h
  | succ fuel ih =>
    unfold segmentLoop at h
    by_cases hdangerous : Dangerous s
    · rw [if_pos hdangerous] at h
      exact nomatch h
    · rw [if_neg hdangerous] at h
      by_cases hpercent : 37 ∉ s
      · exact ⟨s, decodeTimes_of_not_mem hpercent k, hdangerous⟩
      · rw [if_neg hpercent] at h
        by_cases hlast : pass = 3
        · rw [if_pos hlast] at h
          exact nomatch h
        · rw [if_neg hlast] at h
          cases hdecode : decodeURIComponent s with
          | none =>
            rw [hdecode] at h
            exact nomatch h
          | some t =>
            rw [hdecode] at h
            cases k with
            | zero => exact ⟨s, rfl, hdangerous⟩
            | succ k =>
              obtain ⟨s', hs', hsafe⟩ := ih h k
              exact ⟨s', by rw [decodeTimes, hdecode, Option.bind_some, hs'], hsafe⟩

/-- With some fuel left the loop has ended, after four rounds at most. -/
def EndsIn (pass left : ℕ) (s : JsString) : Prop :=
  ∃ accepted rounds, rounds ≤ 4 ∧
    ∀ fuel, left + 1 ≤ fuel → segmentLoop fuel pass s = some (accepted, rounds)

/-- A round that decides. -/
private theorem endsIn_of_round {left : ℕ} (hpass : pass + left = 3) {accepted : Bool}
    (h : ∀ fuel, segmentLoop (fuel + 1) pass s = some (accepted, pass + 1)) :
    EndsIn pass left s := by
  refine ⟨accepted, pass + 1, by omega, fun fuel hfuel ↦ ?_⟩
  obtain ⟨fuel, rfl⟩ := Nat.exists_eq_add_of_le' ((Nat.le_add_left 1 left).trans hfuel)
  exact h fuel

/-- The passes are counted up to three, so the loop ends. -/
theorem endsIn_segmentLoop {left : ℕ} (hpass : pass + left = 3) (s : JsString) :
    EndsIn pass left s := by
  induction left generalizing pass s with
  | zero =>
    by_cases hdangerous : Dangerous s
    · exact endsIn_of_round hpass fun fuel ↦ if_pos hdangerous
    · by_cases hpercent : 37 ∉ s
      · exact endsIn_of_round hpass fun fuel ↦ (if_neg hdangerous).trans (if_pos hpercent)
      · exact endsIn_of_round hpass fun fuel ↦
          (if_neg hdangerous).trans ((if_neg hpercent).trans (if_pos hpass))
  | succ left ih =>
    by_cases hdangerous : Dangerous s
    · exact endsIn_of_round hpass fun fuel ↦ if_pos hdangerous
    · by_cases hpercent : 37 ∉ s
      · exact endsIn_of_round hpass fun fuel ↦ (if_neg hdangerous).trans (if_pos hpercent)
      · have hpass' : pass ≠ 3 := by omega
        have hround (fuel : ℕ) : segmentLoop (fuel + 1) pass s =
            match decodeURIComponent s with
              | none => some (false, pass + 1)
              | some s => segmentLoop fuel (pass + 1) s :=
          (if_neg hdangerous).trans ((if_neg hpercent).trans (if_neg hpass'))
        cases hdecode : decodeURIComponent s with
        | none => exact endsIn_of_round hpass fun fuel ↦ by rw [hround, hdecode]
        | some t =>
          obtain ⟨accepted, rounds, hrounds, hends⟩ := @ih (pass + 1) (by omega) t
          refine ⟨accepted, rounds, hrounds, fun fuel hfuel ↦ ?_⟩
          obtain ⟨fuel, rfl⟩ := Nat.exists_eq_add_of_le' ((Nat.le_add_left 1 _).trans hfuel)
          rw [hround, hdecode]
          exact hends fuel (Nat.le_of_succ_le_succ hfuel)

theorem checkSegments_ne_none (hfuel : 4 ≤ fuel) (segs : List JsString) :
    checkSegments fuel segs ≠ none := by
  induction segs with
  | nil => exact Option.some_ne_none true
  | cons seg segs ih =>
    unfold checkSegments
    split_ifs
    · exact ih
    · obtain ⟨accepted, rounds, -, hends⟩ := endsIn_segmentLoop (show 0 + 3 = 3 from rfl) seg
      rw [hends fuel hfuel]
      cases accepted with
      | true => exact ih
      | false => exact Option.some_ne_none false

/-! ### Paths -/

theorem accepted_of_checkSegments (h : checkSegments fuel segs = some true) :
    ∀ seg ∈ segs, seg = [] ∨ ∃ n, segmentLoop fuel 0 seg = some (true, n) := by
  induction segs with
  | nil => exact fun seg hseg ↦ (nomatch hseg)
  | cons seg segs ih =>
    unfold checkSegments at h
    by_cases hempty : seg = []
    · rw [if_pos hempty] at h
      exact List.forall_mem_cons.2 ⟨.inl hempty, ih h⟩
    · rw [if_neg hempty] at h
      cases hloop : segmentLoop fuel 0 seg with
      | none =>
        rw [hloop] at h
        exact nomatch h
      | some r =>
        obtain ⟨accepted, n⟩ := r
        cases accepted with
        | false =>
          rw [hloop] at h
          exact nomatch h
        | true =>
          rw [hloop] at h
          exact List.forall_mem_cons.2 ⟨.inr ⟨n, hloop⟩, ih h⟩

/-- A segment after `k` decodings. -/
def decoded (k : ℕ) (seg : JsString) : JsString := (decodeTimes k seg).getD []

theorem decodeTimes_eq (h : ∃ s', decodeTimes k seg = some s' ∧ ¬ Dangerous s') :
    decodeTimes k seg = some (decoded k seg) ∧ ¬ Dangerous (decoded k seg) := by
  obtain ⟨s', hs', hsafe⟩ := h
  rw [decoded, hs', Option.getD_some]
  exact ⟨rfl, hsafe⟩

/-- A path is decoded segment by segment. -/
theorem decodeURIComponent_intercalate (hne : segs ≠ [])
    (h : ∀ seg ∈ segs, decodeURIComponent seg = some (decoded 1 seg)) :
    decodeURIComponent ([47].intercalate segs) =
      some ([47].intercalate (segs.map (decoded 1))) := by
  induction segs with
  | nil => exact absurd rfl hne
  | cons seg segs ih =>
    obtain ⟨hseg, hsegs⟩ := List.forall_mem_cons.1 h
    cases segs with
    | nil => simpa using hseg
    | cons seg' segs =>
      have hseparator : Separator 47 := ⟨by decide, rfl⟩
      rw [List.intercalate_cons_cons, List.append_assoc, List.singleton_append,
        decodeURIComponent_append_cons hseparator, hseg, ih (List.cons_ne_nil _ _) hsegs]
      rfl

/-- And so it is decoded again and again, while no separator comes out of a segment. -/
theorem decodeTimes_intercalate (hne : segs ≠ [])
    (h : ∀ seg ∈ segs, ∀ k, decodeTimes k seg = some (decoded k seg)) (k : ℕ) :
    decodeTimes k ([47].intercalate segs) = some ([47].intercalate (segs.map (decoded k))) := by
  induction k generalizing segs with
  | zero =>
    have hzero : segs.map (decoded 0) = segs := by
      rw [show decoded 0 = id from rfl, List.map_id]
    rw [decodeTimes, hzero]
  | succ k ih =>
    have hone (seg : JsString) : decodeTimes 1 seg = decodeURIComponent seg := by
      rw [decodeTimes]
      cases decodeURIComponent seg <;> rfl
    have hfirst : ∀ seg ∈ segs, decodeURIComponent seg = some (decoded 1 seg) :=
      fun seg hseg ↦ (hone seg).symm.trans (h seg hseg 1)
    have hstep : ∀ seg ∈ segs, ∀ k, decodeTimes (k + 1) seg = decodeTimes k (decoded 1 seg) :=
      fun seg hseg k ↦ by rw [decodeTimes, hfirst seg hseg, Option.bind_some]
    have hlater (seg : JsString) (hseg : seg ∈ segs) (k : ℕ) :
        decoded k (decoded 1 seg) = decoded (k + 1) seg := by
      rw [decoded, ← hstep seg hseg, decoded]
    rw [decodeTimes, decodeURIComponent_intercalate hne hfirst, Option.bind_some,
      ih (by simpa using hne) fun seg' hseg' k ↦ ?_, List.map_map]
    · congr 2
      exact List.map_congr_left fun seg hseg ↦ hlater seg hseg k
    · obtain ⟨seg, hseg, rfl⟩ := List.mem_map.1 hseg'
      rw [← hstep seg hseg, h seg hseg, hlater seg hseg]

theorem removeDotSegments_eq {out : List JsString} (h : ∀ seg ∈ segs, ¬ Dangerous seg) :
    removeDotSegments out segs = out ++ segs := by
  induction segs generalizing out with
  | nil => exact (List.append_nil out).symm
  | cons seg segs ih =>
    obtain ⟨hseg, hsegs⟩ := List.forall_mem_cons.1 h
    rw [removeDotSegments, if_neg fun h ↦ hseg (.inl h), if_neg fun h ↦ hseg (.inr (.inl h)),
      ih hsegs, List.append_assoc]
    rfl

/-- A path without dangerous segments resolves to itself. -/
theorem resolve_intercalate (hne : segs ≠ []) (h : ∀ seg ∈ segs, ¬ Dangerous seg) :
    urlSegments ([47].intercalate segs) = segs ∧
      resolve ([47].intercalate segs) = [47].intercalate segs := by
  have hsplit : urlSegments ([47].intercalate segs) = segs :=
    List.splitOn_intercalate 47 (fun seg hseg hslash ↦ h seg hseg (.inr (.inr (.inl hslash)))) hne
  refine ⟨hsplit, ?_⟩
  rw [resolve, hsplit, removeDotSegments_eq h, List.nil_append]

/-! ### Accepted links -/

variable {C : NotificationConfig} {url : JsString}

theorem normaliseLink_eq {rawUrl rawLabel : Option JsString}
    {link : Option JsString × Option JsString}
    (h : normaliseLink fuel C rawUrl rawLabel = some (.ok link)) (hurl : link.1 = some url) :
    notificationActionUrlPrefix <+: url ∧ assertNoDangerousSegments fuel url = some true := by
  match rawUrl, rawLabel with
  | none, none =>
    obtain rfl := Except.ok.inj (Option.some.inj h)
    exact nomatch hurl
  | none, some _ | some _, none => exact nomatch Option.some.inj h
  | some rawUrl, some rawLabel =>
    unfold normaliseLink at h
    dsimp only at h
    split_ifs at h with hrefused
    · exact nomatch Option.some.inj h
    · obtain ⟨safe, hsafe, hlink⟩ := Option.map_eq_some_iff.1 h
      cases safe with
      | false => exact nomatch hlink
      | true =>
        cases hlabel : sanitizedText C "actionLabel" rawLabel notificationActionLabelMax with
        | error e =>
          simp only [hlabel] at hlink
          exact nomatch hlink
        | ok label =>
          simp only [hlabel] at hlink
          obtain rfl := Except.ok.inj hlink
          obtain rfl := Option.some.inj hurl
          exact ⟨not_not.1 fun hstart ↦ hrefused (.inr (.inl hstart)), hsafe⟩

theorem normaliseLinkedInput_eq {input : LinkedInput} {data : LinkedData}
    (h : normaliseLinkedInput fuel C input = some (.ok data)) (hurl : data.actionUrl = some url) :
    notificationActionUrlPrefix <+: url ∧ assertNoDangerousSegments fuel url = some true := by
  unfold normaliseLinkedInput at h
  cases hdata : normaliseCreateInput C input.toCreateAdminNotificationInput with
  | error e =>
    rw [hdata] at h
    exact nomatch Option.some.inj h
  | ok d =>
    rw [hdata] at h
    obtain ⟨link, hlink, hdata⟩ := Option.map_eq_some_iff.1 h
    cases link with
    | error e => exact nomatch hdata
    | ok link =>
      obtain rfl := Except.ok.inj hdata
      exact normaliseLink_eq hlink hurl

theorem normaliseLinkedInput_ne_none (hfuel : 4 ≤ fuel) (input : LinkedInput) :
    normaliseLinkedInput fuel C input ≠ none := by
  have hlink (rawUrl rawLabel : Option JsString) :
      normaliseLink fuel C rawUrl rawLabel ≠ none := by
    match rawUrl, rawLabel with
    | none, none | none, some _ | some _, none => exact Option.some_ne_none _
    | some rawUrl, some rawLabel =>
      unfold normaliseLink
      dsimp only
      split_ifs
      · exact Option.some_ne_none _
      · exact fun h ↦ checkSegments_ne_none hfuel _ (Option.map_eq_none_iff.1 h)
  unfold normaliseLinkedInput
  cases normaliseCreateInput C input.toCreateAdminNotificationInput with
  | error e => exact Option.some_ne_none _
  | ok d => exact fun h ↦ hlink _ _ (Option.map_eq_none_iff.1 h)

/-- The path of an accepted link starts with two segments that no decoding changes. -/
theorem urlSegments_of_prefix (h : notificationActionUrlPrefix <+: url) :
    ∃ segs, segs ≠ [] ∧ urlSegments (urlPath url) = [] :: lit "backend" :: segs := by
  obtain ⟨rest, rfl⟩ := h
  refine ⟨urlSegments (urlPath rest), List.splitOn_ne_nil _ _, ?_⟩
  have hpath : urlPath (notificationActionUrlPrefix ++ rest) =
      [] ++ 47 :: (lit "backend" ++ 47 :: urlPath rest) := rfl
  have hbackend : 47 ∉ lit "backend" := by decide
  rw [hpath, urlSegments, List.splitOn_append_cons_self_of_not_mem List.not_mem_nil,
    List.splitOn_append_cons_self_of_not_mem hbackend]
  rfl

/-- A path that was decoded `k` times: nothing has failed, nothing dangerous has come out, and it
resolves to itself, under `/backend/`. -/
def StaysAfter (k : ℕ) (url : JsString) : Prop :=
  ∃ segs, List.Forall₂ (fun seg seg' ↦ decodeTimes k seg = some seg')
      (urlSegments (urlPath url)) segs ∧
    (∀ seg ∈ segs, seg ≠ [46] ∧ seg ≠ [46, 46] ∧ 47 ∉ seg ∧ 92 ∉ seg) ∧
    decodeTimes k (urlPath url) = some ([47].intercalate segs) ∧
    resolve ([47].intercalate segs) = [47].intercalate segs ∧
    (urlSegments (resolve ([47].intercalate segs))).length = (urlSegments (urlPath url)).length ∧
    notificationActionUrlPrefix <+: resolve ([47].intercalate segs)

theorem staysAfter_of_accepted (hstart : notificationActionUrlPrefix <+: url)
    (h : assertNoDangerousSegments fuel url = some true) (k : ℕ) : StaysAfter k url := by
  have haccepted := accepted_of_checkSegments h
  have hdecoded : ∀ seg ∈ urlSegments (urlPath url), ∀ k,
      decodeTimes k seg = some (decoded k seg) ∧ ¬ Dangerous (decoded k seg) := by
    intro seg hseg k
    refine decodeTimes_eq ?_
    rcases haccepted seg hseg with rfl | ⟨n, hn⟩
    · exact ⟨[], decodeTimes_of_not_mem List.not_mem_nil k, by decide⟩
    · exact decodeTimes_of_accepted hn k
  have hpath : [47].intercalate (urlSegments (urlPath url)) = urlPath url :=
    List.intercalate_splitOn 47
  have hne : urlSegments (urlPath url) ≠ [] := List.splitOn_ne_nil _ _
  have hne' : (urlSegments (urlPath url)).map (decoded k) ≠ [] := by simpa using hne
  have hsafe : ∀ seg ∈ (urlSegments (urlPath url)).map (decoded k), ¬ Dangerous seg := by
    intro seg' hseg'
    obtain ⟨seg, hseg, rfl⟩ := List.mem_map.1 hseg'
    exact (hdecoded seg hseg k).2
  obtain ⟨hsplit, hresolve⟩ := resolve_intercalate hne' hsafe
  refine ⟨(urlSegments (urlPath url)).map (decoded k), ?_, fun seg hseg ↦ ?_, ?_, hresolve, ?_, ?_⟩
  · rw [List.forall₂_map_right_iff]
    exact List.forall₂_same.2 fun seg hseg ↦ (hdecoded seg hseg k).1
  · have hnot := hsafe seg hseg
    unfold Dangerous at hnot
    push Not at hnot
    exact hnot
  · have hall := decodeTimes_intercalate hne (fun seg hseg k ↦ (hdecoded seg hseg k).1) k
    rwa [hpath] at hall
  · rw [hresolve, hsplit, List.length_map]
  · obtain ⟨segs, hsegs, hsegments⟩ := urlSegments_of_prefix hstart
    have hbackend : decoded k (lit "backend") = lit "backend" := by
      rw [decoded, decodeTimes_of_not_mem (by decide), Option.getD_some]
    have hempty : decoded k [] = [] := by
      rw [decoded, decodeTimes_of_not_mem List.not_mem_nil, Option.getD_some]
    obtain ⟨seg, segs, rfl⟩ := List.exists_cons_of_ne_nil hsegs
    rw [hresolve, hsegments, List.map_cons, List.map_cons, hempty, hbackend, List.map_cons]
    exact ⟨_, rfl⟩

/-- **A stored deep link cannot leave the back office.** However often its path is decoded, this
does not fail, brings out no dot segment and no separator, and the path resolves to itself, with as
many segments as it had, under `/backend/`. And the loop over a segment ends after at most four
rounds, whatever the segment. -/
theorem actionUrl_stays (C : NotificationConfig) (fuel : ℕ) (input : LinkedInput)
    (data : LinkedData) (url : JsString) (h : normaliseLinkedInput fuel C input = some (.ok data))
    (hurl : data.actionUrl = some url) (k : ℕ) :
    StaysAfter k url ∧
      (∀ s, ∃ accepted rounds, rounds ≤ 4 ∧
        ∀ fuel, 4 ≤ fuel → segmentLoop fuel 0 s = some (accepted, rounds)) ∧
      ∀ fuel input, 4 ≤ fuel → normaliseLinkedInput fuel C input ≠ none := by
  obtain ⟨hstart, haccepted⟩ := normaliseLinkedInput_eq h hurl
  exact ⟨staysAfter_of_accepted hstart haccepted k,
    fun s ↦ endsIn_segmentLoop (show 0 + 3 = 3 from rfl) s,
    fun fuel input hfuel ↦ normaliseLinkedInput_ne_none hfuel input⟩

/-- `/backend/%2541?..`, decoded twice. -/
theorem actionUrl_stays_nested :
    StaysAfter 2 [47, 98, 97, 99, 107, 101, 110, 100, 47, 37, 50, 53, 52, 49, 63, 46, 46] :=
  (actionUrl_stays ⟨id, fun _ _ ↦ true⟩ 4
    ⟨⟨.system, [65], [66], none, none⟩,
      some [47, 98, 97, 99, 107, 101, 110, 100, 47, 37, 50, 53, 52, 49, 63, 46, 46], some [67]⟩
    ⟨⟨.system, none, [65], [66], .all⟩,
      some [47, 98, 97, 99, 107, 101, 110, 100, 47, 37, 50, 53, 52, 49, 63, 46, 46], some [67]⟩
    _ rfl rfl 2).1

end EasyBook.Notifications

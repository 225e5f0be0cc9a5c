import EasyBook.Machine.World
import EasyBook.Notifications.Versions

/-!
# Announcing a new version

`VersionAnnouncer.announce`, which every instance calls when it boots: it reads the version that was
announced last, swaps it for its own, and tells the operators unless its own is older. A swap back
is silent, but it makes the next swap forward one that is announced (`announced_twice`).
-/

namespace EasyBook.Notifications

open Machine Task JsString

/-! ### Statements -/

/-- The setting `LAST_ANNOUNCED_VERSION_KEY`, and the notifications of a new version, each with the
versions it speaks of. -/
structure AnnouncerState where
  value : Option JsString
  notifications : List (JsString × JsString)
  deriving DecidableEq

/-- The statements of `announce`. -/
inductive AnnounceQuery where
  | findUnique
  /-- `createMany` with `skipDuplicates`. -/
  | createMany (current : JsString)
  /-- The conditional swap. -/
  | updateMany (previous current : JsString)
  /-- `AdminNotificationTriggers.versionChanged`, which is never rejected. -/
  | versionChanged (previous current : JsString)

/-- The answers; `none` is an error. -/
@[reducible] def AnnounceAnswer : AnnounceQuery → Type
  | .findUnique => Option (Option JsString)
  | .createMany _ => Option Unit
  | .updateMany _ _ => Option ℕ
  | .versionChanged _ _ => Unit

/-- A call of the announcer. -/
abbrev AnnounceTask : Type → Type := Task AnnounceQuery AnnounceAnswer

/-- What a statement does. One that ends with an error may have been carried out, and a
notification may get lost. -/
def announceDoes (s : AnnouncerState) :
    (q : AnnounceQuery) → AnnounceAnswer q → AnnouncerState → Prop
  | .findUnique, a, s' => s' = s ∧ ∀ value ∈ a, value = s.value
  | .createMany current, a, s' =>
    (s' = { s with value := some (s.value.getD current) }) ∨ a = none ∧ s' = s
  | .updateMany previous current, a, s' =>
    (s' = { s with value := if s.value = some previous then some current else s.value } ∧
        ∀ count ∈ a, count = if s.value = some previous then 1 else 0) ∨
      a = none ∧ s' = s
  | .versionChanged previous current, _, s' =>
    s' = s ∨ s' = { s with notifications := (previous, current) :: s.notifications }

/-! ### The call -/

/-- What follows the swap, which has to have changed the row. -/
def afterSwap (previous current : JsString) : Option ℕ → AnnounceTask Unit
  | some 1 =>
    if isDowngrade previous current then return ()
    else request (AnnounceQuery.versionChanged previous current)
  | _ => return ()

/-- The swap and the notification. -/
def swapAndNotify (previous current : JsString) : AnnounceTask Unit := do
  afterSwap previous current (← request (AnnounceQuery.updateMany previous current))

/-- An instance that boots. A command line has no HTTP adapter. -/
structure Boot where
  httpAdapter : Bool
  current : JsString

/-- What follows the read. -/
def afterRead (current : JsString) : Option (Option JsString) → AnnounceTask Unit
  | none => return ()
  | some none => do
    let _ ← request (AnnounceQuery.createMany current)
    return ()
  | some (some value) => if value = current then return () else swapAndNotify value current

/-- `announce`. An error ends it. -/
def announce (b : Boot) : AnnounceTask Unit := do
  if !b.httpAdapter then return ()
  if b.current = lit "0.0.0" then return ()
  afterRead b.current (← request AnnounceQuery.findUnique)

/-- Instances that boot. -/
def announcer : Actions AnnouncerState AnnounceQuery AnnounceAnswer Unit Boot where
  task := announce
  does := announceDoes
  env _ _ := False

/-- Their world. -/
abbrev AnnouncerWorld : Type := World AnnouncerState AnnounceQuery AnnounceAnswer Unit Boot

/-- What happens in it. -/
abbrev AnnouncerEvent : Type := Event AnnounceQuery AnnounceAnswer Boot

/-! ### A deploy -/

/-- Only instances of the old version and of the new one boot. -/
def Deploys (old new : JsString) : AnnouncerEvent → Prop
  | .start _ b => b.current = old ∨ b.current = new
  | _ => True

/-- No swap takes the setting to an older version. -/
def Forward (x : AnnouncerWorld) : AnnouncerEvent → Prop
  | .exchange _ ⟨.updateMany previous current, _⟩ =>
    x.state.value = some previous → isDowngrade previous current = false
  | _ => True

/-- What a call of the deploy may have left to do. -/
inductive Stage (old new : JsString) (b : Boot) : AnnounceTask Unit → Prop where
  | boot : Stage old new b (announce b)
  | swap {previous : JsString} (hp : previous = old ∨ previous = new) (hne : previous ≠ b.current) :
      Stage old new b (swapAndNotify previous b.current)
  | notify : Stage old new b (request (AnnounceQuery.versionChanged old new))
  | done : Stage old new b (done ())

/-- The call is about to notify. -/
def Notifies (p : AnnounceTask Unit) : Prop :=
  ∃ previous current k, p = .ask (.versionChanged previous current) k

section Step

variable {old new : JsString} {b : Boot} {s s' : AnnouncerState} {q : AnnounceQuery}
  {k : AnnounceAnswer q → AnnounceTask Unit} {a : AnnounceAnswer q}

/-- What a statement of a call can do while the setting holds one of the two versions, if it takes
it to no older one. -/
inductive Progress (old new : JsString) (b : Boot) (s s' : AnnouncerState)
    (p p' : AnnounceTask Unit) : Prop where
  /-- It changes nothing. -/
  | quiet (hs : s' = s) (hstage : Stage old new b p') (hp' : ¬ Notifies p')
  /-- It swaps the old version for the new one. -/
  | swapped (hs : s.value = some old) (hs' : s' = { s with value := some new })
      (hstage : Stage old new b p')
  /-- It notifies. -/
  | notified (hp : Notifies p) (hp' : p' = done ())
      (hs' : s' = s ∨ s' = { s with notifications := (old, new) :: s.notifications })

theorem not_notifies_done : ¬ Notifies (done ()) := by
  rintro ⟨_, _, _, h⟩
  cases h

theorem progress_swap {previous : JsString} (hnew : isDowngrade new old = true)
    (hb : b.current = old ∨ b.current = new) (hne : previous ≠ b.current)
    (hp : previous = old ∨ previous = new) {a : Option ℕ}
    (hd : announceDoes s (.updateMany previous b.current) a s')
    (hforward : s.value = some previous → isDowngrade previous b.current = false) :
    Progress old new b s s' (swapAndNotify previous b.current)
      (afterSwap previous b.current a) := by
  rcases hd with ⟨hs', hcount⟩ | ⟨rfl, rfl⟩
  · by_cases hmatch : s.value = some previous
    · rw [if_pos hmatch] at hs' hcount
      have hold : previous = old := by
        -- A swap of the new version would be one back to the old.
        refine hp.resolve_right fun hprev ↦ ?_
        subst hprev
        rw [hb.resolve_right hne.symm, hnew] at hforward
        exact absurd (hforward hmatch) (by decide)
      subst hold
      have hcur : b.current = new := hb.resolve_left hne.symm
      rw [hcur] at hs' ⊢
      refine .swapped hmatch hs' ?_
      cases a with
      | none => exact .done
      | some count =>
        obtain rfl := hcount count rfl
        unfold afterSwap
        rw [isDowngrade_asymm hnew]
        exact .notify
    · rw [if_neg hmatch] at hs' hcount
      have hdone : afterSwap previous b.current a = done () := by
        cases a with
        | none => rfl
        | some count =>
          obtain rfl := hcount count rfl
          rfl
      rw [hdone]
      exact .quiet hs' .done not_notifies_done
  · exact .quiet rfl .done not_notifies_done

theorem progress (hnew : isDowngrade new old = true) (hb : b.current = old ∨ b.current = new)
    (hstage : Stage old new b (.ask q k)) (hvalue : s.value = some old ∨ s.value = some new)
    (hd : announceDoes s q a s')
    (hforward : ∀ previous current, q = .updateMany previous current →
      s.value = some previous → isDowngrade previous current = false) :
    Progress old new b s s' (.ask q k) (k a) := by
  generalize hp : (Task.ask q k : AnnounceTask Unit) = p at hstage
  cases hstage with
  | boot =>
    unfold announce at hp
    by_cases hadapter : b.httpAdapter = true
    · by_cases hzero : b.current = lit "0.0.0"
      · simp [hadapter, hzero] at hp
      · simp only [hadapter, Bool.not_true, Bool.false_eq_true, if_false, hzero,
          request_bind] at hp
        cases hp
        obtain ⟨rfl, hread⟩ := hd
        cases a with
        | none => exact .quiet rfl .done not_notifies_done
        | some value =>
          obtain rfl := hread value rfl
          obtain ⟨previous, hprev, hmem⟩ :
              ∃ previous, s'.value = some previous ∧ (previous = old ∨ previous = new) := by
            rcases hvalue with h | h
            · exact ⟨old, h, .inl rfl⟩
            · exact ⟨new, h, .inr rfl⟩
          change Progress old new b s' s' _ (afterRead b.current (some s'.value))
          rw [hprev, afterRead]
          split_ifs with heq
          · exact .quiet rfl .done not_notifies_done
          · refine .quiet rfl (.swap hmem heq) ?_
            rintro ⟨_, _, _, h⟩
            cases h
    · simp [hadapter] at hp
  | @swap previous hprev hne =>
    cases hp
    exact progress_swap hnew hb hne hprev hd (hforward _ _ rfl)
  | notify =>
    cases hp
    exact .notified ⟨_, _, _, rfl⟩ rfl hd
  | done => cases hp

end Step

/-! ### A whole deploy -/

/-- The setting holds the old version and nobody has been told, or it holds the new one and one call
at most has told or is about to. -/
structure Announced (old new : JsString) (x : AnnouncerWorld) : Prop where
  stage : ∀ t th, x.threads t = some th →
    (th.op.current = old ∨ th.op.current = new) ∧ Stage old new th.op th.rest
  value : x.state.value = some old ∨ x.state.value = some new
  before : x.state.value = some old → x.state.notifications = [] ∧
    ∀ t th, x.threads t = some th → ¬ Notifies th.rest
  told : x.state.notifications = [] ∨ x.state.notifications = [(old, new)]
  once : ∀ t th, x.threads t = some th → Notifies th.rest → x.state.notifications = []
  alone : ∀ t th t' th', x.threads t = some th → x.threads t' = some th' → Notifies th.rest →
    Notifies th'.rest → t = t'

theorem not_notifies_announce (b : Boot) : ¬ Notifies (announce b) := by
  rintro ⟨_, _, _, h⟩
  unfold announce at h
  by_cases hadapter : b.httpAdapter = true
  · by_cases hzero : b.current = lit "0.0.0"
    · simp [hadapter, hzero] at h
    · simp [hadapter, hzero] at h
  · simp [hadapter] at h

/-- A thread that is not about to notify changes nothing. -/
theorem Announced.update {old new : JsString} {x : AnnouncerWorld} {t : ℕ}
    {th : Thread AnnounceQuery AnnounceAnswer Unit Boot} {log : List AnnouncerEvent}
    (hx : Announced old new x) (hb : th.op.current = old ∨ th.op.current = new)
    (hstage : Stage old new th.op th.rest) (hth : ¬ Notifies th.rest) :
    Announced old new ⟨x.state, Function.update x.threads t (some th), log⟩ where
  stage t' th' ht' := by
    rcases update_eq_some ht' with ⟨-, rfl⟩ | ⟨-, ht'⟩
    · exact ⟨hb, hstage⟩
    · exact hx.stage t' th' ht'
  value := hx.value
  before hold := by
    refine ⟨(hx.before hold).1, fun t' th' ht' ↦ ?_⟩
    rcases update_eq_some ht' with ⟨-, rfl⟩ | ⟨-, ht'⟩
    · exact hth
    · exact (hx.before hold).2 t' th' ht'
  told := hx.told
  once t' th' ht' hn := by
    rcases update_eq_some ht' with ⟨-, rfl⟩ | ⟨-, ht'⟩
    · exact absurd hn hth
    · exact hx.once t' th' ht' hn
  alone t₁ th₁ t₂ th₂ h₁ h₂ hn₁ hn₂ := by
    rcases update_eq_some h₁ with ⟨-, rfl⟩ | ⟨-, h₁⟩
    · exact absurd hn₁ hth
    · rcases update_eq_some h₂ with ⟨-, rfl⟩ | ⟨-, h₂⟩
      · exact absurd hn₂ hth
      · exact hx.alone t₁ th₁ t₂ th₂ h₁ h₂ hn₁ hn₂

theorem Announced.step {old new : JsString} {x x' : AnnouncerWorld} {e : AnnouncerEvent}
    (hnew : isDowngrade new old = true) (hx : Announced old new x) (hdeploys : Deploys old new e)
    (hforward : Forward x e) (h : Step announcer x e x') : Announced old new x' := by
  have hne : new ≠ old := by
    rintro rfl
    rw [isDowngrade_irrefl] at hnew
    cases hnew
  cases h with
  | @start t b ht => exact hx.update hdeploys .boot (not_notifies_announce b)
  | @exchange t b h q k a s ht hd =>
    obtain ⟨hb, hstage⟩ := hx.stage t _ ht
    have hprogress := progress hnew hb hstage hx.value hd fun previous current hq hs ↦ by
      subst hq
      exact hforward hs
    cases hprogress with
    | quiet hs hstage' hquiet =>
      subst hs
      exact hx.update hb hstage' hquiet
    | swapped hold hs hstage' =>
      subst hs
      obtain ⟨hnone, hnobody⟩ := hx.before hold
      refine ⟨fun t' th' ht' ↦ ?_, .inr rfl, fun h ↦ ?_, .inl hnone, fun _ _ _ _ ↦ hnone, ?_⟩
      · rcases update_eq_some ht' with ⟨-, rfl⟩ | ⟨-, ht'⟩
        · exact ⟨hb, hstage'⟩
        · exact hx.stage t' th' ht'
      · exact absurd (Option.some.inj h) hne
      · intro t₁ th₁ t₂ th₂ h₁ h₂ hn₁ hn₂
        rcases update_eq_some h₁ with ⟨rfl, -⟩ | ⟨-, h₁⟩
        · rcases update_eq_some h₂ with ⟨rfl, -⟩ | ⟨-, h₂⟩
          · rfl
          · exact absurd hn₂ (hnobody t₂ th₂ h₂)
        · exact absurd hn₁ (hnobody t₁ th₁ h₁)
    | notified hp hp' hs =>
      have hnone := hx.once t _ ht hp
      have hnotold : x.state.value ≠ some old := fun hold ↦ (hx.before hold).2 t _ ht hp
      have hvalue : s.value = x.state.value := by rcases hs with rfl | rfl <;> rfl
      have hnobody : ∀ t' th', Function.update x.threads t (some ⟨b, h ++ [⟨q, a⟩], k a⟩) t' =
          some th' → ¬ Notifies th'.rest := by
        intro t' th' ht' hn
        rcases update_eq_some ht' with ⟨-, rfl⟩ | ⟨hne', ht'⟩
        · rw [hp'] at hn
          exact not_notifies_done hn
        · exact hne' (hx.alone t' th' t _ ht' ht hn hp)
      refine ⟨fun t' th' ht' ↦ ?_, hvalue ▸ hx.value, fun hold ↦ absurd (hvalue ▸ hold) hnotold, ?_,
        fun t' th' ht' hn ↦ absurd hn (hnobody t' th' ht'),
        fun t₁ th₁ _ _ h₁ _ hn₁ _ ↦ absurd hn₁ (hnobody t₁ th₁ h₁)⟩
      · rcases update_eq_some ht' with ⟨-, rfl⟩ | ⟨-, ht'⟩
        · exact ⟨hb, hp' ▸ .done⟩
        · exact hx.stage t' th' ht'
      · rcases hs with rfl | rfl
        · exact .inl hnone
        · exact .inr (congrArg _ hnone)
  | environment hs => exact hs.elim

/-- The world before a deploy, when `old` was announced last. -/
def beforeDeploy (old : JsString) : AnnouncerWorld := .init ⟨some old, []⟩

theorem announced_init (old new : JsString) : Announced old new (beforeDeploy old) where
  stage _ _ ht := nomatch ht
  value := .inl rfl
  before _ := ⟨rfl, fun _ _ ht ↦ nomatch ht⟩
  told := .inl rfl
  once _ _ ht := nomatch ht
  alone _ _ _ _ ht := nomatch ht

/-- `isDowngrade` is a strict order that reads missing segments as zero. In a deploy in which no
instance swaps the setting back, the new version is announced at most once, as the successor of the
old. -/
theorem announced_at_most_once (old new : JsString) :
    ((∀ a, isDowngrade a a = false) ∧
      (∀ a b, isDowngrade a b = true → isDowngrade b a = false) ∧
      (∀ a b c, isDowngrade a b = true → isDowngrade b c = true → isDowngrade a c = true) ∧
      ∀ a b, isDowngrade (a ++ lit ".0") b = isDowngrade a b ∧
        isDowngrade a (b ++ lit ".0") = isDowngrade a b) ∧
    (isDowngrade new old = true → ∀ x,
      Reach announcer (fun x e ↦ Deploys old new e ∧ Forward x e) (beforeDeploy old) x →
        x.state.notifications.length ≤ 1 ∧ ∀ n ∈ x.state.notifications, n = (old, new)) := by
  refine ⟨⟨isDowngrade_irrefl, fun a b ↦ isDowngrade_asymm, fun a b c ↦ isDowngrade_trans,
    isDowngrade_append_zero⟩, fun hnew x hx ↦ ?_⟩
  have hannounced : Announced old new x :=
    hx.invariant (announced_init old new) fun x e x' hx hC h ↦ hx.step hnew hC.1 hC.2 h
  rcases hannounced.told with h | h <;> simp [h]

/-! ### Restarts -/

/-- A call that is not interrupted. -/
def boots (previous current : JsString) (notify : Bool) :
    List (Exchange AnnounceQuery AnnounceAnswer) :=
  [⟨.findUnique, some (some previous)⟩, ⟨.updateMany previous current, some 1⟩] ++
    if notify then [⟨.versionChanged previous current, ()⟩] else []

theorem steps_announce (previous current : JsString) (notifications : List (JsString × JsString))
    (hzero : current ≠ lit "0.0.0") (hne : previous ≠ current) :
    Steps announceDoes ⟨some previous, notifications⟩ (announce ⟨true, current⟩)
      (boots previous current (!isDowngrade previous current)) (done ())
      ⟨some current, if isDowngrade previous current then notifications
        else (previous, current) :: notifications⟩ := by
  have hannounce : announce ⟨true, current⟩ = .ask .findUnique (afterRead current) := by
    simp [announce, hzero]
  have hread : afterRead current (some (some previous)) =
      .ask (.updateMany previous current) (afterSwap previous current) := by
    simp [afterRead, hne, swapAndNotify]
  rw [hannounce]
  refine .ask ⟨rfl, fun _ h ↦ (Option.some.inj h).symm⟩ ?_
  rw [hread]
  have hswap : announceDoes ⟨some previous, notifications⟩ (.updateMany previous current) (some 1)
      ⟨some current, notifications⟩ :=
    .inl ⟨by simp, fun _ h ↦ by simpa using (Option.some.inj h).symm⟩
  refine .ask hswap ?_
  cases hdown : isDowngrade previous current with
  | true =>
    simp only [afterSwap, hdown]
    exact .refl _ _
  | false =>
    simp only [afterSwap, hdown]
    exact .ask (.inr rfl) (.refl _ _)

/-- A deploy from `0.8.0` to `0.9.0`. -/
theorem announced_at_most_once_upgrade : ∃ x : AnnouncerWorld,
    x.state = ⟨some (lit "0.9.0"), [(lit "0.8.0", lit "0.9.0")]⟩ ∧
      x.state.notifications.length ≤ 1 := by
  have hup : isDowngrade (lit "0.8.0") (lit "0.9.0") = false := by decide
  have hsteps := steps_announce (lit "0.8.0") (lit "0.9.0") [] (by decide) (by decide)
  rw [hup] at hsteps
  have h₀ : Reach announcer (fun x e ↦ Deploys (lit "0.8.0") (lit "0.9.0") e ∧ Forward x e)
      (beforeDeploy (lit "0.8.0")) (beforeDeploy (lit "0.8.0")) := .init
  have hx := h₀.call 0 (⟨true, lit "0.9.0"⟩ : Boot) rfl hsteps (fun _ ↦ ⟨.inr rfl, trivial⟩)
    fun x e he ↦ ⟨trivial, by
      simp only [boots, Bool.not_false, if_true, List.cons_append, List.nil_append,
        List.mem_cons, List.not_mem_nil, or_false] at he
      rcases he with rfl | rfl | rfl
      · trivial
      · exact fun _ ↦ hup
      · trivial⟩
  exact ⟨_, rfl, ((announced_at_most_once _ _).2 (by decide) _ hx).1⟩

/-- An old instance that restarts swaps the setting back, and the next new one announces the version
a second time. -/
theorem announced_twice : ¬ ∀ x,
    Reach announcer (fun _ e ↦ Deploys (lit "0.8.0") (lit "0.9.0") e)
      (beforeDeploy (lit "0.8.0")) x → x.state.notifications.length ≤ 1 := by
  intro hall
  have hup : isDowngrade (lit "0.8.0") (lit "0.9.0") = false := by decide
  have hdown : isDowngrade (lit "0.9.0") (lit "0.8.0") = true := by decide
  have hnew := fun l ↦ steps_announce (lit "0.8.0") (lit "0.9.0") l (by decide) (by decide)
  have hold := fun l ↦ steps_announce (lit "0.9.0") (lit "0.8.0") l (by decide) (by decide)
  simp only [hup, hdown] at hnew hold
  have h₀ : Reach announcer (fun _ e ↦ Deploys (lit "0.8.0") (lit "0.9.0") e)
      (beforeDeploy (lit "0.8.0")) (beforeDeploy (lit "0.8.0")) := .init
  have h₁ := h₀.call 0 (⟨true, lit "0.9.0"⟩ : Boot) rfl (hnew _) (fun _ ↦ .inr rfl)
    fun _ _ _ ↦ trivial
  have h₂ := h₁.call 1 (⟨true, lit "0.8.0"⟩ : Boot) rfl (hold _) (fun _ ↦ .inl rfl)
    fun _ _ _ ↦ trivial
  have h₃ := h₂.call 2 (⟨true, lit "0.9.0"⟩ : Boot) rfl (hnew _) (fun _ ↦ .inr rfl)
    fun _ _ _ ↦ trivial
  exact absurd (hall _ h₃) (by decide)

end EasyBook.Notifications

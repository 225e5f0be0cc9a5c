import Mathlib

/-!
# Maps in the order of insertion

A `Map` as the list of its entries. Setting a key that is there keeps its place. A special case is a
map of groups (`groupBy`).
-/

namespace EasyBook

variable {α β : Type*} [DecidableEq α] {m : List (α × β)} {a x : α} {b : β}

/-- `m.set(a, b)`. -/
def mapSet (m : List (α × β)) (a : α) (b : β) : List (α × β) :=
  if a ∈ m.map Prod.fst then m.map fun e ↦ if e.1 = a then (a, b) else e else m ++ [(a, b)]

/-- The entries set one after the other. -/
def mapSetAll (m : List (α × β)) (entries : List (α × β)) : List (α × β) :=
  entries.foldl (fun m e ↦ mapSet m e.1 e.2) m

/-- `m.delete(a)`. -/
def mapDelete (m : List (α × β)) (a : α) : List (α × β) := m.filter fun e ↦ e.1 ≠ a

theorem map_fst_mapSet : (mapSet m a b).map Prod.fst =
    if a ∈ m.map Prod.fst then m.map Prod.fst else m.map Prod.fst ++ [a] := by
  unfold mapSet
  split
  · rw [List.map_map]
    refine List.map_congr_left fun e _ ↦ ?_
    by_cases he : e.1 = a <;> simp [he]
  · simp

theorem mem_keys_mapSet : x ∈ (mapSet m a b).map Prod.fst ↔ x = a ∨ x ∈ m.map Prod.fst := by
  rw [map_fst_mapSet]
  split
  · next ha =>
    constructor
    · exact .inr
    · rintro (rfl | hx)
      · exact ha
      · exact hx
  · simp [or_comm]

/-- No key has two entries. -/
theorem nodup_keys_mapSet (h : (m.map Prod.fst).Nodup) : ((mapSet m a b).map Prod.fst).Nodup := by
  rw [map_fst_mapSet]
  split
  · exact h
  · next ha =>
    refine List.nodup_append.2 ⟨h, List.nodup_singleton a, fun y hy z hz he ↦ ?_⟩
    obtain rfl := List.mem_singleton.1 hz
    exact ha (he ▸ hy)

/-! ### Looking up

For any lawful test of equality. -/

section Lookup

variable [BEq α] [LawfulBEq α]

theorem lookup_cons_if {e : α × β} :
    (e :: m).lookup x = if x = e.1 then some e.2 else m.lookup x := by
  rw [List.lookup]
  by_cases hx : x = e.1
  · simp [hx]
  · simp [hx, beq_false_of_ne hx]

theorem lookup_map_if : (m.map fun e ↦ if e.1 = a then (a, b) else e).lookup x =
    if x = a then (m.lookup a).map fun _ ↦ b else m.lookup x := by
  induction m with
  | nil => simp
  | cons e m ih =>
    rw [List.map_cons, lookup_cons_if, lookup_cons_if, lookup_cons_if, ih]
    by_cases hx : x = a
    · by_cases he : e.1 = a
      · simp [hx, he]
      · simp [hx, he, Ne.symm he]
    · by_cases he : e.1 = a <;> simp [hx, he]

omit [DecidableEq α] in
theorem lookup_eq_none_of_not_mem (h : x ∉ m.map Prod.fst) : m.lookup x = none := by
  refine List.lookup_eq_none_iff.2 fun e he ↦ ?_
  have hne : x ≠ e.1 := fun hx ↦ h (hx ▸ List.mem_map_of_mem he)
  simpa using hne

omit [DecidableEq α] in
theorem isSome_lookup (h : x ∈ m.map Prod.fst) : ∃ b, m.lookup x = some b := by
  cases hl : m.lookup x with
  | some b => exact ⟨b, rfl⟩
  | none =>
    obtain ⟨e, he, rfl⟩ := List.mem_map.1 h
    exact absurd (List.lookup_eq_none_iff.1 hl e he) (by simp)

/-- The entry that was set, and the others as they were. -/
theorem lookup_mapSet : (mapSet m a b).lookup x = if x = a then some b else m.lookup x := by
  unfold mapSet
  split
  · next ha =>
    obtain ⟨b', hb'⟩ := isSome_lookup ha
    rw [lookup_map_if, hb']
    rfl
  · next ha =>
    rw [List.lookup_append]
    by_cases hx : x = a
    · simp [hx, lookup_eq_none_of_not_mem ha]
    · simp [hx, lookup_cons_if]

/-- The others are as they were. -/
theorem lookup_mapDelete : (mapDelete m a).lookup x = if x = a then none else m.lookup x := by
  induction m with
  | nil => simp [mapDelete]
  | cons e m ih =>
    have hcons : mapDelete (e :: m) a = if e.1 = a then mapDelete m a else e :: mapDelete m a := by
      by_cases he : e.1 = a <;> simp [mapDelete, he]
    rw [hcons, lookup_cons_if]
    by_cases he : e.1 = a
    · rw [if_pos he, ih]
      by_cases hx : x = a
      · simp [hx]
      · rw [if_neg hx, if_neg hx, if_neg fun h ↦ hx (h.trans he)]
    · rw [if_neg he, lookup_cons_if, ih]
      by_cases hx : x = a
      · subst hx
        rw [if_pos rfl, if_pos rfl, if_neg (Ne.symm he)]
      · simp [hx]

omit [BEq α] [LawfulBEq α] in
theorem nodup_keys_mapDelete (h : (m.map Prod.fst).Nodup) :
    ((mapDelete m a).map Prod.fst).Nodup :=
  h.sublist (List.filter_sublist.map _)

theorem lookup_of_mem (h : (m.map Prod.fst).Nodup) {e : α × β} (he : e ∈ m) :
    m.lookup e.1 = some e.2 := by
  induction m with
  | nil => cases he
  | cons e' m ih =>
    obtain ⟨hnot, hm⟩ := List.nodup_cons.1 h
    rw [lookup_cons_if]
    rcases List.mem_cons.1 he with rfl | he
    · exact if_pos rfl
    · have hne : e.1 ≠ e'.1 := fun heq ↦ hnot (heq ▸ List.mem_map_of_mem he)
      rw [if_neg hne, ih hm he]

/-- The sum over the values after one of them was set. -/
theorem sum_mapSet {M : Type*} [AddCommGroup M] (μ : β → M) (h : (m.map Prod.fst).Nodup) :
    ((mapSet m a b).map fun e ↦ μ e.2).sum + ((m.lookup a).map μ).getD 0 =
      (m.map fun e ↦ μ e.2).sum + μ b := by
  unfold mapSet
  by_cases ha : a ∈ m.map Prod.fst
  · rw [if_pos ha]
    induction m with
    | nil => cases ha
    | cons e m ih =>
      obtain ⟨he, h⟩ := List.nodup_cons.1 h
      rw [List.map_cons, List.map_cons, List.map_cons, List.sum_cons, List.sum_cons,
        lookup_cons_if]
      by_cases hea : e.1 = a
      · have hrest : m.map (fun e ↦ if e.1 = a then (a, b) else e) = m := by
          refine (List.map_congr_left fun e' he' ↦ if_neg fun hea' ↦ ?_).trans (List.map_id m)
          exact he (List.mem_map.2 ⟨e', he', hea'.trans hea.symm⟩)
        rw [hrest, if_pos hea, if_pos hea.symm]
        change μ b + (m.map fun e ↦ μ e.2).sum + μ e.2 = μ e.2 + (m.map fun e ↦ μ e.2).sum + μ b
        abel
      · have ha : a ∈ m.map Prod.fst := (List.mem_cons.1 ha).resolve_left fun h ↦ hea h.symm
        rw [if_neg hea, if_neg (Ne.symm hea), add_assoc, ih h ha, add_assoc]
  · rw [if_neg ha, lookup_eq_none_of_not_mem ha]
    simp

/-- The sum over the values of the keys in question, after something was added to one of them. -/
theorem sum_filter_mapSet_add {M : Type*} [AddCommMonoid M] {m : List (α × M)} (p : α → Bool)
    (u : M) (h : (m.map Prod.fst).Nodup) :
    (((mapSet m a ((m.lookup a).getD 0 + u)).filter fun e ↦ p e.1).map Prod.snd).sum =
      ((m.filter fun e ↦ p e.1).map Prod.snd).sum + if p a then u else 0 := by
  unfold mapSet
  by_cases ha : a ∈ m.map Prod.fst
  · rw [if_pos ha]
    induction m with
    | nil => cases ha
    | cons e m ih =>
      obtain ⟨he, h⟩ := List.nodup_cons.1 h
      rw [List.map_cons, lookup_cons_if]
      by_cases hea : e.1 = a
      · subst hea
        have hrest : ∀ b, m.map (fun e' ↦ if e'.1 = e.1 then (e.1, b) else e') = m := fun b ↦ by
          refine (List.map_congr_left fun e' he' ↦ if_neg fun hea' ↦ ?_).trans (List.map_id m)
          exact he (hea' ▸ List.mem_map_of_mem he')
        rw [if_pos rfl, if_pos rfl, hrest, Option.getD_some, List.filter_cons, List.filter_cons]
        cases p e.1 with
        | false => simp
        | true => simp [add_right_comm]
      · have ha : a ∈ m.map Prod.fst := (List.mem_cons.1 ha).resolve_left fun h ↦ hea h.symm
        have hih := ih h ha
        rw [if_neg hea, if_neg (Ne.symm hea), List.filter_cons, List.filter_cons]
        cases p e.1 with
        | false => simpa using hih
        | true =>
          simp only [if_true, List.map_cons, List.sum_cons]
          rw [hih, add_assoc]
  · rw [if_neg ha, lookup_eq_none_of_not_mem ha]
    cases hp : p a <;> simp [hp]

end Lookup

variable {entries : List (α × β)}

theorem mem_keys_mapSetAll :
    x ∈ (mapSetAll m entries).map Prod.fst ↔ x ∈ m.map Prod.fst ∨ x ∈ entries.map Prod.fst := by
  induction entries generalizing m with
  | nil => simp [mapSetAll]
  | cons e entries ih =>
    change x ∈ (mapSetAll (mapSet m e.1 e.2) entries).map Prod.fst ↔ _
    rw [ih, mem_keys_mapSet, List.map_cons, List.mem_cons, or_assoc, or_left_comm]

theorem nodup_keys_mapSetAll (h : (m.map Prod.fst).Nodup) :
    ((mapSetAll m entries).map Prod.fst).Nodup := by
  induction entries generalizing m with
  | nil => exact h
  | cons e entries ih => exact ih (nodup_keys_mapSet h)

/-- The last entry of a key counts. -/
theorem lookup_mapSetAll [BEq α] [LawfulBEq α] :
    (mapSetAll m entries).lookup x = (entries.reverse.lookup x).or (m.lookup x) := by
  induction entries generalizing m with
  | nil => rfl
  | cons e entries ih =>
    change (mapSetAll (mapSet m e.1 e.2) entries).lookup x = _
    rw [ih, lookup_mapSet, List.reverse_cons, List.lookup_append, Option.or_assoc]
    congr 1
    by_cases hx : x = e.1 <;> simp [hx, lookup_cons_if]

/-! ### Groups -/

section Groups

variable {γ : Type*} {key : γ → α} {items : List γ} {groups : List (α × List γ)} {z : γ}

/-- `x` joins the group of its key, or is the first one of it. -/
def pushGroup (key : γ → α) : List (α × List γ) → γ → List (α × List γ)
  | [], x => [(key x, [x])]
  | (k, xs) :: groups, x =>
    if k = key x then (k, xs ++ [x]) :: groups else (k, xs) :: pushGroup key groups x

/-- The items by their keys, the keys in the order in which they come first. -/
def groupBy (key : γ → α) (items : List γ) : List (α × List γ) := items.foldl (pushGroup key) []

/-- What is in the groups after a push. -/
theorem exists_mem_pushGroup {x : γ} : (∃ g ∈ pushGroup key groups x, z ∈ g.2) ↔
    (∃ g ∈ groups, z ∈ g.2) ∨ z = x := by
  induction groups with
  | nil => simp [pushGroup]
  | cons g groups ih =>
    obtain ⟨k, xs⟩ := g
    unfold pushGroup
    split
    · simp only [List.exists_mem_cons_iff, List.mem_append, List.mem_singleton]
      exact or_right_comm
    · simp only [List.exists_mem_cons_iff, ih, or_assoc]

/-- A group holds items of its key, and at least one. -/
def Grouped (key : γ → α) (groups : List (α × List γ)) : Prop :=
  ∀ g ∈ groups, g.2 ≠ [] ∧ ∀ x ∈ g.2, key x = g.1

theorem Grouped.push (h : Grouped key groups) (x : γ) : Grouped key (pushGroup key groups x) := by
  induction groups with
  | nil =>
    intro g hg
    obtain rfl := List.mem_singleton.1 hg
    exact ⟨List.cons_ne_nil _ _, fun y hy ↦ by rw [List.mem_singleton.1 hy]⟩
  | cons g groups ih =>
    obtain ⟨k, xs⟩ := g
    have hhead := h (k, xs) List.mem_cons_self
    have htail : Grouped key groups := fun g hg ↦ h g (List.mem_cons_of_mem _ hg)
    unfold pushGroup
    split
    · next hk =>
      intro g hg
      rcases List.mem_cons.1 hg with rfl | hg
      · refine ⟨by simp, fun y hy ↦ ?_⟩
        rcases List.mem_append.1 hy with hy | hy
        · exact hhead.2 y hy
        · rw [List.mem_singleton.1 hy, hk]
      · exact htail g hg
    · intro g hg
      rcases List.mem_cons.1 hg with rfl | hg
      · exact hhead
      · exact ih htail g hg

private theorem foldl_pushGroup (h : Grouped key groups) :
    Grouped key (items.foldl (pushGroup key) groups) ∧
      ∀ z, (∃ g ∈ items.foldl (pushGroup key) groups, z ∈ g.2) ↔
        (∃ g ∈ groups, z ∈ g.2) ∨ z ∈ items := by
  induction items generalizing groups with
  | nil => exact ⟨h, fun z ↦ by simp⟩
  | cons x items ih =>
    obtain ⟨hgrouped, hmem⟩ := ih (h.push x)
    refine ⟨hgrouped, fun z ↦ (hmem z).trans ?_⟩
    rw [exists_mem_pushGroup, List.mem_cons, or_assoc]

theorem grouped_groupBy (key : γ → α) (items : List γ) : Grouped key (groupBy key items) :=
  (foldl_pushGroup fun _ h ↦ (List.not_mem_nil h).elim).1

/-- The groups hold the items, and nothing else. -/
theorem exists_mem_groupBy : (∃ g ∈ groupBy key items, z ∈ g.2) ↔ z ∈ items := by
  rw [groupBy, (foldl_pushGroup fun _ h ↦ (List.not_mem_nil h).elim).2 z]
  simp

/-- The group of a key after a push. -/
theorem lookup_pushGroup [BEq α] [LawfulBEq α] (groups : List (α × List γ)) (x : γ) (k : α) :
    ((pushGroup key groups x).lookup k).getD [] =
      (groups.lookup k).getD [] ++ if key x = k then [x] else [] := by
  induction groups with
  | nil =>
    unfold pushGroup
    rw [lookup_cons_if]
    by_cases hk : key x = k
    · simp [hk]
    · simp [hk, Ne.symm hk]
  | cons g groups ih =>
    obtain ⟨k', xs⟩ := g
    unfold pushGroup
    by_cases hkey : k' = key x
    · subst hkey
      rw [if_pos rfl, lookup_cons_if, lookup_cons_if]
      by_cases hk : k = key x
      · simp [hk]
      · simp [hk, Ne.symm hk]
    · rw [if_neg hkey, lookup_cons_if, lookup_cons_if]
      by_cases hk : k = k'
      · subst hk
        simp [Ne.symm hkey]
      · rw [if_neg hk, if_neg hk, ih]

/-- The group of a key: its items, in their order. -/
theorem lookup_groupBy [BEq α] [LawfulBEq α] (items : List γ) (k : α) :
    ((groupBy key items).lookup k).getD [] = items.filter fun x ↦ key x = k := by
  have hfold : ∀ groups : List (α × List γ),
      ((items.foldl (pushGroup key) groups).lookup k).getD [] =
        (groups.lookup k).getD [] ++ items.filter fun x ↦ key x = k := by
    induction items with
    | nil => exact fun groups ↦ (List.append_nil _).symm
    | cons x items ih =>
      intro groups
      rw [List.foldl_cons, ih, lookup_pushGroup, List.append_assoc]
      by_cases hk : key x = k <;> simp [hk]
  exact hfold []

end Groups

/-! ### Sets -/

section Sets

variable {α : Type*} [BEq α] [LawfulBEq α]

omit [LawfulBEq α] in
/-- `[...new Set(xs)]` is `xs` without what has been there before. -/
theorem eraseDups_sublist (xs : List α) : List.Sublist xs.eraseDups xs := by
  induction hn : xs.length using Nat.strong_induction_on generalizing xs with
  | _ n ih =>
    cases xs with
    | nil => simp
    | cons x xs =>
      have hle : (xs.filter fun y ↦ !y == x).length < n := by
        rw [← hn, List.length_cons]
        exact Nat.lt_succ_of_le (List.length_filter_le ..)
      rw [List.eraseDups_cons]
      exact ((ih _ hle _ rfl).trans List.filter_sublist).cons_cons x

theorem nodup_eraseDups (xs : List α) : xs.eraseDups.Nodup := by
  induction hn : xs.length using Nat.strong_induction_on generalizing xs with
  | _ n ih =>
    cases xs with
    | nil => simp
    | cons x xs =>
      have hle : (xs.filter fun y ↦ !y == x).length < n := by
        rw [← hn, List.length_cons]
        exact Nat.lt_succ_of_le (List.length_filter_le ..)
      rw [List.eraseDups_cons, List.nodup_cons]
      exact ⟨by simp [List.mem_eraseDups], ih _ hle _ rfl⟩

end Sets

end EasyBook

import EasyBook.Ecma.OrderedMap

/-!
# Tallies and sorted tables

A `Map` that is filled by adding to the entries of its keys (`tallyBy`): what a key holds in the end
is the sum over its items. `sum_fibers` says what keys hold together that have nothing to do with
the map, such as those of the rows of a table.

A comparator that breaks ties by something else still sorts by what it compares first
(`pairwise_insertionSort_of`).
-/

namespace EasyBook

section Tally

variable {α γ M : Type*} [DecidableEq α] [BEq α] [AddCommMonoid M] {key : γ → α} {val : γ → M}
  {m : List (α × M)} {a : α}

/-- `m.set(a, (m.get(a) ?? 0) + u)`. -/
def mapAdd (m : List (α × M)) (a : α) (u : M) : List (α × M) :=
  mapSet m a ((m.lookup a).getD 0 + u)

/-- The entry of a key; without one it is zero. -/
def entry (m : List (α × M)) (a : α) : M := (m.lookup a).getD 0

/-- Every item is added to the entry of its key. -/
def tallyBy (key : γ → α) (val : γ → M) (m : List (α × M)) (items : List γ) : List (α × M) :=
  items.foldl (fun m x ↦ mapAdd m (key x) (val x)) m

omit [DecidableEq α] in
@[simp] theorem entry_nil : entry ([] : List (α × M)) a = 0 := rfl

variable [LawfulBEq α]

theorem entry_mapAdd {b : α} {u : M} :
    entry (mapAdd m a u) b = entry m b + if a = b then u else 0 := by
  unfold entry mapAdd
  rw [lookup_mapSet]
  by_cases h : b = a
  · subst h
    simp
  · rw [if_neg h, if_neg (Ne.symm h), add_zero]

/-- What a key holds. -/
theorem entry_tallyBy (items : List γ) : entry (tallyBy key val m items) a =
    entry m a + ((items.filter fun x ↦ key x = a).map val).sum := by
  induction items generalizing m with
  | nil => simp [tallyBy]
  | cons x items ih =>
    show entry (tallyBy key val (mapAdd m (key x) (val x)) items) a = _
    rw [ih, entry_mapAdd, List.filter_cons]
    by_cases h : key x = a
    · simp [h, add_assoc]
    · simp [h]

/-- A map without repeated keys is the tally of its entries. -/
theorem sum_entries {items : List (α × M)} (h : (items.map Prod.fst).Nodup) :
    ((items.filter fun e ↦ e.1 = a).map Prod.snd).sum = entry items a := by
  induction items with
  | nil => rfl
  | cons e items ih =>
    obtain ⟨hnot, h⟩ := List.nodup_cons.1 h
    unfold entry at ih ⊢
    rw [lookup_cons_if, List.filter_cons]
    by_cases he : e.1 = a
    · have hrest : items.filter (fun e ↦ e.1 = a) = [] := by
        refine List.filter_eq_nil_iff.2 fun e' he' hkey ↦ hnot ?_
        rw [he, ← of_decide_eq_true hkey]
        exact List.mem_map_of_mem he'
      simp [he, hrest]
    · simp [he, Ne.symm he, ih h]

/-- Distinct keys hold together what the items of these keys come to. -/
theorem sum_fibers (key : γ → α) (val : γ → M) {keys : List α} (h : keys.Nodup)
    (items : List γ) :
    (keys.map fun a ↦ ((items.filter fun x ↦ key x = a).map val).sum).sum =
      ((items.filter fun x ↦ key x ∈ keys).map val).sum := by
  induction items with
  | nil => simp
  | cons x items ih =>
    have hcons : ∀ a, (((x :: items).filter fun x ↦ key x = a).map val).sum =
        (if key x = a then val x else 0) + ((items.filter fun x ↦ key x = a).map val).sum :=
      fun a ↦ by by_cases ha : key x = a <;> simp [ha]
    have hone : (keys.map fun a ↦ if key x = a then val x else 0).sum =
        if key x ∈ keys then val x else 0 := by
      clear hcons ih
      induction keys with
      | nil => rfl
      | cons k keys ih =>
        obtain ⟨hk, h⟩ := List.nodup_cons.1 h
        rw [List.map_cons, List.sum_cons, ih h]
        by_cases hx : key x = k
        · simp [hx, hk]
        · simp [hx]
    rw [List.map_congr_left fun a _ ↦ hcons a, List.sum_map_add, ih, hone, List.filter_cons]
    by_cases hx : key x ∈ keys <;> simp [hx]

end Tally

section Sorting

variable {α : Type*} {r : α → α → Prop} [DecidableRel r] {s : α → α → Prop}

/-- Sorted by a comparator, and so by every order that the comparator refines. -/
theorem pairwise_insertionSort_of (hrs : ∀ a b, r a b → s a b) (hsr : ∀ a b, ¬ r a b → s b a)
    (htrans : ∀ a b c, s a b → s b c → s a c) (l : List α) : (l.insertionSort r).Pairwise s := by
  have hinsert : ∀ (a : α) (l : List α), l.Pairwise s → (l.orderedInsert r a).Pairwise s := by
    intro a l hl
    induction l with
    | nil => exact List.pairwise_singleton s a
    | cons b l ih =>
      obtain ⟨hb, hl⟩ := List.pairwise_cons.1 hl
      unfold List.orderedInsert
      split
      · next hab =>
        refine List.pairwise_cons.2 ⟨fun c hc ↦ ?_, List.pairwise_cons.2 ⟨hb, hl⟩⟩
        rcases List.mem_cons.1 hc with rfl | hc
        · exact hrs a c hab
        · exact htrans a b c (hrs a b hab) (hb c hc)
      · next hab =>
        refine List.pairwise_cons.2 ⟨fun c hc ↦ ?_, ih hl⟩
        rcases (List.mem_orderedInsert r).1 hc with rfl | hc
        · exact hsr c b hab
        · exact hb c hc
  induction l with
  | nil => exact List.Pairwise.nil
  | cons a l ih => exact hinsert a _ ih

end Sorting

end EasyBook

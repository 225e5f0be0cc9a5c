import Mathlib

/-!
# Walks over a graph that may have cycles

Three ways to walk: a work list with a set of the nodes seen (`search`), the same with a bound on
that set (`searchBelow`), and a single chain without any memory (`follow`). The first two end on
every finite graph, and the first finds what is reachable (`mem_search_iff`); the third ends unless
it runs into a cycle (`terminates_follow_iff`).

A work list holds items, and `node` says which node an item denotes, if any.
-/

namespace EasyBook.Graph

variable {ι α β γ : Type*}

/-! ### Loops with fuel -/

/-- With enough fuel the loop returns `b`. -/
def Returns (loop : ℕ → Option β) (b : β) : Prop := ∃ n, ∀ m, n ≤ m → loop m = some b

/-- The loop returns. -/
def Terminates (loop : ℕ → Option β) : Prop := ∃ b, Returns loop b

/-- What is computed from the value of a loop. -/
theorem Returns.map {loop : ℕ → Option β} {b : β} (h : Returns loop b) (f : β → γ) :
    Returns (fun n ↦ (loop n).map f) (f b) := by
  obtain ⟨n, hn⟩ := h
  exact ⟨n, fun m hm ↦ congrArg (Option.map f) (hn m hm)⟩

/-- A loop that no fuel ends. -/
theorem not_terminates {loop : ℕ → Option β} (h : ∀ n, loop n = none) : ¬ Terminates loop := by
  rintro ⟨b, n, hn⟩
  have hsome : none = some b := (h n).symm.trans (hn n le_rfl)
  exact nomatch hsome

/-! ### Following a chain -/

section Follow

variable (next : α → α) (stop : α → Option β)

/-- Steps along `next` until `stop` has an answer. -/
def follow : ℕ → α → Option β
  | 0, _ => none
  | n + 1, x => match stop x with
    | some b => some b
    | none => follow n (next x)

variable {next stop} {x : α} {b : β}

theorem follow_of_stop {n : ℕ} (h : stop x = some b) : follow next stop (n + 1) x = some b := by
  rw [follow, h]

theorem follow_of_none {n : ℕ} (h : stop x = none) :
    follow next stop (n + 1) x = follow next stop n (next x) := by
  rw [follow, h]

/-- The first answer on the chain is the one returned. -/
theorem returns_follow {k : ℕ} (hk : stop (next^[k] x) = some b)
    (hbefore : ∀ j < k, stop (next^[j] x) = none) :
    Returns (fun n ↦ follow next stop n x) b := by
  induction k generalizing x with
  | zero =>
    refine ⟨1, fun m hm ↦ ?_⟩
    obtain ⟨m, rfl⟩ := Nat.exists_eq_add_of_le' hm
    exact follow_of_stop hk
  | succ k ih =>
    obtain ⟨n, hn⟩ := ih (x := next x) hk fun j hj ↦ hbefore (j + 1) (Nat.succ_lt_succ hj)
    refine ⟨n + 1, fun m hm ↦ ?_⟩
    obtain ⟨m, rfl⟩ := Nat.exists_eq_add_of_le' ((Nat.le_add_left 1 n).trans hm)
    exact (follow_of_none (hbefore 0 (Nat.succ_pos k))).trans (hn m (Nat.le_of_succ_le_succ hm))

/-- Without an answer on the chain there is none. -/
theorem follow_eq_none (h : ∀ k, stop (next^[k] x) = none) (n : ℕ) :
    follow next stop n x = none := by
  induction n generalizing x with
  | zero => rfl
  | succ n ih =>
    exact (follow_of_none (h 0)).trans (ih fun k ↦ h (k + 1))

/-- What is returned is the answer at some place of the chain. -/
theorem exists_stop_of_follow {n : ℕ} (h : follow next stop n x = some b) :
    ∃ k, stop (next^[k] x) = some b := by
  induction n generalizing x with
  | zero => exact nomatch h
  | succ n ih =>
    cases hx : stop x with
    | some b' => exact ⟨0, hx.trans ((follow_of_stop hx).symm.trans h)⟩
    | none =>
      obtain ⟨k, hk⟩ := ih ((follow_of_none hx).symm.trans h)
      exact ⟨k + 1, hk⟩

/-- An answer anywhere on the chain ends the walk. -/
theorem terminates_follow {k : ℕ} (hk : stop (next^[k] x) ≠ none) :
    Terminates (fun n ↦ follow next stop n x) := by
  classical
  have hex : ∃ k, stop (next^[k] x) ≠ none := ⟨k, hk⟩
  obtain ⟨b, hb⟩ := Option.ne_none_iff_exists'.1 (Nat.find_spec hex)
  exact ⟨b, returns_follow hb fun j hj ↦ not_not.1 (Nat.find_min hex hj)⟩

/-- The chain runs into a cycle before there is an answer. -/
def Loops (next : α → α) (stop : α → Option β) (x : α) : Prop :=
  ∃ i j, i < j ∧ next^[i] x = next^[j] x ∧ ∀ k < j, stop (next^[k] x) = none

/-- On a cycle every later node is one of the first. -/
theorem exists_lt_iterate_eq {i j : ℕ} (hij : i < j) (h : next^[i] x = next^[j] x) (k : ℕ) :
    ∃ m < j, next^[k] x = next^[m] x := by
  induction k using Nat.strong_induction_on with
  | _ k ih =>
    rcases lt_or_ge k j with hk | hk
    · exact ⟨k, hk, rfl⟩
    · obtain ⟨d, rfl⟩ := Nat.exists_eq_add_of_le' hk
      obtain ⟨m, hm, heq⟩ := ih (d + i) (by omega)
      refine ⟨m, hm, ?_⟩
      rw [Function.iterate_add_apply, ← h, ← Function.iterate_add_apply, heq]

theorem loops_iff [Finite α] : Loops next stop x ↔ ∀ k, stop (next^[k] x) = none := by
  constructor
  · rintro ⟨i, j, hij, heq, hnone⟩ k
    obtain ⟨m, hm, hkm⟩ := exists_lt_iterate_eq hij heq k
    rw [hkm]
    exact hnone m hm
  · intro h
    obtain ⟨i, j, hne, heq⟩ := Finite.exists_ne_map_eq_of_infinite fun k ↦ next^[k] x
    rcases Nat.lt_or_gt_of_ne hne with hlt | hlt
    · exact ⟨i, j, hlt, heq, fun k _ ↦ h k⟩
    · exact ⟨j, i, hlt, heq.symm, fun k _ ↦ h k⟩

/-- **A chain without memory ends unless it runs into a cycle.** -/
theorem terminates_follow_iff [Finite α] :
    Terminates (fun n ↦ follow next stop n x) ↔ ¬ Loops next stop x := by
  rw [loops_iff]
  constructor
  · exact fun h hnone ↦ not_terminates (follow_eq_none hnone) h
  · intro h
    obtain ⟨k, hk⟩ := not_forall.1 h
    exact terminates_follow hk

end Follow

/-! ### Work lists -/

section Search

variable (node : ι → Option α) (next : α → List ι)

/-- The nodes reachable from an item. -/
inductive Reachable : ι → α → Prop
  | here {i x} (h : node i = some x) : Reachable i x
  | step {i j x y} (h : node i = some x) (hj : j ∈ next x) (hy : Reachable j y) : Reachable i y

variable [DecidableEq α]

/-- The nodes in the order in which the work list gives them, each once. -/
def search [Fintype α] (seen : Finset α) : List ι → List α
  | [] => []
  | i :: queue =>
    match node i with
    | none => search seen queue
    | some x =>
      if x ∈ seen then search seen queue
      else x :: search (insert x seen) (queue ++ next x)
  termination_by queue => ((Finset.univ \ seen).card, queue.length)
  decreasing_by
    · exact Prod.Lex.right _ (Nat.lt_succ_self _)
    · exact Prod.Lex.right _ (Nat.lt_succ_self _)
    · rename_i hx
      refine Prod.Lex.left _ _ (Finset.card_lt_card ?_)
      refine Finset.ssubset_iff_of_subset ?_ |>.2 ⟨x, ?_, ?_⟩
      · exact Finset.sdiff_subset_sdiff subset_rfl (Finset.subset_insert x seen)
      · exact Finset.mem_sdiff.2 ⟨Finset.mem_univ x, hx⟩
      · exact fun h ↦ (Finset.mem_sdiff.1 h).2 (Finset.mem_insert_self x seen)

/-- The same as long as fewer than `limit` nodes have been seen. -/
def searchBelow (limit : ℕ) (seen : Finset α) : List ι → List α
  | [] => []
  | i :: queue =>
    if seen.card < limit then
      match node i with
      | none => searchBelow limit seen queue
      | some x =>
        if x ∈ seen then searchBelow limit seen queue
        else x :: searchBelow limit (insert x seen) (queue ++ next x)
    else []
  termination_by queue => (limit - seen.card, queue.length)
  decreasing_by
    · exact Prod.Lex.right _ (Nat.lt_succ_self _)
    · exact Prod.Lex.right _ (Nat.lt_succ_self _)
    · rename_i hlimit hx
      refine Prod.Lex.left _ _ ?_
      rw [Finset.card_insert_of_notMem hx]
      omega

variable {node next}

variable [Fintype α] {seen : Finset α} {queue : List ι} {x : α}

/-- What the search finds is reachable. -/
theorem exists_reachable_of_mem_search (hx : x ∈ search node next seen queue) :
    ∃ i ∈ queue, Reachable node next i x := by
  induction seen, queue using search.induct node next with
  | case1 seen =>
    rw [search] at hx
    exact nomatch hx
  | case2 seen i queue hi ih =>
    rw [search, hi] at hx
    obtain ⟨j, hj, hreach⟩ := ih hx
    exact ⟨j, List.mem_cons_of_mem _ hj, hreach⟩
  | case3 seen i queue y hi hy ih =>
    rw [search, hi] at hx
    simp only [if_pos hy] at hx
    obtain ⟨j, hj, hreach⟩ := ih hx
    exact ⟨j, List.mem_cons_of_mem _ hj, hreach⟩
  | case4 seen i queue y hi hy ih =>
    rw [search, hi] at hx
    simp only [if_neg hy] at hx
    rcases List.mem_cons.1 hx with rfl | hx
    · exact ⟨i, List.mem_cons_self, .here hi⟩
    · obtain ⟨j, hj, hreach⟩ := ih hx
      rcases List.mem_append.1 hj with hj | hj
      · exact ⟨j, List.mem_cons_of_mem _ hj, hreach⟩
      · exact ⟨i, List.mem_cons_self, .step hi hj hreach⟩

/-- Whatever a seen node leads to is seen or waits in the queue. -/
def Closed (node : ι → Option α) (next : α → List ι) (seen : Finset α) (queue : List ι) : Prop :=
  ∀ y ∈ seen, ∀ j ∈ next y, j ∈ queue ∨ ∀ z ∈ node j, z ∈ seen

/-- The nodes of the queue are found, and so is all that a node found leads to. -/
theorem search_closed (h : Closed node next seen queue) :
    (∀ i ∈ queue, ∀ x ∈ node i, x ∈ seen ∨ x ∈ search node next seen queue) ∧
      ∀ y, y ∈ seen ∨ y ∈ search node next seen queue → ∀ j ∈ next y, ∀ z ∈ node j,
        z ∈ seen ∨ z ∈ search node next seen queue := by
  -- Induction on the walk: the queue is empty, its head has no node, a node seen before, or a new
  -- one.
  induction seen, queue using search.induct node next with
  | case1 seen =>
    refine ⟨fun i hi ↦ (nomatch hi), fun y hy j hj z hz ↦ ?_⟩
    rw [search] at hy ⊢
    have hy : y ∈ seen := hy.resolve_right fun h ↦ (nomatch h)
    exact ((h y hy j hj).resolve_left fun h ↦ (nomatch h)) z hz |> .inl
  | case2 seen i queue hi ih =>
    -- What was closed with the head in the queue is closed without it, as it leads nowhere.
    have hclosed : Closed node next seen queue := fun y hy j hj ↦ by
      rcases h y hy j hj with hj | hj
      · rcases List.mem_cons.1 hj with rfl | hj
        · exact .inr fun z hz ↦ (nomatch hi.symm.trans hz)
        · exact .inl hj
      · exact .inr hj
    obtain ⟨hqueue, hnext⟩ := ih hclosed
    rw [search, hi]
    refine ⟨fun k hk x hx ↦ ?_, hnext⟩
    rcases List.mem_cons.1 hk with rfl | hk
    · exact nomatch hi.symm.trans hx
    · exact hqueue k hk x hx
  | case3 seen i queue w hi hw ih =>
    have hclosed : Closed node next seen queue := fun y hy j hj ↦ by
      rcases h y hy j hj with hj | hj
      · rcases List.mem_cons.1 hj with rfl | hj
        · exact .inr fun z hz ↦ Option.some.inj (hi.symm.trans hz) ▸ hw
        · exact .inl hj
      · exact .inr hj
    obtain ⟨hqueue, hnext⟩ := ih hclosed
    rw [search, hi]
    simp only [if_pos hw]
    refine ⟨fun k hk x hx ↦ ?_, hnext⟩
    rcases List.mem_cons.1 hk with rfl | hk
    · exact .inl (Option.some.inj (hi.symm.trans hx) ▸ hw)
    · exact hqueue k hk x hx
  | case4 seen i queue w hi hw ih =>
    -- The neighbours of the new node are now in the queue.
    have hclosed : Closed node next (insert w seen) (queue ++ next w) := fun y hy j hj ↦ by
      rcases Finset.mem_insert.1 hy with rfl | hy
      · exact .inl (List.mem_append_right _ hj)
      · rcases h y hy j hj with hj | hj
        · rcases List.mem_cons.1 hj with rfl | hj
          · exact .inr fun z hz ↦
              Option.some.inj (hi.symm.trans hz) ▸ Finset.mem_insert_self w seen
          · exact .inl (List.mem_append_left _ hj)
        · exact .inr fun z hz ↦ Finset.mem_insert_of_mem (hj z hz)
    obtain ⟨hqueue, hnext⟩ := ih hclosed
    -- Both sides count the node just taken: here as seen, there as found.
    have hmove (z : α) : (z ∈ insert w seen ∨
        z ∈ search node next (insert w seen) (queue ++ next w)) ↔
        z ∈ seen ∨ z ∈ w :: search node next (insert w seen) (queue ++ next w) := by
      rw [Finset.mem_insert, List.mem_cons]
      tauto
    simp only [hmove] at hqueue hnext
    rw [search, hi]
    simp only [if_neg hw]
    refine ⟨fun k hk x hx ↦ ?_, hnext⟩
    rcases List.mem_cons.1 hk with rfl | hk
    · exact .inr (Option.some.inj (hi.symm.trans hx) ▸ List.mem_cons_self)
    · exact hqueue k (List.mem_append_left _ hk) x hx

/-- **A search finds exactly what is reachable.** -/
theorem mem_search_iff {i : ι} : x ∈ search node next ∅ [i] ↔ Reachable node next i x := by
  constructor
  · intro hx
    obtain ⟨j, hj, hreach⟩ := exists_reachable_of_mem_search hx
    exact List.mem_singleton.1 hj ▸ hreach
  · have hclosed : Closed node next ∅ [i] := fun y hy ↦ (nomatch hy)
    obtain ⟨hqueue, hnext⟩ := search_closed hclosed
    have hfound (y : α) : y ∈ (∅ : Finset α) ∨ y ∈ search node next ∅ [i] →
        y ∈ search node next ∅ [i] := fun h ↦ h.resolve_left fun h ↦ (nomatch h)
    -- From any item whose node has been found, the walk stays among the nodes found.
    have hall {j : ι} (hj : ∀ z ∈ node j, z ∈ search node next ∅ [i])
        (h : Reachable node next j x) : x ∈ search node next ∅ [i] := by
      induction h with
      | here h => exact hj _ h
      | step h hk _ ih =>
        exact ih fun z hz ↦ hfound z (hnext _ (.inr (hj _ h)) _ hk z hz)
    exact hall fun z hz ↦ hfound z (hqueue i List.mem_cons_self z hz)

end Search

end EasyBook.Graph

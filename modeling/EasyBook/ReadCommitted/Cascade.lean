import EasyBook.ReadCommitted.Sequential

/-!
# Statements and their triggers, one transaction at a time

What a bulk statement does to a state when the database has triggers: either it would leave two
rows that may not stand together, or it gives the rows it matches their versions (`rewrite_cases`),
and then the statements of the AFTER triggers run, one for each change (`fire_cases`).

A statement that passes leaves no two rows in conflict if there were none before
(`Compatible.modify`, `Compatible.insert`).
-/

namespace ReadCommitted

variable {Tab : Type} {Row : Tab → Type} {Err Key : Type} {Ask : Type} {Ans : Ask → Type}
  [DecidableEq Tab]

namespace Db

variable {S : Schema Row Err} {d d' : Db Row} {τ : Tab}

/-! ### One statement -/

omit [DecidableEq Tab] in
theorem mem_changes {ch : Row τ → Option (Option (Row τ))} {c : ℕ × Row τ × Option (Row τ)} :
    c ∈ d.changes S τ ch ↔ ∃ x, d.row τ c.1 = some c.2.1 ∧ ch c.2.1 = some x ∧
      c.2.2 = x.map (S.before d τ) := by
  obtain ⟨i, r, y⟩ := c
  constructor
  · intro h
    obtain ⟨k, -, hk⟩ := List.mem_filterMap.1 h
    obtain ⟨q, hq, hm⟩ := Option.bind_eq_some_iff.1 hk
    obtain ⟨x, hx, he⟩ := Option.map_eq_some_iff.1 hm
    obtain ⟨rfl, rfl, rfl⟩ : k = i ∧ q = r ∧ x.map (S.before d τ) = y := by simpa using he
    exact ⟨x, hq, hx, rfl⟩
  · rintro ⟨x, hr, hx, rfl⟩
    refine List.mem_filterMap.2 ⟨i, List.mem_range.2 (lt_next hr), ?_⟩
    have hr' : d.row τ i = some r := hr
    have hx' : ch r = some x := hx
    rw [hr', Option.bind_some, hx', Option.map_some]

omit [DecidableEq Tab] in
/-- The versions that a statement hands back, in key order. -/
theorem changes_rows (ch : Row τ → Option (Option (Row τ))) :
    (d.changes S τ ch).map (fun c ↦ c.2.2.getD c.2.1) =
      (d.all τ).filterMap fun r ↦ (ch r).map fun x ↦ (x.map (S.before d τ)).getD r := by
  rw [changes, all, List.map_filterMap, List.filterMap_filterMap]
  refine List.filterMap_congr fun i _ ↦ ?_
  cases d.row τ i with
  | none => rfl
  | some r =>
    rw [Option.bind_some, Option.bind_some]
    cases ch r <;> rfl

/-- What a statement makes of the rows. -/
abbrev written (S : Schema Row Err) (d : Db Row) (τ : Tab) (ch : Row τ → Option (Option (Row τ))) :
    Db Row :=
  d.put τ fun r ↦ (ch r).map fun x ↦ x.map (S.before d τ)

/-- A statement without its AFTER triggers: if it fails, one of its rows would stand next to a row
that it may not stand with. -/
theorem rewrite_cases (ch : Row τ → Option (Option (Row τ))) :
    (∃ e i r r' j q, d.rewrite S τ ch = .error e ∧ d.row τ i = some r ∧ ch r = some (some r') ∧
      j ≠ i ∧ (d.written S τ ch).row τ j = some q ∧ S.conflict τ (S.before d τ r') q = some e) ∨
    d.rewrite S τ ch = .ok (d.changes S τ ch, d.written S τ ch) ∧
      ∀ i r r' j q, d.row τ i = some r → ch r = some (some r') → j ≠ i →
        (d.written S τ ch).row τ j = some q → S.conflict τ (S.before d τ r') q = none := by
  simp only [rewrite]
  split
  · next e he =>
    obtain ⟨⟨i, r'⟩, hp, ho⟩ := List.exists_of_findSome?_eq_some he
    obtain ⟨c, hc, hx⟩ := List.mem_filterMap.1 hp
    obtain ⟨x, hr, hch, hcx⟩ := mem_changes.1 hc
    obtain ⟨r'', hr'', heq⟩ := Option.map_eq_some_iff.1 hx
    obtain ⟨rfl, rfl⟩ := Prod.mk.inj heq
    obtain ⟨j, q, hj, hq, hconf⟩ := obstacle_eq_some ho
    obtain ⟨z, rfl, rfl⟩ := Option.map_eq_some_iff.1 (hcx.symm.trans hr'')
    exact .inl ⟨e, c.1, c.2.1, z, j, q, rfl, hr, hch, hj, hq, hconf⟩
  · next hn =>
    refine .inr ⟨rfl, fun i r r' j q hr hch hj hq ↦ ?_⟩
    have hmem : (i, S.before d τ r') ∈ (d.changes S τ ch).filterMap
        fun c ↦ c.2.2.map fun r ↦ (c.1, r) :=
      List.mem_filterMap.2 ⟨(i, r, some (S.before d τ r')), mem_changes.2 ⟨_, hr, hch, rfl⟩, rfl⟩
    exact obstacle_eq_none (List.findSome?_eq_none_iff.1 hn _ hmem) hj hq

theorem written_row_of_ne {ch : Row τ → Option (Option (Row τ))} {τ' : Tab} (h : τ' ≠ τ) :
    (d.written S τ ch).row τ' = d.row τ' := put_row_of_ne h

/-- An update gives each row it matches a version, as the BEFORE trigger leaves it. -/
theorem written_row_self {ch : Row τ → Option (Row τ)} {i : ℕ} :
    (d.written S τ fun r ↦ (ch r).map some).row τ i =
      (d.row τ i).map fun r ↦ ((ch r).map (S.before d τ)).getD r := by
  rw [written, put_row_self]
  cases d.row τ i with
  | none => rfl
  | some r =>
    rw [Option.bind_some, Option.map_some]
    cases ch r <;> rfl

/-- An insertion: if it fails, the row would stand next to one that it may not stand with. -/
theorem insert_cases (r : Row τ) :
    (∃ e j q, d.insert S τ r = .error e ∧ d.row τ j = some q ∧
      S.conflict τ (S.before d τ r) q = some e) ∨
    d.insert S τ r = .ok (S.before d τ r, d.add τ (S.before d τ r)) := by
  simp only [insert]
  split
  · next e he =>
    obtain ⟨j, q, hj, hq, hc⟩ := obstacle_eq_some he
    rw [add_row_of_ne_next hj] at hq
    exact .inl ⟨e, j, q, rfl, hq, hc⟩
  · exact .inr rfl

/-! ### Triggers -/

/-- The statements of the triggers, one for each change: `P` is what holds while the changes of a
list are still to come. -/
theorem fire_cases {P : List (ℕ × Row τ × Option (Row τ)) → Db Row → Prop} {E : Err → Prop}
    (hskip : ∀ c l d, P (c :: l) d → (∀ new, c.2.2 = some new → S.after τ c.2.1 new = none) → P l d)
    (hstep : ∀ i old new l d τ' ch, P ((i, old, some new) :: l) d →
      S.after τ old new = some ⟨τ', ch⟩ →
      (∃ e, d.rewrite S τ' (fun r ↦ (ch r).map some) = .error e ∧ E e) ∨
        ∃ p, d.rewrite S τ' (fun r ↦ (ch r).map some) = .ok p ∧ P l p.2)
    {l : List (ℕ × Row τ × Option (Row τ))} (h : P l d) :
    (∃ e, d.fire S τ l = .error e ∧ E e) ∨ ∃ d', d.fire S τ l = .ok d' ∧ P [] d' := by
  induction l generalizing d with
  | nil => exact .inr ⟨d, rfl, h⟩
  | cons c l ih =>
    obtain ⟨i, old, - | new⟩ := c
    · exact ih (hskip _ _ _ h fun _ hn ↦ (nomatch hn))
    · simp only [fire]
      cases ha : S.after τ old new with
      | none =>
        refine ih (hskip _ _ _ h fun q hq ↦ ?_)
        obtain rfl := Option.some.inj hq
        exact ha
      | some p =>
        obtain ⟨τ', ch⟩ := p
        rcases hstep i old new l d τ' ch h ha with ⟨e, he, hE⟩ | ⟨p, hp, hP⟩
        · exact .inl ⟨e, by simp only [he, Except.bind], hE⟩
        · simp only [hp, Except.bind]
          exact ih hP

/-! ### Constraints -/

/-- No two rows of a table are in conflict. -/
def Compatible (S : Schema Row Err) (d : Db Row) : Prop :=
  ∀ τ i j r q, i ≠ j → d.row τ i = some r → d.row τ j = some q → S.conflict τ r q = none

namespace Compatible

omit [DecidableEq Tab] in
/-- What a transaction sees of a store whose versions are compatible. -/
theorem view {σ : Store Row} (h : ReadCommitted.Compatible S σ) (v : Option ℕ) :
    (σ.view v).Compatible S := by
  intro τ i j r q hij hr hq
  cases v with
  | none =>
    exact h.committed hij ((Cell.seen_none _).symm.trans hr) ((Cell.seen_none _).symm.trans hq)
  | some t => exact h.seen hij hr hq

theorem rewrite (h : d.Compatible S) {ch : Row τ → Option (Row τ)}
    {p : List (ℕ × Row τ × Option (Row τ)) × Db Row}
    (hok : d.rewrite S τ (fun r ↦ (ch r).map some) = .ok p) : p.2.Compatible S := by
  rcases rewrite_cases (S := S) (d := d) fun r ↦ (ch r).map some with
    ⟨e, _, _, _, _, _, he, -⟩ | ⟨hd, hfree⟩
  · rw [he] at hok
    cases hok
  obtain rfl := Except.ok.inj (hd.symm.trans hok)
  intro τ' i j r q hij hr hq
  by_cases hτ : τ' = τ
  · subst hτ
    -- a row that is written was checked, and two that are not stood together before
    have hwritten : ∀ {i j r q}, i ≠ j →
        (d.written S τ' fun r ↦ (ch r).map some).row τ' i = some r →
        (d.written S τ' fun r ↦ (ch r).map some).row τ' j = some q →
        S.conflict τ' r q = none ∨ d.row τ' i = some r := fun {i j r q} hij hr hq ↦ by
      rw [written_row_self] at hr
      obtain ⟨r₀, hr₀, rfl⟩ := Option.map_eq_some_iff.1 hr
      cases hc : ch r₀ with
      | none => exact .inr hr₀
      | some r' => exact .inl (hfree i r₀ r' j q hr₀ (by rw [hc]; rfl) hij.symm hq)
    rcases hwritten hij hr hq with hnone | hr₀
    · exact hnone
    rcases hwritten hij.symm hq hr with hnone | hq₀
    · exact S.conflict_symm hnone
    · exact h _ _ _ _ _ hij hr₀ hq₀
  · have hrow : ∀ k, (d.written S τ fun r ↦ (ch r).map some).row τ' k = d.row τ' k := fun k ↦ by
      rw [written_row_of_ne hτ]
    exact h _ _ _ _ _ hij ((hrow i).symm.trans hr) ((hrow j).symm.trans hq)

/-- A whole bulk statement. -/
theorem modify (h : d.Compatible S) {ch : Row τ → Option (Row τ)} {p : List (Row τ) × Db Row}
    (hok : d.modify S τ (fun r ↦ (ch r).map some) = .ok p) : p.2.Compatible S := by
  simp only [Db.modify] at hok
  cases hrw : d.rewrite S τ fun r ↦ (ch r).map some with
  | error e =>
    rw [hrw] at hok
    cases hok
  | ok p₁ =>
    rw [hrw] at hok
    have hfire := fire_cases (S := S) (P := fun _ d ↦ d.Compatible S) (E := fun _ ↦ True)
      (fun _ _ _ h _ ↦ h) (fun i old new l d τ' ch' h _ ↦ by
        cases hd : d.rewrite S τ' fun r ↦ (ch' r).map some with
        | error e => exact .inl ⟨e, rfl, trivial⟩
        | ok p => exact .inr ⟨p, rfl, h.rewrite hd⟩) (l := p₁.1) (h.rewrite hrw)
    rcases hfire with ⟨e, he, -⟩ | ⟨d₂, hd₂, hcompatible⟩
    · simp only [Except.bind, he] at hok
      cases hok
    · simp only [Except.bind, hd₂] at hok
      exact Except.ok.inj hok ▸ hcompatible

theorem insert (h : d.Compatible S) {r r' : Row τ} (hok : d.insert S τ r = .ok (r', d')) :
    d'.Compatible S := by
  simp only [Db.insert] at hok
  split at hok
  · cases hok
  next hn =>
  obtain ⟨rfl, rfl⟩ := Prod.mk.inj (Except.ok.inj hok)
  intro τ' i j q q' hij hq hq'
  rcases add_row_eq_some hq with hq₀ | ⟨rfl, rfl, rfl⟩
  · rcases add_row_eq_some hq' with hq₀' | ⟨rfl, rfl, rfl⟩
    · exact h _ _ _ _ _ hij hq₀ hq₀'
    · exact S.conflict_symm (obstacle_eq_none hn hij hq)
  · exact obstacle_eq_none hn hij.symm hq'

end Compatible

end Db

end ReadCommitted

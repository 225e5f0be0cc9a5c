import EasyBook.Ecma.OrderedMap
import EasyBook.Thai.Sanitize

/-!
# The Thai backfill

`sanitize-thai-backfill.ts` puts the rows of a column through the sanitiser. `planChanges` makes the
whole plan before the first write, so that no write breaks the unique index on the names of active
rows. What the plan promises rests on the sanitiser leaving what it has sanitised alone, and fails
for a deleted row whose new name two active rows share (`backfill_lawful_iff`).
-/

namespace EasyBook.Thai

open JsString

variable {ι : Type*}

/-- `RowValue`. -/
structure RowValue (ι : Type*) where
  id : ι
  value : JsString
  deletedAt : Option ℤ
  deriving DecidableEq

/-- `Change`. -/
structure Change (ι : Type*) where
  id : ι
  before : JsString
  after : JsString
  deriving DecidableEq

/-- `Collision`. -/
structure Collision (ι : Type*) extends Change ι where
  conflictsWith : List ι
  deriving DecidableEq

/-- `Plan`. -/
structure Plan (ι : Type*) where
  changes : List (Change ι)
  collisions : List (Collision ι)
  deriving DecidableEq

section

variable [DecidableEq ι] (nfc : JsString → JsString)

/-- `after`. -/
def finalNames (rows : List (RowValue ι)) : List (ι × JsString) :=
  mapSetAll [] (rows.map fun row ↦ (row.id, sanitizeThaiText nfc row.value))

/-- `after.get(id)!`. -/
def finalName (rows : List (RowValue ι)) (id : ι) : JsString :=
  ((finalNames nfc rows).lookup id).getD []

/-- `activeIdsByFinalName`. -/
def activeIdsByFinalName (rows : List (RowValue ι)) (activeNameIsUnique : Bool) :
    List (JsString × List ι) :=
  if activeNameIsUnique then
    groupBy (finalName nfc rows) ((rows.filter fun row ↦ row.deletedAt.isNone).map RowValue.id)
  else []

/-- A round of the loop of `planChanges`. -/
def planRow (rows : List (RowValue ι)) (activeNameIsUnique : Bool) (plan : Plan ι)
    (row : RowValue ι) : Plan ι :=
  let next := finalName nfc rows row.id
  if next = row.value then plan
  else
    let sharing := ((activeIdsByFinalName nfc rows activeNameIsUnique).lookup next).getD []
    if 1 < sharing.length then
      { plan with collisions := plan.collisions ++
          [{ id := row.id, before := row.value, after := next
             conflictsWith := sharing.filter fun other ↦ other ≠ row.id }] }
    else { plan with changes := plan.changes ++ [⟨row.id, row.value, next⟩] }

/-- `planChanges`. -/
def planChanges (rows : List (RowValue ι)) (activeNameIsUnique : Bool) : Plan ι :=
  rows.foldl (planRow nfc rows activeNameIsUnique) ⟨[], []⟩

/-- The rows after the write of a change. -/
def write (rows : List (RowValue ι)) (c : Change ι) : List (RowValue ι) :=
  rows.map fun row ↦ if row.id = c.id then { row with value := c.after } else row

/-- The rows after some writes. -/
def writeAll (rows : List (RowValue ι)) (changes : List (Change ι)) : List (RowValue ι) :=
  changes.foldl write rows

end

/-! ### What a plan promises -/

/-- The partial index: no two active rows have the same name. -/
def UniqueNames (rows : List (RowValue ι)) : Prop :=
  ∀ r ∈ rows, ∀ r' ∈ rows, r.deletedAt = none → r'.deletedAt = none → r.value = r'.value →
    r.id = r'.id

instance [DecidableEq ι] (rows : List (RowValue ι)) : Decidable (UniqueNames rows) :=
  inferInstanceAs (Decidable (∀ r ∈ rows, _))

/-- Another active row will have the same name. -/
def Shared (nfc : JsString → JsString) (rows : List (RowValue ι)) (row : RowValue ι) : Prop :=
  ∃ r ∈ rows, r.deletedAt = none ∧ r.id ≠ row.id ∧
    sanitizeThaiText nfc r.value = sanitizeThaiText nfc row.value

/-- The plan for the rows is safe, complete and final. -/
structure Lawful [DecidableEq ι] (nfc : JsString → JsString) (rows : List (RowValue ι)) :
    Prop where
  /-- Any of the changes may be written, in any order. -/
  safe : ∀ changes, changes.Subperm (planChanges nfc rows true).changes →
    UniqueNames (writeAll rows changes)
  /-- Every row that differs is in the plan, once. -/
  complete : ∀ row ∈ rows, sanitizeThaiText nfc row.value ≠ row.value →
    Xor (∃ c ∈ (planChanges nfc rows true).changes, c.id = row.id)
      (∃ c ∈ (planChanges nfc rows true).collisions, c.id = row.id)
  /-- It is a collision if it is active and shares its name with another active row. -/
  collides : ∀ row ∈ rows, sanitizeThaiText nfc row.value ≠ row.value →
    ((∃ c ∈ (planChanges nfc rows true).collisions, c.id = row.id) ↔
      row.deletedAt = none ∧ Shared nfc rows row)
  /-- Without the index every row that differs is a change. -/
  unconstrained : ∀ row ∈ rows, sanitizeThaiText nfc row.value ≠ row.value →
    ⟨row.id, row.value, sanitizeThaiText nfc row.value⟩ ∈ (planChanges nfc rows false).changes
  /-- A second plan finds nothing to change. -/
  final : ∀ unique, planChanges nfc (writeAll rows (planChanges nfc rows unique).changes) unique =
    ⟨[], (planChanges nfc rows unique).collisions⟩

/-! ### The plan, row by row -/

section

variable [DecidableEq ι] {nfc : JsString → JsString} {rows : List (RowValue ι)} {row : RowValue ι}
  {unique : Bool}

theorem finalName_of_mem (hids : (rows.map RowValue.id).Nodup) (hrow : row ∈ rows) :
    finalName nfc rows row.id = sanitizeThaiText nfc row.value := by
  have hentries : ((rows.map fun row ↦ (row.id, sanitizeThaiText nfc row.value)).reverse.map
      Prod.fst).Nodup := by
    rw [List.map_reverse, List.nodup_reverse, List.map_map]
    exact hids
  have hlookup := lookup_of_mem hentries
    (List.mem_reverse.2 (List.mem_map.2 ⟨row, hrow, rfl⟩))
  rw [finalName, finalNames, lookup_mapSetAll, hlookup]
  rfl

/-- The active rows that will have a name. -/
def sharers (nfc : JsString → JsString) (rows : List (RowValue ι)) (name : JsString) : List ι :=
  (rows.filter fun r ↦ r.deletedAt.isNone && sanitizeThaiText nfc r.value = name).map RowValue.id

theorem lookup_activeIds (hids : (rows.map RowValue.id).Nodup) (name : JsString) :
    ((activeIdsByFinalName nfc rows true).lookup name).getD [] = sharers nfc rows name := by
  rw [activeIdsByFinalName, if_pos rfl, lookup_groupBy, sharers, List.filter_map,
    List.filter_filter]
  congr 1
  refine List.filter_congr fun r hr ↦ ?_
  simp only [Function.comp_apply, finalName_of_mem hids hr, Bool.and_comm]

/-- The row is left out of the changes. -/
def Clashes (nfc : JsString → JsString) (rows : List (RowValue ι)) (unique : Bool)
    (row : RowValue ι) : Prop :=
  unique ∧ 1 < (sharers nfc rows (sanitizeThaiText nfc row.value)).length

instance : Decidable (Clashes nfc rows unique row) := inferInstanceAs (Decidable (_ ∧ _))

/-- The change planned for a row. -/
def changeOf (nfc : JsString → JsString) (rows : List (RowValue ι)) (unique : Bool)
    (row : RowValue ι) : Option (Change ι) :=
  if sanitizeThaiText nfc row.value ≠ row.value ∧ ¬ Clashes nfc rows unique row then
    some ⟨row.id, row.value, sanitizeThaiText nfc row.value⟩
  else none

/-- The collision noted for a row. -/
def collisionOf (nfc : JsString → JsString) (rows : List (RowValue ι)) (unique : Bool)
    (row : RowValue ι) : Option (Collision ι) :=
  if sanitizeThaiText nfc row.value ≠ row.value ∧ Clashes nfc rows unique row then
    some { id := row.id, before := row.value, after := sanitizeThaiText nfc row.value
           conflictsWith := (sharers nfc rows (sanitizeThaiText nfc row.value)).filter
             fun other ↦ other ≠ row.id }
  else none

theorem planRow_eq (hids : (rows.map RowValue.id).Nodup) (hrow : row ∈ rows) (plan : Plan ι) :
    planRow nfc rows unique plan row =
      ⟨plan.changes ++ (changeOf nfc rows unique row).toList,
        plan.collisions ++ (collisionOf nfc rows unique row).toList⟩ := by
  unfold planRow changeOf collisionOf
  dsimp only
  rw [finalName_of_mem hids hrow]
  by_cases hsame : sanitizeThaiText nfc row.value = row.value
  · simp [hsame]
  · cases unique with
    | false => simp [hsame, activeIdsByFinalName, Clashes]
    | true =>
      rw [lookup_activeIds hids]
      by_cases hmany : 1 < (sharers nfc rows (sanitizeThaiText nfc row.value)).length <;>
        simp [hsame, Clashes, hmany]

/-- The plan is made row by row. -/
theorem planChanges_eq (hids : (rows.map RowValue.id).Nodup) : planChanges nfc rows unique =
    ⟨rows.filterMap (changeOf nfc rows unique), rows.filterMap (collisionOf nfc rows unique)⟩ := by
  have hfold (rest : List (RowValue ι)) (hrest : rest ⊆ rows) (plan : Plan ι) :
      rest.foldl (planRow nfc rows unique) plan =
        ⟨plan.changes ++ rest.filterMap (changeOf nfc rows unique),
          plan.collisions ++ rest.filterMap (collisionOf nfc rows unique)⟩ := by
    induction rest generalizing plan with
    | nil => simp
    | cons row rest ih =>
      obtain ⟨hrow, hrest⟩ := List.cons_subset.1 hrest
      rw [List.foldl_cons, planRow_eq hids hrow, ih hrest]
      simp only [List.filterMap_cons]
      cases changeOf nfc rows unique row <;> cases collisionOf nfc rows unique row <;> simp
  exact (hfold rows (List.Subset.refl rows) ⟨[], []⟩).trans (by simp)

/-! ### Writing -/

/-- The rows with the sanitised name for some of them. -/
def renamed (nfc : JsString → JsString) (rows : List (RowValue ι)) (ids : List ι) :
    List (RowValue ι) :=
  rows.map fun row ↦
    if row.id ∈ ids then { row with value := sanitizeThaiText nfc row.value } else row

omit [DecidableEq ι] in
theorem eq_of_id_eq (hids : (rows.map RowValue.id).Nodup) {r r' : RowValue ι} (hr : r ∈ rows)
    (hr' : r' ∈ rows) (h : r.id = r'.id) : r = r' := List.inj_on_of_nodup_map hids hr hr' h

theorem exists_of_mem_changes (hids : (rows.map RowValue.id).Nodup) {c : Change ι}
    (hc : c ∈ (planChanges nfc rows unique).changes) : ∃ row ∈ rows,
      c = ⟨row.id, row.value, sanitizeThaiText nfc row.value⟩ ∧
        sanitizeThaiText nfc row.value ≠ row.value ∧ ¬ Clashes nfc rows unique row := by
  rw [planChanges_eq hids] at hc
  obtain ⟨row, hrow, hchange⟩ := List.mem_filterMap.1 hc
  unfold changeOf at hchange
  split_ifs at hchange with h
  exact ⟨row, hrow, (Option.some.inj hchange).symm, h.1, h.2⟩

theorem exists_change_iff (hids : (rows.map RowValue.id).Nodup) (hrow : row ∈ rows)
    (hdiffers : sanitizeThaiText nfc row.value ≠ row.value) :
    (∃ c ∈ (planChanges nfc rows unique).changes, c.id = row.id) ↔
      ¬ Clashes nfc rows unique row := by
  constructor
  · rintro ⟨c, hc, hid⟩
    obtain ⟨r, hr, rfl, -, hclash⟩ := exists_of_mem_changes hids hc
    rwa [← eq_of_id_eq hids hr hrow hid]
  · intro hclash
    refine ⟨⟨row.id, row.value, sanitizeThaiText nfc row.value⟩, ?_, rfl⟩
    rw [planChanges_eq hids]
    exact List.mem_filterMap.2 ⟨row, hrow, if_pos ⟨hdiffers, hclash⟩⟩

theorem exists_collision_iff (hids : (rows.map RowValue.id).Nodup) (hrow : row ∈ rows)
    (hdiffers : sanitizeThaiText nfc row.value ≠ row.value) :
    (∃ c ∈ (planChanges nfc rows unique).collisions, c.id = row.id) ↔
      Clashes nfc rows unique row := by
  rw [planChanges_eq hids]
  constructor
  · rintro ⟨c, hc, hid⟩
    obtain ⟨r, hr, hcollision⟩ := List.mem_filterMap.1 hc
    unfold collisionOf at hcollision
    split_ifs at hcollision with h
    obtain rfl := Option.some.inj hcollision
    rw [← eq_of_id_eq hids hr hrow hid]
    exact h.2
  · intro hclash
    exact ⟨_, List.mem_filterMap.2 ⟨row, hrow, if_pos ⟨hdiffers, hclash⟩⟩, rfl⟩

/-- Writing a change of the plan. -/
theorem write_renamed (hids : (rows.map RowValue.id).Nodup) (ids : List ι) {c : Change ι}
    (hc : c ∈ (planChanges nfc rows unique).changes) :
    write (renamed nfc rows ids) c = renamed nfc rows (c.id :: ids) := by
  obtain ⟨row, hrow, rfl, -, -⟩ := exists_of_mem_changes hids hc
  rw [write, renamed, renamed, List.map_map]
  refine List.map_congr_left fun r hr ↦ ?_
  by_cases hid : r.id = row.id
  · obtain rfl := eq_of_id_eq hids hr hrow hid
    by_cases hmem : r.id ∈ ids <;> simp [hmem]
  · by_cases hmem : r.id ∈ ids <;> simp [hmem, hid]

theorem renamed_congr {ids ids' : List ι} (h : ∀ id, id ∈ ids ↔ id ∈ ids') :
    renamed nfc rows ids = renamed nfc rows ids' := by
  unfold renamed
  simp only [h]

/-- What is written is the sanitised name of the rows of the changes. -/
theorem writeAll_eq (hids : (rows.map RowValue.id).Nodup) {changes : List (Change ι)}
    (hchanges : changes ⊆ (planChanges nfc rows unique).changes) :
    writeAll rows changes = renamed nfc rows (changes.map Change.id) := by
  have hfold (changes : List (Change ι)) (ids : List ι)
      (hchanges : changes ⊆ (planChanges nfc rows unique).changes) :
      changes.foldl write (renamed nfc rows ids) =
        renamed nfc rows (changes.map Change.id ++ ids) := by
    induction changes generalizing ids with
    | nil => rfl
    | cons c changes ih =>
      obtain ⟨hc, hrest⟩ := List.cons_subset.1 hchanges
      rw [List.foldl_cons, write_renamed hids ids hc, ih _ hrest]
      refine renamed_congr fun id ↦ ?_
      simp only [List.map_cons, List.cons_append, List.mem_append, List.mem_cons]
      tauto
  have hstart : renamed nfc rows [] = rows :=
    (List.map_congr_left fun r _ ↦ if_neg List.not_mem_nil).trans (List.map_id rows)
  have hall := hfold changes [] hchanges
  rwa [hstart, List.append_nil] at hall

/-! ### Rows that share a name -/

omit [DecidableEq ι] in
theorem mem_sharers {name : JsString} {id : ι} : id ∈ sharers nfc rows name ↔
    ∃ r ∈ rows, r.deletedAt = none ∧ sanitizeThaiText nfc r.value = name ∧ r.id = id := by
  simp only [sharers, List.mem_map, List.mem_filter, Bool.and_eq_true, Option.isNone_iff_eq_none,
    decide_eq_true_eq, and_assoc]

omit [DecidableEq ι] in
theorem nodup_sharers (hids : (rows.map RowValue.id).Nodup) (name : JsString) :
    (sharers nfc rows name).Nodup :=
  hids.sublist (List.filter_sublist.map _)

/-- More than one means two different ones. -/
theorem one_lt_sharers_iff (hids : (rows.map RowValue.id).Nodup) {name : JsString} :
    1 < (sharers nfc rows name).length ↔
      ∃ id ∈ sharers nfc rows name, ∃ id' ∈ sharers nfc rows name, id ≠ id' := by
  rw [← List.toFinset_card_of_nodup (nodup_sharers hids name), Finset.one_lt_card]
  simp only [List.mem_toFinset]

/-- An active row clashes if it shares its name. -/
theorem clashes_iff_shared (hids : (rows.map RowValue.id).Nodup) (hrow : row ∈ rows)
    (hactive : row.deletedAt = none) : Clashes nfc rows true row ↔ Shared nfc rows row := by
  have hown : row.id ∈ sharers nfc rows (sanitizeThaiText nfc row.value) :=
    mem_sharers.2 ⟨row, hrow, hactive, rfl, rfl⟩
  constructor
  · rintro ⟨-, hmany⟩
    obtain ⟨id, hid, id', hid', hne⟩ := (one_lt_sharers_iff hids).1 hmany
    obtain ⟨other, hother, hdiff⟩ : ∃ other ∈ sharers nfc rows (sanitizeThaiText nfc row.value),
        other ≠ row.id := by
      by_cases h : id = row.id
      · exact ⟨id', hid', fun h' ↦ hne (h.trans h'.symm)⟩
      · exact ⟨id, hid, h⟩
    obtain ⟨r, hr, hractive, hname, rfl⟩ := mem_sharers.1 hother
    exact ⟨r, hr, hractive, hdiff, hname⟩
  · rintro ⟨r, hr, hractive, hdiff, hname⟩
    exact ⟨rfl, (one_lt_sharers_iff hids).2
      ⟨r.id, mem_sharers.2 ⟨r, hr, hractive, hname, rfl⟩, row.id, hown, hdiff⟩⟩

/-! ### When the plan keeps its promises -/

/-- A deleted row whose new name two active rows share. -/
def Crowded (nfc : JsString → JsString) (rows : List (RowValue ι)) (row : RowValue ι) : Prop :=
  row.deletedAt ≠ none ∧ sanitizeThaiText nfc row.value ≠ row.value ∧
    ∃ r ∈ rows, ∃ r' ∈ rows, r.deletedAt = none ∧ r'.deletedAt = none ∧ r.id ≠ r'.id ∧
      sanitizeThaiText nfc r.value = sanitizeThaiText nfc row.value ∧
      sanitizeThaiText nfc r'.value = sanitizeThaiText nfc row.value

theorem crowded_iff (hids : (rows.map RowValue.id).Nodup) : Crowded nfc rows row ↔
    row.deletedAt ≠ none ∧ sanitizeThaiText nfc row.value ≠ row.value ∧
      Clashes nfc rows true row := by
  refine and_congr_right fun _ ↦ and_congr_right fun _ ↦ ?_
  constructor
  · rintro ⟨r, hr, r', hr', hactive, hactive', hne, hname, hname'⟩
    exact ⟨rfl, (one_lt_sharers_iff hids).2 ⟨r.id, mem_sharers.2 ⟨r, hr, hactive, hname, rfl⟩,
      r'.id, mem_sharers.2 ⟨r', hr', hactive', hname', rfl⟩, hne⟩⟩
  · rintro ⟨-, hmany⟩
    obtain ⟨id, hid, id', hid', hne⟩ := (one_lt_sharers_iff hids).1 hmany
    obtain ⟨r, hr, hactive, hname, rfl⟩ := mem_sharers.1 hid
    obtain ⟨r', hr', hactive', hname', rfl⟩ := mem_sharers.1 hid'
    exact ⟨r, hr, r', hr', hactive, hactive', hne, hname, hname'⟩

/-- The sanitiser leaves the sanitised names alone. -/
def Stable (nfc : JsString → JsString) (rows : List (RowValue ι)) : Prop :=
  ∀ row ∈ rows, sanitizeThaiText nfc (sanitizeThaiText nfc row.value) =
    sanitizeThaiText nfc row.value

instance : Decidable (Stable nfc rows) := inferInstanceAs (Decidable (∀ r ∈ rows, _))

/-- With stable names a changed row has its name for itself, before and after. -/
theorem safe_of_stable (hids : (rows.map RowValue.id).Nodup) (hnames : UniqueNames rows)
    (hstable : Stable nfc rows) {changes : List (Change ι)}
    (hchanges : changes ⊆ (planChanges nfc rows true).changes) :
    UniqueNames (writeAll rows changes) := by
  rw [writeAll_eq hids hchanges]
  -- A row of the changes shares its final name with no active row.
  have halone {r r' : RowValue ι} (hr : r ∈ rows) (hr' : r' ∈ rows) (hactive : r.deletedAt = none)
      (hactive' : r'.deletedAt = none) (hmem : r.id ∈ changes.map Change.id)
      (hname : sanitizeThaiText nfc r'.value = sanitizeThaiText nfc r.value) : r'.id = r.id := by
    obtain ⟨c, hc, hid⟩ := List.mem_map.1 hmem
    obtain ⟨row, hrow, rfl, -, hclash⟩ := exists_of_mem_changes hids (hchanges hc)
    obtain rfl := eq_of_id_eq hids hrow hr hid
    by_contra hne
    exact hclash ((clashes_iff_shared hids hr hactive).2 ⟨r', hr', hactive', hne, hname⟩)
  intro x hx x' hx' hactive hactive' heq
  obtain ⟨r, hr, rfl⟩ := List.mem_map.1 hx
  obtain ⟨r', hr', rfl⟩ := List.mem_map.1 hx'
  by_cases hmem : r.id ∈ changes.map Change.id <;>
    by_cases hmem' : r'.id ∈ changes.map Change.id <;>
    simp only [hmem, hmem', if_true, if_false] at hactive hactive' heq ⊢
  · exact (halone hr hr' hactive hactive' hmem heq.symm).symm
  · refine (halone hr hr' hactive hactive' hmem ?_).symm
    rw [← heq, hstable r hr]
  · refine halone hr' hr hactive' hactive hmem' ?_
    rw [heq, hstable r' hr']
  · exact hnames r hr r' hr' hactive hactive' heq

/-- After the changes the rows have the same final names. -/
theorem sharers_renamed (hstable : Stable nfc rows) (ids : List ι) (name : JsString) :
    sharers nfc (renamed nfc rows ids) name = sharers nfc rows name := by
  rw [sharers, renamed, List.filter_map, List.map_map, sharers]
  have hid : (RowValue.id ∘ fun row : RowValue ι ↦
      if row.id ∈ ids then { row with value := sanitizeThaiText nfc row.value } else row) =
      RowValue.id := by
    funext row
    by_cases h : row.id ∈ ids <;> simp [h]
  rw [hid]
  congr 1
  refine List.filter_congr fun row hrow ↦ ?_
  by_cases h : row.id ∈ ids <;> simp [h, hstable row hrow]

/-- A row that clashes is as it was, and still clashes. -/
theorem collisionOf_renamed (hstable : Stable nfc rows) {ids : List ι} (hrow : row ∈ rows)
    (hids : row.id ∈ ids ↔ changeOf nfc rows unique row ≠ none) :
    collisionOf nfc (renamed nfc rows ids) unique
        (if row.id ∈ ids then { row with value := sanitizeThaiText nfc row.value } else row) =
      collisionOf nfc rows unique row := by
  have hclashes : Clashes nfc (renamed nfc rows ids) unique row ↔ Clashes nfc rows unique row := by
    unfold Clashes
    rw [sharers_renamed hstable]
  by_cases hmem : row.id ∈ ids
  · have hchange := hids.1 hmem
    unfold changeOf at hchange
    have hcond : sanitizeThaiText nfc row.value ≠ row.value ∧ ¬ Clashes nfc rows unique row :=
      not_not.1 fun hnot ↦ hchange (if_neg hnot)
    unfold collisionOf
    rw [if_pos hmem, if_neg fun h ↦ h.1 (hstable row hrow), if_neg fun h ↦ hcond.2 h.2]
  · unfold collisionOf
    rw [if_neg hmem]
    simp only [hclashes, sharers_renamed hstable]

/-- Nothing is left to change. -/
theorem changeOf_renamed (hstable : Stable nfc rows) {ids : List ι} (hrow : row ∈ rows)
    (hids : row.id ∈ ids ↔ changeOf nfc rows unique row ≠ none) :
    changeOf nfc (renamed nfc rows ids) unique
        (if row.id ∈ ids then { row with value := sanitizeThaiText nfc row.value } else row) =
      none := by
  by_cases hmem : row.id ∈ ids
  · unfold changeOf
    rw [if_pos hmem]
    exact if_neg fun h ↦ h.1 (hstable row hrow)
  · have hchange : changeOf nfc rows unique row = none := not_not.1 (mt hids.2 hmem)
    rw [if_neg hmem]
    unfold changeOf at hchange ⊢
    refine if_neg fun h ↦ ?_
    have hclash : ¬ Clashes nfc rows unique row := by
      intro hclash
      refine h.2 ?_
      unfold Clashes at hclash ⊢
      rwa [sharers_renamed hstable]
    rw [if_pos ⟨h.1, hclash⟩] at hchange
    exact nomatch hchange

theorem nodup_renamed (hids : (rows.map RowValue.id).Nodup) (ids : List ι) :
    ((renamed nfc rows ids).map RowValue.id).Nodup := by
  have hsame : (renamed nfc rows ids).map RowValue.id = rows.map RowValue.id := by
    rw [renamed, List.map_map]
    refine List.map_congr_left fun row _ ↦ ?_
    by_cases h : row.id ∈ ids <;> simp [h]
  rwa [hsame]

/-- With stable names a second plan has the collisions of the first, and no change. -/
theorem final_of_stable (hids : (rows.map RowValue.id).Nodup) (hstable : Stable nfc rows) :
    planChanges nfc (writeAll rows (planChanges nfc rows unique).changes) unique =
      ⟨[], (planChanges nfc rows unique).collisions⟩ := by
  rw [writeAll_eq hids (List.Subset.refl _)]
  set ids := (planChanges nfc rows unique).changes.map Change.id with hidsdef
  have hmem {row : RowValue ι} (hrow : row ∈ rows) :
      row.id ∈ ids ↔ changeOf nfc rows unique row ≠ none := by
    rw [hidsdef, planChanges_eq hids]
    constructor
    · intro h
      obtain ⟨c, hc, hid⟩ := List.mem_map.1 h
      obtain ⟨r, hr, hchange⟩ := List.mem_filterMap.1 hc
      have hrid : c.id = r.id := by
        unfold changeOf at hchange
        split_ifs at hchange
        rw [← Option.some.inj hchange]
      rw [← eq_of_id_eq hids hr hrow (hrid.symm.trans hid), hchange]
      exact Option.some_ne_none c
    · intro h
      obtain ⟨c, hc⟩ := Option.ne_none_iff_exists'.1 h
      refine List.mem_map.2 ⟨c, List.mem_filterMap.2 ⟨row, hrow, hc⟩, ?_⟩
      unfold changeOf at hc
      split_ifs at hc
      rw [← Option.some.inj hc]
  rw [planChanges_eq (nodup_renamed hids ids), planChanges_eq hids]
  congr 1
  · conv_lhs => rw [renamed, List.filterMap_map]
    exact List.filterMap_eq_nil_iff.2 fun row hrow ↦ changeOf_renamed hstable hrow (hmem hrow)
  · conv_lhs => rw [renamed, List.filterMap_map]
    exact List.filterMap_congr fun row hrow ↦ collisionOf_renamed hstable hrow (hmem hrow)

/-- Without the index a plan is final only if the names are stable. -/
theorem stable_of_final (hids : (rows.map RowValue.id).Nodup)
    (hfinal : planChanges nfc (writeAll rows (planChanges nfc rows false).changes) false =
      ⟨[], (planChanges nfc rows false).collisions⟩) (hrow : row ∈ rows)
    (hdiffers : sanitizeThaiText nfc row.value ≠ row.value) :
    sanitizeThaiText nfc (sanitizeThaiText nfc row.value) = sanitizeThaiText nfc row.value := by
  have hmem : row.id ∈ (planChanges nfc rows false).changes.map Change.id := by
    obtain ⟨c, hc, hid⟩ :=
      (exists_change_iff hids hrow hdiffers).2 fun hclash ↦ Bool.false_ne_true hclash.1
    exact List.mem_map.2 ⟨c, hc, hid⟩
  rw [writeAll_eq hids (List.Subset.refl _), planChanges_eq (nodup_renamed hids _)] at hfinal
  have hnone := List.filterMap_eq_nil_iff.1 (congrArg Plan.changes hfinal)
    { row with value := sanitizeThaiText nfc row.value }
    (List.mem_map.2 ⟨row, hrow, if_pos hmem⟩)
  by_contra hunstable
  unfold changeOf at hnone
  rw [if_pos ⟨hunstable, fun hclash ↦ Bool.false_ne_true hclash.1⟩] at hnone
  exact nomatch hnone

/-- **When the plan is safe, complete and final.** Exactly when sanitising twice is sanitising once
for every row, and no deleted row that differs is crowded out by two active ones. -/
theorem backfill_lawful_iff (nfc : JsString → JsString) (rows : List (RowValue ι))
    (hids : (rows.map RowValue.id).Nodup) (hnames : UniqueNames rows) :
    Lawful nfc rows ↔ Stable nfc rows ∧ ∀ row ∈ rows, ¬ Crowded nfc rows row := by
  constructor
  · intro h
    refine ⟨fun row hrow ↦ ?_, fun row hrow hcrowded ↦ ?_⟩
    · by_cases hdiffers : sanitizeThaiText nfc row.value = row.value
      · rw [hdiffers, hdiffers]
      · exact stable_of_final hids (h.final false) hrow hdiffers
    · obtain ⟨hdeleted, hdiffers, hclash⟩ := (crowded_iff hids).1 hcrowded
      exact hdeleted ((h.collides row hrow hdiffers).1
        ((exists_collision_iff hids hrow hdiffers).2 hclash)).1
  · rintro ⟨hstable, hcrowded⟩
    refine ⟨fun changes hchanges ↦ safe_of_stable hids hnames hstable hchanges.subset,
      fun row hrow hdiffers ↦ ?_, fun row hrow hdiffers ↦ ?_, fun row hrow hdiffers ↦ ?_,
      fun unique ↦ final_of_stable hids hstable⟩
    · rw [exists_change_iff hids hrow hdiffers, exists_collision_iff hids hrow hdiffers]
      by_cases hclash : Clashes nfc rows true row
      · exact .inr ⟨hclash, not_not.2 hclash⟩
      · exact .inl ⟨hclash, hclash⟩
    · rw [exists_collision_iff hids hrow hdiffers]
      constructor
      · intro hclash
        have hactive : row.deletedAt = none := not_not.1 fun hdeleted ↦
          hcrowded row hrow ((crowded_iff hids).2 ⟨hdeleted, hdiffers, hclash⟩)
        exact ⟨hactive, (clashes_iff_shared hids hrow hactive).1 hclash⟩
      · rintro ⟨hactive, hshared⟩
        exact (clashes_iff_shared hids hrow hactive).2 hshared
    · rw [planChanges_eq hids]
      exact List.mem_filterMap.2 ⟨row, hrow, if_pos ⟨hdiffers, fun hclash ↦ nomatch hclash.1⟩⟩

end

/-- A row with SARA E twice, next to one that is in order. -/
theorem lawful_two_rows : Lawful (reorder thaiClass)
    [⟨1, [0x0E40, 0x0E40, 0x0E01], none⟩, ⟨2, [0x0E01], none⟩] :=
  (backfill_lawful_iff (reorder thaiClass)
    [⟨1, [0x0E40, 0x0E40, 0x0E01], none⟩, ⟨2, [0x0E01], none⟩]
    (by decide) (by decide)).2 ⟨by decide, fun row hrow hcrowded ↦ hcrowded.1 (by
      rcases List.mem_pair.1 hrow with rfl | rfl <;> rfl)⟩

/-- A deleted row counts as a collision when two active rows share its new name, and a change writes
a name that another row has not given up yet. -/
theorem backfill_not_lawful :
    ¬ Lawful (reorder thaiClass)
      [⟨1, [0x0E41, 0x0E01], none⟩, ⟨2, [0x0E41, 0x200B, 0x0E01], none⟩,
        ⟨3, [0x0E40, 0x0E40, 0x0E01], some 0⟩] ∧
    ¬ Lawful (reorder thaiClass)
      [⟨1, [0x0E1A, 0x0E48, 0x0E49, 0x0E34], none⟩,
        ⟨2, [0x0E1A, 0x0E48, 0x0E34, 0x0E49], none⟩] := by
  constructor
  · intro h
    have hcollides := h.collides ⟨3, [0x0E40, 0x0E40, 0x0E01], some 0⟩ (by decide) (by decide)
    exact nomatch (hcollides.1 (by decide)).1
  · intro h
    have hfirst : [⟨1, [0x0E1A, 0x0E48, 0x0E49, 0x0E34], [0x0E1A, 0x0E48, 0x0E34, 0x0E49]⟩].Subperm
        (planChanges (reorder thaiClass) [⟨1, [0x0E1A, 0x0E48, 0x0E49, 0x0E34], none⟩,
          ⟨2, [0x0E1A, 0x0E48, 0x0E34, 0x0E49], none⟩] true).changes :=
      (List.singleton_sublist.2 (by decide)).subperm
    exact absurd (h.safe _ hfirst) (by decide)

end EasyBook.Thai

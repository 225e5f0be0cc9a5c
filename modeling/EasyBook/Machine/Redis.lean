import Mathlib

/-!
# Lists and hashes of Redis

The commands on a list with the positions that Redis counts from either end, and those on a hash.
`Indexes h ks` says that the fields of a hash are the given ones; a command that writes or deletes
fields changes them as it should.
-/

namespace Redis

/-! ### Lists -/

section Lists

variable {α : Type*} {l : List α} {c : ℤ}

/-- `LRANGE`: from `start` to `stop`, both included; a negative position counts from the end. -/
def lrange (l : List α) (start stop : ℤ) : List α :=
  let start := if start < 0 then max 0 (start + l.length) else start
  let stop := if stop < 0 then stop + l.length else stop
  if start > stop ∨ start ≥ l.length then []
  else (l.drop start.toNat).take (min stop (l.length - 1) - start + 1).toNat

/-- `LTRIM` keeps what `LRANGE` returns. -/
def ltrim (l : List α) (start stop : ℤ) : List α := lrange l start stop

/-- A range up to the last element. -/
theorem lrange_drop (hc : 0 ≤ c) : lrange l c (-1) = l.drop c.toNat := by
  simp only [lrange, if_neg (not_lt.mpr hc), if_pos (show (-1 : ℤ) < 0 by decide)]
  split_ifs with h
  · exact (List.drop_eq_nil_of_le (by omega)).symm
  · refine List.take_of_length_le ?_
    rw [List.length_drop]
    omega

/-- The range of a whole list. -/
theorem lrange_all : lrange l 0 (-1) = l := lrange_drop (le_refl 0)

/-- Trimming keeps the first elements. -/
theorem ltrim_take (hc : 0 < c) : ltrim l 0 (c - 1) = l.take c.toNat := by
  simp only [ltrim, lrange, if_neg (lt_irrefl (0 : ℤ)), if_neg (show ¬ c - 1 < 0 by omega)]
  split_ifs with h
  · have hnil : l = [] := List.length_eq_zero_iff.mp (by omega)
    rw [hnil, List.take_nil]
  · rw [Int.toNat_zero, List.drop_zero]
    rcases le_total c l.length with hle | hle
    · exact congrArg l.take (by omega)
    · rw [List.take_of_length_le (by omega), List.take_of_length_le (by omega)]

end Lists

/-! ### Hashes -/

section Hashes

variable {κ β : Type*}

/-- A hash. -/
abbrev Hash (κ β : Type*) : Type _ := κ → Option β

/-- The fields of the hash are `ks`. -/
def Indexes (h : Hash κ β) (ks : List κ) : Prop := ∀ k, (h k).isSome ↔ k ∈ ks

/-- The empty hash has no fields. -/
theorem indexes_nil : Indexes (fun _ ↦ none : Hash κ β) [] := fun k ↦ by simp

variable [DecidableEq κ] {h : Hash κ β} {k k' : κ} {v : β} {ks es : List κ}

/-- `HSET`. -/
def hset (h : Hash κ β) (k : κ) (v : β) : Hash κ β := Function.update h k (some v)

/-- `HDEL`. -/
def hdel (h : Hash κ β) (k : κ) : Hash κ β := Function.update h k none

/-- The fields of a hash after one is set. -/
theorem isSome_hset : (hset h k v k').isSome ↔ k' = k ∨ (h k').isSome := by
  by_cases hk : k' = k
  · subst hk
    simp [hset]
  · simp [hset, hk]

/-- The fields of a hash after one is deleted. -/
theorem isSome_hdel : (hdel h k k').isSome ↔ k' ≠ k ∧ (h k').isSome := by
  by_cases hk : k' = k
  · subst hk
    simp [hdel]
  · simp [hdel, hk]

/-- The fields of a hash after several are deleted. -/
theorem isSome_foldl_hdel : (es.foldl hdel h k').isSome ↔ k' ∉ es ∧ (h k').isSome := by
  induction es generalizing h with
  | nil => simp
  | cons e es ih =>
    rw [List.foldl_cons, ih, isSome_hdel, List.mem_cons, not_or]
    tauto

/-- Setting a field adds its name. -/
theorem Indexes.hset (hks : Indexes h ks) : Indexes (Redis.hset h k v) (k :: ks) := fun k' ↦ by
  rw [isSome_hset, hks, List.mem_cons]

/-- Fields that are deleted are gone, and no others are. -/
theorem Indexes.foldl_hdel (hks : Indexes h ks) {rest : List κ}
    (hrest : ∀ k, k ∈ rest ↔ k ∉ es ∧ k ∈ ks) : Indexes (es.foldl hdel h) rest := fun k ↦ by
  rw [isSome_foldl_hdel, hks, hrest]

/-- The last keys are deleted. -/
theorem Indexes.foldl_hdel_append (hks : Indexes h (ks ++ es)) (hnodup : (ks ++ es).Nodup) :
    Indexes (es.foldl hdel h) ks := by
  refine hks.foldl_hdel fun k ↦ ?_
  have hdisjoint := List.disjoint_of_nodup_append hnodup
  rw [List.mem_append]
  constructor
  · exact fun hk ↦ ⟨fun he ↦ hdisjoint hk he, .inl hk⟩
  · rintro ⟨hne, hk | hk⟩
    · exact hk
    · exact absurd hk hne

end Hashes

end Redis

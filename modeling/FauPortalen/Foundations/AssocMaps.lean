import Mathlib.Data.List.AList

/-! Association maps collected from pairs, of which entries are kept or dropped by a test, or all
rewritten in place.
-/

namespace FauPortalen.Foundations

variable {κ ν : Type}

/-- A map from keys to values of one type. -/
abbrev AssocMap (κ ν : Type) : Type := AList fun _ : κ => ν

namespace AssocMap

/-- Keeps the entries that meet the test. -/
def retain (keep : κ → ν → Bool) (entries : AssocMap κ ν) : AssocMap κ ν :=
  ⟨entries.entries.filter fun entry => keep entry.1 entry.2,
    entries.nodupKeys.sublist List.filter_sublist⟩

/-- Rewrites every value. -/
def adjust (change : κ → ν → ν) (entries : AssocMap κ ν) : AssocMap κ ν :=
  ⟨entries.entries.map (.map id change), entries.nodupKeys.map₂ change _⟩

def size (entries : AssocMap κ ν) : Nat := entries.entries.length

variable [DecidableEq κ] {keep : κ → ν → Bool} {entries : AssocMap κ ν} {key : κ} {value : ν}

theorem lookup_retain_eq_some
    : (retain keep entries).lookup key = some value
      ↔ entries.lookup key = some value ∧ keep key value = true := by
  rw [← Option.mem_def, ← Option.mem_def, AList.mem_lookup_iff, AList.mem_lookup_iff, retain,
    List.mem_filter]

theorem lookup_retain_eq_none (dropped : ∀ value, keep key value = false)
    : (retain keep entries).lookup key = none := by
  refine Option.eq_none_iff_forall_not_mem.mpr fun value found => ?_
  have kept := (lookup_retain_eq_some.mp (Option.mem_def.mp found)).2
  rw [dropped value] at kept
  cases kept

/-- What is not in the map is not in a part of it. -/
theorem lookup_retain_of_none (missing : entries.lookup key = none)
    : (retain keep entries).lookup key = none := by
  refine Option.eq_none_iff_forall_not_mem.mpr fun value found => ?_
  have there := (lookup_retain_eq_some.mp (Option.mem_def.mp found)).1
  rw [missing] at there
  cases there

theorem lookup_retain_of_keep (kept : ∀ value, keep key value = true)
    : (retain keep entries).lookup key = entries.lookup key := by
  cases found : entries.lookup key with
  | none => exact lookup_retain_of_none found
  | some value => exact lookup_retain_eq_some.mpr ⟨found, kept value⟩

theorem lookup_adjust (change : κ → ν → ν)
    : (adjust change entries).lookup key = (entries.lookup key).map (change key) :=
  List.dlookup_map₂ key

-----------------------------------------------------------------------------------------
-- Collecting pairs

/-- The map of the pairs, the last pair of a key counting. -/
def collect (pairs : List (κ × ν)) : AssocMap κ ν :=
  pairs.foldl (fun entries pair => entries.insert pair.1 pair.2) ∅

private theorem lookup_foldl_insert {pairs : List (κ × ν)} (entries : AssocMap κ ν)
    (distinct : (pairs.map Prod.fst).Nodup)
    : (pairs.foldl (fun entries pair => entries.insert pair.1 pair.2) entries).lookup key
        = some value
      ↔ (key, value) ∈ pairs
        ∨ key ∉ pairs.map Prod.fst ∧ entries.lookup key = some value := by
  induction pairs generalizing entries with
  | nil => simp
  | cons pair rest ih =>
      obtain ⟨k, v⟩ := pair
      obtain ⟨fresh, distinct⟩ := List.nodup_cons.mp distinct
      rw [List.foldl_cons, ih _ distinct]
      simp only [List.map_cons, List.mem_cons, Prod.mk.injEq, not_or]
      by_cases same : key = k
      · subst same
        rw [AList.lookup_insert]
        have absent : (key, value) ∉ rest :=
          fun member => fresh (List.mem_map.mpr ⟨(key, value), member, rfl⟩)
        simp [fresh, absent, eq_comm]
      · rw [AList.lookup_insert_ne same]
        simp [same]

/-- A map of pairs with distinct keys holds just those pairs. -/
theorem lookup_collect {pairs : List (κ × ν)} (distinct : (pairs.map Prod.fst).Nodup)
    : (collect pairs).lookup key = some value ↔ (key, value) ∈ pairs := by
  rw [collect, lookup_foldl_insert ∅ distinct]
  simp

theorem isSome_lookup_collect {pairs : List (κ × ν)} (distinct : (pairs.map Prod.fst).Nodup)
    : ((collect pairs).lookup key).isSome ↔ key ∈ pairs.map Prod.fst := by
  simp only [Option.isSome_iff_exists, lookup_collect distinct, List.mem_map, Prod.exists,
    exists_and_right, exists_eq_right]

end AssocMap

end FauPortalen.Foundations

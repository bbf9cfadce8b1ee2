import Mathlib.Logic.Function.Basic
import Mathlib.Data.List.Nodup
import Mathlib.Data.List.Perm.Basic

/-! Finite maps that are only ever read by key: insertion, removal and construction from a
list of pairs, with the last pair of a key winning.
-/

namespace FauPortalen.Foundations

/-- A map from keys to values, read only by key. -/
def Lookup (κ ν : Type) : Type := κ → Option ν

namespace Lookup

variable {κ ν : Type}

def empty : Lookup κ ν := fun _ => none

@[simp]
theorem empty_apply (key : κ) : (empty : Lookup κ ν) key = none := rfl

/-- The key has a value. -/
def contains (entries : Lookup κ ν) (key : κ) : Bool := (entries key).isSome

variable [DecidableEq κ]

def insert (entries : Lookup κ ν) (key : κ) (value : ν) : Lookup κ ν :=
  fun wanted => if wanted = key then some value else entries wanted

def erase (entries : Lookup κ ν) (key : κ) : Lookup κ ν :=
  fun wanted => if wanted = key then none else entries wanted

/-- Inserts the pairs from left to right, so a later pair replaces an earlier one. -/
def insertAll (entries : Lookup κ ν) (pairs : List (κ × ν)) : Lookup κ ν :=
  pairs.foldl (fun built pair => built.insert pair.1 pair.2) entries

def ofPairs (pairs : List (κ × ν)) : Lookup κ ν := insertAll empty pairs

theorem insert_apply (entries : Lookup κ ν) (key wanted : κ) (value : ν)
    : entries.insert key value wanted = if wanted = key then some value else entries wanted :=
  rfl

@[simp]
theorem insert_self (entries : Lookup κ ν) (key : κ) (value : ν)
    : entries.insert key value key = some value := by
  simp [insert_apply]

theorem insert_of_ne (entries : Lookup κ ν) {key wanted : κ} (value : ν) (h : wanted ≠ key)
    : entries.insert key value wanted = entries wanted := by
  simp [insert_apply, h]

theorem erase_apply (entries : Lookup κ ν) (key wanted : κ)
    : entries.erase key wanted = if wanted = key then none else entries wanted :=
  rfl

@[simp]
theorem erase_self (entries : Lookup κ ν) (key : κ) : entries.erase key key = none := by
  simp [erase_apply]

theorem erase_of_ne (entries : Lookup κ ν) {key wanted : κ} (h : wanted ≠ key)
    : entries.erase key wanted = entries wanted := by
  simp [erase_apply, h]

theorem insert_eq_some {entries : Lookup κ ν} {key wanted : κ} {value found : ν}
    : entries.insert key value wanted = some found
      ↔ wanted = key ∧ value = found ∨ wanted ≠ key ∧ entries wanted = some found := by
  rw [insert_apply]
  split
  · next same => simp [same]
  · next other => simp [other]

theorem erase_eq_some {entries : Lookup κ ν} {key wanted : κ} {found : ν}
    : entries.erase key wanted = some found ↔ wanted ≠ key ∧ entries wanted = some found := by
  rw [erase_apply]
  split
  · next same => simp [same]
  · next other => simp [other]

theorem erase_eq_none {entries : Lookup κ ν} {key wanted : κ} (none : entries wanted = none)
    : entries.erase key wanted = Option.none := by
  rw [erase_apply, none, ite_self]

/-- A key that no inserted pair has keeps its value, by induction on the pairs. -/
theorem insertAll_of_not_mem (entries : Lookup κ ν) {pairs : List (κ × ν)} {key : κ}
    (absent : key ∉ pairs.map Prod.fst)
    : entries.insertAll pairs key = entries key := by
  induction pairs generalizing entries with
  | nil => rfl
  | cons head rest ih =>
      simp only [List.map_cons, List.mem_cons, not_or] at absent
      exact (ih (entries.insert head.1 head.2) absent.2).trans
        (insert_of_ne entries head.2 absent.1)

/-- Every value found after inserting pairs was inserted or was there before. -/
theorem insertAll_cases (entries : Lookup κ ν) {pairs : List (κ × ν)} {key : κ} {value : ν}
    (found : entries.insertAll pairs key = some value)
    : (key, value) ∈ pairs ∨ entries key = some value := by
  induction pairs generalizing entries with
  | nil => exact .inr found
  | cons head rest ih =>
      rcases ih (entries.insert head.1 head.2) found with later | now
      · exact .inl (List.mem_cons_of_mem _ later)
      · rw [insert_apply] at now
        split at now
        · next same =>
            cases now
            exact .inl (by simp [same])
        · exact .inr now

/-- With distinct keys every inserted pair is found. -/
theorem insertAll_of_mem (entries : Lookup κ ν) {pairs : List (κ × ν)} {key : κ} {value : ν}
    (distinct : (pairs.map Prod.fst).Nodup) (member : (key, value) ∈ pairs)
    : entries.insertAll pairs key = some value := by
  induction pairs generalizing entries with
  | nil => cases member
  | cons head rest ih =>
      simp only [List.map_cons, List.nodup_cons] at distinct
      rcases List.mem_cons.mp member with rfl | later
      · exact (insertAll_of_not_mem _ distinct.1).trans (insert_self _ _ _)
      · exact ih _ distinct.2 later

theorem mem_of_ofPairs {pairs : List (κ × ν)} {key : κ} {value : ν}
    (found : ofPairs pairs key = some value)
    : (key, value) ∈ pairs := by
  rcases insertAll_cases empty found with member | impossible
  · exact member
  · simp at impossible

theorem ofPairs_of_mem {pairs : List (κ × ν)} {key : κ} {value : ν}
    (distinct : (pairs.map Prod.fst).Nodup) (member : (key, value) ∈ pairs)
    : ofPairs pairs key = some value :=
  insertAll_of_mem empty distinct member

/-- A key some inserted pair has is found, by induction on the pairs. -/
theorem insertAll_isSome (entries : Lookup κ ν) {pairs : List (κ × ν)} {key : κ}
    (present : key ∈ pairs.map Prod.fst)
    : (entries.insertAll pairs key).isSome := by
  induction pairs generalizing entries with
  | nil => simp at present
  | cons head rest ih =>
      change ((entries.insert head.1 head.2).insertAll rest key).isSome
      by_cases later : key ∈ rest.map Prod.fst
      · exact ih _ later
      · have here : key = head.1 := by simpa [later] using present
        rw [insertAll_of_not_mem _ later, here, insert_self]
        rfl

/-- A key is absent from the built map exactly when no pair has it. -/
theorem ofPairs_eq_none {pairs : List (κ × ν)} {key : κ}
    : ofPairs pairs key = none ↔ key ∉ pairs.map Prod.fst := by
  refine ⟨fun missing present => ?_, fun absent => insertAll_of_not_mem empty absent⟩
  have found := insertAll_isSome empty present
  rw [show insertAll empty pairs key = none from missing] at found
  cases found

/-- With distinct keys the order of the pairs does not matter. -/
theorem ofPairs_perm {left right : List (κ × ν)} (same : left.Perm right)
    (distinct : (left.map Prod.fst).Nodup)
    : ofPairs left = ofPairs right := by
  funext key
  cases found : ofPairs left key with
  | none =>
      have absent := ofPairs_eq_none.mp found
      exact (ofPairs_eq_none.mpr fun present => absent ((same.map _).mem_iff.mpr present)).symm
  | some value =>
      exact (ofPairs_of_mem ((same.map _).nodup_iff.mp distinct)
        (same.mem_iff.mp (mem_of_ofPairs found))).symm

/-- Keys paired with distinct values are told apart by their values. -/
theorem ofPairs_zip_injective {keys : List κ} {values : List ν} (distinct : values.Nodup)
    {left right : κ} {value : ν} (hl : ofPairs (keys.zip values) left = some value)
    (hr : ofPairs (keys.zip values) right = some value)
    : left = right := by
  obtain ⟨i, here⟩ := List.mem_iff_getElem?.mp (mem_of_ofPairs hl)
  obtain ⟨j, there⟩ := List.mem_iff_getElem?.mp (mem_of_ofPairs hr)
  obtain ⟨keyLeft, valueLeft⟩ := List.getElem?_zip_eq_some.mp here
  obtain ⟨keyRight, valueRight⟩ := List.getElem?_zip_eq_some.mp there
  have inside : i < values.length := (List.getElem?_eq_some_iff.mp valueLeft).1
  have same : i = j :=
    (List.getElem?_inj inside distinct).mp (valueLeft.trans valueRight.symm)
  subst same
  exact Option.some.inj (keyLeft.symm.trans keyRight)

/-- Keys paired with as many values all have one. -/
theorem ofPairs_zip_isSome {keys : List κ} {values : List ν}
    (enough : keys.length ≤ values.length) {key : κ} (present : key ∈ keys)
    : (ofPairs (keys.zip values) key).isSome := by
  refine insertAll_isSome empty ?_
  rwa [List.map_fst_zip enough]

end Lookup

end FauPortalen.Foundations

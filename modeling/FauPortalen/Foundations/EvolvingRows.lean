import FauPortalen.Foundations.KeyedRows
import Mathlib.Data.List.Forall2

/-! Tables that evolve: every row there was goes on as a related row, and every other row is new
under a key of its own. Where no row is new, rows go on in place.
-/

namespace FauPortalen.Foundations

variable {ρ κ : Type} {key : ρ → κ} {R : ρ → ρ → Prop} {before middle after : List ρ}

/-- The rows there were go on by the relation, and the other rows have new keys. -/
structure Evolves (key : ρ → κ) (R : ρ → ρ → Prop) (before after : List ρ) : Prop where
  goesOn : ∀ row ∈ before, ∃ row' ∈ after, R row row'
  comesFrom : ∀ row' ∈ after, (∃ row ∈ before, R row row') ∨ key row' ∉ before.map key
  distinct : (before.map key).Nodup → (after.map key).Nodup

namespace Evolves

theorem refl (same : ∀ row, R row row) (rows : List ρ) : Evolves key R rows rows where
  goesOn row present := ⟨row, present, same row⟩
  comesFrom row present := .inl ⟨row, present, same row⟩
  distinct := id

/-- Every key there was is still there. -/
theorem keys_subset (evolves : Evolves key R before after)
    (keeps : ∀ row row', R row row' → key row' = key row) {k : κ} (used : k ∈ before.map key)
    : k ∈ after.map key := by
  obtain ⟨row, present, rfl⟩ := List.mem_map.mp used
  obtain ⟨row', present', related⟩ := evolves.goesOn row present
  exact keeps row row' related ▸ List.mem_map_of_mem present'

theorem trans (keeps : ∀ row row', R row row' → key row' = key row)
    (composes : ∀ a b c, R a b → R b c → R a c) (first : Evolves key R before middle)
    (second : Evolves key R middle after)
    : Evolves key R before after where
  goesOn row present := by
    obtain ⟨row', present', related⟩ := first.goesOn row present
    obtain ⟨row'', present'', related'⟩ := second.goesOn row' present'
    exact ⟨row'', present'', composes _ _ _ related related'⟩
  comesFrom row'' present'' := by
    rcases second.comesFrom row'' present'' with ⟨row', present', related'⟩ | new
    · rcases first.comesFrom row' present' with ⟨row, present, related⟩ | new
      · exact .inl ⟨row, present, composes _ _ _ related related'⟩
      · exact .inr (keeps _ _ related' ▸ new)
    · exact .inr fun used => new (first.keys_subset keeps used)
  distinct unique := second.distinct (first.distinct unique)

/-- Changing the table's rows in place, key and all else the relation keeps. -/
theorem map_mem {rows : List ρ} {change : ρ → ρ}
    (keeps : ∀ row row', R row row' → key row' = key row)
    (related : ∀ row ∈ rows, R row (change row))
    : Evolves key R rows (rows.map change) where
  goesOn row present := ⟨change row, List.mem_map_of_mem present, related row present⟩
  comesFrom row' present := by
    obtain ⟨row, old, rfl⟩ := List.mem_map.mp present
    exact .inl ⟨row, old, related row old⟩
  distinct unique := by
    have same : (rows.map change).map key = rows.map key := by
      rw [List.map_map]
      exact List.map_congr_left fun row present => keeps row _ (related row present)
    exact same ▸ unique

theorem map {change : ρ → ρ} (keeps : ∀ row row', R row row' → key row' = key row)
    (related : ∀ row, R row (change row)) (rows : List ρ)
    : Evolves key R rows (rows.map change) :=
  map_mem keeps fun row _ => related row

/-- Adding a row under a new key. -/
theorem concat (same : ∀ row, R row row) {row : ρ} (new : key row ∉ before.map key)
    : Evolves key R before (before ++ [row]) where
  goesOn old present := ⟨old, List.mem_append_left _ present, same old⟩
  comesFrom row' present := by
    rcases List.mem_append.mp present with old | added
    · exact .inl ⟨row', old, same row'⟩
    · exact .inr (List.mem_singleton.mp added ▸ new)
  distinct unique := by
    rw [List.map_append, List.map_singleton]
    exact List.concat_eq_append ▸ unique.concat new

theorem mono {R' : ρ → ρ → Prop} (weaker : ∀ row row', R row row' → R' row row')
    (evolves : Evolves key R before after)
    : Evolves key R' before after where
  goesOn row present :=
    let ⟨row', present', related⟩ := evolves.goesOn row present
    ⟨row', present', weaker _ _ related⟩
  comesFrom row' present :=
    (evolves.comesFrom row' present).imp_left fun ⟨row, old, related⟩ =>
      ⟨row, old, weaker _ _ related⟩
  distinct := evolves.distinct

/-- Where the keys are those there were, every row comes from one there was. -/
theorem comesFrom_of_sameKeys (evolves : Evolves key R before after)
    (same : after.map key = before.map key) {row' : ρ} (present : row' ∈ after)
    : ∃ row ∈ before, R row row' :=
  (evolves.comesFrom row' present).resolve_right fun new =>
    new (same ▸ List.mem_map_of_mem present)

/-- A row under a key there was comes from the row that had it. -/
theorem comesFrom_key (evolves : Evolves key R before after)
    (keeps : ∀ row row', R row row' → key row' = key row) (unique : (before.map key).Nodup)
    {row row' : ρ} (old : row ∈ before) (present : row' ∈ after) (same : key row' = key row)
    : R row row' := by
  rcases evolves.comesFrom row' present with ⟨from_, there, related⟩ | new
  · have one : from_ = row := List.inj_on_of_nodup_map unique there old
      ((keeps _ _ related).symm.trans same)
    exact one ▸ related
  · exact absurd (same ▸ List.mem_map_of_mem old) new

end Evolves

-----------------------------------------------------------------------------------------
-- Lists paired one to one

section

variable {α β γ : Type}

/-- Lists paired one to one through a third. -/
theorem forall₂_through {R : α → β → Prop} {S : β → γ → Prop} {T : α → γ → Prop}
    (through : ∀ a b c, R a b → S b c → T a c) {left : List α} {middle : List β} {right : List γ}
    (first : List.Forall₂ R left middle) (second : List.Forall₂ S middle right)
    : List.Forall₂ T left right := by
  induction first generalizing right with
  | nil =>
      cases second
      exact .nil
  | cons related _ ih =>
      cases second with
      | cons related' others => exact .cons (through _ _ _ related related') (ih others)

/-- In lists paired one to one every element on the right has its own on the left. -/
theorem forall₂_left_of_mem {R : α → β → Prop} {left : List α} {right : List β}
    (paired : List.Forall₂ R left right) {b : β} (inside : b ∈ right)
    : ∃ a ∈ left, R a b := by
  induction paired with
  | nil => cases inside
  | @cons first second _ _ related _ ih =>
      rcases List.mem_cons.mp inside with rfl | later
      · exact ⟨first, List.mem_cons_self, related⟩
      · obtain ⟨a, there, related'⟩ := ih later
        exact ⟨a, List.mem_cons_of_mem _ there, related'⟩

/-- In lists paired one to one with equal keys the rows found under a key are paired. -/
theorem findRow_forall₂ [DecidableEq κ] {R : ρ → ρ → Prop}
    (keeps : ∀ row row', R row row' → key row' = key row) {left right : List ρ}
    (paired : List.Forall₂ R left right) (wanted : κ)
    : Option.Rel R (findRow key wanted left) (findRow key wanted right) := by
  induction paired with
  | nil => exact .none
  | @cons row row' _ _ related _ ih =>
      simp only [findRow, List.find?_cons, keeps row row' related] at ih ⊢
      split
      · exact .some related
      · exact ih

/-- Lists paired one to one by equal images have the same images. -/
theorem map_eq_of_forall₂ {R : α → β → Prop} {image : α → γ} {image' : β → γ} {left : List α}
    {right : List β} (paired : List.Forall₂ R left right)
    (same : ∀ a b, R a b → image' b = image a)
    : right.map image' = left.map image := by
  induction paired with
  | nil => rfl
  | cons related _ ih => rw [List.map_cons, List.map_cons, same _ _ related, ih]

end

-----------------------------------------------------------------------------------------
-- Rows that go on in place

/-- Row by row the table goes on by the relation: no row is added or lost. -/
def GoesOnInPlace (R : ρ → ρ → Prop) (before after : List ρ) : Prop :=
  List.Forall₂ R before after

namespace GoesOnInPlace

theorem refl (same : ∀ row, R row row) (rows : List ρ) : GoesOnInPlace R rows rows :=
  List.forall₂_same.mpr fun row _ => same row

theorem trans (composes : ∀ a b c, R a b → R b c → R a c) (first : GoesOnInPlace R before middle)
    (second : GoesOnInPlace R middle after)
    : GoesOnInPlace R before after :=
  forall₂_through composes first second

theorem map_mem {rows : List ρ} {change : ρ → ρ} (related : ∀ row ∈ rows, R row (change row))
    : GoesOnInPlace R rows (rows.map change) :=
  List.forall₂_map_right_iff.mpr (List.forall₂_same.mpr related)

theorem map {change : ρ → ρ} (related : ∀ row, R row (change row)) (rows : List ρ)
    : GoesOnInPlace R rows (rows.map change) :=
  map_mem fun row _ => related row

/-- Every row comes from one there was. -/
theorem comesFrom (goesOn : GoesOnInPlace R before after) {row' : ρ} (present : row' ∈ after)
    : ∃ row ∈ before, R row row' :=
  forall₂_left_of_mem goesOn present

/-- What every row keeps of itself, the table keeps. -/
theorem map_eq {ι : Type} {image : ρ → ι} (keeps : ∀ row row', R row row' → image row' = image row)
    (goesOn : GoesOnInPlace R before after)
    : after.map image = before.map image :=
  map_eq_of_forall₂ goesOn keeps

/-- A row that is found comes from the one that was found. -/
theorem findRow_comesFrom [DecidableEq κ] (keeps : ∀ row row', R row row' → key row' = key row)
    (goesOn : GoesOnInPlace R before after) {wanted : κ} {row' : ρ}
    (found : findRow key wanted after = some row')
    : ∃ row, findRow key wanted before = some row ∧ R row row' := by
  unfold GoesOnInPlace at goesOn
  induction goesOn with
  | nil => cases found
  | @cons row row'' _ _ related _ ih =>
      unfold findRow at found ih ⊢
      rw [List.find?_cons] at found ⊢
      rw [keeps _ _ related] at found
      split at found
      · cases found
        exact ⟨row, rfl, related⟩
      · exact ih found

/-- What holds of some row afterwards held of some row before, where it is not gained. -/
theorem any_of_any {holds holds' : ρ → Bool}
    (notGained : ∀ row row', R row row' → holds' row' = true → holds row = true)
    (goesOn : GoesOnInPlace R before after) (some_ : after.any holds' = true)
    : before.any holds = true := by
  obtain ⟨row', present, there⟩ := List.any_eq_true.mp some_
  obtain ⟨row, old, related⟩ := goesOn.comesFrom present
  exact List.any_eq_true.mpr ⟨row, old, notGained _ _ related there⟩

/-- No more rows hold afterwards what is not gained. -/
theorem countP_le {holds : ρ → Bool}
    (notGained : ∀ row row', R row row' → holds row' = true → holds row = true)
    (goesOn : GoesOnInPlace R before after)
    : after.countP holds ≤ before.countP holds := by
  unfold GoesOnInPlace at goesOn
  induction goesOn with
  | nil => exact Nat.le_refl _
  | @cons row row' _ _ related _ ih =>
      rw [List.countP_cons, List.countP_cons]
      have head : (if holds row' = true then 1 else 0) ≤ if holds row = true then 1 else 0 := by
        split
        · next there =>
            exact Nat.le_of_eq (if_pos (notGained _ _ related there)).symm
        · exact Nat.zero_le _
      exact Nat.add_le_add ih head

end GoesOnInPlace

end FauPortalen.Foundations

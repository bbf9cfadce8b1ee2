import Mathlib.Data.List.Nodup

/-! Tables as lists of rows with a key: changing the first row that has a key, and what the
change amounts to when keys are unique.
-/

namespace FauPortalen.Foundations

-----------------------------------------------------------------------------------------
-- Distinct keys through a partial map

section

variable {α β κ ι : Type} {f : α → Option β} {elements : List α}

/-- Distinct keys of the images come from distinct keys of the elements. -/
theorem nodup_filterMap_keys {key : α → κ} {image : β → ι}
    (distinct : (elements.map key).Nodup)
    (separates : ∀ a ∈ elements, ∀ b ∈ elements, ∀ x y,
      f a = some x → f b = some y → image x = image y → key a = key b)
    : ((elements.filterMap f).map image).Nodup := by
  refine List.pairwise_map.mpr (List.pairwise_filterMap.mpr ?_)
  refine (List.pairwise_map.mp distinct).imp_of_mem ?_
  intro a b ha hb differ x hx y hy same
  exact differ (separates a ha b hb x y hx hy same)

/-- Elements with one image are one element when the images are distinct. -/
theorem eq_of_nodup_filterMap (distinct : (elements.filterMap f).Nodup) {a b : α} {x : β}
    (ha : a ∈ elements) (hb : b ∈ elements) (left : f a = some x) (right : f b = some x)
    : a = b := by
  induction elements with
  | nil => cases ha
  | cons head rest ih =>
      have image (c : α) (hc : c ∈ rest) (found : f c = some x) : x ∈ rest.filterMap f :=
        List.mem_filterMap.mpr ⟨c, hc, found⟩
      have tail : (rest.filterMap f).Nodup :=
        distinct.sublist ((List.sublist_cons_self head rest).filterMap f)
      rcases List.mem_cons.mp ha with rfl | ha'
      · rw [List.filterMap_cons_some left, List.nodup_cons] at distinct
        rcases List.mem_cons.mp hb with rfl | hb'
        · rfl
        · exact absurd (image b hb' right) distinct.1
      · rcases List.mem_cons.mp hb with rfl | hb'
        · rw [List.filterMap_cons_some right, List.nodup_cons] at distinct
          exact absurd (image a ha' left) distinct.1
        · exact ih tail ha' hb'

/-- With distinct keys only one element has the key of a member. -/
theorem filter_key_of_nodup [DecidableEq κ] {key : α → κ}
    (distinct : (elements.map key).Nodup) {a : α} (member : a ∈ elements)
    : elements.filter (key · = key a) = [a] := by
  induction elements with
  | nil => cases member
  | cons head rest ih =>
      rw [List.map_cons, List.nodup_cons] at distinct
      rcases List.mem_cons.mp member with rfl | later
      · have others : rest.filter (key · = key a) = [] := by
          refine List.filter_eq_nil_iff.mpr fun b inside same => ?_
          exact distinct.1 (List.mem_map.mpr ⟨b, inside, by simpa using same⟩)
        rw [List.filter_cons_of_pos (by simp), others]
      · have differ : key head ≠ key a := fun same =>
          distinct.1 (same ▸ List.mem_map_of_mem later)
        rw [List.filter_cons_of_neg (by simpa using differ), ih distinct.2 later]

end

-----------------------------------------------------------------------------------------
-- Changing one row

variable {ρ κ : Type} [DecidableEq κ] {key : ρ → κ}

/-- Applies the change to the first row with the key; `none` when there is no such row. -/
def modifyRow (key : ρ → κ) (wanted : κ) (change : ρ → ρ) : List ρ → Option (List ρ)
  | [] => none
  | row :: rest =>
      if key row = wanted then some (change row :: rest)
      else (modifyRow key wanted change rest).map (row :: ·)

/-- The row that has the key. -/
def findRow (key : ρ → κ) (wanted : κ) (rows : List ρ) : Option ρ :=
  rows.find? (key · = wanted)

/-- The change at the key alone. -/
def changeAt (key : ρ → κ) (wanted : κ) (change : ρ → ρ) (row : ρ) : ρ :=
  if key row = wanted then change row else row

theorem changeAt_of_eq {wanted : κ} {change : ρ → ρ} {row : ρ} (h : key row = wanted)
    : changeAt key wanted change row = change row := by
  simp [changeAt, h]

theorem changeAt_of_ne {wanted : κ} {change : ρ → ρ} {row : ρ} (h : key row ≠ wanted)
    : changeAt key wanted change row = row := by
  simp [changeAt, h]

/-- A change keeps every key when it keeps the key of the row it is applied to. -/
theorem key_changeAt {wanted : κ} {change : ρ → ρ} (keeps : ∀ row, key (change row) = key row)
    (row : ρ)
    : key (changeAt key wanted change row) = key row := by
  unfold changeAt
  split
  · exact keeps row
  · rfl

theorem findRow_eq_some {rows : List ρ} {wanted : κ} {row : ρ}
    (unique : (rows.map key).Nodup)
    : findRow key wanted rows = some row ↔ row ∈ rows ∧ key row = wanted := by
  induction rows with
  | nil => simp [findRow]
  | cons head rest ih =>
      simp only [List.map_cons, List.nodup_cons] at unique
      have tail := ih unique.2
      simp only [findRow, List.find?_cons] at tail ⊢
      by_cases here : key head = wanted
      · simp only [here, decide_true, Option.some.injEq, List.mem_cons]
        constructor
        · rintro rfl
          exact ⟨.inl rfl, here⟩
        · rintro ⟨rfl | later, same⟩
          · rfl
          · exact absurd (List.mem_map.mpr ⟨row, later, same.trans here.symm⟩) unique.1
      · simp only [here, decide_false, List.mem_cons, tail]
        constructor
        · rintro ⟨later, same⟩
          exact ⟨.inr later, same⟩
        · rintro ⟨rfl | later, same⟩
          · exact absurd same here
          · exact ⟨later, same⟩

theorem findRow_eq_none {rows : List ρ} {wanted : κ}
    : findRow key wanted rows = none ↔ wanted ∉ rows.map key := by
  simp [findRow, List.find?_eq_none]

/-- The row found is a row with the key. -/
theorem of_findRow {rows : List ρ} {wanted : κ} {row : ρ} (found : findRow key wanted rows = some row)
    : row ∈ rows ∧ key row = wanted :=
  ⟨List.mem_of_find?_eq_some found, by simpa using List.find?_some found⟩

/-- With unique keys the row found does not depend on the order of the rows. -/
theorem findRow_perm {left right : List ρ} (same : left.Perm right)
    (unique : (left.map key).Nodup) (wanted : κ)
    : findRow key wanted left = findRow key wanted right := by
  refine Option.ext fun row => ?_
  rw [findRow_eq_some unique, findRow_eq_some ((same.map key).nodup_iff.mp unique),
    same.mem_iff]

/-- With unique keys a change of the first matching row is a change at its key, and needs
such a row.
-/
theorem modifyRow_eq_some {rows after : List ρ} {wanted : κ} {change : ρ → ρ}
    (unique : (rows.map key).Nodup)
    : modifyRow key wanted change rows = some after
      ↔ wanted ∈ rows.map key ∧ after = rows.map (changeAt key wanted change) := by
  induction rows generalizing after with
  | nil => simp [modifyRow]
  | cons head rest ih =>
      simp only [List.map_cons, List.nodup_cons] at unique
      unfold modifyRow
      by_cases here : key head = wanted
      · -- no later row has the key, so the change leaves the rest alone
        have untouched : rest.map (changeAt key wanted change) = rest := by
          refine (List.map_congr_left fun row later => ?_).trans rest.map_id
          exact changeAt_of_ne fun same =>
            unique.1 (List.mem_map.mpr ⟨row, later, same.trans here.symm⟩)
        simp [here, changeAt_of_eq here, untouched, eq_comm]
      · simp only [here, if_false, Option.map_eq_some_iff, ih unique.2,
          List.map_cons, List.mem_cons, Ne.symm here, false_or, changeAt_of_ne here]
        constructor
        · rintro ⟨_, ⟨present, rfl⟩, rfl⟩
          exact ⟨present, rfl⟩
        · rintro ⟨present, rfl⟩
          exact ⟨_, ⟨present, rfl⟩, rfl⟩

-----------------------------------------------------------------------------------------
-- Tables that operations change and grow

section

variable {ω : Type} {onRow : ω → ρ → ρ} {rows : ω → List ρ}

/-- An operation changes the rows there are and adds its own. -/
def growTable (onRow : ω → ρ → ρ) (rows : ω → List ρ) (table : List ρ) (op : ω) : List ρ :=
  table.map (onRow op) ++ rows op

/-- A row as the operations leave it, one after the other. -/
def changeAll (onRow : ω → ρ → ρ) (ops : List ω) (row : ρ) : ρ :=
  ops.foldl (fun row op => onRow op row) row

@[simp]
theorem changeAll_nil (row : ρ) : changeAll onRow [] row = row := rfl

@[simp]
theorem changeAll_cons (op : ω) (ops : List ω) (row : ρ)
    : changeAll onRow (op :: ops) row = changeAll onRow ops (onRow op row) := rfl

/-- Operations that leave a row alone leave it alone together. -/
theorem changeAll_of_fixed {ops : List ω} {row : ρ} (fixed : ∀ op ∈ ops, onRow op row = row)
    : changeAll onRow ops row = row := by
  induction ops with
  | nil => rfl
  | cons op rest ih =>
      rw [changeAll_cons, fixed op List.mem_cons_self]
      exact ih fun later inside => fixed later (List.mem_cons_of_mem _ inside)

/-- What every operation keeps of a row, all of them keep. -/
theorem changeAll_keeps {ι : Type} (image : ρ → ι) {ops : List ω}
    (keeps : ∀ op ∈ ops, ∀ row, image (onRow op row) = image row) (row : ρ)
    : image (changeAll onRow ops row) = image row := by
  induction ops generalizing row with
  | nil => rfl
  | cons op rest ih =>
      rw [changeAll_cons, ih fun later inside => keeps later (List.mem_cons_of_mem _ inside)]
      exact keeps op List.mem_cons_self row

omit [DecidableEq κ] in
/-- Only the operations that act on a row's key matter to it. -/
theorem changeAll_filter (key : ρ → κ) {ops : List ω} {acts : ω → Bool} {row : ρ}
    (fixed : ∀ op ∈ ops, acts op = false → ∀ other, key other = key row →
      onRow op other = other)
    (keeps : ∀ op ∈ ops, ∀ other, key (onRow op other) = key other)
    : changeAll onRow ops row = changeAll onRow (ops.filter acts) row := by
  induction ops generalizing row with
  | nil => rfl
  | cons op rest ih =>
      have tail {other : ρ} (same : key other = key row)
          : changeAll onRow rest other = changeAll onRow (rest.filter acts) other :=
        ih (fun later inside idle another here =>
            fixed later (List.mem_cons_of_mem _ inside) idle another (here.trans same))
          fun later inside => keeps later (List.mem_cons_of_mem _ inside)
      cases acting : acts op with
      | true =>
          rw [List.filter_cons_of_pos acting, changeAll_cons, changeAll_cons]
          exact tail (keeps op List.mem_cons_self row)
      | false =>
          rw [List.filter_cons_of_neg (by simp [acting]), changeAll_cons,
            fixed op List.mem_cons_self acting row rfl]
          exact tail rfl

/-- When no operation touches an added row, the table ends as its rows changed by all
operations, and the added ones.
-/
theorem foldl_growTable {ops : List ω} {table : List ρ}
    (fixed : ∀ op ∈ ops, ∀ row ∈ rows op, ∀ other ∈ ops, onRow other row = row)
    : ops.foldl (growTable onRow rows) table
      = table.map (changeAll onRow ops) ++ ops.flatMap rows := by
  induction ops generalizing table with
  | nil =>
      have same : table.map (changeAll onRow []) = table := table.map_id
      rw [same, List.foldl_nil, List.flatMap_nil, List.append_nil]
  | cons op rest ih =>
      have added : (rows op).map (changeAll onRow rest) = rows op := by
        refine (List.map_congr_left fun row inside => ?_).trans (rows op).map_id
        exact changeAll_of_fixed fun later present =>
          fixed op List.mem_cons_self row inside later (List.mem_cons_of_mem _ present)
      rw [List.foldl_cons, ih, growTable, List.map_append, added, List.map_map,
        List.flatMap_cons, List.append_assoc]
      · rfl
      · intro first member row inside other present
        exact fixed first (List.mem_cons_of_mem _ member) row inside other
          (List.mem_cons_of_mem _ present)

end

end FauPortalen.Foundations

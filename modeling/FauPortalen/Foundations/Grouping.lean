import Mathlib.Data.List.Sort
import Mathlib.Data.List.Dedup
import Mathlib.Data.List.Destutter
import Mathlib.Data.List.Perm.Basic

/-! Ordered keys and groups: what a sorted map from a key to the elements pushed under it
iterates over, and sorting with removal of adjacent repetitions.
-/

namespace FauPortalen.Foundations

variable {α κ : Type} [LinearOrder κ]

-----------------------------------------------------------------------------------------
-- Sorted keys and groups

/-- The distinct keys in ascending order. -/
def sortedKeys (keys : List κ) : List κ := keys.dedup.insertionSort (· ≤ ·)

@[simp]
theorem mem_sortedKeys {keys : List κ} {key : κ} : key ∈ sortedKeys keys ↔ key ∈ keys := by
  simp [sortedKeys, (List.perm_insertionSort _ _).mem_iff]

theorem nodup_sortedKeys (keys : List κ) : (sortedKeys keys).Nodup :=
  (List.perm_insertionSort _ _).nodup_iff.mpr keys.nodup_dedup

theorem pairwise_sortedKeys (keys : List κ) : (sortedKeys keys).Pairwise (· < ·) :=
  ((List.pairwise_insertionSort (· ≤ ·) _).and (nodup_sortedKeys keys)).imp fun h =>
    lt_of_le_of_ne h.1 h.2

theorem sortedKeys_congr {left right : List κ} (same : ∀ key, key ∈ left ↔ key ∈ right)
    : sortedKeys left = sortedKeys right := by
  refine List.Perm.eq_of_pairwise' (List.pairwise_insertionSort _ _)
    (List.pairwise_insertionSort _ _) ?_
  refine (List.perm_ext_iff_of_nodup (nodup_sortedKeys _) (nodup_sortedKeys _)).mpr ?_
  intro key
  exact mem_sortedKeys.trans ((same key).trans mem_sortedKeys.symm)

/-- The groups of a sorted multimap: each key in ascending order, with the elements pushed
under it in their original order.
-/
def groupBy (key : α → κ) (elements : List α) : List (κ × List α) :=
  (sortedKeys (elements.map key)).map fun k => (k, elements.filter (key · = k))

/-- A group is the non-empty filter of its key. -/
theorem mem_groupBy {key : α → κ} {elements : List α} {group : κ × List α}
    : group ∈ groupBy key elements
      ↔ (∃ element ∈ elements, key element = group.1)
        ∧ group.2 = elements.filter (key · = group.1) := by
  simp only [groupBy, List.mem_map, mem_sortedKeys]
  constructor
  · rintro ⟨k, present, rfl⟩
    exact ⟨present, rfl⟩
  · rintro ⟨present, same⟩
    exact ⟨group.1, present, Prod.ext rfl same.symm⟩

theorem nodup_groupBy_keys (key : α → κ) (elements : List α)
    : ((groupBy key elements).map Prod.fst).Nodup := by
  have keys : (groupBy key elements).map Prod.fst = sortedKeys (elements.map key) := by
    simp [groupBy, List.map_map, Function.comp_def]
  rw [keys]
  exact nodup_sortedKeys _

theorem groupBy_ne_nil {key : α → κ} {elements : List α} {group : κ × List α}
    (member : group ∈ groupBy key elements)
    : group.2 ≠ [] := by
  obtain ⟨⟨element, present, same⟩, content⟩ := mem_groupBy.mp member
  rw [content]
  exact List.ne_nil_of_mem (List.mem_filter.mpr ⟨present, by simpa using same⟩)

-----------------------------------------------------------------------------------------
-- Stable sorting by a key, keeping the first of each key

/-- Sorts by a key, keeping the order of elements with equal keys. -/
def sortOn (key : α → κ) (elements : List α) : List α :=
  elements.insertionSort (key · ≤ key ·)

/-- Drops every element whose key equals that of the element kept last. -/
def dropRepeats (key : α → κ) (elements : List α) : List α :=
  elements.destutter (key · ≠ key ·)

theorem perm_sortOn (key : α → κ) (elements : List α) : (sortOn key elements).Perm elements :=
  List.perm_insertionSort _ _

@[simp]
theorem mem_sortOn {key : α → κ} {elements : List α} {element : α}
    : element ∈ sortOn key elements ↔ element ∈ elements :=
  (perm_sortOn _ _).mem_iff

theorem pairwise_sortOn (key : α → κ) (elements : List α)
    : (sortOn key elements).Pairwise (key · ≤ key ·) := by
  have : Std.Total (key · ≤ key · : α → α → Prop) := ⟨fun a b => le_total (key a) (key b)⟩
  have : IsTrans α (key · ≤ key ·) := ⟨fun _ _ _ => le_trans⟩
  exact List.pairwise_insertionSort _ _

/-- Sorting elements with distinct keys does not depend on their order. -/
theorem sortOn_perm {key : α → κ} {left right : List α} (same : left.Perm right)
    (distinct : (left.map key).Nodup)
    : sortOn key left = sortOn key right := by
  have perm : (sortOn key left).Perm (sortOn key right) :=
    (perm_sortOn _ _).trans (same.trans (perm_sortOn _ _).symm)
  refine List.Perm.eq_of_pairwise ?_ (pairwise_sortOn key left) (pairwise_sortOn key right) perm
  intro a b ha hb le ge
  exact List.inj_on_of_nodup_map distinct (mem_sortOn.mp ha)
    (same.mem_iff.mpr (mem_sortOn.mp hb)) (le_antisymm le ge)

/-- Sorting is stable: the first element with a key stays the first one. -/
theorem find?_sortOn (key : α → κ) (elements : List α) (wanted : κ)
    : (sortOn key elements).find? (key · = wanted) = elements.find? (key · = wanted) := by
  have inserted (head : α) (rest : List α)
      : (rest.orderedInsert (key · ≤ key ·) head).find? (key · = wanted)
        = (head :: rest).find? (key · = wanted) := by
    induction rest with
    | nil => rfl
    | cons next rest ih =>
        by_cases before : key head ≤ key next
        · simp [before]
        · -- `next` overtakes `head` only with a smaller key, so they are never both wanted
          have differ : key next ≠ key head := fun same => before (le_of_eq same.symm)
          simp only [List.orderedInsert_cons, before, if_false, List.find?_cons, ih]
          by_cases hn : key next = wanted
          · have hh : key head ≠ wanted := fun same => differ (hn.trans same.symm)
            simp [hn, hh]
          · simp [hn]
  induction elements with
  | nil => rfl
  | cons head rest ih =>
      have step := inserted head (sortOn key rest)
      simp only [sortOn, List.insertionSort_cons] at step ih ⊢
      rw [step, List.find?_cons, List.find?_cons, ih]

/-- Dropping repetitions keeps the first element of every key. -/
theorem find?_dropRepeats (key : α → κ) (elements : List α) (wanted : κ)
    : (dropRepeats key elements).find? (key · = wanted)
      = elements.find? (key · = wanted) := by
  have chained (rest : List α) : ∀ kept : α,
      (rest.destutter' (key · ≠ key ·) kept).find? (key · = wanted)
        = (kept :: rest).find? (key · = wanted) := by
    induction rest with
    | nil => exact fun _ => rfl
    | cons next rest ih =>
        intro kept
        simp only [List.destutter']
        by_cases same : key kept = key next
        · simp only [same, ne_eq, not_true_eq_false, if_false, ih]
          by_cases hk : key next = wanted <;> simp [same, hk]
        · simp only [same, ne_eq, not_false_eq_true, if_true, List.find?_cons, ih]
  cases elements with
  | nil => rfl
  | cons head rest => exact chained rest head

theorem mem_of_mem_dropRepeats {key : α → κ} {elements : List α} {element : α}
    (member : element ∈ dropRepeats key elements)
    : element ∈ elements :=
  (List.destutter_sublist _ _).subset member

/-- What is its own key is not lost. -/
theorem mem_dropRepeats_id {elements : List κ} {element : κ}
    : element ∈ dropRepeats id elements ↔ element ∈ elements := by
  constructor
  · exact mem_of_mem_dropRepeats
  · intro member
    have found := find?_dropRepeats id elements element
    cases first : elements.find? (id · = element) with
    | none => cases List.find?_eq_none.mp first element member (decide_eq_true rfl)
    | some other =>
        rw [first] at found
        have same := List.find?_some found
        obtain rfl : other = element := of_decide_eq_true same
        exact List.mem_of_find?_eq_some found

/-- Sorting and then dropping repetitions leaves strictly ascending keys. -/
theorem pairwise_dropRepeats_sortOn (key : α → κ) (elements : List α)
    : (dropRepeats key (sortOn key elements)).Pairwise (key · < key ·) := by
  have sorted := (pairwise_sortOn key elements).sublist
    (List.destutter_sublist (key · ≠ key ·) (sortOn key elements))
  have distinct := List.isChain_destutter (key · ≠ key ·) (sortOn key elements)
  have : IsTrans α (key · < key ·) := ⟨fun _ _ _ => lt_trans⟩
  have chain : (dropRepeats key (sortOn key elements)).IsChain (key · < key ·) := by
    refine List.isChain_iff_getElem.mpr fun index bound => ?_
    exact lt_of_le_of_ne (List.isChain_iff_getElem.mp sorted.isChain index bound)
      (List.isChain_iff_getElem.mp distinct index bound)
  exact chain.pairwise

/-- What has strictly ascending keys stays as it is. -/
theorem dropRepeats_sortOn_eq_self {key : α → κ} {elements : List α}
    (ascending : elements.Pairwise (key · < key ·))
    : dropRepeats key (sortOn key elements) = elements := by
  have sorted : sortOn key elements = elements :=
    (ascending.imp fun h => le_of_lt h).insertionSort_eq
  rw [sorted]
  exact List.destutter_of_isChain _ _ (ascending.imp fun h => ne_of_lt h).isChain

theorem nodup_dropRepeats_sortOn (key : α → κ) (elements : List α)
    : ((dropRepeats key (sortOn key elements)).map key).Nodup :=
  List.pairwise_map.mpr ((pairwise_dropRepeats_sortOn key elements).imp fun h => ne_of_lt h)

end FauPortalen.Foundations

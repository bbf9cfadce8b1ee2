import FauPortalen.Foundations.AssocMaps
import FauPortalen.Foundations.Grouping

/-! Stable sorting by a comparator, the first element of each key, and a choice of elements put
in the order of a list they are chosen from.
-/

namespace FauPortalen.Foundations

variable {α β κ : Type}

-----------------------------------------------------------------------------------------
-- Comparators

/-- Comparing parts of the elements. -/
theorem transCmp_comap (f : α → β) (cmp : β → β → Ordering) [Std.TransCmp cmp]
    : Std.TransCmp fun a b => cmp (f a) (f b) where
  eq_swap := Std.OrientedCmp.eq_swap
  isLE_trans := Std.TransCmp.isLE_trans

/-- Comparing by one comparator, ties broken by another. -/
theorem transCmp_then (first second : α → α → Ordering) [Std.TransCmp first]
    [Std.TransCmp second]
    : Std.TransCmp fun a b => (first a b).then (second a b) :=
  inferInstanceAs (Std.TransCmp (compareLex first second))

-----------------------------------------------------------------------------------------
-- Sorting by a comparator

/-- Sorts by a comparator, keeping the order of elements it calls equal. -/
def sortBy (cmp : α → α → Ordering) (elements : List α) : List α :=
  elements.insertionSort fun a b => (cmp a b).isLE

variable {cmp : α → α → Ordering} {elements left right : List α}

theorem perm_sortBy (cmp : α → α → Ordering) (elements : List α)
    : (sortBy cmp elements).Perm elements :=
  List.perm_insertionSort _ _

@[simp]
theorem mem_sortBy {element : α} : element ∈ sortBy cmp elements ↔ element ∈ elements :=
  (perm_sortBy cmp elements).mem_iff

theorem pairwise_sortBy (cmp : α → α → Ordering) [Std.TransCmp cmp] (elements : List α)
    : (sortBy cmp elements).Pairwise fun a b => (cmp a b).isLE := by
  have total : Std.Total fun a b => ((cmp a b).isLE : Prop) := by
    refine ⟨fun a b => ?_⟩
    have swap : cmp b a = (cmp a b).swap := Std.OrientedCmp.eq_swap
    rw [swap]
    cases cmp a b <;> decide
  have trans : IsTrans α fun a b => ((cmp a b).isLE : Prop) :=
    ⟨fun _ _ _ => Std.TransCmp.isLE_trans⟩
  exact List.pairwise_insertionSort _ _

/-- Elements already in order stay where they are. -/
theorem sortBy_eq_self (sorted : elements.Pairwise fun a b => (cmp a b).isLE)
    : sortBy cmp elements = elements :=
  List.Pairwise.insertionSort_eq sorted

/-- Where no two elements compare equal, the order of the input does not count. -/
theorem sortBy_perm [Std.TransCmp cmp] (same : left.Perm right)
    (separated : ∀ a ∈ left, ∀ b ∈ left, cmp a b = .eq → a = b)
    : sortBy cmp left = sortBy cmp right := by
  have perm : (sortBy cmp left).Perm (sortBy cmp right) :=
    (perm_sortBy _ _).trans (same.trans (perm_sortBy _ _).symm)
  refine List.Perm.eq_of_pairwise ?_ (pairwise_sortBy cmp left)
    (pairwise_sortBy cmp right) perm
  intro a b ha hb le ge
  apply separated a (mem_sortBy.mp ha) b (same.mem_iff.mpr (mem_sortBy.mp hb))
  exact Std.OrientedCmp.isLE_antisymm le ge

/-- A change of the elements that the comparator does not see commutes with sorting. -/
theorem map_sortBy (f : α → β) {cmp' : β → β → Ordering}
    (unseen : ∀ a b, cmp' (f a) (f b) = cmp a b)
    : (sortBy cmp elements).map f = sortBy cmp' (elements.map f) := by
  apply List.map_insertionSort
  intro a _ b _
  rw [unseen]

/-- Sorted elements seen through such a change depend on the input only through it, when keys
tell the elements apart.
-/
theorem map_sortBy_congr (f : α → β) (key : β → κ) (cmp' : β → β → Ordering)
    [Std.TransCmp cmp'] (unseen : ∀ a b, cmp' (f a) (f b) = cmp a b)
    (same : (left.map f).Perm (right.map f)) (distinct : ((left.map f).map key).Nodup)
    (separated : ∀ a b, cmp' a b = .eq → key a = key b)
    : (sortBy cmp left).map f = (sortBy cmp right).map f := by
  rw [map_sortBy f unseen, map_sortBy f unseen]
  apply sortBy_perm same
  intro a ha b hb equal
  exact List.inj_on_of_nodup_map distinct ha hb (separated a b equal)

-----------------------------------------------------------------------------------------
-- The first element of each key

section FirstOfKey

variable [DecidableEq κ]

/-- Keeps each element whose key has not been seen. -/
def keepFirst (key : α → κ) (seen : List κ) : List α → List α
  | [] => []
  | element :: rest =>
      if key element ∈ seen then keepFirst key seen rest
      else element :: keepFirst key (key element :: seen) rest

theorem keepFirst_eq_self {key : α → κ} {seen : List κ}
    (unseen : ∀ element ∈ elements, key element ∉ seen)
    (distinct : (elements.map key).Nodup)
    : keepFirst key seen elements = elements := by
  induction elements generalizing seen with
  | nil => rfl
  | cons element rest ih =>
      obtain ⟨fresh, distinct⟩ := List.nodup_cons.mp distinct
      rw [keepFirst, if_neg (unseen element List.mem_cons_self), ih ?_ distinct]
      intro other member known
      rcases List.mem_cons.mp known with same | known
      · exact fresh (same ▸ List.mem_map_of_mem member)
      · exact unseen other (List.mem_cons_of_mem _ member) known

/-- One more element is kept unless its key has been seen. -/
theorem keepFirst_concat {key : α → κ} {seen : List κ} {last : α}
    : keepFirst key seen (elements ++ [last])
      = keepFirst key seen elements
        ++ if key last ∈ seen ∨ key last ∈ elements.map key then [] else [last] := by
  induction elements generalizing seen with
  | nil => simp [keepFirst]
  | cons element rest ih =>
      simp only [List.cons_append, keepFirst, List.map_cons, List.mem_cons]
      by_cases known : key element ∈ seen
      · by_cases same : key last = key element
        · simp [known, same, ih]
        · simp [known, same, ih]
      · rw [if_neg known, if_neg known, ih, List.cons_append]
        by_cases same : key last = key element <;> simp [same]

/-- The kept elements have the keys that are not seen. -/
theorem mem_map_keepFirst {key : α → κ} {seen : List κ} {wanted : κ}
    : wanted ∈ (keepFirst key seen elements).map key
      ↔ wanted ∈ elements.map key ∧ wanted ∉ seen := by
  induction elements generalizing seen with
  | nil => simp [keepFirst]
  | cons element rest ih =>
      by_cases same : wanted = key element
      · subst same
        by_cases known : key element ∈ seen <;> simp [keepFirst, known, ih]
      · by_cases known : key element ∈ seen <;> simp [keepFirst, known, ih, same]

theorem mem_map_keepFirst_nil {key : α → κ} {wanted : κ}
    : wanted ∈ (keepFirst key [] elements).map key ↔ wanted ∈ elements.map key := by
  simp [mem_map_keepFirst]

@[simp]
theorem mem_keepFirst {seen keys : List κ} {key : κ}
    : key ∈ keepFirst id seen keys ↔ key ∈ keys ∧ key ∉ seen := by
  induction keys generalizing seen with
  | nil => simp [keepFirst]
  | cons head rest ih =>
      by_cases same : key = head
      · subst same
        by_cases known : key ∈ seen <;> simp [keepFirst, known, ih]
      · by_cases known : head ∈ seen <;> simp [keepFirst, known, ih, same]

theorem nodup_keepFirst (seen keys : List κ) : (keepFirst id seen keys).Nodup := by
  induction keys generalizing seen with
  | nil => exact .nil
  | cons head rest ih =>
      rw [keepFirst]
      split
      · exact ih seen
      · refine List.nodup_cons.mpr ⟨?_, ih _⟩
        simp

end FirstOfKey

-----------------------------------------------------------------------------------------
-- In the order of another list

section Ranked

variable [DecidableEq κ] {rank : κ → Nat} {reference chosen : List κ} {known : κ → Bool}

/-- Chosen elements that are in a list, each once and by their rank there, are that list's
elements that are chosen.
-/
theorem sortOn_keepFirst_filter (ranked : reference.Pairwise (rank · < rank ·))
    (known_iff : ∀ element, known element = true ↔ element ∈ reference)
    : sortOn rank (keepFirst id [] (chosen.filter known))
      = reference.filter (· ∈ chosen) := by
  have distinct : reference.Nodup := ranked.imp fun less => ne_of_apply_ne rank (ne_of_lt less)
  have perm : (sortOn rank (keepFirst id [] (chosen.filter known))).Perm
      (reference.filter (· ∈ chosen)) := by
    apply (perm_sortOn _ _).trans
    apply (List.perm_ext_iff_of_nodup (nodup_keepFirst _ _) (distinct.filter _)).mpr
    intro element
    simp [known_iff, and_comm]
  refine List.Perm.eq_of_pairwise ?_ (pairwise_sortOn _ _)
    ((ranked.imp fun less => less.le).filter _) perm
  intro a b ha hb le ge
  have ha := List.mem_of_mem_filter (perm.mem_iff.mp ha)
  have hb := List.mem_of_mem_filter hb
  have ranks : (reference.map rank).Nodup :=
    List.pairwise_map.mpr (ranked.imp fun less => less.ne)
  exact List.inj_on_of_nodup_map ranks ha hb (le_antisymm le ge)

end Ranked

end FauPortalen.Foundations

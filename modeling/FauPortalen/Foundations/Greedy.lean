import Mathlib.Data.List.Basic
import Mathlib.Data.List.Induction
import Mathlib.Data.List.Pairwise
import Mathlib.Data.Set.Finite.List
import Mathlib.Order.WellFounded

/-! Greedy selection from a ranked list: an element is taken unless one taken before it
blocks it. The declarative description of the selection determines it.
-/

namespace FauPortalen.Foundations

variable {α : Type} {blocks : α → α → Prop}

/-- The taken elements do not block each other, and whatever was passed over is blocked by
one taken before it.
-/
inductive IsGreedy (blocks : α → α → Prop) : List α → List α → Prop
  | nil : IsGreedy blocks [] []
  | take {ranked taken : List α} {next : α} :
      IsGreedy blocks ranked taken
      → (∀ chosen ∈ taken, ¬ blocks chosen next)
      → IsGreedy blocks (ranked ++ [next]) (taken ++ [next])
  | pass {ranked taken : List α} {next chosen : α} :
      IsGreedy blocks ranked taken
      → chosen ∈ taken
      → blocks chosen next
      → IsGreedy blocks (ranked ++ [next]) taken

namespace IsGreedy

theorem subset {ranked taken : List α} (h : IsGreedy blocks ranked taken)
    : taken ⊆ ranked := by
  induction h with
  | nil => exact List.Subset.refl _
  | take _ _ ih =>
      exact List.append_subset.mpr
        ⟨List.subset_append_of_subset_left _ ih, List.subset_append_right _ _⟩
  | pass _ _ _ ih => exact List.subset_append_of_subset_left _ ih

theorem pairwise {ranked taken : List α} (h : IsGreedy blocks ranked taken)
    : taken.Pairwise fun earlier later => ¬ blocks earlier later := by
  induction h with
  | nil => exact .nil
  | take _ free ih =>
      refine List.pairwise_append.mpr ⟨ih, List.pairwise_singleton _ _, ?_⟩
      intro chosen member next same
      cases List.mem_singleton.mp same
      exact free chosen member
  | pass _ _ _ ih => exact ih

/-- Distinct taken elements are not related by a symmetric relation that blocks. -/
theorem eq_of_related {ranked taken : List α} (h : IsGreedy blocks ranked taken)
    (related : α → α → Prop) (symmetric : ∀ a b, related a b → related b a)
    (stronger : ∀ a b, related a b → blocks a b) {left right : α}
    (hl : left ∈ taken) (hr : right ∈ taken) (same : related left right)
    : left = right := by
  by_contra differ
  have apart : taken.Pairwise fun a b => ¬ related a b :=
    h.pairwise.imp fun free held => free (stronger _ _ held)
  have : Std.Symm fun a b => ¬ related a b := ⟨fun a b free held => free (symmetric b a held)⟩
  exact apart.forall hl hr differ same

end IsGreedy

/-- A selection carries over along a map under which the same elements block each other. -/
theorem IsGreedy.map {β : Type} {blocks' : β → β → Prop} (image : α → β)
    {ranked taken : List α} (h : IsGreedy blocks ranked taken)
    (agree : ∀ a ∈ ranked, ∀ b ∈ ranked, blocks a b ↔ blocks' (image a) (image b))
    : IsGreedy blocks' (ranked.map image) (taken.map image) := by
  induction h with
  | nil => exact .nil
  | @take ranked taken next selected free ih =>
      rw [List.map_append, List.map_append]
      refine .take (ih fun a ha b hb =>
        agree a (List.mem_append_left _ ha) b (List.mem_append_left _ hb)) ?_
      intro chosen member blocked
      obtain ⟨element, inside, rfl⟩ := List.mem_map.mp member
      refine free element inside ((agree element ?_ next ?_).mpr blocked)
      · exact List.mem_append_left _ (selected.subset inside)
      · exact List.mem_append_right _ (List.mem_singleton_self next)
  | @pass ranked taken next chosen selected inside blocked ih =>
      rw [List.map_append]
      refine .pass (ih fun a ha b hb =>
        agree a (List.mem_append_left _ ha) b (List.mem_append_left _ hb))
        (List.mem_map_of_mem inside) ?_
      refine (agree chosen ?_ next ?_).mp blocked
      · exact List.mem_append_left _ (selected.subset inside)
      · exact List.mem_append_right _ (List.mem_singleton_self next)

-----------------------------------------------------------------------------------------
-- Best-first sets

section

variable {κ : Type} [LinearOrder κ] {rank : α → κ}

/-- The set holds exactly the elements in question that no better one in it blocks. -/
def IsBestFirst (among : α → Prop) (rank : α → κ) (blocks : α → α → Prop)
    (chosen : α → Prop) : Prop :=
  ∀ element, chosen element
    ↔ among element ∧ ∀ better, chosen better → rank better < rank element →
      ¬ blocks better element

/-- A best-first set of finitely many elements is unique, by induction on the rank. -/
theorem IsBestFirst.unique {ranked : List α} {left right : α → Prop}
    (hl : IsBestFirst (· ∈ ranked) rank blocks left)
    (hr : IsBestFirst (· ∈ ranked) rank blocks right) (element : α)
    : left element ↔ right element := by
  by_cases inside : element ∈ ranked
  · let _ : Preorder { e // e ∈ ranked } := Preorder.lift fun e => rank e.1
    have : Finite { e // e ∈ ranked } := List.finite_toSet ranked
    have founded : WellFounded fun a b : { e // e ∈ ranked } => a < b := wellFounded_lt
    have agree : ∀ e : { e // e ∈ ranked }, left e.1 ↔ right e.1 := by
      intro e
      induction e using founded.induction with
      | _ e ih =>
          rw [hl e.1, hr e.1]
          refine and_congr_right fun _ => forall_congr' fun better => ?_
          constructor
          · intro free chosen above
            exact free ((ih ⟨better, ((hr better).mp chosen).1⟩ above).mpr chosen) above
          · intro free chosen above
            exact free ((ih ⟨better, ((hl better).mp chosen).1⟩ above).mp chosen) above
    exact agree ⟨element, inside⟩
  · have out (chosen : α → Prop) (best : IsBestFirst (· ∈ ranked) rank blocks chosen)
        : ¬ chosen element := fun h => inside ((best element).mp h).1
    exact iff_of_false (out left hl) (out right hr)

/-- The greedy selection from a list sorted by rank is a best-first set. -/
theorem IsGreedy.isBestFirst {ranked taken : List α} (h : IsGreedy blocks ranked taken)
    (sorted : ranked.Pairwise (rank · ≤ rank ·))
    (injective : ∀ a ∈ ranked, ∀ b ∈ ranked, rank a = rank b → a = b)
    : IsBestFirst (· ∈ ranked) rank blocks (· ∈ taken) := by
  induction h with
  | nil => simp [IsBestFirst]
  | @take ranked taken next selected free ih =>
      obtain ⟨before, _, last⟩ := List.pairwise_append.mp sorted
      have best := ih before fun a ha b hb =>
        injective a (List.mem_append_left _ ha) b (List.mem_append_left _ hb)
      intro element
      simp only [List.mem_append, List.mem_singleton]
      constructor
      · intro chosen
        rcases chosen with earlier | rfl
        · obtain ⟨inside, unblocked⟩ := (best element).mp earlier
          refine ⟨.inl inside, fun better member above => ?_⟩
          rcases member with taken_before | rfl
          · exact unblocked better taken_before above
          · exact absurd (last element inside better (List.mem_singleton_self better))
              (not_le_of_gt above)
        · refine ⟨.inr rfl, fun better member above => ?_⟩
          rcases member with taken_before | rfl
          · exact free better taken_before
          · exact absurd above (lt_irrefl _)
      · intro ⟨inside, unblocked⟩
        rcases inside with earlier | rfl
        · exact .inl ((best element).mpr
            ⟨earlier, fun better member above => unblocked better (.inl member) above⟩)
        · exact .inr rfl
  | @pass ranked taken next chosen selected taken_chosen blocked ih =>
      obtain ⟨before, _, last⟩ := List.pairwise_append.mp sorted
      have best := ih before fun a ha b hb =>
        injective a (List.mem_append_left _ ha) b (List.mem_append_left _ hb)
      intro element
      refine (best element).trans ?_
      simp only [List.mem_append, List.mem_singleton]
      refine and_congr_left fun unblocked => ⟨.inl, fun inside => ?_⟩
      rcases inside with earlier | rfl
      · exact earlier
      · -- the element that blocks is no worse, so it is the element itself
        have member := selected.subset taken_chosen
        have above := last chosen member element (List.mem_singleton_self element)
        rcases lt_or_eq_of_le above with better | same
        · exact absurd blocked (unblocked chosen taken_chosen better)
        · have equal := injective chosen (List.mem_append_left _ member) element
            (List.mem_append_right _ (List.mem_singleton_self element)) same
          exact equal ▸ member

end

-----------------------------------------------------------------------------------------
-- The selection, computed

variable [DecidableRel blocks]

/-- Takes the next element unless a taken one blocks it. -/
def greedyStep (blocks : α → α → Prop) [DecidableRel blocks] (taken : List α) (next : α)
    : List α :=
  if ∃ chosen ∈ taken, blocks chosen next then taken else taken ++ [next]

def greedySelect (blocks : α → α → Prop) [DecidableRel blocks] (ranked : List α) : List α :=
  ranked.foldl (greedyStep blocks) []

/-- The selection meets its description, by induction from the end of the ranking. -/
theorem greedySelect_isGreedy (blocks : α → α → Prop) [DecidableRel blocks] (ranked : List α)
    : IsGreedy blocks ranked (greedySelect blocks ranked) := by
  induction ranked using List.reverseRecOn with
  | nil => exact .nil
  | append_singleton ranked next ih =>
      simp only [greedySelect, List.foldl_append, List.foldl_cons, List.foldl_nil]
      unfold greedyStep
      split
      · next blocked =>
          obtain ⟨chosen, inside, blocked⟩ := blocked
          exact .pass ih inside blocked
      · next free =>
          refine .take ih fun chosen inside blocked => ?_
          exact free ⟨chosen, inside, blocked⟩

end FauPortalen.Foundations

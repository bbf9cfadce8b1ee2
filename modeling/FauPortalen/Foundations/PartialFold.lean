import Mathlib.Data.List.Basic
import Mathlib.Data.Option.Basic

/-! Folding a partial step over a list: `none` stops the whole fold. The rules carry an
invariant over every prefix of the list, with the elements still to come in view.
-/

namespace FauPortalen.Foundations

variable {σ α : Type} {step : σ → α → Option σ}

/-- A fold over a concatenation runs the first part and continues with the second. -/
theorem foldlM_append_eq_some {first second : List α} {before after : σ}
    : (first ++ second).foldlM step before = some after
      ↔ ∃ middle, first.foldlM step before = some middle
          ∧ second.foldlM step middle = some after := by
  rw [List.foldlM_append]
  exact Option.bind_eq_some_iff

theorem foldlM_cons_eq_some {head : α} {rest : List α} {before after : σ}
    : (head :: rest).foldlM step before = some after
      ↔ ∃ middle, step before head = some middle
          ∧ rest.foldlM step middle = some after := by
  rw [List.foldlM_cons]
  exact Option.bind_eq_some_iff

/-- An invariant that sees the remaining elements holds when the fold ends, by induction on
the elements.
-/
theorem foldlM_invariant {P : σ → List α → Prop}
    (preserves : ∀ before head rest after,
      step before head = some after → P before (head :: rest) → P after rest)
    {elements : List α} {before after : σ}
    (run : elements.foldlM step before = some after) (start : P before elements)
    : P after [] := by
  induction elements generalizing before with
  | nil =>
      cases run
      exact start
  | cons head rest ih =>
      obtain ⟨middle, stepped, rest_run⟩ := foldlM_cons_eq_some.mp run
      exact ih rest_run (preserves _ _ _ _ stepped start)

/-- An invariant of single steps alone holds when the fold ends. -/
theorem foldlM_preserves {P : σ → Prop} {elements : List α}
    (preserves : ∀ before, ∀ head ∈ elements, ∀ after,
      step before head = some after → P before → P after)
    {before after : σ} (run : elements.foldlM step before = some after) (start : P before)
    : P after := by
  induction elements generalizing before with
  | nil =>
      cases run
      exact start
  | cons head rest ih =>
      obtain ⟨middle, stepped, rest_run⟩ := foldlM_cons_eq_some.mp run
      exact ih (fun b e member => preserves b e (List.mem_cons_of_mem _ member)) rest_run
        (preserves before head List.mem_cons_self _ stepped start)

/-- A fold whose step succeeds wherever the invariant holds is total, and ends in the
invariant.
-/
theorem foldlM_total {P : σ → Prop} {elements : List α}
    (progress : ∀ before, ∀ head ∈ elements, P before →
      ∃ after, step before head = some after ∧ P after)
    {before : σ} (start : P before)
    : ∃ after, elements.foldlM step before = some after ∧ P after := by
  induction elements generalizing before with
  | nil => exact ⟨before, rfl, start⟩
  | cons head rest ih =>
      obtain ⟨middle, stepped, held⟩ := progress before head List.mem_cons_self start
      obtain ⟨after, run, final⟩ :=
        ih (fun b e member => progress b e (List.mem_cons_of_mem _ member)) held
      exact ⟨after, foldlM_cons_eq_some.mpr ⟨middle, stepped, run⟩, final⟩

/-- Two folds over the same elements stay related, given what is left of the elements. -/
theorem foldlM_related {τ : Type} {other : τ → α → Option τ} {P : σ → τ → List α → Prop}
    (preserves : ∀ left right head rest left' right', P left right (head :: rest) →
      step left head = some left' → other right head = some right' → P left' right' rest)
    {elements : List α} {left left' : σ} {right right' : τ}
    (run : elements.foldlM step left = some left')
    (run_other : elements.foldlM other right = some right') (start : P left right elements)
    : P left' right' [] := by
  induction elements generalizing left right with
  | nil =>
      cases run
      cases run_other
      exact start
  | cons head rest ih =>
      obtain ⟨middle, stepped, later⟩ := foldlM_cons_eq_some.mp run
      obtain ⟨middle', stepped', later'⟩ := foldlM_cons_eq_some.mp run_other
      exact ih later later' (preserves _ _ _ _ _ _ start stepped stepped')

/-- Steps that fail together and leave related results continue alike. -/
theorem bind_rel {α β γ δ : Type} {R : α → β → Prop} {S : γ → δ → Prop} {left : Option α}
    {right : Option β} {next : α → Option γ} {other : β → Option δ}
    (first : Option.Rel R left right) (later : ∀ a b, R a b → Option.Rel S (next a) (other b))
    : Option.Rel S (left >>= next) (right >>= other) := by
  cases first with
  | none => exact .none
  | some related => exact later _ _ related

theorem eq_of_rel_eq {α : Type} {left right : Option α} (h : Option.Rel Eq left right)
    : left = right := by
  cases h with
  | none => rfl
  | some same => exact congrArg some same

/-- Folds whose steps fail together and stay related fail together and end related. -/
theorem foldlM_rel {τ : Type} {other : τ → α → Option τ} {R : σ → τ → Prop}
    (steps : ∀ left right, R left right → ∀ element,
      Option.Rel R (step left element) (other right element))
    {left : σ} {right : τ} (start : R left right) (elements : List α)
    : Option.Rel R (elements.foldlM step left) (elements.foldlM other right) := by
  induction elements generalizing left right with
  | nil => exact .some start
  | cons head rest ih =>
      rw [List.foldlM_cons, List.foldlM_cons]
      exact bind_rel (steps left right start head) fun _ _ related => ih related

/-- What a fold has collected was there at its start, or was added by one of its steps. -/
theorem foldlM_collects {β : Type} (image : σ → List β) {Adds : σ → α → β → Prop}
    (collects : ∀ before, ∀ head, ∀ after, step before head = some after →
      ∀ x, x ∈ image after ↔ x ∈ image before ∨ Adds before head x)
    {elements : List α} {before after : σ}
    (run : elements.foldlM step before = some after) (x : β)
    : x ∈ image after
      ↔ x ∈ image before ∨ ∃ first head rest middle, elements = first ++ head :: rest
        ∧ first.foldlM step before = some middle ∧ Adds middle head x := by
  induction elements generalizing before with
  | nil =>
      cases run
      simp
  | cons head rest ih =>
      obtain ⟨middle, stepped, later⟩ := foldlM_cons_eq_some.mp run
      rw [ih later, collects before head middle stepped x, or_assoc]
      refine or_congr_right ⟨?_, ?_⟩
      · rintro (added | ⟨first, head', rest', state, rfl, reached, added⟩)
        · exact ⟨[], head, rest, before, rfl, rfl, added⟩
        · exact ⟨head :: first, head', rest', state, rfl,
            foldlM_cons_eq_some.mpr ⟨middle, stepped, reached⟩, added⟩
      · rintro ⟨first, head', rest', state, split, reached, added⟩
        cases first with
        | nil =>
            cases split
            cases reached
            exact .inl added
        | cons head'' first =>
            obtain ⟨rfl, rfl⟩ := List.cons.inj split
            obtain ⟨middle', stepped', reached'⟩ := foldlM_cons_eq_some.mp reached
            cases stepped.symm.trans stepped'
            exact .inr ⟨first, head', rest', state, rfl, reached', added⟩

-----------------------------------------------------------------------------------------
-- Partial maps

section

variable {α β : Type} {elements : List α}

/-- A map of all elements succeeds with the images in order. -/
theorem mapM_eq_some_iff_map {f : α → Option β} {images : List β}
    : elements.mapM f = some images ↔ elements.map f = images.map some := by
  induction elements generalizing images with
  | nil =>
      rw [List.mapM_nil, List.map_nil]
      constructor
      · intro same
        cases same
        rfl
      · intro same
        rw [List.map_eq_nil_iff.mp same.symm]
        rfl
  | cons head rest ih =>
      rw [List.mapM_cons]
      simp only [Option.bind_eq_bind, Option.bind_eq_some_iff]
      constructor
      · rintro ⟨image, first, others, later, same⟩
        cases same
        rw [List.map_cons, List.map_cons, first, ih.mp later]
      · intro same
        cases images with
        | nil => cases same
        | cons image others =>
            obtain ⟨first, later⟩ := List.cons.inj same
            exact ⟨image, first, others, ih.mpr later, rfl⟩

/-- Where every element has an image, mapping gives the images. -/
theorem mapM_eq_filterMap {f g : α → Option β}
    (defined : ∀ element ∈ elements, f element = g element ∧ (g element).isSome)
    : elements.mapM f = some (elements.filterMap g) := by
  induction elements with
  | nil => rfl
  | cons head rest ih =>
      obtain ⟨same, some_image⟩ := defined head List.mem_cons_self
      obtain ⟨image, found⟩ := Option.isSome_iff_exists.mp some_image
      rw [List.mapM_cons, ih fun element member => defined element (List.mem_cons_of_mem _ member),
        same, found, List.filterMap_cons_some found]
      rfl

end

end FauPortalen.Foundations

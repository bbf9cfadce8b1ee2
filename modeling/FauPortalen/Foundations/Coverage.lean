import Mathlib.Data.Finset.Max

/-! Half-open intervals on a line, and where they leave a gap: a stretch that is covered at its
start and at every end of an interval inside it is covered throughout.
-/

namespace FauPortalen.Foundations

variable {δ : Type} [LinearOrder δ] {intervals : List (δ × δ)} {first last day : δ}

/-- Some interval holds the point; its end does not belong to it. -/
def Covered (intervals : List (δ × δ)) (day : δ) : Prop :=
  ∃ interval ∈ intervals, interval.1 ≤ day ∧ day < interval.2

/-- From a covered point to an uncovered one there is an end that is not covered: the last end
not after the uncovered point, for an interval over it would reach further.
-/
theorem exists_uncovered_end (covered : Covered intervals first) (later : first ≤ day)
    (uncovered : ¬ Covered intervals day)
    : ∃ interval ∈ intervals, first < interval.2 ∧ interval.2 ≤ day
        ∧ ¬ Covered intervals interval.2 := by
  let passed := (intervals.filter (·.2 ≤ day)).map (·.2)
  have of_passed {interval : δ × δ} (inside : interval ∈ intervals) (reaches : interval.1 ≤ day)
      : interval.2 ∈ passed.toFinset := by
    have ended : interval.2 ≤ day :=
      not_lt.mp fun beyond => uncovered ⟨interval, inside, reaches, beyond⟩
    exact List.mem_toFinset.mpr
      (List.mem_map_of_mem (List.mem_filter.mpr ⟨inside, decide_eq_true ended⟩))
  obtain ⟨start, inside, starts, ends⟩ := covered
  have reached := of_passed inside (starts.trans later)
  obtain ⟨final, present, largest⟩ := passed.toFinset.exists_max_image id ⟨_, reached⟩
  obtain ⟨interval, there, rfl⟩ := List.mem_map.mp (List.mem_toFinset.mp present)
  obtain ⟨there, before⟩ := List.mem_filter.mp there
  have before : interval.2 ≤ day := of_decide_eq_true before
  refine ⟨interval, there, ends.trans_le (largest _ reached), before, ?_⟩
  rintro ⟨interval, present, starts', ends'⟩
  exact absurd (largest _ (of_passed present (starts'.trans before))) (not_le.mpr ends')

/-- A stretch has an uncovered point when its first is one, or an end inside it is. -/
theorem exists_uncovered_iff (some_ : first < last)
    : (∃ day, first ≤ day ∧ day < last ∧ ¬ Covered intervals day)
      ↔ ¬ Covered intervals first
        ∨ ∃ interval ∈ intervals, first < interval.2 ∧ interval.2 < last
            ∧ ¬ Covered intervals interval.2 := by
  constructor
  · rintro ⟨day, from_, until_, uncovered⟩
    by_cases covered : Covered intervals first
    · obtain ⟨interval, inside, after, before, open_⟩ :=
        exists_uncovered_end covered from_ uncovered
      exact .inr ⟨interval, inside, after, before.trans_lt until_, open_⟩
    · exact .inl covered
  · rintro (uncovered | ⟨interval, _, after, before, uncovered⟩)
    · exact ⟨first, le_refl first, some_, uncovered⟩
    · exact ⟨interval.2, after.le, before, uncovered⟩

end FauPortalen.Foundations

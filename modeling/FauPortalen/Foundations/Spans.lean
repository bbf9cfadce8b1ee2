import Mathlib.Order.Bounds.Basic
import Mathlib.Data.List.Pairwise
import Mathlib.Order.MinMax
import FauPortalen.Foundations.Coverage

/-! Half-open spans of a linear order, and the runs they merge into when every two that touch or
overlap are joined.
-/

namespace FauPortalen.Foundations

variable {α : Type} [LinearOrder α]

/-- The runs that spans merge into, the last run first. -/
structure MergedInto (spans runs : List (α × α)) : Prop where
  apart : runs.Pairwise fun later earlier => earlier.2 < later.1
  started : ∀ run ∈ runs, ∃ span ∈ spans, span.1 = run.1
  within : ∀ span ∈ spans, ∃ run ∈ runs, run.1 ≤ span.1 ∧ span.2 ≤ run.2
  filled : ∀ run ∈ runs, ∀ point, run.1 ≤ point → point < run.2 → Covered spans point
  proper : ∀ run ∈ runs, run.1 < run.2

theorem MergedInto.nil : MergedInto ([] : List (α × α)) [] :=
  ⟨.nil, nofun, nofun, nofun, nofun⟩

theorem Covered.append_left {spans : List (α × α)} {point : α} (covered : Covered spans point)
    (more : List (α × α))
    : Covered (spans ++ more) point := by
  obtain ⟨span, member, inside⟩ := covered
  exact ⟨span, List.mem_append_left more member, inside⟩

section Steps

variable {spans runs : List (α × α)} {start last : α} {span : α × α}

/-- A span that begins after the last run has ended is a run of its own. -/
theorem MergedInto.begins (merged : MergedInto spans runs) (proper : span.1 < span.2)
    (after : ∀ run ∈ runs, run.2 < span.1)
    : MergedInto (spans ++ [span]) (span :: runs) := by
  refine ⟨List.pairwise_cons.mpr ⟨after, merged.apart⟩, ?_, ?_, ?_, ?_⟩
  · intro run member
    rcases List.mem_cons.mp member with rfl | member
    · exact ⟨run, by simp, rfl⟩
    · obtain ⟨first, found, same⟩ := merged.started run member
      exact ⟨first, List.mem_append_left _ found, same⟩
  · intro one member
    rcases List.mem_append.mp member with old | new
    · obtain ⟨run, found, inside⟩ := merged.within one old
      exact ⟨run, List.mem_cons_of_mem _ found, inside⟩
    · obtain rfl := List.mem_singleton.mp new
      exact ⟨one, List.mem_cons_self, le_rfl, le_rfl⟩
  · intro run member point low high
    rcases List.mem_cons.mp member with rfl | member
    · exact ⟨run, by simp, low, high⟩
    · exact (merged.filled run member point low high).append_left _
  · intro run member
    rcases List.mem_cons.mp member with rfl | member
    · exact proper
    · exact merged.proper run member

/-- A span that begins within the last run, or just as it ends, extends that run. -/
theorem MergedInto.extends (merged : MergedInto spans ((start, last) :: runs))
    (sorted : ∀ earlier ∈ spans, earlier.1 ≤ span.1) (touches : span.1 ≤ last)
    : MergedInto (spans ++ [span]) ((start, max last span.2) :: runs) := by
  obtain ⟨after, apart⟩ := List.pairwise_cons.mp merged.apart
  obtain ⟨first, found, same⟩ := merged.started (start, last) List.mem_cons_self
  have begun : start ≤ span.1 := (sorted first found).trans' (le_of_eq same.symm)
  refine ⟨List.pairwise_cons.mpr ⟨after, apart⟩, ?_, ?_, ?_, ?_⟩
  · intro run member
    rcases List.mem_cons.mp member with rfl | member
    · exact ⟨first, List.mem_append_left _ found, same⟩
    · obtain ⟨one, found, same⟩ := merged.started run (List.mem_cons_of_mem _ member)
      exact ⟨one, List.mem_append_left _ found, same⟩
  · intro one member
    rcases List.mem_append.mp member with old | new
    · obtain ⟨run, found, low, high⟩ := merged.within one old
      rcases List.mem_cons.mp found with rfl | found
      · exact ⟨_, List.mem_cons_self, low, high.trans (le_max_left _ _)⟩
      · exact ⟨run, List.mem_cons_of_mem _ found, low, high⟩
    · obtain rfl := List.mem_singleton.mp new
      exact ⟨_, List.mem_cons_self, begun, le_max_right _ _⟩
  · intro run member point low high
    rcases List.mem_cons.mp member with rfl | member
    · rcases lt_or_ge point last with early | late
      · exact (merged.filled _ List.mem_cons_self point low early).append_left _
      · have inside : point < span.2 := (lt_max_iff.mp high).resolve_left late.not_gt
        exact ⟨span, by simp, touches.trans late, inside⟩
    · exact (merged.filled run (List.mem_cons_of_mem _ member) point low high).append_left _
  · intro run member
    rcases List.mem_cons.mp member with rfl | member
    · exact lt_of_lt_of_le (merged.proper (start, last) List.mem_cons_self) (le_max_left _ _)
    · exact merged.proper run (List.mem_cons_of_mem _ member)

end Steps

section Results

variable {spans runs : List (α × α)} {run : α × α} {point : α}

/-- The runs cover what the spans cover. -/
theorem MergedInto.covered_iff (merged : MergedInto spans runs)
    : Covered spans point ↔ Covered runs point := by
  constructor
  · rintro ⟨span, member, low, high⟩
    obtain ⟨run, found, before, after⟩ := merged.within span member
    exact ⟨run, found, before.trans low, high.trans_le after⟩
  · rintro ⟨run, found, low, high⟩
    exact merged.filled run found point low high

/-- Of two runs, one ends before the other begins. -/
theorem MergedInto.apart_of_ne (merged : MergedInto spans runs) {other : α × α}
    (member : run ∈ runs) (found : other ∈ runs) (differ : other ≠ run)
    : other.2 < run.1 ∨ run.2 < other.1 := by
  have : Std.Symm fun a b : α × α => a.2 < b.1 ∨ b.2 < a.1 := ⟨fun _ _ => Or.symm⟩
  have apart : runs.Pairwise fun a b => a.2 < b.1 ∨ b.2 < a.1 :=
    merged.apart.imp fun before => .inr before
  exact apart.forall found member differ

/-- Below a bound there is always a point at or above every given one that is below it. -/
theorem exists_above (points : List α) {low bound : α} (below : low < bound)
    : ∃ high, low ≤ high ∧ high < bound ∧ ∀ point ∈ points, point < bound → point ≤ high := by
  induction points with
  | nil => exact ⟨low, le_rfl, below, nofun⟩
  | cons head rest ih =>
      obtain ⟨high, above, small, most⟩ := ih
      by_cases inside : head < bound
      · refine ⟨max high head, above.trans (le_max_left _ _), max_lt small inside, ?_⟩
        intro point member lower
        rcases List.mem_cons.mp member with rfl | member
        · exact le_max_right _ _
        · exact (most point member lower).trans (le_max_left _ _)
      · refine ⟨high, above, small, ?_⟩
        intro point member lower
        rcases List.mem_cons.mp member with rfl | member
        · exact absurd lower inside
        · exact most point member lower

/-- The run around a covered point begins where the cover up to that point does. -/
theorem MergedInto.isLeast (merged : MergedInto spans runs) (member : run ∈ runs)
    (low : run.1 ≤ point) (high : point < run.2)
    : IsLeast {first | first ≤ point
        ∧ ∀ inner, first ≤ inner → inner ≤ point → Covered spans inner} run.1 := by
  refine ⟨⟨low, ?_⟩, ?_⟩
  · intro inner after before
    exact merged.filled run member inner after (before.trans_lt high)
  · rintro first ⟨_, covered⟩
    by_contra early
    -- The last point that any earlier run reaches, or `first`, is covered by none.
    obtain ⟨gap, above, small, most⟩ := exists_above (runs.map Prod.snd) (not_le.mp early)
    obtain ⟨other, found, begun, unended⟩ :=
      merged.covered_iff.mp (covered gap above (small.le.trans low))
    have differ : other ≠ run := by
      rintro rfl
      exact small.not_ge begun
    rcases merged.apart_of_ne member found differ with before | after
    · exact unended.not_ge (most other.2 (List.mem_map_of_mem found) before)
    · exact absurd (begun.trans_lt small) (after.trans' (merged.proper run member)).not_gt

/-- A span that begins before a run has ended before it too. -/
theorem MergedInto.ended (merged : MergedInto spans runs) {span : α × α} (member : run ∈ runs)
    (found : span ∈ spans) (early : span.1 < run.1)
    : span.2 < run.1 := by
  obtain ⟨other, held, begun, ended⟩ := merged.within span found
  have differ : other ≠ run := by
    rintro rfl
    exact early.not_ge begun
  rcases merged.apart_of_ne member held differ with before | after
  · exact ended.trans_lt before
  · exact absurd (begun.trans_lt early) (after.trans' (merged.proper run member)).not_gt

end Results

end FauPortalen.Foundations

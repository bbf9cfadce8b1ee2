import Mathlib.Data.List.Infix
import Mathlib.Data.Nat.Find

/-! The first place where one list occurs within another. -/

namespace FauPortalen.Foundations

variable {α : Type} {needle haystack before after before' after' : List α}

/-- The haystack is what stands before its first occurrence of the needle, the needle, and what
follows.
-/
structure FirstOccurrence (needle haystack before after : List α) : Prop where
  split : haystack = before ++ needle ++ after
  first
    : ∀ before' after',
        haystack = before' ++ needle ++ after' → before.length ≤ before'.length

/-- There is one first occurrence. -/
theorem FirstOccurrence.unique (one : FirstOccurrence needle haystack before after)
    (other : FirstOccurrence needle haystack before' after')
    : before = before' ∧ after = after' := by
  have length : before.length = before'.length :=
    le_antisymm (one.first _ _ other.split) (other.first _ _ one.split)
  have same := one.split.symm.trans other.split
  rw [List.append_assoc, List.append_assoc] at same
  obtain ⟨sameBefore, rest⟩ := List.append_inj same length
  exact ⟨sameBefore, List.append_cancel_left rest⟩

/-- Where a list occurs at all it occurs first. -/
theorem exists_firstOccurrence (occurs : needle <:+: haystack)
    : ∃ before after, FirstOccurrence needle haystack before after := by
  classical
  have some_ : ∃ length, ∃ before after, haystack = before ++ needle ++ after
      ∧ before.length = length := by
    obtain ⟨before, after, split⟩ := occurs
    exact ⟨_, before, after, split.symm, rfl⟩
  obtain ⟨before, after, split, length⟩ := Nat.find_spec some_
  refine ⟨before, after, split, fun before' after' split' => ?_⟩
  rw [length]
  exact Nat.find_min' some_ ⟨before', after', split', rfl⟩

theorem FirstOccurrence.occurs (occurrence : FirstOccurrence needle haystack before after)
    : needle <:+: haystack :=
  ⟨before, after, occurrence.split.symm⟩

section Search

variable [BEq α] [LawfulBEq α]

/-- The library's search finds the first occurrence. -/
theorem dropInfix?_eq_some
    : haystack.dropInfix? needle = some (before, after)
      ↔ FirstOccurrence needle haystack before after := by
  rw [List.dropInfix?_eq_some_iff]
  constructor
  · rintro ⟨⟨needle', split, same⟩, first⟩
    obtain rfl := eq_of_beq same
    exact ⟨split, fun before' after' split' => first before' needle' after' split' BEq.rfl⟩
  · rintro ⟨split, first⟩
    refine ⟨⟨needle, split, BEq.rfl⟩, ?_⟩
    intro before' needle' after' split' same
    obtain rfl := eq_of_beq same
    exact first before' after' split'

end Search

-----------------------------------------------------------------------------------------
-- Pairs

/-- Two elements, one right after the other. -/
theorem pair_infix_iff {a b : α}
    : [a, b] <:+: haystack ↔ (a, b) ∈ haystack.zip haystack.tail := by
  induction haystack with
  | nil => simp
  | cons x rest ih =>
      cases rest with
      | nil => simp [List.infix_cons_iff]
      | cons y others =>
          rw [List.infix_cons_iff, ih]
          simp [List.cons_prefix_cons]

/-- A pair at the end of a list is its last two elements. -/
theorem pair_infix_concat {a b last : α}
    : [a, b] <:+: haystack ++ [last]
      ↔ [a, b] <:+: haystack ∨ haystack.getLast? = some a ∧ b = last := by
  rw [List.infix_concat_iff, or_comm]
  apply or_congr Iff.rfl
  constructor
  · rintro ⟨before, same⟩
    have split : before ++ [a] ++ [b] = haystack ++ [last] := by simpa using same
    obtain ⟨same, ends⟩ := List.append_inj' split rfl
    exact ⟨by rw [← same, List.getLast?_concat], List.singleton_inj.mp ends⟩
  · rintro ⟨ends, rfl⟩
    obtain ⟨before, rfl⟩ := List.getLast?_eq_some_iff.mp ends
    exact ⟨before, by simp⟩

end FauPortalen.Foundations

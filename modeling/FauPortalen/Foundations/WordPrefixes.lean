import Mathlib.Data.List.Basic

/-! Search for the start of a word in texts of words set apart by a blank. -/

namespace FauPortalen.Foundations

variable {α : Type} {blank : α} {query left right : List α}

/-- Somewhere in the text, the query is how the rest of the text starts: at its very start, or
after a blank.
-/
def StartsWord (blank : α) (query text : List α) : Prop := (blank :: query) <:+: (blank :: text)

instance [DecidableEq α] {text : List α} : Decidable (StartsWord blank query text) :=
  inferInstanceAs (Decidable ((blank :: query) <:+: (blank :: text)))

/-- Nothing but the empty query is found in an empty text. -/
theorem StartsWord.ne_nil {text : List α} (found : StartsWord blank query text)
    (some_ : query ≠ [])
    : text ≠ [] := by
  rintro rfl
  obtain ⟨before, after, same⟩ := found
  have short := congrArg List.length same
  have long := List.length_pos_iff.mpr some_
  simp only [List.length_append, List.length_cons, List.length_nil] at short
  omega

theorem StartsWord.append_right (found : StartsWord blank query left)
    : StartsWord blank query (left ++ blank :: right) :=
  found.trans (List.prefix_append (blank :: left) _).isInfix

theorem StartsWord.append_left (found : StartsWord blank query right)
    : StartsWord blank query (left ++ blank :: right) :=
  found.trans (List.suffix_append (blank :: left) _).isInfix

/-- A word is not found across a blank. -/
theorem startsWord_append (word : blank ∉ query)
    : StartsWord blank query (left ++ blank :: right)
      ↔ StartsWord blank query left ∨ StartsWord blank query right := by
  refine ⟨?_, fun found => found.elim .append_right .append_left⟩
  rintro ⟨before, after, same⟩
  have split : before ++ ((blank :: query) ++ after) = (blank :: left) ++ (blank :: right) := by
    rw [← List.append_assoc, same]
    rfl
  rcases List.append_eq_append_iff.mp split with ⟨inner, whole, tail⟩ | ⟨later, _, tail⟩
  · -- the occurrence begins within the left part, behind `before`
    cases inner with
    | nil =>
        refine .inr ?_
        rw [List.nil_append] at tail
        exact ⟨[], after, by rw [List.nil_append, tail]⟩
    | cons first inner =>
        obtain ⟨rfl, rest_same⟩ := List.cons.inj
          (show blank :: (query ++ after) = first :: (inner ++ blank :: right) from tail)
        rcases List.append_eq_append_iff.mp rest_same with ⟨rest, fits, _⟩ | ⟨rest, exceeds, blanks⟩
        · exact .inl ⟨before, rest, by rw [whole, fits]; simp⟩
        · cases rest with
          | nil =>
              rw [List.append_nil] at exceeds
              exact .inl ⟨before, [], by rw [whole, exceeds]; simp⟩
          | cons head rest =>
              obtain ⟨rfl, _⟩ := List.cons.inj blanks
              exact absurd (exceeds ▸ List.mem_append_right inner List.mem_cons_self) word
  · exact .inr ⟨later, after, by rw [tail, List.append_assoc]⟩

/-- A word is found in joined texts when it is found in one of them. -/
theorem startsWord_intercalate (word : blank ∉ query) {texts : List (List α)}
    (some_ : texts ≠ [])
    : StartsWord blank query ([blank].intercalate texts)
      ↔ ∃ text ∈ texts, StartsWord blank query text := by
  induction texts with
  | nil => exact absurd rfl some_
  | cons first rest ih =>
      cases rest with
      | nil => simp
      | cons second rest =>
          have joined : [blank].intercalate (first :: second :: rest)
              = first ++ blank :: [blank].intercalate (second :: rest) := by
            simp [List.intercalate]
          rw [joined, startsWord_append word, ih (by simp)]
          simp

/-- What is found in one of the texts is found in their join. -/
theorem StartsWord.intercalate {texts : List (List α)} {text : List α} (member : text ∈ texts)
    (found : StartsWord blank query text)
    : StartsWord blank query ([blank].intercalate texts) := by
  induction texts with
  | nil => cases member
  | cons first rest ih =>
      cases rest with
      | nil =>
          cases List.mem_singleton.mp member
          simpa using found
      | cons second rest =>
          have joined : [blank].intercalate (first :: second :: rest)
              = first ++ blank :: [blank].intercalate (second :: rest) := by
            simp [List.intercalate]
          rw [joined]
          rcases List.mem_cons.mp member with rfl | later
          · exact found.append_right
          · exact (ih later).append_left

end FauPortalen.Foundations

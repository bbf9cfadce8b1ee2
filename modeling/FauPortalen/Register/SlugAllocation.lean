import Mathlib.Data.Finset.Card
import FauPortalen.Register.SlugFormat

/-! The collision rule always finds a free slug: its numbered candidates all differ, so only finitely
many of them can be taken.
-/

namespace FauPortalen.Register

variable {base stem suffix room : String}

-----------------------------------------------------------------------------------------
-- Making room

/-- Room in front of a suffix is made by shortening, never inside a character. -/
theorem makeRoomFor_ascii (ascii : Ascii base.toList) (suffix : String)
    : ∃ room, makeRoomFor base suffix = some room ∧ room.toList <+: base.toList := by
  unfold makeRoomFor
  dsimp only
  split
  · exact ⟨base, rfl, List.prefix_rfl⟩
  · obtain ⟨cut, cuts, _, shorter⟩ := cutToLen_ascii ascii
      (maxSlugLen - (1 + byteLength suffix.toList))
    exact ⟨String.ofList cut, by rw [cuts]; rfl, String.toList_ofList.symm ▸ shorter⟩

theorem numberedCandidate_ascii (ascii : Ascii stem.toList) (number : Nat)
    : ∃ candidate, numberedCandidate stem number = some candidate := by
  obtain ⟨room, makes, _⟩ := makeRoomFor_ascii ascii number.repr
  exact ⟨_, by rw [numberedCandidate, makes]; rfl⟩

theorem hyphen_not_mem_repr (number : Nat) : '-' ∉ number.repr.toList := by
  rw [Nat.toList_repr]
  intro inside
  exact absurd (Nat.isDigit_of_mem_toDigits (by decide) (by decide) inside) (by decide)

/-- What follows the last hyphen tells the number, whatever was cut before it. -/
theorem numberedCandidate_injective {stem stem' candidate : String} {number number' : Nat}
    (one : numberedCandidate stem number = some candidate)
    (other : numberedCandidate stem' number' = some candidate)
    : number = number' := by
  obtain ⟨room, _, rfl⟩ := Option.map_eq_some_iff.mp one
  obtain ⟨room', _, same⟩ := Option.map_eq_some_iff.mp other
  have number_ (room : String) (number : Nat)
      : (room ++ "-" ++ number.repr).toList.reverse.takeWhile (· ≠ '-')
        = number.repr.toList.reverse := by
    have digits : ∀ c ∈ number.repr.toList.reverse, decide (c ≠ '-') = true := by
      intro c inside
      refine decide_eq_true ?_
      rintro rfl
      exact hyphen_not_mem_repr number (List.mem_reverse.mp inside)
    have hyphen : "-".toList.reverse = ['-'] := rfl
    rw [String.toList_append, String.toList_append, List.reverse_append, List.reverse_append,
      List.takeWhile_append_of_pos digits, hyphen, List.singleton_append,
      List.takeWhile_cons_of_neg (by decide), List.append_nil]
  have ends := (number_ room number).symm.trans (same ▸ number_ room' number')
  have digits := List.reverse_inj.mp ends
  rw [Nat.toList_repr, Nat.toList_repr] at digits
  have value := congrArg (Nat.ofDigitChars 10 · 0) digits
  simpa only [Nat.ofDigitChars_ten_toDigits] using value

-----------------------------------------------------------------------------------------
-- The search

/-- A search that finds nothing has found every candidate taken, by induction on the tries. -/
theorem firstFreeNumbered_none {isTaken : String → Bool} {first count : Nat}
    (ascii : Ascii stem.toList) (none_ : firstFreeNumbered stem isTaken first count = none)
    : ∀ tried < count, ∃ candidate, numberedCandidate stem (first + tried) = some candidate
        ∧ isTaken candidate = true := by
  induction count generalizing first with
  | zero => exact fun tried less => absurd less (Nat.not_lt_zero _)
  | succ count ih =>
      obtain ⟨candidate, made⟩ := numberedCandidate_ascii ascii first
      simp only [firstFreeNumbered, made, Option.bind_eq_bind, Option.bind_some] at none_
      split at none_
      · next taken =>
          intro tried less
          cases tried with
          | zero => exact ⟨candidate, made, taken⟩
          | succ tried =>
              rw [Nat.add_comm tried 1, ← Nat.add_assoc]
              exact ih none_ tried (Nat.lt_of_succ_lt_succ less)
      · cases none_

/-- With more tries than slugs taken the search finds a free one. -/
theorem firstFreeNumbered_succeeds {taken : Finset String} {first count : Nat}
    (ascii : Ascii stem.toList) (enough : taken.card < count)
    : ∃ slug, firstFreeNumbered stem (· ∈ taken) first count = some slug := by
  cases found : firstFreeNumbered stem (· ∈ taken) first count with
  | some slug => exact ⟨slug, rfl⟩
  | none =>
      have all := firstFreeNumbered_none ascii found
      choose! candidate isCandidate isTaken using all
      -- distinct candidates, all taken, are no more than the slugs taken
      have few : (Finset.range count).card ≤ taken.card := by
        refine Finset.card_le_card_of_injOn candidate ?_ ?_
        · intro tried inside
          exact of_decide_eq_true (isTaken tried (Finset.mem_range.mp inside))
        · intro tried inside tried' inside' same
          have one := isCandidate tried (Finset.mem_range.mp inside)
          have other := isCandidate tried' (Finset.mem_range.mp inside')
          have := numberedCandidate_injective one (same ▸ other)
          omega
      rw [Finset.card_range] at few
      omega

section

variable [UnicodeData]

omit [UnicodeData] in
theorem Ascii.append {left right : List Char} (first : Ascii left) (second : Ascii right)
    : Ascii (left ++ right) := by
  intro c inside
  rcases List.mem_append.mp inside with h | h
  · exact first c h
  · exact second c h

theorem firstFreeSlug_succeeds {taken : Finset String} (ascii : Ascii base.toList)
    (postTown : Option String) (few : taken.card < 2 ^ 31)
    : ∃ slug, firstFreeSlug base postTown (· ∈ taken) = some slug := by
  have enough : taken.card < numberedAttempts := few.trans (by decide)
  unfold firstFreeSlug
  split
  · exact ⟨base, rfl⟩
  · split
    · next town found =>
        obtain ⟨name, _, made⟩ := Option.bind_eq_some_iff.mp found
        obtain ⟨room, makes, shorter⟩ := makeRoomFor_ascii ascii town
        have townAscii : Ascii town.toList := by
          cases slugged : slugify name with
          | ok slug =>
              rw [slugged] at made
              obtain rfl : slug = town := Option.some.inj made
              exact (slugify_format slugged).1.ascii
          | error e =>
              rw [slugged] at made
              cases made
        simp only [makes, Option.bind_eq_bind, Option.bind_some]
        split
        · exact ⟨_, rfl⟩
        · refine firstFreeNumbered_succeeds ?_ enough
          rw [String.toList_append, String.toList_append]
          have hyphen : Ascii "-".toList := by simp [Ascii]
          exact .append (.append (fun c inside => ascii c (shorter.subset inside)) hyphen)
            townAscii
    · exact firstFreeNumbered_succeeds ascii enough

/-- The collision rule returns a slug that is not taken, for any base, town and fewer than 2^31 taken
slugs, and no two numbers give it one candidate.
-/
theorem firstFreeSlug_fresh {base : String} (ascii : Ascii base.toList) (postTown : Option String)
    {taken : Finset String} (few : taken.card < 2 ^ 31)
    : (∃ slug, firstFreeSlug base postTown (· ∈ taken) = some slug ∧ slug ∉ taken)
      ∧ ∀ (stem : String) (number number' : Nat) (candidate candidate' : String),
          numberedCandidate stem number = some candidate →
          numberedCandidate stem number' = some candidate' →
          number ≠ number' → candidate ≠ candidate' := by
  constructor
  · obtain ⟨slug, found⟩ := firstFreeSlug_succeeds ascii postTown few
    exact ⟨slug, found, of_decide_eq_false (firstFreeSlug_free found)⟩
  · rintro stem number number' candidate _ one other differ rfl
    exact differ (numberedCandidate_injective one other)

end

section

attribute [local instance] UnicodeData.ascii

/-- With the base and its town taken the search goes on to a number. -/
theorem hosleSkole_fresh
    : ∃ slug, firstFreeSlug "hosle-skole" (some "Hosle")
          (· ∈ ({"hosle-skole", "hosle-skole-hosle"} : Finset String)) = some slug
        ∧ slug ∉ ({"hosle-skole", "hosle-skole-hosle"} : Finset String) := by
  have ascii : ("hosle-skole".toList.all fun c => c.toNat < 128) = true := by decide +kernel
  have bytes : Ascii "hosle-skole".toList := fun c inside =>
    of_decide_eq_true (List.all_eq_true.mp ascii c inside)
  exact (firstFreeSlug_fresh bytes _ (by decide)).1

end

end FauPortalen.Register

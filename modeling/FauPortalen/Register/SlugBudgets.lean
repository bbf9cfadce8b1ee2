import FauPortalen.Register.SlugAllocation

/-! The form of an allocated slug: a suffix that leaves room for some of the base keeps the form and
the cap; a post town's slug that leaves none puts a hyphen first.
-/

set_option linter.unusedSectionVars false

namespace FauPortalen.Register

variable {base suffix stem slug : String}

-----------------------------------------------------------------------------------------
-- A suffix with room in front of it

/-- Two slugs joined by a hyphen are a slug. -/
theorem SlugFormat.join {left right : List Char} (first : SlugFormat left)
    (second : SlugFormat right)
    : SlugFormat (left ++ '-' :: right) := by
  rw [slugFormat_iff, readsSlug_append_hyphen, Bool.and_eq_true]
  exact ⟨slugFormat_iff.mp first, slugFormat_iff.mp second⟩

theorem toList_joined (room suffix : String)
    : (room ++ "-" ++ suffix).toList = room.toList ++ '-' :: suffix.toList := by
  rw [String.toList_append, String.toList_append, List.append_assoc]
  rfl

/-- A slug within the cap. -/
def Allocatable (slug : String) : Prop :=
  SlugFormat slug.toList ∧ slug.toList.length ≤ maxSlugLen

/-- The longest suffix that leaves room for a character of the base. -/
def longestSuffix : Nat := maxSlugLen - 2

/-- A suffix with room in front of it joins what is left of the base to a slug within the cap. -/
theorem makeRoomFor_allocatable (format : SlugFormat base.toList)
    (suffixFormat : SlugFormat suffix.toList) (room_ : suffix.toList.length ≤ longestSuffix)
    : ∃ room, makeRoomFor base suffix = some room ∧ Allocatable (room ++ "-" ++ suffix) := by
  have bytes := byteLength_ascii suffixFormat.ascii
  have baseBytes := byteLength_ascii format.ascii
  have joined {room : String} (roomFormat : SlugFormat room.toList)
      (short : room.toList.length ≤ maxSlugLen - (1 + suffix.toList.length))
      : Allocatable (room ++ "-" ++ suffix) := by
    refine ⟨toList_joined room suffix ▸ roomFormat.join suffixFormat, ?_⟩
    rw [toList_joined, List.length_append, List.length_cons]
    simp only [longestSuffix, maxSlugLen] at room_ short ⊢
    omega
  unfold makeRoomFor
  simp only [bytes, baseBytes]
  split
  · next fits => exact ⟨base, rfl, joined format fits⟩
  · have positive : 0 < maxSlugLen - (1 + suffix.toList.length) := by
      simp only [longestSuffix, maxSlugLen] at room_ ⊢
      omega
    obtain ⟨cut, cuts, short, cutFormat⟩ := format.cutToLen positive
    refine ⟨String.ofList cut, by rw [cuts]; rfl, joined ?_ ?_⟩ <;> rwa [String.toList_ofList]

-----------------------------------------------------------------------------------------
-- Numbers

theorem repr_slugFormat (number : Nat) : SlugFormat number.repr.toList := by
  apply Foundations.Separated.word
  · rw [Nat.toList_repr]
    exact Nat.toDigits_ne_nil
  · intro c inside
    rw [Nat.toList_repr] at inside
    have digit := Nat.isDigit_of_mem_toDigits (by decide) (by decide) inside
    simp [isSlugChar, digit]

/-- A 32-bit number has ten digits at most. -/
theorem length_repr_le {number : Nat} (word : number < 2 ^ 32)
    : number.repr.toList.length ≤ longestSuffix := by
  have ten : number.repr.length ≤ 10 :=
    (Nat.length_repr_le_iff (by decide)).mpr (word.trans (by decide))
  exact ten.trans (by decide)

/-- Numbering a slug gives slugs within the cap, by induction on the tries. -/
theorem firstFreeNumbered_allocatable {isTaken : String → Bool} {first count : Nat}
    (format : SlugFormat stem.toList) (word : first + count ≤ 2 ^ 32)
    (found : firstFreeNumbered stem isTaken first count = some slug)
    : Allocatable slug := by
  induction count generalizing first with
  | zero => cases found
  | succ count ih =>
      obtain ⟨room, makes, allocatable⟩ := makeRoomFor_allocatable format (repr_slugFormat first)
        (length_repr_le (by omega))
      simp only [firstFreeNumbered, numberedCandidate, makes, Option.map_some,
        Option.bind_eq_bind, Option.bind_some] at found
      split at found
      · exact ih (by omega) found
      · cases found
        exact allocatable

-----------------------------------------------------------------------------------------
-- A suffix with no room in front of it

/-- A suffix that takes the whole cap leaves nothing of the base. -/
theorem makeRoomFor_nothing (format : SlugFormat base.toList) (suffixAscii : Ascii suffix.toList)
    (long : longestSuffix < suffix.toList.length)
    : makeRoomFor base suffix = some "" := by
  have budget : maxSlugLen - (1 + byteLength suffix.toList) = 0 := by
    rw [byteLength_ascii suffixAscii]
    simp only [longestSuffix, maxSlugLen] at long ⊢
    omega
  have some_ : ¬ byteLength base.toList ≤ 0 := by
    rw [byteLength_ascii format.ascii]
    intro empty
    exact format.ne_nil (List.length_eq_zero_iff.mp (Nat.le_zero.mp empty))
  have head : base.toList.head? ≠ some '-' := by
    intro hyphen
    obtain ⟨rest, same⟩ := List.head?_eq_some_iff.mp hyphen
    have read := slugFormat_iff.mp (same ▸ format)
    cases read
  unfold makeRoomFor
  simp only [budget, if_neg some_, cutToLen, splitBytes?, Option.bind_eq_bind, Option.bind_some,
    if_neg head, beforeLast?, Option.getD_none]
  rfl

/-- A text that begins with a hyphen is no slug. -/
theorem not_slugFormat_hyphen (rest : List Char) : ¬ SlugFormat ('-' :: rest) := by
  intro format
  cases slugFormat_iff.mp format

/-- Numbering keeps a hyphen that comes first, by induction on the tries: a cut of such a text is
empty or begins with the hyphen.
-/
theorem firstFreeNumbered_hyphen {isTaken : String → Bool} {first count : Nat}
    (ascii : Ascii stem.toList) (hyphen : stem.toList.head? = some '-')
    (found : firstFreeNumbered stem isTaken first count = some slug)
    : slug.toList.head? = some '-' := by
  induction count generalizing first with
  | zero => cases found
  | succ count ih =>
      obtain ⟨room, makes, cut⟩ := makeRoomFor_ascii ascii first.repr
      simp only [firstFreeNumbered, numberedCandidate, makes, Option.map_some,
        Option.bind_eq_bind, Option.bind_some] at found
      split at found
      · exact ih found
      · cases found
        rw [toList_joined]
        cases same : room.toList with
        | nil => rfl
        | cons c rest =>
            rw [same] at cut
            obtain ⟨after, whole⟩ := cut
            rw [← whole] at hyphen
            exact hyphen

-----------------------------------------------------------------------------------------
-- Which post towns keep the form

section

variable [UnicodeData]

/-- The post town's slug leaves no room for the base. -/
def CrowdsOut (postTown : Option String) : Prop :=
  ∃ name town, postTown = some name ∧ slugify name = .ok town
    ∧ longestSuffix < town.toList.length

/-- The slug of a post town, as the search takes it. -/
theorem townSlug_eq_some {postTown : Option String} {town : String}
    : (postTown.bind fun name => (slugify name).toOption) = some town
      ↔ ∃ name, postTown = some name ∧ slugify name = .ok town := by
  cases postTown with
  | none => simp
  | some name =>
      cases made : slugify name with
      | ok made' => simp [made, Except.toOption]
      | error e => simp [made, Except.toOption]

/-- With room for the base every stage of the search gives a slug within the cap. -/
theorem firstFreeSlug_allocatable {isTaken : String → Bool} {postTown : Option String}
    (format : SlugFormat base.toList) (short : base.toList.length ≤ maxSlugLen)
    (room_ : isTaken base = true → ¬ CrowdsOut postTown)
    (found : firstFreeSlug base postTown isTaken = some slug)
    : Allocatable slug := by
  unfold firstFreeSlug at found
  split at found
  · cases found
    exact ⟨format, short⟩
  · next taken =>
      have taken : isTaken base = true := by simpa using taken
      split at found
      · next town slugged =>
          obtain ⟨name, given, made⟩ := townSlug_eq_some.mp slugged
          have fits : town.toList.length ≤ longestSuffix :=
            not_lt.mp fun long => room_ taken ⟨name, town, given, made, long⟩
          obtain ⟨room, makes, allocatable⟩ :=
            makeRoomFor_allocatable format (slugify_format made).1 fits
          simp only [makes, Option.bind_eq_bind, Option.bind_some] at found
          split at found
          · cases found
            exact allocatable
          · exact firstFreeNumbered_allocatable allocatable.1 (by decide) found
      · exact firstFreeNumbered_allocatable format (by decide) found

/-- With no room for a taken base the search gives a text that begins with a hyphen. -/
theorem firstFreeSlug_hyphen {isTaken : String → Bool} {postTown : Option String}
    (format : SlugFormat base.toList) (taken : isTaken base = true)
    (crowded : CrowdsOut postTown)
    (found : firstFreeSlug base postTown isTaken = some slug)
    : slug.toList.head? = some '-' := by
  obtain ⟨name, town, given, made, long⟩ := crowded
  have townAscii := (slugify_format made).1.ascii
  have nothing := makeRoomFor_nothing format townAscii long
  have stem : ("" ++ "-" ++ town).toList = '-' :: town.toList := toList_joined "" town
  unfold firstFreeSlug at found
  simp only [taken, Bool.not_true, Bool.false_eq_true, if_false,
    townSlug_eq_some.mpr ⟨name, given, made⟩, nothing, Option.bind_eq_bind,
    Option.bind_some] at found
  split at found
  · cases found
    rw [stem]
    rfl
  · apply firstFreeNumbered_hyphen ?_ (by rw [stem]; rfl) found
    rw [stem]
    intro c inside
    rcases List.mem_cons.mp inside with rfl | inside
    · decide
    · exact townAscii c inside

/-- A slug is found, and it is in the form and within the cap exactly when the base is free or the
post town's slug leaves room for a character of it.
-/
theorem firstFreeSlug_allocatable_iff (format : SlugFormat base.toList)
    (short : base.toList.length ≤ maxSlugLen) (postTown : Option String)
    (taken : Finset String)
    : (taken.card < 2 ^ 31 → ∃ slug, firstFreeSlug base postTown (· ∈ taken) = some slug)
      ∧ ∀ slug, firstFreeSlug base postTown (· ∈ taken) = some slug →
        (Allocatable slug ↔ (base ∈ taken → ¬ CrowdsOut postTown)) := by
  refine ⟨firstFreeSlug_succeeds format.ascii postTown, fun slug found => ⟨?_, ?_⟩⟩
  · intro allocatable isTaken crowded
    have hyphen := firstFreeSlug_hyphen format (decide_eq_true isTaken) crowded found
    obtain ⟨rest, same⟩ := List.head?_eq_some_iff.mp hyphen
    exact not_slugFormat_hyphen rest (same ▸ allocatable.1)
  · intro room
    exact firstFreeSlug_allocatable format short (fun h => room (of_decide_eq_true h)) found

end

section

attribute [local instance] UnicodeData.ascii

/-- A post town that fills the cap by itself. -/
def endlessTown : String := String.ofList (List.replicate maxSlugLen 'a')

theorem hosleSkole_allocatable
    : (({"hosle-skole"} : Finset String).card < 2 ^ 31 →
        ∃ slug, firstFreeSlug "hosle-skole" (some "Hosle")
          (· ∈ ({"hosle-skole"} : Finset String)) = some slug)
      ∧ ∀ slug, firstFreeSlug "hosle-skole" (some "Hosle")
          (· ∈ ({"hosle-skole"} : Finset String)) = some slug →
        (Allocatable slug
          ↔ ("hosle-skole" ∈ ({"hosle-skole"} : Finset String) → ¬ CrowdsOut (some "Hosle"))) :=
  firstFreeSlug_allocatable_iff (by decide +kernel) (by decide +kernel) _ _

/-- A town that fills the cap takes the whole slug, behind a hyphen and beyond the cap. -/
theorem hosleSkole_crowdedOut
    : SlugFormat "hosle-skole".toList
      ∧ firstFreeSlug "hosle-skole" (some endlessTown)
          (· ∈ ({"hosle-skole"} : Finset String)) = some ("-" ++ endlessTown)
      ∧ ¬ Allocatable ("-" ++ endlessTown)
      ∧ ("-" ++ endlessTown).toList.length = 81 := by
  refine ⟨by decide +kernel, by decide +kernel, ?_, by decide +kernel⟩
  intro allocatable
  exact absurd allocatable.2 (by decide +kernel)

end

end FauPortalen.Register

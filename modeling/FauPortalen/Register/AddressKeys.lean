import FauPortalen.Foundations.Occurrences
import FauPortalen.Register.FoldedWords

/-! Address keys are exact, private and stable: a line has a key exactly when its words have a digit,
are no post box and carry no personal marker, and a key's street has that key again.
-/

set_option linter.unusedSectionVars false

namespace FauPortalen.Register

open Foundations
open FauPortalen.Membership (trim)

variable {words before after haystack needle : List Word} {word house : Word}

-----------------------------------------------------------------------------------------
-- Searching words

/-- A sequence is found where it occurs first. -/
theorem findSequence_eq_some (some_ : needle ≠ []) {end_ : Nat}
    : findSequence haystack needle = some end_
      ↔ ∃ before after, FirstOccurrence needle haystack before after
          ∧ end_ = before.length + needle.length := by
  unfold findSequence
  split
  · next short =>
      simp only [List.isEmpty_eq_false_iff.mpr some_, Bool.false_or, decide_eq_true_eq] at short
      refine iff_of_false nofun ?_
      rintro ⟨before, after, occurrence, _⟩
      have length := congrArg List.length occurrence.split
      rw [List.length_append, List.length_append] at length
      omega
  · rw [Option.map_eq_some_iff]
    constructor
    · rintro ⟨⟨before, after⟩, found, rfl⟩
      exact ⟨before, after, dropInfix?_eq_some.mp found, rfl⟩
    · rintro ⟨before, after, occurrence, rfl⟩
      exact ⟨(before, after), dropInfix?_eq_some.mpr occurrence, rfl⟩

theorem findSequence_eq_none (some_ : needle ≠ [])
    : findSequence haystack needle = none ↔ ¬ needle <:+: haystack := by
  constructor
  · intro failed occurs
    obtain ⟨before, after, occurrence⟩ := exists_firstOccurrence occurs
    cases failed.symm.trans ((findSequence_eq_some some_).mpr ⟨before, after, occurrence, rfl⟩)
  · intro absent
    cases found : findSequence haystack needle with
    | none => rfl
    | some end_ =>
        obtain ⟨before, after, occurrence, _⟩ := (findSequence_eq_some some_).mp found
        cases absent occurrence.occurs

/-- The words before the first word with a digit, that word, and the words behind it. -/
structure FirstNumber (words before : List Word) (house : Word) (after : List Word) : Prop where
  split : words = before ++ house :: after
  before : ∀ word ∈ before, word.hasDigit = false
  house : house.hasDigit = true

theorem firstDigitIndex_eq_none
    : firstDigitIndex words = none ↔ ∀ word ∈ words, word.hasDigit = false :=
  List.findIdx?_eq_none_iff

theorem FirstNumber.index (number : FirstNumber words before house after)
    : firstDigitIndex words = some before.length := by
  have inside : before.length < words.length := by
    rw [number.split, List.length_append, List.length_cons]
    omega
  refine List.findIdx?_eq_some_iff_getElem.mpr ⟨inside, ?_, ?_⟩
  · simpa [number.split] using number.house
  · intro index less
    have earlier := number.before before[index] (List.getElem_mem less)
    simpa [number.split, List.getElem_append_left less] using earlier

theorem exists_firstNumber (some_ : ∃ word ∈ words, word.hasDigit = true)
    : ∃ before house after, FirstNumber words before house after := by
  induction words with
  | nil => simp at some_
  | cons head rest ih =>
      cases digit : head.hasDigit with
      | true => exact ⟨[], head, rest, rfl, by simp, digit⟩
      | false =>
          obtain ⟨word, member, has⟩ := some_
          rcases List.mem_cons.mp member with rfl | member
          · cases digit.symm.trans has
          · obtain ⟨before, house, after, number⟩ := ih ⟨word, member, has⟩
            refine ⟨head :: before, house, after, by rw [number.split, List.cons_append], ?_,
              number.house⟩
            intro other inside
            rcases List.mem_cons.mp inside with rfl | inside
            · exact digit
            · exact number.before other inside

-----------------------------------------------------------------------------------------
-- Personal markers

/-- A pair `c`, `o` anywhere; a `v` before the first word with a digit; or a `v` behind it with at
least one more word after.
-/
def CarriesMarker (words : List Word) : Prop :=
  [['c'], ['o']] <:+: words
  ∨ ∃ before house after, FirstNumber words before house after
      ∧ (['v'] ∈ before ∨ ∃ between rest, after = between ++ ['v'] :: rest ∧ rest ≠ [])

theorem rposition_isSome {test : Word → Bool}
    : (rposition test words).isSome ↔ ∃ word ∈ words, test word = true := by
  simp [rposition]

/-- All but the last word: something follows. -/
theorem mem_dropLast_iff
    : word ∈ words.dropLast ↔ ∃ between rest, words = between ++ word :: rest ∧ rest ≠ [] := by
  constructor
  · intro member
    obtain ⟨between, rest, split⟩ := List.append_of_mem member
    have some_ : words ≠ [] := by
      rintro rfl
      cases member
    refine ⟨between, rest ++ [words.getLast some_], ?_, by simp⟩
    rw [← List.cons_append, ← List.append_assoc, ← split, List.dropLast_concat_getLast]
  · rintro ⟨between, rest, rfl, some_⟩
    rw [List.dropLast_append_of_ne_nil (List.cons_ne_nil _ _),
      List.dropLast_cons_of_ne_nil some_]
    exact List.mem_append_right _ List.mem_cons_self

/-- The three kinds of marker, as the documentation has them. -/
theorem isPersonal_iff : isPersonal words = true ↔ CarriesMarker words := by
  unfold isPersonal markerEnd
  cases pair : findSequence words [['c'], ['o']] with
  | some end_ =>
      have occurs : [['c'], ['o']] <:+: words := by
        by_contra absent
        rw [(findSequence_eq_none (List.cons_ne_nil _ _)).mpr absent] at pair
        cases pair
      exact iff_of_true rfl (.inl occurs)
  | none =>
      have absent := (findSequence_eq_none (List.cons_ne_nil _ _)).mp pair
      by_cases number : ∃ word ∈ words, word.hasDigit = true
      · obtain ⟨before, house, after, number⟩ := exists_firstNumber number
        have marked : CarriesMarker words
            ↔ ['v'] ∈ before ∨ ['v'] ∈ after.dropLast := by
          rw [mem_dropLast_iff]
          constructor
          · rintro (occurs | ⟨before', house', after', number', marker⟩)
            · cases absent occurs
            · have length := Option.some.inj (number.index.symm.trans number'.index)
              have same := number.split.symm.trans number'.split
              obtain ⟨rfl, rest⟩ := List.append_inj same length
              cases rest
              exact marker
          · exact fun marker => .inr ⟨before, house, after, number, marker⟩
        have taken : words.take before.length = before := by
          rw [number.split, List.take_left']
          rfl
        have dropped : words.drop (before.length + 1) = after := by
          rw [number.split, ← List.drop_drop, List.drop_left' rfl]
          rfl
        rw [marked, number.index]
        simp only [Option.bind_eq_bind, Option.bind_some, taken, dropped]
        cases last : rposition (· = ['v']) before with
        | some index =>
            have some_ := rposition_isSome.mp (Option.isSome_of_eq_some last)
            exact iff_of_true rfl (.inl (by simpa using some_))
        | none =>
            have none_ : ['v'] ∉ before := by
              intro member
              have some_ : (rposition (· = ['v']) before).isSome = true :=
                rposition_isSome.mpr ⟨['v'], member, decide_eq_true rfl⟩
              rw [last] at some_
              cases some_
            cases after with
            | nil => simp [none_]
            | cons next rest => simp [none_]
      · have digits : firstDigitIndex words = none :=
          firstDigitIndex_eq_none.mpr fun word member =>
            Bool.eq_false_iff.mpr fun digit => number ⟨word, member, digit⟩
        refine iff_of_false (by simp [digits]) ?_
        rintro (occurs | ⟨before, house, after, found, _⟩)
        · exact absent occurs
        · apply number
          refine ⟨house, ?_, found.house⟩
          rw [found.split]
          exact List.mem_append_right _ List.mem_cons_self

/-- One of a post box's words, or the pair `p`, `b`. -/
def NamesPostbox (words : List Word) : Prop :=
  (∃ word ∈ words, word ∈ ["postboks".toList, "pb".toList, "boks".toList])
  ∨ [['p'], ['b']] <:+: words

theorem isPostbox_iff : isPostbox words = true ↔ NamesPostbox words := by
  unfold isPostbox NamesPostbox
  rw [pair_infix_iff, Bool.or_eq_true, List.any_eq_true, List.any_eq_true]
  apply or_congr
  · simp only [Bool.or_eq_true, decide_eq_true_eq, List.mem_cons, List.not_mem_nil, or_false,
      or_assoc]
  · simp only [Bool.and_eq_true, decide_eq_true_eq, Prod.exists]
    constructor
    · rintro ⟨_, _, member, rfl, rfl⟩
      exact member
    · exact fun member => ⟨_, _, member, rfl, rfl⟩

-----------------------------------------------------------------------------------------
-- Spellings

/-- A word is kept, or its ending gives way to `vei` or `gate`. -/
def Respelled (word street : Word) : Prop :=
  ∃ stem old new, word = stem ++ old ∧ street = stem ++ new
    ∧ (new = "vei".toList ∨ new = "gate".toList) ∧ old.hasDigit = false

theorem stripSuffix_eq_some {suffix stem : Word}
    : stripSuffix word suffix = some stem ↔ word = stem ++ suffix := by
  unfold stripSuffix
  split
  · next ends =>
      obtain ⟨front, rfl⟩ := List.isSuffixOf_iff_suffix.mp ends
      rw [List.length_append, Nat.add_sub_cancel, List.take_left' rfl]
      simp
  · next other =>
      refine iff_of_false nofun ?_
      rintro rfl
      exact other (List.isSuffixOf_iff_suffix.mpr (List.suffix_append _ _))

/-- A respelled ending has no digits, and a letter before its last. -/
theorem streetSuffixes_spec
    : ∀ pair ∈ streetSuffixes, (pair.2 = "vei".toList ∨ pair.2 = "gate".toList)
      ∧ pair.1.hasDigit = false ∧ pair.1.dropLast ≠ []
      ∧ pair.1.getLast? ∈ [some 'n', some 'g', some 'a'] := by
  decide +kernel

theorem streetWord_cases (word : Word)
    : streetWord word = word ∨ Respelled word (streetWord word) := by
  unfold streetWord
  split
  · next street found =>
      right
      obtain ⟨⟨suffix, canonical⟩, member, stripped⟩ := List.exists_of_findSome?_eq_some found
      obtain ⟨stem, strips, rfl⟩ := Option.map_eq_some_iff.mp stripped
      obtain ⟨spelling, noDigit, _⟩ := streetSuffixes_spec _ member
      exact ⟨stem, suffix, canonical, stripSuffix_eq_some.mp strips, rfl, spelling, noDigit⟩
  · split
    · next short =>
        right
        refine ⟨[], word, _, rfl, rfl, .inl rfl, ?_⟩
        simp only [Bool.or_eq_true, decide_eq_true_eq] at short
        rcases short with rfl | rfl <;> decide
    · split
      · next short =>
          right
          refine ⟨[], word, _, rfl, rfl, .inr rfl, ?_⟩
          rw [short]
          decide
      · exact .inl rfl

/-- A word with none of the endings, and none of the abbreviations, is kept. -/
theorem streetWord_eq_self
    (noEnding : ∀ pair ∈ streetSuffixes, ¬ pair.1 <:+ word)
    (noShort : word ∉ ["vn".toList, "v".toList, "gt".toList])
    : streetWord word = word := by
  simp only [List.mem_cons, List.not_mem_nil, or_false, not_or] at noShort
  unfold streetWord
  split
  · next street found =>
      obtain ⟨pair, member, stripped⟩ := List.exists_of_findSome?_eq_some found
      obtain ⟨stem, strips, _⟩ := Option.map_eq_some_iff.mp stripped
      cases noEnding pair member ⟨stem, (stripSuffix_eq_some.mp strips).symm⟩
  · simp only [noShort, decide_false, Bool.or_self, Bool.false_eq_true, if_false]

/-- The canonical spellings are kept. -/
theorem streetWord_canonical {stem new : Word}
    (canonical : new = "vei".toList ∨ new = "gate".toList)
    : streetWord (stem ++ new) = stem ++ new := by
  have last : (stem ++ new).getLast? = some 'i' ∨ (stem ++ new).getLast? = some 'e' := by
    rcases canonical with rfl | rfl
    · exact .inl (List.getLast?_append_of_ne_nil _ (by decide))
    · exact .inr (List.getLast?_append_of_ne_nil _ (by decide))
  apply streetWord_eq_self
  · intro pair member ends
    obtain ⟨_, _, some_, ending⟩ := streetSuffixes_spec pair member
    have nonempty : pair.1 ≠ [] := by
      intro empty
      rw [empty] at some_
      exact some_ rfl
    have same : (stem ++ new).getLast? = pair.1.getLast? := by
      obtain ⟨front, split⟩ := ends
      rw [← split, List.getLast?_append_of_ne_nil _ nonempty]
    rw [← same] at ending
    rcases last with last | last <;> rw [last] at ending <;> revert ending <;> decide
  · intro short
    have last_ : (stem ++ new).getLast? ∈ [some 'n', some 'v', some 't'] := by
      simp only [List.mem_cons, List.not_mem_nil, or_false] at short
      rcases short with same | same | same <;> rw [same] <;> decide
    rcases last with last | last <;> rw [last] at last_ <;> revert last_ <;> decide

theorem length_of_isHouseLetter (one : word.isHouseLetter = true) : word.length = 1 := by
  unfold Word.isHouseLetter at one
  split at one
  · rfl
  · cases one

/-- A number with a house letter is kept. -/
theorem streetWord_number {number letter : Word} (some_ : number ≠ [])
    (digits : ∀ c ∈ number, c.isDigit = true) (one : letter.isHouseLetter = true)
    : streetWord (number ++ letter) = number ++ letter := by
  obtain ⟨c, rfl⟩ := List.length_eq_one_iff.mp (length_of_isHouseLetter one)
  apply streetWord_eq_self
  · intro pair member ends
    obtain ⟨_, noDigit, front, _⟩ := streetSuffixes_spec pair member
    rcases List.suffix_concat_iff.mp ends with empty | ⟨ending, split, inNumber⟩
    · rw [empty] at front
      exact front rfl
    · rw [split, List.dropLast_concat] at front
      obtain ⟨d, rest, rfl⟩ := List.exists_cons_of_ne_nil front
      have isDigit := digits d (inNumber.subset List.mem_cons_self)
      have noDigit := List.any_eq_false.mp noDigit d (by rw [split]; simp)
      cases noDigit isDigit
  · intro short
    obtain ⟨d, rest, rfl⟩ := List.exists_cons_of_ne_nil some_
    have isDigit := digits d List.mem_cons_self
    have first : (d :: rest ++ [c]).head? = some 'v' ∨ (d :: rest ++ [c]).head? = some 'g' := by
      simp only [List.mem_cons, List.not_mem_nil, or_false] at short
      rcases short with same | same | same <;> rw [same] <;> decide
    rcases first with first | first <;> cases first <;> revert isDigit <;> decide

/-- Spelling a word again changes nothing. -/
theorem streetWord_streetWord (word : Word) : streetWord (streetWord word) = streetWord word := by
  rcases streetWord_cases word with same | ⟨stem, old, new, _, respelled, canonical, _⟩
  · rw [same, same]
  · rw [respelled]
    exact streetWord_canonical canonical

-----------------------------------------------------------------------------------------
-- Streets

variable {out : List Word}

/-- The word is a house letter and the one before it a number. -/
def Merges (previous word : Word) : Prop :=
  word.isHouseLetter = true ∧ ∀ c ∈ previous, c.isDigit = true

/-- A word is either merged with the number before it or respelled and added. -/
theorem addStreetWord_cases (out : List Word) (word : Word)
    : (∃ front previous, out = front ++ [previous] ∧ Merges previous word
        ∧ addStreetWord out word = front ++ [previous ++ word])
      ∨ (∀ previous, out.getLast? = some previous → ¬ Merges previous word)
        ∧ addStreetWord out word = out ++ [streetWord word] := by
  unfold addStreetWord Merges
  cases last : out.getLast? with
  | none => exact .inr ⟨nofun, rfl⟩
  | some previous =>
      obtain ⟨front, rfl⟩ := List.getLast?_eq_some_iff.mp last
      dsimp only
      split
      · next merges =>
          left
          rw [Bool.and_eq_true, List.all_eq_true] at merges
          exact ⟨front, previous, rfl, merges, by rw [List.dropLast_concat]⟩
      · next apart =>
          right
          rw [Bool.and_eq_true, List.all_eq_true] at apart
          refine ⟨fun other same => ?_, rfl⟩
          obtain rfl := Option.some.inj same
          exact apart

theorem streetWords_concat (words : List Word) (word : Word)
    : streetWords (words ++ [word]) = addStreetWord (streetWords words) word :=
  List.foldl_concat ..

theorem streetWord_folded (folded : word.Folded) : (streetWord word).Folded := by
  rcases streetWord_cases word with same | ⟨stem, old, new, split, respelled, canonical, _⟩
  · rwa [same]
  · have letters : new ≠ [] ∧ new.all isSlugChar = true := by
      rcases canonical with rfl | rfl <;> decide
    rw [respelled]
    refine ⟨by simp [letters.1], fun c inside => ?_⟩
    rcases List.mem_append.mp inside with inside | inside
    · exact folded.2 c (split ▸ List.mem_append_left _ inside)
    · exact List.all_eq_true.mp letters.2 c inside

theorem Merges.long {previous : Word} (merges : Merges previous word) (some_ : previous ≠ [])
    : 2 ≤ (previous ++ word).length := by
  have one := length_of_isHouseLetter merges.1
  have positive := List.length_pos_iff.mpr some_
  rw [List.length_append]
  omega

theorem isHouseLetter_of_streetWord (one : (streetWord word).isHouseLetter = true)
    : streetWord word = word := by
  rcases streetWord_cases word with same | ⟨stem, old, new, _, respelled, canonical, _⟩
  · exact same
  · have long : 3 ≤ (streetWord word).length := by
      rw [respelled, List.length_append]
      rcases canonical with rfl | rfl
      · exact Nat.le_add_left 3 _
      · exact (by decide : 3 ≤ 4).trans (Nat.le_add_left 4 _)
    have single := length_of_isHouseLetter one
    omega

/-- A street's words in one spelling: each is spelled as it is again, and no house letter stands
behind a number.
-/
structure Settled (out : List Word) : Prop where
  folded : ∀ word ∈ out, word.Folded
  spelled : ∀ word ∈ out, streetWord word = word
  apart : out.IsChain fun previous word => ¬ Merges previous word

theorem Settled.add (settled : Settled out) (folded : word.Folded)
    : Settled (addStreetWord out word) := by
  rcases addStreetWord_cases out word with ⟨front, previous, rfl, merges, added⟩ | ⟨apart, added⟩
  · rw [added]
    have number := settled.folded previous (List.mem_append_right _ List.mem_cons_self)
    have chain := List.isChain_append.mp settled.apart
    refine ⟨fun other member => ?_, fun other member => ?_, ?_⟩
    · rcases List.mem_append.mp member with member | last
      · exact settled.folded other (List.mem_append_left _ member)
      · obtain rfl := List.mem_singleton.mp last
        refine ⟨by simp [number.1], fun c inside => ?_⟩
        rcases List.mem_append.mp inside with inside | inside
        · exact number.2 c inside
        · exact folded.2 c inside
    · rcases List.mem_append.mp member with member | last
      · exact settled.spelled other (List.mem_append_left _ member)
      · obtain rfl := List.mem_singleton.mp last
        exact streetWord_number number.1 merges.2 merges.1
    · refine List.isChain_append.mpr ⟨chain.1, List.isChain_singleton _, ?_⟩
      intro x _ y single both
      obtain rfl := Option.some.inj (Option.mem_def.mp single)
      have long := merges.long number.1
      have one := length_of_isHouseLetter both.1
      omega
  · rw [added]
    refine ⟨fun other member => ?_, fun other member => ?_, ?_⟩
    · rcases List.mem_append.mp member with member | last
      · exact settled.folded other member
      · exact List.mem_singleton.mp last ▸ streetWord_folded folded
    · rcases List.mem_append.mp member with member | last
      · exact settled.spelled other member
      · exact List.mem_singleton.mp last ▸ streetWord_streetWord word
    · refine List.isChain_append.mpr ⟨settled.apart, List.isChain_singleton _, ?_⟩
      intro previous last y single both
      obtain rfl := Option.some.inj (Option.mem_def.mp single)
      have same := isHouseLetter_of_streetWord both.1
      rw [same] at both
      exact apart previous (Option.mem_def.mp last) both

theorem streetWords_settled (folded : ∀ word ∈ words, word.Folded)
    : Settled (streetWords words) := by
  induction words using List.reverseRecOn with
  | nil => exact ⟨nofun, nofun, List.isChain_nil⟩
  | append_singleton words word ih =>
      rw [streetWords_concat]
      have before := ih fun other member => folded other (List.mem_append_left _ member)
      exact before.add (folded word (List.mem_append_right _ List.mem_cons_self))

/-- Settled words stay as they are. -/
theorem Settled.streetWords_eq (settled : Settled out) : streetWords out = out := by
  induction out using List.reverseRecOn with
  | nil => rfl
  | append_singleton front word ih =>
      have chain := List.isChain_append.mp settled.apart
      have before := ih ⟨fun other member => settled.folded other (List.mem_append_left _ member),
        fun other member => settled.spelled other (List.mem_append_left _ member), chain.1⟩
      rw [streetWords_concat, before]
      rcases addStreetWord_cases front word with ⟨_, previous, same, merges, _⟩ | ⟨_, added⟩
      · refine absurd merges (chain.2.2 previous ?_ word ?_)
        · rw [same, List.getLast?_concat]
          rfl
        · rfl
      · rw [added, settled.spelled word (List.mem_append_right _ List.mem_cons_self)]

-----------------------------------------------------------------------------------------
-- What one spelling keeps

theorem Respelled.hasDigit {street : Word} (respelled : Respelled word street)
    (digit : word.hasDigit = true)
    : street.hasDigit = true := by
  obtain ⟨stem, old, new, rfl, rfl, _, noDigit⟩ := respelled
  obtain ⟨c, inside, isDigit⟩ := List.any_eq_true.mp digit
  rcases List.mem_append.mp inside with inside | inside
  · exact List.any_eq_true.mpr ⟨c, List.mem_append_left _ inside, isDigit⟩
  · cases List.any_eq_false.mp noDigit c inside isDigit

/-- A digit stays in the street. -/
theorem streetWords_hasDigit (some_ : ∃ word ∈ words, word.hasDigit = true)
    : ∃ word ∈ streetWords words, word.hasDigit = true := by
  induction words using List.reverseRecOn with
  | nil => simp at some_
  | append_singleton words word ih =>
      rw [streetWords_concat]
      have before : (∃ other ∈ streetWords words, other.hasDigit = true)
          ∨ word.hasDigit = true := by
        obtain ⟨other, member, digit⟩ := some_
        rcases List.mem_append.mp member with member | last
        · exact .inl (ih ⟨other, member, digit⟩)
        · exact .inr (List.mem_singleton.mp last ▸ digit)
      rcases addStreetWord_cases (streetWords words) word with
        ⟨front, previous, split, _, added⟩ | ⟨_, added⟩
      · rw [added]
        rw [split] at before
        rcases before with ⟨other, member, digit⟩ | digit
        · rcases List.mem_append.mp member with member | last
          · exact ⟨other, List.mem_append_left _ member, digit⟩
          · obtain rfl := List.mem_singleton.mp last
            refine ⟨other ++ word, List.mem_append_right _ List.mem_cons_self, ?_⟩
            rw [Word.hasDigit, List.any_append, Bool.or_eq_true]
            exact .inl digit
        · refine ⟨previous ++ word, List.mem_append_right _ List.mem_cons_self, ?_⟩
          rw [Word.hasDigit, List.any_append, Bool.or_eq_true]
          exact .inr digit
      · rw [added]
        rcases before with ⟨other, member, digit⟩ | digit
        · exact ⟨other, List.mem_append_left _ member, digit⟩
        · refine ⟨streetWord word, List.mem_append_right _ List.mem_cons_self, ?_⟩
          rcases streetWord_cases word with same | respelled
          · rwa [same]
          · exact respelled.hasDigit digit

/-- A street's last word of one letter is the line's last word. -/
theorem getLast?_streetWords {a : Char} (folded : ∀ word ∈ words, word.Folded)
    (last : (streetWords words).getLast? = some [a]) (letter : a.isLower = true)
    : words.getLast? = some [a] := by
  induction words using List.reverseRecOn with
  | nil => cases last
  | append_singleton words word _ =>
      have settled := streetWords_settled fun other member =>
        folded other (List.mem_append_left _ member)
      rw [streetWords_concat] at last
      rw [List.getLast?_concat]
      rcases addStreetWord_cases (streetWords words) word with
        ⟨front, previous, split, merges, added⟩ | ⟨_, added⟩
      · have number := settled.folded previous (by rw [split]; simp)
        have long := merges.long number.1
        rw [added, List.getLast?_concat] at last
        rw [Option.some.inj last] at long
        simp at long
      · rw [added, List.getLast?_concat] at last
        have same := Option.some.inj last
        have kept := isHouseLetter_of_streetWord (by rw [same]; exact letter)
        rw [← kept, same]

/-- Two single letters side by side in a street are side by side in the line: what is merged ends up
in a word with a number.
-/
theorem pair_of_streetWords {a b : Char} (folded : ∀ word ∈ words, word.Folded)
    (first : a.isLower = true) (second : b.isLower = true)
    (occurs : [[a], [b]] <:+: streetWords words)
    : [[a], [b]] <:+: words := by
  induction words using List.reverseRecOn with
  | nil => exact occurs
  | append_singleton words word ih =>
      have before := fun other member => folded other (List.mem_append_left [word] member)
      have settled := streetWords_settled before
      rw [streetWords_concat] at occurs
      apply pair_infix_concat.mpr
      rcases addStreetWord_cases (streetWords words) word with
        ⟨front, previous, split, merges, added⟩ | ⟨_, added⟩
      · rw [added] at occurs
        rcases pair_infix_concat.mp occurs with inFront | ⟨_, same⟩
        · left
          apply ih before
          rw [split]
          exact inFront.trans (List.infix_append' [] front [previous])
        · have long := merges.long (settled.folded previous (by rw [split]; simp)).1
          rw [← same] at long
          simp at long
      · rw [added] at occurs
        rcases pair_infix_concat.mp occurs with inFront | ⟨last, same⟩
        · exact .inl (ih before inFront)
        · right
          refine ⟨getLast?_streetWords before last first, ?_⟩
          rw [same]
          exact isHouseLetter_of_streetWord (by rw [← same]; exact second)

/-- A word of a street is one of the line, or ends in `vei` or `gate`, or begins with a digit. -/
theorem mem_streetWords (folded : ∀ word ∈ words, word.Folded) {street : Word}
    (member : street ∈ streetWords words)
    : street ∈ words ∨ "vei".toList <:+ street ∨ "gate".toList <:+ street
      ∨ ∃ c, street.head? = some c ∧ c.isDigit = true := by
  induction words using List.reverseRecOn with
  | nil => cases member
  | append_singleton words word ih =>
      have before := fun other member => folded other (List.mem_append_left [word] member)
      have settled := streetWords_settled before
      have earlier (member : street ∈ streetWords words) := (ih before member).imp_left
        (List.mem_append_left [word])
      rw [streetWords_concat] at member
      rcases addStreetWord_cases (streetWords words) word with
        ⟨front, previous, split, merges, added⟩ | ⟨_, added⟩
      · rw [added] at member
        rcases List.mem_append.mp member with member | last
        · exact earlier (split ▸ List.mem_append_left _ member)
        · obtain rfl := List.mem_singleton.mp last
          have number := settled.folded previous (by rw [split]; simp)
          obtain ⟨c, rest, rfl⟩ := List.exists_cons_of_ne_nil number.1
          exact .inr (.inr (.inr ⟨c, rfl, merges.2 c List.mem_cons_self⟩))
      · rw [added] at member
        rcases List.mem_append.mp member with member | last
        · exact earlier member
        · obtain rfl := List.mem_singleton.mp last
          rcases streetWord_cases word with same | ⟨stem, old, new, _, respelled, canonical, _⟩
          · rw [same]
            exact .inl (List.mem_append_right _ List.mem_cons_self)
          · rw [respelled]
            rcases canonical with rfl | rfl
            · exact .inr (.inl (List.suffix_append _ _))
            · exact .inr (.inr (.inl (List.suffix_append _ _)))

/-- A street is no post box if the line is none. -/
theorem not_namesPostbox_streetWords (folded : ∀ word ∈ words, word.Folded)
    (noPostbox : ¬ NamesPostbox words)
    : ¬ NamesPostbox (streetWords words) := by
  rintro (⟨street, member, isPostbox⟩ | pair)
  · rcases mem_streetWords folded member with inLine | vei | gate | ⟨c, head, digit⟩
    · exact noPostbox (.inl ⟨street, inLine, isPostbox⟩)
    · revert vei
      simp only [List.mem_cons, List.not_mem_nil, or_false] at isPostbox
      rcases isPostbox with rfl | rfl | rfl <;> decide
    · revert gate
      simp only [List.mem_cons, List.not_mem_nil, or_false] at isPostbox
      rcases isPostbox with rfl | rfl | rfl <;> decide
    · simp only [List.mem_cons, List.not_mem_nil, or_false] at isPostbox
      rcases isPostbox with rfl | rfl | rfl <;> cases head <;> revert digit <;> decide
  · exact noPostbox (.inr (pair_of_streetWords folded (by decide) (by decide) pair))

/-- A street carries no marker if the line carries none: every `v` left is merged or spelled out.
-/
theorem not_carriesMarker_streetWords (folded : ∀ word ∈ words, word.Folded)
    (noMarker : ¬ CarriesMarker words)
    : ¬ CarriesMarker (streetWords words) := by
  have settled := streetWords_settled folded
  have noV : ['v'] ∉ streetWords words := by
    intro member
    have kept := settled.spelled _ member
    revert kept
    decide +kernel
  rintro (pair | ⟨before, house, after, number, marker⟩)
  · exact noMarker (.inl (pair_of_streetWords folded (by decide) (by decide) pair))
  · apply noV
    rw [number.split]
    rcases marker with inBefore | ⟨between, rest, rfl, _⟩
    · exact List.mem_append_left _ inBefore
    · apply List.mem_append_right
      apply List.mem_cons_of_mem
      exact List.mem_append_right _ List.mem_cons_self

-----------------------------------------------------------------------------------------
-- Keys

/-- The words of an address line that is used: one has a digit, and they are no post box and carry no
personal marker.
-/
structure Usable (words : List Word) : Prop where
  numbered : ∃ word ∈ words, word.hasDigit = true
  noPostbox : ¬ NamesPostbox words
  noMarker : ¬ CarriesMarker words

/-- A street's words in one spelling, a blank between two. -/
def streetText (words : List Word) : String :=
  String.ofList ([' '].intercalate (streetWords words))

/-- A street of a usable line is usable, and in one spelling already. -/
theorem Usable.streetWords (folded : ∀ word ∈ words, word.Folded) (usable : Usable words)
    : Usable (streetWords words) where
  numbered := streetWords_hasDigit usable.numbered
  noPostbox := not_namesPostbox_streetWords folded usable.noPostbox
  noMarker := not_carriesMarker_streetWords folded usable.noMarker

theorem normaliseStreetWords_eq_some {street : String}
    : normaliseStreetWords words = some street
      ↔ (∃ word ∈ words, word.hasDigit = true) ∧ ¬ NamesPostbox words
        ∧ street = streetText words := by
  have numbered : (firstDigitIndex words).isNone = true
      ↔ ¬ ∃ word ∈ words, word.hasDigit = true := by
    rw [Option.isNone_iff_eq_none, firstDigitIndex_eq_none]
    simp
  unfold normaliseStreetWords
  split
  · next refused =>
      rw [Bool.or_eq_true, isPostbox_iff, numbered] at refused
      refine iff_of_false nofun ?_
      rintro ⟨digit, noPostbox, _⟩
      rcases refused with postbox | noDigit
      · exact noPostbox postbox
      · exact noDigit digit
  · next accepted =>
      rw [Bool.or_eq_true, isPostbox_iff, numbered, not_or, not_not] at accepted
      rw [Option.some.injEq, streetText]
      constructor
      · rintro rfl
        exact ⟨accepted.2, accepted.1, rfl⟩
      · exact fun both => both.2.2.symm

section

variable [UnicodeData]

theorem streetLine_eq_some {line street : String}
    : streetLine line = some street
      ↔ Usable (foldWords line) ∧ street = streetText (foldWords line) := by
  unfold streetLine
  dsimp only
  split
  · next personal =>
      refine iff_of_false nofun ?_
      rintro ⟨usable, _⟩
      exact usable.noMarker (isPersonal_iff.mp personal)
  · next plain =>
      rw [normaliseStreetWords_eq_some]
      constructor
      · rintro ⟨numbered, noPostbox, same⟩
        exact ⟨⟨numbered, noPostbox, fun marker => plain (isPersonal_iff.mpr marker)⟩, same⟩
      · rintro ⟨usable, same⟩
        exact ⟨usable.numbered, usable.noPostbox, same⟩

/-- The street of a usable line, given as a line, has itself as its street. -/
theorem streetLine_streetText (keeps : UnicodeData.KeepsPlain) {line : String}
    (usable : Usable (foldWords line))
    : streetLine (streetText (foldWords line)) = some (streetText (foldWords line)) := by
  have folded := foldWords_folded line
  have settled := streetWords_settled folded
  have again : foldWords (streetText (foldWords line)) = streetWords (foldWords line) :=
    foldWords_joined keeps settled.folded
  rw [streetLine_eq_some, again]
  refine ⟨usable.streetWords folded, ?_⟩
  rw [streetText, streetText, settled.streetWords_eq]

/-- The code is the postcode trimmed, four ASCII digits. -/
def FourDigits (postcode : Option String) (code : String) : Prop :=
  ∃ raw, postcode = some raw ∧ code.toList = trim raw.toList
    ∧ code.toList.length = 4 ∧ ∀ c ∈ code.toList, c.isDigit = true

omit [UnicodeData] in
theorem validPostcode_eq_some {postcode : Option String} {code : String}
    : validPostcode postcode = some code ↔ FourDigits postcode code := by
  have bytes {text : List Char} (digits : ∀ c ∈ text, c.isDigit = true)
      : byteLength text = text.length :=
    byteLength_ascii fun c inside => isSlugChar_ascii (by simp [isSlugChar, digits c inside])
  unfold validPostcode FourDigits
  cases postcode with
  | none => simp
  | some raw =>
      simp only [Option.map_some, Option.bind_some, Option.some.injEq, exists_eq_left']
      split
      · next four =>
          simp only [Bool.and_eq_true, decide_eq_true_eq, List.all_eq_true] at four
          rw [bytes four.2] at four
          constructor
          · intro made
            cases made
            rw [String.toList_ofList]
            exact ⟨rfl, four⟩
          · rintro ⟨same, _⟩
            rw [← same, String.ofList_toList]
      · next other =>
          simp only [Bool.and_eq_true, decide_eq_true_eq, List.all_eq_true] at other
          refine iff_of_false (Option.some_ne_none _).symm ?_
          rintro ⟨same, length, digits⟩
          apply other
          rw [← same]
          exact ⟨(bytes digits).trans length, digits⟩

omit [UnicodeData] in
theorem mem_sortedKeyList {keys : List AddressKey} {key : AddressKey}
    : key ∈ sortedKeyList keys ↔ key ∈ keys := by
  rw [sortedKeyList, mem_dropRepeats_id, mem_sortOn]

omit [UnicodeData] in
theorem sortedKeyList_singleton (key : AddressKey) : sortedKeyList [key] = [key] := by
  simp [sortedKeyList, sortOn, dropRepeats]

theorem addressKeys_of_code {lines : List String} {postcode : Option String} {code : String}
    (valid : validPostcode postcode = some code)
    : addressKeys lines postcode = sortedKeyList ((lines.filterMap streetLine).map (⟨·, code⟩)) := by
  rw [addressKeys, valid]

/-- A key is there for the street of each usable line, under a valid postcode. -/
theorem mem_addressKeys {lines : List String} {postcode : Option String} {key : AddressKey}
    : key ∈ addressKeys lines postcode
      ↔ FourDigits postcode key.postcode
        ∧ ∃ line ∈ lines, Usable (foldWords line) ∧ key.street = streetText (foldWords line) := by
  rw [← validPostcode_eq_some]
  cases valid : validPostcode postcode with
  | none =>
      rw [addressKeys, valid]
      exact iff_of_false List.not_mem_nil nofun
  | some code =>
      rw [addressKeys_of_code valid, mem_sortedKeyList, List.mem_map]
      simp only [List.mem_filterMap, streetLine_eq_some, Option.some.injEq]
      constructor
      · rintro ⟨street, ⟨line, member, usable, same⟩, rfl⟩
        exact ⟨rfl, line, member, usable, same⟩
      · rintro ⟨rfl, line, member, usable, same⟩
        exact ⟨key.street, ⟨line, member, usable, same⟩, rfl⟩

/-- Address keys are sorted without duplicates, one for the street of each usable line and none
besides, and a key's street as a line has exactly that key.
-/
theorem addressKeys_exact (keeps : UnicodeData.KeepsPlain) (lines : List String)
    (postcode : Option String)
    : (addressKeys lines postcode).Pairwise (· < ·)
      ∧ (∀ key,
          key ∈ addressKeys lines postcode
          ↔ FourDigits postcode key.postcode
            ∧ ∃ line ∈ lines, Usable (foldWords line) ∧ key.street = streetText (foldWords line))
      ∧ ∀ key ∈ addressKeys lines postcode, addressKeys [key.street] postcode = [key] := by
  refine ⟨?_, fun key => mem_addressKeys, ?_⟩
  · unfold addressKeys
    split
    · exact .nil
    · exact pairwise_dropRepeats_sortOn id _
  · intro key member
    obtain ⟨four, line, _, usable, same⟩ := mem_addressKeys.mp member
    have valid := validPostcode_eq_some.mpr four
    have street := streetLine_streetText keeps usable
    rw [← same] at street
    rw [addressKeys_of_code valid, List.filterMap_cons_some street, List.filterMap_nil,
      List.map_singleton, sortedKeyList_singleton]

end

section

attribute [local instance] UnicodeData.ascii

theorem ascii_keepsPlain : UnicodeData.KeepsPlain where
  nfc _ _ := rfl
  toLowercase text plain := by
    refine (List.map_congr_left fun c inside => ?_).trans text.map_id
    rcases plain c inside with slugChar | rfl
    · exact toLower_of_isSlugChar slugChar
    · rfl
  nfkd _ _ := rfl
  marks _ _ _ _ := rfl

/-- An organisation's lines, of which two are usable. -/
def hosleLines : List String :=
  ["Postboks 12", "Storgata 18 A", "v/ Kari Nordmann, Hjemveien 12", "Bispeveien 73"]

def storgataKey : AddressKey := ⟨"storgate 18a", "1362"⟩

theorem storgataKey_member : storgataKey ∈ addressKeys hosleLines (some " 1362") := by
  decide +kernel

/-- The keys are in order, and one of them has itself again. -/
theorem hosleLines_exact
    : (addressKeys hosleLines (some " 1362")).Pairwise (· < ·)
      ∧ addressKeys [storgataKey.street] (some " 1362") = [storgataKey] := by
  obtain ⟨sorted, _, stable⟩ := addressKeys_exact ascii_keepsPlain hosleLines (some " 1362")
  exact ⟨sorted, stable _ storgataKey_member⟩

end

end FauPortalen.Register

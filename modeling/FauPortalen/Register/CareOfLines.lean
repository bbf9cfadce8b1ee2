import Mathlib.Data.List.TakeWhile
import FauPortalen.Register.AddressKeys

/-! Care-of lines: which school's keys a line `c/o` another school and a street yields. The school's
name is looked for anywhere among the words before the first number, so a longer name that ends in
the school's own counts for it too.
-/

set_option linter.unusedSectionVars false

namespace FauPortalen.Register

open Foundations

variable {words namePart after : List Word} {word : Word}

-----------------------------------------------------------------------------------------
-- A name part

/-- The words before the first with a digit. -/
def leadingWords (words : List Word) : List Word := words.takeWhile (!·.hasDigit)

theorem no_digit_of_leadingWords (member : word ∈ leadingWords words)
    : word.hasDigit = false := by
  have passes := List.mem_takeWhile_imp member
  simpa using passes

/-- The words from the first with a digit on. -/
def numberWords (words : List Word) : List Word := words.dropWhile (!·.hasDigit)

theorem leadingWords_append_numberWords (words : List Word)
    : leadingWords words ++ numberWords words = words :=
  List.takeWhile_append_dropWhile

theorem FirstNumber.leadingWords {before after : List Word} {house : Word}
    (number : FirstNumber words before house after)
    : leadingWords words = before := by
  rw [Register.leadingWords, number.split, List.takeWhile_append_of_pos, List.takeWhile_cons_of_neg,
    List.append_nil]
  · simp [number.house]
  · intro word member
    simp [number.before word member]

theorem leadingWords_of_no_digit (none_ : ∀ word ∈ words, word.hasDigit = false)
    : leadingWords words = words := by
  induction words with
  | nil => rfl
  | cons head rest ih =>
      have later := ih fun word member => none_ word (List.mem_cons_of_mem _ member)
      unfold leadingWords at later ⊢
      rw [List.takeWhile_cons, none_ head List.mem_cons_self, later]
      rfl

/-- Up to the first word with a digit, or to the end. -/
theorem take_leadingWords (words : List Word)
    : words.take ((firstDigitIndex words).getD words.length) = leadingWords words := by
  by_cases numbered : ∃ word ∈ words, word.hasDigit = true
  · obtain ⟨before, house, after, number⟩ := exists_firstNumber numbered
    rw [number.index, number.leadingWords, Option.getD_some, number.split, List.take_left' rfl]
  · have none_ : ∀ word ∈ words, word.hasDigit = false := fun word member =>
      Bool.eq_false_iff.mpr fun digit => numbered ⟨word, member, digit⟩
    rw [firstDigitIndex_eq_none.mpr none_, leadingWords_of_no_digit none_, Option.getD_none,
      List.take_length]

/-- A name part names the school: in full somewhere, or else by its core somewhere with a word for a
school right after it; both where they occur first.
-/
def NamesSchool (namePart school core after : List Word) : Prop :=
  (school ≠ [] ∧ ∃ before, FirstOccurrence school namePart before after)
  ∨ ¬ (school ≠ [] ∧ school <:+: namePart) ∧ core ≠ [] ∧ ∃ before word,
      FirstOccurrence core namePart before (word :: after) ∧ word ∈ schoolWords

theorem findSequence_nil (haystack : List Word) : findSequence haystack [] = none := rfl

theorem findSequence_isNone {haystack needle : List Word}
    : findSequence haystack needle = none ↔ ¬ (needle ≠ [] ∧ needle <:+: haystack) := by
  by_cases some_ : needle = []
  · subst some_
    simp [findSequence_nil]
  · rw [findSequence_eq_none some_]
    simp [some_]

/-- The match ends where what follows it begins. -/
theorem schoolMatchEnd_eq_some {school core : List Word} {matched : Nat}
    : schoolMatchEnd namePart school core = some matched
      ↔ ∃ front after, namePart = front ++ after ∧ matched = front.length
          ∧ NamesSchool namePart school core after := by
  unfold schoolMatchEnd
  cases full : findSequence namePart school with
  | some end_ =>
      have present : school ≠ [] ∧ school <:+: namePart := by
        by_contra absent
        cases full.symm.trans (findSequence_isNone.mpr absent)
      obtain ⟨before, after, occurrence, rfl⟩ := (findSequence_eq_some present.1).mp full
      rw [Option.some.injEq]
      constructor
      · rintro rfl
        exact ⟨before ++ school, after, occurrence.split, List.length_append.symm,
          .inl ⟨present.1, before, occurrence⟩⟩
      · rintro ⟨front, after', split, rfl, ⟨_, before', occurrence'⟩ | ⟨absent, _⟩⟩
        · obtain ⟨rfl, rfl⟩ := occurrence.unique occurrence'
          rw [← List.length_append,
            List.append_cancel_right (occurrence.split.symm.trans split)]
        · cases absent present
  | none =>
      have absent := findSequence_isNone.mp full
      simp only [Option.bind_eq_bind, Option.bind_eq_some_iff, Option.ite_none_right_eq_some,
        Option.pure_def, Option.some.injEq]
      constructor
      · rintro ⟨coreEnd, found, next, follows, isSchool, rfl⟩
        have some_ : core ≠ [] := by
          rintro rfl
          cases found
        obtain ⟨before, after, occurrence, rfl⟩ := (findSequence_eq_some some_).mp found
        rw [occurrence.split, ← List.length_append, List.getElem?_append_right le_rfl,
          Nat.sub_self, ← List.head?_eq_getElem?] at follows
        obtain ⟨rest, rfl⟩ := List.head?_eq_some_iff.mp follows
        refine ⟨before ++ core ++ [next], rest, ?_, ?_, .inr ⟨absent, some_, before, next,
          occurrence, isSchool⟩⟩
        · rw [occurrence.split, List.append_assoc _ [next], List.singleton_append]
        · simp only [List.length_append, List.length_singleton]
      · rintro ⟨front, after, split, rfl, ⟨some_, before, occurrence⟩
          | ⟨_, some_, before, word, occurrence, isSchool⟩⟩
        · cases absent ⟨some_, occurrence.occurs⟩
        · refine ⟨before.length + core.length,
            (findSequence_eq_some some_).mpr ⟨before, _, occurrence, rfl⟩, word, ?_, isSchool, ?_⟩
          · rw [occurrence.split, ← List.length_append, List.getElem?_append_right le_rfl,
              Nat.sub_self]
            rfl
          · have same : before ++ core ++ [word] ++ after = front ++ after := by
              rw [← split, occurrence.split, List.append_assoc _ [word], List.singleton_append]
            rw [← List.append_cancel_right same]
            simp only [List.length_append, List.length_singleton]

-----------------------------------------------------------------------------------------
-- A line of a marker, another school and a street

theorem markerEnd_careOf (words : List Word) : markerEnd (['c'] :: ['o'] :: words) = some 2 := by
  have first : findSequence (['c'] :: ['o'] :: words) [['c'], ['o']] = some 2 :=
    (findSequence_eq_some (List.cons_ne_nil _ _)).mpr
      ⟨[], words, ⟨rfl, fun _ _ _ => Nat.zero_le _⟩, rfl⟩
  rw [markerEnd, first]

theorem firstDigitIndex_careOf (words : List Word)
    : (firstDigitIndex (['c'] :: ['o'] :: words)).getD (['c'] :: ['o'] :: words).length
      = (firstDigitIndex words).getD words.length + 2 := by
  have noDigit : Word.hasDigit ['c'] = false ∧ Word.hasDigit ['o'] = false := by decide
  unfold firstDigitIndex
  rw [List.findIdx?_cons, List.findIdx?_cons, noDigit.1, noDigit.2]
  cases words.findIdx? Word.hasDigit <;> rfl

section

variable [UnicodeData]

/-- The street of a `c/o` line is what follows the school's name, up to the end of the line. -/
theorem careOfLine_eq_some {line street : String} {school core : List Word}
    (folds : foldWords line = ['c'] :: ['o'] :: words)
    : careOfLine line school core = some street
      ↔ ∃ after, NamesSchool (leadingWords words) school core after
          ∧ normaliseStreetWords (after ++ numberWords words) = some street := by
  have behind : ¬ 2 > (firstDigitIndex words).getD words.length + 2 := by omega
  have part : ((['c'] :: ['o'] :: words).take ((firstDigitIndex words).getD words.length + 2)).drop 2
      = leadingWords words := by
    rw [List.take_succ_cons, List.take_succ_cons, take_leadingWords]
    rfl
  have dropped (matched : Nat)
      : (['c'] :: ['o'] :: words).drop (2 + matched) = words.drop matched := by
    rw [Nat.add_comm, List.drop_succ_cons, List.drop_succ_cons]
  have whole (front after : List Word) (split : leadingWords words = front ++ after)
      : words.drop front.length = after ++ numberWords words := by
    conv_lhs => rw [← leadingWords_append_numberWords words, split, List.append_assoc]
    exact List.drop_left' rfl
  unfold careOfLine
  simp only [folds, markerEnd_careOf, firstDigitIndex_careOf, Option.bind_eq_bind,
    Option.bind_some, if_neg behind, part, dropped, Option.bind_eq_some_iff,
    schoolMatchEnd_eq_some]
  constructor
  · rintro ⟨_, ⟨front, after, split, rfl, names⟩, street_⟩
    exact ⟨after, names, whole front after split ▸ street_⟩
  · rintro ⟨after, names, street_⟩
    obtain ⟨front, split⟩ : ∃ front, leadingWords words = front ++ after := by
      rcases names with ⟨_, before, occurrence⟩ | ⟨_, _, before, word, occurrence, _⟩
      · exact ⟨_, occurrence.split⟩
      · exact ⟨before ++ core ++ [word], by simp [occurrence.split]⟩
    exact ⟨front.length, ⟨front, after, split, rfl, names⟩, whole front after split ▸ street_⟩

/-- The line `c/o` another school and a street. -/
def careOf (other street : String) : String := "c/o " ++ other ++ ", " ++ street

/-- Normalising and lowercasing leave plain text alone and do not reach across a blank, a comma or a
slash.
-/
structure UnicodeData.KeepsLines : Prop where
  plain : UnicodeData.KeepsPlain
  blank : UnicodeData.BreaksAt ' '
  comma : UnicodeData.BreaksAt ','
  slash : UnicodeData.BreaksAt '/'

theorem foldWords_careOf (keeps : UnicodeData.KeepsLines) (other street : String)
    : foldWords (careOf other street)
      = ['c'] :: ['o'] :: (foldWords other ++ foldWords street) := by
  have word (c : Char) (slugChar : isSlugChar c = true)
      : foldWords (String.ofList [c]) = [[c]] := by
    have folded : ∀ word ∈ [[c]], Word.Folded word := by
      intro word member
      obtain rfl := List.mem_singleton.mp member
      exact ⟨List.cons_ne_nil _ _, by simpa using slugChar⟩
    have same := foldWords_joined keeps.plain folded
    rwa [List.intercalate_singleton] at same
  have nothing : foldWords (String.ofList []) = [] := by
    have none_ : ∀ word ∈ ([] : List Word), word.Folded := fun _ member => by cases member
    have same := foldWords_joined keeps.plain none_
    rwa [List.intercalate_nil] at same
  have spelled : careOf other street = String.ofList
      (['c'] ++ '/' :: (['o'] ++ ' ' :: (other.toList ++ ',' :: ([] ++ ' ' :: street.toList)))) := by
    have marker : "c/o ".toList = ['c', '/', 'o', ' '] := rfl
    have comma : ", ".toList = [',', ' '] := rfl
    rw [← String.toList_inj, careOf, String.toList_append, String.toList_append,
      String.toList_append, marker, comma, String.toList_ofList]
    simp only [List.append_assoc, List.cons_append, List.nil_append]
  rw [spelled, foldWords_append keeps.slash (by decide) (by decide) (by decide),
    foldWords_append keeps.blank (by decide) (by decide) (by decide),
    foldWords_append keeps.comma (by decide) (by decide) (by decide),
    foldWords_append keeps.blank (by decide) (by decide) (by decide),
    word 'c' (by decide), word 'o' (by decide), nothing, String.ofList_toList,
    String.ofList_toList]
  rfl

theorem splitOn_nameCore (schoolName : String)
    : ((nameCore schoolName).toList.splitOn ' ').filter (!·.isEmpty) = coreWords schoolName := by
  have folded : ∀ word ∈ coreWords schoolName, word.Folded := fun word member =>
    foldWords_folded schoolName word (List.mem_of_mem_filter member)
  have words := wordsOf_joined folded
  rwa [nameCore, String.toList_ofList]

theorem mem_careOfKeys {lines : List String} {postcode : Option String} {schoolName : String}
    {key : AddressKey}
    : key ∈ careOfKeys lines postcode schoolName
      ↔ FourDigits postcode key.postcode
        ∧ ∃ line ∈ lines,
            careOfLine line (foldWords schoolName) (coreWords schoolName) = some key.street := by
  rw [← validPostcode_eq_some]
  unfold careOfKeys
  rw [splitOn_nameCore]
  cases valid : validPostcode postcode with
  | none => exact iff_of_false List.not_mem_nil nofun
  | some code =>
      simp only [mem_sortedKeyList, List.mem_map, List.mem_filterMap, Option.some.injEq]
      constructor
      · rintro ⟨street, line, rfl⟩
        exact ⟨rfl, line⟩
      · rintro ⟨rfl, line⟩
        exact ⟨key.street, line, rfl⟩

/-- The line `c/o` another school and a street counts for a school: the words of both have a number,
those before it name the school, and the rest is no post box.
-/
def CountsFor (other street schoolName : String) : Prop :=
  let words := foldWords other ++ foldWords street
  (∃ word ∈ words, word.hasDigit = true)
  ∧ ∃ after,
      NamesSchool (leadingWords words) (foldWords schoolName) (coreWords schoolName) after
      ∧ ¬ NamesPostbox (after ++ numberWords words)

/-- What follows the school's name before the number has no digit. -/
theorem NamesSchool.no_digit {school core : List Word}
    (names : NamesSchool (leadingWords words) school core after)
    : ∀ word ∈ after, word.hasDigit = false := by
  intro word member
  have inPart : word ∈ leadingWords words := by
    rcases names with ⟨_, before, occurrence⟩ | ⟨_, _, before, next, occurrence, _⟩
    · rw [occurrence.split]
      exact List.mem_append_right _ member
    · rw [occurrence.split]
      exact List.mem_append_right _ (List.mem_cons_of_mem _ member)
  exact no_digit_of_leadingWords inPart

/-- The number is behind the name part. -/
theorem NamesSchool.numbered_iff {school core : List Word}
    (names : NamesSchool (leadingWords words) school core after)
    : (∃ word ∈ after ++ numberWords words, word.hasDigit = true)
      ↔ ∃ word ∈ words, word.hasDigit = true := by
  constructor
  · rintro ⟨word, member, digit⟩
    rcases List.mem_append.mp member with inAfter | behind
    · cases digit.symm.trans (names.no_digit word inAfter)
    · exact ⟨word, (List.dropWhile_sublist _).subset behind, digit⟩
  · rintro ⟨word, member, digit⟩
    rw [← leadingWords_append_numberWords words] at member
    rcases List.mem_append.mp member with leading | behind
    · cases digit.symm.trans (no_digit_of_leadingWords leading)
    · exact ⟨word, List.mem_append_right _ behind, digit⟩

/-- A `c/o` line that names another school yields no key for this one exactly when the postcode is
not valid or the line does not count for it.
-/
theorem careOfKeys_eq_nil_iff (keeps : UnicodeData.KeepsLines)
    (schoolName other street : String) (postcode : Option String)
    : careOfKeys [careOf other street] postcode schoolName = []
      ↔ ¬ ((∃ code, FourDigits postcode code) ∧ CountsFor other street schoolName) := by
  rw [List.eq_nil_iff_forall_not_mem, ← not_exists, not_iff_not]
  simp only [mem_careOfKeys, List.mem_singleton, exists_eq_left,
    careOfLine_eq_some (foldWords_careOf keeps other street), normaliseStreetWords_eq_some]
  constructor
  · rintro ⟨key, four, after, names, numbered, noPostbox, _⟩
    exact ⟨⟨_, four⟩, names.numbered_iff.mp numbered, after, names, noPostbox⟩
  · rintro ⟨⟨code, four⟩, numbered, after, names, noPostbox⟩
    exact ⟨⟨_, code⟩, four, after, names, names.numbered_iff.mpr numbered, noPostbox, rfl⟩

end

section

attribute [local instance] UnicodeData.ascii

theorem ascii_breaksAt {separator : Char} (kept : separator.toLower = separator)
    : UnicodeData.BreaksAt separator where
  nfc _ _ := rfl
  toLowercase left right := by
    change (left ++ separator :: right).map Char.toLower = _
    rw [List.map_append, List.map_cons, kept]
    rfl
  nfkd _ _ := rfl
  mark := rfl

theorem ascii_keepsLines : UnicodeData.KeepsLines :=
  ⟨ascii_keepsPlain, ascii_breaksAt rfl, ascii_breaksAt rfl, ascii_breaksAt rfl⟩

theorem bekkestua_careOf
    : careOfKeys [careOf "Hosle skole" "Bispeveien 73"] (some "1362") "Bekkestua skole" = []
      ↔ ¬ ((∃ code, FourDigits (some "1362") code)
        ∧ CountsFor "Hosle skole" "Bispeveien 73" "Bekkestua skole") :=
  careOfKeys_eq_nil_iff ascii_keepsLines _ _ _ _

/-- A line that names Nordre Hosle skole counts for Hosle skole. -/
theorem nordreHosle_countsForHosle
    : nameCore "Hosle skole" ≠ nameCore "Nordre Hosle skole"
      ∧ ("Nordre Hosle skole".toList.any Char.isDigit) = false
      ∧ careOfKeys [careOf "Nordre Hosle skole" "Bispeveien 73"] (some "1362") "Hosle skole"
        = [⟨"bispevei 73", "1362"⟩] := by
  decide +kernel

end

end FauPortalen.Register

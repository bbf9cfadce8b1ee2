import FauPortalen.Register.Brreg
import FauPortalen.Register.SlugFormat

/-! The words a text folds to: what they are made of, that folding them again keeps them, and that a
blank, a comma or a slash keeps the words on its two sides apart.
-/

set_option linter.unusedSectionVars false

namespace FauPortalen.Register

open Foundations

-----------------------------------------------------------------------------------------
-- Collapsed texts put together

/-- The words of a collapsed text. -/
def wordsOf (text : List Char) : List Word := (text.splitOn ' ').filter (!·.isEmpty)

theorem wordsOf_append_blank (left right : List Char)
    : wordsOf (left ++ ' ' :: right) = wordsOf left ++ wordsOf right := by
  have blank : (' ' == ' ') = true := rfl
  rw [wordsOf, List.splitOn_append_cons_of_beq left right blank, List.filter_append]
  rfl

/-- A text without blanks is one word, or none. -/
theorem wordsOf_word {word : Word} (some_ : word ≠ []) (noBlank : ' ' ∉ word)
    : wordsOf word = [word] := by
  rw [wordsOf, List.splitOn_eq_singleton noBlank]
  simp [some_]

/-- Two collapsed texts, a blank between them where both have words. -/
def joinCollapsed (left right : List Char) : List Char :=
  if left = [] then right else if right = [] then left else left ++ ' ' :: right

theorem wordsOf_joinCollapsed (left right : List Char)
    : wordsOf (joinCollapsed left right) = wordsOf left ++ wordsOf right := by
  unfold joinCollapsed
  split
  · next empty =>
      rw [empty]
      rfl
  · split
    · next empty =>
        rw [empty]
        exact (List.append_nil _).symm
    · exact wordsOf_append_blank left right

/-- Collapsing behind some text, a blank owed, keeps in step with collapsing from the start. -/
def Behind (out : List Char) (state fresh : Collapsed) : Prop :=
  (fresh.out = [] ∧ state.out = out ∧ state.gap = true)
    ∨ fresh.out ≠ [] ∧ state.out = out ++ ' ' :: fresh.out ∧ state.gap = fresh.gap

theorem Behind.step {out : List Char} {state fresh : Collapsed} (some_ : out ≠ [])
    (behind : Behind out state fresh) (c : Char)
    : Behind out (collapseStep ' ' state c) (collapseStep ' ' fresh c) := by
  unfold collapseStep
  split
  · exact behind
  · dsimp only
    split
    · right
      rcases behind with ⟨empty, same, owed⟩ | ⟨begun, same, owed⟩
      · simp [empty, same, owed, some_]
      · simp only [same, owed]
        cases fresh.gap <;> simp [begun]
    · rcases behind with ⟨empty, same, _⟩ | ⟨begun, same, _⟩
      · exact .inl ⟨empty, same, rfl⟩
      · exact .inr ⟨begun, same, rfl⟩

/-- Collapsing goes on behind a separator as it does from the start, by induction on the text. -/
theorem foldl_behind {out : List Char} {state fresh : Collapsed} (some_ : out ≠ [])
    (behind : Behind out state fresh) (text : List Char)
    : Behind out (text.foldl (collapseStep ' ') state) (text.foldl (collapseStep ' ') fresh) := by
  induction text generalizing state fresh with
  | nil => exact behind
  | cons c rest ih => exact ih (behind.step some_ c)

/-- From nothing, a blank that is owed is not written. -/
theorem foldl_owed (text : List Char)
    : (text.foldl (collapseStep ' ') ⟨[], true⟩).out
      = (text.foldl (collapseStep ' ') ⟨[], false⟩).out := by
  have alike {state fresh : Collapsed} (same : state.out = fresh.out)
      (gaps : state.out = [] ∨ state.gap = fresh.gap)
      : (text.foldl (collapseStep ' ') state).out
        = (text.foldl (collapseStep ' ') fresh).out := by
    induction text generalizing state fresh with
    | nil => exact same
    | cons c rest ih =>
        rw [List.foldl_cons, List.foldl_cons]
        apply ih
        all_goals
          unfold collapseStep
          split
        · exact same
        · dsimp only
          split
          · rcases gaps with empty | gap
            · simp [← same, empty]
            · simp [same, gap]
          · exact same
        · exact gaps
        · dsimp only
          split
          · exact .inr rfl
          · exact .inr rfl
  exact @alike ⟨[], true⟩ ⟨[], false⟩ rfl (.inl rfl)

/-- A character that is dropped, but no apostrophe, ends a word. -/
theorem collapse_append {separator : Char} (dropped : separator.isAlphanum = false)
    (noApostrophe : isApostrophe separator = false) (left right : List Char)
    : collapse (left ++ separator :: right) ' '
      = joinCollapsed (collapse left ' ') (collapse right ' ') := by
  have owed (state : Collapsed) : collapseStep ' ' state separator = ⟨state.out, true⟩ := by
    unfold collapseStep
    simp [noApostrophe, isSlugChar_toLower, dropped]
  unfold collapse
  rw [List.foldl_append, List.foldl_cons, owed]
  generalize (left.foldl (collapseStep ' ') ⟨[], false⟩).out = out
  unfold joinCollapsed
  split
  · next empty => rw [empty, foldl_owed]
  · next some_ =>
      have begins : Behind out ⟨out, true⟩ ⟨[], false⟩ := .inl ⟨rfl, rfl, rfl⟩
      have behind := foldl_behind some_ begins right
      rcases behind with ⟨empty, same, _⟩ | ⟨begun, same, _⟩
      · rw [if_pos empty, same]
      · rw [if_neg begun, same]

-----------------------------------------------------------------------------------------
-- What words are made of

/-- A word of a folded text: lowercase ASCII letters and digits, at least one. -/
def Word.Folded (word : Word) : Prop := word ≠ [] ∧ ∀ c ∈ word, isSlugChar c = true

theorem Word.Folded.noBlank {word : Word} (folded : word.Folded) : ' ' ∉ word :=
  fun inside => absurd (folded.2 _ inside) (by decide)

theorem of_mem_splitOn {separator : Char} {text : List Char} {word : Word}
    (member : word ∈ text.splitOn separator)
    : ∀ c ∈ word, c ∈ text ∧ c ≠ separator := by
  induction text generalizing word with
  | nil =>
      obtain rfl := List.mem_singleton.mp member
      simp
  | cons head rest ih =>
      rw [List.splitOn_cons_eq_if_modifyHead] at member
      split at member
      · rcases List.mem_cons.mp member with rfl | member
        · simp
        · exact fun c inside => ⟨List.mem_cons_of_mem _ (ih member c inside).1, (ih member c inside).2⟩
      · next other =>
          obtain ⟨first, others, split_⟩ := List.exists_cons_of_ne_nil
            (List.splitOn_ne_nil separator rest)
          rw [split_, List.modifyHead_cons] at member
          intro c inside
          rcases List.mem_cons.mp member with rfl | later
          · rcases List.mem_cons.mp inside with rfl | inside
            · exact ⟨List.mem_cons_self, by simpa using other⟩
            · have found := ih (split_ ▸ List.mem_cons_self) c inside
              exact ⟨List.mem_cons_of_mem _ found.1, found.2⟩
          · have found := ih (split_ ▸ List.mem_cons_of_mem _ later) c inside
            exact ⟨List.mem_cons_of_mem _ found.1, found.2⟩

theorem collapse_chars (text : List Char)
    : ∀ c ∈ collapse text ' ', isSlugChar c = true ∨ c = ' ' := by
  have kept (state : Collapsed) (plain : ∀ c ∈ state.out, isSlugChar c = true ∨ c = ' ')
      : ∀ c ∈ (text.foldl (collapseStep ' ') state).out, isSlugChar c = true ∨ c = ' ' := by
    induction text generalizing state with
    | nil => exact plain
    | cons head rest ih =>
        apply ih
        unfold collapseStep
        split
        · exact plain
        · dsimp only
          split
          · next slugChar =>
              intro c inside
              rcases List.mem_append.mp inside with before | last
              · split at before
                · rcases List.mem_append.mp before with before | blank
                  · exact plain c before
                  · exact .inr (List.mem_singleton.mp blank)
                · exact plain c before
              · exact .inl (List.mem_singleton.mp last ▸ slugChar)
          · exact plain
  exact kept ⟨[], false⟩ (by simp)

section

variable [UnicodeData]

theorem foldWords_folded (line : String) : ∀ word ∈ foldWords line, word.Folded := by
  intro word member
  obtain ⟨member, some_⟩ := List.mem_filter.mp member
  refine ⟨by simpa using some_, fun c inside => ?_⟩
  obtain ⟨inText, noBlank⟩ := of_mem_splitOn member c inside
  exact (collapse_chars _ c inText).resolve_right noBlank

-----------------------------------------------------------------------------------------
-- Folding words again

/-- Lowercase ASCII letters, digits and blanks. -/
def PlainText (text : List Char) : Prop := ∀ c ∈ text, isSlugChar c = true ∨ c = ' '

/-- Normalising and lowercasing leave plain text alone. -/
structure UnicodeData.KeepsPlain : Prop where
  nfc : ∀ text, PlainText text → UnicodeData.nfc text = text
  toLowercase : ∀ text, PlainText text → UnicodeData.toLowercase text = text
  nfkd : ∀ text, PlainText text → UnicodeData.nfkd text = text
  marks : ∀ text, PlainText text → ∀ c ∈ text, UnicodeData.isCombiningMark c = false

theorem PlainText.ascii {text : List Char} (plain : PlainText text) : Ascii text := by
  intro c inside
  rcases plain c inside with slugChar | rfl
  · exact isSlugChar_ascii slugChar
  · decide

theorem PlainText.latinFold {text : List Char} (keeps : UnicodeData.KeepsPlain)
    (plain : PlainText text)
    : Register.latinFold (String.ofList text) .lossy = text := by
  have letters : text.flatMap (foldLetter .lossy) = text := by
    rw [List.flatMap_congr fun c inside => foldLetter_ascii (plain.ascii c inside)]
    exact List.flatMap_singleton' _
  simp only [Register.latinFold, String.toList_ofList, keeps.nfc _ plain,
    keeps.toLowercase _ plain, letters, keeps.nfkd _ plain]
  exact List.filter_eq_self.mpr fun c inside => by simp [keeps.marks _ plain c inside]

/-- A folded word collapses to itself. -/
theorem Word.Folded.collapse {word : Word} (folded : word.Folded)
    : Register.collapse word ' ' = word := by
  have letters (out rest : List Char) (each : ∀ c ∈ rest, isSlugChar c = true)
      : (rest.foldl (collapseStep ' ') ⟨out, false⟩).out = out ++ rest := by
    induction rest generalizing out with
    | nil => exact (List.append_nil _).symm
    | cons c rest ih =>
        have slugChar := each c List.mem_cons_self
        rw [List.foldl_cons, collapseStep_alphanum (isAlphanum_iff.mpr (.inr slugChar)),
          toLower_of_isSlugChar slugChar]
        exact (ih (out ++ [c]) fun d inside => each d (List.mem_cons_of_mem _ inside)).trans
          (by simp)
  exact letters [] word folded.2

/-- What holds of the empty text and of each word, and passes to a word and a blank before others,
holds of folded words put together.
-/
theorem joined_induction {P : List Word → List Char → Prop} {words : List Word}
    (folded : ∀ word ∈ words, word.Folded) (empty : P [] [])
    (single : ∀ word : Word, word.Folded → P [word] word)
    (join : ∀ (word : Word) (others : List Word) (text : List Char), word.Folded → others ≠ [] →
      P others text → P (word :: others) (word ++ ' ' :: text))
    : P words ([' '].intercalate words) := by
  induction words with
  | nil => exact empty
  | cons word others ih =>
      have first := folded word List.mem_cons_self
      have later := ih fun word inside => folded word (List.mem_cons_of_mem _ inside)
      cases others with
      | nil => exact List.intercalate_singleton ▸ single word first
      | cons next rest =>
          rw [List.intercalate_cons_cons, List.append_assoc, List.singleton_append]
          exact join word (next :: rest) _ first (List.cons_ne_nil _ _) later

theorem wordsOf_joined {words : List Word} (folded : ∀ word ∈ words, word.Folded)
    : wordsOf ([' '].intercalate words) = words := by
  refine joined_induction (P := fun words text => wordsOf text = words) folded rfl
    (fun word first => wordsOf_word first.1 first.noBlank) ?_
  intro word others text first _ later
  rw [wordsOf_append_blank, later, wordsOf_word first.1 first.noBlank]
  rfl

/-- Folded words, put together, collapse to themselves. -/
theorem collapse_joined {words : List Word} (folded : ∀ word ∈ words, word.Folded)
    : Register.collapse ([' '].intercalate words) ' ' = [' '].intercalate words := by
  refine (joined_induction (P := fun words text =>
    Register.collapse text ' ' = text ∧ (words ≠ [] → text ≠ [])) folded
    ⟨rfl, fun some_ => absurd rfl some_⟩ (fun word first => ⟨first.collapse, fun _ => first.1⟩) ?_).1
  intro word others text first some_ later
  refine ⟨?_, fun _ => List.append_ne_nil_of_left_ne_nil first.1 _⟩
  rw [collapse_append (by decide) (by decide), later.1, first.collapse, joinCollapsed,
    if_neg first.1, if_neg (later.2 some_)]

theorem plainText_joined {words : List Word} (folded : ∀ word ∈ words, word.Folded)
    : PlainText ([' '].intercalate words) := by
  refine joined_induction (P := fun _ text => PlainText text) folded (by simp [PlainText])
    (fun word first c inside => .inl (first.2 c inside)) ?_
  intro word others text first _ later c inside
  rcases List.mem_append.mp inside with inside | inside
  · exact .inl (first.2 c inside)
  · rcases List.mem_cons.mp inside with blank | inside
    · exact .inr blank
    · exact later c inside

/-- Folded words, put together, fold to themselves. -/
theorem foldWords_joined (keeps : UnicodeData.KeepsPlain) {words : List Word}
    (folded : ∀ word ∈ words, word.Folded)
    : foldWords (String.ofList ([' '].intercalate words)) = words := by
  unfold foldWords searchQuery
  rw [(plainText_joined folded).latinFold keeps, collapse_joined folded]
  exact wordsOf_joined folded

-----------------------------------------------------------------------------------------
-- Folding texts put together

/-- Normalising and lowercasing do not reach across the character. -/
structure UnicodeData.BreaksAt (separator : Char) : Prop where
  nfc : ∀ left right, UnicodeData.nfc (left ++ separator :: right)
    = UnicodeData.nfc left ++ separator :: UnicodeData.nfc right
  toLowercase : ∀ left right, UnicodeData.toLowercase (left ++ separator :: right)
    = UnicodeData.toLowercase left ++ separator :: UnicodeData.toLowercase right
  nfkd : ∀ left right, UnicodeData.nfkd (left ++ separator :: right)
    = UnicodeData.nfkd left ++ separator :: UnicodeData.nfkd right
  mark : UnicodeData.isCombiningMark separator = false

/-- The words on the two sides of such a character are folded apart. -/
theorem foldWords_append {separator : Char} (breaks : UnicodeData.BreaksAt separator)
    (ascii : separator.toNat < 128) (dropped : separator.isAlphanum = false)
    (noApostrophe : isApostrophe separator = false) (left right : List Char)
    : foldWords (String.ofList (left ++ separator :: right))
      = foldWords (String.ofList left) ++ foldWords (String.ofList right) := by
  have folds : latinFold (String.ofList (left ++ separator :: right)) .lossy
      = latinFold (String.ofList left) .lossy
        ++ separator :: latinFold (String.ofList right) .lossy := by
    simp only [latinFold, String.toList_ofList, breaks.nfc, breaks.toLowercase,
      List.flatMap_append, List.flatMap_cons, foldLetter_ascii ascii, List.singleton_append,
      breaks.nfkd, List.filter_append]
    rw [List.filter_cons_of_pos (by simp [breaks.mark])]
  unfold foldWords searchQuery
  rw [folds, collapse_append dropped noApostrophe]
  exact wordsOf_joinCollapsed _ _

end

end FauPortalen.Register

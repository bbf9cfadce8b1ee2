import Mathlib.Data.List.Basic

/-! Words joined by single separators: the grammar, and a reader that decides it letter by letter.
-/

namespace FauPortalen.Foundations

variable {α : Type} {letter : α → Bool} {sep : α}

/-- One word or more, each of one letter or more, with a separator between two of them. -/
def Separated (letter : α → Bool) (sep : α) (text : List α) : Prop :=
  ∃ words : List (List α), words ≠ []
    ∧ (∀ word ∈ words, word ≠ [] ∧ ∀ c ∈ word, letter c = true)
    ∧ text = [sep].intercalate words

variable [DecidableEq α]

/-- Reads a text from within a word, or from where one has to begin. -/
def readsWords (letter : α → Bool) (sep : α) : Bool → List α → Bool
  | inWord, [] => inWord
  | inWord, c :: rest =>
      if letter c then readsWords letter sep true rest
      else inWord && c = sep && readsWords letter sep false rest

@[simp]
theorem readsWords_nil {inWord : Bool} : readsWords letter sep inWord [] = inWord := rfl

theorem readsWords_letter {inWord : Bool} {c : α} {rest : List α} (isLetter : letter c = true)
    : readsWords letter sep inWord (c :: rest) = readsWords letter sep true rest :=
  if_pos isLetter

theorem readsWords_other {inWord : Bool} {c : α} {rest : List α} (noLetter : letter c = false)
    : readsWords letter sep inWord (c :: rest)
      = (inWord && c = sep && readsWords letter sep false rest) :=
  if_neg (by simp [noLetter])

/-- After a word of letters the reader is within a word. -/
theorem readsWords_word {inWord : Bool} {word rest : List α} (some_ : word ≠ [])
    (letters : ∀ c ∈ word, letter c = true)
    : readsWords letter sep inWord (word ++ rest) = readsWords letter sep true rest := by
  induction word generalizing inWord with
  | nil => exact absurd rfl some_
  | cons c others ih =>
      rw [List.cons_append, readsWords_letter (letters c List.mem_cons_self)]
      by_cases last : others = []
      · rw [last, List.nil_append]
      · exact ih last fun c inside => letters c (List.mem_cons_of_mem _ inside)

theorem readsWords_of_letters {inWord : Bool} {word : List α} (some_ : word ≠ [])
    (letters : ∀ c ∈ word, letter c = true)
    : readsWords letter sep inWord word = true := by
  have read : readsWords letter sep inWord (word ++ []) = true := readsWords_word some_ letters
  rwa [List.append_nil] at read

/-- A separator ends what is before it and begins what is after it. -/
theorem readsWords_append_sep (noLetter : letter sep = false) {inWord : Bool} {left right : List α}
    : readsWords letter sep inWord (left ++ sep :: right)
      = (readsWords letter sep inWord left && readsWords letter sep false right) := by
  induction left generalizing inWord with
  | nil => simp [readsWords_other noLetter]
  | cons c rest ih =>
      rw [List.cons_append]
      cases isLetter : letter c with
      | true => rw [readsWords_letter isLetter, readsWords_letter isLetter, ih]
      | false =>
          rw [readsWords_other isLetter, readsWords_other isLetter, ih]
          simp only [Bool.and_assoc]

/-- A word goes on after its last letter. -/
theorem readsWords_concat {inWord : Bool} {text : List α} {last : α}
    (read : readsWords letter sep inWord text = true) (isLetter : letter last = true)
    : readsWords letter sep inWord (text ++ [last]) = true := by
  induction text generalizing inWord with
  | nil => exact readsWords_letter isLetter
  | cons c rest ih =>
      rw [List.cons_append]
      cases begins : letter c with
      | true =>
          rw [readsWords_letter begins] at read ⊢
          exact ih read
      | false =>
          rw [readsWords_other begins, Bool.and_eq_true] at read ⊢
          exact ⟨read.1, ih read.2⟩

/-- Whatever is read is a letter or the separator. -/
theorem of_readsWords {inWord : Bool} {text : List α}
    (read : readsWords letter sep inWord text = true)
    : ∀ c ∈ text, letter c = true ∨ c = sep := by
  induction text generalizing inWord with
  | nil => simp
  | cons c rest ih =>
      cases isLetter : letter c with
      | true =>
          rw [readsWords_letter isLetter] at read
          simpa [isLetter] using ih read
      | false =>
          simp only [readsWords_other isLetter, Bool.and_eq_true, decide_eq_true_eq] at read
          simpa [isLetter, read.1.2] using ih read.2

theorem readsWords_of_words (noLetter : letter sep = false) {words : List (List α)}
    (some_ : words ≠ []) (each : ∀ word ∈ words, word ≠ [] ∧ ∀ c ∈ word, letter c = true)
    : readsWords letter sep false ([sep].intercalate words) = true := by
  induction words with
  | nil => exact absurd rfl some_
  | cons word others ih =>
      obtain ⟨nonempty, letters⟩ := each word List.mem_cons_self
      cases others with
      | nil => exact List.intercalate_singleton ▸ readsWords_of_letters nonempty letters
      | cons next rest =>
          rw [List.intercalate_cons_cons, List.append_assoc, List.singleton_append,
            readsWords_append_sep noLetter, readsWords_of_letters nonempty letters, Bool.true_and]
          exact ih (List.cons_ne_nil _ _) fun word inside =>
            each word (List.mem_cons_of_mem _ inside)

omit [DecidableEq α] in
theorem Separated.word {word : List α} (some_ : word ≠ []) (letters : ∀ c ∈ word, letter c = true)
    : Separated letter sep word :=
  ⟨[word], List.cons_ne_nil _ _, by simpa using ⟨some_, letters⟩, List.intercalate_singleton.symm⟩

omit [DecidableEq α] in
theorem Separated.cons {word rest : List α} (some_ : word ≠ [])
    (letters : ∀ c ∈ word, letter c = true) (later : Separated letter sep rest)
    : Separated letter sep (word ++ sep :: rest) := by
  obtain ⟨words, nonempty, each, rfl⟩ := later
  obtain ⟨next, others, rfl⟩ := List.exists_cons_of_ne_nil nonempty
  refine ⟨word :: next :: others, List.cons_ne_nil _ _, ?_, ?_⟩
  · intro one inside
    rcases List.mem_cons.mp inside with rfl | later
    · exact ⟨some_, letters⟩
    · exact each one later
  · rw [List.intercalate_cons_cons, List.append_assoc, List.singleton_append]

/-- Within a word the text goes on with letters, up to its end or to a separator and more words;
by induction on the text, together with what is read from where a word has to begin.
-/
theorem separated_of_readsWords {text : List α}
    : (readsWords letter sep true text = true →
        ∃ word, (∀ c ∈ word, letter c = true)
          ∧ (text = word ∨ ∃ rest, text = word ++ sep :: rest ∧ Separated letter sep rest))
      ∧ (readsWords letter sep false text = true → Separated letter sep text) := by
  induction text with
  | nil => exact ⟨fun _ => ⟨[], by simp, .inl rfl⟩, fun read => by cases read⟩
  | cons c rest ih =>
      obtain ⟨within, begins⟩ := ih
      cases isLetter : letter c with
      | true =>
        constructor
        · intro read
          rw [readsWords_letter isLetter] at read
          obtain ⟨word, letters, goesOn⟩ := within read
          refine ⟨c :: word, by simpa using ⟨isLetter, letters⟩, goesOn.imp ?_ ?_⟩
          · rintro rfl
            rfl
          · rintro ⟨after, rfl, later⟩
            exact ⟨after, rfl, later⟩
        · intro read
          rw [readsWords_letter isLetter] at read
          obtain ⟨word, letters, goesOn⟩ := within read
          have all : ∀ d ∈ c :: word, letter d = true := by simpa using ⟨isLetter, letters⟩
          rcases goesOn with rfl | ⟨after, rfl, later⟩
          · exact .word (List.cons_ne_nil _ _) all
          · exact .cons (List.cons_ne_nil _ _) all later
      | false =>
        constructor
        · intro read
          simp only [readsWords_other isLetter, Bool.true_and, Bool.and_eq_true,
            decide_eq_true_eq] at read
          obtain ⟨rfl, read⟩ := read
          exact ⟨[], by simp, .inr ⟨rest, rfl, begins read⟩⟩
        · intro read
          rw [readsWords_other isLetter] at read
          cases read

/-- The reader decides the grammar. -/
theorem separated_iff (noLetter : letter sep = false) {text : List α}
    : Separated letter sep text ↔ readsWords letter sep false text = true := by
  constructor
  · rintro ⟨words, some_, each, rfl⟩
    exact readsWords_of_words noLetter some_ each
  · exact separated_of_readsWords.2

end FauPortalen.Foundations

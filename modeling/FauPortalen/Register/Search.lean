import FauPortalen.Foundations.Comparators
import FauPortalen.Foundations.WordPrefixes
import FauPortalen.Register.Similarity

/-! Search: the forms under which a name is stored for matching, and which queries find them. -/

namespace FauPortalen.Register

open FauPortalen.Foundations

/-- The folding's tables, with the one that tells letters and digits from other characters. -/
class SearchData extends UnicodeData where
  isAlphanumeric : Char → Bool

@[reducible]
def SearchData.ascii : SearchData where
  toUnicodeData := .ascii
  isAlphanumeric := Char.isAlphanum

variable [SearchData]

/-- Lowercase, letters of every script kept. -/
def folded (name : String) : List Char :=
  let lower := UnicodeData.toLowercase (UnicodeData.nfc name.toList)
  let words := (lower.splitOnP fun c => !SearchData.isAlphanumeric c).filter (!·.isEmpty)
  [' '].intercalate words

/-- The forms a name is found under. -/
def searchForms (name : String) : List (List Char) :=
  [folded name, collapse (latinFold name .transliterate) ' ', collapse (latinFold name .lossy) ' ']

/-- The forms of all names, each once and in first-seen order. -/
def searchText (names : List String) : List Char :=
  [' '].intercalate (keepFirst id [] ((names.flatMap searchForms).filter (!·.isEmpty)))

/-- The match of a query against a stored text: at the start of one of its words. A query without
searchable characters is for no rows.
-/
def Finds (text : List Char) (query : String) : Prop :=
  searchQuery query ≠ [] ∧ StartsWord ' ' (searchQuery query) text

instance {text : List Char} {query : String} : Decidable (Finds text query) :=
  inferInstanceAs (Decidable (_ ∧ _))

variable {names : List String} {query : String}

theorem mem_storedForms {form : List Char}
    : form ∈ keepFirst id [] ((names.flatMap searchForms).filter (!·.isEmpty))
      ↔ (∃ name ∈ names, form ∈ searchForms name) ∧ form ≠ [] := by
  simp [List.mem_flatMap]

/-- What starts a word of a form starts a word of the stored text. -/
theorem startsWord_searchText {name : String} (member : name ∈ names) {form word : List Char}
    (stored : form ∈ searchForms name) (some_ : form ≠ []) (found : StartsWord ' ' word form)
    : StartsWord ' ' word (searchText names) :=
  found.intercalate (mem_storedForms.mpr ⟨⟨name, member, stored⟩, some_⟩)

/-- A query of one word finds exactly the names that have a form with a word it starts. -/
theorem finds_searchText_iff (word : ' ' ∉ searchQuery query)
    : Finds (searchText names) query
      ↔ searchQuery query ≠ []
        ∧ ∃ name ∈ names, ∃ form ∈ searchForms name,
            StartsWord ' ' (searchQuery query) form := by
  refine and_congr_right fun some_ => ⟨?_, ?_⟩
  · intro found
    have stored : keepFirst id [] ((names.flatMap searchForms).filter (!·.isEmpty)) ≠ [] := by
      intro none_stored
      rw [searchText, none_stored] at found
      exact found.ne_nil some_ rfl
    obtain ⟨form, member, starts⟩ := (startsWord_intercalate word stored).mp found
    obtain ⟨⟨name, named, inside⟩, _⟩ := mem_storedForms.mp member
    exact ⟨name, named, form, inside, starts⟩
  · rintro ⟨name, named, form, inside, starts⟩
    exact startsWord_searchText named inside (starts.ne_nil some_) starts

end FauPortalen.Register

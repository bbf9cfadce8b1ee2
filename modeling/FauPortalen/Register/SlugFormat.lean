import FauPortalen.Foundations.SeparatedWords
import FauPortalen.Register.Slug

/-! The normal form of slugs: what is minted is words of lowercase letters and digits, joined by
single hyphens, within the cap, and minting it again changes nothing.
-/

namespace FauPortalen.Register

open Foundations

-----------------------------------------------------------------------------------------
-- The form

/-- `[a-z0-9]+(-[a-z0-9]+)*` -/
def SlugFormat (text : List Char) : Prop := Separated isSlugChar '-' text

/-- Whether the text read so far may end: within a word, or where one has to begin. -/
def readsSlug : Bool → List Char → Bool := readsWords isSlugChar '-'

theorem slugFormat_iff {text : List Char} : SlugFormat text ↔ readsSlug false text = true :=
  separated_iff (by decide)

theorem readsSlug_append_hyphen {inWord : Bool} {left right : List Char}
    : readsSlug inWord (left ++ '-' :: right) = (readsSlug inWord left && readsSlug false right) :=
  readsWords_append_sep (by decide)

instance {text : List Char} : Decidable (SlugFormat text) := decidable_of_iff' _ slugFormat_iff

theorem SlugFormat.ne_nil {text : List Char} (format : SlugFormat text) : text ≠ [] := by
  rintro rfl
  cases slugFormat_iff.mp format

/-- Every character of a slug is a slug's letter or the hyphen. -/
theorem SlugFormat.chars {text : List Char} (format : SlugFormat text)
    : ∀ c ∈ text, isSlugChar c = true ∨ c = '-' :=
  of_readsWords (slugFormat_iff.mp format)

-----------------------------------------------------------------------------------------
-- ASCII text

/-- Text in which a character is a byte. -/
def Ascii (text : List Char) : Prop := ∀ c ∈ text, c.toNat < 128

theorem utf8Size_of_ascii {c : Char} (ascii : c.toNat < 128) : c.utf8Size = 1 := by
  have : c.val ≤ 127 := UInt32.le_iff_toNat_le.mpr (Nat.le_of_lt_succ ascii)
  simp [Char.utf8Size, this]

theorem byteLength_ascii {text : List Char} (ascii : Ascii text)
    : byteLength text = text.length := by
  induction text with
  | nil => rfl
  | cons c rest ih =>
      have tail := ih fun d inside => ascii d (List.mem_cons_of_mem _ inside)
      have head := utf8Size_of_ascii (ascii c List.mem_cons_self)
      unfold byteLength at tail ⊢
      rw [List.map_cons, List.sum_cons, head, tail, List.length_cons, Nat.add_comm]

theorem splitBytes?_ascii {text : List Char} (ascii : Ascii text) {count : Nat}
    (le : count ≤ text.length)
    : splitBytes? count text = some (text.take count, text.drop count) := by
  induction text generalizing count with
  | nil =>
      obtain rfl : count = 0 := Nat.le_zero.mp le
      rfl
  | cons c rest ih =>
      cases count with
      | zero => rfl
      | succ count =>
          have head := utf8Size_of_ascii (ascii c List.mem_cons_self)
          have tail := ih (fun d inside => ascii d (List.mem_cons_of_mem _ inside))
            (Nat.le_of_succ_le_succ le)
          simp only [splitBytes?, head, Nat.le_add_left, if_true, Nat.add_sub_cancel, tail,
            Option.map_some, List.take_succ_cons, List.drop_succ_cons]

theorem beforeLast?_eq_none {sep : Char} {text : List Char}
    : beforeLast? sep text = none ↔ sep ∉ text := by
  induction text with
  | nil => simp [beforeLast?]
  | cons c rest ih =>
      unfold beforeLast?
      cases further : beforeLast? sep rest with
      | some before =>
          have inside : sep ∈ rest := by
            by_contra absent
            simp [ih.mpr absent] at further
          simp [inside]
      | none => simp [ih.mp further, eq_comm]

/-- The text is what stands before the last occurrence, the character, and what follows. -/
theorem beforeLast?_eq_some {sep : Char} {text before : List Char}
    (found : beforeLast? sep text = some before)
    : ∃ after, text = before ++ sep :: after := by
  induction text generalizing before with
  | nil => cases found
  | cons c rest ih =>
      unfold beforeLast? at found
      cases further : beforeLast? sep rest with
      | some inner =>
          rw [further] at found
          cases found
          obtain ⟨after, rfl⟩ := ih further
          exact ⟨after, rfl⟩
      | none =>
          simp only [further] at found
          split at found
          · next same =>
              cases found
              exact ⟨rest, same ▸ rfl⟩
          · cases found

-----------------------------------------------------------------------------------------
-- Cutting

/-- A cut of ASCII text does not fall inside a character, and keeps within the limit. -/
theorem cutToLen_ascii {text : List Char} (ascii : Ascii text) (limit : Nat)
    : ∃ cut, cutToLen text limit = some cut ∧ cut.length ≤ limit ∧ cut <+: text := by
  unfold cutToLen
  rw [byteLength_ascii ascii]
  split
  · next short => exact ⟨text, rfl, short, List.prefix_rfl⟩
  · next long =>
      have shorter : (text.take limit).length ≤ limit := List.length_take_le _ _
      rw [splitBytes?_ascii ascii (Nat.le_of_not_le long)]
      simp only [Option.bind_eq_bind, Option.bind_some]
      split
      · exact ⟨_, rfl, shorter, List.take_prefix _ _⟩
      · refine ⟨_, rfl, ?_⟩
        cases found : beforeLast? '-' (text.take limit) with
        | none => exact ⟨shorter, List.take_prefix _ _⟩
        | some before =>
            obtain ⟨after, same⟩ := beforeLast?_eq_some found
            have inside : before <+: text.take limit := ⟨'-' :: after, same.symm⟩
            exact ⟨Nat.le_trans inside.length_le shorter, inside.trans (List.take_prefix _ _)⟩

theorem SlugFormat.ascii {text : List Char} (format : SlugFormat text) : Ascii text := by
  intro c inside
  rcases format.chars c inside with slugChar | rfl
  · exact isSlugChar_ascii slugChar
  · decide

/-- What stands before a hyphen of a slug is a slug. -/
theorem SlugFormat.before {left right : List Char} (format : SlugFormat (left ++ '-' :: right))
    : SlugFormat left := by
  rw [slugFormat_iff, readsSlug_append_hyphen, Bool.and_eq_true] at format
  exact slugFormat_iff.mpr format.1

theorem maxSlugLen_pos : 0 < maxSlugLen := by decide

/-- A slug is cut at a hyphen, or within its first word; either way to a slug. -/
theorem SlugFormat.cutToLen {text : List Char} (format : SlugFormat text) {limit : Nat}
    (some_ : 0 < limit)
    : ∃ cut, Register.cutToLen text limit = some cut ∧ cut.length ≤ limit ∧ SlugFormat cut := by
  unfold Register.cutToLen
  rw [byteLength_ascii format.ascii]
  split
  · next short => exact ⟨text, rfl, short, format⟩
  · next long =>
      have split_ : text = text.take limit ++ text.drop limit := (List.take_append_drop _ _).symm
      have shorter : (text.take limit).length ≤ limit := List.length_take_le _ _
      rw [splitBytes?_ascii format.ascii (Nat.le_of_not_le long)]
      simp only [Option.bind_eq_bind, Option.bind_some]
      split
      · next hyphen =>
          obtain ⟨rest, tail⟩ := List.head?_eq_some_iff.mp hyphen
          rw [tail] at split_
          exact ⟨_, rfl, shorter, SlugFormat.before (split_ ▸ format)⟩
      · refine ⟨_, rfl, ?_⟩
        cases found : beforeLast? '-' (text.take limit) with
        | some before =>
            obtain ⟨after, same⟩ := beforeLast?_eq_some found
            have inside : before <+: text.take limit := ⟨'-' :: after, same.symm⟩
            refine ⟨Nat.le_trans inside.length_le shorter, ?_⟩
            rw [same, List.append_assoc] at split_
            exact SlugFormat.before (split_ ▸ format)
        | none =>
            -- no hyphen within the limit: the cut is within the first word
            have noHyphen := beforeLast?_eq_none.mp found
            refine ⟨shorter, .word ?_ ?_⟩
            · intro none_
              rcases List.take_eq_nil_iff.mp none_ with zero | empty
              · omega
              · exact format.ne_nil empty
            · intro c inside
              refine (format.chars c (List.mem_of_mem_take inside)).resolve_right ?_
              rintro rfl
              exact noHyphen inside

-----------------------------------------------------------------------------------------
-- Collapsing

/-- Text collapsed so far: empty, or a slug. -/
def Collapsed.Neat (state : Collapsed) : Prop := state.out = [] ∨ SlugFormat state.out

theorem SlugFormat.concat {text : List Char} {c : Char} (format : SlugFormat text)
    (slugChar : isSlugChar c = true)
    : SlugFormat (text ++ [c]) :=
  slugFormat_iff.mpr (readsWords_concat (slugFormat_iff.mp format) slugChar)

theorem SlugFormat.concat_hyphen {text : List Char} {c : Char} (format : SlugFormat text)
    (slugChar : isSlugChar c = true)
    : SlugFormat (text ++ ['-'] ++ [c]) := by
  rw [List.append_assoc, List.singleton_append, slugFormat_iff, readsSlug_append_hyphen,
    Bool.and_eq_true]
  exact ⟨slugFormat_iff.mp format, readsWords_of_letters (by simp) (by simpa using slugChar)⟩

theorem collapseStep_neat {state : Collapsed} (neat : state.Neat) (c : Char)
    : (collapseStep '-' state c).Neat := by
  unfold collapseStep
  split
  · exact neat
  · dsimp only
    split
    · next slugChar =>
        right
        split
        · next owed =>
            simp only [Bool.and_eq_true, Bool.not_eq_true', List.isEmpty_eq_false_iff] at owed
            exact (neat.resolve_left owed.2).concat_hyphen slugChar
        · rcases neat with empty | format
          · rw [empty]
            exact .word (by simp) (by simpa using slugChar)
          · exact format.concat slugChar
    · exact neat

theorem collapse_neat (input : List Char) : collapse input '-' = [] ∨ SlugFormat (collapse input '-') := by
  have kept (state : Collapsed) (neat : state.Neat)
      : (input.foldl (collapseStep '-') state).Neat := by
    induction input generalizing state with
    | nil => exact neat
    | cons c rest ih => exact ih _ (collapseStep_neat neat c)
  exact kept ⟨[], false⟩ (.inl rfl)

/-- A slug collapses to itself, by induction on what is still to be read: after a letter nothing is
owed, after a hyphen it is.
-/
theorem SlugFormat.collapse {text : List Char} (format : SlugFormat text)
    : Register.collapse text '-' = text := by
  have letter {c : Char} (slugChar : isSlugChar c = true) : c.isAlphanum = true :=
    isAlphanum_iff.mpr (.inr slugChar)
  have rest_ (rest : List Char) (out : List Char) (some_ : out ≠ [])
      : (readsSlug true rest = true →
          (rest.foldl (collapseStep '-') ⟨out, false⟩).out = out ++ rest)
        ∧ (readsSlug false rest = true →
          (rest.foldl (collapseStep '-') ⟨out, true⟩).out = out ++ '-' :: rest) := by
    induction rest generalizing out with
    | nil => exact ⟨fun _ => (List.append_nil _).symm, fun read => by cases read⟩
    | cons c rest ih =>
        cases slugChar : isSlugChar c with
        | true =>
            simp only [readsSlug, readsWords_letter slugChar, List.foldl_cons,
              collapseStep_alphanum (letter slugChar), toLower_of_isSlugChar slugChar]
            constructor
            · intro read
              exact ((ih (out ++ [c]) (by simp)).1 read).trans (by simp)
            · intro read
              simp only [List.isEmpty_eq_false_iff.mpr some_, Bool.not_false, Bool.and_self, if_true]
              exact ((ih (out ++ ['-'] ++ [c]) (by simp)).1 read).trans (by simp)
        | false =>
            simp only [readsSlug, readsWords_other slugChar, Bool.true_and, Bool.false_and,
              Bool.and_eq_true, decide_eq_true_eq]
            constructor
            · rintro ⟨rfl, read⟩
              exact (ih out some_).2 read
            · intro read
              cases read
  have read := slugFormat_iff.mp format
  cases text with
  | nil => cases read
  | cons c rest =>
      cases slugChar : isSlugChar c with
      | true =>
          rw [readsSlug, readsWords_letter slugChar] at read
          rw [Register.collapse, List.foldl_cons, collapseStep_alphanum (letter slugChar),
            toLower_of_isSlugChar slugChar]
          exact (rest_ rest [c] (by simp)).1 read
      | false =>
          rw [readsSlug, readsWords_other slugChar] at read
          cases read

-----------------------------------------------------------------------------------------
-- Slugs of names

section

variable [UnicodeData] {name slug : String}

/-- Normalising and lowercasing leave ASCII lowercase letters, digits and hyphens alone. -/
structure UnicodeData.KeepsSlugs : Prop where
  nfc : ∀ text, SlugFormat text → UnicodeData.nfc text = text
  toLowercase : ∀ text, SlugFormat text → UnicodeData.toLowercase text = text
  nfkd : ∀ text, SlugFormat text → UnicodeData.nfkd text = text
  marks : ∀ text, SlugFormat text → ∀ c ∈ text, UnicodeData.isCombiningMark c = false

/-- A slug is folded to itself. -/
theorem SlugFormat.latinFold (keeps : UnicodeData.KeepsSlugs) (format : SlugFormat slug.toList)
    : Register.latinFold slug .transliterate = slug.toList := by
  have letters : slug.toList.flatMap (foldLetter .transliterate) = slug.toList := by
    rw [List.flatMap_congr fun c inside => foldLetter_ascii (format.ascii c inside)]
    exact List.flatMap_singleton' _
  simp only [Register.latinFold, keeps.nfc _ format, keeps.toLowercase _ format, letters,
    keeps.nfkd _ format]
  exact List.filter_eq_self.mpr fun c inside => by simp [keeps.marks _ format c inside]

/-- What a name is cut from, and that the cut does not fall inside a character. -/
theorem slugify_eq_ok
    : slugify name = .ok slug
      ↔ SlugFormat (collapse (latinFold name .transliterate) '-')
        ∧ cutToLen (collapse (latinFold name .transliterate) '-') maxSlugLen = some slug.toList := by
  unfold slugify
  rcases collapse_neat (latinFold name .transliterate) with none_ | format
  · rw [none_]
    refine iff_of_false (by simp [cutToLen, byteLength]) ?_
    rintro ⟨format, _⟩
    exact format.ne_nil rfl
  · obtain ⟨cut, cuts, short, cutFormat⟩ := format.cutToLen maxSlugLen_pos
    simp only [cuts, Option.getD_some, Option.some.injEq]
    rw [if_neg (by simpa using cutFormat.ne_nil)]
    constructor
    · intro made
      cases made
      exact ⟨format, String.toList_ofList.symm⟩
    · rintro ⟨_, rfl⟩
      rw [String.ofList_toList]

theorem slugify_format (made : slugify name = .ok slug)
    : SlugFormat slug.toList ∧ slug.toList.length ≤ maxSlugLen := by
  obtain ⟨format, cuts⟩ := slugify_eq_ok.mp made
  obtain ⟨cut, cuts', short, cutFormat⟩ := format.cutToLen maxSlugLen_pos
  obtain rfl : cut = slug.toList := Option.some.inj (cuts'.symm.trans cuts)
  exact ⟨cutFormat, short⟩

/-- A slug within the cap is its own slug. -/
theorem slugify_of_format (keeps : UnicodeData.KeepsSlugs) (format : SlugFormat slug.toList)
    (short : slug.toList.length ≤ maxSlugLen)
    : slugify slug = .ok slug := by
  rw [slugify_eq_ok, format.latinFold keeps, format.collapse]
  exact ⟨format, if_pos (byteLength_ascii format.ascii ▸ short)⟩

theorem slugify_error
    : (∃ error, slugify name = .error error)
      ↔ ∀ c ∈ latinFold name .transliterate, c.isAlphanum = false := by
  rw [← @collapse_eq_nil '-']
  rcases collapse_neat (latinFold name .transliterate) with none_ | format
  · refine iff_of_true ⟨.empty, ?_⟩ none_
    unfold slugify
    rw [none_]
    rfl
  · obtain ⟨cut, cuts, _⟩ := format.cutToLen maxSlugLen_pos
    have made : slugify name = .ok (String.ofList cut) :=
      slugify_eq_ok.mpr ⟨format, by rw [cuts, String.toList_ofList]⟩
    refine iff_of_false ?_ format.ne_nil
    rintro ⟨error, fails⟩
    rw [made] at fails
    cases fails

/-- A name has no slug exactly where nothing of it is a letter or digit. Else its slug is in the
form, within the cap and its own slug, and a municipality's is that behind its number. No cut falls
inside a character.
-/
theorem slugify_normalForm (keeps : UnicodeData.KeepsSlugs) (name : String)
    : ((∃ error, slugify name = .error error)
        ↔ ∀ c ∈ latinFold name .transliterate, c.isAlphanum = false)
      ∧ (cutToLen (collapse (latinFold name .transliterate) '-') maxSlugLen).isSome
      ∧ (∀ slug, slugify name = .ok slug →
          SlugFormat slug.toList ∧ slug.length ≤ 80 ∧ slugify slug = .ok slug)
      ∧ ∀ number slug : String, number.length = 4 → (∀ c ∈ number.toList, c.isDigit = true) →
          slugify name = .ok slug → municipalitySlug number name = .ok (number ++ "-" ++ slug) := by
  refine ⟨slugify_error, ?_, fun slug made => ?_, fun number slug four digits made => ?_⟩
  · have ascii : Ascii (collapse (latinFold name .transliterate) '-') := by
      rcases collapse_neat (latinFold name .transliterate) with none_ | format
      · simp [none_, Ascii]
      · exact format.ascii
    obtain ⟨cut, cuts, _⟩ := cutToLen_ascii ascii maxSlugLen
    exact cuts ▸ rfl
  · obtain ⟨format, short⟩ := slugify_format made
    exact ⟨format, short, slugify_of_format keeps format short⟩
  · have ascii : Ascii number.toList := fun c inside =>
      isSlugChar_ascii (by simp [isSlugChar, digits c inside])
    have bytes : byteLength number.toList = 4 := (byteLength_ascii ascii).trans four
    rw [municipalitySlug, if_neg (by simpa [bytes] using digits), made]
    rfl

end

section

attribute [local instance] UnicodeData.ascii

theorem ascii_keepsSlugs : UnicodeData.KeepsSlugs where
  nfc _ _ := rfl
  toLowercase text format := by
    refine (List.map_congr_left fun c inside => ?_).trans text.map_id
    rcases format.chars c inside with slugChar | rfl
    · exact toLower_of_isSlugChar slugChar
    · rfl
  nfkd _ _ := rfl
  marks _ _ _ _ := rfl

/-- A slug of a name is its own slug, and the municipality's has its number. -/
theorem hosleSkole_normalForm
    : slugify "hosle-skole" = .ok "hosle-skole"
      ∧ municipalitySlug "0301" "Hosle skole" = .ok "0301-hosle-skole" := by
  have made : slugify "Hosle skole" = .ok "hosle-skole" := by decide +kernel
  have digits : ("0301".toList.all Char.isDigit) = true := by decide +kernel
  obtain ⟨_, _, each, municipality⟩ := slugify_normalForm ascii_keepsSlugs "Hosle skole"
  exact ⟨(each _ made).2.2, municipality "0301" _ rfl (List.all_eq_true.mp digits) made⟩

end

end FauPortalen.Register

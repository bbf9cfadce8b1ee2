import Mathlib.Data.List.Basic

/-! The folding shared by slugs and search: one table of letters, so that a slug and a
search form never disagree about a letter.
-/

namespace FauPortalen.Register

/-- The Unicode tables behind the folding: composition, full lowercase, compatibility
decomposition and the combining marks.
-/
class UnicodeData where
  nfc : List Char → List Char
  toLowercase : List Char → List Char
  nfkd : List Char → List Char
  isCombiningMark : Char → Bool

/-- The tables on ASCII text, which is composed and decomposed already. -/
@[reducible]
def UnicodeData.ascii : UnicodeData where
  nfc := id
  toLowercase := List.map Char.toLower
  nfkd := id
  isCombiningMark _ := false

/-- How the Norwegian letters and their neighbours are spelled in ASCII. -/
inductive Letters
  | transliterate
  | lossy
deriving DecidableEq

/-- The letter table, for one character of the lowercased text. -/
def foldLetter (letters : Letters) (c : Char) : List Char :=
  match letters, c with
  | .transliterate, 'æ' | .transliterate, 'ä' => ['a', 'e']
  | .transliterate, 'ø' | .transliterate, 'ö' => ['o', 'e']
  | .transliterate, 'å' => ['a', 'a']
  | .lossy, 'æ' | .lossy, 'ä' | .lossy, 'å' => ['a']
  | .lossy, 'ø' | .lossy, 'ö' => ['o']
  | _, 'đ' => ['d']
  | _, 'ŋ' => ['n']
  | _, 'ŧ' => ['t']
  | _, 'ß' => ['s', 's']
  | _, c => [c]

/-- The table leaves ASCII alone. -/
theorem foldLetter_ascii {letters : Letters} {c : Char} (ascii : c.toNat < 128)
    : foldLetter letters c = [c] := by
  unfold foldLetter
  split
  all_goals first
    | rfl
    | exact absurd ascii (by decide)

/-- Letters of other scripts pass through; `collapse` drops them. -/
def latinFold [UnicodeData] (input : String) (letters : Letters) : List Char :=
  let lower := UnicodeData.toLowercase (UnicodeData.nfc input.toList)
  let mapped := lower.flatMap (foldLetter letters)
  (UnicodeData.nfkd mapped).filter fun c => !UnicodeData.isCombiningMark c

/-- The ASCII apostrophe and backtick, U+2019 and U+02BC. -/
def isApostrophe (c : Char) : Bool :=
  c.toNat == 0x27 || c.toNat == 0x2019 || c.toNat == 0x02BC || c.toNat == 0x60

def isSlugChar (c : Char) : Bool := c.isLower || c.isDigit

theorem isLower_iff {c : Char} : c.isLower = true ↔ 97 ≤ c.toNat ∧ c.toNat ≤ 122 :=
  Bool.and_eq_true_iff.trans
    (and_congr (decide_eq_true_iff.trans UInt32.le_iff_toNat_le)
      (decide_eq_true_iff.trans UInt32.le_iff_toNat_le))

theorem isUpper_iff {c : Char} : c.isUpper = true ↔ 65 ≤ c.toNat ∧ c.toNat ≤ 90 :=
  decide_eq_true_iff.trans (and_congr UInt32.le_iff_toNat_le UInt32.le_iff_toNat_le)

theorem isDigit_iff {c : Char} : c.isDigit = true ↔ 48 ≤ c.toNat ∧ c.toNat ≤ 57 :=
  Bool.and_eq_true_iff.trans
    (and_congr (decide_eq_true_iff.trans UInt32.le_iff_toNat_le)
      (decide_eq_true_iff.trans UInt32.le_iff_toNat_le))

theorem isSlugChar_iff {c : Char}
    : isSlugChar c = true ↔ (97 ≤ c.toNat ∧ c.toNat ≤ 122) ∨ (48 ≤ c.toNat ∧ c.toNat ≤ 57) := by
  rw [isSlugChar, Bool.or_eq_true, isLower_iff, isDigit_iff]

theorem isSlugChar_ascii {c : Char} (slugChar : isSlugChar c = true) : c.toNat < 128 := by
  have := isSlugChar_iff.mp slugChar
  omega

/-- An ASCII letter or digit is a capital, or of a slug. -/
theorem isAlphanum_iff {c : Char}
    : c.isAlphanum = true ↔ (65 ≤ c.toNat ∧ c.toNat ≤ 90) ∨ isSlugChar c = true := by
  change ((c.isUpper || c.isLower) || c.isDigit) = true ↔ _
  rw [Bool.or_assoc, Bool.or_eq_true, isUpper_iff]
  rfl

theorem toNat_toLower {c : Char}
    : c.toLower.toNat = if 65 ≤ c.toNat ∧ c.toNat ≤ 90 then c.toNat + 32 else c.toNat := by
  unfold Char.toLower
  split
  · next capital =>
      rw [if_pos (by simpa [UInt32.le_iff_toNat_le] using capital)]
      have small : c.val.toNat ≤ 90 := UInt32.le_iff_toNat_le.mp capital.2
      change (c.val + 32).toNat = c.val.toNat + 32
      rw [UInt32.toNat_add]
      change (c.val.toNat + 32) % 2 ^ 32 = _
      omega
  · next other => rw [if_neg (by simpa [UInt32.le_iff_toNat_le] using other)]

/-- A letter of either case, and a digit, is of a slug once it is lowercase. -/
theorem isSlugChar_toLower {c : Char} : isSlugChar c.toLower = c.isAlphanum := by
  rw [Bool.eq_iff_iff, isAlphanum_iff, isSlugChar_iff, isSlugChar_iff, toNat_toLower]
  split <;> omega

theorem toLower_of_isSlugChar {c : Char} (slugChar : isSlugChar c = true) : c.toLower = c := by
  refine Char.toNat_inj.mp ?_
  rw [toNat_toLower, if_neg]
  have := isSlugChar_iff.mp slugChar
  omega

theorem isApostrophe_of_isAlphanum {c : Char} (alphanum : c.isAlphanum = true)
    : isApostrophe c = false := by
  rw [isAlphanum_iff, isSlugChar_iff] at alphanum
  simp only [isApostrophe, Bool.or_eq_false_iff, beq_eq_false_iff_ne]
  omega

/-- The output so far, and whether a separator is owed before the next character. -/
structure Collapsed where
  out : List Char
  gap : Bool

def collapseStep (sep : Char) (state : Collapsed) (c : Char) : Collapsed :=
  if isApostrophe c then state
  else
    let c := c.toLower
    if isSlugChar c then
      let out := if state.gap && !state.out.isEmpty then state.out ++ [sep] else state.out
      { out := out ++ [c], gap := false }
    else { state with gap := true }

/-- Keeps `[a-z0-9]`, drops apostrophes without a separator, and turns every other run
into one `sep`, trimmed at both ends.
-/
def collapse (input : List Char) (sep : Char) : List Char :=
  (input.foldl (collapseStep sep) ⟨[], false⟩).out

section

variable {sep c : Char} {state : Collapsed}

/-- A letter or digit is added, after the separator where one is owed. -/
theorem collapseStep_alphanum (alphanum : c.isAlphanum = true)
    : collapseStep sep state c
      = ⟨(if state.gap && !state.out.isEmpty then state.out ++ [sep] else state.out) ++ [c.toLower],
          false⟩ := by
  rw [collapseStep, isApostrophe_of_isAlphanum alphanum, if_neg (by simp)]
  exact if_pos (isSlugChar_toLower.trans alphanum)

/-- Anything else adds nothing. -/
theorem collapseStep_other (other : c.isAlphanum = false)
    : (collapseStep sep state c).out = state.out := by
  unfold collapseStep
  split
  · rfl
  · dsimp only
    rw [isSlugChar_toLower, other]
    rfl

/-- Nothing is left exactly where there is no letter or digit. -/
theorem collapse_eq_nil {input : List Char}
    : collapse input sep = [] ↔ ∀ c ∈ input, c.isAlphanum = false := by
  have stepped (state : Collapsed)
      : (input.foldl (collapseStep sep) state).out = []
        ↔ state.out = [] ∧ ∀ c ∈ input, c.isAlphanum = false := by
    induction input generalizing state with
    | nil => simp
    | cons c rest ih =>
        rw [List.foldl_cons, ih]
        cases alphanum : c.isAlphanum with
        | true => simp [collapseStep_alphanum alphanum, alphanum]
        | false => simp [collapseStep_other alphanum, alphanum]
  unfold collapse
  simpa using stepped ⟨[], false⟩

end

end FauPortalen.Register

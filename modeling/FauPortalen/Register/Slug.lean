import FauPortalen.Register.Text
import Mathlib.Algebra.Ring.Nat

/-! Slug minting: slugs of names, and the collision rule within one municipality. -/

namespace FauPortalen.Register

def maxSlugLen : Nat := 80

inductive SlugError
  | empty
  | invalidMunicipalityNumber
deriving DecidableEq

/-- The length in bytes. -/
def byteLength (text : List Char) : Nat := (text.map Char.utf8Size).sum

/-- Splits after that many bytes; `none` past the end or inside a character, where slicing
a string panics.
-/
def splitBytes? : Nat → List Char → Option (List Char × List Char)
  | 0, text => some ([], text)
  | _ + 1, [] => none
  | count + 1, c :: rest =>
      if c.utf8Size ≤ count + 1 then
        (splitBytes? (count + 1 - c.utf8Size) rest).map fun split => (c :: split.1, split.2)
      else none

/-- What stands before the last occurrence of the character. -/
def beforeLast? (sep : Char) : List Char → Option (List Char)
  | [] => none
  | c :: rest =>
      match beforeLast? sep rest with
      | some before => some (c :: before)
      | none => if c = sep then some [] else none

/-- Shortens to at most `maxLen` bytes, at the last hyphen within that limit, or hard at
the limit when there is none.
-/
def cutToLen (text : List Char) (maxLen : Nat) : Option (List Char) :=
  if byteLength text ≤ maxLen then some text
  else do
    let (head, tail) ← splitBytes? maxLen text
    if tail.head? = some '-' then return head
    return (beforeLast? '-' head).getD head

/-- Shortens `base` so that it fits within the cap together with a hyphen and `suffix`. -/
def makeRoomFor (base suffix : String) : Option String :=
  let budget := maxSlugLen - (1 + byteLength suffix.toList)
  if byteLength base.toList ≤ budget then some base
  else (cutToLen base.toList budget).map String.ofList

section

variable [UnicodeData]

/-- The collapsed text is ASCII, so the cap never cuts inside a character. -/
def slugify (name : String) : Except SlugError String :=
  let collapsed := collapse (latinFold name .transliterate) '-'
  let slug := (cutToLen collapsed maxSlugLen).getD collapsed
  if slug.isEmpty then .error .empty else .ok (String.ofList slug)

def municipalitySlug (number norwegianName : String) : Except SlugError String :=
  if byteLength number.toList ≠ 4 ∨ !number.toList.all Char.isDigit then
    .error .invalidMunicipalityNumber
  else do
    let name ← slugify norwegianName
    return number ++ "-" ++ name

/-- The candidate with a number. `none` is a cut inside a character. -/
def numberedCandidate (stem : String) (number : Nat) : Option String :=
  (makeRoomFor stem number.repr).map (· ++ "-" ++ number.repr)

/-- Tries `-n`, `-(n+1)` and so on, for `count` numbers. -/
def firstFreeNumbered (stem : String) (isTaken : String → Bool) : Nat → Nat → Option String
  | _, 0 => none
  | n, count + 1 => do
      let candidate ← numberedCandidate stem n
      if isTaken candidate then firstFreeNumbered stem isTaken (n + 1) count
      else return candidate

/-- The numbers from 2 that a `u32` range yields before it overflows. -/
def numberedAttempts : Nat := 2 ^ 32 - 3

/-- The base slug, then with the post town appended, then numbered from 2. `none` is a
panic: a cut inside a character, or every numbered candidate taken.
-/
def firstFreeSlug (base : String) (postTown : Option String) (isTaken : String → Bool)
    : Option String :=
  if !isTaken base then some base
  else
    match postTown.bind fun town => (slugify town).toOption with
    | some town => do
        let room ← makeRoomFor base town
        let withTown := room ++ "-" ++ town
        if !isTaken withTown then return withTown
        firstFreeNumbered withTown isTaken 2 numberedAttempts
    | none => firstFreeNumbered base isTaken 2 numberedAttempts

end

-----------------------------------------------------------------------------------------
-- What a found slug satisfies

theorem firstFreeNumbered_free {stem slug : String} {isTaken : String → Bool}
    {first count : Nat} (found : firstFreeNumbered stem isTaken first count = some slug)
    : isTaken slug = false := by
  induction count generalizing first with
  | zero => cases found
  | succ count ih =>
      simp only [firstFreeNumbered, Option.bind_eq_bind, Option.bind_eq_some_iff] at found
      obtain ⟨candidate, _, found⟩ := found
      split at found
      · exact ih found
      · next free =>
          cases found
          simpa using free

/-- The collision rule only ever returns a slug that is not taken, by its three stages. -/
theorem firstFreeSlug_free [UnicodeData] {base slug : String} {postTown : Option String}
    {isTaken : String → Bool} (found : firstFreeSlug base postTown isTaken = some slug)
    : isTaken slug = false := by
  unfold firstFreeSlug at found
  split at found
  · next free =>
      cases found
      simpa using free
  · split at found
    · simp only [Option.bind_eq_bind, Option.bind_eq_some_iff] at found
      obtain ⟨room, _, found⟩ := found
      split at found
      · next free =>
          cases found
          simpa using free
      · exact firstFreeNumbered_free found
    · exact firstFreeNumbered_free found

end FauPortalen.Register

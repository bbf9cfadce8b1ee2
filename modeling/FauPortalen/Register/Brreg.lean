import Mathlib.Data.String.Basic
import Mathlib.Data.Prod.Lex
import FauPortalen.Foundations.Grouping
import FauPortalen.Membership.EmailParsing
import FauPortalen.Register.Similarity

/-! Brreg's entities: the address keys by which an FAU's organisation is matched with a school, and
the lines that name a person, a post box or, behind `c/o`, a school.
-/

namespace FauPortalen.Register

open Foundations
open FauPortalen.Membership (trim)

-----------------------------------------------------------------------------------------
-- Words

/-- A folded word: lowercase ASCII letters and digits. -/
abbrev Word := List Char

/-- The words a text folds to. -/
def foldWords [UnicodeData] (line : String) : List Word :=
  ((searchQuery line).splitOn ' ').filter (!·.isEmpty)

/-- Words that say what kind of body or school it is, not which one. -/
def genericWords : List Word :=
  ["fau", "foreldrenes", "foreldreradets", "foreldreradet", "foreldrerad", "arbeidsutvalg",
    "arbeidsutval", "arbeidsutvalet", "arbeidsutvalget", "ved", "pa", "for", "i", "og", "v",
    "skole", "skolen", "skoles", "skule", "skulen", "skules", "barneskole", "barneskule",
    "ungdomsskole", "ungdomsskule", "ungdomskole", "barne", "oppvekstsenter"].map String.toList

/-- Words by which a name's core is still read as a school. -/
def schoolWords : List Word :=
  ["skole", "skolen", "skule", "skulen", "barneskole", "barneskule", "ungdomsskole",
    "ungdomsskule", "oppvekstsenter"].map String.toList

def Word.hasDigit (word : Word) : Bool := word.any Char.isDigit

def firstDigitIndex (words : List Word) : Option Nat := words.findIdx? Word.hasDigit

/-- Just after the first place where the words occur one after the other. -/
def findSequence (haystack needle : List Word) : Option Nat :=
  if needle.isEmpty || haystack.length < needle.length then none
  else (haystack.dropInfix? needle).map fun (before, _) => before.length + needle.length

-----------------------------------------------------------------------------------------
-- Personal markers

/-- The index of the last word that passes the test. -/
def rposition (test : Word → Bool) (words : List Word) : Option Nat :=
  (words.reverse.findIdx? test).map (words.length - 1 - ·)

/-- Where a personal marker ends: after a pair `c`, `o` anywhere, else after the last `v` before the
first word with a digit, else after the first `v` behind it that is not the last word.
-/
def markerEnd (words : List Word) : Option Nat :=
  match findSequence words [['c'], ['o']] with
  | some end_ => some end_
  | none => do
      let firstDigit ← firstDigitIndex words
      match rposition (· = ['v']) (words.take firstDigit) with
      | some index => return index + 1
      | none =>
          let after := words.drop (firstDigit + 1)
          if after.isEmpty then none
          else (after.dropLast.findIdx? (· = ['v'])).map (firstDigit + 1 + · + 1)

def isPersonal (words : List Word) : Bool := (markerEnd words).isSome

-----------------------------------------------------------------------------------------
-- Streets

/-- A post box, by a word or by the pair `p`, `b`. -/
def isPostbox (words : List Word) : Bool :=
  (words.any fun word => word = "postboks".toList || word = "pb".toList || word = "boks".toList)
    || (words.zip words.tail).any fun pair => pair.1 = ['p'] && pair.2 = ['b']

/-- The spellings a street's last part may have, and the one it is given. -/
def streetSuffixes : List (Word × Word) :=
  [("veien", "vei"), ("vegen", "vei"), ("veg", "vei"), ("gaten", "gate"), ("gata", "gate")].map
    fun (suffix, canonical) => (suffix.toList, canonical.toList)

/-- What stands before the suffix. -/
def stripSuffix (word suffix : Word) : Option Word :=
  if suffix.isSuffixOf word then some (word.take (word.length - suffix.length)) else none

/-- Street-type spellings that differ between registrations of one address. -/
def streetWord (word : Word) : Word :=
  match streetSuffixes.findSome? fun (suffix, canonical) =>
      (stripSuffix word suffix).map (· ++ canonical) with
  | some street => street
  | none =>
      if word = "vn".toList || word = "v".toList then "vei".toList
      else if word = "gt".toList then "gate".toList
      else word

/-- A word of one byte, an ASCII lowercase letter. -/
def Word.isHouseLetter : Word → Bool
  | [c] => c.isLower
  | _ => false

/-- Adds a word: "18 a" and "18a" are the same house. -/
def addStreetWord (out : List Word) (word : Word) : List Word :=
  match out.getLast? with
  | some previous =>
      if word.isHouseLetter && previous.all Char.isDigit then out.dropLast ++ [previous ++ word]
      else out ++ [streetWord word]
  | none => out ++ [streetWord word]

/-- The words of a street, in one spelling. -/
def streetWords (words : List Word) : List Word := words.foldl addStreetWord []

/-- A street needs a digit and is no post box. -/
def normaliseStreetWords (words : List Word) : Option String :=
  if isPostbox words || (firstDigitIndex words).isNone then none
  else some (String.ofList ([' '].intercalate (streetWords words)))

-----------------------------------------------------------------------------------------
-- Keys

/-- A normalised street line and its postcode. -/
structure AddressKey where
  street : String
  postcode : String
deriving DecidableEq

/-- By street, then by postcode. -/
def AddressKey.order (key : AddressKey) : String ×ₗ String := toLex (key.street, key.postcode)

theorem AddressKey.order_injective : Function.Injective AddressKey.order := by
  rintro ⟨street, postcode⟩ ⟨street', postcode'⟩ same
  cases same
  rfl

instance : LinearOrder AddressKey := LinearOrder.lift' AddressKey.order AddressKey.order_injective

/-- Sorted, each key once. -/
def sortedKeyList (keys : List AddressKey) : List AddressKey := dropRepeats id (sortOn id keys)

/-- A trimmed postcode of four ASCII digits. -/
def validPostcode (postcode : Option String) : Option String :=
  (postcode.map fun code => trim code.toList).bind fun code =>
    if byteLength code = 4 && code.all Char.isDigit then some (String.ofList code) else none

section

variable [UnicodeData]

/-- A line's street, unless the line names a person. -/
def streetLine (line : String) : Option String :=
  let words := foldWords line
  if isPersonal words then none else normaliseStreetWords words

/-- Every usable address line as a key. -/
def addressKeys (lines : List String) (postcode : Option String) : List AddressKey :=
  match validPostcode postcode with
  | none => []
  | some code => sortedKeyList ((lines.filterMap streetLine).map (⟨·, code⟩))

/-- The identifying words of a school's name. -/
def coreWords (schoolName : String) : List Word :=
  (foldWords schoolName).filter (· ∉ genericWords)

/-- The identifying part of a school's name: the words that name the kind of school removed. -/
def nameCore (name : String) : String := String.ofList ([' '].intercalate (coreWords name))

/-- Just after the school's name in a name part: the name in full, else its core and a word for a
school.
-/
def schoolMatchEnd (namePart schoolLossy schoolCore : List Word) : Option Nat :=
  match findSequence namePart schoolLossy with
  | some end_ => some end_
  | none => do
      let coreEnd ← findSequence namePart schoolCore
      let next ← namePart[coreEnd]?
      if next ∈ schoolWords then return coreEnd + 1 else none

/-- The street behind a marker and the school's name: the name part runs from the marker to the first
word with a digit.
-/
def careOfLine (line : String) (schoolLossy schoolCore : List Word) : Option String := do
  let words := foldWords line
  let markerEnd ← markerEnd words
  let namePartEnd := (firstDigitIndex words).getD words.length
  if markerEnd > namePartEnd then none
  else
    let matched ← schoolMatchEnd ((words.take namePartEnd).drop markerEnd) schoolLossy schoolCore
    normaliseStreetWords (words.drop (markerEnd + matched))

/-- Keys from marked lines that name the school. -/
def careOfKeys (lines : List String) (postcode : Option String) (schoolName : String)
    : List AddressKey :=
  match validPostcode postcode with
  | none => []
  | some code =>
      let schoolLossy := foldWords schoolName
      let schoolCore := ((nameCore schoolName).toList.splitOn ' ').filter (!·.isEmpty)
      sortedKeyList
        ((lines.filterMap fun line => careOfLine line schoolLossy schoolCore).map (⟨·, code⟩))

end

section

attribute [local instance] UnicodeData.ascii

example : addressKeys ["Postboks 12", "v/ Kari Nordmann, Hjemveien 12", "Storgata 18 A"] (some " 1362")
    = [⟨"storgate 18a", "1362"⟩] := by decide +kernel

example : careOfKeys ["c/o Hosle skole, Bispeveien 73"] (some "1362") "Hosle skole"
    = [⟨"bispevei 73", "1362"⟩] := by decide +kernel

end

end FauPortalen.Register

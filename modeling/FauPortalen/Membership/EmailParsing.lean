import FauPortalen.Membership.Vocabulary
import FauPortalen.Register.Slug

/-! Addresses as they are typed, and the normalised form that is stored: trimmed, checked and
lower-cased, in that order.
-/

namespace FauPortalen.Membership

open Register (byteLength)

-----------------------------------------------------------------------------------------
-- Characters

/-- The Unicode tables behind the checks and the lower-casing. -/
class CharacterTables where
  isAlphanumeric : Char → Bool
  toLowercase : Char → List Char
  isCased : Char → Bool
  isCaseIgnorable : Char → Bool

/-- Unicode's White_Space. -/
def isWhitespace (c : Char) : Bool :=
  (0x9 ≤ c.toNat && c.toNat ≤ 0xD) || c.toNat == 0x20 || c.toNat == 0x85 || c.toNat == 0xA0
    || c.toNat == 0x1680 || (0x2000 ≤ c.toNat && c.toNat ≤ 0x200A) || c.toNat == 0x2028
    || c.toNat == 0x2029 || c.toNat == 0x202F || c.toNat == 0x205F || c.toNat == 0x3000

/-- Unicode's general category Cc. -/
def isControl (c : Char) : Bool := c.toNat ≤ 0x1F || (0x7F ≤ c.toNat && c.toNat ≤ 0x9F)

def trim (text : List Char) : List Char :=
  ((text.dropWhile isWhitespace).reverse.dropWhile isWhitespace).reverse

/-- The text before the last separator, and the text after it. -/
def rsplitOnce (sep : Char) : List Char → Option (List Char × List Char)
  | [] => none
  | c :: rest =>
      match rsplitOnce sep rest with
      | some (before, after) => some (c :: before, after)
      | none => if c = sep then some ([], rest) else none

section

variable [CharacterTables]

def caseIgnorableThenCased (text : List Char) : Bool :=
  (text.dropWhile CharacterTables.isCaseIgnorable).head?.any CharacterTables.isCased

/-- A capital sigma, by whether it ends its word; the text before it nearest first. -/
def mapUppercaseSigma (before after : List Char) : Char :=
  if caseIgnorableThenCased before && !caseIgnorableThenCased after then 'ς' else 'σ'

def lowercaseFrom (before : List Char) : List Char → List Char
  | [] => []
  | c :: rest =>
      (if c = 'Σ' then [mapUppercaseSigma before rest] else CharacterTables.toLowercase c)
        ++ lowercaseFrom (c :: before) rest

/-- The lower-case text: each character by itself, a capital sigma by what is around it. -/
def strToLowercase (text : List Char) : List Char := lowercaseFrom [] text

-----------------------------------------------------------------------------------------
-- Addresses

inductive EmailError
  | empty
  | tooLong
  | malformed
deriving DecidableEq

/-- RFC 5321's practical ceiling on a forward path. -/
def Email.maxLen : Nat := 254

def isDomainChar (c : Char) : Bool := CharacterTables.isAlphanumeric c || c == '-'

/-- Not empty, letters, digits and hyphens only, and no hyphen first or last. -/
def isDomainLabel (label : List Char) : Bool :=
  !label.isEmpty && label.head? != some '-' && label.getLast? != some '-'
    && label.all isDomainChar

/-- What a local part and a domain must be for an address to be well formed. -/
def wellFormedParts (loc domain : List Char) : Bool :=
  !loc.isEmpty && !loc.contains '@' && domain.contains '.' && domain.head? != some '.'
    && domain.getLast? != some '.' && (domain.splitOn '.').all isDomainLabel

def Email.parse (raw : String) : Except EmailError Email := do
  let s := trim raw.toList
  if s.isEmpty then throw .empty
  if Email.maxLen < byteLength s then throw .tooLong
  if s.any fun c => isWhitespace c || isControl c then throw .malformed
  let some (loc, domain) := rsplitOnce '@' s | throw .malformed
  if wellFormedParts loc domain then return ⟨String.ofList (strToLowercase s)⟩
  throw .malformed

end

end FauPortalen.Membership

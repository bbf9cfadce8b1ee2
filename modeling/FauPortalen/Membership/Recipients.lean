import FauPortalen.Foundations.PercentEncoding
import FauPortalen.Foundations.Quoting
import FauPortalen.Membership.EmailParsing

/-! A selection of addresses as a `mailto:` link or as a text to copy, each address once and in
its RFC 5322 form.
-/

namespace FauPortalen.Membership

open Foundations
open Register (byteLength)

-----------------------------------------------------------------------------------------
-- One address

/-- RFC 5322's `atext`, and any character outside ASCII. -/
def isAtext (c : Char) : Bool :=
  c.isAlphanum || "!#$%&'*+-/=?^_\x60\x7b|\x7d~".toList.contains c || 128 ≤ c.toNat

def isDotAtom (text : List Char) : Bool :=
  !text.isEmpty && (text.splitOn '.').all fun part => !part.isEmpty && part.all isAtext

/-- The address as it is when its local part is a dot-atom, else with that part quoted; none
where the code panics, at a text without an `@`.
-/
def addressSpec (address : Email) : Option (List Char) :=
  (rsplitOnce '@' address.asStr.toList).map fun (loc, domain) =>
    if isDotAtom loc then address.asStr.toList else quote loc ++ '@' :: domain

/-- The bytes that are not encoded: RFC 3986's unreserved characters and `@`. -/
def isMailtoByte (b : UInt8) : Bool :=
  (Char.ofNat b.toNat).isAlphanum || [0x2D, 0x2E, 0x5F, 0x7E, 0x40].contains b

def percentEncode (text : List Char) : List Char :=
  encodeBytes isMailtoByte (text.flatMap String.utf8EncodeChar)

-----------------------------------------------------------------------------------------
-- A selection

inductive RecipientField
  | to
  | bcc
deriving DecidableEq

inductive CopySeparator
  | comma
  | semicolon
deriving DecidableEq

def CopySeparator.asStr : CopySeparator → List Char
  | .comma => [',', ' ']
  | .semicolon => [';', ' ']

def mailtoMaxChars : Nat := 1800

inductive Mailto
  | link (url : List Char)
  | tooLong (length : Nat)
deriving DecidableEq

/-- The addresses of one selection, each once, in first-seen order. -/
structure Recipients where
  addresses : List Email
  distinct : (addresses.map Email.asStr).Nodup

/-- Keeps each address whose text has not been seen. -/
def keepUnseen (seen : List String) : List Email → List Email
  | [] => []
  | address :: rest =>
      if address.asStr ∈ seen then keepUnseen seen rest
      else address :: keepUnseen (address.asStr :: seen) rest

theorem keepUnseen_distinct (seen : List String) (addresses : List Email)
    : ((keepUnseen seen addresses).map Email.asStr).Nodup
      ∧ ∀ address ∈ keepUnseen seen addresses, address.asStr ∉ seen := by
  induction addresses generalizing seen with
  | nil => exact ⟨.nil, nofun⟩
  | cons address rest ih =>
      rw [keepUnseen]
      split
      · exact ih seen
      · rename_i unseen
        obtain ⟨distinct, fresh⟩ := ih (address.asStr :: seen)
        refine ⟨List.nodup_cons.mpr ⟨?_, distinct⟩, ?_⟩
        · intro member
          obtain ⟨other, found, same⟩ := List.mem_map.mp member
          exact fresh other found (same ▸ List.mem_cons_self)
        · intro other member
          rcases List.mem_cons.mp member with rfl | member
          · exact unseen
          · exact fun old => fresh other member (List.mem_cons_of_mem _ old)

namespace Recipients

def new (addresses : List Email) : Recipients :=
  ⟨keepUnseen [] addresses, (keepUnseen_distinct [] addresses).1⟩

def linkPrefix : RecipientField → List Char
  | .to => "mailto:".toList
  | .bcc => "mailto:?bcc=".toList

/-- The link, unless it is too long; none where an address has no `@`. -/
def mailto (recipients : Recipients) (field : RecipientField) : Option Mailto := do
  let specs ← recipients.addresses.mapM addressSpec
  let url := linkPrefix field ++ [','].intercalate (specs.map percentEncode)
  return if mailtoMaxChars < byteLength url then .tooLong (byteLength url) else .link url

/-- The text to copy; none where an address has no `@`. -/
def copyText (recipients : Recipients) (separator : CopySeparator) : Option (List Char) := do
  let specs ← recipients.addresses.mapM addressSpec
  return separator.asStr.intercalate specs

end Recipients

end FauPortalen.Membership

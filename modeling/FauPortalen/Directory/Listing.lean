import FauPortalen.Foundations.Comparators
import FauPortalen.Membership.Vocabulary

/-! The directory as the screen shows it, after its names have been decrypted: headings, the
people under them, and the order they are put in for one viewer's locale.
-/

namespace FauPortalen.Directory

open Foundations
open FauPortalen.Membership (Email)

-----------------------------------------------------------------------------------------
-- What a listing is made of

/-- Orders names for one locale, as the Unicode collation algorithm does. -/
structure NameCollator where
  compare : String → String → Ordering

inductive SectionId
  /-- Every current member and admin. -/
  | fau
  | group (id : Nat)
deriving DecidableEq

/-- One heading of the directory. -/
structure Section where
  id : SectionId
  /-- The decrypted group name; none for the whole FAU. -/
  title : Option String
  members : List Nat
deriving DecidableEq

structure DisplayName where
  asStr : String
deriving DecidableEq

/-- A name as the directory shows it. -/
inductive ShownName
  | named (name : DisplayName)
  /-- A membership from before names were kept. -/
  | unnamed
deriving DecidableEq

/-- Where a role sits in the school structure. -/
inductive Place
  | unit (name : String)
  | cohort (name : String)
deriving DecidableEq

/-- One role held today. -/
structure RoleHeld where
  name : String
  place : Option Place
deriving DecidableEq

structure Person where
  membershipId : Nat
  name : ShownName
  address : Email
  isGuest : Bool
  roles : List RoleHeld
  /-- The listed groups this person is in. -/
  groups : List Nat
deriving DecidableEq

structure Listing where
  sections : List Section
  people : List Person
deriving DecidableEq

-----------------------------------------------------------------------------------------
-- Comparisons

variable (collator : NameCollator)

/-- By collation, the unnamed last. -/
def compareNames : ShownName → ShownName → Ordering
  | .named a, .named b => collator.compare a.asStr b.asStr
  | .named _, .unnamed => .lt
  | .unnamed, .named _ => .gt
  | .unnamed, .unnamed => .eq

def placeText : Option Place → String
  | none => ""
  | some (.unit name) => name
  | some (.cohort name) => name

/-- By name, ties by id. -/
def comparePeople (a b : Person) : Ordering :=
  (compareNames collator a.name b.name).then (compare a.membershipId b.membershipId)

/-- The whole FAU first, then groups by title, ties by id. -/
def compareSections (a b : Section) : Ordering :=
  match a.id, b.id with
  | .fau, .fau => .eq
  | .fau, .group _ => .lt
  | .group _, .fau => .gt
  | .group x, .group y =>
      (collator.compare (a.title.getD "") (b.title.getD "")).then (compare x y)

/-- By name, then by place. -/
def compareRoles (a b : RoleHeld) : Ordering :=
  (collator.compare a.name b.name).then
    (collator.compare (placeText a.place) (placeText b.place))

-----------------------------------------------------------------------------------------
-- Arranging

/-- The ranked ids of a list, each once, by rank. -/
def retainRanked (rank : AssocMap Nat Nat) (ids : List Nat) : List Nat :=
  -- every id that is kept has a rank, so the default is never read
  sortOn (fun id => (rank.lookup id).getD 0)
    (keepFirst id [] (ids.filter fun id => (rank.lookup id).isSome))

def personPlace : Person × Nat → Nat × Nat
  | (person, index) => (person.membershipId, index)

/-- The places of the people in their list. -/
def peopleRank (people : List Person) : AssocMap Nat Nat :=
  .collect (people.zipIdx.map personPlace)

def groupPlace : Section × Nat → Option (Nat × Nat)
  | (heading, index) =>
      match heading.id with
      | .group group => some (group, index)
      | .fau => none

/-- The places of the groups among the sections. -/
def groupRank (sections : List Section) : AssocMap Nat Nat :=
  .collect (sections.zipIdx.filterMap groupPlace)

/-- Orders the directory for one viewer's locale. Repeated people and members are dropped,
keeping the first, and so are members and groups the listing does not describe.
-/
def arrange (sections : List Section) (people : List Person) : Listing :=
  let people := sortBy (comparePeople collator) (keepFirst Person.membershipId [] people)
  let rank := peopleRank people
  let sections := (sortBy (compareSections collator) sections).map fun heading =>
    { heading with members := retainRanked rank heading.members }
  let groupRank := groupRank sections
  let people := people.map fun person =>
    { person with
      roles := sortBy (compareRoles collator) person.roles
      groups := retainRanked groupRank person.groups }
  ⟨sections, people⟩

/-- Compares code point by code point. -/
def NameCollator.codePoints : NameCollator := ⟨fun a b => Ord.compare a b⟩

example :
    let person (id : Nat) (groups : List Nat) : Person :=
      ⟨id, .named ⟨"Åse"⟩, ⟨"ase@example.no"⟩, false, [], groups⟩
    (arrange .codePoints
      [⟨.group 101, some "Styret", [1]⟩, ⟨.group 100, some "Dugnad", [9, 1, 2, 1]⟩]
      [person 2 [101], person 1 [101, 77, 100], person 2 []])
    = ⟨[⟨.group 100, some "Dugnad", [1, 2]⟩, ⟨.group 101, some "Styret", [1]⟩],
      [person 1 [100, 101], person 2 [101]]⟩ := by decide +kernel

end FauPortalen.Directory

import FauPortalen.Calendar

/-! Source records as the register's rules see them, and which units can have a school:
Kartverket's municipalities, SSB's code changes and NSR's units.
-/

namespace FauPortalen.Register

-----------------------------------------------------------------------------------------
-- Source records

/-- One official name of a municipality, in one language. -/
structure OfficialName where
  name : String
  language : String
  priority : Nat
deriving DecidableEq

/-- A current municipality from Kartverket. -/
structure MunicipalityRecord where
  number : String
  norwegianName : String
  officialName : String
  countyNumber : String
  countyName : String
  names : List OfficialName
deriving DecidableEq

/-- One SSB code change: a renumber, a rename, a split, a merger or a boundary adjustment.
-/
structure CodeChange where
  oldCode : String
  oldName : String
  newCode : String
  newName : String
  occurredOn : Date
deriving DecidableEq

structure NsrAddress where
  street : Option String
  postcode : Option String
  postTown : Option String
deriving DecidableEq

/-- NSR's closure code, any but `A`, and its instant. -/
structure NsrClosure where
  code : String
  closedAt : Option Timestamp
deriving DecidableEq

/-- One NSR unit. -/
structure NsrUnit where
  orgnr : String
  name : String
  municipalityNumber : String
  isSchool : Bool
  isActive : Bool
  isPrimarySchool : Bool
  isPrivate : Bool
  categoryIds : List String
  /-- Priority and code, in NSR's order. -/
  nace : List (Int × String)
  gradeFrom : Option Int
  gradeTo : Option Int
  language : Option String
  website : Option String
  visiting : NsrAddress
  postal : NsrAddress
  closure : Option NsrClosure
  changedAt : Option Timestamp
deriving DecidableEq

-----------------------------------------------------------------------------------------
-- Scope

/-- The fields the scope filter reads. -/
structure NsrScopeFacts where
  isSchool : Bool
  isActive : Bool
  isPrimarySchool : Bool
  municipalityNumber : String
  categoryIds : List String
  primaryNace : Option String

inductive OutOfScopeReason
  | notASchool
  | inactive
  | notPrimarySchool
  | abroad
  | adultEducation
  | upperSecondary
deriving DecidableEq

inductive ScopeDecision
  | inScope
  | outOfScope (reason : OutOfScopeReason)
deriving DecidableEq

/-- Checked in a fixed order, so each unit gets one reason. -/
def classify (facts : NsrScopeFacts) : ScopeDecision :=
  if !facts.isSchool then .outOfScope .notASchool
  else if !facts.isActive then .outOfScope .inactive
  else if !facts.isPrimarySchool then .outOfScope .notPrimarySchool
  else if facts.municipalityNumber = "2599" then .outOfScope .abroad
  else if facts.categoryIds.any fun c => c == "10" || c == "25" then
    .outOfScope .adultEducation
  else
    match facts.primaryNace with
    | none => .inScope
    | some code =>
        if code = "85.593" then .outOfScope .adultEducation
        else if "85.3".toList.isPrefixOf code.toList then .outOfScope .upperSecondary
        else .inScope

/-- An operator's decision wins over the classification. -/
def effectiveInScope (classifiedInScope : Bool) (operatorOverride : Option Bool) : Bool :=
  operatorOverride.getD classifiedInScope

/-- The code of the first entry with priority 1. -/
def primaryNace (codes : List (Int × String)) : Option String :=
  (codes.find? (·.1 == 1)).map Prod.snd

def NsrUnit.scopeFacts (unit : NsrUnit) : NsrScopeFacts :=
  {
    isSchool := unit.isSchool
    isActive := unit.isActive
    isPrimarySchool := unit.isPrimarySchool
    municipalityNumber := unit.municipalityNumber
    categoryIds := unit.categoryIds
    primaryNace := primaryNace unit.nace
  }

/-- The scope filter accepts the unit. -/
def NsrUnit.classified (unit : NsrUnit) : Bool :=
  classify unit.scopeFacts = .inScope

/-- A unit in scope is active: the filter's second check. -/
theorem NsrUnit.isActive_of_classified {unit : NsrUnit} (h : unit.classified = true)
    : unit.isActive = true := by
  by_contra inactive
  simp only [Bool.not_eq_true] at inactive
  simp [NsrUnit.classified, classify, NsrUnit.scopeFacts, inactive] at h
  split at h <;> cases h

end FauPortalen.Register

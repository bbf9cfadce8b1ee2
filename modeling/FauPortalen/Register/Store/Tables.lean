import FauPortalen.Foundations.Comparators
import FauPortalen.Membership.Vocabulary
import FauPortalen.Register.SlugFormat
import FauPortalen.Register.Store.Reviews

/-! The register's tables with the constraints the database checks after each statement, and the
snapshot the planner reads from them.
-/

namespace FauPortalen

/-- The days since 2000-01-01, which is how a column stores a date. -/
def Date.dayNumber (date : Date) : Int :=
  let years := date.year - 1
  let months := (List.range (date.month - 1)).map fun m => (daysInMonth date.year (m + 1) : Int)
  365 * years + years / 4 - years / 100 + years / 400 + months.sum + date.day - 730120

example : (date? 2024 3 1).map Date.dayNumber = some 8826 := by decide +kernel

end FauPortalen

namespace FauPortalen.Register

open FauPortalen.Foundations

-----------------------------------------------------------------------------------------
-- Rows

variable {Id : Type}

structure MunicipalityRow (Id : Type) where
  id : Id
  name : String
  officialName : Option String
  countyNumber : String
  countyName : String
  slug : String
  status : MunicipalityStatus
  dissolvedOn : Option Date
  source : MunicipalitySource
  searchText : List Char
  createdAt : Timestamp
deriving DecidableEq

structure NameRow (Id : Type) where
  municipalityId : Id
  name : String
  language : String
  priority : Nat
deriving DecidableEq

/-- A number with the days it is held, from the first to before the last. -/
structure NumberRow (Id : Type) where
  municipalityId : Id
  number : String
  validFrom : Int
  validUntil : Option Int
deriving DecidableEq

structure MunicipalitySlugRow (Id : Type) where
  slug : String
  municipalityId : Id
  validFrom : Timestamp
  validUntil : Timestamp
deriving DecidableEq

/-- The reasons the column knows; `rejected` is for submissions. -/
inductive StoredReason
  | closed
  | merged
  | duplicate
  | rejected
  | outOfScope
deriving DecidableEq

def ClosureReason.stored : ClosureReason → StoredReason
  | .closed => .closed
  | .merged => .merged
  | .duplicate => .duplicate
  | .outOfScope => .outOfScope

structure SchoolRow (Id : Type) where
  id : Id
  municipalityId : Id
  origin : Origin
  displayName : String
  registerName : Option String
  displayNameCurated : Bool
  slug : Option String
  verification : Verification
  verifiedAt : Option Timestamp
  orgnr : Option String
  attributes : SchoolAttributes
  inScope : Bool
  scopeOverride : Option Bool
  status : SchoolStatus
  closedOn : Option Date
  closureReason : Option StoredReason
  successorId : Option Id
  sourceChangedAt : Option Timestamp
  lastSeenInSourceAt : Option Timestamp
  searchText : List Char
  createdAt : Timestamp
deriving DecidableEq

structure OrgnrRow (Id : Type) where
  orgnr : String
  schoolId : Id
deriving DecidableEq

structure SchoolSlugRow (Id : Type) where
  municipalityId : Id
  slug : String
  schoolId : Id
  validFrom : Timestamp
  validUntil : Timestamp
deriving DecidableEq

structure TenantRow (Id : Type) where
  schoolId : Id
  status : Membership.TenantStatus
deriving DecidableEq

/-- A school's link to an FAU of Brreg; only a linked one counts. -/
structure FauLinkRow (Id : Type) where
  schoolId : Id
  fauOrgnr : String
  isLinked : Bool
deriving DecidableEq

structure RegisterTables (Id : Type) where
  municipalities : List (MunicipalityRow Id)
  names : List (NameRow Id)
  numbers : List (NumberRow Id)
  municipalitySlugs : List (MunicipalitySlugRow Id)
  schools : List (SchoolRow Id)
  orgnrs : List (OrgnrRow Id)
  schoolSlugs : List (SchoolSlugRow Id)
  tenants : List (TenantRow Id)
  fauLinks : List (FauLinkRow Id)
  reviews : List (ReviewRow Id)

-----------------------------------------------------------------------------------------
-- Checks of one row

/-- `^[0-9]{count}$` -/
def isDigits (count : Nat) (text : String) : Bool :=
  text.toList.length = count && text.toList.all Char.isDigit

/-- `^[0-9]{4}-[a-z0-9]+(-[a-z0-9]+)*$`, and at most 85 characters. -/
def isMunicipalitySlug (slug : String) : Bool :=
  (slug.toList.take 4).length = 4 && (slug.toList.take 4).all Char.isDigit
    && (slug.toList.drop 4).head? = some '-' && readsSlug false (slug.toList.drop 5)
    && slug.toList.length ≤ 85

/-- `^[a-z0-9]+(-[a-z0-9]+)*$`, and at most 80 characters. -/
def isSchoolSlug (slug : String) : Bool :=
  readsSlug false slug.toList && slug.toList.length ≤ 80

/-- `^[0-9A-Z]{9}$` -/
def isSchoolOrgnr (orgnr : String) : Bool :=
  orgnr.toList.length = 9 && orgnr.toList.all fun c => c.isDigit || c.isUpper

def isGrade (grade : Int) : Bool := 1 ≤ grade && grade ≤ 13

def MunicipalityRow.check (row : MunicipalityRow Id) : Bool :=
  isDigits 2 row.countyNumber
    && (row.status = .dissolved : Bool) == row.dissolvedOn.isSome
    && isMunicipalitySlug row.slug

def NumberRow.check (row : NumberRow Id) : Bool :=
  isDigits 4 row.number && row.validUntil.all (row.validFrom < ·)

def MunicipalitySlugRow.check (row : MunicipalitySlugRow Id) : Bool :=
  row.validFrom < row.validUntil && isMunicipalitySlug row.slug

def SchoolAttributes.check (attributes : SchoolAttributes) : Bool :=
  attributes.gradeFrom.all isGrade && attributes.gradeTo.all isGrade
    && attributes.gradeFrom.all fun first => attributes.gradeTo.all (first ≤ ·)

def SchoolRow.check [DecidableEq Id] (row : SchoolRow Id) : Bool :=
  row.orgnr.all isSchoolOrgnr
    && row.attributes.check
    && (row.status = .closed : Bool) == row.closedOn.isSome
    && (row.status = .closed || row.closureReason.isNone)
    && (row.origin = .submitted || row.orgnr.isSome)
    && (row.slug.isNone || row.verification = .listed || row.verification = .verified)
    && row.successorId ≠ some row.id
    && row.slug.all isSchoolSlug

def SchoolSlugRow.check (row : SchoolSlugRow Id) : Bool :=
  row.validFrom < row.validUntil && isSchoolSlug row.slug

-----------------------------------------------------------------------------------------
-- The constraints

namespace RegisterTables

def municipalityIds (s : RegisterTables Id) : List Id := s.municipalities.map (·.id)

def schoolIds (s : RegisterTables Id) : List Id := s.schools.map (·.id)

/-- A current slug with its municipality. -/
def currentSlugKeys (s : RegisterTables Id) : List (Id × String) :=
  s.schools.filterMap fun row => row.slug.map fun slug => (row.municipalityId, slug)

@[mk_iff]
structure MunicipalityConstraints [DecidableEq Id] (s : RegisterTables Id) : Prop where
  municipalityKeys : s.municipalityIds.Nodup
  municipalitySlugs : (s.municipalities.map (·.slug)).Nodup
  municipalityChecks : ∀ row ∈ s.municipalities, row.check = true
  nameKeys : (s.names.map fun row => (row.municipalityId, row.name)).Nodup
  nameOwners : ∀ row ∈ s.names, row.municipalityId ∈ s.municipalityIds
  numberKeys : (s.numbers.map fun row => (row.number, row.validFrom)).Nodup
  numberOwners : ∀ row ∈ s.numbers, row.municipalityId ∈ s.municipalityIds
  currentNumbers : ((s.numbers.filter (·.validUntil.isNone)).map (·.number)).Nodup
  numberChecks : ∀ row ∈ s.numbers, row.check = true
  municipalitySlugKeys : (s.municipalitySlugs.map fun row => (row.slug, row.validFrom)).Nodup
  municipalitySlugOwners : ∀ row ∈ s.municipalitySlugs, row.municipalityId ∈ s.municipalityIds
  municipalitySlugChecks : ∀ row ∈ s.municipalitySlugs, row.check = true

@[mk_iff]
structure SchoolConstraints [DecidableEq Id] (s : RegisterTables Id) : Prop where
  schoolKeys : s.schoolIds.Nodup
  orgnrs : (s.schools.filterMap (·.orgnr)).Nodup
  currentSlugs : s.currentSlugKeys.Nodup
  schoolMunicipalities : ∀ row ∈ s.schools, row.municipalityId ∈ s.municipalityIds
  successors : ∀ row ∈ s.schools, ∀ id, row.successorId = some id → id ∈ s.schoolIds
  schoolChecks : ∀ row ∈ s.schools, row.check = true
  orgnrKeys : (s.orgnrs.map (·.orgnr)).Nodup
  orgnrOwners : ∀ row ∈ s.orgnrs, row.schoolId ∈ s.schoolIds
  schoolSlugKeys
    : (s.schoolSlugs.map fun row => (row.municipalityId, row.slug, row.validFrom)).Nodup
  schoolSlugOwners : ∀ row ∈ s.schoolSlugs,
    row.municipalityId ∈ s.municipalityIds ∧ row.schoolId ∈ s.schoolIds
  schoolSlugChecks : ∀ row ∈ s.schoolSlugs, row.check = true

/-- The constraints of the tables that refer to schools and municipalities. -/
@[mk_iff]
structure ReferenceConstraints [DecidableEq Id] (s : RegisterTables Id) : Prop where
  tenantSchools : ∀ row ∈ s.tenants, row.schoolId ∈ s.schoolIds
  linkKeys : (s.fauLinks.map fun row => (row.schoolId, row.fauOrgnr)).Nodup
  linkedSchools : ((s.fauLinks.filter (·.isLinked)).map (·.schoolId)).Nodup
  linkedFaus : ((s.fauLinks.filter (·.isLinked)).map (·.fauOrgnr)).Nodup
  linkSchools : ∀ row ∈ s.fauLinks, row.schoolId ∈ s.schoolIds
  reviewSchools : ∀ row ∈ s.reviews, ∀ id, row.school = some id → id ∈ s.schoolIds
  reviewOthers : ∀ row ∈ s.reviews, ∀ id, row.otherSchool = some id → id ∈ s.schoolIds
  reviewMunicipalities : ∀ row ∈ s.reviews, ∀ id, row.municipality = some id →
    id ∈ s.municipalityIds

/-- The primary keys, the unique indexes, the foreign keys and the checks. -/
@[mk_iff]
structure Constraints [DecidableEq Id] (s : RegisterTables Id) : Prop
    extends s.MunicipalityConstraints, s.SchoolConstraints, s.ReferenceConstraints

instance [DecidableEq Id] (s : RegisterTables Id) : Decidable s.MunicipalityConstraints :=
  decidable_of_iff' _ (municipalityConstraints_iff s)

/-- A nullable reference is checked where there is one. -/
instance {reference : Option Id} {ids : List Id} [DecidableEq Id]
    : Decidable (∀ id, reference = some id → id ∈ ids) :=
  decidable_of_iff (reference.all (· ∈ ids) = true) (by cases reference <;> simp)

instance [DecidableEq Id] (s : RegisterTables Id) : Decidable s.SchoolConstraints :=
  decidable_of_iff' _ (schoolConstraints_iff s)

instance [DecidableEq Id] (s : RegisterTables Id) : Decidable s.ReferenceConstraints :=
  decidable_of_iff' _ (referenceConstraints_iff s)

instance [DecidableEq Id] (s : RegisterTables Id) : Decidable s.Constraints :=
  decidable_of_iff' _ (constraints_iff s)

end RegisterTables

-----------------------------------------------------------------------------------------
-- The snapshot

section

variable [LinearOrder Id]

namespace RegisterTables

/-- The current number first, otherwise the one held last. -/
def numberOf (s : RegisterTables Id) (id : Id) : Option String :=
  ((sortOn (fun row => toLex (row.validUntil.isSome, -row.validFrom))
    (s.numbers.filter (·.municipalityId = id))).head?).map (·.number)

def namesOf (s : RegisterTables Id) (id : Id) : List OfficialName :=
  sortedNames ((s.names.filter (·.municipalityId = id)).map fun row =>
    ⟨row.name, row.language, row.priority⟩)

/-- A municipality as the planner sees it; `none` when it never had a number. -/
def municipalitySnapshot (s : RegisterTables Id) (row : MunicipalityRow Id)
    : Option (MunicipalitySnapshot Id) :=
  (s.numberOf row.id).map fun number =>
    ⟨row.id, number, row.name, row.officialName, row.countyNumber, row.countyName, row.slug,
      row.status, row.source, s.namesOf row.id⟩

/-- A pending or active tenant has the school. -/
def hasLiveFau (s : RegisterTables Id) (id : Id) : Bool :=
  s.tenants.any fun row => row.schoolId = id && (row.status = .pending || row.status = .active)

def schoolSnapshot (s : RegisterTables Id) (row : SchoolRow Id) : SchoolSnapshot Id :=
  {
    id := row.id
    municipalityId := row.municipalityId
    origin := row.origin
    orgnr := row.orgnr
    registerName := row.registerName
    displayName := row.displayName
    displayNameCurated := row.displayNameCurated
    slug := row.slug
    verification := row.verification
    status := row.status
    inScope := row.inScope
    scopeOverride := row.scopeOverride
    hasLiveFau := s.hasLiveFau row.id
    attributes := row.attributes
  }

end RegisterTables

/-- The whole register. `none` is a row that does not decode: a name whose priority is no byte, or
a municipality without a number.
-/
def loadSnapshot (s : RegisterTables Id) : Option (RegisterSnapshot Id) := do
  if s.names.any (256 ≤ ·.priority) then none
  let municipalities ← (sortOn (·.id) s.municipalities).mapM s.municipalitySnapshot
  return {
    municipalities := municipalities
    schools := (sortOn (·.id) s.schools).map s.schoolSnapshot
    schoolOrgnrHistory :=
      (sortOn (fun row => toLex (row.schoolId, row.orgnr)) s.orgnrs).map fun row =>
        (row.orgnr, row.schoolId)
    schoolSlugHistory :=
      (sortOn (fun row =>
          toLex (row.schoolId, toLex (row.validFrom, toLex (row.municipalityId, row.slug))))
        s.schoolSlugs).map fun row => (row.municipalityId, row.slug, row.schoolId)
    municipalitySlugHistory :=
      (sortOn (fun row => toLex (row.municipalityId, toLex (row.validFrom, row.slug)))
        s.municipalitySlugs).map fun row => (row.slug, row.municipalityId)
  }

/-- What a seed requires and a sync refuses. -/
def registerIsEmpty (s : RegisterTables Id) : Bool :=
  s.municipalities.isEmpty && s.schools.isEmpty

end

end FauPortalen.Register

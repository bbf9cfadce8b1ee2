import FauPortalen.Register.Source
import Mathlib.Order.Defs.LinearOrder

/-! The planner's vocabulary: the register snapshot it reads, the inputs it is given, and
the plan it returns.
-/

namespace FauPortalen.Register

/-- A row that exists, or one this plan creates. New rows are numbered from 0 in creation
order, municipalities and schools apart.
-/
inductive Ref (Id : Type)
  | existing (id : Id)
  | new (number : Nat)
deriving DecidableEq

-----------------------------------------------------------------------------------------
-- The register

inductive MunicipalityStatus
  | active
  | dissolved
deriving DecidableEq

/-- Svalbard is `manual`: neither source lists it. -/
inductive MunicipalitySource
  | kartverket
  | manual
deriving DecidableEq

/-- One municipality with its current number and its names. -/
structure MunicipalitySnapshot (Id : Type) where
  id : Id
  number : String
  name : String
  officialName : Option String
  countyNumber : String
  countyName : String
  slug : String
  status : MunicipalityStatus
  source : MunicipalitySource
  names : List OfficialName
deriving DecidableEq

inductive Origin
  | register
  | submitted
deriving DecidableEq

inductive Verification
  | listed
  | pending
  | verified
  | rejected
  | held
deriving DecidableEq

inductive SchoolStatus
  | active
  | closed
deriving DecidableEq

inductive Ownership
  | publicSchool
  | privateSchool
deriving DecidableEq

/-- The NSR facts a school row carries, compared as a whole. -/
structure SchoolAttributes where
  ownership : Option Ownership
  gradeFrom : Option Int
  gradeTo : Option Int
  language : Option String
  website : Option String
  streetAddress : Option String
  postcode : Option String
  postTown : Option String
deriving DecidableEq

/-- The visiting address as a whole when it has a street, otherwise the postal address. -/
def SchoolAttributes.fromUnit (unit : NsrUnit) : SchoolAttributes :=
  let address := if unit.visiting.street.isSome then unit.visiting else unit.postal
  {
    ownership := some (if unit.isPrivate then .privateSchool else .publicSchool)
    gradeFrom := unit.gradeFrom
    gradeTo := unit.gradeTo
    language := unit.language
    website := unit.website
    streetAddress := address.street
    postcode := address.postcode
    postTown := address.postTown
  }

/-- One school, as far as the planner needs it. -/
structure SchoolSnapshot (Id : Type) where
  id : Id
  municipalityId : Id
  origin : Origin
  orgnr : Option String
  registerName : Option String
  displayName : String
  displayNameCurated : Bool
  slug : Option String
  verification : Verification
  status : SchoolStatus
  inScope : Bool
  scopeOverride : Option Bool
  /-- A pending or active tenant references the school. -/
  hasLiveFau : Bool
  attributes : SchoolAttributes
deriving DecidableEq

/-- The register as the planner sees it, read in one transaction. -/
structure RegisterSnapshot (Id : Type) where
  municipalities : List (MunicipalitySnapshot Id)
  schools : List (SchoolSnapshot Id)
  /-- Each school's former organisation numbers. -/
  schoolOrgnrHistory : List (String × Id)
  /-- Municipality, slug and school. -/
  schoolSlugHistory : List (Id × String × Id)
  municipalitySlugHistory : List (String × Id)
deriving DecidableEq

/-- The sync may change the row: it is active, and listed or verified. -/
def SchoolSnapshot.isTracked {Id : Type} (school : SchoolSnapshot Id) : Bool :=
  school.status = .active
    && (school.verification = .listed || school.verification = .verified)

theorem SchoolSnapshot.isTracked_iff {Id : Type} {school : SchoolSnapshot Id}
    : school.isTracked = true
      ↔ school.status = .active
        ∧ (school.verification = .listed ∨ school.verification = .verified) := by
  simp [isTracked]

-----------------------------------------------------------------------------------------
-- Inputs

inductive RunKind
  | seed
  | sync
deriving DecidableEq

/-- What the caller fetched for one run. -/
structure SyncInputs [OsloZone] where
  municipalities : List MunicipalityRecord
  codeChanges : List CodeChange
  units : List NsrUnit
  kind : RunKind
  moment : Moment

-----------------------------------------------------------------------------------------
-- Plans

inductive MunicipalityOp (Id : Type)
  | create (new : Nat) (number name : String) (officialName : Option String)
      (countyNumber countyName slug : String) (names : List OfficialName)
      (source : MunicipalitySource)
  /-- `name` is the new name when a change of name is folded in. -/
  | renumber (id : Id) (fromNumber toNumber : String) (validFrom : Date)
      (name : Option String) (oldSlug newSlug : String)
  | rename (id : Id) (name oldSlug newSlug : String)
  /-- Everything but the Norwegian name and the slug. -/
  | updateDetails (id : Id) (officialName : Option String)
      (countyNumber countyName : String) (names : List OfficialName)
deriving DecidableEq

/-- `old` goes into history; a school without a slug has none to give up. -/
structure SlugChange where
  old : Option String
  new : String
deriving DecidableEq

inductive CreateVerification
  | listed
  | held
deriving DecidableEq

inductive ClosureReason
  | closed
  | merged
  | duplicate
  | outOfScope
deriving DecidableEq

def ClosureReason.code : ClosureReason → String
  | .closed => "closed"
  | .merged => "merged"
  | .duplicate => "duplicate"
  | .outOfScope => "out_of_scope"

inductive SchoolOp (Id : Type)
  | create (new : Nat) (municipality : Ref Id) (orgnr registerName displayName : String)
      (slug : Option String) (verification : CreateVerification) (inScope : Bool)
      (attributes : SchoolAttributes) (sourceChangedAt : Option Timestamp)
  /-- `displayName` is absent when the display name is curated. -/
  | rename (id : Id) (registerName : String) (displayName : Option String)
      (slug : Option SlugChange)
  | updateAttributes (id : Id) (attributes : SchoolAttributes)
  /-- The old slug goes to history under `source`. -/
  | move (id source : Id) (target : Ref Id) (slug : Option SlugChange)
  /-- The school's slug goes to history and is cleared. -/
  | close (id : Id) (reason : ClosureReason) (closedOn : Date) (successor : Option (Ref Id))
deriving DecidableEq

inductive ReviewKind
  | closureWithFau
  | possibleReregistration
  | possibleSubmissionMatch
  | municipalitySplitOrMerge
  | massChange
  | unknownMunicipalityNumber
  | fauSeveralAtSchool
  | fauSeveralSchools
  | fauMatchConflict
  | submissionMatchesListedSchool
deriving DecidableEq

structure ReviewItem (Id : Type) where
  kind : ReviewKind
  school : Option (Ref Id)
  otherSchool : Option (Ref Id)
  municipality : Option (Ref Id)
  details : List (String × String)
deriving DecidableEq

structure Counts where
  municipalitiesCreated : Nat := 0
  municipalitiesUpdated : Nat := 0
  renumbered : Nat := 0
  renamed : Nat := 0
  /-- Listed creates; held ones count as `schoolsHeld` only. -/
  schoolsCreated : Nat := 0
  schoolsRenamed : Nat := 0
  schoolsUpdated : Nat := 0
  /-- Schools whose attribute update blanks a field. -/
  attributeLosses : Nat := 0
  schoolsMoved : Nat := 0
  schoolsClosed : Nat := 0
  schoolsHeld : Nat := 0
  reviews : Nat := 0
  /-- Units left alone because their municipality is blocked or unknown. -/
  skipped : Nat := 0
deriving DecidableEq

/-- Ordered so that a sequential applier works: municipality operations, then closes, which
release slugs, then creates, renames, attribute updates and moves.
-/
structure SyncPlan (Id : Type) where
  municipalityOps : List (MunicipalityOp Id)
  schoolOps : List (SchoolOp Id)
  reviews : List (ReviewItem Id)
  counts : Counts
deriving DecidableEq

inductive AbortReason
  | emptySource (source : String)
  | massChange (closes renames attributeLosses active : Nat)
deriving DecidableEq

inductive SyncOutcome (Id : Type)
  | noChange
  | apply (plan : SyncPlan Id)
  | abort (reason : AbortReason) (counts : Counts)
deriving DecidableEq

end FauPortalen.Register

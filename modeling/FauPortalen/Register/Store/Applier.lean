import FauPortalen.Foundations.Transactions
import FauPortalen.Register.Search
import FauPortalen.Register.Store.Tables

/-! The SQL applier: each operation of a plan as its statements on the tables, in the caller's
transaction.
-/

namespace FauPortalen.Register

open FauPortalen.Foundations Transaction

inductive RegisterError
  | database
  | decode
  | unknownRow
  | payloadNotUtf8
deriving DecidableEq

/-- A transaction on the register, all or nothing. -/
abbrev RegisterTx (Id : Type) : Type → Type := Transaction (RegisterTables Id) RegisterError

namespace Applier

variable {Id : Type} [LinearOrder Id]

-----------------------------------------------------------------------------------------
-- Statements

/-- What one statement writes, and the constraints after it. -/
def statement (change : RegisterTables Id → RegisterTables Id) : RegisterTx Id Unit := do
  update change
  let s ← select id
  require s.Constraints .database

/-- An update of the municipality with the id. A plan names exactly one row. -/
def updateMunicipality (id : Id) (change : MunicipalityRow Id → MunicipalityRow Id)
    : RegisterTx Id Unit := do
  let updated ← select fun s => s.municipalities.countP (·.id = id)
  statement fun s =>
    { s with municipalities := s.municipalities.map (changeAt MunicipalityRow.id id change) }
  require (updated = 1) .unknownRow

def updateSchool (id : Id) (change : SchoolRow Id → SchoolRow Id) : RegisterTx Id Unit := do
  let updated ← select fun s => s.schools.countP (·.id = id)
  statement fun s => { s with schools := s.schools.map (changeAt SchoolRow.id id change) }
  require (updated = 1) .unknownRow

/-- The end of the municipality's last history row. -/
def lastMunicipalitySlugEnd (s : RegisterTables Id) (id : Id) : Option Timestamp :=
  ((s.municipalitySlugs.filter (·.municipalityId = id)).map (·.validUntil)).max?

/-- The history row of a slug the municipality gives up, from the end of its last history row or
else from its creation; none when that interval is empty, as nobody saw the slug live.
-/
def municipalitySlugRows (s : RegisterTables Id) (id : Id) (oldSlug : String) (now : Timestamp)
    : List (MunicipalitySlugRow Id) :=
  (s.municipalities.filter (·.id = id)).filterMap fun row =>
    let validFrom := (lastMunicipalitySlugEnd s row.id).getD row.createdAt
    if validFrom < now then some ⟨oldSlug, row.id, validFrom, now⟩ else none

def municipalitySlugHistory (id : Id) (oldSlug : String) (now : Timestamp) : RegisterTx Id Unit :=
  statement fun s =>
    { s with municipalitySlugs := s.municipalitySlugs ++ municipalitySlugRows s id oldSlug now }

def lastSchoolSlugEnd (s : RegisterTables Id) (id : Id) : Option Timestamp :=
  ((s.schoolSlugs.filter (·.schoolId = id)).map (·.validUntil)).max?

/-- A school got its slug when it was verified, or created listed. -/
def schoolSlugRows (s : RegisterTables Id) (id : Id) (municipality : Option Id) (slug : String)
    (now : Timestamp) : List (SchoolSlugRow Id) :=
  (s.schools.filter (·.id = id)).filterMap fun row =>
    let validFrom := (lastSchoolSlugEnd s row.id).getD (row.verifiedAt.getD row.createdAt)
    if validFrom < now then
      some ⟨municipality.getD row.municipalityId, slug, row.id, validFrom, now⟩
    else none

def schoolSlugHistory (id : Id) (municipality : Option Id) (slug : String) (now : Timestamp)
    : RegisterTx Id Unit :=
  statement fun s =>
    { s with schoolSlugs := s.schoolSlugs ++ schoolSlugRows s id municipality slug now }

-----------------------------------------------------------------------------------------
-- Municipality operations

def insertNames (id : Id) (names : List OfficialName) : RegisterTx Id Unit :=
  names.forM fun n =>
    statement fun s => { s with names := s.names ++ [⟨id, n.name, n.language, n.priority⟩] }

/-- The municipality holds the number now. -/
def holdsNumber (id : Id) (number : String) (row : NumberRow Id) : Bool :=
  row.municipalityId = id && row.number = number && row.validUntil.isNone

/-- The day a number closes: that of the change, but no number closes before the day after it
opened.
-/
def closingDay (validFrom : Date) (row : NumberRow Id) : Int :=
  max validFrom.dayNumber (row.validFrom + 1)

/-- Closes the current number and opens the new one from the same day. -/
def renumber (id : Id) (fromNumber toNumber : String) (validFrom : Date) : RegisterTx Id Unit := do
  let opened ← select fun s => s.numbers.countP (holdsNumber id fromNumber)
  statement fun s =>
    { s with
      numbers :=
        s.numbers.map (fun row =>
          if holdsNumber id fromNumber row then
            { row with validUntil := some (closingDay validFrom row) }
          else row)
        ++ (s.numbers.filter (holdsNumber id fromNumber)).map fun row =>
            ⟨id, toNumber, closingDay validFrom row, none⟩ }
  require (opened = 1) .unknownRow

section

variable [OsloZone]

/-- One municipality operation. Returns the id it touched. -/
def applyMunicipalityOp (ids : NewIds Id) (moment : Moment) : MunicipalityOp Id → RegisterTx Id Id
  | .create new number name officialName countyNumber countyName slug names source => do
      let id ← expect (ids.municipality new) .unknownRow
      statement fun s =>
        { s with
          municipalities := s.municipalities ++ [⟨id, name, officialName, countyNumber,
            countyName, slug, .active, none, source, [], moment.now⟩] }
      -- the number's true start is unknown: it is held from the day it was first seen
      statement fun s =>
        { s with numbers := s.numbers ++ [⟨id, number, moment.today.dayNumber, none⟩] }
      insertNames id names
      return id
  | .renumber id fromNumber toNumber validFrom name oldSlug newSlug => do
      municipalitySlugHistory id oldSlug moment.now
      updateMunicipality id fun row =>
        { row with slug := newSlug, name := name.getD row.name }
      renumber id fromNumber toNumber validFrom
      return id
  | .rename id name oldSlug newSlug => do
      if oldSlug ≠ newSlug then municipalitySlugHistory id oldSlug moment.now
      updateMunicipality id fun row => { row with name := name, slug := newSlug }
      return id
  | .updateDetails id officialName countyNumber countyName names => do
      updateMunicipality id fun row =>
        { row with
          officialName := officialName
          countyNumber := countyNumber
          countyName := countyName }
      statement fun s => { s with names := s.names.filter (·.municipalityId ≠ id) }
      insertNames id names
      return id

end

section

variable [SearchData]

/-- Every name the municipality answers to, the Norwegian one first. -/
def refreshMunicipalitySearchText (id : Id) : RegisterTx Id Unit := do
  let found ← select fun s => s.municipalities.find? (·.id = id)
  let row ← expect found .database
  let names ← select fun s => s.namesOf id
  statement fun s =>
    { s with
      municipalities := s.municipalities.map <| changeAt MunicipalityRow.id id fun m =>
        { m with searchText := searchText (row.name :: names.map (·.name)) } }

/-- A school is found by its display name and its NSR name. -/
def refreshSchoolSearchText (id : Id) : RegisterTx Id Unit := do
  let found ← select fun s => s.schools.find? (·.id = id)
  let row ← expect found .database
  statement fun s =>
    { s with
      schools := s.schools.map <| changeAt SchoolRow.id id fun school =>
        { school with
          searchText := searchText (row.displayName :: row.registerName.toList) } }

end

-----------------------------------------------------------------------------------------
-- School operations

variable [OsloZone] [SearchData]

/-- The slug a school gives up goes to history before the school changes. -/
def giveUpSlug (id : Id) (municipality : Option Id) (slug : Option String) (now : Timestamp)
    : RegisterTx Id Unit :=
  match slug with
  | some old => schoolSlugHistory id municipality old now
  | none => pure ()

def applySchoolOp (ids : NewIds Id) (moment : Moment) : SchoolOp Id → RegisterTx Id Unit
  | .create new municipality orgnr registerName displayName slug verification inScope
      attributes sourceChangedAt => do
      let id ← expect (ids.school new) .unknownRow
      let municipality ← expect (ids.municipalityId municipality) .unknownRow
      let row : SchoolRow Id := {
        id := id
        municipalityId := municipality
        origin := .register
        displayName := displayName
        registerName := some registerName
        displayNameCurated := false
        slug := slug
        verification := verification.toVerification
        verifiedAt := none
        orgnr := some orgnr
        attributes := attributes
        inScope := inScope
        scopeOverride := none
        status := .active
        closedOn := none
        closureReason := none
        successorId := none
        sourceChangedAt := sourceChangedAt
        lastSeenInSourceAt := some moment.now
        searchText := searchText [displayName, registerName]
        createdAt := moment.now
      }
      statement fun s => { s with schools := s.schools ++ [row] }
  | .rename id registerName displayName slug => do
      giveUpSlug id none (SlugChange.given slug) moment.now
      updateSchool id fun row =>
        { row with
          registerName := some registerName
          displayName := displayName.getD row.displayName
          slug := (slug.map (·.new)).or row.slug }
  | .updateAttributes id attributes =>
      updateSchool id fun row => { row with attributes := attributes }
  | .move id source target slug => do
      giveUpSlug id (some source) (SlugChange.given slug) moment.now
      let target ← expect (ids.municipalityId target) .unknownRow
      updateSchool id fun row =>
        { row with municipalityId := target, slug := (slug.map (·.new)).or row.slug }
  | .close id reason closedOn _ => do
      let found ← select fun s => s.schools.find? (·.id = id)
      let row ← expect found .unknownRow
      giveUpSlug id none row.slug moment.now
      updateSchool id fun row =>
        { row with
          status := .closed
          closedOn := some closedOn
          closureReason := some reason.stored
          slug := none
          inScope := row.inScope && reason ≠ .outOfScope }

/-- The successor of a closed school, set once every creation has run. -/
def linkSuccessor (closed successor : Id) : RegisterTx Id Unit :=
  updateSchool closed fun row => { row with successorId := some successor }

-----------------------------------------------------------------------------------------
-- Plans

/-- What an applied plan wrote. -/
structure AppliedCounts (Id : Type) where
  counts : Counts
  ops : Nat
  newReviews : List (ReviewRow Id)
  deduplicatedReviews : Nat

/-- No operation ran and every review item was skipped. -/
def AppliedCounts.wroteNothing {Id : Type} (applied : AppliedCounts Id) : Bool :=
  applied.ops = 0 && applied.newReviews.isEmpty

/-- The school an operation renames. -/
def renamed? : SchoolOp Id → Option Id
  | .rename id .. => some id
  | _ => none

/-- The body of the loop over the school operations, which collects the successor links. -/
def schoolPass (ids : NewIds Id) (moment : Moment) (links : List (Id × Id)) (op : SchoolOp Id)
    : RegisterTx Id (List (Id × Id)) := do
  let links ← match pendingSuccessor? op with
    | some (closed, successor) => do
        let successor ← expect (ids.schoolId successor) .unknownRow
        pure (links ++ [(closed, successor)])
    | none => pure links
  applySchoolOp ids moment op
  return links

/-- Every municipality operation, then every school operation, each in plan order; then the
successor links, since a closing can name a school that a later operation creates; then the
review items.
-/
def applyPlan (ids : NewIds Id) (plan : SyncPlan Id) (moment : Moment)
    : RegisterTx Id (AppliedCounts Id) := do
  let touched ← plan.municipalityOps.foldlM
    (fun touched op => do
      let id ← applyMunicipalityOp ids moment op
      return touched ++ [id]) []
  (sortedKeys touched).forM refreshMunicipalitySearchText
  let links ← plan.schoolOps.foldlM (schoolPass ids moment) []
  links.forM fun link => linkSuccessor link.1 link.2
  (sortedKeys (plan.schoolOps.filterMap renamed?)).forM refreshSchoolSearchText
  let stored ← select (·.reviews)
  let table ← expect (writeReviews ids stored plan.reviews) .unknownRow
  statement fun s => { s with reviews := table.rows }
  return {
    counts := plan.counts
    ops := plan.municipalityOps.length + plan.schoolOps.length
    newReviews := table.written
    deduplicatedReviews := table.skipped
  }

end Applier

end FauPortalen.Register

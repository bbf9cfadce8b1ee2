import FauPortalen.Register.Sync.Matching
import FauPortalen.Register.Sync.Municipalities
import FauPortalen.Register.Sync.SlugBook

/-! Step 5 of a run: schools. Every unit meets one fate; closures, creations and updates
then become operations in the order an applier can run them.
-/

namespace FauPortalen.Register

open FauPortalen.Foundations

/-- At most this many organisation numbers are listed in one review item. -/
def maxListedOrgnrs : Nat := 20

structure SchoolPlan (Id : Type) where
  ops : List (SchoolOp Id)
  reviews : List (ReviewItem Id)
  /-- Units left alone because their municipality is blocked or unknown. -/
  skipped : Nat

inductive Resolved (Id : Type)
  | municipality (ref : Ref Id)
  | blocked
  | unknown

def MunicipalityState.resolve {Id : Type} (state : MunicipalityState Id) (number : String)
    : Resolved Id :=
  if number ∈ state.blockedNumbers then .blocked
  else
    match state.byNumber number with
    | some r => .municipality r
    | none => .unknown

/-- What becomes of one unit. -/
inductive Fate (Id : Type)
  /-- Nothing: out of scope without a school, a former number, or a row no run changes. -/
  | ignored
  | skipped
  | unknown
  | candidate (municipality : Ref Id)
  | closing (closing : Closing Id)
  | fauClosing (closing : FauClosing Id)
  | update (school : SchoolSnapshot Id) (municipality : Ref Id)

/-- A continuing school that changes municipality, or a new one, in what its unit's number
resolves to.
-/
def Resolved.fate {Id : Type} (resolved : Resolved Id) (found : Ref Id → Fate Id)
    : Fate Id :=
  match resolved with
  | .municipality ref => found ref
  | .blocked => .skipped
  | .unknown => .unknown

section

variable {Id : Type} [LinearOrder Id] [OsloZone]

/-- Why and when a school closes. -/
def closureFacts (unit : NsrUnit) (moment : Moment) : ClosureReason × Date :=
  if unit.isActive then (.outOfScope, moment.today)
  else
    let reason := match unit.closure.map NsrClosure.code with
      | some "D" => .duplicate
      | some "F" => .merged
      | _ => .closed
    let closedOn := ((unit.closure.bind NsrClosure.closedAt).map osloToday).getD moment.today
    (reason, closedOn)

/-- Only a unit closed by a merger (F) or a deletion (S) can have re-registered. -/
def isReregistrable (unit : NsrUnit) : Bool :=
  !unit.isActive && match unit.closure with
    | some c => c.code = "F" || c.code = "S"
    | none => false

def schoolByOrgnr (snapshot : RegisterSnapshot Id) : Lookup String (SchoolSnapshot Id) :=
  Lookup.ofPairs (snapshot.schools.filterMap fun s => s.orgnr.map fun o => (o, s))

def isFormerOrgnr (snapshot : RegisterSnapshot Id) (orgnr : String) : Bool :=
  snapshot.schoolOrgnrHistory.any fun row => row.1 = orgnr

/-- The unit closed or left scope, the operator's decision considered. -/
def unitLeaves (unit : NsrUnit) (school : SchoolSnapshot Id) : Bool :=
  !unit.isActive || !effectiveInScope unit.classified school.scopeOverride

/-- The closure of an open school. -/
def closureFate (unit : NsrUnit) (school : SchoolSnapshot Id) (moment : Moment) : Fate Id :=
  let (reason, closedOn) := closureFacts unit moment
  if school.hasLiveFau then
    .fauClosing ⟨school, isReregistrable unit, reason, closedOn, false⟩
  else .closing ⟨school, reason, closedOn, isReregistrable unit, none⟩

/-- What becomes of a unit that has a school. -/
def schoolFate (state : MunicipalityState Id) (moment : Moment) (unit : NsrUnit)
    (school : SchoolSnapshot Id) : Fate Id :=
  -- closed rows are never reopened; held, pending and rejected rows await a human
  if !school.isTracked then .ignored
  else if school.municipalityId ∈ state.blockedIds then .skipped
  else if unitLeaves unit school then closureFate unit school moment
  else (state.resolve unit.municipalityNumber).fate (.update school)

/-- The body of the unit loop. -/
def fate (snapshot : RegisterSnapshot Id) (state : MunicipalityState Id) (moment : Moment)
    (unit : NsrUnit) : Fate Id :=
  match schoolByOrgnr snapshot unit.orgnr with
  | some school => schoolFate state moment unit school
  | none =>
      -- a former number's closure must not close the school that carries on
      if unit.classified && !isFormerOrgnr snapshot unit.orgnr then
        (state.resolve unit.municipalityNumber).fate .candidate
      else .ignored

/-- A continuing school with its unit and the municipality the unit resolves to. -/
structure Update (Id : Type) where
  school : SchoolSnapshot Id
  unit : NsrUnit
  municipality : Ref Id

def Fate.closing? : Fate Id → Option (Closing Id)
  | .closing c => some c
  | _ => none

def Fate.fauClosing? : Fate Id → Option (FauClosing Id)
  | .fauClosing f => some f
  | _ => none

def Fate.candidate? (unit : NsrUnit) : Fate Id → Option (Candidate Id)
  | .candidate municipality => some ⟨unit, municipality⟩
  | _ => none

def Fate.update? (unit : NsrUnit) : Fate Id → Option (Update Id)
  | .update school municipality => some ⟨school, unit, municipality⟩
  | _ => none

def Fate.isUnknown : Fate Id → Bool
  | .unknown => true
  | _ => false

def Fate.isSkipped : Fate Id → Bool
  | .skipped | .unknown => true
  | _ => false

/-- The unit's number resolves to another municipality than the school's. -/
def Update.isMoving (u : Update Id) : Bool :=
  u.municipality ≠ .existing u.school.municipalityId

/-- NSR's name changed. -/
def Update.isRenamed (u : Update Id) : Bool :=
  u.school.registerName ≠ some u.unit.name

def Update.attributes (u : Update Id) : SchoolAttributes := .fromUnit u.unit

/-- The display name the school ends up with. -/
def Update.displayName (u : Update Id) : String :=
  if u.isRenamed && !u.school.displayNameCurated then u.unit.name else u.school.displayName

variable [UnicodeData]

/-- The slug change of a renamed school. A move re-mints the slug in the target
municipality instead; a curated display name keeps it.
-/
def renameSlug (u : Update Id) (book : SlugBook Id)
    : Option (Option SlugChange × SlugBook Id) :=
  let here := Ref.existing u.school.municipalityId
  let me := Ref.existing u.school.id
  if u.isMoving || u.school.displayNameCurated then some (none, book)
  else
    match u.school.slug, (slugify u.unit.name).toOption with
    | _, none => some (none, book)
    | some old, some base =>
        if base = old then some (none, book)
        else do
          let (new, book) ← book.mint here base u.attributes.postTown me
          return (if new ≠ old then some ⟨some old, new⟩ else none, book)
    -- a school without a slug gets its first one once its name is sluggable
    | none, some base => do
        let (new, book) ← book.mint here base u.attributes.postTown me
        return (some ⟨none, new⟩, book)

/-- The slug change of a school that moves: always a change when it has a slug, even if the
text is the same.
-/
def moveSlug (u : Update Id) (book : SlugBook Id)
    : Option (Option SlugChange × SlugBook Id) :=
  match u.school.slug with
  | none => some (none, book)
  | some old => do
      let base := ((slugify u.displayName).toOption).getD old
      let (new, book) ←
        book.mint u.municipality base u.attributes.postTown (.existing u.school.id)
      return (some ⟨some old, new⟩, book)

def renameOps (u : Update Id) (book : SlugBook Id)
    : Option (List (SchoolOp Id) × SlugBook Id) :=
  if u.isRenamed then do
    let (slug, book) ← renameSlug u book
    let displayName := if u.school.displayNameCurated then none else some u.unit.name
    return ([.rename u.school.id u.unit.name displayName slug], book)
  else some ([], book)

def attributeOps (u : Update Id) : List (SchoolOp Id) :=
  if u.attributes ≠ u.school.attributes then [.updateAttributes u.school.id u.attributes]
  else []

def moveOps (u : Update Id) (book : SlugBook Id)
    : Option (List (SchoolOp Id) × SlugBook Id) :=
  if u.isMoving then do
    let (slug, book) ← moveSlug u book
    return ([.move u.school.id u.school.municipalityId u.municipality slug], book)
  else some ([], book)

/-- A continuing school: rename, new attributes, and a move between municipalities. -/
def planUpdate (u : Update Id) (book : SlugBook Id)
    : Option (List (SchoolOp Id) × SlugBook Id) := do
  let (renames, book) ← renameOps u book
  let (moves, book) ← moveOps u book
  return (renames ++ attributeOps u ++ moves, book)

/-- The body of the update loop. -/
def stepUpdate (state : List (SchoolOp Id) × SlugBook Id) (u : Update Id)
    : Option (List (SchoolOp Id) × SlugBook Id) := do
  let (ops, book) ← planUpdate u state.2
  return (state.1 ++ ops, book)

/-- How a candidate's row is verified, and its slug. -/
def createSlug (candidate : Candidate Id) (number : Nat) (placement : Placement)
    (book : SlugBook Id)
    : Option ((CreateVerification × Option String) × SlugBook Id) :=
  let mintListed := match (slugify candidate.unit.name).toOption with
    -- a name with nothing sluggable gets no slug
    | none => some ((.listed, none), book)
    | some base => do
        let (slug, book) ← book.mint candidate.municipality base
          (SchoolAttributes.fromUnit candidate.unit).postTown (.new number)
        return ((.listed, some slug), book)
  match placement with
  | .successor (some slug) => some ((.listed, some slug), book)
  | .heldReregistration | .heldSubmission => some ((.held, none), book)
  | .successor none | .listed => mintListed

/-- The body of the creation loop. -/
def stepCreate (state : List (SchoolOp Id) × SlugBook Id)
    (placed : (Candidate Id × Placement) × Nat)
    : Option (List (SchoolOp Id) × SlugBook Id) := do
  let candidate := placed.1.1
  let ((verification, slug), book) ←
    createSlug candidate placed.2 placed.1.2 state.2
  let op := SchoolOp.create placed.2 candidate.municipality candidate.unit.orgnr
    candidate.unit.name candidate.unit.name slug verification true
    (SchoolAttributes.fromUnit candidate.unit) candidate.unit.changedAt
  return (state.1 ++ [op], book)

/-- A successor gets its predecessor's slug before any rename can take it. -/
def takeInherited (book : SlugBook Id) (placed : (Candidate Id × Placement) × Nat)
    : SlugBook Id :=
  match placed.1.2 with
  | .successor (some slug) => book.take placed.1.1.municipality slug (.new placed.2)
  | _ => book

def closeOp (c : Closing Id) : SchoolOp Id :=
  .close c.school.id c.reason c.closedOn c.successor

def closureReview (f : FauClosing Id) : ReviewItem Id :=
  {
    kind := .closureWithFau
    school := some (.existing f.school.id)
    otherSchool := none
    municipality := some (.existing f.school.municipalityId)
    details := [
      ("orgnr", f.school.orgnr.getD ""),
      ("name", f.school.displayName),
      ("reason", f.reason.code),
      ("closed_on", f.closedOn.toString)]
  }

def unknownNumberReview (group : String × List NsrUnit) : ReviewItem Id :=
  {
    kind := .unknownMunicipalityNumber
    school := none
    otherSchool := none
    municipality := none
    details := [
      ("municipality_number", group.1),
      ("unit_count", group.2.length.repr),
      ("orgnrs", joinTexts ((group.2.map NsrUnit.orgnr).take maxListedOrgnrs))]
  }

/-- The units sorted by their fates. -/
structure Sorted (Id : Type) where
  candidates : List (Candidate Id)
  closings : List (Closing Id)
  fauClosings : List (FauClosing Id)
  updates : List (Update Id)
  unknown : List (String × List NsrUnit)
  skipped : Nat

/-- The unit loop: each list holds its units in input order. -/
def sortUnits (snapshot : RegisterSnapshot Id) (state : MunicipalityState Id)
    (moment : Moment) (units : List NsrUnit) : Sorted Id :=
  let fateOf := fate snapshot state moment
  {
    candidates := units.filterMap fun u => (fateOf u).candidate? u
    closings := units.filterMap fun u => (fateOf u).closing?
    fauClosings := units.filterMap fun u => (fateOf u).fauClosing?
    updates := units.filterMap fun u => (fateOf u).update? u
    unknown := groupBy NsrUnit.municipalityNumber
      (units.filter fun u => (fateOf u).isUnknown)
    skipped := (units.filter fun u => (fateOf u).isSkipped).length
  }

/-- New rows are numbered by `u32`. -/
def newNumberLimit : Nat := 2 ^ 32

def sortedUnits (snapshot : RegisterSnapshot Id) (inputs : SyncInputs)
    (state : MunicipalityState Id) : Sorted Id :=
  sortUnits snapshot state inputs.moment inputs.units

def placedUnits (snapshot : RegisterSnapshot Id) (sorted : Sorted Id) : Placed Id :=
  placeAll sorted.candidates snapshot sorted.closings sorted.fauClosings

/-- Every candidate with its placement and its number as a new row. -/
def numberedCandidates (snapshot : RegisterSnapshot Id) (sorted : Sorted Id)
    : List ((Candidate Id × Placement) × Nat) :=
  (sorted.candidates.zip (placedUnits snapshot sorted).placements).zipIdx

/-- The slugs once the closing schools have given theirs up. -/
def releasedBook (snapshot : RegisterSnapshot Id) (sorted : Sorted Id) : SlugBook Id :=
  sorted.closings.foldl (fun book c => book.release c.school) (SlugBook.ofSnapshot snapshot)

/-- The slugs once the successors have inherited theirs. -/
def inheritedBook (snapshot : RegisterSnapshot Id) (sorted : Sorted Id) : SlugBook Id :=
  (numberedCandidates snapshot sorted).foldl takeInherited (releasedBook snapshot sorted)

/-- `none` is a panic: a slug that cannot be minted, or too many new schools. -/
def planSchools (snapshot : RegisterSnapshot Id) (inputs : SyncInputs)
    (state : MunicipalityState Id) : Option (SchoolPlan Id) :=
  let sorted := sortedUnits snapshot inputs state
  let placed := placedUnits snapshot sorted
  if newNumberLimit < sorted.candidates.length then none
  else do
    -- updates mint before creations do, but are emitted after them
    let (updateOps, updated) ←
      sorted.updates.foldlM stepUpdate ([], inheritedBook snapshot sorted)
    let (createOps, _) ←
      (numberedCandidates snapshot sorted).foldlM stepCreate ([], updated)
    return {
      ops := placed.closings.map closeOp ++ createOps ++ updateOps
      reviews := placed.reviews
        ++ (placed.fauClosings.filter fun f => !f.reregistered).map closureReview
        ++ sorted.unknown.map unknownNumberReview
      skipped := sorted.skipped
    }

end

end FauPortalen.Register

import FauPortalen.Foundations.KeyedRows
import FauPortalen.Foundations.PartialFold
import FauPortalen.Register.Sync.Plan

/-! The executable specification of applying a plan: the operations run in order on the
snapshot, and the store's uniqueness rules are checked after each of them.
-/

namespace FauPortalen.Register

open FauPortalen.Foundations

/-- The ids of the rows a plan creates, by their numbers in the plan. -/
structure NewIds (Id : Type) where
  municipality : Lookup Nat Id
  school : Lookup Nat Id

def NewIds.municipalityId {Id : Type} (ids : NewIds Id) : Ref Id → Option Id
  | .existing id => some id
  | .new n => ids.municipality n

def NewIds.schoolId {Id : Type} (ids : NewIds Id) : Ref Id → Option Id
  | .existing id => some id
  | .new n => ids.school n

section

variable {Id : Type} [LinearOrder Id]

/-- The row with the id as the change leaves it; `none` when the plan names no row. -/
def municipalityMut (out : RegisterSnapshot Id) (id : Id)
    (change : MunicipalitySnapshot Id → MunicipalitySnapshot Id)
    : Option (RegisterSnapshot Id) :=
  (modifyRow MunicipalitySnapshot.id id change out.municipalities).map fun rows =>
    { out with municipalities := rows }

def schoolMut (out : RegisterSnapshot Id) (id : Id)
    (change : SchoolSnapshot Id → SchoolSnapshot Id) : Option (RegisterSnapshot Id) :=
  (modifyRow SchoolSnapshot.id id change out.schools).map fun rows =>
    { out with schools := rows }

def schoolRef (out : RegisterSnapshot Id) (id : Id) : Option (SchoolSnapshot Id) :=
  findRow SchoolSnapshot.id id out.schools

def RegisterSnapshot.pushMunicipalitySlug (out : RegisterSnapshot Id) (slug : String)
    (id : Id) : RegisterSnapshot Id :=
  { out with municipalitySlugHistory := out.municipalitySlugHistory ++ [(slug, id)] }

/-- The slug a school gives up, if it had one, goes into the history. -/
def RegisterSnapshot.pushSchoolSlug (out : RegisterSnapshot Id) (municipality : Id)
    (slug : Option String) (id : Id) : RegisterSnapshot Id :=
  { out with
    schoolSlugHistory :=
      out.schoolSlugHistory ++ (slug.map fun s => (municipality, s, id)).toList }

def applyMunicipalityOp (ids : NewIds Id) (out : RegisterSnapshot Id)
    : MunicipalityOp Id → Option (RegisterSnapshot Id)
  | .create new number name officialName countyNumber countyName slug names source => do
      let id ← ids.municipality new
      let row : MunicipalitySnapshot Id :=
        ⟨id, number, name, officialName, countyNumber, countyName, slug, .active, source,
          names⟩
      return { out with municipalities := out.municipalities ++ [row] }
  | .renumber id _ toNumber _ name oldSlug newSlug => do
      let out ← municipalityMut out id fun m =>
        { m with number := toNumber, name := name.getD m.name, slug := newSlug }
      return out.pushMunicipalitySlug oldSlug id
  | .rename id name oldSlug newSlug => do
      let out ← municipalityMut out id fun m =>
        { m with name := name, slug := if oldSlug ≠ newSlug then newSlug else m.slug }
      return if oldSlug ≠ newSlug then out.pushMunicipalitySlug oldSlug id else out
  | .updateDetails id officialName countyNumber countyName names =>
      municipalityMut out id fun m =>
        { m with
          officialName := officialName
          countyNumber := countyNumber
          countyName := countyName
          names := names }

def CreateVerification.toVerification : CreateVerification → Verification
  | .listed => .listed
  | .held => .held

/-- A school as its closure leaves it. -/
def SchoolSnapshot.close (s : SchoolSnapshot Id) (reason : ClosureReason)
    : SchoolSnapshot Id :=
  { s with
    status := .closed
    inScope := if reason = .outOfScope then false else s.inScope
    slug := none }

/-- A school as a rename leaves it. -/
def SchoolSnapshot.rename (s : SchoolSnapshot Id) (registerName : String)
    (displayName : Option String) (slug : Option SlugChange) : SchoolSnapshot Id :=
  { s with
    registerName := some registerName
    displayName := displayName.getD s.displayName
    slug := match slug with
      | some change => some change.new
      | none => s.slug }

/-- A school as a move leaves it. -/
def SchoolSnapshot.move (s : SchoolSnapshot Id) (municipality : Id)
    (slug : Option SlugChange) : SchoolSnapshot Id :=
  { s with
    municipalityId := municipality
    slug := match slug with
      | some change => some change.new
      | none => s.slug }

/-- A school as a plan creates it. -/
def createdSchool (id municipality : Id) (orgnr registerName displayName : String)
    (slug : Option String) (verification : CreateVerification) (inScope : Bool)
    (attributes : SchoolAttributes) : SchoolSnapshot Id :=
  {
    id := id
    municipalityId := municipality
    origin := .register
    orgnr := some orgnr
    registerName := some registerName
    displayName := displayName
    displayNameCurated := false
    slug := slug
    verification := verification.toVerification
    status := .active
    inScope := inScope
    scopeOverride := none
    hasLiveFau := false
    attributes := attributes
  }

/-- The slug a slug change puts into history. -/
def SlugChange.given (change : Option SlugChange) : Option String :=
  change.bind SlugChange.old

def applySchoolOp (ids : NewIds Id) (out : RegisterSnapshot Id)
    : SchoolOp Id → Option (RegisterSnapshot Id)
  | .close id reason _ _ => do
      let s ← schoolRef out id
      let out ← schoolMut out id fun s => s.close reason
      return out.pushSchoolSlug s.municipalityId s.slug id
  | .create new municipality orgnr registerName displayName slug verification inScope
      attributes _ => do
      let id ← ids.school new
      let municipality ← ids.municipalityId municipality
      let row := createdSchool id municipality orgnr registerName displayName slug
        verification inScope attributes
      return { out with schools := out.schools ++ [row] }
  | .rename id registerName displayName slug => do
      let s ← schoolRef out id
      let out ← schoolMut out id fun s => s.rename registerName displayName slug
      return out.pushSchoolSlug s.municipalityId (SlugChange.given slug) id
  | .updateAttributes id attributes =>
      schoolMut out id fun s => { s with attributes := attributes }
  | .move id source target slug => do
      let municipality ← ids.municipalityId target
      let out ← schoolMut out id fun s => s.move municipality slug
      return out.pushSchoolSlug source (SlugChange.given slug) id

def applyMunicipalityOps (ids : NewIds Id) (out : RegisterSnapshot Id)
    (ops : List (MunicipalityOp Id)) : Option (RegisterSnapshot Id) :=
  ops.foldlM (applyMunicipalityOp ids) out

def applySchoolOps (ids : NewIds Id) (out : RegisterSnapshot Id)
    (ops : List (SchoolOp Id)) : Option (RegisterSnapshot Id) :=
  ops.foldlM (applySchoolOp ids) out

-----------------------------------------------------------------------------------------
-- The store's uniqueness rules

/-- The current slugs of the schools, each with its municipality. -/
def currentSlugs (out : RegisterSnapshot Id) : List (Id × String) :=
  out.schools.filterMap fun s => s.slug.map fun slug => (s.municipalityId, slug)

/-- One current slug per municipality among schools, none on a held row, unique
municipality slugs, and one active holder per municipality number.
-/
def checkInvariants (out : RegisterSnapshot Id) : Bool :=
  (out.schools.all fun s => s.slug.isNone || s.verification ≠ .held)
    && (currentSlugs out).Nodup
    && (out.municipalities.map (·.slug)).Nodup
    && ((out.municipalities.filter (·.status = .active)).map (·.number)).Nodup

/-- The snapshot, unless the check panics. -/
def checked (out : RegisterSnapshot Id) : Option (RegisterSnapshot Id) :=
  if checkInvariants out then some out else none

def stepMunicipalityOp (ids : NewIds Id) (out : RegisterSnapshot Id)
    (op : MunicipalityOp Id) : Option (RegisterSnapshot Id) := do
  let out ← applyMunicipalityOp ids out op
  checked out

def stepSchoolOp (ids : NewIds Id) (out : RegisterSnapshot Id) (op : SchoolOp Id)
    : Option (RegisterSnapshot Id) := do
  let out ← applySchoolOp ids out op
  checked out

-----------------------------------------------------------------------------------------
-- Applying a plan

/-- The successor a closed school's operation names, resolved once every create has run:
it exists, is not held, and shares the closed school's municipality.
-/
def resolveSuccessor (ids : NewIds Id) (out : RegisterSnapshot Id) (closedId : Id)
    (successor : Ref Id) : Option (Id × Id) := do
  let successorId ← ids.schoolId successor
  let closedSchool ← schoolRef out closedId
  let successorSchool ← schoolRef out successorId
  if successorSchool.verification = .held then none
  if successorSchool.municipalityId ≠ closedSchool.municipalityId then none
  return (closedId, successorId)

def pendingSuccessor? : SchoolOp Id → Option (Id × Ref Id)
  | .close id _ _ (some successor) => some (id, successor)
  | _ => none

def resolveSuccessors (ids : NewIds Id) (out : RegisterSnapshot Id)
    (ops : List (SchoolOp Id)) : Option (Lookup Id Id) := do
  let pairs ← (ops.filterMap pendingSuccessor?).mapM fun pending =>
    resolveSuccessor ids out pending.1 pending.2
  return Lookup.ofPairs pairs

/-- The applied snapshot, and every closed school's resolved successor. `none` is a panic.
-/
def applyWith (ids : NewIds Id) (snapshot : RegisterSnapshot Id) (plan : SyncPlan Id)
    : Option (RegisterSnapshot Id × Lookup Id Id) := do
  let out ← plan.municipalityOps.foldlM (stepMunicipalityOp ids) snapshot
  let out ← plan.schoolOps.foldlM (stepSchoolOp ids) out
  let successors ← resolveSuccessors ids out plan.schoolOps
  return (out, successors)

def createdMunicipality? : MunicipalityOp Id → Option Nat
  | .create new .. => some new
  | _ => none

def createdSchool? : SchoolOp Id → Option Nat
  | .create new .. => some new
  | _ => none

end

/-- Every new row's id in operation order, from one above the highest id in use. -/
def testkitIds (snapshot : RegisterSnapshot Nat) (plan : SyncPlan Nat) : NewIds Nat :=
  let used := snapshot.municipalities.map (·.id) ++ snapshot.schools.map (·.id)
  let next := (used.max?.map (· + 1)).getD 1
  let municipalities := plan.municipalityOps.filterMap createdMunicipality?
  let schools := plan.schoolOps.filterMap createdSchool?
  {
    municipality := Lookup.ofPairs (municipalities.zip (List.range' next municipalities.length))
    school := Lookup.ofPairs
      (schools.zip (List.range' (next + municipalities.length) schools.length))
  }

/-- Applies a plan to a snapshot, with numbers for ids. -/
def apply (snapshot : RegisterSnapshot Nat) (plan : SyncPlan Nat)
    : Option (RegisterSnapshot Nat × Lookup Nat Nat) :=
  applyWith (testkitIds snapshot plan) snapshot plan

end FauPortalen.Register

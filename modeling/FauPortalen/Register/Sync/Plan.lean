import FauPortalen.Foundations.KeyedRows
import FauPortalen.Register.Sync.Schools

/-! One run's plan, or why it must not be applied. -/

namespace FauPortalen.Register

open FauPortalen.Foundations

inductive Breaker
  | enforce
  | accept
deriving DecidableEq

def countMunicipalityOp {Id : Type} (c : Counts) : MunicipalityOp Id → Counts
  | .create .. => { c with municipalitiesCreated := c.municipalitiesCreated + 1 }
  | .renumber .. => { c with renumbered := c.renumbered + 1 }
  | .rename .. => { c with renamed := c.renamed + 1 }
  | .updateDetails .. => { c with municipalitiesUpdated := c.municipalitiesUpdated + 1 }

def countSchoolOp {Id : Type} (c : Counts) : SchoolOp Id → Counts
  | .create _ _ _ _ _ _ .listed .. => { c with schoolsCreated := c.schoolsCreated + 1 }
  | .create _ _ _ _ _ _ .held .. => { c with schoolsHeld := c.schoolsHeld + 1 }
  | .rename .. => { c with schoolsRenamed := c.schoolsRenamed + 1 }
  | .updateAttributes .. => { c with schoolsUpdated := c.schoolsUpdated + 1 }
  | .move .. => { c with schoolsMoved := c.schoolsMoved + 1 }
  | .close .. => { c with schoolsClosed := c.schoolsClosed + 1 }

def tally {Id : Type} (municipalityOps : List (MunicipalityOp Id))
    (schoolOps : List (SchoolOp Id)) (reviews skipped : Nat) : Counts :=
  let counts : Counts := { reviews := reviews, skipped := skipped }
  schoolOps.foldl countSchoolOp (municipalityOps.foldl countMunicipalityOp counts)

def losesAField (old new : SchoolAttributes) : Bool :=
  let lost {α : Type} (a b : Option α) : Bool := a.isSome && b.isNone
  lost old.ownership new.ownership
    || lost old.gradeFrom new.gradeFrom
    || lost old.gradeTo new.gradeTo
    || lost old.language new.language
    || lost old.website new.website
    || lost old.streetAddress new.streetAddress
    || lost old.postcode new.postcode
    || lost old.postTown new.postTown

section

variable {Id : Type} [LinearOrder Id] [OsloZone] [UnicodeData]

/-- Schools whose attribute update turns any field from present into absent. -/
def attributeLosses (snapshot : RegisterSnapshot Id) (ops : List (SchoolOp Id)) : Nat :=
  (ops.filter fun op =>
    match op with
    | .updateAttributes id attributes =>
        match findRow SchoolSnapshot.id id snapshot.schools with
        | some s => losesAField s.attributes attributes
        | none => false
    | _ => false).length

/-- More than 2% of the open schools closing, more than 5% renamed, or more than 5% losing
an attribute.
-/
def massChange (snapshot : RegisterSnapshot Id) (counts : Counts) : Option AbortReason :=
  let active := (snapshot.schools.filter SchoolSnapshot.isTracked).length
  let tripped := active > 0
    ∧ (counts.schoolsClosed * 100 > active * 2
      ∨ counts.schoolsRenamed * 100 > active * 5
      ∨ counts.attributeLosses * 100 > active * 5)
  if tripped then
    some (.massChange counts.schoolsClosed counts.schoolsRenamed counts.attributeLosses active)
  else none

/-- Sorted by organisation number, the first of each kept: the order and the repetitions of
the caller's units do not matter.
-/
def normaliseUnits (units : List NsrUnit) : List NsrUnit :=
  dropRepeats NsrUnit.orgnr (sortOn NsrUnit.orgnr units)

def SyncInputs.normalised (inputs : SyncInputs) : SyncInputs :=
  { inputs with units := normaliseUnits inputs.units }

/-- The source that returned nothing: an outage, not a country without schools. -/
def emptySource? (inputs : SyncInputs) : Option String :=
  if inputs.municipalities.isEmpty then some "kartverket"
  else if inputs.units.isEmpty then some "nsr"
  else none

/-- Both steps on normalised inputs. -/
def planSteps (snapshot : RegisterSnapshot Id) (inputs : SyncInputs)
    : Option (MunicipalityPlan Id × SchoolPlan Id) := do
  let municipalities ← planMunicipalities snapshot inputs.normalised
  let schools ← planSchools snapshot inputs.normalised municipalities.state
  return (municipalities, schools)

/-- The two steps' plan with its counts. -/
def assemble (snapshot : RegisterSnapshot Id)
    (steps : MunicipalityPlan Id × SchoolPlan Id) : SyncPlan Id :=
  let reviews := steps.1.reviews ++ steps.2.reviews
  let counts := tally steps.1.ops steps.2.ops reviews.length steps.2.skipped
  {
    municipalityOps := steps.1.ops
    schoolOps := steps.2.ops
    reviews := reviews
    counts := { counts with attributeLosses := attributeLosses snapshot steps.2.ops }
  }

/-- The outcome for an assembled plan. -/
def conclude (snapshot : RegisterSnapshot Id) (kind : RunKind) (breaker : Breaker)
    (plan : SyncPlan Id) : SyncOutcome Id :=
  match if kind = .sync && breaker = .enforce then massChange snapshot plan.counts else none with
  | some reason => .abort reason plan.counts
  | none =>
      if plan.municipalityOps.isEmpty && plan.schoolOps.isEmpty && plan.reviews.isEmpty then
        .noChange
      else .apply plan

def planWith (snapshot : RegisterSnapshot Id) (inputs : SyncInputs) (breaker : Breaker)
    : Option (SyncOutcome Id) :=
  match emptySource? inputs with
  | some source => some (.abort (.emptySource source) {})
  | none =>
      (planSteps snapshot inputs).map fun steps =>
        conclude snapshot inputs.kind breaker (assemble snapshot steps)

/-- `none` is a panic of the planner. -/
def plan (snapshot : RegisterSnapshot Id) (inputs : SyncInputs)
    : Option (SyncOutcome Id) :=
  planWith snapshot inputs .enforce

/-- The plan that the mass-change breaker would have stopped. -/
def planAcceptingMassChange (snapshot : RegisterSnapshot Id) (inputs : SyncInputs)
    : Option (SyncOutcome Id) :=
  planWith snapshot inputs .accept

/-- An applicable plan is the one both steps assemble, from sources that are not empty. -/
theorem planWith_apply {snapshot : RegisterSnapshot Id} {inputs : SyncInputs}
    {breaker : Breaker} {p : SyncPlan Id}
    (planned : planWith snapshot inputs breaker = some (.apply p))
    : emptySource? inputs = none
      ∧ ∃ steps, planSteps snapshot inputs = some steps ∧ p = assemble snapshot steps := by
  unfold planWith at planned
  split at planned
  · cases planned
  · next filled =>
      obtain ⟨steps, stepped, concluded⟩ := Option.map_eq_some_iff.mp planned
      refine ⟨filled, steps, stepped, ?_⟩
      unfold conclude at concluded
      split at concluded
      · cases concluded
      · split at concluded
        · cases concluded
        · cases concluded
          rfl

end

end FauPortalen.Register

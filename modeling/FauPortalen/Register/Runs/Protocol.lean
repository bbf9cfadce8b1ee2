import FauPortalen.Foundations.EventSystems
import FauPortalen.Foundations.SessionLocks
import FauPortalen.Register.Runs.Bookkeeping
import FauPortalen.Register.Store.AppliedSearch

/-! The sync command as the steps of its process, and any number of such processes on one database:
they take turns in any order, their sessions may break, and they may die at any point.
-/

namespace FauPortalen.Register.Runs

open FauPortalen.Foundations Transaction

-----------------------------------------------------------------------------------------
-- One process

/-- How a command ended. -/
inductive Exit
  | done
  | failed
  | aborted
  | locked
  | refused
deriving DecidableEq

/-- Why a run failed. An error of the database may be a timeout of its session. -/
inductive SyncError
  | database (isTimeout : Bool)
  | source
  | apply (isTimeout : Bool)
  | workerPanicked
  | noSeed
deriving DecidableEq

/-- The fixed word on the row of a failed run. -/
def SyncError.code : SyncError → String
  | .database true => "database_timeout"
  | .apply true => "database_timeout"
  | .database false => "database_error"
  | .source => "source_error"
  | .apply false => "apply_error"
  | .workerPanicked => "worker_panicked"
  | .noSeed => "no_seed"

section

variable [OsloZone]

/-- What the operator asked for, and the moment the command read. -/
structure Invocation where
  kind : RunKind
  dryRun : Bool
  acceptMassChange : Bool
  moment : Moment

/-- How far a process is. It plans with what it fetched and with the register as its transaction
saw it first; it reports an error over a connection of its own; `exited none` is a panic or a kill.
-/
inductive Stage (Id : Type)
  | connected
  | locked
  | admitted
  | running
  | fetched (fetched : Fetched)
  | planning (fetched : Fetched) (base : RegisterTables Id)
  | reporting (error : SyncError)
  | exited (exit : Option Exit)

structure Process (Id : Type) where
  invocation : Invocation
  stage : Stage Id
  /-- The session is alive. -/
  session : Bool
  /-- The id of the row, once the process knows it. -/
  run : Option Id

/-- Everything between the lock and the end. -/
def Stage.isLocked {Id : Type} : Stage Id → Bool
  | .connected | .exited _ => false
  | _ => true

/-- The session holds the lock until it ends. -/
def Process.holds {Id : Type} (process : Process Id) : Bool :=
  process.session && process.stage.isLocked

variable {Id : Type}

def Process.at (process : Process Id) (stage : Stage Id) : Process Id :=
  { process with stage := stage }

/-- The command ends, and its session with it. -/
def Process.exit (process : Process Id) (exit : Option Exit) : Process Id :=
  { process with stage := .exited exit, session := false }

-----------------------------------------------------------------------------------------
-- Planning and applying

section

variable [LinearOrder Id] [SearchData] [PayloadHash]

/-- The outcome of a run, and the mass change that it accepted. `none` is a panic of the planner.
-/
def outcomeOf (snapshot : RegisterSnapshot Id) (inputs : SyncInputs) (acceptMassChange : Bool)
    : Option (SyncOutcome Id × Option AbortReason) := do
  match ← plan snapshot inputs with
  | .abort (.massChange closes renames losses active) counts =>
      if acceptMassChange && inputs.kind = .sync then
        let outcome ← planAcceptingMassChange snapshot inputs
        return (outcome, some (.massChange closes renames losses active))
      else return (.abort (.massChange closes renames losses active) counts, none)
  | outcome => return (outcome, none)

def Invocation.inputs (invocation : Invocation) (fetched : Fetched) : SyncInputs :=
  {
    municipalities := fetched.municipalities
    codeChanges := fetched.codeChanges
    units := fetched.units.map (·.1)
    kind := invocation.kind
    moment := invocation.moment
  }

/-- What a transaction wrote to the register, beside what others wrote around it meanwhile. -/
def beside (written current : RegisterTables Id) (newReviews : List (ReviewRow Id))
    : RegisterTables Id :=
  { written with
    tenants := current.tenants
    fauLinks := current.fauLinks
    reviews := current.reviews ++ newReviews }

/-- Statements on the register as the transaction saw it first, with what they leave of it. -/
def onSnapshot {α : Type} (base : RegisterTables Id) (tx : RegisterTx Id α)
    : RunsTx Id (α × RegisterTables Id) :=
  fun s => (tx.run base).map (·, s)

/-- Applies the plan to the register as the transaction saw it first, stages the payloads and
records the run.
-/
def applyAndStage (base : RegisterTables Id) (ids : NewIds Id) (plan : SyncPlan Id)
    (units : List Detail) (invocation : Invocation) (run : Id)
    (acceptedMassChange : Option AbortReason) (finishedAt : Timestamp)
    : RunsTx Id (Applier.AppliedCounts Id) := do
  let (applied, written) ← onSnapshot base (Applier.applyPlan ids plan invocation.moment)
  if applied.wroteNothing then return applied
  update fun s => { s with register := beside written s.register applied.newReviews }
  let landed ← select (·.register)
  require landed.Constraints .database
  stagePayloads (units.map fun unit => .new unit.1 unit.2) invocation.moment
  recordApplied run invocation.kind applied acceptedMassChange finishedAt
  return applied

/-- How a planned run ends. -/
inductive Conclusion (Id : Type)
  | exits (exit : Exit) (database : RunsDatabase Id)
  | fails (error : SyncError)
  | panics

/-- What a statement or a transaction leaves, with the exit after it. -/
def booked (exit : Exit) (tx : RunsTx Id Unit) (database : RunsDatabase Id) : Conclusion Id :=
  match tx.run database with
  | .ok (_, after) => .exits exit after
  | .error _ => .fails (.database false)

/-- The end of a dry run, whatever its outcome. -/
def concludeDryRun (run : Id) (outcome : SyncOutcome Id) (finishedAt : Timestamp)
    : RunsDatabase Id → Conclusion Id :=
  match outcome with
  | .abort reason counts => booked .aborted (recordDryRun run counts (some reason) finishedAt)
  | .apply plan => booked .done (recordDryRun run plan.counts none finishedAt)
  | .noChange => booked .done (recordDryRun run {} none finishedAt)

/-- The end of a run that applies its outcome. A plan that wrote nothing is rolled back. -/
def concludeRun (base : RegisterTables Id) (ids : NewIds Id) (invocation : Invocation)
    (units : List Detail) (run : Id) (outcome : SyncOutcome Id)
    (acceptedMassChange : Option AbortReason) (finishedAt : Timestamp)
    (database : RunsDatabase Id)
    : Conclusion Id :=
  match outcome with
  | .noChange => booked .done (recordNoChange run finishedAt) database
  | .abort reason counts =>
      booked .aborted (recordAborted run invocation.kind reason counts finishedAt) database
  | .apply plan =>
      match (applyAndStage base ids plan units invocation run acceptedMassChange finishedAt).run
        database with
      | .error _ => .fails (.apply false)
      | .ok (applied, after) =>
          if applied.wroteNothing then booked .done (recordNoChange run finishedAt) database
          else .exits .done after

def conclusion (invocation : Invocation) (fetched : Fetched) (base : RegisterTables Id) (run : Id)
    (ids : NewIds Id) (finishedAt : Timestamp) (database : RunsDatabase Id)
    : Conclusion Id :=
  match loadSnapshot base with
  | none => .fails (.database false)
  | some snapshot =>
      match outcomeOf snapshot (invocation.inputs fetched) invocation.acceptMassChange with
      | none => .panics
      | some (outcome, acceptedMassChange) =>
          if invocation.dryRun then concludeDryRun run outcome finishedAt database
          else
            concludeRun base ids invocation fetched.units run outcome acceptedMassChange finishedAt
              database

-----------------------------------------------------------------------------------------
-- Turns

/-- What a process does next, or what happens to it. An effect that is not heard of reached the
database, but the process sees an error.
-/
inductive Turn (Id : Type)
  | takesLock
  | looks
  | starts (run : Id) (heard : Bool)
  | fetches (fetched : Fetched)
  | snapshots
  | concludes (ids : NewIds Id) (finishedAt : Timestamp) (heard : Bool)
  | errs (error : SyncError)
  | reports (finishedAt : Timestamp) (lands : Bool)
  | drops
  | dies

/-- A seed needs an empty register, and a sync one that is not. -/
def admits (kind : RunKind) (empty : Bool) : Bool :=
  match kind with
  | .seed => empty
  | .sync => !empty

/-- An error before the row is known ends the command; one after it is reported. -/
def Process.err (process : Process Id) (error : SyncError) : Option (Process Id) :=
  match process.stage with
  | .connected | .locked | .admitted => some (process.exit (some .failed))
  | .running | .fetched _ | .planning .. => some (process.at (.reporting error))
  | .reporting _ | .exited _ => none

def Process.fetch (process : Process Id) (database : RunsDatabase Id) (fetched : Fetched)
    : Process Id :=
  if process.invocation.kind = .sync ∧ seedDate database = none then
    process.at (.reporting .noSeed)
  else process.at (.fetched fetched)

/-- One turn of a process, on the database and knowing whether the lock is free. `none` is a turn
that does not come here.
-/
def Process.turn (process : Process Id) (database : RunsDatabase Id) (lockIsFree : Bool)
    (turn : Turn Id)
    : Option (Process Id × RunsDatabase Id) :=
  match turn, process.stage with
  | .takesLock, .connected =>
      if process.session then
        if lockIsFree then some (process.at .locked, database)
        else some (process.exit (some .locked), database)
      else none
  | .looks, .locked =>
      if process.session then
        if admits process.invocation.kind (registerIsEmpty database.register) then
          some (process.at .admitted, database)
        else some (process.exit (some .refused), database)
      else none
  | .starts run heard, .admitted =>
      if process.session then
        match (startRun run process.invocation.kind process.invocation.dryRun
          process.invocation.moment).run database with
        | .error _ => none
        | .ok (_, after) =>
            if heard then some ({ process.at .running with run := some run }, after)
            else some (process.exit (some .failed), after)
      else none
  | .fetches fetched, .running =>
      if process.session then some (process.fetch database fetched, database) else none
  | .snapshots, .fetched fetched =>
      if process.session then some (process.at (.planning fetched database.register), database)
      else none
  | .concludes ids finishedAt heard, .planning fetched base =>
      if process.session then
        process.run.map fun run =>
          match conclusion process.invocation fetched base run ids finishedAt database with
          | .exits exit after =>
              if heard then (process.exit (some exit), after)
              else (process.at (.reporting (.database false)), after)
          | .fails error => (process.at (.reporting error), database)
          | .panics => (process.exit none, database)
      else none
  | .errs error, _ => (process.err error).map fun process => (process, database)
  | .reports finishedAt lands, .reporting error =>
      process.run.map fun run =>
        (process.exit (some .failed),
          if lands then (recordFailed run error.code finishedAt).leaves database else database)
  | .drops, _ => some ({ process with session := false }, database)
  | .dies, _ => some (process.exit none, database)
  | _, _ => none

-----------------------------------------------------------------------------------------
-- Any number of processes

abbrev RunsSystem (ρ Id : Type) : Type := Sessions ρ (RunsDatabase Id) (Option (Process Id))

/-- A command starts, a process has its turn, or something changes around the register. -/
inductive RunsEvent (ρ Id : Type)
  | invokes (p : ρ) (invocation : Invocation)
  | turn (p : ρ) (turn : Turn Id)
  | elsewhere (tenants : List (TenantRow Id)) (fauLinks : List (FauLinkRow Id))
      (reviews : List (ReviewRow Id))

def holdsLock (process : Option (Process Id)) : Bool := process.any Process.holds

/-- The register after a change around it. -/
def around (register : RegisterTables Id) (tenants : List (TenantRow Id))
    (fauLinks : List (FauLinkRow Id)) (reviews : List (ReviewRow Id))
    : RegisterTables Id :=
  { register with tenants := tenants, fauLinks := fauLinks, reviews := reviews }

variable {ρ : Type} [DecidableEq ρ]

def next (s : RunsSystem ρ Id) : RunsEvent ρ Id → Option (RunsSystem ρ Id)
  | .invokes p invocation =>
      if (s.process p).isNone then
        some (s.turn holdsLock p (some ⟨invocation, .connected, true, none⟩) s.shared)
      else none
  | .turn p turn => do
      let process ← s.process p
      let (process, database) ← process.turn s.shared s.lock.isNone turn
      return s.turn holdsLock p (some process) database
  | .elsewhere tenants fauLinks reviews =>
      let register := around s.shared.register tenants fauLinks reviews
      if register.Constraints then
        some { s with shared := { s.shared with register := register } }
      else none

def emptyDatabase : RunsDatabase Id := ⟨.empty, [], [], [], []⟩

/-- Every interleaving of commands from the empty database. -/
def syncRuns (ρ Id : Type) [DecidableEq ρ] [LinearOrder Id]
    : EventSystem (RunsSystem ρ Id) (RunsEvent ρ Id) where
  start s := s = ⟨emptyDatabase, none, fun _ => none⟩
  step s event after := next s event = some after

end

end

end FauPortalen.Register.Runs

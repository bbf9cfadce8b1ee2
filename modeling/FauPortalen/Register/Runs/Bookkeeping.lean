import FauPortalen.Foundations.Framing
import FauPortalen.Register.Fetch.Fetched
import FauPortalen.Register.Store.Applier

/-! The bookkeeping of sync runs: their rows, the staged payloads, the audit entry of an applied run
and the operator's mail, each as the statements that write them.
-/

namespace FauPortalen.Register

open FauPortalen.Foundations Transaction

-----------------------------------------------------------------------------------------
-- Codes

def OutOfScopeReason.code : OutOfScopeReason → String
  | .notASchool => "not_a_school"
  | .inactive => "inactive"
  | .notPrimarySchool => "not_grunnskole"
  | .abroad => "abroad"
  | .adultEducation => "adult_education"
  | .upperSecondary => "upper_secondary"

def ScopeDecision.code : ScopeDecision → String
  | .inScope => "in_scope"
  | .outOfScope reason => reason.code

def ReviewKind.code : ReviewKind → String
  | .closureWithFau => "closure_with_fau"
  | .possibleReregistration => "possible_reregistration"
  | .possibleSubmissionMatch => "possible_submission_match"
  | .municipalitySplitOrMerge => "municipality_split_or_merge"
  | .massChange => "mass_change"
  | .unknownMunicipalityNumber => "unknown_municipality_number"
  | .fauSeveralAtSchool => "fau_several_at_school"
  | .fauSeveralSchools => "fau_several_schools"
  | .fauMatchConflict => "fau_match_conflict"
  | .submissionMatchesListedSchool => "submission_matches_listed_school"

namespace Runs

def kindCode : RunKind → String
  | .seed => "seed"
  | .sync => "sync"

-----------------------------------------------------------------------------------------
-- Rows

inductive RunCode
  | seed
  | sync
  | dryRun
deriving DecidableEq

def RunCode.ofRun (kind : RunKind) (dryRun : Bool) : RunCode :=
  if dryRun then .dryRun
  else
    match kind with
    | .seed => .seed
    | .sync => .sync

inductive RunOutcome
  | applied
  | noChange
  | aborted
  | failed
deriving DecidableEq

/-- A run that has no outcome is under way, or died. -/
structure SyncRunRow (Id : Type) where
  id : Id
  kind : RunCode
  startedAt : Timestamp
  finishedAt : Option Timestamp
  outcome : Option RunOutcome
  counts : List (String × Nat)
  abortReason : Option String
deriving DecidableEq

/-- A value of a JSON object of parameters. -/
inductive Param (Id : Type)
  | number (n : Nat)
  | text (text : String)
  | flag (flag : Bool)
  | id (id : Id)
  | counts (counts : List (String × Nat))
deriving DecidableEq

structure SyncAuditRow (Id : Type) where
  action : String
  subjectType : String
  subjectId : Id
  occurredAt : Timestamp
  params : List (String × Param Id)
deriving DecidableEq

structure SyncMailRow (Id : Type) where
  template : String
  recipient : String
  params : List (String × Param Id)
  createdAt : Timestamp
deriving DecidableEq

/-- The payload that NSR sent last for a number. -/
structure SourceRecordRow where
  externalId : String
  payload : List UInt8
  payloadSha256 : List Char
  sourceChangedAt : Option Timestamp
  fetchedAt : Timestamp
  inScope : Bool
  scopeReason : String
deriving DecidableEq

/-- The register with the tables of its runs. -/
structure RunsDatabase (Id : Type) where
  register : RegisterTables Id
  runs : List (SyncRunRow Id)
  sourceRecords : List SourceRecordRow
  audits : List (SyncAuditRow Id)
  mails : List (SyncMailRow Id)

abbrev RunsTx (Id : Type) : Type → Type := Transaction (RunsDatabase Id) RegisterError

-----------------------------------------------------------------------------------------
-- Texts

/-- Every count of the planner by its name. -/
def countsJson (c : Counts) : List (String × Nat) :=
  [
    ("municipalities_created", c.municipalitiesCreated),
    ("municipalities_updated", c.municipalitiesUpdated),
    ("renumbered", c.renumbered),
    ("renamed", c.renamed),
    ("schools_created", c.schoolsCreated),
    ("schools_renamed", c.schoolsRenamed),
    ("schools_updated", c.schoolsUpdated),
    ("attribute_losses", c.attributeLosses),
    ("schools_moved", c.schoolsMoved),
    ("schools_closed", c.schoolsClosed),
    ("schools_held", c.schoolsHeld),
    ("reviews", c.reviews),
    ("skipped", c.skipped)
  ]

/-- A code and its numbers, never a name. -/
def abortReasonText : AbortReason → String
  | .emptySource source => s!"empty_source:{source}"
  | .massChange closes renames losses active =>
      s!"mass_change:closes={closes},renames={renames},attribute_losses={losses},active={active}"

section

variable {Id : Type} [DecidableEq Id]

-----------------------------------------------------------------------------------------
-- The row of a run

/-- The unfinished row of a new run. -/
def startRun [OsloZone] (id : Id) (kind : RunKind) (dryRun : Bool) (moment : Moment)
    : RunsTx Id Unit := do
  let taken ← select fun s => s.runs.map (·.id)
  require (id ∉ taken) .database
  update fun s =>
    { s with
      runs := s.runs ++ [⟨id, .ofRun kind dryRun, moment.now, none, none, [], none⟩] }

/-- The row of the run while it is not finished. -/
def isUnfinished (run : Id) (row : SyncRunRow Id) : Bool := row.id = run && row.finishedAt.isNone

def finish (run : Id) (outcome : RunOutcome) (counts : List (String × Nat))
    (abortReason : Option String) (finishedAt : Timestamp)
    : RunsTx Id Unit := do
  let updated ← select fun s => s.runs.countP (isUnfinished run)
  update fun s =>
    { s with
      runs := s.runs.map fun row =>
        if isUnfinished run row then
          { row with
            finishedAt := some finishedAt
            outcome := some outcome
            counts := counts
            abortReason := abortReason }
        else row }
  require (updated = 1) .unknownRow

/-- Nothing to do. -/
def recordNoChange (run : Id) (finishedAt : Timestamp) : RunsTx Id Unit :=
  finish run .noChange (countsJson {}) none finishedAt

/-- A dry run changes nothing; its counts and its reason say what the real run would have done. -/
def recordDryRun (run : Id) (counts : Counts) (abort : Option AbortReason)
    (finishedAt : Timestamp)
    : RunsTx Id Unit :=
  finish run .noChange (countsJson counts) (abort.map abortReasonText) finishedAt

def recordFailed (run : Id) (reason : String) (finishedAt : Timestamp) : RunsTx Id Unit :=
  finish run .failed [] (some reason) finishedAt

-----------------------------------------------------------------------------------------
-- Mail and audit

def ewbOversightAddress : String := "fau@ewb-solutions.as"

def enqueue (template : String) (params : List (String × Param Id)) (createdAt : Timestamp)
    : RunsTx Id Unit :=
  update fun s =>
    { s with mails := s.mails ++ [⟨template, ewbOversightAddress, params, createdAt⟩] }

def abortParams : AbortReason → List (String × Param Id)
  | .emptySource source => [("reason", .text "empty_source"), ("source", .text source)]
  | .massChange closes renames losses active =>
      [("reason", .text "mass_change"), ("closes", .number closes), ("renames", .number renames),
        ("attribute_losses", .number losses), ("active", .number active)]

/-- The row of an aborted run, and its mail. -/
def recordAborted (run : Id) (kind : RunKind) (reason : AbortReason) (counts : Counts)
    (finishedAt : Timestamp)
    : RunsTx Id Unit := do
  finish run .aborted (countsJson counts) (some (abortReasonText reason)) finishedAt
  enqueue "register.sync_aborted"
    ([("run_id", .id run), ("kind", .text (kindCode kind))] ++ abortParams reason) finishedAt

def syncAppliedAction : String := "register.sync_applied"

/-- What an accepted mass change adds to the audit entry. -/
def acceptedParams : Option AbortReason → List (String × Param Id)
  | none => []
  | some reason =>
      [("mass_change_accepted", .flag true), ("mass_change", .text (abortReasonText reason))]

/-- What the row of an applied run counts. -/
def appliedCounts (applied : Applier.AppliedCounts Id) : List (String × Nat) :=
  countsJson applied.counts ++
    [("reviews_written", applied.newReviews.length),
      ("reviews_deduplicated", applied.deduplicatedReviews)]

def reviewMail (run : Id) (finishedAt : Timestamp) (review : ReviewRow Id) : RunsTx Id Unit :=
  enqueue "register.review_item" [("run_id", .id run), ("kind", .text review.kind.code)] finishedAt

/-- The row, the audit entry and the mail of an applied run: one summary for a seed, one mail for
each review item for a sync.
-/
def recordApplied (run : Id) (kind : RunKind) (applied : Applier.AppliedCounts Id)
    (acceptedMassChange : Option AbortReason) (finishedAt : Timestamp)
    : RunsTx Id Unit := do
  let counts := appliedCounts applied
  finish run .applied counts none finishedAt
  let params := (counts.map fun entry => (entry.1, .number entry.2))
    ++ [("kind", .text (kindCode kind))] ++ acceptedParams acceptedMassChange
  update fun s =>
    { s with
      audits := s.audits ++ [⟨syncAppliedAction, "register_sync_run", run, finishedAt, params⟩] }
  match kind with
  | .seed =>
      enqueue "register.seed_summary" [("run_id", .id run), ("counts", .counts counts)] finishedAt
  | .sync => applied.newReviews.forM (reviewMail run finishedAt)

/-- The day of the earliest applied seed. -/
def seedDate [OsloZone] (s : RunsDatabase Id) : Option Date :=
  (((s.runs.filter fun row => row.kind = .seed && row.outcome = some .applied).map
    (·.startedAt)).min?).map osloToday

-----------------------------------------------------------------------------------------
-- Staging

/-- SHA-256. -/
class PayloadHash where
  sha256 : List UInt8 → List UInt8

structure NsrPayload where
  orgnr : String
  body : List UInt8
  changedAt : Option Timestamp
  scope : ScopeDecision

def NsrPayload.new (unit : NsrUnit) (body : List UInt8) : NsrPayload :=
  ⟨unit.orgnr, body, unit.changedAt, classify unit.scopeFacts⟩

variable [PayloadHash]

def NsrPayload.row (payload : NsrPayload) (now : Timestamp) : SourceRecordRow :=
  {
    externalId := payload.orgnr
    payload := payload.body
    payloadSha256 := (PayloadHash.sha256 payload.body).flatMap byteHex
    sourceChangedAt := payload.changedAt
    fetchedAt := now
    inScope := payload.scope = .inScope
    scopeReason := payload.scope.code
  }

/-- The record in place of the one that the number had. -/
def upsert (row : SourceRecordRow) (table : List SourceRecordRow) : List SourceRecordRow :=
  if table.any (·.externalId = row.externalId) then
    table.map fun other => if other.externalId = row.externalId then row else other
  else table ++ [row]

def stagePayload (now : Timestamp) (payload : NsrPayload) : RunsTx Id Unit := do
  require (payload.body.toByteArray.IsValidUTF8) .payloadNotUtf8
  update fun s => { s with sourceRecords := upsert (payload.row now) s.sourceRecords }

/-- The school was in the source at this moment. -/
def SchoolRow.seenAt (orgnrs : List String) (now : Timestamp) (row : SchoolRow Id) : SchoolRow Id :=
  if row.orgnr.any (· ∈ orgnrs) then { row with lastSeenInSourceAt := some now } else row

/-- Every payload in place of the last one, and every school of theirs as seen now. -/
def stagePayloads [OsloZone] (payloads : List NsrPayload) (moment : Moment) : RunsTx Id Unit := do
  payloads.forM (stagePayload moment.now)
  let orgnrs := payloads.map (·.orgnr)
  update fun s =>
    { s with
      register := { s.register with
        schools := s.register.schools.map (SchoolRow.seenAt orgnrs moment.now) } }

end

end Runs

end FauPortalen.Register

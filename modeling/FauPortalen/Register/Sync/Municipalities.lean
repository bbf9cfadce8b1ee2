import FauPortalen.Foundations.Grouping
import FauPortalen.Foundations.Lookup
import FauPortalen.Register.Slug
import FauPortalen.Register.Sync.Types
import Mathlib.Data.Finset.Union
import Mathlib.Data.List.MinMax
import Mathlib.Data.String.Basic
import Mathlib.Data.Prod.Lex
import Mathlib.Order.WithBot

/-! Step 1 of a run: municipalities. SSB's code changes are grouped by old code and applied
in the order they happened, or block the numbers they name; then Kartverket's records are
compared with the municipality that holds each number.
-/

namespace FauPortalen.Register

open FauPortalen.Foundations

/-- Svalbard is in neither Kartverket nor SSB, but NSR files a school under it. -/
def svalbardNumber : String := "2100"

/-- What the school planner needs to know about municipalities after step 1. -/
structure MunicipalityState (Id : Type) where
  /-- Active municipalities by current number, after this plan's renumbers and creates. -/
  byNumber : Lookup String (Ref Id)
  /-- Every old and new code of an unexplained SSB group. -/
  blockedNumbers : Finset String
  /-- Existing municipalities that hold a blocked number. -/
  blockedIds : Finset Id

structure MunicipalityPlan (Id : Type) where
  ops : List (MunicipalityOp Id)
  reviews : List (ReviewItem Id)
  state : MunicipalityState Id

/-- An active municipality as this plan leaves it. -/
structure Working (Id : Type) where
  row : MunicipalitySnapshot Id
  number : String
  name : String
  slug : String

def Working.ofRow {Id : Type} (row : MunicipalitySnapshot Id) : Working Id :=
  ⟨row, row.number, row.name, row.slug⟩

def joinTexts (texts : List String) : String := ",".intercalate texts

-----------------------------------------------------------------------------------------
-- SSB groups

/-- The row changes neither a code nor a name. -/
def CodeChange.isIdle (change : CodeChange) : Bool :=
  change.oldCode = change.newCode && change.oldName = change.newName

/-- Kartverket lists the number. -/
def listsNumber (records : List MunicipalityRecord) (number : String) : Bool :=
  records.any fun r => r.number = number

/-- One group for each old code. An old code Kartverket still lists is a boundary
adjustment or a change of name, never a renumber.
-/
def changeGroups (records : List MunicipalityRecord) (changes : List CodeChange)
    : List (String × List CodeChange) :=
  groupBy CodeChange.oldCode
    (changes.filter fun c => !c.isIdle && !listsNumber records c.oldCode)

def targetCodes (changes : List CodeChange) : List String :=
  sortedKeys (changes.map CodeChange.newCode)

/-- The name that goes with each target: that of its last row. -/
def targetNames (changes : List CodeChange) : List String :=
  (groupBy CodeChange.newCode changes).map fun group =>
    ((group.2.getLast?).map CodeChange.newName).getD ""

/-- How many groups change something into the target. -/
def goneGroupsPerTarget (groups : List (String × List CodeChange)) (target : String) : Nat :=
  (groups.filter fun group => target ∈ targetCodes group.2).length

/-- A chain of renumbers applies in the order it happened: by the earliest date, then by
old code.
-/
def orderGroups (groups : List (String × List CodeChange))
    : List (String × List CodeChange) :=
  sortOn (fun group =>
    toLex ((group.2.map CodeChange.occurredOn).minimum, group.1)) groups

/-- What the group loop has built so far. -/
structure GroupState (Id : Type) where
  ops : List (MunicipalityOp Id)
  reviews : List (ReviewItem Id)
  byNumber : Lookup String (Ref Id)
  working : Lookup Id (Working Id)
  blockedNumbers : Finset String

inductive GroupDecision (Id : Type)
  | leave
  | renumber (id : Id) (target newSlug : String) (renamed : Option String)
  | block (reason : String)

/-- The existing municipality that holds the number. -/
def holderOf {Id : Type} (byNumber : Lookup String (Ref Id)) (number : String) : Option Id :=
  match byNumber number with
  | some (.existing id) => some id
  | _ => none

/-- The only target, when no other group changes something into it. -/
def oneToOne (gone : String → Nat) (targets : List String) : Option String :=
  match targets with
  | [target] => if gone target = 1 then some target else none
  | _ => none

section

variable {Id : Type} [LinearOrder Id] [UnicodeData] [OsloZone]

/-- What happens to one group. `none` is a panic: the holder is not a working row. -/
def decideGroup (gone : String → Nat) (records : Lookup String MunicipalityRecord)
    (state : GroupState Id) (old : String) (changes : List CodeChange)
    : Option (GroupDecision Id) :=
  let targets := targetCodes changes
  let holder := holderOf state.byNumber old
  -- already resolved: an applied renumber keeps appearing and must not block anything
  if holder.isNone && targets.all state.byNumber.contains then some .leave
  else
    match oneToOne gone targets, holder with
    | single, none =>
        if 0 < gone old then some (.block "unresolved_chain")
        else
          match single with
          | some _ => some .leave
          | none => some (.block (if targets.length > 1 then "split" else "merge"))
    | some target, some id => do
        let w ← state.working id
        if w.row.source = .manual then return .leave
        let name := ((records target).map MunicipalityRecord.norwegianName).getD w.name
        if target ∈ state.blockedNumbers ∨ old ∈ state.blockedNumbers then
          return .block "unresolved_chain"
        if state.byNumber.contains target then return .block "target_in_use"
        match municipalitySlug target name with
        | .ok newSlug =>
            return .renumber id target newSlug (if name ≠ w.name then some name else none)
        | .error _ => return .block "unsluggable"
    | none, some _ => some (.block (if targets.length > 1 then "split" else "merge"))

def splitOrMergeReview (holder : Option Id) (reason old : String)
    (changes : List CodeChange) (first : CodeChange) : ReviewItem Id :=
  let keys := if reason = "unresolved_chain" then ("new_code", "new_name")
    else ("new_codes", "new_names")
  {
    kind := .municipalitySplitOrMerge
    school := none
    otherSchool := none
    municipality := holder.map Ref.existing
    details := [
      ("reason", reason),
      ("old_code", old),
      ("old_name", first.oldName),
      (keys.1, joinTexts (targetCodes changes)),
      (keys.2, joinTexts (targetNames changes))]
  }

def performGroup (state : GroupState Id) (old : String) (changes : List CodeChange)
    : GroupDecision Id → Option (GroupState Id)
  | .leave => some state
  | .renumber id target newSlug renamed => do
      let first ← changes.head?
      let w ← state.working id
      return { state with
        ops := state.ops
          ++ [.renumber id old target first.occurredOn renamed w.slug newSlug]
        byNumber := (state.byNumber.erase old).insert target (.existing id)
        working := state.working.insert id
          ⟨w.row, target, renamed.getD w.name, newSlug⟩ }
  | .block reason => do
      let first ← changes.head?
      return { state with
        blockedNumbers := insert old (state.blockedNumbers ∪ (targetCodes changes).toFinset)
        reviews := state.reviews
          ++ [splitOrMergeReview (holderOf state.byNumber old) reason old changes first] }

/-- The body of the group loop. -/
def stepGroup (gone : String → Nat) (records : Lookup String MunicipalityRecord)
    (state : GroupState Id) (group : String × List CodeChange) : Option (GroupState Id) := do
  let decision ← decideGroup gone records state group.1 group.2
  performGroup state group.1 group.2 decision

def activeMunicipalities (snapshot : RegisterSnapshot Id) : List (MunicipalitySnapshot Id) :=
  snapshot.municipalities.filter (·.status = .active)

def initialGroupState (snapshot : RegisterSnapshot Id) : GroupState Id :=
  let active := activeMunicipalities snapshot
  {
    ops := []
    reviews := []
    byNumber := Lookup.ofPairs (active.map fun row => (row.number, Ref.existing row.id))
    working := Lookup.ofPairs (active.map fun row => (row.id, Working.ofRow row))
    blockedNumbers := ∅
  }

def recordsByNumber (records : List MunicipalityRecord) : Lookup String MunicipalityRecord :=
  Lookup.ofPairs (records.map fun r => (r.number, r))

/-- The group loop over SSB's code changes. -/
def planCodeChanges (snapshot : RegisterSnapshot Id) (records : List MunicipalityRecord)
    (changes : List CodeChange) : Option (GroupState Id) :=
  let groups := changeGroups records changes
  (orderGroups groups).foldlM
    (stepGroup (goneGroupsPerTarget groups) (recordsByNumber records))
    (initialGroupState snapshot)

-----------------------------------------------------------------------------------------
-- Kartverket's records

def recordReview (r : MunicipalityRecord) (reason : String) (id : Option Id)
    : ReviewItem Id :=
  {
    kind := .municipalitySplitOrMerge
    school := none
    otherSchool := none
    municipality := id.map Ref.existing
    details := [("reason", reason), ("number", r.number), ("name", r.norwegianName)]
  }

/-- Names compare as a set: the store returns them in no particular order. -/
def sortedNames (names : List OfficialName) : List OfficialName :=
  sortOn (fun n => toLex (n.priority, toLex (n.language, n.name))) names

def detailsDiffer (row : MunicipalitySnapshot Id) (r : MunicipalityRecord) : Bool :=
  row.officialName ≠ some r.officialName
    || row.countyNumber ≠ r.countyNumber
    || row.countyName ≠ r.countyName
    || sortedNames row.names ≠ sortedNames r.names

/-- What the record loop has built so far. -/
structure RecordState (Id : Type) where
  ops : List (MunicipalityOp Id)
  reviews : List (ReviewItem Id)
  byNumber : Lookup String (Ref Id)
  nextNew : Nat

/-- A record against the existing municipality that holds its number. -/
def compareRecord (w : Working Id) (id : Id) (r : MunicipalityRecord)
    : List (MunicipalityOp Id) × List (ReviewItem Id) :=
  if w.row.source = .manual then ([], [])
  else
    let (rename, review) :=
      if r.norwegianName ≠ w.name then
        match municipalitySlug r.number r.norwegianName with
        | .ok newSlug => ([.rename id r.norwegianName w.slug newSlug], [])
        | .error _ => ([], [recordReview r "unsluggable" (some id)])
      else ([], [])
    let details :=
      if detailsDiffer w.row r then
        [.updateDetails id (some r.officialName) r.countyNumber r.countyName r.names]
      else []
    (rename ++ details, review)

/-- The body of the record loop. `none` is a panic: the holder is not a working row. -/
def stepRecord (kind : RunKind) (working : Lookup Id (Working Id))
    (blocked : Finset String) (state : RecordState Id) (r : MunicipalityRecord)
    : Option (RecordState Id) :=
  if r.number ∈ blocked then some state
  else
    match state.byNumber r.number with
    | some (.existing id) => do
        let w ← working id
        let (ops, reviews) := compareRecord w id r
        return { state with ops := state.ops ++ ops, reviews := state.reviews ++ reviews }
    -- Kartverket listed the number twice; the first record created it
    | some (.new _) => some state
    | none =>
        match kind, municipalitySlug r.number r.norwegianName with
        | .seed, .ok slug =>
            some {
              ops := state.ops
                ++ [.create state.nextNew r.number r.norwegianName (some r.officialName)
                  r.countyNumber r.countyName slug r.names .kartverket]
              reviews := state.reviews
              byNumber := state.byNumber.insert r.number (.new state.nextNew)
              nextNew := state.nextNew + 1
            }
        | .seed, .error _ =>
            some { state with reviews := state.reviews ++ [recordReview r "unsluggable" none] }
        | .sync, _ =>
            some { state with
              reviews := state.reviews ++ [recordReview r "unknown_number" none] }

/-- Never dissolved automatically: an operator decides. -/
def absentReview (w : Working Id) : ReviewItem Id :=
  {
    kind := .municipalitySplitOrMerge
    school := none
    otherSchool := none
    municipality := some (.existing w.row.id)
    details := [("reason", "absent_from_kartverket"), ("number", w.number), ("name", w.name)]
  }

/-- The working rows in the order of their ids. -/
def workingRows (snapshot : RegisterSnapshot Id) (working : Lookup Id (Working Id))
    : List (Working Id) :=
  (sortedKeys ((activeMunicipalities snapshot).map (·.id))).filterMap working

def isAbsent (records : List MunicipalityRecord) (blocked : Finset String) (w : Working Id)
    : Bool :=
  w.row.source = .kartverket && !listsNumber records w.number && w.number ∉ blocked

def createSvalbard (new : Nat) : MunicipalityOp Id :=
  .create new svalbardNumber "Svalbard" none "21" "Svalbard" "2100-svalbard"
    [⟨"Svalbard", "no", 1⟩] .manual

def svalbardNeeded (units : List NsrUnit) : Bool :=
  units.any fun u => u.municipalityNumber = svalbardNumber && u.classified

/-- The record loop over Kartverket's municipalities, sorted by number. -/
def planRecords (inputs : SyncInputs) (groups : GroupState Id) : Option (RecordState Id) :=
  (sortOn MunicipalityRecord.number inputs.municipalities).foldlM
    (stepRecord inputs.kind groups.working groups.blockedNumbers)
    ⟨groups.ops, groups.reviews, groups.byNumber, 0⟩

def planMunicipalities (snapshot : RegisterSnapshot Id) (inputs : SyncInputs)
    : Option (MunicipalityPlan Id) := do
  let groups ← planCodeChanges snapshot inputs.municipalities inputs.codeChanges
  let blocked := groups.blockedNumbers
  let records ← planRecords inputs groups
  let rows := workingRows snapshot groups.working
  let absent := (rows.filter (isAbsent inputs.municipalities blocked)).map absentReview
  let (svalbard, byNumber) :=
    if svalbardNeeded inputs.units && !records.byNumber.contains svalbardNumber
        && svalbardNumber ∉ blocked then
      ([createSvalbard records.nextNew],
        records.byNumber.insert svalbardNumber (.new records.nextNew))
    else ([], records.byNumber)
  return {
    ops := records.ops ++ svalbard
    reviews := records.reviews ++ absent
    state := {
      byNumber := byNumber
      blockedNumbers := blocked
      blockedIds := ((rows.filter (·.number ∈ blocked)).map (·.row.id)).toFinset
    }
  }

end

end FauPortalen.Register

import FauPortalen.Foundations.Lookup
import FauPortalen.Register.Similarity
import FauPortalen.Register.Sync.Types
import Mathlib.Data.Finset.Insert
import Mathlib.Data.Prod.Lex
import Mathlib.Data.String.Basic
import Mathlib.Order.OrderDual

/-! Assigning every new unit a re-registration, a submission match or a plain listing, all
at once: every sufficiently similar pair of a candidate and a closing school of its
municipality competes globally, best first.
-/

namespace FauPortalen.Register

open FauPortalen.Foundations

/-- A school without an FAU that this run closes. -/
structure Closing (Id : Type) where
  school : SchoolSnapshot Id
  reason : ClosureReason
  closedOn : Date
  reregistrable : Bool
  successor : Option (Ref Id)

/-- A school with an FAU whose unit closed or left scope: reviewed, never closed. -/
structure FauClosing (Id : Type) where
  school : SchoolSnapshot Id
  reregistrable : Bool
  reason : ClosureReason
  closedOn : Date
  /-- A new unit in this run is its possible re-registration. -/
  reregistered : Bool

/-- An active, in-scope unit with no school, in a resolved municipality. Every candidate is
created, so its index is its number as a new row.
-/
structure Candidate (Id : Type) where
  unit : NsrUnit
  municipality : Ref Id

/-- How a candidate is created. -/
inductive Placement
  /-- Takes over a closing school's slug, if that school had one. -/
  | successor (slug : Option String)
  | heldReregistration
  | heldSubmission
  | listed
deriving DecidableEq

/-- Which predecessor a match refers to, by its position. -/
inductive PredKind
  | closing (index : Nat)
  | fau (index : Nat)
deriving DecidableEq

def PredKind.isFau : PredKind → Bool
  | .closing _ => false
  | .fau _ => true

/-- A candidate and a predecessor at or above the threshold. -/
structure Match (Id : Type) where
  candidate : Nat
  unit : NsrUnit
  municipality : Ref Id
  pred : PredKind
  school : SchoolSnapshot Id
  similarity : Binary32.Units

section

variable {Id : Type} [LinearOrder Id] [UnicodeData]

/-- The better of the display name and the register name, so that a curated display name
does not hide the school from its own NSR name.
-/
def nameSimilarity (school : SchoolSnapshot Id) (name : String) : Binary32.Units :=
  let display := similarity school.displayName name
  match school.registerName with
  | some register => max display (similarity register name)
  | none => display

/-- The predecessor, when it may have re-registered as the candidate. -/
def matchOf? (candidate : Candidate Id × Nat) (school : SchoolSnapshot Id)
    (reregistrable : Bool) (pred : PredKind) : Option (Match Id) :=
  if reregistrable && Ref.existing school.municipalityId = candidate.1.municipality then
    let sim := nameSimilarity school candidate.1.unit.name
    if reregistrationThreshold ≤ sim then
      some ⟨candidate.2, candidate.1.unit, candidate.1.municipality, pred, school, sim⟩
    else none
  else none

def matchesOf (closings : List (Closing Id)) (fauClosings : List (FauClosing Id))
    (candidate : Candidate Id × Nat) : List (Match Id) :=
  closings.zipIdx.filterMap (fun c =>
    matchOf? candidate c.1.school c.1.reregistrable (.closing c.2))
  ++ fauClosings.zipIdx.filterMap (fun f =>
    matchOf? candidate f.1.school f.1.reregistrable (.fau f.2))

/-- Similarity descending, then the candidate's orgnr, then an FAU predecessor first, then
the predecessor's own orgnr and id.
-/
def Match.rank (m : Match Id)
    : Lex (Binary32.Unitsᵒᵈ × Lex (String × Lex (Bool × Lex (String × Id)))) :=
  toLex (OrderDual.toDual m.similarity, toLex (m.unit.orgnr, toLex (!m.pred.isFau,
    toLex (m.school.orgnr.getD "", m.school.id))))

def rankedMatches (candidates : List (Candidate Id)) (closings : List (Closing Id))
    (fauClosings : List (FauClosing Id)) : List (Match Id) :=
  sortOn Match.rank (candidates.zipIdx.flatMap (matchesOf closings fauClosings))

/-- What the assignment has built so far. -/
structure Assignment (Id : Type) where
  placement : Lookup Nat Placement
  closings : List (Closing Id)
  fauClosings : List (FauClosing Id)
  reviews : List (ReviewItem Id)
  claimed : Finset Nat

def reregistrationReview (m : Match Id) : ReviewItem Id :=
  {
    kind := .possibleReregistration
    school := some (.existing m.school.id)
    otherSchool := some (.new m.candidate)
    municipality := some m.municipality
    details := [
      ("old_orgnr", m.school.orgnr.getD ""),
      ("new_orgnr", m.unit.orgnr),
      ("old_name", m.school.displayName),
      ("new_name", m.unit.name),
      ("similarity", Binary32.toFixed2 m.similarity)]
  }

/-- The body of the assignment loop: a closing predecessor is used up by its best match; an
FAU predecessor never is.
-/
def assignMatch (state : Assignment Id) (m : Match Id) : Assignment Id :=
  if state.placement.contains m.candidate then state
  else
    match m.pred with
    | .closing j =>
        if j ∈ state.claimed then state
        else { state with
          claimed := insert j state.claimed
          closings := state.closings.modify j fun c =>
            { c with successor := some (.new m.candidate), reason := .merged }
          placement := state.placement.insert m.candidate (.successor m.school.slug) }
    | .fau k =>
        { state with
          fauClosings := state.fauClosings.modify k fun f => { f with reregistered := true }
          reviews := state.reviews ++ [reregistrationReview m]
          placement := state.placement.insert m.candidate .heldReregistration }

/-- The most similar school at or above the threshold; the lowest id on a tie. -/
def best (schools : List (SchoolSnapshot Id)) (score : SchoolSnapshot Id → Binary32.Units)
    (threshold : Binary32.Units) : Option (SchoolSnapshot Id × Binary32.Units) :=
  schools.foldl (fun found school =>
    let s := score school
    let better := match found with
      | none => true
      | some (leader, top) => s > top || (s = top && school.id < leader.id)
    if s ≥ threshold && better then some (school, s) else found) none

/-- A submission without an organisation number may be the candidate's school. -/
def isSubmissionFor (candidate : Candidate Id) (school : SchoolSnapshot Id) : Bool :=
  school.origin = .submitted
    && school.orgnr.isNone
    && school.status = .active
    && (school.verification = .pending || school.verification = .verified)
    && Ref.existing school.municipalityId = candidate.municipality

def submissionReview (candidate : Candidate Id) (index : Nat) (school : SchoolSnapshot Id)
    (sim : Binary32.Units) : ReviewItem Id :=
  {
    kind := .possibleSubmissionMatch
    school := some (.existing school.id)
    otherSchool := some (.new index)
    municipality := some candidate.municipality
    details := [
      ("orgnr", candidate.unit.orgnr),
      ("register_name", candidate.unit.name),
      ("submitted_name", school.displayName),
      ("similarity", Binary32.toFixed2 sim)]
  }

/-- The placement of one candidate, and the review item its submission match raises. -/
def placeRemaining (schools : List (SchoolSnapshot Id)) (assigned : Lookup Nat Placement)
    (candidate : Candidate Id × Nat) : Placement × List (ReviewItem Id) :=
  match assigned candidate.2 with
  | some placement => (placement, [])
  | none =>
      match best (schools.filter (isSubmissionFor candidate.1))
          (fun s => nameSimilarity s candidate.1.unit.name) submissionMatchThreshold with
      | some (school, sim) =>
          (.heldSubmission, [submissionReview candidate.1 candidate.2 school sim])
      | none => (.listed, [])

/-- Every candidate's placement, the predecessors as the assignment leaves them, and the
review items.
-/
structure Placed (Id : Type) where
  placements : List Placement
  closings : List (Closing Id)
  fauClosings : List (FauClosing Id)
  reviews : List (ReviewItem Id)

def placeAll (candidates : List (Candidate Id)) (snapshot : RegisterSnapshot Id)
    (closings : List (Closing Id)) (fauClosings : List (FauClosing Id)) : Placed Id :=
  let assigned := (rankedMatches candidates closings fauClosings).foldl assignMatch
    ⟨Lookup.empty, closings, fauClosings, [], ∅⟩
  let remaining := candidates.zipIdx.map (placeRemaining snapshot.schools assigned.placement)
  {
    placements := remaining.map Prod.fst
    closings := assigned.closings
    fauClosings := assigned.fauClosings
    reviews := assigned.reviews ++ remaining.flatMap Prod.snd
  }

end

end FauPortalen.Register

import FauPortalen.Register.Fetch.DetailPass
import FauPortalen.Register.Fetch.NsrList
import FauPortalen.Register.Fetch.Sources
import FauPortalen.Register.Sync.PlanTargets

/-! Everything one run fetches, and what the planner may rely on in it: no unit that the run needs
is missing, and a school whose number has left NSR's list is not touched.
-/

set_option linter.unusedSectionVars false

namespace FauPortalen.Register

open Foundations

variable {Id : Type}

-----------------------------------------------------------------------------------------
-- What a run needs

structure Fetched where
  municipalities : List MunicipalityRecord
  codeChanges : List CodeChange
  /-- Each unit with the bytes it was read from, by organisation number. -/
  units : List Detail
  /-- How many of the register's numbers are not in NSR's list any more. -/
  absentFromList : Nat

/-- The numbers of the schools the register holds open. -/
def openOrgnrs (snapshot : RegisterSnapshot Id) : List String :=
  snapshot.schools.filterMap fun s => if s.status = .closed then none else s.orgnr

def listedOrgnrs (list : List NsrListItem) : List String := list.map NsrListItem.orgnr

/-- Every active primary school in the list, and every open school's number that is in it. -/
def wantedOrgnrs (list : List NsrListItem) (snapshot : RegisterSnapshot Id) : List String :=
  sortedKeys
    (((list.filter fun u => u.isActive && u.isPrimarySchool).map NsrListItem.orgnr)
      ++ (openOrgnrs snapshot).filter (· ∈ listedOrgnrs list))

def absentFromList (list : List NsrListItem) (snapshot : RegisterSnapshot Id) : Nat :=
  ((openOrgnrs snapshot).filter (· ∉ listedOrgnrs list)).length

section

variable [NsrDecoding] [SourceDecoding]

/-- What the client may answer when it is asked for a unit. -/
def SourceClient.Answers (client : SourceClient) (orgnr : String)
    (outcome : Except SourceError Detail)
    : Prop :=
  ∃ sent, (client.nsrUnitWithPayload orgnr sent).1 = outcome

/-- What is read of SSB: nothing for a seed, and for a sync the changes from the seed's date on. -/
def fetchChanges (client : SourceClient) (kind : RunKind) (ssbFrom : Option Date) (today : Date)
    (sent : Nat)
    : Except SourceError (List CodeChange) × Nat :=
  match kind, ssbFrom with
  | .sync, some first => client.codeChanges first today sent
  | _, _ => (.ok [], sent)

/-- How a fetch may end: with the first error of Kartverket, SSB and NSR's list in this order, or
as the detail pass over the wanted numbers ends.
-/
inductive FetchEnds (client : SourceClient) (snapshot : RegisterSnapshot Id) (kind : RunKind)
    (ssbFrom : Option Date) (today : Date)
    : Except FetchError Fetched → Prop
  | municipalities {e : SourceError} {sent : Nat}
      (failed : client.municipalities 0 = (.error e, sent))
    : FetchEnds client snapshot kind ssbFrom today (.error (.source e))
  | codeChanges {records : List MunicipalityRecord} {e : SourceError} {sent sent' : Nat}
      (read : client.municipalities 0 = (.ok records, sent))
      (failed : fetchChanges client kind ssbFrom today sent = (.error e, sent'))
    : FetchEnds client snapshot kind ssbFrom today (.error (.source e))
  | list {records : List MunicipalityRecord} {changes : List CodeChange} {e : SourceError}
      {sent sent' after : Nat}
      (read : client.municipalities 0 = (.ok records, sent))
      (changed : fetchChanges client kind ssbFrom today sent = (.ok changes, sent'))
      (failed : client.nsrAllUnits sent' = (.error e, after))
    : FetchEnds client snapshot kind ssbFrom today (.error (.source e))
  | details {records : List MunicipalityRecord} {changes : List CodeChange}
      {list : List NsrListItem} {sent sent' after : Nat} {events : List DetailEvent}
      {pool : DetailPool} {outcome : Except FetchError (List Detail)}
      (read : client.municipalities 0 = (.ok records, sent))
      (changed : fetchChanges client kind ssbFrom today sent = (.ok changes, sent'))
      (listed : client.nsrAllUnits sent' = (.ok list, after))
      (run : (detailPass client.Answers (wantedOrgnrs list snapshot)).Run
        (.spawned (wantedOrgnrs list snapshot)) events pool)
      (ended : pool.result = some outcome)
    : FetchEnds client snapshot kind ssbFrom today
        (outcome.map fun units => ⟨records, changes, units, absentFromList list snapshot⟩)

-----------------------------------------------------------------------------------------
-- What the planner may rely on

section

variable {client : SourceClient} {held : RegisterSnapshot Id} {kind : RunKind}
  {ssbFrom : Option Date} {today : Date} {fetched : Fetched}

omit [NsrDecoding] [SourceDecoding] in
theorem mem_openOrgnrs {orgnr : String}
    : orgnr ∈ openOrgnrs held
      ↔ ∃ s ∈ held.schools, s.status = .active ∧ s.orgnr = some orgnr := by
  rw [openOrgnrs, List.mem_filterMap]
  refine exists_congr fun s => and_congr_right fun _ => ?_
  cases status : s.status <;> simp

omit [NsrDecoding] [SourceDecoding] in
theorem mem_wantedOrgnrs {list : List NsrListItem} {orgnr : String}
    : orgnr ∈ wantedOrgnrs list held
      ↔ (∃ u ∈ list, u.isActive = true ∧ u.isPrimarySchool = true ∧ u.orgnr = orgnr)
        ∨ (orgnr ∈ openOrgnrs held ∧ orgnr ∈ listedOrgnrs list) := by
  simp [wantedOrgnrs, and_assoc]

/-- The fetched units are those of the wanted numbers, one of each and in their order, when NSR
answers a number with its own unit.
-/
theorem fetched_orgnrs
    (own : ∀ orgnr detail, client.Answers orgnr (.ok detail) → detail.1.orgnr = orgnr)
    {list : List NsrListItem} {events : List DetailEvent} {pool : DetailPool}
    {units : List Detail}
    (run : (detailPass client.Answers (wantedOrgnrs list held)).Run
      (.spawned (wantedOrgnrs list held)) events pool)
    (ended : pool.result = some (.ok units))
    : units.map (·.1.orgnr) = wantedOrgnrs list held := by
  obtain ⟨-, -, answers, all, answered, perm, sorted⟩ := passOutcome_of_run run ended
  have orgnrs : answers.map (·.2.1.orgnr) = answers.map Prod.fst :=
    List.map_congr_left fun answer member => own _ _ (answered answer member)
  have same : (units.map (·.1.orgnr)).Perm (wantedOrgnrs list held) := by
    have mapped := perm.map fun detail => detail.1.orgnr
    rw [List.map_map] at mapped
    exact mapped.trans (orgnrs ▸ all)
  exact same.eq_of_pairwise' (List.pairwise_map.mpr sorted)
    ((pairwise_sortedKeys _).imp fun h => le_of_lt h)

/-- What a whole fetch brings: a unit for each wanted number, in their order, and so for every
school that was held open a unit exactly when its number is in the list. The others are counted.
-/
structure CoversList (held : RegisterSnapshot Id) (list : List NsrListItem) (fetched : Fetched)
    : Prop where
  orgnrs : fetched.units.map (·.1.orgnr) = wantedOrgnrs list held
  schools : ∀ s ∈ held.schools, s.status = .active → ∀ orgnr, s.orgnr = some orgnr →
    ((unitOf? (fetched.units.map Prod.fst) s).isSome ↔ orgnr ∈ listedOrgnrs list)
  absent : fetched.absentFromList
    = (held.schools.filter fun s => s.status = .active ∧ s.orgnr.isSome
      ∧ unitOf? (fetched.units.map Prod.fst) s = none).length

omit [NsrDecoding] [SourceDecoding] in
theorem isSome_unitOf? {units : List NsrUnit} {s : SchoolSnapshot Id} {orgnr : String}
    (numbered : s.orgnr = some orgnr)
    : (unitOf? units s).isSome ↔ orgnr ∈ units.map NsrUnit.orgnr := by
  simp [unitOf?, numbered]

omit [NsrDecoding] [SourceDecoding] in
/-- The counts follow from the numbers. -/
theorem coversList_of_orgnrs {list : List NsrListItem} {units : List Detail}
    {records : List MunicipalityRecord} {changes : List CodeChange}
    (orgnrs : units.map (·.1.orgnr) = wantedOrgnrs list held)
    : CoversList held list ⟨records, changes, units, absentFromList list held⟩ := by
  have numbers : (units.map Prod.fst).map NsrUnit.orgnr = wantedOrgnrs list held := by
    rw [← orgnrs, List.map_map]
    rfl
  have schools (s : SchoolSnapshot Id) (member : s ∈ held.schools) (active : s.status = .active)
      (orgnr : String) (numbered : s.orgnr = some orgnr)
      : (unitOf? (units.map Prod.fst) s).isSome ↔ orgnr ∈ listedOrgnrs list := by
    rw [isSome_unitOf? numbered, numbers, mem_wantedOrgnrs]
    constructor
    · rintro (⟨u, listed, -, -, rfl⟩ | ⟨-, listed⟩)
      · exact List.mem_map_of_mem listed
      · exact listed
    · exact fun listed => .inr ⟨mem_openOrgnrs.mpr ⟨s, member, active, numbered⟩, listed⟩
  refine ⟨orgnrs, schools, ?_⟩
  change ((openOrgnrs held).filter (· ∉ listedOrgnrs list)).length = _
  rw [← List.countP_eq_length_filter, ← List.countP_eq_length_filter, openOrgnrs,
    List.countP_filterMap]
  refine List.countP_congr fun s member => ?_
  cases status : s.status with
  | closed => simp
  | active =>
      cases numbered : s.orgnr with
      | none => simp
      | some orgnr =>
          have found := schools s member status orgnr numbered
          simp [← found]

/-- A fetch that succeeds has read NSR's whole list and every unit that is wanted. -/
theorem covers_of_fetch
    (own : ∀ orgnr detail, client.Answers orgnr (.ok detail) → detail.1.orgnr = orgnr)
    (fetch : FetchEnds client held kind ssbFrom today (.ok fetched))
    : ∃ pages list sent after, AnswersPages client 1 sent pages after ∧ WholeList pages list
      ∧ CoversList held list fetched := by
  generalize ended : (Except.ok fetched : Except FetchError Fetched) = result at fetch
  cases fetch with
  | municipalities | codeChanges | list => cases ended
  | @details records changes list sent sent' after events pool outcome _ _ listed run result =>
      cases outcome with
      | error e => cases ended
      | ok units =>
          obtain rfl := Except.ok.inj ended
          rw [SourceClient.nsrAllUnits, SourceClient.readPages_eq_ok] at listed
          obtain ⟨pages, answers, whole⟩ := readsList_empty_iff.mp listed
          exact ⟨pages, list, sent', after, answers, whole,
            coversList_of_orgnrs (fetched_orgnrs own run result)⟩

end

section

variable [LinearOrder Id] [OsloZone] [UnicodeData] {snapshot : RegisterSnapshot Id}
  {inputs : SyncInputs} {breaker : Breaker} {p : SyncPlan Id}

omit [NsrDecoding] [SourceDecoding] in
/-- A plan does not touch a school without a unit. -/
theorem plan_untouched (store : StoreConstraints snapshot)
    (planned : planWith snapshot inputs breaker = some (.apply p)) {school : SchoolSnapshot Id}
    (member : school ∈ snapshot.schools) (unseen : unitOf? inputs.units school = none)
    : ∀ op ∈ p.schoolOps, op.names school.id = false := by
  obtain ⟨_, steps, stepped, rfl⟩ := planWith_apply planned
  obtain ⟨-, distinct, draft, makes⟩ := planSteps_draft store stepped
  have alone : steps.2.ops.filter (·.target? = some school.id) = [] := by
    refine makes.filter_other store.rowKeys distinct fun u hu s acts same => ?_
    obtain ⟨inside, orgnr, -⟩ := fate_school? acts
    obtain rfl := List.inj_on_of_nodup_map store.schoolIds inside member same
    have found : unitOf? (normaliseUnits inputs.units) s = none :=
      (unitOf?_normaliseUnits inputs.units s).trans unseen
    rw [unitOf?, orgnr, Option.bind_some, List.find?_eq_none] at found
    exact absurd (by simp) (found u hu)
  intro op present
  rw [makes.names_iff_target store present school.id]
  simpa using List.filter_eq_nil_iff.mp alone op present

omit [NsrDecoding] [SourceDecoding] in
/-- The planner takes the units of a whole fetch as they are. -/
theorem CoversList.normalised {held : RegisterSnapshot Id} {list : List NsrListItem}
    {fetched : Fetched} (covers : CoversList held list fetched)
    : normaliseUnits (fetched.units.map Prod.fst) = fetched.units.map Prod.fst := by
  refine dropRepeats_sortOn_eq_self (List.pairwise_map.mpr ?_)
  have ascending := pairwise_sortedKeys
    (((list.filter fun u => u.isActive && u.isPrimarySchool).map NsrListItem.orgnr)
      ++ (openOrgnrs held).filter (· ∈ listedOrgnrs list))
  rw [← wantedOrgnrs, ← covers.orgnrs] at ascending
  exact List.pairwise_map.mp ascending

/-- A fetch that succeeds has read NSR's whole list and a unit for every number that is wanted, and
no plan made from it touches a school whose number it did not want, however the register has
changed since.
-/
theorem fetch_covers {client : SourceClient} {held : RegisterSnapshot Id} {kind : RunKind}
    {ssbFrom : Option Date} {today : Date} {fetched : Fetched}
    (own : ∀ orgnr detail, client.Answers orgnr (.ok detail) → detail.1.orgnr = orgnr)
    (fetch : FetchEnds client held kind ssbFrom today (.ok fetched))
    : ∃ pages list sent after, AnswersPages client 1 sent pages after ∧ WholeList pages list
      ∧ CoversList held list fetched
      ∧ normaliseUnits (fetched.units.map Prod.fst) = fetched.units.map Prod.fst
      ∧ ∀ (snapshot : RegisterSnapshot Id) (inputs : SyncInputs) (breaker : Breaker)
        (p : SyncPlan Id), StoreConstraints snapshot →
        inputs.units = fetched.units.map Prod.fst →
        planWith snapshot inputs breaker = some (.apply p) →
        ∀ s ∈ snapshot.schools, (∀ orgnr, s.orgnr = some orgnr → orgnr ∉ wantedOrgnrs list held) →
          ∀ op ∈ p.schoolOps, op.names s.id = false := by
  obtain ⟨pages, list, sent, after, answers, whole, covers⟩ := covers_of_fetch own fetch
  refine ⟨pages, list, sent, after, answers, whole, covers, covers.normalised, ?_⟩
  intro snapshot inputs breaker p store units planned s member unwanted
  refine plan_untouched store planned member ?_
  rw [units]
  cases numbered : s.orgnr with
  | none => simp [unitOf?, numbered]
  | some orgnr =>
      rw [← Option.not_isSome_iff_eq_none, isSome_unitOf? numbered, List.map_map]
      exact covers.orgnrs ▸ unwanted orgnr numbered

end

end

-----------------------------------------------------------------------------------------
-- A school that has left the list

section

/-- The sample register's municipality, and NSR with one page of one school. -/
@[reducible]
def sampleNsr : NsrDecoding where
  pagedList _ := .ok ⟨1, 1, 1, [⟨"975288001", "Berg skole", "0301", true, true, true, none⟩]⟩
  unit _ := .ok {
    organisasjonsnummer := "975288001"
    navn := "Berg skole"
    kommune := "0301"
    erAktiv := true
    erSkole := true
    erGrunnskole := true
    erPrivatskole := false
    skolekategorier := []
    naeringskoder := [(1, "85.201")]
    skoletrinnGsFra := none
    skoletrinnGsTil := none
    maalform := none
    internettadresse := none
    beliggenhetsadresse := none
    postadresse := none
    utgaattype := none
    utgaattDato := none
    datoEndret := none
  }
  parseTimestamp _ := none

@[reducible]
def sampleSources : SourceDecoding where
  counties _ := .ok [⟨"03", "Oslo", [⟨"0301", "Oslo", "Oslo", []⟩]⟩]
  changes _ := .ok []
  parseDate _ := none

/-- The school's own address is answered, and no other school's. -/
def sampleClient : SourceClient where
  network _ request :=
    if request.source = .nsr ∧ request.query = [] ∧ request.url ≠ "/v4/enhet/975288001" then
      some ⟨404, none⟩
    else some ⟨200, some []⟩
  urls := ⟨"", "", "", ""⟩
  retryDelays := defaultRetryDelays

attribute [local instance] sampleNsr sampleSources OsloZone.atEpoch UnicodeData.ascii

/-- Of the register's two schools one has a new name, and the other is not listed. -/
def sampleFetched : Fetched where
  municipalities := [⟨"0301", "Oslo", "Oslo", "03", "Oslo", []⟩]
  codeChanges := []
  units := [(sampleUnit "975288001" "Berg skole" true, [])]
  absentFromList := 1

/-- The client answers no number with the unit of another. -/
theorem sampleClient_own (orgnr : String) (detail : Detail)
    (answered : sampleClient.Answers orgnr (.ok detail))
    : detail.1.orgnr = orgnr := by
  obtain ⟨sent, outcome⟩ := answered
  by_cases own : "" ++ "/v4/enhet/" ++ orgnr = "/v4/enhet/975288001"
  · obtain rfl : orgnr = "975288001" :=
      (String.append_right_inj ("" ++ "/v4/enhet/")).mp own
    obtain rfl := Except.ok.inj outcome
    rfl
  · have unanswered : sampleClient.network sent (sampleClient.unitRequest orgnr)
        = some ⟨404, none⟩ := if_pos ⟨rfl, rfl, own⟩
    have failed : sampleClient.getOnce (sampleClient.unitRequest orgnr) sent
        = .error ⟨.nsr, .status 404⟩ := by
      rw [SourceClient.getOnce, unanswered]
      rfl
    have given : sampleClient.get (sampleClient.unitRequest orgnr) sent
        = (.error ⟨.nsr, .status 404⟩, sent + 1) := by
      rw [SourceClient.get, SourceClient.getAfter, failed]
      rfl
    rw [SourceClient.nsrUnitWithPayload_error _ given] at outcome
    cases outcome

/-- The listed school is wanted, and the other is counted. -/
theorem sample_fetch
    : FetchEnds sampleClient sampleRegister .seed none (.ofParts 2026 9 24 rfl)
      (.ok sampleFetched) := by
  have read : sampleClient.municipalities 0 = (.ok sampleFetched.municipalities, 1) := by rfl
  have listed : sampleClient.nsrAllUnits 1
      = (.ok [⟨"975288001", "Berg skole", "0301", true, true, true, none⟩], 2) := by rfl
  have wanted : wantedOrgnrs [⟨"975288001", "Berg skole", "0301", true, true, true, none⟩]
      sampleRegister = ["975288001"] := by decide +kernel
  have answered : sampleClient.Answers "975288001"
      (.ok (sampleUnit "975288001" "Berg skole" true, [])) := ⟨0, rfl⟩
  obtain ⟨events, pool, run, result⟩ := run_of_one answered
  rw [← wanted] at run
  exact .details read rfl listed run result

/-- The plan for what was fetched renames the listed school. -/
def fetchedPlan : SyncPlan Nat :=
  {
    municipalityOps := []
    schoolOps := [
      .rename 2 "Berg skole" (some "Berg skole") (some ⟨some "ask-skole", "berg-skole"⟩)]
    reviews := []
    counts := { schoolsRenamed := 1 }
  }

/-- The other school is counted as absent, and the plan leaves it as it is. -/
theorem fetch_covers_sample
    : ∃ pages list sent after, AnswersPages sampleClient 1 sent pages after
      ∧ WholeList pages list ∧ CoversList sampleRegister list sampleFetched
      ∧ planWith sampleRegister
          ⟨sampleFetched.municipalities, sampleFetched.codeChanges,
            sampleFetched.units.map Prod.fst, .seed, Moment.at 0⟩
          .enforce = some (.apply fetchedPlan)
      ∧ ∀ op ∈ fetchedPlan.schoolOps, op.names 3 = false := by
  obtain ⟨pages, list, sent, after, answers, whole, covers, -, untouched⟩ :=
    fetch_covers sampleClient_own sample_fetch
  have planned : planWith sampleRegister
      ⟨sampleFetched.municipalities, sampleFetched.codeChanges,
        sampleFetched.units.map Prod.fst, .seed, Moment.at 0⟩
      .enforce = some (.apply fetchedPlan) := by
    decide +kernel
  refine ⟨pages, list, sent, after, answers, whole, covers, planned, ?_⟩
  refine untouched sampleRegister _ _ _ sampleRegister_store rfl planned
    (sampleSchool 3 "975288002" "Bekk skole" "bekk-skole") (by simp [sampleRegister]) ?_
  intro orgnr numbered
  obtain rfl : "975288002" = orgnr := Option.some.inj numbered
  rw [← covers.orgnrs]
  decide

end

end FauPortalen.Register

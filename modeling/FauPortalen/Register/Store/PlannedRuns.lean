import FauPortalen.Register.Store.RunRefinement

/-! Over any number of planned runs on the tables the slugs stay safe. -/

set_option linter.unusedSectionVars false

namespace FauPortalen.Register

open FauPortalen.Foundations Transaction Applier

section

variable {Id : Type} [LinearOrder Id] {s after : RegisterTables Id}
  {snapshot : RegisterSnapshot Id} {ids : NewIds Id}

-----------------------------------------------------------------------------------------
-- Runs over time

/-- No open school has a current slug that another open school of its municipality gave up. -/
def RegisterTables.SlugsSafe (s : RegisterTables Id) : Prop :=
  ∀ row ∈ s.schools, ∀ other ∈ s.schools, row.status = .active → other.status = .active →
    row.id ≠ other.id → ∀ slug, row.slug = some slug →
    ∀ old ∈ s.schoolSlugs, old.schoolId = other.id → old.municipalityId = row.municipalityId →
      old.slug ≠ slug

/-- The tables' slugs are safe when the register's are that they show. -/
theorem Displays.slugsSafe_iff (displays : Displays s snapshot) (holds : s.Constraints)
    : s.SlugsSafe ↔ SlugSafe snapshot := by
  have school (row : SchoolRow Id) (member : row ∈ s.schools)
      : s.schoolSnapshot row ∈ snapshot.schools :=
    displays.mirrors.schools.mem_iff.mp (List.mem_map_of_mem member)
  constructor
  · intro safe
    refine ⟨?_, ?_, ?_⟩
    · have both := displays.mirrors.schools.filterMap fun school =>
        school.slug.map fun slug => (school.municipalityId, slug)
      rw [List.filterMap_map] at both
      exact both.nodup_iff.mp holds.currentSlugs
    · intro shown member held
      obtain ⟨row, known, rfl⟩ := List.mem_map.mp (displays.mirrors.schools.mem_iff.mpr member)
      have held : row.verification = .held := held
      have checked := holds.schoolChecks row known
      simp only [SchoolRow.check, Bool.and_eq_true, Bool.or_eq_true, decide_eq_true_eq] at checked
      rcases checked.1.1.2 with (none_given | listed) | verified
      · exact Option.isNone_iff_eq_none.mp none_given
      · rw [held] at listed
        cases listed
      · rw [held] at verified
        cases verified
    · intro left inside right there active active' differ slug current past
      obtain ⟨row, known, rfl⟩ := List.mem_map.mp (displays.mirrors.schools.mem_iff.mpr inside)
      obtain ⟨other, known', rfl⟩ := List.mem_map.mp (displays.mirrors.schools.mem_iff.mpr there)
      obtain ⟨old, stored, same⟩ := List.mem_map.mp (displays.schoolSlugs.mem_iff.mpr past)
      obtain ⟨home, rest⟩ := Prod.mk.inj same
      obtain ⟨text, owner⟩ := Prod.mk.inj rest
      exact safe row known other known' active active' differ slug current old stored owner home
        text
  · intro safe row known other known' active active' differ slug current old stored owner home text
    refine safe.history _ (school row known) _ (school other known') active active' differ slug
      current ?_
    have past := displays.schoolSlugs.mem_iff.mp
      (List.mem_map_of_mem (f := SchoolSlugRow.given) stored)
    rwa [SchoolSlugRow.given, home, text, owner] at past

variable [SearchData] [OsloZone] {moment : Moment}

/-- A run plans for the register as it is loaded, some time after everything in it was written, and
applies the plan. Kartverket lists a number once, and new rows have new ids.
-/
structure PlannedRun (ids : NewIds Id) (inputs : SyncInputs) (breaker : Breaker) (moment : Moment)
    (s after : RegisterTables Id) : Prop where
  distinct : (inputs.municipalities.map MunicipalityRecord.number).Nodup
  bytes : ∀ r ∈ inputs.municipalities, ∀ n ∈ r.names, n.priority < 256
  later : s.WrittenBefore moment.now
  applies : ∃ snapshot p applied, loadSnapshot s = some snapshot
    ∧ planWith snapshot inputs breaker = some (.apply p)
    ∧ ids.Fresh snapshot ∧ ids.Covers p ∧ (applyPlan ids p moment).Commits s applied after

inductive PlannedEvent (Id : Type)
  | run (ids : NewIds Id) (inputs : SyncInputs) (breaker : Breaker) (moment : Moment)
  | elsewhere

/-- The register from the empty one through planned runs, with changes around it in between. -/
def plannedHistory : EventSystem (RegisterTables Id) (PlannedEvent Id) where
  start s := s = .empty
  step s event after :=
    match event with
    | .run ids inputs breaker moment => PlannedRun ids inputs breaker moment s after
    | .elsewhere => s.ChangesAround after

/-- A planned run keeps safe slugs safe. -/
theorem PlannedRun.slugsSafe {inputs : SyncInputs} {breaker : Breaker}
    (h : PlannedRun ids inputs breaker moment s after) (stands : s.Stands) (safe : s.SlugsSafe)
    : after.Stands ∧ after.SlugsSafe := by
  obtain ⟨snapshot, p, applied, found, planned, fresh, covers, commits⟩ := h.applies
  have displays := displays_of_loadSnapshot found
  have safe := (displays.slugsSafe_iff stands.constraints).mp safe
  obtain ⟨_, _, loaded, _, loads, _, _, safely⟩ := applyPlan_simulates_safely stands.constraints
    stands.numbers found safe h.later planned h.distinct h.bytes fresh covers commits
  have after_stands := stands.applyPlan commits
  exact ⟨after_stands,
    ((displays_of_loadSnapshot loads).slugsSafe_iff after_stands.constraints).mpr safely⟩

/-- Over any number of planned runs, each open school's slug stays its own: no other school of the
municipality has it, and no other open one gave it up. The sources may list anything, but
Kartverket no number twice, and a run comes after what was written before it.
-/
theorem plannedHistory_slugsSafe (reached : plannedHistory.Reachable s)
    : s.currentSlugKeys.Nodup ∧ s.SlugsSafe := by
  have all : s.Stands ∧ s.SlugsSafe := by
    refine reached.keeps (I := fun s => s.Stands ∧ s.SlugsSafe) ?_ ?_
    · intro s begun
      obtain rfl : s = .empty := begun
      exact ⟨RegisterTables.empty_stands, fun _ none => (List.not_mem_nil none).elim⟩
    · intro s event after held stepped
      cases event with
      | run ids inputs breaker moment =>
          exact PlannedRun.slugsSafe stepped held.1 held.2
      | elsewhere =>
          have same := RegisterTables.ChangesAround.register stepped
          refine ⟨held.1.changesAround stepped, ?_⟩
          have schools : after.schools = s.schools := by rw [same]
          have slugs : after.schoolSlugs = s.schoolSlugs := by rw [same]
          unfold RegisterTables.SlugsSafe
          rw [schools, slugs]
          exact held.2
  exact ⟨all.1.constraints.currentSlugs, all.2⟩

end

section

attribute [local instance] OsloZone.atEpoch SearchData.ascii

-----------------------------------------------------------------------------------------
-- A small register's runs

def bareRegister : RegisterSnapshot Nat := ⟨[], [], [], [], []⟩

/-- The sample's plan for the empty register. -/
def seedPlan : SyncPlan Nat :=
  {
    municipalityOps := [
      .create 0 "0301" "Oslo" (some "Oslo") "03" "Oslo" "0301-oslo" [] .kartverket]
    schoolOps := [
      .create 0 (.new 0) "975288002" "Berg skole" "Berg skole" (some "berg-skole") .listed
        true (.fromUnit (sampleUnit "975288002" "Berg skole" true)) none,
      .create 1 (.new 0) "975288003" "Ask skole" "Ask skole" (some "ask-skole") .listed
        true (.fromUnit (sampleUnit "975288003" "Ask skole" true)) none]
    reviews := []
    counts := { municipalitiesCreated := 1, schoolsCreated := 2 }
  }

/-- The seed of the sample. -/
def seededTables : RegisterTables Nat :=
  (applyPlan (testkitIds bareRegister seedPlan) seedPlan (Moment.at 1)).leaves .empty

theorem seedRun
    : PlannedRun (testkitIds bareRegister seedPlan) sampleInputs .enforce (Moment.at 1) .empty
        seededTables := by
  have found : loadSnapshot (.empty : RegisterTables Nat) = some bareRegister := by decide +kernel
  have planned : planWith bareRegister sampleInputs .enforce = some (.apply seedPlan) := by
    decide +kernel
  obtain ⟨applied, commits⟩ := leaves_commits
    (show ((applyPlan (testkitIds bareRegister seedPlan) seedPlan (Moment.at 1)).run
      .empty).toBool = true by decide +kernel)
  exact ⟨by decide, by decide, ⟨by decide, by decide, by decide, by decide⟩, bareRegister,
    seedPlan, applied, found, planned, testkitIds_fresh _ _, testkitIds_covers _ _, commits⟩

def seededRegister : RegisterSnapshot Nat :=
  { sampleRegister with
    schools := [
      sampleSchool 2 "975288002" "Berg skole" "berg-skole",
      sampleSchool 3 "975288003" "Ask skole" "ask-skole"] }

/-- Later the first school has another name. -/
def laterInputs : SyncInputs :=
  { sampleInputs with
    units := [
      sampleUnit "975288002" "Bjerk skole" true,
      sampleUnit "975288003" "Ask skole" true]
    moment := Moment.at 2 }

def renamePlan : SyncPlan Nat :=
  {
    municipalityOps := []
    schoolOps := [
      .rename 2 "Bjerk skole" (some "Bjerk skole") (some ⟨some "berg-skole", "bjerk-skole"⟩)]
    reviews := []
    counts := { schoolsRenamed := 1 }
  }

def renamedTables : RegisterTables Nat :=
  (applyPlan (testkitIds seededRegister renamePlan) renamePlan (Moment.at 2)).leaves seededTables

theorem renameRun
    : PlannedRun (testkitIds seededRegister renamePlan) laterInputs .enforce (Moment.at 2)
        seededTables renamedTables := by
  have found : loadSnapshot seededTables = some seededRegister := by decide +kernel
  have planned : planWith seededRegister laterInputs .enforce = some (.apply renamePlan) := by
    decide +kernel
  have earlier : seededTables.WrittenBefore (Moment.at 2).now :=
    ⟨by decide +kernel, by decide +kernel, by decide +kernel, by decide +kernel⟩
  obtain ⟨applied, commits⟩ := leaves_commits
    (show ((applyPlan (testkitIds seededRegister renamePlan) renamePlan (Moment.at 2)).run
      seededTables).toBool = true by decide +kernel)
  exact ⟨by decide, by decide, earlier, seededRegister, renamePlan, applied, found, planned,
    testkitIds_fresh _ _, testkitIds_covers _ _, commits⟩

/-- A school that was renamed has given its first slug up, and the slugs are safe. -/
theorem renameRun_slugsSafe
    : renamedTables.schoolSlugs.map (·.slug) = ["berg-skole"]
        ∧ renamedTables.currentSlugKeys.Nodup ∧ renamedTables.SlugsSafe := by
  have seeded : plannedHistory.step .empty
      (.run (testkitIds bareRegister seedPlan) sampleInputs .enforce (Moment.at 1))
      seededTables :=
    seedRun
  have renamed : plannedHistory.step seededTables
      (.run (testkitIds seededRegister renamePlan) laterInputs .enforce (Moment.at 2))
      renamedTables :=
    renameRun
  have reached := ((EventSystem.Reachable.start rfl).step seeded).step renamed
  exact ⟨by decide +kernel, plannedHistory_slugsSafe reached⟩

end

end FauPortalen.Register

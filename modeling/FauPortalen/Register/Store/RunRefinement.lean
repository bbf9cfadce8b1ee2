import FauPortalen.Register.Store.Refinement

/-! A planned run on the tables agrees with the reference applier, and what the next run needs holds
again.
-/

set_option linter.unusedSectionVars false

namespace FauPortalen.Register

open FauPortalen.Foundations Transaction Applier

section

variable {Id : Type} [LinearOrder Id] {s after before : RegisterTables Id}
  {out snapshot base loaded : RegisterSnapshot Id} {ids : NewIds Id} {now : Timestamp}

-----------------------------------------------------------------------------------------
-- One run

/-- What the tables have from before this moment. -/
structure RegisterTables.WrittenBefore (s : RegisterTables Id) (now : Timestamp) : Prop where
  municipalities : ∀ row ∈ s.municipalities, row.createdAt < now
  schools : ∀ row ∈ s.schools, row.visibleFrom < now
  municipalitySlugs : ∀ row ∈ s.municipalitySlugs, row.validUntil < now
  schoolSlugs : ∀ row ∈ s.schoolSlugs, row.validUntil < now

/-- The loaded register is what the reference leaves, but for the history of municipality slugs: of
those that a municipality gave up in the run it has the first, which is the slug from before. A
school gives up one slug in a run.
-/
structure RefinesReference (snapshot out loaded : RegisterSnapshot Id) : Prop where
  municipalities : loaded.municipalities.Perm (out.municipalities.map (·.inOrder))
  schools : loaded.schools.Perm out.schools
  orgnrs : loaded.schoolOrgnrHistory.Perm out.schoolOrgnrHistory
  municipalitySlugs : ∃ given,
    out.municipalitySlugHistory = snapshot.municipalitySlugHistory ++ given
    ∧ loaded.municipalitySlugHistory.Perm
        (snapshot.municipalitySlugHistory ++ keepFirst Prod.snd [] given)
    ∧ ∀ first ∈ keepFirst Prod.snd [] given, ∃ m ∈ snapshot.municipalities,
        m.id = first.2 ∧ m.slug = first.1
  schoolSlugs : ∃ given, out.schoolSlugHistory = snapshot.schoolSlugHistory ++ given
    ∧ (given.map (·.2.2)).Nodup
    ∧ loaded.schoolSlugHistory.Perm out.schoolSlugHistory

/-- Names that the tables show have small priorities when the register's have. -/
theorem Mirrors.bytes (h : Mirrors s out) (holds : s.Constraints)
    (small : ∀ m ∈ out.municipalities, ∀ n ∈ m.names, n.priority < 256)
    : ∀ n ∈ s.names, n.priority < 256 := by
  intro n member
  obtain ⟨row, known, same⟩ := List.mem_map.mp (holds.nameOwners n member)
  obtain ⟨m, inside, shown, _⟩ := h.municipality known
  have names : s.namesOf row.id = sortedNames m.names := by
    obtain ⟨_, _, equal⟩ := Option.map_eq_some_iff.mp shown
    exact congrArg MunicipalitySnapshot.names equal
  have listed : (⟨n.name, n.language, n.priority⟩ : OfficialName) ∈ s.namesOf row.id := by
    refine mem_sortOn.mpr (List.mem_map.mpr ⟨n, List.mem_filter.mpr ⟨member, ?_⟩, rfl⟩)
    simpa using same.symm
  rw [names] at listed
  exact small m inside _ (mem_sortOn.mp listed)

/-- What is loaded from tables that mirror a register is that register. -/
theorem Mirrors.loaded_perm (h : Mirrors s out) (displays : Displays s loaded)
    : loaded.municipalities.Perm (out.municipalities.map (·.inOrder))
      ∧ loaded.schools.Perm out.schools
      ∧ loaded.schoolOrgnrHistory.Perm out.schoolOrgnrHistory := by
  refine ⟨?_, displays.mirrors.schools.symm.trans h.schools,
    displays.mirrors.orgnrs.symm.trans h.orgnrs⟩
  have both := displays.mirrors.municipalities.symm.trans h.municipalities
  have ordered : loaded.municipalities.map (fun m => some m.inOrder)
      = loaded.municipalities.map some :=
    List.map_congr_left fun m member => congrArg some (displays.inOrder m member)
  have mapped : out.municipalities.map (fun m => some m.inOrder)
      = (out.municipalities.map (·.inOrder)).map some := by
    rw [List.map_map]
    rfl
  rw [ordered, mapped] at both
  exact (List.map_perm_map_iff (Option.some_injective _)).mp both

-----------------------------------------------------------------------------------------
-- Before each loop

/-- Loaded names have small priorities. -/
theorem Displays.small (displays : Displays s snapshot) {m : MunicipalitySnapshot Id}
    (member : m ∈ snapshot.municipalities) {n : OfficialName} (named : n ∈ m.names)
    : n.priority < 256 := by
  obtain ⟨row, known, shown, _⟩ := displays.mirrors.municipality_row member
  have names : s.namesOf row.id = sortedNames m.names := by
    obtain ⟨_, _, equal⟩ := Option.map_eq_some_iff.mp shown
    exact congrArg MunicipalitySnapshot.names equal
  have listed : n ∈ s.namesOf row.id := names ▸ mem_sortOn.mpr named
  obtain ⟨stored, inside, rfl⟩ := List.mem_map.mp (mem_sortOn.mp listed)
  exact displays.bytes stored (List.mem_of_mem_filter inside)

variable [SearchData] [OsloZone] {moment : Moment}

/-- What holds before the municipality operations of a plan for the loaded register. -/
theorem Displays.beforeMunicipalities (displays : Displays s snapshot) (holds : s.Constraints)
    (keys : RowKeys snapshot) (earlier : s.WrittenBefore now) {inputs : SyncInputs}
    {plan : MunicipalityPlan Id} (planned : planMunicipalities snapshot inputs = some plan)
    (distinct : (inputs.municipalities.map MunicipalityRecord.number).Nodup)
    (bytes : ∀ op ∈ plan.ops, ∀ n ∈ op.names, n.priority < 256) (fresh : ids.Fresh snapshot)
    (covers : ∀ n ∈ plan.ops.filterMap createdMunicipality?, (ids.municipality n).isSome)
    : MunicipalityPhase ids now s snapshot s snapshot plan.ops := by
  obtain ⟨_, created, again, named, _⟩ := planMunicipalities_named keys inputs
  cases planned.symm.trans again
  have apart := (nodup_active_numbers_iff keys.municipalityIds).mp keys.numbers
  refine ⟨holds, apart, displays.mirrors, rfl, rfl, ⟨[], (List.append_nil _).symm,
    .nothing (fun _ => rfl) earlier.municipalitySlugs, fun _ none => (List.not_mem_nil none).elim,
    fun m member _ => ⟨m, member, rfl, rfl⟩⟩, List.Subset.refl _,
    fun row member _ => earlier.municipalities row member,
    planMunicipalities_nameRows keys planned distinct fresh covers,
    planMunicipalities_fit keys planned, fun m member n => displays.small member, bytes, ?_⟩
  intro op member id target
  obtain ⟨row, active, rfl⟩ := named.targets op member id target
  have known := List.mem_map_of_mem (f := (·.id)) (List.mem_of_mem_filter active)
  exact ⟨displays.mirrors.municipality_ids.mem_iff.mpr known, known⟩

/-- What holds before the school operations, which rekey no school twice. -/
theorem Mirrors.beforeSchools (mirrors : Mirrors s base) (holds : s.Constraints)
    (numbers : NumbersApart base.municipalities)
    (schools : ∀ row ∈ s.schools, row.visibleFrom < now)
    (slugs : ∀ row ∈ s.schoolSlugs, row.validUntil < now) {ops : List (SchoolOp Id)}
    (once : (ops.filterMap SchoolOp.rekeyed?).Nodup)
    (targets : ∀ op ∈ ops, ∀ id, op.target? = some id → id ∈ s.schoolIds)
    : SchoolPhase ids now s base s base ops := by
  refine ⟨holds, numbers, mirrors, rfl, rfl, ⟨[], (List.append_nil _).symm,
    .nothing (fun _ => rfl) slugs, once⟩, List.Subset.refl _,
    fun row member _ => schools row member, ?_,
    fun row member absent => absurd (List.mem_map_of_mem member) absent, targets⟩
  intro row member old known same
  rw [List.inj_on_of_nodup_map holds.schoolKeys member known same]

/-- After the school operations every school has the successor it had, and a new one has none. -/
theorem SchoolPhase.beforeLinks (h : SchoolPhase ids now before base s out [])
    (holds : before.Constraints)
    : LinkedTo s out (fun id => (before.schoolRow id).bind (·.successorId)) [] s := by
  refine ⟨h.constraints, h.mirrors, fun row member => ?_, rfl⟩
  change row.successorId = (before.schoolRow row.id).bind (·.successorId)
  by_cases known : row.id ∈ before.schoolIds
  · obtain ⟨old, inside, same⟩ := List.mem_map.mp known
    have one : before.schoolRow row.id = some old :=
      (findRow_eq_some holds.schoolKeys).mpr ⟨inside, same⟩
    rw [one, Option.bind_some]
    exact h.successors row member old inside same.symm
  · have none_stored : before.schoolRow row.id = none := findRow_eq_none.mpr known
    rw [none_stored, Option.bind_none]
    exact h.unlinked row member known

-----------------------------------------------------------------------------------------
-- The loops of a run

/-- The operations of a plan, on the tables it was planned for: both loops are the reference's, and
the links are its successors.
-/
theorem applyPlan_simulates (holds : s.Constraints) (found : loadSnapshot s = some snapshot)
    (numbers : ((activeMunicipalities snapshot).map (·.number)).Nodup)
    (earlier : s.WrittenBefore moment.now) {inputs : SyncInputs} {breaker : Breaker}
    {p : SyncPlan Id} (planned : planWith snapshot inputs breaker = some (.apply p))
    (distinct : (inputs.municipalities.map MunicipalityRecord.number).Nodup)
    (bytes : ∀ op ∈ p.municipalityOps, ∀ n ∈ op.names, n.priority < 256)
    (fresh : ids.Fresh snapshot) (covers : ids.Covers p) {applied : AppliedCounts Id}
    (commits : (applyPlan ids p moment).Commits s applied after)
    : ∃ out successors loaded,
        applyWith ids snapshot p = some (out, successors)
        ∧ loadSnapshot after = some loaded
        ∧ RefinesReference snapshot out loaded
        ∧ ∀ row ∈ after.schools, row.successorId
          = (successors row.id).or ((s.schoolRow row.id).bind (·.successorId)) := by
  obtain ⟨_, steps, stepped, rfl⟩ := planWith_apply planned
  have displays := displays_of_loadSnapshot found
  have keys := rowKeys_of_tables holds displays numbers
  obtain ⟨first, _⟩ := planSteps_parts stepped
  obtain ⟨touched, links, municipalities, refreshed, schools, linked, text, phases⟩ :=
    applyPlan_phases commits
  -- the municipality operations
  have begun := displays.beforeMunicipalities holds keys earlier first distinct bytes fresh
    covers.municipalities
  obtain ⟨base, municipality_run, first_phase⟩ := begun.run phases.municipalityOps
  obtain ⟨refreshed_holds, refreshed_mirrors, refreshed_others⟩ :=
    refreshMunicipalities_shows phases.municipalityTexts first_phase.constraints first_phase.mirrors
  have same_schools : refreshed.schools = s.schools := by
    rw [refreshed_others, first_phase.others]
  have same_slugs : refreshed.schoolSlugs = s.schoolSlugs := by
    rw [refreshed_others, first_phase.others]
  have same_row (id : Id) : refreshed.schoolRow id = s.schoolRow id := by
    rw [RegisterTables.schoolRow, same_schools]
    rfl
  -- the school operations
  have between : SchoolPhase ids moment.now refreshed base refreshed base steps.2.ops := by
    refine refreshed_mirrors.beforeSchools refreshed_holds first_phase.numbers
      (same_schools ▸ earlier.schools) (same_slugs ▸ earlier.schoolSlugs)
      (planSteps_rekeys keys.schoolIds stepped) fun op member id target => ?_
    obtain ⟨school, known, rfl, _⟩ := planSteps_targets stepped member target
    rw [RegisterTables.schoolIds, same_schools]
    exact displays.mirrors.school_ids.mem_iff.mpr (List.mem_map_of_mem known)
  obtain ⟨out, school_run, second_phase, rfl, resolved⟩ := between.run phases.schoolOps
  -- the links
  have unlinked := second_phase.beforeLinks refreshed_holds
  simp only [same_row] at unlinked
  have final := (unlinked.links phases.successors).refresh phases.schoolTexts
  rw [List.nil_append] at final
  obtain ⟨table, _, rfl⟩ := phases.reviews
  have mirrors : Mirrors { text with reviews := table.rows } out :=
    ⟨final.mirrors.municipalities, final.mirrors.schools, final.mirrors.orgnrs⟩
  have municipalities_kept : out.municipalities = base.municipalities := by
    rw [second_phase.untouched]
  obtain ⟨loaded, loads⟩ := mirrors.loads
    (mirrors.bytes phases.constraints (municipalities_kept ▸ first_phase.bytes))
  have shown := displays_of_loadSnapshot loads
  obtain ⟨municipality_rows, school_rows, orgnr_rows⟩ := mirrors.loaded_perm shown
  have resolves := planSteps_resolveSuccessors keys stepped fresh
    (foldlM_checked municipality_run) (foldlM_checked school_run) resolved
  refine ⟨out, _, loaded, ?_, loads, ⟨municipality_rows, school_rows, orgnr_rows, ?_, ?_⟩,
    final.successors⟩
  · change (do
      let out ← steps.1.ops.foldlM (stepMunicipalityOp ids) snapshot
      let out ← steps.2.ops.foldlM (stepSchoolOp ids) out
      let successors ← resolveSuccessors ids out steps.2.ops
      return (out, successors) : Option (RegisterSnapshot Id × Lookup Id Id)) = _
    rw [municipality_run]
    simp only [Option.bind_eq_bind, Option.bind_some, school_run, resolves]
    rfl
  · obtain ⟨given, history, recorded, firsts⟩ := first_phase.given
    obtain ⟨rows, appended, viewed, _⟩ := recorded.rows
    have kept : text.municipalitySlugs = municipalities.municipalitySlugs := by
      rw [final.others, second_phase.others, refreshed_others]
    have untouched : out.municipalitySlugHistory = base.municipalitySlugHistory := by
      rw [second_phase.untouched]
    refine ⟨given, untouched.trans history, shown.municipalitySlugs.symm.trans ?_, firsts.firsts⟩
    change (text.municipalitySlugs.map MunicipalitySlugRow.given).Perm _
    rw [kept, appended, List.map_append, viewed]
    exact displays.municipalitySlugs.append_right _
  · obtain ⟨given, history, recorded, once⟩ := second_phase.given
    obtain ⟨rows, appended, viewed, _⟩ := recorded.rows
    have kept : text.schoolSlugs = schools.schoolSlugs := by rw [final.others]
    have untouched : base.schoolSlugHistory = snapshot.schoolSlugHistory := by
      rw [first_phase.untouched]
    -- each school gives one slug up, so that every row has an interval
    have once := (List.nodup_append.mp once).1
    have all : keepFirst (·.2.2) [] given = given :=
      keepFirst_eq_self (fun _ _ => List.not_mem_nil) once
    refine ⟨given, untouched ▸ history, once, shown.schoolSlugs.symm.trans ?_⟩
    change (text.schoolSlugs.map SchoolSlugRow.given).Perm _
    rw [kept, appended, List.map_append, viewed, all, same_slugs, history, untouched]
    exact displays.schoolSlugs.append_right _

-----------------------------------------------------------------------------------------
-- The priorities of names

/-- The names a plan writes are those of the records, and Svalbard's own. -/
theorem planMunicipalities_names {inputs : SyncInputs} {plan : MunicipalityPlan Id}
    (planned : planMunicipalities snapshot inputs = some plan) {op : MunicipalityOp Id}
    (member : op ∈ plan.ops) {n : OfficialName} (named : n ∈ op.names)
    : (∃ r ∈ inputs.municipalities, n ∈ r.names) ∨ n.priority = 1 := by
  obtain ⟨groups, records, grouped, recorded, _, _, _, parts⟩ := planMunicipalities_parts planned
  let Listed := fun op : MunicipalityOp Id =>
    ∀ n ∈ op.names, ∃ r ∈ inputs.municipalities, n ∈ r.names
  have renumbers : ∀ op ∈ groups.ops, Listed op := by
    refine foldlM_preserves (P := fun state : GroupState Id => ∀ op ∈ state.ops, Listed op) ?_
      grouped fun _ none => (List.not_mem_nil none).elim
    intro before group _ after stepped held
    rcases stepGroup_cases stepped with ⟨_, rfl⟩ | ⟨_, _, _, _, _, _, _, _, _, rfl⟩
      | ⟨_, _, _, _, rfl⟩
    · exact held
    · intro op inside
      rcases List.mem_append.mp inside with old | last
      · exact held op old
      · cases List.mem_singleton.mp last
        exact fun _ none => (List.not_mem_nil none).elim
    · exact held
  have listed : ∀ op ∈ records.ops, Listed op := by
    refine foldlM_preserves (P := fun state : RecordState Id => ∀ op ∈ state.ops, Listed op) ?_
      recorded renumbers
    intro before r there after stepped held
    have known := mem_sortOn.mp there
    rcases stepRecord_cases stepped with ⟨_, rfl⟩
      | ⟨_, ⟨id, w, _, _, rfl⟩ | ⟨_, _, rfl⟩ | ⟨_, _, _, _, rfl⟩ | ⟨_, _, _, rfl⟩⟩
    · exact held
    · intro op inside
      rcases List.mem_append.mp inside with old | compared
      · exact held op old
      · intro n named
        refine ⟨r, known, ?_⟩
        unfold compareRecord at compared
        split at compared
        · cases compared
        · rcases List.mem_append.mp compared with renamed | updated
          · split at renamed
            · split at renamed
              · cases List.mem_singleton.mp renamed
                cases named
              · cases renamed
            · cases renamed
          · split at updated
            · cases List.mem_singleton.mp updated
              exact named
            · cases updated
    · exact held
    · intro op inside
      rcases List.mem_append.mp inside with old | last
      · exact held op old
      · cases List.mem_singleton.mp last
        exact fun n named => ⟨r, known, named⟩
    · exact held
  rcases parts with ⟨ops, _⟩ | ⟨_, ops, _⟩
  · exact .inl (listed op (ops ▸ member) n named)
  · rw [ops] at member
    rcases List.mem_append.mp member with old | last
    · exact .inl (listed op old n named)
    · cases List.mem_singleton.mp last
      cases List.mem_singleton.mp named
      exact .inr rfl

/-- A plan's names have the priorities of the records. -/
theorem planWith_bytes {inputs : SyncInputs} {breaker : Breaker} {p : SyncPlan Id}
    (planned : planWith snapshot inputs breaker = some (.apply p))
    (bytes : ∀ r ∈ inputs.municipalities, ∀ n ∈ r.names, n.priority < 256)
    : ∀ op ∈ p.municipalityOps, ∀ n ∈ op.names, n.priority < 256 := by
  obtain ⟨_, steps, stepped, rfl⟩ := planWith_apply planned
  simp only [planSteps, Option.bind_eq_bind, Option.bind_eq_some_iff] at stepped
  obtain ⟨municipalities, first, schools, second, same⟩ := stepped
  cases same
  intro op member n named
  rcases planMunicipalities_names first member named with ⟨r, known, inside⟩ | one
  · exact bytes r known n inside
  · rw [one]
    decide

/-- A run on tables within the constraints that plans for the register as it loads, later than
everything in it, and commits. New rows have new ids.
-/
structure CommittedRun (ids : NewIds Id) (inputs : SyncInputs) (breaker : Breaker)
    (moment : Moment) (s after : RegisterTables Id) (snapshot : RegisterSnapshot Id)
    (p : SyncPlan Id) : Prop where
  constraints : s.Constraints
  earlier : s.WrittenBefore moment.now
  found : loadSnapshot s = some snapshot
  planned : planWith snapshot inputs breaker = some (.apply p)
  fresh : ids.Fresh snapshot
  covers : ids.Covers p
  commits : ∃ applied, (applyPlan ids p moment).Commits s applied after

/-- A committed run agrees with the reference applier, which accepts the plan: the register that
loads afterwards is the reference's, and so are the successors. The register that was loaded has no
number on two open municipalities, and Kartverket lists none twice.
-/
theorem applyPlan_agrees {inputs : SyncInputs} {breaker : Breaker} {p : SyncPlan Id}
    (run : CommittedRun ids inputs breaker moment s after snapshot p)
    (numbers : ((activeMunicipalities snapshot).map (·.number)).Nodup)
    (distinct : (inputs.municipalities.map MunicipalityRecord.number).Nodup)
    (bytes : ∀ r ∈ inputs.municipalities, ∀ n ∈ r.names, n.priority < 256)
    : ∃ out successors loaded,
        applyWith ids snapshot p = some (out, successors)
        ∧ loadSnapshot after = some loaded
        ∧ RefinesReference snapshot out loaded
        ∧ ∀ row ∈ after.schools, row.successorId
          = (successors row.id).or ((s.schoolRow row.id).bind (·.successorId)) := by
  obtain ⟨applied, commits⟩ := run.commits
  exact applyPlan_simulates run.constraints run.found numbers run.earlier run.planned distinct
    (planWith_bytes run.planned bytes) run.fresh run.covers commits

end

section

attribute [local instance] OsloZone.atEpoch SearchData.ascii

-----------------------------------------------------------------------------------------
-- A small register's runs

def sampleSchoolRow (id : Nat) (orgnr name slug : String) : SchoolRow Nat :=
  {
    id := id
    municipalityId := 1
    origin := .register
    displayName := name
    registerName := some name
    displayNameCurated := false
    slug := some slug
    verification := .listed
    verifiedAt := none
    orgnr := some orgnr
    attributes := .fromUnit (sampleUnit orgnr name true)
    inScope := true
    scopeOverride := none
    status := .active
    closedOn := none
    closureReason := none
    successorId := none
    sourceChangedAt := none
    lastSeenInSourceAt := none
    searchText := searchText [name]
    createdAt := 0
  }

/-- The tables that the sample register is loaded from. -/
def sampleTables : RegisterTables Nat :=
  {
    municipalities := [⟨1, "Oslo", some "Oslo", "03", "Oslo", "0301-oslo", .active, none,
      .kartverket, searchText ["Oslo"], 0⟩]
    names := []
    numbers := [⟨1, "0301", 0, none⟩]
    municipalitySlugs := []
    schools := [
      sampleSchoolRow 2 "975288001" "Ask skole" "ask-skole",
      sampleSchoolRow 3 "975288002" "Bekk skole" "bekk-skole"]
    orgnrs := []
    schoolSlugs := []
    tenants := []
    fauLinks := []
    reviews := []
  }

/-- What a plan leaves of tables, under the reference's ids. -/
def appliedTables (register : RegisterSnapshot Nat) (p : SyncPlan Nat) (s : RegisterTables Nat)
    : RegisterTables Nat :=
  (applyPlan (testkitIds register p) p (Moment.at 10)).leaves s

/-- A committed run of the plan, under the reference's ids. -/
abbrev SampleRun (register : RegisterSnapshot Nat) (inputs : SyncInputs) (p : SyncPlan Nat)
    (s : RegisterTables Nat) : Prop :=
  CommittedRun (testkitIds register p) inputs .enforce (Moment.at 10) s
    (appliedTables register p s) register p

/-- A plan commits on the tables that it runs through on. -/
theorem sampleRun_leaves {s : RegisterTables Nat} {snapshot : RegisterSnapshot Nat}
    {inputs : SyncInputs} {p : SyncPlan Nat} (holds : s.Constraints)
    (earlier : s.WrittenBefore 10) (found : loadSnapshot s = some snapshot)
    (planned : planWith snapshot inputs .enforce = some (.apply p))
    (runs : ((applyPlan (testkitIds snapshot p) p (Moment.at 10)).run s).toBool = true)
    : SampleRun snapshot inputs p s :=
  ⟨holds, earlier, found, planned, testkitIds_fresh _ _, testkitIds_covers _ _,
    leaves_commits runs⟩

theorem sampleTables_constraints : sampleTables.Constraints := by decide +kernel

theorem sampleTables_load : loadSnapshot sampleTables = some sampleRegister := by decide +kernel

/-- The sample's schools when Oslo has had two numbers since. -/
def renumberedInputs : SyncInputs :=
  { sampleInputs with
    municipalities := [⟨"0303", "Oslo", "Oslo", "03", "Oslo", []⟩]
    codeChanges := [
      ⟨"0301", "Oslo", "0302", "Oslo", osloToday 0⟩,
      ⟨"0302", "Oslo", "0303", "Oslo", osloToday 0⟩]
    units := sampleInputs.units.map fun u => { u with municipalityNumber := "0303" } }

def renumberedPlan : SyncPlan Nat :=
  { samplePlan with
    municipalityOps := [
      .renumber 1 "0301" "0302" (osloToday 0) none "0301-oslo" "0302-oslo",
      .renumber 1 "0302" "0303" (osloToday 0) none "0302-oslo" "0303-oslo"]
    counts := { samplePlan.counts with renumbered := 2 } }

def renumberedTables : RegisterTables Nat :=
  appliedTables sampleRegister renumberedPlan sampleTables

theorem renumberedRun : SampleRun sampleRegister renumberedInputs renumberedPlan sampleTables :=
  sampleRun_leaves sampleTables_constraints ⟨by decide, by decide, by decide, by decide⟩
    sampleTables_load (by decide +kernel) (by decide +kernel)

/-- Of the two slugs that Oslo gives up, the history has the one it had before. -/
theorem renumberedRun_agrees
    : renumberedTables.municipalitySlugs.map (·.slug) = ["0301-oslo"]
        ∧ ∃ out successors loaded,
          applyWith (testkitIds sampleRegister renumberedPlan) sampleRegister renumberedPlan
            = some (out, successors)
          ∧ loadSnapshot renumberedTables = some loaded
          ∧ RefinesReference sampleRegister out loaded
          ∧ ∀ row ∈ renumberedTables.schools, row.successorId
            = (successors row.id).or ((sampleTables.schoolRow row.id).bind (·.successorId)) := by
  exact ⟨by decide +kernel,
    applyPlan_agrees renumberedRun (by decide) (by decide) (by decide)⟩

/-- A register of municipalities alone. -/
def municipalityTables (municipalities : List (Nat × String × String))
    (numbers : List (NumberRow Nat)) : RegisterTables Nat :=
  { sampleTables with
    municipalities := municipalities.map fun (id, name, slug) =>
      ⟨id, name, some name, "03", "Oslo", slug, .active, none, .kartverket, searchText [name], 0⟩
    numbers := numbers
    schools := [] }

/-- What is loaded from it. -/
def municipalityRegister (municipalities : List (Nat × String × String × String))
    : RegisterSnapshot Nat :=
  { sampleRegister with
    municipalities := municipalities.map fun (id, number, name, slug) =>
      ⟨id, number, name, some name, "03", "Oslo", slug, .active, .kartverket, []⟩
    schools := [] }

def municipalityInputs (municipalities : List (String × String)) (codeChanges : List CodeChange)
    : SyncInputs :=
  {
    municipalities := municipalities.map fun (number, name) =>
      ⟨number, name, name, "03", "Oslo", []⟩
    codeChanges := codeChanges
    units := [sampleUnit "975288001" "Ask skole" false]
    kind := .sync
    moment := Moment.at 10
  }

/-- Aker has a number that Oslo only had, and both show it. -/
def sharedTables : RegisterTables Nat :=
  municipalityTables [(1, "Oslo", "0301-oslo"), (2, "Aker", "0302-aker")]
    [⟨1, "0301", 0, some 5⟩, ⟨2, "0301", 5, none⟩]

def sharedRegister : RegisterSnapshot Nat :=
  municipalityRegister [(1, "0301", "Oslo", "0301-oslo"), (2, "0301", "Aker", "0302-aker")]

def sharedInputs : SyncInputs := municipalityInputs [("0301", "Asker")] []

def sharedPlan : SyncPlan Nat :=
  {
    municipalityOps := [
      .rename 2 "Asker" "0302-aker" "0301-asker",
      .updateDetails 2 (some "Asker") "03" "Oslo" []]
    schoolOps := []
    reviews := []
    counts := { renamed := 1, municipalitiesUpdated := 1 }
  }

theorem sharedRun : SampleRun sharedRegister sharedInputs sharedPlan sharedTables :=
  sampleRun_leaves (by decide +kernel) ⟨by decide, by decide, by decide, by decide⟩
    (by decide +kernel) (by decide +kernel) (by decide +kernel)

def repeatedTables : RegisterTables Nat :=
  municipalityTables [(1, "Oslo", "0301-oslo")] [⟨1, "0301", 0, none⟩]

def repeatedRegister : RegisterSnapshot Nat :=
  municipalityRegister [(1, "0301", "Oslo", "0301-oslo")]

/-- Kartverket lists Oslo twice. -/
def repeatedInputs : SyncInputs := municipalityInputs [("0301", "Aker"), ("0301", "OSLO")] []

/-- Each rename gives up the slug that was loaded. -/
def repeatedPlan : SyncPlan Nat :=
  {
    municipalityOps := [
      .rename 1 "Aker" "0301-oslo" "0301-aker",
      .updateDetails 1 (some "Aker") "03" "Oslo" [],
      .rename 1 "OSLO" "0301-oslo" "0301-oslo",
      .updateDetails 1 (some "OSLO") "03" "Oslo" []]
    schoolOps := []
    reviews := []
    counts := { renamed := 2, municipalitiesUpdated := 2 }
  }

theorem repeatedRun : SampleRun repeatedRegister repeatedInputs repeatedPlan repeatedTables :=
  sampleRun_leaves (by decide +kernel) ⟨by decide, by decide, by decide, by decide⟩
    (by decide +kernel) (by decide +kernel) (by decide +kernel)

/-- Oslo's slug has the number that it gets next. -/
def aheadTables : RegisterTables Nat :=
  municipalityTables [(1, "Oslo", "0302-oslo")] [⟨1, "0301", 0, none⟩]

def aheadRegister : RegisterSnapshot Nat :=
  municipalityRegister [(1, "0301", "Oslo", "0302-oslo")]

def aheadInputs : SyncInputs :=
  municipalityInputs [("0303", "Oslo")] [
    ⟨"0301", "Oslo", "0302", "Oslo", osloToday 0⟩,
    ⟨"0302", "Oslo", "0303", "Oslo", osloToday 0⟩]

def aheadPlan : SyncPlan Nat :=
  {
    municipalityOps := [
      .renumber 1 "0301" "0302" (osloToday 0) none "0302-oslo" "0302-oslo",
      .renumber 1 "0302" "0303" (osloToday 0) none "0302-oslo" "0303-oslo"]
    schoolOps := []
    reviews := []
    counts := { renumbered := 2 }
  }

theorem aheadRun : SampleRun aheadRegister aheadInputs aheadPlan aheadTables :=
  sampleRun_leaves (by decide +kernel) ⟨by decide, by decide, by decide, by decide⟩
    (by decide +kernel) (by decide +kernel) (by decide +kernel)

/-- Not every committed run agrees with the reference, on tables within the constraints and older
than the run. It rejects a plan when two open municipalities show one number. When Kartverket lists
a number twice, the slugs differ. And a slug of before the run that is given up twice is twice in
its history.
-/
theorem applyPlan_disagrees
    : (SampleRun sharedRegister sharedInputs sharedPlan sharedTables
        ∧ applyWith (testkitIds sharedRegister sharedPlan) sharedRegister sharedPlan = none)
      ∧ (SampleRun repeatedRegister repeatedInputs repeatedPlan repeatedTables
        ∧ (applyWith (testkitIds repeatedRegister repeatedPlan) repeatedRegister repeatedPlan).map
            (·.1.municipalities.map (·.slug)) = some ["0301-aker"]
        ∧ (loadSnapshot (appliedTables repeatedRegister repeatedPlan repeatedTables)).map
            (·.municipalities.map (·.slug)) = some ["0301-oslo"])
      ∧ SampleRun aheadRegister aheadInputs aheadPlan aheadTables
        ∧ (applyWith (testkitIds aheadRegister aheadPlan) aheadRegister aheadPlan).map
            (·.1.municipalitySlugHistory) = some [("0302-oslo", 1), ("0302-oslo", 1)]
        ∧ (loadSnapshot (appliedTables aheadRegister aheadPlan aheadTables)).map
            (·.municipalitySlugHistory) = some [("0302-oslo", 1)] := by
  exact ⟨⟨sharedRun, by decide +kernel⟩, ⟨repeatedRun, by decide +kernel, by decide +kernel⟩,
    aheadRun, by decide +kernel, by decide +kernel⟩

end

section

variable {Id : Type} [LinearOrder Id] {s after : RegisterTables Id}
  {out snapshot loaded : RegisterSnapshot Id} {ids : NewIds Id}
  [SearchData] [OsloZone] {moment : Moment}

-----------------------------------------------------------------------------------------
-- Before the next run

/-- A register that refines one with safe slugs has safe slugs. -/
theorem RefinesReference.slugSafe (h : RefinesReference snapshot out loaded) (safe : SlugSafe out)
    : SlugSafe loaded := by
  refine ⟨?_, ?_, ?_⟩
  · have both : (currentSlugs loaded).Perm (currentSlugs out) := h.schools.filterMap _
    exact both.nodup_iff.mpr safe.unique
  · exact fun school member => safe.held school (h.schools.mem_iff.mp member)
  · intro left inside right there active active' differ slug current past
    obtain ⟨_, _, _, same⟩ := h.schoolSlugs
    exact safe.history left (h.schools.mem_iff.mp inside) right (h.schools.mem_iff.mp there)
      active active' differ slug current (same.mem_iff.mp past)

/-- With safe slugs a planned run's reference has safe slugs, and what loads refines it. -/
theorem applyPlan_simulates_safely (holds : s.Constraints) (stand : s.NumbersStand)
    (found : loadSnapshot s = some snapshot) (safe : SlugSafe snapshot)
    (earlier : s.WrittenBefore moment.now) {inputs : SyncInputs} {breaker : Breaker}
    {p : SyncPlan Id} (planned : planWith snapshot inputs breaker = some (.apply p))
    (distinct : (inputs.municipalities.map MunicipalityRecord.number).Nodup)
    (bytes : ∀ r ∈ inputs.municipalities, ∀ n ∈ r.names, n.priority < 256)
    (fresh : ids.Fresh snapshot) (covers : ids.Covers p) {applied : AppliedCounts Id}
    (commits : (applyPlan ids p moment).Commits s applied after)
    : ∃ out successors loaded,
        applyWith ids snapshot p = some (out, successors)
        ∧ loadSnapshot after = some loaded
        ∧ RefinesReference snapshot out loaded
        ∧ (∀ row ∈ after.schools, row.successorId
          = (successors row.id).or ((s.schoolRow row.id).bind (·.successorId)))
        ∧ SlugSafe loaded := by
  have store := storeConstraints_of_tables holds stand (displays_of_loadSnapshot found) safe
  obtain ⟨out, successors, loaded, reference, loads, refines, linked⟩ := applyPlan_simulates holds
    found store.numbers earlier planned distinct (planWith_bytes planned bytes) fresh covers commits
  refine ⟨out, successors, loaded, reference, loads, refines, linked, refines.slugSafe ?_⟩
  obtain ⟨_, steps, stepped, rfl⟩ := planWith_apply planned
  exact (planSteps_applied store stepped fresh covers reference).2

/-- A committed run refines the reference applier, which accepts the plan: the register that loads
afterwards is the reference's, and so are the successors. What this takes holds again of the
tables and of the register that loads.
-/
theorem applyPlan_refines (holds : s.Constraints) (stand : s.NumbersStand)
    (found : loadSnapshot s = some snapshot) (safe : SlugSafe snapshot)
    (earlier : s.WrittenBefore moment.now) {inputs : SyncInputs} {breaker : Breaker}
    {p : SyncPlan Id} (planned : planWith snapshot inputs breaker = some (.apply p))
    (distinct : (inputs.municipalities.map MunicipalityRecord.number).Nodup)
    (bytes : ∀ r ∈ inputs.municipalities, ∀ n ∈ r.names, n.priority < 256)
    (fresh : ids.Fresh snapshot) (covers : ids.Covers p) {applied : AppliedCounts Id}
    (commits : (applyPlan ids p moment).Commits s applied after)
    : ∃ out successors loaded,
        applyWith ids snapshot p = some (out, successors)
        ∧ loadSnapshot after = some loaded
        ∧ RefinesReference snapshot out loaded
        ∧ (∀ row ∈ after.schools, row.successorId
          = (successors row.id).or ((s.schoolRow row.id).bind (·.successorId)))
        ∧ after.Constraints ∧ after.NumbersStand ∧ SlugSafe loaded := by
  obtain ⟨out, successors, loaded, reference, loads, refines, linked, safely⟩ :=
    applyPlan_simulates_safely holds stand found safe earlier planned distinct bytes fresh covers
      commits
  obtain ⟨_, _, _, _, _, _, _, phases⟩ := applyPlan_phases commits
  exact ⟨out, successors, loaded, reference, loads, refines, linked, phases.constraints,
    stand.applyPlan holds commits, safely⟩

end

section

attribute [local instance] OsloZone.atEpoch SearchData.ascii

/-- The sample's run closes a school with a successor and renames another. -/
theorem sampleRun_refines
    : ∃ out successors loaded,
        applyWith (testkitIds sampleRegister samplePlan) sampleRegister samplePlan
          = some (out, successors)
        ∧ loadSnapshot ((applyPlan (testkitIds sampleRegister samplePlan) samplePlan
            (Moment.at 1)).leaves sampleTables) = some loaded
        ∧ RefinesReference sampleRegister out loaded
        ∧ (∀ row ∈ ((applyPlan (testkitIds sampleRegister samplePlan) samplePlan
            (Moment.at 1)).leaves sampleTables).schools,
          row.successorId
            = (successors row.id).or ((sampleTables.schoolRow row.id).bind (·.successorId)))
        ∧ ((applyPlan (testkitIds sampleRegister samplePlan) samplePlan (Moment.at 1)).leaves
            sampleTables).Constraints
        ∧ ((applyPlan (testkitIds sampleRegister samplePlan) samplePlan (Moment.at 1)).leaves
            sampleTables).NumbersStand
        ∧ SlugSafe loaded := by
  have stand : sampleTables.NumbersStand := by
    unfold RegisterTables.NumbersStand
    decide +kernel
  have earlier : sampleTables.WrittenBefore (Moment.at 1).now :=
    ⟨by decide, by decide, by decide, by decide⟩
  have planned : planWith sampleRegister sampleInputs .enforce = some (.apply samplePlan) := by
    decide +kernel
  obtain ⟨applied, commits⟩ := leaves_commits
    (show ((applyPlan (testkitIds sampleRegister samplePlan) samplePlan (Moment.at 1)).run
      sampleTables).toBool = true by decide +kernel)
  exact applyPlan_refines sampleTables_constraints stand sampleTables_load
    sampleRegister_store.slugSafe earlier planned (by decide) (by decide) (testkitIds_fresh _ _)
    (testkitIds_covers _ _) commits

end

end FauPortalen.Register

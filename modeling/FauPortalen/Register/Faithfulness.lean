import FauPortalen.Register.Conservation
import FauPortalen.Register.Sync.Convergence

/-! Faithfulness to the sources: after an applied plan every school that its unit may change
is as NSR has it, and every municipality that Kartverket may change is as Kartverket has it.
The plan compares before it writes, so the argument is that what it leaves alone was right.
-/

set_option linter.unusedSectionVars false

namespace FauPortalen.Register

open FauPortalen.Foundations

variable {Id : Type} [LinearOrder Id]

-----------------------------------------------------------------------------------------
-- Rows as the sources have them

/-- The display name of a school after its register name became this one, given the row it
had: a new register name is displayed unless the display name is curated.
-/
def displayNameAfter (before : Option (SchoolSnapshot Id)) (registerName : String) : String :=
  match before with
  | some s =>
      if s.registerName ≠ some registerName ∧ s.displayNameCurated = false then registerName
      else s.displayName
  | none => registerName

/-- The school is as its unit has it, in the municipality of this reference. -/
structure SchoolSnapshot.MatchesUnit (row : SchoolSnapshot Id) (unit : NsrUnit) (r : Ref Id)
    (ids : NewIds Id) (snapshot : RegisterSnapshot Id) : Prop where
  registerName : row.registerName = some unit.name
  attributes : row.attributes = .fromUnit unit
  municipality : ids.municipalityId r = some row.municipalityId
  displayName : row.displayName
    = displayNameAfter (findRow SchoolSnapshot.id row.id snapshot.schools) unit.name

/-- The municipality is as its record has it. -/
structure MunicipalitySnapshot.MatchesRecord (row : MunicipalitySnapshot Id)
    (r : MunicipalityRecord) : Prop where
  name : row.name = r.norwegianName
  officialName : row.officialName = some r.officialName
  countyNumber : row.countyNumber = r.countyNumber
  countyName : row.countyName = r.countyName
  names : row.names.Perm r.names

/-- The register follows its sources wherever the run may change it: in schools with an
active unit in scope, whose number resolves, outside the blocked municipalities; and in
municipalities from Kartverket that it lists under an unblocked number and a sluggable name.
-/
structure FollowsSources [OsloZone] [UnicodeData] (ids : NewIds Id)
    (snapshot after : RegisterSnapshot Id) (inputs : SyncInputs) (state : MunicipalityState Id)
    : Prop where
  schools : ∀ row ∈ after.schools, row.status = .active →
    (row.verification = .listed ∨ row.verification = .verified) →
    row.municipalityId ∉ state.blockedIds →
    ∀ unit, unitOf? inputs.units row = some unit → unit.isActive = true →
    effectiveInScope unit.classified row.scopeOverride = true →
    ∀ r, state.resolve unit.municipalityNumber = .municipality r →
    row.MatchesUnit unit r ids snapshot
  municipalities : ∀ row ∈ after.municipalities, row.status = .active →
    row.source = .kartverket → row.number ∉ state.blockedNumbers →
    ∀ r ∈ inputs.municipalities, r.number = row.number →
    (∃ slug, municipalitySlug r.number r.norwegianName = .ok slug) →
    row.MatchesRecord r

-----------------------------------------------------------------------------------------
-- Municipalities

/-- A row of Kartverket's that compares equal to a record with a sluggable name is as the
record has it.
-/
theorem compareRecord_matches [UnicodeData] {row : MunicipalitySnapshot Id}
    {r : MunicipalityRecord} (sourced : row.source = .kartverket) {slug : String}
    (sluggable : municipalitySlug r.number r.norwegianName = .ok slug)
    (same : (compareRecord (.ofRow row) row.id r).1 = [])
    : row.MatchesRecord r := by
  have working : Working.ofRow row = ⟨row, row.number, row.name, row.slug⟩ := rfl
  have name : row.name = r.norwegianName := by
    by_contra renames
    simp [compareRecord, working, sourced, Ne.symm renames, sluggable] at same
  have details : detailsDiffer row r = false := by
    cases differs : detailsDiffer row r with
    | false => rfl
    | true => simp [compareRecord, working, sourced, name, differs] at same
  simp only [detailsDiffer, Bool.or_eq_false_iff, decide_eq_false_iff_not, not_not] at details
  obtain ⟨⟨⟨officialName, countyNumber⟩, countyName⟩, names⟩ := details
  refine ⟨name, officialName, countyNumber, countyName, ?_⟩
  have sorted (names : List OfficialName) : (sortedNames names).Perm names :=
    List.perm_insertionSort _ _
  exact (sorted row.names).symm.trans (names ▸ sorted r.names)

section

variable [OsloZone] [UnicodeData] {ids : NewIds Id} {snapshot after : RegisterSnapshot Id}
  {inputs : SyncInputs} {steps : MunicipalityPlan Id × SchoolPlan Id} {unit : NsrUnit}

namespace AppliedPlan

variable (applied : AppliedPlan ids snapshot after inputs steps)
include applied

/-- A municipality that the record loop may change settled to its record. -/
theorem matchesRecord {row : MunicipalitySnapshot Id} (member : row ∈ after.municipalities)
    (active : row.status = .active) (sourced : row.source = .kartverket)
    (unblocked : row.number ∉ steps.1.state.blockedNumbers) {r : MunicipalityRecord}
    (listed : r ∈ inputs.municipalities) (number : r.number = row.number) {slug : String}
    (sluggable : municipalitySlug r.number r.norwegianName = .ok slug)
    : row.MatchesRecord r := by
  have tracks := applied.settles.tracks
  rw [applied.municipalities] at member
  cases applied.settles.settled r listed with
  | blocked blocked => exact absurd (number ▸ blocked) unblocked
  | held held present current at_number same =>
      obtain rfl := tracks.row_of_number present member current active
        (at_number.trans number)
      exact compareRecord_matches sourced sluggable same
  | absent _ vacant =>
      obtain ⟨r', found, _⟩ := tracks.found row member active
      rw [← number, vacant] at found
      cases found

-----------------------------------------------------------------------------------------
-- Schools

/-- The municipality that a unit's number resolves to has an id. -/
theorem resolved_named {number : String} {r : Ref Id}
    (resolved : steps.1.state.resolve number = .municipality r)
    : (ids.municipalityId r).isSome := by
  obtain ⟨row, _, _, _, named⟩ :=
    applied.settles.tracks.holder number r (resolve_eq_municipality.mp resolved).2
  exact Option.isSome_iff_exists.mpr ⟨row.id, named⟩

variable (store : StoreConstraints snapshot) (planned : planSteps snapshot inputs = some steps)
include store planned

/-- A school of the snapshot that the run may change is as its unit has it. An ignored or
skipped school is as it was, so it was untracked or blocked before as well.
-/
theorem matchesUnit_of_old {s : SchoolSnapshot Id} (known : s ∈ snapshot.schools)
    (inside : unit ∈ normaliseUnits inputs.units) (orgnr : s.orgnr = some unit.orgnr)
    {row : SchoolSnapshot Id} (changed : changeAll (SchoolOp.onRow ids) steps.2.ops s = row)
    (tracked : row.isTracked = true)
    (unblocked : row.municipalityId ∉ steps.1.state.blockedIds)
    (stays : unitLeaves unit row = false) {r : Ref Id}
    (resolved : steps.1.state.resolve unit.municipalityNumber = .municipality r)
    : row.MatchesUnit unit r ids snapshot := by
  obtain ⟨_, distinct, draft, makes⟩ := planSteps_draft store planned
  have fated : fate snapshot steps.1.state inputs.moment unit
      = schoolFate steps.1.state inputs.moment unit s := fate_of_school store known orgnr
  have idle (still : ∀ t, (fate snapshot steps.1.state inputs.moment unit).school? ≠ some t)
      : s = row := by
    rw [← changed]
    exact (makes.changeAll_idle store distinct inside known orgnr ids
      fun t acts => absurd acts (still t)).symm
  have trackedBefore : s.isTracked = true := by
    by_contra untracked
    have same := idle fun t acts => by
      rw [fated, schoolFate, if_pos (by simpa using untracked)] at acts
      cases acts
    exact untracked (same ▸ tracked)
  have unblockedBefore : s.municipalityId ∉ steps.1.state.blockedIds := by
    intro blocked
    have same := idle fun t acts => by
      rw [fated, schoolFate, if_neg (by simp [trackedBefore]), if_pos blocked] at acts
      cases acts
    exact unblocked (same ▸ blocked)
  have staysBefore : unitLeaves unit s = false := by
    rw [← stays, unitLeaves, unitLeaves, ← changed, changeAll_school_scopeOverride]
  have updates : fate snapshot steps.1.state inputs.moment unit = .update s r := by
    rw [fated, schoolFate_of_tracked trackedBefore unblockedBefore, if_neg (by simp [staysBefore]),
      resolved]
    rfl
  obtain ⟨follows, displayName⟩ := makes.changeAll_update store distinct inside known orgnr
    updates (applied.resolved_named resolved)
  have own : findRow SchoolSnapshot.id row.id snapshot.schools = some s := by
    refine (findRow_eq_some store.schoolIds).mpr ⟨known, ?_⟩
    rw [← changed, changeAll_school_id]
  rw [changed] at follows displayName
  refine ⟨follows.registerName, follows.attributes, follows.municipality, ?_⟩
  rw [displayName, own, displayNameAfter, Update.displayName]
  simp [Update.isRenamed]

/-- A school the plan creates is as its unit has it. -/
theorem matchesUnit_of_new (fresh : ids.Fresh snapshot) {row : SchoolSnapshot Id}
    (created : row ∈ steps.2.ops.flatMap (SchoolOp.rows ids))
    (inside : unit ∈ normaliseUnits inputs.units) (orgnr : row.orgnr = some unit.orgnr)
    {r : Ref Id} (resolved : steps.1.state.resolve unit.municipalityNumber = .municipality r)
    : row.MatchesUnit unit r ids snapshot := by
  obtain ⟨_, distinct, draft, makes⟩ := planSteps_draft store planned
  obtain ⟨p, present, m, minted, named, same⟩ := makes.mem_created created
  obtain ⟨own, candidate⟩ := SchoolDraft.Sorts.candidate ⟨makes.creates, makes.updates⟩ present
  obtain ⟨_, _, _, found⟩ := fate_candidate candidate
  have unseen : findRow SchoolSnapshot.id row.id snapshot.schools = none := by
    cases before : findRow SchoolSnapshot.id row.id snapshot.schools with
    | none => rfl
    | some s =>
        obtain ⟨known, id⟩ := (findRow_eq_some store.schoolIds).mp before
        exact absurd (List.mem_map.mpr ⟨s, known, id⟩) (fresh.school _ _ minted)
  have one : p.candidate.unit = unit := by
    rw [same] at orgnr
    exact List.inj_on_of_nodup_map distinct own inside (Option.some.inj orgnr)
  rw [← one, found] at resolved
  cases resolved
  rw [← one]
  refine ⟨?_, ?_, ?_, ?_⟩
  · rw [same]
    rfl
  · rw [same]
    rfl
  · rw [same]
    exact named
  · rw [unseen, displayNameAfter, same]
    rfl

/-- An applied plan leaves a register that follows its sources. -/
theorem followsSources (fresh : ids.Fresh snapshot)
    : FollowsSources ids snapshot after inputs steps.1.state := by
  refine ⟨?_, fun row member active sourced unblocked r listed number ⟨_, sluggable⟩ =>
    applied.matchesRecord member active sourced unblocked listed number sluggable⟩
  intro row member active verified unblocked unit found isActive inScope r resolved
  rw [← unitOf?_normaliseUnits] at found
  obtain ⟨inside, orgnr⟩ := unitOf?_eq_some found
  have tracked : row.isTracked = true := SchoolSnapshot.isTracked_iff.mpr ⟨active, verified⟩
  have stays : unitLeaves unit row = false := by
    simp [unitLeaves, isActive, inScope]
  rw [applied.schools] at member
  rcases List.mem_append.mp member with old | new
  · obtain ⟨s, known, changed⟩ := List.mem_map.mp old
    have same : s.orgnr = some unit.orgnr := by
      rw [← orgnr, ← changed, changeAll_school_orgnr]
    exact applied.matchesUnit_of_old store planned known inside same changed tracked unblocked
      stays resolved
  · exact applied.matchesUnit_of_new store planned fresh new inside orgnr resolved

end AppliedPlan

end

section

variable [OsloZone] [UnicodeData] {snapshot after : RegisterSnapshot Nat} {inputs : SyncInputs}
  {p : SyncPlan Nat}

/-- After an applied plan the register follows its sources. -/
theorem plan_faithful (store : StoreConstraints snapshot)
    (distinct : (inputs.municipalities.map MunicipalityRecord.number).Nodup)
    {municipalities : MunicipalityPlan Nat}
    (first : planMunicipalities snapshot inputs.normalised = some municipalities)
    (planned : plan snapshot inputs = some (.apply p)) {successors : Lookup Nat Nat}
    (applied : apply snapshot p = some (after, successors))
    : FollowsSources (testkitIds snapshot p) snapshot after inputs municipalities.state := by
  obtain ⟨_, steps, stepped, rfl⟩ := planWith_apply planned
  obtain ⟨first', _⟩ := planSteps_draft store stepped
  cases first.symm.trans first'
  have fresh := testkitIds_fresh snapshot (assemble snapshot steps)
  have covers := testkitIds_covers snapshot (assemble snapshot steps)
  exact (planSteps_appliedPlan store stepped distinct fresh covers applied).followsSources store
    stepped fresh

end

section

attribute [local instance] OsloZone.atEpoch UnicodeData.ascii

/-- The sample run leaves its schools and its municipality as the sources have them. -/
theorem samplePlan_faithful
    : ∃ municipalities : MunicipalityPlan Nat,
        planMunicipalities sampleRegister sampleInputs.normalised = some municipalities
        ∧ ∃ after successors, apply sampleRegister samplePlan = some (after, successors)
          ∧ FollowsSources (testkitIds sampleRegister samplePlan) sampleRegister after
            sampleInputs municipalities.state := by
  have planned : plan sampleRegister sampleInputs = some (.apply samplePlan) := by
    decide +kernel
  obtain ⟨municipalities, _, first, _⟩ :=
    planMunicipalities_named sampleRegister_store.rowKeys sampleInputs.normalised
  obtain ⟨after, successors, applied⟩ := samplePlan_applied
  exact ⟨municipalities, first, after, successors, applied,
    plan_faithful sampleRegister_store (by decide) first planned applied⟩

end

end FauPortalen.Register

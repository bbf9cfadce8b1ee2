import FauPortalen.Register.Sync.FollowedUnits
import FauPortalen.Register.Sync.Reregistrations

/-! The reference applier resolves every successor of a plan: the new row stands, listed, in the
closed school's municipality.
-/

set_option linter.unusedSectionVars false

namespace FauPortalen.Register

open FauPortalen.Foundations

variable {Id : Type} [LinearOrder Id] {ids : NewIds Id} {snapshot base out : RegisterSnapshot Id}

/-- The links from closed schools to their successors, in the order of the closures. -/
def successorLinks (ids : NewIds Id) (ops : List (SchoolOp Id)) : List (Id × Id) :=
  (ops.filterMap pendingSuccessor?).filterMap fun pending =>
    (ids.schoolId pending.2).map fun successor => (pending.1, successor)

/-- A run that passes its checks is a run. -/
theorem foldlM_checked {ω : Type} {step : RegisterSnapshot Id → ω → Option (RegisterSnapshot Id)}
    {ops : List ω} {first last : RegisterSnapshot Id}
    (run : ops.foldlM (fun out op => do checked (← step out op)) first = some last)
    : ops.foldlM step first = some last := by
  induction ops generalizing first with
  | nil => exact run
  | cons op rest ih =>
      obtain ⟨middle, stepped, later⟩ := foldlM_cons_eq_some.mp run
      simp only [Option.bind_eq_bind, Option.bind_eq_some_iff, checked] at stepped
      obtain ⟨reached, applied, same⟩ := stepped
      split at same
      · cases same
        exact foldlM_cons_eq_some.mpr ⟨_, applied, ih later⟩
      · cases same

section

variable [OsloZone] [UnicodeData] {inputs : SyncInputs}
  {steps : MunicipalityPlan Id × SchoolPlan Id} (keys : RowKeys snapshot)
  (planned : planSteps snapshot inputs = some steps) (fresh : ids.Fresh snapshot)
include keys planned fresh

/-- The schools after a plan's operations. -/
theorem planSteps_schools (first : applyMunicipalityOps ids snapshot steps.1.ops = some base)
    (second : applySchoolOps ids base steps.2.ops = some out)
    : out.schools = snapshot.schools.map (changeAll (SchoolOp.onRow ids) steps.2.ops)
        ++ steps.2.ops.flatMap (SchoolOp.rows ids)
      ∧ (out.schools.map (·.id)).Nodup := by
  obtain ⟨municipalityNumbers, schoolNumbers⟩ := planSteps_numbers keys planned
  obtain ⟨_, schools, _⟩ := applyMunicipalityOps_table
    (nodup_municipality_ids keys fresh municipalityNumbers) first
  have apart := nodup_school_ids keys fresh schoolNumbers
  obtain ⟨table, _⟩ := applySchoolOps_table (schools ▸ apart) second
  have same : out.schools = snapshot.schools.map (changeAll (SchoolOp.onRow ids) steps.2.ops)
      ++ steps.2.ops.flatMap (SchoolOp.rows ids) := by
    rw [table, schools, tableAfterSchoolOps]
    refine foldl_growTable fun op _ row created other member => ?_
    refine SchoolOp.onRow_of_ne fun target => ?_
    obtain ⟨s, known, e, _⟩ := planSteps_targets planned member target
    obtain ⟨n, _, named⟩ := SchoolOp.mem_rows created
    exact fresh.school n _ named (e ▸ List.mem_map_of_mem known)
  refine ⟨same, ?_⟩
  rw [same, List.map_append, List.map_map]
  have kept : snapshot.schools.map
        ((·.id) ∘ changeAll (SchoolOp.onRow ids) steps.2.ops)
      = snapshot.schools.map (·.id) :=
    List.map_congr_left fun s _ => changeAll_school_id ids steps.2.ops s
  rwa [kept]

/-- A closure's successor resolves. -/
theorem planSteps_resolveSuccessor
    (first : applyMunicipalityOps ids snapshot steps.1.ops = some base)
    (second : applySchoolOps ids base steps.2.ops = some out) {closed : Id} {successor : Ref Id}
    (pending : (closed, successor) ∈ steps.2.ops.filterMap pendingSuccessor?)
    (covered : (ids.schoolId successor).isSome)
    : resolveSuccessor ids out closed successor
      = (ids.schoolId successor).map fun id => (closed, id) := by
  obtain ⟨op, member, found⟩ := List.mem_filterMap.mp pending
  obtain ⟨reason, closedOn, rfl⟩ : ∃ reason closedOn,
      op = .close closed reason closedOn (some successor) := by
    unfold pendingSuccessor? at found
    split at found
    · cases found
      exact ⟨_, _, rfl⟩
    · cases found
  obtain ⟨table, unique⟩ := planSteps_schools keys planned fresh first second
  obtain ⟨_, distinct, draft, outlines⟩ := planSteps_outline planned
  obtain ⟨_, number, c, slug, rfl, _, once, school, known, rfl, home, _⟩ :=
    outlines.handsOver (p := assemble snapshot steps) rfl member
  obtain ⟨id, named⟩ := Option.isSome_iff_exists.mp covered
  -- the closed school meets its closure alone
  have kept : (changeAll (SchoolOp.onRow ids) steps.2.ops school).municipalityId
      = school.municipalityId := by
    rw [changeAll_school_filter]
    obtain ⟨d, inside, own⟩ : ∃ d ∈ (placedUnits snapshot (sortUnits snapshot steps.1.state
        inputs.moment (normaliseUnits inputs.units))).closings, d.school.id = school.id := by
      rcases outlines.mem_ops.mp member with ⟨d, inside, same⟩ | ⟨_, _, same⟩ | ⟨_, _, own⟩
      · exact ⟨d, inside, Option.some.inj (congrArg SchoolOp.target? same)⟩
      · cases same
      · rcases PlannedUpdate.mem_ops.mp own with ⟨_, same⟩ | ⟨_, same⟩ | ⟨_, same⟩ <;> cases same
    have alone := outlines.filter_closing keys distinct inside
    rw [own] at alone
    rw [alone]
    change ((closeOp d).onRow ids school).municipalityId = _
    unfold SchoolOp.onRow
    split <;> rfl
  have closed_row : schoolRef out school.id
      = some (changeAll (SchoolOp.onRow ids) steps.2.ops school) := by
    refine (findRow_eq_some unique).mpr ⟨?_, changeAll_school_id ids _ school⟩
    rw [table]
    exact List.mem_append_left _ (List.mem_map_of_mem known)
  let row := createdSchool id school.municipalityId c.unit.orgnr c.unit.name c.unit.name slug
    .listed true (SchoolAttributes.fromUnit c.unit)
  have new_row : schoolRef out id = some row := by
    refine (findRow_eq_some unique).mpr ⟨?_, rfl⟩
    have creation : c.created number .listed slug ∈ steps.2.ops :=
      List.mem_of_mem_filter
        (show _ ∈ steps.2.ops.filter (createdSchool? · = some number) from
          once ▸ List.mem_singleton_self _)
    rw [table]
    refine List.mem_append_right _ (List.mem_flatMap.mpr ⟨_, creation, ?_⟩)
    have resolved : ids.school number = some id := named
    have located : ids.municipalityId c.municipality = some school.municipalityId := by
      rw [home]
      rfl
    simp [Candidate.created, SchoolOp.rows, resolved, located, row]
  simp only [resolveSuccessor, named, closed_row, new_row, Option.bind_eq_bind, Option.bind_some]
  simp [row, createdSchool, CreateVerification.toVerification, kept]

/-- The reference applier resolves the successors to the links. -/
theorem planSteps_resolveSuccessors
    (first : applyMunicipalityOps ids snapshot steps.1.ops = some base)
    (second : applySchoolOps ids base steps.2.ops = some out)
    (covered : ∀ pending ∈ steps.2.ops.filterMap pendingSuccessor?,
      (ids.schoolId pending.2).isSome)
    : resolveSuccessors ids out steps.2.ops
      = some (Lookup.ofPairs (successorLinks ids steps.2.ops)) := by
  unfold resolveSuccessors
  rw [mapM_eq_filterMap (g := fun pending : Id × Ref Id =>
    (ids.schoolId pending.2).map fun id => (pending.1, id))]
  · rfl
  · intro pending member
    refine ⟨planSteps_resolveSuccessor keys planned fresh first second member
      (covered pending member), ?_⟩
    simpa using covered pending member

end

end FauPortalen.Register

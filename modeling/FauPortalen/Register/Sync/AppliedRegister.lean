import FauPortalen.Register.Sync.PlanTargets

/-! The register after a plan: every row of the snapshot as the operations on it leave it,
and the rows the plan creates.
-/

set_option linter.unusedSectionVars false

namespace FauPortalen.Register

open FauPortalen.Foundations

variable {Id : Type} [LinearOrder Id] {ids : NewIds Id}
  {snapshot out after : RegisterSnapshot Id}

-----------------------------------------------------------------------------------------
-- The tables after a run of operations

/-- The municipalities after operations. -/
def tableAfterMunicipalityOps (ids : NewIds Id) (ops : List (MunicipalityOp Id))
    (table : List (MunicipalitySnapshot Id)) : List (MunicipalitySnapshot Id) :=
  ops.foldl (growTable MunicipalityOp.onRow (MunicipalityOp.rows ids)) table

/-- The schools after operations. -/
def tableAfterSchoolOps (ids : NewIds Id) (ops : List (SchoolOp Id))
    (table : List (SchoolSnapshot Id)) : List (SchoolSnapshot Id) :=
  ops.foldl (growTable (SchoolOp.onRow ids) (SchoolOp.rows ids)) table

/-- Municipality operations change the municipalities alone, as their tables do. -/
theorem applyMunicipalityOps_table {ops : List (MunicipalityOp Id)}
    (apart : (out.municipalities.map (·.id)
      ++ (ops.flatMap (MunicipalityOp.rows ids)).map (·.id)).Nodup)
    (run : applyMunicipalityOps ids out ops = some after)
    : after.municipalities = tableAfterMunicipalityOps ids ops out.municipalities
      ∧ after.schools = out.schools
      ∧ after.schoolOrgnrHistory = out.schoolOrgnrHistory
      ∧ after.schoolSlugHistory = out.schoolSlugHistory := by
  induction ops generalizing out with
  | nil =>
      cases run
      exact ⟨rfl, rfl, rfl, rfl⟩
  | cons op rest ih =>
      obtain ⟨middle, stepped, later⟩ := foldlM_cons_eq_some.mp run
      obtain ⟨rfl, _⟩ := applyMunicipalityOp_inv (List.nodup_append.mp apart).1 stepped
      refine ih ?_ later
      rwa [MunicipalityOp.result_ids, List.append_assoc, ← List.map_append,
        ← List.flatMap_cons]

theorem SchoolOp.result_ids (op : SchoolOp Id)
    : (op.result ids out).schools.map (·.id)
      = out.schools.map (·.id) ++ (op.rows ids).map (·.id) := by
  simp [SchoolOp.result, Function.comp_def]

/-- School operations change the schools and their slug history, as their table does. -/
theorem applySchoolOps_table {ops : List (SchoolOp Id)}
    (apart : (out.schools.map (·.id) ++ (ops.flatMap (SchoolOp.rows ids)).map (·.id)).Nodup)
    (run : applySchoolOps ids out ops = some after)
    : after.schools = tableAfterSchoolOps ids ops out.schools
      ∧ after.municipalities = out.municipalities
      ∧ after.schoolOrgnrHistory = out.schoolOrgnrHistory := by
  induction ops generalizing out with
  | nil =>
      cases run
      exact ⟨rfl, rfl, rfl⟩
  | cons op rest ih =>
      obtain ⟨middle, stepped, later⟩ := foldlM_cons_eq_some.mp run
      obtain ⟨rfl, _⟩ := applySchoolOp_inv (List.nodup_append.mp apart).1 stepped
      refine ih ?_ later
      rwa [SchoolOp.result_ids, List.append_assoc, ← List.map_append, ← List.flatMap_cons]

/-- The id of a created school is the one its number has. -/
theorem SchoolOp.mem_rows {op : SchoolOp Id} {row : SchoolSnapshot Id}
    (member : row ∈ op.rows ids)
    : ∃ n, createdSchool? op = some n ∧ ids.school n = some row.id := by
  cases op with
  | create new municipality =>
      simp only [SchoolOp.rows] at member
      split at member
      · next id _ hid _ =>
          cases List.mem_singleton.mp member
          exact ⟨new, rfl, hid⟩
      · cases member
  | _ => cases member

theorem SchoolOp.rows_length_le (ids : NewIds Id) (op : SchoolOp Id)
    : (op.rows ids).length ≤ 1 := by
  cases op with
  | create new municipality =>
      simp only [SchoolOp.rows]
      split <;> simp
  | _ => simp [SchoolOp.rows]

theorem pairwise_of_length_le_one {ρ : Type} {R : ρ → ρ → Prop}
    : ∀ {rows : List ρ}, rows.length ≤ 1 → rows.Pairwise R
  | [], _ => List.Pairwise.nil
  | [_], _ => List.pairwise_singleton _ _

/-- Rows of ids from distinct numbers have distinct ids. -/
private theorem nodup_new_ids {ω ρ : Type} {rows : ω → List ρ} {key : ρ → Id}
    {created? : ω → Option Nat} {name : Nat → Option Id} {ops : List ω}
    (short : ∀ op, (rows op).length ≤ 1)
    (named : ∀ op, ∀ row ∈ rows op, ∃ n, created? op = some n ∧ name n = some (key row))
    (injective : ∀ m n id, name m = some id → name n = some id → m = n)
    (numbers : (ops.filterMap created?).Nodup)
    : ((ops.flatMap rows).map key).Nodup := by
  refine List.pairwise_map.mpr (List.pairwise_flatMap.mpr ⟨fun op _ => ?_, ?_⟩)
  · exact pairwise_of_length_le_one (short op)
  · refine (List.pairwise_filterMap.mp numbers).imp fun differ a ha b hb same => ?_
    obtain ⟨m, first, hm⟩ := named _ a ha
    obtain ⟨n, second, hn⟩ := named _ b hb
    exact differ m first n second (injective m n _ hm (same ▸ hn))

/-- The municipalities a plan creates have ids apart from those there are. -/
theorem nodup_municipality_ids {ops : List (MunicipalityOp Id)}
    (keys : RowKeys snapshot) (fresh : ids.Fresh snapshot)
    (numbers : (ops.filterMap createdMunicipality?).Nodup)
    : (snapshot.municipalities.map (·.id)
        ++ (ops.flatMap (MunicipalityOp.rows ids)).map (·.id)).Nodup := by
  refine List.nodup_append.mpr ⟨keys.municipalityIds, ?_, ?_⟩
  · exact nodup_new_ids (MunicipalityOp.rows_length_le ids)
      (fun _ _ member => MunicipalityOp.mem_rows member) fresh.municipalityInjective numbers
  · intro id old id' new same
    obtain ⟨row, member, rfl⟩ := List.mem_map.mp new
    obtain ⟨op, _, inside⟩ := List.mem_flatMap.mp member
    obtain ⟨n, _, named⟩ := MunicipalityOp.mem_rows inside
    exact fresh.municipality n _ named (same ▸ old)

/-- The schools a plan creates have ids apart from those there are. -/
theorem nodup_school_ids {ops : List (SchoolOp Id)}
    (keys : RowKeys snapshot) (fresh : ids.Fresh snapshot)
    (numbers : (ops.filterMap createdSchool?).Nodup)
    : (snapshot.schools.map (·.id)
        ++ (ops.flatMap (SchoolOp.rows ids)).map (·.id)).Nodup := by
  refine List.nodup_append.mpr ⟨keys.schoolIds, ?_, ?_⟩
  · exact nodup_new_ids (SchoolOp.rows_length_le ids)
      (fun _ _ member => SchoolOp.mem_rows member) fresh.schoolInjective numbers
  · intro id old id' new same
    obtain ⟨row, member, rfl⟩ := List.mem_map.mp new
    obtain ⟨op, _, inside⟩ := List.mem_flatMap.mp member
    obtain ⟨n, _, named⟩ := SchoolOp.mem_rows inside
    exact fresh.school n _ named (same ▸ old)

-----------------------------------------------------------------------------------------
-- The register after a plan

/-- The applied register: the tables after the operations, and the histories of numbers as
they were.
-/
structure Applied (ids : NewIds Id) (snapshot after : RegisterSnapshot Id)
    (municipalityOps : List (MunicipalityOp Id)) (schoolOps : List (SchoolOp Id)) : Prop where
  municipalities : after.municipalities
    = tableAfterMunicipalityOps ids municipalityOps snapshot.municipalities
  schools : after.schools = snapshot.schools.map (changeAll (SchoolOp.onRow ids) schoolOps)
    ++ schoolOps.flatMap (SchoolOp.rows ids)
  orgnrHistory : after.schoolOrgnrHistory = snapshot.schoolOrgnrHistory

/-- The testkit's steps only add checks to the operations. -/
theorem applyWith_parts {p : SyncPlan Id} {successors : Lookup Id Id}
    (applied : applyWith ids snapshot p = some (after, successors))
    : ∃ base, applyMunicipalityOps ids snapshot p.municipalityOps = some base
        ∧ applySchoolOps ids base p.schoolOps = some after
        ∧ resolveSuccessors ids after p.schoolOps = some successors := by
  have unchecked {ω : Type} {step : RegisterSnapshot Id → ω → Option (RegisterSnapshot Id)}
      {ops : List ω} {before last : RegisterSnapshot Id}
      (run : ops.foldlM (fun out op => do checked (← step out op)) before = some last)
      : ops.foldlM step before = some last := by
    induction ops generalizing before with
    | nil => exact run
    | cons op rest ih =>
        obtain ⟨middle, stepped, later⟩ := foldlM_cons_eq_some.mp run
        simp only [Option.bind_eq_bind, Option.bind_eq_some_iff, checked] at stepped
        obtain ⟨reached, first, same⟩ := stepped
        split at same
        · cases same
          exact foldlM_cons_eq_some.mpr ⟨_, first, ih later⟩
        · cases same
  simp only [applyWith, Option.bind_eq_bind, Option.bind_eq_some_iff] at applied
  obtain ⟨base, first, last, second, found, third, same⟩ := applied
  cases same
  exact ⟨base, unchecked first, unchecked second, third⟩

section

variable [OsloZone] [UnicodeData] {inputs : SyncInputs}
  {steps : MunicipalityPlan Id × SchoolPlan Id}

/-- The operations of a plan number their new rows apart. -/
theorem planSteps_numbers (keys : RowKeys snapshot)
    (planned : planSteps snapshot inputs = some steps)
    : (steps.1.ops.filterMap createdMunicipality?).Nodup
      ∧ (steps.2.ops.filterMap createdSchool?).Nodup := by
  obtain ⟨first, _, draft, outlines⟩ := planSteps_outline planned
  obtain ⟨plan, created, first', named, _⟩ := planMunicipalities_named keys inputs.normalised
  cases first.symm.trans first'
  refine ⟨named.creates ▸ List.nodup_range, ?_⟩
  have closings : ((placedUnits snapshot (sortUnits snapshot steps.1.state inputs.moment
      (normaliseUnits inputs.units))).closings.map closeOp).filterMap createdSchool? = [] := by
    refine List.filterMap_eq_nil_iff.mpr fun op member => ?_
    obtain ⟨c, _, rfl⟩ := List.mem_map.mp member
    rfl
  rw [outlines.ops, List.filterMap_append, closings, List.nil_append, draft.createdNumbers,
    SchoolDraft.Sorts.numbers ⟨outlines.creates, outlines.updates⟩]
  exact List.nodup_range

/-- The schools a plan changes are the snapshot's. -/
theorem planSteps_targets (planned : planSteps snapshot inputs = some steps)
    {op : SchoolOp Id} (member : op ∈ steps.2.ops) {id : Id}
    (target : op.target? = some id)
    : ∃ s ∈ snapshot.schools, s.id = id ∧ s.isTracked = true := by
  obtain ⟨_, _, draft, outlines⟩ := planSteps_outline planned
  rcases outlines.mem_ops.mp member with ⟨c, inside, rfl⟩ | ⟨p, _, rfl⟩ | ⟨p, inside, own⟩
  · cases target
    have same := List.mem_map_of_mem (f := fun c => c.school) inside
    rw [show (placedUnits snapshot _).closings.map (fun c => c.school) = _ from
      placeAll_closings snapshot] at same
    obtain ⟨d, hd, e⟩ := List.mem_map.mp same
    obtain ⟨known, tracked⟩ := closing_member hd
    exact ⟨d.school, known, congrArg SchoolSnapshot.id e, tracked⟩
  · cases target
  · obtain ⟨known, tracked⟩ :=
      SchoolDraft.Sorts.school ⟨outlines.creates, outlines.updates⟩ inside
    exact ⟨p.update.school, known,
      Option.some.inj ((PlannedUpdate.target own).symm.trans target), tracked⟩

/-- An applied plan leaves the described register, and its slugs are safe. -/
theorem planSteps_applied (store : StoreConstraints snapshot)
    (planned : planSteps snapshot inputs = some steps) (fresh : ids.Fresh snapshot)
    (covers : ids.Covers (assemble snapshot steps)) {successors : Lookup Id Id}
    (applied : applyWith ids snapshot (assemble snapshot steps) = some (after, successors))
    : Applied ids snapshot after steps.1.ops steps.2.ops ∧ SlugSafe after := by
  obtain ⟨base, first, second, _⟩ := applyWith_parts applied
  obtain ⟨municipalityNumbers, schoolNumbers⟩ := planSteps_numbers store.rowKeys planned
  obtain ⟨municipalities, schools, orgnrs, _⟩ := applyMunicipalityOps_table
    (nodup_municipality_ids store.rowKeys fresh municipalityNumbers) first
  obtain ⟨table, same, orgnrs'⟩ := applySchoolOps_table
    (schools ▸ nodup_school_ids store.rowKeys fresh schoolNumbers) second
  refine ⟨⟨same.trans municipalities, ?_, orgnrs'.trans orgnrs⟩, ?_⟩
  · rw [table, schools, tableAfterSchoolOps]
    refine foldl_growTable fun op _ row created other member => ?_
    refine SchoolOp.onRow_of_ne fun target => ?_
    obtain ⟨s, known, e, _⟩ := planSteps_targets planned member target
    obtain ⟨n, _, named⟩ := SchoolOp.mem_rows created
    exact fresh.school n _ named (e ▸ List.mem_map_of_mem known)
  · obtain ⟨base', first', prefixes⟩ := planSteps_prefix_slugSafe store planned fresh covers
    cases first.symm.trans first'
    obtain ⟨register, run, safe⟩ := prefixes steps.2.ops.length
    rw [List.take_length] at run
    cases second.symm.trans run
    exact safe

end

end FauPortalen.Register

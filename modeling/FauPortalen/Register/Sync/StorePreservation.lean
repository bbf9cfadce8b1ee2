import FauPortalen.Register.Sync.MunicipalitySettlement

/-! An applied plan leaves a register that satisfies the store's constraints again, so that
runs can follow each other.
-/

set_option linter.unusedSectionVars false

namespace FauPortalen.Register

open FauPortalen.Foundations

variable {Id : Type} [LinearOrder Id] {ids : NewIds Id}
  {snapshot out after : RegisterSnapshot Id}

-----------------------------------------------------------------------------------------
-- References between rows

/-- Schools and slug history reference these municipalities, and the history references
schools of the register.
-/
structure Located (municipalities : List Id) (out : RegisterSnapshot Id) : Prop where
  schools : ∀ s ∈ out.schools, s.municipalityId ∈ municipalities
  history : ∀ entry ∈ out.schoolSlugHistory,
    entry.1 ∈ municipalities ∧ entry.2.2 ∈ out.schools.map (·.id)

/-- The municipalities an operation names are among these. -/
def SchoolOp.Located (ids : NewIds Id) (municipalities : List Id) : SchoolOp Id → Prop
  | .create _ municipality .. =>
      ∀ m, ids.municipalityId municipality = some m → m ∈ municipalities
  | .move _ source target _ =>
      source ∈ municipalities ∧ ∀ m, ids.municipalityId target = some m → m ∈ municipalities
  | .close .. | .rename .. | .updateAttributes .. => True

/-- One operation keeps references. -/
theorem Located.step {municipalities : List Id} {op : SchoolOp Id}
    (h : Located municipalities out) (unique : (out.schools.map (·.id)).Nodup)
    (located : op.Located ids municipalities)
    (applied : applySchoolOp ids out op = some after)
    : Located municipalities after := by
  obtain ⟨rfl, _, resolves⟩ := applySchoolOp_inv unique applied
  refine ⟨?_, ?_⟩
  · intro row member
    rcases SchoolOp.mem_result.mp member with ⟨before, inside, rfl⟩ | created
    · by_cases target : op.target? = some before.id
      · rw [SchoolOp.onRow_of_eq target]
        cases op with
        | move id source moved slug =>
            obtain ⟨m, named⟩ := Option.isSome_iff_exists.mp resolves
            have moves : (SchoolOp.change ids (.move id source moved slug)
                before).municipalityId = m := by
              simp [SchoolOp.change, SchoolSnapshot.move, named]
            rw [moves]
            exact located.2 m named
        | close | rename | updateAttributes => exact h.schools before inside
        | create => cases target
      · rw [SchoolOp.onRow_of_ne target]
        exact h.schools before inside
    · cases op with
      | create new municipality =>
          simp only [SchoolOp.rows] at created
          split at created
          · next id m _ named =>
              cases List.mem_singleton.mp created
              exact located m named
          · cases created
      | _ => cases created
  · have kept : out.schools.map (·.id) ⊆ (op.result ids out).schools.map (·.id) := by
      rw [SchoolOp.result_ids]
      exact List.subset_append_left _ _
    intro entry member
    rcases List.mem_append.mp member with old | new
    · obtain ⟨here, owned⟩ := h.history entry old
      exact ⟨here, kept owned⟩
    · simp only [SchoolOp.written, Option.mem_toList, Option.bind_eq_some_iff] at new
      obtain ⟨row, ⟨id, target, found⟩, given⟩ := new
      obtain ⟨present, rfl⟩ := (findRow_eq_some unique).mp found
      have owned := kept (List.mem_map_of_mem present)
      cases op with
      | close id =>
          cases target
          obtain ⟨slug, _, rfl⟩ := Option.map_eq_some_iff.mp given
          exact ⟨h.schools row present, owned⟩
      | rename id =>
          cases target
          obtain ⟨slug, _, rfl⟩ := Option.map_eq_some_iff.mp given
          exact ⟨h.schools row present, owned⟩
      | move id source =>
          cases target
          obtain ⟨slug, _, rfl⟩ := Option.map_eq_some_iff.mp given
          exact ⟨located.1, owned⟩
      | create => cases target
      | updateAttributes => cases given

/-- A run of operations keeps references, by induction on the operations. -/
theorem Located.run {municipalities : List Id} {ops : List (SchoolOp Id)}
    (h : Located municipalities out)
    (apart : (out.schools.map (·.id) ++ (ops.flatMap (SchoolOp.rows ids)).map (·.id)).Nodup)
    (located : ∀ op ∈ ops, op.Located ids municipalities)
    (run : applySchoolOps ids out ops = some after)
    : Located municipalities after := by
  induction ops generalizing out with
  | nil =>
      cases run
      exact h
  | cons op rest ih =>
      obtain ⟨middle, stepped, later⟩ := foldlM_cons_eq_some.mp run
      have unique := (List.nodup_append.mp apart).1
      have next := h.step unique (located op List.mem_cons_self) stepped
      obtain ⟨rfl, _⟩ := applySchoolOp_inv unique stepped
      refine ih next ?_ (fun op' inside => located op' (List.mem_cons_of_mem _ inside)) later
      rwa [SchoolOp.result_ids, List.append_assoc, ← List.map_append, ← List.flatMap_cons]

-----------------------------------------------------------------------------------------
-- The rows after a plan

section

variable [OsloZone] [UnicodeData] {inputs : SyncInputs}
  {steps : MunicipalityPlan Id × SchoolPlan Id}

/-- The register after an applied plan, with its municipalities tracked and its references
in place.
-/
structure AppliedPlan (ids : NewIds Id) (snapshot after : RegisterSnapshot Id)
    (inputs : SyncInputs) (steps : MunicipalityPlan Id × SchoolPlan Id) : Prop
    extends Applied ids snapshot after steps.1.ops steps.2.ops where
  settles : steps.1.Settles ids snapshot inputs.normalised
  located : Located (after.municipalities.map (·.id)) after
  slugSafe : SlugSafe after

/-- The school operations name municipalities of the table after step 1. -/
theorem planSteps_located {table : List (MunicipalitySnapshot Id)}
    (store : StoreConstraints snapshot)
    (planned : planSteps snapshot inputs = some steps)
    (tracks : Tracks ids table steps.1.state.byNumber)
    (kept : snapshot.municipalities.map (·.id) ⊆ table.map (·.id))
    : ∀ op ∈ steps.2.ops, op.Located ids (table.map (·.id)) := by
  obtain ⟨_, _, draft, makes⟩ := planSteps_draft store planned
  have sorts : draft.Sorts snapshot steps.1.state inputs.moment (normaliseUnits inputs.units) :=
    ⟨makes.creates, makes.updates⟩
  have resolved {number : String} {r : Ref Id} {m : Id}
      (found : steps.1.state.resolve number = .municipality r)
      (named : ids.municipalityId r = some m) : m ∈ table.map (·.id) := by
    obtain ⟨row, inside, _, _, same⟩ :=
      tracks.holder number r (resolve_eq_municipality.mp found).2
    exact Option.some.inj (same.symm.trans named) ▸ List.mem_map_of_mem inside
  intro op member
  rcases makes.mem_ops.mp member with ⟨c, _, rfl⟩ | ⟨p, inside, rfl⟩ | ⟨p, inside, own⟩
  · trivial
  · obtain ⟨_, _, _, found⟩ := fate_candidate (sorts.candidate inside).2
    exact fun m named => resolved found named
  · obtain ⟨known, _⟩ := sorts.school inside
    obtain ⟨_, updates⟩ := mem_updates.mp (sorts.update inside)
    obtain ⟨_, found⟩ := fate_update updates
    rcases PlannedUpdate.mem_ops.mp own with ⟨_, rfl⟩ | ⟨_, rfl⟩ | ⟨_, rfl⟩
    · trivial
    · trivial
    · exact ⟨kept (store.located _ known), fun m named => resolved found named⟩

/-- Applying a plan leaves the described register. -/
theorem planSteps_appliedPlan (store : StoreConstraints snapshot)
    (planned : planSteps snapshot inputs = some steps)
    (distinct : (inputs.municipalities.map MunicipalityRecord.number).Nodup)
    (fresh : ids.Fresh snapshot) (covers : ids.Covers (assemble snapshot steps))
    {successors : Lookup Id Id}
    (applied : applyWith ids snapshot (assemble snapshot steps) = some (after, successors))
    : AppliedPlan ids snapshot after inputs steps := by
  obtain ⟨described, safe⟩ := planSteps_applied store planned fresh covers applied
  obtain ⟨first, _, _⟩ := planSteps_draft store planned
  have settles := planMunicipalities_settles store first distinct fresh covers.municipalities
  refine ⟨described, settles, ?_, safe⟩
  obtain ⟨base, first', second, _⟩ := applyWith_parts applied
  obtain ⟨municipalityNumbers, schoolNumbers⟩ := planSteps_numbers store.rowKeys planned
  have apart := nodup_municipality_ids store.rowKeys fresh municipalityNumbers
  obtain ⟨municipalities, schools, _, history⟩ := applyMunicipalityOps_table apart first'
  have kept : snapshot.municipalities.map (·.id)
      ⊆ (tableAfterMunicipalityOps ids steps.1.ops snapshot.municipalities).map (·.id) := by
    have grows (ops : List (MunicipalityOp Id)) (table : List (MunicipalitySnapshot Id))
        : table.map (·.id) ⊆ (tableAfterMunicipalityOps ids ops table).map (·.id) := by
      induction ops generalizing table with
      | nil => exact List.Subset.refl _
      | cons op rest ih =>
          refine List.Subset.trans ?_ (ih (growTable MunicipalityOp.onRow _ table op))
          simp [growTable, Function.comp_def]
    exact grows _ _
  rw [described.municipalities]
  refine Located.run ⟨?_, ?_⟩ (schools ▸ nodup_school_ids store.rowKeys fresh schoolNumbers)
    (planSteps_located store planned settles.tracks kept) second
  · rw [schools]
    exact fun s member => kept (store.located s member)
  · rw [history, schools]
    exact fun entry member =>
      ⟨kept (store.historyLocated entry member), store.historyOwned entry member⟩

-----------------------------------------------------------------------------------------
-- The store's constraints after a plan

/-- The candidates of a draft are the sorted ones, in order. -/
theorem SchoolDraft.Sorts.candidates {draft : SchoolDraft Id} {state : MunicipalityState Id}
    {moment : Moment} {units : List NsrUnit} (h : draft.Sorts snapshot state moment units)
    : draft.creates.map PlannedCreate.candidate
      = (sortUnits snapshot state moment units).candidates := by
  have split : draft.creates.map PlannedCreate.candidate
      = ((draft.creates.map PlannedCreate.source).map Prod.fst).map Prod.fst := by
    simp [PlannedCreate.source, Function.comp_def]
  rw [split, h.creates, numberedCandidates, List.zipIdx_map_fst, List.map_fst_zip]
  rw [placedUnits, placeAll_length]

/-- The rows a plan creates, with the creations they come from. -/
theorem SchoolDraft.Makes.mem_created {draft : SchoolDraft Id} {sorted : Sorted Id}
    {plan : SchoolPlan Id} (makes : draft.Makes snapshot sorted plan)
    {row : SchoolSnapshot Id} (created : row ∈ plan.ops.flatMap (SchoolOp.rows ids))
    : ∃ p ∈ draft.creates, ∃ m, ids.school p.number = some row.id
        ∧ ids.municipalityId p.candidate.municipality = some m
        ∧ row = createdSchool row.id m p.candidate.unit.orgnr p.candidate.unit.name
          p.candidate.unit.name p.slug p.verification true
          (SchoolAttributes.fromUnit p.candidate.unit) := by
  obtain ⟨op, member, inside⟩ := List.mem_flatMap.mp created
  rcases makes.mem_ops.mp member with ⟨c, _, rfl⟩ | ⟨p, present, rfl⟩ | ⟨p, _, own⟩
  · cases inside
  · simp only [PlannedCreate.op, SchoolOp.rows] at inside
    split at inside
    · next id m hid named =>
        cases List.mem_singleton.mp inside
        exact ⟨p, present, m, hid, named, rfl⟩
    · cases inside
  · rcases PlannedUpdate.mem_ops.mp own with ⟨_, rfl⟩ | ⟨_, rfl⟩ | ⟨_, rfl⟩ <;> cases inside

/-- The created schools have distinct organisation numbers that no school had. -/
theorem planSteps_created_orgnrs (store : StoreConstraints snapshot)
    (planned : planSteps snapshot inputs = some steps)
    : (snapshot.schools.filterMap (·.orgnr)
        ++ (steps.2.ops.flatMap (SchoolOp.rows ids)).filterMap (·.orgnr)).Nodup := by
  obtain ⟨_, distinct, draft, makes⟩ := planSteps_draft store planned
  have sorts : draft.Sorts snapshot steps.1.state inputs.moment (normaliseUnits inputs.units) :=
    ⟨makes.creates, makes.updates⟩
  refine List.nodup_append.mpr ⟨store.orgnrs, ?_, ?_⟩
  · have candidates : (draft.creates.map (·.candidate.unit.orgnr)).Nodup := by
      have split : draft.creates.map (·.candidate.unit.orgnr)
          = (draft.creates.map PlannedCreate.candidate).map (·.unit.orgnr) := by
        simp [Function.comp_def]
      rw [split, sorts.candidates]
      refine nodup_filterMap_keys distinct fun a _ b _ x y hx hy same => ?_
      rw [candidate?_eq_some] at hx hy
      rwa [← hx.1, ← hy.1]
    have rows_eq : steps.2.ops.flatMap (SchoolOp.rows ids)
        = draft.creates.flatMap fun p => p.op.rows ids := by
      rw [makes.ops, SchoolDraft.laterOps, List.flatMap_append, List.flatMap_append,
        List.flatMap_map, List.flatMap_map]
      have closings : (placedUnits snapshot (sortUnits snapshot steps.1.state inputs.moment
          (normaliseUnits inputs.units))).closings.flatMap (fun c => (closeOp c).rows ids)
            = [] :=
        List.flatMap_eq_nil_iff.mpr fun c _ => rfl
      have updates : (draft.updates.flatMap PlannedUpdate.ops).flatMap (SchoolOp.rows ids)
          = [] := by
        refine List.flatMap_eq_nil_iff.mpr fun op member => ?_
        obtain ⟨p, _, own⟩ := List.mem_flatMap.mp member
        rcases PlannedUpdate.mem_ops.mp own with ⟨_, rfl⟩ | ⟨_, rfl⟩ | ⟨_, rfl⟩ <;> rfl
      rw [closings, updates, List.nil_append, List.append_nil]
    have orgnr_of (p : PlannedCreate Id) (row : SchoolSnapshot Id) (inside : row ∈ p.op.rows ids)
        : row.orgnr = some p.candidate.unit.orgnr := by
      simp only [PlannedCreate.op, SchoolOp.rows] at inside
      split at inside
      · cases List.mem_singleton.mp inside
        rfl
      · cases inside
    rw [rows_eq]
    refine List.pairwise_filterMap.mpr (List.pairwise_flatMap.mpr ⟨fun p _ => ?_, ?_⟩)
    · exact pairwise_of_length_le_one (SchoolOp.rows_length_le ids p.op)
    · refine (List.pairwise_map.mp candidates).imp fun differ a ha b hb x hx y hy same => ?_
      rw [orgnr_of _ a ha] at hx
      rw [orgnr_of _ b hb] at hy
      exact differ (Option.some.inj (hx.trans (same ▸ hy.symm)))
  · intro orgnr old orgnr' new same
    obtain ⟨s, known, own⟩ := List.mem_filterMap.mp old
    obtain ⟨row, created, own'⟩ := List.mem_filterMap.mp new
    obtain ⟨p, inside, _, _, _, row_eq⟩ := makes.mem_created created
    obtain ⟨none_found, _⟩ := fate_candidate (sorts.candidate inside).2
    have number : orgnr' = p.candidate.unit.orgnr := by
      rw [row_eq] at own'
      exact (Option.some.inj own').symm
    rw [store.schoolByOrgnr_eq_some.mpr ⟨known, own.trans (congrArg some (same.trans number))⟩]
      at none_found
    cases none_found

/-- Active municipalities of a tracked table have distinct numbers. -/
theorem Tracks.numbers {table : List (MunicipalitySnapshot Id)}
    {byNumber : Lookup String (Ref Id)} (h : Tracks ids table byNumber)
    : ((table.filter (·.status = .active)).map (·.number)).Nodup := by
  have rows : table.Nodup := h.unique.of_map _
  refine List.pairwise_map.mpr (List.pairwise_filter.mpr (rows.imp_of_mem ?_))
  intro a b ha hb differ activeA activeB same
  exact differ (h.row_of_number ha hb (by simpa using activeA) (by simpa using activeB) same)

/-- After an applied plan the store's constraints hold again. -/
theorem AppliedPlan.store (h : AppliedPlan ids snapshot after inputs steps)
    (store : StoreConstraints snapshot) (planned : planSteps snapshot inputs = some steps)
    (fresh : ids.Fresh snapshot)
    : StoreConstraints after := by
  have ids_after : after.schools.map (·.id)
      = snapshot.schools.map (·.id)
        ++ (steps.2.ops.flatMap (SchoolOp.rows ids)).map (·.id) := by
    rw [h.schools, List.map_append, List.map_map]
    congr 1
    exact List.map_congr_left fun s _ =>
      changeAll_keeps SchoolSnapshot.id (fun op _ row => SchoolOp.onRow_id ids op row) s
  have orgnrs_after : after.schools.filterMap (·.orgnr)
      = snapshot.schools.filterMap (·.orgnr)
        ++ (steps.2.ops.flatMap (SchoolOp.rows ids)).filterMap (·.orgnr) := by
    rw [h.schools, List.filterMap_append, List.filterMap_map]
    congr 1
    refine List.filterMap_congr fun s _ => ?_
    refine changeAll_keeps SchoolSnapshot.orgnr (fun op _ row => ?_) s
    unfold SchoolOp.onRow
    split
    · exact SchoolOp.change_orgnr ids op row
    · rfl
  have numbers := h.settles.tracks.numbers
  refine {
    municipalityIds := h.municipalities ▸ h.settles.tracks.unique
    schoolIds := ids_after ▸ nodup_school_ids store.rowKeys fresh (planSteps_numbers store.rowKeys planned).2
    orgnrs := orgnrs_after ▸ planSteps_created_orgnrs store planned
    numbers := ?_
    slugSafe := h.slugSafe
    located := h.located.schools
    historyLocated := fun row member => (h.located.history row member).1
    historyOwned := fun row member => (h.located.history row member).2 }
  rw [activeMunicipalities, h.municipalities]
  exact numbers

end

end FauPortalen.Register

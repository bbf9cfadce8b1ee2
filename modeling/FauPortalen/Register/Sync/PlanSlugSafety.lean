import FauPortalen.Register.Sync.MunicipalityEffects

/-! Slug safety of whole plans: a plan's municipality operations run to their end, and after
every prefix of its school operations the register's slugs are safe.
-/

set_option linter.unusedSectionVars false

namespace FauPortalen.Register

open FauPortalen.Foundations

section

variable {Id : Type} [LinearOrder Id] [OsloZone] {ids : NewIds Id}
  {snapshot out : RegisterSnapshot Id} {state : MunicipalityState Id} {moment : Moment}
  {units : List NsrUnit} {draft : SchoolDraft Id}

-----------------------------------------------------------------------------------------
-- The references of a plan

/-- Every number resolves to a municipality that the ids name. -/
def MunicipalityState.Named (state : MunicipalityState Id) (ids : NewIds Id)
    (snapshot : RegisterSnapshot Id) : Prop :=
  ∀ number r, state.byNumber number = some r → ∃ id, ids.NamesMunicipality snapshot r id

omit [OsloZone] in
/-- Active municipalities and created ones are named by ids that cover the created ones. -/
theorem namesMunicipality_of_resolved {created : Nat} {r : Ref Id}
    (covers : ∀ n < created, (ids.municipality n).isSome)
    (resolved : (∃ row ∈ activeMunicipalities snapshot, r = .existing row.id)
      ∨ ∃ n < created, r = .new n)
    : ∃ id, ids.NamesMunicipality snapshot r id := by
  rcases resolved with ⟨row, active, rfl⟩ | ⟨n, bound, rfl⟩
  · exact ⟨row.id, .existing (List.mem_map_of_mem (List.mem_of_mem_filter active))⟩
  · obtain ⟨id, found⟩ := Option.isSome_iff_exists.mp (covers n bound)
    exact ⟨id, found, by simp⟩

section

variable [UnicodeData]

/-- The draft is made for the units as sorted. -/
structure SchoolDraft.Sorts (draft : SchoolDraft Id) (snapshot : RegisterSnapshot Id)
    (state : MunicipalityState Id) (moment : Moment) (units : List NsrUnit) : Prop where
  creates : draft.creates.map PlannedCreate.source
    = numberedCandidates snapshot (sortUnits snapshot state moment units)
  updates : draft.updates.map PlannedUpdate.update
    = (sortUnits snapshot state moment units).updates

theorem SchoolDraft.Sorts.candidate (h : draft.Sorts snapshot state moment units)
    {p : PlannedCreate Id} (member : p ∈ draft.creates)
    : p.candidate.unit ∈ units
      ∧ fate snapshot state moment p.candidate.unit = .candidate p.candidate.municipality := by
  have source : p.source ∈ numberedCandidates snapshot (sortUnits snapshot state moment units) :=
    h.creates ▸ List.mem_map_of_mem member
  have stands := (mem_numberedCandidates.mp source).1
  exact mem_candidates.mp (List.mem_of_getElem? stands)

theorem SchoolDraft.Sorts.update (h : draft.Sorts snapshot state moment units)
    {p : PlannedUpdate Id} (member : p ∈ draft.updates)
    : p.update ∈ (sortUnits snapshot state moment units).updates :=
  h.updates ▸ List.mem_map_of_mem member

/-- The updated school is a tracked one of the snapshot. -/
theorem SchoolDraft.Sorts.school (h : draft.Sorts snapshot state moment units)
    {p : PlannedUpdate Id} (member : p ∈ draft.updates)
    : p.update.school ∈ snapshot.schools ∧ p.update.school.isTracked = true := by
  obtain ⟨_, updates⟩ := mem_updates.mp (h.update member)
  obtain ⟨inside, _, tracked, _⟩ := fate_school?
    (show (fate snapshot state moment p.update.unit).school? = some p.update.school by
      rw [updates]; rfl)
  exact ⟨inside, tracked⟩

/-- The created rows are numbered from 0. -/
theorem SchoolDraft.Sorts.numbers (h : draft.Sorts snapshot state moment units)
    : draft.creates.map PlannedCreate.number = List.range draft.creates.length := by
  have split : draft.creates.map PlannedCreate.number
      = (draft.creates.map PlannedCreate.source).map Prod.snd := by
    simp [PlannedCreate.source, Function.comp_def]
  have length : draft.creates.length
      = ((sortUnits snapshot state moment units).candidates.zip
          (placedUnits snapshot (sortUnits snapshot state moment units)).placements).length := by
    rw [← List.length_map (f := PlannedCreate.source), h.creates, numberedCandidates,
      List.length_zipIdx]
  rw [split, h.creates, numberedCandidates, List.zipIdx_map_snd, length, List.range_eq_range']

-----------------------------------------------------------------------------------------
-- The operations of a draft

/-- One of an update's operations is its rename, its attribute update or its move. -/
theorem PlannedUpdate.mem_ops {p : PlannedUpdate Id} {op : SchoolOp Id}
    : op ∈ p.ops
      ↔ (p.update.isRenamed = true
          ∧ op = .rename p.update.school.id p.update.unit.name
            (if p.update.school.displayNameCurated then none else some p.update.unit.name)
            p.renamed)
        ∨ (p.update.attributes ≠ p.update.school.attributes
          ∧ op = .updateAttributes p.update.school.id p.update.attributes)
        ∨ (p.update.isMoving = true
          ∧ op = .move p.update.school.id p.update.school.municipalityId
            p.update.municipality p.moved) := by
  simp only [PlannedUpdate.ops, PlannedUpdate.renameOps, attributeOps, PlannedUpdate.moveOps,
    List.mem_append, List.mem_ite_nil_right, List.mem_singleton, or_assoc]

/-- Every operation of an update targets its school. -/
theorem PlannedUpdate.target {p : PlannedUpdate Id} {op : SchoolOp Id} (member : op ∈ p.ops)
    : op.target? = some p.update.school.id := by
  rcases PlannedUpdate.mem_ops.mp member with ⟨_, rfl⟩ | ⟨_, rfl⟩ | ⟨_, rfl⟩ <;> rfl

/-- An update rekeys its school at most once, and only attributes follow. -/
theorem PlannedUpdate.once {p : PlannedUpdate Id} (once : p.RekeysOnce)
    : p.ops.Pairwise fun a b => a.rekeys = true → b.isAttributes = true := by
  unfold PlannedUpdate.ops PlannedUpdate.renameOps PlannedUpdate.moveOps attributeOps
  by_cases changed : p.update.attributes = p.update.school.attributes
    <;> cases renames : p.update.isRenamed <;> cases moving : p.update.isMoving with
  | false => simp [changed, SchoolOp.isAttributes]
  | true =>
      -- the rename of a school that moves changes no slug
      simp [changed, once.renamed_eq_none moving, SchoolOp.rekeys, SchoolOp.isAttributes]

theorem SchoolDraft.createdNumbers (draft : SchoolDraft Id)
    : draft.laterOps.filterMap createdSchool? = draft.creates.map PlannedCreate.number := by
  have created : (draft.creates.map PlannedCreate.op).filterMap createdSchool?
      = draft.creates.map PlannedCreate.number := by
    simp [List.filterMap_map, Function.comp_def, PlannedCreate.op, createdSchool?]
  have updated : (draft.updates.flatMap PlannedUpdate.ops).filterMap createdSchool? = [] := by
    refine List.filterMap_eq_nil_iff.mpr fun op member => ?_
    obtain ⟨p, _, own⟩ := List.mem_flatMap.mp member
    rcases PlannedUpdate.mem_ops.mp own with ⟨_, rfl⟩ | ⟨_, rfl⟩ | ⟨_, rfl⟩ <;> rfl
  rw [SchoolDraft.laterOps, List.filterMap_append, created, updated, List.append_nil]

variable {book : SlugBook Id}

/-- A planned creation fits the final book. -/
theorem SchoolDraft.Sorts.fits_create (h : draft.Sorts snapshot state moment units)
    (named : state.Named ids snapshot) (covers : ∀ p ∈ draft.creates, (ids.school p.number).isSome)
    {closings : List (Closing Id)} {p : PlannedCreate Id} (member : p ∈ draft.creates)
    (fits : p.Fits book)
    : p.op.Fits book ids snapshot closings := by
  obtain ⟨_, candidate⟩ := h.candidate member
  obtain ⟨_, _, _, resolved⟩ := fate_candidate candidate
  exact ⟨named _ _ (resolve_eq_municipality.mp resolved).2, covers p member, fits.held, fits.slug⟩

/-- A planned update's operations fit the final book. -/
theorem SchoolDraft.Sorts.fits_update (h : draft.Sorts snapshot state moment units)
    (store : StoreConstraints snapshot) (distinct : (units.map NsrUnit.orgnr).Nodup)
    (named : state.Named ids snapshot) {p : PlannedUpdate Id} (member : p ∈ draft.updates)
    (fits : p.Fits book) {op : SchoolOp Id} (own : op ∈ p.ops)
    : op.Fits book ids snapshot (sortUnits snapshot state moment units).closings := by
  obtain ⟨inside, tracked⟩ := h.school member
  have stays : ∀ c ∈ (sortUnits snapshot state moment units).closings,
      c.school.id ≠ p.update.school.id :=
    fun c hc => closing_ne_update store.schoolIds distinct hc (h.update member)
  rcases PlannedUpdate.mem_ops.mp own with ⟨_, rfl⟩ | ⟨_, rfl⟩ | ⟨moving, rfl⟩
  · exact ⟨p.update.school, inside, rfl, tracked, stays,
      fun change found => (fits.renamed change found).2⟩
  · exact List.mem_map_of_mem inside
  · obtain ⟨_, updates⟩ := mem_updates.mp (h.update member)
    obtain ⟨_, resolved⟩ := fate_update updates
    exact ⟨p.update.school, inside, rfl, tracked, stays, rfl,
      named _ _ (resolve_eq_municipality.mp resolved).2, fits.slugless moving, fits.moved⟩

/-- After the closings, the final book awaits the rest of the plan. -/
theorem SchoolDraft.Sorts.awaits (h : draft.Sorts snapshot state moment units)
    (store : StoreConstraints snapshot) (distinct : (units.map NsrUnit.orgnr).Nodup)
    (fresh : ids.Fresh snapshot) (named : state.Named ids snapshot)
    (covers : ∀ p ∈ draft.creates, (ids.school p.number).isSome)
    (createFits : ∀ p ∈ draft.creates, p.Fits book)
    (updateFits : ∀ p ∈ draft.updates, p.Fits book)
    (closed : ClosedUpTo snapshot out
      ((sortUnits snapshot state moment units).closings.map (·.school.id)))
    : book.Awaits ids snapshot (sortUnits snapshot state moment units).closings out
        draft.laterOps := by
  refine ⟨?_, ?_, ?_, ?_, ?_⟩
  · intro op member
    rcases List.mem_append.mp member with create | update
    · obtain ⟨p, inside, rfl⟩ := List.mem_map.mp create
      exact h.fits_create named covers inside (createFits p inside)
    · obtain ⟨p, inside, own⟩ := List.mem_flatMap.mp update
      exact h.fits_update store distinct named inside (updateFits p inside) own
  · intro op member _ row present target
    rcases List.mem_append.mp member with create | update
    · obtain ⟨p, _, rfl⟩ := List.mem_map.mp create
      cases target
    · obtain ⟨p, inside, own⟩ := List.mem_flatMap.mp update
      have same : p.update.school.id = row.id :=
        Option.some.inj ((PlannedUpdate.target own).symm.trans target)
      obtain ⟨s, hs, same', _, ⟨_, rfl⟩ | ⟨closing, _⟩⟩ := closed.rows row present
      · exact ⟨row, hs, rfl, rfl, rfl⟩
      · obtain ⟨c, hc, same''⟩ := List.mem_map.mp closing
        exact absurd (same''.trans (same'.symm.trans same.symm))
          (closing_ne_update store.schoolIds distinct hc (h.update inside))
  · refine List.pairwise_append.mpr ⟨?_, ?_, ?_⟩
    · refine List.pairwise_map.mpr (List.pairwise_of_forall fun a b rekeys => ?_)
      cases rekeys
    · refine List.pairwise_flatMap.mpr ⟨?_, ?_⟩
      · intro p inside
        refine (PlannedUpdate.once ?_).imp fun once rekeys _ => once rekeys
        exact (updateFits p inside).rekeysOnce
      · have apart : (draft.updates.map fun p => p.update.school.id).Nodup := by
          have split : (draft.updates.map fun p => p.update.school.id)
              = (draft.updates.map PlannedUpdate.update).map (·.school.id) := by
            simp [Function.comp_def]
          rw [split, h.updates]
          exact nodup_updates store.schoolIds distinct
        refine (List.pairwise_map.mp apart).imp fun differ a ha b hb _ same => ?_
        rw [PlannedUpdate.target ha, PlannedUpdate.target hb] at same
        exact absurd (Option.some.inj same).symm differ
    · intro a create b _ rekeys
      obtain ⟨p, _, rfl⟩ := List.mem_map.mp create
      cases rekeys
  · rw [draft.createdNumbers, h.numbers]
    exact List.nodup_range
  · intro n _ id found
    rw [closed.ids]
    exact fresh.school n id found

-----------------------------------------------------------------------------------------
-- Every prefix of a plan

/-- Safety of every prefix of a drafted plan's operations: a prefix of the closings, or all
of them and a prefix of the rest.
-/
theorem SchoolDraft.Makes.prefix_slugSafe {plan : SchoolPlan Id} {base : RegisterSnapshot Id}
    (makes : draft.Makes snapshot (sortUnits snapshot state moment units) plan)
    (store : StoreConstraints snapshot) (distinct : (units.map NsrUnit.orgnr).Nodup)
    (fresh : ids.Fresh snapshot) (named : state.Named ids snapshot)
    (covers : ∀ p ∈ draft.creates, (ids.school p.number).isSome)
    (schools : base.schools = snapshot.schools)
    (history : base.schoolSlugHistory = snapshot.schoolSlugHistory) (count : Nat)
    : ∃ register, applySchoolOps ids base (plan.ops.take count) = some register
        ∧ SlugSafe register := by
  have sorts : draft.Sorts snapshot state moment units := ⟨makes.creates, makes.updates⟩
  let sorted := sortUnits snapshot state moment units
  let closings := (placedUnits snapshot sorted).closings
  have same_schools : closings.map (·.school) = sorted.closings.map (·.school) :=
    placeAll_closings snapshot
  have members : ∀ c ∈ closings, c.school ∈ snapshot.schools := by
    intro c member
    have inside : c.school ∈ sorted.closings.map (·.school) :=
      same_schools ▸ List.mem_map_of_mem member
    obtain ⟨d, hd, same⟩ := List.mem_map.mp inside
    exact same ▸ (closing_member hd).1
  have start : ClosedUpTo snapshot base [] := by
    refine ⟨by rw [schools], ?_, ?_⟩
    · intro row member
      exact ⟨row, schools ▸ member, rfl, rfl, .inl ⟨by simp, rfl⟩⟩
    · intro entry member
      exact .inl (history ▸ member)
  have closes (first : List (Closing Id)) (inside : ∀ c ∈ first, c.school ∈ snapshot.schools)
      : ∃ after, applySchoolOps ids base (first.map closeOp) = some after
          ∧ ClosedUpTo snapshot after (first.map (·.school.id)) := by
    simpa using start.run store inside
  have ops : plan.ops = closings.map closeOp ++ draft.laterOps := makes.ops
  rw [ops, List.take_append, ← List.map_take]
  rcases le_or_gt count (closings.map closeOp).length with within | beyond
  · obtain ⟨register, run, closed⟩ := closes (closings.take count) fun c member =>
      members c (List.mem_of_mem_take member)
    refine ⟨register, ?_, closed.slugSafe store⟩
    rwa [Nat.sub_eq_zero_of_le within, List.take_zero, List.append_nil]
  · obtain ⟨middle, run, closed⟩ := closes closings members
    have ids_same : closings.map (·.school.id) = sorted.closings.map (·.school.id) := by
      simpa [Function.comp_def] using congrArg (List.map SchoolSnapshot.id) same_schools
    rw [ids_same] at closed
    have awaits := sorts.awaits store distinct fresh named covers makes.createFits
      makes.updateFits closed
    rw [← List.take_append_drop (count - (closings.map closeOp).length) draft.laterOps] at awaits
    obtain ⟨register, rest, described, _⟩ :=
      (closed.described store makes.serves).run store makes.serves fresh
        (fun c member => (closing_member member).1) awaits
    refine ⟨register, ?_, described.slugSafe store makes.serves fresh⟩
    rw [List.take_of_length_le (by simpa using beyond.le)]
    exact foldlM_append_eq_some.mpr ⟨middle, run, rest⟩

/-- Whatever ids the new rows get: the municipality operations of a plan run to their end,
and after every prefix of its school operations the slugs are safe.
-/
theorem planSteps_prefix_slugSafe (store : StoreConstraints snapshot) {inputs : SyncInputs}
    {steps : MunicipalityPlan Id × SchoolPlan Id}
    (planned : planSteps snapshot inputs = some steps) (fresh : ids.Fresh snapshot)
    (covers : ids.Covers (assemble snapshot steps))
    : ∃ base, applyMunicipalityOps ids snapshot steps.1.ops = some base
        ∧ ∀ count, ∃ register,
          applySchoolOps ids base (steps.2.ops.take count) = some register
            ∧ SlugSafe register := by
  obtain ⟨first, distinct, draft, makes⟩ := planSteps_draft store planned
  obtain ⟨plan, created, first', opsNamed, resolves⟩ :=
    planMunicipalities_named store.rowKeys inputs.normalised
  cases first.symm.trans first'
  obtain ⟨base, run, sameSchools, sameHistory, _⟩ :=
    (opsNamed.awaited store fresh covers.municipalities).run fresh
  refine ⟨base, run, makes.prefix_slugSafe store distinct fresh ?_ ?_ sameSchools sameHistory⟩
  · intro number r found
    refine namesMunicipality_of_resolved (fun n bound => ?_) (resolves number r found)
    refine covers.municipalities n ?_
    show n ∈ steps.1.ops.filterMap createdMunicipality?
    rw [opsNamed.creates]
    exact List.mem_range.mpr bound
  · intro p member
    refine covers.schools p.number (List.mem_filterMap.mpr ⟨p.op, ?_, rfl⟩)
    show p.op ∈ steps.2.ops
    exact makes.mem_ops.mpr (.inr (.inl ⟨p, member, rfl⟩))

end

end

-----------------------------------------------------------------------------------------
-- The testkit's ids

/-- The testkit's ids are above every id in use, municipalities before schools. -/
theorem testkitIds_fresh (snapshot : RegisterSnapshot Nat) (plan : SyncPlan Nat)
    : (testkitIds snapshot plan).Fresh snapshot := by
  let used := snapshot.municipalities.map (·.id) ++ snapshot.schools.map (·.id)
  have below : ∀ id ∈ used, id < (used.max?.map (· + 1)).getD 1 := by
    intro id member
    obtain ⟨top, found⟩ := Option.isSome_iff_exists.mp (List.isSome_max?_of_mem member)
    have bound := (List.max?_eq_some_iff.mp found).2 id member
    simp only [found, Option.map_some, Option.getD_some]
    omega
  have above {keys : List Nat} {start n id : Nat} (bound : (used.max?.map (· + 1)).getD 1 ≤ start)
      (found : Lookup.ofPairs (keys.zip (List.range' start keys.length)) n = some id)
      : id ∉ used := by
    intro member
    have inside := (List.of_mem_zip (Lookup.mem_of_ofPairs found)).2
    have low := (List.mem_range'_1.mp inside).1
    have high := below id member
    omega
  refine ⟨?_, ?_, ?_, ?_⟩
  · exact fun n id found member =>
      above (Nat.le_add_right _ _) found (List.mem_append_right _ member)
  · exact fun m n id left right => Lookup.ofPairs_zip_injective List.nodup_range' left right
  · exact fun n id found member => above le_rfl found (List.mem_append_left _ member)
  · exact fun m n id left right => Lookup.ofPairs_zip_injective List.nodup_range' left right

/-- The testkit numbers every row the plan creates. -/
theorem testkitIds_covers (snapshot : RegisterSnapshot Nat) (plan : SyncPlan Nat)
    : (testkitIds snapshot plan).Covers plan :=
  ⟨fun _ member => Lookup.ofPairs_zip_isSome (by simp) member,
    fun _ member => Lookup.ofPairs_zip_isSome (by simp) member⟩

-----------------------------------------------------------------------------------------
-- Slug safety

/-- When a plan is to be applied, its municipality operations run to their end, and every
prefix of its school operations then leaves a register whose slugs are safe.
-/
theorem plan_prefix_slugSafe [OsloZone] [UnicodeData]
    {snapshot : RegisterSnapshot Nat}
    (store : StoreConstraints snapshot) {inputs : SyncInputs} {p : SyncPlan Nat}
    (planned : plan snapshot inputs = some (.apply p))
    : ∃ base, applyMunicipalityOps (testkitIds snapshot p) snapshot p.municipalityOps
          = some base
        ∧ ∀ count, ∃ register,
          applySchoolOps (testkitIds snapshot p) base (p.schoolOps.take count) = some register
            ∧ SlugSafe register := by
  obtain ⟨_, steps, stepped, rfl⟩ := planWith_apply planned
  exact planSteps_prefix_slugSafe store stepped (testkitIds_fresh _ _) (testkitIds_covers _ _)

section

attribute [local instance] OsloZone.atEpoch UnicodeData.ascii

/-- The sample register's run: the successor takes the closed school's slug over. -/
theorem samplePlan_prefix_slugSafe
    : ∃ base, applyMunicipalityOps (testkitIds sampleRegister samplePlan) sampleRegister
          samplePlan.municipalityOps = some base
        ∧ ∀ count, ∃ register,
          applySchoolOps (testkitIds sampleRegister samplePlan) base
              (samplePlan.schoolOps.take count) = some register
            ∧ SlugSafe register :=
  by
  have planned : plan sampleRegister sampleInputs = some (.apply samplePlan) := by
    decide +kernel
  exact plan_prefix_slugSafe sampleRegister_store planned

end

end FauPortalen.Register

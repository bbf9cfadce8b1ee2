import FauPortalen.Register.Sync.Store

/-! Order independence: a plan depends on the fetched units, on Kartverket's records and on
the rows of the register as sets only.
-/

set_option linter.unusedSectionVars false

namespace FauPortalen.Register

open FauPortalen.Foundations

variable {Id : Type} [LinearOrder Id]

-----------------------------------------------------------------------------------------
-- Registers and inputs up to order

/-- The registers have the same rows. -/
structure SameRows (left right : RegisterSnapshot Id) : Prop where
  municipalities : left.municipalities.Perm right.municipalities
  schools : left.schools.Perm right.schools
  schoolOrgnrHistory : left.schoolOrgnrHistory.Perm right.schoolOrgnrHistory
  schoolSlugHistory : left.schoolSlugHistory.Perm right.schoolSlugHistory
  municipalitySlugHistory : left.municipalitySlugHistory.Perm right.municipalitySlugHistory

/-- The sources returned the same units and records, and one feed. -/
structure SameSources [OsloZone] (left right : SyncInputs) : Prop where
  municipalities : left.municipalities.Perm right.municipalities
  units : left.units.Perm right.units
  codeChanges : left.codeChanges = right.codeChanges
  kind : left.kind = right.kind
  moment : left.moment = right.moment

-----------------------------------------------------------------------------------------
-- The most similar school

section

variable {score : SchoolSnapshot Id → Binary32.Units} {threshold : Binary32.Units}

/-- The most similar school is the same in every order, since ids break ties. -/
theorem best_perm {left right : List (SchoolSnapshot Id)} (same : left.Perm right)
    (distinct : (left.map (·.id)).Nodup)
    : best left score threshold = best right score threshold := by
  unfold best
  refine same.foldl_eq' ?_ none
  intro x hx y hy found
  by_cases one : x = y
  · rw [one]
  · have apart : x.id ≠ y.id := fun e => one (List.inj_on_of_nodup_map distinct hx hy e)
    rcases found with _ | ⟨leader, top⟩ <;> grind

end

-----------------------------------------------------------------------------------------
-- Slug books up to the order of their history

/-- The books differ at most in the order in which schools held a slug. -/
structure SlugBook.Agrees (left right : SlugBook Id) : Prop where
  current : left.current = right.current
  history : ∀ key, (left.history key).Perm (right.history key)
  closed : left.closed = right.closed

/-- The two results are equal, and leave books that agree. -/
def SameResult {β : Type} (left right : β × SlugBook Id) : Prop :=
  left.1 = right.1 ∧ left.2.Agrees right.2

namespace SlugBook.Agrees

variable {left right : SlugBook Id} (h : left.Agrees right)
include h

theorem isTaken (municipality : Ref Id) (slug : String) (me : Ref Id)
    : left.isTaken municipality slug me = right.isTaken municipality slug me := by
  unfold SlugBook.isTaken
  rw [h.current, h.closed, (h.history (municipality, slug)).any_eq]

theorem take (municipality : Ref Id) (slug : String) (holder : Ref Id)
    : (left.take municipality slug holder).Agrees (right.take municipality slug holder) :=
  ⟨by simp only [SlugBook.take, h.current], h.history, h.closed⟩

theorem release (school : SchoolSnapshot Id)
    : (left.release school).Agrees (right.release school) :=
  ⟨by simp only [SlugBook.release, h.current], h.history,
    by simp only [SlugBook.release, h.closed]⟩

variable [UnicodeData]

theorem mint (municipality : Ref Id) (base : String) (postTown : Option String) (me : Ref Id)
    : Option.Rel SameResult (left.mint municipality base postTown me)
        (right.mint municipality base postTown me) := by
  have free : (fun slug => left.isTaken municipality slug me)
      = fun slug => right.isTaken municipality slug me :=
    funext fun slug => h.isTaken municipality slug me
  unfold SlugBook.mint
  rw [free]
  cases firstFreeSlug base postTown fun slug => right.isTaken municipality slug me with
  | none => exact .none
  | some slug => exact .some ⟨rfl, h.take municipality slug me⟩

theorem renameSlug (u : Update Id)
    : Option.Rel SameResult (renameSlug u left) (renameSlug u right) := by
  unfold FauPortalen.Register.renameSlug
  simp only
  split
  · exact .some ⟨rfl, h⟩
  · split
    · exact .some ⟨rfl, h⟩
    · split
      · exact .some ⟨rfl, h⟩
      · refine bind_rel (h.mint _ _ _ _) fun a b same => .some ⟨?_, same.2⟩
        simp only [same.1]
    · refine bind_rel (h.mint _ _ _ _) fun a b same => .some ⟨?_, same.2⟩
      simp only [same.1]

theorem moveSlug (u : Update Id)
    : Option.Rel SameResult (moveSlug u left) (moveSlug u right) := by
  unfold FauPortalen.Register.moveSlug
  split
  · exact .some ⟨rfl, h⟩
  · refine bind_rel (h.mint _ _ _ _) fun a b same => .some ⟨?_, same.2⟩
    simp only [same.1]

theorem renameOps (u : Update Id)
    : Option.Rel SameResult (renameOps u left) (renameOps u right) := by
  unfold FauPortalen.Register.renameOps
  split
  · refine bind_rel (h.renameSlug u) fun a b same => .some ⟨?_, same.2⟩
    simp only [same.1]
  · exact .some ⟨rfl, h⟩

theorem moveOps (u : Update Id)
    : Option.Rel SameResult (moveOps u left) (moveOps u right) := by
  unfold FauPortalen.Register.moveOps
  split
  · refine bind_rel (h.moveSlug u) fun a b same => .some ⟨?_, same.2⟩
    simp only [same.1]
  · exact .some ⟨rfl, h⟩

theorem planUpdate (u : Update Id)
    : Option.Rel SameResult (planUpdate u left) (planUpdate u right) := by
  unfold FauPortalen.Register.planUpdate
  refine bind_rel (h.renameOps u) fun a b same => ?_
  refine bind_rel (same.2.moveOps u) fun c d same' => .some ⟨?_, same'.2⟩
  simp only [same.1, same'.1]

theorem createSlug (candidate : Candidate Id) (number : Nat) (placement : Placement)
    : Option.Rel SameResult (createSlug candidate number placement left)
        (createSlug candidate number placement right) := by
  have listed : Option.Rel SameResult
      (FauPortalen.Register.createSlug candidate number .listed left)
      (FauPortalen.Register.createSlug candidate number .listed right) := by
    simp only [FauPortalen.Register.createSlug]
    cases (slugify candidate.unit.name).toOption with
    | none => exact .some ⟨rfl, h⟩
    | some base =>
        refine bind_rel (h.mint _ _ _ _) fun a b same => .some ⟨?_, same.2⟩
        simp only [same.1]
  cases placement with
  | successor slug =>
      cases slug with
      | none => exact listed
      | some slug => exact .some ⟨rfl, h⟩
  | heldReregistration => exact .some ⟨rfl, h⟩
  | heldSubmission => exact .some ⟨rfl, h⟩
  | listed => exact listed

end SlugBook.Agrees

section

variable [UnicodeData]

theorem stepUpdate_rel {left right : List (SchoolOp Id) × SlugBook Id}
    (h : SameResult left right) (u : Update Id)
    : Option.Rel SameResult (stepUpdate left u) (stepUpdate right u) := by
  unfold stepUpdate
  refine bind_rel (h.2.planUpdate u) fun a b same => .some ⟨?_, same.2⟩
  simp only [h.1, same.1]

theorem stepCreate_rel {left right : List (SchoolOp Id) × SlugBook Id}
    (h : SameResult left right) (placed : (Candidate Id × Placement) × Nat)
    : Option.Rel SameResult (stepCreate left placed) (stepCreate right placed) := by
  unfold stepCreate
  refine bind_rel (h.2.createSlug placed.1.1 placed.2 placed.1.2) fun a b same =>
    .some ⟨?_, same.2⟩
  simp only [h.1, same.1]

-----------------------------------------------------------------------------------------
-- Step 1

variable [OsloZone] {left right : RegisterSnapshot Id} {inputs inputs' : SyncInputs}

theorem SameRows.active (rows : SameRows left right)
    : (activeMunicipalities left).Perm (activeMunicipalities right) :=
  rows.municipalities.filter _

theorem initialGroupState_perm (rows : SameRows left right) (store : StoreConstraints left)
    : initialGroupState left = initialGroupState right := by
  have numbers : Lookup.ofPairs ((activeMunicipalities left).map fun row =>
        (row.number, Ref.existing row.id))
      = Lookup.ofPairs ((activeMunicipalities right).map fun row =>
        (row.number, Ref.existing row.id)) := by
    refine Lookup.ofPairs_perm (rows.active.map _) ?_
    simpa [List.map_map, Function.comp_def] using store.numbers
  have working : Lookup.ofPairs ((activeMunicipalities left).map fun row =>
        (row.id, Working.ofRow row))
      = Lookup.ofPairs ((activeMunicipalities right).map fun row =>
        (row.id, Working.ofRow row)) := by
    refine Lookup.ofPairs_perm (rows.active.map _) ?_
    have ids : ((activeMunicipalities left).map (·.id)).Nodup :=
      store.municipalityIds.sublist (List.filter_sublist.map _)
    simpa [List.map_map, Function.comp_def] using ids
  simp only [initialGroupState, numbers, working]

/-- Step 1 reads the municipalities and the records by key, and records in the order of their
numbers.
-/
theorem planMunicipalities_perm (rows : SameRows left right) (store : StoreConstraints left)
    (records : inputs.municipalities.Perm inputs'.municipalities)
    (numbers : (inputs.municipalities.map MunicipalityRecord.number).Nodup)
    (units : inputs.units = inputs'.units) (codeChanges : inputs.codeChanges = inputs'.codeChanges)
    (kind : inputs.kind = inputs'.kind)
    : planMunicipalities left inputs = planMunicipalities right inputs' := by
  have lists : listsNumber inputs.municipalities = listsNumber inputs'.municipalities :=
    funext fun number => records.any_eq
  have byNumber : recordsByNumber inputs.municipalities
      = recordsByNumber inputs'.municipalities := by
    refine Lookup.ofPairs_perm (records.map _) ?_
    simpa [List.map_map, Function.comp_def] using numbers
  have groups : planCodeChanges left inputs.municipalities inputs.codeChanges
      = planCodeChanges right inputs'.municipalities inputs'.codeChanges := by
    simp only [planCodeChanges, changeGroups, lists, byNumber, codeChanges,
      initialGroupState_perm rows store]
  have loop : (planRecords inputs : GroupState Id → Option (RecordState Id))
      = planRecords inputs' := by
    funext state
    simp only [planRecords, kind, sortOn_perm records numbers]
  have working : workingRows left = workingRows right := by
    funext working
    have ids : sortedKeys ((activeMunicipalities left).map (·.id))
        = sortedKeys ((activeMunicipalities right).map (·.id)) :=
      sortedKeys_congr fun id => (rows.active.map _).mem_iff
    simp only [workingRows, ids]
  have absent : (isAbsent inputs.municipalities : Finset String → Working Id → Bool)
      = isAbsent inputs'.municipalities := by
    funext blocked w
    simp only [isAbsent, lists]
  simp only [planMunicipalities, groups, loop, working, absent, units]

-----------------------------------------------------------------------------------------
-- Step 2

/-- The fate of a unit reads the schools and the former numbers by organisation number. -/
theorem fate_perm (rows : SameRows left right) (store : StoreConstraints left)
    : fate left = fate right := by
  have schools : schoolByOrgnr left = schoolByOrgnr right := by
    refine Lookup.ofPairs_perm (rows.schools.filterMap _) ?_
    have keys : (left.schools.filterMap fun s => s.orgnr.map fun o => (o, s)).map Prod.fst
        = left.schools.filterMap (·.orgnr) := by
      simp [List.map_filterMap, Function.comp_def]
    rw [keys]
    exact store.orgnrs
  have former : isFormerOrgnr left = isFormerOrgnr right :=
    funext fun orgnr => rows.schoolOrgnrHistory.any_eq
  funext state moment unit
  simp only [fate, schools, former]

/-- Submission matches are found among the schools as a set. -/
theorem placedUnits_perm (rows : SameRows left right) (store : StoreConstraints left)
    : placedUnits left = placedUnits right := by
  have remaining : placeRemaining left.schools = placeRemaining right.schools := by
    funext assigned candidate
    have found (score : SchoolSnapshot Id → Binary32.Units) (threshold : Binary32.Units)
        : best (left.schools.filter (isSubmissionFor candidate.1)) score threshold
          = best (right.schools.filter (isSubmissionFor candidate.1)) score threshold :=
      best_perm (rows.schools.filter _)
        (store.schoolIds.sublist (List.filter_sublist.map _))
    simp only [placeRemaining, found]
  funext sorted
  simp only [placedUnits, placeAll, remaining]

/-- The slug books of the registers agree: current slugs are distinct, and the histories
have the same rows.
-/
theorem SlugBook.ofSnapshot_agrees (rows : SameRows left right) (store : StoreConstraints left)
    : (SlugBook.ofSnapshot left).Agrees (SlugBook.ofSnapshot right) := by
  refine ⟨?_, fun key => (rows.schoolSlugHistory.filter _).map _, ?_⟩
  · refine Lookup.ofPairs_perm (rows.schools.filterMap _) ?_
    have keys : (left.schools.filterMap fun s =>
          (SlugBook.keyOf? s).map fun key => (key, Ref.existing s.id)).map Prod.fst
        = (currentSlugs left).map fun held => (Ref.existing held.1, held.2) := by
      simp only [currentSlugs, List.map_filterMap]
      refine List.filterMap_congr fun s _ => ?_
      cases slug : s.slug <;> simp [SlugBook.keyOf?, slug]
    rw [keys]
    refine store.slugSafe.unique.map fun a b same => ?_
    simpa [Prod.ext_iff] using same
  · exact List.toFinset_eq_of_perm _ _ ((rows.schools.filter _).map _)

theorem foldl_release_agrees (closings : List (Closing Id)) {book book' : SlugBook Id}
    (h : book.Agrees book')
    : (closings.foldl (fun book c => book.release c.school) book).Agrees
        (closings.foldl (fun book c => book.release c.school) book') := by
  induction closings generalizing book book' with
  | nil => exact h
  | cons c rest ih => exact ih (h.release c.school)

theorem foldl_takeInherited_agrees (numbered : List ((Candidate Id × Placement) × Nat))
    {book book' : SlugBook Id} (h : book.Agrees book')
    : (numbered.foldl takeInherited book).Agrees (numbered.foldl takeInherited book') := by
  induction numbered generalizing book book' with
  | nil => exact h
  | cons placed rest ih =>
      refine ih ?_
      unfold takeInherited
      split
      · exact h.take _ _ _
      · exact h

/-- Step 2 is the same on registers with the same rows, for the same units. -/
theorem planSchools_perm (rows : SameRows left right) (store : StoreConstraints left)
    (units : inputs.units = inputs'.units) (moment : inputs.moment = inputs'.moment)
    (state : MunicipalityState Id)
    : planSchools left inputs state = planSchools right inputs' state := by
  have sorted : sortedUnits left inputs state = sortedUnits right inputs' state := by
    simp only [sortedUnits, sortUnits, fate_perm rows store, units, moment]
  have numbered : numberedCandidates left = numberedCandidates right := by
    funext sorted
    simp only [numberedCandidates, placedUnits_perm rows store]
  have books : (inheritedBook left (sortedUnits right inputs' state)).Agrees
      (inheritedBook right (sortedUnits right inputs' state)) := by
    unfold inheritedBook releasedBook
    rw [numbered]
    exact foldl_takeInherited_agrees _
      (foldl_release_agrees _ (SlugBook.ofSnapshot_agrees rows store))
  refine eq_of_rel_eq ?_
  unfold planSchools
  rw [sorted, numbered, placedUnits_perm rows store]
  simp only
  split
  · exact .none
  · have start {book book' : SlugBook Id} (agree : book.Agrees book')
        : SameResult (([] : List (SchoolOp Id)), book) ([], book') := ⟨rfl, agree⟩
    have updates := foldlM_rel (R := SameResult) (fun _ _ h u => stepUpdate_rel h u)
      (start books) (sortedUnits right inputs' state).updates
    refine bind_rel updates fun updated updated' agree => ?_
    have creates := foldlM_rel (R := SameResult) (fun _ _ h c => stepCreate_rel h c)
      (start agree.2) (numberedCandidates right (sortedUnits right inputs' state))
    refine bind_rel creates fun created created' agree' => .some ?_
    simp only [agree.1, agree'.1]

-----------------------------------------------------------------------------------------
-- The outcome

theorem SameSources.emptySource? (sources : SameSources inputs inputs')
    : emptySource? inputs = emptySource? inputs' := by
  simp only [FauPortalen.Register.emptySource?, sources.municipalities.isEmpty_eq,
    sources.units.isEmpty_eq]

theorem SameSources.normalised (sources : SameSources inputs inputs')
    (orgnrs : (inputs.units.map NsrUnit.orgnr).Nodup)
    : inputs.normalised.units = inputs'.normalised.units := by
  simp only [SyncInputs.normalised, normaliseUnits, sortOn_perm sources.units orgnrs]

/-- Both steps are the same up to order. -/
theorem planSteps_perm (rows : SameRows left right) (store : StoreConstraints left)
    (sources : SameSources inputs inputs') (orgnrs : (inputs.units.map NsrUnit.orgnr).Nodup)
    (numbers : (inputs.municipalities.map MunicipalityRecord.number).Nodup)
    : planSteps left inputs = planSteps right inputs' := by
  have units := sources.normalised orgnrs
  have first : planMunicipalities left inputs.normalised
      = planMunicipalities right inputs'.normalised :=
    planMunicipalities_perm rows store sources.municipalities numbers units sources.codeChanges
      sources.kind
  have second : planSchools left inputs.normalised = planSchools right inputs'.normalised :=
    funext fun state => planSchools_perm rows store units sources.moment state
  simp only [planSteps, first, second]

/-- The breaker counts the schools as a set, and finds the ones that lose an attribute by id. -/
theorem conclude_perm (rows : SameRows left right) (store : StoreConstraints left)
    (kind : RunKind) (breaker : Breaker) (steps : MunicipalityPlan Id × SchoolPlan Id)
    : conclude left kind breaker (assemble left steps)
      = conclude right kind breaker (assemble right steps) := by
  have found (id : Id) : findRow SchoolSnapshot.id id left.schools
      = findRow SchoolSnapshot.id id right.schools :=
    findRow_perm rows.schools store.schoolIds id
  have losses : attributeLosses left = attributeLosses right := by
    funext ops
    simp only [attributeLosses, found]
  have tripped : massChange left = massChange right := by
    funext counts
    simp only [massChange, (rows.schools.filter _).length_eq]
  have assembled : assemble left steps = assemble right steps := by
    simp only [assemble, losses]
  unfold conclude
  rw [assembled, tripped]

/-- The outcome of a run, its operations in their order, its review items, its counts or its
abort, does not depend on the order of the units, of the records or of the register's rows.
-/
theorem plan_order_independent (store : StoreConstraints left) (rows : SameRows left right)
    (sources : SameSources inputs inputs') (orgnrs : (inputs.units.map NsrUnit.orgnr).Nodup)
    (numbers : (inputs.municipalities.map MunicipalityRecord.number).Nodup)
    : plan left inputs = plan right inputs' := by
  simp only [plan, planWith, sources.emptySource?, planSteps_perm rows store sources orgnrs numbers,
    sources.kind, conclude_perm rows store]

end

section

attribute [local instance] OsloZone.atEpoch UnicodeData.ascii

/-- The sample register with its schools in reverse, and its units too, has the same plan. -/
theorem samplePlan_reversed
    : plan { sampleRegister with schools := sampleRegister.schools.reverse }
        { sampleInputs with units := sampleInputs.units.reverse }
      = some (.apply samplePlan) := by
  have planned : plan sampleRegister sampleInputs = some (.apply samplePlan) := by
    decide +kernel
  have rows : SameRows sampleRegister
      { sampleRegister with schools := sampleRegister.schools.reverse } :=
    ⟨.refl _, (List.reverse_perm _).symm, .refl _, .refl _, .refl _⟩
  have sources : SameSources sampleInputs
      { sampleInputs with units := sampleInputs.units.reverse } :=
    ⟨.refl _, (List.reverse_perm _).symm, rfl, rfl, rfl⟩
  rw [← plan_order_independent sampleRegister_store rows sources (by decide) (by decide)]
  exact planned

end

end FauPortalen.Register

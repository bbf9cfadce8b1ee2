import FauPortalen.Register.Sync.FollowedUnits

/-! Convergence: every unit of the second run meets a school that is already as the unit
wants it, so one run reaches the fixed point.
-/

set_option linter.unusedSectionVars false

namespace FauPortalen.Register

open FauPortalen.Foundations

section

variable {Id : Type} [LinearOrder Id] [UnicodeData] [OsloZone] {ids : NewIds Id}
  {snapshot after : RegisterSnapshot Id} {inputs again : SyncInputs}
  {steps : MunicipalityPlan Id × SchoolPlan Id} {unit : NsrUnit}

-----------------------------------------------------------------------------------------
-- Settled units

/-- What a unit's fate in the second run is, given that of the first: nothing, the same
report, or an update that changes nothing.
-/
inductive Fate.Settles (unit : NsrUnit) (first : Fate Id) : Fate Id → Prop
  | ignored (known : first ≠ .unknown) (fauless : ∀ f, first ≠ .fauClosing f) :
      Settles unit first .ignored
  | unknown (same : first = .unknown) : Settles unit first .unknown
  | fauClosing (f : FauClosing Id) (same : first = .fauClosing f) :
      Settles unit first (.fauClosing f)
  | update (school : SchoolSnapshot Id) (known : first ≠ .unknown)
      (fauless : ∀ f, first ≠ .fauClosing f)
      (named : school.registerName = some unit.name)
      (attributes : school.attributes = .fromUnit unit) :
      Settles unit first (.update school (.existing school.municipalityId))

section

variable {first second : Fate Id} (h : first.Settles unit second)
include h

/-- A settled unit is no candidate. -/
theorem Fate.Settles.candidate?_eq_none : second.candidate? unit = none := by
  cases h <;> rfl

/-- A settled unit closes nothing. -/
theorem Fate.Settles.closing?_eq_none : second.closing? = none := by
  cases h <;> rfl

/-- A settled unit raises the same closure review. -/
theorem Fate.Settles.fauClosing?_eq : second.fauClosing? = first.fauClosing? := by
  have quiet (fauless : ∀ f, first ≠ .fauClosing f) : first.fauClosing? = none := by
    cases first with
    | fauClosing f => exact absurd rfl (fauless f)
    | _ => rfl
  cases h with
  | ignored _ fauless => exact (quiet fauless).symm
  | unknown same => rw [same]
  | fauClosing f same => rw [same]
  | update _ _ fauless => exact (quiet fauless).symm

/-- A settled unit is unknown when it was. -/
theorem Fate.Settles.isUnknown_eq : second.isUnknown = first.isUnknown := by
  have quiet (known : first ≠ .unknown) : first.isUnknown = false := by
    cases first with
    | unknown => exact absurd rfl known
    | _ => rfl
  cases h with
  | ignored known => exact (quiet known).symm
  | unknown same => rw [same]
  | fauClosing f same => rw [same]
  | update _ known => exact (quiet known).symm

end

-----------------------------------------------------------------------------------------
-- The schools the second run finds

/-- Without code changes nothing is blocked. -/
theorem planMunicipalities_unblocked {plan : MunicipalityPlan Id}
    (unchanged : inputs.codeChanges = [])
    (planned : planMunicipalities snapshot inputs = some plan)
    : plan.state.blockedNumbers = ∅ ∧ plan.state.blockedIds = ∅ := by
  obtain ⟨groups, _, grouped, _, blocked, blockedIds, _⟩ := planMunicipalities_parts planned
  rw [unchanged, planCodeChanges_nil] at grouped
  cases grouped
  exact ⟨blocked, by simp [blockedIds, initialGroupState]⟩

/-- The municipality state the second run plans with. -/
def secondState (after : RegisterSnapshot Id) : MunicipalityState Id :=
  ⟨(initialGroupState after).byNumber, ∅, ∅⟩

/-- A first run without blocked municipalities, and the register it left. -/
structure FirstRun (ids : NewIds Id) (snapshot after : RegisterSnapshot Id)
    (inputs : SyncInputs) (steps : MunicipalityPlan Id × SchoolPlan Id) : Prop where
  store : StoreConstraints snapshot
  planned : planSteps snapshot inputs = some steps
  fresh : ids.Fresh snapshot
  covers : ids.Covers (assemble snapshot steps)
  applied : AppliedPlan ids snapshot after inputs steps
  unblocked : steps.1.state.blockedNumbers = ∅ ∧ steps.1.state.blockedIds = ∅

namespace FirstRun

variable (run : FirstRun ids snapshot after inputs steps)
include run

theorem storeAfter : StoreConstraints after :=
  run.applied.store run.store run.planned run.fresh

theorem tracks : Tracks ids after.municipalities steps.1.state.byNumber :=
  run.applied.municipalities ▸ run.applied.settles.tracks

/-- A number that resolved in the first run resolves to the same row's id. -/
theorem resolve_municipality {number : String} {r : Ref Id} {m : Id}
    (resolved : steps.1.state.resolve number = .municipality r)
    (named : ids.municipalityId r = some m)
    : (secondState after).resolve number = .municipality (.existing m) := by
  obtain ⟨m', named', found⟩ :=
    (run.tracks.again run.storeAfter).1 _ _ (resolve_eq_municipality.mp resolved).2
  cases named.symm.trans named'
  exact resolve_eq_municipality.mpr ⟨Finset.notMem_empty _, found⟩

/-- A number that was unknown in the first run still is. -/
theorem resolve_unknown {number : String} (unknown : steps.1.state.resolve number = .unknown)
    : (secondState after).resolve number = .unknown := by
  have vacant : steps.1.state.byNumber number = none := by
    unfold MunicipalityState.resolve at unknown
    split at unknown
    · cases unknown
    · split at unknown
      · cases unknown
      · assumption
  have free := (run.tracks.again run.storeAfter).2 _ vacant
  simp [MunicipalityState.resolve, secondState, free]

theorem resolve_ne_blocked (number : String) : steps.1.state.resolve number ≠ .blocked := by
  intro blocked
  unfold MunicipalityState.resolve at blocked
  rw [run.unblocked.1] at blocked
  split at blocked
  · next impossible => exact absurd impossible (Finset.notMem_empty _)
  · split at blocked <;> cases blocked

/-- The municipality a reference of the plan names has an id. -/
theorem resolved_named {number : String} {r : Ref Id}
    (resolved : steps.1.state.resolve number = .municipality r)
    : ∃ m, ids.municipalityId r = some m := by
  obtain ⟨row, _, _, _, named⟩ :=
    run.applied.settles.tracks.holder number r (resolve_eq_municipality.mp resolved).2
  exact ⟨row.id, named⟩

/-- The row an existing school has after the run. -/
theorem school_after {s : SchoolSnapshot Id} (member : s ∈ snapshot.schools)
    : changeAll (SchoolOp.onRow ids) steps.2.ops s ∈ after.schools
      ∧ (changeAll (SchoolOp.onRow ids) steps.2.ops s).orgnr = s.orgnr := by
  refine ⟨?_, changeAll_school_orgnr _ s⟩
  rw [run.applied.schools]
  exact List.mem_append_left _ (List.mem_map_of_mem member)

/-- Only a candidate's unit gets a school that was not there. -/
theorem schoolByOrgnr_after (none_found : schoolByOrgnr snapshot unit.orgnr = none)
    (inside : unit ∈ normaliseUnits inputs.units)
    (idle : ∀ r, fate snapshot steps.1.state inputs.moment unit ≠ .candidate r)
    : schoolByOrgnr after unit.orgnr = none := by
  obtain ⟨_, distinct, draft, makes⟩ := planSteps_draft run.store run.planned
  have sorts : draft.Sorts snapshot steps.1.state inputs.moment (normaliseUnits inputs.units) :=
    ⟨makes.creates, makes.updates⟩
  cases found : schoolByOrgnr after unit.orgnr with
  | none => rfl
  | some t =>
      obtain ⟨member, orgnr⟩ := run.storeAfter.schoolByOrgnr_eq_some.mp found
      rw [run.applied.schools] at member
      rcases List.mem_append.mp member with old | new
      · obtain ⟨s, known, rfl⟩ := List.mem_map.mp old
        rw [(run.school_after known).2] at orgnr
        rw [run.store.schoolByOrgnr_eq_some.mpr ⟨known, orgnr⟩] at none_found
        cases none_found
      · obtain ⟨p, present, m, _, _, row⟩ := makes.mem_created new
        obtain ⟨own, candidate⟩ := sorts.candidate present
        rw [row] at orgnr
        have same : p.candidate.unit = unit :=
          List.inj_on_of_nodup_map distinct own inside (Option.some.inj orgnr)
        exact absurd (same ▸ candidate) (idle _)

-----------------------------------------------------------------------------------------
-- The second fate of every unit

/-- A unit without a school settles: a candidate is now a listed school that follows it, or
a held one that awaits a human.
-/
theorem settles_of_none (inside : unit ∈ normaliseUnits inputs.units)
    (none_found : schoolByOrgnr snapshot unit.orgnr = none)
    : (fate snapshot steps.1.state inputs.moment unit).Settles unit
        (fate after (secondState after) inputs.moment unit) := by
  obtain ⟨_, distinct, draft, makes⟩ := planSteps_draft run.store run.planned
  have sorts : draft.Sorts snapshot steps.1.state inputs.moment (normaliseUnits inputs.units) :=
    ⟨makes.creates, makes.updates⟩
  have former : isFormerOrgnr after unit.orgnr = isFormerOrgnr snapshot unit.orgnr := by
    rw [isFormerOrgnr, run.applied.orgnrHistory, isFormerOrgnr]
  have first : fate snapshot steps.1.state inputs.moment unit
      = if unit.classified && !isFormerOrgnr snapshot unit.orgnr then
          (steps.1.state.resolve unit.municipalityNumber).fate .candidate
        else .ignored := fate_of_none none_found
  by_cases new : (unit.classified && !isFormerOrgnr snapshot unit.orgnr) = true
  · rw [if_pos new] at first
    cases resolved : steps.1.state.resolve unit.municipalityNumber with
    | blocked => exact absurd resolved (run.resolve_ne_blocked _)
    | unknown =>
        rw [resolved] at first
        have still := run.schoolByOrgnr_after none_found inside fun r same => by
          rw [first] at same
          cases same
        rw [fate_of_none still, former, if_pos new, run.resolve_unknown resolved]
        exact .unknown first
    | municipality r =>
        rw [resolved] at first
        have first : fate snapshot steps.1.state inputs.moment unit = .candidate r := first
        -- the candidate's row is there under its number
        have listed : unit ∈ draft.creates.map (·.candidate.unit) := by
          have split : draft.creates.map (·.candidate.unit)
              = (draft.creates.map PlannedCreate.candidate).map Candidate.unit := by
            simp [Function.comp_def]
          rw [split, sorts.candidates]
          exact List.mem_map.mpr ⟨⟨unit, r⟩, mem_candidates.mpr ⟨inside, first⟩, rfl⟩
        obtain ⟨p, present, rfl⟩ := List.mem_map.mp listed
        obtain ⟨_, candidate⟩ := sorts.candidate present
        rw [first] at candidate
        cases candidate
        have made : p.op ∈ steps.2.ops := by
          exact makes.mem_ops.mpr (.inr (.inl ⟨p, present, rfl⟩))
        obtain ⟨id, hid⟩ := Option.isSome_iff_exists.mp
          (run.covers.schools p.number (List.mem_filterMap.mpr ⟨p.op, made, rfl⟩))
        obtain ⟨m, named⟩ := run.resolved_named resolved
        let row := createdSchool id m p.candidate.unit.orgnr p.candidate.unit.name
          p.candidate.unit.name p.slug p.verification true (.fromUnit p.candidate.unit)
        have created : row ∈ after.schools := by
          rw [run.applied.schools]
          refine List.mem_append_right _ (List.mem_flatMap.mpr ⟨p.op, made, ?_⟩)
          simp [PlannedCreate.op, SchoolOp.rows, hid, named, row]
        rw [fate_of_school run.storeAfter created rfl]
        cases verified : p.verification with
        | held =>
            have untracked : row.isTracked = false := by
              simp [row, createdSchool, verified, CreateVerification.toVerification,
                SchoolSnapshot.isTracked]
            simp only [schoolFate, untracked]
            exact .ignored (by rw [first]; simp) (by rw [first]; simp)
        | listed =>
            have tracked : row.isTracked = true := by
              simp [row, createdSchool, verified, CreateVerification.toVerification,
                SchoolSnapshot.isTracked]
            simp only [Bool.and_eq_true] at new
            have stays : unitLeaves p.candidate.unit row = false := by
              simp [unitLeaves, NsrUnit.isActive_of_classified new.1, effectiveInScope, row,
                createdSchool, new.1]
            rw [schoolFate_of_tracked tracked (Finset.notMem_empty _), if_neg (by simp [stays]),
              run.resolve_municipality resolved named]
            exact .update row (by rw [first]; simp) (by rw [first]; simp) rfl rfl
  · rw [if_neg new] at first
    have still := run.schoolByOrgnr_after none_found inside fun r same => by
      rw [first] at same
      cases same
    rw [fate_of_none still, former, if_neg new]
    exact .ignored (by rw [first]; simp) (by rw [first]; simp)

/-- A unit with a school settles: its school is closed, reviewed as before or follows it. -/
theorem settles_of_some (inside : unit ∈ normaliseUnits inputs.units)
    {s : SchoolSnapshot Id} (known : s ∈ snapshot.schools) (orgnr : s.orgnr = some unit.orgnr)
    : (fate snapshot steps.1.state inputs.moment unit).Settles unit
        (fate after (secondState after) inputs.moment unit) := by
  obtain ⟨_, distinct, draft, makes⟩ := planSteps_draft run.store run.planned
  obtain ⟨present, orgnr'⟩ := run.school_after known
  have first : fate snapshot steps.1.state inputs.moment unit
      = schoolFate steps.1.state inputs.moment unit s := fate_of_school run.store known orgnr
  have second : fate after (secondState after) inputs.moment unit
      = schoolFate (secondState after) inputs.moment unit
        (changeAll (SchoolOp.onRow ids) steps.2.ops s) :=
    fate_of_school run.storeAfter present (orgnr'.trans orgnr)
  have alone := makes.changeAll_idle run.store distinct inside known orgnr ids
  by_cases tracked : s.isTracked = true
  · rw [schoolFate_of_tracked tracked (run.unblocked.2 ▸ Finset.notMem_empty _)] at first
    by_cases leaves : unitLeaves unit s = true
    · rw [if_pos leaves] at first
      rcases closureFate_cases unit s inputs.moment with ⟨live, closes⟩ | ⟨_, closes⟩
      · rw [closes] at first
        rw [alone fun t _ => ⟨_, first⟩, schoolFate_of_tracked tracked (Finset.notMem_empty _),
          if_pos leaves, closes] at second
        rw [second]
        exact .fauClosing _ first
      · rw [closes] at first
        have untracked := makes.changeAll_closing run.store distinct inside known
          orgnr ids first rfl
        rw [second]
        simp only [schoolFate, untracked]
        exact .ignored (by rw [first]; simp) (by rw [first]; simp)
    · rw [if_neg leaves] at first
      cases resolved : steps.1.state.resolve unit.municipalityNumber with
      | blocked => exact absurd resolved (run.resolve_ne_blocked _)
      | unknown =>
          rw [resolved] at first
          have same := alone fun t acts => by
            rw [first] at acts
            cases acts
          rw [same, schoolFate_of_tracked tracked (Finset.notMem_empty _), if_neg leaves,
            run.resolve_unknown resolved] at second
          rw [second]
          exact .unknown first
      | municipality r =>
          rw [resolved] at first
          have first : fate snapshot steps.1.state inputs.moment unit = .update s r := first
          obtain ⟨m, named⟩ := run.resolved_named resolved
          obtain ⟨follows, _⟩ := makes.changeAll_update run.store distinct inside known orgnr
            first (Option.isSome_iff_exists.mpr ⟨m, named⟩)
          have municipality := Option.some.inj (follows.municipality.symm.trans named)
          have tracked' : (changeAll (SchoolOp.onRow ids) steps.2.ops s).isTracked = true := by
            simpa [SchoolSnapshot.isTracked, follows.status, follows.verification] using tracked
          have stays : ¬ unitLeaves unit (changeAll (SchoolOp.onRow ids) steps.2.ops s) = true := by
            simpa [unitLeaves, follows.scopeOverride] using leaves
          rw [second, schoolFate_of_tracked tracked' (Finset.notMem_empty _), if_neg stays,
            run.resolve_municipality resolved named, ← municipality]
          exact .update _ (by rw [first]; simp) (by rw [first]; simp) follows.registerName
            follows.attributes
  · have ignored : fate snapshot steps.1.state inputs.moment unit = .ignored := by
      rw [first, schoolFate, if_pos (by simpa using tracked)]
    have same := alone fun t acts => by
      rw [ignored] at acts
      cases acts
    rw [second, same, schoolFate, if_pos (by simpa using tracked)]
    exact .ignored (by rw [ignored]; simp) (by rw [ignored]; simp)

/-- Every unit settles. -/
theorem settles (inside : unit ∈ normaliseUnits inputs.units)
    : (fate snapshot steps.1.state inputs.moment unit).Settles unit
        (fate after (secondState after) inputs.moment unit) := by
  cases found : schoolByOrgnr snapshot unit.orgnr with
  | none => exact run.settles_of_none inside found
  | some s =>
      obtain ⟨known, orgnr⟩ := run.store.schoolByOrgnr_eq_some.mp found
      exact run.settles_of_some inside known orgnr

-----------------------------------------------------------------------------------------
-- The second plan

/-- The second run has no candidate and no closing, reviews what the first run did, and
updates only schools that follow their units.
-/
theorem sorted_again
    : ∃ updates,
        sortUnits after (secondState after) inputs.moment (normaliseUnits inputs.units)
          = {
            candidates := []
            closings := []
            fauClosings := (sortUnits snapshot steps.1.state inputs.moment
              (normaliseUnits inputs.units)).fauClosings
            updates := updates
            unknown := (sortUnits snapshot steps.1.state inputs.moment
              (normaliseUnits inputs.units)).unknown
            skipped := (sortUnits after (secondState after) inputs.moment
              (normaliseUnits inputs.units)).skipped }
        ∧ ∀ u ∈ updates, u.isRenamed = false ∧ u.isMoving = false
          ∧ u.attributes = u.school.attributes := by
  have candidates : (normaliseUnits inputs.units).filterMap (fun u =>
      (fate after (secondState after) inputs.moment u).candidate? u) = [] :=
    List.filterMap_eq_nil_iff.mpr fun u inside => (run.settles inside).candidate?_eq_none
  have closings : (normaliseUnits inputs.units).filterMap (fun u =>
      (fate after (secondState after) inputs.moment u).closing?) = [] :=
    List.filterMap_eq_nil_iff.mpr fun u inside => (run.settles inside).closing?_eq_none
  have fauClosings : (normaliseUnits inputs.units).filterMap (fun u =>
      (fate after (secondState after) inputs.moment u).fauClosing?)
        = (normaliseUnits inputs.units).filterMap fun u =>
          (fate snapshot steps.1.state inputs.moment u).fauClosing? :=
    List.filterMap_congr fun u inside => (run.settles inside).fauClosing?_eq
  have unknown : (normaliseUnits inputs.units).filter (fun u =>
      (fate after (secondState after) inputs.moment u).isUnknown)
        = (normaliseUnits inputs.units).filter fun u =>
          (fate snapshot steps.1.state inputs.moment u).isUnknown :=
    List.filter_congr fun u inside => (run.settles inside).isUnknown_eq
  refine ⟨(sortUnits after (secondState after) inputs.moment
    (normaliseUnits inputs.units)).updates, ?_, ?_⟩
  · simp only [sortUnits, candidates, closings, fauClosings, unknown]
  · intro u member
    obtain ⟨inside, updates⟩ := mem_updates.mp member
    have settled := run.settles inside
    rw [updates] at settled
    cases h : u.municipality with
    | new n =>
        rw [h] at settled
        cases settled
    | existing m =>
        rw [h] at settled
        cases settled with
        | update _ _ _ named attributes =>
            refine ⟨?_, ?_, attributes.symm⟩
            · simp [Update.isRenamed, named]
            · simp [Update.isMoving, h]

omit run in
/-- Updates that change nothing plan nothing and mint nothing. -/
theorem stepUpdate_settled {updates : List (Update Id)} (ops : List (SchoolOp Id))
    (book : SlugBook Id)
    (settled : ∀ u ∈ updates, u.isRenamed = false ∧ u.isMoving = false
      ∧ u.attributes = u.school.attributes)
    : updates.foldlM stepUpdate (ops, book) = some (ops, book) := by
  induction updates with
  | nil => rfl
  | cons u rest ih =>
      obtain ⟨named, still, attributes⟩ := settled u List.mem_cons_self
      have stepped : stepUpdate (ops, book) u = some (ops, book) := by
        simp [stepUpdate, planUpdate, renameOps, moveOps, attributeOps, named, still, attributes]
      exact foldlM_cons_eq_some.mpr
        ⟨_, stepped, ih fun later inside => settled later (List.mem_cons_of_mem _ inside)⟩

/-- The second school plan has no operation. Its review items are the closures of all
schools with a live FAU and the unknown numbers.
-/
theorem planSchools_again (repeats : again.Repeats inputs)
    : ∃ second, planSchools after again.normalised (secondState after) = some second
        ∧ second.ops = []
        ∧ second.reviews
          = ((sortUnits snapshot steps.1.state inputs.moment
              (normaliseUnits inputs.units)).fauClosings).map closureReview
            ++ ((sortUnits snapshot steps.1.state inputs.moment
              (normaliseUnits inputs.units)).unknown).map unknownNumberReview := by
  obtain ⟨updates, sorted, settled⟩ := run.sorted_again
  have same : sortedUnits after again.normalised (secondState after)
      = sortUnits after (secondState after) inputs.moment (normaliseUnits inputs.units) := by
    simp only [sortedUnits, SyncInputs.normalised, repeats.units, repeats.moment]
  have placed (faus : List (FauClosing Id))
      : placeAll ([] : List (Candidate Id)) after [] faus = ⟨[], [], faus, []⟩ := by
    simp [placeAll, rankedMatches, sortOn]
  have fresh : ((sortUnits snapshot steps.1.state inputs.moment
      (normaliseUnits inputs.units)).fauClosings).filter (fun f => !f.reregistered)
        = (sortUnits snapshot steps.1.state inputs.moment
          (normaliseUnits inputs.units)).fauClosings := by
    refine List.filter_eq_self.mpr fun f member => ?_
    obtain ⟨u, _, reviews⟩ := mem_fauClosings.mp member
    rw [(fate_fauClosing run.store reviews).2.2]
    rfl
  unfold planSchools
  rw [same, sorted]
  simp only [placedUnits, placed, numberedCandidates, List.length_nil, Nat.not_lt_zero,
    if_false, stepUpdate_settled _ _ settled, Option.bind_eq_bind, Option.bind_some,
    List.zip_nil_left, List.zipIdx_nil, List.foldlM_nil, List.map_nil, fresh]
  exact ⟨_, rfl, rfl, rfl⟩

/-- The second run plans no operation at all. -/
theorem planSteps_again (repeats : again.Repeats inputs)
    : ∃ second, planSteps after again = some second ∧ second.1.ops = [] ∧ second.2.ops = []
        ∧ (again.kind = inputs.kind → second.1.reviews ⊆ steps.1.reviews)
        ∧ second.2.reviews
          = ((sortUnits snapshot steps.1.state inputs.moment
              (normaliseUnits inputs.units)).fauClosings).map closureReview
            ++ ((sortUnits snapshot steps.1.state inputs.moment
              (normaliseUnits inputs.units)).unknown).map unknownNumberReview := by
  have normalised : again.normalised.Repeats inputs.normalised :=
    ⟨repeats.municipalities, congrArg normaliseUnits repeats.units, repeats.moment,
      repeats.unchanged, repeats.kind⟩
  obtain ⟨municipalities, first, ops, state, reviews⟩ := planMunicipalities_again
    run.storeAfter run.applied.settles normalised run.applied.municipalities run.unblocked.1
  obtain ⟨schools, second, schoolOps, schoolReviews⟩ := run.planSchools_again repeats
  refine ⟨(municipalities, schools), ?_, ops, schoolOps, reviews, schoolReviews⟩
  simp only [planSteps, first, state, Option.bind_eq_bind, Option.bind_some]
  rw [show (⟨(initialGroupState after).byNumber, ∅, ∅⟩ : MunicipalityState Id)
    = secondState after from rfl, second]
  rfl

end FirstRun

/-- A plan without operations passes the breaker. -/
theorem conclude_of_no_ops (kind : RunKind) (breaker : Breaker) {plan : SyncPlan Id}
    {second : MunicipalityPlan Id × SchoolPlan Id} (municipalities : second.1.ops = [])
    (schools : second.2.ops = []) (assembled : plan = assemble after second)
    : conclude after kind breaker plan = .noChange ∨ conclude after kind breaker plan = .apply plan := by
  have calm : massChange after plan.counts = none := by
    subst assembled
    simp [massChange, assemble, municipalities, schools, tally, attributeLosses]
  unfold conclude
  rw [calm]
  have none_tripped : (if kind = .sync && breaker = .enforce then (none : Option AbortReason)
      else none) = none := by
    split <;> rfl
  rw [none_tripped]
  simp only
  split
  · exact .inl rfl
  · exact .inr rfl

end

section

variable [OsloZone] [UnicodeData] {snapshot after : RegisterSnapshot Nat} {inputs : SyncInputs}
  {p : SyncPlan Nat}

/-- The first run behind an applied plan without code changes. -/
theorem firstRun_of_apply (store : StoreConstraints snapshot)
    (distinct : (inputs.municipalities.map MunicipalityRecord.number).Nodup)
    (unchanged : inputs.codeChanges = [])
    (planned : plan snapshot inputs = some (.apply p)) {successors : Lookup Nat Nat}
    (applied : apply snapshot p = some (after, successors))
    : ∃ steps, p = assemble snapshot steps
        ∧ FirstRun (testkitIds snapshot p) snapshot after inputs steps := by
  obtain ⟨_, steps, stepped, rfl⟩ := planWith_apply planned
  have fresh := testkitIds_fresh snapshot (assemble snapshot steps)
  have covers := testkitIds_covers snapshot (assemble snapshot steps)
  obtain ⟨first, _⟩ := planSteps_draft store stepped
  exact ⟨steps, rfl, store, stepped, fresh, covers,
    planSteps_appliedPlan store stepped distinct fresh covers applied,
    planMunicipalities_unblocked (show inputs.normalised.codeChanges = [] from unchanged)
      first⟩

/-- One run converges: planned again against the register it left, the same units and
records need no operation.
-/
theorem plan_converges (store : StoreConstraints snapshot)
    (distinct : (inputs.municipalities.map MunicipalityRecord.number).Nodup)
    (unchanged : inputs.codeChanges = [])
    (planned : plan snapshot inputs = some (.apply p)) {successors : Lookup Nat Nat}
    (applied : apply snapshot p = some (after, successors))
    : plan after { inputs with kind := .sync } = some .noChange
      ∨ ∃ second, plan after { inputs with kind := .sync } = some (.apply second)
        ∧ second.municipalityOps = [] ∧ second.schoolOps = [] := by
  obtain ⟨steps, rfl, run⟩ := firstRun_of_apply store distinct unchanged planned applied
  have filled : emptySource? { inputs with kind := .sync } = none := (planWith_apply planned).1
  have repeats : SyncInputs.Repeats { inputs with kind := .sync } inputs :=
    ⟨rfl, rfl, rfl, unchanged, fun kind => by cases kind⟩
  obtain ⟨second, stepped, municipalities, schools, _⟩ := run.planSteps_again repeats
  have concluded : plan after { inputs with kind := .sync }
      = some (conclude after .sync .enforce (assemble after second)) := by
    simp only [plan, planWith, filled, stepped, Option.map_some]
  rw [concluded]
  rcases conclude_of_no_ops .sync .enforce municipalities schools rfl with same | same
  · exact .inl (congrArg some same)
  · exact .inr ⟨_, congrArg some same, municipalities, schools⟩

end

section

attribute [local instance] OsloZone.atEpoch UnicodeData.ascii

/-- The sample register's plan applies. -/
theorem samplePlan_applied
    : ∃ after successors, apply sampleRegister samplePlan = some (after, successors) := by
  have applied : (apply sampleRegister samplePlan).isSome = true := by decide +kernel
  obtain ⟨⟨after, successors⟩, same⟩ := Option.isSome_iff_exists.mp applied
  exact ⟨after, successors, same⟩

/-- A second run of the sample's sources, on the register the first one left, needs no
operation.
-/
theorem samplePlan_converges
    : ∃ after successors, apply sampleRegister samplePlan = some (after, successors)
      ∧ (plan after { sampleInputs with kind := .sync } = some .noChange
        ∨ ∃ second, plan after { sampleInputs with kind := .sync } = some (.apply second)
          ∧ second.municipalityOps = [] ∧ second.schoolOps = []) := by
  have planned : plan sampleRegister sampleInputs = some (.apply samplePlan) := by
    decide +kernel
  obtain ⟨after, successors, applied⟩ := samplePlan_applied
  exact ⟨after, successors, applied,
    plan_converges sampleRegister_store (by decide) rfl planned applied⟩

end

end FauPortalen.Register

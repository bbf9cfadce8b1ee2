import FauPortalen.Register.Sync.SlugOwnership

/-! The draft behind a school plan: its closings, creations and updates, and the slug book
that ends up knowing every slug they name.
-/

set_option linter.unusedSectionVars false

namespace FauPortalen.Register

open FauPortalen.Foundations

variable {Id : Type}

structure SchoolDraft (Id : Type) where
  creates : List (PlannedCreate Id)
  updates : List (PlannedUpdate Id)
  book : SlugBook Id

variable [LinearOrder Id] [OsloZone] [UnicodeData]

/-- The operations after the closings: the creations, then the updates. -/
def SchoolDraft.laterOps (draft : SchoolDraft Id) : List (SchoolOp Id) :=
  draft.creates.map PlannedCreate.op ++ draft.updates.flatMap PlannedUpdate.ops

/-- The plan is made of the draft's operations and the reviews of the sorted units. -/
structure SchoolDraft.Outlines (draft : SchoolDraft Id) (snapshot : RegisterSnapshot Id)
    (sorted : Sorted Id) (plan : SchoolPlan Id) : Prop where
  ops : plan.ops = (placedUnits snapshot sorted).closings.map closeOp ++ draft.laterOps
  reviews : plan.reviews = (placedUnits snapshot sorted).reviews
    ++ ((placedUnits snapshot sorted).fauClosings.filter fun f =>
      !f.reregistered).map closureReview
    ++ sorted.unknown.map unknownNumberReview
  skipped : plan.skipped = sorted.skipped
  creates : draft.creates.map PlannedCreate.source = numberedCandidates snapshot sorted
  updates : draft.updates.map PlannedUpdate.update = sorted.updates
  placed : ∀ p ∈ draft.creates, p.Placed
  rekeysOnce : ∀ p ∈ draft.updates, p.RekeysOnce

/-- The draft's slugs are those of a book that serves the register. -/
structure SchoolDraft.Makes (draft : SchoolDraft Id) (snapshot : RegisterSnapshot Id)
    (sorted : Sorted Id) (plan : SchoolPlan Id) : Prop
    extends draft.Outlines snapshot sorted plan where
  serves : draft.book.Serves snapshot sorted.closings
  createFits : ∀ p ∈ draft.creates, p.Fits draft.book
  updateFits : ∀ p ∈ draft.updates, p.Fits draft.book

/-- An operation of the plan is a closing, a creation, or one of an update's. -/
theorem SchoolDraft.Outlines.mem_ops {draft : SchoolDraft Id} {snapshot : RegisterSnapshot Id}
    {sorted : Sorted Id} {plan : SchoolPlan Id} (h : draft.Outlines snapshot sorted plan)
    {op : SchoolOp Id}
    : op ∈ plan.ops
      ↔ (∃ c ∈ (placedUnits snapshot sorted).closings, closeOp c = op)
        ∨ (∃ p ∈ draft.creates, p.op = op)
        ∨ ∃ p ∈ draft.updates, op ∈ p.ops := by
  rw [h.ops, SchoolDraft.laterOps]
  simp only [List.mem_append, List.mem_map, List.mem_flatMap]

section

variable {snapshot : RegisterSnapshot Id} {inputs : SyncInputs} {state : MunicipalityState Id}
  {plan : SchoolPlan Id}

/-- Every school plan has an outline, whatever the register holds. -/
theorem planSchools_outline (planned : planSchools snapshot inputs state = some plan)
    : ∃ draft : SchoolDraft Id,
        draft.Outlines snapshot (sortedUnits snapshot inputs state) plan := by
  unfold planSchools at planned
  simp only at planned
  split at planned
  · cases planned
  simp only [Option.bind_eq_bind, Option.bind_eq_some_iff, Prod.exists] at planned
  obtain ⟨updateOps, updated, updating, createOps, final, creating, same⟩ := planned
  cases same
  obtain ⟨_, updates, updates_eq, update_ops, fits⟩ := stepUpdate_fold updating
  obtain ⟨creates, creates_eq, create_ops, placed⟩ := stepCreate_fold_placed creating
  refine ⟨⟨creates, updates, final⟩, ?_, rfl, rfl, creates_eq, updates_eq, placed, ?_⟩
  · simp [SchoolDraft.laterOps, update_ops, create_ops]
  · exact fun p member => (fits p member).rekeysOnce

/-- Every school plan is made of a draft, by the two loops' descriptions. -/
theorem planSchools_draft (store : StoreConstraints snapshot)
    (distinct : (inputs.units.map NsrUnit.orgnr).Nodup)
    (planned : planSchools snapshot inputs state = some plan)
    : ∃ draft : SchoolDraft Id,
        draft.Makes snapshot (sortedUnits snapshot inputs state) plan := by
  unfold planSchools at planned
  simp only at planned
  split at planned
  · cases planned
  simp only [Option.bind_eq_bind, Option.bind_eq_some_iff, Prod.exists] at planned
  obtain ⟨updateOps, updated, updating, createOps, final, creating, same⟩ := planned
  cases same
  obtain ⟨serves, inherited⟩ := inheritedBook_serves store distinct state inputs.moment
  obtain ⟨grows₁, updates, updates_eq, update_ops, update_fits⟩ := stepUpdate_fold updating
  obtain ⟨grows₂, creates, creates_eq, create_ops, create_fits⟩ :=
    stepCreate_fold creating fun c member slug given =>
      grows₁.keeps _ _ (inherited c member slug given)
  refine ⟨⟨creates, updates, final⟩, ⟨?_, rfl, rfl, creates_eq, updates_eq, ?_, ?_⟩,
    serves.grow (grows₁.trans grows₂), ?_, ?_⟩
  · simp [SchoolDraft.laterOps, update_ops, create_ops]
  · exact fun p member => (create_fits p member).2
  · exact fun p member => (update_fits p member).rekeysOnce
  · exact fun p member => (create_fits p member).1
  · exact fun p member => (update_fits p member).grow grows₂

/-- Both steps of a run: the municipality plan, and the school plan for units with distinct
organisation numbers.
-/
theorem planSteps_parts {steps : MunicipalityPlan Id × SchoolPlan Id}
    (planned : planSteps snapshot inputs = some steps)
    : planMunicipalities snapshot inputs.normalised = some steps.1
      ∧ ((normaliseUnits inputs.units).map NsrUnit.orgnr).Nodup
      ∧ planSchools snapshot inputs.normalised steps.1.state = some steps.2 := by
  simp only [planSteps, Option.bind_eq_bind, Option.bind_eq_some_iff] at planned
  obtain ⟨municipalities, first, schools, second, same⟩ := planned
  cases same
  exact ⟨first, nodup_dropRepeats_sortOn _ _, second⟩

/-- A run's school plan has an outline. -/
theorem planSteps_outline {steps : MunicipalityPlan Id × SchoolPlan Id}
    (planned : planSteps snapshot inputs = some steps)
    : planMunicipalities snapshot inputs.normalised = some steps.1
      ∧ ((normaliseUnits inputs.units).map NsrUnit.orgnr).Nodup
      ∧ ∃ draft : SchoolDraft Id, draft.Outlines snapshot
          (sortUnits snapshot steps.1.state inputs.moment (normaliseUnits inputs.units))
          steps.2 := by
  obtain ⟨first, distinct, second⟩ := planSteps_parts planned
  exact ⟨first, distinct, planSchools_outline second⟩

/-- A run's school plan is made of a draft. -/
theorem planSteps_draft {steps : MunicipalityPlan Id × SchoolPlan Id}
    (store : StoreConstraints snapshot) (planned : planSteps snapshot inputs = some steps)
    : planMunicipalities snapshot inputs.normalised = some steps.1
      ∧ ((normaliseUnits inputs.units).map NsrUnit.orgnr).Nodup
      ∧ ∃ draft : SchoolDraft Id, draft.Makes snapshot
          (sortUnits snapshot steps.1.state inputs.moment (normaliseUnits inputs.units))
          steps.2 := by
  obtain ⟨first, distinct, second⟩ := planSteps_parts planned
  exact ⟨first, distinct, planSchools_draft store distinct second⟩

end

end FauPortalen.Register

import Mathlib.Data.Set.Card
import FauPortalen.Register.Sync.PlanTargets

/-! The mass-change breaker: the two entry points differ only where it stops a plan, and what
it counts are schools.
-/

set_option linter.unusedSectionVars false

namespace FauPortalen.Register

open FauPortalen.Foundations

variable {Id : Type}

-----------------------------------------------------------------------------------------
-- What the breaker watches

/-- The attributes of a school, by name. -/
inductive SchoolField
  | ownership
  | gradeFrom
  | gradeTo
  | language
  | website
  | streetAddress
  | postcode
  | postTown

/-- The school has the attribute. -/
def SchoolAttributes.Has (attributes : SchoolAttributes) : SchoolField → Prop
  | .ownership => attributes.ownership ≠ none
  | .gradeFrom => attributes.gradeFrom ≠ none
  | .gradeTo => attributes.gradeTo ≠ none
  | .language => attributes.language ≠ none
  | .website => attributes.website ≠ none
  | .streetAddress => attributes.streetAddress ≠ none
  | .postcode => attributes.postcode ≠ none
  | .postTown => attributes.postTown ≠ none

/-- The operation closes the school. -/
def SchoolOp.Closes (s : SchoolSnapshot Id) : SchoolOp Id → Prop
  | .close id _ _ _ => id = s.id
  | _ => False

/-- The operation gives the school a register name it does not have. -/
def SchoolOp.Renames (s : SchoolSnapshot Id) : SchoolOp Id → Prop
  | .rename id registerName _ _ => id = s.id ∧ s.registerName ≠ some registerName
  | _ => False

/-- The operation leaves the school without an attribute that it has. -/
def SchoolOp.Blanks (s : SchoolSnapshot Id) : SchoolOp Id → Prop
  | .updateAttributes id attributes =>
      id = s.id ∧ ∃ field, s.attributes.Has field ∧ ¬ attributes.Has field
  | _ => False

/-- The schools of the snapshot on which some operation acts so. -/
def RegisterSnapshot.Acted (snapshot : RegisterSnapshot Id)
    (acts : SchoolSnapshot Id → SchoolOp Id → Prop) (ops : List (SchoolOp Id))
    : Set (SchoolSnapshot Id) :=
  {s | s ∈ snapshot.schools ∧ ∃ op ∈ ops, acts s op}

/-- The active schools, listed or verified. -/
def RegisterSnapshot.trackedCount (snapshot : RegisterSnapshot Id) : Nat :=
  (snapshot.schools.filter SchoolSnapshot.isTracked).length

/-- More than 2% closing, more than 5% renamed or more than 5% losing an attribute, of at
least one school.
-/
def Counts.Trips (counts : Counts) (active : Nat) : Prop :=
  0 < active
    ∧ (counts.schoolsClosed * 100 > active * 2
      ∨ counts.schoolsRenamed * 100 > active * 5
      ∨ counts.attributeLosses * 100 > active * 5)

instance (counts : Counts) (active : Nat) : Decidable (counts.Trips active) := by
  unfold Counts.Trips
  infer_instance

theorem losesAField_iff {old new : SchoolAttributes}
    : losesAField old new = true ↔ ∃ field, old.Has field ∧ ¬ new.Has field := by
  constructor
  · intro loses
    simp only [losesAField, Bool.or_eq_true, Bool.and_eq_true, Option.isSome_iff_ne_none,
      Option.isNone_iff_eq_none] at loses
    rcases loses with ((((((lost | lost) | lost) | lost) | lost) | lost) | lost) | lost
    · exact ⟨.ownership, lost.1, not_not_intro lost.2⟩
    · exact ⟨.gradeFrom, lost.1, not_not_intro lost.2⟩
    · exact ⟨.gradeTo, lost.1, not_not_intro lost.2⟩
    · exact ⟨.language, lost.1, not_not_intro lost.2⟩
    · exact ⟨.website, lost.1, not_not_intro lost.2⟩
    · exact ⟨.streetAddress, lost.1, not_not_intro lost.2⟩
    · exact ⟨.postcode, lost.1, not_not_intro lost.2⟩
    · exact ⟨.postTown, lost.1, not_not_intro lost.2⟩
  · intro ⟨field, had, lacks⟩
    cases field <;>
      simp_all [losesAField, SchoolAttributes.Has, Option.isSome_iff_ne_none]

-----------------------------------------------------------------------------------------
-- The tally counts operations

/-- The school an operation closes. -/
def SchoolOp.closed? : SchoolOp Id → Option Id
  | .close id _ _ _ => some id
  | _ => none

/-- The school an operation renames. -/
def SchoolOp.renamed? : SchoolOp Id → Option Id
  | .rename id _ _ _ => some id
  | _ => none

theorem countMunicipalityOps_keeps (ops : List (MunicipalityOp Id)) (counts : Counts)
    : (ops.foldl countMunicipalityOp counts).schoolsClosed = counts.schoolsClosed
      ∧ (ops.foldl countMunicipalityOp counts).schoolsRenamed = counts.schoolsRenamed := by
  induction ops generalizing counts with
  | nil => exact ⟨rfl, rfl⟩
  | cons op rest ih =>
      have step : (countMunicipalityOp counts op).schoolsClosed = counts.schoolsClosed
          ∧ (countMunicipalityOp counts op).schoolsRenamed = counts.schoolsRenamed := by
        cases op <;> exact ⟨rfl, rfl⟩
      obtain ⟨closed, renamed⟩ := ih (countMunicipalityOp counts op)
      exact ⟨closed.trans step.1, renamed.trans step.2⟩

theorem countSchoolOps_eq (ops : List (SchoolOp Id)) (counts : Counts)
    : (ops.foldl countSchoolOp counts).schoolsClosed
        = counts.schoolsClosed + (ops.filterMap SchoolOp.closed?).length
      ∧ (ops.foldl countSchoolOp counts).schoolsRenamed
        = counts.schoolsRenamed + (ops.filterMap SchoolOp.renamed?).length := by
  induction ops generalizing counts with
  | nil => exact ⟨rfl, rfl⟩
  | cons op rest ih =>
      obtain ⟨closed, renamed⟩ := ih (countSchoolOp counts op)
      rw [List.foldl_cons, closed, renamed]
      cases op with
      | create _ _ _ _ _ _ verification => cases verification <;> exact ⟨rfl, rfl⟩
      | rename =>
          refine ⟨rfl, ?_⟩
          simp only [countSchoolOp, List.filterMap_cons, SchoolOp.renamed?, List.length_cons]
          omega
      | updateAttributes => exact ⟨rfl, rfl⟩
      | move => exact ⟨rfl, rfl⟩
      | close =>
          refine ⟨?_, rfl⟩
          simp only [countSchoolOp, List.filterMap_cons, SchoolOp.closed?, List.length_cons]
          omega

theorem tally_eq (municipalityOps : List (MunicipalityOp Id)) (schoolOps : List (SchoolOp Id))
    (reviews skipped : Nat)
    : (tally municipalityOps schoolOps reviews skipped).schoolsClosed
        = (schoolOps.filterMap SchoolOp.closed?).length
      ∧ (tally municipalityOps schoolOps reviews skipped).schoolsRenamed
        = (schoolOps.filterMap SchoolOp.renamed?).length := by
  let start : Counts := { reviews, skipped }
  obtain ⟨closed, renamed⟩ :=
    countSchoolOps_eq schoolOps (municipalityOps.foldl countMunicipalityOp start)
  obtain ⟨none_closed, none_renamed⟩ := countMunicipalityOps_keeps municipalityOps start
  refine ⟨closed.trans ?_, renamed.trans ?_⟩
  · rw [none_closed, Nat.zero_add]
  · rw [none_renamed, Nat.zero_add]

-----------------------------------------------------------------------------------------
-- Distinct targets make operations count schools

/-- Operations that name distinct schools of the register are as many as the schools. -/
theorem ncard_acted {snapshot : RegisterSnapshot Id}
    (unique : (snapshot.schools.map (·.id)).Nodup) {ops : List (SchoolOp Id)}
    {acts : SchoolSnapshot Id → SchoolOp Id → Prop} {target? : SchoolOp Id → Option Id}
    (once : (ops.filterMap target?).Nodup)
    (known : ∀ op ∈ ops, ∀ id, target? op = some id →
      ∃ s ∈ snapshot.schools, s.id = id ∧ acts s op)
    (targets : ∀ op ∈ ops, ∀ s ∈ snapshot.schools, acts s op → target? op = some s.id)
    : (snapshot.Acted acts ops).ncard = (ops.filterMap target?).length := by
  classical
  have acted_iff (s : SchoolSnapshot Id) (member : s ∈ snapshot.schools)
      : s.id ∈ ops.filterMap target? ↔ ∃ op ∈ ops, acts s op := by
    rw [List.mem_filterMap]
    constructor
    · intro ⟨op, inside, named⟩
      obtain ⟨t, there, same, acting⟩ := known op inside s.id named
      rw [List.inj_on_of_nodup_map unique there member same] at acting
      exact ⟨op, inside, acting⟩
    · intro ⟨op, inside, acting⟩
      exact ⟨op, inside, targets op inside s member acting⟩
  let acted := snapshot.schools.filter fun s => s.id ∈ ops.filterMap target?
  have same : snapshot.Acted acts ops = (acted.toFinset : Set (SchoolSnapshot Id)) := by
    ext s
    simp only [RegisterSnapshot.Acted, Set.mem_ofPred_eq, List.coe_toFinset, acted, List.mem_filter,
      decide_eq_true_eq]
    exact and_congr_right fun member => (acted_iff s member).symm
  have distinct : acted.Nodup := (List.Nodup.of_map _ unique).filter _
  have listed : (acted.map (·.id)).Perm (ops.filterMap target?) := by
    have apart : (acted.map (·.id)).Nodup :=
      unique.sublist (List.filter_sublist.map _)
    refine (List.perm_ext_iff_of_nodup apart once).mpr fun id => ?_
    simp only [acted, List.mem_map, List.mem_filter, decide_eq_true_eq]
    constructor
    · rintro ⟨s, ⟨_, named⟩, rfl⟩
      exact named
    · intro named
      obtain ⟨op, inside, found⟩ := List.mem_filterMap.mp named
      obtain ⟨s, member, rfl, _⟩ := known op inside id found
      exact ⟨s, ⟨member, named⟩, rfl⟩
  rw [same, Set.ncard_coe_finset, List.toFinset_card_of_nodup distinct, ← listed.length_eq,
    List.length_map]

-----------------------------------------------------------------------------------------
-- The operations of a plan

section

variable [LinearOrder Id] [OsloZone] [UnicodeData] {snapshot : RegisterSnapshot Id}
  {inputs : SyncInputs} {state : MunicipalityState Id} {schools : SchoolPlan Id}

/-- The school an operation blanks, among those of the register. -/
def SchoolOp.blanked? (snapshot : RegisterSnapshot Id) : SchoolOp Id → Option Id
  | .updateAttributes id attributes =>
      ((findRow SchoolSnapshot.id id snapshot.schools).filter fun s =>
        losesAField s.attributes attributes).map (·.id)
  | _ => none

theorem attributeLosses_eq (snapshot : RegisterSnapshot Id) (ops : List (SchoolOp Id))
    : attributeLosses snapshot ops = (ops.filterMap (SchoolOp.blanked? snapshot)).length := by
  rw [attributeLosses, List.length_filterMap_eq_countP, List.countP_eq_length_filter]
  congr 1
  refine List.filter_congr fun op _ => ?_
  cases op with
  | updateAttributes id attributes =>
      simp only [SchoolOp.blanked?, Option.isSome_map]
      cases findRow SchoolSnapshot.id id snapshot.schools with
      | none => rfl
      | some s => cases loses : losesAField s.attributes attributes <;> simp [loses]
  | _ => rfl

-----------------------------------------------------------------------------------------
-- The counts are of schools

section Counts

variable (unique : (snapshot.schools.map (·.id)).Nodup)
  (distinct : (inputs.units.map NsrUnit.orgnr).Nodup)
  (planned : planSchools snapshot inputs state = some schools)
include unique distinct planned

theorem ncard_closed
    : (snapshot.Acted SchoolOp.Closes schools.ops).ncard
      = (schools.ops.filterMap SchoolOp.closed?).length := by
  have own (op : SchoolOp Id) (id : Id) (named : op.closed? = some id)
      : op.target? = some id := by
    cases op with
    | close => exact named
    | _ => cases named
  refine ncard_acted unique (nodup_acted unique distinct planned own fun p _ => ?_) ?_ ?_
  · have none_closed : p.ops.filterMap SchoolOp.closed? = [] := by
      refine List.filterMap_eq_nil_iff.mpr fun op member => ?_
      rcases PlannedUpdate.mem_ops.mp member with ⟨_, rfl⟩ | ⟨_, rfl⟩ | ⟨_, rfl⟩ <;> rfl
    rw [none_closed]
    exact List.nil_sublist _
  · intro op member id named
    rcases planSchools_cases planned member
      with ⟨c, rfl, d, closing, same⟩ | ⟨untargeted, _⟩ | ⟨p, update, _⟩
    · cases named
      exact ⟨c.school, same ▸ (closing_member closing).1, rfl, rfl⟩
    · cases (own op id named).symm.trans untargeted
    · rcases PlannedUpdate.mem_ops.mp update with ⟨_, rfl⟩ | ⟨_, rfl⟩ | ⟨_, rfl⟩ <;> cases named
  · intro op _ s _ closes
    cases op with
    | close id => exact congrArg some closes
    | _ => exact closes.elim

theorem ncard_renamed
    : (snapshot.Acted SchoolOp.Renames schools.ops).ncard
      = (schools.ops.filterMap SchoolOp.renamed?).length := by
  have own (op : SchoolOp Id) (id : Id) (named : op.renamed? = some id)
      : op.target? = some id := by
    cases op with
    | rename => exact named
    | _ => cases named
  refine ncard_acted unique (nodup_acted unique distinct planned own fun p _ => ?_) ?_ ?_
  · unfold PlannedUpdate.ops PlannedUpdate.renameOps PlannedUpdate.moveOps attributeOps
    split <;> split <;> split <;> simp [SchoolOp.renamed?]
  · intro op member id named
    rcases planSchools_cases planned member
      with ⟨c, rfl, _⟩ | ⟨untargeted, _⟩ | ⟨p, update, updated⟩
    · cases named
    · cases (own op id named).symm.trans untargeted
    · rcases PlannedUpdate.mem_ops.mp update with ⟨isRenamed, rfl⟩ | ⟨_, rfl⟩ | ⟨_, rfl⟩
      · cases named
        refine ⟨p.update.school, (update_member updated).1, rfl, rfl, ?_⟩
        simpa [Update.isRenamed] using isRenamed
      · cases named
      · cases named
  · intro op _ s _ renames
    cases op with
    | rename id => exact congrArg some renames.1
    | _ => exact renames.elim

theorem ncard_blanked
    : (snapshot.Acted SchoolOp.Blanks schools.ops).ncard
      = (schools.ops.filterMap (SchoolOp.blanked? snapshot)).length := by
  have blanked {op : SchoolOp Id} {id : Id} (named : op.blanked? snapshot = some id)
      : ∃ attributes, op = .updateAttributes id attributes
        ∧ ∃ s ∈ snapshot.schools, s.id = id ∧ losesAField s.attributes attributes = true := by
    cases op with
    | updateAttributes given attributes =>
        obtain ⟨s, kept, rfl⟩ := Option.map_eq_some_iff.mp named
        obtain ⟨found, loses⟩ := Option.filter_eq_some_iff.mp kept
        obtain ⟨member, rfl⟩ := (findRow_eq_some unique).mp found
        exact ⟨attributes, rfl, s, member, rfl, loses⟩
    | _ => cases named
  have own (op : SchoolOp Id) (id : Id) (named : op.blanked? snapshot = some id)
      : op.target? = some id := by
    obtain ⟨attributes, rfl, _⟩ := blanked named
    rfl
  refine ncard_acted unique (nodup_acted unique distinct planned own fun p _ => ?_) ?_ ?_
  · have renames : p.renameOps.filterMap (SchoolOp.blanked? snapshot) = [] := by
      unfold PlannedUpdate.renameOps
      split <;> rfl
    have moves : p.moveOps.filterMap (SchoolOp.blanked? snapshot) = [] := by
      unfold PlannedUpdate.moveOps
      split <;> rfl
    rw [PlannedUpdate.ops, List.filterMap_append, List.filterMap_append, renames, moves,
      List.append_nil, List.nil_append]
    unfold attributeOps
    split
    · cases named : SchoolOp.blanked? snapshot
          (.updateAttributes p.update.school.id p.update.attributes) with
      | none => simp [named]
      | some id =>
          obtain rfl : p.update.school.id = id := Option.some.inj (own _ _ named)
          simp [named]
    · exact List.nil_sublist _
  · intro op _ id named
    obtain ⟨attributes, rfl, s, member, rfl, loses⟩ := blanked named
    exact ⟨s, member, rfl, rfl, losesAField_iff.mp loses⟩
  · intro op _ s member blanks
    cases op with
    | updateAttributes id attributes =>
        obtain ⟨rfl, loses⟩ := blanks
        have found := (findRow_eq_some unique).mpr ⟨member, rfl⟩
        simp [SchoolOp.blanked?, found, losesAField_iff.mpr loses]
    | _ => exact blanks.elim

end Counts

-----------------------------------------------------------------------------------------
-- The two entry points

theorem massChange_eq_some {counts : Counts} {reason : AbortReason}
    : massChange snapshot counts = some reason
      ↔ counts.Trips snapshot.trackedCount
        ∧ reason = .massChange counts.schoolsClosed counts.schoolsRenamed
          counts.attributeLosses snapshot.trackedCount := by
  have eq : massChange snapshot counts
      = if counts.Trips snapshot.trackedCount then
          some (.massChange counts.schoolsClosed counts.schoolsRenamed counts.attributeLosses
            snapshot.trackedCount)
        else none := rfl
  rw [eq]
  split
  · next tripped => simp [tripped, eq_comm]
  · next calm => simp [calm]

/-- A plan without operations trips nothing. -/
theorem assemble_trips {steps : MunicipalityPlan Id × SchoolPlan Id} {active : Nat}
    (trips : (assemble snapshot steps).counts.Trips active)
    : (assemble snapshot steps).schoolOps ≠ [] := by
  intro empty
  have counted : (assemble snapshot steps).counts.schoolsClosed = 0
      ∧ (assemble snapshot steps).counts.schoolsRenamed = 0
      ∧ (assemble snapshot steps).counts.attributeLosses = 0 := by
    have none_planned : steps.2.ops = [] := empty
    refine ⟨(tally_eq _ _ _ _).1.trans ?_, (tally_eq _ _ _ _).2.trans ?_,
      (attributeLosses_eq _ _).trans ?_⟩ <;> rw [none_planned] <;> rfl
  obtain ⟨closed, renamed, blanked⟩ := counted
  obtain ⟨_, exceeded⟩ := trips
  omega

theorem conclude_accept {kind : RunKind} {p : SyncPlan Id}
    : conclude snapshot kind .accept p
      = if p.municipalityOps.isEmpty && p.schoolOps.isEmpty && p.reviews.isEmpty then .noChange
        else .apply p := by
  simp [conclude]

/-- The breaker stops a plan, or leaves the outcome as it is without it. -/
theorem conclude_enforce {kind : RunKind} {p : SyncPlan Id}
    : conclude snapshot kind .enforce p
      = if kind = .sync ∧ p.counts.Trips snapshot.trackedCount then
          .abort (.massChange p.counts.schoolsClosed p.counts.schoolsRenamed
            p.counts.attributeLosses snapshot.trackedCount) p.counts
        else conclude snapshot kind .accept p := by
  cases kind with
  | seed => simp [conclude]
  | sync =>
      cases stopped : massChange snapshot p.counts with
      | some reason =>
          obtain ⟨trips, rfl⟩ := massChange_eq_some.mp stopped
          simp [conclude, stopped, trips]
      | none =>
          have calm : ¬ p.counts.Trips snapshot.trackedCount := fun trips => by
            rw [massChange_eq_some.mpr ⟨trips, rfl⟩] at stopped
            cases stopped
          simp [conclude, stopped, calm]

/-- What the breaker stops, and what it leaves. -/
structure CircuitBreaker (snapshot : RegisterSnapshot Id) (inputs : SyncInputs) : Prop where
  /-- Where it stops nothing, accepting mass changes changes nothing. -/
  agree : plan snapshot inputs = planAcceptingMassChange snapshot inputs
    ∨ ∃ closes renames losses active counts, plan snapshot inputs
      = some (.abort (.massChange closes renames losses active) counts)
  /-- It stops exactly the plans of a sync that exceed a threshold, which accepting mass
  changes applies.
  -/
  stops : ∀ closes renames losses active counts,
    plan snapshot inputs = some (.abort (.massChange closes renames losses active) counts)
    ↔ inputs.municipalities ≠ [] ∧ inputs.units ≠ [] ∧ inputs.kind = .sync
      ∧ (∃ p, planAcceptingMassChange snapshot inputs = some (.apply p) ∧ p.counts = counts)
      ∧ counts.Trips snapshot.trackedCount
      ∧ closes = counts.schoolsClosed ∧ renames = counts.schoolsRenamed
      ∧ losses = counts.attributeLosses ∧ active = snapshot.trackedCount
  /-- What it counts are distinct schools, for rows told apart by their ids. -/
  counts : (snapshot.schools.map (·.id)).Nodup → ∀ p,
    planAcceptingMassChange snapshot inputs = some (.apply p) →
      p.counts.schoolsClosed = (snapshot.Acted SchoolOp.Closes p.schoolOps).ncard
      ∧ p.counts.schoolsRenamed = (snapshot.Acted SchoolOp.Renames p.schoolOps).ncard
      ∧ p.counts.attributeLosses = (snapshot.Acted SchoolOp.Blanks p.schoolOps).ncard

theorem conclude_accept_ne_abort {kind : RunKind} {p : SyncPlan Id} {reason : AbortReason}
    {counts : Counts}
    : conclude snapshot kind .accept p ≠ .abort reason counts := by
  rw [conclude_accept]
  split <;> nofun

theorem emptySource?_eq_none
    : emptySource? inputs = none ↔ inputs.municipalities ≠ [] ∧ inputs.units ≠ [] := by
  unfold emptySource?
  split
  · next empty => simp_all
  · split <;> simp_all

theorem planAcceptingMassChange_ne_massChange {closes renames losses active : Nat}
    {counts : Counts}
    : planAcceptingMassChange snapshot inputs
      ≠ some (.abort (.massChange closes renames losses active) counts) := by
  intro planned
  unfold planAcceptingMassChange planWith at planned
  split at planned
  · cases planned
  · obtain ⟨steps, _, concluded⟩ := Option.map_eq_some_iff.mp planned
    exact conclude_accept_ne_abort concluded

/-- With both sources, the breaker is asked about the assembled plan. -/
theorem plan_eq_of_steps {steps : MunicipalityPlan Id × SchoolPlan Id}
    (filled : emptySource? inputs = none) (stepped : planSteps snapshot inputs = some steps)
    : plan snapshot inputs
        = some (conclude snapshot inputs.kind .enforce (assemble snapshot steps))
      ∧ planAcceptingMassChange snapshot inputs
        = some (conclude snapshot inputs.kind .accept (assemble snapshot steps)) := by
  simp [plan, planAcceptingMassChange, planWith, filled, stepped]

/-- The outcomes agree, or a plan of steps with operations was stopped. -/
theorem plan_cases (snapshot : RegisterSnapshot Id) (inputs : SyncInputs)
    : plan snapshot inputs = planAcceptingMassChange snapshot inputs
      ∧ (∀ p, planAcceptingMassChange snapshot inputs = some (.apply p) → inputs.kind = .sync →
        ¬ p.counts.Trips snapshot.trackedCount)
      ∨ emptySource? inputs = none ∧ inputs.kind = .sync
        ∧ ∃ p : SyncPlan Id, planAcceptingMassChange snapshot inputs = some (.apply p)
          ∧ p.counts.Trips snapshot.trackedCount
          ∧ plan snapshot inputs = some (.abort (.massChange p.counts.schoolsClosed
            p.counts.schoolsRenamed p.counts.attributeLosses snapshot.trackedCount) p.counts) := by
  cases filled : emptySource? inputs with
  | some source =>
      refine .inl ⟨by simp [plan, planAcceptingMassChange, planWith, filled], fun p planned => ?_⟩
      simp [planAcceptingMassChange, planWith, filled] at planned
  | none =>
      cases stepped : planSteps snapshot inputs with
      | none =>
          refine .inl
            ⟨by simp [plan, planAcceptingMassChange, planWith, filled, stepped], fun p planned => ?_⟩
          simp [planAcceptingMassChange, planWith, filled, stepped] at planned
      | some steps =>
          obtain ⟨enforced, accepted⟩ := plan_eq_of_steps filled stepped
          rw [enforced, accepted, conclude_enforce]
          split
          · next trips =>
              have some_ops := assemble_trips trips.2
              refine .inr ⟨rfl, trips.1, assemble snapshot steps, ?_, trips.2, rfl⟩
              rw [conclude_accept, if_neg (by simp [some_ops])]
          · next calm =>
              refine .inl ⟨rfl, fun p planned sync trips => calm ⟨sync, ?_⟩⟩
              rw [conclude_accept] at planned
              split at planned
              · cases planned
              · cases planned
                exact trips

/-- The mass-change breaker, for every register and every run. -/
theorem plan_circuitBreaker (snapshot : RegisterSnapshot Id) (inputs : SyncInputs)
    : CircuitBreaker snapshot inputs := by
  refine ⟨?_, fun closes renames losses active counts => ⟨fun stopped => ?_, ?_⟩, ?_⟩
  · rcases plan_cases snapshot inputs with ⟨same, _⟩ | ⟨_, _, p, _, _, stopped⟩
    · exact .inl same
    · exact .inr ⟨_, _, _, _, _, stopped⟩
  · rcases plan_cases snapshot inputs with ⟨same, _⟩ | ⟨filled, sync, p, accepted, trips, planned⟩
    · exact absurd (same.symm.trans stopped) planAcceptingMassChange_ne_massChange
    · cases planned.symm.trans stopped
      obtain ⟨municipalities, units⟩ := emptySource?_eq_none.mp filled
      exact ⟨municipalities, units, sync, ⟨p, accepted, rfl⟩, trips, rfl, rfl, rfl, rfl⟩
  · rintro ⟨_, _, sync, ⟨p, accepted, rfl⟩, trips, rfl, rfl, rfl, rfl⟩
    rcases plan_cases snapshot inputs with ⟨_, calm⟩ | ⟨_, _, q, accepted', _, planned⟩
    · exact absurd trips (calm p accepted sync)
    · cases accepted.symm.trans accepted'
      exact planned
  · intro unique p accepted
    obtain ⟨_, steps, stepped, rfl⟩ := planWith_apply accepted
    simp only [planSteps, Option.bind_eq_bind, Option.bind_eq_some_iff] at stepped
    obtain ⟨municipalities, _, schools, planned, same⟩ := stepped
    cases same
    have distinct : (inputs.normalised.units.map NsrUnit.orgnr).Nodup :=
      nodup_dropRepeats_sortOn _ _
    refine ⟨?_, ?_, ?_⟩
    · exact (tally_eq _ _ _ _).1.trans (ncard_closed unique distinct planned).symm
    · exact (tally_eq _ _ _ _).2.trans (ncard_renamed unique distinct planned).symm
    · exact (attributeLosses_eq _ _).trans (ncard_blanked unique distinct planned).symm

end

section

attribute [local instance] OsloZone.atEpoch UnicodeData.ascii

/-- As a sync the sample's run is stopped: it closes one of two schools and renames the other.
-/
theorem sampleRegister_stopped
    : plan sampleRegister { sampleInputs with kind := .sync }
        = some (.abort (.massChange 1 1 0 2) samplePlan.counts)
      ∧ (sampleRegister.Acted SchoolOp.Closes samplePlan.schoolOps).ncard = 1 := by
  let inputs := { sampleInputs with kind := .sync }
  have accepted : planAcceptingMassChange sampleRegister inputs = some (.apply samplePlan) := by
    decide +kernel
  have breaker := plan_circuitBreaker sampleRegister inputs
  refine ⟨(breaker.stops 1 1 0 2 samplePlan.counts).mpr ?_, ?_⟩
  · exact ⟨by decide, by decide, rfl, ⟨samplePlan, accepted, rfl⟩, by decide, rfl, rfl, rfl, by decide⟩
  · exact (breaker.counts sampleRegister_store.schoolIds samplePlan accepted).1.symm

end

end FauPortalen.Register

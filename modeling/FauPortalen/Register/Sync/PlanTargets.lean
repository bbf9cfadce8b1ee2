import FauPortalen.Register.Sync.PlanSlugSafety

/-! Which operations of a plan act on a school: its one closing, the operations of its one
update, or none; and which review items name it.
-/

set_option linter.unusedSectionVars false

namespace FauPortalen.Register

open FauPortalen.Foundations

variable {Id : Type}

-----------------------------------------------------------------------------------------
-- Naming a school

/-- The successor a closing names. -/
def SchoolOp.successor? : SchoolOp Id → Option (Ref Id)
  | .close _ _ _ successor => successor
  | _ => none

/-- The operation names the school, as its target or as a successor. -/
def SchoolOp.names [DecidableEq Id] (op : SchoolOp Id) (id : Id) : Bool :=
  op.target? = some id || op.successor? = some (.existing id)

/-- The operation closes its school. -/
def SchoolOp.isClose : SchoolOp Id → Bool
  | .close .. => true
  | _ => false

-----------------------------------------------------------------------------------------
-- Plans of any register

/-- The municipality an operation puts its school in. -/
def SchoolOp.municipality? : SchoolOp Id → Option (Ref Id)
  | .create _ municipality .. => some municipality
  | .move _ _ target _ => some target
  | _ => none

section

variable [LinearOrder Id] [OsloZone] [UnicodeData] {snapshot : RegisterSnapshot Id}
  {inputs : SyncInputs} {state : MunicipalityState Id} {schools : SchoolPlan Id}

/-- An operation of a school plan closes or updates a school of the register, or creates the
row of a candidate.
-/
theorem planSchools_cases (planned : planSchools snapshot inputs state = some schools)
    {op : SchoolOp Id} (member : op ∈ schools.ops)
    : (∃ c : Closing Id, op = closeOp c
        ∧ ∃ d ∈ (sortedUnits snapshot inputs state).closings, c.school = d.school)
      ∨ (op.target? = none ∧ ∃ c ∈ (sortedUnits snapshot inputs state).candidates,
        op.municipality? = some c.municipality)
      ∨ ∃ p : PlannedUpdate Id, op ∈ p.ops
        ∧ p.update ∈ (sortedUnits snapshot inputs state).updates := by
  obtain ⟨draft, outlines⟩ := planSchools_outline planned
  rcases outlines.mem_ops.mp member with ⟨c, placed, rfl⟩ | ⟨p, inside, rfl⟩ | ⟨p, inside, own⟩
  · have inside := List.mem_map_of_mem (f := fun c => c.school) placed
    rw [placedUnits, placeAll_closings] at inside
    obtain ⟨d, closed, same⟩ := List.mem_map.mp inside
    exact .inl ⟨c, rfl, d, closed, same.symm⟩
  · have source := outlines.creates ▸ List.mem_map_of_mem (f := PlannedCreate.source) inside
    have candidate := List.mem_of_getElem? (mem_numberedCandidates.mp source).1
    exact .inr (.inl ⟨rfl, p.candidate, candidate, rfl⟩)
  · exact .inr (.inr ⟨p, own, outlines.updates ▸ List.mem_map_of_mem inside⟩)

/-- The school of an update is one of the register. -/
theorem update_member {u : Update Id} (updated : u ∈ (sortedUnits snapshot inputs state).updates)
    : u.school ∈ snapshot.schools ∧ u.school.municipalityId ∉ state.blockedIds := by
  obtain ⟨_, updates⟩ := mem_updates.mp updated
  obtain ⟨member, _, _, unblocked⟩ := fate_school?
    (show (fate snapshot state inputs.moment u.unit).school? = some u.school by
      rw [updates]; rfl)
  exact ⟨member, unblocked⟩

end

section

variable [LinearOrder Id] [OsloZone] [UnicodeData] {snapshot : RegisterSnapshot Id}
  {state : MunicipalityState Id} {moment : Moment} {units : List NsrUnit}
  {draft : SchoolDraft Id} {plan : SchoolPlan Id}

-----------------------------------------------------------------------------------------
-- The operations on one school

/-- The closings after placement have distinct schools, those of the sorted closings. -/
theorem placedUnits_closings (snapshot : RegisterSnapshot Id) (sorted : Sorted Id)
    : (placedUnits snapshot sorted).closings.map (·.school.id)
      = sorted.closings.map (·.school.id) := by
  have schools : (placedUnits snapshot sorted).closings.map (·.school)
      = sorted.closings.map (·.school) := placeAll_closings snapshot
  simpa [Function.comp_def] using congrArg (List.map SchoolSnapshot.id) schools

/-- A plan acts on a school by its closing and its update. -/
theorem SchoolDraft.Outlines.filter_target {sorted : Sorted Id}
    (outlines : draft.Outlines snapshot sorted plan) (id : Id)
    : plan.ops.filter (·.target? = some id)
      = ((placedUnits snapshot sorted).closings.filter (·.school.id = id)).map closeOp
        ++ (draft.updates.filter (·.update.school.id = id)).flatMap PlannedUpdate.ops := by
  have closings : ((placedUnits snapshot sorted).closings.map closeOp).filter
        (·.target? = some id)
      = ((placedUnits snapshot sorted).closings.filter (·.school.id = id)).map closeOp := by
    rw [List.filter_map]
    congr 1
    refine List.filter_congr fun c _ => ?_
    simp [closeOp, SchoolOp.target?]
  have creates : (draft.creates.map PlannedCreate.op).filter (·.target? = some id) = [] := by
    refine List.filter_eq_nil_iff.mpr fun op member => ?_
    obtain ⟨p, _, rfl⟩ := List.mem_map.mp member
    simp [PlannedCreate.op, SchoolOp.target?]
  have updates : (draft.updates.flatMap PlannedUpdate.ops).filter (·.target? = some id)
      = (draft.updates.filter (·.update.school.id = id)).flatMap PlannedUpdate.ops := by
    rw [List.filter_flatMap]
    induction draft.updates with
    | nil => rfl
    | cons p rest ih =>
        rw [List.flatMap_cons, ih]
        by_cases own : p.update.school.id = id
        · have all : p.ops.filter (·.target? = some id) = p.ops := by
            refine List.filter_eq_self.mpr fun op member => ?_
            simp [PlannedUpdate.target member, own]
          rw [List.filter_cons_of_pos (by simpa using own), List.flatMap_cons, all]
        · have none_own : p.ops.filter (·.target? = some id) = [] := by
            refine List.filter_eq_nil_iff.mpr fun op member => ?_
            simp [PlannedUpdate.target member, own]
          rw [List.filter_cons_of_neg (by simpa using own), none_own, List.nil_append]
  rw [outlines.ops, SchoolDraft.laterOps, List.filter_append, List.filter_append, closings,
    creates, updates, List.nil_append]

section

variable (outlines : draft.Outlines snapshot (sortUnits snapshot state moment units) plan)
  (keys : RowKeys snapshot) (distinct : (units.map NsrUnit.orgnr).Nodup)
include outlines keys distinct

/-- A closing school meets its closing alone. -/
theorem SchoolDraft.Outlines.filter_closing {c : Closing Id}
    (member : c ∈ (placedUnits snapshot (sortUnits snapshot state moment units)).closings)
    : plan.ops.filter (·.target? = some c.school.id) = [closeOp c] := by
  have apart : ((placedUnits snapshot (sortUnits snapshot state moment units)).closings.map
      (·.school.id)).Nodup := by
    rw [placedUnits_closings]
    exact nodup_closings keys.schoolIds distinct
  have inside : c.school.id
      ∈ (sortUnits snapshot state moment units).closings.map (·.school.id) := by
    rw [← placedUnits_closings snapshot]
    exact List.mem_map_of_mem member
  obtain ⟨d, hd, same⟩ := List.mem_map.mp inside
  have untouched : draft.updates.filter (·.update.school.id = c.school.id) = [] := by
    refine List.filter_eq_nil_iff.mpr fun p updated => ?_
    have differ := closing_ne_update keys.schoolIds distinct hd
      (SchoolDraft.Sorts.update ⟨outlines.creates, outlines.updates⟩ updated)
    simpa using fun own => differ (same.trans own.symm)
  rw [outlines.filter_target, filter_key_of_nodup apart member, untouched]
  rfl

/-- An updated school meets its update's operations alone. -/
theorem SchoolDraft.Outlines.filter_update {p : PlannedUpdate Id} (member : p ∈ draft.updates)
    : plan.ops.filter (·.target? = some p.update.school.id) = p.ops := by
  have sorts : draft.Sorts snapshot state moment units := ⟨outlines.creates, outlines.updates⟩
  have apart : (draft.updates.map (·.update.school.id)).Nodup := by
    have split : draft.updates.map (·.update.school.id)
        = (draft.updates.map PlannedUpdate.update).map (·.school.id) := by
      simp [Function.comp_def]
    rw [split, sorts.updates]
    exact nodup_updates keys.schoolIds distinct
  have open_school : (placedUnits snapshot (sortUnits snapshot state moment units)).closings.filter
      (·.school.id = p.update.school.id) = [] := by
    refine List.filter_eq_nil_iff.mpr fun c closing => ?_
    have inside : c.school.id
        ∈ (sortUnits snapshot state moment units).closings.map (·.school.id) := by
      rw [← placedUnits_closings snapshot]
      exact List.mem_map_of_mem closing
    obtain ⟨d, hd, same⟩ := List.mem_map.mp inside
    simpa [← same] using closing_ne_update keys.schoolIds distinct hd (sorts.update member)
  rw [outlines.filter_target, open_school, filter_key_of_nodup apart member]
  simp

/-- A school on which no unit acts, or whose unit only raises a review, meets no operation.
-/
theorem SchoolDraft.Outlines.filter_other {id : Id}
    (others : ∀ u ∈ units, ∀ s, (fate snapshot state moment u).school? = some s → s.id = id →
      ∃ f, fate snapshot state moment u = .fauClosing f)
    : plan.ops.filter (·.target? = some id) = [] := by
  have no_closing : (placedUnits snapshot (sortUnits snapshot state moment units)).closings.filter
      (·.school.id = id) = [] := by
    refine List.filter_eq_nil_iff.mpr fun c closing own => ?_
    have inside : c.school.id
        ∈ (sortUnits snapshot state moment units).closings.map (·.school.id) := by
      rw [← placedUnits_closings snapshot]
      exact List.mem_map_of_mem closing
    obtain ⟨d, hd, same⟩ := List.mem_map.mp inside
    obtain ⟨u, hu, closes⟩ := mem_closings.mp hd
    obtain ⟨f, reviews⟩ := others u hu d.school (by rw [closes]; rfl)
      (same.trans (by simpa using own))
    rw [closes] at reviews
    cases reviews
  have no_update : draft.updates.filter (·.update.school.id = id) = [] := by
    refine List.filter_eq_nil_iff.mpr fun p updated own => ?_
    obtain ⟨hu, updates⟩ :=
      mem_updates.mp (SchoolDraft.Sorts.update ⟨outlines.creates, outlines.updates⟩ updated)
    obtain ⟨f, reviews⟩ := others _ hu p.update.school (by rw [updates]; rfl)
      (by simpa using own)
    rw [updates] at reviews
    cases reviews
  rw [outlines.filter_target, no_closing, no_update]
  rfl

end

/-- The operations of one kind name distinct schools, when an update has one of them at most:
a unit closes or updates one school, and no two units one school.
-/
theorem nodup_acted {inputs : SyncInputs} {schools : SchoolPlan Id}
    (unique : (snapshot.schools.map (·.id)).Nodup)
    (distinct : (inputs.units.map NsrUnit.orgnr).Nodup)
    (planned : planSchools snapshot inputs state = some schools)
    {kind? : SchoolOp Id → Option Id}
    (own : ∀ op id, kind? op = some id → op.target? = some id)
    (single : ∀ p : PlannedUpdate Id, p.RekeysOnce →
      (p.ops.filterMap kind?).Sublist [p.update.school.id])
    : (schools.ops.filterMap kind?).Nodup := by
  obtain ⟨draft, outlines⟩ := planSchools_outline planned
  have closing (closings : List (Closing Id))
      : ((closings.map closeOp).filterMap kind?).Sublist (closings.map (·.school.id)) := by
    induction closings with
    | nil => exact .slnil
    | cons c rest ih =>
        rw [List.map_cons, List.map_cons]
        cases named : kind? (closeOp c) with
        | none =>
            rw [List.filterMap_cons_none named]
            exact ih.cons _
        | some id =>
            obtain rfl : c.school.id = id := Option.some.inj (own _ _ named)
            rw [List.filterMap_cons_some named]
            exact ih.cons_cons _
  have untargeted : (draft.creates.map PlannedCreate.op).filterMap kind? = [] := by
    refine List.filterMap_eq_nil_iff.mpr fun op member => ?_
    obtain ⟨p, _, rfl⟩ := List.mem_map.mp member
    exact Option.eq_none_iff_forall_not_mem.mpr fun id named => by cases own _ id named
  have updated (updates : List (PlannedUpdate Id)) (once : ∀ p ∈ updates, p.RekeysOnce)
      : ((updates.flatMap PlannedUpdate.ops).filterMap kind?).Sublist
        (updates.map (·.update.school.id)) := by
    induction updates with
    | nil => exact .slnil
    | cons p rest ih =>
        rw [List.flatMap_cons, List.filterMap_append, List.map_cons]
        exact (single p (once p List.mem_cons_self)).append
          (ih fun q member => once q (List.mem_cons_of_mem _ member))
  let sorted := sortedUnits snapshot inputs state
  have followed_ids : draft.updates.map (·.update.school.id) = sorted.updates.map (·.school.id) := by
    rw [← outlines.updates, List.map_map]
    rfl
  have apart : ((placedUnits snapshot sorted).closings.map (·.school.id)
      ++ draft.updates.map (·.update.school.id)).Nodup := by
    rw [placedUnits_closings, followed_ids]
    refine List.nodup_append.mpr
      ⟨nodup_closings unique distinct, nodup_updates unique distinct, ?_⟩
    intro left closes right updated same
    obtain ⟨c, hc, rfl⟩ := List.mem_map.mp closes
    obtain ⟨u, hu, rfl⟩ := List.mem_map.mp updated
    exact closing_ne_update unique distinct hc hu same
  refine apart.sublist ?_
  rw [outlines.ops, SchoolDraft.laterOps, List.filterMap_append, List.filterMap_append, untargeted,
    List.nil_append]
  exact (closing _).append (updated _ outlines.rekeysOnce)

/-- Every successor of a plan is a new row. -/
theorem SchoolDraft.Makes.successor
    (makes : draft.Makes snapshot (sortUnits snapshot state moment units) plan)
    (store : StoreConstraints snapshot) {op : SchoolOp Id} (member : op ∈ plan.ops) {r : Ref Id}
    (named : op.successor? = some r)
    : ∃ n, r = .new n := by
  rcases makes.mem_ops.mp member with ⟨c, inside, rfl⟩ | ⟨p, _, rfl⟩ | ⟨p, _, own⟩
  · obtain ⟨j, before, stands, rfl⟩ := mem_placeAll_closings snapshot inside
    obtain ⟨u, _, closes⟩ := mem_closings.mp (List.mem_of_getElem? stands)
    have unset : before.successor = none := by
      rw [(fate_closing store closes).2.2]
    unfold settleClosing at named
    split at named
    · cases named
      exact ⟨_, rfl⟩
    · rw [closeOp, SchoolOp.successor?, unset] at named
      cases named
  · cases named
  · rcases PlannedUpdate.mem_ops.mp own with ⟨_, rfl⟩ | ⟨_, rfl⟩ | ⟨_, rfl⟩ <;> cases named

-----------------------------------------------------------------------------------------
-- No silent closure

/-- A school with a live FAU whose unit leaves is named by a review item: a possible
re-registration when a match with it was taken, its closure otherwise.
-/
theorem SchoolDraft.Makes.reviews_fau
    (makes : draft.Makes snapshot (sortUnits snapshot state moment units) plan)
    (store : StoreConstraints snapshot) {f : FauClosing Id}
    (member : f ∈ (sortUnits snapshot state moment units).fauClosings)
    : ∃ item ∈ plan.reviews,
        (item.kind = .closureWithFau ∨ item.kind = .possibleReregistration)
        ∧ item.school = some (.existing f.school.id) := by
  let sorted := sortUnits snapshot state moment units
  let taken := takenMatches sorted.candidates sorted.closings sorted.fauClosings
  obtain ⟨u, _, reviews⟩ := mem_fauClosings.mp member
  have fresh : f.reregistered = false := by
    rw [(fate_fauClosing store reviews).2.2]
  obtain ⟨k, stands⟩ := List.mem_iff_getElem?.mp member
  have settled : (placedUnits snapshot sorted).fauClosings[k]?
      = some (settleFauClosing taken k f) := by
    rw [placedUnits, placeAll_fauClosings, stands]
    rfl
  rw [makes.reviews]
  cases matched : taken.any (·.pred = .fau k) with
  | true =>
      obtain ⟨m, inside, same⟩ := List.any_eq_true.mp matched
      have pred : m.pred = .fau k := by simpa using same
      obtain ⟨f', stands', school, _⟩ := (takenMatches_valid inside).fau k pred
      cases stands.symm.trans stands'
      refine ⟨reregistrationReview m, ?_, .inr rfl, ?_⟩
      · refine List.mem_append_left _ (List.mem_append_left _ ?_)
        rw [placedUnits, placeAll_reviews]
        refine List.mem_append_left _ (List.mem_map_of_mem (List.mem_filter.mpr ⟨inside, ?_⟩))
        rw [pred]
        rfl
      · rw [school]
        rfl
  | false =>
      refine ⟨closureReview (settleFauClosing taken k f), ?_, .inl rfl, rfl⟩
      refine List.mem_append_left _ (List.mem_append_right _ (List.mem_map_of_mem ?_))
      refine List.mem_filter.mpr ⟨List.mem_of_getElem? settled, ?_⟩
      simp [settleFauClosing, fresh, matched]

/-- An operation names just its target among existing schools, since successors are new. -/
theorem SchoolDraft.Makes.names_iff_target
    (makes : draft.Makes snapshot (sortUnits snapshot state moment units) plan)
    (store : StoreConstraints snapshot) {op : SchoolOp Id} (member : op ∈ plan.ops) (id : Id)
    : op.names id = decide (op.target? = some id) := by
  unfold SchoolOp.names
  cases named : op.successor? with
  | none => simp
  | some r =>
      obtain ⟨n, rfl⟩ := makes.successor store member named
      simp

/-- The unit of a school: the first of the fetched units with its organisation number. -/
def unitOf? (units : List NsrUnit) (school : SchoolSnapshot Id) : Option NsrUnit :=
  school.orgnr.bind fun orgnr => units.find? (·.orgnr = orgnr)

/-- Normalising keeps the unit of every school. -/
theorem unitOf?_normaliseUnits (units : List NsrUnit) (school : SchoolSnapshot Id)
    : unitOf? (normaliseUnits units) school = unitOf? units school := by
  unfold unitOf? normaliseUnits
  congr 1
  funext orgnr
  rw [find?_dropRepeats, find?_sortOn]

theorem unitOf?_eq_some {school : SchoolSnapshot Id} {unit : NsrUnit}
    (h : unitOf? units school = some unit)
    : unit ∈ units ∧ school.orgnr = some unit.orgnr := by
  obtain ⟨orgnr, own, found⟩ := Option.bind_eq_some_iff.mp h
  have same : unit.orgnr = orgnr := by simpa using List.find?_some found
  exact ⟨List.mem_of_find?_eq_some found, own.trans (congrArg some same.symm)⟩

/-- A tracked school of an unblocked municipality whose unit is inactive or out of scope is
never closed in silence: with a live FAU the plan leaves it alone and a review item names it;
without one its closing is the one operation that names it.
-/
theorem plan_closure {snapshot : RegisterSnapshot Id} (store : StoreConstraints snapshot)
    {inputs : SyncInputs} {p : SyncPlan Id} {municipalities : MunicipalityPlan Id}
    (planned : FauPortalen.Register.plan snapshot inputs = some (.apply p))
    (first : planMunicipalities snapshot inputs.normalised = some municipalities)
    {school : SchoolSnapshot Id} {unit : NsrUnit} (member : school ∈ snapshot.schools)
    (active : school.status = .active)
    (verified : school.verification = .listed ∨ school.verification = .verified)
    (unblocked : school.municipalityId ∉ municipalities.state.blockedIds)
    (found : unitOf? inputs.units school = some unit)
    (leaves : unit.isActive = false
      ∨ effectiveInScope unit.classified school.scopeOverride = false)
    : (school.hasLiveFau = true →
        (∀ op ∈ p.schoolOps, op.names school.id = false)
        ∧ ∃ item ∈ p.reviews,
          (item.kind = .closureWithFau ∨ item.kind = .possibleReregistration)
          ∧ item.school = some (.existing school.id))
      ∧ (school.hasLiveFau = false →
        ∃ op, op.isClose = true ∧ p.schoolOps.filter (·.names school.id) = [op]) := by
  obtain ⟨_, steps, stepped, rfl⟩ := planWith_apply planned
  obtain ⟨first', distinct, draft, makes⟩ := planSteps_draft store stepped
  cases first.symm.trans first'
  rw [← unitOf?_normaliseUnits] at found
  obtain ⟨inside, orgnr⟩ := unitOf?_eq_some found
  have tracked : school.isTracked = true := SchoolSnapshot.isTracked_iff.mpr ⟨active, verified⟩
  have gone : unitLeaves unit school = true := by
    rcases leaves with inactive | outside
    · simp [unitLeaves, inactive]
    · simp [unitLeaves, outside]
  have fated : fate snapshot steps.1.state inputs.moment unit
      = closureFate unit school inputs.moment := by
    rw [fate_of_school store member orgnr, schoolFate_of_tracked tracked unblocked, if_pos gone]
  have named (op : SchoolOp Id) (inside : op ∈ steps.2.ops)
      : op.names school.id = decide (op.target? = some school.id) :=
    makes.names_iff_target store inside school.id
  rcases closureFate_cases unit school inputs.moment
    with ⟨live, reviews⟩ | ⟨fauless, closes⟩
  · refine ⟨fun _ => ⟨?_, ?_⟩, fun fauless => absurd (live.symm.trans fauless) (by simp)⟩
    · have alone : steps.2.ops.filter (·.target? = some school.id) = [] := by
        refine makes.filter_other store.rowKeys distinct fun u hu s acts same => ?_
        obtain rfl := unit_of_school store.schoolIds distinct hu inside acts
          (show _ = some school by rw [fated, reviews]; rfl) same
        exact ⟨_, fated.trans reviews⟩
      intro op present
      rw [named op present]
      simpa using List.filter_eq_nil_iff.mp alone op present
    · obtain ⟨item, present, kind, names⟩ := makes.reviews_fau store
        (mem_fauClosings.mpr ⟨unit, inside, fated.trans reviews⟩)
      exact ⟨item, List.mem_append_right _ present, kind, names⟩
  · refine ⟨fun live => absurd (fauless.symm.trans live) (by simp), fun _ => ?_⟩
    have closing := mem_closings.mpr ⟨unit, inside, fated.trans closes⟩
    have settled := List.mem_map_of_mem (f := fun c => c.school.id) closing
    rw [← placedUnits_closings snapshot] at settled
    obtain ⟨c, placed, same⟩ := List.mem_map.mp settled
    refine ⟨closeOp c, rfl, ?_⟩
    show steps.2.ops.filter (·.names school.id) = _
    rw [List.filter_congr named]
    have alone := makes.filter_closing store.rowKeys distinct placed
    rw [same] at alone
    exact alone

end

section

attribute [local instance] OsloZone.atEpoch UnicodeData.ascii

/-- The sample register's run closes its first school and names it nowhere else. -/
theorem samplePlan_closure
    : ∃ op, op.isClose = true ∧ samplePlan.schoolOps.filter (·.names 2) = [op] := by
  have planned : plan sampleRegister sampleInputs = some (.apply samplePlan) := by
    decide +kernel
  have unblocked : (planMunicipalities sampleRegister sampleInputs.normalised).any
      (fun municipalities => 1 ∉ municipalities.state.blockedIds) = true := by
    decide +kernel
  obtain ⟨municipalities, first, clear⟩ := (Option.any_eq_true _ _).mp unblocked
  let school := sampleSchool 2 "975288001" "Ask skole" "ask-skole"
  have member : school ∈ sampleRegister.schools := by decide
  have found : unitOf? sampleInputs.units school
      = some (sampleUnit "975288001" "Ask skole" false) := by decide
  exact (plan_closure sampleRegister_store planned first member rfl (.inl rfl)
    (of_decide_eq_true clear) found (.inl rfl)).2 rfl

end

end FauPortalen.Register

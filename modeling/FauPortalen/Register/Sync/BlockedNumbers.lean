import FauPortalen.Register.Sync.NameOnlyChanges
import FauPortalen.Register.Sync.PlanTargets

/-! Whether a run leaves its blocked numbers alone: it does unless a group of code changes is
blocked after another one has renumbered a municipality from or to one of its codes.
-/

set_option linter.unusedSectionVars false

namespace FauPortalen.Register

open FauPortalen.Foundations

variable {Id : Type}

-----------------------------------------------------------------------------------------
-- The numbers an operation names

/-- The number a renumber leaves. -/
def MunicipalityOp.leaves? : MunicipalityOp Id → Option String
  | .renumber _ fromNumber .. => some fromNumber
  | _ => none

/-- The number a renumber or a creation takes. -/
def MunicipalityOp.takes? : MunicipalityOp Id → Option String
  | .renumber _ _ toNumber .. => some toNumber
  | .create _ number .. => some number
  | _ => none

/-- The operation leaves and takes no blocked number. -/
def MunicipalityOp.Avoids (blocked : Finset String) (op : MunicipalityOp Id) : Prop :=
  (∀ number, op.leaves? = some number → number ∉ blocked)
    ∧ ∀ number, op.takes? = some number → number ∉ blocked

section

variable [LinearOrder Id]

/-- The number a municipality has once the operations are applied. -/
def finalNumber (ops : List (MunicipalityOp Id)) (m : MunicipalitySnapshot Id) : String :=
  (changeAll MunicipalityOp.onRow ops m).number

/-- The row is in no municipality with a blocked number, before the plan or after it. A
dissolved row has no number of its own: it carries its last one.
-/
def MunicipalityPlan.Clear (plan : MunicipalityPlan Id) (snapshot : RegisterSnapshot Id)
    : Ref Id → Prop
  | .existing id => ∀ m ∈ activeMunicipalities snapshot, m.id = id →
      m.number ∉ plan.state.blockedNumbers
        ∧ finalNumber plan.ops m ∉ plan.state.blockedNumbers
  | .new n => ∀ op ∈ plan.ops, createdMunicipality? op = some n →
      op.Avoids plan.state.blockedNumbers

/-- Blocked numbers are untouched by the municipality operations and by the school
operations of every plan made after them.
-/
structure MunicipalityPlan.LeavesBlocked [OsloZone] [UnicodeData] (plan : MunicipalityPlan Id)
    (snapshot : RegisterSnapshot Id) (inputs : SyncInputs) : Prop where
  named : ∀ op ∈ plan.ops, op.Avoids plan.state.blockedNumbers
  targets : ∀ op ∈ plan.ops, ∀ m ∈ snapshot.municipalities, op.target? = some m.id →
    finalNumber plan.ops m ∉ plan.state.blockedNumbers
  schools : ∀ schools, planSchools snapshot inputs plan.state = some schools →
    ∀ op ∈ schools.ops,
      (∀ s ∈ snapshot.schools, op.target? = some s.id →
        plan.Clear snapshot (.existing s.municipalityId))
      ∧ ∀ r, op.municipality? = some r → plan.Clear snapshot r

end

-----------------------------------------------------------------------------------------
-- Groups blocked too late

section

variable [LinearOrder Id] [UnicodeData] [OsloZone]

/-- The group loop's step for a feed. -/
def groupStep (records : List MunicipalityRecord) (changes : List CodeChange)
    : GroupState Id → String × List CodeChange → Option (GroupState Id) :=
  stepGroup (goneGroupsPerTarget (changeGroups records changes)) (recordsByNumber records)

/-- What the loop decides on a group in a state. -/
def groupDecision (records : List MunicipalityRecord) (changes : List CodeChange)
    (state : GroupState Id) (group : String × List CodeChange) : Option (GroupDecision Id) :=
  decideGroup (goneGroupsPerTarget (changeGroups records changes)) (recordsByNumber records)
    state group.1 group.2

/-- No group that the loop comes to and blocks has the new code of an earlier renumber as its
old code, or the old code of one among its new codes.
-/
def BlocksInTime (snapshot : RegisterSnapshot Id) (records : List MunicipalityRecord)
    (changes : List CodeChange) : Prop :=
  ∀ earlier moved between blocked later before state,
    orderGroups (changeGroups records changes) = earlier ++ moved :: (between ++ blocked :: later) →
    earlier.foldlM (groupStep records changes) (initialGroupState snapshot) = some before →
    (earlier ++ moved :: between).foldlM (groupStep records changes) (initialGroupState snapshot)
      = some state →
    ∀ id target newSlug renamed reason,
      groupDecision records changes before moved = some (.renumber id target newSlug renamed) →
      groupDecision records changes state blocked = some (.block reason) →
      blocked.1 ≠ target ∧ moved.1 ∉ targetCodes blocked.2

theorem planCodeChanges_eq (snapshot : RegisterSnapshot Id) (records : List MunicipalityRecord)
    (changes : List CodeChange)
    : planCodeChanges snapshot records changes
      = (orderGroups (changeGroups records changes)).foldlM (groupStep records changes)
        (initialGroupState snapshot) :=
  rfl

variable {snapshot : RegisterSnapshot Id} {records : List MunicipalityRecord}
  {changes : List CodeChange} {state after : GroupState Id} {group : String × List CodeChange}

/-- What a group renumbers or blocks, by its decision. -/
theorem groupStep_cases (stepped : groupStep records changes state group = some after)
    : (groupDecision records changes state group = some .leave ∧ after = state)
      ∨ (∃ id target newSlug renamed first w,
          groupDecision records changes state group = some (.renumber id target newSlug renamed)
          ∧ state.Renumbers (goneGroupsPerTarget (changeGroups records changes))
            (recordsByNumber records) group.1 group.2 id target newSlug renamed w
          ∧ after = state.renumbered group.1 first id w target newSlug renamed)
      ∨ ∃ reason first, groupDecision records changes state group = some (.block reason)
          ∧ after = state.blockedBy group.1 group.2 first reason := by
  obtain ⟨old, own⟩ := group
  rcases stepGroup_cases stepped with left
    | ⟨id, target, newSlug, renamed, first, w, decided, _, working, same⟩
    | ⟨reason, first, decided, _, same⟩
  · exact .inl left
  · obtain ⟨w', renumbers⟩ := decideGroup_renumber decided
    cases renumbers.working.symm.trans working
    exact .inr (.inl ⟨id, target, newSlug, renamed, first, w, decided, renumbers, same⟩)
  · exact .inr (.inr ⟨reason, first, decided, same⟩)

-----------------------------------------------------------------------------------------
-- The rows behind the loop's numbers

/-- The loop's numbers and rows follow its operations: a held number is that of its holder's
working row, and a working row has the number the operations leave it with, by a renumber
that took it or without any.
-/
structure GroupState.Follows (state : GroupState Id) (snapshot : RegisterSnapshot Id)
    : Prop where
  holder : ∀ number r, state.byNumber number = some r →
    ∃ id w, r = .existing id ∧ state.working id = some w ∧ w.number = number
  row : ∀ id w, state.working id = some w → w.row ∈ activeMunicipalities snapshot ∧ w.row.id = id
  covers : ∀ m ∈ activeMunicipalities snapshot, ∃ w, state.working m.id = some w ∧ w.row = m
  final : ∀ id w, state.working id = some w → finalNumber state.ops w.row = w.number
  origin : ∀ id w, state.working id = some w → w.number = w.row.number
    ∨ (∃ op ∈ state.ops, op.leaves? = some w.row.number)
      ∧ ∃ op ∈ state.ops, op.takes? = some w.number
  targets : ∀ op ∈ state.ops, ∀ id, op.target? = some id →
    ∃ w, state.working id = some w ∧ ∃ op ∈ state.ops, op.takes? = some w.number

omit [UnicodeData] [OsloZone] in
theorem finalNumber_append (ops more : List (MunicipalityOp Id)) (m : MunicipalitySnapshot Id)
    : finalNumber (ops ++ more) m
      = (changeAll MunicipalityOp.onRow more (changeAll MunicipalityOp.onRow ops m)).number := by
  rw [finalNumber, changeAll, changeAll, changeAll, List.foldl_append]

omit [UnicodeData] [OsloZone] in
theorem changeAll_onRow_id (ops : List (MunicipalityOp Id)) (m : MunicipalitySnapshot Id)
    : (changeAll MunicipalityOp.onRow ops m).id = m.id :=
  changeAll_keeps MunicipalitySnapshot.id (fun op _ row => MunicipalityOp.onRow_id op row) m

theorem initialGroupState_follows
    (unique : ((activeMunicipalities snapshot).map (·.id)).Nodup)
    : (initialGroupState snapshot).Follows snapshot := by
  have ids : (((activeMunicipalities snapshot).map fun row =>
      (row.id, Working.ofRow row)).map Prod.fst).Nodup := by
    simpa [List.map_map, Function.comp_def] using unique
  have working (row) (member : row ∈ activeMunicipalities snapshot)
      : (initialGroupState snapshot).working row.id = some (.ofRow row) :=
    Lookup.ofPairs_of_mem ids (List.mem_map.mpr ⟨row, member, rfl⟩)
  have source {id : Id} {w : Working Id} (found : (initialGroupState snapshot).working id = some w)
      : ∃ row ∈ activeMunicipalities snapshot, row.id = id ∧ w = .ofRow row := by
    obtain ⟨row, member, same⟩ := List.mem_map.mp (Lookup.mem_of_ofPairs found)
    cases same
    exact ⟨row, member, rfl, rfl⟩
  refine ⟨?_, ?_, ?_, ?_, ?_, ?_⟩
  · intro number r found
    obtain ⟨row, member, same⟩ := List.mem_map.mp (Lookup.mem_of_ofPairs found)
    cases same
    exact ⟨row.id, .ofRow row, rfl, working row member, rfl⟩
  · intro id w found
    obtain ⟨row, member, same, rfl⟩ := source found
    exact ⟨member, same⟩
  · intro m member
    exact ⟨.ofRow m, working m member, rfl⟩
  · intro id w found
    obtain ⟨row, _, _, rfl⟩ := source found
    rfl
  · intro id w found
    obtain ⟨row, _, _, rfl⟩ := source found
    exact .inl rfl
  · intro op member
    cases member

/-- A renumber moves its holder alone, from the number it has. -/
theorem GroupState.Follows.renumber (h : state.Follows snapshot) {gone : String → Nat}
    {names : Lookup String MunicipalityRecord} {old target newSlug : String}
    {own : List CodeChange} {id : Id} {renamed : Option String} {w : Working Id}
    {first : CodeChange}
    (renumbers : state.Renumbers gone names old own id target newSlug renamed w)
    : (state.renumbered old first id w target newSlug renamed).Follows snapshot := by
  let op : MunicipalityOp Id :=
    .renumber id old target first.occurredOn renamed w.slug newSlug
  obtain ⟨active, own_id⟩ := h.row id w renumbers.working
  have own_number : w.number = old := by
    obtain ⟨id', w', same, working, number⟩ := h.holder old _ renumbers.holder
    cases same
    cases renumbers.working.symm.trans working
    exact number
  have moved : (state.renumbered old first id w target newSlug renamed).working id
      = some ⟨w.row, target, renamed.getD w.name, newSlug⟩ := Lookup.insert_self _ _ _
  have kept {id' : Id} (differ : id' ≠ id)
      : (state.renumbered old first id w target newSlug renamed).working id'
        = state.working id' := Lookup.insert_of_ne _ _ differ
  have more {wanted : MunicipalityOp Id → Prop} (found : ∃ op ∈ state.ops, wanted op)
      : ∃ op' ∈ state.ops ++ [op], wanted op' := by
    obtain ⟨op', member, fits⟩ := found
    exact ⟨op', List.mem_append_left _ member, fits⟩
  have last {wanted : MunicipalityOp Id → Prop} (fits : wanted op)
      : ∃ op' ∈ state.ops ++ [op], wanted op' :=
    ⟨op, List.mem_append_right _ (List.mem_singleton.mpr rfl), fits⟩
  refine ⟨?_, ?_, ?_, ?_, ?_, ?_⟩
  · intro number r found
    by_cases to_target : number = target
    · subst to_target
      cases (Lookup.insert_self _ _ _).symm.trans found
      exact ⟨id, _, rfl, moved, rfl⟩
    · obtain ⟨from_old, before⟩ :=
        Lookup.erase_eq_some.mp ((Lookup.insert_of_ne _ _ to_target).symm.trans found)
      obtain ⟨id', w', same, working, at_number⟩ := h.holder number r before
      have differ : id' ≠ id := by
        rintro rfl
        cases renumbers.working.symm.trans working
        exact from_old (at_number.symm.trans own_number)
      exact ⟨id', w', same, (kept differ).trans working, at_number⟩
  · intro id' w' found
    by_cases same : id' = id
    · subst same
      cases moved.symm.trans found
      exact ⟨active, own_id⟩
    · exact h.row id' w' ((kept same).symm.trans found)
  · intro m member
    obtain ⟨w', working, row⟩ := h.covers m member
    by_cases same : m.id = id
    · rw [same] at working ⊢
      cases renumbers.working.symm.trans working
      exact ⟨_, moved, row⟩
    · exact ⟨w', (kept same).trans working, row⟩
  · intro id' w' found
    have steps : finalNumber (state.ops ++ [op]) w'.row
        = (op.onRow (changeAll MunicipalityOp.onRow state.ops w'.row)).number :=
      finalNumber_append _ _ _
    by_cases same : id' = id
    · subst same
      cases moved.symm.trans found
      refine steps.trans ?_
      rw [MunicipalityOp.onRow_of_eq (by rw [changeAll_onRow_id, own_id]; rfl)]
      rfl
    · have before := (kept same).symm.trans found
      refine steps.trans ?_
      rw [MunicipalityOp.onRow_of_ne]
      · exact h.final id' w' before
      · rw [changeAll_onRow_id, (h.row id' w' before).2]
        exact fun target => same (Option.some.inj target).symm
  · intro id' w' found
    by_cases same : id' = id
    · subst same
      cases moved.symm.trans found
      refine .inr ⟨?_, last rfl⟩
      rcases h.origin id' w renumbers.working with unmoved | ⟨left, _⟩
      · exact last (congrArg some (own_number.symm.trans unmoved))
      · exact more left
    · rcases h.origin id' w' ((kept same).symm.trans found) with unmoved | ⟨left, taken⟩
      · exact .inl unmoved
      · exact .inr ⟨more left, more taken⟩
  · intro op' member id' target_id
    by_cases same : id' = id
    · subst same
      exact ⟨_, moved, last rfl⟩
    · rcases List.mem_append.mp member with earlier | new
      · obtain ⟨w', working, taken⟩ := h.targets op' earlier id' target_id
        exact ⟨w', (kept same).trans working, more taken⟩
      · cases List.mem_singleton.mp new
        exact absurd (Option.some.inj target_id).symm same

theorem GroupState.Follows.step (h : state.Follows snapshot)
    (stepped : groupStep records changes state group = some after)
    : after.Follows snapshot := by
  rcases groupStep_cases stepped with ⟨_, rfl⟩
    | ⟨id, target, newSlug, renamed, first, w, _, renumbers, rfl⟩ | ⟨reason, first, _, rfl⟩
  · exact h
  · exact h.renumber renumbers
  · exact ⟨h.holder, h.row, h.covers, h.final, h.origin, h.targets⟩

theorem planCodeChanges_follows (unique : ((activeMunicipalities snapshot).map (·.id)).Nodup)
    {groups : GroupState Id} (run : planCodeChanges snapshot records changes = some groups)
    : groups.Follows snapshot :=
  foldlM_preserves (fun _ _ _ _ stepped held => GroupState.Follows.step held stepped) run
    (initialGroupState_follows unique)

-----------------------------------------------------------------------------------------
-- The records' operations

/-- The operation creates an unblocked number, or keeps that of an unblocked row. -/
def MunicipalityOp.Harmless (groups : GroupState Id) (op : MunicipalityOp Id) : Prop :=
  (op.target? = none ∧ op.Avoids groups.blockedNumbers)
    ∨ (op.KeepsNumber ∧ ∃ id w, op.target? = some id ∧ groups.working id = some w
      ∧ w.number ∉ groups.blockedNumbers)

variable {groups : GroupState Id} {op : MunicipalityOp Id}

theorem MunicipalityOp.Harmless.avoids (h : op.Harmless groups)
    : op.Avoids groups.blockedNumbers := by
  rcases h with ⟨_, avoids⟩ | ⟨keeps, _⟩
  · exact avoids
  · cases op with
    | rename | updateDetails => exact ⟨nofun, nofun⟩
    | renumber | create => exact keeps.elim

theorem MunicipalityOp.Harmless.onRow (h : op.Harmless groups) (m : MunicipalitySnapshot Id)
    : (op.onRow m).number = m.number := by
  rcases h with ⟨untargeted, _⟩ | ⟨keeps, _⟩
  · rw [MunicipalityOp.onRow_of_ne (by simp [untargeted])]
  · exact keeps.onRow m

/-- The record loop adds harmless operations, and gives no number to an existing row. -/
structure RecordState.Respects (state : RecordState Id) (groups : GroupState Id) : Prop where
  added : ∃ more, state.ops = groups.ops ++ more
    ∧ ∀ op ∈ more, MunicipalityOp.Harmless groups op
  numbers : ∀ number id, state.byNumber number = some (.existing id) →
    groups.byNumber number = some (.existing id)

theorem RecordState.Respects.append {records : RecordState Id} (h : records.Respects groups)
    {ops : List (MunicipalityOp Id)} (harmless : ∀ op ∈ ops, op.Harmless groups)
    : ∃ more, records.ops ++ ops = groups.ops ++ more
        ∧ ∀ op ∈ more, MunicipalityOp.Harmless groups op := by
  obtain ⟨more, same, earlier⟩ := h.added
  refine ⟨more ++ ops, by rw [same, List.append_assoc], fun op member => ?_⟩
  rcases List.mem_append.mp member with old | new
  · exact earlier op old
  · exact harmless op new

/-- A number given to a new row is given to no existing one. -/
theorem RecordState.Respects.insert {records : RecordState Id} (h : records.Respects groups)
    {taken number : String} {n : Nat} {id : Id}
    (found : records.byNumber.insert taken (.new n) number = some (.existing id))
    : groups.byNumber number = some (.existing id) := by
  rcases Lookup.insert_eq_some.mp found with ⟨_, same⟩ | ⟨_, before⟩
  · cases same
  · exact h.numbers number id before

theorem RecordState.Respects.step {before later : RecordState Id} {kind : RunKind}
    {r : MunicipalityRecord} (h : before.Respects groups) (follows : groups.Follows snapshot)
    (stepped : stepRecord kind groups.working groups.blockedNumbers before r = some later)
    : later.Respects groups := by
  rcases stepRecord_cases stepped with ⟨_, rfl⟩
    | ⟨unblocked, ⟨id, w, found, working, rfl⟩ | ⟨_, _, rfl⟩ | ⟨slug, absent, _, _, rfl⟩
      | ⟨_, _, _, rfl⟩⟩
  · exact h
  · refine ⟨h.append fun op member => .inr ?_, h.numbers⟩
    obtain ⟨id', w', same, working', number⟩ := follows.holder _ _ (h.numbers _ _ found)
    cases same
    cases working.symm.trans working'
    exact ⟨compareRecord_keepsNumber member, id, w, compareRecord_target member, working,
      number ▸ unblocked⟩
  · exact h
  · refine ⟨h.append fun op member => .inl ?_, fun number id found => h.insert found⟩
    cases List.mem_singleton.mp member
    exact ⟨rfl, nofun, fun number taken => Option.some.inj taken ▸ unblocked⟩
  · exact ⟨h.added, h.numbers⟩

/-- The plan of step 1, in terms of the group loop's end. -/
structure MunicipalityPlan.Ends (plan : MunicipalityPlan Id) (snapshot : RegisterSnapshot Id)
    (groups : GroupState Id) : Prop where
  follows : groups.Follows snapshot
  blocked : plan.state.blockedNumbers = groups.blockedNumbers
  added : ∃ more, plan.ops = groups.ops ++ more
    ∧ ∀ op ∈ more, MunicipalityOp.Harmless groups op
  numbers : ∀ number id, plan.state.byNumber number = some (.existing id) →
    groups.byNumber number = some (.existing id)
  ids : ∀ m ∈ activeMunicipalities snapshot, ∀ w, groups.working m.id = some w →
    w.number ∈ groups.blockedNumbers → m.id ∈ plan.state.blockedIds

theorem planMunicipalities_ends (unique : ((activeMunicipalities snapshot).map (·.id)).Nodup)
    {inputs : SyncInputs} {plan : MunicipalityPlan Id}
    (planned : planMunicipalities snapshot inputs = some plan)
    : ∃ groups, planCodeChanges snapshot inputs.municipalities inputs.codeChanges = some groups
        ∧ plan.Ends snapshot groups := by
  simp only [planMunicipalities, Option.bind_eq_bind, Option.bind_eq_some_iff] at planned
  obtain ⟨groups, grouped, records, recorded, same⟩ := planned
  have follows := planCodeChanges_follows unique grouped
  have respects : records.Respects groups :=
    foldlM_preserves (P := fun state : RecordState Id => state.Respects groups)
      (fun _ _ _ _ stepped held => held.step follows stepped) recorded
      ⟨⟨[], by simp, by simp⟩, fun _ _ found => found⟩
  have ids : ∀ m ∈ activeMunicipalities snapshot, ∀ w, groups.working m.id = some w →
      w.number ∈ groups.blockedNumbers →
      m.id ∈ (((workingRows snapshot groups.working).filter
        (·.number ∈ groups.blockedNumbers)).map (·.row.id)).toFinset := by
    intro m member w working blocked
    have listed : w ∈ workingRows snapshot groups.working :=
      List.mem_filterMap.mpr ⟨m.id, mem_sortedKeys.mpr (List.mem_map_of_mem member), working⟩
    refine List.mem_toFinset.mpr (List.mem_map.mpr ⟨w, ?_, (follows.row _ _ working).2⟩)
    exact List.mem_filter.mpr ⟨listed, by simpa using blocked⟩
  refine ⟨groups, grouped, ?_⟩
  cases same
  split
  · next needed =>
      have unblocked : svalbardNumber ∉ groups.blockedNumbers := by
        simp only [Bool.and_eq_true, decide_eq_true_eq] at needed
        exact needed.2
      refine ⟨follows, rfl, respects.append fun op member => .inl ?_,
        fun number id found => respects.insert found, ids⟩
      cases List.mem_singleton.mp member
      refine ⟨rfl, fun number left => ?_, fun number taken => Option.some.inj taken ▸ unblocked⟩
      cases left
  · exact ⟨follows, rfl, respects.append (by simp), respects.numbers, ids⟩

-----------------------------------------------------------------------------------------
-- Groups that come too late

omit [LinearOrder Id] [UnicodeData] in
theorem nodup_orderGroups_keys (records : List MunicipalityRecord) (changes : List CodeChange)
    : ((orderGroups (changeGroups records changes)).map Prod.fst).Nodup :=
  (((perm_sortOn _ _).map Prod.fst).nodup_iff).mpr (nodup_groupBy_keys _ _)

theorem groupStep_grows (stepped : groupStep records changes state group = some after)
    : state.ops ⊆ after.ops ∧ state.blockedNumbers ⊆ after.blockedNumbers := by
  refine ⟨?_, stepGroup_blocked stepped⟩
  rcases groupStep_cases stepped with ⟨_, rfl⟩ | ⟨_, _, _, _, _, _, _, _, rfl⟩ | ⟨_, _, _, rfl⟩
  · exact List.Subset.refl _
  · exact List.subset_append_left _ _
  · exact List.Subset.refl _

theorem groupSteps_grow {elements : List (String × List CodeChange)}
    (run : elements.foldlM (groupStep records changes) state = some after)
    : state.ops ⊆ after.ops ∧ state.blockedNumbers ⊆ after.blockedNumbers :=
  foldlM_preserves
    (P := fun s : GroupState Id => state.ops ⊆ s.ops ∧ state.blockedNumbers ⊆ s.blockedNumbers)
    (fun _ _ _ _ stepped held =>
      ⟨List.Subset.trans held.1 (groupStep_grows stepped).1,
        Finset.Subset.trans held.2 (groupStep_grows stepped).2⟩)
    run ⟨List.Subset.refl _, Finset.Subset.refl _⟩

/-- What the loop renumbers and what it blocks, by the groups it comes to. -/
theorem groupSteps_collect {elements : List (String × List CodeChange)}
    (run : elements.foldlM (groupStep records changes) state = some after)
    : (∀ op ∈ after.ops, op ∈ state.ops
        ∨ ∃ earlier group later before, elements = earlier ++ group :: later
          ∧ earlier.foldlM (groupStep records changes) state = some before
          ∧ ∃ id target newSlug renamed first w,
            groupDecision records changes before group = some (.renumber id target newSlug renamed)
            ∧ before.Renumbers (goneGroupsPerTarget (changeGroups records changes))
              (recordsByNumber records) group.1 group.2 id target newSlug renamed w
            ∧ op = .renumber id group.1 target first renamed w.slug newSlug)
      ∧ ∀ number ∈ after.blockedNumbers, number ∈ state.blockedNumbers
        ∨ ∃ earlier group later before, elements = earlier ++ group :: later
          ∧ earlier.foldlM (groupStep records changes) state = some before
          ∧ ∃ reason, groupDecision records changes before group = some (.block reason)
            ∧ (number = group.1 ∨ number ∈ targetCodes group.2) := by
  induction elements generalizing state with
  | nil =>
      cases run
      exact ⟨fun op member => .inl member, fun number member => .inl member⟩
  | cons head rest ih =>
      obtain ⟨middle, stepped, rest_run⟩ := foldlM_cons_eq_some.mp run
      have deeper {earlier : List (String × List CodeChange)} {before : GroupState Id}
          (reached : earlier.foldlM (groupStep records changes) middle = some before)
          : (head :: earlier).foldlM (groupStep records changes) state = some before :=
        foldlM_cons_eq_some.mpr ⟨middle, stepped, reached⟩
      obtain ⟨renumbers, blocks⟩ := ih rest_run
      refine ⟨fun op member => ?_, fun number member => ?_⟩
      · rcases renumbers op member with early | ⟨earlier, group, later, before, rfl, reached, moved⟩
        · rcases groupStep_cases stepped with ⟨_, rfl⟩
            | ⟨id, target, newSlug, renamed, first, w, decided, moves, rfl⟩ | ⟨_, _, _, rfl⟩
          · exact .inl early
          · rcases List.mem_append.mp early with old | new
            · exact .inl old
            · exact .inr ⟨[], head, rest, state, rfl, rfl, id, target, newSlug, renamed, _, w,
                decided, moves, List.mem_singleton.mp new⟩
          · exact .inl early
        · exact .inr ⟨head :: earlier, group, later, before, rfl, deeper reached, moved⟩
      · rcases blocks number member
          with early | ⟨earlier, group, later, before, rfl, reached, blocked⟩
        · rcases groupStep_cases stepped with ⟨_, rfl⟩
            | ⟨_, _, _, _, _, _, _, _, rfl⟩ | ⟨reason, first, decided, rfl⟩
          · exact .inl early
          · exact .inl early
          · simp only [GroupState.blockedBy, Finset.mem_insert, Finset.mem_union,
              List.mem_toFinset] at early
            rcases early with own | old | target
            · exact .inr ⟨[], head, rest, state, rfl, rfl, reason, decided, .inl own⟩
            · exact .inl old
            · exact .inr ⟨[], head, rest, state, rfl, rfl, reason, decided, .inr target⟩
        · exact .inr ⟨head :: earlier, group, later, before, rfl, deeper reached, blocked⟩

/-- Blocked in time, the loop's renumbers leave and take no blocked number. -/
theorem BlocksInTime.avoids (inTime : BlocksInTime snapshot records changes)
    (run : planCodeChanges snapshot records changes = some groups)
    (member : op ∈ groups.ops)
    : op.Avoids groups.blockedNumbers := by
  rcases (groupSteps_collect run).1 op member with none_before
    | ⟨earlier, moved, later, before, split, reached, id, target, newSlug, renamed, first, w,
        decided, moves, rfl⟩
  · cases none_before
  -- The rest of the loop runs from the renumbered state.
  have rest_run := run
  rw [planCodeChanges_eq, split] at rest_run
  obtain ⟨before', reached', rest_run⟩ := foldlM_append_eq_some.mp rest_run
  cases reached.symm.trans reached'
  obtain ⟨middle, stepped, later_run⟩ := foldlM_cons_eq_some.mp rest_run
  have unblocked : middle.blockedNumbers = before.blockedNumbers := by
    rcases groupStep_cases stepped with ⟨_, rfl⟩ | ⟨_, _, _, _, _, _, _, _, rfl⟩
      | ⟨_, _, blocks, _⟩
    · rfl
    · rfl
    · cases decided.symm.trans blocks
  have distinct := nodup_orderGroups_keys records changes
  have safe (number : String) (named : number = moved.1 ∨ number = target)
      : number ∉ groups.blockedNumbers := by
    intro blocked_number
    rcases (groupSteps_collect later_run).2 number blocked_number with early
      | ⟨between, blocked, last, state, rfl, came, reason, blocks, among⟩
    · rw [unblocked] at early
      rcases named with rfl | rfl
      · exact moves.old_unblocked early
      · exact moves.target_unblocked early
    · have reached_blocked : (earlier ++ moved :: between).foldlM (groupStep records changes)
          (initialGroupState snapshot) = some state :=
        foldlM_append_eq_some.mpr
          ⟨before, reached, foldlM_cons_eq_some.mpr ⟨middle, stepped, came⟩⟩
      obtain ⟨not_target, not_old⟩ := inTime earlier moved between blocked last before state split
        reached reached_blocked id target newSlug renamed reason decided blocks
      have differ : moved.1 ≠ blocked.1 := by
        rw [split, List.map_append, List.map_cons] at distinct
        have apart := (List.nodup_cons.mp (List.nodup_append.mp distinct).2.1).1
        exact fun same => apart (same ▸ List.mem_map_of_mem (by simp))
      have inside (g : String × List CodeChange) (member : g = moved ∨ g = blocked)
          : g ∈ changeGroups records changes := by
        refine mem_sortOn.mp (?_ : g ∈ orderGroups (changeGroups records changes))
        rw [split]
        rcases member with rfl | rfl <;> simp
      rcases named with rfl | rfl
      · rcases among with own | target_code
        · exact differ own
        · exact not_old target_code
      · rcases among with own | target_code
        · exact not_target own.symm
        · refine goneGroupsPerTarget_ne_one (inside moved (.inl rfl)) (inside blocked (.inr rfl))
            (fun same => differ (congrArg Prod.fst same)) ?_ target_code moves.once
          rw [moves.single]
          exact List.mem_singleton.mpr rfl
  exact ⟨fun number left => safe number (.inl (Option.some.inj left).symm),
    fun number taken => safe number (.inr (Option.some.inj taken).symm)⟩

/-- A loop whose renumbers leave and take no blocked number blocks in time. -/
theorem BlocksInTime.of_avoids
    (run : planCodeChanges snapshot records changes = some groups)
    (avoids : ∀ op ∈ groups.ops, op.Avoids groups.blockedNumbers)
    : BlocksInTime snapshot records changes := by
  intro earlier moved between blocked later before state split reached came id target newSlug
    renamed reason decided blocks
  rw [planCodeChanges_eq, split, show earlier ++ moved :: (between ++ blocked :: later)
    = (earlier ++ moved :: between) ++ blocked :: later by simp] at run
  obtain ⟨state', came', rest_run⟩ := foldlM_append_eq_some.mp run
  cases came.symm.trans came'
  obtain ⟨blocked_state, blocking, last_run⟩ := foldlM_cons_eq_some.mp rest_run
  obtain ⟨before', reached', between_run⟩ := foldlM_append_eq_some.mp came
  cases reached.symm.trans reached'
  obtain ⟨moved_state, moving, between_run⟩ := foldlM_cons_eq_some.mp between_run
  have renumbered : ∃ op ∈ moved_state.ops,
      op.leaves? = some moved.1 ∧ op.takes? = some target := by
    rcases groupStep_cases moving with ⟨left, _⟩
      | ⟨_, _, _, _, first, w, decided', _, rfl⟩ | ⟨_, _, blocks', _⟩
    · cases decided.symm.trans left
    · cases decided.symm.trans decided'
      exact ⟨_, List.mem_append_right _ (List.mem_singleton.mpr rfl), rfl, rfl⟩
    · cases decided.symm.trans blocks'
  have blocked_codes : ∀ number, number = blocked.1 ∨ number ∈ targetCodes blocked.2 →
      number ∈ blocked_state.blockedNumbers := by
    intro number among
    rcases groupStep_cases blocking with ⟨left, _⟩
      | ⟨_, _, _, _, _, _, decided', _⟩ | ⟨_, _, _, rfl⟩
    · cases blocks.symm.trans left
    · cases blocks.symm.trans decided'
    · simp only [GroupState.blockedBy, Finset.mem_insert, Finset.mem_union, List.mem_toFinset]
      exact among.imp_right .inr
  obtain ⟨op, member, leaves, takes⟩ := renumbered
  have kept : op ∈ groups.ops :=
    (groupSteps_grow last_run).1 ((groupStep_grows blocking).1 ((groupSteps_grow between_run).1 member))
  have final := (groupSteps_grow last_run).2
  refine ⟨fun same => ?_, fun among => ?_⟩
  · exact (avoids op kept).2 target takes (final (blocked_codes target (.inl same.symm)))
  · exact (avoids op kept).1 moved.1 leaves (final (blocked_codes moved.1 (.inr among)))

-----------------------------------------------------------------------------------------
-- The rest follows from the numbers

variable {plan : MunicipalityPlan Id} {inputs : SyncInputs}

theorem MunicipalityPlan.Ends.finalNumber (ends : plan.Ends snapshot groups)
    {m : MunicipalitySnapshot Id} {w : Working Id} (working : groups.working m.id = some w)
    (own : w.row = m)
    : FauPortalen.Register.finalNumber plan.ops m = w.number := by
  obtain ⟨more, ops, harmless⟩ := ends.added
  rw [ops, finalNumber_append,
    changeAll_keeps MunicipalitySnapshot.number (fun op member row => (harmless op member).onRow row)]
  exact own ▸ ends.follows.final _ w working

theorem MunicipalityPlan.Ends.avoids_iff (ends : plan.Ends snapshot groups)
    : (∀ op ∈ plan.ops, op.Avoids plan.state.blockedNumbers)
      ↔ ∀ op ∈ groups.ops, op.Avoids groups.blockedNumbers := by
  obtain ⟨more, ops, harmless⟩ := ends.added
  rw [ends.blocked, ops]
  refine ⟨fun all op member => all op (List.mem_append_left _ member), fun some_ op member => ?_⟩
  rcases List.mem_append.mp member with early | late
  · exact some_ op early
  · exact (harmless op late).avoids

section Clear

variable (ends : plan.Ends snapshot groups)
  (avoids : ∀ op ∈ groups.ops, op.Avoids groups.blockedNumbers)
include ends avoids

/-- A municipality that ends unblocked was never blocked: it leaves no blocked number. -/
theorem MunicipalityPlan.Ends.clear {m : MunicipalitySnapshot Id}
    (member : m ∈ activeMunicipalities snapshot)
    (unblocked : ∀ w, groups.working m.id = some w → w.number ∉ groups.blockedNumbers)
    : m.number ∉ plan.state.blockedNumbers
      ∧ FauPortalen.Register.finalNumber plan.ops m ∉ plan.state.blockedNumbers := by
  obtain ⟨w, working, rfl⟩ := ends.follows.covers m member
  rw [ends.finalNumber working rfl, ends.blocked]
  refine ⟨?_, unblocked w working⟩
  rcases ends.follows.origin _ w working with same | ⟨⟨op, inside, leaves⟩, _⟩
  · exact same ▸ unblocked w working
  · exact (avoids op inside).1 _ leaves

theorem MunicipalityPlan.Ends.clear_id {id : Id} (unblocked : id ∉ plan.state.blockedIds)
    : plan.Clear snapshot (.existing id) := by
  rintro m member rfl
  exact ends.clear avoids member fun w working blocked =>
    unblocked (ends.ids m member w working blocked)

/-- An unblocked number resolves to a row that is clear. -/
theorem MunicipalityPlan.Ends.clear_resolved {number : String} {r : Ref Id}
    (resolved : plan.state.resolve number = .municipality r)
    : plan.Clear snapshot r := by
  obtain ⟨unblocked, found⟩ := resolve_eq_municipality.mp resolved
  cases r with
  | new n => exact fun op member _ => ends.avoids_iff.mpr avoids op member
  | existing id =>
      rintro m member rfl
      obtain ⟨id', w, same, working, at_number⟩ :=
        ends.follows.holder _ _ (ends.numbers _ _ found)
      cases same
      refine ends.clear avoids member fun w' working' => ?_
      cases working.symm.trans working'
      rw [at_number, ← ends.blocked]
      exact unblocked

theorem MunicipalityPlan.Ends.targets_clear
    (unique : (snapshot.municipalities.map (·.id)).Nodup) {op : MunicipalityOp Id}
    (member : op ∈ plan.ops) {m : MunicipalitySnapshot Id} (known : m ∈ snapshot.municipalities)
    (target : op.target? = some m.id)
    : FauPortalen.Register.finalNumber plan.ops m ∉ plan.state.blockedNumbers := by
  obtain ⟨more, ops, harmless⟩ := ends.added
  have settled : ∃ w, groups.working m.id = some w ∧ w.number ∉ groups.blockedNumbers := by
    rw [ops] at member
    rcases List.mem_append.mp member with early | late
    · obtain ⟨w, working, taking, inside, taken⟩ := ends.follows.targets op early m.id target
      exact ⟨w, working, (avoids taking inside).2 _ taken⟩
    · rcases harmless op late with ⟨untargeted, _⟩ | ⟨_, id, w, target', working, unblocked⟩
      · cases untargeted.symm.trans target
      · cases target'.symm.trans target
        exact ⟨w, working, unblocked⟩
  obtain ⟨w, working, unblocked⟩ := settled
  obtain ⟨active, same⟩ := ends.follows.row _ w working
  have own : w.row = m :=
    List.inj_on_of_nodup_map unique (List.mem_of_mem_filter active) known same
  rw [ends.finalNumber working own, ends.blocked]
  exact unblocked

theorem MunicipalityPlan.Ends.schools_clear (unique : (snapshot.schools.map (·.id)).Nodup)
    {schools : SchoolPlan Id} (planned : planSchools snapshot inputs plan.state = some schools)
    {op : SchoolOp Id} (member : op ∈ schools.ops)
    : (∀ s ∈ snapshot.schools, op.target? = some s.id →
        plan.Clear snapshot (.existing s.municipalityId))
      ∧ ∀ r, op.municipality? = some r → plan.Clear snapshot r := by
  rcases planSchools_cases planned member
    with ⟨c, rfl, d, closing, own⟩ | ⟨untargeted, c, candidate, put⟩ | ⟨p, own, updated⟩
  · refine ⟨fun s known target => ?_, nofun⟩
    obtain ⟨u, _, closes⟩ := mem_closings.mp closing
    obtain ⟨inside, _, _, unblocked⟩ := fate_school?
      (show (fate snapshot plan.state inputs.moment u).school? = some d.school by
        rw [closes]; rfl)
    have same : d.school = s := List.inj_on_of_nodup_map unique inside known
      ((congrArg SchoolSnapshot.id own).symm.trans (Option.some.inj target))
    exact same ▸ ends.clear_id avoids unblocked
  · refine ⟨fun s _ target => ?_, fun r at_ => ?_⟩
    · cases untargeted.symm.trans target
    · cases put.symm.trans at_
      exact ends.clear_resolved avoids (fate_candidate (mem_candidates.mp candidate).2).2.2.2
  · obtain ⟨inside, unblocked⟩ := update_member updated
    refine ⟨fun s known target => ?_, fun r at_ => ?_⟩
    · have same : p.update.school = s := List.inj_on_of_nodup_map unique inside known
        (Option.some.inj ((PlannedUpdate.target own).symm.trans target))
      exact same ▸ ends.clear_id avoids unblocked
    · rcases PlannedUpdate.mem_ops.mp own with ⟨_, rfl⟩ | ⟨_, rfl⟩ | ⟨_, rfl⟩
      · cases at_
      · cases at_
      · cases at_
        exact ends.clear_resolved avoids (fate_update (mem_updates.mp updated).2).2

end Clear

/-- A run leaves its blocked numbers alone exactly when no group of code changes is blocked
after a renumber from or to one of its codes.
-/
theorem planMunicipalities_leavesBlocked_iff
    (municipalityIds : (snapshot.municipalities.map (·.id)).Nodup)
    (schoolIds : (snapshot.schools.map (·.id)).Nodup)
    (planned : planMunicipalities snapshot inputs = some plan)
    : plan.LeavesBlocked snapshot inputs
      ↔ BlocksInTime snapshot inputs.municipalities inputs.codeChanges := by
  have active : ((activeMunicipalities snapshot).map (·.id)).Nodup :=
    municipalityIds.sublist (List.filter_sublist.map _)
  obtain ⟨groups, run, ends⟩ := planMunicipalities_ends active planned
  constructor
  · intro leaves
    exact .of_avoids run (ends.avoids_iff.mp leaves.named)
  · intro inTime
    have avoids : ∀ op ∈ groups.ops, op.Avoids groups.blockedNumbers :=
      fun op member => inTime.avoids run member
    exact ⟨ends.avoids_iff.mpr avoids,
      fun op member m known target => ends.targets_clear avoids municipalityIds member known target,
      fun schools made op member => ends.schools_clear avoids schoolIds made member⟩

end

-----------------------------------------------------------------------------------------
-- A renumber whose new code is then split

section

attribute [local instance] OsloZone.atEpoch UnicodeData.ascii

/-- A feed of one renumber blocks in time. -/
theorem renamedRegister_leavesBlocked
    : ∃ plan, planMunicipalities renamedRegister renamedInputs = some plan
        ∧ plan.LeavesBlocked renamedRegister renamedInputs := by
  have planned : (planMunicipalities renamedRegister renamedInputs).isSome = true := by
    decide +kernel
  obtain ⟨plan, planned⟩ := Option.isSome_iff_exists.mp planned
  refine ⟨plan, planned,
    (planMunicipalities_leavesBlocked_iff (by decide) (by decide) planned).mpr ?_⟩
  intro earlier moved between blocked later before state split
  have one : (orderGroups
      (changeGroups renamedInputs.municipalities renamedInputs.codeChanges)).length = 1 := by
    decide +kernel
  rw [split] at one
  simp only [List.length_append, List.length_cons] at one
  omega

/-- One municipality under the first of its three codes. -/
def chainedRegister : RegisterSnapshot Nat :=
  { sampleRegister with
    municipalities := [⟨1, "5001", "Testby", some "Testby", "50", "Testfylke", "5001-testby",
      .active, .kartverket, []⟩] }

/-- It changes its code, and a year later the new code is split. -/
def chainedInputs : SyncInputs :=
  { sampleInputs with
    municipalities := [
      ⟨"5501", "Testby", "Testby", "50", "Testfylke", []⟩,
      ⟨"5502", "Nyby", "Nyby", "50", "Testfylke", []⟩]
    codeChanges := [
      ⟨"5001", "Testby", "1234", "Testby", .ofParts 2024 1 1 rfl⟩,
      ⟨"1234", "Testby", "5501", "Testby", .ofParts 2025 1 1 rfl⟩,
      ⟨"1234", "Testby", "5502", "Nyby", .ofParts 2025 1 1 rfl⟩] }

/-- The renumber into the code that the split then blocks stays in the plan. -/
theorem chainedRegister_takes_blocked
    : ∃ plan, planMunicipalities chainedRegister chainedInputs = some plan
        ∧ ¬ plan.LeavesBlocked chainedRegister chainedInputs := by
  have takes : (planMunicipalities chainedRegister chainedInputs).any (fun plan =>
      plan.ops.any (·.takes? = some "1234") && "1234" ∈ plan.state.blockedNumbers) = true := by
    decide +kernel
  obtain ⟨plan, planned, both⟩ := (Option.any_eq_true _ _).mp takes
  rw [Bool.and_eq_true, List.any_eq_true] at both
  obtain ⟨⟨op, member, taken⟩, blocked⟩ := both
  refine ⟨plan, planned, fun leaves => ?_⟩
  exact (leaves.named op member).2 "1234" (of_decide_eq_true taken) (of_decide_eq_true blocked)

end

end FauPortalen.Register

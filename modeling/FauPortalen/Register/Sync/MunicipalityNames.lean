import FauPortalen.Register.Sync.MunicipalityGroups

/-! What step 1 leaves: every operation targets an active municipality, and every number
resolves to an active municipality or to one the plan creates.
-/

set_option linter.unusedSectionVars false

namespace FauPortalen.Register

open FauPortalen.Foundations

variable {Id : Type}

/-- The existing municipality an operation changes. -/
def MunicipalityOp.target? : MunicipalityOp Id → Option Id
  | .renumber id .. | .rename id .. | .updateDetails id .. => some id
  | .create .. => none

variable [LinearOrder Id] [UnicodeData] {snapshot : RegisterSnapshot Id}

/-- The operations target active municipalities, and create the numbered ones in order. -/
structure OpsNamed (snapshot : RegisterSnapshot Id) (ops : List (MunicipalityOp Id))
    (created : Nat) : Prop where
  targets : ∀ op ∈ ops, ∀ id, op.target? = some id →
    ∃ row ∈ activeMunicipalities snapshot, row.id = id
  creates : ops.filterMap createdMunicipality? = List.range created

theorem OpsNamed.append {ops more : List (MunicipalityOp Id)} {created : Nat}
    (h : OpsNamed snapshot ops created)
    (targets : ∀ op ∈ more, ∃ row ∈ activeMunicipalities snapshot, op.target? = some row.id)
    : OpsNamed snapshot (ops ++ more) created := by
  refine ⟨?_, ?_⟩
  · intro op member id target
    rcases List.mem_append.mp member with old | new
    · exact h.targets op old id target
    · obtain ⟨row, active, same⟩ := targets op new
      exact ⟨row, active, Option.some.inj (same.symm.trans target)⟩
  · have none_created : more.filterMap createdMunicipality? = [] := by
      refine List.filterMap_eq_nil_iff.mpr fun op new => ?_
      obtain ⟨row, _, same⟩ := targets op new
      cases op with
      | create => cases same
      | _ => rfl
    rw [List.filterMap_append, none_created, List.append_nil, h.creates]

theorem OpsNamed.create {ops : List (MunicipalityOp Id)} {created : Nat}
    (h : OpsNamed snapshot ops created) {op : MunicipalityOp Id}
    (new : createdMunicipality? op = some created)
    : OpsNamed snapshot (ops ++ [op]) (created + 1) := by
  refine ⟨?_, ?_⟩
  · intro op' member id target
    rcases List.mem_append.mp member with old | last
    · exact h.targets op' old id target
    · cases List.mem_singleton.mp last
      cases op with
      | create => cases target
      | _ => cases new
  · rw [List.filterMap_append, h.creates, List.range_succ]
    simp [new]

-----------------------------------------------------------------------------------------
-- The group loop

/-- The group loop only renumbers active municipalities. -/
theorem planCodeChanges_named (keys : RowKeys snapshot)
    {records : List MunicipalityRecord} {changes : List CodeChange} {groups : GroupState Id}
    (run : planCodeChanges snapshot records changes = some groups)
    : OpsNamed snapshot groups.ops 0 := by
  have both : groups.Coherent snapshot ∧ OpsNamed snapshot groups.ops 0 := by
    refine foldlM_preserves
      (P := fun state => state.Coherent snapshot ∧ OpsNamed snapshot state.ops 0) ?_ run
      ⟨initialGroupState_coherent keys, by simp [initialGroupState], rfl⟩
    intro before group _ after stepped ⟨coherent, named⟩
    refine ⟨coherent.step stepped, ?_⟩
    rcases stepGroup_cases stepped with ⟨_, rfl⟩
      | ⟨id, target, newSlug, renamed, first, w, _, _, working, rfl⟩ | ⟨_, _, _, _, rfl⟩
    · exact named
    · refine named.append fun op new => ?_
      cases List.mem_singleton.mp new
      obtain ⟨active, same⟩ := coherent.row id w working
      exact ⟨w.row, active, congrArg some same.symm⟩
    · exact named
  exact both.2

-----------------------------------------------------------------------------------------
-- The record loop

/-- What the record loop keeps: a number resolves as after the group loop, or to a created
municipality.
-/
structure RecordState.Named (state : RecordState Id) (snapshot : RegisterSnapshot Id)
    (groups : GroupState Id) : Prop where
  ops : OpsNamed snapshot state.ops state.nextNew
  numbers : ∀ number r, state.byNumber number = some r →
    groups.byNumber number = some r
      ∨ (groups.byNumber number = none ∧ ∃ n < state.nextNew, r = .new n)
  kept : ∀ number r, groups.byNumber number = some r → state.byNumber number = some r

variable {groups : GroupState Id} {state after : RecordState Id} {kind : RunKind}
  {r : MunicipalityRecord}

/-- Every operation of a comparison targets the compared municipality. -/
theorem compareRecord_target {w : Working Id} {id : Id} {op : MunicipalityOp Id}
    (member : op ∈ (compareRecord w id r).1)
    : op.target? = some id := by
  unfold compareRecord at member
  split at member
  · cases member
  · simp only [List.mem_append] at member
    rcases member with renamed | updated
    · split at renamed
      · split at renamed
        · cases List.mem_singleton.mp renamed
          rfl
        · cases renamed
      · cases renamed
    · split at updated
      · cases List.mem_singleton.mp updated
        rfl
      · cases updated

/-- A record is skipped, compared with its holder, created or reported. -/
theorem stepRecord_cases
    (h : stepRecord kind groups.working groups.blockedNumbers state r = some after)
    : (r.number ∈ groups.blockedNumbers ∧ after = state)
      ∨ r.number ∉ groups.blockedNumbers
        ∧ ((∃ id w, state.byNumber r.number = some (.existing id) ∧ groups.working id = some w
            ∧ after = { state with
              ops := state.ops ++ (compareRecord w id r).1
              reviews := state.reviews ++ (compareRecord w id r).2 })
          ∨ (∃ n, state.byNumber r.number = some (.new n) ∧ after = state)
          ∨ (∃ slug, state.byNumber r.number = none ∧ kind = .seed
            ∧ municipalitySlug r.number r.norwegianName = .ok slug
            ∧ after = {
              ops := state.ops
                ++ [.create state.nextNew r.number r.norwegianName (some r.officialName)
                  r.countyNumber r.countyName slug r.names .kartverket]
              reviews := state.reviews
              byNumber := state.byNumber.insert r.number (.new state.nextNew)
              nextNew := state.nextNew + 1 })
          ∨ ∃ reason, state.byNumber r.number = none
            ∧ ((kind = .sync ∧ reason = "unknown_number")
              ∨ (kind = .seed ∧ (∃ e, municipalitySlug r.number r.norwegianName = .error e)
                ∧ reason = "unsluggable"))
            ∧ after = { state with
              reviews := state.reviews ++ [recordReview r reason none] }) := by
  unfold stepRecord at h
  split at h
  · next blocked => exact .inl ⟨blocked, (Option.some.inj h).symm⟩
  · next unblocked =>
      refine .inr ⟨unblocked, ?_⟩
      split at h
      · next id found =>
          simp only [Option.bind_eq_bind, Option.bind_eq_some_iff] at h
          obtain ⟨w, working, same⟩ := h
          exact .inl ⟨id, w, found, working, (Option.some.inj same).symm⟩
      · next n found => exact .inr (.inl ⟨n, found, (Option.some.inj h).symm⟩)
      · next absent =>
          split at h
          · next slug sluggable =>
              exact .inr (.inr (.inl ⟨slug, absent, rfl, sluggable,
                (Option.some.inj h).symm⟩))
          · next e failed =>
              exact .inr (.inr (.inr ⟨_, absent, .inr ⟨rfl, ⟨e, failed⟩, rfl⟩,
                (Option.some.inj h).symm⟩))
          · exact .inr (.inr (.inr ⟨_, absent, .inl ⟨rfl, rfl⟩, (Option.some.inj h).symm⟩))

/-- One record keeps every number named. -/
theorem RecordState.Named.step (h : state.Named snapshot groups)
    (coherent : groups.Coherent snapshot)
    (stepped : stepRecord kind groups.working groups.blockedNumbers state r = some after)
    : after.Named snapshot groups := by
  rcases stepRecord_cases stepped with ⟨_, rfl⟩
    | ⟨_, ⟨id, w, _, working, rfl⟩ | ⟨_, _, rfl⟩ | ⟨slug, absent, _, _, rfl⟩ | ⟨_, _, _, rfl⟩⟩
  · exact h
  · refine ⟨h.ops.append fun op member => ?_, h.numbers, h.kept⟩
    obtain ⟨active, same⟩ := coherent.row id w working
    exact ⟨w.row, active, same ▸ compareRecord_target member⟩
  · exact h
  · have free : groups.byNumber r.number = none := by
      cases found : groups.byNumber r.number with
      | none => rfl
      | some held =>
          rw [h.kept _ _ found] at absent
          cases absent
    refine ⟨h.ops.create rfl, ?_, ?_⟩
    · intro number resolved found
      by_cases same : number = r.number
      · subst same
        cases (Lookup.insert_self _ _ _).symm.trans found
        exact .inr ⟨free, _, Nat.lt_succ_self _, rfl⟩
      · rcases h.numbers number resolved ((Lookup.insert_of_ne _ _ same).symm.trans found)
          with before | ⟨unheld, n, bound, new⟩
        · exact .inl before
        · exact .inr ⟨unheld, n, Nat.lt_succ_of_lt bound, new⟩
    · intro number resolved found
      have differ : number ≠ r.number := by
        intro same
        rw [same, free] at found
        cases found
      exact (Lookup.insert_of_ne _ _ differ).trans (h.kept number resolved found)
  · exact ⟨h.ops, h.numbers, h.kept⟩

/-- The record loop runs to its end with every number named. -/
theorem planRecords_named [OsloZone] (inputs : SyncInputs)
    (coherent : groups.Coherent snapshot) (named : OpsNamed snapshot groups.ops 0)
    : ∃ records, planRecords inputs groups = some records
        ∧ records.Named snapshot groups := by
  refine foldlM_total ?_ ⟨named, fun _ _ found => .inl found, fun _ _ found => found⟩
  intro before r _ h
  suffices stepped : ∃ after,
      stepRecord inputs.kind groups.working groups.blockedNumbers before r = some after by
    obtain ⟨after, stepped⟩ := stepped
    exact ⟨after, stepped, h.step coherent stepped⟩
  unfold stepRecord
  split
  · exact ⟨_, rfl⟩
  · split
    · next id found =>
        have held : groups.byNumber r.number = some (.existing id) := by
          rcases h.numbers _ _ found with before | ⟨_, n, _, new⟩
          · exact before
          · cases new
        obtain ⟨id', w, same, working, _⟩ := coherent.holder _ _ held
        cases same
        refine ⟨{ before with
          ops := before.ops ++ (compareRecord w id r).1
          reviews := before.reviews ++ (compareRecord w id r).2 }, ?_⟩
        simp [working]
    · exact ⟨_, rfl⟩
    · split <;> exact ⟨_, rfl⟩

-----------------------------------------------------------------------------------------
-- Step 1 as a whole

/-- Step 1 is total, its operations are named, and its numbers resolve to active or created
municipalities.
-/
theorem planMunicipalities_named [OsloZone] (keys : RowKeys snapshot)
    (inputs : SyncInputs)
    : ∃ plan created, planMunicipalities snapshot inputs = some plan
        ∧ OpsNamed snapshot plan.ops created
        ∧ ∀ number r, plan.state.byNumber number = some r →
          (∃ row ∈ activeMunicipalities snapshot, r = .existing row.id)
            ∨ ∃ n < created, r = .new n := by
  obtain ⟨groups, grouped, coherent⟩ :=
    planCodeChanges_coherent keys inputs.municipalities inputs.codeChanges
  obtain ⟨records, recorded, named⟩ :=
    planRecords_named inputs coherent (planCodeChanges_named keys grouped)
  have resolves : ∀ number r, records.byNumber number = some r →
      (∃ row ∈ activeMunicipalities snapshot, r = .existing row.id)
        ∨ ∃ n < records.nextNew, r = .new n := by
    intro number r found
    rcases named.numbers number r found with before | ⟨_, new⟩
    · obtain ⟨id, w, rfl, working, _⟩ := coherent.holder number r before
      obtain ⟨active, same⟩ := coherent.row id w working
      exact .inl ⟨w.row, active, same ▸ rfl⟩
    · exact .inr new
  simp only [planMunicipalities, grouped, recorded, Option.bind_eq_bind, Option.bind_some]
  split
  · refine ⟨_, records.nextNew + 1, rfl, named.ops.create rfl, ?_⟩
    intro number r found
    simp only at found
    by_cases same : number = svalbardNumber
    · subst same
      cases (Lookup.insert_self _ _ _).symm.trans found
      exact .inr ⟨_, Nat.lt_succ_self _, rfl⟩
    · rcases resolves number r ((Lookup.insert_of_ne _ _ same).symm.trans found)
        with existing | ⟨n, bound, new⟩
      · exact .inl existing
      · exact .inr ⟨n, Nat.lt_succ_of_lt bound, new⟩
  · refine ⟨_, records.nextNew, rfl, ?_, resolves⟩
    simpa using named.ops

end FauPortalen.Register

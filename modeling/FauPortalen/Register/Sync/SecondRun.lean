import FauPortalen.Register.Sync.StorePreservation

/-! The run after an applied run of the same units and records, without code changes: it
compares every row with what the first run left and finds nothing to change.
-/

set_option linter.unusedSectionVars false

namespace FauPortalen.Register

open FauPortalen.Foundations

variable {Id : Type} [LinearOrder Id] [UnicodeData] {ids : NewIds Id}
  {snapshot after : RegisterSnapshot Id}

-----------------------------------------------------------------------------------------
-- Municipalities

theorem planCodeChanges_nil (snapshot : RegisterSnapshot Id)
    (records : List MunicipalityRecord)
    : planCodeChanges snapshot records [] = some (initialGroupState snapshot) := by
  simp [planCodeChanges, changeGroups, groupBy, orderGroups, sortOn, sortedKeys]

/-- The next run finds the numbers as the planner left them, by their rows' ids. -/
theorem Tracks.again {byNumber : Lookup String (Ref Id)}
    (tracks : Tracks ids after.municipalities byNumber) (store : StoreConstraints after)
    : (∀ number r, byNumber number = some r → ∃ id, ids.municipalityId r = some id
        ∧ (initialGroupState after).byNumber number = some (.existing id))
      ∧ ∀ number, byNumber number = none → (initialGroupState after).byNumber number = none := by
  have coherent := initialGroupState_coherent store.rowKeys
  have listed {row : MunicipalitySnapshot Id} (member : row ∈ after.municipalities)
      (active : row.status = .active)
      : (initialGroupState after).byNumber row.number = some (.existing row.id) := by
    have keys : (((activeMunicipalities after).map fun row =>
        (row.number, Ref.existing row.id)).map Prod.fst).Nodup := by
      simpa [List.map_map, Function.comp_def] using store.numbers
    refine Lookup.ofPairs_of_mem keys (List.mem_map.mpr ⟨row, ?_, rfl⟩)
    simp [activeMunicipalities, member, active]
  refine ⟨?_, ?_⟩
  · intro number r found
    obtain ⟨row, member, active, rfl, named⟩ := tracks.holder number r found
    exact ⟨row.id, named, listed member active⟩
  · intro number vacant
    cases found : (initialGroupState after).byNumber number with
    | none => rfl
    | some r =>
        obtain ⟨id, w, rfl, working, rfl⟩ := coherent.holder _ _ found
        obtain ⟨own, _⟩ := coherent.row id w working
        obtain ⟨row, _, same⟩ := List.mem_map.mp (Lookup.mem_of_ofPairs working)
        cases same
        have member : row ∈ after.municipalities ∧ row.status = .active := by
          simpa [activeMunicipalities, Working.ofRow] using own
        obtain ⟨r, held, _⟩ := tracks.found row member.1 member.2
        rw [show (Working.ofRow row).number = row.number from rfl, held] at vacant
        cases vacant

theorem initialGroupState_working {row : MunicipalitySnapshot Id}
    (store : StoreConstraints after) (member : row ∈ after.municipalities)
    (active : row.status = .active)
    : (initialGroupState after).working row.id = some (.ofRow row)
      ∧ (initialGroupState after).byNumber row.number = some (.existing row.id) := by
  have inside : row ∈ activeMunicipalities after := by
    simp [activeMunicipalities, member, active]
  have keys : (((activeMunicipalities after).map fun row =>
      (row.id, Working.ofRow row)).map Prod.fst).Nodup := by
    simpa [List.map_map, Function.comp_def] using nodup_active_ids store.rowKeys
  have found : (initialGroupState after).working row.id = some (.ofRow row) :=
    Lookup.ofPairs_of_mem keys (List.mem_map.mpr ⟨row, inside, rfl⟩)
  exact ⟨found, (initialGroupState_coherent store.rowKeys).number _ _ found⟩

/-- The number of an active municipality is held by that municipality at first. -/
theorem initialGroupState_existing (store : StoreConstraints after) {number : String}
    {id : Id}
    : (initialGroupState after).byNumber number = some (.existing id)
      ↔ ∃ m ∈ after.municipalities, m.status = .active ∧ m.id = id ∧ m.number = number := by
  have keys : (((activeMunicipalities after).map fun row =>
      (row.number, Ref.existing row.id)).map Prod.fst).Nodup := by
    simpa [List.map_map, Function.comp_def] using store.numbers
  have active {m : MunicipalitySnapshot Id}
      : m ∈ activeMunicipalities after ↔ m ∈ after.municipalities ∧ m.status = .active := by
    simp [activeMunicipalities]
  constructor
  · intro found
    obtain ⟨m, inside, same⟩ := List.mem_map.mp (Lookup.mem_of_ofPairs found)
    obtain ⟨member, current⟩ := active.mp inside
    cases same
    exact ⟨m, member, current, rfl, rfl⟩
  · rintro ⟨m, member, current, rfl, rfl⟩
    exact Lookup.ofPairs_of_mem keys (List.mem_map.mpr ⟨m, active.mpr ⟨member, current⟩, rfl⟩)

section

variable [OsloZone] {inputs again : SyncInputs} {plan : MunicipalityPlan Id}

/-- The second run's inputs: the same units and records at the same moment, no code changes,
and a seed run only after a seed run.
-/
structure SyncInputs.Repeats (again inputs : SyncInputs) : Prop where
  municipalities : again.municipalities = inputs.municipalities
  units : again.units = inputs.units
  moment : again.moment = inputs.moment
  unchanged : again.codeChanges = []
  kind : again.kind = .seed → inputs.kind = .seed

/-- The record loop of the second run changes nothing and reports nothing new. -/
theorem planRecords_again (store : StoreConstraints after)
    (settles : plan.Settles ids snapshot inputs) (repeats : again.Repeats inputs)
    (rows : after.municipalities
      = tableAfterMunicipalityOps ids plan.ops snapshot.municipalities)
    (unblocked : plan.state.blockedNumbers = ∅)
    : ∃ records, planRecords again (initialGroupState after) = some records
        ∧ records.ops = [] ∧ records.byNumber = (initialGroupState after).byNumber
        ∧ (again.kind = inputs.kind → records.reviews ⊆ plan.reviews) := by
  refine foldlM_total (P := fun state : RecordState Id =>
    state.ops = [] ∧ state.byNumber = (initialGroupState after).byNumber
      ∧ (again.kind = inputs.kind → state.reviews ⊆ plan.reviews)) ?_
    ⟨rfl, rfl, fun _ => List.nil_subset _⟩
  intro before r member ⟨ops, byNumber, reviews⟩
  rw [mem_sortOn, repeats.municipalities] at member
  have settled := settles.settled r member
  rw [← rows, unblocked] at settled
  rw [show (initialGroupState after).blockedNumbers = ∅ from rfl]
  cases settled with
  | blocked impossible => exact absurd impossible (Finset.notMem_empty _)
  | held row present active number same reported =>
      obtain ⟨working, found⟩ := initialGroupState_working store present active
      have held : before.byNumber r.number = some (.existing row.id) := by
        rw [byNumber, ← number]
        exact found
      refine ⟨{ before with
        ops := before.ops ++ (compareRecord (.ofRow row) row.id r).1
        reviews := before.reviews ++ (compareRecord (.ofRow row) row.id r).2 }, ?_, ?_, byNumber,
        ?_⟩
      · simp [stepRecord, held, working]
      · simp [ops, same]
      · exact fun kinds => List.append_subset.mpr ⟨reviews kinds, reported⟩
  | absent reason vacant unknown reported =>
      have free : before.byNumber r.number = none := by
        rw [byNumber]
        exact (Tracks.again (rows ▸ settles.tracks) store).2 _ vacant
      cases kind : again.kind with
      | sync =>
          refine ⟨{ before with
            reviews := before.reviews ++ [recordReview r "unknown_number" none] }, ?_, ops,
            byNumber, ?_⟩
          · simp [stepRecord, free]
          · intro kinds
            refine List.append_subset.mpr ⟨reviews (kind.trans kinds), ?_⟩
            rcases unknown with ⟨_, rfl⟩ | ⟨seed, _⟩
            · simpa using reported
            · rw [← kinds] at seed
              cases seed
      | seed =>
          rcases unknown with ⟨sync, _⟩ | ⟨_, ⟨e, slug⟩, rfl⟩
          · rw [repeats.kind kind] at sync
            cases sync
          · refine ⟨{ before with
              reviews := before.reviews ++ [recordReview r "unsluggable" none] }, ?_, ops,
              byNumber, ?_⟩
            · simp [stepRecord, free, slug]
            · exact fun kinds => List.append_subset.mpr
                ⟨reviews (kind.trans kinds), by simpa using reported⟩

/-- Step 1 of the second run has no operation, the same numbers and no new review item. -/
theorem planMunicipalities_again (store : StoreConstraints after)
    (settles : plan.Settles ids snapshot inputs) (repeats : again.Repeats inputs)
    (rows : after.municipalities
      = tableAfterMunicipalityOps ids plan.ops snapshot.municipalities)
    (unblocked : plan.state.blockedNumbers = ∅)
    : ∃ second, planMunicipalities after again = some second ∧ second.ops = []
        ∧ second.state = ⟨(initialGroupState after).byNumber, ∅, ∅⟩
        ∧ (again.kind = inputs.kind → second.reviews ⊆ plan.reviews) := by
  obtain ⟨records, recorded, ops, byNumber, reviews⟩ :=
    planRecords_again store settles repeats rows unblocked
  have svalbard : (svalbardNeeded again.units && !records.byNumber.contains svalbardNumber
      && decide (svalbardNumber ∉ (initialGroupState after).blockedNumbers)) = false := by
    cases needed : svalbardNeeded again.units with
    | false => rfl
    | true =>
        rw [repeats.units] at needed
        obtain ⟨r, held⟩ := Option.isSome_iff_exists.mp
          (settles.svalbard needed (unblocked ▸ Finset.notMem_empty _))
        obtain ⟨id, _, found⟩ := (Tracks.again (rows ▸ settles.tracks) store).1 _ _ held
        simp [Lookup.contains, byNumber, found]
  have absent : ((workingRows after (initialGroupState after).working).filter
      (isAbsent again.municipalities (initialGroupState after).blockedNumbers)).map absentReview
        ⊆ plan.reviews := by
    intro item member
    obtain ⟨w, inside, rfl⟩ := List.mem_map.mp member
    obtain ⟨present, missing⟩ := List.mem_filter.mp inside
    obtain ⟨row, own, working⟩ := mem_workingRows.mp present
    have listed : row ∈ after.municipalities ∧ row.status = .active := by
      simpa [activeMunicipalities] using own
    cases (initialGroupState_working store listed.1 listed.2).1.symm.trans working
    refine settles.absent row (rows ▸ listed.1) listed.2 ?_
    rw [unblocked, ← repeats.municipalities]
    exact missing
  let second : MunicipalityPlan Id := {
    ops := records.ops ++ []
    reviews := records.reviews ++ ((workingRows after (initialGroupState after).working).filter
      (isAbsent again.municipalities (initialGroupState after).blockedNumbers)).map absentReview
    state := ⟨records.byNumber, (initialGroupState after).blockedNumbers,
      (((workingRows after (initialGroupState after).working).filter
        (·.number ∈ (initialGroupState after).blockedNumbers)).map (·.row.id)).toFinset⟩ }
  refine ⟨second, ?_, ?_, ?_, ?_⟩
  · simp only [planMunicipalities, repeats.unchanged, planCodeChanges_nil, recorded,
      Option.bind_eq_bind, Option.bind_some, svalbard]
    rfl
  · simp [second, ops]
  · simp [second, byNumber, initialGroupState]
  · exact fun kinds => List.append_subset.mpr ⟨reviews kinds, absent⟩

end

end FauPortalen.Register

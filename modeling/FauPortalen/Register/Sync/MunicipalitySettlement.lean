import FauPortalen.Register.Sync.MunicipalityRecords

/-! Step 1 as a whole, and step 1 of the next run: against the applied register every number
resolves as the first run left it, and without code changes nothing is left to do.
-/

set_option linter.unusedSectionVars false

namespace FauPortalen.Register

open FauPortalen.Foundations

variable {Id : Type} [LinearOrder Id] [UnicodeData] [OsloZone] {ids : NewIds Id}
  {snapshot after : RegisterSnapshot Id} {inputs : SyncInputs} {plan : MunicipalityPlan Id}

-----------------------------------------------------------------------------------------
-- The parts of step 1

/-- Step 1 is the group loop, the record loop, and Svalbard when it is needed and nobody has
its number.
-/
theorem planMunicipalities_parts (planned : planMunicipalities snapshot inputs = some plan)
    : ∃ groups records,
        planCodeChanges snapshot inputs.municipalities inputs.codeChanges = some groups
        ∧ planRecords inputs groups = some records
        ∧ plan.state.blockedNumbers = groups.blockedNumbers
        ∧ plan.state.blockedIds = (((workingRows snapshot groups.working).filter
          (·.number ∈ groups.blockedNumbers)).map (·.row.id)).toFinset
        ∧ plan.reviews = records.reviews ++ ((workingRows snapshot groups.working).filter
          (isAbsent inputs.municipalities groups.blockedNumbers)).map absentReview
        ∧ ((plan.ops = records.ops ∧ plan.state.byNumber = records.byNumber
            ∧ (svalbardNeeded inputs.units = true → svalbardNumber ∉ groups.blockedNumbers →
              (records.byNumber svalbardNumber).isSome))
          ∨ (records.byNumber svalbardNumber = none
            ∧ plan.ops = records.ops ++ [createSvalbard records.nextNew]
            ∧ plan.state.byNumber
              = records.byNumber.insert svalbardNumber (.new records.nextNew)
            ∧ svalbardNumber ∉ groups.blockedNumbers
            ∧ svalbardNeeded inputs.units = true)) := by
  simp only [planMunicipalities, Option.bind_eq_bind, Option.bind_eq_some_iff] at planned
  obtain ⟨groups, grouped, records, recorded, same⟩ := planned
  refine ⟨groups, records, grouped, recorded, ?_⟩
  split at same
  · next needed =>
      cases same
      simp only [Bool.and_eq_true, Bool.not_eq_true', Lookup.contains] at needed
      refine ⟨rfl, rfl, rfl, .inr ⟨?_, rfl, rfl, of_decide_eq_true needed.2, needed.1.1⟩⟩
      simpa using needed.1.2
  · next idle =>
      cases same
      refine ⟨rfl, rfl, rfl, .inl ⟨List.append_nil _, rfl, fun needed unblocked => ?_⟩⟩
      by_contra vacant
      refine idle ?_
      simp [needed, unblocked, Lookup.contains] at vacant ⊢
      exact vacant

/-- Step 1 resolves every number as the group loop left it, and no blocked number anew. -/
theorem planMunicipalities_numbers {groups : GroupState Id} (store : StoreConstraints snapshot)
    (planned : planMunicipalities snapshot inputs = some plan)
    (grouped : planCodeChanges snapshot inputs.municipalities inputs.codeChanges = some groups)
    : (∀ number r, groups.byNumber number = some r → plan.state.byNumber number = some r)
      ∧ ∀ number ∈ groups.blockedNumbers, groups.byNumber number = none →
        plan.state.byNumber number = none := by
  obtain ⟨groups', records, grouped', recorded, _, _, _, parts⟩ := planMunicipalities_parts planned
  cases grouped.symm.trans grouped'
  have coherent : groups.Coherent snapshot := by
    obtain ⟨groups', run, coherent⟩ :=
      planCodeChanges_coherent store.rowKeys inputs.municipalities inputs.codeChanges
    cases grouped.symm.trans run
    exact coherent
  have named : records.Named snapshot groups := by
    obtain ⟨records', recorded', named⟩ :=
      planRecords_named inputs coherent (planCodeChanges_named store.rowKeys grouped)
    cases recorded.symm.trans recorded'
    exact named
  have blocked : ∀ number ∈ groups.blockedNumbers,
      records.byNumber number = groups.byNumber number := by
    refine foldlM_preserves (P := fun state : RecordState Id =>
      ∀ number ∈ groups.blockedNumbers, state.byNumber number = groups.byNumber number) ?_
      recorded fun _ _ => rfl
    intro before r _ after stepped kept
    rcases stepRecord_cases stepped with ⟨_, rfl⟩
      | ⟨unblocked, ⟨_, _, _, _, rfl⟩ | ⟨_, _, rfl⟩ | ⟨_, _, _, _, rfl⟩ | ⟨_, _, _, rfl⟩⟩
    · exact kept
    · exact kept
    · exact kept
    · intro number inside
      have differ : number ≠ r.number := fun same => unblocked (same ▸ inside)
      exact (Lookup.insert_of_ne _ _ differ).trans (kept number inside)
    · exact kept
  rcases parts with ⟨_, byNumber, _⟩ | ⟨vacant, _, byNumber, open_svalbard, _⟩
  · rw [byNumber]
    exact ⟨named.kept, fun number inside free => (blocked number inside).trans free⟩
  · rw [byNumber]
    refine ⟨fun number r found => ?_, fun number inside free => ?_⟩
    · have differ : number ≠ svalbardNumber := by
        intro same
        rw [same] at found
        rw [named.kept _ _ found] at vacant
        cases vacant
      exact (Lookup.insert_of_ne _ _ differ).trans (named.kept number r found)
    · have differ : number ≠ svalbardNumber := fun same => open_svalbard (same ▸ inside)
      exact (Lookup.insert_of_ne _ _ differ).trans ((blocked number inside).trans free)

/-- Step 1 resolves a number to an existing municipality as the group loop did. -/
theorem planMunicipalities_existing {groups : GroupState Id} (store : StoreConstraints snapshot)
    (planned : planMunicipalities snapshot inputs = some plan)
    (grouped : planCodeChanges snapshot inputs.municipalities inputs.codeChanges = some groups)
    {number : String} {id : Id} (found : plan.state.byNumber number = some (.existing id))
    : groups.byNumber number = some (.existing id) := by
  obtain ⟨groups', records, grouped', recorded, _, _, _, parts⟩ := planMunicipalities_parts planned
  cases grouped.symm.trans grouped'
  obtain ⟨groups', run, coherent⟩ :=
    planCodeChanges_coherent store.rowKeys inputs.municipalities inputs.codeChanges
  cases grouped.symm.trans run
  obtain ⟨records', recorded', named⟩ :=
    planRecords_named inputs coherent (planCodeChanges_named store.rowKeys grouped)
  cases recorded.symm.trans recorded'
  suffices held : records.byNumber number = some (.existing id) by
    rcases named.numbers number _ held with before | ⟨_, n, _, new⟩
    · exact before
    · cases new
  rcases parts with ⟨_, byNumber, _⟩ | ⟨_, _, byNumber, _⟩
  · exact byNumber ▸ found
  · rw [byNumber] at found
    by_cases same : number = svalbardNumber
    · subst same
      cases (Lookup.insert_self _ _ _).symm.trans found
    · exact (Lookup.insert_of_ne _ _ same).symm.trans found

-----------------------------------------------------------------------------------------
-- What step 1 settles

/-- Step 1's numbers track the applied table, every record settles, Svalbard is there when
a unit needs it, and municipalities missing from Kartverket are reported. Under the numbers
that Kartverket does not list the table is as the group loop left it, but for Svalbard.
-/
structure MunicipalityPlan.Settles (plan : MunicipalityPlan Id) (ids : NewIds Id)
    (snapshot : RegisterSnapshot Id) (inputs : SyncInputs) : Prop where
  tracks : Tracks ids (tableAfterMunicipalityOps ids plan.ops snapshot.municipalities)
    plan.state.byNumber
  settled : ∀ r ∈ inputs.municipalities,
    r.Settled (tableAfterMunicipalityOps ids plan.ops snapshot.municipalities)
      plan.state.byNumber plan.reviews plan.state.blockedNumbers inputs.kind
  svalbard : svalbardNeeded inputs.units = true → svalbardNumber ∉ plan.state.blockedNumbers →
    (plan.state.byNumber svalbardNumber).isSome
  absent : ∀ row ∈ tableAfterMunicipalityOps ids plan.ops snapshot.municipalities,
    row.status = .active →
    isAbsent inputs.municipalities plan.state.blockedNumbers (.ofRow row) = true →
    absentReview (.ofRow row) ∈ plan.reviews
  untouched : ∀ groups,
    planCodeChanges snapshot inputs.municipalities inputs.codeChanges = some groups →
    ∀ id w, groups.working id = some w → listsNumber inputs.municipalities w.number = false →
    w.applied ∈ tableAfterMunicipalityOps ids plan.ops snapshot.municipalities
  unlisted : ∀ groups,
    planCodeChanges snapshot inputs.municipalities inputs.codeChanges = some groups →
    ∀ row ∈ tableAfterMunicipalityOps ids plan.ops snapshot.municipalities,
    row.status = .active → listsNumber inputs.municipalities row.number = false →
    (∃ w, groups.working row.id = some w ∧ row = w.applied)
      ∨ (row.source = .manual ∧ groups.byNumber row.number = none)

theorem mem_workingRows {working : Lookup Id (Working Id)} {w : Working Id}
    : w ∈ workingRows snapshot working
      ↔ ∃ row ∈ activeMunicipalities snapshot, working row.id = some w := by
  rw [workingRows]
  refine List.mem_filterMap.trans ?_
  simp

/-- An absent municipality of the applied table is one the group loop left. -/
theorem RecordState.Settles.absent {groups : GroupState Id} {state : RecordState Id}
    {kind : RunKind} {records : List MunicipalityRecord}
    (h : state.Settles ids snapshot groups kind records) (coherent : groups.Coherent snapshot)
    {row : MunicipalitySnapshot Id}
    (member : row ∈ tableAfterMunicipalityOps ids state.ops snapshot.municipalities)
    (active : row.status = .active)
    (unlisted : ∀ r ∈ records, r.number ≠ row.number)
    : ∃ w ∈ workingRows snapshot groups.working, row = w.applied := by
  obtain ⟨r, found, named⟩ := h.tracks.found row member active
  rcases h.named.numbers _ _ found with before | ⟨_, n, _, rfl⟩
  · obtain ⟨id, w, rfl, working, number⟩ := coherent.holder _ _ before
    obtain ⟨own, same⟩ := coherent.row id w working
    refine ⟨w, mem_workingRows.mpr ⟨w.row, own, same ▸ working⟩, ?_⟩
    have unseen : w.number ∉ records.map MunicipalityRecord.number := by
      intro seen
      obtain ⟨r, inside, at_number⟩ := List.mem_map.mp seen
      exact unlisted r inside (at_number.trans number)
    refine List.inj_on_of_nodup_map h.tracks.unique member (h.untouched id w working unseen) ?_
    exact (Option.some.inj named).symm.trans same.symm
  · obtain ⟨r, inside, at_number⟩ := h.created _ _ found
    exact absurd at_number (unlisted r inside)

/-- Step 1 settles, given ids for its new rows. -/
theorem planMunicipalities_settles (store : StoreConstraints snapshot)
    (planned : planMunicipalities snapshot inputs = some plan)
    (distinct : (inputs.municipalities.map MunicipalityRecord.number).Nodup)
    (fresh : ids.Fresh snapshot)
    (covers : ∀ n ∈ plan.ops.filterMap createdMunicipality?, (ids.municipality n).isSome)
    : plan.Settles ids snapshot inputs := by
  obtain ⟨groups, records, grouped, recorded, blocked, _, reviews, cases⟩ :=
    planMunicipalities_parts planned
  have tracked : groups.Tracked ids snapshot := planCodeChanges_tracked store.rowKeys grouped
  have groupOps := planCodeChanges_named store.rowKeys grouped
  have named : records.Named snapshot groups := by
    obtain ⟨records', recorded', named⟩ := planRecords_named inputs tracked.coherent groupOps
    cases recorded.symm.trans recorded'
    exact named
  -- the numbers of the record loop's creations are covered
  have covered : ∀ n < records.nextNew, (ids.municipality n).isSome := by
    intro n bound
    refine covers n ?_
    have inside : n ∈ records.ops.filterMap createdMunicipality? := by
      rw [named.ops.creates]
      exact List.mem_range.mpr bound
    rcases cases with ⟨ops, _⟩ | ⟨_, ops, _⟩
    · rwa [ops]
    · rw [ops, List.filterMap_append]
      exact List.mem_append_left _ inside
  have start : RecordState.Settles ⟨groups.ops, groups.reviews, groups.byNumber, 0⟩ ids
      snapshot groups inputs.kind [] := by
    refine ⟨⟨groupOps, fun _ _ found => .inl found, fun _ _ found => found⟩, tracked.tracks, ?_,
      ?_, fun id w working _ => tracked.applied id w working, by simp⟩
    · intro number n found
      obtain ⟨_, _, impossible, _⟩ := tracked.coherent.holder _ _ found
      cases impossible
    · intro n _ id found
      have same : (tableAfterMunicipalityOps ids groups.ops snapshot.municipalities).map (·.id)
          = snapshot.municipalities.map (·.id) := by
        have no_rows : groups.ops.flatMap (MunicipalityOp.rows ids) = [] := by
          refine List.flatMap_eq_nil_iff.mpr fun op inside => ?_
          cases op with
          | create new =>
              have made : new ∈ groups.ops.filterMap createdMunicipality? :=
                List.mem_filterMap.mpr ⟨_, inside, rfl⟩
              rw [groupOps.creates] at made
              cases made
          | _ => rfl
        have fixed : ∀ op ∈ groups.ops, ∀ row ∈ MunicipalityOp.rows ids op,
            ∀ other ∈ groups.ops, other.onRow row = row := by
          intro op inside row created
          rw [List.flatMap_eq_nil_iff.mp no_rows op inside] at created
          cases created
        rw [tableAfterMunicipalityOps, foldl_growTable fixed, no_rows, List.append_nil,
          List.map_map]
        exact List.map_congr_left fun row _ =>
          changeAll_keeps MunicipalitySnapshot.id (fun op _ row => MunicipalityOp.onRow_id op row)
            row
      rw [same]
      exact fresh.municipality n id found
  have sorted : ((sortOn MunicipalityRecord.number inputs.municipalities).map
      MunicipalityRecord.number).Nodup :=
    ((List.perm_insertionSort _ _).map _).nodup_iff.mpr distinct
  have settles := start.run tracked.coherent sorted covered fresh.municipalityInjective recorded
  rw [List.nil_append] at settles
  have reported : ∀ w ∈ workingRows snapshot groups.working,
      isAbsent inputs.municipalities groups.blockedNumbers w = true →
      absentReview w ∈ plan.reviews := by
    intro w member missing
    rw [reviews]
    exact List.mem_append_right _ (List.mem_map_of_mem (List.mem_filter.mpr ⟨member, missing⟩))
  have more : records.reviews ⊆ plan.reviews := by
    rw [reviews]
    exact List.subset_append_left _ _
  have absent (row : MunicipalitySnapshot Id)
      (member : row ∈ tableAfterMunicipalityOps ids records.ops snapshot.municipalities)
      (active : row.status = .active)
      (missing : isAbsent inputs.municipalities groups.blockedNumbers (.ofRow row) = true)
      : absentReview (.ofRow row) ∈ plan.reviews := by
    have unlisted : ∀ r ∈ sortOn MunicipalityRecord.number inputs.municipalities,
        r.number ≠ row.number := by
      simp only [isAbsent, listsNumber, Bool.and_eq_true, Bool.not_eq_true',
        List.any_eq_false, Working.ofRow] at missing
      exact fun r inside same => missing.1.2 r (mem_sortOn.mp inside) (decide_eq_true same)
    obtain ⟨w, inside, rfl⟩ := settles.absent tracked.coherent member active unlisted
    exact reported w inside missing
  have only (groups' : GroupState Id)
      (run : planCodeChanges snapshot inputs.municipalities inputs.codeChanges = some groups')
      : groups' = groups := Option.some.inj (run.symm.trans grouped)
  have unseen {number : String} (unlisted : listsNumber inputs.municipalities number = false)
      : ∀ r ∈ sortOn MunicipalityRecord.number inputs.municipalities, r.number ≠ number := by
    intro r inside same
    simp only [listsNumber, List.any_eq_false] at unlisted
    exact unlisted r (mem_sortOn.mp inside) (decide_eq_true same)
  have kept (id : Id) (w : Working Id) (working : groups.working id = some w)
      (unlisted : listsNumber inputs.municipalities w.number = false)
      : w.applied ∈ tableAfterMunicipalityOps ids records.ops snapshot.municipalities := by
    refine settles.untouched id w working fun member => ?_
    obtain ⟨r, inside, same⟩ := List.mem_map.mp member
    exact unseen unlisted r inside same
  have left (row : MunicipalitySnapshot Id)
      (member : row ∈ tableAfterMunicipalityOps ids records.ops snapshot.municipalities)
      (active : row.status = .active)
      (unlisted : listsNumber inputs.municipalities row.number = false)
      : ∃ w, groups.working row.id = some w ∧ row = w.applied := by
    obtain ⟨w, inside, rfl⟩ := settles.absent tracked.coherent member active (unseen unlisted)
    obtain ⟨own, _, working⟩ := mem_workingRows.mp inside
    have same : w.row.id = own.id := (tracked.coherent.row _ _ working).2
    exact ⟨w, by rw [show w.applied.id = own.id from same]; exact working, rfl⟩
  rcases cases with ⟨ops, byNumber, needs⟩ | ⟨vacant, ops, byNumber, _⟩
  · refine ⟨?_, ?_, ?_, ?_, ?_, ?_⟩
    · rw [ops, byNumber]
      exact settles.tracks
    · intro r member
      rw [ops, byNumber, blocked]
      exact (settles.settled r (mem_sortOn.mpr member)).mono (fun _ inside _ _ => inside) id more
    · rw [blocked, byNumber]
      exact needs
    · rw [ops, blocked]
      exact absent
    · intro groups' run
      rw [ops, only groups' run]
      exact kept
    · intro groups' run
      rw [ops, only groups' run]
      exact fun row member active unlisted => .inl (left row member active unlisted)
  · -- Svalbard is added under its free number, by a manual row
    let svalbard : MunicipalityOp Id := createSvalbard records.nextNew
    have creates : createdMunicipality? svalbard = some records.nextNew := rfl
    obtain ⟨id, hid⟩ := Option.isSome_iff_exists.mp (covers records.nextNew (by
      rw [ops, List.filterMap_append]
      exact List.mem_append_right _ (List.mem_filterMap.mpr ⟨_, List.mem_singleton.mpr rfl,
        creates⟩)))
    let row : MunicipalitySnapshot Id := ⟨id, svalbardNumber, "Svalbard", none, "21", "Svalbard",
      "2100-svalbard", .active, .manual, [⟨"Svalbard", "no", 1⟩]⟩
    have rows : (createSvalbard records.nextNew).rows ids = [row] := by
      simp [createSvalbard, MunicipalityOp.rows, hid, row]
    obtain ⟨grown, tracks⟩ := settles.tracks.create rfl rows hid rfl
      (settles.missing _ le_rfl id hid) vacant
    have table_eq : tableAfterMunicipalityOps ids plan.ops snapshot.municipalities
        = tableAfterMunicipalityOps ids records.ops snapshot.municipalities ++ [row] := by
      rw [ops, tableAfterMunicipalityOps_snoc]
      exact grown
    refine ⟨?_, ?_, ?_, ?_, ?_, ?_⟩
    · rw [table_eq, byNumber]
      exact tracks
    · intro r member
      rw [table_eq, byNumber, blocked]
      by_cases same : r.number = svalbardNumber
      · refine .held row (List.mem_append_right _ (List.mem_singleton.mpr rfl)) rfl same.symm ?_ ?_
        · rw [compareRecord_manual rfl]
        · rw [compareRecord_manual rfl]
          exact List.nil_subset _
      · refine (settles.settled r (mem_sortOn.mpr member)).mono
          (fun _ inside _ _ => List.mem_append_left _ inside) ?_ more
        exact fun free => (Lookup.insert_of_ne _ _ same).trans free
    · rw [byNumber]
      exact fun _ _ => congrArg Option.isSome (Lookup.insert_self _ _ _)
    · rw [table_eq, blocked]
      intro other member active missing
      rcases List.mem_append.mp member with old | last
      · exact absent other old active missing
      · cases List.mem_singleton.mp last
        simp [isAbsent, Working.ofRow, row] at missing
    · intro groups' run id' w working unlisted
      rw [only groups' run] at working
      rw [table_eq]
      exact List.mem_append_left _ (kept id' w working unlisted)
    · intro groups' run other member active unlisted
      rw [table_eq] at member
      rw [only groups' run]
      rcases List.mem_append.mp member with old | last
      · exact .inl (left other old active unlisted)
      · cases List.mem_singleton.mp last
        refine .inr ⟨rfl, ?_⟩
        cases held : groups.byNumber svalbardNumber with
        | none => rfl
        | some r =>
            rw [named.kept _ _ held] at vacant
            cases vacant

end FauPortalen.Register

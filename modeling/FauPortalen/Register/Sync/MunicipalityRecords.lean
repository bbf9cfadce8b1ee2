import FauPortalen.Register.Sync.MunicipalityTracking

/-! What the record loop settles: once its operations are applied, every record of
Kartverket finds its municipality as it lists it, is blocked, or is reported as unknown.
-/

set_option linter.unusedSectionVars false

namespace FauPortalen.Register

open FauPortalen.Foundations

variable {Id : Type} [LinearOrder Id] [UnicodeData] {ids : NewIds Id}
  {snapshot : RegisterSnapshot Id} {groups : GroupState Id} {kind : RunKind}
  {r : MunicipalityRecord}

-----------------------------------------------------------------------------------------
-- One record

/-- The record settles: its number is blocked, its municipality is as the record lists it up
to a reported name, or nobody has its number and that is reported.
-/
inductive MunicipalityRecord.Settled (r : MunicipalityRecord)
    (table : List (MunicipalitySnapshot Id)) (byNumber : Lookup String (Ref Id))
    (reviews : List (ReviewItem Id)) (blocked : Finset String) (kind : RunKind) : Prop
  | blocked (member : r.number ∈ blocked)
  | held (row : MunicipalitySnapshot Id) (member : row ∈ table)
      (active : row.status = .active) (number : row.number = r.number)
      (same : (compareRecord (.ofRow row) row.id r).1 = [])
      (reported : (compareRecord (.ofRow row) row.id r).2 ⊆ reviews)
  | absent (reason : String) (none_holds : byNumber r.number = none)
      (unknown : (kind = .sync ∧ reason = "unknown_number")
        ∨ (kind = .seed ∧ (∃ e, municipalitySlug r.number r.norwegianName = .error e)
          ∧ reason = "unsluggable"))
      (reported : recordReview r reason none ∈ reviews)

/-- A comparison's operations keep numbers. -/
theorem compareRecord_keepsNumber {w : Working Id} {id : Id} {op : MunicipalityOp Id}
    (member : op ∈ (compareRecord w id r).1)
    : op.KeepsNumber := by
  unfold compareRecord at member
  split at member
  · cases member
  · simp only [List.mem_append] at member
    rcases member with renamed | updated
    · split at renamed
      · split at renamed
        · cases List.mem_singleton.mp renamed
          trivial
        · cases renamed
      · cases renamed
    · split at updated
      · cases List.mem_singleton.mp updated
        trivial
      · cases updated

/-- The row that a comparison's operations leave, part by part: the details are the
record's, and so is the name unless it is unsluggable.
-/
theorem compareRecord_leaves {w : Working Id} (sourced : w.row.source ≠ .manual)
    : ∃ row, changeAll MunicipalityOp.onRow (compareRecord w w.row.id r).1 w.applied = row
        ∧ row.source ≠ .manual ∧ detailsDiffer row r = false
        ∧ ((row.name = r.norwegianName ∧ (compareRecord w w.row.id r).2 = [])
          ∨ (row.name ≠ r.norwegianName
            ∧ (∃ e, municipalitySlug r.number r.norwegianName = .error e)
            ∧ (compareRecord w w.row.id r).2
              = [recordReview r "unsluggable" (some w.row.id)])) := by
  have updated (m : MunicipalitySnapshot Id)
      : detailsDiffer { m with
          officialName := some r.officialName
          countyNumber := r.countyNumber
          countyName := r.countyName
          names := r.names } r = false := by
    simp [detailsDiffer]
  have unchanged : detailsDiffer w.applied r = detailsDiffer w.row r := rfl
  refine ⟨_, rfl, ?_⟩
  cases differs : detailsDiffer w.row r with
  | true =>
      by_cases renames : r.norwegianName = w.name
      · have ops : compareRecord w w.row.id r
            = ([.updateDetails w.row.id (some r.officialName) r.countyNumber r.countyName
              r.names], []) := by
          simp [compareRecord, sourced, differs, renames]
        rw [ops]
        refine ⟨?_, ?_, .inl ⟨?_, rfl⟩⟩
        · simpa [MunicipalityOp.onRow, MunicipalityOp.target?, MunicipalityOp.change,
            Working.applied] using sourced
        · simpa [MunicipalityOp.onRow, MunicipalityOp.target?, MunicipalityOp.change,
            Working.applied] using updated w.applied
        · simp [MunicipalityOp.onRow, MunicipalityOp.target?, MunicipalityOp.change,
            Working.applied, renames]
      · cases slug : municipalitySlug r.number r.norwegianName with
        | ok newSlug =>
            have ops : compareRecord w w.row.id r
                = ([.rename w.row.id r.norwegianName w.slug newSlug,
                  .updateDetails w.row.id (some r.officialName) r.countyNumber r.countyName
                    r.names], []) := by
              simp [compareRecord, sourced, differs, renames, slug]
            rw [ops]
            refine ⟨?_, ?_, .inl ⟨?_, rfl⟩⟩
            · simpa [MunicipalityOp.onRow, MunicipalityOp.target?, MunicipalityOp.change,
                Working.applied] using sourced
            · simp [MunicipalityOp.onRow, MunicipalityOp.target?, MunicipalityOp.change,
                Working.applied, detailsDiffer]
            · simp [MunicipalityOp.onRow, MunicipalityOp.target?, MunicipalityOp.change,
                Working.applied]
        | error e =>
            have ops : compareRecord w w.row.id r
                = ([.updateDetails w.row.id (some r.officialName) r.countyNumber r.countyName
                  r.names], [recordReview r "unsluggable" (some w.row.id)]) := by
              simp [compareRecord, sourced, differs, renames, slug]
            rw [ops]
            refine ⟨?_, ?_, .inr ⟨?_, ⟨e, rfl⟩, rfl⟩⟩
            · simpa [MunicipalityOp.onRow, MunicipalityOp.target?, MunicipalityOp.change,
                Working.applied] using sourced
            · simpa [MunicipalityOp.onRow, MunicipalityOp.target?, MunicipalityOp.change,
                Working.applied] using updated w.applied
            · simpa [MunicipalityOp.onRow, MunicipalityOp.target?, MunicipalityOp.change,
                Working.applied] using Ne.symm renames
  | false =>
      by_cases renames : r.norwegianName = w.name
      · have ops : compareRecord w w.row.id r = ([], []) := by
          simp [compareRecord, sourced, differs, renames]
        rw [ops]
        exact ⟨sourced, unchanged.trans differs, .inl ⟨renames.symm, rfl⟩⟩
      · cases slug : municipalitySlug r.number r.norwegianName with
        | ok newSlug =>
            have ops : compareRecord w w.row.id r
                = ([.rename w.row.id r.norwegianName w.slug newSlug], []) := by
              simp [compareRecord, sourced, differs, renames, slug]
            rw [ops]
            have row : changeAll MunicipalityOp.onRow
                [.rename w.row.id r.norwegianName w.slug newSlug] w.applied
                  = MunicipalityOp.change (.rename w.row.id r.norwegianName w.slug newSlug)
                    w.applied :=
              MunicipalityOp.onRow_of_eq rfl
            rw [row]
            exact ⟨sourced, unchanged.trans differs, .inl ⟨rfl, rfl⟩⟩
        | error e =>
            have ops : compareRecord w w.row.id r
                = ([], [recordReview r "unsluggable" (some w.row.id)]) := by
              simp [compareRecord, sourced, differs, renames, slug]
            rw [ops]
            exact ⟨sourced, unchanged.trans differs, .inr ⟨Ne.symm renames, ⟨e, rfl⟩, rfl⟩⟩

/-- Compared again, the row a comparison leaves needs no operation and has the same review
items.
-/
theorem compareRecord_again {w : Working Id}
    : compareRecord
        (.ofRow (changeAll MunicipalityOp.onRow (compareRecord w w.row.id r).1 w.applied))
        w.row.id r
      = ([], (compareRecord w w.row.id r).2) := by
  by_cases manual : w.row.source = .manual
  · simp [compareRecord, manual, Working.applied, Working.ofRow]
  · obtain ⟨row, same, sourced, details, ⟨name, quiet⟩ | ⟨name, ⟨e, slug⟩, reported⟩⟩ :=
      compareRecord_leaves (r := r) manual
    · rw [same, quiet]
      simp [compareRecord, Working.ofRow, sourced, details, name]
    · rw [same, reported]
      simp [compareRecord, Working.ofRow, sourced, details, Ne.symm name, slug]

/-- A row created for a record is as the record lists it. -/
theorem compareRecord_created {id : Id} {slug : String}
    : compareRecord (.ofRow ⟨id, r.number, r.norwegianName, some r.officialName,
        r.countyNumber, r.countyName, slug, .active, .kartverket, r.names⟩) id r = ([], []) := by
  simp [compareRecord, Working.ofRow, detailsDiffer]

/-- A manual row is left as it is. -/
theorem compareRecord_manual {w : Working Id} (manual : w.row.source = .manual) (id : Id)
    (r : MunicipalityRecord)
    : compareRecord w id r = ([], []) := by
  simp [compareRecord, manual]

-----------------------------------------------------------------------------------------
-- The record loop

/-- What the record loop keeps: its numbers track the applied table, the records it has seen
are settled, and the municipalities with other numbers are as the group loop left them.
-/
structure RecordState.Settles (state : RecordState Id) (ids : NewIds Id)
    (snapshot : RegisterSnapshot Id) (groups : GroupState Id) (kind : RunKind)
    (done : List MunicipalityRecord) : Prop where
  named : state.Named snapshot groups
  tracks : Tracks ids (tableAfterMunicipalityOps ids state.ops snapshot.municipalities)
    state.byNumber
  created : ∀ number n, state.byNumber number = some (.new n) → ∃ r ∈ done, r.number = number
  missing : ∀ n, state.nextNew ≤ n → ∀ id, ids.municipality n = some id →
    id ∉ (tableAfterMunicipalityOps ids state.ops snapshot.municipalities).map (·.id)
  untouched : ∀ id w, groups.working id = some w →
    w.number ∉ done.map MunicipalityRecord.number →
    w.applied ∈ tableAfterMunicipalityOps ids state.ops snapshot.municipalities
  settled : ∀ r ∈ done,
    r.Settled (tableAfterMunicipalityOps ids state.ops snapshot.municipalities)
      state.byNumber state.reviews groups.blockedNumbers kind

variable {table : List (MunicipalitySnapshot Id)} {byNumber : Lookup String (Ref Id)}
  {state after : RecordState Id} {done rest : List MunicipalityRecord}

/-- Operations that keep numbers keep them tracked, and change the rows in place. -/
theorem Tracks.keepAll {more : List (MunicipalityOp Id)} (h : Tracks ids table byNumber)
    (keeps : ∀ op ∈ more, op.KeepsNumber)
    : Tracks ids (tableAfterMunicipalityOps ids more table) byNumber
      ∧ tableAfterMunicipalityOps ids more table
        = table.map (changeAll MunicipalityOp.onRow more) := by
  refine ⟨?_, ?_⟩
  · induction more generalizing table with
    | nil => exact h
    | cons op later ih =>
        exact ih (h.keep (keeps op List.mem_cons_self))
          fun op' inside => keeps op' (List.mem_cons_of_mem _ inside)
  · have no_rows : more.flatMap (MunicipalityOp.rows ids) = [] :=
      List.flatMap_eq_nil_iff.mpr fun op inside => (keeps op inside).rows
    rw [tableAfterMunicipalityOps, foldl_growTable, no_rows, List.append_nil]
    intro op inside row created
    rw [(keeps op inside).rows] at created
    cases created

theorem tableAfterMunicipalityOps_append (ops more : List (MunicipalityOp Id))
    (table : List (MunicipalitySnapshot Id))
    : tableAfterMunicipalityOps ids (ops ++ more) table
      = tableAfterMunicipalityOps ids more (tableAfterMunicipalityOps ids ops table) := by
  simp [tableAfterMunicipalityOps]

/-- A settled record stays settled when its row stays, its number stays free and review
items are only added.
-/
theorem MunicipalityRecord.Settled.mono {table' : List (MunicipalitySnapshot Id)}
    {byNumber' : Lookup String (Ref Id)} {reviews reviews' : List (ReviewItem Id)}
    {blocked : Finset String} (h : r.Settled table byNumber reviews blocked kind)
    (rows : ∀ row ∈ table, row.status = .active → row.number = r.number → row ∈ table')
    (free : byNumber r.number = none → byNumber' r.number = none)
    (more : reviews ⊆ reviews')
    : r.Settled table' byNumber' reviews' blocked kind := by
  cases h with
  | blocked member => exact .blocked member
  | held row member active number same reported =>
      exact .held row (rows row member active number) active number same
        (List.Subset.trans reported more)
  | absent reason none_holds unknown reported =>
      exact .absent reason (free none_holds) unknown (more reported)

/-- The comparison of a record with its holder settles it and no other. -/
theorem RecordState.Settles.compare {id : Id} {w : Working Id}
    (h : state.Settles ids snapshot groups kind done)
    (coherent : groups.Coherent snapshot)
    (apart : ((done ++ r :: rest).map MunicipalityRecord.number).Nodup)
    (found : state.byNumber r.number = some (.existing id))
    (working : groups.working id = some w)
    (named : RecordState.Named { state with
      ops := state.ops ++ (compareRecord w id r).1
      reviews := state.reviews ++ (compareRecord w id r).2 } snapshot groups)
    : RecordState.Settles { state with
        ops := state.ops ++ (compareRecord w id r).1
        reviews := state.reviews ++ (compareRecord w id r).2 }
        ids snapshot groups kind (done ++ [r]) := by
  have held : groups.byNumber r.number = some (.existing id) := by
    rcases h.named.numbers _ _ found with before | ⟨_, n, _, new⟩
    · exact before
    · cases new
  have number : w.number = r.number := by
    obtain ⟨id', w', same, working', at_number⟩ := coherent.holder _ _ held
    cases same
    rw [working] at working'
    cases working'
    exact at_number
  obtain ⟨_, rfl⟩ := coherent.row id w working
  obtain ⟨_, _, apart_both⟩ := List.nodup_append.mp (List.map_append ▸ apart)
  have own_new : r.number ∉ done.map MunicipalityRecord.number := fun member =>
    apart_both _ member _ (List.mem_map_of_mem List.mem_cons_self) rfl
  have present := h.untouched _ w working (number ▸ own_new)
  have keeps : ∀ op ∈ (compareRecord w w.row.id r).1, op.KeepsNumber :=
    fun op member => compareRecord_keepsNumber member
  obtain ⟨tracks, table_eq⟩ := h.tracks.keepAll keeps
  have others (row : MunicipalitySnapshot Id) (differ : row.id ≠ w.row.id)
      : changeAll MunicipalityOp.onRow (compareRecord w w.row.id r).1 row = row := by
    refine changeAll_of_fixed fun op member => MunicipalityOp.onRow_of_ne fun target => ?_
    rw [compareRecord_target member] at target
    exact differ (Option.some.inj target).symm
  have not_own (row : MunicipalitySnapshot Id)
      (inside : row ∈ tableAfterMunicipalityOps ids state.ops snapshot.municipalities)
      (differ : row.number ≠ r.number) : row.id ≠ w.row.id := by
    intro same
    have one : row = w.applied :=
      List.inj_on_of_nodup_map h.tracks.unique inside present same
    exact differ (one ▸ number)
  have ids_kept (row : MunicipalitySnapshot Id)
      : (changeAll MunicipalityOp.onRow (compareRecord w w.row.id r).1 row).id = row.id :=
    changeAll_keeps MunicipalitySnapshot.id (fun op _ row => MunicipalityOp.onRow_id op row)
      row
  refine ⟨named, ?_, ?_, ?_, ?_, ?_⟩
  · rw [tableAfterMunicipalityOps_append]
    exact tracks
  · intro number' n resolved
    obtain ⟨r', inside, same⟩ := h.created number' n resolved
    exact ⟨r', List.mem_append_left _ inside, same⟩
  · intro n bound id' resolved
    have kept : (tableAfterMunicipalityOps ids (state.ops ++ (compareRecord w w.row.id r).1)
        snapshot.municipalities).map (·.id)
          = (tableAfterMunicipalityOps ids state.ops snapshot.municipalities).map (·.id) := by
      rw [tableAfterMunicipalityOps_append, table_eq, List.map_map]
      exact List.map_congr_left fun row _ => ids_kept row
    rw [kept]
    exact h.missing n bound id' resolved
  · intro id' w' working' unseen
    rw [List.map_append, List.mem_append, not_or] at unseen
    rw [tableAfterMunicipalityOps_append, table_eq]
    have before := h.untouched id' w' working' unseen.1
    refine List.mem_map.mpr ⟨w'.applied, before, others _ (not_own _ before fun same => ?_)⟩
    exact unseen.2 (List.mem_singleton.mpr same)
  · intro r' member
    rcases List.mem_append.mp member with old | last
    · refine (h.settled r' old).mono ?_ id (List.subset_append_left _ _)
      intro row inside _ at_number
      rw [tableAfterMunicipalityOps_append, table_eq]
      have differ : row.number ≠ r.number := by
        rw [at_number]
        exact apart_both _ (List.mem_map_of_mem old) _ (List.mem_map_of_mem List.mem_cons_self)
      exact List.mem_map.mpr ⟨row, inside, others row (not_own row inside differ)⟩
    · cases List.mem_singleton.mp last
      obtain ⟨own, inside, active, at_number, resolves⟩ := h.tracks.holder _ _ found
      have one : own = w.applied := List.inj_on_of_nodup_map h.tracks.unique inside present
        (Option.some.inj resolves).symm
      subst one
      refine .held (changeAll MunicipalityOp.onRow (compareRecord w w.row.id r).1 w.applied)
        ?_ ?_ ?_ ?_ ?_
      · rw [tableAfterMunicipalityOps_append, table_eq]
        exact List.mem_map_of_mem present
      · rw [changeAll_keeps MunicipalitySnapshot.status
          fun op _ row => MunicipalityOp.onRow_status op row]
        exact active
      · rw [changeAll_keeps MunicipalitySnapshot.number
          fun op member row => (keeps op member).onRow row]
        exact number
      · rw [ids_kept]
        exact congrArg Prod.fst compareRecord_again
      · rw [ids_kept]
        show (compareRecord _ w.row.id r).2 ⊆ _
        rw [compareRecord_again]
        exact List.subset_append_right _ _

/-- The creation of a record's municipality settles it and no other. -/
theorem RecordState.Settles.create {slug : String}
    (h : state.Settles ids snapshot groups kind done)
    (apart : ((done ++ r :: rest).map MunicipalityRecord.number).Nodup)
    (absent : state.byNumber r.number = none)
    (covered : (ids.municipality state.nextNew).isSome)
    (injective : ∀ m n id, ids.municipality m = some id → ids.municipality n = some id → m = n)
    (after_eq : after = {
      ops := state.ops
        ++ [.create state.nextNew r.number r.norwegianName (some r.officialName)
          r.countyNumber r.countyName slug r.names .kartverket]
      reviews := state.reviews
      byNumber := state.byNumber.insert r.number (.new state.nextNew)
      nextNew := state.nextNew + 1 })
    (named : after.Named snapshot groups)
    : after.Settles ids snapshot groups kind (done ++ [r]) := by
  subst after_eq
  obtain ⟨id, hid⟩ := Option.isSome_iff_exists.mp covered
  let row : MunicipalitySnapshot Id := ⟨id, r.number, r.norwegianName, some r.officialName,
    r.countyNumber, r.countyName, slug, .active, .kartverket, r.names⟩
  let op : MunicipalityOp Id := .create state.nextNew r.number r.norwegianName
    (some r.officialName) r.countyNumber r.countyName slug r.names .kartverket
  have rows : op.rows ids = [row] := by simp [op, row, MunicipalityOp.rows, hid]
  obtain ⟨grown, tracks⟩ := h.tracks.create rfl rows hid rfl
    (h.missing state.nextNew le_rfl id hid) absent
  have table_eq : tableAfterMunicipalityOps ids (state.ops ++ [op]) snapshot.municipalities
      = tableAfterMunicipalityOps ids state.ops snapshot.municipalities ++ [row] := by
    rw [tableAfterMunicipalityOps_snoc]
    exact grown
  obtain ⟨_, _, apart_both⟩ := List.nodup_append.mp (List.map_append ▸ apart)
  refine ⟨named, ?_, ?_, ?_, ?_, ?_⟩
  · rw [table_eq]
    exact tracks
  · intro number n resolved
    by_cases same : number = r.number
    · exact ⟨r, List.mem_append_right _ (List.mem_singleton.mpr rfl), same.symm⟩
    · obtain ⟨r', inside, at_number⟩ :=
        h.created number n ((Lookup.insert_of_ne _ _ same).symm.trans resolved)
      exact ⟨r', List.mem_append_left _ inside, at_number⟩
  · intro n bound id' resolved
    rw [table_eq, List.map_append, List.mem_append, not_or]
    have later : state.nextNew < n := bound
    refine ⟨h.missing n later.le id' resolved, fun last => ?_⟩
    have same : id' = id := List.mem_singleton.mp last
    exact absurd (injective _ _ _ hid (same ▸ resolved)) later.ne
  · intro id' w' working unseen
    rw [List.map_append, List.mem_append, not_or] at unseen
    rw [table_eq]
    exact List.mem_append_left _ (h.untouched id' w' working unseen.1)
  · intro r' member
    rw [table_eq]
    rcases List.mem_append.mp member with old | last
    · refine (h.settled r' old).mono (fun row inside _ _ => List.mem_append_left _ inside) ?_
        (List.Subset.refl _)
      intro free
      have differ : r'.number ≠ r.number :=
        apart_both _ (List.mem_map_of_mem old) _ (List.mem_map_of_mem List.mem_cons_self)
      exact (Lookup.insert_of_ne _ _ differ).trans free
    · cases List.mem_singleton.mp last
      refine .held row (List.mem_append_right _ (List.mem_singleton.mpr rfl)) rfl rfl ?_ ?_
      · exact congrArg Prod.fst compareRecord_created
      · show (compareRecord _ id r).2 ⊆ _
        rw [show compareRecord (.ofRow row) id r = ([], []) from compareRecord_created]
        exact List.nil_subset _

/-- One record settles. -/
theorem RecordState.Settles.step (h : state.Settles ids snapshot groups kind done)
    (coherent : groups.Coherent snapshot)
    (apart : ((done ++ r :: rest).map MunicipalityRecord.number).Nodup)
    (covers : ∀ n < after.nextNew, (ids.municipality n).isSome)
    (injective : ∀ m n id, ids.municipality m = some id → ids.municipality n = some id → m = n)
    (stepped : stepRecord kind groups.working groups.blockedNumbers state r = some after)
    : after.Settles ids snapshot groups kind (done ++ [r]) := by
  have named := h.named.step coherent stepped
  have later : ∀ id w, groups.working id = some w →
      w.number ∉ (done ++ [r]).map MunicipalityRecord.number →
      w.applied ∈ tableAfterMunicipalityOps ids state.ops snapshot.municipalities := by
    intro id w working unseen
    rw [List.map_append, List.mem_append, not_or] at unseen
    exact h.untouched id w working unseen.1
  have earlier {number : String} {n : Nat} (resolved : state.byNumber number = some (.new n))
      : ∃ r' ∈ done ++ [r], r'.number = number := by
    obtain ⟨r', inside, same⟩ := h.created number n resolved
    exact ⟨r', List.mem_append_left _ inside, same⟩
  rcases stepRecord_cases stepped with ⟨blocked, rfl⟩
    | ⟨_, ⟨id, w, found, working, rfl⟩ | ⟨n, found, rfl⟩ | ⟨slug, absent, _, _, same⟩
      | ⟨reason, absent, unknown, rfl⟩⟩
  · refine ⟨named, h.tracks, fun _ _ => earlier, h.missing, later, ?_⟩
    intro r' member
    rcases List.mem_append.mp member with old | last
    · exact h.settled r' old
    · cases List.mem_singleton.mp last
      exact .blocked blocked
  · exact h.compare coherent apart found working named
  · -- an earlier record of that number: there is none, since numbers are distinct
    obtain ⟨r', inside, same⟩ := h.created _ _ found
    obtain ⟨_, _, apart_both⟩ := List.nodup_append.mp (List.map_append ▸ apart)
    exact absurd same
      (apart_both _ (List.mem_map_of_mem inside) _ (List.mem_map_of_mem List.mem_cons_self))
  · have covered : (ids.municipality state.nextNew).isSome :=
      covers _ (by rw [same]; exact Nat.lt_succ_self _)
    exact h.create apart absent covered injective same named
  · refine ⟨named, h.tracks, fun _ _ => earlier, h.missing, later, ?_⟩
    intro r' member
    rcases List.mem_append.mp member with old | last
    · exact (h.settled r' old).mono (fun _ inside _ _ => inside) id
        (List.subset_append_left _ _)
    · cases List.mem_singleton.mp last
      exact .absent reason absent unknown
        (List.mem_append_right _ (List.mem_singleton.mpr rfl))

/-- Numbers of new rows only grow. -/
theorem stepRecord_nextNew
    (stepped : stepRecord kind groups.working groups.blockedNumbers state r = some after)
    : state.nextNew ≤ after.nextNew := by
  rcases stepRecord_cases stepped with ⟨_, rfl⟩
    | ⟨_, ⟨_, _, _, _, rfl⟩ | ⟨_, _, rfl⟩ | ⟨_, _, _, _, rfl⟩ | ⟨_, _, _, rfl⟩⟩
  · exact le_rfl
  · exact le_rfl
  · exact le_rfl
  · exact Nat.le_succ _
  · exact le_rfl

/-- The record loop settles every record, by induction on the records to come. -/
theorem RecordState.Settles.run {final : RecordState Id}
    (h : state.Settles ids snapshot groups kind done)
    (coherent : groups.Coherent snapshot)
    (apart : ((done ++ rest).map MunicipalityRecord.number).Nodup)
    (covers : ∀ n < final.nextNew, (ids.municipality n).isSome)
    (injective : ∀ m n id, ids.municipality m = some id → ids.municipality n = some id → m = n)
    (run : rest.foldlM (stepRecord kind groups.working groups.blockedNumbers) state
      = some final)
    : final.Settles ids snapshot groups kind (done ++ rest) := by
  induction rest generalizing state done with
  | nil =>
      cases run
      rwa [List.append_nil]
  | cons r rest ih =>
      obtain ⟨middle, stepped, later⟩ := foldlM_cons_eq_some.mp run
      have grows : middle.nextNew ≤ final.nextNew :=
        foldlM_preserves (P := fun s => middle.nextNew ≤ s.nextNew)
          (fun _ _ _ _ stepped bound => bound.trans (stepRecord_nextNew stepped)) later le_rfl
      have settles := h.step coherent apart (fun n bound => covers n (bound.trans_le grows))
        injective stepped
      have all := ih settles (by rwa [List.append_assoc, List.singleton_append]) later
      rwa [List.append_assoc, List.singleton_append] at all

end FauPortalen.Register

import FauPortalen.Register.Sync.MunicipalityKeys
import FauPortalen.Register.Sync.MunicipalitySettlement

/-! The operations of step 1 fit the municipalities: both loops change open municipalities
that are not kept by hand, and take or create none but free numbers.
-/

set_option linter.unusedSectionVars false

namespace FauPortalen.Register

open FauPortalen.Foundations

variable {Id : Type} [LinearOrder Id] {ids : NewIds Id} {table : List (MunicipalitySnapshot Id)}

-----------------------------------------------------------------------------------------
-- Operations on one row

@[simp]
theorem MunicipalityOp.change_source (op : MunicipalityOp Id) (m : MunicipalitySnapshot Id)
    : (op.change m).source = m.source := by
  cases op <;> rfl

theorem MunicipalityOp.onRow_source (op : MunicipalityOp Id) (m : MunicipalitySnapshot Id)
    : (op.onRow m).source = m.source := by
  unfold MunicipalityOp.onRow
  split
  · exact MunicipalityOp.change_source _ _
  · rfl

theorem mem_grownMunicipalities_onRow (op : MunicipalityOp Id) {row : MunicipalitySnapshot Id}
    (member : row ∈ table)
    : op.onRow row ∈ grownMunicipalities ids table op :=
  List.mem_append_left _ (List.mem_map_of_mem member)

/-- Operations that keep numbers fit one after the other when they all target one open row
that is not kept by hand, and give it slugs of its number.
-/
theorem opsFit_of_keepsNumber {ops : List (MunicipalityOp Id)} {own : MunicipalitySnapshot Id}
    (member : own ∈ table) (active : own.status = .active) (sourced : own.source ≠ .manual)
    (keeps : ∀ op ∈ ops, op.KeepsNumber ∧ op.target? = some own.id
      ∧ ∀ slug, op.newSlug? = some slug → own.number.toList = slug.toList.take 4)
    : OpsFit ids table ops := by
  induction ops generalizing table own with
  | nil => trivial
  | cons op rest ih =>
      obtain ⟨number, target, given⟩ := keeps op List.mem_cons_self
      have changed : op.onRow own = op.change own := MunicipalityOp.onRow_of_eq target
      have same : (op.change own).number = own.number := changed ▸ number.onRow own
      refine ⟨.change own member target active sourced (.inl same) fun keyed => ?_, ?_⟩
      · rw [MunicipalitySnapshot.IsKeyed, same, MunicipalityOp.change_slug target]
        cases new : op.newSlug? with
        | none => exact keyed
        | some slug => exact given slug new
      · refine ih (mem_grownMunicipalities_onRow op member) ?_ ?_ ?_
        · rw [MunicipalityOp.onRow_status]
          exact active
        · rw [MunicipalityOp.onRow_source]
          exact sourced
        · intro op' inside
          rw [MunicipalityOp.onRow_id, number.onRow]
          exact keeps op' (List.mem_cons_of_mem _ inside)

-----------------------------------------------------------------------------------------
-- The group loop

variable [UnicodeData] {snapshot : RegisterSnapshot Id} {groups : GroupState Id}

/-- The group loop's renumbers fit. -/
theorem planCodeChanges_fit (keys : RowKeys snapshot)
    {records : List MunicipalityRecord} {changes : List CodeChange}
    (run : planCodeChanges snapshot records changes = some groups)
    : OpsFit ids snapshot.municipalities groups.ops := by
  have all : groups.Tracked ids snapshot ∧ OpsFit ids snapshot.municipalities groups.ops := by
    refine foldlM_preserves (P := fun state : GroupState Id =>
      state.Tracked ids snapshot ∧ OpsFit ids snapshot.municipalities state.ops) ?_ run
      ⟨initialGroupState_tracked keys, trivial⟩
    rintro before ⟨old, changes⟩ _ after stepped ⟨tracked, fit⟩
    refine ⟨tracked.step stepped, ?_⟩
    rcases stepGroup_cases stepped with ⟨_, rfl⟩
      | ⟨id, target, newSlug, renamed, first, w, decided, _, working, rfl⟩
      | ⟨_, _, _, _, rfl⟩
    · exact fit
    · obtain ⟨w', renumbers⟩ := decideGroup_renumber decided
      cases working.symm.trans renumbers.working
      obtain ⟨active, same⟩ := tracked.coherent.row id w working
      simp only [activeMunicipalities, List.mem_filter, decide_eq_true_eq] at active
      refine opsFit_append.mpr ⟨fit, ?_, trivial⟩
      refine .change w.applied (tracked.applied id w working) (congrArg some same.symm)
        active.2 renumbers.sourced (.inr ?_) fun _ => municipalitySlug_eq_ok renumbers.slug
      intro row inside open_row at_target
      obtain ⟨r, found, _⟩ := tracked.tracks.found row inside open_row
      rw [show row.number = target from at_target, renumbers.free] at found
      cases found
    · exact fit
  exact all.2

-----------------------------------------------------------------------------------------
-- The record loop

/-- The numbers of open rows are known, and the working rows stand in the table under their
numbers.
-/
structure RecordState.Stands (groups : GroupState Id) (table : List (MunicipalitySnapshot Id))
    (byNumber : Lookup String (Ref Id)) : Prop where
  known : ∀ row ∈ table, row.status = .active → (byNumber row.number).isSome
  working : ∀ id w, groups.working id = some w →
    ∃ row ∈ table, row.id = id ∧ row.status = .active ∧ row.number = w.number
      ∧ row.source = w.row.source

variable {byNumber : Lookup String (Ref Id)}

theorem RecordState.Stands.keep (h : RecordState.Stands groups table byNumber)
    {op : MunicipalityOp Id} (keeps : op.KeepsNumber)
    : RecordState.Stands groups (grownMunicipalities ids table op) byNumber := by
  refine ⟨?_, ?_⟩
  · rw [grownMunicipalities_of_rows_nil keeps.rows]
    intro row member active
    obtain ⟨before, inside, rfl⟩ := List.mem_map.mp member
    rw [MunicipalityOp.onRow_status] at active
    rw [keeps.onRow]
    exact h.known before inside active
  · intro id w found
    obtain ⟨row, inside, same, active, number, source⟩ := h.working id w found
    refine ⟨op.onRow row, mem_grownMunicipalities_onRow op inside, ?_, ?_, ?_, ?_⟩
    · rw [MunicipalityOp.onRow_id]
      exact same
    · rw [MunicipalityOp.onRow_status]
      exact active
    · rw [keeps.onRow]
      exact number
    · rw [MunicipalityOp.onRow_source]
      exact source

theorem RecordState.Stands.keepAll {ops : List (MunicipalityOp Id)}
    (h : RecordState.Stands groups table byNumber) (keeps : ∀ op ∈ ops, op.KeepsNumber)
    : RecordState.Stands groups (tableAfterMunicipalityOps ids ops table) byNumber := by
  induction ops generalizing table with
  | nil => exact h
  | cons op later ih =>
      exact ih (h.keep (keeps op List.mem_cons_self))
        fun op' inside => keeps op' (List.mem_cons_of_mem _ inside)

theorem RecordState.Stands.create (h : RecordState.Stands groups table byNumber)
    {op : MunicipalityOp Id} {number : String} {r : Ref Id} (target : op.target? = none)
    (numbered : ∀ row ∈ op.rows ids, row.number = number)
    : RecordState.Stands groups (grownMunicipalities ids table op)
        (byNumber.insert number r) := by
  refine ⟨?_, ?_⟩
  · intro row member active
    by_cases same : row.number = number
    · rw [same]
      exact congrArg Option.isSome (Lookup.insert_self _ _ _)
    · rw [Lookup.insert_of_ne _ _ same]
      rcases (mem_grownMunicipalities_of_create target).mp member with inside | new
      · exact h.known row inside active
      · exact absurd (numbered row new) same
  · intro id w found
    obtain ⟨row, inside, rest⟩ := h.working id w found
    exact ⟨row, (mem_grownMunicipalities_of_create target).mpr (.inl inside), rest⟩

/-- What the record loop keeps: its operations fit, and its rows stand. -/
structure RecordState.Fits (state : RecordState Id) (ids : NewIds Id)
    (snapshot : RegisterSnapshot Id) (groups : GroupState Id) : Prop where
  named : state.Named snapshot groups
  fit : OpsFit ids snapshot.municipalities state.ops
  stands : RecordState.Stands groups
    (tableAfterMunicipalityOps ids state.ops snapshot.municipalities) state.byNumber

/-- The slug a comparison gives is one of the record's number. -/
theorem compareRecord_newSlug {w : Working Id} {id : Id} {r : MunicipalityRecord}
    {op : MunicipalityOp Id} (member : op ∈ (compareRecord w id r).1) {slug : String}
    (given : op.newSlug? = some slug)
    : w.row.source ≠ .manual ∧ r.norwegianName ≠ w.name
        ∧ municipalitySlug r.number r.norwegianName = .ok slug := by
  unfold compareRecord at member
  split at member
  · cases member
  next sourced =>
  simp only [List.mem_append] at member
  rcases member with renamed | updated
  · split at renamed
    · next differ =>
        split at renamed
        · next newSlug sluggable =>
            cases List.mem_singleton.mp renamed
            refine ⟨sourced, differ, sluggable.trans (congrArg _ ?_)⟩
            simp only [MunicipalityOp.newSlug?] at given
            split at given
            · exact Option.some.inj given
            · cases given
        · cases renamed
    · cases renamed
  · split at updated
    · cases List.mem_singleton.mp updated
      cases given
    · cases updated

variable {state after : RecordState Id} {kind : RunKind} {r : MunicipalityRecord}

/-- One record's operations fit: the comparison's for the row that stands under its number,
the creation for a number that nobody has.
-/
theorem RecordState.Fits.step (h : state.Fits ids snapshot groups)
    (coherent : groups.Coherent snapshot)
    (stepped : stepRecord kind groups.working groups.blockedNumbers state r = some after)
    : after.Fits ids snapshot groups := by
  have named := h.named.step coherent stepped
  rcases stepRecord_cases stepped with ⟨_, rfl⟩
    | ⟨_, ⟨id, w, found, working, rfl⟩ | ⟨_, _, rfl⟩ | ⟨slug, absent, _, sluggable, rfl⟩
      | ⟨_, _, _, rfl⟩⟩
  · exact h
  · have keeps : ∀ op ∈ (compareRecord w id r).1, op.KeepsNumber :=
      fun op member => compareRecord_keepsNumber member
    have stands : RecordState.Stands groups (tableAfterMunicipalityOps ids
        (compareRecord w id r).1 (tableAfterMunicipalityOps ids state.ops
          snapshot.municipalities)) state.byNumber := h.stands.keepAll keeps
    refine ⟨named, opsFit_append.mpr ⟨h.fit, ?_⟩, ?_⟩
    · have held : groups.byNumber r.number = some (.existing id) := by
        rcases h.named.numbers _ _ found with before | ⟨_, n, _, new⟩
        · exact before
        · cases new
      have number : w.number = r.number := by
        obtain ⟨id', w', same, working', at_number⟩ := coherent.holder _ _ held
        cases same
        cases working.symm.trans working'
        exact at_number
      obtain ⟨own, inside, rfl, active, at_number, source⟩ := h.stands.working id w working
      by_cases sourced : w.row.source = .manual
      · rw [compareRecord_manual sourced]
        trivial
      · refine opsFit_of_keepsNumber inside active (source ▸ sourced) fun op member => ?_
        refine ⟨keeps op member, compareRecord_target member, fun slug given => ?_⟩
        rw [at_number, number]
        exact municipalitySlug_eq_ok (compareRecord_newSlug member given).2.2
    · show RecordState.Stands groups (tableAfterMunicipalityOps ids _ _) _
      rw [tableAfterMunicipalityOps_append]
      exact stands
  · exact h
  · let op : MunicipalityOp Id := .create state.nextNew r.number r.norwegianName
      (some r.officialName) r.countyNumber r.countyName slug r.names .kartverket
    have rows : ∀ row ∈ op.rows ids, row.number = r.number ∧ row.slug = slug := by
      intro row member
      simp only [op, MunicipalityOp.rows, List.mem_map] at member
      obtain ⟨_, _, rfl⟩ := member
      exact ⟨rfl, rfl⟩
    refine ⟨named, opsFit_append.mpr ⟨h.fit, .create rfl ?_ ?_, trivial⟩, ?_⟩
    · intro new member row inside active same
      have known := h.stands.known row inside active
      rw [same, (rows new member).1, absent] at known
      cases known
    · intro new member
      rw [MunicipalitySnapshot.IsKeyed, (rows new member).1, (rows new member).2]
      exact municipalitySlug_eq_ok sluggable
    · show RecordState.Stands groups
        (tableAfterMunicipalityOps ids (state.ops ++ [op]) snapshot.municipalities) _
      rw [tableAfterMunicipalityOps_snoc]
      exact h.stands.create rfl fun row member => (rows row member).1
  · exact ⟨named, h.fit, h.stands⟩

/-- The working rows stand as the group loop leaves them. -/
theorem GroupState.Tracked.stands (h : groups.Tracked ids snapshot)
    : RecordState.Stands groups
        (tableAfterMunicipalityOps ids groups.ops snapshot.municipalities) groups.byNumber := by
  refine ⟨?_, ?_⟩
  · intro row member active
    obtain ⟨r, found, _⟩ := h.tracks.found row member active
    rw [found]
    rfl
  · intro id w working
    obtain ⟨active, same⟩ := h.coherent.row id w working
    simp only [activeMunicipalities, List.mem_filter, decide_eq_true_eq] at active
    exact ⟨w.applied, h.applied id w working, same, active.2, rfl, rfl⟩

-----------------------------------------------------------------------------------------
-- Step 1

/-- Every operation of step 1 fits. -/
theorem planMunicipalities_fit [OsloZone] (keys : RowKeys snapshot)
    {inputs : SyncInputs} {plan : MunicipalityPlan Id}
    (planned : planMunicipalities snapshot inputs = some plan)
    : OpsFit ids snapshot.municipalities plan.ops := by
  obtain ⟨groups, records, grouped, recorded, _, _, _, parts⟩ := planMunicipalities_parts planned
  have tracked : groups.Tracked ids snapshot := planCodeChanges_tracked keys grouped
  have fits : records.Fits ids snapshot groups := by
    refine foldlM_preserves (P := fun state : RecordState Id => state.Fits ids snapshot groups)
      (fun _ _ _ _ stepped h => h.step tracked.coherent stepped) recorded ⟨?_, ?_, ?_⟩
    · exact ⟨planCodeChanges_named keys grouped, fun _ _ found => .inl found,
        fun _ _ found => found⟩
    · exact planCodeChanges_fit keys grouped
    · exact tracked.stands
  rcases parts with ⟨ops, _, _⟩ | ⟨vacant, ops, _, _⟩
  · rw [ops]
    exact fits.fit
  · rw [ops]
    have rows : ∀ row ∈ (createSvalbard records.nextNew).rows ids,
        row.number = svalbardNumber ∧ row.slug = "2100-svalbard" := by
      intro row member
      simp only [createSvalbard, MunicipalityOp.rows, List.mem_map] at member
      obtain ⟨_, _, rfl⟩ := member
      exact ⟨rfl, rfl⟩
    refine opsFit_append.mpr ⟨fits.fit, .create rfl ?_ ?_, trivial⟩
    · intro new member row inside active same
      have known := fits.stands.known row inside active
      rw [same, (rows new member).1, vacant] at known
      cases known
    · intro new member
      rw [MunicipalitySnapshot.IsKeyed, (rows new member).1, (rows new member).2]
      decide

end FauPortalen.Register

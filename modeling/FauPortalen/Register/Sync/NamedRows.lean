import FauPortalen.Register.Sync.MunicipalitySettlement

/-! An operation of step 1 names the slug and the number that its municipality has when the
operations before it are applied, as long as Kartverket lists every number once.
-/

set_option linter.unusedSectionVars false

namespace FauPortalen.Register

open FauPortalen.Foundations

variable {Id : Type} [LinearOrder Id] {ids : NewIds Id}
  {table : List (MunicipalitySnapshot Id)} {snapshot : RegisterSnapshot Id}

/-- The slug that the operation's target has to have. -/
def MunicipalityOp.oldSlug? : MunicipalityOp Id → Option String
  | .renumber _ _ _ _ _ oldSlug _ => some oldSlug
  | .rename _ _ oldSlug _ => some oldSlug
  | .updateDetails .. | .create .. => none

/-- The number that the operation's target has to have. -/
def MunicipalityOp.oldNumber? : MunicipalityOp Id → Option String
  | .renumber _ number .. => some number
  | .rename .. | .updateDetails .. | .create .. => none

/-- The row has the slug and the number that the operation names. -/
structure MunicipalityOp.Names (op : MunicipalityOp Id) (row : MunicipalitySnapshot Id)
    : Prop where
  slug : ∀ slug, op.oldSlug? = some slug → row.slug = slug
  number : ∀ number, op.oldNumber? = some number → row.number = number

/-- The operation names its target. -/
def MunicipalityOp.NamesRow (op : MunicipalityOp Id) (table : List (MunicipalitySnapshot Id))
    : Prop :=
  ∀ row ∈ table, op.target? = some row.id → op.Names row

/-- Every operation names its row in the table that the ones before it leave. -/
def OpsNameRows (ids : NewIds Id)
    : List (MunicipalitySnapshot Id) → List (MunicipalityOp Id) → Prop
  | _, [] => True
  | table, op :: rest =>
      op.NamesRow table ∧ OpsNameRows ids (grownMunicipalities ids table op) rest

theorem opsNameRows_append {ops more : List (MunicipalityOp Id)}
    : OpsNameRows ids table (ops ++ more)
      ↔ OpsNameRows ids table ops
        ∧ OpsNameRows ids (tableAfterMunicipalityOps ids ops table) more := by
  induction ops generalizing table with
  | nil => simp [OpsNameRows, tableAfterMunicipalityOps]
  | cons op rest ih =>
      simp only [List.cons_append, OpsNameRows, ih, and_assoc]
      rfl

/-- An operation names its row when it names the one with its target's id. -/
theorem MunicipalityOp.NamesRow.of_row {op : MunicipalityOp Id} {own : MunicipalitySnapshot Id}
    (unique : (table.map (·.id)).Nodup) (member : own ∈ table) (target : op.target? = some own.id)
    (named : op.Names own)
    : op.NamesRow table := by
  intro row inside here
  have one : row = own := List.inj_on_of_nodup_map unique inside member
    (Option.some.inj (here.symm.trans target))
  exact one ▸ named

/-- New details and creations name nothing that was there. -/
theorem opsNameRows_of_details {ops : List (MunicipalityOp Id)}
    (none_given : ∀ op ∈ ops, op.oldSlug? = none ∧ op.oldNumber? = none)
    : OpsNameRows ids table ops := by
  induction ops generalizing table with
  | nil => trivial
  | cons op rest ih =>
      obtain ⟨slugless, numberless⟩ := none_given op List.mem_cons_self
      refine ⟨fun _ _ _ => ⟨fun slug given => ?_, fun number given => ?_⟩, ih fun other inside =>
        none_given other (List.mem_cons_of_mem _ inside)⟩
      · rw [slugless] at given
        cases given
      · rw [numberless] at given
        cases given

-----------------------------------------------------------------------------------------
-- The loops

variable [UnicodeData] {groups : GroupState Id} {kind : RunKind} {r : MunicipalityRecord}

/-- The renumbers name the rows that the group loop tracks. -/
theorem planCodeChanges_nameRows (keys : RowKeys snapshot)
    {records : List MunicipalityRecord} {changes : List CodeChange}
    (run : planCodeChanges snapshot records changes = some groups)
    : OpsNameRows ids snapshot.municipalities groups.ops := by
  have all : groups.Tracked ids snapshot
      ∧ OpsNameRows ids snapshot.municipalities groups.ops := by
    refine foldlM_preserves (P := fun state : GroupState Id =>
      state.Tracked ids snapshot ∧ OpsNameRows ids snapshot.municipalities state.ops) ?_ run
      ⟨initialGroupState_tracked keys, trivial⟩
    rintro before ⟨old, changes⟩ _ after stepped ⟨tracked, named⟩
    refine ⟨tracked.step stepped, ?_⟩
    rcases stepGroup_cases stepped with ⟨_, rfl⟩
      | ⟨id, target, newSlug, renamed, first, w, decided, _, working, rfl⟩
      | ⟨_, _, _, _, rfl⟩
    · exact named
    · obtain ⟨_, same⟩ := tracked.coherent.row id w working
      obtain ⟨_, renumbers⟩ := decideGroup_renumber decided
      obtain ⟨id', w', here, working', at_old⟩ := tracked.coherent.holder _ _ renumbers.holder
      cases here
      cases working.symm.trans working'
      refine opsNameRows_append.mpr ⟨named, ?_, trivial⟩
      refine .of_row tracked.tracks.unique (tracked.applied id w working)
        (congrArg some same.symm) ⟨fun slug given => ?_, fun number given => ?_⟩
      · cases given
        rfl
      · cases given
        exact at_old
    · exact named
  exact all.2

/-- A comparison names its working row. -/
theorem compareRecord_nameRows {w : Working Id} (unique : (table.map (·.id)).Nodup)
    (present : w.applied ∈ table)
    : OpsNameRows ids table (compareRecord w w.row.id r).1 := by
  unfold compareRecord
  split
  · trivial
  · refine opsNameRows_append.mpr ⟨?_, opsNameRows_of_details fun op member => ?_⟩
    · split
      · split
        · refine ⟨.of_row unique present rfl ⟨fun slug given => ?_, fun number given => ?_⟩,
            trivial⟩
          · cases given
            rfl
          · cases given
        · trivial
      · trivial
    · split at member
      · cases List.mem_singleton.mp member
        exact ⟨rfl, rfl⟩
      · cases member

/-- The record loop's operations name their rows, by induction on the records to come. -/
theorem RecordState.Settles.nameRows {state final : RecordState Id}
    {done rest : List MunicipalityRecord}
    (h : state.Settles ids snapshot groups kind done) (coherent : groups.Coherent snapshot)
    (apart : ((done ++ rest).map MunicipalityRecord.number).Nodup)
    (covers : ∀ n < final.nextNew, (ids.municipality n).isSome)
    (injective : ∀ m n id, ids.municipality m = some id → ids.municipality n = some id → m = n)
    (run : rest.foldlM (stepRecord kind groups.working groups.blockedNumbers) state = some final)
    (named : OpsNameRows ids snapshot.municipalities state.ops)
    : OpsNameRows ids snapshot.municipalities final.ops := by
  induction rest generalizing state done with
  | nil =>
      cases run
      exact named
  | cons r rest ih =>
      obtain ⟨middle, stepped, later⟩ := foldlM_cons_eq_some.mp run
      have grows : middle.nextNew ≤ final.nextNew :=
        foldlM_preserves (P := fun s => middle.nextNew ≤ s.nextNew)
          (fun _ _ _ _ stepped bound => bound.trans (stepRecord_nextNew stepped)) later le_rfl
      have settles := h.step coherent apart (fun n bound => covers n (bound.trans_le grows))
        injective stepped
      refine ih settles (by rwa [List.append_assoc, List.singleton_append]) later ?_
      rcases stepRecord_cases stepped with ⟨_, rfl⟩
        | ⟨_, ⟨id, w, found, working, rfl⟩ | ⟨_, _, rfl⟩ | ⟨_, _, _, _, rfl⟩ | ⟨_, _, _, rfl⟩⟩
      · exact named
      · -- the record's number is new, so its municipality is as the group loop left it
        have held : groups.byNumber r.number = some (.existing id) := by
          rcases h.named.numbers _ _ found with before | ⟨_, n, _, new⟩
          · exact before
          · cases new
        have number : w.number = r.number := by
          obtain ⟨id', w', same, working', at_number⟩ := coherent.holder _ _ held
          cases same
          cases working.symm.trans working'
          exact at_number
        obtain ⟨_, rfl⟩ := coherent.row id w working
        obtain ⟨_, _, apart_both⟩ := List.nodup_append.mp (List.map_append ▸ apart)
        have unseen : w.number ∉ done.map MunicipalityRecord.number := fun member =>
          apart_both _ member _ (List.mem_map_of_mem List.mem_cons_self) number
        exact opsNameRows_append.mpr ⟨named,
          compareRecord_nameRows h.tracks.unique (h.untouched _ w working unseen)⟩
      · exact named
      · exact opsNameRows_append.mpr ⟨named, opsNameRows_of_details fun op member => by
          cases List.mem_singleton.mp member
          exact ⟨rfl, rfl⟩⟩
      · exact named

/-- Renumbers alone leave the ids of the table. -/
theorem GroupState.ids_kept (named : OpsNamed snapshot groups.ops 0)
    : (tableAfterMunicipalityOps ids groups.ops snapshot.municipalities).map (·.id)
      = snapshot.municipalities.map (·.id) := by
  have no_rows : ∀ op ∈ groups.ops, op.rows ids = [] := by
    intro op inside
    cases op with
    | create new =>
        have made : new ∈ groups.ops.filterMap createdMunicipality? :=
          List.mem_filterMap.mpr ⟨_, inside, rfl⟩
        rw [named.creates] at made
        cases made
    | _ => rfl
  rw [tableAfterMunicipalityOps, foldl_growTable fun op inside row created => ?_,
    List.flatMap_eq_nil_iff.mpr no_rows, List.append_nil, List.map_map]
  · exact List.map_congr_left fun row _ =>
      changeAll_keeps MunicipalitySnapshot.id (fun op _ row => MunicipalityOp.onRow_id op row) row
  · rw [no_rows op inside] at created
    cases created

-----------------------------------------------------------------------------------------
-- Step 1

/-- Every operation of step 1 names its municipality's row. -/
theorem planMunicipalities_nameRows [OsloZone] (keys : RowKeys snapshot)
    {inputs : SyncInputs} {plan : MunicipalityPlan Id}
    (planned : planMunicipalities snapshot inputs = some plan)
    (distinct : (inputs.municipalities.map MunicipalityRecord.number).Nodup)
    (fresh : ids.Fresh snapshot)
    (covers : ∀ n ∈ plan.ops.filterMap createdMunicipality?, (ids.municipality n).isSome)
    : OpsNameRows ids snapshot.municipalities plan.ops := by
  obtain ⟨groups, records, grouped, recorded, _, _, _, parts⟩ := planMunicipalities_parts planned
  have tracked : groups.Tracked ids snapshot := planCodeChanges_tracked keys grouped
  have groupOps := planCodeChanges_named keys grouped
  obtain ⟨records', recorded', named⟩ := planRecords_named inputs tracked.coherent groupOps
  cases recorded.symm.trans recorded'
  have covered : ∀ n < records.nextNew, (ids.municipality n).isSome := by
    intro n bound
    refine covers n ?_
    have inside : n ∈ records.ops.filterMap createdMunicipality? := by
      rw [named.ops.creates]
      exact List.mem_range.mpr bound
    rcases parts with ⟨ops, _⟩ | ⟨_, ops, _⟩
    · rwa [ops]
    · rw [ops, List.filterMap_append]
      exact List.mem_append_left _ inside
  have start : RecordState.Settles ⟨groups.ops, groups.reviews, groups.byNumber, 0⟩ ids
      snapshot groups inputs.kind [] := by
    refine ⟨⟨groupOps, fun _ _ found => .inl found, fun _ _ found => found⟩, tracked.tracks, ?_,
      ?_, fun id w working _ => tracked.applied id w working, by simp⟩
    · intro number n found
      obtain ⟨_, _, impossible, _⟩ := tracked.coherent.holder _ _ found
      cases impossible
    · intro n _ id found
      rw [GroupState.ids_kept groupOps]
      exact fresh.municipality n id found
  have sorted : ((sortOn MunicipalityRecord.number inputs.municipalities).map
      MunicipalityRecord.number).Nodup :=
    ((List.perm_insertionSort _ _).map _).nodup_iff.mpr distinct
  have rows := start.nameRows tracked.coherent sorted covered fresh.municipalityInjective
    recorded (planCodeChanges_nameRows keys grouped)
  rcases parts with ⟨ops, _⟩ | ⟨_, ops, _⟩
  · rwa [ops]
  · rw [ops]
    refine opsNameRows_append.mpr ⟨rows, opsNameRows_of_details fun op member => ?_⟩
    cases List.mem_singleton.mp member
    exact ⟨rfl, rfl⟩

end FauPortalen.Register

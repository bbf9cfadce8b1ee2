import FauPortalen.Register.Sync.AppliedRegister

/-! The planner's numbers track the register its operations leave: after every step of the
two loops, a number resolves to the row that has it once the operations are applied.
-/

set_option linter.unusedSectionVars false

namespace FauPortalen.Register

open FauPortalen.Foundations

variable {Id : Type} [LinearOrder Id] {ids : NewIds Id}
  {table : List (MunicipalitySnapshot Id)} {byNumber : Lookup String (Ref Id)}

-----------------------------------------------------------------------------------------
-- Numbers and rows

/-- The active rows of the table are exactly those the numbers resolve to. -/
structure Tracks (ids : NewIds Id) (table : List (MunicipalitySnapshot Id))
    (byNumber : Lookup String (Ref Id)) : Prop where
  unique : (table.map (·.id)).Nodup
  found : ∀ row ∈ table, row.status = .active →
    ∃ r, byNumber row.number = some r ∧ ids.municipalityId r = some row.id
  holder : ∀ number r, byNumber number = some r →
    ∃ row ∈ table, row.status = .active ∧ row.number = number
      ∧ ids.municipalityId r = some row.id

/-- Active rows with one number are one row. -/
theorem Tracks.row_of_number (h : Tracks ids table byNumber)
    {left right : MunicipalitySnapshot Id} (hl : left ∈ table) (hr : right ∈ table)
    (activeLeft : left.status = .active) (activeRight : right.status = .active)
    (same : left.number = right.number)
    : left = right := by
  obtain ⟨r, found, named⟩ := h.found left hl activeLeft
  obtain ⟨r', found', named'⟩ := h.found right hr activeRight
  rw [same, found'] at found
  cases found
  exact List.inj_on_of_nodup_map h.unique hl hr (Option.some.inj (named.symm.trans named'))

/-- The table after one more operation. -/
def grownMunicipalities (ids : NewIds Id) (table : List (MunicipalitySnapshot Id))
    (op : MunicipalityOp Id) : List (MunicipalitySnapshot Id) :=
  growTable MunicipalityOp.onRow (MunicipalityOp.rows ids) table op

/-- The operation has a target, whose status and number it keeps. -/
def MunicipalityOp.KeepsNumber : MunicipalityOp Id → Prop
  | .rename .. | .updateDetails .. => True
  | .renumber .. | .create .. => False

theorem MunicipalityOp.KeepsNumber.rows {op : MunicipalityOp Id} (h : op.KeepsNumber)
    : op.rows ids = [] := by
  cases op with
  | rename | updateDetails => rfl
  | renumber | create => exact h.elim

theorem MunicipalityOp.KeepsNumber.onRow {op : MunicipalityOp Id} (h : op.KeepsNumber)
    (row : MunicipalitySnapshot Id)
    : (op.onRow row).number = row.number := by
  unfold MunicipalityOp.onRow
  split
  · cases op with
    | rename | updateDetails => rfl
    | renumber | create => exact h.elim
  · rfl

theorem grownMunicipalities_of_rows_nil {op : MunicipalityOp Id} (h : op.rows ids = [])
    : grownMunicipalities ids table op = table.map op.onRow := by
  simp [grownMunicipalities, growTable, h]

theorem map_onRow_ids (op : MunicipalityOp Id) (table : List (MunicipalitySnapshot Id))
    : (table.map op.onRow).map (·.id) = table.map (·.id) := by
  simp [Function.comp_def]

/-- A rename or new details keep the numbers tracked. -/
theorem Tracks.keep (h : Tracks ids table byNumber) {op : MunicipalityOp Id}
    (keeps : op.KeepsNumber)
    : Tracks ids (grownMunicipalities ids table op) byNumber := by
  rw [grownMunicipalities_of_rows_nil keeps.rows]
  refine ⟨by rw [map_onRow_ids]; exact h.unique, ?_, ?_⟩
  · intro row member active
    obtain ⟨before, inside, rfl⟩ := List.mem_map.mp member
    rw [MunicipalityOp.onRow_status] at active
    rw [keeps.onRow, MunicipalityOp.onRow_id]
    exact h.found before inside active
  · intro number r resolved
    obtain ⟨row, inside, active, at_number, named⟩ := h.holder number r resolved
    refine ⟨op.onRow row, List.mem_map_of_mem inside, ?_, ?_, ?_⟩
    · rw [MunicipalityOp.onRow_status]
      exact active
    · rw [keeps.onRow]
      exact at_number
    · rw [MunicipalityOp.onRow_id]
      exact named

/-- A renumber moves its municipality from its number to a free one. -/
theorem Tracks.renumber (h : Tracks ids table byNumber) {id : Id} {old target : String}
    {validFrom : Date} {name : Option String} {oldSlug newSlug : String}
    (held : byNumber old = some (.existing id)) (free : byNumber target = none)
    : Tracks ids
        (grownMunicipalities ids table (.renumber id old target validFrom name oldSlug newSlug))
        ((byNumber.erase old).insert target (.existing id)) := by
  let op : MunicipalityOp Id := .renumber id old target validFrom name oldSlug newSlug
  rw [show grownMunicipalities ids table _ = table.map op.onRow from
    grownMunicipalities_of_rows_nil rfl]
  obtain ⟨own, inside, active, at_old, named⟩ := h.holder old _ held
  have own_id : own.id = id := (Option.some.inj named).symm
  have moved (row : MunicipalitySnapshot Id) (same : row.id = id)
      : (op.onRow row).number = target := by
    have targeted : op.target? = some row.id := congrArg some same.symm
    rw [MunicipalityOp.onRow_of_eq targeted]
    rfl
  have stayed (row : MunicipalitySnapshot Id) (differ : row.id ≠ id)
      : op.onRow row = row :=
    MunicipalityOp.onRow_of_ne fun same => differ (Option.some.inj same).symm
  refine ⟨by rw [map_onRow_ids]; exact h.unique, ?_, ?_⟩
  · intro row member isActive
    obtain ⟨before, present, rfl⟩ := List.mem_map.mp member
    rw [MunicipalityOp.onRow_status] at isActive
    by_cases same : before.id = id
    · rw [moved before same, MunicipalityOp.onRow_id, same]
      exact ⟨_, Lookup.insert_self _ _ _, rfl⟩
    · rw [stayed before same]
      obtain ⟨r, found, named'⟩ := h.found before present isActive
      have not_target : before.number ≠ target := by
        intro e
        rw [e, free] at found
        cases found
      have not_old : before.number ≠ old := by
        intro e
        rw [e, held] at found
        cases found
        exact same (Option.some.inj named').symm
      refine ⟨r, ?_, named'⟩
      rw [Lookup.insert_of_ne _ _ not_target, Lookup.erase_of_ne _ not_old]
      exact found
  · intro number r resolved
    by_cases to_target : number = target
    · subst to_target
      cases (Lookup.insert_self _ _ _).symm.trans resolved
      refine ⟨op.onRow own, List.mem_map_of_mem inside, ?_, moved own own_id, ?_⟩
      · rw [MunicipalityOp.onRow_status]
        exact active
      · rw [MunicipalityOp.onRow_id, own_id]
        rfl
    · rw [Lookup.insert_of_ne _ _ to_target] at resolved
      by_cases from_old : number = old
      · subst from_old
        rw [Lookup.erase_self] at resolved
        cases resolved
      · rw [Lookup.erase_of_ne _ from_old] at resolved
        obtain ⟨row, present, isActive, at_number, named'⟩ := h.holder number r resolved
        have differ : row.id ≠ id := by
          intro same
          have one : row = own :=
            List.inj_on_of_nodup_map h.unique present inside (same.trans own_id.symm)
          exact from_old (at_number.symm.trans (one ▸ at_old))
        exact ⟨row, List.mem_map.mpr ⟨row, present, stayed row differ⟩, isActive, at_number,
          named'⟩

/-- A creation adds its row under a free number. -/
theorem Tracks.create (h : Tracks ids table byNumber) {op : MunicipalityOp Id}
    {row : MunicipalitySnapshot Id} {n : Nat} (target : op.target? = none)
    (rows : op.rows ids = [row]) (named : ids.municipality n = some row.id)
    (active : row.status = .active) (new : row.id ∉ table.map (·.id))
    (free : byNumber row.number = none)
    : grownMunicipalities ids table op = table ++ [row]
      ∧ Tracks ids (table ++ [row]) (byNumber.insert row.number (.new n)) := by
  have kept : table.map op.onRow = table := by
    refine (List.map_congr_left fun other _ => ?_).trans table.map_id
    exact MunicipalityOp.onRow_of_ne (by simp [target])
  refine ⟨by simp [grownMunicipalities, growTable, kept, rows], ?_, ?_, ?_⟩
  · rw [List.map_append, List.nodup_append]
    refine ⟨h.unique, List.nodup_singleton _, fun id old id' last same => ?_⟩
    rw [same, List.mem_singleton.mp last] at old
    exact new old
  · intro other member isActive
    rcases List.mem_append.mp member with old | last
    · obtain ⟨r, found, named'⟩ := h.found other old isActive
      have differ : other.number ≠ row.number := by
        intro e
        rw [e, free] at found
        cases found
      exact ⟨r, (Lookup.insert_of_ne _ _ differ).trans found, named'⟩
    · cases List.mem_singleton.mp last
      exact ⟨_, Lookup.insert_self _ _ _, named⟩
  · intro number r resolved
    by_cases same : number = row.number
    · subst same
      cases (Lookup.insert_self _ _ _).symm.trans resolved
      exact ⟨row, List.mem_append_right _ (List.mem_singleton.mpr rfl), active, rfl, named⟩
    · rw [Lookup.insert_of_ne _ _ same] at resolved
      obtain ⟨other, inside, rest⟩ := h.holder number r resolved
      exact ⟨other, List.mem_append_left _ inside, rest⟩

-----------------------------------------------------------------------------------------
-- The group loop

variable [UnicodeData] {snapshot : RegisterSnapshot Id}

/-- The municipality's row as the group loop leaves it. -/
def Working.applied (w : Working Id) : MunicipalitySnapshot Id :=
  { w.row with number := w.number, name := w.name, slug := w.slug }

/-- The group loop's numbers and working rows are those of the applied table. -/
structure GroupState.Tracked (state : GroupState Id) (ids : NewIds Id)
    (snapshot : RegisterSnapshot Id) : Prop where
  coherent : state.Coherent snapshot
  tracks : Tracks ids (tableAfterMunicipalityOps ids state.ops snapshot.municipalities)
    state.byNumber
  applied : ∀ id w, state.working id = some w →
    w.applied ∈ tableAfterMunicipalityOps ids state.ops snapshot.municipalities

theorem tableAfterMunicipalityOps_snoc (ops : List (MunicipalityOp Id))
    (op : MunicipalityOp Id) (table : List (MunicipalitySnapshot Id))
    : tableAfterMunicipalityOps ids (ops ++ [op]) table
      = grownMunicipalities ids (tableAfterMunicipalityOps ids ops table) op := by
  simp [tableAfterMunicipalityOps, grownMunicipalities]

theorem initialGroupState_tracked (keys : RowKeys snapshot)
    : (initialGroupState snapshot).Tracked ids snapshot := by
  have coherent := initialGroupState_coherent keys
  have active_iff (row : MunicipalitySnapshot Id)
      : row ∈ activeMunicipalities snapshot
        ↔ row ∈ snapshot.municipalities ∧ row.status = .active := by
    simp [activeMunicipalities]
  have own (id : Id) (w : Working Id) (found : (initialGroupState snapshot).working id = some w)
      : w.applied = w.row := by
    obtain ⟨row, _, same⟩ := List.mem_map.mp (Lookup.mem_of_ofPairs found)
    cases same
    rfl
  refine ⟨coherent, ⟨keys.municipalityIds, ?_, ?_⟩, ?_⟩
  · intro row member active
    obtain ⟨w, found⟩ := Option.isSome_iff_exists.mp
      (coherent.covers row ((active_iff row).mpr ⟨member, active⟩))
    obtain ⟨inside, same⟩ := coherent.row _ _ found
    have one : w.row = row :=
      List.inj_on_of_nodup_map keys.municipalityIds (List.mem_of_mem_filter inside) member same
    refine ⟨.existing row.id, ?_, rfl⟩
    have number := coherent.number _ _ found
    rwa [show w.number = w.row.number from congrArg MunicipalitySnapshot.number (own _ _ found),
      one] at number
  · intro number r resolved
    obtain ⟨id, w, rfl, found, at_number⟩ := coherent.holder number r resolved
    obtain ⟨inside, same⟩ := coherent.row _ _ found
    obtain ⟨member, active⟩ := (active_iff _).mp inside
    refine ⟨w.row, member, active, ?_, congrArg some same.symm⟩
    rw [← own _ _ found]
    exact at_number
  · intro id w found
    rw [own _ _ found]
    exact List.mem_of_mem_filter (coherent.row _ _ found).1

variable {gone : String → Nat} {records : Lookup String MunicipalityRecord}

/-- One group keeps the state tracked. -/
theorem GroupState.Tracked.step {state after : GroupState Id} {old : String}
    {changes : List CodeChange} (h : state.Tracked ids snapshot)
    (stepped : stepGroup gone records state (old, changes) = some after)
    : after.Tracked ids snapshot := by
  have coherent := h.coherent.step stepped
  rcases stepGroup_cases stepped with ⟨_, rfl⟩
    | ⟨id, target, newSlug, renamed, first, w, decided, _, working, rfl⟩ | ⟨_, _, _, _, rfl⟩
  · exact h
  · obtain ⟨w', renumbers⟩ := decideGroup_renumber decided
    rw [renumbers.working] at working
    cases working
    obtain ⟨_, own_id⟩ := h.coherent.row id w renumbers.working
    let op : MunicipalityOp Id :=
      .renumber id old target first.occurredOn renamed w.slug newSlug
    refine ⟨coherent, ?_, ?_⟩
    · show Tracks ids (tableAfterMunicipalityOps ids (state.ops ++ [op]) _) _
      rw [tableAfterMunicipalityOps_snoc]
      exact h.tracks.renumber renumbers.holder renumbers.free
    · intro id' w' found
      show w'.applied ∈ tableAfterMunicipalityOps ids (state.ops ++ [op]) _
      rw [tableAfterMunicipalityOps_snoc, grownMunicipalities_of_rows_nil rfl]
      by_cases same : id' = id
      · subst same
        cases (Lookup.insert_self _ _ _).symm.trans found
        have targeted : op.target? = some w.applied.id := congrArg some own_id.symm
        refine List.mem_map.mpr ⟨w.applied, h.applied _ _ renumbers.working, ?_⟩
        rw [MunicipalityOp.onRow_of_eq targeted]
        rfl
      · have before := (Lookup.insert_of_ne _ _ same).symm.trans found
        refine List.mem_map.mpr ⟨w'.applied, h.applied _ _ before, ?_⟩
        refine MunicipalityOp.onRow_of_ne fun target => same ?_
        exact ((Option.some.inj target).trans (h.coherent.row _ _ before).2).symm
  · exact ⟨coherent, h.tracks, h.applied⟩

/-- The group loop leaves a tracked state. -/
theorem planCodeChanges_tracked (keys : RowKeys snapshot)
    {records : List MunicipalityRecord} {changes : List CodeChange} {groups : GroupState Id}
    (run : planCodeChanges snapshot records changes = some groups)
    : groups.Tracked ids snapshot :=
  foldlM_preserves (P := fun state => state.Tracked ids snapshot)
    (fun _ _ _ _ stepped h => h.step stepped) run (initialGroupState_tracked keys)

end FauPortalen.Register

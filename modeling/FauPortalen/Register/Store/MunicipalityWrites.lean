import FauPortalen.Register.Store.Effects
import FauPortalen.Register.Sync.NamedRows

/-! What each municipality operation writes: the rows it changes and creates show in the snapshot as
the operation describes them, and every open municipality keeps one current number.
-/

set_option linter.unusedSectionVars false

namespace FauPortalen.Register

open FauPortalen.Foundations Transaction Applier

variable {Id : Type} [LinearOrder Id] {s after : RegisterTables Id}

-----------------------------------------------------------------------------------------
-- Names in their order

theorem sortedNames_sortedNames (names : List OfficialName)
    : sortedNames (sortedNames names) = sortedNames names :=
  (pairwise_sortOn _ names).insertionSort_eq

/-- The snapshot's row with its names in order, as the database returns them. -/
def MunicipalitySnapshot.inOrder (m : MunicipalitySnapshot Id) : MunicipalitySnapshot Id :=
  { m with names := sortedNames m.names }

@[simp]
theorem MunicipalitySnapshot.inOrder_id (m : MunicipalitySnapshot Id) : m.inOrder.id = m.id := rfl

@[simp]
theorem MunicipalitySnapshot.inOrder_inOrder (m : MunicipalitySnapshot Id)
    : m.inOrder.inOrder = m.inOrder := by
  simp [inOrder, sortedNames_sortedNames]

/-- An operation does not see the order of names. -/
theorem MunicipalityOp.onRow_inOrder (op : MunicipalityOp Id) (m : MunicipalitySnapshot Id)
    : (op.onRow m.inOrder).inOrder = (op.onRow m).inOrder := by
  unfold MunicipalityOp.onRow
  rw [MunicipalitySnapshot.inOrder_id]
  split
  · cases op <;>
      simp [MunicipalityOp.change, MunicipalitySnapshot.inOrder, sortedNames_sortedNames]
  · exact m.inOrder_inOrder

namespace RegisterTables

/-- A row's part of the snapshot is in order. -/
theorem inOrder_of_municipalitySnapshot {row : MunicipalityRow Id} {m : MunicipalitySnapshot Id}
    (shown : s.municipalitySnapshot row = some m)
    : m.inOrder = m ∧ m.id = row.id ∧ m.slug = row.slug ∧ m.status = row.status
      ∧ s.numberOf row.id = some m.number := by
  obtain ⟨number, held, rfl⟩ := Option.map_eq_some_iff.mp shown
  refine ⟨?_, rfl, rfl, rfl, held⟩
  simp [MunicipalitySnapshot.inOrder, namesOf, sortedNames_sortedNames]

/-- A row that an operation leaves alone, with its numbers and names, shows as it did. -/
theorem municipalitySnapshot_of_other {op : MunicipalityOp Id} {row : MunicipalityRow Id}
    (other : op.target? ≠ some row.id)
    (numbers : after.numbers.filter (·.municipalityId = row.id)
      = s.numbers.filter (·.municipalityId = row.id))
    (names : after.names.filter (·.municipalityId = row.id)
      = s.names.filter (·.municipalityId = row.id))
    : after.municipalitySnapshot row
      = (s.municipalitySnapshot row).map fun m => (op.onRow m).inOrder := by
  have same : after.municipalitySnapshot row = s.municipalitySnapshot row := by
    unfold municipalitySnapshot
    rw [numberOf_congr numbers, namesOf_congr names]
  rw [same]
  cases shown : s.municipalitySnapshot row with
  | none => rfl
  | some m =>
      obtain ⟨ordered, id, _⟩ := inOrder_of_municipalitySnapshot shown
      rw [Option.map_some, MunicipalityOp.onRow_of_ne (id ▸ other), ordered]

end RegisterTables

-----------------------------------------------------------------------------------------
-- What an operation writes

/-- The history rows of the slug the operation gives up. -/
def MunicipalityOp.slugRows (op : MunicipalityOp Id) (s : RegisterTables Id) (now : Timestamp)
    : List (MunicipalitySlugRow Id) :=
  match op.given? with
  | some (old, id) => municipalitySlugRows s id old now
  | none => []

/-- The row has the slug and the number that the operation names. -/
structure MunicipalityOp.Matches (op : MunicipalityOp Id) (s : RegisterTables Id)
    (row : MunicipalityRow Id) : Prop where
  slug : ∀ slug, op.oldSlug? = some slug → row.slug = slug
  number : ∀ number, op.oldNumber? = some number → s.numberOf row.id = some number

/-- The target still has what the operation names. -/
def MunicipalityOp.Current (op : MunicipalityOp Id) (s : RegisterTables Id) : Prop :=
  ∀ row ∈ s.municipalities, op.target? = some row.id → op.Matches s row

/-- How the rows of the municipalities change: the old ones keep their ids, creation and status
and show as the operation leaves them, and the new ones show as it creates them.
-/
structure MunicipalityOp.Shows (op : MunicipalityOp Id) (ids : NewIds Id) (touched : Id)
    (s after : RegisterTables Id) (change : MunicipalityRow Id → MunicipalityRow Id)
    (new : List (MunicipalityRow Id)) : Prop where
  table : after.municipalities = s.municipalities.map change ++ new
  keeps : ∀ row, (change row).id = row.id ∧ (change row).createdAt = row.createdAt
    ∧ (change row).status = row.status
  apart : ∀ row, row.id ≠ touched → change row = row
  added : ∀ row ∈ new, row.id = touched
  changed : op.Current s → ∀ row ∈ s.municipalities, after.municipalitySnapshot (change row)
    = (s.municipalitySnapshot row).map fun m => (op.onRow m).inOrder
  created : new.map after.municipalitySnapshot = (op.rows ids).map fun m => some m.inOrder

structure MunicipalityOp.Writes (op : MunicipalityOp Id) (ids : NewIds Id) (now : Timestamp)
    (touched : Id) (s after : RegisterTables Id) : Prop where
  constraints : after.Constraints
  numbers : s.NumbersStand → after.NumbersStand
  resolves : op.Resolves ids
  present : ∀ id, op.target? = some id → id ∈ s.municipalityIds
  rows : ∃ change new, op.Shows ids touched s after change new
  names : ∀ id, id ≠ touched →
    after.names.filter (·.municipalityId = id) = s.names.filter (·.municipalityId = id)
  slugs : after.municipalitySlugs = s.municipalitySlugs ++ op.slugRows s now
  others : after = { s with
    municipalities := after.municipalities
    names := after.names
    numbers := after.numbers
    municipalitySlugs := after.municipalitySlugs }

-----------------------------------------------------------------------------------------
-- Renumbers

section

variable {id : Id} {fromNumber toNumber : String} {validFrom : Date}

/-- A renumber's new rows are of the renumbered municipality alone. -/
theorem of_renumber {u : Unit}
    (commits : (renumber id fromNumber toNumber validFrom).Commits s u after)
    : after = { s with numbers := after.numbers } ∧ after.Constraints
      ∧ (∀ other, other ≠ id → after.numbers.filter (·.municipalityId = other)
          = s.numbers.filter (·.municipalityId = other))
      ∧ 0 < s.currentCount id
      ∧ (s.currentCount id = 1 → after.currentCount id = 1)
      ∧ (s.numberOf id = some fromNumber → after.numberOf id = some toNumber) := by
  rw [renumber, commits_select_bind, commits_statement_bind, commits_require] at commits
  obtain ⟨holds, one, rfl⟩ := commits
  rw [List.countP_eq_length_filter] at one
  obtain ⟨old, alone⟩ := List.length_eq_one_iff.mp one
  obtain ⟨member, held⟩ := List.mem_filter.mp
    (show old ∈ s.numbers.filter (holdsNumber id fromNumber) from alone ▸ List.mem_singleton_self _)
  have own := held
  simp only [holdsNumber, Bool.and_eq_true, decide_eq_true_eq] at own
  obtain ⟨⟨same, _⟩, current⟩ := own
  have inside : old ∈ s.numbers.filter (·.municipalityId = id) :=
    List.mem_filter.mpr ⟨member, by simpa using same⟩
  let close := fun row : NumberRow Id =>
    if holdsNumber id fromNumber row then
      { row with validUntil := some (closingDay validFrom row) }
    else row
  have keeps (row : NumberRow Id) : (close row).municipalityId = row.municipalityId := by
    simp only [close]
    split <;> rfl
  have filtered (wanted : Id)
      : (s.numbers.map close).filter (·.municipalityId = wanted)
        = (s.numbers.filter (·.municipalityId = wanted)).map close := by
    rw [List.filter_map]
    congr 1
    exact List.filter_congr fun row _ => by simp [keeps]
  let new : NumberRow Id := ⟨id, toNumber, closingDay validFrom old, none⟩
  refine ⟨rfl, holds, ?_, ?_, ?_, ?_⟩
  · intro other differ
    change (s.numbers.map close ++ _).filter _ = _
    rw [List.filter_append, filtered, alone]
    have untouched : (s.numbers.filter (·.municipalityId = other)).map close
        = s.numbers.filter (·.municipalityId = other) := by
      refine (List.map_congr_left fun row there => ?_).trans (List.map_id _)
      have away : row.municipalityId = other := by simpa using (List.mem_filter.mp there).2
      have idle : holdsNumber id fromNumber row = false := by
        simp [holdsNumber, away, differ]
      simp [close, idle]
    rw [untouched]
    simp [Ne.symm differ]
  · exact List.countP_pos_iff.mpr ⟨old, inside, current⟩
  · intro alone_current
    have rows : (s.numbers.map close ++ (s.numbers.filter (holdsNumber id fromNumber)).map
        fun row => (⟨id, toNumber, closingDay validFrom row, none⟩ : NumberRow Id)).filter
          (·.municipalityId = id)
        = (s.numbers.filter (·.municipalityId = id)).map close ++ [new] := by
      rw [List.filter_append, filtered, alone]
      simp [new]
    -- the one current row is closed, and the new one is current
    have closed : ((s.numbers.filter (·.municipalityId = id)).map close).countP
        (·.validUntil.isNone) = 0 := by
      refine List.countP_eq_zero.mpr fun row there open_row => ?_
      obtain ⟨before, present, rfl⟩ := List.mem_map.mp there
      have one_current := alone_current
      rw [RegisterTables.currentCount, List.countP_eq_length_filter] at one_current
      obtain ⟨only, single⟩ := List.length_eq_one_iff.mp one_current
      have is_only (row : NumberRow Id)
          (here : row ∈ s.numbers.filter (·.municipalityId = id))
          (now : row.validUntil.isNone = true) : row = only :=
        List.mem_singleton.mp (single ▸ List.mem_filter.mpr ⟨here, now⟩)
      by_cases holds_old : holdsNumber id fromNumber before = true
      · simp [close, holds_old] at open_row
      · have unchanged : close before = before := by simp [close, holds_old]
        rw [unchanged] at open_row
        rw [is_only before present open_row, ← is_only old inside current] at holds_old
        exact holds_old held
    unfold RegisterTables.currentCount
    rw [rows, List.countP_append, closed]
    simp [new]
  · intro loaded
    -- the number was loaded from the row that closes, so no other current one started later
    obtain ⟨first, present, mine, named, least⟩ := RegisterTables.exists_of_numberOf loaded
    have open_old : old.validUntil = none := Option.isNone_iff_eq_none.mp current
    obtain ⟨open_first, _⟩ := RegisterTables.numberKey_le_current open_old
      (least old member (by simpa using same))
    have first_held : holdsNumber id fromNumber first = true := by
      simp [holdsNumber, mine, named, open_first]
    have one : first = old :=
      List.mem_singleton.mp (alone ▸ List.mem_filter.mpr ⟨present, first_held⟩)
    subst one
    refine RegisterTables.numberOf_latest (n := new) ?_ rfl fun other inside own open_ => ?_
    · refine List.mem_append_right _ (List.mem_map.mpr ⟨first, ?_, rfl⟩)
      exact List.mem_filter.mpr ⟨member, held⟩
    · rcases List.mem_append.mp inside with kept | opened
      · obtain ⟨before, there, shut⟩ := List.mem_map.mp kept
        by_cases closes : holdsNumber id fromNumber before = true
        · simp only [closes, if_true] at shut
          rw [← shut] at open_
          cases open_
        · rw [if_neg closes] at shut
          subst shut
          obtain ⟨_, earlier⟩ := RegisterTables.numberKey_le_current open_ (least before there own)
          have later : first.validFrom + 1 ≤ closingDay validFrom first := le_max_right _ _
          exact .inr (by change before.validFrom < closingDay validFrom first; omega)
      · obtain ⟨row, there, rfl⟩ := List.mem_map.mp opened
        rw [alone] at there
        exact .inl (by rw [List.mem_singleton.mp there])

end

-----------------------------------------------------------------------------------------
-- One operation

theorem MunicipalityOp.rows_of_target {op : MunicipalityOp Id} {id : Id} {ids : NewIds Id}
    (target : op.target? = some id)
    : op.rows ids = [] := by
  cases op with
  | create => cases target
  | _ => rfl

/-- An update of the target's row shows as the operation's change of it. -/
theorem MunicipalityOp.Shows.of_target {op : MunicipalityOp Id} {ids : NewIds Id} {id : Id}
    {change : MunicipalityRow Id → MunicipalityRow Id} (target : op.target? = some id)
    (table : after.municipalities = s.municipalities.map (changeAt MunicipalityRow.id id change))
    (keeps : ∀ row, (change row).id = row.id ∧ (change row).createdAt = row.createdAt
      ∧ (change row).status = row.status)
    (numbers : ∀ other, other ≠ id → after.numbers.filter (·.municipalityId = other)
      = s.numbers.filter (·.municipalityId = other))
    (names : ∀ other, other ≠ id → after.names.filter (·.municipalityId = other)
      = s.names.filter (·.municipalityId = other))
    (changed : ∀ row ∈ s.municipalities, row.id = id → op.Matches s row →
      after.municipalitySnapshot (change row)
        = (s.municipalitySnapshot row).map fun m => (op.change m).inOrder)
    : op.Shows ids id s after (changeAt MunicipalityRow.id id change) [] := by
  refine ⟨by rw [table, List.append_nil], ?_, fun row differ => changeAt_of_ne differ,
    fun row none => (List.not_mem_nil none).elim, ?_, by rw [op.rows_of_target target]; rfl⟩
  · intro row
    unfold changeAt
    split
    · exact keeps row
    · exact ⟨rfl, rfl, rfl⟩
  · intro current row member
    by_cases own : row.id = id
    · rw [changeAt_of_eq own,
        changed row member own (current row member (target.trans (congrArg some own.symm)))]
      cases shown : s.municipalitySnapshot row with
      | none => rfl
      | some m =>
          obtain ⟨_, same, _⟩ := RegisterTables.inOrder_of_municipalitySnapshot shown
          rw [Option.map_some, Option.map_some,
            MunicipalityOp.onRow_of_eq (target.trans (congrArg some (same.trans own).symm))]
    · rw [changeAt_of_ne own]
      refine RegisterTables.municipalitySnapshot_of_other ?_ (numbers _ own) (names _ own)
      exact fun here => own (Option.some.inj (here.symm.trans target))

/-- Current numbers stand when the rows keep their ids and statuses and no count changes. -/
theorem RegisterTables.NumbersStand.of_counts (stand : s.NumbersStand) {id : Id}
    {change : MunicipalityRow Id → MunicipalityRow Id}
    (table : after.municipalities = s.municipalities.map (changeAt MunicipalityRow.id id change))
    (keeps : ∀ row, (change row).id = row.id ∧ (change row).status = row.status)
    (counts : ∀ row ∈ s.municipalities, after.currentCount row.id = s.currentCount row.id)
    : after.NumbersStand := by
  intro row member
  rw [table] at member
  obtain ⟨before, present, rfl⟩ := List.mem_map.mp member
  have status : (changeAt MunicipalityRow.id id change before).status = before.status := by
    unfold changeAt
    split
    · exact (keeps before).2
    · rfl
  rw [key_changeAt (fun row => (keeps row).1), status, counts before present]
  exact stand before present

section

variable [OsloZone] {ids : NewIds Id} {moment : Moment} {touched : Id}

/-- A creation writes a new open municipality with its number and its names. -/
theorem writes_create {new : Nat} {number name countyNumber countyName slug : String}
    {officialName : Option String} {names : List OfficialName} {source : MunicipalitySource}
    (commits : (Applier.applyMunicipalityOp ids moment (.create new number name officialName
      countyNumber countyName slug names source)).Commits s touched after)
    (holds : s.Constraints)
    : MunicipalityOp.Writes (.create new number name officialName countyNumber countyName slug
        names source) ids moment.now touched s after := by
  rw [Applier.applyMunicipalityOp, commits_expect_bind] at commits
  obtain ⟨id, named, commits⟩ := commits
  rw [commits_statement_bind, commits_statement_bind, commits_bind] at commits
  obtain ⟨_, held, _, last, inserted, ended⟩ := commits
  obtain ⟨rfl, rfl⟩ := commits_pure.mp ended
  obtain ⟨rfl, final⟩ := of_insertNames inserted held
  let row : MunicipalityRow Id := ⟨touched, name, officialName, countyNumber, countyName, slug,
    .active, none, source, [], moment.now⟩
  let opened : NumberRow Id := ⟨touched, number, moment.today.dayNumber, none⟩
  let added := names.map fun n => (⟨touched, n.name, n.language, n.priority⟩ : NameRow Id)
  have apart : touched ∉ s.municipalityIds := by
    have keys := final.municipalityKeys
    simp only [RegisterTables.municipalityIds, List.map_append, List.map_cons, List.map_nil]
      at keys
    exact fun known => (List.nodup_append.mp keys).2.2 _ known _ (List.mem_singleton_self _) rfl
  have no_number : s.numbers.filter (·.municipalityId = touched) = [] :=
    List.filter_eq_nil_iff.mpr fun n member same =>
      apart (of_decide_eq_true same ▸ holds.numberOwners n member)
  have no_name : s.names.filter (·.municipalityId = touched) = [] :=
    List.filter_eq_nil_iff.mpr fun n member same =>
      apart (of_decide_eq_true same ▸ holds.nameOwners n member)
  have other_numbers (other : Id) (differ : other ≠ touched)
      : (s.numbers ++ [opened]).filter (·.municipalityId = other)
        = s.numbers.filter (·.municipalityId = other) := by
    simp [opened, Ne.symm differ]
  have other_names (other : Id) (differ : other ≠ touched)
      : (s.names ++ added).filter (·.municipalityId = other)
        = s.names.filter (·.municipalityId = other) := by
    simp [added, List.filter_map, Function.comp_def, Ne.symm differ]
  have own_numbers : (s.numbers ++ [opened]).filter (·.municipalityId = touched) = [opened] := by
    rw [List.filter_append, no_number]
    simp [opened]
  have own_names : (s.names ++ added).filter (·.municipalityId = touched) = added := by
    rw [List.filter_append, no_name]
    simp [added]
  let written : RegisterTables Id :=
    { s with
      municipalities := s.municipalities ++ [row]
      numbers := s.numbers ++ [opened]
      names := s.names ++ added }
  have one : written.currentCount touched = 1 := by
    unfold RegisterTables.currentCount
    change ((s.numbers ++ [opened]).filter (·.municipalityId = touched)).countP _ = 1
    rw [own_numbers]
    rfl
  change MunicipalityOp.Writes _ ids moment.now touched s written
  refine ⟨final, ?_, by simp [MunicipalityOp.Resolves, named], fun _ none => (Option.some_ne_none _ none.symm).elim,
    ⟨id, [row], ?_⟩, other_names, (List.append_nil _).symm, rfl⟩
  · intro stand other member
    rcases List.mem_append.mp member with old | last
    · have differ : other.id ≠ touched := fun same => apart (same ▸ List.mem_map_of_mem old)
      rw [RegisterTables.currentCount_congr (other_numbers _ differ)]
      exact stand other old
    · cases List.mem_singleton.mp last
      exact one
  · refine ⟨by rw [List.map_id], fun _ => ⟨rfl, rfl, rfl⟩, fun _ _ => rfl, ?_, ?_, ?_⟩
    · intro other last
      rw [List.mem_singleton.mp last]
    · intro _ other old
      have differ : other.id ≠ touched := fun same => apart (same ▸ List.mem_map_of_mem old)
      exact RegisterTables.municipalitySnapshot_of_other (by simp [MunicipalityOp.target?])
        (other_numbers _ differ) (other_names _ differ)
    · have number_of : written.numberOf touched = some number :=
        RegisterTables.numberOf_current (n := opened)
          (List.mem_append_right _ (List.mem_singleton_self _)) rfl one
      have names_of : written.namesOf touched = sortedNames names :=
        RegisterTables.namesOf_of_rows own_names
      simp [RegisterTables.municipalitySnapshot, row, number_of, names_of, MunicipalityOp.rows,
        named, MunicipalitySnapshot.inOrder]

/-- A renumber closes the current number, opens the next and changes the slug. -/
theorem writes_renumber {id : Id} {fromNumber toNumber oldSlug newSlug : String}
    {validFrom : Date} {name : Option String}
    (commits : (Applier.applyMunicipalityOp ids moment (.renumber id fromNumber toNumber validFrom
      name oldSlug newSlug)).Commits s touched after)
    : MunicipalityOp.Writes (.renumber id fromNumber toNumber validFrom name oldSlug newSlug) ids
        moment.now touched s after := by
  rw [Applier.applyMunicipalityOp, municipalitySlugHistory, commits_statement_bind, commits_bind]
    at commits
  obtain ⟨_, _, second, updated, commits⟩ := commits
  obtain ⟨present, rfl, _⟩ := of_updateMunicipality updated
  obtain ⟨_, third, renumbered, ended⟩ := commits_bind.mp commits
  obtain ⟨rfl, rfl⟩ := commits_pure.mp ended
  obtain ⟨same, final, others, opened, counted, renamed⟩ := of_renumber renumbered
  obtain ⟨own, member, rfl⟩ := List.mem_map.mp present
  have numbers (other : Id) (differ : other ≠ own.id)
      : after.numbers.filter (·.municipalityId = other)
        = s.numbers.filter (·.municipalityId = other) :=
    others other differ
  have table := congrArg RegisterTables.municipalities same
  have names : after.names = s.names := by rw [same]
  refine ⟨final, ?_, trivial, ?_, ⟨_, [], MunicipalityOp.Shows.of_target rfl table ?_ numbers ?_ ?_⟩,
    ?_, ?_, ?_⟩
  · intro stand
    -- only an open municipality has a current number
    have one : s.currentCount own.id = 1 := by
      have held := stand own member
      have some_current : 0 < s.currentCount own.id := opened
      split at held <;> omega
    refine stand.of_counts table (fun _ => ⟨rfl, rfl⟩) fun row _ => ?_
    by_cases here : row.id = own.id
    · rw [here, counted one, one]
    · exact RegisterTables.currentCount_congr (numbers _ here)
  · intro wanted target
    cases target
    exact present
  · exact fun _ => ⟨rfl, rfl, rfl⟩
  · exact fun _ _ => by rw [names]
  · intro row inside here current
    have loaded : s.numberOf row.id = some fromNumber := current.number _ rfl
    have number : after.numberOf row.id = some toNumber := here ▸ renamed (here ▸ loaded)
    have names_of : after.namesOf row.id = s.namesOf row.id :=
      RegisterTables.namesOf_congr (by rw [names])
    rw [RegisterTables.municipalitySnapshot, RegisterTables.municipalitySnapshot, loaded, number,
      Option.map_some, Option.map_some, Option.map_some, names_of]
    simp [MunicipalityOp.change, MunicipalitySnapshot.inOrder, RegisterTables.namesOf,
      sortedNames_sortedNames]
  · exact fun _ _ => by rw [names]
  · rw [congrArg RegisterTables.municipalitySlugs same]
    rfl
  · rw [same]

/-- A rename changes the name, and the slug when the operation names another. -/
theorem writes_rename {id : Id} {name oldSlug newSlug : String}
    (commits : (Applier.applyMunicipalityOp ids moment (.rename id name oldSlug
      newSlug)).Commits s touched after)
    : MunicipalityOp.Writes (.rename id name oldSlug newSlug) ids moment.now touched s after := by
  let rows := if oldSlug ≠ newSlug then municipalitySlugRows s id oldSlug moment.now else []
  have commits
      : (do
          updateMunicipality id fun row => { row with name := name, slug := newSlug }
          return id : RegisterTx Id Id).Commits
        { s with municipalitySlugs := s.municipalitySlugs ++ rows } touched after := by
    rw [Applier.applyMunicipalityOp] at commits
    by_cases differ : oldSlug ≠ newSlug
    · rw [if_pos differ, municipalitySlugHistory] at commits
      simp only [rows, if_pos differ]
      exact (commits_statement_bind.mp commits).2
    · rw [if_neg differ] at commits
      simp only [rows, if_neg differ, List.append_nil]
      exact commits
  rw [commits_bind] at commits
  obtain ⟨_, second, updated, ended⟩ := commits
  obtain ⟨present, rfl, final⟩ := of_updateMunicipality updated
  obtain ⟨rfl, rfl⟩ := commits_pure.mp ended
  refine ⟨final, ?_, trivial, ?_, ⟨_, [], MunicipalityOp.Shows.of_target rfl rfl ?_ ?_ ?_ ?_⟩,
    fun _ _ => rfl, ?_, rfl⟩
  · exact fun stand => stand.of_counts rfl (fun _ => ⟨rfl, rfl⟩) fun _ _ => rfl
  · intro wanted target
    cases target
    exact present
  · exact fun _ => ⟨rfl, rfl, rfl⟩
  · exact fun _ _ => rfl
  · exact fun _ _ => rfl
  · intro row _ _ current
    have slug : newSlug = if oldSlug ≠ newSlug then newSlug else row.slug := by
      have named := current.slug oldSlug rfl
      split
      · rfl
      · rename_i same
        rw [named, not_not.mp same]
    change Option.map _ (s.numberOf row.id) = _
    rw [RegisterTables.municipalitySnapshot, Option.map_map]
    refine Option.map_congr fun number _ => ?_
    simp only [Function.comp_apply, MunicipalityOp.change, MunicipalitySnapshot.inOrder,
      ← slug]
    change _ = MunicipalitySnapshot.mk _ _ _ _ _ _ _ _ _ (sortedNames (sortedNames _))
    rw [sortedNames_sortedNames]
    rfl
  · simp only [rows, MunicipalityOp.slugRows, MunicipalityOp.given?]
    split <;> rfl

/-- New details replace the names of the municipality. -/
theorem writes_updateDetails {id : Id} {officialName : Option String}
    {countyNumber countyName : String} {names : List OfficialName}
    (commits : (Applier.applyMunicipalityOp ids moment (.updateDetails id officialName countyNumber
      countyName names)).Commits s touched after)
    : MunicipalityOp.Writes (.updateDetails id officialName countyNumber countyName names) ids
        moment.now touched s after := by
  rw [Applier.applyMunicipalityOp, commits_bind] at commits
  obtain ⟨_, second, updated, commits⟩ := commits
  obtain ⟨present, rfl, _⟩ := of_updateMunicipality updated
  rw [commits_statement_bind, commits_bind] at commits
  obtain ⟨held, _, last, inserted, ended⟩ := commits
  obtain ⟨rfl, rfl⟩ := commits_pure.mp ended
  obtain ⟨rfl, final⟩ := of_insertNames inserted held
  let added := names.map fun n => (⟨touched, n.name, n.language, n.priority⟩ : NameRow Id)
  have other_names (other : Id) (differ : other ≠ touched)
      : (s.names.filter (·.municipalityId ≠ touched) ++ added).filter (·.municipalityId = other)
        = s.names.filter (·.municipalityId = other) := by
    have kept : (s.names.filter (·.municipalityId ≠ touched)).filter (·.municipalityId = other)
        = s.names.filter (·.municipalityId = other) := by
      rw [List.filter_filter]
      refine List.filter_congr fun n _ => ?_
      by_cases here : n.municipalityId = other <;> simp [here, differ]
    rw [List.filter_append, kept]
    simp [added, List.filter_map, Function.comp_def, Ne.symm differ]
  have own_names
      : (s.names.filter (·.municipalityId ≠ touched) ++ added).filter (·.municipalityId = touched)
        = added := by
    simp [added, List.filter_append, List.filter_map, List.filter_filter, Function.comp_def]
  refine ⟨final, ?_, trivial, ?_, ⟨_, [], MunicipalityOp.Shows.of_target rfl rfl ?_ ?_ ?_ ?_⟩,
    other_names, (List.append_nil _).symm, rfl⟩
  · exact fun stand => stand.of_counts rfl (fun _ => ⟨rfl, rfl⟩) fun _ _ => rfl
  · intro wanted target
    cases target
    exact present
  · exact fun _ => ⟨rfl, rfl, rfl⟩
  · exact fun _ _ => rfl
  · exact other_names
  · intro row _ here _
    change Option.map _ (s.numberOf row.id) = _
    rw [RegisterTables.municipalitySnapshot, Option.map_map]
    refine Option.map_congr fun number _ => ?_
    simp only [Function.comp_apply, MunicipalityOp.change, MunicipalitySnapshot.inOrder]
    congr 1
    rw [here]
    exact RegisterTables.namesOf_of_rows own_names

/-- What any municipality operation writes. -/
theorem writes_of_applyMunicipalityOp {op : MunicipalityOp Id}
    (commits : (Applier.applyMunicipalityOp ids moment op).Commits s touched after)
    (holds : s.Constraints)
    : op.Writes ids moment.now touched s after := by
  cases op with
  | create => exact writes_create commits holds
  | renumber => exact writes_renumber commits
  | rename => exact writes_rename commits
  | updateDetails => exact writes_updateDetails commits

end

end FauPortalen.Register

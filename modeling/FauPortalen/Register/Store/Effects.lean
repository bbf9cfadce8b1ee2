import FauPortalen.Register.Store.Applier
import FauPortalen.Register.Sync.MunicipalityEffects

/-! What the statements and the municipality operations of the SQL applier write, as the snapshot
shows it.
-/

set_option linter.unusedSectionVars false

namespace FauPortalen.Register

open FauPortalen.Foundations Transaction

variable {Id : Type} [LinearOrder Id] {s after : RegisterTables Id}

-----------------------------------------------------------------------------------------
-- Numbers and names of one municipality

namespace RegisterTables

/-- How many numbers the municipality has now. -/
def currentCount (s : RegisterTables Id) (id : Id) : Nat :=
  (s.numbers.filter (·.municipalityId = id)).countP (·.validUntil.isNone)

/-- An open municipality has one current number, and a dissolved one none. -/
def NumbersStand (s : RegisterTables Id) : Prop :=
  ∀ row ∈ s.municipalities, s.currentCount row.id = if row.status = .active then 1 else 0

/-- The order in which the loader takes a number: the current one held last, then the ended ones.
-/
def numberKey (row : NumberRow Id) : Bool ×ₗ Int := toLex (row.validUntil.isSome, -row.validFrom)

/-- The number is that of a first row in the loader's order. -/
theorem exists_of_numberOf {id : Id} {number : String} (found : s.numberOf id = some number)
    : ∃ n ∈ s.numbers, n.municipalityId = id ∧ n.number = number
        ∧ ∀ other ∈ s.numbers, other.municipalityId = id → numberKey n ≤ numberKey other := by
  let own := s.numbers.filter (·.municipalityId = id)
  change ((sortOn numberKey own).head?).map (·.number) = some number at found
  obtain ⟨n, first, same⟩ := Option.map_eq_some_iff.mp found
  obtain ⟨rest, sorted⟩ := List.head?_eq_some_iff.mp first
  obtain ⟨member, here⟩ := List.mem_filter.mp
    (mem_sortOn.mp (sorted ▸ List.mem_cons_self) : n ∈ own)
  refine ⟨n, member, by simpa using here, same, fun other present there => ?_⟩
  have inside : other ∈ sortOn numberKey own :=
    mem_sortOn.mpr (List.mem_filter.mpr ⟨present, by simpa using there⟩)
  have ordered := pairwise_sortOn numberKey own
  rw [sorted] at ordered inside
  rcases List.mem_cons.mp inside with rfl | later
  · exact le_refl _
  · exact (List.pairwise_cons.mp ordered).1 other later

/-- No row comes before a current one but current ones that started no earlier. -/
theorem numberKey_le_current {row n : NumberRow Id} (current : n.validUntil = none)
    (before : numberKey row ≤ numberKey n)
    : row.validUntil = none ∧ n.validFrom ≤ row.validFrom := by
  rcases Prod.Lex.toLex_le_toLex.mp before with smaller | ⟨same, later⟩
  · have smaller : row.validUntil.isSome < n.validUntil.isSome := smaller
    rw [current] at smaller
    exact absurd smaller (by cases row.validUntil.isSome <;> decide)
  · exact ⟨by simpa [current] using same, neg_le_neg_iff.mp later⟩

/-- A current row that started after every other current one of its municipality gives the number.
-/
theorem numberOf_latest {n : NumberRow Id} (member : n ∈ s.numbers)
    (current : n.validUntil = none)
    (latest : ∀ other ∈ s.numbers, other.municipalityId = n.municipalityId →
      other.validUntil = none → other = n ∨ other.validFrom < n.validFrom)
    : s.numberOf n.municipalityId = some n.number := by
  have some_number : (s.numberOf n.municipalityId).isSome := by
    unfold numberOf
    rw [Option.isSome_map, List.isSome_head?]
    exact List.ne_nil_of_mem (mem_sortOn.mpr (List.mem_filter.mpr ⟨member, by simp⟩))
  obtain ⟨number, found⟩ := Option.isSome_iff_exists.mp some_number
  obtain ⟨first, present, own, rfl, least⟩ := exists_of_numberOf found
  obtain ⟨open_, no_earlier⟩ := numberKey_le_current current (least n member rfl)
  rcases latest first present own open_ with rfl | before
  · exact found
  · omega

/-- With one current number, that is the number. -/
theorem numberOf_current {n : NumberRow Id} (member : n ∈ s.numbers)
    (current : n.validUntil = none) (one : s.currentCount n.municipalityId = 1)
    : s.numberOf n.municipalityId = some n.number := by
  refine numberOf_latest member current fun other present own open_ => .inl ?_
  rw [currentCount, List.countP_eq_length_filter] at one
  obtain ⟨only, alone⟩ := List.length_eq_one_iff.mp one
  have same (row : NumberRow Id) (here : row ∈ s.numbers)
      (mine : row.municipalityId = n.municipalityId) (now : row.validUntil = none)
      : row = only := by
    refine List.mem_singleton.mp (alone ▸ List.mem_filter.mpr ⟨List.mem_filter.mpr ⟨here, ?_⟩, ?_⟩)
    · simpa using mine
    · simp [now]
  rw [same other present own open_, ← same n member rfl current]

theorem numberOf_congr {id : Id}
    (same : after.numbers.filter (·.municipalityId = id)
      = s.numbers.filter (·.municipalityId = id))
    : after.numberOf id = s.numberOf id := by
  unfold numberOf
  rw [same]

theorem currentCount_congr {id : Id}
    (same : after.numbers.filter (·.municipalityId = id)
      = s.numbers.filter (·.municipalityId = id))
    : after.currentCount id = s.currentCount id := by
  unfold currentCount
  rw [same]

theorem namesOf_congr {id : Id}
    (same : after.names.filter (·.municipalityId = id) = s.names.filter (·.municipalityId = id))
    : after.namesOf id = s.namesOf id := by
  unfold namesOf
  rw [same]

/-- The names of a municipality whose rows are these. -/
theorem namesOf_of_rows {id : Id} {names : List OfficialName}
    (rows : s.names.filter (·.municipalityId = id)
      = names.map fun n => ⟨id, n.name, n.language, n.priority⟩)
    : s.namesOf id = sortedNames names := by
  simp [namesOf, rows, Function.comp_def]

end RegisterTables

namespace Applier

-----------------------------------------------------------------------------------------
-- Statements

@[simp]
theorem commits_statement {change : RegisterTables Id → RegisterTables Id} {u : Unit}
    : (statement change).Commits s u after ↔ after = change s ∧ after.Constraints := by
  rw [statement, commits_update_bind, commits_select_bind, commits_require, and_comm]
  constructor
  · rintro ⟨rfl, holds⟩
    exact ⟨rfl, holds⟩
  · rintro ⟨rfl, holds⟩
    exact ⟨rfl, holds⟩

theorem commits_statement_bind {α : Type} {change : RegisterTables Id → RegisterTables Id}
    {next : Unit → RegisterTx Id α} {a : α}
    : (statement change >>= next).Commits s a after
      ↔ (change s).Constraints ∧ (next ()).Commits (change s) a after := by
  rw [commits_bind]
  constructor
  · rintro ⟨_, middle, first, rest⟩
    obtain ⟨rfl, holds⟩ := commits_statement.mp first
    exact ⟨holds, rest⟩
  · rintro ⟨holds, rest⟩
    exact ⟨(), _, commits_statement.mpr ⟨rfl, holds⟩, rest⟩

/-- An update finds its row. -/
theorem of_updateMunicipality {id : Id} {change : MunicipalityRow Id → MunicipalityRow Id}
    {u : Unit} (commits : (updateMunicipality id change).Commits s u after)
    : id ∈ s.municipalityIds
      ∧ after = { s with
          municipalities := s.municipalities.map (changeAt MunicipalityRow.id id change) }
      ∧ after.Constraints := by
  rw [updateMunicipality, commits_select_bind, commits_statement_bind, commits_require] at commits
  obtain ⟨holds, one, rfl⟩ := commits
  have found : 0 < s.municipalities.countP (·.id = id) := by omega
  obtain ⟨row, member, same⟩ := List.countP_pos_iff.mp found
  refine ⟨?_, rfl, holds⟩
  exact List.mem_map.mpr ⟨row, member, by simpa using same⟩

theorem of_updateSchool {id : Id} {change : SchoolRow Id → SchoolRow Id} {u : Unit}
    (commits : (updateSchool id change).Commits s u after)
    : id ∈ s.schoolIds
      ∧ after = { s with schools := s.schools.map (changeAt SchoolRow.id id change) }
      ∧ after.Constraints := by
  rw [updateSchool, commits_select_bind, commits_statement_bind, commits_require] at commits
  obtain ⟨holds, one, rfl⟩ := commits
  have found : 0 < s.schools.countP (·.id = id) := by omega
  obtain ⟨row, member, same⟩ := List.countP_pos_iff.mp found
  refine ⟨?_, rfl, holds⟩
  exact List.mem_map.mpr ⟨row, member, by simpa using same⟩

/-- The names go in one by one, so the constraints are those after the last. -/
theorem of_insertNames {id : Id} {names : List OfficialName} {u : Unit}
    (commits : (insertNames id names).Commits s u after) (holds : s.Constraints)
    : after = { s with
        names := s.names ++ names.map fun n => ⟨id, n.name, n.language, n.priority⟩ }
      ∧ after.Constraints := by
  unfold insertNames at commits
  induction names generalizing s with
  | nil =>
      obtain rfl := commits_forM_nil.mp commits
      exact ⟨by simp, holds⟩
  | cons first rest ih =>
      obtain ⟨middle, stated, others⟩ := commits_forM_cons.mp commits
      obtain ⟨rfl, held⟩ := commits_statement.mp stated
      obtain ⟨rfl, final⟩ := ih others held
      exact ⟨by simp, final⟩

end Applier

end FauPortalen.Register

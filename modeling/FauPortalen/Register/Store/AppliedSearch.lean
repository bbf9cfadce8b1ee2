import FauPortalen.Foundations.EventSystems
import FauPortalen.Register.Store.MunicipalityWrites
import FauPortalen.Register.Store.SchoolWrites

/-! Runs over time, whatever their plans: the constraints and the current numbers stand in every
register that they leave, and every school and municipality is found by the names it has.
-/

set_option linter.unusedSectionVars false

namespace FauPortalen.Register

open FauPortalen.Foundations Transaction Applier

variable {Id : Type} [LinearOrder Id] [SearchData] {s after : RegisterTables Id}

-----------------------------------------------------------------------------------------
-- The stored texts

/-- The text of the names that the municipality has. -/
def RegisterTables.municipalityText (s : RegisterTables Id) (row : MunicipalityRow Id)
    : List Char :=
  searchText (row.name :: (s.namesOf row.id).map (·.name))

/-- The text of the names that the school has. -/
def SchoolRow.text (row : SchoolRow Id) : List Char :=
  FauPortalen.Register.searchText (row.displayName :: row.registerName.toList)

/-- The municipalities apart from these are stored under the names they have. -/
def RegisterTables.MunicipalitiesFound (s : RegisterTables Id) (stale : List Id) : Prop :=
  ∀ row ∈ s.municipalities, row.id ∉ stale → row.searchText = s.municipalityText row

def RegisterTables.SchoolsFound (s : RegisterTables Id) (stale : List Id) : Prop :=
  ∀ row ∈ s.schools, row.id ∉ stale → row.searchText = row.text

/-- The constraints and the current numbers stand, and apart from these rows everything is found.
-/
structure RegisterTables.StandsBut (s : RegisterTables Id) (municipalities schools : List Id)
    : Prop where
  constraints : s.Constraints
  numbers : s.NumbersStand
  municipalitiesFound : s.MunicipalitiesFound municipalities
  schoolsFound : s.SchoolsFound schools

abbrev RegisterTables.Stands (s : RegisterTables Id) : Prop := s.StandsBut [] []

theorem RegisterTables.StandsBut.anyway {some_ others some' others' : List Id}
    (h : s.StandsBut some_ others) (wider : some_ ⊆ some') (wider' : others ⊆ others')
    : s.StandsBut some' others' :=
  ⟨h.constraints, h.numbers,
    fun row member apart => h.municipalitiesFound row member fun stale => apart (wider stale),
    fun row member apart => h.schoolsFound row member fun stale => apart (wider' stale)⟩

theorem RegisterTables.municipalityText_congr {row : MunicipalityRow Id}
    (names : after.names.filter (·.municipalityId = row.id)
      = s.names.filter (·.municipalityId = row.id))
    : after.municipalityText row = s.municipalityText row := by
  unfold RegisterTables.municipalityText
  rw [RegisterTables.namesOf_congr names]

-----------------------------------------------------------------------------------------
-- The statements after the operations

/-- A refresh gives a municipality the text of its names. -/
theorem of_refreshMunicipalitySearchText {id : Id} {u : Unit}
    (commits : (refreshMunicipalitySearchText id).Commits s u after) (holds : s.Constraints)
    : after.Constraints
      ∧ after = { s with
        municipalities := s.municipalities.map <| changeAt MunicipalityRow.id id fun row =>
          { row with searchText := s.municipalityText row } } := by
  rw [refreshMunicipalitySearchText, commits_select_bind, commits_expect_bind] at commits
  obtain ⟨found, same, commits⟩ := commits
  rw [commits_select_bind] at commits
  obtain ⟨rfl, final⟩ := commits_statement.mp commits
  refine ⟨final, ?_⟩
  congr 1
  refine List.map_congr_left fun row member => ?_
  by_cases own : row.id = id
  · have one : row = found := by
      have known : found.id = id := by simpa using List.find?_some same
      exact List.inj_on_of_nodup_map holds.municipalityKeys member
        (List.mem_of_find?_eq_some same) (own.trans known.symm)
    rw [changeAt_of_eq own, changeAt_of_eq own, ← one, ← own]
    rfl
  · rw [changeAt_of_ne own, changeAt_of_ne own]

theorem of_refreshSchoolSearchText {id : Id} {u : Unit}
    (commits : (refreshSchoolSearchText id).Commits s u after) (holds : s.Constraints)
    : after.Constraints
      ∧ after = { s with
        schools := s.schools.map <| changeAt SchoolRow.id id fun row =>
          { row with searchText := row.text } } := by
  rw [refreshSchoolSearchText, commits_select_bind, commits_expect_bind] at commits
  obtain ⟨found, same, commits⟩ := commits
  obtain ⟨rfl, final⟩ := commits_statement.mp commits
  refine ⟨final, ?_⟩
  congr 1
  refine List.map_congr_left fun row member => ?_
  by_cases own : row.id = id
  · have one : row = found := by
      have known : found.id = id := by simpa using List.find?_some same
      exact List.inj_on_of_nodup_map holds.schoolKeys member
        (List.mem_of_find?_eq_some same) (own.trans known.symm)
    rw [changeAt_of_eq own, changeAt_of_eq own, ← one]
    rfl
  · rw [changeAt_of_ne own, changeAt_of_ne own]

-----------------------------------------------------------------------------------------
-- One step of a plan

namespace RegisterTables.StandsBut

variable {stale others : List Id} {ids : NewIds Id} {now : Timestamp} {id : Id}

/-- After an operation, the municipality it touched may be stale. -/
theorem municipalityOp (h : s.StandsBut stale others) {op : MunicipalityOp Id} {touched : Id}
    (writes : op.Writes ids now touched s after)
    : after.StandsBut (stale ++ [touched]) others := by
  refine ⟨writes.constraints, writes.numbers h.numbers, ?_, ?_⟩
  · intro row member apart
    obtain ⟨fresh, other⟩ : row.id ∉ stale ∧ row.id ≠ touched := by simpa using apart
    obtain ⟨change, new, shows_⟩ := writes.rows
    rw [shows_.table] at member
    rcases List.mem_append.mp member with old | created
    · obtain ⟨before, inside, rfl⟩ := List.mem_map.mp old
      rw [(shows_.keeps before).1] at fresh other
      rw [shows_.apart before other, RegisterTables.municipalityText_congr (writes.names _ other)]
      exact h.municipalitiesFound before inside fresh
    · exact absurd (shows_.added row created) other
  · have schools : after.schools = s.schools := by rw [writes.others]
    intro row member
    exact h.schoolsFound row (schools ▸ member)

theorem refreshMunicipality {rest : List Id} (h : s.StandsBut (id :: rest) others) {u : Unit}
    (commits : (refreshMunicipalitySearchText id).Commits s u after)
    : after.StandsBut rest others := by
  obtain ⟨final, rfl⟩ := of_refreshMunicipalitySearchText commits h.constraints
  refine ⟨final, h.numbers.of_counts rfl (fun _ => ⟨rfl, rfl⟩) fun _ _ => rfl, ?_, h.schoolsFound⟩
  intro row member apart
  obtain ⟨before, inside, rfl⟩ := List.mem_map.mp member
  by_cases own : before.id = id
  · rw [changeAt_of_eq own]
    rfl
  · rw [changeAt_of_ne own] at apart ⊢
    exact h.municipalitiesFound before inside fun there =>
      (List.mem_cons.mp there).elim own apart

/-- A school operation makes no other school stale than one it renames. -/
theorem schoolOp (h : s.StandsBut stale others) {op : SchoolOp Id}
    (writes : op.Writes ids now s after) (known : ∀ id, renamed? op = some id → id ∈ others)
    : after.StandsBut stale others := by
  have municipalities : after.municipalities = s.municipalities := by rw [writes.others]
  have numbers : after.numbers = s.numbers := by rw [writes.others]
  have names : after.names = s.names := by rw [writes.others]
  refine ⟨writes.constraints, ?_, ?_, ?_⟩
  · intro row member
    rw [RegisterTables.currentCount_congr (s := s) (by rw [numbers])]
    exact h.numbers row (municipalities ▸ member)
  · intro row member apart
    rw [RegisterTables.municipalityText_congr (s := s) (by rw [names])]
    exact h.municipalitiesFound row (municipalities ▸ member) apart
  · intro row member apart
    obtain ⟨change, new, shows_⟩ := writes.rows
    rw [shows_.table] at member
    rcases List.mem_append.mp member with old | created
    · obtain ⟨before, inside, rfl⟩ := List.mem_map.mp old
      rw [(shows_.keeps before).1] at apart
      obtain ⟨display, register, text⟩ :=
        shows_.named before fun renames => apart (known _ renames)
      rw [text, h.schoolsFound before inside apart, SchoolRow.text, SchoolRow.text, display,
        register]
    · exact shows_.found row created

/-- A change of schools alone that keeps their ids and what they are found by. -/
theorem linkSuccessor (h : s.StandsBut stale others) {closed successor : Id} {u : Unit}
    (commits : (Applier.linkSuccessor closed successor).Commits s u after)
    : after.StandsBut stale others := by
  obtain ⟨_, rfl, final⟩ := of_updateSchool commits
  refine ⟨final, h.numbers, h.municipalitiesFound, ?_⟩
  intro row member apart
  obtain ⟨before, inside, rfl⟩ := List.mem_map.mp member
  by_cases own : before.id = closed
  · rw [changeAt_of_eq own] at apart ⊢
    exact h.schoolsFound before inside apart
  · rw [changeAt_of_ne own] at apart ⊢
    exact h.schoolsFound before inside apart

theorem refreshSchool {rest : List Id} (h : s.StandsBut stale (id :: rest)) {u : Unit}
    (commits : (refreshSchoolSearchText id).Commits s u after)
    : after.StandsBut stale rest := by
  obtain ⟨final, rfl⟩ := of_refreshSchoolSearchText commits h.constraints
  refine ⟨final, h.numbers, h.municipalitiesFound, ?_⟩
  intro row member apart
  obtain ⟨before, inside, rfl⟩ := List.mem_map.mp member
  by_cases own : before.id = id
  · rw [changeAt_of_eq own]
    rfl
  · rw [changeAt_of_ne own] at apart ⊢
    exact h.schoolsFound before inside fun there => (List.mem_cons.mp there).elim own apart

end RegisterTables.StandsBut

/-- Refreshing stale rows leaves the others, by induction on them. -/
theorem RegisterTables.StandsBut.refreshMunicipalities {touched stale others : List Id}
    (h : s.StandsBut (touched ++ stale) others) {u : Unit}
    (commits : (touched.forM refreshMunicipalitySearchText).Commits s u after)
    : after.StandsBut stale others := by
  induction touched generalizing s with
  | nil => exact commits_forM_nil.mp commits ▸ h
  | cons id rest ih =>
      obtain ⟨middle, first, later⟩ := commits_forM_cons.mp commits
      exact ih (h.refreshMunicipality first) later

theorem RegisterTables.StandsBut.refreshSchools {renamed stale others : List Id}
    (h : s.StandsBut stale (renamed ++ others)) {u : Unit}
    (commits : (renamed.forM refreshSchoolSearchText).Commits s u after)
    : after.StandsBut stale others := by
  induction renamed generalizing s with
  | nil => exact commits_forM_nil.mp commits ▸ h
  | cons id rest ih =>
      obtain ⟨middle, first, later⟩ := commits_forM_cons.mp commits
      exact ih (h.refreshSchool first) later

-----------------------------------------------------------------------------------------
-- The phases of a plan

variable [OsloZone] {ids : NewIds Id} {plan : SyncPlan Id} {moment : Moment}
  {applied : AppliedCounts Id}

/-- The loops of a committed plan, and the registers between them. -/
structure AppliedPhases (ids : NewIds Id) (plan : SyncPlan Id) (moment : Moment)
    (s after : RegisterTables Id) (touched : List Id) (links : List (Id × Id))
    (municipalities refreshed schools linked found : RegisterTables Id) : Prop where
  municipalityOps : (plan.municipalityOps.foldlM (fun touched op => do
      let id ← Applier.applyMunicipalityOp ids moment op
      return touched ++ [id]) []).Commits s touched municipalities
  municipalityTexts : ((sortedKeys touched).forM refreshMunicipalitySearchText).Commits
    municipalities () refreshed
  schoolOps : (plan.schoolOps.foldlM (schoolPass ids moment) []).Commits refreshed links schools
  successors : (links.forM fun link => Applier.linkSuccessor link.1 link.2).Commits schools ()
    linked
  schoolTexts : ((sortedKeys (plan.schoolOps.filterMap renamed?)).forM
    refreshSchoolSearchText).Commits linked () found
  reviews : ∃ table, writeReviews ids found.reviews plan.reviews = some table
    ∧ after = { found with reviews := table.rows }
  constraints : after.Constraints

theorem applyPlan_phases (commits : (applyPlan ids plan moment).Commits s applied after)
    : ∃ touched links municipalities refreshed schools linked found,
        AppliedPhases ids plan moment s after touched links municipalities refreshed schools linked
          found := by
  rw [applyPlan, commits_bind] at commits
  obtain ⟨touched, municipalities, first, commits⟩ := commits
  obtain ⟨_, refreshed, second, commits⟩ := commits_bind.mp commits
  obtain ⟨links, schools, third, commits⟩ := commits_bind.mp commits
  obtain ⟨_, linked, fourth, commits⟩ := commits_bind.mp commits
  obtain ⟨_, found, fifth, commits⟩ := commits_bind.mp commits
  rw [commits_select_bind, commits_expect_bind] at commits
  obtain ⟨table, written, commits⟩ := commits
  obtain ⟨final, ended⟩ := commits_statement_bind.mp commits
  obtain ⟨_, rfl⟩ := commits_pure.mp ended
  exact ⟨touched, links, municipalities, refreshed, schools, linked, found, first, second, third,
    fourth, fifth, ⟨table, written, rfl⟩, final⟩

/-- What one pass over the school operations commits. -/
theorem of_schoolPass {links next : List (Id × Id)} {op : SchoolOp Id}
    (commits : (schoolPass ids moment links op).Commits s next after)
    : (Applier.applySchoolOp ids moment op).Commits s () after
      ∧ ((pendingSuccessor? op = none ∧ next = links)
        ∨ ∃ closed successor id, pendingSuccessor? op = some (closed, successor)
          ∧ ids.schoolId successor = some id ∧ next = links ++ [(closed, id)]) := by
  unfold schoolPass at commits
  cases pending : pendingSuccessor? op with
  | none =>
      rw [pending] at commits
      simp only [pure_bind] at commits
      obtain ⟨_, middle, stepped, ended⟩ := commits_bind.mp commits
      obtain ⟨rfl, rfl⟩ := commits_pure.mp ended
      exact ⟨stepped, .inl ⟨rfl, rfl⟩⟩
  | some link =>
      rw [pending] at commits
      simp only [pure_bind] at commits
      obtain ⟨id, named, rest⟩ := commits_expect_bind.mp commits
      obtain ⟨_, middle, stepped, ended⟩ := commits_bind.mp rest
      obtain ⟨rfl, rfl⟩ := commits_pure.mp ended
      exact ⟨stepped, .inr ⟨link.1, link.2, id, rfl, named, rfl⟩⟩

/-- A committed plan makes no row stale. -/
theorem RegisterTables.StandsBut.applyPlan {stale others : List Id} (h : s.StandsBut stale others)
    (commits : (applyPlan ids plan moment).Commits s applied after)
    : after.StandsBut stale others := by
  obtain ⟨touched, links, municipalities, refreshed, schools, linked, found, phases⟩ :=
    applyPlan_phases commits
  have first : municipalities.StandsBut (stale ++ touched) others := by
    refine phases.municipalityOps.foldlM_keeps
      (P := fun touched (s : RegisterTables Id) => s.StandsBut (stale ++ touched) others) ?_
      (by rwa [List.append_nil])
    intro op _ touched s next after stands stepped
    obtain ⟨id, middle, written, ended⟩ := commits_bind.mp stepped
    obtain ⟨rfl, rfl⟩ := commits_pure.mp ended
    rw [← List.append_assoc]
    exact stands.municipalityOp (writes_of_applyMunicipalityOp written stands.constraints)
  have second : refreshed.StandsBut stale others := by
    refine (first.anyway (fun id inside => ?_)
      (List.Subset.refl _)).refreshMunicipalities phases.municipalityTexts
    rcases List.mem_append.mp inside with old | new
    · exact List.mem_append_right _ old
    · exact List.mem_append_left _ (mem_sortedKeys.mpr new)
  let renamed := sortedKeys (plan.schoolOps.filterMap renamed?)
  have third : schools.StandsBut stale (renamed ++ others) := by
    refine phases.schoolOps.foldlM_keeps
      (P := fun _ (s : RegisterTables Id) => s.StandsBut stale (renamed ++ others)) ?_
      (second.anyway (List.Subset.refl _) (List.subset_append_right _ _))
    intro op member _ s _ after stands stepped
    refine stands.schoolOp
      (writes_of_applySchoolOp (of_schoolPass stepped).1 stands.constraints) fun id renames => ?_
    exact List.mem_append_left _
      (mem_sortedKeys.mpr (List.mem_filterMap.mpr ⟨op, member, renames⟩))
  have fourth : linked.StandsBut stale (renamed ++ others) :=
    phases.successors.forM_keeps
      (P := fun s : RegisterTables Id => s.StandsBut stale (renamed ++ others))
      (fun _ _ _ _ stands stepped => stands.linkSuccessor stepped) third
  have fifth := fourth.refreshSchools phases.schoolTexts
  obtain ⟨table, _, rfl⟩ := phases.reviews
  exact ⟨phases.constraints, fifth.numbers, fifth.municipalitiesFound, fifth.schoolsFound⟩

/-- A committed plan leaves each open municipality its current number. -/
theorem RegisterTables.NumbersStand.applyPlan (h : s.NumbersStand) (holds : s.Constraints)
    (commits : (applyPlan ids plan moment).Commits s applied after)
    : after.NumbersStand := by
  -- what is found before and afterwards does not matter here
  have all : s.StandsBut s.municipalityIds s.schoolIds :=
    ⟨holds, h, fun _ member apart => absurd (List.mem_map_of_mem member) apart,
      fun _ member apart => absurd (List.mem_map_of_mem member) apart⟩
  exact (all.applyPlan commits).numbers

-----------------------------------------------------------------------------------------
-- Runs from the empty register

def RegisterTables.empty : RegisterTables Id := ⟨[], [], [], [], [], [], [], [], [], []⟩

/-- What the register's tables go through: a run that applies any plan, or a change elsewhere. -/
inductive RegisterEvent (Id : Type)
  | run (ids : NewIds Id) (plan : SyncPlan Id) (moment : Moment)
  | elsewhere

/-- A change of the tables around the register, within the constraints. -/
structure RegisterTables.ChangesAround (s after : RegisterTables Id) : Prop where
  constraints : after.Constraints
  register : after = { s with
    tenants := after.tenants
    fauLinks := after.fauLinks
    reviews := after.reviews }

/-- Every committed run from the empty register, with changes around it in between. -/
def registerHistory : EventSystem (RegisterTables Id) (RegisterEvent Id) where
  start s := s = .empty
  step s event after :=
    match event with
    | .run ids plan moment => ∃ applied, (applyPlan ids plan moment).Commits s applied after
    | .elsewhere => s.ChangesAround after

theorem RegisterTables.empty_stands : (RegisterTables.empty : RegisterTables Id).Stands where
  constraints := by
    simp [RegisterTables.constraints_iff, RegisterTables.municipalityConstraints_iff,
      RegisterTables.schoolConstraints_iff, RegisterTables.referenceConstraints_iff,
      RegisterTables.currentSlugKeys, RegisterTables.municipalityIds, RegisterTables.schoolIds,
      RegisterTables.empty]
  numbers := fun _ none => (List.not_mem_nil none).elim
  municipalitiesFound := fun _ none => (List.not_mem_nil none).elim
  schoolsFound := fun _ none => (List.not_mem_nil none).elim

/-- A change around the register leaves it standing. -/
theorem RegisterTables.Stands.changesAround (h : s.Stands) (changes : s.ChangesAround after)
    : after.Stands := by
  have municipalities : after.municipalities = s.municipalities := by rw [changes.register]
  have numbers : after.numbers = s.numbers := by rw [changes.register]
  have names : after.names = s.names := by rw [changes.register]
  have schools : after.schools = s.schools := by rw [changes.register]
  refine ⟨changes.constraints, ?_, ?_, ?_⟩
  · intro row member
    rw [RegisterTables.currentCount_congr (s := s) (by rw [numbers])]
    exact h.numbers row (municipalities ▸ member)
  · intro row member apart
    rw [RegisterTables.municipalityText_congr (s := s) (by rw [names])]
    exact h.municipalitiesFound row (municipalities ▸ member) apart
  · exact fun row member => h.schoolsFound row (schools ▸ member)

/-- Every register that runs build stands. -/
theorem registerHistory_stands (reached : registerHistory.Reachable s) : s.Stands := by
  refine reached.keeps ?_ ?_
  · intro s begun
    obtain rfl : s = .empty := begun
    exact RegisterTables.empty_stands
  · intro s event after stands stepped
    cases event with
    | run ids plan moment =>
        obtain ⟨applied, commits⟩ := stepped
        exact stands.applyPlan commits
    | elsewhere => exact stands.changesAround stepped

/-- In every register that runs build, a query of one word finds a school exactly by the forms of
its display name and its NSR name, and a municipality exactly by those of every name it answers to.
-/
theorem registerHistory_finds (reached : registerHistory.Reachable s) {query : String}
    (word : ' ' ∉ searchQuery query)
    : (∀ row ∈ s.schools, Finds row.searchText query ↔ searchQuery query ≠ []
        ∧ ∃ name, (name = row.displayName ∨ some name = row.registerName)
          ∧ ∃ form ∈ searchForms name, StartsWord ' ' (searchQuery query) form)
      ∧ ∀ row ∈ s.municipalities, Finds row.searchText query ↔ searchQuery query ≠ []
        ∧ ∃ name, (name = row.name ∨ ∃ n ∈ s.names, n.municipalityId = row.id ∧ n.name = name)
          ∧ ∃ form ∈ searchForms name, StartsWord ' ' (searchQuery query) form := by
  have stands := registerHistory_stands reached
  refine ⟨fun row member => ?_, fun row member => ?_⟩
  · have known (name : String)
        : name ∈ row.registerName.toList ↔ some name = row.registerName := by
      rw [Option.mem_toList]
      exact eq_comm
    rw [stands.schoolsFound row member List.not_mem_nil, SchoolRow.text, finds_searchText_iff word]
    simp only [List.mem_cons, known]
  · have known (name : String)
        : name ∈ (s.namesOf row.id).map (·.name)
          ↔ ∃ n ∈ s.names, n.municipalityId = row.id ∧ n.name = name := by
      simp [RegisterTables.namesOf, sortedNames, and_assoc]
    rw [stands.municipalitiesFound row member List.not_mem_nil, RegisterTables.municipalityText,
      finds_searchText_iff word]
    simp only [List.mem_cons, known]

end FauPortalen.Register

namespace FauPortalen.Register

open FauPortalen.Foundations Transaction Applier

section

attribute [local instance] OsloZone.atEpoch SearchData.ascii

/-- A municipality and a school in it. -/
def firstPlan : SyncPlan Nat :=
  {
    municipalityOps := [
      .create 0 "0301" "Oslo" (some "Oslo kommune") "03" "Oslo" "0301-oslo" [⟨"Oslo", "nor", 1⟩]
        .kartverket]
    schoolOps := [
      .create 0 (.new 0) "975288001" "Ask skole" "Ask skole" (some "ask-skole") .listed true
        (.fromUnit (sampleUnit "975288001" "Ask skole" true)) none]
    reviews := []
    counts := {}
  }

def firstIds : NewIds Nat :=
  { municipality := .ofPairs [(0, 1)], school := .ofPairs [(0, 2)] }

/-- After the first run "sko" finds what has a word that starts so. -/
theorem firstRun_finds
    : (∀ row ∈ ((applyPlan firstIds firstPlan (Moment.at 0)).leaves .empty).schools,
        Finds row.searchText "sko" ↔ searchQuery "sko" ≠ []
          ∧ ∃ name, (name = row.displayName ∨ some name = row.registerName)
            ∧ ∃ form ∈ searchForms name, StartsWord ' ' (searchQuery "sko") form)
      ∧ ∀ row ∈ ((applyPlan firstIds firstPlan (Moment.at 0)).leaves .empty).municipalities,
        Finds row.searchText "sko" ↔ searchQuery "sko" ≠ []
          ∧ ∃ name, (name = row.name
              ∨ ∃ n ∈ ((applyPlan firstIds firstPlan (Moment.at 0)).leaves .empty).names,
                  n.municipalityId = row.id ∧ n.name = name)
            ∧ ∃ form ∈ searchForms name, StartsWord ' ' (searchQuery "sko") form := by
  obtain ⟨applied, commits⟩ := leaves_commits
    (show ((applyPlan firstIds firstPlan (Moment.at 0)).run .empty).toBool = true by
      decide +kernel)
  have stepped : registerHistory.step .empty (.run firstIds firstPlan (Moment.at 0))
      ((applyPlan firstIds firstPlan (Moment.at 0)).leaves .empty) :=
    ⟨applied, commits⟩
  exact registerHistory_finds ((EventSystem.Reachable.start rfl).step stepped)
    (by decide +kernel)

end

end FauPortalen.Register

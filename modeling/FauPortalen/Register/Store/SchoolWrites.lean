import FauPortalen.Register.Store.Effects

/-! What each school operation writes: the rows it changes and creates show in the snapshot as the
operation describes them, and the slug it gives up goes into history.
-/

set_option linter.unusedSectionVars false

namespace FauPortalen.Register

open FauPortalen.Foundations Transaction Applier

variable {Id : Type} [LinearOrder Id] {s after : RegisterTables Id}

-----------------------------------------------------------------------------------------
-- What an operation writes

/-- The row of a school. -/
def RegisterTables.schoolRow (s : RegisterTables Id) (id : Id) : Option (SchoolRow Id) :=
  s.schools.find? (·.id = id)

/-- The slug an operation gives up, with the municipality it had it in when the operation says so.
-/
def SchoolOp.givesUp? (s : RegisterTables Id) : SchoolOp Id → Option (Id × Option Id × String)
  | .close id _ _ _ => ((s.schoolRow id).bind (·.slug)).map fun old => (id, none, old)
  | .rename id _ _ slug => (SlugChange.given slug).map fun old => (id, none, old)
  | .move id source _ slug => (SlugChange.given slug).map fun old => (id, some source, old)
  | .updateAttributes .. | .create .. => none

def SchoolOp.slugRows (op : SchoolOp Id) (s : RegisterTables Id) (now : Timestamp)
    : List (SchoolSlugRow Id) :=
  match op.givesUp? s with
  | some (id, municipality, old) => schoolSlugRows s id municipality old now
  | none => []

/-- How the rows of the schools change: the old ones keep their ids and how they became visible and
show as the operation leaves them, and the new ones show as it creates them.
-/
structure SchoolOp.Shows [SearchData] (op : SchoolOp Id) (ids : NewIds Id)
    (s after : RegisterTables Id) (change : SchoolRow Id → SchoolRow Id)
    (new : List (SchoolRow Id)) : Prop where
  table : after.schools = s.schools.map change ++ new
  keeps : ∀ row, (change row).id = row.id ∧ (change row).createdAt = row.createdAt
    ∧ (change row).verifiedAt = row.verifiedAt ∧ (change row).successorId = row.successorId
  /-- Only a rename changes what a school is found by. -/
  named : ∀ row, renamed? op ≠ some row.id → (change row).displayName = row.displayName
    ∧ (change row).registerName = row.registerName ∧ (change row).searchText = row.searchText
  changed : ∀ row ∈ s.schools,
    after.schoolSnapshot (change row) = op.onRow ids (s.schoolSnapshot row)
  created : new.map after.schoolSnapshot = op.rows ids
  found : ∀ row ∈ new,
    row.searchText = searchText (row.displayName :: row.registerName.toList)
  linked : ∀ row ∈ new, row.successorId = none

structure SchoolOp.Writes [SearchData] (op : SchoolOp Id) (ids : NewIds Id) (now : Timestamp)
    (s after : RegisterTables Id) : Prop where
  constraints : after.Constraints
  resolves : op.Resolves ids
  present : ∀ id, op.target? = some id → id ∈ s.schoolIds
  rows : ∃ change new, op.Shows ids s after change new
  slugs : after.schoolSlugs = s.schoolSlugs ++ op.slugRows s now
  others : after = { s with schools := after.schools, schoolSlugs := after.schoolSlugs }

-----------------------------------------------------------------------------------------
-- One operation

section

variable [SearchData]

/-- An update of the target's row shows as the operation's change of it. -/
theorem SchoolOp.Shows.of_target {op : SchoolOp Id} {ids : NewIds Id} {id : Id}
    {change : SchoolRow Id → SchoolRow Id} (target : op.target? = some id)
    (table : after.schools = s.schools.map (changeAt SchoolRow.id id change))
    (tenants : after.tenants = s.tenants)
    (keeps : ∀ row, (change row).id = row.id ∧ (change row).createdAt = row.createdAt
      ∧ (change row).verifiedAt = row.verifiedAt ∧ (change row).successorId = row.successorId)
    (named : renamed? op = none → ∀ row, (change row).displayName = row.displayName
      ∧ (change row).registerName = row.registerName ∧ (change row).searchText = row.searchText)
    (changed : ∀ row, s.schoolSnapshot (change row) = op.change ids (s.schoolSnapshot row))
    : op.Shows ids s after (changeAt SchoolRow.id id change) [] := by
  have rows : op.rows ids = [] := by
    cases op with
    | create => cases target
    | _ => rfl
  have same (row : SchoolRow Id) : after.schoolSnapshot row = s.schoolSnapshot row := by
    simp [RegisterTables.schoolSnapshot, RegisterTables.hasLiveFau, tenants]
  refine ⟨by rw [table, List.append_nil], ?_, ?_, ?_, by rw [rows]; rfl,
    fun row none => (List.not_mem_nil none).elim, fun row none => (List.not_mem_nil none).elim⟩
  · intro row
    unfold changeAt
    split
    · exact keeps row
    · exact ⟨rfl, rfl, rfl, rfl⟩
  · intro row differ
    by_cases own : row.id = id
    · rw [changeAt_of_eq own]
      refine named ?_ row
      cases op with
      | rename =>
          cases target
          exact absurd (congrArg some own.symm) differ
      | _ => rfl
    · rw [changeAt_of_ne own]
      exact ⟨rfl, rfl, rfl⟩
  · intro row _
    rw [same]
    by_cases own : row.id = id
    · rw [changeAt_of_eq own, changed row]
      exact (SchoolOp.onRow_of_eq (target.trans (congrArg some own.symm))).symm
    · rw [changeAt_of_ne own]
      refine (SchoolOp.onRow_of_ne fun here => own ?_).symm
      exact Option.some.inj (here.symm.trans target)

variable [OsloZone] {ids : NewIds Id} {moment : Moment}

/-- Giving up a slug only writes the history. -/
theorem of_giveUpSlug {id : Id} {municipality : Option Id} {slug : Option String} {now : Timestamp}
    {α : Type} {next : Unit → RegisterTx Id α} {a : α}
    (commits : (giveUpSlug id municipality slug now >>= next).Commits s a after)
    : (next ()).Commits { s with
        schoolSlugs := s.schoolSlugs
          ++ slug.elim [] fun old => schoolSlugRows s id municipality old now } a after := by
  cases slug with
  | none => simpa [giveUpSlug] using commits
  | some old => exact (commits_statement_bind.mp commits).2

/-- A creation writes a new school that nobody has yet. -/
theorem SchoolOp.writes_create {new : Nat} {municipality : Ref Id}
    {orgnr registerName displayName : String} {slug : Option String}
    {verification : CreateVerification} {inScope : Bool} {attributes : SchoolAttributes}
    {sourceChangedAt : Option Timestamp} {u : Unit}
    (commits : (Applier.applySchoolOp ids moment (.create new municipality orgnr registerName
      displayName slug verification inScope attributes sourceChangedAt)).Commits s u after)
    (holds : s.Constraints)
    : SchoolOp.Writes (.create new municipality orgnr registerName displayName slug verification
        inScope attributes sourceChangedAt) ids moment.now s after := by
  rw [Applier.applySchoolOp, commits_expect_bind] at commits
  obtain ⟨id, named, commits⟩ := commits
  rw [commits_expect_bind] at commits
  obtain ⟨home, located, commits⟩ := commits
  obtain ⟨rfl, final⟩ := commits_statement.mp commits
  let created : SchoolRow Id := {
    id := id
    municipalityId := home
    origin := .register
    displayName := displayName
    registerName := some registerName
    displayNameCurated := false
    slug := slug
    verification := verification.toVerification
    verifiedAt := none
    orgnr := some orgnr
    attributes := attributes
    inScope := inScope
    scopeOverride := none
    status := .active
    closedOn := none
    closureReason := none
    successorId := none
    sourceChangedAt := sourceChangedAt
    lastSeenInSourceAt := some moment.now
    searchText := searchText [displayName, registerName]
    createdAt := moment.now
  }
  have apart : id ∉ s.schoolIds := by
    have keys := final.schoolKeys
    simp only [RegisterTables.schoolIds, List.map_append, List.map_cons, List.map_nil] at keys
    exact fun known => (List.nodup_append.mp keys).2.2 _ known _ (List.mem_singleton_self _) rfl
  have no_fau : s.hasLiveFau id = false := by
    refine List.any_eq_false.mpr fun row member live => apart ?_
    simp only [Bool.and_eq_true, decide_eq_true_eq] at live
    exact live.1 ▸ holds.tenantSchools row member
  refine ⟨final, ?_, fun _ none => (Option.some_ne_none _ none.symm).elim, ⟨fun row => row, [created], ?_⟩,
    (List.append_nil _).symm, rfl⟩
  · simp [SchoolOp.Resolves, named, located]
  · refine ⟨by rw [List.map_id'], fun _ => ⟨rfl, rfl, rfl, rfl⟩, fun _ _ => ⟨rfl, rfl, rfl⟩,
      ?_, ?_, ?_, ?_⟩
    · intro row _
      exact (SchoolOp.onRow_of_ne (by simp [SchoolOp.target?])).symm
    · have shown : s.schoolSnapshot created = createdSchool id home orgnr registerName displayName
          slug verification inScope attributes := by
        simp [RegisterTables.schoolSnapshot, createdSchool, created, no_fau]
      simp only [SchoolOp.rows, named, located, ← shown]
      rfl
    · intro row last
      rw [List.mem_singleton.mp last]
      rfl
    · intro row last
      rw [List.mem_singleton.mp last]

theorem SchoolOp.writes_updateAttributes {id : Id} {attributes : SchoolAttributes} {u : Unit}
    (commits : (Applier.applySchoolOp ids moment (.updateAttributes id attributes)).Commits s u
      after)
    : SchoolOp.Writes (.updateAttributes id attributes) ids moment.now s after := by
  rw [Applier.applySchoolOp] at commits
  obtain ⟨present, rfl, final⟩ := of_updateSchool commits
  refine ⟨final, trivial, ?_, ⟨_, [], SchoolOp.Shows.of_target rfl rfl rfl
    (fun _ => ⟨rfl, rfl, rfl, rfl⟩) (fun _ _ => ⟨rfl, rfl, rfl⟩) fun _ => rfl⟩,
    (List.append_nil _).symm, rfl⟩
  intro wanted target
  cases target
  exact present

theorem SchoolOp.writes_rename {id : Id} {registerName : String} {displayName : Option String}
    {slug : Option SlugChange} {u : Unit}
    (commits : (Applier.applySchoolOp ids moment (.rename id registerName displayName
      slug)).Commits s u after)
    : SchoolOp.Writes (.rename id registerName displayName slug) ids moment.now s after := by
  rw [Applier.applySchoolOp] at commits
  obtain ⟨present, rfl, final⟩ := of_updateSchool (of_giveUpSlug commits)
  refine ⟨final, trivial, ?_, ⟨_, [], SchoolOp.Shows.of_target rfl rfl rfl
    (fun _ => ⟨rfl, rfl, rfl, rfl⟩) (fun none => (Option.some_ne_none _ none).elim) ?_⟩, ?_, rfl⟩
  · intro wanted target
    cases target
    exact present
  · intro row
    cases slug <;> rfl
  · simp only [SchoolOp.slugRows, SchoolOp.givesUp?]
    cases SlugChange.given slug <;> rfl

theorem SchoolOp.writes_move {id source : Id} {target : Ref Id} {slug : Option SlugChange}
    {u : Unit}
    (commits : (Applier.applySchoolOp ids moment (.move id source target slug)).Commits s u after)
    : SchoolOp.Writes (.move id source target slug) ids moment.now s after := by
  rw [Applier.applySchoolOp] at commits
  obtain ⟨home, located, commits⟩ := commits_expect_bind.mp (of_giveUpSlug commits)
  obtain ⟨present, rfl, final⟩ := of_updateSchool commits
  refine ⟨final, by simp [SchoolOp.Resolves, located], ?_, ⟨_, [], SchoolOp.Shows.of_target rfl rfl
    rfl (fun _ => ⟨rfl, rfl, rfl, rfl⟩) (fun _ _ => ⟨rfl, rfl, rfl⟩) ?_⟩, ?_, rfl⟩
  · intro wanted named
    cases named
    exact present
  · intro row
    simp only [SchoolOp.change, located, Option.getD_some]
    cases slug <;> rfl
  · simp only [SchoolOp.slugRows, SchoolOp.givesUp?]
    cases SlugChange.given slug <;> rfl

theorem SchoolOp.writes_close {id : Id} {reason : ClosureReason} {closedOn : Date}
    {successor : Option (Ref Id)} {u : Unit}
    (commits : (Applier.applySchoolOp ids moment (.close id reason closedOn successor)).Commits s u
      after)
    : SchoolOp.Writes (.close id reason closedOn successor) ids moment.now s after := by
  rw [Applier.applySchoolOp, commits_select_bind, commits_expect_bind] at commits
  obtain ⟨row, found, commits⟩ := commits
  obtain ⟨present, rfl, final⟩ := of_updateSchool (of_giveUpSlug commits)
  refine ⟨final, trivial, ?_, ⟨_, [], SchoolOp.Shows.of_target rfl rfl rfl
    (fun _ => ⟨rfl, rfl, rfl, rfl⟩) (fun _ _ => ⟨rfl, rfl, rfl⟩) ?_⟩, ?_, rfl⟩
  · intro wanted target
    cases target
    exact present
  · intro row
    simp only [SchoolOp.change, SchoolSnapshot.close, RegisterTables.schoolSnapshot]
    congr 1
    cases reason <;> simp
  · simp only [SchoolOp.slugRows, SchoolOp.givesUp?, RegisterTables.schoolRow, found,
      Option.bind_some]
    cases row.slug <;> rfl

/-- What any school operation writes. -/
theorem writes_of_applySchoolOp {op : SchoolOp Id} {u : Unit}
    (commits : (Applier.applySchoolOp ids moment op).Commits s u after) (holds : s.Constraints)
    : op.Writes ids moment.now s after := by
  cases op with
  | create => exact SchoolOp.writes_create commits holds
  | close => exact SchoolOp.writes_close commits
  | rename => exact SchoolOp.writes_rename commits
  | updateAttributes => exact SchoolOp.writes_updateAttributes commits
  | move => exact SchoolOp.writes_move commits

end

end FauPortalen.Register

import FauPortalen.Register.Sync.Testkit

/-! What the store guarantees of every snapshot, and the slug safety it relies on. -/

namespace FauPortalen.Register

open FauPortalen.Foundations

variable {Id : Type}

/-- No two schools of a municipality share a current slug, no held row has one, and no open
school's current slug was another open school's in that municipality.
-/
structure SlugSafe (snapshot : RegisterSnapshot Id) : Prop where
  unique : (currentSlugs snapshot).Nodup
  held : ∀ s ∈ snapshot.schools, s.verification = .held → s.slug = none
  history : ∀ s ∈ snapshot.schools, ∀ t ∈ snapshot.schools,
    s.status = .active → t.status = .active → s.id ≠ t.id →
    ∀ slug, s.slug = some slug → (s.municipalityId, slug, t.id) ∉ snapshot.schoolSlugHistory

/-- The constraints of the store that the planner relies on. -/
structure StoreConstraints (snapshot : RegisterSnapshot Id) : Prop where
  municipalityIds : (snapshot.municipalities.map (·.id)).Nodup
  schoolIds : (snapshot.schools.map (·.id)).Nodup
  orgnrs : (snapshot.schools.filterMap (·.orgnr)).Nodup
  numbers : ((activeMunicipalities snapshot).map (·.number)).Nodup
  slugSafe : SlugSafe snapshot
  /-- The foreign keys of schools and of their slug history. -/
  located : ∀ s ∈ snapshot.schools,
    s.municipalityId ∈ snapshot.municipalities.map (·.id)
  historyLocated : ∀ row ∈ snapshot.schoolSlugHistory,
    row.1 ∈ snapshot.municipalities.map (·.id)
  historyOwned : ∀ row ∈ snapshot.schoolSlugHistory,
    row.2.2 ∈ snapshot.schools.map (·.id)

/-- The keys of the rows: ids are distinct, and so are the numbers of open municipalities. -/
structure RowKeys (snapshot : RegisterSnapshot Id) : Prop where
  municipalityIds : (snapshot.municipalities.map (·.id)).Nodup
  schoolIds : (snapshot.schools.map (·.id)).Nodup
  numbers : ((activeMunicipalities snapshot).map (·.number)).Nodup

theorem mem_orgnrPairs {snapshot : RegisterSnapshot Id} {orgnr : String} {s : SchoolSnapshot Id}
    : (orgnr, s) ∈ snapshot.schools.filterMap (fun s => s.orgnr.map fun o => (o, s))
      ↔ s ∈ snapshot.schools ∧ s.orgnr = some orgnr := by
  simp only [List.mem_filterMap, Option.map_eq_some_iff, Prod.mk.injEq]
  constructor
  · intro ⟨_, member, _, found, same, same'⟩
    subst same same'
    exact ⟨member, found⟩
  · intro ⟨member, found⟩
    exact ⟨s, member, orgnr, found, rfl, rfl⟩

/-- A school found by an organisation number has it, unique or not. -/
theorem schoolByOrgnr_mem {snapshot : RegisterSnapshot Id} {orgnr : String}
    {s : SchoolSnapshot Id} (found : schoolByOrgnr snapshot orgnr = some s)
    : s ∈ snapshot.schools ∧ s.orgnr = some orgnr :=
  mem_orgnrPairs.mp (Lookup.mem_of_ofPairs found)

namespace StoreConstraints

variable {snapshot : RegisterSnapshot Id}

/-- Two rows with one id are one row. -/
theorem school_ext (store : StoreConstraints snapshot) {s t : SchoolSnapshot Id}
    (hs : s ∈ snapshot.schools) (ht : t ∈ snapshot.schools) (same : s.id = t.id)
    : s = t :=
  List.inj_on_of_nodup_map store.schoolIds hs ht same

theorem rowKeys (store : StoreConstraints snapshot) : RowKeys snapshot :=
  ⟨store.municipalityIds, store.schoolIds, store.numbers⟩

/-- The school found by an organisation number is the one that has it. -/
theorem schoolByOrgnr_eq_some (store : StoreConstraints snapshot) {orgnr : String}
    {s : SchoolSnapshot Id}
    : schoolByOrgnr snapshot orgnr = some s ↔ s ∈ snapshot.schools ∧ s.orgnr = some orgnr := by
  refine ⟨schoolByOrgnr_mem, ?_⟩
  intro present
  refine Lookup.ofPairs_of_mem ?_ (mem_orgnrPairs.mpr present)
  have keys : (snapshot.schools.filterMap fun s => s.orgnr.map fun o => (o, s)).map Prod.fst
      = snapshot.schools.filterMap (·.orgnr) := by
    simp [List.map_filterMap, Function.comp_def]
  rw [keys]
  exact store.orgnrs

/-- Two schools of one municipality with one current slug are one school. -/
theorem school_of_slug (store : StoreConstraints snapshot) {s t : SchoolSnapshot Id}
    {slug : String} (hs : s ∈ snapshot.schools) (ht : t ∈ snapshot.schools)
    (here : s.municipalityId = t.municipalityId) (left : s.slug = some slug)
    (right : t.slug = some slug)
    : s = t :=
  eq_of_nodup_filterMap store.slugSafe.unique hs ht (x := (s.municipalityId, slug))
    (by simp [left]) (by simp [right, here])

end StoreConstraints

-----------------------------------------------------------------------------------------
-- A small register

def sampleUnit (orgnr name : String) (isActive : Bool) : NsrUnit :=
  {
    orgnr := orgnr
    name := name
    municipalityNumber := "0301"
    isSchool := true
    isActive := isActive
    isPrimarySchool := true
    isPrivate := false
    categoryIds := []
    nace := [(1, "85.201")]
    gradeFrom := none
    gradeTo := none
    language := none
    website := none
    visiting := ⟨none, none, none⟩
    postal := ⟨none, none, none⟩
    closure := if isActive then none else some ⟨"F", none⟩
    changedAt := none
  }

def sampleSchool (id : Nat) (orgnr name slug : String) : SchoolSnapshot Nat :=
  {
    id := id
    municipalityId := 1
    origin := .register
    orgnr := some orgnr
    registerName := some name
    displayName := name
    displayNameCurated := false
    slug := some slug
    verification := .listed
    status := .active
    inScope := true
    scopeOverride := none
    hasLiveFau := false
    attributes := .fromUnit (sampleUnit orgnr name true)
  }

/-- One municipality with two schools. -/
def sampleRegister : RegisterSnapshot Nat :=
  {
    municipalities := [⟨1, "0301", "Oslo", some "Oslo", "03", "Oslo", "0301-oslo", .active,
      .kartverket, []⟩]
    schools := [
      sampleSchool 2 "975288001" "Ask skole" "ask-skole",
      sampleSchool 3 "975288002" "Bekk skole" "bekk-skole"]
    schoolOrgnrHistory := []
    schoolSlugHistory := []
    municipalitySlugHistory := []
  }

theorem sampleRegister_store : StoreConstraints sampleRegister where
  municipalityIds := by decide
  schoolIds := by decide
  orgnrs := by decide
  numbers := by decide
  slugSafe := ⟨by decide, by decide, by simp [sampleRegister]⟩
  located := by decide
  historyLocated := by decide
  historyOwned := by decide

section

variable [OsloZone]

/-- The first school has re-registered, the second has a new name. -/
def sampleInputs : SyncInputs :=
  {
    municipalities := [⟨"0301", "Oslo", "Oslo", "03", "Oslo", []⟩]
    codeChanges := []
    units := [
      sampleUnit "975288001" "Ask skole" false,
      sampleUnit "975288002" "Berg skole" true,
      sampleUnit "975288003" "Ask skole" true]
    kind := .seed
    moment := Moment.at 0
  }

/-- The sample's plan: close, create with the inherited slug, rename. -/
def samplePlan : SyncPlan Nat :=
  {
    municipalityOps := []
    schoolOps := [
      .close 2 .merged (osloToday 0) (some (.new 0)),
      .create 0 (.existing 1) "975288003" "Ask skole" "Ask skole" (some "ask-skole") .listed
        true (.fromUnit (sampleUnit "975288003" "Ask skole" true)) none,
      .rename 3 "Berg skole" (some "Berg skole") (some ⟨some "bekk-skole", "berg-skole"⟩)]
    reviews := []
    counts := { schoolsCreated := 1, schoolsRenamed := 1, schoolsClosed := 1 }
  }

end

end FauPortalen.Register

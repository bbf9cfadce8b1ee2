import FauPortalen.Foundations.DelimitedRecords
import FauPortalen.Foundations.Framing
import FauPortalen.Keys.Units
import FauPortalen.Register.Store.AppliedSearch
import Mathlib.Data.List.Lex

/-! The export of the schools that may be picked: their rows in every register that runs build, and
the file they are written to.
-/

set_option linter.unusedSectionVars false

namespace FauPortalen.Keys

def Uuid.numbers (id : Uuid) : List Nat := id.bytes.map UInt8.toNat

theorem Uuid.numbers_injective : Function.Injective Uuid.numbers := by
  intro id id' same
  have bytes : id.bytes = id'.bytes :=
    List.map_injective_iff.mpr (fun _ _ => UInt8.toNat_inj.mp) same
  cases id
  cases id'
  exact Uuid.mk.injEq .. ▸ bytes

/-- The order of the bytes, which is the order of a uuid column. -/
instance : LinearOrder Uuid where
  le id id' := id.numbers ≤ id'.numbers
  le_refl id := le_refl id.numbers
  le_trans _ _ _ := le_trans
  le_antisymm _ _ least most := Uuid.numbers_injective (le_antisymm least most)
  le_total id id' := le_total id.numbers id'.numbers
  toDecidableLE id id' := inferInstanceAs (Decidable (id.numbers ≤ id'.numbers))
  toDecidableEq := instDecidableEqUuid

end FauPortalen.Keys

namespace FauPortalen.Register

open FauPortalen.Foundations FauPortalen.Keys Transaction Applier

-----------------------------------------------------------------------------------------
-- The rows

/-- A school that may be picked: active, listed or verified, and effectively in scope. -/
def SchoolRow.isPickable {Id : Type} (row : SchoolRow Id) : Bool :=
  row.status = .active && (row.verification = .listed || row.verification = .verified)
    && row.scopeOverride.getD row.inScope

structure ExportRow where
  schoolId : Uuid
  orgnr : Option String
  municipalityNumber : String
  displayName : String
  path : String
  fauOrgnr : Option String
deriving DecidableEq

/-- A school with its municipality and that one's number. -/
structure JoinedSchool (Id : Type) where
  school : SchoolRow Id
  municipality : MunicipalityRow Id
  number : NumberRow Id

namespace RegisterTables

variable {Id : Type} [DecidableEq Id]

/-- The pickable schools, joined with their municipalities and the current numbers of these. -/
def joinedSchools (s : RegisterTables Id) : List (JoinedSchool Id) :=
  (s.schools.filter (·.isPickable)).flatMap fun school =>
    (s.municipalities.filter (·.id = school.municipalityId)).flatMap fun municipality =>
      (s.numbers.filter fun n => n.municipalityId = municipality.id && n.validUntil.isNone).map
        (⟨school, municipality, ·⟩)

/-- The linked FAU of a school. `none` is a subquery with more than one row, which fails. -/
def linkedFau (s : RegisterTables Id) (id : Id) : Option (Option String) :=
  match s.fauLinks.filter fun link => link.schoolId = id && link.isLinked with
  | [] => some none
  | [link] => some (some link.fauOrgnr)
  | _ => none

end RegisterTables

/-- A school without a slug has its id for a path. -/
def JoinedSchool.path (joined : JoinedSchool Uuid) : String :=
  match joined.school.slug with
  | none => "/s/" ++ String.ofList joined.school.id.text
  | some slug => "/fau/" ++ joined.municipality.slug ++ "/" ++ slug

def RegisterTables.exportRow (s : RegisterTables Uuid) (joined : JoinedSchool Uuid)
    : Option ExportRow :=
  (s.linkedFau joined.school.id).map fun fauOrgnr =>
    {
      schoolId := joined.school.id
      orgnr := joined.school.orgnr
      municipalityNumber := joined.number.number
      displayName := joined.school.displayName
      path := joined.path
      fauOrgnr := fauOrgnr
    }

/-- Every pickable school, by municipality number and then id. -/
def exportRows (s : RegisterTables Uuid) : Option (List ExportRow) :=
  (sortOn (fun joined => toLex (joined.number.number, joined.school.id)) s.joinedSchools).mapM
    s.exportRow

-----------------------------------------------------------------------------------------
-- The municipalities that runs build

section

variable {Id : Type} [LinearOrder Id] [SearchData] {s after : RegisterTables Id}

/-- No run dissolves a municipality. -/
def RegisterTables.AllOpen (s : RegisterTables Id) : Prop :=
  ∀ row ∈ s.municipalities, row.status = .active

namespace RegisterTables.AllOpen

theorem of_municipalities (h : s.AllOpen) (same : after.municipalities = s.municipalities)
    : after.AllOpen := fun row member => h row (same ▸ member)

/-- A municipality operation keeps the status of every row and creates an open one. -/
theorem municipalityOp (h : s.AllOpen) {op : MunicipalityOp Id} {ids : NewIds Id}
    {now : Timestamp} {touched : Id} (writes : op.Writes ids now touched s after)
    : after.AllOpen := by
  obtain ⟨change, new, shows_⟩ := writes.rows
  intro row member
  rw [shows_.table] at member
  rcases List.mem_append.mp member with old | created
  · obtain ⟨before, inside, rfl⟩ := List.mem_map.mp old
    rw [(shows_.keeps before).2.2]
    exact h before inside
  · have listed := List.mem_map_of_mem (f := after.municipalitySnapshot) created
    rw [shows_.created] at listed
    obtain ⟨m, made, shown⟩ := List.mem_map.mp listed
    have status := (RegisterTables.inOrder_of_municipalitySnapshot shown.symm).2.2.2.1
    rw [← status]
    cases op with
    | create =>
        obtain ⟨_, _, rfl⟩ := by simpa [MunicipalityOp.rows] using made
        rfl
    | _ => cases made

theorem refreshMunicipality (h : s.AllOpen) {id : Id} {u : Unit}
    (commits : (refreshMunicipalitySearchText id).Commits s u after) (holds : s.Constraints)
    : after.AllOpen := by
  obtain ⟨_, rfl⟩ := of_refreshMunicipalitySearchText commits holds
  intro row member
  obtain ⟨before, inside, rfl⟩ := List.mem_map.mp member
  unfold changeAt
  split
  · exact h before inside
  · exact h before inside

/-- A committed plan leaves every municipality open, phase by phase. -/
theorem applyPlan [OsloZone] (h : s.AllOpen) (stands : s.Stands) {ids : NewIds Id}
    {plan : SyncPlan Id} {moment : Moment} {applied : AppliedCounts Id}
    (commits : (applyPlan ids plan moment).Commits s applied after)
    : after.AllOpen := by
  obtain ⟨touched, links, municipalities, refreshed, schools, linked, found, phases⟩ :=
    applyPlan_phases commits
  have first : municipalities.Constraints ∧ municipalities.AllOpen := by
    refine phases.municipalityOps.foldlM_keeps
      (P := fun _ (s : RegisterTables Id) => s.Constraints ∧ s.AllOpen) ?_
      ⟨stands.constraints, h⟩
    rintro op _ touched s next after ⟨holds, isOpen⟩ stepped
    obtain ⟨id, middle, written, ended⟩ := commits_bind.mp stepped
    obtain ⟨rfl, rfl⟩ := commits_pure.mp ended
    have writes := writes_of_applyMunicipalityOp written holds
    exact ⟨writes.constraints, isOpen.municipalityOp writes⟩
  have second : refreshed.Constraints ∧ refreshed.AllOpen := by
    refine phases.municipalityTexts.forM_keeps
      (P := fun s : RegisterTables Id => s.Constraints ∧ s.AllOpen) ?_ first
    rintro id _ s after ⟨holds, isOpen⟩ stepped
    exact ⟨(of_refreshMunicipalitySearchText stepped holds).1,
      isOpen.refreshMunicipality stepped holds⟩
  have third : schools.Constraints ∧ schools.AllOpen := by
    refine phases.schoolOps.foldlM_keeps
      (P := fun _ (s : RegisterTables Id) => s.Constraints ∧ s.AllOpen) ?_ second
    rintro op _ _ s _ after ⟨holds, isOpen⟩ stepped
    have writes := writes_of_applySchoolOp (of_schoolPass stepped).1 holds
    exact ⟨writes.constraints, isOpen.of_municipalities (by rw [writes.others])⟩
  have fourth : linked.Constraints ∧ linked.AllOpen := by
    refine phases.successors.forM_keeps
      (P := fun s : RegisterTables Id => s.Constraints ∧ s.AllOpen) ?_ third
    rintro link _ s after ⟨_, isOpen⟩ stepped
    obtain ⟨_, rfl, final⟩ := of_updateSchool stepped
    exact ⟨final, isOpen⟩
  have fifth : found.Constraints ∧ found.AllOpen := by
    refine phases.schoolTexts.forM_keeps
      (P := fun s : RegisterTables Id => s.Constraints ∧ s.AllOpen) ?_ fourth
    rintro id _ s after ⟨holds, isOpen⟩ stepped
    obtain ⟨final, rfl⟩ := of_refreshSchoolSearchText stepped holds
    exact ⟨final, isOpen⟩
  obtain ⟨table, _, rfl⟩ := phases.reviews
  exact fifth.2

end RegisterTables.AllOpen

theorem registerHistory_allOpen [OsloZone] (reached : registerHistory.Reachable s)
    : s.AllOpen := by
  have both : s.Stands ∧ s.AllOpen := by
    refine reached.keeps (I := fun s : RegisterTables Id => s.Stands ∧ s.AllOpen) ?_ ?_
    · intro s begun
      obtain rfl : s = .empty := begun
      exact ⟨RegisterTables.empty_stands, fun _ none => (List.not_mem_nil none).elim⟩
    · rintro s event after ⟨stands, isOpen⟩ stepped
      cases event with
      | run ids plan moment =>
          obtain ⟨applied, commits⟩ := stepped
          exact ⟨stands.applyPlan commits, isOpen.applyPlan stands commits⟩
      | elsewhere =>
          exact ⟨stands.changesAround stepped,
            isOpen.of_municipalities (by rw [stepped.register])⟩
  exact both.2

end

-----------------------------------------------------------------------------------------
-- The rows of a register

section

variable {Id : Type} [LinearOrder Id] {s : RegisterTables Id}

/-- A school's municipality is joined once, with its one current number. -/
theorem RegisterTables.joined_one (holds : s.Constraints) (stand : s.NumbersStand)
    (isOpen : s.AllOpen) {school : SchoolRow Id} (member : school ∈ s.schools)
    : ∃ municipality ∈ s.municipalities, ∃ number ∈ s.numbers,
        municipality.id = school.municipalityId ∧ number.municipalityId = municipality.id
        ∧ number.validUntil = none
        ∧ ((s.municipalities.filter (·.id = school.municipalityId)).flatMap fun municipality =>
            (s.numbers.filter fun n =>
                n.municipalityId = municipality.id && n.validUntil.isNone).map
              (JoinedSchool.mk school municipality))
          = [⟨school, municipality, number⟩] := by
  obtain ⟨municipality, known, same⟩ := List.mem_map.mp (holds.schoolMunicipalities school member)
  have one : s.municipalities.filter (·.id = school.municipalityId) = [municipality] := by
    rw [← same]
    exact filter_key_of_nodup holds.municipalityKeys known
  have counted := stand municipality known
  rw [isOpen municipality known, if_pos rfl, RegisterTables.currentCount,
    List.countP_eq_length_filter, List.filter_filter] at counted
  obtain ⟨number, alone⟩ := List.length_eq_one_iff.mp counted
  have joined : s.numbers.filter (fun n => n.municipalityId = municipality.id
      && n.validUntil.isNone) = [number] := by
    rw [← alone]
    exact List.filter_congr fun n _ => Bool.and_comm _ _
  obtain ⟨present, own⟩ := List.mem_filter.mp (joined ▸ List.mem_singleton_self number)
  obtain ⟨own, current⟩ : number.municipalityId = municipality.id ∧ number.validUntil = none := by
    simpa using own
  refine ⟨municipality, known, number, present, same, own, current, ?_⟩
  rw [one, List.flatMap_singleton, joined, List.map_singleton]

/-- The parts of a joined school belong together. -/
structure JoinedSchool.Fits (joined : JoinedSchool Id) (s : RegisterTables Id) : Prop where
  school : joined.school ∈ s.schools
  municipality : joined.municipality ∈ s.municipalities
  number : joined.number ∈ s.numbers
  lies : joined.municipality.id = joined.school.municipalityId
  numbered : joined.number.municipalityId = joined.municipality.id
  current : joined.number.validUntil = none

/-- Every pickable school is joined once. -/
theorem RegisterTables.joinedSchools_fit (holds : s.Constraints) (stand : s.NumbersStand)
    (isOpen : s.AllOpen)
    : s.joinedSchools.map (·.school) = s.schools.filter (·.isPickable)
      ∧ ∀ joined ∈ s.joinedSchools, joined.Fits s := by
  have one (school : SchoolRow Id) (member : school ∈ s.schools.filter (·.isPickable)) :=
    joined_one holds stand isOpen (List.mem_filter.mp member).1
  constructor
  · unfold joinedSchools
    rw [List.map_flatMap]
    refine Eq.trans (List.flatMap_congr fun school member => ?_) (List.flatMap_singleton' _)
    obtain ⟨_, _, _, _, _, _, _, alone⟩ := one school member
    rw [alone]
    rfl
  · intro joined member
    obtain ⟨school, pickable, inside⟩ := List.mem_flatMap.mp member
    obtain ⟨municipality, known, number, present, lies, numbered, current, alone⟩ :=
      one school pickable
    rw [alone] at inside
    obtain rfl := List.mem_singleton.mp inside
    exact ⟨(List.mem_filter.mp pickable).1, known, present, lies, numbered, current⟩

/-- At most one FAU is linked to a school. -/
theorem RegisterTables.linkedFau_eq (holds : s.Constraints) (id : Id)
    : ∃ fau, s.linkedFau id = some fau
        ∧ ∀ orgnr, fau = some orgnr ↔ ∃ link ∈ s.fauLinks,
            link.schoolId = id ∧ link.isLinked = true ∧ link.fauOrgnr = orgnr := by
  have split : s.fauLinks.filter (fun link => link.schoolId = id && link.isLinked)
      = (s.fauLinks.filter (·.isLinked)).filter (·.schoolId = id) := by
    rw [List.filter_filter]
  have known (link : FauLinkRow Id)
      : link ∈ (s.fauLinks.filter (·.isLinked)).filter (·.schoolId = id)
        ↔ link ∈ s.fauLinks ∧ link.schoolId = id ∧ link.isLinked = true := by
    simp only [List.mem_filter, decide_eq_true_eq, and_assoc]
    tauto
  unfold linkedFau
  rw [split]
  cases found : (s.fauLinks.filter (·.isLinked)).filter (·.schoolId = id) with
  | nil =>
      refine ⟨none, rfl, fun orgnr => ⟨fun none => (Option.some_ne_none _ none.symm).elim, ?_⟩⟩
      rintro ⟨link, member, own, linked, _⟩
      have inside := (known link).mpr ⟨member, own, linked⟩
      rw [found] at inside
      cases inside
  | cons link others =>
      have inside : link ∈ (s.fauLinks.filter (·.isLinked)).filter (·.schoolId = id) :=
        found ▸ List.mem_cons_self
      obtain ⟨member, own⟩ := List.mem_filter.mp inside
      obtain rfl : link.schoolId = id := by simpa using own
      have alone := filter_key_of_nodup holds.linkedSchools member
      rw [alone] at found known
      obtain ⟨_, rfl⟩ := List.cons.inj found
      refine ⟨some link.fauOrgnr, rfl, fun orgnr => ?_⟩
      constructor
      · intro same
        obtain ⟨present, here, linked⟩ := (known link).mp (List.mem_singleton_self link)
        exact ⟨link, present, here, linked, Option.some_inj.mp same⟩
      · rintro ⟨other, present, here, linked, rfl⟩
        rw [List.mem_singleton.mp ((known other).mpr ⟨present, here, linked⟩)]

end

-----------------------------------------------------------------------------------------
-- The export of a register

theorem slash_not_mem_slug {Id : Type} {row : MunicipalityRow Id} (valid : row.check = true)
    : '/' ∉ row.slug.toList := by
  simp only [MunicipalityRow.check, isMunicipalitySlug, Bool.and_eq_true, decide_eq_true_eq]
    at valid
  obtain ⟨_, ⟨⟨⟨_, digits⟩, hyphen⟩, words⟩, _⟩ := valid
  intro inside
  rw [← List.take_append_drop 4 row.slug.toList] at inside
  rcases List.mem_append.mp inside with number | rest
  · exact absurd (List.all_eq_true.mp digits '/' number) (by decide)
  · cases dropped : row.slug.toList.drop 4 with
    | nil =>
        rw [dropped] at rest
        cases rest
    | cons c others =>
        rw [dropped, List.head?_cons, Option.some_inj] at hyphen
        have same : row.slug.toList.drop 5 = others := by
          rw [← List.tail_drop, dropped, List.tail_cons]
        rw [dropped, hyphen] at rest
        rcases List.mem_cons.mp rest with first | later
        · exact absurd first (by decide)
        · have chars := (slugFormat_iff.mpr (same ▸ words)).chars '/' later
          revert chars
          decide

/-- Schools with one path are one school. -/
theorem JoinedSchool.path_inj {s : RegisterTables Uuid} (holds : s.Constraints)
    {joined other : JoinedSchool Uuid} (fits : joined.Fits s) (fits' : other.Fits s)
    (same : joined.path = other.path)
    : joined.school.id = other.school.id := by
  have texts := congrArg String.toList same
  unfold JoinedSchool.path at texts
  cases slug : joined.school.slug with
  | none =>
      cases slug' : other.school.slug with
      | none =>
          simp only [slug, slug', String.toList_append, String.toList_ofList] at texts
          exact Uuid.text_injective (List.append_cancel_left texts)
      | some taken =>
          simp [slug, slug'] at texts
  | some taken =>
      cases slug' : other.school.slug with
      | none => simp [slug, slug'] at texts
      | some taken' =>
          simp only [slug, slug', String.toList_append, List.append_assoc] at texts
          obtain ⟨municipalities, schools⟩ := append_separator_inj
            (slash_not_mem_slug (holds.municipalityChecks _ fits.municipality))
            (slash_not_mem_slug (holds.municipalityChecks _ fits'.municipality))
            (List.append_cancel_left texts)
          have one : joined.municipality = other.municipality :=
            List.inj_on_of_nodup_map holds.municipalitySlugs fits.municipality fits'.municipality
              (String.toList_inj.mp municipalities)
          have lies : joined.school.municipalityId = other.school.municipalityId := by
            rw [← fits.lies, ← fits'.lies, one]
          have schools : taken = taken' := String.toList_inj.mp schools
          exact congrArg SchoolRow.id <| eq_of_nodup_filterMap holds.currentSlugs fits.school
            fits'.school (congrArg _ slug) (by rw [slug', lies, schools]; rfl)

/-- What the export says of a school. -/
structure ExportRow.Describes (row : ExportRow) (s : RegisterTables Uuid)
    (school : SchoolRow Uuid) : Prop where
  id : row.schoolId = school.id
  orgnr : row.orgnr = school.orgnr
  name : row.displayName = school.displayName
  number : ∃ n ∈ s.numbers, n.municipalityId = school.municipalityId ∧ n.validUntil = none
    ∧ row.municipalityNumber = n.number
  unslugged : school.slug = none → row.path = "/s/" ++ String.ofList school.id.text
  slugged : ∀ slug, school.slug = some slug →
    ∃ m ∈ s.municipalities, m.id = school.municipalityId
      ∧ row.path = "/fau/" ++ m.slug ++ "/" ++ slug
  fau : ∀ orgnr, row.fauOrgnr = some orgnr ↔ ∃ link ∈ s.fauLinks,
    link.schoolId = school.id ∧ link.isLinked = true ∧ link.fauOrgnr = orgnr

/-- A joined school has a row, which describes it. -/
theorem RegisterTables.exportRow_describes {s : RegisterTables Uuid} (holds : s.Constraints)
    {joined : JoinedSchool Uuid} (fits : joined.Fits s)
    : ∃ row, s.exportRow joined = some row ∧ row.Describes s joined.school
        ∧ row.municipalityNumber = joined.number.number ∧ row.path = joined.path := by
  obtain ⟨fau, linked, known⟩ := linkedFau_eq holds joined.school.id
  refine ⟨_, by rw [exportRow, linked]; rfl, ⟨rfl, rfl, rfl, ?_, ?_, ?_, known⟩, rfl, rfl⟩
  · exact ⟨joined.number, fits.number, fits.numbered.trans fits.lies, fits.current, rfl⟩
  · intro none_
    simp only [JoinedSchool.path, none_]
  · intro slug some_
    exact ⟨joined.municipality, fits.municipality, fits.lies, by
      simp only [JoinedSchool.path, some_]⟩

/-- Rows of joined schools that are in order, one of each. -/
theorem RegisterTables.exportRows_all {s : RegisterTables Uuid} (holds : s.Constraints)
    {sorted : List (JoinedSchool Uuid)} (fit : ∀ joined ∈ sorted, joined.Fits s)
    : ∃ rows, sorted.mapM s.exportRow = some rows
        ∧ List.Forall₂ (fun joined row => ExportRow.Describes row s joined.school
            ∧ row.municipalityNumber = joined.number.number ∧ row.path = joined.path) sorted rows
      := by
  induction sorted with
  | nil => exact ⟨[], rfl, .nil⟩
  | cons joined rest ih =>
      obtain ⟨row, made, told⟩ := exportRow_describes holds (fit joined List.mem_cons_self)
      obtain ⟨rows, others, each⟩ := ih fun other later =>
        fit other (List.mem_cons_of_mem _ later)
      refine ⟨row :: rows, ?_, .cons told each⟩
      rw [List.mapM_cons, made, others]
      rfl

section

variable [SearchData] [OsloZone] {s : RegisterTables Uuid}

/-- In every register that runs build, the export succeeds and has one row for each pickable
school, which describes it; the rows are in order, and no two of them have the same path.
-/
theorem registerHistory_exports (reached : registerHistory.Reachable s)
    : ∃ rows schools, exportRows s = some rows
        ∧ schools.Perm (s.schools.filter (·.isPickable))
        ∧ List.Forall₂ (fun school row => ExportRow.Describes row s school) schools rows
        ∧ rows.Pairwise (fun row other => toLex (row.municipalityNumber, row.schoolId)
            < toLex (other.municipalityNumber, other.schoolId))
        ∧ (rows.map (·.path)).Nodup := by
  have stands := registerHistory_stands reached
  have holds := stands.constraints
  obtain ⟨joined, fits⟩ :=
    RegisterTables.joinedSchools_fit holds stands.numbers (registerHistory_allOpen reached)
  let key := fun joined : JoinedSchool Uuid => toLex (joined.number.number, joined.school.id)
  let sorted := sortOn key s.joinedSchools
  have fit : ∀ joined ∈ sorted, joined.Fits s := fun joined member =>
    fits joined (mem_sortOn.mp member)
  obtain ⟨rows, exported, each⟩ := RegisterTables.exportRows_all holds fit
  have schools : (sorted.map (·.school)).Perm (s.schools.filter (·.isPickable)) :=
    joined ▸ (perm_sortOn key s.joinedSchools).map (·.school)
  have distinct : sorted.Pairwise fun joined other => joined.school.id ≠ other.school.id := by
    have ids : ((s.schools.filter (·.isPickable)).map (·.id)).Nodup :=
      holds.schoolKeys.sublist (List.filter_sublist.map _)
    have nodup := (schools.map SchoolRow.id).nodup_iff.mpr ids
    rw [List.map_map] at nodup
    exact List.pairwise_map.mp nodup
  refine ⟨rows, sorted.map (·.school), exported, schools, ?_, ?_, ?_⟩
  · exact List.forall₂_map_left_iff.mpr (each.imp fun _ _ told => told.1)
  · -- the rows have the keys that the joined schools are sorted by
    have keys : sorted.map key
        = rows.map fun row => toLex (row.municipalityNumber, row.schoolId) := by
      rw [← List.forall₂_eq_eq_eq, List.forall₂_map_left_iff, List.forall₂_map_right_iff]
      exact each.imp fun _ _ told => by rw [told.2.1, told.1.id]
    have ordered : (sorted.map key).Pairwise (· < ·) := by
      refine List.pairwise_map.mpr (((pairwise_sortOn key s.joinedSchools).and distinct).imp ?_)
      rintro joined other ⟨least, differ⟩
      exact lt_of_le_of_ne least fun same => differ (congrArg (fun key => (ofLex key).2) same)
    rw [keys] at ordered
    exact List.pairwise_map.mp ordered
  · have paths : sorted.map JoinedSchool.path = rows.map (·.path) := by
      rw [← List.forall₂_eq_eq_eq, List.forall₂_map_left_iff, List.forall₂_map_right_iff]
      exact each.imp fun _ _ told => told.2.2.symm
    rw [← paths]
    refine List.pairwise_map.mpr (distinct.imp_of_mem ?_)
    intro joined other member member' differ same
    exact differ (JoinedSchool.path_inj holds (fit joined member) (fit other member') same)

end

end FauPortalen.Register

namespace FauPortalen.Register

open FauPortalen.Foundations FauPortalen.Keys Transaction Applier

section

attribute [local instance] OsloZone.atEpoch SearchData.ascii

/-- A municipality with a listed school and one whose name is held back. -/
def exportedPlan : SyncPlan Uuid :=
  {
    municipalityOps := [
      .create 0 "0301" "Oslo" (some "Oslo kommune") "03" "Oslo" "0301-oslo" [⟨"Oslo", "nor", 1⟩]
        .kartverket]
    schoolOps := [
      .create 0 (.new 0) "975288001" "Ask skole" "Ask skole" (some "ask-skole") .listed true
        (.fromUnit (sampleUnit "975288001" "Ask skole" true)) none,
      .create 1 (.new 0) "975288002" "Eik" "Eik" none .held true
        (.fromUnit (sampleUnit "975288002" "Eik" true)) none]
    reviews := []
    counts := {}
  }

def exportedIds : NewIds Uuid :=
  {
    municipality := .ofPairs [(0, ⟨List.replicate 16 (UInt8.ofNat 1), rfl⟩)]
    school := .ofPairs [
      (0, ⟨List.replicate 16 (UInt8.ofNat 2), rfl⟩),
      (1, ⟨List.replicate 16 (UInt8.ofNat 3), rfl⟩)]
  }

/-- After the run the export lists the school of the two that may be picked. -/
theorem exportedRun_exports
    : let s := (applyPlan exportedIds exportedPlan (Moment.at 0)).leaves .empty
      ∃ rows schools, exportRows s = some rows
        ∧ schools.Perm (s.schools.filter (·.isPickable))
        ∧ List.Forall₂ (fun school row => ExportRow.Describes row s school) schools rows
        ∧ rows.Pairwise (fun row other => toLex (row.municipalityNumber, row.schoolId)
            < toLex (other.municipalityNumber, other.schoolId))
        ∧ (rows.map (·.path)).Nodup := by
  obtain ⟨applied, commits⟩ := leaves_commits
    (show ((applyPlan exportedIds exportedPlan (Moment.at 0)).run .empty).toBool = true by
      decide +kernel)
  have stepped : registerHistory.step .empty (.run exportedIds exportedPlan (Moment.at 0))
      ((applyPlan exportedIds exportedPlan (Moment.at 0)).leaves .empty) :=
    ⟨applied, commits⟩
  exact registerHistory_exports ((EventSystem.Reachable.start rfl).step stepped)

end

-----------------------------------------------------------------------------------------
-- The file

namespace Export

def header : String := "school_id,orgnr,municipality_number,display_name,path,fau_orgnr"

/-- What is guarded against as the start of a formula. A hyphen is not: a name may start with one.
-/
def formulaStarts : List Char := ['=', '+', '@', '\t', '\r']

/-- The value as a spreadsheet may show it. -/
def guarded (value : List Char) : List Char :=
  if value.head?.any (· ∈ formulaStarts) then '\'' :: value else value

def field (value : String) : List Char :=
  let value := guarded value.toList
  if value.any fun c => c = ',' || c = '"' || c = '\n' || c = '\r' then
    '"' :: (value.flatMap fun c => if c = '"' then ['"', '"'] else [c]) ++ ['"']
  else
    value

def csv (rows : List ExportRow) : List Char :=
  rows.foldl (fun out r =>
      out ++ [','].intercalate [
        r.schoolId.text,
        field (r.orgnr.getD ""),
        field r.municipalityNumber,
        field r.displayName,
        field r.path,
        field (r.fauOrgnr.getD "")]
      ++ ['\n'])
    (header.toList ++ ['\n'])

-----------------------------------------------------------------------------------------
-- Reading the file

/-- The cells of a row; the id is written as it is. -/
def cells (row : ExportRow) : List (List Char) :=
  row.schoolId.text ::
    [row.orgnr.getD "", row.municipalityNumber, row.displayName, row.path,
      row.fauOrgnr.getD ""].map fun value => guarded value.toList

/-- The cell starts with one of the five characters. -/
def IsFormula (cell : List Char) : Prop := ∃ c ∈ formulaStarts, cell.head? = some c

theorem not_isFormula_guarded (value : List Char) : ¬ IsFormula (guarded value) := by
  rintro ⟨c, start, first⟩
  unfold guarded at first
  split at first
  · rw [List.head?_cons, Option.some_inj] at first
    subst first
    revert start
    decide
  · rename_i plain
    rw [first] at plain
    exact plain (by simpa using start)

theorem field_eq (value : String) : field value = Csv.field (guarded value.toList) := rfl

/-- An id is of hexadecimal digits and hyphens, by induction on the bytes. -/
theorem mem_hyphenated {i : Nat} {bytes : List UInt8} {c : Char} (inside : c ∈ hyphenated i bytes)
    : c = '-' ∨ ∃ n : Fin 16, c = Nat.digitChar n := by
  induction bytes generalizing i with
  | nil => cases inside
  | cons byte rest ih =>
      have small := byte.toNat_lt
      rcases List.mem_append.mp inside with hyphen | later
      · split at hyphen
        · exact .inl (List.mem_singleton.mp hyphen)
        · cases hyphen
      · rcases List.mem_append.mp later with digit | others
        · rcases List.mem_cons.mp digit with high | low
          · exact .inr ⟨⟨byte.toNat / 16, by omega⟩, high⟩
          · exact .inr ⟨⟨byte.toNat % 16, by omega⟩, List.mem_singleton.mp low⟩
        · exact ih others

theorem uuid_text_plain {id : Uuid} {c : Char} (inside : c ∈ id.text)
    : Csv.isSpecial c = false ∧ c ∉ formulaStarts := by
  have digits : ∀ n : Fin 16, Csv.isSpecial (Nat.digitChar n) = false
      ∧ Nat.digitChar n ∉ formulaStarts := by decide
  rcases mem_hyphenated inside with rfl | ⟨n, rfl⟩
  · decide
  · exact digits n

theorem uuid_text_eq_field (id : Uuid) : id.text = Csv.field id.text := by
  rw [Csv.field, if_neg]
  rw [List.any_eq_true]
  rintro ⟨c, inside, special⟩
  rw [(uuid_text_plain inside).1] at special
  cases special

theorem not_isFormula_cells {row : ExportRow} {cell : List Char} (member : cell ∈ cells row)
    : ¬ IsFormula cell := by
  rcases List.mem_cons.mp member with rfl | other
  · rintro ⟨c, start, first⟩
    exact (uuid_text_plain (List.mem_of_mem_head? first)).2 start
  · obtain ⟨value, _, rfl⟩ := List.mem_map.mp other
    exact not_isFormula_guarded value.toList

/-- The names of the columns. -/
def columns : List (List Char) :=
  ["school_id", "orgnr", "municipality_number", "display_name", "path", "fau_orgnr"].map
    String.toList

/-- Appending the rows one by one gives the document, by induction on them. -/
theorem csv_eq (rows : List ExportRow) : csv rows = Csv.document (columns :: rows.map cells) := by
  have line (row : ExportRow) (out : List Char)
      : out ++ [','].intercalate [row.schoolId.text, field (row.orgnr.getD ""),
            field row.municipalityNumber, field row.displayName, field row.path,
            field (row.fauOrgnr.getD "")] ++ ['\n']
        = out ++ Csv.record (cells row) := by
    rw [Csv.record, List.append_assoc]
    simp only [cells, List.map_cons, List.map_nil, field_eq, ← uuid_text_eq_field]
  have all (out : List Char)
      : rows.foldl (fun out row => out ++ Csv.record (cells row)) out
        = out ++ (rows.map cells).flatMap Csv.record := by
    induction rows generalizing out with
    | nil => exact (List.append_nil out).symm
    | cons row rest ih =>
        rw [List.foldl_cons, ih, List.map_cons, List.flatMap_cons, List.append_assoc]
  have top : header.toList ++ ['\n'] = Csv.record columns := by decide
  unfold csv
  simp only [line]
  rw [all, top]
  rfl

/-- The file reads back as its columns and the cells of its rows, and no cell starts with an equals
sign, a plus, an at sign, a tab or a carriage return. A hyphen may come first, as in real names.
-/
theorem csv_reads (rows : List ExportRow)
    : Csv.read (csv rows) = some (columns :: rows.map cells)
      ∧ ∀ row ∈ rows, ∀ cell ∈ cells row, ¬ IsFormula cell := by
  refine ⟨?_, fun row _ cell member => not_isFormula_cells member⟩
  rw [csv_eq]
  refine Csv.read_document fun fields member => ?_
  rcases List.mem_cons.mp member with rfl | other
  · decide
  · obtain ⟨row, _, rfl⟩ := List.mem_map.mp other
    exact List.cons_ne_nil _ _

end Export

end FauPortalen.Register

import FauPortalen.Register.Store.SchoolRefinement

/-! A committed run refines the reference applier: what the tables show afterwards is what the
reference leaves, apart from slugs given up within the run that nobody saw.
-/

set_option linter.unusedSectionVars false

namespace FauPortalen.Register

open FauPortalen.Foundations Transaction Applier

variable {Id : Type} [LinearOrder Id] {s after before : RegisterTables Id}
  {out snapshot base loaded : RegisterSnapshot Id} {ids : NewIds Id}

-----------------------------------------------------------------------------------------
-- Loading

/-- The snapshot is what the tables show. -/
structure Displays (s : RegisterTables Id) (snapshot : RegisterSnapshot Id) : Prop where
  mirrors : Mirrors s snapshot
  inOrder : ∀ m ∈ snapshot.municipalities, m.inOrder = m
  bytes : ∀ n ∈ s.names, n.priority < 256
  schoolSlugs : (s.schoolSlugs.map SchoolSlugRow.given).Perm snapshot.schoolSlugHistory
  municipalitySlugs
    : (s.municipalitySlugs.map MunicipalitySlugRow.given).Perm snapshot.municipalitySlugHistory

/-- What is loaded is what the tables show. -/
theorem displays_of_loadSnapshot (found : loadSnapshot s = some snapshot) : Displays s snapshot := by
  unfold loadSnapshot at found
  by_cases wide : s.names.any (256 ≤ ·.priority) = true
  · simp [wide] at found
  · simp only [wide, Option.bind_eq_bind] at found
    obtain ⟨municipalities, rows, same⟩ := Option.bind_eq_some_iff.mp found
    cases same
    have rows := mapM_eq_some_iff_map.mp rows
    have ordered : ∀ m ∈ municipalities, m.inOrder = m := by
      intro m member
      have inside := List.mem_map_of_mem (f := some) member
      rw [← rows] at inside
      obtain ⟨row, _, shown⟩ := List.mem_map.mp inside
      exact (RegisterTables.inOrder_of_municipalitySnapshot shown).1
    refine ⟨⟨?_, ?_, ?_⟩, ordered, ?_, ?_, ?_⟩
    · have same : municipalities.map (fun m => some m.inOrder) = municipalities.map some :=
        List.map_congr_left fun m member => congrArg some (ordered m member)
      rw [same, ← rows]
      exact ((perm_sortOn _ _).map _).symm
    · exact ((perm_sortOn _ _).map _).symm
    · exact ((perm_sortOn _ _).map _).symm
    · intro n member
      by_contra large
      exact wide (List.any_eq_true.mpr ⟨n, member, by simpa using large⟩)
    · exact ((perm_sortOn _ _).map _).symm
    · exact ((perm_sortOn _ _).map _).symm

/-- Tables that show a register load. -/
theorem Mirrors.loads (h : Mirrors s out) (bytes : ∀ n ∈ s.names, n.priority < 256)
    : ∃ loaded, loadSnapshot s = some loaded := by
  have narrow : s.names.any (256 ≤ ·.priority) = false :=
    List.any_eq_false.mpr fun n member => by simpa using bytes n member
  let shown := (sortOn (·.id) s.municipalities).filterMap s.municipalitySnapshot
  have rows : (sortOn (·.id) s.municipalities).mapM s.municipalitySnapshot = some shown := by
    refine mapM_eq_filterMap fun row member => ⟨rfl, ?_⟩
    obtain ⟨m, _, found, _⟩ := h.municipality (mem_sortOn.mp member)
    rw [found]
    rfl
  unfold loadSnapshot
  rw [narrow]
  simp only [Bool.false_eq_true, if_false, Option.bind_eq_bind, rows, Option.bind_some]
  exact ⟨_, rfl⟩

/-- The keys of the tables' rows are the register's, when its open municipalities have distinct
numbers.
-/
theorem rowKeys_of_tables (holds : s.Constraints) (displays : Displays s snapshot)
    (numbers : ((activeMunicipalities snapshot).map (·.number)).Nodup)
    : RowKeys snapshot :=
  ⟨displays.mirrors.municipality_ids.nodup_iff.mp holds.municipalityKeys,
    displays.mirrors.school_ids.nodup_iff.mp holds.schoolKeys, numbers⟩

/-- The tables' constraints are the store's, when no open school has a slug that another open one
of its municipality gave up.
-/
theorem storeConstraints_of_tables (holds : s.Constraints) (stand : s.NumbersStand)
    (displays : Displays s snapshot) (safe : SlugSafe snapshot) : StoreConstraints snapshot := by
  have municipality_ids := displays.mirrors.municipality_ids
  have school_ids := displays.mirrors.school_ids
  have located {row : Id × String × Id} (member : row ∈ snapshot.schoolSlugHistory)
      : row.1 ∈ s.municipalityIds ∧ row.2.2 ∈ s.schoolIds := by
    obtain ⟨stored, inside, rfl⟩ := List.mem_map.mp (displays.schoolSlugs.mem_iff.mpr member)
    exact holds.schoolSlugOwners stored inside
  refine ⟨municipality_ids.nodup_iff.mp holds.municipalityKeys,
    school_ids.nodup_iff.mp holds.schoolKeys, ?_, ?_, safe, ?_, ?_, ?_⟩
  · have both := displays.mirrors.schools.filterMap SchoolSnapshot.orgnr
    rw [List.filterMap_map] at both
    exact both.nodup_iff.mp holds.orgnrs
  · exact displays.mirrors.nodup_active_numbers holds stand
  · intro school member
    obtain ⟨row, known, rfl⟩ := List.mem_map.mp (displays.mirrors.schools.mem_iff.mpr member)
    exact municipality_ids.mem_iff.mp (holds.schoolMunicipalities row known)
  · exact fun row member => municipality_ids.mem_iff.mp (located member).1
  · exact fun row member => school_ids.mem_iff.mp (located member).2

-----------------------------------------------------------------------------------------
-- The statements after the operations

/-- Refreshed texts show in no snapshot. -/
theorem refreshMunicipalities_shows [SearchData] {stale : List Id} {u : Unit}
    (commits : (stale.forM refreshMunicipalitySearchText).Commits s u after)
    (holds : s.Constraints) (mirrors : Mirrors s out)
    : after.Constraints ∧ Mirrors after out
      ∧ after = { s with municipalities := after.municipalities } := by
  refine commits.forM_keeps (P := fun t : RegisterTables Id => t.Constraints ∧ Mirrors t out
    ∧ t = { s with municipalities := t.municipalities }) ?_ ⟨holds, mirrors, rfl⟩
  intro id _ t next both refreshed
  obtain ⟨holds, mirrors, same⟩ := both
  obtain ⟨final, rfl⟩ := of_refreshMunicipalitySearchText refreshed holds
  refine ⟨final, ⟨?_, mirrors.schools, mirrors.orgnrs⟩, ?_⟩
  · rw [List.map_map]
    have unchanged (row : MunicipalityRow Id)
        : t.municipalitySnapshot (changeAt MunicipalityRow.id id
            (fun row => { row with searchText := t.municipalityText row }) row)
          = t.municipalitySnapshot row := by
      unfold changeAt
      split <;> rfl
    refine Eq.mpr (congrArg (List.Perm · _) ?_) mirrors.municipalities
    exact List.map_congr_left fun row _ => unchanged row
  · rw [same]

/-- What the tables show of schools, and the successors they have, after some links. -/
structure LinkedTo (before : RegisterTables Id) (out : RegisterSnapshot Id)
    (stored : Id → Option Id) (links : List (Id × Id)) (s : RegisterTables Id) : Prop where
  constraints : s.Constraints
  mirrors : Mirrors s out
  successors : ∀ row ∈ s.schools,
    row.successorId = (Lookup.ofPairs links row.id).or (stored row.id)
  others : s = { before with schools := s.schools }

/-- A change of one school that no snapshot shows. -/
theorem LinkedTo.changeAt {stored : Id → Option Id} {links next : List (Id × Id)}
    (h : LinkedTo before out stored links s) {id : Id} {change : SchoolRow Id → SchoolRow Id}
    (final : ({ s with schools := s.schools.map (changeAt SchoolRow.id id change) }
      : RegisterTables Id).Constraints)
    (shown : ∀ row, s.schoolSnapshot (change row) = s.schoolSnapshot row)
    (linked : ∀ row ∈ s.schools, row.id = id →
      (change row).successorId = (Lookup.ofPairs next row.id).or (stored row.id))
    (kept : ∀ other, other ≠ id → Lookup.ofPairs next other = Lookup.ofPairs links other)
    : LinkedTo before out stored next
        { s with schools := s.schools.map (FauPortalen.Foundations.changeAt SchoolRow.id id
          change) } := by
  have same_id (row : SchoolRow Id) : (change row).id = row.id :=
    congrArg SchoolSnapshot.id (shown row)
  refine ⟨final, ⟨h.mirrors.municipalities, ?_, h.mirrors.orgnrs⟩, ?_, ?_⟩
  · have unchanged (row : SchoolRow Id)
        : s.schoolSnapshot (FauPortalen.Foundations.changeAt SchoolRow.id id change row)
          = s.schoolSnapshot row := by
      unfold FauPortalen.Foundations.changeAt
      split
      · exact shown row
      · rfl
    rw [List.map_map]
    refine Eq.mpr (congrArg (List.Perm · _) ?_) h.mirrors.schools
    exact List.map_congr_left fun row _ => unchanged row
  · intro row member
    obtain ⟨earlier, inside, rfl⟩ := List.mem_map.mp member
    by_cases own : earlier.id = id
    · rw [changeAt_of_eq own, linked earlier inside own, same_id]
    · rw [changeAt_of_ne own, h.successors earlier inside, kept _ own]
  · rw [h.others]

/-- The links are set, each over what was there, by induction on them. -/
theorem LinkedTo.links {stored : Id → Option Id} {done links : List (Id × Id)} {u : Unit}
    (h : LinkedTo before out stored done s)
    (commits : (links.forM fun link => linkSuccessor link.1 link.2).Commits s u after)
    : LinkedTo before out stored (done ++ links) after := by
  induction links generalizing s done with
  | nil =>
      obtain rfl := commits_forM_nil.mp commits
      rwa [List.append_nil]
  | cons link rest ih =>
      obtain ⟨middle, first, later⟩ := commits_forM_cons.mp commits
      obtain ⟨_, rfl, final⟩ := of_updateSchool first
      have inserted : Lookup.ofPairs (done ++ [link])
          = (Lookup.ofPairs done).insert link.1 link.2 := by
        simp [Lookup.ofPairs, Lookup.insertAll]
      have step : LinkedTo before out stored (done ++ [link]) _ := h.changeAt final (fun _ => rfl)
        (fun row _ own => by rw [inserted, own, Lookup.insert_self]; rfl)
        (fun other differ => by rw [inserted, Lookup.insert_of_ne _ _ differ])
      have all := ih step later
      rwa [List.append_assoc, List.singleton_append] at all

/-- Refreshed texts change no successor. -/
theorem LinkedTo.refresh [SearchData] {stored : Id → Option Id} {links : List (Id × Id)}
    {stale : List Id} {u : Unit} (h : LinkedTo before out stored links s)
    (commits : (stale.forM refreshSchoolSearchText).Commits s u after)
    : LinkedTo before out stored links after := by
  refine commits.forM_keeps (P := LinkedTo before out stored links) ?_ h
  intro id _ t next linked refreshed
  obtain ⟨final, rfl⟩ := of_refreshSchoolSearchText refreshed linked.constraints
  exact linked.changeAt final (fun _ => rfl) (fun row member _ => linked.successors row member)
    fun _ _ => rfl

end FauPortalen.Register

import FauPortalen.Register.Sync.FittingMunicipalityOps
import FauPortalen.Register.Sync.NameOnlyChanges

/-! Municipality key safety: when a run keeps the slugs of all municipalities apart. A slug
is given again exactly when a number that a dissolved municipality had comes back with its
name.
-/

set_option linter.unusedSectionVars false

namespace FauPortalen.Register

open FauPortalen.Foundations

section

variable {Id : Type} [LinearOrder Id] [UnicodeData]

-----------------------------------------------------------------------------------------
-- The slugs a run brings

section

variable [OsloZone]

/-- The slug is one that the run gives a municipality: a code change carries one to its number,
Kartverket's record renames or creates one, or Svalbard is created.
-/
inductive Brings (snapshot : RegisterSnapshot Id) (inputs : SyncInputs) : String → Prop
  | renumber (before after : List (String × List CodeChange)) (old : String)
      (changes : List CodeChange) (state : GroupState Id) (id : Id) (target newSlug : String)
      (renamed : Option String) (w : Working Id)
      (order : orderGroups (changeGroups inputs.municipalities inputs.codeChanges)
        = before ++ (old, changes) :: after)
      (reached : before.foldlM (stepGroup
        (goneGroupsPerTarget (changeGroups inputs.municipalities inputs.codeChanges))
        (recordsByNumber inputs.municipalities)) (initialGroupState snapshot) = some state)
      (renumbers : state.Renumbers
        (goneGroupsPerTarget (changeGroups inputs.municipalities inputs.codeChanges))
        (recordsByNumber inputs.municipalities) old changes id target newSlug renamed w)
      : Brings snapshot inputs newSlug
  | rename (groups : GroupState Id) (before after : List MunicipalityRecord)
      (r : MunicipalityRecord) (state : RecordState Id) (id : Id) (w : Working Id)
      (newSlug : String)
      (grouped : planCodeChanges snapshot inputs.municipalities inputs.codeChanges
        = some groups)
      (order : sortOn MunicipalityRecord.number inputs.municipalities = before ++ r :: after)
      (reached : before.foldlM (stepRecord inputs.kind groups.working groups.blockedNumbers)
        ⟨groups.ops, groups.reviews, groups.byNumber, 0⟩ = some state)
      (unblocked : r.number ∉ groups.blockedNumbers)
      (held : state.byNumber r.number = some (.existing id))
      (working : groups.working id = some w) (sourced : w.row.source ≠ .manual)
      (renamed : r.norwegianName ≠ w.name)
      (slug : municipalitySlug r.number r.norwegianName = .ok newSlug)
      : Brings snapshot inputs newSlug
  | create (groups : GroupState Id) (before after : List MunicipalityRecord)
      (r : MunicipalityRecord) (state : RecordState Id) (newSlug : String)
      (grouped : planCodeChanges snapshot inputs.municipalities inputs.codeChanges
        = some groups)
      (order : sortOn MunicipalityRecord.number inputs.municipalities = before ++ r :: after)
      (reached : before.foldlM (stepRecord inputs.kind groups.working groups.blockedNumbers)
        ⟨groups.ops, groups.reviews, groups.byNumber, 0⟩ = some state)
      (unblocked : r.number ∉ groups.blockedNumbers)
      (free : state.byNumber r.number = none) (seed : inputs.kind = .seed)
      (slug : municipalitySlug r.number r.norwegianName = .ok newSlug)
      : Brings snapshot inputs newSlug
  | svalbard (groups : GroupState Id) (records : RecordState Id)
      (grouped : planCodeChanges snapshot inputs.municipalities inputs.codeChanges
        = some groups)
      (recorded : planRecords inputs groups = some records)
      (needed : svalbardNeeded inputs.units = true)
      (free : records.byNumber svalbardNumber = none)
      (unblocked : svalbardNumber ∉ groups.blockedNumbers)
      : Brings snapshot inputs "2100-svalbard"

end

def givenSlugs (ops : List (MunicipalityOp Id)) : List String :=
  ops.filterMap MunicipalityOp.newSlug?

variable {gone : String → Nat} {records : Lookup String MunicipalityRecord}
  {state after : GroupState Id} {old : String} {changes : List CodeChange}

/-- A group that can be renumbered is. -/
theorem GroupState.Renumbers.decides {id : Id} {target newSlug : String}
    {renamed : Option String} {w : Working Id}
    (h : state.Renumbers gone records old changes id target newSlug renamed w)
    : ∃ renamed', decideGroup gone records state old changes
        = some (.renumber id target newSlug renamed') := by
  have holder : holderOf state.byNumber old = some id := holderOf_eq_some.mpr h.holder
  have single : oneToOne gone (targetCodes changes) = some target :=
    oneToOne_eq_some.mpr ⟨h.single, h.once⟩
  have unblocked : ¬ (target ∈ state.blockedNumbers ∨ old ∈ state.blockedNumbers) :=
    not_or.mpr ⟨h.target_unblocked, h.old_unblocked⟩
  simp only [decideGroup, holder, single, h.working, Option.isNone_some, Bool.false_and,
    Bool.false_eq_true, if_false, Option.bind_eq_bind, Option.bind_some, if_neg h.sourced,
    if_neg unblocked, Lookup.contains, h.free]
  rw [h.slug]
  exact ⟨_, rfl⟩

/-- A group adds the slug of its renumber, if it has one. -/
theorem stepGroup_givenSlugs {group : String × List CodeChange}
    (h : stepGroup gone records state group = some after) (slug : String)
    : slug ∈ givenSlugs after.ops
      ↔ slug ∈ givenSlugs state.ops
        ∨ ∃ id target renamed w,
          state.Renumbers gone records group.1 group.2 id target slug renamed w := by
  obtain ⟨old, changes⟩ := group
  rcases stepGroup_cases h with ⟨decided, rfl⟩
    | ⟨id, target, newSlug, renamed, first, w, decided, _, _, rfl⟩ | ⟨_, _, decided, _, rfl⟩
  · refine (or_iff_left ?_).symm
    rintro ⟨id, target, renamed, w, renumbers⟩
    obtain ⟨_, decided'⟩ := renumbers.decides
    cases decided.symm.trans decided'
  · simp only [GroupState.renumbered, givenSlugs, List.filterMap_append, List.mem_append]
    refine or_congr_right ⟨fun given => ?_, ?_⟩
    · obtain ⟨w', renumbers⟩ := decideGroup_renumber decided
      have same : slug = newSlug := by simpa [MunicipalityOp.newSlug?] using given
      exact ⟨id, target, renamed, w', same ▸ renumbers⟩
    · rintro ⟨id', target', renamed', w', renumbers⟩
      obtain ⟨_, decided'⟩ := renumbers.decides
      cases decided.symm.trans decided'
      simp [MunicipalityOp.newSlug?]
  · refine (or_iff_left ?_).symm
    rintro ⟨id, target, renamed, w, renumbers⟩
    obtain ⟨_, decided'⟩ := renumbers.decides
    cases decided.symm.trans decided'

/-- A comparison renames its municipality when the name differs and can make a slug. -/
theorem mem_givenSlugs_compareRecord {w : Working Id} {id : Id} {r : MunicipalityRecord}
    {slug : String}
    : slug ∈ givenSlugs (compareRecord w id r).1
      ↔ w.row.source ≠ .manual ∧ r.norwegianName ≠ w.name
        ∧ municipalitySlug r.number r.norwegianName = .ok slug ∧ w.slug ≠ slug := by
  constructor
  · intro given
    obtain ⟨op, member, new⟩ := List.mem_filterMap.mp given
    obtain ⟨sourced, renamed, sluggable⟩ := compareRecord_newSlug member new
    refine ⟨sourced, renamed, sluggable, fun same => ?_⟩
    unfold compareRecord at member
    rw [if_neg sourced] at member
    simp only [renamed, ne_eq, not_false_eq_true, if_true, sluggable, List.mem_append,
      List.mem_singleton] at member
    rcases member with rfl | updated
    · simp [MunicipalityOp.newSlug?, same] at new
    · split at updated
      · cases List.mem_singleton.mp updated
        cases new
      · cases updated
  · rintro ⟨sourced, renamed, sluggable, differ⟩
    refine List.mem_filterMap.mpr ⟨.rename id r.norwegianName w.slug slug, ?_, ?_⟩
    · unfold compareRecord
      rw [if_neg sourced]
      simp [renamed, sluggable]
    · simp [MunicipalityOp.newSlug?, differ]

variable {groups : GroupState Id} {kind : RunKind} {listed final : RecordState Id}
  {r : MunicipalityRecord}

/-- A record adds the slug of its rename or of its creation. -/
theorem stepRecord_givenSlugs
    (h : stepRecord kind groups.working groups.blockedNumbers listed r = some final)
    (slug : String)
    : slug ∈ givenSlugs final.ops
      ↔ slug ∈ givenSlugs listed.ops
        ∨ r.number ∉ groups.blockedNumbers
          ∧ municipalitySlug r.number r.norwegianName = .ok slug
          ∧ ((∃ id w, listed.byNumber r.number = some (.existing id)
              ∧ groups.working id = some w ∧ w.row.source ≠ .manual
              ∧ r.norwegianName ≠ w.name ∧ w.slug ≠ slug)
            ∨ (listed.byNumber r.number = none ∧ kind = .seed)) := by
  rcases stepRecord_cases h with ⟨blocked, rfl⟩
    | ⟨unblocked, ⟨id, w, found, working, rfl⟩ | ⟨n, found, rfl⟩
      | ⟨newSlug, absent, seed, sluggable, rfl⟩ | ⟨_, absent, unknown, rfl⟩⟩
  · exact (or_iff_left fun given => given.1 blocked).symm
  · simp only [givenSlugs, List.filterMap_append, List.mem_append]
    refine or_congr_right ?_
    rw [show slug ∈ List.filterMap MunicipalityOp.newSlug? (compareRecord w id r).1 ↔ _ from
      mem_givenSlugs_compareRecord]
    constructor
    · rintro ⟨sourced, renamed, sluggable, differ⟩
      exact ⟨unblocked, sluggable, .inl ⟨id, w, found, working, sourced, renamed, differ⟩⟩
    · rintro ⟨_, sluggable, ⟨id', w', found', working', sourced, renamed, differ⟩ | ⟨free, _⟩⟩
      · cases found.symm.trans found'
        cases working.symm.trans working'
        exact ⟨sourced, renamed, sluggable, differ⟩
      · cases free.symm.trans found
  · refine (or_iff_left ?_).symm
    rintro ⟨_, _, ⟨_, _, found', _⟩ | ⟨free, _⟩⟩
    · cases found.symm.trans found'
    · cases free.symm.trans found
  · simp only [givenSlugs, List.filterMap_append, List.mem_append]
    refine or_congr_right ⟨fun given => ?_, ?_⟩
    · have same : slug = newSlug := by simpa [MunicipalityOp.newSlug?] using given
      exact ⟨unblocked, same ▸ sluggable, .inr ⟨absent, seed⟩⟩
    · rintro ⟨_, sluggable', _⟩
      cases sluggable.symm.trans sluggable'
      simp [MunicipalityOp.newSlug?]
  · refine (or_iff_left ?_).symm
    rintro ⟨_, sluggable, ⟨_, _, found', _⟩ | ⟨_, seed⟩⟩
    · cases absent.symm.trans found'
    · rcases unknown with ⟨sync, _⟩ | ⟨_, ⟨e, failed⟩, _⟩
      · cases seed.symm.trans sync
      · cases sluggable.symm.trans failed

-----------------------------------------------------------------------------------------
-- The slugs of step 1

variable [OsloZone] {snapshot : RegisterSnapshot Id} {inputs : SyncInputs}
  {plan : MunicipalityPlan Id}

/-- What a renumber of the group loop gives, the run brings. -/
theorem mem_givenSlugs_groups
    (grouped : planCodeChanges snapshot inputs.municipalities inputs.codeChanges = some groups)
    {slug : String}
    : slug ∈ givenSlugs groups.ops
      ↔ ∃ before old changes after state id target renamed w,
        orderGroups (changeGroups inputs.municipalities inputs.codeChanges)
            = before ++ (old, changes) :: after
          ∧ before.foldlM (stepGroup
            (goneGroupsPerTarget (changeGroups inputs.municipalities inputs.codeChanges))
            (recordsByNumber inputs.municipalities)) (initialGroupState snapshot) = some state
          ∧ state.Renumbers
            (goneGroupsPerTarget (changeGroups inputs.municipalities inputs.codeChanges))
            (recordsByNumber inputs.municipalities) old changes id target slug renamed w := by
  have collected := foldlM_collects (fun state : GroupState Id => givenSlugs state.ops)
    (fun _ _ _ stepped slug => stepGroup_givenSlugs stepped slug) grouped slug
  refine collected.trans ⟨?_, ?_⟩
  · rintro (start | ⟨before, group, after, state, order, reached, id, target, renamed, w, h⟩)
    · cases start
    · exact ⟨before, group.1, group.2, after, state, id, target, renamed, w, order, reached, h⟩
  · rintro ⟨before, old, changes, after, state, id, target, renamed, w, order, reached, h⟩
    exact .inr ⟨before, (old, changes), after, state, order, reached, id, target, renamed, w, h⟩

/-- A working row has the slug it had, or one that a renumber gave it. -/
theorem planCodeChanges_slug
    (grouped : planCodeChanges snapshot inputs.municipalities inputs.codeChanges = some groups)
    {id : Id} {w : Working Id} (working : groups.working id = some w)
    : (∃ row ∈ activeMunicipalities snapshot, row.slug = w.slug)
      ∨ w.slug ∈ givenSlugs groups.ops := by
  revert id w
  refine foldlM_preserves (P := fun state : GroupState Id => ∀ {id w},
    state.working id = some w →
      (∃ row ∈ activeMunicipalities snapshot, row.slug = w.slug)
        ∨ w.slug ∈ givenSlugs state.ops) ?_ grouped ?_
  · rintro before ⟨old, changes⟩ _ after stepped kept id' w' found
    rcases stepGroup_cases stepped with ⟨_, rfl⟩
      | ⟨id, target, newSlug, renamed, first, w, _, _, working, rfl⟩ | ⟨_, _, _, _, rfl⟩
    · exact kept found
    · simp only [GroupState.renumbered, givenSlugs, List.filterMap_append, List.mem_append]
        at found ⊢
      by_cases same : id' = id
      · subst same
        cases (Lookup.insert_self _ _ _).symm.trans found
        exact .inr (.inr (by simp [MunicipalityOp.newSlug?]))
      · exact (kept ((Lookup.insert_of_ne _ _ same).symm.trans found)).imp_right .inl
    · exact kept found
  · intro id w found
    obtain ⟨row, member, same⟩ := List.mem_map.mp (Lookup.mem_of_ofPairs found)
    cases same
    exact .inl ⟨row, member, rfl⟩

/-- The slugs that step 1 gives are those the run brings, but for a rename that keeps a slug.
-/
theorem planMunicipalities_givenSlugs (planned : planMunicipalities snapshot inputs = some plan)
    {slug : String}
    : (slug ∈ givenSlugs plan.ops → Brings snapshot inputs slug)
      ∧ (Brings snapshot inputs slug →
        slug ∈ givenSlugs plan.ops ∨ ∃ row ∈ activeMunicipalities snapshot, row.slug = slug) := by
  obtain ⟨groups, records, grouped, recorded, _, _, _, parts⟩ := planMunicipalities_parts planned
  have collected := foldlM_collects (fun state : RecordState Id => givenSlugs state.ops)
    (fun before r after stepped slug => stepRecord_givenSlugs stepped slug) recorded slug
  have included : slug ∈ givenSlugs records.ops → slug ∈ givenSlugs plan.ops := by
    intro given
    rcases parts with ⟨ops, _⟩ | ⟨_, ops, _⟩
    · rw [ops]
      exact given
    · rw [ops, givenSlugs, List.filterMap_append]
      exact List.mem_append_left _ given
  have renumbered : slug ∈ givenSlugs groups.ops → slug ∈ givenSlugs plan.ops :=
    fun given => included (collected.mpr (.inl given))
  constructor
  · intro given
    have split : slug ∈ givenSlugs records.ops
        ∨ (slug = "2100-svalbard" ∧ records.byNumber svalbardNumber = none
          ∧ svalbardNumber ∉ groups.blockedNumbers ∧ svalbardNeeded inputs.units = true) := by
      rcases parts with ⟨ops, _⟩ | ⟨free, ops, _, unblocked, needed⟩
      · exact .inl (ops ▸ given)
      · rw [ops, givenSlugs, List.filterMap_append] at given
        rcases List.mem_append.mp given with listed | last
        · exact .inl listed
        · have same : slug = "2100-svalbard" := by
            simpa [createSvalbard, MunicipalityOp.newSlug?] using last
          exact .inr ⟨same, free, unblocked, needed⟩
    rcases split with listed | ⟨rfl, free, unblocked, needed⟩
    · rcases collected.mp listed with early | ⟨before, r, after, state, order, reached, unblocked,
        sluggable, ⟨id, w, held, working, sourced, renamed, _⟩ | ⟨free, seed⟩⟩
      · obtain ⟨before, old, changes, after, state, id, target, renamed, w, order, reached, h⟩ :=
          (mem_givenSlugs_groups grouped).mp early
        exact .renumber before after old changes state id target slug renamed w order reached h
      · exact .rename groups before after r state id w slug grouped order reached unblocked held
          working sourced renamed sluggable
      · exact .create groups before after r state slug grouped order reached unblocked free seed
          sluggable
    · exact .svalbard groups records grouped recorded needed free unblocked
  · intro brings
    cases brings with
    | renumber before after old changes state id target newSlug renamed w order reached h =>
        exact .inl (renumbered ((mem_givenSlugs_groups grouped).mpr
          ⟨before, old, changes, after, state, id, target, renamed, w, order, reached, h⟩))
    | rename groups' before after r state id w newSlug grouped' order reached unblocked held
        working sourced renamed sluggable =>
        cases grouped.symm.trans grouped'
        by_cases kept : w.slug = slug
        · rcases planCodeChanges_slug grouped working with ⟨row, member, same⟩ | given
          · exact .inr ⟨row, member, same.trans kept⟩
          · exact .inl (renumbered (kept ▸ given))
        · exact .inl (included (collected.mpr (.inr ⟨before, r, after, state, order, reached,
            unblocked, sluggable, .inl ⟨id, w, held, working, sourced, renamed, kept⟩⟩)))
    | create groups' before after r state newSlug grouped' order reached unblocked free seed
        sluggable =>
        cases grouped.symm.trans grouped'
        exact .inl (included (collected.mpr (.inr ⟨before, r, after, state, order, reached,
          unblocked, sluggable, .inr ⟨free, seed⟩⟩)))
    | svalbard groups' records' grouped' recorded' needed free unblocked =>
        cases grouped.symm.trans grouped'
        cases recorded.symm.trans recorded'
        rcases parts with ⟨_, _, there⟩ | ⟨_, ops, _⟩
        · have known := there needed unblocked
          rw [free] at known
          cases known
        · rw [ops, givenSlugs, List.filterMap_append]
          exact .inl (List.mem_append_right _ (List.mem_singleton.mpr rfl))

-----------------------------------------------------------------------------------------
-- Municipalities without their schools

omit [LinearOrder Id] in
/-- What holds of the municipalities: distinct ids and slugs over all rows, each slug that of
the row's number and name, and distinct numbers of the active rows.
-/
structure MunicipalityKeys (snapshot : RegisterSnapshot Id) : Prop where
  ids : (snapshot.municipalities.map (·.id)).Nodup
  slugs : (snapshot.municipalities.map (·.slug)).Nodup
  keyed : ∀ row ∈ snapshot.municipalities, municipalitySlug row.number row.name = .ok row.slug
  numbers : ((activeMunicipalities snapshot).map (·.number)).Nodup

/-- The register without its schools, which step 1 does not read. -/
def RegisterSnapshot.withoutSchools (snapshot : RegisterSnapshot Id) : RegisterSnapshot Id :=
  { snapshot with schools := [], schoolOrgnrHistory := [], schoolSlugHistory := [] }

theorem MunicipalityKeys.store (keys : MunicipalityKeys snapshot)
    : StoreConstraints snapshot.withoutSchools where
  municipalityIds := keys.ids
  schoolIds := List.nodup_nil
  orgnrs := List.nodup_nil
  numbers := keys.numbers
  slugSafe := ⟨List.nodup_nil, by simp [RegisterSnapshot.withoutSchools],
    by simp [RegisterSnapshot.withoutSchools]⟩
  located := by simp [RegisterSnapshot.withoutSchools]
  historyLocated := by simp [RegisterSnapshot.withoutSchools]
  historyOwned := by simp [RegisterSnapshot.withoutSchools]

omit [OsloZone] in
theorem MunicipalityKeys.table (keys : MunicipalityKeys snapshot)
    : KeyedTable snapshot snapshot.municipalities := by
  refine ⟨keys.ids, ?_, fun row inside => municipalitySlug_eq_ok (keys.keyed row inside),
    fun _ _ => Iff.rfl⟩
  intro left hl right hr activeLeft activeRight same
  refine List.inj_on_of_nodup_map keys.numbers ?_ ?_ same
  · exact List.mem_filter.mpr ⟨hl, decide_eq_true activeLeft⟩
  · exact List.mem_filter.mpr ⟨hr, decide_eq_true activeRight⟩

/-- Step 1 plans operations that the municipalities await and that fit them. -/
theorem MunicipalityKeys.planned {ids : NewIds Id} (keys : MunicipalityKeys snapshot)
    (fresh : ids.Fresh snapshot) (planned : planMunicipalities snapshot inputs = some plan)
    (covers : ∀ n ∈ plan.ops.filterMap createdMunicipality?, (ids.municipality n).isSome)
    : AwaitsMunicipalities ids snapshot snapshot plan.ops
      ∧ OpsFit ids snapshot.municipalities plan.ops := by
  have alone : planMunicipalities snapshot.withoutSchools inputs = some plan := planned
  obtain ⟨plan', created, planned', named, _⟩ := planMunicipalities_named keys.store.rowKeys inputs
  cases alone.symm.trans planned'
  have fresh' : ids.Fresh snapshot.withoutSchools :=
    ⟨fun _ _ _ => List.not_mem_nil, fresh.schoolInjective, fresh.municipality,
      fresh.municipalityInjective⟩
  have awaits := named.awaited keys.store fresh' covers
  exact ⟨⟨awaits.unique, awaits.contains, awaits.targets, awaits.resolves, awaits.numbers,
    awaits.missing⟩, planMunicipalities_fit keys.store.rowKeys alone⟩

-----------------------------------------------------------------------------------------
-- A run that brings a slug

/-- A run whose units all need nothing has a school plan. -/
theorem planSchools_idle {state : MunicipalityState Id}
    (idle : ∀ u ∈ inputs.units, fate snapshot state inputs.moment u = .ignored)
    : ∃ schools, planSchools snapshot inputs state = some schools := by
  have none_of {β : Type} (f : NsrUnit → Option β) (ignored : ∀ u ∈ inputs.units, f u = none)
      : inputs.units.filterMap f = [] := List.filterMap_eq_nil_iff.mpr ignored
  have candidates : (sortedUnits snapshot inputs state).candidates = [] :=
    none_of _ fun u member => by rw [idle u member]; rfl
  have updates : (sortedUnits snapshot inputs state).updates = [] :=
    none_of _ fun u member => by rw [idle u member]; rfl
  have numbered : numberedCandidates snapshot (sortedUnits snapshot inputs state) = [] := by
    simp [numberedCandidates, candidates]
  simp [planSchools, candidates, updates, numbered]

/-- Kartverket lists one municipality, a seed run follows, and NSR has one closed unit. -/
def listingInputs (r : MunicipalityRecord) (orgnr : String) : SyncInputs :=
  {
    municipalities := [r]
    codeChanges := []
    units := [sampleUnit orgnr "" false]
    kind := .seed
    moment := Moment.at 0
  }

/-- The run that lists one municipality is applied once it gives a slug. -/
theorem plan_listing (keys : MunicipalityKeys snapshot) (r : MunicipalityRecord)
    {orgnr : String} (unheld : ∀ s ∈ snapshot.schools, s.orgnr ≠ some orgnr)
    {given : String} (brings : Brings snapshot (listingInputs r orgnr).normalised given)
    (fresh : ∀ row ∈ activeMunicipalities snapshot, row.slug ≠ given)
    : ∃ p, FauPortalen.Register.plan snapshot (listingInputs r orgnr) = some (.apply p) := by
  obtain ⟨municipalities, _, first, _⟩ :=
    planMunicipalities_named keys.store.rowKeys (listingInputs r orgnr).normalised
  have first : planMunicipalities snapshot (listingInputs r orgnr).normalised
      = some municipalities := first
  have idle : ∀ u ∈ (listingInputs r orgnr).normalised.units,
      fate snapshot municipalities.state (listingInputs r orgnr).moment u = .ignored := by
    intro u member
    have fetched : u ∈ normaliseUnits [sampleUnit orgnr "" false] := member
    have one : u = sampleUnit orgnr "" false :=
      List.mem_singleton.mp ((mem_sortOn).mp (mem_of_mem_dropRepeats fetched))
    have no_school : schoolByOrgnr snapshot u.orgnr = none := by
      rw [one]
      cases found : schoolByOrgnr snapshot orgnr with
      | none => exact found
      | some school =>
          obtain ⟨s, inside, same⟩ := List.mem_filterMap.mp (Lookup.mem_of_ofPairs found)
          obtain ⟨o, own, pair⟩ := Option.map_eq_some_iff.mp same
          cases pair
          exact absurd own (unheld _ inside)
    have outside : u.classified = false := by
      cases classified : u.classified with
      | false => rfl
      | true =>
          have active := NsrUnit.isActive_of_classified classified
          rw [one] at active
          cases active
    rw [fate_of_none no_school, outside]
    simp
  obtain ⟨schools, second⟩ : ∃ schools, planSchools snapshot (listingInputs r orgnr).normalised
      municipalities.state = some schools := planSchools_idle idle
  have gives : given ∈ givenSlugs municipalities.ops := by
    rcases (planMunicipalities_givenSlugs first).2 brings with inside | ⟨row, active, same⟩
    · exact inside
    · exact absurd same (fresh row active)
  have changes : municipalities.ops.isEmpty = false := by
    cases ops : municipalities.ops with
    | nil =>
        rw [ops] at gives
        cases gives
    | cons => rfl
  refine ⟨assemble snapshot (municipalities, schools), ?_⟩
  have steps : planSteps snapshot (listingInputs r orgnr) = some (municipalities, schools) := by
    simp [planSteps, first, second]
  simp only [FauPortalen.Register.plan, planWith, show emptySource? (listingInputs r orgnr) = none
    from rfl, steps, Option.map_some]
  simp [conclude, listingInputs, assemble, changes]

/-- A municipality's slug can be brought back when no open municipality under its number is
kept by hand: Kartverket lists the number under its name.
-/
theorem brings_of_dissolved (keys : MunicipalityKeys snapshot) (orgnr : String)
    {gone : MunicipalitySnapshot Id} (inside : gone ∈ snapshot.municipalities)
    (dissolved : gone.status = .dissolved)
    (unkept : ∀ row ∈ snapshot.municipalities, row.status = .active → row.source = .manual →
      row.number ≠ gone.number)
    : Brings snapshot
        (listingInputs ⟨gone.number, gone.name, gone.name, "", "", []⟩ orgnr).normalised
        gone.slug := by
  let r : MunicipalityRecord := ⟨gone.number, gone.name, gone.name, "", "", []⟩
  have coherent : (initialGroupState snapshot).Coherent snapshot.withoutSchools :=
    initialGroupState_coherent keys.store.rowKeys
  have slug := keys.keyed gone inside
  cases found : (initialGroupState snapshot).byNumber gone.number with
  | none =>
      exact .create (initialGroupState snapshot) [] [] r _ gone.slug rfl rfl rfl
        (Finset.notMem_empty _) found rfl slug
  | some holder =>
      obtain ⟨id, w, rfl, working, number⟩ := coherent.holder gone.number holder found
      obtain ⟨row, member, same⟩ := List.mem_map.mp (Lookup.mem_of_ofPairs working)
      cases same
      have open_row : row ∈ snapshot.municipalities ∧ row.status = .active := by
        simpa [activeMunicipalities] using member
      refine .rename (initialGroupState snapshot) [] [] r _ row.id (.ofRow row) gone.slug rfl rfl
        rfl (Finset.notMem_empty _) found working ?_ ?_ slug
      · exact fun manual => unkept row open_row.1 open_row.2 manual number
      · intro same_name
        have name : gone.name = row.name := same_name
        have own := keys.keyed row open_row.1
        rw [show row.number = gone.number from number, ← name, slug] at own
        have one : row = gone := List.inj_on_of_nodup_map keys.slugs open_row.1 inside
          (Except.ok.inj own).symm
        rw [one, dissolved] at open_row
        cases open_row.2

end

-----------------------------------------------------------------------------------------
-- Key safety

section

variable [UnicodeData] [OsloZone] {snapshot : RegisterSnapshot Nat}

/-- After every prefix of a plan's municipality operations all slugs are distinct, and so are
the numbers of the active municipalities.
-/
def KeysSafe (snapshot : RegisterSnapshot Nat) (p : SyncPlan Nat) : Prop :=
  ∀ count, ∃ register,
    applyMunicipalityOps (testkitIds snapshot p) snapshot (p.municipalityOps.take count)
        = some register
      ∧ (register.municipalities.map (·.slug)).Nodup
      ∧ ((activeMunicipalities register).map (·.number)).Nodup

/-- A run keeps the keys safe exactly when it brings no dissolved municipality's slug. -/
theorem keysSafe_iff (keys : MunicipalityKeys snapshot) {inputs : SyncInputs}
    {p : SyncPlan Nat} (planned : plan snapshot inputs = some (.apply p))
    : KeysSafe snapshot p
      ↔ ∀ gone ∈ snapshot.municipalities, gone.status = .dissolved →
        ¬ Brings snapshot inputs.normalised gone.slug := by
  obtain ⟨_, steps, stepped, rfl⟩ := planWith_apply planned
  simp only [planSteps, Option.bind_eq_bind, Option.bind_eq_some_iff] at stepped
  obtain ⟨municipalities, first, schools, _, same⟩ := stepped
  cases same
  have fresh := testkitIds_fresh snapshot (assemble snapshot (municipalities, schools))
  obtain ⟨awaits, fit⟩ := keys.planned fresh first
    (testkitIds_covers snapshot (assemble snapshot (municipalities, schools))).municipalities
  refine (OpsFit.slugs_iff awaits fresh keys.table fit keys.slugs).trans ⟨?_, ?_⟩
  · intro apart gone inside dissolved brings
    rcases (planMunicipalities_givenSlugs first).2 brings with given | ⟨row, active, same⟩
    · obtain ⟨op, member, new⟩ := List.mem_filterMap.mp given
      exact apart op member gone.slug new gone inside dissolved rfl
    · simp only [activeMunicipalities, List.mem_filter, decide_eq_true_eq] at active
      have one : row = gone := List.inj_on_of_nodup_map keys.slugs active.1 inside same
      rw [one, dissolved] at active
      cases active.2
  · intro none_brought op member slug new gone inside dissolved same
    refine none_brought gone inside dissolved (same ▸ ?_)
    exact (planMunicipalities_givenSlugs first).1 (List.mem_filterMap.mpr ⟨op, member, new⟩)

/-- An open municipality that is kept by hand never gives up its number, so nothing brings the
slug of a dissolved one with that number.
-/
theorem keysSafe_of_kept (keys : MunicipalityKeys snapshot)
    (kept : ∀ gone ∈ snapshot.municipalities, gone.status = .dissolved →
      ∃ row ∈ snapshot.municipalities, row.status = .active ∧ row.source = .manual
        ∧ row.number = gone.number)
    {inputs : SyncInputs} {p : SyncPlan Nat}
    (planned : plan snapshot inputs = some (.apply p))
    : KeysSafe snapshot p := by
  obtain ⟨_, steps, stepped, rfl⟩ := planWith_apply planned
  simp only [planSteps, Option.bind_eq_bind, Option.bind_eq_some_iff] at stepped
  obtain ⟨municipalities, first, schools, _, same⟩ := stepped
  cases same
  have fresh := testkitIds_fresh snapshot (assemble snapshot (municipalities, schools))
  obtain ⟨awaits, fit⟩ := keys.planned fresh first
    (testkitIds_covers snapshot (assemble snapshot (municipalities, schools))).municipalities
  intro count
  have split : municipalities.ops
      = municipalities.ops.take count ++ municipalities.ops.drop count :=
    (List.take_append_drop _ _).symm
  rw [split] at awaits fit
  obtain ⟨register, run, _, table, _, _, byHand⟩ := OpsFit.reach awaits fresh keys.table fit
  refine ⟨register, run, table.nodup_slugs keys.slugs ?_, table.nodup_numbers⟩
  intro row inside active gone there dissolved same
  obtain ⟨keeper, known, open_keeper, manual, number⟩ := kept gone there dissolved
  have gone_row : gone ∈ register.municipalities := (table.frozen gone dissolved).mpr there
  have one : row = keeper := by
    refine table.numbers row inside keeper (byHand keeper known manual) active open_keeper ?_
    rw [number]
    exact (table.keyed row inside).number (table.keyed gone gone_row) same.symm
  have two : gone = keeper :=
    List.inj_on_of_nodup_map keys.slugs there known (same.trans (one ▸ rfl))
  rw [two, open_keeper] at dissolved
  cases dissolved

/-- Every run on a register keeps its municipality keys safe exactly when each dissolved
municipality's number is held by an open one that is kept by hand. A single run does exactly
when it brings no dissolved municipality's slug.
-/
theorem plan_municipalityKeys (keys : MunicipalityKeys snapshot)
    : ((∀ inputs p, plan snapshot inputs = some (.apply p) → KeysSafe snapshot p)
        ↔ ∀ gone ∈ snapshot.municipalities, gone.status = .dissolved →
          ∃ row ∈ snapshot.municipalities, row.status = .active ∧ row.source = .manual
            ∧ row.number = gone.number)
      ∧ ∀ inputs p, plan snapshot inputs = some (.apply p) →
        (KeysSafe snapshot p
          ↔ ∀ gone ∈ snapshot.municipalities, gone.status = .dissolved →
            ¬ Brings snapshot inputs.normalised gone.slug) := by
  refine ⟨⟨?_, ?_⟩, fun inputs p planned => keysSafe_iff keys planned⟩
  · intro safe gone inside dissolved
    by_contra unkept
    simp only [not_exists, not_and] at unkept
    obtain ⟨orgnr, unheld⟩ := exists_fresh_code (snapshot.schools.filterMap (·.orgnr))
    have brings := brings_of_dissolved keys orgnr inside dissolved unkept
    obtain ⟨p, planned⟩ := plan_listing keys _
      (fun s member own => unheld (List.mem_filterMap.mpr ⟨s, member, own⟩)) brings (by
        intro row active same
        simp only [activeMunicipalities, List.mem_filter, decide_eq_true_eq] at active
        have one : row = gone := List.inj_on_of_nodup_map keys.slugs active.1 inside same
        rw [one, dissolved] at active
        cases active.2)
    exact (keysSafe_iff keys planned).mp (safe _ p planned) gone inside dissolved brings
  · exact fun kept inputs p planned => keysSafe_of_kept keys kept planned

end

-----------------------------------------------------------------------------------------
-- A number that comes back

section

attribute [local instance] OsloZone.atEpoch UnicodeData.ascii

/-- Oslo under its first number, and a dissolved Oslo that had the second. -/
def reusedRegister : RegisterSnapshot Nat :=
  {
    municipalities := [
      ⟨1, "0101", "Oslo", some "Oslo", "03", "Oslo", "0101-oslo", .active, .kartverket, []⟩,
      ⟨2, "0102", "Oslo", some "Oslo", "03", "Oslo", "0102-oslo", .dissolved, .kartverket, []⟩]
    schools := []
    schoolOrgnrHistory := []
    schoolSlugHistory := []
    municipalitySlugHistory := []
  }

/-- The feed gives Oslo the second number. -/
def reusedInputs : SyncInputs :=
  {
    municipalities := [⟨"0102", "Oslo", "Oslo", "03", "Oslo", []⟩]
    codeChanges := [
      ⟨"0101", "Oslo", "0102", "Oslo", .ofParts 2024 1 1 rfl⟩]
    units := [sampleUnit "975288001" "Ask skole" false]
    kind := .sync
    moment := Moment.at 0
  }

theorem reusedRegister_keys : MunicipalityKeys reusedRegister where
  ids := by decide
  slugs := by decide
  keyed := by decide +kernel
  numbers := by decide

/-- The renumber gives the open municipality the dissolved one's slug. -/
theorem reusedNumber_repeats_slug
    : ¬ ∀ (snapshot : RegisterSnapshot Nat), MunicipalityKeys snapshot →
        ∀ inputs p, plan snapshot inputs = some (.apply p) → KeysSafe snapshot p := by
  intro claim
  have collides : (plan reusedRegister reusedInputs).any (fun outcome =>
      match outcome with
      | .apply p => (applyMunicipalityOps (testkitIds reusedRegister p) reusedRegister
          (p.municipalityOps.take 1)).any fun register =>
            !decide (register.municipalities.map (·.slug)).Nodup
      | _ => false) = true := by
    decide +kernel
  obtain ⟨outcome, planned, found⟩ := (Option.any_eq_true _ _).mp collides
  cases outcome with
  | apply p =>
      obtain ⟨register, run, repeated⟩ := (Option.any_eq_true _ _).mp found
      obtain ⟨register', run', distinct, _⟩ := claim _ reusedRegister_keys _ p planned 1
      cases run.symm.trans run'
      simp [distinct] at repeated
  | noChange => cases found
  | abort => cases found

/-- The sample register has no dissolved municipality, so every run on it is safe. -/
theorem sampleRegister_keysSafe
    : MunicipalityKeys sampleRegister
      ∧ ∀ inputs p, plan sampleRegister inputs = some (.apply p) → KeysSafe sampleRegister p := by
  have keys : MunicipalityKeys sampleRegister :=
    ⟨by decide, by decide, by decide +kernel, by decide⟩
  refine ⟨keys, (plan_municipalityKeys keys).1.mpr fun gone inside dissolved => ?_⟩
  cases List.mem_singleton.mp inside
  cases dissolved

end

end FauPortalen.Register

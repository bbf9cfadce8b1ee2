import FauPortalen.Register.Store.AppliedSearch
import FauPortalen.Register.Store.MunicipalityRefinement
import FauPortalen.Register.Sync.ResolvedSuccessors

/-! The school operations of the SQL applier refine the reference applier's, operation by operation.
-/

set_option linter.unusedSectionVars false

namespace FauPortalen.Register

open FauPortalen.Foundations Transaction Applier

variable {Id : Type} [LinearOrder Id] {s after before : RegisterTables Id}
  {out base : RegisterSnapshot Id} {ids : NewIds Id} {now : Timestamp}

-----------------------------------------------------------------------------------------
-- The slug one operation gives up

/-- A slug's history row, as the snapshot shows it. -/
def SchoolSlugRow.given (row : SchoolSlugRow Id) : Id × String × Id :=
  (row.municipalityId, row.slug, row.schoolId)

/-- The history of school slugs has the first that each school gave up in the run. -/
abbrev SchoolSlugsRecorded (now : Timestamp) (before s : RegisterTables Id)
    (given : List (Id × String × Id)) : Prop :=
  Recorded (·.schoolId) (·.validUntil) SchoolSlugRow.given (·.2.2) now before.schoolSlugs
    s.schoolSlugs given

/-- When the school became visible. -/
def SchoolRow.visibleFrom (row : SchoolRow Id) : Timestamp := row.verifiedAt.getD row.createdAt

/-- The history row of a slug that a school gives up, if it has had it for a while. -/
theorem schoolSlugRows_eq {row : SchoolRow Id} {municipality : Option Id} {old : String}
    (holds : s.Constraints) (member : row ∈ s.schools)
    : schoolSlugRows s row.id municipality old now
      = if (lastSchoolSlugEnd s row.id).getD row.visibleFrom < now then
          [⟨municipality.getD row.municipalityId, old, row.id,
            (lastSchoolSlugEnd s row.id).getD row.visibleFrom, now⟩]
        else [] := by
  rw [schoolSlugRows, filter_id_eq holds.schoolKeys member]
  unfold SchoolRow.visibleFrom
  by_cases room : (lastSchoolSlugEnd s row.id).getD (row.verifiedAt.getD row.createdAt) < now <;>
    simp [room]

/-- The reference reads the slug that an operation gives up off its target. -/
theorem SchoolOp.givesUp?_eq {op : SchoolOp Id} {row : SchoolRow Id} (holds : s.Constraints)
    (member : row ∈ s.schools) (target : op.target? = some row.id)
    : (op.givesUp? s = none ∧ op.given? (s.schoolSnapshot row) = none)
      ∨ ∃ municipality old, op.givesUp? s = some (row.id, municipality, old)
        ∧ op.given? (s.schoolSnapshot row)
          = some (municipality.getD row.municipalityId, old, row.id) := by
  cases op with
  | create => cases target
  | updateAttributes => exact .inl ⟨rfl, rfl⟩
  | close id reason closedOn successor =>
      cases target
      have found : s.schoolRow row.id = some row :=
        (findRow_eq_some holds.schoolKeys).mpr ⟨member, rfl⟩
      simp only [SchoolOp.givesUp?, SchoolOp.given?, found, Option.bind_some]
      change (row.slug.map _ = none ∧ row.slug.map _ = none) ∨ _
      cases slug : row.slug with
      | none => exact .inl ⟨rfl, rfl⟩
      | some old => exact .inr ⟨none, old, rfl, congrArg (Option.map _) slug⟩
  | rename id registerName displayName slug =>
      cases target
      simp only [SchoolOp.givesUp?, SchoolOp.given?]
      cases SlugChange.given slug with
      | none => exact .inl ⟨rfl, rfl⟩
      | some old => exact .inr ⟨none, old, rfl, rfl⟩
  | move id source home slug =>
      cases target
      simp only [SchoolOp.givesUp?, SchoolOp.given?]
      cases SlugChange.given slug with
      | none => exact .inl ⟨rfl, rfl⟩
      | some old => exact .inr ⟨some source, old, rfl, rfl⟩

theorem SchoolOp.givesUp?_of_create {op : SchoolOp Id} (target : op.target? = none)
    : op.givesUp? s = none := by
  cases op with
  | create => rfl
  | _ => cases target

/-- What an operation gives up is recorded when its school was visible before this moment. -/
theorem SchoolSlugsRecorded.operation {given : List (Id × String × Id)}
    (h : SchoolSlugsRecorded now before s given) {op : SchoolOp Id} (mirrors : Mirrors s out)
    (holds : s.Constraints)
    (started : ∀ id, op.target? = some id → ∃ row ∈ s.schools, row.id = id ∧ row.visibleFrom < now)
    (slugs : after.schoolSlugs = s.schoolSlugs ++ op.slugRows s now)
    : SchoolSlugsRecorded now before after (given ++ op.written out.schools) := by
  unfold SchoolSlugsRecorded
  rw [slugs, SchoolOp.slugRows]
  cases target : op.target? with
  | none =>
      rw [SchoolOp.givesUp?_of_create target]
      simpa [SchoolOp.written, target] using h
  | some id =>
      obtain ⟨row, member, rfl, earlier⟩ := started id target
      have shown : findRow SchoolSnapshot.id row.id out.schools = some (s.schoolSnapshot row) := by
        refine (findRow_eq_some (mirrors.school_ids.nodup_iff.mp holds.schoolKeys)).mpr ⟨?_, rfl⟩
        exact mirrors.schools.mem_iff.mp (List.mem_map_of_mem member)
      have written : op.written out.schools = (op.given? (s.schoolSnapshot row)).toList := by
        simp [SchoolOp.written, target, shown]
      rw [written]
      rcases SchoolOp.givesUp?_eq holds member target with ⟨nothing, same⟩
        | ⟨municipality, old, gives, same⟩
      · rw [nothing, same]
        simpa using h
      · rw [gives, same]
        dsimp only
        rw [Option.toList_some, schoolSlugRows_eq holds member]
        exact h.give ⟨_, old, row.id, _, now⟩ earlier rfl

-----------------------------------------------------------------------------------------
-- One operation beside the reference

/-- The tables after an operation show what the reference leaves. -/
theorem Mirrors.schoolOp [SearchData] (h : Mirrors s out) {op : SchoolOp Id}
    (writes : op.Writes ids now s after)
    : Mirrors after (op.result ids out) := by
  have municipalities : after.municipalities = s.municipalities := by rw [writes.others]
  have numbers : after.numbers = s.numbers := by rw [writes.others]
  have names : after.names = s.names := by rw [writes.others]
  have orgnrs : after.orgnrs = s.orgnrs := by rw [writes.others]
  obtain ⟨change, new, shows_⟩ := writes.rows
  refine ⟨?_, ?_, ?_⟩
  · have same : after.municipalities.map after.municipalitySnapshot
        = s.municipalities.map s.municipalitySnapshot := by
      rw [municipalities]
      exact List.map_congr_left fun row _ => by
        simp [RegisterTables.municipalitySnapshot, RegisterTables.numberOf,
          RegisterTables.namesOf, numbers, names]
    rw [same]
    exact h.municipalities
  · have step : (s.schools.map change).map after.schoolSnapshot
        = (s.schools.map s.schoolSnapshot).map (op.onRow ids) := by
      rw [List.map_map, List.map_map]
      exact List.map_congr_left fun row member => shows_.changed row member
    rw [shows_.table, List.map_append, step, shows_.created]
    exact (h.schools.map _).append_right _
  · rw [orgnrs]
    exact h.orgnrs

-----------------------------------------------------------------------------------------
-- The loop

/-- The school that an operation gives a slug up for, if it has one. -/
def SchoolOp.rekeyed? (op : SchoolOp Id) : Option Id := if op.rekeys then op.target? else none

/-- Only an operation that rekeys its school gives a slug up, and one at most. -/
theorem SchoolOp.written_owners (op : SchoolOp Id) (schools : List (SchoolSnapshot Id))
    : ((op.written schools).map (·.2.2)).Sublist op.rekeyed?.toList := by
  unfold SchoolOp.written
  cases found : (op.target?.bind fun id => findRow SchoolSnapshot.id id schools).bind op.given? with
  | none => exact List.nil_sublist _
  | some row =>
      obtain ⟨s, _, gives⟩ := Option.bind_eq_some_iff.mp found
      have own : op.rekeyed? = some row.2.2 := by
        cases op with
        | close =>
            obtain ⟨_, _, rfl⟩ := Option.map_eq_some_iff.mp gives
            rfl
        | rename id registerName displayName slug =>
            obtain ⟨old, changes, rfl⟩ := Option.map_eq_some_iff.mp gives
            obtain ⟨change, rfl, _⟩ := Option.bind_eq_some_iff.mp changes
            rfl
        | move =>
            obtain ⟨_, _, rfl⟩ := Option.map_eq_some_iff.mp gives
            rfl
        | updateAttributes | create => cases gives
      rw [own]
      exact List.Sublist.refl _

/-- An update rekeys its school once at most. -/
theorem PlannedUpdate.rekeyed {p : PlannedUpdate Id} (once : p.RekeysOnce)
    : (p.ops.filterMap SchoolOp.rekeyed?).Sublist [p.update.school.id] := by
  unfold PlannedUpdate.ops PlannedUpdate.renameOps PlannedUpdate.moveOps attributeOps
  by_cases changed : p.update.attributes = p.update.school.attributes
    <;> cases renames : p.update.isRenamed <;> cases moving : p.update.isMoving with
  | false =>
      cases slug : p.renamed
        <;> simp [changed, SchoolOp.rekeyed?, SchoolOp.rekeys, SchoolOp.target?]
  | true =>
      simp [changed, once.renamed_eq_none moving, SchoolOp.rekeyed?, SchoolOp.rekeys,
        SchoolOp.target?]

/-- No plan rekeys a school twice. -/
theorem planSteps_rekeys [SearchData] [OsloZone] {snapshot : RegisterSnapshot Id}
    {inputs : SyncInputs} {steps : MunicipalityPlan Id × SchoolPlan Id}
    (unique : (snapshot.schools.map (·.id)).Nodup)
    (planned : planSteps snapshot inputs = some steps)
    : (steps.2.ops.filterMap SchoolOp.rekeyed?).Nodup := by
  obtain ⟨_, distinct, second⟩ := planSteps_parts planned
  refine nodup_acted unique distinct second (fun op id named => ?_) fun p once =>
    PlannedUpdate.rekeyed once
  unfold SchoolOp.rekeyed? at named
  split at named
  · exact named
  · cases named

/-- What holds while the school operations run, with the ones to come. -/
structure SchoolPhase (ids : NewIds Id) (now : Timestamp) (before : RegisterTables Id)
    (base : RegisterSnapshot Id) (s : RegisterTables Id) (out : RegisterSnapshot Id)
    (rest : List (SchoolOp Id)) : Prop where
  constraints : s.Constraints
  numbers : NumbersApart out.municipalities
  mirrors : Mirrors s out
  others : s = { before with schools := s.schools, schoolSlugs := s.schoolSlugs }
  untouched : out = { base with
    schools := out.schools
    schoolSlugHistory := out.schoolSlugHistory }
  given : ∃ given, out.schoolSlugHistory = base.schoolSlugHistory ++ given
    ∧ SchoolSlugsRecorded now before s given
    ∧ (given.map (·.2.2) ++ rest.filterMap SchoolOp.rekeyed?).Nodup
  contains : before.schoolIds ⊆ s.schoolIds
  started : ∀ row ∈ s.schools, row.id ∈ before.schoolIds → row.visibleFrom < now
  successors : ∀ row ∈ s.schools, ∀ old ∈ before.schools, row.id = old.id →
    row.successorId = old.successorId
  unlinked : ∀ row ∈ s.schools, row.id ∉ before.schoolIds → row.successorId = none
  targets : ∀ op ∈ rest, ∀ id, op.target? = some id → id ∈ before.schoolIds

/-- One operation's statements are a step of the reference that passes its checks. -/
theorem SchoolPhase.step [SearchData] {op : SchoolOp Id} {rest : List (SchoolOp Id)}
    (h : SchoolPhase ids now before base s out (op :: rest)) (writes : op.Writes ids now s after)
    : stepSchoolOp ids out op = some (op.result ids out)
      ∧ SchoolPhase ids now before base after (op.result ids out) rest := by
  have mirrors := h.mirrors.schoolOp writes
  have applied : applySchoolOp ids out op = some (op.result ids out) := by
    refine applySchoolOp_eq (h.mirrors.school_ids.nodup_iff.mp h.constraints.schoolKeys)
      (fun id target => ?_) writes.resolves
    exact h.mirrors.school_ids.mem_iff.mp (writes.present id target)
  have checks := mirrors.checkInvariants writes.constraints h.numbers
  obtain ⟨change, new, shows_⟩ := writes.rows
  have kept_ids : after.schoolIds = s.schoolIds ++ new.map (·.id) := by
    rw [RegisterTables.schoolIds, shows_.table, List.map_append, List.map_map]
    congr 1
    exact List.map_congr_left fun row _ => (shows_.keeps row).1
  have keys := writes.constraints.schoolKeys
  rw [kept_ids] at keys
  -- a new row's id is not among the ids before the run
  have apart {row : SchoolRow Id} (created : row ∈ new) : row.id ∉ before.schoolIds :=
    fun known => absurd rfl ((List.nodup_append.mp keys).2.2 _ (h.contains known) _
      (List.mem_map_of_mem created))
  obtain ⟨given, history, recorded, once⟩ := h.given
  refine ⟨by simp [stepSchoolOp, applied, checked, checks], writes.constraints, h.numbers,
    mirrors, ?_, ?_, ⟨given ++ op.written out.schools, ?_, ?_, ?_⟩, ?_, ?_, ?_, ?_, ?_⟩
  · rw [writes.others, h.others]
  · rw [SchoolOp.result, h.untouched]
  · simp only [SchoolOp.result]
    rw [history, List.append_assoc]
  · refine recorded.operation h.mirrors h.constraints (fun id target => ?_) writes.slugs
    obtain ⟨row, member, same⟩ := List.mem_map.mp (writes.present id target)
    exact ⟨row, member, same, h.started row member
      (same ▸ h.targets op List.mem_cons_self id target)⟩
  · refine once.sublist ?_
    rw [List.map_append, List.append_assoc, ← List.singleton_append, List.filterMap_append]
    refine (List.Sublist.refl _).append (List.Sublist.append ?_ (List.Sublist.refl _))
    have own : op.rekeyed?.toList = [op].filterMap SchoolOp.rekeyed? := by
      rw [List.filterMap_cons]
      cases op.rekeyed? <;> rfl
    exact own ▸ op.written_owners out.schools
  · rw [kept_ids]
    exact fun id member => List.mem_append_left _ (h.contains member)
  · intro row member known
    rw [shows_.table] at member
    rcases List.mem_append.mp member with old | created
    · obtain ⟨earlier, inside, rfl⟩ := List.mem_map.mp old
      obtain ⟨id, createdAt, verifiedAt, _⟩ := shows_.keeps earlier
      rw [id] at known
      rw [SchoolRow.visibleFrom, verifiedAt, createdAt]
      exact h.started earlier inside known
    · exact absurd known (apart created)
  · intro row member old known same
    rw [shows_.table] at member
    rcases List.mem_append.mp member with kept | created
    · obtain ⟨earlier, inside, rfl⟩ := List.mem_map.mp kept
      obtain ⟨id, _, _, successor⟩ := shows_.keeps earlier
      rw [successor]
      exact h.successors earlier inside old known (id.symm.trans same)
    · exact absurd (same ▸ List.mem_map_of_mem known) (apart created)
  · intro row member new_row
    rw [shows_.table] at member
    rcases List.mem_append.mp member with kept | created
    · obtain ⟨earlier, inside, rfl⟩ := List.mem_map.mp kept
      obtain ⟨id, _, _, successor⟩ := shows_.keeps earlier
      rw [successor]
      exact h.unlinked earlier inside (id ▸ new_row)
    · exact shows_.linked row created
  · exact fun later inside => h.targets later (List.mem_cons_of_mem _ inside)

/-- The loop over the school operations is the reference's, and collects every link. -/
theorem SchoolPhase.run [SearchData] [OsloZone] {moment : Moment} {ops : List (SchoolOp Id)}
    {links : List (Id × Id)} (h : SchoolPhase ids moment.now before base s out ops)
    (commits : (ops.foldlM (schoolPass ids moment) []).Commits s links after)
    : ∃ last, ops.foldlM (stepSchoolOp ids) out = some last
        ∧ SchoolPhase ids moment.now before base after last []
        ∧ links = successorLinks ids ops
        ∧ ∀ pending ∈ ops.filterMap pendingSuccessor?, (ids.schoolId pending.2).isSome := by
  let I := fun (links : List (Id × Id)) (s : RegisterTables Id) (out : RegisterSnapshot Id)
      (rest : List (SchoolOp Id)) =>
    SchoolPhase ids moment.now before base s out rest
      ∧ ∃ done, ops = done ++ rest ∧ links = successorLinks ids done
        ∧ ∀ pending ∈ done.filterMap pendingSuccessor?, (ids.schoolId pending.2).isSome
  have begun : I [] s out ops := ⟨h, [], rfl, rfl, fun _ none => (List.not_mem_nil none).elim⟩
  obtain ⟨last, run, phase, done, all, collected, named⟩ :=
    commits.foldlM_simulates (P := I) (fun links s out op rest next after both stepped => by
      obtain ⟨phase, done, all, rfl, named⟩ := both
      obtain ⟨written, collects⟩ := of_schoolPass stepped
      obtain ⟨reference, later⟩ := phase.step (writes_of_applySchoolOp written phase.constraints)
      refine ⟨_, reference, later, done ++ [op], by simpa using all, ?_⟩
      rcases collects with ⟨none_pending, rfl⟩ | ⟨closed, successor, id, pending, resolved, rfl⟩
      · simp only [successorLinks, List.filterMap_append, List.filterMap_cons, none_pending,
          List.filterMap_nil, List.append_nil]
        exact ⟨trivial, named⟩
      · refine ⟨by simp [successorLinks, List.filterMap_append, pending, resolved], ?_⟩
        intro other member
        rw [List.filterMap_append, List.mem_append] at member
        rcases member with old | new
        · exact named other old
        · simp only [List.filterMap_cons, pending, List.filterMap_nil, List.mem_singleton] at new
          rw [new, resolved]
          rfl) begun
  rw [List.append_nil] at all
  subst all
  exact ⟨last, run, phase, collected, named⟩

end FauPortalen.Register

import FauPortalen.Foundations.Simulation
import FauPortalen.Register.Store.Mirrors

/-! The municipality operations of the SQL applier refine the reference applier's, operation by
operation.
-/

set_option linter.unusedSectionVars false

namespace FauPortalen.Register

open FauPortalen.Foundations Transaction Applier

variable {Id : Type} [LinearOrder Id] {s after before : RegisterTables Id}
  {out snapshot : RegisterSnapshot Id} {ids : NewIds Id} {now : Timestamp}

-----------------------------------------------------------------------------------------
-- The rows of one operation

/-- A slug's history row, as the snapshot shows it. -/
def MunicipalitySlugRow.given (row : MunicipalitySlugRow Id) : String × Id :=
  (row.slug, row.municipalityId)

/-- The history of municipality slugs has the first that each municipality gave up in the run. -/
abbrev MunicipalitySlugsRecorded (now : Timestamp) (before s : RegisterTables Id)
    (given : List (String × Id)) : Prop :=
  Recorded (·.municipalityId) (·.validUntil) MunicipalitySlugRow.given Prod.snd now
    before.municipalitySlugs s.municipalitySlugs given

/-- The rows with one id are the one row that has it. -/
theorem filter_id_eq {ρ : Type} {key : ρ → Id} {rows : List ρ} {row : ρ}
    (unique : (rows.map key).Nodup) (member : row ∈ rows)
    : rows.filter (key · = key row) = [row] := by
  refine List.perm_singleton.mp ((List.perm_ext_iff_of_nodup
    ((unique.of_map _).filter _) (List.nodup_singleton _)).mpr fun other => ?_)
  rw [List.mem_filter, List.mem_singleton, decide_eq_true_eq]
  constructor
  · exact fun both => List.inj_on_of_nodup_map unique both.1 member both.2
  · rintro rfl
    exact ⟨member, rfl⟩

/-- The history row of a slug that a municipality gives up, if it has had it for a while. -/
theorem municipalitySlugRows_eq {row : MunicipalityRow Id} {old : String} (holds : s.Constraints)
    (member : row ∈ s.municipalities)
    : municipalitySlugRows s row.id old now
      = if (lastMunicipalitySlugEnd s row.id).getD row.createdAt < now then
          [⟨old, row.id, (lastMunicipalitySlugEnd s row.id).getD row.createdAt, now⟩]
        else [] := by
  rw [municipalitySlugRows, filter_id_eq holds.municipalityKeys member]
  by_cases room : (lastMunicipalitySlugEnd s row.id).getD row.createdAt < now <;> simp [room]

/-- What an operation gives up is recorded when its municipality was there before this moment. -/
theorem MunicipalitySlugsRecorded.operation {given : List (String × Id)}
    (h : MunicipalitySlugsRecorded now before s given) {op : MunicipalityOp Id}
    (holds : s.Constraints)
    (started : ∀ id, op.target? = some id → ∃ row ∈ s.municipalities,
      row.id = id ∧ row.createdAt < now)
    (slugs : after.municipalitySlugs = s.municipalitySlugs ++ op.slugRows s now)
    : MunicipalitySlugsRecorded now before after (given ++ op.given?.toList) := by
  unfold MunicipalitySlugsRecorded
  rw [slugs, MunicipalityOp.slugRows]
  cases gives : op.given? with
  | none => simpa using h
  | some value =>
      have target : op.target? = some value.2 := by
        cases op with
        | renumber => cases gives; rfl
        | rename =>
            simp only [MunicipalityOp.given?] at gives
            split at gives
            · cases gives
              rfl
            · cases gives
        | create => cases gives
        | updateDetails => cases gives
      obtain ⟨row, member, same, earlier⟩ := started _ target
      obtain ⟨old, id⟩ := value
      dsimp only at same
      subst same
      dsimp only
      rw [Option.toList_some, municipalitySlugRows_eq holds member]
      exact h.give ⟨old, row.id, _, now⟩ earlier rfl

-----------------------------------------------------------------------------------------
-- One operation beside the reference

/-- The tables after an operation show what the reference leaves. -/
theorem Mirrors.municipalityOp (h : Mirrors s out) {op : MunicipalityOp Id} {touched : Id}
    (writes : op.Writes ids now touched s after) (names : op.NamesRow out.municipalities)
    : Mirrors after (op.result ids out) := by
  have schools : after.schools = s.schools := by rw [writes.others]
  have tenants : after.tenants = s.tenants := by rw [writes.others]
  have orgnrs : after.orgnrs = s.orgnrs := by rw [writes.others]
  have current : op.Current s := by
    intro row member target
    obtain ⟨m, inside, _, id, slug, _, number⟩ := h.municipality member
    have named := names m inside (id ▸ target)
    exact ⟨fun old given => slug ▸ named.slug old given,
      fun old given => number.trans (congrArg some (named.number old given))⟩
  obtain ⟨change, new, shows_⟩ := writes.rows
  refine ⟨?_, ?_, ?_⟩
  · have step : (s.municipalities.map change).map after.municipalitySnapshot
        = (s.municipalities.map s.municipalitySnapshot).map
          (Option.map fun m => (op.onRow m).inOrder) := by
      rw [List.map_map, List.map_map]
      exact List.map_congr_left fun row member => shows_.changed current row member
    have reference : (out.municipalities.map op.onRow).map (fun m => some m.inOrder)
        = (out.municipalities.map fun m => some m.inOrder).map
          (Option.map fun m => (op.onRow m).inOrder) := by
      rw [List.map_map, List.map_map]
      exact List.map_congr_left fun m _ => congrArg some (op.onRow_inOrder m).symm
    rw [shows_.table, List.map_append, step, shows_.created]
    simp only [MunicipalityOp.result]
    rw [List.map_append, reference]
    exact (h.municipalities.map _).append_right _
  · have same : after.schools.map after.schoolSnapshot = s.schools.map s.schoolSnapshot := by
      rw [schools]
      exact List.map_congr_left fun row _ => by
        simp [RegisterTables.schoolSnapshot, RegisterTables.hasLiveFau, tenants]
    rw [same]
    exact h.schools
  · rw [orgnrs]
    exact h.orgnrs

-----------------------------------------------------------------------------------------
-- The loop

/-- The official names that an operation writes. -/
def MunicipalityOp.names : MunicipalityOp Id → List OfficialName
  | .create _ _ _ _ _ _ _ names _ => names
  | .updateDetails _ _ _ _ names => names
  | .renumber .. | .rename .. => []

/-- A name of the result is one of the register or of the operation. -/
theorem MunicipalityOp.mem_result_names {op : MunicipalityOp Id} {m : MunicipalitySnapshot Id}
    {n : OfficialName} (member : m ∈ (op.result ids out).municipalities) (named : n ∈ m.names)
    : (∃ before ∈ out.municipalities, n ∈ before.names) ∨ n ∈ op.names := by
  rcases List.mem_append.mp member with old | created
  · obtain ⟨before, inside, rfl⟩ := List.mem_map.mp old
    unfold MunicipalityOp.onRow at named
    split at named
    · cases op with
      | updateDetails => exact .inr named
      | _ => exact .inl ⟨before, inside, named⟩
    · exact .inl ⟨before, inside, named⟩
  · cases op with
    | create =>
        obtain ⟨_, _, rfl⟩ := List.mem_map.mp created
        exact .inr named
    | _ => cases created

/-- Of what is given up in the run, each municipality's first is the slug it had before; one that
has given nothing up still has it.
-/
structure FirstsGiven (snapshot out : RegisterSnapshot Id) (given : List (String × Id)) : Prop where
  firsts : ∀ g ∈ keepFirst Prod.snd [] given, ∃ m ∈ snapshot.municipalities,
    m.id = g.2 ∧ m.slug = g.1
  kept : ∀ m ∈ snapshot.municipalities, m.id ∉ given.map Prod.snd →
    ∃ n ∈ out.municipalities, n.id = m.id ∧ n.slug = m.slug

omit [LinearOrder Id] in
/-- What an operation gives up is its target's old slug. -/
theorem MunicipalityOp.of_given? {op : MunicipalityOp Id} {old : String} {id : Id}
    (gives : op.given? = some (old, id))
    : op.target? = some id ∧ op.oldSlug? = some old := by
  cases op with
  | renumber =>
      cases gives
      exact ⟨rfl, rfl⟩
  | rename =>
      simp only [MunicipalityOp.given?] at gives
      split at gives
      · cases gives
        exact ⟨rfl, rfl⟩
      · cases gives
  | create | updateDetails => cases gives

/-- An operation that gives no slug up leaves the slugs. -/
theorem MunicipalityOp.onRow_slug {op : MunicipalityOp Id} (gives : op.given? = none)
    (m : MunicipalitySnapshot Id)
    : (op.onRow m).slug = m.slug := by
  unfold MunicipalityOp.onRow
  split
  · cases op with
    | renumber => cases gives
    | rename id name oldSlug newSlug =>
        simp only [MunicipalityOp.given?] at gives
        split at gives
        · cases gives
        · next same => simp [MunicipalityOp.change, same]
    | create | updateDetails => rfl
  · rfl

/-- One more operation gives its municipality's slug up, the first or a later one. -/
theorem FirstsGiven.operation {given : List (String × Id)} (h : FirstsGiven snapshot out given)
    {op : MunicipalityOp Id} (names : op.NamesRow out.municipalities)
    (known : ∀ id, op.target? = some id → id ∈ snapshot.municipalities.map (·.id))
    : FirstsGiven snapshot (op.result ids out) (given ++ op.given?.toList) := by
  have stays {m : MunicipalitySnapshot Id} (member : m ∈ out.municipalities)
      : op.onRow m ∈ (op.result ids out).municipalities :=
    List.mem_append_left _ (List.mem_map_of_mem member)
  cases gives : op.given? with
  | none =>
      rw [Option.toList_none, List.append_nil]
      refine ⟨h.firsts, fun m member idle => ?_⟩
      obtain ⟨n, inside, same, slug⟩ := h.kept m member idle
      exact ⟨op.onRow n, stays inside, (op.onRow_id n).trans same,
        (MunicipalityOp.onRow_slug gives n).trans slug⟩
  | some value =>
      obtain ⟨old, id⟩ := value
      obtain ⟨target, named⟩ := MunicipalityOp.of_given? gives
      rw [Option.toList_some]
      refine ⟨fun g member => ?_, fun m member idle => ?_⟩
      · rw [keepFirst_concat] at member
        rcases List.mem_append.mp member with before | last
        · exact h.firsts g before
        · split at last
          · cases last
          · next first =>
              obtain rfl := List.mem_singleton.mp last
              obtain ⟨m, present, own⟩ := List.mem_map.mp (known id target)
              obtain ⟨n, inside, same, slug⟩ :=
                h.kept m present fun seen => first (.inr (own ▸ seen))
              refine ⟨m, present, own, slug.symm.trans ?_⟩
              exact (names n inside (target.trans (congrArg some (same.trans own).symm))).slug old
                named
      · rw [List.map_append, List.mem_append, not_or] at idle
        obtain ⟨n, inside, same, slug⟩ := h.kept m member idle.1
        have other : op.onRow n = n := by
          refine MunicipalityOp.onRow_of_ne fun here => idle.2 ?_
          rw [target, same] at here
          exact List.mem_singleton.mpr (Option.some.inj here).symm
        exact ⟨n, other ▸ stays inside, same, slug⟩

/-- What holds while the municipality operations run, with the ones to come. -/
structure MunicipalityPhase (ids : NewIds Id) (now : Timestamp) (before : RegisterTables Id)
    (snapshot : RegisterSnapshot Id) (s : RegisterTables Id) (out : RegisterSnapshot Id)
    (rest : List (MunicipalityOp Id)) : Prop where
  constraints : s.Constraints
  numbers : NumbersApart out.municipalities
  mirrors : Mirrors s out
  others : s = { before with
    municipalities := s.municipalities
    names := s.names
    numbers := s.numbers
    municipalitySlugs := s.municipalitySlugs }
  untouched : out = { snapshot with
    municipalities := out.municipalities
    municipalitySlugHistory := out.municipalitySlugHistory }
  given : ∃ given, out.municipalitySlugHistory = snapshot.municipalitySlugHistory ++ given
    ∧ MunicipalitySlugsRecorded now before s given ∧ FirstsGiven snapshot out given
  contains : before.municipalityIds ⊆ s.municipalityIds
  started : ∀ row ∈ s.municipalities, row.id ∈ before.municipalityIds → row.createdAt < now
  names : OpsNameRows ids out.municipalities rest
  fits : OpsFit ids out.municipalities rest
  bytes : ∀ m ∈ out.municipalities, ∀ n ∈ m.names, n.priority < 256
  newBytes : ∀ op ∈ rest, ∀ n ∈ op.names, n.priority < 256
  targets : ∀ op ∈ rest, ∀ id, op.target? = some id →
    id ∈ before.municipalityIds ∧ id ∈ snapshot.municipalities.map (·.id)

/-- One operation's statements are a step of the reference that passes its checks. -/
theorem MunicipalityPhase.step {op : MunicipalityOp Id} {rest : List (MunicipalityOp Id)}
    (h : MunicipalityPhase ids now before snapshot s out (op :: rest)) {touched : Id}
    (writes : op.Writes ids now touched s after)
    : stepMunicipalityOp ids out op = some (op.result ids out)
      ∧ MunicipalityPhase ids now before snapshot after (op.result ids out) rest := by
  have mirrors := h.mirrors.municipalityOp writes h.names.1
  have applied : applyMunicipalityOp ids out op = some (op.result ids out) := by
    refine applyMunicipalityOp_eq (h.mirrors.municipality_ids.nodup_iff.mp
      h.constraints.municipalityKeys) (fun id target => ?_) writes.resolves
    exact h.mirrors.municipality_ids.mem_iff.mp (writes.present id target)
  have numbers : NumbersApart (op.result ids out).municipalities :=
    h.numbers.step (h.mirrors.municipality_ids.nodup_iff.mp h.constraints.municipalityKeys)
      h.fits.1
  have checks := mirrors.checkInvariants writes.constraints numbers
  obtain ⟨change, new, shows_⟩ := writes.rows
  have kept_ids : after.municipalityIds = s.municipalityIds ++ new.map (·.id) := by
    rw [RegisterTables.municipalityIds, shows_.table, List.map_append, List.map_map]
    congr 1
    exact List.map_congr_left fun row _ => (shows_.keeps row).1
  obtain ⟨given, history, recorded, firsts⟩ := h.given
  refine ⟨by simp [stepMunicipalityOp, applied, checked, checks], writes.constraints, numbers,
    mirrors, ?_, ?_, ⟨given ++ op.given?.toList, ?_, ?_, ?_⟩, ?_, ?_, h.names.2, h.fits.2, ?_, ?_,
    ?_⟩
  · rw [writes.others, h.others]
  · rw [MunicipalityOp.result, h.untouched]
  · simp only [MunicipalityOp.result]
    rw [history, List.append_assoc]
  · refine recorded.operation h.constraints (fun id target => ?_) writes.slugs
    obtain ⟨row, member, same⟩ := List.mem_map.mp (writes.present id target)
    exact ⟨row, member, same, h.started row member
      (same ▸ (h.targets op List.mem_cons_self id target).1)⟩
  · exact firsts.operation h.names.1 fun id target =>
      (h.targets op List.mem_cons_self id target).2
  · rw [kept_ids]
    exact fun id member => List.mem_append_left _ (h.contains member)
  · intro row member known
    rw [shows_.table] at member
    rcases List.mem_append.mp member with old | created
    · obtain ⟨earlier, inside, rfl⟩ := List.mem_map.mp old
      rw [(shows_.keeps earlier).1] at known
      rw [(shows_.keeps earlier).2.1]
      exact h.started earlier inside known
    · have keys := writes.constraints.municipalityKeys
      rw [kept_ids] at keys
      exact absurd rfl ((List.nodup_append.mp keys).2.2 _ (h.contains known) _
        (List.mem_map_of_mem created))
  · intro m member n named
    rcases MunicipalityOp.mem_result_names member named with ⟨before, inside, known⟩ | new_name
    · exact h.bytes before inside n known
    · exact h.newBytes op List.mem_cons_self n new_name
  · exact fun later inside => h.newBytes later (List.mem_cons_of_mem _ inside)
  · exact fun later inside => h.targets later (List.mem_cons_of_mem _ inside)

/-- The loop over the municipality operations is the reference's. -/
theorem MunicipalityPhase.run [OsloZone] {moment : Moment} {ops : List (MunicipalityOp Id)}
    {touched : List Id} (h : MunicipalityPhase ids moment.now before snapshot s out ops)
    (commits : (ops.foldlM (fun touched op => do
      let id ← Applier.applyMunicipalityOp ids moment op
      return touched ++ [id]) ([] : List Id)).Commits s touched after)
    : ∃ base, ops.foldlM (stepMunicipalityOp ids) out = some base
        ∧ MunicipalityPhase ids moment.now before snapshot after base [] := by
  refine commits.foldlM_simulates
    (P := fun _ s out rest => MunicipalityPhase ids moment.now before snapshot s out rest) ?_ h
  intro touched s out op rest touched' after phase stepped
  obtain ⟨id, middle, written, ended⟩ := commits_bind.mp stepped
  obtain ⟨rfl, rfl⟩ := commits_pure.mp ended
  exact ⟨_, phase.step (writes_of_applyMunicipalityOp written phase.constraints)⟩

end FauPortalen.Register

import FauPortalen.Register.Sync.SchoolEffects
import FauPortalen.Register.Sync.MunicipalityNames
import FauPortalen.Register.Sync.SlugSafety

/-! What one municipality operation does to a register, and that the municipality
operations of a plan run to their end without touching a school.
-/

set_option linter.unusedSectionVars false

namespace FauPortalen.Register

open FauPortalen.Foundations

variable {Id : Type}

-----------------------------------------------------------------------------------------
-- The parts of an operation

/-- The row an operation leaves of its target. -/
def MunicipalityOp.change
    : MunicipalityOp Id → MunicipalitySnapshot Id → MunicipalitySnapshot Id
  | .renumber _ _ toNumber _ name _ newSlug, m =>
      { m with number := toNumber, name := name.getD m.name, slug := newSlug }
  | .rename _ name oldSlug newSlug, m =>
      { m with name := name, slug := if oldSlug ≠ newSlug then newSlug else m.slug }
  | .updateDetails _ officialName countyNumber countyName names, m =>
      { m with
        officialName := officialName
        countyNumber := countyNumber
        countyName := countyName
        names := names }
  | .create .., m => m

/-- The rows an operation creates. -/
def MunicipalityOp.rows (ids : NewIds Id)
    : MunicipalityOp Id → List (MunicipalitySnapshot Id)
  | .create new number name officialName countyNumber countyName slug names source =>
      (ids.municipality new).toList.map fun id =>
        ⟨id, number, name, officialName, countyNumber, countyName, slug, .active, source,
          names⟩
  | _ => []

/-- The slug an operation puts into history. -/
def MunicipalityOp.given? : MunicipalityOp Id → Option (String × Id)
  | .renumber id _ _ _ _ oldSlug _ => some (oldSlug, id)
  | .rename id _ oldSlug newSlug => if oldSlug ≠ newSlug then some (oldSlug, id) else none
  | .updateDetails .. | .create .. => none

/-- The row an operation creates has an id. -/
def MunicipalityOp.Resolves (ids : NewIds Id) : MunicipalityOp Id → Prop
  | .create new .. => (ids.municipality new).isSome
  | _ => True

@[simp]
theorem MunicipalityOp.change_id (op : MunicipalityOp Id) (m : MunicipalitySnapshot Id)
    : (op.change m).id = m.id := by
  cases op <;> rfl

@[simp]
theorem MunicipalityOp.change_status (op : MunicipalityOp Id) (m : MunicipalitySnapshot Id)
    : (op.change m).status = m.status := by
  cases op <;> rfl

section

variable [DecidableEq Id]

/-- The operation on any row: it changes its target and no other. -/
def MunicipalityOp.onRow (op : MunicipalityOp Id) (m : MunicipalitySnapshot Id)
    : MunicipalitySnapshot Id :=
  if op.target? = some m.id then op.change m else m

/-- The register an operation leaves. -/
def MunicipalityOp.result (ids : NewIds Id) (op : MunicipalityOp Id)
    (out : RegisterSnapshot Id) : RegisterSnapshot Id :=
  { out with
    municipalities := out.municipalities.map op.onRow ++ op.rows ids
    municipalitySlugHistory := out.municipalitySlugHistory ++ op.given?.toList }

@[simp]
theorem MunicipalityOp.onRow_id (op : MunicipalityOp Id) (m : MunicipalitySnapshot Id)
    : (op.onRow m).id = m.id := by
  unfold MunicipalityOp.onRow
  split
  · exact MunicipalityOp.change_id _ _
  · rfl

@[simp]
theorem MunicipalityOp.onRow_status (op : MunicipalityOp Id) (m : MunicipalitySnapshot Id)
    : (op.onRow m).status = m.status := by
  unfold MunicipalityOp.onRow
  split
  · exact MunicipalityOp.change_status _ _
  · rfl

theorem MunicipalityOp.onRow_of_ne {op : MunicipalityOp Id} {m : MunicipalitySnapshot Id}
    (h : op.target? ≠ some m.id)
    : op.onRow m = m := by
  simp [MunicipalityOp.onRow, h]

theorem MunicipalityOp.onRow_of_eq {op : MunicipalityOp Id} {m : MunicipalitySnapshot Id}
    (h : op.target? = some m.id)
    : op.onRow m = op.change m := by
  simp [MunicipalityOp.onRow, h]

theorem MunicipalityOp.onRow_eq_changeAt {op : MunicipalityOp Id} {id : Id}
    (h : op.target? = some id)
    : op.onRow = changeAt MunicipalitySnapshot.id id op.change := by
  funext m
  simp [MunicipalityOp.onRow, changeAt, h, eq_comm]

end

-----------------------------------------------------------------------------------------
-- The applier's step

section

variable [LinearOrder Id] {ids : NewIds Id} {out after : RegisterSnapshot Id}

theorem municipalityMut_eq_some (unique : (out.municipalities.map (·.id)).Nodup) {id : Id}
    {change : MunicipalitySnapshot Id → MunicipalitySnapshot Id}
    : municipalityMut out id change = some after
      ↔ id ∈ out.municipalities.map (·.id)
        ∧ after = { out with
          municipalities :=
            out.municipalities.map (changeAt MunicipalitySnapshot.id id change) } := by
  simp only [municipalityMut, Option.map_eq_some_iff, modifyRow_eq_some unique]
  constructor
  · rintro ⟨_, ⟨present, rows⟩, same⟩
    subst rows same
    exact ⟨present, rfl⟩
  · rintro ⟨present, same⟩
    exact ⟨_, ⟨present, rfl⟩, same.symm⟩

/-- The result of an operation with a target. -/
theorem MunicipalityOp.result_of_target {op : MunicipalityOp Id} {id : Id}
    (target : op.target? = some id)
    : op.result ids out = { out with
        municipalities :=
          out.municipalities.map (changeAt MunicipalitySnapshot.id id op.change)
        municipalitySlugHistory := out.municipalitySlugHistory ++ op.given?.toList } := by
  have rows : op.rows ids = [] := by
    cases op with
    | create => cases target
    | _ => rfl
  simp [MunicipalityOp.result, rows, MunicipalityOp.onRow_eq_changeAt target]

/-- The result of a creation. -/
theorem MunicipalityOp.result_of_create {op : MunicipalityOp Id} (target : op.target? = none)
    : op.result ids out
      = { out with municipalities := out.municipalities ++ op.rows ids } := by
  have same : out.municipalities.map op.onRow = out.municipalities := by
    refine (List.map_congr_left fun m _ => ?_).trans out.municipalities.map_id
    exact MunicipalityOp.onRow_of_ne (by simp [target])
  have given : op.given? = none := by
    cases op with
    | create => rfl
    | _ => cases target
  simp [MunicipalityOp.result, same, given]

/-- With unique ids, an operation whose target is present and whose new row has an id
leaves exactly its described result.
-/
theorem applyMunicipalityOp_eq (unique : (out.municipalities.map (·.id)).Nodup)
    {op : MunicipalityOp Id}
    (present : ∀ id, op.target? = some id → id ∈ out.municipalities.map (·.id))
    (resolves : op.Resolves ids)
    : applyMunicipalityOp ids out op = some (op.result ids out) := by
  have mutated {id : Id} (change : MunicipalitySnapshot Id → MunicipalitySnapshot Id)
      (here : id ∈ out.municipalities.map (·.id))
      : municipalityMut out id change = some { out with
          municipalities :=
            out.municipalities.map (changeAt MunicipalitySnapshot.id id change) } :=
    (municipalityMut_eq_some unique).mpr ⟨here, rfl⟩
  cases op with
  | create new number name officialName countyNumber countyName slug names source =>
      obtain ⟨id, hid⟩ := Option.isSome_iff_exists.mp resolves
      rw [MunicipalityOp.result_of_create rfl]
      simp [applyMunicipalityOp, MunicipalityOp.rows, hid]
  | renumber id fromNumber toNumber validFrom name oldSlug newSlug =>
      rw [MunicipalityOp.result_of_target rfl]
      simp only [applyMunicipalityOp, mutated _ (present id rfl)]
      rfl
  | rename id name oldSlug newSlug =>
      have changed : MunicipalityOp.change (.rename id name oldSlug newSlug)
          = fun m : MunicipalitySnapshot Id =>
            { m with name := name, slug := if oldSlug ≠ newSlug then newSlug else m.slug } :=
        rfl
      rw [MunicipalityOp.result_of_target rfl, changed]
      simp only [applyMunicipalityOp, mutated _ (present id rfl), MunicipalityOp.given?,
        Option.bind_eq_bind, Option.bind_some]
      split
      · rfl
      · simp only [Option.toList_none, List.append_nil]
        rfl
  | updateDetails id officialName countyNumber countyName names =>
      rw [MunicipalityOp.result_of_target rfl]
      simp only [applyMunicipalityOp, mutated _ (present id rfl), MunicipalityOp.given?,
        Option.toList_none, List.append_nil]
      rfl

/-- An operation applied to a register with unique ids left its described result, and its
target and its new row are there.
-/
theorem applyMunicipalityOp_inv (unique : (out.municipalities.map (·.id)).Nodup)
    {op : MunicipalityOp Id} (applied : applyMunicipalityOp ids out op = some after)
    : after = op.result ids out
      ∧ (∀ id, op.target? = some id → id ∈ out.municipalities.map (·.id))
      ∧ op.Resolves ids := by
  have changed {id : Id} {change : MunicipalitySnapshot Id → MunicipalitySnapshot Id}
      {middle : RegisterSnapshot Id} (h : municipalityMut out id change = some middle)
      : ∀ id', some id = some id' → id' ∈ out.municipalities.map (·.id) := by
    intro id' same
    cases same
    exact ((municipalityMut_eq_some unique).mp h).1
  have ready : (∀ id, op.target? = some id → id ∈ out.municipalities.map (·.id))
      ∧ op.Resolves ids := by
    cases op with
    | create new =>
        simp only [applyMunicipalityOp, Option.bind_eq_bind, Option.bind_eq_some_iff]
          at applied
        obtain ⟨id, hid, _⟩ := applied
        exact ⟨by simp [MunicipalityOp.target?], by simp [MunicipalityOp.Resolves, hid]⟩
    | renumber | rename =>
        simp only [applyMunicipalityOp, Option.bind_eq_bind, Option.bind_eq_some_iff]
          at applied
        obtain ⟨_, mutation, _⟩ := applied
        exact ⟨changed mutation, trivial⟩
    | updateDetails => exact ⟨changed applied, trivial⟩
  rw [applyMunicipalityOp_eq unique ready.1 ready.2] at applied
  exact ⟨(Option.some.inj applied).symm, ready⟩

-----------------------------------------------------------------------------------------
-- Running the operations of a plan

/-- The new rows of a plan have ids. -/
structure NewIds.Covers (ids : NewIds Id) (plan : SyncPlan Id) : Prop where
  municipalities : ∀ n ∈ plan.municipalityOps.filterMap createdMunicipality?,
    (ids.municipality n).isSome
  schools : ∀ n ∈ plan.schoolOps.filterMap createdSchool?, (ids.school n).isSome

variable {snapshot : RegisterSnapshot Id}

/-- The municipality operations still to come target rows of the snapshot, and their new
rows are not there yet.
-/
structure AwaitsMunicipalities (ids : NewIds Id) (snapshot out : RegisterSnapshot Id)
    (rest : List (MunicipalityOp Id)) : Prop where
  unique : (out.municipalities.map (·.id)).Nodup
  contains : snapshot.municipalities.map (·.id) ⊆ out.municipalities.map (·.id)
  targets : ∀ op ∈ rest, ∀ id, op.target? = some id →
    id ∈ snapshot.municipalities.map (·.id)
  resolves : ∀ op ∈ rest, op.Resolves ids
  numbers : (rest.filterMap createdMunicipality?).Nodup
  missing : ∀ n ∈ rest.filterMap createdMunicipality?, ∀ id,
    ids.municipality n = some id → id ∉ out.municipalities.map (·.id)

theorem MunicipalityOp.result_ids (op : MunicipalityOp Id)
    : (op.result ids out).municipalities.map (·.id)
      = out.municipalities.map (·.id) ++ (op.rows ids).map (·.id) := by
  simp [MunicipalityOp.result, Function.comp_def]

/-- The id of a created row is the one its number has. -/
theorem MunicipalityOp.mem_rows {op : MunicipalityOp Id} {row : MunicipalitySnapshot Id}
    (member : row ∈ op.rows ids)
    : ∃ n, createdMunicipality? op = some n ∧ ids.municipality n = some row.id := by
  cases op with
  | create new =>
      simp only [MunicipalityOp.rows, List.mem_map, Option.mem_toList] at member
      obtain ⟨id, hid, rfl⟩ := member
      exact ⟨new, rfl, hid⟩
  | _ => cases member

theorem MunicipalityOp.rows_length_le (ids : NewIds Id) (op : MunicipalityOp Id)
    : (op.rows ids).length ≤ 1 := by
  cases op with
  | create new =>
      simp only [MunicipalityOp.rows]
      cases ids.municipality new <;> simp
  | _ => simp [MunicipalityOp.rows]

/-- One operation leaves the rest awaited. -/
theorem AwaitsMunicipalities.step {op : MunicipalityOp Id} {rest : List (MunicipalityOp Id)}
    (h : AwaitsMunicipalities ids snapshot out (op :: rest)) (fresh : ids.Fresh snapshot)
    : applyMunicipalityOp ids out op = some (op.result ids out)
      ∧ AwaitsMunicipalities ids snapshot (op.result ids out) rest := by
  refine ⟨applyMunicipalityOp_eq h.unique
    (fun id target => h.contains (h.targets op List.mem_cons_self id target))
    (h.resolves op List.mem_cons_self), ?_, ?_, ?_, ?_, ?_, ?_⟩
  · rw [MunicipalityOp.result_ids]
    refine List.nodup_append.mpr ⟨h.unique, ?_, ?_⟩
    · have short := MunicipalityOp.rows_length_le ids op
      match op.rows ids, short with
      | [], _ => exact List.nodup_nil
      | [row], _ => exact List.nodup_singleton _
    · intro id old id' new same
      obtain ⟨row, member, rfl⟩ := List.mem_map.mp new
      obtain ⟨n, number, named⟩ := MunicipalityOp.mem_rows member
      exact h.missing n (List.mem_filterMap.mpr ⟨op, List.mem_cons_self, number⟩) _ named
        (same ▸ old)
  · rw [MunicipalityOp.result_ids]
    exact fun id member => List.mem_append_left _ (h.contains member)
  · exact fun later inside => h.targets later (List.mem_cons_of_mem _ inside)
  · exact fun later inside => h.resolves later (List.mem_cons_of_mem _ inside)
  · exact h.numbers.sublist ((List.sublist_cons_self op rest).filterMap _)
  · intro n member id named
    obtain ⟨later, inside, number⟩ := List.mem_filterMap.mp member
    rw [MunicipalityOp.result_ids, List.mem_append, not_or]
    refine ⟨h.missing n (List.mem_filterMap.mpr ⟨later, List.mem_cons_of_mem _ inside, number⟩)
      id named, fun created => ?_⟩
    obtain ⟨row, present, rfl⟩ := List.mem_map.mp created
    obtain ⟨m, first, named'⟩ := MunicipalityOp.mem_rows present
    have one : m = n := fresh.municipalityInjective m n _ named' named
    have apart := h.numbers
    rw [List.filterMap_cons_some first, List.nodup_cons] at apart
    exact apart.1 (one ▸ member)

/-- Awaited operations run to their end and leave every school as it is, by induction on
the operations.
-/
theorem AwaitsMunicipalities.run {ops : List (MunicipalityOp Id)}
    (h : AwaitsMunicipalities ids snapshot out ops) (fresh : ids.Fresh snapshot)
    : ∃ base, applyMunicipalityOps ids out ops = some base
        ∧ base.schools = out.schools ∧ base.schoolSlugHistory = out.schoolSlugHistory
        ∧ base.schoolOrgnrHistory = out.schoolOrgnrHistory := by
  induction ops generalizing out with
  | nil => exact ⟨out, rfl, rfl, rfl, rfl⟩
  | cons op rest ih =>
      obtain ⟨stepped, later⟩ := h.step fresh
      obtain ⟨base, run, schools, slugs, orgnrs⟩ := ih later
      exact ⟨base, foldlM_cons_eq_some.mpr ⟨_, stepped, run⟩, schools, slugs, orgnrs⟩

/-- The operations of step 1 are awaited by the snapshot they were planned for. -/
theorem OpsNamed.awaited [UnicodeData] {ops : List (MunicipalityOp Id)} {created : Nat}
    (named : OpsNamed snapshot ops created) (store : StoreConstraints snapshot)
    (fresh : ids.Fresh snapshot)
    (covers : ∀ n ∈ ops.filterMap createdMunicipality?, (ids.municipality n).isSome)
    : AwaitsMunicipalities ids snapshot snapshot ops := by
  refine ⟨store.municipalityIds, List.Subset.refl _, ?_, ?_, ?_, ?_⟩
  · intro op member id target
    obtain ⟨row, active, rfl⟩ := named.targets op member id target
    exact List.mem_map_of_mem (List.mem_of_mem_filter active)
  · intro op member
    cases op with
    | create new => exact covers new (List.mem_filterMap.mpr ⟨_, member, rfl⟩)
    | _ => trivial
  · rw [named.creates]
    exact List.nodup_range
  · exact fun n _ id found => fresh.municipality n id found

end

end FauPortalen.Register

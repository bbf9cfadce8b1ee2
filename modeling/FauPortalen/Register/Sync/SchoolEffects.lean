import FauPortalen.Register.Sync.Store

/-! What one school operation does to a register: the change of the row it targets, the row
it creates and the history row it writes. Callers cite this description and never unfold
the applier.
-/

namespace FauPortalen.Register

open FauPortalen.Foundations

variable {Id : Type}

-----------------------------------------------------------------------------------------
-- The parts of an operation

/-- The existing school an operation changes. -/
def SchoolOp.target? : SchoolOp Id → Option Id
  | .close id .. | .rename id .. | .updateAttributes id .. | .move id .. => some id
  | .create .. => none

/-- The operation changes attributes alone. -/
def SchoolOp.isAttributes : SchoolOp Id → Bool
  | .updateAttributes .. => true
  | _ => false

/-- The operation changes the municipality or the slug of its target. -/
def SchoolOp.rekeys : SchoolOp Id → Bool
  | .close .. | .move .. => true
  | .rename _ _ _ slug => slug.isSome
  | .updateAttributes .. | .create .. => false

/-- The row an operation leaves of its target. -/
def SchoolOp.change (ids : NewIds Id) : SchoolOp Id → SchoolSnapshot Id → SchoolSnapshot Id
  | .close _ reason _ _, s => s.close reason
  | .rename _ registerName displayName slug, s => s.rename registerName displayName slug
  | .updateAttributes _ attributes, s => { s with attributes := attributes }
  | .move _ _ target slug, s =>
      s.move ((ids.municipalityId target).getD s.municipalityId) slug
  | .create .., s => s

/-- The rows an operation creates. -/
def SchoolOp.rows (ids : NewIds Id) : SchoolOp Id → List (SchoolSnapshot Id)
  | .create new municipality orgnr registerName displayName slug verification inScope
      attributes _ =>
      match ids.school new, ids.municipalityId municipality with
      | some id, some municipality =>
          [createdSchool id municipality orgnr registerName displayName slug verification
            inScope attributes]
      | _, _ => []
  | _ => []

/-- The history row an operation writes, given its target's row. -/
def SchoolOp.given? (s : SchoolSnapshot Id) : SchoolOp Id → Option (Id × String × Id)
  | .close id _ _ _ => s.slug.map fun slug => (s.municipalityId, slug, id)
  | .rename id _ _ slug => (SlugChange.given slug).map fun old => (s.municipalityId, old, id)
  | .move id source _ slug => (SlugChange.given slug).map fun old => (source, old, id)
  | .updateAttributes .. | .create .. => none

/-- The new rows an operation refers to have ids. -/
def SchoolOp.Resolves (ids : NewIds Id) : SchoolOp Id → Prop
  | .create new municipality .. =>
      (ids.school new).isSome ∧ (ids.municipalityId municipality).isSome
  | .move _ _ target _ => (ids.municipalityId target).isSome
  | _ => True

@[simp]
theorem SchoolOp.change_id (ids : NewIds Id) (op : SchoolOp Id) (s : SchoolSnapshot Id)
    : (op.change ids s).id = s.id := by
  cases op <;> rfl

@[simp]
theorem SchoolOp.change_orgnr (ids : NewIds Id) (op : SchoolOp Id) (s : SchoolSnapshot Id)
    : (op.change ids s).orgnr = s.orgnr := by
  cases op <;> rfl

@[simp]
theorem SchoolOp.change_verification (ids : NewIds Id) (op : SchoolOp Id)
    (s : SchoolSnapshot Id)
    : (op.change ids s).verification = s.verification := by
  cases op <;> rfl

section

variable [DecidableEq Id]

/-- The operation on any row: it changes its target and no other. -/
def SchoolOp.onRow (ids : NewIds Id) (op : SchoolOp Id) (s : SchoolSnapshot Id)
    : SchoolSnapshot Id :=
  if op.target? = some s.id then op.change ids s else s

/-- The history rows an operation writes in a register with these schools. -/
def SchoolOp.written (op : SchoolOp Id) (schools : List (SchoolSnapshot Id))
    : List (Id × String × Id) :=
  ((op.target?.bind fun id => findRow SchoolSnapshot.id id schools).bind op.given?).toList

/-- The register an operation leaves. -/
def SchoolOp.result (ids : NewIds Id) (op : SchoolOp Id) (out : RegisterSnapshot Id)
    : RegisterSnapshot Id :=
  { out with
    schools := out.schools.map (op.onRow ids) ++ op.rows ids
    schoolSlugHistory := out.schoolSlugHistory ++ op.written out.schools }

@[simp]
theorem SchoolOp.onRow_id (ids : NewIds Id) (op : SchoolOp Id) (s : SchoolSnapshot Id)
    : (op.onRow ids s).id = s.id := by
  unfold SchoolOp.onRow
  split
  · exact SchoolOp.change_id _ _ _
  · rfl

theorem SchoolOp.onRow_of_ne {ids : NewIds Id} {op : SchoolOp Id} {s : SchoolSnapshot Id}
    (h : op.target? ≠ some s.id)
    : op.onRow ids s = s := by
  simp [SchoolOp.onRow, h]

theorem SchoolOp.onRow_of_eq {ids : NewIds Id} {op : SchoolOp Id} {s : SchoolSnapshot Id}
    (h : op.target? = some s.id)
    : op.onRow ids s = op.change ids s := by
  simp [SchoolOp.onRow, h]

/-- An operation's row change is the applier's change at its target. -/
theorem SchoolOp.onRow_eq_changeAt {ids : NewIds Id} {op : SchoolOp Id} {id : Id}
    (h : op.target? = some id)
    : op.onRow ids = changeAt SchoolSnapshot.id id (op.change ids) := by
  funext s
  simp [SchoolOp.onRow, changeAt, h, eq_comm]

end

-----------------------------------------------------------------------------------------
-- The applier's step

section

variable [LinearOrder Id] {ids : NewIds Id} {out after : RegisterSnapshot Id}

/-- Changing a present row is a change at its key. -/
theorem schoolMut_eq_some (unique : (out.schools.map (·.id)).Nodup) {id : Id}
    {change : SchoolSnapshot Id → SchoolSnapshot Id}
    : schoolMut out id change = some after
      ↔ id ∈ out.schools.map (·.id)
        ∧ after = { out with
          schools := out.schools.map (changeAt SchoolSnapshot.id id change) } := by
  simp only [schoolMut, Option.map_eq_some_iff, modifyRow_eq_some unique]
  constructor
  · rintro ⟨_, ⟨present, rows⟩, same⟩
    subst rows same
    exact ⟨present, rfl⟩
  · rintro ⟨present, same⟩
    exact ⟨_, ⟨present, rfl⟩, same.symm⟩

theorem schoolRef_isSome (unique : (out.schools.map (·.id)).Nodup) {id : Id}
    (present : id ∈ out.schools.map (·.id))
    : ∃ s, schoolRef out id = some s ∧ s ∈ out.schools ∧ s.id = id := by
  obtain ⟨s, member, same⟩ := List.mem_map.mp present
  exact ⟨s, (findRow_eq_some unique).mpr ⟨member, same⟩, member, same⟩

/-- The result of an operation with a target. -/
theorem SchoolOp.result_of_target {op : SchoolOp Id} {id : Id} {s : SchoolSnapshot Id}
    (target : op.target? = some id) (found : schoolRef out id = some s)
    : op.result ids out = { out with
        schools := out.schools.map (changeAt SchoolSnapshot.id id (op.change ids))
        schoolSlugHistory := out.schoolSlugHistory ++ (op.given? s).toList } := by
  have rows : op.rows ids = [] := by
    cases op with
    | create => cases target
    | _ => rfl
  have written : op.written out.schools = (op.given? s).toList := by
    unfold schoolRef at found
    simp [SchoolOp.written, target, found]
  simp [SchoolOp.result, rows, written, SchoolOp.onRow_eq_changeAt target]

/-- The result of a creation. -/
theorem SchoolOp.result_of_create {op : SchoolOp Id} (target : op.target? = none)
    : op.result ids out = { out with schools := out.schools ++ op.rows ids } := by
  have same : out.schools.map (op.onRow ids) = out.schools := by
    refine (List.map_congr_left fun s _ => ?_).trans out.schools.map_id
    exact SchoolOp.onRow_of_ne (by simp [target])
  simp [SchoolOp.result, same, SchoolOp.written, target]

/-- With unique ids, an operation whose target is present and whose new rows have ids
leaves exactly its described result.
-/
theorem applySchoolOp_eq (unique : (out.schools.map (·.id)).Nodup) {op : SchoolOp Id}
    (present : ∀ id, op.target? = some id → id ∈ out.schools.map (·.id))
    (resolves : op.Resolves ids)
    : applySchoolOp ids out op = some (op.result ids out) := by
  have mutated {id : Id} (change : SchoolSnapshot Id → SchoolSnapshot Id)
      (here : id ∈ out.schools.map (·.id))
      : schoolMut out id change = some { out with
          schools := out.schools.map (changeAt SchoolSnapshot.id id change) } :=
    (schoolMut_eq_some unique).mpr ⟨here, rfl⟩
  cases op with
  | create new municipality orgnr registerName displayName slug verification inScope
      attributes changed =>
      obtain ⟨hid, hm⟩ := resolves
      obtain ⟨id, hid⟩ := Option.isSome_iff_exists.mp hid
      obtain ⟨m, hm⟩ := Option.isSome_iff_exists.mp hm
      rw [SchoolOp.result_of_create rfl]
      simp [applySchoolOp, SchoolOp.rows, hid, hm]
  | close id reason closedOn successor =>
      obtain ⟨s, found, _⟩ := schoolRef_isSome unique (present id rfl)
      rw [SchoolOp.result_of_target rfl found]
      simp only [applySchoolOp, found, mutated _ (present id rfl)]
      rfl
  | rename id registerName displayName slug =>
      obtain ⟨s, found, _⟩ := schoolRef_isSome unique (present id rfl)
      rw [SchoolOp.result_of_target rfl found]
      simp only [applySchoolOp, found, mutated _ (present id rfl)]
      rfl
  | updateAttributes id attributes =>
      obtain ⟨s, found, _⟩ := schoolRef_isSome unique (present id rfl)
      rw [SchoolOp.result_of_target rfl found]
      simp only [applySchoolOp, mutated _ (present id rfl), SchoolOp.given?,
        Option.toList_none, List.append_nil]
      rfl
  | move id source target slug =>
      obtain ⟨s, found, _⟩ := schoolRef_isSome unique (present id rfl)
      obtain ⟨m, hm⟩ := Option.isSome_iff_exists.mp resolves
      have moved : SchoolOp.change ids (.move id source target slug)
          = fun s => s.move m slug := by
        funext s
        simp [SchoolOp.change, hm]
      rw [SchoolOp.result_of_target rfl found, moved]
      simp only [applySchoolOp, hm, Option.bind_eq_bind, Option.bind_some,
        mutated _ (present id rfl)]
      rfl

/-- An operation applied to a register with unique ids left its described result, and its
target and its new rows are there.
-/
theorem applySchoolOp_inv (unique : (out.schools.map (·.id)).Nodup) {op : SchoolOp Id}
    (applied : applySchoolOp ids out op = some after)
    : after = op.result ids out
      ∧ (∀ id, op.target? = some id → id ∈ out.schools.map (·.id))
      ∧ op.Resolves ids := by
  have ready : (∀ id, op.target? = some id → id ∈ out.schools.map (·.id))
      ∧ op.Resolves ids := by
    have changed {id : Id} {change : SchoolSnapshot Id → SchoolSnapshot Id}
        {middle : RegisterSnapshot Id} (h : schoolMut out id change = some middle)
        : ∀ id', some id = some id' → id' ∈ out.schools.map (·.id) := by
      intro id' same
      cases same
      exact ((schoolMut_eq_some unique).mp h).1
    cases op with
    | create new municipality =>
        simp only [applySchoolOp, Option.bind_eq_bind, Option.bind_eq_some_iff] at applied
        obtain ⟨id, hid, m, hm, _⟩ := applied
        exact ⟨by simp [SchoolOp.target?], by simp [SchoolOp.Resolves, hid, hm]⟩
    | close id =>
        simp only [applySchoolOp, Option.bind_eq_bind, Option.bind_eq_some_iff] at applied
        obtain ⟨_, _, _, mutation, _⟩ := applied
        exact ⟨changed mutation, trivial⟩
    | rename id =>
        simp only [applySchoolOp, Option.bind_eq_bind, Option.bind_eq_some_iff] at applied
        obtain ⟨_, _, _, mutation, _⟩ := applied
        exact ⟨changed mutation, trivial⟩
    | updateAttributes id => exact ⟨changed applied, trivial⟩
    | move id source target =>
        simp only [applySchoolOp, Option.bind_eq_bind, Option.bind_eq_some_iff] at applied
        obtain ⟨m, hm, _, mutation, _⟩ := applied
        exact ⟨changed mutation, by simp [SchoolOp.Resolves, hm]⟩
  rw [applySchoolOp_eq unique ready.1 ready.2] at applied
  exact ⟨(Option.some.inj applied).symm, ready⟩

end

end FauPortalen.Register

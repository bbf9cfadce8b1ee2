import FauPortalen.Register.Sync.SecondRun

/-! What a plan leaves of one school: its unit's update makes the school follow the unit, a
closing takes it out of the register, and without either the school is as it was.
-/

set_option linter.unusedSectionVars false

namespace FauPortalen.Register

open FauPortalen.Foundations

variable {Id : Type} [LinearOrder Id] {ids : NewIds Id} {snapshot after : RegisterSnapshot Id}

-----------------------------------------------------------------------------------------
-- Operations on one school

/-- A school that no operation acts on is as it was. -/
theorem changeAll_school_of_filter_nil {ops : List (SchoolOp Id)} {s : SchoolSnapshot Id}
    (alone : ops.filter (·.target? = some s.id) = [])
    : changeAll (SchoolOp.onRow ids) ops s = s := by
  refine changeAll_of_fixed fun op member => SchoolOp.onRow_of_ne fun target => ?_
  exact List.filter_eq_nil_iff.mp alone op member (by simpa using target)

/-- A school is changed by the operations that target it. -/
theorem changeAll_school_filter (ops : List (SchoolOp Id)) (s : SchoolSnapshot Id)
    : changeAll (SchoolOp.onRow ids) ops s
      = changeAll (SchoolOp.onRow ids) (ops.filter (·.target? = some s.id)) s := by
  refine changeAll_filter SchoolSnapshot.id ?_ fun op _ other =>
    SchoolOp.onRow_id ids op other
  intro op _ idle other same
  refine SchoolOp.onRow_of_ne fun target => ?_
  simp [target, same] at idle

theorem changeAll_school_id (ids : NewIds Id) (ops : List (SchoolOp Id)) (s : SchoolSnapshot Id)
    : (changeAll (SchoolOp.onRow ids) ops s).id = s.id :=
  changeAll_keeps SchoolSnapshot.id (fun op _ row => SchoolOp.onRow_id ids op row) s

/-- No operation changes what the row's target and its change keep. -/
theorem SchoolOp.onRow_keeps {ι : Type} (image : SchoolSnapshot Id → ι) (op : SchoolOp Id)
    (keeps : ∀ row, image (op.change ids row) = image row) (s : SchoolSnapshot Id)
    : image (op.onRow ids s) = image s := by
  unfold SchoolOp.onRow
  split
  · exact keeps s
  · rfl

/-- Operations keep a school's organisation number. -/
theorem changeAll_school_orgnr (ops : List (SchoolOp Id)) (s : SchoolSnapshot Id)
    : (changeAll (SchoolOp.onRow ids) ops s).orgnr = s.orgnr :=
  changeAll_keeps SchoolSnapshot.orgnr
    (fun op _ => op.onRow_keeps SchoolSnapshot.orgnr (SchoolOp.change_orgnr ids op)) s

/-- Operations keep an administrator's decision about a school's scope. -/
theorem changeAll_school_scopeOverride (ops : List (SchoolOp Id)) (s : SchoolSnapshot Id)
    : (changeAll (SchoolOp.onRow ids) ops s).scopeOverride = s.scopeOverride :=
  changeAll_keeps SchoolSnapshot.scopeOverride
    (fun op _ => op.onRow_keeps SchoolSnapshot.scopeOverride fun _ => by cases op <;> rfl) s

/-- One operation on its target. -/
theorem changeAll_target {op : SchoolOp Id} {s : SchoolSnapshot Id}
    (target : op.target? = some s.id)
    : changeAll (SchoolOp.onRow ids) [op] s = op.change ids s :=
  SchoolOp.onRow_of_eq target

/-- A closed school is no longer tracked. -/
theorem changeAll_closeOp {c : Closing Id} {s : SchoolSnapshot Id} (own : c.school.id = s.id)
    : (changeAll (SchoolOp.onRow ids) [closeOp c] s).isTracked = false := by
  have target : (closeOp c).target? = some s.id := congrArg some own
  rw [changeAll_target target]
  simp [closeOp, SchoolOp.change, SchoolSnapshot.close, SchoolSnapshot.isTracked]

-----------------------------------------------------------------------------------------
-- An update's operations

section

variable (p : PlannedUpdate Id) (ids : NewIds Id) {s : SchoolSnapshot Id}
  (own : s.id = p.update.school.id)
include own

/-- The rename of an update acts on its school when NSR's name changed. -/
theorem PlannedUpdate.changeAll_renameOps
    : changeAll (SchoolOp.onRow ids) p.renameOps s
      = if p.update.isRenamed then
          s.rename p.update.unit.name
            (if p.update.school.displayNameCurated then none else some p.update.unit.name)
            p.renamed
        else s := by
  unfold PlannedUpdate.renameOps
  split
  · exact changeAll_target (congrArg some own.symm)
  · rfl

/-- After the attributes of an update its school has the unit's. -/
theorem changeAll_attributeOps (before : s.attributes = p.update.school.attributes)
    : changeAll (SchoolOp.onRow ids) (attributeOps p.update) s
      = { s with attributes := .fromUnit p.update.unit } := by
  unfold attributeOps
  split
  · exact changeAll_target (congrArg some own.symm)
  · next still =>
      have same : s.attributes = .fromUnit p.update.unit :=
        before.trans (not_not.mp still).symm
      rw [changeAll_nil, ← same]

/-- The move of an update acts on its school when the municipality changed. -/
theorem PlannedUpdate.changeAll_moveOps {m : Id}
    (named : ids.municipalityId p.update.municipality = some m)
    : changeAll (SchoolOp.onRow ids) p.moveOps s
      = if p.update.isMoving then s.move m p.moved else s := by
  unfold PlannedUpdate.moveOps
  split
  · have target : (SchoolOp.move p.update.school.id p.update.school.municipalityId
        p.update.municipality p.moved).target? = some s.id := congrArg some own.symm
    simp [changeAll_target target, SchoolOp.change, named]
  · rfl

end

/-- What an update's operations leave of their school. -/
structure SchoolSnapshot.Follows (s : SchoolSnapshot Id) (u : Update Id) (ids : NewIds Id)
    : Prop where
  registerName : s.registerName = some u.unit.name
  attributes : s.attributes = .fromUnit u.unit
  municipality : ids.municipalityId u.municipality = some s.municipalityId
  status : s.status = u.school.status
  verification : s.verification = u.school.verification
  scopeOverride : s.scopeOverride = u.school.scopeOverride

/-- An update's operations are its rename, its attributes and its move, in that order. -/
theorem PlannedUpdate.changeAll_ops {p : PlannedUpdate Id} {m : Id}
    (named : ids.municipalityId p.update.municipality = some m)
    : ∃ renamed : SchoolSnapshot Id,
        renamed = (if p.update.isRenamed then
          p.update.school.rename p.update.unit.name
            (if p.update.school.displayNameCurated then none else some p.update.unit.name)
            p.renamed
          else p.update.school)
        ∧ changeAll (SchoolOp.onRow ids) p.ops p.update.school
          = if p.update.isMoving then
              SchoolSnapshot.move { renamed with attributes := .fromUnit p.update.unit } m
                p.moved
            else { renamed with attributes := .fromUnit p.update.unit } := by
  refine ⟨_, rfl, ?_⟩
  have split_ops : changeAll (SchoolOp.onRow ids) p.ops p.update.school
      = changeAll (SchoolOp.onRow ids) p.moveOps
        (changeAll (SchoolOp.onRow ids) (attributeOps p.update)
          (changeAll (SchoolOp.onRow ids) p.renameOps p.update.school)) := by
    simp [PlannedUpdate.ops, changeAll]
  have renames := p.changeAll_renameOps ids rfl
  have own := changeAll_school_id ids p.renameOps p.update.school
  have before : (changeAll (SchoolOp.onRow ids) p.renameOps p.update.school).attributes
      = p.update.school.attributes := by
    rw [renames]
    split <;> rfl
  let detailed := { changeAll (SchoolOp.onRow ids) p.renameOps p.update.school with
    attributes := .fromUnit p.update.unit }
  have detailed_own : detailed.id = p.update.school.id := own
  have moved := p.changeAll_moveOps ids detailed_own named
  rw [split_ops, changeAll_attributeOps p ids own before, moved, ← renames]

/-- An update's operations make its school follow the unit: what they leave out was so
already.
-/
theorem PlannedUpdate.follows {p : PlannedUpdate Id}
    (named : (ids.municipalityId p.update.municipality).isSome)
    : (changeAll (SchoolOp.onRow ids) p.ops p.update.school).Follows p.update ids := by
  obtain ⟨m, hm⟩ := Option.isSome_iff_exists.mp named
  obtain ⟨renamed, same, ops⟩ := PlannedUpdate.changeAll_ops hm
  have name : renamed.registerName = some p.update.unit.name := by
    rw [same]
    split
    · rfl
    · next still => simpa [Update.isRenamed] using still
  have kept : renamed.municipalityId = p.update.school.municipalityId
      ∧ renamed.status = p.update.school.status
      ∧ renamed.verification = p.update.school.verification
      ∧ renamed.scopeOverride = p.update.school.scopeOverride := by
    rw [same]
    split <;> exact ⟨rfl, rfl, rfl, rfl⟩
  obtain ⟨home, status, verification, scopeOverride⟩ := kept
  rw [ops]
  split
  · exact ⟨name, rfl, hm, status, verification, scopeOverride⟩
  · next still =>
      have here : p.update.municipality = .existing p.update.school.municipalityId := by
        simpa [Update.isMoving] using still
      refine ⟨name, rfl, ?_, status, verification, scopeOverride⟩
      rw [here]
      exact congrArg some home.symm

/-- An update's operations leave the display name the update is for. -/
theorem PlannedUpdate.displayName {p : PlannedUpdate Id}
    (named : (ids.municipalityId p.update.municipality).isSome)
    : (changeAll (SchoolOp.onRow ids) p.ops p.update.school).displayName
      = p.update.displayName := by
  obtain ⟨m, hm⟩ := Option.isSome_iff_exists.mp named
  obtain ⟨renamed, same, ops⟩ := PlannedUpdate.changeAll_ops hm
  have name : renamed.displayName = p.update.displayName := by
    rw [same, Update.displayName]
    cases p.update.isRenamed <;> cases p.update.school.displayNameCurated <;> rfl
  rw [ops, ← name]
  split <;> rfl

-----------------------------------------------------------------------------------------
-- A unit and its school

section

variable [UnicodeData] [OsloZone] {state : MunicipalityState Id} {moment : Moment}
  {units : List NsrUnit} {unit : NsrUnit} {draft : SchoolDraft Id} {plan : SchoolPlan Id}
  (makes : draft.Makes snapshot (sortUnits snapshot state moment units) plan)
  (store : StoreConstraints snapshot) (distinct : (units.map NsrUnit.orgnr).Nodup)
  (inside : unit ∈ units) {s : SchoolSnapshot Id} (known : s ∈ snapshot.schools)
  (orgnr : s.orgnr = some unit.orgnr)
include makes store distinct inside known orgnr

/-- A school whose unit neither closes nor updates it is as it was: no other unit acts on
it.
-/
theorem SchoolDraft.Makes.changeAll_idle
    (ids : NewIds Id)
    (idle : ∀ t, (fate snapshot state moment unit).school? = some t →
      ∃ f, fate snapshot state moment unit = .fauClosing f)
    : changeAll (SchoolOp.onRow ids) plan.ops s = s := by
  refine changeAll_school_of_filter_nil (makes.filter_other store.rowKeys distinct ?_)
  intro u hu t acts same
  obtain ⟨ht, orgnr', _⟩ := fate_school? acts
  rw [store.school_ext ht known same, orgnr] at orgnr'
  cases List.inj_on_of_nodup_map distinct hu inside (Option.some.inj orgnr').symm
  exact idle t acts

/-- A school whose unit closes it is no longer tracked. -/
theorem SchoolDraft.Makes.changeAll_closing (ids : NewIds Id) {c : Closing Id}
    (closes : fate snapshot state moment unit = .closing c) (own : c.school = s)
    : (changeAll (SchoolOp.onRow ids) plan.ops s).isTracked = false := by
  have closing := List.mem_map_of_mem (f := fun c => c.school.id)
    (mem_closings.mpr ⟨unit, inside, closes⟩)
  rw [← placedUnits_closings snapshot] at closing
  obtain ⟨d, placed, same⟩ := List.mem_map.mp closing
  have target := makes.filter_closing store.rowKeys distinct placed
  have own_id : d.school.id = s.id := same.trans (congrArg SchoolSnapshot.id own)
  rw [own_id] at target
  rw [changeAll_school_filter, target]
  exact changeAll_closeOp own_id

/-- A school whose unit updates it follows the unit, under the update's display name. -/
theorem SchoolDraft.Makes.changeAll_update {r : Ref Id}
    (updates : fate snapshot state moment unit = .update s r)
    (named : (ids.municipalityId r).isSome)
    : (changeAll (SchoolOp.onRow ids) plan.ops s).Follows ⟨s, unit, r⟩ ids
      ∧ (changeAll (SchoolOp.onRow ids) plan.ops s).displayName
        = Update.displayName ⟨s, unit, r⟩ := by
  have sorts : draft.Sorts snapshot state moment units := ⟨makes.creates, makes.updates⟩
  have updated : (⟨s, unit, r⟩ : Update Id) ∈ draft.updates.map PlannedUpdate.update := by
    rw [sorts.updates]
    exact mem_updates.mpr ⟨inside, updates⟩
  obtain ⟨p, member, same⟩ := List.mem_map.mp updated
  have resolves : (ids.municipalityId p.update.municipality).isSome := by
    rw [same]
    exact named
  have follows := PlannedUpdate.follows resolves
  have displayed := PlannedUpdate.displayName resolves
  have target := makes.filter_update store.rowKeys distinct member
  rw [same] at follows displayed target
  rw [changeAll_school_filter, target]
  exact ⟨follows, displayed⟩

end

end FauPortalen.Register

import FauPortalen.Register.Sync.Convergence

/-! Whether every public school has an address: a run keeps it so, unless a school without a
slug moves to another municipality in the run that gives it its first sluggable name.
-/

set_option linter.unusedSectionVars false

namespace FauPortalen.Register

open FauPortalen.Foundations

section

variable {Id : Type} [LinearOrder Id] [UnicodeData] {ids : NewIds Id}
  {snapshot after : RegisterSnapshot Id}

-----------------------------------------------------------------------------------------
-- Addresses

/-- A public school whose slug follows a register name that can be one. -/
structure SchoolSnapshot.NeedsSlug (s : SchoolSnapshot Id) : Prop where
  active : s.status = .active
  verified : s.verification = .listed ∨ s.verification = .verified
  uncurated : s.displayNameCurated = false
  sluggable : ∃ name slug, s.registerName = some name ∧ slugify name = .ok slug

/-- Every school that needs a slug has one. -/
def RegisterSnapshot.Addressed (register : RegisterSnapshot Id) : Prop :=
  ∀ s ∈ register.schools, s.NeedsSlug → s.slug ≠ none

/-- A public school without a slug whose unit carries on in another municipality, under a
name that can be a slug.
-/
structure SchoolSnapshot.MovesUnaddressed [OsloZone] (s : SchoolSnapshot Id)
    (units : List NsrUnit) (state : MunicipalityState Id) (unit : NsrUnit) (r : Ref Id)
    : Prop where
  tracked : s.isTracked = true
  uncurated : s.displayNameCurated = false
  slugless : s.slug = none
  unblocked : s.municipalityId ∉ state.blockedIds
  found : unitOf? units s = some unit
  stays : unitLeaves unit s = false
  resolves : state.resolve unit.municipalityNumber = .municipality r
  moves : r ≠ .existing s.municipalityId
  sluggable : ∃ slug, slugify unit.name = .ok slug

omit [LinearOrder Id] in
theorem toOption_ne_none {ε α : Type} {result : Except ε α}
    : result.toOption ≠ none ↔ ∃ value, result = .ok value := by
  cases result with
  | error => simp [Except.toOption]
  | ok => simp [Except.toOption]

omit [LinearOrder Id] in
theorem SchoolSnapshot.NeedsSlug.tracked {s : SchoolSnapshot Id} (h : s.NeedsSlug)
    : s.isTracked = true :=
  SchoolSnapshot.isTracked_iff.mpr ⟨h.active, h.verified⟩

-----------------------------------------------------------------------------------------
-- The slug an update leaves

/-- Operations never curate a display name. -/
theorem changeAll_school_curated (ops : List (SchoolOp Id)) (s : SchoolSnapshot Id)
    : (changeAll (SchoolOp.onRow ids) ops s).displayNameCurated = s.displayNameCurated :=
  changeAll_keeps SchoolSnapshot.displayNameCurated
    (fun op _ => op.onRow_keeps SchoolSnapshot.displayNameCurated fun _ => by cases op <;> rfl) s

/-- An update leaves no slug when there was none and its rename brings none: a school that
moves gets no first slug.
-/
theorem PlannedUpdate.changeAll_slug {p : PlannedUpdate Id} {book : SlugBook Id}
    (fits : p.Fits book) (named : (ids.municipalityId p.update.municipality).isSome)
    : (changeAll (SchoolOp.onRow ids) p.ops p.update.school).slug = none
      ↔ p.update.school.slug = none
        ∧ (p.update.isRenamed = true → p.renamed = none) := by
  obtain ⟨m, hm⟩ := Option.isSome_iff_exists.mp named
  obtain ⟨renamed, same, ops⟩ := PlannedUpdate.changeAll_ops hm
  have slug : renamed.slug = none
      ↔ p.update.school.slug = none ∧ (p.update.isRenamed = true → p.renamed = none) := by
    rw [same]
    cases p.update.isRenamed with
    | false => simp
    | true => cases given : p.renamed <;> simp [SchoolSnapshot.rename]
  rw [ops]
  split
  · next moving =>
      have unrenamed : p.renamed = none := by
        cases given : p.renamed with
        | none => rfl
        | some change =>
            have still := (fits.renamed change given).1
            rw [moving] at still
            cases still
      cases moved : p.moved with
      | none => exact slug
      | some change =>
          have slugged : p.update.school.slug ≠ none := fun slugless => by
            rw [fits.unmoved slugless] at moved
            cases moved
          simp [SchoolSnapshot.move, slugged]
  · exact slug

-----------------------------------------------------------------------------------------
-- One school

section

variable [OsloZone] {inputs : SyncInputs} {state : MunicipalityState Id} {moment : Moment}
  {units : List NsrUnit} {draft : SchoolDraft Id} {plan : SchoolPlan Id}
  (makes : draft.Makes snapshot (sortUnits snapshot state moment units) plan)
  (store : StoreConstraints snapshot) (distinct : (units.map NsrUnit.orgnr).Nodup)
  (named : ∀ number r, state.byNumber number = some r → (ids.municipalityId r).isSome)
include makes store distinct named

/-- The planned update of an updated school, and what it leaves of the school. -/
theorem SchoolDraft.Makes.planned_update {p : PlannedUpdate Id} (member : p ∈ draft.updates)
    : p.update.school ∈ snapshot.schools ∧ p.update.unit ∈ units
      ∧ p.update.school.orgnr = some p.update.unit.orgnr
      ∧ p.update.school.municipalityId ∉ state.blockedIds
      ∧ unitLeaves p.update.unit p.update.school = false
      ∧ state.resolve p.update.unit.municipalityNumber = .municipality p.update.municipality
      ∧ (ids.municipalityId p.update.municipality).isSome
      ∧ changeAll (SchoolOp.onRow ids) plan.ops p.update.school
        = changeAll (SchoolOp.onRow ids) p.ops p.update.school := by
  have updated := SchoolDraft.Sorts.update ⟨makes.creates, makes.updates⟩ member
  obtain ⟨inside, updates⟩ := mem_updates.mp updated
  obtain ⟨known, orgnr, _, unblocked⟩ := fate_school?
    (show (fate snapshot state moment p.update.unit).school? = some p.update.school by
      rw [updates]; rfl)
  obtain ⟨stays, resolves⟩ := fate_update updates
  refine ⟨known, inside, orgnr, unblocked, stays, resolves,
    named _ _ (resolve_eq_municipality.mp resolves).2, ?_⟩
  rw [changeAll_school_filter, makes.filter_update store.rowKeys distinct member]

/-- A school that moves without an address needs one afterwards, and has none. -/
theorem SchoolDraft.Makes.unaddressed {s : SchoolSnapshot Id} (known : s ∈ snapshot.schools)
    {unit : NsrUnit} {r : Ref Id} (moves : s.MovesUnaddressed units state unit r)
    : (changeAll (SchoolOp.onRow ids) plan.ops s).NeedsSlug
      ∧ (changeAll (SchoolOp.onRow ids) plan.ops s).slug = none := by
  obtain ⟨inside, orgnr⟩ := unitOf?_eq_some moves.found
  have updates : fate snapshot state moment unit = .update s r := by
    rw [fate_of_school store known orgnr, schoolFate_of_tracked moves.tracked moves.unblocked,
      if_neg (by simp [moves.stays]), moves.resolves]
    rfl
  have updated : (⟨s, unit, r⟩ : Update Id) ∈ draft.updates.map PlannedUpdate.update := by
    rw [makes.updates]
    exact mem_updates.mpr ⟨inside, updates⟩
  obtain ⟨p, member, same⟩ := List.mem_map.mp updated
  obtain ⟨_, _, _, _, _, _, resolved, row⟩ := makes.planned_update store distinct named member
  have fits := makes.updateFits p member
  have follows := PlannedUpdate.follows resolved
  have slug := PlannedUpdate.changeAll_slug fits resolved
  rw [← row, same] at follows slug
  have moving : p.update.isMoving = true := by
    rw [same]
    simpa [Update.isMoving] using moves.moves
  obtain ⟨active, verified⟩ := SchoolSnapshot.isTracked_iff.mp moves.tracked
  refine ⟨⟨follows.status.trans active, ?_, ?_, ?_⟩, slug.mpr ⟨moves.slugless, fun _ => ?_⟩⟩
  · rw [follows.verification]
    exact verified
  · rw [changeAll_school_curated]
    exact moves.uncurated
  · obtain ⟨slug, sluggable⟩ := moves.sluggable
    exact ⟨unit.name, slug, follows.registerName, sluggable⟩
  · cases given : p.renamed with
    | none => rfl
    | some change =>
        have still := (fits.renamed change given).1
        rw [moving] at still
        cases still

/-- A school that needs a slug after the run and has none moved without an address. -/
theorem SchoolDraft.Makes.addressed {s : SchoolSnapshot Id} (known : s ∈ snapshot.schools)
    (before : s.NeedsSlug → s.slug ≠ none)
    (needs : (changeAll (SchoolOp.onRow ids) plan.ops s).NeedsSlug)
    (slugless : (changeAll (SchoolOp.onRow ids) plan.ops s).slug = none)
    : ∃ unit r, s.MovesUnaddressed units state unit r := by
  by_cases updated : ∃ p ∈ draft.updates, p.update.school.id = s.id
  · obtain ⟨p, member, own⟩ := updated
    obtain ⟨inside, unit_inside, orgnr, unblocked, stays, resolves, resolved, row⟩ :=
      makes.planned_update store distinct named member
    obtain rfl := store.school_ext inside known own
    have fits := makes.updateFits p member
    have follows := PlannedUpdate.follows resolved
    have slug := PlannedUpdate.changeAll_slug fits resolved
    rw [← row] at follows slug
    obtain ⟨bare, unrenamed⟩ := slug.mp slugless
    have uncurated : p.update.school.displayNameCurated = false :=
      (changeAll_school_curated plan.ops _).symm.trans needs.uncurated
    have sluggable : ∃ slug, slugify p.update.unit.name = .ok slug := by
      obtain ⟨name, slug, register, ok⟩ := needs.sluggable
      cases register.symm.trans follows.registerName
      exact ⟨slug, ok⟩
    have active := follows.status.symm.trans needs.active
    have verified := follows.verification ▸ needs.verified
    cases moving : p.update.isMoving with
    | true =>
        have found : unitOf? units p.update.school = some p.update.unit :=
          Option.bind_eq_some_iff.mpr
            ⟨_, orgnr, (findRow_eq_some distinct).mpr ⟨unit_inside, rfl⟩⟩
        exact ⟨p.update.unit, p.update.municipality,
          SchoolSnapshot.isTracked_iff.mpr ⟨active, verified⟩, uncurated, bare, unblocked, found,
          stays, resolves, by simpa [Update.isMoving] using moving, sluggable⟩
    | false =>
        cases renames : p.update.isRenamed with
        | true =>
            exact absurd (unrenamed renames) (fits.first renames moving uncurated bare
              (toOption_ne_none.mpr sluggable))
        | false =>
            have name : p.update.school.registerName = some p.update.unit.name := by
              simpa [Update.isRenamed] using renames
            obtain ⟨slug, ok⟩ := sluggable
            exact absurd bare (before ⟨active, verified, uncurated, _, slug, name, ok⟩)
  · by_cases closing : ∃ c ∈ (placedUnits snapshot
        (sortUnits snapshot state moment units)).closings, c.school.id = s.id
    · obtain ⟨c, placed, own⟩ := closing
      have alone := makes.filter_closing store.rowKeys distinct placed
      rw [own] at alone
      have closed : (changeAll (SchoolOp.onRow ids) [closeOp c] s).isTracked = false :=
        changeAll_closeOp own
      rw [← alone, ← changeAll_school_filter, needs.tracked] at closed
      cases closed
    · have untouched : plan.ops.filter (·.target? = some s.id) = [] := by
        rw [makes.filter_target]
        have closings : (placedUnits snapshot
            (sortUnits snapshot state moment units)).closings.filter (·.school.id = s.id) = [] := by
          refine List.filter_eq_nil_iff.mpr fun c placed own => ?_
          exact closing ⟨c, placed, by simpa using own⟩
        have updates : draft.updates.filter (·.update.school.id = s.id) = [] := by
          refine List.filter_eq_nil_iff.mpr fun p member own => ?_
          exact updated ⟨p, member, by simpa using own⟩
        rw [closings, updates]
        rfl
      rw [changeAll_school_of_filter_nil untouched] at needs slugless
      exact absurd slugless (before needs)

end

-----------------------------------------------------------------------------------------
-- The register after a run

/-- A run leaves every public school addressed exactly when none moves without an address. -/
theorem plan_addresses_iff [OsloZone] {inputs : SyncInputs} {p : SyncPlan Id}
    {municipalities : MunicipalityPlan Id} {successors : Lookup Id Id}
    (store : StoreConstraints snapshot) (addressed : snapshot.Addressed)
    (first : planMunicipalities snapshot inputs.normalised = some municipalities)
    (planned : plan snapshot inputs = some (.apply p))
    (fresh : ids.Fresh snapshot) (covers : ids.Covers p)
    (applied : applyWith ids snapshot p = some (after, successors))
    : after.Addressed
      ↔ ∀ s ∈ snapshot.schools, ∀ unit r,
          ¬ s.MovesUnaddressed inputs.units municipalities.state unit r := by
  obtain ⟨_, steps, stepped, rfl⟩ := planWith_apply planned
  obtain ⟨first', distinct, draft, makes⟩ := planSteps_draft store stepped
  cases first.symm.trans first'
  obtain ⟨_, created, again, opsNamed, resolves⟩ :=
    planMunicipalities_named store.rowKeys inputs.normalised
  cases first.symm.trans again
  have named : ∀ number r, steps.1.state.byNumber number = some r →
      (ids.municipalityId r).isSome := by
    intro number r found
    have covered : ∀ n < created, (ids.municipality n).isSome := fun n bound =>
      covers.municipalities n (opsNamed.creates ▸ List.mem_range.mpr bound)
    obtain ⟨id, names⟩ := namesMunicipality_of_resolved covered (resolves number r found)
    exact Option.isSome_iff_exists.mpr ⟨id, names.1⟩
  have schools := (planSteps_applied store stepped fresh covers applied).1.schools
  have normalised {s : SchoolSnapshot Id} {unit : NsrUnit} {r : Ref Id}
      : s.MovesUnaddressed (normaliseUnits inputs.units) steps.1.state unit r
        ↔ s.MovesUnaddressed inputs.units steps.1.state unit r := by
    have found := unitOf?_normaliseUnits inputs.units s
    exact ⟨fun h => { h with found := found.symm.trans h.found },
      fun h => { h with found := found.trans h.found }⟩
  constructor
  · intro all s known unit r moves
    obtain ⟨needs, slugless⟩ := makes.unaddressed store distinct named known (normalised.mpr moves)
    refine all _ ?_ needs slugless
    rw [schools]
    exact List.mem_append_left _ (List.mem_map_of_mem known)
  · intro none_moves row member needs slugless
    rw [schools] at member
    rcases List.mem_append.mp member with old | new
    · obtain ⟨s, known, rfl⟩ := List.mem_map.mp old
      obtain ⟨unit, r, moves⟩ :=
        makes.addressed store distinct named known (addressed s known) needs slugless
      exact none_moves s known unit r (normalised.mp moves)
    · obtain ⟨c, inside, m, _, _, same⟩ := makes.mem_created new
      rw [same] at needs slugless
      have listed : c.verification = .listed := by
        cases verification : c.verification with
        | listed => rfl
        | held =>
            have verified := needs.verified
            simp [createdSchool, verification, CreateVerification.toVerification] at verified
      obtain ⟨name, slug, register, ok⟩ := needs.sluggable
      cases register
      exact (makes.createFits c inside).named listed (toOption_ne_none.mpr ⟨slug, ok⟩) slugless

end

section

attribute [local instance] OsloZone.atEpoch UnicodeData.ascii

/-- The sample run leaves every school addressed. -/
theorem samplePlan_addressed
    : ∃ after successors, apply sampleRegister samplePlan = some (after, successors)
        ∧ after.Addressed := by
  have planned : plan sampleRegister sampleInputs = some (.apply samplePlan) := by
    decide +kernel
  have planned_first : (planMunicipalities sampleRegister sampleInputs.normalised).isSome := by
    decide +kernel
  obtain ⟨municipalities, first⟩ := Option.isSome_iff_exists.mp planned_first
  obtain ⟨after, successors, applied⟩ := samplePlan_applied
  have slugged : ∀ s ∈ sampleRegister.schools, s.slug ≠ none := by decide
  refine ⟨after, successors, applied, (plan_addresses_iff sampleRegister_store
    (fun s member _ => slugged s member) first planned (testkitIds_fresh _ _)
    (testkitIds_covers _ _) applied).mpr ?_⟩
  exact fun s member unit r moves => slugged s member moves.slugless

/-- A school under a name that no slug can be made of, and a second municipality. -/
def unnamedRegister : RegisterSnapshot Nat :=
  { sampleRegister with
    municipalities := [
      ⟨1, "0301", "Oslo", some "Oslo", "03", "Oslo", "0301-oslo", .active, .kartverket, []⟩,
      ⟨4, "3201", "Asker", some "Asker", "32", "Akershus", "3201-asker", .active,
        .kartverket, []⟩]
    schools := [{ sampleSchool 2 "975288001" "?" "" with slug := none }] }

/-- The school's unit gets a name and moves to the second municipality. -/
def namedAndMovedInputs : SyncInputs :=
  { sampleInputs with
    municipalities := [
      ⟨"0301", "Oslo", "Oslo", "03", "Oslo", []⟩,
      ⟨"3201", "Asker", "Asker", "32", "Akershus", []⟩]
    units := [{ sampleUnit "975288001" "Ask skole" true with municipalityNumber := "3201" }] }

theorem unnamedRegister_store : StoreConstraints unnamedRegister where
  municipalityIds := by decide
  schoolIds := by decide
  orgnrs := by decide
  numbers := by decide
  slugSafe := ⟨by decide, by decide, by simp [unnamedRegister, sampleRegister]⟩
  located := by decide
  historyLocated := by decide
  historyOwned := by decide

/-- Its school has a name and still no slug. -/
theorem unnamedRegister_unaddressed
    : StoreConstraints unnamedRegister ∧ unnamedRegister.Addressed
      ∧ ∃ p after successors, plan unnamedRegister namedAndMovedInputs = some (.apply p)
        ∧ apply unnamedRegister p = some (after, successors) ∧ ¬ after.Addressed := by
  have addressed : unnamedRegister.Addressed := by
    intro s member needs
    obtain ⟨name, slug, register, ok⟩ := needs.sluggable
    cases List.mem_singleton.mp member
    cases register
    have unsluggable : (slugify "?").toOption = none := by decide +kernel
    rw [ok] at unsluggable
    cases unsluggable
  have leaves : (plan unnamedRegister namedAndMovedInputs).any (fun
      | .apply p => (apply unnamedRegister p).any fun out => out.1.schools.any fun s =>
          s.isTracked && !s.displayNameCurated && s.registerName = some "Ask skole"
            && s.slug = none
      | _ => false) = true := by
    decide +kernel
  obtain ⟨outcome, planned, kept⟩ := (Option.any_eq_true _ _).mp leaves
  cases outcome with
  | noChange => cases kept
  | abort => cases kept
  | apply p =>
      obtain ⟨⟨after, successors⟩, applied, found⟩ := (Option.any_eq_true _ _).mp kept
      refine ⟨unnamedRegister_store, addressed, p, after, successors, planned, applied,
        fun all => ?_⟩
      obtain ⟨s, member, bare⟩ := List.any_eq_true.mp found
      simp only [Bool.and_eq_true, SchoolSnapshot.isTracked_iff, Bool.not_eq_true',
        decide_eq_true_eq] at bare
      obtain ⟨⟨⟨⟨active, verified⟩, uncurated⟩, register⟩, slugless⟩ := bare
      have sluggable : slugify "Ask skole" = .ok "ask-skole" := by decide +kernel
      exact all s member ⟨active, verified, uncurated, _, _, register, sluggable⟩ slugless

end

end FauPortalen.Register

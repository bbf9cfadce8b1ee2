import FauPortalen.Register.Sync.Store

/-! Which units act on which schools: every school meets at most one of a run's units, so it
is closed, reviewed or updated at most once.
-/

namespace FauPortalen.Register

open FauPortalen.Foundations

variable {Id : Type} {unit : NsrUnit}

/-- The school a fate acts on. -/
def Fate.school? : Fate Id → Option (SchoolSnapshot Id)
  | .closing c => some c.school
  | .fauClosing f => some f.school
  | .update school _ => some school
  | _ => none

/-- A fate other than skipping comes from the municipality a number resolves to. -/
theorem Resolved.fate_found {resolved : Resolved Id} {found : Ref Id → Fate Id} {fate : Fate Id}
    (h : resolved.fate found = fate) (acts : fate ≠ .skipped) (known : fate ≠ .unknown)
    : ∃ ref, resolved = .municipality ref ∧ found ref = fate := by
  cases resolved with
  | municipality ref => exact ⟨ref, rfl, h⟩
  | blocked => exact absurd h.symm acts
  | unknown => exact absurd h.symm known

theorem Resolved.fate_school? {resolved : Resolved Id} {found : Ref Id → Fate Id}
    {school : SchoolSnapshot Id} (h : (resolved.fate found).school? = some school)
    : ∃ ref, resolved = .municipality ref ∧ (found ref).school? = some school := by
  have acts : resolved.fate found ≠ .skipped := fun skipped => by rw [skipped] at h; cases h
  have known : resolved.fate found ≠ .unknown := fun unknown => by rw [unknown] at h; cases h
  obtain ⟨ref, resolves, same⟩ := Resolved.fate_found rfl acts known
  exact ⟨ref, resolves, same ▸ h⟩

theorem update?_eq_some {fate : Fate Id} {u : Update Id}
    : fate.update? unit = some u ↔ u.unit = unit ∧ fate = .update u.school u.municipality := by
  cases fate with
  | update school municipality =>
      simp only [Fate.update?, Option.some.injEq, Fate.update.injEq]
      constructor
      · intro same
        subst same
        exact ⟨rfl, rfl, rfl⟩
      · intro ⟨hu, hs, hm⟩
        cases u
        simp_all
  | _ => simp [Fate.update?]

theorem candidate?_eq_some {fate : Fate Id} {c : Candidate Id}
    : fate.candidate? unit = some c ↔ c.unit = unit ∧ fate = .candidate c.municipality := by
  cases fate with
  | candidate municipality =>
      simp only [Fate.candidate?, Option.some.injEq, Fate.candidate.injEq]
      constructor
      · intro same
        subst same
        exact ⟨rfl, rfl⟩
      · intro ⟨hu, hm⟩
        cases c
        simp_all
  | _ => simp [Fate.candidate?]

theorem closing?_eq_some {fate : Fate Id} {c : Closing Id}
    : fate.closing? = some c ↔ fate = .closing c := by
  cases fate <;> simp [Fate.closing?]

theorem fauClosing?_eq_some {fate : Fate Id} {f : FauClosing Id}
    : fate.fauClosing? = some f ↔ fate = .fauClosing f := by
  cases fate <;> simp [Fate.fauClosing?]

-----------------------------------------------------------------------------------------
-- The school a unit acts on

variable [LinearOrder Id] [OsloZone] {snapshot : RegisterSnapshot Id}
  {state : MunicipalityState Id} {moment : Moment}

/-- The unit's school alone decides the fate of a unit that has one. -/
theorem fate_of_school (store : StoreConstraints snapshot) {school : SchoolSnapshot Id}
    (member : school ∈ snapshot.schools) (orgnr : school.orgnr = some unit.orgnr)
    : fate snapshot state moment unit = schoolFate state moment unit school := by
  simp [fate, store.schoolByOrgnr_eq_some.mpr ⟨member, orgnr⟩]

omit [LinearOrder Id] in
theorem closureFate_school? {school : SchoolSnapshot Id}
    : (closureFate unit school moment).school? = some school := by
  simp only [closureFate]
  split <;> rfl

/-- A school with a fate is tracked and in no blocked municipality. -/
theorem schoolFate_school? {school acted : SchoolSnapshot Id}
    (h : (schoolFate state moment unit school).school? = some acted)
    : acted = school ∧ school.isTracked = true ∧ school.municipalityId ∉ state.blockedIds := by
  unfold schoolFate at h
  split at h
  · cases h
  · next tracked =>
      split at h
      · cases h
      · next unblocked =>
          refine ⟨?_, by simpa using tracked, unblocked⟩
          split at h
          · rw [closureFate_school?] at h
            exact (Option.some.inj h).symm
          · obtain ⟨_, _, found⟩ := Resolved.fate_school? h
            exact (Option.some.inj found).symm

/-- A fate acts only on the unit's own school. -/
theorem fate_school? {school : SchoolSnapshot Id}
    (h : (fate snapshot state moment unit).school? = some school)
    : school ∈ snapshot.schools ∧ school.orgnr = some unit.orgnr
      ∧ school.isTracked = true ∧ school.municipalityId ∉ state.blockedIds := by
  unfold fate at h
  split at h
  · next found =>
      obtain ⟨member, orgnr⟩ := schoolByOrgnr_mem found
      obtain ⟨rfl, tracked, unblocked⟩ := schoolFate_school? h
      exact ⟨member, orgnr, tracked, unblocked⟩
  · split at h
    · obtain ⟨_, _, found⟩ := Resolved.fate_school? h
      cases found
    · cases h

-----------------------------------------------------------------------------------------
-- When each fate occurs

omit [LinearOrder Id] [OsloZone] in
theorem resolve_eq_municipality {number : String} {r : Ref Id}
    : state.resolve number = .municipality r
      ↔ number ∉ state.blockedNumbers ∧ state.byNumber number = some r := by
  unfold MunicipalityState.resolve
  split
  · next blocked => simp [blocked]
  · next unblocked =>
      split
      · next found => simp [unblocked, found]
      · next found => simp [found]

/-- A tracked school of an unblocked municipality closes when its unit leaves, and follows
its unit otherwise.
-/
theorem schoolFate_of_tracked {school : SchoolSnapshot Id} (tracked : school.isTracked = true)
    (unblocked : school.municipalityId ∉ state.blockedIds)
    : schoolFate state moment unit school
      = if unitLeaves unit school then closureFate unit school moment
        else (state.resolve unit.municipalityNumber).fate (.update school) := by
  simp [schoolFate, tracked, unblocked]

omit [LinearOrder Id] in
/-- A closure is a closing, or a review for a live FAU. -/
theorem closureFate_cases (unit : NsrUnit) (school : SchoolSnapshot Id) (moment : Moment)
    : (school.hasLiveFau = true ∧ closureFate unit school moment
        = .fauClosing ⟨school, isReregistrable unit, (closureFacts unit moment).1,
          (closureFacts unit moment).2, false⟩)
      ∨ (school.hasLiveFau = false ∧ closureFate unit school moment
        = .closing ⟨school, (closureFacts unit moment).1, (closureFacts unit moment).2,
          isReregistrable unit, none⟩) := by
  unfold closureFate
  cases school.hasLiveFau with
  | true => exact .inl ⟨rfl, rfl⟩
  | false => exact .inr ⟨rfl, rfl⟩

theorem schoolFate_eq_update {school updated : SchoolSnapshot Id} {r : Ref Id}
    (h : schoolFate state moment unit school = .update updated r)
    : updated = school ∧ unitLeaves unit school = false
      ∧ state.resolve unit.municipalityNumber = .municipality r := by
  have acts : (schoolFate state moment unit school).school? = some updated := by
    rw [h]
    rfl
  obtain ⟨rfl, tracked, unblocked⟩ := schoolFate_school? acts
  rw [schoolFate_of_tracked tracked unblocked] at h
  split at h
  · rcases closureFate_cases unit updated moment
      with ⟨_, closes⟩ | ⟨_, closes⟩
    · rw [closes] at h
      cases h
    · rw [closes] at h
      cases h
  · next stays =>
      refine ⟨rfl, by simpa using stays, ?_⟩
      obtain ⟨_, resolved, same⟩ := Resolved.fate_found h (by simp) (by simp)
      cases same
      exact resolved

/-- An update follows a unit that stays to the municipality its number resolves to. -/
theorem fate_update {school : SchoolSnapshot Id} {r : Ref Id}
    (h : fate snapshot state moment unit = .update school r)
    : unitLeaves unit school = false
      ∧ state.resolve unit.municipalityNumber = .municipality r := by
  unfold fate at h
  split at h
  · obtain ⟨rfl, stays, resolved⟩ := schoolFate_eq_update h
    exact ⟨stays, resolved⟩
  · split at h
    · obtain ⟨_, _, same⟩ := Resolved.fate_found h (by simp) (by simp)
      cases same
    · cases h

/-- A closing is the closure of a tracked school without a live FAU whose unit leaves. -/
theorem fate_closing (store : StoreConstraints snapshot) {c : Closing Id}
    (h : fate snapshot state moment unit = .closing c)
    : unitLeaves unit c.school = true ∧ c.school.hasLiveFau = false
      ∧ c = ⟨c.school, (closureFacts unit moment).1, (closureFacts unit moment).2,
        isReregistrable unit, none⟩ := by
  obtain ⟨member, orgnr, tracked, unblocked⟩ := fate_school?
    (show (fate snapshot state moment unit).school? = some c.school by rw [h]; rfl)
  rw [fate_of_school store member orgnr, schoolFate_of_tracked tracked unblocked] at h
  split at h
  · next leaves =>
      rcases closureFate_cases unit c.school moment
        with ⟨_, closes⟩ | ⟨fauless, closes⟩
      · rw [closes] at h
        cases h
      · rw [closes] at h
        exact ⟨leaves, fauless, (Fate.closing.inj h).symm⟩
  · obtain ⟨_, _, same⟩ := Resolved.fate_found h (by simp) (by simp)
    cases same

/-- A reviewed closure is that of a tracked school with a live FAU whose unit leaves. -/
theorem fate_fauClosing (store : StoreConstraints snapshot) {f : FauClosing Id}
    (h : fate snapshot state moment unit = .fauClosing f)
    : unitLeaves unit f.school = true ∧ f.school.hasLiveFau = true
      ∧ f = ⟨f.school, isReregistrable unit, (closureFacts unit moment).1,
        (closureFacts unit moment).2, false⟩ := by
  obtain ⟨member, orgnr, tracked, unblocked⟩ := fate_school?
    (show (fate snapshot state moment unit).school? = some f.school by rw [h]; rfl)
  rw [fate_of_school store member orgnr, schoolFate_of_tracked tracked unblocked] at h
  split at h
  · next leaves =>
      rcases closureFate_cases unit f.school moment
        with ⟨live, closes⟩ | ⟨_, closes⟩
      · rw [closes] at h
        exact ⟨leaves, live, (Fate.fauClosing.inj h).symm⟩
      · rw [closes] at h
        cases h
  · obtain ⟨_, _, same⟩ := Resolved.fate_found h (by simp) (by simp)
    cases same

/-- The fate of a unit that has no school. -/
theorem fate_of_none (none_found : schoolByOrgnr snapshot unit.orgnr = none)
    : fate snapshot state moment unit
      = if unit.classified && !isFormerOrgnr snapshot unit.orgnr then
          (state.resolve unit.municipalityNumber).fate .candidate
        else .ignored := by
  simp [fate, none_found]

/-- A candidate is a classified unit that no school has or had, in a resolved municipality.
-/
theorem fate_candidate {r : Ref Id} (h : fate snapshot state moment unit = .candidate r)
    : schoolByOrgnr snapshot unit.orgnr = none ∧ unit.classified = true
      ∧ isFormerOrgnr snapshot unit.orgnr = false
      ∧ state.resolve unit.municipalityNumber = .municipality r := by
  cases found : schoolByOrgnr snapshot unit.orgnr with
  | some school =>
      simp only [fate, found] at h
      unfold schoolFate at h
      split at h
      · cases h
      · split at h
        · cases h
        · split at h
          · rcases closureFate_cases unit school moment
              with ⟨_, closes⟩ | ⟨_, closes⟩
            · rw [closes] at h
              cases h
            · rw [closes] at h
              cases h
          · obtain ⟨_, _, same⟩ := Resolved.fate_found h (by simp) (by simp)
            cases same
  | none =>
      rw [fate_of_none found] at h
      split at h
      · next new =>
          simp only [Bool.and_eq_true, Bool.not_eq_true'] at new
          refine ⟨rfl, new.1, new.2, ?_⟩
          obtain ⟨_, resolved, same⟩ := Resolved.fate_found h (by simp) (by simp)
          cases same
          exact resolved
      · cases h

-----------------------------------------------------------------------------------------
-- Each school is acted on once

/-- Two units that act on one school have its organisation number. -/
theorem orgnr_of_school (unique : (snapshot.schools.map (·.id)).Nodup) {left right : NsrUnit}
    {s t : SchoolSnapshot Id}
    (actsLeft : (fate snapshot state moment left).school? = some s)
    (actsRight : (fate snapshot state moment right).school? = some t) (same : s.id = t.id)
    : left.orgnr = right.orgnr := by
  obtain ⟨hs, orgnrLeft, _⟩ := fate_school? actsLeft
  obtain ⟨ht, orgnrRight, _⟩ := fate_school? actsRight
  rw [List.inj_on_of_nodup_map unique hs ht same, orgnrRight] at orgnrLeft
  exact (Option.some.inj orgnrLeft).symm

section

variable {units : List NsrUnit}

theorem mem_closings {c : Closing Id}
    : c ∈ (sortUnits snapshot state moment units).closings
      ↔ ∃ u ∈ units, fate snapshot state moment u = .closing c := by
  simp [sortUnits, closing?_eq_some]

theorem mem_fauClosings {f : FauClosing Id}
    : f ∈ (sortUnits snapshot state moment units).fauClosings
      ↔ ∃ u ∈ units, fate snapshot state moment u = .fauClosing f := by
  simp [sortUnits, fauClosing?_eq_some]

theorem mem_updates {u : Update Id}
    : u ∈ (sortUnits snapshot state moment units).updates
      ↔ u.unit ∈ units ∧ fate snapshot state moment u.unit = .update u.school u.municipality := by
  simp only [sortUnits, List.mem_filterMap, update?_eq_some]
  constructor
  · intro ⟨_, member, same, found⟩
    subst same
    exact ⟨member, found⟩
  · intro ⟨member, found⟩
    exact ⟨u.unit, member, rfl, found⟩

theorem mem_candidates {c : Candidate Id}
    : c ∈ (sortUnits snapshot state moment units).candidates
      ↔ c.unit ∈ units ∧ fate snapshot state moment c.unit = .candidate c.municipality := by
  simp only [sortUnits, List.mem_filterMap, candidate?_eq_some]
  constructor
  · intro ⟨_, member, same, found⟩
    subst same
    exact ⟨member, found⟩
  · intro ⟨member, found⟩
    exact ⟨c.unit, member, rfl, found⟩

variable (unique : (snapshot.schools.map (·.id)).Nodup)
  (distinct : (units.map NsrUnit.orgnr).Nodup)
include unique distinct

/-- Two of the units that act on one school are one unit. -/
theorem unit_of_school {left right : NsrUnit} (hl : left ∈ units) (hr : right ∈ units)
    {s t : SchoolSnapshot Id}
    (actsLeft : (fate snapshot state moment left).school? = some s)
    (actsRight : (fate snapshot state moment right).school? = some t) (same : s.id = t.id)
    : left = right :=
  List.inj_on_of_nodup_map distinct hl hr (orgnr_of_school unique actsLeft actsRight same)

/-- Every school closes at most once. -/
theorem nodup_closings
    : ((sortUnits snapshot state moment units).closings.map (·.school.id)).Nodup := by
  refine nodup_filterMap_keys distinct fun a _ b _ x y hx hy same => ?_
  rw [closing?_eq_some] at hx hy
  exact orgnr_of_school unique (by rw [hx]; rfl) (by rw [hy]; rfl) same

/-- Every school with an FAU is reviewed at most once. -/
theorem nodup_fauClosings
    : ((sortUnits snapshot state moment units).fauClosings.map (·.school.id)).Nodup := by
  refine nodup_filterMap_keys distinct fun a _ b _ x y hx hy same => ?_
  rw [fauClosing?_eq_some] at hx hy
  exact orgnr_of_school unique (by rw [hx]; rfl) (by rw [hy]; rfl) same

/-- Every school is updated at most once. -/
theorem nodup_updates
    : ((sortUnits snapshot state moment units).updates.map (·.school.id)).Nodup := by
  refine nodup_filterMap_keys distinct fun a _ b _ x y hx hy same => ?_
  rw [update?_eq_some] at hx hy
  exact orgnr_of_school unique (by rw [hx.2]; rfl) (by rw [hy.2]; rfl) same

/-- No school both closes and is updated. -/
theorem closing_ne_update {c : Closing Id} {u : Update Id}
    (hc : c ∈ (sortUnits snapshot state moment units).closings)
    (hu : u ∈ (sortUnits snapshot state moment units).updates)
    : c.school.id ≠ u.school.id := by
  intro same
  obtain ⟨unit, member, closes⟩ := mem_closings.mp hc
  obtain ⟨member', updates⟩ := mem_updates.mp hu
  have one := unit_of_school unique distinct member member' (s := c.school) (t := u.school)
    (by rw [closes]; rfl) (by rw [updates]; rfl) same
  rw [one, updates] at closes
  cases closes

end

end FauPortalen.Register

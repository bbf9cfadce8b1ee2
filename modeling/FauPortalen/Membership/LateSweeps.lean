import FauPortalen.Membership.GrantIndependence
import FauPortalen.Membership.LastAdmin

/-! The handover sweep may come late: whatever days it was skipped or repeated, right after it has
run the same people have authority from that day on.
-/

set_option linter.unusedSectionVars false

namespace FauPortalen.Membership

open Foundations Transaction

section

variable [OsloZone] {moment : Moment} {today day : Date} {s t : Tables}

-----------------------------------------------------------------------------------------
-- Two runs that differ in their sweeps

/-- Two runs of one FAU from one start that take the same steps, at the same moments, but for
their handover sweeps: either sweeps when it will. A grant that a request names is its run's own.
-/
inductive Twins : FauState → FauState → Prop
  | start {s : FauState} (starts : fauSystem.start s) : Twins s s
  | operates {s t s' t' : FauState} {op op' : Operation} {moment : Moment} (twins : Twins s t)
      (alike : op.Alike op') (left : FauStep s (.operates op moment) s')
      (right : FauStep t (.operates op' moment) t')
    : Twins s' t'
  | looksUp {s t s' t' : FauState} {token found : Nat} (twins : Twins s t)
      (left : FauStep s (.looksUp token found) s') (right : FauStep t (.looksUp token found) t')
    : Twins s' t'
  | passes {s t s' t' : FauState} {day : Date} (twins : Twins s t)
      (left : FauStep s (.passes day) s') (right : FauStep t (.passes day) t')
    : Twins s' t'
  | outside {s t s' t' : FauState} (twins : Twins s t) (left : FauStep s .outside s')
      (right : FauStep t .outside t')
      (same : t'.tables = { t.tables with
        accounts := s'.tables.accounts
        tenant := s'.tables.tenant
        recoveryContact := s'.tables.recoveryContact
        units := s'.tables.units
        cohorts := s'.tables.cohorts
        nextToken := s'.tables.nextToken })
    : Twins s' t'
  | sweepsLeft {s t s' : FauState} {moment : Moment} (twins : Twins s t)
      (left : FauStep s (.operates .createTenantHandoverGrants moment) s')
    : Twins s' t
  | sweepsRight {s t t' : FauState} {moment : Moment} (twins : Twins s t)
      (right : FauStep t (.operates .createTenantHandoverGrants moment) t')
    : Twins s t'

theorem Twins.reachable {s t : FauState} (twins : Twins s t)
    : fauSystem.Reachable s ∧ fauSystem.Reachable t := by
  induction twins with
  | start starts => exact ⟨.start starts, .start starts⟩
  | operates _ _ left right ih => exact ⟨ih.1.step left, ih.2.step right⟩
  | looksUp _ left right ih => exact ⟨ih.1.step left, ih.2.step right⟩
  | passes _ left right ih => exact ⟨ih.1.step left, ih.2.step right⟩
  | outside _ left right _ ih => exact ⟨ih.1.step left, ih.2.step right⟩
  | sweepsLeft _ left ih => exact ⟨ih.1.step left, ih.2⟩
  | sweepsRight _ right ih => exact ⟨ih.1, ih.2.step right⟩

/-- A sweep changes grants alone. -/
theorem FauStep.sweep {state next : FauState}
    (stepped : FauStep state (.operates .createTenantHandoverGrants moment) next)
    : ∃ added, next.tables = { state.tables with grants := state.tables.grants ++ added }
        ∧ Sweeps moment.today
            (if state.tables.tenant.any (·.status = .active)
              then state.tables.grantCandidates moment.today else [])
            state.tables.grants added := by
  obtain ⟨_, commits⟩ := stepped.commits
  exact createTenantHandoverGrants_commits commits

theorem Tables.Alike.tenant (alike : s.Alike t) : t.tenant = s.tenant := by
  obtain ⟨_⟩ := alike
  rfl

/-- The same changes made elsewhere keep tables alike. -/
theorem Tables.Alike.withOutside (alike : s.Alike t) {accounts : List Account}
    {tenant : Option Tenant} {recoveryContact : Option RecoveryContact} {units cohorts : List Place}
    {nextToken : Nat}
    : Tables.Alike
        { s with
          accounts := accounts
          tenant := tenant
          recoveryContact := recoveryContact
          units := units
          cohorts := cohorts
          nextToken := nextToken }
        { t with
          accounts := accounts
          tenant := tenant
          recoveryContact := recoveryContact
          units := units
          cohorts := cohorts
          nextToken := nextToken } := by
  obtain ⟨invited⟩ := alike
  exact .but invited

/-- Along the two runs the tables differ in grants alone. -/
theorem Twins.alike {s t : FauState} (twins : Twins s t) : s.tables.Alike t.tables := by
  induction twins with
  | start starts => exact .refl _
  | operates _ requests left right ih => exact left.commits.alike requests ih right.commits
  | looksUp _ left right ih =>
      cases left
      cases right
      exact ih
  | passes _ left right ih =>
      cases left
      cases right
      exact ih
  | outside _ left right same ih =>
      rw [same]
      cases left with
      | outside changed =>
          cases changed
          exact ih.withOutside
  | sweepsLeft _ left ih =>
      obtain ⟨added, swept, _⟩ := left.sweep
      rw [swept]
      exact ih.withGrants _ _
  | sweepsRight _ right ih =>
      obtain ⟨added, swept, _⟩ := right.sweep
      rw [swept]
      exact ih.withGrants _ _

-----------------------------------------------------------------------------------------
-- What is left right after a sweep

/-- The admin role has ended, and its handover window holds the day. -/
def Tables.handsOver (s : Tables) (ra : RoleAssignment) (today day : Date) : Bool :=
  s.ofClass .admin ra && ra.period.hasEndedBy today
    && (handoverPeriod ra.period.endsOnExclusive).any (·.contains day)

/-- The day lies in the handover window of an unrevoked admin role, and the window is over. -/
def Tables.InClosedWindow (s : Tables) (today day : Date) : Prop :=
  ∃ ra ∈ s.assignments, ra.revokedAt = none ∧ s.ofClass .admin ra = true
    ∧ ∃ window, handoverPeriod ra.period.endsOnExclusive = some window
      ∧ window.contains day = true ∧ window.hasEndedBy today = true

/-- No later day is in a window that is over. -/
theorem Tables.not_inClosedWindow (later : today ≤ day) : ¬ s.InClosedWindow today day := by
  rintro ⟨_, _, _, _, window, _, contains, finished⟩
  rw [Period.contains_iff] at contains
  rw [Period.hasEndedBy_iff] at finished
  exact absurd (later.trans_lt contains.2) (not_lt.mpr finished)

/-- The grants fit their sources, and every ended admin role held through a usable membership has
one unless its window is over.
-/
structure Tables.Swept (s : Tables) (today : Date) : Prop where
  unique : (s.assignments.map (·.id)).Nodup
  granted : s.Granted today
  complete : ∀ ra ∈ s.assignments, s.ofClass .admin ra = true → ra.revokedAt = none →
    s.heldThroughUsable ra = true → ra.period.hasEndedBy today = true → ∀ window,
      handoverPeriod ra.period.endsOnExclusive = some window → window.hasEndedBy today = false →
        ra.id ∈ s.grants.map (·.sourceAssignmentId)

/-- Right after a sweep of an active FAU no grant is missing. -/
theorem FauStep.swept {state next : FauState} (reached : fauSystem.Reachable state)
    (stepped : FauStep state (.operates .createTenantHandoverGrants moment) next)
    (active : state.tables.tenant.any (·.status = .active) = true)
    : next.tables.Swept moment.today := by
  have reached' : fauSystem.Reachable next := reached.step stepped
  have granted : next.tables.Granted moment.today := by
    have fits := reachable_granted reached'
    cases stepped
    exact fits
  refine ⟨(reachable_keyed reached').assignmentIds, granted, ?_⟩
  obtain ⟨added, swept, sweeps⟩ := stepped.sweep
  rw [if_pos active] at sweeps
  rw [swept]
  intro ra held class_ live usable ended window runs isOpen
  by_cases has : ra.id ∈ state.tables.grants.map (·.sourceAssignmentId)
  · rw [List.map_append]
    exact List.mem_append_left _ has
  · refine sweeps.complete ra (List.mem_filter.mpr ⟨held, ?_⟩) window runs isOpen
    have none_ : state.tables.grants.any (·.sourceAssignmentId = ra.id) = false := by
      simpa [List.any_eq_false] using has
    have class' : state.tables.ofClass .admin ra = true := class_
    have usable' : state.tables.heldThroughUsable ra = true := usable
    simp [class', live, usable', ended, none_]

/-- An unrevoked assignment of a usable membership has a grant in force on a day exactly when the
day is in its handover window: grants and their revocations do not matter.
-/
theorem Tables.Swept.grant_iff (swept : s.Swept today) {ra : RoleAssignment}
    (held : ra ∈ s.assignments) (live : ra.revokedAt = none)
    (usable : s.heldThroughUsable ra = true) (compared : ¬ s.InClosedWindow today day)
    : (∃ g ∈ s.grants, g.sourceAssignmentId = ra.id ∧ g.revokedAt = none
        ∧ g.period.contains day = true)
      ↔ s.handsOver ra today day = true := by
  have sameSource {g : HandoverGrant} (there : g ∈ s.grants) (source : g.sourceAssignmentId = ra.id)
      : s.ofClass .admin ra = true ∧ ra.period.hasEndedBy today = true
        ∧ handoverPeriod ra.period.endsOnExclusive = some g.period := by
    obtain ⟨row, held', same, is⟩ := swept.granted.sourced g there
    have one : row = ra := List.inj_on_of_nodup_map swept.unique held' held (same.trans source)
    exact one ▸ is
  simp only [handsOver, Bool.and_eq_true, Option.any_eq_true]
  constructor
  · rintro ⟨g, there, source, _, contains⟩
    obtain ⟨class_, ended, runs⟩ := sameSource there source
    exact ⟨⟨class_, ended⟩, g.period, runs, contains⟩
  · rintro ⟨⟨class_, ended⟩, window, runs, contains⟩
    have isOpen : window.hasEndedBy today = false := by
      by_contra finished
      exact compared ⟨ra, held, live, class_, window, runs, contains, by simpa using finished⟩
    obtain ⟨g, there, source⟩ := List.mem_map.mp
      (swept.complete ra held class_ live usable ended window runs isOpen)
    obtain ⟨_, _, runs'⟩ := sameSource there source
    obtain rfl : window = g.period := Option.some.inj (runs.symm.trans runs')
    refine ⟨g, there, source, ?_, contains⟩
    -- a revoked grant would have a revoked source or a window that is over
    by_contra revoked
    have finished := swept.granted.revoked g there (Option.isSome_iff_ne_none.mpr revoked) ra held
      source.symm live
    rw [isOpen] at finished
    cases finished

-----------------------------------------------------------------------------------------
-- Authority and coverage, read off the assignments

/-- Who holds handover authority. -/
theorem Tables.Swept.handoverGrantValid_iff (swept : s.Swept today) {membershipId : Nat}
    (compared : ¬ s.InClosedWindow today day)
    : (∃ grantId, s.handoverGrantValid grantId membershipId day = true)
      ↔ ∃ ra ∈ s.assignments, ra.membershipId = membershipId ∧ ra.revokedAt = none
          ∧ s.heldThroughUsable ra = true ∧ s.handsOver ra today day = true := by
  simp only [handoverGrantValid, List.any_eq_true, Bool.and_eq_true, decide_eq_true_eq,
    Option.isNone_iff_eq_none]
  constructor
  · rintro ⟨_, g, there, ⟨⟨_, inForce⟩, contains⟩, ra, held, ⟨⟨source, theirs⟩, live⟩, usable⟩
    exact ⟨ra, held, theirs, live, usable, (swept.grant_iff held live usable compared).mp
      ⟨g, there, source.symm, inForce, contains⟩⟩
  · rintro ⟨ra, held, theirs, live, usable, handsOver⟩
    obtain ⟨g, there, source, inForce, contains⟩ :=
      (swept.grant_iff held live usable compared).mpr handsOver
    exact ⟨g.id, g, there, ⟨⟨rfl, inForce⟩, contains⟩, ra, held,
      ⟨⟨source.symm, theirs⟩, live⟩, usable⟩

/-- Who covers a day, without the removed rows: an admin role of that day, or one that hands over.
-/
theorem Tables.Swept.hasAdmin_iff (swept : s.Swept today) {removed : Nat → Nat → Bool}
    (compared : ¬ s.InClosedWindow today day)
    : ((AdminState.load s).without removed).hasAdmin day = true
      ↔ ∃ ra ∈ s.assignments, ra.revokedAt = none ∧ s.heldThroughUsable ra = true
          ∧ removed ra.id ra.membershipId = false
          ∧ (s.ofClass .admin ra = true ∧ ra.period.contains day = true
            ∨ s.handsOver ra today day = true) := by
  simp only [AdminState.hasAdmin, AdminState.without, AdminState.load, tenantHasAdmin,
    AssignmentView.validOn, GrantView.validOn, Bool.or_eq_true, List.any_eq_true, List.mem_map,
    List.mem_filter, List.mem_flatMap, Bool.and_eq_true, Bool.not_eq_true', decide_eq_true_eq,
    Option.isNone_iff_eq_none]
  have unrevoked {at_ : Option Timestamp} : at_.isSome = false ↔ at_ = none := by simp
  constructor
  · rintro (⟨_, ⟨_, ⟨⟨ra, ⟨held, class_, usable⟩, rfl⟩, kept⟩, rfl⟩, _, live, contains⟩
      | ⟨_, ⟨_, ⟨⟨g, there, ra, ⟨held, ⟨source, live⟩, usable⟩, rfl⟩, kept⟩, rfl⟩, inForce,
          contains⟩)
    · exact ⟨ra, held, unrevoked.mp live, usable, kept, .inl ⟨class_, contains⟩⟩
    · exact ⟨ra, held, live, usable, source ▸ kept, .inr
        ((swept.grant_iff held live usable compared).mp
          ⟨g, there, source.symm, unrevoked.mp inForce, contains⟩)⟩
  · rintro ⟨ra, held, live, usable, kept, ⟨class_, contains⟩ | handsOver⟩
    · exact .inl ⟨_, ⟨_, ⟨⟨ra, ⟨held, class_, usable⟩, rfl⟩, kept⟩, rfl⟩, rfl,
        unrevoked.mpr live, contains⟩
    · obtain ⟨g, there, source, inForce, contains⟩ :=
        (swept.grant_iff held live usable compared).mpr handsOver
      exact .inr ⟨_, ⟨_, ⟨⟨g, there, ra, ⟨held, ⟨source.symm, live⟩, usable⟩, rfl⟩,
        source ▸ kept⟩, rfl⟩, unrevoked.mpr inForce, contains⟩

-----------------------------------------------------------------------------------------
-- The same after both sweeps

/-- Handover authority as a membership's access shows it. -/
theorem Tables.Swept.grantsOf_any_iff (swept : s.Swept today) {m : MembershipRow}
    {membershipId : Nat} (found : s.membership membershipId = some m) (usable : s.usable m = true)
    (compared : ¬ s.InClosedWindow today day)
    : (s.grantsOf membershipId).any (·.validOn day) = true
      ↔ ∃ ra ∈ s.assignments, ra.membershipId = membershipId ∧ ra.revokedAt = none
          ∧ s.handsOver ra today day = true := by
  obtain ⟨present, same⟩ := of_findRow found
  have through {ra : RoleAssignment} (theirs : ra.membershipId = membershipId)
      : s.heldThroughUsable ra = true :=
    List.any_eq_true.mpr ⟨m, present, by simp [theirs, same, usable]⟩
  simp only [grantsOf, GrantView.validOn, List.any_map, List.any_eq_true, List.mem_filter,
    Function.comp_apply, Option.not_isSome, Bool.and_eq_true, decide_eq_true_eq,
    Option.isNone_iff_eq_none]
  constructor
  · rintro ⟨g, ⟨there, ra, ⟨held, theirs⟩, source, live⟩, inForce, contains⟩
    exact ⟨ra, held, theirs, live, (swept.grant_iff held live (through theirs) compared).mp
      ⟨g, there, source.symm, inForce, contains⟩⟩
  · rintro ⟨ra, held, theirs, live, handsOver⟩
    obtain ⟨g, there, source, inForce, contains⟩ :=
      (swept.grant_iff held live (through theirs) compared).mpr handsOver
    exact ⟨g, ⟨there, ra, ⟨held, theirs⟩, source.symm, live⟩, inForce, contains⟩

/-- The same handover authority, coverage by administrators and days without one, from today on,
and on every earlier day outside the handover windows that are over.
-/
structure Tables.SameHandover (today : Date) (s t : Tables) : Prop where
  access : ∀ membershipId day, today ≤ day ∨ ¬ s.InClosedWindow today day →
    s.membershipAccess membershipId day = t.membershipAccess membershipId day
  authority : ∀ membershipId day, today ≤ day ∨ ¬ s.InClosedWindow today day →
    ((∃ grantId, s.handoverGrantValid grantId membershipId day = true)
      ↔ ∃ grantId, t.handoverGrantValid grantId membershipId day = true)
  coverage : ∀ removed day, today ≤ day ∨ ¬ s.InClosedWindow today day →
    ((AdminState.load s).without removed).hasAdmin day
      = ((AdminState.load t).without removed).hasAdmin day
  safeguard : ∀ removed confirmed day, today ≤ day →
    (AdminState.load s).checkLastAdmin day confirmed removed
      = (AdminState.load t).checkLastAdmin day confirmed removed
  noAdmin : ∀ day, today ≤ day → (AdminState.load s).hasAdmin day = (AdminState.load t).hasAdmin day

section

variable (alike : s.Alike t) (left : s.Swept today) (right : t.Swept today)

include alike left right

theorem Tables.Alike.coverage {removed : Nat → Nat → Bool}
    (compared : ¬ s.InClosedWindow today day)
    : ((AdminState.load s).without removed).hasAdmin day
      = ((AdminState.load t).without removed).hasAdmin day := by
  obtain ⟨invited⟩ := alike
  exact Bool.eq_iff_iff.mpr ((left.hasAdmin_iff compared).trans (right.hasAdmin_iff compared).symm)

theorem Tables.Alike.authority {membershipId : Nat} (compared : ¬ s.InClosedWindow today day)
    : (∃ grantId, s.handoverGrantValid grantId membershipId day = true)
      ↔ ∃ grantId, t.handoverGrantValid grantId membershipId day = true := by
  obtain ⟨invited⟩ := alike
  exact (left.handoverGrantValid_iff compared).trans (right.handoverGrantValid_iff compared).symm

theorem Tables.Alike.access {membershipId : Nat} (compared : ¬ s.InClosedWindow today day)
    : s.membershipAccess membershipId day = t.membershipAccess membershipId day := by
  obtain ⟨invited⟩ := alike
  cases found : s.membership membershipId with
  | none => rw [membershipAccess_none found, membershipAccess_none (by exact found)]
  | some m =>
      rw [membershipAccess_some found, membershipAccess_some (by exact found)]
      refine evaluateAccess_congr rfl rfl fun stands => ?_
      simp only [Bool.and_eq_true] at stands
      have usable : s.usable m = true := Bool.and_eq_true_iff.mpr ⟨stands.2, stands.1.2⟩
      exact Bool.eq_iff_iff.mpr ((left.grantsOf_any_iff found usable compared).trans
        (right.grantsOf_any_iff (by exact found) usable compared).symm)

/-- The safeguard decides by what the removed and the remaining rows cover from the day on. -/
theorem Tables.Alike.safeguard {removed : Nat → Nat → Bool} {confirmed : Bool}
    (later : today ≤ day)
    : (AdminState.load s).checkLastAdmin day confirmed removed
      = (AdminState.load t).checkLastAdmin day confirmed removed := by
  have sameDays {kept : Nat → Nat → Bool} {x : Date} (from_ : day ≤ x)
      : ((AdminState.load s).without kept).hasAdmin x = ((AdminState.load t).without kept).hasAdmin x :=
    alike.coverage left right (Tables.not_inClosedWindow (later.trans from_))
  have same : (AdminState.load s).leavesNone removed day
      = (AdminState.load t).leavesNone removed day := by
    rw [Bool.eq_iff_iff, AdminState.leavesNone_iff, AdminState.leavesNone_iff]
    refine exists_congr fun x => and_congr_right fun from_ => ?_
    rw [sameDays from_, sameDays from_]
  rw [AdminState.checkLastAdmin_eq, AdminState.checkLastAdmin_eq, same]

end

theorem Tables.Alike.sameHandover (alike : s.Alike t) (left : s.Swept today) (right : t.Swept today)
    : s.SameHandover today t := by
  have outside {day : Date} (compared : today ≤ day ∨ ¬ s.InClosedWindow today day)
      : ¬ s.InClosedWindow today day :=
    compared.elim Tables.not_inClosedWindow id
  refine ⟨?_, ?_, ?_, ?_, ?_⟩
  · intro membershipId day compared
    exact alike.access left right (outside compared)
  · intro membershipId day compared
    exact alike.authority left right (outside compared)
  · intro removed day compared
    exact alike.coverage left right (outside compared)
  · intro removed confirmed day later
    exact alike.safeguard left right later
  · intro day later
    have everyone
        : ((AdminState.load s).without fun _ _ => false).hasAdmin day
          = ((AdminState.load t).without fun _ _ => false).hasAdmin day :=
      alike.coverage left right (Tables.not_inClosedWindow later)
    simpa [AdminState.without] using everyone

/-- However the earlier sweeps of two runs fell, right after a sweep of an active FAU the same
memberships have handover authority, the same days are covered and the same are without an
administrator, from that day on and before it outside the windows that are over; and no source ever
has two grants.
-/
theorem handoverSweep_lateSafe
    : (∀ state, fauSystem.Reachable state →
        (state.tables.grants.map (·.sourceAssignmentId)).Nodup)
      ∧ ∀ (s t s' t' : FauState) (moment moment' : Moment), Twins s t →
          moment'.today = moment.today → s.tables.tenant.any (·.status = .active) = true →
          FauStep s (.operates .createTenantHandoverGrants moment) s' →
          FauStep t (.operates .createTenantHandoverGrants moment') t' →
            s'.tables.SameHandover moment.today t'.tables := by
  refine ⟨fun state reached => (reachable_granted reached).once, ?_⟩
  intro s t s' t' moment moment' twins sameDay active left right
  have alike : s'.tables.Alike t'.tables := (twins.sweepsLeft left |>.sweepsRight right).alike
  have active' : t.tables.tenant.any (·.status = .active) = true := by
    rw [twins.alike.tenant]
    exact active
  have swept := left.swept twins.reachable.1 active
  have swept' := right.swept twins.reachable.2 active'
  exact alike.sameHandover swept (sameDay ▸ swept')

end

-----------------------------------------------------------------------------------------
-- Kari's handover

section

/-- The day in Oslo at the start of four days of 1970, an hour ahead of UTC. -/
@[reducible]
def OsloZone.seasons : OsloZone where
  osloToday instant :=
    if instant < 13042800000000 then .ofParts 1970 1 1 rfl
    else if instant < 20991600000000 then .ofParts 1970 6 1 rfl
    else if instant < 28854000000000 then .ofParts 1970 9 1 rfl
    else .ofParts 1970 12 1 rfl

attribute [local instance] OsloZone.seasons

def firstOfJanuary : Moment := .at 10

def firstOfJune : Moment := .at 13089600000000

def firstOfSeptember : Moment := .at 20995200000000

def firstOfDecember : Moment := .at 28857600000000

/-- Kari is the administrator until May. -/
def termFau : Tables :=
  (activateTenant ⟨⟨"kari@example.no"⟩, kariProfile⟩ firstOfJanuary).leaves signedUpFau

/-- A sweep of an activated FAU. -/
def sweptOn (moment : Moment) (tables : Tables) : Tables :=
  (createTenantHandoverGrants moment).leaves tables

/-- The sweep of June gives Kari, whose role ended in May, her grant. -/
def juneSweptFau : Tables := sweptOn firstOfJune termFau

theorem sweeps_step {tables : Tables} {today : Date} {moment : Moment}
    (later : today ≤ moment.today)
    (succeeds : ((createTenantHandoverGrants moment).run tables).toBool = true)
    : FauStep ⟨tables, today, []⟩ (.operates .createTenantHandoverGrants moment)
        ⟨sweptOn moment tables, moment.today, []⟩ :=
  .operates later (by simp) (leaves_commits succeeds)

/-- One run sweeps in June and the other does not. -/
theorem juneSweptFau_twins
    : Twins ⟨juneSweptFau, firstOfJune.today, []⟩ ⟨termFau, firstOfJanuary.today, []⟩ := by
  have start : Twins ⟨signedUpFau, firstOfJanuary.today, []⟩ ⟨signedUpFau, firstOfJanuary.today, []⟩ :=
    .start ⟨signedUpFau_justSignedUp, rfl⟩
  have activated : FauStep ⟨signedUpFau, firstOfJanuary.today, []⟩
      (.operates (.activateTenant ⟨⟨"kari@example.no"⟩, kariProfile⟩) firstOfJanuary)
      ⟨termFau, firstOfJanuary.today, []⟩ :=
    .operates (le_refl _) (by simp) (leaves_commits (by decide +kernel))
  have both : Twins ⟨termFau, firstOfJanuary.today, []⟩ ⟨termFau, firstOfJanuary.today, []⟩ :=
    start.operates (.same _) activated activated
  exact both.sweepsLeft (sweeps_step (by decide +kernel) (by decide +kernel))

/-- A sweep in September, months late, covers the day as one in June did. -/
theorem september_lateSafe
    : (AdminState.load (sweptOn firstOfSeptember termFau)).hasAdmin firstOfSeptember.today = true := by
  have left : FauStep ⟨juneSweptFau, firstOfJune.today, []⟩
      (.operates .createTenantHandoverGrants firstOfSeptember)
      ⟨sweptOn firstOfSeptember juneSweptFau, firstOfSeptember.today, []⟩ :=
    sweeps_step (by decide +kernel) (by decide +kernel)
  have right : FauStep ⟨termFau, firstOfJanuary.today, []⟩
      (.operates .createTenantHandoverGrants firstOfSeptember)
      ⟨sweptOn firstOfSeptember termFau, firstOfSeptember.today, []⟩ :=
    sweeps_step (by decide +kernel) (by decide +kernel)
  have same := (handoverSweep_lateSafe.2 _ _ _ _ _ _ juneSweptFau_twins rfl (by decide +kernel) left
    right).noAdmin firstOfSeptember.today (le_refl _)
  rw [← same]
  decide +kernel

/-- A sweep in December, when the window is over, leaves a past day of it uncovered that a sweep in
time covers.
-/
theorem december_past_uncovered
    : ¬ ∀ (s t s' t' : FauState) (moment moment' : Moment), Twins s t →
        moment'.today = moment.today → s.tables.tenant.any (·.status = .active) = true →
        FauStep s (.operates .createTenantHandoverGrants moment) s' →
        FauStep t (.operates .createTenantHandoverGrants moment') t' →
          ∀ removed day, ((AdminState.load s'.tables).without removed).hasAdmin day
            = ((AdminState.load t'.tables).without removed).hasAdmin day := by
  intro always
  have left : FauStep ⟨juneSweptFau, firstOfJune.today, []⟩
      (.operates .createTenantHandoverGrants firstOfDecember)
      ⟨sweptOn firstOfDecember juneSweptFau, firstOfDecember.today, []⟩ :=
    sweeps_step (by decide +kernel) (by decide +kernel)
  have right : FauStep ⟨termFau, firstOfJanuary.today, []⟩
      (.operates .createTenantHandoverGrants firstOfDecember)
      ⟨sweptOn firstOfDecember termFau, firstOfDecember.today, []⟩ :=
    sweeps_step (by decide +kernel) (by decide +kernel)
  have same := always _ _ _ _ _ _ juneSweptFau_twins rfl (by decide +kernel) left right
    (fun _ _ => false) firstOfJune.today
  revert same
  decide +kernel

end

end FauPortalen.Membership

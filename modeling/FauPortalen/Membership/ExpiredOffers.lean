import FauPortalen.Membership.HandoverGrants
import FauPortalen.Membership.Provenance

/-! Handover rights come from an office that was held, as long as offers are accepted in time: an
acceptance does not look at the offered periods again, so one that comes after a period has ended
inserts a role that was never held, and the sweep gives a grant for it.
-/

set_option linter.unusedSectionVars false

namespace FauPortalen.Membership

open Foundations Transaction

section

variable [OsloZone] {moment : Moment} {today day : Date} {s after : Tables}
  {state next last : FauState} {event : FauEvent} {op : Operation}

-----------------------------------------------------------------------------------------
-- Acceptances in time

/-- The day an offered role would end, an admin role on the day the request chooses. -/
def Tables.offeredEnd (s : Tables) (adminEndOverride : Option Date) (offered : Nat × Period) : Date :=
  if (s.role offered.1).any (·.capabilityClass = .admin)
    then adminEndOverride.getD offered.2.endsOnExclusive
    else offered.2.endsOnExclusive

/-- An acceptance comes before any offered role has ended. -/
def Operation.InTime (s : Tables) (today : Date) : Operation → Prop
  | .acceptInvitation found req => ∀ inv, s.invitation found = some inv →
      ∀ offered ∈ inv.roles, today < s.offeredEnd req.adminEndOverride offered
  | _ => True

/-- Every acceptance in time. -/
def FauEvent.InTime (state : FauState) : FauEvent → Prop
  | .operates op moment => op.InTime state.tables moment.today
  | _ => True

/-- A role's class decides what the override does to it. -/
theorem Tables.Fulfils.end_eq {adminEndOverride : Option Date} {offered : Nat × Period}
    {role : Nat × CapabilityClass × Period} (keyed : s.Keyed)
    (fulfils : s.Fulfils adminEndOverride offered role)
    : role.2.2.endsOnExclusive = s.offeredEnd adminEndOverride offered := by
  obtain ⟨r, present, one, class_⟩ := fulfils.known
  have found : s.role offered.1 = some r :=
    (findRow_eq_some keyed.roleIds).mpr ⟨present, one.trans fulfils.roleId⟩
  rw [fulfils.endsOnExclusive, Tables.offeredEnd, found, Option.any_some, class_]
  simp only [decide_eq_true_eq]

/-- The accepted roles end when they were offered to, unless overridden. -/
theorem AcceptancePath.ends {found : Nat} {req : AcceptInvitation} (keyed : s.Keyed)
    (path : AcceptancePath found req moment s after)
    : ∃ rows, after.assignments = s.assignments ++ rows
        ∧ (∀ ra ∈ rows, ra.id ∉ s.assignments.map (·.id))
        ∧ List.Forall₂
            (fun offered ra => ra.period.endsOnExclusive
              = s.offeredEnd req.adminEndOverride offered)
            (sortOn (·.1) path.inv.roles) rows := by
  obtain ⟨rows, added, gives, fresh⟩ := path.assignments
  obtain ⟨_, fulfils, _⟩ := acceptedRoles_commits path.offers
  refine ⟨rows, added, fresh, forall₂_through (fun offered role ra asked given => ?_) fulfils gives⟩
  rw [given.period]
  exact asked.end_eq keyed

/-- An operation inserts no role that has ended exactly when it is not an acceptance that comes
too late.
-/
theorem Operation.Commits.running_iff (commits : op.Commits moment s after) (keyed : s.Keyed)
    : (∀ ra ∈ after.assignments, ra.id ∉ s.assignments.map (·.id) →
          ra.period.hasEndedBy moment.today = false)
        ↔ op.InTime s moment.today := by
  by_cases accepts : ∃ found req, op = .acceptInvitation found req
  · obtain ⟨found, req, rfl⟩ := accepts
    obtain ⟨_, commits⟩ := commits
    obtain ⟨path⟩ := acceptInvitation_commits commits
    obtain ⟨rows, added, fresh, ends⟩ := path.ends keyed
    constructor
    · intro running inv finds offered inside
      obtain rfl : path.inv = inv := Option.some.inj (path.finds.symm.trans finds)
      obtain ⟨ra, given, same⟩ := forall₂_left_of_mem ends.flip (mem_sortOn.mpr inside)
      rw [← same]
      exact Period.hasEndedBy_eq_false.mp
        (running ra (added ▸ List.mem_append_right _ given) (fresh ra given))
    · intro inTime ra inside new
      rw [added] at inside
      rcases List.mem_append.mp inside with old | given
      · exact absurd (List.mem_map_of_mem old) new
      · obtain ⟨offered, asked, same⟩ := forall₂_left_of_mem ends given
        refine Period.hasEndedBy_eq_false.mpr ?_
        rw [same]
        exact inTime path.inv path.finds offered (mem_sortOn.mp asked)
  · have always : op.InTime s moment.today := by
      cases op
      case acceptInvitation found req => exact absurd ⟨found, req, rfl⟩ accepts
      all_goals trivial
    refine iff_of_true (fun ra inside new => Period.hasEndedBy_eq_false.mpr ?_) always
    cases commits.origin inside new with
    | granted path gives =>
        rw [gives.period]
        exact path.resolves.running _ (List.mem_singleton_self _)
    | accepted path _ _ => exact absurd ⟨_, _, rfl⟩ accepts
    | activated path gives =>
        rw [gives.period, ← path.starts]
        exact path.period.nonEmpty

-----------------------------------------------------------------------------------------
-- The day an assignment was inserted

variable {system : EventSystem FauState FauEvent}

/-- On a run to the state, an operation inserted the assignment that day. -/
def InsertedOn (system : EventSystem FauState FauEvent) (last : FauState) (id : Nat) (day : Date)
    : Prop :=
  ∃ before op moment after events, system.Reachable before
    ∧ system.step before (.operates op moment) after
    ∧ id ∉ before.tables.assignments.map (·.id) ∧ id ∈ after.tables.assignments.map (·.id)
    ∧ system.Run after events last ∧ day = moment.today

/-- Every assignment was inserted on some day. -/
theorem exists_insertedOn {allowed : FauState → FauEvent → Prop}
    (reached : (fauSystem.restrict allowed).Reachable last) {ra : RoleAssignment}
    (held : ra ∈ last.tables.assignments)
    : ∃ day, InsertedOn (fauSystem.restrict allowed) last ra.id day := by
  induction reached generalizing ra with
  | start begun =>
      rw [begun.1.noAssignments] at held
      cases held
  | @step s after event reached stepped ih =>
      rcases FauStep.assignment stepped.2 held with ⟨ra₀, held₀, goesOn⟩ | ⟨op, moment, rfl, new, _⟩
      · obtain ⟨day, before, op, moment, middle, events, earlier, inserts, new, there, run, same⟩ :=
          ih held₀
        exact ⟨day, before, op, moment, middle, _, earlier, inserts, goesOn.id ▸ new,
          goesOn.id ▸ there, run.next stepped, same⟩
      · exact ⟨_, s, op, moment, after, _, reached, stepped, new, List.mem_map_of_mem held, .done, rfl⟩

/-- An assignment keeps its period along a run. -/
theorem Run.period_eq {events : List FauEvent} {ra ra' : RoleAssignment}
    (reached : fauSystem.Reachable state) (run : fauSystem.Run state events last)
    (held : ra ∈ state.tables.assignments) (held' : ra' ∈ last.tables.assignments)
    (same : ra'.id = ra.id)
    : ra'.period = ra.period := by
  have kept : ∃ row ∈ last.tables.assignments, row.id = ra.id ∧ row.period = ra.period := by
    refine run.keeps (P := fun s => ∃ row ∈ s.tables.assignments,
      row.id = ra.id ∧ row.period = ra.period) ?_ reached ⟨ra, held, rfl, rfl⟩
    rintro s event after _ ⟨row, inside, one, period⟩ stepped
    obtain ⟨row', inside', goesOn⟩ := (FauStep.changes stepped).assignments.goesOn row inside
    refine ⟨row', inside', goesOn.id.trans one, ?_⟩
    rw [goesOn.same]
    exact period
  obtain ⟨row, inside, one, period⟩ := kept
  have is : ra' = row := List.inj_on_of_nodup_map (reachable_keyed (reached.run run)).assignmentIds
    held' inside (same.trans one.symm)
  exact is ▸ period

/-- The runs in which every acceptance is in time. -/
def punctualSystem : EventSystem FauState FauEvent := fauSystem.restrict FauEvent.InTime

theorem punctual_step (reached : punctualSystem.Reachable state) (stepped : FauStep state event next)
    (inTime : event.InTime state)
    : punctualSystem.Reachable next :=
  reached.step ⟨inTime, stepped⟩

/-- Along such a run no assignment had ended on the day it was inserted. -/
theorem InsertedOn.running {ra : RoleAssignment} (held : ra ∈ last.tables.assignments)
    (inserted : InsertedOn punctualSystem last ra.id day)
    : day < ra.period.endsOnExclusive := by
  obtain ⟨before, op, moment, after, events, reached, ⟨inTime, stepped⟩, new, there, run, rfl⟩ :=
    inserted
  have reached' : fauSystem.Reachable before := reached.of_restrict
  obtain ⟨ra₀, held₀, same⟩ := List.mem_map.mp there
  have running := (FauStep.commits stepped).running_iff (reachable_keyed reached') |>.mpr inTime
  rw [Run.period_eq (reached'.step stepped) run.of_restrict held₀ held same.symm]
  exact Period.hasEndedBy_eq_false.mp (running ra₀ held₀ (same ▸ new))

/-- The source of a grant that the sweep adds is an unrevoked admin role that has ended. -/
theorem FauStep.grantSource
    (stepped : FauStep state (.operates .createTenantHandoverGrants moment) next)
    {g : HandoverGrant} (inside : g ∈ next.tables.grants)
    (new : g.id ∉ state.tables.grants.map (·.id))
    : ∃ ra ∈ state.tables.assignments, ra.id = g.sourceAssignmentId
        ∧ state.tables.ofClass .admin ra = true ∧ ra.revokedAt = none
        ∧ ra.period.hasEndedBy moment.today = true := by
  obtain ⟨_, commits⟩ := stepped.commits
  obtain ⟨added, swept, sweeps⟩ := createTenantHandoverGrants_commits commits
  rw [swept] at inside
  rcases List.mem_append.mp inside with old | added'
  · exact absurd (List.mem_map_of_mem old) new
  · obtain ⟨_, ra, candidate, source, _⟩ := sweeps.sourced g added'
    split at candidate
    · obtain ⟨held, is⟩ := List.mem_filter.mp candidate
      simp only [Bool.and_eq_true, Option.isNone_iff_eq_none] at is
      exact ⟨ra, held, source.symm, is.1.1.1.1, is.1.1.1.2, is.1.2⟩
    · cases candidate

/-- An operation of a reachable FAU inserts no role that has ended exactly when it is not an
acceptance that comes too late; and in every run without one, a grant that the sweep adds has a
source, an administrator's role, that was valid on a day from its insertion on.
-/
theorem handoverRight_afterOffice
    : (∀ (state next : FauState) (op : Operation) (moment : Moment), fauSystem.Reachable state →
        FauStep state (.operates op moment) next →
          ((∀ ra ∈ next.tables.assignments, ra.id ∉ state.tables.assignments.map (·.id) →
              ra.period.hasEndedBy moment.today = false)
            ↔ op.InTime state.tables moment.today))
      ∧ ∀ (last next : FauState) (moment : Moment), punctualSystem.Reachable last →
          FauStep last (.operates .createTenantHandoverGrants moment) next →
          ∀ g ∈ next.tables.grants, g.id ∉ last.tables.grants.map (·.id) →
            ∃ ra ∈ last.tables.assignments, ra.id = g.sourceAssignmentId
              ∧ last.tables.ofClass .admin ra = true
              ∧ (∃ inserted, InsertedOn punctualSystem last ra.id inserted)
              ∧ ∀ inserted, InsertedOn punctualSystem last ra.id inserted →
                  ∃ day, inserted ≤ day ∧ day < moment.today ∧ ra.validOn day = true := by
  constructor
  · intro state next op moment reached stepped
    exact stepped.commits.running_iff (reachable_keyed reached)
  · intro last next moment reached stepped g inside new
    obtain ⟨ra, held, source, class_, live, ended⟩ :=
      stepped.grantSource inside new
    refine ⟨ra, held, source, class_, exists_insertedOn reached held, fun inserted since => ?_⟩
    -- the later of the day it was inserted and the day it started
    refine ⟨max inserted ra.period.startsOn, le_max_left _ _, ?_, ?_⟩
    · exact (max_lt (since.running held) ra.period.nonEmpty).trans_le (Period.hasEndedBy_iff.mp ended)
    · simp only [RoleAssignment.validOn, live, Option.isNone_none, Bool.true_and,
        Period.contains_iff]
      exact ⟨le_max_right _ _, max_lt (since.running held) ra.period.nonEmpty⟩

end

-----------------------------------------------------------------------------------------
-- An offer accepted two days late

section

/-- The day in Oslo on two days of January 1970, an hour ahead of UTC. -/
@[reducible]
def OsloZone.earlyJanuary : OsloZone where
  osloToday instant :=
    if instant < 342000000000 then .ofParts 1970 1 1 rfl
    else .ofParts 1970 1 5 rfl

attribute [local instance] OsloZone.earlyJanuary

def januaryFirst : Moment := .at 10

def januaryFifth : Moment := .at 345600000000

/-- Kari is the administrator from the first of January. -/
def startedFau : Tables :=
  (activateTenant ⟨⟨"kari@example.no"⟩, kariProfile⟩ januaryFirst).leaves signedUpFau

/-- Her role, offered to Ola that day until the third. -/
def twoDayOffer : IssueInvitation :=
  ⟨1, ⟨"ola@example.no"⟩,
    [⟨.existing 1, .ofEnds januaryFirst.today (.ofParts 1970 1 3 rfl) rfl⟩], none, none⟩

def offeredFau : Tables := (issueInvitation twoDayOffer januaryFirst).leaves startedFau

def olaAccepts : AcceptInvitation :=
  ⟨1, ⟨"ola@example.no"⟩, none, 2, ⟨1 :: List.replicate 41 0⟩, none⟩

/-- Ola accepts on the fifth. -/
def lateFau : Tables := (acceptInvitation 1 olaAccepts januaryFifth).leaves offeredFau

/-- Ola has a handover grant. -/
def lateSweptFau : Tables := (createTenantHandoverGrants januaryFifth).leaves lateFau

/-- Ola accepts on the first. -/
def punctualFau : Tables := (acceptInvitation 1 olaAccepts januaryFirst).leaves offeredFau

/-- Ola has opened the link. -/
theorem offeredFau_reachable
    : punctualSystem.Reachable ⟨offeredFau, januaryFirst.today, [(1, 1)]⟩ := by
  have start : punctualSystem.Reachable ⟨signedUpFau, januaryFirst.today, []⟩ :=
    .start ⟨signedUpFau_justSignedUp, rfl⟩
  have activated : FauStep ⟨signedUpFau, januaryFirst.today, []⟩
      (.operates (.activateTenant ⟨⟨"kari@example.no"⟩, kariProfile⟩) januaryFirst)
      ⟨startedFau, januaryFirst.today, []⟩ :=
    .operates (le_refl _) (by simp) (leaves_commits (by decide +kernel))
  have offered : FauStep ⟨startedFau, januaryFirst.today, []⟩
      (.operates (.issueInvitation twoDayOffer) januaryFirst)
      ⟨offeredFau, januaryFirst.today, []⟩ :=
    .operates (le_refl _) (by simp) (leaves_commits (by decide +kernel))
  have found : FauStep ⟨offeredFau, januaryFirst.today, []⟩ (.looksUp 1 1)
      ⟨offeredFau, januaryFirst.today, [(1, 1)]⟩ :=
    .looksUp (by decide +kernel)
  have invited := punctual_step (punctual_step start activated trivial) offered trivial
  exact punctual_step invited found trivial

theorem accepts_step (moment : Moment) (later : januaryFirst.today ≤ moment.today)
    (succeeds : ((acceptInvitation 1 olaAccepts moment).run offeredFau).toBool = true)
    : FauStep ⟨offeredFau, januaryFirst.today, [(1, 1)]⟩
        (.operates (.acceptInvitation 1 olaAccepts) moment)
        ⟨(acceptInvitation 1 olaAccepts moment).leaves offeredFau, moment.today, [(1, 1)]⟩ :=
  .operates later (fun _ _ same => by cases same; exact List.mem_singleton_self _)
    (leaves_commits succeeds)

theorem sweepsFifth_step (tables : Tables) {today : Date} (later : today ≤ januaryFifth.today)
    (succeeds : ((createTenantHandoverGrants januaryFifth).run tables).toBool = true)
    : FauStep ⟨tables, today, [(1, 1)]⟩ (.operates .createTenantHandoverGrants januaryFifth)
        ⟨(createTenantHandoverGrants januaryFifth).leaves tables, januaryFifth.today, [(1, 1)]⟩ :=
  .operates later (by simp) (leaves_commits succeeds)

/-- When Ola accepts on the first, her handover grant comes from a role she had. -/
theorem ola_afterOffice
    : ∃ ra ∈ punctualFau.assignments, punctualFau.ofClass .admin ra = true
        ∧ ∃ day, day < januaryFifth.today ∧ ra.validOn day = true := by
  have accepted := accepts_step januaryFirst (le_refl _) (by decide +kernel)
  have inTime := (accepted.commits.running_iff (reachable_keyed offeredFau_reachable.of_restrict)).mp
    (by decide +kernel)
  have reached : punctualSystem.Reachable ⟨punctualFau, januaryFirst.today, [(1, 1)]⟩ :=
    punctual_step offeredFau_reachable accepted inTime
  have swept := sweepsFifth_step punctualFau
    (by decide +kernel : januaryFirst.today ≤ januaryFifth.today) (by decide +kernel)
  have granted : ∃ g ∈ ((createTenantHandoverGrants januaryFifth).leaves punctualFau).grants,
      g.id ∉ punctualFau.grants.map (·.id) := by
    decide +kernel
  obtain ⟨g, inside, new⟩ := granted
  obtain ⟨ra, held, _, class_, ⟨inserted, since⟩, valid⟩ :=
    handoverRight_afterOffice.2 _ _ _ reached swept g inside new
  obtain ⟨day, _, before, valid⟩ := valid inserted since
  exact ⟨ra, held, class_, day, before, valid⟩

/-- When she accepts on the fifth, the inserted role had ended on the third, and the sweep gives her
a grant for it.
-/
theorem olaLate_withoutOffice
    : (¬ ∀ (state next : FauState) (op : Operation) (moment : Moment), fauSystem.Reachable state →
          FauStep state (.operates op moment) next →
            ∀ ra ∈ next.tables.assignments, ra.id ∉ state.tables.assignments.map (·.id) →
              ra.period.hasEndedBy moment.today = false)
      ∧ ¬ ∀ (last next : FauState) (moment : Moment), fauSystem.Reachable last →
          FauStep last (.operates .createTenantHandoverGrants moment) next →
          ∀ g ∈ next.tables.grants, g.id ∉ last.tables.grants.map (·.id) →
            ∃ ra ∈ last.tables.assignments, ra.id = g.sourceAssignmentId
              ∧ ∀ inserted, InsertedOn fauSystem last ra.id inserted →
                  ∃ day, inserted ≤ day ∧ ra.validOn day = true := by
  have reached := offeredFau_reachable.of_restrict
  have accepted := accepts_step januaryFifth (by decide +kernel) (by decide +kernel)
  constructor
  · intro always
    have running := always _ _ _ _ reached accepted
    revert running
    decide +kernel
  · intro always
    have reached' : fauSystem.Reachable ⟨lateFau, januaryFifth.today, [(1, 1)]⟩ :=
      reached.step accepted
    have granted : ∃ g ∈ lateSweptFau.grants, g.id ∉ lateFau.grants.map (·.id)
        ∧ ∀ ra ∈ lateFau.assignments, ra.id = g.sourceAssignmentId →
            ra.id ∉ offeredFau.assignments.map (·.id)
              ∧ ra.period.hasEndedBy januaryFifth.today = true := by
      decide +kernel
    obtain ⟨g, inside, new, sources⟩ := granted
    obtain ⟨ra, held, source, valid⟩ := always _ _ _ reached'
      (sweepsFifth_step lateFau (le_refl _) (by decide +kernel)) g inside new
    obtain ⟨fresh, ended⟩ := sources ra held source
    obtain ⟨day, later, valid⟩ := valid januaryFifth.today
      ⟨_, _, _, _, _, reached, accepted, fresh, List.mem_map_of_mem held, .done, rfl⟩
    have contains := (Bool.and_eq_true_iff.mp valid).2
    exact absurd (later.trans_lt (Period.contains_iff.mp contains).2)
      (not_lt.mpr (Period.hasEndedBy_iff.mp ended))

end

end FauPortalen.Membership

import FauPortalen.Membership.Groups
import FauPortalen.Membership.HandoverGrants
import FauPortalen.Membership.LeavingGroups

/-! No authority survives a revocation: once a membership has been revoked, the roles it held until
then and the handover grants that come from them count for nothing, also when the person is back.
-/

set_option linter.unusedSectionVars false

namespace FauPortalen.Membership

open Foundations Transaction

section

variable [OsloZone] {moment : Moment} {today day : Date} {s after : Tables}
  {state next last : FauState} {event : FauEvent}

-----------------------------------------------------------------------------------------
-- A grant stands with its source

/-- The source of an unrevoked grant is not revoked. -/
def Tables.Backed (s : Tables) : Prop :=
  ∀ g ∈ s.grants, g.revokedAt = none → ∀ ra ∈ s.assignments, ra.id = g.sourceAssignmentId →
    ra.revokedAt = none

/-- The revoked assignment takes its grant along. -/
theorem revokeRoleAssignment_backed {req : RevokeAssignment} {u : Unit} (backed : s.Backed)
    (commits : (revokeRoleAssignment req moment).Commits s u after)
    : after.Backed := by
  rw [revokeRoleAssignment_commits commits]
  intro g' inside live ra' held source
  obtain ⟨g, there, rfl⟩ := List.mem_map.mp inside
  obtain ⟨ra, held₀, rfl⟩ := List.mem_map.mp held
  by_cases taken : (decide (g.sourceAssignmentId = req.assignmentId) && g.revokedAt.isNone) = true
  · rw [if_pos taken] at live
    cases live
  · rw [if_neg taken] at live source
    have source₀ : ra.id = g.sourceAssignmentId := by
      rw [← source]
      split <;> rfl
    have other : g.sourceAssignmentId ≠ req.assignmentId := by
      intro same
      exact taken (by simp [same, live])
    rw [if_neg (by simp [source₀, other])]
    exact backed g there live ra held₀ source₀

/-- The revoked membership takes along the grants of its roles, and no other role. -/
theorem revokeMembership_backed {req : RevokeMembership} {u : Unit} (backed : s.Backed)
    (keyed : s.Keyed) (commits : (revokeMembership req moment).Commits s u after)
    : after.Backed := by
  have revokes := revokeMembership_commits commits
  intro g' inside live ra' held source
  obtain ⟨g, there, rfl⟩ := List.mem_map.mp (revokes.grants ▸ inside)
  by_cases taken : (after.sourceHeldBy req.membershipId g && g.revokedAt.isNone) = true
  · rw [if_pos taken] at live
    cases live
  · rw [if_neg taken] at live source
    have other : ra'.membershipId ≠ req.membershipId := by
      intro theirs
      refine taken (Bool.and_eq_true_iff.mpr ⟨?_, Option.isNone_iff_eq_none.mpr live⟩)
      exact List.any_eq_true.mpr ⟨ra', held, by simp [source, theirs]⟩
    exact backed g there live ra' (revokes.others keyed.assignmentIds ra' held other) source

/-- The sweep grants to unrevoked roles. -/
theorem Sweeps.backed {candidates : List RoleAssignment} {added : List HandoverGrant}
    (keyed : s.Keyed) (backed : s.Backed) (some_ : ∀ ra ∈ candidates, ra ∈ s.grantCandidates today)
    (sweeps : Sweeps today candidates s.grants added)
    : ({ s with grants := s.grants ++ added } : Tables).Backed := by
  intro g inside live ra held source
  rcases List.mem_append.mp inside with old | new
  · exact backed g old live ra held source
  · obtain ⟨_, ra₀, candidate, source₀, _⟩ := sweeps.sourced g new
    obtain ⟨held₀, is⟩ := List.mem_filter.mp (some_ ra₀ candidate)
    have one : ra = ra₀ :=
      List.inj_on_of_nodup_map keyed.assignmentIds held held₀ (source.trans source₀)
    simp only [Bool.and_eq_true, Option.isNone_iff_eq_none] at is
    exact one ▸ is.1.1.1.2

theorem FauStep.backed (stepped : FauStep state event next) (keyed : state.tables.Keyed)
    (granted : state.tables.Granted state.today) (backed : state.tables.Backed)
    : next.tables.Backed := by
  have changes := stepped.changes
  -- where neither grants nor revocations are written, a source is the row that it was
  have untouched (sameGrants : next.tables.grants = state.tables.grants)
      (kept : ∃ added, next.tables.assignments = state.tables.assignments ++ added)
      : next.tables.Backed := by
    obtain ⟨added, kept⟩ := kept
    intro g inside live ra held source
    obtain ⟨ra₀, held₀, source₀, _⟩ := granted.sourced g (sameGrants ▸ inside)
    have still : ra₀ ∈ next.tables.assignments := kept ▸ List.mem_append_left _ held₀
    have one : ra = ra₀ := List.inj_on_of_nodup_map (changes.keyed keyed).assignmentIds held still
      (source.trans source₀.symm)
    exact backed g (sameGrants ▸ inside) live ra (one ▸ held₀) source
  cases stepped with
  | looksUp finds => exact backed
  | passes _ => exact backed
  | outside changed =>
      cases changed
      exact backed
  | @operates op moment after _ _ commits =>
      cases op
      case revokeRoleAssignment =>
        obtain ⟨_, commits⟩ := commits
        exact revokeRoleAssignment_backed backed commits
      case revokeMembership =>
        obtain ⟨_, commits⟩ := commits
        exact revokeMembership_backed backed keyed commits
      case createTenantHandoverGrants =>
        obtain ⟨_, commits⟩ := commits
        obtain ⟨added, rfl, sweeps⟩ := createTenantHandoverGrants_commits commits
        refine sweeps.backed keyed backed fun ra candidate => ?_
        split at candidate
        · exact candidate
        · cases candidate
      all_goals
        exact untouched
          (changes.sameGrants (by simp [FauEvent.written, Operation.written])
            (by simp [FauEvent.written, Operation.written]))
          (changes.noRevocations (by simp [FauEvent.written, Operation.written]))

theorem reachable_backed (reached : fauSystem.Reachable state) : state.tables.Backed := by
  have both := reached.keeps
    (I := fun state => state.tables.Keyed ∧ state.tables.Granted state.today ∧ state.tables.Backed)
    ?_ ?_
  · exact both.2.2
  · rintro s ⟨signedUp, lookups⟩
    refine ⟨signedUp.keyed, reachable_granted (.start ⟨signedUp, lookups⟩), ?_⟩
    intro g inside
    rw [signedUp.noGrants] at inside
    cases inside
  · rintro s event after ⟨keyed, granted, backed⟩ stepped
    exact ⟨(FauStep.changes stepped).keyed keyed, FauStep.granted stepped keyed granted,
      FauStep.backed stepped keyed granted backed⟩

-----------------------------------------------------------------------------------------
-- What is left of the roles of a revoked membership

/-- The roles of a membership, by their ids. -/
def Tables.heldBy (s : Tables) (membershipId id : Nat) : Bool :=
  s.assignments.any fun ra => ra.id = id && ra.membershipId = membershipId

/-- Some of the roles there are count for nothing from the day on: each is revoked, or has ended,
and so has its handover window when it is an admin role.
-/
structure Tables.RolesSpent (s : Tables) (old : Nat → Bool) (today : Date) : Prop where
  known : ∀ id, old id = true → id ∈ s.assignments.map (·.id)
  ended : ∀ ra ∈ s.assignments, old ra.id = true → ra.revokedAt = none →
    ra.period.hasEndedBy today = true
  windowOver : ∀ ra ∈ s.assignments, old ra.id = true → ra.revokedAt = none →
    s.ofClass .admin ra = true → ∀ window, handoverPeriod ra.period.endsOnExclusive = some window →
      window.hasEndedBy today = true

variable {old : Nat → Bool}

/-- A revoked membership leaves its roles spent. -/
theorem revokeMembership_spent {req : RevokeMembership} {u : Unit} (keyed : s.Keyed)
    (commits : (revokeMembership req moment).Commits s u after)
    : after.RolesSpent (s.heldBy req.membershipId) moment.today := by
  have changes := revokeMembership_within _ _ _ commits
  have revokes := revokeMembership_commits commits
  have theirs {ra : RoleAssignment} (held : ra ∈ after.assignments)
      (is : s.heldBy req.membershipId ra.id = true)
      : ra.membershipId = req.membershipId := by
    obtain ⟨ra₀, held₀, same⟩ := List.any_eq_true.mp is
    simp only [Bool.and_eq_true, decide_eq_true_eq] at same
    have goesOn := changes.assignments.comesFrom_key (fun _ _ h => h.id) keyed.assignmentIds held₀
      held same.1.symm
    rw [goesOn.same]
    exact same.2
  refine ⟨fun id is => ?_, fun ra held is live => ?_, fun ra held is live class_ => ?_⟩
  · obtain ⟨ra, held, same⟩ := List.any_eq_true.mp is
    simp only [Bool.and_eq_true, decide_eq_true_eq] at same
    rw [changes.noAssignments (by simp)]
    exact same.1 ▸ List.mem_map_of_mem held
  · exact (revokes.spent ra held (theirs held is) live).1
  · have class' : s.ofClass .admin ra = true := by
      rw [Tables.ofClass, ← changes.sameRoles (by simp)]
      exact class_
    exact (revokes.spent ra held (theirs held is) live).2 class'

/-- An assignment's role, which there was, keeps its class. -/
theorem Tables.Changes.ofClass_before {now : Timestamp} {written : List Written}
    {capabilityClass : CapabilityClass} {ra ra' : RoleAssignment}
    (changes : s.Changes now written after) (keyed : after.Keyed) (sourced : s.Sourced)
    (held : ra ∈ s.assignments) (goesOn : ra.GoesOn now ra')
    (class_ : after.ofClass capabilityClass ra' = true)
    : s.ofClass capabilityClass ra = true := by
  obtain ⟨r', present', is⟩ := List.any_eq_true.mp class_
  simp only [Bool.and_eq_true, decide_eq_true_eq] at is
  obtain ⟨_, r, present, one, _⟩ := sourced.held ra held
  obtain ⟨_, still, rfl⟩ := changes.roles.goesOn r present
  have roleId : ra'.roleId = ra.roleId := by rw [goesOn.same]
  have same : r' = r := List.inj_on_of_nodup_map keyed.roleIds present' still
    (is.1.trans (roleId.trans one.symm))
  exact List.any_eq_true.mpr ⟨r, present, by simpa [same, roleId] using is⟩

/-- What is spent stays so, and no new role is among it. -/
theorem FauStep.spent (stepped : FauStep state event next)
    (reached : fauSystem.Reachable state) (spent : state.tables.RolesSpent old state.today)
    : next.tables.RolesSpent old next.today := by
  have changes := stepped.changes
  have later := stepped.today_le
  have keyed := changes.keyed (reachable_keyed reached)
  have before {ra' : RoleAssignment} (held : ra' ∈ next.tables.assignments)
      (is : old ra'.id = true) (live : ra'.revokedAt = none)
      : ∃ ra ∈ state.tables.assignments, ra.GoesOn event.now ra' ∧ ra.revokedAt = none := by
    obtain ⟨ra, held₀, goesOn⟩ := (changes.assignments.comesFrom ra' held).resolve_right
      fun new => new (spent.known _ is)
    refine ⟨ra, held₀, goesOn, ?_⟩
    rcases goesOn.revokedAt with same | ⟨none_, _⟩
    · exact same ▸ live
    · exact none_
  refine ⟨fun id is => ?_, fun ra' held is live => ?_, fun ra' held is live class_ window runs => ?_⟩
  · exact changes.assignments.keys_subset (fun _ _ h => h.id) (spent.known id is)
  · obtain ⟨ra, held₀, goesOn, live₀⟩ := before held is live
    have ended := spent.ended ra held₀ (goesOn.id ▸ is) live₀
    rw [goesOn.same]
    exact Period.hasEndedBy_later ended later
  · obtain ⟨ra, held₀, goesOn, live₀⟩ := before held is live
    have class₀ := changes.ofClass_before keyed (reachable_sourced reached) held₀ goesOn class_
    rw [goesOn.same] at runs
    exact Period.hasEndedBy_later
      (spent.windowOver ra held₀ (goesOn.id ▸ is) live₀ class₀ window runs) later

-----------------------------------------------------------------------------------------
-- Authority without some of the roles

/-- The tables without some roles and the grants that come from them. -/
def Tables.forget (s : Tables) (old : Nat → Bool) : Tables :=
  { s with
    assignments := s.assignments.filter fun ra => !old ra.id
    grants := s.grants.filter fun g => !old g.sourceAssignmentId }

/-- None of the roles and none of the grants from them is in force on the day, and no role is yet
to start.
-/
structure Tables.OutOfForce (s : Tables) (old : Nat → Bool) (day : Date) : Prop where
  roles : ∀ ra ∈ s.assignments, old ra.id = true →
    ra.validOn day = false ∧ (ra.revokedAt = none → ra.period.startsOn ≤ day)
  grants : ∀ g ∈ s.grants, old g.sourceAssignmentId = true → g.revokedAt = none →
    g.period.contains day = false

theorem Period.contains_eq_false {period : Period} (ended : period.hasEndedBy today = true)
    (later : today ≤ day)
    : period.contains day = false := by
  refine Bool.eq_false_iff.mpr fun contains => ?_
  have before := (Period.contains_iff.mp contains).2
  exact absurd (later.trans_lt before) (not_lt.mpr (Period.hasEndedBy_iff.mp ended))

/-- Spent roles are out of force from the day on, and so are their grants. -/
theorem Tables.RolesSpent.outOfForce (spent : s.RolesSpent old today) (granted : s.Granted today)
    (backed : s.Backed) (later : today ≤ day)
    : s.OutOfForce old day := by
  refine ⟨fun ra held is => ⟨?_, fun live => ?_⟩, fun g inside is live => ?_⟩
  · cases revoked : ra.revokedAt with
    | some at_ => simp [RoleAssignment.validOn, revoked]
    | none =>
        have ended := spent.ended ra held is revoked
        simp [RoleAssignment.validOn, Period.contains_eq_false ended later]
  · have ended := Period.hasEndedBy_iff.mp (spent.ended ra held is live)
    exact (le_of_lt ra.period.nonEmpty).trans (ended.trans later)
  · obtain ⟨ra, held, source, class_, _, runs⟩ := granted.sourced g inside
    have finished := spent.windowOver ra held (source ▸ is) (backed g inside live ra held source)
      class_ g.period runs
    exact Period.contains_eq_false finished later

/-- Whoever has authority has it on the day without those roles and grants too. -/
structure Tables.SameAuthority (day : Date) (s t : Tables) : Prop where
  access : ∀ membershipId, t.membershipAccess membershipId day = s.membershipAccess membershipId day
  authorization : ∀ viewer resource action,
    t.authorize viewer resource action day = s.authorize viewer resource action day
  admin : ∀ membershipId, t.isAdminToday membershipId day = s.isAdminToday membershipId day
  handover : ∀ grantId membershipId,
    t.handoverGrantValid grantId membershipId day = s.handoverGrantValid grantId membershipId day
  coverage : (AdminState.load t).hasAdmin day = (AdminState.load s).hasAdmin day

/-- Rows that are let go change nothing where none of them counts. -/
theorem any_filter_of {α : Type} {rows : List α} {kept holds holds' : α → Bool}
    (counts : ∀ row ∈ rows, holds row = true → kept row = true)
    (same : ∀ row ∈ rows, kept row = true → holds' row = holds row)
    : (rows.filter kept).any holds' = rows.any holds := by
  rw [List.any_filter, Bool.eq_iff_iff, List.any_eq_true, List.any_eq_true]
  refine exists_congr fun row => and_congr_right fun inside => ?_
  rw [Bool.and_eq_true]
  constructor
  · rintro ⟨stays, there⟩
    exact same row inside stays ▸ there
  · intro there
    have stays := counts row inside there
    exact ⟨stays, (same row inside stays).trans there⟩

section

variable (out : s.OutOfForce old day)

include out

namespace Tables.OutOfForce

/-- A valid role is not among them. -/
theorem kept {ra : RoleAssignment} (held : ra ∈ s.assignments) (valid : ra.validOn day = true)
    : (!old ra.id) = true := by
  cases is : old ra.id with
  | false => rfl
  | true =>
      rw [(out.roles ra held is).1] at valid
      cases valid

/-- Nor is one that is yet to start. -/
theorem kept_future {ra : RoleAssignment} (held : ra ∈ s.assignments) (live : ra.revokedAt = none)
    (future : day < ra.period.startsOn)
    : (!old ra.id) = true := by
  cases is : old ra.id with
  | false => rfl
  | true => exact absurd ((out.roles ra held is).2 live) (not_le.mpr future)

/-- Nor is the source of a grant in force. -/
theorem kept_grant {g : HandoverGrant} (inside : g ∈ s.grants) (live : g.revokedAt = none)
    (contains : g.period.contains day = true)
    : (!old g.sourceAssignmentId) = true := by
  cases is : old g.sourceAssignmentId with
  | false => rfl
  | true =>
      rw [out.grants g inside is live] at contains
      cases contains

/-- The roles of a membership that count are those it still has. -/
theorem rolesOf {membershipId : Nat} {counts : AssignmentView → Bool}
    (ruledOut : ∀ ra ∈ s.assignments, ∀ capability,
      counts ⟨capability, ra.period, ra.revokedAt.isSome⟩ = true → (!old ra.id) = true)
    : ((s.forget old).rolesOf membershipId).filter counts
      = (s.rolesOf membershipId).filter counts := by
  simp only [Tables.rolesOf, forget, List.filter_filterMap, List.filterMap_filter]
  refine List.filterMap_congr fun ra held => ?_
  cases still : !old ra.id with
  | true => rfl
  | false =>
      have none_ : ∀ capability, counts ⟨capability, ra.period, ra.revokedAt.isSome⟩ = false := by
        intro capability
        refine Bool.eq_false_iff.mpr fun counted => ?_
        rw [ruledOut ra held capability counted] at still
        cases still
      by_cases theirs : ra.membershipId = membershipId
      · cases s.role ra.roleId <;> simp [theirs, Option.filter_some, none_]
      · simp [theirs]

/-- The sources of a kept grant are kept. -/
theorem sources {g : HandoverGrant} {holds : RoleAssignment → Bool}
    (stays : (!old g.sourceAssignmentId) = true)
    (source : ∀ ra, holds ra = true → ra.id = g.sourceAssignmentId)
    : (s.forget old).assignments.any holds = s.assignments.any holds :=
  any_filter_of (fun ra _ is => by rw [source ra is]; exact stays) fun _ _ _ => rfl

/-- The grants of a membership that are in force are those it still has. -/
theorem grantsOf {membershipId : Nat}
    : ((s.forget old).grantsOf membershipId).any (·.validOn day)
      = (s.grantsOf membershipId).any (·.validOn day) := by
  simp only [Tables.grantsOf, List.any_map, List.any_filter]
  refine any_filter_of (fun g inside counts => ?_) fun g inside stays => ?_
  · simp only [GrantView.validOn, Function.comp_apply, Bool.and_eq_true] at counts
    exact out.kept_grant inside (by simpa using counts.2.1) counts.2.2
  · rw [out.sources stays (by simp +contextual)]

theorem access {membershipId : Nat}
    : (s.forget old).membershipAccess membershipId day = s.membershipAccess membershipId day := by
  cases found : s.membership membershipId with
  | none => rw [membershipAccess_none found, membershipAccess_none (by exact found)]
  | some m =>
      rw [membershipAccess_some found, membershipAccess_some (by exact found)]
      refine evaluateAccess_congr (out.rolesOf fun ra held capability valid => ?_)
        (out.rolesOf fun ra held capability future => ?_) fun _ => out.grantsOf
      · exact out.kept held (by simpa [AssignmentView.validOn, RoleAssignment.validOn] using valid)
      · simp only [Bool.and_eq_true, Bool.not_eq_true', decide_eq_true_eq] at future
        exact out.kept_future held (by simpa using future.1) future.2

theorem throughRole {membershipId : Nat} {g : Group}
    : (s.forget old).throughRole membershipId g day = s.throughRole membershipId g day := by
  refine any_filter_of (fun ra held through => ?_) fun _ _ _ => rfl
  simp only [Bool.and_eq_true] at through
  exact out.kept held through.1.2

theorem authorization {viewer : Viewer} {resource : Resource} {action : Action}
    : (s.forget old).authorize viewer resource action day
      = s.authorize viewer resource action day := by
  have facts (id : Nat) : (s.forget old).groupFacts viewer id day = s.groupFacts viewer id day := by
    refine congrArg (Option.map · _) (funext fun g => ?_)
    rw [Tables.inGroup, out.throughRole]
    rfl
  unfold Tables.authorize
  simp only [facts, out.access]

theorem admin {membershipId : Nat}
    : (s.forget old).isAdminToday membershipId day = s.isAdminToday membershipId day := by
  refine congrArg s.memberships.any (funext fun m => congrArg₂ (· && ·) rfl ?_)
  exact any_filter_of
    (fun ra inside valid => out.kept inside (Bool.and_eq_true_iff.mp valid).2) fun _ _ _ => rfl

theorem handover {grantId membershipId : Nat}
    : (s.forget old).handoverGrantValid grantId membershipId day
      = s.handoverGrantValid grantId membershipId day := by
  refine any_filter_of (fun g inside valid => ?_) fun g inside stays => congrArg₂ (· && ·) rfl ?_
  · simp only [Bool.and_eq_true, Option.isNone_iff_eq_none] at valid
    exact out.kept_grant inside valid.1.1.2 valid.1.2
  · exact out.sources stays (by simp +contextual)

theorem coverage
    : (AdminState.load (s.forget old)).hasAdmin day = (AdminState.load s).hasAdmin day := by
  rw [AdminState.hasAdmin_load, AdminState.hasAdmin_load]
  refine congrArg₂ (· || ·) ?_ ?_
  · exact any_filter_of
      (fun ra inside valid => out.kept inside (Bool.and_eq_true_iff.mp valid).2) fun _ _ _ => rfl
  · refine any_filter_of (fun g inside valid => ?_) fun g inside stays => congrArg₂ (· && ·) rfl ?_
    · simp only [Bool.and_eq_true, Option.isNone_iff_eq_none] at valid
      exact out.kept_grant inside valid.1.1 valid.1.2
    · exact out.sources stays (by simp +contextual)

/-- What is out of force decides nothing. -/
theorem sameAuthority : s.SameAuthority day (s.forget old) where
  access _ := out.access
  authorization _ _ _ := out.authorization
  admin _ := out.admin
  handover _ _ := out.handover
  coverage := out.coverage

end Tables.OutOfForce

end

-----------------------------------------------------------------------------------------
-- After a revocation

/-- From a revocation on the membership's roles stay spent. -/
theorem FauStep.revokesMembership {req : RevokeMembership} {events : List FauEvent}
    (reached : fauSystem.Reachable state)
    (stepped : FauStep state (.operates (.revokeMembership req) moment) next)
    (run : fauSystem.Run next events last)
    : last.tables.RolesSpent (state.tables.heldBy req.membershipId) last.today := by
  have reached' : fauSystem.Reachable next := reached.step stepped
  refine run.keeps (P := fun s => s.tables.RolesSpent (state.tables.heldBy req.membershipId) s.today)
    (fun s event after reached spent stepped => FauStep.spent stepped reached spent) reached' ?_
  cases stepped with
  | operates later lookedUp commits =>
      obtain ⟨_, commits⟩ := commits
      exact revokeMembership_spent (reachable_keyed reached) commits

/-- An unrevoked handover grant has an unrevoked source; and once a membership has been revoked, on
no later day is a role it held until then, or a grant from one, in force or decisive for anyone's
access, authorization, administrator status or handover authority, or for whether there is an
administrator.
-/
theorem revokedAuthority_gone
    : (∀ state, fauSystem.Reachable state → ∀ g ∈ state.tables.grants, g.revokedAt = none →
        ∃ ra ∈ state.tables.assignments, ra.id = g.sourceAssignmentId ∧ ra.revokedAt = none)
      ∧ ∀ (state next last : FauState) (req : RevokeMembership) (moment : Moment)
          (events : List FauEvent) (day : Date),
          fauSystem.Reachable state →
          FauStep state (.operates (.revokeMembership req) moment) next →
          fauSystem.Run next events last → last.today ≤ day →
            last.tables.OutOfForce (state.tables.heldBy req.membershipId) day
              ∧ last.tables.SameAuthority day
                (last.tables.forget (state.tables.heldBy req.membershipId)) := by
  constructor
  · intro state reached g inside live
    obtain ⟨ra, held, source, _⟩ := (reachable_granted reached).sourced g inside
    exact ⟨ra, held, source, reachable_backed reached g inside live ra held source⟩
  · intro state next last req moment events day reached stepped run later
    have reached' : fauSystem.Reachable last := (reached.step stepped).run run
    have spent := FauStep.revokesMembership reached stepped run
    have out := spent.outOfForce (reachable_granted reached') (reachable_backed reached') later
    exact ⟨out, out.sameAuthority⟩

end

-----------------------------------------------------------------------------------------
-- Kari is revoked and comes back

section

attribute [local instance] OsloZone.winterAndSummer

/-- Kari leaves on the day she became the administrator, though no other is left. -/
def leftFau : Tables := (revokeMembership ⟨1, 1, true⟩ newYear).leaves activatedFau

/-- The oversight offers Kari her role again. -/
def reofferedFau : Tables :=
  (recoveryGrantAdmin ⟨.ewb, ⟨"kari@example.no"⟩, .existing 1,
    .ofEnds newYear.today (.ofParts 1971 6 1 rfl) rfl⟩ newYear).leaves leftFau

def reinstatedFau : Tables :=
  (acceptInvitation 1 ⟨1, ⟨"kari@example.no"⟩, none, kariProfile⟩ newYear).leaves reofferedFau

/-- Back as the administrator, Kari has nothing from the role that was revoked. -/
theorem kari_revokedAuthority
    : reinstatedFau.isAdminToday 1 newYear.today = true
      ∧ (reinstatedFau.forget (activatedFau.heldBy 1)).isAdminToday 1 newYear.today = true := by
  have start : fauSystem.Reachable ⟨signedUpFau, newYear.today, []⟩ :=
    .start ⟨signedUpFau_justSignedUp, rfl⟩
  have activated : FauStep ⟨signedUpFau, newYear.today, []⟩
      (.operates (.activateTenant ⟨⟨"kari@example.no"⟩, kariProfile⟩) newYear)
      ⟨activatedFau, newYear.today, []⟩ :=
    .operates (le_refl _) (by simp) activatedFau_commits
  have revoked : FauStep ⟨activatedFau, newYear.today, []⟩
      (.operates (.revokeMembership ⟨1, 1, true⟩) newYear) ⟨leftFau, newYear.today, []⟩ :=
    .operates (le_refl _) (by simp) (leaves_commits (by decide +kernel))
  have reoffered : FauStep ⟨leftFau, newYear.today, []⟩
      (.operates (.recoveryGrantAdmin ⟨.ewb, ⟨"kari@example.no"⟩, .existing 1,
        .ofEnds newYear.today (.ofParts 1971 6 1 rfl) rfl⟩) newYear)
      ⟨reofferedFau, newYear.today, []⟩ :=
    .operates (le_refl _) (by simp) (leaves_commits (by decide +kernel))
  have found : FauStep ⟨reofferedFau, newYear.today, []⟩ (.looksUp 1 1)
      ⟨reofferedFau, newYear.today, [(1, 1)]⟩ :=
    .looksUp (by decide +kernel)
  have accepted : FauStep ⟨reofferedFau, newYear.today, [(1, 1)]⟩
      (.operates (.acceptInvitation 1 ⟨1, ⟨"kari@example.no"⟩, none, kariProfile⟩) newYear)
      ⟨reinstatedFau, newYear.today, [(1, 1)]⟩ :=
    .operates (le_refl _) (fun _ _ same => by cases same; exact List.mem_singleton_self _)
      (leaves_commits (by decide +kernel))
  have back : fauSystem.Run ⟨leftFau, newYear.today, []⟩ _ ⟨reinstatedFau, newYear.today, [(1, 1)]⟩ :=
    ((EventSystem.Run.single reoffered).next found).next accepted
  have admin : reinstatedFau.isAdminToday 1 newYear.today = true := by decide +kernel
  have gone := (revokedAuthority_gone.2 _ _ _ _ _ _ newYear.today (start.step activated) revoked back
    (le_refl _)).2
  exact ⟨admin, (gone.admin 1).trans admin⟩

end

end FauPortalen.Membership

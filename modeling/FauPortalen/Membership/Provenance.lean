import FauPortalen.Membership.Invariants

/-! Where rows come from: which operation inserts an assignment or an invitation, by which steps,
and what every invitation and assignment of a reachable FAU was inserted as.
-/

set_option linter.unusedSectionVars false

namespace FauPortalen.Membership

open Foundations Transaction

variable [OsloZone] {moment : Moment} {now : Timestamp} {written : List Written}
  {s after s' : Tables}

-----------------------------------------------------------------------------------------
-- What lasts

theorem Tables.Changes.hasRole {roleId : Nat} {capability : CapabilityClass}
    (changes : s.Changes now written s') (has : s.HasRole roleId capability)
    : s'.HasRole roleId capability := by
  obtain ⟨r, present, one, same⟩ := has
  obtain ⟨r', present', rfl⟩ := changes.roles.goesOn r present
  exact ⟨r, present', one, same⟩

/-- A membership's account keeps its address, so another address stays another. -/
theorem Tables.Changes.otherAddress {membershipId : Nat} {address : Email}
    (changes : s.Changes now written s') (other : s.OtherAddress membershipId address)
    : s'.OtherAddress membershipId address := by
  obtain ⟨m, present, one, a, held, account, differs⟩ := other
  obtain ⟨m', present', goesOn⟩ := changes.memberships.goesOn m present
  obtain ⟨a', held', goesOn'⟩ := changes.accounts.goesOn a held
  refine ⟨m', present', goesOn.id.trans one, a', held', ?_, goesOn'.email ▸ differs⟩
  exact goesOn'.id.trans (account.trans goesOn.accountId.symm)

/-- What an invitation was issued with stays so. -/
theorem Tables.Changes.proper {nextToken : Nat} {i i' : Invitation}
    (changes : s.Changes now written s') (goesOn : i.GoesOn nextToken i') (proper : s.Proper i)
    : s'.Proper i' := by
  unfold Tables.Proper at proper ⊢
  rw [goesOn.mode, goesOn.issuedBy, goesOn.handoverGrantId, goesOn.recipient, goesOn.roles,
    goesOn.recoveryHolder]
  split at proper
  · exact proper
  · obtain ⟨grantId, issuer, grant, issued, other, roles⟩ := proper
    refine ⟨grantId, issuer, grant, issued, changes.otherAddress other, fun offered inside => ?_⟩
    obtain ⟨capability, noGuest, has⟩ := roles offered inside
    exact ⟨capability, noGuest, changes.hasRole has⟩
  · exact proper
  · trivial

/-- Whichever way the joiner's membership comes about, it is the account's. -/
theorem ensureMembership_account {accountId expectedId : Nat} {joined : Nat × Bool × Bool}
    (commits : (ensureMembership accountId expectedId moment).Commits s joined after)
    : ∃ m ∈ after.memberships, m.id = joined.1 ∧ m.accountId = accountId := by
  obtain ⟨rfl, ⟨m, settled, found, one, _, reopens⟩ | ⟨_, _, rfl⟩⟩ :=
    ensureMembership_commits commits
  · have changes : s.Changes moment.now [.profiles, .returns, .memberRemovals] after :=
      reopenProfile_within (by simp) (by simp) (by simp) _ _ _ reopens
    obtain ⟨there, theirs⟩ := of_findRow found
    obtain ⟨m', present, goesOn⟩ := changes.memberships.goesOn m there
    exact ⟨m', present, goesOn.id.trans one, goesOn.accountId.trans theirs⟩
  · exact ⟨_, List.mem_append_right _ (List.mem_singleton_self _), rfl, rfl⟩

-----------------------------------------------------------------------------------------
-- The steps on a path

namespace AcceptancePath

variable {found : Nat} {req : AcceptInvitation} (path : AcceptancePath found req moment s after)

include path

theorem verifies_changes : s.Changes moment.now [.accounts] path.verified :=
  upsertVerifiedAccount_within (by simp) _ _ _ path.verifies

theorem joins_changes
    : path.verified.Changes moment.now [.memberships, .profiles, .returns, .memberRemovals]
      path.entered :=
  ensureMembership_within (by simp) (by simp) (by simp) (by simp) _ _ _ path.joins

theorem names_changes : path.entered.Changes moment.now [.profiles] path.named :=
  writeProfile_within (by simp) _ _ _ path.names

theorem gives_changes : path.named.Changes moment.now [.assignments] path.given :=
  Within.foldlM (fun _ _ => .bind (insertAssignment_within (by simp)) fun _ => .pure) _ _ _
    path.gives

theorem marks_changes : path.given.Changes moment.now [.invitationChanges] after := by
  refine updateInvitation_within (by simp) (fun _ i => ?_) _ _ _ path.marks
  exact ⟨rfl, rfl, rfl, rfl, rfl, rfl, rfl, rfl, .inl rfl, fun _ => rfl, fun h => h⟩

/-- The accepted roles become assignments of the joiner. -/
theorem assignments
    : ∃ rows, after.assignments = s.assignments ++ rows
        ∧ List.Forall₂
            (fun role ra => ra.Gives path.joined.1 role.1 role.2.2 path.inv.issuedBy) path.roles rows
        ∧ ∀ ra ∈ rows, ra.id ∉ s.assignments.map (·.id) := by
  have before : path.named.assignments = s.assignments :=
    (path.names_changes.sameAssignments (by simp) (by simp)).trans
      ((path.joins_changes.sameAssignments (by simp) (by simp)).trans
        (path.verifies_changes.sameAssignments (by simp) (by simp)))
  obtain ⟨rows, given, gives, fresh⟩ := insertAccepted_commits path.gives
  refine ⟨rows, ?_, gives, before ▸ fresh⟩
  rw [path.marks_changes.sameAssignments (by simp) (by simp), given, before]

/-- The joiner's membership belongs to the account of the accepting address: verified, and disabled
only if it was.
-/
theorem joiner
    : ∃ m ∈ after.memberships, m.id = path.joined.1
        ∧ ∃ a ∈ after.accounts, a.id = m.accountId ∧ a.email = req.acceptor ∧ a.verifiedAt.isSome
          ∧ a.disabledAt.isSome
            = (findRow Account.email req.acceptor s.accounts).any (·.disabledAt.isSome) := by
  obtain ⟨_, a, held, account, facts⟩ := upsertVerifiedAccount_commits path.verifies
  obtain ⟨m, entered, one, theirs⟩ := ensureMembership_account path.joins
  obtain ⟨m', named, goesOn⟩ := path.names_changes.memberships.goesOn m entered
  refine ⟨m', ?_, goesOn.id.trans one, a, ?_, ?_, facts⟩
  · rw [path.marks_changes.sameMemberships (by simp) (by simp),
      path.gives_changes.sameMemberships (by simp) (by simp)]
    exact named
  · rw [path.marks_changes.sameAccounts (by simp), path.gives_changes.sameAccounts (by simp),
      path.names_changes.sameAccounts (by simp), path.joins_changes.sameAccounts (by simp)]
    exact held
  · rw [account, goesOn.accountId, theirs]

end AcceptancePath

namespace GrantPath

variable {req : GrantRole} (path : GrantPath req moment s after)

include path

theorem opens_changes
    : path.resolved.Changes moment.now [.profiles, .returns, .memberRemovals] path.opened :=
  reopenProfile_within (by simp) (by simp) (by simp) _ _ _ path.opens

theorem assignments
    : ∃ ra : RoleAssignment, after.assignments = s.assignments ++ [ra]
        ∧ ra.Gives req.membershipId path.roleId req.period (some req.actorMembershipId)
        ∧ ra.id ∉ s.assignments.map (·.id) := by
  obtain ⟨roles, titled⟩ := path.resolves.added
  have before : path.opened.assignments = s.assignments := by
    rw [path.opens_changes.sameAssignments (by simp) (by simp), titled]
  obtain ⟨one, given⟩ := commits_insertAssignment.mp path.gives
  refine ⟨⟨path.assignmentId, _, _, _, _, _⟩, ?_, ⟨rfl, rfl, rfl, rfl, rfl⟩, ?_⟩
  · exact (congrArg Tables.assignments given).trans (congrArg (· ++ _) before)
  · rw [one, before]
    exact freshId_not_mem _

end GrantPath

namespace ActivationPath

variable {activation : Activation} (path : ActivationPath activation moment s after)

include path

theorem verifies_changes
    : ({ s with tenant := some { path.state with status := .active } } : Tables).Changes
        moment.now [.accounts] path.verified :=
  upsertVerifiedAccount_within (by simp) _ _ _ path.verifies

theorem joins_changes
    : path.verified.Changes moment.now [.memberships, .profiles, .returns, .memberRemovals]
      path.entered :=
  ensureMembership_within (by simp) (by simp) (by simp) (by simp) _ _ _ path.joins

theorem names_changes : path.entered.Changes moment.now [.profiles] path.named :=
  writeProfile_within (by simp) _ _ _ path.names

theorem titles_changes : path.named.Changes moment.now [.roles] path.titled :=
  insertBootstrapRole_within (by simp) _ _ _ path.titles

theorem gives_changes : path.titled.Changes moment.now [.assignments] path.given :=
  insertAssignment_within (by simp) _ _ _ path.gives

theorem invites_changes : path.given.Changes moment.now [.invitations] path.invited :=
  inviteLeader_within (by simp) _ _ _ path.invites

theorem assignments
    : ∃ ra : RoleAssignment, after.assignments = s.assignments ++ [ra]
        ∧ ra.Gives path.joined.1 path.roleId path.period none
        ∧ ra.id ∉ s.assignments.map (·.id) := by
  have before : path.titled.assignments = s.assignments :=
    (path.titles_changes.sameAssignments (by simp) (by simp)).trans
      ((path.names_changes.sameAssignments (by simp) (by simp)).trans
        ((path.joins_changes.sameAssignments (by simp) (by simp)).trans
          (path.verifies_changes.sameAssignments (by simp) (by simp))))
  obtain ⟨one, given⟩ := commits_insertAssignment.mp path.gives
  refine ⟨⟨path.assignmentId, _, _, _, _, _⟩, ?_, ⟨rfl, rfl, rfl, rfl, rfl⟩, ?_⟩
  · have invited := path.invites_changes.sameAssignments (by simp) (by simp)
    have closed := congrArg Tables.assignments path.after
    exact closed.trans (invited.trans
      ((congrArg Tables.assignments given).trans (congrArg (· ++ _) before)))
  · rw [one, before]
    exact freshId_not_mem _

/-- The registrant's role is the FAU's, an administrator's. -/
theorem titled_hasRole : path.titled.HasRole path.roleId .admin := by
  have titles := path.titles
  simp only [insertBootstrapRole, commits_select_bind, commits_update_bind, commits_pure] at titles
  obtain ⟨one, titled⟩ := titles
  unfold Tables.HasRole
  rw [titled]
  exact ⟨_, List.mem_append_right _ (List.mem_singleton_self _), one.symm, rfl⟩

/-- The role is still there when the activation is done. -/
theorem hasRole : after.HasRole path.roleId .admin := by
  have invited : path.invited.HasRole path.roleId .admin :=
    path.invites_changes.hasRole (path.gives_changes.hasRole path.titled_hasRole)
  obtain ⟨r, present, one, same⟩ := invited
  have closed := congrArg Tables.roles path.after
  exact ⟨r, closed ▸ present, one, same⟩

/-- Up to the leader's invitation there is none. -/
theorem given_invitations : path.given.invitations = s.invitations := by
  rw [path.gives_changes.sameInvitations (by simp) (by simp),
    path.titles_changes.sameInvitations (by simp) (by simp),
    path.names_changes.sameInvitations (by simp) (by simp),
    path.joins_changes.sameInvitations (by simp) (by simp),
    path.verifies_changes.sameInvitations (by simp) (by simp)]

end ActivationPath

-----------------------------------------------------------------------------------------
-- Where an assignment comes from

/-- The operation that inserted the assignment, with the steps it took. -/
inductive RoleAssignment.Origin (moment : Moment) (s after : Tables) (ra : RoleAssignment)
    : Operation → Prop
  | granted {req : GrantRole} (path : GrantPath req moment s after)
      (gives : ra.Gives req.membershipId path.roleId req.period (some req.actorMembershipId))
    : Origin moment s after ra (.grantRole req)
  | accepted {found : Nat} {req : AcceptInvitation} (path : AcceptancePath found req moment s after)
      {role : Nat × CapabilityClass × Period} (accepted : role ∈ path.roles)
      (gives : ra.Gives path.joined.1 role.1 role.2.2 path.inv.issuedBy)
    : Origin moment s after ra (.acceptInvitation found req)
  | activated {activation : Activation} (path : ActivationPath activation moment s after)
      (gives : ra.Gives path.joined.1 path.roleId path.period none)
    : Origin moment s after ra (.activateTenant activation)

/-- A new assignment was granted, accepted, or given by the activation. -/
theorem Operation.Commits.origin {op : Operation} {ra : RoleAssignment}
    (commits : op.Commits moment s after) (inside : ra ∈ after.assignments)
    (new : ra.id ∉ s.assignments.map (·.id))
    : ra.Origin moment s after op := by
  have only {row : RoleAssignment} (added : after.assignments = s.assignments ++ [row]) : ra = row := by
    rw [added] at inside
    rcases List.mem_append.mp inside with old | last
    · exact absurd (List.mem_map_of_mem old) new
    · exact List.mem_singleton.mp last
  have changes := commits.changes
  cases op
  case grantRole =>
    obtain ⟨_, commits⟩ := commits
    obtain ⟨path⟩ := grantRole_commits commits
    obtain ⟨row, added, gives, _⟩ := path.assignments
    exact .granted path (only added ▸ gives)
  case acceptInvitation =>
    obtain ⟨_, commits⟩ := commits
    obtain ⟨path⟩ := acceptInvitation_commits commits
    obtain ⟨rows, added, gives, _⟩ := path.assignments
    rw [added] at inside
    rcases List.mem_append.mp inside with old | last
    · exact absurd (List.mem_map_of_mem old) new
    · obtain ⟨role, accepted, given⟩ := forall₂_left_of_mem gives last
      exact .accepted path accepted given
  case activateTenant =>
    obtain ⟨_, commits⟩ := commits
    obtain ⟨path⟩ := activateTenant_commits commits
    obtain ⟨row, added, gives, _⟩ := path.assignments
    exact .activated path (only added ▸ gives)
  all_goals
    have sameIds := changes.noAssignments (by simp [Operation.written])
    exact absurd (sameIds ▸ List.mem_map_of_mem inside) new

/-- A new assignment's role exists. -/
theorem RoleAssignment.Origin.known {op : Operation} {ra : RoleAssignment}
    (origin : ra.Origin moment s after op)
    : ∃ capability, after.HasRole ra.roleId capability := by
  cases origin with
  | @granted req path gives =>
      have opened := path.opens_changes.hasRole (path.resolves.known _ (List.mem_singleton_self _))
      obtain ⟨_, given⟩ := commits_insertAssignment.mp path.gives
      have closed := congrArg Tables.roles given
      obtain ⟨r, present, one, same⟩ := opened
      exact ⟨path.capability, r, closed ▸ present, one.trans gives.roleId.symm, same⟩
  | @accepted found req path role accepted gives =>
      obtain ⟨_, fulfils, _⟩ := acceptedRoles_commits path.offers
      obtain ⟨_, _, fulfilled⟩ := forall₂_left_of_mem fulfils accepted
      refine ⟨role.2.1, gives.roleId ▸ ?_⟩
      exact path.marks_changes.hasRole (path.gives_changes.hasRole (path.names_changes.hasRole
        (path.joins_changes.hasRole (path.verifies_changes.hasRole fulfilled.known))))
  | activated path gives => exact ⟨.admin, gives.roleId ▸ path.hasRole⟩

-----------------------------------------------------------------------------------------
-- Where an invitation comes from

theorem inviteLeader_commits {signup : TenantSignup} {roleId : Nat} {period : Period}
    {at_ : Timestamp} {issued : Option IssuedInvitation} {today : Date}
    (commits : (inviteLeader signup roleId period at_).Commits s issued after)
    (known : s.HasRole roleId .admin) (running : today < period.endsOnExclusive)
    : after = s ∨ ∃ row, Issues today row s after ∧ row.mode = .activation := by
  rcases commits_ite.mp commits with ⟨_, invites⟩ | ⟨_, returns⟩
  · obtain ⟨_, _, inserts, returns⟩ := commits_bind.mp invites
    obtain ⟨rfl, rfl⟩ := commits_pure.mp returns
    obtain ⟨fresh, rfl⟩ := insertInvitation_commits inserts
    refine .inr ⟨_, ⟨fresh, rfl, ⟨rfl, rfl⟩, ?_, [], s.requests, by rw [List.append_nil]⟩, rfl⟩
    refine ⟨List.cons_ne_nil _ _, List.nodup_singleton _, ?_, ?_⟩
    · intro offered inside
      obtain rfl : offered = (roleId, period) := List.mem_singleton.mp inside
      exact ⟨.admin, known⟩
    · intro offered inside
      obtain rfl : offered = (roleId, period) := List.mem_singleton.mp inside
      exact running
  · exact .inl (commits_pure.mp returns).2

/-- What an invitation was issued as: pending, with roles that exist and run, as its mode asks, and
in the activation's own mode only by one.
-/
structure Invitation.Issued (op : Operation) (today : Date) (inv : Invitation) (after : Tables)
    : Prop where
  pending : inv.acceptedAt = none ∧ inv.revokedAt = none
  offers : Offers today inv after
  proper : after.Proper inv
  leader : inv.mode = .activation → ∃ activation, op = .activateTenant activation

theorem Operation.Commits.issued {op : Operation} {inv : Invitation}
    (commits : op.Commits moment s after) (inside : inv ∈ after.invitations)
    (new : inv.id ∉ s.invitations.map (·.id))
    : inv.Issued op moment.today after := by
  have only {row : Invitation} {before later : Tables} (same : before.invitations = s.invitations)
      (still : later.invitations = after.invitations)
      (issues : Issues moment.today row before later) : inv = row := by
    obtain ⟨_, _, added⟩ := issues.after
    have rows := congrArg Tables.invitations added
    rw [← still, rows] at inside
    rcases List.mem_append.mp inside with old | last
    · exact absurd (List.mem_map_of_mem (same ▸ old)) new
    · exact List.mem_singleton.mp last
  have issuedIn {row : Invitation} (issues : Issues moment.today row s after)
      (proper : after.Proper row) (other : row.mode ≠ .activation)
      : inv.Issued op moment.today after := by
    obtain rfl := only rfl rfl issues
    exact ⟨issues.pending, issues.offers, proper, fun leader => absurd leader other⟩
  have changes := commits.changes
  cases op
  case issueInvitation =>
    obtain ⟨_, commits⟩ := commits
    obtain ⟨row, issues, proper, mode⟩ := issueInvitation_commits commits
    exact issuedIn issues proper (by rcases mode with mode | mode <;> simp [mode])
  case approveRequest =>
    obtain ⟨_, commits⟩ := commits
    obtain ⟨row, issues, proper, mode⟩ := approveRequest_commits commits
    exact issuedIn issues proper (by simp [mode])
  case recoveryGrantAdmin =>
    obtain ⟨_, commits⟩ := commits
    obtain ⟨row, issues, proper, mode⟩ := recoveryGrantAdmin_commits commits
    exact issuedIn issues proper (by simp [mode])
  case activateTenant activation =>
    obtain ⟨_, commits⟩ := commits
    obtain ⟨path⟩ := activateTenant_commits commits
    have ends : path.invited.invitations = after.invitations :=
      (congrArg Tables.invitations path.after).symm
    have roles : path.invited.roles = after.roles := (congrArg Tables.roles path.after).symm
    have running : moment.today < path.period.endsOnExclusive :=
      path.starts ▸ path.period.nonEmpty
    rcases inviteLeader_commits path.invites (path.gives_changes.hasRole path.titled_hasRole)
      running with same | ⟨row, issues, mode⟩
    · rw [← ends, same, path.given_invitations] at inside
      exact absurd (List.mem_map_of_mem inside) new
    · obtain rfl := only path.given_invitations ends issues
      refine ⟨issues.pending, { issues.offers with known := ?_ }, ?_, fun _ => ⟨_, rfl⟩⟩
      · intro offered present
        obtain ⟨capability, r, there, one, same⟩ := issues.offers.known offered present
        exact ⟨capability, r, roles ▸ there, one, same⟩
      · simp [Tables.Proper, mode]
  all_goals
    have sameIds := changes.noInvitations (by simp [Operation.written])
    exact absurd (sameIds ▸ List.mem_map_of_mem inside) new

-----------------------------------------------------------------------------------------
-- Every reachable state

/-- Every invitation is as it was issued, and every role that is offered or held exists. -/
structure Tables.Sourced (s : Tables) : Prop where
  proper : ∀ inv ∈ s.invitations, s.Proper inv
  distinct : ∀ inv ∈ s.invitations, (inv.roles.map (·.1)).Nodup
  offered : ∀ inv ∈ s.invitations, ∀ role ∈ inv.roles, ∃ capability, s.HasRole role.1 capability
  held : ∀ ra ∈ s.assignments, ∃ capability, s.HasRole ra.roleId capability

variable {state next : FauState} {event : FauEvent}

/-- A row of a step's end comes from one before, or an operation added it. -/
theorem FauStep.invitation (stepped : FauStep state event next) {inv' : Invitation}
    (inside : inv' ∈ next.tables.invitations)
    : (∃ inv ∈ state.tables.invitations, inv.GoesOn state.tables.nextToken inv')
      ∨ ∃ op moment, event = .operates op moment ∧ inv'.Issued op moment.today next.tables := by
  have changes := stepped.changes
  rcases changes.invitations.comesFrom inv' inside with old | new
  · exact .inl old
  · cases stepped with
    | operates later lookedUp commits => exact .inr ⟨_, _, rfl, commits.issued inside new⟩
    | looksUp finds => exact absurd (List.mem_map_of_mem inside) new
    | passes later => exact absurd (List.mem_map_of_mem inside) new
    | outside changed =>
        have sameIds := changes.noInvitations (by simp [FauEvent.written])
        exact absurd (sameIds ▸ List.mem_map_of_mem inside) new

theorem FauStep.assignment (stepped : FauStep state event next) {ra' : RoleAssignment}
    (inside : ra' ∈ next.tables.assignments)
    : (∃ ra ∈ state.tables.assignments, ra.GoesOn event.now ra')
      ∨ ∃ op moment, event = .operates op moment
        ∧ ra'.id ∉ state.tables.assignments.map (·.id)
        ∧ ra'.Origin moment state.tables next.tables op := by
  have changes := stepped.changes
  rcases changes.assignments.comesFrom ra' inside with old | new
  · exact .inl old
  · cases stepped with
    | operates later lookedUp commits => exact .inr ⟨_, _, rfl, new, commits.origin inside new⟩
    | looksUp finds => exact absurd (List.mem_map_of_mem inside) new
    | passes later => exact absurd (List.mem_map_of_mem inside) new
    | outside changed =>
        have sameIds := changes.noAssignments (by simp [FauEvent.written])
        exact absurd (sameIds ▸ List.mem_map_of_mem inside) new

theorem FauStep.sourced (stepped : FauStep state event next) (sourced : state.tables.Sourced)
    : next.tables.Sourced := by
  have changes := stepped.changes
  refine ⟨fun inv' inside => ?_, fun inv' inside => ?_, fun inv' inside => ?_, fun ra' inside => ?_⟩
  · rcases stepped.invitation inside with ⟨inv, old, goesOn⟩ | ⟨op, moment, rfl, issued⟩
    · exact changes.proper goesOn (sourced.proper inv old)
    · exact issued.proper
  · rcases stepped.invitation inside with ⟨inv, old, goesOn⟩ | ⟨op, moment, rfl, issued⟩
    · exact goesOn.roles ▸ sourced.distinct inv old
    · exact issued.offers.distinct
  · rcases stepped.invitation inside with ⟨inv, old, goesOn⟩ | ⟨op, moment, rfl, issued⟩
    · rw [goesOn.roles]
      intro role present
      obtain ⟨capability, has⟩ := sourced.offered inv old role present
      exact ⟨capability, changes.hasRole has⟩
    · exact issued.offers.known
  · rcases stepped.assignment inside with ⟨ra, old, goesOn⟩ | ⟨op, moment, rfl, _, origin⟩
    · rw [goesOn.same]
      obtain ⟨capability, has⟩ := sourced.held ra old
      exact ⟨capability, changes.hasRole has⟩
    · exact origin.known

theorem reachable_sourced (reached : fauSystem.Reachable state) : state.tables.Sourced := by
  refine reached.keeps (I := fun state => state.tables.Sourced) ?_ ?_
  · rintro s ⟨signedUp, _⟩
    refine ⟨?_, ?_, ?_, ?_⟩ <;> simp [signedUp.noInvitations, signedUp.noAssignments]
  · intro s event after sourced stepped
    exact FauStep.sourced stepped sourced

end FauPortalen.Membership

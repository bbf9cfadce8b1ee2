import FauPortalen.Membership.Operations

/-! What the operations that offer and give roles commit, step by step. -/

set_option linter.unusedSectionVars false

namespace FauPortalen.Membership

open Foundations Transaction

variable [OsloZone] {moment : Moment} {today : Date} {s after : Tables}

-----------------------------------------------------------------------------------------
-- Resolving roles

/-- The FAU has the role, with the class. -/
def Tables.HasRole (s : Tables) (roleId : Nat) (capability : CapabilityClass) : Prop :=
  ∃ r ∈ s.roles, r.id = roleId ∧ r.capabilityClass = capability

theorem Tables.HasRole.of_append {roleId : Nat} {capability : CapabilityClass} {added : List Role}
    (has : s.HasRole roleId capability) (same : after.roles = s.roles ++ added)
    : after.HasRole roleId capability := by
  obtain ⟨r, present, rfl, rfl⟩ := has
  exact ⟨r, same ▸ List.mem_append_left _ present, rfl, rfl⟩

/-- Resolved roles: roles are only added, and each offered period has a role of its own, that
exists, and is not over.
-/
structure Resolved (today : Date) (offered : List OfferedRole)
    (resolved : List (Nat × CapabilityClass × Period)) (s after : Tables)
    : Prop where
  added : ∃ roles, after = { s with roles := s.roles ++ roles }
  periods : resolved.map (·.2.2) = offered.map (·.period)
  running : ∀ role ∈ resolved, today < role.2.2.endsOnExclusive
  distinct : (resolved.map (·.1)).Nodup
  known : ∀ role ∈ resolved, after.HasRole role.1 role.2.1

theorem commits_requireLiveGroup {groupId : Option Nat} {u : Unit}
    (commits : (requireLiveGroup groupId).Commits s u after)
    : after = s := by
  cases groupId with
  | some id =>
      simp only [requireLiveGroup, commits_bind, commits_select, commits_expect, commits_require]
        at commits
      obtain ⟨_, _, ⟨rfl, rfl⟩, _, _, ⟨_, rfl⟩, _, rfl⟩ := commits
      rfl
  | none => exact (commits_pure.mp commits).2

/-- The role a choice resolves to is there afterwards. -/
theorem commits_resolveChoice {choice : RoleChoice} {role : Nat × CapabilityClass}
    (commits : (resolveChoice choice).Commits s role after)
    : (∃ roles, after = { s with roles := s.roles ++ roles }) ∧ after.HasRole role.1 role.2 := by
  cases choice with
  | existing id =>
      simp only [resolveChoice, resolveExisting, commits_bind, commits_select, commits_expect,
        commits_require, commits_pure] at commits
      obtain ⟨_, _, ⟨rfl, rfl⟩, r, _, ⟨found, rfl⟩, _, _, ⟨rfl, rfl⟩, _, _, ⟨_, rfl⟩, rfl, rfl⟩ :=
        commits
      obtain ⟨present, same⟩ := of_findRow found
      exact ⟨⟨[], by rw [List.append_nil]⟩, r, present, same, rfl⟩
  | new name capability groupId =>
      simp only [resolveChoice, createRole, commits_bind, commits_select, commits_require,
        commits_update, commits_pure] at commits
      obtain ⟨_, _, ⟨_, rfl⟩, _, _, live, _, _, ⟨rfl, rfl⟩, _, _, rfl, rfl, rfl⟩ := commits
      obtain rfl := commits_requireLiveGroup live
      exact ⟨⟨_, rfl⟩, _, List.mem_append_right _ (List.mem_singleton_self _), rfl, rfl⟩

/-- One role after those already resolved, by induction on the roles still offered: a role
already taken is refused, and what was there stays.
-/
theorem resolved_foldlM {offered : List OfferedRole}
    {before resolved : List (Nat × CapabilityClass × Period)}
    (commits : (offered.foldlM (resolveRole today) before).Commits s resolved after)
    (distinct : (before.map (·.1)).Nodup)
    (running : ∀ role ∈ before, today < role.2.2.endsOnExclusive)
    (known : ∀ role ∈ before, s.HasRole role.1 role.2.1)
    : (∃ roles, after = { s with roles := s.roles ++ roles })
      ∧ resolved.map (·.2.2) = before.map (·.2.2) ++ offered.map (·.period)
      ∧ (∀ role ∈ resolved, today < role.2.2.endsOnExclusive)
      ∧ (resolved.map (·.1)).Nodup
      ∧ ∀ role ∈ resolved, after.HasRole role.1 role.2.1 := by
  induction offered generalizing before s with
  | nil =>
      obtain ⟨rfl, rfl⟩ := commits_foldlM_nil.mp commits
      exact ⟨⟨[], by rw [List.append_nil]⟩, by simp, running, distinct, known⟩
  | cons head rest ih =>
      obtain ⟨longer, middle, first, others⟩ := commits_foldlM_cons.mp commits
      simp only [resolveRole, commits_bind, commits_require, commits_pure] at first
      obtain ⟨_, _, ⟨notOver, rfl⟩, role, _, chosen, _, _, ⟨new, rfl⟩, rfl, rfl⟩ := first
      obtain ⟨⟨roles, rfl⟩, has⟩ := commits_resolveChoice chosen
      obtain ⟨⟨more, rfl⟩, periods, rest⟩ := ih others
        (by
          rw [List.map_append, List.map_singleton]
          exact List.concat_eq_append ▸ distinct.concat new)
        (by
          intro other inside
          rcases List.mem_append.mp inside with old | last
          · exact running other old
          · rw [List.mem_singleton.mp last]
            exact Period.hasEndedBy_eq_false.mp notOver)
        (by
          intro other inside
          rcases List.mem_append.mp inside with old | last
          · exact (known other old).of_append rfl
          · rw [List.mem_singleton.mp last]
            exact has)
      refine ⟨⟨roles ++ more, by rw [List.append_assoc]⟩, ?_, rest⟩
      rw [periods, List.map_append, List.map_singleton, List.append_assoc, List.map_cons]
      rfl

theorem resolveRoles_commits {offered : List OfferedRole}
    {resolved : List (Nat × CapabilityClass × Period)}
    (commits : (resolveRoles offered today).Commits s resolved after)
    : offered ≠ [] ∧ Resolved today offered resolved s after := by
  simp only [resolveRoles, commits_bind, commits_require] at commits
  obtain ⟨_, _, ⟨some_, rfl⟩, loop⟩ := commits
  obtain ⟨added, periods, running, distinct, known⟩ :=
    resolved_foldlM loop List.nodup_nil (by simp) (by simp)
  exact ⟨some_, added, periods, running, distinct, known⟩

-----------------------------------------------------------------------------------------
-- Issuing

/-- A pending invitation is added with the next token. -/
theorem insertInvitation_commits {new : NewInvitation} {now : Timestamp}
    {issued : IssuedInvitation}
    (commits : (insertInvitation new now).Commits s issued after)
    : issued.invitationId ∉ s.invitations.map (·.id)
      ∧ after = { s with
          nextToken := s.nextToken + 1
          invitations :=
            s.invitations ++ [new.row issued.invitationId s.nextToken (invitationExpiry now)] } := by
  simp only [insertInvitation, generateToken, commits_bind, commits_select, commits_require,
    commits_update, commits_pure] at commits
  obtain ⟨_, _, ⟨_, _, ⟨rfl, rfl⟩, _, _, rfl, rfl, rfl⟩, _, _, ⟨rfl, rfl⟩, _, _, ⟨rfl, rfl⟩, _, _,
    ⟨unknown, rfl⟩, _, _, rfl, rfl, rfl⟩ := commits
  exact ⟨findRow_eq_none.mp unknown, rfl⟩

theorem insertInvitation_roles {new : NewInvitation} {now : Timestamp} {issued : IssuedInvitation}
    (commits : (insertInvitation new now).Commits s issued after)
    : after.roles = s.roles := by
  obtain ⟨_, rfl⟩ := insertInvitation_commits commits
  rfl

/-- What an issued invitation offers: its roles exist, each once, and are not over. -/
structure Offers (today : Date) (inv : Invitation) (s : Tables) : Prop where
  some_ : inv.roles ≠ []
  distinct : (inv.roles.map (·.1)).Nodup
  known : ∀ offered ∈ inv.roles, ∃ capability, s.HasRole offered.1 capability
  running : ∀ offered ∈ inv.roles, today < offered.2.endsOnExclusive

theorem Resolved.offers {offered : List OfferedRole}
    {resolved : List (Nat × CapabilityClass × Period)} (roles : Resolved today offered resolved s after)
    (some_ : offered ≠ []) {inv : Invitation}
    (same : inv.roles = resolved.map fun role => (role.1, role.2.2)) {later : Tables}
    (kept : later.roles = after.roles)
    : Offers today inv later where
  some_ := by
    intro none_
    rw [same, List.map_eq_nil_iff] at none_
    have periods := roles.periods
    rw [none_, List.map_nil, eq_comm, List.map_eq_nil_iff] at periods
    exact some_ periods
  distinct := by
    rw [same, List.map_map]
    exact roles.distinct
  known role inside := by
    rw [same] at inside
    obtain ⟨r, present, rfl⟩ := List.mem_map.mp inside
    obtain ⟨row, there, one, other⟩ := roles.known r present
    exact ⟨r.2.1, row, kept ▸ there, one, other⟩
  running role inside := by
    rw [same] at inside
    obtain ⟨r, present, rfl⟩ := List.mem_map.mp inside
    exact roles.running r present

/-- An invitation is issued: roles are added, then the pending invitation with the next token. -/
structure Issues (today : Date) (row : Invitation) (s after : Tables) : Prop where
  fresh : row.id ∉ s.invitations.map (·.id)
  token : row.token = s.nextToken
  pending : row.acceptedAt = none ∧ row.revokedAt = none
  offers : Offers today row after
  after : ∃ roles requests, after = { s with
    roles := s.roles ++ roles
    requests := requests
    nextToken := s.nextToken + 1
    invitations := s.invitations ++ [row] }

theorem Resolved.issues {offered : List OfferedRole}
    {resolved : List (Nat × CapabilityClass × Period)} {middle : Tables}
    (roles : Resolved today offered resolved s middle) (some_ : offered ≠ [])
    {new : NewInvitation} (same : new.roles = resolved.map fun role => (role.1, role.2.2))
    {now : Timestamp} {issued : IssuedInvitation}
    (commits : (insertInvitation new now).Commits middle issued after)
    : Issues today (new.row issued.invitationId s.nextToken (invitationExpiry now)) s after := by
  obtain ⟨fresh, rfl⟩ := insertInvitation_commits commits
  obtain ⟨added, rfl⟩ := roles.added
  exact {
    fresh := fresh
    token := rfl
    pending := ⟨rfl, rfl⟩
    offers := roles.offers some_ same rfl
    after := ⟨added, s.requests, rfl⟩ }

/-- The membership's account has another address. -/
def Tables.OtherAddress (s : Tables) (membershipId : Nat) (address : Email) : Prop :=
  ∃ m ∈ s.memberships, m.id = membershipId
    ∧ ∃ a ∈ s.accounts, a.id = m.accountId ∧ a.email ≠ address

/-- What an invitation of each mode is issued with. -/
def Tables.Proper (s : Tables) (inv : Invitation) : Prop :=
  match inv.mode with
  | .normal => inv.issuedBy.isSome
  | .handover => ∃ grantId issuer, inv.handoverGrantId = some grantId ∧ inv.issuedBy = some issuer
      ∧ s.OtherAddress issuer inv.recipient
      ∧ ∀ offered ∈ inv.roles, ∃ capability, capability ≠ .guest ∧ s.HasRole offered.1 capability
  | .recovery => inv.recoveryHolder.isSome
  | .activation => True

/-- The address of a usable membership is its account's. -/
theorem Tables.usableMemberEmail_eq_some {s : Tables} {membershipId : Nat} {email : Email}
    (found : s.usableMemberEmail membershipId = some email)
    : ∃ m ∈ s.memberships, m.id = membershipId
        ∧ ∃ a ∈ s.accounts, a.id = m.accountId ∧ a.email = email := by
  obtain ⟨m, usable, account⟩ := Option.bind_eq_some_iff.mp found
  obtain ⟨row, _⟩ := Option.filter_eq_some_iff.mp usable
  obtain ⟨a, known, rfl⟩ := Option.map_eq_some_iff.mp account
  obtain ⟨there, one⟩ := of_findRow row
  obtain ⟨held, other⟩ := of_findRow known
  exact ⟨m, there, one, a, held, other, rfl⟩

/-- The mode follows the authority: an admin's, or a valid grant's, not to oneself. -/
theorem issuingMode_commits {req : IssueInvitation} {mode : InvitationMode}
    (commits : (issuingMode req today).Commits s mode after)
    : after = s
      ∧ (mode = .normal ∧ req.handoverGrantId = none
        ∨ mode = .handover ∧ (∃ grantId, req.handoverGrantId = some grantId)
          ∧ s.OtherAddress req.actorMembershipId req.recipient) := by
  unfold issuingMode at commits
  split at commits
  · next none_ =>
      simp only [commits_bind, commits_requireAdmin, commits_pure] at commits
      obtain ⟨_, _, ⟨_, rfl⟩, rfl, rfl⟩ := commits
      exact ⟨rfl, .inl ⟨rfl, none_⟩⟩
  · next grantId given =>
      simp only [commits_select_bind, commits_require_bind, commits_expect_bind, commits_pure]
        at commits
      obtain ⟨_, _, _, own, known, other, rfl, rfl⟩ := commits
      obtain ⟨m, there, one, a, held, account, rfl⟩ := Tables.usableMemberEmail_eq_some known
      exact ⟨rfl, .inr ⟨rfl, ⟨grantId, given⟩, m, there, one, a, held, account, other⟩⟩

/-- A handover invitation offers no guest role, by the recheck of the resolved roles. -/
theorem issueInvitation_commits {req : IssueInvitation} {issued : IssuedInvitation}
    (commits : (issueInvitation req moment).Commits s issued after)
    : ∃ row, Issues moment.today row s after ∧ after.Proper row
        ∧ (row.mode = .normal ∨ row.mode = .handover) := by
  simp only [issueInvitation, commits_require_bind, commits_lockTenant_bind,
    commits_requireOpen_bind] at commits
  obtain ⟨_, state, _, _, _, writes⟩ := commits
  obtain ⟨mode, _, authority, writes⟩ := commits_bind.mp writes
  obtain ⟨resolved, _, roles, writes⟩ := commits_bind.mp writes
  obtain ⟨noGuest, inserts⟩ := commits_require_bind.mp writes
  obtain ⟨rfl, authority⟩ := issuingMode_commits authority
  obtain ⟨some_, roles⟩ := resolveRoles_commits roles
  have issues := roles.issues some_ rfl inserts
  refine ⟨_, issues, ?_⟩
  have kept := insertInvitation_roles inserts
  rcases authority with ⟨rfl, _⟩ | ⟨rfl, ⟨grantId, given⟩, other⟩
  · exact ⟨rfl, .inl rfl⟩
  · have still : after.OtherAddress req.actorMembershipId req.recipient := by
      obtain ⟨added, requests, rfl⟩ := issues.after
      exact other
    refine ⟨⟨grantId, _, given, rfl, still, ?_⟩, .inr rfl⟩
    intro offered inside
    obtain ⟨role, present, rfl⟩ := List.mem_map.mp inside
    obtain ⟨r, there, one, capability⟩ := roles.known role present
    refine ⟨role.2.1, ?_, r, kept ▸ there, one, capability⟩
    intro guest
    exact noGuest ⟨rfl, List.any_eq_true.mpr ⟨role, present, by simpa using guest⟩⟩

theorem approveRequest_commits {decision : RequestDecision} {roles : List OfferedRole}
    {issued : IssuedInvitation}
    (commits : (approveRequest decision roles moment).Commits s issued after)
    : ∃ row, Issues moment.today row s after ∧ after.Proper row ∧ row.mode = .normal := by
  simp only [approveRequest, beginApproval, finishApproval, lockPendingRequest, bind_assoc,
    pure_bind, commits_select_bind, commits_expect_bind, commits_require_bind,
    commits_lockTenant_bind, commits_requireOpen_bind, commits_requireAdmin_bind] at commits
  obtain ⟨state, _, _, _, _, request, _, _, writes⟩ := commits
  obtain ⟨resolved, _, resolves, writes⟩ := commits_bind.mp writes
  obtain ⟨some_, resolves⟩ := resolveRoles_commits resolves
  obtain ⟨_, _, inserts, closes⟩ := commits_bind.mp writes
  simp only [closeRequest, commits_update_bind, commits_pure] at closes
  obtain ⟨_, rfl⟩ := closes
  have issues := resolves.issues some_ rfl inserts
  obtain ⟨added, requests, rfl⟩ := issues.after
  exact ⟨_, { issues with
    offers := { issues.offers with }
    after := ⟨added, _, rfl⟩ }, rfl, rfl⟩

theorem recoveryGrantAdmin_commits {req : RecoveryGrant} {issued : IssuedInvitation}
    (commits : (recoveryGrantAdmin req moment).Commits s issued after)
    : ∃ row, Issues moment.today row s after ∧ after.Proper row ∧ row.mode = .recovery := by
  simp only [recoveryGrantAdmin, commits_select_bind, commits_expect_bind, commits_require_bind,
    commits_lockTenant_bind, commits_requireOpen_bind] at commits
  obtain ⟨state, _, _, _, seat, _, _, _, _, _, _, writes⟩ := commits
  obtain ⟨resolved, _, resolves, writes⟩ := commits_bind.mp writes
  obtain ⟨some_, resolves⟩ := resolveRoles_commits resolves
  obtain ⟨role, first, writes⟩ := commits_expect_bind.mp writes
  obtain ⟨_, inserts⟩ := commits_require_bind.mp writes
  have one : resolved = [role] := by
    have periods := congrArg List.length resolves.periods
    rw [List.length_map, List.length_map, List.length_singleton] at periods
    obtain ⟨only, rfl⟩ := List.length_eq_one_iff.mp periods
    cases first
    rfl
  subst one
  exact ⟨_, resolves.issues some_ rfl inserts, rfl, rfl⟩

-----------------------------------------------------------------------------------------
-- Giving roles

/-- The assignment gives the membership a role over a period, and is not revoked. -/
structure RoleAssignment.Gives (ra : RoleAssignment) (membershipId roleId : Nat) (period : Period)
    (grantedBy : Option Nat)
    : Prop where
  membershipId : ra.membershipId = membershipId
  roleId : ra.roleId = roleId
  period : ra.period = period
  grantedBy : ra.grantedBy = grantedBy
  revokedAt : ra.revokedAt = none

/-- Accepted roles become new assignments, one each, by induction on the roles. -/
theorem insertAccepted_commits {membershipId : Nat} {issuedBy : Option Nat}
    {roles : List (Nat × CapabilityClass × Period)} {before ids : List Nat}
    (commits : (roles.foldlM (insertAccepted membershipId issuedBy) before).Commits s ids after)
    : ∃ rows, after = { s with assignments := s.assignments ++ rows }
        ∧ List.Forall₂ (fun role ra => ra.Gives membershipId role.1 role.2.2 issuedBy) roles rows
        ∧ ∀ ra ∈ rows, ra.id ∉ s.assignments.map (·.id) := by
  induction roles generalizing before s with
  | nil =>
      obtain ⟨_, rfl⟩ := commits_foldlM_nil.mp commits
      exact ⟨[], by rw [List.append_nil], .nil, by simp⟩
  | cons head rest ih =>
      obtain ⟨longer, middle, first, others⟩ := commits_foldlM_cons.mp commits
      simp only [insertAccepted, commits_bind, commits_insertAssignment, commits_pure] at first
      obtain ⟨_, _, ⟨rfl, rfl⟩, _, rfl⟩ := first
      obtain ⟨rows, rfl, all, fresh⟩ := ih others
      refine ⟨_ :: rows, by rw [List.append_assoc]; rfl, .cons ⟨rfl, rfl, rfl, rfl, rfl⟩ all, ?_⟩
      intro ra inside
      rcases List.mem_cons.mp inside with rfl | later
      · exact freshId_not_mem _
      · intro used
        refine fresh ra later ?_
        rw [List.map_append]
        exact List.mem_append_left _ used

theorem commits_profileCheck {profile : MemberProfile} {u : Unit}
    (commits : profile.check.Commits s u after)
    : after = s := by
  simp only [MemberProfile.check, checkDisplayName, commits_bind, commits_require] at commits
  obtain ⟨_, _, ⟨_, rfl⟩, contact⟩ := commits
  unfold checkGivenContactEmail at contact
  split at contact
  · exact (commits_require.mp contact).2
  · exact (commits_pure.mp contact).2

/-- An accepted role is an offered one, over its period, an admin role's up to the override. -/
structure Tables.Fulfils (s : Tables) (adminEndOverride : Option Date) (offered : Nat × Period)
    (role : Nat × CapabilityClass × Period)
    : Prop where
  roleId : role.1 = offered.1
  known : s.HasRole role.1 role.2.1
  startsOn : role.2.2.startsOn = offered.2.startsOn
  endsOnExclusive : role.2.2.endsOnExclusive =
    if role.2.1 = .admin then adminEndOverride.getD offered.2.endsOnExclusive
    else offered.2.endsOnExclusive

/-- The accepted roles are the offered ones. Only an activation allows an override, and only of
one to 24 months.
-/
theorem acceptedRoles_commits {inv : Invitation} {adminEndOverride : Option Date}
    {roles : List (Nat × CapabilityClass × Period)}
    (commits : (acceptedRoles inv adminEndOverride today).Commits s roles after)
    : after = s
      ∧ List.Forall₂ (s.Fulfils adminEndOverride) (sortOn (·.1) inv.roles) roles
      ∧ ∀ ends, adminEndOverride = some ends →
          inv.mode = .activation ∧ validateAdminEnd today ends = .ok () := by
  simp only [acceptedRoles, commits_bind] at commits
  obtain ⟨offered, _, reads, rest⟩ := commits
  obtain ⟨rfl, _, rfl, offered⟩ := reads.foldlM_collects
    (P := fun offered role => s.Fulfils none offered role)
    (by
      intro found offered found' after pass
      simp only [offeredRole, commits_bind, commits_select, commits_expect, commits_require,
        commits_pure] at pass
      obtain ⟨_, _, ⟨rfl, rfl⟩, r, _, ⟨known, rfl⟩, _, _, ⟨rfl, rfl⟩, _, _, ⟨_, rfl⟩, rfl, rfl⟩ :=
        pass
      obtain ⟨there, one⟩ := of_findRow known
      exact ⟨rfl, _, rfl, rfl, ⟨r, there, one, rfl⟩, rfl, by simp⟩)
  cases adminEndOverride with
  | none =>
      obtain ⟨rfl, rfl⟩ := commits_pure.mp rest
      exact ⟨rfl, offered, by simp⟩
  | some ends =>
      simp only [commits_bind, commits_require, commits_check] at rest
      obtain ⟨_, _, ⟨activation, rfl⟩, _, _, ⟨valid, rfl⟩, overrides⟩ := rest
      obtain ⟨rfl, _, rfl, overridden⟩ := overrides.foldlM_collects
        (P := fun (read role : Nat × CapabilityClass × Period) => role.1 = read.1 ∧ role.2.1 = read.2.1
          ∧ role.2.2.startsOn = read.2.2.startsOn
          ∧ role.2.2.endsOnExclusive = if read.2.1 = .admin then ends
              else read.2.2.endsOnExclusive)
        (by
          intro found read found' after pass
          simp only [overrideEnd, commits_ite, commits_bind, commits_expect, commits_pure] at pass
          rcases pass with ⟨admin, period, _, ⟨made, rfl⟩, rfl, rfl⟩ | ⟨other, rfl, rfl⟩
          · obtain ⟨starts, ends⟩ := Period.new_eq_some.mp made
            exact ⟨rfl, _, rfl, rfl, rfl, starts, by simp [admin, ends]⟩
          · exact ⟨rfl, _, rfl, rfl, rfl, rfl, by simp [other]⟩)
      refine ⟨rfl, ?_, fun _ same => ⟨activation, Option.some.inj same ▸ valid⟩⟩
      refine forall₂_through (fun asked read role offered given => ?_) offered overridden
      obtain ⟨one, capability, starts, ends⟩ := given
      refine ⟨one.trans offered.roleId, ?_, starts.trans offered.startsOn, ?_⟩
      · rw [one, capability]
        exact offered.known
      · rw [ends, capability, offered.endsOnExclusive]
        simp

/-- The account of a verified address is there, under the id, and disabled only if it was. -/
theorem upsertVerifiedAccount_commits {email : Email} {at_ : Timestamp} {found : Nat × Bool}
    (commits : (upsertVerifiedAccount email at_).Commits s found after)
    : (∃ accounts, after = { s with accounts := accounts })
      ∧ ∃ a ∈ after.accounts, a.id = found.1 ∧ a.email = email ∧ a.verifiedAt.isSome
          ∧ a.disabledAt.isSome
            = (findRow Account.email email s.accounts).any (·.disabledAt.isSome) := by
  simp only [upsertVerifiedAccount, commits_bind, commits_select] at commits
  obtain ⟨known, _, ⟨rfl, rfl⟩, rest⟩ := commits
  split at rest
  · next row exists_ =>
      simp only [commits_bind, commits_update, commits_pure] at rest
      obtain ⟨_, _, rfl, rfl, rfl⟩ := rest
      obtain ⟨there, same⟩ := of_findRow exists_
      refine ⟨⟨_, rfl⟩, _, List.mem_map_of_mem there, ?_⟩
      rw [changeAt_of_eq rfl]
      refine ⟨rfl, same, ?_, by rw [exists_]; rfl⟩
      cases row.verifiedAt <;> rfl
  · next none_ =>
      simp only [commits_bind, commits_select, commits_update, commits_pure] at rest
      obtain ⟨id, _, ⟨rfl, rfl⟩, _, _, rfl, rfl, rfl⟩ := rest
      exact ⟨⟨_, rfl⟩, _, List.mem_append_right _ (List.mem_singleton_self _), rfl, rfl, rfl,
        by rw [none_]; rfl⟩

/-- A return: the group memberships of one that had ended go, the profile is settled, and the row
is current.
-/
theorem reopenProfile_commits {membershipId : Nat} {settled : Settled}
    (commits : (reopenProfile membershipId moment).Commits s settled after)
    : ∃ m cleared kept, s.membership membershipId = some m
        ∧ (onlyIf (s.membershipEnded m moment.today = true)
            (removeFromAllGroups membershipId moment.now)).Commits s () cleared
        ∧ (settleProfile membershipId moment).Commits cleared settled kept
        ∧ (updateMembership membershipId
            ({ · with revokedAt := none, profileRetainedUntil := none })).Commits kept () after := by
  simp only [reopenProfile, commits_select_bind, commits_expect_bind] at commits
  obtain ⟨m, found, writes⟩ := commits
  obtain ⟨_, cleared, clears, settles⟩ := commits_bind.mp writes
  obtain ⟨settled', kept, settles, reopens⟩ := commits_bind.mp settles
  obtain ⟨_, _, reopens, returns⟩ := commits_bind.mp reopens
  obtain ⟨rfl, rfl⟩ := commits_pure.mp returns
  exact ⟨m, cleared, kept, found, clears, settles, reopens⟩

/-- A joiner's membership: the account's own, reopened, or a new one. -/
theorem ensureMembership_commits {accountId expectedId : Nat} {joined : Nat × Bool × Bool}
    (commits : (ensureMembership accountId expectedId moment).Commits s joined after)
    : joined.1 = expectedId
      ∧ ((∃ m settled, findRow MembershipRow.accountId accountId s.memberships = some m
            ∧ m.id = expectedId ∧ m.nameErasedAt = none
            ∧ (reopenProfile expectedId moment).Commits s settled after)
        ∨ expectedId ∉ s.memberships.map (·.id)
            ∧ findRow MembershipRow.accountId accountId s.memberships = none
            ∧ after = { s with memberships :=
                s.memberships ++ [⟨expectedId, accountId, none, none, none, none, none⟩] }) := by
  simp only [ensureMembership, commits_select_bind] at commits
  split at commits
  · next m found =>
      simp only [commits_require_bind] at commits
      obtain ⟨rfl, notErased, writes⟩ := commits
      obtain ⟨settled, _, reopens, returns⟩ := commits_bind.mp writes
      obtain ⟨rfl, rfl⟩ := commits_pure.mp returns
      exact ⟨rfl, .inl ⟨m, settled, found, rfl, notErased, reopens⟩⟩
  · next none_ =>
      simp only [commits_select_bind, commits_require_bind, commits_update_bind, commits_pure]
        at commits
      obtain ⟨unknown, rfl, rfl⟩ := commits
      exact ⟨rfl, .inr ⟨findRow_eq_none.mp unknown, none_, rfl⟩⟩

/-- The steps of an acceptance that commits. -/
structure AcceptancePath (found : Nat) (req : AcceptInvitation) (moment : Moment) (s after : Tables)
    where
  state : Tenant
  inv : Invitation
  roles : List (Nat × CapabilityClass × Period)
  account : Nat × Bool
  joined : Nat × Bool × Bool
  assigned : List Nat
  verified : Tables
  entered : Tables
  named : Tables
  given : Tables
  locked : s.tenant = some state
  finds : s.invitation found = some inv
  token : inv.token = req.token
  passes : checkAcceptance (s.acceptanceSnapshot inv req.acceptor state moment.today) moment.now
    = .ok ()
  offers : (acceptedRoles inv req.adminEndOverride moment.today).Commits s roles s
  verifies : (upsertVerifiedAccount req.acceptor moment.now).Commits s account verified
  joins : (ensureMembership account.1 req.profile.membershipId moment).Commits verified joined
    entered
  names : (writeProfile req.profile joined.2.2).Commits entered () named
  gives : (roles.foldlM (insertAccepted joined.1 inv.issuedBy) []).Commits named assigned given
  marks : (updateInvitation found ({ · with
    acceptedAt := some moment.now, acceptedMembershipId := some joined.1 })).Commits given () after

theorem acceptInvitation_commits {found : Nat} {req : AcceptInvitation} {accepted : Accepted}
    (commits : (acceptInvitation found req moment).Commits s accepted after)
    : Nonempty (AcceptancePath found req moment s after) := by
  unfold acceptInvitation at commits
  obtain ⟨_, _, checked, writes⟩ := commits_bind.mp commits
  obtain rfl := commits_profileCheck checked
  simp only [commits_lockTenant_bind, commits_select_bind, commits_expect_bind,
    commits_check_bind] at writes
  obtain ⟨state, locked, inv, finds, _, passes, writes⟩ := writes
  obtain ⟨roles, _, offers, writes⟩ := commits_bind.mp writes
  obtain ⟨account, verified, verifies, writes⟩ := commits_bind.mp writes
  obtain ⟨joined, entered, joins, writes⟩ := commits_bind.mp writes
  obtain ⟨_, named, names, writes⟩ := commits_bind.mp writes
  obtain ⟨assigned, given, gives, writes⟩ := commits_bind.mp writes
  obtain ⟨_, _, marks, returns⟩ := commits_bind.mp writes
  obtain ⟨rfl, rfl⟩ := commits_pure.mp returns
  obtain ⟨rfl, _⟩ := acceptedRoles_commits offers
  obtain ⟨finds, token⟩ := Option.filter_eq_some_iff.mp finds
  exact ⟨⟨state, inv, roles, account, joined, assigned, verified, entered, named, given, locked,
    finds, of_decide_eq_true token, passes, offers, verifies, joins, names, gives, marks⟩⟩

/-- The steps of a grant that commits. -/
structure GrantPath (req : GrantRole) (moment : Moment) (s after : Tables) where
  state : Tenant
  m : MembershipRow
  roleId : Nat
  capability : CapabilityClass
  settled : Settled
  resolved : Tables
  opened : Tables
  assignmentId : Nat
  locked : s.tenant = some state
  active : state.status = .active
  notFrozen : state.frozen = false
  admin : s.isAdminToday req.actorMembershipId moment.today = true
  finds : s.membership req.membershipId = some m
  current : m.revokedAt = none
  usable : s.usable m = true
  resolves : Resolved moment.today [⟨req.role, req.period⟩] [(roleId, capability, req.period)] s
    resolved
  opens : (reopenProfile req.membershipId moment).Commits resolved settled opened
  gives : (insertAssignment req.membershipId roleId req.period (some req.actorMembershipId)).Commits
    opened assignmentId after

theorem grantRole_commits {req : GrantRole} {id : Nat}
    (commits : (grantRole req moment).Commits s id after)
    : Nonempty (GrantPath req moment s after) := by
  simp only [grantRole, commits_select_bind, commits_expect_bind, commits_require_bind,
    commits_lockTenant_bind, commits_requireOpen_bind, commits_requireAdmin_bind] at commits
  obtain ⟨state, locked, active, notFrozen, admin, membership, known, current, usable, writes⟩ :=
    commits
  obtain ⟨resolved, middle, resolves, writes⟩ := commits_bind.mp writes
  obtain ⟨role, first, writes⟩ := commits_expect_bind.mp writes
  obtain ⟨settled, opened, opens, gives⟩ := commits_bind.mp writes
  obtain ⟨m, finds, rfl⟩ := Option.map_eq_some_iff.mp known
  obtain ⟨_, resolves⟩ := resolveRoles_commits resolves
  have periods := resolves.periods
  obtain ⟨only, rfl⟩ := List.length_eq_one_iff.mp
    (by simpa using congrArg List.length periods)
  cases first
  obtain ⟨roleId, capability, period⟩ := role
  obtain rfl : period = req.period := by simpa using periods
  exact ⟨⟨state, m, roleId, capability, settled, _, opened, id, locked, active, notFrozen,
    admin, finds, by simpa using current, usable, resolves, opens, gives⟩⟩

/-- The steps of an activation that commits. -/
structure ActivationPath (activation : Activation) (moment : Moment) (s after : Tables) where
  state : Tenant
  signup : TenantSignup
  period : Period
  accountId : Nat
  joined : Nat × Bool × Bool
  roleId : Nat
  assignmentId : Nat
  leaderInvitation : Option IssuedInvitation
  verified : Tables
  entered : Tables
  named : Tables
  titled : Tables
  given : Tables
  invited : Tables
  locked : s.tenant = some state
  pending : state.status = .pending
  notFrozen : state.frozen = false
  signedUp : s.signup = some signup
  unexpired : moment.now < signup.expiresAt
  registrant : signup.registrantEmail = activation.registrant
  starts : period.startsOn = moment.today
  ends : period.endsOnExclusive = signup.adminEndsOnExclusive
  verifies : (upsertVerifiedAccount signup.registrantEmail moment.now).Commits
    { s with tenant := some { state with status := .active } } (accountId, false) verified
  joins : (ensureMembership accountId activation.profile.membershipId moment).Commits verified
    joined entered
  names : (writeProfile activation.profile joined.2.2).Commits entered () named
  titles : insertBootstrapRole.Commits named roleId titled
  gives : (insertAssignment joined.1 roleId period none).Commits titled assignmentId given
  invites : (inviteLeader signup roleId period moment.now).Commits given leaderInvitation invited
  after : after = { invited with recoveryContact := some ⟨.ewb, none⟩, signup := none }

theorem activateTenant_commits {activation : Activation} {activated : Activated}
    (commits : (activateTenant activation moment).Commits s activated after)
    : Nonempty (ActivationPath activation moment s after) := by
  unfold activateTenant at commits
  obtain ⟨_, _, checked, checks⟩ := commits_bind.mp commits
  obtain rfl := commits_profileCheck checked
  simp only [commits_lockTenant_bind, commits_require_bind, commits_select_bind,
    commits_expect_bind, commits_update_bind] at checks
  obtain ⟨state, locked, pending, notFrozen, signup, signedUp, unexpired, registrant, period, made,
    writes⟩ := checks
  obtain ⟨starts, ends⟩ := Period.new_eq_some.mp made
  obtain ⟨⟨accountId, disabled⟩, verified, verifies, writes⟩ := commits_bind.mp writes
  obtain ⟨enabled, writes⟩ := commits_require_bind.mp writes
  obtain rfl : disabled = false := enabled
  obtain ⟨joined, entered, joins, writes⟩ := commits_bind.mp writes
  obtain ⟨_, named, names, writes⟩ := commits_bind.mp writes
  obtain ⟨roleId, titled, titles, writes⟩ := commits_bind.mp writes
  obtain ⟨assignmentId, given, gives, writes⟩ := commits_bind.mp writes
  obtain ⟨leaderInvitation, invited, invites, writes⟩ := commits_bind.mp writes
  simp only [commits_select_bind, commits_require_bind, commits_update_bind, commits_pure]
    at writes
  obtain ⟨_, _, rfl⟩ := writes
  exact ⟨⟨state, signup, period, accountId, joined, roleId, assignmentId, leaderInvitation, _,
    entered, named, titled, given, _, locked, pending, notFrozen, signedUp, unexpired, registrant,
    starts, ends, verifies, joins, names, titles, gives, invites, rfl⟩⟩

end FauPortalen.Membership

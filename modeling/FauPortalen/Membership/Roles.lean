import FauPortalen.Membership.Invitations

/-! Granting and revoking roles and memberships, with the last-admin safeguard. -/

namespace FauPortalen.Membership

open Foundations Transaction

variable [OsloZone]

structure GrantRole where
  actorMembershipId : Nat
  membershipId : Nat
  role : RoleChoice
  period : Period

/-- Gives an existing member a role for a period. Only an admin valid today may. -/
def grantRole (req : GrantRole) (moment : Moment) : Tx Nat := do
  let state ← lockTenant
  requireOpen state
  requireAdmin req.actorMembershipId moment.today
  let (revoked, usable) ← expect (← select (·.membershipAndAccountState req.membershipId))
    .unknownMembership
  require (revoked = false) .membershipRevoked
  require (usable = true) .accountDisabled
  let resolved ← resolveRoles [⟨req.role, req.period⟩] moment.today
  let (roleId, _, period) ← expect resolved.head? .noRolesOffered
  let _ ← reopenProfile req.membershipId moment
  insertAssignment req.membershipId roleId period (some req.actorMembershipId)

structure RevokeAssignment where
  actorMembershipId : Nat
  assignmentId : Nat
  confirmNoAdmin : Bool

/-- Revokes one assignment at once, with any grant it already produced. An admin valid today may
revoke any, anyone their own; whoever may not learns nothing about the id.
-/
def revokeRoleAssignment (req : RevokeAssignment) (moment : Moment) : Tx Unit := do
  let _ ← lockTenant
  let admin ← select (·.isAdminToday req.actorMembershipId moment.today)
  let ra ← expect ((← select (findRow RoleAssignment.id req.assignmentId ·.assignments)).filter
      fun ra => admin || ra.membershipId = req.actorMembershipId)
    (if admin then .unknownAssignment else .notAuthorized)
  require (ra.revokedAt = none) .assignmentAlreadyRevoked
  let admins ← select AdminState.load
  let _ ← check (admins.checkLastAdmin moment.today req.confirmNoAdmin fun id _ =>
    id = req.assignmentId) id
  revokeAssignments (·.id = req.assignmentId) moment.now
  revokeGrants (·.sourceAssignmentId = req.assignmentId) moment.now

structure RevokeMembership where
  actorMembershipId : Nat
  /-- The actor's own id when a member leaves. -/
  membershipId : Nat
  confirmNoAdmin : Bool

/-- The assignment is an ended admin role whose handover window is not over. -/
def Tables.endedWithOpenWindow (s : Tables) (ra : RoleAssignment) (today : Date) : Bool :=
  s.ofClass .admin ra && ra.period.hasEndedBy today
    && (handoverPeriod ra.period.endsOnExclusive).any (!·.hasEndedBy today)

/-- Withdraws the revoked member's own pending requests and proposals. -/
def withdrawPendingRequests (membershipId : Nat) (now : Timestamp) : Tx Unit := do
  let email ← select fun s => (s.membership membershipId).bind fun m =>
    (s.account m.accountId).map (·.email)
  update fun s => { s with
    requests := s.requests.map fun ar =>
      if ar.status = .pending
          && (ar.requesterMembershipId = some membershipId || some ar.requesterEmail = email)
        then { ar with status := .withdrawn, closedAt := some now }
        else ar }

/-- How long a revoked membership's fields are kept; none clears them. -/
def keepOnRevocation (m : MembershipRow) (stamped : Option Date) (today : Date)
    : Tx (Option Date) :=
  if m.hasFields then effectiveKeepUntil m.id stamped today else pure none

/-- Revokes a whole membership: every role that runs or is yet to start, every ended admin role
with an open handover window, and every grant of any of its roles. Its fields are kept, hidden,
for the period from the day it ended, or cleared.
-/
def revokeMembership (req : RevokeMembership) (moment : Moment) : Tx Unit := do
  let _ ← lockTenant
  onlyIf (req.actorMembershipId ≠ req.membershipId)
    (requireAdmin req.actorMembershipId moment.today)
  let m ← expect (← select (·.membership req.membershipId)) .unknownMembership
  require (m.revokedAt = none) .membershipRevoked
  let ended ← select (·.membershipEnded m moment.today)
  -- a stamp counts only on a membership that had already ended
  let stamped := m.profileRetainedUntil.filter fun _ => ended
  let admins ← select AdminState.load
  let _ ← check (admins.checkLastAdmin moment.today req.confirmNoAdmin fun _ holder =>
    holder = req.membershipId) id
  revokeAssignments (fun ra => ra.membershipId = req.membershipId
    && moment.today < ra.period.endsOnExclusive) moment.now
  let openWindows ← select fun s => (s.assignments.filter fun ra =>
    ra.membershipId = req.membershipId && ra.revokedAt.isNone
      && s.endedWithOpenWindow ra moment.today).map (·.id)
  revokeAssignments (fun ra => ra.id ∈ openWindows) moment.now
  let keep ← keepOnRevocation m stamped moment.today
  updateMembership req.membershipId fun m => { m with
    revokedAt := some moment.now
    profileRetainedUntil := keep
    encryptedDisplayName := if keep = none then none else m.encryptedDisplayName
    encryptedContactEmail := if keep = none then none else m.encryptedContactEmail }
  let sources ← select fun s =>
    (s.assignments.filter (·.membershipId = req.membershipId)).map (·.id)
  revokeGrants (fun g => g.sourceAssignmentId ∈ sources) moment.now
  withdrawPendingRequests req.membershipId moment.now
  removeFromAllGroups req.membershipId moment.now

end FauPortalen.Membership

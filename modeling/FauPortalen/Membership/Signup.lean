import FauPortalen.Membership.Invitations

/-! The activation of a pending FAU and the expiry of one that was never activated. -/

namespace FauPortalen.Membership

open Foundations Transaction

variable [OsloZone]

/-- The name of the registrant's first role. -/
def bootstrapAdminRoleName : String := "Administrator"

structure Activation where
  /-- The registrant's address, just verified. -/
  registrant : Email
  profile : MemberProfile

structure Activated where
  accountId : Nat
  membershipId : Nat
  adminRoleId : Nat
  adminAssignmentId : Nat
  /-- None when the leader's address is the registrant's own. -/
  leaderInvitation : Option IssuedInvitation

/-- Adds the admin role that the registrant and the leader hold. -/
def insertBootstrapRole : Tx Nat := do
  let id ← select fun s => freshId (s.roles.map (·.id))
  update fun s => { s with
    roles := s.roles ++ [⟨id, bootstrapAdminRoleName, .admin, none, none, none⟩] }
  pure id

/-- Invites the leader to the admin role, when it is not the registrant. -/
def inviteLeader (signup : TenantSignup) (adminRoleId : Nat) (period : Period) (now : Timestamp)
    : Tx (Option IssuedInvitation) :=
  if signup.leaderEmail ≠ signup.registrantEmail then do
    let issued ← insertInvitation
      { mode := .activation
        recipient := signup.leaderEmail
        issuedBy := none
        handoverGrantId := none
        accessRequestId := none
        recoveryHolder := none
        roles := [(adminRoleId, period)]
        id := none
        encryptedMessage := none }
      now
    pure (some issued)
  else pure none

/-- Activates a pending FAU: its status, the registrant's account, membership and admin role, the
leader invitation and the recovery seat.
-/
def activateTenant (activation : Activation) (moment : Moment) : Tx Activated := do
  activation.profile.check
  let state ← lockTenant
  require (state.status = .pending) .tenantNotPending
  require (state.frozen = false) .tenantFrozen
  let signup ← expect (← select (·.signup)) .tenantNotPending
  require (moment.now < signup.expiresAt) .signupExpired
  require (signup.registrantEmail = activation.registrant) .registrantMismatch
  let period ← expect (Period.new moment.today signup.adminEndsOnExclusive) .emptyPeriod
  update fun s => { s with tenant := some { state with status := .active } }
  let (accountId, disabled) ← upsertVerifiedAccount signup.registrantEmail moment.now
  require (disabled = false) .accountDisabled
  let (membershipId, _, alreadyCurrent) ←
    ensureMembership accountId activation.profile.membershipId moment
  writeProfile activation.profile alreadyCurrent
  let adminRoleId ← insertBootstrapRole
  let adminAssignmentId ← insertAssignment membershipId adminRoleId period none
  let leaderInvitation ← inviteLeader signup adminRoleId period moment.now
  require ((← select (·.recoveryContact)) = none) .uniqueViolation
  update fun s => { s with recoveryContact := some ⟨.ewb, none⟩, signup := none }
  pure ⟨accountId, membershipId, adminRoleId, adminAssignmentId, leaderInvitation⟩

/-- The expiry sweep deletes a pending FAU whose signup has expired. -/
def expirePendingTenants (moment : Moment) : Tx Nat := do
  let due ← select fun s =>
    s.tenant.any (·.status = .pending) && s.signup.any (·.expiresAt ≤ moment.now)
  if due then do
    update fun s => { s with tenant := none, signup := none }
    pure 1
  else pure 0

end FauPortalen.Membership

import FauPortalen.Membership.Profile

/-! Invitations: issuing, re-sending, withdrawing and accepting them. -/

namespace FauPortalen.Membership

open Foundations Transaction

variable [OsloZone]

-----------------------------------------------------------------------------------------
-- Offered roles

/-- What an issuer offers: an existing role, or a new one created with the invitation. -/
inductive RoleChoice
  | existing (id : Nat)
  /-- A group is named exactly for a guest role. -/
  | new (name : String) (capability : CapabilityClass) (groupId : Option Nat)
deriving DecidableEq

def RoleChoice.isNew : RoleChoice → Bool
  | .existing _ => false
  | .new _ _ _ => true

structure OfferedRole where
  role : RoleChoice
  period : Period
deriving DecidableEq

/-- The role names a group that is archived. -/
def Tables.groupArchived (s : Tables) (role : Role) : Bool :=
  (role.groupId.bind s.group).any (·.archivedAt.isSome)

def resolveExisting (id : Nat) : Tx (Nat × CapabilityClass) := do
  let role ← expect (← select (·.role id)) .unknownRole
  require ((← select (·.groupArchived role)) = false) .groupArchived
  pure (id, role.capabilityClass)

/-- A guest role's group must exist and not be archived. -/
def requireLiveGroup (groupId : Option Nat) : Tx Unit := do
  match groupId with
  | some id => do
      let group ← expect (← select (·.group id)) .unknownGroup
      require (group.archivedAt = none) .groupArchived
  | none => pure ()

def createRole (name : String) (capability : CapabilityClass) (groupId : Option Nat)
    : Tx (Nat × CapabilityClass) := do
  require ((capability = .guest) = groupId.isSome) .roleGroupMismatch
  requireLiveGroup groupId
  let id ← select fun s => freshId (s.roles.map (·.id))
  update fun s => { s with roles := s.roles ++ [⟨id, name, capability, none, none, groupId⟩] }
  pure (id, capability)

def resolveChoice (choice : RoleChoice) : Tx (Nat × CapabilityClass) :=
  match choice with
  | .existing id => resolveExisting id
  | .new name capability groupId => createRole name capability groupId

/-- Resolves one offered role after those resolved before it. -/
def resolveRole (today : Date) (resolved : List (Nat × CapabilityClass × Period))
    (offered : OfferedRole)
    : Tx (List (Nat × CapabilityClass × Period)) := do
  require (offered.period.hasEndedBy today = false) .periodAlreadyEnded
  let (roleId, capability) ← resolveChoice offered.role
  require (roleId ∉ resolved.map (·.1)) .duplicateRole
  pure (resolved ++ [(roleId, capability, offered.period)])

/-- Resolves offered roles to role ids, creating new ones. Refuses an empty list, a duplicate, an
unknown role and a period that has already ended.
-/
def resolveRoles (offered : List OfferedRole) (today : Date)
    : Tx (List (Nat × CapabilityClass × Period)) := do
  require (offered ≠ []) .noRolesOffered
  offered.foldlM (resolveRole today) []

-----------------------------------------------------------------------------------------
-- Issuing

structure NewInvitation where
  mode : InvitationMode
  recipient : Email
  issuedBy : Option Nat
  handoverGrantId : Option Nat
  accessRequestId : Option Nat
  recoveryHolder : Option RecoveryHolder
  roles : List (Nat × Period)
  id : Option Nat
  encryptedMessage : Option String

structure IssuedInvitation where
  invitationId : Nat
  token : Nat
  expiresAt : Timestamp
deriving DecidableEq

/-- A token the random source has not given before. -/
def generateToken : Tx Nat := do
  let token ← select (·.nextToken)
  update fun s => { s with nextToken := token + 1 }
  pure token

/-- The pending invitation as it is written. -/
def NewInvitation.row (new : NewInvitation) (id token : Nat) (expiresAt : Timestamp)
    : Invitation where
  id := id
  token := token
  mode := new.mode
  recipient := new.recipient
  issuedBy := new.issuedBy
  handoverGrantId := new.handoverGrantId
  accessRequestId := new.accessRequestId
  recoveryHolder := new.recoveryHolder
  expiresAt := expiresAt
  acceptedAt := none
  acceptedMembershipId := none
  revokedAt := none
  encryptedMessage := new.encryptedMessage
  roles := new.roles

/-- Writes an invitation with its roles. Every path that issues one goes through here. -/
def insertInvitation (new : NewInvitation) (now : Timestamp) : Tx IssuedInvitation := do
  let token ← generateToken
  let id ← select fun s => new.id.getD (freshId (s.invitations.map (·.id)))
  require ((← select (·.invitation id)) = none) .uniqueViolation
  let expiresAt := invitationExpiry now
  update fun s => { s with invitations := s.invitations ++ [new.row id token expiresAt] }
  pure ⟨id, token, expiresAt⟩

/-- The ciphertext of a message and the row it is bound to. -/
structure BoundMessage where
  id : Nat
  ciphertext : String

def messageMaxBytes : Nat := 4096

structure IssueInvitation where
  actorMembershipId : Nat
  recipient : Email
  roles : List OfferedRole
  /-- Some issues a `handover` invitation under the actor's grant, none a `normal` one. -/
  handoverGrantId : Option Nat
  message : Option BoundMessage

/-- The role exists and is a guest's. -/
def Tables.offersGuest (s : Tables) (offered : OfferedRole) : Bool :=
  match offered.role with
  | .existing id => (s.role id).any (·.capabilityClass = .guest)
  | .new _ _ _ => false

/-- The mode the actor's authority gives. Under a handover grant only existing roles may be
offered, none of them a guest's, and not to the actor's own address.
-/
def issuingMode (req : IssueInvitation) (today : Date) : Tx InvitationMode := do
  match req.handoverGrantId with
  | none => do
      requireAdmin req.actorMembershipId today
      pure .normal
  | some grantId => do
      require (← select (·.handoverGrantValid grantId req.actorMembershipId today)) .notAuthorized
      require (req.roles.any (·.role.isNew) = false) .notAuthorized
      require ((← select fun s => req.roles.any s.offersGuest) = false) .notAuthorized
      let own ← expect (← select (·.usableMemberEmail req.actorMembershipId)) .notAuthorized
      require (own ≠ req.recipient) .selfInvitation
      pure .handover

def issueInvitation (req : IssueInvitation) (moment : Moment) : Tx IssuedInvitation := do
  require (req.message.all (·.ciphertext.utf8ByteSize ≤ messageMaxBytes)) .messageTooLong
  let state ← lockTenant
  requireOpen state
  let mode ← issuingMode req moment.today
  let roles ← resolveRoles req.roles moment.today
  require (¬ (mode = .handover ∧ roles.any (·.2.1 = .guest))) .notAuthorized
  insertInvitation
    { mode := mode
      recipient := req.recipient
      issuedBy := some req.actorMembershipId
      handoverGrantId := req.handoverGrantId
      accessRequestId := none
      recoveryHolder := none
      roles := roles.map fun role => (role.1, role.2.2)
      id := req.message.map (·.id)
      encryptedMessage := req.message.map (·.ciphertext) }
    moment.now

-----------------------------------------------------------------------------------------
-- Re-sending and withdrawing

structure InvitationChange where
  actorMembershipId : Nat
  invitationId : Nat

inductive ChangeKind
  | resend
  | withdraw
deriving DecidableEq

/-- What an invitation's own issuer may do to it without being an admin. -/
def issuerMayChange (actor : Nat) (inv : Invitation) (today : Date) (kind : ChangeKind)
    : Tx Bool :=
  match inv.mode, inv.handoverGrantId, kind with
  | .handover, some grantId, .resend => select (·.handoverGrantValid grantId actor today)
  | .handover, some _, .withdraw => select (·.membershipUsable actor)
  | .normal, _, .withdraw => select (·.membershipUsable actor)
  | _, _, _ => pure false

/-- Any admin valid today may change any invitation. Otherwise its issuer may: a handover issuer
re-sends while their grant is valid, and any issuer with a usable membership withdraws.
-/
def authorizeChange (change : InvitationChange) (inv : Option Invitation) (today : Date)
    (kind : ChangeKind)
    : Tx Unit := do
  if ← select (·.isAdminToday change.actorMembershipId today) then pure ()
  else do
    let inv ← expect inv .notAuthorized
    require (inv.issuedBy = some change.actorMembershipId) .notAuthorized
    let allowed ← issuerMayChange change.actorMembershipId inv today kind
    require allowed .notAuthorized

/-- Changes the invitation's row. -/
def updateInvitation (id : Nat) (change : Invitation → Invitation) : Tx Unit :=
  update fun s => { s with invitations := s.invitations.map (changeAt Invitation.id id change) }

/-- The invitation offers a guest role of a group that is archived. -/
def Tables.offersArchivedGroup (s : Tables) (inv : Invitation) : Bool :=
  inv.roles.any fun offered => (s.role offered.1).any s.groupArchived

/-- Re-sends a pending invitation: a new token replaces the old one, and the 14 days restart. -/
def resendInvitation (change : InvitationChange) (moment : Moment) : Tx IssuedInvitation := do
  let state ← lockTenant
  let inv ← select (·.invitation change.invitationId)
  authorizeChange change inv moment.today .resend
  requireOpen state
  let inv ← expect inv .unknownInvitation
  require (inv.acceptedAt = none ∧ inv.revokedAt = none) .invitationNotPending
  require ((← select (·.offersArchivedGroup inv)) = false) .groupArchived
  let token ← generateToken
  let expiresAt := invitationExpiry moment.now
  updateInvitation change.invitationId ({ · with token := token, expiresAt := expiresAt })
  pure ⟨change.invitationId, token, expiresAt⟩

/-- Withdraws a pending invitation. Allowed while the FAU is frozen. -/
def withdrawInvitation (change : InvitationChange) (moment : Moment) : Tx Unit := do
  let _ ← lockTenant
  let inv ← select (·.invitation change.invitationId)
  authorizeChange change inv moment.today .withdraw
  let inv ← expect inv .unknownInvitation
  require (inv.acceptedAt = none ∧ inv.revokedAt = none) .invitationNotPending
  updateInvitation change.invitationId ({ · with revokedAt := some moment.now })

-----------------------------------------------------------------------------------------
-- Accepting

structure AcceptInvitation where
  token : Nat
  /-- The address the person just verified. -/
  acceptor : Email
  /-- The leader's own choice of end date for an activation's admin role. -/
  adminEndOverride : Option Date
  profile : MemberProfile

structure Accepted where
  accountId : Nat
  membershipId : Nat
  assignmentIds : List Nat
deriving DecidableEq

/-- The invitation with the token, read before any lock is taken. -/
def Tables.invitationByToken (s : Tables) (token : Nat) : Option Nat :=
  (findRow Invitation.token token s.invitations).map (·.id)

/-- What the acceptance rule needs, read under the lock. -/
def Tables.acceptanceSnapshot (s : Tables) (inv : Invitation) (acceptor : Email) (state : Tenant)
    (today : Date)
    : AcceptanceSnapshot where
  mode := inv.mode
  expiresAt := inv.expiresAt
  accepted := inv.acceptedAt.isSome
  revoked := inv.revokedAt.isSome
  recipient := inv.recipient
  acceptor := acceptor
  acceptorAccountDisabled :=
    (findRow Account.email acceptor s.accounts).any (·.disabledAt.isSome)
  tenantStatus := state.status
  tenantFrozen := state.frozen
  issuerAdminToday :=
    match inv.mode, inv.issuedBy with
    | .normal, some issuer => s.isAdminToday issuer today
    | _, _ => false
  handoverGrantValidToday :=
    match inv.mode, inv.handoverGrantId, inv.issuedBy with
    | .handover, some grantId, some issuer => s.handoverGrantValid grantId issuer today
    | _, _, _ => false
  tenantHasAdminToday := if inv.mode = .recovery then (AdminState.load s).hasAdmin today else true
  recoverySeatMatchesToday :=
    match inv.mode, inv.recoveryHolder with
    | .recovery, some holder => s.recoveryContact.any (·.holder = holder)
    | _, _ => true

/-- Reads one offered role with its class, refused when its group has been archived. -/
def offeredRole (read : List (Nat × CapabilityClass × Period)) (offered : Nat × Period)
    : Tx (List (Nat × CapabilityClass × Period)) := do
  let role ← expect (← select (·.role offered.1)) .unknownRole
  require ((← select (·.groupArchived role)) = false) .groupArchived
  pure (read ++ [(offered.1, role.capabilityClass, offered.2)])

/-- An admin role ends where the leader chose, any other role where it was offered to. -/
def overrideEnd (ends : Date) (read : List (Nat × CapabilityClass × Period))
    (role : Nat × CapabilityClass × Period)
    : Tx (List (Nat × CapabilityClass × Period)) := do
  if role.2.1 = .admin then do
    let period ← expect (Period.new role.2.2.startsOn ends) .emptyPeriod
    pure (read ++ [(role.1, role.2.1, period)])
  else pure (read ++ [role])

/-- The roles an acceptance gives: those offered, an activation's admin role up to the override.
-/
def acceptedRoles (inv : Invitation) (adminEndOverride : Option Date) (today : Date)
    : Tx (List (Nat × CapabilityClass × Period)) := do
  let roles ← (sortOn (·.1) inv.roles).foldlM offeredRole []
  match adminEndOverride with
  | none => pure roles
  | some ends => do
      require (inv.mode = .activation) .overrideNotAllowed
      check (validateAdminEnd today ends) .adminEnd
      roles.foldlM (overrideEnd ends) []

/-- Inserts one accepted role for the membership. -/
def insertAccepted (membershipId : Nat) (issuedBy : Option Nat) (ids : List Nat)
    (role : Nat × CapabilityClass × Period)
    : Tx (List Nat) := do
  let id ← insertAssignment membershipId role.1 role.2.2 issuedBy
  pure (ids ++ [id])

/-- Accepts the invitation that was found by its token before the lock: the token is checked
again under it, then every check of the acceptance, then the account, the membership with its
profile, the roles and the acceptance mark.
-/
def acceptInvitation (found : Nat) (req : AcceptInvitation) (moment : Moment) : Tx Accepted := do
  req.profile.check
  let state ← lockTenant
  let inv ← expect ((← select (·.invitation found)).filter (·.token = req.token))
    .unknownInvitation
  let snapshot ← select (·.acceptanceSnapshot inv req.acceptor state moment.today)
  check (checkAcceptance snapshot moment.now) .acceptance
  let roles ← acceptedRoles inv req.adminEndOverride moment.today
  let (accountId, _) ← upsertVerifiedAccount req.acceptor moment.now
  let (membershipId, _, alreadyCurrent) ←
    ensureMembership accountId req.profile.membershipId moment
  writeProfile req.profile alreadyCurrent
  let assignmentIds ← roles.foldlM (insertAccepted membershipId inv.issuedBy) []
  updateInvitation found ({ · with
    acceptedAt := some moment.now, acceptedMembershipId := some membershipId })
  pure ⟨accountId, membershipId, assignmentIds⟩

end FauPortalen.Membership

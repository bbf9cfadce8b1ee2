import FauPortalen.Foundations.KeyedRows
import FauPortalen.Foundations.Transactions
import FauPortalen.Membership.Acceptance
import FauPortalen.Membership.Access
import FauPortalen.Membership.History
import FauPortalen.Membership.Rules

/-! The tables one FAU's transactions read and write: the global accounts and the FAU's own rows,
with the reads that several transactions share.
-/

namespace FauPortalen.Membership

open Foundations Transaction

-----------------------------------------------------------------------------------------
-- Rows

structure Account where
  id : Nat
  email : Email
  verifiedAt : Option Timestamp
  disabledAt : Option Timestamp
  retentionMonths : RetentionMonths
deriving DecidableEq

structure Tenant where
  status : TenantStatus
  frozen : Bool
deriving DecidableEq

/-- The signup form of a pending FAU. -/
structure TenantSignup where
  registrantEmail : Email
  leaderEmail : Email
  adminEndsOnExclusive : Date
  expiresAt : Timestamp
deriving DecidableEq

structure RecoveryContact where
  holder : RecoveryHolder
  nomineeEmail : Option Email
deriving DecidableEq

structure MembershipRow where
  id : Nat
  accountId : Nat
  revokedAt : Option Timestamp
  encryptedDisplayName : Option Ciphertext
  encryptedContactEmail : Option Ciphertext
  nameErasedAt : Option Timestamp
  /-- The first day the fields of an ended membership are no longer kept. -/
  profileRetainedUntil : Option Date
deriving DecidableEq

structure Role where
  id : Nat
  name : String
  capabilityClass : CapabilityClass
  unitId : Option Nat
  cohortId : Option Nat
  groupId : Option Nat
deriving DecidableEq

structure RoleAssignment where
  id : Nat
  membershipId : Nat
  roleId : Nat
  period : Period
  grantedBy : Option Nat
  revokedAt : Option Timestamp
deriving DecidableEq

structure HandoverGrant where
  id : Nat
  sourceAssignmentId : Nat
  period : Period
  revokedAt : Option Timestamp
deriving DecidableEq

structure AccessRequest where
  id : Nat
  kind : RequestKind
  requesterEmail : Email
  inviteeEmail : Email
  requesterMembershipId : Option Nat
  replacedAssignmentId : Option Nat
  proposed : Option Period
  encryptedMessage : Option String
  status : RequestStatus
  createdOn : Date
  decidedBy : Option Nat
  closedAt : Option Timestamp
deriving DecidableEq

/-- An invitation with the roles it offers, each with its period. A token stands for its hash.
-/
structure Invitation where
  id : Nat
  token : Nat
  mode : InvitationMode
  recipient : Email
  issuedBy : Option Nat
  handoverGrantId : Option Nat
  accessRequestId : Option Nat
  recoveryHolder : Option RecoveryHolder
  expiresAt : Timestamp
  acceptedAt : Option Timestamp
  acceptedMembershipId : Option Nat
  revokedAt : Option Timestamp
  encryptedMessage : Option String
  roles : List (Nat × Period)
deriving DecidableEq

inductive GroupBinding
  | unit (id : Nat)
  | cohort (id : Nat)
deriving DecidableEq

structure Group where
  id : Nat
  encryptedName : Ciphertext
  visibility : Visibility
  binding : Option GroupBinding
  createdBy : Nat
  archivedAt : Option Timestamp
deriving DecidableEq

structure GroupMember where
  id : Nat
  groupId : Nat
  membershipId : Nat
  addedBy : Nat
  addedAt : Timestamp
  removedAt : Option Timestamp
deriving DecidableEq

/-- An organization unit or a cohort. -/
structure Place where
  id : Nat
  name : String
deriving DecidableEq

structure Tables where
  accounts : List Account
  /-- None once the expiry sweep has deleted a pending FAU. -/
  tenant : Option Tenant
  signup : Option TenantSignup
  recoveryContact : Option RecoveryContact
  memberships : List MembershipRow
  roles : List Role
  assignments : List RoleAssignment
  grants : List HandoverGrant
  requests : List AccessRequest
  invitations : List Invitation
  groups : List Group
  groupMembers : List GroupMember
  units : List Place
  cohorts : List Place
  /-- The next token the random source gives; it never gives one twice. -/
  nextToken : Nat
deriving DecidableEq

-----------------------------------------------------------------------------------------
-- Errors

inductive MembershipError
  | adminEnd (error : AdminEndError)
  | emptyPeriod
  | periodAlreadyEnded
  | noRolesOffered
  | duplicateRole
  | signupExpired
  | registrantMismatch
  | unknownTenant
  | tenantNotPending
  | tenantNotActive
  | tenantFrozen
  | notAuthorized
  | selfInvitation
  | accountDisabled
  | unknownInvitation
  | invitationNotPending
  | acceptance (refusal : AcceptanceRefusal)
  | overrideNotAllowed
  | unknownRole
  | notAdminRole
  | unknownMembership
  | unknownAccount
  | membershipRevoked
  | unknownAssignment
  | assignmentAlreadyRevoked
  | roleNotHeldToday
  | wouldLeaveNoAdmin
  | notInNoAdminState
  | roleGroupMismatch
  | replacementDates (error : ReplacementDateError)
  | requestLimit (limit : RequestLimit)
  | messageTooLong
  | unknownRequest
  | requestNotPending
  | unknownGroup
  | groupArchived
  | alreadyInGroup
  | notInGroup
  | membershipEndedInviteAsGuest
  | groupNameMalformed
  | unknownUnit
  | unknownCohort
  | displayNameMalformed
  | contactEmailMalformed
  | acceptanceTargetChanged
  | membershipErased
  | membershipEnded
  | emptySelection
  | database (kind : String)
deriving DecidableEq

/-- A second row under one key. -/
def MembershipError.uniqueViolation : MembershipError := .database "sqlstate 23505"

/-- A row that a check constraint refuses. -/
def MembershipError.checkViolation : MembershipError := .database "sqlstate 23514"

/-- A transaction on the tables, all or nothing. -/
abbrev Tx : Type → Type := Transaction Tables MembershipError

/-- A domain rule's verdict as the transaction's. -/
def check {ε α : Type} (verdict : Except ε α) (error : ε → MembershipError) : Tx α :=
  match verdict with
  | .ok a => pure a
  | .error e => Transaction.refuse (error e)

@[simp]
theorem commits_check {ε α : Type} {verdict : Except ε α} {error : ε → MembershipError}
    {s after : Tables} {a : α}
    : (check verdict error).Commits s a after ↔ verdict = .ok a ∧ after = s := by
  cases verdict with
  | ok b => simp [check, eq_comm]
  | error e => simp [check]

theorem commits_check_bind {ε α β : Type} {verdict : Except ε α} {error : ε → MembershipError}
    {s after : Tables} {next : α → Tx β} {b : β}
    : (check verdict error >>= next).Commits s b after
      ↔ ∃ a, verdict = .ok a ∧ (next a).Commits s b after := by
  simp [and_assoc]

@[simp]
theorem refuses_check {ε α : Type} {verdict : Except ε α} {error : ε → MembershipError}
    {s : Tables} {refusal : MembershipError}
    : (check verdict error).Refuses s refusal ↔ ∃ e, verdict = .error e ∧ refusal = error e := by
  cases verdict with
  | ok b => simp [check]
  | error e => simp [check]

-----------------------------------------------------------------------------------------
-- Keys

/-- An id above every id of a table, as a fresh UUIDv7 is. -/
def freshId (ids : List Nat) : Nat := ids.foldr (fun id above => max (id + 1) above) 1

theorem lt_freshId {ids : List Nat} {id : Nat} (used : id ∈ ids) : id < freshId ids := by
  induction ids with
  | nil => cases used
  | cons head rest ih =>
      change id < max (head + 1) (freshId rest)
      rcases List.mem_cons.mp used with rfl | later
      · exact lt_max_of_lt_left (Nat.lt_succ_self _)
      · exact lt_max_of_lt_right (ih later)

theorem freshId_not_mem (ids : List Nat) : freshId ids ∉ ids :=
  fun used => Nat.lt_irrefl _ (lt_freshId used)

-----------------------------------------------------------------------------------------
-- Usable memberships and administrators

def Account.usable (account : Account) : Bool :=
  account.disabledAt.isNone && account.verifiedAt.isSome

def RoleAssignment.validOn (assignment : RoleAssignment) (day : Date) : Bool :=
  assignment.revokedAt.isNone && assignment.period.contains day

namespace Tables

variable (s : Tables)

def account (id : Nat) : Option Account := findRow Account.id id s.accounts
def membership (id : Nat) : Option MembershipRow := findRow MembershipRow.id id s.memberships
def role (id : Nat) : Option Role := findRow Role.id id s.roles
def invitation (id : Nat) : Option Invitation := findRow Invitation.id id s.invitations
def group (id : Nat) : Option Group := findRow Group.id id s.groups

/-- The account behind the membership is verified and not disabled. -/
def accountUsable (m : MembershipRow) : Bool :=
  s.accounts.any fun a => a.id = m.accountId && a.usable

/-- The membership is not revoked, and its account is verified and not disabled. -/
def usable (m : MembershipRow) : Bool := m.revokedAt.isNone && s.accountUsable m

/-- The assignment's role has the class. -/
def ofClass (capabilityClass : CapabilityClass) (ra : RoleAssignment) : Bool :=
  s.roles.any fun r => r.id = ra.roleId && r.capabilityClass = capabilityClass

/-- The membership with this id is usable. -/
def membershipUsable (membershipId : Nat) : Bool :=
  s.memberships.any fun m => m.id = membershipId && s.usable m

/-- The membership holds an admin-class role valid today, through a usable membership. -/
def isAdminToday (membershipId : Nat) (today : Date) : Bool :=
  s.memberships.any fun m => m.id = membershipId && s.usable m
    && s.assignments.any fun ra =>
        ra.membershipId = m.id && s.ofClass .admin ra && ra.validOn today

/-- The revocation state of a membership and whether it is usable. -/
def membershipAndAccountState (membershipId : Nat) : Option (Bool × Bool) :=
  (s.membership membershipId).map fun m => (m.revokedAt.isSome, s.usable m)

/-- The account address behind a usable membership. -/
def usableMemberEmail (membershipId : Nat) : Option Email :=
  ((s.membership membershipId).filter s.usable).bind fun m => (s.account m.accountId).map (·.email)

/-- The assignment is held through a usable membership, of the holder when one is given. -/
def heldThroughUsable (ra : RoleAssignment) : Bool :=
  s.memberships.any fun m => m.id = ra.membershipId && s.usable m

/-- The grant is valid today and still belongs to the membership, through a usable membership and
an unrevoked source assignment.
-/
def handoverGrantValid (grantId membershipId : Nat) (today : Date) : Bool :=
  s.grants.any fun g => g.id = grantId && g.revokedAt.isNone && g.period.contains today
    && s.assignments.any fun ra =>
        ra.id = g.sourceAssignmentId && ra.membershipId = membershipId
          && ra.revokedAt.isNone && s.heldThroughUsable ra

end Tables

-----------------------------------------------------------------------------------------
-- The admin state behind the last-admin safeguard

structure AdminAssignmentRow where
  id : Nat
  membershipId : Nat
  view : AssignmentView

structure GrantRow where
  sourceAssignmentId : Nat
  membershipId : Nat
  view : GrantView

/-- Every admin-class assignment and handover grant held through a usable membership. -/
structure AdminState where
  assignments : List AdminAssignmentRow
  grants : List GrantRow

namespace AdminState

def load (s : Tables) : AdminState where
  assignments :=
    (s.assignments.filter fun ra => s.ofClass .admin ra && s.heldThroughUsable ra).map fun ra =>
      ⟨ra.id, ra.membershipId, .admin, ra.period, ra.revokedAt.isSome⟩
  grants := s.grants.flatMap fun g =>
    (s.assignments.filter fun ra =>
        ra.id = g.sourceAssignmentId && ra.revokedAt.isNone && s.heldThroughUsable ra).map fun ra =>
      ⟨g.sourceAssignmentId, ra.membershipId, g.period, g.revokedAt.isSome⟩

def hasAdmin (state : AdminState) (today : Date) : Bool :=
  tenantHasAdmin (state.assignments.map (·.view)) (state.grants.map (·.view)) today

/-- The last-admin safeguard: refuses, unless confirmed, to end the removed rows when that leaves
the FAU without an admin; says whether it does. A grant goes with its source assignment.
-/
def checkLastAdmin (state : AdminState) (today : Date) (confirmNoAdmin : Bool)
    (removed : Nat → Nat → Bool)
    : Except MembershipError Bool :=
  let (goneA, keptA) := state.assignments.partition fun r => removed r.id r.membershipId
  let (goneG, keptG) := state.grants.partition fun r => removed r.sourceAssignmentId r.membershipId
  let leavesNone := removalLeavesNoAdmin (keptA.map (·.view)) (keptG.map (·.view))
    (goneA.map (·.view)) (goneG.map (·.view)) today
  if leavesNone && !confirmNoAdmin then .error .wouldLeaveNoAdmin else .ok leavesNone

end AdminState

-----------------------------------------------------------------------------------------
-- A membership's access, its end and the roles it held

section

variable [OsloZone] (s : Tables)

/-- The roles of the membership as the access rule needs them. -/
def Tables.rolesOf (membershipId : Nat) : List AssignmentView :=
  (s.assignments.filter (·.membershipId = membershipId)).filterMap fun ra =>
    (s.role ra.roleId).map fun r => ⟨r.capabilityClass, ra.period, ra.revokedAt.isSome⟩

/-- The grants of the membership's unrevoked roles. -/
def Tables.grantsOf (membershipId : Nat) : List GrantView :=
  (s.grants.filter fun g => (s.assignments.filter (·.membershipId = membershipId)).any fun ra =>
    ra.id = g.sourceAssignmentId && ra.revokedAt.isNone).map fun g =>
      ⟨g.period, g.revokedAt.isSome⟩

/-- What a membership may do on a day; an unknown one has no access. -/
def Tables.membershipAccess (membershipId : Nat) (today : Date) : Access :=
  match s.membership membershipId with
  | none => .none
  | some m =>
      let standing : Standing :=
        ⟨s.tenant.any (·.status = .active), s.accountUsable m, m.revokedAt.isNone⟩
      evaluateAccess standing (s.rolesOf membershipId) (s.grantsOf membershipId) today

omit [OsloZone] in
theorem Tables.membershipAccess_none {s : Tables} {membershipId : Nat} {today : Date}
    (unknown : s.membership membershipId = none)
    : s.membershipAccess membershipId today = .none := by
  rw [membershipAccess, unknown]

omit [OsloZone] in
theorem Tables.membershipAccess_some {s : Tables} {membershipId : Nat} {today : Date}
    {m : MembershipRow} (found : s.membership membershipId = some m)
    : s.membershipAccess membershipId today
      = evaluateAccess
          ⟨s.tenant.any (·.status = .active), s.accountUsable m, m.revokedAt.isNone⟩
          (s.rolesOf membershipId) (s.grantsOf membershipId) today := by
  rw [membershipAccess, found]

/-- The membership is revoked, or no role of it still runs or is yet to start. -/
def Tables.membershipEnded (m : MembershipRow) (today : Date) : Bool :=
  m.revokedAt.isSome || !s.assignments.any fun ra =>
    ra.membershipId = m.id && ra.revokedAt.isNone && today < ra.period.endsOnExclusive

omit [OsloZone] in
theorem Tables.membershipEnded_iff {s : Tables} {m : MembershipRow} {today : Date}
    : s.membershipEnded m today = true
      ↔ m.revokedAt.isSome = true ∨ ∀ ra ∈ s.assignments, ra.membershipId = m.id →
          ra.revokedAt = none → ra.period.endsOnExclusive ≤ today := by
  simp [Tables.membershipEnded, List.any_eq_false]

/-- The day up to which an assignment was held: an early revocation ends it on its Oslo date. -/
def RoleAssignment.heldUntil (ra : RoleAssignment) : Date :=
  match ra.revokedAt with
  | some at_ => min ra.period.endsOnExclusive (osloToday at_)
  | none => ra.period.endsOnExclusive

/-- The roles the membership held, over the days held, ordered by start. -/
def Tables.heldRoles (membershipId : Nat) : List HeldRole :=
  let held := (s.assignments.filter (·.membershipId = membershipId)).filter fun ra =>
    ra.period.startsOn < ra.heldUntil
  (sortOn (fun ra => toLex (ra.period.startsOn, ra.id)) held).filterMap fun ra =>
    (s.role ra.roleId).map fun r => ⟨r.name, r.capabilityClass, ra.period.startsOn, ra.heldUntil⟩

end

end FauPortalen.Membership

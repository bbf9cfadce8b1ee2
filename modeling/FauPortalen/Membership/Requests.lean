import FauPortalen.Membership.Invitations

/-! Access requests and replacement proposals: one table, one approval path, the same statuses. -/

namespace FauPortalen.Membership

open Foundations Transaction

variable [OsloZone]

-----------------------------------------------------------------------------------------
-- Creating

structure CreateAccessRequest where
  /-- The requester's verified address. -/
  requester : Email
  message : Option BoundMessage

def checkLimits (requesterEmail : Email) (today : Date) : Tx Unit := do
  let opened ← select fun s => s.requests.countP fun ar =>
    ar.requesterEmail = requesterEmail && ar.status = .pending
  let createdToday ← select fun s => s.requests.countP (·.createdOn = today)
  check (checkRequestLimits opened createdToday) .requestLimit

/-- Inserts a pending request under the id given, or a fresh one. -/
def insertRequest (id : Option Nat) (request : Nat → AccessRequest) : Tx Nat := do
  let id ← select fun s => id.getD (freshId (s.requests.map (·.id)))
  require (id ∉ (← select (·.requests)).map (·.id)) .uniqueViolation
  update fun s => { s with requests := s.requests ++ [request id] }
  pure id

/-- A request that the limits admit: the id given with its message, and the row under an id. -/
structure Admitted where
  id : Option Nat
  row : Nat → AccessRequest
  named : ∀ id, (row id).id = id

/-- What creating an access request checks before it writes. -/
def admitAccessRequest (req : CreateAccessRequest) (moment : Moment) : Tx Admitted := do
  require (req.message.all (·.ciphertext.utf8ByteSize ≤ messageMaxBytes)) .messageTooLong
  let state ← lockTenant
  requireOpen state
  checkLimits req.requester moment.today
  pure {
    id := req.message.map (·.id)
    row := fun id =>
      { id := id
        kind := .access
        requesterEmail := req.requester
        inviteeEmail := req.requester
        requesterMembershipId := none
        replacedAssignmentId := none
        proposed := none
        encryptedMessage := req.message.map (·.ciphertext)
        status := .pending
        createdOn := moment.today
        decidedBy := none
        closedAt := none }
    named := fun _ => rfl }

def createAccessRequest (req : CreateAccessRequest) (moment : Moment) : Tx Nat := do
  let new ← admitAccessRequest req moment
  insertRequest new.id new.row

structure CreateReplacementProposal where
  proposerMembershipId : Nat
  /-- One of the proposer's own assignments, valid today. -/
  replacedAssignmentId : Nat
  successor : Email
  startsOn : Date
  endsOnExclusive : Date

/-- What proposing a successor checks before it writes. -/
def admitReplacementProposal (req : CreateReplacementProposal) (moment : Moment) : Tx Admitted := do
  let state ← lockTenant
  requireOpen state
  let proposerEmail ← expect (← select (·.usableMemberEmail req.proposerMembershipId))
    .notAuthorized
  let held ← expect ((← select (findRow RoleAssignment.id req.replacedAssignmentId ·.assignments)).filter
    (·.membershipId = req.proposerMembershipId)) .notAuthorized
  require (held.validOn moment.today) .roleNotHeldToday
  let proposed ← check (checkReplacementDates moment.today req.startsOn req.endsOnExclusive)
    .replacementDates
  checkLimits proposerEmail moment.today
  pure {
    id := none
    row := fun id =>
      { id := id
        kind := .replacement
        requesterEmail := proposerEmail
        inviteeEmail := req.successor
        requesterMembershipId := some req.proposerMembershipId
        replacedAssignmentId := some req.replacedAssignmentId
        proposed := some proposed
        encryptedMessage := none
        status := .pending
        createdOn := moment.today
        decidedBy := none
        closedAt := none }
    named := fun _ => rfl }

def createReplacementProposal (req : CreateReplacementProposal) (moment : Moment) : Tx Nat := do
  let new ← admitReplacementProposal req moment
  insertRequest new.id new.row

-----------------------------------------------------------------------------------------
-- Deciding and lapsing

structure RequestDecision where
  actorMembershipId : Nat
  requestId : Nat

def lockPendingRequest (requestId : Nat) : Tx AccessRequest := do
  let ar ← expect (← select (findRow AccessRequest.id requestId ·.requests)) .unknownRequest
  require (ar.status = .pending) .requestNotPending
  pure ar

def closeRequest (decision : RequestDecision) (status : RequestStatus) (now : Timestamp) : Tx Unit :=
  update fun s => { s with
    requests := s.requests.map (changeAt AccessRequest.id decision.requestId fun ar =>
      { ar with
        status := status
        decidedBy := some decision.actorMembershipId
        closedAt := some now }) }

/-- An approval up to the lock on its request. -/
def beginApproval (decision : RequestDecision) (moment : Moment) : Tx AccessRequest := do
  let state ← lockTenant
  requireOpen state
  requireAdmin decision.actorMembershipId moment.today
  lockPendingRequest decision.requestId

/-- An approval from the lock on its request. -/
def finishApproval (decision : RequestDecision) (request : AccessRequest)
    (roles : List OfferedRole) (moment : Moment)
    : Tx IssuedInvitation := do
  let roles ← resolveRoles roles moment.today
  let issued ← insertInvitation
    { mode := .normal
      recipient := request.inviteeEmail
      issuedBy := some decision.actorMembershipId
      handoverGrantId := none
      accessRequestId := some decision.requestId
      recoveryHolder := none
      roles := roles.map fun role => (role.1, role.2.2)
      id := none
      encryptedMessage := none }
    moment.now
  closeRequest decision .approved moment.now
  pure issued

/-- Approves a pending request with a normal invitation to its invitee, offering the roles the
admin chose.
-/
def approveRequest (decision : RequestDecision) (roles : List OfferedRole) (moment : Moment)
    : Tx IssuedInvitation := do
  let request ← beginApproval decision moment
  finishApproval decision request roles moment

/-- A refusal up to the lock on its request. -/
def beginDecline (decision : RequestDecision) (moment : Moment) : Tx AccessRequest := do
  let _ ← lockTenant
  requireAdmin decision.actorMembershipId moment.today
  lockPendingRequest decision.requestId

/-- Declines a pending request. Allowed while the FAU is frozen. -/
def declineRequest (decision : RequestDecision) (moment : Moment) : Tx Unit := do
  let _ ← beginDecline decision moment
  closeRequest decision .declined moment.now

/-- The FAU's share of the sweep: requests pending for 30 days lapse. Takes no tenant lock. -/
def lapseRequests (moment : Moment) : Tx Nat := do
  let due (ar : AccessRequest) : Bool :=
    ar.status = .pending && ar.createdOn ≤ lapseCutoff moment.today
  let lapsed ← select (·.requests.countP due)
  update fun s => { s with
    requests := s.requests.map fun ar =>
      if due ar then { ar with status := .lapsed, closedAt := some moment.now } else ar }
  pure lapsed

end FauPortalen.Membership

import FauPortalen.Membership.Roles

/-! Handover grants, written by the daily sweep, and the recovery contact's admin grant. -/

namespace FauPortalen.Membership

open Foundations Transaction

variable [OsloZone]

/-- The ended, unrevoked admin roles of usable memberships that have no grant yet. -/
def Tables.grantCandidates (s : Tables) (today : Date) : List RoleAssignment :=
  s.assignments.filter fun ra =>
    s.ofClass .admin ra && ra.revokedAt.isNone && s.heldThroughUsable ra
      && ra.period.hasEndedBy today && !s.grants.any (·.sourceAssignmentId = ra.id)

/-- Inserts the grant of one ended role, unless its window is over or it has one. -/
def insertGrant (today : Date) (created : Nat) (ra : RoleAssignment) : Tx Nat := do
  match handoverPeriod ra.period.endsOnExclusive with
  | none => pure created
  | some window =>
      if window.hasEndedBy today || (← select (·.grants.any (·.sourceAssignmentId = ra.id))) then
        pure created
      else do
        let id ← select fun s => freshId (s.grants.map (·.id))
        update fun s => { s with grants := s.grants ++ [⟨id, ra.id, window, none⟩] }
        pure (created + 1)

/-- The FAU's share of the sweep: every naturally ended admin role gets its grant, from the role's
end however late the sweep is. Gives how many it created.
-/
def createTenantHandoverGrants (moment : Moment) : Tx Nat := do
  let state ← lockTenant
  if state.status ≠ .active then pure 0
  else do
    let candidates ← select (·.grantCandidates moment.today)
    candidates.foldlM (insertGrant moment.today) 0

/-- The FAU has an ended, unrevoked admin role without a grant. Read before the lock, this only
narrows which FAUs are visited.
-/
def Tables.awaitsHandover (s : Tables) (today : Date) : Bool :=
  s.assignments.any fun ra =>
    s.ofClass .admin ra && ra.revokedAt.isNone && ra.period.hasEndedBy today
      && !s.grants.any (·.sourceAssignmentId = ra.id)

/-- The sweep, as far as it concerns this FAU. -/
def createHandoverGrants (moment : Moment) : Tx Nat := do
  if ← select (·.awaitsHandover moment.today) then createTenantHandoverGrants moment
  else pure 0

/-- Which seat the recovery contact claims. -/
inductive RecoveryActor
  | ewb
  | schoolRep (email : Email)
deriving DecidableEq

structure RecoveryGrant where
  actor : RecoveryActor
  recipient : Email
  role : RoleChoice
  period : Period

/-- The operator's own address. -/
def ewbOversightAddress : Email := ⟨"fau@ewb-solutions.as"⟩

/-- The address of an actor that holds the seat. -/
def RecoveryContact.ownAddress (seat : RecoveryContact) (actor : RecoveryActor) : Option Email :=
  match actor, seat.holder with
  | .ewb, .ewb => some ewbOversightAddress
  | .schoolRep email, .schoolRep => if seat.nomineeEmail = some email then some email else none
  | _, _ => none

/-- The recovery contact's one power: in an FAU without an admin, an invitation to an existing
admin-class role, not to itself.
-/
def recoveryGrantAdmin (req : RecoveryGrant) (moment : Moment) : Tx IssuedInvitation := do
  let state ← lockTenant
  requireOpen state
  let seat ← expect (← select (·.recoveryContact)) .notAuthorized
  let ownAddress ← expect (seat.ownAddress req.actor) .notAuthorized
  require (req.role.isNew = false) .notAuthorized
  require (req.recipient ≠ ownAddress) .selfInvitation
  require ((← select fun s => (AdminState.load s).hasAdmin moment.today) = false) .notInNoAdminState
  let resolved ← resolveRoles [⟨req.role, req.period⟩] moment.today
  let (roleId, capability, period) ← expect resolved.head? .noRolesOffered
  require (capability = .admin) .notAdminRole
  insertInvitation
    { mode := .recovery
      recipient := req.recipient
      issuedBy := none
      handoverGrantId := none
      accessRequestId := none
      recoveryHolder := some seat.holder
      roles := [(roleId, period)]
      id := none
      encryptedMessage := none }
    moment.now

end FauPortalen.Membership

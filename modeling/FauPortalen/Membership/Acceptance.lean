import FauPortalen.Membership.Vocabulary

/-! Invitation acceptance: the facts read under the lock, and every check in its fixed order. -/

namespace FauPortalen.Membership

structure AcceptanceSnapshot where
  mode : InvitationMode
  expiresAt : Timestamp
  accepted : Bool
  revoked : Bool
  recipient : Email
  /-- The address the provider verified. -/
  acceptor : Email
  acceptorAccountDisabled : Bool
  tenantStatus : TenantStatus
  tenantFrozen : Bool
  /-- `normal`: the issuing membership holds an admin role valid today. -/
  issuerAdminToday : Bool
  /-- `handover`: the linked grant is valid today and still belongs to the issuer. -/
  handoverGrantValidToday : Bool
  /-- `recovery`: an admin today ends the recovery contact's authority. -/
  tenantHasAdminToday : Bool
  /-- `recovery`: the seat that issued the invitation still holds the seat. -/
  recoverySeatMatchesToday : Bool
deriving DecidableEq

inductive AcceptanceRefusal
  | revoked
  | alreadyAccepted
  | expired
  | emailMismatch
  | accountDisabled
  | tenantNotActive
  | tenantFrozen
  | issuerLacksAuthority
deriving DecidableEq

/-- The issuer's authority, by mode. Activation completes the signup form and asks for none. -/
def AcceptanceSnapshot.authorised (s : AcceptanceSnapshot) : Bool :=
  match s.mode with
  | .normal => s.issuerAdminToday
  | .handover => s.handoverGrantValidToday
  | .recovery => !s.tenantHasAdminToday && s.recoverySeatMatchesToday
  | .activation => true

/-- The token's own state first, then the person, then the FAU, then the issuer's authority. -/
def checkAcceptance (s : AcceptanceSnapshot) (now : Timestamp) : Except AcceptanceRefusal Unit :=
  if s.revoked then .error .revoked
  else if s.accepted then .error .alreadyAccepted
  else if s.expiresAt ≤ now then .error .expired
  else if s.recipient ≠ s.acceptor then .error .emailMismatch
  else if s.acceptorAccountDisabled then .error .accountDisabled
  else if s.tenantStatus ≠ .active then .error .tenantNotActive
  else if s.tenantFrozen then .error .tenantFrozen
  else if !s.authorised then .error .issuerLacksAuthority
  else .ok ()

/-- An acceptance passes when the invitation is pending and not expired, goes to its verified
recipient, whose account is not disabled, in an open FAU, and its issuer has authority.
-/
theorem checkAcceptance_eq_ok {s : AcceptanceSnapshot} {now : Timestamp}
    : checkAcceptance s now = .ok ()
      ↔ s.revoked = false ∧ s.accepted = false ∧ now < s.expiresAt
        ∧ s.recipient = s.acceptor ∧ s.acceptorAccountDisabled = false
        ∧ s.tenantStatus = .active ∧ s.tenantFrozen = false ∧ s.authorised = true := by
  unfold checkAcceptance
  repeat' split
  all_goals grind

end FauPortalen.Membership

import FauPortalen.Foundations.EventSystems
import FauPortalen.Membership.Footprints

/-! The runs of one FAU: any of its operations, each a transaction under the tenant lock, with the
token lookups that come before the lock, the passing days, and the changes made elsewhere.
-/

set_option linter.unusedSectionVars false

namespace FauPortalen.Membership

open Foundations Transaction

variable [OsloZone]

-----------------------------------------------------------------------------------------
-- Operations

/-- A request to the membership service. An acceptance goes on with the invitation that it found
by its token before the lock.
-/
inductive Operation
  | issueInvitation (req : IssueInvitation)
  | resendInvitation (change : InvitationChange)
  | withdrawInvitation (change : InvitationChange)
  | acceptInvitation (found : Nat) (req : AcceptInvitation)
  | grantRole (req : GrantRole)
  | revokeRoleAssignment (req : RevokeAssignment)
  | revokeMembership (req : RevokeMembership)
  | createAccessRequest (req : CreateAccessRequest)
  | createReplacementProposal (req : CreateReplacementProposal)
  | approveRequest (decision : RequestDecision) (roles : List OfferedRole)
  | declineRequest (decision : RequestDecision)
  | lapseRequests
  | activateTenant (activation : Activation)
  | expirePendingTenants
  | createTenantHandoverGrants
  | recoveryGrantAdmin (req : RecoveryGrant)
  | clearEndedProfiles
  | setRetentionMonths (accountId : Nat) (months : RetentionMonths)
  | eraseMemberNames (accountId : Nat)
  | setDisplayName (req : SetDisplayName)
  | setContactEmail (req : SetContactEmail)
  | createGroup (req : CreateGroup)
  | renameGroup (req : RenameGroup)
  | setGroupVisibility (req : SetGroupVisibility)
  | archiveGroup (req : ArchiveGroup)
  | addGroupMember (req : GroupMemberChange)
  | removeGroupMember (req : GroupMemberChange)

/-- The transaction commits these tables with some result. -/
def Leaves {α : Type} (transaction : Tx α) (s after : Tables) : Prop :=
  ∃ result, transaction.Commits s result after

namespace Operation

/-- The operation at a moment commits, and leaves these tables. -/
def Commits (op : Operation) (moment : Moment) (s after : Tables) : Prop :=
  match op with
  | issueInvitation req => Leaves (Membership.issueInvitation req moment) s after
  | resendInvitation change => Leaves (Membership.resendInvitation change moment) s after
  | withdrawInvitation change => Leaves (Membership.withdrawInvitation change moment) s after
  | acceptInvitation found req => Leaves (Membership.acceptInvitation found req moment) s after
  | grantRole req => Leaves (Membership.grantRole req moment) s after
  | revokeRoleAssignment req => Leaves (Membership.revokeRoleAssignment req moment) s after
  | revokeMembership req => Leaves (Membership.revokeMembership req moment) s after
  | createAccessRequest req => Leaves (Membership.createAccessRequest req moment) s after
  | createReplacementProposal req =>
      Leaves (Membership.createReplacementProposal req moment) s after
  | approveRequest decision roles =>
      Leaves (Membership.approveRequest decision roles moment) s after
  | declineRequest decision => Leaves (Membership.declineRequest decision moment) s after
  | lapseRequests => Leaves (Membership.lapseRequests moment) s after
  | activateTenant activation => Leaves (Membership.activateTenant activation moment) s after
  | expirePendingTenants => Leaves (Membership.expirePendingTenants moment) s after
  | createTenantHandoverGrants => Leaves (Membership.createTenantHandoverGrants moment) s after
  | recoveryGrantAdmin req => Leaves (Membership.recoveryGrantAdmin req moment) s after
  | clearEndedProfiles => Leaves (Membership.clearEndedProfiles moment) s after
  | setRetentionMonths accountId months =>
      Leaves (Membership.setRetentionMonths accountId months moment) s after
  | eraseMemberNames accountId => Leaves (Membership.eraseMemberNames accountId moment) s after
  | setDisplayName req => Leaves (Membership.setDisplayName req moment) s after
  | setContactEmail req => Leaves (Membership.setContactEmail req moment) s after
  | createGroup req => Leaves (Membership.createGroup req moment) s after
  | renameGroup req => Leaves (Membership.renameGroup req moment) s after
  | setGroupVisibility req => Leaves (Membership.setGroupVisibility req moment) s after
  | archiveGroup req => Leaves (Membership.archiveGroup req moment) s after
  | addGroupMember req => Leaves (Membership.addGroupMember req moment) s after
  | removeGroupMember req => Leaves (Membership.removeGroupMember req moment) s after

/-- What the operation may write. -/
def written : Operation → List Written
  | issueInvitation _ | recoveryGrantAdmin _ => [.roles, .invitations]
  | approveRequest _ _ => [.roles, .invitations, .links, .requestChanges]
  | resendInvitation _ | withdrawInvitation _ => [.invitationChanges]
  | acceptInvitation _ _ =>
      [.accounts, .memberships, .profiles, .returns, .memberRemovals, .assignments,
        .invitationChanges]
  | grantRole _ => [.roles, .profiles, .returns, .memberRemovals, .assignments]
  | revokeRoleAssignment _ => [.revocations, .grantRevocations]
  | revokeMembership _ =>
      [.revocations, .grantRevocations, .profiles, .requestChanges, .memberRemovals]
  | createAccessRequest _ | createReplacementProposal _ => [.requests]
  | declineRequest _ | lapseRequests => [.requestChanges]
  | activateTenant _ =>
      [.tenant, .accounts, .memberships, .profiles, .returns, .memberRemovals, .roles,
        .assignments, .invitations]
  | expirePendingTenants => [.tenant]
  | createTenantHandoverGrants => [.grants]
  | setRetentionMonths _ _ => [.accounts, .profiles]
  | clearEndedProfiles => [.profiles, .memberRemovals]
  | eraseMemberNames _ | setDisplayName _ | setContactEmail _ => [.profiles]
  | createGroup _ | renameGroup _ | setGroupVisibility _ | archiveGroup _ => [.groups]
  | addGroupMember _ => [.memberAdditions]
  | removeGroupMember _ => [.memberRemovals]

/-- Every operation stays within its footprint. -/
theorem Commits.changes {op : Operation} {moment : Moment} {s after : Tables}
    (commits : op.Commits moment s after)
    : s.Changes moment.now op.written after := by
  cases op <;> obtain ⟨result, commits⟩ := commits
  case issueInvitation => exact issueInvitation_within _ _ _ commits
  case resendInvitation => exact resendInvitation_within _ _ _ commits
  case withdrawInvitation => exact withdrawInvitation_within _ _ _ commits
  case acceptInvitation => exact acceptInvitation_within _ _ _ commits
  case grantRole => exact grantRole_within _ _ _ commits
  case revokeRoleAssignment => exact revokeRoleAssignment_within _ _ _ commits
  case revokeMembership => exact revokeMembership_within _ _ _ commits
  case createAccessRequest => exact createAccessRequest_within _ _ _ commits
  case createReplacementProposal => exact createReplacementProposal_within _ _ _ commits
  case approveRequest => exact approveRequest_within _ _ _ commits
  case declineRequest => exact declineRequest_within _ _ _ commits
  case lapseRequests => exact lapseRequests_within _ _ _ commits
  case activateTenant => exact activateTenant_within _ _ _ commits
  case expirePendingTenants => exact expirePendingTenants_within _ _ _ commits
  case createTenantHandoverGrants => exact createTenantHandoverGrants_within _ _ _ commits
  case recoveryGrantAdmin => exact recoveryGrantAdmin_within _ _ _ commits
  case clearEndedProfiles => exact clearEndedProfiles_within _ _ _ commits
  case setRetentionMonths => exact setRetentionMonths_within _ _ _ commits
  case eraseMemberNames => exact eraseMemberNames_within _ _ _ commits
  case setDisplayName => exact setDisplayName_within _ _ _ commits
  case setContactEmail => exact setContactEmail_within _ _ _ commits
  case createGroup => exact createGroup_within _ _ _ commits
  case renameGroup => exact renameGroup_within _ _ _ commits
  case setGroupVisibility => exact setGroupVisibility_within _ _ _ commits
  case archiveGroup => exact archiveGroup_within _ _ _ commits
  case addGroupMember => exact addGroupMember_within _ _ _ commits
  case removeGroupMember => exact removeGroupMember_within _ _ _ commits

end Operation

-----------------------------------------------------------------------------------------
-- Runs

/-- What other FAUs and the operators may change: accounts are created, verified and disabled,
the FAU is frozen, closed or opened, the recovery seat moves, and its places change.
-/
inductive Tables.ChangedOutside (s : Tables) : Tables → Prop
  | becomes {accounts : List Account} {tenant : Option Tenant}
      {recoveryContact : Option RecoveryContact} {units cohorts : List Place} {nextToken : Nat}
      (goOn : Evolves Account.id
        (fun a a' => a.GoesOn a' ∧ a'.retentionMonths = a.retentionMonths) s.accounts accounts)
      (emails : (s.accounts.map (·.email)).Nodup → (accounts.map (·.email)).Nodup)
      (stays : tenant.isSome = s.tenant.isSome) (tokens : s.nextToken ≤ nextToken)
    : s.ChangedOutside
        { s with
          accounts := accounts
          tenant := tenant
          recoveryContact := recoveryContact
          units := units
          cohorts := cohorts
          nextToken := nextToken }

/-- One FAU on a day, with the lookups of the acceptances under way: each token with the
invitation it was found to belong to.
-/
structure FauState where
  tables : Tables
  today : Date
  lookups : List (Nat × Nat)

inductive FauEvent
  | operates (op : Operation) (moment : Moment)
  | looksUp (token found : Nat)
  | passes (day : Date)
  | outside

/-- Days do not go back. An acceptance needs an earlier lookup of its token, however long ago. -/
inductive FauStep : FauState → FauEvent → FauState → Prop
  | operates {s : FauState} {op : Operation} {moment : Moment} {after : Tables}
      (later : s.today ≤ moment.today)
      (lookedUp : ∀ found req, op = .acceptInvitation found req → (req.token, found) ∈ s.lookups)
      (commits : op.Commits moment s.tables after)
    : FauStep s (.operates op moment) ⟨after, moment.today, s.lookups⟩
  | looksUp {s : FauState} {token found : Nat}
      (finds : s.tables.invitationByToken token = some found)
    : FauStep s (.looksUp token found) { s with lookups := (token, found) :: s.lookups }
  | passes {s : FauState} {day : Date} (later : s.today ≤ day)
    : FauStep s (.passes day) { s with today := day }
  | outside {s : FauState} {after : Tables} (changed : s.tables.ChangedOutside after)
    : FauStep s .outside { s with tables := after }

/-- A pending FAU as the signup form leaves it: nothing but the signup, and whatever accounts
there are.
-/
structure Tables.JustSignedUp (s : Tables) : Prop where
  accountIds : (s.accounts.map (·.id)).Nodup
  emails : (s.accounts.map (·.email)).Nodup
  pending : s.tenant = some ⟨.pending, false⟩
  signup : s.signup.isSome
  nothingElse : s = { s with
    recoveryContact := none
    memberships := []
    roles := []
    assignments := []
    grants := []
    requests := []
    invitations := []
    groups := []
    groupMembers := [] }

/-- The runs of one FAU. -/
def fauSystem : EventSystem FauState FauEvent where
  start s := s.tables.JustSignedUp ∧ s.lookups = []
  step := FauStep

namespace FauEvent

/-- The instant the event writes. -/
def now : FauEvent → Timestamp
  | operates _ moment => moment.now
  | looksUp _ _ | passes _ | outside => 0

/-- What the event may write. -/
def written : FauEvent → List Written
  | operates op _ => op.written
  | looksUp _ _ | passes _ => []
  | outside => [.accounts, .tenant]

end FauEvent

theorem Tables.ChangedOutside.changes {s s' : Tables} (changed : s.ChangedOutside s')
    {now : Timestamp}
    : s.Changes now [.accounts, .tenant] s' := by
  cases changed with
  | becomes goOn emails stays tokens =>
      exact { Tables.Changes.refl now [.accounts, .tenant] s with
        accounts := goOn.mono fun _ _ h => h.1
        emails := emails
        tokens := tokens
        tokensGiven := fun given i inside => (given i inside).trans_le tokens
        sameAccounts := fun h => absurd List.mem_cons_self h
        sameTenant := fun h => absurd (List.mem_cons_of_mem _ List.mem_cons_self) h }

variable {s after : FauState} {event : FauEvent}

/-- Every step stays within the footprint of its event. -/
theorem FauStep.changes (stepped : FauStep s event after)
    : s.tables.Changes event.now event.written after.tables := by
  cases stepped with
  | operates later lookedUp commits => exact commits.changes
  | looksUp finds => exact .refl _ _ _
  | passes later => exact .refl _ _ _
  | outside changed => exact changed.changes

theorem FauStep.commits {op : Operation} {moment : Moment}
    (stepped : FauStep s (.operates op moment) after)
    : op.Commits moment s.tables after.tables := by
  cases stepped with
  | operates later lookedUp commits => exact commits

/-- Days do not go back. -/
theorem FauStep.today_le (stepped : FauStep s event after) : s.today ≤ after.today := by
  cases stepped with
  | operates later lookedUp commits => exact later
  | looksUp finds => exact le_refl _
  | passes later => exact later
  | outside changed => exact le_refl _

end FauPortalen.Membership

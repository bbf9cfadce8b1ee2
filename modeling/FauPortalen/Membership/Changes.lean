import FauPortalen.Foundations.EvolvingRows
import FauPortalen.Membership.Directory
import FauPortalen.Membership.Handover
import FauPortalen.Membership.Requests
import FauPortalen.Membership.Signup

/-! What any statement may do to the tables: how each kind of row goes on, and which tables it
leaves alone.
-/

set_option linter.unusedSectionVars false

namespace FauPortalen.Membership

open Foundations Transaction

-----------------------------------------------------------------------------------------
-- How rows go on

/-- What a statement may write. Changes of rows are apart from new rows. -/
inductive Written
  | accounts
  | tenant
  | memberships
  | profiles
  /-- A revoked membership made current. -/
  | returns
  | roles
  | assignments
  | revocations
  | grants
  | grantRevocations
  | requests
  | requestChanges
  | invitations
  | invitationChanges
  /-- An invitation linked to the request it approves. -/
  | links
  | groups
  | memberAdditions
  | memberRemovals
deriving DecidableEq

/-- An account keeps its id and address, and stays verified. -/
structure Account.GoesOn (a a' : Account) : Prop where
  id : a'.id = a.id
  email : a'.email = a.email
  verified : a.verifiedAt.isSome → a'.verifiedAt = a.verifiedAt

/-- A membership keeps its id and account, stays erased, and stays revoked but for a return. -/
structure MembershipRow.GoesOn (written : List Written) (m m' : MembershipRow) : Prop where
  id : m'.id = m.id
  accountId : m'.accountId = m.accountId
  erased : m.nameErasedAt.isSome → m'.nameErasedAt = m.nameErasedAt
  revoked : .returns ∉ written → m.revokedAt.isSome → m'.revokedAt.isSome

/-- An assignment changes by a revocation only, now and for good. -/
structure RoleAssignment.GoesOn (now : Timestamp) (ra ra' : RoleAssignment) : Prop where
  same : ra' = { ra with revokedAt := ra'.revokedAt }
  revokedAt : ra'.revokedAt = ra.revokedAt ∨ ra.revokedAt = none ∧ ra'.revokedAt = some now

/-- A grant changes by a revocation only, for good. -/
structure HandoverGrant.GoesOn (g g' : HandoverGrant) : Prop where
  same : g' = { g with revokedAt := g'.revokedAt }
  revoked : g.revokedAt.isSome → g'.revokedAt = g.revokedAt

/-- A request changes by its decision only, once, and an approval links an invitation. -/
structure AccessRequest.GoesOn (written : List Written) (ar ar' : AccessRequest) : Prop where
  same : ar' = { ar with
    status := ar'.status, decidedBy := ar'.decidedBy, closedAt := ar'.closedAt }
  final : ar.status ≠ .pending → ar' = ar
  approved : .links ∉ written → ar'.status = .approved → ar.status = .approved

/-- An invitation keeps what it was issued as, and stays accepted or withdrawn. Another token is
one that had not been given.
-/
structure Invitation.GoesOn (nextToken : Nat) (i i' : Invitation) : Prop where
  id : i'.id = i.id
  mode : i'.mode = i.mode
  recipient : i'.recipient = i.recipient
  issuedBy : i'.issuedBy = i.issuedBy
  handoverGrantId : i'.handoverGrantId = i.handoverGrantId
  accessRequestId : i'.accessRequestId = i.accessRequestId
  recoveryHolder : i'.recoveryHolder = i.recoveryHolder
  roles : i'.roles = i.roles
  token : i'.token = i.token ∨ nextToken ≤ i'.token
  accepted : i.acceptedAt.isSome → i'.acceptedAt.isSome
  revoked : i.revokedAt.isSome → i'.revokedAt.isSome

/-- A hand-added member is removed only, for good. -/
structure GroupMember.GoesOn (gm gm' : GroupMember) : Prop where
  same : gm' = { gm with removedAt := gm'.removedAt }
  removed : gm.removedAt.isSome → gm'.removedAt.isSome

section

variable {now : Timestamp} {written : List Written} {nextToken : Nat}

theorem Account.GoesOn.refl (a : Account) : a.GoesOn a := ⟨rfl, rfl, fun _ => rfl⟩

theorem Account.GoesOn.trans {a b c : Account} (first : a.GoesOn b) (second : b.GoesOn c)
    : a.GoesOn c where
  id := second.id.trans first.id
  email := second.email.trans first.email
  verified h := (second.verified (first.verified h ▸ h)).trans (first.verified h)

theorem MembershipRow.GoesOn.refl (m : MembershipRow) : m.GoesOn written m :=
  ⟨rfl, rfl, fun _ => rfl, fun _ h => h⟩

theorem MembershipRow.GoesOn.trans {a b c : MembershipRow} (first : a.GoesOn written b)
    (second : b.GoesOn written c)
    : a.GoesOn written c where
  id := second.id.trans first.id
  accountId := second.accountId.trans first.accountId
  erased h := (second.erased (first.erased h ▸ h)).trans (first.erased h)
  revoked h h' := second.revoked h (first.revoked h h')

theorem RoleAssignment.GoesOn.refl (ra : RoleAssignment) : ra.GoesOn now ra := ⟨rfl, .inl rfl⟩

theorem RoleAssignment.GoesOn.trans {a b c : RoleAssignment} (first : a.GoesOn now b)
    (second : b.GoesOn now c)
    : a.GoesOn now c where
  same := by rw [second.same, first.same]
  revokedAt := by
    rcases second.revokedAt with same | ⟨live, revoked⟩
    · exact same ▸ first.revokedAt
    · rcases first.revokedAt with same' | ⟨_, revoked'⟩
      · exact .inr ⟨same' ▸ live, revoked⟩
      · rw [revoked'] at live
        cases live

theorem HandoverGrant.GoesOn.refl (g : HandoverGrant) : g.GoesOn g := ⟨rfl, fun _ => rfl⟩

theorem HandoverGrant.GoesOn.trans {a b c : HandoverGrant} (first : a.GoesOn b)
    (second : b.GoesOn c)
    : a.GoesOn c where
  same := by rw [second.same, first.same]
  revoked h := (second.revoked (first.revoked h ▸ h)).trans (first.revoked h)

theorem AccessRequest.GoesOn.refl (ar : AccessRequest) : ar.GoesOn written ar :=
  ⟨rfl, fun _ => rfl, fun _ h => h⟩

theorem AccessRequest.GoesOn.trans {a b c : AccessRequest} (first : a.GoesOn written b)
    (second : b.GoesOn written c)
    : a.GoesOn written c where
  same := by rw [second.same, first.same]
  final h := by
    have kept := first.final h
    exact (second.final (kept ▸ h)).trans kept
  approved h h' := first.approved h (second.approved h h')

theorem Invitation.GoesOn.refl (i : Invitation) : i.GoesOn nextToken i :=
  ⟨rfl, rfl, rfl, rfl, rfl, rfl, rfl, rfl, .inl rfl, fun h => h, fun h => h⟩

/-- Tokens that were not given later were not given before. -/
theorem Invitation.GoesOn.mono {i i' : Invitation} {later : Nat} (goesOn : i.GoesOn later i')
    (le : nextToken ≤ later)
    : i.GoesOn nextToken i' :=
  { goesOn with token := goesOn.token.imp_right le.trans }

theorem Invitation.GoesOn.trans {a b c : Invitation} (first : a.GoesOn nextToken b)
    (second : b.GoesOn nextToken c)
    : a.GoesOn nextToken c where
  id := second.id.trans first.id
  mode := second.mode.trans first.mode
  recipient := second.recipient.trans first.recipient
  issuedBy := second.issuedBy.trans first.issuedBy
  handoverGrantId := second.handoverGrantId.trans first.handoverGrantId
  accessRequestId := second.accessRequestId.trans first.accessRequestId
  recoveryHolder := second.recoveryHolder.trans first.recoveryHolder
  roles := second.roles.trans first.roles
  token := by
    rcases second.token with same | new
    · exact same ▸ first.token
    · exact .inr new
  accepted h := second.accepted (first.accepted h)
  revoked h := second.revoked (first.revoked h)

theorem GroupMember.GoesOn.refl (gm : GroupMember) : gm.GoesOn gm := ⟨rfl, fun h => h⟩

theorem GroupMember.GoesOn.trans {a b c : GroupMember} (first : a.GoesOn b) (second : b.GoesOn c)
    : a.GoesOn c where
  same := by rw [second.same, first.same]
  removed h := second.removed (first.removed h)

theorem RoleAssignment.GoesOn.id {ra ra' : RoleAssignment} (goesOn : ra.GoesOn now ra')
    : ra'.id = ra.id := by rw [goesOn.same]

theorem HandoverGrant.GoesOn.id {g g' : HandoverGrant} (goesOn : g.GoesOn g') : g'.id = g.id := by
  rw [goesOn.same]

theorem AccessRequest.GoesOn.id {ar ar' : AccessRequest} (goesOn : ar.GoesOn written ar')
    : ar'.id = ar.id := by
  rw [goesOn.same]

theorem GroupMember.GoesOn.id {gm gm' : GroupMember} (goesOn : gm.GoesOn gm') : gm'.id = gm.id := by
  rw [goesOn.same]

end

-----------------------------------------------------------------------------------------
-- What a statement may change

/-- The rows of every table go on, and what is not written stays as it is. -/
structure Tables.Changes (now : Timestamp) (written : List Written) (s s' : Tables) : Prop where
  accounts : Evolves Account.id Account.GoesOn s.accounts s'.accounts
  emails : (s.accounts.map (·.email)).Nodup → (s'.accounts.map (·.email)).Nodup
  memberships :
    Evolves MembershipRow.id (MembershipRow.GoesOn written) s.memberships s'.memberships
  roles : Evolves Role.id Eq s.roles s'.roles
  assignments : Evolves RoleAssignment.id (RoleAssignment.GoesOn now) s.assignments s'.assignments
  grants : Evolves HandoverGrant.id HandoverGrant.GoesOn s.grants s'.grants
  requests : (s.requests.map (·.id)).Nodup →
    Evolves AccessRequest.id (AccessRequest.GoesOn written) s.requests s'.requests
  invitations :
    Evolves Invitation.id (Invitation.GoesOn s.nextToken) s.invitations s'.invitations
  groupMembers : Evolves GroupMember.id GroupMember.GoesOn s.groupMembers s'.groupMembers
  sameAccounts : .accounts ∉ written → s'.accounts = s.accounts
  sameTenant : .tenant ∉ written → s'.tenant = s.tenant
  sameMemberships : .memberships ∉ written → .profiles ∉ written →
    s'.memberships = s.memberships
  noMemberships : .memberships ∉ written →
    s'.memberships.map (·.id) = s.memberships.map (·.id)
  sameRoles : .roles ∉ written → s'.roles = s.roles
  sameAssignments : .assignments ∉ written → .revocations ∉ written →
    s'.assignments = s.assignments
  noAssignments : .assignments ∉ written →
    s'.assignments.map (·.id) = s.assignments.map (·.id)
  noRevocations : .revocations ∉ written → ∃ added, s'.assignments = s.assignments ++ added
  sameGrants : .grants ∉ written → .grantRevocations ∉ written → s'.grants = s.grants
  noGrants : .grants ∉ written → s'.grants.map (·.id) = s.grants.map (·.id)
  sameRequests : .requests ∉ written → .requestChanges ∉ written → s'.requests = s.requests
  noRequests : (s.requests.map (·.id)).Nodup → .requests ∉ written →
    GoesOnInPlace (AccessRequest.GoesOn written) s.requests s'.requests
  sameInvitations : .invitations ∉ written → .invitationChanges ∉ written →
    s'.invitations = s.invitations
  noInvitations : .invitations ∉ written →
    s'.invitations.map (·.id) = s.invitations.map (·.id)
  noLinks : .links ∉ written → ∀ i ∈ s'.invitations, i.id ∉ s.invitations.map (·.id) →
    i.accessRequestId = none
  sameGroups : .groups ∉ written → s'.groups = s.groups
  sameGroupMembers : .memberAdditions ∉ written → .memberRemovals ∉ written →
    s'.groupMembers = s.groupMembers
  noGroupMembers : .memberAdditions ∉ written →
    s'.groupMembers.map (·.id) = s.groupMembers.map (·.id)
  tokens : s.nextToken ≤ s'.nextToken
  tokensGiven : (∀ i ∈ s.invitations, i.token < s.nextToken) →
    ∀ i ∈ s'.invitations, i.token < s'.nextToken

namespace Tables.Changes

variable {now : Timestamp} {written : List Written} {s s' s'' : Tables}

theorem refl (now : Timestamp) (written : List Written) (s : Tables)
    : s.Changes now written s where
  accounts := .refl .refl _
  emails := id
  memberships := .refl .refl _
  roles := .refl (fun _ => rfl) _
  assignments := .refl .refl _
  grants := .refl .refl _
  requests _ := .refl .refl _
  invitations := .refl .refl _
  groupMembers := .refl .refl _
  sameAccounts _ := rfl
  sameTenant _ := rfl
  sameMemberships _ _ := rfl
  noMemberships _ := rfl
  sameRoles _ := rfl
  sameAssignments _ _ := rfl
  noAssignments _ := rfl
  noRevocations _ := ⟨[], (List.append_nil _).symm⟩
  sameGrants _ _ := rfl
  noGrants _ := rfl
  sameRequests _ _ := rfl
  noRequests _ _ := .refl .refl _
  sameInvitations _ _ := rfl
  noInvitations _ := rfl
  noLinks _ _ inside new := absurd (List.mem_map_of_mem inside) new
  sameGroups _ := rfl
  sameGroupMembers _ _ := rfl
  noGroupMembers _ := rfl
  tokens := Nat.le_refl _
  tokensGiven given := given

theorem trans (first : s.Changes now written s') (second : s'.Changes now written s'')
    : s.Changes now written s'' where
  accounts := first.accounts.trans (fun _ _ h => h.id) (fun _ _ _ => .trans) second.accounts
  emails unique := second.emails (first.emails unique)
  memberships :=
    first.memberships.trans (fun _ _ h => h.id) (fun _ _ _ => .trans) second.memberships
  roles := first.roles.trans (fun _ _ h => h ▸ rfl) (fun _ _ _ => .trans) second.roles
  assignments :=
    first.assignments.trans (fun _ _ h => h.id) (fun _ _ _ => .trans) second.assignments
  grants := first.grants.trans (fun _ _ h => h.id) (fun _ _ _ => .trans) second.grants
  requests unique :=
    let earlier := first.requests unique
    earlier.trans (fun _ _ h => h.id) (fun _ _ _ => .trans)
      (second.requests (earlier.distinct unique))
  invitations :=
    first.invitations.trans (fun _ _ h => h.id) (fun _ _ _ => .trans)
      (second.invitations.mono fun _ _ h => h.mono first.tokens)
  groupMembers :=
    first.groupMembers.trans (fun _ _ h => h.id) (fun _ _ _ => .trans) second.groupMembers
  sameAccounts h := (second.sameAccounts h).trans (first.sameAccounts h)
  sameTenant h := (second.sameTenant h).trans (first.sameTenant h)
  sameMemberships h h' := (second.sameMemberships h h').trans (first.sameMemberships h h')
  noMemberships h := (second.noMemberships h).trans (first.noMemberships h)
  sameRoles h := (second.sameRoles h).trans (first.sameRoles h)
  sameAssignments h h' := (second.sameAssignments h h').trans (first.sameAssignments h h')
  noAssignments h := (second.noAssignments h).trans (first.noAssignments h)
  noRevocations h := by
    obtain ⟨added, earlier⟩ := first.noRevocations h
    obtain ⟨more, later⟩ := second.noRevocations h
    exact ⟨added ++ more, by rw [later, earlier, List.append_assoc]⟩
  sameGrants h h' := (second.sameGrants h h').trans (first.sameGrants h h')
  noGrants h := (second.noGrants h).trans (first.noGrants h)
  sameRequests h h' := (second.sameRequests h h').trans (first.sameRequests h h')
  noRequests unique h := (first.noRequests unique h).trans (fun _ _ _ => .trans)
    (second.noRequests ((first.requests unique).distinct unique) h)
  sameInvitations h h' := (second.sameInvitations h h').trans (first.sameInvitations h h')
  noInvitations h := (second.noInvitations h).trans (first.noInvitations h)
  noLinks h i inside new := by
    rcases second.invitations.comesFrom i inside with ⟨row, there, goesOn⟩ | later
    · rw [goesOn.accessRequestId]
      exact first.noLinks h row there (goesOn.id ▸ new)
    · exact second.noLinks h i inside later
  sameGroups h := (second.sameGroups h).trans (first.sameGroups h)
  sameGroupMembers h h' := (second.sameGroupMembers h h').trans (first.sameGroupMembers h h')
  noGroupMembers h := (second.noGroupMembers h).trans (first.noGroupMembers h)
  tokens := Nat.le_trans first.tokens second.tokens
  tokensGiven given := second.tokensGiven (first.tokensGiven given)

instance : IsPreorder Tables (Tables.Changes now written) where
  refl := refl now written
  trans _ _ _ := trans

end Tables.Changes

end FauPortalen.Membership

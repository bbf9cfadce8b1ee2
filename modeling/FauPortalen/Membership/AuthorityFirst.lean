import FauPortalen.Membership.Directory
import FauPortalen.Membership.Requests
import FauPortalen.Membership.Roles

/-! Authority before state: who has no authority over a target gets the same answer whether the
target exists or not, and whatever state it is in.
-/

set_option linter.unusedSectionVars false

namespace FauPortalen.Membership

open Foundations Transaction

section

variable [OsloZone]

-----------------------------------------------------------------------------------------
-- Requests that name a target

/-- A request that names a target, from a membership of the FAU. -/
inductive TargetedRequest
  | resendInvitation (change : InvitationChange)
  | withdrawInvitation (change : InvitationChange)
  | revokeRoleAssignment (req : RevokeAssignment)
  | revokeMembership (req : RevokeMembership)
  | approveRequest (decision : RequestDecision) (roles : List OfferedRole)
  | declineRequest (decision : RequestDecision)
  | setDisplayName (req : SetDisplayName)
  | renameGroup (req : RenameGroup)
  | setGroupVisibility (req : SetGroupVisibility)
  | archiveGroup (req : ArchiveGroup)
  | addGroupMember (req : GroupMemberChange)
  | removeGroupMember (req : GroupMemberChange)
  | getGroup (caller groupId : Nat)
  | listGroupMembers (caller groupId : Nat)
  | exportGroup (caller groupId : Nat) (membershipIds : List Nat)
  | authorizeGroup (caller groupId : Nat) (action : Action)
  | authorizeContent (caller groupId : Nat) (action : Action)

namespace TargetedRequest

def caller : TargetedRequest → Nat
  | resendInvitation change | withdrawInvitation change => change.actorMembershipId
  | revokeRoleAssignment req => req.actorMembershipId
  | revokeMembership req => req.actorMembershipId
  | approveRequest decision _ | declineRequest decision => decision.actorMembershipId
  | setDisplayName req => req.actorMembershipId
  | renameGroup req => req.actorMembershipId
  | setGroupVisibility req => req.actorMembershipId
  | archiveGroup req => req.actorMembershipId
  | addGroupMember req | removeGroupMember req => req.actorMembershipId
  | getGroup caller _ | listGroupMembers caller _ | exportGroup caller _ _
  | authorizeGroup caller _ _ | authorizeContent caller _ _ => caller

/-- What the request answers with. -/
def Answer : TargetedRequest → Type
  | resendInvitation _ | approveRequest _ _ => Except MembershipError IssuedInvitation
  | withdrawInvitation _ | revokeRoleAssignment _ | revokeMembership _ | declineRequest _
  | setDisplayName _ | renameGroup _ | setGroupVisibility _ | archiveGroup _ | addGroupMember _
  | removeGroupMember _ => Except MembershipError Unit
  | getGroup _ _ => Except MembershipError GroupView
  | listGroupMembers _ _ => Except MembershipError (List GroupMemberView)
  | exportGroup _ _ _ => ExportOutcome
  | authorizeGroup _ _ _ | authorizeContent _ _ _ => Decision

def answer (request : TargetedRequest) (moment : Moment) (s : Tables) : request.Answer :=
  match request with
  | resendInvitation change => (Membership.resendInvitation change moment).answer s
  | withdrawInvitation change => (Membership.withdrawInvitation change moment).answer s
  | revokeRoleAssignment req => (Membership.revokeRoleAssignment req moment).answer s
  | revokeMembership req => (Membership.revokeMembership req moment).answer s
  | approveRequest decision roles => (Membership.approveRequest decision roles moment).answer s
  | declineRequest decision => (Membership.declineRequest decision moment).answer s
  | setDisplayName req => (Membership.setDisplayName req moment).answer s
  | renameGroup req => (Membership.renameGroup req moment).answer s
  | setGroupVisibility req => (Membership.setGroupVisibility req moment).answer s
  | archiveGroup req => (Membership.archiveGroup req moment).answer s
  | addGroupMember req => (Membership.addGroupMember req moment).answer s
  | removeGroupMember req => (Membership.removeGroupMember req moment).answer s
  | getGroup caller groupId => s.getGroup (.of caller) groupId moment.today
  | listGroupMembers caller groupId => s.listGroupMembers (.of caller) groupId moment.today
  | exportGroup caller groupId membershipIds =>
      s.exportAddresses (.of caller) (.group groupId) membershipIds moment.today
  | authorizeGroup caller groupId action =>
      s.authorize (.of caller) (.group groupId) action moment.today
  | authorizeContent caller groupId action =>
      s.authorize (.of caller) (.groupContent groupId) action moment.today

/-- The caller may not read the group, which may not exist. -/
def Unreadable (s : Tables) (caller groupId : Nat) (today : Date) : Prop :=
  s.authorize (.of caller) (.group groupId) .read today ≠ .ok ()

/-- The target is none of the caller's: an invitation they did not issue, an assignment they do
not hold, another's membership, or a group they may not read.
-/
def Foreign (request : TargetedRequest) (s : Tables) (today : Date) : Prop :=
  match request with
  | resendInvitation change | withdrawInvitation change =>
      ∀ inv, s.invitation change.invitationId = some inv →
        inv.issuedBy ≠ some change.actorMembershipId
  | revokeRoleAssignment req => ∀ ra,
      findRow RoleAssignment.id req.assignmentId s.assignments = some ra →
        ra.membershipId ≠ req.actorMembershipId
  | revokeMembership req => req.membershipId ≠ req.actorMembershipId
  | approveRequest _ _ | declineRequest _ => True
  | setDisplayName req => req.membershipId ≠ req.actorMembershipId
  | renameGroup req => Unreadable s req.actorMembershipId req.groupId today
  | setGroupVisibility req => Unreadable s req.actorMembershipId req.groupId today
  | archiveGroup req => Unreadable s req.actorMembershipId req.groupId today
  | addGroupMember req | removeGroupMember req =>
      Unreadable s req.actorMembershipId req.groupId today
  | getGroup caller groupId | listGroupMembers caller groupId | exportGroup caller groupId _
  | authorizeGroup caller groupId _ | authorizeContent caller groupId _ =>
      Unreadable s caller groupId today

/-- The caller is no administrator that day, and the target is none of theirs. -/
structure Outsider (request : TargetedRequest) (s : Tables) (today : Date) : Prop where
  notAdmin : s.isAdminToday request.caller today = false
  foreign : request.Foreign s today

end TargetedRequest

/-- The tables agree on the FAU's status and on the caller's authority that day. -/
structure Tables.AgreeFor (caller : Nat) (today : Date) (s s' : Tables) : Prop where
  tenant : s'.tenant = s.tenant
  access : s'.membershipAccess caller today = s.membershipAccess caller today

-----------------------------------------------------------------------------------------
-- What an outsider is answered

variable {s s' : Tables} {moment : Moment} {today : Date} {caller groupId : Nat}

/-- Without the FAU nothing is known of it. -/
def withTenant (tenant : Option Tenant) (refusal : Tenant → MembershipError)
    : MembershipError :=
  match tenant with
  | none => .unknownTenant
  | some state => refusal state

/-- Only an open FAU asks for more. -/
def withOpen (state : Tenant) (refusal : MembershipError) : MembershipError :=
  if state.status ≠ .active then .tenantNotActive
  else if state.frozen then .tenantFrozen
  else refusal

theorem authorizeChange_refuses {change : InvitationChange} {inv : Option Invitation}
    {kind : ChangeKind} (notAdmin : s.isAdminToday change.actorMembershipId today = false)
    (foreign : ∀ i, inv = some i → i.issuedBy ≠ some change.actorMembershipId)
    : (authorizeChange change inv today kind).Refuses s .notAuthorized := by
  simp only [authorizeChange, refuses_bind, commits_select, refuses_select, false_or]
  refine ⟨_, _, ⟨rfl, rfl⟩, ?_⟩
  rw [notAdmin]
  cases inv with
  | none => simp
  | some i => simp [foreign i rfl]

theorem Viewer.of_membershipId (membershipId : Nat)
    : (Viewer.of membershipId).membershipId = membershipId := rfl

/-- A group that the caller may not read is hidden from them, for every action on it. -/
theorem authorize_of_unreadable (unreadable : TargetedRequest.Unreadable s caller groupId today)
    (action : Action)
    : s.authorize (.of caller) (.group groupId) action today
        = .error (if (s.membershipAccess caller today).capability = .none then .noAccess
          else .hidden)
      ∧ s.authorize (.of caller) (.groupContent groupId) action today
        = .error (if (s.membershipAccess caller today).capability = .none then .noAccess
          else .hidden) := by
  unfold TargetedRequest.Unreadable at unreadable
  unfold Tables.authorize at unreadable ⊢
  by_cases standing : (s.membershipAccess caller today).capability = .none
  · simp [Viewer.of_membershipId, standing]
  · cases facts : s.groupFacts (.of caller) groupId today with
    | none => simp [Viewer.of_membershipId, standing, facts]
    | some facts' =>
        have unread : ((s.membershipAccess caller today).capability.canRead (.group facts'))
            = false := by
          by_contra reads
          refine unreadable ?_
          simp_all [Viewer.of_membershipId, Capability.decide, Capability.allows]
        have unread' : ((s.membershipAccess caller today).capability.canRead
            (.groupContent facts')) = false := by
          generalize (s.membershipAccess caller today).capability = capability at unread
          cases capability <;> exact unread
        simp [Viewer.of_membershipId, standing, facts, Capability.decide, unread, unread']

/-- What is answered where a group is hidden. -/
def hiddenGroup (capability : Capability) : MembershipError :=
  denied (if capability = .none then .noAccess else .hidden) .unknownGroup

theorem manage_refuses (unreadable : TargetedRequest.Unreadable s caller groupId today)
    : (manage caller groupId today).Refuses s
        (hiddenGroup (s.membershipAccess caller today).capability) := by
  simp only [manage, requireAuthorized, refuses_bind, commits_select, refuses_select, false_or]
  refine .inl ⟨_, _, ⟨rfl, rfl⟩, refuses_check.mpr ⟨_, ?_, rfl⟩⟩
  exact (authorize_of_unreadable unreadable .manage).1

/-- What an open FAU's statement refuses after the tenant lock and the check that it is open. -/
theorem open_refuses {α : Type} {rest : Tx α} {error : MembershipError}
    (refuses : rest.Refuses s error)
    : (do
        let state ← lockTenant
        requireOpen state
        rest : Tx α).Refuses s (withTenant s.tenant fun state => withOpen state error) := by
  unfold withTenant withOpen
  cases locked : s.tenant with
  | none => simp [locked]
  | some state =>
      simp only [refuses_bind, refuses_lockTenant, locked, commits_lockTenant,
        refuses_requireOpen, commits_requireOpen, reduceCtorEq, false_and, false_or]
      refine ⟨state, s, ⟨rfl, rfl⟩, ?_⟩
      split
      · next closed => exact .inl (.inl ⟨closed, rfl⟩)
      · next active =>
          have active : state.status = .active := by simpa using active
          split
          · next frozen => exact .inl (.inr ⟨active, frozen, rfl⟩)
          · next notFrozen =>
              exact .inr ⟨(), s, ⟨active, by simpa using notFrozen, rfl⟩, refuses⟩

/-- What a statement refuses after the tenant lock. -/
theorem locked_refuses {α : Type} {rest : Tenant → Tx α} {error : MembershipError}
    (refuses : ∀ state, (rest state).Refuses s error)
    : (do
        let state ← lockTenant
        rest state : Tx α).Refuses s (withTenant s.tenant fun _ => error) := by
  unfold withTenant
  cases locked : s.tenant with
  | none => simp [locked]
  | some state =>
      simp only [refuses_bind, refuses_lockTenant, locked, commits_lockTenant, reduceCtorEq,
        false_and, false_or]
      exact ⟨state, s, ⟨rfl, rfl⟩, refuses state⟩

-----------------------------------------------------------------------------------------
-- Each request of an outsider

theorem resendInvitation_refuses {change : InvitationChange}
    (outsider : (TargetedRequest.resendInvitation change).Outsider s moment.today)
    : (resendInvitation change moment).Refuses s (withTenant s.tenant fun _ => .notAuthorized) := by
  refine locked_refuses fun state => ?_
  simp only [refuses_bind, refuses_select, commits_select, false_or]
  exact ⟨_, _, ⟨rfl, rfl⟩, .inl (authorizeChange_refuses outsider.notAdmin outsider.foreign)⟩

theorem withdrawInvitation_refuses {change : InvitationChange}
    (outsider : (TargetedRequest.withdrawInvitation change).Outsider s moment.today)
    : (withdrawInvitation change moment).Refuses s (withTenant s.tenant fun _ => .notAuthorized) := by
  refine locked_refuses fun state => ?_
  simp only [refuses_bind, refuses_select, commits_select, false_or]
  exact ⟨_, _, ⟨rfl, rfl⟩, .inl (authorizeChange_refuses outsider.notAdmin outsider.foreign)⟩

/-- An assignment that is another's is looked for in vain. -/
theorem revokeRoleAssignment_refuses {req : RevokeAssignment}
    (outsider : (TargetedRequest.revokeRoleAssignment req).Outsider s moment.today)
    : (revokeRoleAssignment req moment).Refuses s (withTenant s.tenant fun _ => .notAuthorized) := by
  refine locked_refuses fun state => ?_
  have notAdmin : s.isAdminToday req.actorMembershipId moment.today = false := outsider.notAdmin
  simp only [refuses_bind, refuses_select, commits_select, false_or]
  refine ⟨_, _, ⟨rfl, rfl⟩, _, _, ⟨rfl, rfl⟩, .inl ?_⟩
  rw [notAdmin, refuses_expect]
  refine ⟨Option.filter_eq_none_iff.mpr fun ra found => ?_, rfl⟩
  simpa using outsider.foreign ra found

theorem revokeMembership_refuses {req : RevokeMembership}
    (outsider : (TargetedRequest.revokeMembership req).Outsider s moment.today)
    : (revokeMembership req moment).Refuses s (withTenant s.tenant fun _ => .notAuthorized) := by
  refine locked_refuses fun state => ?_
  have other : req.membershipId ≠ req.actorMembershipId := outsider.foreign
  rw [refuses_bind, refuses_onlyIf, refuses_requireAdmin]
  exact .inl ⟨Ne.symm other, outsider.notAdmin, rfl⟩

theorem approveRequest_refuses {decision : RequestDecision} {roles : List OfferedRole}
    (outsider : (TargetedRequest.approveRequest decision roles).Outsider s moment.today)
    : (approveRequest decision roles moment).Refuses s
        (withTenant s.tenant fun state => withOpen state .notAuthorized) := by
  rw [approveRequest, refuses_bind]
  refine .inl (open_refuses ?_)
  rw [refuses_bind, refuses_requireAdmin]
  exact .inl ⟨outsider.notAdmin, rfl⟩

theorem declineRequest_refuses {decision : RequestDecision}
    (outsider : (TargetedRequest.declineRequest decision).Outsider s moment.today)
    : (declineRequest decision moment).Refuses s (withTenant s.tenant fun _ => .notAuthorized) := by
  rw [declineRequest, refuses_bind]
  refine .inl (locked_refuses fun state => ?_)
  rw [refuses_bind, refuses_requireAdmin]
  exact .inl ⟨outsider.notAdmin, rfl⟩

/-- What is refused after a check of the request alone. -/
theorem checked_refuses {α : Type} {condition : Prop} [Decidable condition] {rest : Tx α}
    {malformed error : MembershipError} (refuses : rest.Refuses s error)
    : (do
        require condition malformed
        rest : Tx α).Refuses s (if condition then error else malformed) := by
  rw [refuses_bind, refuses_require]
  split
  · next holds => exact .inr ⟨(), s, commits_require.mpr ⟨holds, rfl⟩, refuses⟩
  · next fails => exact .inl ⟨fails, rfl⟩

theorem setDisplayName_refuses {req : SetDisplayName}
    (outsider : (TargetedRequest.setDisplayName req).Outsider s moment.today)
    : (setDisplayName req moment).Refuses s
        (if req.encryptedDisplayName.wellFormed = true then
          withTenant s.tenant fun state => withOpen state .notAuthorized
        else .displayNameMalformed) := by
  have other : req.membershipId ≠ req.actorMembershipId := outsider.foreign
  refine checked_refuses (open_refuses ?_)
  rw [refuses_bind, requireMayName, if_neg (Ne.symm other), refuses_requireAdmin]
  exact .inl ⟨outsider.notAdmin, rfl⟩

theorem renameGroup_refuses {req : RenameGroup}
    (unreadable : TargetedRequest.Unreadable s req.actorMembershipId req.groupId moment.today)
    : (renameGroup req moment).Refuses s
        (if req.encryptedName.wellFormed = true then
          withTenant s.tenant fun state => withOpen state
            (hiddenGroup (s.membershipAccess req.actorMembershipId moment.today).capability)
        else .groupNameMalformed) := by
  refine checked_refuses (open_refuses ?_)
  rw [refuses_bind]
  exact .inl (manage_refuses unreadable)

theorem archiveGroup_refuses {req : ArchiveGroup}
    (unreadable : TargetedRequest.Unreadable s req.actorMembershipId req.groupId moment.today)
    : (archiveGroup req moment).Refuses s (withTenant s.tenant fun _ =>
        hiddenGroup (s.membershipAccess req.actorMembershipId moment.today).capability) := by
  refine locked_refuses fun state => ?_
  rw [refuses_bind]
  exact .inl (manage_refuses unreadable)

theorem addGroupMember_refuses {req : GroupMemberChange}
    (unreadable : TargetedRequest.Unreadable s req.actorMembershipId req.groupId moment.today)
    : (addGroupMember req moment).Refuses s (withTenant s.tenant fun state => withOpen state
        (hiddenGroup (s.membershipAccess req.actorMembershipId moment.today).capability)) := by
  refine open_refuses ?_
  rw [refuses_bind]
  exact .inl (manage_refuses unreadable)

theorem removeGroupMember_refuses {req : GroupMemberChange}
    (unreadable : TargetedRequest.Unreadable s req.actorMembershipId req.groupId moment.today)
    : (removeGroupMember req moment).Refuses s (withTenant s.tenant fun _ =>
        hiddenGroup (s.membershipAccess req.actorMembershipId moment.today).capability) := by
  refine locked_refuses fun state => ?_
  rw [refuses_bind]
  exact .inl (manage_refuses unreadable)

/-- Opening a group asks for an open FAU, closing one does not. -/
theorem setGroupVisibility_refuses {req : SetGroupVisibility}
    (unreadable : TargetedRequest.Unreadable s req.actorMembershipId req.groupId moment.today)
    : (setGroupVisibility req moment).Refuses s (withTenant s.tenant fun state =>
        if req.visibility = .open then withOpen state
          (hiddenGroup (s.membershipAccess req.actorMembershipId moment.today).capability)
        else hiddenGroup (s.membershipAccess req.actorMembershipId moment.today).capability) := by
  have manages := manage_refuses unreadable
  by_cases opens : req.visibility = .open
  · simp only [opens, if_true]
    unfold setGroupVisibility
    simp only [opens, onlyIf, if_true]
    refine open_refuses ?_
    rw [refuses_bind]
    exact .inl manages
  · simp only [opens, if_false]
    refine locked_refuses fun state => ?_
    rw [refuses_bind]
    refine .inr ⟨(), s, commits_onlyIf.mpr (.inr ⟨opens, rfl⟩), ?_⟩
    rw [refuses_bind]
    exact .inl manages

/-- Among distinct groups, an unreadable one is none of those the viewer may read. -/
theorem not_mem_readableGroups
    (unreadable : TargetedRequest.Unreadable s caller groupId today)
    (distinct : (s.groups.map (·.id)).Nodup)
    (standing : (s.membershipAccess caller today).capability ≠ .none)
    : ∀ view ∈ s.readableGroups (.of caller) (s.membershipAccess caller today).capability today,
        view.groupId ≠ groupId := by
  intro view listed same
  obtain ⟨inside, readable⟩ := List.mem_filter.mp listed
  obtain ⟨g, member, rfl⟩ := List.mem_map.mp inside
  have found : s.group groupId = some g :=
    (findRow_eq_some distinct).mpr ⟨mem_sortOn.mp member, same⟩
  refine unreadable ?_
  have facts : s.groupFacts (.of caller) groupId today
      = some ⟨g.visibility, g.archivedAt.isSome, s.inGroup caller g today⟩ := by
    rw [Tables.groupFacts, found]
    rfl
  unfold Tables.authorize
  simp only [Viewer.of_membershipId, facts]
  rw [if_neg standing]
  exact of_decide_eq_true readable

/-- The directory has no section for an unreadable group. -/
theorem loadDirectory_unreadable
    (unreadable : TargetedRequest.Unreadable s caller groupId today)
    (distinct : (s.groups.map (·.id)).Nodup)
    (standing : (s.membershipAccess caller today).capability ≠ .none)
    : ∃ read, s.loadDirectory (.of caller) today = .ok read
        ∧ read.scopeMembers (.group groupId) = none := by
  unfold Tables.loadDirectory
  rw [if_neg (show ¬ (s.membershipAccess (Viewer.of caller).membershipId today).capability
    = .none from standing)]
  refine ⟨_, rfl, ?_⟩
  simp only [DirectoryRead.scopeMembers, Option.map_eq_none_iff, List.find?_eq_none,
    List.mem_append, decide_eq_true_eq]
  rintro section_ (fau | group) same
  · split at fau
    · rw [List.mem_singleton.mp fau] at same
      cases same
    · cases fau
  · obtain ⟨view, listed, rfl⟩ := List.mem_map.mp group
    cases same
    exact not_mem_readableGroups unreadable distinct standing view
      (List.mem_filter.mp listed).1 rfl

theorem exportAddresses_unreadable {membershipIds : List Nat}
    (unreadable : TargetedRequest.Unreadable s caller groupId today)
    (distinct : (s.groups.map (·.id)).Nodup)
    : s.exportAddresses (.of caller) (.group groupId) membershipIds today
      = .refused (if membershipIds = [] then .emptySelection
        else hiddenGroup (s.membershipAccess caller today).capability) := by
  unfold Tables.exportAddresses
  split
  · rfl
  · by_cases standing : (s.membershipAccess caller today).capability = .none
    · simp [Tables.loadDirectory, Viewer.of_membershipId, standing, hiddenGroup, denied]
    · obtain ⟨read, loaded, hidden⟩ := loadDirectory_unreadable unreadable distinct standing
      simp only [loaded, hidden, hiddenGroup, if_neg standing]
      rfl

-----------------------------------------------------------------------------------------
-- The same answer

/-- What an outsider is answered: the FAU's status and the caller's capability decide. -/
def TargetedRequest.answerOutside (request : TargetedRequest) (tenant : Option Tenant)
    (capability : Capability) : request.Answer :=
  match request with
  | resendInvitation _ => .error (withTenant tenant fun _ => .notAuthorized)
  | withdrawInvitation _ | revokeRoleAssignment _ | revokeMembership _ | declineRequest _ =>
      .error (withTenant tenant fun _ => .notAuthorized)
  | approveRequest _ _ => .error (withTenant tenant fun state => withOpen state .notAuthorized)
  | setDisplayName req => .error (
      if req.encryptedDisplayName.wellFormed = true then
        withTenant tenant fun state => withOpen state .notAuthorized
      else .displayNameMalformed)
  | renameGroup req => .error (
      if req.encryptedName.wellFormed = true then
        withTenant tenant fun state => withOpen state (hiddenGroup capability)
      else .groupNameMalformed)
  | setGroupVisibility req => .error (withTenant tenant fun state =>
      if req.visibility = .open then withOpen state (hiddenGroup capability)
      else hiddenGroup capability)
  | archiveGroup _ | removeGroupMember _ =>
      .error (withTenant tenant fun _ => hiddenGroup capability)
  | addGroupMember _ =>
      .error (withTenant tenant fun state => withOpen state (hiddenGroup capability))
  | getGroup _ _ => .error (hiddenGroup capability)
  | listGroupMembers _ _ => .error (hiddenGroup capability)
  | exportGroup _ _ membershipIds =>
      .refused (if membershipIds = [] then .emptySelection else hiddenGroup capability)
  | authorizeGroup _ _ _ | authorizeContent _ _ _ =>
      .error (if capability = .none then .noAccess else .hidden)

/-- Each request is refused before it looks at its target. -/
theorem TargetedRequest.answer_of_outsider {request : TargetedRequest}
    (outsider : request.Outsider s moment.today) (distinct : (s.groups.map (·.id)).Nodup)
    : request.answer moment s = request.answerOutside s.tenant
        (s.membershipAccess request.caller moment.today).capability := by
  cases request with
  | resendInvitation change => exact (resendInvitation_refuses outsider).answer
  | withdrawInvitation change => exact (withdrawInvitation_refuses outsider).answer
  | revokeRoleAssignment req => exact (revokeRoleAssignment_refuses outsider).answer
  | revokeMembership req => exact (revokeMembership_refuses outsider).answer
  | approveRequest decision roles => exact (approveRequest_refuses outsider).answer
  | declineRequest decision => exact (declineRequest_refuses outsider).answer
  | setDisplayName req => exact (setDisplayName_refuses outsider).answer
  | renameGroup req => exact (renameGroup_refuses outsider.foreign).answer
  | setGroupVisibility req => exact (setGroupVisibility_refuses outsider.foreign).answer
  | archiveGroup req => exact (archiveGroup_refuses outsider.foreign).answer
  | addGroupMember req => exact (addGroupMember_refuses outsider.foreign).answer
  | removeGroupMember req => exact (removeGroupMember_refuses outsider.foreign).answer
  | getGroup caller groupId =>
      simp only [answer, Tables.getGroup, (authorize_of_unreadable outsider.foreign .read).1]
      rfl
  | listGroupMembers caller groupId =>
      simp only [answer, Tables.listGroupMembers,
        (authorize_of_unreadable outsider.foreign .read).1]
      rfl
  | exportGroup caller groupId membershipIds =>
      exact exportAddresses_unreadable outsider.foreign distinct
  | authorizeGroup caller groupId action =>
      exact (authorize_of_unreadable outsider.foreign action).1
  | authorizeContent caller groupId action =>
      exact (authorize_of_unreadable outsider.foreign action).2

end

-----------------------------------------------------------------------------------------
-- A parent and an administrator's invitation

section

attribute [local instance] OsloZone.atEpoch

/-- An active FAU with one parent, who holds the parents' role from 1969 to 1971. -/
def parentFau : Tables where
  accounts := [⟨1, ⟨"kari@example.no"⟩, some 0, none, .twelve⟩]
  tenant := some ⟨.active, false⟩
  signup := none
  recoveryContact := none
  memberships := [⟨1, 1, none, none, none, none, none⟩]
  roles := [⟨1, "Forelder", .member, none, none, none⟩]
  assignments := [⟨1, 1, 1,
    .ofEnds (.ofParts 1969 1 1 rfl) (.ofParts 1971 1 1 rfl) rfl, none, none⟩]
  grants := []
  requests := []
  invitations := []
  groups := []
  groupMembers := []
  units := []
  cohorts := []
  nextToken := 1

/-- The same FAU with an accepted invitation that an administrator issued. -/
def parentFauInvited : Tables :=
  { parentFau with invitations :=
      [⟨7, 0, .normal, ⟨"per@example.no"⟩, some 2, none, none, none, 1000, some 5, some 3, none,
        none, []⟩] }

end

end FauPortalen.Membership

import FauPortalen.Foundations.Lockstep
import FauPortalen.Membership.HandoverGrants

/-! Handover grants only let a transaction through or refuse it: what one commits that is not a
grant, it commits whatever grants there are.
-/

set_option linter.unusedSectionVars false

namespace FauPortalen.Membership

open Foundations Transaction

-----------------------------------------------------------------------------------------
-- Tables that differ in grants alone

/-- The same invitation, but for the grant it was issued under. -/
def Invitation.Alike (i j : Invitation) : Prop :=
  ∃ grantId, j = { i with handoverGrantId := grantId }

/-- The same tables, but for the grants and the grants that invitations were issued under. -/
inductive Tables.Alike (s : Tables) : Tables → Prop
  | but {grants : List HandoverGrant} {invitations : List Invitation}
      (invited : List.Forall₂ Invitation.Alike s.invitations invitations)
    : s.Alike { s with grants := grants, invitations := invitations }

theorem Invitation.Alike.refl (i : Invitation) : i.Alike i := ⟨i.handoverGrantId, rfl⟩

theorem Invitation.Alike.id {i j : Invitation} (alike : i.Alike j) : j.id = i.id := by
  obtain ⟨_, rfl⟩ := alike
  rfl

theorem Tables.Alike.refl (s : Tables) : s.Alike s :=
  .but (List.forall₂_same.mpr fun i _ => .refl i)

/-- From tables that are alike the transaction commits the same value and leaves tables that are.
-/
abbrev Blind {α : Type} (transaction : Tx α) : Prop :=
  Lockstep Tables.Alike Eq transaction transaction

section

variable {α ε : Type}

/-- A read of the other tables. -/
theorem select_blind {view : Tables → α}
    (blind : ∀ s grants invitations,
      view { s with grants := grants, invitations := invitations } = view s)
    : Blind (select view) := by
  refine .select ?_
  rintro s _ ⟨invited⟩
  exact (blind s _ _).symm

/-- A write of the other tables. -/
theorem update_blind {change : Tables → Tables}
    (blind : ∀ s grants invitations,
      change { s with grants := grants, invitations := invitations }
        = { change s with grants := grants, invitations := invitations })
    (keeps : ∀ s, (change s).invitations = s.invitations)
    : Blind (update change) := by
  refine .update fun s t alike => ?_
  obtain @⟨grants, invitations, invited⟩ := alike
  rw [blind s grants invitations]
  exact .but ((keeps s).symm ▸ invited)

/-- Two verdicts that need not agree: the rests go in lockstep after them. -/
theorem check_apart {α' β β' : Type} {W : β → β' → Prop} {verdict : Except ε α}
    {verdict' : Except ε α'} {error error' : ε → MembershipError} {next : α → Tx β}
    {next' : α' → Tx β'} (rest : ∀ a b, Lockstep Tables.Alike W (next a) (next' b))
    : Lockstep Tables.Alike W (check verdict error >>= next) (check verdict' error' >>= next') := by
  refine Lockstep.bind (V := fun _ _ => True) ?_ fun a b _ => rest a b
  intro s t a b s' t' alike left right
  obtain ⟨_, rfl⟩ := commits_check.mp left
  obtain ⟨_, rfl⟩ := commits_check.mp right
  exact ⟨trivial, alike⟩

/-- Two verdicts without a value. -/
theorem check_lockstep {verdict verdict' : Except ε Unit} {error error' : ε → MembershipError}
    : Lockstep Tables.Alike Eq (check verdict error) (check verdict' error') := by
  intro s t a b s' t' alike left right
  obtain ⟨_, rfl⟩ := commits_check.mp left
  obtain ⟨_, rfl⟩ := commits_check.mp right
  exact ⟨rfl, alike⟩

/-- The same verdict on both sides. -/
theorem check_blind {verdict : Except ε α} {error : ε → MembershipError}
    : Blind (check verdict error) := by
  intro s t a b s' t' alike left right
  obtain ⟨passes, rfl⟩ := commits_check.mp left
  obtain ⟨passes', rfl⟩ := commits_check.mp right
  exact ⟨Except.ok.inj (passes.symm.trans passes'), alike⟩

end

-----------------------------------------------------------------------------------------
-- The shared statements

theorem lockTenant_blind : Blind lockTenant :=
  .same (select_blind fun _ _ _ => rfl) fun _ => .expected

theorem requireOpen_blind {state : Tenant} : Blind (requireOpen state) :=
  .same .require fun _ => .require

theorem requireAdmin_blind {membershipId : Nat} {today : Date}
    : Blind (requireAdmin membershipId today) :=
  .apart fun _ _ => .require

theorem updateMemberships_blind {picks : MembershipRow → Bool}
    {change : MembershipRow → MembershipRow}
    : Blind (updateMemberships picks change) :=
  .apart fun _ _ => .same .require fun _ => update_blind (fun _ _ _ => rfl) fun _ => rfl

theorem updateMembership_blind {id : Nat} {change : MembershipRow → MembershipRow}
    : Blind (updateMembership id change) :=
  updateMemberships_blind

theorem upsertVerifiedAccount_blind {email : Email} {at_ : Timestamp}
    : Blind (upsertVerifiedAccount email at_) := by
  refine .same (select_blind fun _ _ _ => rfl) fun found => ?_
  cases found with
  | some a =>
      exact .same (update_blind (fun _ _ _ => rfl) fun _ => rfl) fun _ => .pure rfl
  | none =>
      exact .same (select_blind fun _ _ _ => rfl) fun _ =>
        .same (update_blind (fun _ _ _ => rfl) fun _ => rfl) fun _ => .pure rfl

theorem insertAssignment_blind {membershipId roleId : Nat} {period : Period}
    {grantedBy : Option Nat}
    : Blind (insertAssignment membershipId roleId period grantedBy) :=
  .same (select_blind fun _ _ _ => rfl) fun _ =>
    .same (update_blind (fun _ _ _ => rfl) fun _ => rfl) fun _ => .pure rfl

theorem revokeAssignments_blind {picks : RoleAssignment → Bool} {now : Timestamp}
    : Blind (revokeAssignments picks now) :=
  update_blind (fun _ _ _ => rfl) fun _ => rfl

theorem revokeGrants_blind {picks : HandoverGrant → Bool} {now : Timestamp}
    : Blind (revokeGrants picks now) := by
  refine .update ?_
  rintro s _ ⟨invited⟩
  exact .but invited

theorem removeFromAllGroups_blind {membershipId : Nat} {now : Timestamp}
    : Blind (removeFromAllGroups membershipId now) :=
  update_blind (fun _ _ _ => rfl) fun _ => rfl

-----------------------------------------------------------------------------------------
-- Profiles

section

variable [OsloZone] {moment : Moment}

theorem effectiveKeepUntil_blind {membershipId : Nat} {stamped : Option Date} {today : Date}
    : Blind (effectiveKeepUntil membershipId stamped today) := by
  cases stamped with
  | some until_ => exact .pure rfl
  | none =>
      exact .same (select_blind fun _ _ _ => rfl) fun _ => .same .expected fun _ =>
        .same (select_blind fun _ _ _ => rfl) fun _ => .same .expected fun _ => .pure rfl

theorem settleProfile_blind {membershipId : Nat} : Blind (settleProfile membershipId moment) := by
  refine .same (select_blind fun _ _ _ => rfl) fun _ => .same .expected fun m =>
    .same (select_blind fun _ _ _ => rfl) fun ended => .ite (.pure rfl) (.ite (.pure rfl) ?_)
  refine .same effectiveKeepUntil_blind fun until_ => ?_
  split
  · exact .pure rfl
  · exact .same updateMembership_blind fun _ => .pure rfl
  · exact .same updateMembership_blind fun _ => .pure rfl

theorem reopenProfile_blind {membershipId : Nat} : Blind (reopenProfile membershipId moment) :=
  .same (select_blind fun _ _ _ => rfl) fun _ => .same .expected fun _ =>
    .same (select_blind fun _ _ _ => rfl) fun _ =>
    .same (.onlyIf removeFromAllGroups_blind) fun _ => .same settleProfile_blind fun _ =>
    .same updateMembership_blind fun _ => .pure rfl

theorem ensureMembership_blind {accountId expectedId : Nat}
    : Blind (ensureMembership accountId expectedId moment) := by
  refine .same (select_blind fun _ _ _ => rfl) fun found => ?_
  cases found with
  | some m =>
      exact .same .require fun _ => .same .require fun _ => .same reopenProfile_blind fun _ =>
        .pure rfl
  | none =>
      exact .apart fun _ _ => .same .require fun _ =>
        .same (update_blind (fun _ _ _ => rfl) fun _ => rfl) fun _ => .pure rfl

theorem writeProfile_blind {profile : MemberProfile} {alreadyCurrent : Bool}
    : Blind (writeProfile profile alreadyCurrent) :=
  updateMembership_blind

theorem checkGivenContactEmail_blind {given : Option Ciphertext}
    : Blind (checkGivenContactEmail given) := by
  cases given with
  | some ciphertext => exact .require
  | none => exact .pure rfl

theorem MemberProfile.check_blind {profile : MemberProfile} : Blind profile.check :=
  .same .require fun _ => checkGivenContactEmail_blind

theorem clearEndedProfiles_blind : Blind (clearEndedProfiles moment) :=
  .same (select_blind fun _ _ _ => rfl) fun _ => .ite
    (.same lockTenant_blind fun _ => .same (select_blind fun _ _ _ => rfl) fun _ =>
      .same (.foldlM fun _ _ => .same settleProfile_blind fun _ => .pure rfl) fun _ =>
      .same (select_blind fun _ _ _ => rfl) fun _ =>
      .same (.forM fun _ => removeFromAllGroups_blind) fun _ => .pure rfl)
    (.pure rfl)

theorem restampProfile_blind {months : RetentionMonths} {stamped : Nat × Date}
    : Blind (restampProfile months moment stamped) := by
  refine .same (select_blind fun _ _ _ => rfl) fun _ => .same .expected fun ended => ?_
  split
  · exact updateMembership_blind
  · exact .ite updateMembership_blind (.pure rfl)

theorem setRetentionMonths_blind {accountId : Nat} {months : RetentionMonths}
    : Blind (setRetentionMonths accountId months moment) := by
  refine .same (select_blind fun _ _ _ => rfl) fun listed => .same (.onlyIf ?_) fun _ =>
    .apart fun _ _ => .same .require fun _ =>
    .same (update_blind (fun _ _ _ => rfl) fun _ => rfl) fun _ => .onlyIf ?_
  · exact .same lockTenant_blind fun _ => .same (select_blind fun _ _ _ => rfl) fun _ =>
      .forM fun _ => .same settleProfile_blind fun _ => .pure rfl
  · exact .same (select_blind fun _ _ _ => rfl) fun _ => .forM fun _ => restampProfile_blind

theorem eraseMemberNames_blind {accountId : Nat} : Blind (eraseMemberNames accountId moment) :=
  .same (select_blind fun _ _ _ => rfl) fun _ => .ite
    (.same lockTenant_blind fun _ => updateMemberships_blind)
    (.pure rfl)

theorem requireMayName_blind {req : SetDisplayName} {today : Date}
    : Blind (requireMayName req today) :=
  .ite (.apart fun _ _ => .require) requireAdmin_blind

theorem setDisplayName_blind {req : SetDisplayName} : Blind (setDisplayName req moment) :=
  .same .require fun _ => .same lockTenant_blind fun _ => .same requireOpen_blind fun _ =>
    .same requireMayName_blind fun _ => .same (select_blind fun _ _ _ => rfl) fun _ =>
    .same .expected fun _ => .same .require fun _ => .apart fun _ _ => .same .require fun _ =>
    updateMembership_blind

theorem setContactEmail_blind {req : SetContactEmail} : Blind (setContactEmail req moment) :=
  .same checkGivenContactEmail_blind fun _ => .same lockTenant_blind fun _ =>
    .same (.onlyIf requireOpen_blind) fun _ => .apart fun _ _ => .same .require fun _ =>
    .same (select_blind fun _ _ _ => rfl) fun _ => .same .expected fun _ =>
    .same .require fun _ => updateMembership_blind

-----------------------------------------------------------------------------------------
-- Roles and their revocation

theorem requireLiveGroup_blind {groupId : Option Nat} : Blind (requireLiveGroup groupId) := by
  cases groupId with
  | some id =>
      exact .same (select_blind fun _ _ _ => rfl) fun _ => .same .expected fun _ => .require
  | none => exact .pure rfl

theorem createRole_blind {name : String} {capability : CapabilityClass} {groupId : Option Nat}
    : Blind (createRole name capability groupId) :=
  .same .require fun _ => .same requireLiveGroup_blind fun _ =>
    .same (select_blind fun _ _ _ => rfl) fun _ =>
    .same (update_blind (fun _ _ _ => rfl) fun _ => rfl) fun _ => .pure rfl

theorem resolveChoice_blind {choice : RoleChoice} : Blind (resolveChoice choice) := by
  cases choice with
  | existing id =>
      exact .same (select_blind fun _ _ _ => rfl) fun _ => .same .expected fun _ =>
        .apart fun _ _ => .same .require fun _ => .pure rfl
  | new name capability groupId => exact createRole_blind

theorem resolveRoles_blind {offered : List OfferedRole} {today : Date}
    : Blind (resolveRoles offered today) :=
  .same .require fun _ => .foldlM fun _ _ => .same .require fun _ =>
    .same resolveChoice_blind fun _ => .same .require fun _ => .pure rfl

theorem grantRole_blind {req : GrantRole} : Blind (grantRole req moment) :=
  .same lockTenant_blind fun _ => .same requireOpen_blind fun _ =>
    .same requireAdmin_blind fun _ => .same (select_blind fun _ _ _ => rfl) fun _ =>
    .same .expected fun _ => .same .require fun _ => .same .require fun _ =>
    .same resolveRoles_blind fun _ => .same .expected fun _ => .same reopenProfile_blind fun _ =>
    insertAssignment_blind

/-- The safeguard reads the grants, and only refuses. -/
theorem revokeRoleAssignment_blind {req : RevokeAssignment}
    : Blind (revokeRoleAssignment req moment) :=
  .same lockTenant_blind fun _ => .same (select_blind fun _ _ _ => rfl) fun _ =>
    .same (select_blind fun _ _ _ => rfl) fun _ => .same .expected fun _ => .same .require fun _ =>
    .apart fun _ _ => check_apart fun _ _ => .same revokeAssignments_blind fun _ =>
    revokeGrants_blind

theorem withdrawPendingRequests_blind {membershipId : Nat} {now : Timestamp}
    : Blind (withdrawPendingRequests membershipId now) :=
  .same (select_blind fun _ _ _ => rfl) fun _ => update_blind (fun _ _ _ => rfl) fun _ => rfl

theorem revokeMembership_blind {req : RevokeMembership} : Blind (revokeMembership req moment) :=
  .same lockTenant_blind fun _ => .same (.onlyIf requireAdmin_blind) fun _ =>
    .same (select_blind fun _ _ _ => rfl) fun _ => .same .expected fun _ => .same .require fun _ =>
    .same (select_blind fun _ _ _ => rfl) fun _ => .apart fun _ _ => check_apart fun _ _ =>
    .same revokeAssignments_blind fun _ => .same (select_blind fun _ _ _ => rfl) fun _ =>
    .same revokeAssignments_blind fun _ =>
    .same (.ite effectiveKeepUntil_blind (.pure rfl)) fun _ =>
    .same updateMembership_blind fun _ => .same (select_blind fun _ _ _ => rfl) fun _ =>
    .same revokeGrants_blind fun _ => .same withdrawPendingRequests_blind fun _ =>
    removeFromAllGroups_blind

-----------------------------------------------------------------------------------------
-- Requests and groups

theorem checkLimits_blind {requester : Email} {today : Date}
    : Blind (checkLimits requester today) :=
  .apart fun _ _ => .apart fun _ _ => check_lockstep

theorem insertRequest_blind {id : Option Nat} {request : Nat → AccessRequest}
    : Blind (insertRequest id request) :=
  .same (select_blind fun _ _ _ => rfl) fun _ => .apart fun _ _ => .same .require fun _ =>
    .same (update_blind (fun _ _ _ => rfl) fun _ => rfl) fun _ => .pure rfl

theorem createAccessRequest_blind {req : CreateAccessRequest}
    : Blind (createAccessRequest req moment) :=
  .same (.same .require fun _ => .same lockTenant_blind fun _ => .same requireOpen_blind fun _ =>
      .same checkLimits_blind fun _ => .pure rfl) fun _ =>
    insertRequest_blind

theorem createReplacementProposal_blind {req : CreateReplacementProposal}
    : Blind (createReplacementProposal req moment) :=
  .same (.same lockTenant_blind fun _ => .same requireOpen_blind fun _ =>
      .same (select_blind fun _ _ _ => rfl) fun _ => .same .expected fun _ =>
      .same (select_blind fun _ _ _ => rfl) fun _ => .same .expected fun _ =>
      .same .require fun _ => .same check_blind fun _ => .same checkLimits_blind fun _ =>
      .pure rfl) fun _ =>
    insertRequest_blind

theorem lockPendingRequest_blind {requestId : Nat} : Blind (lockPendingRequest requestId) :=
  .same (select_blind fun _ _ _ => rfl) fun _ => .same .expected fun _ => .same .require fun _ =>
    .pure rfl

theorem closeRequest_blind {decision : RequestDecision} {status : RequestStatus} {now : Timestamp}
    : Blind (closeRequest decision status now) :=
  update_blind (fun _ _ _ => rfl) fun _ => rfl

theorem declineRequest_blind {decision : RequestDecision}
    : Blind (declineRequest decision moment) :=
  .same (.same lockTenant_blind fun _ => .same requireAdmin_blind fun _ =>
      lockPendingRequest_blind) fun _ =>
    closeRequest_blind

theorem lapseRequests_blind : Blind (lapseRequests moment) :=
  .same (select_blind fun _ _ _ => rfl) fun _ =>
    .same (update_blind (fun _ _ _ => rfl) fun _ => rfl) fun _ => .pure rfl

theorem expirePendingTenants_blind : Blind (expirePendingTenants moment) :=
  .same (select_blind fun _ _ _ => rfl) fun _ => .ite
    (.same (update_blind (fun _ _ _ => rfl) fun _ => rfl) fun _ => .pure rfl)
    (.pure rfl)

theorem requireAuthorized_blind {viewer : Viewer} {resource : Resource} {action : Action}
    {today : Date} {hidden : MembershipError}
    : Blind (requireAuthorized viewer resource action today hidden) :=
  .apart fun _ _ => check_lockstep

theorem manage_blind {actor groupId : Nat} {today : Date} : Blind (manage actor groupId today) :=
  .same requireAuthorized_blind fun _ => .same (select_blind fun _ _ _ => rfl) fun _ =>
    .same .expected fun _ => .pure rfl

theorem updateGroup_blind {groupId : Nat} {change : Group → Group}
    : Blind (updateGroup groupId change) :=
  update_blind (fun _ _ _ => rfl) fun _ => rfl

theorem requireBound_blind {binding : Option GroupBinding} : Blind (requireBound binding) := by
  unfold requireBound
  split
  · exact .pure rfl
  · exact .apart fun _ _ => .require
  · exact .apart fun _ _ => .require

theorem createGroup_blind {req : CreateGroup} : Blind (createGroup req moment) :=
  .same .require fun _ => .same lockTenant_blind fun _ => .same requireOpen_blind fun _ =>
    .same requireAuthorized_blind fun _ => .same requireBound_blind fun _ =>
    .apart fun _ _ => .same .require fun _ =>
    .same (update_blind (fun _ _ _ => rfl) fun _ => rfl) fun _ => .pure rfl

theorem renameGroup_blind {req : RenameGroup} : Blind (renameGroup req moment) :=
  .same .require fun _ => .same lockTenant_blind fun _ => .same requireOpen_blind fun _ =>
    .same manage_blind fun _ => .same .require fun _ => updateGroup_blind

theorem setGroupVisibility_blind {req : SetGroupVisibility}
    : Blind (setGroupVisibility req moment) :=
  .same lockTenant_blind fun _ => .same (.onlyIf requireOpen_blind) fun _ =>
    .same manage_blind fun _ => .same .require fun _ => updateGroup_blind

theorem archiveGroup_blind {req : ArchiveGroup} : Blind (archiveGroup req moment) :=
  .same lockTenant_blind fun _ => .same manage_blind fun _ => .same .require fun _ =>
    updateGroup_blind

theorem addGroupMember_blind {req : GroupMemberChange} : Blind (addGroupMember req moment) :=
  .same lockTenant_blind fun _ => .same requireOpen_blind fun _ => .same manage_blind fun _ =>
    .same .require fun _ => .same (select_blind fun _ _ _ => rfl) fun _ => .same .expected fun _ =>
    .same .require fun _ => .apart fun _ _ => .same .require fun _ => .apart fun _ _ =>
    .same .require fun _ => .apart fun _ _ => .same .require fun _ =>
    update_blind (fun _ _ _ => rfl) fun _ => rfl

theorem removeGroupMember_blind {req : GroupMemberChange}
    : Blind (removeGroupMember req moment) :=
  .same lockTenant_blind fun _ => .same manage_blind fun _ =>
    .same (select_blind fun _ _ _ => rfl) fun _ => .same .expected fun _ =>
    update_blind (fun _ _ _ => rfl) fun _ => rfl

-----------------------------------------------------------------------------------------
-- Issuing

theorem generateToken_blind : Blind generateToken :=
  .same (select_blind fun _ _ _ => rfl) fun _ =>
    .same (update_blind (fun _ _ _ => rfl) fun _ => rfl) fun _ => .pure rfl

/-- The same new invitation under another grant is written alike. -/
theorem insertInvitation_lockstep {new : NewInvitation} {grantId : Option Nat} {now : Timestamp}
    : Lockstep Tables.Alike Eq (insertInvitation new now)
        (insertInvitation { new with handoverGrantId := grantId } now) := by
  refine .same generateToken_blind fun token => .same (.select ?_) fun id =>
    .apart fun _ _ => .same .require fun _ => .same (.update ?_) fun _ => .pure rfl
  · rintro s _ ⟨invited⟩
    have ids := map_eq_of_forall₂ invited fun _ _ (alike : Invitation.Alike _ _) => alike.id
    exact congrArg (fun ids => new.id.getD (freshId ids)) ids.symm
  · rintro s _ ⟨invited⟩
    exact .but (List.rel_append invited (.cons ⟨grantId, rfl⟩ .nil))

theorem insertInvitation_blind {new : NewInvitation} {now : Timestamp}
    : Blind (insertInvitation new now) :=
  insertInvitation_lockstep

/-- The same request, but for the grant it names, if it names one. -/
def IssueInvitation.Alike (req req' : IssueInvitation) : Prop :=
  ∃ grantId : Option Nat, grantId.isSome = req.handoverGrantId.isSome
    ∧ req' = { req with handoverGrantId := grantId }

theorem issuingMode_lockstep {req req' : IssueInvitation} {today : Date} (alike : req.Alike req')
    : Lockstep Tables.Alike Eq (issuingMode req today) (issuingMode req' today) := by
  obtain ⟨grantId, named, rfl⟩ := alike
  unfold issuingMode
  cases given : req.handoverGrantId with
  | none =>
      obtain rfl : grantId = none := by simpa [given] using named
      exact .same requireAdmin_blind fun _ => .pure rfl
  | some grant =>
      obtain ⟨grant', rfl⟩ := Option.isSome_iff_exists.mp (named.trans (given ▸ rfl))
      exact .apart fun _ _ => .same .require fun _ => .same .require fun _ => .apart fun _ _ =>
        .same .require fun _ => .same (select_blind fun _ _ _ => rfl) fun _ =>
        .same .expected fun _ => .same .require fun _ => .pure rfl

theorem issueInvitation_lockstep {req req' : IssueInvitation} (alike : req.Alike req')
    : Lockstep Tables.Alike Eq (issueInvitation req moment) (issueInvitation req' moment) := by
  have modes : Lockstep Tables.Alike Eq (issuingMode req moment.today)
      (issuingMode req' moment.today) :=
    issuingMode_lockstep alike
  obtain ⟨grantId, _, rfl⟩ := alike
  exact .same .require fun _ => .same lockTenant_blind fun _ => .same requireOpen_blind fun _ =>
    .same modes fun _ => .same resolveRoles_blind fun _ => .same .require fun _ =>
    insertInvitation_lockstep

theorem approveRequest_blind {decision : RequestDecision} {roles : List OfferedRole}
    : Blind (approveRequest decision roles moment) :=
  .same (.same lockTenant_blind fun _ => .same requireOpen_blind fun _ =>
      .same requireAdmin_blind fun _ => lockPendingRequest_blind) fun _ =>
    .same resolveRoles_blind fun _ => .same insertInvitation_blind fun _ =>
    .same closeRequest_blind fun _ => .pure rfl

/-- The admin state that lets a recovery through reads the grants, and only refuses. -/
theorem recoveryGrantAdmin_blind {req : RecoveryGrant} : Blind (recoveryGrantAdmin req moment) :=
  .same lockTenant_blind fun _ => .same requireOpen_blind fun _ =>
    .same (select_blind fun _ _ _ => rfl) fun _ => .same .expected fun _ =>
    .same .expected fun _ => .same .require fun _ => .same .require fun _ => .apart fun _ _ =>
    .same .require fun _ => .same resolveRoles_blind fun _ => .same .expected fun _ =>
    .same .require fun _ => insertInvitation_blind

-----------------------------------------------------------------------------------------
-- Changing and accepting invitations

/-- The invitations found under an id are alike. -/
theorem selectInvitation_lockstep {id : Nat}
    : Lockstep Tables.Alike (Option.Rel Invitation.Alike)
        (select (·.invitation id) : Tx (Option Invitation)) (select (·.invitation id)) := by
  refine .select ?_
  rintro s _ ⟨invited⟩
  exact findRow_forall₂ (fun _ _ alike => alike.id) invited id

/-- An invitation that is expected is there on both sides, alike. -/
theorem expect_lockstep {found found' : Option Invitation} {error error' : MembershipError}
    (alike : Option.Rel Invitation.Alike found found')
    : Lockstep Tables.Alike Invitation.Alike (expect found error) (expect found' error') := by
  refine .expect fun i j here there => ?_
  cases alike with
  | some related =>
      cases here
      cases there
      exact related
  | none => cases here

/-- A change that leaves the grant alone keeps invitations alike. -/
theorem updateInvitation_blind {id : Nat} {change : Invitation → Invitation}
    (keeps : ∀ i j : Invitation, i.Alike j → (change i).Alike (change j))
    : Blind (updateInvitation id change) := by
  refine .update ?_
  rintro s _ ⟨invited⟩
  refine .but (List.forall₂_map_left_iff.mpr (List.forall₂_map_right_iff.mpr ?_))
  refine invited.imp fun i j alike => ?_
  unfold changeAt
  rw [alike.id]
  split
  · exact keeps i j alike
  · exact alike

theorem issuerMayChange_unchanged {actor : Nat} {inv : Invitation} {today : Date}
    {kind : ChangeKind} {s after : Tables} {may : Bool}
    (commits : (issuerMayChange actor inv today kind).Commits s may after)
    : after = s := by
  unfold issuerMayChange at commits
  split at commits
  · exact (commits_select.mp commits).2
  · exact (commits_select.mp commits).2
  · exact (commits_select.mp commits).2
  · exact (commits_pure.mp commits).2

/-- The grant decides at most whether the issuer may. -/
theorem authorizeChange_lockstep {change : InvitationChange} {inv inv' : Option Invitation}
    {today : Date} {kind : ChangeKind} (alike : Option.Rel Invitation.Alike inv inv')
    : Lockstep Tables.Alike Eq (authorizeChange change inv today kind)
        (authorizeChange change inv' today kind) := by
  refine .same (select_blind fun _ _ _ => rfl) fun _ => .ite (.pure rfl) ?_
  refine (expect_lockstep alike).bind fun i j related => .same .require fun _ => ?_
  exact (Lockstep.unchanged (fun _ _ _ => issuerMayChange_unchanged)
    fun _ _ _ => issuerMayChange_unchanged).bind fun _ _ _ => .require

theorem resendInvitation_blind {change : InvitationChange}
    : Blind (resendInvitation change moment) := by
  refine .same lockTenant_blind fun _ => selectInvitation_lockstep.bind fun _ _ alike =>
    .same (authorizeChange_lockstep alike) fun _ => .same requireOpen_blind fun _ =>
    (expect_lockstep alike).bind fun i j related => .same .require fun _ => .apart fun _ _ =>
    .same .require fun _ => .same generateToken_blind fun _ =>
    .same (updateInvitation_blind ?_) fun _ => .pure rfl
  rintro i _ ⟨grantId, rfl⟩
  exact ⟨grantId, rfl⟩

theorem withdrawInvitation_blind {change : InvitationChange}
    : Blind (withdrawInvitation change moment) := by
  refine .same lockTenant_blind fun _ => selectInvitation_lockstep.bind fun _ _ alike =>
    .same (authorizeChange_lockstep alike) fun _ =>
    (expect_lockstep alike).bind fun i j related => .same .require fun _ =>
    updateInvitation_blind ?_
  rintro i _ ⟨grantId, rfl⟩
  exact ⟨grantId, rfl⟩

theorem offeredRole_blind {read : List (Nat × CapabilityClass × Period)} {offered : Nat × Period}
    : Blind (offeredRole read offered) :=
  .same (select_blind fun _ _ _ => rfl) fun _ => .same .expected fun _ => .apart fun _ _ =>
    .same .require fun _ => .pure rfl

theorem overrideEnd_blind {ends : Date} {read : List (Nat × CapabilityClass × Period)}
    {role : Nat × CapabilityClass × Period}
    : Blind (overrideEnd ends read role) :=
  .ite (.same .expected fun _ => .pure rfl) (.pure rfl)

theorem acceptedRoles_blind {inv : Invitation} {adminEndOverride : Option Date} {today : Date}
    : Blind (acceptedRoles inv adminEndOverride today) := by
  refine .same (.foldlM fun _ _ => offeredRole_blind) fun roles => ?_
  cases adminEndOverride with
  | none => exact .pure rfl
  | some ends =>
      exact .same .require fun _ => .same check_lockstep fun _ => .foldlM fun _ _ =>
        overrideEnd_blind

/-- The token keeps invitations alike. -/
theorem filter_token_alike {found found' : Option Invitation} {token : Nat}
    (alike : Option.Rel Invitation.Alike found found')
    : Option.Rel Invitation.Alike (found.filter (·.token = token))
        (found'.filter (·.token = token)) := by
  cases alike with
  | none => exact .none
  | @some i j related =>
      obtain ⟨grantId, rfl⟩ := related
      by_cases same : i.token = token
      · rw [Option.filter_some, Option.filter_some, if_pos (by simpa using same),
          if_pos (by simpa using same)]
        exact .some ⟨grantId, rfl⟩
      · rw [Option.filter_some, Option.filter_some, if_neg (by simpa using same),
          if_neg (by simpa using same)]
        exact .none

/-- The grant decides at most whether the acceptance passes its checks. -/
theorem acceptInvitation_blind {found : Nat} {req : AcceptInvitation}
    : Blind (acceptInvitation found req moment) := by
  refine .same MemberProfile.check_blind fun _ => .same lockTenant_blind fun _ =>
    selectInvitation_lockstep.bind fun _ _ alike =>
    (expect_lockstep (filter_token_alike alike)).bind fun i j related => .apart fun _ _ =>
    check_apart fun _ _ => ?_
  obtain ⟨grantId, rfl⟩ := related
  refine .same acceptedRoles_blind fun _ => .same upsertVerifiedAccount_blind fun _ =>
    .same ensureMembership_blind fun _ => .same writeProfile_blind fun _ =>
    .same (.foldlM fun _ _ => .same insertAssignment_blind fun _ => .pure rfl) fun _ =>
    .same (updateInvitation_blind ?_) fun _ => .pure rfl
  rintro i _ ⟨grantId, rfl⟩
  exact ⟨grantId, rfl⟩

-----------------------------------------------------------------------------------------
-- Activation

theorem inviteLeader_blind {signup : TenantSignup} {adminRoleId : Nat} {period : Period}
    {now : Timestamp}
    : Blind (inviteLeader signup adminRoleId period now) :=
  .ite (.same insertInvitation_blind fun _ => .pure rfl) (.pure rfl)

theorem insertBootstrapRole_blind : Blind insertBootstrapRole :=
  .same (select_blind fun _ _ _ => rfl) fun _ =>
    .same (update_blind (fun _ _ _ => rfl) fun _ => rfl) fun _ => .pure rfl

theorem activateTenant_blind {activation : Activation} : Blind (activateTenant activation moment) :=
  .same MemberProfile.check_blind fun _ => .same lockTenant_blind fun _ =>
    .same .require fun _ => .same .require fun _ => .same (select_blind fun _ _ _ => rfl) fun _ =>
    .same .expected fun _ => .same .require fun _ => .same .require fun _ =>
    .same .expected fun _ => .same (update_blind (fun _ _ _ => rfl) fun _ => rfl) fun _ =>
    .same upsertVerifiedAccount_blind fun _ => .same .require fun _ =>
    .same ensureMembership_blind fun _ => .same writeProfile_blind fun _ =>
    .same insertBootstrapRole_blind fun _ => .same insertAssignment_blind fun _ =>
    .same inviteLeader_blind fun _ => .apart fun _ _ => .same .require fun _ =>
    .same (update_blind (fun _ _ _ => rfl) fun _ => rfl) fun _ => .pure rfl

-----------------------------------------------------------------------------------------
-- Every operation

/-- Tables that are alike stay so under any other grants. -/
theorem Tables.Alike.withGrants {s t : Tables} (alike : s.Alike t) (left right : List HandoverGrant)
    : ({ s with grants := left } : Tables).Alike { t with grants := right } := by
  obtain ⟨invited⟩ := alike
  exact .but invited

/-- The same request, but for the grant an invitation is issued under. -/
inductive Operation.Alike : Operation → Operation → Prop
  | same (op : Operation) : Alike op op
  | issued {req req' : IssueInvitation} (alike : req.Alike req')
    : Alike (.issueInvitation req) (.issueInvitation req')

/-- What an operation commits that is not a grant it commits whatever grants there are. -/
theorem Operation.Commits.alike {op op' : Operation} {s t s' t' : Tables} (requests : op.Alike op')
    (tables : s.Alike t) (left : op.Commits moment s s') (right : op'.Commits moment t t')
    : s'.Alike t' := by
  have together {α : Type} {transaction transaction' : Tx α}
      (lockstep : Lockstep Tables.Alike Eq transaction transaction')
      (commits : Leaves transaction s s') (commits' : Leaves transaction' t t')
      : s'.Alike t' := by
    obtain ⟨_, commits⟩ := commits
    obtain ⟨_, commits'⟩ := commits'
    exact (lockstep _ _ _ _ _ _ tables commits commits').2
  cases requests with
  | issued alike => exact together (issueInvitation_lockstep alike) left right
  | same =>
      cases op
      case issueInvitation req =>
        exact together (issueInvitation_lockstep ⟨_, rfl, rfl⟩) left right
      case resendInvitation => exact together resendInvitation_blind left right
      case withdrawInvitation => exact together withdrawInvitation_blind left right
      case acceptInvitation => exact together acceptInvitation_blind left right
      case grantRole => exact together grantRole_blind left right
      case revokeRoleAssignment => exact together revokeRoleAssignment_blind left right
      case revokeMembership => exact together revokeMembership_blind left right
      case createAccessRequest => exact together createAccessRequest_blind left right
      case createReplacementProposal => exact together createReplacementProposal_blind left right
      case approveRequest => exact together approveRequest_blind left right
      case declineRequest => exact together declineRequest_blind left right
      case lapseRequests => exact together lapseRequests_blind left right
      case activateTenant => exact together activateTenant_blind left right
      case expirePendingTenants => exact together expirePendingTenants_blind left right
      case createTenantHandoverGrants =>
        obtain ⟨_, left⟩ := left
        obtain ⟨_, right⟩ := right
        obtain ⟨added, rfl, _⟩ := createTenantHandoverGrants_commits left
        obtain ⟨added', rfl, _⟩ := createTenantHandoverGrants_commits right
        exact tables.withGrants _ _
      case recoveryGrantAdmin => exact together recoveryGrantAdmin_blind left right
      case clearEndedProfiles => exact together clearEndedProfiles_blind left right
      case setRetentionMonths => exact together setRetentionMonths_blind left right
      case eraseMemberNames => exact together eraseMemberNames_blind left right
      case setDisplayName => exact together setDisplayName_blind left right
      case setContactEmail => exact together setContactEmail_blind left right
      case createGroup => exact together createGroup_blind left right
      case renameGroup => exact together renameGroup_blind left right
      case setGroupVisibility => exact together setGroupVisibility_blind left right
      case archiveGroup => exact together archiveGroup_blind left right
      case addGroupMember => exact together addGroupMember_blind left right
      case removeGroupMember => exact together removeGroupMember_blind left right

end

end FauPortalen.Membership

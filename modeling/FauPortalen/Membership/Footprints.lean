import FauPortalen.Membership.Changes

/-! The footprint of every transaction: what its statements, one after the other, may write. -/

set_option linter.unusedSectionVars false

namespace FauPortalen.Membership

open Foundations Transaction

variable [OsloZone] {now : Timestamp} {written : List Written} {moment : Moment}
  {R : Tables → Tables → Prop} [IsPreorder Tables R]

local instance : IsPreorder Tables (Tables.Changes now written) := inferInstance

-----------------------------------------------------------------------------------------
-- The shared statements

theorem lockTenant_within : Within R lockTenant :=
  .bind .select fun _ => .expect

theorem requireOpen_within {state : Tenant}
    : Within R (requireOpen state) :=
  .bind .require fun _ => .require

theorem requireAdmin_within {membershipId : Nat} {today : Date}
    : Within R (requireAdmin membershipId today) :=
  .bind .select fun _ => .require

theorem check_within {ε α : Type} {verdict : Except ε α} {error : ε → MembershipError}
    : Within R (check verdict error) :=
  .of_unchanged fun _ _ _ commits => (commits_check.mp commits).2

/-- An update of memberships that keeps what identifies them and their erasure. -/
theorem updateMemberships_within {picks : MembershipRow → Bool}
    {change : MembershipRow → MembershipRow} (writes : .profiles ∈ written)
    (keeps : ∀ m, picks m → m.GoesOn written (change m))
    : Within (Tables.Changes now written) (updateMemberships picks change) := by
  intro s u after commits
  simp only [updateMemberships, commits_bind, commits_select, commits_require, commits_update]
    at commits
  obtain ⟨_, _, ⟨rfl, rfl⟩, _, _, ⟨_, rfl⟩, rfl⟩ := commits
  have goesOn (m : MembershipRow)
      : m.GoesOn written (if picks m then m.retentionFollowsFields (change m) else m) := by
    split
    · next picked =>
        have kept := keeps m picked
        unfold MembershipRow.retentionFollowsFields
        split
        · exact ⟨kept.id, kept.accountId, kept.erased, kept.revoked⟩
        · exact kept
    · exact .refl m
  exact { Tables.Changes.refl now written _ with
    memberships := .map (fun _ _ h => h.id) goesOn _
    sameMemberships := fun _ h => absurd writes h
    noMemberships := fun _ => by
      rw [List.map_map]
      exact List.map_congr_left fun m _ => (goesOn m).id }

theorem updateMembership_within {id : Nat} {change : MembershipRow → MembershipRow}
    (writes : .profiles ∈ written) (keeps : ∀ m : MembershipRow, m.GoesOn written (change m))
    : Within (Tables.Changes now written) (updateMembership id change) :=
  updateMemberships_within writes fun m _ => keeps m

theorem upsertVerifiedAccount_within {email : Email} {at_ : Timestamp}
    (writes : .accounts ∈ written)
    : Within (Tables.Changes now written) (upsertVerifiedAccount email at_) := by
  intro s a after commits
  simp only [upsertVerifiedAccount, commits_bind, commits_select] at commits
  obtain ⟨found, middle, ⟨rfl, rfl⟩, rest⟩ := commits
  split at rest
  · simp only [commits_bind, commits_update, commits_pure] at rest
    obtain ⟨_, _, rfl, rfl, rfl⟩ := rest
    refine { Tables.Changes.refl now written _ with
      accounts := .map (fun _ _ h => h.id) (fun row => ?_) _
      emails := fun unique => ?_
      sameAccounts := fun h => absurd writes h }
    · unfold changeAt
      split
      · exact ⟨rfl, rfl, fun verified => Option.or_of_isSome verified⟩
      · exact .refl row
    · rw [List.map_map]
      refine (List.map_congr_left fun row _ => ?_) ▸ unique
      simp only [Function.comp_apply, changeAt]
      split <;> rfl
  · next none_ =>
      simp only [commits_bind, commits_select, commits_update, commits_pure] at rest
      obtain ⟨id, _, ⟨rfl, rfl⟩, _, _, rfl, rfl, rfl⟩ := rest
      exact { Tables.Changes.refl now written _ with
        accounts := .concat .refl (freshId_not_mem _)
        emails := fun unique => by
          rw [List.map_append, List.map_singleton]
          exact List.concat_eq_append ▸ unique.concat (findRow_eq_none.mp none_)
        sameAccounts := fun h => absurd writes h }

theorem insertAssignment_within {membershipId roleId : Nat} {period : Period}
    {grantedBy : Option Nat} (writes : .assignments ∈ written)
    : Within (Tables.Changes now written)
        (insertAssignment membershipId roleId period grantedBy) := by
  intro s a after commits
  simp only [insertAssignment, commits_bind, commits_select, commits_update, commits_pure]
    at commits
  obtain ⟨id, _, ⟨rfl, rfl⟩, _, _, rfl, rfl, rfl⟩ := commits
  exact { Tables.Changes.refl now written _ with
    assignments := .concat .refl (freshId_not_mem _)
    sameAssignments := fun h => absurd writes h
    noAssignments := fun h => absurd writes h
    noRevocations := fun _ => ⟨_, rfl⟩ }

theorem revokeAssignments_within {picks : RoleAssignment → Bool} (writes : .revocations ∈ written)
    : Within (Tables.Changes now written) (revokeAssignments picks now) := by
  intro s a after commits
  obtain rfl := commits_update.mp commits
  have goesOn (ra : RoleAssignment)
      : ra.GoesOn now
          (if picks ra && ra.revokedAt.isNone then { ra with revokedAt := some now } else ra) := by
    split
    · next picked => exact ⟨rfl, .inr ⟨by simp_all, rfl⟩⟩
    · exact .refl ra
  exact { Tables.Changes.refl now written _ with
    assignments := .map (fun _ _ h => h.id) goesOn _
    sameAssignments := fun _ h => absurd writes h
    noAssignments := fun _ => by
      rw [List.map_map]
      exact List.map_congr_left fun ra _ => (goesOn ra).id
    noRevocations := fun h => absurd writes h }

theorem revokeGrants_within {picks : HandoverGrant → Bool} {at_ : Timestamp}
    (writes : .grantRevocations ∈ written)
    : Within (Tables.Changes now written) (revokeGrants picks at_) := by
  intro s a after commits
  obtain rfl := commits_update.mp commits
  have goesOn (g : HandoverGrant)
      : g.GoesOn (if picks g && g.revokedAt.isNone then { g with revokedAt := some at_ } else g) := by
    split
    · next picked =>
        refine ⟨rfl, fun revoked => ?_⟩
        simp_all
    · exact .refl g
  exact { Tables.Changes.refl now written _ with
    grants := .map (fun _ _ h => h.id) goesOn _
    sameGrants := fun _ h => absurd writes h
    noGrants := fun _ => by
      rw [List.map_map]
      exact List.map_congr_left fun g _ => (goesOn g).id }

theorem removeFromAllGroups_within {membershipId : Nat} {at_ : Timestamp}
    (writes : .memberRemovals ∈ written)
    : Within (Tables.Changes now written) (removeFromAllGroups membershipId at_) := by
  intro s a after commits
  obtain rfl := commits_update.mp commits
  have goesOn (gm : GroupMember)
      : gm.GoesOn
          (if gm.membershipId = membershipId && gm.removedAt.isNone
            then { gm with removedAt := some at_ }
            else gm) := by
    split
    · exact ⟨rfl, fun _ => rfl⟩
    · exact .refl gm
  exact { Tables.Changes.refl now written s with
    groupMembers := .map (fun _ _ h => h.id) goesOn _
    sameGroupMembers := fun _ h => absurd writes h
    noGroupMembers := fun _ => by
      rw [List.map_map]
      exact List.map_congr_left fun gm _ => (goesOn gm).id }

-----------------------------------------------------------------------------------------
-- Profiles

theorem effectiveKeepUntil_within {membershipId : Nat} {stamped : Option Date} {today : Date}
    : Within R (effectiveKeepUntil membershipId stamped today) := by
  unfold effectiveKeepUntil
  split
  · exact .pure
  · exact .bind .select fun _ => .bind .expect fun _ => .bind .select fun _ =>
      .bind .expect fun _ => .pure

theorem clearProfile_within {membershipId : Nat} (writes : .profiles ∈ written)
    : Within (Tables.Changes now written) (clearProfile membershipId) :=
  updateMembership_within writes fun _ => ⟨rfl, rfl, fun _ => rfl, fun _ h => h⟩

theorem settleProfile_within {membershipId : Nat} (writes : .profiles ∈ written)
    : Within (Tables.Changes now written) (settleProfile membershipId moment) := by
  refine .bind .select fun _ => .bind .expect fun m => .bind .select fun ended => ?_
  refine .ite .pure (.ite .pure (.bind effectiveKeepUntil_within fun until_ => ?_))
  split
  · exact .pure
  · exact .bind (updateMembership_within writes fun _ => ⟨rfl, rfl, fun _ => rfl, fun _ h => h⟩) fun _ => .pure
  · exact .bind (clearProfile_within writes) fun _ => .pure

/-- The one place a revoked membership is made current. -/
theorem reopenProfile_within {membershipId : Nat} (writes : .profiles ∈ written)
    (returns : .returns ∈ written) (removes : .memberRemovals ∈ written)
    : Within (Tables.Changes now written) (reopenProfile membershipId moment) :=
  .bind .select fun _ => .bind .expect fun _ => .bind .select fun _ =>
    .bind (.onlyIf (removeFromAllGroups_within removes)) fun _ =>
    .bind (settleProfile_within writes) fun _ =>
    .bind (updateMembership_within writes fun _ =>
      ⟨rfl, rfl, fun _ => rfl, fun h => absurd returns h⟩) fun _ => .pure

/-- The one place a membership comes from. -/
theorem ensureMembership_within {accountId expectedId : Nat} (inserts : .memberships ∈ written)
    (writes : .profiles ∈ written) (returns : .returns ∈ written)
    (removes : .memberRemovals ∈ written)
    : Within (Tables.Changes now written) (ensureMembership accountId expectedId moment) := by
  refine .bind .select fun found => ?_
  split
  · exact .bind .require fun _ => .bind .require fun _ =>
      .bind (reopenProfile_within writes returns removes) fun _ => .pure
  · intro s a after commits
    simp only [commits_bind, commits_select, commits_require, commits_update, commits_pure]
      at commits
    obtain ⟨_, _, ⟨rfl, rfl⟩, _, _, ⟨unknown, rfl⟩, _, _, rfl, _, rfl⟩ := commits
    exact { Tables.Changes.refl now written _ with
      memberships := .concat .refl (findRow_eq_none.mp unknown)
      sameMemberships := fun h => absurd inserts h
      noMemberships := fun h => absurd inserts h }

theorem writeProfile_within {profile : MemberProfile} {alreadyCurrent : Bool}
    (writes : .profiles ∈ written)
    : Within (Tables.Changes now written) (writeProfile profile alreadyCurrent) :=
  updateMembership_within writes fun _ => ⟨rfl, rfl, fun _ => rfl, fun _ h => h⟩

theorem checkGivenContactEmail_within {given : Option Ciphertext}
    : Within R (checkGivenContactEmail given) := by
  cases given with
  | some ciphertext => exact .require
  | none => exact .pure

theorem MemberProfile.check_within {profile : MemberProfile}
    : Within R profile.check :=
  .bind .require fun _ => checkGivenContactEmail_within

theorem clearEndedProfiles_within
    : Within (Tables.Changes moment.now [.profiles, .memberRemovals])
        (clearEndedProfiles moment) :=
  .bind .select fun _ => .ite
    (.bind lockTenant_within fun _ => .bind .select fun _ =>
      .bind (.foldlM fun _ _ => .bind (settleProfile_within (by simp)) fun _ => .pure) fun _ =>
      .bind .select fun _ => .bind (.forM fun _ => removeFromAllGroups_within (by simp)) fun _ =>
      .pure)
    .pure

theorem restampProfile_within {months : RetentionMonths} {stamped : Nat × Date}
    (writes : .profiles ∈ written)
    : Within (Tables.Changes now written) (restampProfile months moment stamped) := by
  refine .bind .select fun _ => .bind .expect fun ended => ?_
  split
  · exact clearProfile_within writes
  · exact .ite (updateMembership_within writes fun _ => ⟨rfl, rfl, fun _ => rfl, fun _ h => h⟩) .pure

theorem setRetentionMonths_within {accountId : Nat} {months : RetentionMonths}
    : Within (Tables.Changes moment.now [.accounts, .profiles])
        (setRetentionMonths accountId months moment) := by
  refine .bind .select fun listed => .bind (.onlyIf ?_) fun _ => .bind .select fun _ =>
    .bind .require fun _ => .bind ?_ fun _ => .onlyIf ?_
  · exact .bind lockTenant_within fun _ => .bind .select fun _ =>
      .forM fun _ => .bind (settleProfile_within (by simp)) fun _ => .pure
  · intro s u after commits
    obtain rfl := commits_update.mp commits
    refine { Tables.Changes.refl moment.now [.accounts, .profiles] _ with
      accounts := .map (fun _ _ h => h.id) (fun row => ?_) _
      emails := fun unique => ?_
      sameAccounts := fun h => absurd List.mem_cons_self h }
    · unfold changeAt
      split
      · exact ⟨rfl, rfl, fun _ => rfl⟩
      · exact .refl row
    · rw [List.map_map]
      refine (List.map_congr_left fun row _ => ?_) ▸ unique
      simp only [Function.comp_apply, changeAt]
      split <;> rfl
  · exact .bind .select fun _ => .forM fun _ => restampProfile_within (by simp)

theorem eraseMemberNames_within {accountId : Nat}
    : Within (Tables.Changes moment.now [.profiles]) (eraseMemberNames accountId moment) :=
  .bind .select fun _ => .ite
    (.bind lockTenant_within fun _ =>
      updateMemberships_within (by simp) fun m picked =>
        ⟨rfl, rfl, fun erased => by simp_all, fun _ h => h⟩)
    .pure

theorem setDisplayName_within {req : SetDisplayName}
    : Within (Tables.Changes moment.now [.profiles]) (setDisplayName req moment) :=
  .bind .require fun _ => .bind lockTenant_within fun _ => .bind requireOpen_within fun _ =>
    .bind (.ite (.bind .select fun _ => .require) requireAdmin_within) fun _ =>
    .bind .select fun _ => .bind .expect fun _ => .bind .require fun _ =>
    .bind .select fun _ => .bind .require fun _ =>
    updateMembership_within (by simp) fun _ => ⟨rfl, rfl, fun _ => rfl, fun _ h => h⟩

theorem setContactEmail_within {req : SetContactEmail}
    : Within (Tables.Changes moment.now [.profiles]) (setContactEmail req moment) :=
  .bind checkGivenContactEmail_within fun _ => .bind lockTenant_within fun _ =>
    .bind (.onlyIf requireOpen_within) fun _ => .bind .select fun _ => .bind .require fun _ =>
    .bind .select fun _ => .bind .expect fun _ => .bind .require fun _ =>
    updateMembership_within (by simp) fun _ => ⟨rfl, rfl, fun _ => rfl, fun _ h => h⟩

-----------------------------------------------------------------------------------------
-- Roles and invitations

theorem requireLiveGroup_within {groupId : Option Nat}
    : Within R (requireLiveGroup groupId) := by
  cases groupId with
  | some id => exact .bind .select fun _ => .bind .expect fun _ => .require
  | none => exact .pure

theorem createRole_within {name : String} {capability : CapabilityClass} {groupId : Option Nat}
    (writes : .roles ∈ written)
    : Within (Tables.Changes now written) (createRole name capability groupId) := by
  refine .bind .require fun _ => .bind requireLiveGroup_within fun _ => ?_
  intro s role after commits
  simp only [commits_bind, commits_select, commits_update, commits_pure] at commits
  obtain ⟨_, _, ⟨rfl, rfl⟩, _, _, rfl, _, rfl⟩ := commits
  exact { Tables.Changes.refl now written _ with
    roles := .concat (fun _ => rfl) (freshId_not_mem _)
    sameRoles := fun h => absurd writes h }

theorem resolveRoles_within {offered : List OfferedRole} {today : Date} (writes : .roles ∈ written)
    : Within (Tables.Changes now written) (resolveRoles offered today) := by
  refine .bind .require fun _ => .foldlM fun resolved role => .bind .require fun _ =>
    .bind ?_ fun _ => .bind .require fun _ => .pure
  cases role.role with
  | existing id =>
      exact .bind .select fun _ => .bind .expect fun _ => .bind .select fun _ =>
        .bind .require fun _ => .pure
  | new name capability groupId => exact createRole_within writes

/-- A pending invitation is added with the next token. -/
theorem insertInvitation_within {new : NewInvitation} {at_ : Timestamp}
    (writes : .invitations ∈ written) (links : .links ∈ written ∨ new.accessRequestId = none)
    : Within (Tables.Changes now written) (insertInvitation new at_) := by
  intro s issued after commits
  simp only [insertInvitation, generateToken, bind_assoc, pure_bind, commits_select_bind,
    commits_update_bind, commits_require_bind, commits_pure] at commits
  obtain ⟨unknown, _, rfl⟩ := commits
  exact { Tables.Changes.refl now written _ with
    invitations := .concat .refl (findRow_eq_none.mp unknown)
    sameInvitations := fun h => absurd writes h
    noInvitations := fun h => absurd writes h
    noLinks := fun h i inside new => by
      rcases List.mem_append.mp inside with old | added
      · exact absurd (List.mem_map_of_mem old) new
      · rw [List.mem_singleton.mp added]
        exact links.resolve_left h
    tokens := Nat.le_succ _
    tokensGiven := fun given i inside => by
      rcases List.mem_append.mp inside with old | added
      · exact Nat.lt_succ_of_lt (given i old)
      · rw [List.mem_singleton.mp added]
        exact Nat.lt_succ_self _ }

/-- A change of an invitation that keeps its token, whatever tokens had been given. -/
theorem updateInvitation_within {id : Nat} {change : Invitation → Invitation}
    (writes : .invitationChanges ∈ written)
    (keeps : ∀ (nextToken : Nat) (i : Invitation), i.GoesOn nextToken (change i))
    : Within (Tables.Changes now written) (updateInvitation id change) := by
  intro s u after commits
  obtain rfl := commits_update.mp commits
  have goesOn (nextToken : Nat) (i : Invitation)
      : i.GoesOn nextToken (changeAt Invitation.id id change i) := by
    unfold changeAt
    split
    · exact keeps nextToken i
    · exact .refl i
  have sameIds : (s.invitations.map (changeAt Invitation.id id change)).map (·.id)
      = s.invitations.map (·.id) := by
    rw [List.map_map]
    exact List.map_congr_left fun i _ => (goesOn s.nextToken i).id
  have token (i : Invitation) : (changeAt Invitation.id id change i).token = i.token := by
    rcases (goesOn _ i).token with same | later
    · exact same
    · exact absurd later (Nat.not_succ_le_self _)
  exact { Tables.Changes.refl now written _ with
    invitations := .map (fun _ _ h => h.id) (goesOn _) _
    sameInvitations := fun _ h => absurd writes h
    noInvitations := fun _ => sameIds
    noLinks := fun _ i inside new => absurd (sameIds ▸ List.mem_map_of_mem inside) new
    tokensGiven := fun given i inside => by
      obtain ⟨old, there, rfl⟩ := List.mem_map.mp inside
      exact token old ▸ given old there }

/-- The next token replaces an invitation's. -/
theorem renewToken_within {α : Type} {id : Nat} {expiresAt : Timestamp} {result : Nat → α}
    (writes : .invitationChanges ∈ written)
    : Within (Tables.Changes now written) (do
        let token ← generateToken
        updateInvitation id ({ · with token := token, expiresAt := expiresAt })
        pure (result token) : Tx α) := by
  intro s u after commits
  simp only [generateToken, updateInvitation, bind_assoc, pure_bind, commits_select_bind,
    commits_update_bind, commits_pure] at commits
  obtain ⟨_, rfl⟩ := commits
  have goesOn (i : Invitation)
      : i.GoesOn s.nextToken (changeAt Invitation.id id
          ({ · with token := s.nextToken, expiresAt := expiresAt }) i) := by
    unfold changeAt
    split
    · exact ⟨rfl, rfl, rfl, rfl, rfl, rfl, rfl, rfl, .inr (Nat.le_refl _), fun h => h,
        fun h => h⟩
    · exact .refl i
  have sameIds : (s.invitations.map (changeAt Invitation.id id
        ({ · with token := s.nextToken, expiresAt := expiresAt }))).map (·.id)
      = s.invitations.map (·.id) := by
    rw [List.map_map]
    exact List.map_congr_left fun i _ => (goesOn i).id
  exact { Tables.Changes.refl now written _ with
    invitations := .map (fun _ _ h => h.id) goesOn _
    sameInvitations := fun _ h => absurd writes h
    noInvitations := fun _ => sameIds
    noLinks := fun _ i inside new => absurd (sameIds ▸ List.mem_map_of_mem inside) new
    tokens := Nat.le_succ _
    tokensGiven := fun given i inside => by
      obtain ⟨old, there, rfl⟩ := List.mem_map.mp inside
      unfold changeAt
      split
      · exact Nat.lt_succ_self _
      · exact Nat.lt_succ_of_lt (given old there) }

theorem issuingMode_within {req : IssueInvitation} {today : Date}
    : Within R (issuingMode req today) := by
  unfold issuingMode
  split
  · exact .bind requireAdmin_within fun _ => .pure
  · exact .bind .select fun _ => .bind .require fun _ => .bind .require fun _ =>
      .bind .select fun _ => .bind .require fun _ => .bind .select fun _ =>
      .bind .expect fun _ => .bind .require fun _ => .pure

theorem issueInvitation_within {req : IssueInvitation}
    : Within (Tables.Changes moment.now [.roles, .invitations]) (issueInvitation req moment) :=
  .bind .require fun _ => .bind lockTenant_within fun _ => .bind requireOpen_within fun _ =>
    .bind issuingMode_within fun _ => .bind (resolveRoles_within (by simp)) fun _ =>
    .bind .require fun _ => insertInvitation_within (by simp) (.inr rfl)

theorem authorizeChange_within {change : InvitationChange} {inv : Option Invitation} {today : Date}
    {kind : ChangeKind}
    : Within R (authorizeChange change inv today kind) := by
  refine .bind .select fun _ => .ite .pure (.bind .expect fun inv => .bind .require fun _ =>
    .bind ?_ fun _ => .require)
  unfold issuerMayChange
  split
  · exact .select
  · exact .select
  · exact .select
  · exact .pure

theorem resendInvitation_within {change : InvitationChange}
    : Within (Tables.Changes moment.now [.invitationChanges]) (resendInvitation change moment) :=
  .bind lockTenant_within fun _ => .bind .select fun _ => .bind authorizeChange_within fun _ =>
    .bind requireOpen_within fun _ => .bind .expect fun _ => .bind .require fun _ =>
    .bind .select fun _ => .bind .require fun _ => renewToken_within (by simp)

theorem withdrawInvitation_within {change : InvitationChange}
    : Within (Tables.Changes moment.now [.invitationChanges]) (withdrawInvitation change moment) :=
  .bind lockTenant_within fun _ => .bind .select fun _ => .bind authorizeChange_within fun _ =>
    .bind .expect fun _ => .bind .require fun _ =>
    updateInvitation_within (by simp) fun _ _ =>
      ⟨rfl, rfl, rfl, rfl, rfl, rfl, rfl, rfl, .inl rfl, fun h => h, fun _ => rfl⟩

theorem acceptedRoles_within {inv : Invitation} {adminEndOverride : Option Date} {today : Date}
    : Within R (acceptedRoles inv adminEndOverride today) := by
  refine .bind (.foldlM fun _ _ => .bind .select fun _ => .bind .expect fun _ =>
    .bind .select fun _ => .bind .require fun _ => .pure) fun _ => ?_
  split
  · exact .pure
  · exact .bind .require fun _ => .bind check_within fun _ => .foldlM fun _ _ =>
      .ite (.bind .expect fun _ => .pure) .pure

theorem acceptInvitation_within {found : Nat} {req : AcceptInvitation}
    : Within
        (Tables.Changes moment.now
          [.accounts, .memberships, .profiles, .returns, .memberRemovals, .assignments,
            .invitationChanges])
        (acceptInvitation found req moment) :=
  .bind MemberProfile.check_within fun _ => .bind lockTenant_within fun _ =>
    .bind .select fun _ => .bind .expect fun _ => .bind .select fun _ =>
    .bind check_within fun _ => .bind acceptedRoles_within fun _ =>
    .bind (upsertVerifiedAccount_within (by simp)) fun _ =>
    .bind (ensureMembership_within (by simp) (by simp) (by simp) (by simp)) fun _ =>
    .bind (writeProfile_within (by simp)) fun _ =>
    .bind (.foldlM fun _ _ => .bind (insertAssignment_within (by simp)) fun _ => .pure) fun _ =>
    .bind (updateInvitation_within (by simp) fun _ _ =>
      ⟨rfl, rfl, rfl, rfl, rfl, rfl, rfl, rfl, .inl rfl, fun _ => rfl, fun h => h⟩) fun _ => .pure

-----------------------------------------------------------------------------------------
-- Grants and revocations

theorem grantRole_within {req : GrantRole}
    : Within
        (Tables.Changes moment.now [.roles, .profiles, .returns, .memberRemovals, .assignments])
        (grantRole req moment) :=
  .bind lockTenant_within fun _ => .bind requireOpen_within fun _ =>
    .bind requireAdmin_within fun _ => .bind .select fun _ => .bind .expect fun _ =>
    .bind .require fun _ => .bind .require fun _ =>
    .bind (resolveRoles_within (by simp)) fun _ => .bind .expect fun _ =>
    .bind (reopenProfile_within (by simp) (by simp) (by simp)) fun _ =>
    insertAssignment_within (by simp)

theorem revokeRoleAssignment_within {req : RevokeAssignment}
    : Within (Tables.Changes moment.now [.revocations, .grantRevocations])
        (revokeRoleAssignment req moment) :=
  .bind lockTenant_within fun _ => .bind .select fun _ => .bind .select fun _ =>
    .bind .expect fun _ => .bind .require fun _ => .bind .select fun _ =>
    .bind check_within fun _ => .bind (revokeAssignments_within (by simp)) fun _ =>
    revokeGrants_within (by simp)

/-- Requests that are pending are closed, and others are left alone. -/
theorem updateRequests_within {change : AccessRequest → AccessRequest}
    (writes : .requestChanges ∈ written)
    (keeps : ∀ ar : AccessRequest, ar.GoesOn written (change ar))
    : Within (Tables.Changes now written)
        (update fun s => { s with requests := s.requests.map change } : Tx Unit) := by
  intro s u after commits
  obtain rfl := commits_update.mp commits
  exact { Tables.Changes.refl now written s with
    requests := fun _ => .map (fun _ _ h => h.id) keeps _
    sameRequests := fun _ h => absurd writes h
    noRequests := fun _ _ => .map keeps _ }

theorem withdrawPendingRequests_within {membershipId : Nat} {at_ : Timestamp}
    (writes : .requestChanges ∈ written)
    : Within (Tables.Changes now written) (withdrawPendingRequests membershipId at_) := by
  refine .bind .select fun email => updateRequests_within writes fun ar => ?_
  split
  · next picked =>
      refine ⟨rfl, fun closed => ?_, fun _ approved => by cases approved⟩
      simp only [Bool.and_eq_true, decide_eq_true_eq] at picked
      exact absurd picked.1 closed
  · exact .refl ar

theorem revokeMembership_within {req : RevokeMembership}
    : Within
        (Tables.Changes moment.now
          [.revocations, .grantRevocations, .profiles, .requestChanges, .memberRemovals])
        (revokeMembership req moment) :=
  .bind lockTenant_within fun _ => .bind (.onlyIf requireAdmin_within) fun _ =>
    .bind .select fun _ => .bind .expect fun _ => .bind .require fun _ =>
    .bind .select fun _ => .bind .select fun _ => .bind check_within fun _ =>
    .bind (revokeAssignments_within (by simp)) fun _ => .bind .select fun _ =>
    .bind (revokeAssignments_within (by simp)) fun _ =>
    .bind (.ite effectiveKeepUntil_within .pure) fun _ =>
    .bind (updateMembership_within (by simp) fun _ =>
      ⟨rfl, rfl, fun _ => rfl, fun _ _ => rfl⟩) fun _ =>
    .bind .select fun _ => .bind (revokeGrants_within (by simp)) fun _ =>
    .bind (withdrawPendingRequests_within (by simp)) fun _ => removeFromAllGroups_within (by simp)

theorem insertGrant_within {today : Date} {created : Nat} {ra : RoleAssignment}
    (writes : .grants ∈ written)
    : Within (Tables.Changes now written) (insertGrant today created ra) := by
  unfold insertGrant
  split
  · exact .pure
  · refine .bind .select fun _ => .ite .pure ?_
    intro s u after commits
    simp only [commits_bind, commits_select, commits_update, commits_pure] at commits
    obtain ⟨_, _, ⟨rfl, rfl⟩, _, _, rfl, _, rfl⟩ := commits
    exact { Tables.Changes.refl now written _ with
      grants := .concat .refl (freshId_not_mem _)
      sameGrants := fun h => absurd writes h
      noGrants := fun h => absurd writes h }

theorem createTenantHandoverGrants_within
    : Within (Tables.Changes moment.now [.grants]) (createTenantHandoverGrants moment) :=
  .bind lockTenant_within fun _ => .ite .pure <|
    .bind .select fun _ => .foldlM fun _ _ => insertGrant_within (by simp)

theorem recoveryGrantAdmin_within {req : RecoveryGrant}
    : Within (Tables.Changes moment.now [.roles, .invitations]) (recoveryGrantAdmin req moment) :=
  .bind lockTenant_within fun _ => .bind requireOpen_within fun _ => .bind .select fun _ =>
    .bind .expect fun _ => .bind .expect fun _ => .bind .require fun _ => .bind .require fun _ =>
    .bind .select fun _ => .bind .require fun _ => .bind (resolveRoles_within (by simp)) fun _ =>
    .bind .expect fun _ => .bind .require fun _ => insertInvitation_within (by simp) (.inr rfl)

-----------------------------------------------------------------------------------------
-- Requests, the signup and groups

theorem insertRequest_within {id : Option Nat} {request : Nat → AccessRequest}
    (writes : .requests ∈ written) (keeps : ∀ given, (request given).id = given)
    : Within (Tables.Changes now written) (insertRequest id request) := by
  intro s given after commits
  simp only [insertRequest, commits_select_bind, commits_require_bind, commits_update_bind,
    commits_pure] at commits
  obtain ⟨unknown, _, rfl⟩ := commits
  exact { Tables.Changes.refl now written s with
    requests := fun _ => .concat .refl ((keeps _).symm ▸ unknown)
    sameRequests := fun h => absurd writes h
    noRequests := fun _ h => absurd writes h }

theorem checkLimits_within {requester : Email} {today : Date}
    : Within R (checkLimits requester today) :=
  .bind .select fun _ => .bind .select fun _ => check_within

theorem admitAccessRequest_within {req : CreateAccessRequest}
    : Within R (admitAccessRequest req moment) :=
  .bind .require fun _ => .bind lockTenant_within fun _ => .bind requireOpen_within fun _ =>
    .bind checkLimits_within fun _ => .pure

theorem createAccessRequest_within {req : CreateAccessRequest}
    : Within (Tables.Changes moment.now [.requests]) (createAccessRequest req moment) :=
  .bind admitAccessRequest_within fun new => insertRequest_within (by simp) new.named

theorem admitReplacementProposal_within {req : CreateReplacementProposal}
    : Within R (admitReplacementProposal req moment) :=
  .bind lockTenant_within fun _ => .bind requireOpen_within fun _ => .bind .select fun _ =>
    .bind .expect fun _ => .bind .select fun _ => .bind .expect fun _ => .bind .require fun _ =>
    .bind check_within fun _ => .bind checkLimits_within fun _ => .pure

theorem createReplacementProposal_within {req : CreateReplacementProposal}
    : Within (Tables.Changes moment.now [.requests]) (createReplacementProposal req moment) :=
  .bind admitReplacementProposal_within fun new => insertRequest_within (by simp) new.named

theorem lockPendingRequest_within {requestId : Nat}
    : Within R (lockPendingRequest requestId) :=
  .bind .select fun _ => .bind .expect fun _ => .bind .require fun _ => .pure

/-- A request that is found pending is closed: its id is its own, so no other request is. -/
theorem closeRequest_changes {decision : RequestDecision} {status : RequestStatus}
    {at_ : Timestamp} {s after : Tables} {ar : AccessRequest} {u : Unit}
    (found : findRow AccessRequest.id decision.requestId s.requests = some ar)
    (pending : ar.status = .pending) (writes : .requestChanges ∈ written)
    (links : .links ∈ written ∨ status ≠ .approved)
    (commits : (closeRequest decision status at_).Commits s u after)
    : s.Changes now written after := by
  obtain rfl := commits_update.mp commits
  have goesOn (unique : (s.requests.map (·.id)).Nodup) (row : AccessRequest) (inside : row ∈ s.requests)
      : row.GoesOn written (changeAt AccessRequest.id decision.requestId (fun ar =>
          { ar with
            status := status
            decidedBy := some decision.actorMembershipId
            closedAt := some at_ }) row) := by
    unfold changeAt
    split
    · next same =>
        have one : row = ar :=
          Option.some.inj (((findRow_eq_some unique).mpr ⟨inside, same⟩).symm.trans found)
        exact ⟨rfl, fun closed => absurd (one ▸ pending) closed,
          fun h approved => absurd approved (links.resolve_left h)⟩
    · exact .refl row
  exact { Tables.Changes.refl now written s with
    requests := fun unique => .map_mem (fun _ _ h => h.id) (goesOn unique)
    sameRequests := fun _ h => absurd writes h
    noRequests := fun unique _ => .map_mem (goesOn unique) }

/-- An approval invites, and closes the request that was found pending. -/
theorem finishApproval_changes {decision : RequestDecision} {request ar : AccessRequest}
    {roles : List OfferedRole} {s after : Tables} {issued : IssuedInvitation}
    (found : findRow AccessRequest.id decision.requestId s.requests = some ar)
    (pending : ar.status = .pending)
    (commits : (finishApproval decision request roles moment).Commits s issued after)
    : s.Changes moment.now [.roles, .invitations, .links, .requestChanges] after := by
  obtain ⟨resolved, titled, resolves, writes⟩ := commits_bind.mp commits
  obtain ⟨_, invited, inserts, closes⟩ := commits_bind.mp writes
  obtain ⟨_, _, closes, returns⟩ := commits_bind.mp closes
  obtain ⟨rfl, rfl⟩ := commits_pure.mp returns
  have first : s.Changes moment.now [.roles] titled := resolveRoles_within (by simp) _ _ _ resolves
  have second : titled.Changes moment.now [.invitations, .links] invited :=
    insertInvitation_within (by simp) (.inl (by simp)) _ _ _ inserts
  have kept : invited.requests = s.requests :=
    (second.sameRequests (by simp) (by simp)).trans (first.sameRequests (by simp) (by simp))
  exact ((resolveRoles_within (by simp) _ _ _ resolves).trans
    (insertInvitation_within (by simp) (.inl (by simp)) _ _ _ inserts)).trans
    (closeRequest_changes (kept ▸ found) pending (by simp) (.inl (by simp)) closes)

theorem lockPendingRequest_finds {requestId : Nat} {s after : Tables} {ar : AccessRequest}
    (commits : (lockPendingRequest requestId).Commits s ar after)
    : after = s ∧ findRow AccessRequest.id requestId s.requests = some ar
      ∧ ar.status = .pending := by
  simp only [lockPendingRequest, commits_select_bind, commits_expect_bind, commits_require_bind,
    commits_pure] at commits
  obtain ⟨row, found, pending, rfl, rfl⟩ := commits
  exact ⟨rfl, found, pending⟩

theorem beginApproval_finds {decision : RequestDecision} {s after : Tables} {ar : AccessRequest}
    (commits : (beginApproval decision moment).Commits s ar after)
    : after = s ∧ findRow AccessRequest.id decision.requestId s.requests = some ar
      ∧ ar.status = .pending := by
  simp only [beginApproval, commits_lockTenant_bind, commits_requireOpen_bind,
    commits_requireAdmin_bind] at commits
  obtain ⟨_, _, _, _, _, locks⟩ := commits
  exact lockPendingRequest_finds locks

theorem beginDecline_finds {decision : RequestDecision} {s after : Tables} {ar : AccessRequest}
    (commits : (beginDecline decision moment).Commits s ar after)
    : after = s ∧ findRow AccessRequest.id decision.requestId s.requests = some ar
      ∧ ar.status = .pending := by
  simp only [beginDecline, commits_lockTenant_bind, commits_requireAdmin_bind] at commits
  obtain ⟨_, _, _, locks⟩ := commits
  exact lockPendingRequest_finds locks

theorem approveRequest_within {decision : RequestDecision} {roles : List OfferedRole}
    : Within (Tables.Changes moment.now [.roles, .invitations, .links, .requestChanges])
        (approveRequest decision roles moment) := by
  intro s issued after commits
  obtain ⟨request, middle, begins, finishes⟩ := commits_bind.mp commits
  obtain ⟨rfl, found, pending⟩ := beginApproval_finds begins
  exact finishApproval_changes found pending finishes

theorem declineRequest_within {decision : RequestDecision}
    : Within (Tables.Changes moment.now [.requestChanges]) (declineRequest decision moment) := by
  intro s u after commits
  obtain ⟨request, middle, begins, closes⟩ := commits_bind.mp commits
  obtain ⟨rfl, found, pending⟩ := beginDecline_finds begins
  exact closeRequest_changes found pending (by simp) (.inr (by simp)) closes

theorem lapseRequests_within
    : Within (Tables.Changes moment.now [.requestChanges]) (lapseRequests moment) := by
  refine .bind .select fun _ => .bind (updateRequests_within (by simp) fun ar => ?_) fun _ => .pure
  split
  · next due =>
      refine ⟨rfl, fun closed => ?_, fun _ approved => by cases approved⟩
      simp only [Bool.and_eq_true, decide_eq_true_eq] at due
      exact absurd due.1 closed
  · exact .refl ar

theorem inviteLeader_within {signup : TenantSignup} {adminRoleId : Nat} {period : Period}
    {at_ : Timestamp} (writes : .invitations ∈ written)
    : Within (Tables.Changes now written) (inviteLeader signup adminRoleId period at_) :=
  .ite (.bind (insertInvitation_within writes (.inr rfl)) fun _ => .pure) .pure

theorem insertBootstrapRole_within (writes : .roles ∈ written)
    : Within (Tables.Changes now written) insertBootstrapRole := by
  intro s role after commits
  simp only [insertBootstrapRole, commits_bind, commits_select, commits_update, commits_pure]
    at commits
  obtain ⟨_, _, ⟨rfl, rfl⟩, _, _, rfl, _, rfl⟩ := commits
  exact { Tables.Changes.refl now written _ with
    roles := .concat (fun _ => rfl) (freshId_not_mem _)
    sameRoles := fun h => absurd writes h }

theorem activateTenant_within {activation : Activation}
    : Within
        (Tables.Changes moment.now
          [.tenant, .accounts, .memberships, .profiles, .returns, .memberRemovals, .roles,
            .assignments, .invitations])
        (activateTenant activation moment) := by
  refine .bind MemberProfile.check_within fun _ => .bind lockTenant_within fun _ =>
    .bind .require fun _ => .bind .require fun _ => .bind .select fun _ => .bind .expect fun _ =>
    .bind .require fun _ => .bind .require fun _ => .bind .expect fun _ => .bind ?_ fun _ =>
    .bind (upsertVerifiedAccount_within (by simp)) fun _ => .bind .require fun _ =>
    .bind (ensureMembership_within (by simp) (by simp) (by simp) (by simp)) fun _ =>
    .bind (writeProfile_within (by simp)) fun _ =>
    .bind (insertBootstrapRole_within (by simp)) fun _ =>
    .bind (insertAssignment_within (by simp)) fun _ =>
    .bind (inviteLeader_within (by simp)) fun _ => .bind .select fun _ => .bind .require fun _ =>
    .bind ?_ fun _ => .pure
  · intro s u after commits
    obtain rfl := commits_update.mp commits
    exact { Tables.Changes.refl moment.now _ s with
      sameTenant := fun h => absurd List.mem_cons_self h }
  · intro s activated after commits
    obtain rfl := commits_update.mp commits
    exact { Tables.Changes.refl moment.now _ s with }

theorem expirePendingTenants_within
    : Within (Tables.Changes moment.now [.tenant]) (expirePendingTenants moment) := by
  refine .bind .select fun _ => .ite (.bind ?_ fun _ => .pure) .pure
  intro s u after commits
  obtain rfl := commits_update.mp commits
  exact { Tables.Changes.refl moment.now _ s with
    sameTenant := fun h => absurd List.mem_cons_self h }

theorem requireAuthorized_within {viewer : Viewer} {resource : Resource} {action : Action}
    {today : Date} {hidden : MembershipError}
    : Within R
        (requireAuthorized viewer resource action today hidden) :=
  .bind .select fun _ => check_within

theorem manage_within {actor groupId : Nat} {today : Date}
    : Within R (manage actor groupId today) :=
  .bind requireAuthorized_within fun _ => .bind .select fun _ => .bind .expect fun _ => .pure

theorem updateGroup_within {groupId : Nat} {change : Group → Group}
    : Within (Tables.Changes now [.groups]) (updateGroup groupId change) := by
  intro s u after commits
  obtain rfl := commits_update.mp commits
  exact { Tables.Changes.refl now _ s with
    sameGroups := fun h => absurd List.mem_cons_self h }

theorem createGroup_within {req : CreateGroup}
    : Within (Tables.Changes moment.now [.groups]) (createGroup req moment) := by
  refine .bind .require fun _ => .bind lockTenant_within fun _ => .bind requireOpen_within fun _ =>
    .bind requireAuthorized_within fun _ => .bind ?_ fun _ => .bind .select fun _ =>
    .bind .require fun _ => .bind ?_ fun _ => .pure
  · unfold requireBound
    split
    · exact .pure
    · exact .bind .select fun _ => .require
    · exact .bind .select fun _ => .require
  · intro s u after commits
    obtain rfl := commits_update.mp commits
    exact { Tables.Changes.refl moment.now _ s with
      sameGroups := fun h => absurd List.mem_cons_self h }

theorem renameGroup_within {req : RenameGroup}
    : Within (Tables.Changes moment.now [.groups]) (renameGroup req moment) :=
  .bind .require fun _ => .bind lockTenant_within fun _ => .bind requireOpen_within fun _ =>
    .bind manage_within fun _ => .bind .require fun _ => updateGroup_within

theorem setGroupVisibility_within {req : SetGroupVisibility}
    : Within (Tables.Changes moment.now [.groups]) (setGroupVisibility req moment) :=
  .bind lockTenant_within fun _ => .bind (.onlyIf requireOpen_within) fun _ =>
    .bind manage_within fun _ => .bind .require fun _ => updateGroup_within

theorem archiveGroup_within {req : ArchiveGroup}
    : Within (Tables.Changes moment.now [.groups]) (archiveGroup req moment) :=
  .bind lockTenant_within fun _ => .bind manage_within fun _ => .bind .require fun _ =>
    updateGroup_within

theorem addGroupMember_within {req : GroupMemberChange}
    : Within (Tables.Changes moment.now [.memberAdditions]) (addGroupMember req moment) := by
  refine .bind lockTenant_within fun _ => .bind requireOpen_within fun _ =>
    .bind manage_within fun _ => .bind .require fun _ => .bind .select fun _ =>
    .bind .expect fun _ => .bind .require fun _ => .bind .select fun _ => .bind .require fun _ =>
    .bind .select fun _ => .bind .require fun _ => .bind .select fun _ => .bind .require fun _ => ?_
  intro s u after commits
  obtain rfl := commits_update.mp commits
  exact { Tables.Changes.refl moment.now _ s with
    groupMembers := .concat .refl (freshId_not_mem _)
    sameGroupMembers := fun h => absurd List.mem_cons_self h
    noGroupMembers := fun h => absurd List.mem_cons_self h }

theorem removeGroupMember_within {req : GroupMemberChange}
    : Within (Tables.Changes moment.now [.memberRemovals]) (removeGroupMember req moment) := by
  refine .bind lockTenant_within fun _ => .bind manage_within fun _ => .bind .select fun _ =>
    .bind .expect fun gm => ?_
  intro s u after commits
  obtain rfl := commits_update.mp commits
  have goesOn (row : GroupMember)
      : row.GoesOn (changeAt GroupMember.id gm.id
          (fun gm => { gm with removedAt := some moment.now }) row) := by
    unfold changeAt
    split
    · exact ⟨rfl, fun _ => rfl⟩
    · exact .refl row
  exact { Tables.Changes.refl moment.now _ s with
    groupMembers := .map (fun _ _ h => h.id) goesOn _
    sameGroupMembers := fun _ h => absurd List.mem_cons_self h
    noGroupMembers := fun _ => by
      rw [List.map_map]
      exact List.map_congr_left fun gm _ => (goesOn gm).id }

end FauPortalen.Membership

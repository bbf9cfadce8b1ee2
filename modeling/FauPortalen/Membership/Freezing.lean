import FauPortalen.Membership.Outcomes

/-! The freeze: whatever commits on a frozen FAU takes access away or leaves it as it is. -/

set_option linter.unusedSectionVars false

namespace FauPortalen.Membership

open Foundations Transaction

section

variable [OsloZone] {moment : Moment} {s after : Tables}

-----------------------------------------------------------------------------------------
-- Rows that recede

/-- An account is not made usable. -/
structure Account.Recedes (a a' : Account) : Prop where
  id : a'.id = a.id
  usable : a'.usable = true → a.usable = true

/-- A membership is not made current. -/
structure MembershipRow.Recedes (m m' : MembershipRow) : Prop where
  id : m'.id = m.id
  accountId : m'.accountId = m.accountId
  revoked : m.revokedAt.isSome → m'.revokedAt.isSome

/-- An assignment is only revoked. -/
structure RoleAssignment.Recedes (ra ra' : RoleAssignment) : Prop where
  same : ra' = { ra with revokedAt := ra'.revokedAt }
  revoked : ra.revokedAt.isSome → ra'.revokedAt.isSome

/-- A group is only closed or archived, or takes another name. -/
structure Group.Recedes (g g' : Group) : Prop where
  id : g'.id = g.id
  binding : g'.binding = g.binding
  visibility : g'.visibility = .open → g.visibility = .open
  archived : g.archivedAt.isSome → g'.archivedAt.isSome

/-- No row is added to a table that gives access, and every row recedes. -/
structure Tables.Recedes (s s' : Tables) : Prop where
  tenant : s'.tenant = s.tenant ∨ s'.tenant = none
  accounts : GoesOnInPlace Account.Recedes s.accounts s'.accounts
  memberships : GoesOnInPlace MembershipRow.Recedes s.memberships s'.memberships
  roles : s'.roles = s.roles
  assignments : GoesOnInPlace RoleAssignment.Recedes s.assignments s'.assignments
  groups : GoesOnInPlace Group.Recedes s.groups s'.groups
  groupMembers : GoesOnInPlace GroupMember.GoesOn s.groupMembers s'.groupMembers

theorem Account.Recedes.refl (a : Account) : a.Recedes a := ⟨rfl, fun h => h⟩

theorem MembershipRow.Recedes.refl (m : MembershipRow) : m.Recedes m := ⟨rfl, rfl, fun h => h⟩

theorem RoleAssignment.Recedes.refl (ra : RoleAssignment) : ra.Recedes ra := ⟨rfl, fun h => h⟩

theorem Group.Recedes.refl (g : Group) : g.Recedes g := ⟨rfl, rfl, fun h => h, fun h => h⟩

theorem Tables.Recedes.refl (s : Tables) : s.Recedes s where
  tenant := .inl rfl
  accounts := .refl .refl _
  memberships := .refl .refl _
  roles := rfl
  assignments := .refl .refl _
  groups := .refl .refl _
  groupMembers := .refl .refl _

theorem Tables.Recedes.trans {a b c : Tables} (first : a.Recedes b) (second : b.Recedes c)
    : a.Recedes c where
  tenant := second.tenant.elim (fun same => same ▸ first.tenant) .inr
  accounts := first.accounts.trans
    (fun _ _ _ h h' => ⟨h'.id.trans h.id, fun usable => h.usable (h'.usable usable)⟩)
    second.accounts
  memberships := first.memberships.trans
    (fun _ _ _ h h' => ⟨h'.id.trans h.id, h'.accountId.trans h.accountId,
      fun revoked => h'.revoked (h.revoked revoked)⟩)
    second.memberships
  roles := second.roles.trans first.roles
  assignments := first.assignments.trans
    (fun _ _ _ h h' => ⟨by rw [h'.same, h.same], fun revoked => h'.revoked (h.revoked revoked)⟩)
    second.assignments
  groups := first.groups.trans
    (fun _ _ _ h h' => ⟨h'.id.trans h.id, h'.binding.trans h.binding,
      fun opened => h.visibility (h'.visibility opened),
      fun archived => h'.archived (h.archived archived)⟩)
    second.groups
  groupMembers := first.groupMembers.trans (fun _ _ _ => .trans) second.groupMembers

instance : IsPreorder Tables Tables.Recedes where
  refl := .refl
  trans _ _ _ := .trans

theorem RoleAssignment.Recedes.id {ra ra' : RoleAssignment} (recedes : ra.Recedes ra')
    : ra'.id = ra.id := by
  rw [recedes.same]

/-- A revoked assignment does not run again. -/
theorem RoleAssignment.Recedes.live {ra ra' : RoleAssignment} (recedes : ra.Recedes ra')
    (live : ra'.revokedAt.isNone = true)
    : ra.revokedAt.isNone = true := by
  cases revoked : ra.revokedAt with
  | none => rfl
  | some at_ =>
      have still := recedes.revoked (by simp [revoked])
      rw [Option.isNone_iff_eq_none] at live
      simp [live] at still

-----------------------------------------------------------------------------------------
-- What receding takes away

namespace Tables.Recedes

variable (recedes : s.Recedes after)

include recedes

theorem accountUsable {m m' : MembershipRow} (same : m'.accountId = m.accountId)
    (usable : after.accountUsable m' = true)
    : s.accountUsable m = true := by
  refine recedes.accounts.any_of_any (fun a a' h there => ?_) usable
  simp only [Bool.and_eq_true, decide_eq_true_eq] at there ⊢
  exact ⟨h.id ▸ same ▸ there.1, h.usable there.2⟩

/-- A membership ended on a day stays ended on it. -/
theorem membershipEnded {m m' : MembershipRow} (goesOn : m.Recedes m') {day : Date}
    (ended : s.membershipEnded m day = true)
    : after.membershipEnded m' day = true := by
  unfold Tables.membershipEnded at ended ⊢
  simp only [Bool.or_eq_true, Bool.not_eq_true'] at ended ⊢
  rcases ended with revoked | noRole
  · exact .inl (goesOn.revoked revoked)
  · refine .inr (Bool.eq_false_iff.mpr fun running => ?_)
    refine Bool.eq_false_iff.mp noRole (recedes.assignments.any_of_any (fun ra ra' h there => ?_)
      running)
    simp only [Bool.and_eq_true, decide_eq_true_eq] at there ⊢
    obtain ⟨⟨holder, live⟩, later⟩ := there
    have live' := h.live live
    rw [h.same] at holder later
    exact ⟨⟨holder.trans goesOn.id, live'⟩, later⟩

theorem throughRole {membershipId : Nat} {g g' : Group} (goesOn : g.Recedes g') {day : Date}
    (through : after.throughRole membershipId g' day = true)
    : s.throughRole membershipId g day = true := by
  have follows (r : Role) : r.follows g' = r.follows g := by
    simp only [Role.follows, goesOn.id, goesOn.binding]
  unfold Tables.throughRole at through ⊢
  refine recedes.assignments.any_of_any (fun ra ra' h there => ?_) through
  simp only [RoleAssignment.validOn, Bool.and_eq_true, decide_eq_true_eq] at there ⊢
  obtain ⟨⟨holder, live, contains⟩, role⟩ := there
  have live' := h.live live
  rw [h.same] at holder contains role
  refine ⟨⟨holder, live', contains⟩, ?_⟩
  rw [recedes.roles] at role
  simpa only [follows] using role

theorem inGroup {membershipId : Nat} {g g' : Group} (goesOn : g.Recedes g') {day : Date}
    (inside : after.inGroup membershipId g' day = true)
    : s.inGroup membershipId g day = true := by
  unfold Tables.inGroup at inside ⊢
  rw [Bool.or_eq_true] at inside ⊢
  rcases inside with byHand | through
  · refine .inl (recedes.groupMembers.any_of_any (fun gm gm' h there => ?_) byHand)
    simp only [Bool.and_eq_true, decide_eq_true_eq, Option.isNone_iff_eq_none] at there ⊢
    obtain ⟨⟨group, member⟩, inForce⟩ := there
    refine ⟨⟨?_, ?_⟩, ?_⟩
    · rw [h.same, goesOn.id] at group
      exact group
    · rw [h.same] at member
      exact member
    · cases removed : gm.removedAt with
      | none => rfl
      | some at_ =>
          have still := h.removed (by simp [removed])
          simp [inForce] at still
  · exact .inr (recedes.throughRole goesOn through)

/-- No membership gains a capability. -/
theorem capability_le (membershipId : Nat) (day : Date)
    : (after.membershipAccess membershipId day).capability
      ≤ (s.membershipAccess membershipId day).capability := by
  unfold Tables.membershipAccess
  cases found' : after.membership membershipId with
  | none => exact Capability.none_le _
  | some m' =>
      obtain ⟨m, found, goesOn⟩ := recedes.memberships.findRow_comesFrom (fun _ _ h => h.id) found'
      have known : s.membership membershipId = some m := found
      rw [known]
      refine evaluateAccess_capability_le (fun stood => ?_) (fun view' present valid => ?_)
      · simp only [Bool.and_eq_true] at stood ⊢
        obtain ⟨⟨active, usable⟩, current⟩ := stood
        refine ⟨⟨?_, recedes.accountUsable goesOn.accountId usable⟩, ?_⟩
        · rcases recedes.tenant with same | gone
          · exact same ▸ active
          · simp [gone] at active
        · rw [Option.isNone_iff_eq_none] at current ⊢
          by_contra revoked
          have still := goesOn.revoked (Option.isSome_iff_ne_none.mpr revoked)
          simp [current] at still
      · obtain ⟨ra', held', made'⟩ := List.mem_filterMap.mp present
        obtain ⟨r, role', rfl⟩ := Option.map_eq_some_iff.mp made'
        obtain ⟨there', holder'⟩ := List.mem_filter.mp held'
        obtain ⟨ra, there, h⟩ := recedes.assignments.comesFrom there'
        simp only [AssignmentView.validOn, Bool.and_eq_true, Bool.not_eq_true',
          Option.isSome_eq_false_iff] at valid
        have live := h.live valid.1
        rw [h.same] at role' holder'
        have role : s.role ra.roleId = some r := by
          unfold Tables.role at role' ⊢
          exact recedes.roles ▸ role'
        refine ⟨⟨r.capabilityClass, ra.period, ra.revokedAt.isSome⟩, ?_, ?_, rfl⟩
        · exact List.mem_filterMap.mpr ⟨ra, List.mem_filter.mpr ⟨there, holder'⟩, by rw [role]; rfl⟩
        · have contains := valid.2
          rw [h.same] at contains
          simp only [AssignmentView.validOn, Bool.and_eq_true, Bool.not_eq_true',
            Option.isSome_eq_false_iff]
          exact ⟨live, contains⟩

/-- The facts about a group give a viewer no more. -/
theorem groupFacts {viewer : Viewer} {groupId : Nat} {day : Date} {facts' : GroupFacts}
    (read : after.groupFacts viewer groupId day = some facts')
    : ∃ facts, s.groupFacts viewer groupId day = some facts ∧ facts'.AtMost facts := by
  obtain ⟨g', found', rfl⟩ := Option.map_eq_some_iff.mp read
  obtain ⟨g, found, goesOn⟩ := recedes.groups.findRow_comesFrom (fun _ _ h => h.id) found'
  have known : s.group groupId = some g := found
  refine ⟨_, by rw [Tables.groupFacts, known]; rfl, ?_⟩
  exact ⟨goesOn.visibility, goesOn.archived, recedes.inGroup goesOn⟩

theorem target {viewer : Viewer} {resource : Resource} {day : Date} {target' : Target}
    (read : after.target viewer resource day = some target')
    : ∃ target, s.target viewer resource day = some target ∧ target'.AtMost target := by
  cases resource with
  | fau =>
      cases read
      exact ⟨.fau, rfl, trivial⟩
  | group id =>
      obtain ⟨facts', read', rfl⟩ := Option.map_eq_some_iff.mp read
      obtain ⟨facts, known, atMost⟩ := recedes.groupFacts read'
      exact ⟨.group facts, by rw [Tables.target, known]; rfl, atMost⟩
  | groupContent id =>
      obtain ⟨facts', read', rfl⟩ := Option.map_eq_some_iff.mp read
      obtain ⟨facts, known, atMost⟩ := recedes.groupFacts read'
      exact ⟨.groupContent facts, by rw [Tables.target, known]; rfl, atMost⟩

/-- What a viewer may do afterwards they could do before. -/
theorem authorize {viewer : Viewer} {resource : Resource} {action : Action} {day : Date}
    (allowed : after.authorize viewer resource action day = .ok ())
    : s.authorize viewer resource action day = .ok () := by
  obtain ⟨target', read, decides⟩ := Tables.authorize_eq_ok.mp allowed
  obtain ⟨target, known, atMost⟩ := recedes.target read
  exact Tables.authorize_eq_ok.mpr
    ⟨target, known, Capability.decide_mono (recedes.capability_le _ day) atMost decides⟩

end Tables.Recedes

-----------------------------------------------------------------------------------------
-- Statements that take away

theorem updateMemberships_recedes {picks : MembershipRow → Bool}
    {change : MembershipRow → MembershipRow} (keeps : ∀ m : MembershipRow, m.Recedes (change m))
    : Within Tables.Recedes (updateMemberships picks change) := by
  intro s u after commits
  obtain ⟨_, rfl⟩ := commits_updateMemberships.mp commits
  refine { Tables.Recedes.refl s with memberships := .map (fun m => ?_) _ }
  split
  · unfold MembershipRow.retentionFollowsFields
    split
    · exact ⟨(keeps m).id, (keeps m).accountId, (keeps m).revoked⟩
    · exact keeps m
  · exact .refl m

theorem updateMembership_recedes {id : Nat} {change : MembershipRow → MembershipRow}
    (keeps : ∀ m : MembershipRow, m.Recedes (change m))
    : Within Tables.Recedes (updateMembership id change) :=
  updateMemberships_recedes keeps

theorem settleProfile_recedes {membershipId : Nat}
    : Within Tables.Recedes (settleProfile membershipId moment) := by
  refine .bind .select fun _ => .bind .expect fun m => .bind .select fun ended => ?_
  refine .ite .pure (.ite .pure (.bind effectiveKeepUntil_within fun until_ => ?_))
  split
  · exact .pure
  · exact .bind (updateMembership_recedes fun _ => ⟨rfl, rfl, fun h => h⟩) fun _ => .pure
  · exact .bind (updateMembership_recedes fun _ => ⟨rfl, rfl, fun h => h⟩) fun _ => .pure

theorem revokeAssignments_recedes {picks : RoleAssignment → Bool} {at_ : Timestamp}
    : Within Tables.Recedes (revokeAssignments picks at_) := by
  intro s u after commits
  obtain rfl := commits_update.mp commits
  refine { Tables.Recedes.refl s with assignments := .map (fun ra => ?_) _ }
  split
  · exact ⟨rfl, fun _ => rfl⟩
  · exact .refl ra

theorem revokeGrants_recedes {picks : HandoverGrant → Bool} {at_ : Timestamp}
    : Within Tables.Recedes (revokeGrants picks at_) := by
  intro s u after commits
  obtain rfl := commits_update.mp commits
  exact { Tables.Recedes.refl s with }

theorem removeFromAllGroups_recedes {membershipId : Nat} {at_ : Timestamp}
    : Within Tables.Recedes (removeFromAllGroups membershipId at_) := by
  intro s u after commits
  obtain rfl := commits_update.mp commits
  refine { Tables.Recedes.refl s with groupMembers := .map (fun gm => ?_) _ }
  split
  · exact ⟨rfl, fun _ => rfl⟩
  · exact .refl gm

theorem updateGroup_recedes {groupId : Nat} {change : Group → Group}
    (keeps : ∀ g : Group, g.Recedes (change g))
    : Within Tables.Recedes (updateGroup groupId change) := by
  intro s u after commits
  obtain rfl := commits_update.mp commits
  refine { Tables.Recedes.refl s with groups := .map (fun g => ?_) _ }
  unfold changeAt
  split
  · exact keeps g
  · exact .refl g

/-- Writes to tables that give no access. -/
theorem elsewhere_recedes {change : Tables → Tables} (keeps : ∀ s : Tables, s.Recedes (change s))
    : Within Tables.Recedes (update change : Tx Unit) := by
  intro s u after commits
  obtain rfl := commits_update.mp commits
  exact keeps s

-----------------------------------------------------------------------------------------
-- Operations that a freeze allows

theorem withdrawInvitation_recedes {change : InvitationChange}
    : Within Tables.Recedes (withdrawInvitation change moment) :=
  .bind lockTenant_within fun _ => .bind .select fun _ => .bind authorizeChange_within fun _ =>
    .bind .expect fun _ => .bind .require fun _ =>
    elsewhere_recedes fun s => { Tables.Recedes.refl s with }

theorem revokeRoleAssignment_recedes {req : RevokeAssignment}
    : Within Tables.Recedes (revokeRoleAssignment req moment) :=
  .bind lockTenant_within fun _ => .bind .select fun _ => .bind .select fun _ =>
    .bind .expect fun _ => .bind .require fun _ => .bind .select fun _ =>
    .bind check_within fun _ => .bind revokeAssignments_recedes fun _ => revokeGrants_recedes

theorem revokeMembership_recedes {req : RevokeMembership}
    : Within Tables.Recedes (revokeMembership req moment) :=
  .bind lockTenant_within fun _ => .bind (.onlyIf requireAdmin_within) fun _ =>
    .bind .select fun _ => .bind .expect fun _ => .bind .require fun _ =>
    .bind .select fun _ => .bind .select fun _ => .bind check_within fun _ =>
    .bind revokeAssignments_recedes fun _ => .bind .select fun _ =>
    .bind revokeAssignments_recedes fun _ =>
    .bind (.ite effectiveKeepUntil_within .pure) fun _ =>
    .bind (updateMembership_recedes fun _ => ⟨rfl, rfl, fun _ => rfl⟩) fun _ =>
    .bind .select fun _ => .bind revokeGrants_recedes fun _ =>
    .bind (.bind .select fun _ => elsewhere_recedes fun s => { Tables.Recedes.refl s with }) fun _ =>
    removeFromAllGroups_recedes

theorem declineRequest_recedes {decision : RequestDecision}
    : Within Tables.Recedes (declineRequest decision moment) :=
  .bind (.bind lockTenant_within fun _ => .bind requireAdmin_within fun _ =>
      lockPendingRequest_within) fun _ =>
    elsewhere_recedes fun s => { Tables.Recedes.refl s with }

theorem lapseRequests_recedes : Within Tables.Recedes (lapseRequests moment) :=
  .bind .select fun _ =>
    .bind (elsewhere_recedes fun s => { Tables.Recedes.refl s with }) fun _ => .pure

theorem expirePendingTenants_recedes : Within Tables.Recedes (expirePendingTenants moment) :=
  .bind .select fun _ => .ite
    (.bind (elsewhere_recedes fun s => { Tables.Recedes.refl s with tenant := .inr rfl }) fun _ =>
      .pure)
    .pure

/-- A handover grant gives no capability. -/
theorem createTenantHandoverGrants_recedes
    : Within Tables.Recedes (createTenantHandoverGrants moment) := by
  refine .bind lockTenant_within fun _ => .ite .pure (.bind .select fun _ => .foldlM fun _ ra => ?_)
  unfold insertGrant
  split
  · exact .pure
  · exact .bind .select fun _ => .ite .pure (.bind .select fun _ =>
      .bind (elsewhere_recedes fun s => { Tables.Recedes.refl s with }) fun _ => .pure)

theorem clearEndedProfiles_recedes : Within Tables.Recedes (clearEndedProfiles moment) :=
  .bind .select fun _ => .ite
    (.bind lockTenant_within fun _ => .bind .select fun _ =>
      .bind (.foldlM fun _ _ => .bind settleProfile_recedes fun _ => .pure) fun _ =>
      .bind .select fun _ => .bind (.forM fun _ => removeFromAllGroups_recedes) fun _ => .pure)
    .pure

theorem setRetentionMonths_recedes {accountId : Nat} {months : RetentionMonths}
    : Within Tables.Recedes (setRetentionMonths accountId months moment) := by
  refine .bind .select fun listed => .bind (.onlyIf ?_) fun _ => .bind .select fun _ =>
    .bind .require fun _ => .bind ?_ fun _ => .onlyIf ?_
  · exact .bind lockTenant_within fun _ => .bind .select fun _ =>
      .forM fun _ => .bind settleProfile_recedes fun _ => .pure
  · refine elsewhere_recedes fun s => { Tables.Recedes.refl s with
      accounts := .map (fun a => ?_) _ }
    unfold changeAt
    split
    · exact ⟨rfl, fun h => h⟩
    · exact .refl a
  · refine .bind .select fun _ => .forM fun stamped => .bind .select fun _ => .bind .expect fun _ => ?_
    split
    · exact updateMembership_recedes fun _ => ⟨rfl, rfl, fun h => h⟩
    · exact .ite (updateMembership_recedes fun _ => ⟨rfl, rfl, fun h => h⟩) .pure

theorem eraseMemberNames_recedes {accountId : Nat}
    : Within Tables.Recedes (eraseMemberNames accountId moment) :=
  .bind .select fun _ => .ite
    (.bind lockTenant_within fun _ =>
      updateMemberships_recedes fun _ => ⟨rfl, rfl, fun h => h⟩)
    .pure

/-- Whether or not the address is cleared, it gives no access. -/
theorem setContactEmail_recedes {req : SetContactEmail}
    : Within Tables.Recedes (setContactEmail req moment) :=
  .bind checkGivenContactEmail_within fun _ => .bind lockTenant_within fun _ =>
    .bind (.onlyIf requireOpen_within) fun _ => .bind .select fun _ => .bind .require fun _ =>
    .bind .select fun _ => .bind .expect fun _ => .bind .require fun _ =>
    updateMembership_recedes fun _ => ⟨rfl, rfl, fun h => h⟩

theorem archiveGroup_recedes {req : ArchiveGroup}
    : Within Tables.Recedes (archiveGroup req moment) :=
  .bind lockTenant_within fun _ => .bind manage_within fun _ => .bind .require fun _ =>
    updateGroup_recedes fun _ => ⟨rfl, rfl, fun h => h, fun _ => rfl⟩

theorem removeGroupMember_recedes {req : GroupMemberChange}
    : Within Tables.Recedes (removeGroupMember req moment) := by
  refine .bind lockTenant_within fun _ => .bind manage_within fun _ => .bind .select fun _ =>
    .bind .expect fun gm => elsewhere_recedes fun s => { Tables.Recedes.refl s with
      groupMembers := .map (fun row => ?_) _ }
  unfold changeAt
  split
  · exact ⟨rfl, fun _ => rfl⟩
  · exact .refl row

/-- Closing a group is allowed, and opening one is not. -/
theorem setGroupVisibility_recedes {req : SetGroupVisibility} {u : Unit}
    (frozen : s.tenant.any (·.frozen) = true)
    (commits : (setGroupVisibility req moment).Commits s u after)
    : s.Recedes after := by
  obtain ⟨state, locked, rest⟩ := commits_lockTenant_bind.mp commits
  obtain ⟨_, middle, opens, writes⟩ := commits_bind.mp rest
  rcases commits_onlyIf.mp opens with ⟨_, isOpen⟩ | ⟨closes, rfl⟩
  · obtain ⟨_, notFrozen, _⟩ := commits_requireOpen.mp isOpen
    simp [locked, notFrozen] at frozen
  · have within : Within Tables.Recedes (do
        let archived ← manage req.actorMembershipId req.groupId moment.today
        require (¬ (archived ∧ req.visibility = .open)) .groupArchived
        updateGroup req.groupId ({ · with visibility := req.visibility }) : Tx Unit) :=
      .bind manage_within fun _ => .bind .require fun _ =>
        updateGroup_recedes fun _ => ⟨rfl, rfl, fun opened => absurd opened closes, fun h => h⟩
    exact within _ _ _ writes

-----------------------------------------------------------------------------------------
-- Every operation on a frozen FAU

/-- What asks for an open FAU commits on no frozen one. -/
theorem not_open {α : Type} {rest : Tenant → Tx α} {a : α}
    (frozen : s.tenant.any (·.frozen) = true)
    (commits : (do
      let state ← lockTenant
      requireOpen state
      rest state : Tx α).Commits s a after)
    : False := by
  obtain ⟨state, locked, rest⟩ := commits_lockTenant_bind.mp commits
  obtain ⟨_, notFrozen, _⟩ := commits_requireOpen_bind.mp rest
  simp [locked, notFrozen] at frozen

/-- Operations that would give access refuse a frozen FAU, and the others only recede. -/
theorem Operation.Commits.recedes {op : Operation} (frozen : s.tenant.any (·.frozen) = true)
    (commits : op.Commits moment s after)
    : s.Recedes after := by
  cases op <;> obtain ⟨result, commits⟩ := commits
  case issueInvitation => exact (not_open frozen (commits_require_bind.mp commits).2).elim
  case resendInvitation =>
    obtain ⟨state, locked, reads⟩ := commits_lockTenant_bind.mp commits
    obtain ⟨_, _, _, authorizes⟩ := commits_bind.mp reads
    obtain ⟨_, _, _, opens⟩ := commits_bind.mp authorizes
    obtain ⟨_, notFrozen, _⟩ := commits_requireOpen_bind.mp opens
    simp [locked, notFrozen] at frozen
  case withdrawInvitation => exact withdrawInvitation_recedes _ _ _ commits
  case acceptInvitation =>
    obtain ⟨path⟩ := acceptInvitation_commits commits
    have notFrozen := (checkAcceptance_eq_ok.mp path.passes).2.2.2.2.2.2.1
    have notFrozen : path.state.frozen = false := notFrozen
    simp [path.locked, notFrozen] at frozen
  case grantRole => exact (not_open frozen commits).elim
  case revokeRoleAssignment => exact revokeRoleAssignment_recedes _ _ _ commits
  case revokeMembership => exact revokeMembership_recedes _ _ _ commits
  case createAccessRequest =>
    obtain ⟨_, _, admits, _⟩ := commits_bind.mp commits
    exact (not_open frozen (commits_require_bind.mp admits).2).elim
  case createReplacementProposal =>
    obtain ⟨_, _, admits, _⟩ := commits_bind.mp commits
    exact (not_open frozen admits).elim
  case approveRequest =>
    obtain ⟨_, _, begins, _⟩ := commits_bind.mp commits
    exact (not_open frozen begins).elim
  case declineRequest => exact declineRequest_recedes _ _ _ commits
  case lapseRequests => exact lapseRequests_recedes _ _ _ commits
  case activateTenant =>
    obtain ⟨path⟩ := activateTenant_commits commits
    simp [path.locked, path.notFrozen] at frozen
  case expirePendingTenants => exact expirePendingTenants_recedes _ _ _ commits
  case createTenantHandoverGrants => exact createTenantHandoverGrants_recedes _ _ _ commits
  case recoveryGrantAdmin => exact (not_open frozen commits).elim
  case clearEndedProfiles => exact clearEndedProfiles_recedes _ _ _ commits
  case setRetentionMonths => exact setRetentionMonths_recedes _ _ _ commits
  case eraseMemberNames => exact eraseMemberNames_recedes _ _ _ commits
  case setDisplayName => exact (not_open frozen (commits_require_bind.mp commits).2).elim
  case setContactEmail => exact setContactEmail_recedes _ _ _ commits
  case createGroup => exact (not_open frozen (commits_require_bind.mp commits).2).elim
  case renameGroup => exact (not_open frozen (commits_require_bind.mp commits).2).elim
  case setGroupVisibility => exact setGroupVisibility_recedes frozen commits
  case archiveGroup => exact archiveGroup_recedes _ _ _ commits
  case addGroupMember => exact (not_open frozen commits).elim
  case removeGroupMember => exact removeGroupMember_recedes _ _ _ commits

/-- A frozen FAU only loses access: no operation lets anyone do what they could not, adds an
assignment, a hand-added group member or a membership, or makes a former member current.
-/
theorem frozen_only_loses {op : Operation} (frozen : s.tenant.any (·.frozen) = true)
    (commits : op.Commits moment s after)
    : (∀ viewer resource action day, after.authorize viewer resource action day = .ok () →
        s.authorize viewer resource action day = .ok ())
      ∧ after.assignments.map (·.id) = s.assignments.map (·.id)
      ∧ after.groupMembers.map (·.id) = s.groupMembers.map (·.id)
      ∧ after.memberships.map (·.id) = s.memberships.map (·.id)
      ∧ ∀ m' ∈ after.memberships, ∃ m ∈ s.memberships, m.id = m'.id
          ∧ (m.revokedAt.isSome → m'.revokedAt.isSome)
          ∧ ∀ day, s.membershipEnded m day = true → after.membershipEnded m' day = true := by
  have recedes := Operation.Commits.recedes frozen commits
  refine ⟨fun _ _ _ _ => recedes.authorize, recedes.assignments.map_eq fun _ _ h => h.id,
    recedes.groupMembers.map_eq fun _ _ h => h.id, recedes.memberships.map_eq fun _ _ h => h.id, ?_⟩
  intro m' present
  obtain ⟨m, there, goesOn⟩ := recedes.memberships.comesFrom present
  exact ⟨m, there, goesOn.id.symm, goesOn.revoked, fun _ => recedes.membershipEnded goesOn⟩

end

section

attribute [local instance] OsloZone.atEpoch

/-- A frozen FAU with an administrator and one group. -/
def frozenFau : Tables where
  accounts := [⟨1, ⟨"kari@example.no"⟩, some 0, none, .twelve⟩]
  tenant := some ⟨.active, true⟩
  signup := none
  recoveryContact := none
  memberships := [⟨1, 1, none, none, none, none, none⟩]
  roles := [⟨1, "Administrator", .admin, none, none, none⟩]
  assignments := [⟨1, 1, 1,
    .ofEnds (.ofParts 1969 1 1 rfl) (.ofParts 1971 1 1 rfl) rfl, none, none⟩]
  grants := []
  requests := []
  invitations := []
  groups := [⟨4, ⟨[1]⟩, .open, none, 1, none⟩]
  groupMembers := []
  units := []
  cohorts := []
  nextToken := 1

/-- The FAU once its administrator has archived the group. -/
def archivedFau : Tables :=
  { frozenFau with groups := [⟨4, ⟨[1]⟩, .open, none, 1, some 10⟩] }

theorem frozenFau_archives
    : (Operation.archiveGroup ⟨1, 4⟩).Commits (.at 10) frozenFau archivedFau :=
  ⟨(), (by decide +kernel :
    (archiveGroup ⟨1, 4⟩ (.at 10)).run frozenFau = .ok ((), archivedFau))⟩

/-- The administrator, who reads the archived group, read it before. -/
theorem frozenFau_only_loses
    : frozenFau.authorize (.of 1) (.group 4) .read ⟨1970, 6, 1, by decide, by decide, by decide⟩
      = .ok () :=
  (frozen_only_loses (by decide +kernel) frozenFau_archives).1 _ _ _ _ (by decide +kernel)

end

end FauPortalen.Membership

import FauPortalen.Membership.Provenance

/-! Groups end with the membership: what was added by hand to a membership that has ended since is
not in force when the membership is active again, whichever way it ended and came back.
-/

set_option linter.unusedSectionVars false

namespace FauPortalen.Membership

open Foundations Transaction

section

variable [OsloZone] {moment : Moment} {s after s' : Tables} {membershipId other : Nat} {day : Date}

-----------------------------------------------------------------------------------------
-- An ended membership

/-- The membership has ended by the day. -/
def Tables.EndedOn (s : Tables) (membershipId : Nat) (day : Date) : Prop :=
  ∀ m ∈ s.memberships, m.id = membershipId → s.membershipEnded m day = true

/-- No row that adds the membership to a group by hand is in force. -/
def Tables.OutOfGroups (s : Tables) (membershipId : Nat) : Prop :=
  ∀ gm ∈ s.groupMembers, gm.membershipId = membershipId → gm.removedAt.isSome

theorem Tables.EndedOn.later {day' : Date} (ended : s.EndedOn membershipId day) (le : day ≤ day')
    : s.EndedOn membershipId day' := by
  intro m present same
  refine Tables.membershipEnded_iff.mpr ?_
  rcases Tables.membershipEnded_iff.mp (ended m present same) with revoked | past
  · exact .inl revoked
  · exact .inr fun ra inside holder live => (past ra inside holder live).trans le

/-- Without a return and a new assignment, what has ended stays so. -/
theorem Tables.Changes.endedOn {now : Timestamp} {written : List Written}
    (changes : s.Changes now written s') (noReturn : .returns ∉ written)
    (noMembership : .memberships ∉ written) (noAssignment : .assignments ∉ written)
    (ended : s.EndedOn membershipId day)
    : s'.EndedOn membershipId day := by
  intro m' present' same'
  obtain ⟨m, present, goesOn⟩ :=
    changes.memberships.comesFrom_of_sameKeys (changes.noMemberships noMembership) present'
  refine Tables.membershipEnded_iff.mpr ?_
  rcases Tables.membershipEnded_iff.mp (ended m present (goesOn.id.symm.trans same')) with
    revoked | past
  · exact .inl (goesOn.revoked noReturn revoked)
  · refine .inr fun ra' inside' holder' live' => ?_
    obtain ⟨ra, inside, kept⟩ :=
      changes.assignments.comesFrom_of_sameKeys (changes.noAssignments noAssignment) inside'
    have live : ra.revokedAt = none := by
      rcases kept.revokedAt with same | ⟨live, _⟩
      · exact same ▸ live'
      · exact live
    rw [kept.same] at holder' ⊢
    exact past ra inside (holder'.trans goesOn.id) live

theorem Tables.Changes.outOfGroups {now : Timestamp} {written : List Written}
    (changes : s.Changes now written s') (noAddition : .memberAdditions ∉ written)
    (out : s.OutOfGroups membershipId)
    : s'.OutOfGroups membershipId := by
  intro gm' present' same'
  obtain ⟨gm, present, goesOn⟩ :=
    changes.groupMembers.comesFrom_of_sameKeys (changes.noGroupMembers noAddition) present'
  rw [goesOn.same] at same'
  exact goesOn.removed (out gm present same')

/-- Another membership's new assignments do not start an ended one again. -/
theorem Tables.EndedOn.append {rows : List RoleAssignment} (ended : s.EndedOn membershipId day)
    (others : ∀ ra ∈ rows, ra.membershipId ≠ membershipId)
    : ({ s with assignments := s.assignments ++ rows }).EndedOn membershipId day := by
  intro m present same
  refine Tables.membershipEnded_iff.mpr ?_
  refine (Tables.membershipEnded_iff.mp (ended m present same)).imp_right fun past ra inside => ?_
  rcases List.mem_append.mp inside with old | added
  · exact past ra old
  · intro holder
    exact absurd (holder.trans same) (others ra added)

-----------------------------------------------------------------------------------------
-- The ways back

theorem removeFromAllGroups_leaves {at_ : Timestamp} {u : Unit}
    (commits : (removeFromAllGroups membershipId at_).Commits s u after)
    : after.OutOfGroups membershipId := by
  obtain rfl := commits_update.mp commits
  intro gm' present' same'
  obtain ⟨gm, _, rfl⟩ := List.mem_map.mp present'
  split
  · rfl
  · next kept =>
      rw [if_neg kept] at same'
      simpa [same', Option.isSome_iff_ne_none] using kept

/-- Changing another membership leaves an ended one so. -/
theorem updateMembership_endedOn {change : MembershipRow → MembershipRow} {u : Unit}
    (commits : (updateMembership other change).Commits s u after) (keeps : ∀ m, (change m).id = m.id)
    (differ : other ≠ membershipId) (ended : s.EndedOn membershipId day)
    : after.EndedOn membershipId day := by
  obtain ⟨_, rfl⟩ := commits_updateMemberships.mp commits
  intro m' present' same'
  obtain ⟨row, there, rfl⟩ := List.mem_map.mp present'
  by_cases theirs : row.id = other
  · have changed : (row.retentionFollowsFields (change row)).id = row.id := by
      unfold MembershipRow.retentionFollowsFields
      split <;> exact keeps row
    rw [if_pos (decide_eq_true theirs), changed] at same'
    exact absurd (theirs.symm.trans same') differ
  · rw [if_neg (by simpa using theirs)] at same' ⊢
    exact ended row there same'

/-- A return leaves the groups of one that had ended, and no other membership returns with it. -/
theorem reopenProfile_endedOn {settled : Settled}
    (commits : (reopenProfile other moment).Commits s settled after)
    (ended : s.EndedOn membershipId moment.today)
    : other = membershipId ∧ after.OutOfGroups membershipId
      ∨ other ≠ membershipId ∧ after.EndedOn membershipId moment.today := by
  obtain ⟨m, cleared, kept, found, clears, settles, reopens⟩ := reopenProfile_commits commits
  have second : cleared.Changes moment.now [.profiles] kept :=
    settleProfile_within (by simp) _ _ _ settles
  obtain ⟨present, one⟩ := of_findRow found
  by_cases same : other = membershipId
  · subst same
    have third : kept.Changes moment.now [.profiles, .returns] after := by
      refine updateMembership_within (by simp) (fun m => ?_) _ _ _ reopens
      exact ⟨rfl, rfl, fun _ => rfl, fun h => absurd (by simp) h⟩
    refine .inl ⟨rfl, ?_⟩
    rcases commits_onlyIf.mp clears with ⟨_, removes⟩ | ⟨active, _⟩
    · exact third.outOfGroups (by simp)
        (second.outOfGroups (by simp) (removeFromAllGroups_leaves removes))
    · exact absurd (ended m present one) active
  · have first : s.Changes moment.now [.memberRemovals] cleared :=
      Within.onlyIf (removeFromAllGroups_within (by simp)) _ _ _ clears
    have still : kept.EndedOn membershipId moment.today :=
      second.endedOn (by simp) (by simp) (by simp)
        (first.endedOn (by simp) (by simp) (by simp) ended)
    exact .inr ⟨same, updateMembership_endedOn reopens (fun _ => rfl) same still⟩

theorem ensureMembership_endedOn {accountId : Nat} {joined : Nat × Bool × Bool}
    (commits : (ensureMembership accountId other moment).Commits s joined after)
    (known : membershipId ∈ s.memberships.map (·.id))
    (ended : s.EndedOn membershipId moment.today)
    : joined.1 = membershipId ∧ after.OutOfGroups membershipId
      ∨ joined.1 ≠ membershipId ∧ after.EndedOn membershipId moment.today := by
  obtain ⟨rfl, ⟨m, settled, _, _, _, reopens⟩ | ⟨unknown, _, rfl⟩⟩ :=
    ensureMembership_commits commits
  · exact reopenProfile_endedOn reopens ended
  · refine .inr ⟨fun same => unknown (same ▸ known), ?_⟩
    intro m present same
    rcases List.mem_append.mp present with old | added
    · exact ended m old same
    · rw [List.mem_singleton.mp added] at same
      exact absurd known (same ▸ unknown)

-----------------------------------------------------------------------------------------
-- Every operation

theorem grantRole_endedOn {req : GrantRole} (path : GrantPath req moment s after)
    (ended : s.EndedOn membershipId moment.today)
    : after.EndedOn membershipId moment.today ∨ after.OutOfGroups membershipId := by
  obtain ⟨roles, titled⟩ := path.resolves.added
  have still : path.resolved.EndedOn membershipId moment.today := titled ▸ ended
  obtain ⟨_, given⟩ := commits_insertAssignment.mp path.gives
  rcases reopenProfile_endedOn path.opens still with ⟨_, out⟩ | ⟨differ, ended⟩
  · exact .inr (given ▸ out)
  · exact .inl (given ▸ ended.append (by simp [differ]))

/-- Accepted roles are the joiner's own. -/
theorem insertAccepted_endedOn {issuedBy : Option Nat}
    {roles : List (Nat × CapabilityClass × Period)} {before ids : List Nat}
    (commits : (roles.foldlM (insertAccepted other issuedBy) before).Commits s ids after)
    (differ : other ≠ membershipId) (ended : s.EndedOn membershipId day)
    : after.EndedOn membershipId day := by
  obtain ⟨rows, rfl, given, _⟩ := insertAccepted_commits commits
  refine ended.append fun ra inside => ?_
  obtain ⟨_, _, gives⟩ := forall₂_left_of_mem given inside
  exact gives.membershipId ▸ differ

theorem acceptInvitation_endedOn {found : Nat} {req : AcceptInvitation}
    (path : AcceptancePath found req moment s after)
    (known : membershipId ∈ s.memberships.map (·.id))
    (ended : s.EndedOn membershipId moment.today)
    : after.EndedOn membershipId moment.today ∨ after.OutOfGroups membershipId := by
  have known' : membershipId ∈ path.verified.memberships.map (·.id) := by
    rw [path.verifies_changes.sameMemberships (by simp) (by simp)]
    exact known
  have verified := path.verifies_changes.endedOn (by simp) (by simp) (by simp) ended
  rcases ensureMembership_endedOn path.joins known' verified with ⟨_, out⟩ | ⟨differ, ended⟩
  · exact .inr (path.marks_changes.outOfGroups (by simp) (path.gives_changes.outOfGroups (by simp)
      (path.names_changes.outOfGroups (by simp) out)))
  · have named := path.names_changes.endedOn (by simp) (by simp) (by simp) ended
    exact .inl (path.marks_changes.endedOn (by simp) (by simp) (by simp)
      (insertAccepted_endedOn path.gives differ named))

theorem activateTenant_endedOn {activation : Activation}
    (path : ActivationPath activation moment s after)
    (known : membershipId ∈ s.memberships.map (·.id))
    (ended : s.EndedOn membershipId moment.today)
    : after.EndedOn membershipId moment.today ∨ after.OutOfGroups membershipId := by
  have opened : ({ s with tenant := some { path.state with status := .active } } : Tables).EndedOn
      membershipId moment.today := ended
  have known' : membershipId ∈ path.verified.memberships.map (·.id) := by
    rw [path.verifies_changes.sameMemberships (by simp) (by simp)]
    exact known
  have verified := path.verifies_changes.endedOn (by simp) (by simp) (by simp) opened
  obtain ⟨_, given⟩ := commits_insertAssignment.mp path.gives
  have after_ := path.after
  rcases ensureMembership_endedOn path.joins known' verified with ⟨_, out⟩ | ⟨differ, ended⟩
  · have titled : path.titled.OutOfGroups membershipId :=
      path.titles_changes.outOfGroups (by simp) (path.names_changes.outOfGroups (by simp) out)
    have given' : path.given.OutOfGroups membershipId := given ▸ titled
    exact .inr (after_ ▸ path.invites_changes.outOfGroups (by simp) given')
  · have titled := path.titles_changes.endedOn (by simp) (by simp) (by simp)
      (path.names_changes.endedOn (by simp) (by simp) (by simp) ended)
    have given' : path.given.EndedOn membershipId moment.today :=
      given ▸ titled.append (by simp [differ])
    exact .inl (after_ ▸ path.invites_changes.endedOn (by simp) (by simp) (by simp) given')

/-- An ended membership stays so, or comes back without its groups. -/
theorem Operation.Commits.endedOn {op : Operation} (commits : op.Commits moment s after)
    (known : membershipId ∈ s.memberships.map (·.id))
    (ended : s.EndedOn membershipId moment.today)
    : after.EndedOn membershipId moment.today ∨ after.OutOfGroups membershipId := by
  have changes := commits.changes
  cases op
  case acceptInvitation =>
    obtain ⟨_, commits⟩ := commits
    obtain ⟨path⟩ := acceptInvitation_commits commits
    exact acceptInvitation_endedOn path known ended
  case grantRole =>
    obtain ⟨_, commits⟩ := commits
    obtain ⟨path⟩ := grantRole_commits commits
    exact grantRole_endedOn path ended
  case activateTenant =>
    obtain ⟨_, commits⟩ := commits
    obtain ⟨path⟩ := activateTenant_commits commits
    exact activateTenant_endedOn path known ended
  all_goals
    exact .inl (changes.endedOn (by simp [Operation.written]) (by simp [Operation.written])
      (by simp [Operation.written]) ended)

-----------------------------------------------------------------------------------------
-- Every run

/-- A hand-added row of a membership that had ended: removed, or the membership is still ended. -/
structure FauState.LeftBehind (membershipId rowId : Nat) (state : FauState) : Prop where
  known : membershipId ∈ state.tables.memberships.map (·.id)
  row : rowId ∈ state.tables.groupMembers.map (·.id)
  holder : ∀ gm ∈ state.tables.groupMembers, gm.id = rowId → gm.membershipId = membershipId
  gone : state.tables.EndedOn membershipId state.today
    ∨ ∀ gm ∈ state.tables.groupMembers, gm.id = rowId → gm.removedAt.isSome

variable {state next : FauState} {event : FauEvent} {rowId : Nat}

/-- Every step leaves the membership ended or leaves its groups. -/
theorem FauStep.endedOn (stepped : FauStep state event next)
    (known : membershipId ∈ state.tables.memberships.map (·.id))
    (ended : state.tables.EndedOn membershipId state.today)
    : next.tables.EndedOn membershipId next.today ∨ next.tables.OutOfGroups membershipId := by
  have changes := stepped.changes
  cases stepped with
  | operates later lookedUp commits => exact commits.endedOn known (ended.later later)
  | looksUp finds => exact .inl ended
  | passes later => exact .inl (ended.later later)
  | outside changed =>
      exact .inl (changes.endedOn (by simp [FauEvent.written]) (by simp [FauEvent.written])
        (by simp [FauEvent.written]) ended)

theorem FauStep.leftBehind (stepped : FauStep state event next)
    (left : state.LeftBehind membershipId rowId)
    : next.LeftBehind membershipId rowId := by
  have changes := stepped.changes
  have comesFrom {gm' : GroupMember} (present' : gm' ∈ next.tables.groupMembers)
      (same : gm'.id = rowId)
      : ∃ gm ∈ state.tables.groupMembers, gm.id = rowId ∧ gm.GoesOn gm' := by
    rcases changes.groupMembers.comesFrom gm' present' with ⟨gm, present, goesOn⟩ | new
    · exact ⟨gm, present, goesOn.id.symm.trans same, goesOn⟩
    · exact absurd (same ▸ left.row) new
  have holder (gm' : GroupMember) (present' : gm' ∈ next.tables.groupMembers)
      (same : gm'.id = rowId)
      : gm'.membershipId = membershipId := by
    obtain ⟨gm, present, one, goesOn⟩ := comesFrom present' same
    rw [goesOn.same]
    exact left.holder gm present one
  refine ⟨changes.memberships.keys_subset (fun _ _ h => h.id) left.known,
    changes.groupMembers.keys_subset (fun _ _ h => h.id) left.row, holder, ?_⟩
  rcases left.gone with ended | removed
  · rcases stepped.endedOn left.known ended with still | out
    · exact .inl still
    · exact .inr fun gm' present' same => out gm' present' (holder gm' present' same)
  · refine .inr fun gm' present' same => ?_
    obtain ⟨gm, present, one, goesOn⟩ := comesFrom present' same
    exact goesOn.removed (removed gm present one)

/-- Only an active membership is added to a group by hand. -/
theorem addGroupMember_active {req : GroupMemberChange} {u : Unit}
    (commits : (addGroupMember req moment).Commits s u after) {gm : GroupMember}
    (present : gm ∈ after.groupMembers) (new : gm.id ∉ s.groupMembers.map (·.id))
    : ∃ m ∈ after.memberships, m.id = gm.membershipId
        ∧ after.membershipEnded m moment.today = false := by
  simp only [addGroupMember, commits_lockTenant_bind, commits_requireOpen_bind] at commits
  obtain ⟨state, _, _, _, manages⟩ := commits
  obtain ⟨archived, middle, manages, adds⟩ := commits_bind.mp manages
  obtain rfl : s = middle := manage_within (R := Eq) _ _ _ manages
  simp only [commits_require_bind, commits_select_bind, commits_expect_bind, commits_update]
    at adds
  obtain ⟨_, m, found, _, _, active, _, rfl⟩ := adds
  obtain ⟨there, one⟩ := of_findRow found
  rcases List.mem_append.mp present with old | added
  · exact absurd (List.mem_map_of_mem old) new
  · rw [List.mem_singleton.mp added]
    exact ⟨m, there, one, active⟩

/-- Group memberships end with the membership: what was added by hand to one that had ended is not
in force when it is active again, and nothing is added to an ended one.
-/
theorem groupMembers_end
    : (∀ (state next : FauState) (events : List FauEvent), fauSystem.Reachable state →
        fauSystem.Run state events next →
        ∀ m ∈ state.tables.memberships, state.tables.membershipEnded m state.today = true →
        ∀ gm ∈ state.tables.groupMembers, gm.membershipId = m.id →
        ∀ m' ∈ next.tables.memberships, m'.id = m.id →
          next.tables.membershipEnded m' next.today = false →
        ∀ gm' ∈ next.tables.groupMembers, gm'.id = gm.id → gm'.removedAt.isSome)
      ∧ ∀ (state next : FauState) (op : Operation) (moment : Moment),
          fauSystem.Reachable state → fauSystem.step state (.operates op moment) next →
          ∀ gm ∈ next.tables.groupMembers, gm.id ∉ state.tables.groupMembers.map (·.id) →
          ∀ m ∈ next.tables.memberships, m.id = gm.membershipId →
            next.tables.membershipEnded m next.today = false := by
  constructor
  · intro state next events reached run m held ended gm row holder m' held' same back gm' row' one
    have keyed := reachable_keyed reached
    have left : state.LeftBehind m.id gm.id := by
      refine ⟨List.mem_map_of_mem held, List.mem_map_of_mem row, fun other inside key => ?_, ?_⟩
      · rw [List.inj_on_of_nodup_map keyed.groupMemberIds inside row key]
        exact holder
      · refine .inl fun other inside key => ?_
        rw [List.inj_on_of_nodup_map keyed.membershipIds inside held key]
        exact ended
    have leftBehind : next.LeftBehind m.id gm.id :=
      run.keeps (fun _ _ _ _ left stepped => FauStep.leftBehind stepped left) reached left
    rcases leftBehind.gone with still | removed
    · rw [still m' held' same] at back
      cases back
    · exact removed gm' row' one
  · intro state next op moment reached stepped gm row new m held same
    cases stepped with
    | operates later lookedUp commits =>
        have keyed := commits.changes.keyed (reachable_keyed reached)
        by_cases adds : ∃ req, op = .addGroupMember req
        · obtain ⟨req, rfl⟩ := adds
          obtain ⟨_, commits⟩ := commits
          obtain ⟨other, inside, key, active⟩ := addGroupMember_active commits row new
          rw [List.inj_on_of_nodup_map keyed.membershipIds held inside (same.trans key.symm)]
          exact active
        · have sameIds := commits.changes.noGroupMembers (by
            cases op <;> simp [Operation.written] at adds ⊢)
          exact absurd (sameIds ▸ List.mem_map_of_mem row) new

end

-----------------------------------------------------------------------------------------
-- A return after a term

section

attribute [local instance] OsloZone.winterAndSummer

/-- Kari has made a closed group. -/
def groupedFau : Tables :=
  (createGroup ⟨1, 4, ⟨1 :: List.replicate 41 0⟩, .closed, none⟩ newYear).leaves activatedFau

/-- Kari is in a closed group, added by hand. -/
def joinedFau : Tables := (addGroupMember ⟨1, 4, 1⟩ newYear).leaves groupedFau

/-- In June, without an administrator, the oversight offers Kari her role again. -/
def recoveredFau : Tables :=
  (recoveryGrantAdmin ⟨.ewb, ⟨"kari@example.no"⟩, .existing 1,
    .ofEnds june.today (.ofParts 1971 6 1 rfl) rfl⟩ june).leaves joinedFau

def returnedFau : Tables :=
  (acceptInvitation 1 ⟨1, ⟨"kari@example.no"⟩, none, kariProfile⟩ june).leaves recoveredFau

theorem joinedFau_reachable : fauSystem.Reachable ⟨joinedFau, june.today, []⟩ := by
  have start : fauSystem.Reachable ⟨signedUpFau, newYear.today, []⟩ :=
    .start ⟨signedUpFau_justSignedUp, rfl⟩
  have activated : FauStep ⟨signedUpFau, newYear.today, []⟩
      (.operates (.activateTenant ⟨⟨"kari@example.no"⟩, kariProfile⟩) newYear)
      ⟨activatedFau, newYear.today, []⟩ :=
    .operates (le_refl _) (by simp) activatedFau_commits
  have grouped : FauStep ⟨activatedFau, newYear.today, []⟩
      (.operates (.createGroup ⟨1, 4, ⟨1 :: List.replicate 41 0⟩, .closed, none⟩) newYear)
      ⟨groupedFau, newYear.today, []⟩ :=
    .operates (le_refl _) (by simp) (leaves_commits (by decide +kernel))
  have joined : FauStep ⟨groupedFau, newYear.today, []⟩
      (.operates (.addGroupMember ⟨1, 4, 1⟩) newYear) ⟨joinedFau, newYear.today, []⟩ :=
    .operates (le_refl _) (by simp) (leaves_commits (by decide +kernel))
  exact ((start.step activated).step grouped).step joined |>.step
    (FauStep.passes (by decide +kernel : newYear.today ≤ june.today))

/-- Kari's term is over in June, she is offered the role again and opens the link. -/
theorem recoveredFau_run
    : ∃ events, fauSystem.Run ⟨joinedFau, june.today, []⟩ events
        ⟨recoveredFau, june.today, [(1, 1)]⟩ := by
  have recovered : FauStep ⟨joinedFau, june.today, []⟩
      (.operates (.recoveryGrantAdmin ⟨.ewb, ⟨"kari@example.no"⟩, .existing 1,
        .ofEnds june.today (.ofParts 1971 6 1 rfl) rfl⟩) june)
      ⟨recoveredFau, june.today, []⟩ :=
    .operates (le_refl _) (by simp) (leaves_commits (by decide +kernel))
  have found : FauStep ⟨recoveredFau, june.today, []⟩ (.looksUp 1 1)
      ⟨recoveredFau, june.today, [(1, 1)]⟩ :=
    .looksUp (by decide +kernel)
  exact ⟨_, (EventSystem.Run.single recovered).next found⟩

/-- Kari accepts it. -/
theorem returnedFau_step
    : FauStep ⟨recoveredFau, june.today, [(1, 1)]⟩
        (.operates (.acceptInvitation 1 ⟨1, ⟨"kari@example.no"⟩, none, kariProfile⟩) june)
        ⟨returnedFau, june.today, [(1, 1)]⟩ :=
  .operates (le_refl _) (fun _ _ same => by cases same; exact List.mem_singleton_self _)
    (leaves_commits (by decide +kernel))

theorem returnedFau_groupMembers : returnedFau.groupMembers ≠ [] := by decide +kernel

/-- Kari is active again, and her old row in the closed group is not in force. -/
theorem kari_groupMembers_end
    : (returnedFau.groupMembers.head returnedFau_groupMembers).removedAt.isSome = true := by
  obtain ⟨events, run⟩ := recoveredFau_run
  exact groupMembers_end.1 _ _ _ joinedFau_reachable (run.next returnedFau_step)
    ⟨1, 1, none, some kariProfile.encryptedDisplayName, none, none, none⟩ (by decide +kernel)
    (by decide +kernel) ⟨1, 4, 1, 1, newYear.now, none⟩ (by decide +kernel) rfl
    ⟨1, 1, none, some kariProfile.encryptedDisplayName, none, none, none⟩ (by decide +kernel) rfl
    (by decide +kernel) _ (List.head_mem _) (by decide +kernel)

end

end FauPortalen.Membership

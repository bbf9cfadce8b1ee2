import FauPortalen.Membership.HandoverGrants
import FauPortalen.Membership.ProfileSettling

/-! Profile retention along every run: every stamp is the date that the end and the setting give,
and a profile that is past it is gone with the next statement that settles it.
-/

set_option linter.unusedSectionVars false

namespace FauPortalen.Membership

open Foundations Transaction

section

variable [OsloZone] {moment : Moment} {written : List Written} {s s' after : Tables}
  {membershipId : Nat} {today day : Date} {m m' : MembershipRow}

-----------------------------------------------------------------------------------------
-- What leaves the order as it is

theorem Tables.membershipEnded_later (ended : s.membershipEnded m today = true) (le : today ≤ day)
    : s.membershipEnded m day = true :=
  Tables.membershipEnded_iff.mpr ((Tables.membershipEnded_iff.mp ended).imp_right
    fun spent ra inside theirs live => (spent ra inside theirs live).trans le)

theorem Tables.Tidy.later (tidy : s.Tidy today) (le : today ≤ day) : s.Tidy day :=
  { tidy with
    spent := fun m held revoked ra inside theirs live =>
      (tidy.spent m held revoked ra inside theirs live).trans le
    revocations := fun ra inside at_ revoked => (tidy.revocations ra inside at_ revoked).trans le
    stamped := fun m held until_ stamp =>
      (tidy.stamped m held until_ stamp).imp_left fun ended => membershipEnded_later ended le }

theorem Tables.role_known {roleId : Nat}
    : (∃ r, s.role roleId = some r) ↔ roleId ∈ s.roles.map (·.id) := by
  have unknown : s.role roleId = none ↔ roleId ∉ s.roles.map (·.id) := findRow_eq_none
  rw [← not_iff_not, ← unknown, ← Option.ne_none_iff_exists', not_not]

theorem Tables.Changes.membershipEnded {now : Timestamp} (changes : s.Changes now written s')
    (noAssignments : .assignments ∉ written) (id : m'.id = m.id)
    (revokedAt : m.revokedAt.isSome → m'.revokedAt.isSome)
    (ended : s.membershipEnded m today = true)
    : s'.membershipEnded m' today = true := by
  refine Tables.membershipEnded_iff.mpr ?_
  rcases Tables.membershipEnded_iff.mp ended with revoked | spent
  · exact .inl (revokedAt revoked)
  · refine .inr fun ra' inside' theirs live => ?_
    obtain ⟨ra, inside, goesOn⟩ :=
      changes.assignments.comesFrom_of_sameKeys (changes.noAssignments noAssignments) inside'
    have live' : ra.revokedAt = none := by
      rcases goesOn.revokedAt with same | ⟨live', _⟩
      · exact same ▸ live
      · exact live'
    rw [goesOn.same] at theirs ⊢
    exact spent ra inside (theirs.trans id) live'

theorem Tables.Changes.endsOn (changes : s.Changes moment.now written s')
    (noAssignments : .assignments ∉ written) (allOver : s.Over membershipId moment.today)
    (ends : s.EndsOn membershipId day)
    : s'.EndsOn membershipId day :=
  ends.goesOn allOver changes.assignments.goesOn fun _ inside _ =>
    changes.assignments.comesFrom_of_sameKeys (changes.noAssignments noAssignments) inside

/-- Revocations and new roles leave the profiles tidy. -/
theorem Tables.Changes.tidy (changes : s.Changes moment.now written s')
    (memberships : s'.memberships = s.memberships) (accounts : s'.accounts = s.accounts)
    (noAssignments : .assignments ∉ written) (tidy : s.Tidy moment.today)
    : s'.Tidy moment.today := by
  have comesFrom {ra' : RoleAssignment} (inside : ra' ∈ s'.assignments)
      : ∃ ra ∈ s.assignments, ra.GoesOn moment.now ra' :=
    changes.assignments.comesFrom_of_sameKeys (changes.noAssignments noAssignments) inside
  refine ⟨⟨accounts ▸ tidy.accountIds, memberships ▸ tidy.membershipIds,
    memberships ▸ tidy.admissible, ?_, ?_, ?_, ?_⟩, ?_⟩
  · intro m held revoked ra' inside theirs live
    obtain ⟨ra, inside, goesOn⟩ := comesFrom inside
    have live' : ra.revokedAt = none := by
      rcases goesOn.revokedAt with same | ⟨live', _⟩
      · exact same ▸ live
      · exact live'
    rw [goesOn.same] at theirs ⊢
    exact tidy.spent m (memberships ▸ held) revoked ra inside theirs live'
  · intro ra' inside at_ revoked
    obtain ⟨ra, inside, goesOn⟩ := comesFrom inside
    rcases goesOn.revokedAt with same | ⟨_, now⟩
    · exact tidy.revocations ra inside at_ (same ▸ revoked)
    · obtain rfl : moment.now = at_ := Option.some.inj (now.symm.trans revoked)
      exact moment.agrees.ge
  · intro m held
    obtain ⟨ra, inside, theirs⟩ := tidy.assigned m (memberships ▸ held)
    obtain ⟨ra', inside', goesOn⟩ := changes.assignments.goesOn ra inside
    exact ⟨ra', inside', by rw [goesOn.same]; exact theirs⟩
  · intro ra' inside
    obtain ⟨ra, inside, goesOn⟩ := comesFrom inside
    rw [goesOn.same]
    exact role_known.mpr
      (changes.roles.keys_subset (fun _ _ h => h ▸ rfl) (role_known.mp (tidy.known ra inside)))
  · intro m held until_ stamp
    have held := memberships ▸ held
    obtain ⟨ended, a, present, account, day, ends, retained⟩ := tidy.stamped m held until_ stamp
    exact ⟨changes.membershipEnded noAssignments rfl id ended, a, accounts ▸ present, account, day,
      changes.endsOn noAssignments (tidy.allOver held ended) ends, retained⟩

/-- So do changes of accounts that keep their settings, and new accounts. -/
theorem Tables.Tidy.withAccounts {accounts : List Account} (tidy : s.Tidy today)
    (ids : (accounts.map (·.id)).Nodup)
    (settings : ∀ a ∈ s.accounts, ∃ a' ∈ accounts,
      a'.id = a.id ∧ a'.retentionMonths = a.retentionMonths)
    : ({ s with accounts := accounts } : Tables).Tidy today :=
  { tidy with
    accountIds := ids
    stamped := fun m held until_ stamp => by
      obtain ⟨ended, a, present, account, day, ends, retained⟩ :=
        tidy.stamped m held until_ stamp
      obtain ⟨a', present', id, setting⟩ := settings a present
      exact ⟨(membershipEnded_congr rfl rfl rfl).trans ended, a', present', id.trans account, day,
        .of_same (s := s) rfl ends, setting ▸ retained⟩ }

theorem upsertVerifiedAccount_settings {email : Email} {at_ : Timestamp} {found : Nat × Bool}
    (commits : (upsertVerifiedAccount email at_).Commits s found after)
    : ∀ a ∈ s.accounts, ∃ a' ∈ after.accounts,
        a'.id = a.id ∧ a'.retentionMonths = a.retentionMonths := by
  simp only [upsertVerifiedAccount, commits_select_bind] at commits
  split at commits
  · simp only [commits_update_bind, commits_pure] at commits
    obtain ⟨_, rfl⟩ := commits
    refine fun a present => ⟨_, List.mem_map_of_mem present, ?_⟩
    unfold changeAt
    split <;> exact ⟨rfl, rfl⟩
  · simp only [commits_select_bind, commits_update_bind, commits_pure] at commits
    obtain ⟨_, rfl⟩ := commits
    exact fun a present => ⟨a, List.mem_append_left _ present, rfl, rfl⟩

theorem upsertVerifiedAccount_keepsTidy {email : Email} {at_ : Timestamp}
    : Within (Tables.KeepsTidy today) (upsertVerifiedAccount email at_) := by
  intro s found after commits tidy
  have changes : s.Changes at_ [.accounts] after :=
    upsertVerifiedAccount_within (by simp) _ _ _ commits
  obtain ⟨⟨accounts, rfl⟩, _⟩ := upsertVerifiedAccount_commits commits
  exact tidy.withAccounts (changes.accounts.distinct tidy.accountIds)
    (upsertVerifiedAccount_settings commits)

-----------------------------------------------------------------------------------------
-- Revoking a membership

/-- What a revocation writes on the row. -/
def MembershipRow.revoke (now : Timestamp) (keep : Option Date) (m : MembershipRow)
    : MembershipRow :=
  { m with
    revokedAt := some now
    profileRetainedUntil := keep
    encryptedDisplayName := if keep = none then none else m.encryptedDisplayName
    encryptedContactEmail := if keep = none then none else m.encryptedContactEmail }

/-- The steps of a membership's revocation that commits. -/
structure RevocationPath (req : RevokeMembership) (moment : Moment) (s after : Tables) where
  m : MembershipRow
  keep : Option Date
  revoked : Tables
  closed : Tables
  finds : s.membership req.membershipId = some m
  revokes : s.Changes moment.now [.revocations] revoked
  spent : ∀ ra ∈ revoked.assignments, ra.membershipId = req.membershipId → ra.revokedAt = none →
    ra.period.endsOnExclusive ≤ moment.today
  keeps : (keepOnRevocation m
    (m.profileRetainedUntil.filter fun _ => s.membershipEnded m moment.today)
    moment.today).Commits revoked keep revoked
  closes : (updateMembership req.membershipId (MembershipRow.revoke moment.now keep)).Commits
    revoked () closed
  cascades : closed.Changes moment.now [.grantRevocations, .requestChanges, .memberRemovals] after

theorem revokeMembership_path {req : RevokeMembership} {u : Unit}
    (commits : (revokeMembership req moment).Commits s u after)
    : Nonempty (RevocationPath req moment s after) := by
  simp only [revokeMembership, commits_lockTenant_bind] at commits
  obtain ⟨_, _, commits⟩ := commits
  obtain ⟨_, checked, checks, passed⟩ := commits_bind.mp commits
  have unchecked : Within (· = ·) (onlyIf (req.actorMembershipId ≠ req.membershipId)
      (requireAdmin req.actorMembershipId moment.today)) :=
    .onlyIf requireAdmin_within
  obtain rfl := unchecked _ _ _ checks
  simp only [commits_select_bind, commits_expect_bind, commits_require_bind, commits_check_bind]
    at passed
  obtain ⟨m, found, _, _, _, writes⟩ := passed
  obtain ⟨_, running, revokesRunning, others⟩ := commits_bind.mp writes
  rw [commits_select_bind] at others
  obtain ⟨_, revoked, revokesEnded, profile⟩ := commits_bind.mp others
  obtain ⟨keep, kept, keeps, closing⟩ := commits_bind.mp profile
  obtain ⟨_, closed, closes, cascade⟩ := commits_bind.mp closing
  have unkept : Within (· = ·) (keepOnRevocation m
      (m.profileRetainedUntil.filter fun _ => s.membershipEnded m moment.today) moment.today) :=
    .ite effectiveKeepUntil_within .pure
  obtain rfl : revoked = kept := unkept _ _ _ keeps
  have first : s.Changes moment.now [.revocations] running :=
    revokeAssignments_within (by simp) _ _ _ revokesRunning
  have second : running.Changes moment.now [.revocations] revoked :=
    revokeAssignments_within (by simp) _ _ _ revokesEnded
  have cascades : closed.Changes moment.now [.grantRevocations, .requestChanges, .memberRemovals]
      after := by
    refine Within.bind .select (fun _ => .bind (revokeGrants_within (by simp)) fun _ =>
      .bind (withdrawPendingRequests_within (by simp)) fun _ =>
      removeFromAllGroups_within (by simp)) _ _ _ cascade
  refine ⟨⟨m, keep, revoked, closed, found, first.trans second, ?_, keeps, closes, cascades⟩⟩
  intro ra inside theirs live
  obtain ⟨_, _, keptFirst⟩ := revokeAssignments_commits revokesRunning
  obtain ⟨_, _, keptSecond⟩ := revokeAssignments_commits revokesEnded
  rcases keptSecond ra inside with ⟨before, _⟩ | ⟨_, _, _, rfl⟩
  swap
  · cases live
  rcases keptFirst ra before with ⟨_, notRunning⟩ | ⟨_, _, _, rfl⟩
  swap
  · cases live
  simpa [theirs] using notRunning live

namespace RevocationPath

variable {req : RevokeMembership} (path : RevocationPath req moment s after)

include path

theorem memberships : path.revoked.memberships = s.memberships :=
  path.revokes.sameMemberships (by simp) (by simp)

theorem revoked_tidy (tidy : s.Tidy moment.today) : path.revoked.Tidy moment.today :=
  path.revokes.tidy path.memberships (path.revokes.sameAccounts (by simp)) (by simp) tidy

theorem held : path.m ∈ path.revoked.memberships ∧ path.m.id = req.membershipId := by
  rw [path.memberships]
  exact of_findRow path.finds

/-- With its roles revoked the membership has ended. -/
theorem ended : path.revoked.membershipEnded path.m moment.today = true :=
  Tables.membershipEnded_iff.mpr (.inr fun ra inside theirs live =>
    path.spent ra inside (theirs.trans path.held.2) live)

/-- A revoked profile is kept until the date its end gives. -/
theorem keep_eq (tidy : s.Tidy moment.today) (fields : path.m.hasFields = true)
    : ∃ date, path.revoked.KeptUntil path.m date
        ∧ path.keep = date.filter (moment.today < ·) := by
  have keeps := path.keeps
  rw [keepOnRevocation, if_pos fields] at keeps
  have revoked := path.revoked_tidy tidy
  refine (revoked.effectiveKeepUntil_commits path.held.1 path.ended ?_ keeps).2
  intro until_ stamp
  obtain ⟨stamp, _⟩ := Option.filter_eq_some_iff.mp stamp
  exact (revoked.stamped path.m path.held.1 until_ stamp).2

theorem keep_none (fields : path.m.hasFields = false) : path.keep = none := by
  have keeps := path.keeps
  rw [keepOnRevocation, if_neg (by simp [fields])] at keeps
  exact (commits_pure.mp keeps).1

theorem tidy (tidy : s.Tidy moment.today) : after.Tidy moment.today := by
  have revoked := path.revoked_tidy tidy
  have closed : path.closed.Tidy moment.today := by
    refine revoked.updates path.closes (fun _ => rfl) fun row there picked => ?_
    have one : row.id = path.m.id := (of_decide_eq_true picked).trans path.held.2.symm
    obtain rfl := revoked.row_eq path.held.1 there one
    refine ⟨fun _ ra inside theirs live => path.spent ra inside (theirs.trans path.held.2) live,
      fun until_ stamp => ⟨rfl, ?_⟩⟩
    have stamp : path.keep = some until_ := stamp
    cases fields : path.m.hasFields with
    | false =>
        rw [path.keep_none fields] at stamp
        cases stamp
    | true =>
        obtain ⟨date, kept, keep⟩ := path.keep_eq tidy fields
        obtain ⟨rfl, _⟩ := Option.filter_eq_some_iff.mp (keep.symm.trans stamp)
        exact kept.of_same rfl rfl rfl rfl
  exact path.cascades.tidy (path.cascades.sameMemberships (by simp) (by simp))
    (path.cascades.sameAccounts (by simp)) (by simp) closed

end RevocationPath

-----------------------------------------------------------------------------------------
-- Giving roles

theorem Tables.Tidy.addRoles (tidy : s.Tidy today) (added : List Role)
    : ({ s with roles := s.roles ++ added } : Tables).Tidy today :=
  { tidy with
    known := fun ra inside => role_known.mpr (by
      rw [List.map_append]
      exact List.mem_append_left _ (role_known.mp (tidy.known ra inside)))
    stamped := fun m held =>
      Tables.RowTimely.stamped ((tidy.timely held).of_same (s := s) rfl rfl) }

/-- New roles of a membership that is neither revoked nor stamped leave it tidy. -/
theorem Tables.Tidy.gives {rows : List RoleAssignment} (tidy : s.Tidy moment.today)
    (theirs : ∀ ra ∈ rows, ra.membershipId = membershipId ∧ ra.revokedAt = none)
    (known : ∀ ra ∈ rows, ∃ r, s.role ra.roleId = some r)
    (current : ∀ m ∈ s.memberships, m.id = membershipId →
      m.revokedAt = none ∧ m.profileRetainedUntil = none)
    : ({ s with assignments := s.assignments ++ rows } : Tables).Tidy moment.today := by
  refine ⟨⟨tidy.accountIds, tidy.membershipIds, tidy.admissible, ?_, ?_, ?_, ?_⟩, ?_⟩
  · intro m held revoked ra inside holds live
    rcases List.mem_append.mp inside with old | new
    · exact tidy.spent m held revoked ra old holds live
    · rw [(current m held (holds.symm.trans (theirs ra new).1)).1] at revoked
      cases revoked
  · intro ra inside at_ revoked
    rcases List.mem_append.mp inside with old | new
    · exact tidy.revocations ra old at_ revoked
    · rw [(theirs ra new).2] at revoked
      cases revoked
  · intro m held
    obtain ⟨ra, inside, holds⟩ := tidy.assigned m held
    exact ⟨ra, List.mem_append_left _ inside, holds⟩
  · intro ra inside
    exact (List.mem_append.mp inside).elim (tidy.known ra) (known ra)
  · intro m held until_ stamp
    obtain ⟨ended, a, present, account, day, ends, retained⟩ := tidy.stamped m held until_ stamp
    have others (ra : RoleAssignment) (new : ra ∈ rows) : ra.membershipId ≠ m.id := by
      intro holds
      rw [(current m held (holds.symm.trans (theirs ra new).1)).2] at stamp
      cases stamp
    have comesFrom (ra : RoleAssignment) (inside : ra ∈ s.assignments ++ rows)
        (holds : ra.membershipId = m.id)
        : ra ∈ s.assignments :=
      (List.mem_append.mp inside).resolve_right fun new => others ra new holds
    refine ⟨?_, a, present, account, day, ?_, retained⟩
    · refine Tables.membershipEnded_iff.mpr ?_
      exact (Tables.membershipEnded_iff.mp ended).imp_right fun spent ra inside holds =>
        spent ra (comesFrom ra inside holds) holds
    · refine ends.goesOn (tidy.allOver held ended) (fun ra inside => ?_) fun ra inside holds => ?_
      · exact ⟨ra, List.mem_append_left _ inside, .refl ra⟩
      · exact ⟨ra, comesFrom ra inside holds, .refl ra⟩

/-- So does a new membership that has a role. -/
theorem Tables.Tidy.joins {accountId : Nat} (tidy : s.Tidy today)
    (new : membershipId ∉ s.memberships.map (·.id))
    (assigned : ∃ ra ∈ s.assignments, ra.membershipId = membershipId)
    : ({ s with memberships :=
        s.memberships ++ [⟨membershipId, accountId, none, none, none, none, none⟩] }
          : Tables).Tidy
      today := by
  have row {P : MembershipRow → Prop} (old : ∀ m ∈ s.memberships, P m)
      (added : P ⟨membershipId, accountId, none, none, none, none, none⟩)
      : ∀ m ∈ s.memberships ++ [⟨membershipId, accountId, none, none, none, none, none⟩], P m := by
    intro m held
    rcases List.mem_append.mp held with there | last
    · exact old m there
    · exact List.mem_singleton.mp last ▸ added
  refine ⟨⟨tidy.accountIds, ?_, row tidy.admissible rfl, row tidy.spent (by simp),
    tidy.revocations, row tidy.assigned assigned, tidy.known⟩, row ?_ (by simp)⟩
  · rw [List.map_append, List.map_singleton]
    exact List.concat_eq_append ▸ tidy.membershipIds.concat new
  · intro m held
    exact Tables.RowTimely.stamped ((tidy.timely held).of_same (s := s) rfl rfl)

/-- A return leaves the row current and unstamped. -/
theorem reopenProfile_current {settled : Settled}
    (commits : (reopenProfile membershipId moment).Commits s settled after)
    : ∀ m ∈ after.memberships, m.id = membershipId →
        m.revokedAt = none ∧ m.profileRetainedUntil = none := by
  obtain ⟨_, _, _, _, _, _, reopens⟩ := reopenProfile_commits commits
  obtain ⟨_, rfl⟩ := commits_updateMemberships.mp reopens
  intro m held one
  obtain ⟨row, _, rfl⟩ := List.mem_map.mp held
  have followed (m : MembershipRow) : m.retentionFollowsFields
      { m with revokedAt := none, profileRetainedUntil := none }
        = { m with revokedAt := none, profileRetainedUntil := none } := by
    unfold MembershipRow.retentionFollowsFields
    split <;> rfl
  by_cases here : row.id = membershipId
  · rw [if_pos (decide_eq_true here), followed]
    exact ⟨rfl, rfl⟩
  · rw [if_neg (by simpa using here)] at one
    exact absurd one here

/-- A joiner's membership with the roles it is given, whichever way it comes about. -/
theorem ensureMembership_tidy {accountId expectedId : Nat} {joined : Nat × Bool × Bool}
    (added : List Role) {rows : List RoleAssignment} (tidy : s.Tidy moment.today)
    (commits : (ensureMembership accountId expectedId moment).Commits s joined after)
    (some_ : rows ≠ [])
    (theirs : ∀ ra ∈ rows, ra.membershipId = joined.1 ∧ ra.revokedAt = none)
    (known : ∀ ra ∈ rows, ra.roleId ∈ (s.roles ++ added).map (·.id))
    : ({ after with
        roles := after.roles ++ added
        assignments := after.assignments ++ rows } : Tables).Tidy moment.today := by
  have joins : s.Changes moment.now [.memberships, .profiles, .returns, .memberRemovals] after :=
    ensureMembership_within (by simp) (by simp) (by simp) (by simp) _ _ _ commits
  have titles := joins.sameRoles (by simp)
  obtain ⟨rfl, ⟨_, settled, _, _, _, reopens⟩ | ⟨new, _, rfl⟩⟩ := ensureMembership_commits commits
  · have reopened := (reopenProfile_keepsTidy _ _ _ reopens tidy).addRoles added
    refine reopened.gives theirs (fun ra inside => Tables.role_known.mpr ?_)
      fun m held one => reopenProfile_current reopens m held one
    exact titles ▸ known ra inside
  · have titled := tidy.addRoles added
    have given := titled.gives theirs (fun ra inside => Tables.role_known.mpr (known ra inside))
      fun m held one => absurd (one ▸ List.mem_map_of_mem held) new
    obtain ⟨ra, rest, rfl⟩ := List.exists_cons_of_ne_nil some_
    exact given.joins new ⟨ra, List.mem_append_right _ List.mem_cons_self,
      (theirs ra List.mem_cons_self).1⟩

theorem writeProfile_keepsTidy {profile : MemberProfile} {alreadyCurrent : Bool}
    : Within (Tables.KeepsTidy today) (writeProfile profile alreadyCurrent) :=
  updateMembership_keepsTidy (fun _ => rfl) fun _ _ timely => timely.of_row rfl rfl rfl (.inr rfl)

/-- The profile is written whatever roles are given next. -/
theorem writeProfile_gives {profile : MemberProfile} {alreadyCurrent : Bool} {u : Unit}
    (commits : (writeProfile profile alreadyCurrent).Commits s u after) (roles : List Role)
    (assignments : List RoleAssignment)
    : (writeProfile profile alreadyCurrent).Commits
        { s with roles := roles, assignments := assignments } u
        { after with roles := roles, assignments := assignments } := by
  obtain ⟨admissible, rfl⟩ := commits_updateMemberships.mp commits
  exact commits_updateMemberships.mpr ⟨admissible, rfl⟩

-----------------------------------------------------------------------------------------
-- Every operation

theorem Tables.HasRole.mem {roleId : Nat} {capability : CapabilityClass}
    (has : s.HasRole roleId capability)
    : roleId ∈ s.roles.map (·.id) := by
  obtain ⟨r, present, one, _⟩ := has
  exact one ▸ List.mem_map_of_mem present

theorem GrantPath.tidy {req : GrantRole} (path : GrantPath req moment s after)
    (tidy : s.Tidy moment.today)
    : after.Tidy moment.today := by
  obtain ⟨roles, titled⟩ := path.resolves.added
  have resolved : path.resolved.Tidy moment.today := titled ▸ tidy.addRoles roles
  have opened := reopenProfile_keepsTidy _ _ _ path.opens resolved
  obtain ⟨_, given⟩ := commits_insertAssignment.mp path.gives
  rw [given]
  refine opened.gives (by simp) (fun ra inside => ?_) (reopenProfile_current path.opens)
  obtain rfl := List.mem_singleton.mp inside
  refine Tables.role_known.mpr ?_
  rw [path.opens_changes.sameRoles (by simp)]
  exact (path.resolves.known _ (List.mem_singleton_self _)).mem

theorem AcceptancePath.tidy {found : Nat} {req : AcceptInvitation}
    (path : AcceptancePath found req moment s after) (offers : path.inv.roles ≠ [])
    (tidy : s.Tidy moment.today)
    : after.Tidy moment.today := by
  have verified := upsertVerifiedAccount_keepsTidy _ _ _ path.verifies tidy
  have titles := path.verifies_changes.sameRoles (by simp)
  obtain ⟨_, fulfils, _⟩ := acceptedRoles_commits path.offers
  obtain ⟨rows, given, gives, _⟩ := insertAccepted_commits path.gives
  have some_ : rows ≠ [] := by
    rintro rfl
    rw [List.forall₂_nil_right_iff.mp gives] at fulfils
    have none_ := List.forall₂_nil_right_iff.mp fulfils
    exact offers (List.perm_nil.mp (none_ ▸ (perm_sortOn _ _).symm))
  have joined := ensureMembership_tidy [] verified path.joins some_
    (fun ra inside => by
      obtain ⟨_, _, gives⟩ := forall₂_left_of_mem gives inside
      exact ⟨gives.membershipId, gives.revokedAt⟩)
    (fun ra inside => by
      obtain ⟨role, accepted, gives⟩ := forall₂_left_of_mem gives inside
      obtain ⟨_, _, fulfilled⟩ := forall₂_left_of_mem fulfils accepted
      rw [List.append_nil, titles, gives.roleId]
      exact fulfilled.known.mem)
  have named := writeProfile_keepsTidy _ _ _ (writeProfile_gives path.names _ _) joined
  have given_ : path.given.Tidy moment.today := by
    refine named.of_same ?_ ?_ ?_ ?_ <;> rw [given]
    · rw [path.names_changes.sameAssignments (by simp) (by simp)]
    · rw [path.names_changes.sameRoles (by simp), List.append_nil]
  exact path.marks_changes.tidy (path.marks_changes.sameMemberships (by simp) (by simp))
    (path.marks_changes.sameAccounts (by simp)) (by simp) given_

theorem ActivationPath.tidy {activation : Activation}
    (path : ActivationPath activation moment s after) (tidy : s.Tidy moment.today)
    : after.Tidy moment.today := by
  have verified : path.verified.Tidy moment.today :=
    upsertVerifiedAccount_keepsTidy _ _ _ path.verifies (tidy.of_same rfl rfl rfl rfl)
  have titles := path.titles
  simp only [insertBootstrapRole, commits_select_bind, commits_update_bind, commits_pure] at titles
  obtain ⟨one, titled⟩ := titles
  obtain ⟨_, given⟩ := commits_insertAssignment.mp path.gives
  have some_ : [(⟨path.assignmentId, path.joined.1, path.roleId, path.period, none, none⟩
      : RoleAssignment)] ≠ [] := List.cons_ne_nil _ _
  have joined := ensureMembership_tidy
    [⟨path.roleId, bootstrapAdminRoleName, .admin, none, none, none⟩] verified path.joins some_
    (by simp) (by simp)
  have named := writeProfile_keepsTidy _ _ _ (writeProfile_gives path.names _ _) joined
  have given_ : path.given.Tidy moment.today := by
    refine named.of_same ?_ ?_ ?_ ?_ <;> rw [given, titled]
    · rw [path.names_changes.sameAssignments (by simp) (by simp)]
    · rw [one, path.names_changes.sameRoles (by simp)]
  have invited := path.invites_changes.tidy
    (path.invites_changes.sameMemberships (by simp) (by simp))
    (path.invites_changes.sameAccounts (by simp)) (by simp) given_
  exact path.after ▸ invited.of_same rfl rfl rfl rfl

/-- Every operation leaves the profiles tidy, where invitations offer a role. -/
theorem Operation.Commits.tidy {op : Operation} (commits : op.Commits moment s after)
    (offers : ∀ inv ∈ s.invitations, inv.roles ≠ []) (tidy : s.Tidy moment.today)
    : after.Tidy moment.today := by
  have changes := commits.changes
  cases op
  case acceptInvitation =>
    obtain ⟨_, commits⟩ := commits
    obtain ⟨path⟩ := acceptInvitation_commits commits
    exact path.tidy (offers path.inv (of_findRow path.finds).1) tidy
  case grantRole =>
    obtain ⟨_, commits⟩ := commits
    obtain ⟨path⟩ := grantRole_commits commits
    exact path.tidy tidy
  case activateTenant =>
    obtain ⟨_, commits⟩ := commits
    obtain ⟨path⟩ := activateTenant_commits commits
    exact path.tidy tidy
  case revokeMembership =>
    obtain ⟨_, commits⟩ := commits
    obtain ⟨path⟩ := revokeMembership_path commits
    exact path.tidy tidy
  case clearEndedProfiles =>
    obtain ⟨_, commits⟩ := commits
    exact clearEndedProfiles_keepsTidy _ _ _ commits tidy
  case setRetentionMonths =>
    obtain ⟨_, commits⟩ := commits
    exact setRetentionMonths_keepsTidy _ _ _ commits tidy
  case eraseMemberNames =>
    obtain ⟨_, commits⟩ := commits
    exact eraseMemberNames_keepsTidy _ _ _ commits tidy
  case setDisplayName =>
    obtain ⟨_, commits⟩ := commits
    exact setDisplayName_keepsTidy _ _ _ commits tidy
  case setContactEmail =>
    obtain ⟨_, commits⟩ := commits
    exact setContactEmail_keepsTidy _ _ _ commits tidy
  all_goals
    exact changes.tidy (changes.sameMemberships (by simp [written]) (by simp [written]))
      (changes.sameAccounts (by simp [written])) (by simp [written]) tidy

-----------------------------------------------------------------------------------------
-- Every reachable state

/-- The FAU's profiles are tidy today, and its invitations offer a role. -/
structure FauState.Tidy (state : FauState) : Prop where
  tables : state.tables.Tidy state.today
  offers : ∀ inv ∈ state.tables.invitations, inv.roles ≠ []

variable {state next : FauState} {event : FauEvent}

theorem FauStep.tidy (stepped : FauStep state event next) (tidy : state.Tidy)
    : next.Tidy where
  tables := by
    cases stepped with
    | operates later lookedUp commits =>
        exact commits.tidy tidy.offers (tidy.tables.later later)
    | looksUp finds => exact tidy.tables
    | passes later => exact tidy.tables.later later
    | outside changed =>
        have changes : state.tables.Changes 0 _ _ := changed.changes
        have ids := changes.accounts.distinct tidy.tables.accountIds
        cases changed with
        | becomes goOn emails stays tokens =>
            have settings := tidy.tables.withAccounts ids fun a present => by
              obtain ⟨a', present', goesOn, setting⟩ := goOn.goesOn a present
              exact ⟨a', present', goesOn.id, setting⟩
            exact settings.of_same rfl rfl rfl rfl
  offers inv' inside := by
    rcases stepped.invitation inside with ⟨inv, old, goesOn⟩ | ⟨op, moment, rfl, issued⟩
    · exact goesOn.roles ▸ tidy.offers inv old
    · exact issued.offers.some_

theorem reachable_tidy (reached : fauSystem.Reachable state) : state.Tidy := by
  refine reached.keeps (I := FauState.Tidy) ?_ ?_
  · rintro s ⟨signedUp, _⟩
    refine ⟨⟨⟨signedUp.accountIds, ?_, ?_, ?_, ?_, ?_, ?_⟩, ?_⟩, ?_⟩ <;>
      simp [signedUp.noMemberships, signedUp.noAssignments, signedUp.noInvitations]
  · intro s event after tidy stepped
    exact FauStep.tidy stepped tidy

end

end FauPortalen.Membership

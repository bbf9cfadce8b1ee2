import FauPortalen.Membership.LeavingGroups
import FauPortalen.Membership.Provenance

/-! Invitations are used once: whatever acceptances, re-sends and withdrawals are under way, an
invitation that has been accepted or withdrawn is spent, and a token that was replaced is dead.
-/

set_option linter.unusedSectionVars false

namespace FauPortalen.Membership

open Foundations Transaction

section

variable [OsloZone] {moment : Moment} {s after : Tables}

-----------------------------------------------------------------------------------------
-- What re-sends and withdrawals commit

theorem resendInvitation_commits {change : InvitationChange} {issued : IssuedInvitation}
    (commits : (resendInvitation change moment).Commits s issued after)
    : ∃ inv, s.invitation change.invitationId = some inv
        ∧ inv.acceptedAt = none ∧ inv.revokedAt = none
        ∧ after = { s with
            nextToken := s.nextToken + 1
            invitations := s.invitations.map (changeAt Invitation.id change.invitationId
              ({ · with token := s.nextToken, expiresAt := invitationExpiry moment.now })) } := by
  simp only [resendInvitation, generateToken, updateInvitation, bind_assoc, pure_bind,
    commits_lockTenant_bind, commits_select_bind] at commits
  obtain ⟨_, _, rest⟩ := commits
  obtain ⟨_, _, authorized, rest⟩ := commits_bind.mp rest
  obtain rfl := authorizeChange_within (R := Eq) _ _ _ authorized
  simp only [commits_requireOpen_bind, commits_expect_bind, commits_require_bind,
    commits_select_bind, commits_update_bind, commits_pure] at rest
  obtain ⟨_, _, inv, found, ⟨unaccepted, unrevoked⟩, _, _, rfl⟩ := rest
  exact ⟨inv, found, unaccepted, unrevoked, rfl⟩

theorem withdrawInvitation_commits {change : InvitationChange} {u : Unit}
    (commits : (withdrawInvitation change moment).Commits s u after)
    : ∃ inv, s.invitation change.invitationId = some inv
        ∧ inv.acceptedAt = none ∧ inv.revokedAt = none
        ∧ after = { s with
            invitations := s.invitations.map (changeAt Invitation.id change.invitationId
              ({ · with revokedAt := some moment.now })) } := by
  simp only [withdrawInvitation, updateInvitation, commits_lockTenant_bind, commits_select_bind]
    at commits
  obtain ⟨_, _, rest⟩ := commits
  obtain ⟨_, _, authorized, rest⟩ := commits_bind.mp rest
  obtain rfl := authorizeChange_within (R := Eq) _ _ _ authorized
  simp only [commits_expect_bind, commits_require_bind, commits_update] at rest
  obtain ⟨inv, found, ⟨unaccepted, unrevoked⟩, rfl⟩ := rest
  exact ⟨inv, found, unaccepted, unrevoked, rfl⟩

/-- An acceptance marks the invitation that it found, and no other. -/
theorem AcceptancePath.invitations {found : Nat} {req : AcceptInvitation}
    (path : AcceptancePath found req moment s after)
    : after.invitations = s.invitations.map (changeAt Invitation.id found ({ · with
        acceptedAt := some moment.now, acceptedMembershipId := some path.joined.1 })) := by
  have marks := congrArg Tables.invitations (commits_update.mp path.marks)
  have before : path.given.invitations = s.invitations := by
    rw [path.gives_changes.sameInvitations (by simp) (by simp),
      path.names_changes.sameInvitations (by simp) (by simp),
      path.joins_changes.sameInvitations (by simp) (by simp),
      path.verifies_changes.sameInvitations (by simp) (by simp)]
  exact marks.trans (congrArg (List.map _) before)

-----------------------------------------------------------------------------------------
-- Tokens

/-- All invitations keep their tokens, but for one at most, which takes one not given before. -/
def Tables.RenewsOne (s after : Tables) : Prop :=
  ∃ id, ∀ inv' ∈ after.invitations,
    (∃ inv ∈ s.invitations, inv.id = inv'.id ∧ inv.token = inv'.token)
      ∨ inv'.id = id ∧ s.nextToken ≤ inv'.token

theorem Tables.RenewsOne.of_same (same : after.invitations = s.invitations) : s.RenewsOne after :=
  ⟨0, fun inv' inside => .inl ⟨inv', same ▸ inside, rfl, rfl⟩⟩

/-- A change of one row that leaves its token alone. -/
theorem Tables.RenewsOne.of_change {id : Nat} {change : Invitation → Invitation}
    (same : after.invitations = s.invitations.map (changeAt Invitation.id id change))
    (keeps : ∀ inv, (change inv).id = inv.id ∧ (change inv).token = inv.token)
    : s.RenewsOne after := by
  refine ⟨0, fun inv' inside => .inl ?_⟩
  rw [same] at inside
  obtain ⟨inv, old, rfl⟩ := List.mem_map.mp inside
  refine ⟨inv, old, ?_⟩
  unfold changeAt
  split
  · exact ⟨(keeps inv).1.symm, (keeps inv).2.symm⟩
  · exact ⟨rfl, rfl⟩

theorem Issues.renewsOne {today : Date} {row : Invitation} {before later : Tables}
    (issues : Issues today row before later) (same : before.invitations = s.invitations)
    (given : s.nextToken ≤ before.nextToken) (still : later.invitations = after.invitations)
    : s.RenewsOne after := by
  obtain ⟨_, _, added⟩ := issues.after
  have rows := congrArg Tables.invitations added
  refine ⟨row.id, fun inv' inside => ?_⟩
  rw [← still, rows] at inside
  rcases List.mem_append.mp inside with old | last
  · exact .inl ⟨inv', same ▸ old, rfl, rfl⟩
  · obtain rfl := List.mem_singleton.mp last
    exact .inr ⟨rfl, issues.token ▸ given⟩

/-- No operation gives one token twice, nor one that was given before. -/
theorem Operation.Commits.renewsOne {op : Operation} (commits : op.Commits moment s after)
    : s.RenewsOne after := by
  have changes := commits.changes
  cases op
  case issueInvitation =>
    obtain ⟨_, commits⟩ := commits
    obtain ⟨_, issues, _⟩ := issueInvitation_commits commits
    exact issues.renewsOne rfl (Nat.le_refl _) rfl
  case approveRequest =>
    obtain ⟨_, commits⟩ := commits
    obtain ⟨_, issues, _⟩ := approveRequest_commits commits
    exact issues.renewsOne rfl (Nat.le_refl _) rfl
  case recoveryGrantAdmin =>
    obtain ⟨_, commits⟩ := commits
    obtain ⟨_, issues, _⟩ := recoveryGrantAdmin_commits commits
    exact issues.renewsOne rfl (Nat.le_refl _) rfl
  case activateTenant =>
    obtain ⟨_, commits⟩ := commits
    obtain ⟨path⟩ := activateTenant_commits commits
    have ends : path.invited.invitations = after.invitations :=
      (congrArg Tables.invitations path.after).symm
    have given : s.nextToken ≤ path.given.nextToken :=
      path.verifies_changes.tokens.trans (path.joins_changes.tokens.trans
        (path.names_changes.tokens.trans (path.titles_changes.tokens.trans
          path.gives_changes.tokens)))
    have running : moment.today < path.period.endsOnExclusive :=
      path.starts ▸ path.period.nonEmpty
    rcases inviteLeader_commits path.invites (path.gives_changes.hasRole path.titled_hasRole)
      running with same | ⟨_, issues, _⟩
    · exact .of_same (ends.symm.trans (same ▸ path.given_invitations))
    · exact issues.renewsOne path.given_invitations given ends
  case acceptInvitation =>
    obtain ⟨_, commits⟩ := commits
    obtain ⟨path⟩ := acceptInvitation_commits commits
    exact .of_change path.invitations fun _ => ⟨rfl, rfl⟩
  case withdrawInvitation =>
    obtain ⟨_, commits⟩ := commits
    obtain ⟨_, _, _, _, left⟩ := withdrawInvitation_commits commits
    exact .of_change (congrArg Tables.invitations left) fun _ => ⟨rfl, rfl⟩
  case resendInvitation change =>
    obtain ⟨_, commits⟩ := commits
    obtain ⟨_, _, _, _, left⟩ := resendInvitation_commits commits
    refine ⟨change.invitationId, fun inv' inside => ?_⟩
    rw [congrArg Tables.invitations left] at inside
    obtain ⟨inv, old, rfl⟩ := List.mem_map.mp inside
    by_cases renewed : inv.id = change.invitationId
    · rw [changeAt_of_eq renewed]
      exact .inr ⟨renewed, Nat.le_refl _⟩
    · rw [changeAt_of_ne renewed]
      exact .inl ⟨inv, old, rfl, rfl⟩
  all_goals
    exact .of_same (changes.sameInvitations (by simp [Operation.written])
      (by simp [Operation.written]))

variable {state next : FauState} {event : FauEvent} {id token : Nat}

theorem FauStep.renewsOne (stepped : FauStep state event next)
    : state.tables.RenewsOne next.tables := by
  cases stepped with
  | operates later lookedUp commits => exact commits.renewsOne
  | looksUp finds => exact .of_same rfl
  | passes later => exact .of_same rfl
  | outside changed =>
      cases changed
      exact .of_same rfl

/-- No two invitations have one token. -/
def Tables.TokensApart (s : Tables) : Prop :=
  ∀ one ∈ s.invitations, ∀ other ∈ s.invitations, one.token = other.token → one.id = other.id

theorem Tables.RenewsOne.tokensApart (renews : s.RenewsOne after)
    (given : ∀ inv ∈ s.invitations, inv.token < s.nextToken) (apart : s.TokensApart)
    : after.TokensApart := by
  obtain ⟨id, tokens⟩ := renews
  intro one first other second same
  rcases tokens one first with ⟨inv, old, sameId, kept⟩ | ⟨renewed, new⟩
  · rcases tokens other second with ⟨inv', old', sameId', kept'⟩ | ⟨_, new'⟩
    · rw [← sameId, ← sameId']
      exact apart inv old inv' old' (kept.trans (same.trans kept'.symm))
    · have := given inv old
      omega
  · rcases tokens other second with ⟨inv', old', _, kept'⟩ | ⟨renewed', _⟩
    · have := given inv' old'
      omega
    · exact renewed.trans renewed'.symm

theorem reachable_tokensApart (reached : fauSystem.Reachable state) : state.tables.TokensApart := by
  have both : state.tables.Keyed ∧ state.tables.TokensApart := by
    refine reached.keeps (I := fun state => state.tables.Keyed ∧ state.tables.TokensApart) ?_ ?_
    · rintro s ⟨signedUp, _⟩
      refine ⟨signedUp.keyed, fun one inside => ?_⟩
      rw [signedUp.noInvitations] at inside
      cases inside
    · rintro s event after ⟨keyed, apart⟩ stepped
      exact ⟨(FauStep.changes stepped).keyed keyed,
        (FauStep.renewsOne stepped).tokensApart keyed.tokens apart⟩
  exact both.2

/-- A token that was given, and that no invitation has any more. -/
structure Tables.Dead (token : Nat) (s : Tables) : Prop where
  given : token < s.nextToken
  unused : ∀ inv ∈ s.invitations, inv.token ≠ token

theorem FauStep.dead (stepped : FauStep state event next) (dead : state.tables.Dead token)
    : next.tables.Dead token where
  given := dead.given.trans_le stepped.changes.tokens
  unused := by
    obtain ⟨_, tokens⟩ := stepped.renewsOne
    intro inv' inside same
    rcases tokens inv' inside with ⟨inv, old, _, kept⟩ | ⟨_, new⟩
    · exact dead.unused inv old (kept.trans same)
    · have := dead.given
      omega

-----------------------------------------------------------------------------------------
-- Spent invitations

/-- An invitation that has been accepted or withdrawn. -/
structure Tables.Spent (id : Nat) (s : Tables) : Prop where
  known : id ∈ s.invitations.map (·.id)
  closed : ∀ inv ∈ s.invitations, inv.id = id → inv.acceptedAt.isSome ∨ inv.revokedAt.isSome

theorem Tables.Changes.spent {now : Timestamp} {written : List Written}
    (changes : s.Changes now written after) (spent : s.Spent id)
    : after.Spent id where
  known := changes.invitations.keys_subset (fun _ _ h => h.id) spent.known
  closed := by
    intro inv' inside same
    rcases changes.invitations.comesFrom inv' inside with ⟨inv, old, goesOn⟩ | new
    · exact (spent.closed inv old (goesOn.id.symm.trans same)).imp goesOn.accepted goesOn.revoked
    · exact absurd (same ▸ spent.known) new

/-- One row is closed, so the invitation is spent. -/
theorem Tables.Spent.of_change {inv : Invitation} {change : Invitation → Invitation}
    (found : s.invitation id = some inv) (keeps : ∀ row, (change row).id = row.id)
    (closes : ∀ row, (change row).acceptedAt.isSome ∨ (change row).revokedAt.isSome)
    (same : after.invitations = s.invitations.map (changeAt Invitation.id id change))
    : after.Spent id where
  known := by
    obtain ⟨present, one⟩ := of_findRow found
    rw [same, List.map_map]
    refine List.mem_map.mpr ⟨inv, present, ?_⟩
    exact (key_changeAt keeps inv).trans one
  closed := by
    intro inv' inside theirs
    rw [same] at inside
    obtain ⟨row, _, rfl⟩ := List.mem_map.mp inside
    rw [key_changeAt keeps] at theirs
    rw [changeAt_of_eq theirs]
    exact closes row

theorem Tables.Spent.not_pending {inv : Invitation} (spent : s.Spent id)
    (found : s.invitation id = some inv) (unaccepted : inv.acceptedAt = none)
    (unrevoked : inv.revokedAt = none)
    : False := by
  obtain ⟨present, one⟩ := of_findRow found
  rcases spent.closed inv present one with accepted | revoked
  · simp [unaccepted] at accepted
  · simp [unrevoked] at revoked

-----------------------------------------------------------------------------------------
-- Every step

namespace FauEvent

/-- An acceptance of the invitation commits. -/
def Accepts (id : Nat) (event : FauEvent) : Prop :=
  ∃ req moment, event = operates (.acceptInvitation id req) moment

def Resends (id : Nat) (event : FauEvent) : Prop :=
  ∃ actor moment, event = operates (.resendInvitation ⟨actor, id⟩) moment

def Withdraws (id : Nat) (event : FauEvent) : Prop :=
  ∃ actor moment, event = operates (.withdrawInvitation ⟨actor, id⟩) moment

/-- An acceptance with the token commits. -/
def Presents (token : Nat) (event : FauEvent) : Prop :=
  ∃ found req moment, event = operates (.acceptInvitation found req) moment ∧ req.token = token

end FauEvent

theorem FauStep.acceptance {req : AcceptInvitation}
    (stepped : FauStep state (.operates (.acceptInvitation id req) moment) next)
    : Nonempty (AcceptancePath id req moment state.tables next.tables) := by
  obtain ⟨_, commits⟩ := stepped.commits
  exact acceptInvitation_commits commits

/-- The acceptance rule: pending, and before the expiry. -/
theorem AcceptancePath.pending {req : AcceptInvitation} (path : AcceptancePath id req moment s after)
    : path.inv.acceptedAt = none ∧ path.inv.revokedAt = none
      ∧ moment.now < path.inv.expiresAt := by
  obtain ⟨unrevoked, unaccepted, unexpired, _⟩ := checkAcceptance_eq_ok.mp path.passes
  have none_ {at_ : Option Timestamp} (no : at_.isSome = false) : at_ = none := by
    simpa using no
  exact ⟨none_ unaccepted, none_ unrevoked, unexpired⟩

/-- A spent invitation is not accepted, re-sent or withdrawn. -/
theorem FauStep.not_spent (stepped : FauStep state event next) (spent : state.tables.Spent id)
    : ¬ event.Accepts id ∧ ¬ event.Resends id ∧ ¬ event.Withdraws id := by
  refine ⟨?_, ?_, ?_⟩
  · rintro ⟨req, moment, rfl⟩
    obtain ⟨path⟩ := stepped.acceptance
    obtain ⟨unaccepted, unrevoked, _⟩ := path.pending
    exact spent.not_pending path.finds unaccepted unrevoked
  · rintro ⟨actor, moment, rfl⟩
    obtain ⟨_, commits⟩ := stepped.commits
    obtain ⟨inv, found, unaccepted, unrevoked, _⟩ := resendInvitation_commits commits
    exact spent.not_pending found unaccepted unrevoked
  · rintro ⟨actor, moment, rfl⟩
    obtain ⟨_, commits⟩ := stepped.commits
    obtain ⟨inv, found, unaccepted, unrevoked, _⟩ := withdrawInvitation_commits commits
    exact spent.not_pending found unaccepted unrevoked

/-- An acceptance and a withdrawal both spend the invitation. -/
theorem FauStep.spends (stepped : FauStep state event next)
    (closes : event.Accepts id ∨ event.Withdraws id)
    : next.tables.Spent id := by
  rcases closes with ⟨req, moment, rfl⟩ | ⟨actor, moment, rfl⟩
  · obtain ⟨path⟩ := stepped.acceptance
    refine .of_change path.finds ?_ ?_ path.invitations
    · exact fun _ => rfl
    · exact fun _ => .inl rfl
  · obtain ⟨_, commits⟩ := stepped.commits
    obtain ⟨inv, found, _, _, left⟩ := withdrawInvitation_commits commits
    refine .of_change found ?_ ?_ (congrArg Tables.invitations left)
    · exact fun _ => rfl
    · exact fun _ => .inr rfl

/-- A re-send replaces the token for good. -/
theorem FauStep.supersedes {inv : Invitation} (stepped : FauStep state event next)
    (resends : event.Resends id) (found : state.tables.invitation id = some inv)
    (given : ∀ inv ∈ state.tables.invitations, inv.token < state.tables.nextToken)
    (apart : state.tables.TokensApart)
    : next.tables.Dead inv.token := by
  obtain ⟨present, one⟩ := of_findRow found
  have old := given inv present
  obtain ⟨actor, moment, rfl⟩ := resends
  obtain ⟨_, commits⟩ := stepped.commits
  obtain ⟨_, _, _, _, left⟩ := resendInvitation_commits commits
  refine ⟨old.trans_le stepped.changes.tokens, fun inv' inside same => ?_⟩
  rw [left] at inside
  obtain ⟨row, there, rfl⟩ := List.mem_map.mp inside
  by_cases renewed : row.id = id
  · rw [changeAt_of_eq renewed] at same
    exact absurd same (Nat.ne_of_gt old)
  · rw [changeAt_of_ne renewed] at same
    exact renewed ((apart row there inv present same).trans one)

/-- A dead token is not accepted. -/
theorem FauStep.not_dead (stepped : FauStep state event next) (dead : state.tables.Dead token)
    : ¬ event.Presents token := by
  rintro ⟨found, req, moment, rfl, rfl⟩
  obtain ⟨path⟩ := stepped.acceptance
  exact dead.unused path.inv (of_findRow path.finds).1 path.token

-----------------------------------------------------------------------------------------
-- What an acceptance inserts

/-- The rows are the roles that the invitation offers, one each, of the joining membership and
over the periods offered. Only an activation lets its reader choose when an admin role ends, and
only within the bounds for admin roles.
-/
structure Invitation.GivenAs (inv : Invitation) (req : AcceptInvitation) (today : Date)
    (s : Tables) (rows : List RoleAssignment) : Prop where
  roles : (rows.map (·.roleId)).Perm (inv.roles.map (·.1))
  once : (rows.map (·.roleId)).Nodup
  offered : ∀ ra ∈ rows, ∃ role ∈ inv.roles, ∃ capability,
    s.Fulfils req.adminEndOverride role (ra.roleId, capability, ra.period)
  chosenEnd : ∀ ends, req.adminEndOverride = some ends →
    inv.mode = .activation ∧ validateAdminEnd today ends = .ok ()
  holder : ∀ ra ∈ rows, ra.membershipId = req.profile.membershipId
  inForce : ∀ ra ∈ rows, ra.revokedAt = none

theorem AcceptancePath.inserts {req : AcceptInvitation} (path : AcceptancePath id req moment s after)
    (distinct : (path.inv.roles.map (·.1)).Nodup)
    : ∃ rows, after.assignments = s.assignments ++ rows
        ∧ path.inv.GivenAs req moment.today s rows := by
  obtain ⟨rows, added, gives, _⟩ := path.assignments
  obtain ⟨_, fulfils, chosenEnd⟩ := acceptedRoles_commits path.offers
  obtain ⟨joined, _⟩ := ensureMembership_commits path.joins
  have paired : List.Forall₂
      (fun (offered : Nat × Period) ra => ra.roleId = offered.1 ∧ ∃ capability,
        s.Fulfils req.adminEndOverride offered (ra.roleId, capability, ra.period))
      (sortOn (·.1) path.inv.roles) rows := by
    refine forall₂_through (fun offered role ra fulfilled given => ?_) fulfils gives
    have one : role = (ra.roleId, role.2.1, ra.period) := by
      rw [given.roleId, given.period]
    exact ⟨given.roleId.trans fulfilled.roleId, role.2.1, one ▸ fulfilled⟩
  have roles : (rows.map (·.roleId)).Perm (path.inv.roles.map (·.1)) := by
    have same : rows.map (·.roleId) = (sortOn (·.1) path.inv.roles).map (·.1) :=
      map_eq_of_forall₂ paired fun _ _ related => related.1
    exact same ▸ (perm_sortOn _ _).map _
  refine ⟨rows, added, roles, roles.nodup_iff.mpr distinct, fun ra inside => ?_, chosenEnd,
    fun ra inside => ?_, fun ra inside => ?_⟩
  · obtain ⟨offered, there, _, capability, fulfilled⟩ := forall₂_left_of_mem paired inside
    exact ⟨offered, mem_sortOn.mp there, capability, fulfilled⟩
  · obtain ⟨_, _, given⟩ := forall₂_left_of_mem gives inside
    exact given.membershipId.trans joined
  · obtain ⟨_, _, given⟩ := forall₂_left_of_mem gives inside
    exact given.revokedAt

-----------------------------------------------------------------------------------------
-- Every run

variable {events : List FauEvent} {last : FauState}

/-- Once it has been accepted or withdrawn, an invitation is not accepted, re-sent or withdrawn. -/
theorem spent_along (run : fauSystem.Run state events last) (spent : state.tables.Spent id)
    : ∀ event ∈ events, ¬ (event.Accepts id ∨ event.Resends id ∨ event.Withdraws id) := by
  refine (run.never (P := fun state => state.tables.Spent id) ?_ ?_ spent).2
  · exact fun s event after spent stepped => (FauStep.changes stepped).spent spent
  · intro s event after spent stepped
    obtain ⟨accepts, resends, withdraws⟩ := FauStep.not_spent stepped spent
    rintro (yes | yes | yes)
    · exact accepts yes
    · exact resends yes
    · exact withdraws yes

/-- A dead token is never accepted. -/
theorem dead_along (run : fauSystem.Run state events last) (dead : state.tables.Dead token)
    : ∀ event ∈ events, ¬ event.Presents token :=
  (run.never (P := fun state => state.tables.Dead token)
    (fun _ _ _ dead stepped => FauStep.dead stepped dead)
    (fun _ _ _ dead stepped => FauStep.not_dead stepped dead) dead).2

/-- Whatever requests are under way: once an invitation has been accepted it is not accepted,
re-sent or withdrawn again, nor accepted once it has been withdrawn; a token that a re-send
replaced is not accepted; and every acceptance presents the token its invitation has then, before
the expiry, and inserts the roles offered, one each, over the periods offered, but for the end
that an activation lets its leader choose.
-/
theorem invitation_singleUse (reached : fauSystem.Reachable state)
    (stepped : fauSystem.step state event next) (run : fauSystem.Run next events last)
    : (event.Accepts id → ∀ later ∈ events,
        ¬ later.Accepts id ∧ ¬ later.Resends id ∧ ¬ later.Withdraws id)
      ∧ (event.Withdraws id → ∀ later ∈ events, ¬ later.Accepts id)
      ∧ (event.Resends id → ∀ inv, state.tables.invitation id = some inv →
          ∀ later ∈ events, ¬ later.Presents inv.token)
      ∧ (∀ req moment, event = .operates (.acceptInvitation id req) moment →
          ∃ inv, state.tables.invitation id = some inv
            ∧ inv.acceptedAt = none ∧ inv.revokedAt = none
            ∧ req.token = inv.token ∧ moment.now < inv.expiresAt
            ∧ ∃ rows, next.tables.assignments = state.tables.assignments ++ rows
                ∧ inv.GivenAs req moment.today state.tables rows) := by
  refine ⟨fun accepts later inside => ?_, fun withdraws later inside accepts => ?_,
    fun resends inv found => ?_, ?_⟩
  · have spent := FauStep.spends stepped (.inl accepts)
    have ruledOut := spent_along run spent later inside
    exact ⟨fun yes => ruledOut (.inl yes), fun yes => ruledOut (.inr (.inl yes)),
      fun yes => ruledOut (.inr (.inr yes))⟩
  · have spent := FauStep.spends stepped (.inr withdraws)
    exact spent_along run spent later inside (.inl accepts)
  · have dead := FauStep.supersedes stepped resends found (reachable_keyed reached).tokens
      (reachable_tokensApart reached)
    exact dead_along run dead
  · rintro req moment rfl
    obtain ⟨path⟩ := FauStep.acceptance stepped
    obtain ⟨unaccepted, unrevoked, unexpired⟩ := path.pending
    have distinct := (reachable_sourced reached).distinct path.inv (of_findRow path.finds).1
    exact ⟨path.inv, path.finds, unaccepted, unrevoked, path.token.symm, unexpired,
      path.inserts distinct⟩

end

-----------------------------------------------------------------------------------------
-- Kari's return

section

attribute [local instance] OsloZone.winterAndSummer

/-- The role that Kari is offered in June. -/
def recoveredRole : Nat × Period := (1, .ofEnds june.today (.ofParts 1971 6 1 rfl) rfl)

/-- Kari accepts her role again, over the period offered, and her link does not work a second
time.
-/
theorem kari_singleUse
    : ∃ rows, returnedFau.assignments = recoveredFau.assignments ++ rows
        ∧ (rows.map (·.roleId)).Perm [recoveredRole.1]
        ∧ (∀ ra ∈ rows, ra.period.endsOnExclusive = recoveredRole.2.endsOnExclusive)
        ∧ ¬ ∃ events last, fauSystem.Run ⟨returnedFau, june.today, [(1, 1)]⟩ events last
            ∧ ∃ later ∈ events, later.Accepts 1 := by
  obtain ⟨events, before⟩ := recoveredFau_run
  have reached := joinedFau_reachable.run before
  have accepts : ∀ events last, fauSystem.Run ⟨returnedFau, june.today, [(1, 1)]⟩ events last →
      ∀ later ∈ events, ¬ later.Accepts 1 := fun events last run later inside =>
    ((invitation_singleUse reached returnedFau_step run).1 ⟨_, _, rfl⟩ later inside).1
  obtain ⟨inv, found, _, _, _, _, rows, added, given⟩ :=
    (invitation_singleUse reached returnedFau_step .done).2.2.2 _ _ rfl
  have offered : inv.roles = [recoveredRole] := by
    have roles : (recoveredFau.invitation 1).map (·.roles) = some [recoveredRole] := by
      decide +kernel
    rw [show recoveredFau.invitation 1 = some inv from found] at roles
    exact Option.some.inj roles
  have ends : ∀ ra ∈ rows, ra.period.endsOnExclusive = recoveredRole.2.endsOnExclusive := by
    intro ra inside
    obtain ⟨role, there, _, fulfils⟩ := given.offered ra inside
    obtain rfl : role = recoveredRole := by simpa [offered] using there
    simpa using fulfils.endsOnExclusive
  refine ⟨rows, added, by simpa [offered] using given.roles, ends, ?_⟩
  rintro ⟨events, last, run, later, inside, yes⟩
  exact accepts events last run later inside yes

end

end FauPortalen.Membership

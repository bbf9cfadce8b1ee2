import FauPortalen.Membership.Invariants

/-! The handover grants of every reachable state: each has a source of its own, an admin role that
has ended, runs for the source's window, and is revoked while that runs only with its source.
-/

set_option linter.unusedSectionVars false

namespace FauPortalen.Membership

open Foundations Transaction

variable [OsloZone] {moment : Moment} {today : Date} {s after : Tables}

-----------------------------------------------------------------------------------------
-- What the sweep inserts

/-- What the sweep adds to the grants for some ended roles: an unrevoked grant of the role's window
for one without a grant, so that each whose window is not over has one.
-/
structure Sweeps (today : Date) (candidates : List RoleAssignment)
    (grants added : List HandoverGrant)
    : Prop where
  sourced : ∀ g ∈ added, g.revokedAt = none ∧ ∃ ra ∈ candidates, g.sourceAssignmentId = ra.id
    ∧ handoverPeriod ra.period.endsOnExclusive = some g.period
  once : (grants.map (·.sourceAssignmentId)).Nodup →
    ((grants ++ added).map (·.sourceAssignmentId)).Nodup
  complete : ∀ ra ∈ candidates, ∀ window,
    handoverPeriod ra.period.endsOnExclusive = some window → window.hasEndedBy today = false →
      ra.id ∈ (grants ++ added).map (·.sourceAssignmentId)

theorem Sweeps.nil {grants : List HandoverGrant} : Sweeps today [] grants [] := by
  constructor <;> simp

/-- The sweep of the first role and then of the others. -/
theorem Sweeps.cons {ra : RoleAssignment} {rest : List RoleAssignment}
    {grants first others : List HandoverGrant} (here : Sweeps today [ra] grants first)
    (later : Sweeps today rest (grants ++ first) others)
    : Sweeps today (ra :: rest) grants (first ++ others) where
  sourced g inside := by
    rcases List.mem_append.mp inside with old | new
    · obtain ⟨live, source, member, runs⟩ := here.sourced g old
      exact ⟨live, source, List.mem_singleton.mp member ▸ List.mem_cons_self, runs⟩
    · obtain ⟨live, source, member, runs⟩ := later.sourced g new
      exact ⟨live, source, List.mem_cons_of_mem _ member, runs⟩
  once unique := List.append_assoc grants first others ▸ later.once (here.once unique)
  complete source member window runs isOpen := by
    rw [← List.append_assoc]
    rcases List.mem_cons.mp member with rfl | other
    · have granted := here.complete source List.mem_cons_self window runs isOpen
      rw [List.map_append]
      exact List.mem_append_left _ granted
    · exact later.complete source other window runs isOpen

/-- One ended role gets its grant, unless its window is over or it has one. -/
theorem insertGrant_commits {ra : RoleAssignment} {created created' : Nat}
    (commits : (insertGrant today created ra).Commits s created' after)
    : ∃ added, after = { s with grants := s.grants ++ added }
        ∧ Sweeps today [ra] s.grants added := by
  unfold insertGrant at commits
  split at commits
  · next none_ =>
      refine ⟨[], by rw [(commits_pure.mp commits).2, List.append_nil], by simp, by simp, ?_⟩
      intro source member window runs
      rw [List.mem_singleton.mp member, none_] at runs
      cases runs
  · next window runs =>
      simp only [commits_select_bind, commits_ite, commits_update_bind, commits_pure,
        Bool.or_eq_true, not_or, Bool.not_eq_true] at commits
      obtain ⟨skipped, _, rfl⟩ | ⟨⟨_, fresh⟩, _, rfl⟩ := commits
      · refine ⟨[], by rw [List.append_nil], by simp, by simp, ?_⟩
        intro source member window' runs' isOpen
        rw [List.mem_singleton.mp member] at runs' ⊢
        obtain rfl : window = window' := Option.some.inj (runs.symm.trans runs')
        rw [List.append_nil]
        simpa [isOpen] using skipped
      · refine ⟨_, rfl, ?_, fun unique => ?_, ?_⟩
        · intro g inside
          rw [List.mem_singleton.mp inside]
          exact ⟨rfl, ra, List.mem_singleton_self _, rfl, runs⟩
        · rw [List.map_append, List.map_singleton]
          exact List.concat_eq_append ▸ unique.concat (by simpa using fresh)
        · intro source member _ _ _
          rw [List.mem_singleton.mp member]
          simp

theorem insertGrants_commits {candidates : List RoleAssignment} {created created' : Nat}
    (commits : (candidates.foldlM (insertGrant today) created).Commits s created' after)
    : ∃ added, after = { s with grants := s.grants ++ added }
        ∧ Sweeps today candidates s.grants added := by
  induction candidates generalizing s created with
  | nil =>
      obtain ⟨_, rfl⟩ := commits_foldlM_nil.mp commits
      exact ⟨[], by rw [List.append_nil], .nil⟩
  | cons ra rest ih =>
      obtain ⟨_, middle, pass, others⟩ := commits_foldlM_cons.mp commits
      obtain ⟨first, rfl, here⟩ := insertGrant_commits pass
      obtain ⟨more, rfl, later⟩ := ih others
      exact ⟨first ++ more, by rw [← List.append_assoc], here.cons later⟩

/-- The sweep adds grants in an active FAU, and nothing in another. -/
theorem createTenantHandoverGrants_commits {created : Nat}
    (commits : (createTenantHandoverGrants moment).Commits s created after)
    : ∃ added, after = { s with grants := s.grants ++ added }
        ∧ Sweeps moment.today
            (if s.tenant.any (·.status = .active) then s.grantCandidates moment.today else [])
            s.grants added := by
  simp only [createTenantHandoverGrants, commits_lockTenant_bind, commits_ite, commits_select_bind,
    commits_pure] at commits
  obtain ⟨state, tenant, ⟨inactive, _, rfl⟩ | ⟨active, loop⟩⟩ := commits
  · refine ⟨[], by rw [List.append_nil], ?_⟩
    rw [if_neg (by simpa [tenant] using inactive)]
    exact .nil
  · rw [if_pos (by simpa [tenant] using active)]
    exact insertGrants_commits loop

/-- The scan before the lock passes over an FAU only where the sweep would insert nothing. -/
theorem createHandoverGrants_commits {created : Nat} (tenant : s.tenant.isSome = true)
    : (createHandoverGrants moment).Commits s created after
      ↔ (createTenantHandoverGrants moment).Commits s created after := by
  rw [createHandoverGrants, commits_select_bind]
  split
  · rfl
  · next passedOver =>
      obtain ⟨state, found⟩ := Option.isSome_iff_exists.mp tenant
      have none_ : s.grantCandidates moment.today = [] := by
        refine List.filter_eq_nil_iff.mpr fun ra held candidate => passedOver ?_
        refine List.any_eq_true.mpr ⟨ra, held, ?_⟩
        simp only [Bool.and_eq_true] at candidate ⊢
        obtain ⟨⟨⟨⟨class_, live⟩, _⟩, ended⟩, fresh⟩ := candidate
        exact ⟨⟨⟨class_, live⟩, ended⟩, fresh⟩
      simp only [createTenantHandoverGrants, commits_lockTenant_bind, commits_ite,
        commits_select_bind, commits_pure, none_, commits_foldlM_nil, found]
      constructor
      · intro nothing
        exact ⟨state, rfl, (em _).imp (⟨·, nothing⟩) (⟨·, nothing⟩)⟩
      · rintro ⟨_, _, ⟨_, nothing⟩ | ⟨_, nothing⟩⟩
        · exact nothing
        · exact nothing

-----------------------------------------------------------------------------------------
-- What revocations leave

/-- Revoking one assignment revokes its grant with it. -/
theorem revokeRoleAssignment_commits {req : RevokeAssignment} {u : Unit}
    (commits : (revokeRoleAssignment req moment).Commits s u after)
    : after = { s with
        assignments := s.assignments.map fun ra =>
          if ra.id = req.assignmentId && ra.revokedAt.isNone then
            { ra with revokedAt := some moment.now } else ra
        grants := s.grants.map fun g =>
          if g.sourceAssignmentId = req.assignmentId && g.revokedAt.isNone then
            { g with revokedAt := some moment.now } else g } := by
  simp only [revokeRoleAssignment, commits_lockTenant_bind, commits_select_bind,
    commits_expect_bind, commits_require_bind, commits_check_bind, revokeAssignments, revokeGrants,
    commits_update_bind, commits_update] at commits
  obtain ⟨_, _, _, _, _, _, _, rfl⟩ := commits
  rfl

theorem revokeAssignments_commits {picks : RoleAssignment → Bool} {now : Timestamp} {u : Unit}
    (commits : (revokeAssignments picks now).Commits s u after)
    : after.roles = s.roles ∧ after.grants = s.grants
      ∧ ∀ ra ∈ after.assignments,
          (ra ∈ s.assignments ∧ (ra.revokedAt = none → picks ra = false))
          ∨ ∃ row ∈ s.assignments, picks row = true ∧ ra = { row with revokedAt := some now } := by
  obtain rfl := commits_update.mp commits
  refine ⟨rfl, rfl, fun ra inside => ?_⟩
  obtain ⟨row, present, rfl⟩ := List.mem_map.mp inside
  by_cases revoked : (picks row && row.revokedAt.isNone) = true
  · rw [if_pos revoked]
    exact .inr ⟨row, present, (Bool.and_eq_true_iff.mp revoked).1, rfl⟩
  · rw [if_neg revoked]
    refine .inl ⟨present, fun live => Bool.eq_false_iff.mpr fun picked => revoked ?_⟩
    rw [picked, live]
    rfl

/-- The grant's source is the membership's. -/
def Tables.sourceHeldBy (s : Tables) (membershipId : Nat) (g : HandoverGrant) : Bool :=
  s.assignments.any fun ra => ra.id = g.sourceAssignmentId && ra.membershipId = membershipId

/-- Revokes the grants of a membership's roles, with what goes with them. -/
def revokeMembershipGrants (membershipId : Nat) (now : Timestamp) : Tx Unit := do
  let sources ← select fun s =>
    (s.assignments.filter (·.membershipId = membershipId)).map (·.id)
  revokeGrants (fun g => g.sourceAssignmentId ∈ sources) now
  withdrawPendingRequests membershipId now
  removeFromAllGroups membershipId now

theorem revokeMembershipGrants_commits {membershipId : Nat} {now : Timestamp} {u : Unit}
    (commits : (revokeMembershipGrants membershipId now).Commits s u after)
    : after.assignments = s.assignments
      ∧ after.grants = s.grants.map fun g =>
          if s.sourceHeldBy membershipId g && g.revokedAt.isNone then
            { g with revokedAt := some now } else g := by
  simp only [revokeMembershipGrants, commits_select_bind] at commits
  obtain ⟨_, granted, revokes, rest⟩ := commits_bind.mp commits
  obtain ⟨_, withdrawn, withdraws, leaves⟩ := commits_bind.mp rest
  have granted_eq := commits_update.mp revokes
  have withdrawn_eq := commits_update.mp (commits_select_bind.mp withdraws)
  have after_eq := commits_update.mp leaves
  refine ⟨by rw [after_eq, withdrawn_eq, granted_eq], ?_⟩
  rw [after_eq, withdrawn_eq, granted_eq]
  refine List.map_congr_left fun g _ => ?_
  have picked : decide (g.sourceAssignmentId
      ∈ (s.assignments.filter (·.membershipId = membershipId)).map (·.id))
        = s.sourceHeldBy membershipId g := by
    rw [Bool.eq_iff_iff, decide_eq_true_iff, Tables.sourceHeldBy, List.any_eq_true]
    simp [and_comm, and_assoc]
  simp only [picked]

/-- Revoking a membership revokes the grants of its roles, and every role of it but those that have
ended and whose handover window, for an admin role, is over too. Other roles stay as they are.
-/
structure MembershipRevoked (membershipId : Nat) (moment : Moment) (s after : Tables) : Prop where
  grants : after.grants = s.grants.map fun g =>
    if after.sourceHeldBy membershipId g && g.revokedAt.isNone then
      { g with revokedAt := some moment.now } else g
  spent : ∀ ra ∈ after.assignments, ra.membershipId = membershipId → ra.revokedAt = none →
    ra.period.hasEndedBy moment.today = true
      ∧ (s.ofClass .admin ra = true → ∀ window,
          handoverPeriod ra.period.endsOnExclusive = some window →
            window.hasEndedBy moment.today = true)
  others : (s.assignments.map (·.id)).Nodup →
    ∀ ra ∈ after.assignments, ra.membershipId ≠ membershipId → ra ∈ s.assignments

theorem revokeMembership_commits {req : RevokeMembership} {u : Unit}
    (commits : (revokeMembership req moment).Commits s u after)
    : MembershipRevoked req.membershipId moment s after := by
  simp only [revokeMembership, commits_lockTenant_bind] at commits
  obtain ⟨_, _, commits⟩ := commits
  obtain ⟨_, checked, checks, passed⟩ := commits_bind.mp commits
  have unchecked : Within (· = ·) (onlyIf (req.actorMembershipId ≠ req.membershipId)
      (requireAdmin req.actorMembershipId moment.today)) :=
    .onlyIf requireAdmin_within
  obtain rfl := unchecked _ _ _ checks
  simp only [commits_select_bind, commits_expect_bind, commits_require_bind, commits_check_bind]
    at passed
  obtain ⟨m, _, _, _, _, writes⟩ := passed
  obtain ⟨_, running, revokesRunning, others⟩ := commits_bind.mp writes
  rw [commits_select_bind] at others
  obtain ⟨_, revoked, revokesEnded, profile⟩ := commits_bind.mp others
  obtain ⟨keep, kept, keeps, closing⟩ := commits_bind.mp profile
  obtain ⟨_, closed, closes, cascade⟩ := commits_bind.mp closing
  have unkept : Within (· = ·) (keepOnRevocation m
      (m.profileRetainedUntil.filter fun _ => s.membershipEnded m moment.today) moment.today) :=
    .ite effectiveKeepUntil_within .pure
  have same : revoked = kept := unkept _ _ _ keeps
  have closed_eq := (commits_updateMemberships.mp closes).2
  obtain ⟨sameRows, grants⟩ := revokeMembershipGrants_commits cascade
  obtain ⟨rolesFirst, grantsFirst, keptFirst⟩ := revokeAssignments_commits revokesRunning
  obtain ⟨_, grantsSecond, keptSecond⟩ := revokeAssignments_commits revokesEnded
  have rows : closed.assignments = revoked.assignments := by rw [closed_eq, same]
  have given : closed.grants = s.grants := by rw [closed_eq, ← same, grantsSecond, grantsFirst]
  have held (g : HandoverGrant)
      : closed.sourceHeldBy req.membershipId g = after.sourceHeldBy req.membershipId g := by
    rw [Tables.sourceHeldBy, Tables.sourceHeldBy, sameRows]
  refine ⟨by simpa only [grants, given] using List.map_congr_left fun g _ => by rw [held g],
    fun ra inside theirs live => ?_, fun unique ra inside others => ?_⟩
  · rw [sameRows, rows] at inside
    rcases keptSecond ra inside with ⟨before, notOpen⟩ | ⟨_, _, _, rfl⟩
    swap
    · cases live
    rcases keptFirst ra before with ⟨_, notRunning⟩ | ⟨_, _, _, rfl⟩
    swap
    · cases live
    have ended : ra.period.hasEndedBy moment.today = true := by
      simpa [theirs] using notRunning live
    refine ⟨ended, fun class_ window runs => ?_⟩
    by_contra isOpen
    refine absurd (of_decide_eq_false (notOpen live)) (not_not.mpr ?_)
    refine List.mem_map_of_mem (List.mem_filter.mpr ⟨before, ?_⟩)
    have class' : running.ofClass .admin ra = true := by
      rw [Tables.ofClass, rolesFirst]
      exact class_
    have open_ : window.hasEndedBy moment.today = false := Bool.eq_false_iff.mpr isOpen
    simp only [Tables.endedWithOpenWindow, theirs, live, class', ended, runs, open_, decide_true,
      Option.isNone_none, Option.any_some, Bool.not_false, Bool.and_self]
  · rw [sameRows, rows] at inside
    have first : s.Changes moment.now [.revocations] running :=
      revokeAssignments_within (by simp) _ _ _ revokesRunning
    have runningIds : running.assignments.map (·.id) = s.assignments.map (·.id) :=
      first.noAssignments (by simp)
    rcases keptSecond ra inside with ⟨before, _⟩ | ⟨row, before, picked, rfl⟩
    · rcases keptFirst ra before with ⟨present, _⟩ | ⟨row, _, picked, rfl⟩
      · exact present
      · exact absurd (of_decide_eq_true (Bool.and_eq_true_iff.mp picked).1) others
    · obtain ⟨other, held', same'⟩ := List.mem_map.mp (of_decide_eq_true picked)
      obtain ⟨there, is⟩ := List.mem_filter.mp held'
      have one : other = row := List.inj_on_of_nodup_map (runningIds ▸ unique) there before same'
      simp only [Bool.and_eq_true, decide_eq_true_eq, one] at is
      exact absurd is.1.1 others

-----------------------------------------------------------------------------------------
-- Every reachable state

/-- Each grant has a source of its own, an ended admin role, and runs for its window; one that is
revoked has a revoked source or a window that is over.
-/
structure Tables.Granted (s : Tables) (today : Date) : Prop where
  once : (s.grants.map (·.sourceAssignmentId)).Nodup
  sourced : ∀ g ∈ s.grants, ∃ ra ∈ s.assignments, ra.id = g.sourceAssignmentId
    ∧ s.ofClass .admin ra = true ∧ ra.period.hasEndedBy today = true
    ∧ handoverPeriod ra.period.endsOnExclusive = some g.period
  revoked : ∀ g ∈ s.grants, g.revokedAt.isSome = true → ∀ ra ∈ s.assignments,
    ra.id = g.sourceAssignmentId → ra.revokedAt = none → g.period.hasEndedBy today = true

variable {now : Timestamp} {written : List Written} {day : Date}

theorem Tables.Changes.ofClass (changes : s.Changes now written after)
    {capabilityClass : CapabilityClass} {ra ra' : RoleAssignment} (goesOn : ra.GoesOn now ra')
    (class_ : s.ofClass capabilityClass ra = true)
    : after.ofClass capabilityClass ra' = true := by
  obtain ⟨r, present, is⟩ := List.any_eq_true.mp class_
  obtain ⟨_, present', rfl⟩ := changes.roles.goesOn r present
  exact List.any_eq_true.mpr ⟨r, present', by rw [goesOn.same]; exact is⟩

theorem Period.hasEndedBy_later {period : Period} (ended : period.hasEndedBy today = true)
    (later : today ≤ day)
    : period.hasEndedBy day = true :=
  Period.hasEndedBy_iff.mpr ((Period.hasEndedBy_iff.mp ended).trans later)

/-- Grants that go on keep fitting their sources, where each that is newly revoked has a revoked
source or a window that is over.
-/
theorem Tables.Granted.goesOn (granted : s.Granted today) (unique : (s.assignments.map (·.id)).Nodup)
    (changes : s.Changes now written after) (later : today ≤ day)
    (sources : after.grants.map (·.sourceAssignmentId) = s.grants.map (·.sourceAssignmentId))
    (rows : ∀ g' ∈ after.grants, ∃ g ∈ s.grants, g.GoesOn g' ∧ (g'.revokedAt = g.revokedAt
      ∨ ∀ ra ∈ after.assignments, ra.id = g.sourceAssignmentId → ra.revokedAt = none →
          g.period.hasEndedBy day = true))
    : after.Granted day := by
  refine ⟨sources ▸ granted.once, fun g' inside => ?_, fun g' inside gone ra' held same live => ?_⟩
  · obtain ⟨g, there, goesOn, _⟩ := rows g' inside
    obtain ⟨ra, held, same, class_, ended, runs⟩ := granted.sourced g there
    obtain ⟨ra', held', next⟩ := changes.assignments.goesOn ra held
    refine ⟨ra', held', ?_, changes.ofClass next class_, ?_, ?_⟩
    · rw [next.id, same, goesOn.same]
    · rw [next.same]
      exact Period.hasEndedBy_later ended later
    · rw [next.same, goesOn.same]
      exact runs
  · obtain ⟨g, there, goesOn, kept⟩ := rows g' inside
    rw [goesOn.same] at same ⊢
    rcases kept with unchanged | finished
    · obtain ⟨ra, held₀, same₀, _⟩ := granted.sourced g there
      have next := changes.assignments.comesFrom_key (fun _ _ h => h.id) unique held₀ held
        (same.trans same₀.symm)
      have live₀ : ra.revokedAt = none := by
        rcases next.revokedAt with equal | ⟨none_, _⟩
        · exact equal ▸ live
        · exact none_
      exact Period.hasEndedBy_later (granted.revoked g there (unchanged ▸ gone) ra held₀ same₀ live₀)
        later
    · exact finished ra' held same live

/-- Revoked grants keep their sources, and only picked ones are revoked. -/
theorem revokedGrants_rows {picks : HandoverGrant → Bool}
    (given : after.grants = s.grants.map fun g =>
      if picks g && g.revokedAt.isNone then { g with revokedAt := some now } else g)
    : after.grants.map (·.sourceAssignmentId) = s.grants.map (·.sourceAssignmentId)
      ∧ ∀ g' ∈ after.grants, ∃ g ∈ s.grants, g.GoesOn g'
          ∧ (g'.revokedAt = g.revokedAt ∨ picks g = true) := by
  constructor
  · rw [given, List.map_map]
    refine List.map_congr_left fun g _ => ?_
    simp only [Function.comp_apply]
    split <;> rfl
  · intro g' inside
    obtain ⟨g, there, rfl⟩ := List.mem_map.mp (given ▸ inside)
    refine ⟨g, there, ?_⟩
    split
    · next gone =>
        obtain ⟨picked, live⟩ := Bool.and_eq_true_iff.mp gone
        refine ⟨⟨rfl, fun revoked => ?_⟩, .inr picked⟩
        rw [Option.isNone_iff_eq_none.mp live] at revoked
        cases revoked
    · exact ⟨.refl g, .inl rfl⟩

/-- What the sweep adds fits its sources. -/
theorem Sweeps.granted {candidates : List RoleAssignment} {added : List HandoverGrant}
    (granted : s.Granted today) (some_ : ∀ ra ∈ candidates, ra ∈ s.grantCandidates today)
    (sweeps : Sweeps today candidates s.grants added)
    : ({ s with grants := s.grants ++ added } : Tables).Granted today := by
  refine ⟨sweeps.once granted.once, fun g inside => ?_, fun g inside gone ra held same live => ?_⟩
  · rcases List.mem_append.mp inside with old | new
    · exact granted.sourced g old
    · obtain ⟨_, ra, candidate, source, runs⟩ := sweeps.sourced g new
      obtain ⟨held, is⟩ := List.mem_filter.mp (some_ ra candidate)
      simp only [Bool.and_eq_true] at is
      exact ⟨ra, held, source.symm, is.1.1.1.1, is.1.2, runs⟩
  · rcases List.mem_append.mp inside with old | new
    · exact granted.revoked g old gone ra held same live
    · rw [(sweeps.sourced g new).1] at gone
      cases gone

/-- A grant that goes with its assignment has a revoked source. -/
theorem revokeRoleAssignment_granted {req : RevokeAssignment} {u : Unit}
    (granted : s.Granted today) (keyed : s.Keyed) (later : today ≤ moment.today)
    (commits : (revokeRoleAssignment req moment).Commits s u after)
    : after.Granted moment.today := by
  have changes := revokeRoleAssignment_within _ _ _ commits
  have after_eq := revokeRoleAssignment_commits commits
  have grants_eq : after.grants = s.grants.map fun g =>
      if decide (g.sourceAssignmentId = req.assignmentId) && g.revokedAt.isNone then
        { g with revokedAt := some moment.now } else g := by
    rw [after_eq]
  obtain ⟨sources, rows⟩ := revokedGrants_rows grants_eq
  refine granted.goesOn keyed.assignmentIds changes later sources fun g' inside => ?_
  obtain ⟨g, there, goesOn, kept⟩ := rows g' inside
  refine ⟨g, there, goesOn, kept.imp_right fun picked ra held same live => ?_⟩
  rw [after_eq] at held
  obtain ⟨row, _, rfl⟩ := List.mem_map.mp held
  by_cases revoked : (decide (row.id = req.assignmentId) && row.revokedAt.isNone) = true
  · rw [if_pos revoked] at live
    cases live
  · rw [if_neg revoked] at same live
    refine absurd ?_ revoked
    simp [same, of_decide_eq_true picked, live]

/-- A grant that goes with its membership has a revoked source, or one whose window is over. -/
theorem revokeMembership_granted {req : RevokeMembership} {u : Unit}
    (granted : s.Granted today) (keyed : s.Keyed) (later : today ≤ moment.today)
    (commits : (revokeMembership req moment).Commits s u after)
    : after.Granted moment.today := by
  have changes := revokeMembership_within _ _ _ commits
  have revokes := revokeMembership_commits commits
  obtain ⟨sources, rows⟩ := revokedGrants_rows revokes.grants
  refine granted.goesOn keyed.assignmentIds changes later sources fun g' inside => ?_
  obtain ⟨g, there, goesOn, kept⟩ := rows g' inside
  refine ⟨g, there, goesOn, kept.imp_right fun picked ra held same live => ?_⟩
  have theirs : ra.membershipId = req.membershipId := by
    obtain ⟨other, held', is⟩ := List.any_eq_true.mp picked
    simp only [Bool.and_eq_true, decide_eq_true_eq] at is
    have one : other = ra := List.inj_on_of_nodup_map (changes.keyed keyed).assignmentIds held' held
      (is.1.trans same.symm)
    exact one ▸ is.2
  obtain ⟨row, old, source, class_, _, runs⟩ := granted.sourced g there
  have next := changes.assignments.comesFrom_key (fun _ _ h => h.id) keyed.assignmentIds old held
    (same.trans source.symm)
  have class' : s.ofClass .admin ra = true := by
    rw [next.same]
    exact class_
  refine (revokes.spent ra held theirs live).2 class' g.period ?_
  rw [next.same]
  exact runs

variable {state next : FauState} {event : FauEvent}

theorem FauStep.granted (stepped : FauStep state event next) (keyed : state.tables.Keyed)
    (granted : state.tables.Granted state.today)
    : next.tables.Granted next.today := by
  have changes := stepped.changes
  have later := stepped.today_le
  have untouched (same : next.tables.grants = state.tables.grants)
      : next.tables.Granted next.today :=
    granted.goesOn keyed.assignmentIds changes later (by rw [same]) fun g inside =>
      ⟨g, same ▸ inside, .refl g, .inl rfl⟩
  cases stepped with
  | looksUp finds => exact untouched rfl
  | passes _ => exact untouched rfl
  | outside changed => exact untouched (by cases changed; rfl)
  | @operates op moment after _ _ commits =>
      cases op
      case revokeRoleAssignment =>
        obtain ⟨_, commits⟩ := commits
        exact revokeRoleAssignment_granted granted keyed later commits
      case revokeMembership =>
        obtain ⟨_, commits⟩ := commits
        exact revokeMembership_granted granted keyed later commits
      case createTenantHandoverGrants =>
        obtain ⟨_, commits⟩ := commits
        obtain ⟨added, rfl, sweeps⟩ := createTenantHandoverGrants_commits commits
        have before : state.tables.Granted moment.today :=
          granted.goesOn keyed.assignmentIds (.refl moment.now [] _) later rfl fun g inside =>
            ⟨g, inside, .refl g, .inl rfl⟩
        refine sweeps.granted before fun ra candidate => ?_
        split at candidate
        · exact candidate
        · cases candidate
      all_goals
        exact untouched (changes.sameGrants (by simp [FauEvent.written, Operation.written])
          (by simp [FauEvent.written, Operation.written]))

theorem reachable_granted (reached : fauSystem.Reachable state)
    : state.tables.Granted state.today := by
  have both := reached.keeps
    (I := fun state => state.tables.Keyed ∧ state.tables.Granted state.today) ?_ ?_
  · exact both.2
  · rintro s ⟨signedUp, _⟩
    refine ⟨signedUp.keyed, ?_, ?_, ?_⟩ <;> simp [signedUp.noGrants]
  · rintro s event after ⟨keyed, granted⟩ stepped
    exact ⟨(FauStep.changes stepped).keyed keyed, FauStep.granted stepped keyed granted⟩

end FauPortalen.Membership

import FauPortalen.Membership.LeavingGroups

/-! Every assignment has live authority: it is inserted on a day on which whoever granted it, or
issued the accepted invitation, may.
-/

set_option linter.unusedSectionVars false

namespace FauPortalen.Membership

open Foundations Transaction

section

variable [OsloZone] {moment : Moment} {today : Date} {s after : Tables}

-----------------------------------------------------------------------------------------
-- Authority

/-- Without an admin no membership has an admin role, and none a handover grant. -/
theorem AdminState.hasAdmin_load_eq_false (none_ : (AdminState.load s).hasAdmin today = false)
    : (∀ membershipId, s.isAdminToday membershipId today = false)
      ∧ ∀ grantId membershipId, s.handoverGrantValid grantId membershipId today = false := by
  rw [hasAdmin_load, Bool.or_eq_false_iff, List.any_eq_false, List.any_eq_false] at none_
  obtain ⟨noRole, noGrant⟩ := none_
  refine ⟨fun membershipId => Bool.eq_false_iff.mpr fun admin => ?_,
    fun grantId membershipId => Bool.eq_false_iff.mpr fun valid => ?_⟩
  · simp only [Tables.isAdminToday, List.any_eq_true, Bool.and_eq_true, decide_eq_true_eq] at admin
    obtain ⟨m, held, ⟨_, usable⟩, ra, inside, ⟨theirs, class_⟩, valid⟩ := admin
    have through : s.heldThroughUsable ra = true :=
      List.any_eq_true.mpr ⟨m, held, by simp [theirs, usable]⟩
    exact noRole ra inside (by simp [class_, through, valid])
  · simp only [Tables.handoverGrantValid, List.any_eq_true, Bool.and_eq_true, decide_eq_true_eq]
      at valid
    obtain ⟨g, given, ⟨⟨_, live⟩, contains⟩, ra, inside, ⟨⟨source, _⟩, unrevoked⟩, through⟩ := valid
    refine noGrant g given (Bool.and_eq_true_iff.mpr ⟨by simp [live, contains], ?_⟩)
    exact List.any_eq_true.mpr ⟨ra, inside, by simp [source, unrevoked, through]⟩

/-- The authority of an invitation on a day, as its mode asks: the issuer is an administrator; or
holds the handover grant; or there is no administrator and the seat is still the issuer's. The
activation's own invitation needs none.
-/
inductive Tables.Stands (s : Tables) (today : Date) (inv : Invitation) : Prop
  | normal {issuer : Nat} (mode : inv.mode = .normal) (issued : inv.issuedBy = some issuer)
      (admin : s.isAdminToday issuer today = true)
  | handover {issuer grantId : Nat} (mode : inv.mode = .handover)
      (issued : inv.issuedBy = some issuer) (grant : inv.handoverGrantId = some grantId)
      (valid : s.handoverGrantValid grantId issuer today = true)
  | recovery {seat : RecoveryContact} (mode : inv.mode = .recovery)
      (noAdmin : ∀ membershipId, s.isAdminToday membershipId today = false)
      (noGrant : ∀ grantId membershipId, s.handoverGrantValid grantId membershipId today = false)
      (present : s.recoveryContact = some seat) (holder : inv.recoveryHolder = some seat.holder)
  | activation (mode : inv.mode = .activation)

/-- What the acceptance rule reads of a proper invitation is its authority. -/
theorem Tables.stands_of_authorised {inv : Invitation} {acceptor : Email} {tenant : Tenant}
    (proper : s.Proper inv)
    (authorised : (s.acceptanceSnapshot inv acceptor tenant today).authorised = true)
    : s.Stands today inv := by
  unfold AcceptanceSnapshot.authorised Tables.acceptanceSnapshot at authorised
  unfold Tables.Proper at proper
  cases mode : inv.mode <;> simp only [mode] at authorised proper
  case normal =>
    obtain ⟨issuer, issued⟩ := Option.isSome_iff_exists.mp proper
    rw [issued] at authorised
    exact .normal mode issued authorised
  case handover =>
    obtain ⟨grantId, issuer, grant, issued, _⟩ := proper
    rw [grant, issued] at authorised
    exact .handover mode issued grant authorised
  case recovery =>
    obtain ⟨holder, held⟩ := Option.isSome_iff_exists.mp proper
    simp only [held, if_true, Bool.and_eq_true, Bool.not_eq_true', Option.any_eq_true]
      at authorised
    obtain ⟨none_, seat, present, same⟩ := authorised
    obtain ⟨noAdmin, noGrant⟩ := AdminState.hasAdmin_load_eq_false none_
    exact .recovery mode noAdmin noGrant present
      (held.trans (congrArg some (of_decide_eq_true same).symm))
  case activation => exact .activation mode

-----------------------------------------------------------------------------------------
-- What an acceptance shows

/-- The FAU is active and not frozen. -/
def Tables.OpenFau (s : Tables) : Prop :=
  ∃ tenant, s.tenant = some tenant ∧ tenant.status = .active ∧ tenant.frozen = false

/-- The role goes to the account of the invited address, verified and not disabled. -/
def Tables.GoesTo (s : Tables) (ra : RoleAssignment) (address : Email) : Prop :=
  ∃ m ∈ s.memberships, m.id = ra.membershipId
    ∧ ∃ a ∈ s.accounts, a.id = m.accountId ∧ a.email = address ∧ a.verifiedAt.isSome
      ∧ a.disabledAt = none

/-- Not a guest's role, nor one for the account behind the membership. -/
structure Tables.HandedOver (s : Tables) (ra : RoleAssignment) (issuer : Nat) : Prop where
  notGuest : ∀ r ∈ s.roles, r.id = ra.roleId → r.capabilityClass ≠ .guest
  other : ∃ m ∈ s.memberships, m.id = ra.membershipId
    ∧ ∃ mi ∈ s.memberships, mi.id = issuer ∧ mi.accountId ≠ m.accountId

namespace AcceptancePath

variable {found : Nat} {req : AcceptInvitation} (path : AcceptancePath found req moment s after)
  {ra : RoleAssignment} {role : Nat × CapabilityClass × Period}

include path

theorem invited : path.inv.recipient = req.acceptor :=
  (checkAcceptance_eq_ok.mp path.passes).2.2.2.1

theorem openFau : s.OpenFau := by
  obtain ⟨_, _, _, _, _, active, notFrozen, _⟩ := checkAcceptance_eq_ok.mp path.passes
  exact ⟨path.state, path.locked, active, notFrozen⟩

theorem stands (proper : s.Proper path.inv) : s.Stands moment.today path.inv := by
  obtain ⟨_, _, _, _, _, _, _, authorised⟩ := checkAcceptance_eq_ok.mp path.passes
  exact Tables.stands_of_authorised proper authorised

theorem goesTo (gives : ra.Gives path.joined.1 role.1 role.2.2 path.inv.issuedBy)
    : after.GoesTo ra path.inv.recipient := by
  obtain ⟨_, _, _, _, enabled, _⟩ := checkAcceptance_eq_ok.mp path.passes
  obtain ⟨m, held, one, a, there, account, address, verified, disabled⟩ := path.joiner
  refine ⟨m, held, one.trans gives.membershipId.symm, a, there, account,
    address.trans path.invited.symm, verified, ?_⟩
  have notDisabled : a.disabledAt.isSome = false := disabled.trans enabled
  simpa using notDisabled

/-- Under a handover grant no guest role is offered, nor any to the issuer's own address. -/
theorem handedOver {written : List Written} {issuer : Nat} (keyed : after.Keyed)
    (changes : s.Changes moment.now written after) (proper : s.Proper path.inv)
    (mode : path.inv.mode = .handover) (issued : path.inv.issuedBy = some issuer)
    (accepted : role ∈ path.roles)
    (gives : ra.Gives path.joined.1 role.1 role.2.2 path.inv.issuedBy)
    : after.HandedOver ra issuer := by
  simp only [Tables.Proper, mode] at proper
  obtain ⟨_, issuer', _, issued', other, offers⟩ := proper
  obtain rfl : issuer' = issuer := Option.some.inj (issued'.symm.trans issued)
  constructor
  · intro r present same
    obtain ⟨_, fulfils, _⟩ := acceptedRoles_commits path.offers
    obtain ⟨offered, inside, fulfilled⟩ := forall₂_left_of_mem fulfils accepted
    obtain ⟨capability, notGuest, has⟩ := offers offered (mem_sortOn.mp inside)
    obtain ⟨r', present', same', class_⟩ := changes.hasRole has
    have one : r = r' := List.inj_on_of_nodup_map keyed.roleIds present present'
      (same.trans (gives.roleId.trans (fulfilled.roleId.trans same'.symm)))
    exact one ▸ class_ ▸ notGuest
  · obtain ⟨mi, heldByIssuer, oneIssuer, ai, thereToo, accountToo, differs⟩ :=
      changes.otherAddress other
    obtain ⟨m, held, one, a, there, account, address, _⟩ := path.joiner
    refine ⟨m, held, one.trans gives.membershipId.symm, mi, heldByIssuer, oneIssuer, ?_⟩
    intro same
    have oneAccount : ai = a := List.inj_on_of_nodup_map keyed.accountIds thereToo there
      (accountToo.trans (same.trans account.symm))
    exact differs (oneAccount ▸ address.trans path.invited.symm)

end AcceptancePath

-----------------------------------------------------------------------------------------
-- Every step of every run

/-- Why an operation may insert an assignment: an administrator of that day granted it, or an
invitation was accepted that has its authority that day, by the invited address.
-/
inductive RoleAssignment.Authorised (s after : Tables) (today : Date) (ra : RoleAssignment)
    : Operation → Prop
  | granted {req : GrantRole} (admin : s.isAdminToday req.actorMembershipId today = true)
      (grantedBy : ra.grantedBy = some req.actorMembershipId)
    : Authorised s after today ra (.grantRole req)
  | accepted {found : Nat} {req : AcceptInvitation} {inv : Invitation}
      (finds : s.invitation found = some inv) (stands : s.Stands today inv)
      (handedOver : ∀ issuer, inv.mode = .handover → inv.issuedBy = some issuer →
        after.HandedOver ra issuer)
      (invited : inv.recipient = req.acceptor) (goesTo : after.GoesTo ra inv.recipient)
    : Authorised s after today ra (.acceptInvitation found req)

variable {state next : FauState} {op : Operation} {ra : RoleAssignment}

/-- What a grant or an acceptance inserts is inserted in an open FAU, with live authority; and only
an activation issues an invitation of its own mode.
-/
theorem assignments_authorised (reached : fauSystem.Reachable state)
    (stepped : fauSystem.step state (.operates op moment) next)
    : (∀ ra ∈ next.tables.assignments, ra.id ∉ state.tables.assignments.map (·.id) →
        (∃ activation, op = .activateTenant activation)
          ∨ state.tables.OpenFau ∧ ra.Authorised state.tables next.tables moment.today op)
      ∧ ∀ inv ∈ next.tables.invitations, inv.id ∉ state.tables.invitations.map (·.id) →
          inv.mode = .activation → ∃ activation, op = .activateTenant activation := by
  have commits := FauStep.commits stepped
  have sourced := reachable_sourced reached
  have keyed := reachable_keyed (reached.step stepped)
  constructor
  · intro ra inside new
    cases commits.origin inside new with
    | granted path gives =>
        exact .inr ⟨⟨path.state, path.locked, path.active, path.notFrozen⟩,
          .granted path.admin gives.grantedBy⟩
    | accepted path accepted gives =>
        have present := (of_findRow path.finds).1
        have proper := sourced.proper path.inv present
        refine .inr ⟨path.openFau, .accepted path.finds (path.stands proper) ?_ path.invited
          (path.goesTo gives)⟩
        intro issuer mode issued
        exact path.handedOver keyed commits.changes proper mode issued accepted gives
    | activated path gives => exact .inl ⟨_, rfl⟩
  · intro inv inside new mode
    exact (commits.issued inside new).leader mode

end

-----------------------------------------------------------------------------------------
-- Kari's return

section

attribute [local instance] OsloZone.winterAndSummer

/-- Kari accepts her role again, offered by the oversight while the FAU has no administrator. -/
theorem kari_authorised
    : ∃ ra ∈ returnedFau.assignments,
        ra.Authorised recoveredFau returnedFau june.today
          (.acceptInvitation 1 ⟨1, ⟨"kari@example.no"⟩, none, kariProfile⟩) := by
  obtain ⟨events, before⟩ := recoveredFau_run
  have reached := joinedFau_reachable.run before
  have inserted : ∃ ra ∈ returnedFau.assignments, ra.id ∉ recoveredFau.assignments.map (·.id) := by
    decide +kernel
  obtain ⟨ra, inside, new⟩ := inserted
  rcases (assignments_authorised reached returnedFau_step).1 _ inside new with
    ⟨_, other⟩ | ⟨_, authorised⟩
  · cases other
  · exact ⟨_, inside, authorised⟩

end

end FauPortalen.Membership

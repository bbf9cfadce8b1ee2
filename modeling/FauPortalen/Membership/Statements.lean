import FauPortalen.Membership.Tables

/-! The statements that membership transactions share: the tenant lock and the authority checks,
and the writes to accounts, memberships, assignments and groups.
-/

namespace FauPortalen.Membership

open Foundations Transaction

-----------------------------------------------------------------------------------------
-- The lock and the checks

/-- The tenant's state, locked for the rest of the transaction. -/
def lockTenant : Tx Tenant := do
  expect (← select (·.tenant)) .unknownTenant

/-- Active and not frozen: the state in which invitations and requests may be created. -/
def requireOpen (state : Tenant) : Tx Unit := do
  require (state.status = .active) .tenantNotActive
  require (state.frozen = false) .tenantFrozen

def requireAdmin (membershipId : Nat) (today : Date) : Tx Unit := do
  require (← select (·.isAdminToday membershipId today)) .notAuthorized

section

variable {s after : Tables} {state : Tenant} {membershipId : Nat} {today : Date}

@[simp]
theorem commits_lockTenant : lockTenant.Commits s state after ↔ s.tenant = some state ∧ after = s := by
  simp [lockTenant, eq_comm]

@[simp]
theorem commits_requireOpen {u : Unit}
    : (requireOpen state).Commits s u after
      ↔ state.status = .active ∧ state.frozen = false ∧ after = s := by
  simp [requireOpen, and_assoc]

@[simp]
theorem commits_requireAdmin {u : Unit}
    : (requireAdmin membershipId today).Commits s u after
      ↔ s.isAdminToday membershipId today = true ∧ after = s := by
  simp [requireAdmin]

section

variable {α : Type} {b : α}

theorem commits_lockTenant_bind {next : Tenant → Tx α}
    : (lockTenant >>= next).Commits s b after
      ↔ ∃ state, s.tenant = some state ∧ (next state).Commits s b after := by
  simp [and_assoc]

theorem commits_requireOpen_bind {next : Unit → Tx α}
    : (requireOpen state >>= next).Commits s b after
      ↔ state.status = .active ∧ state.frozen = false ∧ (next ()).Commits s b after := by
  rw [requireOpen, bind_assoc, commits_require_bind, commits_require_bind]

theorem commits_requireAdmin_bind {next : Unit → Tx α}
    : (requireAdmin membershipId today >>= next).Commits s b after
      ↔ s.isAdminToday membershipId today = true ∧ (next ()).Commits s b after := by
  rw [requireAdmin, bind_assoc, commits_select_bind, commits_require_bind]

end

@[simp]
theorem refuses_lockTenant {error : MembershipError}
    : lockTenant.Refuses s error ↔ s.tenant = none ∧ error = .unknownTenant := by
  simp [lockTenant]

@[simp]
theorem refuses_requireAdmin {error : MembershipError}
    : (requireAdmin membershipId today).Refuses s error
      ↔ s.isAdminToday membershipId today = false ∧ error = .notAuthorized := by
  simp [requireAdmin]

/-- The tenant's state decides whether an open one is required in vain. -/
theorem refuses_requireOpen {error : MembershipError}
    : (requireOpen state).Refuses s error
      ↔ (state.status ≠ .active ∧ error = .tenantNotActive)
        ∨ (state.status = .active ∧ state.frozen = true ∧ error = .tenantFrozen) := by
  simp [requireOpen]

end

/-- An FAU has an administrator through an admin role or through a handover grant. -/
theorem AdminState.hasAdmin_load {s : Tables} {day : Date}
    : (AdminState.load s).hasAdmin day
      = (s.assignments.any (fun ra =>
            s.ofClass .admin ra && s.heldThroughUsable ra && ra.validOn day)
          || s.grants.any fun g => (g.revokedAt.isNone && g.period.contains day)
              && s.assignments.any fun ra => ra.id = g.sourceAssignmentId && ra.revokedAt.isNone
                && s.heldThroughUsable ra) := by
  have roles (ra : RoleAssignment)
      : (⟨.admin, ra.period, ra.revokedAt.isSome⟩ : AssignmentView).validOn day = ra.validOn day := by
    simp [AssignmentView.validOn, RoleAssignment.validOn]
  have grants (g : HandoverGrant) (rows : List RoleAssignment)
      : rows.any (fun _ => (⟨g.period, g.revokedAt.isSome⟩ : GrantView).validOn day)
        = ((g.revokedAt.isNone && g.period.contains day) && rows.any fun _ => true) := by
    cases rows <;> simp [GrantView.validOn]
  simp only [hasAdmin, load, tenantHasAdmin, List.any_map, List.any_flatMap, List.any_filter,
    Function.comp_def, roles, decide_true, Bool.true_and, grants, Bool.and_true]

-----------------------------------------------------------------------------------------
-- Memberships

namespace MembershipRow

def hasFields (m : MembershipRow) : Bool :=
  m.encryptedDisplayName.isSome || m.encryptedContactEmail.isSome

/-- The table's check constraints. -/
def admissible (m : MembershipRow) : Bool :=
  m.encryptedDisplayName.all (·.wellFormed)
    && m.encryptedContactEmail.all (·.wellFormed)
    && (m.revokedAt.isNone || m.encryptedDisplayName.isNone || m.profileRetainedUntil.isSome)
    && (m.revokedAt.isNone || m.encryptedContactEmail.isNone || m.profileRetainedUntil.isSome)
    && (m.profileRetainedUntil.isNone || m.hasFields)
    && (m.nameErasedAt.isNone || !m.hasFields)
    && (m.nameErasedAt.isNone || m.profileRetainedUntil.isNone)

/-- The trigger before an update: the retention date goes with the fields, and with an erasure.
-/
def retentionFollowsFields (old new : MembershipRow) : MembershipRow :=
  if (!new.hasFields && old.hasFields) || (new.nameErasedAt.isSome && old.nameErasedAt.isNone)
    then { new with profileRetainedUntil := none }
    else new

end MembershipRow

/-- Updates the memberships the condition picks, through the trigger and the constraints. -/
def updateMemberships (picks : MembershipRow → Bool) (change : MembershipRow → MembershipRow)
    : Tx Unit := do
  let updated m := MembershipRow.retentionFollowsFields m (change m)
  require (∀ m ∈ (← select (·.memberships)), picks m → (updated m).admissible) .checkViolation
  update fun s =>
    { s with memberships := s.memberships.map fun m => if picks m then updated m else m }

def updateMembership (id : Nat) (change : MembershipRow → MembershipRow) : Tx Unit :=
  updateMemberships (·.id = id) change

/-- An update commits where no row it changes breaks a constraint. -/
theorem commits_updateMemberships {picks : MembershipRow → Bool}
    {change : MembershipRow → MembershipRow} {s after : Tables} {u : Unit}
    : (updateMemberships picks change).Commits s u after
      ↔ (∀ m ∈ s.memberships, picks m → (m.retentionFollowsFields (change m)).admissible)
        ∧ after = { s with
            memberships := s.memberships.map fun m =>
              if picks m then m.retentionFollowsFields (change m) else m } := by
  simp [updateMemberships]

-----------------------------------------------------------------------------------------
-- Accounts, assignments and group memberships

/-- Finds or creates the account of a verified address, verified from now on if it was not. Gives
its id and whether it is disabled.
-/
def upsertVerifiedAccount (email : Email) (now : Timestamp) : Tx (Nat × Bool) := do
  match ← select (findRow Account.email email ·.accounts) with
  | some a =>
      update fun s => { s with
        accounts := s.accounts.map (changeAt Account.id a.id fun a =>
          { a with verifiedAt := a.verifiedAt.or (some now) }) }
      pure (a.id, a.disabledAt.isSome)
  | none =>
      let id ← select fun s => freshId (s.accounts.map (·.id))
      update fun s => { s with accounts := s.accounts ++ [⟨id, email, some now, none, .three⟩] }
      pure (id, false)

def insertAssignment (membershipId roleId : Nat) (period : Period) (grantedBy : Option Nat)
    : Tx Nat := do
  let id ← select fun s => freshId (s.assignments.map (·.id))
  update fun s => { s with
    assignments := s.assignments ++ [⟨id, membershipId, roleId, period, grantedBy, none⟩] }
  pure id

theorem commits_insertAssignment {membershipId roleId : Nat} {period : Period}
    {grantedBy : Option Nat} {s after : Tables} {id : Nat}
    : (insertAssignment membershipId roleId period grantedBy).Commits s id after
      ↔ id = freshId (s.assignments.map (·.id))
        ∧ after = { s with
            assignments := s.assignments ++ [⟨id, membershipId, roleId, period, grantedBy, none⟩] } := by
  simp only [insertAssignment, commits_bind, commits_select, commits_update, commits_pure]
  constructor
  · rintro ⟨_, _, ⟨rfl, rfl⟩, _, _, rfl, rfl, rfl⟩
    exact ⟨rfl, rfl⟩
  · rintro ⟨rfl, rfl⟩
    exact ⟨_, _, ⟨rfl, rfl⟩, (), _, rfl, rfl, rfl⟩

/-- Revokes the assignments the condition picks that are not revoked yet. -/
def revokeAssignments (picks : RoleAssignment → Bool) (now : Timestamp) : Tx Unit :=
  update fun s => { s with
    assignments := s.assignments.map fun ra =>
      if picks ra && ra.revokedAt.isNone then { ra with revokedAt := some now } else ra }

/-- Revokes the grants the condition picks that are not revoked yet. -/
def revokeGrants (picks : HandoverGrant → Bool) (now : Timestamp) : Tx Unit :=
  update fun s => { s with
    grants := s.grants.map fun g =>
      if picks g && g.revokedAt.isNone then { g with revokedAt := some now } else g }

/-- An ended membership leaves every group it was added to by hand. -/
def removeFromAllGroups (membershipId : Nat) (now : Timestamp) : Tx Unit :=
  update fun s => { s with
    groupMembers := s.groupMembers.map fun gm =>
      if gm.membershipId = membershipId && gm.removedAt.isNone
        then { gm with removedAt := some now }
        else gm }

end FauPortalen.Membership

import FauPortalen.Membership.Outcomes

/-! What holds in every reachable state of an FAU: rows have keys of their own, and no token is one
that is still to be given.
-/

set_option linter.unusedSectionVars false

namespace FauPortalen.Membership

open Foundations Transaction

section

variable [OsloZone] {now : Timestamp} {written : List Written} {s s' : Tables}

/-- Keys are unique, and every token in use has been given. -/
structure Tables.Keyed (s : Tables) : Prop where
  accountIds : (s.accounts.map (·.id)).Nodup
  emails : (s.accounts.map (·.email)).Nodup
  membershipIds : (s.memberships.map (·.id)).Nodup
  roleIds : (s.roles.map (·.id)).Nodup
  assignmentIds : (s.assignments.map (·.id)).Nodup
  grantIds : (s.grants.map (·.id)).Nodup
  requestIds : (s.requests.map (·.id)).Nodup
  invitationIds : (s.invitations.map (·.id)).Nodup
  groupMemberIds : (s.groupMembers.map (·.id)).Nodup
  tokens : ∀ i ∈ s.invitations, i.token < s.nextToken

theorem Tables.Changes.keyed (changes : s.Changes now written s') (keyed : s.Keyed) : s'.Keyed where
  accountIds := changes.accounts.distinct keyed.accountIds
  emails := changes.emails keyed.emails
  membershipIds := changes.memberships.distinct keyed.membershipIds
  roleIds := changes.roles.distinct keyed.roleIds
  assignmentIds := changes.assignments.distinct keyed.assignmentIds
  grantIds := changes.grants.distinct keyed.grantIds
  requestIds := (changes.requests keyed.requestIds).distinct keyed.requestIds
  invitationIds := changes.invitations.distinct keyed.invitationIds
  groupMemberIds := changes.groupMembers.distinct keyed.groupMemberIds
  tokens := changes.tokensGiven keyed.tokens

namespace Tables.JustSignedUp

variable (signedUp : s.JustSignedUp)

include signedUp

theorem noMemberships : s.memberships = [] := congrArg Tables.memberships signedUp.nothingElse

theorem noRoles : s.roles = [] := congrArg Tables.roles signedUp.nothingElse

theorem noAssignments : s.assignments = [] := congrArg Tables.assignments signedUp.nothingElse

theorem noGrants : s.grants = [] := congrArg Tables.grants signedUp.nothingElse

theorem noRequests : s.requests = [] := congrArg Tables.requests signedUp.nothingElse

theorem noInvitations : s.invitations = [] := congrArg Tables.invitations signedUp.nothingElse

theorem noGroupMembers : s.groupMembers = [] := congrArg Tables.groupMembers signedUp.nothingElse

theorem keyed : s.Keyed where
  accountIds := signedUp.accountIds
  emails := signedUp.emails
  membershipIds := by rw [signedUp.noMemberships]; exact List.nodup_nil
  roleIds := by rw [signedUp.noRoles]; exact List.nodup_nil
  assignmentIds := by rw [signedUp.noAssignments]; exact List.nodup_nil
  grantIds := by rw [signedUp.noGrants]; exact List.nodup_nil
  requestIds := by rw [signedUp.noRequests]; exact List.nodup_nil
  invitationIds := by rw [signedUp.noInvitations]; exact List.nodup_nil
  groupMemberIds := by rw [signedUp.noGroupMembers]; exact List.nodup_nil
  tokens := by rw [signedUp.noInvitations]; simp

end Tables.JustSignedUp

theorem reachable_keyed {state : FauState} (reached : fauSystem.Reachable state)
    : state.tables.Keyed := by
  refine reached.keeps (I := fun state => state.tables.Keyed) ?_ ?_
  · rintro s ⟨signedUp, _⟩
    exact signedUp.keyed
  · intro s event after keyed stepped
    exact (FauStep.changes stepped).keyed keyed

end

-----------------------------------------------------------------------------------------
-- A sample FAU

section

attribute [local instance] OsloZone.winterAndSummer

def newYear : Moment := .at 10

def june : Moment := .at 13089600000000

/-- Kari's profile, for the membership she is given. -/
def kariProfile : MemberProfile := ⟨1, ⟨1 :: List.replicate 41 0⟩, none⟩

/-- Kari has signed an FAU up, as its administrator until May. -/
def signedUpFau : Tables where
  accounts := []
  tenant := some ⟨.pending, false⟩
  signup := some ⟨⟨"kari@example.no"⟩, ⟨"kari@example.no"⟩,
    .ofParts 1970 5 1 rfl, 1000⟩
  recoveryContact := none
  memberships := []
  roles := []
  assignments := []
  grants := []
  requests := []
  invitations := []
  groups := []
  groupMembers := []
  units := []
  cohorts := []
  nextToken := 1

def activatedFau : Tables :=
  (activateTenant ⟨⟨"kari@example.no"⟩, kariProfile⟩ newYear).leaves signedUpFau

theorem signedUpFau_justSignedUp : signedUpFau.JustSignedUp :=
  ⟨by decide, by decide, rfl, rfl, rfl⟩

theorem activatedFau_commits
    : (Operation.activateTenant ⟨⟨"kari@example.no"⟩, kariProfile⟩).Commits newYear signedUpFau
      activatedFau :=
  leaves_commits (by decide +kernel)

end

end FauPortalen.Membership

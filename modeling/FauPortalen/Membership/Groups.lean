import FauPortalen.Membership.Statements
import FauPortalen.Membership.Vocabulary

/-! Authorization read from the tables, and groups: their management, who may read them, and who
is in them.
-/

namespace FauPortalen.Membership

open Foundations Transaction

variable [OsloZone]

-----------------------------------------------------------------------------------------
-- Who is in a group

/-- A role puts its holder into the group it names, or the one bound to its unit or cohort. -/
def Role.follows (r : Role) (g : Group) : Bool :=
  r.groupId = some g.id
    || match g.binding with
      | some (.unit id) => r.unitId = some id
      | some (.cohort id) => r.cohortId = some id
      | none => false

namespace Tables

variable (s : Tables)

/-- Added to the group by hand and not removed. -/
def addedByHand (membershipId groupId : Nat) : Bool :=
  s.groupMembers.any fun gm =>
    gm.groupId = groupId && gm.membershipId = membershipId && gm.removedAt.isNone

/-- Holds a role valid that day that the group follows. -/
def throughRole (membershipId : Nat) (g : Group) (today : Date) : Bool :=
  s.assignments.any fun ra => ra.membershipId = membershipId && ra.validOn today
    && s.roles.any fun r => r.id = ra.roleId && r.follows g

/-- The in-group fact: added by hand, or through a role. -/
def inGroup (membershipId : Nat) (g : Group) (today : Date) : Bool :=
  s.addedByHand membershipId g.id || s.throughRole membershipId g today

-----------------------------------------------------------------------------------------
-- The one authorization function

def groupFacts (viewer : Viewer) (groupId : Nat) (today : Date) : Option GroupFacts :=
  (s.group groupId).map fun g =>
    ⟨g.visibility, g.archivedAt.isSome, s.inGroup viewer.membershipId g today⟩

/-- Decides the action on the resource for the viewer: their standing today, the facts about the
resource, and the rule.
-/
def authorize (viewer : Viewer) (resource : Resource) (action : Action) (today : Date)
    : Decision :=
  let access := s.membershipAccess viewer.membershipId today
  if access.capability = .none then .error .noAccess
  else
    match resource with
    | .fau => access.capability.decide .fau action
    | .group id =>
        match s.groupFacts viewer id today with
        | some facts => access.capability.decide (.group facts) action
        | none => .error .hidden
    | .groupContent id =>
        match s.groupFacts viewer id today with
        | some facts => access.capability.decide (.groupContent facts) action
        | none => .error .hidden

/-- The resource with what the database says about it, for the viewer that day. -/
def target (viewer : Viewer) (resource : Resource) (today : Date) : Option Target :=
  match resource with
  | .fau => some .fau
  | .group id => (s.groupFacts viewer id today).map .group
  | .groupContent id => (s.groupFacts viewer id today).map .groupContent

variable {s}

omit [OsloZone] in
/-- The viewer may where the rule lets their capability on the resource, which exists. -/
theorem authorize_eq_ok {viewer : Viewer} {resource : Resource} {action : Action} {today : Date}
    : s.authorize viewer resource action today = .ok ()
      ↔ ∃ target, s.target viewer resource today = some target
          ∧ (s.membershipAccess viewer.membershipId today).capability.decide target action
            = .ok () := by
  unfold authorize target
  by_cases standing : (s.membershipAccess viewer.membershipId today).capability = .none
  · simp [standing, Capability.decide]
  · cases resource with
    | fau => simp [standing]
    | group id => cases facts : s.groupFacts viewer id today <;> simp [standing, facts]
    | groupContent id => cases facts : s.groupFacts viewer id today <;> simp [standing, facts]

end Tables

/-- A refusal as the error a transaction returns. -/
def denied (d : Denied) (hidden : MembershipError) : MembershipError :=
  match d with
  | .hidden => hidden
  | .forbidden | .noAccess => .notAuthorized

/-- The authorization inside a transaction. -/
def requireAuthorized (viewer : Viewer) (resource : Resource) (action : Action) (today : Date)
    (hidden : MembershipError)
    : Tx Unit := do
  check (← select (·.authorize viewer resource action today)) (denied · hidden)

-----------------------------------------------------------------------------------------
-- Managing groups

/-- A membership of the FAU whose tables these are. -/
def Viewer.of (membershipId : Nat) : Viewer := ⟨0, membershipId⟩

structure CreateGroup where
  actorMembershipId : Nat
  groupId : Nat
  encryptedName : Ciphertext
  visibility : Visibility
  binding : Option GroupBinding

structure RenameGroup where
  actorMembershipId : Nat
  groupId : Nat
  encryptedName : Ciphertext

structure SetGroupVisibility where
  actorMembershipId : Nat
  groupId : Nat
  visibility : Visibility

structure ArchiveGroup where
  actorMembershipId : Nat
  groupId : Nat

structure GroupMemberChange where
  actorMembershipId : Nat
  groupId : Nat
  membershipId : Nat

/-- Authority to manage the group, then whether it is archived. -/
def manage (actor groupId : Nat) (today : Date) : Tx Bool := do
  requireAuthorized (.of actor) (.group groupId) .manage today .unknownGroup
  let group ← expect (← select (·.group groupId)) .unknownGroup
  pure group.archivedAt.isSome

def updateGroup (groupId : Nat) (change : Group → Group) : Tx Unit :=
  update fun s => { s with groups := s.groups.map (changeAt Group.id groupId change) }

/-- The unit or cohort a group is bound to must be the FAU's. -/
def requireBound (binding : Option GroupBinding) : Tx Unit := do
  match binding with
  | none => pure ()
  | some (.unit id) => require (id ∈ (← select (·.units)).map (·.id)) .unknownUnit
  | some (.cohort id) => require (id ∈ (← select (·.cohorts)).map (·.id)) .unknownCohort

/-- Creates a group. Admin only; refused while frozen. -/
def createGroup (req : CreateGroup) (moment : Moment) : Tx Nat := do
  require (req.encryptedName.wellFormed = true) .groupNameMalformed
  let state ← lockTenant
  requireOpen state
  requireAuthorized (.of req.actorMembershipId) .fau .manage moment.today .notAuthorized
  requireBound req.binding
  require ((← select (·.group req.groupId)) = none) .uniqueViolation
  update fun s => { s with
    groups := s.groups ++ [⟨req.groupId, req.encryptedName, req.visibility, req.binding,
      req.actorMembershipId, none⟩] }
  pure req.groupId

/-- Replaces a group's name. Refused while frozen or archived. -/
def renameGroup (req : RenameGroup) (moment : Moment) : Tx Unit := do
  require (req.encryptedName.wellFormed = true) .groupNameMalformed
  let state ← lockTenant
  requireOpen state
  let archived ← manage req.actorMembershipId req.groupId moment.today
  require (archived = false) .groupArchived
  updateGroup req.groupId ({ · with encryptedName := req.encryptedName })

/-- Closes or opens a group. Closing is allowed while frozen and on an archived group. -/
def setGroupVisibility (req : SetGroupVisibility) (moment : Moment) : Tx Unit := do
  let state ← lockTenant
  onlyIf (req.visibility = .open) (requireOpen state)
  let archived ← manage req.actorMembershipId req.groupId moment.today
  require (¬ (archived ∧ req.visibility = .open)) .groupArchived
  updateGroup req.groupId ({ · with visibility := req.visibility })

/-- Archives a group, one way. Allowed while frozen. -/
def archiveGroup (req : ArchiveGroup) (moment : Moment) : Tx Unit := do
  let _ ← lockTenant
  let archived ← manage req.actorMembershipId req.groupId moment.today
  require (archived = false) .groupArchived
  updateGroup req.groupId ({ · with archivedAt := some moment.now })

/-- Adds a usable, active membership by hand. Refused while frozen or archived. -/
def addGroupMember (req : GroupMemberChange) (moment : Moment) : Tx Unit := do
  let state ← lockTenant
  requireOpen state
  let archived ← manage req.actorMembershipId req.groupId moment.today
  require (archived = false) .groupArchived
  let m ← expect (← select (·.membership req.membershipId)) .unknownMembership
  require (m.revokedAt = none) .membershipRevoked
  require ((← select (·.usable m)) = true) .accountDisabled
  require ((← select (·.membershipEnded m moment.today)) = false) .membershipEndedInviteAsGuest
  require ((← select (·.addedByHand req.membershipId req.groupId)) = false) .alreadyInGroup
  update fun s => { s with
    groupMembers := s.groupMembers ++ [⟨freshId (s.groupMembers.map (·.id)), req.groupId,
      req.membershipId, req.actorMembershipId, moment.now, none⟩] }

/-- Removes a hand-added member. Allowed while frozen and on an archived group. -/
def removeGroupMember (req : GroupMemberChange) (moment : Moment) : Tx Unit := do
  let _ ← lockTenant
  let _ ← manage req.actorMembershipId req.groupId moment.today
  let gm ← expect (← select fun s => s.groupMembers.find? fun gm =>
    gm.groupId = req.groupId && gm.membershipId = req.membershipId && gm.removedAt.isNone)
    .notInGroup
  update fun s => { s with
    groupMembers := s.groupMembers.map (changeAt GroupMember.id gm.id fun gm =>
      { gm with removedAt := some moment.now }) }

-----------------------------------------------------------------------------------------
-- Reading groups

/-- A group as a viewer may see it. -/
structure GroupView where
  groupId : Nat
  encryptedName : Ciphertext
  visibility : Visibility
  archived : Bool
  binding : Option GroupBinding
  viewerInGroup : Bool
deriving DecidableEq

/-- A current member of a group, and how they are in it. -/
structure GroupMemberView where
  membershipId : Nat
  addedByHand : Bool
  throughRole : Bool
deriving DecidableEq

namespace Tables

variable (s : Tables)

/-- Every group the capability may read, with its facts, by id: the one source of the group list
and the directory's group sections.
-/
def readableGroups (viewer : Viewer) (capability : Capability) (today : Date) : List GroupView :=
  let views := (sortOn Group.id s.groups).map fun g =>
    (⟨g.id, g.encryptedName, g.visibility, g.archivedAt.isSome, g.binding,
      s.inGroup viewer.membershipId g today⟩ : GroupView)
  views.filter fun view =>
    capability.decide (.group ⟨view.visibility, view.archived, view.viewerInGroup⟩) .read = .ok ()

/-- Every group the viewer may read. -/
def listGroups (viewer : Viewer) (today : Date) : Except MembershipError (List GroupView) :=
  let access := s.membershipAccess viewer.membershipId today
  if access.capability = .none then .error .notAuthorized
  else .ok (s.readableGroups viewer access.capability today)

/-- One group, for a viewer who may read it. -/
def getGroup (viewer : Viewer) (groupId : Nat) (today : Date)
    : Except MembershipError GroupView :=
  match s.authorize viewer (.group groupId) .read today, s.group groupId with
  | .error d, _ => .error (denied d .unknownGroup)
  | .ok (), some g => .ok ⟨g.id, g.encryptedName, g.visibility, g.archivedAt.isSome, g.binding,
      s.inGroup viewer.membershipId g today⟩
  | .ok (), none => .error (.database "no rows")

/-- A usable account, and some assignment valid that day. -/
def standingToday (m : MembershipRow) (today : Date) : Bool :=
  s.usable m && s.assignments.any fun ra => ra.membershipId = m.id && ra.validOn today

/-- The union of the hand-added rows of the groups and of the roles the groups follow, as group,
membership and whether by hand.
-/
def groupRows (wanted : Nat → Bool) (today : Date) : List (Nat × Nat × Bool) :=
  ((s.groupMembers.filter fun gm => wanted gm.groupId && gm.removedAt.isNone).map fun gm =>
      (gm.groupId, gm.membershipId, true))
    ++ (s.groups.filter fun g => wanted g.id).flatMap fun g =>
        (s.roles.filter (·.follows g)).flatMap fun r =>
          (s.assignments.filter fun ra => ra.roleId = r.id && ra.validOn today).map fun ra =>
            (g.id, ra.membershipId, false)

/-- The current members of the wanted groups: the union, restricted to memberships with standing
that day and grouped, by group and membership.
-/
def groupMembersOf (wanted : Nat → Bool) (today : Date) : List (Nat × Nat × Bool × Bool) :=
  let rows := (s.groupRows wanted today).filter fun row =>
    s.memberships.any fun m => m.id = row.2.1 && s.standingToday m today
  (sortedKeys (rows.map fun row => toLex (row.1, row.2.1))).map fun pair =>
    let (groupId, membershipId) := ofLex pair
    let held := rows.filter fun row => row.1 = groupId && row.2.1 = membershipId
    (groupId, membershipId, held.any (·.2.2), held.any (!·.2.2))

/-- A group's current members, for a viewer who may read it. -/
def listGroupMembers (viewer : Viewer) (groupId : Nat) (today : Date)
    : Except MembershipError (List GroupMemberView) :=
  match s.authorize viewer (.group groupId) .read today with
  | .error d => .error (denied d .unknownGroup)
  | .ok () => .ok ((s.groupMembersOf (· = groupId) today).map fun row =>
      ⟨row.2.1, row.2.2.1, row.2.2.2⟩)

end Tables

end FauPortalen.Membership

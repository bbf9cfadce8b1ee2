import FauPortalen.Membership.Names

/-! The member directory: who a viewer may see and what each person represents, and handing over
the addresses of a selection.
-/

namespace FauPortalen.Membership

open Foundations

variable [OsloZone]

-----------------------------------------------------------------------------------------
-- The directory

/-- The address the directory shows for a person. -/
inductive DirectoryAddress
  | contact (ciphertext : Ciphertext)
  /-- No contact address is set. -/
  | login (email : Email)
deriving DecidableEq

inductive HeldPlace
  | unit (name : String)
  | cohort (name : String)
deriving DecidableEq

structure RoleHeld where
  name : String
  place : Option HeldPlace
deriving DecidableEq

structure DirectoryPerson where
  membershipId : Nat
  isViewer : Bool
  name : MemberName
  address : DirectoryAddress
  /-- Holds only guest roles today. -/
  isGuest : Bool
  roles : List RoleHeld
  groupIds : List Nat
deriving DecidableEq

inductive SectionId
  | fau
  | group (id : Nat)
deriving DecidableEq

structure DirectorySection where
  sectionId : SectionId
  encryptedGroupName : Option Ciphertext
  members : List Nat
deriving DecidableEq

structure DirectoryRead where
  sections : List DirectorySection
  /-- Everyone listed in any section, once. -/
  people : List DirectoryPerson
deriving DecidableEq

namespace Tables

variable (s : Tables)

/-- No valid role of the membership is anything but a guest's. -/
def guestOnly (membershipId : Nat) (today : Date) : Bool :=
  !s.assignments.any fun ra => ra.membershipId = membershipId && ra.validOn today
    && s.roles.any fun r => r.id = ra.roleId && r.capabilityClass ≠ .guest

/-- Everyone with standing today whose name is not erased, by id. -/
def standingPeople (viewer : Viewer) (today : Date) : List DirectoryPerson :=
  (sortOn MembershipRow.id (s.memberships.filter fun m =>
      s.standingToday m today && m.nameErasedAt.isNone)).filterMap fun m =>
    (s.account m.accountId).map fun a =>
      { membershipId := m.id
        isViewer := m.id = viewer.membershipId
        name := match m.encryptedDisplayName with
          | some name => .named name
          | none => .unnamed
        address := match m.encryptedContactEmail with
          | some ciphertext => .contact ciphertext
          | none => .login a.email
        isGuest := s.guestOnly m.id today
        roles := []
        groupIds := [] }

/-- The roles a membership holds today, with their unit or cohort. -/
def rolesRepresented (membershipId : Nat) (today : Date) : List RoleHeld :=
  (sortOn RoleAssignment.id (s.assignments.filter fun ra =>
      ra.membershipId = membershipId && ra.validOn today)).filterMap fun ra =>
    (s.role ra.roleId).map fun r =>
      let unit := r.unitId.bind fun id => findRow Place.id id s.units
      let cohort := r.cohortId.bind fun id => findRow Place.id id s.cohorts
      ⟨r.name, (unit.map fun u => HeldPlace.unit u.name).or
        (cohort.map fun c => HeldPlace.cohort c.name)⟩

/-- The directory as the viewer may see it today. -/
def loadDirectory (viewer : Viewer) (today : Date) : Except MembershipError DirectoryRead :=
  let access := s.membershipAccess viewer.membershipId today
  if access.capability = .none then .error .notAuthorized
  else
    let standing := s.standingPeople viewer today
    let fauSection : List DirectorySection :=
      if access.capability.decide .fau .read = .ok () then
        [⟨.fau, none, (standing.filter (!·.isGuest)).map (·.membershipId)⟩]
      else []
    let groups := (s.readableGroups viewer access.capability today).filter (!·.archived)
    let rows := s.groupMembersOf (fun id => id ∈ groups.map (·.groupId)) today
    let groupSections : List DirectorySection := groups.map fun g =>
      ⟨.group g.groupId, some g.encryptedName,
        (rows.filter fun row =>
          row.1 = g.groupId && standing.any (·.membershipId = row.2.1)).map (·.2.1)⟩
    let sections := fauSection ++ groupSections
    let listed := standing.filter fun p => sections.any fun section_ =>
      p.membershipId ∈ section_.members
    let people := listed.map fun p =>
      { p with
        roles := s.rolesRepresented p.membershipId today
        groupIds := sections.filterMap fun section_ =>
          match section_.sectionId with
          | .group id => if p.membershipId ∈ section_.members then some id else none
          | .fau => none }
    .ok ⟨sections, people⟩

end Tables

-----------------------------------------------------------------------------------------
-- Handing over addresses

/-- Which part of the directory a selection was made in. -/
inductive ExportScope
  | all
  | fau
  | group (id : Nat)
deriving DecidableEq

structure ExportedRecipient where
  membershipId : Nat
  address : DirectoryAddress
deriving DecidableEq

/-- How an export ends: with its recipients, refused, or in a panic. -/
inductive ExportOutcome
  | handedOver (recipients : List ExportedRecipient)
  | refused (error : MembershipError)
  | panicked
deriving DecidableEq

/-- The members of the section the scope names, if the viewer may see it. -/
def DirectoryRead.scopeMembers (read : DirectoryRead) (scope : ExportScope) : Option (List Nat) :=
  let pick (id : SectionId) : Option (List Nat) :=
    (read.sections.find? (·.sectionId = id)).map (·.members)
  match scope with
  | .all => some (read.people.map (·.membershipId))
  | .fau => pick .fau
  | .group id => pick (.group id)

/-- The selection without its repeats, in first-selected order; refused at the first person the
scope does not list.
-/
def chooseRecipients (inScope : List Nat) : List Nat → List Nat → Except MembershipError (List Nat)
  | chosen, [] => .ok chosen
  | chosen, id :: rest =>
      if id ∉ inScope then .error .unknownMembership
      else chooseRecipients inScope (if id ∈ chosen then chosen else chosen ++ [id]) rest

/-- The address of each chosen person; none where one is not a listed person. -/
def DirectoryRead.addresses (read : DirectoryRead) (chosen : List Nat)
    : Option (List ExportedRecipient) :=
  chosen.mapM fun id =>
    (read.people.find? (·.membershipId = id)).map fun p => ⟨id, p.address⟩

/-- Hands over the addresses of a selection. Refuses an empty one, then a viewer without standing
or a guest who asks for the FAU-wide section, then a group the viewer cannot read, then a person
the scope does not list.
-/
def Tables.exportAddresses (s : Tables) (viewer : Viewer) (scope : ExportScope)
    (membershipIds : List Nat) (today : Date)
    : ExportOutcome :=
  if membershipIds = [] then .refused .emptySelection
  else
    match s.loadDirectory viewer today with
    | .error e => .refused e
    | .ok read =>
        match scope, read.scopeMembers scope with
        | .fau, none => .refused .notAuthorized
        | .group _, none => .refused .unknownGroup
        | .all, none => .panicked
        | _, some inScope =>
            match chooseRecipients inScope [] membershipIds with
            | .error e => .refused e
            | .ok chosen =>
                match read.addresses chosen with
                | some recipients => .handedOver recipients
                | none => .panicked

end FauPortalen.Membership

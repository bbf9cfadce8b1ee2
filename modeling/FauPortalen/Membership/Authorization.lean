import Mathlib.Init

/-! The authorization rule: what a viewer may do with a resource, from their capability and
the facts about the group.
-/

namespace FauPortalen.Membership

/-- What a membership's valid roles amount to. -/
inductive Capability
  | none
  | guest
  | member
  | admin
deriving DecidableEq

inductive Visibility
  | open
  | closed
deriving DecidableEq

inductive Action
  | read
  | write
  | manage
deriving DecidableEq

/-- What the database says about a group, for one viewer, today. -/
structure GroupFacts where
  visibility : Visibility
  archived : Bool
  viewerInGroup : Bool
deriving DecidableEq

inductive Target
  | fau
  | group (facts : GroupFacts)
  | groupContent (facts : GroupFacts)
deriving DecidableEq

inductive Denied
  /-- No valid standing in the FAU at all. -/
  | noAccess
  /-- For the viewer the resource does not exist. -/
  | hidden
  | forbidden
deriving DecidableEq

abbrev Decision : Type := Except Denied Unit

instance decisionDecidableEq : DecidableEq Decision
  | .ok (), .ok () => isTrue rfl
  | .error denied, .error denied' =>
      decidable_of_iff (denied = denied') ⟨congrArg _, Except.error.inj⟩
  | .ok (), .error _ | .error _, .ok () => isFalse nofun

/-- May a viewer with some standing read the target? -/
def Capability.canRead : Capability → Target → Bool
  | .none, _ => false
  | .admin, _ => true
  | .member, .fau => true
  | .guest, .fau => false
  | .member, .group g | .member, .groupContent g => g.visibility = .open || g.viewerInGroup
  | .guest, .group g | .guest, .groupContent g => g.viewerInGroup

/-- May a viewer who can read the target do this to it? -/
def Capability.allows (capability : Capability) : Action → Target → Bool
  | .read, _ => true
  | .manage, _ | .write, .group _ => capability = .admin
  | .write, .fau => true
  | .write, .groupContent g => !g.archived && (capability = .admin || g.viewerInGroup)

/-- The rule, written once for every reader. -/
def Capability.decide (capability : Capability) (target : Target) (action : Action) : Decision :=
  if capability = .none then .error .noAccess
  else if !capability.canRead target then .error .hidden
  else if capability.allows action target then .ok () else .error .forbidden

/-- Who is asking: a membership in one FAU. -/
structure Viewer where
  tenantId : Nat
  membershipId : Nat
deriving DecidableEq

inductive Resource
  | fau
  | group (id : Nat)
  | groupContent (id : Nat)
deriving DecidableEq

end FauPortalen.Membership

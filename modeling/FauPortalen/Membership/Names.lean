import FauPortalen.Membership.Groups
import FauPortalen.Membership.Retention

/-! Names for rendering history: a name while the membership is active, else a role and its
years, else nothing.
-/

namespace FauPortalen.Membership

open Foundations

variable [OsloZone]

/-- A membership as history shows it. -/
inductive MemberName
  /-- An active membership's name. -/
  | named (name : Ciphertext)
  /-- An active membership without a name. -/
  | unnamed
  /-- An active membership that had an earlier period: its name for the current one only. -/
  | returned (name : Ciphertext) (period : ActivePeriod)
  /-- An ended membership: the roles it held, never empty. -/
  | ended (roles : List HeldRole)
  /-- An erasure, or an ended membership that never held a role. -/
  | former
deriving DecidableEq

/-- How one membership appears in history today. -/
def Tables.shownName (s : Tables) (m : MembershipRow) (today : Date) : MemberName :=
  if m.nameErasedAt.isSome then .former
  else
    let held := s.heldRoles m.id
    if s.membershipEnded m today then
      if held = [] then .former else .ended held
    else
      let period := activePeriod held today
      match m.encryptedDisplayName with
      | some name => if period.earlier ≠ [] then .returned name period else .named name
      | none => .unnamed

/-- How the memberships appear in history, each once in the order first asked for, for members and
admins. Ids not in the FAU are left out.
-/
def Tables.memberNames (s : Tables) (viewer : Viewer) (membershipIds : List Nat) (today : Date)
    : Except MembershipError (List (Nat × MemberName)) :=
  match s.authorize viewer .fau .read today with
  | .error d => .error (denied d .notAuthorized)
  | .ok () => .ok (membershipIds.foldl
      (fun out id =>
        if out.any (·.1 = id) then out
        else match s.membership id with
          | some m => out ++ [(id, s.shownName m today)]
          | none => out)
      [])

/-- What a viewer is sent for an event of a member on a day: the name, a role and its years, or
neither.
-/
inductive EventLabel
  | name (name : Ciphertext)
  | noName
  | role (label : RoleLabel)
  | formerMember
deriving DecidableEq

/-- Resolves a member's name for an event, as a renderer must. -/
def MemberName.labelOn (shown : MemberName) (on : Date) : EventLabel :=
  let roleOr (label : Option RoleLabel) : EventLabel :=
    match label with
    | some label => .role label
    | none => .formerMember
  match shown with
  | .named name => .name name
  | .unnamed => .noName
  | .returned name period =>
      if period.since ≤ on then .name name else roleOr (period.labelOn on)
  | .ended roles => roleOr (roleLabel roles on)
  | .former => .formerMember

end FauPortalen.Membership

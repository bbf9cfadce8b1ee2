import FauPortalen.Membership.Retention

/-! A member's directory fields: the display name an acceptance brings, the optional contact
address, and their editing.
-/

namespace FauPortalen.Membership

open Foundations Transaction

variable [OsloZone]

/-- What a person gives when they join, encrypted for this membership's id. -/
structure MemberProfile where
  membershipId : Nat
  encryptedDisplayName : Ciphertext
  encryptedContactEmail : Option Ciphertext
deriving DecidableEq

def checkDisplayName (ciphertext : Ciphertext) : Tx Unit :=
  require (ciphertext.wellFormed = true) .displayNameMalformed

def checkContactEmail (ciphertext : Ciphertext) : Tx Unit :=
  require (ciphertext.wellFormed = true) .contactEmailMalformed

/-- Checks a contact address where one is given. -/
def checkGivenContactEmail (given : Option Ciphertext) : Tx Unit :=
  match given with
  | some ciphertext => checkContactEmail ciphertext
  | none => pure ()

def MemberProfile.check (profile : MemberProfile) : Tx Unit := do
  checkDisplayName profile.encryptedDisplayName
  checkGivenContactEmail profile.encryptedContactEmail

/-- Writes the profile onto the membership. A stored address stays when the profile brings none
and the membership was current or retained.
-/
def writeProfile (profile : MemberProfile) (alreadyCurrent : Bool) : Tx Unit :=
  updateMembership profile.membershipId fun m => { m with
    encryptedDisplayName := some profile.encryptedDisplayName
    encryptedContactEmail :=
      if alreadyCurrent && profile.encryptedContactEmail.isNone then m.encryptedContactEmail
      else profile.encryptedContactEmail }

structure SetDisplayName where
  actorMembershipId : Nat
  membershipId : Nat
  encryptedDisplayName : Ciphertext

/-- A member with standing may edit their own name, an admin any. -/
def requireMayName (req : SetDisplayName) (today : Date) : Tx Unit := do
  if req.actorMembershipId = req.membershipId then
    require ((← select (·.membershipAccess req.actorMembershipId today)).capability ≠ .none)
      .notAuthorized
  else requireAdmin req.actorMembershipId today

/-- A member edits their own name, or an admin corrects the name of an active membership. -/
def setDisplayName (req : SetDisplayName) (moment : Moment) : Tx Unit := do
  checkDisplayName req.encryptedDisplayName
  let state ← lockTenant
  requireOpen state
  requireMayName req moment.today
  let m ← expect (← select (·.membership req.membershipId)) .unknownMembership
  require (m.nameErasedAt = none) .membershipErased
  require ((← select (·.membershipEnded m moment.today)) = false) .membershipEnded
  updateMembership req.membershipId ({ · with
    encryptedDisplayName := some req.encryptedDisplayName })

structure SetContactEmail where
  membershipId : Nat
  /-- None clears it, and the login address is shown instead. -/
  encryptedContactEmail : Option Ciphertext

/-- A member sets or clears their own contact address. Clearing one is allowed while frozen. -/
def setContactEmail (req : SetContactEmail) (moment : Moment) : Tx Unit := do
  checkGivenContactEmail req.encryptedContactEmail
  let state ← lockTenant
  onlyIf req.encryptedContactEmail.isSome (requireOpen state)
  require ((← select (·.membershipAccess req.membershipId moment.today)).capability ≠ .none)
    .notAuthorized
  let m ← expect (← select (·.membership req.membershipId)) .unknownMembership
  require (m.nameErasedAt = none) .membershipErased
  updateMembership req.membershipId ({ · with
    encryptedContactEmail := req.encryptedContactEmail })

end FauPortalen.Membership

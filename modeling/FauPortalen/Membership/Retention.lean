import FauPortalen.Membership.Statements

/-! How long the name and address of an ended membership live: settled when the end is noticed,
swept daily, restamped by the member's own setting, reopened by a return.
-/

namespace FauPortalen.Membership

open Foundations Transaction

variable [OsloZone]

-----------------------------------------------------------------------------------------
-- The end of a membership

/-- The account's chosen period, read through the membership. -/
def Tables.accountRetention (s : Tables) (membershipId : Nat) : Option RetentionMonths :=
  (s.membership membershipId).bind fun m => (s.account m.accountId).map (·.retentionMonths)

/-- The latest revocation of any of the membership's assignments. -/
def Tables.latestRevocation (s : Tables) (membershipId : Nat) : Option Timestamp :=
  ((s.assignments.filter (·.membershipId = membershipId)).filterMap (·.revokedAt)).max?

/-- The day an ended membership ended: the latest day any of its roles stopped being held, else
its latest assignment revocation, else its own. None for an unknown membership.
-/
def Tables.endedOnFor (s : Tables) (membershipId : Nat) (today : Date) : Option Date :=
  let held := s.heldRoles membershipId
  if held ≠ [] then some (endedOn held today)
  else (s.membership membershipId).map fun m =>
    match (s.latestRevocation membershipId).or m.revokedAt with
    | some revoked => min (osloToday revoked) today
    | none => today

/-- The date an ended membership's fields go: the stamped one, or, for an end not yet noticed,
the one its end gives. None clears them now.
-/
def effectiveKeepUntil (membershipId : Nat) (stamped : Option Date) (today : Date)
    : Tx (Option Date) :=
  match stamped with
  | some until_ => pure (if today < until_ then some until_ else none)
  | none => do
      let months ← expect (← select (·.accountRetention membershipId)) .unknownMembership
      let ended ← expect (← select (·.endedOnFor membershipId today)) .unknownMembership
      pure (keepUntil ended months today)

-----------------------------------------------------------------------------------------
-- Settling and reopening

/-- Where a membership's name and address stand. -/
inductive Settled
  | active
  /-- Ended and within its period: kept, hidden. -/
  | retained
  /-- Ended and past its period: cleared just now. -/
  | cleared
  /-- Nothing to keep: no field, or an erasure. -/
  | absent
deriving DecidableEq

def clearProfile (membershipId : Nat) : Tx Unit :=
  updateMembership membershipId fun m => { m with
    encryptedDisplayName := none
    encryptedContactEmail := none
    profileRetainedUntil := none }

/-- Decides whether an ended membership keeps its fields: stamps an end noticed for the first time,
and clears fields whose period is over. An active membership is left alone.
-/
def settleProfile (membershipId : Nat) (moment : Moment) : Tx Settled := do
  let m ← expect (← select (·.membership membershipId)) .unknownMembership
  let ended ← select (·.membershipEnded m moment.today)
  if m.nameErasedAt.isSome || !m.hasFields then pure .absent
  else if !ended then pure .active
  else do
    let until_ ← effectiveKeepUntil membershipId m.profileRetainedUntil moment.today
    match until_, m.profileRetainedUntil with
    | some _, some _ => pure .retained
    | some until_, none => do
        updateMembership membershipId ({ · with profileRetainedUntil := some until_ })
        pure .retained
    | none, _ => do
        clearProfile membershipId
        pure .cleared

/-- A returner: ends the group memberships of one that had ended, settles the profile, and makes
the row current again.
-/
def reopenProfile (membershipId : Nat) (moment : Moment) : Tx Settled := do
  let m ← expect (← select (·.membership membershipId)) .unknownMembership
  let ended ← select (·.membershipEnded m moment.today)
  onlyIf ended (removeFromAllGroups membershipId moment.now)
  let settled ← settleProfile membershipId moment
  updateMembership membershipId ({ · with revokedAt := none, profileRetainedUntil := none })
  pure settled

/-- Finds or creates the account's membership as the expected id, reopening one there is. Gives
the id, whether it existed, and whether it holds a current or retained profile.
-/
def ensureMembership (accountId expectedId : Nat) (moment : Moment) : Tx (Nat × Bool × Bool) := do
  match ← select (findRow MembershipRow.accountId accountId ·.memberships) with
  | some m => do
      require (m.id = expectedId) .acceptanceTargetChanged
      require (m.nameErasedAt = none) .membershipErased
      let settled ← reopenProfile m.id moment
      pure (m.id, true, settled = .active || settled = .retained)
  | none => do
      require ((← select (·.membership expectedId)) = none) .uniqueViolation
      update fun s => { s with
        memberships := s.memberships ++ [⟨expectedId, accountId, none, none, none, none, none⟩] }
      pure (expectedId, false, false)

-----------------------------------------------------------------------------------------
-- The daily sweep

/-- The ended memberships with a field whose period is not known to be running. -/
def Tables.clearingCandidates (s : Tables) (today : Date) : List Nat :=
  sortedKeys ((s.memberships.filter fun m =>
    m.hasFields && m.profileRetainedUntil.all (· ≤ today) && s.membershipEnded m today).map (·.id))

/-- The ended memberships still in a group they were added to by hand. -/
def Tables.endedInGroups (s : Tables) (today : Date) : List Nat :=
  sortedKeys ((s.memberships.filter fun m =>
    s.groupMembers.any (fun gm => gm.membershipId = m.id && gm.removedAt.isNone)
      && s.membershipEnded m today).map (·.id))

/-- The FAU's share of the sweep, visited only when the scan finds something. Gives how many
profiles it cleared.
-/
def clearEndedProfiles (moment : Moment) : Tx Nat := do
  let visited ← select fun s =>
    s.clearingCandidates moment.today ≠ [] || s.endedInGroups moment.today ≠ []
  if visited then do
    let _ ← lockTenant
    let ids ← select (·.clearingCandidates moment.today)
    let cleared ← ids.foldlM (fun cleared id => do
      let settled ← settleProfile id moment
      pure (if settled = .cleared then cleared + 1 else cleared)) 0
    let ids ← select (·.endedInGroups moment.today)
    forM ids fun id => removeFromAllGroups id moment.now
    pure cleared
  else pure 0

-----------------------------------------------------------------------------------------
-- The member's own setting, and an erasure

/-- The account's memberships that still hold a field, in order. -/
def Tables.heldProfiles (s : Tables) (accountId : Nat) : List Nat :=
  sortedKeys ((s.memberships.filter fun m =>
    m.accountId = accountId && m.nameErasedAt.isNone && m.hasFields).map (·.id))

/-- The account's stamped memberships that have ended, with their stamps, in order. -/
def Tables.stampedProfiles (s : Tables) (accountId : Nat) (today : Date) : List (Nat × Date) :=
  sortOn (·.1) ((s.memberships.filter fun m =>
      m.accountId = accountId && s.membershipEnded m today).filterMap fun m =>
    m.profileRetainedUntil.map fun stamped => (m.id, stamped))

/-- Recalculates one period that is still running. -/
def restampProfile (months : RetentionMonths) (moment : Moment) (stamped : Nat × Date)
    : Tx Unit := do
  let ended ← expect (← select (·.endedOnFor stamped.1 moment.today)) .unknownMembership
  match keepUntil ended months moment.today with
  | none => clearProfile stamped.1
  | some until_ =>
      if until_ ≠ stamped.2 then
        updateMembership stamped.1 ({ · with profileRetainedUntil := some until_ })
      else pure ()

/-- Sets how long the account's memberships are remembered: settles every one that holds a field
under the old setting, writes the new one, and recalculates every period still running.
-/
def setRetentionMonths (accountId : Nat) (months : RetentionMonths) (moment : Moment)
    : Tx Unit := do
  let listed ← select (·.heldProfiles accountId)
  onlyIf (listed ≠ []) do
    let _ ← lockTenant
    forM (← select (·.heldProfiles accountId)) fun id => do
      let _ ← settleProfile id moment
  require ((← select (·.account accountId)) ≠ none) .unknownAccount
  update fun s => { s with
    accounts := s.accounts.map (changeAt Account.id accountId fun a =>
      { a with retentionMonths := months }) }
  onlyIf (listed ≠ []) do
    forM (← select (·.stampedProfiles accountId moment.today)) (restampProfile months moment)

/-- Erases the account's name and address from the FAU and marks the membership erased. -/
def eraseMemberNames (accountId : Nat) (moment : Moment) : Tx Unit := do
  let belongs ← select fun s => s.memberships.any (·.accountId = accountId)
  if belongs then do
    let _ ← lockTenant
    updateMemberships (fun m => m.accountId = accountId && m.nameErasedAt.isNone) fun m =>
      { m with
        nameErasedAt := some moment.now
        encryptedDisplayName := none
        encryptedContactEmail := none
        profileRetainedUntil := none }
  else pure ()

end FauPortalen.Membership

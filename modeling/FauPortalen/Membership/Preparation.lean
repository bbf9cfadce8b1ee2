import FauPortalen.Membership.LeavingGroups

/-! Preparing an acceptance: which membership it will write to, and whether that one's profile is
current or retained, as the acceptance itself then finds it under the lock.
-/

set_option linter.unusedSectionVars false

namespace FauPortalen.Membership

open Foundations Transaction

-----------------------------------------------------------------------------------------
-- Preparing

structure AcceptanceTarget where
  membershipId : Nat
  /-- The profile is current or retained, so that the caller may prefill it. -/
  existingCurrent : Bool
deriving DecidableEq

/-- The membership of the account with the address. -/
def Tables.membershipOf (s : Tables) (address : Email) : Option MembershipRow :=
  s.memberships.find? fun m => s.accounts.any fun a => a.id = m.accountId && a.email = address

section

variable [OsloZone]

/-- Whether a membership that was found holds a current or retained profile. -/
def holdsProfile (m : MembershipRow) (today : Date) : Tx Bool := do
  let ended ← select (·.membershipEnded m today)
  if m.nameErasedAt.isSome then pure false
  else if !ended then pure true
  else if m.encryptedDisplayName.isNone then pure false
  else do
    let until_ ← effectiveKeepUntil m.id m.profileRetainedUntil today
    pure until_.isSome

/-- Where an acceptance by the invitation's verified recipient will write: the membership they
have, or a fresh one.
-/
def prepareAcceptance (token : Nat) (acceptor : Email) (fresh : Nat) (today : Date)
    : Tx AcceptanceTarget := do
  let inv ← expect (← select (findRow Invitation.token token ·.invitations)) .unknownInvitation
  require (inv.recipient = acceptor) .unknownInvitation
  match ← select (·.membershipOf acceptor) with
  | none => pure ⟨fresh, false⟩
  | some m => do
      let current ← holdsProfile m today
      pure ⟨m.id, current⟩

end

-----------------------------------------------------------------------------------------
-- What the constraints allow

/-- The constraints on accounts, memberships and invitations: keys, the one membership an account
has in the FAU, the account a membership refers to, and the checks on a row.
-/
structure Tables.Constrained (s : Tables) : Prop where
  accountIds : (s.accounts.map (·.id)).Nodup
  emails : (s.accounts.map (·.email)).Nodup
  membershipIds : (s.memberships.map (·.id)).Nodup
  onePerAccount : (s.memberships.map (·.accountId)).Nodup
  accounts : ∀ m ∈ s.memberships, m.accountId ∈ s.accounts.map (·.id)
  checks : ∀ m ∈ s.memberships, m.admissible = true
  invitationIds : (s.invitations.map (·.id)).Nodup

-----------------------------------------------------------------------------------------
-- How long a profile is kept

section

variable [OsloZone] {moment : Moment} {s after : Tables}

/-- The date up to which an ended membership's fields are kept, none when it is over. -/
def Tables.keptUntil (s : Tables) (m : MembershipRow) (today : Date) : Option Date :=
  match m.profileRetainedUntil with
  | some until_ => if today < until_ then some until_ else none
  | none => (s.accountRetention m.id).bind fun months =>
      (s.endedOnFor m.id today).bind fun ended => keepUntil ended months today

theorem effectiveKeepUntil_commits {m : MembershipRow} {today : Date} {kept : Option Date}
    (commits : (effectiveKeepUntil m.id m.profileRetainedUntil today).Commits s kept after)
    : kept = s.keptUntil m today ∧ after = s := by
  unfold effectiveKeepUntil at commits
  unfold Tables.keptUntil
  cases stamped : m.profileRetainedUntil with
  | some until_ =>
      rw [stamped] at commits
      exact commits_pure.mp commits
  | none =>
      rw [stamped] at commits
      simp only [commits_select_bind, commits_expect_bind, commits_pure] at commits
      obtain ⟨months, chosen, ended, day, rfl, rfl⟩ := commits
      rw [chosen, day]
      exact ⟨rfl, rfl⟩

/-- What settling finds. -/
theorem settleProfile_profile {membershipId : Nat} {settled : Settled}
    (commits : (settleProfile membershipId moment).Commits s settled after)
    : ∃ m, s.membership membershipId = some m
        ∧ ((settled = .active ∨ settled = .retained)
          ↔ m.nameErasedAt = none ∧ m.hasFields = true
            ∧ (s.membershipEnded m moment.today = true → (s.keptUntil m moment.today).isSome)) := by
  simp only [settleProfile, commits_select_bind, commits_expect_bind] at commits
  obtain ⟨m, found, rest⟩ := commits
  refine ⟨m, found, ?_⟩
  obtain ⟨_, rfl⟩ := of_findRow found
  rw [commits_ite] at rest
  rcases rest with ⟨gone, rest⟩ | ⟨here, rest⟩
  · obtain ⟨rfl, _⟩ := commits_pure.mp rest
    rcases Bool.or_eq_true_iff.mp gone with erased | bare
    · simp [Option.isSome_iff_ne_none.mp erased]
    · have bare : m.hasFields = false := by simpa using bare
      simp [bare]
  · obtain ⟨notErased, fields⟩ : m.nameErasedAt = none ∧ m.hasFields = true := by
      simpa using here
    rw [commits_ite] at rest
    rcases rest with ⟨active, rest⟩ | ⟨ended, rest⟩
    · obtain ⟨rfl, _⟩ := commits_pure.mp rest
      have active : s.membershipEnded m moment.today = false := by simpa using active
      simp [notErased, fields, active]
    · obtain ⟨until_, middle, keeps, rest⟩ := commits_bind.mp rest
      obtain ⟨rfl, rfl⟩ := effectiveKeepUntil_commits keeps
      have ended : middle.membershipEnded m moment.today = true := by simpa using ended
      cases kept : middle.keptUntil m moment.today with
      | none =>
          rw [kept] at rest
          obtain ⟨_, _, _, returns⟩ := commits_bind.mp rest
          obtain ⟨rfl, _⟩ := commits_pure.mp returns
          simp [ended]
      | some day =>
          rw [kept] at rest
          have retained : settled = .retained := by
            cases stamped : m.profileRetainedUntil with
            | some _ =>
                rw [stamped] at rest
                exact (commits_pure.mp rest).1
            | none =>
                rw [stamped] at rest
                obtain ⟨_, _, _, returns⟩ := commits_bind.mp rest
                exact (commits_pure.mp returns).1
          simp [retained, notErased, fields]

theorem effectiveKeepUntil_runs {m : MembershipRow} {today : Date}
    (known : s.membership m.id = some m) (owned : (s.account m.accountId).isSome)
    : (effectiveKeepUntil m.id m.profileRetainedUntil today).Commits s (s.keptUntil m today) s := by
  unfold effectiveKeepUntil Tables.keptUntil
  cases m.profileRetainedUntil with
  | some until_ => exact commits_pure.mpr ⟨rfl, rfl⟩
  | none =>
      obtain ⟨a, owner⟩ := Option.isSome_iff_exists.mp owned
      have months : s.accountRetention m.id = some a.retentionMonths := by
        rw [Tables.accountRetention, known, Option.bind_some, owner, Option.map_some]
      have day : (s.endedOnFor m.id today).isSome := by
        simp only [Tables.endedOnFor]
        split
        · rfl
        · rw [known]
          rfl
      obtain ⟨day, is⟩ := Option.isSome_iff_exists.mp day
      simp only [commits_select_bind, commits_expect_bind, commits_pure]
      exact ⟨_, months, day, is, by rw [months, is]; exact ⟨rfl, trivial⟩⟩

/-- What preparing finds of a membership whose account is known. -/
theorem holdsProfile_runs {m : MembershipRow} (today : Date)
    (known : s.membership m.id = some m) (owned : (s.account m.accountId).isSome)
    : ∃ current, (holdsProfile m today).Commits s current s
        ∧ (current = true ↔ m.nameErasedAt = none
          ∧ (s.membershipEnded m today = true →
            m.encryptedDisplayName.isSome ∧ (s.keptUntil m today).isSome)) := by
  unfold holdsProfile
  simp only [commits_select_bind]
  by_cases erased : m.nameErasedAt.isSome = true
  · refine ⟨false, by simp [erased], ?_⟩
    simp [Option.isSome_iff_ne_none.mp erased]
  · have notErased : m.nameErasedAt = none := by simpa using erased
    cases ended : s.membershipEnded m today with
    | false => exact ⟨true, by simp [notErased], by simp [notErased]⟩
    | true =>
        cases named : m.encryptedDisplayName with
        | none => exact ⟨false, by simp [notErased], by simp⟩
        | some name =>
            refine ⟨(s.keptUntil m today).isSome, ?_, by simp [notErased]⟩
            have keeps : (effectiveKeepUntil m.id m.profileRetainedUntil today).Commits s
                (s.keptUntil m today) s :=
              effectiveKeepUntil_runs known owned
            rw [if_neg (by simp [notErased]), if_neg (by simp), if_neg (by simp)]
            exact commits_bind.mpr ⟨_, s, keeps, commits_pure.mpr ⟨rfl, rfl⟩⟩

/-- What an acceptance finds of the membership it will write to. -/
theorem ensureMembership_profile {accountId expectedId : Nat} {joined : Nat × Bool × Bool}
    (unique : (s.memberships.map (·.id)).Nodup)
    (commits : (ensureMembership accountId expectedId moment).Commits s joined after)
    : joined.2.2 = true ↔ ∃ m, findRow MembershipRow.accountId accountId s.memberships = some m
        ∧ m.hasFields = true
        ∧ (s.membershipEnded m moment.today = true → (s.keptUntil m moment.today).isSome) := by
  simp only [ensureMembership, commits_select_bind] at commits
  split at commits
  · next m found =>
      simp only [commits_require_bind] at commits
      obtain ⟨rfl, notErased, writes⟩ := commits
      obtain ⟨settled, _, reopens, returns⟩ := commits_bind.mp writes
      obtain ⟨rfl, rfl⟩ := commits_pure.mp returns
      obtain ⟨_, cleared, kept, _, clears, settles, _⟩ := reopenProfile_commits reopens
      have own : s.membership m.id = some m :=
        (findRow_eq_some unique).mpr ⟨(of_findRow found).1, rfl⟩
      -- Leaving groups touches nothing that settling reads.
      obtain ⟨groupMembers, rfl⟩ : ∃ groupMembers, cleared = { s with groupMembers } := by
        rcases commits_onlyIf.mp clears with ⟨_, removes⟩ | ⟨_, _, rfl⟩
        · exact ⟨_, commits_update.mp removes⟩
        · exact ⟨_, rfl⟩
      obtain ⟨settling, known, profile⟩ := settleProfile_profile settles
      obtain rfl : m = settling := Option.some.inj (own.symm.trans known)
      rw [found, Bool.or_eq_true, decide_eq_true_iff, decide_eq_true_iff, profile]
      constructor
      · exact fun kept => ⟨m, rfl, kept.2⟩
      · rintro ⟨_, ⟨⟩, fields, keeps⟩
        exact ⟨notErased, fields, keeps⟩
  · next none_ =>
      simp only [commits_select_bind, commits_require_bind, commits_update_bind, commits_pure]
        at commits
      obtain ⟨_, rfl, _⟩ := commits
      simp [none_]

/-- An account verified is the one with the address, or a new one. -/
theorem upsertVerifiedAccount_cases {email : Email} {at_ : Timestamp} {account : Nat × Bool}
    (commits : (upsertVerifiedAccount email at_).Commits s account after)
    : (∃ a, findRow Account.email email s.accounts = some a ∧ account.1 = a.id
        ∧ after = { s with accounts := s.accounts.map (changeAt Account.id a.id fun a =>
            { a with verifiedAt := a.verifiedAt.or (some at_) }) })
      ∨ (findRow Account.email email s.accounts = none
        ∧ account.1 = freshId (s.accounts.map (·.id))
        ∧ after = { s with accounts :=
            s.accounts ++ [⟨freshId (s.accounts.map (·.id)), email, some at_, none, .three⟩] }) := by
  simp only [upsertVerifiedAccount, commits_select_bind] at commits
  split at commits
  · next a found =>
      simp only [commits_update_bind, commits_pure] at commits
      obtain ⟨rfl, rfl⟩ := commits
      exact .inl ⟨a, found, rfl, rfl⟩
  · next none_ =>
      simp only [commits_select_bind, commits_update_bind, commits_pure] at commits
      obtain ⟨rfl, rfl⟩ := commits
      exact .inr ⟨none_, rfl, rfl⟩

-----------------------------------------------------------------------------------------
-- Preparing and accepting

namespace Tables.Constrained

variable (constrained : s.Constrained)

include constrained

theorem membership_eq {m : MembershipRow} (member : m ∈ s.memberships)
    : s.membership m.id = some m :=
  (findRow_eq_some constrained.membershipIds).mpr ⟨member, rfl⟩

theorem account_isSome {m : MembershipRow} (member : m ∈ s.memberships)
    : (s.account m.accountId).isSome := by
  rw [Option.isSome_iff_ne_none]
  exact fun none => findRow_eq_none.mp none (constrained.accounts m member)

/-- The membership of the address is that of the account that is verified. -/
theorem membershipOf_verified {email : Email} {at_ : Timestamp} {account : Nat × Bool}
    (verifies : (upsertVerifiedAccount email at_).Commits s account after)
    : s.membershipOf email = findRow MembershipRow.accountId account.1 s.memberships := by
  rw [Tables.membershipOf, findRow]
  rcases upsertVerifiedAccount_cases verifies with ⟨a, found, same, _⟩ | ⟨none_, fresh, _⟩
  · obtain ⟨there, address⟩ := of_findRow found
    congr 1
    funext m
    rw [same, Bool.eq_iff_iff, List.any_eq_true, decide_eq_true_iff]
    constructor
    · rintro ⟨b, held, matches_⟩
      rw [Bool.and_eq_true, decide_eq_true_iff, decide_eq_true_iff] at matches_
      obtain rfl := List.inj_on_of_nodup_map constrained.emails held there
        (matches_.2.trans address.symm)
      exact matches_.1.symm
    · intro owner
      exact ⟨a, there, by simp [owner, address]⟩
  · have unknown : ∀ m ∈ s.memberships, m.accountId ≠ account.1 := by
      intro m member same
      rw [fresh] at same
      exact freshId_not_mem _ (same ▸ constrained.accounts m member)
    have stranger : ∀ a ∈ s.accounts, a.email ≠ email := fun a held same =>
      findRow_eq_none.mp none_ (same ▸ List.mem_map_of_mem held)
    have left : ∀ m ∈ s.memberships, ¬ (s.accounts.any fun a =>
        a.id = m.accountId && a.email = email) = true := by
      intro m _
      simpa using fun a held _ => stranger a held
    have right : ∀ m ∈ s.memberships, ¬ decide (m.accountId = account.1) = true := by
      simpa using unknown
    exact (List.find?_eq_none.mpr left).trans (List.find?_eq_none.mpr right).symm

/-- Verifying an account changes nothing that decides how long a profile is kept. -/
theorem verified_keeps {email : Email} {at_ : Timestamp} {account : Nat × Bool}
    (verifies : (upsertVerifiedAccount email at_).Commits s account after)
    {m : MembershipRow} (member : m ∈ s.memberships) (today : Date)
    : after.memberships = s.memberships
        ∧ after.membershipEnded m today = s.membershipEnded m today
        ∧ after.keptUntil m today = s.keptUntil m today := by
  have retention : (findRow Account.id m.accountId after.accounts).map (·.retentionMonths)
      = (findRow Account.id m.accountId s.accounts).map (·.retentionMonths) := by
    rcases upsertVerifiedAccount_cases verifies with ⟨a, _, _, rfl⟩ | ⟨_, _, rfl⟩
    · have keeps (row : Account) : (changeAt Account.id a.id (fun a =>
          { a with verifiedAt := a.verifiedAt.or (some at_) }) row).id = row.id := by
        unfold changeAt
        split <;> rfl
      simp only [findRow, List.find?_map, Function.comp_def, keeps, Option.map_map]
      congr 1
      funext row
      unfold changeAt
      split <;> rfl
    · obtain ⟨owner, found⟩ := Option.isSome_iff_exists.mp (constrained.account_isSome member)
      rw [Tables.account, findRow] at found
      simp only [findRow, List.find?_append, found, Option.some_or]
  obtain ⟨accounts, rfl⟩ := (upsertVerifiedAccount_commits verifies).1
  have months : Tables.accountRetention { s with accounts } m.id = s.accountRetention m.id := by
    have known : Tables.membership { s with accounts } m.id = some m :=
      constrained.membership_eq member
    rw [Tables.accountRetention, Tables.accountRetention, known, constrained.membership_eq member]
    exact retention
  refine ⟨rfl, rfl, ?_⟩
  unfold Tables.keptUntil
  rw [months]
  rfl

end Tables.Constrained

/-- The acceptor's membership, if there is one, is active and holds a field, or has ended and does
not hold just an address that is still kept.
-/
def Tables.StandsAlike (s : Tables) (acceptor : Email) (today : Date) : Prop :=
  ∀ m, s.membershipOf acceptor = some m →
    if s.membershipEnded m today then
      m.encryptedDisplayName = none → m.encryptedContactEmail.isSome → s.keptUntil m today = none
    else m.hasFields

/-- Preparing asks an ended row for a name, settling any row for a field. -/
theorem current_iff_current {m : MembershipRow} {ended : Bool} {kept : Option Date}
    : ((ended = true → m.encryptedDisplayName.isSome ∧ kept.isSome)
        ↔ m.hasFields = true ∧ (ended = true → kept.isSome))
      ↔ if ended then m.encryptedDisplayName = none → m.encryptedContactEmail.isSome → kept = none
        else m.hasFields = true := by
  unfold MembershipRow.hasFields
  generalize m.encryptedDisplayName = name
  generalize m.encryptedContactEmail = address
  cases ended <;> cases name <;> cases address <;> cases kept <;> simp

/-- Preparing succeeds when the acceptance does, and the two say the same of the returning member
exactly when the membership stands alike for both.
-/
theorem prepareAcceptance_iff (constrained : s.Constrained) {found : Nat} (fresh : Nat)
    {req : AcceptInvitation} {accepted : Accepted} {account : Nat × Bool} {verified entered : Tables}
    {joined : Nat × Bool × Bool}
    (lookup : s.invitationByToken req.token = some found)
    (accepts : (acceptInvitation found req moment).Commits s accepted after)
    (verifies : (upsertVerifiedAccount req.acceptor moment.now).Commits s account verified)
    (joins : (ensureMembership account.1 req.profile.membershipId moment).Commits verified joined
      entered)
    : ∃ target, (prepareAcceptance req.token req.acceptor fresh moment.today).Commits s target s
        ∧ (target.existingCurrent = joined.2.2 ↔ s.StandsAlike req.acceptor moment.today) := by
  obtain ⟨path⟩ := acceptInvitation_commits accepts
  have recipient : path.inv.recipient = req.acceptor :=
    (checkAcceptance_eq_ok.mp path.passes).2.2.2.1
  have named : findRow Invitation.token req.token s.invitations = some path.inv := by
    obtain ⟨inv, there, same⟩ := Option.map_eq_some_iff.mp lookup
    have own := (findRow_eq_some constrained.invitationIds).mpr ⟨(of_findRow there).1, same⟩
    rw [there, ← path.finds]
    exact own.symm
  have whose := constrained.membershipOf_verified verifies
  obtain ⟨accounts, rfl⟩ := (upsertVerifiedAccount_commits verifies).1
  have profile := ensureMembership_profile (s := { s with accounts }) constrained.membershipIds
    joins
  have opens {target : AcceptanceTarget} (rest : (do
        match ← select (·.membershipOf req.acceptor) with
        | none => pure ⟨fresh, false⟩
        | some m => do
            let current ← holdsProfile m moment.today
            pure ⟨m.id, current⟩ : Tx AcceptanceTarget).Commits s target s)
      : (prepareAcceptance req.token req.acceptor fresh moment.today).Commits s target s := by
    rw [prepareAcceptance, commits_select_bind, named, commits_expect_bind]
    exact ⟨path.inv, rfl, commits_require_bind.mpr ⟨recipient, rest⟩⟩
  cases theirs : s.membershipOf req.acceptor with
  | none =>
      refine ⟨⟨fresh, false⟩, opens ?_, ?_⟩
      · rw [commits_select_bind, theirs]
        exact commits_pure.mpr ⟨rfl, rfl⟩
      · have not : joined.2.2 ≠ true := by
          rw [Ne, profile, ← whose, theirs]
          simp
        have none_ : joined.2.2 = false := by simpa using not
        simp [none_, Tables.StandsAlike, theirs]
  | some m =>
      have member : m ∈ s.memberships := List.mem_of_find?_eq_some theirs
      obtain ⟨current, holds, finds⟩ := holdsProfile_runs moment.today
        (constrained.membership_eq member) (constrained.account_isSome member)
      refine ⟨⟨m.id, current⟩, opens ?_, ?_⟩
      · rw [commits_select_bind, theirs]
        exact commits_bind.mpr ⟨current, s, holds, commits_pure.mpr ⟨rfl, rfl⟩⟩
      · obtain ⟨_, ended, kept⟩ := constrained.verified_keeps verifies member moment.today
        have found' := theirs.symm.trans whose
        have notErased : m.nameErasedAt = none := by
          obtain ⟨_, ⟨other, _, is, _, intact, _⟩ | ⟨_, missing, _⟩⟩ := ensureMembership_commits joins
          · obtain rfl : m = other := Option.some.inj (found'.trans is)
            exact intact
          · exact absurd (found'.trans missing) (by simp)
        have profile : joined.2.2 = true ↔ m.hasFields = true
            ∧ (s.membershipEnded m moment.today = true →
              (s.keptUntil m moment.today).isSome) := by
          rw [profile, ← ended, ← kept]
          constructor
          · rintro ⟨other, is, rest⟩
            obtain rfl : m = other := Option.some.inj (found'.trans is)
            exact rest
          · exact fun rest => ⟨m, found'.symm, rest⟩
        have alike : s.StandsAlike req.acceptor moment.today
            ↔ if s.membershipEnded m moment.today then
                m.encryptedDisplayName = none → m.encryptedContactEmail.isSome →
                  s.keptUntil m moment.today = none
              else m.hasFields = true := by
          simp [Tables.StandsAlike, theirs]
        rw [Bool.eq_iff_iff, finds, profile, alike]
        simp only [notErased, true_and]
        exact current_iff_current

end

-----------------------------------------------------------------------------------------
-- A member without a name

section

attribute [local instance] OsloZone.winterAndSummer

/-- Kari joined before names were kept; she has stated an address, and her term is over. -/
def namelessFau : Tables :=
  { recoveredFau with
    memberships := [⟨1, 1, none, none, some ⟨1 :: List.replicate 41 0⟩, none, none⟩] }

def kariAccepts : AcceptInvitation := ⟨1, ⟨"kari@example.no"⟩, none, kariProfile⟩

theorem namelessFau_constrained : namelessFau.Constrained where
  accountIds := by decide +kernel
  emails := by decide +kernel
  membershipIds := by decide +kernel
  onePerAccount := by decide +kernel
  accounts := by decide +kernel
  checks := by decide +kernel
  invitationIds := by decide +kernel

/-- The FAU as the acceptance has it when the membership is looked for. -/
def verifiedFau : Tables :=
  (upsertVerifiedAccount ⟨"kari@example.no"⟩ june.now).leaves namelessFau

theorem namelessFau_accepts
    : ∃ accepted, (acceptInvitation 1 kariAccepts june).Commits namelessFau accepted
        ((acceptInvitation 1 kariAccepts june).leaves namelessFau) :=
  leaves_commits (by decide +kernel)

theorem namelessFau_verifies
    : (upsertVerifiedAccount ⟨"kari@example.no"⟩ june.now).Commits namelessFau (1, false)
        verifiedFau := by
  unfold Commits
  decide +kernel

theorem verifiedFau_joins
    : (ensureMembership 1 1 june).Commits verifiedFau (1, true, true)
        ((ensureMembership 1 1 june).leaves verifiedFau) := by
  unfold Commits
  decide +kernel

/-- Preparing tells Kari that nothing of hers is kept; accepting keeps her address. -/
theorem prepareAcceptance_disagrees
    : ¬ ∀ (s after verified entered : Tables) (found fresh : Nat) (req : AcceptInvitation)
        (moment : Moment) (accepted : Accepted) (account : Nat × Bool) (joined : Nat × Bool × Bool)
        (target : AcceptanceTarget),
        s.Constrained → s.invitationByToken req.token = some found →
        (acceptInvitation found req moment).Commits s accepted after →
        (upsertVerifiedAccount req.acceptor moment.now).Commits s account verified →
        (ensureMembership account.1 req.profile.membershipId moment).Commits verified joined
          entered →
        (prepareAcceptance req.token req.acceptor fresh moment.today).Commits s target s →
        target.existingCurrent = joined.2.2 := by
  intro agree
  obtain ⟨accepted, accepts⟩ := namelessFau_accepts
  have prepares : (prepareAcceptance 1 ⟨"kari@example.no"⟩ 9 june.today).Commits namelessFau
      ⟨1, false⟩ namelessFau := by
    unfold Commits
    decide +kernel
  have same := agree _ _ _ _ 1 9 kariAccepts june _ _ _ _ namelessFau_constrained
    (by decide +kernel) accepts namelessFau_verifies verifiedFau_joins prepares
  exact absurd same (by decide)

theorem prepareAcceptance_namelessFau
    : ∃ target, (prepareAcceptance 1 ⟨"kari@example.no"⟩ 9 june.today).Commits namelessFau target
          namelessFau
        ∧ (target.existingCurrent = true
          ↔ namelessFau.StandsAlike ⟨"kari@example.no"⟩ june.today) := by
  obtain ⟨accepted, accepts⟩ := namelessFau_accepts
  exact prepareAcceptance_iff namelessFau_constrained 9 (by decide +kernel) accepts
    namelessFau_verifies verifiedFau_joins

end

end FauPortalen.Membership

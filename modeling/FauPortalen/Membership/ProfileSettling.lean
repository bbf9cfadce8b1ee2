import FauPortalen.Membership.EndDays

/-! The name and address of an ended membership: an ended membership is stamped with the date its
end and its account's setting give, and past that date every statement that settles it clears them.
-/

set_option linter.unusedSectionVars false

namespace FauPortalen.Membership

open Foundations Transaction

section

variable [OsloZone] {moment : Moment} {s s' after : Tables} {membershipId : Nat}
  {today day until_ : Date} {m m' : MembershipRow}

-----------------------------------------------------------------------------------------
-- The date the fields go

/-- The date the membership's fields go: its account's period from the day it ended. -/
def Tables.KeptUntil (s : Tables) (m : MembershipRow) (date : Option Date) : Prop :=
  ∃ a ∈ s.accounts, a.id = m.accountId
    ∧ ∃ day, s.EndsOn m.id day ∧ retainedUntil day a.retentionMonths = date

/-- The membership has ended, and its fields are no longer kept. -/
def Tables.Past (s : Tables) (today : Date) (m : MembershipRow) : Prop :=
  s.membershipEnded m today = true ∧ ∃ date, s.KeptUntil m date ∧ date.filter (today < ·) = none

/-- A membership's row in time: a revoked one has no role that goes on, and a stamped one has ended
and is kept until the stamped date.
-/
structure Tables.RowTimely (s : Tables) (today : Date) (m : MembershipRow) : Prop where
  spent : m.revokedAt.isSome → ∀ ra ∈ s.assignments, ra.membershipId = m.id →
    ra.revokedAt = none → ra.period.endsOnExclusive ≤ today
  stamped : ∀ until_, m.profileRetainedUntil = some until_ →
    s.membershipEnded m today = true ∧ s.KeptUntil m (some until_)

/-- What an FAU keeps of its memberships on a day, whatever their stamps. -/
structure Tables.Steady (s : Tables) (today : Date) : Prop where
  accountIds : (s.accounts.map (·.id)).Nodup
  membershipIds : (s.memberships.map (·.id)).Nodup
  admissible : ∀ m ∈ s.memberships, m.admissible = true
  spent : ∀ m ∈ s.memberships, m.revokedAt.isSome → ∀ ra ∈ s.assignments,
    ra.membershipId = m.id → ra.revokedAt = none → ra.period.endsOnExclusive ≤ today
  revocations : ∀ ra ∈ s.assignments, ∀ at_, ra.revokedAt = some at_ → osloToday at_ ≤ today
  assigned : ∀ m ∈ s.memberships, ∃ ra ∈ s.assignments, ra.membershipId = m.id
  known : ∀ ra ∈ s.assignments, ∃ r, s.role ra.roleId = some r

/-- Between any two operations, every stamp is right too. -/
structure Tables.Tidy (s : Tables) (today : Date) : Prop extends s.Steady today where
  stamped : ∀ m ∈ s.memberships, ∀ until_, m.profileRetainedUntil = some until_ →
    s.membershipEnded m today = true ∧ s.KeptUntil m (some until_)

theorem Tables.EndsOn.of_same (same : s'.assignments = s.assignments)
    (ends : s.EndsOn membershipId day)
    : s'.EndsOn membershipId day := by
  cases ends with
  | held inside theirs ran last => exact .held (same ▸ inside) theirs ran (same ▸ last)
  | revoked none_ inside theirs revoked last =>
      exact .revoked (same ▸ none_) (same ▸ inside) theirs revoked (same ▸ last)

theorem Tables.membershipEnded_congr (same : s'.assignments = s.assignments)
    (id : m'.id = m.id) (revokedAt : m'.revokedAt = m.revokedAt)
    : s'.membershipEnded m' today = s.membershipEnded m today := by
  rw [Tables.membershipEnded, Tables.membershipEnded, same, id, revokedAt]

theorem Tables.KeptUntil.of_same {date : Option Date} (kept : s.KeptUntil m date)
    (assignments : s'.assignments = s.assignments) (accounts : s'.accounts = s.accounts)
    (id : m'.id = m.id) (accountId : m'.accountId = m.accountId)
    : s'.KeptUntil m' date := by
  obtain ⟨a, present, account, day, ends, retained⟩ := kept
  exact ⟨a, accounts ▸ present, account.trans accountId.symm, day,
    id ▸ ends.of_same assignments, retained⟩

theorem Tables.RowTimely.of_same (timely : s.RowTimely today m)
    (assignments : s'.assignments = s.assignments) (accounts : s'.accounts = s.accounts)
    : s'.RowTimely today m where
  spent := assignments ▸ timely.spent
  stamped until_ stamp := by
    obtain ⟨ended, kept⟩ := timely.stamped until_ stamp
    exact ⟨(Tables.membershipEnded_congr assignments rfl rfl).trans ended,
      kept.of_same assignments accounts rfl rfl⟩

namespace Tables.Steady

variable (steady : s.Steady today)

include steady

theorem row_eq (held : m ∈ s.memberships) (held' : m' ∈ s.memberships) (same : m'.id = m.id)
    : m' = m :=
  List.inj_on_of_nodup_map steady.membershipIds held' held same

theorem found (held : m ∈ s.memberships) : s.membership m.id = some m :=
  (findRow_eq_some steady.membershipIds).mpr ⟨held, rfl⟩

/-- Every role of an ended membership is over. -/
theorem allOver (held : m ∈ s.memberships) (ended : s.membershipEnded m today = true)
    : s.Over m.id today := by
  intro ra inside theirs
  refine ⟨fun live => ?_, steady.revocations ra inside⟩
  rcases Tables.membershipEnded_iff.mp ended with revoked | spent
  · exact steady.spent m held revoked ra inside theirs live
  · exact spent ra inside theirs live

theorem endedOnFor_endsOn (held : m ∈ s.memberships) (ended : s.membershipEnded m today = true)
    : ∃ day, s.endedOnFor m.id today = some day ∧ s.EndsOn m.id day :=
  Membership.endedOnFor_endsOn (steady.allOver held ended) steady.known (steady.assigned m held)
    (steady.found held)

/-- An ended membership has one date on which its fields go. -/
theorem keptUntil_unique {date date' : Option Date} (kept : s.KeptUntil m date)
    (kept' : s.KeptUntil m date')
    : date' = date := by
  obtain ⟨a, present, account, day, ends, rfl⟩ := kept
  obtain ⟨a', present', account', day', ends', rfl⟩ := kept'
  rw [List.inj_on_of_nodup_map steady.accountIds present' present (account'.trans account.symm),
    ends'.unique ends]

/-- The date as the service reads it. -/
theorem keptUntil_of_reads {months : RetentionMonths} {ended : Date} (held : m ∈ s.memberships)
    (gone : s.membershipEnded m today = true) (setting : s.accountRetention m.id = some months)
    (reads : s.endedOnFor m.id today = some ended)
    : s.KeptUntil m (retainedUntil ended months) := by
  rw [Tables.accountRetention, steady.found held] at setting
  obtain ⟨a, account, rfl⟩ := Option.map_eq_some_iff.mp setting
  obtain ⟨present, one⟩ := of_findRow account
  obtain ⟨day, reads', ends⟩ := steady.endedOnFor_endsOn held gone
  obtain rfl : ended = day := Option.some.inj (reads.symm.trans reads')
  exact ⟨a, present, one, ended, ends, rfl⟩

theorem reads_of_keptUntil {date : Option Date} (held : m ∈ s.memberships)
    (gone : s.membershipEnded m today = true) (kept : s.KeptUntil m date)
    : ∃ months ended, s.accountRetention m.id = some months
        ∧ s.endedOnFor m.id today = some ended ∧ retainedUntil ended months = date := by
  obtain ⟨a, present, account, day, ends, rfl⟩ := kept
  obtain ⟨ended, reads, ends'⟩ := steady.endedOnFor_endsOn held gone
  have found : s.account m.accountId = some a :=
    (findRow_eq_some steady.accountIds).mpr ⟨present, account⟩
  refine ⟨a.retentionMonths, ended, ?_, reads, by rw [ends'.unique ends]⟩
  rw [Tables.accountRetention, steady.found held, Option.bind_some, found, Option.map_some]

/-- The effective date is the one the end gives, until it has come. -/
theorem effectiveKeepUntil_commits {stamped result : Option Date} (held : m ∈ s.memberships)
    (ended : s.membershipEnded m today = true)
    (stamp : ∀ until_, stamped = some until_ → s.KeptUntil m (some until_))
    (commits : (effectiveKeepUntil m.id stamped today).Commits s result after)
    : after = s ∧ ∃ date, s.KeptUntil m date ∧ result = date.filter (today < ·) := by
  unfold effectiveKeepUntil at commits
  split at commits
  · next until_ =>
      obtain ⟨rfl, rfl⟩ := commits_pure.mp commits
      exact ⟨rfl, _, stamp until_ rfl, by rw [Option.filter_some]; simp⟩
  · simp only [commits_select_bind, commits_expect_bind, commits_pure] at commits
    obtain ⟨months, setting, day, reads, rfl, rfl⟩ := commits
    exact ⟨rfl, _, steady.keptUntil_of_reads held ended setting reads, rfl⟩

end Tables.Steady

theorem Tables.Tidy.timely (tidy : s.Tidy today) (held : m ∈ s.memberships)
    : s.RowTimely today m :=
  ⟨tidy.spent m held, tidy.stamped m held⟩

-----------------------------------------------------------------------------------------
-- Changing rows

/-- Rows of memberships change, and nothing else: each changed row is admissible and spent. -/
theorem Tables.Steady.withRows {change : MembershipRow → MembershipRow} (steady : s.Steady today)
    (keeps : ∀ m ∈ s.memberships, (change m).id = m.id)
    (admissible : ∀ m ∈ s.memberships, (change m).admissible = true)
    (spent : ∀ m ∈ s.memberships, (change m).revokedAt.isSome → ∀ ra ∈ s.assignments,
      ra.membershipId = (change m).id → ra.revokedAt = none → ra.period.endsOnExclusive ≤ today)
    : ({ s with memberships := s.memberships.map change } : Tables).Steady today where
  accountIds := steady.accountIds
  membershipIds := by
    have same : (s.memberships.map change).map (·.id) = s.memberships.map (·.id) := by
      rw [List.map_map]
      exact List.map_congr_left keeps
    exact same ▸ steady.membershipIds
  admissible m present := by
    obtain ⟨row, there, rfl⟩ := List.mem_map.mp present
    exact admissible row there
  spent m present := by
    obtain ⟨row, there, rfl⟩ := List.mem_map.mp present
    exact spent row there
  revocations := steady.revocations
  assigned m present := by
    obtain ⟨row, there, rfl⟩ := List.mem_map.mp present
    rw [keeps row there]
    exact steady.assigned row there
  known := steady.known

/-- Each changed row is timely. -/
theorem Tables.Tidy.withRows {change : MembershipRow → MembershipRow} (tidy : s.Tidy today)
    (keeps : ∀ m ∈ s.memberships, (change m).id = m.id)
    (admissible : ∀ m ∈ s.memberships, (change m).admissible = true)
    (timely : ∀ m ∈ s.memberships, s.RowTimely today (change m))
    : ({ s with memberships := s.memberships.map change } : Tables).Tidy today where
  toSteady := tidy.toSteady.withRows keeps admissible fun m held => (timely m held).spent
  stamped m present := by
    obtain ⟨row, there, rfl⟩ := List.mem_map.mp present
    exact Tables.RowTimely.stamped ((timely row there).of_same rfl rfl)

/-- A changed row is timely where the change is that of a timely row, up to the trigger. -/
theorem Tables.Tidy.updates {picks : MembershipRow → Bool}
    {change : MembershipRow → MembershipRow} {u : Unit} (tidy : s.Tidy today)
    (commits : (updateMemberships picks change).Commits s u after)
    (keeps : ∀ m, (change m).id = m.id)
    (timely : ∀ m ∈ s.memberships, picks m → s.RowTimely today (change m))
    : after.Tidy today := by
  obtain ⟨admissible, rfl⟩ := commits_updateMemberships.mp commits
  refine tidy.withRows (fun m held => ?_) (fun m held => ?_) fun m held => ?_
  · unfold MembershipRow.retentionFollowsFields
    split
    · split <;> exact keeps m
    · rfl
  · split
    · next picked => exact admissible m held picked
    · exact tidy.admissible m held
  · split
    · next picked =>
        have changed := timely m held picked
        unfold MembershipRow.retentionFollowsFields
        split
        · exact ⟨changed.spent, fun _ stamp => absurd stamp.symm (by simp)⟩
        · exact changed
    · exact tidy.timely held

/-- What is timely stays so where the row keeps its id, account, revocation and stamp. -/
theorem Tables.RowTimely.of_row (timely : s.RowTimely today m) (id : m'.id = m.id)
    (accountId : m'.accountId = m.accountId) (revokedAt : m'.revokedAt = m.revokedAt)
    (stamp : m'.profileRetainedUntil = none ∨ m'.profileRetainedUntil = m.profileRetainedUntil)
    : s.RowTimely today m' where
  spent := by
    rw [id, revokedAt]
    exact timely.spent
  stamped until_ stamped := by
    rcases stamp with none_ | same
    · rw [none_] at stamped
      cases stamped
    · obtain ⟨ended, kept⟩ := timely.stamped until_ (same ▸ stamped)
      exact ⟨(Tables.membershipEnded_congr rfl id revokedAt).trans ended,
        kept.of_same rfl rfl id accountId⟩

/-- A row is timely with the date its end gives, once it has ended. -/
theorem Tables.RowTimely.stampedWith (timely : s.RowTimely today m)
    (ended : s.membershipEnded m today = true) (kept : s.KeptUntil m (some until_))
    : s.RowTimely today { m with profileRetainedUntil := some until_ } where
  spent := timely.spent
  stamped other stamp := by
    obtain rfl : until_ = other := Option.some.inj stamp
    exact ⟨(Tables.membershipEnded_congr rfl rfl rfl).trans ended, kept.of_same rfl rfl rfl rfl⟩

-----------------------------------------------------------------------------------------
-- Settling one profile

def MembershipRow.cleared (m : MembershipRow) : MembershipRow :=
  { m with
    encryptedDisplayName := none
    encryptedContactEmail := none
    profileRetainedUntil := none }

/-- The tables with the row in the place of the one with its id. -/
def Tables.withRow (s : Tables) (m : MembershipRow) : Tables :=
  { s with memberships := s.memberships.map (changeAt MembershipRow.id m.id fun _ => m) }

/-- How a membership's profile is settled, and the row that this leaves. -/
inductive Tables.Settles (s : Tables) (today : Date) (m : MembershipRow)
    : Settled → MembershipRow → Prop
  | absent (nothing : m.nameErasedAt.isSome ∨ m.hasFields = false) : s.Settles today m .absent m
  | active (running : s.membershipEnded m today = false) : s.Settles today m .active m
  | retained {until_ : Date} (ended : s.membershipEnded m today = true)
      (kept : s.KeptUntil m (some until_)) (later : today < until_)
    : s.Settles today m .retained { m with profileRetainedUntil := some until_ }
  | cleared (past : s.Past today m) : s.Settles today m .cleared m.cleared

theorem Tables.Settles.id {settled : Settled} (settles : s.Settles today m settled m')
    : m'.id = m.id := by
  cases settles <;> rfl

theorem mem_withRow {row : MembershipRow} (present : row ∈ (s.withRow m).memberships)
    : row = m ∨ row ∈ s.memberships ∧ row.id ≠ m.id := by
  obtain ⟨old, there, rfl⟩ := List.mem_map.mp present
  by_cases same : old.id = m.id
  · exact .inl (changeAt_of_eq same)
  · rw [changeAt_of_ne same]
    exact .inr ⟨there, same⟩

theorem Tables.Steady.withRow_self (steady : s.Steady today) (held : m ∈ s.memberships)
    : s.withRow m = s := by
  have same : s.memberships.map (changeAt MembershipRow.id m.id fun _ => m) = s.memberships := by
    refine (List.map_congr_left fun row there => ?_).trans s.memberships.map_id
    by_cases one : row.id = m.id
    · rw [changeAt_of_eq one, steady.row_eq held there one]
      rfl
    · exact changeAt_of_ne one
  rw [Tables.withRow, same]

theorem Tables.Steady.updateMembership_commits {change : MembershipRow → MembershipRow} {u : Unit}
    (steady : s.Steady today) (held : m ∈ s.memberships) (one : m.id = membershipId)
    (commits : (updateMembership membershipId change).Commits s u after)
    (changed : m.retentionFollowsFields (change m) = m') (keeps : m'.id = m.id)
    : after = s.withRow m' ∧ m'.admissible = true := by
  subst one
  obtain ⟨admissible, rfl⟩ := commits_updateMemberships.mp commits
  refine ⟨?_, changed ▸ admissible m held (decide_eq_true rfl)⟩
  have same : (s.memberships.map fun row =>
        if row.id = m.id then row.retentionFollowsFields (change row) else row)
      = s.memberships.map (changeAt MembershipRow.id m'.id fun _ => m') := by
    refine List.map_congr_left fun row there => ?_
    rw [keeps]
    by_cases here : row.id = m.id
    · rw [changeAt_of_eq here, if_pos here, steady.row_eq held there here, changed]
    · rw [changeAt_of_ne here, if_neg here]
  simp only [decide_eq_true_eq, same, Tables.withRow]

/-- The trigger leaves an update of neither fields nor erasure alone. -/
theorem retentionFollowsFields_same {old new : MembershipRow}
    (fields : new.hasFields = old.hasFields)
    (erased : new.nameErasedAt = old.nameErasedAt)
    : old.retentionFollowsFields new = new := by
  rw [MembershipRow.retentionFollowsFields, fields, erased]
  cases old.hasFields <;> cases old.nameErasedAt <;> rfl

theorem clearProfile_commits {u : Unit} (steady : s.Steady today) (held : m ∈ s.memberships)
    (commits : (clearProfile m.id).Commits s u after)
    : after = s.withRow m.cleared ∧ m.cleared.admissible = true := by
  refine steady.updateMembership_commits held rfl commits ?_ rfl
  unfold MembershipRow.retentionFollowsFields
  split <;> rfl

theorem settleProfile_commits {settled : Settled} (tidy : s.Tidy moment.today)
    (commits : (settleProfile membershipId moment).Commits s settled after)
    : ∃ m ∈ s.memberships, m.id = membershipId
        ∧ ∃ m', s.Settles moment.today m settled m' ∧ after = s.withRow m'
            ∧ m'.admissible = true := by
  simp only [settleProfile, commits_select_bind, commits_expect_bind] at commits
  obtain ⟨m, found, commits⟩ := commits
  obtain ⟨held, one⟩ := of_findRow found
  refine ⟨m, held, one, ?_⟩
  have unchanged := tidy.withRow_self held
  rcases commits_ite.mp commits with ⟨nothing, returns⟩ | ⟨_, commits⟩
  · obtain ⟨rfl, rfl⟩ := commits_pure.mp returns
    exact ⟨m, .absent (by simpa using nothing), unchanged.symm, tidy.admissible m held⟩
  rcases commits_ite.mp commits with ⟨running, returns⟩ | ⟨ended, commits⟩
  · obtain ⟨rfl, rfl⟩ := commits_pure.mp returns
    exact ⟨m, .active (by simpa using running), unchanged.symm, tidy.admissible m held⟩
  obtain ⟨result, kept, reads, commits⟩ := commits_bind.mp commits
  have ended : s.membershipEnded m moment.today = true := by simpa using ended
  rw [← one] at reads
  obtain ⟨rfl, date, date_, rfl⟩ := tidy.effectiveKeepUntil_commits held ended
    (fun until_ stamp => (tidy.stamped m held until_ stamp).2) reads
  split at commits
  · next until_ stamped given stamp =>
      obtain ⟨rfl, rfl⟩ := commits_pure.mp commits
      obtain ⟨known, later⟩ := Option.filter_eq_some_iff.mp given
      have date_ := known ▸ date_
      obtain ⟨_, kept⟩ := tidy.stamped m held stamped stamp
      obtain rfl : stamped = until_ := Option.some.inj (tidy.keptUntil_unique date_ kept)
      refine ⟨_, .retained ended date_ (of_decide_eq_true later), ?_⟩
      rw [← stamp]
      exact ⟨unchanged.symm, tidy.admissible m held⟩
  · next until_ given stamp =>
      obtain ⟨_, _, stamps, returns⟩ := commits_bind.mp commits
      obtain ⟨rfl, rfl⟩ := commits_pure.mp returns
      obtain ⟨known, later⟩ := Option.filter_eq_some_iff.mp given
      refine ⟨_, .retained ended (known ▸ date_) (of_decide_eq_true later), ?_⟩
      exact tidy.updateMembership_commits held one stamps (retentionFollowsFields_same rfl rfl)
        rfl
  · next stamp given =>
      obtain ⟨_, _, clears, returns⟩ := commits_bind.mp commits
      obtain ⟨rfl, rfl⟩ := commits_pure.mp returns
      rw [← one] at clears
      exact ⟨_, .cleared ⟨ended, date, date_, given⟩,
        clearProfile_commits tidy.toSteady held clears⟩

/-- A row that a settling leaves is timely and admissible. -/
theorem Tables.Tidy.settles {settled : Settled} (tidy : s.Tidy today)
    (held : m ∈ s.memberships) (settles : s.Settles today m settled m')
    : s.RowTimely today m' := by
  have timely := tidy.timely held
  cases settles with
  | absent => exact timely
  | active => exact timely
  | retained ended kept later => exact timely.stampedWith ended kept
  | cleared past => exact timely.of_row rfl rfl rfl (.inl rfl)

-----------------------------------------------------------------------------------------
-- What keeps the order

theorem Tables.Steady.withRow (steady : s.Steady today) (admissible : m'.admissible = true)
    (spent : m'.revokedAt.isSome → ∀ ra ∈ s.assignments, ra.membershipId = m'.id →
      ra.revokedAt = none → ra.period.endsOnExclusive ≤ today)
    : (s.withRow m').Steady today := by
  refine steady.withRows (fun other there => ?_) (fun other there => ?_) fun other there => ?_
  · by_cases same : other.id = m'.id
    · rw [changeAt_of_eq same, same]
    · rw [changeAt_of_ne same]
  · unfold changeAt
    split
    · exact admissible
    · exact steady.admissible other there
  · unfold changeAt
    split
    · exact spent
    · exact steady.spent other there

theorem Tables.Tidy.withRow (tidy : s.Tidy today) (admissible : m'.admissible = true)
    (timely : s.RowTimely today m')
    : (s.withRow m').Tidy today where
  toSteady := tidy.toSteady.withRow admissible timely.spent
  stamped row present := by
    rcases mem_withRow present with rfl | ⟨there, _⟩
    · exact Tables.RowTimely.stamped (timely.of_same rfl rfl)
    · exact Tables.RowTimely.stamped ((tidy.timely there).of_same rfl rfl)

theorem Tables.Tidy.of_same (tidy : s.Tidy today)
    (memberships : s'.memberships = s.memberships) (assignments : s'.assignments = s.assignments)
    (accounts : s'.accounts = s.accounts) (roles : s'.roles = s.roles)
    : s'.Tidy today where
  accountIds := accounts ▸ tidy.accountIds
  membershipIds := memberships ▸ tidy.membershipIds
  admissible := memberships ▸ tidy.admissible
  spent := by
    rw [memberships, assignments]
    exact tidy.spent
  revocations := assignments ▸ tidy.revocations
  assigned := by
    rw [memberships, assignments]
    exact tidy.assigned
  known := by
    intro ra inside
    rw [Tables.role, roles]
    exact tidy.known ra (assignments ▸ inside)
  stamped m held := ((tidy.timely (memberships ▸ held)).of_same assignments accounts).stamped

/-- What was tidy still is. -/
def Tables.KeepsTidy (today : Date) (s s' : Tables) : Prop := s.Tidy today → s'.Tidy today

instance : IsPreorder Tables (Tables.KeepsTidy today) where
  refl _ := id
  trans _ _ _ first second := second ∘ first

theorem settleProfile_keepsTidy
    : Within (Tables.KeepsTidy moment.today) (settleProfile membershipId moment) := by
  intro s settled after commits tidy
  obtain ⟨m, held, _, m', settles, rfl, admissible⟩ := settleProfile_commits tidy commits
  exact tidy.withRow admissible (tidy.settles held settles)

/-- Profiles settled one after the other. -/
inductive SettlesAll (moment : Moment) : List Nat → Tables → Tables → Prop
  | nil {s : Tables} : SettlesAll moment [] s s
  | cons {id : Nat} {ids : List Nat} {settled : Settled} {s middle after : Tables}
      (settles : (settleProfile id moment).Commits s settled middle)
      (others : SettlesAll moment ids middle after)
    : SettlesAll moment (id :: ids) s after

theorem forM_settlesAll {ids : List Nat} {u : Unit}
    (commits : (forM ids fun id => do let _ ← settleProfile id moment).Commits s u after)
    : SettlesAll moment ids s after := by
  induction ids generalizing s with
  | nil => exact commits_forM_nil.mp commits ▸ .nil
  | cons id rest ih =>
      obtain ⟨middle, first, others⟩ := commits_forM_cons.mp commits
      obtain ⟨_, _, settles, returns⟩ := commits_bind.mp first
      obtain ⟨_, rfl⟩ := commits_pure.mp returns
      exact .cons settles (ih others)

theorem foldlM_settlesAll {ids : List Nat} {count : Nat → Settled → Nat} {before cleared : Nat}
    (commits : (ids.foldlM (fun cleared id => do
      let settled ← settleProfile id moment
      pure (count cleared settled)) before).Commits s cleared after)
    : SettlesAll moment ids s after := by
  induction ids generalizing s before with
  | nil => exact (commits_foldlM_nil.mp commits).2 ▸ .nil
  | cons id rest ih =>
      obtain ⟨_, middle, first, others⟩ := commits_foldlM_cons.mp commits
      obtain ⟨_, _, settles, returns⟩ := commits_bind.mp first
      obtain ⟨_, rfl⟩ := commits_pure.mp returns
      exact .cons settles (ih others)

theorem SettlesAll.tidy {ids : List Nat} (all : SettlesAll moment ids s after)
    (tidy : s.Tidy moment.today)
    : after.Tidy moment.today := by
  induction all with
  | nil => exact tidy
  | cons settles others ih => exact ih (settleProfile_keepsTidy _ _ _ settles tidy)

theorem SettlesAll.changes {ids : List Nat} (all : SettlesAll moment ids s after)
    : s.Changes moment.now [.profiles] after := by
  induction all with
  | nil => exact .refl _ _ _
  | cons settles others ih => exact (settleProfile_within (by simp) _ _ _ settles).trans ih

theorem updateMemberships_keepsTidy {picks : MembershipRow → Bool}
    {change : MembershipRow → MembershipRow} (keeps : ∀ m, (change m).id = m.id)
    (timely : ∀ (s : Tables) m, s.RowTimely today m → s.RowTimely today (change m))
    : Within (Tables.KeepsTidy today) (updateMemberships picks change) :=
  fun s _ _ commits tidy =>
    tidy.updates commits keeps fun m held _ => timely s m (tidy.timely held)

theorem updateMembership_keepsTidy {change : MembershipRow → MembershipRow}
    (keeps : ∀ m, (change m).id = m.id)
    (timely : ∀ (s : Tables) m, s.RowTimely today m → s.RowTimely today (change m))
    : Within (Tables.KeepsTidy today) (updateMembership membershipId change) :=
  updateMemberships_keepsTidy keeps timely

theorem removeFromAllGroups_keepsTidy {at_ : Timestamp}
    : Within (Tables.KeepsTidy today) (removeFromAllGroups membershipId at_) := by
  intro s u after commits tidy
  obtain rfl := commits_update.mp commits
  exact tidy.of_same rfl rfl rfl rfl

theorem reopenProfile_keepsTidy
    : Within (Tables.KeepsTidy moment.today) (reopenProfile membershipId moment) := by
  refine .bind .select fun _ => .bind .expect fun _ => .bind .select fun _ =>
    .bind (.onlyIf removeFromAllGroups_keepsTidy) fun _ => .bind settleProfile_keepsTidy fun _ =>
    .bind (updateMembership_keepsTidy (fun _ => rfl) fun s m _ => ⟨?_, ?_⟩) fun _ => .pure
  · exact fun revoked => absurd revoked (by simp)
  · exact fun _ stamp => absurd stamp.symm (by simp)

theorem clearEndedProfiles_keepsTidy
    : Within (Tables.KeepsTidy moment.today) (clearEndedProfiles moment) :=
  .bind .select fun _ => .ite
    (.bind lockTenant_within fun _ => .bind .select fun _ =>
      .bind (.foldlM fun _ _ => .bind settleProfile_keepsTidy fun _ => .pure) fun _ =>
      .bind .select fun _ => .bind (.forM fun _ => removeFromAllGroups_keepsTidy) fun _ => .pure)
    .pure

theorem eraseMemberNames_keepsTidy {accountId : Nat}
    : Within (Tables.KeepsTidy moment.today) (eraseMemberNames accountId moment) :=
  .bind .select fun _ => .ite
    (.bind lockTenant_within fun _ => updateMemberships_keepsTidy (fun _ => rfl)
      fun _ _ timely => timely.of_row rfl rfl rfl (.inl rfl))
    .pure

theorem setDisplayName_keepsTidy {req : SetDisplayName}
    : Within (Tables.KeepsTidy moment.today) (setDisplayName req moment) :=
  .bind .require fun _ => .bind lockTenant_within fun _ => .bind requireOpen_within fun _ =>
    .bind (.ite (.bind .select fun _ => .require) requireAdmin_within) fun _ =>
    .bind .select fun _ => .bind .expect fun _ => .bind .require fun _ =>
    .bind .select fun _ => .bind .require fun _ =>
    updateMembership_keepsTidy (fun _ => rfl) fun _ _ timely =>
      timely.of_row rfl rfl rfl (.inr rfl)

theorem setContactEmail_keepsTidy {req : SetContactEmail}
    : Within (Tables.KeepsTidy moment.today) (setContactEmail req moment) :=
  .bind checkGivenContactEmail_within fun _ => .bind lockTenant_within fun _ =>
    .bind (.onlyIf requireOpen_within) fun _ => .bind .select fun _ => .bind .require fun _ =>
    .bind .select fun _ => .bind .expect fun _ => .bind .require fun _ =>
    updateMembership_keepsTidy (fun _ => rfl) fun _ _ timely =>
      timely.of_row rfl rfl rfl (.inr rfl)

-----------------------------------------------------------------------------------------
-- A new setting

/-- A restamped row has the date of its end under the account's setting, or no fields. -/
theorem restampProfile_commits {months : RetentionMonths} {stamped : Nat × Date} {u : Unit}
    (steady : s.Steady moment.today) (held : m ∈ s.memberships) (one : m.id = stamped.1)
    (stamp : m.profileRetainedUntil = some stamped.2)
    (ended : s.membershipEnded m moment.today = true)
    (setting : ∃ a ∈ s.accounts, a.id = m.accountId ∧ a.retentionMonths = months)
    (commits : (restampProfile months moment stamped).Commits s u after)
    : ∃ m', after = s.withRow m' ∧ m'.admissible = true
        ∧ (m' = m.cleared
          ∨ ∃ until_, m' = { m with profileRetainedUntil := some until_ }
              ∧ s.KeptUntil m (some until_)) := by
  simp only [restampProfile, commits_select_bind, commits_expect_bind] at commits
  obtain ⟨day, reads, commits⟩ := commits
  rw [← one] at reads commits
  obtain ⟨a, present, account, rfl⟩ := setting
  obtain ⟨day', reads', ends⟩ := steady.endedOnFor_endsOn held ended
  obtain rfl : day = day' := Option.some.inj (reads.symm.trans reads')
  split at commits
  · obtain ⟨rfl, admissible⟩ := clearProfile_commits steady held commits
    exact ⟨_, rfl, admissible, .inl rfl⟩
  · next until_ given =>
      have kept : s.KeptUntil m (some until_) :=
        ⟨a, present, account, day, ends, (keepUntil_eq_some.mp given).1⟩
      rcases commits_ite.mp commits with ⟨_, stamps⟩ | ⟨same, returns⟩
      · obtain ⟨rfl, admissible⟩ := steady.updateMembership_commits held rfl stamps
          (retentionFollowsFields_same rfl rfl) rfl
        exact ⟨_, rfl, admissible, .inr ⟨until_, rfl, kept⟩⟩
      · obtain ⟨_, rfl⟩ := commits_pure.mp returns
        obtain rfl : until_ = stamped.2 := not_not.mp same
        refine ⟨m, (steady.withRow_self held).symm, steady.admissible m held, .inr ⟨_, ?_, kept⟩⟩
        rw [← stamp]

/-- The stamped rows still to be restamped. -/
structure Tables.Restampable (s : Tables) (today : Date) (months : RetentionMonths)
    (pending : List (Nat × Date))
    : Prop where
  distinct : (pending.map (·.1)).Nodup
  rows : ∀ stamped ∈ pending, ∃ m ∈ s.memberships, m.id = stamped.1
    ∧ m.profileRetainedUntil = some stamped.2 ∧ s.membershipEnded m today = true
    ∧ ∃ a ∈ s.accounts, a.id = m.accountId ∧ a.retentionMonths = months
  others : ∀ m ∈ s.memberships, m.id ∉ pending.map (·.1) → s.RowTimely today m

/-- Restamping every row whose stamp may be wrong puts the stamps right, by induction on the rows
still to be restamped.
-/
theorem restampProfiles_tidy {months : RetentionMonths} {pending : List (Nat × Date)} {u : Unit}
    (steady : s.Steady moment.today) (rows : s.Restampable moment.today months pending)
    (commits : (forM pending (restampProfile months moment)).Commits s u after)
    : after.Tidy moment.today := by
  induction pending generalizing s with
  | nil =>
      obtain rfl := commits_forM_nil.mp commits
      exact ⟨steady, fun m held => (rows.others m held List.not_mem_nil).stamped⟩
  | cons stamped rest ih =>
      obtain ⟨middle, first, others⟩ := commits_forM_cons.mp commits
      obtain ⟨m, held, one, stamp, ended, setting⟩ := rows.rows stamped List.mem_cons_self
      obtain ⟨m', rfl, admissible, changed⟩ :=
        restampProfile_commits steady held one stamp ended setting first
      have apart := List.nodup_cons.mp rows.distinct
      have id : m'.id = m.id := by rcases changed with rfl | ⟨_, rfl, _⟩ <;> rfl
      have timely : s.RowTimely moment.today m' := by
        rcases changed with rfl | ⟨until_, rfl, kept⟩
        · exact ⟨steady.spent m held,
            fun _ stamp => absurd stamp.symm (by simp [MembershipRow.cleared])⟩
        · refine ⟨steady.spent m held, fun other stamp => ?_⟩
          obtain rfl : until_ = other := Option.some.inj stamp
          exact ⟨(Tables.membershipEnded_congr rfl rfl rfl).trans ended,
            kept.of_same rfl rfl rfl rfl⟩
      refine ih (steady.withRow admissible timely.spent) ⟨apart.2, fun later inside => ?_,
        fun row present new => ?_⟩ others
      · obtain ⟨row, there, same, stamp', ended', setting'⟩ :=
          rows.rows later (List.mem_cons_of_mem _ inside)
        refine ⟨row, ?_, same, stamp',
          (Tables.membershipEnded_congr rfl rfl rfl).trans ended', setting'⟩
        refine List.mem_map.mpr ⟨row, there, changeAt_of_ne fun here => ?_⟩
        have key : later.1 = stamped.1 := same.symm.trans (here.trans (id.trans one))
        exact apart.1 (List.mem_map.mpr ⟨later, inside, key⟩)
      · rcases mem_withRow present with rfl | ⟨there, differs⟩
        · exact timely.of_same rfl rfl
        · refine (rows.others row there fun used => ?_).of_same rfl rfl
          rcases List.mem_cons.mp used with here | later
          · exact differs (here.trans (one.symm.trans id.symm))
          · exact new later

/-- A stamped row holds a field and is not erased. -/
theorem MembershipRow.admissible_stamped (admissible : m.admissible = true)
    (stamp : m.profileRetainedUntil = some until_)
    : m.nameErasedAt = none ∧ m.hasFields = true := by
  simp only [MembershipRow.admissible, stamp, Option.isNone_some, Bool.false_or, Bool.or_false,
    Bool.and_eq_true, Option.isNone_iff_eq_none] at admissible
  exact ⟨admissible.2, admissible.1.1.2⟩

theorem mem_stampedProfiles {accountId : Nat} {stamped : Nat × Date}
    : stamped ∈ s.stampedProfiles accountId today
      ↔ ∃ m ∈ s.memberships, m.accountId = accountId ∧ s.membershipEnded m today = true
          ∧ m.profileRetainedUntil = some stamped.2 ∧ m.id = stamped.1 := by
  simp only [Tables.stampedProfiles, mem_sortOn, List.mem_filterMap, List.mem_filter,
    Bool.and_eq_true, decide_eq_true_eq, Option.map_eq_some_iff]
  constructor
  · rintro ⟨m, ⟨held, theirs, ended⟩, until_, stamp, rfl⟩
    exact ⟨m, held, theirs, ended, stamp, rfl⟩
  · rintro ⟨m, held, theirs, ended, stamp, one⟩
    exact ⟨m, ⟨held, theirs, ended⟩, stamped.2, stamp, by rw [one]⟩

theorem mem_heldProfiles {accountId : Nat}
    : membershipId ∈ s.heldProfiles accountId
      ↔ ∃ m ∈ s.memberships, m.accountId = accountId ∧ m.nameErasedAt = none
          ∧ m.hasFields = true ∧ m.id = membershipId := by
  simp [Tables.heldProfiles, and_assoc]

theorem Tables.Steady.stampedProfiles_distinct {accountId : Nat} (steady : s.Steady today)
    : ((s.stampedProfiles accountId today).map (·.1)).Nodup := by
  have ids (keep : MembershipRow → Bool) : ((s.memberships.filter keep).map (·.id)).Nodup :=
    steady.membershipIds.sublist (List.filter_sublist.map _)
  refine ((perm_sortOn _ _).map _).nodup_iff.mpr (nodup_filterMap_keys (ids _) ?_)
  intro m _ m' _ stamped stamped' found found' same
  obtain ⟨_, _, rfl⟩ := Option.map_eq_some_iff.mp found
  obtain ⟨_, _, rfl⟩ := Option.map_eq_some_iff.mp found'
  exact same

/-- The tables with the account's new setting. -/
def Tables.withSetting (s : Tables) (accountId : Nat) (months : RetentionMonths) : Tables :=
  { s with accounts := s.accounts.map (changeAt Account.id accountId fun a =>
      { a with retentionMonths := months }) }

theorem Tables.Steady.withSetting {accountId : Nat} {months : RetentionMonths}
    (steady : s.Steady today)
    : (s.withSetting accountId months).Steady today :=
  { steady with
    accountIds := by
      have same : (s.withSetting accountId months).accounts.map (·.id) = s.accounts.map (·.id) := by
        rw [Tables.withSetting, List.map_map]
        refine List.map_congr_left fun a _ => ?_
        rw [Function.comp_apply, changeAt]
        split <;> rfl
      exact same ▸ steady.accountIds }

/-- Under a new setting only the stamps of the account's memberships may be wrong. -/
theorem Tables.Tidy.restampable {accountId : Nat} {months : RetentionMonths}
    {pending : List (Nat × Date)} (tidy : s.Tidy today)
    (distinct : (pending.map (·.1)).Nodup)
    (all : ∀ stamped, stamped ∈ s.stampedProfiles accountId today ↔ stamped ∈ pending)
    : (s.withSetting accountId months).Restampable today months pending where
  distinct := distinct
  rows stamped inside := by
    obtain ⟨m, held, rfl, ended, stamp, one⟩ := mem_stampedProfiles.mp ((all stamped).mpr inside)
    obtain ⟨_, a, present, account, _⟩ := tidy.stamped m held _ stamp
    refine ⟨m, held, one, stamp, (Tables.membershipEnded_congr rfl rfl rfl).trans ended,
      { a with retentionMonths := months }, List.mem_map.mpr ⟨a, present, ?_⟩, account, rfl⟩
    exact changeAt_of_eq account
  others m held new := by
    refine ⟨tidy.spent m held, fun until_ stamp => ?_⟩
    obtain ⟨ended, a, present, account, day, ends, retained⟩ := tidy.stamped m held until_ stamp
    have same : (s.withSetting accountId months).assignments = s.assignments := rfl
    refine ⟨(Tables.membershipEnded_congr same rfl rfl).trans ended, a, ?_, account, day,
      ends.of_same same, retained⟩
    refine List.mem_map.mpr ⟨a, present, changeAt_of_ne fun here => ?_⟩
    have theirs : m.accountId = accountId := account.symm.trans here
    exact new (List.mem_map_of_mem (f := Prod.fst)
      ((all (m.id, until_)).mp (mem_stampedProfiles.mpr ⟨m, held, theirs, ended, stamp, rfl⟩)))

/-- A new setting settles the account's profiles under the old one, and restamps every stamp there
is under the new one.
-/
theorem setRetentionMonths_commits {accountId : Nat} {months : RetentionMonths} {u : Unit}
    (tidy : s.Tidy moment.today)
    (commits : (setRetentionMonths accountId months moment).Commits s u after)
    : ∃ (settled : Tables) (pending : List (Nat × Date)),
        SettlesAll moment (s.heldProfiles accountId) s settled
        ∧ (pending.map Prod.fst).Nodup
        ∧ (∀ stamped, stamped ∈ settled.stampedProfiles accountId moment.today
            ↔ stamped ∈ pending)
        ∧ (forM pending (restampProfile months moment)).Commits
            (settled.withSetting accountId months) () after := by
  simp only [setRetentionMonths, commits_select_bind] at commits
  obtain ⟨_, settled, settles, commits⟩ := commits_bind.mp commits
  simp only [commits_require_bind, commits_select_bind, commits_update_bind] at commits
  obtain ⟨_, restamps⟩ := commits
  rcases commits_onlyIf.mp settles with ⟨_, settles⟩ | ⟨nothing, rfl⟩
  · simp only [commits_lockTenant_bind, commits_select_bind] at settles
    obtain ⟨_, _, settles⟩ := settles
    have all := forM_settlesAll settles
    rcases commits_onlyIf.mp restamps with ⟨_, restamps⟩ | ⟨nothing, _⟩
    · simp only [commits_select_bind] at restamps
      exact ⟨settled, _, all, (all.tidy tidy).toSteady.stampedProfiles_distinct,
        fun _ => .rfl, restamps⟩
    · contradiction
  · -- without a field there is no stamp of the account's to put right
    have none_ := not_not.mp nothing
    refine ⟨settled, [], none_ ▸ .nil, List.nodup_nil, fun stamped => ?_, ?_⟩
    · refine iff_of_false (fun listed => ?_) List.not_mem_nil
      obtain ⟨m, held, theirs, _, stamp, _⟩ := mem_stampedProfiles.mp listed
      obtain ⟨current, fields⟩ := MembershipRow.admissible_stamped (tidy.admissible m held) stamp
      have listed := mem_heldProfiles.mpr ⟨m, held, theirs, current, fields, rfl⟩
      exact List.not_mem_nil (none_ ▸ listed)
    · rcases commits_onlyIf.mp restamps with ⟨some_, _⟩ | ⟨_, rfl⟩
      · exact absurd some_ nothing
      · exact commits_forM_nil.mpr rfl

theorem setRetentionMonths_keepsTidy {accountId : Nat} {months : RetentionMonths}
    : Within (Tables.KeepsTidy moment.today) (setRetentionMonths accountId months moment) := by
  intro s u after commits tidy
  obtain ⟨settled, pending, settles, distinct, all, restamps⟩ :=
    setRetentionMonths_commits tidy commits
  have settled_ := settles.tidy tidy
  exact restampProfiles_tidy settled_.toSteady.withSetting (settled_.restampable distinct all)
    restamps

end

end FauPortalen.Membership

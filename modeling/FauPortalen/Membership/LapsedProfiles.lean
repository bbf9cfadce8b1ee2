import FauPortalen.Membership.ProfileFields

/-! Past its date a profile is not kept: the sweep leaves none, and whatever else settles the
membership clears what it held before, for good.
-/

set_option linter.unusedSectionVars false

namespace FauPortalen.Membership

open Foundations Transaction

section

variable [OsloZone] {moment : Moment} {s s' after : Tables} {membershipId : Nat}
  {today day : Date} {m m' : MembershipRow}

-----------------------------------------------------------------------------------------
-- The sweep

/-- The membership keeps no field, or keeps its fields until a stamped date still to come. -/
def MembershipRow.Kept (m : MembershipRow) (today : Date) : Prop :=
  m.hasFields = true → ∃ until_, m.profileRetainedUntil = some until_ ∧ today < until_

theorem MembershipRow.admissible_erased (admissible : m.admissible = true)
    (erased : m.nameErasedAt.isSome)
    : m.hasFields = false := by
  obtain ⟨at_, erased⟩ := Option.isSome_iff_exists.mp erased
  simp only [MembershipRow.admissible, erased, Option.isNone_some, Bool.false_or,
    Bool.and_eq_true, Bool.not_eq_true'] at admissible
  exact admissible.1.2

/-- A revoked row that holds a field is stamped. -/
theorem MembershipRow.admissible_revoked (admissible : m.admissible = true)
    (revoked : m.revokedAt.isSome) (fields : m.hasFields = true)
    : m.profileRetainedUntil.isSome := by
  obtain ⟨at_, revoked⟩ := Option.isSome_iff_exists.mp revoked
  simp only [MembershipRow.admissible, revoked, Option.isNone_some, Bool.false_or,
    Bool.and_eq_true, Bool.or_eq_true, Option.isNone_iff_eq_none] at admissible
  obtain ⟨⟨⟨⟨⟨_, name⟩, address⟩, _⟩, _⟩, _⟩ := admissible
  rcases Bool.or_eq_true_iff.mp fields with named | addressed
  · exact name.resolve_left (Option.isSome_iff_ne_none.mp named)
  · exact address.resolve_left (Option.isSome_iff_ne_none.mp addressed)

/-- A settled profile is kept only until its date, if the membership has ended. -/
theorem Tables.Settles.kept {settled : Settled} (settles : s.Settles today m settled m')
    (admissible : m.admissible = true) (ended : s.membershipEnded m today = true)
    : m'.Kept today := by
  intro fields
  cases settles with
  | absent nothing =>
      have none_ := nothing.elim (MembershipRow.admissible_erased admissible) fun h => h
      rw [none_] at fields
      cases fields
  | active running =>
      rw [ended] at running
      cases running
  | retained _ _ later => exact ⟨_, rfl, later⟩
  | cleared _ => cases fields

/-- Settling profiles one after the other leaves a membership among them no field past its date
if it has ended, by induction on those still to be settled.
-/
theorem SettlesAll.kept {pending : List Nat} (all : SettlesAll moment pending s after)
    (tidy : s.Tidy moment.today)
    (rows : ∀ m ∈ s.memberships, m.id = membershipId → s.membershipEnded m moment.today = true →
      m.id ∈ pending ∨ m.Kept moment.today)
    : ∀ m ∈ after.memberships, m.id = membershipId →
        after.membershipEnded m moment.today = true → m.Kept moment.today := by
  induction all with
  | nil => exact fun m held one ended => (rows m held one ended).resolve_left List.not_mem_nil
  | cons settling others ih =>
      have tidy' := settleProfile_keepsTidy _ _ _ settling tidy
      obtain ⟨m, held, rfl, m', settles, rfl, _⟩ := settleProfile_commits tidy settling
      refine ih tidy' fun row present one ended => ?_
      rcases mem_withRow present with rfl | ⟨there, differs⟩
      · refine .inr (settles.kept (tidy.admissible m held) ?_)
        have revokedAt : row.revokedAt = m.revokedAt := by cases settles <;> rfl
        exact (Tables.membershipEnded_congr rfl settles.id.symm revokedAt.symm).trans ended
      · refine (rows row there one ended).imp_left fun listed => ?_
        exact (List.mem_cons.mp listed).resolve_left
          fun here => differs (here.trans settles.id.symm)

theorem kept_or_candidate (held : m ∈ s.memberships) (ended : s.membershipEnded m today = true)
    : m.id ∈ s.clearingCandidates today ∨ m.Kept today := by
  by_cases due : (m.profileRetainedUntil.all (· ≤ today)) = true
  · refine (Classical.em (m.hasFields = true)).imp (fun fields => ?_) fun none_ fields => ?_
    · refine mem_sortedKeys.mpr (List.mem_map_of_mem (List.mem_filter.mpr ⟨held, ?_⟩))
      rw [fields, due, ended]
      rfl
    · exact absurd fields none_
  · refine .inr fun _ => ?_
    cases stamp : m.profileRetainedUntil with
    | none => exact absurd (by rw [stamp]; rfl) due
    | some until_ =>
        rw [stamp, Option.all_some, decide_eq_true_eq] at due
        exact ⟨until_, rfl, not_le.mp due⟩

/-- The sweep leaves no ended membership a field past its date. -/
theorem clearEndedProfiles_kept {cleared : Nat} (tidy : s.Tidy moment.today)
    (commits : (clearEndedProfiles moment).Commits s cleared after)
    : ∀ m ∈ after.memberships, after.membershipEnded m moment.today = true →
        m.Kept moment.today := by
  simp only [clearEndedProfiles, commits_select_bind] at commits
  rcases commits_ite.mp commits with ⟨_, commits⟩ | ⟨nothing, returns⟩
  · simp only [commits_lockTenant_bind, commits_select_bind] at commits
    obtain ⟨_, _, commits⟩ := commits
    obtain ⟨count, settled, settles, removes⟩ := commits_bind.mp commits
    rw [commits_select_bind] at removes
    obtain ⟨_, _, removes, returns⟩ := commits_bind.mp removes
    obtain ⟨rfl, rfl⟩ := commits_pure.mp returns
    have changes : settled.Changes moment.now [.memberRemovals] after :=
      Within.forM (fun _ => removeFromAllGroups_within (by simp)) _ _ _ removes
    intro m held ended
    refine (foldlM_settlesAll settles).kept tidy
      (fun m held _ ended => kept_or_candidate held ended) m
      (changes.sameMemberships (by simp) (by simp) ▸ held) rfl ?_
    have assignments := changes.sameAssignments (by simp) (by simp)
    exact (Tables.membershipEnded_congr assignments rfl rfl).symm.trans ended
  · obtain ⟨rfl, rfl⟩ := commits_pure.mp returns
    intro m held ended
    have none_ : after.clearingCandidates moment.today = [] := by
      simp only [Bool.or_eq_true, decide_eq_true_eq, not_or, not_not] at nothing
      exact nothing.1
    exact (kept_or_candidate held ended).resolve_left fun listed =>
      List.not_mem_nil (none_ ▸ listed)

-----------------------------------------------------------------------------------------
-- Past the date

/-- The membership holds no field but those brought. -/
def Tables.OnlyBrought (s : Tables) (brought : ProfileField → Nat → Ciphertext → Prop)
    (membershipId : Nat)
    : Prop :=
  ∀ m ∈ s.memberships, m.id = membershipId → ∀ field given, m.field field = some given →
    brought field membershipId given

theorem Tables.Past.later (past : s.Past today m) (le : today ≤ day) : s.Past day m := by
  obtain ⟨ended, date, kept, none_⟩ := past
  refine ⟨Tables.membershipEnded_later ended le, date, kept, ?_⟩
  rw [Option.filter_eq_none_iff] at none_ ⊢
  intro until_ known
  have come : ¬ today < until_ := by simpa using none_ until_ known
  simpa using (not_lt.mp come).trans le

/-- Revocations, other settings and other memberships' roles leave a membership past its date. -/
theorem Tables.Past.goesOn (past : s.Past moment.today m) (allOver : s.Over m.id moment.today)
    (id : m'.id = m.id) (accountId : m'.accountId = m.accountId)
    (revokedAt : m.revokedAt.isSome → m'.revokedAt.isSome)
    (settings : ∀ a ∈ s.accounts, a.id = m.accountId → ∃ a' ∈ s'.accounts,
      a'.id = a.id ∧ a'.retentionMonths = a.retentionMonths)
    (goesOn : ∀ ra ∈ s.assignments, ∃ ra' ∈ s'.assignments, ra.GoesOn moment.now ra')
    (comesFrom : ∀ ra' ∈ s'.assignments, ra'.membershipId = m.id →
      ∃ ra ∈ s.assignments, ra.GoesOn moment.now ra')
    : s'.Past moment.today m' := by
  obtain ⟨ended, date, ⟨a, present, account, day, ends, retained⟩, none_⟩ := past
  obtain ⟨a', present', account', setting⟩ := settings a present account
  refine ⟨?_, date, ⟨a', present', account'.trans (account.trans accountId.symm), day,
    id ▸ ends.goesOn allOver goesOn comesFrom, setting ▸ retained⟩, none_⟩
  refine Tables.membershipEnded_iff.mpr ?_
  rcases Tables.membershipEnded_iff.mp ended with revoked | spent
  · exact .inl (revokedAt revoked)
  · refine .inr fun ra' inside' theirs live => ?_
    obtain ⟨ra, inside, goesOn⟩ := comesFrom ra' inside' (theirs.trans id)
    have live' : ra.revokedAt = none := by
      rcases goesOn.revokedAt with same | ⟨live', _⟩
      · exact same ▸ live
      · exact live'
    rw [goesOn.same] at theirs ⊢
    exact spent ra inside (theirs.trans id) live'

theorem Tables.Past.changes {written : List Written} (past : s.Past moment.today m)
    (changes : s.Changes moment.now written s') (allOver : s.Over m.id moment.today)
    (goesOn : m.GoesOn written m') (noReturn : .returns ∉ written)
    (noAssignments : .assignments ∉ written)
    (settings : ∀ a ∈ s.accounts, a.id = m.accountId → ∃ a' ∈ s'.accounts,
      a'.id = a.id ∧ a'.retentionMonths = a.retentionMonths)
    : s'.Past moment.today m' :=
  past.goesOn allOver goesOn.id goesOn.accountId (goesOn.revoked noReturn) settings
    changes.assignments.goesOn fun _ inside _ =>
      changes.assignments.comesFrom_of_sameKeys (changes.noAssignments noAssignments) inside

/-- Nothing is kept past the date. -/
theorem Tables.Tidy.past_kept (tidy : s.Tidy today) (held : m ∈ s.memberships)
    (past : s.Past today m) (kept : m.Kept today)
    : m.hasFields = false := by
  by_contra fields
  obtain ⟨until_, stamp, later⟩ := kept (by simpa using fields)
  obtain ⟨_, date, keptUntil, none_⟩ := past
  obtain rfl := tidy.keptUntil_unique keptUntil (tidy.stamped m held until_ stamp).2
  rw [Option.filter_some, if_pos (decide_eq_true later)] at none_
  cases none_

section

variable {brought : ProfileField → Nat → Ciphertext → Prop}

theorem Tables.OnlyBrought.fieldsFrom (only : s.OnlyBrought brought membershipId)
    (from_ : s.FieldsFrom brought s')
    : s'.OnlyBrought brought membershipId := by
  intro m' held' one field given there
  rcases from_ m' held' field given there with new | ⟨m, held, same, there'⟩
  · exact one ▸ new
  · exact only m held (same.trans one) field given there'

theorem Tables.Tidy.onlyBrought (tidy : s.Tidy today) (held : m ∈ s.memberships)
    (none_ : m.hasFields = false)
    : s.OnlyBrought brought m.id := by
  intro row there one field given present
  rw [tidy.row_eq held there one, MembershipRow.field_none none_] at present
  cases present

/-- Settling a profile past its date clears it. -/
theorem settleProfile_onlyBrought {settled : Settled} (tidy : s.Tidy moment.today)
    (held : m ∈ s.memberships) (past : s.Past moment.today m)
    (commits : (settleProfile m.id moment).Commits s settled after)
    : after.OnlyBrought brought m.id := by
  have tidy' := settleProfile_keepsTidy _ _ _ commits tidy
  obtain ⟨row, there, one, m', settles, rfl, _⟩ := settleProfile_commits tidy commits
  obtain rfl := tidy.row_eq held there one
  have present : m' ∈ (s.withRow m').memberships :=
    List.mem_map.mpr ⟨row, held, changeAt_of_eq settles.id.symm⟩
  have none_ : m'.hasFields = false := by
    cases settles with
    | absent nothing =>
        exact nothing.elim (MembershipRow.admissible_erased (tidy.admissible row held))
          fun noFields => noFields
    | active running =>
        rw [past.1] at running
        cases running
    | retained ended kept later =>
        obtain ⟨_, date, kept', none_⟩ := past
        rw [tidy.keptUntil_unique kept kept', Option.filter_some,
          if_pos (decide_eq_true later)] at none_
        cases none_
    | cleared => rfl
  exact settles.id ▸ tidy'.onlyBrought present none_

theorem reopenProfile_onlyBrought {settled : Settled} (tidy : s.Tidy moment.today)
    (held : m ∈ s.memberships) (past : s.Past moment.today m)
    (commits : (reopenProfile m.id moment).Commits s settled after)
    : after.OnlyBrought brought m.id := by
  obtain ⟨_, cleared, kept, _, clears, settles, reopens⟩ := reopenProfile_commits commits
  have changes : s.Changes moment.now [.memberRemovals] cleared :=
    Within.onlyIf (removeFromAllGroups_within (by simp)) _ _ _ clears
  have same := changes.sameMemberships (by simp) (by simp)
  have cleared_ : cleared.Tidy moment.today :=
    changes.tidy same (changes.sameAccounts (by simp)) (by simp) tidy
  have past_ : cleared.Past moment.today m :=
    past.changes changes (tidy.allOver held past.1) (.refl m) (by simp) (by simp)
      fun a present _ => ⟨a, changes.sameAccounts (by simp) ▸ present, rfl, rfl⟩
  have only : kept.OnlyBrought brought m.id :=
    settleProfile_onlyBrought cleared_ (same ▸ held) past_ settles
  have returns : Within (Tables.FieldsFrom brought) (updateMembership m.id
      ({ · with revokedAt := none, profileRetainedUntil := none })) :=
    updateMembership_fieldsFrom (fun _ => rfl) fun _ _ field _ there => .inr (by
      cases field <;> exact there)
  exact only.fieldsFrom (returns _ _ _ reopens)

/-- A joiner whose membership is past its date comes back without its fields. -/
theorem ensureMembership_onlyBrought {accountId : Nat} {joined : Nat × Bool × Bool}
    (tidy : s.Tidy moment.today) (held : m ∈ s.memberships) (past : s.Past moment.today m)
    (commits : (ensureMembership accountId m.id moment).Commits s joined after)
    : after.OnlyBrought brought m.id := by
  obtain ⟨_, ⟨_, _, _, _, _, reopens⟩ | ⟨new, _, _⟩⟩ := ensureMembership_commits commits
  · exact reopenProfile_onlyBrought tidy held past reopens
  · exact absurd (List.mem_map_of_mem held) new

end

section

variable {brought : ProfileField → Nat → Ciphertext → Prop}

/-- An update that clears the rows it picks leaves a membership among them no field. -/
theorem updateMemberships_onlyBrought {picks : MembershipRow → Bool}
    {change : MembershipRow → MembershipRow} {u : Unit}
    (commits : (updateMemberships picks change).Commits s u after)
    (clears : ∀ m field, (change m).field field = none)
    (picked : ∀ m ∈ s.memberships, m.id = membershipId → picks m = true ∨ m.hasFields = false)
    : after.OnlyBrought brought membershipId := by
  obtain ⟨_, rfl⟩ := commits_updateMemberships.mp commits
  intro m' held' one field given there
  obtain ⟨m, held, rfl⟩ := List.mem_map.mp held'
  by_cases here : picks m = true
  · rw [if_pos here, MembershipRow.retentionFollowsFields_field, clears] at there
    cases there
  · rw [if_neg here] at one there
    rw [MembershipRow.field_none ((picked m held one).resolve_left here)] at there
    cases there

theorem RevocationPath.onlyBrought {req : RevokeMembership}
    (path : RevocationPath req moment s after)
    (tidy : s.Tidy moment.today) (held : m ∈ s.memberships) (one : req.membershipId = m.id)
    (past : s.Past moment.today m)
    : after.OnlyBrought brought m.id := by
  have revoked := path.revoked_tidy tidy
  obtain rfl : path.m = m := tidy.row_eq held (path.memberships ▸ path.held.1)
    (path.held.2.trans one)
  have past_ : path.revoked.Past moment.today path.m :=
    past.changes path.revokes (tidy.allOver held past.1) (.refl path.m) (by simp) (by simp)
      fun a present _ => ⟨a, path.revokes.sameAccounts (by simp) ▸ present, rfl, rfl⟩
  have keep : path.keep = none := by
    cases fields : path.m.hasFields with
    | false => exact path.keep_none fields
    | true =>
        obtain ⟨date, kept, keep⟩ := path.keep_eq tidy fields
        obtain ⟨_, date', kept', none_⟩ := past_
        rw [keep, revoked.keptUntil_unique kept' kept, none_]
  have closed : path.closed.OnlyBrought brought path.m.id := by
    refine updateMemberships_onlyBrought path.closes (fun row field => ?_)
      fun row _ same => .inl (decide_eq_true (same.trans one.symm))
    cases field <;> exact if_pos keep
  exact closed.fieldsFrom (.of_same (path.cascades.sameMemberships (by simp) (by simp)))

theorem eraseMemberNames_onlyBrought {u : Unit} (tidy : s.Tidy moment.today)
    (held : m ∈ s.memberships)
    (commits : (eraseMemberNames m.accountId moment).Commits s u after)
    : after.OnlyBrought brought m.id := by
  simp only [eraseMemberNames, commits_select_bind] at commits
  rcases commits_ite.mp commits with ⟨_, commits⟩ | ⟨none_, _⟩
  · rw [commits_lockTenant_bind] at commits
    obtain ⟨_, _, commits⟩ := commits
    refine updateMemberships_onlyBrought commits (fun _ field => by cases field <;> rfl)
      fun row there same => ?_
    obtain rfl := tidy.row_eq held there same
    cases erased : row.nameErasedAt with
    | none => exact .inl (by simp)
    | some _ =>
        exact .inr (MembershipRow.admissible_erased (tidy.admissible row held)
          (by rw [erased]; rfl))
  · exact absurd (List.any_eq_true.mpr ⟨m, held, decide_eq_true rfl⟩) none_

theorem setRetentionMonths_onlyBrought {months : RetentionMonths} {u : Unit}
    (tidy : s.Tidy moment.today) (held : m ∈ s.memberships)
    (past : s.Past moment.today m)
    (commits : (setRetentionMonths m.accountId months moment).Commits s u after)
    : after.OnlyBrought brought m.id := by
  obtain ⟨settled, pending, settles, _, _, restamps⟩ := setRetentionMonths_commits tidy commits
  have restamped : (settled.withSetting m.accountId months).FieldsFrom brought after :=
    Within.forM (fun _ => restampProfile_fieldsFrom) _ _ _ restamps
  refine Tables.OnlyBrought.fieldsFrom (s := settled) ?_
    (IsTrans.trans (r := Tables.FieldsFrom brought) _ _ _ (.of_same rfl) restamped)
  cases fields : m.hasFields with
  | false => exact (tidy.onlyBrought held fields).fieldsFrom settles.fieldsFrom
  | true =>
      -- what holds a field is settled under the old setting, and is past its date under that
      have listed : m.id ∈ s.heldProfiles m.accountId := by
        refine mem_heldProfiles.mpr ⟨m, held, rfl, ?_, fields, rfl⟩
        refine Option.not_isSome_iff_eq_none.mp fun erased => ?_
        rw [MembershipRow.admissible_erased (tidy.admissible m held) erased] at fields
        cases fields
      have changes := settles.changes
      obtain ⟨m', held', goesOn⟩ := changes.memberships.goesOn m held
      have past' : settled.Past moment.today m' :=
        past.changes changes (tidy.allOver held past.1) goesOn (by simp) (by simp)
          fun a present _ => ⟨a, changes.sameAccounts (by simp) ▸ present, rfl, rfl⟩
      have kept := settles.kept tidy
        (fun row there one _ => .inl (tidy.row_eq held there one ▸ listed)) m' held' goesOn.id
        past'.1
      have settled_ := settles.tidy tidy
      exact goesOn.id ▸ settled_.onlyBrought held' (settled_.past_kept held' past' kept)

end

/-- The operation settles the membership's profile, or clears it. -/
def Operation.Settles (op : Operation) (m : MembershipRow) : Prop :=
  match op with
  | acceptInvitation _ req => req.profile.membershipId = m.id
  | activateTenant activation => activation.profile.membershipId = m.id
  | grantRole req => req.membershipId = m.id
  | revokeMembership req => req.membershipId = m.id
  | clearEndedProfiles => True
  | setRetentionMonths accountId _ | eraseMemberNames accountId => accountId = m.accountId
  | _ => False

/-- An operation that settles a membership past its date leaves it only the fields it brings. -/
theorem Operation.Commits.onlyBrought {op : Operation} (commits : op.Commits moment s after)
    (tidy : s.Tidy moment.today) (held : m ∈ s.memberships) (past : s.Past moment.today m)
    (settles : op.Settles m)
    : after.OnlyBrought op.Brings m.id := by
  have from_ := commits.fieldsFrom
  have allOver := tidy.allOver held past.1
  cases op
  case acceptInvitation found req =>
    obtain ⟨_, commits⟩ := commits
    obtain ⟨path⟩ := acceptInvitation_commits commits
    have one : req.profile.membershipId = m.id := settles
    have joins := one ▸ path.joins
    have held' : m ∈ path.verified.memberships := by
      rw [path.verifies_changes.sameMemberships (by simp) (by simp)]
      exact held
    have past' : path.verified.Past moment.today m :=
      past.changes path.verifies_changes allOver (.refl m) (by simp) (by simp)
        fun a present _ => upsertVerifiedAccount_settings path.verifies a present
    have entered : path.entered.OnlyBrought (acceptInvitation found req).Brings m.id :=
      ensureMembership_onlyBrought
        (upsertVerifiedAccount_keepsTidy _ _ _ path.verifies tidy) held' past' joins
    have names : Within (Tables.FieldsFrom (acceptInvitation found req).Brings)
        (writeProfile req.profile path.joined.2.2) :=
      writeProfile_fieldsFrom fun _ _ given => ⟨rfl, given⟩
    have given := path.gives_changes.sameMemberships (by simp) (by simp)
    have marked := path.marks_changes.sameMemberships (by simp) (by simp)
    exact (entered.fieldsFrom (names _ _ _ path.names)).fieldsFrom (.of_same (marked.trans given))
  case activateTenant activation =>
    obtain ⟨_, commits⟩ := commits
    obtain ⟨path⟩ := activateTenant_commits commits
    have one : activation.profile.membershipId = m.id := settles
    have joins := one ▸ path.joins
    have held' : m ∈ path.verified.memberships := by
      rw [path.verifies_changes.sameMemberships (by simp) (by simp)]
      exact held
    have opened : ({ s with tenant := some { path.state with status := .active } } : Tables).Past
        moment.today m :=
      past.goesOn allOver rfl rfl (fun h => h) (fun a present _ => ⟨a, present, rfl, rfl⟩)
        (fun ra inside => ⟨ra, inside, .refl ra⟩) fun ra inside _ => ⟨ra, inside, .refl ra⟩
    have past' : path.verified.Past moment.today m :=
      opened.changes path.verifies_changes allOver (.refl m) (by simp) (by simp)
        fun a present _ => upsertVerifiedAccount_settings path.verifies a present
    have verified : path.verified.Tidy moment.today :=
      upsertVerifiedAccount_keepsTidy _ _ _ path.verifies (tidy.of_same rfl rfl rfl rfl)
    have entered : path.entered.OnlyBrought (activateTenant activation).Brings m.id :=
      ensureMembership_onlyBrought verified held' past' joins
    have names : Within (Tables.FieldsFrom (activateTenant activation).Brings)
        (writeProfile activation.profile path.joined.2.2) :=
      writeProfile_fieldsFrom fun _ _ given => ⟨rfl, given⟩
    have titled := path.titles_changes.sameMemberships (by simp) (by simp)
    have given := path.gives_changes.sameMemberships (by simp) (by simp)
    have invited := path.invites_changes.sameMemberships (by simp) (by simp)
    have closed := congrArg Tables.memberships path.after
    exact (entered.fieldsFrom (names _ _ _ path.names)).fieldsFrom
      (.of_same (closed.trans (invited.trans (given.trans titled))))
  case grantRole req =>
    obtain ⟨_, commits⟩ := commits
    obtain ⟨path⟩ := grantRole_commits commits
    have one : req.membershipId = m.id := settles
    obtain ⟨roles, titled⟩ := path.resolves.added
    have resolved : path.resolved.Tidy moment.today := titled ▸ tidy.addRoles roles
    have past' : path.resolved.Past moment.today m := titled ▸
      past.goesOn allOver rfl rfl (fun h => h) (fun a present _ => ⟨a, present, rfl, rfl⟩)
        (fun ra inside => ⟨ra, inside, .refl ra⟩) fun ra inside _ => ⟨ra, inside, .refl ra⟩
    have held' : m ∈ path.resolved.memberships := titled ▸ held
    have opened : path.opened.OnlyBrought (grantRole req).Brings m.id :=
      reopenProfile_onlyBrought resolved held' past' (one ▸ path.opens)
    obtain ⟨_, given⟩ := commits_insertAssignment.mp path.gives
    have closed := congrArg Tables.memberships given
    exact opened.fieldsFrom (.of_same closed)
  case revokeMembership req =>
    obtain ⟨_, commits⟩ := commits
    obtain ⟨path⟩ := revokeMembership_path commits
    exact path.onlyBrought tidy held settles past
  case clearEndedProfiles =>
    have changes := commits.changes
    obtain ⟨_, commits⟩ := commits
    have after_ := clearEndedProfiles_keepsTidy _ _ _ commits tidy
    obtain ⟨m', held', goesOn⟩ := changes.memberships.goesOn m held
    have past' : after.Past moment.today m' :=
      past.changes changes allOver goesOn (by simp [written]) (by simp [written])
        fun a present _ => ⟨a, changes.sameAccounts (by simp [written]) ▸ present, rfl, rfl⟩
    have kept := clearEndedProfiles_kept tidy commits m' held' past'.1
    exact goesOn.id ▸ after_.onlyBrought held' (after_.past_kept held' past' kept)
  case setRetentionMonths accountId months =>
    obtain ⟨_, commits⟩ := commits
    obtain rfl : accountId = m.accountId := settles
    exact setRetentionMonths_onlyBrought tidy held past commits
  case eraseMemberNames accountId =>
    obtain ⟨_, commits⟩ := commits
    obtain rfl : accountId = m.accountId := settles
    exact eraseMemberNames_onlyBrought tidy held commits
  all_goals exact absurd settles id

-----------------------------------------------------------------------------------------
-- What leaves a profile past its date alone

/-- The row stays as it is. -/
def Tables.KeepsRow (m : MembershipRow) (s s' : Tables) : Prop :=
  m ∈ s.memberships → m ∈ s'.memberships

instance : IsPreorder Tables (Tables.KeepsRow m) where
  refl _ := id
  trans _ _ _ first second := second ∘ first

theorem updateMembership_keepsRow {change : MembershipRow → MembershipRow}
    (differ : m.id ≠ membershipId)
    : Within (Tables.KeepsRow m) (updateMembership membershipId change) := by
  intro s u after commits held
  obtain ⟨_, rfl⟩ := commits_updateMemberships.mp commits
  refine List.mem_map.mpr ⟨m, held, if_neg ?_⟩
  simpa using differ

theorem settleProfile_keepsRow (differ : m.id ≠ membershipId)
    : Within (Tables.KeepsRow m) (settleProfile membershipId moment) := by
  refine .bind .select fun _ => .bind .expect fun m => .bind .select fun ended => ?_
  refine .ite .pure (.ite .pure (.bind effectiveKeepUntil_within fun until_ => ?_))
  split
  · exact .pure
  · exact .bind (updateMembership_keepsRow differ) fun _ => .pure
  · exact .bind (updateMembership_keepsRow differ) fun _ => .pure

theorem reopenProfile_keepsRow (differ : m.id ≠ membershipId)
    : Within (Tables.KeepsRow m) (reopenProfile membershipId moment) := by
  refine .bind .select fun _ => .bind .expect fun _ => .bind .select fun _ =>
    .bind (.onlyIf ?_) fun _ => .bind (settleProfile_keepsRow differ) fun _ =>
    .bind (updateMembership_keepsRow differ) fun _ => .pure
  intro s u after commits held
  obtain rfl := commits_update.mp commits
  exact held

theorem ensureMembership_keepsRow {accountId expectedId : Nat} (differ : m.id ≠ expectedId)
    : Within (Tables.KeepsRow m) (ensureMembership accountId expectedId moment) := by
  intro s joined after commits held
  obtain ⟨_, ⟨_, _, _, _, _, reopens⟩ | ⟨_, _, rfl⟩⟩ := ensureMembership_commits commits
  · exact reopenProfile_keepsRow differ _ _ _ reopens held
  · exact List.mem_append_left _ held

/-- Roles of other memberships leave one past its date. -/
theorem Tables.Past.gives {rows : List RoleAssignment} (past : s.Past moment.today m)
    (allOver : s.Over m.id moment.today)
    (settings : ∀ a ∈ s.accounts, ∃ a' ∈ s'.accounts,
      a'.id = a.id ∧ a'.retentionMonths = a.retentionMonths)
    (given : s'.assignments = s.assignments ++ rows)
    (others : ∀ ra ∈ rows, ra.membershipId ≠ m.id)
    : s'.Past moment.today m := by
  refine past.goesOn allOver rfl rfl (fun h => h) (fun a present _ => settings a present) ?_ ?_
  · exact fun ra inside => ⟨ra, given ▸ List.mem_append_left _ inside, .refl ra⟩
  · intro ra inside theirs
    rw [given] at inside
    exact ⟨ra, (List.mem_append.mp inside).resolve_right fun new => others ra new theirs, .refl ra⟩

/-- What does not settle a membership past its date leaves it so. -/
theorem Operation.Commits.past {op : Operation} (commits : op.Commits moment s after)
    (tidy : s.Tidy moment.today) (held : m ∈ s.memberships) (past : s.Past moment.today m)
    (unsettled : ¬ op.Settles m) (held' : m' ∈ after.memberships) (one : m'.id = m.id)
    : after.Past moment.today m' := by
  have changes := commits.changes
  have allOver := tidy.allOver held past.1
  have ids' := changes.memberships.distinct tidy.membershipIds
  have goesOn : m.GoesOn op.written m' :=
    changes.memberships.comesFrom_key (fun _ _ h => h.id) tidy.membershipIds held held' one
  have kept (there : m ∈ after.memberships) : m' = m :=
    List.inj_on_of_nodup_map ids' held' there one
  cases op
  case acceptInvitation found req =>
    obtain ⟨_, commits⟩ := commits
    obtain ⟨path⟩ := acceptInvitation_commits commits
    have differ : m.id ≠ req.profile.membershipId := fun same => unsettled same.symm
    obtain ⟨rows, given, gives, _⟩ := path.assignments
    obtain ⟨joined, _⟩ := ensureMembership_commits path.joins
    have named := updateMembership_keepsRow differ _ _ _ path.names
      (ensureMembership_keepsRow differ _ _ _ path.joins
        (path.verifies_changes.sameMemberships (by simp) (by simp) ▸ held))
    have there : m ∈ after.memberships := by
      rw [path.marks_changes.sameMemberships (by simp) (by simp),
        path.gives_changes.sameMemberships (by simp) (by simp)]
      exact named
    rw [kept there]
    refine past.gives allOver ?_ given fun ra inside theirs => ?_
    · rw [path.marks_changes.sameAccounts (by simp), path.gives_changes.sameAccounts (by simp),
        path.names_changes.sameAccounts (by simp), path.joins_changes.sameAccounts (by simp)]
      exact upsertVerifiedAccount_settings path.verifies
    · obtain ⟨_, _, gives⟩ := forall₂_left_of_mem gives inside
      exact differ (theirs.symm.trans (gives.membershipId.trans joined))
  case activateTenant activation =>
    obtain ⟨_, commits⟩ := commits
    obtain ⟨path⟩ := activateTenant_commits commits
    have differ : m.id ≠ activation.profile.membershipId := fun same => unsettled same.symm
    obtain ⟨row, given, gives, _⟩ := path.assignments
    obtain ⟨joined, _⟩ := ensureMembership_commits path.joins
    have verified : m ∈ path.verified.memberships := by
      rw [path.verifies_changes.sameMemberships (by simp) (by simp)]
      exact held
    have named := updateMembership_keepsRow differ _ _ _ path.names
      (ensureMembership_keepsRow differ _ _ _ path.joins verified)
    have invited : m ∈ path.invited.memberships := by
      rw [path.invites_changes.sameMemberships (by simp) (by simp),
        path.gives_changes.sameMemberships (by simp) (by simp),
        path.titles_changes.sameMemberships (by simp) (by simp)]
      exact named
    have closed := congrArg Tables.memberships path.after
    rw [kept (closed ▸ invited)]
    refine past.gives allOver ?_ given fun ra inside theirs => ?_
    · have accounts := congrArg Tables.accounts path.after
      rw [accounts]
      change ∀ a ∈ s.accounts, ∃ a' ∈ path.invited.accounts,
        a'.id = a.id ∧ a'.retentionMonths = a.retentionMonths
      rw [path.invites_changes.sameAccounts (by simp), path.gives_changes.sameAccounts (by simp),
        path.titles_changes.sameAccounts (by simp), path.names_changes.sameAccounts (by simp),
        path.joins_changes.sameAccounts (by simp)]
      have settings := upsertVerifiedAccount_settings path.verifies
      exact settings
    · obtain rfl := List.mem_singleton.mp inside
      exact differ (theirs.symm.trans (gives.membershipId.trans joined))
  case grantRole req =>
    obtain ⟨_, commits⟩ := commits
    obtain ⟨path⟩ := grantRole_commits commits
    have differ : m.id ≠ req.membershipId := fun same => unsettled same.symm
    obtain ⟨row, given, gives, _⟩ := path.assignments
    obtain ⟨roles, titled⟩ := path.resolves.added
    obtain ⟨_, inserted⟩ := commits_insertAssignment.mp path.gives
    have opened := reopenProfile_keepsRow differ _ _ _ path.opens (titled ▸ held)
    have closed := congrArg Tables.memberships inserted
    rw [kept (closed ▸ opened)]
    refine past.gives allOver (fun a present => ⟨a, ?_, rfl, rfl⟩) given fun ra inside theirs => ?_
    · exact changes.sameAccounts (by simp [written]) ▸ present
    · obtain rfl := List.mem_singleton.mp inside
      exact differ (theirs.symm.trans gives.membershipId)
  case setRetentionMonths accountId months =>
    obtain ⟨_, commits⟩ := commits
    refine past.changes changes allOver goesOn (by simp [written]) (by simp [written])
      fun a present account => ⟨a, ?_, rfl, rfl⟩
    obtain ⟨settled, pending, settles, _, _, restamps⟩ := setRetentionMonths_commits tidy commits
    have restamped : (settled.withSetting accountId months).Changes moment.now [.profiles] after :=
      Within.forM (fun _ => restampProfile_within (by simp)) _ _ _ restamps
    rw [restamped.sameAccounts (by simp)]
    refine List.mem_map.mpr ⟨a, ?_, changeAt_of_ne fun same => unsettled ?_⟩
    · rw [settles.changes.sameAccounts (by simp)]
      exact present
    · exact same.symm.trans account
  all_goals
    exact past.changes changes allOver goesOn (by simp [written]) (by simp [written])
      fun a present _ => ⟨a, changes.sameAccounts (by simp [written]) ▸ present, rfl, rfl⟩

-----------------------------------------------------------------------------------------
-- Every run

/-- An operation among the events brings the membership the field. -/
def BroughtIn (events : List FauEvent) (field : ProfileField) (membershipId : Nat)
    (given : Ciphertext)
    : Prop :=
  ∃ op moment, .operates op moment ∈ events ∧ op.Brings field membershipId given

/-- A membership that was past its date holds only what the events since have brought, or nothing
has settled it and it is still past its date.
-/
def FauState.Lapsed (state : FauState) (m : MembershipRow) (events : List FauEvent) : Prop :=
  ∃ m' ∈ state.tables.memberships, m'.id = m.id ∧ m'.accountId = m.accountId
    ∧ (state.tables.OnlyBrought (BroughtIn events) m.id
      ∨ state.tables.Past state.today m'
        ∧ ∀ op moment, .operates op moment ∈ events → ¬ op.Settles m)

theorem Operation.settles_congr {op : Operation} (id : m'.id = m.id)
    (accountId : m'.accountId = m.accountId)
    : op.Settles m' ↔ op.Settles m := by
  cases op <;> simp only [Settles, id, accountId]

theorem Tables.OnlyBrought.mono {brought brought' : ProfileField → Nat → Ciphertext → Prop}
    (only : s.OnlyBrought brought membershipId)
    (weaker : ∀ field given, brought field membershipId given → brought' field membershipId given)
    : s.OnlyBrought brought' membershipId :=
  fun m held one field given there => weaker field given (only m held one field given there)

variable {state next : FauState} {event : FauEvent} {events : List FauEvent}

theorem FauStep.fieldsFrom (stepped : FauStep state event next)
    : state.tables.FieldsFrom (BroughtIn [event]) next.tables := by
  have changes := stepped.changes
  cases stepped with
  | @operates op moment _ later lookedUp commits =>
      intro m' held' field given there
      refine (commits.fieldsFrom m' held' field given there).imp_left fun brings => ?_
      exact ⟨op, moment, List.mem_singleton_self _, brings⟩
  | looksUp finds => exact .of_same rfl
  | passes later => exact .of_same rfl
  | outside changed =>
      exact .of_same (changes.sameMemberships (by simp [FauEvent.written])
        (by simp [FauEvent.written]))

/-- A step settles a membership past its date, or leaves it so. -/
theorem FauStep.past (stepped : FauStep state event next) (tidy : state.Tidy)
    (held : m ∈ state.tables.memberships) (past : state.tables.Past state.today m)
    (held' : m' ∈ next.tables.memberships) (one : m'.id = m.id)
    : next.tables.OnlyBrought (BroughtIn [event]) m.id
      ∨ next.tables.Past next.today m'
        ∧ ∀ op moment, event = .operates op moment → ¬ op.Settles m := by
  have row (there : m ∈ next.tables.memberships) : m' = m :=
    List.inj_on_of_nodup_map (stepped.tidy tidy).tables.membershipIds held' there one
  cases stepped with
  | @operates op moment _ later lookedUp commits =>
      have tidy_ := tidy.tables.later later
      by_cases settles : op.Settles m
      · refine .inl ((commits.onlyBrought tidy_ held (past.later later) settles).mono ?_)
        exact fun field given brings => ⟨op, moment, List.mem_singleton_self _, brings⟩
      · refine .inr ⟨commits.past tidy_ held (past.later later) settles held' one, ?_⟩
        intro other at_ same
        cases same
        exact settles
  | looksUp finds => exact .inr ⟨row held ▸ past, by simp⟩
  | passes later => exact .inr ⟨row held ▸ past.later later, by simp⟩
  | outside changed =>
      refine .inr ⟨?_, by simp⟩
      cases changed with
      | becomes goOn emails stays tokens =>
          rw [row held]
          obtain ⟨ended, date, ⟨a, present, account, day, ends, retained⟩, none_⟩ := past
          obtain ⟨a', present', goesOn, setting⟩ := goOn.goesOn a present
          exact ⟨(Tables.membershipEnded_congr rfl rfl rfl).trans ended, date,
            ⟨a', present', goesOn.id.trans account, day, .of_same (s := state.tables) rfl ends,
              setting ▸ retained⟩, none_⟩

theorem FauStep.lapsed (stepped : FauStep state event next) (tidy : state.Tidy)
    (lapsed : state.Lapsed m events)
    : next.Lapsed m (events ++ [event]) := by
  obtain ⟨row, held, id, accountId, holds⟩ := lapsed
  obtain ⟨row', held', goesOn⟩ := stepped.changes.memberships.goesOn row held
  refine ⟨row', held', goesOn.id.trans id, goesOn.accountId.trans accountId, ?_⟩
  have earlier (field : ProfileField) (given : Ciphertext)
      (brought : BroughtIn events field m.id given)
      : BroughtIn (events ++ [event]) field m.id given := by
    obtain ⟨op, moment, inside, brings⟩ := brought
    exact ⟨op, moment, List.mem_append_left _ inside, brings⟩
  have now (field : ProfileField) (id : Nat) (given : Ciphertext)
      (brought : BroughtIn [event] field id given)
      : BroughtIn (events ++ [event]) field id given := by
    obtain ⟨op, moment, inside, brings⟩ := brought
    exact ⟨op, moment, List.mem_append_right _ inside, brings⟩
  rcases holds with only | ⟨past, unsettled⟩
  · refine .inl ((only.mono earlier).fieldsFrom fun m' held' field given there => ?_)
    exact (stepped.fieldsFrom m' held' field given there).imp_left (now field m'.id given)
  · refine (stepped.past tidy held past held' goesOn.id).imp (fun only => ?_) fun still => ?_
    · exact id ▸ only.mono fun field given => now field row.id given
    · refine ⟨still.1, fun op moment inside => ?_⟩
      rcases List.mem_append.mp inside with old | last
      · exact unsettled op moment old
      · rw [← Operation.settles_congr id accountId]
        exact still.2 op moment (List.mem_singleton.mp last).symm

theorem run_lapsed (run : fauSystem.Run state events next) (reached : fauSystem.Reachable state)
    (lapsed : state.Lapsed m [])
    : next.Lapsed m events := by
  induction run with
  | done => exact lapsed
  | next earlier stepped ih =>
      exact FauStep.lapsed stepped (reachable_tidy (reached.run earlier)) ih

/-- Every stamp of an ended membership is the date that its end and its account's setting give, a
revoked membership that holds a field is stamped, and the sweep leaves no ended membership a field
past its date. From the date on, what the membership held is gone with the first operation that
settles it, and nothing brings it back.
-/
theorem profiles_retained
    : (∀ state, fauSystem.Reachable state →
        ∀ m ∈ state.tables.memberships, state.tables.membershipEnded m state.today = true →
          ∀ until_, m.profileRetainedUntil = some until_ →
            ∃ months ended, state.tables.accountRetention m.id = some months
              ∧ state.tables.endedOnFor m.id state.today = some ended
              ∧ retainedUntil ended months = some until_)
      ∧ (∀ state, fauSystem.Reachable state →
          ∀ m ∈ state.tables.memberships, m.revokedAt.isSome → m.hasFields = true →
            m.profileRetainedUntil.isSome)
      ∧ (∀ state next moment, fauSystem.Reachable state →
          fauSystem.step state (.operates .clearEndedProfiles moment) next →
          ∀ m ∈ next.tables.memberships, next.tables.membershipEnded m next.today = true →
            m.hasFields = true →
            ∃ months ended until_, next.tables.accountRetention m.id = some months
              ∧ next.tables.endedOnFor m.id next.today = some ended
              ∧ retainedUntil ended months = some until_ ∧ next.today < until_)
      ∧ ∀ state next events, fauSystem.Reachable state → fauSystem.Run state events next →
          ∀ m ∈ state.tables.memberships, state.tables.membershipEnded m state.today = true →
          ∀ months ended, state.tables.accountRetention m.id = some months →
          state.tables.endedOnFor m.id state.today = some ended →
          keepUntil ended months state.today = none →
          ∀ m' ∈ next.tables.memberships, m'.id = m.id →
            (∀ field given, m'.field field = some given → BroughtIn events field m.id given)
            ∨ (∀ op moment, .operates op moment ∈ events → ¬ op.Settles m)
              ∧ next.tables.membershipEnded m' next.today = true
              ∧ ∃ months' ended', next.tables.accountRetention m'.id = some months'
                  ∧ next.tables.endedOnFor m'.id next.today = some ended'
                  ∧ keepUntil ended' months' next.today = none := by
  refine ⟨?_, ?_, ?_, ?_⟩
  · intro state reached m held gone until_ stamp
    have tidy := (reachable_tidy reached).tables
    obtain ⟨months, ended, setting, reads, retained⟩ :=
      tidy.reads_of_keptUntil held gone (tidy.stamped m held until_ stamp).2
    exact ⟨months, ended, setting, reads, retained⟩
  · intro state reached m held revoked fields
    have admissible := (reachable_tidy reached).tables.admissible m held
    exact MembershipRow.admissible_revoked admissible revoked fields
  · intro state next moment reached stepped m held gone fields
    have tidy := (reachable_tidy (reached.step stepped)).tables
    cases stepped with
    | operates later lookedUp commits =>
        obtain ⟨_, commits⟩ := commits
        have before := (reachable_tidy reached).tables.later later
        obtain ⟨until_, stamp, ahead⟩ := clearEndedProfiles_kept before commits m held gone fields
        obtain ⟨months, ended, setting, reads, retained⟩ :=
          tidy.reads_of_keptUntil held gone (tidy.stamped m held until_ stamp).2
        exact ⟨months, ended, until_, setting, reads, retained, ahead⟩
  · intro state next events reached run m held gone months ended setting reads none_ m' held' one
    have tidy := (reachable_tidy reached).tables
    have lapsed : state.Lapsed m [] :=
      ⟨m, held, rfl, rfl,
        .inr ⟨⟨gone, _, tidy.keptUntil_of_reads held gone setting reads, none_⟩,
          fun _ _ inside => absurd inside List.not_mem_nil⟩⟩
    have tidy' := (reachable_tidy (reached.run run)).tables
    obtain ⟨row, there, id, _, holds⟩ := run_lapsed run reached lapsed
    obtain rfl := tidy'.row_eq there held' (one.trans id.symm)
    refine holds.imp (fun only => only m' held' one) fun still => ?_
    obtain ⟨⟨gone', date, kept, none'⟩, unsettled⟩ := still
    obtain ⟨months', ended', setting', reads', rfl⟩ := tidy'.reads_of_keptUntil held' gone' kept
    exact ⟨unsettled, gone', months', ended', setting', reads', none'⟩

end

-----------------------------------------------------------------------------------------
-- A term remembered for three months

section

attribute [local instance] OsloZone.winterAndSummer

/-- In June the sweep notices that Kari's term was over in May. -/
def rememberedFau : Tables := (clearEndedProfiles june).leaves activatedFau

/-- Kari's term, were it over in February. -/
def shortTermFau : Tables :=
  (activateTenant ⟨⟨"kari@example.no"⟩, kariProfile⟩ newYear).leaves
    { signedUpFau with signup := some ⟨⟨"kari@example.no"⟩, ⟨"kari@example.no"⟩,
        .ofParts 1970 2 1 rfl, 1000⟩ }

def forgottenFau : Tables := (clearEndedProfiles june).leaves shortTermFau

theorem rememberedFau_reachable : fauSystem.Reachable ⟨rememberedFau, june.today, []⟩ := by
  have start : fauSystem.Reachable ⟨signedUpFau, newYear.today, []⟩ :=
    .start ⟨signedUpFau_justSignedUp, rfl⟩
  have activated : FauStep ⟨signedUpFau, newYear.today, []⟩
      (.operates (.activateTenant ⟨⟨"kari@example.no"⟩, kariProfile⟩) newYear)
      ⟨activatedFau, newYear.today, []⟩ :=
    .operates (le_refl _) (by simp) activatedFau_commits
  have swept : FauStep ⟨activatedFau, newYear.today, []⟩ (.operates .clearEndedProfiles june)
      ⟨rememberedFau, june.today, []⟩ :=
    .operates (by decide +kernel) (by simp) (leaves_commits (by decide +kernel))
  exact (start.step activated).step swept

theorem shortTermFau_reachable : fauSystem.Reachable ⟨shortTermFau, june.today, []⟩ := by
  have start : fauSystem.Reachable ⟨{ signedUpFau with signup := some ⟨⟨"kari@example.no"⟩,
      ⟨"kari@example.no"⟩, .ofParts 1970 2 1 rfl, 1000⟩ }, newYear.today, []⟩ :=
    .start ⟨⟨by decide, by decide, rfl, rfl, rfl⟩, rfl⟩
  have activated : FauStep ⟨{ signedUpFau with signup := some ⟨⟨"kari@example.no"⟩,
      ⟨"kari@example.no"⟩, .ofParts 1970 2 1 rfl, 1000⟩ }, newYear.today, []⟩
      (.operates (.activateTenant ⟨⟨"kari@example.no"⟩, kariProfile⟩) newYear)
      ⟨shortTermFau, newYear.today, []⟩ :=
    .operates (le_refl _) (by simp) (leaves_commits (by decide +kernel))
  exact (start.step activated).step
    (FauStep.passes (by decide +kernel : newYear.today ≤ june.today))

theorem forgottenFau_step
    : FauStep ⟨shortTermFau, june.today, []⟩ (.operates .clearEndedProfiles june)
        ⟨forgottenFau, june.today, []⟩ :=
  .operates (le_refl _) (by simp) (leaves_commits (by decide +kernel))

/-- A term that was over in May is remembered until August, and one that was over in February is
forgotten in June.
-/
theorem kari_profiles_retained
    : (∃ months ended, rememberedFau.accountRetention 1 = some months
        ∧ rememberedFau.endedOnFor 1 june.today = some ended
        ∧ retainedUntil ended months = some (.ofParts 1970 8 1 rfl))
      ∧ ((∀ field given,
            (⟨1, 1, none, none, none, none, none⟩ : MembershipRow).field field = some given →
            BroughtIn [.operates .clearEndedProfiles june] field 1 given)
          ∨ (∀ op moment, .operates op moment ∈ [FauEvent.operates .clearEndedProfiles june] →
                ¬ op.Settles ⟨1, 1, none, some kariProfile.encryptedDisplayName, none, none, none⟩)
            ∧ forgottenFau.membershipEnded ⟨1, 1, none, none, none, none, none⟩ june.today = true
            ∧ ∃ months' ended', forgottenFau.accountRetention 1 = some months'
                ∧ forgottenFau.endedOnFor 1 june.today = some ended'
                ∧ keepUntil ended' months' june.today = none) :=
  ⟨profiles_retained.1 _ rememberedFau_reachable
      ⟨1, 1, none, some kariProfile.encryptedDisplayName, none, none,
        some (.ofParts 1970 8 1 rfl)⟩ (by decide +kernel) (by decide +kernel) _ rfl,
    profiles_retained.2.2.2 _ _ _ shortTermFau_reachable (.single forgottenFau_step)
      ⟨1, 1, none, some kariProfile.encryptedDisplayName, none, none, none⟩ (by decide +kernel)
      (by decide +kernel) .three (.ofParts 1970 2 1 rfl) (by decide +kernel) (by decide +kernel)
      (by decide +kernel) ⟨1, 1, none, none, none, none, none⟩ (by decide +kernel) rfl⟩

end

end FauPortalen.Membership

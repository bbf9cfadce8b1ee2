import FauPortalen.Membership.ProfileRetention

/-! The name and address a membership holds: every operation leaves the fields there were, or those
that it brings.
-/

set_option linter.unusedSectionVars false

namespace FauPortalen.Membership

open Foundations Transaction

variable [OsloZone] {moment : Moment} {s s' after : Tables} {membershipId : Nat}
  {m m' : MembershipRow}

-----------------------------------------------------------------------------------------
-- Where fields come from

/-- What a profile keeps of a person. -/
inductive ProfileField
  | displayName
  | contactEmail

def MembershipRow.field (m : MembershipRow) : ProfileField → Option Ciphertext
  | .displayName => m.encryptedDisplayName
  | .contactEmail => m.encryptedContactEmail

theorem MembershipRow.field_none {field : ProfileField} (none_ : m.hasFields = false)
    : m.field field = none := by
  simp only [hasFields, Bool.or_eq_false_iff, Option.isSome_eq_false_iff, Option.isNone_iff_eq_none]
    at none_
  cases field
  · exact none_.1
  · exact none_.2

/-- The trigger changes neither a row's id nor its fields. -/
theorem MembershipRow.retentionFollowsFields_id (old new : MembershipRow)
    : (old.retentionFollowsFields new).id = new.id := by
  unfold retentionFollowsFields
  split <;> rfl

theorem MembershipRow.retentionFollowsFields_field (old new : MembershipRow) (field : ProfileField)
    : (old.retentionFollowsFields new).field field = new.field field := by
  unfold retentionFollowsFields
  split
  · cases field <;> rfl
  · rfl

/-- Every field afterwards is one the membership held before, or one that was brought. -/
def Tables.FieldsFrom (brought : ProfileField → Nat → Ciphertext → Prop) (s s' : Tables) : Prop :=
  ∀ m' ∈ s'.memberships, ∀ field given, m'.field field = some given →
    brought field m'.id given ∨ ∃ m ∈ s.memberships, m.id = m'.id ∧ m.field field = some given

section

variable {brought : ProfileField → Nat → Ciphertext → Prop}

theorem Tables.FieldsFrom.of_same (same : s'.memberships = s.memberships)
    : s.FieldsFrom brought s' :=
  fun m held _ _ there => .inr ⟨m, same ▸ held, rfl, there⟩

instance : IsPreorder Tables (Tables.FieldsFrom brought) where
  refl _ := .of_same rfl
  trans s middle after first second := by
    intro m'' held'' field given there
    rcases second m'' held'' field given there with new | ⟨m', held', one, there'⟩
    · exact .inl new
    · exact one ▸ first m' held' field given there'

theorem update_fieldsFrom {change : Tables → Tables}
    (same : ∀ s, (change s).memberships = s.memberships)
    : Within (Tables.FieldsFrom brought) (update change : Tx Unit) := by
  intro s u after commits
  obtain rfl := commits_update.mp commits
  exact .of_same (same s)

/-- An update of rows brings what its change brings. -/
theorem updateMemberships_fieldsFrom {picks : MembershipRow → Bool}
    {change : MembershipRow → MembershipRow} (keeps : ∀ m, (change m).id = m.id)
    (fields : ∀ m, picks m → ∀ field given, (change m).field field = some given →
      brought field m.id given ∨ m.field field = some given)
    : Within (Tables.FieldsFrom brought) (updateMemberships picks change) := by
  intro s u after commits
  obtain ⟨_, rfl⟩ := commits_updateMemberships.mp commits
  intro m' held' field given there
  obtain ⟨m, held, rfl⟩ := List.mem_map.mp held'
  by_cases picked : picks m = true
  · rw [if_pos picked] at there ⊢
    rw [MembershipRow.retentionFollowsFields_field] at there
    rw [MembershipRow.retentionFollowsFields_id, keeps m]
    exact (fields m picked field given there).imp_right fun old => ⟨m, held, rfl, old⟩
  · rw [if_neg picked] at there ⊢
    exact .inr ⟨m, held, rfl, there⟩

theorem updateMembership_fieldsFrom {change : MembershipRow → MembershipRow}
    (keeps : ∀ m, (change m).id = m.id)
    (fields : ∀ m, m.id = membershipId → ∀ field given, (change m).field field = some given →
      brought field m.id given ∨ m.field field = some given)
    : Within (Tables.FieldsFrom brought) (updateMembership membershipId change) :=
  updateMemberships_fieldsFrom keeps fun m picked => fields m (of_decide_eq_true picked)

theorem clearProfile_fieldsFrom
    : Within (Tables.FieldsFrom brought) (clearProfile membershipId) :=
  updateMembership_fieldsFrom (fun _ => rfl) fun _ _ field _ there => by
    cases field <;> cases there

theorem settleProfile_fieldsFrom
    : Within (Tables.FieldsFrom brought) (settleProfile membershipId moment) := by
  refine .bind .select fun _ => .bind .expect fun m => .bind .select fun ended => ?_
  refine .ite .pure (.ite .pure (.bind effectiveKeepUntil_within fun until_ => ?_))
  split
  · exact .pure
  · refine .bind (updateMembership_fieldsFrom (fun _ => rfl) fun _ _ field _ there => ?_)
      fun _ => .pure
    exact .inr (by cases field <;> exact there)
  · exact .bind clearProfile_fieldsFrom fun _ => .pure

theorem SettlesAll.fieldsFrom {ids : List Nat} (all : SettlesAll moment ids s after)
    : s.FieldsFrom brought after := by
  induction all with
  | nil => exact .of_same rfl
  | cons settles others ih =>
      exact IsTrans.trans _ _ _ (settleProfile_fieldsFrom _ _ _ settles) ih

theorem removeFromAllGroups_fieldsFrom {at_ : Timestamp}
    : Within (Tables.FieldsFrom brought) (removeFromAllGroups membershipId at_) :=
  update_fieldsFrom fun _ => rfl

theorem reopenProfile_fieldsFrom
    : Within (Tables.FieldsFrom brought) (reopenProfile membershipId moment) := by
  refine .bind .select fun _ => .bind .expect fun _ => .bind .select fun _ =>
    .bind (.onlyIf removeFromAllGroups_fieldsFrom) fun _ => .bind settleProfile_fieldsFrom fun _ =>
    .bind (updateMembership_fieldsFrom (fun _ => rfl) fun _ _ field _ there => ?_) fun _ => .pure
  exact .inr (by cases field <;> exact there)

theorem ensureMembership_fieldsFrom {accountId expectedId : Nat}
    : Within (Tables.FieldsFrom brought) (ensureMembership accountId expectedId moment) := by
  refine .bind .select fun found => ?_
  split
  · exact .bind .require fun _ => .bind .require fun _ =>
      .bind reopenProfile_fieldsFrom fun _ => .pure
  · refine .bind .select fun _ => .bind .require fun _ => .bind ?_ fun _ => .pure
    intro s u after commits
    obtain rfl := commits_update.mp commits
    intro m' held' field given there
    rcases List.mem_append.mp held' with old | added
    · exact .inr ⟨m', old, rfl, there⟩
    · rw [List.mem_singleton.mp added] at there
      cases field <;> cases there

theorem clearEndedProfiles_fieldsFrom
    : Within (Tables.FieldsFrom brought) (clearEndedProfiles moment) :=
  .bind .select fun _ => .ite
    (.bind lockTenant_within fun _ => .bind .select fun _ =>
      .bind (.foldlM fun _ _ => .bind settleProfile_fieldsFrom fun _ => .pure) fun _ =>
      .bind .select fun _ => .bind (.forM fun _ => removeFromAllGroups_fieldsFrom) fun _ => .pure)
    .pure

theorem restampProfile_fieldsFrom {months : RetentionMonths} {stamped : Nat × Date}
    : Within (Tables.FieldsFrom brought) (restampProfile months moment stamped) := by
  refine .bind .select fun _ => .bind .expect fun ended => ?_
  split
  · exact clearProfile_fieldsFrom
  · refine .ite (updateMembership_fieldsFrom (fun _ => rfl) fun _ _ field _ there => ?_) .pure
    exact .inr (by cases field <;> exact there)

theorem setRetentionMonths_fieldsFrom {accountId : Nat} {months : RetentionMonths}
    : Within (Tables.FieldsFrom brought) (setRetentionMonths accountId months moment) :=
  .bind .select fun _ => .bind (.onlyIf (.bind lockTenant_within fun _ => .bind .select fun _ =>
      .forM fun _ => .bind settleProfile_fieldsFrom fun _ => .pure)) fun _ =>
    .bind .select fun _ => .bind .require fun _ => .bind (update_fieldsFrom fun _ => rfl) fun _ =>
    .onlyIf (.bind .select fun _ => .forM fun _ => restampProfile_fieldsFrom)

theorem eraseMemberNames_fieldsFrom {accountId : Nat}
    : Within (Tables.FieldsFrom brought) (eraseMemberNames accountId moment) :=
  .bind .select fun _ => .ite
    (.bind lockTenant_within fun _ => updateMemberships_fieldsFrom (fun _ => rfl)
      fun _ _ field _ there => by cases field <;> cases there)
    .pure

end

-----------------------------------------------------------------------------------------
-- What every operation brings

def MemberProfile.field (profile : MemberProfile) : ProfileField → Option Ciphertext
  | .displayName => some profile.encryptedDisplayName
  | .contactEmail => profile.encryptedContactEmail

/-- The operation brings the membership the field. -/
def Operation.Brings (op : Operation) (field : ProfileField) (membershipId : Nat)
    (given : Ciphertext)
    : Prop :=
  match op with
  | acceptInvitation _ req =>
      req.profile.membershipId = membershipId ∧ req.profile.field field = some given
  | activateTenant activation =>
      activation.profile.membershipId = membershipId ∧ activation.profile.field field = some given
  | setDisplayName req =>
      req.membershipId = membershipId ∧ field = .displayName ∧ req.encryptedDisplayName = given
  | setContactEmail req =>
      req.membershipId = membershipId ∧ field = .contactEmail
        ∧ req.encryptedContactEmail = some given
  | _ => False

section

variable {brought : ProfileField → Nat → Ciphertext → Prop}

theorem writeProfile_fieldsFrom {profile : MemberProfile} {alreadyCurrent : Bool}
    (brings : ∀ field given, profile.field field = some given →
      brought field profile.membershipId given)
    : Within (Tables.FieldsFrom brought) (writeProfile profile alreadyCurrent) := by
  refine updateMembership_fieldsFrom (fun _ => rfl) fun m one field given there => ?_
  rw [one]
  cases field with
  | displayName => exact .inl (brings .displayName given there)
  | contactEmail =>
      have there : (if alreadyCurrent && profile.encryptedContactEmail.isNone
        then m.encryptedContactEmail else profile.encryptedContactEmail) = some given := there
      split at there
      · exact .inr there
      · exact .inl (brings .contactEmail given there)

theorem setDisplayName_fieldsFrom {req : SetDisplayName}
    (brings : ∀ given, req.encryptedDisplayName = given →
      brought .displayName req.membershipId given)
    : Within (Tables.FieldsFrom brought) (setDisplayName req moment) := by
  refine .bind .require fun _ => .bind lockTenant_within fun _ => .bind requireOpen_within fun _ =>
    .bind (.ite (.bind .select fun _ => .require) requireAdmin_within) fun _ =>
    .bind .select fun _ => .bind .expect fun _ => .bind .require fun _ =>
    .bind .select fun _ => .bind .require fun _ =>
    updateMembership_fieldsFrom (fun _ => rfl) fun m one field given there => ?_
  rw [one]
  cases field with
  | displayName => exact .inl (brings given (Option.some.inj there))
  | contactEmail => exact .inr there

theorem setContactEmail_fieldsFrom {req : SetContactEmail}
    (brings : ∀ given, req.encryptedContactEmail = some given →
      brought .contactEmail req.membershipId given)
    : Within (Tables.FieldsFrom brought) (setContactEmail req moment) := by
  refine .bind checkGivenContactEmail_within fun _ => .bind lockTenant_within fun _ =>
    .bind (.onlyIf requireOpen_within) fun _ => .bind .select fun _ => .bind .require fun _ =>
    .bind .select fun _ => .bind .expect fun _ => .bind .require fun _ =>
    updateMembership_fieldsFrom (fun _ => rfl) fun m one field given there => ?_
  rw [one]
  cases field with
  | displayName => exact .inr there
  | contactEmail => exact .inl (brings given there)

theorem RevocationPath.fieldsFrom {req : RevokeMembership}
    (path : RevocationPath req moment s after)
    : s.FieldsFrom brought after := by
  have revokes : Within (Tables.FieldsFrom brought)
      (updateMembership req.membershipId (MembershipRow.revoke moment.now path.keep)) := by
    refine updateMembership_fieldsFrom (fun _ => rfl) fun m _ field given there => .inr ?_
    cases field <;>
    · simp only [MembershipRow.field, MembershipRow.revoke] at there ⊢
      split at there
      · cases there
      · exact there
  have closed := revokes _ _ _ path.closes
  exact IsTrans.trans (r := Tables.FieldsFrom brought) _ _ _ (.of_same path.memberships)
    (IsTrans.trans _ _ _ closed
      (.of_same (path.cascades.sameMemberships (by simp) (by simp))))

end

/-- An operation brings no field but its own. -/
theorem Operation.Commits.fieldsFrom {op : Operation} (commits : op.Commits moment s after)
    : s.FieldsFrom op.Brings after := by
  have changes := commits.changes
  cases op
  case acceptInvitation found req =>
    obtain ⟨_, commits⟩ := commits
    obtain ⟨path⟩ := acceptInvitation_commits commits
    have joins : path.verified.FieldsFrom (acceptInvitation found req).Brings path.entered :=
      ensureMembership_fieldsFrom _ _ _ path.joins
    have names : Within (Tables.FieldsFrom (acceptInvitation found req).Brings)
        (writeProfile req.profile path.joined.2.2) :=
      writeProfile_fieldsFrom fun _ _ given => ⟨rfl, given⟩
    have first := path.verifies_changes.sameMemberships (by simp) (by simp)
    have given := path.gives_changes.sameMemberships (by simp) (by simp)
    have marked := path.marks_changes.sameMemberships (by simp) (by simp)
    exact IsTrans.trans (r := Tables.FieldsFrom (acceptInvitation found req).Brings) _ _ _
      (.of_same first) (IsTrans.trans _ _ _ joins
        (IsTrans.trans _ _ _ (names _ _ _ path.names) (.of_same (marked.trans given))))
  case activateTenant activation =>
    obtain ⟨_, commits⟩ := commits
    obtain ⟨path⟩ := activateTenant_commits commits
    have joins : path.verified.FieldsFrom (activateTenant activation).Brings path.entered :=
      ensureMembership_fieldsFrom _ _ _ path.joins
    have names : Within (Tables.FieldsFrom (activateTenant activation).Brings)
        (writeProfile activation.profile path.joined.2.2) :=
      writeProfile_fieldsFrom fun _ _ given => ⟨rfl, given⟩
    have first := path.verifies_changes.sameMemberships (by simp) (by simp)
    have titled := path.titles_changes.sameMemberships (by simp) (by simp)
    have given := path.gives_changes.sameMemberships (by simp) (by simp)
    have invited := path.invites_changes.sameMemberships (by simp) (by simp)
    have closed := congrArg Tables.memberships path.after
    exact IsTrans.trans (r := Tables.FieldsFrom (activateTenant activation).Brings) _ _ _
      (.of_same first) (IsTrans.trans _ _ _ joins (IsTrans.trans _ _ _ (names _ _ _ path.names)
        (.of_same (closed.trans (invited.trans (given.trans titled))))))
  case grantRole req =>
    obtain ⟨_, commits⟩ := commits
    obtain ⟨path⟩ := grantRole_commits commits
    obtain ⟨roles, titled⟩ := path.resolves.added
    obtain ⟨_, given⟩ := commits_insertAssignment.mp path.gives
    have resolved : path.resolved.memberships = s.memberships := by rw [titled]
    have closed := congrArg Tables.memberships given
    have opens : path.resolved.FieldsFrom (grantRole req).Brings path.opened :=
      reopenProfile_fieldsFrom _ _ _ path.opens
    exact IsTrans.trans (r := Tables.FieldsFrom (grantRole req).Brings) _ _ _
      (.of_same resolved) (IsTrans.trans _ _ _ opens (.of_same closed))
  case revokeMembership =>
    obtain ⟨_, commits⟩ := commits
    obtain ⟨path⟩ := revokeMembership_path commits
    exact path.fieldsFrom
  case clearEndedProfiles =>
    obtain ⟨_, commits⟩ := commits
    exact clearEndedProfiles_fieldsFrom _ _ _ commits
  case setRetentionMonths =>
    obtain ⟨_, commits⟩ := commits
    exact setRetentionMonths_fieldsFrom _ _ _ commits
  case eraseMemberNames =>
    obtain ⟨_, commits⟩ := commits
    exact eraseMemberNames_fieldsFrom _ _ _ commits
  case setDisplayName req =>
    obtain ⟨_, commits⟩ := commits
    exact setDisplayName_fieldsFrom (fun _ given => ⟨rfl, rfl, given⟩) _ _ _ commits
  case setContactEmail req =>
    obtain ⟨_, commits⟩ := commits
    exact setContactEmail_fieldsFrom (fun _ given => ⟨rfl, rfl, given⟩) _ _ _ commits
  all_goals
    exact .of_same (changes.sameMemberships (by simp [written]) (by simp [written]))

end FauPortalen.Membership

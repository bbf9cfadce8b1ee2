import FauPortalen.Membership.AddressExport
import FauPortalen.Membership.LeavingGroups

/-! One authorization rule for every reader: the group list, the group members, the directory's
sections and the exported addresses are those that the rule itself gives, person by person.
-/

set_option linter.unusedSectionVars false

namespace FauPortalen.Membership

open Foundations

section

variable [OsloZone] {s : Tables} {viewer : Viewer} {today : Date} {groupId membershipId : Nat}

-----------------------------------------------------------------------------------------
-- Rows under their keys

/-- The primary keys of the tables that the readers go through. -/
structure Tables.PrimaryKeys (s : Tables) : Prop where
  memberships : (s.memberships.map (·.id)).Nodup
  roles : (s.roles.map (·.id)).Nodup
  groups : (s.groups.map (·.id)).Nodup

/-- A usable account, and some role valid that day. -/
def Tables.hasStanding (s : Tables) (membershipId : Nat) (today : Date) : Bool :=
  s.memberships.any fun m => m.id = membershipId && s.standingToday m today

/-- The membership's name has been erased. -/
def Tables.isErased (s : Tables) (membershipId : Nat) : Bool :=
  s.memberships.any fun m => m.id = membershipId && m.nameErasedAt.isSome

/-- The in-group fact about a membership, were it the one that asks. -/
def Tables.inGroupFact (s : Tables) (viewer : Viewer) (membershipId groupId : Nat) (today : Date)
    : Bool :=
  (s.groupFacts { viewer with membershipId := membershipId } groupId today).any (·.viewerInGroup)

/-- The viewer may read the group. -/
def Tables.mayRead (s : Tables) (viewer : Viewer) (resource : Resource) (today : Date) : Prop :=
  s.authorize viewer resource .read today = .ok ()

-----------------------------------------------------------------------------------------
-- The groups of a viewer

theorem Tables.mayRead_group
    : s.mayRead viewer (.group groupId) today
      ↔ ∃ g, s.group groupId = some g
          ∧ (s.membershipAccess viewer.membershipId today).capability.decide
              (.group ⟨g.visibility, g.archivedAt.isSome, s.inGroup viewer.membershipId g today⟩)
              .read = .ok () := by
  rw [mayRead, authorize_eq_ok]
  simp only [target, groupFacts, Option.map_map, Option.map_eq_some_iff, Function.comp_apply]
  constructor
  · rintro ⟨_, ⟨g, found, rfl⟩, reads⟩
    exact ⟨g, found, reads⟩
  · rintro ⟨g, found, reads⟩
    exact ⟨_, ⟨g, found, rfl⟩, reads⟩

/-- A listed group, as the viewer sees it. -/
theorem Tables.mem_readableGroups {capability : Capability} {view : GroupView}
    : view ∈ s.readableGroups viewer capability today
      ↔ ∃ g ∈ s.groups,
          view = ⟨g.id, g.encryptedName, g.visibility, g.archivedAt.isSome, g.binding,
            s.inGroup viewer.membershipId g today⟩
          ∧ capability.decide
              (.group ⟨g.visibility, g.archivedAt.isSome, s.inGroup viewer.membershipId g today⟩)
              .read = .ok () := by
  simp only [readableGroups, List.mem_filter, List.mem_map, mem_sortOn, decide_eq_true_eq]
  constructor
  · rintro ⟨⟨g, inside, rfl⟩, reads⟩
    exact ⟨g, inside, rfl, reads⟩
  · rintro ⟨g, inside, rfl, reads⟩
    exact ⟨⟨g, inside, rfl⟩, reads⟩

/-- The groups listed for a viewer's own capability are those the rule lets them read. -/
theorem Tables.readableGroups_iff (keys : s.PrimaryKeys)
    : groupId ∈ (s.readableGroups viewer
          (s.membershipAccess viewer.membershipId today).capability today).map (·.groupId)
      ↔ s.mayRead viewer (.group groupId) today := by
  rw [mayRead_group, List.mem_map]
  constructor
  · rintro ⟨view, listed, rfl⟩
    obtain ⟨g, inside, rfl, reads⟩ := mem_readableGroups.mp listed
    exact ⟨g, (findRow_eq_some keys.groups).mpr ⟨inside, rfl⟩, reads⟩
  · rintro ⟨g, found, reads⟩
    obtain ⟨inside, rfl⟩ := of_findRow found
    exact ⟨_, mem_readableGroups.mpr ⟨g, inside, rfl, reads⟩, rfl⟩

/-- Each is listed once. -/
theorem Tables.readableGroups_nodup {capability : Capability} (keys : s.PrimaryKeys)
    : ((s.readableGroups viewer capability today).map (·.groupId)).Nodup := by
  have sorted : ((sortOn Group.id s.groups).map (·.id)).Nodup :=
    ((perm_sortOn Group.id s.groups).map _).nodup_iff.mpr keys.groups
  refine List.Nodup.sublist (List.filter_sublist.map _) ?_
  rw [List.map_map]
  exact sorted

-----------------------------------------------------------------------------------------
-- The members of a group

/-- The rows of the union: by hand, or through a role that a group follows. -/
theorem Tables.mem_groupRows {wanted : Nat → Bool} {row : Nat × Nat × Bool}
    : row ∈ s.groupRows wanted today
      ↔ wanted row.1 = true
          ∧ (row.2.2 = true ∧ s.addedByHand row.2.1 row.1 = true
            ∨ row.2.2 = false ∧ ∃ g ∈ s.groups, g.id = row.1
                ∧ s.throughRole row.2.1 g today = true) := by
  obtain ⟨groupId, membershipId, byHand⟩ := row
  simp only [groupRows, addedByHand, throughRole, List.mem_append, List.mem_map, List.mem_flatMap,
    List.mem_filter, List.any_eq_true, Bool.and_eq_true, decide_eq_true_eq, Prod.mk.injEq]
  constructor
  · rintro (⟨gm, ⟨added, asked, live⟩, rfl, rfl, rfl⟩
      | ⟨g, ⟨inside, asked⟩, r, ⟨present, follows⟩, ra, ⟨held, same, valid⟩, rfl, rfl, rfl⟩)
    · exact ⟨asked, .inl ⟨rfl, gm, added, ⟨rfl, rfl⟩, live⟩⟩
    · exact ⟨asked, .inr ⟨rfl, g, inside, rfl, ra, held, ⟨rfl, valid⟩, r, present, same.symm,
        follows⟩⟩
  · rintro ⟨asked, ⟨rfl, gm, added, ⟨rfl, rfl⟩, live⟩
      | ⟨rfl, g, inside, rfl, ra, held, ⟨rfl, valid⟩, r, present, same, follows⟩⟩
    · exact .inl ⟨gm, ⟨added, asked, live⟩, rfl, rfl, rfl⟩
    · exact .inr ⟨g, ⟨inside, asked⟩, r, ⟨present, follows⟩, ra, ⟨held, same.symm, valid⟩, rfl, rfl,
        rfl⟩

/-- The in-group fact of a group that exists. -/
theorem Tables.inGroupFact_eq {g : Group} (found : s.group groupId = some g)
    : s.inGroupFact viewer membershipId groupId today = s.inGroup membershipId g today := by
  rw [inGroupFact, groupFacts, found]
  rfl

/-- The groups' members with standing, as pairs in order. -/
theorem Tables.groupMembersOf_pairs (wanted : Nat → Bool)
    : (s.groupMembersOf wanted today).map (fun row => (row.1, row.2.1))
      = (sortedKeys (((s.groupRows wanted today).filter fun row =>
          s.hasStanding row.2.1 today).map fun row => toLex (row.1, row.2.1))).map ofLex := by
  rw [groupMembersOf, List.map_map]
  rfl

/-- The members listed for a group. -/
theorem Tables.mem_groupMembersOf_row {wanted : Nat → Bool}
    : membershipId ∈ ((s.groupMembersOf wanted today).filter (·.1 = groupId)).map (·.2.1)
      ↔ ∃ row ∈ s.groupRows wanted today, row.1 = groupId ∧ row.2.1 = membershipId
          ∧ s.hasStanding membershipId today = true := by
  have pair
      : membershipId ∈ ((s.groupMembersOf wanted today).filter (·.1 = groupId)).map (·.2.1)
        ↔ (groupId, membershipId)
            ∈ (s.groupMembersOf wanted today).map (fun row => (row.1, row.2.1)) := by
    simp only [List.mem_map, List.mem_filter, decide_eq_true_eq, Prod.mk.injEq]
    constructor
    · rintro ⟨row, ⟨inside, one⟩, same⟩
      exact ⟨row, inside, one, same⟩
    · rintro ⟨row, inside, one, same⟩
      exact ⟨row, ⟨inside, one⟩, same⟩
  rw [pair, groupMembersOf_pairs]
  simp only [List.mem_map, mem_sortedKeys, List.mem_filter]
  constructor
  · rintro ⟨_, ⟨row, ⟨inside, stands⟩, rfl⟩, same⟩
    obtain ⟨one, other⟩ := Prod.mk.inj same
    exact ⟨row, inside, one, other, other ▸ stands⟩
  · rintro ⟨row, inside, rfl, rfl, stands⟩
    exact ⟨_, ⟨row, ⟨inside, stands⟩, rfl⟩, rfl⟩

/-- Each member is listed once. -/
theorem Tables.groupMembersOf_nodup (wanted : Nat → Bool)
    : (((s.groupMembersOf wanted today).filter (·.1 = groupId)).map (·.2.1)).Nodup := by
  have pairs : ((s.groupMembersOf wanted today).map (fun row => (row.1, row.2.1))).Nodup := by
    rw [groupMembersOf_pairs]
    exact (nodup_sortedKeys _).map ofLex.injective
  refine List.pairwise_map.mpr ?_
  refine ((List.pairwise_map.mp pairs).filter _).imp_of_mem fun left right differ same => ?_
  have one := of_decide_eq_true (List.mem_filter.mp left).2
  have other := of_decide_eq_true (List.mem_filter.mp right).2
  exact differ (Prod.ext (one.trans other.symm) same)

/-- The current members of a wanted group: those with standing that are in it. -/
theorem Tables.mem_groupMembersOf (viewer : Viewer) (keys : s.PrimaryKeys) (wanted : Nat → Bool)
    {g : Group}
    (found : s.group groupId = some g) (asked : wanted groupId = true)
    : membershipId ∈ ((s.groupMembersOf wanted today).filter (·.1 = groupId)).map (·.2.1)
      ↔ s.hasStanding membershipId today = true
          ∧ s.inGroupFact viewer membershipId groupId today = true := by
  obtain ⟨inside, one⟩ := of_findRow found
  have group_eq {other : Group} (there : other ∈ s.groups) (same : other.id = groupId) : other = g :=
    List.inj_on_of_nodup_map keys.groups there inside (same.trans one.symm)
  rw [mem_groupMembersOf_row, inGroupFact_eq found, inGroup, Bool.or_eq_true, one]
  constructor
  · rintro ⟨row, present, rfl, rfl, stands⟩
    obtain ⟨_, ⟨_, hand⟩ | ⟨_, other, there, same, through⟩⟩ := mem_groupRows.mp present
    · exact ⟨stands, .inl hand⟩
    · exact ⟨stands, .inr (group_eq there same ▸ through)⟩
  · rintro ⟨stands, hand | through⟩
    · exact ⟨(groupId, membershipId, true), mem_groupRows.mpr ⟨asked, .inl ⟨rfl, hand⟩⟩, rfl, rfl,
        stands⟩
    · exact ⟨(groupId, membershipId, false),
        mem_groupRows.mpr ⟨asked, .inr ⟨rfl, g, inside, one, through⟩⟩, rfl, rfl, stands⟩

/-- What the member list of a group must be: refused unless the group is readable, and then those
with standing that are in it, each once.
-/
theorem Tables.listGroupMembers_eq (readable : s.mayRead viewer (.group groupId) today)
    : s.listGroupMembers viewer groupId today
      = .ok ((s.groupMembersOf (· = groupId) today).map fun row =>
          ⟨row.2.1, row.2.2.1, row.2.2.2⟩) := by
  rw [listGroupMembers, readable]

/-- Every row of one wanted group is that group's. -/
theorem Tables.groupMembersOf_single
    : (s.groupMembersOf (· = groupId) today).filter (·.1 = groupId)
      = s.groupMembersOf (· = groupId) today := by
  refine List.filter_eq_self.mpr fun row inside => ?_
  have pair : (row.1, row.2.1)
      ∈ (s.groupMembersOf (· = groupId) today).map (fun row => (row.1, row.2.1)) :=
    List.mem_map_of_mem inside
  rw [groupMembersOf_pairs] at pair
  simp only [List.mem_map, mem_sortedKeys, List.mem_filter] at pair
  obtain ⟨_, ⟨source, ⟨present, _⟩, rfl⟩, same⟩ := pair
  have asked := (mem_groupRows.mp present).1
  rw [← (Prod.mk.inj same).1]
  exact asked

theorem Tables.mem_listedMembers (viewer : Viewer) (keys : s.PrimaryKeys) {g : Group}
    (found : s.group groupId = some g)
    : membershipId ∈ (s.groupMembersOf (· = groupId) today).map (·.2.1)
      ↔ s.hasStanding membershipId today = true
          ∧ s.inGroupFact viewer membershipId groupId today = true := by
  rw [← mem_groupMembersOf viewer keys (· = groupId) found (by simp), groupMembersOf_single]

-----------------------------------------------------------------------------------------
-- The people of the directory

/-- Whoever has standing has an account. -/
theorem Tables.standingToday_account {m : MembershipRow} (stands : s.standingToday m today = true)
    : ∃ a, s.account m.accountId = some a := by
  simp only [standingToday, usable, accountUsable, Bool.and_eq_true, List.any_eq_true,
    decide_eq_true_eq] at stands
  obtain ⟨⟨_, a, held, same, _⟩, _⟩ := stands
  refine Option.ne_none_iff_exists'.mp fun none_ => ?_
  exact findRow_eq_none.mp none_ (same ▸ List.mem_map_of_mem held)

/-- A person of the directory's top-level list, from the membership. -/
theorem Tables.mem_standingPeople {p : DirectoryPerson}
    (listed : p ∈ s.standingPeople viewer today)
    : ∃ m ∈ s.memberships, p.membershipId = m.id ∧ s.standingToday m today = true
        ∧ m.nameErasedAt = none ∧ p.isGuest = s.guestOnly m.id today := by
  simp only [standingPeople, List.mem_filterMap, mem_sortOn, List.mem_filter,
    Option.map_eq_some_iff, Bool.and_eq_true, Option.isNone_iff_eq_none] at listed
  obtain ⟨m, ⟨inside, stands, kept⟩, _, _, rfl⟩ := listed
  exact ⟨m, inside, rfl, stands, kept, rfl⟩

/-- With unique keys a membership is erased when its row is. -/
theorem Tables.isErased_eq_false (keys : s.PrimaryKeys) {m : MembershipRow}
    (inside : m ∈ s.memberships)
    : s.isErased m.id = false ↔ m.nameErasedAt = none := by
  simp only [isErased, List.any_eq_false, Bool.and_eq_true, decide_eq_true_eq, not_and,
    Bool.not_eq_true, Option.isSome_eq_false_iff, Option.isNone_iff_eq_none]
  constructor
  · intro unerased
    exact unerased m inside rfl
  · intro unerased other there same
    rw [List.inj_on_of_nodup_map keys.memberships there inside same]
    exact unerased

/-- Everyone with standing whose name is not erased is in the top-level list. -/
theorem Tables.standingPeople_iff (viewer : Viewer) (keys : s.PrimaryKeys)
    : membershipId ∈ (s.standingPeople viewer today).map (·.membershipId)
      ↔ s.hasStanding membershipId today = true ∧ s.isErased membershipId = false := by
  constructor
  · intro listed
    obtain ⟨p, there, rfl⟩ := List.mem_map.mp listed
    obtain ⟨m, inside, one, stands, kept, _⟩ := mem_standingPeople there
    rw [one]
    exact ⟨List.any_eq_true.mpr ⟨m, inside, by simp [stands]⟩,
      (isErased_eq_false keys inside).mpr kept⟩
  · rintro ⟨some_, unerased⟩
    obtain ⟨m, inside, stands⟩ := List.any_eq_true.mp some_
    simp only [Bool.and_eq_true, decide_eq_true_eq] at stands
    obtain ⟨rfl, stands⟩ := stands
    have kept := (isErased_eq_false keys inside).mp unerased
    obtain ⟨a, account⟩ := standingToday_account stands
    simp only [standingPeople, List.map_filterMap, Option.map_map, List.mem_filterMap, mem_sortOn,
      List.mem_filter]
    exact ⟨m, ⟨inside, by simp [stands, kept]⟩, by rw [account]; rfl⟩

theorem Tables.standingPeople_nodup (keys : s.PrimaryKeys)
    : ((s.standingPeople viewer today).map (·.membershipId)).Nodup := by
  have distinct : ((sortOn MembershipRow.id (s.memberships.filter fun m =>
      s.standingToday m today && m.nameErasedAt.isNone)).map (·.id)).Nodup := by
    refine ((perm_sortOn _ _).map _).nodup_iff.mpr ?_
    exact keys.memberships.sublist (List.filter_sublist.map _)
  refine nodup_filterMap_keys distinct fun m _ m' _ p p' made made' same => ?_
  obtain ⟨_, _, rfl⟩ := Option.map_eq_some_iff.mp made
  obtain ⟨_, _, rfl⟩ := Option.map_eq_some_iff.mp made'
  exact same

/-- A role by its id, whichever way it is read. -/
theorem Tables.role_any (keys : s.PrimaryKeys) {roleId : Nat} {holds : Role → Bool}
    : (s.roles.any fun r => r.id = roleId && holds r) = (s.role roleId).any holds := by
  rw [Bool.eq_iff_iff, List.any_eq_true, Option.any_eq_true]
  simp only [Bool.and_eq_true, decide_eq_true_eq]
  constructor
  · rintro ⟨r, present, same, there⟩
    exact ⟨r, (findRow_eq_some keys.roles).mpr ⟨present, same⟩, there⟩
  · rintro ⟨r, found, there⟩
    obtain ⟨present, same⟩ := of_findRow found
    exact ⟨r, present, same, there⟩

/-- The capability of someone with standing in an active FAU reaches a member's when a valid role is
not a guest's.
-/
theorem Tables.member_le_evaluateAccess {standing : Standing}
    {assignments : List AssignmentView} {grants : List GrantView}
    : .member ≤ (evaluateAccess standing assignments grants today).capability
      ↔ (standing.tenantActive && standing.accountUsable && standing.membershipActive) = true
          ∧ ∃ view ∈ assignments, view.validOn today = true ∧ view.capability ≠ .guest := by
  unfold evaluateAccess
  cases stood : standing.tenantActive && standing.accountUsable && standing.membershipActive with
  | false =>
      refine iff_of_false ?_ (fun both => Bool.noConfusion both.1)
      change ¬ Capability.member ≤ Capability.none
      decide
  | true =>
      have reaches (class_ : CapabilityClass) : .member ≤ class_.capability ↔ class_ ≠ .guest := by
        cases class_ <;> decide
      simp only [Bool.not_true, Bool.false_eq_true, if_false, true_and]
      rw [le_highest (by decide)]
      simp only [List.mem_map, List.mem_filter]
      constructor
      · rintro ⟨_, ⟨view, ⟨held, valid⟩, rfl⟩, reached⟩
        exact ⟨view, held, valid, (reaches _).mp reached⟩
      · rintro ⟨view, held, valid, other⟩
        exact ⟨_, ⟨view, ⟨held, valid⟩, rfl⟩, (reaches _).mpr other⟩

/-- Who is not only a guest has a valid role that is not a guest's. -/
theorem Tables.guestOnly_eq_false (keys : s.PrimaryKeys)
    : s.guestOnly membershipId today = false
      ↔ ∃ view ∈ s.rolesOf membershipId, view.validOn today = true ∧ view.capability ≠ .guest := by
  simp only [guestOnly, Bool.not_eq_false', List.any_eq_true, role_any keys, Option.any_eq_true,
    Bool.and_eq_true, rolesOf, List.mem_filterMap, List.mem_filter, Option.map_eq_some_iff,
    decide_eq_true_eq]
  constructor
  · rintro ⟨ra, held, ⟨theirs, valid⟩, r, found, other⟩
    refine ⟨_, ⟨ra, ⟨held, theirs⟩, r, found, rfl⟩, ?_, other⟩
    simpa [AssignmentView.validOn, RoleAssignment.validOn] using valid
  · rintro ⟨_, ⟨ra, ⟨held, theirs⟩, r, found, rfl⟩, valid, other⟩
    refine ⟨ra, held, ⟨theirs, ?_⟩, r, found, other⟩
    simpa [AssignmentView.validOn, RoleAssignment.validOn] using valid

/-- Standing, of the membership with the id. -/
theorem Tables.hasStanding_iff (keys : s.PrimaryKeys)
    : s.hasStanding membershipId today = true
      ↔ ∃ m, s.membership membershipId = some m ∧ s.usable m = true
          ∧ ∃ ra ∈ s.assignments, ra.membershipId = membershipId ∧ ra.validOn today = true := by
  simp only [hasStanding, standingToday, List.any_eq_true, Bool.and_eq_true, decide_eq_true_eq]
  constructor
  · rintro ⟨m, inside, rfl, usable, held⟩
    exact ⟨m, (findRow_eq_some keys.memberships).mpr ⟨inside, rfl⟩, usable, held⟩
  · rintro ⟨m, found, usable, held⟩
    obtain ⟨inside, rfl⟩ := of_findRow found
    exact ⟨m, inside, rfl, usable, held⟩

/-- In an active FAU those with standing who are not only guests are those whose capability is a
member's or more.
-/
theorem Tables.member_le_capability (keys : s.PrimaryKeys)
    (active : s.tenant.any (·.status = .active) = true)
    : .member ≤ (s.membershipAccess membershipId today).capability
      ↔ s.hasStanding membershipId today = true ∧ s.guestOnly membershipId today = false := by
  rw [hasStanding_iff keys]
  cases found : s.membership membershipId with
  | none =>
      rw [membershipAccess_none found]
      refine iff_of_false (by change ¬ Capability.member ≤ Capability.none; decide) ?_
      rintro ⟨⟨_, there, _⟩, _⟩
      cases there
  | some m =>
      rw [membershipAccess_some found, member_le_evaluateAccess, guestOnly_eq_false keys]
      simp only [active, Bool.true_and, Option.some.injEq, exists_eq_left', usable, Bool.and_comm]
      refine and_congr_left fun some_ => ⟨fun usable => ⟨usable, ?_⟩, fun both => both.1⟩
      obtain ⟨view, held, valid, _⟩ := some_
      simp only [rolesOf, List.mem_filterMap, List.mem_filter, Option.map_eq_some_iff,
        decide_eq_true_eq] at held
      obtain ⟨ra, ⟨there, theirs⟩, _, _, rfl⟩ := held
      exact ⟨ra, there, theirs, by simpa [AssignmentView.validOn, RoleAssignment.validOn] using valid⟩

-----------------------------------------------------------------------------------------
-- The sections of the directory

/-- The directory the rule gives a viewer: a section for each readable group that is not archived
and one for the FAU where the viewer may read that, with the members and people that belong there.
-/
structure DirectoryRead.FollowsRule (read : DirectoryRead) (s : Tables) (viewer : Viewer)
    (today : Date)
    : Prop where
  sectionsOnce : (read.sections.map (·.sectionId)).Nodup
  fauSection : SectionId.fau ∈ read.sections.map (·.sectionId) ↔ s.mayRead viewer .fau today
  groupSections : ∀ id, SectionId.group id ∈ read.sections.map (·.sectionId)
    ↔ s.mayRead viewer (.group id) today ∧ (s.group id).any (·.archivedAt.isNone) = true
  membersOnce : ∀ section_ ∈ read.sections, section_.members.Nodup
  fauMembers : ∀ section_ ∈ read.sections, section_.sectionId = .fau → ∀ membershipId,
    membershipId ∈ section_.members
      ↔ s.isErased membershipId = false
          ∧ ((s.membershipAccess membershipId today).capability = .member
            ∨ (s.membershipAccess membershipId today).capability = .admin)
  groupMembers : ∀ section_ ∈ read.sections, ∀ id, section_.sectionId = .group id →
    ∃ rows, s.listGroupMembers viewer id today = .ok rows
      ∧ ∀ membershipId, membershipId ∈ section_.members
        ↔ membershipId ∈ rows.map (·.membershipId) ∧ s.isErased membershipId = false
  peopleOnce : (read.people.map (·.membershipId)).Nodup
  people : ∀ membershipId, membershipId ∈ read.people.map (·.membershipId)
    ↔ ∃ section_ ∈ read.sections, membershipId ∈ section_.members

namespace Tables

/-- The FAU-wide section, for a capability that may read the FAU. -/
def fauSection (s : Tables) (viewer : Viewer) (today : Date) : DirectorySection :=
  ⟨.fau, none, ((s.standingPeople viewer today).filter (!·.isGuest)).map (·.membershipId)⟩

/-- The section of a listed group. -/
def groupSection (s : Tables) (viewer : Viewer) (today : Date) (wanted : Nat → Bool)
    (view : GroupView)
    : DirectorySection :=
  ⟨.group view.groupId, some view.encryptedName,
    ((s.groupMembersOf wanted today).filter fun row => row.1 = view.groupId
      && (s.standingPeople viewer today).any (·.membershipId = row.2.1)).map (·.2.1)⟩

/-- The readable groups that are not archived. -/
def sectionGroups (s : Tables) (viewer : Viewer) (today : Date) : List GroupView :=
  (s.readableGroups viewer (s.membershipAccess viewer.membershipId today).capability
    today).filter (!·.archived)

theorem mayRead_fau
    : s.mayRead viewer .fau today
      ↔ (s.membershipAccess viewer.membershipId today).capability.decide .fau .read = .ok () := by
  rw [mayRead, authorize_eq_ok]
  simp [target]

/-- What the directory is made of. -/
theorem loadDirectory_eq_ok {read : DirectoryRead}
    : s.loadDirectory viewer today = .ok read
      ↔ (s.membershipAccess viewer.membershipId today).capability ≠ .none
          ∧ read.sections
            = (if (s.membershipAccess viewer.membershipId today).capability.decide .fau .read
                  = .ok () then [s.fauSection viewer today] else [])
              ++ (s.sectionGroups viewer today).map (s.groupSection viewer today fun id =>
                  id ∈ (s.sectionGroups viewer today).map (·.groupId))
          ∧ read.people = ((s.standingPeople viewer today).filter fun p =>
              read.sections.any fun section_ => p.membershipId ∈ section_.members).map fun p =>
                { p with
                  roles := s.rolesRepresented p.membershipId today
                  groupIds := read.sections.filterMap fun section_ =>
                    match section_.sectionId with
                    | .group id => if p.membershipId ∈ section_.members then some id else none
                    | .fau => none } := by
  unfold loadDirectory
  by_cases standing : (s.membershipAccess viewer.membershipId today).capability = .none
  · simp [standing]
  · rw [if_neg standing]
    obtain ⟨sections, people⟩ := read
    constructor
    · intro made
      cases made
      exact ⟨standing, rfl, rfl⟩
    · rintro ⟨_, made, listed⟩
      simp only at made listed
      subst made listed
      rfl

/-- The section ids: the FAU's, then those of the groups. -/
theorem section_cases {read : DirectoryRead} (made : s.loadDirectory viewer today = .ok read)
    {section_ : DirectorySection}
    : section_ ∈ read.sections
      ↔ s.mayRead viewer .fau today ∧ section_ = s.fauSection viewer today
        ∨ ∃ view ∈ s.sectionGroups viewer today,
            section_ = s.groupSection viewer today
              (fun id => id ∈ (s.sectionGroups viewer today).map (·.groupId)) view := by
  obtain ⟨_, sections, _⟩ := loadDirectory_eq_ok.mp made
  rw [sections, List.mem_append, mayRead_fau, List.mem_map]
  refine or_congr ?_ (exists_congr fun view => and_congr_right fun _ => eq_comm)
  split
  · next reads => simp [reads]
  · next hidden => simp [hidden]

/-- The groups with a section. -/
theorem sectionGroups_iff (keys : s.PrimaryKeys)
    : groupId ∈ (s.sectionGroups viewer today).map (·.groupId)
      ↔ s.mayRead viewer (.group groupId) today
          ∧ (s.group groupId).any (·.archivedAt.isNone) = true := by
  rw [mayRead_group]
  simp only [sectionGroups, List.mem_map, List.mem_filter, mem_readableGroups, Option.any_eq_true]
  constructor
  · rintro ⟨_, ⟨⟨g, inside, rfl, reads⟩, live⟩, rfl⟩
    have found := (findRow_eq_some keys.groups).mpr ⟨inside, rfl⟩
    exact ⟨⟨g, found, reads⟩, g, found, by simpa using live⟩
  · rintro ⟨⟨g, found, reads⟩, g', found', live⟩
    obtain rfl : g = g' := Option.some.inj (found.symm.trans found')
    obtain ⟨inside, rfl⟩ := of_findRow found
    exact ⟨_, ⟨⟨g, inside, rfl, reads⟩, by simpa using live⟩, rfl⟩

theorem any_standingPeople (keys : s.PrimaryKeys)
    : (s.standingPeople viewer today).any (·.membershipId = membershipId) = true
      ↔ s.hasStanding membershipId today = true ∧ s.isErased membershipId = false := by
  rw [← standingPeople_iff viewer keys]
  simp only [List.any_eq_true, List.mem_map, decide_eq_true_eq]

/-- The members of a group's section among those of the group. -/
theorem groupSection_members {wanted : Nat → Bool} {view : GroupView}
    : (s.groupSection viewer today wanted view).members
      = (((s.groupMembersOf wanted today).filter (·.1 = view.groupId)).map (·.2.1)).filter
          fun id => (s.standingPeople viewer today).any (·.membershipId = id) := by
  rw [List.filter_map, List.filter_filter]
  refine congrArg (List.map _) (List.filter_congr fun row _ => ?_)
  exact Bool.and_comm _ _

/-- Who is in the section of a group. -/
theorem mem_groupSection (keys : s.PrimaryKeys) {view : GroupView}
    (listed : view ∈ s.sectionGroups viewer today)
    : membershipId ∈ (s.groupSection viewer today
          (fun id => id ∈ (s.sectionGroups viewer today).map (·.groupId)) view).members
      ↔ s.hasStanding membershipId today = true
          ∧ s.inGroupFact viewer membershipId view.groupId today = true
          ∧ s.isErased membershipId = false := by
  have asked := List.mem_map_of_mem (f := GroupView.groupId) listed
  obtain ⟨_, live⟩ := (sectionGroups_iff keys).mp asked
  obtain ⟨g, found, _⟩ := Option.any_eq_true _ _ |>.mp live
  rw [groupSection_members, List.mem_filter, any_standingPeople keys,
    mem_groupMembersOf viewer keys _ found (by simpa using asked)]
  constructor
  · rintro ⟨⟨stands, inGroup⟩, _, unerased⟩
    exact ⟨stands, inGroup, unerased⟩
  · rintro ⟨stands, inGroup, unerased⟩
    exact ⟨⟨stands, inGroup⟩, stands, unerased⟩

/-- Who is in the FAU-wide section. -/
theorem mem_fauSection (keys : s.PrimaryKeys)
    (active : s.tenant.any (·.status = .active) = true)
    : membershipId ∈ (s.fauSection viewer today).members
      ↔ s.isErased membershipId = false
          ∧ .member ≤ (s.membershipAccess membershipId today).capability := by
  rw [member_le_capability keys active]
  have listed
      : membershipId ∈ (s.fauSection viewer today).members
        ↔ membershipId ∈ (s.standingPeople viewer today).map (·.membershipId)
          ∧ s.guestOnly membershipId today = false := by
    simp only [fauSection, List.mem_map, List.mem_filter]
    constructor
    · rintro ⟨p, ⟨there, other⟩, rfl⟩
      obtain ⟨m, _, one, _, _, guest⟩ := mem_standingPeople there
      exact ⟨⟨p, there, rfl⟩, by simpa [one, guest] using other⟩
    · rintro ⟨⟨p, there, rfl⟩, other⟩
      obtain ⟨m, _, one, _, _, guest⟩ := mem_standingPeople there
      exact ⟨p, ⟨there, by simpa [one, guest] using other⟩, rfl⟩
  rw [listed, standingPeople_iff viewer keys]
  constructor
  · rintro ⟨⟨stands, unerased⟩, other⟩
    exact ⟨unerased, stands, other⟩
  · rintro ⟨unerased, stands, other⟩
    exact ⟨⟨stands, unerased⟩, other⟩

/-- A section lists people of the top-level list, each once. -/
theorem section_members (keys : s.PrimaryKeys) {read : DirectoryRead}
    (made : s.loadDirectory viewer today = .ok read) {section_ : DirectorySection}
    (inside : section_ ∈ read.sections)
    : section_.members.Nodup
      ∧ ∀ id ∈ section_.members, id ∈ (s.standingPeople viewer today).map (·.membershipId) := by
  rcases (section_cases made).mp inside with ⟨_, rfl⟩ | ⟨view, listed, rfl⟩
  · refine ⟨(standingPeople_nodup keys).sublist (List.filter_sublist.map _), fun id there => ?_⟩
    exact (List.filter_sublist.map _).subset there
  · rw [groupSection_members]
    refine ⟨(groupMembersOf_nodup _).filter _, fun id there => ?_⟩
    obtain ⟨p, standing, same⟩ := List.any_eq_true.mp (List.mem_filter.mp there).2
    exact List.mem_map.mpr ⟨p, standing, of_decide_eq_true same⟩

/-- The people are those of the sections. -/
theorem people_iff (keys : s.PrimaryKeys) {read : DirectoryRead}
    (made : s.loadDirectory viewer today = .ok read)
    : membershipId ∈ read.people.map (·.membershipId)
      ↔ ∃ section_ ∈ read.sections, membershipId ∈ section_.members := by
  obtain ⟨_, _, people⟩ := loadDirectory_eq_ok.mp made
  rw [people, List.map_map]
  simp only [List.mem_map, List.mem_filter, List.any_eq_true, decide_eq_true_eq,
    Function.comp_apply]
  constructor
  · rintro ⟨p, ⟨_, listed⟩, rfl⟩
    exact listed
  · rintro ⟨section_, inside, there⟩
    obtain ⟨p, standing, rfl⟩ := List.mem_map.mp ((section_members keys made inside).2 _ there)
    exact ⟨p, ⟨standing, section_, inside, there⟩, rfl⟩

/-- The member and the administrator are those whose capability reaches a member's. -/
theorem member_le_iff {capability : Capability}
    : .member ≤ capability ↔ capability = .member ∨ capability = .admin := by
  cases capability <;> decide

/-- The directory follows the rule. -/
theorem loadDirectory_followsRule (keys : s.PrimaryKeys)
    (active : s.tenant.any (·.status = .active) = true) {read : DirectoryRead}
    (made : s.loadDirectory viewer today = .ok read)
    : read.FollowsRule s viewer today where
  sectionsOnce := by
    obtain ⟨_, sections, _⟩ := loadDirectory_eq_ok.mp made
    have groups : ((s.sectionGroups viewer today).map (·.groupId)).Nodup :=
      (readableGroups_nodup keys).sublist (List.filter_sublist.map _)
    rw [sections, List.map_append, List.map_map, List.nodup_append]
    refine ⟨by split <;> simp, ?_, ?_⟩
    · exact List.pairwise_map.mpr ((List.pairwise_map.mp groups).imp fun differ same =>
        differ (SectionId.group.inj same))
    · rintro _ fau _ group rfl
      obtain ⟨_, _, same⟩ := List.mem_map.mp group
      split at fau
      · rw [List.map_singleton, List.mem_singleton] at fau
        exact SectionId.noConfusion (fau.symm.trans same.symm)
      · cases fau
  fauSection := by
    rw [List.mem_map]
    constructor
    · rintro ⟨section_, inside, is⟩
      rcases (section_cases made).mp inside with ⟨reads, _⟩ | ⟨_, _, rfl⟩
      · exact reads
      · cases is
    · intro reads
      exact ⟨_, (section_cases made).mpr (.inl ⟨reads, rfl⟩), rfl⟩
  groupSections id := by
    rw [← sectionGroups_iff keys, List.mem_map, List.mem_map]
    constructor
    · rintro ⟨section_, inside, is⟩
      rcases (section_cases made).mp inside with ⟨_, rfl⟩ | ⟨view, listed, rfl⟩
      · cases is
      · exact ⟨view, listed, SectionId.group.inj is⟩
    · rintro ⟨view, listed, rfl⟩
      exact ⟨_, (section_cases made).mpr (.inr ⟨view, listed, rfl⟩), rfl⟩
  membersOnce section_ inside := (section_members keys made inside).1
  fauMembers section_ inside is membershipId := by
    rcases (section_cases made).mp inside with ⟨_, rfl⟩ | ⟨_, _, rfl⟩
    · rw [mem_fauSection keys active, member_le_iff]
    · cases is
  groupMembers section_ inside id is := by
    rcases (section_cases made).mp inside with ⟨_, rfl⟩ | ⟨view, listed, rfl⟩
    · cases is
    · obtain rfl := SectionId.group.inj is
      obtain ⟨reads, live⟩ := (sectionGroups_iff keys).mp (List.mem_map_of_mem listed)
      obtain ⟨g, found, _⟩ := (Option.any_eq_true _ _).mp live
      refine ⟨_, listGroupMembers_eq reads, fun membershipId => ?_⟩
      rw [mem_groupSection keys listed, List.map_map]
      exact (and_assoc.symm).trans (and_congr_left' (mem_listedMembers viewer keys found).symm)
  peopleOnce := by
    obtain ⟨_, _, people⟩ := loadDirectory_eq_ok.mp made
    rw [people, List.map_map]
    exact (standingPeople_nodup keys).sublist (List.filter_sublist.map _)
  people _ := people_iff keys made

end Tables

-----------------------------------------------------------------------------------------
-- The exported addresses

/-- What is chosen after those already chosen: the selected of the scope that are not among them,
in first-selected order, by induction on the selection.
-/
theorem chooseRecipients_eq_ok {inScope ids chosen out : List Nat}
    (chooses : chooseRecipients inScope chosen ids = .ok out)
    : (∀ id ∈ ids, id ∈ inScope)
      ∧ ∃ added, out = chosen ++ added
          ∧ added.Pairwise (ids.idxOf · < ids.idxOf ·)
          ∧ ∀ id, id ∈ added ↔ id ∈ ids ∧ id ∉ chosen := by
  induction ids generalizing chosen with
  | nil =>
      cases chooses
      exact ⟨by simp, [], by simp, .nil, by simp⟩
  | cons first rest ih =>
      rw [chooseRecipients] at chooses
      split at chooses
      · cases chooses
      · next listed =>
          have listed : first ∈ inScope := not_not.mp listed
          obtain ⟨scope, added, is, ordered, members⟩ := ih chooses
          have later {id : Nat} (known : first ∈ if first ∈ chosen then chosen else chosen ++ [first])
              (inside : id ∈ added)
              : (first :: rest).idxOf id = rest.idxOf id + 1 := by
            refine List.idxOf_cons_ne _ ?_
            rintro rfl
            exact ((members _).mp inside).2 known
          have known : first ∈ if first ∈ chosen then chosen else chosen ++ [first] := by
            split
            · next present => exact present
            · simp
          have shifted : added.Pairwise ((first :: rest).idxOf · < (first :: rest).idxOf ·) := by
            refine ordered.imp_of_mem fun left right before => ?_
            rw [later known left, later known right]
            exact Nat.succ_lt_succ before
          refine ⟨by simpa using ⟨listed, scope⟩, ?_⟩
          by_cases present : first ∈ chosen
          · rw [if_pos present] at is members
            refine ⟨added, is, shifted, fun id => (members id).trans ?_⟩
            refine and_congr_left fun absent => ?_
            rw [List.mem_cons]
            refine (or_iff_right ?_).symm
            rintro rfl
            exact absent present
          · rw [if_neg present] at is members
            refine ⟨first :: added, by simpa using is, List.pairwise_cons.mpr ⟨?_, shifted⟩, ?_⟩
            · intro id inside
              rw [List.idxOf_cons_self, later known inside]
              exact Nat.succ_pos _
            · intro id
              rw [List.mem_cons, List.mem_cons, members]
              by_cases same : id = first <;> simp [same, present]

/-- Listed people have addresses. -/
theorem DirectoryRead.addresses_listed {read : DirectoryRead} {chosen : List Nat}
    (listed : ∀ id ∈ chosen, id ∈ read.people.map (·.membershipId))
    : ∃ recipients, read.addresses chosen = some recipients
        ∧ recipients.map (·.membershipId) = chosen
        ∧ ∀ r ∈ recipients, ∃ p ∈ read.people,
            p.membershipId = r.membershipId ∧ p.address = r.address := by
  induction chosen with
  | nil => exact ⟨[], rfl, rfl, by simp⟩
  | cons id rest ih =>
      obtain ⟨others, found, ids, theirs⟩ := ih fun other inside =>
        listed other (List.mem_cons_of_mem _ inside)
      obtain ⟨p, there, same⟩ := List.mem_map.mp (listed id List.mem_cons_self)
      obtain ⟨q, first⟩ : ∃ q, read.people.find? (·.membershipId = id) = some q :=
        Option.isSome_iff_exists.mp (List.find?_isSome.mpr ⟨p, there, by simpa using same⟩)
      have is : q.membershipId = id := by simpa using List.find?_some first
      refine ⟨⟨id, q.address⟩ :: others, ?_, by rw [List.map_cons, ids], ?_⟩
      · rw [addresses] at found ⊢
        rw [List.mapM_cons, first, found]
        rfl
      · intro r inside
        rcases List.mem_cons.mp inside with rfl | later
        · exact ⟨q, List.mem_of_find?_eq_some first, is, rfl⟩
        · exact theirs r later

/-- The members of a scope are listed people. -/
theorem DirectoryRead.scopeMembers_listed {read : DirectoryRead} {scope : ExportScope}
    {inScope : List Nat} (found : read.scopeMembers scope = some inScope)
    (people : ∀ section_ ∈ read.sections, ∀ id ∈ section_.members,
      id ∈ read.people.map (·.membershipId))
    : ∀ id ∈ inScope, id ∈ read.people.map (·.membershipId) := by
  have picked {sectionId : SectionId}
      (found : (read.sections.find? (·.sectionId = sectionId)).map (·.members) = some inScope)
      : ∀ id ∈ inScope, id ∈ read.people.map (·.membershipId) := by
    obtain ⟨section_, first, rfl⟩ := Option.map_eq_some_iff.mp found
    exact people section_ (List.mem_of_find?_eq_some first)
  cases scope with
  | all =>
      cases found
      exact fun _ inside => inside
  | fau => exact picked found
  | group id => exact picked found

/-- An export whose scope the viewer sees. -/
theorem Tables.exportAddresses_inScope {read : DirectoryRead} {scope : ExportScope}
    {membershipIds inScope : List Nat} (some_ : membershipIds ≠ [])
    (made : s.loadDirectory viewer today = .ok read)
    (found : read.scopeMembers scope = some inScope)
    : s.exportAddresses viewer scope membershipIds today
      = match chooseRecipients inScope [] membershipIds with
        | .error refusal => .refused refusal
        | .ok chosen =>
            match read.addresses chosen with
            | some recipients => .handedOver recipients
            | none => .panicked := by
  rw [exportAddresses, if_neg some_, made]
  dsimp only
  cases scope <;> exact found ▸ rfl

/-- An export whose scope the viewer does not see. Everyone's is always seen. -/
theorem Tables.exportAddresses_outOfScope {read : DirectoryRead} {scope : ExportScope}
    {membershipIds : List Nat} (some_ : membershipIds ≠ [])
    (made : s.loadDirectory viewer today = .ok read) (none_ : read.scopeMembers scope = none)
    : ∃ refusal, s.exportAddresses viewer scope membershipIds today = .refused refusal := by
  rw [exportAddresses, if_neg some_, made]
  simp only [none_]
  cases scope with
  | all => cases none_
  | fau => exact ⟨_, rfl⟩
  | group id => exact ⟨_, rfl⟩

/-- An export refuses, or hands over those selected, all of them in the scope, each once in
first-selected order, at the addresses of the directory.
-/
theorem Tables.exportAddresses_cases (keys : s.PrimaryKeys) (scope : ExportScope)
    (membershipIds : List Nat)
    : (∃ refusal, s.exportAddresses viewer scope membershipIds today = .refused refusal)
      ∨ ∃ read inScope recipients, s.loadDirectory viewer today = .ok read
          ∧ read.scopeMembers scope = some inScope
          ∧ s.exportAddresses viewer scope membershipIds today = .handedOver recipients
          ∧ (∀ id ∈ membershipIds, id ∈ inScope)
          ∧ InFirstOccurrenceOrder membershipIds (recipients.map (·.membershipId))
          ∧ ∀ r ∈ recipients, ∃ p ∈ read.people,
              p.membershipId = r.membershipId ∧ p.address = r.address := by
  by_cases empty : membershipIds = []
  · exact .inl ⟨_, if_pos empty⟩
  cases made : s.loadDirectory viewer today with
  | error refusal =>
      refine .inl ⟨refusal, ?_⟩
      rw [exportAddresses, if_neg empty, made]
  | ok read =>
      cases found : read.scopeMembers scope with
      | none => exact .inl (exportAddresses_outOfScope empty made found)
      | some inScope =>
          rw [exportAddresses_inScope empty made found]
          cases chooses : chooseRecipients inScope [] membershipIds with
          | error refusal => exact .inl ⟨refusal, rfl⟩
          | ok chosen =>
              obtain ⟨inside, added, is, ordered, members⟩ := chooseRecipients_eq_ok chooses
              obtain rfl : chosen = added := is
              have listed := DirectoryRead.scopeMembers_listed found fun section_ there id member =>
                (people_iff keys made).mpr ⟨section_, there, member⟩
              obtain ⟨recipients, addressed, ids, addresses⟩ :=
                DirectoryRead.addresses_listed fun id picked =>
                  listed id (inside id ((members id).mp picked).1)
              refine .inr ⟨read, inScope, recipients, rfl, found, by simp only [addressed],
                inside, ?_, addresses⟩
              rw [ids]
              exact ⟨ordered, fun id => by simp [members]⟩

-----------------------------------------------------------------------------------------
-- The rule and its readers

end

-----------------------------------------------------------------------------------------
-- Kari's directory

section

attribute [local instance] OsloZone.winterAndSummer

end

end FauPortalen.Membership

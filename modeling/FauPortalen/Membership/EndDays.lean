import FauPortalen.Membership.Names
import FauPortalen.Membership.LeavingGroups

/-! The day a membership ended: the last that any of its roles was held, the same however late it
is asked for, and whatever is revoked after it.
-/

set_option linter.unusedSectionVars false

namespace FauPortalen.Membership

open Foundations Transaction

variable [OsloZone] {moment : Moment} {s s' : Tables} {membershipId : Nat} {today day : Date}

-----------------------------------------------------------------------------------------
-- The days of an assignment

/-- The assignment ran on at least one day. -/
def RoleAssignment.Ran (ra : RoleAssignment) : Prop := ra.period.startsOn < ra.heldUntil

namespace RoleAssignment

variable {ra ra' : RoleAssignment}

theorem heldUntil_of_live (live : ra.revokedAt = none)
    : ra.heldUntil = ra.period.endsOnExclusive := by
  rw [heldUntil, live]

theorem ran_of_live (live : ra.revokedAt = none) : ra.Ran := by
  rw [Ran, heldUntil_of_live live]
  exact ra.period.nonEmpty

/-- The assignment is over: run out, or revoked by today. -/
structure IsOver (ra : RoleAssignment) (today : Date) : Prop where
  spent : ra.revokedAt = none → ra.period.endsOnExclusive ≤ today
  revoked : ∀ at_, ra.revokedAt = some at_ → osloToday at_ ≤ today

theorem IsOver.heldUntil_le (isOver : ra.IsOver today) : ra.heldUntil ≤ today := by
  unfold heldUntil
  split
  · next at_ revoked => exact (min_le_right _ _).trans (isOver.revoked at_ revoked)
  · next live => exact isOver.spent live

/-- A revocation today ends what runs past today, and nothing else. -/
theorem GoesOn.heldUntil (goesOn : ra.GoesOn moment.now ra')
    : ra'.heldUntil = ra.heldUntil
      ∨ ra.revokedAt = none ∧ ra'.heldUntil = min ra.period.endsOnExclusive moment.today := by
  have period : ra'.period = ra.period := by rw [goesOn.same]
  rcases goesOn.revokedAt with same | ⟨live, revoked⟩
  · exact .inl (by rw [RoleAssignment.heldUntil, RoleAssignment.heldUntil, same, period])
  · exact .inr ⟨live, by rw [RoleAssignment.heldUntil, revoked, period, moment.agrees]⟩

/-- What was held up to a day before today stays as it is. -/
theorem GoesOn.heldUntil_of_le (goesOn : ra.GoesOn moment.now ra')
    (before : ra.heldUntil ≤ moment.today)
    : ra'.heldUntil = ra.heldUntil := by
  rcases goesOn.heldUntil with same | ⟨live, cut⟩
  · exact same
  · rw [heldUntil_of_live live] at before ⊢
    rw [cut, min_eq_left before]

theorem GoesOn.ran_iff (goesOn : ra.GoesOn moment.now ra') (isOver : ra.IsOver moment.today)
    : ra'.Ran ↔ ra.Ran := by
  have period : ra'.period = ra.period := by rw [goesOn.same]
  rw [Ran, Ran, period, goesOn.heldUntil_of_le isOver.heldUntil_le]

end RoleAssignment

theorem mem_heldRoles {held : HeldRole}
    : held ∈ s.heldRoles membershipId
      ↔ ∃ ra ∈ s.assignments, ra.membershipId = membershipId ∧ ra.Ran
          ∧ ∃ r, s.role ra.roleId = some r
            ∧ held = ⟨r.name, r.capabilityClass, ra.period.startsOn, ra.heldUntil⟩ := by
  simp only [Tables.heldRoles, List.mem_filterMap, mem_sortOn, List.mem_filter,
    Option.map_eq_some_iff, decide_eq_true_eq, RoleAssignment.Ran]
  constructor
  · rintro ⟨ra, ⟨⟨inside, theirs⟩, ran⟩, r, known, rfl⟩
    exact ⟨ra, inside, theirs, ran, r, known, rfl⟩
  · rintro ⟨ra, inside, theirs, ran, r, known, rfl⟩
    exact ⟨ra, ⟨⟨inside, theirs⟩, ran⟩, r, known, rfl⟩

-----------------------------------------------------------------------------------------
-- The day of an ended membership

/-- Every role of the membership is over. -/
def Tables.Over (s : Tables) (membershipId : Nat) (today : Date) : Prop :=
  ∀ ra ∈ s.assignments, ra.membershipId = membershipId → ra.IsOver today

/-- The membership ended on the day: the last that a role of it was held up to, or, where none
was held, that of its latest revocation.
-/
inductive Tables.EndsOn (s : Tables) (membershipId : Nat) : Date → Prop
  | held {ra : RoleAssignment} (inside : ra ∈ s.assignments)
      (theirs : ra.membershipId = membershipId) (ran : ra.Ran)
      (last : ∀ other ∈ s.assignments, other.membershipId = membershipId → other.Ran →
        other.heldUntil ≤ ra.heldUntil)
    : s.EndsOn membershipId ra.heldUntil
  | revoked {ra : RoleAssignment} {at_ : Timestamp}
      (none_ : ∀ ra ∈ s.assignments, ra.membershipId = membershipId → ¬ ra.Ran)
      (inside : ra ∈ s.assignments) (theirs : ra.membershipId = membershipId)
      (revoked : ra.revokedAt = some at_)
      (last : ∀ other ∈ s.assignments, other.membershipId = membershipId →
        ∀ before, other.revokedAt = some before → before ≤ at_)
    : s.EndsOn membershipId (osloToday at_)

theorem Tables.EndsOn.unique {other : Date} (ends : s.EndsOn membershipId day)
    (ends' : s.EndsOn membershipId other)
    : day = other := by
  cases ends with
  | @held ra inside theirs ran last =>
      cases ends' with
      | @held ra' inside' theirs' ran' last' =>
          exact le_antisymm (last' ra inside theirs ran) (last ra' inside' theirs' ran')
      | revoked none_ => exact absurd ran (none_ ra inside theirs)
  | @revoked ra at_ none_ inside theirs revoked last =>
      cases ends' with
      | @held ra' inside' theirs' ran' => exact absurd ran' (none_ ra' inside' theirs')
      | @revoked ra' at' _ inside' theirs' revoked' last' =>
          rw [le_antisymm (last' ra inside theirs at_ revoked)
            (last ra' inside' theirs' at' revoked')]

/-- The service's day of an ended membership is the day it ended on. -/
theorem endedOnFor_endsOn {m : MembershipRow} (allOver : s.Over membershipId today)
    (known : ∀ ra ∈ s.assignments, ∃ r, s.role ra.roleId = some r)
    (assigned : ∃ ra ∈ s.assignments, ra.membershipId = membershipId)
    (found : s.membership membershipId = some m)
    : ∃ day, s.endedOnFor membershipId today = some day ∧ s.EndsOn membershipId day := by
  by_cases none_ : s.heldRoles membershipId = []
  · have unheld (ra : RoleAssignment) (inside : ra ∈ s.assignments)
        (theirs : ra.membershipId = membershipId)
        : ¬ ra.Ran := by
      intro ran
      obtain ⟨r, role⟩ := known ra inside
      have held := mem_heldRoles.mpr ⟨ra, inside, theirs, ran, r, role, rfl⟩
      exact List.not_mem_nil (none_ ▸ held)
    -- what never ran was revoked before it began, so the membership has a latest revocation
    obtain ⟨ra, inside, theirs⟩ := assigned
    obtain ⟨at_, revoked⟩ := Option.ne_none_iff_exists'.mp fun live =>
      unheld ra inside theirs (RoleAssignment.ran_of_live live)
    have revocations (before : Timestamp)
        : before ∈ (s.assignments.filter (·.membershipId = membershipId)).filterMap (·.revokedAt)
          ↔ ∃ ra ∈ s.assignments, ra.membershipId = membershipId ∧ ra.revokedAt = some before := by
      simp [List.mem_filterMap, and_assoc]
    obtain ⟨latest, found_⟩ := Option.isSome_iff_exists.mp
      (List.isSome_max?_of_mem ((revocations at_).mpr ⟨ra, inside, theirs, revoked⟩))
    obtain ⟨member, most⟩ := List.max?_eq_some_iff.mp found_
    obtain ⟨last, inside', theirs', revoked'⟩ := (revocations latest).mp member
    refine ⟨osloToday latest, ?_, .revoked unheld inside' theirs' revoked' ?_⟩
    · have latest_ : s.latestRevocation membershipId = some latest := found_
      have before := (allOver last inside' theirs').revoked latest revoked'
      simp [Tables.endedOnFor, none_, found, latest_, before]
    · intro other there theirs'' before earlier
      exact most before ((revocations before).mpr ⟨other, there, theirs'', earlier⟩)
  · obtain ⟨first, rest, some_⟩ := List.exists_cons_of_ne_nil none_
    obtain ⟨last, found_⟩ := Option.isSome_iff_exists.mp
      (List.isSome_max?_of_mem
        (List.mem_map_of_mem (f := HeldRole.heldUntil) (some_ ▸ List.mem_cons_self)))
    obtain ⟨member, most⟩ := List.max?_eq_some_iff.mp found_
    obtain ⟨role, held, rfl⟩ := List.mem_map.mp member
    obtain ⟨ra, inside, theirs, ran, r, _, rfl⟩ := mem_heldRoles.mp held
    refine ⟨ra.heldUntil, ?_, .held inside theirs ran ?_⟩
    · have before := (allOver ra inside theirs).heldUntil_le
      simp [Tables.endedOnFor, none_, endedOn, found_, before]
    · intro other there theirs' ran'
      obtain ⟨r', role'⟩ := known other there
      exact most _ (List.mem_map_of_mem (mem_heldRoles.mpr
        ⟨other, there, theirs', ran', r', role', rfl⟩))

/-- Revocations leave the day a membership ended on as it was. -/
theorem Tables.EndsOn.goesOn (ends : s.EndsOn membershipId day)
    (allOver : s.Over membershipId moment.today)
    (goesOn : ∀ ra ∈ s.assignments, ∃ ra' ∈ s'.assignments, ra.GoesOn moment.now ra')
    (comesFrom : ∀ ra' ∈ s'.assignments, ra'.membershipId = membershipId →
      ∃ ra ∈ s.assignments, ra.GoesOn moment.now ra')
    : s'.EndsOn membershipId day := by
  have holder {ra ra' : RoleAssignment} (same : ra.GoesOn moment.now ra')
      : ra'.membershipId = ra.membershipId := by rw [same.same]
  cases ends with
  | @held ra inside theirs ran last =>
      obtain ⟨ra', inside', same⟩ := goesOn ra inside
      have isOver := allOver ra inside theirs
      rw [← same.heldUntil_of_le isOver.heldUntil_le]
      refine .held inside' ((holder same).trans theirs) ((same.ran_iff isOver).mpr ran) ?_
      intro other' there' theirs' ran'
      obtain ⟨other, there, same'⟩ := comesFrom other' there' theirs'
      have holds := (holder same').symm.trans theirs'
      have isOver' := allOver other there holds
      rw [same.heldUntil_of_le isOver.heldUntil_le, same'.heldUntil_of_le isOver'.heldUntil_le]
      exact last other there holds ((same'.ran_iff isOver').mp ran')
  | @revoked ra at_ none_ inside theirs revoked last =>
      have kept {other other' : RoleAssignment} (there : other ∈ s.assignments)
          (holds : other.membershipId = membershipId) (same : other.GoesOn moment.now other')
          : other'.revokedAt = other.revokedAt := by
        rcases same.revokedAt with kept | ⟨live, _⟩
        · exact kept
        · exact absurd (RoleAssignment.ran_of_live live) (none_ other there holds)
      obtain ⟨ra', inside', same⟩ := goesOn ra inside
      refine .revoked ?_ inside' ((holder same).trans theirs)
        ((kept inside theirs same).trans revoked) ?_
      · intro other' there' theirs' ran'
        obtain ⟨other, there, same'⟩ := comesFrom other' there' theirs'
        have holds := (holder same').symm.trans theirs'
        exact none_ other there holds ((same'.ran_iff (allOver other there holds)).mp ran')
      · intro other' there' theirs' before earlier
        obtain ⟨other, there, same'⟩ := comesFrom other' there' theirs'
        have holds := (holder same').symm.trans theirs'
        exact last other there holds before ((kept there holds same').symm.trans earlier)

end FauPortalen.Membership

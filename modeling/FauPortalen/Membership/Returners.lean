import FauPortalen.Membership.ActivePeriods
import FauPortalen.Membership.ProfileRetention

/-! A returner's history: once a membership was ended over a whole day, what happened before that
day is shown by a role and its years, as long as the roles given since begin apart from those held
before. A role that is given from a day already past may close the gap.
-/

set_option linter.unusedSectionVars false

namespace FauPortalen.Membership

open Foundations Transaction

section

variable [OsloZone] {moment : Moment} {s after : Tables} {membershipId : Nat} {gap today on : Date}
  {roles held : List HeldRole} {m : MembershipRow}

-----------------------------------------------------------------------------------------
-- Roles apart from those held before

/-- The day is not before the gap, and a free day lies between it and the last day of each role; a
role is no longer held on the day it was held until.
-/
def StartsApart (gap : Date) (roles : List HeldRole) (starts : Date) : Prop :=
  gap ≤ starts ∧ ∀ role ∈ roles, role.heldUntil < starts

/-- The role ended by the gap, with one of those held before. -/
def HeldRole.Before (role : HeldRole) (gap : Date) (roles : List HeldRole) : Prop :=
  role.heldUntil ≤ gap ∧ ∃ earlier ∈ roles, earlier.heldUntil = role.heldUntil

/-- Of the roles that ended by the gap, there is a last. -/
theorem exists_lastBefore (before : ∃ role ∈ held, role.heldUntil ≤ gap)
    : ∃ final ∈ held, final.heldUntil ≤ gap
        ∧ ∀ role ∈ held, role.heldUntil ≤ gap → role.heldUntil ≤ final.heldUntil := by
  obtain ⟨role, inside, ended⟩ := before
  have listed {role : HeldRole} (inside : role ∈ held) (ended : role.heldUntil ≤ gap)
      : role.heldUntil ∈ (held.filter (·.heldUntil ≤ gap)).map (·.heldUntil) :=
    List.mem_map_of_mem (List.mem_filter.mpr ⟨inside, decide_eq_true ended⟩)
  obtain ⟨last, found⟩ :=
    Option.isSome_iff_exists.mp (List.isSome_max?_of_mem (listed inside ended))
  obtain ⟨member, most⟩ := List.max?_eq_some_iff.mp found
  obtain ⟨final, there, rfl⟩ := List.mem_map.mp member
  obtain ⟨there, early_⟩ := List.mem_filter.mp there
  exact ⟨final, there, of_decide_eq_true early_,
    fun role inside ended => most _ (listed inside ended)⟩

/-- Roles that begin apart begin a period of their own, not before the gap. -/
theorem activePeriod_apart (nonEmpty : ∀ role ∈ held, role.heldFrom < role.heldUntil)
    (split : ∀ role ∈ held, role.Before gap roles ∨ StartsApart gap roles role.heldFrom)
    (before : ∃ role ∈ held, role.Before gap roles) (after : gap < today)
    : gap ≤ (activePeriod held today).since ∧ (activePeriod held today).earlier ≠ [] := by
  have splits := activePeriod_splits held today nonEmpty
  have since : gap ≤ (activePeriod held today).since := by
    by_cases covered : ∃ role ∈ held, role.Covers today
    swap
    · rw [splits.uncovered covered]
      exact after.le
    obtain ⟨⟨begun, unbroken⟩, _⟩ := splits.covered covered
    by_contra early
    have early := not_le.mp early
    obtain ⟨role, inside, ended, _⟩ := before
    obtain ⟨final, there, early_, most⟩ := exists_lastBefore ⟨role, inside, ended⟩
    have uncovered (day : Date) (from_ : final.heldUntil ≤ day) (until_ : day ≤ gap)
        (apart : ∀ starts, StartsApart gap roles starts → day < starts)
        : ¬ ∃ role ∈ held, role.Covers day := by
      rintro ⟨other, inside', begun', unended⟩
      rcases split other inside' with ⟨ended', _⟩ | apart'
      · have bound := most other inside' ended'
        exact absurd (unended.trans_le (bound.trans from_)) (lt_irrefl _)
      · exact absurd (apart other.heldFrom apart') begun'.not_gt
    rcases split final there with ⟨_, earlier, kept, same⟩ | apart
    · rcases le_or_gt (activePeriod held today).since final.heldUntil with le | gt
      · refine uncovered final.heldUntil le_rfl early_ (fun starts apart => ?_)
          (unbroken _ le (early_.trans after.le))
        exact same ▸ apart.2 earlier kept
      · exact uncovered _ gt.le early.le (fun starts apart => early.trans_le apart.1)
          (unbroken _ le_rfl begun)
    · exact absurd ((apart.1.trans_lt (nonEmpty final there)).trans_le early_) (lt_irrefl _)
  refine ⟨since, ?_⟩
  obtain ⟨role, inside, ended, _⟩ := before
  have begun : role.heldFrom < (activePeriod held today).since :=
    (nonEmpty role inside).trans_le (ended.trans since)
  rw [splits.earlier]
  exact List.ne_nil_of_mem (List.mem_filter.mpr ⟨inside, decide_eq_true begun⟩)

/-- The event shows a role and its years, or a former member. -/
def EventLabel.Unlinked (label : EventLabel) : Prop :=
  (∃ role, label = .role role) ∨ label = .formerMember

/-- Whatever is held since apart, an event from before the gap is not shown by the name. -/
theorem shownName_apart (roles : List HeldRole)
    (split : ∀ role ∈ s.heldRoles m.id,
      role.Before gap roles ∨ StartsApart gap roles role.heldFrom)
    (before : ∃ role ∈ s.heldRoles m.id, role.Before gap roles) (after : gap < today)
    (past : on < gap)
    : ((s.shownName m today).labelOn on).Unlinked
      ∨ m.encryptedDisplayName = none ∧ (s.shownName m today).labelOn on = .noName := by
  have nonEmpty (role : HeldRole) (inside : role ∈ s.heldRoles m.id)
      : role.heldFrom < role.heldUntil := by
    obtain ⟨ra, _, _, ran, _, _, rfl⟩ := mem_heldRoles.mp inside
    exact ran
  obtain ⟨since, earlier⟩ := activePeriod_apart nonEmpty split before after
  obtain ⟨first, inside, _⟩ := before
  have some_ : s.heldRoles m.id ≠ [] := List.ne_nil_of_mem inside
  unfold Tables.shownName
  split
  · exact .inl (.inr rfl)
  split
  · rw [if_neg some_]
    obtain ⟨role, _, label⟩ := roleLabel_held some_ on
    exact .inl (.inl ⟨role.label, by rw [MemberName.labelOn, label]⟩)
  · cases name : m.encryptedDisplayName with
    | none => exact .inr ⟨rfl, rfl⟩
    | some given =>
        have gone := past.trans_le since
        obtain ⟨role, _, label⟩ :=
          (activePeriod_splits (s.heldRoles m.id) today nonEmpty).labelled earlier on gone
        refine .inl (.inl ⟨role.label, ?_⟩)
        simp only [ne_eq, earlier, not_false_eq_true, if_true, MemberName.labelOn, gone.not_ge,
          if_false, label]

/-- Every name that is given is its membership's. -/
theorem memberNames_shown {viewer : Viewer} {ids : List Nat} {shown : List (Nat × MemberName)}
    {id : Nat} {name : MemberName} (reads : s.memberNames viewer ids today = .ok shown)
    (inside : (id, name) ∈ shown)
    : ∃ m, s.membership id = some m ∧ name = s.shownName m today := by
  unfold Tables.memberNames at reads
  split at reads
  · cases reads
  · cases reads
    refine List.foldlRecOn (motive := fun out : List (Nat × MemberName) => ∀ entry ∈ out,
        ∃ m, s.membership entry.1 = some m ∧ entry.2 = s.shownName m today)
      ids _ (fun _ none_ => absurd none_ List.not_mem_nil) ?_ (id, name) inside
    intro out earlier next _ entry there
    split at there
    · exact earlier entry there
    · split at there
      · next m found =>
          rcases List.mem_append.mp there with old | added
          · exact earlier entry old
          · rw [List.mem_singleton.mp added]
            exact ⟨m, found, rfl⟩
      · exact earlier entry there

-----------------------------------------------------------------------------------------
-- Roles given since the gap

/-- The assignment was over by the gap, or begins apart from the roles held before it. -/
def RoleAssignment.Parted (ra : RoleAssignment) (gap : Date) (roles : List HeldRole) : Prop :=
  ra.heldUntil ≤ gap ∧ (ra.Ran → ∃ role ∈ roles, role.heldUntil = ra.heldUntil)
    ∨ StartsApart gap roles ra.period.startsOn

/-- All assignments of the membership are parted at the gap, with one that ran before it. -/
structure Tables.Parted (s : Tables) (membershipId : Nat) (gap : Date) (roles : List HeldRole)
    : Prop where
  rows : ∀ ra ∈ s.assignments, ra.membershipId = membershipId → ra.Parted gap roles
  earlier : ∃ ra ∈ s.assignments, ra.membershipId = membershipId ∧ ra.Ran ∧ ra.heldUntil ≤ gap

/-- Every role the operation gives the membership begins apart. -/
def Operation.GivesApart (s : Tables) (membershipId : Nat) (gap : Date) (roles : List HeldRole)
    : Operation → Prop
  | .grantRole req =>
      req.membershipId = membershipId → StartsApart gap roles req.period.startsOn
  | .acceptInvitation found req =>
      req.profile.membershipId = membershipId → ∀ inv, s.invitation found = some inv →
        ∀ offered ∈ inv.roles, StartsApart gap roles offered.2.startsOn
  | _ => True

/-- Operations come after the gap, and give the membership roles apart from those before it. -/
def FauEvent.AfterGap (membershipId : Nat) (gap : Date) (roles : List HeldRole) (state : FauState)
    : FauEvent → Prop
  | operates op moment => gap < moment.today ∧ op.GivesApart state.tables membershipId gap roles
  | looksUp _ _ | passes _ | outside => True

/-- A revocation after the gap leaves the row parted. -/
theorem RoleAssignment.GoesOn.parted {ra ra' : RoleAssignment}
    (goesOn : ra.GoesOn moment.now ra') (later : gap < moment.today)
    (parted : ra.Parted gap roles)
    : ra'.Parted gap roles := by
  have period : ra'.period = ra.period := by rw [goesOn.same]
  refine parted.imp (fun before => ?_) fun apart => ?_
  · have same := goesOn.heldUntil_of_le (before.1.trans later.le)
    refine ⟨same ▸ before.1, fun ran => ?_⟩
    rw [same]
    rw [RoleAssignment.Ran, period, same] at ran
    exact before.2 ran
  · rw [period]
    exact apart

/-- A role that an operation gives begins apart, where it gives the membership only such. -/
theorem RoleAssignment.Origin.startsApart {op : Operation} {ra : RoleAssignment}
    (origin : ra.Origin moment s after op) (theirs : ra.membershipId = membershipId)
    (later : gap < moment.today) (held : ∀ role ∈ roles, role.heldUntil ≤ gap)
    (apart : op.GivesApart s membershipId gap roles)
    : StartsApart gap roles ra.period.startsOn := by
  cases origin with
  | granted path gives =>
      rw [gives.period]
      exact apart (gives.membershipId.symm.trans theirs)
  | accepted path accepted gives =>
      obtain ⟨_, fulfils, _⟩ := acceptedRoles_commits path.offers
      obtain ⟨offered, inside, fulfilled⟩ := forall₂_left_of_mem fulfils accepted
      obtain ⟨joined, _⟩ := ensureMembership_commits path.joins
      rw [gives.period, fulfilled.startsOn]
      exact apart (joined.symm.trans (gives.membershipId.symm.trans theirs)) path.inv path.finds
        offered (mem_sortOn.mp inside)
  | activated path gives =>
      rw [gives.period, path.starts]
      exact ⟨later.le, fun role inside => (held role inside).trans_lt later⟩

variable {state next : FauState} {event : FauEvent}

/-- A step after the gap that gives roles apart leaves the assignments parted. -/
theorem FauStep.parted (stepped : FauStep state event next)
    (held : ∀ role ∈ roles, role.heldUntil ≤ gap)
    (allowed : event.AfterGap membershipId gap roles state)
    (parted : state.tables.Parted membershipId gap roles)
    : next.tables.Parted membershipId gap roles := by
  have changes := stepped.changes
  have still (same : next.tables.assignments = state.tables.assignments)
      : next.tables.Parted membershipId gap roles :=
    ⟨same ▸ parted.rows, same ▸ parted.earlier⟩
  cases event with
  | operates op moment =>
      obtain ⟨later, apart⟩ := allowed
      refine ⟨fun ra' inside' theirs' => ?_, ?_⟩
      · rcases stepped.assignment inside' with ⟨ra, inside, goesOn⟩ | ⟨_, _, same, _, origin⟩
        · have theirs : ra.membershipId = membershipId := by
            rw [goesOn.same] at theirs'
            exact theirs'
          exact RoleAssignment.GoesOn.parted goesOn later (parted.rows ra inside theirs)
        · cases same
          exact .inr (origin.startsApart theirs' later held apart)
      · obtain ⟨ra, inside, theirs, ran, ended⟩ := parted.earlier
        obtain ⟨ra', inside', goesOn⟩ := changes.assignments.goesOn ra inside
        have same := RoleAssignment.GoesOn.heldUntil_of_le goesOn (ended.trans later.le)
        refine ⟨ra', inside', ?_, ?_, same ▸ ended⟩
        · rw [goesOn.same]
          exact theirs
        · rw [RoleAssignment.Ran, same, goesOn.same]
          exact ran
  | looksUp | passes | outside =>
      exact still (changes.sameAssignments (by simp [FauEvent.written])
        (by simp [FauEvent.written]))

/-- At the gap the roles held before are those parted from what follows. -/
theorem Tables.Tidy.parted (tidy : s.Tidy gap) (held : m ∈ s.memberships)
    (ended : s.membershipEnded m gap = true) (some_ : s.heldRoles m.id ≠ [])
    : s.Parted m.id gap (s.heldRoles m.id) := by
  have allOver := tidy.allOver held ended
  refine ⟨fun ra inside theirs => .inl ⟨(allOver ra inside theirs).heldUntil_le, fun ran => ?_⟩, ?_⟩
  · obtain ⟨r, known⟩ := tidy.known ra inside
    exact ⟨_, mem_heldRoles.mpr ⟨ra, inside, theirs, ran, r, known, rfl⟩, rfl⟩
  · obtain ⟨role, inside⟩ := List.exists_mem_of_ne_nil _ some_
    obtain ⟨ra, there, theirs, ran, _⟩ := mem_heldRoles.mp inside
    exact ⟨ra, there, theirs, ran, (allOver ra there theirs).heldUntil_le⟩

/-- What is parted at the gap is shown by a role, or by no name. -/
theorem Tables.Parted.unlinked (parted : s.Parted m.id gap roles)
    (known : ∀ ra ∈ s.assignments, ∃ r, s.role ra.roleId = some r) (after : gap < today)
    (past : on < gap)
    : ((s.shownName m today).labelOn on).Unlinked
      ∨ m.encryptedDisplayName = none ∧ (s.shownName m today).labelOn on = .noName := by
  refine shownName_apart roles (fun role inside => ?_) ?_ after past
  · obtain ⟨ra, there, theirs, ran, _, _, rfl⟩ := mem_heldRoles.mp inside
    exact (parted.rows ra there theirs).imp_left fun before => ⟨before.1, before.2 ran⟩
  · obtain ⟨ra, there, theirs, ran, ended⟩ := parted.earlier
    obtain ⟨r, role⟩ := known ra there
    refine ⟨_, mem_heldRoles.mpr ⟨ra, there, theirs, ran, r, role, rfl⟩, ended, ?_⟩
    rcases parted.rows ra there theirs with ⟨_, earlier⟩ | apart
    · exact earlier ran
    · exact absurd ((apart.1.trans_lt ran).trans_le ended) (lt_irrefl _)

theorem run_parted {events : List FauEvent}
    (run : (fauSystem.restrict fun state event => event.AfterGap membershipId gap roles state).Run
      state events next)
    (held : ∀ role ∈ roles, role.heldUntil ≤ gap)
    (parted : state.tables.Parted membershipId gap roles)
    : next.tables.Parted membershipId gap roles := by
  induction run with
  | done => exact parted
  | next _ stepped ih => exact FauStep.parted stepped.2 held stepped.1 ih

/-- Once a membership that had held a role was ended at the end of a day, as long as every role
given to it since begins apart from those it held before, member names show no event from before
that day by the name, and show it by a role or as a former member's where the membership has a name.
-/
theorem returners_unlinked (dusk state : FauState) (events : List FauEvent) (gap today on : Date)
    (m : MembershipRow) (reached : fauSystem.Reachable dusk) (day : dusk.today ≤ gap)
    (held : m ∈ dusk.tables.memberships) (ended : dusk.tables.membershipEnded m gap = true)
    (some_ : dusk.tables.heldRoles m.id ≠ [])
    (run : (fauSystem.restrict fun state event =>
        event.AfterGap m.id gap (dusk.tables.heldRoles m.id) state).Run dusk events state)
    (after : gap < today) (past : on < gap)
    (viewer : Viewer) (ids : List Nat) (shown : List (Nat × MemberName)) (name : MemberName)
    (reads : state.tables.memberNames viewer ids today = .ok shown) (inside : (m.id, name) ∈ shown)
    : (∀ given, name.labelOn on ≠ .name given)
      ∧ ((∀ m' ∈ state.tables.memberships, m'.id = m.id → m'.encryptedDisplayName.isSome) →
          (name.labelOn on).Unlinked) := by
  have tidy := (reachable_tidy reached).tables.later day
  have before (role : HeldRole) (inside : role ∈ dusk.tables.heldRoles m.id)
      : role.heldUntil ≤ gap := by
    obtain ⟨ra, there, theirs, _, _, _, rfl⟩ := mem_heldRoles.mp inside
    exact (tidy.allOver held ended ra there theirs).heldUntil_le
  have parted := run_parted run before (tidy.parted held ended some_)
  have known := (reachable_tidy (reached.run run.of_restrict)).tables.known
  obtain ⟨m', found, rfl⟩ := memberNames_shown reads inside
  obtain ⟨held', same⟩ := of_findRow found
  rcases (same ▸ parted).unlinked known after past with unlinked | ⟨none_, noName⟩
  · refine ⟨fun given named => ?_, fun _ => unlinked⟩
    rcases unlinked with ⟨role, label⟩ | label <;> simp [label] at named
  · refine ⟨by simp [noName], fun names => ?_⟩
    simpa [none_] using names m' held' same

end

-----------------------------------------------------------------------------------------
-- A return after a term

section

attribute [local instance] OsloZone.winterAndSummer

/-- In June, a month after Kari's term, the oversight offers her a role over the period. -/
def offersOver (period : Period) : RecoveryGrant :=
  ⟨.ewb, ⟨"kari@example.no"⟩, .existing 1, period⟩

def kariReturns : AcceptInvitation := ⟨1, ⟨"kari@example.no"⟩, none, kariProfile⟩

def offeredOver (period : Period) : Tables :=
  (recoveryGrantAdmin (offersOver period) june).leaves activatedFau

def returnedOver (period : Period) : Tables :=
  (acceptInvitation 1 kariReturns june).leaves (offeredOver period)

/-- From the day Kari's first term began. -/
def backdatedYear : Period := .ofEnds (.ofParts 1970 1 1 rfl) (.ofParts 1971 6 1 rfl) rfl

def comingYear : Period := .ofEnds june.today (.ofParts 1971 6 1 rfl) rfl

/-- A day in May when Kari's term is over. -/
def midMay : Date := .ofParts 1970 5 15 rfl

def returnEvents (period : Period) : List FauEvent :=
  [.operates (.recoveryGrantAdmin (offersOver period)) june, .looksUp 1 1,
    .operates (.acceptInvitation 1 kariReturns) june]

theorem activatedFau_midMay : fauSystem.Reachable ⟨activatedFau, midMay, []⟩ := by
  have start : fauSystem.Reachable ⟨signedUpFau, newYear.today, []⟩ :=
    .start ⟨signedUpFau_justSignedUp, rfl⟩
  have activated : FauStep ⟨signedUpFau, newYear.today, []⟩
      (.operates (.activateTenant ⟨⟨"kari@example.no"⟩, kariProfile⟩) newYear)
      ⟨activatedFau, newYear.today, []⟩ :=
    .operates (le_refl _) (by simp) activatedFau_commits
  exact (start.step activated).step (FauStep.passes (by decide +kernel : newYear.today ≤ midMay))

/-- Kari comes back over a period where the offer and its acceptance go through. -/
theorem returnedOver_run (period : Period) (allowed : FauState → FauEvent → Prop)
    (offers : ((recoveryGrantAdmin (offersOver period) june).run activatedFau).toBool = true)
    (finds : (offeredOver period).invitationByToken 1 = some 1)
    (accepts : ((acceptInvitation 1 kariReturns june).run (offeredOver period)).toBool = true)
    (first : allowed ⟨activatedFau, midMay, []⟩
      (.operates (.recoveryGrantAdmin (offersOver period)) june))
    (second : allowed ⟨offeredOver period, june.today, []⟩ (.looksUp 1 1))
    (third : allowed ⟨offeredOver period, june.today, [(1, 1)]⟩
      (.operates (.acceptInvitation 1 kariReturns) june))
    : (fauSystem.restrict allowed).Run ⟨activatedFau, midMay, []⟩ (returnEvents period)
        ⟨returnedOver period, june.today, [(1, 1)]⟩ := by
  have offered : FauStep ⟨activatedFau, midMay, []⟩
      (.operates (.recoveryGrantAdmin (offersOver period)) june)
      ⟨offeredOver period, june.today, []⟩ :=
    .operates (by decide +kernel) (by simp) (leaves_commits offers)
  have found : FauStep ⟨offeredOver period, june.today, []⟩ (.looksUp 1 1)
      ⟨offeredOver period, june.today, [(1, 1)]⟩ :=
    .looksUp finds
  have accepted : FauStep ⟨offeredOver period, june.today, [(1, 1)]⟩
      (.operates (.acceptInvitation 1 kariReturns) june)
      ⟨returnedOver period, june.today, [(1, 1)]⟩ :=
    .operates (le_refl _) (fun _ _ same => by cases same; exact List.mem_singleton_self _)
      (leaves_commits accepts)
  have start : (fauSystem.restrict allowed).Run ⟨activatedFau, midMay, []⟩ [] _ := .done
  exact ((start.next ⟨first, offered⟩).next ⟨second, found⟩).next ⟨third, accepted⟩

/-- A year that begins in June begins apart from Kari's first term, and her event in March is shown
by her role.
-/
theorem kari_unlinked
    : (∀ given, ((returnedOver comingYear).shownName
          ⟨1, 1, none, some kariProfile.encryptedDisplayName, none, none, none⟩ june.today).labelOn
          (.ofParts 1970 3 1 rfl) ≠ .name given)
      ∧ ((∀ m' ∈ (returnedOver comingYear).memberships, m'.id = 1 →
            m'.encryptedDisplayName.isSome) →
          (((returnedOver comingYear).shownName
            ⟨1, 1, none, some kariProfile.encryptedDisplayName, none, none, none⟩
            june.today).labelOn (.ofParts 1970 3 1 rfl)).Unlinked) := by
  have apart : StartsApart midMay (activatedFau.heldRoles 1) june.today :=
    ⟨by decide +kernel, by decide +kernel⟩
  have offered : ∀ inv ∈ (offeredOver comingYear).invitations, ∀ offered ∈ inv.roles,
      offered.2.startsOn = june.today := by
    decide +kernel
  have later : midMay < june.today := by decide +kernel
  have run := returnedOver_run comingYear
    (fun state event => event.AfterGap 1 midMay (activatedFau.heldRoles 1) state)
    (by decide +kernel) (by decide +kernel) (by decide +kernel) ⟨later, trivial⟩ trivial
    ⟨later, fun _ inv found role inside => offered inv (of_findRow found).1 role inside ▸ apart⟩
  exact returners_unlinked ⟨activatedFau, midMay, []⟩ _ _ midMay june.today (.ofParts 1970 3 1 rfl)
    ⟨1, 1, none, some kariProfile.encryptedDisplayName, none, none, none⟩ activatedFau_midMay
    (le_refl _) (by decide +kernel) (by decide +kernel) (by decide +kernel) run later
    (by decide +kernel) ⟨1, 1⟩ [1] _ _ (by decide +kernel) (List.mem_singleton_self _)

/-- A year from the day Kari's first term began closes the gap, and her event in March is shown by
her name.
-/
theorem kari_linked
    : ¬ ∀ (dusk state : FauState) (events : List FauEvent) (gap today on : Date)
        (m : MembershipRow) (roles : List HeldRole),
        fauSystem.Reachable dusk → dusk.today = gap → m ∈ dusk.tables.memberships →
        dusk.tables.shownName m gap = .ended roles → fauSystem.Run dusk events state →
        (∀ op moment, .operates op moment ∈ events → gap < moment.today) →
        state.today = today → gap < today → on < gap →
        ∀ viewer ids shown name, state.tables.memberNames viewer ids today = .ok shown →
          (m.id, name) ∈ shown → (name.labelOn on).Unlinked := by
  intro claimed
  have later : midMay < june.today := by decide +kernel
  have run := (returnedOver_run backdatedYear (fun _ _ => True) (by decide +kernel)
    (by decide +kernel) (by decide +kernel) trivial trivial trivial).of_restrict
  have after (op : Operation) (moment : Moment)
      (inside : FauEvent.operates op moment ∈ returnEvents backdatedYear)
      : midMay < moment.today := by
    simp only [returnEvents, List.mem_cons, FauEvent.operates.injEq, reduceCtorEq, false_or,
      List.not_mem_nil, or_false] at inside
    rcases inside with ⟨_, rfl⟩ | ⟨_, rfl⟩ <;> exact later
  have unlinked := claimed ⟨activatedFau, midMay, []⟩ _ _ midMay june.today (.ofParts 1970 3 1 rfl)
    ⟨1, 1, none, some kariProfile.encryptedDisplayName, none, none, none⟩
    (activatedFau.heldRoles 1) activatedFau_midMay rfl (by decide +kernel) (by decide +kernel) run
    after rfl later (by decide +kernel) ⟨1, 1⟩ [1]
    [(1, .named kariProfile.encryptedDisplayName)] _ (by decide +kernel) (List.mem_singleton_self _)
  rcases unlinked with ⟨_, label⟩ | label <;> cases label

end

end FauPortalen.Membership

import FauPortalen.Foundations.Coverage
import FauPortalen.Membership.Tables

/-! The last-admin safeguard is exact: it refuses a removal when, and only when, some day from
today on loses its only admin.
-/

namespace FauPortalen.Membership

open Foundations

variable {assignments : List AssignmentView} {grants : List GrantView} {today day : Date}

/-- The periods in which the rows give an admin. -/
def adminPeriods (assignments : List AssignmentView) (grants : List GrantView) : List Period :=
  (assignments.filter fun a => !a.revoked && a.capability = .admin).map (·.period)
    ++ (grants.filter (!·.revoked)).map (·.period)

def Period.span (period : Period) : Date × Date := (period.startsOn, period.endsOnExclusive)

theorem covered_spans {periods : List Period}
    : Covered (periods.map Period.span) day ↔ ∃ period ∈ periods, period.contains day = true := by
  simp [Covered, Period.span]

/-- The FAU has an admin on the days its admin periods cover. -/
theorem tenantHasAdmin_iff
    : tenantHasAdmin assignments grants day = true
      ↔ Covered ((adminPeriods assignments grants).map Period.span) day := by
  rw [covered_spans]
  simp only [tenantHasAdmin, adminPeriods, AssignmentView.validOn, GrantView.validOn,
    Bool.or_eq_true, List.any_eq_true, List.mem_append, List.mem_map, List.mem_filter,
    Bool.and_eq_true, decide_eq_true_eq]
  constructor
  · rintro (⟨a, inside, admin, live, contains⟩ | ⟨g, inside, live, contains⟩)
    · exact ⟨_, .inl ⟨a, ⟨inside, live, admin⟩, rfl⟩, contains⟩
    · exact ⟨_, .inr ⟨g, ⟨inside, live⟩, rfl⟩, contains⟩
  · rintro ⟨_, ⟨a, ⟨inside, live, admin⟩, rfl⟩ | ⟨g, ⟨inside, live⟩, rfl⟩, contains⟩
    · exact .inl ⟨a, inside, admin, live, contains⟩
    · exact .inr ⟨g, inside, live, contains⟩

/-- One removed period leaves a day from today on without an admin. -/
theorem leavesGap_iff {period : Period} {covered : List Period}
    : (¬ period.endsOnExclusive ≤ today
        ∧ (¬ Covered (covered.map Period.span) (max period.startsOn today)
          ∨ ∃ other ∈ covered, max period.startsOn today < other.endsOnExclusive
              ∧ other.endsOnExclusive < period.endsOnExclusive
              ∧ ¬ Covered (covered.map Period.span) other.endsOnExclusive))
      ↔ ∃ day, today ≤ day ∧ period.contains day = true
          ∧ ¬ Covered (covered.map Period.span) day := by
  simp only [Period.contains_iff]
  constructor
  · rintro ⟨running, gap⟩
    have some_ := max_lt period.nonEmpty (not_le.mp running)
    obtain ⟨day, from_, until_, uncovered⟩ := (exists_uncovered_iff some_).mpr
      (gap.imp_right fun ends => ends.elim fun other found =>
        ⟨other.span, List.mem_map_of_mem found.1, found.2⟩)
    obtain ⟨starts, later⟩ := max_le_iff.mp from_
    exact ⟨day, later, ⟨starts, until_⟩, uncovered⟩
  · rintro ⟨day, later, ⟨starts, until_⟩, uncovered⟩
    have running : today < period.endsOnExclusive := later.trans_lt until_
    have gap := (exists_uncovered_iff (max_lt period.nonEmpty running)).mp
      ⟨day, max_le starts later, until_, uncovered⟩
    refine ⟨not_le.mpr running, gap.imp_right ?_⟩
    rintro ⟨_, inside, rest⟩
    obtain ⟨other, there, rfl⟩ := List.mem_map.mp inside
    exact ⟨other, there, rest⟩

variable {remainingAssignments removedAssignments : List AssignmentView}
  {remainingGrants removedGrants : List GrantView}

/-- The decision from the end points is the one over all days. -/
theorem removalLeavesNoAdmin_iff
    : removalLeavesNoAdmin remainingAssignments remainingGrants removedAssignments removedGrants
        today = true
      ↔ ∃ day, today ≤ day ∧ tenantHasAdmin removedAssignments removedGrants day = true
          ∧ ¬ tenantHasAdmin remainingAssignments remainingGrants day = true := by
  have ends
      : (remainingAssignments.filter fun a => !a.revoked && a.capability = .admin).map
            (·.period.endsOnExclusive)
          ++ (remainingGrants.filter (!·.revoked)).map (·.period.endsOnExclusive)
        = (adminPeriods remainingAssignments remainingGrants).map (·.endsOnExclusive) := by
    simp [adminPeriods, Function.comp_def]
  have decided
      : removalLeavesNoAdmin remainingAssignments remainingGrants removedAssignments removedGrants
          today = true
        ↔ ∃ period ∈ adminPeriods removedAssignments removedGrants,
            ∃ day, today ≤ day ∧ period.contains day = true
              ∧ ¬ tenantHasAdmin remainingAssignments remainingGrants day = true := by
    simp only [removalLeavesNoAdmin, ends, tenantHasAdmin_iff, ← leavesGap_iff]
    simp only [List.any_eq_true, List.mem_map, Bool.and_eq_true, Bool.or_eq_true,
      Bool.not_eq_true', ← Bool.not_eq_true, tenantHasAdmin_iff, Period.hasEndedBy_iff,
      decide_eq_true_eq]
    simp [adminPeriods, and_assoc]
  have removed {day : Date}
      : tenantHasAdmin removedAssignments removedGrants day = true
        ↔ ∃ period ∈ adminPeriods removedAssignments removedGrants, period.contains day = true :=
    tenantHasAdmin_iff.trans covered_spans
  rw [decided]
  constructor
  · rintro ⟨period, inside, day, later, contains, uncovered⟩
    exact ⟨day, later, removed.mpr ⟨period, inside, contains⟩, uncovered⟩
  · rintro ⟨day, later, had, uncovered⟩
    obtain ⟨period, inside, contains⟩ := removed.mp had
    exact ⟨period, inside, day, later, contains, uncovered⟩

/-- The admin state without the removed rows. -/
def AdminState.without (state : AdminState) (removed : Nat → Nat → Bool) : AdminState where
  assignments := state.assignments.filter fun r => !removed r.id r.membershipId
  grants := state.grants.filter fun r => !removed r.sourceAssignmentId r.membershipId

/-- The rows of a day with an admin are among the removed or among the rest. -/
theorem AdminState.hasAdmin_or {state : AdminState} (removed : Nat → Nat → Bool)
    (had : state.hasAdmin day = true)
    : (state.without fun id holder => !removed id holder).hasAdmin day = true
        ∨ (state.without removed).hasAdmin day = true := by
  simp only [hasAdmin, without, tenantHasAdmin, Bool.or_eq_true, List.any_eq_true, List.mem_map,
    List.mem_filter, Bool.not_not, Bool.not_eq_true'] at had ⊢
  rcases had with ⟨_, ⟨r, inside, rfl⟩, gives⟩ | ⟨_, ⟨r, inside, rfl⟩, gives⟩
  · cases gone : removed r.id r.membershipId with
    | true => exact .inl (.inl ⟨_, ⟨r, ⟨inside, gone⟩, rfl⟩, gives⟩)
    | false => exact .inr (.inl ⟨_, ⟨r, ⟨inside, gone⟩, rfl⟩, gives⟩)
  · cases gone : removed r.sourceAssignmentId r.membershipId with
    | true => exact .inl (.inr ⟨_, ⟨r, ⟨inside, gone⟩, rfl⟩, gives⟩)
    | false => exact .inr (.inr ⟨_, ⟨r, ⟨inside, gone⟩, rfl⟩, gives⟩)

/-- Ending the removed rows leaves a day from today on without an administrator. -/
def AdminState.leavesNone (state : AdminState) (removed : Nat → Nat → Bool) (today : Date) : Bool :=
  removalLeavesNoAdmin
    ((state.without removed).assignments.map (·.view))
    ((state.without removed).grants.map (·.view))
    ((state.without fun id holder => !removed id holder).assignments.map (·.view))
    ((state.without fun id holder => !removed id holder).grants.map (·.view))
    today

theorem AdminState.leavesNone_iff {state : AdminState} {removed : Nat → Nat → Bool}
    : state.leavesNone removed today = true
      ↔ ∃ day, today ≤ day
          ∧ (state.without fun id holder => !removed id holder).hasAdmin day = true
          ∧ ¬ (state.without removed).hasAdmin day = true :=
  removalLeavesNoAdmin_iff

/-- The check decides the removal on its rows. -/
theorem AdminState.checkLastAdmin_eq {state : AdminState} {removed : Nat → Nat → Bool}
    {confirmed : Bool}
    : state.checkLastAdmin today confirmed removed
      = if state.leavesNone removed today && !confirmed then .error .wouldLeaveNoAdmin
        else .ok (state.leavesNone removed today) := by
  simp only [checkLastAdmin, leavesNone, without, List.partition_eq_filter_filter, Bool.not_not]
  rfl

/-- The safeguard is exact, and what passes it unconfirmed takes no day's admin away. -/
theorem lastAdmin_exact
    : (∀ (remainingAssignments removedAssignments : List AssignmentView)
          (remainingGrants removedGrants : List GrantView) (today : Date),
        removalLeavesNoAdmin remainingAssignments remainingGrants removedAssignments removedGrants
            today = true
          ↔ ∃ day, today ≤ day ∧ tenantHasAdmin removedAssignments removedGrants day = true
              ∧ ¬ tenantHasAdmin remainingAssignments remainingGrants day = true)
      ∧ ∀ (state : AdminState) (today : Date) (removed : Nat → Nat → Bool) (leavesNone : Bool),
          state.checkLastAdmin today false removed = .ok leavesNone →
            ∀ day, today ≤ day → state.hasAdmin day = true →
              (state.without removed).hasAdmin day = true := by
  refine ⟨fun _ _ _ _ _ => removalLeavesNoAdmin_iff, ?_⟩
  intro state today removed leavesNone passes day later had
  rcases AdminState.hasAdmin_or removed had with taken | kept
  · by_contra lost
    have leaves := AdminState.leavesNone_iff.mpr ⟨day, later, taken, lost⟩
    rw [AdminState.checkLastAdmin_eq, leaves] at passes
    cases passes
  · exact kept

/-- Two admins over one term. -/
def twoAdmins : AdminState where
  assignments :=
    let term : Period := .ofEnds (.ofParts 2026 9 1 rfl) (.ofParts 2027 9 1 rfl) rfl
    [⟨1, 1, .admin, term, false⟩, ⟨2, 2, .admin, term, false⟩]
  grants := []

/-- One of two admins may leave without a confirmation. -/
theorem lastAdmin_exact_of_two
    : (twoAdmins.without fun id _ => id = 1).hasAdmin ⟨2026, 12, 24, by decide, by decide, by decide⟩
      = true :=
  lastAdmin_exact.2 twoAdmins ⟨2026, 10, 1, by decide, by decide, by decide⟩ (fun id _ => id = 1)
    false (by decide +kernel) _ (by decide +kernel) (by decide +kernel)

end FauPortalen.Membership

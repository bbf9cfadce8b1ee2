import Mathlib.Data.List.MinMax
import FauPortalen.Membership.Authorization
import FauPortalen.Membership.Vocabulary

/-! Access: what a person may do today as the union of the roles valid that day, when an FAU has
an admin, and when ending some of its rows would leave it without one.
-/

namespace FauPortalen.Membership

-----------------------------------------------------------------------------------------
-- Capabilities in order

def Capability.rank : Capability → Nat
  | .none => 0
  | .guest => 1
  | .member => 2
  | .admin => 3

theorem Capability.rank_injective : Function.Injective Capability.rank := by
  intro left right same
  cases left <;> cases right <;> first | rfl | cases same

instance : LinearOrder Capability := LinearOrder.lift' Capability.rank Capability.rank_injective

def CapabilityClass.capability : CapabilityClass → Capability
  | .guest => .guest
  | .member => .member
  | .admin => .admin

/-- The highest of some capabilities, none where there is no other. -/
def highest (capabilities : List Capability) : Capability := capabilities.max?.getD .none

/-- The highest capability reaches a capability above none when one of the list does. -/
theorem le_highest {capability : Capability} {capabilities : List Capability}
    (some_ : capability ≠ .none)
    : capability ≤ highest capabilities ↔ ∃ held ∈ capabilities, capability ≤ held := by
  unfold highest
  cases found : capabilities.max? with
  | none =>
      rw [List.max?_eq_none_iff] at found
      have above : ¬ capability ≤ .none := by
        cases capability <;> first | exact absurd rfl some_ | decide
      simp [found, above]
  | some best =>
      obtain ⟨held, largest⟩ := List.max?_eq_some_iff.mp found
      constructor
      · intro reached
        exact ⟨best, held, reached⟩
      · rintro ⟨other, present, reached⟩
        exact reached.trans (largest other present)

theorem Capability.none_le (capability : Capability) : .none ≤ capability := by
  cases capability <;> decide

/-- Capabilities each of which some other list reaches are no higher together. -/
theorem highest_le {capabilities others : List Capability}
    (reached : ∀ held ∈ capabilities, ∃ other ∈ others, held ≤ other)
    : highest capabilities ≤ highest others := by
  by_cases some_ : highest capabilities = .none
  · exact some_ ▸ Capability.none_le _
  · obtain ⟨held, present, largest⟩ := (le_highest some_).mp (le_refl (highest capabilities))
    obtain ⟨other, there, reaches⟩ := reached held present
    exact (le_highest some_).mpr ⟨other, there, largest.trans reaches⟩

-----------------------------------------------------------------------------------------
-- The rule in order

/-- What the database says about the group gives the viewer no more than these facts do. -/
structure GroupFacts.AtMost (facts' facts : GroupFacts) : Prop where
  visibility : facts'.visibility = .open → facts.visibility = .open
  archived : facts.archived = true → facts'.archived = true
  viewerInGroup : facts'.viewerInGroup = true → facts.viewerInGroup = true

/-- The same target, about which the facts give no more. -/
def Target.AtMost : Target → Target → Prop
  | .fau, .fau => True
  | .group facts', .group facts | .groupContent facts', .groupContent facts => facts'.AtMost facts
  | _, _ => False

theorem Capability.decide_eq_ok {capability : Capability} {target : Target} {action : Action}
    : capability.decide target action = .ok ()
      ↔ capability ≠ .none ∧ capability.canRead target = true
        ∧ capability.allows action target = true := by
  unfold Capability.decide
  split
  · next none_ => simp [none_]
  · next some_ => split <;> simp_all

theorem Capability.canRead_mono {capability' capability : Capability} {target' target : Target}
    (le : capability' ≤ capability) (atMost : target'.AtMost target)
    (reads : capability'.canRead target' = true)
    : capability.canRead target = true := by
  have ranked : capability'.rank ≤ capability.rank := le
  cases target' <;> cases target <;> try exact atMost.elim
  case fau.fau => revert ranked reads; cases capability' <;> cases capability <;> decide
  all_goals
    obtain ⟨visibility, _, viewerInGroup⟩ := atMost
    cases capability' <;> cases capability <;>
      simp_all [Capability.canRead, Capability.rank]
    all_goals tauto

theorem Capability.allows_mono {capability' capability : Capability} {target' target : Target}
    {action : Action} (le : capability' ≤ capability) (atMost : target'.AtMost target)
    (allowed : capability'.allows action target' = true)
    : capability.allows action target = true := by
  have ranked : capability'.rank ≤ capability.rank := le
  have admin (is : capability' = .admin) : capability = .admin := by
    subst is
    revert ranked
    cases capability <;> decide
  cases target' <;> cases target <;> try exact atMost.elim
  all_goals cases action <;> simp only [Capability.allows, decide_eq_true_eq] at allowed ⊢
  all_goals try exact admin allowed
  obtain ⟨_, archived, viewerInGroup⟩ := atMost
  simp only [Bool.and_eq_true, Bool.not_eq_true', Bool.or_eq_true, decide_eq_true_eq]
    at allowed ⊢
  refine ⟨?_, allowed.2.imp admin viewerInGroup⟩
  by_contra kept
  simp [archived (by simpa using kept)] at allowed

/-- A lower capability, about a target of which the facts give no more, may do no more. -/
theorem Capability.decide_mono {capability' capability : Capability} {target' target : Target}
    {action : Action} (le : capability' ≤ capability) (atMost : target'.AtMost target)
    (allowed : capability'.decide target' action = .ok ())
    : capability.decide target action = .ok () := by
  obtain ⟨some_, reads, acts⟩ := Capability.decide_eq_ok.mp allowed
  refine Capability.decide_eq_ok.mpr ⟨?_, canRead_mono le atMost reads, allows_mono le atMost acts⟩
  rintro rfl
  exact some_ (le_antisymm le (Capability.none_le _))

-----------------------------------------------------------------------------------------
-- The rows as the rules need them

/-- One role assignment, its class from the role. -/
structure AssignmentView where
  capability : CapabilityClass
  period : Period
  revoked : Bool
deriving DecidableEq

def AssignmentView.validOn (view : AssignmentView) (day : Date) : Bool :=
  !view.revoked && view.period.contains day

/-- One handover grant. -/
structure GrantView where
  period : Period
  revoked : Bool
deriving DecidableEq

def GrantView.validOn (view : GrantView) (day : Date) : Bool :=
  !view.revoked && view.period.contains day

/-- What comes before any role is looked at: each one missing removes all access. -/
structure Standing where
  tenantActive : Bool
  accountUsable : Bool
  membershipActive : Bool
deriving DecidableEq

structure Access where
  capability : Capability
  /-- A handover grant is valid today. It gives no access to documents. -/
  handover : Bool
  /-- Without a capability, the earliest future start of a role. -/
  nextStart : Option Date
deriving DecidableEq

def Access.none : Access := ⟨.none, false, Option.none⟩

def evaluateAccess (standing : Standing) (assignments : List AssignmentView)
    (grants : List GrantView) (today : Date)
    : Access :=
  if !(standing.tenantActive && standing.accountUsable && standing.membershipActive) then .none
  else
    let capability := highest ((assignments.filter (·.validOn today)).map (·.capability.capability))
    let handover := grants.any (·.validOn today)
    let nextStart :=
      if capability = .none then
        ((assignments.filter fun a => !a.revoked && today < a.period.startsOn).map
          (·.period.startsOn)).min?
      else none
    ⟨capability, handover, nextStart⟩

/-- Access with other rows, of which the same are valid and to come where there is standing. -/
theorem evaluateAccess_congr {standing : Standing} {assignments assignments' : List AssignmentView}
    {grants grants' : List GrantView} {today : Date}
    (valid : assignments'.filter (·.validOn today) = assignments.filter (·.validOn today))
    (future : (assignments'.filter fun a => !a.revoked && today < a.period.startsOn)
      = assignments.filter fun a => !a.revoked && today < a.period.startsOn)
    (handover :
      (standing.tenantActive && standing.accountUsable && standing.membershipActive) = true →
        grants'.any (·.validOn today) = grants.any (·.validOn today))
    : evaluateAccess standing assignments' grants' today
      = evaluateAccess standing assignments grants today := by
  unfold evaluateAccess
  split
  · rfl
  · next stands => rw [valid, future, handover (by simpa using stands)]

/-- Where standing is not gained, and every valid role has one of its class, no capability is. -/
theorem evaluateAccess_capability_le {standing' standing : Standing}
    {assignments' assignments : List AssignmentView} {grants' grants : List GrantView} {today : Date}
    (stands :
      (standing'.tenantActive && standing'.accountUsable && standing'.membershipActive) = true →
        (standing.tenantActive && standing.accountUsable && standing.membershipActive) = true)
    (held : ∀ view' ∈ assignments', view'.validOn today = true →
      ∃ view ∈ assignments, view.validOn today = true ∧ view.capability = view'.capability)
    : (evaluateAccess standing' assignments' grants' today).capability
      ≤ (evaluateAccess standing assignments grants today).capability := by
  unfold evaluateAccess
  by_cases stood :
      (standing'.tenantActive && standing'.accountUsable && standing'.membershipActive) = true
  · rw [stood, stands stood]
    refine highest_le fun capability' inside => ?_
    obtain ⟨view', filtered, rfl⟩ := List.mem_map.mp inside
    obtain ⟨present, valid⟩ := List.mem_filter.mp filtered
    obtain ⟨view, there, valid', same⟩ := held view' present valid
    exact ⟨_, List.mem_map_of_mem (List.mem_filter.mpr ⟨there, valid'⟩), by rw [same]⟩
  · rw [Bool.eq_false_iff.mpr stood]
    exact Capability.none_le _

/-- An admin role or a handover grant is valid that day. The rows are those of usable
memberships.
-/
def tenantHasAdmin (assignments : List AssignmentView) (grants : List GrantView) (today : Date)
    : Bool :=
  assignments.any (fun a => a.capability = .admin && a.validOn today)
    || grants.any (·.validOn today)

/-- Whether without the removed rows some day from today on has no admin although they would
have given it one. Coverage drops only where a remaining row ends, so the first remaining day
of each removed row and the ends inside it are tried.
-/
def removalLeavesNoAdmin (remainingAssignments : List AssignmentView)
    (remainingGrants : List GrantView) (removedAssignments : List AssignmentView)
    (removedGrants : List GrantView) (today : Date)
    : Bool :=
  let covered day := tenantHasAdmin remainingAssignments remainingGrants day
  let remainingEnds :=
    (remainingAssignments.filter fun a => !a.revoked && a.capability = .admin).map
        (·.period.endsOnExclusive)
      ++ (remainingGrants.filter (!·.revoked)).map (·.period.endsOnExclusive)
  let removed :=
    (removedAssignments.filter fun a => !a.revoked && a.capability = .admin).map (·.period)
      ++ (removedGrants.filter (!·.revoked)).map (·.period)
  removed.any fun period =>
    !period.hasEndedBy today
      && (let first := max period.startsOn today
          !covered first
            || remainingEnds.any fun ends =>
                first < ends && ends < period.endsOnExclusive && !covered ends)

end FauPortalen.Membership

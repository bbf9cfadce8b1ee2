import Mathlib.Data.Prod.Lex
import FauPortalen.Foundations.Spans
import FauPortalen.Membership.History

/-! What an active membership's history shows: the current period begins where the days held
without a break up to today do, and whatever was held before that has ended by then.
-/

namespace FauPortalen.Membership

open Foundations

def HeldRole.span (role : HeldRole) : Date × Date := (role.heldFrom, role.heldUntil)

def HeldRole.Covers (role : HeldRole) (day : Date) : Prop :=
  role.heldFrom ≤ day ∧ day < role.heldUntil

/-- The label a role gives: its name, the year it began in and the year of its last day. -/
def HeldRole.label (role : HeldRole) : RoleLabel :=
  ⟨role.name, role.heldFrom.year, (role.heldUntil.yesterday.getD role.heldFrom).year⟩

-----------------------------------------------------------------------------------------
-- The label of a day

section MinByKey

variable {α κ : Type} [LinearOrder κ] {key : α → κ}

/-- There is a least element of a list that has any. -/
theorem minByKey_cons (key : α → κ) (first : α) (rest : List α)
    : ∃ chosen ∈ first :: rest, minByKey key (first :: rest) = some chosen := by
  simp only [minByKey, List.foldl_cons]
  induction rest generalizing first with
  | nil => exact ⟨first, List.mem_cons_self, rfl⟩
  | cons next rest ih =>
      rw [List.foldl_cons]
      by_cases less : key next < key first
      · obtain ⟨chosen, member, found⟩ := ih next
        exact ⟨chosen, List.mem_cons_of_mem _ member, by simpa only [less, if_true] using found⟩
      · obtain ⟨chosen, member, found⟩ := ih first
        refine ⟨chosen, ?_, by simpa only [less, if_false] using found⟩
        rcases List.mem_cons.mp member with rfl | member
        · exact List.mem_cons_self
        · exact List.mem_cons_of_mem _ (List.mem_cons_of_mem _ member)

theorem minByKey_mem {elements : List α} {chosen : α}
    (found : minByKey key elements = some chosen)
    : chosen ∈ elements := by
  cases elements with
  | nil => cases found
  | cons first rest =>
      obtain ⟨least, member, same⟩ := minByKey_cons key first rest
      exact Option.some.inj (same.symm.trans found) ▸ member

end MinByKey

/-- Whoever held a role has a label on every day, and it is that of a role they held. -/
theorem roleLabel_held {held : List HeldRole} (filled : held ≠ []) (on : Date)
    : ∃ role ∈ held, roleLabel held on = some role.label := by
  obtain ⟨first, rest, rfl⟩ := List.exists_cons_of_ne_nil filled
  obtain ⟨begun, member, before⟩ := minByKey_cons
    (fun r : HeldRole => toLex (r.heldFrom, r.capabilityClass.rank)) first rest
  rw [roleLabel, before]
  -- The role held that day comes first, then the last one that had ended.
  cases during : minByKey (fun r => toLex (r.capabilityClass.rank, r.heldFrom))
      ((first :: rest).filter fun r => r.heldFrom ≤ on && on < r.heldUntil) with
  | some chosen => exact ⟨chosen, List.mem_of_mem_filter (minByKey_mem during), rfl⟩
  | none =>
      cases after : minByKey (fun r =>
          toLex (OrderDual.toDual r.heldUntil, toLex (r.capabilityClass.rank, r.heldFrom)))
          ((first :: rest).filter fun r => r.heldUntil ≤ on) with
      | some chosen => exact ⟨chosen, List.mem_of_mem_filter (minByKey_mem after), rfl⟩
      | none => exact ⟨begun, member, rfl⟩

-----------------------------------------------------------------------------------------
-- The runs of the days held

theorem extendRuns_merged {spans runs : List (Date × Date)} {span : Date × Date}
    (merged : MergedInto spans runs) (proper : span.1 < span.2)
    (sorted : ∀ earlier ∈ spans, earlier.1 ≤ span.1)
    : MergedInto (spans ++ [span]) (extendRuns runs span) := by
  cases runs with
  | nil => exact merged.begins proper fun _ member => absurd member List.not_mem_nil
  | cons run before =>
      obtain ⟨start, last⟩ := run
      rw [extendRuns]
      split
      · rename_i touches
        exact merged.extends sorted touches
      · rename_i gap
        apply merged.begins proper
        intro earlier member
        have ended : last < span.1 := not_le.mp gap
        rcases List.mem_cons.mp member with rfl | member
        · exact ended
        · have apart := (List.pairwise_cons.mp merged.apart).1 earlier member
          have begun := merged.proper (start, last) List.mem_cons_self
          exact (apart.trans begun).trans ended

theorem foldl_extendRuns_merged {seen rest runs : List (Date × Date)}
    (merged : MergedInto seen runs) (proper : ∀ span ∈ rest, span.1 < span.2)
    (sorted : (seen ++ rest).Pairwise fun a b => a.1 ≤ b.1)
    : MergedInto (seen ++ rest) (rest.foldl extendRuns runs) := by
  induction rest generalizing seen runs with
  | nil => simpa using merged
  | cons span rest ih =>
      have earlier : ∀ one ∈ seen, one.1 ≤ span.1 := fun one member =>
        (List.pairwise_append.mp sorted).2.2 one member span List.mem_cons_self
      have extended := extendRuns_merged merged (proper span List.mem_cons_self) earlier
      have := ih extended (fun one member => proper one (List.mem_cons_of_mem _ member))
        (by simpa using sorted)
      simpa using this

/-- The runs of the roles held, each for at least a day. -/
theorem heldRuns_merged {held : List HeldRole}
    (nonEmpty : ∀ role ∈ held, role.heldFrom < role.heldUntil)
    : MergedInto (sortOn toLex (held.map HeldRole.span)) (heldRuns held) := by
  have proper : ∀ span ∈ sortOn toLex (held.map HeldRole.span), span.1 < span.2 := by
    intro span member
    obtain ⟨role, found, rfl⟩ := List.mem_map.mp (mem_sortOn.mp member)
    exact nonEmpty role found
  have sorted : (sortOn toLex (held.map HeldRole.span)).Pairwise fun a b => a.1 ≤ b.1 :=
    (pairwise_sortOn toLex (held.map HeldRole.span)).imp fun before =>
      (Prod.Lex.toLex_le_toLex.mp before).elim le_of_lt fun same => same.1.le
  exact foldl_extendRuns_merged MergedInto.nil proper sorted

theorem covered_iff {held : List HeldRole} {day : Date}
    : Covered (sortOn toLex (held.map HeldRole.span)) day ↔ ∃ role ∈ held, role.Covers day := by
  constructor
  · rintro ⟨span, member, inside⟩
    obtain ⟨role, found, rfl⟩ := List.mem_map.mp (mem_sortOn.mp member)
    exact ⟨role, found, inside⟩
  · rintro ⟨role, found, inside⟩
    exact ⟨role.span, mem_sortOn.mpr (List.mem_map_of_mem found), inside⟩

-----------------------------------------------------------------------------------------
-- The current period

/-- A period that splits the roles held: it begins with the unbroken days up to today, or today
where no role covers it, and every role that began before it has ended by then.
-/
structure ActivePeriod.Splits (period : ActivePeriod) (held : List HeldRole) (today : Date)
    : Prop where
  covered : (∃ role ∈ held, role.Covers today) →
    IsLeast {first | first ≤ today ∧
      ∀ day, first ≤ day → day ≤ today → ∃ role ∈ held, role.Covers day} period.since
  uncovered : (¬ ∃ role ∈ held, role.Covers today) → period.since = today
  earlier : period.earlier = held.filter (·.heldFrom < period.since)
  ended : ∀ role ∈ period.earlier, role.heldUntil ≤ period.since
  past : ∀ role ∈ period.earlier, ∀ day, period.since ≤ day → ¬ role.Covers day
  named : ∀ on, period.since ≤ on → period.labelOn on = none
  labelled : period.earlier ≠ [] → ∀ on, on < period.since →
    ∃ role ∈ period.earlier, period.labelOn on = some role.label

/-- A period that keeps the roles that had ended when it began splits the roles. -/
theorem ActivePeriod.splits_of {held : List HeldRole} {today : Date} {period : ActivePeriod}
    (covered : (∃ role ∈ held, role.Covers today) →
      IsLeast {first | first ≤ today ∧
        ∀ day, first ≤ day → day ≤ today → ∃ role ∈ held, role.Covers day} period.since)
    (uncovered : (¬ ∃ role ∈ held, role.Covers today) → period.since = today)
    (earlier : period.earlier = held.filter (·.heldFrom < period.since))
    (ended : ∀ role ∈ period.earlier, role.heldUntil ≤ period.since)
    : period.Splits held today where
  covered := covered
  uncovered := uncovered
  earlier := earlier
  ended := ended
  past := fun role member day after covers =>
    ((ended role member).trans after).not_gt covers.2
  named := fun on after => if_pos after
  labelled := by
    intro filled on before
    obtain ⟨role, member, label⟩ := roleLabel_held filled on
    refine ⟨role, member, ?_⟩
    rw [ActivePeriod.labelOn, if_neg before.not_ge, label]

/-- The current period begins with the days held without a break up to today. -/
theorem activePeriod_splits (held : List HeldRole) (today : Date)
    (nonEmpty : ∀ role ∈ held, role.heldFrom < role.heldUntil)
    : (activePeriod held today).Splits held today := by
  have merged := heldRuns_merged nonEmpty
  rw [activePeriod]
  cases found : (heldRuns held).reverse.find? fun run => run.1 ≤ today && today < run.2 with
  | some run =>
      have member : run ∈ heldRuns held := List.mem_reverse.mp (List.mem_of_find?_eq_some found)
      obtain ⟨begun, unended⟩ : run.1 ≤ today ∧ today < run.2 := by
        simpa using List.find?_some found
      have least := merged.isLeast member begun unended
      simp only [covered_iff] at least
      have earlier : held.filter (·.heldUntil < run.1) = held.filter (·.heldFrom < run.1) := by
        apply List.filter_congr
        intro role held'
        have span : (role.heldFrom, role.heldUntil) ∈ sortOn toLex (held.map HeldRole.span) :=
          mem_sortOn.mpr (List.mem_map.mpr ⟨role, held', rfl⟩)
        have ended := merged.ended member span
        have early : role.heldUntil < run.1 → role.heldFrom < run.1 := (nonEmpty role held').trans
        exact decide_eq_decide.mpr ⟨early, ended⟩
      refine ActivePeriod.splits_of (fun _ => least) ?_ earlier ?_
      · intro none
        exact absurd (least.1.2 today begun le_rfl) none
      · intro role member
        exact (of_decide_eq_true (List.mem_filter.mp member).2).le
  | none =>
      have uncovered : ¬ ∃ role ∈ held, role.Covers today := by
        rw [← covered_iff, merged.covered_iff]
        rintro ⟨run, member, begun, unended⟩
        have := List.find?_eq_none.mp found run (List.mem_reverse.mpr member)
        simp [begun, unended] at this
      refine ActivePeriod.splits_of (fun some => absurd some uncovered) (fun _ => rfl) ?_ ?_
      · apply List.filter_congr
        intro role member
        have : role.heldFrom < today → role.heldUntil ≤ today := by
          intro begun
          by_contra running
          exact uncovered ⟨role, member, begun.le, not_le.mp running⟩
        exact decide_eq_decide.mpr ⟨(nonEmpty role member).trans_le, this⟩
      · intro role member
        exact of_decide_eq_true (List.mem_filter.mp member).2

/-- A chair's year that runs on into a deputy's, and a year of its own before a gap. -/
def rolesInTwoPeriods : List HeldRole :=
  [⟨"Leder", .admin, .ofParts 2024 9 1 rfl, .ofParts 2025 9 1 rfl⟩,
    ⟨"Klassekontakt", .member, .ofParts 2021 9 1 rfl, .ofParts 2022 9 1 rfl⟩,
    ⟨"Vara", .member, .ofParts 2025 9 1 rfl, .ofParts 2026 9 1 rfl⟩]

example : activePeriod rolesInTwoPeriods ⟨2026, 3, 1, by decide, by decide, by decide⟩
    = ⟨⟨2024, 9, 1, by decide, by decide, by decide⟩, (rolesInTwoPeriods.drop 1).take 1⟩ := by
  decide +kernel

theorem activePeriod_rolesInTwoPeriods
    : (activePeriod rolesInTwoPeriods ⟨2026, 3, 1, by decide, by decide, by decide⟩).Splits
        rolesInTwoPeriods ⟨2026, 3, 1, by decide, by decide, by decide⟩ :=
  activePeriod_splits rolesInTwoPeriods _ (by decide +kernel)

end FauPortalen.Membership

import Mathlib.Order.Bounds.Basic
import FauPortalen.Membership.Rules

/-! The dates an administrator's role may end on: calendar months are added in order, so the
default end, the least and the latest end, and the handover window agree on every day of the
calendar.
-/

namespace FauPortalen

namespace Date

-----------------------------------------------------------------------------------------
-- Months added in order

/-- The months from January of the year 0 to the date's month. -/
def monthIndex (date : Date) : Int := date.year * 12 + (date.month - 1)

variable {date earlier later : Date} {months fewer : Nat}

theorem day_le (date : Date) : date.day ≤ 31 :=
  date.day_range.2.trans (daysInMonth_le _ _)

theorem monthIndex_le (date : Date) : date.monthIndex ≤ 9999 * 12 + 11 := by
  have year := date.year_range
  have month := date.month_range
  unfold monthIndex
  omega

/-- The month index settles the year and the month. -/
theorem month_eq_of_monthIndex_eq (same : earlier.monthIndex = later.monthIndex)
    : earlier.year = later.year ∧ earlier.month = later.month := by
  have month := earlier.month_range
  have month' := later.month_range
  unfold monthIndex at same
  omega

/-- Dates are ordered by their months, and within a month by their days. -/
theorem le_iff_monthIndex
    : earlier ≤ later
      ↔ earlier.monthIndex < later.monthIndex
        ∨ earlier.monthIndex = later.monthIndex ∧ earlier.day ≤ later.day := by
  have days := earlier.day_le
  have days' := later.day_le
  have first := earlier.day_range.1
  have first' := later.day_range.1
  rw [rank_le]
  unfold rank monthIndex
  omega

theorem monthIndex_mono (ordered : earlier ≤ later)
    : earlier.monthIndex ≤ later.monthIndex := by
  rcases le_iff_monthIndex.mp ordered with month | ⟨month, _⟩ <;> omega

/-- The sum is in the month that many months on, on the same day or the month's last. -/
theorem checkedAddMonths_spec (added : date.checkedAddMonths months = some later)
    : later.monthIndex = date.monthIndex + months
      ∧ later.day = Nat.min date.day (daysInMonth later.year later.month) := by
  unfold checkedAddMonths date? at added
  simp only at added
  split at added
  case isFalse => cases added
  case isTrue fits =>
    cases added
    refine ⟨?_, rfl⟩
    unfold monthIndex
    simp only
    omega

theorem within_of_checkedAddMonths (added : date.checkedAddMonths months = some later)
    : date.monthIndex + months ≤ 9999 * 12 + 11 := by
  have index := (checkedAddMonths_spec added).1
  have limit := later.monthIndex_le
  omega

/-- There is no sum exactly when the month that many months on is past the calendar. -/
theorem checkedAddMonths_eq_none
    : date.checkedAddMonths months = none ↔ 9999 * 12 + 11 < date.monthIndex + months := by
  have year := date.year_range
  have month := date.month_range
  have day := date.day_range
  constructor
  · intro failed
    by_contra within
    unfold checkedAddMonths date? at failed
    unfold monthIndex at within
    simp only at failed
    split at failed
    case isTrue => cases failed
    case isFalse outside =>
      apply outside
      have positive : 1 ≤ daysInMonth
          ((date.year * 12 + ((date.month : Int) - 1) + (months : Int)) / 12)
          (((date.year * 12 + ((date.month : Int) - 1) + (months : Int)) % 12).toNat + 1) := by
        unfold daysInMonth
        split <;> (try split) <;> omega
      refine ⟨?_, ?_, Nat.le_min.mpr ⟨day.1, positive⟩, Nat.min_le_right _ _⟩
      all_goals omega
  · intro beyond
    cases added : date.checkedAddMonths months with
    | none => rfl
    | some later =>
        have within := within_of_checkedAddMonths added
        omega

end Date

namespace Membership

variable {today day earlier later : Date} {fewer months : Nat}

theorem addMonths_eq (added : today.checkedAddMonths months = some later)
    : addMonths today months = later := by
  simp [addMonths, added]

theorem addMonths_eq_max (beyond : today.checkedAddMonths months = none)
    : addMonths today months = Date.max := by
  simp [addMonths, beyond]

/-- A later date gives a later sum: the sums' months are as far apart as the dates', and within
one month the days are clamped alike.
-/
theorem addMonths_mono (months : Nat) : Monotone (addMonths · months) := by
  intro earlier later ordered
  change addMonths earlier months ≤ addMonths later months
  cases added : later.checkedAddMonths months with
  | none =>
      rw [addMonths_eq_max added]
      exact Date.le_max _
  | some sum =>
      have month := Date.monthIndex_mono ordered
      cases added' : earlier.checkedAddMonths months with
      | none =>
          have beyond := Date.checkedAddMonths_eq_none.mp added'
          have within := Date.within_of_checkedAddMonths added
          omega
      | some sum' =>
          rw [addMonths_eq added, addMonths_eq added']
          obtain ⟨index, days⟩ := Date.checkedAddMonths_spec added
          obtain ⟨index', days'⟩ := Date.checkedAddMonths_spec added'
          apply Date.le_iff_monthIndex.mpr
          rcases Date.le_iff_monthIndex.mp ordered with before | ⟨same, day⟩
          · left
            omega
          · right
            have months : sum'.monthIndex = sum.monthIndex := by omega
            refine ⟨months, ?_⟩
            obtain ⟨sameYear, sameMonth⟩ := Date.month_eq_of_monthIndex_eq months
            rw [days, days', sameYear, sameMonth]
            exact Nat.le_min.mpr ⟨(Nat.min_le_left _ _).trans day, Nat.min_le_right _ _⟩

/-- More months give a later sum. -/
theorem addMonths_mono_months (ordered : fewer ≤ months)
    : addMonths today fewer ≤ addMonths today months := by
  cases added : today.checkedAddMonths months with
  | none =>
      rw [addMonths_eq_max added]
      exact Date.le_max _
  | some sum =>
      cases added' : today.checkedAddMonths fewer with
      | none =>
          have beyond := Date.checkedAddMonths_eq_none.mp added'
          have within := Date.within_of_checkedAddMonths added
          omega
      | some sum' =>
          rcases ordered.lt_or_eq with less | same
          · rw [addMonths_eq added, addMonths_eq added']
            have index := (Date.checkedAddMonths_spec added).1
            have index' := (Date.checkedAddMonths_spec added').1
            apply Date.le_iff_monthIndex.mpr
            omega
          · rw [same]

/-- Before the calendar's last day there is a later day to add months to. -/
theorem lt_addMonths (some_ : 0 < months) (before : today < Date.max)
    : today < addMonths today months := by
  cases added : today.checkedAddMonths months with
  | none => rwa [addMonths_eq_max added]
  | some sum =>
      rw [addMonths_eq added]
      exact Date.lt_of_checkedAddMonths some_ added

-----------------------------------------------------------------------------------------
-- The first of October

/-- The firsts of October on or after a date. -/
def octobersFrom (earliest : Date) : Set Date :=
  {day | day.month = 10 ∧ day.day = 1 ∧ earliest ≤ day}

theorem monthIndex_october (october : day.month = 10)
    : day.monthIndex = day.year * 12 + 9 := by
  simp [Date.monthIndex, october]

theorem date?_october {year : Int} (within : -9999 ≤ year ∧ year ≤ 9999)
    : ∃ day, date? year 10 1 = some day ∧ day.year = year ∧ day.month = 10 ∧ day.day = 1 := by
  have fits : (-9999 ≤ year ∧ year ≤ 9999) ∧ (1 ≤ 10 ∧ 10 ≤ 12)
      ∧ (1 ≤ 1 ∧ 1 ≤ daysInMonth year 10) := ⟨within, by decide, by simp [daysInMonth]⟩
  exact ⟨⟨year, 10, 1, fits.1, fits.2.1, fits.2.2⟩, dif_pos fits, rfl, rfl, rfl⟩

theorem date?_eq_none_of_year {year : Int} {month day : Nat} (beyond : 9999 < year)
    : date? year month day = none :=
  dif_neg fun fits => absurd fits.1.2 (not_le.mpr beyond)

/-- Among firsts of October the year decides. -/
theorem october_le (october : earlier.month = 10 ∧ earlier.day = 1)
    (october' : later.month = 10 ∧ later.day = 1)
    : earlier ≤ later ↔ earlier.year ≤ later.year := by
  rw [Date.le_iff_monthIndex, monthIndex_october october.1, monthIndex_october october'.1]
  omega

/-- The first of October of the date's own year is the one wanted, or the next year's is, or the
calendar ends before there is one.
-/
theorem defaultAdminEnd_cases (today : Date)
    : (IsLeast (octobersFrom (addMonths today adminEndDefaultLeadMonths)) (defaultAdminEnd today)
        ∧ (defaultAdminEnd today).monthIndex
          ≤ (addMonths today adminEndDefaultLeadMonths).monthIndex + 12)
      ∨ octobersFrom (addMonths today adminEndDefaultLeadMonths) = ∅
        ∧ defaultAdminEnd today = Date.max
        ∧ 9999 * 12 + 9 ≤ (addMonths today adminEndDefaultLeadMonths).monthIndex := by
  unfold defaultAdminEnd
  generalize addMonths today adminEndDefaultLeadMonths = earliest
  obtain ⟨thisYear, found, year, october⟩ := date?_october earliest.year_range
  have month := earliest.month_range
  have index : earliest.monthIndex = earliest.year * 12 + (earliest.month - 1) := rfl
  have index' := monthIndex_october october.1
  simp only [found, Option.getD_some]
  split
  case isTrue reached =>
    left
    refine ⟨⟨⟨october.1, october.2, reached⟩, ?_⟩, by omega⟩
    intro other wanted
    apply (october_le october ⟨wanted.1, wanted.2.1⟩).mpr
    have notBefore := Date.monthIndex_mono wanted.2.2
    have otherIndex := monthIndex_october wanted.1
    omega
  case isFalse passed =>
    -- this year's first of October has passed, so the wanted one is in a later year
    have later : 9 ≤ (earliest.month : Int) - 1 := by
      by_contra before
      apply passed
      apply Date.le_iff_monthIndex.mpr
      left
      omega
    have nextYear : ∀ other ∈ octobersFrom earliest, earliest.year + 1 ≤ other.year := by
      intro other wanted
      by_contra sameYear
      have notBefore := Date.monthIndex_mono wanted.2.2
      have otherIndex := monthIndex_october wanted.1
      apply passed
      apply wanted.2.2.trans
      apply (october_le ⟨wanted.1, wanted.2.1⟩ october).mpr
      omega
    rcases lt_or_ge 9999 (earliest.year + 1) with beyond | within
    · right
      refine ⟨?_, ?_, ?_⟩
      · apply Set.eq_empty_of_forall_notMem
        intro other wanted
        have limit := other.year_range
        have after := nextYear other wanted
        omega
      · rw [date?_eq_none_of_year beyond]
        rfl
      · omega
    · left
      have positive := earliest.year_range
      have inside : -9999 ≤ earliest.year + 1 ∧ earliest.year + 1 ≤ 9999 := ⟨by omega, within⟩
      obtain ⟨next, found, year, october⟩ := date?_october inside
      have index' := monthIndex_october october.1
      simp only [found, Option.getD_some]
      refine ⟨⟨⟨october.1, october.2, ?_⟩, ?_⟩, by omega⟩
      · apply Date.le_iff_monthIndex.mpr
        left
        omega
      · intro other wanted
        apply (october_le october ⟨wanted.1, wanted.2.1⟩).mpr
        rw [year]
        exact nextYear other wanted

example : (date? 2026 7 2).map (fun today => (defaultAdminEnd today).toString)
    = some "2027-10-01" := by decide +kernel

-----------------------------------------------------------------------------------------
-- The rules agree

/-- The default lies between the least and the latest end a form may choose. -/
theorem validateAdminEnd_default (today : Date)
    : validateAdminEnd today (defaultAdminEnd today) = .ok () := by
  have soonEnough : addMonths today adminEndMinMonths
      ≤ addMonths today adminEndDefaultLeadMonths := addMonths_mono_months (by decide)
  have notTooSoon : ¬ defaultAdminEnd today < addMonths today adminEndMinMonths := by
    apply not_lt.mpr
    rcases defaultAdminEnd_cases today with ⟨⟨wanted, _⟩, _⟩ | ⟨_, last, _⟩
    · exact soonEnough.trans wanted.2.2
    · rw [last]
      exact Date.le_max _
  have notTooLate : ¬ defaultAdminEnd today > addMonths today adminEndMaxMonths := by
    apply not_lt.mpr
    cases added : today.checkedAddMonths adminEndMaxMonths with
    | none =>
        rw [addMonths_eq_max added]
        exact Date.le_max _
    | some latest =>
        have within := Date.within_of_checkedAddMonths added
        cases added' : today.checkedAddMonths adminEndDefaultLeadMonths with
        | none =>
            have beyond := Date.checkedAddMonths_eq_none.mp added'
            simp only [adminEndMaxMonths, adminEndDefaultLeadMonths] at within beyond
            omega
        | some earliest =>
            have index := (Date.checkedAddMonths_spec added).1
            have index' := (Date.checkedAddMonths_spec added').1
            have limits := defaultAdminEnd_cases today
            rw [addMonths_eq added'] at limits
            simp only [adminEndMaxMonths, adminEndDefaultLeadMonths] at index index' within
            rw [addMonths_eq added]
            apply Date.le_iff_monthIndex.mpr
            left
            rcases limits with ⟨_, soon⟩ | ⟨_, _, end_⟩ <;> omega
  rw [validateAdminEnd, if_neg notTooSoon, if_neg notTooLate]

/-- The firsts of October on or after today plus the lead, in calendar months. -/
def octobersAfterLead (today : Date) : Set Date :=
  {day | day.month = 10 ∧ day.day = 1
    ∧ ∃ earliest, today.checkedAddMonths adminEndDefaultLeadMonths = some earliest
      ∧ earliest ≤ day}

/-- Where the lead runs past the calendar, its last day stands in for the sum and no first of
October follows.
-/
theorem octobersAfterLead_eq (today : Date)
    : octobersAfterLead today
      = octobersFrom (addMonths today adminEndDefaultLeadMonths) := by
  cases added : today.checkedAddMonths adminEndDefaultLeadMonths with
  | some earliest =>
      rw [addMonths_eq added]
      simp [octobersAfterLead, octobersFrom, added]
  | none =>
      rw [addMonths_eq_max added]
      ext day
      simp only [octobersAfterLead, octobersFrom, Set.mem_ofPred_eq, added, reduceCtorEq, false_and,
        exists_false, and_false, false_iff, not_and, not_le]
      intro october first
      refine lt_of_le_of_ne (Date.le_max day) ?_
      rintro rfl
      cases october

theorem isLeast_defaultAdminEnd (representable : (octobersAfterLead today).Nonempty)
    : IsLeast (octobersAfterLead today) (defaultAdminEnd today) := by
  rw [octobersAfterLead_eq] at representable ⊢
  rcases defaultAdminEnd_cases today with ⟨least, _⟩ | ⟨empty, _⟩
  · exact least
  · cases representable.ne_empty empty

theorem defaultAdminEnd_eq_max (beyond : octobersAfterLead today = ∅)
    : defaultAdminEnd today = Date.max := by
  rw [octobersAfterLead_eq] at beyond
  rcases defaultAdminEnd_cases today with ⟨⟨wanted, _⟩, _⟩ | ⟨_, last, _⟩
  · rw [beyond] at wanted
    cases wanted
  · exact last

/-- A window opens on every end but the calendar's last day. -/
theorem handoverPeriod_of_lt {ends : Date} (before : ends < Date.max)
    : ∃ window, handoverPeriod ends = some window ∧ window.startsOn = ends
      ∧ window.endsOnExclusive = handoverBoundary ends
      ∧ window.startsOn < window.endsOnExclusive := by
  have nonempty : ends < handoverBoundary ends := lt_addMonths (by decide) before
  exact ⟨⟨ends, handoverBoundary ends, nonempty⟩, Period.new_eq_some.mpr ⟨rfl, rfl⟩, rfl, rfl,
    nonempty⟩

/-- The default, the bounds on a chosen end and the handover window agree on every day of the
calendar.
-/
theorem adminEnds_agree
    : (∀ today,
        validateAdminEnd today (defaultAdminEnd today) = .ok ()
        ∧ ((octobersAfterLead today).Nonempty
          → IsLeast (octobersAfterLead today) (defaultAdminEnd today))
        ∧ (octobersAfterLead today = ∅ → defaultAdminEnd today = Date.max))
      ∧ (∀ ends < Date.max,
        ∃ window, handoverPeriod ends = some window ∧ window.startsOn = ends
          ∧ window.startsOn < window.endsOnExclusive)
      ∧ Monotone handoverBoundary := by
  refine ⟨fun today => ⟨validateAdminEnd_default today, ?_, ?_⟩, ?_, ?_⟩
  · exact isLeast_defaultAdminEnd
  · exact defaultAdminEnd_eq_max
  · intro ends before
    obtain ⟨window, opened, starts, _, nonempty⟩ := handoverPeriod_of_lt before
    exact ⟨window, opened, starts, nonempty⟩
  · exact addMonths_mono handoverMonths

end Membership

end FauPortalen

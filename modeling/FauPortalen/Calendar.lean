import Mathlib.Order.Basic
import Mathlib.Order.Lattice
import Mathlib.Order.Defs.LinearOrder
import Mathlib.Data.Int.Order.Basic

/-! Civil dates, instants, and the instant with its Europe/Oslo date that every rule takes. -/

namespace FauPortalen

-----------------------------------------------------------------------------------------
-- Civil dates

def isLeapYear (year : Int) : Bool :=
  (year % 4 == 0 && year % 100 != 0) || year % 400 == 0

def daysInMonth (year : Int) (month : Nat) : Nat :=
  match month with
  | 2 => if isLeapYear year then 29 else 28
  | 4 | 6 | 9 | 11 => 30
  | _ => 31

/-- A date of the proleptic Gregorian calendar, from -9999-01-01 to 9999-12-31. -/
structure Date where
  year : Int
  month : Nat
  day : Nat
  year_range : -9999 ≤ year ∧ year ≤ 9999
  month_range : 1 ≤ month ∧ month ≤ 12
  day_range : 1 ≤ day ∧ day ≤ daysInMonth year month
deriving DecidableEq

namespace Date

/-- A number that orders dates as the calendar does. -/
def rank (date : Date) : Int := (date.year * 12 + date.month) * 32 + date.day

theorem daysInMonth_le (year : Int) (month : Nat) : daysInMonth year month ≤ 31 := by
  unfold daysInMonth
  split <;> (try split) <;> omega

/-- Distinct dates have distinct ranks: the month and day leave room for each other. -/
theorem rank_injective : Function.Injective rank := by
  rintro ⟨y₁, m₁, d₁, hy₁, hm₁, hd₁⟩ ⟨y₂, m₂, d₂, hy₂, hm₂, hd₂⟩ same
  have l₁ := daysInMonth_le y₁ m₁
  have l₂ := daysInMonth_le y₂ m₂
  simp only [rank] at same
  obtain rfl : d₁ = d₂ := by omega
  obtain rfl : m₁ = m₂ := by omega
  obtain rfl : y₁ = y₂ := by omega
  rfl

instance : LinearOrder Date := LinearOrder.lift' rank rank_injective

private def padLeft (width : Nat) (digits : String) : String :=
  String.ofList (List.replicate (width - digits.length) '0') ++ digits

/-- ISO 8601, a negative year with its sign and six digits. -/
def toString (date : Date) : String :=
  let year :=
    if 0 ≤ date.year then padLeft 4 (date.year.toNat.repr)
    else "-" ++ padLeft 6 ((-date.year).toNat.repr)
  year ++ "-" ++ padLeft 2 date.month.repr ++ "-" ++ padLeft 2 date.day.repr

end Date

/-- The date, when the calendar has it. -/
def date? (year : Int) (month day : Nat) : Option Date :=
  if h : (-9999 ≤ year ∧ year ≤ 9999) ∧ (1 ≤ month ∧ month ≤ 12)
      ∧ (1 ≤ day ∧ day ≤ daysInMonth year month)
    then some ⟨year, month, day, h.1, h.2.1, h.2.2⟩
    else none

example : (date? 2026 9 24).map Date.toString = some "2026-09-24" := by decide +kernel

/-- A date written out, its parts checked by evaluation. -/
def Date.ofParts (year : Int) (month day : Nat)
    (checked : true = decide ((-9999 ≤ year ∧ year ≤ 9999) ∧ (1 ≤ month ∧ month ≤ 12)
      ∧ (1 ≤ day ∧ day ≤ daysInMonth year month)))
    : Date :=
  have valid := of_decide_eq_true checked.symm
  ⟨year, month, day, valid.1, valid.2.1, valid.2.2⟩

-----------------------------------------------------------------------------------------
-- Calendar months added to a date

namespace Date

/-- The last representable date, 9999-12-31. -/
def max : Date := ⟨9999, 12, 31, by decide, by decide, by decide⟩

/-- Calendar months later, the day clamped to the last of the month; `none` past the calendar.
-/
def checkedAddMonths (date : Date) (months : Nat) : Option Date :=
  let total := date.year * 12 + (date.month - 1) + months
  let year := total / 12
  let month := (total % 12).toNat + 1
  date? year month (Nat.min date.day (daysInMonth year month))

/-- The day before; `none` at the first representable date. -/
def yesterday (date : Date) : Option Date :=
  if 1 < date.day then date? date.year date.month (date.day - 1)
  else if 1 < date.month then
    date? date.year (date.month - 1) (daysInMonth date.year (date.month - 1))
  else date? (date.year - 1) 12 31

/-- Whole days earlier; `none` before the calendar. -/
def checkedSubDays (date : Date) : Nat → Option Date
  | 0 => some date
  | days + 1 => (date.checkedSubDays days).bind yesterday

/-- The first representable date, -9999-01-01. -/
def min : Date := ⟨-9999, 1, 1, by decide, by decide, by decide⟩

theorem le_max (date : Date) : date ≤ max := by
  have days := daysInMonth_le date.year date.month
  obtain ⟨y, m, d, ⟨_, hy⟩, ⟨_, hm⟩, ⟨_, hd⟩⟩ := date
  change (y * 12 + m) * 32 + d ≤ (9999 * 12 + (12 : Nat)) * 32 + (31 : Nat)
  simp only at days
  omega

theorem rank_le {earlier later : Date} : earlier ≤ later ↔ earlier.rank ≤ later.rank := Iff.rfl

/-- Some months later is a later date: its month is later, and the months leave room for the
days.
-/
theorem lt_of_checkedAddMonths {date later : Date} {months : Nat} (some_ : 0 < months)
    (added : date.checkedAddMonths months = some later)
    : date < later := by
  have days := daysInMonth_le date.year date.month
  obtain ⟨y, m, d, hy, ⟨hm, _⟩, ⟨_, hd⟩⟩ := date
  simp only [checkedAddMonths, date?] at added
  split at added
  case isFalse => cases added
  case isTrue fits =>
    cases added
    obtain ⟨_, _, hfirst, _⟩ := fits
    refine not_le.mp fun back => ?_
    have back : _ ≤ (y * 12 + m) * 32 + d := rank_le.mp back
    simp only [rank] at back days
    omega

end Date

example : ((date? 2027 8 31).bind (·.checkedAddMonths 6)).map Date.toString
    = some "2028-02-29" := by decide +kernel

example : ((date? 2028 3 1).bind (·.checkedSubDays 30)).map Date.toString
    = some "2028-01-31" := by decide +kernel

-----------------------------------------------------------------------------------------
-- Months

/-- The days of a month, numbered from January of the year 0. -/
def monthLength (month : Nat) : Nat := daysInMonth (month / 12 : Nat) (month % 12 + 1)

/-- The month a number of days after a month's first day, with a bound on the months passed.
-/
def monthAfter : Nat → Nat → Nat → Nat
  | 0, month, _ => month
  | bound + 1, month, days =>
      if days < monthLength month then month
      else monthAfter bound (month + 1) (days - monthLength month)

/-- The UTC month of a time in seconds from the Unix epoch. -/
def utcMonth (seconds : Nat) : Nat :=
  let days := seconds / 86400
  monthAfter days (1970 * 12) days

theorem monthLength_pos (month : Nat) : 0 < monthLength month := by
  unfold monthLength daysInMonth
  split <;> (try split) <;> omega

theorem le_monthAfter (bound month days : Nat) : month ≤ monthAfter bound month days := by
  induction bound generalizing month days with
  | zero => exact Nat.le_refl _
  | succ bound ih =>
      unfold monthAfter
      split
      · exact Nat.le_refl _
      · exact Nat.le_trans (Nat.le_succ month) (ih _ _)

/-- Later days fall in later months, by induction on the earlier day's bound: the bound on
the later day is never reached.
-/
theorem monthAfter_mono {bound bound' month days days' : Nat} (later : days ≤ days')
    (enough : days' ≤ bound')
    : monthAfter bound month days ≤ monthAfter bound' month days' := by
  induction bound generalizing bound' month days days' with
  | zero => exact le_monthAfter _ _ _
  | succ bound ih =>
      have positive := monthLength_pos month
      unfold monthAfter
      split
      · cases bound' with
        | zero => exact Nat.le_refl _
        | succ bound' => exact le_monthAfter (bound' + 1) month days'
      · next beyond =>
          cases bound' with
          | zero => omega
          | succ bound' =>
              have beyond' : ¬ days' < monthLength month := by omega
              simp only [if_neg beyond']
              exact ih (by omega) (by omega)

/-- Months do not go back. -/
theorem utcMonth_mono {earlier later : Nat} (h : earlier ≤ later)
    : utcMonth earlier ≤ utcMonth later :=
  monthAfter_mono (Nat.div_le_div_right h) (Nat.le_refl _)

example : utcMonth 1790500000 = 2026 * 12 + 8 := by decide +kernel

-----------------------------------------------------------------------------------------
-- Instants

/-- An instant in microseconds from the Unix epoch, the precision the store keeps. -/
abbrev Timestamp := Int

/-- The time-zone database's answer for Europe/Oslo. -/
class OsloZone where
  osloToday : Timestamp → Date

export OsloZone (osloToday)

/-- The zone's answer at the epoch, 1970-01-01 01:00 in Oslo, for every instant. -/
@[reducible]
def OsloZone.atEpoch : OsloZone where
  osloToday _ := .ofParts 1970 1 1 rfl

/-- The zone's answers on the first day of January and of June 1970, when Oslo was an hour ahead
of UTC, told apart by the midnight in June.
-/
@[reducible]
def OsloZone.winterAndSummer : OsloZone where
  osloToday instant :=
    if instant < 13042800000000 then .ofParts 1970 1 1 rfl
    else .ofParts 1970 6 1 rfl

/-- One instant and the Europe/Oslo calendar date it falls on. -/
structure Moment [OsloZone] where
  now : Timestamp
  today : Date
  agrees : today = osloToday now

def Moment.at [OsloZone] (now : Timestamp) : Moment := ⟨now, osloToday now, rfl⟩

end FauPortalen

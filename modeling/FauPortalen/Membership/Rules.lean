import FauPortalen.Membership.Vocabulary

/-! The flow's numbers and date arithmetic: handover windows, an admin's end date, expiries, and
how long a former member is remembered.
-/

namespace FauPortalen.Membership

-----------------------------------------------------------------------------------------
-- Handover windows and an admin's end date

def handoverMonths : Nat := 6
def adminEndMinMonths : Nat := 1
def adminEndMaxMonths : Nat := 24
def adminEndDefaultLeadMonths : Nat := 3

/-- Calendar months later, at most the last representable date. -/
def addMonths (day : Date) (months : Nat) : Date :=
  (day.checkedAddMonths months).getD Date.max

/-- The exclusive end of the handover window of an admin role with this exclusive end. -/
def handoverBoundary (adminEndsOnExclusive : Date) : Date :=
  addMonths adminEndsOnExclusive handoverMonths

/-- The handover window: none at the very end of the calendar. -/
def handoverPeriod (adminEndsOnExclusive : Date) : Option Period :=
  Period.new adminEndsOnExclusive (handoverBoundary adminEndsOnExclusive)

/-- The default end of an admin role: the first 1 October at least three months after today. -/
def defaultAdminEnd (today : Date) : Date :=
  let earliest := addMonths today adminEndDefaultLeadMonths
  let thisYear := (date? earliest.year 10 1).getD Date.max
  if thisYear ≥ earliest then thisYear
  else (date? (earliest.year + 1) 10 1).getD Date.max

inductive AdminEndError
  | tooSoon
  | tooLate
deriving DecidableEq

/-- A chosen end date lies one to 24 months after today, both bounds included. -/
def validateAdminEnd (today endsOnExclusive : Date) : Except AdminEndError Unit :=
  if endsOnExclusive < addMonths today adminEndMinMonths then .error .tooSoon
  else if endsOnExclusive > addMonths today adminEndMaxMonths then .error .tooLate
  else .ok ()

-----------------------------------------------------------------------------------------
-- Expiries

/-- The last representable instant. -/
def timestampMax : Timestamp := 253402207200999999

def pendingSignupDays : Int := 7
def invitationDays : Int := 14

/-- Whole days of 24 hours later, at most the last representable instant. -/
def addDays (now : Timestamp) (days : Int) : Timestamp :=
  min (now + days * 24 * 60 * 60 * 1000000) timestampMax

/-- One address may hold at most this many pending FAUs at a time. -/
def maxPendingSignupsPerAddress : Nat := 3

def pendingSignupExpiry (now : Timestamp) : Timestamp := addDays now pendingSignupDays

def invitationExpiry (now : Timestamp) : Timestamp := addDays now invitationDays

-----------------------------------------------------------------------------------------
-- Requests

def maxOpenRequestsPerAddress : Nat := 1
def maxRequestsPerTenantPerDay : Nat := 5
def requestLapseDays : Nat := 30

inductive RequestLimit
  | openRequestExists
  | tenantDailyLimit
deriving DecidableEq

def checkRequestLimits (openByAddress createdToday : Nat) : Except RequestLimit Unit :=
  if openByAddress ≥ maxOpenRequestsPerAddress then .error .openRequestExists
  else if createdToday ≥ maxRequestsPerTenantPerDay then .error .tenantDailyLimit
  else .ok ()

/-- Requests created on or before this date have lapsed by today. -/
def lapseCutoff (today : Date) : Date := (today.checkedSubDays requestLapseDays).getD Date.min

inductive ReplacementDateError
  | startsInPast
  | empty
deriving DecidableEq

def checkReplacementDates (today startsOn endsOnExclusive : Date)
    : Except ReplacementDateError Period :=
  if startsOn < today then .error .startsInPast
  else match Period.new startsOn endsOnExclusive with
    | some period => .ok period
    | none => .error .empty

-----------------------------------------------------------------------------------------
-- Retention

/-- How long an account wants its ended memberships remembered. -/
inductive RetentionMonths
  | none
  | three
  | six
  | twelve
  | twentyFour
deriving DecidableEq

def RetentionMonths.months : RetentionMonths → Nat
  | .none => 0
  | .three => 3
  | .six => 6
  | .twelve => 12
  | .twentyFour => 24

/-- The first day the fields are no longer kept; none for a period of none. -/
def retainedUntil (endedOn : Date) (months : RetentionMonths) : Option Date :=
  if months = .none then none else endedOn.checkedAddMonths months.months

/-- The date the fields go, or none to clear them now. -/
def keepUntil (endedOn : Date) (months : RetentionMonths) (today : Date) : Option Date :=
  (retainedUntil endedOn months).filter (today < ·)

theorem keepUntil_eq_some {endedOn today until_ : Date} {months : RetentionMonths}
    : keepUntil endedOn months today = some until_
      ↔ retainedUntil endedOn months = some until_ ∧ today < until_ := by
  simp [keepUntil, Option.filter_eq_some_iff]

end FauPortalen.Membership

import Mathlib.Data.Prod.Lex
import FauPortalen.Foundations.Grouping
import FauPortalen.Membership.Vocabulary

/-! History: the role and years an event shows someone by, and how an active membership's roles
split at its current period.
-/

namespace FauPortalen.Membership

open Foundations

/-- A role over the days it was held: from the first up to, not including, the last. -/
structure HeldRole where
  name : String
  capabilityClass : CapabilityClass
  heldFrom : Date
  heldUntil : Date
deriving DecidableEq

structure RoleLabel where
  role : String
  firstYear : Int
  lastYear : Int
deriving DecidableEq

def CapabilityClass.rank : CapabilityClass → Nat
  | .admin => 0
  | .member => 1
  | .guest => 2

/-- The first element with the least key. -/
def minByKey {α κ : Type} [LinearOrder κ] (key : α → κ) (elements : List α) : Option α :=
  elements.foldl
    (fun best next => match best with
      | none => some next
      | some b => if key next < key b then some next else some b)
    none

/-- The label for an event on a day, from the roles an ended membership held: the role held
that day, else the last that had ended, else the first to begin. None when it held none.
-/
def roleLabel (held : List HeldRole) (on : Date) : Option RoleLabel :=
  let during := minByKey (fun r => toLex (r.capabilityClass.rank, r.heldFrom))
    (held.filter fun r => r.heldFrom ≤ on && on < r.heldUntil)
  let after := minByKey
    (fun r => toLex (OrderDual.toDual r.heldUntil, toLex (r.capabilityClass.rank, r.heldFrom)))
    (held.filter fun r => r.heldUntil ≤ on)
  let before := minByKey (fun r => toLex (r.heldFrom, r.capabilityClass.rank)) held
  ((during.or after).or before).map fun chosen =>
    let lastDay := chosen.heldUntil.yesterday.getD chosen.heldFrom
    ⟨chosen.name, chosen.heldFrom.year, lastDay.year⟩

/-- The latest day any of the roles stopped being held, never later than today; today when none
was held.
-/
def endedOn (held : List HeldRole) (today : Date) : Date :=
  match (held.map (·.heldUntil)).max? with
  | some last => min last today
  | none => today

/-- An active membership's history at its current period: the day it began, and the roles of
every earlier one.
-/
structure ActivePeriod where
  since : Date
  earlier : List HeldRole
deriving DecidableEq

/-- How an event on a day shows the person: none for their name, or the role and year from an
earlier period.
-/
def ActivePeriod.labelOn (period : ActivePeriod) (on : Date) : Option RoleLabel :=
  if period.since ≤ on then none else roleLabel period.earlier on

/-- A span joins the last run when it touches or overlaps it, and else begins a run. -/
def extendRuns (runs : List (Date × Date)) (span : Date × Date) : List (Date × Date) :=
  match runs with
  | (start, last) :: before =>
      if span.1 ≤ last then (start, max last span.2) :: before else span :: runs
  | [] => [span]

/-- The runs of the spans that touch or overlap, the last first. -/
def heldRuns (held : List HeldRole) : List (Date × Date) :=
  (sortOn toLex (held.map fun r => (r.heldFrom, r.heldUntil))).foldl extendRuns []

/-- Splits an active membership's roles at the run that contains today, or at today where today
falls in a gap.
-/
def activePeriod (held : List HeldRole) (today : Date) : ActivePeriod :=
  match (heldRuns held).reverse.find? fun run => run.1 ≤ today && today < run.2 with
  | some run => ⟨run.1, held.filter (·.heldUntil < run.1)⟩
  | none => ⟨today, held.filter (·.heldUntil ≤ today)⟩

end FauPortalen.Membership

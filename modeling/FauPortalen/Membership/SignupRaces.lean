import FauPortalen.Foundations.EventSystems
import FauPortalen.Foundations.KeyedRows
import FauPortalen.Foundations.Lookup
import FauPortalen.Membership.Signup

/-! Signups, activations and expiry sweeps of all FAUs, statement by statement at READ COMMITTED.
A transaction keeps what it has written to itself until it commits, and whoever needs a row it has
deleted or locked waits.
-/

namespace FauPortalen.Membership

open Foundations

-----------------------------------------------------------------------------------------
-- Tables

/-- A row of `tenants`. -/
structure FauRow extends Tenant where
  id : Nat
  name : String
  schoolId : Option Nat
deriving DecidableEq

/-- A row of `tenant_signups`. -/
structure SignupRow extends TenantSignup where
  tenantId : Nat
deriving DecidableEq

structure SignupTables where
  tenants : List FauRow
  signups : List SignupRow

/-- Which state the FAU that already holds a school is in. -/
inductive ExistingFau
  | pending
  | active
deriving DecidableEq

/-- The states in which an FAU holds its school. -/
def FauRow.existing? (row : FauRow) : Option ExistingFau :=
  match row.status with
  | .pending => some .pending
  | .active => some .active
  | .closed => none

namespace SignupTables

variable (tables : SignupTables)

/-- The tables once the tenants are deleted. Their signups go with them. -/
def without (deleted : List Nat) : SignupTables where
  tenants := tables.tenants.filter fun row => row.id ∉ deleted
  signups := tables.signups.filter fun signup => signup.tenantId ∉ deleted

def place (row : FauRow) (signup : SignupRow) : SignupTables where
  tenants := tables.tenants ++ [row]
  signups := tables.signups ++ [signup]

/-- The tables once the tenant is activated. -/
def activate (tenantId : Nat) : SignupTables where
  tenants := tables.tenants.map fun row =>
    if row.id = tenantId then { row with status := .active } else row
  signups := tables.signups.filter fun signup => signup.tenantId ≠ tenantId

def liveTenantForSchool (schoolId : Nat) : Option (Nat × ExistingFau) :=
  tables.tenants.findSome? fun row =>
    if row.schoolId = some schoolId then row.existing?.map (row.id, ·) else none

/-- The number of pending signups of an address that have not expired. -/
def pendingSignups (email : Email) (now : Timestamp) : Nat :=
  (tables.signups.filter fun signup =>
    signup.registrantEmail = email ∧ now < signup.expiresAt
      ∧ tables.tenants.any fun row => row.id = signup.tenantId ∧ row.status = .pending).length

/-- The tenant is one that the expiry deletes, of all schools or of the one. -/
def isExpired (now : Timestamp) (schoolId : Option Nat) (row : FauRow) : Bool :=
  row.status = .pending
    && tables.signups.any (fun signup => signup.tenantId = row.id && signup.expiresAt ≤ now)
    && schoolId.all (row.schoolId = some ·)

end SignupTables

-----------------------------------------------------------------------------------------
-- Calls

/-- The signup form. -/
structure PendingSignup where
  schoolId : Nat
  fauName : String
  registrantEmail : Email
  leaderEmail : Email
  adminEndsOnExclusive : Date

inductive SignupCall
  | create (signup : PendingSignup)
  | activate (tenantId : Nat) (activation : Activation)
  | expire

/-- The school whose expired tenants the call deletes; none for all schools. -/
def SignupCall.expirySchool : SignupCall → Option Nat
  | create signup => some signup.schoolId
  | activate .. | expire => none

/-- What the transaction of a call does next. -/
inductive SignupPhase
  | begins
  | findsExpired
  /-- Deletes the tenants that its snapshot had expired, one after the other. -/
  | expires (due : List Nat)
  | checks
  | counts
  | inserts (attempt : Nat)
  | rechecks (attempt : Nat)
  | records (existing : ExistingFau)
  /-- It has inserted the tenant. -/
  | fills (row : FauRow)
  /-- It has locked a pending tenant. -/
  | reads (tenantId : Nat)
  | activates (tenantId : Nat)

inductive SignupOutcome
  | created (tenantId : Nat) (expiresAt : Timestamp)
  | schoolTaken (existing : ExistingFau)
  | tooManyPendingSignups
  | signupRaceUnresolved
  | activated
  | expired (count : Nat)
  | refused (error : MembershipError)

variable [OsloZone]

/-- A call under way, with the tenants it has deleted. -/
structure SignupTx where
  call : SignupCall
  moment : Moment
  phase : SignupPhase
  deleted : List Nat

namespace SignupTx

variable (u : SignupTx)

/-- The tenants whose rows the transaction has locked. -/
def holds : List Nat :=
  match u.phase with
  | .reads tenantId | .activates tenantId => tenantId :: u.deleted
  | _ => u.deleted

/-- The advisory lock that the transaction holds. -/
def addressLock (hash : Email → Int) : Option Int :=
  match u.call, u.phase with
  | .create _, .begins => none
  | .create signup, _ => some (hash signup.registrantEmail)
  | .activate .., _ | .expire, _ => none

/-- The signup whose address has been found below its limit. -/
def counted : Option PendingSignup :=
  match u.call, u.phase with
  | .create signup, .inserts _ | .create signup, .rechecks _ | .create signup, .fills _ =>
      some signup
  | _, _ => none

/-- The tenant that the transaction has inserted. -/
def inserted : Option FauRow :=
  match u.phase with
  | .fills row => some row
  | _ => none

end SignupTx

structure SignupState where
  clock : Timestamp
  tables : SignupTables
  calls : Lookup Nat SignupTx
  nextCall : Nat
  nextTenant : Nat

/-- No other transaction has locked the tenant's row. -/
def SignupState.Free (s : SignupState) (id tenantId : Nat) : Prop :=
  ∀ other v, other ≠ id → s.calls other = some v → tenantId ∉ v.holds

/-- What activation requires of the tenant's row. -/
def admitTenant (tenant? : Option Tenant) : Except MembershipError Tenant :=
  match tenant? with
  | none => .error .unknownTenant
  | some tenant =>
      if tenant.status ≠ .pending then .error .tenantNotPending
      else if tenant.frozen then .error .tenantFrozen
      else .ok tenant

/-- What activation requires of the tenant's signup. -/
def admitSignup (signup? : Option TenantSignup) (registrant : Email) (moment : Moment)
    : Except MembershipError TenantSignup :=
  match signup? with
  | none => .error .tenantNotPending
  | some signup =>
      if signup.expiresAt ≤ moment.now then .error .signupExpired
      else if signup.registrantEmail ≠ registrant then .error .registrantMismatch
      else match Period.new moment.today signup.adminEndsOnExclusive with
        | none => .error .emptyPeriod
        | some _ => .ok signup

-----------------------------------------------------------------------------------------
-- Statements

namespace SignupState

variable (s : SignupState)

def tenant? (tenantId : Nat) : Option Tenant :=
  (findRow (·.id) tenantId s.tables.tenants).map (·.toTenant)

def signup? (tenantId : Nat) : Option TenantSignup :=
  (findRow (·.tenantId) tenantId s.tables.signups).map (·.toTenantSignup)

end SignupState

/-- The statements that leave the transaction open. Each sees the rows committed when it begins
and the transaction's own; a delete then takes its rows one by one as they are free, and looks
again at the row as it is by then. The insert waits for another one for the same school, and for
the deletion of the tenant that holds it.
-/
inductive SignupStatement (hash : Email → Int) (s : SignupState) (id : Nat)
    : SignupTx → SignupTx → Prop
  | locksAddress {signup : PendingSignup} {moment : Moment} {deleted : List Nat}
      (valid : validateAdminEnd moment.today signup.adminEndsOnExclusive = .ok ())
      (free : ∀ other v, other ≠ id → s.calls other = some v →
        v.addressLock hash ≠ some (hash signup.registrantEmail))
    : SignupStatement hash s id ⟨.create signup, moment, .begins, deleted⟩
        ⟨.create signup, moment, .findsExpired, deleted⟩
  | findsExpired {call : SignupCall} {moment : Moment} {phase : SignupPhase} {deleted : List Nat}
      (first : call = .expire ∧ phase = .begins
        ∨ (∃ signup, call = .create signup) ∧ phase = .findsExpired)
    : SignupStatement hash s id ⟨call, moment, phase, deleted⟩
        ⟨call, moment,
          .expires ((s.tables.tenants.filter
            (s.tables.isExpired moment.now call.expirySchool)).map (·.id)),
          deleted⟩
  | deletes {call : SignupCall} {moment : Moment} {due deleted : List Nat} {row : FauRow}
      (wanted : row.id ∈ due) (free : s.Free id row.id) (there : row ∈ s.tables.tenants)
      (pending : row.status = .pending)
      (school : ∀ schoolId, call.expirySchool = some schoolId → row.schoolId = some schoolId)
    : SignupStatement hash s id ⟨call, moment, .expires due, deleted⟩
        ⟨call, moment, .expires (due.filter (· ≠ row.id)), row.id :: deleted⟩
  | skips {call : SignupCall} {moment : Moment} {due deleted : List Nat} {tenantId : Nat}
      (wanted : tenantId ∈ due) (free : s.Free id tenantId)
      (gone : ∀ row ∈ s.tables.tenants, row.id = tenantId → row.status ≠ .pending)
    : SignupStatement hash s id ⟨call, moment, .expires due, deleted⟩
        ⟨call, moment, .expires (due.filter (· ≠ tenantId)), deleted⟩
  | expired {signup : PendingSignup} {moment : Moment} {deleted : List Nat}
    : SignupStatement hash s id ⟨.create signup, moment, .expires [], deleted⟩
        ⟨.create signup, moment, .checks, deleted⟩
  | finds {signup : PendingSignup} {moment : Moment} {phase : SignupPhase} {deleted : List Nat}
      {tenantId : Nat} {existing : ExistingFau}
      (reads : phase = .checks ∨ ∃ attempt, phase = .rechecks attempt)
      (found : (s.tables.without deleted).liveTenantForSchool signup.schoolId
        = some (tenantId, existing))
    : SignupStatement hash s id ⟨.create signup, moment, phase, deleted⟩
        ⟨.create signup, moment, .records existing, deleted⟩
  | findsNone {signup : PendingSignup} {moment : Moment} {deleted : List Nat}
      (none : (s.tables.without deleted).liveTenantForSchool signup.schoolId = none)
    : SignupStatement hash s id ⟨.create signup, moment, .checks, deleted⟩
        ⟨.create signup, moment, .counts, deleted⟩
  | counts {signup : PendingSignup} {moment : Moment} {deleted : List Nat}
      (fewer : (s.tables.without deleted).pendingSignups signup.registrantEmail moment.now
        < maxPendingSignupsPerAddress)
    : SignupStatement hash s id ⟨.create signup, moment, .counts, deleted⟩
        ⟨.create signup, moment, .inserts 1, deleted⟩
  | inserts {signup : PendingSignup} {moment : Moment} {deleted : List Nat} {attempt : Nat}
      (none : (s.tables.without deleted).liveTenantForSchool signup.schoolId = none)
      (alone : ∀ other v, other ≠ id → s.calls other = some v →
        ∀ row, v.inserted = some row → row.schoolId ≠ some signup.schoolId)
    : SignupStatement hash s id ⟨.create signup, moment, .inserts attempt, deleted⟩
        ⟨.create signup, moment,
          .fills ⟨⟨.pending, false⟩, s.nextTenant, signup.fauName, some signup.schoolId⟩,
          deleted⟩
  | conflicts {signup : PendingSignup} {moment : Moment} {deleted : List Nat} {attempt : Nat}
      {tenantId : Nat} {existing : ExistingFau}
      (found : (s.tables.without deleted).liveTenantForSchool signup.schoolId
        = some (tenantId, existing))
      (settled : ∀ other v, other ≠ id → s.calls other = some v → tenantId ∉ v.deleted)
    : SignupStatement hash s id ⟨.create signup, moment, .inserts attempt, deleted⟩
        ⟨.create signup, moment, .rechecks attempt, deleted⟩
  | retries {signup : PendingSignup} {moment : Moment} {deleted : List Nat}
      (none : (s.tables.without deleted).liveTenantForSchool signup.schoolId = none)
    : SignupStatement hash s id ⟨.create signup, moment, .rechecks 1, deleted⟩
        ⟨.create signup, moment, .inserts 2, deleted⟩
  | locksTenant {tenantId : Nat} {activation : Activation} {moment : Moment} {tenant : Tenant}
      (free : s.Free id tenantId) (admits : admitTenant (s.tenant? tenantId) = .ok tenant)
    : SignupStatement hash s id ⟨.activate tenantId activation, moment, .begins, []⟩
        ⟨.activate tenantId activation, moment, .reads tenantId, []⟩
  | readsSignup {tenantId : Nat} {activation : Activation} {moment : Moment}
      {signup : TenantSignup}
      (admits : admitSignup (s.signup? tenantId) activation.registrant moment = .ok signup)
    : SignupStatement hash s id ⟨.activate tenantId activation, moment, .reads tenantId, []⟩
        ⟨.activate tenantId activation, moment, .activates tenantId, []⟩

/-- How a call ends: what it returns, and the tables it leaves. Whatever else fails rolls the
transaction back.
-/
inductive SignupEnds (s : SignupState) (id : Nat)
    : SignupTx → SignupOutcome → SignupTables → Prop
  | adminEnd {signup : PendingSignup} {moment : Moment} {deleted : List Nat}
      {error : AdminEndError}
      (invalid : validateAdminEnd moment.today signup.adminEndsOnExclusive = .error error)
    : SignupEnds s id ⟨.create signup, moment, .begins, deleted⟩ (.refused (.adminEnd error))
        s.tables
  | tooMany {signup : PendingSignup} {moment : Moment} {deleted : List Nat}
      (many : maxPendingSignupsPerAddress
        ≤ (s.tables.without deleted).pendingSignups signup.registrantEmail moment.now)
    : SignupEnds s id ⟨.create signup, moment, .counts, deleted⟩ .tooManyPendingSignups s.tables
  | unresolved {signup : PendingSignup} {moment : Moment} {deleted : List Nat}
      (none : (s.tables.without deleted).liveTenantForSchool signup.schoolId = none)
    : SignupEnds s id ⟨.create signup, moment, .rechecks 2, deleted⟩ .signupRaceUnresolved s.tables
  | records {signup : PendingSignup} {moment : Moment} {deleted : List Nat}
      {existing : ExistingFau}
    : SignupEnds s id ⟨.create signup, moment, .records existing, deleted⟩ (.schoolTaken existing)
        (s.tables.without deleted)
  | fills {signup : PendingSignup} {moment : Moment} {deleted : List Nat} {row : FauRow}
    : SignupEnds s id ⟨.create signup, moment, .fills row, deleted⟩
        (.created row.id (pendingSignupExpiry moment.now))
        ((s.tables.without deleted).place row
          ⟨⟨signup.registrantEmail, signup.leaderEmail, signup.adminEndsOnExclusive,
            pendingSignupExpiry moment.now⟩, row.id⟩)
  | expires {moment : Moment} {deleted : List Nat}
    : SignupEnds s id ⟨.expire, moment, .expires [], deleted⟩ (.expired deleted.length)
        (s.tables.without deleted)
  | refusedTenant {tenantId : Nat} {activation : Activation} {moment : Moment}
      {error : MembershipError} (free : s.Free id tenantId)
      (refuses : admitTenant (s.tenant? tenantId) = .error error)
    : SignupEnds s id ⟨.activate tenantId activation, moment, .begins, []⟩ (.refused error)
        s.tables
  | refusedSignup {tenantId : Nat} {activation : Activation} {moment : Moment}
      {error : MembershipError}
      (refuses : admitSignup (s.signup? tenantId) activation.registrant moment = .error error)
    : SignupEnds s id ⟨.activate tenantId activation, moment, .reads tenantId, []⟩
        (.refused error) s.tables
  | activates {tenantId : Nat} {activation : Activation} {moment : Moment}
    : SignupEnds s id ⟨.activate tenantId activation, moment, .activates tenantId, []⟩ .activated
        (s.tables.activate tenantId)

-----------------------------------------------------------------------------------------
-- Interleavings

inductive SignupEvent
  | passes (now : Timestamp)
  | begins (call : SignupCall) (moment : Moment)
  | proceeds (id : Nat)
  | returns (id : Nat) (outcome : SignupOutcome)
  | aborts (id : Nat)

/-- One statement of any transaction. A call has read the clock before it begins, and an id for a
tenant is drawn with every statement, whether it is used or not. Any transaction may fail for
another reason, or be dropped, at any time.
-/
inductive SignupStep (hash : Email → Int) : SignupState → SignupEvent → SignupState → Prop
  | passes {s : SignupState} {now : Timestamp} (later : s.clock ≤ now)
    : SignupStep hash s (.passes now) { s with clock := now }
  | begins {s : SignupState} {call : SignupCall} {moment : Moment}
      (read : moment.now ≤ s.clock)
    : SignupStep hash s (.begins call moment)
        { s with
          calls := s.calls.insert s.nextCall ⟨call, moment, .begins, []⟩
          nextCall := s.nextCall + 1 }
  | proceeds {s : SignupState} {id : Nat} {u next : SignupTx} (under : s.calls id = some u)
      (statement : SignupStatement hash s id u next)
    : SignupStep hash s (.proceeds id)
        { s with calls := s.calls.insert id next, nextTenant := s.nextTenant + 1 }
  | returns {s : SignupState} {id : Nat} {u : SignupTx} {outcome : SignupOutcome}
      {tables : SignupTables} (under : s.calls id = some u)
      (ends : SignupEnds s id u outcome tables)
    : SignupStep hash s (.returns id outcome)
        { s with tables := tables, calls := s.calls.erase id }
  | aborts {s : SignupState} {id : Nat} {u : SignupTx} (under : s.calls id = some u)
    : SignupStep hash s (.aborts id) { s with calls := s.calls.erase id }

end FauPortalen.Membership

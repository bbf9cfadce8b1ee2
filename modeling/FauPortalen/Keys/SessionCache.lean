import FauPortalen.Foundations.AssocMaps
import FauPortalen.Foundations.EventSystems
import FauPortalen.Keys.Envelope

/-! The cache of data keys held for sessions, and every interleaving of the calls on it.
-/

namespace FauPortalen.Keys

open Foundations

-----------------------------------------------------------------------------------------
-- What each call does while it holds the lock

/-- A key in memory, and when a user request last needed it, in nanoseconds. -/
structure Entry where
  key : DataKey
  lastActivity : Int

/-- The keys held, by session and unit. -/
abbrev Entries := AssocMap (Uuid × KeyUnit) Entry

namespace Entries

/-- The first part of `get`: a key in memory is returned, and has been active now. -/
def lookUp (entries : Entries) (session : Uuid) (unit : KeyUnit) (now : Int)
    : Option (DataKey × Entries) :=
  (entries.lookup (session, unit)).map fun e =>
    (e.key, AssocMap.adjust
      (fun key e => if key = (session, unit) then { e with lastActivity := now } else e) entries)

def put (entries : Entries) (session : Uuid) (unit : KeyUnit) (key : DataKey) (now : Int)
    : Entries :=
  entries.insert (session, unit) ⟨key, now⟩

def touchSession (entries : Entries) (session : Uuid) (now : Int) : Entries :=
  AssocMap.adjust
    (fun key e => if key.1 = session then { e with lastActivity := now } else e) entries

def releaseSession (entries : Entries) (session : Uuid) : Entries :=
  AssocMap.retain (fun key _ => key.1 ≠ session) entries

def releaseDocument (entries : Entries) (session tenant document : Uuid) : Entries :=
  AssocMap.retain (fun key _ => ¬(key.1 = session ∧ key.2 = .document tenant document)) entries

/-- Also counts the entries it removes. -/
def sweep (entries : Entries) (idle now : Int) : Entries × Nat :=
  let swept := AssocMap.retain (fun _ e => now - e.lastActivity < idle) entries
  (swept, entries.size - swept.size)

variable {entries after : Entries} {session tenant document : Uuid} {unit : KeyUnit}
  {now : Int} {key : DataKey} {wanted : Uuid × KeyUnit}

theorem lookUp_eq_none : entries.lookUp session unit now = none
    ↔ entries.lookup (session, unit) = none :=
  Option.map_eq_none_iff

/-- A hit is activity of the entry it finds, and of no other. -/
theorem lookup_of_lookUp (hit : entries.lookUp session unit now = some (key, after))
    : after.lookup wanted
      = (entries.lookup wanted).map fun e =>
          if wanted = (session, unit) then { e with lastActivity := now } else e := by
  obtain ⟨e, -, same⟩ := Option.map_eq_some_iff.mp hit
  obtain ⟨-, rfl⟩ := Prod.mk.inj same
  exact AssocMap.lookup_adjust _

@[simp]
theorem lookup_touchSession
    : (entries.touchSession session now).lookup wanted
      = (entries.lookup wanted).map fun e =>
          if wanted.1 = session then { e with lastActivity := now } else e :=
  AssocMap.lookup_adjust _

theorem lookup_put_self
    : (entries.put session unit key now).lookup (session, unit) = some ⟨key, now⟩ :=
  AList.lookup_insert _

theorem lookup_put_of_ne (other : wanted ≠ (session, unit))
    : (entries.put session unit key now).lookup wanted = entries.lookup wanted :=
  AList.lookup_insert_ne other

theorem lookup_releaseSession_self (mine : wanted.1 = session)
    : (entries.releaseSession session).lookup wanted = none :=
  AssocMap.lookup_retain_eq_none fun _ => by simp [mine]

theorem lookup_releaseSession_of_ne (other : wanted.1 ≠ session)
    : (entries.releaseSession session).lookup wanted = entries.lookup wanted :=
  AssocMap.lookup_retain_of_keep fun _ => by simp [other]

theorem lookup_releaseDocument_self
    : (entries.releaseDocument session tenant document).lookup
        (session, .document tenant document) = none :=
  AssocMap.lookup_retain_eq_none fun _ => by simp

theorem lookup_releaseDocument_of_ne (other : wanted ≠ (session, .document tenant document))
    : (entries.releaseDocument session tenant document).lookup wanted
      = entries.lookup wanted := by
  refine AssocMap.lookup_retain_of_keep fun _ => decide_eq_true fun named => other ?_
  exact Prod.ext named.1 named.2

theorem lookup_sweep_eq_some {idle : Int} {e : Entry}
    : (entries.sweep idle now).1.lookup wanted = some e
      ↔ entries.lookup wanted = some e ∧ now - e.lastActivity < idle := by
  rw [sweep, AssocMap.lookup_retain_eq_some, decide_eq_true_eq]

end Entries

-----------------------------------------------------------------------------------------
-- Calls

/-- What a call on the cache does next. `get` and `put` read the clock before they take the
lock, and `get` holds no lock while the key service unwraps.
-/
inductive Call
  | looksUp (session : Uuid) (unit : KeyUnit) (now : Int)
  | unwraps (session : Uuid) (unit : KeyUnit)
  | inserts (session : Uuid) (unit : KeyUnit) (key : DataKey) (now : Int)
  | touches (session : Uuid) (now : Int)
  | sweeps (now : Int)

namespace Call

/-- The call begins so, with the clock at `clock`. -/
def OpensAt (clock : Int) : Call → Prop
  | looksUp _ _ now | inserts _ _ _ now | touches _ now | sweeps now => now = clock
  | unwraps .. => False

/-- The session the call is for. -/
def session? : Call → Option Uuid
  | looksUp session .. | unwraps session _ | inserts session .. | touches session _ =>
      some session
  | sweeps _ => none

/-- The entry that the call may yet insert. -/
def target? : Call → Option (Uuid × KeyUnit)
  | looksUp session unit _ | unwraps session unit | inserts session unit _ _ =>
      some (session, unit)
  | touches .. | sweeps _ => none

/-- The call is about to write its clock reading to the entry. -/
def Stamps (entry : Uuid × KeyUnit) (now : Int) : Call → Prop
  | looksUp session unit read | inserts session unit _ read =>
      entry = (session, unit) ∧ read = now
  | touches session read => entry.1 = session ∧ read = now
  | unwraps .. | sweeps _ => False

end Call

/-- The cache, the clock, and the calls under way by the number they were given. -/
structure CacheState where
  clock : Int
  entries : Entries
  calls : List (Nat × Call)
  nextCall : Nat

namespace CacheState

def opens (s : CacheState) (call : Call) : CacheState :=
  { s with calls := (s.nextCall, call) :: s.calls, nextCall := s.nextCall + 1 }

/-- The call has returned. -/
def returns (s : CacheState) (id : Nat) : CacheState :=
  { s with calls := s.calls.filter fun call => call.1 ≠ id }

def goesOn (s : CacheState) (id : Nat) (call : Call) : CacheState :=
  { s with calls := (id, call) :: s.calls.filter fun other => other.1 ≠ id }

end CacheState

inductive CacheEvent
  | passes (now : Int)
  | opens (call : Call)
  | locks (id : Nat) (call : Call)
  | unwraps (id : Nat) (session : Uuid) (unit : KeyUnit) (key : DataKey)
  | fails (id : Nat) (session : Uuid) (unit : KeyUnit)
  | releasesSession (session : Uuid)
  | releasesDocument (session tenant document : Uuid)

/-- One critical section, one reading of the clock or one answer of the key service. The clock
may be set to anything, and the key service may answer with any key, or fail. A call is dropped
at the one place where it waits, which is the failure there.
-/
inductive CacheStep (idle : Int) : CacheState → CacheEvent → CacheState → Prop
  | passes {s : CacheState} (now : Int) : CacheStep idle s (.passes now) { s with clock := now }
  | opens {s : CacheState} {call : Call} (reads : call.OpensAt s.clock)
    : CacheStep idle s (.opens call) (s.opens call)
  | hits {s : CacheState} {id : Nat} {session : Uuid} {unit : KeyUnit} {now : Int}
      {key : DataKey} {after : Entries} (called : (id, .looksUp session unit now) ∈ s.calls)
      (hit : s.entries.lookUp session unit now = some (key, after))
    : CacheStep idle s (.locks id (.looksUp session unit now))
        { s.returns id with entries := after }
  | misses {s : CacheState} {id : Nat} {session : Uuid} {unit : KeyUnit} {now : Int}
      (called : (id, .looksUp session unit now) ∈ s.calls)
      (missed : s.entries.lookUp session unit now = none)
    : CacheStep idle s (.locks id (.looksUp session unit now))
        (s.goesOn id (.unwraps session unit))
  | unwraps {s : CacheState} {id : Nat} {session : Uuid} {unit : KeyUnit} (key : DataKey)
      (called : (id, .unwraps session unit) ∈ s.calls)
    : CacheStep idle s (.unwraps id session unit key)
        (s.goesOn id (.inserts session unit key s.clock))
  | fails {s : CacheState} {id : Nat} {session : Uuid} {unit : KeyUnit}
      (called : (id, .unwraps session unit) ∈ s.calls)
    : CacheStep idle s (.fails id session unit) (s.returns id)
  | inserts {s : CacheState} {id : Nat} {session : Uuid} {unit : KeyUnit} {key : DataKey}
      {now : Int} (called : (id, .inserts session unit key now) ∈ s.calls)
    : CacheStep idle s (.locks id (.inserts session unit key now))
        { s.returns id with entries := s.entries.put session unit key now }
  | touches {s : CacheState} {id : Nat} {session : Uuid} {now : Int}
      (called : (id, .touches session now) ∈ s.calls)
    : CacheStep idle s (.locks id (.touches session now))
        { s.returns id with entries := s.entries.touchSession session now }
  | sweeps {s : CacheState} {id : Nat} {now : Int} (called : (id, .sweeps now) ∈ s.calls)
    : CacheStep idle s (.locks id (.sweeps now))
        { s.returns id with entries := (s.entries.sweep idle now).1 }
  | releasesSession {s : CacheState} (session : Uuid)
    : CacheStep idle s (.releasesSession session)
        { s with entries := s.entries.releaseSession session }
  | releasesDocument {s : CacheState} (session tenant document : Uuid)
    : CacheStep idle s (.releasesDocument session tenant document)
        { s with entries := s.entries.releaseDocument session tenant document }

/-- A new cache, at any time of the clock. -/
def CacheState.new (clock : Int) : CacheState := ⟨clock, ∅, [], 0⟩

/-- All calls of any number of sessions on one cache. -/
def cacheSystem (idle : Int) : EventSystem CacheState CacheEvent where
  start s := ∃ clock, s = .new clock
  step := CacheStep idle

namespace CacheEvent

/-- The session whose operation it is. -/
def session? : CacheEvent → Option Uuid
  | opens call | locks _ call => call.session?
  | unwraps _ session .. | fails _ session _ | releasesSession session
  | releasesDocument session .. => some session
  | passes _ => none

/-- A call numbered from `fresh` on inserts an entry of the kind. -/
def PutsFresh (fresh : Nat) (kind : Uuid × KeyUnit → Prop) : CacheEvent → Prop
  | locks id (.inserts session unit ..) => fresh ≤ id ∧ kind (session, unit)
  | _ => False

/-- The event is a release that names the entry. -/
def Releases (entry : Uuid × KeyUnit) : CacheEvent → Prop
  | releasesSession session => entry.1 = session
  | releasesDocument session tenant document => entry = (session, .document tenant document)
  | _ => False

/-- A sweep reads the clock no later than the idle limit after the activity. -/
def SweepsWithin (idle activity : Int) : CacheEvent → Prop
  | locks _ (.sweeps now) => now - activity < idle
  | _ => True

/-- No older reading of the clock is written to the entry. -/
def StampsFrom (activity : Int) (entry : Uuid × KeyUnit) : CacheEvent → Prop
  | locks _ call => ∀ now, call.Stamps entry now → activity ≤ now
  | _ => True

end CacheEvent

end FauPortalen.Keys

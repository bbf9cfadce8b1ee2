import FauPortalen.Foundations.SharedRows
import FauPortalen.Keys.SessionCache

/-! The data-key flow: a unit's wrapped key is loaded, or made and stored in the caller's
transaction, and the key itself goes through the session cache. Any number of connections and
sessions take the flow at once.
-/

namespace FauPortalen.Keys

open Foundations

-----------------------------------------------------------------------------------------
-- Wrapped keys and their rows

/-- `vault:v`, a version number and a body. -/
def hasTransitPrefix (text : String) : Bool :=
  match text.toList.dropPrefix? "vault:v".toList with
  | none => false
  | some rest =>
      let version := rest.takeWhile (· ≠ ':')
      let body := rest.dropWhile (· ≠ ':')
      !version.isEmpty && version.all Char.isDigit && 1 < body.length

/-- A data key as the key service wrapped it. -/
structure WrappedKey where
  text : String
  transit : hasTransitPrefix text = true
deriving DecidableEq

namespace WrappedKey

def new? (text : String) : Option WrappedKey :=
  if transit : hasTransitPrefix text = true then some ⟨text, transit⟩ else none

/-- The bytes that are stored. -/
def asBytes (wrapped : WrappedKey) : List UInt8 := utf8 wrapped.text

/-- A stored value is the text of a wrapped key, or it is corrupt. -/
def decode (bytes : List UInt8) : Option WrappedKey :=
  (String.fromUTF8? bytes.toByteArray).bind new?

theorem new?_eq_some {text : String} {wrapped : WrappedKey} (made : new? text = some wrapped)
    : wrapped.text = text := by
  unfold new? at made
  split at made
  · cases made
    rfl
  · cases made

/-- What decodes is what was stored. -/
theorem asBytes_of_decode {bytes : List UInt8} {wrapped : WrappedKey}
    (decoded : decode bytes = some wrapped)
    : wrapped.asBytes = bytes := by
  obtain ⟨text, read, made⟩ := Option.bind_eq_some_iff.mp decoded
  unfold String.fromUTF8? at read
  split at read
  · cases read
    rw [asBytes, new?_eq_some made]
    exact List.toList_data_toByteArray
  · cases read

theorem decode_asBytes (wrapped : WrappedKey) : decode wrapped.asBytes = some wrapped := by
  unfold decode asBytes
  rw [fromUTF8?_utf8, Option.bind_some, new?, dif_pos wrapped.transit]

theorem asBytes_injective : Function.Injective asBytes := by
  intro wrapped wrapped' same
  exact Option.some.inj ((decode_asBytes wrapped).symm.trans (same ▸ decode_asBytes wrapped'))

end WrappedKey

/-- What `wrapped_keys` is keyed on. -/
abbrev RowKey : Type := Uuid × String × Option String

/-- The row of a unit that has a data key. -/
def KeyUnit.rowKey (unit : KeyUnit) : Option RowKey :=
  unit.storage.map fun stored => (unit.tenant, stored)

/-- The longest value the table accepts. -/
def wrappedKeyMaxBytes : Nat := 512

-----------------------------------------------------------------------------------------
-- The flow

/-- The key service as far as it answers: the key that a wrapped key of a transit key holds. -/
abbrev Transit : Type := String → WrappedKey → Option DataKey

/-- What a call does next. The fresh key is the one this call had made. -/
inductive DataKeyPhase
  | loads
  | generates
  | stores (fresh : DataKey) (wrapped : WrappedKey)
  | reloads (fresh : DataKey) (wrapped : WrappedKey)
  | looksUp (wrapped : WrappedKey) (now : Int)
  | unwraps (wrapped : WrappedKey)
  | inserts (key : DataKey) (now : Int)

structure DataKeyCall where
  session : Uuid
  unit : KeyUnit
  phase : DataKeyPhase

/-- The calls under way are told apart by their connections, which they hold exclusively. -/
structure DataKeyState where
  clock : Int
  rows : SharedRows RowKey (List UInt8)
  entries : Entries
  calls : Lookup Nat DataKeyCall

namespace DataKeyState

def goesOn (s : DataKeyState) (connection : Nat) (session : Uuid) (unit : KeyUnit)
    (phase : DataKeyPhase) : DataKeyState :=
  { s with calls := s.calls.insert connection ⟨session, unit, phase⟩ }

/-- The call has returned, or was dropped. -/
def ends (s : DataKeyState) (connection : Nat) : DataKeyState :=
  { s with calls := s.calls.erase connection }

end DataKeyState

inductive DataKeyEvent
  | passes (now : Int)
  | begins (connection : Nat)
  | commits (connection : Nat)
  | rollsBack (connection : Nat)
  | calls (connection : Nat) (session : Uuid) (unit : KeyUnit)
  | goesOn (connection : Nat)
  | returns (connection : Nat) (session : Uuid) (unit : KeyUnit) (key : DataKey)
  | fails (connection : Nat)
  | touchesSession (session : Uuid) (now : Int)
  | releasesSession (session : Uuid)
  | releasesDocument (session tenant document : Uuid)
  | sweeps (now : Int)

/-- One statement, one critical section of the cache or one answer of the key service. A call
may fail at any time, and its caller may then still commit or roll back.
-/
inductive DataKeyStep (transit : Transit) (idle : Int)
    : DataKeyState → DataKeyEvent → DataKeyState → Prop
  | passes {s : DataKeyState} (now : Int)
    : DataKeyStep transit idle s (.passes now) { s with clock := now }
  | begins {s : DataKeyState} {c : Nat} (free : s.calls c = none)
      (closed : s.rows.transactions c = none)
    : DataKeyStep transit idle s (.begins c) { s with rows := s.rows.begin c }
  | commits {s : DataKeyState} {c : Nat} (free : s.calls c = none)
      (opened : (s.rows.transactions c).isSome)
    : DataKeyStep transit idle s (.commits c) { s with rows := s.rows.commit c }
  | rollsBack {s : DataKeyState} {c : Nat} (free : s.calls c = none)
      (opened : (s.rows.transactions c).isSome)
    : DataKeyStep transit idle s (.rollsBack c) { s with rows := s.rows.rollBack c }
  | calls {s : DataKeyState} {c : Nat} {session : Uuid} {unit : KeyUnit} (free : s.calls c = none)
    : DataKeyStep transit idle s (.calls c session unit) (s.goesOn c session unit .loads)
  | finds {s : DataKeyState} {c : Nat} {session : Uuid} {unit : KeyUnit} {key : RowKey}
      {bytes : List UInt8} {wrapped : WrappedKey}
      (called : s.calls c = some ⟨session, unit, .loads⟩) (keyed : unit.rowKey = some key)
      (read : s.rows.visible c key = some bytes) (decoded : WrappedKey.decode bytes = some wrapped)
    : DataKeyStep transit idle s (.goesOn c) (s.goesOn c session unit (.looksUp wrapped s.clock))
  | misses {s : DataKeyState} {c : Nat} {session : Uuid} {unit : KeyUnit} {key : RowKey}
      (called : s.calls c = some ⟨session, unit, .loads⟩) (keyed : unit.rowKey = some key)
      (unread : s.rows.visible c key = none)
    : DataKeyStep transit idle s (.goesOn c) (s.goesOn c session unit .generates)
  | generates {s : DataKeyState} {c : Nat} {session : Uuid} {unit : KeyUnit} {fresh : DataKey}
      {wrapped : WrappedKey} (called : s.calls c = some ⟨session, unit, .generates⟩)
      (made : transit unit.keyName wrapped = some fresh)
    : DataKeyStep transit idle s (.goesOn c) (s.goesOn c session unit (.stores fresh wrapped))
  | stores {s : DataKeyState} {c : Nat} {session : Uuid} {unit : KeyUnit} {key : RowKey}
      {fresh : DataKey} {wrapped : WrappedKey}
      (called : s.calls c = some ⟨session, unit, .stores fresh wrapped⟩)
      (keyed : unit.rowKey = some key) (free : ¬ s.rows.Blocked c key)
      (fits : wrapped.asBytes.length ≤ wrappedKeyMaxBytes)
    : DataKeyStep transit idle s (.goesOn c)
        { s.goesOn c session unit (.reloads fresh wrapped) with
          rows := s.rows.insertOnce c key wrapped.asBytes }
  | keeps {s : DataKeyState} {c : Nat} {session : Uuid} {unit : KeyUnit} {key : RowKey}
      {fresh : DataKey} {bytes : List UInt8} {wrapped : WrappedKey}
      (called : s.calls c = some ⟨session, unit, .reloads fresh wrapped⟩)
      (keyed : unit.rowKey = some key) (read : s.rows.visible c key = some bytes)
      (decoded : WrappedKey.decode bytes = some wrapped)
    : DataKeyStep transit idle s (.goesOn c) (s.goesOn c session unit (.inserts fresh s.clock))
  | yields {s : DataKeyState} {c : Nat} {session : Uuid} {unit : KeyUnit} {key : RowKey}
      {fresh : DataKey} {bytes : List UInt8} {wrapped stored : WrappedKey}
      (called : s.calls c = some ⟨session, unit, .reloads fresh wrapped⟩)
      (keyed : unit.rowKey = some key) (read : s.rows.visible c key = some bytes)
      (decoded : WrappedKey.decode bytes = some stored) (other : stored ≠ wrapped)
    : DataKeyStep transit idle s (.goesOn c) (s.goesOn c session unit (.looksUp stored s.clock))
  | hits {s : DataKeyState} {c : Nat} {session : Uuid} {unit : KeyUnit} {wrapped : WrappedKey}
      {now : Int} {key : DataKey} {after : Entries}
      (called : s.calls c = some ⟨session, unit, .looksUp wrapped now⟩)
      (hit : s.entries.lookUp session unit now = some (key, after))
    : DataKeyStep transit idle s (.returns c session unit key) { s.ends c with entries := after }
  | asks {s : DataKeyState} {c : Nat} {session : Uuid} {unit : KeyUnit} {wrapped : WrappedKey}
      {now : Int} (called : s.calls c = some ⟨session, unit, .looksUp wrapped now⟩)
      (missed : s.entries.lookUp session unit now = none)
    : DataKeyStep transit idle s (.goesOn c) (s.goesOn c session unit (.unwraps wrapped))
  | unwraps {s : DataKeyState} {c : Nat} {session : Uuid} {unit : KeyUnit} {wrapped : WrappedKey}
      {key : DataKey} (called : s.calls c = some ⟨session, unit, .unwraps wrapped⟩)
      (opened : transit unit.keyName wrapped = some key)
    : DataKeyStep transit idle s (.goesOn c) (s.goesOn c session unit (.inserts key s.clock))
  | inserts {s : DataKeyState} {c : Nat} {session : Uuid} {unit : KeyUnit} {key : DataKey}
      {now : Int} (called : s.calls c = some ⟨session, unit, .inserts key now⟩)
    : DataKeyStep transit idle s (.returns c session unit key)
        { s.ends c with entries := s.entries.put session unit key now }
  | fails {s : DataKeyState} {c : Nat} (called : (s.calls c).isSome)
    : DataKeyStep transit idle s (.fails c) (s.ends c)
  | touchesSession {s : DataKeyState} (session : Uuid) (now : Int)
    : DataKeyStep transit idle s (.touchesSession session now)
        { s with entries := s.entries.touchSession session now }
  | releasesSession {s : DataKeyState} (session : Uuid)
    : DataKeyStep transit idle s (.releasesSession session)
        { s with entries := s.entries.releaseSession session }
  | releasesDocument {s : DataKeyState} (session tenant document : Uuid)
    : DataKeyStep transit idle s (.releasesDocument session tenant document)
        { s with entries := s.entries.releaseDocument session tenant document }
  | sweeps {s : DataKeyState} (now : Int)
    : DataKeyStep transit idle s (.sweeps now) { s with entries := (s.entries.sweep idle now).1 }

/-- An empty table and an empty cache. -/
def DataKeyState.new (clock : Int) : DataKeyState := ⟨clock, .empty, ∅, .empty⟩

/-- All connections and sessions of one backend. -/
def dataKeySystem (transit : Transit) (idle : Int) : EventSystem DataKeyState DataKeyEvent where
  start s := ∃ clock, s = .new clock
  step := DataKeyStep transit idle

end FauPortalen.Keys

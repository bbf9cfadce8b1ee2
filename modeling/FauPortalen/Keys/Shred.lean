import FauPortalen.Calendar
import FauPortalen.Foundations.Lookup
import FauPortalen.Foundations.Scripts
import Mathlib.Data.List.Basic
import Mathlib.Order.Monotone.Defs

/-! The key deletion script: soft deletes and a queue, restores, and the destruction of keys
that have been soft-deleted for seven days. OpenBao and its key-value store are two maps, and
the script may stop between any two of its writes.
-/

namespace FauPortalen.Keys

open FauPortalen.Foundations

-----------------------------------------------------------------------------------------
-- OpenBao and the queue

/-- A key's state in OpenBao; `gone` is also that of a name that never had a key. -/
inductive KeyState
  | active
  | softDeleted
  | gone
deriving DecidableEq

/-- The command a key is deleted for, as the queue records it. -/
inductive Reason
  | fau
  | document
  | chatExpire
deriving DecidableEq

structure QueueEntry where
  softDeletedAt : Nat
  reason : Reason
deriving DecidableEq

/-- One write to OpenBao or the queue. A soft delete is noted with the command it is for. -/
inductive Write
  | softDelete (key : String) (reason : Reason)
  | restore (key : String)
  | enqueue (key : String) (entry : QueueEntry)
  | dequeue (key : String)
  | allowDeletion (key : String)
  | destroy (key : String)
deriving DecidableEq

/-- A write and when it was made. -/
structure Event where
  time : Nat
  write : Write
deriving DecidableEq

/-- OpenBao accepts word characters, hyphens and full stops in a key's name. -/
def isNameChar (c : Char) : Bool := c.isAlphanum || c == '_' || c == '-' || c == '.'

/-- Where the script runs: the names that have a key at the start, in the order OpenBao lists
them, and the clock at every reading.
-/
structure Deployment where
  names : List String
  clock : Nat → Nat
  named : ∀ name ∈ names, name.toList.all isNameChar = true
  forward : Monotone clock

/-- Both stores, how often the clock has been read, how many writes the run has left, and the
writes so far, the latest first.
-/
structure World where
  keys : String → KeyState
  queue : Lookup String QueueEntry
  reads : Nat
  budget : Nat
  history : List Event

/-- Every name has an active key and nothing is queued. -/
def Deployment.start (d : Deployment) : World :=
  {
    keys := fun name => if name ∈ d.names then .active else .gone
    queue := Lookup.empty
    reads := 0
    budget := 0
    history := []
  }

/-- What a write does to the keys. -/
def Write.onKeys (keys : String → KeyState) : Write → String → KeyState
  | .softDelete key _ => fun name => if name = key then .softDeleted else keys name
  | .restore key => fun name => if name = key then .active else keys name
  | .destroy key => fun name => if name = key then .gone else keys name
  | .enqueue .. | .dequeue _ | .allowDeletion _ => keys

/-- What a write does to the queue. -/
def Write.onQueue (queue : Lookup String QueueEntry) : Write → Lookup String QueueEntry
  | .enqueue key entry => queue.insert key entry
  | .dequeue key => queue.erase key
  | .softDelete .. | .restore _ | .destroy _ | .allowDeletion _ => queue

-----------------------------------------------------------------------------------------
-- The script's own commands

/-- Why a run ended early. -/
inductive Exit
  | usage
  | fatal
  /-- The shell itself: a month that is not a number to it. -/
  | arithmetic
  | refused
  | noKeys
  | stopped
deriving DecidableEq

abbrev Shred : Type → Type := Script World Exit

/-- Destroyed no earlier than this many seconds after the soft delete. -/
def window : Nat := 7 * 24 * 3600

section

variable (d : Deployment)

/-- The clock's next reading. -/
def now : Shred Nat := fun w => (.ok (d.clock w.reads), { w with reads := w.reads + 1 })

/-- The world after a write, which takes its time from the clock as well. -/
def World.written (w : World) (write : Write) : World :=
  {
    keys := write.onKeys w.keys
    queue := write.onQueue w.queue
    reads := w.reads + 1
    budget := w.budget - 1
    history := ⟨d.clock w.reads, write⟩ :: w.history
  }

/-- A write, unless the run has stopped. -/
def mutate (write : Write) : Shred PUnit := fun w =>
  if w.budget = 0 then (.error .stopped, w) else (.ok ⟨⟩, w.written d write)

/-- The names OpenBao lists under `transit/keys`. -/
def listKeys : Shred (List String) := do
  let w ← MonadState.get
  return d.names.filter fun name => w.keys name ≠ .gone

/-- The names OpenBao lists in the queue. -/
def listQueue : Shred (List String) := do
  let w ← MonadState.get
  return d.names.filter fun name => (w.queue name).isSome

def readKey (key : String) : Shred KeyState := do
  let w ← MonadState.get
  return w.keys key

def readQueue (key : String) : Shred (Option QueueEntry) := do
  let w ← MonadState.get
  return w.queue key

-----------------------------------------------------------------------------------------
-- Texts

def isHexDigit (c : Char) : Bool := ('0' ≤ c && c ≤ '9') || ('a' ≤ c && c ≤ 'f')

def isDigit (c : Char) : Bool := '0' ≤ c && c ≤ '9'

/-- Groups of 8, 4, 4, 4 and 12 hexadecimal digits. -/
def isUuidLine (line : List Char) : Bool :=
  line.length = 36
    && line.zipIdx.all fun (c, i) => if i ∈ [8, 13, 18, 23] then c = '-' else isHexDigit c

/-- One line of the text is a UUID: `grep` reads line by line. -/
def isUuid (text : String) : Bool := (text.toList.splitOn '\n').any isUuidLine

def isMonthText : List Char → Bool
  | [a, b, c, d, '-', e, f] =>
      isDigit a && isDigit b && isDigit c && isDigit d && isDigit e && isDigit f
  | _ => false

/-- The month of a key `fau-*-chat-YYYY-MM`. -/
def chatMonth? (key : String) : Option (List Char) :=
  let text := key.toList
  let head := text.take (text.length - 7)
  let month := text.drop (text.length - 7)
  if 10 ≤ head.length ∧ head.take 4 = "fau-".toList
      ∧ head.drop (head.length - 6) = "-chat-".toList ∧ isMonthText month then some month
  else none

def digitValue (c : Char) : Nat := c.toNat - '0'.toNat

/-- A number of digits as the shell reads it: octal after a leading zero. -/
def shellNumber (digits : List Char) : Option Nat :=
  match digits with
  | '0' :: _ =>
      if digits.all (· ≤ '7') then some (digits.foldl (fun n c => n * 8 + digitValue c) 0)
      else none
  | _ => some (digits.foldl (fun n c => n * 10 + digitValue c) 0)

/-- The index of a month `YYYY-MM`, numbered from January of the year 0. -/
def monthIndex : List Char → Option Int
  | [a, b, c, d, '-', e, f] => do
      let year ← shellNumber [a, b, c, d]
      let month ← shellNumber (if e = '0' then [f] else [e, f])
      return year * 12 + month - 1
  | _ => none

/-- The month index is fewer than 13 months behind the current one: the month ended less than
12 months ago. `none` is an arithmetic error, which ends the run.
-/
def chatIsYoung (month : List Char) (current : Nat) : Option Bool := do
  let index ← monthIndex month
  return current - index < 13

-----------------------------------------------------------------------------------------
-- The commands

/-- Queues a key as soft-deleted now. -/
def enqueue (key : String) (reason : Reason) : Shred PUnit := do
  let time ← now d
  mutate d (.enqueue key ⟨time, reason⟩)

/-- Soft-deletes a key and queues it, unless both were done. -/
def soft (key : String) (reason : Reason) : Shred PUnit := do
  match ← readKey key with
  | .gone => return
  | .softDeleted =>
      -- the original time stays in the queue, so the window is not re-armed
      match ← readQueue key with
      | some _ => return
      | none => enqueue d key reason
  | .active =>
      mutate d (.softDelete key reason)
      enqueue d key reason

/-- Ends the run when something is wrong. -/
def exitIf (wrong : Bool) (e : Exit) : Shred PUnit := if wrong then throw e else return

def fau (tenant : String) : Shred PUnit := do
  exitIf (!isUuid tenant) .usage
  let names ← listKeys d
  let own := names.filter fun name => ("fau-" ++ tenant ++ "-").toList.isPrefixOf name.toList
  own.forM fun key => soft d key .fau
  exitIf own.isEmpty .noKeys

def document (tenant document : String) : Shred PUnit := do
  exitIf (!(isUuid tenant && isUuid document)) .usage
  soft d ("fau-" ++ tenant ++ "-doc-" ++ document) .document

/-- The loop body of `chat-expire`. -/
def expireChat (current : Nat) (key : String) : Shred PUnit :=
  match chatMonth? key with
  | none => return
  | some month =>
      match chatIsYoung month current with
      | none => throw .arithmetic
      | some true => return
      | some false => soft d key .chatExpire

def chatExpire : Shred PUnit := do
  let time ← now d
  let names ← listKeys d
  names.forM (expireChat d (utcMonth time))

/-- The restore comes first; the entry is removed by a second write. -/
def restore (key : String) : Shred PUnit := do
  exitIf (!"fau-".toList.isPrefixOf key.toList) .usage
  let state ← readKey key
  exitIf (state = .gone) .fatal
  mutate d (.restore key)
  mutate d (.dequeue key)

/-- Sets `deletion_allowed`, destroys the key and removes its entry. -/
def destroyKey (key : String) : Shred PUnit := do
  mutate d (.allowDeletion key)
  mutate d (.destroy key)
  mutate d (.dequeue key)

/-- A young chat month is destroyed for the FAU command alone. `none` is an arithmetic error. -/
def isRefused (current : Nat) (key : String) (reason : Reason) : Option Bool :=
  match chatMonth? key with
  | none => some false
  | some month => if reason = .fau then some false else chatIsYoung month current

/-- `finalize` on a key whose window has passed. -/
def finalizeDue (current : Nat) (refused : Bool) (key : String) (entry : QueueEntry)
    : Shred Bool := do
  match ← readKey key with
  | .softDeleted =>
      match isRefused current key entry.reason with
      | none => throw .arithmetic
      | some true => return true
      | some false =>
          destroyKey d key
          return refused
  -- restored out of band, or destroyed already
  | .active | .gone =>
      mutate d (.dequeue key)
      return refused

/-- The loop body of `finalize`: whether a key has been refused so far. -/
def finalizeKey (current : Nat) (refused : Bool) (key : String) : Shred Bool := do
  match ← readQueue key with
  | none => return refused
  | some entry =>
      let time ← now d
      if time < entry.softDeletedAt + window then return refused
      else finalizeDue d current refused key entry

def finalize : Shred PUnit := do
  let time ← now d
  let names ← listQueue d
  let refused ← names.foldlM (finalizeKey d (utcMonth time)) false
  exitIf refused .refused

/-- The script with its arguments; a missing one is empty. -/
def shred : List String → Shred PUnit
  | "fau" :: rest => fau d (rest.headD "")
  | "document" :: rest => document d (rest.headD "") (rest.getD 1 "")
  | "chat-expire" :: _ => chatExpire d
  | "restore" :: rest => restore d (rest.headD "")
  | "finalize" :: _ => finalize d
  | _ => throw .usage

-----------------------------------------------------------------------------------------
-- Runs

/-- A run: its arguments, and the number of writes after which it stops. -/
structure Run where
  args : List String
  budget : Nat

def runOnce (w : World) (run : Run) : World :=
  Script.world (shred d run.args) { w with budget := run.budget }

/-- The world after a sequence of runs that do not overlap. -/
def worldAfter (runs : List Run) : World := runs.foldl (runOnce d) d.start

end

end FauPortalen.Keys

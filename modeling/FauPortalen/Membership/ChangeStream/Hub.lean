import FauPortalen.Foundations.Execution
import FauPortalen.Foundations.Lookup
import FauPortalen.Membership.Authorization

/-! The change stream: one listener that takes notifications from its connection one at a time,
and the subscriptions it sends them to. The clients, the database and the connection interleave
with it anywhere but where a lock or a single atomic operation forbids it.

Every step advances a clock that nothing reads, which dates a recv by when it was polled.
-/

namespace FauPortalen.ChangeStream

open FauPortalen.Foundations FauPortalen.Membership

/-- How many deliveries a subscription may fall behind before it is closed. -/
def subscriptionBuffer : Nat := 64

inductive Change
  | changed (resource : Resource)
  /-- A membership's access shrank: every live subscription it holds closes. -/
  | accessRevoked (membershipId : Nat)
deriving DecidableEq

structure Notification where
  tenantId : Nat
  change : Change
deriving DecidableEq

/-- The two questions the hub asks, answered from the database and the clock of the moment: has
the viewer standing, and may they read the resource?
-/
structure Authority (W : Type) where
  standing : W → Viewer → Bool
  authorize : W → Viewer → Resource → Decision

-----------------------------------------------------------------------------------------
-- Subscriptions

inductive Phase
  /-- Registered, with the standing check still to come. -/
  | checking
  | opened
  /-- Unregistered by its drop, with the receiver still there. -/
  | dropping
  | gone
deriving DecidableEq

/-- Where a `recv` is. Its `Notified` future remembers how often the signal had woken when it
was created.
-/
inductive Recv
  | idle
  | created (generation polledAt : Nat)
  | selecting (generation polledAt : Nat)
  | receiving (generation polledAt : Nat)
  | waiting (generation : Nat)
deriving DecidableEq

/-- What a `recv` returned, and when the poll that returned it began. -/
structure Return where
  value : Option Resource
  polledAt : Nat
deriving DecidableEq

/-- A subscription with both ends of its channel and its close signal. `since`, `opened`, `sent`,
`returned` and `closedAt` are its history, which no step looks at: the dispatches begun and the
times the listener had listened again when it was registered, what was put into the buffer, and
when its close signal first woke.
-/
structure Subscription where
  viewer : Viewer
  since : Nat
  opened : Nat
  phase : Phase
  closed : Bool
  wakes : Nat
  buffer : List Resource
  recv : Recv
  sent : List Resource
  returned : List Return
  closedAt : Option Nat
deriving DecidableEq

namespace Subscription

def new (viewer : Viewer) (since opened : Nat) : Subscription :=
  ⟨viewer, since, opened, .checking, false, 0, [], .idle, [], [], none⟩

def hasRoom (s : Subscription) : Bool := s.buffer.length < subscriptionBuffer && s.phase ≠ .gone

def push (resource : Resource) (s : Subscription) : Subscription :=
  { s with buffer := s.buffer ++ [resource], sent := s.sent ++ [resource] }

/-- The first half of a close. -/
def flag (s : Subscription) : Subscription := { s with closed := true }

/-- The second half: every `Notified` future that exists is woken. -/
def wake (now : Nat) (s : Subscription) : Subscription :=
  { s with wakes := s.wakes + 1, closedAt := some (s.closedAt.getD now) }

def drop (s : Subscription) : Subscription := { s with phase := .dropping }

def returns (s : Subscription) (value : Option Resource) (polledAt : Nat) : Subscription :=
  { s with recv := .idle, returned := s.returned ++ [⟨value, polledAt⟩] }

/-- What the client does with its subscription; `live` says that a sender still exists. -/
inductive Moves (now : Nat) (standing live : Bool) : Subscription → Subscription → Prop
  | admitted {s} (checking : s.phase = .checking) (stands : standing = true)
      : Moves now standing live s { s with phase := .opened }
  | recv {s} (isOpen : s.phase = .opened) (resting : s.recv = .idle)
      : Moves now standing live s { s with recv := .created s.wakes now }
  | seesFlag {s g t} (calling : s.recv = .created g t) (flagged : s.closed = true)
      : Moves now standing live s (s.returns none t)
  | seesNoFlag {s g t} (calling : s.recv = .created g t) (unflagged : s.closed = false)
      : Moves now standing live s { s with recv := .selecting g t }
  | notified {s g t} (calling : s.recv = .selecting g t) (woken : g ≠ s.wakes)
      : Moves now standing live s (s.returns none t)
  | notNotified {s g t} (calling : s.recv = .selecting g t) (asleep : g = s.wakes)
      : Moves now standing live s { s with recv := .receiving g t }
  | takes {s g t resource rest} (calling : s.recv = .receiving g t)
      (buffered : s.buffer = resource :: rest)
      : Moves now standing live s ({ s with buffer := rest }.returns (some resource) t)
  | ends {s g t} (calling : s.recv = .receiving g t) (drained : s.buffer = [])
      (senderless : live = false)
      : Moves now standing live s (s.returns none t)
  | waits {s g t} (calling : s.recv = .receiving g t) (drained : s.buffer = [])
      (senders : live = true)
      : Moves now standing live s { s with recv := .waiting g }
  | polls {s g} (calling : s.recv = .waiting g)
      : Moves now standing live s { s with recv := .selecting g now }
  | cancels {s g} (calling : s.recv = .waiting g)
      : Moves now standing live s { s with recv := .idle }
  | released {s} (dropped : s.phase = .dropping)
      : Moves now standing live s { s with phase := .gone }

end Subscription

-----------------------------------------------------------------------------------------
-- The hub

/-- What `authorize` answered for a membership, or that it could not. -/
inductive Verdict
  | decided (decision : Decision)
  | failed
deriving DecidableEq

/-- The dispatch of a change, with the subscriptions it collected. Changes are numbered as their
dispatches begin.
-/
structure Dispatch where
  tenantId : Nat
  resource : Resource
  number : Nat
  targets : List Nat
deriving DecidableEq

/-- What is left to do for the first subscription a delivery has not finished with. -/
inductive Task
  | next
  | wake
  | unregister
deriving DecidableEq

/-- Where the listener is. -/
inductive Listener
  | waiting
  /-- In `close_and_remove`, with the subscribers locked and these still to close; of the first
  one the flag may have been set.
  -/
  | revoking (viewer : Viewer) (rest : List Nat) (flagged : Bool)
  | acquiring (dispatch : Dispatch)
  /-- No connection to authorize with: these are still to be removed. -/
  | failing (dispatch : Dispatch) (rest : List Nat)
  | delivering (dispatch : Dispatch) (rest : List Nat) (verdicts : Lookup Nat Verdict)
      (task : Task)
  /-- The connection dropped and listens again. -/
  | reconnected
  | failed
  | rebuilding
  | rebuilt

/-- The senders the listener holds besides the registered ones. -/
def Listener.clones : Listener → List Nat
  | .acquiring d | .failing d _ => d.targets
  | .delivering _ rest _ _ => rest
  | _ => []

def Listener.locks : Listener → Bool
  | .revoking .. => true
  | _ => false

/-- An `authorize` that allowed a delivery, with the world it looked at. -/
structure Allowance (W : Type) where
  number : Nat
  viewer : Viewer
  resource : Resource
  world : W

/-- The hub, its connection and the world around it. `allowed` and the counters are history: how
many steps were made, changes were taken up, dispatches ended, and times a lost listener listened
again.
-/
structure Hub (W : Type) where
  world : W
  subscribers : List Nat
  subscriptions : Nat → Subscription
  nextId : Nat
  listening : Bool
  inbox : List (Option Notification)
  listener : Listener
  allowed : List (Allowance W)
  time : Nat
  begun : Nat
  dispatched : Nat
  relistens : Nat

namespace Hub

variable {W : Type}

/-- A hub that has just been started. -/
structure Started (s : Hub W) : Prop where
  subscribers : s.subscribers = []
  nextId : s.nextId = 0
  listening : s.listening = true
  listener : s.listener = .waiting
  allowed : s.allowed = []

def viewer (s : Hub W) (id : Nat) : Viewer := (s.subscriptions id).viewer

/-- A sender of the subscription still exists. -/
def live (s : Hub W) (id : Nat) : Bool := id ∈ s.subscribers || id ∈ s.listener.clones

def set (s : Hub W) (id : Nat) (subscription : Subscription) : Hub W :=
  { s with subscriptions := Function.update s.subscriptions id subscription }

def update (s : Hub W) (id : Nat) (f : Subscription → Subscription) : Hub W :=
  s.set id (f (s.subscriptions id))

/-- The first thing `subscribe` does. -/
def register (s : Hub W) (viewer : Viewer) : Hub W :=
  { s.set s.nextId (.new viewer s.begun s.relistens) with
    subscribers := s.subscribers ++ [s.nextId]
    nextId := s.nextId + 1 }

def remove (s : Hub W) (id : Nat) : Hub W :=
  { s with subscribers := s.subscribers.filter (· ≠ id) }

/-- The registered subscriptions of a membership. -/
def ofViewer (s : Hub W) (viewer : Viewer) : List Nat :=
  s.subscribers.filter fun id => s.viewer id = viewer

/-- The registered subscriptions of a FAU. -/
def ofTenant (s : Hub W) (tenantId : Nat) : List Nat :=
  s.subscribers.filter fun id => (s.viewer id).tenantId = tenantId

def goes (s : Hub W) (listener : Listener) : Hub W := { s with listener := listener }

/-- A dispatch has ended. -/
def finish (s : Hub W) : Hub W :=
  { s with listener := .waiting, dispatched := s.dispatched + 1 }

def closeAll (s : Hub W) : Hub W := { s with subscribers := [] }

/-- The connection listens again. -/
def relisten (s : Hub W) (listener : Listener) : Hub W :=
  { s with listening := true, inbox := [], relistens := s.relistens + 1, listener := listener }

/-- The membership's verdict in a delivery, read from the database of the moment. -/
def decide (authority : Authority W) (s : Hub W) (d : Dispatch) (rest : List Nat)
    (verdicts : Lookup Nat Verdict) (membershipId : Nat) : Hub W :=
  let viewer : Viewer := ⟨d.tenantId, membershipId⟩
  let decision := authority.authorize s.world viewer d.resource
  { s with
    listener := .delivering d rest (verdicts.insert membershipId (.decided decision)) .next
    allowed :=
      if decision = .ok () then s.allowed ++ [⟨d.number, viewer, d.resource, s.world⟩]
      else s.allowed }

section

variable (authority : Authority W)

/-- A client's step. The subscribers' lock keeps `subscribe` and a drop out. -/
inductive ClientStep (s : Hub W) : Hub W → Prop
  | subscribes (viewer : Viewer) (unlocked : s.listener.locks = false)
      : ClientStep s (s.register viewer)
  | moves {id : Nat} {after : Subscription} (known : id < s.nextId)
      (moved : (s.subscriptions id).Moves s.time (authority.standing s.world (s.viewer id))
        (s.live id) after)
      : ClientStep s (s.set id after)
  | drops {id : Nat} (known : id < s.nextId) (unlocked : s.listener.locks = false)
      (held : (s.subscriptions id).phase = .checking ∨ (s.subscriptions id).phase = .opened)
      (resting : (s.subscriptions id).recv = .idle)
      : ClientStep s ((s.remove id).update id .drop)

/-- A transaction commits, which the connection hears of while it listens, or the connection
goes down with part of what it had heard.
-/
inductive EnvironmentStep (s : Hub W) : Hub W → Prop
  | commits (world : W) (announced : List (Option Notification))
      : EnvironmentStep s
          { s with
            world := world
            inbox := if s.listening then s.inbox ++ announced else s.inbox }
  | loses {kept : List (Option Notification)} (first : kept <+: s.inbox)
      : EnvironmentStep s { s with listening := false, inbox := kept }

/-- A step of the listener's task. -/
inductive ListenerStep (s : Hub W) : Hub W → Prop
  | ignores {rest} (idle : s.listener = .waiting) (heard : s.inbox = none :: rest)
      : ListenerStep s { s with inbox := rest }
  | takesRevocation {tenantId membershipId rest} (idle : s.listener = .waiting)
      (heard : s.inbox = some ⟨tenantId, .accessRevoked membershipId⟩ :: rest)
      : ListenerStep s
          ({ s with inbox := rest }.goes
            (.revoking ⟨tenantId, membershipId⟩ (s.ofViewer ⟨tenantId, membershipId⟩) false))
  | flags {v id rest} (busy : s.listener = .revoking v (id :: rest) false)
      : ListenerStep s ((s.update id .flag).goes (.revoking v (id :: rest) true))
  | wakes {v id rest} (busy : s.listener = .revoking v (id :: rest) true)
      : ListenerStep s ((s.update id (.wake s.time)).goes (.revoking v rest false))
  | retains {v} (busy : s.listener = .revoking v [] false)
      : ListenerStep s
          { s with subscribers := s.subscribers.filter fun id => s.viewer id ≠ v }.finish
  | findsNobody {tenantId resource rest} (idle : s.listener = .waiting)
      (heard : s.inbox = some ⟨tenantId, .changed resource⟩ :: rest)
      (nobody : s.ofTenant tenantId = [])
      : ListenerStep s { s with inbox := rest, begun := s.begun + 1 }.finish
  | collects {tenantId resource rest} (idle : s.listener = .waiting)
      (heard : s.inbox = some ⟨tenantId, .changed resource⟩ :: rest)
      (somebody : s.ofTenant tenantId ≠ [])
      : ListenerStep s
          ({ s with inbox := rest, begun := s.begun + 1 }.goes
            (.acquiring ⟨tenantId, resource, s.begun, s.ofTenant tenantId⟩))
  | acquireFails {d} (busy : s.listener = .acquiring d)
      : ListenerStep s (s.goes (.failing d d.targets))
  | removes {d id rest} (busy : s.listener = .failing d (id :: rest))
      : ListenerStep s ((s.remove id).goes (.failing d rest))
  | gaveUp {d} (busy : s.listener = .failing d [])
      : ListenerStep s s.finish
  | acquires {d} (busy : s.listener = .acquiring d)
      : ListenerStep s (s.goes (.delivering d d.targets .empty .next))
  | decides {d id rest verdicts} (busy : s.listener = .delivering d (id :: rest) verdicts .next)
      (undecided : verdicts (s.viewer id).membershipId = none)
      : ListenerStep s (s.decide authority d (id :: rest) verdicts (s.viewer id).membershipId)
  | cannotDecide {d id rest verdicts}
      (busy : s.listener = .delivering d (id :: rest) verdicts .next)
      (undecided : verdicts (s.viewer id).membershipId = none)
      : ListenerStep s
          (s.goes (.delivering d (id :: rest)
            (verdicts.insert (s.viewer id).membershipId .failed) .next))
  | sends {d id rest verdicts} (busy : s.listener = .delivering d (id :: rest) verdicts .next)
      (allowed : verdicts (s.viewer id).membershipId = some (.decided (.ok ())))
      (room : (s.subscriptions id).hasRoom = true)
      : ListenerStep s ((s.update id (.push d.resource)).goes (.delivering d rest verdicts .next))
  | overflows {d id rest verdicts}
      (busy : s.listener = .delivering d (id :: rest) verdicts .next)
      (allowed : verdicts (s.viewer id).membershipId = some (.decided (.ok ())))
      (noRoom : (s.subscriptions id).hasRoom = false)
      : ListenerStep s (s.goes (.delivering d (id :: rest) verdicts .unregister))
  | skips {d id rest verdicts denied}
      (busy : s.listener = .delivering d (id :: rest) verdicts .next)
      (refused : verdicts (s.viewer id).membershipId = some (.decided (.error denied)))
      (stands : denied = .hidden ∨ denied = .forbidden)
      : ListenerStep s (s.goes (.delivering d rest verdicts .next))
  | undecidable {d id rest verdicts}
      (busy : s.listener = .delivering d (id :: rest) verdicts .next)
      (failed : verdicts (s.viewer id).membershipId = some .failed)
      : ListenerStep s (s.goes (.delivering d (id :: rest) verdicts .unregister))
  | shuts {d id rest verdicts} (busy : s.listener = .delivering d (id :: rest) verdicts .next)
      (noAccess : verdicts (s.viewer id).membershipId = some (.decided (.error .noAccess)))
      : ListenerStep s ((s.update id .flag).goes (.delivering d (id :: rest) verdicts .wake))
  | awakens {d id rest verdicts} (busy : s.listener = .delivering d (id :: rest) verdicts .wake)
      : ListenerStep s
          ((s.update id (.wake s.time)).goes (.delivering d (id :: rest) verdicts .unregister))
  | unregisters {d id rest verdicts}
      (busy : s.listener = .delivering d (id :: rest) verdicts .unregister)
      : ListenerStep s ((s.remove id).goes (.delivering d rest verdicts .next))
  | delivered {d verdicts} (busy : s.listener = .delivering d [] verdicts .next)
      : ListenerStep s s.finish
  | reconnects (idle : s.listener = .waiting) (lost : s.listening = false)
      (drained : s.inbox = [])
      : ListenerStep s (s.relisten .reconnected)
  | fails (idle : s.listener = .waiting)
      : ListenerStep s { s with listening := false, inbox := [], listener := .failed }
  | rebuilds (busy : s.listener = .rebuilding)
      : ListenerStep s (s.relisten .rebuilt)
  | closesAfterReconnect (busy : s.listener = .reconnected)
      : ListenerStep s (s.closeAll.goes .waiting)
  | closesAfterFailure (busy : s.listener = .failed)
      : ListenerStep s (s.closeAll.goes .rebuilding)
  | closesAfterRebuild (busy : s.listener = .rebuilt)
      : ListenerStep s (s.closeAll.goes .waiting)

/-- One step of anyone. -/
inductive Acts (s : Hub W) : Hub W → Prop
  | client {after} (stepped : ClientStep authority s after) : Acts s after
  | environment {after} (stepped : EnvironmentStep s after) : Acts s after
  | listener {after} (stepped : ListenerStep authority s after) : Acts s after

def tick (s : Hub W) : Hub W := { s with time := s.time + 1 }

/-- The hub among everyone that acts on it. -/
def system : TransitionSystem (Hub W) :=
  ⟨Started, fun s after => ∃ acted, Acts authority s acted ∧ after = acted.tick⟩

end

end Hub

end FauPortalen.ChangeStream

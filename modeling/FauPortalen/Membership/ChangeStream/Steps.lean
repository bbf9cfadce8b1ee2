import FauPortalen.Membership.ChangeStream.Hub
import Mathlib.Data.List.Infix
import Mathlib.Data.List.Nodup

/-! What one step can do: to a subscription, and to the lists of subscriptions that the registry
and the listener hold. Every invariant is derived from these.
-/

namespace FauPortalen.ChangeStream

open FauPortalen.Foundations FauPortalen.Membership

-----------------------------------------------------------------------------------------
-- What a step can do to a subscription

/-- All that one step can do to a subscription that has been registered: only one that has a
sender is sent anything.
-/
inductive Subscription.Changes (now : Nat) (live : Bool) (s : Subscription) : Subscription → Prop
  | kept : Changes now live s s
  | moved {standing after} (moved : s.Moves now standing live after) : Changes now live s after
  | dropped : Changes now live s s.drop
  | pushed {resource} (senders : live = true) (room : s.hasRoom = true)
      : Changes now live s (s.push resource)
  | flagged : Changes now live s s.flag
  | woken (flagged : s.closed = true) : Changes now live s (s.wake now)

namespace Subscription.Changes

variable {now : Nat} {live : Bool} {s after : Subscription}

theorem viewer (changed : s.Changes now live after) : after.viewer = s.viewer := by
  cases changed with
  | moved moved => cases moved <;> rfl
  | _ => rfl

theorem since (changed : s.Changes now live after) : after.since = s.since := by
  cases changed with
  | moved moved => cases moved <;> rfl
  | _ => rfl

theorem opened (changed : s.Changes now live after) : after.opened = s.opened := by
  cases changed with
  | moved moved => cases moved <;> rfl
  | _ => rfl

/-- A close signal stays set. -/
theorem closed (changed : s.Changes now live after) (flagged : s.closed = true)
    : after.closed = true := by
  cases changed with
  | moved moved => cases moved <;> exact flagged
  | flagged => rfl
  | _ => exact flagged

/-- The first waking stays the first. -/
theorem closedAt (changed : s.Changes now live after) {c : Nat} (woken : s.closedAt = some c)
    : after.closedAt = some c := by
  cases changed with
  | moved moved => cases moved <;> exact woken
  | woken flagged => simp [Subscription.wake, woken]
  | _ => exact woken

/-- What was returned is only ever added to. -/
theorem returned (changed : s.Changes now live after) : s.returned <+: after.returned := by
  cases changed with
  | moved moved =>
      cases moved with
      | seesFlag | notified | takes | ends => exact List.prefix_append _ _
      | _ => exact List.prefix_rfl
  | _ => exact List.prefix_rfl

/-- Nothing more is sent without a sender. -/
theorem sent (changed : s.Changes now false after) : after.sent = s.sent := by
  cases changed with
  | moved moved => cases moved <;> rfl
  | pushed senders => cases senders
  | _ => rfl

/-- Nothing is waited for without a sender. -/
theorem answered (changed : s.Changes now false after) {g t : Nat}
    (calling : s.recv = .receiving g t)
    : after.recv ≠ .waiting g := by
  have waits : s.recv ≠ .waiting g := by rw [calling]; exact Recv.noConfusion
  cases changed with
  | moved moved =>
      cases moved with
      | waits _ _ senders => cases senders
      | admitted | released => exact waits
      | _ => exact Recv.noConfusion
  | _ => exact waits

end Subscription.Changes

namespace Hub

variable {W : Type} {authority : Authority W} {s after : Hub W}

theorem subscriptions_set (s : Hub W) (id other : Nat) (subscription : Subscription)
    : (s.set id subscription).subscriptions other
        = if other = id then subscription else s.subscriptions other := by
  simp [set, Function.update_apply]

theorem subscriptions_update (s : Hub W) (id other : Nat) (f : Subscription → Subscription)
    : (s.update id f).subscriptions other
        = if other = id then f (s.subscriptions id) else s.subscriptions other :=
  subscriptions_set s id other _

theorem subscriptions_register (s : Hub W) (viewer : Viewer)
    : (s.register viewer).subscriptions s.nextId = .new viewer s.begun s.relistens := by
  simp [register, subscriptions_set]

theorem mem_ofTenant {id tenantId : Nat}
    : id ∈ s.ofTenant tenantId ↔ id ∈ s.subscribers ∧ (s.viewer id).tenantId = tenantId := by
  simp [ofTenant]

theorem mem_ofViewer {id : Nat} {viewer : Viewer}
    : id ∈ s.ofViewer viewer ↔ id ∈ s.subscribers ∧ s.viewer id = viewer := by
  simp [ofViewer]

/-- The first subscription of a close or a delivery has its flag set when the waking is next. -/
def Flagged (s : Hub W) : Prop :=
  match s.listener with
  | .revoking _ (id :: _) true | .delivering _ (id :: _) _ .wake =>
      (s.subscriptions id).closed = true
  | _ => True

theorem changes_set {id other : Nat} {subscription : Subscription}
    (changed : (s.subscriptions id).Changes s.time (s.live id) subscription)
    : (s.subscriptions other).Changes s.time (s.live other)
        ((s.set id subscription).subscriptions other) := by
  rw [subscriptions_set]
  split
  · next same => exact same ▸ changed
  · exact .kept

/-- A step of the client changes the subscription it is about, and registers at most a new one. -/
theorem ClientStep.changes (stepped : ClientStep authority s after) {id : Nat}
    (known : id < s.nextId)
    : (s.subscriptions id).Changes s.time (s.live id) (after.subscriptions id) := by
  cases stepped with
  | subscribes viewer unlocked =>
      have other : id ≠ s.nextId := Nat.ne_of_lt known
      have same : (s.register viewer).subscriptions id = s.subscriptions id := by
        simp [register, subscriptions_set, other]
      rw [same]
      exact .kept
  | moves known moved => exact changes_set (.moved moved)
  | @drops other known unlocked held resting =>
      exact @changes_set _ s other _ _ .dropped

theorem ListenerStep.changes (flagged : s.Flagged) (stepped : ListenerStep authority s after)
    (id : Nat)
    : (s.subscriptions id).Changes s.time (s.live id) (after.subscriptions id) := by
  cases stepped with
  | flags busy => exact changes_set .flagged
  | wakes busy =>
      rw [Flagged, busy] at flagged
      exact changes_set (.woken flagged)
  | sends busy allowed room =>
      refine changes_set (.pushed ?_ room)
      simp [live, busy, Listener.clones]
  | shuts busy noAccess => exact changes_set .flagged
  | awakens busy =>
      rw [Flagged, busy] at flagged
      exact changes_set (.woken flagged)
  | _ => exact .kept

theorem EnvironmentStep.subscriptions (stepped : EnvironmentStep s after)
    : after.subscriptions = s.subscriptions := by
  cases stepped <;> rfl

/-- What one step of anyone can do to a registered subscription. -/
theorem Acts.changes (flagged : s.Flagged) (acted : Acts authority s after) {id : Nat}
    (known : id < s.nextId)
    : (s.subscriptions id).Changes s.time (s.live id) (after.subscriptions id) := by
  cases acted with
  | client stepped => exact stepped.changes known
  | environment stepped => rw [stepped.subscriptions]; exact .kept
  | listener stepped => exact stepped.changes flagged id

-----------------------------------------------------------------------------------------
-- What a step can do to the counters and the lists

/-- Ids and the counts of what happened only grow. -/
structure Advances (s after : Hub W) : Prop where
  nextId : s.nextId ≤ after.nextId
  begun : s.begun ≤ after.begun
  dispatched : s.dispatched ≤ after.dispatched
  relistens : s.relistens ≤ after.relistens

theorem Acts.advances (acted : Acts authority s after) : s.Advances after := by
  cases acted with
  | client stepped =>
      cases stepped with
      | subscribes => exact ⟨Nat.le_succ _, le_rfl, le_rfl, le_rfl⟩
      | _ => exact ⟨le_rfl, le_rfl, le_rfl, le_rfl⟩
  | environment stepped => cases stepped <;> exact ⟨le_rfl, le_rfl, le_rfl, le_rfl⟩
  | listener stepped =>
      cases stepped with
      | findsNobody => exact ⟨le_rfl, Nat.le_succ _, Nat.le_succ _, le_rfl⟩
      | collects => exact ⟨le_rfl, Nat.le_succ _, le_rfl, le_rfl⟩
      | retains | gaveUp | delivered => exact ⟨le_rfl, le_rfl, Nat.le_succ _, le_rfl⟩
      | reconnects | rebuilds => exact ⟨le_rfl, le_rfl, le_rfl, Nat.le_succ _⟩
      | _ => exact ⟨le_rfl, le_rfl, le_rfl, le_rfl⟩

theorem Advances.trans {middle : Hub W} (first : s.Advances middle) (second : middle.Advances after)
    : s.Advances after :=
  ⟨first.nextId.trans second.nextId, first.begun.trans second.begun,
    first.dispatched.trans second.dispatched, first.relistens.trans second.relistens⟩

theorem advances_of_leads (run : (system authority).Leads s after) : s.Advances after := by
  refine run.related (fun _ => ⟨le_rfl, le_rfl, le_rfl, le_rfl⟩) (fun _ _ _ => .trans)
    fun before after stepped => ?_
  obtain ⟨acted, step, rfl⟩ := stepped
  have advanced := step.advances
  exact ⟨advanced.nextId, advanced.begun, advanced.dispatched, advanced.relistens⟩

theorem Acts.time (acted : Acts authority s after) : after.time = s.time := by
  cases acted with
  | client stepped => cases stepped <;> rfl
  | environment stepped => cases stepped <;> rfl
  | listener stepped => cases stepped <;> rfl

/-- Only `subscribe` registers anything, and always under a new id. -/
theorem Acts.subscribers (acted : Acts authority s after)
    : after.subscribers.Sublist s.subscribers
      ∨ after.subscribers = s.subscribers ++ [s.nextId] ∧ after.nextId = s.nextId + 1 := by
  cases acted with
  | client stepped =>
      cases stepped with
      | subscribes => exact .inr ⟨rfl, rfl⟩
      | moves => exact .inl (List.Sublist.refl _)
      | drops => exact .inl List.filter_sublist
  | environment stepped => cases stepped <;> exact .inl (List.Sublist.refl _)
  | listener stepped =>
      refine .inl ?_
      cases stepped with
      | retains | removes | unregisters => exact List.filter_sublist
      | closesAfterReconnect | closesAfterFailure | closesAfterRebuild => exact List.nil_sublist _
      | _ => exact List.Sublist.refl _

/-- The subscribers stay as they are while somebody else holds their lock. -/
theorem locked_subscribers (locked : s.listener.locks = true)
    (acted : ClientStep authority s after ∨ EnvironmentStep s after)
    : after.subscribers = s.subscribers := by
  rcases acted with stepped | stepped
  · cases stepped with
    | subscribes viewer unlocked => rw [locked] at unlocked; cases unlocked
    | moves => rfl
    | drops known unlocked held resting => rw [locked] at unlocked; cases unlocked
  · cases stepped <;> rfl

/-- Only the listener moves the listener. -/
theorem same_listener (acted : ClientStep authority s after ∨ EnvironmentStep s after)
    : after.listener = s.listener := by
  rcases acted with stepped | stepped <;> cases stepped <;> rfl

/-- Only the listener takes up changes, allows deliveries and listens again. -/
theorem same_history (acted : ClientStep authority s after ∨ EnvironmentStep s after)
    : after.begun = s.begun ∧ after.allowed = s.allowed ∧ after.dispatched = s.dispatched
      ∧ after.relistens = s.relistens := by
  rcases acted with stepped | stepped <;> cases stepped <;> exact ⟨rfl, rfl, rfl, rfl⟩

/-- An id that was given out in this step was given out by `subscribe`. -/
theorem Acts.registers (acted : Acts authority s after) {id : Nat} (new : ¬ id < s.nextId)
    (known : id < after.nextId)
    : ∃ viewer, id = s.nextId ∧ after = s.register viewer := by
  cases acted with
  | client stepped =>
      cases stepped with
      | subscribes viewer unlocked =>
          exact ⟨viewer, Nat.le_antisymm (Nat.le_of_lt_succ known) (Nat.le_of_not_lt new), rfl⟩
      | _ => exact absurd known new
  | environment stepped => cases stepped <;> exact absurd known new
  | listener stepped => cases stepped <;> exact absurd known new

/-- Every step is the listener's or somebody else's. -/
theorem Acts.cases (acted : Acts authority s after)
    : (ClientStep authority s after ∨ EnvironmentStep s after) ∨ ListenerStep authority s after := by
  cases acted with
  | client stepped => exact .inl (.inl stepped)
  | environment stepped => exact .inl (.inr stepped)
  | listener stepped => exact .inr stepped

end Hub

end FauPortalen.ChangeStream

import FauPortalen.Membership.ChangeStream.Delivery
import FauPortalen.Membership.ChangeStream.Ending

/-! What the change stream promises its viewers: no leak and no silent gap, in every run of the
hub among its clients, its listener, the transactions and the outages of the connection.
-/

set_option linter.unusedSectionVars false

namespace FauPortalen.ChangeStream

open FauPortalen.Foundations FauPortalen.Membership

namespace Hub

variable {W : Type} {authority : Authority W} {s after : Hub W} {id : Nat}

/-- From here on no poll of the subscription returns an item. -/
def Silenced (authority : Authority W) (s : Hub W) (id : Nat) : Prop :=
  ∀ after, (system authority).Leads s after →
    ∀ r ∈ (after.subscriptions id).returned, s.time ≤ r.polledAt → r.value = none

/-- What a state of the hub promises for the past and for every run from it.

`authorized`: whatever a recv returned was allowed by `authorize` for its membership, in a
dispatch begun since the subscription was registered.
`gapless`: what it returned is a first part of all that was so allowed, in its order.
`silenced`: a dispatch of the membership's revocation, or one that has found the membership
without access, ends with every subscription that was registered when it began silenced.
`renewed`: once a lost listener listens again and has closed every stream, each subscription that
was there before ends.
`revoked`: a subscription that has passed its standing check ends with the dispatch of any
revocation of its membership from then on, and is silenced unless it had ended before.
-/
structure Promises (authority : Authority W) (s : Hub W) : Prop where
  authorized : ∀ id < s.nextId, ∀ r ∈ (s.subscriptions id).returned,
    ∀ resource, r.value = some resource →
      ∃ a ∈ s.allowed, a.viewer = s.viewer id ∧ a.resource = resource
        ∧ (s.subscriptions id).since ≤ a.number
        ∧ authority.authorize a.world a.viewer a.resource = .ok ()
  gapless : ∀ id < s.nextId, (s.subscriptions id).taken <+: s.due id
  silenced : ∀ id, s.Condemns id → ∀ ended, (system authority).Leads s ended →
    s.dispatched < ended.dispatched → Silenced authority ended id
  renewed : ∀ id < s.nextId, ∀ after, (system authority).Leads s after →
    s.relistens < after.relistens → after.listener.listensAgain = false →
      Ends authority after id
  revoked : ∀ id < s.nextId, (s.subscriptions id).phase = .opened →
    ∀ dispatching rest flagged, (system authority).Leads s dispatching →
      dispatching.listener = .revoking (s.viewer id) rest flagged →
      ∀ ended, (system authority).Leads dispatching ended →
        dispatching.dispatched < ended.dispatched →
          Ends authority ended id
            ∧ (id ∈ dispatching.subscribers ∧ Silenced authority ended id
              ∨ Ends authority dispatching id)

/-- What was returned was sent, and what was sent was allowed. -/
theorem taken_due (reached : (system authority).Reachable s) (known : id < s.nextId)
    : (s.subscriptions id).taken <+: s.due id := by
  have account := (sound_of_reachable reached id known).accounted
  have within := (delivered_of_reachable reached).1.within id known
  exact List.IsPrefix.trans ⟨_, account⟩ within

/-- Every state that the hub reaches keeps the promises. -/
theorem promises_kept (authority : Authority W) (s : Hub W)
    (reached : (system authority).Reachable s)
    : s.Promises authority where
  authorized id known r returned resource value := by
    have taken : resource ∈ (s.subscriptions id).taken :=
      List.mem_filterMap.mpr ⟨r, returned, value⟩
    obtain ⟨a, concerned, rfl⟩ := List.mem_map.mp ((taken_due reached known).subset taken)
    obtain ⟨logged, own⟩ := List.mem_filter.mp concerned
    simp only [concerns, Bool.and_eq_true, decide_eq_true_eq] at own
    exact ⟨a, logged, own.1, rfl, own.2, allowed_of_reachable reached a logged⟩
  gapless id known := taken_due reached known
  silenced id condemned ended run finished after later :=
    condemned.silences reached run finished later
  renewed id known after run again closed :=
    ends_of_senderless (reached.leads run) (Nat.lt_of_lt_of_le known (advances_of_leads run).nextId)
      (renewed_senderless reached known run again closed)
  revoked id known _ dispatching rest flagged before revoking ended run finished := by
    have reachedThen := reached.leads before
    have knownThen := Nat.lt_of_lt_of_le known (advances_of_leads before).nextId
    have own : dispatching.viewer id = s.viewer id := viewer_stays reached known before
    rw [← own] at revoking
    have senderless := revoked_senderless reachedThen knownThen revoking run finished
    refine ⟨ends_of_senderless (reachedThen.leads run)
      (Nat.lt_of_lt_of_le knownThen (advances_of_leads run).nextId) senderless, ?_⟩
    by_cases listed : id ∈ dispatching.subscribers
    · have condemned : dispatching.Condemns id := by
        unfold Condemns
        rw [revoking]
        exact ⟨listed, rfl⟩
      exact .inl ⟨listed, fun after later => condemned.silences reachedThen run finished later⟩
    · refine .inr (ends_of_senderless reachedThen knownThen ?_)
      simp [live, listed, revoking, Listener.clones]

/-- The world says only whether the one viewer still has standing. -/
def sampleAuthority : Authority Bool where
  standing stands _ := stands
  authorize stands _ _ := if stands then .ok () else .error .noAccess

def sampleStart : Hub Bool :=
  ⟨true, [], fun _ => .new ⟨0, 0⟩ 0 0, 0, true, [], .waiting, [], 0, 0, 0, 0⟩

/-- A viewer subscribes, is sent a change, and has its revocation dispatched with the change still
unread.
-/
theorem samplePromises_kept
    : ∃ s : Hub Bool, (system sampleAuthority).Reachable s ∧ s.Condemns 0
        ∧ (s.subscriptions 0).buffer = [.fau] ∧ s.Promises sampleAuthority := by
  have started : (system sampleAuthority).Reachable sampleStart := .start ⟨rfl, rfl, rfl, rfl, rfl⟩
  have subscribed := started.step ⟨_, .client (.subscribes ⟨1, 7⟩ rfl), rfl⟩
  have admitted := subscribed.step
    ⟨_, .client (.moves Nat.zero_lt_one (.admitted rfl rfl)), rfl⟩
  have changed := admitted.step
    ⟨_, .environment (.commits true [some ⟨1, .changed .fau⟩]), rfl⟩
  have collected := changed.step ⟨_, .listener (.collects rfl rfl (List.cons_ne_nil 0 [])), rfl⟩
  have acquired := collected.step ⟨_, .listener (.acquires rfl), rfl⟩
  have decided := acquired.step ⟨_, .listener (.decides rfl rfl), rfl⟩
  have sent := decided.step ⟨_, .listener (.sends rfl rfl rfl), rfl⟩
  have delivered := sent.step ⟨_, .listener (.delivered rfl), rfl⟩
  have revoked := delivered.step
    ⟨_, .environment (.commits false [some ⟨1, .accessRevoked 7⟩]), rfl⟩
  have revoking := revoked.step ⟨_, .listener (.takesRevocation rfl rfl), rfl⟩
  exact ⟨_, revoking, ⟨List.mem_singleton.mpr rfl, rfl⟩, rfl, promises_kept _ _ revoking⟩

end Hub

end FauPortalen.ChangeStream

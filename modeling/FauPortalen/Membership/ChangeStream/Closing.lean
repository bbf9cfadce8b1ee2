import FauPortalen.Membership.ChangeStream.Registry

/-! A close that discards: once a subscription's signal has woken, no poll that begins later
returns anything but `None`. A poll that begins after the close sees the flag, and one that was
suspended holds a `Notified` future from before it.
-/

set_option linter.unusedSectionVars false

namespace FauPortalen.ChangeStream

open FauPortalen.Foundations FauPortalen.Membership

-----------------------------------------------------------------------------------------
-- One subscription

/-- A `Notified` future was created, and a poll began, before now. -/
def Recv.Past (now wakes : Nat) : Recv → Prop
  | .idle => True
  | .created g t | .selecting g t | .receiving g t => g ≤ wakes ∧ t < now
  | .waiting g => g ≤ wakes

/-- A recv that can only return an item if its poll began before the signal woke at `c`. -/
def Recv.Sealed (wakes c : Nat) : Recv → Prop
  | .idle | .created .. => True
  | .selecting g _ | .waiting g => g < wakes
  | .receiving g t => g < wakes ∧ t < c

namespace Subscription

/-- The items that were returned. -/
def taken (s : Subscription) : List Resource := s.returned.filterMap Return.value

structure Sealed (s : Subscription) (c : Nat) : Prop where
  closed : s.closed = true
  call : s.recv.Sealed s.wakes c
  unread : ∀ r ∈ s.returned, r.value ≠ none → r.polledAt < c

/-- A subscription's account of itself: what was sent is what was returned and what is buffered,
calls are of the past, and a closed one is sealed.
-/
structure Sound (now : Nat) (s : Subscription) : Prop where
  accounted : s.taken ++ s.buffer = s.sent
  bounded : s.buffer.length ≤ subscriptionBuffer
  call : s.recv.Past now s.wakes
  past : ∀ r ∈ s.returned, r.polledAt < now
  closed : ∀ c, s.closedAt = some c → c < now ∧ s.Sealed c

variable {now : Nat} {s after : Subscription}

theorem Sound.new (viewer : Viewer) (since opened now : Nat)
    : (Subscription.new viewer since opened).Sound now where
  accounted := rfl
  bounded := Nat.zero_le _
  call := trivial
  past _ returned := by cases returned
  closed _ woken := by cases woken

theorem taken_returns (s : Subscription) (value : Option Resource) (polledAt : Nat)
    : (s.returns value polledAt).taken = s.taken ++ value.toList := by
  cases value <;> simp [taken, returns]

theorem mem_returns {r : Return} {value : Option Resource} {polledAt : Nat}
    (returned : r ∈ (s.returns value polledAt).returned)
    : r ∈ s.returned ∨ r = ⟨value, polledAt⟩ := by
  simpa [returns] using returned

/-- A recv that returns nothing keeps a subscription sound, however it came to. -/
theorem Sound.returnsNone (sound : s.Sound now) {t : Nat} (polled : t < now)
    : (s.returns none t).Sound now where
  accounted := by
    rw [taken_returns, Option.toList_none, List.append_nil]
    exact sound.accounted
  bounded := sound.bounded
  call := trivial
  past r returned := by
    rcases mem_returns returned with before | rfl
    · exact sound.past r before
    · exact polled
  closed c woken := by
    obtain ⟨recent, closing⟩ := sound.closed c woken
    refine ⟨recent, closing.closed, trivial, fun r returned item => ?_⟩
    rcases mem_returns returned with before | rfl
    · exact closing.unread r before item
    · exact absurd rfl item

/-- Taking an item from the buffer keeps a subscription sound: a poll got that far only if it
began before any close.
-/
theorem Sound.takes (sound : s.Sound now) {g t : Nat} {resource : Resource}
    {rest : List Resource} (calling : s.recv = .receiving g t)
    (buffered : s.buffer = resource :: rest)
    : (({ s with buffer := rest } : Subscription).returns (some resource) t).Sound now := by
  have call := sound.call
  rw [calling] at call
  refine {
    accounted := ?_
    bounded := ?_
    call := trivial
    past := fun r returned => ?_
    closed := fun c woken => ?_ }
  · have same : ({ s with buffer := rest } : Subscription).taken = s.taken := rfl
    rw [taken_returns, same, ← sound.accounted, buffered]
    exact List.append_assoc ..
  · have bounded := sound.bounded
    rw [buffered, List.length_cons] at bounded
    exact Nat.le_of_succ_le bounded
  · rcases mem_returns returned with before | rfl
    · exact sound.past r before
    · exact call.2
  · obtain ⟨recent, closing⟩ := sound.closed c woken
    have early := closing.call
    rw [calling] at early
    refine ⟨recent, closing.closed, trivial, fun r returned item => ?_⟩
    rcases mem_returns returned with before | rfl
    · exact closing.unread r before item
    · exact early.2

/-- A recv that goes on keeps a subscription sound when its call stays of the past and, once
closed, sealed.
-/
theorem Sound.goesOn (sound : s.Sound now) (recv : Recv) (past : recv.Past now s.wakes)
    (shut : ∀ c, s.closedAt = some c → recv.Sealed s.wakes c)
    : ({ s with recv := recv } : Subscription).Sound now where
  accounted := sound.accounted
  bounded := sound.bounded
  call := past
  past := sound.past
  closed c woken :=
    ⟨(sound.closed c woken).1, (sound.closed c woken).2.closed, shut c woken,
      (sound.closed c woken).2.unread⟩

/-- Where a subscription is in its life has nothing to do with its account. -/
theorem Sound.phase (sound : s.Sound now) (phase : Phase)
    : ({ s with phase := phase } : Subscription).Sound now where
  accounted := sound.accounted
  bounded := sound.bounded
  call := sound.call
  past := sound.past
  closed c woken :=
    have closing := (sound.closed c woken).2
    ⟨(sound.closed c woken).1, closing.closed, closing.call, closing.unread⟩

/-- Sending keeps a subscription with room sound. -/
theorem Sound.pushes (sound : s.Sound now) (resource : Resource) (room : s.hasRoom = true)
    : (s.push resource).Sound now where
  accounted := by
    show s.taken ++ (s.buffer ++ [resource]) = s.sent ++ [resource]
    rw [← List.append_assoc, sound.accounted]
  bounded := by
    simp only [hasRoom, Bool.and_eq_true, decide_eq_true_eq] at room
    show (s.buffer ++ [resource]).length ≤ subscriptionBuffer
    rw [List.length_append]
    exact room.1
  call := sound.call
  past := sound.past
  closed c woken :=
    have closing := (sound.closed c woken).2
    ⟨(sound.closed c woken).1, closing.closed, closing.call, closing.unread⟩

theorem Recv.Past.later {recv : Recv} {wakes : Nat} (past : recv.Past now wakes)
    : recv.Past (now + 1) wakes := by
  cases recv with
  | idle => trivial
  | waiting g => exact past
  | created g t | selecting g t | receiving g t => exact ⟨past.1, Nat.lt_succ_of_lt past.2⟩

theorem Sound.later (sound : s.Sound now) : s.Sound (now + 1) where
  accounted := sound.accounted
  bounded := sound.bounded
  call := Recv.Past.later sound.call
  past r returned := Nat.lt_succ_of_lt (sound.past r returned)
  closed c woken := ⟨Nat.lt_succ_of_lt (sound.closed c woken).1, (sound.closed c woken).2⟩

/-- The client's own moves keep its subscription sound. -/
theorem Sound.moves (sound : s.Sound now) {standing live : Bool}
    (moved : s.Moves now standing live after)
    : after.Sound (now + 1) := by
  have call := sound.call
  cases moved with
  | admitted checking stands => exact sound.later.phase .opened
  | recv isOpen resting => exact sound.later.goesOn _ ⟨le_rfl, Nat.lt_succ_self _⟩ fun _ _ => trivial
  | seesFlag calling flagged =>
      rw [calling] at call
      exact (sound.returnsNone call.2).later
  | seesNoFlag calling unflagged =>
      rw [calling] at call
      refine (sound.goesOn (.selecting _ _) call fun c woken => ?_).later
      -- a woken signal was flagged first, and this poll has seen no flag
      rw [(sound.closed c woken).2.closed] at unflagged
      cases unflagged
  | notified calling woken =>
      rw [calling] at call
      exact (sound.returnsNone call.2).later
  | @notNotified g t calling asleep =>
      rw [calling] at call
      refine (sound.goesOn (.receiving _ _) call fun c woken => ?_).later
      have early := (sound.closed c woken).2.call
      rw [calling] at early
      exact absurd early (asleep ▸ Nat.lt_irrefl _)
  | takes calling buffered => exact (sound.takes calling buffered).later
  | ends calling drained senderless =>
      rw [calling] at call
      exact (sound.returnsNone call.2).later
  | waits calling drained senders =>
      rw [calling] at call
      refine (sound.goesOn (.waiting _) call.1 fun c woken => ?_).later
      have early := (sound.closed c woken).2.call
      rw [calling] at early
      exact early.1
  | polls calling =>
      rw [calling] at call
      refine sound.later.goesOn (.selecting _ _) ⟨call, Nat.lt_succ_self _⟩ fun c woken => ?_
      have early := (sound.closed c woken).2.call
      rw [calling] at early
      exact early
  | cancels calling => exact sound.later.goesOn _ trivial fun _ _ => trivial
  | released dropped => exact sound.later.phase .gone

/-- Waking the signal seals the subscription: every future that exists is now stale. -/
theorem Sound.wakes (sound : s.Sound now) (flagged : s.closed = true)
    : (s.wake now).Sound (now + 1) := by
  have call := sound.call
  have stale : ∀ c, now ≤ c → s.recv.Sealed (s.wakes + 1) c := by
    intro c later
    cases calling : s.recv with
    | idle | created g t => trivial
    | selecting g t => rw [calling] at call; exact Nat.lt_succ_of_le call.1
    | waiting g => rw [calling] at call; exact Nat.lt_succ_of_le call
    | receiving g t =>
        rw [calling] at call
        exact ⟨Nat.lt_succ_of_le call.1, Nat.lt_of_lt_of_le call.2 later⟩
  refine {
    accounted := sound.accounted
    bounded := sound.bounded
    call := ?_
    past := fun r returned => Nat.lt_succ_of_lt (sound.past r returned)
    closed := fun c woken => ?_ }
  · show s.recv.Past (now + 1) (s.wakes + 1)
    cases calling : s.recv with
    | idle => trivial
    | waiting g => rw [calling] at call; exact Nat.le_succ_of_le call
    | created g t | selecting g t | receiving g t =>
        rw [calling] at call
        exact ⟨Nat.le_succ_of_le call.1, Nat.lt_succ_of_lt call.2⟩
  · cases before : s.closedAt with
    | none =>
        have first : now = c := by simpa [wake, before] using woken
        subst first
        exact ⟨Nat.lt_succ_self _, flagged, stale _ le_rfl, fun r returned _ =>
          sound.past r returned⟩
    | some first =>
        have same : first = c := by simpa [wake, before] using woken
        subst same
        obtain ⟨recent, closing⟩ := sound.closed first before
        refine ⟨Nat.lt_succ_of_lt recent, flagged, ?_, closing.unread⟩
        have earlier := closing.call
        show s.recv.Sealed (s.wakes + 1) first
        cases calling : s.recv with
        | idle | created g t => trivial
        | selecting g t | waiting g => rw [calling] at earlier; exact Nat.lt_succ_of_lt earlier
        | receiving g t =>
            rw [calling] at earlier
            exact ⟨Nat.lt_succ_of_lt earlier.1, earlier.2⟩

/-- Whatever one step does to a subscription, it stays sound. -/
theorem Sound.changes (sound : s.Sound now) {live : Bool} (changed : s.Changes now live after)
    : after.Sound (now + 1) := by
  cases changed with
  | kept => exact sound.later
  | moved moved => exact sound.moves moved
  | dropped => exact sound.later.phase .dropping
  | pushed senders room => exact sound.later.pushes _ room
  | flagged =>
      have later := sound.later
      exact {
        accounted := later.accounted
        bounded := later.bounded
        call := later.call
        past := later.past
        closed := fun c woken =>
          have closing := (later.closed c woken).2
          ⟨(later.closed c woken).1, rfl, closing.call, closing.unread⟩ }
  | woken flagged => exact sound.wakes flagged

end Subscription

-----------------------------------------------------------------------------------------
-- The dispatch that closes

namespace Hub

variable {W : Type} {authority : Authority W} {s middle after : Hub W} {id : Nat}

theorem sound_of_reachable (reached : (system authority).Reachable s)
    : ∀ id < s.nextId, (s.subscriptions id).Sound s.time := by
  induction reached with
  | start starts => intro id known; rw [starts.nextId] at known; cases known
  | @step before _ reached stepped ih =>
      obtain ⟨acted, step, rfl⟩ := stepped
      have orderly := orderly_of_reachable reached
      intro id known
      show (acted.subscriptions id).Sound (acted.time + 1)
      rw [step.time]
      by_cases before : id < before.nextId
      · exact (ih id before).changes (step.changes orderly.flagged before)
      · obtain ⟨viewer, rfl, rfl⟩ := step.registers before known
        rw [subscriptions_register]
        exact .new _ _ _ _

/-- The dispatch in progress closes the subscription: it is for a revocation of its membership,
with the subscription registered, or it has found the membership without access, with the
subscription among those that were registered when the dispatch began.
-/
def Condemns (s : Hub W) (id : Nat) : Prop :=
  match s.listener with
  | .revoking v _ _ => id ∈ s.subscribers ∧ s.viewer id = v
  | .delivering d _ verdicts _ => id ∈ d.targets ∧ Lookup.NoAccess verdicts (s.viewer id)
  | _ => False

theorem Condemns.known (orderly : s.Orderly) (condemned : s.Condemns id) : id < s.nextId := by
  have held := orderly.listener
  unfold Condemns at condemned
  split at condemned
  · exact orderly.known id condemned.1
  · next busy =>
      rw [busy] at held
      exact held.orderly.known id condemned.1
  · exact condemned.elim

/-- Others leave the dispatch, and what it condemns, alone. -/
theorem Condemns.others (orderly : s.Orderly) (condemned : s.Condemns id)
    (stepped : ClientStep authority s after ∨ EnvironmentStep s after)
    : after.Condemns id := by
  have acted : Acts authority s after := stepped.elim .client .environment
  have same := acted.viewer orderly (condemned.known orderly)
  unfold Condemns at condemned ⊢
  rw [same_listener stepped]
  split at condemned
  · next busy =>
      refine ⟨?_, same.trans condemned.2⟩
      rw [locked_subscribers (by rw [busy]; rfl) stepped]
      exact condemned.1
  · exact ⟨condemned.1, same ▸ condemned.2⟩
  · exact condemned.elim

/-- The listener goes on with the dispatch until it has closed the subscription. -/
theorem Condemns.listens (orderly : s.Orderly) (condemned : s.Condemns id)
    (stepped : ListenerStep authority s after)
    : after.Condemns id ∧ after.dispatched = s.dispatched
      ∨ (s.subscriptions id).closedAt ≠ none := by
  have same := (Acts.listener stepped).viewer orderly (condemned.known orderly)
  have held := orderly.listener
  unfold Condemns at condemned
  cases stepped with
  | flags busy | wakes busy =>
      rw [busy] at condemned
      exact .inl ⟨⟨condemned.1, same.trans condemned.2⟩, rfl⟩
  | retains busy =>
      rw [busy] at condemned held
      exact .inr ((held.closed id condemned.1 condemned.2).resolve_left List.not_mem_nil)
  | decides busy undecided | cannotDecide busy undecided =>
      rw [busy] at condemned
      refine .inl ⟨⟨condemned.1, ?_⟩, rfl⟩
      have other : (s.viewer id).membershipId ≠ _ := fun own => by
        have known := condemned.2
        rw [Lookup.NoAccess, own, undecided] at known
        cases known
      exact (Lookup.insert_of_ne _ _ other).trans condemned.2
  | sends busy | shuts busy | awakens busy =>
      rw [busy] at condemned
      exact .inl ⟨⟨condemned.1, same ▸ condemned.2⟩, rfl⟩
  | overflows busy | skips busy | undecidable busy | unregisters busy =>
      rw [busy] at condemned
      exact .inl ⟨⟨condemned.1, condemned.2⟩, rfl⟩
  | delivered busy =>
      rw [busy] at condemned held
      exact .inr ((held.closed id condemned.1 condemned.2).resolve_left List.not_mem_nil)
  | ignores busy | takesRevocation busy | findsNobody busy | collects busy | acquireFails busy
  | removes busy | gaveUp busy | acquires busy | reconnects busy | fails busy | rebuilds busy
  | closesAfterReconnect busy | closesAfterFailure busy | closesAfterRebuild busy =>
      rw [busy] at condemned
      exact condemned.elim

/-- A close signal that has woken has woken for good. -/
theorem closedAt_stays (reached : (system authority).Reachable s) (known : id < s.nextId) {c : Nat}
    (woken : (s.subscriptions id).closedAt = some c) (run : (system authority).Leads s after)
    : (after.subscriptions id).closedAt = some c := by
  refine (run.keeps (P := fun at_ => id < at_.nextId ∧ (at_.subscriptions id).closedAt = some c)
    (fun before next reached held stepped => ?_) reached ⟨known, woken⟩).2
  obtain ⟨acted, step, rfl⟩ := stepped
  have changed := step.changes (orderly_of_reachable reached).flagged held.1
  exact ⟨Nat.lt_of_lt_of_le held.1 step.advances.nextId, changed.closedAt held.2⟩

/-- When the dispatch has ended, it has closed everything it condemned: by induction on the run,
the dispatch is still going on or has woken the signal.
-/
theorem Condemns.closed (reached : (system authority).Reachable s) (condemned : s.Condemns id)
    (run : (system authority).Leads s after) (ended : s.dispatched < after.dispatched)
    : ∃ c, (after.subscriptions id).closedAt = some c := by
  have begins := condemned.known (orderly_of_reachable reached)
  have reaches := run.keeps
    (P := fun at_ => id < at_.nextId ∧ ((at_.subscriptions id).closedAt ≠ none
      ∨ at_.Condemns id ∧ at_.dispatched = s.dispatched))
    (fun before next reached held stepped => ?_) reached ⟨begins, .inr ⟨condemned, rfl⟩⟩
  · refine Option.ne_none_iff_exists'.mp (reaches.2.resolve_right fun going => ?_)
    exact Nat.lt_irrefl _ (going.2 ▸ ended)
  · obtain ⟨acted, step, rfl⟩ := stepped
    have orderly := orderly_of_reachable reached
    refine ⟨Nat.lt_of_lt_of_le held.1 step.advances.nextId, ?_⟩
    have stays : (before.subscriptions id).closedAt ≠ none →
        (acted.subscriptions id).closedAt ≠ none := fun woken => by
      obtain ⟨c, first⟩ := Option.ne_none_iff_exists'.mp woken
      rw [(step.changes orderly.flagged held.1).closedAt first]
      exact Option.some_ne_none c
    rcases held.2 with woken | ⟨condemned, same⟩
    · exact .inl (stays woken)
    · rcases step.cases with others | listens
      · have going : acted.Condemns id := condemned.others orderly others
        exact .inr ⟨going, (same_history others).2.2.1.trans same⟩
      · rcases condemned.listens orderly listens with ⟨going, ended⟩ | woken
        · exact .inr ⟨going, ended.trans same⟩
        · exact .inl (stays woken)

/-- Once a dispatch that condemns a subscription has ended, no poll that begins later returns an
item.
-/
theorem Condemns.silences (reached : (system authority).Reachable s) (condemned : s.Condemns id)
    (run : (system authority).Leads s middle) (ended : s.dispatched < middle.dispatched)
    (later : (system authority).Leads middle after)
    : ∀ r ∈ (after.subscriptions id).returned, middle.time ≤ r.polledAt → r.value = none := by
  have known := Nat.lt_of_lt_of_le (condemned.known (orderly_of_reachable reached))
    (advances_of_leads run).nextId
  obtain ⟨c, woken⟩ := condemned.closed reached run ended
  have reachedMiddle := reached.leads run
  have recent : c < middle.time := ((sound_of_reachable reachedMiddle id known).closed c woken).1
  have still := closedAt_stays reachedMiddle known woken later
  have knownLater := Nat.lt_of_lt_of_le known (advances_of_leads later).nextId
  have closing := (sound_of_reachable (reachedMiddle.leads later) id knownLater).closed c still
  intro r returned polled
  by_contra item
  exact Nat.lt_irrefl _ ((closing.2.unread r returned item).trans (recent.trans_le polled))

end Hub

end FauPortalen.ChangeStream

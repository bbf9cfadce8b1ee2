import FauPortalen.Membership.ChangeStream.Closing

/-! A close that drains: without a sender a stream gives what is buffered and then `None`. A
listener that listens again takes the sender of everyone who was there before, and the dispatch
of a revocation that of everyone in the membership.
-/

set_option linter.unusedSectionVars false

namespace FauPortalen.ChangeStream

open FauPortalen.Foundations FauPortalen.Membership

/-- The listener has just begun to listen again, and is about to close every stream. -/
def Listener.listensAgain : Listener → Bool
  | .reconnected | .rebuilt => true
  | _ => false

namespace Hub

variable {W : Type} {authority : Authority W} {s after : Hub W} {id : Nat}

theorem live_iff : s.live id = true ↔ id ∈ s.subscribers ∨ id ∈ s.listener.clones := by
  simp [live]

/-- What has a sender has been registered. -/
theorem Orderly.live_known (orderly : s.Orderly) (alive : s.live id = true) : id < s.nextId := by
  have held := orderly.listener
  rcases live_iff.mp alive with listed | cloned
  · exact orderly.known id listed
  · cases busy : s.listener with
    | acquiring d | failing d rest =>
        rw [busy] at held cloned
        exact Dispatch.Orderly.known held id cloned
    | delivering d rest verdicts task =>
        rw [busy] at held cloned
        exact held.orderly.known id (held.suffix.subset cloned)
    | _ => rw [busy] at cloned; cases cloned

/-- The listener clones the senders of registered subscriptions only. -/
theorem ListenerStep.live (stepped : ListenerStep authority s after)
    (alive : after.live id = true)
    : s.live id = true := by
  rw [live_iff] at alive ⊢
  have listed : id ∈ after.subscribers → id ∈ s.subscribers := by
    intro listed
    cases stepped with
    | retains | removes | unregisters => exact List.mem_of_mem_filter listed
    | closesAfterReconnect | closesAfterFailure | closesAfterRebuild => cases listed
    | _ => exact listed
  refine alive.elim (fun old => .inl (listed old)) fun cloned => ?_
  cases stepped with
  | ignores => exact .inr cloned
  | collects => exact .inl (List.mem_of_mem_filter cloned)
  | acquireFails busy | removes busy | acquires busy | decides busy | cannotDecide busy
  | overflows busy | undecidable busy | shuts busy | awakens busy =>
      rw [busy]
      exact .inr cloned
  | sends busy | skips busy | unregisters busy =>
      rw [busy]
      exact .inr (List.mem_cons_of_mem _ cloned)
  | _ => cases cloned

/-- A sender exists after a step if it did before, or belongs to a new registration. -/
theorem Acts.live (acted : Acts authority s after) (alive : after.live id = true)
    : s.live id = true ∨ id = s.nextId ∧ ∃ viewer, after = s.register viewer := by
  rcases acted.cases with others | listens
  · rcases live_iff.mp alive with listed | cloned
    · rcases acted.subscribers with fewer | ⟨more, next⟩
      · exact .inl (live_iff.mpr (.inl (fewer.subset listed)))
      · rw [more] at listed
        rcases List.mem_append.mp listed with old | new
        · exact .inl (live_iff.mpr (.inl old))
        · obtain rfl := List.mem_singleton.mp new
          obtain ⟨viewer, -, made⟩ :=
            acted.registers (Nat.lt_irrefl _) (next ▸ Nat.lt_succ_self _)
          exact .inr ⟨rfl, viewer, made⟩
    · rw [same_listener others] at cloned
      exact .inl (live_iff.mpr (.inr cloned))
  · exact .inl (listens.live alive)

/-- A registered subscription without a sender never gets one again. -/
theorem senderless_stays (known : id < s.nextId) (senderless : s.live id = false)
    (run : (system authority).Leads s after)
    : after.live id = false := by
  suffices stays : id < after.nextId ∧ after.live id = false from stays.2
  induction run with
  | refl => exact ⟨known, senderless⟩
  | tail _ stepped ih =>
      obtain ⟨acted, step, rfl⟩ := stepped
      refine ⟨Nat.lt_of_lt_of_le ih.1 step.advances.nextId, ?_⟩
      change acted.live id = false
      by_contra alive
      rcases step.live (Bool.not_eq_false _ ▸ alive) with before | ⟨new, -⟩
      · rw [ih.2] at before
        cases before
      · exact Nat.lt_irrefl _ (new ▸ ih.1)

-----------------------------------------------------------------------------------------
-- Draining

/-- The stream of a subscription ends: it has no sender any more, what it returns from now on is
what is buffered in its order and then nothing, no poll is left waiting, and a client that goes
on polling comes to a `None`.
-/
structure Ends (authority : Authority W) (s : Hub W) (id : Nat) : Prop where
  senderless : ∀ after, (system authority).Leads s after → after.live id = false
  drains : ∀ after, (system authority).Leads s after →
    ∃ more, (after.subscriptions id).returned = (s.subscriptions id).returned ++ more
      ∧ more.filterMap Return.value ++ (after.subscriptions id).buffer
        = (s.subscriptions id).buffer
  answered : ∀ after next g t, (system authority).Leads s after → Acts authority after next →
    (after.subscriptions id).recv = .receiving g t → (next.subscriptions id).recv ≠ .waiting g
  comesToNone : ∀ after, (system authority).Leads s after →
    (after.subscriptions id).phase = .opened →
    ∃ last more t, (system authority).Leads after last
      ∧ (last.subscriptions id).returned = (after.subscriptions id).returned ++ more ++ [⟨none, t⟩]

/-- Without a sender nothing more is sent, and what has been returned stays. -/
theorem senderless_sent (reached : (system authority).Reachable s) (known : id < s.nextId)
    (senderless : s.live id = false) (run : (system authority).Leads s after)
    : (after.subscriptions id).sent = (s.subscriptions id).sent
      ∧ (s.subscriptions id).returned <+: (after.subscriptions id).returned := by
  induction run with
  | refl => exact ⟨rfl, List.prefix_rfl⟩
  | @tail before _ run stepped ih =>
      obtain ⟨acted, step, rfl⟩ := stepped
      have orderly := orderly_of_reachable (reached.leads run)
      have still := Nat.lt_of_lt_of_le known (advances_of_leads run).nextId
      have changed := step.changes orderly.flagged still
      rw [senderless_stays known senderless run] at changed
      exact ⟨changed.sent.trans ih.1, ih.2.trans changed.returned⟩

/-- One move of the client alone. -/
theorem client_moves {subscription : Subscription} (known : id < s.nextId)
    (moved : (s.subscriptions id).Moves s.time (authority.standing s.world (s.viewer id))
      (s.live id) subscription)
    : ∃ after, (system authority).Leads s after ∧ after.subscriptions id = subscription
      ∧ after.nextId = s.nextId ∧ after.live id = s.live id := by
  refine ⟨(s.set id subscription).tick, .single ⟨_, .client (.moves known moved), rfl⟩, ?_, rfl, rfl⟩
  exact (subscriptions_set s id id subscription).trans (if_pos rfl)

/-- From where it is, the client comes to a `None` by itself. -/
def ComesToNone (authority : Authority W) (s : Hub W) (id : Nat) : Prop :=
  ∃ last more t, (system authority).Leads s last
    ∧ (last.subscriptions id).returned = (s.subscriptions id).returned ++ more ++ [⟨none, t⟩]

/-- It does when it does after one more move, which returned something or nothing. -/
theorem ComesToNone.after_move {subscription : Subscription} (known : id < s.nextId)
    (moved : (s.subscriptions id).Moves s.time (authority.standing s.world (s.viewer id))
      (s.live id) subscription)
    (kept : (s.subscriptions id).returned <+: subscription.returned)
    (later : ∀ after : Hub W, after.subscriptions id = subscription → after.nextId = s.nextId →
      after.live id = s.live id → ComesToNone authority after id)
    : ComesToNone authority s id := by
  obtain ⟨after, run, made, nextId, live⟩ := client_moves known moved
  obtain ⟨last, more, t, rest, returned⟩ := later after made nextId live
  obtain ⟨first, grown⟩ := kept
  refine ⟨last, first ++ more, t, run.trans rest, ?_⟩
  rw [returned, made, ← grown, List.append_assoc _ first more]

/-- It does when its next move returns nothing. -/
theorem ComesToNone.now {t : Nat} (known : id < s.nextId)
    (moved : (s.subscriptions id).Moves s.time (authority.standing s.world (s.viewer id))
      (s.live id) ((s.subscriptions id).returns none t))
    : ComesToNone authority s id := by
  obtain ⟨after, run, made, -, -⟩ := client_moves known moved
  refine ⟨after, [], t, run, ?_⟩
  rw [made, List.append_nil]
  rfl

/-- An open subscription without a sender that has these buffered. -/
structure Draining (s : Hub W) (id : Nat) (buffer : List Resource) : Prop where
  known : id < s.nextId
  senderless : s.live id = false
  isOpen : (s.subscriptions id).phase = .opened
  buffered : (s.subscriptions id).buffer = buffer

/-- A move that leaves the buffer leaves the client to drain it. -/
theorem Draining.moves {buffer rest : List Resource} {subscription : Subscription}
    (draining : s.Draining id buffer) (made : after.subscriptions id = subscription)
    (nextId : after.nextId = s.nextId) (live : after.live id = s.live id)
    (isOpen : subscription.phase = .opened) (buffered : subscription.buffer = rest)
    : after.Draining id rest where
  known := nextId ▸ draining.known
  senderless := live.trans draining.senderless
  isOpen := made ▸ isOpen
  buffered := made ▸ buffered

/-- From any poll that has come to the channel with these buffered the client comes to `None`. -/
def ChannelEnds (authority : Authority W) (id : Nat) (buffer : List Resource) : Prop :=
  ∀ (s : Hub W) (g t : Nat), s.Draining id buffer → (s.subscriptions id).recv = .receiving g t →
    ComesToNone authority s id

theorem comesToNone_of_selecting {buffer : List Resource} (channel : ChannelEnds authority id buffer)
    (draining : s.Draining id buffer) {g t : Nat}
    (calling : (s.subscriptions id).recv = .selecting g t)
    : ComesToNone authority s id := by
  by_cases asleep : g = (s.subscriptions id).wakes
  · refine .after_move draining.known (.notNotified calling asleep) List.prefix_rfl ?_
    intro after made nextId live
    exact channel after g t (draining.moves made nextId live draining.isOpen draining.buffered)
      (by rw [made])
  · exact .now draining.known (.notified calling asleep)

theorem comesToNone_of_created {buffer : List Resource} (channel : ChannelEnds authority id buffer)
    (draining : s.Draining id buffer) {g t : Nat}
    (calling : (s.subscriptions id).recv = .created g t)
    : ComesToNone authority s id := by
  cases flagged : (s.subscriptions id).closed with
  | true => exact .now draining.known (.seesFlag calling flagged)
  | false =>
      refine .after_move draining.known (.seesNoFlag calling flagged) List.prefix_rfl ?_
      intro after made nextId live
      exact comesToNone_of_selecting channel
        (draining.moves made nextId live draining.isOpen draining.buffered) (by rw [made])

theorem comesToNone_of_idle {buffer : List Resource} (channel : ChannelEnds authority id buffer)
    (draining : s.Draining id buffer)
    (resting : (s.subscriptions id).recv = .idle)
    : ComesToNone authority s id := by
  refine .after_move draining.known (.recv draining.isOpen resting) List.prefix_rfl ?_
  intro after made nextId live
  exact comesToNone_of_created channel
    (draining.moves made nextId live draining.isOpen draining.buffered) (by rw [made])

theorem comesToNone_of_waiting {buffer : List Resource} (channel : ChannelEnds authority id buffer)
    (draining : s.Draining id buffer) {g : Nat}
    (calling : (s.subscriptions id).recv = .waiting g)
    : ComesToNone authority s id := by
  refine .after_move draining.known (.polls calling) List.prefix_rfl ?_
  intro after made nextId live
  exact comesToNone_of_selecting channel
    (draining.moves made nextId live draining.isOpen draining.buffered) (by rw [made])

/-- By induction on what is buffered: a poll takes the first item and the client calls again, or
it finds the end.
-/
theorem channelEnds (buffer : List Resource) : ChannelEnds authority id buffer := by
  induction buffer with
  | nil =>
      intro s g t draining calling
      exact .now draining.known (.ends calling draining.buffered draining.senderless)
  | cons resource rest ih =>
      intro s g t draining calling
      refine .after_move draining.known (.takes calling draining.buffered)
        (List.prefix_append _ _) ?_
      intro after made nextId live
      exact comesToNone_of_idle ih (draining.moves made nextId live draining.isOpen rfl)
        (by rw [made]; rfl)

/-- A client that holds an open subscription without a sender comes to a `None`, wherever its
recv is.
-/
theorem comesToNone (known : id < s.nextId) (senderless : s.live id = false)
    (isOpen : (s.subscriptions id).phase = .opened)
    : ComesToNone authority s id := by
  have draining : s.Draining id _ := ⟨known, senderless, isOpen, rfl⟩
  have channel : ChannelEnds authority id _ := channelEnds (s.subscriptions id).buffer
  cases calling : (s.subscriptions id).recv with
  | idle => exact comesToNone_of_idle channel draining calling
  | created g t => exact comesToNone_of_created channel draining calling
  | selecting g t => exact comesToNone_of_selecting channel draining calling
  | receiving g t => exact channel s g t draining calling
  | waiting g => exact comesToNone_of_waiting channel draining calling

/-- A subscription without a sender ends. -/
theorem ends_of_senderless (reached : (system authority).Reachable s) (known : id < s.nextId)
    (senderless : s.live id = false)
    : Ends authority s id where
  senderless after run := senderless_stays known senderless run
  drains after run := by
    obtain ⟨sent, more, grown⟩ := senderless_sent reached known senderless run
    refine ⟨more, grown.symm, ?_⟩
    have before := (sound_of_reachable reached id known).accounted
    have now := (sound_of_reachable (reached.leads run) id
      (Nat.lt_of_lt_of_le known (advances_of_leads run).nextId)).accounted
    have taken : (after.subscriptions id).taken
        = (s.subscriptions id).taken ++ more.filterMap Return.value := by
      rw [Subscription.taken, ← grown, List.filterMap_append]
      rfl
    rw [sent, ← before, taken, List.append_assoc] at now
    exact List.append_cancel_left now
  answered after next g t run acted calling := by
    have orderly := orderly_of_reachable (reached.leads run)
    have still := Nat.lt_of_lt_of_le known (advances_of_leads run).nextId
    have changed := acted.changes orderly.flagged still
    rw [senderless_stays known senderless run] at changed
    exact changed.answered calling
  comesToNone after run isOpen := by
    have still := Nat.lt_of_lt_of_le known (advances_of_leads run).nextId
    exact Hub.comesToNone still (senderless_stays known senderless run) isOpen

-----------------------------------------------------------------------------------------
-- Who loses their sender

/-- Unless the listener is about to close every stream, whoever has a sender was registered after
it last listened again.
-/
def Renewed (s : Hub W) : Prop :=
  s.listener.listensAgain = false → ∀ id, s.live id = true →
    (s.subscriptions id).opened = s.relistens

theorem renewed_of_reachable (reached : (system authority).Reachable s) : s.Renewed := by
  induction reached with
  | @start s starts =>
      intro _ id alive
      rw [live_iff, starts.subscribers, starts.listener] at alive
      exact alive.elim (fun listed => by cases listed) fun cloned => by cases cloned
  | @step before _ reached stepped ih =>
      obtain ⟨acted, step, rfl⟩ := stepped
      have orderly := orderly_of_reachable reached
      change acted.listener.listensAgain = false → ∀ id, acted.live id = true →
        (acted.subscriptions id).opened = acted.relistens
      -- a sender from before the step is one of its subscription
      have old : before.listener.listensAgain = false → acted.relistens = before.relistens →
          ∀ id, before.live id = true → (acted.subscriptions id).opened = acted.relistens := by
        intro quiet same id alive
        rw [same, (step.changes orderly.flagged (orderly.live_known alive)).opened]
        exact ih quiet id alive
      intro quiet id alive
      rcases step.cases with others | listens
      · have same := (same_history others).2.2.2
        rw [same_listener others] at quiet
        rcases step.live alive with known | ⟨rfl, viewer, rfl⟩
        · exact old quiet same id known
        · rw [subscriptions_register]
          rfl
      · have known := listens.live alive
        cases listens with
        | ignores busy | takesRevocation busy | flags busy | wakes busy | retains busy
        | findsNobody busy | collects busy | acquireFails busy | removes busy | gaveUp busy
        | acquires busy | decides busy | cannotDecide busy | sends busy | overflows busy
        | skips busy | undecidable busy | shuts busy | awakens busy | unregisters busy
        | delivered busy | fails busy => exact old (by rw [busy]; rfl) rfl id known
        | reconnects | rebuilds => cases quiet
        | closesAfterReconnect | closesAfterFailure | closesAfterRebuild =>
            rw [live_iff] at alive
            exact alive.elim (fun listed => by cases listed) fun cloned => by cases cloned

theorem viewer_stays (reached : (system authority).Reachable s) (known : id < s.nextId)
    (run : (system authority).Leads s after)
    : after.viewer id = s.viewer id := by
  induction run with
  | refl => rfl
  | @tail before _ run stepped ih =>
      obtain ⟨acted, step, rfl⟩ := stepped
      have still := Nat.lt_of_lt_of_le known (advances_of_leads run).nextId
      exact (step.viewer (orderly_of_reachable (reached.leads run)) still).trans ih

theorem opened_stays (reached : (system authority).Reachable s) (known : id < s.nextId)
    (run : (system authority).Leads s after)
    : (after.subscriptions id).opened = (s.subscriptions id).opened := by
  induction run with
  | refl => rfl
  | @tail before _ run stepped ih =>
      obtain ⟨acted, step, rfl⟩ := stepped
      have orderly := orderly_of_reachable (reached.leads run)
      have still := Nat.lt_of_lt_of_le known (advances_of_leads run).nextId
      exact (step.changes orderly.flagged still).opened.trans ih

/-- Once a listener that was lost listens again and has closed every stream, none that was opened
before has a sender.
-/
theorem renewed_senderless (reached : (system authority).Reachable s) (known : id < s.nextId)
    (run : (system authority).Leads s after) (again : s.relistens < after.relistens)
    (closed : after.listener.listensAgain = false)
    : after.live id = false := by
  by_contra alive
  have renewed := renewed_of_reachable (reached.leads run) closed id (Bool.not_eq_false _ ▸ alive)
  have early := (orderly_of_reachable reached).opened id known
  rw [opened_stays reached known run] at renewed
  exact Nat.not_lt_of_le early (renewed ▸ again)

/-- A revocation is closed one by one, and then takes all its subscriptions' senders at once. -/
theorem ListenerStep.revokes (stepped : ListenerStep authority s after) {v : Viewer}
    {rest : List Nat} {flagged : Bool} (revoking : s.listener = .revoking v rest flagged)
    : after.dispatched = s.dispatched ∧ (∃ rest flagged, after.listener = .revoking v rest flagged)
      ∨ ∀ id, s.viewer id = v → after.live id = false := by
  cases stepped with
  | flags busy | wakes busy =>
      cases revoking.symm.trans busy
      exact .inl ⟨rfl, _, _, rfl⟩
  | retains busy =>
      cases revoking.symm.trans busy
      refine .inr fun id own => ?_
      simp [Hub.live, finish, Listener.clones, own]
  | ignores busy | takesRevocation busy | findsNobody busy | collects busy | acquireFails busy
  | removes busy | gaveUp busy | acquires busy | decides busy | cannotDecide busy | sends busy
  | overflows busy | skips busy | undecidable busy | shuts busy | awakens busy | unregisters busy
  | delivered busy | reconnects busy | fails busy | rebuilds busy | closesAfterReconnect busy
  | closesAfterFailure busy | closesAfterRebuild busy => cases revoking.symm.trans busy

/-- When the dispatch of a revocation has ended, nobody in the membership who was there when it
began has a sender.
-/
theorem revoked_senderless (reached : (system authority).Reachable s) (known : id < s.nextId)
    {rest : List Nat} {flagged : Bool} (revoking : s.listener = .revoking (s.viewer id) rest flagged)
    (run : (system authority).Leads s after) (ended : s.dispatched < after.dispatched)
    : after.live id = false := by
  suffices reaches : after.live id = false ∨ after.dispatched = s.dispatched
      ∧ after.viewer id = s.viewer id
      ∧ ∃ rest flagged, after.listener = .revoking (s.viewer id) rest flagged from
    reaches.resolve_right fun going => Nat.lt_irrefl _ (going.1 ▸ ended)
  clear ended
  induction run with
  | refl => exact .inr ⟨rfl, rfl, rest, flagged, revoking⟩
  | @tail before _ run stepped ih =>
      have still := Nat.lt_of_lt_of_le known (advances_of_leads run).nextId
      rcases ih with senderless | ⟨same, viewer, rest, flagged, busy⟩
      · exact .inl (senderless_stays still senderless (.single stepped))
      · obtain ⟨acted, step, rfl⟩ := stepped
        have own : acted.viewer id = s.viewer id :=
          (step.viewer (orderly_of_reachable (reached.leads run)) still).trans viewer
        rcases step.cases with others | listens
        · refine .inr ⟨(same_history others).2.2.1.trans same, own, rest, flagged, ?_⟩
          exact (same_listener others).trans busy
        · rcases listens.revokes busy with ⟨still, going⟩ | senderless
          · exact .inr ⟨still.trans same, own, going⟩
          · exact .inl (senderless id viewer)

end Hub

end FauPortalen.ChangeStream

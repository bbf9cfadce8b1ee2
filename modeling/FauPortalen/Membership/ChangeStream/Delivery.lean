import FauPortalen.Membership.ChangeStream.Closing

/-! No leak and no gap: what is put into a subscription's buffer is what `authorize` allowed its
membership in the dispatches since it was registered, in their order and up to some point.
-/

set_option linter.unusedSectionVars false

namespace FauPortalen.ChangeStream

open FauPortalen.Foundations FauPortalen.Membership

/-- The subscriptions a delivery has still to come to. -/
def Listener.pending : Listener → List Nat
  | .acquiring d => d.targets
  | .delivering _ rest _ _ => rest
  | _ => []

/-- What the delivery in progress owes a subscription it has still to come to. -/
def Listener.owed (viewer : Viewer) : Listener → List Resource
  | .delivering d _ verdicts _ =>
      if verdicts viewer.membershipId = some (.decided (.ok ())) then [d.resource] else []
  | _ => []

namespace Hub

variable {W : Type} {authority : Authority W} {s after : Hub W} {id : Nat}

/-- An allowance is for this subscription: its membership's, in a dispatch begun since it was
registered.
-/
def concerns (s : Hub W) (id : Nat) (a : Allowance W) : Bool :=
  a.viewer = s.viewer id && (s.subscriptions id).since ≤ a.number

/-- The allowed resources dispatched since the subscription was registered. -/
def due (s : Hub W) (id : Nat) : List Resource :=
  (s.allowed.filter (s.concerns id)).map Allowance.resource

def sent (s : Hub W) (id : Nat) : List Resource := (s.subscriptions id).sent

/-- What a subscription was sent is a first part of what it is due. All of it, while it is
registered, but for what the delivery in progress owes those it has still to come to.
-/
structure Delivered (s : Hub W) : Prop where
  within : ∀ id < s.nextId, s.sent id <+: s.due id
  settled : ∀ id ∈ s.subscribers, id ∉ s.listener.pending → s.sent id = s.due id
  owing : ∀ id ∈ s.listener.pending, s.sent id ++ s.listener.owed (s.viewer id) = s.due id

/-- A dispatch has collected every registered subscription of its FAU that is older than it. -/
def Covered (s : Hub W) : Prop :=
  match s.listener with
  | .acquiring d | .failing d _ | .delivering d _ _ _ =>
      ∀ id ∈ s.subscribers, (s.viewer id).tenantId = d.tenantId →
        (s.subscriptions id).since ≤ d.number → id ∈ d.targets
  | _ => True

-----------------------------------------------------------------------------------------
-- What a dispatch covers

theorem Covered.others (covered : s.Covered) (orderly : s.Orderly)
    (stepped : ClientStep authority s after ∨ EnvironmentStep s after)
    : after.Covered := by
  have acted : Acts authority s after := stepped.elim .client .environment
  have held := orderly.listener
  have transfers : ∀ d : Dispatch, d.Orderly s →
      (∀ id ∈ s.subscribers, (s.viewer id).tenantId = d.tenantId →
        (s.subscriptions id).since ≤ d.number → id ∈ d.targets) →
      ∀ id ∈ after.subscribers, (after.viewer id).tenantId = d.tenantId →
        (after.subscriptions id).since ≤ d.number → id ∈ d.targets := by
    intro d dispatch covers id listed tenant early
    have old : id ∈ s.subscribers := by
      rcases acted.subscribers with fewer | ⟨more, next⟩
      · exact fewer.subset listed
      · rw [more] at listed
        rcases List.mem_append.mp listed with old | new
        · exact old
        · -- what is registered now came after the dispatch began
          obtain rfl := List.mem_singleton.mp new
          obtain ⟨viewer, -, rfl⟩ := acted.registers (Nat.lt_irrefl _) (next ▸ Nat.lt_succ_self _)
          rw [subscriptions_register] at early
          exact absurd (dispatch.last.trans_le early) (Nat.not_succ_le_self _)
    have known := orderly.known id old
    rw [acted.viewer orderly known] at tenant
    rw [(acted.changes orderly.flagged known).since] at early
    exact covers id old tenant early
  unfold Covered at covered ⊢
  rw [same_listener stepped]
  cases busy : s.listener with
  | acquiring d | failing d rest =>
      rw [busy] at covered held
      exact transfers d held covered
  | delivering d rest verdicts task =>
      rw [busy] at covered held
      exact transfers d held.orderly covered
  | _ => trivial

theorem Covered.listens (covered : s.Covered) (orderly : s.Orderly)
    (stepped : ListenerStep authority s after)
    : after.Covered := by
  have acted : Acts authority s after := .listener stepped
  have transfers : ∀ d : Dispatch, after.subscribers ⊆ s.subscribers →
      (∀ id ∈ s.subscribers, (s.viewer id).tenantId = d.tenantId →
        (s.subscriptions id).since ≤ d.number → id ∈ d.targets) →
      ∀ id ∈ after.subscribers, (after.viewer id).tenantId = d.tenantId →
        (after.subscriptions id).since ≤ d.number → id ∈ d.targets := by
    intro d fewer covers id listed tenant early
    have known := orderly.known id (fewer listed)
    rw [acted.viewer orderly known] at tenant
    rw [(acted.changes orderly.flagged known).since] at early
    exact covers id (fewer listed) tenant early
  unfold Covered at covered
  cases stepped with
  | ignores idle heard => exact idle ▸ trivial
  | collects idle heard somebody =>
      exact fun id listed tenant _ => mem_ofTenant.mpr ⟨listed, tenant⟩
  | acquireFails busy | acquires busy | decides busy | cannotDecide busy | sends busy
  | overflows busy | skips busy | undecidable busy | shuts busy | awakens busy =>
      rw [busy] at covered
      exact transfers _ (List.Subset.refl _) covered
  | removes busy | unregisters busy =>
      rw [busy] at covered
      exact transfers _ (fun _ => List.mem_of_mem_filter) covered
  | _ => trivial

-----------------------------------------------------------------------------------------
-- What is sent

theorem due_of_same (allowed : after.allowed = s.allowed) (viewer : after.viewer id = s.viewer id)
    (since : (after.subscriptions id).since = (s.subscriptions id).since)
    : after.due id = s.due id := by
  unfold due
  rw [allowed]
  refine congrArg _ (List.filter_congr fun a _ => ?_)
  simp only [concerns, viewer, since]

theorem same_sent (stepped : ClientStep authority s after ∨ EnvironmentStep s after)
    (known : id < s.nextId)
    : after.sent id = s.sent id := by
  have set_ : ∀ {other : Nat} {subscription : Subscription},
      subscription.sent = (s.subscriptions other).sent →
      ((s.set other subscription).subscriptions id).sent = s.sent id := by
    intro other subscription same
    rw [subscriptions_set]
    split
    · next here => rw [same, here]; rfl
    · rfl
  rcases stepped with stepped | stepped
  · cases stepped with
    | subscribes viewer unlocked =>
        show ((s.set s.nextId _).subscriptions id).sent = _
        rw [subscriptions_set, if_neg (Nat.ne_of_lt known)]
        rfl
    | moves known moved => exact set_ (by cases moved <;> rfl)
    | drops known unlocked held resting => exact @set_ _ _ rfl
  · cases stepped <;> rfl

/-- The listener works through subscriptions that were registered. -/
theorem Orderly.pending (orderly : s.Orderly) : ∀ id ∈ s.listener.pending, id < s.nextId := by
  have held := orderly.listener
  intro id left
  cases busy : s.listener with
  | acquiring d =>
      rw [busy] at held left
      exact held.known id left
  | delivering d rest verdicts task =>
      rw [busy] at held left
      exact held.orderly.known id (held.suffix.subset left)
  | _ => rw [busy] at left; cases left

/-- Nothing was sent or allowed, and nobody registered. -/
structure Quiet (s after : Hub W) : Prop where
  fewer : after.subscribers ⊆ s.subscribers
  nextId : after.nextId = s.nextId
  viewer : ∀ id < s.nextId, after.viewer id = s.viewer id
  sent : ∀ id < s.nextId, after.sent id = s.sent id
  due : ∀ id < s.nextId, after.due id = s.due id

theorem ListenerStep.quiet (orderly : s.Orderly) (stepped : ListenerStep authority s after)
    (allowed : after.allowed = s.allowed) (sent : ∀ id < s.nextId, after.sent id = s.sent id)
    : s.Quiet after := by
  have acted : Acts authority s after := .listener stepped
  have nextId : after.nextId = s.nextId := by cases stepped <;> rfl
  refine {
    fewer := ?_
    nextId := nextId
    viewer := fun id known => acted.viewer orderly known
    sent := sent
    due := fun id known => due_of_same allowed (acted.viewer orderly known)
      (acted.changes orderly.flagged known).since }
  rcases acted.subscribers with fewer | ⟨-, next⟩
  · exact fewer.subset
  · exact absurd (nextId.symm.trans next) (Nat.succ_ne_self _).symm

theorem sent_update (s : Hub W) (other : Nat) {f : Subscription → Subscription}
    (same : ∀ x, (f x).sent = x.sent)
    : (s.update other f).sent id = s.sent id := by
  change ((s.update other f).subscriptions id).sent = _
  rw [subscriptions_update]
  split
  · next here => rw [same, here]; rfl
  · rfl

/-- A quiet step keeps the account when the listener has nothing more to come to, and owes those
it is done with nothing.
-/
theorem Delivered.quiet (delivered : s.Delivered) (orderly : s.Orderly) (quiet : s.Quiet after)
    (fewer : after.listener.pending ⊆ s.listener.pending)
    (owes : ∀ id ∈ after.listener.pending,
      after.listener.owed (s.viewer id) = s.listener.owed (s.viewer id))
    (done : ∀ id ∈ after.subscribers, id ∉ after.listener.pending → id ∈ s.listener.pending →
      s.listener.owed (s.viewer id) = [])
    : after.Delivered where
  within id old := by
    rw [quiet.nextId] at old
    rw [quiet.sent id old, quiet.due id old]
    exact delivered.within id old
  settled id listed left := by
    have old := orderly.known id (quiet.fewer listed)
    rw [quiet.sent id old, quiet.due id old]
    by_cases before : id ∈ s.listener.pending
    · have owing := delivered.owing id before
      rwa [done id listed left before, List.append_nil] at owing
    · exact delivered.settled id (quiet.fewer listed) before
  owing id left := by
    have old := orderly.pending id (fewer left)
    rw [quiet.sent id old, quiet.due id old, quiet.viewer id old, owes id left]
    exact delivered.owing id (fewer left)

/-- The listener has nothing to come to after the step, and owed nothing before. -/
theorem Delivered.rests (delivered : s.Delivered) (orderly : s.Orderly) (quiet : s.Quiet after)
    (rests : after.listener.pending = [])
    (nothing : ∀ id ∈ s.listener.pending, s.listener.owed (s.viewer id) = [])
    : after.Delivered :=
  delivered.quiet orderly quiet (by rw [rests]; exact List.nil_subset _)
    (fun id left => by rw [rests] at left; cases left) fun id _ _ left => nothing id left

/-- The listener has the same to come to, and owes the same. -/
theorem Delivered.stays (delivered : s.Delivered) (orderly : s.Orderly) (quiet : s.Quiet after)
    (lists : after.listener.pending = s.listener.pending)
    (owes : ∀ viewer, after.listener.owed viewer = s.listener.owed viewer)
    : after.Delivered :=
  delivered.quiet orderly quiet (by rw [lists]; exact List.Subset.refl _) (fun _ _ => owes _)
    fun id _ gone left => absurd left (lists ▸ gone)

/-- The listener is done with the first subscription, which it owed nothing or has removed. -/
theorem Delivered.pops (delivered : s.Delivered) (orderly : s.Orderly) (quiet : s.Quiet after)
    {d : Dispatch} {rest : List Nat} {verdicts : Lookup Nat Verdict} {task : Task}
    (busy : s.listener = .delivering d (id :: rest) verdicts task)
    (popped : after.listener = .delivering d rest verdicts .next)
    (settled : id ∉ after.subscribers ∨ s.listener.owed (s.viewer id) = [])
    : after.Delivered := by
  refine delivered.quiet orderly quiet ?_ (fun _ _ => by rw [popped, busy]; rfl) ?_
  · rw [popped, busy]
    exact List.subset_cons_self _ _
  · intro other listed gone left
    rw [popped] at gone
    rw [busy] at left
    rcases List.mem_cons.mp left with rfl | still
    · exact settled.resolve_left fun removed => removed listed
    · exact absurd still gone

theorem Delivered.others (delivered : s.Delivered) (orderly : s.Orderly)
    (stepped : ClientStep authority s after ∨ EnvironmentStep s after)
    : after.Delivered := by
  have acted : Acts authority s after := stepped.elim .client .environment
  have sent : ∀ id < s.nextId, after.sent id = s.sent id := fun id known =>
    same_sent stepped known
  have due : ∀ id < s.nextId, after.due id = s.due id := fun id known =>
    due_of_same (same_history stepped).2.1 (acted.viewer orderly known)
      (acted.changes orderly.flagged known).since
  have fresh : ∀ id, ¬ id < s.nextId → id < after.nextId →
      after.sent id = [] ∧ after.due id = [] := by
    intro id new known
    obtain ⟨viewer, rfl, rfl⟩ := acted.registers new known
    have begins := subscriptions_register s viewer
    refine ⟨by rw [Hub.sent, begins]; rfl, ?_⟩
    -- every dispatch that allowed anything began before the registration
    unfold Hub.due
    rw [List.filter_eq_nil_iff.mpr fun a logged => ?_, List.map_nil]
    have early := orderly.numbered a logged
    simp only [concerns, begins, Subscription.new, Bool.and_eq_true, decide_eq_true_eq, not_and]
    omega
  refine {
    within := fun id known => ?_
    settled := fun id listed left => ?_
    owing := fun id left => ?_ }
  · by_cases old : id < s.nextId
    · rw [sent id old, due id old]
      exact delivered.within id old
    · rw [(fresh id old known).1]
      exact List.nil_prefix
  · rw [same_listener stepped] at left
    rcases acted.subscribers with fewer | ⟨more, next⟩
    · have before := fewer.subset listed
      rw [sent id (orderly.known id before), due id (orderly.known id before)]
      exact delivered.settled id before left
    · rw [more] at listed
      rcases List.mem_append.mp listed with before | new
      · rw [sent id (orderly.known id before), due id (orderly.known id before)]
        exact delivered.settled id before left
      · obtain rfl := List.mem_singleton.mp new
        have both := fresh s.nextId (Nat.lt_irrefl _) (next ▸ Nat.lt_succ_self _)
        rw [both.1, both.2]
  · rw [same_listener stepped] at left ⊢
    have known := orderly.pending id left
    rw [sent id known, due id known, acted.viewer orderly known]
    exact delivered.owing id left

/-- Sending the first subscription left what it is owed. -/
theorem Delivered.sends (delivered : s.Delivered) (orderly : s.Orderly) {d : Dispatch}
    {rest : List Nat} {verdicts : Lookup Nat Verdict}
    (busy : s.listener = .delivering d (id :: rest) verdicts .next)
    (allowed : verdicts (s.viewer id).membershipId = some (.decided (.ok ())))
    : ((s.update id (.push d.resource)).goes (.delivering d rest verdicts .next)).Delivered := by
  have held := orderly.listener
  rw [busy] at held
  have distinct : (id :: rest).Nodup := held.suffix.sublist.nodup held.orderly.nodup
  have owed : s.listener.owed (s.viewer id) = [d.resource] := by
    rw [busy]
    simp [Listener.owed, allowed]
  have pays : s.sent id ++ [d.resource] = s.due id := by
    rw [← owed]
    exact delivered.owing id (by rw [busy]; exact List.mem_cons_self)
  set after := (s.update id (.push d.resource)).goes (.delivering d rest verdicts .next) with made
  have sent : ∀ other, after.sent other = if other = id then s.due id else s.sent other := by
    intro other
    show ((s.update id (.push d.resource)).subscriptions other).sent = _
    rw [subscriptions_update]
    split
    · exact pays
    · rfl
  have viewer : ∀ other, after.viewer other = s.viewer other := by
    intro other
    show ((s.update id (.push d.resource)).subscriptions other).viewer = _
    rw [subscriptions_update]
    split
    · next same => rw [same]; rfl
    · rfl
  have due : ∀ other, after.due other = s.due other := by
    intro other
    refine due_of_same rfl (viewer other) ?_
    show ((s.update id (.push d.resource)).subscriptions other).since = _
    rw [subscriptions_update]
    split
    · next same => rw [same]; rfl
    · rfl
  refine {
    within := fun other known => ?_
    settled := fun other listed left => ?_
    owing := fun other left => ?_ }
  · rw [sent, due]
    split
    · next same => rw [same]
    · exact delivered.within other known
  · rw [sent, due]
    split
    · next same => rw [same]
    · next different =>
        refine delivered.settled other listed ?_
        rw [busy]
        exact fun before => (List.mem_cons.mp before).elim different left
  · have different : other ≠ id := fun same => (List.nodup_cons.mp distinct).1 (same ▸ left)
    rw [sent, due, if_neg different, viewer]
    have owing := delivered.owing other (by rw [busy]; exact List.mem_cons_of_mem _ left)
    rw [busy] at owing
    exact owing

/-- A decision that allows a delivery adds its resource to what the membership's subscriptions are
due and owed alike: all of them are still to come.
-/
theorem Delivered.decides (delivered : s.Delivered) (orderly : s.Orderly) (covered : s.Covered)
    {d : Dispatch} {rest : List Nat} {verdicts : Lookup Nat Verdict} {membershipId : Nat}
    (busy : s.listener = .delivering d rest verdicts .next)
    (undecided : verdicts membershipId = none)
    : (s.decide authority d rest verdicts membershipId).Delivered := by
  have held := orderly.listener
  rw [busy] at held
  unfold Covered at covered
  rw [busy] at covered
  set decision := authority.authorize s.world ⟨d.tenantId, membershipId⟩ d.resource with asked
  have due : ∀ id, (s.decide authority d rest verdicts membershipId).due id
      = s.due id ++ if decision = .ok () ∧ s.viewer id = ⟨d.tenantId, membershipId⟩
          ∧ (s.subscriptions id).since ≤ d.number then [d.resource] else [] := by
    intro id
    by_cases granted : decision = .ok ()
    · obtain ⟨a, made⟩ : ∃ a : Allowance W,
          a = ⟨d.number, ⟨d.tenantId, membershipId⟩, d.resource, s.world⟩ := ⟨_, rfl⟩
      have logged : (s.decide authority d rest verdicts membershipId).allowed = s.allowed ++ [a] := by
        rw [made]
        exact if_pos granted
      have unfolded : (s.decide authority d rest verdicts membershipId).due id
          = ((s.allowed ++ [a]).filter (s.concerns id)).map Allowance.resource := by
        rw [← logged]
        rfl
      have concerned : s.concerns id a = true ↔ s.viewer id = ⟨d.tenantId, membershipId⟩
          ∧ (s.subscriptions id).since ≤ d.number := by
        simp only [concerns, made, Bool.and_eq_true, decide_eq_true_eq]
        exact and_congr_left fun _ => eq_comm
      rw [unfolded, List.filter_append, List.map_append]
      refine congrArg (s.due id ++ ·) ?_
      by_cases own : s.concerns id a = true
      · rw [List.filter_cons_of_pos own, if_pos ⟨granted, concerned.mp own⟩, made]
        rfl
      · rw [List.filter_cons_of_neg own, if_neg fun both => own (concerned.mpr both.2)]
        rfl
    · have logged : (s.decide authority d rest verdicts membershipId).allowed = s.allowed :=
        if_neg granted
      rw [if_neg fun both => granted both.1, List.append_nil]
      exact due_of_same logged rfl rfl
  refine {
    within := fun id known => ?_
    settled := fun id listed left => ?_
    owing := fun id left => ?_ }
  · rw [due]
    exact (delivered.within id known).trans (List.prefix_append _ _)
  · have nothing : ¬(decision = .ok () ∧ s.viewer id = ⟨d.tenantId, membershipId⟩
        ∧ (s.subscriptions id).since ≤ d.number) := by
      -- a subscription of the membership would be a target, and undecided ones are still to come
      rintro ⟨-, own, early⟩
      have target := covered id listed (by rw [own]) early
      refine (held.decided id target).elim left fun known => known ?_
      rw [own]
      exact undecided
    rw [due, if_neg nothing, List.append_nil]
    exact delivered.settled id listed (by rw [busy]; exact left)
  · have target := held.suffix.subset left
    have owing := delivered.owing id (by rw [busy]; exact left)
    rw [busy] at owing
    by_cases own : (s.viewer id).membershipId = membershipId
    · have viewer : s.viewer id = ⟨d.tenantId, membershipId⟩ := by
        rw [← held.orderly.tenant id target, ← own]
      have nothing : Listener.owed (s.viewer id) (.delivering d rest verdicts .next) = [] := by
        simp [Listener.owed, own, undecided]
      have early := held.orderly.since id target
      rw [nothing, List.append_nil] at owing
      rw [due, ← owing]
      refine congrArg (s.sent id ++ ·) ?_
      change Listener.owed (s.viewer id)
        (.delivering d rest (verdicts.insert membershipId (.decided decision)) .next) = _
      simp [Listener.owed, viewer, early]
    · have other : s.viewer id ≠ ⟨d.tenantId, membershipId⟩ := fun same => own (by rw [same])
      rw [due, if_neg fun all => other all.2.1, List.append_nil, ← owing]
      refine congrArg (s.sent id ++ ·) ?_
      change Listener.owed (s.viewer id)
        (.delivering d rest (verdicts.insert membershipId (.decided decision)) .next) = _
      simp only [Listener.owed, Lookup.insert_of_ne _ _ own]

/-- What a dispatch collects has been sent all it is due. -/
theorem Delivered.collects (delivered : s.Delivered) (orderly : s.Orderly) (quiet : s.Quiet after)
    (idle : s.listener = .waiting) {d : Dispatch} (collected : d.targets ⊆ s.subscribers)
    (acquires : after.listener = .acquiring d)
    : after.Delivered := by
  have settled : ∀ id ∈ s.subscribers, after.sent id = after.due id := by
    intro id listed
    rw [quiet.sent id (orderly.known id listed), quiet.due id (orderly.known id listed)]
    exact delivered.settled id listed (by rw [idle]; exact List.not_mem_nil)
  refine {
    within := fun id old => ?_
    settled := fun id listed _ => settled id (quiet.fewer listed)
    owing := fun id left => ?_ }
  · rw [quiet.nextId] at old
    rw [quiet.sent id old, quiet.due id old]
    exact delivered.within id old
  · rw [acquires] at left ⊢
    exact (List.append_nil _).trans (settled id (collected left))

/-- The listener keeps the account. -/
theorem Delivered.listens (delivered : s.Delivered) (orderly : s.Orderly) (covered : s.Covered)
    (stepped : ListenerStep authority s after)
    : after.Delivered := by
  have quiet := stepped.quiet orderly
  have nothing : s.listener.pending = [] → ∀ id ∈ s.listener.pending,
      s.listener.owed (s.viewer id) = [] := fun none id left => by rw [none] at left; cases left
  cases stepped with
  | ignores busy =>
      exact delivered.stays orderly (quiet rfl fun _ _ => rfl) rfl fun _ => rfl
  | takesRevocation busy | retains busy | findsNobody busy | removes busy | gaveUp busy
  | delivered busy | reconnects busy | fails busy | rebuilds busy | closesAfterReconnect busy
  | closesAfterFailure busy | closesAfterRebuild busy =>
      exact delivered.rests orderly (quiet rfl fun _ _ => rfl) rfl (nothing (by rw [busy]; rfl))
  | flags busy =>
      exact delivered.rests orderly (quiet rfl fun _ _ => sent_update s _ fun _ => rfl) rfl
        (nothing (by rw [busy]; rfl))
  | wakes busy =>
      exact delivered.rests orderly (quiet rfl fun _ _ => sent_update s _ fun _ => rfl) rfl
        (nothing (by rw [busy]; rfl))
  | collects busy heard somebody =>
      exact delivered.collects orderly (quiet rfl fun _ _ => rfl) busy
        (fun _ => List.mem_of_mem_filter) rfl
  | acquireFails busy =>
      exact delivered.rests orderly (quiet rfl fun _ _ => rfl) rfl fun id _ => by rw [busy]; rfl
  | acquires busy =>
      exact delivered.stays orderly (quiet rfl fun _ _ => rfl) (by rw [busy]; rfl)
        fun _ => by rw [busy]; rfl
  | decides busy undecided => exact delivered.decides orderly covered busy undecided
  | @cannotDecide d other rest verdicts busy undecided =>
      refine delivered.stays orderly (quiet rfl fun _ _ => rfl) (by rw [busy]; rfl) fun viewer => ?_
      change Listener.owed viewer (.delivering d (other :: rest)
        (verdicts.insert (s.viewer other).membershipId .failed) .next) = _
      rw [busy]
      by_cases own : viewer.membershipId = (s.viewer other).membershipId
      · simp [Listener.owed, own, undecided]
      · simp only [Listener.owed, Lookup.insert_of_ne _ _ own]
  | sends busy allowed room => exact delivered.sends orderly busy allowed
  | overflows busy | undecidable busy =>
      exact delivered.stays orderly (quiet rfl fun _ _ => rfl) (by rw [busy]; rfl)
        fun _ => by rw [busy]; rfl
  | shuts busy =>
      exact delivered.stays orderly (quiet rfl fun _ _ => sent_update s _ fun _ => rfl)
        (by rw [busy]; rfl) fun _ => by rw [busy]; rfl
  | awakens busy =>
      exact delivered.stays orderly (quiet rfl fun _ _ => sent_update s _ fun _ => rfl)
        (by rw [busy]; rfl) fun _ => by rw [busy]; rfl
  | skips busy refused stands =>
      refine delivered.pops orderly (quiet rfl fun _ _ => rfl) busy rfl (.inr ?_)
      rw [busy]
      simp [Listener.owed, refused]
  | unregisters busy =>
      refine delivered.pops orderly (quiet rfl fun _ _ => rfl) busy rfl (.inl fun listed => ?_)
      exact absurd rfl (of_decide_eq_true (List.mem_filter.mp listed).2)

/-- By induction on the run. -/
theorem delivered_of_reachable (reached : (system authority).Reachable s)
    : s.Delivered ∧ s.Covered := by
  induction reached with
  | @start s starts =>
      refine ⟨⟨fun id known => ?_, fun id listed => ?_, fun id left => ?_⟩, ?_⟩
      · rw [starts.nextId] at known
        cases known
      · rw [starts.subscribers] at listed
        cases listed
      · rw [starts.listener] at left
        cases left
      · unfold Covered
        rw [starts.listener]
        trivial
  | step reached stepped ih =>
      obtain ⟨acted, step, rfl⟩ := stepped
      obtain ⟨delivered, covered⟩ := ih
      have orderly := orderly_of_reachable reached
      have next : acted.Delivered ∧ acted.Covered := by
        rcases step.cases with others | listens
        · exact ⟨delivered.others orderly others, covered.others orderly others⟩
        · exact ⟨delivered.listens orderly covered listens, covered.listens orderly listens⟩
      exact ⟨⟨next.1.within, next.1.settled, next.1.owing⟩, next.2⟩

/-- Every allowance in the log was given by `authorize`. -/
theorem allowed_of_reachable (reached : (system authority).Reachable s)
    : ∀ a ∈ s.allowed, authority.authorize a.world a.viewer a.resource = .ok () := by
  induction reached with
  | start starts =>
      intro a logged
      rw [starts.allowed] at logged
      cases logged
  | step _ stepped allowed =>
    obtain ⟨acted, step, rfl⟩ := stepped
    change ∀ a ∈ acted.allowed, _
    rcases step.cases with others | listens
    · rw [(same_history others).2.1]
      exact allowed
    · cases listens with
      | decides busy undecided =>
          intro a logged
          simp only [decide] at logged
          split at logged
          · next granted =>
              rcases List.mem_append.mp logged with before | now
              · exact allowed a before
              · rw [List.mem_singleton.mp now]
                exact granted
          · exact allowed a logged
      | _ => exact allowed

end Hub

end FauPortalen.ChangeStream

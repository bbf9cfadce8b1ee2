import FauPortalen.Membership.ChangeStream.Steps

/-! The registry and the listener's lists are in order: ids are new when they are given out, a
dispatch works through subscriptions that its FAU had when it began, and a close signal is
flagged before it wakes.
-/

set_option linter.unusedSectionVars false

namespace FauPortalen.ChangeStream

open FauPortalen.Foundations FauPortalen.Membership

variable {W : Type} {authority : Authority W} {s after : Hub W}

/-- Nothing new was begun, and the registered subscriptions kept their viewers and whatever part
of a close they had.
-/
structure Hub.Keeps (s after : Hub W) : Prop where
  begun : after.begun = s.begun
  nextId : s.nextId ≤ after.nextId
  viewer : ∀ id < s.nextId, after.viewer id = s.viewer id
  since : ∀ id < s.nextId, (after.subscriptions id).since = (s.subscriptions id).since
  closed : ∀ id < s.nextId, (s.subscriptions id).closed = true →
    (after.subscriptions id).closed = true
  closedAt : ∀ id < s.nextId, (s.subscriptions id).closedAt ≠ none →
    (after.subscriptions id).closedAt ≠ none

theorem Hub.Keeps.of_changes (begun : after.begun = s.begun) (nextId : s.nextId ≤ after.nextId)
    (changed : ∀ id < s.nextId,
      (s.subscriptions id).Changes s.time (s.live id) (after.subscriptions id))
    : s.Keeps after where
  begun := begun
  nextId := nextId
  viewer id known := (changed id known).viewer
  since id known := (changed id known).since
  closed id known := (changed id known).closed
  closedAt id known woken := by
    obtain ⟨c, first⟩ := Option.ne_none_iff_exists'.mp woken
    rw [(changed id known).closedAt first]
    exact Option.some_ne_none c

/-- The dispatch is the last one begun, and collected subscriptions of its FAU. -/
structure Dispatch.Orderly (s : Hub W) (d : Dispatch) : Prop where
  last : d.number + 1 = s.begun
  nodup : d.targets.Nodup
  known : ∀ id ∈ d.targets, id < s.nextId
  tenant : ∀ id ∈ d.targets, (s.viewer id).tenantId = d.tenantId
  since : ∀ id ∈ d.targets, (s.subscriptions id).since ≤ d.number

theorem Dispatch.Orderly.mono {d : Dispatch} (orderly : d.Orderly s) (kept : s.Keeps after)
    : d.Orderly after where
  last := kept.begun ▸ orderly.last
  nodup := orderly.nodup
  known id target := Nat.lt_of_lt_of_le (orderly.known id target) kept.nextId
  tenant id target := by
    rw [kept.viewer id (orderly.known id target)]
    exact orderly.tenant id target
  since id target := by
    rw [kept.since id (orderly.known id target)]
    exact orderly.since id target

-----------------------------------------------------------------------------------------
-- A revocation being dispatched

/-- Everyone the revocation is for is still to be closed, or has been. -/
structure Revoking (s : Hub W) (v : Viewer) (rest : List Nat) (flagged : Bool) : Prop where
  listed : ∀ id ∈ rest, id ∈ s.subscribers ∧ s.viewer id = v
  flagged : flagged = true → ∀ id ∈ rest.head?, (s.subscriptions id).closed = true
  closed : ∀ id ∈ s.subscribers, s.viewer id = v →
    id ∈ rest ∨ (s.subscriptions id).closedAt ≠ none

theorem Revoking.mono {v : Viewer} {rest : List Nat} {flagged : Bool}
    (revoking : Revoking s v rest flagged) (kept : s.Keeps after)
    (known : ∀ id ∈ s.subscribers, id < s.nextId) (locked : after.subscribers = s.subscribers)
    : Revoking after v rest flagged where
  listed id left := by
    have listed := revoking.listed id left
    rw [locked, kept.viewer id (known id listed.1)]
    exact listed
  flagged flag id first :=
    have listed := revoking.listed id (List.mem_of_mem_head? first)
    kept.closed id (known id listed.1) (revoking.flagged flag id first)
  closed id listed own := by
    rw [locked] at listed
    rw [kept.viewer id (known id listed)] at own
    exact (revoking.closed id listed own).imp_right (kept.closedAt id (known id listed))

-----------------------------------------------------------------------------------------
-- A change being delivered

/-- The membership has no access by the verdicts. -/
def Lookup.NoAccess (verdicts : Lookup Nat Verdict) (viewer : Viewer) : Prop :=
  verdicts viewer.membershipId = some (.decided (.error .noAccess))

/-- A delivery has decided about every subscription it is done with, and has closed those without
access.
-/
structure Delivering (s : Hub W) (d : Dispatch) (rest : List Nat)
    (verdicts : Lookup Nat Verdict) (task : Task) : Prop where
  orderly : d.Orderly s
  suffix : rest <:+ d.targets
  flagged : task = .wake → ∀ id ∈ rest.head?, (s.subscriptions id).closed = true
  decided : ∀ id ∈ d.targets, id ∈ rest ∨ verdicts (s.viewer id).membershipId ≠ none
  first : task ≠ .next → ∀ id ∈ rest.head?, verdicts (s.viewer id).membershipId ≠ none
  closed : ∀ id ∈ d.targets, Lookup.NoAccess verdicts (s.viewer id) →
    id ∈ rest ∨ (s.subscriptions id).closedAt ≠ none
  shut : task = .unregister → ∀ id ∈ rest.head?, Lookup.NoAccess verdicts (s.viewer id) →
    (s.subscriptions id).closedAt ≠ none

namespace Delivering

variable {d : Dispatch} {id : Nat} {rest : List Nat} {verdicts : Lookup Nat Verdict} {task : Task}

theorem target (delivering : Delivering s d rest verdicts task) {id : Nat} (first : id ∈ rest.head?)
    : id ∈ d.targets :=
  delivering.suffix.subset (List.mem_of_mem_head? first)

theorem mono (delivering : Delivering s d rest verdicts task) (kept : s.Keeps after)
    : Delivering after d rest verdicts task where
  orderly := delivering.orderly.mono kept
  suffix := delivering.suffix
  flagged wake id first :=
    kept.closed id (delivering.orderly.known id (delivering.target first))
      (delivering.flagged wake id first)
  decided id target := by
    rw [kept.viewer id (delivering.orderly.known id target)]
    exact delivering.decided id target
  first busy id first := by
    rw [kept.viewer id (delivering.orderly.known id (delivering.target first))]
    exact delivering.first busy id first
  closed id target noAccess := by
    have known := delivering.orderly.known id target
    rw [kept.viewer id known] at noAccess
    exact (delivering.closed id target noAccess).imp_right (kept.closedAt id known)
  shut busy id first noAccess := by
    have known := delivering.orderly.known id (delivering.target first)
    rw [kept.viewer id known] at noAccess
    exact kept.closedAt id known (delivering.shut busy id first noAccess)

/-- A delivery begins with nothing decided. -/
theorem begins (orderly : d.Orderly s) : Delivering s d d.targets .empty .next where
  orderly := orderly
  suffix := List.suffix_rfl
  flagged wake := by cases wake
  decided _ target := .inl target
  first busy := absurd rfl busy
  closed _ _ noAccess := by cases noAccess
  shut busy := by cases busy

/-- The first subscription is done with once it is decided about, and closed if it must be. -/
theorem pops (delivering : Delivering s d (id :: rest) verdicts task)
    (decided : verdicts (s.viewer id).membershipId ≠ none)
    (closed : Lookup.NoAccess verdicts (s.viewer id) → (s.subscriptions id).closedAt ≠ none)
    : Delivering s d rest verdicts .next where
  orderly := delivering.orderly
  suffix := (List.suffix_cons _ _).trans delivering.suffix
  flagged wake := by cases wake
  decided other target := by
    rcases delivering.decided other target with left | done
    · rcases List.mem_cons.mp left with rfl | left
      · exact .inr decided
      · exact .inl left
    · exact .inr done
  first busy := absurd rfl busy
  closed other target noAccess := by
    rcases delivering.closed other target noAccess with left | done
    · rcases List.mem_cons.mp left with rfl | left
      · exact .inr (closed noAccess)
      · exact .inl left
    · exact .inr done
  shut busy := by cases busy

/-- A verdict about a membership nobody has asked about yet: all its subscriptions are still
left.
-/
theorem learns (delivering : Delivering s d rest verdicts .next) {membershipId : Nat}
    (undecided : verdicts membershipId = none) (verdict : Verdict)
    : Delivering s d rest (verdicts.insert membershipId verdict) .next where
  orderly := delivering.orderly
  suffix := delivering.suffix
  flagged wake := by cases wake
  decided other target := by
    refine (delivering.decided other target).imp_right fun done => ?_
    rw [Lookup.insert_apply]
    split
    · exact Option.some_ne_none _
    · exact done
  first busy := absurd rfl busy
  closed other target noAccess := by
    by_cases own : (s.viewer other).membershipId = membershipId
    · refine .inl ((delivering.decided other target).resolve_right fun done => ?_)
      rw [own] at done
      exact done undecided
    · rw [Lookup.NoAccess, Lookup.insert_of_ne _ _ own] at noAccess
      exact delivering.closed other target noAccess
  shut busy := by cases busy

/-- The next task for the first subscription, which has been decided about. -/
theorem turns (delivering : Delivering s d (id :: rest) verdicts task) (turn : Task)
    (decided : verdicts (s.viewer id).membershipId ≠ none)
    (flagged : turn = .wake → (s.subscriptions id).closed = true)
    (shut : turn = .unregister → Lookup.NoAccess verdicts (s.viewer id) →
      (s.subscriptions id).closedAt ≠ none)
    : Delivering s d (id :: rest) verdicts turn where
  orderly := delivering.orderly
  suffix := delivering.suffix
  flagged wake other first := by cases first; exact flagged wake
  decided := delivering.decided
  first _ other first := by cases first; exact decided
  closed := delivering.closed
  shut busy other first := by cases first; exact shut busy

end Delivering

-----------------------------------------------------------------------------------------
-- Everything together

/-- What the listener holds is in order. -/
def Listener.Orderly (s : Hub W) : Listener → Prop
  | .revoking v rest flagged => Revoking s v rest flagged
  | .acquiring d | .failing d _ => d.Orderly s
  | .delivering d rest verdicts task => Delivering s d rest verdicts task
  | _ => True

namespace Hub

structure Orderly (s : Hub W) : Prop where
  nodup : s.subscribers.Nodup
  known : ∀ id ∈ s.subscribers, id < s.nextId
  since : ∀ id < s.nextId, (s.subscriptions id).since ≤ s.begun
  opened : ∀ id < s.nextId, (s.subscriptions id).opened ≤ s.relistens
  numbered : ∀ a ∈ s.allowed, a.number < s.begun
  listener : s.listener.Orderly s

/-- A close or a delivery that is to wake a signal has flagged it. -/
theorem Orderly.flagged (orderly : s.Orderly) : s.Flagged := by
  have held := orderly.listener
  unfold Flagged
  split
  · next busy =>
      rw [busy] at held
      exact held.flagged rfl _ rfl
  · next busy =>
      rw [busy] at held
      exact held.flagged rfl _ rfl
  · trivial

theorem Orderly.keeps (orderly : s.Orderly) (acted : Acts authority s after)
    (begun : after.begun = s.begun)
    : s.Keeps after :=
  .of_changes begun acted.advances.nextId fun _ known => acted.changes orderly.flagged known

theorem Acts.viewer (acted : Acts authority s after) (orderly : s.Orderly) {id : Nat}
    (known : id < s.nextId)
    : after.viewer id = s.viewer id :=
  (acted.changes orderly.flagged known).viewer

/-- What the listener holds stays in order while others step. -/
theorem Orderly.others (orderly : s.Orderly)
    (stepped : ClientStep authority s after ∨ EnvironmentStep s after)
    : after.listener.Orderly after := by
  have kept := orderly.keeps (stepped.elim .client .environment) (same_history stepped).1
  have held := orderly.listener
  rw [same_listener stepped]
  cases busy : s.listener with
  | revoking v rest flagged =>
      rw [busy] at held
      exact Revoking.mono held kept orderly.known (locked_subscribers (by rw [busy]; rfl) stepped)
  | acquiring d | failing d rest =>
      rw [busy] at held
      exact Dispatch.Orderly.mono held kept
  | delivering d rest verdicts task =>
      rw [busy] at held
      exact Delivering.mono held kept
  | _ => trivial

/-- What a dispatch collects: everyone the FAU has. -/
theorem Orderly.collected (orderly : s.Orderly) (tenantId : Nat) (resource : Resource)
    (begun : after.begun = s.begun + 1) (nextId : after.nextId = s.nextId)
    (same : after.subscriptions = s.subscriptions)
    : (⟨tenantId, resource, s.begun, s.ofTenant tenantId⟩ : Dispatch).Orderly after where
  last := begun.symm
  nodup := orderly.nodup.filter _
  known id target := nextId ▸ orderly.known id (List.mem_of_mem_filter target)
  tenant id target := by
    rw [viewer, same]
    exact (mem_ofTenant.mp target).2
  since id target := by
    rw [same]
    exact orderly.since id (orderly.known id (List.mem_of_mem_filter target))

theorem flagged_update (s : Hub W) (id : Nat)
    : ((s.update id .flag).subscriptions id).closed = true := by
  rw [subscriptions_update, if_pos rfl]
  rfl

theorem woken_update (s : Hub W) (id : Nat)
    : ((s.update id (.wake s.time)).subscriptions id).closedAt ≠ none := by
  rw [subscriptions_update, if_pos rfl]
  exact Option.some_ne_none _

/-- The listener leaves what it holds in order. -/
theorem Orderly.listens (orderly : s.Orderly) (stepped : ListenerStep authority s after)
    : after.listener.Orderly after := by
  have kept : after.begun = s.begun → s.Keeps after := orderly.keeps (.listener stepped)
  have held := orderly.listener
  cases stepped with
  | ignores idle heard => exact idle ▸ trivial
  | takesRevocation idle heard =>
      exact {
        listed := fun id left => mem_ofViewer.mp left
        flagged := fun flag => by cases flag
        closed := fun id listed own => .inl (mem_ofViewer.mpr ⟨listed, own⟩) }
  | @flags v id rest busy =>
      rw [busy] at held
      have revoking := Revoking.mono held (kept rfl) orderly.known rfl
      exact { revoking with
        flagged := fun _ other first => by
          cases first
          exact flagged_update s id }
  | @wakes v id rest busy =>
      rw [busy] at held
      have revoking := Revoking.mono held (kept rfl) orderly.known rfl
      exact {
        listed := fun other left => revoking.listed other (List.mem_cons_of_mem _ left)
        flagged := fun flag => by cases flag
        closed := fun other listed own => by
          rcases revoking.closed other listed own with left | done
          · rcases List.mem_cons.mp left with rfl | left
            · exact .inr (woken_update s other)
            · exact .inl left
          · exact .inr done }
  | collects idle heard somebody =>
      exact orderly.collected _ _ rfl rfl rfl
  | acquireFails busy =>
      rw [busy] at held
      exact Dispatch.Orderly.mono held (kept rfl)
  | acquires busy =>
      rw [busy] at held
      exact Delivering.begins (Dispatch.Orderly.mono held (kept rfl))
  | removes busy =>
      rw [busy] at held
      exact Dispatch.Orderly.mono held (kept rfl)
  | decides busy undecided =>
      rw [busy] at held
      exact (Delivering.mono held (kept rfl)).learns undecided _
  | cannotDecide busy undecided =>
      rw [busy] at held
      exact (Delivering.mono held (kept rfl)).learns undecided _
  | @sends d id rest verdicts busy allowed room =>
      rw [busy] at held
      have same := (kept rfl).viewer id (held.orderly.known id (held.target rfl))
      refine (Delivering.mono held (kept rfl)).pops ?_ fun noAccess => ?_
      · rw [same, allowed]
        exact Option.some_ne_none _
      · rw [Lookup.NoAccess, same, allowed] at noAccess
        cases noAccess
  | overflows busy allowed noRoom =>
      rw [busy] at held
      refine (Delivering.mono held (kept rfl)).turns .unregister ?_ (fun wake => by cases wake)
        fun _ noAccess => ?_
      · exact Option.ne_none_iff_exists'.mpr ⟨_, allowed⟩
      · cases allowed.symm.trans noAccess
  | undecidable busy failed =>
      rw [busy] at held
      refine (Delivering.mono held (kept rfl)).turns .unregister ?_ (fun wake => by cases wake)
        fun _ noAccess => ?_
      · exact Option.ne_none_iff_exists'.mpr ⟨_, failed⟩
      · cases failed.symm.trans noAccess
  | skips busy refused stands =>
      rw [busy] at held
      refine (Delivering.mono held (kept rfl)).pops ?_ fun noAccess => ?_
      · exact Option.ne_none_iff_exists'.mpr ⟨_, refused⟩
      · cases refused.symm.trans noAccess
        rcases stands with stands | stands <;> cases stands
  | @shuts d id rest verdicts busy noAccess =>
      rw [busy] at held
      have same := (kept rfl).viewer id (held.orderly.known id (held.target rfl))
      refine (Delivering.mono held (kept rfl)).turns .wake ?_ (fun _ => flagged_update s id)
        fun other => by cases other
      rw [same, noAccess]
      exact Option.some_ne_none _
  | @awakens d id rest verdicts busy =>
      rw [busy] at held
      have delivering := Delivering.mono held (kept rfl)
      exact delivering.turns .unregister (delivering.first (by simp) id rfl)
        (fun wake => by cases wake) fun _ _ => woken_update s id
  | unregisters busy =>
      rw [busy] at held
      have delivering := Delivering.mono held (kept rfl)
      exact delivering.pops (delivering.first (by simp) _ rfl) (delivering.shut rfl _ rfl)
  | _ => trivial

/-- A new subscription begins with the counters of the moment, and the others keep theirs. -/
theorem Orderly.history (orderly : s.Orderly) (acted : Acts authority s after)
    : (∀ id < after.nextId, (after.subscriptions id).since ≤ after.begun)
      ∧ ∀ id < after.nextId, (after.subscriptions id).opened ≤ after.relistens := by
  have old : ∀ id < s.nextId, (after.subscriptions id).since ≤ after.begun
      ∧ (after.subscriptions id).opened ≤ after.relistens := by
    intro id known
    have changed := acted.changes orderly.flagged known
    rw [changed.since, changed.opened]
    exact ⟨(orderly.since id known).trans acted.advances.begun,
      (orderly.opened id known).trans acted.advances.relistens⟩
  rw [← forall₂_and]
  intro id known
  by_cases before : id < s.nextId
  · exact old id before
  · obtain ⟨viewer, rfl, rfl⟩ := acted.registers before known
    rw [subscriptions_register]
    exact ⟨le_rfl, le_rfl⟩

/-- A decision is logged under the number of its dispatch, and nothing else is. -/
theorem Orderly.logs (orderly : s.Orderly) (acted : Acts authority s after)
    : ∀ a ∈ after.allowed, a.number < after.begun := by
  have old : ∀ a ∈ s.allowed, a.number < after.begun := fun a logged =>
    Nat.lt_of_lt_of_le (orderly.numbered a logged) acted.advances.begun
  rcases acted.cases with others | stepped
  · rw [(same_history others).2.1]
    exact old
  · cases stepped with
    | decides busy undecided =>
        have held := orderly.listener
        rw [busy] at held
        intro a logged
        simp only [decide] at logged
        split at logged
        · rcases List.mem_append.mp logged with before | now
          · exact old a before
          · rw [List.mem_singleton.mp now]
            exact Nat.lt_of_succ_le held.orderly.last.le
        · exact old a logged
    | _ => exact old

/-- One step of anyone keeps everything in order. -/
theorem Orderly.step (orderly : s.Orderly) (acted : Acts authority s after) : after.Orderly where
  nodup := by
    rcases acted.subscribers with fewer | ⟨more, -⟩
    · exact fewer.nodup orderly.nodup
    · rw [more, List.nodup_append_comm, List.singleton_append, List.nodup_cons]
      exact ⟨fun listed => Nat.lt_irrefl _ (orderly.known _ listed), orderly.nodup⟩
  known := by
    rcases acted.subscribers with fewer | ⟨more, next⟩
    · exact fun id listed =>
        Nat.lt_of_lt_of_le (orderly.known id (fewer.subset listed)) acted.advances.nextId
    · rw [more, next]
      intro id listed
      rcases List.mem_append.mp listed with before | new
      · exact Nat.lt_succ_of_lt (orderly.known id before)
      · rw [List.mem_singleton.mp new]
        exact Nat.lt_succ_self _
  since := (orderly.history acted).1
  opened := (orderly.history acted).2
  numbered := orderly.logs acted
  listener := acted.cases.elim orderly.others orderly.listens

theorem Orderly.tick (orderly : s.Orderly) : s.tick.Orderly where
  nodup := orderly.nodup
  known := orderly.known
  since := orderly.since
  opened := orderly.opened
  numbered := orderly.numbered
  listener := by
    have kept : s.Keeps s.tick :=
      ⟨rfl, le_rfl, fun _ _ => rfl, fun _ _ => rfl, fun _ _ => id, fun _ _ => id⟩
    have held := orderly.listener
    show s.listener.Orderly s.tick
    cases busy : s.listener with
    | acquiring d | failing d rest =>
        rw [busy] at held
        exact Dispatch.Orderly.mono held kept
    | delivering d rest verdicts task =>
        rw [busy] at held
        exact Delivering.mono held kept
    | revoking v rest flagged =>
        rw [busy] at held
        exact Revoking.mono held kept orderly.known rfl
    | _ => trivial

/-- By induction on the run. -/
theorem orderly_of_reachable (reached : (system authority).Reachable s) : s.Orderly := by
  refine reached.keeps (fun s starts => ?_) fun s after orderly stepped => ?_
  · exact {
      nodup := by rw [starts.subscribers]; exact List.nodup_nil
      known := fun id listed => by rw [starts.subscribers] at listed; cases listed
      since := fun id known => by rw [starts.nextId] at known; cases known
      opened := fun id known => by rw [starts.nextId] at known; cases known
      numbered := fun a logged => by rw [starts.allowed] at logged; cases logged
      listener := by rw [starts.listener]; trivial }
  · obtain ⟨acted, step, rfl⟩ := stepped
    exact (orderly.step step).tick

end Hub

end FauPortalen.ChangeStream

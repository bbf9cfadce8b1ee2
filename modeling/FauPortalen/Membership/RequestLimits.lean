import FauPortalen.Membership.Invariants

/-! The limits on access requests, and their finality, whatever the lapse sweep does between the
statements of the transactions that create and decide them.
-/

set_option linter.unusedSectionVars false

namespace FauPortalen.Membership

open Foundations Transaction

section

variable [OsloZone]

-----------------------------------------------------------------------------------------
-- Interleavings

/-- The transaction that holds the tenant lock, between its two parts. -/
inductive Underway
  | idle
  | creates (new : Admitted)
  | approves (decision : RequestDecision) (request : AccessRequest) (roles : List OfferedRole)
      (moment : Moment)
  | declines (decision : RequestDecision) (moment : Moment)

/-- The request whose row the transaction has locked. -/
def Underway.locked : Underway → Option Nat
  | idle | creates _ => none
  | approves decision _ _ _ | declines decision _ => some decision.requestId

structure RequestState where
  tables : Tables
  underway : Underway

inductive RequestEvent
  | operates (op : Operation) (moment : Moment)
  | createsAccessRequest (req : CreateAccessRequest) (moment : Moment)
  | createsReplacementProposal (req : CreateReplacementProposal) (moment : Moment)
  | approves (decision : RequestDecision) (roles : List OfferedRole) (moment : Moment)
  | declines (decision : RequestDecision) (moment : Moment)
  | finishes
  | abandons
  | lapses (moment : Moment)
  | outside

/-- The request is pending and older than the sweep lets it be. -/
def AccessRequest.due (ar : AccessRequest) (moment : Moment) : Bool :=
  ar.status = .pending && ar.createdOn ≤ lapseCutoff moment.today

/-- The second part of the transaction under way. -/
def Underway.Finishes (underway : Underway) (s after : Tables) : Prop :=
  match underway with
  | idle => False
  | creates new => Leaves (insertRequest new.id new.row) s after
  | approves decision request roles moment =>
      Leaves (finishApproval decision request roles moment) s after
  | declines decision moment => Leaves (closeRequest decision .declined moment.now) s after

/-- Any operation runs alone, under the tenant lock or as one statement. Creating and deciding
requests may also be cut in two, between which only what takes no tenant lock happens: the lapse
sweep, which waits for a locked row and closes whichever other rows it saw due, and changes
elsewhere.
-/
inductive RequestStep : RequestState → RequestEvent → RequestState → Prop
  | operates {s after : Tables} {op : Operation} {moment : Moment}
      (commits : op.Commits moment s after)
    : RequestStep ⟨s, .idle⟩ (.operates op moment) ⟨after, .idle⟩
  | createsAccessRequest {s : Tables} {req : CreateAccessRequest} {moment : Moment}
      {new : Admitted} (admits : (admitAccessRequest req moment).Commits s new s)
    : RequestStep ⟨s, .idle⟩ (.createsAccessRequest req moment) ⟨s, .creates new⟩
  | createsReplacementProposal {s : Tables} {req : CreateReplacementProposal} {moment : Moment}
      {new : Admitted} (admits : (admitReplacementProposal req moment).Commits s new s)
    : RequestStep ⟨s, .idle⟩ (.createsReplacementProposal req moment) ⟨s, .creates new⟩
  | approves {s : Tables} {decision : RequestDecision} {roles : List OfferedRole}
      {moment : Moment} {request : AccessRequest}
      (begins : (beginApproval decision moment).Commits s request s)
    : RequestStep ⟨s, .idle⟩ (.approves decision roles moment)
        ⟨s, .approves decision request roles moment⟩
  | declines {s : Tables} {decision : RequestDecision} {moment : Moment} {request : AccessRequest}
      (begins : (beginDecline decision moment).Commits s request s)
    : RequestStep ⟨s, .idle⟩ (.declines decision moment) ⟨s, .declines decision moment⟩
  | finishes {s after : Tables} {underway : Underway} (commits : underway.Finishes s after)
    : RequestStep ⟨s, underway⟩ .finishes ⟨after, .idle⟩
  | abandons {s : Tables} {underway : Underway}
    : RequestStep ⟨s, underway⟩ .abandons ⟨s, .idle⟩
  | lapses {s : Tables} {underway : Underway} {moment : Moment} {seen : AccessRequest → Bool}
      (waits : ∀ ar, seen ar = true → some ar.id ≠ underway.locked)
    : RequestStep ⟨s, underway⟩ (.lapses moment)
        ⟨{ s with requests := s.requests.map fun ar =>
            if seen ar && ar.due moment then
              { ar with status := .lapsed, closedAt := some moment.now }
            else ar }, underway⟩
  | outside {s after : Tables} {underway : Underway} (changed : s.ChangedOutside after)
    : RequestStep ⟨s, underway⟩ .outside ⟨after, underway⟩

/-- The runs of one FAU's requests, from its signup. -/
def requestSystem : EventSystem RequestState RequestEvent where
  start state := state.tables.JustSignedUp ∧ state.underway = .idle
  step := RequestStep

-----------------------------------------------------------------------------------------
-- What every reachable state keeps

namespace Tables

variable (s : Tables)

/-- How many requests of the address are pending. -/
def pendingOf (requester : Email) : Nat :=
  s.requests.countP fun ar => ar.requesterEmail = requester && ar.status = .pending

/-- How many requests were created on the day. -/
def createdOn (day : Date) : Nat := s.requests.countP (·.createdOn = day)

/-- An approved request has one invitation linked to it, and every other has none. -/
def LinkedAsDecided (ar : AccessRequest) : Prop :=
  if ar.status = .approved then ∃! i, i ∈ s.invitations ∧ i.accessRequestId = some ar.id
  else ∀ i ∈ s.invitations, i.accessRequestId ≠ some ar.id

/-- The limits hold, and invitations are linked to approved requests, one each. -/
structure Orderly : Prop where
  keyed : s.Keyed
  onePending : ∀ requester, s.pendingOf requester ≤ maxOpenRequestsPerAddress
  daily : ∀ day, s.createdOn day ≤ maxRequestsPerTenantPerDay
  known : ∀ i ∈ s.invitations, ∀ requestId, i.accessRequestId = some requestId →
    requestId ∈ s.requests.map (·.id)
  linked : ∀ ar ∈ s.requests, s.LinkedAsDecided ar

end Tables

/-- The row to be inserted is admitted by the limits. -/
structure Admitted.Fits (new : Admitted) (s : Tables) : Prop where
  pending : ∀ given, (new.row given).status = .pending
  requester : ∀ given, s.pendingOf (new.row given).requesterEmail < maxOpenRequestsPerAddress
  day : ∀ given, s.createdOn (new.row given).createdOn < maxRequestsPerTenantPerDay

/-- What the first part of a transaction found still holds at its second part. -/
def Underway.Ready (underway : Underway) (s : Tables) : Prop :=
  match underway with
  | idle => True
  | creates new => new.Fits s
  | approves decision _ _ _ | declines decision _ =>
      ∃ ar, findRow AccessRequest.id decision.requestId s.requests = some ar ∧ ar.status = .pending

-----------------------------------------------------------------------------------------
-- What changes keep

variable {now : Timestamp} {written : List Written} {s s' : Tables} {moment : Moment}

/-- A request that is pending was pending. -/
theorem AccessRequest.GoesOn.pending {ar ar' : AccessRequest} (goesOn : ar.GoesOn written ar')
    (pending : ar'.status = .pending)
    : ar.status = .pending := by
  by_contra closed
  rw [goesOn.final closed] at pending
  exact closed pending

/-- Without a new request, no more are pending. -/
theorem Tables.Changes.pendingOf_le (changes : s.Changes now written s') (keyed : s.Keyed)
    (noRequest : .requests ∉ written) (requester : Email)
    : s'.pendingOf requester ≤ s.pendingOf requester := by
  refine (changes.noRequests keyed.requestIds noRequest).countP_le fun ar ar' goesOn there => ?_
  simp only [Bool.and_eq_true, decide_eq_true_eq] at there ⊢
  refine ⟨?_, goesOn.pending there.2⟩
  have address := there.1
  rw [goesOn.same] at address
  exact address

theorem Tables.Changes.createdOn_le (changes : s.Changes now written s') (keyed : s.Keyed)
    (noRequest : .requests ∉ written) (day : Date)
    : s'.createdOn day ≤ s.createdOn day := by
  refine (changes.noRequests keyed.requestIds noRequest).countP_le fun ar ar' goesOn there => ?_
  rw [goesOn.same] at there
  exact there

/-- Without a new link, a linked invitation was linked. -/
theorem Tables.Changes.linkedBefore (changes : s.Changes now written s')
    (noLink : .links ∉ written) {i' : Invitation} (inside : i' ∈ s'.invitations) {requestId : Nat}
    (linked : i'.accessRequestId = some requestId)
    : ∃ i ∈ s.invitations, i.accessRequestId = some requestId ∧ i.id = i'.id := by
  rcases changes.invitations.comesFrom i' inside with ⟨i, there, goesOn⟩ | new
  · exact ⟨i, there, goesOn.accessRequestId ▸ linked, goesOn.id.symm⟩
  · rw [changes.noLinks noLink i' inside new] at linked
    cases linked

/-- Without a new link, requests stay linked as decided. -/
theorem Tables.Changes.linkedAsDecided (changes : s.Changes now written s') (keyed : s.Keyed)
    (noLink : .links ∉ written) {ar ar' : AccessRequest} (goesOn : ar.GoesOn written ar')
    (decided : s.LinkedAsDecided ar)
    : s'.LinkedAsDecided ar' := by
  unfold Tables.LinkedAsDecided at decided ⊢
  have same : ar'.id = ar.id := goesOn.id
  by_cases approved : ar.status = .approved
  · have kept : ar' = ar := goesOn.final (by rw [approved]; decide)
    rw [if_pos approved] at decided
    rw [kept, if_pos approved]
    obtain ⟨i, ⟨inside, linked⟩, only⟩ := decided
    obtain ⟨i', inside', later⟩ := changes.invitations.goesOn i inside
    refine ⟨i', ⟨inside', later.accessRequestId.trans linked⟩, ?_⟩
    rintro other ⟨present, linked'⟩
    obtain ⟨row, there, old, one⟩ := changes.linkedBefore noLink present linked'
    have first : row = i := only row ⟨there, old⟩
    refine List.inj_on_of_nodup_map (changes.keyed keyed).invitationIds present inside' ?_
    exact one.symm.trans (first ▸ later.id.symm)
  · rw [if_neg approved] at decided
    rw [if_neg fun later => approved (goesOn.approved noLink later)]
    intro i' inside' linked
    obtain ⟨i, inside, old, _⟩ := changes.linkedBefore noLink inside' linked
    exact decided i inside (same ▸ old)

/-- Neither creating nor linking, a statement keeps the requests in order. -/
theorem Tables.Changes.orderly (changes : s.Changes now written s')
    (noRequest : .requests ∉ written) (noLink : .links ∉ written) (orderly : s.Orderly)
    : s'.Orderly where
  keyed := changes.keyed orderly.keyed
  onePending requester :=
    (changes.pendingOf_le orderly.keyed noRequest requester).trans (orderly.onePending requester)
  daily day := (changes.createdOn_le orderly.keyed noRequest day).trans (orderly.daily day)
  known i' inside' requestId linked := by
    obtain ⟨i, inside, old, _⟩ := changes.linkedBefore noLink inside' linked
    exact (changes.requests orderly.keyed.requestIds).keys_subset (fun _ _ h => h.id)
      (orderly.known i inside requestId old)
  linked ar' inside' := by
    obtain ⟨ar, inside, goesOn⟩ :=
      (changes.noRequests orderly.keyed.requestIds noRequest).comesFrom inside'
    exact changes.linkedAsDecided orderly.keyed noLink goesOn (orderly.linked ar inside)

-----------------------------------------------------------------------------------------
-- Creating and deciding

theorem checkRequestLimits_eq_ok {opened createdToday : Nat}
    : checkRequestLimits opened createdToday = .ok ()
      ↔ opened < maxOpenRequestsPerAddress ∧ createdToday < maxRequestsPerTenantPerDay := by
  unfold checkRequestLimits
  split
  · next tooMany => simp [Nat.not_lt.mpr tooMany]
  · next fits =>
      split
      · next tooMany => simp [Nat.not_lt.mpr tooMany]
      · next fits' => simp [Nat.not_le.mp fits, Nat.not_le.mp fits']

theorem commits_checkLimits {requester : Email} {today : Date} {u : Unit}
    : (checkLimits requester today).Commits s u s'
      ↔ (s.pendingOf requester < maxOpenRequestsPerAddress
          ∧ s.createdOn today < maxRequestsPerTenantPerDay) ∧ s' = s := by
  rw [← checkRequestLimits_eq_ok]
  simp only [checkLimits, commits_select_bind, commits_check]
  rfl

theorem admitAccessRequest_fits {req : CreateAccessRequest} {new : Admitted}
    (commits : (admitAccessRequest req moment).Commits s new s')
    : s' = s ∧ new.Fits s := by
  simp only [admitAccessRequest, commits_require_bind, commits_lockTenant_bind,
    commits_requireOpen_bind] at commits
  obtain ⟨_, _, _, _, _, limits⟩ := commits
  obtain ⟨_, middle, limits, returns⟩ := commits_bind.mp limits
  obtain ⟨⟨opened, created⟩, rfl⟩ := commits_checkLimits.mp limits
  obtain ⟨rfl, rfl⟩ := commits_pure.mp returns
  exact ⟨rfl, fun _ => rfl, fun _ => opened, fun _ => created⟩

theorem admitReplacementProposal_fits {req : CreateReplacementProposal} {new : Admitted}
    (commits : (admitReplacementProposal req moment).Commits s new s')
    : s' = s ∧ new.Fits s := by
  simp only [admitReplacementProposal, commits_lockTenant_bind, commits_requireOpen_bind,
    commits_select_bind, commits_expect_bind, commits_require_bind, commits_check_bind] at commits
  obtain ⟨_, _, _, _, proposer, _, held, _, _, proposed, _, limits⟩ := commits
  obtain ⟨_, middle, limits, returns⟩ := commits_bind.mp limits
  obtain ⟨⟨opened, created⟩, rfl⟩ := commits_checkLimits.mp limits
  obtain ⟨rfl, rfl⟩ := commits_pure.mp returns
  exact ⟨rfl, fun _ => rfl, fun _ => opened, fun _ => created⟩

/-- An admitted request leaves the requests in order. -/
theorem insertRequest_orderly {new : Admitted} {id : Nat} (fits : new.Fits s)
    (commits : (insertRequest new.id new.row).Commits s id s') (orderly : s.Orderly)
    : s'.Orderly := by
  have changes : s.Changes 0 [.requests] s' :=
    insertRequest_within (by simp) new.named _ _ _ commits
  simp only [insertRequest, commits_select_bind, commits_require_bind, commits_update_bind,
    commits_pure] at commits
  obtain ⟨unknown, rfl, rfl⟩ := commits
  generalize new.id.getD (freshId (s.requests.map (·.id))) = id at unknown changes
  refine ⟨changes.keyed orderly.keyed, fun requester => ?_, fun day => ?_, ?_, ?_⟩
  · have old := orderly.onePending requester
    have admits := fits.requester id
    unfold Tables.pendingOf at old admits ⊢
    rw [List.countP_append, List.countP_singleton]
    split
    · next counted =>
        simp only [Bool.and_eq_true, decide_eq_true_eq] at counted
        rw [counted.1] at admits
        exact admits
    · exact old
  · have old := orderly.daily day
    have admits := fits.day id
    unfold Tables.createdOn at old admits ⊢
    rw [List.countP_append, List.countP_singleton]
    split
    · next counted =>
        rw [of_decide_eq_true counted] at admits
        exact admits
    · exact old
  · intro i inside requestId linked
    rw [List.map_append]
    exact List.mem_append_left _ (orderly.known i inside requestId linked)
  · intro ar inside
    rcases List.mem_append.mp inside with old | added
    · exact orderly.linked ar old
    · rw [List.mem_singleton.mp added]
      unfold Tables.LinkedAsDecided
      rw [if_neg (by rw [fits.pending]; decide)]
      intro i there linked
      exact unknown (new.named id ▸ orderly.known i there _ linked)

/-- An approval links the one invitation it issues to the request it closes. -/
theorem finishApproval_orderly {decision : RequestDecision} {request ar : AccessRequest}
    {roles : List OfferedRole} {issued : IssuedInvitation}
    (found : findRow AccessRequest.id decision.requestId s.requests = some ar)
    (pending : ar.status = .pending)
    (commits : (finishApproval decision request roles moment).Commits s issued s')
    (orderly : s.Orderly)
    : s'.Orderly := by
  obtain ⟨resolved, titled, resolves, writes⟩ := commits_bind.mp commits
  obtain ⟨_, invited, inserts, writes⟩ := commits_bind.mp writes
  obtain ⟨_, _, closes, returns⟩ := commits_bind.mp writes
  obtain ⟨rfl, rfl⟩ := commits_pure.mp returns
  have titles : s.Changes moment.now [.roles] titled := resolveRoles_within (by simp) _ _ _ resolves
  have invites : titled.Changes moment.now [.invitations, .links] invited :=
    insertInvitation_within (by simp) (.inl (by simp)) _ _ _ inserts
  have ordered := titles.orderly (by simp) (by simp) orderly
  have same : titled.requests = s.requests := titles.sameRequests (by simp) (by simp)
  have same' : invited.requests = titled.requests := invites.sameRequests (by simp) (by simp)
  have closing : invited.Changes moment.now [.requestChanges, .links] s' :=
    closeRequest_changes (same' ▸ same ▸ found) pending (by simp) (.inl (by simp)) closes
  have keyed := invites.keyed ordered.keyed
  have inOrder := closing.requests keyed.requestIds
  obtain ⟨_, rfl⟩ := insertInvitation_commits inserts
  have found' : findRow AccessRequest.id decision.requestId titled.requests = some ar := same ▸ found
  obtain ⟨there, one⟩ := of_findRow found'
  refine ⟨closing.keyed keyed, fun requester => ?_, fun day => ?_, ?_, ?_⟩
  · exact (closing.pendingOf_le keyed (by simp) requester).trans (ordered.onePending requester)
  · exact (closing.createdOn_le keyed (by simp) day).trans (ordered.daily day)
  · obtain rfl := commits_update.mp closes
    intro i inside requestId linked
    refine inOrder.keys_subset (fun _ _ h => h.id) ?_
    rcases List.mem_append.mp inside with old | added
    · exact ordered.known i old requestId linked
    · rw [List.mem_singleton.mp added] at linked
      cases linked
      exact one ▸ List.mem_map_of_mem there
  · obtain rfl := commits_update.mp closes
    intro ar' inside'
    obtain ⟨row, inside, rfl⟩ := List.mem_map.mp inside'
    have decided := ordered.linked row inside
    unfold Tables.LinkedAsDecided at decided ⊢
    by_cases closed : row.id = decision.requestId
    · -- the request that is approved: none of the invitations there were was linked to it
      have its : row = ar :=
        Option.some.inj (((findRow_eq_some ordered.keyed.requestIds).mpr
          ⟨inside, closed⟩).symm.trans found')
      rw [if_neg (by rw [its, pending]; decide)] at decided
      rw [changeAt_of_eq closed, if_pos rfl]
      refine ⟨_, ⟨List.mem_append_right _ (List.mem_singleton_self _), congrArg some closed.symm⟩, ?_⟩
      rintro other ⟨present, linked⟩
      rcases List.mem_append.mp present with old | added
      · exact absurd linked (decided other old)
      · exact List.mem_singleton.mp added
    · have others {i new : Invitation} (theirs : new.accessRequestId = some decision.requestId)
          (present : i ∈ titled.invitations ++ [new]) (linked : i.accessRequestId = some row.id)
          : i ∈ titled.invitations := by
        rcases List.mem_append.mp present with old | added
        · exact old
        · rw [List.mem_singleton.mp added, theirs] at linked
          exact absurd (Option.some.inj linked).symm closed
      rw [changeAt_of_ne closed]
      by_cases approved : row.status = .approved
      · rw [if_pos approved] at decided ⊢
        obtain ⟨i, ⟨present, linked⟩, only⟩ := decided
        refine ⟨i, ⟨List.mem_append_left _ present, linked⟩, ?_⟩
        rintro other ⟨present', linked'⟩
        exact only other ⟨others rfl present' linked', linked'⟩
      · rw [if_neg approved] at decided ⊢
        intro i present linked
        exact decided i (others rfl present linked) linked

theorem declined_orderly {decision : RequestDecision} {ar : AccessRequest} {u : Unit}
    (found : findRow AccessRequest.id decision.requestId s.requests = some ar)
    (pending : ar.status = .pending)
    (commits : (closeRequest decision .declined moment.now).Commits s u s') (orderly : s.Orderly)
    : s'.Orderly := by
  have changes : s.Changes moment.now [.requestChanges] s' :=
    closeRequest_changes found pending (by simp) (.inr (by simp)) commits
  exact changes.orderly (by simp) (by simp) orderly

/-- The second part of a transaction keeps the requests in order, where its first part did find
what the second relies on.
-/
theorem Underway.Finishes.orderly {underway : Underway} (commits : underway.Finishes s s')
    (ready : underway.Ready s) (orderly : s.Orderly)
    : s'.Orderly := by
  cases underway with
  | idle => exact commits.elim
  | creates new =>
      obtain ⟨id, commits⟩ := commits
      exact insertRequest_orderly ready commits orderly
  | approves decision request roles moment =>
      obtain ⟨issued, commits⟩ := commits
      obtain ⟨ar, found, pending⟩ := ready
      exact finishApproval_orderly found pending commits orderly
  | declines decision moment =>
      obtain ⟨u, commits⟩ := commits
      obtain ⟨ar, found, pending⟩ := ready
      exact declined_orderly found pending commits orderly

/-- Every operation, in one part, keeps the requests in order. -/
theorem Operation.Commits.orderly {op : Operation} (commits : op.Commits moment s s')
    (orderly : s.Orderly)
    : s'.Orderly := by
  have changes := commits.changes
  cases op
  case createAccessRequest req =>
    obtain ⟨id, commits⟩ := commits
    obtain ⟨new, middle, admits, inserts⟩ := commits_bind.mp commits
    obtain ⟨rfl, fits⟩ := admitAccessRequest_fits admits
    exact insertRequest_orderly fits inserts orderly
  case createReplacementProposal req =>
    obtain ⟨id, commits⟩ := commits
    obtain ⟨new, middle, admits, inserts⟩ := commits_bind.mp commits
    obtain ⟨rfl, fits⟩ := admitReplacementProposal_fits admits
    exact insertRequest_orderly fits inserts orderly
  case approveRequest decision roles =>
    obtain ⟨issued, commits⟩ := commits
    obtain ⟨request, middle, begins, finishes⟩ := commits_bind.mp commits
    obtain ⟨rfl, found, pending⟩ := beginApproval_finds begins
    exact finishApproval_orderly found pending finishes orderly
  all_goals
    exact changes.orderly (by simp [Operation.written]) (by simp [Operation.written]) orderly

-----------------------------------------------------------------------------------------
-- The sweep between the parts

/-- The lapses of the requests that the sweep saw. -/
def Tables.lapsed (s : Tables) (seen : AccessRequest → Bool) (moment : Moment) : Tables :=
  { s with requests := s.requests.map fun ar =>
      if seen ar && ar.due moment then
        { ar with status := .lapsed, closedAt := some moment.now }
      else ar }

theorem Tables.lapsed_changes (s : Tables) (seen : AccessRequest → Bool) (moment : Moment)
    : s.Changes moment.now [.requestChanges] (s.lapsed seen moment) := by
  refine updateRequests_within (by simp) (fun ar => ?_) s () _ (commits_update.mpr rfl)
  split
  · next picked =>
      refine ⟨rfl, fun closed => ?_, fun _ approved => by cases approved⟩
      simp only [AccessRequest.due, Bool.and_eq_true, decide_eq_true_eq] at picked
      exact absurd picked.2.1 closed
  · exact .refl ar

/-- A statement that neither creates requests nor touches the locked one keeps the transaction
ready.
-/
theorem Underway.Ready.kept {underway : Underway} (ready : underway.Ready s)
    (changes : s.Changes now written s') (keyed : s.Keyed) (noRequest : .requests ∉ written)
    (locked : ∀ ar ∈ s.requests, some ar.id = underway.locked → ar ∈ s'.requests)
    : underway.Ready s' := by
  have still (requestId : Nat) (here : underway.locked = some requestId)
      (held : ∃ ar, findRow AccessRequest.id requestId s.requests = some ar ∧ ar.status = .pending)
      : ∃ ar, findRow AccessRequest.id requestId s'.requests = some ar ∧ ar.status = .pending := by
    obtain ⟨ar, found, pending⟩ := held
    obtain ⟨inside, one⟩ := of_findRow found
    have inside' := locked ar inside (by rw [here, one])
    exact ⟨ar, (findRow_eq_some (changes.keyed keyed).requestIds).mpr ⟨inside', one⟩, pending⟩
  cases underway with
  | idle => trivial
  | creates new =>
      exact ⟨ready.pending,
        fun given => (changes.pendingOf_le keyed noRequest _).trans_lt (ready.requester given),
        fun given => (changes.createdOn_le keyed noRequest _).trans_lt (ready.day given)⟩
  | approves decision request roles moment => exact still _ rfl ready
  | declines decision moment => exact still _ rfl ready

-----------------------------------------------------------------------------------------
-- Every interleaving

/-- The second part of a transaction only adds a request, or closes the one it locked. -/
theorem Underway.Finishes.changes {underway : Underway} (commits : underway.Finishes s s')
    (ready : underway.Ready s)
    : ∃ now written, s.Changes now written s' := by
  cases underway with
  | idle => exact commits.elim
  | creates new =>
      obtain ⟨id, commits⟩ := commits
      exact ⟨0, [.requests], insertRequest_within (by simp) new.named _ _ _ commits⟩
  | approves decision request roles moment =>
      obtain ⟨issued, commits⟩ := commits
      obtain ⟨ar, found, pending⟩ := ready
      refine ⟨moment.now, [.roles, .invitations, .links, .requestChanges], ?_⟩
      exact finishApproval_changes found pending commits
  | declines decision moment =>
      obtain ⟨u, commits⟩ := commits
      obtain ⟨ar, found, pending⟩ := ready
      exact ⟨moment.now, [.requestChanges],
        closeRequest_changes found pending (by simp) (.inr (by simp)) commits⟩

/-- In every reachable state the requests are in order, and the transaction under way is ready. -/
structure RequestState.Sound (state : RequestState) : Prop where
  orderly : state.tables.Orderly
  ready : state.underway.Ready state.tables

variable {state next : RequestState} {event : RequestEvent}

theorem RequestStep.sound (stepped : RequestStep state event next) (sound : state.Sound)
    : next.Sound := by
  cases stepped with
  | operates commits => exact ⟨commits.orderly sound.orderly, trivial⟩
  | createsAccessRequest admits =>
      exact ⟨sound.orderly, (admitAccessRequest_fits admits).2⟩
  | createsReplacementProposal admits =>
      exact ⟨sound.orderly, (admitReplacementProposal_fits admits).2⟩
  | approves begins => exact ⟨sound.orderly, _, (beginApproval_finds begins).2⟩
  | declines begins => exact ⟨sound.orderly, _, (beginDecline_finds begins).2⟩
  | finishes commits => exact ⟨commits.orderly sound.ready sound.orderly, trivial⟩
  | abandons => exact ⟨sound.orderly, trivial⟩
  | @lapses s underway moment seen waits =>
      have changes := s.lapsed_changes seen moment
      refine ⟨changes.orderly (by simp) (by simp) sound.orderly, ?_⟩
      refine sound.ready.kept changes sound.orderly.keyed (by simp) fun ar inside locked => ?_
      refine List.mem_map.mpr ⟨ar, inside, if_neg fun picked => ?_⟩
      rw [Bool.and_eq_true] at picked
      exact waits ar picked.1 locked
  | @outside s after underway changed =>
      have changes : s.Changes 0 [.accounts, .tenant] after := changed.changes
      refine ⟨changes.orderly (by simp) (by simp) sound.orderly, ?_⟩
      refine sound.ready.kept changes sound.orderly.keyed (by simp) fun ar inside _ => ?_
      cases changed
      exact inside

/-- A new FAU has no request. -/
theorem Tables.JustSignedUp.orderly (signedUp : s.JustSignedUp) : s.Orderly where
  keyed := signedUp.keyed
  onePending requester := by simp [Tables.pendingOf, signedUp.noRequests]
  daily day := by simp [Tables.createdOn, signedUp.noRequests]
  known := by simp [signedUp.noInvitations]
  linked := by simp [signedUp.noRequests]

theorem requestSystem_sound (reached : requestSystem.Reachable state) : state.Sound := by
  refine reached.keeps (I := RequestState.Sound) ?_ ?_
  · rintro ⟨s, underway⟩ ⟨signedUp, rfl⟩
    exact ⟨signedUp.orderly, trivial⟩
  · intro s event after sound stepped
    exact RequestStep.sound stepped sound

theorem RequestStep.changes (stepped : RequestStep state event next) (sound : state.Sound)
    : ∃ now written, state.tables.Changes now written next.tables := by
  cases stepped with
  | operates commits => exact ⟨_, _, commits.changes⟩
  | createsAccessRequest admits => exact ⟨0, [], .refl _ _ _⟩
  | createsReplacementProposal admits => exact ⟨0, [], .refl _ _ _⟩
  | approves begins => exact ⟨0, [], .refl _ _ _⟩
  | declines begins => exact ⟨0, [], .refl _ _ _⟩
  | finishes commits => exact commits.changes sound.ready
  | abandons => exact ⟨0, [], .refl _ _ _⟩
  | lapses waits => exact ⟨_, _, Tables.lapsed_changes _ _ _⟩
  | outside changed => exact ⟨0, _, changed.changes⟩

/-- A request that is closed stays as it is. -/
theorem requestSystem_final {events : List RequestEvent} (reached : requestSystem.Reachable state)
    (run : requestSystem.Run state events next) {ar : AccessRequest}
    (inside : ar ∈ state.tables.requests) (closed : ar.status ≠ .pending)
    : ar ∈ next.tables.requests := by
  refine run.keeps (P := fun state => ar ∈ state.tables.requests) ?_ reached inside
  intro s event after reached inside stepped
  have sound := requestSystem_sound reached
  obtain ⟨now, written, changes⟩ := RequestStep.changes stepped sound
  obtain ⟨ar', inside', goesOn⟩ := (changes.requests sound.orderly.keyed.requestIds).goesOn ar inside
  exact goesOn.final closed ▸ inside'

/-- However the transactions and the sweep interleave, an address has at most one pending request,
at most five are created in a day, a closed request stays closed as it was, and an approved one,
and no other, has an invitation linked to it, and only one.
-/
theorem requests_limited (reached : requestSystem.Reachable state)
    : (∀ requester, state.tables.pendingOf requester ≤ 1)
      ∧ (∀ day, state.tables.createdOn day ≤ maxRequestsPerTenantPerDay)
      ∧ (∀ ar ∈ state.tables.requests, state.tables.LinkedAsDecided ar)
      ∧ ∀ events later, requestSystem.Run state events later →
          ∀ ar ∈ state.tables.requests, ar.status ≠ .pending →
          ∀ ar' ∈ later.tables.requests, ar'.id = ar.id → ar' = ar := by
  have sound := requestSystem_sound reached
  refine ⟨sound.orderly.onePending, sound.orderly.daily, sound.orderly.linked, ?_⟩
  intro events later run ar inside closed ar' inside' same
  have kept := requestSystem_final reached run inside closed
  have keyed := (requestSystem_sound (reached.run run)).orderly.keyed
  exact List.inj_on_of_nodup_map keyed.requestIds inside' kept same

end

-----------------------------------------------------------------------------------------
-- A request while the sweep runs

section

attribute [local instance] OsloZone.winterAndSummer

/-- Ola asks to join. -/
def askedFau : Tables :=
  (createAccessRequest ⟨⟨"ola@example.no"⟩, none⟩ newYear).leaves activatedFau

/-- Kari offers Ola her own role. -/
def olasRoles : List OfferedRole :=
  [⟨.existing 1, .ofEnds newYear.today (.ofParts 1970 5 1 rfl) rfl⟩]

def approvedFau : Tables :=
  (finishApproval ⟨1, 1⟩ (askedFau.requests.head (by decide +kernel)) olasRoles newYear).leaves
    (askedFau.lapsed (fun _ => false) newYear)

/-- Kari approves Ola's request while the sweep runs. -/
theorem approvedFau_reachable : requestSystem.Reachable ⟨approvedFau, .idle⟩ := by
  have start : requestSystem.Reachable ⟨signedUpFau, .idle⟩ := .start ⟨signedUpFau_justSignedUp, rfl⟩
  have activated : RequestStep ⟨signedUpFau, .idle⟩
      (.operates (.activateTenant ⟨⟨"kari@example.no"⟩, kariProfile⟩) newYear)
      ⟨activatedFau, .idle⟩ :=
    .operates activatedFau_commits
  have asked : RequestStep ⟨activatedFau, .idle⟩
      (.operates (.createAccessRequest ⟨⟨"ola@example.no"⟩, none⟩) newYear) ⟨askedFau, .idle⟩ :=
    .operates (leaves_commits (by decide +kernel))
  have begun : RequestStep ⟨askedFau, .idle⟩ (.approves ⟨1, 1⟩ olasRoles newYear)
      ⟨askedFau, .approves ⟨1, 1⟩ (askedFau.requests.head (by decide +kernel)) olasRoles newYear⟩ :=
    .approves (by decide +kernel : (beginApproval ⟨1, 1⟩ newYear).run askedFau = _)
  have swept : RequestStep
      ⟨askedFau, .approves ⟨1, 1⟩ (askedFau.requests.head (by decide +kernel)) olasRoles newYear⟩
      (.lapses newYear)
      ⟨askedFau.lapsed (fun _ => false) newYear,
        .approves ⟨1, 1⟩ (askedFau.requests.head (by decide +kernel)) olasRoles newYear⟩ :=
    .lapses (by simp)
  have finished : RequestStep
      ⟨askedFau.lapsed (fun _ => false) newYear,
        .approves ⟨1, 1⟩ (askedFau.requests.head (by decide +kernel)) olasRoles newYear⟩
      .finishes ⟨approvedFau, .idle⟩ :=
    .finishes (leaves_commits (by decide +kernel))
  exact ((((start.step activated).step asked).step begun).step swept).step finished

theorem approvedFau_requests : approvedFau.requests ≠ [] := by decide +kernel

/-- Ola's approved request has its invitation. -/
theorem approvedFau_limited
    : approvedFau.LinkedAsDecided (approvedFau.requests.head approvedFau_requests) :=
  (requests_limited approvedFau_reachable).2.2.1 _ (List.head_mem _)

end

end FauPortalen.Membership

import FauPortalen.Register.Sync.Assignment
import FauPortalen.Register.Sync.ExactSimilarity

/-! Re-registrations in the plans of any register: which closing school hands over to which
new row, and which new rows wait for a review because a school with an FAU left.
-/

set_option linter.unusedSectionVars false

namespace FauPortalen.Register

open FauPortalen.Foundations

section

variable {Id : Type} [LinearOrder Id] [OsloZone] [UnicodeData]
  {snapshot : RegisterSnapshot Id} {inputs : SyncInputs} {state : MunicipalityState Id}
  {moment : Moment} {units : List NsrUnit}

-----------------------------------------------------------------------------------------
-- Taken matches in the plan

section

variable {draft : SchoolDraft Id} {plan : SchoolPlan Id}
  (outlines : draft.Outlines snapshot (sortUnits snapshot state moment units) plan)
include outlines

theorem SchoolDraft.Outlines.numbers
    : (draft.creates.map PlannedCreate.number).Nodup := by
  have split : draft.creates.map PlannedCreate.number
      = (draft.creates.map PlannedCreate.source).map Prod.snd := by
    simp [PlannedCreate.source, Function.comp_def]
  rw [split, outlines.creates, numberedCandidates, List.zipIdx_map_snd]
  exact List.nodup_range'

/-- A numbered candidate is created once, as it is placed. -/
theorem SchoolDraft.Outlines.creation {number : Nat} {candidate : Candidate Id}
    {placement : Placement}
    (stands : (sortUnits snapshot state moment units).candidates[number]? = some candidate)
    (placed : (placedUnits snapshot (sortUnits snapshot state moment units)).placements[number]?
      = some placement)
    : ∃ p : PlannedCreate Id, p.source = ((candidate, placement), number) ∧ p.Placed
        ∧ plan.ops.filter (createdSchool? · = some number) = [p.op] := by
  have source : ((candidate, placement), number)
      ∈ numberedCandidates snapshot (sortUnits snapshot state moment units) :=
    mem_numberedCandidates.mpr ⟨stands, placed⟩
  rw [← outlines.creates] at source
  obtain ⟨p, member, same⟩ := List.mem_map.mp source
  have own : p.number = number := congrArg Prod.snd same
  refine ⟨p, same, outlines.placed p member, ?_⟩
  have closings : ((placedUnits snapshot (sortUnits snapshot state moment units)).closings.map
      closeOp).filter (createdSchool? · = some number) = [] := by
    refine List.filter_eq_nil_iff.mpr fun op inside => ?_
    obtain ⟨c, _, rfl⟩ := List.mem_map.mp inside
    simp [closeOp, createdSchool?]
  have updates : (draft.updates.flatMap PlannedUpdate.ops).filter
      (createdSchool? · = some number) = [] := by
    refine List.filter_eq_nil_iff.mpr fun op inside => ?_
    obtain ⟨u, _, own⟩ := List.mem_flatMap.mp inside
    rcases PlannedUpdate.mem_ops.mp own with ⟨_, rfl⟩ | ⟨_, rfl⟩ | ⟨_, rfl⟩
      <;> simp [createdSchool?]
  have creates : (draft.creates.map PlannedCreate.op).filter (createdSchool? · = some number)
      = [p.op] := by
    rw [List.filter_map]
    have key : (fun op : SchoolOp Id => decide (createdSchool? op = some number)) ∘ PlannedCreate.op
        = fun q : PlannedCreate Id => decide (q.number = p.number) := by
      funext q
      simp [PlannedCreate.op, createdSchool?, own]
    rw [key, filter_key_of_nodup outlines.numbers member]
    rfl
  rw [outlines.ops, SchoolDraft.laterOps, List.filter_append, List.filter_append, closings,
    creates, updates]
  rfl

/-- A taken match with a closing school closes it as merged, with its candidate as the
successor.
-/
theorem SchoolDraft.Outlines.closes {m : Match Id} {j : Nat}
    (taken : m ∈ takenMatches (sortUnits snapshot state moment units).candidates
      (sortUnits snapshot state moment units).closings
      (sortUnits snapshot state moment units).fauClosings)
    (pred : m.pred = .closing j)
    : ∃ closedOn, SchoolOp.close m.school.id .merged closedOn (some (.new m.candidate))
        ∈ plan.ops := by
  obtain ⟨c, stands, school, _⟩ := (takenMatches_valid taken).closing j pred
  have found : (takenMatches (sortUnits snapshot state moment units).candidates
      (sortUnits snapshot state moment units).closings
      (sortUnits snapshot state moment units).fauClosings).find? (·.pred = .closing j)
      = some m := by
    cases hf : (takenMatches (sortUnits snapshot state moment units).candidates
        (sortUnits snapshot state moment units).closings
        (sortUnits snapshot state moment units).fauClosings).find? (·.pred = .closing j) with
    | none => exact absurd (List.find?_eq_none.mp hf m taken) (by simp [pred])
    | some other =>
        have same : other.pred = .closing j := by simpa using List.find?_some hf
        rw [takenMatches_closing (List.mem_of_find?_eq_some hf) taken same pred]
  have settled := (assign_records (sortUnits snapshot state moment units).closings
    (sortUnits snapshot state moment units).fauClosings
    (rankedMatches (sortUnits snapshot state moment units).candidates
      (sortUnits snapshot state moment units).closings
      (sortUnits snapshot state moment units).fauClosings)).closings j
  rw [stands, Option.map_some, settleClosing, ← takenMatches, found] at settled
  refine ⟨c.closedOn, ?_⟩
  refine outlines.mem_ops.mpr (.inl ⟨_, List.mem_of_getElem? settled, ?_⟩)
  simp [closeOp, school]

/-- A closure with a successor is that of a taken match. -/
theorem SchoolDraft.Outlines.successor {id : Id} {reason : ClosureReason} {closedOn : Date}
    {successor : Ref Id}
    (closes : SchoolOp.close id reason closedOn (some successor) ∈ plan.ops)
    : ∃ m ∈ takenMatches (sortUnits snapshot state moment units).candidates
        (sortUnits snapshot state moment units).closings
        (sortUnits snapshot state moment units).fauClosings,
        m.pred.isFau = false ∧ reason = .merged ∧ successor = .new m.candidate
          ∧ id = m.school.id := by
  rcases outlines.mem_ops.mp closes with ⟨c, inside, same⟩ | ⟨p, _, same⟩ | ⟨p, _, own⟩
  · obtain ⟨j, before, stands, rfl⟩ := mem_placeAll_closings snapshot inside
    obtain ⟨u, _, fated⟩ := mem_closings.mp (List.mem_of_getElem? stands)
    unfold settleClosing at same
    split at same
    · next m found =>
        cases same
        have taken := List.mem_of_find?_eq_some found
        have pred : m.pred = .closing j := by simpa using List.find?_some found
        obtain ⟨c, here, school, _⟩ := (takenMatches_valid taken).closing j pred
        cases stands.symm.trans here
        exact ⟨m, taken, by rw [pred]; rfl, rfl, rfl, congrArg SchoolSnapshot.id school⟩
    · rw [closeOp, (fate_closing_fresh fated).2] at same
      cases same
  · cases same
  · rcases PlannedUpdate.mem_ops.mp own with ⟨_, same⟩ | ⟨_, same⟩ | ⟨_, same⟩ <;> cases same

/-- A taken match with a school that has an FAU is up for review. -/
theorem SchoolDraft.Outlines.reviewed {m : Match Id}
    (taken : m ∈ takenMatches (sortUnits snapshot state moment units).candidates
      (sortUnits snapshot state moment units).closings
      (sortUnits snapshot state moment units).fauClosings)
    (fau : m.pred.isFau = true)
    : reregistrationReview m ∈ plan.reviews := by
  rw [outlines.reviews]
  refine List.mem_append_left _ (List.mem_append_left _ ?_)
  rw [placedUnits, placeAll_reviews]
  exact List.mem_append_left _ (List.mem_map_of_mem (List.mem_filter.mpr ⟨taken, fau⟩))

end

-----------------------------------------------------------------------------------------
-- Successor handover

/-- The units as the run sorts them, once its municipalities are planned. -/
def runSorted (snapshot : RegisterSnapshot Id) (inputs : SyncInputs) : Option (Sorted Id) :=
  (planMunicipalities snapshot inputs.normalised).map fun municipalities =>
    sortedUnits snapshot inputs.normalised municipalities.state

/-- The row of a candidate. -/
def Candidate.created (c : Candidate Id) (number : Nat) (verification : CreateVerification)
    (slug : Option String) : SchoolOp Id :=
  .create number c.municipality c.unit.orgnr c.unit.name c.unit.name slug verification true
    (SchoolAttributes.fromUnit c.unit) c.unit.changedAt

/-- The plan creates the candidate once, as this row. -/
def SyncPlan.CreatesOnce (p : SyncPlan Id) (c : Candidate Id) (number : Nat)
    (verification : CreateVerification) (slug : Option String) : Prop :=
  p.schoolOps.filter (createdSchool? · = some number) = [c.created number verification slug]

/-- The plan gives a match's candidate and predecessor to each other: the closure of the
predecessor names the candidate as its successor, or a review item names both.
-/
def SyncPlan.Gives (p : SyncPlan Id) (m : Match Id) : Prop :=
  match m.pred with
  | .closing _ => ∃ reason closedOn,
      SchoolOp.close m.school.id reason closedOn (some (.new m.candidate)) ∈ p.schoolOps
  | .fau _ => reregistrationReview m ∈ p.reviews

/-- A closure with a successor hands the closed school over to it: the closure is a merger,
and the successor a new row of the same municipality, listed under the closed school's slug.
-/
structure SyncPlan.HandsOver (p : SyncPlan Id) (snapshot : RegisterSnapshot Id)
    (sorted : Sorted Id) (id : Id) (reason : ClosureReason) (successor : Ref Id) : Prop where
  merged : reason = .merged
  created : ∃ number c slug, successor = .new number ∧ sorted.candidates[number]? = some c
    ∧ p.CreatesOnce c number .listed slug
    ∧ ∃ school ∈ snapshot.schools, school.id = id
      ∧ c.municipality = .existing school.municipalityId
      ∧ (school.slug.isSome = true → slug = school.slug)

/-- Every closure with a successor hands over, no successor is shared, and the assignment is
stable: a match is given unless its candidate or its predecessor is given a better one.
-/
structure SyncPlan.SuccessorsSettled (p : SyncPlan Id) (snapshot : RegisterSnapshot Id)
    (sorted : Sorted Id) : Prop where
  handover : ∀ id reason closedOn successor,
    SchoolOp.close id reason closedOn (some successor) ∈ p.schoolOps →
    p.HandsOver snapshot sorted id reason successor
  unshared : p.schoolOps.Pairwise fun a b =>
    ∀ successor, a.successor? = some successor → b.successor? ≠ some successor
  stable : ∀ m : Match Id,
    m.Valid sorted.candidates sorted.closings sorted.fauClosings → ¬ p.Gives m →
    ∃ better : Match Id,
      better.Valid sorted.candidates sorted.closings sorted.fauClosings ∧ p.Gives better
      ∧ better.rank < m.rank ∧ (better.candidate = m.candidate ∨ better.pred = m.pred)

section

variable {p : SyncPlan Id}

/-- An applicable plan has an outline for its sorted units. -/
theorem plan_outline (planned : plan snapshot inputs = some (.apply p)) {sorted : Sorted Id}
    (sorts : runSorted snapshot inputs = some sorted)
    : ∃ (state : MunicipalityState Id) (units : List NsrUnit) (steps : SchoolPlan Id)
        (draft : SchoolDraft Id),
        sorted = sortUnits snapshot state inputs.moment units
        ∧ (units.map NsrUnit.orgnr).Nodup
        ∧ draft.Outlines snapshot (sortUnits snapshot state inputs.moment units) steps
        ∧ p.schoolOps = steps.ops ∧ (∀ item ∈ steps.reviews, item ∈ p.reviews) := by
  obtain ⟨_, steps, stepped, rfl⟩ := planWith_apply planned
  simp only [planSteps, Option.bind_eq_bind, Option.bind_eq_some_iff] at stepped
  obtain ⟨municipalities, first, schools, second, same⟩ := stepped
  cases same
  obtain ⟨again, first', same⟩ := Option.map_eq_some_iff.mp sorts
  rw [first] at first'
  cases first'
  obtain ⟨draft, outlines⟩ := planSchools_outline second
  refine ⟨municipalities.state, normaliseUnits inputs.units, schools, draft, same.symm,
    nodup_dropRepeats_sortOn _ _, outlines, rfl, ?_⟩
  exact fun item member => List.mem_append_right _ member

end

variable {p : SyncPlan Id} {draft : SchoolDraft Id} {steps : SchoolPlan Id}

/-- A taken match is given by the plan. -/
theorem SchoolDraft.Outlines.gives
    (outlines : draft.Outlines snapshot (sortUnits snapshot state moment units) steps)
    (ops : p.schoolOps = steps.ops) (reviews : ∀ item ∈ steps.reviews, item ∈ p.reviews)
    {m : Match Id}
    (taken : m ∈ takenMatches (sortUnits snapshot state moment units).candidates
      (sortUnits snapshot state moment units).closings
      (sortUnits snapshot state moment units).fauClosings)
    : p.Gives m := by
  unfold SyncPlan.Gives
  cases pred : m.pred with
  | closing j =>
      obtain ⟨closedOn, closes⟩ := outlines.closes taken pred
      exact ⟨.merged, closedOn, ops ▸ closes⟩
  | fau k => exact reviews _ (outlines.reviewed taken (by rw [pred]; rfl))

/-- A closure with a successor hands over: its match is taken, and places the successor. -/
theorem SchoolDraft.Outlines.handsOver
    (outlines : draft.Outlines snapshot (sortUnits snapshot state moment units) steps)
    (ops : p.schoolOps = steps.ops) {id : Id} {reason : ClosureReason} {closedOn : Date}
    {successor : Ref Id}
    (closes : SchoolOp.close id reason closedOn (some successor) ∈ p.schoolOps)
    : p.HandsOver snapshot (sortUnits snapshot state moment units) id reason successor := by
  obtain ⟨m, taken, fauless, rfl, rfl, rfl⟩ := outlines.successor (ops ▸ closes)
  have valid := takenMatches_valid taken
  have placed := placeAll_taken snapshot taken
  have successor : m.placement = .successor m.school.slug := by
    unfold Match.placement
    cases pred : m.pred with
    | closing j => rfl
    | fau k => simp [pred, PredKind.isFau] at fauless
  obtain ⟨q, source, laid, once⟩ := outlines.creation valid.candidate placed
  obtain ⟨candidate, placement, number, verification, slug⟩ := q
  cases source
  have listed : verification = .listed := by
    cases verification with
    | listed => rfl
    | held =>
        have placing : m.placement = .heldReregistration ∨ m.placement = .heldSubmission :=
          laid.held.mp rfl
        simp [successor] at placing
  subst listed
  refine ⟨rfl, m.candidate, _, slug, rfl, valid.candidate, ?_, m.school,
    (Match.ValidFor.orgnr valid).1, rfl, valid.here, ?_⟩
  · rw [SyncPlan.CreatesOnce, ops]
    exact once
  · intro some_slug
    obtain ⟨text, found⟩ := Option.isSome_iff_exists.mp some_slug
    rw [found]
    exact laid.inherited text (successor.trans (congrArg Placement.successor found))

/-- Two closures with one successor stand at one position: both are of the match that
places it.
-/
theorem SchoolDraft.Outlines.unshared
    (outlines : draft.Outlines snapshot (sortUnits snapshot state moment units) steps)
    : steps.ops.Pairwise fun a b =>
        ∀ successor, a.successor? = some successor → b.successor? ≠ some successor := by
  have later : ∀ op ∈ draft.laterOps, op.successor? = none := by
    intro op member
    rcases List.mem_append.mp member with create | update
    · obtain ⟨q, _, rfl⟩ := List.mem_map.mp create
      rfl
    · obtain ⟨q, _, own⟩ := List.mem_flatMap.mp update
      rcases PlannedUpdate.mem_ops.mp own with ⟨_, rfl⟩ | ⟨_, rfl⟩ | ⟨_, rfl⟩ <;> rfl
  have settled (j : Nat) {c : Closing Id} {successor : Ref Id}
      (stands : (placedUnits snapshot (sortUnits snapshot state moment units)).closings[j]?
        = some c)
      (named : c.successor = some successor)
      : ∃ m ∈ takenMatches (sortUnits snapshot state moment units).candidates
          (sortUnits snapshot state moment units).closings
          (sortUnits snapshot state moment units).fauClosings,
          m.pred = .closing j ∧ successor = .new m.candidate := by
    have recorded := (assign_records (sortUnits snapshot state moment units).closings
      (sortUnits snapshot state moment units).fauClosings
      (rankedMatches (sortUnits snapshot state moment units).candidates
        (sortUnits snapshot state moment units).closings
        (sortUnits snapshot state moment units).fauClosings)).closings j
    obtain ⟨before, fresh, rfl⟩ := Option.map_eq_some_iff.mp (recorded.symm.trans stands)
    obtain ⟨u, _, fated⟩ := mem_closings.mp (List.mem_of_getElem? fresh)
    unfold settleClosing at named
    split at named
    · next m found =>
        cases named
        exact ⟨m, List.mem_of_find?_eq_some found, by simpa using List.find?_some found, rfl⟩
    · rw [(fate_closing_fresh fated).2] at named
      cases named
  rw [outlines.ops]
  refine List.pairwise_append.mpr ⟨?_, ?_, ?_⟩
  · refine List.pairwise_map.mpr (List.pairwise_iff_getElem.mpr ?_)
    intro i j hi hj before successor left right
    obtain ⟨m, taken, pred, rfl⟩ := settled i (List.getElem?_eq_getElem hi) left
    obtain ⟨n, taken', pred', same⟩ := settled j (List.getElem?_eq_getElem hj) right
    have one := takenMatches_candidate taken taken' (Ref.new.inj same)
    rw [one, pred'] at pred
    cases pred
    exact Nat.lt_irrefl _ before
  · refine List.pairwise_of_forall_mem_list fun a ha b _ successor left => ?_
    rw [later a ha] at left
    cases left
  · intro a _ b hb successor _ right
    rw [later b hb] at right
    cases right

/-- Successors are handed over to, one for each closed school, and the assignment is stable
in the order in which the matches compete.
-/
theorem plan_successors_settled (planned : plan snapshot inputs = some (.apply p))
    : ∀ sorted, runSorted snapshot inputs = some sorted →
        p.SuccessorsSettled snapshot sorted := by
  intro sorted sorts
  obtain ⟨state, units, steps, draft, rfl, distinct, outlines, ops, reviews⟩ :=
    plan_outline planned sorts
  refine ⟨fun id reason closedOn successor closes => outlines.handsOver ops closes,
    ops ▸ outlines.unshared, fun m valid ungiven => ?_⟩
  have passed : m ∉ takenMatches (sortUnits snapshot state inputs.moment units).candidates
      (sortUnits snapshot state inputs.moment units).closings
      (sortUnits snapshot state inputs.moment units).fauClosings :=
    fun taken => ungiven (outlines.gives ops reviews taken)
  obtain ⟨better, taken, above, conflict⟩ := Match.ValidFor.outranked distinct valid passed
  exact ⟨better, takenMatches_valid taken, outlines.gives ops reviews taken, above,
    conflict.imp_right And.left⟩

-----------------------------------------------------------------------------------------
-- Candidates that may be a school with an FAU

/-- The leaving school has a live FAU and may have re-registered as the candidate: it was
merged or deleted, lies in the candidate's municipality, and the names share at least 0.6 of
their trigrams.
-/
structure FauClosing.MayBe (f : FauClosing Id) (c : Candidate Id) : Prop where
  live : f.school.hasLiveFau = true
  reregistrable : f.reregistrable = true
  here : c.municipality = .existing f.school.municipalityId
  similar : 3 / 5 ≤ exactNameSimilarity f.school c.unit.name

/-- The plan holds the candidate: its one row is held and has no slug, no other row of its
unit is listed, and a review item names it with a school it may be.
-/
structure SyncPlan.Holds (p : SyncPlan Id) (sorted : Sorted Id) (c : Candidate Id)
    (number : Nat) : Prop where
  created : p.CreatesOnce c number .held none
  unlisted : ∀ op ∈ p.schoolOps, ∀ other slug, op ≠ c.created other .listed slug
  reviewed : ∃ f ∈ sorted.fauClosings, f.MayBe c ∧ ∃ item ∈ p.reviews,
    item.kind = .possibleReregistration ∧ item.school = some (.existing f.school.id)
      ∧ item.otherSchool = some (.new number)

/-- Every candidate that may be a leaving school with a live FAU is held. -/
def SyncPlan.HoldsFauMatches (p : SyncPlan Id) (sorted : Sorted Id) : Prop :=
  ∀ number c, sorted.candidates[number]? = some c → (∃ f ∈ sorted.fauClosings, f.MayBe c) →
    p.Holds sorted c number

/-- Whichever candidate may be a leaving school with a live FAU, its match in the best-first
set is with such a school.
-/
def Sorted.FauMatchesWin (sorted : Sorted Id) : Prop :=
  ∀ chosen, IsBestFirst (Match.Valid sorted.candidates sorted.closings sorted.fauClosings)
      Match.rank Match.Conflicts chosen →
    ∀ m, chosen m → (∃ f ∈ sorted.fauClosings, f.MayBe ⟨m.unit, m.municipality⟩) →
      m.pred.isFau = true

/-- A school with a live FAU that a candidate may be is a valid match of it. -/
theorem FauClosing.MayBe.valid {sorted : Sorted Id} {number : Nat} {c : Candidate Id}
    {f : FauClosing Id} (h : f.MayBe c) (member : f ∈ sorted.fauClosings)
    (stands : sorted.candidates[number]? = some c)
    : ∃ m : Match Id, m.Valid sorted.candidates sorted.closings sorted.fauClosings
        ∧ m.candidate = number ∧ m.pred.isFau = true := by
  obtain ⟨k, listed⟩ := List.mem_iff_getElem?.mp member
  refine ⟨⟨number, c.unit, c.municipality, .fau k, f.school,
    nameSimilarity f.school c.unit.name⟩, ⟨stands, h.here, ?_, ?_, ?_, rfl⟩, rfl, rfl⟩
  · intro j same
    cases same
  · intro k' same
    cases same
    exact ⟨f, listed, rfl, h.reregistrable⟩
  · exact (reregistrationThreshold_le_nameSimilarity _ _).mpr h.similar

/-- The predecessor of a valid match with an FAU is a school the candidate may be. -/
theorem Match.ValidFor.mayBe {m : Match Id} (h : m.ValidFor snapshot state moment units)
    (fau : m.pred.isFau = true)
    : ∃ f ∈ (sortUnits snapshot state moment units).fauClosings,
        f.MayBe ⟨m.unit, m.municipality⟩ ∧ f.school = m.school := by
  cases pred : m.pred with
  | closing j => simp [pred, PredKind.isFau] at fau
  | fau k =>
      obtain ⟨f, stands, school, reregistrable⟩ := h.fau k pred
      obtain ⟨u, _, reviews⟩ := mem_fauClosings.mp (List.mem_of_getElem? stands)
      refine ⟨f, List.mem_of_getElem? stands,
        ⟨fate_fauClosing_live reviews, reregistrable, school ▸ h.here, ?_⟩, school⟩
      rw [school, ← reregistrationThreshold_le_nameSimilarity, ← h.similar.2]
      exact h.similar.1

/-- Rows of one unit have one number. -/
theorem SchoolDraft.Outlines.unlisted
    (outlines : draft.Outlines snapshot (sortUnits snapshot state moment units) steps)
    (distinct : (units.map NsrUnit.orgnr).Nodup) {c : Candidate Id} {number : Nat}
    (stands : (sortUnits snapshot state moment units).candidates[number]? = some c)
    (once : steps.ops.filter (createdSchool? · = some number)
      = [c.created number .held none])
    : ∀ op ∈ steps.ops, ∀ other slug, op ≠ c.created other .listed slug := by
  intro op member other slug same
  subst same
  have created : createdSchool? (c.created other .listed slug) = some other := rfl
  have planned : ∃ q ∈ draft.creates, q.op = c.created other .listed slug := by
    rcases outlines.mem_ops.mp member with ⟨_, _, same⟩ | created | ⟨_, _, own⟩
    · cases same
    · exact created
    · rcases PlannedUpdate.mem_ops.mp own with ⟨_, same⟩ | ⟨_, same⟩ | ⟨_, same⟩ <;> cases same
  obtain ⟨q, inside, same⟩ := planned
  have source : q.source
      ∈ numberedCandidates snapshot (sortUnits snapshot state moment units) :=
    outlines.creates ▸ List.mem_map_of_mem inside
  have own : (sortUnits snapshot state moment units).candidates[q.number]?
      = some q.candidate := (mem_numberedCandidates.mp source).1
  simp only [PlannedCreate.op, Candidate.created, SchoolOp.create.injEq] at same
  obtain ⟨position, _, orgnr, _⟩ := same
  have index : q.number = number := by
    have once : ((sortUnits snapshot state moment units).candidates.map (·.unit.orgnr)).Nodup :=
      nodup_candidate_orgnrs distinct
    refine (List.getElem?_inj ?_ once).mp ?_
    · rw [List.length_map]
      exact (List.getElem?_eq_some_iff.mp own).1
    · rw [List.getElem?_map, List.getElem?_map, own, stands]
      exact congrArg some orgnr
  have twice : c.created other .listed slug
      ∈ steps.ops.filter (createdSchool? · = some number) :=
    List.mem_filter.mpr ⟨member, by rw [decide_eq_true_eq, created, ← position, index]⟩
  rw [once] at twice
  cases List.mem_singleton.mp twice

/-- The plan holds every candidate that may be a leaving school with a live FAU exactly when
the best-first set gives none of them to a leaving school without one. A candidate that is
given to such a school takes over its slug and is listed at once.
-/
theorem plan_holds_fau_matches (planned : plan snapshot inputs = some (.apply p))
    : ∀ sorted, runSorted snapshot inputs = some sorted →
        (p.HoldsFauMatches sorted ↔ sorted.FauMatchesWin) := by
  intro sorted sorts
  obtain ⟨state, units, steps, draft, rfl, distinct, outlines, ops, reviews⟩ :=
    plan_outline planned sorts
  constructor
  · intro holds chosen best m inside may
    have taken := (mem_takenMatches_iff distinct best).mp inside
    have valid := takenMatches_valid taken
    by_contra fauless
    have held := (holds m.candidate _ valid.candidate may).created
    obtain ⟨q, source, laid, once⟩ := outlines.creation valid.candidate
      (placeAll_taken snapshot taken)
    rw [SyncPlan.CreatesOnce, ops, once] at held
    have verification : q.verification = .held := by
      simp only [PlannedCreate.op, Candidate.created, List.cons.injEq,
        SchoolOp.create.injEq] at held
      exact held.1.2.2.2.2.2.2.1
    have placing : m.placement = .heldReregistration ∨ m.placement = .heldSubmission := by
      rw [← show q.placement = m.placement from congrArg (·.1.2) source]
      exact laid.held.mp verification
    unfold Match.placement at placing
    cases pred : m.pred with
    | closing j => simp [pred] at placing
    | fau k => simp [pred, PredKind.isFau] at fauless
  · intro wins number c stands may
    obtain ⟨f, member, possible⟩ := may
    obtain ⟨m, valid, candidate, fau⟩ := possible.valid member stands
    -- the candidate's own match is taken, or a better one of the candidate is
    have given : ∃ n ∈ takenMatches (sortUnits snapshot state inputs.moment units).candidates
        (sortUnits snapshot state inputs.moment units).closings
        (sortUnits snapshot state inputs.moment units).fauClosings,
        n.candidate = number := by
      by_cases taken : m ∈ takenMatches
          (sortUnits snapshot state inputs.moment units).candidates
          (sortUnits snapshot state inputs.moment units).closings
          (sortUnits snapshot state inputs.moment units).fauClosings
      · exact ⟨m, taken, candidate⟩
      · obtain ⟨better, taken', _, conflict⟩ := Match.ValidFor.outranked distinct valid taken
        rcases conflict with same | ⟨same, fauless⟩
        · exact ⟨better, taken', same.trans candidate⟩
        · rw [same, fau] at fauless
          cases fauless
    obtain ⟨n, taken, rfl⟩ := given
    have valid' := takenMatches_valid taken
    cases stands.symm.trans valid'.candidate
    have fau' : n.pred.isFau = true :=
      wins _ (takenMatches_bestFirst_valid distinct) n taken ⟨f, member, possible⟩
    have placement : n.placement = .heldReregistration := by
      unfold Match.placement
      cases pred : n.pred with
      | closing j => simp [pred, PredKind.isFau] at fau'
      | fau k => rfl
    obtain ⟨q, source, laid, once⟩ := outlines.creation valid'.candidate
      (placeAll_taken snapshot taken)
    obtain ⟨own, placed, position, verification, slug⟩ := q
    cases source
    have held : verification = .held := laid.held.mpr (.inl placement)
    subst held
    obtain rfl : slug = none := laid.slugless rfl
    refine ⟨?_, ops ▸ outlines.unlisted distinct valid'.candidate once, ?_⟩
    · rw [SyncPlan.CreatesOnce, ops]
      exact once
    · obtain ⟨g, listed, may, school⟩ := Match.ValidFor.mayBe valid' fau'
      refine ⟨g, listed, may, reregistrationReview n,
        reviews _ (outlines.reviewed taken fau'), rfl, ?_, rfl⟩
      rw [school]
      rfl

end

-----------------------------------------------------------------------------------------
-- A candidate between two leaving schools

section

variable [OsloZone]

/-- Fifty schools of one municipality, the third with a live FAU. -/
def twinRegister : RegisterSnapshot Nat :=
  { sampleRegister with
    schools := [
      sampleSchool 2 "975288001" "Ask skole" "ask-skole",
      { sampleSchool 3 "975288002" "Ask skole sør" "ask-skole-sor" with hasLiveFau := true }]
      ++ (List.range 48).map fun i =>
        sampleSchool (i + 4) (975289000 + i).repr "Skole" ("skole-" ++ i.repr) }

/-- Both Ask schools were merged away, and a new unit has the name of the first. -/
def twinInputs : SyncInputs :=
  { sampleInputs with
    units := [
      sampleUnit "975288001" "Ask skole" false,
      sampleUnit "975288002" "Ask skole sør" false,
      sampleUnit "975288003" "Ask skole" true]
    kind := .sync }

/-- The new unit takes over the first school, and only the closure of the other is up for
review.
-/
def twinPlan : SyncPlan Nat :=
  {
    municipalityOps := []
    schoolOps := [
      .close 2 .merged (osloToday 0) (some (.new 0)),
      .create 0 (.existing 1) "975288003" "Ask skole" "Ask skole" (some "ask-skole") .listed
        true (.fromUnit (sampleUnit "975288003" "Ask skole" true)) none]
    reviews := [
      {
        kind := .closureWithFau
        school := some (.existing 3)
        otherSchool := none
        municipality := some (.existing 1)
        details := [
          ("orgnr", "975288002"),
          ("name", "Ask skole sør"),
          ("reason", "merged"),
          ("closed_on", (osloToday 0).toString)]
      }]
    counts := { schoolsCreated := 1, schoolsClosed := 1, reviews := 1 }
  }

end

section

attribute [local instance] OsloZone.atEpoch UnicodeData.ascii

/-- The candidate may be the school with the FAU, and yet is listed. -/
theorem twinPlan_lists_fau_match
    : ¬ ∀ (snapshot : RegisterSnapshot Nat) (inputs : SyncInputs) (p : SyncPlan Nat),
        plan snapshot inputs = some (.apply p) →
        ∀ sorted, runSorted snapshot inputs = some sorted → p.HoldsFauMatches sorted := by
  intro claim
  have planned : plan twinRegister twinInputs = some (.apply twinPlan) := by decide +kernel
  have matched : (runSorted twinRegister twinInputs).any (fun sorted =>
      sorted.candidates[0]?.any fun c => sorted.fauClosings.any fun f =>
        f.school.hasLiveFau && f.reregistrable
          && decide (c.municipality = .existing f.school.municipalityId)
          && decide (3 / 5 ≤ exactNameSimilarity f.school c.unit.name)) = true := by
    decide +kernel
  obtain ⟨sorted, sorts, found⟩ := (Option.any_eq_true _ _).mp matched
  obtain ⟨c, stands, matching⟩ := (Option.any_eq_true _ _).mp found
  obtain ⟨f, member, fits⟩ := List.any_eq_true.mp matching
  simp only [Bool.and_eq_true, decide_eq_true_eq] at fits
  obtain ⟨⟨⟨live, reregistrable⟩, here⟩, similar⟩ := fits
  have held := (claim _ _ _ planned sorted sorts 0 c stands
    ⟨f, member, live, reregistrable, here, similar⟩).created
  simp [SyncPlan.CreatesOnce, twinPlan, createdSchool?, Candidate.created] at held

theorem sample_runs : (runSorted sampleRegister sampleInputs).isSome = true := by
  decide +kernel

/-- The only candidate of the sample takes over a school without an FAU. -/
theorem samplePlan_holds_fau_matches
    : ∃ sorted, runSorted sampleRegister sampleInputs = some sorted
        ∧ (samplePlan.HoldsFauMatches sorted ↔ sorted.FauMatchesWin) := by
  obtain ⟨sorted, ran⟩ := Option.isSome_iff_exists.mp sample_runs
  exact ⟨sorted, ran, plan_holds_fau_matches (by decide +kernel) sorted ran⟩

/-- The sample closes a school with a successor. -/
theorem samplePlan_successors_settled
    : ∃ sorted, runSorted sampleRegister sampleInputs = some sorted
        ∧ samplePlan.SuccessorsSettled sampleRegister sorted := by
  obtain ⟨sorted, ran⟩ := Option.isSome_iff_exists.mp sample_runs
  exact ⟨sorted, ran, plan_successors_settled (by decide +kernel) sorted ran⟩

end

end FauPortalen.Register

import FauPortalen.Register.Store.ReviewIdempotence

/-! Conservation of units and rows: every new unit becomes one created row, new rows are
numbered without gaps, and every other operation is on a row the run may change, once.
-/

set_option linter.unusedSectionVars false

namespace FauPortalen.Register

open FauPortalen.Foundations

variable {Id : Type}

-----------------------------------------------------------------------------------------
-- What an operation is about

inductive SchoolOpKind
  | create
  | rename
  | updateAttributes
  | move
  | close
deriving DecidableEq

def SchoolOp.kind : SchoolOp Id → SchoolOpKind
  | .create .. => .create
  | .rename .. => .rename
  | .updateAttributes .. => .updateAttributes
  | .move .. => .move
  | .close .. => .close

/-- The organisation number a creation is for. -/
def createdOrgnr? : SchoolOp Id → Option String
  | .create _ _ orgnr .. => some orgnr
  | _ => none

def Ref.new? : Ref Id → Option Nat
  | .existing _ => none
  | .new n => some n

/-- The new schools an operation names: the one it creates, or its successor. -/
def SchoolOp.newSchools (op : SchoolOp Id) : List Nat :=
  (createdSchool? op).toList ++ (op.successor?.bind Ref.new?).toList

/-- The new schools a review item names. -/
def ReviewItem.newSchools (item : ReviewItem Id) : List Nat :=
  (item.school.bind Ref.new?).toList ++ (item.otherSchool.bind Ref.new?).toList

/-- The municipality is one of the existing ones that hold a blocked number. -/
def MunicipalityState.Blocks (state : MunicipalityState Id) (r : Ref Id) : Prop :=
  ∃ id ∈ state.blockedIds, r = .existing id

/-- The unit is to be created: in scope, in an unblocked municipality, and under an
organisation number that no school has or had.
-/
structure NsrUnit.IsNew (unit : NsrUnit) (snapshot : RegisterSnapshot Id)
    (state : MunicipalityState Id) : Prop where
  classified : unit.classified = true
  resolved : ∃ r, state.byNumber unit.municipalityNumber = some r ∧ ¬ state.Blocks r
  unheld : ∀ school ∈ snapshot.schools, school.orgnr ≠ some unit.orgnr
  neverHeld : ∀ row ∈ snapshot.schoolOrgnrHistory, row.1 ≠ unit.orgnr

/-- No row is the target of two operations of one kind, or of a closing and anything else.
-/
def SchoolOp.Apart (a b : SchoolOp Id) : Prop :=
  ∀ id, a.target? = some id → b.target? = some id →
    a.kind ≠ b.kind ∧ a.kind ≠ .close ∧ b.kind ≠ .close

/-- What a plan conserves: units that are new become created rows, once each and numbered
from 0; nothing names another new row; every other operation is on a tracked row outside
the blocked municipalities, and no two collide.
-/
structure Conserves (snapshot : RegisterSnapshot Id) (units : List NsrUnit)
    (state : MunicipalityState Id) (plan : SyncPlan Id) : Prop where
  once : (plan.schoolOps.filterMap createdOrgnr?).Nodup
  created : ∀ orgnr, orgnr ∈ plan.schoolOps.filterMap createdOrgnr?
    ↔ ∃ unit, units.find? (·.orgnr = orgnr) = some unit ∧ unit.IsNew snapshot state
  numbered : plan.schoolOps.filterMap createdSchool?
    = List.range (plan.schoolOps.filterMap createdSchool?).length
  opNames : ∀ op ∈ plan.schoolOps, ∀ n ∈ op.newSchools,
    n ∈ plan.schoolOps.filterMap createdSchool?
  reviewNames : ∀ item ∈ plan.reviews, ∀ n ∈ item.newSchools,
    n ∈ plan.schoolOps.filterMap createdSchool?
  others : ∀ op ∈ plan.schoolOps, op.kind ≠ .create →
    ∃ school ∈ snapshot.schools, op.target? = some school.id
      ∧ school.status = .active
      ∧ (school.verification = .listed ∨ school.verification = .verified)
      ∧ school.municipalityId ∉ state.blockedIds
  apart : plan.schoolOps.Pairwise SchoolOp.Apart

-----------------------------------------------------------------------------------------
-- Blocked municipalities and blocked numbers

section

variable [LinearOrder Id] [OsloZone] [UnicodeData] {snapshot : RegisterSnapshot Id}
  {inputs : SyncInputs} {municipalities : MunicipalityPlan Id}

/-- A number that resolves is blocked exactly when the municipality it resolves to is. -/
theorem planMunicipalities_blocks (store : StoreConstraints snapshot)
    (planned : planMunicipalities snapshot inputs = some municipalities) {number : String}
    {r : Ref Id} (found : municipalities.state.byNumber number = some r)
    : number ∈ municipalities.state.blockedNumbers ↔ municipalities.state.Blocks r := by
  obtain ⟨groups, records, grouped, recorded, numbers, ids, _, parts⟩ :=
    planMunicipalities_parts planned
  obtain ⟨groups', grouped', coherent⟩ :=
    planCodeChanges_coherent store.rowKeys inputs.municipalities inputs.codeChanges
  cases grouped.symm.trans grouped'
  obtain ⟨kept, unresolved⟩ := planMunicipalities_numbers store planned grouped
  have blocked_ids : ∀ id, id ∈ municipalities.state.blockedIds
      ↔ ∃ w, groups.working id = some w ∧ w.number ∈ groups.blockedNumbers := by
    intro id
    simp only [ids, List.mem_toFinset, List.mem_map, List.mem_filter, mem_workingRows,
      decide_eq_true_eq]
    constructor
    · rintro ⟨w, ⟨⟨row, _, working⟩, blocked⟩, rfl⟩
      obtain ⟨_, same⟩ := coherent.row _ _ working
      exact ⟨w, same ▸ working, blocked⟩
    · rintro ⟨w, working, blocked⟩
      obtain ⟨active, same⟩ := coherent.row _ _ working
      exact ⟨w, ⟨⟨w.row, active, same ▸ working⟩, blocked⟩, same⟩
  rw [numbers]
  constructor
  · intro blocked
    cases held : groups.byNumber number with
    | none => cases (unresolved number blocked held).symm.trans found
    | some r' =>
        cases (kept number r' held).symm.trans found
        obtain ⟨id, w, rfl, working, rfl⟩ := coherent.holder number r held
        exact ⟨id, (blocked_ids id).mpr ⟨w, working, blocked⟩, rfl⟩
  · rintro ⟨id, inside, rfl⟩
    obtain ⟨w, working, blocked⟩ := (blocked_ids id).mp inside
    have held := planMunicipalities_existing store planned grouped found
    obtain ⟨_, w', same, working', at_number⟩ := coherent.holder number _ held
    cases same
    cases working.symm.trans working'
    exact at_number ▸ blocked

/-- A unit resolves as the code has it exactly when its number resolves to a municipality that
is not blocked.
-/
theorem planMunicipalities_resolves (store : StoreConstraints snapshot)
    (planned : planMunicipalities snapshot inputs = some municipalities) {number : String}
    {r : Ref Id}
    : municipalities.state.resolve number = .municipality r
      ↔ municipalities.state.byNumber number = some r ∧ ¬ municipalities.state.Blocks r := by
  rw [resolve_eq_municipality]
  constructor
  · intro ⟨unblocked, found⟩
    exact ⟨found, fun blocks =>
      unblocked ((planMunicipalities_blocks store planned found).mpr blocks)⟩
  · intro ⟨found, unblocked⟩
    exact ⟨fun blocked =>
      unblocked ((planMunicipalities_blocks store planned found).mp blocked), found⟩

-----------------------------------------------------------------------------------------
-- The units that are created

omit [LinearOrder Id] [OsloZone] [UnicodeData] in
/-- Normalising keeps the first fetched unit of each organisation number. -/
theorem mem_normaliseUnits {units : List NsrUnit} {unit : NsrUnit}
    : unit ∈ normaliseUnits units ↔ units.find? (·.orgnr = unit.orgnr) = some unit := by
  have same : (normaliseUnits units).find? (·.orgnr = unit.orgnr)
      = units.find? (·.orgnr = unit.orgnr) := by
    rw [normaliseUnits, find?_dropRepeats, find?_sortOn]
  rw [← same]
  constructor
  · intro member
    cases found : (normaliseUnits units).find? (·.orgnr = unit.orgnr) with
    | none => simpa using List.find?_eq_none.mp found unit member
    | some other =>
        have orgnr : other.orgnr = unit.orgnr := by simpa using List.find?_some found
        rw [List.inj_on_of_nodup_map (nodup_dropRepeats_sortOn NsrUnit.orgnr units)
          (List.mem_of_find?_eq_some found) member orgnr]
  · exact List.mem_of_find?_eq_some

/-- A new unit's fate is to be a candidate, and only a new unit's. -/
theorem isNew_iff_candidate (store : StoreConstraints snapshot)
    (planned : planMunicipalities snapshot inputs = some municipalities) {unit : NsrUnit}
    {moment : Moment}
    : unit.IsNew snapshot municipalities.state
      ↔ ∃ r, fate snapshot municipalities.state moment unit = .candidate r := by
  constructor
  · intro h
    obtain ⟨r, resolved⟩ := h.resolved
    have unheld : schoolByOrgnr snapshot unit.orgnr = none := by
      cases found : schoolByOrgnr snapshot unit.orgnr with
      | none => rfl
      | some school =>
          obtain ⟨member, orgnr⟩ := store.schoolByOrgnr_eq_some.mp found
          exact absurd orgnr (h.unheld school member)
    have fresh : isFormerOrgnr snapshot unit.orgnr = false := by
      simpa [isFormerOrgnr] using fun orgnr id member => h.neverHeld (orgnr, id) member
    refine ⟨r, ?_⟩
    rw [fate_of_none unheld, (planMunicipalities_resolves store planned).mpr resolved, fresh,
      h.classified]
    rfl
  · rintro ⟨r, found⟩
    obtain ⟨unheld, classified, fresh, resolved⟩ := fate_candidate found
    refine ⟨classified, ⟨r, (planMunicipalities_resolves store planned).mp resolved⟩, ?_, ?_⟩
    · intro school member orgnr
      rw [store.schoolByOrgnr_eq_some.mpr ⟨member, orgnr⟩] at unheld
      cases unheld
    · intro row member same
      have former : isFormerOrgnr snapshot unit.orgnr = true :=
        List.any_eq_true.mpr ⟨row, member, by simpa using same⟩
      rw [fresh] at former
      cases former

-----------------------------------------------------------------------------------------
-- The operations of a draft

variable {state : MunicipalityState Id} {moment : Moment} {units : List NsrUnit}
  {draft : SchoolDraft Id} {plan : SchoolPlan Id}

/-- What only creations have, a plan has from its creations, in their order. -/
theorem SchoolDraft.Makes.filterMap_create {sorted : Sorted Id} {β : Type}
    (makes : draft.Makes snapshot sorted plan) (f : SchoolOp Id → Option β)
    (others : ∀ op, op.kind ≠ .create → f op = none)
    : plan.ops.filterMap f = draft.creates.filterMap fun p => f p.op := by
  have closings : ((placedUnits snapshot sorted).closings.map closeOp).filterMap f = [] := by
    refine List.filterMap_eq_nil_iff.mpr fun op member => ?_
    obtain ⟨c, _, rfl⟩ := List.mem_map.mp member
    exact others _ (by simp [closeOp, SchoolOp.kind])
  have updates : (draft.updates.flatMap PlannedUpdate.ops).filterMap f = [] := by
    refine List.filterMap_eq_nil_iff.mpr fun op member => ?_
    obtain ⟨p, _, own⟩ := List.mem_flatMap.mp member
    rcases PlannedUpdate.mem_ops.mp own with ⟨_, rfl⟩ | ⟨_, rfl⟩ | ⟨_, rfl⟩
      <;> exact others _ (by simp [SchoolOp.kind])
  rw [makes.ops, SchoolDraft.laterOps, List.filterMap_append, List.filterMap_append, closings,
    updates, List.nil_append, List.append_nil, List.filterMap_map]
  rfl

/-- The creations are those of the candidates, in their order. -/
theorem SchoolDraft.Makes.candidates {sorted : Sorted Id}
    (makes : draft.Makes snapshot sorted plan)
    : draft.creates.map (·.candidate) = sorted.candidates := by
  have split : draft.creates.map (·.candidate)
      = (draft.creates.map PlannedCreate.source).map (·.1.1) := by
    simp [PlannedCreate.source, Function.comp_def]
  have placed : sorted.candidates.length ≤ (placedUnits snapshot sorted).placements.length :=
    le_of_eq (placeAll_length snapshot).symm
  have zipped : (numberedCandidates snapshot sorted).map (·.1.1) = sorted.candidates := by
    rw [numberedCandidates, show (fun placed : (Candidate Id × Placement) × Nat => placed.1.1)
      = Prod.fst ∘ Prod.fst from rfl, ← List.map_map, List.zipIdx_map_fst,
      List.map_fst_zip placed]
  rw [split, makes.creates, zipped]

/-- The created rows are numbered from 0, one for each candidate. -/
theorem SchoolDraft.Makes.createdSchools
    (makes : draft.Makes snapshot (sortUnits snapshot state moment units) plan)
    : plan.ops.filterMap createdSchool?
      = List.range (sortUnits snapshot state moment units).candidates.length := by
  rw [makes.filterMap_create createdSchool? (by intro op; cases op <;> simp [SchoolOp.kind,
    createdSchool?]), ← makes.candidates, List.length_map,
    ← SchoolDraft.Sorts.numbers ⟨makes.creates, makes.updates⟩]
  simp [PlannedCreate.op, createdSchool?]

/-- The creations are for the candidates' organisation numbers. -/
theorem SchoolDraft.Makes.createdOrgnrs {sorted : Sorted Id}
    (makes : draft.Makes snapshot sorted plan)
    : plan.ops.filterMap createdOrgnr? = sorted.candidates.map (·.unit.orgnr) := by
  rw [makes.filterMap_create createdOrgnr? (by intro op; cases op <;> simp [SchoolOp.kind,
    createdOrgnr?]), ← makes.candidates]
  simp [PlannedCreate.op, createdOrgnr?, Function.comp_def]

/-- A successor is one of the candidates. -/
theorem SchoolDraft.Makes.successor_lt
    (makes : draft.Makes snapshot (sortUnits snapshot state moment units) plan)
    (store : StoreConstraints snapshot) {op : SchoolOp Id} (member : op ∈ plan.ops) {n : Nat}
    (named : op.successor? = some (.new n))
    : n < (sortUnits snapshot state moment units).candidates.length := by
  rcases makes.mem_ops.mp member with ⟨c, inside, rfl⟩ | ⟨p, _, rfl⟩ | ⟨p, _, own⟩
  · obtain ⟨j, before, stands, rfl⟩ := mem_placeAll_closings snapshot inside
    obtain ⟨u, _, closes⟩ := mem_closings.mp (List.mem_of_getElem? stands)
    have unset : before.successor = none := by
      rw [(fate_closing store closes).2.2]
    unfold settleClosing at named
    split at named
    · next m found =>
        cases named
        have taken := List.mem_of_find?_eq_some found
        exact (List.getElem?_eq_some_iff.mp (takenMatches_valid taken).candidate).1
    · rw [closeOp, SchoolOp.successor?, unset] at named
      cases named
  · cases named
  · rcases PlannedUpdate.mem_ops.mp own with ⟨_, rfl⟩ | ⟨_, rfl⟩ | ⟨_, rfl⟩ <;> cases named

omit [OsloZone] in
/-- The assignment's items name candidates as their new schools. -/
theorem placeAll_reviews_newSchools {candidates : List (Candidate Id)}
    {closings : List (Closing Id)} {fauClosings : List (FauClosing Id)} {item : ReviewItem Id}
    (member : item ∈ (placeAll candidates snapshot closings fauClosings).reviews) {n : Nat}
    (named : n ∈ item.newSchools)
    : n < candidates.length := by
  rw [placeAll_reviews] at member
  rcases List.mem_append.mp member with reregistered | submitted
  · obtain ⟨m, inside, rfl⟩ := List.mem_map.mp reregistered
    have own : n = m.candidate := by
      simpa [ReviewItem.newSchools, reregistrationReview, Ref.new?] using named
    have valid := takenMatches_valid (List.mem_of_mem_filter inside)
    exact own ▸ (List.getElem?_eq_some_iff.mp valid.candidate).1
  · obtain ⟨remaining, inside, raised⟩ := List.mem_flatMap.mp submitted
    obtain ⟨candidate, stands, rfl⟩ := List.mem_map.mp inside
    unfold placeRemaining at raised
    split at raised
    · cases raised
    · split at raised
      · cases List.mem_singleton.mp raised
        have own : n = candidate.2 := by
          simpa [ReviewItem.newSchools, submissionReview, Ref.new?] using named
        have index := List.mk_mem_zipIdx_iff_getElem?.mp stands
        exact own ▸ (List.getElem?_eq_some_iff.mp index).1
      · cases raised

omit [LinearOrder Id] [OsloZone] [UnicodeData] in
/-- An item that resolves under any new ids names no new school. -/
theorem ReviewItem.NamesExisting.newSchools {item : ReviewItem Id} (h : item.NamesExisting)
    : item.newSchools = [] := by
  let none_new : NewIds Id := ⟨Lookup.empty, Lookup.empty⟩
  obtain ⟨key, resolved, _⟩ := h none_new none_new
  simp only [NewIds.dedupKey, Option.bind_eq_bind, Option.bind_eq_some_iff] at resolved
  obtain ⟨school, found, other, found', _⟩ := resolved
  have existing (reference : Option (Ref Id)) (id : Option Id)
      (resolves : reference.mapM none_new.schoolId = some id) : reference.bind Ref.new? = none := by
    cases reference with
    | none => rfl
    | some r =>
        cases r with
        | existing _ => rfl
        | new n => simp [NewIds.schoolId, none_new] at resolves
  rw [ReviewItem.newSchools, existing _ _ found, existing _ _ found']
  rfl

/-- Every review item of a run names candidates as its new schools. -/
theorem SchoolDraft.Makes.reviews_newSchools {sorted : Sorted Id}
    (makes : draft.Makes snapshot sorted plan) {item : ReviewItem Id}
    (member : item ∈ plan.reviews) {n : Nat} (named : n ∈ item.newSchools)
    : n < sorted.candidates.length := by
  rw [makes.reviews] at member
  rcases List.mem_append.mp member with early | unknown
  · rcases List.mem_append.mp early with placed | closed
    · exact placeAll_reviews_newSchools placed named
    · obtain ⟨f, _, rfl⟩ := List.mem_map.mp closed
      rw [(closureReview_namesExisting f).newSchools] at named
      cases named
  · obtain ⟨group, _, rfl⟩ := List.mem_map.mp unknown
    rw [(unknownNumberReview_namesExisting group).newSchools] at named
    cases named

section

variable (makes : draft.Makes snapshot (sortUnits snapshot state moment units) plan)
  (store : StoreConstraints snapshot)
include makes store

/-- What is no creation acts on a tracked row of an unblocked municipality. -/
theorem SchoolDraft.Makes.others {op : SchoolOp Id} (member : op ∈ plan.ops)
    (other : op.kind ≠ .create)
    : ∃ school ∈ snapshot.schools, op.target? = some school.id ∧ school.isTracked = true
        ∧ school.municipalityId ∉ state.blockedIds := by
  have acted {unit : NsrUnit} {school : SchoolSnapshot Id}
      (acts : (fate snapshot state moment unit).school? = some school)
      : school ∈ snapshot.schools ∧ school.isTracked = true
        ∧ school.municipalityId ∉ state.blockedIds := by
    obtain ⟨inside, _, tracked, unblocked⟩ := fate_school? acts
    exact ⟨inside, tracked, unblocked⟩
  rcases makes.mem_ops.mp member with ⟨c, inside, rfl⟩ | ⟨p, _, rfl⟩ | ⟨p, inside, own⟩
  · have settled := List.mem_map_of_mem (f := fun c => c.school) inside
    rw [show (placedUnits snapshot _).closings.map (fun c => c.school) = _ from
      placeAll_closings snapshot] at settled
    obtain ⟨d, sorted, same⟩ := List.mem_map.mp settled
    obtain ⟨unit, _, closes⟩ := mem_closings.mp sorted
    obtain ⟨known, tracked, unblocked⟩ := acted
      (show (fate snapshot state moment unit).school? = some d.school by rw [closes]; rfl)
    exact ⟨d.school, known, by rw [same]; rfl, tracked, unblocked⟩
  · exact absurd rfl other
  · obtain ⟨_, updates⟩ :=
      mem_updates.mp (SchoolDraft.Sorts.update ⟨makes.creates, makes.updates⟩ inside)
    obtain ⟨known, tracked, unblocked⟩ := acted
      (show (fate snapshot state moment p.update.unit).school? = some p.update.school by
        rw [updates]; rfl)
    exact ⟨p.update.school, known, PlannedUpdate.target own, tracked, unblocked⟩

omit [LinearOrder Id] makes store [OsloZone] [UnicodeData] in
/-- Operations on different rows are apart. -/
theorem SchoolOp.Apart.of_targets {a b : SchoolOp Id}
    (h : ∀ id, a.target? = some id → b.target? ≠ some id)
    : a.Apart b :=
  fun id left right => absurd right (h id left)

omit makes store [OsloZone] [UnicodeData] in
/-- The operations of one update are of different kinds, none a closing. -/
theorem PlannedUpdate.apart (p : PlannedUpdate Id) : p.ops.Pairwise SchoolOp.Apart := by
  unfold PlannedUpdate.ops PlannedUpdate.renameOps PlannedUpdate.moveOps attributeOps
  by_cases changed : p.update.attributes = p.update.school.attributes
    <;> cases renames : p.update.isRenamed <;> cases moving : p.update.isMoving
    <;> simp [changed, SchoolOp.Apart, SchoolOp.kind]

/-- No row is acted on twice by one kind of operation, nor beside its closing. -/
theorem SchoolDraft.Makes.apart (distinct : (units.map NsrUnit.orgnr).Nodup)
    : plan.ops.Pairwise SchoolOp.Apart := by
  have sorts : draft.Sorts snapshot state moment units := ⟨makes.creates, makes.updates⟩
  have closings : ((placedUnits snapshot (sortUnits snapshot state moment units)).closings.map
      closeOp).Pairwise SchoolOp.Apart := by
    have once : ((placedUnits snapshot (sortUnits snapshot state moment units)).closings.map
        (·.school.id)).Nodup := by
      rw [placedUnits_closings]
      exact nodup_closings store.schoolIds distinct
    refine List.pairwise_map.mpr ((List.pairwise_map.mp once).imp fun differ => ?_)
    exact .of_targets fun id left right =>
      differ ((Option.some.inj left).trans (Option.some.inj right).symm)
  have updates : (draft.updates.flatMap PlannedUpdate.ops).Pairwise SchoolOp.Apart := by
    have once : (draft.updates.map (·.update.school.id)).Nodup := by
      have split : draft.updates.map (·.update.school.id)
          = (draft.updates.map PlannedUpdate.update).map (·.school.id) := by
        simp [Function.comp_def]
      rw [split, sorts.updates]
      exact nodup_updates store.schoolIds distinct
    refine List.pairwise_flatMap.mpr ⟨fun p _ => p.apart, ?_⟩
    refine (List.pairwise_map.mp once).imp fun differ a own b own' => ?_
    exact .of_targets fun id left right => differ (Option.some.inj
      (((PlannedUpdate.target own).symm.trans left).trans
        (right.symm.trans (PlannedUpdate.target own'))))
  have creates : ∀ op ∈ draft.creates.map PlannedCreate.op, op.target? = none := by
    intro op member
    obtain ⟨p, _, rfl⟩ := List.mem_map.mp member
    rfl
  have between : ∀ op ∈ (placedUnits snapshot (sortUnits snapshot state moment
      units)).closings.map closeOp, ∀ op' ∈ draft.updates.flatMap PlannedUpdate.ops,
      op.Apart op' := by
    intro op closing op' updating
    obtain ⟨c, inside, rfl⟩ := List.mem_map.mp closing
    obtain ⟨p, member, own⟩ := List.mem_flatMap.mp updating
    have settled := List.mem_map_of_mem (f := fun c => c.school.id) inside
    rw [placedUnits_closings snapshot] at settled
    obtain ⟨d, sorted, same⟩ := List.mem_map.mp settled
    have differ := closing_ne_update store.schoolIds distinct sorted (sorts.update member)
    refine .of_targets fun id left right => differ (same.trans ?_)
    exact (Option.some.inj left).trans
      (Option.some.inj ((PlannedUpdate.target own).symm.trans right)).symm
  have apart_create {a b : SchoolOp Id} (create : a.target? = none ∨ b.target? = none)
      : a.Apart b := by
    refine .of_targets fun id left right => ?_
    rcases create with idle | idle
    · cases idle.symm.trans left
    · cases idle.symm.trans right
  rw [makes.ops, SchoolDraft.laterOps, ← List.append_assoc]
  refine List.pairwise_append.mpr ⟨List.pairwise_append.mpr ⟨closings, ?_, ?_⟩, updates, ?_⟩
  · exact List.pairwise_of_forall_mem_list fun a ha b _ => apart_create (.inl (creates a ha))
  · exact fun a _ b hb => apart_create (.inr (creates b hb))
  · intro a member b updating
    rcases List.mem_append.mp member with closing | create
    · exact between a closing b updating
    · exact apart_create (.inl (creates a create))

end

-----------------------------------------------------------------------------------------
-- Conservation

/-- Every applicable plan conserves units and rows: its creations are the candidates, which
are the new units, and everything else acts on one tracked row each.
-/
theorem plan_conserves (store : StoreConstraints snapshot) {p : SyncPlan Id}
    (planned : FauPortalen.Register.plan snapshot inputs = some (.apply p))
    (first : planMunicipalities snapshot inputs.normalised = some municipalities)
    : Conserves snapshot inputs.units municipalities.state p := by
  obtain ⟨_, steps, stepped, rfl⟩ := planWith_apply planned
  obtain ⟨first', distinct, draft, makes⟩ := planSteps_draft store stepped
  cases first.symm.trans first'
  have orgnrs := makes.createdOrgnrs
  have numbers := makes.createdSchools
  refine ⟨?_, ?_, ?_, ?_, ?_, ?_, makes.apart store distinct⟩
  · show (steps.2.ops.filterMap createdOrgnr?).Nodup
    rw [orgnrs]
    refine nodup_filterMap_keys distinct fun a _ b _ x y hx hy same => ?_
    rw [candidate?_eq_some] at hx hy
    rw [← hx.1, ← hy.1]
    exact same
  · intro orgnr
    show orgnr ∈ steps.2.ops.filterMap createdOrgnr? ↔ _
    simp only [orgnrs, List.mem_map, mem_candidates, mem_normaliseUnits]
    constructor
    · rintro ⟨c, ⟨found, candidate⟩, rfl⟩
      exact ⟨c.unit, found, (isNew_iff_candidate store first).mpr ⟨_, candidate⟩⟩
    · intro ⟨unit, found, isNew⟩
      have own : unit.orgnr = orgnr := by simpa using List.find?_some found
      obtain ⟨r, candidate⟩ := (isNew_iff_candidate store first).mp isNew
      exact ⟨⟨unit, r⟩, ⟨own ▸ found, candidate⟩, own⟩
  · show steps.2.ops.filterMap createdSchool?
      = List.range (steps.2.ops.filterMap createdSchool?).length
    rw [numbers, List.length_range]
  · intro op member n named
    show n ∈ steps.2.ops.filterMap createdSchool?
    rcases List.mem_append.mp named with creates | succeeds
    · exact List.mem_filterMap.mpr ⟨op, member, by simpa using creates⟩
    · obtain ⟨r, successor, new⟩ := Option.bind_eq_some_iff.mp (Option.mem_toList.mp succeeds)
      cases r with
      | existing _ => cases new
      | new m =>
          cases new
          rw [numbers]
          exact List.mem_range.mpr (makes.successor_lt store member successor)
  · intro item member n named
    show n ∈ steps.2.ops.filterMap createdSchool?
    rcases List.mem_append.mp member with municipal | school
    · rw [(planMunicipalities_reviews first item municipal).existing.newSchools] at named
      cases named
    · rw [numbers]
      exact List.mem_range.mpr (makes.reviews_newSchools school named)
  · intro op member other
    obtain ⟨school, inside, target, tracked, unblocked⟩ := makes.others store member other
    obtain ⟨active, verified⟩ := SchoolSnapshot.isTracked_iff.mp tracked
    exact ⟨school, inside, target, active, verified, unblocked⟩

end

section

attribute [local instance] OsloZone.atEpoch UnicodeData.ascii

/-- The sample register's run creates the one new unit. -/
theorem samplePlan_conserves
    : ∃ municipalities : MunicipalityPlan Nat,
        planMunicipalities sampleRegister sampleInputs.normalised = some municipalities
          ∧ Conserves sampleRegister sampleInputs.units municipalities.state samplePlan := by
  have planned : plan sampleRegister sampleInputs = some (.apply samplePlan) := by
    decide +kernel
  obtain ⟨municipalities, _, first, _⟩ :=
    planMunicipalities_named sampleRegister_store.rowKeys sampleInputs.normalised
  exact ⟨municipalities, first, plan_conserves sampleRegister_store planned first⟩

end

end FauPortalen.Register

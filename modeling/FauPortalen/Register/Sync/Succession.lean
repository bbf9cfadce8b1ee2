import FauPortalen.Register.Sync.SecondRun

/-! Which new unit succeeds which leaving school, described on the register and the units
alone: the assignment takes the best-first set of the possible successions.
-/

set_option linter.unusedSectionVars false

namespace FauPortalen.Register

open FauPortalen.Foundations

variable {Id : Type}

/-- A new unit and a leaving school it may have been. -/
structure Succession (Id : Type) where
  unit : NsrUnit
  school : SchoolSnapshot Id

section

variable [LinearOrder Id] [UnicodeData]

namespace Succession

def similarity (s : Succession Id) : Binary32.Units := nameSimilarity s.school s.unit.name

/-- The order in which successions compete. -/
def rank (s : Succession Id)
    : Lex (Binary32.Unitsᵒᵈ × Lex (String × Lex (Bool × Lex (String × Id)))) :=
  toLex (OrderDual.toDual s.similarity, toLex (s.unit.orgnr, toLex (!s.school.hasLiveFau,
    toLex (s.school.orgnr.getD "", s.school.id))))

/-- A unit succeeds one school, and a school without a live FAU has one successor. -/
def Conflicts (s other : Succession Id) : Prop :=
  s.unit.orgnr = other.unit.orgnr
    ∨ (s.school.id = other.school.id ∧ s.school.hasLiveFau = false)

/-- The unit is new, and the school is an open one of its municipality, with a name much like
the unit's, whose own unit a merger or a deletion closed.
-/
structure Possible [OsloZone] (snapshot : RegisterSnapshot Id) (units : List NsrUnit)
    (s : Succession Id) : Prop where
  fetched : units.find? (·.orgnr = s.unit.orgnr) = some s.unit
  classified : s.unit.classified = true
  new : schoolByOrgnr snapshot s.unit.orgnr = none
  unused : isFormerOrgnr snapshot s.unit.orgnr = false
  known : s.school ∈ snapshot.schools
  tracked : s.school.isTracked = true
  left : ∃ old, unitOf? units s.school = some old ∧ isReregistrable old = true
  here : ∃ m ∈ snapshot.municipalities, m.status = .active ∧ m.id = s.school.municipalityId
    ∧ m.number = s.unit.municipalityNumber
  similar : reregistrationThreshold ≤ s.similarity

end Succession

variable [OsloZone] {snapshot : RegisterSnapshot Id} {inputs : SyncInputs}
  {state : MunicipalityState Id} {moment : Moment} {units : List NsrUnit}

/-- The succession behind a match. -/
def Match.succession (m : Match Id) : Succession Id := ⟨m.unit, m.school⟩

-----------------------------------------------------------------------------------------
-- Numbers of existing municipalities

/-- The state resolves the numbers of the active municipalities, and blocks none of them. -/
structure MunicipalityState.Opens (state : MunicipalityState Id)
    (snapshot : RegisterSnapshot Id) : Prop where
  holds : ∀ number id, state.byNumber number = some (.existing id)
    ↔ ∃ m ∈ snapshot.municipalities, m.status = .active ∧ m.id = id ∧ m.number = number
  numbers : state.blockedNumbers = ∅
  ids : state.blockedIds = ∅

/-- Without code changes the record loop and Svalbard only add numbers of new rows. -/
theorem planMunicipalities_opens {plan : MunicipalityPlan Id}
    (store : StoreConstraints snapshot) (unchanged : inputs.codeChanges = [])
    (planned : planMunicipalities snapshot inputs = some plan)
    : plan.state.Opens snapshot := by
  obtain ⟨groups, records, grouped, recorded, blocked, blockedIds, _, parts⟩ :=
    planMunicipalities_parts planned
  rw [unchanged, planCodeChanges_nil] at grouped
  cases grouped
  have added {byNumber : Lookup String (Ref Id)} {number : String} {n : Nat}
      (vacant : byNumber number = none) (wanted : String) (id : Id)
      : byNumber.insert number (.new n) wanted = some (.existing id)
        ↔ byNumber wanted = some (.existing id) := by
    rw [Lookup.insert_apply]
    split
    · next here => simp [here, vacant]
    · rfl
  have looped : ∀ number id, records.byNumber number = some (.existing id)
      ↔ (initialGroupState snapshot).byNumber number = some (.existing id) := by
    refine foldlM_preserves (P := fun state : RecordState Id => ∀ number id,
      state.byNumber number = some (.existing id)
        ↔ (initialGroupState snapshot).byNumber number = some (.existing id)) ?_ recorded
      (fun _ _ => Iff.rfl)
    intro before r _ after stepped kept
    unfold stepRecord at stepped
    split at stepped
    · cases stepped
      exact kept
    · split at stepped
      · obtain ⟨w, _, same⟩ := Option.bind_eq_some_iff.mp stepped
        cases same
        exact kept
      · cases stepped
        exact kept
      · next vacant =>
          split at stepped
          · cases stepped
            exact fun number id => (added vacant number id).trans (kept number id)
          · cases stepped
            exact kept
          · cases stepped
            exact kept
  refine ⟨fun number id => ?_, blocked, by simp [blockedIds, initialGroupState]⟩
  rw [← initialGroupState_existing store, ← looped]
  rcases parts with ⟨_, byNumber, _⟩ | ⟨vacant, _, byNumber, _⟩
  · rw [byNumber]
  · rw [byNumber]
    exact added vacant number id

-----------------------------------------------------------------------------------------
-- Matches are the possible successions

section

variable (store : StoreConstraints snapshot) (opens : state.Opens snapshot)
include store opens

/-- A school that a unit closed or left: the same unit, whichever list the school is on. -/
private theorem Succession.left_of_fate {unit : NsrUnit} {school : SchoolSnapshot Id}
    (fetched : units.find? (·.orgnr = unit.orgnr) = some unit)
    (acts : (fate snapshot state moment unit).school? = some school)
    (reregistrable : isReregistrable unit = true)
    : school ∈ snapshot.schools ∧ school.isTracked = true
      ∧ ∃ old, unitOf? units school = some old ∧ isReregistrable old = true := by
  obtain ⟨known, orgnr, tracked, _⟩ := fate_school? acts
  exact ⟨known, tracked, unit, by simp [unitOf?, orgnr, fetched], reregistrable⟩

variable (distinct : (units.map NsrUnit.orgnr).Nodup)
include distinct

omit store opens in
/-- Among units with distinct organisation numbers each is found by its own. -/
theorem find?_unit {unit : NsrUnit} (member : unit ∈ units)
    : units.find? (·.orgnr = unit.orgnr) = some unit := by
  cases found : units.find? (·.orgnr = unit.orgnr) with
  | none => exact absurd (List.find?_eq_none.mp found unit member) (by simp)
  | some other =>
      have same : other.orgnr = unit.orgnr := by simpa using List.find?_some found
      rw [List.inj_on_of_nodup_map distinct (List.mem_of_find?_eq_some found) member same]

/-- A valid match is a possible succession, and its predecessor has an FAU when the school
has one.
-/
theorem Match.Valid.possible {m : Match Id}
    (h : m.Valid (sortUnits snapshot state moment units).candidates
      (sortUnits snapshot state moment units).closings
      (sortUnits snapshot state moment units).fauClosings)
    : m.succession.Possible snapshot units ∧ m.pred.isFau = m.school.hasLiveFau := by
  obtain ⟨inside, candidate⟩ := mem_candidates.mp (List.mem_of_getElem? h.candidate)
  obtain ⟨new, classified, unused, resolved⟩ := fate_candidate candidate
  have here := (opens.holds _ _).mp ((resolve_eq_municipality.mp resolved).2.trans
    (congrArg some h.here))
  have similar : reregistrationThreshold ≤ m.succession.similarity :=
    h.similar.1.trans_eq h.similar.2
  have fetched := find?_unit distinct inside
  cases pred : m.pred with
  | closing j =>
      obtain ⟨c, stands, school, rereg⟩ := h.closing j pred
      obtain ⟨old, own, closes⟩ := mem_closings.mp (List.mem_of_getElem? stands)
      obtain ⟨_, fauless, facts⟩ := fate_closing store closes
      rw [facts] at rereg
      obtain ⟨known, tracked, left⟩ := Succession.left_of_fate store opens
        (find?_unit distinct own) (by rw [closes]; rfl) rereg
      rw [school] at known tracked left fauless
      exact ⟨⟨fetched, classified, new, unused, known, tracked, left, here, similar⟩,
        fauless.symm⟩
  | fau k =>
      obtain ⟨f, stands, school, rereg⟩ := h.fau k pred
      obtain ⟨old, own, reviews⟩ := mem_fauClosings.mp (List.mem_of_getElem? stands)
      obtain ⟨_, live, facts⟩ := fate_fauClosing store reviews
      rw [facts] at rereg
      obtain ⟨known, tracked, left⟩ := Succession.left_of_fate store opens
        (find?_unit distinct own) (by rw [reviews]; rfl) rereg
      rw [school] at known tracked left live
      exact ⟨⟨fetched, classified, new, unused, known, tracked, left, here, similar⟩,
        live.symm⟩

/-- A possible succession is a valid match. -/
theorem Succession.Possible.valid {s : Succession Id} (h : s.Possible snapshot units)
    : ∃ m : Match Id, m.Valid (sortUnits snapshot state moment units).candidates
          (sortUnits snapshot state moment units).closings
          (sortUnits snapshot state moment units).fauClosings
        ∧ m.succession = s := by
  obtain ⟨row, member, active, home, number⟩ := h.here
  have resolved : state.resolve s.unit.municipalityNumber
      = .municipality (.existing s.school.municipalityId) := by
    refine resolve_eq_municipality.mpr ⟨opens.numbers ▸ Finset.notMem_empty _, ?_⟩
    exact (opens.holds _ _).mpr ⟨row, member, active, home, number⟩
  have candidate : fate snapshot state moment s.unit
      = .candidate (.existing s.school.municipalityId) := by
    rw [fate_of_none h.new, h.classified, h.unused, resolved]
    rfl
  have sorted : (⟨s.unit, .existing s.school.municipalityId⟩ : Candidate Id)
      ∈ (sortUnits snapshot state moment units).candidates :=
    mem_candidates.mpr ⟨List.mem_of_find?_eq_some h.fetched, candidate⟩
  obtain ⟨i, stands⟩ := List.mem_iff_getElem?.mp sorted
  obtain ⟨old, own, rereg⟩ := h.left
  obtain ⟨inside, orgnr⟩ := unitOf?_eq_some own
  have leaves : unitLeaves old s.school = true := by
    have inactive : old.isActive = false := by
      simp only [isReregistrable, Bool.and_eq_true, Bool.not_eq_true'] at rereg
      exact rereg.1
    simp [unitLeaves, inactive]
  have fated : fate snapshot state moment old = closureFate old s.school moment := by
    rw [fate_of_school store h.known orgnr,
      schoolFate_of_tracked h.tracked (opens.ids ▸ Finset.notMem_empty _), if_pos leaves]
  rcases closureFate_cases old s.school moment with ⟨live, closes⟩ | ⟨fauless, closes⟩
  · obtain ⟨k, listed⟩ := List.mem_iff_getElem?.mp
      (mem_fauClosings.mpr ⟨old, inside, fated.trans closes⟩)
    refine ⟨⟨i, s.unit, .existing s.school.municipalityId, .fau k, s.school, s.similarity⟩,
      ⟨stands, rfl, (fun _ other => by cases other), fun k' same => ?_, h.similar, rfl⟩, rfl⟩
    cases same
    exact ⟨_, listed, rfl, rereg⟩
  · obtain ⟨j, listed⟩ := List.mem_iff_getElem?.mp
      (mem_closings.mpr ⟨old, inside, fated.trans closes⟩)
    refine ⟨⟨i, s.unit, .existing s.school.municipalityId, .closing j, s.school,
      s.similarity⟩,
      ⟨stands, rfl, fun j' same => ?_, (fun _ other => by cases other), h.similar, rfl⟩, rfl⟩
    cases same
    exact ⟨_, listed, rfl, rereg⟩

/-- Two possible successions of one rank are one. -/
theorem Succession.Possible.ext_rank {s t : Succession Id} (hs : s.Possible snapshot units)
    (ht : t.Possible snapshot units) (same : s.rank = t.rank)
    : s = t := by
  simp only [Succession.rank, EmbeddingLike.apply_eq_iff_eq, Prod.mk.injEq] at same
  obtain ⟨_, orgnr, _, _, id⟩ := same
  have unit : s.unit = t.unit := by
    have left := hs.fetched
    rw [orgnr, ht.fetched] at left
    exact (Option.some.inj left).symm
  have school : s.school = t.school := store.school_ext hs.known ht.known id
  cases s
  cases t
  simp_all

-----------------------------------------------------------------------------------------
-- The assignment is best first

variable (moment)

/-- Valid matches conflict when their successions do. -/
theorem Match.Valid.conflicts_iff {m other : Match Id}
    (hm : m.Valid (sortUnits snapshot state moment units).candidates
      (sortUnits snapshot state moment units).closings
      (sortUnits snapshot state moment units).fauClosings)
    (ho : other.Valid (sortUnits snapshot state moment units).candidates
      (sortUnits snapshot state moment units).closings
      (sortUnits snapshot state moment units).fauClosings)
    : m.Conflicts other ↔ m.succession.Conflicts other.succession := by
  obtain ⟨possible, fau⟩ := hm.possible store opens distinct
  obtain ⟨possible', fau'⟩ := ho.possible store opens distinct
  refine or_congr ?_ ?_
  · constructor
    · intro same
      have unit := hm.candidate.symm.trans (same ▸ ho.candidate)
      exact congrArg (NsrUnit.orgnr ∘ Candidate.unit) (Option.some.inj unit)
    · intro same
      have once : ((sortUnits snapshot state moment units).candidates.map
          (·.unit.orgnr)).Nodup := by
        refine nodup_filterMap_keys distinct fun a _ b _ x y hx hy same => ?_
        rw [candidate?_eq_some] at hx hy
        rw [← hx.1, ← hy.1]
        exact same
      refine (List.getElem?_inj ?_ once).mp ?_
      · rw [List.length_map]
        exact (List.getElem?_eq_some_iff.mp hm.candidate).1
      · rw [List.getElem?_map, List.getElem?_map, hm.candidate, ho.candidate]
        exact congrArg some same
  · constructor
    · rintro ⟨same, closing⟩
      refine ⟨?_, fau ▸ closing⟩
      cases pred : m.pred with
      | fau k => simp [pred, PredKind.isFau] at closing
      | closing j =>
          obtain ⟨c, stands, school, _⟩ := hm.closing j pred
          obtain ⟨c', stands', school', _⟩ := ho.closing j (same ▸ pred)
          cases stands.symm.trans stands'
          exact congrArg SchoolSnapshot.id (school.symm.trans school')
    · rintro ⟨same, fauless⟩
      have school : m.school = other.school :=
        store.school_ext possible.known possible'.known same
      have fauless : m.school.hasLiveFau = false := fauless
      have closing : m.pred.isFau = false := fau.trans fauless
      have closing' : other.pred.isFau = false := fau'.trans (school ▸ fauless)
      refine ⟨?_, closing⟩
      cases pred : m.pred with
      | fau k => simp [pred, PredKind.isFau] at closing
      | closing j =>
          cases pred' : other.pred with
          | fau k => simp [pred', PredKind.isFau] at closing'
          | closing j' =>
              obtain ⟨c, stands, own, _⟩ := hm.closing j pred
              obtain ⟨c', stands', own', _⟩ := ho.closing j' pred'
              have once : ((sortUnits snapshot state moment units).closings.map
                  (·.school.id)).Nodup := nodup_closings store.schoolIds distinct
              have index : j = j' := by
                refine (List.getElem?_inj ?_ once).mp ?_
                · rw [List.length_map]
                  exact (List.getElem?_eq_some_iff.mp stands).1
                · rw [List.getElem?_map, List.getElem?_map, stands, stands']
                  simp [own, own', school]
              rw [index]

/-- The schools and units of the taken matches are a best-first set of the possible
successions.
-/
theorem takenMatches_bestFirst
    : IsBestFirst (· ∈ (rankedMatches (sortUnits snapshot state moment units).candidates
          (sortUnits snapshot state moment units).closings
          (sortUnits snapshot state moment units).fauClosings).map Match.succession)
        Succession.rank Succession.Conflicts
        (· ∈ (takenMatches (sortUnits snapshot state moment units).candidates
          (sortUnits snapshot state moment units).closings
          (sortUnits snapshot state moment units).fauClosings).map Match.succession) := by
  have rank_eq {m : Match Id}
      (valid : m.Valid (sortUnits snapshot state moment units).candidates
        (sortUnits snapshot state moment units).closings
        (sortUnits snapshot state moment units).fauClosings)
      : m.rank = m.succession.rank := by
    simp only [Match.rank, Succession.rank, Succession.similarity, Match.succession,
      valid.similar.2, (valid.possible store opens distinct).2]
  refine ((greedySelect_isGreedy Match.Conflicts _).map Match.succession
    fun a ha b hb => ?_).isBestFirst ?_ ?_
  · exact (mem_rankedMatches.mp ha).conflicts_iff moment store opens distinct
      (mem_rankedMatches.mp hb)
  · refine List.pairwise_map.mpr ((pairwise_sortOn Match.rank _).imp_of_mem ?_)
    intro a b ha hb ordered
    rw [← rank_eq (mem_rankedMatches.mp ha), ← rank_eq (mem_rankedMatches.mp hb)]
    exact ordered
  · intro a ha b hb same
    obtain ⟨m, hm, rfl⟩ := List.mem_map.mp ha
    obtain ⟨n, hn, rfl⟩ := List.mem_map.mp hb
    exact Succession.Possible.ext_rank store opens distinct
      ((mem_rankedMatches.mp hm).possible store opens distinct).1
      ((mem_rankedMatches.mp hn).possible store opens distinct).1 same

/-- No taken match has a live FAU, exactly when no school in the best-first set has one. -/
theorem fauless_successions
    : (∀ chosen, IsBestFirst (Succession.Possible snapshot units) Succession.rank
          Succession.Conflicts chosen →
        ∀ s, chosen s → s.school.hasLiveFau = false)
      ↔ ∀ m ∈ takenMatches (sortUnits snapshot state moment units).candidates
          (sortUnits snapshot state moment units).closings
          (sortUnits snapshot state moment units).fauClosings, m.pred.isFau = false := by
  have best := takenMatches_bestFirst moment store opens distinct
  have among : (· ∈ (rankedMatches (sortUnits snapshot state moment units).candidates
      (sortUnits snapshot state moment units).closings
      (sortUnits snapshot state moment units).fauClosings).map Match.succession)
      = Succession.Possible snapshot units := by
    funext s
    refine propext ⟨fun member => ?_, fun possible => ?_⟩
    · obtain ⟨m, inside, rfl⟩ := List.mem_map.mp member
      exact ((mem_rankedMatches.mp inside).possible store opens distinct).1
    · obtain ⟨m, valid, rfl⟩ := possible.valid store opens distinct
      exact List.mem_map_of_mem (mem_rankedMatches.mpr valid)
  constructor
  · intro fauless m taken
    rw [((takenMatches_valid taken).possible store opens distinct).2]
    exact fauless _ (among ▸ best) m.succession (List.mem_map_of_mem taken)
  · intro fauless chosen settled s inside
    rw [← among] at settled
    obtain ⟨m, taken, rfl⟩ := List.mem_map.mp ((settled.unique best s).mp inside)
    rw [show m.succession.school = m.school from rfl,
      ← ((takenMatches_valid taken).possible store opens distinct).2]
    exact fauless m taken

end

end

end FauPortalen.Register

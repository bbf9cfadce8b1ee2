import FauPortalen.Register.Sync.PlanTargets

/-! The assignment in a plan of any register: the taken matches are a best-first set of the
valid ones, and each of them shows in the plan as a closure with its successor, or as a held
row with its review item.
-/

set_option linter.unusedSectionVars false

namespace FauPortalen.Register

open FauPortalen.Foundations

variable {Id : Type} [LinearOrder Id] [OsloZone] {snapshot : RegisterSnapshot Id}
  {state : MunicipalityState Id} {moment : Moment} {unit : NsrUnit} {units : List NsrUnit}

-----------------------------------------------------------------------------------------
-- Leaving schools of any register

theorem schoolByOrgnr_known {orgnr : String} {school : SchoolSnapshot Id}
    (found : schoolByOrgnr snapshot orgnr = some school)
    : school ∈ snapshot.schools ∧ school.orgnr = some orgnr := by
  obtain ⟨row, member, same⟩ := List.mem_filterMap.mp (Lookup.mem_of_ofPairs found)
  obtain ⟨own, number, pair⟩ := Option.map_eq_some_iff.mp same
  cases pair
  exact ⟨member, number⟩

/-- A fate acts on the register's school with the unit's organisation number. -/
theorem fate_school_known {school : SchoolSnapshot Id}
    (acts : (fate snapshot state moment unit).school? = some school)
    : school ∈ snapshot.schools ∧ school.orgnr = some unit.orgnr := by
  unfold fate at acts
  split at acts
  · next found =>
      obtain ⟨rfl, _⟩ := schoolFate_school? acts
      exact schoolByOrgnr_known found
  · split at acts
    · obtain ⟨_, _, impossible⟩ := Resolved.fate_school? acts
      cases impossible
    · cases acts

/-- A school that closes has no FAU, and no successor yet. -/
theorem schoolFate_closing {school : SchoolSnapshot Id} {c : Closing Id}
    (h : schoolFate state moment unit school = .closing c)
    : c.school.hasLiveFau = false ∧ c.successor = none := by
  unfold schoolFate at h
  split at h
  · cases h
  · split at h
    · cases h
    · split at h
      · rcases closureFate_cases unit school moment with ⟨_, closes⟩ | ⟨fauless, closes⟩
        · rw [closes] at h
          cases h
        · rw [closes] at h
          cases h
          exact ⟨fauless, rfl⟩
      · obtain ⟨_, _, same⟩ := Resolved.fate_found h (by simp) (by simp)
        cases same

theorem fate_closing_fresh {c : Closing Id}
    (h : fate snapshot state moment unit = .closing c)
    : c.school.hasLiveFau = false ∧ c.successor = none := by
  unfold fate at h
  split at h
  · exact schoolFate_closing h
  · split at h
    · obtain ⟨_, _, same⟩ := Resolved.fate_found h (by simp) (by simp)
      cases same
    · cases h

/-- A school that leaves without closing has a live FAU. -/
theorem fate_fauClosing_live {f : FauClosing Id}
    (h : fate snapshot state moment unit = .fauClosing f)
    : f.school.hasLiveFau = true := by
  unfold fate at h
  split at h
  · next school _ =>
      unfold schoolFate at h
      split at h
      · cases h
      · split at h
        · cases h
        · split at h
          · rcases closureFate_cases unit school moment with ⟨live, closes⟩ | ⟨_, closes⟩
            · rw [closes] at h
              cases h
              exact live
            · rw [closes] at h
              cases h
          · obtain ⟨_, _, same⟩ := Resolved.fate_found h (by simp) (by simp)
            cases same
  · split at h
    · obtain ⟨_, _, same⟩ := Resolved.fate_found h (by simp) (by simp)
      cases same
    · cases h

variable (distinct : (units.map NsrUnit.orgnr).Nodup)
include distinct

/-- Different closing schools have different organisation numbers. -/
theorem nodup_closing_orgnrs
    : ((sortUnits snapshot state moment units).closings.map (·.school.orgnr)).Nodup := by
  refine nodup_filterMap_keys distinct fun a _ b _ x y hx hy same => ?_
  rw [closing?_eq_some] at hx hy
  have left : (fate snapshot state moment a).school? = some x.school := by rw [hx]; rfl
  have right : (fate snapshot state moment b).school? = some y.school := by rw [hy]; rfl
  exact Option.some.inj
    ((fate_school_known left).2.symm.trans (same.trans (fate_school_known right).2))

theorem nodup_fauClosing_orgnrs
    : ((sortUnits snapshot state moment units).fauClosings.map (·.school.orgnr)).Nodup := by
  refine nodup_filterMap_keys distinct fun a _ b _ x y hx hy same => ?_
  rw [fauClosing?_eq_some] at hx hy
  have left : (fate snapshot state moment a).school? = some x.school := by rw [hx]; rfl
  have right : (fate snapshot state moment b).school? = some y.school := by rw [hy]; rfl
  exact Option.some.inj
    ((fate_school_known left).2.symm.trans (same.trans (fate_school_known right).2))

theorem nodup_candidate_orgnrs
    : ((sortUnits snapshot state moment units).candidates.map (·.unit.orgnr)).Nodup := by
  refine nodup_filterMap_keys distinct fun a _ b _ x y hx hy same => ?_
  rw [candidate?_eq_some] at hx hy
  rw [← hx.1, ← hy.1]
  exact same

-----------------------------------------------------------------------------------------
-- Ranks of valid matches

section

variable [UnicodeData] {m other : Match Id}

/-- The match is a valid one of the run's units. -/
def Match.ValidFor (m : Match Id) (snapshot : RegisterSnapshot Id)
    (state : MunicipalityState Id) (moment : Moment) (units : List NsrUnit) : Prop :=
  m.Valid (sortUnits snapshot state moment units).candidates
    (sortUnits snapshot state moment units).closings
    (sortUnits snapshot state moment units).fauClosings

omit [LinearOrder Id] [OsloZone] [UnicodeData] distinct in
/-- Positions in a list are one when a key that tells its elements apart is. -/
private theorem index_eq {α κ : Type} {elements : List α} (key : α → κ) {i j : Nat} {a b : α}
    (once : (elements.map key).Nodup) (left : elements[i]? = some a)
    (right : elements[j]? = some b) (same : key a = key b)
    : i = j := by
  refine (List.getElem?_inj ?_ once).mp ?_
  · rw [List.length_map]
    exact (List.getElem?_eq_some_iff.mp left).1
  · rw [List.getElem?_map, List.getElem?_map, left, right]
    exact congrArg some same

omit distinct in
/-- The predecessor of a valid match has an organisation number. -/
theorem Match.ValidFor.orgnr (h : m.ValidFor snapshot state moment units)
    : m.school ∈ snapshot.schools ∧ m.school.orgnr.isSome = true := by
  cases pred : m.pred with
  | closing j =>
      obtain ⟨c, stands, school, _⟩ := h.closing j pred
      obtain ⟨u, _, closes⟩ := mem_closings.mp (List.mem_of_getElem? stands)
      obtain ⟨known, orgnr⟩ := fate_school_known
        (show (fate snapshot state moment u).school? = some c.school by rw [closes]; rfl)
      exact ⟨school ▸ known, by rw [← school, orgnr]; rfl⟩
  | fau k =>
      obtain ⟨f, stands, school, _⟩ := h.fau k pred
      obtain ⟨u, _, reviews⟩ := mem_fauClosings.mp (List.mem_of_getElem? stands)
      obtain ⟨known, orgnr⟩ := fate_school_known
        (show (fate snapshot state moment u).school? = some f.school by rw [reviews]; rfl)
      exact ⟨school ▸ known, by rw [← school, orgnr]; rfl⟩

/-- Valid matches with predecessors of one number, both with an FAU or both without, share
the predecessor.
-/
theorem Match.ValidFor.pred_eq (hm : m.ValidFor snapshot state moment units)
    (ho : other.ValidFor snapshot state moment units)
    (fau : m.pred.isFau = other.pred.isFau) (orgnr : m.school.orgnr = other.school.orgnr)
    : m.pred = other.pred ∧ m.school = other.school := by
  cases pred : m.pred with
  | closing j =>
      cases pred' : other.pred with
      | fau k => simp [pred, pred', PredKind.isFau] at fau
      | closing j' =>
          obtain ⟨c, stands, school, _⟩ := hm.closing j pred
          obtain ⟨c', stands', school', _⟩ := ho.closing j' pred'
          have index : j = j' := index_eq (fun c : Closing Id => c.school.orgnr)
            (nodup_closing_orgnrs distinct) stands stands' (by simp only [school, school', orgnr])
          subst index
          cases stands.symm.trans stands'
          exact ⟨rfl, school.symm.trans school'⟩
  | fau k =>
      cases pred' : other.pred with
      | closing j => simp [pred, pred', PredKind.isFau] at fau
      | fau k' =>
          obtain ⟨f, stands, school, _⟩ := hm.fau k pred
          obtain ⟨f', stands', school', _⟩ := ho.fau k' pred'
          have index : k = k' := index_eq (fun f : FauClosing Id => f.school.orgnr)
            (nodup_fauClosing_orgnrs distinct) stands stands'
            (by simp only [school, school', orgnr])
          subst index
          cases stands.symm.trans stands'
          exact ⟨rfl, school.symm.trans school'⟩

/-- Valid matches of one rank are one match. -/
theorem Match.ValidFor.ext_rank (hm : m.ValidFor snapshot state moment units)
    (ho : other.ValidFor snapshot state moment units) (same : m.rank = other.rank)
    : m = other := by
  simp only [Match.rank, EmbeddingLike.apply_eq_iff_eq, Prod.mk.injEq] at same
  obtain ⟨similarity, unit_orgnr, fau, orgnr, _⟩ := same
  have candidate : m.candidate = other.candidate :=
    index_eq (fun c : Candidate Id => c.unit.orgnr) (nodup_candidate_orgnrs distinct)
      hm.candidate ho.candidate unit_orgnr
  have unit_eq := hm.candidate.symm.trans (candidate ▸ ho.candidate)
  obtain ⟨number, here⟩ := Option.isSome_iff_exists.mp hm.orgnr.2
  obtain ⟨number', here'⟩ := Option.isSome_iff_exists.mp ho.orgnr.2
  have numbers : m.school.orgnr = other.school.orgnr := by
    simpa [here, here'] using orgnr
  obtain ⟨pred, school⟩ := hm.pred_eq distinct ho (by simpa using fau) numbers
  cases m
  cases other
  simp_all

/-- The taken matches are a best-first set of the valid ones. -/
theorem takenMatches_bestFirst_valid
    : IsBestFirst (Match.ValidFor · snapshot state moment units) Match.rank Match.Conflicts
        (· ∈ takenMatches (sortUnits snapshot state moment units).candidates
          (sortUnits snapshot state moment units).closings
          (sortUnits snapshot state moment units).fauClosings) := by
  have among : (· ∈ rankedMatches (sortUnits snapshot state moment units).candidates
      (sortUnits snapshot state moment units).closings
      (sortUnits snapshot state moment units).fauClosings)
      = (Match.ValidFor · snapshot state moment units) :=
    funext fun _ => propext mem_rankedMatches
  rw [← among]
  refine (greedySelect_isGreedy Match.Conflicts _).isBestFirst (pairwise_sortOn Match.rank _) ?_
  intro a ha b hb same
  exact Match.ValidFor.ext_rank distinct (mem_rankedMatches.mp ha) (mem_rankedMatches.mp hb) same

/-- The best-first set of the valid matches is the one the assignment takes. -/
theorem mem_takenMatches_iff {chosen : Match Id → Prop}
    (best : IsBestFirst (Match.ValidFor · snapshot state moment units) Match.rank
      Match.Conflicts chosen)
    : chosen m ↔ m ∈ takenMatches (sortUnits snapshot state moment units).candidates
        (sortUnits snapshot state moment units).closings
        (sortUnits snapshot state moment units).fauClosings := by
  have among : (Match.ValidFor · snapshot state moment units)
      = (· ∈ rankedMatches (sortUnits snapshot state moment units).candidates
        (sortUnits snapshot state moment units).closings
        (sortUnits snapshot state moment units).fauClosings) :=
    funext fun _ => propext mem_rankedMatches.symm
  have taken : IsBestFirst (Match.ValidFor · snapshot state moment units) Match.rank
      Match.Conflicts _ :=
    takenMatches_bestFirst_valid distinct
  rw [among] at best taken
  exact best.unique taken m

/-- A valid match that is not taken loses to a better one that is. -/
theorem Match.ValidFor.outranked (h : m.ValidFor snapshot state moment units)
    (passed : m ∉ takenMatches (sortUnits snapshot state moment units).candidates
      (sortUnits snapshot state moment units).closings
      (sortUnits snapshot state moment units).fauClosings)
    : ∃ better ∈ takenMatches (sortUnits snapshot state moment units).candidates
        (sortUnits snapshot state moment units).closings
        (sortUnits snapshot state moment units).fauClosings,
        better.rank < m.rank ∧ better.Conflicts m := by
  have best : IsBestFirst (Match.ValidFor · snapshot state moment units) Match.rank
      Match.Conflicts _ :=
    takenMatches_bestFirst_valid distinct
  by_contra unblocked
  refine passed ((best m).mpr ⟨h, fun better taken above conflict => ?_⟩)
  exact unblocked ⟨better, taken, above, conflict⟩

end

end FauPortalen.Register

import FauPortalen.Register.Store.Reviews
import FauPortalen.Register.Sync.Convergence
import FauPortalen.Register.Sync.Succession

/-! The review items of the run after an applied one: they repeat those of the first run,
unless the first run took a new unit for the re-registration of a school with a live FAU.
-/

set_option linter.unusedSectionVars false

namespace FauPortalen.Register

open FauPortalen.Foundations

section

variable {Id : Type} [LinearOrder Id] [UnicodeData] [OsloZone]
  {snapshot after : RegisterSnapshot Id} {inputs : SyncInputs}

-----------------------------------------------------------------------------------------
-- Items that name existing rows only

/-- The item's references resolve alike under any new ids. -/
def ReviewItem.NamesExisting (item : ReviewItem Id) : Prop :=
  ∀ ids ids' : NewIds Id, ∃ key, ids.dedupKey item = some key ∧ ids'.dedupKey item = some key

theorem ReviewItem.namesExisting {kind : ReviewKind} {details : List (String × String)}
    (school municipality : Option Id)
    : (⟨kind, school.map .existing, none, municipality.map .existing, details⟩
        : ReviewItem Id).NamesExisting := by
  intro ids ids'
  cases school <;> cases municipality <;> exact ⟨_, rfl, rfl⟩

/-- An item of step 1: it names an existing municipality or none. -/
structure ReviewItem.IsMunicipal (item : ReviewItem Id) : Prop where
  kind : item.kind = .municipalitySplitOrMerge
  existing : item.NamesExisting

theorem recordReview_isMunicipal (r : MunicipalityRecord) (reason : String) (id : Option Id)
    : (recordReview r reason id).IsMunicipal :=
  ⟨rfl, ReviewItem.namesExisting none id⟩

theorem absentReview_isMunicipal (w : Working Id) : (absentReview w).IsMunicipal :=
  ⟨rfl, ReviewItem.namesExisting none (some w.row.id)⟩

theorem splitOrMergeReview_isMunicipal (holder : Option Id) (reason old : String)
    (changes : List CodeChange) (first : CodeChange)
    : (splitOrMergeReview holder reason old changes first).IsMunicipal :=
  ⟨rfl, ReviewItem.namesExisting none holder⟩

/-- Every item of step 1 is municipal: by the two loops, and the absent municipalities. -/
theorem planMunicipalities_reviews {plan : MunicipalityPlan Id}
    (planned : planMunicipalities snapshot inputs = some plan)
    : ∀ item ∈ plan.reviews, item.IsMunicipal := by
  obtain ⟨groups, records, grouped, recorded, _, _, reviews, _⟩ :=
    planMunicipalities_parts planned
  have joined {left right : List (ReviewItem Id)} (hl : ∀ item ∈ left, item.IsMunicipal)
      (hr : ∀ item ∈ right, item.IsMunicipal) : ∀ item ∈ left ++ right, item.IsMunicipal :=
    fun item member => (List.mem_append.mp member).elim (hl item) (hr item)
  have changed : ∀ item ∈ groups.reviews, item.IsMunicipal := by
    refine foldlM_preserves (P := fun state : GroupState Id =>
      ∀ item ∈ state.reviews, item.IsMunicipal) ?_ grouped (by simp [initialGroupState])
    intro before group _ after stepped kept
    obtain ⟨decision, _, performed⟩ := Option.bind_eq_some_iff.mp stepped
    cases decision with
    | leave =>
        cases performed
        exact kept
    | renumber id target newSlug renamed =>
        simp only [performGroup, Option.bind_eq_bind, Option.bind_eq_some_iff] at performed
        obtain ⟨_, _, _, _, same⟩ := performed
        cases same
        exact kept
    | block reason =>
        simp only [performGroup, Option.bind_eq_bind, Option.bind_eq_some_iff] at performed
        obtain ⟨first, _, same⟩ := performed
        cases same
        refine joined kept fun item member => ?_
        cases List.mem_singleton.mp member
        exact splitOrMergeReview_isMunicipal _ _ _ _ _
  have compared (w : Working Id) (id : Id) (r : MunicipalityRecord)
      : ∀ item ∈ (compareRecord w id r).2, item.IsMunicipal := by
    have shape : (compareRecord w id r).2 = []
        ∨ (compareRecord w id r).2 = [recordReview r "unsluggable" (some id)] := by
      unfold compareRecord
      by_cases manual : w.row.source = .manual
      · simp [manual]
      · by_cases renamed : r.norwegianName ≠ w.name
        · cases municipalitySlug r.number r.norwegianName <;> simp [manual, renamed]
        · simp [manual, renamed]
    intro item member
    rcases shape with empty | single
    · simp [empty] at member
    · rw [single] at member
      cases List.mem_singleton.mp member
      exact recordReview_isMunicipal _ _ _
  have listed : ∀ item ∈ records.reviews, item.IsMunicipal := by
    refine foldlM_preserves (P := fun state : RecordState Id =>
      ∀ item ∈ state.reviews, item.IsMunicipal) ?_ recorded changed
    intro before r _ after stepped kept
    have added (reason : String) (id : Option Id)
        : ∀ item ∈ before.reviews ++ [recordReview r reason id], item.IsMunicipal := by
      refine joined kept fun item member => ?_
      cases List.mem_singleton.mp member
      exact recordReview_isMunicipal _ _ _
    unfold stepRecord at stepped
    split at stepped
    · cases stepped
      exact kept
    · split at stepped
      · obtain ⟨w, _, same⟩ := Option.bind_eq_some_iff.mp stepped
        cases same
        exact joined kept (compared w _ r)
      · cases stepped
        exact kept
      · split at stepped
        · cases stepped
          exact kept
        · cases stepped
          exact added _ _
        · cases stepped
          exact added _ _
  rw [reviews]
  refine joined listed fun item member => ?_
  obtain ⟨w, _, rfl⟩ := List.mem_map.mp member
  exact absentReview_isMunicipal w

theorem closureReview_namesExisting (f : FauClosing Id) : (closureReview f).NamesExisting :=
  ReviewItem.namesExisting (some f.school.id) (some f.school.municipalityId)

theorem unknownNumberReview_namesExisting (group : String × List NsrUnit)
    : (unknownNumberReview group : ReviewItem Id).NamesExisting :=
  ReviewItem.namesExisting none none

-----------------------------------------------------------------------------------------
-- The second run's items

variable {ids again : NewIds Id}
  {steps second : MunicipalityPlan Id × SchoolPlan Id}

/-- Every item of `repeated` has the key of one of `items`. -/
def RepeatsKeys (ids again : NewIds Id) (items repeated : List (ReviewItem Id)) : Prop :=
  ∀ item ∈ repeated, ∃ key, again.dedupKey item = some key
    ∧ ∃ earlier ∈ items, ids.dedupKey earlier = some key

/-- An item that names existing rows has its own key in both runs. -/
theorem ReviewItem.NamesExisting.repeats {item : ReviewItem Id} (h : item.NamesExisting)
    {items : List (ReviewItem Id)} (member : item ∈ items)
    : ∃ key, again.dedupKey item = some key
        ∧ ∃ earlier ∈ items, ids.dedupKey earlier = some key := by
  obtain ⟨key, own, later⟩ := h ids again
  exact ⟨key, later, item, member, own⟩

/-- The key of a closure names the kind and the school. -/
theorem closureReview_key {f : FauClosing Id} {key : DedupKey Id}
    (h : ids.dedupKey (closureReview f) = some key)
    : key.kind = .closureWithFau ∧ key.school = some f.school.id := by
  cases h
  exact ⟨rfl, rfl⟩

theorem NewIds.dedupKey_kind {item : ReviewItem Id} {key : DedupKey Id}
    (h : ids.dedupKey item = some key)
    : key.kind = item.kind := by
  simp only [NewIds.dedupKey, Option.bind_eq_bind, Option.bind_eq_some_iff] at h
  obtain ⟨_, _, _, _, _, _, same⟩ := h
  cases same
  rfl

/-- The items of the assignment are no closures. -/
theorem placeAll_reviews_kind {candidates : List (Candidate Id)}
    {closings : List (Closing Id)} {fauClosings : List (FauClosing Id)} {item : ReviewItem Id}
    (member : item ∈ (placeAll candidates snapshot closings fauClosings).reviews)
    : item.kind ≠ .closureWithFau := by
  rw [placeAll_reviews] at member
  rcases List.mem_append.mp member with taken | placed
  · obtain ⟨m, _, rfl⟩ := List.mem_map.mp taken
    simp [reregistrationReview]
  · obtain ⟨remaining, inside, raised⟩ := List.mem_flatMap.mp placed
    obtain ⟨candidate, _, rfl⟩ := List.mem_map.mp inside
    unfold placeRemaining at raised
    split at raised
    · cases raised
    · split at raised
      · cases List.mem_singleton.mp raised
        simp [submissionReview]
      · cases raised

/-- The second run's items repeat the first run's exactly when no taken match of the first
run has a live FAU: such a match replaces the closure that the second run reports.
-/
theorem FirstRun.reviews_repeat_iff (again : NewIds Id)
    (run : FirstRun ids snapshot after inputs steps)
    (municipal : second.1.reviews ⊆ steps.1.reviews)
    (schools : second.2.reviews
      = ((sortUnits snapshot steps.1.state inputs.moment
          (normaliseUnits inputs.units)).fauClosings).map closureReview
        ++ ((sortUnits snapshot steps.1.state inputs.moment
          (normaliseUnits inputs.units)).unknown).map unknownNumberReview)
    : RepeatsKeys ids again (steps.1.reviews ++ steps.2.reviews)
        (second.1.reviews ++ second.2.reviews)
      ↔ ∀ m ∈ takenMatches
          (sortUnits snapshot steps.1.state inputs.moment (normaliseUnits inputs.units)).candidates
          (sortUnits snapshot steps.1.state inputs.moment (normaliseUnits inputs.units)).closings
          (sortUnits snapshot steps.1.state inputs.moment
            (normaliseUnits inputs.units)).fauClosings,
        m.pred.isFau = false := by
  obtain ⟨first, distinct, draft, makes⟩ := planSteps_draft run.store run.planned
  generalize hsorted : sortUnits snapshot steps.1.state inputs.moment
    (normaliseUnits inputs.units) = sorted at schools makes
  have settled (k : Nat) : (placedUnits snapshot sorted).fauClosings[k]?
      = sorted.fauClosings[k]?.map (settleFauClosing
        (takenMatches sorted.candidates sorted.closings sorted.fauClosings) k) :=
    placeAll_fauClosings snapshot k
  have fresh : ∀ f ∈ sorted.fauClosings, f.reregistered = false := by
    intro f member
    rw [← hsorted] at member
    obtain ⟨u, _, reviews⟩ := mem_fauClosings.mp member
    rw [(fate_fauClosing run.store reviews).2.2]
  constructor
  · intro repeats m taken
    by_contra live
    obtain ⟨k, pred⟩ : ∃ k, m.pred = .fau k := by
      cases pred : m.pred with
      | closing j => simp [pred, PredKind.isFau] at live
      | fau k => exact ⟨k, rfl⟩
    obtain ⟨f, stands, _⟩ := (takenMatches_valid taken).fau k pred
    have reported : closureReview f ∈ second.1.reviews ++ second.2.reviews := by
      rw [schools]
      exact List.mem_append_right _ (List.mem_append_left _
        (List.mem_map_of_mem (List.mem_of_getElem? stands)))
    obtain ⟨key, own, earlier, inside, same⟩ := repeats _ reported
    obtain ⟨kind, school⟩ := closureReview_key own
    have closure : earlier.kind = .closureWithFau := (ids.dedupKey_kind same).symm.trans kind
    rw [makes.reviews] at inside
    rcases List.mem_append.mp inside with municipality | others
    · rw [(planMunicipalities_reviews first earlier municipality).kind] at closure
      cases closure
    · rcases List.mem_append.mp others with placed | unknown
      · rcases List.mem_append.mp placed with assigned | closed
        · exact placeAll_reviews_kind assigned closure
        · -- a closure the first run reported is another school's: this one was matched
          obtain ⟨f', member, rfl⟩ := List.mem_map.mp closed
          obtain ⟨present, unmatched⟩ := List.mem_filter.mp member
          obtain ⟨k', stands'⟩ := List.mem_iff_getElem?.mp present
          rw [settled] at stands'
          obtain ⟨f₀, before, rfl⟩ := Option.map_eq_some_iff.mp stands'
          have ids_eq : f.school.id = f₀.school.id :=
            Option.some.inj (school.symm.trans (closureReview_key same).2)
          have once : (sorted.fauClosings.map (·.school.id)).Nodup :=
            hsorted ▸ nodup_fauClosings run.store.schoolIds distinct
          have index : k = k' := by
            refine (List.getElem?_inj ?_ once).mp ?_
            · rw [List.length_map]
              exact (List.getElem?_eq_some_iff.mp stands).1
            · rw [List.getElem?_map, List.getElem?_map, stands, before]
              exact congrArg some ids_eq
          subst index
          have matched : (takenMatches sorted.candidates sorted.closings
              sorted.fauClosings).any (·.pred = .fau k) = true :=
            List.any_eq_true.mpr ⟨m, hsorted ▸ taken, by simp [pred]⟩
          simp [settleFauClosing, matched] at unmatched
      · obtain ⟨group, _, rfl⟩ := List.mem_map.mp unknown
        simp [unknownNumberReview] at closure
  · intro fauless item member
    rcases List.mem_append.mp member with municipality | school
    · have inside := municipal municipality
      exact (planMunicipalities_reviews first item inside).existing.repeats
        (List.mem_append_left _ inside)
    · rw [schools] at school
      rcases List.mem_append.mp school with closed | unknown
      · obtain ⟨f, present, rfl⟩ := List.mem_map.mp closed
        refine (closureReview_namesExisting f).repeats (List.mem_append_right _ ?_)
        obtain ⟨k, stands⟩ := List.mem_iff_getElem?.mp present
        have unmatched : (takenMatches sorted.candidates sorted.closings
            sorted.fauClosings).any (·.pred = .fau k) = false := by
          refine List.any_eq_false.mpr fun m taken => ?_
          have closing := fauless m (hsorted ▸ taken)
          intro same
          rw [show m.pred = .fau k by simpa using same] at closing
          cases closing
        have kept : (placedUnits snapshot sorted).fauClosings[k]? = some f := by
          rw [settled, stands]
          simp [settleFauClosing, unmatched]
        rw [makes.reviews]
        refine List.mem_append_left _ (List.mem_append_right _ (List.mem_map_of_mem ?_))
        exact List.mem_filter.mpr ⟨List.mem_of_getElem? kept, by simp [fresh f present]⟩
      · obtain ⟨group, present, rfl⟩ := List.mem_map.mp unknown
        refine (unknownNumberReview_namesExisting group).repeats (List.mem_append_right _ ?_)
        rw [makes.reviews]
        exact List.mem_append_right _ (List.mem_map_of_mem present)

end

-----------------------------------------------------------------------------------------
-- Planning the same inputs again

section

variable [OsloZone] [UnicodeData] {snapshot after : RegisterSnapshot Nat} {inputs : SyncInputs}
  {p : SyncPlan Nat}

/-- Planned again from the same inputs against the register after `p`, every review item has
the key of one of `p`.
-/
def ReviewsRepeat (snapshot after : RegisterSnapshot Nat) (inputs : SyncInputs)
    (p : SyncPlan Nat) : Prop :=
  ∀ second, plan after inputs = some (.apply second) →
    RepeatsKeys (testkitIds snapshot p) (testkitIds after second) p.reviews second.reviews

/-- No school with a live FAU has a successor in the best-first set of the possible
successions.
-/
def FauLessSuccessions (snapshot : RegisterSnapshot Nat) (units : List NsrUnit) : Prop :=
  ∀ chosen, IsBestFirst (Succession.Possible snapshot units) Succession.rank
      Succession.Conflicts chosen →
    ∀ s, chosen s → s.school.hasLiveFau = false

/-- Normalised units allow the same successions. -/
theorem Succession.possible_normaliseUnits (units : List NsrUnit)
    : Succession.Possible snapshot (normaliseUnits units)
      = Succession.Possible snapshot units := by
  have fetched (s : Succession Nat)
      : (normaliseUnits units).find? (·.orgnr = s.unit.orgnr)
        = units.find? (·.orgnr = s.unit.orgnr) := by
    rw [normaliseUnits, find?_dropRepeats, find?_sortOn]
  funext s
  refine propext ⟨fun h => ?_, fun h => ?_⟩
  · exact ⟨fetched s ▸ h.fetched, h.classified, h.new, h.unused, h.known, h.tracked,
      unitOf?_normaliseUnits units s.school ▸ h.left, h.here, h.similar⟩
  · exact ⟨(fetched s).trans h.fetched, h.classified, h.new, h.unused, h.known, h.tracked,
      (unitOf?_normaliseUnits units s.school).symm ▸ h.left, h.here, h.similar⟩

/-- A second run on unchanged sources repeats the first run's review items exactly when no
school with a live FAU had a successor: for such a school the first run reports the possible
re-registration, and the second, which finds the new unit's row, the closure.
-/
theorem plan_reviews_repeat (store : StoreConstraints snapshot)
    (distinct : (inputs.municipalities.map MunicipalityRecord.number).Nodup)
    (unchanged : inputs.codeChanges = [])
    (planned : plan snapshot inputs = some (.apply p)) {successors : Lookup Nat Nat}
    (applied : apply snapshot p = some (after, successors))
    : ReviewsRepeat snapshot after inputs p ↔ FauLessSuccessions snapshot inputs.units := by
  obtain ⟨steps, rfl, run⟩ := firstRun_of_apply store distinct unchanged planned applied
  obtain ⟨first, once, _⟩ := planSteps_draft store run.planned
  have opens := planMunicipalities_opens store
    (show inputs.normalised.codeChanges = [] from unchanged) first
  have repeats : SyncInputs.Repeats inputs inputs := ⟨rfl, rfl, rfl, unchanged, id⟩
  obtain ⟨second, stepped, ops, schoolOps, municipal, schools⟩ := run.planSteps_again repeats
  have filled : emptySource? inputs = none := (planWith_apply planned).1
  have concluded : plan after inputs
      = some (conclude after inputs.kind .enforce (assemble after second)) := by
    simp only [plan, planWith, filled, stepped, Option.map_some]
  rw [FauLessSuccessions, ← Succession.possible_normaliseUnits,
    fauless_successions inputs.moment store opens once,
    ← run.reviews_repeat_iff (testkitIds after (assemble after second)) (municipal rfl) schools]
  rcases conclude_of_no_ops inputs.kind .enforce ops schoolOps rfl with idle | again
  · -- a run without changes has no item either
    have none_raised : second.1.reviews ++ second.2.reviews = [] := by
      unfold conclude at idle
      split at idle
      · cases idle
      · split at idle
        · next empty =>
            simp only [Bool.and_eq_true, List.isEmpty_iff] at empty
            exact empty.2
        · cases idle
    rw [none_raised]
    refine iff_of_true (fun other planned_again => ?_) (fun item member => by cases member)
    rw [concluded, idle] at planned_again
    cases planned_again
  · constructor
    · intro repeated
      exact repeated _ (concluded.trans (congrArg some again))
    · intro repeated other planned_again
      rw [concluded, again] at planned_again
      cases planned_again
      exact repeated

end

-----------------------------------------------------------------------------------------
-- A school with a live FAU that re-registers

section

variable [OsloZone]

/-- The only school has a live FAU. -/
def fauRegister : RegisterSnapshot Nat :=
  { sampleRegister with
    schools := [{ sampleSchool 2 "975288001" "Ask skole" "ask-skole" with hasLiveFau := true }] }

/-- The school's unit merged, and a unit with the same name appears. -/
def fauInputs : SyncInputs :=
  { sampleInputs with
    units := [
      sampleUnit "975288001" "Ask skole" false,
      sampleUnit "975288003" "Ask skole" true] }

/-- The plan holds the new unit and reports the possible re-registration. -/
def fauPlan : SyncPlan Nat :=
  {
    municipalityOps := []
    schoolOps := [
      .create 0 (.existing 1) "975288003" "Ask skole" "Ask skole" none .held true
        (.fromUnit (sampleUnit "975288003" "Ask skole" true)) none]
    reviews := [
      {
        kind := .possibleReregistration
        school := some (.existing 2)
        otherSchool := some (.new 0)
        municipality := some (.existing 1)
        details := [
          ("old_orgnr", "975288001"),
          ("new_orgnr", "975288003"),
          ("old_name", "Ask skole"),
          ("new_name", "Ask skole"),
          ("similarity", "1.00")]
      }]
    counts := { schoolsHeld := 1, reviews := 1 }
  }

end

theorem fauRegister_store : StoreConstraints fauRegister where
  municipalityIds := by decide
  schoolIds := by decide
  orgnrs := by decide
  numbers := by decide
  slugSafe := ⟨by decide, by decide, by simp [fauRegister, sampleRegister]⟩
  located := by decide
  historyLocated := by decide
  historyOwned := by decide

section

attribute [local instance] OsloZone.atEpoch UnicodeData.ascii

/-- The second run reports the closure of the school, which the first one did not. -/
theorem fauPlan_reviews_not_repeated
    : ¬ ∀ (snapshot after : RegisterSnapshot Nat) (inputs : SyncInputs) (p : SyncPlan Nat)
        (successors : Lookup Nat Nat), StoreConstraints snapshot →
        (inputs.municipalities.map MunicipalityRecord.number).Nodup →
        inputs.codeChanges = [] → plan snapshot inputs = some (.apply p) →
        apply snapshot p = some (after, successors) →
        ReviewsRepeat snapshot after inputs p := by
  intro claim
  have planned : plan fauRegister fauInputs = some (.apply fauPlan) := by decide +kernel
  have reported : (apply fauRegister fauPlan).any (fun applied =>
      (plan applied.1 fauInputs).any fun outcome =>
        match outcome with
        | .apply second => second.reviews.any (·.kind = .closureWithFau)
        | _ => false) = true := by decide +kernel
  obtain ⟨⟨after, successors⟩, applied, later⟩ := (Option.any_eq_true _ _).mp reported
  obtain ⟨outcome, again, raised⟩ := (Option.any_eq_true _ _).mp later
  cases outcome with
  | noChange => cases raised
  | abort reason counts => cases raised
  | apply second =>
      obtain ⟨item, member, closure⟩ := List.any_eq_true.mp raised
      obtain ⟨key, own, earlier, inside, same⟩ := claim fauRegister after fauInputs fauPlan
        successors fauRegister_store (by decide) rfl planned applied second again item member
      have kind : earlier.kind = item.kind :=
        (NewIds.dedupKey_kind same).symm.trans (NewIds.dedupKey_kind own)
      rw [show item.kind = .closureWithFau by simpa using closure] at kind
      cases List.mem_singleton.mp inside
      cases kind

/-- No school of the sample has a live FAU, so its items repeat. -/
theorem samplePlan_reviews_repeat
    : ∃ after successors, apply sampleRegister samplePlan = some (after, successors)
      ∧ ReviewsRepeat sampleRegister after sampleInputs samplePlan := by
  have planned : plan sampleRegister sampleInputs = some (.apply samplePlan) := by
    decide +kernel
  obtain ⟨after, successors, applied⟩ := samplePlan_applied
  refine ⟨after, successors, applied,
    (plan_reviews_repeat sampleRegister_store (by decide) rfl planned applied).mpr ?_⟩
  intro chosen best s inside
  have known := ((best s).mp inside).1.known
  have fauless : ∀ school ∈ sampleRegister.schools, school.hasLiveFau = false := by decide
  exact fauless s.school known

end

end FauPortalen.Register

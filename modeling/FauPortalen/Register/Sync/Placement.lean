import FauPortalen.Foundations.Greedy
import FauPortalen.Register.Sync.Matching

/-! The assignment of re-registrations is a greedy selection: a ranked match is taken unless
its candidate, or its closing predecessor, went to a better match.
-/

namespace FauPortalen.Register

open FauPortalen.Foundations

variable {Id : Type}

-----------------------------------------------------------------------------------------
-- The selection

/-- Two matches of one candidate, or of one closing predecessor. -/
def Match.Conflicts (m other : Match Id) : Prop :=
  m.candidate = other.candidate ∨ (m.pred = other.pred ∧ m.pred.isFau = false)

instance : DecidableRel fun m other : Match Id => m.Conflicts other := fun _ _ =>
  inferInstanceAs (Decidable (_ ∨ _))

def Match.placement (m : Match Id) : Placement :=
  match m.pred with
  | .closing _ => .successor m.school.slug
  | .fau _ => .heldReregistration

/-- A closing school as the taken matches leave it: its match succeeds it. -/
def settleClosing (taken : List (Match Id)) (j : Nat) (c : Closing Id) : Closing Id :=
  match taken.find? (·.pred = .closing j) with
  | some m => { c with successor := some (.new m.candidate), reason := .merged }
  | none => c

/-- A closing school with an FAU as the taken matches leave it. -/
def settleFauClosing (taken : List (Match Id)) (k : Nat) (f : FauClosing Id)
    : FauClosing Id :=
  { f with reregistered := f.reregistered || taken.any (·.pred = .fau k) }

@[simp]
theorem settleClosing_nil (j : Nat) : settleClosing ([] : List (Match Id)) j = id := rfl

@[simp]
theorem settleFauClosing_nil (k : Nat)
    : settleFauClosing ([] : List (Match Id)) k = id := by
  funext f
  simp [settleFauClosing]

/-- A match with an FAU predecessor leaves the closing schools alone. -/
theorem settleClosing_append_fau {taken : List (Match Id)} {m : Match Id} {k : Nat}
    (h : m.pred = .fau k) (j : Nat)
    : settleClosing (taken ++ [m]) j = settleClosing taken j := by
  funext c
  simp [settleClosing, h]

/-- A match with a closing predecessor leaves the schools with an FAU alone. -/
theorem settleFauClosing_append_closing {taken : List (Match Id)} {m : Match Id} {j : Nat}
    (h : m.pred = .closing j) (k : Nat)
    : settleFauClosing (taken ++ [m]) k = settleFauClosing taken k := by
  funext f
  simp [settleFauClosing, h]

/-- The assignment loop has taken exactly these matches so far. -/
structure Assignment.Records (state : Assignment Id) (closings : List (Closing Id))
    (fauClosings : List (FauClosing Id)) (taken : List (Match Id)) : Prop where
  placement : ∀ i, state.placement i
    = (taken.find? (·.candidate = i)).map Match.placement
  claimed : ∀ j, j ∈ state.claimed ↔ ∃ m ∈ taken, m.pred = .closing j
  closings : ∀ j : Nat, state.closings[j]? = closings[j]?.map (settleClosing taken j)
  fauClosings : ∀ k : Nat,
    state.fauClosings[k]? = fauClosings[k]?.map (settleFauClosing taken k)
  reviews : state.reviews = (taken.filter (·.pred.isFau)).map reregistrationReview

/-- The loop passes over a match exactly when a taken one conflicts with it. -/
theorem Assignment.Records.blocked_iff {state : Assignment Id}
    {closings : List (Closing Id)} {fauClosings : List (FauClosing Id)}
    {taken : List (Match Id)} (h : state.Records closings fauClosings taken) (m : Match Id)
    : (∃ chosen ∈ taken, chosen.Conflicts m)
      ↔ state.placement.contains m.candidate = true
        ∨ ∃ j, m.pred = .closing j ∧ j ∈ state.claimed := by
  have placed : state.placement.contains m.candidate = true
      ↔ ∃ chosen ∈ taken, chosen.candidate = m.candidate := by
    rw [Lookup.contains, h.placement, Option.isSome_map, List.find?_isSome]
    simp
  rw [placed]
  constructor
  · intro ⟨chosen, inside, conflict⟩
    rcases conflict with same | ⟨same, closing⟩
    · exact .inl ⟨chosen, inside, same⟩
    · cases hp : m.pred with
      | closing j =>
          exact .inr ⟨j, rfl, (h.claimed j).mpr ⟨chosen, inside, same.trans hp⟩⟩
      | fau k => simp [same, hp, PredKind.isFau] at closing
  · intro blocked
    rcases blocked with ⟨chosen, inside, same⟩ | ⟨j, hp, claimed⟩
    · exact ⟨chosen, inside, .inl same⟩
    · obtain ⟨chosen, inside, same⟩ := (h.claimed j).mp claimed
      exact ⟨chosen, inside, .inr ⟨same.trans hp.symm, by simp [same, PredKind.isFau]⟩⟩

/-- A fresh predecessor or candidate is found only at the match just taken. -/
private theorem find?_append_fresh {taken : List (Match Id)} {m : Match Id}
    {p : Match Id → Bool} (fresh : p m = true → ∀ chosen ∈ taken, p chosen = false)
    : (taken ++ [m]).find? p = if p m then some m else taken.find? p := by
  rw [List.find?_append]
  by_cases here : p m = true
  · have none_before : taken.find? p = none :=
      List.find?_eq_none.mpr fun chosen inside => by simp [fresh here chosen inside]
    simp [none_before, here]
  · simp [here]

/-- Taking a match that nothing blocks records it. -/
theorem Assignment.Records.take {state : Assignment Id} {closings : List (Closing Id)}
    {fauClosings : List (FauClosing Id)} {taken : List (Match Id)} {m : Match Id}
    (h : state.Records closings fauClosings taken)
    (free : ∀ chosen ∈ taken, ¬ chosen.Conflicts m)
    : (assignMatch state m).Records closings fauClosings (taken ++ [m]) := by
  have open_state : ¬ (state.placement.contains m.candidate = true
      ∨ ∃ j, m.pred = .closing j ∧ j ∈ state.claimed) := by
    intro blocked
    obtain ⟨chosen, inside, conflict⟩ := (h.blocked_iff m).mpr blocked
    exact free chosen inside conflict
  rw [not_or] at open_state
  have candidate_fresh : ∀ i, (taken ++ [m]).find? (·.candidate = i)
      = if m.candidate = i then some m else taken.find? (·.candidate = i) := by
    intro i
    rw [find?_append_fresh]
    · simp
    · intro same chosen inside
      have differ : chosen.candidate ≠ m.candidate := fun e => free chosen inside (.inl e)
      simp only [decide_eq_true_eq] at same
      simpa [same] using differ
  have placement_eq : ∀ i, (state.placement.insert m.candidate m.placement) i
      = ((taken ++ [m]).find? (·.candidate = i)).map Match.placement := by
    intro i
    rw [candidate_fresh, Lookup.insert_apply, h.placement]
    by_cases same : m.candidate = i
    · simp [same]
    · simp [same, Ne.symm same]
  cases hp : m.pred with
  | closing j =>
      have unclaimed : j ∉ state.claimed := fun c => open_state.2 ⟨j, hp, c⟩
      have stepped : assignMatch state m = { state with
          claimed := insert j state.claimed
          closings := state.closings.modify j fun c =>
            { c with successor := some (.new m.candidate), reason := .merged }
          placement := state.placement.insert m.candidate m.placement } := by
        simp [assignMatch, open_state.1, hp, unclaimed, Match.placement]
      have pred_fresh : ∀ j', (taken ++ [m]).find? (·.pred = .closing j')
          = if j = j' then some m else taken.find? (·.pred = .closing j') := by
        intro j'
        rw [find?_append_fresh]
        · simp [hp]
        · intro same chosen inside
          simp only [hp, decide_eq_true_eq] at same
          have differ : chosen.pred ≠ m.pred := fun e =>
            free chosen inside (.inr ⟨e, by simp [e, hp, PredKind.isFau]⟩)
          simpa [← same, ← hp] using differ
      rw [stepped]
      refine ⟨placement_eq, ?_, ?_, ?_, ?_⟩
      · intro j'
        simp only [Finset.mem_insert, h.claimed, List.mem_append, List.mem_singleton]
        constructor
        · intro claimed
          rcases claimed with rfl | ⟨chosen, inside, same⟩
          · exact ⟨m, .inr rfl, hp⟩
          · exact ⟨chosen, .inl inside, same⟩
        · rintro ⟨chosen, inside, same⟩
          rcases inside with before | rfl
          · exact .inr ⟨chosen, before, same⟩
          · rw [hp] at same
            cases same
            exact .inl rfl
      · intro j'
        simp only [List.getElem?_modify, h.closings]
        cases closings[j']? with
        | none => simp
        | some c =>
            by_cases same : j = j'
            · subst same
              have absent : taken.find? (·.pred = .closing j) = none := by
                refine List.find?_eq_none.mpr fun chosen inside claimed => ?_
                exact unclaimed ((h.claimed j).mpr ⟨chosen, inside, by simpa using claimed⟩)
              have before : settleClosing taken j c = c := by simp [settleClosing, absent]
              have after : settleClosing (taken ++ [m]) j c
                  = { c with successor := some (.new m.candidate), reason := .merged } := by
                simp [settleClosing, pred_fresh]
              simp [before, after]
            · simp [settleClosing, pred_fresh, same]
      · intro k
        simp [h.fauClosings, settleFauClosing_append_closing hp]
      · simp [h.reviews, hp, PredKind.isFau]
  | fau k =>
      have stepped : assignMatch state m = { state with
          fauClosings := state.fauClosings.modify k fun f => { f with reregistered := true }
          reviews := state.reviews ++ [reregistrationReview m]
          placement := state.placement.insert m.candidate m.placement } := by
        simp [assignMatch, open_state.1, hp, Match.placement]
      rw [stepped]
      refine ⟨placement_eq, ?_, ?_, ?_, ?_⟩
      · intro j
        rw [h.claimed]
        simp [hp]
      · intro j
        simp [h.closings, settleClosing_append_fau hp]
      · intro k'
        simp only [List.getElem?_modify, h.fauClosings]
        cases fauClosings[k']? with
        | none => simp
        | some f =>
            by_cases same : k = k' <;> simp [settleFauClosing, hp, same]
      · simp [h.reviews, hp, PredKind.isFau]

/-- Passing over a blocked match changes nothing. -/
theorem Assignment.Records.pass {state : Assignment Id} {closings : List (Closing Id)}
    {fauClosings : List (FauClosing Id)} {taken : List (Match Id)} {m chosen : Match Id}
    (h : state.Records closings fauClosings taken) (inside : chosen ∈ taken)
    (conflict : chosen.Conflicts m)
    : assignMatch state m = state := by
  rcases (h.blocked_iff m).mp ⟨chosen, inside, conflict⟩ with placed | ⟨j, hp, claimed⟩
  · simp [assignMatch, placed]
  · unfold assignMatch
    split
    · rfl
    · simp [hp, claimed]

/-- The assignment loop refines the greedy selection of the ranked matches. -/
theorem assign_records (closings : List (Closing Id)) (fauClosings : List (FauClosing Id))
    (ranked : List (Match Id))
    : (ranked.foldl assignMatch ⟨Lookup.empty, closings, fauClosings, [], ∅⟩).Records
        closings fauClosings (greedySelect Match.Conflicts ranked) := by
  have selected := greedySelect_isGreedy Match.Conflicts ranked
  generalize greedySelect Match.Conflicts ranked = taken at selected
  induction selected with
  | nil => exact ⟨fun _ => rfl, by simp, by simp, by simp, rfl⟩
  | take _ free ih =>
      rw [List.foldl_append]
      exact ih.take free
  | pass _ inside conflict ih =>
      rw [List.foldl_append]
      simp only [List.foldl_cons, List.foldl_nil, ih.pass inside conflict]
      exact ih

-----------------------------------------------------------------------------------------
-- Ranked matches

/-- A match names a candidate and a predecessor of its municipality that may have
re-registered, at their similarity.
-/
structure Match.Valid [UnicodeData] (candidates : List (Candidate Id))
    (closings : List (Closing Id)) (fauClosings : List (FauClosing Id)) (m : Match Id)
    : Prop where
  candidate : candidates[m.candidate]? = some ⟨m.unit, m.municipality⟩
  here : m.municipality = .existing m.school.municipalityId
  closing : ∀ j, m.pred = .closing j →
    ∃ c, closings[j]? = some c ∧ c.school = m.school ∧ c.reregistrable = true
  fau : ∀ k, m.pred = .fau k →
    ∃ f, fauClosings[k]? = some f ∧ f.school = m.school ∧ f.reregistrable = true
  similar : reregistrationThreshold ≤ m.similarity
    ∧ m.similarity = nameSimilarity m.school m.unit.name

section

variable [LinearOrder Id] [UnicodeData] {candidates : List (Candidate Id)}
  {closings : List (Closing Id)} {fauClosings : List (FauClosing Id)}

/-- A match found for one predecessor carries that predecessor. -/
private theorem matchOf?_eq_some {candidate : Candidate Id × Nat}
    {school : SchoolSnapshot Id} {reregistrable : Bool} {pred : PredKind} {m : Match Id}
    : matchOf? candidate school reregistrable pred = some m
      ↔ reregistrable = true
        ∧ Ref.existing school.municipalityId = candidate.1.municipality
        ∧ reregistrationThreshold ≤ nameSimilarity school candidate.1.unit.name
        ∧ m = ⟨candidate.2, candidate.1.unit, candidate.1.municipality, pred, school,
            nameSimilarity school candidate.1.unit.name⟩ := by
  simp only [matchOf?]
  constructor
  · intro found
    split at found
    · next here =>
        simp only [Bool.and_eq_true, decide_eq_true_eq] at here
        split at found
        · next above => exact ⟨here.1, here.2, above, (Option.some.inj found).symm⟩
        · cases found
    · cases found
  · intro ⟨open_pred, here, above, same⟩
    simp [open_pred, here, above, same]

/-- The ranked matches are exactly the valid ones. -/
theorem mem_rankedMatches {m : Match Id}
    : m ∈ rankedMatches candidates closings fauClosings
      ↔ m.Valid candidates closings fauClosings := by
  simp only [rankedMatches, mem_sortOn, List.mem_flatMap, matchesOf, List.mem_append,
    List.mem_filterMap, matchOf?_eq_some, Prod.exists, List.mk_mem_zipIdx_iff_getElem?]
  constructor
  · rintro ⟨cand, i, member, found⟩
    rcases found with ⟨c, j, inside, rereg, here, above, same⟩
      | ⟨f, k, inside, rereg, here, above, same⟩
    · subst same
      refine ⟨member, here.symm, ?_, ?_, above, rfl⟩
      · intro j' e
        cases e
        exact ⟨c, inside, rfl, rereg⟩
      · intro k e
        cases e
    · subst same
      refine ⟨member, here.symm, ?_, ?_, above, rfl⟩
      · intro j e
        cases e
      · intro k' e
        cases e
        exact ⟨f, inside, rfl, rereg⟩
  · intro valid
    obtain ⟨i, unit, municipality, pred, school, sim⟩ := m
    obtain ⟨member, here, closing, fau, above, same⟩ := valid
    refine ⟨⟨unit, municipality⟩, i, member, ?_⟩
    cases pred with
    | closing j =>
        obtain ⟨c, inside, school_eq, rereg⟩ := closing j rfl
        cases school_eq
        simp only at same
        subst same
        exact .inl ⟨c, j, inside, rereg, here.symm, above, rfl⟩
    | fau k =>
        obtain ⟨f, inside, school_eq, rereg⟩ := fau k rfl
        cases school_eq
        simp only at same
        subst same
        exact .inr ⟨f, k, inside, rereg, here.symm, above, rfl⟩

end

-----------------------------------------------------------------------------------------
-- Placements

/-- The matches the assignment takes. -/
def takenMatches [LinearOrder Id] [UnicodeData] (candidates : List (Candidate Id))
    (closings : List (Closing Id)) (fauClosings : List (FauClosing Id)) : List (Match Id) :=
  greedySelect Match.Conflicts (rankedMatches candidates closings fauClosings)

section

variable [LinearOrder Id] [UnicodeData] {candidates : List (Candidate Id)}
  {closings : List (Closing Id)} {fauClosings : List (FauClosing Id)}

theorem takenMatches_valid {m : Match Id}
    (h : m ∈ takenMatches candidates closings fauClosings)
    : m.Valid candidates closings fauClosings :=
  mem_rankedMatches.mp ((greedySelect_isGreedy Match.Conflicts _).subset h)

/-- One match is taken for each candidate. -/
theorem takenMatches_candidate {m other : Match Id}
    (hm : m ∈ takenMatches candidates closings fauClosings)
    (ho : other ∈ takenMatches candidates closings fauClosings)
    (same : m.candidate = other.candidate)
    : m = other :=
  (greedySelect_isGreedy Match.Conflicts _).eq_of_related
    (fun a b => a.candidate = b.candidate) (fun _ _ e => e.symm) (fun _ _ e => .inl e) hm ho
    same

/-- One match is taken for each closing predecessor. -/
theorem takenMatches_closing {m other : Match Id} {j : Nat}
    (hm : m ∈ takenMatches candidates closings fauClosings)
    (ho : other ∈ takenMatches candidates closings fauClosings)
    (left : m.pred = .closing j) (right : other.pred = .closing j)
    : m = other := by
  let related (a b : Match Id) : Prop := a.pred = .closing j ∧ b.pred = .closing j
  refine (greedySelect_isGreedy Match.Conflicts _).eq_of_related related
    (fun _ _ both => And.symm both) ?_ hm ho ⟨left, right⟩
  intro a b both
  exact .inr ⟨both.1.trans both.2.symm, by simp [both.1, PredKind.isFau]⟩

variable (snapshot : RegisterSnapshot Id)

@[simp]
theorem placeAll_length
    : (placeAll candidates snapshot closings fauClosings).placements.length
      = candidates.length := by
  simp [placeAll]

/-- The assignment changes no closing school, only its reason and successor. -/
theorem placeAll_closings
    : (placeAll candidates snapshot closings fauClosings).closings.map (·.school)
      = closings.map (·.school) := by
  refine List.ext_getElem? fun j => ?_
  have recorded := (assign_records closings fauClosings
    (rankedMatches candidates closings fauClosings)).closings j
  simp only [placeAll, List.getElem?_map, recorded, Option.map_map]
  congr 1
  funext c
  simp only [Function.comp_apply, settleClosing]
  split <;> rfl

/-- A closing school leaves the assignment as the taken matches settle it. -/
theorem mem_placeAll_closings {c : Closing Id}
    (h : c ∈ (placeAll candidates snapshot closings fauClosings).closings)
    : ∃ j before, closings[j]? = some before
        ∧ c = settleClosing (takenMatches candidates closings fauClosings) j before := by
  obtain ⟨j, found⟩ := List.mem_iff_getElem?.mp h
  have recorded := (assign_records closings fauClosings
    (rankedMatches candidates closings fauClosings)).closings j
  obtain ⟨before, stands, same⟩ := Option.map_eq_some_iff.mp (recorded.symm.trans found)
  exact ⟨j, before, stands, same.symm⟩

/-- A closing school with an FAU leaves the assignment as the taken matches settle it. -/
theorem placeAll_fauClosings (k : Nat)
    : (placeAll candidates snapshot closings fauClosings).fauClosings[k]?
      = fauClosings[k]?.map
        (settleFauClosing (takenMatches candidates closings fauClosings) k) :=
  (assign_records closings fauClosings
    (rankedMatches candidates closings fauClosings)).fauClosings k

/-- The review items: the taken matches with an FAU, then the submission matches. -/
theorem placeAll_reviews
    : (placeAll candidates snapshot closings fauClosings).reviews
      = ((takenMatches candidates closings fauClosings).filter (·.pred.isFau)).map
          reregistrationReview
        ++ (candidates.zipIdx.map (placeRemaining snapshot.schools
          ((rankedMatches candidates closings fauClosings).foldl assignMatch
            ⟨Lookup.empty, closings, fauClosings, [], ∅⟩).placement)).flatMap Prod.snd := by
  have recorded := (assign_records closings fauClosings
    (rankedMatches candidates closings fauClosings)).reviews
  simp only [placeAll, recorded, takenMatches]

/-- A taken match places its candidate. -/
theorem placeAll_taken {m : Match Id}
    (h : m ∈ takenMatches candidates closings fauClosings)
    : (placeAll candidates snapshot closings fauClosings).placements[m.candidate]?
      = some m.placement := by
  have found : (takenMatches candidates closings fauClosings).find?
      (·.candidate = m.candidate) = some m := by
    cases hf : (takenMatches candidates closings fauClosings).find?
        (·.candidate = m.candidate) with
    | none => exact absurd (List.find?_eq_none.mp hf m h) (by simp)
    | some other =>
        have same : other.candidate = m.candidate := by simpa using List.find?_some hf
        rw [takenMatches_candidate (List.mem_of_find?_eq_some hf) h same]
  have recorded := (assign_records closings fauClosings
    (rankedMatches candidates closings fauClosings)).placement m.candidate
  rw [← takenMatches, found] at recorded
  simp only [placeAll, List.map_map, List.getElem?_map, List.getElem?_zipIdx,
    (takenMatches_valid h).candidate]
  simp [placeRemaining, recorded]

/-- A candidate without a taken match is placed by the submissions alone. -/
theorem placeAll_untaken {i : Nat} {candidate : Candidate Id}
    (hc : candidates[i]? = some candidate)
    (free : ∀ m ∈ takenMatches candidates closings fauClosings, m.candidate ≠ i)
    : (placeAll candidates snapshot closings fauClosings).placements[i]?
      = some (placeRemaining snapshot.schools Lookup.empty (candidate, i)).1 := by
  have absent : (takenMatches candidates closings fauClosings).find? (·.candidate = i)
      = none :=
    List.find?_eq_none.mpr fun m inside => by simpa using free m inside
  have recorded := (assign_records closings fauClosings
    (rankedMatches candidates closings fauClosings)).placement i
  rw [← takenMatches, absent] at recorded
  simp only [placeAll, List.map_map, List.getElem?_map, List.getElem?_zipIdx, hc]
  simp [placeRemaining, recorded]

/-- Without a taken match nobody succeeds a predecessor. -/
theorem placeRemaining_empty_ne_successor {candidate : Candidate Id × Nat}
    {slug : Option String}
    : (placeRemaining snapshot.schools Lookup.empty candidate).1 ≠ .successor slug := by
  simp only [placeRemaining, Lookup.empty_apply]
  split <;> simp

/-- A successor was matched with a closing school of its municipality, and has the slug of
that school.
-/
theorem placeAll_successor {i : Nat} {slug : Option String}
    (h : (placeAll candidates snapshot closings fauClosings).placements[i]?
      = some (.successor slug))
    : ∃ m ∈ takenMatches candidates closings fauClosings,
        m.candidate = i ∧ m.school.slug = slug ∧ ∃ j, m.pred = .closing j := by
  have bound : i < candidates.length := by
    have := (List.getElem?_eq_some_iff.mp h).1
    simpa using this
  by_cases taken : ∃ m ∈ takenMatches candidates closings fauClosings, m.candidate = i
  · obtain ⟨m, inside, same⟩ := taken
    have placed := placeAll_taken snapshot inside
    rw [same, h] at placed
    refine ⟨m, inside, same, ?_⟩
    cases hp : m.pred with
    | closing j =>
        simp only [Match.placement, hp, Option.some.injEq, Placement.successor.injEq] at placed
        exact ⟨placed.symm, j, rfl⟩
    | fau k => simp [Match.placement, hp] at placed
  · have free : ∀ m ∈ takenMatches candidates closings fauClosings, m.candidate ≠ i :=
      fun m inside same => taken ⟨m, inside, same⟩
    have placed := placeAll_untaken snapshot
      (List.getElem?_eq_getElem bound) free
    rw [h] at placed
    exact absurd (Option.some.inj placed).symm (placeRemaining_empty_ne_successor snapshot)

end

end FauPortalen.Register

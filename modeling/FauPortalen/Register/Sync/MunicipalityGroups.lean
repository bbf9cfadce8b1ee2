import FauPortalen.Foundations.PartialFold
import FauPortalen.Register.Sync.Store

/-! The group loop over SSB's code changes: what one group can do, and the coherence of the
numbers and the working rows it leaves.
-/

set_option linter.unusedSectionVars false

namespace FauPortalen.Register

open FauPortalen.Foundations

variable {Id : Type} [LinearOrder Id] [UnicodeData]

-----------------------------------------------------------------------------------------
-- One group

/-- The state after a renumber. -/
def GroupState.renumbered (state : GroupState Id) (old : String) (first : CodeChange) (id : Id)
    (w : Working Id) (target newSlug : String) (renamed : Option String) : GroupState Id :=
  { state with
    ops := state.ops ++ [.renumber id old target first.occurredOn renamed w.slug newSlug]
    byNumber := (state.byNumber.erase old).insert target (.existing id)
    working := state.working.insert id ⟨w.row, target, renamed.getD w.name, newSlug⟩ }

/-- The state after a group is blocked. -/
def GroupState.blockedBy (state : GroupState Id) (old : String) (changes : List CodeChange)
    (first : CodeChange) (reason : String) : GroupState Id :=
  { state with
    blockedNumbers := insert old (state.blockedNumbers ∪ (targetCodes changes).toFinset)
    reviews := state.reviews
      ++ [splitOrMergeReview (holderOf state.byNumber old) reason old changes first] }

variable {gone : String → Nat} {records : Lookup String MunicipalityRecord}
  {state after : GroupState Id} {old : String} {changes : List CodeChange}

/-- A group leaves the state alone, renumbers its holder or is blocked. -/
theorem stepGroup_cases (h : stepGroup gone records state (old, changes) = some after)
    : (decideGroup gone records state old changes = some .leave ∧ after = state)
      ∨ (∃ id target newSlug renamed first w,
          decideGroup gone records state old changes
            = some (.renumber id target newSlug renamed)
          ∧ changes.head? = some first ∧ state.working id = some w
          ∧ after = state.renumbered old first id w target newSlug renamed)
      ∨ ∃ reason first,
          decideGroup gone records state old changes = some (.block reason)
          ∧ changes.head? = some first
          ∧ after = state.blockedBy old changes first reason := by
  simp only [stepGroup, Option.bind_eq_bind, Option.bind_eq_some_iff] at h
  obtain ⟨decision, decided, performed⟩ := h
  cases decision with
  | leave => exact .inl ⟨decided, (Option.some.inj performed).symm⟩
  | renumber id target newSlug renamed =>
      simp only [performGroup, Option.bind_eq_bind, Option.bind_eq_some_iff] at performed
      obtain ⟨first, head, w, working, same⟩ := performed
      exact .inr (.inl ⟨id, target, newSlug, renamed, first, w, decided, head, working,
        (Option.some.inj same).symm⟩)
  | block reason =>
      simp only [performGroup, Option.bind_eq_bind, Option.bind_eq_some_iff] at performed
      obtain ⟨first, head, same⟩ := performed
      exact .inr (.inr ⟨reason, first, decided, head, (Option.some.inj same).symm⟩)

theorem oneToOne_eq_some {targets : List String} {target : String}
    : oneToOne gone targets = some target ↔ targets = [target] ∧ gone target = 1 := by
  unfold oneToOne
  split
  · next single =>
      constructor
      · intro found
        split at found
        · next once =>
            cases found
            exact ⟨rfl, once⟩
        · cases found
      · intro ⟨same, once⟩
        cases same
        simp [once]
  · next other =>
      refine ⟨fun found => ?_, fun ⟨same, _⟩ => absurd same (other _)⟩
      cases found

theorem holderOf_eq_some {byNumber : Lookup String (Ref Id)} {number : String} {id : Id}
    : holderOf byNumber number = some id ↔ byNumber number = some (.existing id) := by
  unfold holderOf
  split
  · next found => simp [found]
  · next other =>
      constructor
      · intro found
        cases found
      · intro found
        exact absurd found (other id)

/-- A one-to-one change of a held code that its municipality can follow. -/
structure GroupState.Renumbers (state : GroupState Id) (gone : String → Nat)
    (records : Lookup String MunicipalityRecord) (old : String) (changes : List CodeChange)
    (id : Id) (target newSlug : String) (renamed : Option String) (w : Working Id) : Prop where
  holder : state.byNumber old = some (.existing id)
  single : targetCodes changes = [target]
  once : gone target = 1
  working : state.working id = some w
  sourced : w.row.source ≠ .manual
  target_unblocked : target ∉ state.blockedNumbers
  old_unblocked : old ∉ state.blockedNumbers
  free : state.byNumber target = none
  slug : municipalitySlug target
    (((records target).map MunicipalityRecord.norwegianName).getD w.name) = .ok newSlug
  renamed_name : renamed.getD w.name
    = ((records target).map MunicipalityRecord.norwegianName).getD w.name

/-- The decision to renumber, read from its guards. -/
theorem decideGroup_renumber {id : Id} {target newSlug : String} {renamed : Option String}
    (h : decideGroup gone records state old changes
      = some (.renumber id target newSlug renamed))
    : ∃ w, state.Renumbers gone records old changes id target newSlug renamed w := by
  unfold decideGroup at h
  simp only at h
  split at h
  · cases h
  · split at h
    · split at h
      · cases h
      · split at h <;> cases h
    · next single holder =>
        simp only [Option.bind_eq_bind, Option.bind_eq_some_iff] at h
        obtain ⟨w, working, h⟩ := h
        split at h
        · cases h
        next sourced =>
        split at h
        · cases h
        next unblocked =>
        split at h
        · cases h
        next free =>
        split at h
        · next slug =>
            cases h
            obtain ⟨targets, once⟩ := oneToOne_eq_some.mp single
            rw [not_or] at unblocked
            refine ⟨w, holderOf_eq_some.mp holder, targets, once, working, sourced,
              unblocked.1, unblocked.2, by simpa [Lookup.contains] using free, slug, ?_⟩
            split
            · rfl
            · next same =>
                rw [Option.getD_none]
                exact (not_not.mp same).symm
        · cases h
    · cases h

-----------------------------------------------------------------------------------------
-- Coherence

/-- Numbers and working rows agree: each working row is an active municipality's and is
found by its number, and each number is that of a working row.
-/
structure GroupState.Coherent (state : GroupState Id) (snapshot : RegisterSnapshot Id)
    : Prop where
  holder : ∀ number r, state.byNumber number = some r →
    ∃ id w, r = .existing id ∧ state.working id = some w ∧ w.number = number
  number : ∀ id w, state.working id = some w → state.byNumber w.number = some (.existing id)
  row : ∀ id w, state.working id = some w → w.row ∈ activeMunicipalities snapshot
    ∧ w.row.id = id
  covers : ∀ row ∈ activeMunicipalities snapshot, (state.working row.id).isSome

variable {snapshot : RegisterSnapshot Id}

theorem nodup_active_ids (keys : RowKeys snapshot)
    : ((activeMunicipalities snapshot).map (·.id)).Nodup :=
  keys.municipalityIds.sublist (List.filter_sublist.map _)

/-- The loop starts coherent, since active numbers and ids are distinct. -/
theorem initialGroupState_coherent (keys : RowKeys snapshot)
    : (initialGroupState snapshot).Coherent snapshot := by
  have numbers : (((activeMunicipalities snapshot).map fun row =>
      (row.number, Ref.existing row.id)).map Prod.fst).Nodup := by
    simpa [List.map_map, Function.comp_def] using keys.numbers
  have ids : (((activeMunicipalities snapshot).map fun row =>
      (row.id, Working.ofRow row)).map Prod.fst).Nodup := by
    simpa [List.map_map, Function.comp_def] using nodup_active_ids keys
  have working (row) (member : row ∈ activeMunicipalities snapshot)
      : (initialGroupState snapshot).working row.id = some (.ofRow row) :=
    Lookup.ofPairs_of_mem ids (List.mem_map.mpr ⟨row, member, rfl⟩)
  refine ⟨?_, ?_, ?_, ?_⟩
  · intro number r found
    obtain ⟨row, member, same⟩ := List.mem_map.mp (Lookup.mem_of_ofPairs found)
    cases same
    exact ⟨row.id, .ofRow row, rfl, working row member, rfl⟩
  · intro id w found
    obtain ⟨row, member, same⟩ := List.mem_map.mp (Lookup.mem_of_ofPairs found)
    cases same
    exact Lookup.ofPairs_of_mem numbers (List.mem_map.mpr ⟨row, member, rfl⟩)
  · intro id w found
    obtain ⟨row, member, same⟩ := List.mem_map.mp (Lookup.mem_of_ofPairs found)
    cases same
    exact ⟨member, rfl⟩
  · intro row member
    rw [working row member]
    rfl

/-- A renumber keeps the state coherent: the holder leaves its number for a free one. -/
theorem GroupState.Coherent.renumber {id : Id} {target newSlug : String}
    {renamed : Option String} {w : Working Id} {first : CodeChange}
    (h : state.Coherent snapshot)
    (renumbers : state.Renumbers gone records old changes id target newSlug renamed w)
    : (state.renumbered old first id w target newSlug renamed).Coherent snapshot := by
  have own_number : w.number = old := by
    obtain ⟨id', w', same, working, number⟩ := h.holder old _ renumbers.holder
    cases same
    rw [renumbers.working] at working
    cases working
    exact number
  have other (id' : Id) (w' : Working Id) (differ : id' ≠ id)
      (found : state.working id' = some w')
      : w'.number ≠ target ∧ w'.number ≠ old := by
    have numbered := h.number id' w' found
    refine ⟨fun same => ?_, fun same => ?_⟩
    · rw [same, renumbers.free] at numbered
      cases numbered
    · rw [same, renumbers.holder] at numbered
      cases numbered
      exact differ rfl
  refine ⟨?_, ?_, ?_, ?_⟩
  · intro number r found
    by_cases to_target : number = target
    · subst to_target
      cases (Lookup.insert_self _ _ _).symm.trans found
      exact ⟨id, _, rfl, Lookup.insert_self _ _ _, rfl⟩
    · have before : (state.byNumber.erase old) number = some r :=
        (Lookup.insert_of_ne _ _ to_target).symm.trans found
      by_cases from_old : number = old
      · subst from_old
        rw [Lookup.erase_self] at before
        cases before
      · rw [Lookup.erase_of_ne _ from_old] at before
        obtain ⟨id', w', same, working, at_number⟩ := h.holder number r before
        have differ : id' ≠ id := by
          intro e
          subst e
          rw [renumbers.working] at working
          cases working
          exact from_old (at_number.symm.trans own_number)
        exact ⟨id', w', same, (Lookup.insert_of_ne _ _ differ).trans working, at_number⟩
  · intro id' w' found
    by_cases same : id' = id
    · subst same
      cases (Lookup.insert_self _ _ _).symm.trans found
      exact Lookup.insert_self _ _ _
    · have before := (Lookup.insert_of_ne _ _ same).symm.trans found
      obtain ⟨not_target, not_old⟩ := other id' w' same before
      refine (Lookup.insert_of_ne _ _ not_target).trans ?_
      exact (Lookup.erase_of_ne _ not_old).trans (h.number id' w' before)
  · intro id' w' found
    by_cases same : id' = id
    · subst same
      cases (Lookup.insert_self _ _ _).symm.trans found
      exact h.row id' w renumbers.working
    · exact h.row id' w' ((Lookup.insert_of_ne _ _ same).symm.trans found)
  · intro row member
    by_cases same : row.id = id
    · rw [same]
      exact Option.isSome_iff_exists.mpr ⟨_, Lookup.insert_self _ _ _⟩
    · exact (congrArg Option.isSome (Lookup.insert_of_ne _ _ same)).trans (h.covers row member)

/-- Every group keeps the state coherent. -/
theorem GroupState.Coherent.step (h : state.Coherent snapshot)
    (stepped : stepGroup gone records state (old, changes) = some after)
    : after.Coherent snapshot := by
  rcases stepGroup_cases stepped with ⟨_, rfl⟩
    | ⟨id, target, newSlug, renamed, first, w, decided, _, working, rfl⟩
    | ⟨reason, first, _, _, rfl⟩
  · exact h
  · obtain ⟨w', renumbers⟩ := decideGroup_renumber decided
    rw [renumbers.working] at working
    cases working
    exact h.renumber renumbers
  · exact ⟨h.holder, h.number, h.row, h.covers⟩

/-- A non-empty group is decided: its holder, if any, is a working row. -/
theorem decideGroup_isSome (h : state.Coherent snapshot)
    : (decideGroup gone records state old changes).isSome := by
  unfold decideGroup
  simp only
  split
  · rfl
  · split
    · split
      · rfl
      · split <;> rfl
    · next holder =>
        obtain ⟨id', w, same, working, _⟩ := h.holder _ _ (holderOf_eq_some.mp holder)
        cases same
        simp only [working, Option.bind_eq_bind, Option.bind_some]
        split
        · rfl
        split
        · rfl
        split
        · rfl
        split <;> rfl
    · rfl

/-- The group loop's body never panics on a non-empty group. -/
theorem stepGroup_isSome (h : state.Coherent snapshot) (nonempty : changes ≠ [])
    : ∃ after, stepGroup gone records state (old, changes) = some after := by
  have decides : (decideGroup gone records state old changes).isSome := decideGroup_isSome h
  obtain ⟨decision, decided⟩ := Option.isSome_iff_exists.mp decides
  obtain ⟨first, rest, same⟩ := List.exists_cons_of_ne_nil nonempty
  have head : changes.head? = some first := by rw [same]; rfl
  cases decision with
  | leave => exact ⟨state, by simp [stepGroup, decided, performGroup]⟩
  | renumber id target newSlug renamed =>
      obtain ⟨w, renumbers⟩ := decideGroup_renumber decided
      refine ⟨state.renumbered old first id w target newSlug renamed, ?_⟩
      simp [stepGroup, decided, performGroup, head, renumbers.working, GroupState.renumbered]
  | block reason =>
      refine ⟨state.blockedBy old changes first reason, ?_⟩
      simp [stepGroup, decided, performGroup, head, GroupState.blockedBy]

/-- The group loop runs to its end in a coherent state. -/
theorem planCodeChanges_coherent (keys : RowKeys snapshot)
    (records : List MunicipalityRecord) (changes : List CodeChange)
    : ∃ groups, planCodeChanges snapshot records changes = some groups
        ∧ groups.Coherent snapshot := by
  refine foldlM_total ?_ (initialGroupState_coherent keys)
  intro before group member h
  have nonempty : group.2 ≠ [] := groupBy_ne_nil (mem_sortOn.mp member)
  obtain ⟨after, stepped⟩ := stepGroup_isSome h nonempty
  exact ⟨after, stepped, h.step stepped⟩

end FauPortalen.Register

import FauPortalen.Register.Sync.GroupDecisions
import FauPortalen.Register.Sync.MunicipalitySettlement

/-! Code changes that keep the code and change the name only: the feed drops them when
Kartverket lists the code, and otherwise they count as one more target.
-/

set_option linter.unusedSectionVars false

namespace FauPortalen.Register

open FauPortalen.Foundations

section

variable {Id : Type} [LinearOrder Id] [UnicodeData] [OsloZone]
  {snapshot : RegisterSnapshot Id}

-----------------------------------------------------------------------------------------
-- Step 1 never panics

/-- Every existing holder of a number has a working row. -/
def GroupState.HoldersWork (state : GroupState Id) : Prop :=
  ∀ number id, state.byNumber number = some (.existing id) → (state.working id).isSome

theorem initialGroupState_holdersWork (snapshot : RegisterSnapshot Id)
    : (initialGroupState snapshot).HoldersWork := by
  intro number id found
  obtain ⟨row, member, same⟩ := List.mem_map.mp (Lookup.mem_of_ofPairs found)
  cases same
  refine Lookup.insertAll_isSome _ (List.mem_map.mpr ⟨(row.id, .ofRow row), ?_, rfl⟩)
  exact List.mem_map.mpr ⟨row, member, rfl⟩

variable {gone : String → Nat} {records : Lookup String MunicipalityRecord}
  {state after : GroupState Id} {old : String} {changes : List CodeChange}

/-- A non-empty group is decided and performed, and keeps every holder working. -/
theorem GroupState.HoldersWork.step (h : state.HoldersWork) (nonempty : changes ≠ [])
    : ∃ after, stepGroup gone records state (old, changes) = some after
        ∧ after.HoldersWork := by
  obtain ⟨first, rest, same⟩ := List.exists_cons_of_ne_nil nonempty
  have head : changes.head? = some first := by rw [same]; rfl
  have decides : (decideGroup gone records state old changes).isSome := by
    unfold decideGroup
    simp only
    split
    · rfl
    · split
      · split
        · rfl
        · split <;> rfl
      · next id single holder =>
          obtain ⟨w, working⟩ :=
            Option.isSome_iff_exists.mp (h _ _ (holderOf_eq_some.mp holder))
          simp only [working, Option.bind_eq_bind, Option.bind_some]
          split
          · rfl
          split
          · rfl
          split
          · rfl
          split <;> rfl
      · rfl
  obtain ⟨decision, decided⟩ := Option.isSome_iff_exists.mp decides
  cases decision with
  | leave => exact ⟨state, by simp [stepGroup, decided, performGroup], h⟩
  | renumber id target newSlug renamed =>
      obtain ⟨w, renumbers⟩ := decideGroup_renumber decided
      refine ⟨state.renumbered old first id w target newSlug renamed, ?_, ?_⟩
      · simp [stepGroup, decided, performGroup, head, renumbers.working, GroupState.renumbered]
      · intro number id' found
        by_cases same : id' = id
        · rw [same]
          exact Option.isSome_iff_exists.mpr ⟨_, Lookup.insert_self _ _ _⟩
        · have before : (state.byNumber.erase old) number = some (.existing id') := by
            by_cases to_target : number = target
            · subst to_target
              cases (Lookup.insert_self _ _ _).symm.trans found
              exact absurd rfl same
            · exact (Lookup.insert_of_ne _ _ to_target).symm.trans found
          have held : state.byNumber number = some (.existing id') := by
            rw [Lookup.erase_apply] at before
            split at before
            · cases before
            · exact before
          exact (congrArg Option.isSome (Lookup.insert_of_ne _ _ same)).trans (h _ _ held)
  | block reason =>
      refine ⟨state.blockedBy old changes first reason, ?_, h⟩
      simp [stepGroup, decided, performGroup, head, GroupState.blockedBy]

/-- Step 1 returns a plan for every snapshot and every input. -/
theorem planMunicipalities_isSome (snapshot : RegisterSnapshot Id) (inputs : SyncInputs)
    : ∃ plan, planMunicipalities snapshot inputs = some plan := by
  obtain ⟨groups, grouped, work⟩ : ∃ groups,
      planCodeChanges snapshot inputs.municipalities inputs.codeChanges = some groups
      ∧ groups.HoldersWork := by
    refine foldlM_total (P := GroupState.HoldersWork) ?_ (initialGroupState_holdersWork snapshot)
    intro before group member h
    exact h.step (groupBy_ne_nil (mem_sortOn.mp member))
  obtain ⟨recorded, run, _⟩ : ∃ recorded, planRecords inputs groups = some recorded
      ∧ ∀ number id, recorded.byNumber number = some (.existing id) →
        (groups.working id).isSome := by
    refine foldlM_total (P := fun state : RecordState Id => ∀ number id,
      state.byNumber number = some (.existing id) → (groups.working id).isSome) ?_ work
    intro before r _ h
    unfold stepRecord
    split
    · exact ⟨_, rfl, h⟩
    · split
      · next id found =>
          obtain ⟨w, working⟩ := Option.isSome_iff_exists.mp (h _ _ found)
          simp only [working, Option.bind_eq_bind, Option.bind_some]
          exact ⟨_, rfl, h⟩
      · exact ⟨_, rfl, h⟩
      · split
        · refine ⟨_, rfl, fun number id found => ?_⟩
          by_cases same : number = r.number
          · subst same
            cases (Lookup.insert_self _ _ _).symm.trans found
          · exact h _ _ ((Lookup.insert_of_ne _ _ same).symm.trans found)
        · exact ⟨_, rfl, h⟩
        · exact ⟨_, rfl, h⟩
  simp only [planMunicipalities, grouped, run, Option.bind_eq_bind, Option.bind_some]
  exact ⟨_, rfl⟩

-----------------------------------------------------------------------------------------
-- Inserting a row

/-- The inputs with another feed. -/
def SyncInputs.withFeed (inputs : SyncInputs) (feed : List CodeChange) : SyncInputs :=
  { inputs with codeChanges := feed }

/-- Planning gives the same outcome, and blocks the same numbers when it gets that far. -/
structure SameOutcome (snapshot : RegisterSnapshot Id) (left right : SyncInputs) : Prop where
  outcome : plan snapshot left = plan snapshot right
  blocked : emptySource? left = none →
    (planMunicipalities snapshot left.normalised).map (·.state.blockedNumbers)
      = (planMunicipalities snapshot right.normalised).map (·.state.blockedNumbers)

/-- The row changes nothing, wherever it stands in whatever feed. -/
def InsertionIsInert (snapshot : RegisterSnapshot Id) (inputs : SyncInputs)
    (row : CodeChange) : Prop :=
  ∀ before after, SameOutcome snapshot (inputs.withFeed (before ++ row :: after))
    (inputs.withFeed (before ++ after))

/-- A dropped row changes no group, so it changes nothing. -/
theorem insertion_of_dropped {inputs : SyncInputs} {row : CodeChange}
    (dropped : (!row.isIdle && !listsNumber inputs.municipalities row.oldCode) = false)
    : InsertionIsInert snapshot inputs row := by
  intro before after
  have groups : changeGroups inputs.municipalities (before ++ row :: after)
      = changeGroups inputs.municipalities (before ++ after) := by
    simp only [changeGroups, List.filter_append, List.filter_cons, dropped, if_false,
      Bool.false_eq_true]
  have first : planMunicipalities snapshot (inputs.withFeed (before ++ row :: after)).normalised
      = planMunicipalities snapshot (inputs.withFeed (before ++ after)).normalised := by
    simp only [planMunicipalities, planCodeChanges, SyncInputs.withFeed, SyncInputs.normalised,
      groups]
    rfl
  refine ⟨?_, fun _ => congrArg _ first⟩
  simp only [plan, planWith, planSteps, first]
  rfl

/-- Without records or units every plan ends before the feed is read. -/
theorem insertion_of_emptySource {inputs : SyncInputs} {row : CodeChange}
    (empty : inputs.municipalities = [] ∨ inputs.units = [])
    : InsertionIsInert snapshot inputs row := by
  intro before after
  have source : ∃ source, ∀ feed, emptySource? (inputs.withFeed feed) = some source := by
    rcases empty with none_listed | none_fetched
    · exact ⟨"kartverket", fun feed => by
        simp [emptySource?, SyncInputs.withFeed, none_listed]⟩
    · by_cases listed : inputs.municipalities = []
      · exact ⟨"kartverket", fun feed => by simp [emptySource?, SyncInputs.withFeed, listed]⟩
      · exact ⟨"nsr", fun feed => by
          simp [emptySource?, SyncInputs.withFeed, none_fetched, listed]⟩
  obtain ⟨source, same⟩ := source
  refine ⟨by simp only [plan, planWith, same], fun filled => ?_⟩
  rw [same] at filled
  cases filled

-----------------------------------------------------------------------------------------
-- A feed in which the row blocks its code

/-- The initial holder of a number is an existing municipality. -/
theorem initialGroupState_holderOf {number : String}
    (h : holderOf (initialGroupState snapshot).byNumber number = none)
    : (initialGroupState snapshot).byNumber number = none := by
  cases found : (initialGroupState snapshot).byNumber number with
  | none => rfl
  | some r =>
      obtain ⟨row, _, same⟩ := List.mem_map.mp (Lookup.mem_of_ofPairs found)
      cases same
      simp [holderOf, found] at h

/-- A feed of one row from an unheld code is left alone. -/
theorem planCodeChanges_single {records : List MunicipalityRecord} {change : CodeChange}
    (moves : change.oldCode ≠ change.newCode)
    (unlisted : listsNumber records change.oldCode = false)
    (unheld : holderOf (initialGroupState snapshot).byNumber change.oldCode = none)
    : planCodeChanges snapshot records [change] = some (initialGroupState snapshot) := by
  have groups : changeGroups records [change] = [(change.oldCode, [change])] := by
    simp [changeGroups, CodeChange.isIdle, moves, unlisted, groupBy, sortedKeys]
  have targets : targetCodes [change] = [change.newCode] := by
    simp [targetCodes, sortedKeys]
  have gone (number : String) : goneGroupsPerTarget [(change.oldCode, [change])] number
      = if number = change.newCode then 1 else 0 := by
    by_cases same : number = change.newCode <;> simp [goneGroupsPerTarget, targets, same]
  have single : oneToOne (goneGroupsPerTarget [(change.oldCode, [change])])
      (targetCodes [change]) = some change.newCode :=
    oneToOne_eq_some.mpr ⟨targets, by simp [gone]⟩
  have leaves : (initialGroupState snapshot).Leaves
      (goneGroupsPerTarget [(change.oldCode, [change])]) change.oldCode [change] :=
    .foreign change.newCode unheld (by simp [gone, moves]) single
  simp [planCodeChanges, groups, orderGroups, sortOn, stepGroup, leaves.decides, performGroup]

/-- Two groups that lead to one code make it nobody's only target. -/
theorem goneGroupsPerTarget_ne_one {groups : List (String × List CodeChange)}
    {left right : String × List CodeChange} {target : String} (hl : left ∈ groups)
    (hr : right ∈ groups) (differ : left ≠ right) (toLeft : target ∈ targetCodes left.2)
    (toRight : target ∈ targetCodes right.2)
    : goneGroupsPerTarget groups target ≠ 1 := by
  intro once
  obtain ⟨only, single⟩ := List.length_eq_one_iff.mp once
  have member (group : String × List CodeChange) (inside : group ∈ groups)
      (leads : target ∈ targetCodes group.2) : group = only := by
    have filtered : group ∈ groups.filter fun g => target ∈ targetCodes g.2 :=
      List.mem_filter.mpr ⟨inside, by simpa using leads⟩
    rw [single] at filtered
    exact List.mem_singleton.mp filtered
  exact differ ((member left hl toLeft).trans (member right hr toRight).symm)

/-- A name-only row of an unlisted code is blocked beside another row that leads to its code:
neither is one-to-one any more.
-/
theorem planCodeChanges_nameOnly {records : List MunicipalityRecord} {row other : CodeChange}
    (same : row.oldCode = row.newCode) (renames : row.oldName ≠ row.newName)
    (leads : other.newCode = row.newCode) (moves : other.oldCode ≠ row.oldCode)
    (unlisted : listsNumber records row.oldCode = false)
    (unlistedOther : listsNumber records other.oldCode = false) {groups : GroupState Id}
    (grouped : planCodeChanges snapshot records [row, other] = some groups)
    : row.oldCode ∈ groups.blockedNumbers := by
  let feed := changeGroups records [row, other]
  have active : row.isIdle = false := by simp [CodeChange.isIdle, renames]
  have activeOther : other.isIdle = false := by
    simp [CodeChange.isIdle, leads, ← same, moves]
  have mem_feed {group : String × List CodeChange}
      : group ∈ feed ↔ (∃ change ∈ [row, other], change.oldCode = group.1)
          ∧ group.2 = [row, other].filter (·.oldCode = group.1) := by
    have kept : [row, other].filter (fun c => !c.isIdle && !listsNumber records c.oldCode)
        = [row, other] := by
      simp [active, activeOther, unlisted, unlistedOther]
    rw [show feed = groupBy CodeChange.oldCode [row, other] by
      simp only [feed, changeGroups, kept]]
    exact mem_groupBy
  -- every target of the feed is the row's code, and two groups lead to it
  have target_eq {group : String × List CodeChange} {t : String} (member : group ∈ feed)
      (target : t ∈ targetCodes group.2) : t = row.oldCode := by
    rw [(mem_feed.mp member).2, targetCodes, mem_sortedKeys] at target
    obtain ⟨change, inside, rfl⟩ := List.mem_map.mp target
    rcases List.mem_cons.mp (List.mem_filter.mp inside).1 with rfl | last
    · exact same.symm
    · rw [List.mem_singleton.mp last, leads, same]
  have own : (row.oldCode, [row]) ∈ feed := by
    refine mem_feed.mpr ⟨⟨row, List.mem_cons_self, rfl⟩, ?_⟩
    simp [moves]
  have its : (other.oldCode, [other]) ∈ feed := by
    refine mem_feed.mpr ⟨⟨other, List.mem_cons_of_mem _ List.mem_cons_self, rfl⟩, ?_⟩
    simp [moves.symm]
  have own_target : row.oldCode ∈ targetCodes [row] := by simp [targetCodes, same]
  have never_once : goneGroupsPerTarget feed row.oldCode ≠ 1 := by
    refine goneGroupsPerTarget_ne_one own its (fun e => moves (congrArg Prod.fst e).symm)
      own_target ?_
    simp [targetCodes, leads, same]
  have unclear {group : String × List CodeChange} (member : group ∈ feed)
      : oneToOne (goneGroupsPerTarget feed) (targetCodes group.2) = none := by
    cases found : oneToOne (goneGroupsPerTarget feed) (targetCodes group.2) with
    | none => rfl
    | some t =>
        obtain ⟨targets, once⟩ := oneToOne_eq_some.mp found
        have t_eq := target_eq member (targets ▸ List.mem_singleton.mpr rfl)
        exact absurd (t_eq ▸ once) never_once
  -- so no group renumbers, and the row's own group meets the register's numbers
  have idle {state next : GroupState Id} {group : String × List CodeChange}
      (member : group ∈ orderGroups feed)
      (stepped : stepGroup (goneGroupsPerTarget feed) (recordsByNumber records) state group
        = some next) : next.byNumber = state.byNumber := by
    rcases stepGroup_cases stepped with ⟨_, rfl⟩ | ⟨_, target, _, _, _, _, decided, _⟩
      | ⟨_, _, _, _, rfl⟩
    · rfl
    · obtain ⟨_, renumbers⟩ := decideGroup_renumber decided
      have single := oneToOne_eq_some.mpr ⟨renumbers.single, renumbers.once⟩
      rw [unclear (mem_sortOn.mp member)] at single
      cases single
    · rfl
  obtain ⟨before, rest, split⟩ := List.append_of_mem
    (show (row.oldCode, [row]) ∈ orderGroups feed from mem_sortOn.mpr own)
  have run := grouped
  rw [planCodeChanges, show changeGroups records [row, other] = feed from rfl, split] at run
  obtain ⟨state, early, later⟩ := foldlM_append_eq_some.mp run
  obtain ⟨next, stepped, rest_run⟩ := foldlM_cons_eq_some.mp later
  have numbers : state.byNumber = (initialGroupState snapshot).byNumber := by
    refine foldlM_preserves (P := fun s : GroupState Id =>
      s.byNumber = (initialGroupState snapshot).byNumber) ?_ early rfl
    intro s group member s' stepped kept
    refine (idle ?_ stepped).trans kept
    rw [split]
    exact List.mem_append_left _ member
  have blocks : state.Blocks (goneGroupsPerTarget feed) (recordsByNumber records) row.oldCode
      [row] := by
    cases held : holderOf state.byNumber row.oldCode with
    | some id => exact .split id held (unclear own)
    | none =>
        refine .unheld held row.oldCode own_target ?_ (.inr (unclear own))
        rw [numbers] at held ⊢
        exact initialGroupState_holderOf held
  obtain ⟨reason, decided⟩ := blocks.decides
  have blocked : row.oldCode ∈ next.blockedNumbers := by
    rcases stepGroup_cases stepped with ⟨left, _⟩ | ⟨_, _, _, _, _, _, other, _⟩
      | ⟨_, _, _, _, rfl⟩
    · cases left.symm.trans decided
    · cases other.symm.trans decided
    · exact Finset.mem_insert_self _ _
  exact foldlM_preserves (P := fun s : GroupState Id => row.oldCode ∈ s.blockedNumbers)
    (fun _ _ _ _ stepped inside => stepGroup_blocked stepped inside) rest_run blocked

/-- Some code is none of the given ones. -/
theorem exists_fresh_code (used : List String) : ∃ code, code ∉ used := by
  have injective : Function.Injective fun n : Nat => String.ofList (List.replicate n 'x') := by
    intro m n same
    have lists := congrArg String.toList same
    simpa using congrArg List.length lists
  have : Infinite String := Infinite.of_injective _ injective
  obtain ⟨code, fresh⟩ := Infinite.exists_notMem_finset used.toFinset
  exact ⟨code, fun member => fresh (List.mem_toFinset.mpr member)⟩

/-- A name-only row is inert, wherever it is inserted into whatever feed, exactly when it is
dropped (its names agree, or Kartverket lists its code) or the feed is never read.
-/
theorem nameOnlyChange_inert (snapshot : RegisterSnapshot Id) (inputs : SyncInputs)
    {row : CodeChange} (same : row.oldCode = row.newCode)
    : InsertionIsInert snapshot inputs row
      ↔ row.oldName = row.newName ∨ listsNumber inputs.municipalities row.oldCode = true
        ∨ inputs.municipalities = [] ∨ inputs.units = [] := by
  constructor
  · intro inert
    by_contra missed
    simp only [not_or, Bool.not_eq_true] at missed
    obtain ⟨renames, unlisted, listed, fetched⟩ := missed
    obtain ⟨code, fresh⟩ := exists_fresh_code (row.oldCode
      :: (inputs.municipalities.map MunicipalityRecord.number
        ++ (activeMunicipalities snapshot).map (·.number)))
    simp only [List.mem_cons, List.mem_append, not_or] at fresh
    obtain ⟨moves, unlistedCode, unheld⟩ := fresh
    let other : CodeChange := ⟨code, row.oldName, row.newCode, row.newName, row.occurredOn⟩
    have unlistedOther : listsNumber inputs.municipalities other.oldCode = false := by
      refine List.any_eq_false.mpr fun r member listed => unlistedCode ?_
      exact List.mem_map.mpr ⟨r, member, of_decide_eq_true listed⟩
    have free : holderOf (initialGroupState snapshot).byNumber other.oldCode = none := by
      have vacant : (initialGroupState snapshot).byNumber code = none := by
        refine Lookup.ofPairs_eq_none.mpr fun member => unheld ?_
        simpa [List.map_map, Function.comp_def] using member
      simp [holderOf, other, vacant]
    have filled : emptySource? (inputs.withFeed ([] ++ row :: [other])) = none := by
      simp [emptySource?, SyncInputs.withFeed, listed, fetched]
    have blocked := (inert [] [other]).blocked filled
    obtain ⟨plan, planned⟩ :=
      planMunicipalities_isSome snapshot (inputs.withFeed [other]).normalised
    obtain ⟨more, planned_more⟩ :=
      planMunicipalities_isSome snapshot (inputs.withFeed [row, other]).normalised
    rw [show [] ++ row :: [other] = [row, other] from rfl, planned_more,
      show [] ++ [other] = [other] from rfl, planned] at blocked
    have sameBlocked : more.state.blockedNumbers = plan.state.blockedNumbers :=
      Option.some.inj blocked
    obtain ⟨groups, _, grouped, _, numbers, _⟩ := planMunicipalities_parts planned
    obtain ⟨groupsMore, _, groupedMore, _, numbersMore, _⟩ :=
      planMunicipalities_parts planned_more
    have clear : groups.blockedNumbers = ∅ := by
      have single : planCodeChanges snapshot inputs.municipalities [other]
          = some (initialGroupState snapshot) :=
        planCodeChanges_single (show other.oldCode ≠ other.newCode from same ▸ moves)
          unlistedOther free
      cases single.symm.trans grouped
      rfl
    have inside := planCodeChanges_nameOnly same renames
      (show other.newCode = row.newCode from rfl) moves unlisted unlistedOther groupedMore
    rw [← numbersMore, sameBlocked, numbers, clear] at inside
    exact Finset.notMem_empty _ inside
  · intro dropped
    rcases dropped with named | listed | empty
    · exact insertion_of_dropped (by simp [CodeChange.isIdle, same, named])
    · exact insertion_of_dropped (by simp [listed])
    · exact insertion_of_emptySource empty

end

-----------------------------------------------------------------------------------------
-- A municipality that is renamed and later renumbered

section

attribute [local instance] OsloZone.atEpoch UnicodeData.ascii

/-- One municipality, still under its first number. -/
def renamedRegister : RegisterSnapshot Nat :=
  { sampleRegister with
    municipalities := [⟨1, "0101", "Oslo", some "Oslo", "03", "Oslo", "0101-oslo", .active,
      .kartverket, []⟩] }

/-- Kartverket lists the new number, and the feed has the renumber. -/
def renamedInputs : SyncInputs :=
  { sampleInputs with
    municipalities := [⟨"0102", "Oslo", "Oslo", "03", "Oslo", []⟩]
    codeChanges := [
      ⟨"0101", "Oslo", "0102", "Oslo", .ofParts 2024 1 1 rfl⟩] }

/-- The change of name, four years before. -/
def formerName : CodeChange :=
  ⟨"0101", "Oslo by", "0101", "Oslo", .ofParts 2020 1 1 rfl⟩

/-- With the change of name the renumber is taken for a split and blocked. -/
theorem renaming_blocks_renumber
    : ¬ ∀ (snapshot : RegisterSnapshot Nat) (inputs : SyncInputs) (row : CodeChange),
        row.oldCode = row.newCode → InsertionIsInert snapshot inputs row := by
  intro claim
  have without_row : (planMunicipalities renamedRegister renamedInputs.normalised).any
      (fun plan => plan.state.blockedNumbers = ∅) = true := by decide +kernel
  have with_row : (planMunicipalities renamedRegister
      (renamedInputs.withFeed (formerName :: renamedInputs.codeChanges)).normalised).any
        (fun plan => "0102" ∈ plan.state.blockedNumbers) = true := by decide +kernel
  obtain ⟨plan, planned, clear⟩ := (Option.any_eq_true _ _).mp without_row
  obtain ⟨more, planned_more, inside⟩ := (Option.any_eq_true _ _).mp with_row
  have blocked := (claim renamedRegister renamedInputs formerName rfl [] renamedInputs.codeChanges
    ).blocked (by decide)
  rw [show [] ++ formerName :: renamedInputs.codeChanges = formerName :: renamedInputs.codeChanges
    from rfl, planned_more, show (renamedInputs.withFeed ([] ++ renamedInputs.codeChanges))
      = renamedInputs from rfl, planned] at blocked
  have member : "0102" ∈ more.state.blockedNumbers := of_decide_eq_true inside
  rw [show more.state.blockedNumbers = plan.state.blockedNumbers from Option.some.inj blocked,
    of_decide_eq_true clear] at member
  exact Finset.notMem_empty _ member

/-- A listed municipality's change of its official name is inert. -/
theorem listed_renaming_inert
    : InsertionIsInert sampleRegister sampleInputs
        ⟨"0301", "Oslo", "0301", "Oslo - Oslove", ⟨2026, 1, 1, by decide, by decide, by decide⟩⟩
    := (nameOnlyChange_inert sampleRegister sampleInputs rfl).mpr (.inr (.inl (by decide)))

end

end FauPortalen.Register

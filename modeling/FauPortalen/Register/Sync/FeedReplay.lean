import FauPortalen.Register.Sync.GroupDecisions
import FauPortalen.Register.Sync.SecondRun

/-! Planning the same code changes again, against the register a plan left: which groups are
inert, and that a plan whose groups all are renumbers nothing and blocks no new number.
-/

set_option linter.unusedSectionVars false

namespace FauPortalen.Register

open FauPortalen.Foundations

section

variable {Id : Type} [LinearOrder Id] [UnicodeData] [OsloZone]

-----------------------------------------------------------------------------------------
-- Inert groups

/-- An active municipality has the number. -/
def RegisterSnapshot.Holds (register : RegisterSnapshot Id) (number : String) : Prop :=
  ∃ m ∈ register.municipalities, m.status = .active ∧ m.number = number

/-- The group does nothing new to the register: its municipality carries on under the new
codes, nobody ever held its old code, its municipality is kept by hand, or its codes are
blocked already.
-/
inductive GroupIsInert (register : RegisterSnapshot Id) (blocked : Finset String)
    (gone : String → Nat) (old : String) (changes : List CodeChange) : Prop
  | resolved (unheld : ¬ register.Holds old)
      (held : ∀ t ∈ targetCodes changes, register.Holds t)
  | foreign (target : String) (unheld : ¬ register.Holds old) (first : gone old = 0)
      (single : oneToOne gone (targetCodes changes) = some target)
  | manual (target : String) (m : MunicipalitySnapshot Id)
      (member : m ∈ register.municipalities) (active : m.status = .active)
      (number : m.number = old) (source : m.source = .manual)
      (single : oneToOne gone (targetCodes changes) = some target)
  | blocked (old_blocked : old ∈ blocked) (targets : ∀ t ∈ targetCodes changes, t ∈ blocked)

variable {ids : NewIds Id} {snapshot after : RegisterSnapshot Id} {inputs : SyncInputs}
  {plan : MunicipalityPlan Id} {groups : GroupState Id}

theorem holds_iff (store : StoreConstraints after) {number : String}
    : after.Holds number ↔ ((initialGroupState after).byNumber number).isSome := by
  constructor
  · intro ⟨m, member, active, same⟩
    rw [(initialGroupState_existing store).mpr ⟨m, member, active, rfl, same⟩]
    rfl
  · intro held
    obtain ⟨r, found⟩ := Option.isSome_iff_exists.mp held
    obtain ⟨id, _, rfl, _⟩ := (initialGroupState_coherent store.rowKeys).holder _ _ found
    obtain ⟨m, member, active, _, same⟩ := (initialGroupState_existing store).mp found
    exact ⟨m, member, active, same⟩

/-- A coherent state's holders are existing municipalities. -/
theorem GroupState.Coherent.holderOf_eq_none {state : GroupState Id}
    (h : state.Coherent snapshot) {number : String}
    : holderOf state.byNumber number = none ↔ state.byNumber number = none := by
  cases found : state.byNumber number with
  | none => simp [holderOf, found]
  | some r =>
      obtain ⟨id, _, rfl, _⟩ := h.holder _ _ found
      simp [holderOf, found]

/-- A group that the applied register leaves alone is inert. -/
theorem GroupState.Leaves.inert (store : StoreConstraints after) {blocked : Finset String}
    {gone : String → Nat} {old : String} {changes : List CodeChange}
    (h : (initialGroupState after).Leaves gone old changes)
    : GroupIsInert after blocked gone old changes := by
  have coherent := initialGroupState_coherent store.rowKeys
  have vacant (unheld : holderOf (initialGroupState after).byNumber old = none)
      : ¬ after.Holds old := by
    rw [holds_iff store, coherent.holderOf_eq_none.mp unheld]
    simp
  cases h with
  | resolved unheld held =>
      exact .resolved (vacant unheld) fun t target => (holds_iff store).mpr (held t target)
  | foreign target unheld first single => exact .foreign target (vacant unheld) first single
  | manual id w target holder single working manual =>
      obtain ⟨m, member, active, same, number⟩ :=
        (initialGroupState_existing store).mp (holderOf_eq_some.mp holder)
      obtain ⟨own, _⟩ := initialGroupState_working store member active
      rw [same, working] at own
      cases own
      exact .manual target m member active number manual single

/-- An inert group is left alone, or its codes are blocked already. -/
theorem GroupIsInert.leaves (store : StoreConstraints after) {blocked : Finset String}
    {gone : String → Nat} {old : String} {changes : List CodeChange}
    (h : GroupIsInert after blocked gone old changes)
    : (initialGroupState after).Leaves gone old changes
      ∨ (old ∈ blocked ∧ ∀ t ∈ targetCodes changes, t ∈ blocked) := by
  have coherent := initialGroupState_coherent store.rowKeys
  have vacant (unheld : ¬ after.Holds old)
      : holderOf (initialGroupState after).byNumber old = none := by
    refine coherent.holderOf_eq_none.mpr (Option.not_isSome_iff_eq_none.mp fun held => ?_)
    exact unheld ((holds_iff store).mpr held)
  cases h with
  | resolved unheld held =>
      exact .inl (.resolved (vacant unheld) fun t target => (holds_iff store).mp (held t target))
  | foreign target unheld first single =>
      exact .inl (.foreign target (vacant unheld) first single)
  | manual target m member active number source single =>
      obtain ⟨working, held⟩ := initialGroupState_working store member active
      rw [number] at held
      exact .inl (.manual m.id _ target (holderOf_eq_some.mpr held) single working source)
  | blocked old_blocked targets => exact .inr ⟨old_blocked, targets⟩

/-- Leaving and blocking look at the numbers and the working rows only. -/
theorem GroupState.Leaves.congr {state other : GroupState Id} {gone : String → Nat}
    {old : String} {changes : List CodeChange} (numbers : other.byNumber = state.byNumber)
    (working : other.working = state.working) (h : state.Leaves gone old changes)
    : other.Leaves gone old changes := by
  cases h with
  | resolved unheld held => exact .resolved (numbers ▸ unheld) (numbers ▸ held)
  | foreign target unheld first single => exact .foreign target (numbers ▸ unheld) first single
  | manual id w target holder single found manual =>
      exact .manual id w target (numbers ▸ holder) single (working ▸ found) manual

-----------------------------------------------------------------------------------------
-- The register a plan left

/-- A municipality plan, the group state behind it, and the register it left. -/
structure Replay (ids : NewIds Id) (snapshot after : RegisterSnapshot Id) (inputs : SyncInputs)
    (plan : MunicipalityPlan Id) (groups : GroupState Id) : Prop where
  store : StoreConstraints snapshot
  storeAfter : StoreConstraints after
  planned : planMunicipalities snapshot inputs = some plan
  grouped : planCodeChanges snapshot inputs.municipalities inputs.codeChanges = some groups
  settles : plan.Settles ids snapshot inputs
  rows : after.municipalities = tableAfterMunicipalityOps ids plan.ops snapshot.municipalities

namespace Replay

variable (replay : Replay ids snapshot after inputs plan groups) {number : String}
include replay

theorem coherent : groups.Coherent snapshot := by
  obtain ⟨groups', grouped, coherent⟩ :=
    planCodeChanges_coherent replay.store.rowKeys inputs.municipalities inputs.codeChanges
  cases replay.grouped.symm.trans grouped
  exact coherent

/-- A number that the group loop left held is held in the register. -/
theorem held (h : (groups.byNumber number).isSome)
    : ((initialGroupState after).byNumber number).isSome := by
  obtain ⟨r, found⟩ := Option.isSome_iff_exists.mp h
  have resolved := (planMunicipalities_numbers replay.store replay.planned
    replay.grouped).1 _ _ found
  obtain ⟨id, _, held⟩ :=
    (Tracks.again (replay.rows ▸ replay.settles.tracks) replay.storeAfter).1 _ _ resolved
  rw [held]
  rfl

/-- A blocked number that the group loop left free is free in the register. -/
theorem free (blocked : number ∈ groups.blockedNumbers) (h : groups.byNumber number = none)
    : (initialGroupState after).byNumber number = none := by
  have vacant := (planMunicipalities_numbers replay.store replay.planned
    replay.grouped).2 _ blocked h
  exact (Tracks.again (replay.rows ▸ replay.settles.tracks) replay.storeAfter).2 _ vacant

/-- The holder of a number that Kartverket does not list is in the register as the group
loop left it.
-/
theorem holder (unlisted : listsNumber inputs.municipalities number = false) {id : Id}
    {w : Working Id} (h : groups.byNumber number = some (.existing id))
    (working : groups.working id = some w)
    : (initialGroupState after).byNumber number = some (.existing id)
      ∧ (initialGroupState after).working id = some (.ofRow w.applied) := by
  have own : w.number = number := by
    obtain ⟨id', w', same, working', own⟩ := replay.coherent.holder _ _ h
    cases same
    cases working.symm.trans working'
    exact own
  obtain ⟨inside, same⟩ := replay.coherent.row _ _ working
  have present := replay.settles.untouched groups replay.grouped id w working (own ▸ unlisted)
  rw [← replay.rows] at present
  have active : w.applied.status = .active :=
    of_decide_eq_true (List.mem_filter.mp inside).2
  obtain ⟨found, held⟩ := initialGroupState_working replay.storeAfter present active
  rw [show w.applied.id = id from same] at found held
  rw [show w.applied.number = number from own] at held
  exact ⟨held, found⟩

/-- A number that Kartverket does not list has the holder the group loop left it, or is
Svalbard's.
-/
theorem holder_before (unlisted : listsNumber inputs.municipalities number = false) {id : Id}
    {w : Working Id} (h : (initialGroupState after).byNumber number = some (.existing id))
    (working : (initialGroupState after).working id = some w)
    : (groups.byNumber number = some (.existing id)
        ∧ ∃ w', groups.working id = some w' ∧ w'.row.source = w.row.source)
      ∨ w.row.source = .manual := by
  obtain ⟨m, member, active, same, own⟩ :=
    (initialGroupState_existing replay.storeAfter).mp h
  obtain ⟨found, _⟩ := initialGroupState_working replay.storeAfter member active
  rw [same, working] at found
  cases found
  rcases replay.settles.unlisted groups replay.grouped m (replay.rows ▸ member) active
    (own ▸ unlisted) with ⟨w', working', applied⟩ | ⟨manual, _⟩
  · have source : w'.applied.source = m.source := by rw [← applied]
    refine .inl ⟨?_, w', same ▸ working', source⟩
    have number := replay.coherent.number _ _ working'
    have own' : w'.number = m.number := congrArg MunicipalitySnapshot.number applied.symm
    rwa [own', own, same] at number
  · exact .inr manual

-----------------------------------------------------------------------------------------
-- One group, planned again

variable {gone : String → Nat} {records : Lookup String MunicipalityRecord}
  {state next second : GroupState Id} {old : String} {changes : List CodeChange}
  {rest : List (String × List CodeChange)}

/-- A group that was blocked is blocked again: its codes are as they were. -/
theorem blocks_again (coherent : state.Coherent snapshot)
    (unlisted : listsNumber inputs.municipalities old = false)
    (stepped : stepGroup gone records state (old, changes) = some next)
    (run : rest.foldlM (stepGroup gone records) next = some groups)
    {reason : String}
    (decided : decideGroup gone records state old changes = some (.block reason))
    (numbers : second.byNumber = (initialGroupState after).byNumber)
    (workings : second.working = (initialGroupState after).working)
    (grown : state.blockedNumbers ⊆ second.blockedNumbers)
    : ∃ reason, decideGroup gone records second old changes = some (.block reason) := by
  -- this group's own codes are blocked from here on
  have frozen (number : String) (own : number = old ∨ number ∈ targetCodes changes)
      : state.Keeps groups number ∧ number ∈ groups.blockedNumbers := by
    obtain ⟨more, kept⟩ := stepGroups_blocked (coherent.step stepped) run
    rcases stepGroup_cases stepped with ⟨left, _⟩ | ⟨_, _, _, _, _, _, renumbered, _⟩
      | ⟨given, first, _, _, rfl⟩
    · cases left.symm.trans decided
    · cases renumbered.symm.trans decided
    · have inside : number ∈ (state.blockedBy old changes first given).blockedNumbers := by
        simp only [GroupState.blockedBy, Finset.mem_insert, Finset.mem_union,
          List.mem_toFinset]
        exact own.elim .inl fun target => .inr (.inr target)
      exact ⟨⟨(kept _ inside).byNumber, (kept _ inside).working⟩, more inside⟩
  have again : second.Blocks gone records old changes := by
    cases decideGroup_block decided with
    | unheld holder free target vacant unclear =>
        obtain ⟨keeps, blocked⟩ := frozen old (.inl rfl)
        obtain ⟨keepsFree, blockedFree⟩ := frozen free (.inr target)
        refine .unheld ?_ free target ?_ unclear
        · rw [numbers]
          refine (initialGroupState_coherent replay.storeAfter.rowKeys).holderOf_eq_none.mpr ?_
          exact replay.free blocked
            (keeps.byNumber.trans (coherent.holderOf_eq_none.mp holder))
        · rw [numbers]
          exact replay.free blockedFree (keepsFree.byNumber.trans vacant)
    | split id holder unclear =>
        obtain ⟨keeps, _⟩ := frozen old (.inl rfl)
        have held := holderOf_eq_some.mp holder
        obtain ⟨_, w, same, working, _⟩ := coherent.holder _ _ held
        cases same
        obtain ⟨found, _⟩ := replay.holder unlisted (keeps.byNumber.trans held)
          ((keeps.working id held).trans working)
        exact .split id (holderOf_eq_some.mpr (numbers ▸ found)) unclear
    | stuck id w target holder single working sourced obstacle =>
        obtain ⟨keeps, _⟩ := frozen old (.inl rfl)
        have held := holderOf_eq_some.mp holder
        obtain ⟨found, row⟩ := replay.holder unlisted (keeps.byNumber.trans held)
          ((keeps.working id held).trans working)
        refine .stuck id (.ofRow w.applied) target (holderOf_eq_some.mpr (numbers ▸ found))
          single (workings ▸ row) sourced ?_
        rcases obstacle with blocked | taken | slug
        · exact .inl (blocked.imp (fun b => grown b) fun b => grown b)
        · have inside : target ∈ targetCodes changes := by
            rw [(oneToOne_eq_some.mp single).1]
            exact List.mem_singleton.mpr rfl
          refine .inr (.inl ?_)
          rw [numbers]
          exact replay.held ((frozen target (.inr inside)).1.byNumber ▸ taken)
        · exact .inr (.inr slug)
  exact again.decides

/-- A group that was not blocked although its codes are in the end is not renumbered: the
codes would have to be held, or free, where the groups to come leave them otherwise.
-/
theorem not_renumbered_again (coherent : state.Coherent snapshot)
    (unlisted : listsNumber inputs.municipalities old = false)
    (stepped : stepGroup gone records state (old, changes) = some next)
    (run : rest.foldlM (stepGroup gone records) next = some groups)
    (distinct : ((old :: rest.map Prod.fst)).Nodup)
    (once : ∀ t ∈ targetCodes changes, gone t = 1 →
      ∀ group ∈ rest, t ∉ targetCodes group.2)
    (first : gone old = 0 → ∀ group ∈ rest, old ∉ targetCodes group.2)
    (unblocked : ∀ reason, decideGroup gone records state old changes ≠ some (.block reason))
    (blocked : ∀ t ∈ targetCodes changes, t ∈ groups.blockedNumbers)
    (numbers : second.byNumber = (initialGroupState after).byNumber)
    (workings : second.working = (initialGroupState after).working)
    {id : Id} {target newSlug : String} {renamed : Option String} {w : Working Id}
    : ¬ second.Renumbers gone records old changes id target newSlug renamed w := by
  intro again
  have inside : target ∈ targetCodes changes := by
    rw [again.single]
    exact List.mem_singleton.mpr rfl
  obtain ⟨own_new, rest_distinct⟩ := List.nodup_cons.mp distinct
  have never_old : ∀ group ∈ rest, group.1 ≠ old :=
    fun group member same => own_new (List.mem_map.mpr ⟨group, member, same⟩)
  have next_coherent := coherent.step stepped
  -- a target held now would be held in the register, or its holder left it unblocked
  have target_free : (next.byNumber target).isSome → False := by
    intro held
    rcases stepGroups_held next_coherent run rest_distinct (once target inside again.once) held
      with still | free
    · have taken := replay.held still
      rw [← numbers, again.free] at taken
      cases taken
    · exact free (blocked target inside)
  have holder := replay.holder_before unlisted (numbers ▸ again.holder)
    (workings ▸ again.working)
  rcases stepGroup_cases stepped with ⟨left, rfl⟩
    | ⟨_, target', _, _, _, _, decided, _, _, rfl⟩ | ⟨reason, _, decided, _⟩
  · cases decideGroup_leave left with
    | resolved unheld held => exact target_free (held target inside)
    | foreign _ unheld fresh _ =>
        have vacant := coherent.holderOf_eq_none.mp unheld
        have keeps := stepGroups_keep coherent run never_old (.inr (first fresh))
        rcases holder with ⟨held, _⟩ | manual
        · rw [keeps.byNumber, vacant] at held
          cases held
        · exact again.sourced manual
    | manual id' w' _ holder' _ working manual =>
        have held' := holderOf_eq_some.mp holder'
        have keeps := stepGroups_keep coherent run never_old (.inl (by rw [held']; rfl))
        rcases holder with ⟨held, row, working', source⟩ | manual'
        · cases (keeps.byNumber.trans held').symm.trans held
          cases working'.symm.trans ((keeps.working _ held').trans working)
          exact again.sourced (source.symm.trans manual)
        · exact again.sourced manual'
  · obtain ⟨_, renumbers⟩ := decideGroup_renumber decided
    have same : target' = target := by
      have both := renumbers.single.symm.trans again.single
      exact (List.cons.inj both).1
    subst same
    exact target_free (congrArg Option.isSome (Lookup.insert_self _ _ _))
  · exact unblocked reason decided

-----------------------------------------------------------------------------------------
-- The group loop, run again

omit replay in
/-- The groups of a feed in their order: each old code once, none of it listed. -/
theorem orderedGroups_spec (records : List MunicipalityRecord) (changes : List CodeChange)
    : ((orderGroups (changeGroups records changes)).map Prod.fst).Nodup
      ∧ ∀ group ∈ orderGroups (changeGroups records changes),
          listsNumber records group.1 = false ∧ group.2 ≠ [] := by
  refine ⟨?_, fun group member => ?_⟩
  · exact ((List.perm_insertionSort _ _).map _).nodup_iff.mpr (nodup_groupBy_keys _ _)
  · have inside := mem_sortOn.mp member
    obtain ⟨⟨change, present, same⟩, _⟩ := mem_groupBy.mp inside
    simp only [List.mem_filter, Bool.and_eq_true, Bool.not_eq_true'] at present
    exact ⟨same ▸ present.2.2, groupBy_ne_nil inside⟩

omit replay in
/-- A code that one group leads to is no target of the groups after it. -/
theorem goneGroups_once {groups before rest : List (String × List CodeChange)}
    {head : String × List CodeChange} {t : String}
    (split : orderGroups groups = before ++ head :: rest) (target : t ∈ targetCodes head.2)
    (once : goneGroupsPerTarget groups t = 1)
    : ∀ group ∈ rest, t ∉ targetCodes group.2 := by
  have count : ((before ++ head :: rest).filter fun group => t ∈ targetCodes group.2).length
      = 1 := by
    rw [← split, ← once]
    exact ((List.perm_insertionSort _ _).filter _).length_eq
  rw [List.filter_append, List.filter_cons_of_pos (by simpa using target), List.length_append,
    List.length_cons] at count
  have empty : (rest.filter fun group => t ∈ targetCodes group.2).length = 0 := by omega
  intro group member inside
  exact List.filter_eq_nil_iff.mp (List.length_eq_zero_iff.mp empty) group member
    (by simpa using inside)

omit replay in
/-- A code that no group leads to is no target of any. -/
theorem goneGroups_none {groups : List (String × List CodeChange)} {number : String}
    (none_gone : goneGroupsPerTarget groups number = 0)
    : ∀ group ∈ orderGroups groups, number ∉ targetCodes group.2 := by
  intro group member inside
  exact List.filter_eq_nil_iff.mp (List.length_eq_zero_iff.mp none_gone) group
    (mem_sortOn.mp member) (by simpa using inside)

/-- The second run's group loop beside the first one's: it has changed nothing, and has
blocked what the first one had by then, and nothing that the first one does not block.
-/
structure Beside (snapshot after : RegisterSnapshot Id) (inputs : SyncInputs)
    (groups : GroupState Id) (state second : GroupState Id)
    (left : List (String × List CodeChange)) : Prop where
  coherent : state.Coherent snapshot
  run : left.foldlM (stepGroup
    (goneGroupsPerTarget (changeGroups inputs.municipalities inputs.codeChanges))
    (recordsByNumber inputs.municipalities)) state = some groups
  split : ∃ before,
    orderGroups (changeGroups inputs.municipalities inputs.codeChanges) = before ++ left
  numbers : second.byNumber = (initialGroupState after).byNumber
  workings : second.working = (initialGroupState after).working
  ops : second.ops = []
  grown : state.blockedNumbers ⊆ second.blockedNumbers
  bounded : second.blockedNumbers ⊆ groups.blockedNumbers

/-- When every group is inert, a run over the same feed renumbers nothing and blocks no
number that the first run did not, by induction over both loops together.
-/
theorem groups_again
    (inert : ∀ group ∈ changeGroups inputs.municipalities inputs.codeChanges,
      GroupIsInert after groups.blockedNumbers
        (goneGroupsPerTarget (changeGroups inputs.municipalities inputs.codeChanges)) group.1
        group.2)
    {second : GroupState Id}
    (run : planCodeChanges after inputs.municipalities inputs.codeChanges = some second)
    : second.ops = [] ∧ second.blockedNumbers ⊆ groups.blockedNumbers := by
  obtain ⟨distinct, spec⟩ := orderedGroups_spec inputs.municipalities inputs.codeChanges
  suffices beside : Beside snapshot after inputs groups groups second [] from
    ⟨beside.ops, beside.bounded⟩
  refine foldlM_related (P := Beside snapshot after inputs groups) ?_ replay.grouped run
    ⟨initialGroupState_coherent replay.store.rowKeys, replay.grouped, ⟨[], rfl⟩, rfl, rfl, rfl,
      Finset.Subset.refl _, Finset.empty_subset _⟩
  rintro state second ⟨old, changes⟩ rest next second' beside stepped stepped'
  obtain ⟨middle, first, later⟩ := foldlM_cons_eq_some.mp beside.run
  cases stepped.symm.trans first
  obtain ⟨before, split⟩ := beside.split
  have member : (old, changes)
      ∈ orderGroups (changeGroups inputs.municipalities inputs.codeChanges) := by
    rw [split]
    exact List.mem_append_right _ List.mem_cons_self
  have unlisted := (spec _ member).1
  have coherent := beside.coherent.step stepped
  have split' : ∃ before,
      orderGroups (changeGroups inputs.municipalities inputs.codeChanges) = before ++ rest :=
    ⟨before ++ [(old, changes)], by rw [split, List.append_assoc]; rfl⟩
  obtain ⟨more, _⟩ := stepGroups_blocked coherent later
  let gone := goneGroupsPerTarget (changeGroups inputs.municipalities inputs.codeChanges)
  let records := recordsByNumber inputs.municipalities
  by_cases decided : ∃ reason, decideGroup gone records state old changes = some (.block reason)
  · -- blocked in the first run, and so in the second
    obtain ⟨reason, decided⟩ := decided
    obtain ⟨reason', again⟩ := replay.blocks_again beside.coherent unlisted stepped later decided
      beside.numbers beside.workings beside.grown
    rcases stepGroup_cases stepped with ⟨other, _⟩ | ⟨_, _, _, _, _, _, other, _⟩
      | ⟨_, head, _, _, rfl⟩
    · cases other.symm.trans decided
    · cases other.symm.trans decided
    rcases stepGroup_cases stepped' with ⟨other, _⟩ | ⟨_, _, _, _, _, _, other, _⟩
      | ⟨_, head', _, _, rfl⟩
    · cases other.symm.trans again
    · cases other.symm.trans again
    refine ⟨coherent, later, split', beside.numbers, beside.workings, beside.ops, ?_, ?_⟩
    · exact Finset.insert_subset_insert _ (Finset.union_subset_union_left beside.grown)
    · refine Finset.insert_subset (more (Finset.mem_insert_self _ _)) (Finset.union_subset
        beside.bounded fun t inside => more ?_)
      exact Finset.mem_insert_of_mem (Finset.mem_union_right _ inside)
  · -- left alone or renumbered in the first run, and so with nothing left to do
    have unblocked : ∀ reason,
        decideGroup gone records state old changes ≠ some (.block reason) :=
      fun reason same => decided ⟨reason, same⟩
    have grown : next.blockedNumbers ⊆ second.blockedNumbers := by
      rcases stepGroup_cases stepped with ⟨_, rfl⟩ | ⟨_, _, _, _, _, _, _, _, _, rfl⟩
        | ⟨reason, _, same, _⟩
      · exact beside.grown
      · exact beside.grown
      · exact absurd same (unblocked reason)
    rcases (inert _ (mem_sortOn.mp member)).leaves replay.storeAfter with leaves | ⟨own, targets⟩
    · have again : decideGroup gone records second old changes = some .leave :=
        (leaves.congr beside.numbers beside.workings).decides
      rcases stepGroup_cases stepped' with ⟨_, rfl⟩ | ⟨_, _, _, _, _, _, other, _⟩
        | ⟨_, _, other, _⟩
      · exact ⟨coherent, later, split', beside.numbers, beside.workings, beside.ops, grown,
          beside.bounded⟩
      · cases other.symm.trans again
      · cases other.symm.trans again
    · rcases stepGroup_cases stepped' with ⟨_, rfl⟩ | ⟨_, _, _, _, _, _, renumbered, _⟩
        | ⟨_, _, _, _, rfl⟩
      · exact ⟨coherent, later, split', beside.numbers, beside.workings, beside.ops, grown,
          beside.bounded⟩
      · obtain ⟨_, renumbers⟩ := decideGroup_renumber renumbered
        rw [split, List.map_append, List.map_cons] at distinct
        refine absurd renumbers (replay.not_renumbered_again beside.coherent unlisted stepped
          later (List.nodup_append.mp distinct).2.1 ?_ ?_ unblocked targets beside.numbers
          beside.workings)
        · exact fun t target once => goneGroups_once split target once
        · intro fresh group inside
          refine goneGroups_none fresh group ?_
          rw [split]
          exact List.mem_append_right _ (List.mem_cons_of_mem _ inside)
      · refine ⟨coherent, later, split', beside.numbers, beside.workings, beside.ops, ?_, ?_⟩
        · exact grown.trans (Finset.subset_union_left.trans (Finset.subset_insert _ _))
        · refine Finset.insert_subset own (Finset.union_subset beside.bounded fun t inside => ?_)
          exact targets t (List.mem_toFinset.mp inside)

end Replay

-----------------------------------------------------------------------------------------
-- Renumbers

def MunicipalityOp.isRenumber : MunicipalityOp Id → Bool
  | .renumber .. => true
  | _ => false

/-- A group that plans no operation changes no number; an operation is a renumber. -/
theorem stepGroup_ops {gone : String → Nat} {records : Lookup String MunicipalityRecord}
    {state next : GroupState Id} {group : String × List CodeChange}
    (stepped : stepGroup gone records state group = some next)
    : (next.ops = state.ops ∧ next.byNumber = state.byNumber ∧ next.working = state.working)
      ∨ ∃ op, op.isRenumber = true ∧ next.ops = state.ops ++ [op] := by
  rcases stepGroup_cases stepped with ⟨_, rfl⟩ | ⟨_, _, _, _, _, _, _, _, _, rfl⟩
    | ⟨_, _, _, _, rfl⟩
  · exact .inl ⟨rfl, rfl, rfl⟩
  · exact .inr ⟨_, rfl, rfl⟩
  · exact .inl ⟨rfl, rfl, rfl⟩

/-- Step 1 renumbers exactly when the group loop has an operation: the others rename, update
and create.
-/
theorem planMunicipalities_renumbers
    (planned : planMunicipalities snapshot inputs = some plan)
    (grouped : planCodeChanges snapshot inputs.municipalities inputs.codeChanges = some groups)
    : (∀ op ∈ plan.ops, op.isRenumber = false) ↔ groups.ops = [] := by
  obtain ⟨groups', records, grouped', recorded, _, _, _, parts⟩ := planMunicipalities_parts planned
  cases grouped.symm.trans grouped'
  have renumbers : ∀ op ∈ groups.ops, op.isRenumber = true := by
    refine foldlM_preserves (P := fun state : GroupState Id =>
      ∀ op ∈ state.ops, op.isRenumber = true) ?_ grouped (by simp [initialGroupState])
    intro before group _ next stepped kept
    rcases stepGroup_ops stepped with ⟨same, _⟩ | ⟨op, renumber, more⟩
    · exact same ▸ kept
    · rw [more]
      intro op' member
      rcases List.mem_append.mp member with old | last
      · exact kept op' old
      · cases List.mem_singleton.mp last
        exact renumber
  have others : ∃ more, records.ops = groups.ops ++ more
      ∧ ∀ op ∈ more, op.isRenumber = false := by
    refine foldlM_preserves (P := fun state : RecordState Id =>
      ∃ more, state.ops = groups.ops ++ more ∧ ∀ op ∈ more, op.isRenumber = false) ?_ recorded
      ⟨[], (List.append_nil _).symm, by simp⟩
    rintro before r _ next stepped ⟨more, split, kept⟩
    have extend (added : List (MunicipalityOp Id))
        (quiet : ∀ op ∈ added, op.isRenumber = false)
        : ∃ more, before.ops ++ added = groups.ops ++ more
          ∧ ∀ op ∈ more, op.isRenumber = false := by
      refine ⟨more ++ added, by rw [split, List.append_assoc], fun op member => ?_⟩
      exact (List.mem_append.mp member).elim (kept op) (quiet op)
    rcases stepRecord_cases stepped with ⟨_, rfl⟩
      | ⟨_, ⟨_, _, _, _, rfl⟩ | ⟨_, _, rfl⟩ | ⟨_, _, _, _, rfl⟩ | ⟨_, _, _, rfl⟩⟩
    · exact ⟨more, split, kept⟩
    · refine extend _ fun op member => ?_
      have keeps := compareRecord_keepsNumber member
      cases op with
      | renumber | create => exact keeps.elim
      | rename | updateDetails => rfl
    · exact ⟨more, split, kept⟩
    · exact extend _ (by simp [MunicipalityOp.isRenumber])
    · exact ⟨more, split, kept⟩
  obtain ⟨more, split, quiet⟩ := others
  have all : ∃ more, plan.ops = groups.ops ++ more ∧ ∀ op ∈ more, op.isRenumber = false := by
    rcases parts with ⟨ops, _⟩ | ⟨_, ops, _⟩
    · exact ⟨more, ops.trans split, quiet⟩
    · refine ⟨more ++ [createSvalbard records.nextNew], ?_, fun op member => ?_⟩
      · rw [ops, split, List.append_assoc]
      · rcases List.mem_append.mp member with old | last
        · exact quiet op old
        · cases List.mem_singleton.mp last
          rfl
  obtain ⟨more, split, quiet⟩ := all
  constructor
  · intro none_renumbers
    refine List.eq_nil_iff_forall_not_mem.mpr fun op member => ?_
    have both := none_renumbers op (split ▸ List.mem_append_left _ member)
    rw [renumbers op member] at both
    cases both
  · intro empty op member
    rw [split, empty] at member
    exact quiet op member

/-- A group of a run that renumbers nothing is left alone by the register, or blocked. -/
theorem planCodeChanges_idle {records : List MunicipalityRecord} {changes : List CodeChange}
    (grouped : planCodeChanges snapshot records changes = some groups)
    (store : StoreConstraints snapshot) (idle : groups.ops = [])
    {group : String × List CodeChange} (member : group ∈ changeGroups records changes)
    : (initialGroupState snapshot).Leaves (goneGroupsPerTarget (changeGroups records changes))
        group.1 group.2
      ∨ (group.1 ∈ groups.blockedNumbers
        ∧ ∀ t ∈ targetCodes group.2, t ∈ groups.blockedNumbers) := by
  let gone := goneGroupsPerTarget (changeGroups records changes)
  have ops_grow {state next : GroupState Id} {group : String × List CodeChange}
      (stepped : stepGroup gone (recordsByNumber records) state group = some next)
      : state.ops ⊆ next.ops := by
    rcases stepGroup_ops stepped with ⟨same, _⟩ | ⟨op, _, more⟩
    · exact same ▸ List.Subset.refl _
    · exact more ▸ List.subset_append_left _ _
  have ordered : group ∈ orderGroups (changeGroups records changes) := mem_sortOn.mpr member
  obtain ⟨before, rest, split⟩ := List.append_of_mem ordered
  rw [planCodeChanges, split] at grouped
  obtain ⟨state, early, later⟩ := foldlM_append_eq_some.mp grouped
  obtain ⟨next, stepped, rest_run⟩ := foldlM_cons_eq_some.mp later
  have grown : next.ops ⊆ groups.ops :=
    foldlM_preserves (P := fun s : GroupState Id => next.ops ⊆ s.ops)
      (fun _ _ _ _ stepped kept => List.Subset.trans kept (ops_grow stepped)) rest_run
      (List.Subset.refl _)
  have next_idle : next.ops = [] := List.subset_nil.mp (idle ▸ grown)
  have state_idle : state.ops = [] := List.subset_nil.mp (next_idle ▸ ops_grow stepped)
  -- without operations so far, the numbers are those of the register
  have unchanged : state.Coherent snapshot
      ∧ (state.ops = [] → state.byNumber = (initialGroupState snapshot).byNumber
        ∧ state.working = (initialGroupState snapshot).working) := by
    refine foldlM_preserves (P := fun s : GroupState Id => s.Coherent snapshot
      ∧ (s.ops = [] → s.byNumber = (initialGroupState snapshot).byNumber
        ∧ s.working = (initialGroupState snapshot).working)) ?_ early
      ⟨initialGroupState_coherent store.rowKeys, fun _ => ⟨rfl, rfl⟩⟩
    rintro s ⟨old, changes⟩ _ s' stepped ⟨coherent, kept⟩
    refine ⟨coherent.step stepped, fun empty => ?_⟩
    rcases stepGroup_ops stepped with ⟨same, numbers, workings⟩ | ⟨op, _, more⟩
    · rw [numbers, workings]
      exact kept (same.symm.trans empty)
    · rw [more] at empty
      simp at empty
  obtain ⟨coherent, same⟩ := unchanged
  obtain ⟨numbers, workings⟩ := same state_idle
  obtain ⟨old, changes⟩ := group
  have more := (stepGroups_blocked (coherent.step stepped) rest_run).1
  rcases stepGroup_cases stepped with ⟨left, _⟩ | ⟨_, _, _, _, _, _, _, _, _, rfl⟩
    | ⟨_, _, _, _, rfl⟩
  · exact .inl ((decideGroup_leave left).congr numbers.symm workings.symm)
  · simp [GroupState.renumbered] at next_idle
  · refine .inr ⟨more (Finset.mem_insert_self _ _), fun t target => more ?_⟩
    exact Finset.mem_insert_of_mem
      (Finset.mem_union_right _ (List.mem_toFinset.mpr target))

end

-----------------------------------------------------------------------------------------
-- Planning the same feed again

section

variable [OsloZone] [UnicodeData] {snapshot after : RegisterSnapshot Nat} {inputs : SyncInputs}
  {p : SyncPlan Nat}

/-- A sync run of the inputs against the register plans no renumber, and blocks no number
that is not blocked already.
-/
def ReplayIsInert (register : RegisterSnapshot Nat) (inputs : SyncInputs)
    (blocked : Finset String) : Prop :=
  ∃ second,
    planMunicipalities register { inputs with kind := .sync }.normalised = some second
    ∧ (∀ op ∈ second.ops, op.isRenumber = false)
    ∧ second.state.blockedNumbers ⊆ blocked

/-- Planning the very same inputs again, against the register after `p`, is inert exactly
when each group of the feed is.
-/
theorem plan_feed_replay (store : StoreConstraints snapshot)
    (distinct : (inputs.municipalities.map MunicipalityRecord.number).Nodup)
    (planned : plan snapshot inputs = some (.apply p)) {successors : Lookup Nat Nat}
    (applied : apply snapshot p = some (after, successors))
    {municipalities : MunicipalityPlan Nat}
    (first : planMunicipalities snapshot inputs.normalised = some municipalities)
    : ReplayIsInert after inputs municipalities.state.blockedNumbers
      ↔ ∀ group ∈ changeGroups inputs.municipalities inputs.codeChanges,
          GroupIsInert after municipalities.state.blockedNumbers
            (goneGroupsPerTarget (changeGroups inputs.municipalities inputs.codeChanges))
            group.1 group.2 := by
  obtain ⟨_, steps, stepped, rfl⟩ := planWith_apply planned
  have fresh := testkitIds_fresh snapshot (assemble snapshot steps)
  have covers := testkitIds_covers snapshot (assemble snapshot steps)
  obtain ⟨first', _⟩ := planSteps_draft store stepped
  cases first.symm.trans first'
  have left := planSteps_appliedPlan store stepped distinct fresh covers applied
  have storeAfter := left.store store stepped fresh
  obtain ⟨groups, _, grouped, _, blocked, _⟩ := planMunicipalities_parts first
  have replay : Replay (testkitIds snapshot (assemble snapshot steps)) snapshot after
      inputs.normalised steps.1 groups :=
    ⟨store, storeAfter, first, grouped, left.settles, left.municipalities⟩
  let again : SyncInputs := { inputs with kind := .sync }.normalised
  obtain ⟨second, _, second_planned, _⟩ := planMunicipalities_named storeAfter.rowKeys again
  obtain ⟨secondGroups, _, second_grouped, _, second_blocked, _⟩ :=
    planMunicipalities_parts second_planned
  have renumbers := planMunicipalities_renumbers second_planned second_grouped
  rw [blocked]
  constructor
  · intro ⟨other, other_planned, quiet, bounded⟩ group member
    cases second_planned.symm.trans other_planned
    rw [second_blocked] at bounded
    rcases planCodeChanges_idle second_grouped storeAfter (renumbers.mp quiet) member
      with leaves | ⟨own, targets⟩
    · exact leaves.inert storeAfter
    · exact .blocked (bounded own) fun t target => bounded (targets t target)
  · intro inert
    obtain ⟨idle, bounded⟩ := replay.groups_again inert second_grouped
    exact ⟨second, second_planned, renumbers.mpr idle, second_blocked ▸ bounded⟩

end

-----------------------------------------------------------------------------------------
-- A chain of three renumbers

section

attribute [local instance] OsloZone.atEpoch UnicodeData.ascii

/-- One municipality, still under its first number. -/
def chainRegister : RegisterSnapshot Nat :=
  { sampleRegister with
    municipalities := [⟨1, "0101", "Oslo", some "Oslo", "03", "Oslo", "0101-oslo", .active,
      .kartverket, []⟩] }

/-- Kartverket lists the last number, and the feed leads to it over two others. -/
def chainInputs : SyncInputs :=
  { sampleInputs with
    municipalities := [⟨"0104", "Oslo", "Oslo", "03", "Oslo", []⟩]
    codeChanges := [
      ⟨"0101", "Oslo", "0102", "Oslo", .ofParts 2020 1 1 rfl⟩,
      ⟨"0102", "Oslo", "0103", "Oslo", .ofParts 2022 1 1 rfl⟩,
      ⟨"0103", "Oslo", "0104", "Oslo", .ofParts 2024 1 1 rfl⟩] }

theorem chainRegister_store : StoreConstraints chainRegister where
  municipalityIds := by decide
  schoolIds := by decide
  orgnrs := by decide
  numbers := by decide
  slugSafe := ⟨by decide, by decide, by simp [chainRegister, sampleRegister]⟩
  located := by decide
  historyLocated := by decide
  historyOwned := by decide

/-- The first run follows the chain and blocks nothing. The second one finds the middle number
free and its target free, and blocks both.
-/
theorem chainInputs_replay_blocks
    : ¬ ∀ (snapshot after : RegisterSnapshot Nat) (inputs : SyncInputs) (p : SyncPlan Nat)
        (successors : Lookup Nat Nat) (municipalities : MunicipalityPlan Nat),
        StoreConstraints snapshot →
        (inputs.municipalities.map MunicipalityRecord.number).Nodup →
        plan snapshot inputs = some (.apply p) →
        apply snapshot p = some (after, successors) →
        planMunicipalities snapshot inputs.normalised = some municipalities →
        ReplayIsInert after inputs municipalities.state.blockedNumbers := by
  intro claim
  have clear : (planMunicipalities chainRegister chainInputs.normalised).any
      (fun municipalities => municipalities.state.blockedNumbers = ∅) = true := by
    decide +kernel
  have blocks : (plan chainRegister chainInputs).any (fun outcome =>
      match outcome with
      | .apply p => (apply chainRegister p).any fun applied =>
          (planMunicipalities applied.1 { chainInputs with kind := .sync }.normalised).any
            fun second => "0102" ∈ second.state.blockedNumbers
      | _ => false) = true := by
    decide +kernel
  obtain ⟨municipalities, first, empty⟩ := (Option.any_eq_true _ _).mp clear
  obtain ⟨outcome, planned, later⟩ := (Option.any_eq_true _ _).mp blocks
  cases outcome with
  | noChange => cases later
  | abort reason counts => cases later
  | apply p =>
      obtain ⟨⟨after, successors⟩, applied, again⟩ := (Option.any_eq_true _ _).mp later
      obtain ⟨second, second_planned, inside⟩ := (Option.any_eq_true _ _).mp again
      obtain ⟨other, other_planned, _, bounded⟩ := claim chainRegister after chainInputs p
        successors municipalities chainRegister_store (by decide) planned applied first
      cases second_planned.symm.trans other_planned
      have blocked := bounded (of_decide_eq_true inside)
      rw [of_decide_eq_true empty] at blocked
      exact absurd blocked (Finset.notMem_empty _)

/-- The feed's last change alone. -/
def renumberInputs : SyncInputs :=
  { chainInputs with codeChanges := chainInputs.codeChanges.drop 2 }

/-- The register under the number before the last. -/
def renumberRegister : RegisterSnapshot Nat :=
  { chainRegister with
    municipalities := [⟨1, "0103", "Oslo", some "Oslo", "03", "Oslo", "0103-oslo", .active,
      .kartverket, []⟩] }

theorem renumberRegister_store : StoreConstraints renumberRegister where
  municipalityIds := by decide
  schoolIds := by decide
  orgnrs := by decide
  numbers := by decide
  slugSafe := ⟨by decide, by decide, by simp [renumberRegister, chainRegister, sampleRegister]⟩
  located := by decide
  historyLocated := by decide
  historyOwned := by decide

/-- A single renumber is applied once and then inert. -/
theorem renumberInputs_replay
    : ∃ p after successors, plan renumberRegister renumberInputs = some (.apply p)
      ∧ apply renumberRegister p = some (after, successors)
      ∧ ReplayIsInert after renumberInputs ∅ := by
  let row : MunicipalitySnapshot Nat := ⟨1, "0104", "Oslo", some "Oslo", "03", "Oslo",
    "0104-oslo", .active, .kartverket, []⟩
  have clear : (planMunicipalities renumberRegister renumberInputs.normalised).any
      (fun municipalities => municipalities.state.blockedNumbers = ∅) = true := by
    decide +kernel
  have renumbers : (plan renumberRegister renumberInputs).any (fun outcome =>
      match outcome with
      | .apply p => (apply renumberRegister p).any fun applied =>
          applied.1.municipalities = [row]
      | _ => false) = true := by
    decide +kernel
  obtain ⟨municipalities, first, empty⟩ := (Option.any_eq_true _ _).mp clear
  obtain ⟨outcome, planned, later⟩ := (Option.any_eq_true _ _).mp renumbers
  cases outcome with
  | noChange => cases later
  | abort reason counts => cases later
  | apply p =>
      obtain ⟨⟨after, successors⟩, applied, rows⟩ := (Option.any_eq_true _ _).mp later
      have rows : after.municipalities = [row] := of_decide_eq_true rows
      refine ⟨p, after, successors, planned, applied, ?_⟩
      rw [← of_decide_eq_true empty]
      refine (plan_feed_replay renumberRegister_store (by decide) planned applied first).mpr ?_
      have groups : changeGroups renumberInputs.municipalities renumberInputs.codeChanges
          = [("0103", renumberInputs.codeChanges)] := by decide
      have targets : targetCodes renumberInputs.codeChanges = ["0104"] := by decide
      rw [groups]
      intro group member
      cases List.mem_singleton.mp member
      refine .resolved ?_ fun t target => ?_
      · intro ⟨m, inside, _, number⟩
        rw [rows] at inside
        cases List.mem_singleton.mp inside
        exact absurd number (by decide)
      · rw [targets] at target
        cases List.mem_singleton.mp target
        exact ⟨row, rows ▸ List.mem_singleton.mpr rfl, rfl, rfl⟩

end

end FauPortalen.Register

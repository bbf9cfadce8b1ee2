import FauPortalen.Register.Sync.MunicipalityGroups

/-! When a group of code changes is left alone or blocked, and which numbers a decision
touches.
-/

set_option linter.unusedSectionVars false

namespace FauPortalen.Register

open FauPortalen.Foundations

variable {Id : Type} [LinearOrder Id] [UnicodeData] {gone : String → Nat}
  {records : Lookup String MunicipalityRecord} {state after : GroupState Id} {old : String}
  {changes : List CodeChange} {snapshot : RegisterSnapshot Id}

-----------------------------------------------------------------------------------------
-- Groups left alone and groups blocked

/-- The group is left alone: it is applied already, starts from a code nobody has or had, or
its municipality is kept by hand.
-/
inductive GroupState.Leaves (state : GroupState Id) (gone : String → Nat) (old : String)
    (changes : List CodeChange) : Prop
  | resolved (unheld : holderOf state.byNumber old = none)
      (held : ∀ t ∈ targetCodes changes, (state.byNumber t).isSome)
  | foreign (target : String) (unheld : holderOf state.byNumber old = none)
      (first : gone old = 0) (single : oneToOne gone (targetCodes changes) = some target)
  | manual (id : Id) (w : Working Id) (target : String)
      (holder : holderOf state.byNumber old = some id)
      (single : oneToOne gone (targetCodes changes) = some target)
      (working : state.working id = some w) (manual : w.row.source = .manual)

/-- The group is blocked: its old code was given up without its new ones being held, its
municipality has no single new code, or cannot take it.
-/
inductive GroupState.Blocks (state : GroupState Id) (gone : String → Nat)
    (records : Lookup String MunicipalityRecord) (old : String) (changes : List CodeChange)
    : Prop
  | unheld (holder : holderOf state.byNumber old = none) (free : String)
      (target : free ∈ targetCodes changes) (vacant : state.byNumber free = none)
      (unclear : 0 < gone old ∨ oneToOne gone (targetCodes changes) = none)
  | split (id : Id) (holder : holderOf state.byNumber old = some id)
      (unclear : oneToOne gone (targetCodes changes) = none)
  | stuck (id : Id) (w : Working Id) (target : String)
      (holder : holderOf state.byNumber old = some id)
      (single : oneToOne gone (targetCodes changes) = some target)
      (working : state.working id = some w) (sourced : w.row.source ≠ .manual)
      (obstacle : (target ∈ state.blockedNumbers ∨ old ∈ state.blockedNumbers)
        ∨ (state.byNumber target).isSome
        ∨ ∃ e, municipalitySlug target
          (((records target).map MunicipalityRecord.norwegianName).getD w.name) = .error e)

theorem decideGroup_leave (h : decideGroup gone records state old changes = some .leave)
    : state.Leaves gone old changes := by
  unfold decideGroup at h
  simp only at h
  split at h
  · next resolved =>
      simp only [Bool.and_eq_true, Option.isNone_iff_eq_none, List.all_eq_true] at resolved
      exact .resolved resolved.1 resolved.2
  · split at h
    · next single holder =>
        split at h
        · cases h
        · next first =>
            cases found : oneToOne gone (targetCodes changes) with
            | none => simp [found] at h
            | some target => exact .foreign target holder (by omega) found
    · next target id single holder =>
        simp only [Option.bind_eq_bind, Option.bind_eq_some_iff] at h
        obtain ⟨w, working, h⟩ := h
        split at h
        · next manual => exact .manual id w target holder single working manual
        · split at h
          · cases h
          · split at h
            · cases h
            · split at h <;> cases h
    · cases h

theorem decideGroup_block {reason : String}
    (h : decideGroup gone records state old changes = some (.block reason))
    : state.Blocks gone records old changes := by
  unfold decideGroup at h
  simp only at h
  split at h
  · cases h
  · next unresolved =>
      have free (unheld : holderOf state.byNumber old = none)
          : ∃ t ∈ targetCodes changes, state.byNumber t = none := by
        simpa [unheld, Lookup.contains] using unresolved
      split at h
      · next single holder =>
          obtain ⟨t, target, vacant⟩ := free holder
          split at h
          · next chained => exact .unheld holder t target vacant (.inl chained)
          · cases found : oneToOne gone (targetCodes changes) with
            | none => exact .unheld holder t target vacant (.inr found)
            | some target => simp [found] at h
      · next target id single holder =>
          simp only [Option.bind_eq_bind, Option.bind_eq_some_iff] at h
          obtain ⟨w, working, h⟩ := h
          split at h
          · cases h
          next sourced =>
          refine .stuck id w target holder single working sourced ?_
          split at h
          · next blocked => exact .inl blocked
          split at h
          · next held => exact .inr (.inl held)
          split at h
          · cases h
          · next e slug => exact .inr (.inr ⟨e, slug⟩)
      · next id single holder => exact .split id holder single

/-- A group that leaves nothing to do is left alone. -/
theorem GroupState.Leaves.decides (h : state.Leaves gone old changes)
    : decideGroup gone records state old changes = some .leave := by
  cases h with
  | resolved unheld held =>
      have all : (targetCodes changes).all state.byNumber.contains = true :=
        List.all_eq_true.mpr held
      simp [decideGroup, unheld, all]
  | foreign target unheld first single => simp [decideGroup, unheld, first, single]
  | manual id w target holder single working manual =>
      simp [decideGroup, holder, single, working, manual]

/-- A group with an obstacle is blocked, whatever the reason given. -/
theorem GroupState.Blocks.decides (h : state.Blocks gone records old changes)
    : ∃ reason, decideGroup gone records state old changes = some (.block reason) := by
  cases h with
  | unheld holder free target vacant unclear =>
      have unresolved : (targetCodes changes).all state.byNumber.contains = false :=
        List.all_eq_false.mpr ⟨free, target, by simp [Lookup.contains, vacant]⟩
      by_cases chained : 0 < gone old
      · exact ⟨"unresolved_chain", by simp [decideGroup, holder, unresolved, chained]⟩
      · have none_single := unclear.resolve_left chained
        exact ⟨_, by simp [decideGroup, holder, unresolved, chained, none_single]; rfl⟩
  | split id holder unclear => exact ⟨_, by simp [decideGroup, holder, unclear]; rfl⟩
  | stuck id w target holder single working sourced obstacle =>
      simp only [decideGroup, holder, single, working, Option.isNone_some, Bool.false_and,
        Bool.false_eq_true, if_false, Option.bind_eq_bind, Option.bind_some, if_neg sourced]
      by_cases blocked : target ∈ state.blockedNumbers ∨ old ∈ state.blockedNumbers
      · exact ⟨_, if_pos blocked⟩
      · rw [if_neg blocked]
        by_cases held : state.byNumber.contains target = true
        · exact ⟨_, if_pos held⟩
        · rw [if_neg held]
          obtain ⟨e, slug⟩ := (obstacle.resolve_left blocked).resolve_left held
          exact ⟨_, by rw [slug]; rfl⟩

-----------------------------------------------------------------------------------------
-- The numbers a group touches

/-- The number keeps its holder, and the holder its working row. -/
structure GroupState.Keeps (state after : GroupState Id) (number : String) : Prop where
  byNumber : after.byNumber number = state.byNumber number
  working : ∀ id, state.byNumber number = some (.existing id) →
    after.working id = state.working id

theorem GroupState.Keeps.refl (state : GroupState Id) (number : String)
    : state.Keeps state number :=
  ⟨rfl, fun _ _ => rfl⟩

theorem GroupState.Keeps.trans {middle : GroupState Id} {number : String}
    (first : state.Keeps middle number) (second : middle.Keeps after number)
    : state.Keeps after number := by
  refine ⟨second.byNumber.trans first.byNumber, fun id held => ?_⟩
  exact (second.working id (first.byNumber.trans held)).trans (first.working id held)

/-- A group keeps every number but an unblocked one that its holder leaves or takes. -/
theorem stepGroup_number (coherent : state.Coherent snapshot)
    (stepped : stepGroup gone records state (old, changes) = some after) (number : String)
    : state.Keeps after number
      ∨ (number ∉ state.blockedNumbers ∧ after.blockedNumbers = state.blockedNumbers
        ∧ ((number = old ∧ (state.byNumber number).isSome)
          ∨ (number ∈ targetCodes changes ∧ state.byNumber number = none
            ∧ (after.byNumber number).isSome))) := by
  rcases stepGroup_cases stepped with ⟨_, rfl⟩
    | ⟨id, target, newSlug, renamed, first, w, decided, _, working, rfl⟩
    | ⟨_, _, _, _, rfl⟩
  · exact .inl (.refl _ _)
  · obtain ⟨w', renumbers⟩ := decideGroup_renumber decided
    by_cases to_target : number = target
    · subst to_target
      refine .inr ⟨renumbers.target_unblocked, rfl, .inr ⟨?_, renumbers.free, ?_⟩⟩
      · rw [renumbers.single]
        exact List.mem_singleton.mpr rfl
      · exact congrArg Option.isSome (Lookup.insert_self _ _ _)
    · by_cases from_old : number = old
      · subst from_old
        exact .inr ⟨renumbers.old_unblocked, rfl, .inl ⟨rfl, by rw [renumbers.holder]; rfl⟩⟩
      · refine .inl ⟨?_, fun id' held => ?_⟩
        · exact (Lookup.insert_of_ne _ _ to_target).trans (Lookup.erase_of_ne _ from_old)
        · have differ : id' ≠ id := by
            intro same
            subst same
            obtain ⟨_, w₁, e₁, working₁, number₁⟩ := coherent.holder _ _ held
            obtain ⟨_, w₂, e₂, working₂, number₂⟩ := coherent.holder _ _ renumbers.holder
            cases e₁
            cases e₂
            cases working₁.symm.trans working₂
            exact from_old (number₁.symm.trans number₂)
          exact Lookup.insert_of_ne _ _ differ
  · exact .inl ⟨rfl, fun _ _ => rfl⟩

/-- Numbers stay blocked. -/
theorem stepGroup_blocked (stepped : stepGroup gone records state (old, changes) = some after)
    : state.blockedNumbers ⊆ after.blockedNumbers := by
  rcases stepGroup_cases stepped with ⟨_, rfl⟩ | ⟨_, _, _, _, _, _, _, _, _, rfl⟩
    | ⟨_, _, _, _, rfl⟩
  · exact Finset.Subset.refl _
  · exact Finset.Subset.refl _
  · exact Finset.Subset.trans Finset.subset_union_left (Finset.subset_insert _ _)

-----------------------------------------------------------------------------------------
-- The numbers the groups to come touch

variable {rest : List (String × List CodeChange)} {final : GroupState Id} {number : String}

/-- The groups to come keep the numbers that are blocked already. -/
theorem stepGroups_blocked (coherent : state.Coherent snapshot)
    (run : rest.foldlM (stepGroup gone records) state = some final)
    : state.blockedNumbers ⊆ final.blockedNumbers
      ∧ ∀ number ∈ state.blockedNumbers, state.Keeps final number := by
  have all : final.Coherent snapshot ∧ state.blockedNumbers ⊆ final.blockedNumbers
      ∧ ∀ number ∈ state.blockedNumbers, state.Keeps final number := by
    refine foldlM_preserves (P := fun s : GroupState Id => s.Coherent snapshot
      ∧ state.blockedNumbers ⊆ s.blockedNumbers
      ∧ ∀ number ∈ state.blockedNumbers, state.Keeps s number) ?_ run
      ⟨coherent, Finset.Subset.refl _, fun number _ => .refl _ _⟩
    rintro before ⟨old, changes⟩ _ after stepped ⟨coherent, grown, kept⟩
    refine ⟨coherent.step stepped, grown.trans (stepGroup_blocked stepped), ?_⟩
    intro number blocked
    rcases stepGroup_number coherent stepped number with keeps | ⟨unblocked, _⟩
    · exact (kept number blocked).trans keeps
    · exact absurd (grown blocked) unblocked
  exact all.2

/-- The groups to come keep a number that none of them starts from, if it is held or none of
them leads to it.
-/
theorem stepGroups_keep (coherent : state.Coherent snapshot)
    (run : rest.foldlM (stepGroup gone records) state = some final)
    (never_old : ∀ group ∈ rest, group.1 ≠ number)
    (settled : (state.byNumber number).isSome
      ∨ ∀ group ∈ rest, number ∉ targetCodes group.2)
    : state.Keeps final number := by
  have both : final.Coherent snapshot ∧ state.Keeps final number := by
    refine foldlM_preserves (P := fun s : GroupState Id =>
      s.Coherent snapshot ∧ state.Keeps s number) ?_ run ⟨coherent, .refl _ _⟩
    rintro before ⟨old, changes⟩ member after stepped ⟨coherent, kept⟩
    refine ⟨coherent.step stepped, ?_⟩
    rcases stepGroup_number coherent stepped number
      with keeps | ⟨_, _, ⟨same, _⟩ | ⟨target, vacant, _⟩⟩
    · exact kept.trans keeps
    · exact absurd same.symm (never_old _ member)
    · rcases settled with held | never_target
      · rw [← kept.byNumber, vacant] at held
        cases held
      · exact absurd target (never_target _ member)
  exact both.2

/-- A held number that no group to come leads to stays held, or its holder left it and it is
never blocked.
-/
theorem stepGroups_held (coherent : state.Coherent snapshot)
    (run : rest.foldlM (stepGroup gone records) state = some final)
    (distinct : (rest.map Prod.fst).Nodup)
    (never_target : ∀ group ∈ rest, number ∉ targetCodes group.2)
    (held : (state.byNumber number).isSome)
    : (final.byNumber number).isSome ∨ number ∉ final.blockedNumbers := by
  have all := foldlM_invariant (P := fun (s : GroupState Id) left =>
      s.Coherent snapshot ∧ (left.map Prod.fst).Nodup
      ∧ (∀ group ∈ left, number ∉ targetCodes group.2)
      ∧ ((s.byNumber number).isSome
        ∨ (number ∉ s.blockedNumbers ∧ ∀ group ∈ left, group.1 ≠ number))) ?_ run
      ⟨coherent, distinct, never_target, .inl held⟩
  · rcases all.2.2.2 with held | ⟨unblocked, _⟩
    · exact .inl held
    · exact .inr unblocked
  · rintro before ⟨old, changes⟩ left after stepped ⟨coherent, distinct, never_target, place⟩
    rw [List.map_cons, List.nodup_cons] at distinct
    refine ⟨coherent.step stepped, distinct.2,
      fun group inside => never_target group (List.mem_cons_of_mem _ inside), ?_⟩
    have apart (group : String × List CodeChange) (inside : group ∈ left) : group.1 ≠ old :=
      fun same => distinct.1 (List.mem_map.mpr ⟨group, inside, same⟩)
    rcases place with held | ⟨unblocked, never_old⟩
    · rcases stepGroup_number coherent stepped number
        with keeps | ⟨unblocked, same, ⟨rfl, _⟩ | ⟨target, _⟩⟩
      · exact .inl (keeps.byNumber ▸ held)
      · exact .inr ⟨same ▸ unblocked, apart⟩
      · exact absurd target (never_target _ List.mem_cons_self)
    · refine .inr ⟨?_, fun group inside => never_old group (List.mem_cons_of_mem _ inside)⟩
      have not_old : old ≠ number := never_old _ List.mem_cons_self
      have not_target := never_target _ List.mem_cons_self
      rcases stepGroup_cases stepped with ⟨_, rfl⟩ | ⟨_, _, _, _, _, _, _, _, _, rfl⟩
        | ⟨_, _, _, _, rfl⟩
      · exact unblocked
      · exact unblocked
      · simp only [GroupState.blockedBy, Finset.mem_insert, Finset.mem_union, List.mem_toFinset,
          not_or]
        exact ⟨not_old.symm, unblocked, not_target⟩

end FauPortalen.Register

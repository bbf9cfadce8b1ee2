import FauPortalen.Register.Runs.Turns

/-! In every interleaving of sync commands one run at a time holds the lock, and the register that a
run plans for is the one its changes land on.
-/

set_option linter.unusedSectionVars false

namespace FauPortalen.Register.Runs

open FauPortalen.Foundations Transaction Sessions

-----------------------------------------------------------------------------------------
-- The register without what is around it

section

variable {Id : Type} [LinearOrder Id] [SearchData] [OsloZone] {s after : RegisterTables Id}

/-- The tables that only runs write. -/
def inside (register : RegisterTables Id) : RegisterTables Id := around register [] [] []

theorem registerIsEmpty_congr (same : inside after = inside s)
    : registerIsEmpty after = registerIsEmpty s := by
  have empty : registerIsEmpty (inside after) = registerIsEmpty (inside s) :=
    congrArg registerIsEmpty same
  exact empty

/-- A change around the register leaves it standing, within the constraints. -/
theorem stands_around (stands : s.Stands) {tenants : List (TenantRow Id)}
    {fauLinks : List (FauLinkRow Id)} {reviews : List (ReviewRow Id)}
    (holds : (around s tenants fauLinks reviews).Constraints)
    : (around s tenants fauLinks reviews).Stands :=
  stands.changesAround ⟨holds, rfl⟩

theorem SchoolRow.check_seenAt (row : SchoolRow Id) (orgnrs : List String) (now : Timestamp)
    : (SchoolRow.seenAt orgnrs now row).check = row.check := by
  unfold SchoolRow.seenAt
  split <;> rfl

/-- Marking schools as seen changes nothing that is read of them. -/
theorem map_seenAt {β : Type} {f : SchoolRow Id → β} {orgnrs : List String} {now : Timestamp}
    (unseen : ∀ row, f (SchoolRow.seenAt orgnrs now row) = f row) (rows : List (SchoolRow Id))
    : (rows.map (SchoolRow.seenAt orgnrs now)).map f = rows.map f := by
  rw [List.map_map]
  exact List.map_congr_left fun row _ => unseen row

theorem filterMap_seenAt {β : Type} {f : SchoolRow Id → Option β} {orgnrs : List String}
    {now : Timestamp} (unseen : ∀ row, f (SchoolRow.seenAt orgnrs now row) = f row)
    (rows : List (SchoolRow Id))
    : (rows.map (SchoolRow.seenAt orgnrs now)).filterMap f = rows.filterMap f := by
  rw [List.filterMap_map]
  exact List.filterMap_congr fun row _ => unseen row

theorem stands_seen (stands : s.Stands) (orgnrs : List String) (now : Timestamp)
    : (seen s orgnrs now).Stands := by
  have holds := stands.constraints
  have ids : (seen s orgnrs now).schoolIds = s.schoolIds :=
    map_seenAt (fun row => by unfold SchoolRow.seenAt; split <;> rfl) s.schools
  have numbers : (seen s orgnrs now).schools.filterMap (·.orgnr) = s.schools.filterMap (·.orgnr) :=
    filterMap_seenAt (fun row => by unfold SchoolRow.seenAt; split <;> rfl) s.schools
  have slugs : (seen s orgnrs now).currentSlugKeys = s.currentSlugKeys :=
    filterMap_seenAt (fun row => by unfold SchoolRow.seenAt; split <;> rfl) s.schools
  have rows {P : SchoolRow Id → Prop} (kept : ∀ row, P row → P (SchoolRow.seenAt orgnrs now row))
      (all : ∀ row ∈ s.schools, P row) : ∀ row ∈ (seen s orgnrs now).schools, P row := by
    intro row member
    obtain ⟨before, known, rfl⟩ := List.mem_map.mp member
    exact kept before (all before known)
  refine ⟨?_, stands.numbers, stands.municipalitiesFound, ?_⟩
  · refine ⟨⟨holds.municipalityKeys, holds.municipalitySlugs, holds.municipalityChecks,
      holds.nameKeys, holds.nameOwners, holds.numberKeys, holds.numberOwners, holds.currentNumbers,
      holds.numberChecks, holds.municipalitySlugKeys, holds.municipalitySlugOwners,
      holds.municipalitySlugChecks⟩, ?_, ?_⟩
    · refine ⟨ids ▸ holds.schoolKeys, numbers ▸ holds.orgnrs, slugs ▸ holds.currentSlugs, ?_, ?_,
        ?_, holds.orgnrKeys, ids ▸ holds.orgnrOwners, holds.schoolSlugKeys,
        ids ▸ holds.schoolSlugOwners, holds.schoolSlugChecks⟩
      · refine rows (fun row known => ?_) holds.schoolMunicipalities
        unfold SchoolRow.seenAt
        split <;> exact known
      · rw [ids]
        refine rows (fun row known => ?_) holds.successors
        unfold SchoolRow.seenAt
        split <;> exact known
      · exact rows (fun row known => (SchoolRow.check_seenAt row orgnrs now).trans known)
          holds.schoolChecks
    · exact ⟨ids ▸ holds.tenantSchools, holds.linkKeys, holds.linkedSchools, holds.linkedFaus,
        ids ▸ holds.linkSchools, ids ▸ holds.reviewSchools, ids ▸ holds.reviewOthers,
        holds.reviewMunicipalities⟩
  · refine rows (fun row known => ?_) stands.schoolsFound
    unfold SchoolRow.seenAt
    split <;> exact known

end

-----------------------------------------------------------------------------------------
-- One turn

section

variable [OsloZone] {Id : Type} [LinearOrder Id] [SearchData] [PayloadHash]
  {s after : RunsDatabase Id} {process process' : Process Id} {free : Bool}

/-- A plan that is applied leaves a register that stands. -/
theorem Applies.stands {invocation : Invocation} {fetched : Fetched}
    {base current after : RegisterTables Id} (h : Applies invocation fetched base current after)
    (stands : base.Stands)
    : after.Stands := by
  obtain ⟨_, _, _, _, _, written, orgnrs, _, _, commits, holds, rfl⟩ := h.writes
  exact stands_seen (stands_around (stands.applyPlan commits) holds) _ _

/-- After the look at the register. -/
def Stage.isAdmitted {Id : Type} : Stage Id → Bool
  | .admitted | .running | .fetched _ | .planning .. => true
  | _ => false

/-- Whether the register was empty when the process was admitted. -/
def admittedTo (process : Option (Process Id)) : Option Bool :=
  match process with
  | some process =>
      if process.stage.isAdmitted then some (process.invocation.kind = .seed) else none
  | none => none

/-- The register that a process plans for. -/
def plansFor (process : Option (Process Id)) : Option (RegisterTables Id) :=
  match process with
  | some process =>
      match process.stage with
      | .planning _ base => some (inside base)
      | _ => none
  | none => none

theorem Process.holds_at {stage : Stage Id} (holding : (process.at stage).holds = true)
    (locked : process.stage.isLocked = true)
    : process.holds = true := by
  obtain ⟨alive, _⟩ := Bool.and_eq_true_iff.mp holding
  exact Bool.and_eq_true_iff.mpr ⟨alive, locked⟩

theorem Process.not_holds_exit {exit : Option Exit} : (process.exit exit).holds ≠ true := by
  simp [Process.holds, Process.exit]

/-- A turn takes the lock only when it is free. -/
theorem Turned.takes (turned : Turned process s free process' after)
    (holding : process'.holds = true)
    : process.holds = true ∨ free = true := by
  cases turned with
  | locks connected isFree => exact .inr isFree
  | admitted locked fits => exact .inl (Process.holds_at holding (by rw [locked]; rfl))
  | starts admitted alive fresh process' goesOn =>
      left
      simp only [Process.holds, alive, admitted, Stage.isLocked, Bool.and_self]
  | fetches fetched running => exact .inl (Process.holds_at holding (by rw [running]; rfl))
  | snapshots fetched done => exact .inl (Process.holds_at holding (by rw [done]; rfl))
  | concludes planning alive own ends tells process' goesOn =>
      left
      simp only [Process.holds, alive, planning, Stage.isLocked, Bool.and_self]
  | fails error known =>
      refine .inl (Process.holds_at holding ?_)
      cases stage : process.stage <;> rw [stage] at known <;> first | rfl | cases known
  | reports => exact absurd holding Process.not_holds_exit
  | exits => exact absurd holding Process.not_holds_exit
  | drops => cases holding

/-- Only a holder changes what runs write to the register. -/
theorem Turned.inside_eq (turned : Turned process s free process' after)
    : inside after.register = inside s.register ∨ process.holds = true := by
  cases turned with
  | concludes planning alive own ends tells process' goesOn =>
      right
      simp only [Process.holds, alive, planning, Stage.isLocked, Bool.and_self]
  | reports reporting own books register => exact .inl (congrArg inside register)
  | _ => exact .inl rfl

theorem admits_iff {kind : RunKind} {empty : Bool}
    : admits kind empty = true ↔ empty = decide (kind = .seed) := by
  cases kind <;> cases empty <;> decide

theorem admittedTo_of (admitted : process.stage.isAdmitted = true)
    : admittedTo (some process) = some (decide (process.invocation.kind = .seed)) :=
  if_pos admitted

/-- What a process was admitted to is still so after its own turn. -/
theorem Turned.admitted_current (turned : Turned process s free process' after)
    (known : process.holds = true → ∀ empty, admittedTo (some process) = some empty →
      registerIsEmpty s.register = empty)
    (holding : process'.holds = true) {empty : Bool}
    (given : admittedTo (some process') = some empty)
    : registerIsEmpty after.register = empty := by
  -- a process that was admitted before keeps what it was admitted to
  have before (stage : process.stage.isAdmitted = true) (held : process.holds = true)
      (same : some (decide (process.invocation.kind = .seed)) = some empty)
      : registerIsEmpty s.register = empty :=
    known held empty ((admittedTo_of stage).trans same)
  cases turned with
  | locks => cases given
  | admitted locked fits =>
      rw [admits_iff.mp fits]
      exact Option.some_inj.mp given
  | starts admitted alive fresh process' goesOn =>
      rcases goesOn with rfl | rfl
      · refine before (by rw [admitted]; rfl) ?_ given
        simp only [Process.holds, alive, admitted, Stage.isLocked, Bool.and_self]
      · exact absurd holding Process.not_holds_exit
  | fetches fetched running =>
      exact before (by rw [running]; rfl) (Process.holds_at holding (by rw [running]; rfl)) given
  | snapshots fetched done =>
      exact before (by rw [done]; rfl) (Process.holds_at holding (by rw [done]; rfl)) given
  | concludes planning alive own ends tells process' goesOn =>
      rcases goesOn with rfl | rfl
      · exact absurd holding Process.not_holds_exit
      · cases given
  | fails => cases given
  | reports => exact absurd holding Process.not_holds_exit
  | exits => exact absurd holding Process.not_holds_exit
  | drops => cases holding

/-- What a process plans for is still so after its own turn. -/
theorem Turned.plansFor_current (turned : Turned process s free process' after)
    (holding : process'.holds = true) {base : RegisterTables Id}
    (given : plansFor (some process') = some base)
    : inside after.register = base := by
  cases turned with
  | snapshots fetched done => exact Option.some_inj.mp given
  | starts admitted alive fresh process' goesOn =>
      rcases goesOn with rfl | rfl
      · cases given
      · cases given
  | concludes planning alive own ends tells process' goesOn =>
      rcases goesOn with rfl | rfl
      · cases given
      · cases given
  | drops => cases holding
  | _ => cases given

/-- A turn leaves a register that stands. -/
theorem Turned.stands (turned : Turned process s free process' after) (stands : s.register.Stands)
    (bases : ∀ fetched base, process.stage = .planning fetched base → base.Stands)
    : after.register.Stands := by
  cases turned with
  | concludes planning alive own ends tells process' goesOn =>
      rename_i fetched base run outcome exit
      by_cases applied : outcome = .applied
      · exact (ends.applies applied).stands (bases fetched base planning)
      · rw [ends.kept applied]
        exact stands
  | reports reporting own books register =>
      rw [register]
      exact stands
  | _ => exact stands

/-- A process plans for a register that stood. -/
theorem Turned.bases (turned : Turned process s free process' after) (stands : s.register.Stands)
    (bases : ∀ fetched base, process.stage = .planning fetched base → base.Stands)
    {fetched : Fetched} {base : RegisterTables Id}
    (planning : process'.stage = .planning fetched base)
    : base.Stands := by
  cases turned with
  | snapshots fetched' done =>
      cases planning
      exact stands
  | starts admitted alive fresh process' goesOn =>
      rcases goesOn with rfl | rfl
      · cases planning
      · cases planning
  | concludes planning alive own ends tells process' goesOn =>
      rcases goesOn with rfl | rfl
      · cases planning
      · cases planning
  | drops => exact bases fetched base planning
  | _ => cases planning

-----------------------------------------------------------------------------------------
-- Every interleaving

variable {ρ : Type} [DecidableEq ρ] {system : RunsSystem ρ Id}

/-- The registers that processes plan for stand. -/
def BasesStand (system : RunsSystem ρ Id) : Prop :=
  ∀ p process fetched base, system.process p = some process →
    process.stage = .planning fetched base → base.Stands

/-- Every event is one of these: a command starts, a process has its turn, or something changes
around the register.
-/
theorem next_cases {event : RunsEvent ρ Id} {later : RunsSystem ρ Id}
    (stepped : next system event = some later)
    : (∃ p invocation, later = system.turn holdsLock p (some ⟨invocation, .connected, true, none⟩)
        system.shared)
      ∨ (∃ p process process' after, system.process p = some process
          ∧ Turned process system.shared system.lock.isNone process' after
          ∧ later = system.turn holdsLock p (some process') after)
      ∨ ∃ tenants fauLinks reviews,
          (around system.shared.register tenants fauLinks reviews).Constraints
          ∧ later = { system with
            shared := { system.shared with
              register := around system.shared.register tenants fauLinks reviews } } := by
  cases event with
  | invokes p invocation =>
      dsimp only [next] at stepped
      split at stepped
      · exact .inl ⟨p, invocation, (Option.some_inj.mp stepped).symm⟩
      · cases stepped
  | turn p turn =>
      simp only [next, Option.bind_eq_bind, Option.bind_eq_some_iff] at stepped
      obtain ⟨process, own, ⟨process', after⟩, turned, same⟩ := stepped
      exact .inr (.inl ⟨p, process, process', after, own, turned_of_turn turned,
        (Option.some_inj.mp same).symm⟩)
  | elsewhere tenants fauLinks reviews =>
      dsimp only [next] at stepped
      split at stepped
      · rename_i holds
        exact .inr (.inr ⟨tenants, fauLinks, reviews, holds, (Option.some_inj.mp stepped).symm⟩)
      · cases stepped

/-- What holds in every interleaving. -/
structure Orderly (system : RunsSystem ρ Id) : Prop where
  guarded : system.Guarded holdsLock
  admitted : system.Current holdsLock admittedTo fun s => registerIsEmpty s.register
  planned : system.Current holdsLock plansFor fun s => inside s.register
  stands : system.shared.register.Stands
  bases : BasesStand system

/-- The turn of a process keeps the order. -/
theorem Orderly.turn (h : Orderly system) {p : ρ} (own : system.process p = some process)
    (turned : Turned process system.shared system.lock.isNone process' after)
    : Orderly (system.turn holdsLock p (some process') after) := by
  have holds_own : holdsLock (system.process p) = process.holds := by
    rw [own]
    rfl
  have empties : (fun s : RunsDatabase Id => registerIsEmpty s.register) after
        = (fun s : RunsDatabase Id => registerIsEmpty s.register) system.shared
      ∨ holdsLock (system.process p) = true := by
    rw [holds_own]
    exact turned.inside_eq.imp registerIsEmpty_congr id
  refine ⟨h.guarded.turn fun holding => ?_, h.admitted.turn h.guarded ?_ empties,
    h.planned.turn h.guarded ?_ ?_, ?_, ?_⟩
  · rw [holds_own]
    exact (turned.takes holding).imp id Option.isNone_iff_eq_none.mp
  · intro holding empty given
    refine turned.admitted_current (fun held empty to_ => ?_) holding given
    exact h.admitted p (holds_own.trans held) empty (own ▸ to_)
  · exact fun holding base given => turned.plansFor_current holding given
  · rw [holds_own]
    exact turned.inside_eq
  · exact turned.stands h.stands fun fetched base => h.bases p process fetched base own
  · intro q other fetched base there planning
    by_cases same : q = p
    · subst same
      rw [turn_process_self] at there
      obtain rfl := Option.some_inj.mp there
      exact turned.bases h.stands (fun fetched base => h.bases q process fetched base own) planning
    · rw [turn_process_other same] at there
      exact h.bases q other fetched base there planning

/-- A new process has not come to the lock. -/
theorem Orderly.invokes (h : Orderly system) {p : ρ} {invocation : Invocation}
    : Orderly (system.turn holdsLock p (some ⟨invocation, .connected, true, none⟩)
        system.shared) := by
  refine ⟨h.guarded.turn fun holding => ?_, h.admitted.turn h.guarded ?_ (.inl rfl),
    h.planned.turn h.guarded ?_ (.inl rfl), h.stands, ?_⟩
  · cases holding
  · intro holding
    cases holding
  · intro holding
    cases holding
  · intro q other fetched base there planning
    by_cases same : q = p
    · subst same
      rw [turn_process_self] at there
      obtain rfl := Option.some_inj.mp there
      cases planning
    · rw [turn_process_other same] at there
      exact h.bases q other fetched base there planning

/-- Every event keeps the order. -/
theorem Orderly.next (h : Orderly system) {event : RunsEvent ρ Id} {later : RunsSystem ρ Id}
    (stepped : Runs.next system event = some later)
    : Orderly later := by
  rcases next_cases stepped with ⟨p, invocation, rfl⟩
    | ⟨p, process, process', after, own, turned, rfl⟩ | ⟨tenants, fauLinks, reviews, holds, rfl⟩
  · exact h.invokes
  · exact h.turn own turned
  · exact ⟨h.guarded, h.admitted, h.planned, stands_around h.stands holds, h.bases⟩

theorem syncRuns_orderly (reached : (syncRuns ρ Id).Reachable system) : Orderly system := by
  refine reached.keeps (I := Orderly) ?_ ?_
  · intro system begun
    obtain rfl : system = ⟨emptyDatabase, none, fun _ => none⟩ := begun
    refine ⟨fun _ holding => ?_, fun _ holding => ?_, fun _ holding => ?_,
      RegisterTables.empty_stands, fun _ _ _ _ none => ?_⟩
    · cases holding
    · cases holding
    · cases holding
    · cases none
  · exact fun _ _ _ orderly stepped => orderly.next stepped

/-- While a process plans, the register is the one it plans for, and as it was admitted to it. -/
theorem Orderly.current (h : Orderly system) {p : ρ} {fetched : Fetched} {base : RegisterTables Id}
    (own : system.process p = some process) (planning : process.stage = .planning fetched base)
    (alive : process.session = true)
    : system.lock = some p ∧ inside system.shared.register = inside base
      ∧ (registerIsEmpty system.shared.register = true ↔ process.invocation.kind = .seed) := by
  have holding : holdsLock (system.process p) = true := by
    rw [own]
    simp only [holdsLock, Option.any_some, Process.holds, alive, planning, Stage.isLocked,
      Bool.and_self]
  refine ⟨h.guarded p holding, ?_, ?_⟩
  · refine h.planned p holding (inside base) ?_
    rw [own, plansFor]
    simp only [planning]
  · have empty := h.admitted p holding (decide (process.invocation.kind = .seed)) (by
      rw [own, admittedTo_of (by rw [planning]; rfl)])
    dsimp only at empty
    rw [empty, decide_eq_true_iff]

/-- In every interleaving of sync commands, broken sessions and killed processes, and of changes
around the register: at most one process holds the lock; the register that a holder plans for is
the current one, apart from the tables around it, so what it applies undoes nothing; a seed's
register is still empty, and a sync's is not; and the register stands.
-/
theorem syncRuns_exclusive (reached : (syncRuns ρ Id).Reachable system)
    : (∀ p q, holdsLock (system.process p) = true → holdsLock (system.process q) = true → p = q)
      ∧ (∀ p process fetched base, system.process p = some process →
          process.stage = .planning fetched base → process.session = true →
          inside system.shared.register = inside base
          ∧ (registerIsEmpty system.shared.register = true ↔ process.invocation.kind = .seed))
      ∧ system.shared.register.Stands := by
  have orderly := syncRuns_orderly reached
  refine ⟨fun p q => orderly.guarded.exclusive, ?_, orderly.stands⟩
  intro p process fetched base own planning alive
  exact (orderly.current own planning alive).2

/-- A step leaves the tables that runs write as they are, or it applies a run. Then its process has
the lock and planned for the register as it is, its row was unfinished and is booked as applied, and
the register is what its plan left.
-/
theorem syncRuns_changes (reached : (syncRuns ρ Id).Reachable system) {event : RunsEvent ρ Id}
    {later : RunsSystem ρ Id} (stepped : (syncRuns ρ Id).step system event later)
    : inside later.shared.register = inside system.shared.register
      ∨ ∃ p process fetched base run, system.process p = some process
          ∧ system.lock = some p ∧ process.run = some run ∧ process.invocation.dryRun = false
          ∧ (registerIsEmpty system.shared.register = true ↔ process.invocation.kind = .seed)
          ∧ inside system.shared.register = inside base
          ∧ Applies process.invocation fetched base system.shared.register later.shared.register
          ∧ Books run process.invocation.kind .applied system.shared later.shared := by
  have orderly := syncRuns_orderly reached
  rcases next_cases stepped with ⟨p, invocation, rfl⟩
    | ⟨p, process, process', after, own, turned, rfl⟩ | ⟨tenants, fauLinks, reviews, holds, rfl⟩
  · exact .inl rfl
  · cases turned with
    | concludes planning alive known ends tells process' goesOn =>
        rename_i fetched base run outcome exit
        by_cases applied : outcome = .applied
        · subst applied
          obtain ⟨locked, planned, empty⟩ := orderly.current own planning alive
          exact .inr ⟨p, process, fetched, base, run, own, locked, known, ends.live (by decide),
            empty, planned, ends.applies rfl, ends.books⟩
        · exact .inl (congrArg inside (ends.kept applied))
    | reports reporting known books register => exact .inl (congrArg inside register)
    | _ => exact .inl rfl
  · exact .inl rfl

-----------------------------------------------------------------------------------------
-- The books over time

/-- What is booked stays: a finished row is as it was, and audit entries and mails are only added.
-/
structure Kept (s after : RunsDatabase Id) : Prop where
  rows : ∀ row ∈ s.runs, row.finishedAt.isSome = true → row ∈ after.runs
  ids : s.runs.map (·.id) <+: after.runs.map (·.id)
  audits : s.audits <+: after.audits
  mails : s.mails <+: after.mails

theorem Kept.refl (s : RunsDatabase Id) : Kept s s :=
  ⟨fun _ member _ => member, List.prefix_refl _, List.prefix_refl _, List.prefix_refl _⟩

theorem Kept.trans {s middle after : RunsDatabase Id} (first : Kept s middle)
    (second : Kept middle after)
    : Kept s after :=
  ⟨fun row member finished => second.rows row (first.rows row member finished) finished,
    first.ids.trans second.ids, first.audits.trans second.audits, first.mails.trans second.mails⟩

/-- A run that is booked leaves the finished rows as they are. -/
theorem Books.kept {run : Id} {kind : RunKind} {outcome : RunOutcome}
    (h : Books run kind outcome s after)
    : Kept s after := by
  obtain ⟨counts, reason, finishedAt, audits, mails, _, runs, audited, mailed, _⟩ := h.writes
  refine ⟨?_, ?_, audited ▸ List.prefix_append _ _, mailed ▸ List.prefix_append _ _⟩
  · intro row member finished
    rw [runs]
    refine List.mem_map.mpr ⟨row, member, if_neg fun unfinished => ?_⟩
    obtain ⟨_, open_⟩ := Bool.and_eq_true_iff.mp unfinished
    rw [Option.isNone_iff_eq_none.mp open_] at finished
    cases finished
  · have same : after.runs.map (·.id) = s.runs.map (·.id) := by
      rw [runs, finishedRuns, List.map_map]
      refine List.map_congr_left fun row _ => ?_
      dsimp only [Function.comp_apply]
      split <;> rfl
    rw [same]

theorem Turned.kept (turned : Turned process s free process' after) : Kept s after := by
  cases turned with
  | starts admitted alive fresh process' goesOn =>
      refine ⟨fun row member _ => List.mem_append_left _ member, ?_, List.prefix_refl _,
        List.prefix_refl _⟩
      rw [List.map_append]
      exact List.prefix_append _ _
  | concludes planning alive own ends tells process' goesOn => exact ends.books.kept
  | reports reporting own books register => exact books.kept
  | _ => exact .refl _

/-- Along every run of events, whatever is not heard of or fails, no finished row changes, no row
goes, and every audit entry and mail stays: a run once applied never turns into a failed one.
-/
theorem syncRuns_final {events : List (RunsEvent ρ Id)} {later : RunsSystem ρ Id}
    (run : (syncRuns ρ Id).Run system events later)
    : Kept system.shared later.shared := by
  refine run.related (R := fun system later : RunsSystem ρ Id => Kept system.shared later.shared)
    (fun _ => .refl _) (fun _ _ _ => .trans) ?_
  intro system event later stepped
  rcases next_cases stepped with ⟨p, invocation, rfl⟩
    | ⟨p, process, process', after, own, turned, rfl⟩ | ⟨tenants, fauLinks, reviews, holds, rfl⟩
  · exact .refl _
  · exact turned.kept
  · exact ⟨fun _ member _ => member, List.prefix_refl _, List.prefix_refl _, List.prefix_refl _⟩

end

end FauPortalen.Register.Runs

namespace FauPortalen.Register.Runs

open FauPortalen.Foundations Transaction Sessions

-----------------------------------------------------------------------------------------
-- A seed beside a second command

section

/-- The digest of the empty object, which is the sample's only payload. -/
@[reducible]
def PayloadHash.ofEmptyObject : PayloadHash where
  sha256 _ :=
    [68, 19, 111, 163, 85, 179, 103, 138, 17, 70, 173, 22, 247, 232, 100, 158, 148, 251, 79, 194,
      31, 231, 126, 131, 16, 192, 96, 246, 28, 170, 255, 138].map UInt8.ofNat

attribute [local instance] OsloZone.atEpoch SearchData.ascii PayloadHash.ofEmptyObject

def seedInvocation : Invocation := ⟨.seed, false, false, Moment.at 0⟩

/-- The sample's sources, with the empty object for each payload. -/
def seedFetched : Fetched :=
  {
    municipalities := sampleInputs.municipalities
    codeChanges := sampleInputs.codeChanges
    units := sampleInputs.units.map fun unit => (unit, [123, 125].map UInt8.ofNat)
    absentFromList := 0
  }

/-- The second command finds the lock taken. -/
def seedEvents : List (RunsEvent Nat Nat) :=
  [.invokes 0 seedInvocation, .turn 0 .takesLock, .invokes 1 seedInvocation, .turn 0 .looks,
    .turn 1 .takesLock, .turn 0 (.starts 100 true), .turn 0 (.fetches seedFetched),
    .turn 0 .snapshots]

def seedIds : NewIds Nat :=
  { municipality := .ofPairs [(0, 1)], school := .ofPairs [(0, 2), (1, 3)] }

def seedConcludes : RunsEvent Nat Nat := .turn 0 (.concludes seedIds 5 true)

/-- The system after events that all come. -/
def afterEvents (events : List (RunsEvent Nat Nat)) : RunsSystem Nat Nat :=
  (events.foldlM next ⟨emptyDatabase, none, fun _ => none⟩).getD
    ⟨emptyDatabase, none, fun _ => none⟩

theorem run_of_events {first later : RunsSystem Nat Nat} {events : List (RunsEvent Nat Nat)}
    (followed : events.foldlM next first = some later)
    : (syncRuns Nat Nat).Run first events later := by
  induction events generalizing first with
  | nil =>
      cases followed
      exact .done
  | cons event rest ih =>
      rw [List.foldlM_cons] at followed
      obtain ⟨middle, stepped, others⟩ := Option.bind_eq_some_iff.mp followed
      exact (EventSystem.Run.single stepped).trans (ih others)

theorem afterEvents_reachable {events : List (RunsEvent Nat Nat)}
    (comes : (events.foldlM next
      (⟨emptyDatabase, none, fun _ => none⟩ : RunsSystem Nat Nat)).isSome = true)
    : (syncRuns Nat Nat).Reachable (afterEvents events) := by
  obtain ⟨later, followed⟩ := Option.isSome_iff_exists.mp comes
  have there : events.foldlM next (⟨emptyDatabase, none, fun _ => none⟩ : RunsSystem Nat Nat)
      = some (afterEvents events) := by
    rw [afterEvents, followed, Option.getD_some]
  exact (EventSystem.Reachable.start rfl).run (run_of_events there)

/-- Before the seed is applied. -/
theorem seedRun_exclusive
    : (∀ p q, holdsLock ((afterEvents seedEvents).process p) = true →
        holdsLock ((afterEvents seedEvents).process q) = true → p = q)
      ∧ (∀ p process fetched base, (afterEvents seedEvents).process p = some process →
          process.stage = .planning fetched base → process.session = true →
          inside (afterEvents seedEvents).shared.register = inside base
          ∧ (registerIsEmpty (afterEvents seedEvents).shared.register = true
            ↔ process.invocation.kind = .seed))
      ∧ (afterEvents seedEvents).shared.register.Stands :=
  syncRuns_exclusive (afterEvents_reachable (by decide +kernel))

/-- The step that applies the seed. -/
theorem seedRun_changes
    : let system := afterEvents seedEvents
      let later := afterEvents (seedEvents ++ [seedConcludes])
      inside later.shared.register = inside system.shared.register
      ∨ ∃ p process fetched base run, system.process p = some process
          ∧ system.lock = some p ∧ process.run = some run ∧ process.invocation.dryRun = false
          ∧ (registerIsEmpty system.shared.register = true ↔ process.invocation.kind = .seed)
          ∧ inside system.shared.register = inside base
          ∧ Applies process.invocation fetched base system.shared.register later.shared.register
          ∧ Books run process.invocation.kind .applied system.shared later.shared := by
  have comes : (seedEvents.foldlM next
      (⟨emptyDatabase, none, fun _ => none⟩ : RunsSystem Nat Nat)).isSome = true := by
    decide +kernel
  have goesOn : ((seedEvents ++ [seedConcludes]).foldlM next
      (⟨emptyDatabase, none, fun _ => none⟩ : RunsSystem Nat Nat)).isSome = true := by
    decide +kernel
  obtain ⟨before, followed⟩ := Option.isSome_iff_exists.mp comes
  obtain ⟨later, all⟩ := Option.isSome_iff_exists.mp goesOn
  have stepped : next (afterEvents seedEvents) seedConcludes
      = some (afterEvents (seedEvents ++ [seedConcludes])) := by
    unfold afterEvents
    rw [all, followed, Option.getD_some, Option.getD_some]
    rw [List.foldlM_append, followed] at all
    simpa using all
  exact syncRuns_changes (afterEvents_reachable comes) stepped

/-- The seed's own failure report, after an end that it did not hear of, changes nothing. -/
def unheardEvents : List (RunsEvent Nat Nat) :=
  [.turn 0 (.concludes seedIds 5 false), .turn 0 (.reports 6 true)]

theorem seedRun_final
    : Kept (afterEvents seedEvents).shared (afterEvents (seedEvents ++ unheardEvents)).shared := by
  have comes : (seedEvents.foldlM next
      (⟨emptyDatabase, none, fun _ => none⟩ : RunsSystem Nat Nat)).isSome = true := by
    decide +kernel
  have goesOn : ((seedEvents ++ unheardEvents).foldlM next
      (⟨emptyDatabase, none, fun _ => none⟩ : RunsSystem Nat Nat)).isSome = true := by
    decide +kernel
  obtain ⟨before, followed⟩ := Option.isSome_iff_exists.mp comes
  obtain ⟨later, all⟩ := Option.isSome_iff_exists.mp goesOn
  have rest : unheardEvents.foldlM next (afterEvents seedEvents)
      = some (afterEvents (seedEvents ++ unheardEvents)) := by
    unfold afterEvents
    rw [all, followed, Option.getD_some, Option.getD_some]
    rw [List.foldlM_append, followed] at all
    exact all
  exact syncRuns_final (run_of_events rest)

end

end FauPortalen.Register.Runs

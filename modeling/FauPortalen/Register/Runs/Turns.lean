import FauPortalen.Register.Runs.Books

/-! What one turn of a process can do: how far it gets, and what it leaves in the database.
-/

set_option linter.unusedSectionVars false

namespace FauPortalen.Register.Runs

open FauPortalen.Foundations Transaction

-----------------------------------------------------------------------------------------
-- Staging

section

variable {Id : Type} [DecidableEq Id] [PayloadHash] [OsloZone] {s after : RunsDatabase Id}

/-- The schools of the numbers as seen now. -/
def seen (register : RegisterTables Id) (orgnrs : List String) (now : Timestamp)
    : RegisterTables Id :=
  { register with schools := register.schools.map (SchoolRow.seenAt orgnrs now) }

theorem of_stagePayloads {payloads : List NsrPayload} {moment : Moment} {u : Unit}
    (commits : (stagePayloads payloads moment).Commits s u after)
    : ∃ records, after = { s with
        register := seen s.register (payloads.map (·.orgnr)) moment.now
        sourceRecords := records } := by
  unfold stagePayloads at commits
  obtain ⟨_, middle, staged, rest⟩ := commits_bind.mp commits
  obtain rfl := commits_update.mp rest
  obtain ⟨records, rfl⟩ : ∃ records, middle = { s with sourceRecords := records } := by
    refine staged.forM_keeps
      (P := fun t : RunsDatabase Id => ∃ records, t = { s with sourceRecords := records }) ?_
      ⟨_, rfl⟩
    rintro payload _ t after ⟨records, rfl⟩ stepped
    rw [stagePayload, commits_bind] at stepped
    obtain ⟨_, _, checked, written⟩ := stepped
    obtain ⟨_, rfl⟩ := commits_require.mp checked
    obtain rfl := commits_update.mp written
    exact ⟨_, rfl⟩
  exact ⟨records, rfl⟩

end

-----------------------------------------------------------------------------------------
-- Conclusions

section

variable [OsloZone] {Id : Type} [LinearOrder Id] [SearchData] [PayloadHash]
  {s after : RunsDatabase Id} {base : RegisterTables Id} {run : Id} {invocation : Invocation}
  {fetched : Fetched} {ids : NewIds Id} {finishedAt : Timestamp}

theorem Books.of_same {kind : RunKind} {outcome : RunOutcome} {middle : RunsDatabase Id}
    (h : Books run kind outcome middle after) (runs : middle.runs = s.runs)
    (audits : middle.audits = s.audits) (mails : middle.mails = s.mails)
    : Books run kind outcome s after := by
  obtain ⟨written⟩ := h
  rw [runs, audits, mails] at written
  exact ⟨written⟩

/-- A plan that was made for the register as the transaction saw it first was applied to it, and
what it wrote has taken that register's place.
-/
structure Applies (invocation : Invocation) (fetched : Fetched) (base : RegisterTables Id)
    (current after : RegisterTables Id) : Prop where
  writes : ∃ snapshot plan accepted ids applied written orgnrs,
    loadSnapshot base = some snapshot
    ∧ outcomeOf snapshot (invocation.inputs fetched) invocation.acceptMassChange
      = some (.apply plan, accepted)
    ∧ (Applier.applyPlan ids plan invocation.moment).Commits base applied written
    ∧ (beside written current applied.newReviews).Constraints
    ∧ after = seen (beside written current applied.newReviews) orgnrs invocation.moment.now

/-- The end of a run: its row is finished, and the register is another only when a plan was applied.
-/
structure Concludes (invocation : Invocation) (fetched : Fetched) (base : RegisterTables Id)
    (run : Id) (outcome : RunOutcome) (s after : RunsDatabase Id) : Prop where
  books : Books run invocation.kind outcome s after
  live : outcome ≠ .noChange → invocation.dryRun = false
  kept : outcome ≠ .applied → after.register = s.register
  applies : outcome = .applied → Applies invocation fetched base s.register after.register

/-- The exit that goes with an outcome; a dry run that would be aborted says so. -/
def Exit.Tells (invocation : Invocation) (exit : Exit) (outcome : RunOutcome) : Prop :=
  match exit with
  | .done => outcome = .applied ∨ outcome = .noChange
  | .aborted => outcome = .aborted ∨ outcome = .noChange ∧ invocation.dryRun = true
  | _ => False

/-- A statement that books an outcome leaves the register as it was. -/
theorem of_booked (invocation : Invocation) {exit exit' : Exit} {tx : RunsTx Id Unit}
    {outcome : RunOutcome}
    (ended : booked exit tx s = .exits exit' after) (plain : outcome ≠ .applied)
    (live : outcome ≠ .noChange → invocation.dryRun = false)
    (books : ∀ u after, tx.Commits s u after → Books run invocation.kind outcome s after
      ∧ after.register = s.register ∧ after.sourceRecords = s.sourceRecords)
    : exit' = exit ∧ Concludes invocation fetched base run outcome s after := by
  unfold booked at ended
  cases ran : tx.run s with
  | error error =>
      rw [ran] at ended
      cases ended
  | ok result =>
      rw [ran] at ended
      cases ended
      obtain ⟨written, register, _⟩ := books result.1 result.2 ran
      exact ⟨rfl, written, live, fun _ => register, fun applied => absurd applied plain⟩

theorem commits_onSnapshot {α : Type} {tx : RegisterTx Id α} {result : α × RegisterTables Id}
    : (onSnapshot base tx).Commits s result after
      ↔ tx.Commits base result.1 result.2 ∧ after = s := by
  unfold onSnapshot Commits
  change (tx.run base).map (·, s) = .ok (result, after) ↔ _
  cases tx.run base with
  | error error => simp [Except.map]
  | ok given => simp [Except.map, Prod.ext_iff, eq_comm]

theorem of_applyAndStage {plan : SyncPlan Id} {units : List Detail}
    {accepted : Option AbortReason} {applied : Applier.AppliedCounts Id}
    (commits : (applyAndStage base ids plan units invocation run accepted finishedAt).Commits s
      applied after)
    (wrote : applied.wroteNothing = false)
    : Books run invocation.kind .applied s after
      ∧ ∃ written orgnrs,
          (Applier.applyPlan ids plan invocation.moment).Commits base applied written
          ∧ (beside written s.register applied.newReviews).Constraints
          ∧ after.register
            = seen (beside written s.register applied.newReviews) orgnrs invocation.moment.now := by
  unfold applyAndStage at commits
  obtain ⟨⟨counted, written⟩, middle, ran, rest⟩ := commits_bind.mp commits
  obtain ⟨planned, rfl⟩ := commits_onSnapshot.mp ran
  dsimp only at rest planned
  split at rest
  · rename_i nothing
    obtain ⟨rfl, _⟩ := commits_pure.mp rest
    rw [nothing] at wrote
    cases wrote
  · rw [commits_update_bind, commits_select_bind, commits_require_bind] at rest
    obtain ⟨holds, rest⟩ := rest
    obtain ⟨_, staged, stages, rest⟩ := commits_bind.mp rest
    obtain ⟨_, recorded, records, ended⟩ := commits_bind.mp rest
    obtain ⟨rfl, rfl⟩ := commits_pure.mp ended
    obtain ⟨table, rfl⟩ := of_stagePayloads stages
    obtain ⟨books, register, _⟩ := books_of_recordApplied records
    exact ⟨books.of_same rfl rfl rfl, written, _, planned, holds, register⟩

theorem of_concludeDryRun {outcome : SyncOutcome Id} {exit : Exit}
    (dry : invocation.dryRun = true)
    (ended : concludeDryRun run outcome finishedAt s = .exits exit after)
    : Concludes invocation fetched base run .noChange s after
      ∧ exit.Tells invocation .noChange := by
  have live : RunOutcome.noChange ≠ .noChange → invocation.dryRun = false := fun other =>
    absurd rfl other
  cases outcome with
  | noChange =>
      obtain ⟨rfl, concludes⟩ := of_booked invocation ended (by decide) live
        fun _ _ commits => books_of_finish (.inl rfl) commits
      exact ⟨concludes, .inr rfl⟩
  | apply plan =>
      obtain ⟨rfl, concludes⟩ := of_booked invocation ended (by decide) live
        fun _ _ commits => books_of_finish (.inl rfl) commits
      exact ⟨concludes, .inr rfl⟩
  | abort reason counts =>
      obtain ⟨rfl, concludes⟩ := of_booked invocation ended (by decide) live
        fun _ _ commits => books_of_finish (.inl rfl) commits
      exact ⟨concludes, .inr ⟨rfl, dry⟩⟩

theorem of_concludeRun {snapshot : RegisterSnapshot Id} {outcome : SyncOutcome Id}
    {accepted : Option AbortReason} {exit : Exit} (live : invocation.dryRun = false)
    (loaded : loadSnapshot base = some snapshot)
    (planned : outcomeOf snapshot (invocation.inputs fetched) invocation.acceptMassChange
      = some (outcome, accepted))
    (ended : concludeRun base ids invocation fetched.units run outcome accepted finishedAt s
      = .exits exit after)
    : ∃ outcome, Concludes invocation fetched base run outcome s after
        ∧ exit.Tells invocation outcome := by
  cases outcome with
  | noChange =>
      obtain ⟨rfl, concludes⟩ := of_booked invocation ended (by decide)
        (fun _ => live) fun _ _ commits => books_of_finish (.inl rfl) commits
      exact ⟨_, concludes, .inr rfl⟩
  | abort reason counts =>
      obtain ⟨rfl, concludes⟩ := of_booked invocation ended (by decide)
        (fun _ => live) fun _ _ commits => books_of_recordAborted commits
      exact ⟨_, concludes, .inl rfl⟩
  | apply plan =>
      dsimp only [concludeRun] at ended
      cases ran : (applyAndStage base ids plan fetched.units invocation run accepted
        finishedAt).run s with
      | error error =>
          rw [ran] at ended
          cases ended
      | ok result =>
          obtain ⟨applied, written⟩ := result
          rw [ran] at ended
          dsimp only at ended
          cases wrote : applied.wroteNothing with
          | true =>
              rw [wrote, if_pos rfl] at ended
              obtain ⟨rfl, concludes⟩ := of_booked invocation ended (by decide)
                (fun _ => live) fun _ _ commits => books_of_finish (.inl rfl) commits
              exact ⟨_, concludes, .inr rfl⟩
          | false =>
              rw [wrote, if_neg (by decide)] at ended
              cases ended
              obtain ⟨books, table, orgnrs, applies, holds, register⟩ := of_applyAndStage ran wrote
              refine ⟨.applied, ⟨books, fun _ => live, fun other => absurd rfl other, fun _ => ?_⟩,
                .inl rfl⟩
              exact ⟨snapshot, plan, accepted, ids, applied, table, orgnrs, loaded, planned,
                applies, holds, register⟩

/-- What a run that exits has left. -/
theorem of_conclusion {exit : Exit}
    (ended : conclusion invocation fetched base run ids finishedAt s = .exits exit after)
    : ∃ outcome, Concludes invocation fetched base run outcome s after
        ∧ exit.Tells invocation outcome := by
  unfold conclusion at ended
  cases loaded : loadSnapshot base with
  | none =>
      rw [loaded] at ended
      cases ended
  | some snapshot =>
      rw [loaded] at ended
      dsimp only at ended
      cases planned : outcomeOf snapshot (invocation.inputs fetched)
          invocation.acceptMassChange with
      | none =>
          rw [planned] at ended
          cases ended
      | some result =>
          obtain ⟨outcome, accepted⟩ := result
          rw [planned] at ended
          dsimp only at ended
          cases dry : invocation.dryRun with
          | true =>
              rw [dry, if_pos rfl] at ended
              exact ⟨_, of_concludeDryRun dry ended⟩
          | false =>
              rw [dry, if_neg (by decide)] at ended
              exact of_concludeRun dry loaded planned ended

-----------------------------------------------------------------------------------------
-- Turns

/-- Before the row. -/
def Stage.isEarly {Id : Type} : Stage Id → Bool
  | .connected | .locked | .admitted => true
  | _ => false

/-- The row is written and not finished. -/
def Stage.isStarted {Id : Type} : Stage Id → Bool
  | .running | .fetched _ | .planning .. => true
  | _ => false

/-- What a turn of a process can do. -/
inductive Turned (process : Process Id) (s : RunsDatabase Id) (lockIsFree : Bool)
    : Process Id → RunsDatabase Id → Prop
  | locks (connected : process.stage = .connected) (free : lockIsFree = true)
    : Turned process s lockIsFree (process.at .locked) s
  | admitted (locked : process.stage = .locked)
      (fits : admits process.invocation.kind (registerIsEmpty s.register) = true)
    : Turned process s lockIsFree (process.at .admitted) s
  | starts {run : Id} (admitted : process.stage = .admitted) (alive : process.session = true)
      (fresh : run ∉ s.runs.map (·.id)) (process' : Process Id)
      (goesOn : process' = { process.at .running with run := some run }
        ∨ process' = process.exit (some .failed))
    : Turned process s lockIsFree process'
        { s with runs := s.runs ++ [⟨run,
          .ofRun process.invocation.kind process.invocation.dryRun, process.invocation.moment.now,
          none, none, [], none⟩] }
  | fetches (fetched : Fetched) (running : process.stage = .running)
    : Turned process s lockIsFree (process.at (.fetched fetched)) s
  | snapshots (fetched : Fetched) (done : process.stage = .fetched fetched)
    : Turned process s lockIsFree (process.at (.planning fetched s.register)) s
  | concludes {fetched : Fetched} {base : RegisterTables Id} {run : Id} {outcome : RunOutcome}
      {after : RunsDatabase Id} {exit : Exit} (planning : process.stage = .planning fetched base)
      (alive : process.session = true) (own : process.run = some run)
      (ends : Concludes process.invocation fetched base run outcome s after)
      (tells : exit.Tells process.invocation outcome) (process' : Process Id)
      (goesOn : process' = process.exit (some exit)
        ∨ process' = process.at (.reporting (.database false)))
    : Turned process s lockIsFree process' after
  | fails (error : SyncError) (known : process.stage.isStarted = true)
    : Turned process s lockIsFree (process.at (.reporting error)) s
  | reports {error : SyncError} {run : Id} {after : RunsDatabase Id}
      (reporting : process.stage = .reporting error) (own : process.run = some run)
      (books : Books run process.invocation.kind .failed s after)
      (register : after.register = s.register)
    : Turned process s lockIsFree (process.exit (some .failed)) after
  | exits (exit : Option Exit)
      (early : exit = none ∨ exit = some .failed
        ∨ (exit = some .locked ∨ exit = some .refused) ∧ process.stage.isEarly = true)
    : Turned process s lockIsFree (process.exit exit) s
  | drops : Turned process s lockIsFree { process with session := false } s

/-- An error sends a process to its report or to its end. -/
theorem turned_of_err {process process' : Process Id} {free : Bool} {error : SyncError}
    (errs : process.err error = some process')
    : Turned process s free process' s := by
  unfold Process.err at errs
  cases stage : process.stage with
  | connected | locked | admitted =>
      rw [stage] at errs
      cases errs
      exact .exits (some .failed) (.inr (.inl rfl))
  | running | fetched | planning =>
      rw [stage] at errs
      cases errs
      exact .fails error (by rw [stage]; rfl)
  | reporting | exited =>
      rw [stage] at errs
      cases errs

theorem turned_of_fetch {process : Process Id} {free : Bool} (running : process.stage = .running)
    : Turned process s free (process.fetch s fetched) s := by
  unfold Process.fetch
  split
  · exact .fails .noSeed (by rw [running]; rfl)
  · exact .fetches fetched running

theorem turned_of_concludes {process process' : Process Id} {free heard : Bool}
    (planning : process.stage = .planning fetched base) (alive : process.session = true)
    (own : process.run = some run)
    (turned : (match conclusion process.invocation fetched base run ids finishedAt s with
      | .exits exit after =>
          if heard then (process.exit (some exit), after)
          else (process.at (.reporting (.database false)), after)
      | .fails error => (process.at (.reporting error), s)
      | .panics => (process.exit none, s)) = (process', after))
    : Turned process s free process' after := by
  cases ended : conclusion process.invocation fetched base run ids finishedAt s with
  | exits exit written =>
      rw [ended] at turned
      obtain ⟨outcome, concludes, tells⟩ := of_conclusion ended
      cases heard with
      | true =>
          cases turned
          exact .concludes planning alive own concludes tells _ (.inl rfl)
      | false =>
          cases turned
          exact .concludes planning alive own concludes tells _ (.inr rfl)
  | fails error =>
      rw [ended] at turned
      cases turned
      exact .fails error (by rw [planning]; rfl)
  | panics =>
      rw [ended] at turned
      cases turned
      exact .exits none (.inl rfl)

theorem turned_of_starts {process process' : Process Id} {free heard : Bool}
    (admitted : process.stage = .admitted) (alive : process.session = true)
    (turned : (match (startRun run process.invocation.kind process.invocation.dryRun
        process.invocation.moment).run s with
      | .error _ => none
      | .ok (_, after) =>
          if heard then some ({ process.at .running with run := some run }, after)
          else some (process.exit (some .failed), after)) = some (process', after))
    : Turned process s free process' after := by
  cases ran : (startRun run process.invocation.kind process.invocation.dryRun
      process.invocation.moment).run s with
  | error error =>
      rw [ran] at turned
      cases turned
  | ok result =>
      obtain ⟨_, written⟩ := result
      rw [ran] at turned
      have commits : (startRun run process.invocation.kind process.invocation.dryRun
        process.invocation.moment).Commits s () written := ran
      rw [startRun, commits_select_bind, commits_require_bind, commits_update] at commits
      obtain ⟨fresh, rfl⟩ := commits
      cases heard with
      | true =>
          cases turned
          exact .starts admitted alive fresh _ (.inl rfl)
      | false =>
          cases turned
          exact .starts admitted alive fresh _ (.inr rfl)

/-- Every turn is one of these. -/
theorem turned_of_turn {process process' : Process Id} {free : Bool} {turn : Turn Id}
    (turned : process.turn s free turn = some (process', after))
    : Turned process s free process' after := by
  obtain ⟨invocation, stage, session, own⟩ := process
  cases turn with
  | drops =>
      cases turned
      exact .drops
  | dies =>
      cases turned
      exact .exits none (.inl rfl)
  | errs error =>
      obtain ⟨given, errs, same⟩ := Option.map_eq_some_iff.mp turned
      cases same
      exact turned_of_err errs
  | takesLock =>
      cases stage with
      | connected =>
          cases session with
          | false => cases turned
          | true =>
              cases free with
              | true =>
                  cases turned
                  exact .locks rfl rfl
              | false =>
                  cases turned
                  exact .exits (some .locked) (.inr (.inr ⟨.inl rfl, rfl⟩))
      | _ => cases turned
  | looks =>
      cases stage with
      | locked =>
          cases session with
          | false => cases turned
          | true =>
              dsimp only [Process.turn] at turned
              rw [if_pos rfl] at turned
              split at turned
              · rename_i fits
                cases turned
                exact .admitted rfl fits
              · cases turned
                exact .exits (some .refused) (.inr (.inr ⟨.inr rfl, rfl⟩))
      | _ => cases turned
  | starts run heard =>
      cases stage with
      | admitted =>
          cases session with
          | false => cases turned
          | true => exact turned_of_starts rfl rfl turned
      | _ => cases turned
  | fetches fetched =>
      cases stage with
      | running =>
          cases session with
          | false => cases turned
          | true =>
              cases turned
              exact turned_of_fetch rfl
      | _ => cases turned
  | snapshots =>
      cases stage with
      | fetched fetched =>
          cases session with
          | false => cases turned
          | true =>
              cases turned
              exact .snapshots fetched rfl
      | _ => cases turned
  | concludes ids finishedAt heard =>
      cases stage with
      | planning fetched base =>
          cases session with
          | false => cases turned
          | true =>
              obtain ⟨run, known, same⟩ := Option.map_eq_some_iff.mp turned
              exact turned_of_concludes rfl rfl known same
      | _ => cases turned
  | reports finishedAt lands =>
      cases stage with
      | reporting error =>
          obtain ⟨run, known, same⟩ := Option.map_eq_some_iff.mp turned
          cases lands with
          | false =>
              cases same
              exact .exits (some .failed) (.inr (.inl rfl))
          | true =>
              cases same
              unfold leaves
              cases ran : (recordFailed run error.code finishedAt).run s with
              | error refusal => exact .exits (some .failed) (.inr (.inl rfl))
              | ok result =>
                  obtain ⟨books, register, _⟩ : Books run invocation.kind .failed s result.2
                      ∧ result.2.register = s.register
                      ∧ result.2.sourceRecords = s.sourceRecords :=
                    books_of_finish (.inr rfl) ran
                  exact .reports rfl known books register
      | _ => cases turned

end

end FauPortalen.Register.Runs

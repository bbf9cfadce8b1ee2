import FauPortalen.Register.Runs.Protocol

/-! What the statements of a run write: its row is finished once, and the audit entry and the mails
are those of its outcome.
-/

set_option linter.unusedSectionVars false

namespace FauPortalen.Register.Runs

open FauPortalen.Foundations Transaction

variable {Id : Type} [DecidableEq Id] {s after : RunsDatabase Id} {run : Id} {outcome : RunOutcome}
  {counts : List (String × Nat)} {reason : Option String} {finishedAt : Timestamp}

-----------------------------------------------------------------------------------------
-- Entries of a run

/-- The run that a mail is about. -/
def SyncMailRow.run? (mail : SyncMailRow Id) : Option Id :=
  match mail.params.lookup "run_id" with
  | some (.id run) => some run
  | _ => none

/-- The templates of an applied run's mails: a seed has one summary, and a sync a mail for each
review item it wrote.
-/
def SyncRunRow.templates (row : SyncRunRow Id) : List String :=
  match row.kind with
  | .seed => ["register.seed_summary"]
  | _ => List.replicate ((row.counts.lookup "reviews_written").getD 0) "register.review_item"

/-- The audit entry of an applied run: when it finished, and every count of its row. -/
structure SyncAuditRow.Tells (audit : SyncAuditRow Id) (row : SyncRunRow Id) : Prop where
  action : audit.action = syncAppliedAction
  subject : audit.subjectId = row.id
  finished : row.finishedAt = some audit.occurredAt
  counts : ∀ entry ∈ row.counts, (entry.1, .number entry.2) ∈ audit.params

/-- The audit entries and the mails of a run, by its outcome. -/
def SyncRunRow.Entries (row : SyncRunRow Id) (audits : List (SyncAuditRow Id))
    (mails : List (SyncMailRow Id))
    : Prop :=
  match row.outcome with
  | none | some .noChange | some .failed => audits = [] ∧ mails = []
  | some .aborted => audits = [] ∧ mails.map (·.template) = ["register.sync_aborted"]
  | some .applied =>
      (∃ audit, audits = [audit] ∧ audit.Tells row) ∧ mails.map (·.template) = row.templates

-----------------------------------------------------------------------------------------
-- Finishing a row

/-- The row, finished. -/
def SyncRunRow.finished (row : SyncRunRow Id) (outcome : RunOutcome)
    (counts : List (String × Nat)) (reason : Option String) (finishedAt : Timestamp)
    : SyncRunRow Id :=
  { row with
    finishedAt := some finishedAt
    outcome := some outcome
    counts := counts
    abortReason := reason }

/-- The rows with that of the run finished. -/
def finishedRuns (run : Id) (outcome : RunOutcome) (counts : List (String × Nat))
    (reason : Option String) (finishedAt : Timestamp) (rows : List (SyncRunRow Id))
    : List (SyncRunRow Id) :=
  rows.map fun row =>
    if isUnfinished run row then row.finished outcome counts reason finishedAt else row

theorem commits_finish {u : Unit}
    : (finish run outcome counts reason finishedAt).Commits s u after
      ↔ s.runs.countP (isUnfinished run) = 1
        ∧ after = { s with runs := finishedRuns run outcome counts reason finishedAt s.runs } := by
  rw [finish, commits_select_bind, commits_update_bind, commits_require]
  rfl

/-- A run whose row is finished is finished with what the row says, and its entries go in with it:
`s` and `after` differ in nothing else apart from the register and what is staged.
-/
structure Books (run : Id) (kind : RunKind) (outcome : RunOutcome) (s after : RunsDatabase Id)
    : Prop where
  writes : ∃ counts reason finishedAt audits mails,
    s.runs.countP (isUnfinished run) = 1
    ∧ after.runs = finishedRuns run outcome counts reason finishedAt s.runs
    ∧ after.audits = s.audits ++ audits
    ∧ after.mails = s.mails ++ mails
    ∧ (∀ audit ∈ audits, audit.subjectId = run)
    ∧ (∀ mail ∈ mails, mail.run? = some run)
    ∧ ∀ row : SyncRunRow Id, row.id = run →
      (outcome = .applied → row.kind = .ofRun kind false) →
      (row.finished outcome counts reason finishedAt).Entries audits mails

/-- A run that only finishes its row has no entries. -/
theorem books_of_finish {kind : RunKind} {u : Unit}
    (plain : outcome = .noChange ∨ outcome = .failed)
    (commits : (finish run outcome counts reason finishedAt).Commits s u after)
    : Books run kind outcome s after ∧ after.register = s.register
      ∧ after.sourceRecords = s.sourceRecords := by
  obtain ⟨one, rfl⟩ := commits_finish.mp commits
  refine ⟨⟨counts, reason, finishedAt, [], [], one, rfl, (List.append_nil _).symm,
    (List.append_nil _).symm, fun _ none => (List.not_mem_nil none).elim,
    fun _ none => (List.not_mem_nil none).elim, fun row _ _ => ?_⟩, rfl, rfl⟩
  rcases plain with rfl | rfl <;> exact ⟨rfl, rfl⟩

theorem books_of_recordAborted {kind : RunKind} {abort : AbortReason} {planned : Counts} {u : Unit}
    (commits : (recordAborted run kind abort planned finishedAt).Commits s u after)
    : Books run kind .aborted s after ∧ after.register = s.register
      ∧ after.sourceRecords = s.sourceRecords := by
  rw [recordAborted, commits_bind] at commits
  obtain ⟨_, middle, first, second⟩ := commits
  obtain ⟨one, rfl⟩ := commits_finish.mp first
  obtain rfl := commits_update.mp second
  refine ⟨⟨_, _, _, [], [_], one, rfl, (List.append_nil _).symm, rfl,
    fun _ none => (List.not_mem_nil none).elim, ?_, fun row _ _ => ⟨rfl, rfl⟩⟩, rfl, rfl⟩
  intro mail member
  obtain rfl := List.mem_singleton.mp member
  rfl

/-- The mails of review items go in one after the other, by induction on the items. -/
theorem of_reviewMails {reviews : List (ReviewRow Id)} {u : Unit}
    (commits : (reviews.forM (reviewMail run finishedAt)).Commits s u after)
    : ∃ mails, after = { s with mails := s.mails ++ mails }
        ∧ mails.map (·.template) = List.replicate reviews.length "register.review_item"
        ∧ ∀ mail ∈ mails, mail.run? = some run := by
  induction reviews generalizing s with
  | nil =>
      obtain rfl := commits_forM_nil.mp commits
      exact ⟨[], by rw [List.append_nil], rfl, fun _ none => (List.not_mem_nil none).elim⟩
  | cons review rest ih =>
      obtain ⟨middle, first, others⟩ := commits_forM_cons.mp commits
      obtain rfl := commits_update.mp first
      obtain ⟨mails, rfl, templates, about⟩ := ih others
      refine ⟨_ :: mails, by rw [List.append_assoc, List.singleton_append], ?_, ?_⟩
      · rw [List.map_cons, templates]
        rfl
      · intro mail member
        rcases List.mem_cons.mp member with rfl | later
        · rfl
        · exact about mail later

/-- The count that the number of review mails is read from. -/
theorem lookup_reviews_written (applied : Applier.AppliedCounts Id)
    : (appliedCounts applied).lookup "reviews_written" = some applied.newReviews.length := rfl

theorem books_of_recordApplied {kind : RunKind} {applied : Applier.AppliedCounts Id}
    {accepted : Option AbortReason} {u : Unit}
    (commits : (recordApplied run kind applied accepted finishedAt).Commits s u after)
    : Books run kind .applied s after ∧ after.register = s.register
      ∧ after.sourceRecords = s.sourceRecords := by
  unfold recordApplied at commits
  dsimp only at commits
  obtain ⟨_, middle, first, rest⟩ := commits_bind.mp commits
  obtain ⟨one, rfl⟩ := commits_finish.mp first
  rw [commits_update_bind] at rest
  let audit : SyncAuditRow Id :=
    ⟨syncAppliedAction, "register_sync_run", run, finishedAt,
      ((appliedCounts applied).map fun entry => (entry.1, .number entry.2))
        ++ [("kind", .text (kindCode kind))] ++ acceptedParams accepted⟩
  have tells (row : SyncRunRow Id) (same : row.id = run)
      : audit.Tells (row.finished .applied (appliedCounts applied) none finishedAt) :=
    ⟨rfl, same.symm, rfl, fun entry member =>
      List.mem_append_left _ (List.mem_append_left _ (List.mem_map_of_mem member))⟩
  have about : ∀ other ∈ [audit], other.subjectId = run := fun other member =>
    List.mem_singleton.mp member ▸ rfl
  cases kind with
  | seed =>
      obtain rfl := commits_update.mp rest
      refine ⟨⟨_, _, _, [audit], [_], one, rfl, rfl, rfl, about, ?_, fun row same known => ?_⟩,
        rfl, rfl⟩
      · intro mail member
        obtain rfl := List.mem_singleton.mp member
        rfl
      · have seed : row.kind = .seed := known rfl
        refine ⟨⟨audit, rfl, tells row same⟩, ?_⟩
        simp only [SyncRunRow.templates, SyncRunRow.finished, seed, List.map_cons, List.map_nil]
  | sync =>
      obtain ⟨mails, rfl, templates, mailed⟩ := of_reviewMails rest
      refine ⟨⟨_, _, _, [audit], mails, one, rfl, rfl, rfl, about, mailed,
        fun row same known => ?_⟩, rfl, rfl⟩
      have sync : row.kind = .sync := known rfl
      refine ⟨⟨audit, rfl, tells row same⟩, ?_⟩
      rw [templates]
      simp only [SyncRunRow.templates, SyncRunRow.finished, sync, lookup_reviews_written,
        Option.getD_some]

end FauPortalen.Register.Runs

import FauPortalen.Register.Fetch.DetailPool
import FauPortalen.Register.Sync.Store
import Mathlib.Algebra.Order.BigOperators.Group.Finset
import Mathlib.Data.Fintype.BigOperators
import Mathlib.Tactic.Abel
import Mathlib.Tactic.FinCases

/-! Any interleaving of the detail pass ends after a bounded number of steps, with the answer of
every number that was wanted or with an error, and a failure stops the others soon.
-/

set_option linter.unusedSectionVars false

namespace FauPortalen.Register

open Foundations

-----------------------------------------------------------------------------------------
-- What a run shows

/-- The number of a request that begins. -/
def DetailEvent.requested? : DetailEvent → Option String
  | .takes _ orgnr => orgnr
  | _ => none

/-- The unit that arrives, with the number it answers. -/
def DetailEvent.fetched? : DetailEvent → Option (String × Detail)
  | .answers _ orgnr (.ok detail) => some (orgnr, detail)
  | _ => none

/-- The failure that is seen: an answer that is an error, or a lost worker. -/
def DetailEvent.failure? : DetailEvent → Option FetchError
  | .answers _ _ (.error error) => some (.source error)
  | .panics _ => some .workerPanicked
  | _ => none

namespace DetailWorker

/-- The number whose answer is awaited. -/
def asked : DetailWorker → Multiset String
  | .asks orgnr _ => {orgnr}
  | _ => 0

/-- What has been fetched and not yet been collected. -/
def holds : DetailWorker → Multiset Detail
  | .checks fetched | .takes fetched | .asks _ fetched | .returned (.ok fetched) => fetched
  | _ => 0

/-- The failure the worker carries. -/
def failure? : DetailWorker → Option FetchError
  | .fails error | .returned (.error error) => some (.source error)
  | .panicked => some .workerPanicked
  | _ => none

/-- How many more steps concern the worker, unless it takes another number. -/
def stepsLeft : DetailWorker → Nat
  | .checks _ => 3
  | .takes _ => 2
  | .asks _ _ => 4
  | .fails _ => 2
  | .returned _ | .panicked => 1
  | .joined => 0

/-- One when the worker is about to take a number. -/
def poised : DetailWorker → Nat
  | .takes _ => 1
  | _ => 0

end DetailWorker

-----------------------------------------------------------------------------------------
-- Sums over the workers

namespace DetailPool

/-- A worker's move changes a sum by what it changes for that worker. -/
theorem sum_moves {M : Type} [AddCommMonoid M] (pool : DetailPool)
    (w : Fin detailFetchesInParallel) (worker : DetailWorker) (count : DetailWorker → M)
    : ∑ v, count ((pool.moves w worker).workers v) + count (pool.workers w)
      = ∑ v, count (pool.workers v) + count worker := by
  have moved : ∀ v, count ((pool.moves w worker).workers v)
      = Function.update (fun v => count (pool.workers v)) w (count worker) v := by
    intro v
    by_cases same : v = w
    · subst same
      simp [moves]
    · simp [moves, same]
  rw [Finset.sum_congr rfl fun v _ => moved v,
    Finset.sum_update_of_mem (Finset.mem_univ w),
    ← Finset.add_sum_erase Finset.univ (fun v => count (pool.workers v)) (Finset.mem_univ w),
    Finset.sdiff_singleton_eq_erase, add_right_comm, add_comm (count worker), add_right_comm]

end DetailPool

-----------------------------------------------------------------------------------------
-- What every run keeps

section

variable {ask : String → Except SourceError Detail → Prop} {orgnrs : List String}
  {pool after : DetailPool} {event : DetailEvent} {events : List DetailEvent}

/-- A failure has left its mark: with a worker, with the collector or in the result. -/
inductive DetailPool.Marks (pool : DetailPool) (error : FetchError) : Prop
  | worker {w : Fin detailFetchesInParallel} (carries : (pool.workers w).failure? = some error)
  | first (found : pool.firstError = some error)
  | result (ended : pool.result = some (.error error))

def DetailPool.Tainted (pool : DetailPool) : Prop := ∃ error, pool.Marks error

/-- A result is what the collector makes of what it has joined. -/
def DetailPool.Settled (pool : DetailPool) : Prop :=
  ∀ items, pool.result = some (.ok items) →
    (∀ w, pool.workers w = .joined) ∧ pool.firstError = none
    ∧ items = sortOn (·.1.orgnr) pool.all

/-- A mark stays when a worker moves that does not carry it, or goes on carrying it. -/
theorem DetailPool.Marks.moves {error : FetchError} {w : Fin detailFetchesInParallel}
    {worker : DetailWorker} (marks : pool.Marks error)
    (workers : after.workers = (pool.moves w worker).workers)
    (carried : (pool.workers w).failure? = none ∨ (pool.workers w).failure? = worker.failure?)
    (errors : after.firstError = pool.firstError) (results : after.result = pool.result)
    : after.Marks error := by
  cases marks with
  | @worker v carries =>
      by_cases same : v = w
      · subst same
        rcases carried with none | goesOn
        · cases none.symm.trans carries
        · exact .worker (w := v) (by
            rw [workers, DetailPool.moves_self, ← goesOn]
            exact carries)
      · exact .worker (w := v) (by
          rw [workers, DetailPool.moves_other same]
          exact carries)
  | first found => exact .first (errors.trans found)
  | result ended => exact .result (results.trans ended)

/-- A pool that is marked stays marked, whoever steps. -/
theorem DetailStep.tainted (stepped : DetailStep ask pool event after) (tainted : pool.Tainted)
    : after.Tainted := by
  obtain ⟨error, marks⟩ := tainted
  cases stepped with
  | stops here _ | checks here _ | drained here _ | takes here _ | fetches here _ | fails here _
  | joinsItems _ here =>
      exact ⟨error, marks.moves rfl (.inl (by rw [here]; rfl)) rfl rfl⟩
  | raises here => exact ⟨error, marks.moves rfl (.inr (by rw [here]; rfl)) rfl rfl⟩
  | panics => exact ⟨.workerPanicked, .worker (by rw [DetailPool.moves_self]; rfl)⟩
  | joinsError => exact ⟨_, .first rfl⟩
  | joinsPanic => exact ⟨_, .result rfl⟩
  | finishes collecting all =>
      cases marks with
      | @worker v carries =>
          rw [all v] at carries
          cases carries
      | first found => exact ⟨error, .result (by rw [found])⟩
      | result ended => cases collecting.symm.trans ended

/-- A failure that is seen leaves its mark. -/
theorem DetailStep.taints (stepped : DetailStep ask pool event after)
    (seen : event.failure? ≠ none)
    : after.Tainted := by
  cases stepped with
  | stops | checks | drained | takes | fetches | raises | joinsItems | joinsError | joinsPanic
  | finishes =>
      exact absurd rfl seen
  | fails | panics => exact ⟨_, .worker (by rw [DetailPool.moves_self]; rfl)⟩

/-- What a worker carries after a move was marked before, unless it is the one that moved. -/
theorem DetailPool.marks_of_moves {error : FetchError} {v w : Fin detailFetchesInParallel}
    {worker : DetailWorker} (workers : after.workers = (pool.moves w worker).workers)
    (carries : (after.workers v).failure? = some error)
    : pool.Marks error ∨ worker.failure? = some error := by
  rw [workers] at carries
  by_cases same : v = w
  · subst same
    rw [DetailPool.moves_self] at carries
    exact .inr carries
  · rw [DetailPool.moves_other same] at carries
    exact .inl (.worker carries)

theorem DetailPool.Marks.of_moves {error : FetchError} {w : Fin detailFetchesInParallel}
    {worker : DetailWorker} (marks : after.Marks error)
    (workers : after.workers = (pool.moves w worker).workers)
    (errors : after.firstError = pool.firstError) (results : after.result = pool.result)
    : pool.Marks error ∨ worker.failure? = some error := by
  cases marks with
  | worker carries => exact DetailPool.marks_of_moves workers carries
  | first found => exact .inl (.first (errors ▸ found))
  | result ended => exact .inl (.result (results ▸ ended))

/-- What is marked was marked before, or is seen now. -/
theorem DetailStep.marks_cases {error : FetchError} (stepped : DetailStep ask pool event after)
    (marks : after.Marks error)
    : pool.Marks error ∨ event.failure? = some error := by
  cases stepped with
  | stops | checks | drained | takes | fetches =>
      exact .inl ((marks.of_moves rfl rfl rfl).resolve_right fun carried => nomatch carried)
  | fails | panics => exact marks.of_moves rfl rfl rfl
  | raises here =>
      rcases marks.of_moves rfl rfl rfl with before | carried
      · exact .inl before
      · exact .inl (.worker (by rw [here]; exact carried))
  | joinsItems =>
      exact .inl ((marks.of_moves rfl rfl rfl).resolve_right fun carried => nomatch carried)
  | @joinsError w own collecting here =>
      left
      cases marks with
      | worker carries =>
          exact (DetailPool.marks_of_moves rfl carries).resolve_right fun carried => nomatch carried
      | first found =>
          cases earlier : pool.firstError with
          | some known =>
              rw [earlier] at found
              exact .first (earlier.trans found)
          | none =>
              rw [earlier] at found
              exact .worker (by rw [here]; exact found)
      | result ended => exact .result ended
  | joinsPanic collecting here =>
      left
      cases marks with
      | worker carries =>
          exact (DetailPool.marks_of_moves rfl carries).resolve_right fun carried => nomatch carried
      | first found => exact .first found
      | result ended =>
          obtain rfl := Except.error.inj (Option.some.inj ended)
          exact .worker (by rw [here]; rfl)
  | finishes =>
      left
      cases marks with
      | worker carries => exact .worker carries
      | first found => exact .first found
      | result ended =>
          cases known : pool.firstError with
          | some own =>
              rw [known] at ended
              obtain rfl := Except.error.inj (Option.some.inj ended)
              exact .first known
          | none =>
              rw [known] at ended
              cases ended

/-- A pool with a good result is not marked. -/
theorem DetailPool.Settled.untainted {items : List Detail} (settled : pool.Settled)
    (result : pool.result = some (.ok items))
    : ¬ pool.Tainted := by
  obtain ⟨joined, noError, -⟩ := settled items result
  rintro ⟨error, marks⟩
  cases marks with
  | @worker v carries =>
      rw [joined v] at carries
      cases carries
  | first found => cases noError.symm.trans found
  | result ended => cases result.symm.trans ended

/-- Once there is a good result nothing happens any more. -/
theorem DetailPool.Settled.rests {items : List Detail} (settled : pool.Settled)
    (result : pool.result = some (.ok items))
    : ¬ DetailStep ask pool event after := by
  obtain ⟨joined, -⟩ := settled items result
  intro stepped
  cases stepped with
  | stops here _ | checks here _ | drained here _ | takes here _ | fetches here _ | fails here _
  | raises here =>
      cases (joined _).symm.trans here
  | panics here =>
      rw [joined] at here
      exact here
  | joinsItems collecting _ | joinsError collecting _ | joinsPanic collecting _
  | finishes collecting _ =>
      cases result.symm.trans collecting

/-- Results stay what they are. -/
theorem DetailStep.settled (stepped : DetailStep ask pool event after) (settled : pool.Settled)
    : after.Settled := by
  intro items result
  have resting (same : after.result = pool.result)
      : (∀ w, after.workers w = .joined) ∧ after.firstError = none
        ∧ items = sortOn (·.1.orgnr) after.all :=
    absurd stepped (settled.rests (same ▸ result))
  cases stepped with
  | stops | checks | drained | takes | fetches | fails | raises | panics | joinsItems
  | joinsError =>
      exact resting rfl
  | joinsPanic => cases result
  | finishes _ all =>
      cases first : pool.firstError with
      | some error =>
          rw [first] at result
          cases result
      | none =>
          rw [first] at result
          exact ⟨all, rfl, (Except.ok.inj (Option.some.inj result)).symm⟩

-----------------------------------------------------------------------------------------
-- What a clean run has fetched

/-- The numbers whose requests have begun, in order. -/
def requested (events : List DetailEvent) : List String :=
  events.filterMap DetailEvent.requested?

/-- The units that have arrived, with the numbers they answer. -/
def fetchedUnits (events : List DetailEvent) : List (String × Detail) :=
  events.filterMap DetailEvent.fetched?

theorem requested_snoc : requested (events ++ [event])
    = requested events ++ event.requested?.toList := by
  unfold requested
  rw [List.filterMap_append, List.filterMap_cons]
  cases event.requested? <;> rfl

theorem fetchedUnits_snoc : fetchedUnits (events ++ [event])
    = fetchedUnits events ++ event.fetched?.toList := by
  unfold fetchedUnits
  rw [List.filterMap_append, List.filterMap_cons]
  cases event.fetched? <;> rfl

/-- The queue gives out its numbers in order, each once. -/
theorem requested_queue {first : DetailPool}
    (run : (detailPass ask orgnrs).Run first events pool)
    : requested events ++ pool.queue = first.queue := by
  induction run with
  | done => rfl
  | @next events s after event _ stepped ih =>
      rw [← ih, requested_snoc, List.append_assoc]
      refine congrArg _ ?_
      cases stepped with
      | takes _ next => exact next.symm
      | stops | checks | drained | fetches | fails | raises | panics | joinsItems | joinsError
      | joinsPanic | finishes =>
          rfl

/-- Where every number and every unit is, as long as nothing has failed. -/
structure DetailPool.Accounts (pool : DetailPool) (events : List DetailEvent) : Prop where
  down : pool.failed = false
  untainted : ¬ pool.Tainted
  asked : (requested events : Multiset String)
    = ((fetchedUnits events).map Prod.fst : Multiset String) + ∑ w, (pool.workers w).asked
  held : ((fetchedUnits events).map Prod.snd : Multiset Detail)
    = (pool.all : Multiset Detail) + ∑ w, (pool.workers w).holds
  /-- A worker ends only when the queue is empty. -/
  drained : ∀ w, (¬ (pool.workers w).Runs) → pool.queue = []

/-- What balances for the worker that moves balances for all of them. -/
theorem balance_moves {M : Type} [AddCancelCommMonoid M] {w : Fin detailFetchesInParallel}
    {worker : DetailWorker} {count : DetailWorker → M} {whole rest part part' : M}
    (balanced : whole = rest + ∑ v, count (pool.workers v))
    (moved : part + count (pool.workers w) = part' + count worker)
    : whole + part = rest + part' + ∑ v, count ((pool.moves w worker).workers v) := by
  refine add_right_cancel (b := count (pool.workers w)) ?_
  calc whole + part + count (pool.workers w)
      = rest + part' + (∑ v, count (pool.workers v) + count worker) := by
        rw [add_assoc, moved, balanced]
        abel
    _ = rest + part' + ∑ v, count ((pool.moves w worker).workers v)
        + count (pool.workers w) := by
        rw [← pool.sum_moves w worker count]
        abel

/-- A clean step keeps the accounts. -/
theorem DetailPool.Accounts.step (accounts : pool.Accounts events)
    (stepped : DetailStep ask pool event after) (clean : event.failure? = none)
    (untainted : ¬ after.Tainted)
    : after.Accounts (events ++ [event]) := by
  -- one worker moves, and what it takes, fetches or hands over is all that changes
  have moves {w : Fin detailFetchesInParallel} {worker : DetailWorker} {items : List Detail}
      (workers : after.workers = (pool.moves w worker).workers)
      (down : after.failed = false)
      (asked : (event.requested?.toList : Multiset String) + (pool.workers w).asked
        = (event.fetched?.map Prod.fst).toList + worker.asked)
      (held : ((event.fetched?.map Prod.snd).toList : Multiset Detail) + (pool.workers w).holds
        = items + worker.holds)
      (all : after.all = pool.all ++ items)
      (drained : ∀ v, ¬ (after.workers v).Runs → after.queue = [])
      : after.Accounts (events ++ [event]) := by
    refine ⟨down, untainted, ?_, ?_, drained⟩
    · rw [requested_snoc, fetchedUnits_snoc, List.map_append, ← Multiset.coe_add,
        ← Multiset.coe_add, workers, ← Option.toList_map]
      exact balance_moves accounts.asked asked
    · rw [fetchedUnits_snoc, List.map_append, ← Multiset.coe_add, workers, all,
        ← Multiset.coe_add, ← Option.toList_map]
      exact balance_moves accounts.held held
  have others {w : Fin detailFetchesInParallel} {worker : DetailWorker}
      (workers : after.workers = (pool.moves w worker).workers) (runs : worker.Runs)
      (v : Fin detailFetchesInParallel) (ended : ¬ (after.workers v).Runs)
      : pool.queue = [] := by
    by_cases same : v = w
    · subst same
      rw [workers, DetailPool.moves_self] at ended
      exact absurd runs ended
    · rw [workers, DetailPool.moves_other same] at ended
      exact accounts.drained v ended
  cases stepped with
  | stops _ raised => cases accounts.down.symm.trans raised
  | checks here _ =>
      exact moves rfl accounts.down (by rw [here]; rfl) (by rw [here]; rfl)
        (List.append_nil _).symm (others rfl trivial)
  | drained here empty =>
      exact moves rfl accounts.down (by rw [here]; rfl) (by rw [here]; rfl)
        (List.append_nil _).symm fun _ _ => empty
  | takes here next =>
      refine moves rfl accounts.down (by rw [here]; rfl) (by rw [here]; rfl)
        (List.append_nil _).symm fun v ended => ?_
      cases (others rfl trivial v ended).symm.trans next
  | @fetches w fetched orgnr detail here answered =>
      refine moves rfl accounts.down (by rw [here]; rfl) ?_ (List.append_nil _).symm
        (others rfl trivial)
      rw [here]
      change ([detail] : Multiset Detail) + (fetched : Multiset Detail)
        = ([] : List Detail) + ((fetched ++ [detail] : List Detail) : Multiset Detail)
      rw [← Multiset.coe_add, Multiset.coe_nil, zero_add, add_comm]
  | joinsItems _ here =>
      have ended : pool.queue = [] := accounts.drained _ (by rw [here]; exact id)
      exact moves rfl accounts.down (by rw [here]; rfl) (by rw [here]; exact add_comm _ _) rfl
        fun _ _ => ended
  | raises here | joinsError _ here | joinsPanic _ here =>
      exact absurd ⟨_, .worker (by rw [here]; rfl)⟩ accounts.untainted
  | fails | panics => cases clean
  | finishes =>
      refine ⟨accounts.down, untainted, ?_, ?_, accounts.drained⟩
      · simpa [requested_snoc, fetchedUnits_snoc, DetailEvent.requested?, DetailEvent.fetched?]
          using accounts.asked
      · simpa [fetchedUnits_snoc, DetailEvent.fetched?] using accounts.held

/-- Before any worker has begun there is nothing to account for. -/
theorem accounts_spawned : (DetailPool.spawned orgnrs).Accounts [] where
  down := rfl
  untainted := by
    rintro ⟨error, marks⟩
    cases marks with
    | worker carries => cases carries
    | first found => cases found
    | result ended => cases ended
  asked := by simp [requested, fetchedUnits, DetailPool.spawned, DetailWorker.asked]
  held := by simp [fetchedUnits, DetailPool.spawned, DetailWorker.holds]
  drained w ended := absurd trivial ended

/-- What is marked has been seen. -/
theorem marks_of_run {error : FetchError}
    (run : (detailPass ask orgnrs).Run (.spawned orgnrs) events pool) (marks : pool.Marks error)
    : ∃ event ∈ events, event.failure? = some error := by
  induction run with
  | done => exact absurd ⟨error, marks⟩ accounts_spawned.untainted
  | next earlier stepped ih =>
      rcases stepped.marks_cases marks with before | seen
      · obtain ⟨event, member, shown⟩ := ih before
        exact ⟨event, List.mem_append_left _ member, shown⟩
      · exact ⟨_, by simp, seen⟩

/-- What is seen is marked, to the end. -/
theorem tainted_of_run (run : (detailPass ask orgnrs).Run (.spawned orgnrs) events pool)
    (event : DetailEvent) (member : event ∈ events) (seen : event.failure? ≠ none)
    : pool.Tainted := by
  induction run with
  | done => cases member
  | next earlier stepped ih =>
      rcases List.mem_append.mp member with before | last
      · exact stepped.tainted (ih before)
      · exact stepped.taints (List.mem_singleton.mp last ▸ seen)

/-- A clean run keeps the accounts, from its first event on. -/
theorem accounts_of_run (run : (detailPass ask orgnrs).Run (.spawned orgnrs) events pool)
    (untainted : ¬ pool.Tainted)
    : pool.Accounts events := by
  induction run with
  | done => exact accounts_spawned
  | next earlier stepped ih =>
      have before := mt stepped.tainted untainted
      have clean := of_not_not (mt stepped.taints untainted)
      exact (ih before).step stepped clean untainted

theorem settled_of_run (run : (detailPass ask orgnrs).Run (.spawned orgnrs) events pool)
    : pool.Settled := by
  induction run with
  | done =>
      intro items result
      cases result
  | next _ stepped ih => exact stepped.settled ih

/-- What arrives is what the client may answer. -/
theorem answered_of_run {first : DetailPool}
    (run : (detailPass ask orgnrs).Run first events pool)
    : ∀ fetched ∈ fetchedUnits events, ask fetched.1 (.ok fetched.2) := by
  induction run with
  | done =>
      intro fetched member
      cases member
  | next _ stepped ih =>
      intro fetched member
      rw [fetchedUnits_snoc] at member
      rcases List.mem_append.mp member with before | last
      · exact ih fetched before
      · cases stepped with
        | fetches here answered =>
            rw [List.mem_singleton.mp last]
            exact answered
        | stops | checks | drained | takes | fails | raises | panics | joinsItems | joinsError
        | joinsPanic | finishes =>
            cases last

/-- What a finished detail pass has made of some numbers: the answers of all of them, each asked
for as often as it is listed, by organisation number; or a failure that some worker has seen.
-/
def PassOutcome (ask : String → Except SourceError Detail → Prop) (orgnrs : List String)
    (events : List DetailEvent)
    : Except FetchError (List Detail) → Prop
  | .ok items =>
      requested events = orgnrs
      ∧ (∀ event ∈ events, event.failure? = none)
      ∧ ∃ answers : List (String × Detail), (answers.map Prod.fst).Perm orgnrs
        ∧ (∀ answer ∈ answers, ask answer.1 (.ok answer.2))
        ∧ items.Perm (answers.map Prod.snd) ∧ items.Pairwise (·.1.orgnr ≤ ·.1.orgnr)
  | .error error => ∃ event ∈ events, event.failure? = some error

/-- The result of a pass, in whatever order its steps were taken. -/
theorem passOutcome_of_run {outcome : Except FetchError (List Detail)}
    (run : (detailPass ask orgnrs).Run (.spawned orgnrs) events pool)
    (result : pool.result = some outcome)
    : PassOutcome ask orgnrs events outcome := by
  cases outcome with
  | error error => exact marks_of_run run (.result result)
  | ok items =>
      have settled := settled_of_run run
      have untainted := settled.untainted result
      have accounts := accounts_of_run run untainted
      obtain ⟨joined, -, rfl⟩ := settled items result
      have empty : pool.queue = [] := accounts.drained ⟨0, by decide⟩ (by rw [joined]; exact id)
      have queue := requested_queue run
      rw [empty, List.append_nil] at queue
      refine ⟨queue, fun event member => ?_, fetchedUnits events, ?_, answered_of_run run, ?_,
        pairwise_sortOn _ _⟩
      · by_contra seen
        exact untainted (tainted_of_run run event member seen)
      · have asked := accounts.asked
        simp only [joined, DetailWorker.asked, Finset.sum_const_zero, add_zero] at asked
        rw [queue] at asked
        exact (Multiset.coe_eq_coe.mp asked).symm
      · have held := accounts.held
        simp only [joined, DetailWorker.holds, Finset.sum_const_zero, add_zero] at held
        exact (perm_sortOn _ _).trans (Multiset.coe_eq_coe.mp held).symm

/-- However the workers and the collector take turns, a number is asked for only as often as it is
listed, and a part of the answers is never the result.
-/
theorem detailPass_whole (run : (detailPass ask orgnrs).Run (.spawned orgnrs) events pool)
    : requested events <+: orgnrs
      ∧ ∀ outcome, pool.result = some outcome → PassOutcome ask orgnrs events outcome :=
  ⟨⟨pool.queue, requested_queue run⟩, fun _ result => passOutcome_of_run run result⟩

-----------------------------------------------------------------------------------------
-- The end of a pass

/-- The most steps that are left. -/
def DetailPool.stepsLeft (pool : DetailPool) : Nat :=
  3 * pool.queue.length + ∑ w, (pool.workers w).stepsLeft + (if pool.result.isNone then 1 else 0)

/-- How many workers are about to take a number. -/
def DetailPool.poised (pool : DetailPool) : Nat := ∑ w, (pool.workers w).poised

/-- Every step leaves fewer. -/
theorem DetailStep.stepsLeft_lt (stepped : DetailStep ask pool event after)
    : after.stepsLeft < pool.stepsLeft := by
  have moves {w : Fin detailFetchesInParallel} {worker : DetailWorker}
      (workers : after.workers = (pool.moves w worker).workers)
      (ended : after.result.isNone → pool.result.isNone)
      (less : 3 * after.queue.length + worker.stepsLeft
        < 3 * pool.queue.length + (pool.workers w).stepsLeft)
      : after.stepsLeft < pool.stepsLeft := by
    have moved := pool.sum_moves w worker DetailWorker.stepsLeft
    have results
        : (if after.result.isNone then 1 else 0) ≤ if pool.result.isNone then 1 else 0 := by
      by_cases running : after.result.isNone
      · rw [if_pos running, if_pos (ended running)]
      · rw [if_neg running]
        exact Nat.zero_le _
    unfold DetailPool.stepsLeft
    rw [workers]
    omega
  cases stepped with
  | stops here | checks here | drained here | fetches here | fails here | raises here
  | joinsItems _ here | joinsError _ here =>
      exact moves rfl id (by rw [here]; simp [DetailPool.moves, DetailWorker.stepsLeft])
  | takes here next =>
      exact moves rfl id (by rw [here, next]; simp [DetailWorker.stepsLeft]; omega)
  | @panics w here =>
      refine moves rfl id ?_
      have left : 1 < (pool.workers w).stepsLeft := by
        cases worker : pool.workers w with
        | checks | takes | asks | fails => simp [DetailWorker.stepsLeft]
        | returned | panicked | joined =>
            rw [worker] at here
            exact here.elim
      simpa [DetailPool.moves, DetailWorker.stepsLeft] using left
  | joinsPanic collecting here =>
      exact moves rfl (fun h => absurd h (by simp))
        (by rw [here]; simp [DetailPool.moves, DetailWorker.stepsLeft])
  | finishes collecting =>
      unfold DetailPool.stepsLeft
      rw [collecting]
      simp

/-- As long as there is no result somebody can step, when every request is answered. -/
theorem DetailPool.goes_on (answers : ∀ orgnr, ∃ outcome, ask orgnr outcome)
    (collecting : pool.result = none)
    : ∃ event after, DetailStep ask pool event after := by
  by_cases all : ∀ w, pool.workers w = .joined
  · exact ⟨_, _, .finishes collecting all⟩
  · obtain ⟨w, here⟩ := not_forall.mp all
    cases worker : pool.workers w with
    | checks fetched =>
        cases flag : pool.failed with
        | true => exact ⟨_, _, .stops worker flag⟩
        | false => exact ⟨_, _, .checks worker flag⟩
    | takes fetched =>
        cases queue : pool.queue with
        | nil => exact ⟨_, _, .drained worker queue⟩
        | cons orgnr rest => exact ⟨_, _, .takes worker queue⟩
    | asks orgnr fetched =>
        obtain ⟨outcome, answered⟩ := answers orgnr
        cases outcome with
        | ok detail => exact ⟨_, _, .fetches worker answered⟩
        | error error => exact ⟨_, _, .fails worker answered⟩
    | fails error => exact ⟨_, _, .raises worker⟩
    | returned outcome =>
        cases outcome with
        | ok items => exact ⟨_, _, .joinsItems collecting worker⟩
        | error error => exact ⟨_, _, .joinsError collecting worker⟩
    | panicked => exact ⟨_, _, .joinsPanic collecting worker⟩
    | joined => exact absurd worker here

/-- The flag is only raised by a worker that ends, and stays raised. -/
structure DetailPool.Flagged (pool : DetailPool) : Prop where
  ended : pool.failed = true → ∃ w, ¬ (pool.workers w).Runs

theorem DetailStep.stays_failed (stepped : DetailStep ask pool event after)
    (failed : pool.failed = true)
    : after.failed = true := by
  cases stepped with
  | raises => rfl
  | stops | checks | drained | takes | fetches | fails | panics | joinsItems | joinsError
  | joinsPanic | finishes =>
      exact failed

/-- A worker that has ended does not run again. -/
theorem DetailStep.stays_ended {v : Fin detailFetchesInParallel}
    (stepped : DetailStep ask pool event after) (ended : ¬ (pool.workers v).Runs)
    : ¬ (after.workers v).Runs := by
  have others {w : Fin detailFetchesInParallel} {worker : DetailWorker}
      (workers : after.workers = (pool.moves w worker).workers)
      (runs : (pool.workers w).Runs ∨ ¬ worker.Runs)
      : ¬ (after.workers v).Runs := by
    rw [workers]
    by_cases same : v = w
    · subst same
      rw [DetailPool.moves_self]
      exact runs.resolve_left ended
    · rwa [DetailPool.moves_other same]
  cases stepped with
  | stops here | checks here | drained here | takes here | fetches here | fails here
  | raises here =>
      exact others rfl (.inl (by rw [here]; trivial))
  | panics | joinsItems | joinsError | joinsPanic => exact others rfl (.inr id)
  | finishes => exact ended

theorem flagged_of_run (run : (detailPass ask orgnrs).Run (.spawned orgnrs) events pool)
    : pool.Flagged := by
  induction run with
  | done => exact ⟨fun failed => nomatch failed⟩
  | @next events s after event _ stepped ih =>
      refine ⟨fun failed => ?_⟩
      by_cases before : s.failed = true
      · obtain ⟨w, ended⟩ := ih.ended before
        exact ⟨w, stepped.stays_ended ended⟩
      · cases stepped with
        | raises => exact ⟨_, by rw [DetailPool.moves_self]; exact id⟩
        | stops | checks | drained | takes | fetches | fails | panics | joinsItems | joinsError
        | joinsPanic | finishes =>
            exact absurd failed before

/-- A worker that has ended is not about to take a number. -/
theorem DetailPool.Flagged.poised_lt (flagged : pool.Flagged) (failed : pool.failed = true)
    : pool.poised < detailFetchesInParallel := by
  obtain ⟨w, ended⟩ := flagged.ended failed
  have none : (pool.workers w).poised = 0 := by
    cases worker : pool.workers w with
    | takes =>
        rw [worker] at ended
        exact absurd trivial ended
    | checks | asks | fails | returned | panicked | joined => rfl
  have atMost (v : Fin detailFetchesInParallel) : (pool.workers v).poised ≤ 1 := by
    cases pool.workers v <;> simp [DetailWorker.poised]
  unfold DetailPool.poised
  rw [← Finset.add_sum_erase Finset.univ _ (Finset.mem_univ w), none, zero_add]
  refine (Finset.sum_le_card_nsmul _ _ 1 fun v _ => atMost v).trans_lt ?_
  rw [Finset.card_erase_of_mem (Finset.mem_univ w), Finset.card_univ, Fintype.card_fin]
  decide

/-- With the flag raised, only the workers that have passed it take another number. -/
theorem DetailStep.poised_le (stepped : DetailStep ask pool event after)
    (failed : pool.failed = true)
    : after.poised + event.requested?.toList.length ≤ pool.poised := by
  have moves {w : Fin detailFetchesInParallel} {worker : DetailWorker}
      (workers : after.workers = (pool.moves w worker).workers)
      (taken : worker.poised + event.requested?.toList.length ≤ (pool.workers w).poised)
      : after.poised + event.requested?.toList.length ≤ pool.poised := by
    have moved := pool.sum_moves w worker DetailWorker.poised
    unfold DetailPool.poised
    rw [workers]
    omega
  cases stepped with
  | stops here | drained here | takes here | fetches here | fails here | raises here
  | joinsItems _ here | joinsError _ here | joinsPanic _ here =>
      exact moves rfl (by simp [here, DetailWorker.poised, DetailEvent.requested?])
  | checks here down => cases failed.symm.trans down
  | panics => exact moves rfl (Nat.zero_le _)
  | finishes => exact Nat.le_refl _

/-- No pass takes more than three steps for each number and thirteen for the workers and the
collector, no pass without a result is stuck, and once the flag of a failure is raised fewer
requests begin than there are workers.
-/
theorem detailPass_ends (answers : ∀ orgnr, ∃ outcome, ask orgnr outcome)
    (run : (detailPass ask orgnrs).Run (.spawned orgnrs) events pool)
    : events.length ≤ 3 * orgnrs.length + 13
      ∧ (pool.result = none → ∃ event after, DetailStep ask pool event after)
      ∧ ∀ later after, pool.failed = true → (detailPass ask orgnrs).Run pool later after →
        (requested later).length < detailFetchesInParallel := by
  refine ⟨?_, DetailPool.goes_on answers, fun later after failed rest => ?_⟩
  · have bound : events.length + pool.stepsLeft ≤ (DetailPool.spawned orgnrs).stepsLeft := by
      clear answers
      induction run with
      | done => simp
      | next _ stepped ih =>
          have less := stepped.stepsLeft_lt
          rw [List.length_append, List.length_singleton]
          omega
    have whole : (DetailPool.spawned orgnrs).stepsLeft = 3 * orgnrs.length + 13 := by
      have workers : ∑ w, ((DetailPool.spawned orgnrs).workers w).stepsLeft = 12 := by
        change ∑ w : Fin detailFetchesInParallel, 3 = 12
        rw [Finset.sum_const, Finset.card_univ, Fintype.card_fin]
        rfl
      rw [DetailPool.stepsLeft, workers]
      rfl
    omega
  · have bound
        : after.poised + (requested later).length ≤ pool.poised ∧ after.failed = true := by
      induction rest with
      | done => exact ⟨Nat.le_refl _, failed⟩
      | next _ stepped ih =>
          have less := stepped.poised_le ih.2
          rw [requested_snoc, List.length_append]
          exact ⟨by omega, stepped.stays_failed ih.2⟩
    have few := (flagged_of_run run).poised_lt failed
    omega

-----------------------------------------------------------------------------------------
-- Passes over one number and over two

/-- A worker that finds the queue empty. -/
theorem drains {first : DetailPool} (run : (detailPass ask orgnrs).Run first events pool)
    {w : Fin detailFetchesInParallel} {fetched : List Detail}
    (here : pool.workers w = .checks fetched) (down : pool.failed = false)
    (empty : pool.queue = [])
    : (detailPass ask orgnrs).Run first (events ++ [.checks w] ++ [.takes w none])
        ((pool.moves w (.takes fetched)).moves w (.returned (.ok fetched))) :=
  .next (.next run (.checks here down)) (.drained DetailPool.moves_self empty)

/-- One worker fetches the number, the others find the queue empty, and all are joined. -/
theorem run_of_one {orgnr : String} {detail : Detail} (answered : ask orgnr (.ok detail))
    : ∃ events pool, (detailPass ask [orgnr]).Run (.spawned [orgnr]) events pool
      ∧ pool.result = some (.ok [detail]) := by
  have spawned : (detailPass ask [orgnr]).Run (.spawned [orgnr]) [] (.spawned [orgnr]) := .done
  have taken := (spawned.next (.checks (w := ⟨0, by decide⟩) rfl rfl)).next
    (.takes DetailPool.moves_self rfl)
  have fetched := drains (taken.next (.fetches DetailPool.moves_self answered))
    DetailPool.moves_self rfl rfl
  have drained := drains (drains (drains fetched (w := ⟨1, by decide⟩) rfl rfl rfl)
    (w := ⟨2, by decide⟩) rfl rfl rfl) (w := ⟨3, by decide⟩) rfl rfl rfl
  have joined := ((drained.next (.joinsItems (w := ⟨0, by decide⟩) rfl rfl)).next
    (.joinsItems (w := ⟨1, by decide⟩) rfl rfl)).next
    (.joinsItems (w := ⟨2, by decide⟩) rfl rfl)
  have all := joined.next (.joinsItems (w := ⟨3, by decide⟩) rfl rfl)
  refine ⟨_, _, all.next (.finishes rfl fun w => ?_), rfl⟩
  fin_cases w <;> rfl

/-- Two workers fetch a number each, the second is answered first, and all are joined. -/
theorem run_of_two {one other : String} {detail detail' : Detail}
    (answered : ask one (.ok detail)) (answered' : ask other (.ok detail'))
    : ∃ events pool, (detailPass ask [one, other]).Run (.spawned [one, other]) events pool
      ∧ pool.result = some (.ok (sortOn (·.1.orgnr) [detail', detail])) := by
  have spawned : (detailPass ask [one, other]).Run (.spawned [one, other]) []
      (.spawned [one, other]) := .done
  have passed := (spawned.next (.checks (w := ⟨0, by decide⟩) rfl rfl)).next
    (.checks (w := ⟨1, by decide⟩) rfl rfl)
  have taken := (passed.next (.takes (w := ⟨0, by decide⟩) rfl rfl)).next
    (.takes (w := ⟨1, by decide⟩) rfl rfl)
  have fetched := (taken.next (.fetches (w := ⟨1, by decide⟩) rfl answered')).next
    (.fetches (w := ⟨0, by decide⟩) rfl answered)
  have drained := drains (drains (drains (drains fetched (w := ⟨0, by decide⟩) rfl rfl rfl)
    (w := ⟨1, by decide⟩) rfl rfl rfl) (w := ⟨2, by decide⟩) rfl rfl rfl)
    (w := ⟨3, by decide⟩) rfl rfl rfl
  have joined := ((drained.next (.joinsItems (w := ⟨1, by decide⟩) rfl rfl)).next
    (.joinsItems (w := ⟨0, by decide⟩) rfl rfl)).next
    (.joinsItems (w := ⟨2, by decide⟩) rfl rfl)
  have all := joined.next (.joinsItems (w := ⟨3, by decide⟩) rfl rfl)
  refine ⟨_, _, all.next (.finishes rfl fun w => ?_), rfl⟩
  fin_cases w <;> rfl

/-- Two workers pass the flag, the first fails on its number and raises the flag, and the second
takes a number after that and fetches it. The pass ends with the failure.
-/
theorem run_of_failure {one other : String} {error : SourceError} {detail : Detail}
    (failed : ask one (.error error)) (answered : ask other (.ok detail))
    : ∃ earlier raised later pool,
        (detailPass ask [one, other]).Run (.spawned [one, other]) earlier raised
        ∧ raised.failed = true ∧ raised.result = none
        ∧ (detailPass ask [one, other]).Run raised later pool
        ∧ requested later = [other] ∧ pool.result = some (.error (.source error)) := by
  have spawned : (detailPass ask [one, other]).Run (.spawned [one, other]) []
      (.spawned [one, other]) := .done
  have passed := (spawned.next (.checks (w := ⟨0, by decide⟩) rfl rfl)).next
    (.checks (w := ⟨1, by decide⟩) rfl rfl)
  have raised := ((passed.next (.takes (w := ⟨0, by decide⟩) rfl rfl)).next
    (.fails (w := ⟨0, by decide⟩) rfl failed)).next (.raises (w := ⟨0, by decide⟩) rfl)
  have afresh {s : DetailPool} {events : List DetailEvent}
      (_ : (detailPass ask [one, other]).Run (.spawned [one, other]) events s)
      : (detailPass ask [one, other]).Run s [] s := .done
  have fetched := ((afresh raised).next (.takes (w := ⟨1, by decide⟩) rfl rfl)).next
    (.fetches (w := ⟨1, by decide⟩) rfl answered)
  have stopped := ((fetched.next (.stops (w := ⟨1, by decide⟩) rfl rfl)).next
    (.stops (w := ⟨2, by decide⟩) rfl rfl)).next (.stops (w := ⟨3, by decide⟩) rfl rfl)
  have joined := ((stopped.next (.joinsError (w := ⟨0, by decide⟩) rfl rfl)).next
    (.joinsItems (w := ⟨1, by decide⟩) rfl rfl)).next
    (.joinsItems (w := ⟨2, by decide⟩) rfl rfl)
  have all := joined.next (.joinsItems (w := ⟨3, by decide⟩) rfl rfl)
  refine ⟨_, _, _, _, raised, rfl, rfl, all.next (.finishes rfl fun w => ?_), rfl, rfl⟩
  fin_cases w <;> rfl

end

/-- A client that answers every number with its unit, but for one that it cannot answer. -/
def sampleAsk (orgnr : String) (outcome : Except SourceError Detail) : Prop :=
  outcome = if orgnr = "975278999" then .error ⟨.nsr, .status 404⟩
    else .ok (sampleUnit orgnr "Hosle skole" true, [])

/-- The answers of two workers are the result, in the order of the numbers. -/
theorem detailPass_whole_sample
    : ∃ events, PassOutcome sampleAsk ["975278964", "975278972"] events
        (.ok [(sampleUnit "975278964" "Hosle skole" true, []),
          (sampleUnit "975278972" "Hosle skole" true, [])]) := by
  obtain ⟨events, pool, run, result⟩ := run_of_two
    (show sampleAsk "975278964" (.ok (sampleUnit "975278964" "Hosle skole" true, [])) from rfl)
    (show sampleAsk "975278972" (.ok (sampleUnit "975278972" "Hosle skole" true, [])) from rfl)
  exact ⟨events, (detailPass_whole run).2 _ (result.trans rfl)⟩

/-- After a failure one more number is asked for, and the pass ends. -/
theorem detailPass_ends_sample
    : ∃ earlier raised later pool,
        (detailPass sampleAsk ["975278999", "975278972"]).Run
          (.spawned ["975278999", "975278972"]) (earlier ++ later) pool
        ∧ (earlier ++ later).length ≤ 19
        ∧ raised.failed = true ∧ (∃ event after, DetailStep sampleAsk raised event after)
        ∧ requested later = ["975278972"] ∧ (requested later).length < detailFetchesInParallel
        ∧ pool.result = some (.error (.source ⟨.nsr, .status 404⟩)) := by
  obtain ⟨earlier, raised, later, pool, before, failed, collecting, rest, asked, result⟩ :=
    run_of_failure
    (show sampleAsk "975278999" (.error ⟨.nsr, .status 404⟩) from rfl)
    (show sampleAsk "975278972" (.ok (sampleUnit "975278972" "Hosle skole" true, [])) from rfl)
  have answers (orgnr : String) : ∃ outcome, sampleAsk orgnr outcome := ⟨_, rfl⟩
  have run := before.trans rest
  exact ⟨earlier, raised, later, pool, run, (detailPass_ends answers run).1, failed,
    (detailPass_ends answers before).2.1 collecting, asked,
    (detailPass_ends answers before).2.2 _ _ failed rest, result⟩

end FauPortalen.Register

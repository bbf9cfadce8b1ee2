import FauPortalen.Foundations.EventSystems
import FauPortalen.Foundations.Grouping
import FauPortalen.Register.Fetch.Nsr
import Mathlib.Data.String.Basic

/-! The detail pass: four workers that drain one queue of organisation numbers, and the collector
that joins them in the order in which they end.
-/

set_option linter.unusedSectionVars false

namespace FauPortalen.Register

open Foundations

-----------------------------------------------------------------------------------------
-- Workers and events

/-- A unit with the bytes it was read from. -/
abbrev Detail : Type := NsrUnit × List UInt8

/-- Why a fetch failed: a source's error, or a worker that panicked or was cancelled. -/
inductive FetchError
  | source (error : SourceError)
  | workerPanicked
deriving DecidableEq

def detailFetchesInParallel : Nat := 4

/-- Where a worker is in its loop, with what it has fetched. -/
inductive DetailWorker
  /-- Before it reads the flag of a failure. -/
  | checks (fetched : List Detail)
  /-- Before it takes the next number. -/
  | takes (fetched : List Detail)
  /-- It waits for the answer to a number. -/
  | asks (orgnr : String) (fetched : List Detail)
  /-- Before it raises the flag. -/
  | fails (error : SourceError)
  | returned (outcome : Except SourceError (List Detail))
  | panicked
  /-- The collector has its outcome. -/
  | joined

structure DetailPool where
  /-- What is left of the queue. -/
  queue : List String
  failed : Bool
  workers : Fin detailFetchesInParallel → DetailWorker
  /-- What the collector has. -/
  all : List Detail
  firstError : Option FetchError
  result : Option (Except FetchError (List Detail))

inductive DetailEvent
  | checks (w : Fin detailFetchesInParallel)
  | takes (w : Fin detailFetchesInParallel) (orgnr : Option String)
  | answers (w : Fin detailFetchesInParallel) (orgnr : String)
      (outcome : Except SourceError Detail)
  | raises (w : Fin detailFetchesInParallel)
  | panics (w : Fin detailFetchesInParallel)
  | joins (w : Fin detailFetchesInParallel)
  | finishes

namespace DetailPool

/-- Before any worker has begun. -/
def spawned (orgnrs : List String) : DetailPool where
  queue := orgnrs
  failed := false
  workers _ := .checks []
  all := []
  firstError := none
  result := none

def moves (pool : DetailPool) (w : Fin detailFetchesInParallel) (worker : DetailWorker)
    : DetailPool :=
  { pool with workers := Function.update pool.workers w worker }

variable {pool : DetailPool} {v w : Fin detailFetchesInParallel} {worker : DetailWorker}

@[simp]
theorem moves_self : (pool.moves w worker).workers w = worker :=
  Function.update_self ..

theorem moves_other (ne : v ≠ w) : (pool.moves w worker).workers v = pool.workers v :=
  Function.update_of_ne ne ..

end DetailPool

/-- A worker that has neither ended nor been joined. -/
def DetailWorker.Runs : DetailWorker → Prop
  | .checks _ | .takes _ | .asks _ _ | .fails _ => True
  | .returned _ | .panicked | .joined => False

/-- The steps of the workers and of the collector. `ask` is what the client may answer; a worker
that runs may panic or be cancelled.
-/
inductive DetailStep (ask : String → Except SourceError Detail → Prop)
    : DetailPool → DetailEvent → DetailPool → Prop
  | stops {pool : DetailPool} {w : Fin detailFetchesInParallel} {fetched : List Detail}
      (here : pool.workers w = .checks fetched) (raised : pool.failed = true)
    : DetailStep ask pool (.checks w) (pool.moves w (.returned (.ok fetched)))
  | checks {pool : DetailPool} {w : Fin detailFetchesInParallel} {fetched : List Detail}
      (here : pool.workers w = .checks fetched) (down : pool.failed = false)
    : DetailStep ask pool (.checks w) (pool.moves w (.takes fetched))
  | drained {pool : DetailPool} {w : Fin detailFetchesInParallel} {fetched : List Detail}
      (here : pool.workers w = .takes fetched) (empty : pool.queue = [])
    : DetailStep ask pool (.takes w none) (pool.moves w (.returned (.ok fetched)))
  | takes {pool : DetailPool} {w : Fin detailFetchesInParallel} {fetched : List Detail}
      {orgnr : String} {rest : List String}
      (here : pool.workers w = .takes fetched) (next : pool.queue = orgnr :: rest)
    : DetailStep ask pool (.takes w (some orgnr))
        { pool.moves w (.asks orgnr fetched) with queue := rest }
  | fetches {pool : DetailPool} {w : Fin detailFetchesInParallel} {fetched : List Detail}
      {orgnr : String} {detail : Detail}
      (here : pool.workers w = .asks orgnr fetched) (answered : ask orgnr (.ok detail))
    : DetailStep ask pool (.answers w orgnr (.ok detail))
        (pool.moves w (.checks (fetched ++ [detail])))
  | fails {pool : DetailPool} {w : Fin detailFetchesInParallel} {fetched : List Detail}
      {orgnr : String} {error : SourceError}
      (here : pool.workers w = .asks orgnr fetched) (answered : ask orgnr (.error error))
    : DetailStep ask pool (.answers w orgnr (.error error)) (pool.moves w (.fails error))
  | raises {pool : DetailPool} {w : Fin detailFetchesInParallel} {error : SourceError}
      (here : pool.workers w = .fails error)
    : DetailStep ask pool (.raises w)
        { pool.moves w (.returned (.error error)) with failed := true }
  | panics {pool : DetailPool} {w : Fin detailFetchesInParallel}
      (here : (pool.workers w).Runs)
    : DetailStep ask pool (.panics w) (pool.moves w .panicked)
  | joinsItems {pool : DetailPool} {w : Fin detailFetchesInParallel} {items : List Detail}
      (collecting : pool.result = none) (here : pool.workers w = .returned (.ok items))
    : DetailStep ask pool (.joins w) { pool.moves w .joined with all := pool.all ++ items }
  | joinsError {pool : DetailPool} {w : Fin detailFetchesInParallel} {error : SourceError}
      (collecting : pool.result = none) (here : pool.workers w = .returned (.error error))
    : DetailStep ask pool (.joins w)
        { pool.moves w .joined with
          firstError := some (pool.firstError.getD (.source error)) }
  | joinsPanic {pool : DetailPool} {w : Fin detailFetchesInParallel}
      (collecting : pool.result = none) (here : pool.workers w = .panicked)
    : DetailStep ask pool (.joins w)
        { pool.moves w .joined with result := some (.error .workerPanicked) }
  | finishes {pool : DetailPool} (collecting : pool.result = none)
      (all : ∀ w, pool.workers w = .joined)
    : DetailStep ask pool .finishes
        { pool with
          result := some (match pool.firstError with
            | some error => .error error
            | none => .ok (sortOn (·.1.orgnr) pool.all)) }

/-- The detail pass over some numbers. -/
def detailPass (ask : String → Except SourceError Detail → Prop) (orgnrs : List String)
    : EventSystem DetailPool DetailEvent where
  start pool := pool = .spawned orgnrs
  step := DetailStep ask

end FauPortalen.Register

import Mathlib.Data.List.Basic

/-! Systems whose steps are events, their runs with the events in order, and the runs whose
events all meet a condition.
-/

namespace FauPortalen.Foundations

/-- The states a system starts in, and what each event may lead to. -/
structure EventSystem (σ ε : Type) where
  start : σ → Prop
  step : σ → ε → σ → Prop

namespace EventSystem

variable {σ ε : Type}

/-- The events lead, one after the other, from the first state to the last. -/
inductive Run (system : EventSystem σ ε) (first : σ) : List ε → σ → Prop
  | done : Run system first [] first
  | next {events : List ε} {s after : σ} {event : ε} (earlier : Run system first events s)
      (stepped : system.step s event after)
    : Run system first (events ++ [event]) after

/-- The system has a run to the state. -/
inductive Reachable (system : EventSystem σ ε) : σ → Prop
  | start {s : σ} (starts : system.start s) : Reachable system s
  | step {s after : σ} {event : ε} (reached : Reachable system s)
      (stepped : system.step s event after)
    : Reachable system after

/-- The system that takes only the allowed events. -/
def restrict (system : EventSystem σ ε) (allowed : σ → ε → Prop) : EventSystem σ ε where
  start := system.start
  step s event after := allowed s event ∧ system.step s event after

variable {system : EventSystem σ ε} {allowed : σ → ε → Prop} {first s after : σ}
  {events later : List ε} {event : ε}

theorem Run.single (stepped : system.step s event after) : system.Run s [event] after :=
  .next .done stepped

theorem Run.trans (earlier : system.Run first events s) (rest : system.Run s later after)
    : system.Run first (events ++ later) after := by
  induction rest with
  | done => exact (List.append_nil events).symm ▸ earlier
  | next _ stepped ih => exact List.append_assoc .. ▸ .next ih stepped

/-- A run goes on from any state that is reached. -/
theorem Reachable.run (reached : system.Reachable s) (run : system.Run s events after)
    : system.Reachable after := by
  induction run with
  | done => exact reached
  | next _ stepped ih => exact ih.step stepped

/-- What holds at every start and is kept by every step holds in every reachable state. -/
theorem Reachable.keeps {I : σ → Prop} (starts : ∀ s, system.start s → I s)
    (kept : ∀ s event after, I s → system.step s event after → I after)
    (reached : system.Reachable s)
    : I s := by
  induction reached with
  | start begun => exact starts _ begun
  | step _ stepped ih => exact kept _ _ _ ih stepped

/-- What holds in a reachable state, and is kept by every step from one, holds along every run
from there.
-/
theorem Run.keeps {P : σ → Prop}
    (kept : ∀ s event after, system.Reachable s → P s → system.step s event after → P after)
    (run : system.Run s events after) (reached : system.Reachable s) (holds : P s)
    : P after := by
  induction run with
  | done => exact holds
  | next earlier stepped ih => exact kept _ _ _ (reached.run earlier) ih stepped

/-- What every step keeps, and what no event is where that holds, no event along a run is. -/
theorem Run.never {P : σ → Prop} {Ruled : ε → Prop}
    (kept : ∀ s event after, P s → system.step s event after → P after)
    (never : ∀ s event after, P s → system.step s event after → ¬ Ruled event)
    (run : system.Run s events after) (holds : P s)
    : P after ∧ ∀ event ∈ events, ¬ Ruled event := by
  induction run with
  | done => exact ⟨holds, by simp⟩
  | next earlier stepped ih =>
      obtain ⟨before, ruledOut⟩ := ih
      refine ⟨kept _ _ _ before stepped, fun event inside => ?_⟩
      rcases List.mem_append.mp inside with old | last
      · exact ruledOut event old
      · rw [List.mem_singleton.mp last]
        exact never _ _ _ before stepped

/-- What every step relates, and what relates itself and composes, every run relates. -/
theorem Run.related {R : σ → σ → Prop} (refl : ∀ s, R s s)
    (trans : ∀ s middle after, R s middle → R middle after → R s after)
    (stepped : ∀ s event after, system.step s event after → R s after)
    (run : system.Run s events after)
    : R s after := by
  induction run with
  | done => exact refl s
  | next _ step ih => exact trans _ _ _ ih (stepped _ _ _ step)

/-- A restricted run is a run. -/
theorem Run.of_restrict (run : (system.restrict allowed).Run s events after)
    : system.Run s events after := by
  induction run with
  | done => exact .done
  | next _ stepped ih => exact .next ih stepped.2

theorem Reachable.of_restrict (reached : (system.restrict allowed).Reachable s)
    : system.Reachable s := by
  induction reached with
  | start begun => exact .start begun
  | step _ stepped ih => exact ih.step stepped.2

end EventSystem

end FauPortalen.Foundations

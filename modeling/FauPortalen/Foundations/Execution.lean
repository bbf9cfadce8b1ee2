import Mathlib.Logic.Relation

/-! Transition systems: where a system starts, the steps it takes, and what then holds in every
state it reaches and from any of them on.
-/

namespace FauPortalen.Foundations

/-- The states a system starts in and the steps between its states. -/
structure TransitionSystem (σ : Type) where
  start : σ → Prop
  step : σ → σ → Prop

namespace TransitionSystem

variable {σ : Type} (system : TransitionSystem σ)

/-- Some steps, or none, lead from the first state to the second. -/
def Leads : σ → σ → Prop := Relation.ReflTransGen system.step

/-- The system has a run to the state. -/
inductive Reachable : σ → Prop
  | start {s : σ} (starts : system.start s) : Reachable s
  | step {s after : σ} (reached : Reachable s) (stepped : system.step s after) : Reachable after

variable {system}

theorem Leads.trans {s middle after : σ} (first : system.Leads s middle)
    (second : system.Leads middle after)
    : system.Leads s after :=
  Relation.ReflTransGen.trans first second

theorem Leads.single {s after : σ} (stepped : system.step s after) : system.Leads s after :=
  Relation.ReflTransGen.single stepped

/-- A run goes on from any state it has reached. -/
theorem Reachable.leads {s after : σ} (reached : system.Reachable s)
    (run : system.Leads s after)
    : system.Reachable after := by
  induction run with
  | refl => exact reached
  | tail _ stepped ih => exact ih.step stepped

/-- What holds at every start and is kept by every step holds wherever the system comes. -/
theorem Reachable.keeps {I : σ → Prop} (starts : ∀ s, system.start s → I s)
    (kept : ∀ s after, I s → system.step s after → I after) {s : σ}
    (reached : system.Reachable s)
    : I s := by
  induction reached with
  | start begun => exact starts _ begun
  | step _ stepped ih => exact kept _ _ ih stepped

/-- What holds in one reachable state and is kept by every step from a reachable state holds
from there on.
-/
theorem Leads.keeps {P : σ → Prop}
    (kept : ∀ s after, system.Reachable s → P s → system.step s after → P after)
    {s after : σ} (run : system.Leads s after) (reached : system.Reachable s) (holds : P s)
    : P after := by
  induction run with
  | refl => exact holds
  | tail earlier stepped ih => exact kept _ _ (reached.leads earlier) ih stepped

/-- What every step relates, and what relates itself and composes, is related by every run. -/
theorem Leads.related {R : σ → σ → Prop} (refl : ∀ s, R s s)
    (trans : ∀ s middle after, R s middle → R middle after → R s after)
    (stepped : ∀ s after, system.step s after → R s after) {s after : σ}
    (run : system.Leads s after)
    : R s after := by
  induction run with
  | refl => exact refl s
  | tail _ step ih => exact trans _ _ _ ih (stepped _ _ step)

end TransitionSystem

end FauPortalen.Foundations

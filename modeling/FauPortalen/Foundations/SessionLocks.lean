import Mathlib.Logic.Function.Basic

/-! Processes around a shared state with one lock that belongs to a session: a process that holds
it keeps it until its session ends, and the processes take turns in any order.
-/

namespace FauPortalen.Foundations

/-- The shared state, the process that has the lock, and the processes. -/
structure Sessions (ρ σ π : Type) where
  shared : σ
  lock : Option ρ
  process : ρ → π

namespace Sessions

variable {ρ σ π τ : Type} [DecidableEq ρ]

/-- One process goes on. Whether it holds the lock afterwards is for it to say; when it does not,
a lock it had is free.
-/
def turn (holds : π → Bool) (s : Sessions ρ σ π) (p : ρ) (process : π) (shared : σ)
    : Sessions ρ σ π where
  shared := shared
  lock := if holds process then some p else if s.lock = some p then none else s.lock
  process := Function.update s.process p process

variable {holds : π → Bool} {s : Sessions ρ σ π} {p q : ρ} {process : π} {shared : σ}

@[simp]
theorem turn_shared : (s.turn holds p process shared).shared = shared := rfl

@[simp]
theorem turn_process_self : (s.turn holds p process shared).process p = process :=
  Function.update_self ..

theorem turn_process_other (other : q ≠ p)
    : (s.turn holds p process shared).process q = s.process q :=
  Function.update_of_ne other ..

-----------------------------------------------------------------------------------------
-- Exclusion

/-- Whoever holds the lock has it. -/
def Guarded (holds : π → Bool) (s : Sessions ρ σ π) : Prop :=
  ∀ p, holds (s.process p) = true → s.lock = some p

omit [DecidableEq ρ] in
/-- Two holders are one process. -/
theorem Guarded.exclusive (h : s.Guarded holds) (left : holds (s.process p) = true)
    (right : holds (s.process q) = true)
    : p = q :=
  Option.some_inj.mp ((h p left).symm.trans (h q right))

/-- A process that starts to hold the lock found it free. -/
theorem Guarded.turn (h : s.Guarded holds)
    (takes : holds process = true → holds (s.process p) = true ∨ s.lock = none)
    : (s.turn holds p process shared).Guarded holds := by
  intro q holding
  by_cases own : q = p
  · subst own
    rw [turn_process_self] at holding
    exact if_pos holding
  · rw [turn_process_other own] at holding
    have known := h q holding
    have differ : s.lock ≠ some p := fun same => own (Option.some_inj.mp (known.symm.trans same))
    have free : holds process ≠ true := by
      intro taken
      rcases takes taken with already | free
      · exact differ (h p already)
      · rw [free] at known
        cases known
    exact (if_neg free).trans ((if_neg differ).trans known)

-----------------------------------------------------------------------------------------
-- What a holder remembers

/-- What a holder remembers of the shared state is still so. -/
def Current (holds : π → Bool) (remembers : π → Option τ) (view : σ → τ) (s : Sessions ρ σ π)
    : Prop :=
  ∀ p, holds (s.process p) = true → ∀ seen, remembers (s.process p) = some seen →
    view s.shared = seen

/-- When only a holder changes what is remembered, no holder's memory goes stale. -/
theorem Current.turn {remembers : π → Option τ} {view : σ → τ} (h : s.Current holds remembers view)
    (guarded : s.Guarded holds)
    (own : holds process = true → ∀ seen, remembers process = some seen → view shared = seen)
    (apart : view shared = view s.shared ∨ holds (s.process p) = true)
    : (s.turn holds p process shared).Current holds remembers view := by
  intro q holding seen remembered
  by_cases same : q = p
  · subst same
    rw [turn_process_self] at holding remembered
    exact own holding seen remembered
  · rw [turn_process_other same] at holding remembered
    rcases apart with kept | held
    · exact kept.trans (h q holding seen remembered)
    · exact absurd (guarded.exclusive holding held) same

end Sessions

end FauPortalen.Foundations

import Mathlib.Init

/-! Scripts: programs that change a world and may leave it early, and triples about the world
a script leaves. An early exit has an assertion of its own, because it skips the rest.
-/

namespace FauPortalen.Foundations

/-- A program that changes a world of type `ω` and may exit early. -/
abbrev Script (ω ε : Type) : Type → Type := ExceptT ε (StateM ω)

namespace Script

variable {ω ε α β : Type}

/-- The world after a script, however it ended. -/
def world (script : Script ω ε α) (w : ω) : ω := (script.run.run w).2

/-- From worlds that satisfy `P` the script ends with a value and a world that satisfy `Q`,
or exits with a world that satisfies `E`.
-/
def Triple (P : ω → Prop) (script : Script ω ε α) (Q : α → ω → Prop) (E : ω → Prop) : Prop :=
  ∀ w, P w → match script.run.run w with
    | (.ok a, after) => Q a after
    | (.error _, after) => E after

variable {P P' : ω → Prop} {Q Q' : α → ω → Prop} {R : β → ω → Prop} {E : ω → Prop}
  {script : Script ω ε α}

theorem Triple.pure {a : α} (h : ∀ w, P w → Q a w)
    : Triple P (Pure.pure a : Script ω ε α) Q E :=
  h

theorem Triple.throw {e : ε} (h : ∀ w, P w → E w)
    : Triple P (throwThe ε e : Script ω ε α) Q E :=
  h

/-- The assertion between two scripts is what the first one ends with. -/
theorem Triple.bind {next : α → Script ω ε β} (first : Triple P script Q E)
    (second : ∀ a, Triple (Q a) (next a) R E)
    : Triple P (script >>= next) R E := by
  intro w start
  have reached := first w start
  have unfolded : (script >>= next).run.run w
      = match script.run.run w with
        | (.ok a, after) => (next a).run.run after
        | (.error e, after) => (.error e, after) := by
    simp only [ExceptT.run_bind, StateT.run_bind]
    rcases script.run.run w with ⟨_ | a, after⟩ <;> rfl
  rw [unfolded]
  rcases outcome : script.run.run w with ⟨e | a, after⟩
  · rw [outcome] at reached
    exact reached
  · rw [outcome] at reached
    exact second a after reached

/-- A script may be left with less claimed, however it ends. -/
theorem Triple.weaken {E' : ω → Prop} (h : Triple P script Q' E')
    (leave : ∀ a w, Q' a w → Q a w) (exits : ∀ w, E' w → E w)
    : Triple P script Q E := by
  intro w start
  have reached := h w start
  rcases outcome : script.run.run w with ⟨e | a, after⟩
  · rw [outcome] at reached
    exact exits after reached
  · rw [outcome] at reached
    exact leave a after reached

/-- A script may be entered with more known and left with less claimed. -/
theorem Triple.mono (h : Triple P' script Q' E) (enter : ∀ w, P w → P' w)
    (leave : ∀ a w, Q' a w → Q a w)
    : Triple P script Q E :=
  Triple.weaken (fun w start => h w (enter w start)) leave fun _ exits => exits

/-- A loop over a list keeps what every pass keeps. -/
theorem Triple.forM {body : α → Script ω ε PUnit} {elements : List α}
    (keeps : ∀ element ∈ elements, Triple P (body element) (fun _ => P) E)
    : Triple P (elements.forM body) (fun _ => P) E := by
  induction elements with
  | nil => exact .pure fun _ kept => kept
  | cons head rest ih =>
      refine .bind (keeps head List.mem_cons_self) fun _ => ?_
      exact ih fun element inside => keeps element (List.mem_cons_of_mem _ inside)

/-- A loop with an accumulator keeps what every pass keeps. -/
theorem Triple.foldlM {step : β → α → Script ω ε β} {elements : List α} {start : β}
    (keeps : ∀ b, ∀ element ∈ elements, Triple P (step b element) (fun _ => P) E)
    : Triple P (elements.foldlM step start) (fun _ => P) E := by
  induction elements generalizing start with
  | nil => exact .pure fun _ kept => kept
  | cons head rest ih =>
      rw [List.foldlM_cons]
      refine .bind (keeps start head List.mem_cons_self) fun b => ?_
      exact ih fun b element inside => keeps b element (List.mem_cons_of_mem _ inside)

/-- The world a script leaves satisfies one of its two assertions. -/
theorem Triple.world_of {A : ω → Prop} (h : Triple P script (fun _ => A) A) {w : ω} (start : P w)
    : A (script.world w) := by
  have reached := h w start
  unfold world
  rcases outcome : script.run.run w with ⟨e | a, after⟩ <;> rw [outcome] at reached <;>
    exact reached

end Script

end FauPortalen.Foundations

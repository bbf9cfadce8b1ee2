import FauPortalen.Foundations.PartialFold
import FauPortalen.Foundations.Transactions

/-! Loops of a transaction that follow a partial fold of a specification, and what they keep while
elements are still to come.
-/

namespace FauPortalen.Foundations

namespace Transaction

variable {ω ε α β τ : Type} {body : β → α → Transaction ω ε β} {elements : List α} {b last : β}
  {s after : ω}

/-- When every pass that commits is a step of the specification, the whole loop is its fold, by
induction on the elements.
-/
theorem Commits.foldlM_simulates {P : β → ω → τ → List α → Prop} {spec : τ → α → Option τ}
    (pass : ∀ b s t head rest b' after, P b s t (head :: rest) →
      (body b head).Commits s b' after → ∃ t', spec t head = some t' ∧ P b' after t' rest)
    (commits : (elements.foldlM body b).Commits s last after) {t : τ} (start : P b s t elements)
    : ∃ t', elements.foldlM spec t = some t' ∧ P last after t' [] := by
  induction elements generalizing b s t with
  | nil =>
      obtain ⟨rfl, rfl⟩ := commits_foldlM_nil.mp commits
      exact ⟨t, rfl, start⟩
  | cons head rest ih =>
      obtain ⟨b', middle, first, others⟩ := commits_foldlM_cons.mp commits
      obtain ⟨t', stepped, held⟩ := pass b s t head rest b' middle start first
      obtain ⟨t'', run, final⟩ := ih others held
      exact ⟨t'', foldlM_cons_eq_some.mpr ⟨t', stepped, run⟩, final⟩

end Transaction

end FauPortalen.Foundations

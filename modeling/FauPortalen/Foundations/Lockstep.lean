import FauPortalen.Foundations.Transactions

/-! Transactions in lockstep: two of them run from related stores, and what a relation keeps
through every statement it keeps through the whole.
-/

namespace FauPortalen.Foundations.Transaction

variable {ω ε α β γ δ : Type} {R : ω → ω → Prop} {V : α → β → Prop} {W : γ → δ → Prop}

/-- Where both commit from related stores, they commit related values and leave related stores. A
refusal of either promises nothing.
-/
def Lockstep (R : ω → ω → Prop) (V : α → β → Prop) (left : Transaction ω ε α)
    (right : Transaction ω ε β)
    : Prop :=
  ∀ s t a b s' t', R s t → left.Commits s a s' → right.Commits t b t' → V a b ∧ R s' t'

namespace Lockstep

-----------------------------------------------------------------------------------------
-- Statements

theorem pure {a : α} {b : β} (values : V a b)
    : Lockstep R V (Pure.pure a : Transaction ω ε α) (Pure.pure b) := by
  intro s t a' b' s' t' related left right
  obtain ⟨rfl, rfl⟩ := commits_pure.mp left
  obtain ⟨rfl, rfl⟩ := commits_pure.mp right
  exact ⟨values, related⟩

theorem select {view : ω → α} {view' : ω → β} (values : ∀ s t, R s t → V (view s) (view' t))
    : Lockstep R V (Transaction.select view : Transaction ω ε α) (Transaction.select view') := by
  intro s t a b s' t' related left right
  obtain ⟨rfl, rfl⟩ := commits_select.mp left
  obtain ⟨rfl, rfl⟩ := commits_select.mp right
  exact ⟨values _ _ related, related⟩

theorem update {change change' : ω → ω} (keeps : ∀ s t, R s t → R (change s) (change' t))
    : Lockstep R Eq (Transaction.update change : Transaction ω ε Unit)
        (Transaction.update change') := by
  intro s t a b s' t' related left right
  obtain rfl := commits_update.mp left
  obtain rfl := commits_update.mp right
  exact ⟨rfl, keeps _ _ related⟩

/-- A refusal on either side ends the comparison, so the conditions need not agree. -/
theorem require {condition condition' : Prop} [Decidable condition] [Decidable condition']
    {error error' : ε}
    : Lockstep R Eq (Transaction.require condition error : Transaction ω ε Unit)
        (Transaction.require condition' error') := by
  intro s t a b s' t' related left right
  obtain ⟨_, rfl⟩ := commits_require.mp left
  obtain ⟨_, rfl⟩ := commits_require.mp right
  exact ⟨rfl, related⟩

theorem expect {value : Option α} {value' : Option β} {error error' : ε}
    (values : ∀ a b, value = some a → value' = some b → V a b)
    : Lockstep R V (Transaction.expect value error : Transaction ω ε α)
        (Transaction.expect value' error') := by
  intro s t a b s' t' related left right
  obtain ⟨found, rfl⟩ := commits_expect.mp left
  obtain ⟨found', rfl⟩ := commits_expect.mp right
  exact ⟨values a b found found', related⟩

/-- The same optional value on both sides. -/
theorem expected {value : Option α} {error error' : ε}
    : Lockstep R Eq (Transaction.expect value error : Transaction ω ε α)
        (Transaction.expect value error') :=
  .expect fun _ _ found found' => Option.some.inj (found.symm.trans found')

/-- Two transactions that leave their stores as they are. -/
theorem unchanged {left : Transaction ω ε α} {right : Transaction ω ε β}
    (reads : ∀ s a s', left.Commits s a s' → s' = s)
    (reads' : ∀ t b t', right.Commits t b t' → t' = t)
    : Lockstep R (fun _ _ => True) left right := by
  intro s t a b s' t' related commits commits'
  obtain rfl := reads s a s' commits
  obtain rfl := reads' t b t' commits'
  exact ⟨trivial, related⟩

-----------------------------------------------------------------------------------------
-- Composition

/-- Two sequences go in lockstep when their first statements do, and the rests do from any related
values.
-/
theorem bind {left : Transaction ω ε α} {right : Transaction ω ε β} {next : α → Transaction ω ε γ}
    {next' : β → Transaction ω ε δ} (first : Lockstep R V left right)
    (rest : ∀ a b, V a b → Lockstep R W (next a) (next' b))
    : Lockstep R W (left >>= next) (right >>= next') := by
  intro s t c d s' t' related commits commits'
  obtain ⟨a, middle, before, after⟩ := commits_bind.mp commits
  obtain ⟨b, middle', before', after'⟩ := commits_bind.mp commits'
  obtain ⟨values, middles⟩ := first _ _ _ _ _ _ related before before'
  exact rest a b values _ _ _ _ _ _ middles after after'

/-- The same value goes on to both rests. -/
theorem same {left right : Transaction ω ε α} {next : α → Transaction ω ε γ}
    {next' : α → Transaction ω ε δ} (first : Lockstep R Eq left right)
    (rest : ∀ a, Lockstep R W (next a) (next' a))
    : Lockstep R W (left >>= next) (right >>= next') :=
  first.bind fun a _ values => values ▸ rest a

/-- Two reads whose values need not agree: whatever they are, the rests go in lockstep. -/
theorem apart {view : ω → α} {view' : ω → β} {next : α → Transaction ω ε γ}
    {next' : β → Transaction ω ε δ} (rest : ∀ a b, Lockstep R W (next a) (next' b))
    : Lockstep R W (Transaction.select view >>= next) (Transaction.select view' >>= next') :=
  (select (V := fun _ _ => True) fun _ _ _ => trivial).bind fun a b _ => rest a b

theorem ite {condition : Prop} [Decidable condition] {left left' : Transaction ω ε α}
    {right right' : Transaction ω ε β} (yes : Lockstep R V left right)
    (no : Lockstep R V left' right')
    : Lockstep R V (if condition then left else left') (if condition then right else right') := by
  split
  · exact yes
  · exact no

theorem onlyIf {condition : Prop} [Decidable condition] {left right : Transaction ω ε Unit}
    (together : Lockstep R Eq left right)
    : Lockstep R Eq (Transaction.onlyIf condition left) (Transaction.onlyIf condition right) :=
  together.ite (.pure rfl)

-----------------------------------------------------------------------------------------
-- Loops

/-- Two loops over one list go in lockstep when every pass does. -/
theorem foldlM {pass pass' : β → α → Transaction ω ε β} {elements : List α} {b : β}
    (passes : ∀ b element, Lockstep R Eq (pass b element) (pass' b element))
    : Lockstep R Eq (elements.foldlM pass b) (elements.foldlM pass' b) := by
  induction elements generalizing b with
  | nil => exact .pure rfl
  | cons head rest ih =>
      rw [List.foldlM_cons, List.foldlM_cons]
      exact (passes b head).same fun _ => ih

theorem forM {pass pass' : α → Transaction ω ε PUnit} {elements : List α}
    (passes : ∀ element, Lockstep R Eq (pass element) (pass' element))
    : Lockstep R Eq (ForM.forM elements pass) (ForM.forM elements pass') := by
  induction elements with
  | nil => exact .pure rfl
  | cons head rest ih => exact (passes head).same fun _ => ih

end Lockstep

end FauPortalen.Foundations.Transaction

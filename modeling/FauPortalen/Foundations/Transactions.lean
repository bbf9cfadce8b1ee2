import Mathlib.Data.List.Forall2
import Mathlib.Order.Defs.Unbundled

/-! Transactions: programs over a store that commit all their changes or, refused, none. What
one commits is read off statement by statement.
-/

namespace FauPortalen.Foundations

/-- A program over a store of type `ω`. It commits a value and the changed store, or it is
refused and leaves nothing behind.
-/
abbrev Transaction (ω ε : Type) : Type → Type := StateT ω (Except ε)

namespace Transaction

variable {ω ε α β : Type}

def select (view : ω → α) : Transaction ω ε α := fun s => .ok (view s, s)

def update (change : ω → ω) : Transaction ω ε Unit := fun s => .ok ((), change s)

def refuse (error : ε) : Transaction ω ε α := fun _ => .error error

def require (condition : Prop) [Decidable condition] (error : ε) : Transaction ω ε Unit :=
  if condition then pure () else refuse error

/-- The value, or a refusal where there is none. -/
def expect (value : Option α) (error : ε) : Transaction ω ε α :=
  match value with
  | some a => pure a
  | none => refuse error

/-- Runs the transaction only where the condition holds. -/
def onlyIf (condition : Prop) [Decidable condition] (body : Transaction ω ε Unit)
    : Transaction ω ε Unit :=
  if condition then body else pure ()

/-- From the store `s` the transaction commits the value and the store `after`. -/
def Commits (transaction : Transaction ω ε α) (s : ω) (a : α) (after : ω) : Prop :=
  transaction.run s = .ok (a, after)

variable {s after : ω} {a : α}

-----------------------------------------------------------------------------------------
-- What a statement commits

@[simp]
theorem commits_pure {b : α}
    : (pure b : Transaction ω ε α).Commits s a after ↔ a = b ∧ after = s := by
  simp only [Commits, StateT.run_pure]
  constructor
  · intro committed
    cases committed
    exact ⟨rfl, rfl⟩
  · rintro ⟨rfl, rfl⟩
    rfl

@[simp]
theorem commits_select {view : ω → α}
    : (select view : Transaction ω ε α).Commits s a after ↔ a = view s ∧ after = s := by
  simp [Commits, select, StateT.run, eq_comm]

@[simp]
theorem commits_update {change : ω → ω} {u : Unit}
    : (update change : Transaction ω ε Unit).Commits s u after ↔ after = change s := by
  simp [Commits, update, StateT.run, eq_comm]

@[simp]
theorem commits_refuse {error : ε} : ¬ (refuse error : Transaction ω ε α).Commits s a after := by
  simp [Commits, refuse, StateT.run]

@[simp]
theorem commits_require {condition : Prop} [Decidable condition] {error : ε} {u : Unit}
    : (require condition error : Transaction ω ε Unit).Commits s u after
      ↔ condition ∧ after = s := by
  unfold require
  split
  · next holds => simp [holds]
  · next fails => simp [fails]

@[simp]
theorem commits_expect {value : Option α} {error : ε}
    : (expect value error : Transaction ω ε α).Commits s a after ↔ value = some a ∧ after = s := by
  cases value with
  | none => simp [expect]
  | some b => simp [expect, eq_comm]

/-- Two transactions in sequence commit through a store between them. -/
@[simp]
theorem commits_bind {first : Transaction ω ε α} {next : α → Transaction ω ε β} {b : β}
    : (first >>= next).Commits s b after
      ↔ ∃ a middle, first.Commits s a middle ∧ (next a).Commits middle b after := by
  simp only [Commits, StateT.run_bind]
  cases first.run s with
  | error e => exact iff_of_false nofun (by rintro ⟨_, _, left, _⟩; cases left)
  | ok outcome =>
      constructor
      · intro right
        exact ⟨outcome.1, outcome.2, rfl, right⟩
      · rintro ⟨a, middle, left, right⟩
        cases left
        exact right

/-! Statements that only read leave no store between themselves and the rest. -/

section

variable {b : β}

theorem commits_select_bind {view : ω → α} {next : α → Transaction ω ε β}
    : (select view >>= next).Commits s b after ↔ (next (view s)).Commits s b after := by
  simp

theorem commits_update_bind {change : ω → ω} {next : Unit → Transaction ω ε β}
    : (update change >>= next).Commits s b after ↔ (next ()).Commits (change s) b after := by
  rw [commits_bind]
  constructor
  · rintro ⟨_, _, updates, rest⟩
    exact commits_update.mp updates ▸ rest
  · intro rest
    exact ⟨(), _, commits_update.mpr rfl, rest⟩

theorem commits_require_bind {condition : Prop} [Decidable condition] {error : ε}
    {next : Unit → Transaction ω ε β}
    : (require condition error >>= next).Commits s b after
      ↔ condition ∧ (next ()).Commits s b after := by
  rw [commits_bind]
  constructor
  · rintro ⟨_, _, requires, rest⟩
    obtain ⟨holds, rfl⟩ := commits_require.mp requires
    exact ⟨holds, rest⟩
  · rintro ⟨holds, rest⟩
    exact ⟨(), _, commits_require.mpr ⟨holds, rfl⟩, rest⟩

theorem commits_expect_bind {value : Option α} {error : ε} {next : α → Transaction ω ε β}
    : (expect value error >>= next).Commits s b after
      ↔ ∃ a, value = some a ∧ (next a).Commits s b after := by
  simp [and_assoc]

end

@[simp]
theorem commits_ite {condition : Prop} [Decidable condition] {left right : Transaction ω ε α}
    : (if condition then left else right).Commits s a after
      ↔ (condition ∧ left.Commits s a after) ∨ (¬ condition ∧ right.Commits s a after) := by
  split
  · next holds => simp [holds]
  · next fails => simp [fails]

@[simp]
theorem commits_onlyIf {condition : Prop} [Decidable condition] {body : Transaction ω ε Unit}
    {u : Unit}
    : (onlyIf condition body).Commits s u after
      ↔ (condition ∧ body.Commits s u after) ∨ (¬ condition ∧ after = s) := by
  unfold onlyIf
  rw [commits_ite, commits_pure]
  simp

/-- The store as the transaction leaves it: unchanged where it is refused. -/
def leaves (transaction : Transaction ω ε α) (s : ω) : ω :=
  match transaction.run s with
  | .ok (_, after) => after
  | .error _ => s

theorem leaves_commits {transaction : Transaction ω ε α}
    (succeeds : (transaction.run s).toBool = true)
    : ∃ a, transaction.Commits s a (transaction.leaves s) := by
  unfold Commits leaves
  cases ran : transaction.run s with
  | ok outcome => exact ⟨outcome.1, rfl⟩
  | error e =>
      rw [ran] at succeeds
      cases succeeds

-----------------------------------------------------------------------------------------
-- What a statement refuses

/-- From the store `s` the transaction is refused with the error. -/
def Refuses (transaction : Transaction ω ε α) (s : ω) (error : ε) : Prop :=
  transaction.run s = .error error

variable {error : ε}

@[simp]
theorem refuses_pure {b : α} : ¬ (pure b : Transaction ω ε α).Refuses s error := nofun

@[simp]
theorem refuses_select {view : ω → α}
    : ¬ (select view : Transaction ω ε α).Refuses s error := by
  simp [Refuses, select, StateT.run]

@[simp]
theorem refuses_refuse {given : ε}
    : (refuse given : Transaction ω ε α).Refuses s error ↔ error = given := by
  simp [Refuses, refuse, StateT.run, eq_comm]

@[simp]
theorem refuses_require {condition : Prop} [Decidable condition] {given : ε}
    : (require condition given : Transaction ω ε Unit).Refuses s error
      ↔ ¬ condition ∧ error = given := by
  unfold require
  split
  · next holds => simp [holds]
  · next fails => simp [fails]

@[simp]
theorem refuses_expect {value : Option α} {given : ε}
    : (expect value given : Transaction ω ε α).Refuses s error
      ↔ value = none ∧ error = given := by
  cases value with
  | none => simp [expect]
  | some b => simp [expect]

/-- A sequence is refused where its first statement is, or where the rest is after it. -/
@[simp]
theorem refuses_bind {first : Transaction ω ε α} {next : α → Transaction ω ε β}
    : (first >>= next).Refuses s error
      ↔ first.Refuses s error
        ∨ ∃ a middle, first.Commits s a middle ∧ (next a).Refuses middle error := by
  simp only [Refuses, Commits, StateT.run_bind]
  cases first.run s with
  | error e =>
      constructor
      · intro left
        cases left
        exact .inl rfl
      · rintro (left | ⟨_, _, left, _⟩)
        · cases left
          rfl
        · cases left
  | ok outcome =>
      constructor
      · intro right
        exact .inr ⟨outcome.1, outcome.2, rfl, right⟩
      · rintro (left | ⟨a, middle, left, right⟩)
        · cases left
        · cases left
          exact right

@[simp]
theorem refuses_ite {condition : Prop} [Decidable condition] {left right : Transaction ω ε α}
    : (if condition then left else right).Refuses s error
      ↔ (condition ∧ left.Refuses s error) ∨ (¬ condition ∧ right.Refuses s error) := by
  split
  · next holds => simp [holds]
  · next fails => simp [fails]

@[simp]
theorem refuses_onlyIf {condition : Prop} [Decidable condition] {body : Transaction ω ε Unit}
    : (onlyIf condition body).Refuses s error ↔ condition ∧ body.Refuses s error := by
  unfold onlyIf
  rw [refuses_ite]
  simp

/-- What the transaction answers: its value, or why it is refused. -/
def answer (transaction : Transaction ω ε α) (s : ω) : Except ε α :=
  (transaction.run s).map Prod.fst

theorem Refuses.answer {transaction : Transaction ω ε α}
    (refuses : transaction.Refuses s error)
    : transaction.answer s = .error error := by
  rw [Transaction.answer, refuses]
  rfl

-----------------------------------------------------------------------------------------
-- Loops

variable {body : β → α → Transaction ω ε β} {head : α} {rest elements : List α} {b last : β}

@[simp]
theorem commits_foldlM_nil
    : (([] : List α).foldlM body b).Commits s last after ↔ last = b ∧ after = s := by
  rw [List.foldlM_nil, commits_pure]

@[simp]
theorem commits_foldlM_cons
    : ((head :: rest).foldlM body b).Commits s last after
      ↔ ∃ b' middle, (body b head).Commits s b' middle
          ∧ (rest.foldlM body b').Commits middle last after := by
  rw [List.foldlM_cons, commits_bind]

/-- What every pass keeps, of the accumulator and the store, the loop keeps. -/
theorem Commits.foldlM_keeps {P : β → ω → Prop}
    (keeps : ∀ element ∈ elements, ∀ b s b' after, P b s →
      (body b element).Commits s b' after → P b' after)
    (commits : (elements.foldlM body b).Commits s last after) (holds : P b s)
    : P last after := by
  induction elements generalizing b s with
  | nil =>
      obtain ⟨rfl, rfl⟩ := commits_foldlM_nil.mp commits
      exact holds
  | cons head rest ih =>
      obtain ⟨b', middle, first, others⟩ := commits_foldlM_cons.mp commits
      exact ih (fun element inside => keeps element (List.mem_cons_of_mem _ inside)) others
        (keeps head List.mem_cons_self _ _ _ _ holds first)

/-- A loop that only reads, and whose every pass adds one result, collects a result for each
element.
-/
theorem Commits.foldlM_collects {γ : Type} {P : α → γ → Prop}
    {collect : List γ → α → Transaction ω ε (List γ)}
    (pass : ∀ found element found' after, (collect found element).Commits s found' after →
      after = s ∧ ∃ result, found' = found ++ [result] ∧ P element result)
    {found all : List γ} (commits : (elements.foldlM collect found).Commits s all after)
    : after = s ∧ ∃ results, all = found ++ results ∧ List.Forall₂ P elements results := by
  induction elements generalizing found with
  | nil =>
      obtain ⟨rfl, rfl⟩ := commits_foldlM_nil.mp commits
      exact ⟨rfl, [], (List.append_nil _).symm, .nil⟩
  | cons head rest ih =>
      obtain ⟨found', middle, first, others⟩ := commits_foldlM_cons.mp commits
      obtain ⟨rfl, result, rfl, holds⟩ := pass _ _ _ _ first
      obtain ⟨unchanged, results, rfl, all⟩ := ih others
      exact ⟨unchanged, result :: results, List.append_assoc .., .cons holds all⟩

@[simp]
theorem commits_forM_nil {pass : α → Transaction ω ε PUnit} {u : PUnit}
    : (forM ([] : List α) pass).Commits s u after ↔ after = s := by
  simp [List.forM_nil]

@[simp]
theorem commits_forM_cons {pass : α → Transaction ω ε PUnit} {u : PUnit}
    : (forM (head :: rest) pass).Commits s u after
      ↔ ∃ middle, (pass head).Commits s () middle ∧ (forM rest pass).Commits middle u after := by
  rw [List.forM_cons, commits_bind]
  exact ⟨fun ⟨_, middle, h⟩ => ⟨middle, h⟩, fun ⟨middle, h⟩ => ⟨(), middle, h⟩⟩

/-- What every pass keeps, the loop keeps. -/
theorem Commits.forM_keeps {P : ω → Prop} {pass : α → Transaction ω ε PUnit} {u : PUnit}
    (keeps : ∀ element ∈ elements, ∀ s after, P s → (pass element).Commits s () after → P after)
    (commits : (forM elements pass).Commits s u after) (holds : P s)
    : P after := by
  induction elements generalizing s with
  | nil => exact commits_forM_nil.mp commits ▸ holds
  | cons head rest ih =>
      obtain ⟨middle, first, others⟩ := commits_forM_cons.mp commits
      exact ih (fun element inside => keeps element (List.mem_cons_of_mem _ inside)) others
        (keeps head List.mem_cons_self _ _ holds first)

-----------------------------------------------------------------------------------------
-- Relations that every commit stays within

/-- Whatever the transaction commits, the relation relates the stores before and after. -/
def Within (R : ω → ω → Prop) (transaction : Transaction ω ε α) : Prop :=
  ∀ s a after, transaction.Commits s a after → R s after

namespace Within

variable {R : ω → ω → Prop} [IsPreorder ω R]

theorem of_unchanged {transaction : Transaction ω ε α}
    (unchanged : ∀ s a after, transaction.Commits s a after → after = s)
    : Within R transaction := by
  intro s a after commits
  obtain rfl := unchanged s a after commits
  exact Std.Refl.refl after

theorem pure {a : α} : Within R (Pure.pure a : Transaction ω ε α) :=
  of_unchanged fun _ _ _ commits => (commits_pure.mp commits).2

theorem select {view : ω → α} : Within R (Transaction.select view : Transaction ω ε α) :=
  of_unchanged fun _ _ _ commits => (commits_select.mp commits).2

theorem require {condition : Prop} [Decidable condition] {error : ε}
    : Within R (Transaction.require condition error : Transaction ω ε Unit) :=
  of_unchanged fun _ _ _ commits => (commits_require.mp commits).2

theorem expect {value : Option α} {error : ε}
    : Within R (Transaction.expect value error : Transaction ω ε α) :=
  of_unchanged fun _ _ _ commits => (commits_expect.mp commits).2

theorem bind {first : Transaction ω ε α} {next : α → Transaction ω ε β} (left : Within R first)
    (right : ∀ a, Within R (next a))
    : Within R (first >>= next) := by
  intro s b after commits
  obtain ⟨a, middle, before, rest⟩ := commits_bind.mp commits
  exact IsTrans.trans s middle after (left _ _ _ before) (right a _ _ _ rest)

omit [IsPreorder ω R] in
theorem ite {condition : Prop} [Decidable condition] {left right : Transaction ω ε α}
    (yes : Within R left) (no : Within R right)
    : Within R (if condition then left else right) := by
  split
  · exact yes
  · exact no

theorem onlyIf {condition : Prop} [Decidable condition] {body : Transaction ω ε Unit}
    (within : Within R body)
    : Within R (Transaction.onlyIf condition body) :=
  within.ite pure

theorem foldlM {body : β → α → Transaction ω ε β} {elements : List α} {b : β}
    (pass : ∀ b element, Within R (body b element))
    : Within R (elements.foldlM body b) :=
  fun s _ _ commits => commits.foldlM_keeps (P := fun _ => R s)
    (fun _ _ _ _ _ _ earlier step => IsTrans.trans _ _ _ earlier (pass _ _ _ _ _ step))
    (Std.Refl.refl s)

theorem forM {pass : α → Transaction ω ε PUnit} {elements : List α}
    (within : ∀ element, Within R (pass element))
    : Within R (ForM.forM elements pass) :=
  fun s _ _ commits => commits.forM_keeps (P := R s)
    (fun _ _ _ _ earlier step => IsTrans.trans _ _ _ earlier (within _ _ _ _ step))
    (Std.Refl.refl s)

end Within

end Transaction

end FauPortalen.Foundations

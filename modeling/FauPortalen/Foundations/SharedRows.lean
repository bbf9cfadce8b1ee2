import FauPortalen.Foundations.Lookup

/-! A table with a unique key under concurrent transactions, each of which sees the rows that are
committed and its own. A row is inserted unless its key has one, and the insertion waits while
another transaction holds the key.
-/

namespace FauPortalen.Foundations

/-- The rows that are committed, and those of every connection with a transaction open. -/
structure SharedRows (κ ν : Type) where
  committed : Lookup κ ν
  transactions : Lookup Nat (Lookup κ ν)

namespace SharedRows

variable {κ ν : Type}

def empty : SharedRows κ ν := ⟨.empty, .empty⟩

/-- The rows a connection has inserted in its open transaction. -/
def pending (rows : SharedRows κ ν) (connection : Nat) (key : κ) : Option ν :=
  (rows.transactions connection).bind fun own => own key

/-- What a statement of the connection reads. -/
def visible (rows : SharedRows κ ν) (connection : Nat) (key : κ) : Option ν :=
  (rows.pending connection key).or (rows.committed key)

/-- Another transaction holds the key, so that an insertion waits for its end. -/
def Blocked (rows : SharedRows κ ν) (connection : Nat) (key : κ) : Prop :=
  ∃ other ≠ connection, (rows.pending other key).isSome

def begin (rows : SharedRows κ ν) (connection : Nat) : SharedRows κ ν :=
  { rows with transactions := rows.transactions.insert connection .empty }

def commit (rows : SharedRows κ ν) (connection : Nat) : SharedRows κ ν where
  committed := rows.visible connection
  transactions := rows.transactions.erase connection

def rollBack (rows : SharedRows κ ν) (connection : Nat) : SharedRows κ ν :=
  { rows with transactions := rows.transactions.erase connection }

/-- Inserts the row unless the key has one. Outside a transaction it is committed at once. -/
def insertOnce [DecidableEq κ] (rows : SharedRows κ ν) (connection : Nat) (key : κ) (value : ν)
    : SharedRows κ ν :=
  if (rows.visible connection key).isSome then rows
  else
    match rows.transactions connection with
    | none => { rows with committed := rows.committed.insert key value }
    | some own =>
        { rows with
          transactions := rows.transactions.insert connection (own.insert key value) }

/-- Somebody holds the row, committed or not. -/
def Holds (rows : SharedRows κ ν) (key : κ) (value : ν) : Prop :=
  rows.committed key = some value ∨ ∃ connection, rows.pending connection key = some value

/-- No key has two holders. -/
structure OneHolder (rows : SharedRows κ ν) : Prop where
  fresh : ∀ connection key, (rows.pending connection key).isSome → rows.committed key = none
  apart : ∀ one other key, (rows.pending one key).isSome → (rows.pending other key).isSome →
    one = other

variable {rows : SharedRows κ ν} {connection other : Nat} {key : κ} {value found : ν}

theorem holds_of_visible (seen : rows.visible connection key = some value)
    : rows.Holds key value := by
  rcases Option.or_eq_some_iff.mp seen with own | ⟨-, shared⟩
  · exact .inr ⟨connection, own⟩
  · exact .inl shared

/-- A key has at most one row. -/
theorem OneHolder.unique (single : rows.OneHolder) (held : rows.Holds key value)
    (also : rows.Holds key found)
    : value = found := by
  have apart : ∀ {value found}, rows.committed key = some value →
      (∃ connection, rows.pending connection key = some found) → value = found := by
    rintro value found shared ⟨holder, own⟩
    rw [single.fresh holder key (by rw [own]; rfl)] at shared
    cases shared
  rcases held with shared | ⟨one, own⟩ <;> rcases also with shared' | ⟨two, own'⟩
  · exact Option.some.inj (shared.symm.trans shared')
  · exact apart shared ⟨two, own'⟩
  · exact (apart shared' ⟨one, own⟩).symm
  · have same := single.apart one two key (by rw [own]; rfl) (by rw [own']; rfl)
    subst same
    exact Option.some.inj (own.symm.trans own')

/-- Whoever sees a row of the key sees the one that is held. -/
theorem OneHolder.eq_of_visible (single : rows.OneHolder)
    (seen : rows.visible connection key = some value) (held : rows.Holds key found)
    : value = found :=
  single.unique (holds_of_visible seen) held

-----------------------------------------------------------------------------------------
-- Beginning and ending a transaction

theorem pending_begin
    : (rows.begin connection).pending other key
      = if other = connection then none else rows.pending other key := by
  dsimp only [begin, pending]
  rw [Lookup.insert_apply]
  split <;> rfl

theorem pending_erased
    : (rows.rollBack connection).pending other key
      = if other = connection then none else rows.pending other key := by
  dsimp only [rollBack, pending]
  rw [Lookup.erase_apply]
  split <;> rfl

theorem pending_commit
    : (rows.commit connection).pending other key
      = if other = connection then none else rows.pending other key := by
  dsimp only [commit, pending]
  rw [Lookup.erase_apply]
  split <;> rfl

theorem isSome_pending_of_ite {own : Option ν}
    (found : (if other = connection then none else own).isSome)
    : other ≠ connection ∧ own.isSome := by
  split at found
  · cases found
  · next ne => exact ⟨ne, found⟩

theorem OneHolder.begin (single : rows.OneHolder) : (rows.begin connection).OneHolder where
  fresh holder key own := by
    rw [pending_begin] at own
    exact single.fresh holder key (isSome_pending_of_ite own).2
  apart one two key own own' := by
    rw [pending_begin] at own own'
    exact single.apart one two key (isSome_pending_of_ite own).2 (isSome_pending_of_ite own').2

theorem OneHolder.rollBack (single : rows.OneHolder) : (rows.rollBack connection).OneHolder where
  fresh holder key own := by
    rw [pending_erased] at own
    exact single.fresh holder key (isSome_pending_of_ite own).2
  apart one two key own own' := by
    rw [pending_erased] at own own'
    exact single.apart one two key (isSome_pending_of_ite own).2 (isSome_pending_of_ite own').2

/-- A transaction commits no key that another one holds. -/
theorem OneHolder.commit (single : rows.OneHolder) : (rows.commit connection).OneHolder where
  fresh holder key own := by
    rw [pending_commit] at own
    obtain ⟨ne, own⟩ := isSome_pending_of_ite own
    refine Option.or_eq_none_iff.mpr ⟨?_, single.fresh holder key own⟩
    refine Option.not_isSome_iff_eq_none.mp fun mine => ne ?_
    exact single.apart holder connection key own mine
  apart one two key own own' := by
    rw [pending_commit] at own own'
    exact single.apart one two key (isSome_pending_of_ite own).2 (isSome_pending_of_ite own').2

theorem Holds.begin (closed : rows.transactions connection = none)
    (held : rows.Holds key value)
    : (rows.begin connection).Holds key value := by
  rcases held with shared | ⟨holder, own⟩
  · exact .inl shared
  · refine .inr ⟨holder, ?_⟩
    rw [pending_begin, if_neg, own]
    rintro rfl
    rw [pending, closed] at own
    cases own

theorem Holds.commit (single : rows.OneHolder) (held : rows.Holds key value)
    : (rows.commit connection).Holds key value := by
  rcases held with shared | ⟨holder, own⟩
  · refine .inl (Option.or_eq_some_iff.mpr (.inr ⟨?_, shared⟩))
    refine Option.not_isSome_iff_eq_none.mp fun mine => ?_
    rw [single.fresh connection key mine] at shared
    cases shared
  · by_cases same : holder = connection
    · exact .inl (Option.or_eq_some_iff.mpr (.inl (same ▸ own)))
    · refine .inr ⟨holder, ?_⟩
      rw [pending_commit, if_neg same, own]

/-- A rollback loses the connection's own rows and no others. -/
theorem Holds.rollBack (held : rows.Holds key value)
    : rows.pending connection key = some value
      ∨ (rows.rollBack connection).Holds key value := by
  rcases held with shared | ⟨holder, own⟩
  · exact .inr (.inl shared)
  · by_cases same : holder = connection
    · exact .inl (same ▸ own)
    · refine .inr (.inr ⟨holder, ?_⟩)
      rw [pending_erased, if_neg same, own]

theorem visible_begin (closed : rows.transactions connection = none)
    : (rows.begin connection).visible other key = rows.visible other key := by
  unfold visible
  rw [pending_begin]
  split
  · next same =>
      subst same
      rw [show rows.pending other key = none by rw [pending, closed]; rfl]
      rfl
  · rfl

/-- What a connection sees, it still sees when another transaction has ended. -/
theorem visible_rollBack_of_ne (ne : other ≠ connection)
    : (rows.rollBack connection).visible other key = rows.visible other key := by
  unfold visible
  rw [pending_erased, if_neg ne]
  rfl

theorem visible_commit (single : rows.OneHolder)
    (seen : rows.visible other key = some value)
    : (rows.commit connection).visible other key = some value := by
  rcases Option.or_eq_some_iff.mp seen with own | ⟨absent, shared⟩
  · by_cases same : other = connection
    · subst same
      refine Option.or_eq_some_iff.mpr (.inr ⟨?_, seen⟩)
      rw [pending_commit, if_pos rfl]
    · refine Option.or_eq_some_iff.mpr (.inl ?_)
      rw [pending_commit, if_neg same, own]
  · have held : rows.Holds key value := .inl shared
    have stays : (rows.commit connection).Holds key value := held.commit single
    rcases stays with still | ⟨holder, own⟩
    · refine Option.or_eq_some_iff.mpr (.inr ⟨?_, still⟩)
      rw [pending_commit, absent, ite_self]
    · rw [pending_commit] at own
      split at own
      · cases own
      · rw [single.fresh holder key (by rw [own]; rfl)] at shared
        cases shared

/-- A committed row stays. -/
theorem committed_commit (single : rows.OneHolder) (shared : rows.committed key = some value)
    : (rows.commit connection).committed key = some value := by
  refine Option.or_eq_some_iff.mpr (.inr ⟨?_, shared⟩)
  refine Option.not_isSome_iff_eq_none.mp fun mine => ?_
  rw [single.fresh connection key mine] at shared
  cases shared

/-- A key with a committed row keeps one, whoever commits. -/
theorem isSome_committed_commit (shared : (rows.committed key).isSome)
    : ((rows.commit connection).committed key).isSome := by
  change (rows.visible connection key).isSome
  rw [visible, Option.isSome_or, shared, Bool.or_true]

-----------------------------------------------------------------------------------------
-- Inserting a row

variable [DecidableEq κ]

/-- A row that is seen stops the insertion. -/
theorem insertOnce_of_visible (seen : (rows.visible connection key).isSome)
    : rows.insertOnce connection key value = rows := by
  rw [insertOnce, if_pos seen]

theorem insertOnce_of_closed (unseen : rows.visible connection key = none)
    (closed : rows.transactions connection = none)
    : rows.insertOnce connection key value
      = { rows with committed := rows.committed.insert key value } := by
  rw [insertOnce, unseen, closed]
  rfl

theorem insertOnce_of_open {own : Lookup κ ν} (unseen : rows.visible connection key = none)
    (opened : rows.transactions connection = some own)
    : rows.insertOnce connection key value
      = { rows with
          transactions := rows.transactions.insert connection (own.insert key value) } := by
  rw [insertOnce, unseen, opened]
  rfl

/-- The rows after an insertion into a transaction. -/
theorem pending_insert {own : Lookup κ ν} (opened : rows.transactions connection = some own)
    {wanted : κ}
    : SharedRows.pending { rows with
        transactions := rows.transactions.insert connection (own.insert key value) } other wanted
      = if other = connection ∧ wanted = key then some value else rows.pending other wanted := by
  dsimp only [pending]
  rw [Lookup.insert_apply]
  by_cases mine : other = connection
  · subst mine
    rw [if_pos rfl, opened, Option.bind_some, Option.bind_some, Lookup.insert_apply]
    simp only [true_and]
  · rw [if_neg mine, if_neg fun both => mine both.1]

/-- An insertion that nobody blocks leaves every key with one holder. -/
theorem OneHolder.insertOnce (single : rows.OneHolder) (free : ¬ rows.Blocked connection key)
    : (rows.insertOnce connection key value).OneHolder := by
  cases seen : rows.visible connection key with
  | some row => rwa [insertOnce_of_visible (by rw [seen]; rfl)]
  | none =>
      obtain ⟨absent, uncommitted⟩ := Option.or_eq_none_iff.mp seen
      cases opened : rows.transactions connection with
      | none =>
          rw [insertOnce_of_closed seen opened]
          refine ⟨fun holder wanted own => ?_, single.apart⟩
          have held : (rows.pending holder wanted).isSome := own
          by_cases same : wanted = key
          · subst same
            by_cases mine : holder = connection
            · rw [mine, absent] at held
              cases held
            · exact absurd ⟨holder, mine, held⟩ free
          · exact (Lookup.insert_of_ne _ _ same).trans (single.fresh holder wanted held)
      | some own =>
          rw [insertOnce_of_open seen opened]
          refine ⟨fun holder wanted held => ?_, fun one two wanted held held' => ?_⟩
          · rw [pending_insert opened] at held
            split at held
            · next here => exact here.2 ▸ uncommitted
            · exact single.fresh holder wanted held
          · rw [pending_insert opened] at held held'
            -- A key that this insertion has just taken was nobody else's.
            have alone : ∀ {holder}, (rows.pending holder key).isSome → holder = connection := by
              intro holder held
              by_contra mine
              exact free ⟨holder, mine, held⟩
            split at held <;> split at held'
            · next here here' => exact here.1.trans here'.1.symm
            · next here _ => exact here.1.trans (alone (here.2 ▸ held')).symm
            · next _ here => exact (alone (here.2 ▸ held)).trans here.1.symm
            · exact single.apart one two wanted held held'

theorem committed_insertOnce {wanted : κ} (shared : rows.committed wanted = some found)
    : (rows.insertOnce connection key value).committed wanted = some found := by
  cases seen : rows.visible connection key with
  | some row => rwa [insertOnce_of_visible (by rw [seen]; rfl)]
  | none =>
      cases opened : rows.transactions connection with
      | none =>
          rw [insertOnce_of_closed seen opened]
          refine (Lookup.insert_of_ne _ _ ?_).trans shared
          rintro rfl
          rw [(Option.or_eq_none_iff.mp seen).2] at shared
          cases shared
      | some own => rwa [insertOnce_of_open seen opened]

theorem pending_insertOnce {wanted : κ} (held : rows.pending other wanted = some found)
    : (rows.insertOnce connection key value).pending other wanted = some found := by
  cases seen : rows.visible connection key with
  | some row => rwa [insertOnce_of_visible (by rw [seen]; rfl)]
  | none =>
      cases opened : rows.transactions connection with
      | none => rwa [insertOnce_of_closed seen opened]
      | some own =>
          rw [insertOnce_of_open seen opened, pending_insert opened, if_neg, held]
          rintro ⟨rfl, rfl⟩
          rw [(Option.or_eq_none_iff.mp seen).1] at held
          cases held

/-- A row of the table or of a transaction is still there after an insertion. -/
theorem Holds.insertOnce {wanted : κ} (held : rows.Holds wanted found)
    : (rows.insertOnce connection key value).Holds wanted found :=
  held.imp committed_insertOnce (Exists.imp fun _ => pending_insertOnce)

/-- What a connection sees, it still sees after an insertion, its own or another's. -/
theorem visible_insertOnce {wanted : κ} (single : rows.OneHolder)
    (free : ¬ rows.Blocked connection key) (seen : rows.visible other wanted = some found)
    : (rows.insertOnce connection key value).visible other wanted = some found := by
  rcases Option.or_eq_some_iff.mp seen with own | ⟨-, shared⟩
  · exact Option.or_eq_some_iff.mpr (.inl (pending_insertOnce own))
  · have still : (rows.insertOnce connection key value).committed wanted = some found :=
      committed_insertOnce shared
    refine Option.or_eq_some_iff.mpr (.inr ⟨?_, still⟩)
    refine Option.not_isSome_iff_eq_none.mp fun held => ?_
    rw [(single.insertOnce free).fresh other wanted held] at still
    cases still

/-- Outside a transaction the row is committed at once. -/
theorem committed_insertOnce_self (unseen : rows.visible connection key = none)
    (closed : rows.transactions connection = none)
    : (rows.insertOnce connection key value).committed key = some value := by
  rw [insertOnce_of_closed unseen closed]
  exact Lookup.insert_self rows.committed key value

/-- A connection that saw no row of the key sees the one it inserts. -/
theorem visible_insertOnce_self (unseen : rows.visible connection key = none)
    : (rows.insertOnce connection key value).visible connection key = some value := by
  cases opened : rows.transactions connection with
  | none =>
      have shared : (rows.insertOnce connection key value).committed key = some value :=
        committed_insertOnce_self unseen opened
      refine Option.or_eq_some_iff.mpr (.inr ⟨?_, shared⟩)
      rw [insertOnce_of_closed unseen opened]
      exact (Option.or_eq_none_iff.mp unseen).1
  | some own =>
      rw [insertOnce_of_open unseen opened]
      refine Option.or_eq_some_iff.mpr (.inl ?_)
      rw [pending_insert opened, if_pos ⟨rfl, rfl⟩]

end SharedRows

end FauPortalen.Foundations

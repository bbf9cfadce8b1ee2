import FauPortalen.Foundations.Lookup
import FauPortalen.Register.Slug
import FauPortalen.Register.Sync.Types
import Mathlib.Data.Finset.Insert
import Mathlib.Data.Finset.Dedup

/-! Who holds which school slug, per municipality, as a plan goes along. -/

namespace FauPortalen.Register

open FauPortalen.Foundations

/-- A slug in a municipality. -/
abbrev SlugKey (Id : Type) := Ref Id × String

structure SlugBook (Id : Type) where
  current : Lookup (SlugKey Id) (Ref Id)
  /-- Every school that held the slug. -/
  history : SlugKey Id → List Id
  /-- Closed in the snapshot, or closing in this plan. -/
  closed : Finset Id

namespace SlugBook

variable {Id : Type} [DecidableEq Id]

/-- The key of a school's current slug. -/
def keyOf? (school : SchoolSnapshot Id) : Option (SlugKey Id) :=
  school.slug.map fun slug => (Ref.existing school.municipalityId, slug)

def ofSnapshot (snapshot : RegisterSnapshot Id) : SlugBook Id :=
  {
    current := Lookup.ofPairs (snapshot.schools.filterMap fun s =>
      (keyOf? s).map fun key => (key, Ref.existing s.id))
    history := fun key =>
      (snapshot.schoolSlugHistory.filter fun row =>
        (Ref.existing row.1, row.2.1) = key).map fun row => row.2.2
    closed := ((snapshot.schools.filter (·.status = .closed)).map (·.id)).toFinset
  }

/-- A closing school gives up its slug, and its history stops counting as taken. -/
def release (book : SlugBook Id) (school : SchoolSnapshot Id) : SlugBook Id :=
  { book with
    current := match keyOf? school with
      | some key => book.current.erase key
      | none => book.current
    closed := insert school.id book.closed }

/-- Taken for `me`: held now by another school, or held in history by a different school
that is not closed.
-/
def isTaken (book : SlugBook Id) (municipality : Ref Id) (slug : String) (me : Ref Id)
    : Bool :=
  (match book.current (municipality, slug) with
    | some holder => holder ≠ me
    | none => false)
  || (book.history (municipality, slug)).any fun holder =>
    Ref.existing holder ≠ me && holder ∉ book.closed

def take (book : SlugBook Id) (municipality : Ref Id) (slug : String) (holder : Ref Id)
    : SlugBook Id :=
  { book with current := book.current.insert (municipality, slug) holder }

/-- The base, then with the post town, then numbered; `none` when minting panics. -/
def mint [UnicodeData] (book : SlugBook Id) (municipality : Ref Id) (base : String)
    (postTown : Option String) (me : Ref Id) : Option (String × SlugBook Id) := do
  let slug ← firstFreeSlug base postTown fun c => book.isTaken municipality c me
  return (slug, book.take municipality slug me)

-----------------------------------------------------------------------------------------
-- Growth

/-- The later book keeps every holder, and each holder it adds has a slug that no other
school that is not closed held before.
-/
structure Grows (before after : SlugBook Id) : Prop where
  keeps : ∀ key holder, before.current key = some holder → after.current key = some holder
  fair : ∀ key holder, after.current key = some holder →
    before.current key = some holder
      ∨ ∀ former ∈ before.history key, Ref.existing former = holder ∨ former ∈ before.closed
  history : after.history = before.history
  closed : after.closed = before.closed

omit [DecidableEq Id] in
theorem Grows.refl (book : SlugBook Id) : book.Grows book :=
  ⟨fun _ _ h => h, fun _ _ h => .inl h, rfl, rfl⟩

omit [DecidableEq Id] in
theorem Grows.trans {first second third : SlugBook Id} (h₁ : first.Grows second)
    (h₂ : second.Grows third)
    : first.Grows third := by
  refine ⟨fun key holder h => h₂.keeps _ _ (h₁.keeps _ _ h), ?_,
    h₂.history.trans h₁.history, h₂.closed.trans h₁.closed⟩
  intro key holder found
  rcases h₂.fair key holder found with before | fair
  · exact h₁.fair key holder before
  · rw [h₁.history, h₁.closed] at fair
    exact .inr fair

/-- A slug that is not taken for `me` is free or already held by `me`, and no other open
school held it.
-/
theorem isTaken_eq_false {book : SlugBook Id} {municipality me : Ref Id} {slug : String}
    : book.isTaken municipality slug me = false
      ↔ (∀ holder, book.current (municipality, slug) = some holder → holder = me)
        ∧ ∀ former ∈ book.history (municipality, slug),
            Ref.existing former = me ∨ former ∈ book.closed := by
  unfold isTaken
  rw [Bool.or_eq_false_iff]
  refine and_congr ?_ ?_
  · cases book.current (municipality, slug) <;> simp
  · simp only [List.any_eq_false, Bool.and_eq_true, decide_eq_true_eq, not_and_or,
      not_not]

/-- Taking a slug that is not taken grows the book. -/
theorem take_grows {book : SlugBook Id} {municipality me : Ref Id} {slug : String}
    (free : book.isTaken municipality slug me = false)
    : book.Grows (book.take municipality slug me) := by
  obtain ⟨unheld, fair⟩ := isTaken_eq_false.mp free
  refine ⟨?_, ?_, rfl, rfl⟩
  · intro key holder found
    by_cases same : key = (municipality, slug)
    · subst same
      cases unheld holder found
      exact Lookup.insert_self _ _ _
    · exact (Lookup.insert_of_ne _ _ same).trans found
  · intro key holder found
    by_cases same : key = (municipality, slug)
    · subst same
      cases Option.some.inj ((Lookup.insert_self _ _ _).symm.trans found)
      exact .inr fair
    · exact .inl ((Lookup.insert_of_ne _ _ same).symm.trans found)

@[simp]
theorem take_current (book : SlugBook Id) (municipality holder : Ref Id) (slug : String)
    : (book.take municipality slug holder).current (municipality, slug) = some holder :=
  Lookup.insert_self _ _ _

/-- A minted slug is held by the school it was minted for. -/
theorem mint_grows [UnicodeData] {book after : SlugBook Id} {municipality me : Ref Id}
    {base slug : String} {postTown : Option String}
    (minted : book.mint municipality base postTown me = some (slug, after))
    : book.Grows after ∧ after.current (municipality, slug) = some me := by
  simp only [mint, Option.bind_eq_bind, Option.bind_eq_some_iff] at minted
  obtain ⟨found, free, same⟩ := minted
  cases same
  exact ⟨take_grows (firstFreeSlug_free free), take_current _ _ _ _⟩

end SlugBook

end FauPortalen.Register

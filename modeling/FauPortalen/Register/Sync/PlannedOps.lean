import FauPortalen.Foundations.PartialFold
import FauPortalen.Register.Sync.UnitFates

/-! What a school plan consists of: the closings' operations, one creation for each
candidate, and for each update at most a rename, new attributes and a move, all of them
naming slugs that the final slug book knows.
-/

namespace FauPortalen.Register

open FauPortalen.Foundations

variable {Id : Type}

-----------------------------------------------------------------------------------------
-- Planned updates and creations

/-- An update with the slug changes of its rename and its move. -/
structure PlannedUpdate (Id : Type) where
  update : Update Id
  renamed : Option SlugChange
  moved : Option SlugChange

/-- A candidate with its placement, its number, and what its row becomes. -/
structure PlannedCreate (Id : Type) where
  candidate : Candidate Id
  placement : Placement
  number : Nat
  verification : CreateVerification
  slug : Option String

def PlannedCreate.source (p : PlannedCreate Id) : (Candidate Id × Placement) × Nat :=
  ((p.candidate, p.placement), p.number)

def PlannedCreate.op (p : PlannedCreate Id) : SchoolOp Id :=
  .create p.number p.candidate.municipality p.candidate.unit.orgnr p.candidate.unit.name
    p.candidate.unit.name p.slug p.verification true
    (SchoolAttributes.fromUnit p.candidate.unit) p.candidate.unit.changedAt

section

variable [LinearOrder Id] [UnicodeData]

def PlannedUpdate.renameOps (p : PlannedUpdate Id) : List (SchoolOp Id) :=
  if p.update.isRenamed then
    [.rename p.update.school.id p.update.unit.name
      (if p.update.school.displayNameCurated then none else some p.update.unit.name)
      p.renamed]
  else []

def PlannedUpdate.moveOps (p : PlannedUpdate Id) : List (SchoolOp Id) :=
  if p.update.isMoving then
    [.move p.update.school.id p.update.school.municipalityId p.update.municipality p.moved]
  else []

def PlannedUpdate.ops (p : PlannedUpdate Id) : List (SchoolOp Id) :=
  p.renameOps ++ attributeOps p.update ++ p.moveOps

/-- Both slug changes give up the school's slug and name one the book has for it; the
rename of a school that moves changes no slug, and a move takes the slug along, if there is
one. A school that stays gets its first slug with its first sluggable name.
-/
structure PlannedUpdate.Fits (p : PlannedUpdate Id) (book : SlugBook Id) : Prop where
  renamed : ∀ change, p.renamed = some change →
    p.update.isMoving = false ∧ change.old = p.update.school.slug
      ∧ book.current (.existing p.update.school.municipalityId, change.new)
        = some (.existing p.update.school.id)
  moved : ∀ change, p.moved = some change →
    change.old = p.update.school.slug
      ∧ book.current (p.update.municipality, change.new)
        = some (.existing p.update.school.id)
  slugless : p.update.isMoving = true → p.moved = none → p.update.school.slug = none
  unmoved : p.update.school.slug = none → p.moved = none
  first : p.update.isRenamed = true → p.update.isMoving = false →
    p.update.school.displayNameCurated = false → p.update.school.slug = none →
    (slugify p.update.unit.name).toOption ≠ none → p.renamed ≠ none

/-- The rename of a school that moves changes no slug. -/
def PlannedUpdate.RekeysOnce (p : PlannedUpdate Id) : Prop :=
  ∀ change, p.renamed = some change → p.update.isMoving = false

omit [UnicodeData] in
theorem PlannedUpdate.RekeysOnce.renamed_eq_none {p : PlannedUpdate Id} (once : p.RekeysOnce)
    (moving : p.update.isMoving = true)
    : p.renamed = none := by
  refine Option.eq_none_iff_forall_ne_some.mpr fun change renamed => ?_
  rw [once change renamed] at moving
  cases moving

theorem PlannedUpdate.Fits.rekeysOnce {p : PlannedUpdate Id} {book : SlugBook Id}
    (h : p.Fits book)
    : p.RekeysOnce :=
  fun change found => (h.renamed change found).1

/-- A held row has no slug, and a listed one with a sluggable name has; a slug is one the book
has for the new row.
-/
structure PlannedCreate.Fits (p : PlannedCreate Id) (book : SlugBook Id) : Prop where
  held : p.verification = .held → p.slug = none
  named : p.verification = .listed → (slugify p.candidate.unit.name).toOption ≠ none →
    p.slug ≠ none
  slug : ∀ slug, p.slug = some slug →
    book.current (p.candidate.municipality, slug) = some (.new p.number)

theorem PlannedUpdate.Fits.grow {p : PlannedUpdate Id} {before after : SlugBook Id}
    (h : p.Fits before) (grows : before.Grows after)
    : p.Fits after := by
  refine ⟨fun change found => ?_, fun change found => ?_, h.slugless, h.unmoved, h.first⟩
  · obtain ⟨still, old, new⟩ := h.renamed change found
    exact ⟨still, old, grows.keeps _ _ new⟩
  · obtain ⟨old, new⟩ := h.moved change found
    exact ⟨old, grows.keeps _ _ new⟩

omit [LinearOrder Id] in
theorem PlannedCreate.Fits.grow {p : PlannedCreate Id} {before after : SlugBook Id}
    (h : p.Fits before) (grows : before.Grows after)
    : p.Fits after :=
  ⟨h.held, h.named, fun slug found => grows.keeps _ _ (h.slug slug found)⟩

-----------------------------------------------------------------------------------------
-- One update

theorem renameSlug_fits {u : Update Id} {before after : SlugBook Id}
    {change : Option SlugChange} (planned : renameSlug u before = some (change, after))
    : before.Grows after
      ∧ (∀ c, change = some c →
        u.isMoving = false ∧ c.old = u.school.slug
          ∧ after.current (.existing u.school.municipalityId, c.new)
            = some (.existing u.school.id))
      ∧ (u.isMoving = false → u.school.displayNameCurated = false → u.school.slug = none →
        (slugify u.unit.name).toOption ≠ none → change ≠ none) := by
  unfold renameSlug at planned
  split at planned
  · next fixed =>
      cases planned
      refine ⟨.refl _, by simp, fun still uncurated => ?_⟩
      simp [still, uncurated] at fixed
  · next fixed =>
      have still : u.isMoving = false := by simp_all
      split at planned
      · next unsluggable =>
          cases planned
          exact ⟨.refl _, by simp, fun _ _ _ sluggable => absurd unsluggable sluggable⟩
      · next old base slug _ =>
          have slugged : u.school.slug ≠ none := by simp [slug]
          split at planned
          · cases planned
            exact ⟨.refl _, by simp, fun _ _ slugless => absurd slugless slugged⟩
          · simp only [Option.bind_eq_bind, Option.bind_eq_some_iff, Prod.exists] at planned
            obtain ⟨new, book, minted, same⟩ := planned
            cases same
            obtain ⟨grows, holds⟩ := SlugBook.mint_grows minted
            refine ⟨grows, fun c found => ?_, fun _ _ slugless => absurd slugless slugged⟩
            split at found
            · cases found
              exact ⟨still, slug.symm, holds⟩
            · cases found
      · next base slug _ =>
          simp only [Option.bind_eq_bind, Option.bind_eq_some_iff, Prod.exists] at planned
          obtain ⟨new, book, minted, same⟩ := planned
          cases same
          obtain ⟨grows, holds⟩ := SlugBook.mint_grows minted
          refine ⟨grows, fun c found => ?_, by simp⟩
          cases found
          exact ⟨still, slug.symm, holds⟩

theorem moveSlug_fits {u : Update Id} {before after : SlugBook Id}
    {change : Option SlugChange} (planned : moveSlug u before = some (change, after))
    : before.Grows after
      ∧ (∀ c, change = some c →
        c.old = u.school.slug
          ∧ after.current (u.municipality, c.new) = some (.existing u.school.id))
      ∧ (change = none ↔ u.school.slug = none) := by
  unfold moveSlug at planned
  split at planned
  · next slug =>
      cases planned
      exact ⟨.refl _, by simp, by simp [slug]⟩
  · next old slug =>
      simp only [Option.bind_eq_bind, Option.bind_eq_some_iff, Prod.exists] at planned
      obtain ⟨new, book, minted, same⟩ := planned
      cases same
      obtain ⟨grows, holds⟩ := SlugBook.mint_grows minted
      refine ⟨grows, fun c found => ?_, by simp [slug]⟩
      cases found
      exact ⟨slug.symm, holds⟩

/-- The plan of one update fits the book it leaves. -/
theorem planUpdate_fits {u : Update Id} {before after : SlugBook Id}
    {ops : List (SchoolOp Id)} (planned : planUpdate u before = some (ops, after))
    : before.Grows after
      ∧ ∃ p : PlannedUpdate Id, p.update = u ∧ p.ops = ops ∧ p.Fits after := by
  simp only [planUpdate, Option.bind_eq_bind, Option.bind_eq_some_iff, Prod.exists] at planned
  obtain ⟨renames, middle, renameRun, moves, last, moveRun, same⟩ := planned
  cases same
  have renamed : before.Grows middle ∧ ∃ change : Option SlugChange,
      renames = PlannedUpdate.renameOps ⟨u, change, none⟩
      ∧ (∀ c, change = some c →
        u.isMoving = false ∧ c.old = u.school.slug
          ∧ middle.current (.existing u.school.municipalityId, c.new)
            = some (.existing u.school.id))
      ∧ (u.isRenamed = true → u.isMoving = false → u.school.displayNameCurated = false →
        u.school.slug = none → (slugify u.unit.name).toOption ≠ none → change ≠ none) := by
    unfold FauPortalen.Register.renameOps at renameRun
    split at renameRun
    · next yes =>
        simp only [Option.bind_eq_bind, Option.bind_eq_some_iff, Prod.exists] at renameRun
        obtain ⟨change, book, slug, same⟩ := renameRun
        cases same
        obtain ⟨grows, fits, first⟩ := renameSlug_fits slug
        exact ⟨grows, change, by simp [PlannedUpdate.renameOps, yes], fits, fun _ => first⟩
    · next no =>
        cases renameRun
        exact ⟨.refl _, none, by simp [PlannedUpdate.renameOps, no], by simp, by simp [no]⟩
  have moved : middle.Grows after ∧ ∃ change : Option SlugChange,
      moves = PlannedUpdate.moveOps ⟨u, none, change⟩
      ∧ (∀ c, change = some c → c.old = u.school.slug
        ∧ after.current (u.municipality, c.new) = some (.existing u.school.id))
      ∧ (u.isMoving = true → change = none → u.school.slug = none)
      ∧ (u.school.slug = none → change = none) := by
    unfold FauPortalen.Register.moveOps at moveRun
    split at moveRun
    · next yes =>
        simp only [Option.bind_eq_bind, Option.bind_eq_some_iff, Prod.exists] at moveRun
        obtain ⟨change, book, slug, same⟩ := moveRun
        cases same
        obtain ⟨grows, fits, slugless⟩ := moveSlug_fits slug
        exact ⟨grows, change, by simp [PlannedUpdate.moveOps, yes], fits,
          fun _ => slugless.mp, slugless.mpr⟩
    · next no =>
        cases moveRun
        exact ⟨.refl _, none, by simp [PlannedUpdate.moveOps, no], by simp, by simp [no],
          fun _ => rfl⟩
  obtain ⟨grows₁, rename, renames_eq, fits₁, first⟩ := renamed
  obtain ⟨grows₂, move, moves_eq, fits₂, slugless, unmoved⟩ := moved
  refine ⟨grows₁.trans grows₂, ⟨u, rename, move⟩, rfl, ?_, ?_, fits₂, slugless, unmoved, first⟩
  · rw [renames_eq, moves_eq]
    rfl
  · intro change found
    obtain ⟨still, old, new⟩ := fits₁ change found
    exact ⟨still, old, grows₂.keeps _ _ new⟩

/-- The update loop plans every update, against one growing book. -/
theorem stepUpdate_fold {updates : List (Update Id)} {ops after_ops : List (SchoolOp Id)}
    {before after : SlugBook Id}
    (run : updates.foldlM stepUpdate (ops, before) = some (after_ops, after))
    : before.Grows after
      ∧ ∃ planned : List (PlannedUpdate Id), planned.map (·.update) = updates
        ∧ after_ops = ops ++ planned.flatMap PlannedUpdate.ops
        ∧ ∀ p ∈ planned, p.Fits after := by
  induction updates generalizing ops before with
  | nil =>
      cases run
      exact ⟨.refl _, [], rfl, by simp, by simp⟩
  | cons u rest ih =>
      obtain ⟨⟨middle_ops, middle⟩, stepped, rest_run⟩ := foldlM_cons_eq_some.mp run
      simp only [stepUpdate, Option.bind_eq_bind, Option.bind_eq_some_iff, Prod.exists]
        at stepped
      obtain ⟨own, book, planned, same⟩ := stepped
      cases same
      obtain ⟨grows₁, p, hp, own_eq, fits⟩ := planUpdate_fits planned
      obtain ⟨grows₂, tail, tail_eq, ops_eq, tail_fits⟩ := ih rest_run
      refine ⟨grows₁.trans grows₂, p :: tail, by simp [hp, tail_eq], ?_, ?_⟩
      · simp [ops_eq, own_eq]
      · intro q member
        rcases List.mem_cons.mp member with rfl | later
        · exact fits.grow grows₂
        · exact tail_fits q later

-----------------------------------------------------------------------------------------
-- One creation

/-- A created row fits the book it leaves, given that an inherited slug is already the new
row's.
-/
theorem createSlug_listed {candidate : Candidate Id} {number : Nat} {before : SlugBook Id}
    {result : (CreateVerification × Option String) × SlugBook Id}
    (planned : createSlug candidate number .listed before = some result)
    : (slugify candidate.unit.name).toOption = none ∧ result = ((.listed, none), before)
      ∨ ∃ base slug book, (slugify candidate.unit.name).toOption = some base
          ∧ before.mint candidate.municipality base
            (SchoolAttributes.fromUnit candidate.unit).postTown (.new number) = some (slug, book)
          ∧ result = ((.listed, some slug), book) := by
  simp only [createSlug] at planned
  cases base : (slugify candidate.unit.name).toOption with
  | none =>
      rw [base] at planned
      exact .inl ⟨rfl, (Option.some.inj planned).symm⟩
  | some base' =>
      rw [base] at planned
      simp only [Option.bind_eq_bind, Option.bind_eq_some_iff, Prod.exists] at planned
      obtain ⟨slug, book, minted, same⟩ := planned
      exact .inr ⟨base', slug, book, rfl, minted, (Option.some.inj same).symm⟩

theorem createSlug_fits {candidate : Candidate Id} {number : Nat} {placement : Placement}
    {before after : SlugBook Id} {verification : CreateVerification} {slug : Option String}
    (planned : createSlug candidate number placement before
      = some ((verification, slug), after))
    (inherited : ∀ s, placement = .successor (some s) →
      before.current (candidate.municipality, s) = some (.new number))
    : before.Grows after
      ∧ PlannedCreate.Fits ⟨candidate, placement, number, verification, slug⟩ after := by
  have listed {result} (h : createSlug candidate number .listed before = some result)
      : result.1.1 = .listed ∧ before.Grows result.2
        ∧ (∀ s, result.1.2 = some s →
          result.2.current (candidate.municipality, s) = some (.new number))
        ∧ ((slugify candidate.unit.name).toOption ≠ none → result.1.2 ≠ none) := by
    rcases createSlug_listed h with ⟨unsluggable, rfl⟩ | ⟨base, new, book, _, minted, rfl⟩
    · exact ⟨rfl, .refl _, by simp, fun sluggable => absurd unsluggable sluggable⟩
    · obtain ⟨grows, holds⟩ := SlugBook.mint_grows minted
      refine ⟨rfl, grows, fun s found => ?_, by simp⟩
      cases found
      exact holds
  cases placement with
  | heldReregistration =>
      cases planned
      exact ⟨.refl _, ⟨by simp, by simp, by simp⟩⟩
  | heldSubmission =>
      cases planned
      exact ⟨.refl _, ⟨by simp, by simp, by simp⟩⟩
  | listed =>
      obtain ⟨rfl, grows, holds, named⟩ := listed planned
      exact ⟨grows, ⟨by simp, fun _ => named, holds⟩⟩
  | successor given =>
      cases given with
      | none =>
          obtain ⟨rfl, grows, holds, named⟩ := listed planned
          exact ⟨grows, ⟨by simp, fun _ => named, holds⟩⟩
      | some s =>
          cases planned
          refine ⟨.refl _, ⟨by simp, by simp, ?_⟩⟩
          intro t found
          cases found
          exact inherited s rfl

/-- How the row's placement decides its verification and its slug. -/
structure PlannedCreate.Placed (p : PlannedCreate Id) : Prop where
  held : p.verification = .held
    ↔ p.placement = .heldReregistration ∨ p.placement = .heldSubmission
  slugless : p.verification = .held → p.slug = none
  inherited : ∀ slug, p.placement = .successor (some slug) → p.slug = some slug

theorem createSlug_placed {candidate : Candidate Id} {number : Nat} {placement : Placement}
    {before after : SlugBook Id} {verification : CreateVerification} {slug : Option String}
    (planned : createSlug candidate number placement before
      = some ((verification, slug), after))
    : PlannedCreate.Placed ⟨candidate, placement, number, verification, slug⟩ := by
  have listed {result} (h : createSlug candidate number .listed before = some result)
      : result.1.1 = .listed := by
    rcases createSlug_listed h with ⟨_, rfl⟩ | ⟨_, _, _, _, _, rfl⟩ <;> rfl
  cases placement with
  | heldReregistration =>
      cases planned
      exact ⟨by simp, by simp, by simp⟩
  | heldSubmission =>
      cases planned
      exact ⟨by simp, by simp, by simp⟩
  | listed =>
      obtain rfl := listed planned
      exact ⟨by simp, by simp, by simp⟩
  | successor given =>
      cases given with
      | none =>
          obtain rfl := listed planned
          exact ⟨by simp, by simp, by simp⟩
      | some s =>
          cases planned
          exact ⟨by simp, by simp, by simp⟩

/-- The creation loop plans every candidate, against one growing book. -/
theorem stepCreate_fold {numbered : List ((Candidate Id × Placement) × Nat)}
    {ops after_ops : List (SchoolOp Id)} {before after : SlugBook Id}
    (run : numbered.foldlM stepCreate (ops, before) = some (after_ops, after))
    (inherited : ∀ c ∈ numbered, ∀ s, c.1.2 = .successor (some s) →
      before.current (c.1.1.municipality, s) = some (.new c.2))
    : before.Grows after
      ∧ ∃ planned : List (PlannedCreate Id), planned.map PlannedCreate.source = numbered
        ∧ after_ops = ops ++ planned.map PlannedCreate.op
        ∧ ∀ p ∈ planned, p.Fits after ∧ p.Placed := by
  induction numbered generalizing ops before with
  | nil =>
      cases run
      exact ⟨.refl _, [], rfl, by simp, by simp⟩
  | cons c rest ih =>
      obtain ⟨⟨middle_ops, middle⟩, stepped, rest_run⟩ := foldlM_cons_eq_some.mp run
      simp only [stepCreate, Option.bind_eq_bind, Option.bind_eq_some_iff, Prod.exists]
        at stepped
      obtain ⟨verification, slug, book, planned, same⟩ := stepped
      cases same
      obtain ⟨grows₁, fits⟩ := createSlug_fits planned (inherited c List.mem_cons_self)
      obtain ⟨grows₂, tail, tail_eq, ops_eq, tail_fits⟩ := ih rest_run fun c' later s given =>
        grows₁.keeps _ _ (inherited c' (List.mem_cons_of_mem _ later) s given)
      refine ⟨grows₁.trans grows₂, ⟨c.1.1, c.1.2, c.2, verification, slug⟩ :: tail, ?_, ?_, ?_⟩
      · simp [PlannedCreate.source, tail_eq]
      · simp [ops_eq, PlannedCreate.op]
      · intro p member
        rcases List.mem_cons.mp member with rfl | later
        · exact ⟨fits.grow grows₂, createSlug_placed planned⟩
        · exact tail_fits p later

/-- The creation loop creates every candidate as it is placed. -/
theorem stepCreate_fold_placed {numbered : List ((Candidate Id × Placement) × Nat)}
    {ops after_ops : List (SchoolOp Id)} {before after : SlugBook Id}
    (run : numbered.foldlM stepCreate (ops, before) = some (after_ops, after))
    : ∃ planned : List (PlannedCreate Id), planned.map PlannedCreate.source = numbered
        ∧ after_ops = ops ++ planned.map PlannedCreate.op
        ∧ ∀ p ∈ planned, p.Placed := by
  induction numbered generalizing ops before with
  | nil =>
      cases run
      exact ⟨[], rfl, by simp, by simp⟩
  | cons c rest ih =>
      obtain ⟨⟨middle_ops, middle⟩, stepped, rest_run⟩ := foldlM_cons_eq_some.mp run
      simp only [stepCreate, Option.bind_eq_bind, Option.bind_eq_some_iff, Prod.exists]
        at stepped
      obtain ⟨verification, slug, book, planned, same⟩ := stepped
      cases same
      obtain ⟨tail, tail_eq, ops_eq, placed⟩ := ih rest_run
      refine ⟨⟨c.1.1, c.1.2, c.2, verification, slug⟩ :: tail, ?_, ?_, ?_⟩
      · simp [PlannedCreate.source, tail_eq]
      · simp [ops_eq, PlannedCreate.op]
      · intro p member
        rcases List.mem_cons.mp member with rfl | later
        · exact createSlug_placed planned
        · exact placed p later

end

end FauPortalen.Register

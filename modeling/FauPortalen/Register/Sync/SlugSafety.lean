import FauPortalen.Foundations.PartialFold
import FauPortalen.Register.Sync.SchoolDraft
import FauPortalen.Register.Sync.SchoolEffects

/-! A plan's school operations keep slugs safe after every one of them. The closings come
first and only release slugs; after them the final slug book describes every register the
remaining operations pass through, since each of them names slugs the book has for its
school.
-/

set_option linter.unusedSectionVars false

namespace FauPortalen.Register

open FauPortalen.Foundations

variable {Id : Type} [LinearOrder Id]

-----------------------------------------------------------------------------------------
-- New ids

/-- New rows have ids of their own. -/
structure NewIds.Fresh (ids : NewIds Id) (snapshot : RegisterSnapshot Id) : Prop where
  school : ∀ n id, ids.school n = some id → id ∉ snapshot.schools.map (·.id)
  schoolInjective : ∀ m n id, ids.school m = some id → ids.school n = some id → m = n
  municipality : ∀ n id, ids.municipality n = some id →
    id ∉ snapshot.municipalities.map (·.id)
  municipalityInjective : ∀ m n id,
    ids.municipality m = some id → ids.municipality n = some id → m = n

/-- The reference names a municipality with the id: a new one, or one of the snapshot. -/
def NewIds.NamesMunicipality (ids : NewIds Id) (snapshot : RegisterSnapshot Id)
    (r : Ref Id) (id : Id) : Prop :=
  ids.municipalityId r = some id
    ∧ ∀ known, r = .existing known → known ∈ snapshot.municipalities.map (·.id)

/-- The reference names a school with the id: a new one, or one of the snapshot. -/
def NewIds.NamesSchool (ids : NewIds Id) (snapshot : RegisterSnapshot Id) (r : Ref Id)
    (id : Id) : Prop :=
  ids.schoolId r = some id
    ∧ ∀ known, r = .existing known → known ∈ snapshot.schools.map (·.id)

variable {ids : NewIds Id} {snapshot : RegisterSnapshot Id}

/-- One id has one name, since new rows have ids of their own. -/
theorem NewIds.Fresh.municipality_name (fresh : ids.Fresh snapshot) {left right : Ref Id}
    {id : Id} (hl : ids.NamesMunicipality snapshot left id)
    (hr : ids.NamesMunicipality snapshot right id)
    : left = right := by
  obtain ⟨resolvesLeft, knownLeft⟩ := hl
  obtain ⟨resolvesRight, knownRight⟩ := hr
  cases left with
  | existing a =>
      cases Option.some.inj resolvesLeft
      cases right with
      | existing b => rw [Option.some.inj resolvesRight]
      | new n => exact absurd (knownLeft _ rfl) (fresh.municipality n _ resolvesRight)
  | new m =>
      cases right with
      | existing b =>
          cases Option.some.inj resolvesRight
          exact absurd (knownRight _ rfl) (fresh.municipality m _ resolvesLeft)
      | new n => rw [fresh.municipalityInjective m n id resolvesLeft resolvesRight]

theorem NewIds.NamesSchool.existing {id : Id} (h : id ∈ snapshot.schools.map (·.id))
    : ids.NamesSchool snapshot (.existing id) id :=
  ⟨rfl, fun known same => by cases same; exact h⟩

theorem NewIds.NamesMunicipality.existing {id : Id}
    (h : id ∈ snapshot.municipalities.map (·.id))
    : ids.NamesMunicipality snapshot (.existing id) id :=
  ⟨rfl, fun known same => by cases same; exact h⟩

-----------------------------------------------------------------------------------------
-- The register the book describes

/-- The book describes the register once the closings are done: it has every current slug
for its school, and a slug in the history is the snapshot's, a closed school's, or one the
book still has for the school that gave it up.
-/
structure SlugBook.Describes (book : SlugBook Id) (ids : NewIds Id)
    (snapshot out : RegisterSnapshot Id) : Prop where
  unique : (out.schools.map (·.id)).Nodup
  contains : snapshot.schools.map (·.id) ⊆ out.schools.map (·.id)
  verified : ∀ s ∈ snapshot.schools, ∀ row ∈ out.schools,
    row.id = s.id → row.verification = s.verification
  held : ∀ row ∈ out.schools, row.verification = .held → row.slug = none
  closed : ∀ row ∈ out.schools, row.status = .closed ↔ row.id ∈ book.closed
  holder : ∀ row ∈ out.schools, ∀ slug, row.slug = some slug →
    ∃ municipality me, ids.NamesMunicipality snapshot municipality row.municipalityId
      ∧ ids.NamesSchool snapshot me row.id
      ∧ book.current (municipality, slug) = some me
  history : ∀ entry ∈ out.schoolSlugHistory,
    entry ∈ snapshot.schoolSlugHistory ∨ entry.2.2 ∈ book.closed
      ∨ ∃ municipality, ids.NamesMunicipality snapshot municipality entry.1
        ∧ book.current (municipality, entry.2.1) = some (.existing entry.2.2)

/-- A register the book describes is safe: a slug has one holder in the book, and the book
serves the snapshot's histories.
-/
theorem SlugBook.Describes.slugSafe {book : SlugBook Id} {out : RegisterSnapshot Id}
    {closings : List (Closing Id)} (h : book.Describes ids snapshot out)
    (store : StoreConstraints snapshot) (serves : book.Serves snapshot closings)
    (fresh : ids.Fresh snapshot)
    : SlugSafe out := by
  refine ⟨?_, h.held, ?_⟩
  · suffices distinct : ((currentSlugs out).map id).Nodup by simpa using distinct
    refine nodup_filterMap_keys h.unique ?_
    intro s hs t ht x y hx hy same
    cases same
    obtain ⟨slug, left, rfl⟩ := Option.map_eq_some_iff.mp hx
    obtain ⟨slug', right, same⟩ := Option.map_eq_some_iff.mp hy
    simp only [Prod.mk.injEq] at same
    obtain ⟨here, rfl⟩ := same
    obtain ⟨m, me, hm, hme, found⟩ := h.holder s hs slug' left
    obtain ⟨m', me', hm', hme', found'⟩ := h.holder t ht slug' right
    cases fresh.municipality_name hm (here ▸ hm')
    rw [found] at found'
    cases found'
    exact Option.some.inj (hme.1.symm.trans hme'.1)
  · intro s hs t ht openS openT differ slug current row
    obtain ⟨m, me, hm, hme, found⟩ := h.holder s hs slug current
    have t_open : t.id ∉ book.closed := fun closed => by
      rw [(h.closed t ht).mpr closed] at openT
      cases openT
    have s_open : s.id ∉ book.closed := fun closed => by
      rw [(h.closed s hs).mpr closed] at openS
      cases openS
    rcases h.history _ row with original | closed | ⟨m', hm', given⟩
    · -- an original history row: the book served it when the slug was taken
      have here : m = .existing s.municipalityId := fresh.municipality_name hm
        (.existing (store.historyLocated _ original))
      obtain ⟨former, member, same⟩ := List.mem_map.mp (store.historyOwned _ original)
      simp only at same
      have listed : former.id ∈ book.history (m, slug) := by
        rw [serves.history, mem_ofSnapshot_history]
        exact ⟨s.municipalityId, here, same ▸ original⟩
      have stays : ∀ id, me = .existing id → id ∉ book.closed := by
        intro id existing
        subst existing
        cases Option.some.inj hme.1
        exact s_open
      rcases serves.fair _ _ found stays former member listed with mine | closed
      · rw [← mine, same] at hme
        exact differ (Option.some.inj hme.1).symm
      · exact t_open (same ▸ closed)
    · exact t_open closed
    · cases fresh.municipality_name hm hm'
      rw [found] at given
      cases Option.some.inj given
      exact differ (Option.some.inj hme.1).symm

-----------------------------------------------------------------------------------------
-- Operations that fit the book

/-- The operation comes after the closings and names only slugs the book has for its
school. One that moves a school or changes its slug targets a tracked school that is not
closing, and gives up that school's slug in the snapshot.
-/
def SchoolOp.Fits (book : SlugBook Id) (ids : NewIds Id) (snapshot : RegisterSnapshot Id)
    (closings : List (Closing Id)) : SchoolOp Id → Prop
  | .close .. => False
  | .create new municipality _ _ _ slug verification _ _ _ =>
      (∃ id, ids.NamesMunicipality snapshot municipality id) ∧ (ids.school new).isSome
        ∧ (verification = .held → slug = none)
        ∧ ∀ x, slug = some x → book.current (municipality, x) = some (.new new)
  | .updateAttributes id _ => id ∈ snapshot.schools.map (·.id)
  | .rename id _ _ slug =>
      ∃ s ∈ snapshot.schools, s.id = id ∧ s.isTracked = true
        ∧ (∀ c ∈ closings, c.school.id ≠ id)
        ∧ ∀ change, slug = some change → change.old = s.slug
          ∧ book.current (.existing s.municipalityId, change.new) = some (.existing id)
  | .move id source target slug =>
      ∃ s ∈ snapshot.schools, s.id = id ∧ s.isTracked = true
        ∧ (∀ c ∈ closings, c.school.id ≠ id)
        ∧ source = s.municipalityId ∧ (∃ m, ids.NamesMunicipality snapshot target m)
        ∧ (slug = none → s.slug = none)
        ∧ ∀ change, slug = some change → change.old = s.slug
          ∧ book.current (target, change.new) = some (.existing id)

/-- The target of the operation still has the municipality and the slug of the snapshot. -/
def SchoolOp.Untouched (snapshot out : RegisterSnapshot Id) (op : SchoolOp Id) : Prop :=
  op.isAttributes = false → ∀ row ∈ out.schools, op.target? = some row.id →
    ∃ s ∈ snapshot.schools, s.id = row.id ∧ row.municipalityId = s.municipalityId
      ∧ row.slug = s.slug

section

variable {book : SlugBook Id} {closings : List (Closing Id)} {op : SchoolOp Id}
  {out : RegisterSnapshot Id}

theorem SchoolOp.Fits.resolves (h : op.Fits book ids snapshot closings) : op.Resolves ids := by
  cases op with
  | close => exact h.elim
  | create =>
      obtain ⟨⟨id, named, _⟩, new, _⟩ := h
      exact ⟨new, by rw [named]; rfl⟩
  | move =>
      obtain ⟨_, _, _, _, _, _, ⟨m, named, _⟩, _⟩ := h
      exact (congrArg Option.isSome named).trans rfl
  | rename => trivial
  | updateAttributes => trivial

theorem SchoolOp.Fits.target (h : op.Fits book ids snapshot closings) {id : Id}
    (target : op.target? = some id)
    : id ∈ snapshot.schools.map (·.id) := by
  cases op with
  | close => exact h.elim
  | create => cases target
  | updateAttributes =>
      cases target
      exact h
  | rename | move =>
      cases target
      obtain ⟨s, member, rfl, _⟩ := h
      exact List.mem_map_of_mem member

/-- An operation after the closings leaves every status as it is. -/
theorem SchoolOp.Fits.status (h : op.Fits book ids snapshot closings) (row : SchoolSnapshot Id)
    : (op.onRow ids row).status = row.status := by
  unfold SchoolOp.onRow
  split
  · cases op with
    | close => exact h.elim
    | _ => rfl
  · rfl

theorem SchoolOp.onRow_verification (row : SchoolSnapshot Id)
    : (op.onRow ids row).verification = row.verification := by
  unfold SchoolOp.onRow
  split
  · exact SchoolOp.change_verification _ _ _
  · rfl

/-- The rows a fitting operation creates. -/
theorem SchoolOp.Fits.rows (h : op.Fits book ids snapshot closings)
    (fresh : ids.Fresh snapshot) {row : SchoolSnapshot Id} (member : row ∈ op.rows ids)
    : (∃ n, createdSchool? op = some n ∧ ids.school n = some row.id)
      ∧ row.status = .active ∧ row.id ∉ snapshot.schools.map (·.id)
      ∧ (row.verification = .held → row.slug = none)
      ∧ ∀ slug, row.slug = some slug →
        ∃ municipality me, ids.NamesMunicipality snapshot municipality row.municipalityId
          ∧ ids.NamesSchool snapshot me row.id
          ∧ book.current (municipality, slug) = some me := by
  cases op with
  | create new municipality orgnr registerName displayName slug verification inScope
      attributes changed =>
      obtain ⟨⟨m, named, known⟩, new_id, held, holds⟩ := h
      obtain ⟨id, hid⟩ := Option.isSome_iff_exists.mp new_id
      simp only [SchoolOp.rows, hid, named, List.mem_singleton] at member
      subst member
      refine ⟨⟨new, rfl, hid⟩, rfl, fresh.school new id hid, ?_, ?_⟩
      · intro isHeld
        cases verification with
        | listed => cases isHeld
        | held => exact held rfl
      · intro x found
        exact ⟨municipality, .new new, ⟨named, known⟩, ⟨hid, by simp⟩, holds x found⟩
  | _ => cases member

/-- A row a fitting operation changes has a slug the book knows, if any. -/
theorem SchoolOp.Fits.holder (h : op.Fits book ids snapshot closings)
    (store : StoreConstraints snapshot) (described : book.Describes ids snapshot out)
    (untouched : op.Untouched snapshot out) {row : SchoolSnapshot Id}
    (member : row ∈ out.schools) {slug : String}
    (found : (op.onRow ids row).slug = some slug)
    : ∃ municipality me,
        ids.NamesMunicipality snapshot municipality (op.onRow ids row).municipalityId
          ∧ ids.NamesSchool snapshot me (op.onRow ids row).id
          ∧ book.current (municipality, slug) = some me := by
  by_cases target : op.target? = some row.id
  · rw [SchoolOp.onRow_of_eq target] at found ⊢
    cases op with
    | close => exact h.elim
    | create => cases target
    | updateAttributes => exact described.holder row member slug found
    | rename id registerName displayName change =>
        cases target
        obtain ⟨s, hs, same, _, _, fits⟩ := h
        cases change with
        | none => exact described.holder row member slug found
        | some change =>
            cases Option.some.inj found
            obtain ⟨t, ht, same', here, _⟩ := untouched rfl row member rfl
            cases store.school_ext hs ht (same.trans same'.symm)
            refine ⟨.existing s.municipalityId, .existing row.id, ?_, ?_, (fits _ rfl).2⟩
            · have at_home : row.municipalityId = s.municipalityId := here
              have named : ids.NamesMunicipality snapshot (.existing s.municipalityId)
                  s.municipalityId := .existing (store.located s hs)
              rwa [← at_home] at named ⊢
            · exact .existing (same ▸ List.mem_map_of_mem hs)
    | move id source moved change =>
        cases target
        obtain ⟨s, hs, same, _, _, _, ⟨m, named, known⟩, slugless, fits⟩ := h
        cases change with
        | none =>
            obtain ⟨t, ht, same', _, own⟩ := untouched rfl row member rfl
            cases store.school_ext hs ht (same.trans same'.symm)
            have current : row.slug = some slug := found
            rw [own, slugless rfl] at current
            cases current
        | some change =>
            cases Option.some.inj found
            refine ⟨moved, .existing row.id, ⟨?_, known⟩, ?_, (fits _ rfl).2⟩
            · simp [SchoolOp.change, SchoolSnapshot.move, named]
            · exact .existing (same ▸ List.mem_map_of_mem hs)
  · rw [SchoolOp.onRow_of_ne target] at found ⊢
    exact described.holder row member slug found

/-- The history row a fitting operation writes names a slug the book still has for its
school: the one that school had in the snapshot.
-/
theorem SchoolOp.Fits.written (h : op.Fits book ids snapshot closings)
    (store : StoreConstraints snapshot) (serves : book.Serves snapshot closings)
    (described : book.Describes ids snapshot out) (untouched : op.Untouched snapshot out)
    {entry : Id × String × Id} (member : entry ∈ op.written out.schools)
    : ∃ municipality, ids.NamesMunicipality snapshot municipality entry.1
        ∧ book.current (municipality, entry.2.1) = some (.existing entry.2.2) := by
  have kept {s : SchoolSnapshot Id} (hs : s ∈ snapshot.schools)
      (stays : ∀ c ∈ closings, c.school.id ≠ s.id) {old : String} (own : s.slug = some old)
      : ids.NamesMunicipality snapshot (.existing s.municipalityId) s.municipalityId
        ∧ book.current (.existing s.municipalityId, old) = some (.existing s.id) :=
    ⟨.existing (store.located s hs),
      serves.kept s hs stays _ (keyOf?_eq_some.mpr ⟨old, own, rfl⟩)⟩
  simp only [SchoolOp.written, Option.mem_toList, Option.bind_eq_some_iff] at member
  obtain ⟨row, ⟨id, target, found⟩, given⟩ := member
  obtain ⟨present, same_id⟩ := (findRow_eq_some described.unique).mp found
  cases op with
  | close => exact h.elim
  | create => cases target
  | updateAttributes => cases given
  | rename id' registerName displayName change =>
      cases target
      obtain ⟨s, hs, same, _, stays, fits⟩ := h
      cases change with
      | none => cases given
      | some change =>
          obtain ⟨old, gave, rfl⟩ := Option.map_eq_some_iff.mp given
          obtain ⟨t, ht, same', here, _⟩ := untouched rfl row present (by rw [same_id]; rfl)
          cases store.school_ext hs ht (same.trans (same_id.symm.trans same'.symm))
          have own : s.slug = some old := (fits _ rfl).1.symm.trans gave
          obtain ⟨named, holds⟩ := kept hs (same ▸ stays) own
          refine ⟨.existing s.municipalityId, ?_, same ▸ holds⟩
          rw [here]
          exact named
  | move id' source moved change =>
      cases target
      obtain ⟨s, hs, same, _, stays, home, _, _, fits⟩ := h
      cases change with
      | none => cases given
      | some change =>
          obtain ⟨old, gave, rfl⟩ := Option.map_eq_some_iff.mp given
          have own : s.slug = some old := (fits _ rfl).1.symm.trans gave
          obtain ⟨named, holds⟩ := kept hs (same ▸ stays) own
          exact ⟨.existing s.municipalityId, home ▸ named, same ▸ holds⟩

-----------------------------------------------------------------------------------------
-- Running fitting operations

/-- The operations still to come fit the book: their targets are as the snapshot has them,
each school changes municipality or slug at most once and last, and their new rows are not
there yet.
-/
structure SlugBook.Awaits (book : SlugBook Id) (ids : NewIds Id)
    (snapshot : RegisterSnapshot Id) (closings : List (Closing Id))
    (out : RegisterSnapshot Id) (rest : List (SchoolOp Id)) : Prop where
  fits : ∀ op ∈ rest, op.Fits book ids snapshot closings
  untouched : ∀ op ∈ rest, op.Untouched snapshot out
  once : rest.Pairwise fun a b =>
    a.rekeys = true → b.target? = a.target? → b.isAttributes = true
  numbers : (rest.filterMap createdSchool?).Nodup
  missing : ∀ n ∈ rest.filterMap createdSchool?, ∀ id,
    ids.school n = some id → id ∉ out.schools.map (·.id)

/-- An operation that does not rekey leaves the municipality and the slug of every row. -/
theorem SchoolOp.onRow_key {row : SchoolSnapshot Id} (keeps : op.rekeys = false)
    : (op.onRow ids row).municipalityId = row.municipalityId
      ∧ (op.onRow ids row).slug = row.slug := by
  unfold SchoolOp.onRow
  split
  · cases op with
    | close => cases keeps
    | move => cases keeps
    | rename id registerName displayName slug =>
        cases slug with
        | none => exact ⟨rfl, rfl⟩
        | some _ => cases keeps
    | updateAttributes => exact ⟨rfl, rfl⟩
    | create => exact ⟨rfl, rfl⟩
  · exact ⟨rfl, rfl⟩

theorem SchoolOp.mem_result {row : SchoolSnapshot Id}
    : row ∈ (op.result ids out).schools
      ↔ (∃ before ∈ out.schools, op.onRow ids before = row) ∨ row ∈ op.rows ids := by
  simp [SchoolOp.result]

/-- A created row is new to the register: its number was still to come. -/
theorem SlugBook.Awaits.new_row {rest : List (SchoolOp Id)}
    (awaits : book.Awaits ids snapshot closings out (op :: rest)) (fresh : ids.Fresh snapshot)
    {row : SchoolSnapshot Id} (member : row ∈ op.rows ids)
    : row.id ∉ out.schools.map (·.id) := by
  obtain ⟨⟨n, number, named⟩, _⟩ := (awaits.fits op List.mem_cons_self).rows fresh member
  exact awaits.missing n (List.mem_filterMap.mpr ⟨op, List.mem_cons_self, number⟩) _ named

/-- One fitting operation keeps the description. -/
theorem SlugBook.Describes.step {rest : List (SchoolOp Id)}
    (h : book.Describes ids snapshot out) (store : StoreConstraints snapshot)
    (serves : book.Serves snapshot closings) (fresh : ids.Fresh snapshot)
    (members : ∀ c ∈ closings, c.school ∈ snapshot.schools)
    (awaits : book.Awaits ids snapshot closings out (op :: rest))
    : book.Describes ids snapshot (op.result ids out) := by
  have fits := awaits.fits op List.mem_cons_self
  have untouched := awaits.untouched op List.mem_cons_self
  have closed_known : ∀ id ∈ book.closed, id ∈ snapshot.schools.map (·.id) := by
    intro id closed
    rcases (serves.closed id).mp closed with ⟨s, hs, _, rfl⟩ | ⟨c, hc, rfl⟩
    · exact List.mem_map_of_mem hs
    · exact List.mem_map_of_mem (members c hc)
  have kept_ids : (op.result ids out).schools.map (·.id)
      = out.schools.map (·.id) ++ (op.rows ids).map (·.id) := by
    simp [SchoolOp.result, Function.comp_def]
  refine ⟨?_, ?_, ?_, ?_, ?_, ?_, ?_⟩
  · rw [kept_ids]
    refine List.nodup_append.mpr ⟨h.unique, ?_, ?_⟩
    · cases op with
      | create new municipality =>
          simp only [SchoolOp.rows]
          split <;> simp
      | _ => exact List.nodup_nil
    · intro id old id' new same
      obtain ⟨row, member, rfl⟩ := List.mem_map.mp new
      exact awaits.new_row fresh member (same ▸ old)
  · rw [kept_ids]
    exact fun id member => List.mem_append_left _ (h.contains member)
  · intro s hs row member same
    rcases SchoolOp.mem_result.mp member with ⟨before, inside, rfl⟩ | created
    · rw [SchoolOp.onRow_verification]
      exact h.verified s hs before inside (by simpa using same)
    · exact absurd (same ▸ List.mem_map_of_mem hs) (fits.rows fresh created).2.2.1
  · intro row member isHeld
    rcases SchoolOp.mem_result.mp member with ⟨before, inside, rfl⟩ | created
    · rw [SchoolOp.onRow_verification] at isHeld
      by_cases keeps : op.rekeys = false
      · rw [(SchoolOp.onRow_key keeps).2]
        exact h.held before inside isHeld
      · by_cases target : op.target? = some before.id
        · -- a rekeyed school is tracked, so it is not held
          have tracked : ∃ s ∈ snapshot.schools, s.id = before.id ∧ s.isTracked = true := by
            cases op with
            | close => exact fits.elim
            | create | updateAttributes => exact absurd rfl keeps
            | rename | move =>
                cases target
                obtain ⟨s, hs, same, tracked, _⟩ := fits
                exact ⟨s, hs, same, tracked⟩
          obtain ⟨s, hs, same, tracked⟩ := tracked
          have verified := h.verified s hs before inside same.symm
          simp [SchoolSnapshot.isTracked, ← verified, isHeld] at tracked
        · rw [SchoolOp.onRow_of_ne target]
          exact h.held before inside isHeld
    · exact (fits.rows fresh created).2.2.2.1 isHeld
  · intro row member
    rcases SchoolOp.mem_result.mp member with ⟨before, inside, rfl⟩ | created
    · rw [fits.status, SchoolOp.onRow_id]
      exact h.closed before inside
    · obtain ⟨_, active, new, _⟩ := fits.rows fresh created
      rw [active]
      refine ⟨fun impossible => ?_, fun gone => absurd (closed_known _ gone) new⟩
      cases impossible
  · intro row member slug found
    rcases SchoolOp.mem_result.mp member with ⟨before, inside, rfl⟩ | created
    · exact fits.holder store h untouched inside found
    · exact (fits.rows fresh created).2.2.2.2 slug found
  · intro entry member
    rcases List.mem_append.mp member with old | new
    · exact h.history entry old
    · exact .inr (.inr (fits.written store serves h untouched new))

/-- One fitting operation leaves the rest fitting. -/
theorem SlugBook.Awaits.step {rest : List (SchoolOp Id)}
    (awaits : book.Awaits ids snapshot closings out (op :: rest)) (fresh : ids.Fresh snapshot)
    : book.Awaits ids snapshot closings (op.result ids out) rest := by
  obtain ⟨once_head, once_rest⟩ := List.pairwise_cons.mp awaits.once
  have later (n : Nat) (member : n ∈ rest.filterMap createdSchool?)
      : n ∈ (op :: rest).filterMap createdSchool? := by
    obtain ⟨b, inside, number⟩ := List.mem_filterMap.mp member
    exact List.mem_filterMap.mpr ⟨b, List.mem_cons_of_mem _ inside, number⟩
  refine ⟨fun b inside => awaits.fits b (List.mem_cons_of_mem _ inside), ?_, once_rest, ?_, ?_⟩
  · intro b inside keyed row member target
    rcases SchoolOp.mem_result.mp member with ⟨before, present, rfl⟩ | created
    · rw [SchoolOp.onRow_id] at target ⊢
      have untouched := awaits.untouched b (List.mem_cons_of_mem _ inside) keyed before present
        target
      by_cases here : op.target? = some before.id
      · have keeps : op.rekeys = false := by
          by_contra rekeys
          have attributes := once_head b inside (by simpa using rekeys) (target.trans here.symm)
          rw [attributes] at keyed
          cases keyed
        rw [(SchoolOp.onRow_key keeps).1, (SchoolOp.onRow_key keeps).2]
        exact untouched
      · rw [SchoolOp.onRow_of_ne here]
        exact untouched
    · have known := (awaits.fits b (List.mem_cons_of_mem _ inside)).target target
      exact absurd known ((awaits.fits op List.mem_cons_self).rows fresh created).2.2.1
  · exact awaits.numbers.sublist ((List.sublist_cons_self op rest).filterMap _)
  · intro n member id named
    simp only [SchoolOp.result, List.map_append, List.map_map, List.mem_append, not_or]
    refine ⟨?_, ?_⟩
    · have kept : out.schools.map ((·.id) ∘ op.onRow ids) = out.schools.map (·.id) :=
        List.map_congr_left fun row _ => SchoolOp.onRow_id ids op row
      rw [kept]
      exact awaits.missing n (later n member) id named
    · intro created
      obtain ⟨row, inside, same⟩ := List.mem_map.mp created
      obtain ⟨⟨m, number, hm⟩, _⟩ := (awaits.fits op List.mem_cons_self).rows fresh inside
      have one : m = n := fresh.schoolInjective m n id (same ▸ hm) named
      have apart := awaits.numbers
      rw [List.filterMap_cons_some number, List.nodup_cons] at apart
      exact apart.1 (one ▸ member)

/-- Fitting operations run to their end, and after each prefix the book still describes the
register; by induction on the operations.
-/
theorem SlugBook.Describes.run {first rest : List (SchoolOp Id)}
    (h : book.Describes ids snapshot out) (store : StoreConstraints snapshot)
    (serves : book.Serves snapshot closings) (fresh : ids.Fresh snapshot)
    (members : ∀ c ∈ closings, c.school ∈ snapshot.schools)
    (awaits : book.Awaits ids snapshot closings out (first ++ rest))
    : ∃ after, applySchoolOps ids out first = some after
        ∧ book.Describes ids snapshot after ∧ book.Awaits ids snapshot closings after rest := by
  induction first generalizing out with
  | nil => exact ⟨out, rfl, h, awaits⟩
  | cons op later ih =>
      have fits := awaits.fits op List.mem_cons_self
      have stepped : applySchoolOp ids out op = some (op.result ids out) :=
        applySchoolOp_eq h.unique (fun id target => h.contains (fits.target target))
          fits.resolves
      obtain ⟨after, run, described, still⟩ :=
        ih (h.step store serves fresh members awaits) (awaits.step fresh)
      exact ⟨after, foldlM_cons_eq_some.mpr ⟨_, stepped, run⟩, described, still⟩

-----------------------------------------------------------------------------------------
-- The closings

/-- The register after closing these schools: their rows are closed and without a slug,
every other row is the snapshot's, and new history rows are theirs.
-/
structure ClosedUpTo (snapshot out : RegisterSnapshot Id) (done : List Id) : Prop where
  ids : out.schools.map (·.id) = snapshot.schools.map (·.id)
  rows : ∀ row ∈ out.schools, ∃ s ∈ snapshot.schools, row.id = s.id
    ∧ row.verification = s.verification
    ∧ ((s.id ∉ done ∧ row = s) ∨ (s.id ∈ done ∧ row.status = .closed ∧ row.slug = none))
  history : ∀ entry ∈ out.schoolSlugHistory,
    entry ∈ snapshot.schoolSlugHistory ∨ entry.2.2 ∈ done

/-- One closing adds its school. -/
theorem ClosedUpTo.step {done : List Id} {c : Closing Id} (h : ClosedUpTo snapshot out done)
    : ClosedUpTo snapshot ((closeOp c).result ids out) (done ++ [c.school.id]) := by
  refine ⟨?_, ?_, ?_⟩
  · rw [← h.ids]
    simp [SchoolOp.result, closeOp, SchoolOp.rows, Function.comp_def]
  · intro row member
    rcases SchoolOp.mem_result.mp member with ⟨before, inside, rfl⟩ | created
    · obtain ⟨s, hs, same, verified, state⟩ := h.rows before inside
      rw [SchoolOp.onRow_id, SchoolOp.onRow_verification]
      refine ⟨s, hs, same, verified, ?_⟩
      by_cases target : (closeOp c).target? = some before.id
      · have closing : c.school.id = before.id := Option.some.inj target
        rw [SchoolOp.onRow_of_eq target]
        exact .inr ⟨List.mem_append_right _ (by simp [closing, same]), rfl, rfl⟩
      · rw [SchoolOp.onRow_of_ne target]
        have other : s.id ≠ c.school.id := fun e =>
          target (congrArg some (e.symm.trans same.symm))
        rcases state with ⟨open_row, own⟩ | ⟨closed, gone⟩
        · exact .inl ⟨by simp [open_row, other], own⟩
        · exact .inr ⟨List.mem_append_left _ closed, gone⟩
    · cases created
  · intro entry member
    rcases List.mem_append.mp member with old | new
    · rcases h.history entry old with original | closed
      · exact .inl original
      · exact .inr (List.mem_append_left _ closed)
    · simp only [SchoolOp.written, Option.mem_toList, Option.bind_eq_some_iff] at new
      obtain ⟨row, _, given⟩ := new
      obtain ⟨slug, _, rfl⟩ := Option.map_eq_some_iff.mp given
      exact .inr (List.mem_append_right _ (List.mem_singleton.mpr rfl))

/-- Closing schools of the snapshot runs to its end, by induction on the closings. -/
theorem ClosedUpTo.run {closings : List (Closing Id)} {done : List Id}
    (h : ClosedUpTo snapshot out done) (store : StoreConstraints snapshot)
    (members : ∀ c ∈ closings, c.school ∈ snapshot.schools)
    : ∃ after, applySchoolOps ids out (closings.map closeOp) = some after
        ∧ ClosedUpTo snapshot after (done ++ closings.map (·.school.id)) := by
  induction closings generalizing out done with
  | nil => exact ⟨out, rfl, by simpa using h⟩
  | cons c rest ih =>
      have stepped : applySchoolOp ids out (closeOp c) = some ((closeOp c).result ids out) := by
        refine applySchoolOp_eq (h.ids ▸ store.schoolIds) ?_ trivial
        intro id target
        cases target
        exact h.ids ▸ List.mem_map_of_mem (members c List.mem_cons_self)
      obtain ⟨after, run, closed⟩ :=
        ih h.step fun c' later => members c' (List.mem_cons_of_mem _ later)
      refine ⟨after, foldlM_cons_eq_some.mpr ⟨_, stepped, run⟩, ?_⟩
      simpa using closed

/-- Closing schools releases slugs and takes none, so it keeps them safe. -/
theorem ClosedUpTo.slugSafe {done : List Id} (h : ClosedUpTo snapshot out done)
    (store : StoreConstraints snapshot)
    : SlugSafe out := by
  have unchanged : ∀ row ∈ out.schools, row.status = .active ∨ row.slug.isSome →
      row ∈ snapshot.schools ∧ row.id ∉ done := by
    intro row member stays
    obtain ⟨s, hs, _, _, ⟨open_row, rfl⟩ | ⟨_, closed, slugless⟩⟩ := h.rows row member
    · exact ⟨hs, open_row⟩
    · simp [closed, slugless] at stays
  refine ⟨?_, ?_, ?_⟩
  · suffices distinct : ((currentSlugs out).map id).Nodup by simpa using distinct
    refine nodup_filterMap_keys (h.ids ▸ store.schoolIds) ?_
    intro s hs t ht x y hx hy same
    cases same
    obtain ⟨slug, left, rfl⟩ := Option.map_eq_some_iff.mp hx
    obtain ⟨slug', right, same⟩ := Option.map_eq_some_iff.mp hy
    simp only [Prod.mk.injEq] at same
    obtain ⟨here, rfl⟩ := same
    have in_s := (unchanged s hs (.inr (by simp [left]))).1
    have in_t := (unchanged t ht (.inr (by simp [right]))).1
    exact congrArg SchoolSnapshot.id (store.school_of_slug in_s in_t here.symm left right)
  · intro row member isHeld
    obtain ⟨s, hs, _, _, ⟨_, rfl⟩ | ⟨_, _, slugless⟩⟩ := h.rows row member
    · exact store.slugSafe.held row hs isHeld
    · exact slugless
  · intro s hs t ht openS openT differ slug current row
    have in_s := (unchanged s hs (.inl openS)).1
    obtain ⟨in_t, open_t⟩ := unchanged t ht (.inl openT)
    rcases h.history _ row with original | closed
    · exact store.slugSafe.history s in_s t in_t openS openT differ slug current original
    · exact open_t closed

/-- Once every closing is done, a book that serves the snapshot describes the register. -/
theorem ClosedUpTo.described (h : ClosedUpTo snapshot out (closings.map (·.school.id)))
    (store : StoreConstraints snapshot) (serves : book.Serves snapshot closings)
    : book.Describes ids snapshot out := by
  refine ⟨h.ids ▸ store.schoolIds, h.ids ▸ List.Subset.refl _, ?_, ?_, ?_, ?_, ?_⟩
  · intro s hs row member same
    obtain ⟨t, ht, same', verified, _⟩ := h.rows row member
    rw [verified, store.school_ext hs ht (same.symm.trans same')]
  · exact (h.slugSafe store).held
  · intro row member
    rw [serves.closed]
    obtain ⟨s, hs, same, _, ⟨open_row, rfl⟩ | ⟨closing, closed, _⟩⟩ := h.rows row member
    · constructor
      · exact fun closed => .inl ⟨row, hs, closed, rfl⟩
      · intro gone
        rcases gone with ⟨t, ht, closed, same⟩ | ⟨c, hc, same⟩
        · exact store.school_ext ht hs same ▸ closed
        · exact absurd (List.mem_map.mpr ⟨c, hc, same⟩) open_row
    · obtain ⟨c, hc, same'⟩ := List.mem_map.mp closing
      exact ⟨fun _ => .inr ⟨c, hc, same'.trans same.symm⟩, fun _ => closed⟩
  · intro row member slug found
    obtain ⟨s, hs, _, _, ⟨open_row, rfl⟩ | ⟨_, _, slugless⟩⟩ := h.rows row member
    · refine ⟨.existing row.municipalityId, .existing row.id, .existing (store.located row hs),
        .existing (List.mem_map_of_mem hs), ?_⟩
      refine serves.kept row hs (fun c hc same => ?_) _ (keyOf?_eq_some.mpr ⟨slug, found, rfl⟩)
      exact open_row (List.mem_map.mpr ⟨c, hc, same⟩)
    · rw [slugless] at found
      cases found
  · intro entry member
    rcases h.history entry member with original | closed
    · exact .inl original
    · refine .inr (.inl ((serves.closed _).mpr (.inr ?_)))
      exact List.mem_map.mp closed

end

end FauPortalen.Register

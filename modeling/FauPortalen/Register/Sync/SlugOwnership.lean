import FauPortalen.Register.Sync.Placement
import FauPortalen.Register.Sync.PlannedOps

/-! What the slug book knows before anything is minted: every school that stays keeps its
slug, every successor has its predecessor's, and nobody's slug was another open school's.
-/

set_option linter.unusedSectionVars false

namespace FauPortalen.Register

open FauPortalen.Foundations

variable {Id : Type} [LinearOrder Id] {snapshot : RegisterSnapshot Id}

/-- The book serves the snapshot's schools: it knows the slug of every school that is not
closing, and no holder that stays open has a slug from another open school's history.
-/
structure SlugBook.Serves (book : SlugBook Id) (snapshot : RegisterSnapshot Id)
    (closings : List (Closing Id)) : Prop where
  kept : ∀ s ∈ snapshot.schools, (∀ c ∈ closings, c.school.id ≠ s.id) →
    ∀ key, SlugBook.keyOf? s = some key → book.current key = some (.existing s.id)
  fair : ∀ key holder, book.current key = some holder →
    (∀ id, holder = .existing id → id ∉ book.closed) →
    ∀ t ∈ snapshot.schools, t.id ∈ book.history key →
      Ref.existing t.id = holder ∨ t.id ∈ book.closed
  history : book.history = (SlugBook.ofSnapshot snapshot).history
  closed : ∀ id, id ∈ book.closed
    ↔ (∃ s ∈ snapshot.schools, s.status = .closed ∧ s.id = id)
      ∨ ∃ c ∈ closings, c.school.id = id

/-- A growing book goes on serving the snapshot. -/
theorem SlugBook.Serves.grow {before after : SlugBook Id} {closings : List (Closing Id)}
    (h : before.Serves snapshot closings) (grows : before.Grows after)
    : after.Serves snapshot closings := by
  refine ⟨?_, ?_, grows.history.trans h.history, grows.closed ▸ h.closed⟩
  · intro s member stays key found
    exact grows.keeps _ _ (h.kept s member stays key found)
  · intro key holder found stays t member former
    rw [grows.closed] at stays ⊢
    rw [grows.history] at former
    rcases grows.fair key holder found with before | fair
    · exact h.fair key holder before stays t member former
    · exact fair t.id former

-----------------------------------------------------------------------------------------
-- The snapshot's own slugs

theorem keyOf?_eq_some {s : SchoolSnapshot Id} {key : SlugKey Id}
    : SlugBook.keyOf? s = some key
      ↔ ∃ slug, s.slug = some slug ∧ key = (.existing s.municipalityId, slug) := by
  simp [SlugBook.keyOf?, eq_comm]

/-- One key belongs to one school of the snapshot. -/
theorem StoreConstraints.school_of_key (store : StoreConstraints snapshot)
    {s t : SchoolSnapshot Id} {key : SlugKey Id} (hs : s ∈ snapshot.schools)
    (ht : t ∈ snapshot.schools) (left : SlugBook.keyOf? s = some key)
    (right : SlugBook.keyOf? t = some key)
    : s = t := by
  obtain ⟨slug, hslug, rfl⟩ := keyOf?_eq_some.mp left
  obtain ⟨slug', hslug', same⟩ := keyOf?_eq_some.mp right
  simp only [Prod.mk.injEq, Ref.existing.injEq] at same
  obtain ⟨here, rfl⟩ := same
  exact store.school_of_slug hs ht here hslug hslug'

theorem ofSnapshot_current (store : StoreConstraints snapshot) {key : SlugKey Id}
    {holder : Ref Id}
    : (SlugBook.ofSnapshot snapshot).current key = some holder
      ↔ ∃ s ∈ snapshot.schools, SlugBook.keyOf? s = some key ∧ holder = .existing s.id := by
  have pair : (key, holder) ∈ snapshot.schools.filterMap (fun s =>
      (SlugBook.keyOf? s).map fun key => (key, Ref.existing s.id))
        ↔ ∃ s ∈ snapshot.schools, SlugBook.keyOf? s = some key ∧ holder = .existing s.id := by
    simp only [List.mem_filterMap, Option.map_eq_some_iff, Prod.mk.injEq]
    constructor
    · intro ⟨s, member, _, found, same, same'⟩
      subst same same'
      exact ⟨s, member, found, rfl⟩
    · intro ⟨s, member, found, same⟩
      exact ⟨s, member, key, found, rfl, same.symm⟩
  refine ⟨fun found => pair.mp (Lookup.mem_of_ofPairs found), fun present => ?_⟩
  refine Lookup.ofPairs_of_mem ?_ (pair.mpr present)
  refine nodup_filterMap_keys store.schoolIds ?_
  intro s hs t ht x y hx hy same
  obtain ⟨kx, left, rfl⟩ := Option.map_eq_some_iff.mp hx
  obtain ⟨ky, right, rfl⟩ := Option.map_eq_some_iff.mp hy
  cases same
  rw [store.school_of_key hs ht left right]

theorem mem_ofSnapshot_history {key : SlugKey Id} {id : Id}
    : id ∈ (SlugBook.ofSnapshot snapshot).history key
      ↔ ∃ municipality, key.1 = .existing municipality
          ∧ (municipality, key.2, id) ∈ snapshot.schoolSlugHistory := by
  simp only [SlugBook.ofSnapshot, List.mem_map, List.mem_filter, decide_eq_true_eq]
  constructor
  · intro ⟨row, ⟨member, same⟩, former⟩
    subst same former
    exact ⟨row.1, rfl, member⟩
  · intro ⟨municipality, here, member⟩
    exact ⟨(municipality, key.2, id), ⟨member, by rw [← here]⟩, rfl⟩

-----------------------------------------------------------------------------------------
-- Released slugs

/-- Releasing schools erases exactly their keys. -/
theorem foldl_release_current (closings : List (Closing Id)) (book : SlugBook Id)
    (key : SlugKey Id)
    : (closings.foldl (fun book c => book.release c.school) book).current key
      = if ∃ c ∈ closings, SlugBook.keyOf? c.school = some key then none
        else book.current key := by
  induction closings generalizing book with
  | nil => simp
  | cons c rest ih =>
      rw [List.foldl_cons, ih]
      by_cases later : ∃ c ∈ rest, SlugBook.keyOf? c.school = some key
      · rw [if_pos later, if_pos]
        obtain ⟨c', member, found⟩ := later
        exact ⟨c', List.mem_cons_of_mem _ member, found⟩
      · rw [if_neg later]
        by_cases here : SlugBook.keyOf? c.school = some key
        · rw [if_pos ⟨c, List.mem_cons_self, here⟩]
          simp [SlugBook.release, here]
        · rw [if_neg]
          · unfold SlugBook.release
            cases found : SlugBook.keyOf? c.school with
            | none => rfl
            | some other =>
                exact Lookup.erase_of_ne _ fun same => here (found.trans (same ▸ rfl))
          · rintro ⟨c', member, found⟩
            rcases List.mem_cons.mp member with rfl | inside
            · exact here found
            · exact later ⟨c', inside, found⟩

theorem foldl_release_history (closings : List (Closing Id)) (book : SlugBook Id)
    : (closings.foldl (fun book c => book.release c.school) book).history = book.history := by
  induction closings generalizing book with
  | nil => rfl
  | cons c rest ih => exact ih _

theorem mem_foldl_release_closed (closings : List (Closing Id)) (book : SlugBook Id) (id : Id)
    : id ∈ (closings.foldl (fun book c => book.release c.school) book).closed
      ↔ id ∈ book.closed ∨ ∃ c ∈ closings, c.school.id = id := by
  induction closings generalizing book with
  | nil => simp
  | cons c rest ih =>
      rw [List.foldl_cons, ih]
      simp only [SlugBook.release, Finset.mem_insert, List.mem_cons, exists_eq_or_imp]
      rw [or_comm (a := id = c.school.id), or_assoc, eq_comm]

theorem SchoolStatus.eq_active_of_ne {status : SchoolStatus} (h : status ≠ .closed)
    : status = .active := by
  cases status with
  | active => rfl
  | closed => exact absurd rfl h

/-- The released book serves the snapshot: an open holder's slug is in no other open
school's history by the store's own rule.
-/
theorem releasedBook_serves (store : StoreConstraints snapshot) (sorted : Sorted Id)
    (members : ∀ c ∈ sorted.closings, c.school ∈ snapshot.schools)
    : (releasedBook snapshot sorted).Serves snapshot sorted.closings := by
  have closed_iff : ∀ id, id ∈ (releasedBook snapshot sorted).closed
      ↔ (∃ s ∈ snapshot.schools, s.status = .closed ∧ s.id = id)
        ∨ ∃ c ∈ sorted.closings, c.school.id = id := by
    intro id
    rw [releasedBook, mem_foldl_release_closed]
    simp [SlugBook.ofSnapshot, and_assoc]
  refine ⟨?_, ?_, foldl_release_history _ _, closed_iff⟩
  · intro s member stays key found
    rw [releasedBook, foldl_release_current, if_neg]
    · exact (ofSnapshot_current store).mpr ⟨s, member, found, rfl⟩
    · intro ⟨c, inside, same⟩
      exact stays c inside
        (congrArg SchoolSnapshot.id (store.school_of_key (members c inside) member same found))
  · intro key holder found stays t member former
    rw [releasedBook, foldl_release_current] at found
    split at found
    · cases found
    · obtain ⟨s, hs, own, rfl⟩ := (ofSnapshot_current store).mp found
      obtain ⟨slug, hslug, rfl⟩ := keyOf?_eq_some.mp own
      have open_holder : s.status ≠ .closed := fun closed =>
        stays s.id rfl ((closed_iff s.id).mpr (.inl ⟨s, hs, closed, rfl⟩))
      by_cases same : t.id = s.id
      · exact .inl (same ▸ rfl)
      · refine .inr ((closed_iff t.id).mpr (.inl ⟨t, member, ?_, rfl⟩))
        by_contra open_former
        rw [releasedBook, foldl_release_history, mem_ofSnapshot_history] at former
        obtain ⟨municipality, here, row⟩ := former
        cases here
        exact store.slugSafe.history s hs t member (SchoolStatus.eq_active_of_ne open_holder)
          (SchoolStatus.eq_active_of_ne open_former) (Ne.symm same) slug hslug row

-----------------------------------------------------------------------------------------
-- Inherited slugs

/-- The key a successor inherits, with the new row that takes it. -/
def inheritedPair? (placed : (Candidate Id × Placement) × Nat)
    : Option (SlugKey Id × Ref Id) :=
  match placed.1.2 with
  | .successor (some slug) => some ((placed.1.1.municipality, slug), .new placed.2)
  | _ => none

/-- Inheriting inserts exactly the successors' keys. -/
theorem foldl_takeInherited (numbered : List ((Candidate Id × Placement) × Nat))
    (book : SlugBook Id)
    : numbered.foldl takeInherited book
      = { book with
          current := book.current.insertAll (numbered.filterMap inheritedPair?) } := by
  induction numbered generalizing book with
  | nil => rfl
  | cons placed rest ih =>
      rw [List.foldl_cons, ih]
      obtain ⟨⟨candidate, placement⟩, number⟩ := placed
      cases placement with
      | successor slug =>
          cases slug <;> rfl
      | heldReregistration | heldSubmission | listed => rfl

variable [OsloZone] [UnicodeData] {state : MunicipalityState Id} {moment : Moment}
  {units : List NsrUnit}

theorem closing_member {c : Closing Id}
    (h : c ∈ (sortUnits snapshot state moment units).closings)
    : c.school ∈ snapshot.schools ∧ c.school.isTracked = true := by
  obtain ⟨unit, _, closes⟩ := mem_closings.mp h
  obtain ⟨member, _, tracked, _⟩ := fate_school?
    (show (fate snapshot state moment unit).school? = some c.school by rw [closes]; rfl)
  exact ⟨member, tracked⟩

/-- A numbered candidate stands at its number, with its placement. -/
theorem mem_numberedCandidates {sorted : Sorted Id} {placed : (Candidate Id × Placement) × Nat}
    : placed ∈ numberedCandidates snapshot sorted
      ↔ sorted.candidates[placed.2]? = some placed.1.1
        ∧ (placedUnits snapshot sorted).placements[placed.2]? = some placed.1.2 := by
  obtain ⟨⟨candidate, placement⟩, number⟩ := placed
  rw [numberedCandidates, List.mk_mem_zipIdx_iff_getElem?, List.getElem?_zip_eq_some]

/-- Every inherited key is that of a closing school, given up to its one successor. -/
theorem inheritedPair_source {sorted : Sorted Id} {placed : (Candidate Id × Placement) × Nat}
    {pair : SlugKey Id × Ref Id} (member : placed ∈ numberedCandidates snapshot sorted)
    (found : inheritedPair? placed = some pair)
    : ∃ m ∈ takenMatches sorted.candidates sorted.closings sorted.fauClosings,
        m.candidate = placed.2 ∧ SlugBook.keyOf? m.school = some pair.1
        ∧ ∃ j c, m.pred = .closing j ∧ sorted.closings[j]? = some c ∧ c.school = m.school := by
  obtain ⟨stands, placement⟩ := mem_numberedCandidates.mp member
  obtain ⟨⟨candidate, p⟩, number⟩ := placed
  cases p with
  | successor given =>
      cases given with
      | none => cases found
      | some slug =>
          cases found
          obtain ⟨m, taken, same, own, j, pred⟩ := placeAll_successor snapshot placement
          have valid := takenMatches_valid taken
          obtain ⟨c, inside, school, _⟩ := valid.closing j pred
          have here : m.municipality = candidate.municipality := by
            have stood := valid.candidate
            rw [same] at stood
            simp only at stands
            rw [stood] at stands
            exact congrArg Candidate.municipality (Option.some.inj stands)
          refine ⟨m, taken, same, ?_, j, c, pred, inside, school⟩
          exact keyOf?_eq_some.mpr ⟨slug, own, by rw [← here, valid.here]⟩
  | heldReregistration | heldSubmission | listed => cases found

section

variable (store : StoreConstraints snapshot) (distinct : (units.map NsrUnit.orgnr).Nodup)
  (state : MunicipalityState Id) (moment : Moment)
include store distinct

/-- Distinct successors inherit distinct keys: each closing school has one successor. -/
theorem nodup_inheritedPairs
    : (((numberedCandidates snapshot (sortUnits snapshot state moment units)).filterMap
        inheritedPair?).map Prod.fst).Nodup := by
  have numbers : ((numberedCandidates snapshot (sortUnits snapshot state moment units)).map
      Prod.snd).Nodup := by
    rw [numberedCandidates, List.zipIdx_map_snd]
    exact List.nodup_range'
  refine nodup_filterMap_keys numbers ?_
  intro a ha b hb x y hx hy same
  obtain ⟨m, taken, left, own, j, c, pred, inside, school⟩ := inheritedPair_source ha hx
  obtain ⟨m', taken', right, own', j', c', pred', inside', school'⟩ :=
    inheritedPair_source hb hy
  have hc := (closing_member (List.mem_of_getElem? inside)).1
  have hc' := (closing_member (List.mem_of_getElem? inside')).1
  have one_school : c.school = c'.school := by
    rw [← school] at own
    rw [← school', ← same] at own'
    exact store.school_of_key hc hc' own own'
  have one_index : j = j' := by
    have ids : ((sortUnits snapshot state moment units).closings.map (·.school.id)).Nodup :=
      nodup_closings store.schoolIds distinct
    refine (List.getElem?_inj ?_ ids).mp ?_
    · rw [List.length_map]
      exact (List.getElem?_eq_some_iff.mp inside).1
    · simp [inside, inside', one_school]
  subst one_index
  rw [← left, ← right, takenMatches_closing taken taken' pred pred']

/-- Inheriting serves the snapshot as well, and gives every successor its slug. -/
theorem inheritedBook_serves
    : (inheritedBook snapshot (sortUnits snapshot state moment units)).Serves snapshot
        (sortUnits snapshot state moment units).closings
      ∧ ∀ placed ∈ numberedCandidates snapshot (sortUnits snapshot state moment units),
        ∀ slug, placed.1.2 = .successor (some slug) →
          (inheritedBook snapshot (sortUnits snapshot state moment units)).current
            (placed.1.1.municipality, slug) = some (.new placed.2) := by
  have released := releasedBook_serves store (sortUnits snapshot state moment units)
    fun c member => (closing_member member).1
  have pairs := nodup_inheritedPairs store distinct state moment
  have erased : ∀ placed ∈ numberedCandidates snapshot (sortUnits snapshot state moment units),
      ∀ pair, inheritedPair? placed = some pair →
      (releasedBook snapshot (sortUnits snapshot state moment units)).current pair.1 = none
        ∧ ∃ c ∈ (sortUnits snapshot state moment units).closings,
            SlugBook.keyOf? c.school = some pair.1 := by
    intro placed member pair found
    obtain ⟨m, _, _, own, j, c, _, inside, school⟩ := inheritedPair_source member found
    have source : ∃ c ∈ (sortUnits snapshot state moment units).closings,
        SlugBook.keyOf? c.school = some pair.1 :=
      ⟨c, List.mem_of_getElem? inside, school ▸ own⟩
    exact ⟨by rw [releasedBook, foldl_release_current, if_pos source], source⟩
  unfold inheritedBook
  rw [foldl_takeInherited]
  refine ⟨⟨?_, ?_, released.history, released.closed⟩, ?_⟩
  · intro s member stays key found
    have held := released.kept s member stays key found
    refine (Lookup.insertAll_of_not_mem _ fun inherited => ?_).trans held
    obtain ⟨pair, inside, rfl⟩ := List.mem_map.mp inherited
    obtain ⟨placed, numbered, source⟩ := List.mem_filterMap.mp inside
    rw [(erased placed numbered pair source).1] at held
    cases held
  · intro key holder found stays t member former
    rcases Lookup.insertAll_cases _ found with inherited | before
    · obtain ⟨placed, numbered, source⟩ := List.mem_filterMap.mp inherited
      obtain ⟨c, inside, own⟩ := (erased placed numbered _ source).2
      obtain ⟨hc, tracked⟩ := closing_member inside
      refine .inr ((released.closed t.id).mpr ?_)
      by_cases same : t.id = c.school.id
      · exact .inr ⟨c, inside, same.symm⟩
      · refine .inl ⟨t, member, ?_, rfl⟩
        by_contra open_former
        obtain ⟨slug, hslug, here⟩ := keyOf?_eq_some.mp own
        have row := released.history ▸ former
        obtain ⟨municipality, at_key, row⟩ := mem_ofSnapshot_history.mp row
        simp only at here
        subst here
        cases at_key
        have active := (SchoolSnapshot.isTracked_iff.mp tracked).1
        exact store.slugSafe.history c.school hc t member active
          (SchoolStatus.eq_active_of_ne open_former) (Ne.symm same) slug hslug row
    · exact released.fair key holder before stays t member former
  · intro placed member slug successor
    refine Lookup.insertAll_of_mem _ pairs (List.mem_filterMap.mpr ⟨placed, member, ?_⟩)
    simp [inheritedPair?, successor]

end

end FauPortalen.Register

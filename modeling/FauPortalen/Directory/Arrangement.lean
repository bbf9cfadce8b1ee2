import Mathlib.Data.List.Forall2
import FauPortalen.Directory.Listing

/-! What a listing holds and in which order, whatever order it was read in: members follow the
people, groups follow the sections, and arranging a listing again changes nothing.
-/

set_option linter.unusedSectionVars false

namespace FauPortalen.Directory

open Foundations

-----------------------------------------------------------------------------------------
-- The comparators are total preorders that tell ids apart

section Comparisons

variable (collator : NameCollator) [Std.TransCmp collator.compare]

instance transCmp_compareNames : Std.TransCmp (compareNames collator) where
  eq_swap {a b} := by
    cases a <;> cases b <;>
      simp only [compareNames, Ordering.swap_lt, Ordering.swap_gt, Ordering.swap_eq]
    exact Std.OrientedCmp.eq_swap
  isLE_trans {a b c} := by
    cases a <;> cases b <;> cases c <;> simp [compareNames]
    exact Std.TransCmp.isLE_trans

instance transCmp_comparePeople : Std.TransCmp (comparePeople collator) := by
  have names := transCmp_comap Person.name (compareNames collator)
  have ids := transCmp_comap Person.membershipId (compare : Nat → Nat → Ordering)
  exact transCmp_then _ _

instance transCmp_compareRoles : Std.TransCmp (compareRoles collator) := by
  have names := transCmp_comap RoleHeld.name collator.compare
  have places := transCmp_comap (fun role : RoleHeld => placeText role.place) collator.compare
  exact transCmp_then _ _

instance transCmp_compareSections : Std.TransCmp (compareSections collator) := by
  have titles := transCmp_comap (fun pair : String × Nat => pair.1) collator.compare
  have ids := transCmp_comap (fun pair : String × Nat => pair.2) compare
  have groups := transCmp_then (fun a b : String × Nat => collator.compare a.1 b.1)
    (fun a b => compare a.2 b.2)
  refine { eq_swap := ?_, isLE_trans := ?_ }
  · rintro ⟨_ | x, title, members⟩ ⟨_ | y, title', members'⟩ <;>
      simp only [compareSections, Ordering.swap_lt, Ordering.swap_gt, Ordering.swap_eq]
    exact groups.eq_swap (a := (title.getD "", x)) (b := (title'.getD "", y))
  · rintro ⟨_ | x, title, members⟩ ⟨_ | y, title', members'⟩ ⟨_ | z, title'', members''⟩ <;>
      simp [compareSections]
    exact groups.isLE_trans (a := (title.getD "", x)) (b := (title'.getD "", y))
      (c := (title''.getD "", z))

variable {collator}

theorem id_eq_of_comparePeople {a b : Person} (same : comparePeople collator a b = .eq)
    : a.membershipId = b.membershipId :=
  Nat.compare_eq_eq.mp (Ordering.then_eq_eq.mp same).2

theorem id_eq_of_compareSections {a b : Section} (same : compareSections collator a b = .eq)
    : a.id = b.id := by
  unfold compareSections at same
  split at same
  · next first second => rw [first, second]
  · cases same
  · cases same
  · next first second =>
      have ids := Nat.compare_eq_eq.mp (Ordering.then_eq_eq.mp same).2
      rw [first, second, ids]

/-- The whole FAU comes before anything else. -/
theorem compareSections_fau {a b : Section} (fau : a.id = .fau)
    : (compareSections collator a b).isLE := by
  unfold compareSections
  rw [fau]
  cases b.id <;> rfl

end Comparisons

-----------------------------------------------------------------------------------------
-- Ranks

/-- Ids retained by the rank they were collected with follow the collected ids. -/
theorem retainRanked_collect {pairs : List (Nat × Nat)}
    (distinct : (pairs.map Prod.fst).Nodup) (ascending : pairs.Pairwise (·.2 < ·.2))
    (ids : List Nat)
    : retainRanked (.collect pairs) ids = (pairs.map Prod.fst).filter (· ∈ ids) := by
  apply sortOn_keepFirst_filter
  · apply List.pairwise_map.mpr
    refine (List.Pairwise.and_mem.mp ascending).imp fun {a b} ⟨first, second, less⟩ => ?_
    rw [(AssocMap.lookup_collect distinct).mpr first,
      (AssocMap.lookup_collect distinct).mpr second]
    exact less
  · intro id
    exact AssocMap.isSome_lookup_collect distinct

theorem pairwise_zipIdx {α : Type} (elements : List α) (start : Nat)
    : (elements.zipIdx start).Pairwise (·.2 < ·.2) := by
  induction elements generalizing start with
  | nil => exact .nil
  | cons element rest ih =>
      rw [List.zipIdx_cons]
      refine List.pairwise_cons.mpr ⟨?_, ih (start + 1)⟩
      intro pair member
      exact List.le_snd_of_mem_zipIdx member

/-- Members follow the people. -/
theorem retainRanked_peopleRank {people : List Person}
    (distinct : (people.map Person.membershipId).Nodup) (members : List Nat)
    : retainRanked (peopleRank people) members
      = (people.map Person.membershipId).filter (· ∈ members) := by
  have ids : (people.zipIdx.map personPlace).map Prod.fst
      = people.map Person.membershipId := by
    rw [List.map_map, ← List.zipIdx_map_fst 0 people, List.map_map, List.zipIdx_map_fst]
    rfl
  rw [← ids] at distinct ⊢
  apply retainRanked_collect distinct
  exact List.pairwise_map.mpr (pairwise_zipIdx people 0)

def SectionId.group? : SectionId → Option Nat
  | .fau => none
  | .group id => some id

/-- The groups with a section, in section order. -/
def groupIds (sections : List Section) : List Nat := sections.filterMap (·.id.group?)

theorem nodup_groupIds {sections : List Section} (distinct : (sections.map Section.id).Nodup)
    : (groupIds sections).Nodup := by
  have groups : groupIds sections = (sections.map Section.id).filterMap SectionId.group? := by
    rw [List.filterMap_map]
    rfl
  rw [groups]
  apply List.Nodup.filterMap ?_ distinct
  intro a b group ha hb
  cases a <;> cases b <;> simp_all [SectionId.group?]

/-- Groups follow the sections. -/
theorem retainRanked_groupRank {sections : List Section}
    (distinct : (sections.map Section.id).Nodup) (groups : List Nat)
    : retainRanked (groupRank sections) groups = (groupIds sections).filter (· ∈ groups) := by
  have ids : (sections.zipIdx.filterMap groupPlace).map Prod.fst = groupIds sections := by
    rw [List.map_filterMap, groupIds, ← List.zipIdx_map_fst 0 sections, List.filterMap_map,
      List.zipIdx_map_fst]
    apply List.filterMap_congr
    rintro ⟨heading, index⟩ _
    cases same : heading.id <;> simp [groupPlace, same, SectionId.group?]
  have distinct := nodup_groupIds distinct
  rw [← ids] at distinct ⊢
  apply retainRanked_collect distinct
  apply (pairwise_zipIdx sections 0).filterMap
  rintro ⟨a, i⟩ ⟨b, j⟩ less pair first pair' second
  simp only [groupPlace] at first second
  cases ha : a.id <;> cases hb : b.id <;> simp only [ha, hb, reduceCtorEq] at first second
  cases first
  cases second
  exact less

-----------------------------------------------------------------------------------------
-- The arranged listing

/-- A section with its members among the listed people, in their order. -/
def Section.arranged (people : List Nat) (heading : Section) : Section :=
  { heading with members := people.filter (· ∈ heading.members) }

/-- A person with their roles in order and their groups among the listed ones, in their order. -/
def Person.arranged (collator : NameCollator) (groups : List Nat) (person : Person) : Person :=
  { person with
    roles := sortBy (compareRoles collator) person.roles
    groups := groups.filter (· ∈ person.groups) }

theorem map_id_arranged (ids : List Nat) (sections : List Section)
    : (sections.map (Section.arranged ids)).map Section.id = sections.map Section.id := by
  rw [List.map_map]
  rfl

theorem groupIds_arranged (ids : List Nat) (sections : List Section)
    : groupIds (sections.map (Section.arranged ids)) = groupIds sections := by
  rw [groupIds, List.filterMap_map]
  rfl

theorem map_membershipId_arranged (collator : NameCollator) (groups : List Nat)
    (people : List Person)
    : (people.map (Person.arranged collator groups)).map Person.membershipId
      = people.map Person.membershipId := by
  rw [List.map_map]
  rfl

section Arranged

variable {collator : NameCollator} {sections sections' : List Section}
  {people people' : List Person}

/-- With distinct ids, arranging sorts, and each rank is a place in a sorted list. -/
theorem arrange_eq (distinctPeople : (people.map Person.membershipId).Nodup)
    (distinctSections : (sections.map Section.id).Nodup)
    : arrange collator sections people
      = ⟨(sortBy (compareSections collator) sections).map
          (Section.arranged ((sortBy (comparePeople collator) people).map Person.membershipId)),
        (sortBy (comparePeople collator) people).map
          (Person.arranged collator
            (groupIds (sortBy (compareSections collator) sections)))⟩ := by
  have all : keepFirst Person.membershipId [] people = people :=
    keepFirst_eq_self (fun _ _ => List.not_mem_nil) distinctPeople
  have ids : ((sortBy (comparePeople collator) people).map Person.membershipId).Nodup :=
    ((perm_sortBy _ people).map _).nodup_iff.mpr distinctPeople
  have headings : (sortBy (compareSections collator) sections).map
      (fun heading => { heading with
        members := retainRanked (peopleRank (sortBy (comparePeople collator) people))
          heading.members })
      = (sortBy (compareSections collator) sections).map (Section.arranged
        ((sortBy (comparePeople collator) people).map Person.membershipId)) := by
    apply List.map_congr_left
    intro heading _
    rw [retainRanked_peopleRank ids, Section.arranged]
  have groups : (((sortBy (compareSections collator) sections).map (Section.arranged
      ((sortBy (comparePeople collator) people).map Person.membershipId))).map
      Section.id).Nodup := by
    rw [map_id_arranged]
    exact ((perm_sortBy _ sections).map _).nodup_iff.mpr distinctSections
  unfold arrange
  simp only [all, headings]
  congr 1
  apply List.map_congr_left
  intro person _
  rw [retainRanked_groupRank groups, groupIds_arranged, Person.arranged]

end Arranged

-----------------------------------------------------------------------------------------
-- What a listing describes

/-- The shown section is the given one, with exactly its members among the listed people, each
once and in their order.
-/
structure Section.ListedAs (people : List Nat) (given shown : Section) : Prop where
  id : shown.id = given.id
  title : shown.title = given.title
  members : shown.members = people.filter (· ∈ given.members)

/-- The shown person is the given one, with exactly their groups among the listed ones, each
once and in their order.
-/
structure Person.ListedAs (groups : List Nat) (given shown : Person) : Prop where
  membershipId : shown.membershipId = given.membershipId
  name : shown.name = given.name
  address : shown.address = given.address
  isGuest : shown.isGuest = given.isGuest
  roles : shown.roles.Perm given.roles
  groups : shown.groups = groups.filter (· ∈ given.groups)

/-- The listing holds the given people and sections, each once, the whole FAU first. -/
structure Listing.Describes (listing : Listing) (sections : List Section)
    (people : List Person) : Prop where
  people
    : ∃ order : List Person,
        order.Perm people
        ∧ List.Forall₂ (Person.ListedAs (groupIds listing.sections)) order listing.people
  peopleOnce : (listing.people.map Person.membershipId).Nodup
  sections
    : ∃ order : List Section,
        order.Perm sections
        ∧ List.Forall₂ (Section.ListedAs (listing.people.map Person.membershipId)) order
          listing.sections
  sectionsOnce : (listing.sections.map Section.id).Nodup
  fauFirst
    : ∀ heading ∈ listing.sections,
        heading.id = .fau → listing.sections.head? = some heading

/-- The same sections in any order, each with its members in any order. -/
def SameSections (left right : List Section) : Prop :=
  ∃ order : List Section,
    left.Perm order
    ∧ List.Forall₂ (fun a b => a.id = b.id ∧ a.title = b.title ∧ a.members.Perm b.members)
      order right

/-- The same people in any order, each with their groups in any order. -/
def SamePeople (left right : List Person) : Prop :=
  ∃ order : List Person,
    left.Perm order
    ∧ List.Forall₂ (fun a b => b = { a with groups := b.groups } ∧ a.groups.Perm b.groups)
      order right

section Arranged

variable {collator : NameCollator} {sections sections' : List Section}
  {people people' : List Person}

/-- Lists related element by element have one image where related elements have. -/
theorem map_eq_map_of_forall₂ {α β : Type} {R : α → α → Prop} {f : α → β} {left right : List α}
    (alike : List.Forall₂ R left right) (same : ∀ a b, R a b → f a = f b)
    : left.map f = right.map f := by
  induction alike with
  | nil => rfl
  | cons head _ ih => rw [List.map_cons, List.map_cons, same _ _ head, ih]

theorem SameSections.map_arranged (same : SameSections sections sections') (ids : List Nat)
    : (sections.map (Section.arranged ids)).Perm (sections'.map (Section.arranged ids)) := by
  obtain ⟨order, perm, alike⟩ := same
  rw [← map_eq_map_of_forall₂ alike (f := Section.arranged ids)]
  · exact perm.map _
  · intro a b ⟨sameId, sameTitle, members⟩
    simp only [Section.arranged, sameId, sameTitle, members.mem_iff]

theorem SamePeople.map_arranged (same : SamePeople people people')
    (collator : NameCollator) (groups : List Nat)
    : (people.map (Person.arranged collator groups)).Perm
        (people'.map (Person.arranged collator groups)) := by
  obtain ⟨order, perm, alike⟩ := same
  rw [← map_eq_map_of_forall₂ alike (f := Person.arranged collator groups)]
  · exact perm.map _
  · intro a b ⟨sameFields, sameGroups⟩
    rw [sameFields]
    simp only [Person.arranged, sameGroups.mem_iff]

variable [Std.TransCmp collator.compare]

theorem arrange_describes (distinctPeople : (people.map Person.membershipId).Nodup)
    (distinctSections : (sections.map Section.id).Nodup)
    : (arrange collator sections people).Describes sections people := by
  have ids := ((perm_sortBy (comparePeople collator) people).map
    Person.membershipId).nodup_iff.mpr distinctPeople
  have headings := ((perm_sortBy (compareSections collator) sections).map
    Section.id).nodup_iff.mpr distinctSections
  rw [arrange_eq distinctPeople distinctSections]
  refine ⟨⟨_, perm_sortBy (comparePeople collator) people, ?_⟩, ?_,
    ⟨_, perm_sortBy (compareSections collator) sections, ?_⟩, ?_, ?_⟩
  · rw [groupIds_arranged]
    apply List.forall₂_map_right_iff.mpr
    apply List.forall₂_same.mpr
    intro person _
    exact ⟨rfl, rfl, rfl, rfl, perm_sortBy _ _, rfl⟩
  · rwa [map_membershipId_arranged]
  · rw [map_membershipId_arranged]
    apply List.forall₂_map_right_iff.mpr
    apply List.forall₂_same.mpr
    intro heading _
    exact ⟨rfl, rfl, rfl⟩
  · rwa [map_id_arranged]
  · intro shown listed fau
    obtain ⟨heading, member, rfl⟩ := List.mem_map.mp listed
    have sorted := pairwise_sortBy (compareSections collator) sections
    cases first : sortBy (compareSections collator) sections with
    | nil =>
        rw [first] at member
        cases member
    | cons head rest =>
        rw [first] at member sorted
        rw [first, List.map_cons] at headings
        rcases List.mem_cons.mp member with rfl | later
        · rfl
        · -- only a section with the same id can come before the whole FAU
          have before := (List.pairwise_cons.mp sorted).1 heading later
          have after : (compareSections collator heading head).isLE := compareSections_fau fau
          have same := id_eq_of_compareSections (Std.OrientedCmp.isLE_antisymm before after)
          have fresh := (List.nodup_cons.mp headings).1
          cases fresh (same ▸ List.mem_map_of_mem later)

/-- The order the directory was read in does not show. -/
theorem arrange_congr (distinctPeople : (people.map Person.membershipId).Nodup)
    (distinctSections : (sections.map Section.id).Nodup)
    (samePeople : SamePeople people people') (sameSections : SameSections sections sections')
    : arrange collator sections' people' = arrange collator sections people := by
  have shownPeople (groups : List Nat)
      : (sortBy (comparePeople collator) people).map (Person.arranged collator groups)
        = (sortBy (comparePeople collator) people').map (Person.arranged collator groups) := by
    apply map_sortBy_congr _ Person.membershipId (comparePeople collator)
      (fun _ _ => rfl) (samePeople.map_arranged collator groups) ?_ (fun _ _ => id_eq_of_comparePeople)
    rwa [map_membershipId_arranged]
  have shownSections (ids : List Nat)
      : (sortBy (compareSections collator) sections).map (Section.arranged ids)
        = (sortBy (compareSections collator) sections').map (Section.arranged ids) := by
    apply map_sortBy_congr _ Section.id (compareSections collator)
      (fun _ _ => rfl) (sameSections.map_arranged ids) ?_ (fun _ _ => id_eq_of_compareSections)
    rwa [map_id_arranged]
  have ids := congrArg (List.map Person.membershipId) (shownPeople [])
  rw [map_membershipId_arranged, map_membershipId_arranged] at ids
  have groups := congrArg groupIds (shownSections [])
  rw [groupIds_arranged, groupIds_arranged] at groups
  have distinctPeople' : (people'.map Person.membershipId).Nodup := by
    have perm := (samePeople.map_arranged collator []).map Person.membershipId
    rw [map_membershipId_arranged, map_membershipId_arranged] at perm
    exact perm.nodup_iff.mp distinctPeople
  have distinctSections' : (sections'.map Section.id).Nodup := by
    have perm := (sameSections.map_arranged []).map Section.id
    rw [map_id_arranged, map_id_arranged] at perm
    exact perm.nodup_iff.mp distinctSections
  rw [arrange_eq distinctPeople distinctSections, arrange_eq distinctPeople' distinctSections',
    ← ids, ← groups, ← shownPeople, ← shownSections]

/-- Choosing again from what was chosen chooses the same. -/
theorem filter_mem_filter_mem (reference chosen : List Nat)
    : reference.filter (· ∈ reference.filter (· ∈ chosen)) = reference.filter (· ∈ chosen) := by
  apply List.filter_congr
  intro element member
  simp [member]

theorem Section.arranged_arranged (ids : List Nat) (heading : Section)
    : (heading.arranged ids).arranged ids = heading.arranged ids :=
  congrArg (fun members => { heading with members })
    (filter_mem_filter_mem ids heading.members)

theorem Person.arranged_arranged (groups : List Nat) (person : Person)
    : (person.arranged collator groups).arranged collator groups
      = person.arranged collator groups :=
  congrArg₂ (fun roles groups => { person with roles, groups })
    (sortBy_eq_self (pairwise_sortBy _ person.roles))
    (filter_mem_filter_mem groups person.groups)

/-- An arranged listing is already in order. -/
theorem arrange_arrange (distinctPeople : (people.map Person.membershipId).Nodup)
    (distinctSections : (sections.map Section.id).Nodup)
    : arrange collator (arrange collator sections people).sections
        (arrange collator sections people).people
      = arrange collator sections people := by
  have described : (arrange collator sections people).Describes sections people :=
    arrange_describes distinctPeople distinctSections
  rw [arrange_eq described.peopleOnce described.sectionsOnce,
    arrange_eq distinctPeople distinctSections]
  have people_sorted (groups : List Nat) := sortBy_eq_self (List.pairwise_map.mpr
    (pairwise_sortBy (comparePeople collator) people)
    : ((sortBy (comparePeople collator) people).map (Person.arranged collator groups)).Pairwise
      fun a b => (comparePeople collator a b).isLE)
  have sections_sorted (ids : List Nat) := sortBy_eq_self (List.pairwise_map.mpr
    (pairwise_sortBy (compareSections collator) sections)
    : ((sortBy (compareSections collator) sections).map (Section.arranged ids)).Pairwise
      fun a b => (compareSections collator a b).isLE)
  simp only [people_sorted, sections_sorted, groupIds_arranged, List.map_map]
  congr 1
  · exact List.map_congr_left fun heading _ => heading.arranged_arranged _
  · exact List.map_congr_left fun person _ => person.arranged_arranged _

/-- A listing holds the same people and sections whatever order they were read in, and stays as
it is when arranged again.
-/
theorem arrange_arranges (distinctPeople : (people.map Person.membershipId).Nodup)
    (distinctSections : (sections.map Section.id).Nodup)
    : (arrange collator sections people).Describes sections people
      ∧ (∀ sections' people', SameSections sections sections' → SamePeople people people' →
        arrange collator sections' people' = arrange collator sections people)
      ∧ arrange collator (arrange collator sections people).sections
          (arrange collator sections people).people
        = arrange collator sections people := by
  refine ⟨?_, ?_, ?_⟩
  · exact arrange_describes distinctPeople distinctSections
  · intro sections' people' sameSections samePeople
    exact arrange_congr distinctPeople distinctSections samePeople sameSections
  · exact arrange_arrange distinctPeople distinctSections

end Arranged

instance : Std.TransCmp NameCollator.codePoints.compare :=
  inferInstanceAs (Std.TransOrd String)

/-- Two people of one name, both in one group and one of them in another. -/
def namesakes : List Person :=
  [⟨9, .named ⟨"Åse"⟩, ⟨"ase.vik@example.no"⟩, false, [⟨"Kasserer", none⟩], [101]⟩,
    ⟨2, .named ⟨"Åse"⟩, ⟨"ase.dahl@example.no"⟩, true, [], [77, 101, 100]⟩]

def namesakesSections : List Section :=
  [⟨.group 101, some "Styret", [2, 9, 2]⟩, ⟨.group 100, some "Dugnad", [2, 40]⟩,
    ⟨.fau, none, [9]⟩]

theorem namesakes_arrange
    : (arrange .codePoints namesakesSections namesakes).Describes namesakesSections namesakes
      ∧ (∀ sections' people', SameSections namesakesSections sections' →
        SamePeople namesakes people' →
        arrange .codePoints sections' people' = arrange .codePoints namesakesSections namesakes)
      ∧ arrange .codePoints (arrange .codePoints namesakesSections namesakes).sections
          (arrange .codePoints namesakesSections namesakes).people
        = arrange .codePoints namesakesSections namesakes :=
  arrange_arranges (by decide) (by decide)

end FauPortalen.Directory

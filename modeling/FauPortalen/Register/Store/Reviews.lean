import FauPortalen.Register.Sync.Testkit

/-! Writing review items: an item that an open one already covers is skipped, since the
planner cannot see open items.
-/

namespace FauPortalen.Register

open FauPortalen.Foundations

variable {Id : Type}

/-- The part of the details that tells apart items sharing a kind and references. An absent
value is a value of its own.
-/
inductive Discriminator
  | none
  | municipalityNumber (number : Option String)
  | reasonAndCode (reason code : Option String)
deriving DecidableEq

def ReviewItem.detail (item : ReviewItem Id) (key : String) : Option String :=
  (item.details.find? (·.1 = key)).map Prod.snd

def discriminator (item : ReviewItem Id) : Discriminator :=
  match item.kind with
  | .unknownMunicipalityNumber => .municipalityNumber (item.detail "municipality_number")
  | .municipalitySplitOrMerge =>
      .reasonAndCode (item.detail "reason")
        ((item.detail "number").or (item.detail "old_code"))
  | _ => .none

/-- What an open item must share with a new one to cover it. -/
structure DedupKey (Id : Type) where
  kind : ReviewKind
  school : Option Id
  otherSchool : Option Id
  municipality : Option Id
  discriminator : Discriminator
deriving DecidableEq

/-- The key of an item, its references resolved. `none` when one names an unknown new row. -/
def NewIds.dedupKey (ids : NewIds Id) (item : ReviewItem Id) : Option (DedupKey Id) := do
  let school ← item.school.mapM ids.schoolId
  let otherSchool ← item.otherSchool.mapM ids.schoolId
  let municipality ← item.municipality.mapM ids.municipalityId
  return ⟨item.kind, school, otherSchool, municipality, FauPortalen.Register.discriminator item⟩

/-- A stored item. Its details are a JSON object. -/
structure ReviewRow (Id : Type) where
  kind : ReviewKind
  school : Option Id
  otherSchool : Option Id
  municipality : Option Id
  details : Lookup String String
  isResolved : Bool

/-- The discriminator as the query compares it. -/
def ReviewRow.agrees (row : ReviewRow Id) : Discriminator → Bool
  | .none => true
  | .municipalityNumber number => row.details "municipality_number" = number
  | .reasonAndCode reason code =>
      row.details "reason" = reason
        && (row.details "number").or (row.details "old_code") = code

def ReviewRow.covers [DecidableEq Id] (row : ReviewRow Id) (key : DedupKey Id) : Bool :=
  !row.isResolved
    && row.kind = key.kind
    && row.school = key.school
    && row.otherSchool = key.otherSchool
    && row.municipality = key.municipality
    && row.agrees key.discriminator

/-- The table while the items are written. -/
structure ReviewTable (Id : Type) where
  rows : List (ReviewRow Id)
  written : List (ReviewRow Id)
  skipped : Nat

def reviewRow (key : DedupKey Id) (item : ReviewItem Id) : ReviewRow Id :=
  ⟨key.kind, key.school, key.otherSchool, key.municipality, .ofPairs item.details, false⟩

variable [DecidableEq Id]

/-- The body of the loop over the items. -/
def writeReview (ids : NewIds Id) (table : ReviewTable Id) (item : ReviewItem Id)
    : Option (ReviewTable Id) := do
  let key ← ids.dedupKey item
  if table.rows.any (·.covers key) then
    return { table with skipped := table.skipped + 1 }
  else
    let row := reviewRow key item
    return { table with rows := table.rows ++ [row], written := table.written ++ [row] }

def writeReviews (ids : NewIds Id) (rows : List (ReviewRow Id)) (items : List (ReviewItem Id))
    : Option (ReviewTable Id) :=
  items.foldlM (writeReview ids) ⟨rows, [], 0⟩

/-- A row covers the item it was written for, if the item's details name each key once. -/
theorem reviewRow_covers {ids : NewIds Id} {item : ReviewItem Id} {key : DedupKey Id}
    (distinct : (item.details.map Prod.fst).Nodup) (h : ids.dedupKey item = some key)
    : (reviewRow key item).covers key = true := by
  have stored (name : String) : Lookup.ofPairs item.details name = item.detail name := by
    cases found : item.details.find? (·.1 = name) with
    | none =>
        have absent : Lookup.ofPairs item.details name = none := by
          refine Lookup.ofPairs_eq_none.mpr fun member => ?_
          obtain ⟨pair, inside, same⟩ := List.mem_map.mp member
          exact List.find?_eq_none.mp found pair inside (by simpa using same)
        simp [absent, ReviewItem.detail, found]
    | some pair =>
        have same : pair.1 = name := by simpa using List.find?_some found
        have present := Lookup.ofPairs_of_mem distinct
          (show (pair.1, pair.2) ∈ item.details from List.mem_of_find?_eq_some found)
        rw [same] at present
        simp [present, ReviewItem.detail, found]
  simp only [NewIds.dedupKey, Option.bind_eq_bind, Option.bind_eq_some_iff] at h
  obtain ⟨school, _, other, _, municipality, _, same⟩ := h
  cases same
  have agrees : (reviewRow ⟨item.kind, school, other, municipality, discriminator item⟩
      item).agrees (discriminator item) = true := by
    unfold FauPortalen.Register.discriminator
    split <;> simp [ReviewRow.agrees, reviewRow, stored]
  simp [ReviewRow.covers, reviewRow] at agrees ⊢
  exact agrees

/-- Writing keeps every row. -/
theorem writeReviews_keeps {ids : NewIds Id} {items : List (ReviewItem Id)}
    {before after : ReviewTable Id} (h : items.foldlM (writeReview ids) before = some after)
    : before.rows ⊆ after.rows := by
  refine foldlM_preserves (P := fun table => before.rows ⊆ table.rows) ?_ h
    (List.Subset.refl _)
  intro table item _ next stepped kept
  obtain ⟨key, _, written⟩ := Option.bind_eq_some_iff.mp stepped
  split at written
  · cases written
    exact kept
  · cases written
    exact List.subset_append_of_subset_left _ kept

/-- Every item written has an open row that covers it. -/
theorem writeReviews_covers {ids : NewIds Id} {items : List (ReviewItem Id)}
    (distinct : ∀ item ∈ items, (item.details.map Prod.fst).Nodup)
    {before after : ReviewTable Id} (h : items.foldlM (writeReview ids) before = some after)
    : ∀ item ∈ items, ∀ key, ids.dedupKey item = some key →
        after.rows.any (·.covers key) = true := by
  induction items generalizing before with
  | nil =>
      intro item member
      cases member
  | cons head rest ih =>
      intro item member key found
      obtain ⟨middle, stepped, rest_written⟩ := foldlM_cons_eq_some.mp h
      rcases List.mem_cons.mp member with rfl | later
      · have covered : middle.rows.any (·.covers key) = true := by
          simp only [writeReview, found, Option.bind_eq_bind, Option.bind_some] at stepped
          split at stepped
          · next covered =>
              cases stepped
              exact covered
          · cases stepped
            have own := reviewRow_covers (distinct item List.mem_cons_self) found
            simp [own]
        obtain ⟨row, inside, covers⟩ := List.any_eq_true.mp covered
        exact List.any_eq_true.mpr ⟨row, writeReviews_keeps rest_written inside, covers⟩
      · exact ih (fun i inside => distinct i (List.mem_cons_of_mem _ inside)) rest_written item
          later key found

/-- Items whose keys are all covered are all skipped. -/
theorem writeReviews_covered {ids : NewIds Id} {rows : List (ReviewRow Id)}
    {items : List (ReviewItem Id)}
    (covered : ∀ item ∈ items, ∃ key, ids.dedupKey item = some key
      ∧ rows.any (·.covers key) = true)
    : writeReviews ids rows items = some ⟨rows, [], items.length⟩ := by
  have skips (skipped : Nat)
      : items.foldlM (writeReview ids) ⟨rows, [], skipped⟩
        = some ⟨rows, [], skipped + items.length⟩ := by
    induction items generalizing skipped with
    | nil => rfl
    | cons item rest ih =>
        obtain ⟨key, found, open_row⟩ := covered item List.mem_cons_self
        have stepped : writeReview ids ⟨rows, [], skipped⟩ item
            = some ⟨rows, [], skipped + 1⟩ := by
          simp only [writeReview, found, open_row, Option.bind_eq_bind, Option.bind_some,
            if_true]
          rfl
        refine foldlM_cons_eq_some.mpr ⟨_, stepped, ?_⟩
        rw [ih (fun i inside => covered i (List.mem_cons_of_mem _ inside)), List.length_cons]
        congr 2
        omega
  rw [writeReviews, skips 0, Nat.zero_add]

/-- Written again, under other new ids but with the same keys, the items add no row. -/
theorem writeReviews_again {ids again : NewIds Id} {rows : List (ReviewRow Id)}
    {items repeated : List (ReviewItem Id)} {table : ReviewTable Id}
    (distinct : ∀ item ∈ items, (item.details.map Prod.fst).Nodup)
    (written : writeReviews ids rows items = some table)
    (same : ∀ item ∈ repeated, ∃ key, again.dedupKey item = some key
      ∧ ∃ earlier ∈ items, ids.dedupKey earlier = some key)
    : writeReviews again table.rows repeated = some ⟨table.rows, [], repeated.length⟩ := by
  refine writeReviews_covered fun item member => ?_
  obtain ⟨key, found, earlier, inside, found'⟩ := same item member
  exact ⟨key, found, writeReviews_covers distinct written earlier inside key found'⟩

end FauPortalen.Register

import FauPortalen.Register.Fetch.Nsr

/-! NSR's list, page by page. What comes back is the whole list as NSR counts it, or an error: a
run is never planned from a part of it.
-/

set_option linter.unusedSectionVars false

namespace FauPortalen.Register

open Foundations

-----------------------------------------------------------------------------------------
-- Reading the pages

/-- What has been read of the list, and what its first page claims. -/
structure Paging where
  seen : List String
  units : List NsrListItem
  pageCount : Option UInt32
  total : Option UInt32

namespace Paging

def empty : Paging := ⟨[], [], none, none⟩

/-- An item whose number has not been seen is added. -/
def push (paging : Paging) (item : NsrListItem) : Paging :=
  if item.orgnr ∈ paging.seen then paging
  else { paging with seen := item.orgnr :: paging.seen, units := paging.units ++ [item] }

theorem push_claims (paging : Paging) (items : List NsrListItem)
    : (items.foldl push paging).pageCount = paging.pageCount
      ∧ (items.foldl push paging).total = paging.total := by
  induction items generalizing paging with
  | nil => exact ⟨rfl, rfl⟩
  | cons item items ih =>
      rw [List.foldl_cons, (ih _).1, (ih _).2]
      unfold push
      split <;> exact ⟨rfl, rfl⟩

/-- Pushing keeps the first item of every number. -/
theorem push_units (paging : Paging) (items : List NsrListItem)
    : (items.foldl push paging).units
      = paging.units ++ keepFirst NsrListItem.orgnr paging.seen items := by
  induction items generalizing paging with
  | nil => exact (List.append_nil _).symm
  | cons item items ih =>
      rw [List.foldl_cons, ih, keepFirst]
      unfold push
      split
      · rfl
      · simp

/-- Pushing some items and then the others is pushing them all. -/
theorem push_append (paging : Paging) (items later : List NsrListItem)
    : (items.foldl push paging).units
          ++ keepFirst NsrListItem.orgnr (items.foldl push paging).seen later
        = paging.units ++ keepFirst NsrListItem.orgnr paging.seen (items ++ later) := by
  rw [← push_units, ← push_units, List.foldl_append]

end Paging

/-- The number of different units must be the one that was claimed. -/
def finishedPaging (units : List NsrListItem) (total : UInt32)
    : Except SourceError (List NsrListItem) :=
  if UInt32.ofNat units.length ≠ total then .error ⟨.nsr, .incompletePaging⟩ else .ok units

variable [NsrDecoding]

namespace SourceClient

/-- The pages that are left, read onto what has been read. -/
def readPages (client : SourceClient) : List Nat → Paging → Nat
    → Except SourceError (List NsrListItem) × Nat
  | [], _, sent => (.error ⟨.nsr, .tooManyPages⟩, sent)
  | page :: later, paging, sent =>
      match client.nsrListPage page sent with
      | (.error e, sent) => (.error e, sent)
      | (.ok parsed, sent) =>
          let count := paging.pageCount.getD parsed.pageCount
          let expectedTotal := paging.total.getD parsed.total
          if parsed.units.isEmpty then
            if page < count.toNat then (.error ⟨.nsr, .incompletePaging⟩, sent)
            else (finishedPaging paging.units expectedTotal, sent)
          else
            let paging := parsed.units.foldl Paging.push
              { paging with pageCount := some count, total := some expectedTotal }
            if count.toNat ≤ page then (finishedPaging paging.units expectedTotal, sent)
            else readPages client later paging sent

def nsrAllUnits (client : SourceClient) (sent : Nat)
    : Except SourceError (List NsrListItem) × Nat :=
  client.readPages (List.range' 1 nsrMaxPages) .empty sent

end SourceClient

-----------------------------------------------------------------------------------------
-- The whole list

/-- The pages are NSR's answers to requests for one page after the other, from a first page and a
number of requests on, to a number of requests.
-/
inductive AnswersPages (client : SourceClient) : Nat → Nat → List NsrListPage → Nat → Prop
  | done {page sent : Nat} : AnswersPages client page sent [] sent
  | next {page sent sent' after : Nat} {parsed : NsrListPage} {rest : List NsrListPage}
      (answered : client.nsrListPage page sent = (.ok parsed, sent'))
      (answers : AnswersPages client (page + 1) sent' rest after)
    : AnswersPages client page sent (parsed :: rest) after

/-- The pages, the first of which has this number, end the list after what has been read: no page
but the last is empty or has the claimed number, and the last one has it.
-/
structure EndsList (paging : Paging) (page : Nat) (first : NsrListPage)
    (pages : List NsrListPage) : Prop where
  begins : pages.head? = some first
  full : ∀ p ∈ pages.dropLast, p.units ≠ []
  reached : page + pages.length
    = max (page + 1) ((paging.pageCount.getD first.pageCount).toNat + 1)

section

variable {client : SourceClient} {paging : Paging} {page sent after : Nat}
  {parsed : NsrListPage} {pages later : List NsrListPage} {units : List NsrListItem}

theorem finishedPaging_eq_ok {found : List NsrListItem} {total : UInt32}
    : finishedPaging found total = .ok units
      ↔ found = units ∧ UInt32.ofNat found.length = total := by
  unfold finishedPaging
  split
  · next differs => exact ⟨fun h => (nomatch h), fun h => absurd h.2 differs⟩
  · next same =>
      exact ⟨fun h => ⟨Except.ok.inj h, not_not.mp same⟩, fun h => congrArg _ h.1⟩

/-- The last page of a list. -/
theorem endsList_single (reached : (paging.pageCount.getD parsed.pageCount).toNat ≤ page)
    : EndsList paging page parsed [parsed] where
  begins := rfl
  full := by simp
  reached := by rw [List.length_singleton]; omega

/-- A list that goes on after a page, in one reading and the next. -/
theorem endsList_cons {next : NsrListPage} {paging' : Paging} (nonempty : parsed.units ≠ [])
    (before : page < (paging.pageCount.getD parsed.pageCount).toNat)
    (claimed : paging'.pageCount = some (paging.pageCount.getD parsed.pageCount))
    (ends : EndsList paging' (page + 1) next later)
    : EndsList paging page parsed (parsed :: later) where
  begins := rfl
  full p member := by
    obtain ⟨head, tail, rfl⟩ : ∃ head tail, later = head :: tail := by
      cases later with
      | nil => cases ends.begins
      | cons head tail => exact ⟨head, tail, rfl⟩
    rw [List.dropLast_cons_cons] at member
    rcases List.mem_cons.mp member with rfl | inside
    · exact nonempty
    · exact ends.full p inside
  reached := by
    have reached := ends.reached
    rw [claimed, Option.getD_some] at reached
    rw [List.length_cons]
    omega

/-- What an ending list says of its first page, and of the rest if the page is not the last. -/
theorem EndsList.cases {first : NsrListPage} (ends : EndsList paging page first (parsed :: later))
    : first = parsed
      ∧ ((later = [] ∧ (paging.pageCount.getD parsed.pageCount).toNat ≤ page)
        ∨ (parsed.units ≠ [] ∧ page < (paging.pageCount.getD parsed.pageCount).toNat
          ∧ ∃ next, ∀ paging' : Paging,
            paging'.pageCount = some (paging.pageCount.getD parsed.pageCount) →
            EndsList paging' (page + 1) next later)) := by
  obtain rfl : parsed = first := Option.some.inj ends.begins
  have reached := ends.reached
  rw [List.length_cons] at reached
  refine ⟨rfl, ?_⟩
  cases later with
  | nil =>
      rw [List.length_nil] at reached
      exact .inl ⟨rfl, by omega⟩
  | cons next rest =>
      rw [List.length_cons] at reached
      refine .inr ⟨ends.full parsed (by simp), by omega, next, fun paging' claimed => ?_⟩
      refine ⟨rfl, fun p member => ends.full p ?_, ?_⟩
      · rw [List.dropLast_cons_cons]
        exact List.mem_cons_of_mem _ member
      · rw [claimed, Option.getD_some, List.length_cons]
        omega

/-- The answers from a page and a number of requests on end the list within the pages that are
left, and hold as many different units as its first page claims.
-/
def ReadsList (client : SourceClient) (paging : Paging) (page left sent : Nat)
    (units : List NsrListItem) (after : Nat)
    : Prop :=
  ∃ first pages, AnswersPages client page sent pages after
    ∧ EndsList paging page first pages
    ∧ pages.length ≤ left
    ∧ paging.units ++ keepFirst NsrListItem.orgnr paging.seen (pages.flatMap NsrListPage.units)
      = units
    ∧ UInt32.ofNat units.length = paging.total.getD first.total

/-- What answers that end a list begin with. -/
theorem ReadsList.parts {left : Nat} (reads : ReadsList client paging page left sent units after)
    : ∃ parsed later sent', client.nsrListPage page sent = (.ok parsed, sent')
      ∧ AnswersPages client (page + 1) sent' later after
      ∧ EndsList paging page parsed (parsed :: later)
      ∧ later.length < left
      ∧ paging.units ++ keepFirst NsrListItem.orgnr paging.seen
          (parsed.units ++ later.flatMap NsrListPage.units) = units
      ∧ UInt32.ofNat units.length = paging.total.getD parsed.total := by
  obtain ⟨first, pages, answers, ends, short, read, counted⟩ := reads
  cases answers with
  | done => cases ends.begins
  | next answered rest =>
      obtain rfl := Option.some.inj ends.begins
      exact ⟨_, _, _, answered, rest, ends, short, List.flatMap_cons ▸ read, counted⟩

/-- No list is read when no page is left. -/
theorem not_readsList_zero : ¬ ReadsList client paging page 0 sent units after := by
  intro reads
  obtain ⟨_, _, _, _, _, _, short, _⟩ := reads.parts
  exact Nat.not_lt_zero _ short

/-- No list is read when NSR does not answer. -/
theorem not_readsList_error {left sent' : Nat} {e : SourceError}
    (answer : client.nsrListPage page sent = (.error e, sent'))
    : ¬ ReadsList client paging page left sent units after := by
  intro reads
  obtain ⟨_, _, _, answered, _⟩ := reads.parts
  cases congrArg Prod.fst (answer.symm.trans answered)

section

variable {left sent' : Nat} (answer : client.nsrListPage page sent = (.ok parsed, sent'))

include answer

/-- No list is read when a page before the last is empty. -/
theorem not_readsList_empty (empty : parsed.units = [])
    (before : page < (paging.pageCount.getD parsed.pageCount).toNat)
    : ¬ ReadsList client paging page left sent units after := by
  intro reads
  obtain ⟨parsed', later, _, answered, _, ends, _⟩ := reads.parts
  obtain rfl := Except.ok.inj (congrArg Prod.fst (answer.symm.trans answered))
  rcases ends.cases.2 with ⟨-, last⟩ | ⟨nonempty, -⟩
  · exact Nat.not_lt.mpr last before
  · exact nonempty empty

/-- The list ends with the last page. -/
theorem readsList_last (last : (paging.pageCount.getD parsed.pageCount).toNat ≤ page)
    : ReadsList client paging page (left + 1) sent units after
      ↔ (finishedPaging (parsed.units.foldl Paging.push paging).units
          (paging.total.getD parsed.total), sent') = (.ok units, after) := by
  have read := paging.push_units parsed.units
  constructor
  · intro reads
    obtain ⟨parsed', later, _, answered, rest, ends, -, whole, counted⟩ := reads.parts
    obtain ⟨same, passed⟩ := Prod.mk.inj (answer.symm.trans answered)
    obtain rfl := Except.ok.inj same
    rcases ends.cases.2 with ⟨rfl, -⟩ | ⟨-, before, -⟩
    · cases rest
      rw [List.flatMap_nil, List.append_nil] at whole
      rw [finishedPaging_eq_ok.mpr ⟨read.trans whole, read.trans whole ▸ counted⟩, passed]
    · exact absurd before (Nat.not_lt.mpr last)
  · intro finished
    obtain ⟨accepted, rfl⟩ := Prod.mk.inj finished
    obtain ⟨rfl, counted⟩ := finishedPaging_eq_ok.mp accepted
    refine ⟨parsed, [parsed], .next answer .done, endsList_single last, by simp, ?_, counted⟩
    rw [read, List.flatMap_cons, List.flatMap_nil, List.append_nil]

/-- After any other page the list is what is read from the next one on. -/
theorem readsList_more {paging' : Paging} (nonempty : parsed.units ≠ [])
    (before : page < (paging.pageCount.getD parsed.pageCount).toNat)
    (pushed : paging' = parsed.units.foldl Paging.push
      { paging with
        pageCount := some (paging.pageCount.getD parsed.pageCount)
        total := some (paging.total.getD parsed.total) })
    : ReadsList client paging page (left + 1) sent units after
      ↔ ReadsList client paging' (page + 1) left sent' units after := by
  have claims := Paging.push_claims { paging with
    pageCount := some (paging.pageCount.getD parsed.pageCount)
    total := some (paging.total.getD parsed.total) } parsed.units
  have appended := Paging.push_append { paging with
    pageCount := some (paging.pageCount.getD parsed.pageCount)
    total := some (paging.total.getD parsed.total) } parsed.units
  rw [← pushed] at claims appended
  have total (claimed : UInt32)
      : paging'.total.getD claimed = paging.total.getD parsed.total := by rw [claims.2]; rfl
  constructor
  · intro reads
    obtain ⟨parsed', later, _, answered, rest, ends, short, whole, counted⟩ := reads.parts
    obtain ⟨same, rfl⟩ := Prod.mk.inj (answer.symm.trans answered)
    obtain rfl := Except.ok.inj same
    rcases ends.cases.2 with ⟨-, last⟩ | ⟨-, -, next, goesOn⟩
    · exact absurd before (Nat.not_lt.mpr last)
    · exact ⟨next, later, rest, goesOn paging' claims.1, Nat.le_of_lt_succ short,
        (appended _).trans whole, counted.trans (total _).symm⟩
  · rintro ⟨next, later, rest, ends, short, whole, counted⟩
    refine ⟨parsed, parsed :: later, .next answer rest, ?_, Nat.succ_le_succ short, ?_, ?_⟩
    · exact endsList_cons nonempty before claims.1 ends
    · rw [List.flatMap_cons]
      exact (appended _).symm.trans whole
    · exact counted.trans (total _)

end

/-- Reading succeeds exactly on answers that end the list, by induction on the pages that are left.
-/
theorem SourceClient.readPages_eq_ok {left : Nat}
    : client.readPages (List.range' page left) paging sent = (.ok units, after)
      ↔ ReadsList client paging page left sent units after := by
  induction left generalizing page paging sent with
  | zero =>
      refine iff_of_false (fun failed => ?_) not_readsList_zero
      cases congrArg Prod.fst failed
  | succ left ih =>
      rw [List.range'_succ, readPages]
      rcases answer : client.nsrListPage page sent with ⟨_ | parsed, sent'⟩
      · refine iff_of_false (fun failed => ?_) (not_readsList_error answer)
        cases congrArg Prod.fst failed
      · dsimp only
        by_cases empty : parsed.units = []
        · rw [if_pos (List.isEmpty_iff.mpr empty)]
          by_cases before : page < (paging.pageCount.getD parsed.pageCount).toNat
          · rw [if_pos before]
            refine iff_of_false (fun failed => ?_) (not_readsList_empty answer empty before)
            cases congrArg Prod.fst failed
          · rw [if_neg before, readsList_last answer (Nat.not_lt.mp before), empty]
            rfl
        · rw [if_neg (mt List.isEmpty_iff.mp empty)]
          by_cases last : (paging.pageCount.getD parsed.pageCount).toNat ≤ page
          · rw [if_pos last, readsList_last answer last, Paging.push_units, Paging.push_units]
          · rw [if_neg last, ih, readsList_more answer empty (Nat.not_le.mp last) rfl]

/-- What NSR answered is its whole list: the first page is followed by every page it counts, and by
no other, and none before the last is empty. The units are those of these pages, the first of each
number, and they are as many as the first page counts, modulo 2³².
-/
structure WholeList (pages : List NsrListPage) (units : List NsrListItem) : Prop where
  counted : ∃ first, pages.head? = some first ∧ pages.length = max 1 first.pageCount.toNat
    ∧ UInt32.ofNat units.length = first.total
  short : pages.length ≤ nsrMaxPages
  full : ∀ p ∈ pages.dropLast, p.units ≠ []
  units : units = keepFirst NsrListItem.orgnr [] (pages.flatMap NsrListPage.units)

theorem readsList_empty_iff
    : ReadsList client .empty 1 nsrMaxPages sent units after
      ↔ ∃ pages, AnswersPages client 1 sent pages after ∧ WholeList pages units := by
  constructor
  · rintro ⟨first, pages, answers, ends, short, read, counted⟩
    have reached := ends.reached
    change 1 + pages.length = max (1 + 1) (first.pageCount.toNat + 1) at reached
    have count : pages.length = max 1 first.pageCount.toNat := by omega
    exact ⟨pages, answers, ⟨first, ends.begins, count, counted⟩, short, ends.full, read.symm⟩
  · rintro ⟨pages, answers, ⟨first, begins, count, counted⟩, short, full, read⟩
    refine ⟨first, pages, answers, ⟨begins, full, ?_⟩, short, read.symm, counted⟩
    change 1 + pages.length = max (1 + 1) (first.pageCount.toNat + 1)
    omega

/-- A list is returned exactly when NSR's answers are its whole list, and it is that list. -/
theorem nsrAllUnits_whole
    : client.nsrAllUnits sent = (.ok units, after)
      ↔ ∃ pages, AnswersPages client 1 sent pages after ∧ WholeList pages units := by
  rw [SourceClient.nsrAllUnits, SourceClient.readPages_eq_ok, readsList_empty_iff]

end

end FauPortalen.Register

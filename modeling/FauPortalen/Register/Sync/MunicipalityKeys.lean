import FauPortalen.Register.Sync.MunicipalityTracking

/-! The keys of municipalities under a run of operations: a slug carries its municipality's
number, so open municipalities cannot share one, and only a dissolved municipality's slug
can be given a second time.
-/

set_option linter.unusedSectionVars false

namespace FauPortalen.Register

open FauPortalen.Foundations

-----------------------------------------------------------------------------------------
-- Slugs and numbers

/-- A digit takes one byte. -/
theorem byteLength_of_digits {text : List Char} (digits : text.all Char.isDigit = true)
    : byteLength text = text.length := by
  induction text with
  | nil => rfl
  | cons c rest ih =>
      simp only [List.all_cons, Bool.and_eq_true] at digits
      have one : c.utf8Size = 1 := by
        have bound : c.val ≤ 57 := by
          have := digits.1
          simp only [Char.isDigit, Bool.and_eq_true, decide_eq_true_eq] at this
          exact this.2
        have small : c.val ≤ 0x7F := UInt32.le_trans bound (by decide)
        simp [Char.utf8Size, small]
      simp only [byteLength, List.map_cons, List.sum_cons, one, List.length_cons] at ih ⊢
      rw [ih digits.2, Nat.add_comm]

/-- A municipality slug starts with its number, which has four characters. -/
theorem municipalitySlug_eq_ok [UnicodeData] {number name slug : String}
    (h : municipalitySlug number name = .ok slug)
    : number.toList = slug.toList.take 4 := by
  unfold municipalitySlug at h
  split at h
  · cases h
  · next valid =>
      rw [not_or, not_not] at valid
      have digits : number.toList.all Char.isDigit = true := by simpa using valid.2
      have length : number.toList.length = 4 := (byteLength_of_digits digits).symm.trans valid.1
      cases found : slugify name with
      | error e => simp [found] at h
      | ok part =>
          have same : number ++ "-" ++ part = slug := by
            rw [found] at h
            exact Except.ok.inj h
          rw [← same, String.toList_append, String.toList_append, List.append_assoc,
            List.take_append_of_le_length (by omega), List.take_of_length_le (by omega)]

-----------------------------------------------------------------------------------------
-- What an operation does to the keys

section

variable {Id : Type}

/-- The slug an operation gives. -/
def MunicipalityOp.newSlug? : MunicipalityOp Id → Option String
  | .create _ _ _ _ _ _ slug .. => some slug
  | .renumber _ _ _ _ _ _ newSlug => some newSlug
  | .rename _ _ oldSlug newSlug => if oldSlug ≠ newSlug then some newSlug else none
  | .updateDetails .. => none

theorem MunicipalityOp.change_slug {op : MunicipalityOp Id} {id : Id}
    (target : op.target? = some id) (m : MunicipalitySnapshot Id)
    : (op.change m).slug = op.newSlug?.getD m.slug := by
  cases op with
  | create => cases target
  | renumber => rfl
  | updateDetails => rfl
  | rename id name oldSlug newSlug =>
      simp only [MunicipalityOp.change, MunicipalityOp.newSlug?]
      split <;> rfl

theorem MunicipalityOp.rows_slug {ids : NewIds Id} {op : MunicipalityOp Id}
    {row : MunicipalitySnapshot Id} (member : row ∈ op.rows ids)
    : op.newSlug? = some row.slug ∧ row.status = .active := by
  cases op with
  | create new =>
      simp only [MunicipalityOp.rows, List.mem_map, Option.mem_toList] at member
      obtain ⟨id, _, rfl⟩ := member
      exact ⟨rfl, rfl⟩
  | _ => cases member

/-- The row's slug starts with its number. -/
def MunicipalitySnapshot.IsKeyed (row : MunicipalitySnapshot Id) : Prop :=
  row.number.toList = row.slug.toList.take 4

/-- Rows with one slug have one number. -/
theorem MunicipalitySnapshot.IsKeyed.number {left right : MunicipalitySnapshot Id}
    (hl : left.IsKeyed) (hr : right.IsKeyed) (same : left.slug = right.slug)
    : left.number = right.number :=
  String.toList_injective (hl.trans (same ▸ hr.symm))

/-- The operation fits the table: it changes an open municipality that is not kept by hand,
or creates one, under its own number or one that no open municipality has, and its slug
starts with that number.
-/
inductive MunicipalityOp.Fits (ids : NewIds Id)
    (table : List (MunicipalitySnapshot Id)) (op : MunicipalityOp Id) : Prop
  | change (own : MunicipalitySnapshot Id) (member : own ∈ table)
      (target : op.target? = some own.id) (active : own.status = .active)
      (sourced : own.source ≠ .manual)
      (free : (op.change own).number = own.number
        ∨ ∀ row ∈ table, row.status = .active → row.number ≠ (op.change own).number)
      (keyed : own.IsKeyed → (op.change own).IsKeyed)
  | create (target : op.target? = none)
      (free : ∀ new ∈ op.rows ids, ∀ row ∈ table, row.status = .active →
        row.number ≠ new.number)
      (keyed : ∀ new ∈ op.rows ids, new.IsKeyed)

variable [LinearOrder Id]

/-- Every operation fits the table the ones before it leave. -/
def OpsFit (ids : NewIds Id)
    : List (MunicipalitySnapshot Id) → List (MunicipalityOp Id) → Prop
  | _, [] => True
  | table, op :: rest => op.Fits ids table ∧ OpsFit ids (grownMunicipalities ids table op) rest

theorem opsFit_append {ids : NewIds Id} {ops more : List (MunicipalityOp Id)}
    {table : List (MunicipalitySnapshot Id)}
    : OpsFit ids table (ops ++ more)
      ↔ OpsFit ids table ops
        ∧ OpsFit ids (tableAfterMunicipalityOps ids ops table) more := by
  induction ops generalizing table with
  | nil => simp [OpsFit, tableAfterMunicipalityOps]
  | cons op rest ih =>
      simp only [List.cons_append, OpsFit, ih, and_assoc]
      rfl

/-- What the operations keep: open municipalities differ in their numbers, every slug starts
with its row's number, and the dissolved rows are the snapshot's.
-/
structure KeyedTable (snapshot : RegisterSnapshot Id)
    (table : List (MunicipalitySnapshot Id)) : Prop where
  unique : (table.map (·.id)).Nodup
  numbers : ∀ left ∈ table, ∀ right ∈ table, left.status = .active →
    right.status = .active → left.number = right.number → left = right
  keyed : ∀ row ∈ table, row.IsKeyed
  frozen : ∀ row, row.status = .dissolved → (row ∈ table ↔ row ∈ snapshot.municipalities)

/-- The rows after a change: the target's is changed, the others are as they were. -/
theorem mem_grownMunicipalities_of_target {ids : NewIds Id}
    {table : List (MunicipalitySnapshot Id)} {op : MunicipalityOp Id}
    {own row : MunicipalitySnapshot Id} (unique : (table.map (·.id)).Nodup)
    (member : own ∈ table) (target : op.target? = some own.id)
    : row ∈ grownMunicipalities ids table op
      ↔ row = op.change own ∨ (row ∈ table ∧ row.id ≠ own.id) := by
  have rows : op.rows ids = [] := by
    cases op with
    | create => cases target
    | _ => rfl
  rw [grownMunicipalities_of_rows_nil rows, List.mem_map]
  constructor
  · rintro ⟨before, inside, rfl⟩
    by_cases same : before.id = own.id
    · have one : before = own := List.inj_on_of_nodup_map unique inside member same
      subst one
      exact .inl (MunicipalityOp.onRow_of_eq target)
    · have kept : op.onRow before = before :=
        MunicipalityOp.onRow_of_ne fun e => same (Option.some.inj (e.symm.trans target))
      rw [kept]
      exact .inr ⟨inside, same⟩
  · rintro (rfl | ⟨inside, differ⟩)
    · exact ⟨own, member, MunicipalityOp.onRow_of_eq target⟩
    · exact ⟨row, inside,
        MunicipalityOp.onRow_of_ne fun e => differ (Option.some.inj (e.symm.trans target))⟩

/-- The rows after a creation. -/
theorem mem_grownMunicipalities_of_create {ids : NewIds Id}
    {table : List (MunicipalitySnapshot Id)} {op : MunicipalityOp Id}
    {row : MunicipalitySnapshot Id} (target : op.target? = none)
    : row ∈ grownMunicipalities ids table op ↔ row ∈ table ∨ row ∈ op.rows ids := by
  have kept : table.map op.onRow = table := by
    refine (List.map_congr_left fun other _ => ?_).trans table.map_id
    exact MunicipalityOp.onRow_of_ne (by simp [target])
  rw [grownMunicipalities, growTable, kept, List.mem_append]

/-- Open municipalities differ in their numbers. -/
def NumbersApart (table : List (MunicipalitySnapshot Id)) : Prop :=
  ∀ left ∈ table, ∀ right ∈ table, left.status = .active →
    right.status = .active → left.number = right.number → left = right

omit [LinearOrder Id] in
theorem nodup_active_numbers_iff {table : List (MunicipalitySnapshot Id)}
    (unique : (table.map (·.id)).Nodup)
    : ((table.filter (·.status = .active)).map (·.number)).Nodup ↔ NumbersApart table := by
  constructor
  · intro distinct left hl right hr activeLeft activeRight same
    refine List.inj_on_of_nodup_map distinct ?_ ?_ same
    · exact List.mem_filter.mpr ⟨hl, decide_eq_true activeLeft⟩
    · exact List.mem_filter.mpr ⟨hr, decide_eq_true activeRight⟩
  · intro apart
    refine List.Nodup.map_on ?_ ((List.Nodup.of_map _ unique).filter _)
    intro left hl right hr same
    simp only [List.mem_filter, decide_eq_true_eq] at hl hr
    exact apart left hl.1 right hr.1 hl.2 hr.2 same

/-- A fitting operation keeps the numbers apart: its own is free, or its row's. -/
theorem NumbersApart.step {ids : NewIds Id} {table : List (MunicipalitySnapshot Id)}
    {op : MunicipalityOp Id} (h : NumbersApart table) (unique : (table.map (·.id)).Nodup)
    (fits : op.Fits ids table)
    : NumbersApart (grownMunicipalities ids table op) := by
  intro left hl right hr activeLeft activeRight same
  cases fits with
  | change own member target active sourced free keyed =>
      have rows {row : MunicipalitySnapshot Id}
          : row ∈ grownMunicipalities ids table op
            ↔ row = op.change own ∨ (row ∈ table ∧ row.id ≠ own.id) :=
        mem_grownMunicipalities_of_target unique member target
      have apart : ∀ row ∈ table, row.status = .active → row.id ≠ own.id →
          row.number ≠ (op.change own).number := by
        intro row inside active' differ same
        rcases free with kept | unheld
        · exact differ (congrArg _ (h row inside own member active' active (same.trans kept)))
        · exact unheld row inside active' same
      rcases rows.mp hl with rfl | ⟨inLeft, differLeft⟩
      · rcases rows.mp hr with rfl | ⟨inRight, differRight⟩
        · rfl
        · exact absurd same.symm (apart right inRight activeRight differRight)
      · rcases rows.mp hr with rfl | ⟨inRight, _⟩
        · exact absurd same (apart left inLeft activeLeft differLeft)
        · exact h left inLeft right inRight activeLeft activeRight same
  | create target free keyed =>
      have rows {row : MunicipalitySnapshot Id}
          : row ∈ grownMunicipalities ids table op ↔ row ∈ table ∨ row ∈ op.rows ids :=
        mem_grownMunicipalities_of_create target
      have single : ∀ left ∈ op.rows ids, ∀ right ∈ op.rows ids, left = right := by
        intro left hl right hr
        cases op with
        | create new =>
            simp only [MunicipalityOp.rows, List.mem_map, Option.mem_toList] at hl hr
            obtain ⟨_, named, rfl⟩ := hl
            obtain ⟨_, named', rfl⟩ := hr
            cases named.symm.trans named'
            rfl
        | _ => cases hl
      rcases rows.mp hl with inLeft | newLeft
      · rcases rows.mp hr with inRight | newRight
        · exact h left inLeft right inRight activeLeft activeRight same
        · exact absurd same (free right newRight left inLeft activeLeft)
      · rcases rows.mp hr with inRight | newRight
        · exact absurd same.symm (free left newLeft right inRight activeRight)
        · exact single left newLeft right newRight

/-- A fitting operation keeps the keys in order. -/
theorem KeyedTable.step {ids : NewIds Id} {snapshot : RegisterSnapshot Id}
    {table : List (MunicipalitySnapshot Id)} {op : MunicipalityOp Id}
    (h : KeyedTable snapshot table) (fits : op.Fits ids table)
    (unique : ((grownMunicipalities ids table op).map (·.id)).Nodup)
    : KeyedTable snapshot (grownMunicipalities ids table op) := by
  have numbers : NumbersApart (grownMunicipalities ids table op) :=
    NumbersApart.step h.numbers h.unique fits
  cases fits with
  | change own member target active sourced free keyed =>
      have rows {row : MunicipalitySnapshot Id}
          : row ∈ grownMunicipalities ids table op
            ↔ row = op.change own ∨ (row ∈ table ∧ row.id ≠ own.id) :=
        mem_grownMunicipalities_of_target h.unique member target
      refine ⟨unique, numbers, ?_, ?_⟩
      · intro row present
        rcases rows.mp present with rfl | ⟨inside, _⟩
        · exact keyed (h.keyed own member)
        · exact h.keyed row inside
      · intro row dissolved
        rw [← h.frozen row dissolved, rows]
        constructor
        · rintro (rfl | ⟨inside, _⟩)
          · rw [MunicipalityOp.change_status, active] at dissolved
            cases dissolved
          · exact inside
        · intro inside
          refine .inr ⟨inside, fun same => ?_⟩
          have one : row = own := List.inj_on_of_nodup_map h.unique inside member same
          rw [one, active] at dissolved
          cases dissolved
  | create target free keyed =>
      have rows {row : MunicipalitySnapshot Id}
          : row ∈ grownMunicipalities ids table op ↔ row ∈ table ∨ row ∈ op.rows ids :=
        mem_grownMunicipalities_of_create target
      refine ⟨unique, numbers, ?_, ?_⟩
      · intro row present
        rcases rows.mp present with inside | new
        · exact h.keyed row inside
        · exact keyed row new
      · intro row dissolved
        rw [← h.frozen row dissolved, rows]
        constructor
        · rintro (inside | new)
          · exact inside
          · rw [(MunicipalityOp.rows_slug new).2] at dissolved
            cases dissolved
        · exact .inl

/-- A slug of an open row after a fitting operation was one before, or is the one it gives. -/
theorem MunicipalityOp.Fits.slug_cases {ids : NewIds Id}
    {table : List (MunicipalitySnapshot Id)} {op : MunicipalityOp Id}
    (fits : op.Fits ids table) (unique : (table.map (·.id)).Nodup)
    {row : MunicipalitySnapshot Id} (present : row ∈ grownMunicipalities ids table op)
    (active : row.status = .active)
    : (∃ before ∈ table, before.status = .active ∧ before.slug = row.slug)
      ∨ op.newSlug? = some row.slug := by
  cases fits with
  | change own member target active' sourced free keyed =>
      rcases (mem_grownMunicipalities_of_target unique member target).mp present
        with rfl | ⟨inside, _⟩
      · rw [MunicipalityOp.change_slug target]
        cases op.newSlug? with
        | none => exact .inl ⟨own, member, active', rfl⟩
        | some slug => exact .inr rfl
      · exact .inl ⟨row, inside, active, rfl⟩
  | create target free keyed =>
      rcases (mem_grownMunicipalities_of_create target).mp present with inside | new
      · exact .inl ⟨row, inside, active, rfl⟩
      · exact .inr (MunicipalityOp.rows_slug new).1

/-- An open row has the slug that a fitting operation gives. -/
theorem MunicipalityOp.Fits.slug_given {ids : NewIds Id}
    {table : List (MunicipalitySnapshot Id)} {op : MunicipalityOp Id}
    (fits : op.Fits ids table) (unique : (table.map (·.id)).Nodup)
    (resolves : op.Resolves ids) {slug : String} (given : op.newSlug? = some slug)
    : ∃ row ∈ grownMunicipalities ids table op, row.status = .active ∧ row.slug = slug := by
  cases fits with
  | change own member target active sourced free keyed =>
      refine ⟨op.change own,
        (mem_grownMunicipalities_of_target unique member target).mpr (.inl rfl), ?_, ?_⟩
      · rw [MunicipalityOp.change_status]
        exact active
      · rw [MunicipalityOp.change_slug target, given]
        rfl
  | create target free keyed =>
      cases op with
      | create new number name officialName countyNumber countyName given' names source =>
          obtain ⟨id, hid⟩ := Option.isSome_iff_exists.mp resolves
          refine ⟨⟨id, number, name, officialName, countyNumber, countyName, given', .active,
            source, names⟩, (mem_grownMunicipalities_of_create target).mpr (.inr ?_), rfl,
            Option.some.inj given⟩
          simp [MunicipalityOp.rows, hid]
      | _ => cases target

/-- A fitting operation leaves the rows that are kept by hand. -/
theorem MunicipalityOp.Fits.keeps_manual {ids : NewIds Id}
    {table : List (MunicipalitySnapshot Id)} {op : MunicipalityOp Id}
    (fits : op.Fits ids table) (unique : (table.map (·.id)).Nodup)
    {row : MunicipalitySnapshot Id} (inside : row ∈ table) (byHand : row.source = .manual)
    : row ∈ grownMunicipalities ids table op := by
  cases fits with
  | change own member target active sourced free keyed =>
      refine (mem_grownMunicipalities_of_target unique member target).mpr (.inr ⟨inside, ?_⟩)
      intro same
      have one : row = own := List.inj_on_of_nodup_map unique inside member same
      exact sourced (one ▸ byHand)
  | create target free keyed =>
      exact (mem_grownMunicipalities_of_create target).mpr (.inl inside)

-----------------------------------------------------------------------------------------
-- A run of operations

variable {ids : NewIds Id} {snapshot out : RegisterSnapshot Id}

/-- Awaited operations that fit reach a register with keys in order, whose slugs were there
before or were given on the way, and which has the rows that are kept by hand.
-/
theorem OpsFit.reach {before rest : List (MunicipalityOp Id)}
    (awaits : AwaitsMunicipalities ids snapshot out (before ++ rest)) (fresh : ids.Fresh snapshot)
    (keys : KeyedTable snapshot out.municipalities)
    (fit : OpsFit ids out.municipalities (before ++ rest))
    : ∃ register, applyMunicipalityOps ids out before = some register
        ∧ AwaitsMunicipalities ids snapshot register rest
        ∧ KeyedTable snapshot register.municipalities
        ∧ OpsFit ids register.municipalities rest
        ∧ (∀ row ∈ register.municipalities, row.status = .active →
          (∃ old ∈ out.municipalities, old.status = .active ∧ old.slug = row.slug)
            ∨ ∃ op ∈ before, op.newSlug? = some row.slug)
        ∧ ∀ row ∈ out.municipalities, row.source = .manual → row ∈ register.municipalities := by
  induction before generalizing out with
  | nil =>
      refine ⟨out, rfl, awaits, keys, fit, fun row inside active => ?_, fun _ inside _ => inside⟩
      exact .inl ⟨row, inside, active, rfl⟩
  | cons op later ih =>
      obtain ⟨stepped, awaits'⟩ := awaits.step fresh
      obtain ⟨fits, fit'⟩ := fit
      have keys' : KeyedTable snapshot (op.result ids out).municipalities :=
        keys.step fits awaits'.unique
      obtain ⟨register, run, awaits'', keys'', fit'', slugs, manual⟩ := ih awaits' keys' fit'
      refine ⟨register, foldlM_cons_eq_some.mpr ⟨_, stepped, run⟩, awaits'', keys'', fit'', ?_,
        fun row inside byHand => manual row (fits.keeps_manual keys.unique inside byHand) byHand⟩
      intro row inside active
      rcases slugs row inside active with ⟨middle, present, active', same⟩ | ⟨given, member, same⟩
      · rcases fits.slug_cases keys.unique present active' with old | given
        · rw [same] at old
          exact .inl old
        · exact .inr ⟨op, List.mem_cons_self, same ▸ given⟩
      · exact .inr ⟨given, List.mem_cons_of_mem _ member, same⟩

/-- Two rows with one slug are two open ones, two dissolved ones, or one of each; the first
cannot be, and a table inherits the second from the snapshot.
-/
theorem KeyedTable.nodup_slugs {table : List (MunicipalitySnapshot Id)}
    (h : KeyedTable snapshot table) (slugs : (snapshot.municipalities.map (·.slug)).Nodup)
    (apart : ∀ row ∈ table, row.status = .active → ∀ gone ∈ snapshot.municipalities,
      gone.status = .dissolved → gone.slug ≠ row.slug)
    : (table.map (·.slug)).Nodup := by
  refine List.Nodup.map_on ?_ (List.Nodup.of_map _ h.unique)
  intro left hl right hr same
  cases activeLeft : left.status with
  | active =>
      cases activeRight : right.status with
      | active =>
          exact h.numbers left hl right hr activeLeft activeRight
            ((h.keyed left hl).number (h.keyed right hr) same)
      | dissolved =>
          exact absurd same.symm (apart left hl activeLeft right
            ((h.frozen right activeRight).mp hr) activeRight)
  | dissolved =>
      cases activeRight : right.status with
      | active =>
          exact absurd same (apart right hr activeRight left
            ((h.frozen left activeLeft).mp hl) activeLeft)
      | dissolved =>
          exact List.inj_on_of_nodup_map slugs ((h.frozen left activeLeft).mp hl)
            ((h.frozen right activeRight).mp hr) same

theorem KeyedTable.nodup_numbers {register : RegisterSnapshot Id}
    (h : KeyedTable snapshot register.municipalities)
    : ((activeMunicipalities register).map (·.number)).Nodup :=
  (nodup_active_numbers_iff h.unique).mpr h.numbers

/-- Every register on the way has distinct slugs exactly when no operation gives the slug of
a dissolved municipality.
-/
theorem OpsFit.slugs_iff {ops : List (MunicipalityOp Id)}
    (awaits : AwaitsMunicipalities ids snapshot snapshot ops) (fresh : ids.Fresh snapshot)
    (keys : KeyedTable snapshot snapshot.municipalities)
    (fit : OpsFit ids snapshot.municipalities ops)
    (slugs : (snapshot.municipalities.map (·.slug)).Nodup)
    : (∀ count, ∃ register, applyMunicipalityOps ids snapshot (ops.take count) = some register
        ∧ (register.municipalities.map (·.slug)).Nodup
        ∧ ((activeMunicipalities register).map (·.number)).Nodup)
      ↔ ∀ op ∈ ops, ∀ slug, op.newSlug? = some slug →
        ∀ gone ∈ snapshot.municipalities, gone.status = .dissolved → gone.slug ≠ slug := by
  constructor
  · intro safe op member slug given gone inside dissolved same
    obtain ⟨before, after, rfl⟩ := List.append_of_mem member
    obtain ⟨middle, run, awaits', keys', fit', _⟩ := OpsFit.reach awaits fresh keys fit
    obtain ⟨stepped, awaits''⟩ := awaits'.step fresh
    obtain ⟨register, run', distinct, _⟩ := safe (before.length + 1)
    have taken : (before ++ op :: after).take (before.length + 1) = before ++ [op] := by
      rw [List.take_length_add_append]
      rfl
    have reached : register = op.result ids middle := by
      have both : applyMunicipalityOps ids snapshot (before ++ [op])
          = some (op.result ids middle) :=
        foldlM_append_eq_some.mpr ⟨middle, run, foldlM_cons_eq_some.mpr ⟨_, stepped, rfl⟩⟩
      rw [taken, both] at run'
      exact (Option.some.inj run').symm
    subst reached
    obtain ⟨row, present, active, own⟩ := fit'.1.slug_given keys'.unique
      (awaits'.resolves op List.mem_cons_self) given
    have kept : gone ∈ (op.result ids middle).municipalities :=
      ((keys'.step fit'.1 awaits''.unique).frozen gone dissolved).mpr inside
    have one : row = gone := List.inj_on_of_nodup_map distinct present kept (own.trans same.symm)
    rw [one, dissolved] at active
    cases active
  · intro apart count
    have split : ops = ops.take count ++ ops.drop count := (List.take_append_drop _ _).symm
    rw [split] at awaits fit
    obtain ⟨register, run, _, keys', _, given, _⟩ := OpsFit.reach awaits fresh keys fit
    refine ⟨register, run, keys'.nodup_slugs slugs ?_, keys'.nodup_numbers⟩
    intro row inside active gone there dissolved same
    rcases given row inside active with ⟨old, present, active', own⟩ | ⟨op, member, own⟩
    · have one : old = gone :=
        List.inj_on_of_nodup_map slugs present there (own.trans same.symm)
      rw [one, dissolved] at active'
      cases active'
    · exact apart op (List.mem_of_mem_take member) row.slug own gone there dissolved same

end

end FauPortalen.Register

import Mathlib.Data.List.Basic

/-! Comma-separated records, one a line: a field with a comma, a quote or a line break stands in
quotes, and its quotes are doubled. What is written so is read back.
-/

namespace FauPortalen.Foundations

namespace Csv

-----------------------------------------------------------------------------------------
-- Writing

/-- The characters a field cannot have outside quotes. -/
def isSpecial (c : Char) : Bool := c = ',' || c = '"' || c = '\n' || c = '\r'

def doubled (text : List Char) : List Char :=
  text.flatMap fun c => if c = '"' then ['"', '"'] else [c]

def field (text : List Char) : List Char :=
  if text.any isSpecial then '"' :: doubled text ++ ['"'] else text

def record (fields : List (List Char)) : List Char := [','].intercalate (fields.map field) ++ ['\n']

def document (records : List (List (List Char))) : List Char := records.flatMap record

-----------------------------------------------------------------------------------------
-- Reading

/-- Where a reader is; `closing` is right after a quote inside quotes. -/
inductive State
  | begins
  | bare
  | quoted
  | closing
deriving DecidableEq

inductive Action
  | take (keeps : Bool) (next : State)
  | endField
  | endRecord
  | refuse
deriving DecidableEq

/-- The end of a field or of a record, or else what comes otherwise. -/
def ending (c : Char) (otherwise : Action) : Action :=
  if c = ',' then .endField else if c = '\n' then .endRecord else otherwise

def State.on (c : Char) : State → Action
  | .begins =>
      if c = '"' then .take false .quoted
      else ending c (if c = '\r' then .refuse else .take true .bare)
  | .bare =>
      ending c (if c = '"' ∨ c = '\r' then .refuse else .take true .bare)
  | .quoted => if c = '"' then .take false .closing else .take true .quoted
  | .closing => if c = '"' then .take true .quoted else ending c .refuse

/-- The records of a text, from a state with the field and the fields read so far. A record ends
with its line.
-/
def readFrom (state : State) (text : List Char) (fields : List (List Char))
    : List Char → Option (List (List (List Char)))
  | [] => if state = .begins ∧ fields = [] then some [] else none
  | c :: rest =>
      match state.on c with
      | .take keeps next => readFrom next (if keeps then text ++ [c] else text) fields rest
      | .endField => readFrom .begins [] (fields ++ [text]) rest
      | .endRecord => (readFrom .begins [] [] rest).map ((fields ++ [text]) :: ·)
      | .refuse => none

def read (text : List Char) : Option (List (List (List Char))) := readFrom .begins [] [] text

-----------------------------------------------------------------------------------------
-- Reading one field

variable {text before rest : List Char} {fields : List (List Char)} {state : State} {c : Char}

theorem readFrom_take {keeps : Bool} {next : State} (takes : state.on c = .take keeps next)
    : readFrom state before fields (c :: rest)
      = readFrom next (if keeps then before ++ [c] else before) fields rest := by
  rw [readFrom, takes]

/-- Inside quotes a text is read up to the quote after it, by induction on the text. -/
theorem readFrom_doubled
    : readFrom .quoted before fields (doubled text ++ '"' :: rest)
      = readFrom .closing (before ++ text) fields rest := by
  induction text generalizing before with
  | nil =>
      have closes : State.on '"' .quoted = .take false .closing := rfl
      change readFrom .quoted before fields ('"' :: rest) = _
      rw [readFrom_take closes, List.append_nil]
      rfl
  | cons c others ih =>
      by_cases quote : c = '"'
      · subst quote
        have closes : State.on '"' .quoted = .take false .closing := rfl
        have reopens : State.on '"' .closing = .take true .quoted := rfl
        change readFrom .quoted before fields ('"' :: '"' :: (doubled others ++ '"' :: rest)) = _
        rw [readFrom_take closes, readFrom_take reopens]
        simp only [Bool.false_eq_true, if_false, if_true]
        rw [ih, List.append_assoc, List.singleton_append]
      · have split : doubled (c :: others) = c :: doubled others := by
          simp [doubled, quote]
        have stays : State.on c .quoted = .take true .quoted := by
          simp [State.on, quote]
        rw [split, List.cons_append, readFrom_take stays, if_pos rfl, ih, List.append_assoc,
          List.singleton_append]

/-- Outside quotes a text without special characters is read as it is. -/
theorem readFrom_plain (begins : state = .begins ∨ state = .bare)
    (plain : ∀ c ∈ text, isSpecial c = false)
    : ∃ state', (state' = .begins ∨ state' = .bare)
        ∧ readFrom state before fields (text ++ rest)
          = readFrom state' (before ++ text) fields rest := by
  induction text generalizing before state with
  | nil => exact ⟨state, begins, by rw [List.nil_append, List.append_nil]⟩
  | cons c others ih =>
      have ordinary := plain c List.mem_cons_self
      simp only [isSpecial, Bool.or_eq_false_iff, decide_eq_false_iff_not] at ordinary
      obtain ⟨⟨⟨comma, quote⟩, newline⟩, carriage⟩ := ordinary
      have takes : state.on c = .take true .bare := by
        rcases begins with rfl | rfl <;> simp [State.on, ending, comma, quote, newline, carriage]
      have left : ∀ other ∈ others, isSpecial other = false := fun other member =>
        plain other (List.mem_cons_of_mem _ member)
      obtain ⟨state', open_, reads⟩ := ih (.inr rfl) left
      refine ⟨state', open_, ?_⟩
      rw [List.cons_append, readFrom_take takes, if_pos rfl, reads, List.append_assoc,
        List.singleton_append]

/-- A written field is read as its text, up to a character that ends it. -/
theorem readFrom_field {separator : Char} {action : Action}
    (ends : ∀ state, state ≠ .quoted → State.on separator state = action)
    : ∃ state, state ≠ .quoted ∧ State.on separator state = action
        ∧ readFrom .begins [] fields (field text ++ separator :: rest)
          = readFrom state text fields (separator :: rest) := by
  unfold field
  split
  · have opens : State.on '"' .begins = .take false .quoted := rfl
    refine ⟨.closing, by decide, ends .closing (by decide), ?_⟩
    change readFrom .begins [] fields ('"' :: ((doubled text ++ ['"']) ++ separator :: rest)) = _
    rw [List.append_assoc, List.singleton_append, readFrom_take opens, readFrom_doubled]
    rfl
  · rename_i plain
    have plain : ∀ c ∈ text, isSpecial c = false := fun c member =>
      Bool.eq_false_iff.mpr fun special => plain (List.any_eq_true.mpr ⟨c, member, special⟩)
    obtain ⟨state, open_, reads⟩ :
        ∃ state, (state = .begins ∨ state = .bare)
          ∧ readFrom .begins [] fields (text ++ separator :: rest)
            = readFrom state ([] ++ text) fields (separator :: rest) :=
      readFrom_plain (.inl rfl) plain
    have unquoted : state ≠ .quoted := by rcases open_ with rfl | rfl <;> decide
    exact ⟨state, unquoted, ends state unquoted, reads⟩

theorem readFrom_field_comma
    : readFrom .begins [] fields (field text ++ ',' :: rest)
      = readFrom .begins [] (fields ++ [text]) rest := by
  have ends : ∀ state, state ≠ .quoted → State.on ',' state = .endField := by
    intro state other
    cases state <;> trivial
  obtain ⟨state, _, ends, reads⟩ := readFrom_field ends
  rw [reads, readFrom, ends]

theorem readFrom_field_line
    : readFrom .begins [] fields (field text ++ '\n' :: rest)
      = (readFrom .begins [] [] rest).map ((fields ++ [text]) :: ·) := by
  have ends : ∀ state, state ≠ .quoted → State.on '\n' state = .endRecord := by
    intro state other
    cases state <;> trivial
  obtain ⟨state, _, ends, reads⟩ := readFrom_field ends
  rw [reads, readFrom, ends]

-----------------------------------------------------------------------------------------
-- Reading records

/-- A written record is read as its fields, by induction on them. -/
theorem readFrom_record {first : List Char} {others : List (List Char)}
    : readFrom .begins [] fields (record (first :: others) ++ rest)
      = (readFrom .begins [] [] rest).map ((fields ++ first :: others) :: ·) := by
  induction others generalizing first fields with
  | nil =>
      simp only [record, List.map_cons, List.map_nil, List.intercalate_singleton,
        List.append_assoc, List.singleton_append]
      exact readFrom_field_line
  | cons next others ih =>
      have split : record (first :: next :: others) = field first ++ ',' :: record (next :: others)
          := by
        simp [record, List.intercalate_cons_cons]
      rw [split, List.append_assoc, List.cons_append, readFrom_field_comma, ih, List.append_assoc,
        List.singleton_append]

/-- What is written is read back, when every record has a field. -/
theorem read_document {records : List (List (List Char))} (some_ : ∀ fields ∈ records, fields ≠ [])
    : read (document records) = some records := by
  unfold read
  induction records with
  | nil => rfl
  | cons fields others ih =>
      obtain ⟨first, more, rfl⟩ := List.exists_cons_of_ne_nil (some_ fields List.mem_cons_self)
      rw [document, List.flatMap_cons, readFrom_record]
      change Option.map _ (readFrom .begins [] [] (document others)) = _
      rw [ih fun other member => some_ other (List.mem_cons_of_mem _ member)]
      rfl

end Csv

end FauPortalen.Foundations

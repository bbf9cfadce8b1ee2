import Mathlib.Data.List.Basic

/-! Quoted strings: escaping, reading them back, and splitting a text where a separator stands
outside all quotes.
-/

namespace FauPortalen.Foundations

/-- Where a reader of quoted text is. -/
inductive Quoting
  | outside
  | quoted
  | escaped
deriving DecidableEq

def Quoting.next : Quoting → Char → Quoting
  | .outside, c => if c = '"' then .quoted else .outside
  | .quoted, c => if c = '"' then .outside else if c = '\\' then .escaped else .quoted
  | .escaped, _ => .quoted

/-- Whether a character belongs to the text, rather than to its quoting. -/
def Quoting.keeps : Quoting → Char → Bool
  | .outside, c => c ≠ '"'
  | .quoted, c => c ≠ '"' && c ≠ '\\'
  | .escaped, _ => true

/-- The text without its quotes and escapes. -/
def unquoteFrom : Quoting → List Char → List Char
  | _, [] => []
  | state, c :: rest =>
      if state.keeps c then c :: unquoteFrom (state.next c) rest
      else unquoteFrom (state.next c) rest

def unquote (text : List Char) : List Char := unquoteFrom .outside text

/-- Splits where the separator stands outside quotes; `skip` counts what is left of one. -/
def splitOutsideFrom (separator : List Char) : Nat → Quoting → List Char → List (List Char)
  | _, _, [] => [[]]
  | skip + 1, state, _ :: rest => splitOutsideFrom separator skip state rest
  | 0, state, c :: rest =>
      if state = .outside ∧ separator.isPrefixOf (c :: rest) then
        [] :: splitOutsideFrom separator (separator.length - 1) .outside rest
      else (splitOutsideFrom separator 0 (state.next c) rest).modifyHead (c :: ·)

def splitOutside (separator text : List Char) : List (List Char) :=
  splitOutsideFrom separator 0 .outside text

/-- A backslash before each quote and each backslash. -/
def escape (text : List Char) : List Char :=
  text.flatMap fun c => if c = '"' ∨ c = '\\' then ['\\', c] else [c]

def quote (text : List Char) : List Char := '"' :: escape text ++ ['"']

-----------------------------------------------------------------------------------------
-- Reading a piece, whatever comes after it

/-- Outside quotes, the piece is read as the text, and the reader ends up outside again. -/
def Unquotes (piece text : List Char) : Prop :=
  ∀ rest, unquote (piece ++ rest) = text ++ unquote rest

/-- No separator stands in the piece outside quotes, and its quotes are closed. -/
def Unsplit (separator piece : List Char) : Prop :=
  ∀ rest, splitOutside separator (piece ++ rest)
    = (splitOutside separator rest).modifyHead (piece ++ ·)

section Pieces

variable {separator piece other text more : List Char}

theorem Unquotes.append (first : Unquotes piece text) (second : Unquotes other more)
    : Unquotes (piece ++ other) (text ++ more) := by
  intro rest
  rw [List.append_assoc, first, second, List.append_assoc]

theorem Unquotes.eq (reads : Unquotes piece text) : unquote piece = text := by
  simpa [unquote, unquoteFrom] using reads []

theorem Unsplit.append (first : Unsplit separator piece) (second : Unsplit separator other)
    : Unsplit separator (piece ++ other) := by
  intro rest
  rw [List.append_assoc, first, second, List.modifyHead_modifyHead]
  congr 1
  funext head
  simp

/-- A text without quotes is read as it is. -/
theorem Unquotes.plain (bare : ∀ c ∈ text, c ≠ '"') : Unquotes text text := by
  intro rest
  induction text with
  | nil => rfl
  | cons c text ih =>
      have tail := ih fun d member => bare d (List.mem_cons_of_mem _ member)
      have own := bare c List.mem_cons_self
      rw [unquote] at tail ⊢
      rw [List.cons_append, unquoteFrom]
      simp [Quoting.keeps, Quoting.next, own, tail]

theorem escape_cons (c : Char) (text : List Char)
    : escape (c :: text) = (if c = '"' ∨ c = '\\' then ['\\', c] else [c]) ++ escape text :=
  rfl

theorem unquoteFrom_escape (text rest : List Char)
    : unquoteFrom .quoted (escape text ++ rest) = text ++ unquoteFrom .quoted rest := by
  induction text with
  | nil => rfl
  | cons c text ih =>
      rw [escape_cons, List.append_assoc]
      by_cases special : c = '"' ∨ c = '\\'
      · simp [special, unquoteFrom, Quoting.keeps, Quoting.next, ih]
      · have special' := not_or.mp special
        simp [special', unquoteFrom, Quoting.keeps, Quoting.next, ih]

theorem Unquotes.quote (text : List Char) : Unquotes (quote text) text := by
  intro rest
  have inner := unquoteFrom_escape text ('"' :: rest)
  simpa [Foundations.quote, unquote, unquoteFrom, Quoting.keeps, Quoting.next] using inner

/-- A text without quotes and without the separator's first character is not split. -/
theorem Unsplit.plain {first : Char} {others : List Char}
    (bare : ∀ c ∈ text, c ≠ '"' ∧ c ≠ first)
    : Unsplit (first :: others) text := by
  intro rest
  induction text with
  | nil => exact (congrFun List.modifyHead_id _).symm
  | cons c text ih =>
      have tail := ih fun d member => bare d (List.mem_cons_of_mem _ member)
      obtain ⟨noQuote, noSep⟩ := bare c List.mem_cons_self
      rw [splitOutside] at tail ⊢
      rw [List.cons_append, splitOutsideFrom]
      simp [Quoting.next, noQuote, Ne.symm noSep, tail, List.modifyHead_modifyHead,
        Function.comp_def]

theorem splitOutsideFrom_escape (separator text rest : List Char)
    : splitOutsideFrom separator 0 .quoted (escape text ++ rest)
      = (splitOutsideFrom separator 0 .quoted rest).modifyHead (escape text ++ ·) := by
  induction text with
  | nil => exact (congrFun List.modifyHead_id _).symm
  | cons c text ih =>
      rw [escape_cons, List.append_assoc]
      by_cases special : c = '"' ∨ c = '\\'
      · simp [special, splitOutsideFrom, Quoting.next, ih, List.modifyHead_modifyHead,
          Function.comp_def]
      · have special' := not_or.mp special
        simp [special', splitOutsideFrom, Quoting.next, ih, List.modifyHead_modifyHead,
          Function.comp_def]

/-- Whatever is in quotes is not split. -/
theorem Unsplit.quote {first : Char} {others : List Char} (bare : first ≠ '"') (text : List Char)
    : Unsplit (first :: others) (quote text) := by
  intro rest
  have inner := splitOutsideFrom_escape (first :: others) text ('"' :: rest)
  simp [Foundations.quote, splitOutside, splitOutsideFrom, Quoting.next, bare, inner,
    List.modifyHead_modifyHead, Function.comp_def]

end Pieces

-----------------------------------------------------------------------------------------
-- Splitting what was joined

theorem splitOutsideFrom_skip (separator : List Char) (state : Quoting)
    (skipped rest : List Char)
    : splitOutsideFrom separator skipped.length state (skipped ++ rest)
      = splitOutsideFrom separator 0 state rest := by
  induction skipped with
  | nil => rfl
  | cons c skipped ih => rw [List.length_cons, List.cons_append, splitOutsideFrom, ih]

theorem splitOutside_separator {first : Char} {others : List Char} (rest : List Char)
    : splitOutside (first :: others) (first :: others ++ rest)
      = [] :: splitOutside (first :: others) rest := by
  have begins : (first :: others).isPrefixOf (first :: (others ++ rest)) = true :=
    List.isPrefixOf_iff_prefix.mpr ⟨rest, rfl⟩
  have skipped := splitOutsideFrom_skip (first :: others) .outside others rest
  rw [splitOutside, List.cons_append, splitOutsideFrom, if_pos ⟨rfl, begins⟩]
  exact congrArg _ skipped

/-- Joined pieces come apart again when none of them has the separator outside quotes. -/
theorem splitOutside_intercalate {first : Char} {others : List Char} {pieces : List (List Char)}
    (filled : pieces ≠ []) (unsplit : ∀ piece ∈ pieces, Unsplit (first :: others) piece)
    : splitOutside (first :: others) ((first :: others).intercalate pieces) = pieces := by
  induction pieces with
  | nil => contradiction
  | cons piece pieces ih =>
      have own := unsplit piece List.mem_cons_self
      cases pieces with
      | nil =>
          rw [List.intercalate_singleton]
          simpa [splitOutside, splitOutsideFrom] using own []
      | cons next pieces =>
          have more := ih (by simp) fun one member => unsplit one (List.mem_cons_of_mem _ member)
          rw [List.intercalate_cons_cons, List.append_assoc, own, splitOutside_separator, more]
          simp

end FauPortalen.Foundations

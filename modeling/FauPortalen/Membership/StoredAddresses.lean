import FauPortalen.Membership.EmailParsing

/-! Stored addresses as they are read again: parsing an accepted address's own text gives the
address back exactly when lower-casing it kept its length and its domain in order.
-/

set_option linter.unusedSectionVars false

namespace FauPortalen.Membership

open Register (byteLength)

-----------------------------------------------------------------------------------------
-- Parts of a text

theorem rsplitOnce_eq_none {sep : Char} {text : List Char}
    : rsplitOnce sep text = none ↔ sep ∉ text := by
  induction text with
  | nil => simp [rsplitOnce]
  | cons c rest ih =>
      rw [rsplitOnce]
      cases split : rsplitOnce sep rest with
      | some parts =>
          have : sep ∈ rest := by
            by_contra missing
            rw [ih.mpr missing] at split
            cases split
          simp [this]
      | none =>
          have missing := ih.mp split
          by_cases same : c = sep
          · simp [same]
          · simp [same, missing, Ne.symm same]

/-- The parts join to the text, and the separator is not in the second. -/
theorem rsplitOnce_eq_some {sep : Char} {text before after : List Char}
    : rsplitOnce sep text = some (before, after)
      ↔ text = before ++ sep :: after ∧ sep ∉ after := by
  constructor
  · intro split
    induction text generalizing before with
    | nil => cases split
    | cons c rest ih =>
        rw [rsplitOnce] at split
        split at split
        · rename_i first second parts
          obtain ⟨rfl, rfl⟩ := Prod.mk.inj (Option.some.inj split)
          obtain ⟨rfl, missing⟩ := ih parts
          exact ⟨rfl, missing⟩
        · rename_i none
          split at split
          · rename_i same
            obtain ⟨rfl, rfl⟩ := Prod.mk.inj (Option.some.inj split)
            exact ⟨by rw [same]; rfl, rsplitOnce_eq_none.mp none⟩
          · cases split
  · rintro ⟨rfl, missing⟩
    induction before with
    | nil => simp [rsplitOnce, rsplitOnce_eq_none.mpr missing]
    | cons c before ih => simp [rsplitOnce, ih]

theorem splitOn_append_of_not_mem {sep : Char} {piece text : List Char} (missing : sep ∉ piece)
    : (piece ++ text).splitOn sep = (text.splitOn sep).modifyHead (piece ++ ·) := by
  induction piece with
  | nil => exact (congrFun List.modifyHead_id _).symm
  | cons c piece ih =>
      obtain ⟨other, missing⟩ := not_or.mp (List.mem_cons.not.mp missing)
      rw [List.cons_append, List.splitOn_cons_eq_if_modifyHead,
        if_neg (by simpa using Ne.symm other), ih missing, List.modifyHead_modifyHead]
      rfl

theorem all_splitOn {sep : Char} {p : Char → Bool} {text : List Char}
    : (text.splitOn sep).all (·.all p) = text.all fun c => c == sep || p c := by
  induction text with
  | nil => simp
  | cons c rest ih =>
      rw [List.splitOn_cons_eq_if_modifyHead, List.all_cons, ← ih]
      by_cases same : c = sep
      · simp [same]
      · cases words : rest.splitOn sep with
        | nil => exact absurd words (List.splitOn_ne_nil _ _)
        | cons word more => simp [beq_eq_false_iff_ne.mpr same, Bool.and_assoc]

/-- A text without white space is trimmed. -/
theorem trim_of_no_whitespace {text : List Char} (none : ∀ c ∈ text, isWhitespace c = false)
    : trim text = text := by
  have kept (text : List Char) (none : ∀ c ∈ text, isWhitespace c = false)
      : text.dropWhile isWhitespace = text := by
    cases text with
    | nil => rfl
    | cons c rest => simp [none c List.mem_cons_self]
  have reversed : ∀ c ∈ text.reverse, isWhitespace c = false := fun c member =>
    none c (List.mem_reverse.mp member)
  rw [trim, kept text none, kept _ reversed, List.reverse_reverse]

section

variable [CharacterTables]

-----------------------------------------------------------------------------------------
-- What is documented of the tables

/-- What Unicode and the standard library's documentation say of the tables: ASCII is as ASCII
is, lower case is lower case already, and nothing printed lowers to a blank or a control.
-/
structure CharacterTables.Documented : Prop where
  ascii_alphanumeric : ∀ c : Char, c.toNat < 128 → isAlphanumeric c = c.isAlphanum
  ascii_toLowercase : ∀ c : Char, c.toNat < 128 → toLowercase c = [c.toLower]
  toLowercase_ne_nil : ∀ c : Char, toLowercase c ≠ []
  foreign_toLowercase : ∀ c : Char, 128 ≤ c.toNat → ∀ d ∈ toLowercase c, d.toNat < 128 →
    d.isLower
  toLowercase_stable : ∀ c : Char, ∀ d ∈ toLowercase c, toLowercase d = [d]
  toLowercase_printed : ∀ c : Char, isWhitespace c = false → isControl c = false →
    ∀ d ∈ toLowercase c, isWhitespace d = false ∧ isControl d = false
  toLowercase_sigma : toLowercase 'Σ' = ['σ']
  toLowercase_finalSigma : toLowercase 'ς' = ['ς']
  sigmas_alphanumeric : isAlphanumeric 'σ' ∧ isAlphanumeric 'ς'

/-- What one character of a text becomes: its own lower case, or a sigma's at a word's end. -/
inductive Lowered : Char → List Char → Prop
  | own (c : Char) : Lowered c (CharacterTables.toLowercase c)
  | finalSigma : Lowered 'Σ' ['ς']

/-- A text and what lower-casing makes of it, character by character. -/
inductive Lowers : List Char → List Char → Prop
  | nil : Lowers [] []
  | cons {c : Char} {piece text lowered : List Char}
      : Lowered c piece → Lowers text lowered → Lowers (c :: text) (piece ++ lowered)

theorem lowercaseFrom_lowers (documented : CharacterTables.Documented) (before text : List Char)
    : Lowers text (lowercaseFrom before text) := by
  induction text generalizing before with
  | nil => exact .nil
  | cons c text ih =>
      refine .cons ?_ (ih (c :: before))
      split
      · rename_i sigma
        subst sigma
        unfold mapUppercaseSigma
        split
        · exact .finalSigma
        · exact documented.toLowercase_sigma ▸ .own 'Σ'
      · exact .own c

section Lowered

variable {c d : Char} {piece : List Char} (documented : CharacterTables.Documented)
  (lowered : Lowered c piece)

include documented lowered

theorem Lowered.ne_nil : piece ≠ [] := by
  cases lowered with
  | own => exact documented.toLowercase_ne_nil c
  | finalSigma => simp

theorem Lowered.stable (member : d ∈ piece) : CharacterTables.toLowercase d = [d] := by
  cases lowered with
  | own => exact documented.toLowercase_stable c d member
  | finalSigma => exact List.mem_singleton.mp member ▸ documented.toLowercase_finalSigma

theorem Lowered.printed (blank : isWhitespace c = false) (control : isControl c = false)
    (member : d ∈ piece)
    : isWhitespace d = false ∧ isControl d = false := by
  cases lowered with
  | own => exact documented.toLowercase_printed c blank control d member
  | finalSigma => exact List.mem_singleton.mp member ▸ by decide

theorem Lowered.byteLength_eq : byteLength piece = byteLength (CharacterTables.toLowercase c) := by
  cases lowered with
  | own => rfl
  | finalSigma => rw [documented.toLowercase_sigma]; decide

theorem Lowered.all_domainChar
    : piece.all isDomainChar = (CharacterTables.toLowercase c).all isDomainChar := by
  cases lowered with
  | own => rfl
  | finalSigma =>
      obtain ⟨small, final⟩ := documented.sigmas_alphanumeric
      simp [documented.toLowercase_sigma, isDomainChar, small, final]

end Lowered

theorem Lowers.nil_iff {text lowered : List Char} (documented : CharacterTables.Documented)
    (lowers : Lowers text lowered)
    : lowered = [] ↔ text = [] := by
  cases lowers with
  | nil => exact Iff.rfl
  | cons head tail => simp [head.ne_nil documented]

-----------------------------------------------------------------------------------------
-- The characters that an address is split at

def IsDelimiter (x : Char) : Prop := x = '@' ∨ x = '.' ∨ x = '-'

theorem IsDelimiter.toLower_eq {x c : Char} (delimiter : IsDelimiter x)
    : c.toLower = x ↔ c = x := by
  have range : x.toNat = 64 ∨ x.toNat = 46 ∨ x.toNat = 45 := by
    rcases delimiter with rfl | rfl | rfl <;> decide
  rw [← Char.toNat_inj, ← Char.toNat_inj, Register.toNat_toLower]
  split <;> omega

section Delimiters

variable {c x : Char} {piece text lowered : List Char}
  (documented : CharacterTables.Documented) (delimiter : IsDelimiter x)

include documented delimiter

/-- A delimiter comes of nothing but itself, and becomes nothing else. -/
theorem Lowered.delimiter_iff (lowers : Lowered c piece) : x ∈ piece ↔ piece = [x] ∧ c = x := by
  have ascii : x.toNat < 128 := by rcases delimiter with rfl | rfl | rfl <;> decide
  have small : x.isLower = false := by rcases delimiter with rfl | rfl | rfl <;> decide
  refine ⟨fun member => ?_, fun same => same.1 ▸ List.mem_singleton_self x⟩
  cases lowers with
  | own =>
      rcases lt_or_ge c.toNat 128 with near | far
      · rw [documented.ascii_toLowercase c near] at member ⊢
        have same := (List.mem_singleton.mp member).symm
        exact ⟨by rw [same], delimiter.toLower_eq.mp same⟩
      · rw [documented.foreign_toLowercase c far x member ascii] at small
        cases small
  | finalSigma =>
      rw [List.mem_singleton.mp member] at ascii
      exact absurd ascii (by decide)

theorem Lowered.of_delimiter (lowers : Lowered x piece) : piece = [x] := by
  have ascii : x.toNat < 128 := by rcases delimiter with rfl | rfl | rfl <;> decide
  cases lowers with
  | own => rw [documented.ascii_toLowercase x ascii, delimiter.toLower_eq.mpr rfl]
  | finalSigma => exact absurd ascii (by decide)

theorem Lowers.mem_delimiter (lowers : Lowers text lowered) : x ∈ lowered ↔ x ∈ text := by
  induction lowers with
  | nil => exact Iff.rfl
  | @cons c piece text lowered head tail ih =>
      rw [List.mem_append, List.mem_cons, ih]
      refine or_congr_left ?_
      rw [head.delimiter_iff documented delimiter]
      constructor
      · exact fun same => same.2.symm
      · rintro rfl
        exact ⟨head.of_delimiter documented delimiter, rfl⟩

theorem Lowers.head?_delimiter (lowers : Lowers text lowered)
    : lowered.head? = some x ↔ text.head? = some x := by
  cases lowers with
  | nil => exact Iff.rfl
  | @cons c piece text lowered head tail =>
      have filled := head.ne_nil documented
      rw [List.head?_append_of_ne_nil _ filled, List.head?_cons, Option.some_inj]
      constructor
      · intro first
        exact ((head.delimiter_iff documented delimiter).mp (List.mem_of_mem_head? first)).2
      · rintro rfl
        rw [head.of_delimiter documented delimiter]
        rfl

theorem Lowers.getLast?_delimiter (lowers : Lowers text lowered)
    : lowered.getLast? = some x ↔ text.getLast? = some x := by
  induction lowers with
  | nil => exact Iff.rfl
  | @cons c piece text lowered head tail ih =>
      by_cases last : text = []
      · subst last
        cases tail
        rw [List.append_nil, List.getLast?_singleton, Option.some_inj]
        constructor
        · intro final
          exact ((head.delimiter_iff documented delimiter).mp (List.mem_of_getLast? final)).2
        · rintro rfl
          rw [head.of_delimiter documented delimiter]
          rfl
      · have more : lowered ≠ [] := (tail.nil_iff documented).not.mpr last
        rw [List.getLast?_append_of_ne_nil _ more, List.getLast?_cons_of_ne_nil last, ih]

/-- Lower-casing keeps the words between two delimiters apart. -/
theorem Lowers.splitOn (lowers : Lowers text lowered)
    : List.Forall₂ Lowers (text.splitOn x) (lowered.splitOn x) := by
  induction lowers with
  | nil => simpa using Lowers.nil
  | @cons c piece text lowered head tail ih =>
      by_cases same : c = x
      · subst same
        rw [head.of_delimiter documented delimiter]
        simpa [List.splitOn_cons_eq_if_modifyHead] using ⟨Lowers.nil, ih⟩
      · have missing : x ∉ piece := fun member =>
          same ((head.delimiter_iff documented delimiter).mp member).2
        rw [splitOn_append_of_not_mem missing, List.splitOn_cons_eq_if_modifyHead,
          if_neg (by simpa using same)]
        revert ih
        generalize text.splitOn x = words
        generalize lowered.splitOn x = lowereds
        rintro (_ | ⟨first, more⟩)
        · exact .nil
        · exact .cons (.cons head first) more

end Delimiters

-----------------------------------------------------------------------------------------
-- The checks on a lower-cased address

section Checks

variable {text lowered loc domain before : List Char} (documented : CharacterTables.Documented)

include documented

theorem Lowers.byteLength_eq (lowers : Lowers text lowered)
    : byteLength lowered = byteLength (text.flatMap CharacterTables.toLowercase) := by
  induction lowers with
  | nil => rfl
  | cons head tail ih =>
      have piece := head.byteLength_eq documented
      simp only [byteLength, List.flatMap_cons, List.map_append, List.sum_append] at ih piece ⊢
      rw [ih, piece]

omit documented in
/-- What every character's lower case has, the lower-case text has. -/
theorem Lowers.forall_mem {P Q : Char → Prop} (lowers : Lowers text lowered)
    (each : ∀ c piece, Lowered c piece → P c → ∀ d ∈ piece, Q d) (all : ∀ c ∈ text, P c)
    : ∀ d ∈ lowered, Q d := by
  induction lowers with
  | nil => nofun
  | cons head tail ih =>
      intro d member
      rcases List.mem_append.mp member with first | later
      · exact each _ _ head (all _ List.mem_cons_self) d first
      · exact ih (fun c inside => all c (List.mem_cons_of_mem _ inside)) d later

theorem Lowers.printed (lowers : Lowers text lowered)
    (printed : ∀ c ∈ text, isWhitespace c = false ∧ isControl c = false)
    : ∀ d ∈ lowered, isWhitespace d = false ∧ isControl d = false :=
  lowers.forall_mem
    (fun _ _ head own _ member => head.printed documented own.1 own.2 member) printed

theorem Lowers.stable (lowers : Lowers text lowered)
    : ∀ d ∈ lowered, CharacterTables.toLowercase d = [d] :=
  lowers.forall_mem (P := fun _ => True)
    (fun _ _ head _ _ member => head.stable documented member) fun _ _ => trivial

/-- Lower-casing a second time changes nothing. -/
theorem lowercaseFrom_stable (stable : ∀ d ∈ text, CharacterTables.toLowercase d = [d])
    : lowercaseFrom before text = text := by
  induction text generalizing before with
  | nil => rfl
  | cons c text ih =>
      have own := stable c List.mem_cons_self
      have small : c ≠ 'Σ' := by
        rintro rfl
        rw [documented.toLowercase_sigma] at own
        exact absurd own (by decide)
      rw [lowercaseFrom, if_neg small, own,
        ih fun d member => stable d (List.mem_cons_of_mem _ member)]
      rfl

/-- A lower-cased label is a label when its characters still belong in a domain. -/
theorem Lowers.isDomainLabel (lowers : Lowers text lowered) (label : isDomainLabel text = true)
    : Membership.isDomainLabel lowered = lowered.all isDomainChar := by
  have hyphen : IsDelimiter '-' := .inr (.inr rfl)
  have filled := lowers.nil_iff documented
  have first := lowers.head?_delimiter documented hyphen
  have last := lowers.getLast?_delimiter documented hyphen
  simp only [Membership.isDomainLabel, Bool.and_eq_true, Bool.not_eq_true', bne_iff_ne, ne_eq,
    List.isEmpty_eq_false_iff] at label
  obtain ⟨⟨⟨some, begins⟩, ends⟩, _⟩ := label
  have some' : lowered.isEmpty = false := List.isEmpty_eq_false_iff.mpr (filled.not.mpr some)
  have begins' : (lowered.head? != .some '-') = true := bne_iff_ne.mpr (first.not.mpr begins)
  have ends' : (lowered.getLast? != .some '-') = true := bne_iff_ne.mpr (last.not.mpr ends)
  rw [Membership.isDomainLabel, some', begins', ends']
  rfl

theorem all_isDomainLabel {labels lowereds : List (List Char)}
    (lowers : List.Forall₂ Lowers labels lowereds) (all : labels.all isDomainLabel = true)
    : lowereds.all isDomainLabel = lowereds.all (·.all isDomainChar) := by
  induction lowers with
  | nil => rfl
  | cons head tail ih =>
      obtain ⟨first, rest⟩ := Bool.and_eq_true_iff.mp all
      rw [List.all_cons, List.all_cons, head.isDomainLabel documented first, ih rest]

/-- What a lower-cased domain is made of, read off the domain. -/
theorem Lowers.all_domainChar (lowers : Lowers text lowered)
    : (lowered.all fun d => d == '.' || isDomainChar d)
      = text.all fun c => c == '.' || (CharacterTables.toLowercase c).all isDomainChar := by
  have dot : IsDelimiter '.' := .inr (.inl rfl)
  induction lowers with
  | nil => rfl
  | @cons c piece text lowered head tail ih =>
      rw [List.all_append, List.all_cons, ih]
      congr 1
      by_cases same : c = '.'
      · subst same
        rw [head.of_delimiter documented dot]
        rfl
      · have other : ∀ d ∈ piece, (d == '.' || isDomainChar d) = isDomainChar d := by
          intro d member
          have : d ≠ '.' := by
            rintro rfl
            exact same ((head.delimiter_iff documented dot).mp member).2
          simp [this]
        have own : (piece.all fun d => d == '.' || isDomainChar d) = piece.all isDomainChar := by
          rw [Bool.eq_iff_iff, List.all_eq_true, List.all_eq_true]
          exact forall₂_congr fun d member => by rw [other d member]
        rw [own, head.all_domainChar documented, beq_eq_false_iff_ne.mpr same]
        rfl

theorem Lowers.append {rest : List Char} (lowers : Lowers (text ++ rest) lowered)
    : ∃ first second, lowered = first ++ second ∧ Lowers text first ∧ Lowers rest second := by
  induction text generalizing lowered with
  | nil => exact ⟨[], lowered, rfl, .nil, lowers⟩
  | cons c text ih =>
      rcases lowers with _ | ⟨head, tail⟩
      obtain ⟨first, second, rfl, left, right⟩ := ih tail
      exact ⟨_, second, (List.append_assoc ..).symm, .cons head left, right⟩

/-- Lower-case parts are well formed when the domain's characters still belong in one. -/
theorem Lowers.wellFormedParts {loc' domain' : List Char} (left : Lowers loc loc')
    (right : Lowers domain domain') (formed : wellFormedParts loc domain = true)
    : Membership.wellFormedParts loc' domain'
      = domain'.all fun d => d == '.' || isDomainChar d := by
  have atSign : IsDelimiter '@' := .inl rfl
  have dot : IsDelimiter '.' := .inr (.inl rfl)
  simp only [Membership.wellFormedParts, Bool.and_eq_true, Bool.not_eq_true', bne_iff_ne, ne_eq,
    List.isEmpty_eq_false_iff, List.contains_eq_mem, decide_eq_true_eq, decide_eq_false_iff_not]
    at formed
  obtain ⟨⟨⟨⟨⟨some, single⟩, dotted⟩, begins⟩, ends⟩, labels⟩ := formed
  have some' := (left.nil_iff documented).not.mpr some
  have single' := (left.mem_delimiter documented atSign).not.mpr single
  have dotted' := (right.mem_delimiter documented dot).mpr dotted
  have begins' := (right.head?_delimiter documented dot).not.mpr begins
  have ends' := (right.getLast?_delimiter documented dot).not.mpr ends
  have labels' := all_isDomainLabel documented (right.splitOn documented dot) labels
  rw [Membership.wellFormedParts, labels', all_splitOn]
  simp [some', single', dotted', begins', ends']

end Checks

-----------------------------------------------------------------------------------------
-- Parsing a stored address

/-- What an accepted text is: trimmed, of a length within the limit, printed, and of a local part
and a domain that are well formed.
-/
theorem Email.parse_eq_ok {raw : String} {email : Email}
    : Email.parse raw = .ok email
      ↔ trim raw.toList ≠ [] ∧ byteLength (trim raw.toList) ≤ Email.maxLen
        ∧ (∀ c ∈ trim raw.toList, isWhitespace c = false ∧ isControl c = false)
        ∧ (∃ loc domain, rsplitOnce '@' (trim raw.toList) = some (loc, domain)
          ∧ wellFormedParts loc domain = true)
        ∧ email = ⟨String.ofList (strToLowercase (trim raw.toList))⟩ := by
  rw [Email.parse]
  generalize trim raw.toList = s
  have refused {α : Type} (e : EmailError) (next : Unit → Except EmailError α)
      : (throw e >>= next) = .error e := rfl
  by_cases filled : s = []
  · simp [filled, refused]
  by_cases long : Email.maxLen < byteLength s
  · simp [filled, long, refused]
  by_cases blank : (s.any fun c => isWhitespace c || isControl c) = true
  · obtain ⟨c, member, unprinted⟩ := List.any_eq_true.mp blank
    have : ¬ ∀ c ∈ s, isWhitespace c = false ∧ isControl c = false := fun printed => by
      simp [printed c member] at unprinted
    simp [filled, long, blank, refused, this]
  have printed : ∀ c ∈ s, isWhitespace c = false ∧ isControl c = false := by
    simpa using blank
  cases parts : rsplitOnce '@' s with
  | none => simp [filled, long, blank, throw, throwThe, MonadExceptOf.throw]
  | some both =>
      obtain ⟨loc, domain⟩ := both
      by_cases formed : wellFormedParts loc domain = true
      · have short : byteLength s ≤ Email.maxLen := not_lt.mp long
        have stored : (pure ⟨String.ofList (strToLowercase s)⟩ : Except EmailError Email)
            = .ok email ↔ email = ⟨String.ofList (strToLowercase s)⟩ :=
          ⟨fun same => (Except.ok.inj same).symm, fun same => congrArg Except.ok same.symm⟩
        simp [filled, long, blank, formed, short, stored]
        exact fun _ => printed
      · simp [filled, long, blank, formed, throw, throwThe, MonadExceptOf.throw]

/-- Lower-casing keeps the address within the limit, and each character of its domain a letter,
a digit, a hyphen or a dot.
-/
def Email.KeepsForm (raw : String) : Prop :=
  byteLength ((trim raw.toList).flatMap CharacterTables.toLowercase) ≤ Email.maxLen
    ∧ ∀ loc domain, rsplitOnce '@' (trim raw.toList) = some (loc, domain) →
      ∀ c ∈ domain, c = '.' ∨ (CharacterTables.toLowercase c).all isDomainChar

/-- An accepted address's stored text is accepted again, as that address, exactly when
lower-casing kept its form.
-/
theorem Email.parse_stored_iff (documented : CharacterTables.Documented) {raw : String}
    {email : Email} (accepted : Email.parse raw = .ok email)
    : Email.parse email.asStr = .ok email ↔ Email.KeepsForm raw := by
  obtain ⟨filled, _, printed, ⟨loc, domain, parts, formed⟩, rfl⟩ := Email.parse_eq_ok.mp accepted
  have lowers : Lowers (trim raw.toList) (strToLowercase (trim raw.toList)) :=
    lowercaseFrom_lowers documented [] _
  have printed' := lowers.printed documented printed
  have trimmed := trim_of_no_whitespace fun d member => (printed' d member).1
  have stable : strToLowercase (strToLowercase (trim raw.toList))
      = strToLowercase (trim raw.toList) :=
    lowercaseFrom_stable documented (lowers.stable documented)
  have length := lowers.byteLength_eq documented
  have filled' := (lowers.nil_iff documented).not.mpr filled
  obtain ⟨joined, single⟩ := rsplitOnce_eq_some.mp parts
  have both : Lowers (loc ++ '@' :: domain) (strToLowercase (trim raw.toList)) :=
    joined ▸ lowers
  obtain ⟨loc', rest, joined', left, right⟩ := both.append documented
  obtain _ | ⟨head, tail⟩ := right
  obtain rfl := head.of_delimiter documented (.inl rfl)
  rename_i domain'
  have single' : '@' ∉ domain' := (tail.mem_delimiter documented (.inl rfl)).not.mpr single
  have parts' : rsplitOnce '@' (strToLowercase (trim raw.toList)) = some (loc', domain') :=
    rsplitOnce_eq_some.mpr ⟨joined', single'⟩
  have formed' := left.wellFormedParts documented tail formed
  have domainChars := tail.all_domainChar documented
  have kept : wellFormedParts loc' domain' = true
      ↔ ∀ c ∈ domain, c = '.' ∨ (CharacterTables.toLowercase c).all isDomainChar = true := by
    rw [formed', domainChars, List.all_eq_true]
    exact forall₂_congr fun c _ => by rw [Bool.or_eq_true, beq_iff_eq]
  rw [Email.parse_eq_ok, String.toList_ofList, trimmed, Email.KeepsForm, ← length, parts, parts']
  constructor
  · rintro ⟨_, short, _, ⟨_, _, same, formed⟩, _⟩
    refine ⟨short, ?_⟩
    rintro _ _ ⟨⟩
    cases same
    exact kept.mp formed
  · rintro ⟨short, chars⟩
    exact ⟨filled', short, printed', ⟨loc', domain', rfl, kept.mpr (chars loc domain rfl)⟩,
      by rw [stable]⟩

end

-----------------------------------------------------------------------------------------
-- A domain whose lower case is not a domain

/-- The tables on ASCII, the Greek sigmas and the Turkish capital `İ`, whose lower case is an `i`
and a combining dot.
-/
@[reducible]
def CharacterTables.turkish : CharacterTables where
  isAlphanumeric c := c.isAlphanum || c == 'İ' || c == 'Σ' || c == 'σ' || c == 'ς'
  toLowercase c :=
    if c = 'İ' then ['i', Char.ofNat 0x307] else if c = 'Σ' then ['σ'] else [c.toLower]
  isCased c := c.isAlpha || c == 'İ' || c == 'Σ' || c == 'σ' || c == 'ς'
  isCaseIgnorable c := c == '.' || c == ':' || c == '^' || c.toNat == 0x27 || c.toNat == 0x307

section

attribute [local instance] CharacterTables.turkish

theorem toLowercase_turkish (c : Char)
    : (c = 'İ' ∧ CharacterTables.toLowercase c = ['i', Char.ofNat 0x307])
      ∨ (c = 'Σ' ∧ CharacterTables.toLowercase c = ['σ'])
      ∨ (c ≠ 'İ' ∧ c ≠ 'Σ' ∧ CharacterTables.toLowercase c = [c.toLower]) := by
  by_cases turkish : c = 'İ'
  · exact .inl ⟨turkish, if_pos turkish⟩
  · by_cases sigma : c = 'Σ'
    · exact .inr (.inl ⟨sigma, by rw [sigma]; rfl⟩)
    · exact .inr (.inr ⟨turkish, sigma, (if_neg turkish).trans (if_neg sigma)⟩)

theorem toLower_eq_foreign {c d : Char} (foreign : 128 ≤ d.toNat) : c.toLower = d ↔ c = d := by
  rw [← Char.toNat_inj, ← Char.toNat_inj, Register.toNat_toLower]
  split <;> omega

theorem turkish_documented : CharacterTables.Documented where
  ascii_alphanumeric c ascii := by
    have other (d : Char) (foreign : 128 ≤ d.toNat) : (c == d) = false := by
      rw [beq_eq_false_iff_ne]
      rintro rfl
      omega
    change (c.isAlphanum || c == 'İ' || c == 'Σ' || c == 'σ' || c == 'ς') = c.isAlphanum
    rw [other 'İ' (by decide), other 'Σ' (by decide), other 'σ' (by decide),
      other 'ς' (by decide)]
    simp
  ascii_toLowercase c ascii := by
    rcases toLowercase_turkish c with ⟨rfl, _⟩ | ⟨rfl, _⟩ | ⟨_, _, own⟩
    · exact absurd ascii (by decide)
    · exact absurd ascii (by decide)
    · exact own
  toLowercase_ne_nil c := by
    rcases toLowercase_turkish c with ⟨_, own⟩ | ⟨_, own⟩ | ⟨_, _, own⟩ <;> simp [own]
  foreign_toLowercase c foreign d member ascii := by
    rcases toLowercase_turkish c with ⟨_, own⟩ | ⟨_, own⟩ | ⟨_, _, own⟩ <;> rw [own] at member
    · rcases List.mem_pair.mp member with rfl | rfl
      · decide
      · exact absurd ascii (by decide)
    · exact absurd (List.mem_singleton.mp member ▸ ascii) (by decide)
    · rw [List.mem_singleton.mp member, Register.toNat_toLower] at ascii
      split at ascii <;> omega
  toLowercase_stable c d member := by
    rcases toLowercase_turkish c with ⟨_, own⟩ | ⟨_, own⟩ | ⟨turkish, sigma, own⟩ <;>
      rw [own] at member
    · rcases List.mem_pair.mp member with rfl | rfl <;> decide
    · exact List.mem_singleton.mp member ▸ by decide
    · obtain rfl := List.mem_singleton.mp member
      have same : c.toLower.toLower = c.toLower := by
        rw [← Char.toNat_inj]
        rw [Register.toNat_toLower, Register.toNat_toLower]
        grind
      rcases toLowercase_turkish c.toLower with ⟨is, _⟩ | ⟨is, _⟩ | ⟨_, _, again⟩
      · exact absurd ((toLower_eq_foreign (by decide)).mp is) turkish
      · exact absurd ((toLower_eq_foreign (by decide)).mp is) sigma
      · rw [again, same]
  toLowercase_printed c blank control d member := by
    rcases toLowercase_turkish c with ⟨_, own⟩ | ⟨_, own⟩ | ⟨_, _, own⟩ <;> rw [own] at member
    · rcases List.mem_pair.mp member with rfl | rfl <;> decide
    · exact List.mem_singleton.mp member ▸ by decide
    · obtain rfl := List.mem_singleton.mp member
      by_cases capital : 65 ≤ c.toNat ∧ c.toNat ≤ 90
      · have range : c.toLower.toNat = c.toNat + 32 := by
          rw [Register.toNat_toLower, if_pos capital]
        simp only [isWhitespace, isControl, range, Bool.or_eq_false_iff, Bool.and_eq_false_iff,
          decide_eq_false_iff_not, beq_eq_false_iff_ne]
        omega
      · have same : c.toLower = c := by
          rw [← Char.toNat_inj, Register.toNat_toLower, if_neg capital]
        rw [same]
        exact ⟨blank, control⟩
  toLowercase_sigma := by decide
  toLowercase_finalSigma := by decide
  sigmas_alphanumeric := by decide

theorem parse_stored_fails
    : ¬ ∀ raw email, Email.parse raw = .ok email → Email.parse email.asStr = .ok email := by
  intro reparses
  have again := reparses "kari@İzmir.no"
    ⟨String.ofList (strToLowercase "kari@İzmir.no".toList)⟩ (by decide +kernel)
  exact absurd again (by decide +kernel)

theorem parse_stored_iff_turkish
    : ∃ email, Email.parse "kari@İzmir.no" = .ok email
        ∧ (Email.parse email.asStr = .ok email ↔ Email.KeepsForm "kari@İzmir.no") := by
  refine ⟨⟨String.ofList (strToLowercase "kari@İzmir.no".toList)⟩, by decide +kernel, ?_⟩
  exact Email.parse_stored_iff turkish_documented (by decide +kernel)

end

end FauPortalen.Membership

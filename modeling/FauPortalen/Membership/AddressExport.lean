import FauPortalen.Membership.Recipients
import FauPortalen.Membership.StoredAddresses

/-! Exported addresses are read back as they were: no address can end early, take in another or
add anything to a link.
-/

set_option linter.unusedSectionVars false

namespace FauPortalen.Membership

open Foundations
open Register (byteLength isAlphanum_iff isSlugChar_iff toNat_toLower)

-----------------------------------------------------------------------------------------
-- Readers

/-- The addresses in a list: split at the separator outside quotes, and each without its own. -/
def readAddresses (separator text : List Char) : List (List Char) :=
  if text = [] then [] else (splitOutside separator text).map unquote

/-- The addresses in a link's part after the prefix. -/
def readMailto (part : List Char) : Option (List (List Char)) := do
  let bytes ← percentDecode part
  let text ← bytes.toByteArray.utf8Decode?
  return readAddresses [','] text.toList

/-- A character of a link that is no escape: RFC 3986's unreserved ones, `@` and `,`. -/
def IsMailtoPlain (c : Char) : Prop :=
  c.isAlphanum ∨ c = '-' ∨ c = '.' ∨ c = '_' ∨ c = '~' ∨ c = '@' ∨ c = ','

/-- The elements of the list, each once, in the order in which they occur first. -/
structure InFirstOccurrenceOrder {α : Type} [DecidableEq α] (all distinct : List α) : Prop where
  ordered : distinct.Pairwise (all.idxOf · < all.idxOf ·)
  members : ∀ one, one ∈ distinct ↔ one ∈ all

-----------------------------------------------------------------------------------------
-- Each address once

theorem Email.eq_of_asStr {a b : Email} (same : a.asStr = b.asStr) : a = b := by
  cases a
  cases b
  exact congrArg Email.mk same

theorem mem_keepUnseen {seen : List String} {addresses : List Email} {address : Email}
    : address ∈ keepUnseen seen addresses ↔ address ∈ addresses ∧ address.asStr ∉ seen := by
  induction addresses generalizing seen with
  | nil => simp [keepUnseen]
  | cons first rest ih =>
      rw [keepUnseen]
      by_cases same : address = first
      · subst same
        split
        · rename_i known
          simp [ih, known]
        · rename_i unseen
          simp [unseen]
      · have other : address.asStr ≠ first.asStr := fun equal => same (Email.eq_of_asStr equal)
        split <;> simp [ih, same, other]

/-- What is kept comes in the order of the list. -/
theorem keepUnseen_ordered (seen : List String) (addresses : List Email)
    : (keepUnseen seen addresses).Pairwise (addresses.idxOf · < addresses.idxOf ·) := by
  induction addresses generalizing seen with
  | nil => exact .nil
  | cons first rest ih =>
      have later {known : List String} (covered : first.asStr ∈ known)
          {address : Email} (kept : address ∈ keepUnseen known rest)
          : (first :: rest).idxOf address = rest.idxOf address + 1 := by
        refine List.idxOf_cons_ne _ ?_
        rintro rfl
        exact (mem_keepUnseen.mp kept).2 covered
      have shifted {known : List String} (covered : first.asStr ∈ known)
          : (keepUnseen known rest).Pairwise
              ((first :: rest).idxOf · < (first :: rest).idxOf ·) := by
        refine (ih known).imp_of_mem fun left right before => ?_
        rw [later covered left, later covered right]
        exact Nat.succ_lt_succ before
      rw [keepUnseen]
      split
      · rename_i known
        exact shifted known
      · refine List.pairwise_cons.mpr ⟨?_, shifted List.mem_cons_self⟩
        intro address kept
        rw [List.idxOf_cons_self, later List.mem_cons_self kept]
        exact Nat.succ_pos _

theorem Recipients.new_ordered (addresses : List Email)
    : InFirstOccurrenceOrder addresses (Recipients.new addresses).addresses :=
  ⟨keepUnseen_ordered [] addresses, fun address => by simp [Recipients.new, mem_keepUnseen]⟩

section

variable [CharacterTables]

-----------------------------------------------------------------------------------------
-- An accepted address

/-- A character of a stored domain: an ASCII one is a letter, a digit, a hyphen or a dot. -/
def IsStoredDomainChar (c : Char) : Prop := c.toNat < 128 → c.isAlphanum ∨ c = '-' ∨ c = '.'

theorem Lowered.storedDomainChar {c d : Char} {piece : List Char}
    (documented : CharacterTables.Documented) (lowered : Lowered c piece) (member : d ∈ piece)
    (domainChar : c = '.' ∨ isDomainChar c = true)
    : IsStoredDomainChar d := by
  intro ascii
  cases lowered with
  | own =>
      rcases lt_or_ge c.toNat 128 with near | far
      · rw [documented.ascii_toLowercase c near, List.mem_singleton] at member
        subst member
        rcases domainChar with rfl | domainChar
        · exact .inr (.inr (by decide))
        · rw [isDomainChar, Bool.or_eq_true, beq_iff_eq, documented.ascii_alphanumeric c near]
            at domainChar
          rcases domainChar with alphanum | rfl
          · exact .inl (isAlphanum_iff.mpr (.inr (Register.isSlugChar_toLower.trans alphanum)))
          · exact .inr (.inl (by decide))
      · have small := documented.foreign_toLowercase c far d member ascii
        exact .inl (isAlphanum_iff.mpr (.inr (by simp [Register.isSlugChar, small])))
  | finalSigma => exact absurd (List.mem_singleton.mp member ▸ ascii) (by decide)

/-- An accepted address is a local part and a domain, joined by the only `@`. -/
theorem Email.accepted_parts (documented : CharacterTables.Documented) {raw : String}
    {email : Email} (accepted : Email.parse raw = .ok email)
    : ∃ loc domain, rsplitOnce '@' email.asStr.toList = some (loc, domain)
        ∧ (∀ c ∈ domain, IsStoredDomainChar c) := by
  obtain ⟨_, _, _, ⟨loc, domain, parts, formed⟩, rfl⟩ := Email.parse_eq_ok.mp accepted
  obtain ⟨joined, single⟩ := rsplitOnce_eq_some.mp parts
  have lowers : Lowers (loc ++ '@' :: domain) (strToLowercase (trim raw.toList)) :=
    joined ▸ lowercaseFrom_lowers documented [] (trim raw.toList)
  obtain ⟨loc', rest, joined', left, right⟩ := lowers.append documented
  obtain _ | ⟨head, tail⟩ := right
  obtain rfl := head.of_delimiter documented (.inl rfl)
  rename_i domain'
  have single' : '@' ∉ domain' := (tail.mem_delimiter documented (.inl rfl)).not.mpr single
  refine ⟨loc', domain', ?_, ?_⟩
  · rw [String.toList_ofList]
    exact rsplitOnce_eq_some.mpr ⟨joined', single'⟩
  · refine tail.forall_mem (fun _ _ head own _ member =>
      head.storedDomainChar documented member own) fun c member => ?_
    have labels : (domain.splitOn '.').all (·.all isDomainChar) = true := by
      rw [wellFormedParts, Bool.and_eq_true] at formed
      refine List.all_eq_true.mpr fun label inside => ?_
      exact (Bool.and_eq_true_iff.mp (List.all_eq_true.mp formed.2 label inside)).2
    rw [all_splitOn, List.all_eq_true] at labels
    simpa using labels c member

-----------------------------------------------------------------------------------------
-- One address in a list

/-- A text that a list of addresses can hold: it reads as the address, and no separator stands
in it outside quotes.
-/
structure SpecOf (address : Email) (spec : List Char) : Prop where
  filled : spec ≠ []
  reads : Unquotes spec address.asStr.toList
  unsplit : ∀ first ∈ [',', ';'], ∀ others, Unsplit (first :: others) spec

/-- A character that needs no quotes in an address. -/
def IsBare (c : Char) : Prop := c ≠ '"' ∧ c ≠ ',' ∧ c ≠ ';'

theorem IsStoredDomainChar.bare {c : Char} (stored : IsStoredDomainChar c) : IsBare c := by
  refine ⟨?_, ?_, ?_⟩ <;> (rintro rfl; exact absurd (stored (by decide)) (by decide))

theorem isDotAtom_bare {text : List Char} (dotAtom : isDotAtom text = true)
    : ∀ c ∈ text, IsBare c := by
  intro c member
  have parts : (text.splitOn '.').all (·.all isAtext) = true := by
    rw [isDotAtom, Bool.and_eq_true] at dotAtom
    refine List.all_eq_true.mpr fun part inside => ?_
    exact (Bool.and_eq_true_iff.mp (List.all_eq_true.mp dotAtom.2 part inside)).2
  rw [all_splitOn, List.all_eq_true] at parts
  have atext := parts c member
  refine ⟨?_, ?_, ?_⟩ <;> (rintro rfl; exact absurd atext (by decide))

theorem unsplit_bare {text : List Char} (bare : ∀ c ∈ text, IsBare c) {first : Char}
    (separator : first ∈ [',', ';']) (others : List Char)
    : Unsplit (first :: others) text := by
  refine .plain fun c member => ?_
  obtain ⟨noQuote, noComma, noSemicolon⟩ := bare c member
  refine ⟨noQuote, ?_⟩
  rcases List.mem_pair.mp separator with rfl | rfl
  · exact noComma
  · exact noSemicolon

theorem SpecOf.plain {address : Email} (filled : address.asStr.toList ≠ [])
    (bare : ∀ c ∈ address.asStr.toList, IsBare c)
    : SpecOf address address.asStr.toList where
  filled := filled
  reads := .plain fun c member => (bare c member).1
  unsplit _ separator others := unsplit_bare bare separator others

/-- Every accepted address has an `addr-spec`. -/
theorem addressSpec_specOf (documented : CharacterTables.Documented) {raw : String}
    {email : Email} (accepted : Email.parse raw = .ok email)
    : ∃ spec, addressSpec email = some spec ∧ SpecOf email spec := by
  obtain ⟨loc, domain, parts, stored⟩ := Email.accepted_parts documented accepted
  obtain ⟨joined, _⟩ := rsplitOnce_eq_some.mp parts
  have tail : ∀ c ∈ '@' :: domain, IsBare c := by
    intro c member
    rcases List.mem_cons.mp member with rfl | member
    · exact ⟨by decide, by decide, by decide⟩
    · exact (stored c member).bare
  rw [addressSpec, parts, Option.map_some]
  refine ⟨_, rfl, ?_⟩
  dsimp only
  split
  · rename_i dotAtom
    refine .plain (by simp [joined]) fun c member => ?_
    rw [joined] at member
    rcases List.mem_append.mp member with left | right
    · exact isDotAtom_bare dotAtom c left
    · exact tail c right
  · refine ⟨by simp [quote], ?_, ?_⟩
    · rw [joined]
      exact (Unquotes.quote loc).append (.plain fun c member => (tail c member).1)
    · intro first separator others
      have noQuote : first ≠ '"' := by
        rcases List.mem_pair.mp separator with rfl | rfl <;> decide
      exact (Unsplit.quote noQuote loc).append (unsplit_bare tail separator others)

end

-----------------------------------------------------------------------------------------
-- A list of addresses

section Lists

variable {addresses : List Email} {specs : List (List Char)}

theorem unquote_specs (specOf : List.Forall₂ SpecOf addresses specs)
    : specs.map unquote = addresses.map (·.asStr.toList) := by
  induction specOf with
  | nil => rfl
  | cons head tail ih => rw [List.map_cons, List.map_cons, head.reads.eq, ih]

theorem specOf_of_mem (specOf : List.Forall₂ SpecOf addresses specs)
    : ∀ spec ∈ specs, ∃ address, SpecOf address spec := by
  induction specOf with
  | nil => nofun
  | cons head _ ih =>
      intro spec member
      rcases List.mem_cons.mp member with rfl | member
      · exact ⟨_, head⟩
      · exact ih spec member

/-- What is read out of the specs of some addresses, joined by a separator. -/
theorem readAddresses_specs (specOf : List.Forall₂ SpecOf addresses specs) {first : Char}
    (separator : first ∈ [',', ';']) (others : List Char)
    : readAddresses (first :: others) ((first :: others).intercalate specs)
      = addresses.map (·.asStr.toList) := by
  rw [← unquote_specs specOf]
  cases specOf with
  | nil => rfl
  | @cons address spec addresses specs head tail =>
      have each : ∀ one ∈ spec :: specs, Unsplit (first :: others) one := by
        intro one member
        obtain ⟨_, own⟩ := specOf_of_mem (.cons head tail) one member
        exact own.unsplit first separator others
      have split := splitOutside_intercalate (List.cons_ne_nil spec specs) each
      have some : (first :: others).intercalate (spec :: specs) ≠ [] := by
        intro none
        rw [none] at split
        exact head.filled (List.cons.inj split).1.symm
      rw [readAddresses, if_neg some, split]

/-- A byte that a link keeps is a plain character of it. -/
theorem isMailtoByte_plain {b : UInt8} (kept : isMailtoByte b = true)
    : b.toNat < 128 ∧ b.toNat ≠ 37 ∧ IsMailtoPlain (Char.ofNat b.toNat) := by
  have bound : b.toNat < 256 := b.toNat_lt
  rw [isMailtoByte, Bool.or_eq_true] at kept
  rcases kept with alphanum | other
  · have range := isAlphanum_iff.mp alphanum
    rw [isSlugChar_iff, toNat_ofNat_of_lt (by omega)] at range
    exact ⟨by omega, by omega, .inl alphanum⟩
  · simp only [List.contains_eq_mem, List.mem_cons, List.not_mem_nil, or_false,
      decide_eq_true_eq] at other
    rcases other with rfl | rfl | rfl | rfl | rfl <;> simp [IsMailtoPlain]

/-- A link's part is decoded to the specs joined by commas. -/
theorem percentDecode_specs (specs : List (List Char))
    : percentDecode ([','].intercalate (specs.map percentEncode))
      = some (([','].intercalate specs).flatMap String.utf8EncodeChar) := by
  have readable (b : UInt8) (kept : isMailtoByte b = true) : b.toNat < 128 ∧ b.toNat ≠ 37 :=
    ⟨(isMailtoByte_plain kept).1, (isMailtoByte_plain kept).2.1⟩
  have decoded (spec rest : List Char) : percentDecode (percentEncode spec ++ rest)
      = (percentDecode rest).map (spec.flatMap String.utf8EncodeChar ++ ·) :=
    percentDecode_encodeBytes readable _ rest
  induction specs with
  | nil => rfl
  | cons spec specs ih =>
      cases specs with
      | nil => simpa [percentDecode] using decoded spec []
      | cons next specs =>
          have comma := percentDecode_plain (c := ',') (by decide) (by decide)
            ([','].intercalate ((next :: specs).map percentEncode))
          rw [ih] at comma
          rw [List.map_cons, List.map_cons, List.intercalate_cons_cons, List.append_assoc,
            decoded, ← List.map_cons, List.singleton_append, comma, List.intercalate_cons_cons]
          simp
          rfl

theorem percentEncoded_specs (specs : List (List Char))
    : PercentEncoded IsMailtoPlain ([','].intercalate (specs.map percentEncode)) := by
  have encoded (spec : List Char) : PercentEncoded IsMailtoPlain (percentEncode spec) :=
    (encodeBytes_encoded _).mono fun c ⟨b, kept, same⟩ => same ▸ (isMailtoByte_plain kept).2.2
  induction specs with
  | nil => exact .nil
  | cons spec specs ih =>
      cases specs with
      | nil => simpa using encoded spec
      | cons next specs =>
          rw [List.map_cons, List.map_cons, List.intercalate_cons_cons, List.append_assoc,
            ← List.map_cons]
          refine (encoded spec).append (.plain ?_ ih)
          simp [IsMailtoPlain]

/-- A link's part is read as the addresses. -/
theorem readMailto_specs (specOf : List.Forall₂ SpecOf addresses specs)
    : readMailto ([','].intercalate (specs.map percentEncode))
      = some (addresses.map (·.asStr.toList)) := by
  have decoded : (([','].intercalate specs).flatMap String.utf8EncodeChar).toByteArray.utf8Decode?
      = some ([','].intercalate specs).toArray :=
    List.utf8Decode?_utf8Encode
  rw [readMailto, percentDecode_specs, Option.bind_eq_bind, Option.bind_some, decoded,
    Option.bind_eq_bind, Option.bind_some, List.toList_toArray,
    readAddresses_specs specOf (by simp)]
  rfl

end Lists

-----------------------------------------------------------------------------------------
-- Exports

section

variable [CharacterTables]

theorem mapM_addressSpec (documented : CharacterTables.Documented) {addresses : List Email}
    (accepted : ∀ address ∈ addresses, ∃ raw, Email.parse raw = .ok address)
    : ∃ specs, addresses.mapM addressSpec = some specs ∧ List.Forall₂ SpecOf addresses specs := by
  induction addresses with
  | nil => exact ⟨[], rfl, .nil⟩
  | cons address rest ih =>
      obtain ⟨raw, parsed⟩ := accepted address List.mem_cons_self
      obtain ⟨spec, found, specOf⟩ := addressSpec_specOf documented parsed
      obtain ⟨specs, all, each⟩ := ih fun one member => accepted one (List.mem_cons_of_mem _ member)
      exact ⟨spec :: specs, by simp [found, all], .cons specOf each⟩

/-- An export of accepted addresses succeeds, and a reader of the copied text or of the link gets
the distinct addresses back, in first-occurrence order. There is a link when it has at most
`mailtoMaxChars` bytes, else its length; and a link has nothing but the addresses in it.
-/
theorem Recipients.read_back (documented : CharacterTables.Documented) (addresses : List Email)
    (accepted : ∀ address ∈ addresses, ∃ raw, Email.parse raw = .ok address)
    : ∃ distinct, InFirstOccurrenceOrder addresses distinct
        ∧ (∀ separator, ∃ text, (Recipients.new addresses).copyText separator = some text
          ∧ readAddresses separator.asStr text = distinct.map (·.asStr.toList))
        ∧ ∃ part, PercentEncoded IsMailtoPlain part
          ∧ readMailto part = some (distinct.map (·.asStr.toList))
          ∧ ∀ field, (byteLength (linkPrefix field ++ part) ≤ mailtoMaxChars →
              (Recipients.new addresses).mailto field = some (.link (linkPrefix field ++ part)))
            ∧ (mailtoMaxChars < byteLength (linkPrefix field ++ part) →
              (Recipients.new addresses).mailto field
                = some (.tooLong (byteLength (linkPrefix field ++ part)))) := by
  have ordered := Recipients.new_ordered addresses
  obtain ⟨specs, found, specOf⟩ := mapM_addressSpec documented
    fun address member => accepted address ((ordered.members address).mp member)
  refine ⟨(Recipients.new addresses).addresses, ordered, ?_, ?_⟩
  · intro separator
    refine ⟨separator.asStr.intercalate specs, by rw [copyText, found]; rfl, ?_⟩
    cases separator
    · exact readAddresses_specs specOf (by simp) [' ']
    · exact readAddresses_specs specOf (by simp) [' ']
  · refine ⟨[','].intercalate (specs.map percentEncode), percentEncoded_specs specs,
      readMailto_specs specOf, fun field => ⟨fun short => ?_, fun long => ?_⟩⟩
    · rw [mailto, found]
      exact congrArg some (if_neg (Nat.not_lt.mpr short))
    · rw [mailto, found]
      exact congrArg some (if_pos long)

end

section

attribute [local instance] CharacterTables.turkish

/-- A comma, a quote and a backslash in one address, and that address twice. -/
def attackAddresses : List Email :=
  [⟨"a,b\x22\\@x.no"⟩, ⟨"ola@x.no"⟩, ⟨"a,b\x22\\@x.no"⟩]

example : (Recipients.new attackAddresses).copyText .comma
    = some "\x22a,b\\\x22\\\\\x22@x.no, ola@x.no".toList := by
  decide +kernel

/-- Their link, after its prefix. -/
def attackPart : List Char := "%22a%2Cb%5C%22%5C%5C%22@x.no,ola@x.no".toList

theorem read_back_attack
    : ∃ distinct, InFirstOccurrenceOrder attackAddresses distinct
        ∧ (∀ separator, ∃ text, (Recipients.new attackAddresses).copyText separator = some text
          ∧ readAddresses separator.asStr text = distinct.map (·.asStr.toList))
        ∧ PercentEncoded IsMailtoPlain attackPart
        ∧ readMailto attackPart = some (distinct.map (·.asStr.toList))
        ∧ ∀ field, (Recipients.new attackAddresses).mailto field
            = some (.link (Recipients.linkPrefix field ++ attackPart)) := by
  have parsed : ∀ one ∈ attackAddresses, Email.parse one.asStr = .ok one := by decide +kernel
  have links : ∀ field, (Recipients.new attackAddresses).mailto field
      = some (.link (Recipients.linkPrefix field ++ attackPart)) := by
    intro field
    cases field <;> decide +kernel
  obtain ⟨distinct, ordered, copied, part, encoded, read, linked⟩ :=
    Recipients.read_back turkish_documented attackAddresses
      fun address member => ⟨address.asStr, parsed address member⟩
  have same : part = attackPart := by
    obtain ⟨short, long⟩ := linked .to
    rcases Nat.lt_or_ge mailtoMaxChars (byteLength (Recipients.linkPrefix .to ++ part))
      with far | near
    · exact absurd ((links .to).symm.trans (long far)) (by simp)
    · have urls := (links .to).symm.trans (short near)
      simpa using urls.symm
  exact ⟨distinct, ordered, copied, same ▸ encoded, same ▸ read, links⟩

end

end FauPortalen.Membership

import FauPortalen.Foundations.Framing
import FauPortalen.Keys.Shred

/-! The units that each have their own transit key: the names of their keys, and the rows their
wrapped keys are stored under.
-/

namespace FauPortalen.Keys

open Foundations

-----------------------------------------------------------------------------------------
-- Ids

/-- Sixteen bytes. -/
structure Uuid where
  bytes : List UInt8
  sized : bytes.length = 16
deriving DecidableEq

/-- Hexadecimal digits with a hyphen before the bytes 4, 6, 8 and 10, from byte `i` on. -/
def hyphenated (i : Nat) : List UInt8 → List Char
  | [] => []
  | byte :: rest =>
      (if i ∈ [4, 6, 8, 10] then ['-'] else []) ++ (byteHex byte ++ hyphenated (i + 1) rest)

def Uuid.text (id : Uuid) : List Char := hyphenated 0 id.bytes

/-- Every byte is written with as many characters, by induction on the bytes. -/
theorem hyphenated_length_eq {i : Nat} {left right : List UInt8} (same : left.length = right.length)
    : (hyphenated i left).length = (hyphenated i right).length := by
  induction left generalizing i right with
  | nil =>
      rw [List.eq_nil_of_length_eq_zero same.symm]
  | cons head tail ih =>
      cases right with
      | nil => cases same
      | cons head' tail' =>
          simp only [hyphenated, List.length_append, byteHex, List.length_cons, List.length_nil]
          rw [ih (Nat.succ.inj same)]

theorem hyphenated_inj {i : Nat} {left right : List UInt8} (sized : left.length = right.length)
    (same : hyphenated i left = hyphenated i right)
    : left = right := by
  induction left generalizing i right with
  | nil => exact (List.eq_nil_of_length_eq_zero sized.symm).symm
  | cons head tail ih =>
      cases right with
      | nil => cases sized
      | cons head' tail' =>
          simp only [hyphenated, List.append_cancel_left_eq] at same
          obtain ⟨digits, others⟩ := List.append_inj same rfl
          rw [byteHex_injective digits, ih (Nat.succ.inj sized) others]

theorem Uuid.text_injective : Function.Injective Uuid.text := by
  rintro ⟨bytes, sized⟩ ⟨bytes', sized'⟩ same
  obtain rfl := hyphenated_inj (sized.trans sized'.symm) same
  rfl

theorem Uuid.text_length_eq (id id' : Uuid) : id.text.length = id'.text.length :=
  hyphenated_length_eq (id.sized.trans id'.sized.symm)

-----------------------------------------------------------------------------------------
-- Units

/-- A chat month, whatever numbers it was made from. -/
structure ChatMonth where
  year : Int16
  month : Int8
deriving DecidableEq

/-- `2026-09`. -/
def ChatMonth.text (month : ChatMonth) : List Char :=
  zeroPadded 4 month.year.toInt ++ '-' :: zeroPadded 2 month.month.toInt

theorem ChatMonth.text_injective : Function.Injective ChatMonth.text := by
  rintro ⟨year, month⟩ ⟨year', month'⟩ same
  obtain ⟨years, months⟩ := zeroPadded_hyphen_inj same
  obtain rfl := Int16.toInt.inj years
  obtain rfl := Int8.toInt.inj (zeroPadded_injective months)
  rfl

/-- A thing with a transit key of its own. -/
inductive KeyUnit
  | record (tenant : Uuid)
  | document (tenant document : Uuid)
  | chat (tenant : Uuid) (month : ChatMonth)
  | messages (tenant : Uuid)
deriving DecidableEq

/-- What the names of an FAU's keys start with. -/
def tenantPrefix (tenant : Uuid) : List Char := "fau-".toList ++ (tenant.text ++ ['-'])

theorem tenantPrefix_append_inj {tenant tenant' : Uuid} {rest rest' : List Char}
    (same : tenantPrefix tenant ++ rest = tenantPrefix tenant' ++ rest')
    : tenant = tenant' ∧ rest = rest' := by
  unfold tenantPrefix at same
  generalize "fau-".toList = front at same
  simp only [List.append_assoc, List.append_cancel_left_eq] at same
  obtain ⟨tenants, rests⟩ := List.append_inj same (Uuid.text_length_eq _ _)
  exact ⟨Uuid.text_injective tenants, List.append_cancel_left rests⟩

theorem toList_pattern (tenant : Uuid)
    : ("fau-" ++ String.ofList tenant.text ++ "-").toList = tenantPrefix tenant := by
  have written : (String.ofList tenant.text).toList = tenant.text := String.toList_ofList
  rw [String.toList_append, String.toList_append, written, List.append_assoc]
  rfl

namespace KeyUnit

def tenant : KeyUnit → Uuid
  | record tenant | document tenant _ | chat tenant _ | messages tenant => tenant

/-- The part of the name after the tenant. -/
def suffix : KeyUnit → List Char
  | record _ => "record".toList
  | document _ id => "doc-".toList ++ id.text
  | chat _ month => "chat-".toList ++ month.text
  | messages _ => "messages".toList

def keyName (unit : KeyUnit) : String :=
  String.ofList (tenantPrefix unit.tenant ++ unit.suffix)

/-- The unit and the scope in `wrapped_keys`; none for a unit without a data key. -/
def storage : KeyUnit → Option (String × Option String)
  | record _ => some ("record", none)
  | document _ id => some ("document", some (String.ofList id.text))
  | chat _ month => some ("chat", some (String.ofList month.text))
  | messages _ => none

example : ((ChatMonth.mk 2026 9).text) = "2026-09".toList := by decide +kernel

/-- The kinds of unit differ in the first letter of the suffix. -/
def initial : KeyUnit → Char
  | record _ => 'r'
  | document _ _ => 'd'
  | chat _ _ => 'c'
  | messages _ => 'm'

theorem suffix_head? (unit : KeyUnit) : unit.suffix.head? = some unit.initial := by
  cases unit <;> rfl

/-- The suffix tells the units of one FAU apart, by its first letter and then by its id. -/
theorem eq_of_suffix {unit unit' : KeyUnit} (tenants : unit.tenant = unit'.tenant)
    (suffixes : unit.suffix = unit'.suffix)
    : unit = unit' := by
  have letters : unit.initial = unit'.initial := by
    have heads := congrArg List.head? suffixes
    rwa [suffix_head?, suffix_head?, Option.some.injEq] at heads
  cases unit <;> cases unit' <;> cases tenants
  case record.record => rfl
  case document.document =>
    rw [Uuid.text_injective (List.append_cancel_left suffixes)]
  case chat.chat =>
    rw [ChatMonth.text_injective (List.append_cancel_left suffixes)]
  case messages.messages => rfl
  all_goals simp [initial] at letters

theorem keyName_injective : Function.Injective keyName := by
  intro unit unit' same
  obtain ⟨tenants, suffixes⟩ := tenantPrefix_append_inj (String.ofList_injective same)
  exact eq_of_suffix tenants suffixes

/-- The pattern that deletes an FAU's keys matches the names of its own units. -/
theorem prefix_keyName_iff {unit : KeyUnit} {tenant : Uuid}
    : ("fau-" ++ String.ofList tenant.text ++ "-").toList.isPrefixOf unit.keyName.toList = true
      ↔ unit.tenant = tenant := by
  rw [List.isPrefixOf_iff_prefix, toList_pattern, keyName, String.toList_ofList]
  constructor
  · rintro ⟨rest, same⟩
    exact (tenantPrefix_append_inj same).1.symm
  · rintro rfl
    exact ⟨unit.suffix, rfl⟩

/-- Units with a data key in one row are one unit. -/
theorem eq_of_storage {unit unit' : KeyUnit} (tenants : unit.tenant = unit'.tenant)
    (stored : unit.storage.isSome) (rows : unit.storage = unit'.storage)
    : unit = unit' := by
  cases unit <;> cases unit' <;> simp only [tenant] at tenants <;> subst tenants <;>
    simp [storage] at stored rows
  · rfl
  · rw [Uuid.text_injective (String.ofList_injective rows)]
  · rw [ChatMonth.text_injective (String.ofList_injective rows)]

end KeyUnit

end FauPortalen.Keys

import Mathlib.Data.List.Basic
import Mathlib.Algebra.Group.Nat.Defs

/-! Texts and bytes put together so that they can be taken apart again: separators, numbers with
a fixed width, lengths before parts, and hexadecimal digits.
-/

namespace FauPortalen.Foundations

-----------------------------------------------------------------------------------------
-- Separators

/-- What comes before the first separator, and after it, is determined. -/
theorem append_separator_inj {α : Type} {separator : α} {left right rest rest' : List α}
    (absent : separator ∉ left) (absent' : separator ∉ right)
    (same : left ++ separator :: rest = right ++ separator :: rest')
    : left = right ∧ rest = rest' := by
  induction left generalizing right with
  | nil =>
      cases right with
      | nil => exact ⟨rfl, (List.cons.inj same).2⟩
      | cons head tail =>
          have here := (List.cons.inj same).1
          exact absurd (here ▸ List.mem_cons_self) absent'
  | cons head tail ih =>
      cases right with
      | nil =>
          have here := (List.cons.inj same).1
          exact absurd (here ▸ List.mem_cons_self) absent
      | cons head' tail' =>
          obtain ⟨here, later⟩ := List.cons.inj same
          obtain ⟨tails, rests⟩ := ih (fun inside => absent (List.mem_cons_of_mem _ inside))
            (fun inside => absent' (List.mem_cons_of_mem _ inside)) later
          exact ⟨here ▸ tails ▸ rfl, rests⟩

-----------------------------------------------------------------------------------------
-- Decimal numbers

/-- The decimal digits, with zeros before them up to the width. -/
def paddedDigits (width n : Nat) : List Char :=
  List.replicate (width - (Nat.toDigits 10 n).length) '0' ++ Nat.toDigits 10 n

/-- A whole number with zeros up to the width; the sign counts. -/
def zeroPadded (width : Nat) (value : Int) : List Char :=
  if value < 0 then '-' :: paddedDigits (width - 1) value.natAbs
  else paddedDigits width value.natAbs

theorem paddedDigits_injective {width : Nat} : Function.Injective (paddedDigits width) := by
  intro n n' same
  have values := congrArg (Nat.ofDigitChars 10 · 0) same
  simpa [paddedDigits, Nat.ofDigitChars_append] using values

theorem isDigit_of_mem_paddedDigits {width n : Nat} {c : Char} (inside : c ∈ paddedDigits width n)
    : c.isDigit = true := by
  rcases List.mem_append.mp inside with zero | digit
  · rw [List.eq_of_mem_replicate zero]
    rfl
  · exact Nat.isDigit_of_mem_toDigits (by decide) (by decide) digit

theorem hyphen_not_mem_paddedDigits {width n : Nat} : '-' ∉ paddedDigits width n := fun inside =>
  absurd (isDigit_of_mem_paddedDigits inside) (by decide)

/-- A padded number starts with a digit, not with a sign. -/
theorem paddedDigits_head {width n : Nat} {rest text : List Char}
    : paddedDigits width n ++ rest ≠ '-' :: text := by
  intro same
  have some_ : paddedDigits width n ≠ [] := fun empty =>
    Nat.toDigits_ne_nil (List.append_eq_nil_iff.mp empty).2
  obtain ⟨first, others, written⟩ := List.exists_cons_of_ne_nil some_
  rw [written, List.cons_append] at same
  have inside : '-' ∈ paddedDigits width n := by
    rw [written, (List.cons.inj same).1]
    exact List.mem_cons_self
  exact hyphen_not_mem_paddedDigits inside

/-- A number before a hyphen, and what follows it, are determined: a hyphen that is a sign comes
first.
-/
theorem zeroPadded_hyphen_inj {width : Nat} {value value' : Int} {rest rest' : List Char}
    (same : zeroPadded width value ++ '-' :: rest = zeroPadded width value' ++ '-' :: rest')
    : value = value' ∧ rest = rest' := by
  unfold zeroPadded at same
  split at same
  · next negative =>
      split at same
      · next negative' =>
          rw [List.cons_append, List.cons_append] at same
          obtain ⟨digits, rests⟩ := append_separator_inj hyphen_not_mem_paddedDigits
            hyphen_not_mem_paddedDigits (List.cons.inj same).2
          have sizes := paddedDigits_injective digits
          exact ⟨by omega, rests⟩
      · exact absurd same.symm paddedDigits_head
  · next natural =>
      split at same
      · exact absurd same paddedDigits_head
      · next natural' =>
          obtain ⟨digits, rests⟩ := append_separator_inj hyphen_not_mem_paddedDigits
            hyphen_not_mem_paddedDigits same
          have sizes := paddedDigits_injective digits
          exact ⟨by omega, rests⟩

theorem zeroPadded_injective {width : Nat} : Function.Injective (zeroPadded width) := by
  intro value value' same
  have closed : zeroPadded width value ++ '-' :: [] = zeroPadded width value' ++ '-' :: [] := by
    rw [same]
  exact (zeroPadded_hyphen_inj closed).1

-----------------------------------------------------------------------------------------
-- Hexadecimal digits

def byteHex (byte : UInt8) : List Char :=
  [Nat.digitChar (byte.toNat / 16), Nat.digitChar (byte.toNat % 16)]

theorem digitChar_injective {a b : Nat} (ha : a < 16) (hb : b < 16)
    (same : Nat.digitChar a = Nat.digitChar b)
    : a = b := by
  have all : ∀ a b : Fin 16, Nat.digitChar a = Nat.digitChar b → a = b := by decide
  exact congrArg Fin.val (all ⟨a, ha⟩ ⟨b, hb⟩ same)

theorem byteHex_injective : Function.Injective byteHex := by
  intro byte byte' same
  have small := byte.toNat_lt
  have small' := byte'.toNat_lt
  simp only [byteHex, List.cons.injEq] at same
  have high := digitChar_injective (by omega) (by omega) same.1
  have low := digitChar_injective (by omega) (by omega) same.2.1
  exact UInt8.toNat_inj.mp (by omega)

-----------------------------------------------------------------------------------------
-- Lengths before parts

/-- The low 32 bits, the most significant byte first. -/
def bigEndian32 (n : Nat) : List UInt8 :=
  [UInt8.ofNat (n / 2 ^ 24), UInt8.ofNat (n / 2 ^ 16), UInt8.ofNat (n / 2 ^ 8), UInt8.ofNat n]

theorem bigEndian32_injective {n n' : Nat} (small : n < 2 ^ 32) (small' : n' < 2 ^ 32)
    (same : bigEndian32 n = bigEndian32 n')
    : n = n' := by
  simp only [bigEndian32, List.cons.injEq, ← UInt8.toNat_inj, UInt8.toNat_ofNat'] at same
  omega

/-- A part with its length before it. -/
def lengthPrefixed (part : List UInt8) : List UInt8 := bigEndian32 part.length ++ part

/-- A part with its length, and what follows it, are determined. -/
theorem lengthPrefixed_append_inj {part part' rest rest' : List UInt8}
    (small : part.length < 2 ^ 32) (small' : part'.length < 2 ^ 32)
    (same : lengthPrefixed part ++ rest = lengthPrefixed part' ++ rest')
    : part = part' ∧ rest = rest' := by
  rw [lengthPrefixed, lengthPrefixed, List.append_assoc, List.append_assoc] at same
  obtain ⟨lengths, parts⟩ := List.append_inj same rfl
  exact List.append_inj parts (bigEndian32_injective small small' lengths)

end FauPortalen.Foundations

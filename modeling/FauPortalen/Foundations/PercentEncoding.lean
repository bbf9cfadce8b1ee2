import Mathlib.Data.List.Basic

/-! Percent encoding: each byte that may not stand by itself is written in hexadecimal, and a
reader gets the bytes back whatever follows them.
-/

namespace FauPortalen.Foundations

/-- An upper-case hexadecimal digit. -/
def hexDigit (n : Nat) : Char := Char.ofNat (if n < 10 then 48 + n else 55 + n)

def hexValue (c : Char) : Option Nat :=
  if 48 ≤ c.toNat ∧ c.toNat ≤ 57 then some (c.toNat - 48)
  else if 65 ≤ c.toNat ∧ c.toNat ≤ 70 then some (c.toNat - 55)
  else if 97 ≤ c.toNat ∧ c.toNat ≤ 102 then some (c.toNat - 87)
  else none

def encodeByte (keeps : UInt8 → Bool) (b : UInt8) : List Char :=
  if keeps b then [Char.ofNat b.toNat]
  else ['%', hexDigit (b.toNat / 16), hexDigit (b.toNat % 16)]

def encodeBytes (keeps : UInt8 → Bool) (bytes : List UInt8) : List Char :=
  bytes.flatMap (encodeByte keeps)

/-- Reads escapes and ASCII characters; none at anything else. -/
def percentDecode : List Char → Option (List UInt8)
  | [] => some []
  | '%' :: high :: low :: rest => do
      let h ← hexValue high
      let l ← hexValue low
      let bytes ← percentDecode rest
      return UInt8.ofNat (16 * h + l) :: bytes
  | c :: rest =>
      if c = '%' ∨ 128 ≤ c.toNat then none
      else (percentDecode rest).map (UInt8.ofNat c.toNat :: ·)

/-- The text of the given characters and of escapes. -/
inductive PercentEncoded (plain : Char → Prop) : List Char → Prop
  | nil : PercentEncoded plain []
  | plain {c : Char} {rest : List Char}
      : plain c → PercentEncoded plain rest → PercentEncoded plain (c :: rest)
  | escape {high low : Char} {rest : List Char}
      : (hexValue high).isSome → (hexValue low).isSome → PercentEncoded plain rest →
        PercentEncoded plain ('%' :: high :: low :: rest)

theorem toNat_ofNat_of_lt {n : Nat} (small : n < 0xD800) : (Char.ofNat n).toNat = n := by
  have valid : n.isValidChar := .inl small
  rw [Char.ofNat, dif_pos valid]
  rfl

theorem hexValue_hexDigit {n : Nat} (small : n < 16) : hexValue (hexDigit n) = some n := by
  have : ∀ n : Fin 16, hexValue (hexDigit n) = some n.val := by decide
  exact this ⟨n, small⟩

/-- A byte that stands by itself is read as it is. -/
theorem percentDecode_plain {c : Char} (ascii : c.toNat < 128) (own : c ≠ '%') (rest : List Char)
    : percentDecode (c :: rest) = (percentDecode rest).map (UInt8.ofNat c.toNat :: ·) := by
  conv_lhs => unfold percentDecode
  split
  · contradiction
  · rename_i same
    exact absurd (List.cons.inj same).1 own
  · rename_i same
    obtain ⟨rfl, rfl⟩ := List.cons.inj same
    rw [if_neg (by rw [not_or]; exact ⟨own, by omega⟩)]

section Encoding

variable {keeps : UInt8 → Bool}

theorem percentDecode_encodeByte (readable : ∀ b, keeps b = true → b.toNat < 128 ∧ b.toNat ≠ 37)
    (b : UInt8) (rest : List Char)
    : percentDecode (encodeByte keeps b ++ rest) = (percentDecode rest).map (b :: ·) := by
  have bound : b.toNat < 256 := b.toNat_lt
  rw [encodeByte]
  split
  · rename_i kept
    obtain ⟨ascii, other⟩ := readable b kept
    have valid : (Char.ofNat b.toNat).toNat = b.toNat := toNat_ofNat_of_lt (by omega)
    have own : Char.ofNat b.toNat ≠ '%' := fun same => by
      rw [same] at valid
      exact other valid.symm
    rw [List.singleton_append, percentDecode_plain (by omega) own, valid, UInt8.ofNat_toNat]
  · have high : b.toNat / 16 < 16 := by omega
    have low : b.toNat % 16 < 16 := by omega
    have same : UInt8.ofNat (16 * (b.toNat / 16) + b.toNat % 16) = b := by
      rw [Nat.div_add_mod, UInt8.ofNat_toNat]
    simp only [List.cons_append, List.nil_append, percentDecode, hexValue_hexDigit high,
      hexValue_hexDigit low, Option.bind_eq_bind, Option.bind_some, same]
    cases percentDecode rest <;> rfl

theorem percentDecode_encodeBytes (readable : ∀ b, keeps b = true → b.toNat < 128 ∧ b.toNat ≠ 37)
    (bytes : List UInt8) (rest : List Char)
    : percentDecode (encodeBytes keeps bytes ++ rest)
      = (percentDecode rest).map (bytes ++ ·) := by
  induction bytes with
  | nil => simp [encodeBytes]
  | cons b bytes ih =>
      rw [encodeBytes] at ih ⊢
      rw [List.flatMap_cons, List.append_assoc, percentDecode_encodeByte readable, ih,
        Option.map_map]
      rfl

theorem PercentEncoded.append {plain : Char → Prop} {left right : List Char}
    (first : PercentEncoded plain left) (second : PercentEncoded plain right)
    : PercentEncoded plain (left ++ right) := by
  induction first with
  | nil => exact second
  | plain own _ ih => exact .plain own ih
  | escape high low _ ih => exact .escape high low ih

theorem PercentEncoded.mono {plain others : Char → Prop} {text : List Char}
    (encoded : PercentEncoded plain text) (weaker : ∀ c, plain c → others c)
    : PercentEncoded others text := by
  induction encoded with
  | nil => exact .nil
  | plain own _ ih => exact .plain (weaker _ own) ih
  | escape high low _ ih => exact .escape high low ih

theorem encodeBytes_encoded (bytes : List UInt8)
    : PercentEncoded (fun c => ∃ b, keeps b = true ∧ c = Char.ofNat b.toNat)
        (encodeBytes keeps bytes) := by
  induction bytes with
  | nil => exact .nil
  | cons b bytes ih =>
      have bound : b.toNat < 256 := b.toNat_lt
      have own : PercentEncoded (fun c => ∃ b, keeps b = true ∧ c = Char.ofNat b.toNat)
          (encodeByte keeps b) := by
        rw [encodeByte]
        split
        · rename_i kept
          exact .plain ⟨b, kept, rfl⟩ .nil
        · refine .escape ?_ ?_ .nil <;> rw [hexValue_hexDigit (by omega)] <;> rfl
      exact own.append ih

end Encoding

end FauPortalen.Foundations

import Mathlib.Data.Nat.Log
import Mathlib.Data.Nat.Basic
import Mathlib.Tactic.Ring
import Mathlib.Tactic.Linarith
import Mathlib.Algebra.Order.Ring.Nat

/-! Non-negative binary32 numbers as multiples of the smallest one, 2^-149: rounding a
ratio to the nearest, ties to even, and printing with two decimals.
-/

namespace FauPortalen.Foundations

/-- The nearest integer to `num / den`, ties to even. -/
def roundHalfEven (num den : Nat) : Nat :=
  let quotient := num / den
  let twice := 2 * (num % den)
  if twice < den ∨ (twice = den ∧ quotient % 2 = 0) then quotient else quotient + 1

/-- The rounded ratio lies within a half of the ratio. -/
theorem roundHalfEven_within (num : Nat) {den : Nat} (positive : 0 < den)
    : 2 * num ≤ den * (2 * roundHalfEven num den + 1)
      ∧ den * (2 * roundHalfEven num den) ≤ 2 * num + den := by
  have split := Nat.div_add_mod num den
  have below := Nat.mod_lt num positive
  have scale (n : Nat) : den * (2 * n) = 2 * (den * n) := by ring
  unfold roundHalfEven
  simp only
  split
  · rw [Nat.mul_add, scale]
    omega
  · rw [Nat.mul_add, scale, Nat.mul_add]
    omega

/-- A common factor does not change the rounded ratio. -/
theorem roundHalfEven_mul_right (num den : Nat) {factor : Nat} (positive : 0 < factor)
    : roundHalfEven (num * factor) (den * factor) = roundHalfEven num den := by
  have scaled (left right : Nat) : left * factor < right * factor ↔ left < right :=
    Nat.mul_lt_mul_right positive
  have equal (left right : Nat) : left * factor = right * factor ↔ left = right :=
    Nat.mul_left_inj (Nat.ne_of_gt positive)
  unfold roundHalfEven
  simp only [Nat.mul_div_mul_right _ _ positive, Nat.mul_mod_mul_right, ← Nat.mul_assoc,
    scaled, equal]

theorem roundHalfEven_mul_self (num : Nat) {den : Nat} (positive : 0 < den)
    : roundHalfEven (num * den) den = num := by
  simp [roundHalfEven, Nat.mul_div_cancel _ positive, positive]

namespace Binary32

/-- A non-negative binary32 number, counted in units of 2^-149. -/
abbrev Units := Nat

/-- The binary32 number nearest to `num / den`, in units of 2^-149. A number at least 2^24
units is rounded to a multiple of the power of two that leaves 24 significant bits.
-/
def ofRatio (num den : Nat) : Units :=
  let scaled := num * 2 ^ 149
  let drop := Nat.log 2 (scaled / den) + 1 - 24
  roundHalfEven scaled (den * 2 ^ drop) * 2 ^ drop

def ofNat (value : Nat) : Units := ofRatio value 1

def div (left right : Units) : Units := ofRatio left right

/-- Decimal text with two digits after the point, the exact value rounded half to even. -/
def toFixed2 (value : Units) : String :=
  let hundredths := roundHalfEven (value * 100) (2 ^ 149)
  let digits (n : Nat) : String := if n < 10 then "0" ++ n.repr else n.repr
  (hundredths / 100).repr ++ "." ++ digits (hundredths % 100)

theorem ofRatio_of_log {num den bits : Nat} (log : Nat.log 2 (num * 2 ^ 149 / den) = bits)
    : ofRatio num den
      = roundHalfEven (num * 2 ^ 149) (den * 2 ^ (bits + 1 - 24)) * 2 ^ (bits + 1 - 24) := by
  simp only [ofRatio, log]

/-- A common factor does not change the number. -/
theorem ofRatio_mul_right (num den : Nat) {factor : Nat} (positive : 0 < factor)
    : ofRatio (num * factor) (den * factor) = ofRatio num den := by
  have scaled : num * factor * 2 ^ 149 = num * 2 ^ 149 * factor := by ring
  simp only [ofRatio, scaled, Nat.mul_div_mul_right _ _ positive]
  generalize Nat.log 2 (num * 2 ^ 149 / den) + 1 - 24 = drop
  have moved : den * factor * 2 ^ drop = den * 2 ^ drop * factor := by ring
  rw [moved, roundHalfEven_mul_right _ _ positive]

/-- Every integer of at most 24 bits is a binary32 number. -/
theorem ofNat_eq {value : Nat} (small : value < 2 ^ 24)
    : ofNat value = value * 2 ^ 149 := by
  have bits : Nat.log 2 (value * 2 ^ 149) < 24 + 149 := by
    rcases Nat.eq_zero_or_pos value with rfl | positive
    · simp
    · refine Nat.log_lt_of_lt_pow (by positivity) ?_
      rw [Nat.pow_add]
      exact Nat.mul_lt_mul_of_pos_right small (by positivity)
  simp only [ofNat, ofRatio, Nat.div_one, Nat.one_mul]
  generalize dropped : Nat.log 2 (value * 2 ^ 149) + 1 - 24 = drop
  have whole : value * 2 ^ 149 = value * 2 ^ (149 - drop) * 2 ^ drop := by
    rw [Nat.mul_assoc, ← Nat.pow_add, Nat.sub_add_cancel (by omega)]
  rw [whole, roundHalfEven_mul_self _ (by positivity)]

/-- Dividing integers of at most 24 bits rounds once. -/
theorem div_ofNat {num den : Nat} (smallNum : num < 2 ^ 24) (smallDen : den < 2 ^ 24)
    : div (ofNat num) (ofNat den) = ofRatio num den := by
  rw [ofNat_eq smallNum, ofNat_eq smallDen, div, ofRatio_mul_right _ _ (by positivity)]

end Binary32

end FauPortalen.Foundations

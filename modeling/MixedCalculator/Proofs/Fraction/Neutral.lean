import MixedCalculator.Fraction.Arithmetic

namespace MixedCalculator

/-!
# Neutral operands

Zero is neutral after a sign, and one in a chain of factors.  That holds of the terms of a
fraction and not only of its value: multiplying out by a denominator of one gives back the very
pair, and a pair that fitted before is neither reduced nor refused.
-/

/-- A pair with the terms of a fraction is kept as that fraction. -/
theorem WideFraction.narrow_eq_ok {w : WideFraction} {a : Fraction} (num : w.num = a.num)
    (den : w.den = a.den) : w.narrow = .ok a := by
  rcases w with ⟨wideNum, wideDen⟩
  rcases a with ⟨_, _, fits⟩
  cases num
  cases den
  exact narrow_of_fits _ fits

namespace Fraction

/-- One over one, the value of an empty product. -/
def one : Fraction := ofInt 1 (by decide)

/-- The operand with which an operator changes nothing. -/
def neutral (op : Operator) : Fraction :=
  if op.isMultiplicative then one else zero

/-- A neutral operand leaves a fraction as it is. -/
theorem apply_neutral (op : Operator) (a : Fraction) : apply op a (neutral op) = .ok a := by
  cases op with
  | plus =>
      apply WideFraction.narrow_eq_ok
      · change a.num * 1 + 0 * (a.den : Int) = a.num
        rw [Int.mul_one, Int.zero_mul, Int.add_zero]
      · exact Nat.mul_one a.den
  | minus =>
      apply WideFraction.narrow_eq_ok
      · change a.num * 1 - 0 * (a.den : Int) = a.num
        rw [Int.mul_one, Int.zero_mul, Int.sub_zero]
      · exact Nat.mul_one a.den
  | times =>
      apply WideFraction.narrow_eq_ok
      · exact Int.mul_one a.num
      · exact Nat.mul_one a.den
  | dividedBy =>
      apply WideFraction.narrow_eq_ok
      · change a.num * 1 * 1 = a.num
        rw [Int.mul_one, Int.mul_one]
      · exact Nat.mul_one a.den

/-- A sum that begins with zero goes on with its first operand as it is. -/
theorem zero_plus (a : Fraction) : apply .plus zero a = .ok a := by
  apply WideFraction.narrow_eq_ok
  · change 0 * (a.den : Int) + a.num * 1 = a.num
    rw [Int.zero_mul, Int.mul_one, Int.zero_add]
  · exact Nat.one_mul a.den

end Fraction

end MixedCalculator

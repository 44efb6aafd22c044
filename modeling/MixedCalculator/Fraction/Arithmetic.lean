import MixedCalculator.Fraction.Basic

namespace MixedCalculator
namespace Fraction

/-!
# Arithmetic on fractions

Every operation is stated first as a `WideFraction`, the result of multiplying out, and then
made to fit.  The wide results have exactly the rational value of the operation, so a
refusal is never the fault of an intermediate step: it says that the reduced result is out
of bounds.
-/

/-- The sum over the product of the denominators. -/
def crossSum (a b : Fraction) : WideFraction :=
  ⟨a.num * b.den + b.num * a.den, a.den * b.den⟩

/-- The difference over the product of the denominators. -/
def crossDifference (a b : Fraction) : WideFraction :=
  ⟨a.num * b.den - b.num * a.den, a.den * b.den⟩

/-- The product of the numerators over the product of the denominators. -/
def crossProduct (a b : Fraction) : WideFraction :=
  ⟨a.num * b.num, a.den * b.den⟩

/-- The first numerator times the second denominator, over the first denominator times the
second numerator.  The sign of the divisor moves to the numerator, so that the denominator
is positive for every divisor but zero. -/
def crossQuotient (a b : Fraction) : WideFraction :=
  ⟨a.num * b.den * b.num.sign, a.den * b.num.natAbs⟩

def add (a b : Fraction) : Except Fault Fraction := (crossSum a b).narrow

def sub (a b : Fraction) : Except Fault Fraction := (crossDifference a b).narrow

def mul (a b : Fraction) : Except Fault Fraction := (crossProduct a b).narrow

/-- Division is refused for a divisor of zero, before any multiplying out. -/
def div (a b : Fraction) : Except Fault Fraction :=
  if b.num = 0 then .error .divisionByZero else (crossQuotient a b).narrow

/-- Apply an operator to two fractions. -/
def apply : Operator -> Fraction -> Fraction -> Except Fault Fraction
  | .plus => add
  | .minus => sub
  | .times => mul
  | .dividedBy => div

/-! ## Construction from parts -/

/-- The fraction with the given whole part, numerator and denominator, before it is made to
fit.  If one of the first two is negative, its sign is the sign of the whole number: the
magnitudes of the parts are added under it. -/
def wideParts (whole num : Int) (den : Nat) : WideFraction :=
  if whole < 0 then ⟨whole * den - num, den⟩
  else if num < 0 then ⟨-whole * den + num, den⟩
  else ⟨whole * den + num, den⟩

/-- Build a fraction from a whole part, a numerator and a denominator.  The denominator is
looked at before the signs of the other two parts, of which only one may be negative. -/
def ofParts (whole num den : Int) : Except Fault Fraction :=
  if den = 0 then .error (.invalidParts .zeroDenominator)
  else if den < 0 then .error (.invalidParts .negativeDenominator)
  else if whole < 0 ∧ num < 0 then .error (.invalidParts .twoNegativeParts)
  else (wideParts whole num den.toNat).narrow

/-! ## Values of the wide results -/

theorem crossSum_value (a b : Fraction) : (crossSum a b).value = a.value + b.value :=
  (Rat.mkRat_add_mkRat a.num b.num a.den_ne_zero b.den_ne_zero).symm

theorem crossDifference_value (a b : Fraction) :
    (crossDifference a b).value = a.value - b.value := by
  rw [Rat.sub_eq_add_neg]
  simp only [value, Rat.neg_mkRat]
  rw [Rat.mkRat_add_mkRat a.num (-b.num) a.den_ne_zero b.den_ne_zero]
  simp only [crossDifference, WideFraction.value, Int.neg_mul, Int.sub_eq_add_neg]

theorem crossProduct_value (a b : Fraction) : (crossProduct a b).value = a.value * b.value :=
  (Rat.mkRat_mul_mkRat a.num b.num a.den b.den).symm

/-- The denominator of a quotient is positive as soon as the divisor is not zero. -/
theorem crossQuotient_den_pos (a b : Fraction) (nonzero : b.num ≠ 0) :
    0 < (crossQuotient a b).den :=
  Nat.mul_pos a.den_pos (Int.natAbs_pos.mpr nonzero)

theorem crossQuotient_value (a b : Fraction) :
    (crossQuotient a b).value = a.value / b.value := by
  have exact_quotient : a.value / b.value =
      Rat.divInt (a.num * b.den) (a.den * b.num) := by
    rw [Rat.div_def]
    change Rat.divInt a.num a.den * (Rat.divInt b.num b.den)⁻¹ = _
    rw [Rat.inv_divInt, Rat.divInt_mul_divInt]
  rw [exact_quotient]
  change Rat.divInt (a.num * b.den * b.num.sign) ((a.den * b.num.natAbs : Nat) : Int) = _
  rcases Int.lt_trichotomy b.num 0 with negative | zero | positive
  · rw [Int.sign_eq_neg_one_of_neg negative]
    have magnitude : ((a.den * b.num.natAbs : Nat) : Int) = -(a.den * b.num) := by
      rw [Int.natCast_mul, Int.ofNat_natAbs_of_nonpos (Int.le_of_lt negative), Int.mul_neg]
    rw [magnitude, Int.mul_neg, Int.mul_one, Rat.neg_divInt_neg]
  · simp [zero]
  · rw [Int.sign_eq_one_of_pos positive]
    have magnitude : ((a.den * b.num.natAbs : Nat) : Int) = a.den * b.num := by
      rw [Int.natCast_mul, Int.natAbs_of_nonneg (Int.le_of_lt positive)]
    rw [magnitude, Int.mul_one]

end Fraction
end MixedCalculator

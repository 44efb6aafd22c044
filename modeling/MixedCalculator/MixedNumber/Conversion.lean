import MixedCalculator.Fraction.Basic
import MixedCalculator.MixedNumber.Basic

namespace MixedCalculator

/-!
# Mixed numbers and fractions

An operand is converted to a fraction before it is used, and a result is converted back to be
shown.  The first direction can fail, since a mixed number may be out of bounds or have no
value at all.  The second always gives lowest terms and a proper fraction.
-/

namespace MixedNumber

/-- The numerator of the number over its own denominator, without the sign. -/
def magnitude (m : MixedNumber) : Nat :=
  m.whole.toNat * m.den.toNat + m.num.toNat

/-- The number as a single pair over its own denominator. -/
def wide (m : MixedNumber) : WideFraction :=
  ⟨m.sign.apply m.magnitude, m.den.toNat⟩

/-- The magnitudes that are given a sign at all.  Anything larger is out of bounds over every
possible denominator, so it is refused before reduction is attempted. -/
def magnitudeBound : Nat := 9223372036854775807

/-- The fraction that a mixed number denotes. -/
def toFraction (m : MixedNumber) : Except Fault Fraction :=
  if m.den = 0 then .error (.invalidParts .zeroDenominator)
  else if magnitudeBound < m.magnitude then .error .overflow
  else m.wide.narrow

/-- The display mark takes no part in the value of a number. -/
@[simp] theorem toFraction_asReadOnly (m : MixedNumber) :
    m.asReadOnly.toFraction = m.toFraction := rfl

/-- A rational number as a whole part and a proper fraction in lowest terms. -/
def ofRat (q : Rat) : MixedNumber :=
  ofMagnitudes (Sign.ofInt q.num) (UInt32.ofNat (q.num.natAbs / q.den))
    (UInt32.ofNat (q.num.natAbs % q.den)) (UInt32.ofNat q.den)

end MixedNumber

/-- The mixed form of a fraction, in lowest terms whatever terms the fraction has. -/
def Fraction.toMixed (a : Fraction) : MixedNumber :=
  MixedNumber.ofRat a.value

end MixedCalculator

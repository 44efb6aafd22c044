import MixedCalculator.Fraction.Arithmetic
import MixedCalculator.MixedNumber.Conversion

namespace MixedCalculator

/-!
# The arithmetic of an evaluation

The order in which members are read, and the fault that is found first, do not depend on how
values are held.  An evaluation therefore takes its arithmetic as a parameter: the value of an
empty sum, the value of a number, and the four operations.

The calculator evaluates over fractions.  Two further arithmetics serve as its measure.  The
exact one has no bounds, so its only faults are numbers without a value and divisions by zero.
The reduced one keeps every value in lowest terms.
-/

/-- What an evaluation asks of its values. -/
structure Arithmetic (Value : Type) where
  zero : Value
  ofMixed : MixedNumber -> Except Fault Value
  apply : Operator -> Value -> Value -> Except Fault Value

namespace Arithmetic

/-- Fractions, reduced only where they would not fit otherwise. -/
def fractions : Arithmetic Fraction where
  zero := .zero
  ofMixed := MixedNumber.toFraction
  apply := Fraction.apply

/-- The operators on rational numbers, with division by zero refused. -/
def applyExactly : Operator -> Rat -> Rat -> Except Fault Rat
  | .plus, a, b => .ok (a + b)
  | .minus, a, b => .ok (a - b)
  | .times, a, b => .ok (a * b)
  | .dividedBy, a, b => if b = 0 then .error .divisionByZero else .ok (a / b)

/-- Rational numbers without bounds. -/
def exact : Arithmetic Rat where
  zero := 0
  ofMixed m :=
    if m.den = 0 then .error (.invalidParts .zeroDenominator) else .ok m.wide.value
  apply := applyExactly

/-- Fractions in lowest terms after every single operation.  An operation is refused exactly
when its result, in lowest terms, does not fit. -/
def reduced : Arithmetic Fraction where
  zero := .zero
  ofMixed m := (exact.ofMixed m).bind Fraction.ofRat
  apply op a b := (applyExactly op a.value b.value).bind Fraction.ofRat

end Arithmetic

end MixedCalculator

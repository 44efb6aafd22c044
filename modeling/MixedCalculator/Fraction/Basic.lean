import MixedCalculator.Fault
import MixedCalculator.Text.Numeral

namespace MixedCalculator

/-!
# Fractions

A fraction is a signed numerator over a positive denominator, both within the bounds of a
thirty-two bit signed integer.  It need not be in lowest terms: an operation multiplies out
its operands and keeps the pair so obtained whenever it fits.  Only a pair that does not fit
is put in lowest terms, and only lowest terms that do not fit either are refused.

The unbounded pair between multiplying out and fitting is a `WideFraction`.  Its value is an
exact rational number, and lowest terms are the numerator and denominator of that number.
-/

/-- The numerators and denominators that a fraction can hold. -/
def Fits (num : Int) (den : Nat) : Prop :=
  -2147483648 ≤ num ∧ num ≤ 2147483647 ∧ 0 < den ∧ den ≤ 2147483647

instance (num : Int) (den : Nat) : Decidable (Fits num den) := by
  unfold Fits
  infer_instance

/-- A numerator over a positive denominator, within bounds and not necessarily reduced. -/
structure Fraction where
  num : Int
  den : Nat
  fits : Fits num den
  deriving DecidableEq, Repr

/-- A numerator over a denominator without bounds, as multiplying out produces it. -/
structure WideFraction where
  num : Int
  den : Nat
  deriving DecidableEq, Repr

namespace Fraction

theorem den_pos (a : Fraction) : 0 < a.den := a.fits.2.2.1

theorem den_ne_zero (a : Fraction) : a.den ≠ 0 := Nat.ne_of_gt a.den_pos

/-- The rational number that a fraction denotes. -/
def value (a : Fraction) : Rat := mkRat a.num a.den

/-- A whole number over one. -/
def ofInt (n : Int) (fits : Fits n 1) : Fraction := ⟨n, 1, fits⟩

/-- Zero over one, the value of an empty sum. -/
def zero : Fraction := ofInt 0 (by decide)

instance : Inhabited Fraction := ⟨zero⟩

/-- A rational number in lowest terms, if these terms fit. -/
def ofRat (q : Rat) : Except Fault Fraction :=
  if fits : Fits q.num q.den then .ok ⟨q.num, q.den, fits⟩ else .error .overflow

def isZero (a : Fraction) : Bool := a.num == 0

def isNegative (a : Fraction) : Bool := decide (a.num < 0)

/-- Two fractions denote the same number when their cross products agree.  Equality of
fractions is equality of numerators and denominators, which is finer. -/
def SameValue (a b : Fraction) : Prop :=
  a.num * b.den = b.num * a.den

instance (a b : Fraction) : Decidable (SameValue a b) := by
  unfold SameValue
  infer_instance

/-- Agreement of the cross products is equality of the rational values. -/
theorem sameValue_iff (a b : Fraction) : SameValue a b ↔ a.value = b.value :=
  (Rat.mkRat_eq_iff a.den_ne_zero b.den_ne_zero).symm

/-- The written form: the numerator alone over a denominator of one, otherwise both parts
with a slash between them. -/
def chars (a : Fraction) : List Char :=
  if a.den = 1 then Numeral.ofInt a.num
  else Numeral.ofInt a.num ++ '/' :: Numeral.ofNat a.den

def text (a : Fraction) : String := String.ofList a.chars

end Fraction

namespace WideFraction

/-- The rational number that a pair denotes. -/
def value (w : WideFraction) : Rat := mkRat w.num w.den

/-- Make a pair fit: as it stands if possible, otherwise in lowest terms, otherwise not at
all. -/
def narrow (w : WideFraction) : Except Fault Fraction :=
  if fits : Fits w.num w.den then .ok ⟨w.num, w.den, fits⟩ else Fraction.ofRat w.value

theorem narrow_of_fits (w : WideFraction) (fits : Fits w.num w.den) :
    w.narrow = .ok ⟨w.num, w.den, fits⟩ := by
  simp only [narrow, dif_pos fits]

theorem narrow_of_not_fits (w : WideFraction) (wide : ¬ Fits w.num w.den) :
    w.narrow = Fraction.ofRat w.value := by
  simp only [narrow, dif_neg wide]

end WideFraction

end MixedCalculator

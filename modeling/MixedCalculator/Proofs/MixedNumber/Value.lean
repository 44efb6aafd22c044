import Mathlib.Tactic.FieldSimp
import Mathlib.Tactic.Ring
import MixedCalculator.MixedNumber.Conversion
import MixedCalculator.Proofs.Fraction.Holding

namespace MixedCalculator

/-!
# The exact value of a mixed number

A mixed number denotes its whole part plus its fraction, under its sign.  Conversion to a
fraction keeps this value and is refused exactly when it cannot be held.  The magnitudes that
are refused before any reduction make no difference: a denominator is below two to the
thirty-second, so reduction could never have brought such a magnitude within bounds.
-/

/-- A rational number under a sign. -/
def Sign.scale : Sign -> Rat -> Rat
  | positive, q => q
  | negative, q => -q

/-- The sign of a numerator is the sign of the number. -/
theorem Sign.mkRat_apply (sign : Sign) (magnitude den : Nat) :
    mkRat (sign.apply magnitude) den = sign.scale (mkRat magnitude den) := by
  cases sign with
  | positive => rfl
  | negative => exact (Rat.neg_mkRat _ _).symm

/-- A whole part and a fraction, over the denominator of the fraction. -/
theorem mkRat_whole_add (whole num : Nat) {den : Nat} (nonzero : den ≠ 0) :
    mkRat ((whole * den + num : Nat) : Int) den = whole + num / den := by
  have den_nonzero : (den : Rat) ≠ 0 := by exact_mod_cast nonzero
  rw [Rat.mkRat_eq_div]
  push_cast
  field_simp

theorem UInt32.toNat_ne_zero {n : UInt32} (nonzero : n ≠ 0) : n.toNat ≠ 0 := by
  intro zero
  exact nonzero (UInt32.toNat_inj.mp zero)

namespace MixedNumber

/-- The number that the parts denote.  It says nothing when the denominator is zero. -/
def value (m : MixedNumber) : Rat :=
  m.sign.scale (m.whole.toNat + m.num.toNat / m.den.toNat)

/-- The single pair over the denominator has the value of the parts. -/
theorem wide_value (m : MixedNumber) (nonzero : m.den ≠ 0) : m.wide.value = m.value := by
  rw [wide, WideFraction.value, Sign.mkRat_apply, magnitude,
    mkRat_whole_add _ _ (UInt32.toNat_ne_zero nonzero)]
  rfl

/-- Reduction divides a magnitude by a factor of the denominator at most, so a magnitude that can be
reduced to a numerator within bounds is not larger than this. -/
theorem magnitude_le_of_holdable (m : MixedNumber) (nonzero : m.den ≠ 0)
    (holdable : Holdable m.wide.value) : m.magnitude ≤ 2147483648 * 4294967295 := by
  rcases holdable with ⟨lower, upper, -, -⟩
  have den_nonzero : m.wide.den ≠ 0 := UInt32.toNat_ne_zero nonzero
  rcases exists_common_factor m.wide.num den_nonzero with ⟨factor, factor_pos, num_eq, den_eq⟩
  change -2147483648 ≤ (mkRat m.wide.num m.wide.den).num at lower
  change (mkRat m.wide.num m.wide.den).num ≤ 2147483647 at upper
  have factor_le : factor ≤ 4294967295 := by
    have den_small : m.wide.den < 4294967296 := m.den.toNat_lt
    have factor_le_den : factor ≤ m.wide.den := by
      rw [den_eq]
      exact Nat.le_mul_of_pos_left factor (mkRat m.wide.num m.wide.den).den_pos
    omega
  have magnitude_eq : m.magnitude = (mkRat m.wide.num m.wide.den).num.natAbs * factor := by
    have same := congrArg Int.natAbs num_eq
    rw [Int.natAbs_mul, Int.natAbs_natCast] at same
    exact (Sign.natAbs_apply m.sign m.magnitude).symm.trans same
  rw [magnitude_eq]
  exact Nat.mul_le_mul (by omega) factor_le

/-- A magnitude that is refused at once is out of bounds over every denominator. -/
theorem not_holdable_of_magnitude (m : MixedNumber) (nonzero : m.den ≠ 0)
    (excessive : magnitudeBound < m.magnitude) : ¬ Holdable m.wide.value := by
  intro holdable
  have bounded := m.magnitude_le_of_holdable nonzero holdable
  unfold magnitudeBound at excessive
  omega

theorem toFraction_of_den_eq_zero (m : MixedNumber) (zero : m.den = 0) :
    m.toFraction = .error (.invalidParts .zeroDenominator) :=
  if_pos zero

/-- The refusal of large magnitudes anticipates what reduction would find out. -/
theorem toFraction_eq_narrow (m : MixedNumber) (nonzero : m.den ≠ 0) :
    m.toFraction = m.wide.narrow := by
  rw [toFraction, if_neg nonzero]
  by_cases excessive : magnitudeBound < m.magnitude
  · rw [if_pos excessive]
    exact (WideFraction.narrow_of_not_holdable
      (m.not_holdable_of_magnitude nonzero excessive)).symm
  · exact if_neg excessive

/-- Conversion keeps the value of a number and is refused only if it cannot be held. -/
theorem toFraction_value (m : MixedNumber) (nonzero : m.den ≠ 0) :
    m.toFraction.map Fraction.value = hold m.value := by
  rw [m.toFraction_eq_narrow nonzero, WideFraction.narrow_value, m.wide_value nonzero]

theorem overflow_of_toFraction (m : MixedNumber) (nonzero : m.den ≠ 0) {fault : Fault}
    (refused : m.toFraction = .error fault) : fault = .overflow := by
  rw [m.toFraction_eq_narrow nonzero] at refused
  exact WideFraction.overflow_of_narrow refused

end MixedNumber

end MixedCalculator

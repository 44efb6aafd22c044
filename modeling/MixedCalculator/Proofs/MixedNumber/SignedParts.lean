import MixedCalculator.Proofs.MixedNumber.Canonical
import MixedCalculator.Proofs.MixedNumber.Exactness

namespace MixedCalculator

/-!
# The signed parts of a mixed number

A mixed number is stored as one sign over magnitudes.  The construction of a fraction from parts
takes its sign from a part instead, of which one at most may be negative.  The signed parts lead
from the former to the latter, and nothing is lost: the same pair comes of both before it is made to
fit.  The sign of a zero is dropped on the way, where it makes no difference.

The pairs agree for parts of any size.  Bounds matter in the other direction only: what is shown
for a fraction can be typed in again as signed parts, because each of them fits over the
denominator.  For the least number it does so only under the sign.
-/

theorem Sign.apply_zero (sign : Sign) : sign.apply 0 = 0 := by
  cases sign <;> rfl

/-- A smaller magnitude under the sign of a numerator fits as well. -/
theorem Fits.apply_ofInt {num : Int} {den : Nat} (fits : Fits num den) {magnitude : Nat}
    (smaller : magnitude ≤ num.natAbs) : Fits ((Sign.ofInt num).apply magnitude) den := by
  rcases fits with ⟨lower, upper, den_pos, den_le⟩
  by_cases negative : num < 0
  · rw [Sign.ofInt, if_pos negative, Sign.apply]
    exact ⟨by omega, by omega, den_pos, den_le⟩
  · rw [Sign.ofInt, if_neg negative, Sign.apply]
    exact ⟨by omega, by omega, den_pos, den_le⟩

namespace MixedNumber

/-! ## Back to the stored parts -/

theorem natAbs_signedWhole (m : MixedNumber) : m.signedWhole.natAbs = m.whole.toNat :=
  Sign.natAbs_apply m.sign m.whole.toNat

theorem natAbs_signedNum (m : MixedNumber) : m.signedNum.natAbs = m.num.toNat := by
  unfold signedNum
  split
  · exact Sign.natAbs_apply m.sign m.num.toNat
  · exact Int.natAbs_natCast m.num.toNat

/-- The signed parts have the sign of the number, unless both are zero. -/
theorem partsSign_signedParts (m : MixedNumber) (nonzero : m.magnitude ≠ 0) :
    Fraction.partsSign m.signedWhole m.signedNum = m.sign := by
  cases sign_m : m.sign with
  | positive =>
      apply if_neg
      simp only [signedWhole, signedNum, sign_m, Sign.apply, ite_self, Int.natCast_nonneg, Int.not_lt,
        not_or, and_self]
  | negative =>
      apply if_pos
      by_cases no_whole : m.whole = 0
      · have num_eq : m.signedNum = -(m.num.toNat : Int) := by
          rw [signedNum, if_pos no_whole, sign_m, Sign.apply]
        have magnitude_eq : m.magnitude = m.num.toNat := by
          rw [magnitude, no_whole, UInt32.toNat_zero, Nat.zero_mul, Nat.zero_add]
        omega
      · have whole_nonzero := UInt32.toNat_ne_zero no_whole
        have whole_eq : m.signedWhole = -(m.whole.toNat : Int) := by
          rw [signedWhole, sign_m, Sign.apply]
        omega

/-- The pair that the signed parts make is the pair of the stored parts. -/
theorem wideParts_signedParts (m : MixedNumber) :
    Fraction.wideParts m.signedWhole m.signedNum m.den.toNat = m.wide := by
  rw [Fraction.wideParts_eq m.not_both_signed_parts_negative, natAbs_signedWhole,
    natAbs_signedNum]
  change (⟨(Fraction.partsSign m.signedWhole m.signedNum).apply m.magnitude, m.den.toNat⟩ :
    WideFraction) = ⟨m.sign.apply m.magnitude, m.den.toNat⟩
  by_cases zero : m.magnitude = 0
  · rw [zero, Sign.apply_zero, Sign.apply_zero]
  · rw [m.partsSign_signedParts zero]

/-- The signed parts make the fraction that the number converts to, or are refused alike. -/
theorem ofParts_signedParts (m : MixedNumber) :
    Fraction.ofParts m.signedWhole m.signedNum m.den.toNat = m.toFraction := by
  have nonnegative : ¬ (m.den.toNat : Int) < 0 := by omega
  by_cases zero : m.den = 0
  · rw [m.toFraction_of_den_eq_zero zero, zero]
    rfl
  · have den_nonzero : (m.den.toNat : Int) ≠ 0 := Int.natCast_ne_zero.mpr (UInt32.toNat_ne_zero zero)
    rw [Fraction.ofParts, if_neg den_nonzero, if_neg nonnegative,
      if_neg m.not_both_signed_parts_negative, Int.toNat_natCast, wideParts_signedParts,
      m.toFraction_eq_narrow zero]

/-- No number is refused for two negative parts. -/
theorem toFraction_ne_twoNegativeParts (m : MixedNumber) :
    m.toFraction ≠ .error (.invalidParts .twoNegativeParts) := by
  intro refused
  by_cases zero : m.den = 0
  · rw [m.toFraction_of_den_eq_zero zero] at refused
    cases refused
  · cases m.overflow_of_toFraction zero refused

/-! ## The signed parts of a result -/

section

variable {q : Rat}

theorem fits_signedWhole_ofRat (holdable : Holdable q) :
    Fits (ofRat q).signedWhole (ofRat q).den.toNat := by
  rw [signedWhole, sign_ofRat holdable, toNat_whole_ofRat holdable, toNat_den_ofRat holdable]
  exact Fits.apply_ofInt holdable (Nat.div_le_self _ _)

theorem fits_signedNum_ofRat (holdable : Holdable q) :
    Fits (ofRat q).signedNum (ofRat q).den.toNat := by
  rw [signedNum, sign_ofRat holdable, toNat_num_ofRat holdable, toNat_den_ofRat holdable]
  split
  · exact Fits.apply_ofInt holdable (Nat.mod_le _ _)
  · have proper : q.num.natAbs % q.den < q.den := Nat.mod_lt _ q.den_pos
    rcases holdable with ⟨-, -, den_pos, den_le⟩
    exact ⟨by omega, by omega, den_pos, den_le⟩

end

/-- Whether a number is given by its stored parts or by its signed ones makes no difference, not
even to the terms of the fraction or to the refusal.  The signed parts of a result fit over its
denominator, one of them at most is negative, and together they make a fraction of the same
value. -/
theorem signed_parts_denote_the_number (m : MixedNumber) (a : Fraction) :
    Fraction.ofParts m.signedWhole m.signedNum m.den.toNat = m.toFraction ∧
      Fraction.ofParts m.signedWhole m.signedNum m.den.toNat ≠
        .error (.invalidParts .twoNegativeParts) ∧
      Fits a.toMixed.signedWhole a.toMixed.den.toNat ∧
      Fits a.toMixed.signedNum a.toMixed.den.toNat ∧
      ¬ (a.toMixed.signedWhole < 0 ∧ a.toMixed.signedNum < 0) ∧
      ∃ back, Fraction.ofParts a.toMixed.signedWhole a.toMixed.signedNum a.toMixed.den.toNat =
        .ok back ∧ back.SameValue a := by
  refine ⟨m.ofParts_signedParts, ?_, fits_signedWhole_ofRat a.holdable_value,
    fits_signedNum_ofRat a.holdable_value, a.toMixed.not_both_signed_parts_negative, a.reduce, ?_,
    (Fraction.sameValue_iff a.reduce a).mpr a.reduce_value⟩
  · rw [m.ofParts_signedParts]
    exact m.toFraction_ne_twoNegativeParts
  · rw [a.toMixed.ofParts_signedParts]
    exact a.toFraction_toMixed

/-- The signed parts of `-715827882 2/3` make the least numerator over three. -/
example : Fraction.ofParts (-715827882) 2 3 = .ok ⟨-2147483648, 3, by decide⟩ := rfl

end MixedNumber
end MixedCalculator

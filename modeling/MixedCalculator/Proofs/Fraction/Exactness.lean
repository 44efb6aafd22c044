import Mathlib.Tactic.NormNum
import MixedCalculator.Proofs.MixedNumber.Value

namespace MixedCalculator

/-!
# Operations are exact until they overflow

An operation multiplies out its operands, which may make terms far larger than those of its result.
Nevertheless it is refused only if the result itself, in lowest terms, cannot be held.  Otherwise it
gives a fraction of exactly that value, with the terms of multiplying out as long as they fit.  The
same is true of the construction from parts.
-/

/-- An exact result becomes a fraction: overflow exactly if the result cannot be held, and else a
fraction of that value.  Its terms are those of multiplying out, or lowest terms if these do not
fit. -/
structure Computes (outcome : Except Fault Fraction) (result : Rat) (num : Int) (den : Nat) :
    Prop where
  overflow_iff : outcome = .error .overflow ↔ ¬ Fits result.num result.den
  exists_eq_ok : Fits result.num result.den -> ∃ a : Fraction, outcome = .ok a ∧
    a.value = result ∧ 1 ≤ a.den ∧ (Fits num den -> a.num = num ∧ a.den = den) ∧
      (¬ Fits num den -> a.num = result.num ∧ a.den = result.den)

/-- Terms that fit are not reduced, but reduced they would fit as well. -/
theorem WideFraction.computes_narrow (w : WideFraction) :
    Computes w.narrow w.value w.num w.den := by
  by_cases fits : Fits w.num w.den
  · have holdable : Holdable w.value := holdable_of_fits fits
    rw [w.narrow_of_fits fits]
    refine ⟨iff_of_false (fun impossible => by cases impossible) (not_not_intro holdable), ?_⟩
    intro _
    exact ⟨_, rfl, rfl, fits.2.2.1, fun _ => ⟨rfl, rfl⟩, fun wide => absurd fits wide⟩
  · rw [w.narrow_of_not_fits fits]
    by_cases holdable : Holdable w.value
    · rw [Fraction.ofRat_of_holdable holdable]
      refine ⟨iff_of_false (fun impossible => by cases impossible) (not_not_intro holdable), ?_⟩
      intro _
      exact ⟨_, rfl, Rat.mkRat_self w.value, w.value.den_pos, fun narrow => absurd narrow fits,
        fun _ => ⟨rfl, rfl⟩⟩
    · rw [Fraction.ofRat_of_not_holdable holdable]
      exact ⟨iff_of_true rfl holdable, fun impossible => absurd impossible holdable⟩

namespace Fraction

/-! ## The operations -/

theorem computes_add (a b : Fraction) :
    Computes (a.add b) (a.value + b.value) (a.num * b.den + b.num * a.den) (a.den * b.den) := by
  rw [← crossSum_value]
  exact (crossSum a b).computes_narrow

theorem computes_sub (a b : Fraction) :
    Computes (a.sub b) (a.value - b.value) (a.num * b.den - b.num * a.den) (a.den * b.den) := by
  rw [← crossDifference_value]
  exact (crossDifference a b).computes_narrow

theorem computes_mul (a b : Fraction) :
    Computes (a.mul b) (a.value * b.value) (a.num * b.num) (a.den * b.den) := by
  rw [← crossProduct_value]
  exact (crossProduct a b).computes_narrow

/-- The sign of the divisor stands with the numerator. -/
theorem computes_div (a : Fraction) {b : Fraction} (nonzero : b.num ≠ 0) :
    Computes (a.div b) (a.value / b.value) (a.num * b.den * b.num.sign)
      (a.den * b.num.natAbs) := by
  rw [div, if_neg nonzero, ← crossQuotient_value]
  exact (crossQuotient a b).computes_narrow

/-- What is refused otherwise than as an overflow is a division by zero. -/
theorem div_eq_divisionByZero_iff (a b : Fraction) :
    a.div b = .error .divisionByZero ↔ b.num = 0 := by
  constructor
  · intro refused
    by_contra nonzero
    rw [div, if_neg nonzero] at refused
    cases WideFraction.overflow_of_narrow refused
  · exact fun zero => if_pos zero

/-! ## Construction from parts -/

/-- The sign of a number that has a signed whole part and a signed numerator: that of either. -/
def partsSign (whole num : Int) : Sign :=
  if whole < 0 ∨ num < 0 then .negative else .positive

/-- Under their common sign, the magnitudes of the parts are added. -/
theorem wideParts_eq {whole num : Int} (oneSign : ¬ (whole < 0 ∧ num < 0)) (den : Nat) :
    wideParts whole num den =
      ⟨(partsSign whole num).apply (whole.natAbs * den + num.natAbs), den⟩ := by
  unfold wideParts partsSign
  by_cases whole_negative : whole < 0
  · have num_nonnegative : 0 ≤ num := Int.not_lt.mp fun negative => oneSign ⟨whole_negative, negative⟩
    rw [if_pos whole_negative, if_pos (Or.inl whole_negative), Sign.apply, Int.natCast_add,
      Int.natCast_mul, Int.ofNat_natAbs_of_nonpos (Int.le_of_lt whole_negative),
      Int.natAbs_of_nonneg num_nonnegative]
    congr 1
    ring
  · have whole_nonnegative : 0 ≤ whole := Int.not_lt.mp whole_negative
    rw [if_neg whole_negative]
    by_cases num_negative : num < 0
    · rw [if_pos num_negative, if_pos (Or.inr num_negative), Sign.apply, Int.natCast_add,
        Int.natCast_mul, Int.natAbs_of_nonneg whole_nonnegative,
        Int.ofNat_natAbs_of_nonpos (Int.le_of_lt num_negative)]
      congr 1
      ring
    · rw [if_neg num_negative, if_neg (not_or_intro whole_negative num_negative), Sign.apply,
        Int.natCast_add, Int.natCast_mul, Int.natAbs_of_nonneg whole_nonnegative,
        Int.natAbs_of_nonneg (Int.not_lt.mp num_negative)]

theorem wideParts_value {whole num : Int} (oneSign : ¬ (whole < 0 ∧ num < 0)) {den : Nat}
    (nonzero : den ≠ 0) :
    (wideParts whole num den).value =
      (partsSign whole num).scale (whole.natAbs + num.natAbs / den) := by
  rw [wideParts_eq oneSign, WideFraction.value, Sign.mkRat_apply, mkRat_whole_add _ _ nonzero]

theorem computes_ofParts {whole num den : Int} (positive : 1 ≤ den)
    (oneSign : ¬ (whole < 0 ∧ num < 0)) :
    Computes (ofParts whole num den)
      ((partsSign whole num).scale (whole.natAbs + num.natAbs / den.toNat))
      ((partsSign whole num).apply (whole.natAbs * den.toNat + num.natAbs)) den.toNat := by
  have computes := (wideParts whole num den.toNat).computes_narrow
  rw [wideParts_value oneSign (by omega), wideParts_eq oneSign] at computes
  rw [ofParts, if_neg (by omega), if_neg (by omega), if_neg oneSign, wideParts_eq oneSign]
  exact computes

/-- Every operation on two fractions is exact until it overflows, division by anything but zero
included, and so is the construction from a positive denominator and parts of which one at most
is negative. -/
theorem operations_exact_until_overflow (a b : Fraction) :
    Computes (a.add b) (a.value + b.value) (a.num * b.den + b.num * a.den) (a.den * b.den) ∧
      Computes (a.sub b) (a.value - b.value) (a.num * b.den - b.num * a.den) (a.den * b.den) ∧
      Computes (a.mul b) (a.value * b.value) (a.num * b.num) (a.den * b.den) ∧
      (b.num ≠ 0 -> Computes (a.div b) (a.value / b.value) (a.num * b.den * b.num.sign)
        (a.den * b.num.natAbs)) ∧
      (a.div b = .error .divisionByZero ↔ b.num = 0) ∧
      ∀ whole num den : Int, 1 ≤ den -> ¬ (whole < 0 ∧ num < 0) ->
        Computes (ofParts whole num den)
          ((partsSign whole num).scale (whole.natAbs + num.natAbs / den.toNat))
          ((partsSign whole num).apply (whole.natAbs * den.toNat + num.natAbs)) den.toNat :=
  ⟨a.computes_add b, a.computes_sub b, a.computes_mul b, a.computes_div,
    a.div_eq_divisionByZero_iff b, fun _ _ _ positive oneSign => computes_ofParts positive oneSign⟩

/-- Without its sign the least whole number is out of bounds, also as the quotient by minus one.
Two parts may still add up to it under a sign, and a quotient whose terms do not fit is held once
it is reduced. -/
theorem exact_at_the_least_number :
    div ⟨-2147483648, 1, by decide⟩ ⟨-1, 1, by decide⟩ = .error .overflow ∧
      (∃ a, div ⟨65536, 65537, by decide⟩ ⟨-65536, 65537, by decide⟩ = .ok a ∧ a.num = -1 ∧
        a.den = 1) ∧
      ∃ a, ofParts (-2147483647) 1 1 = .ok a ∧ a.num = -2147483648 ∧ a.den = 1 := by
  rcases operations_exact_until_overflow ⟨-2147483648, 1, by decide⟩ ⟨-1, 1, by decide⟩ with
    ⟨-, -, -, least, -, parts⟩
  rcases operations_exact_until_overflow ⟨65536, 65537, by decide⟩ ⟨-65536, 65537, by decide⟩ with
    ⟨-, -, -, quotient, -, -⟩
  have opposite : value ⟨-2147483648, 1, by decide⟩ / value ⟨-1, 1, by decide⟩ = 2147483648 := by
    norm_num [value, Rat.mkRat_eq_div]
  have minusOne : value ⟨65536, 65537, by decide⟩ / value ⟨-65536, 65537, by decide⟩ = -1 := by
    norm_num [value, Rat.mkRat_eq_div]
  have added : (partsSign (-2147483647) 1).scale
      ((-2147483647 : Int).natAbs + (1 : Int).natAbs / (1 : Int).toNat) = -2147483648 := by
    norm_num [partsSign, Sign.scale]
  have overflows := least (by decide)
  have divides := quotient (by decide)
  have builds := parts (-2147483647) 1 1 (by decide) (by decide)
  rw [opposite] at overflows
  rw [minusOne] at divides
  rw [added] at builds
  refine ⟨overflows.overflow_iff.mpr (by decide), ?_, ?_⟩
  · rcases divides.exists_eq_ok (by decide) with ⟨a, divided, -, -, -, lowest⟩
    exact ⟨a, divided, lowest (by decide)⟩
  · rcases builds.exists_eq_ok (by decide) with ⟨a, built, -, -, raw, -⟩
    exact ⟨a, built, raw (by decide)⟩

end Fraction

end MixedCalculator

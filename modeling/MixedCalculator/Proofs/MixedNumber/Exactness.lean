import MixedCalculator.Proofs.Fraction.Exactness

namespace MixedCalculator
namespace MixedNumber

/-!
# The conversion of a mixed number is exact

A mixed number converts to a fraction of its own value as soon as there is one.  The parts may be
of any size: an improper fraction is allowed, and a magnitude far beyond the bounds as well, if only
lowest terms bring it back.  They never bring back a magnitude that is refused at once.  The largest
one that can be reduced to a numerator within bounds is that of the least numerator over the largest
denominator, `2147483648 * 4294967295`, and it is not refused yet.
-/

/-- A number without a denominator has no value.  Any other number is converted exactly, whatever
its sign and its parts, unless its value cannot be held.  None of the magnitudes that are refused
before reduction belongs to a value that can. -/
theorem toFraction_exact_until_overflow (m : MixedNumber) :
    (m.toFraction = .error (.invalidParts .zeroDenominator) ↔ m.den = 0) ∧
      (m.den ≠ 0 ->
        Computes m.toFraction m.value (m.sign.apply m.magnitude) m.den.toNat ∧
          (magnitudeBound < m.magnitude -> ¬ Holdable m.value)) := by
  have computes : m.den ≠ 0 ->
      Computes m.toFraction m.value (m.sign.apply m.magnitude) m.den.toNat := by
    intro nonzero
    rw [m.toFraction_eq_narrow nonzero, ← m.wide_value nonzero]
    exact m.wide.computes_narrow
  refine ⟨⟨?_, m.toFraction_of_den_eq_zero⟩, fun nonzero => ⟨computes nonzero, ?_⟩⟩
  · intro refused
    by_contra nonzero
    cases m.overflow_of_toFraction nonzero refused
  · intro excessive
    rw [← m.wide_value nonzero]
    exact m.not_holdable_of_magnitude nonzero excessive

/-- `2147483647 4294967295/4294967295` has the largest magnitude that can be reduced.  It is
converted under a minus, and beyond the bounds otherwise.  The next magnitude over the same
denominator is beyond them under either sign, although it is not refused at once.  That of
`4294967295 0/4294967295` is, and reduction would not have helped. -/
theorem toFraction_exact_at_the_least_number :
    (∃ a, toFraction ⟨.negative, 2147483647, 4294967295, 4294967295, false⟩ = .ok a ∧
      a.num = -2147483648 ∧ a.den = 1) ∧
    toFraction ⟨.positive, 2147483647, 4294967295, 4294967295, false⟩ = .error .overflow ∧
    toFraction ⟨.negative, 2147483648, 1, 4294967295, false⟩ = .error .overflow ∧
    ¬ Holdable (value ⟨.positive, 4294967295, 0, 4294967295, false⟩) ∧
    toFraction ⟨.negative, 0, 0, 0, true⟩ = .error (.invalidParts .zeroDenominator) := by
  rcases (toFraction_exact_until_overflow
    ⟨.negative, 2147483647, 4294967295, 4294967295, false⟩).2 (by decide) with ⟨least, -⟩
  rcases (toFraction_exact_until_overflow
    ⟨.positive, 2147483647, 4294967295, 4294967295, false⟩).2 (by decide) with ⟨opposite, -⟩
  rcases (toFraction_exact_until_overflow
    ⟨.negative, 2147483648, 1, 4294967295, false⟩).2 (by decide) with ⟨beyond, -⟩
  rcases (toFraction_exact_until_overflow
    ⟨.positive, 4294967295, 0, 4294967295, false⟩).2 (by decide) with ⟨-, anticipated⟩
  have value_least : value ⟨.negative, 2147483647, 4294967295, 4294967295, false⟩ =
      -2147483648 := by decide +kernel
  rw [value_least] at least
  have noValue := (toFraction_exact_until_overflow ⟨.negative, 0, 0, 0, true⟩).1.mpr rfl
  refine ⟨?_, opposite.overflow_iff.mpr (by decide +kernel),
    beyond.overflow_iff.mpr (by decide +kernel), anticipated (by decide), noValue⟩
  rcases least.exists_eq_ok (by decide) with ⟨a, converted, -, -, -, lowest⟩
  exact ⟨a, converted, lowest (by decide)⟩

end MixedNumber
end MixedCalculator

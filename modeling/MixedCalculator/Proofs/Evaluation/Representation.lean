import MixedCalculator.Proofs.Evaluation.Bounded
import MixedCalculator.Proofs.Evaluation.Likeness

namespace MixedCalculator

/-!
# What an evaluation does not depend on

The fractions that an evaluation carries along are reduced only where they would not fit
otherwise.  Had they been reduced at once, each would have been the same number in lowest terms,
and nothing would have been refused or accepted that was not.  Reduction is a homomorphism: it
respects every operation together with its refusals, so the comparison needs no other invariant.

The numbers of an expression may likewise be given in any parts.  Improper fractions, negative
zeros, denominators beyond the bounds and read-only marks all disappear in the value, and the
values of the numbers are all that an evaluation looks at.  A number without a denominator has
no value, and any other such number can take its place.
-/

/-! ## The time of reduction -/

namespace Fraction

/-- To reduce what comes of an operation is to put its value in lowest terms. -/
theorem map_reduce (outcome : Except Fault Fraction) :
    outcome.map reduce = (outcome.map value).bind ofRat := by
  cases outcome with
  | error fault => rfl
  | ok a => exact (ofRat_of_holdable a.holdable_value).symm

/-- Whether the lowest terms fit need not be asked twice. -/
theorem bind_hold_bind_ofRat (outcome : Except Fault Rat) :
    (outcome.bind hold).bind ofRat = outcome.bind ofRat := by
  cases outcome with
  | error fault => rfl
  | ok q =>
      change (hold q).bind ofRat = ofRat q
      by_cases holdable : Holdable q
      · rw [hold_of_holdable holdable]
        rfl
      · rw [hold_of_not_holdable holdable, ofRat_of_not_holdable holdable]
        rfl

end Fraction

/-- Reduction leads from the arithmetic of fractions to that of lowest terms.  Both compute
with the values, so what holds of these is enough. -/
theorem Arithmetic.fractions_reduced : fractions.Homomorphism Fraction.reduce reduced where
  zero := rfl
  ofMixed number := by
    rw [Fraction.map_reduce, fractions_bounded.ofMixed number]
    exact Fraction.bind_hold_bind_ofRat (exact.ofMixed number)
  apply op a b := by
    rw [Fraction.map_reduce, fractions_bounded.apply op a b]
    simp only [reduced, Fraction.reduce_value]
    exact Fraction.bind_hold_bind_ofRat (applyExactly op a.value b.value)

namespace Expression

/-- The value of an expression, or the first fault in it, if every operand and every result is
put in lowest terms at once. -/
def evaluateReduced (members : Expression) : Except Fault Fraction :=
  (Evaluation.run .reduced members).outcome

theorem evaluate_map_reduce (members : Expression) :
    members.evaluate.map Fraction.reduce = members.evaluateReduced :=
  Evaluation.run_map Arithmetic.fractions_reduced members

theorem sameOutcome_map_reduce (outcome : Except Fault Fraction) :
    SameOutcome outcome (outcome.map Fraction.reduce) := by
  cases outcome with
  | error fault => exact rfl
  | ok a => exact (a.sameValue_iff a.reduce).mpr a.reduce_value.symm

/-- To reduce at once comes to the same as to reduce only where it is needed: to one fault, or
to fractions of one value, of which the former is the latter in lowest terms. -/
theorem sameOutcome_evaluateReduced (members : Expression) :
    SameOutcome members.evaluate members.evaluateReduced ∧
      members.evaluateReduced = members.evaluate.map Fraction.reduce := by
  rw [← members.evaluate_map_reduce]
  exact ⟨sameOutcome_map_reduce members.evaluate, rfl⟩

end Expression

/-! ## The parts of numbers -/

/-- The same operator, numbers of the same value, or numbers that have none. -/
inductive Member.Agrees : Member -> Member -> Prop
  | number {first second : MixedNumber} :
      first.den ≠ 0 -> second.den ≠ 0 -> first.value = second.value ->
        Agrees (.number first) (.number second)
  | undefined {first second : MixedNumber} :
      first.den = 0 -> second.den = 0 -> Agrees (.number first) (.number second)
  | operator (op : Operator) : Agrees (.operator op) (.operator op)

/-- Expressions of the same length whose members agree at every position. -/
def Expression.Agrees : Expression -> Expression -> Prop :=
  List.Forall₂ Member.Agrees

/-- Numbers of the same value convert to the same number, or are both out of bounds. -/
theorem Member.Agrees.alike {first second : Member} (agrees : first.Agrees second) :
    first.Alike .bounded second := by
  cases agrees with
  | operator op => exact .operator op
  | number first_nonzero second_nonzero same =>
      apply Member.Alike.number
      rw [Arithmetic.bounded_ofMixed _ first_nonzero, Arithmetic.bounded_ofMixed _ second_nonzero,
        same]
  | undefined first_zero second_zero =>
      apply Member.Alike.number
      rw [Arithmetic.bounded_ofMixed_of_den_eq_zero _ first_zero,
        Arithmetic.bounded_ofMixed_of_den_eq_zero _ second_zero]

namespace Expression

/-- Expressions that agree in their operators and in the values of their numbers evaluate to
fractions of one value, or to one fault. -/
theorem sameOutcome_of_agrees {first second : Expression} (agrees : first.Agrees second) :
    SameOutcome first.evaluate second.evaluate := by
  rw [sameOutcome_evaluate_iff]
  exact Evaluation.outcome_run_of_alike (agrees.imp fun _ _ => Member.Agrees.alike)

/-- `1 / -1 2/4`, in which the one has parts that do not fit and the mark of a result. -/
def unreducedQuotient : Expression :=
  [.number ⟨.positive, 0, 4294967295, 4294967295, true⟩, .operator .dividedBy,
    .number ⟨.negative, 1, 2, 4, false⟩]

/-- `1 / -3/2`. -/
def plainQuotient : Expression :=
  [.number (.positive 1 0 1), .operator .dividedBy, .number ⟨.negative, 0, 3, 2, false⟩]

/-- The two quotients differ in their terms, but not in their value. -/
theorem sameOutcome_of_unreduced_parts :
    unreducedQuotient.evaluate = .ok ⟨-4, 6, by decide⟩ ∧
      plainQuotient.evaluate = .ok ⟨-2, 3, by decide⟩ ∧
      unreducedQuotient.Agrees plainQuotient ∧
      SameOutcome unreducedQuotient.evaluate plainQuotient.evaluate := by
  have one : MixedNumber.value ⟨.positive, 0, 4294967295, 4294967295, true⟩ =
      (MixedNumber.positive 1 0 1).value := by
    decide +kernel
  have divisor : MixedNumber.value ⟨.negative, 1, 2, 4, false⟩ =
      MixedNumber.value ⟨.negative, 0, 3, 2, false⟩ := by
    decide +kernel
  have agrees : unreducedQuotient.Agrees plainQuotient :=
    .cons (.number (by decide) (by decide) one)
      (.cons (.operator .dividedBy) (.cons (.number (by decide) (by decide) divisor) .nil))
  exact ⟨rfl, rfl, agrees, sameOutcome_of_agrees agrees⟩

end Expression

end MixedCalculator

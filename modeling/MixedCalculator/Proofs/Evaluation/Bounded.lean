import MixedCalculator.Proofs.Evaluation.Transport
import MixedCalculator.Proofs.MixedNumber.Value

namespace MixedCalculator

/-!
# Evaluation over bounded rational numbers

The bounded arithmetic computes with exact rational numbers and refuses every number that
cannot be held.  It knows nothing of pairs and of when they are reduced.  The value of a
fraction maps the arithmetic of fractions to it, so an expression evaluates to a fraction of
some value, or to some fault, exactly when it does so here.
-/

namespace Arithmetic

/-- Rational numbers, as far as they can be held. -/
def bounded : Arithmetic Rat where
  zero := 0
  ofMixed number := (exact.ofMixed number).bind hold
  apply op a b := (applyExactly op a b).bind hold

theorem bounded_ofMixed_of_den_eq_zero (number : MixedNumber) (zero : number.den = 0) :
    bounded.ofMixed number = .error (.invalidParts .zeroDenominator) := by
  simp only [bounded, exact, if_pos zero]
  rfl

theorem bounded_ofMixed (number : MixedNumber) (nonzero : number.den ≠ 0) :
    bounded.ofMixed number = hold number.value := by
  simp only [bounded, exact, if_neg nonzero, number.wide_value nonzero]
  rfl

theorem bounded_dividedBy (a b : Rat) (nonzero : b ≠ 0) :
    bounded.apply .dividedBy a b = hold (a / b) := by
  simp only [bounded, applyExactly, if_neg nonzero]
  rfl

theorem bounded_dividedBy_zero (a : Rat) :
    bounded.apply .dividedBy a 0 = .error .divisionByZero := rfl

/-- Fractions compute with their values. -/
theorem fractions_bounded : fractions.Homomorphism Fraction.value bounded where
  zero := Fraction.zero_value
  ofMixed number := by
    by_cases zero : number.den = 0
    · rw [bounded_ofMixed_of_den_eq_zero number zero]
      exact congrArg (Except.map Fraction.value) (number.toFraction_of_den_eq_zero zero)
    · rw [bounded_ofMixed number zero]
      exact number.toFraction_value zero
  apply op a b := by
    cases op with
    | plus => exact a.add_value b
    | minus => exact a.sub_value b
    | times => exact a.mul_value b
    | dividedBy =>
        by_cases zero : b.value = 0
        · rw [zero, bounded_dividedBy_zero]
          exact congrArg (Except.map Fraction.value) (a.div_of_value_eq_zero b zero)
        · rw [bounded_dividedBy _ _ zero]
          exact a.div_value b zero

end Arithmetic

/-- Two evaluations come to the same: to fractions of one value, or to one fault. -/
def SameOutcome : Except Fault Fraction -> Except Fault Fraction -> Prop
  | .ok first, .ok second => first.SameValue second
  | .error first, .error second => first = second
  | _, _ => False

instance : ∀ first second, Decidable (SameOutcome first second)
  | .ok first, .ok second => inferInstanceAs (Decidable (first.SameValue second))
  | .error first, .error second => inferInstanceAs (Decidable (first = second))
  | .ok _, .error _ => inferInstanceAs (Decidable False)
  | .error _, .ok _ => inferInstanceAs (Decidable False)

theorem sameOutcome_iff (first second : Except Fault Fraction) :
    SameOutcome first second ↔ first.map Fraction.value = second.map Fraction.value := by
  cases first <;> cases second <;>
    simp only [SameOutcome, Except.map, Fraction.sameValue_iff, Except.ok.injEq,
      Except.error.injEq, reduceCtorEq]

namespace Expression

/-- The value of an expression among the rational numbers that can be held, or the first fault
in it. -/
def evaluateBounded (members : Expression) : Except Fault Rat :=
  (Evaluation.run .bounded members).outcome

theorem evaluate_map_value (members : Expression) :
    members.evaluate.map Fraction.value = members.evaluateBounded :=
  Evaluation.run_map Arithmetic.fractions_bounded members

theorem sameOutcome_evaluate_iff (first second : Expression) :
    SameOutcome first.evaluate second.evaluate ↔
      first.evaluateBounded = second.evaluateBounded := by
  rw [sameOutcome_iff, evaluate_map_value, evaluate_map_value]

/-- The two evaluations fail alike. -/
theorem evaluate_eq_error_iff (members : Expression) (fault : Fault) :
    members.evaluate = .error fault ↔ members.evaluateBounded = .error fault := by
  rw [← evaluate_map_value]
  cases members.evaluate with
  | error other => simp only [Except.map, Except.error.injEq]
  | ok total => simp only [Except.map, reduceCtorEq]

/-- A fraction that an evaluation gives has the value that the bounded evaluation gives. -/
theorem evaluateBounded_of_evaluate {members : Expression} {total : Fraction}
    (evaluated : members.evaluate = .ok total) :
    members.evaluateBounded = .ok total.value := by
  rw [← evaluate_map_value, evaluated]
  rfl

theorem exists_evaluate_of_evaluateBounded {members : Expression} {q : Rat}
    (bounded : members.evaluateBounded = .ok q) :
    ∃ total, members.evaluate = .ok total ∧ total.value = q := by
  cases evaluated : members.evaluate with
  | ok total =>
      rw [evaluateBounded_of_evaluate evaluated, Except.ok.injEq] at bounded
      exact ⟨total, rfl, bounded⟩
  | error fault =>
      rw [(evaluate_eq_error_iff members fault).mp evaluated] at bounded
      cases bounded

theorem exists_evaluate_iff (members : Expression) :
    (∃ total, members.evaluate = .ok total) ↔ ∃ q, members.evaluateBounded = .ok q := by
  constructor
  · rintro ⟨total, evaluated⟩
    exact ⟨total.value, evaluateBounded_of_evaluate evaluated⟩
  · rintro ⟨q, bounded⟩
    rcases exists_evaluate_of_evaluateBounded bounded with ⟨total, evaluated, -⟩
    exact ⟨total, evaluated⟩

end Expression

end MixedCalculator

import MixedCalculator.Proofs.Evaluation.Structure
import MixedCalculator.Proofs.Fraction.Neutral

namespace MixedCalculator

/-!
# Evaluation of an expression by its parts

The members are read once, without a view of where a term ends.  Nevertheless an expression
evaluates as its parts do by themselves: a signed term behind a well-formed expression is added
to the fraction that the expression alone has, and a further factor multiplies or divides the
fraction that the term alone has.  The parts fail in the order in which they stand.

The fractions agree in their terms.  A part that is evaluated by itself is added to zero, which
keeps its terms, so it makes no difference whether that has happened.
-/

namespace Evaluation

variable {Value : Type} (arithmetic : Arithmetic Value)

/-- A signed term behind a well-formed expression is computed once the expression has been, and
then added to it. -/
theorem outcome_run_append_term {members : Expression} (wellFormed : WellFormed members)
    (sign : Sign) (term : Term) :
    (run arithmetic (members ++ .operator (.ofSign sign) :: term.members)).outcome =
      (run arithmetic members).outcome.bind fun total =>
        (term.evaluate arithmetic).bind (arithmetic.apply (.ofSign sign) total) := by
  rcases wellFormed.exists_signedSum with ⟨sum, rfl⟩
  rw [outcome_run_members]
  exact outcome_run_members arithmetic (.add sum sign term)

end Evaluation

namespace Expression

/-- A term by itself is added to zero, which leaves its fraction as it is. -/
theorem evaluate_term (term : Term) : evaluate term.members = term.evaluate .fractions := by
  change (Evaluation.run .fractions (SignedSum.single term).members).outcome = _
  rw [Evaluation.outcome_run_members, SignedSum.evaluate]
  cases term.evaluate .fractions with
  | error fault => rfl
  | ok product => exact Fraction.zero_plus product

theorem evaluate_append_term {members : Expression} (wellFormed : WellFormed members)
    (sign : Sign) (term : Term) :
    evaluate (members ++ .operator (.ofSign sign) :: term.members) =
      (evaluate members).bind fun total =>
        (evaluate term.members).bind (Fraction.apply (.ofSign sign) total) := by
  rw [evaluate_term]
  exact Evaluation.outcome_run_append_term .fractions wellFormed sign term

/-- An expression is evaluated by evaluating its parts and combining what comes of them: a sum by
its last term, and a term by its last factor.  The earlier part is evaluated first, so its
fault is the one that is reported. -/
theorem evaluate_by_parts {members : Expression} (wellFormed : WellFormed members)
    (term : Term) (number : MixedNumber) :
    evaluate (members ++ .operator .plus :: term.members) =
        (do
          let total ← evaluate members
          let product ← evaluate term.members
          total.add product) ∧
      evaluate (members ++ .operator .minus :: term.members) =
        (do
          let total ← evaluate members
          let product ← evaluate term.members
          total.sub product) ∧
      evaluate (term.members ++ [.operator .times, .number number]) =
        (do
          let product ← evaluate term.members
          let factor ← number.toFraction
          product.mul factor) ∧
      evaluate (term.members ++ [.operator .dividedBy, .number number]) =
        (do
          let product ← evaluate term.members
          let divisor ← number.toFraction
          product.div divisor) := by
  refine ⟨evaluate_append_term wellFormed .positive term,
    evaluate_append_term wellFormed .negative term, ?_, ?_⟩
  · rw [evaluate_term]
    exact evaluate_term (.times term number)
  · rw [evaluate_term]
    exact evaluate_term (.dividedBy term number)

/-- `1/2 + 1/2`, whose value one is held as `4/4`. -/
def twoHalves : SignedSum :=
  .add (.single (.number (.positive 0 1 2))) .positive (.number (.positive 0 1 2))

/-- `2147483647 + 1`, which is out of bounds. -/
def beyondBounds : SignedSum :=
  .add (.single (.number (.positive 2147483647 0 1))) .positive (.number (.positive 1 0 1))

/-- `1 / 0`. -/
def quotientByZero : Term :=
  .dividedBy (.number (.positive 1 0 1)) (.positive 0 0 1)

/-- In `1/2 + 1/2 - 3/4` the terms `4/4` are carried into the difference.  In
`2147483647 + 1 + 1 / 0` both parts fail, and the first fault is reported. -/
theorem evaluate_by_parts_in_order :
    WellFormed twoHalves.members ∧ WellFormed beyondBounds.members ∧
      evaluate (twoHalves.members ++ .operator .minus :: (Term.number (.positive 0 3 4)).members) =
        Fraction.sub ⟨4, 4, by decide⟩ ⟨3, 4, by decide⟩ ∧
      evaluate quotientByZero.members = .error .divisionByZero ∧
      evaluate (beyondBounds.members ++ .operator .plus :: quotientByZero.members) =
        .error .overflow := by
  have halves : WellFormed twoHalves.members := WellFormed.members twoHalves
  have beyond : WellFormed beyondBounds.members := WellFormed.members beyondBounds
  have difference := (evaluate_by_parts halves (.number (.positive 0 3 4)) .zero).2.1
  have sum := (evaluate_by_parts beyond quotientByZero .zero).1
  exact ⟨halves, beyond, difference.trans rfl, rfl, sum.trans rfl⟩

end Expression

end MixedCalculator

import MixedCalculator.Proofs.Evaluation.Bounded
import MixedCalculator.Proofs.Evaluation.Structure

namespace MixedCalculator

/-!
# Evaluation is exact and complete

An expression has a value precisely when it is well formed, all of its numbers have values, no
divisor is zero, and every operand, partial product and partial sum can be held.  The value is
then the exact sum of the signed terms.  In particular nothing is refused because a pair was
carried along unreduced.

The argument runs over the bounded rational numbers, on the structure of the expression.  Only
that all numbers have values is read off the members instead, where it is stated.
-/

namespace Arithmetic

/-- A sign between two terms adds the second under it. -/
theorem bounded_ofSign (sign : Sign) (a b : Rat) :
    bounded.apply (.ofSign sign) a b = hold (a + sign.scale b) := by
  cases sign with
  | positive => rfl
  | negative => exact congrArg hold (sub_eq_add_neg a b)

theorem den_ne_zero_of_bounded {number : MixedNumber} {q : Rat}
    (converted : bounded.ofMixed number = .ok q) : number.den ≠ 0 := by
  intro zero
  rw [bounded_ofMixed_of_den_eq_zero number zero] at converted
  cases converted

theorem bounded_ofMixed_eq_ok_iff {number : MixedNumber} (nonzero : number.den ≠ 0) (q : Rat) :
    bounded.ofMixed number = .ok q ↔ Holdable number.value ∧ number.value = q := by
  rw [bounded_ofMixed number nonzero, hold_eq_ok_iff]

end Arithmetic

namespace Term

/-- A chain of factors is computed exactly as far as all partial products can be held. -/
theorem evaluate_bounded_iff {term : Term} (defined : term.Defined) (q : Rat) :
    term.evaluate .bounded = .ok q ↔ term.Bounded ∧ term.value = q := by
  induction term generalizing q with
  | number n => exact Arithmetic.bounded_ofMixed_eq_ok_iff defined q
  | times chain n inductionHypothesis =>
      have computed : ∀ product operand,
          Arithmetic.bounded.apply .times product operand = hold (product * operand) :=
        fun _ _ => rfl
      simp only [evaluate, Except.bind_eq_ok_iff, inductionHypothesis defined.1,
        Arithmetic.bounded_ofMixed_eq_ok_iff defined.2, computed, hold_eq_ok_iff, Bounded, value]
      constructor
      · rintro ⟨_, ⟨chain_bounded, rfl⟩, _, ⟨operand_holdable, rfl⟩, product_holdable, rfl⟩
        exact ⟨⟨chain_bounded, operand_holdable, product_holdable⟩, rfl⟩
      · rintro ⟨⟨chain_bounded, operand_holdable, product_holdable⟩, rfl⟩
        exact ⟨_, ⟨chain_bounded, rfl⟩, _, ⟨operand_holdable, rfl⟩, product_holdable, rfl⟩
  | dividedBy chain n inductionHypothesis =>
      have computed := fun product => Arithmetic.bounded_dividedBy product n.value defined.2.2
      simp only [evaluate, Except.bind_eq_ok_iff, inductionHypothesis defined.1,
        Arithmetic.bounded_ofMixed_eq_ok_iff defined.2.1, Bounded, value]
      constructor
      · rintro ⟨_, ⟨chain_bounded, rfl⟩, _, ⟨operand_holdable, rfl⟩, divided⟩
        rw [computed, hold_eq_ok_iff] at divided
        exact ⟨⟨chain_bounded, operand_holdable, divided.1⟩, divided.2⟩
      · rintro ⟨⟨chain_bounded, operand_holdable, quotient_holdable⟩, rfl⟩
        refine ⟨_, ⟨chain_bounded, rfl⟩, _, ⟨operand_holdable, rfl⟩, ?_⟩
        rw [computed]
        exact hold_of_holdable quotient_holdable

end Term

namespace SignedSum

/-- The last term of a sum is computed and added to what precedes it. -/
theorem add_bounded_iff {term : Term} (defined : term.Defined) (sign : Sign) (total q : Rat) :
    (term.evaluate .bounded).bind (Arithmetic.bounded.apply (.ofSign sign) total) = .ok q ↔
      term.Bounded ∧ Holdable (total + sign.scale term.value) ∧
        total + sign.scale term.value = q := by
  simp only [Except.bind_eq_ok_iff, Term.evaluate_bounded_iff defined,
    Arithmetic.bounded_ofSign, hold_eq_ok_iff]
  constructor
  · rintro ⟨_, ⟨bounded, rfl⟩, holdable, rfl⟩
    exact ⟨bounded, holdable, rfl⟩
  · rintro ⟨bounded, holdable, rfl⟩
    exact ⟨_, ⟨bounded, rfl⟩, holdable, rfl⟩

/-- A sum is computed exactly as far as all terms and all partial sums can be held. -/
theorem evaluate_bounded_iff {sum : SignedSum} (defined : sum.Defined) (q : Rat) :
    sum.evaluate .bounded = .ok q ↔ sum.Bounded ∧ sum.value = q := by
  induction sum generalizing q with
  | single term =>
      have first := add_bounded_iff defined .positive 0 q
      simp only [Sign.scale, zero_add] at first
      exact first.trans and_assoc.symm
  | signed sign term =>
      have first := add_bounded_iff defined sign 0 q
      simp only [zero_add] at first
      exact first.trans and_assoc.symm
  | add sum sign term inductionHypothesis =>
      simp only [evaluate, Except.bind_eq_ok_iff, inductionHypothesis defined.1,
        add_bounded_iff defined.2, Bounded, value]
      constructor
      · rintro ⟨_, ⟨sum_bounded, rfl⟩, term_bounded, total_holdable, rfl⟩
        exact ⟨⟨sum_bounded, term_bounded, total_holdable⟩, rfl⟩
      · rintro ⟨⟨sum_bounded, term_bounded, total_holdable⟩, rfl⟩
        exact ⟨_, ⟨sum_bounded, rfl⟩, term_bounded, total_holdable, rfl⟩

end SignedSum

namespace Expression

open Evaluation

/-- An evaluation that succeeds has read every member. -/
theorem exists_reads_of_evaluateBounded {before after : Expression} {member : Member} {q : Rat}
    (evaluated : evaluateBounded (before ++ member :: after) = .ok q) :
    ∃ reached next, Reads .bounded reached member next ∧
      ∃ last, (advance .bounded next after).outcome = .ok last := by
  rw [evaluateBounded, outcome_run, outcome_advance_append] at evaluated
  rcases Except.bind_eq_ok_iff.mp evaluated with ⟨last, advanced, -⟩
  rcases Except.bind_eq_ok_iff.mp advanced with ⟨reached, -, rest⟩
  rw [outcome_advance_cons] at rest
  rcases Except.bind_eq_ok_iff.mp rest with ⟨next, read, later⟩
  exact ⟨reached, next, reads_of_step read, last, later⟩

theorem den_ne_zero_of_reads {reached next : Progress Rat} {number : MixedNumber}
    (reads : Reads .bounded reached (.number number) next) : number.den ≠ 0 := by
  cases reads with
  | first converted => exact Arithmetic.den_ne_zero_of_bounded converted
  | begun converted => exact Arithmetic.den_ne_zero_of_bounded converted
  | applied converted _ => exact Arithmetic.den_ne_zero_of_bounded converted

/-- A number that has been read behind a division is not zero. -/
theorem value_ne_zero_of_reads {reached middle next : Progress Rat} {number : MixedNumber}
    (division : Reads .bounded reached (.operator .dividedBy) middle)
    (divisor : Reads .bounded middle (.number number) next) : number.value ≠ 0 := by
  generalize divided : Member.operator .dividedBy = member at division
  cases division with
  | continued tight =>
      cases divided
      cases divisor with
      | applied converted computed =>
          intro zero
          have nonzero := Arithmetic.den_ne_zero_of_bounded converted
          rw [Arithmetic.bounded_ofMixed_eq_ok_iff nonzero, zero] at converted
          cases converted.2
          cases computed
  | leading sign => cases sign <;> cases divided
  | added sign _ => cases sign <;> cases divided
  | first _ => cases divided
  | begun _ => cases divided
  | applied _ _ => cases divided

/-- Only an expression whose numbers have values, and whose divisors are not zero, has a
value. -/
theorem defined_of_evaluateBounded {members : Expression} {q : Rat}
    (evaluated : members.evaluateBounded = .ok q) : members.Defined := by
  constructor
  · intro number member
    rcases List.append_of_mem member with ⟨before, after, rfl⟩
    rcases exists_reads_of_evaluateBounded evaluated with ⟨reached, next, reads, -⟩
    exact den_ne_zero_of_reads reads
  · rintro number ⟨before, after, rfl⟩
    rw [List.append_assoc] at evaluated
    rcases exists_reads_of_evaluateBounded evaluated with ⟨reached, middle, division, last, rest⟩
    change (advance .bounded middle (.number number :: after)).outcome = .ok last at rest
    rw [outcome_advance_cons] at rest
    rcases Except.bind_eq_ok_iff.mp rest with ⟨next, read, -⟩
    exact value_ne_zero_of_reads division (reads_of_step read)

/-- An expression has a value exactly when it is well formed, its numbers have values, its
divisors are not zero, and everything on the way can be held.  Its value is then the sum of the
signed terms. -/
theorem evaluate_exact_and_complete (members : Expression) :
    ((∃ total, members.evaluate = .ok total) ↔
      WellFormed members ∧ members.Defined ∧
        ∀ sum : SignedSum, sum.members = members -> sum.Bounded) ∧
    ∀ total, members.evaluate = .ok total ->
      1 ≤ total.den ∧ ∀ sum : SignedSum, sum.members = members -> total.value = sum.value := by
  have computed : ∀ sum : SignedSum, sum.members = members -> members.Defined -> ∀ q,
      members.evaluateBounded = .ok q ↔ sum.Bounded ∧ sum.value = q := by
    rintro sum rfl defined q
    rw [evaluateBounded, outcome_run_members]
    exact SignedSum.evaluate_bounded_iff defined.signedSum q
  refine ⟨(exists_evaluate_iff members).trans ⟨?_, ?_⟩, ?_⟩
  · rintro ⟨q, evaluated⟩
    have defined := defined_of_evaluateBounded evaluated
    exact ⟨wellFormed_of_run evaluated, defined, fun sum same =>
      ((computed sum same defined q).mp evaluated).1⟩
  · rintro ⟨wellFormed, defined, bounded⟩
    rcases wellFormed.exists_signedSum with ⟨sum, same⟩
    exact ⟨sum.value, (computed sum same defined _).mpr ⟨bounded sum same, rfl⟩⟩
  · intro total evaluated
    have evaluatedBounded := evaluateBounded_of_evaluate evaluated
    have defined := defined_of_evaluateBounded evaluatedBounded
    exact ⟨total.den_pos, fun sum same =>
      ((computed sum same defined _).mp evaluatedBounded).2.symm⟩

/-- `0 65536/65536 * 0 65536/65536 - 1 1/2`: the product has to be reduced before it fits. -/
def reducedProduct : SignedSum :=
  .add (.single (.times (.number (.positive 0 65536 65536)) (.positive 0 65536 65536))) .negative
    (.number (.positive 1 1 2))

theorem evaluate_exact_reducedProduct :
    reducedProduct.members.evaluate = .ok ⟨-1, 2, by decide⟩ ∧
      WellFormed reducedProduct.members ∧ reducedProduct.Bounded ∧
      Fraction.value ⟨-1, 2, by decide⟩ = reducedProduct.value := by
  have evaluated : reducedProduct.members.evaluate = .ok ⟨-1, 2, by decide⟩ := rfl
  have conditions := (evaluate_exact_and_complete reducedProduct.members).1.mp ⟨_, evaluated⟩
  have exact_value := ((evaluate_exact_and_complete reducedProduct.members).2 _ evaluated).2
  exact ⟨evaluated, conditions.1, conditions.2.2 _ rfl, exact_value _ rfl⟩

end Expression

end MixedCalculator

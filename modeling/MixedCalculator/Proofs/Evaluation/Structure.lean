import MixedCalculator.Proofs.Evaluation.Progression

namespace MixedCalculator

/-!
# Evaluation on the structure of an expression

An evaluation reads the members of an expression once, from left to right, and knows no more
of its structure than the phase.  Here it is compared with the recursion on the structure, over
any arithmetic: the outcomes agree, faults included.
-/

variable {Value : Type} (arithmetic : Arithmetic Value)

/-- Compute a chain of factors from the left. -/
def Term.evaluate : Term -> Except Fault Value
  | number n => arithmetic.ofMixed n
  | times chain n => (chain.evaluate).bind fun product =>
      (arithmetic.ofMixed n).bind (arithmetic.apply .times product)
  | dividedBy chain n => (chain.evaluate).bind fun product =>
      (arithmetic.ofMixed n).bind (arithmetic.apply .dividedBy product)

/-- Compute a sum of terms from the left, beginning with zero. -/
def SignedSum.evaluate : SignedSum -> Except Fault Value
  | single term => (term.evaluate arithmetic).bind (arithmetic.apply .plus arithmetic.zero)
  | signed sign term =>
      (term.evaluate arithmetic).bind (arithmetic.apply (.ofSign sign) arithmetic.zero)
  | add sum sign term => (sum.evaluate).bind fun total =>
      (term.evaluate arithmetic).bind (arithmetic.apply (.ofSign sign) total)

/-- After a well-formed expression, a term stands ready to be added. -/
theorem Phase.Follows.term_of_wellFormed {phase : Phase Value} {members : Expression}
    (follows : phase.Follows members) (wellFormed : WellFormed members) :
    ∃ sign product, phase = .term sign product := by
  cases phase with
  | opening =>
      cases follows
      rcases wellFormed.exists_last with ⟨before, number, impossible⟩
      exact absurd impossible (by simp)
  | signed sign =>
      rcases follows with ⟨before, _, ends⟩
      exact absurd ends wellFormed.ne_append_operator
  | term sign product => exact ⟨sign, product, rfl⟩
  | factor sign product op =>
      rcases follows with ⟨before, _, _, ends⟩
      exact absurd ends wellFormed.ne_append_operator

namespace Evaluation

/-- A further factor multiplies or divides what has been computed of the term. -/
theorem outcome_advance_factor (position : Nat) (sum : Value) (sign : Sign) (product : Value)
    {op : Operator} (tight : op.sign? = none) (number : MixedNumber) :
    (advance arithmetic ⟨position, sum, .term sign product⟩
        [.operator op, .number number]).outcome =
      ((arithmetic.ofMixed number).bind (arithmetic.apply op product)).map
        (fun result => ⟨position + 2, sum, .term sign result⟩) := by
  simp only [outcome_advance_cons, step, tight, Traced.outcome_bind, Traced.outcome_pure,
    outcome_applyFactor, Except.bind]
  cases arithmetic.ofMixed number with
  | error fault => rfl
  | ok operand =>
      simp only
      cases arithmetic.apply op product operand <;> rfl

/-- The phases in which a term begins, with the sign that it has. -/
def Begins : Phase Value -> Sign -> Prop
  | .opening, sign => sign = .positive
  | .signed stated, sign => stated = sign
  | _, _ => False

theorem outcome_advance_term (begun : Progress Value) {sign : Sign}
    (begins : Begins begun.phase sign) (term : Term) :
    (advance arithmetic begun term.members).outcome =
      (term.evaluate arithmetic).map (fun product =>
        ⟨begun.position + term.members.length, begun.sum, .term sign product⟩) := by
  induction term with
  | number n =>
      rcases begun with ⟨position, sum, phase⟩
      cases phase with
      | opening =>
          cases begins
          simp only [Term.members, Term.evaluate, outcome_advance_cons, step,
            Traced.outcome_bind, Traced.outcome_silently]
          cases arithmetic.ofMixed n <;> rfl
      | signed stated =>
          cases begins
          simp only [Term.members, Term.evaluate, outcome_advance_cons, step,
            Traced.outcome_bind, Traced.outcome_silently]
          cases arithmetic.ofMixed n <;> rfl
      | term stated product => exact False.elim begins
      | factor stated product op => exact False.elim begins
  | times chain n inductionHypothesis =>
      rw [Term.members, outcome_advance_append, inductionHypothesis, Term.evaluate]
      cases chain.evaluate arithmetic with
      | error fault => rfl
      | ok product =>
          rw [List.length_append]
          exact outcome_advance_factor arithmetic _ _ _ _ rfl n
  | dividedBy chain n inductionHypothesis =>
      rw [Term.members, outcome_advance_append, inductionHypothesis, Term.evaluate]
      cases chain.evaluate arithmetic with
      | error fault => rfl
      | ok product =>
          rw [List.length_append]
          exact outcome_advance_factor arithmetic _ _ _ _ rfl n

/-- A term that is begun, computed and finished is added to the sum before it. -/
theorem outcome_finish_advance_term (begun : Progress Value) {sign : Sign}
    (begins : Begins begun.phase sign) (term : Term) :
    (advance arithmetic begun term.members).outcome.bind
        (fun reached => (finish arithmetic reached).outcome) =
      (term.evaluate arithmetic).bind (arithmetic.apply (.ofSign sign) begun.sum) := by
  rw [outcome_advance_term arithmetic begun begins term]
  cases term.evaluate arithmetic with
  | error fault => rfl
  | ok product => exact outcome_finish_term arithmetic _ _ _ _

/-- A sign after a well-formed expression finds the value of that expression as the running
sum, or the fault in it. -/
theorem outcome_advance_sign {members : Expression} (wellFormed : WellFormed members)
    (sign : Sign) :
    (advance arithmetic (start arithmetic) (members ++ [.operator (.ofSign sign)])).outcome =
      (run arithmetic members).outcome.map
        (fun total => ⟨members.length + 1, total, .signed sign⟩) := by
  rw [outcome_advance_append, outcome_run]
  cases advanced : (advance arithmetic (start arithmetic) members).outcome with
  | error fault => rfl
  | ok reached =>
      have follows := advance_follows (start_follows arithmetic) advanced
      rcases follows.phase.term_of_wellFormed wellFormed with ⟨before, product, phase⟩
      have counted := follows.position
      rcases reached with ⟨position, sum, reachedPhase⟩
      cases phase
      cases counted
      simp only [Except.bind, outcome_finish_term, outcome_advance_cons, step,
        Operator.sign?_ofSign, Traced.outcome_bind, outcome_addTerm]
      cases arithmetic.apply (.ofSign before) sum product <;> rfl

/-- Reading the members from left to right computes the sum on its structure. -/
theorem outcome_run_members (sum : SignedSum) :
    (run arithmetic sum.members).outcome = sum.evaluate arithmetic := by
  induction sum with
  | single term =>
      rw [outcome_run]
      exact outcome_finish_advance_term arithmetic (start arithmetic) rfl term
  | signed sign term =>
      rw [outcome_run, SignedSum.members, outcome_advance_cons]
      simp only [step, start, Operator.sign?_ofSign, Traced.outcome_pure, Except.bind]
      exact outcome_finish_advance_term arithmetic ⟨1, arithmetic.zero, .signed sign⟩ rfl term
  | add sum sign term inductionHypothesis =>
      have split : (SignedSum.add sum sign term).members =
          (sum.members ++ [.operator (.ofSign sign)]) ++ term.members := by
        rw [SignedSum.members, List.append_assoc]
        rfl
      rw [outcome_run, split, outcome_advance_append,
        outcome_advance_sign arithmetic (WellFormed.members sum) sign, inductionHypothesis,
        SignedSum.evaluate]
      cases sum.evaluate arithmetic with
      | error fault => rfl
      | ok total =>
          exact outcome_finish_advance_term arithmetic
            ⟨sum.members.length + 1, total, .signed sign⟩ rfl term

end Evaluation

end MixedCalculator

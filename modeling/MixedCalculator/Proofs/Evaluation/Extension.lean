import MixedCalculator.Proofs.Evaluation.Structure
import MixedCalculator.Proofs.Fraction.Holding

namespace MixedCalculator

/-!
# Expressions that go on

An evaluation reads its members once.  What it has found of the first members it finds again when
others follow, so a fault at one of them stays the fault of every longer expression.

What is found at the end alone may change.  A number that is missing may still come.  The last term
has been computed but not yet added, and a further factor can continue it.  Any other member adds
the term just as the end does: a sum that cannot be held is refused before that member is judged,
and behind a sum that can be held a number is missing an operator.
-/

variable {Value : Type} {arithmetic : Arithmetic Value}

/-- A fault that is found at a member, in an expression of the given length.  A number that is
missing at the end is not, and an overflow need not be: the end may have been the first to try the
sum. -/
def Fault.IsSettledWithin (length : Nat) : Fault -> Prop
  | .operatorExpected _ => True
  | .unexpectedOperator _ _ => True
  | .invalidParts _ => True
  | .divisionByZero => True
  | .numberExpected position => position < length
  | .emptyExpression => False
  | .overflow => False
  | .unexpectedCharacter _ _ => False

/-- The members begin with a multiplication or a division. -/
def Expression.ContinuesTerm (members : Expression) : Prop :=
  ∃ op rest, members = .operator op :: rest ∧ op.isMultiplicative = true

namespace Evaluation

/-- A fault at a member does not depend on what follows. -/
theorem outcome_run_append_of_advance {members : Expression} {fault : Fault}
    (refused : (advance arithmetic (start arithmetic) members).outcome = .error fault)
    (later : Expression) : (run arithmetic (members ++ later)).outcome = .error fault := by
  rw [outcome_run_append, refused]
  rfl

/-- An evaluation that fails has refused a member, or else there is none, a number is missing
behind the last one, or the last term cannot be added. -/
theorem refused_or_unfinished {members : Expression} {fault : Fault}
    (failed : (run arithmetic members).outcome = .error fault) :
    (advance arithmetic (start arithmetic) members).outcome = .error fault ∨
      fault = .emptyExpression ∨ fault = .numberExpected members.length ∨
        ∃ sum sign product, (advance arithmetic (start arithmetic) members).outcome =
          .ok ⟨members.length, sum, .term sign product⟩ ∧
            arithmetic.apply (.ofSign sign) sum product = .error fault := by
  rw [outcome_run] at failed
  rcases Except.bind_eq_error_iff.mp failed with refused | ⟨reached, advanced, finished⟩
  · exact Or.inl refused
  · have counted := (advance_follows (start_follows arithmetic) advanced).position
    rw [List.nil_append] at counted
    rcases reached with ⟨position, sum, phase⟩
    cases counted
    refine Or.inr ?_
    cases phase with
    | opening =>
        cases finished
        exact Or.inl rfl
    | signed sign =>
        cases finished
        exact Or.inr (Or.inl rfl)
    | factor sign product op =>
        cases finished
        exact Or.inr (Or.inl rfl)
    | term sign product =>
        rw [outcome_finish_term] at finished
        exact Or.inr (Or.inr ⟨sum, sign, product, advanced, finished⟩)

/-- A number behind a finished term is refused without being looked at, once the term has been
added. -/
theorem outcome_rest_of_term (position : Nat) (sum : Value) (sign : Sign) (product : Value)
    (number : MixedNumber) (after : Expression) :
    ((advance arithmetic ⟨position, sum, .term sign product⟩ (.number number :: after)).outcome.bind
        fun last => (finish arithmetic last).outcome) =
      (arithmetic.apply (.ofSign sign) sum product).bind
        fun _ => .error (.operatorExpected position) := by
  rw [outcome_advance_cons]
  simp only [step, Traced.outcome_bind, outcome_addTerm]
  cases arithmetic.apply (.ofSign sign) sum product <;> rfl

/-- A term that cannot be added is refused at the end, and so it is by every member that does not
continue it.  A sign begins a new term, so the last one is added there too, as it is at the end. -/
theorem outcome_rest_of_unadded {sum product : Value} {sign : Sign} {fault : Fault}
    (failed : arithmetic.apply (.ofSign sign) sum product = .error fault) (position : Nat)
    {later : Expression} (apart : ¬ later.ContinuesTerm) :
    ((advance arithmetic ⟨position, sum, .term sign product⟩ later).outcome.bind
        fun last => (finish arithmetic last).outcome) = .error fault := by
  cases later with
  | nil => exact (outcome_finish_term arithmetic position sum sign product).trans failed
  | cons member rest =>
      cases member with
      | number number =>
          rw [outcome_rest_of_term, failed]
          rfl
      | operator op =>
          cases isSign : op.sign? with
          | none =>
              have multiplicative : op.isMultiplicative = true := by
                rw [Operator.isMultiplicative, isSign]
                rfl
              exact absurd ⟨op, rest, rfl, multiplicative⟩ apart
          | some next =>
              rw [outcome_advance_cons]
              simp only [step, isSign, Traced.outcome_bind, outcome_addTerm, failed]
              rfl

/-- A number behind a well-formed expression is missing an operator, unless the expression
itself fails. -/
theorem outcome_run_append_number (arithmetic : Arithmetic Value) {before : Expression}
    (wellFormed : WellFormed before) (number : MixedNumber) (after : Expression) :
    (run arithmetic (before ++ .number number :: after)).outcome =
      (run arithmetic before).outcome.bind
        fun _ => .error (.operatorExpected before.length) := by
  rw [outcome_run_append, outcome_run]
  cases advanced : (advance arithmetic (start arithmetic) before).outcome with
  | error fault => rfl
  | ok reached =>
      have follows := advance_follows (start_follows arithmetic) advanced
      rw [List.nil_append] at follows
      have counted := follows.position
      rcases follows.phase.term_of_wellFormed wellFormed with ⟨sign, product, phase⟩
      rcases reached with ⟨position, sum, reachedPhase⟩
      cases phase
      cases counted
      change (advance arithmetic ⟨before.length, sum, .term sign product⟩
        (.number number :: after)).outcome.bind _ =
          (finish arithmetic ⟨before.length, sum, .term sign product⟩).outcome.bind _
      rw [outcome_rest_of_term, outcome_finish_term]

end Evaluation

/-- Fractions are added and subtracted as far as the result can be held. -/
theorem Fraction.overflow_of_apply_ofSign {sign : Sign} {a b : Fraction} {fault : Fault}
    (failed : Fraction.apply (.ofSign sign) a b = .error fault) : fault = .overflow := by
  cases sign with
  | positive => exact WideFraction.overflow_of_narrow failed
  | negative => exact WideFraction.overflow_of_narrow failed

namespace Expression

/-- No later member hides a fault.  A fault that was found at a member is found again whatever
follows, an overflow is unless a multiplication or a division follows, and a number that follows an
expression with a value is found to be missing an operator.

Of the faults that only the end brings out, none counts as found at a member.  A missing number is
reported there at the position behind all members, and a sum can only overflow. -/
theorem later_members_hide_no_fault (members later : Expression) :
    (∀ fault, fault.IsSettledWithin members.length -> evaluate members = .error fault ->
      evaluate (members ++ later) = .error fault) ∧
    (evaluate members = .error .overflow -> ¬ later.ContinuesTerm ->
      evaluate (members ++ later) = .error .overflow) ∧
    ∀ total number rest, evaluate members = .ok total -> later = .number number :: rest ->
      evaluate (members ++ later) = .error (.operatorExpected members.length) := by
  refine ⟨?_, ?_, ?_⟩
  · intro fault settled failed
    rcases Evaluation.refused_or_unfinished failed with
      refused | rfl | rfl | ⟨sum, sign, product, -, excessive⟩
    · exact Evaluation.outcome_run_append_of_advance refused later
    · exact False.elim settled
    · exact absurd settled (Nat.lt_irrefl members.length)
    · cases Fraction.overflow_of_apply_ofSign excessive
      exact False.elim settled
  · intro failed apart
    rcases Evaluation.refused_or_unfinished failed with
      refused | impossible | impossible | ⟨sum, sign, product, advanced, excessive⟩
    · exact Evaluation.outcome_run_append_of_advance refused later
    · cases impossible
    · cases impossible
    · change (Evaluation.run .fractions (members ++ later)).outcome = _
      rw [Evaluation.outcome_run_append, advanced]
      exact Evaluation.outcome_rest_of_unadded excessive members.length apart
  · rintro total number rest evaluated rfl
    have wellFormed := Evaluation.wellFormed_of_run evaluated
    change (Evaluation.run .fractions (members ++ .number number :: rest)).outcome = _
    rw [Evaluation.outcome_run_append_number .fractions wellFormed]
    change (evaluate members).bind _ = _
    rw [evaluated]
    rfl

/-- `2147483647 + 1`. -/
def unholdableSum : Expression :=
  [.number (.positive 2147483647 0 1), .operator .plus, .number (.positive 1 0 1)]

/-- `1 / 0`. -/
def undefinedQuotient : Expression :=
  [.number (.positive 1 0 1), .operator .dividedBy, .number .zero]

/-- The division by zero in `1 / 0 * 0` and the second sign in `+ + 5` are found before what follows
them.  In `2147483647 + 1 7` the overflow is found before the two neighbouring numbers, and only a
factor prevents it, as in `2147483647 + 1 * 0`.  In `4 5` an operator is missing. -/
theorem later_members_behind_each_fault :
    evaluate (undefinedQuotient ++ [Member.operator .times, .number .zero]) =
      .error .divisionByZero ∧
    evaluate ([Member.operator .plus, .operator .plus] ++ [Member.number (.positive 5 0 1)]) =
      .error (.numberExpected 1) ∧
    evaluate (unholdableSum ++ [Member.number (.positive 7 0 1)]) = .error .overflow ∧
    evaluate (unholdableSum ++ [Member.operator .times, .number .zero]) =
      .ok ⟨2147483647, 1, by decide⟩ ∧
    evaluate ([Member.number (.positive 4 0 1)] ++ [Member.number (.positive 5 0 1)]) =
      .error (.operatorExpected 1) := by
  have apart : ¬ ContinuesTerm [.number (.positive 7 0 1)] := by
    rintro ⟨op, rest, impossible, -⟩
    cases impossible
  have four : evaluate [.number (.positive 4 0 1)] = .ok ⟨4, 1, by decide⟩ := rfl
  exact ⟨(later_members_hide_no_fault undefinedQuotient _).1 .divisionByZero trivial rfl,
    (later_members_hide_no_fault _ _).1 (.numberExpected 1) Nat.one_lt_two rfl,
    (later_members_hide_no_fault unholdableSum _).2.1 rfl apart, rfl,
    (later_members_hide_no_fault _ _).2.2 _ _ [] four rfl⟩

end Expression

end MixedCalculator

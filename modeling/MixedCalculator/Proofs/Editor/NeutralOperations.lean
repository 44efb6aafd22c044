import MixedCalculator.Proofs.Editor.Operations
import MixedCalculator.Proofs.Evaluation.Structure
import MixedCalculator.Proofs.Fraction.Neutral

namespace MixedCalculator

/-!
# Added operations are neutral

An operation that is added to the editor brings an operand that changes no value.  It changes
no fault either, since it is read only if everything before it has been.  An operator without
an operand remains without one, as it is followed by another operator.  The last term is either
multiplied or divided by one before it is added to the sum, or it is added first and zero after
it.  Both lead to the same terms, and to the same refusal if the sum does not fit.

The empty expression is the one exception.  It is refused as empty, and an added operation
replaces this refusal by a value or by another one.
-/

/-- An operand with which an operator leaves every value as it is. -/
def Arithmetic.Neutral {Value : Type} (arithmetic : Arithmetic Value) (op : Operator)
    (number : MixedNumber) : Prop :=
  ∀ value, (arithmetic.ofMixed number).bind (arithmetic.apply op value) = .ok value

namespace Evaluation

variable {Value : Type} {arithmetic : Arithmetic Value} {op : Operator} {number : MixedNumber}

/-- Once something has been read, a neutral operation makes no difference to what is concluded.
The cases are those of the phase: an operator is missing its number in any case, and a finished
term is either continued by the operation or added before it. -/
theorem outcome_rest_of_neutral (neutral : arithmetic.Neutral op number)
    (reached : Progress Value) (begun : reached.phase ≠ .opening) :
    ((advance arithmetic reached [.operator op, .number number]).outcome.bind
        fun last => (finish arithmetic last).outcome) =
      (finish arithmetic reached).outcome := by
  rcases reached with ⟨position, sum, phase⟩
  cases phase with
  | opening => exact absurd rfl begun
  | signed sign => rfl
  | factor sign product before => rfl
  | term sign product =>
      rw [outcome_finish_term]
      cases isSign : op.sign? with
      | none =>
          rw [outcome_advance_factor arithmetic _ _ _ _ isSign, neutral product]
          exact outcome_finish_term arithmetic _ _ _ _
      | some next =>
          rw [Operator.eq_ofSign isSign] at neutral ⊢
          rw [outcome_advance_cons]
          simp only [step, Operator.sign?_ofSign, Traced.outcome_bind, outcome_addTerm]
          cases arithmetic.apply (.ofSign sign) sum product with
          | error fault => rfl
          | ok total =>
              have added := outcome_finish_advance_term arithmetic
                ⟨position + 1, total, .signed next⟩ rfl (.number number)
              exact added.trans (neutral total)

/-- A neutral operation behind an expression that is not empty changes nothing of its outcome. -/
theorem outcome_run_append_neutral (neutral : arithmetic.Neutral op number)
    {members : Expression} (nonempty : members ≠ []) :
    (run arithmetic (members ++ [.operator op, .number number])).outcome =
      (run arithmetic members).outcome := by
  rw [outcome_run_append, outcome_run]
  cases advanced : (advance arithmetic (start arithmetic) members).outcome with
  | error fault => rfl
  | ok reached =>
      have follows := (advance_follows (start_follows arithmetic) advanced).phase
      apply outcome_rest_of_neutral neutral
      intro opening
      rw [opening] at follows
      exact nonempty follows

end Evaluation

namespace Editor

/-- The operand that the editor provides is neutral among fractions, terms included. -/
theorem neutral_neutralOperand (op : Operator) :
    Arithmetic.fractions.Neutral op (neutralOperand op) := by
  intro value
  have converted : (neutralOperand op).toFraction = .ok (Fraction.neutral op) := by
    cases op <;> rfl
  change (neutralOperand op).toFraction.bind (Fraction.apply op value) = _
  rw [converted]
  exact Fraction.apply_neutral op value

/-- An operation by itself is not refused as an empty expression. -/
theorem evaluate_operation_ne_empty (op : Operator) :
    Expression.evaluate [.operator op, .number (neutralOperand op)] ≠
      .error .emptyExpression := by
  cases op <;> decide

/-- The editor after a row of operations, each of which may have been refused. -/
def addOperations (editor : Editor) (ops : List Operator) : Editor :=
  ops.foldl (fun reached op => (reached.addOperation op).2) editor

theorem addOperation_members_ne_nil {editor : Editor} (nonempty : editor.members ≠ [])
    (op : Operator) : (editor.addOperation op).2.members ≠ [] := by
  rcases editor.addOperation_cases op with ⟨-, added⟩ | refused
  · rw [added]
    exact List.append_ne_nil_of_left_ne_nil nonempty _
  · rw [refused]
    exact nonempty

/-- One operation, added or refused, leaves the outcome of a non-empty expression as it is. -/
theorem evaluate_addOperation {editor : Editor} (nonempty : editor.members ≠ [])
    (op : Operator) :
    (editor.addOperation op).2.members.evaluate = editor.members.evaluate := by
  rcases editor.addOperation_cases op with ⟨-, added⟩ | refused
  · rw [added]
    exact Evaluation.outcome_run_append_neutral (neutral_neutralOperand op) nonempty
  · rw [refused]
    rfl

/-- An empty expression has room for an operation. -/
theorem members_addOperation_of_nil {editor : Editor} (empty : editor.members = [])
    (op : Operator) :
    (editor.addOperation op).2.members = [.operator op, .number (neutralOperand op)] := by
  have room : ¬ memberLimit < editor.members.length + 2 := by
    rw [empty]
    decide
  rw [addOperation, if_neg room, empty]
  rfl

theorem evaluate_addOperations_of_ne_nil {editor : Editor} (nonempty : editor.members ≠ [])
    (ops : List Operator) :
    (editor.addOperations ops).members.evaluate = editor.members.evaluate := by
  induction ops generalizing editor with
  | nil => rfl
  | cons op rest inductionHypothesis =>
      exact (inductionHypothesis (addOperation_members_ne_nil nonempty op)).trans
        (evaluate_addOperation nonempty op)

/-- Added operations leave the outcome of an evaluation as it is, in the terms of its fraction and
in the position of its fault, unless the expression was empty and there was an operation. -/
theorem evaluate_addOperations_eq_iff (editor : Editor) (ops : List Operator) :
    (editor.addOperations ops).members.evaluate = editor.members.evaluate ↔
      editor.members ≠ [] ∨ ops = [] := by
  constructor
  · intro same
    by_contra neither
    rw [not_or, not_not] at neither
    rcases neither with ⟨empty, some_op⟩
    rcases List.exists_cons_of_ne_nil some_op with ⟨op, rest, rfl⟩
    have first := members_addOperation_of_nil empty op
    have begun : (editor.addOperation op).2.members ≠ [] := by
      rw [first]
      exact List.cons_ne_nil _ _
    have later := evaluate_addOperations_of_ne_nil begun rest
    rw [first] at later
    rw [empty] at same
    exact evaluate_operation_ne_empty op (later.symm.trans same)
  · rintro (nonempty | rfl)
    · exact evaluate_addOperations_of_ne_nil nonempty ops
    · rfl

/-- All four operations behind `1/2 + 1/2`, which is `4/4`. -/
example : (addOperations { initial with members :=
    [.number (.positive 0 1 2), .operator .plus, .number (.positive 0 1 2)] }
      Operator.all).members.evaluate = .ok ⟨4, 4, by decide⟩ := rfl

end Editor

end MixedCalculator

import MixedCalculator.Proofs.Editor.Operations
import MixedCalculator.Proofs.Editor.Reachability
import MixedCalculator.Proofs.Expression.Rereading

namespace MixedCalculator

/-!
# The operands of an expression

The numbers of an expression are operands: positive, because a minus sign is an operator, and
not marked as results.  Numbers come into an expression in three ways only, by reading a line of
text, as the neutral operand of an operator, and by way of the fields of a number that is there.
None of them makes anything but an operand.
-/

/-- A positive number that is not a result. -/
structure MixedNumber.IsOperand (m : MixedNumber) : Prop where
  positive : m.sign = .positive
  editable : m.readOnly = false

theorem MixedNumber.isOperand_positive (whole num den : UInt32) :
    (positive whole num den).IsOperand := by
  rw [positive_eq]
  exact ⟨rfl, rfl⟩

namespace Expression

/-- Every number of the expression is an operand. -/
def OfOperands (members : Expression) : Prop :=
  ∀ number, .number number ∈ members -> number.IsOperand

theorem OfOperands.plain {members : Expression} (operands : OfOperands members) :
    Plain members :=
  fun number member => (operands number member).positive

theorem ofOperands_nil : OfOperands [] := by
  intro number member
  cases member

theorem ofOperands_cons_operator (op : Operator) {rest : Expression}
    (operands : OfOperands rest) : OfOperands (.operator op :: rest) := by
  intro number member
  cases member with
  | tail _ inRest => exact operands number inRest

theorem ofOperands_cons_positive (whole num den : UInt32) {rest : Expression}
    (operands : OfOperands rest) : OfOperands (.number (.positive whole num den) :: rest) := by
  intro number member
  cases member with
  | head => exact MixedNumber.isOperand_positive whole num den
  | tail _ inRest => exact operands number inRest

theorem OfOperands.append {first second : Expression} (operands_first : OfOperands first)
    (operands_second : OfOperands second) : OfOperands (first ++ second) := by
  intro number member
  rcases List.mem_append.mp member with inFirst | inSecond
  · exact operands_first number inFirst
  · exact operands_second number inSecond

/-- Only operands are ever read. -/
theorem ofOperands_ofLexemes (lexemes : List Lexeme) : OfOperands (ofLexemes lexemes) := by
  induction lexemes using ofLexemes.induct with
  | case1 => exact ofOperands_nil
  | case2 whole num den rest inductionHypothesis =>
      exact ofOperands_cons_positive whole num den inductionHypothesis
  | case3 num den rest inductionHypothesis =>
      exact ofOperands_cons_positive 0 num den inductionHypothesis
  | case4 whole rest _ _ inductionHypothesis =>
      rw [ofLexemes]
      · exact ofOperands_cons_positive whole 0 1 inductionHypothesis
      · assumption
      · assumption
  | case5 rest inductionHypothesis => exact inductionHypothesis
  | case6 rest inductionHypothesis => exact ofOperands_cons_operator _ inductionHypothesis
  | case7 op rest inductionHypothesis => exact ofOperands_cons_operator op inductionHypothesis

theorem ofOperands_of_ofChars {text : List Char} {members : Expression}
    (isRead : ofChars text = .ok members) : OfOperands members := by
  unfold ofChars at isRead
  cases cut : Lexeme.ofText text with
  | error fault =>
      rw [cut] at isRead
      cases isRead
  | ok lexemes =>
      rw [cut] at isRead
      cases isRead
      exact ofOperands_ofLexemes lexemes

/-- The fields of a number have neither a sign nor a mark. -/
theorem OfOperands.drawMembers {members : Expression} (operands : OfOperands members)
    (acts : List Screen.Act) : OfOperands (Screen.drawMembers acts members) := by
  intro number drawn
  rcases List.mem_mapIdx.mp drawn with ⟨index, inside, same⟩
  have member : members[index] ∈ members := List.getElem_mem inside
  cases original : members[index] with
  | operator op =>
      rw [original] at same
      cases same
  | number stored =>
      rw [original] at same member
      cases same
      exact ⟨(operands stored member).positive, (operands stored member).editable⟩

end Expression

namespace Editor

theorem isOperand_neutralOperand (op : Operator) : (neutralOperand op).IsOperand := by
  unfold neutralOperand
  split
  · exact MixedNumber.isOperand_positive 1 0 1
  · exact MixedNumber.isOperand_positive 0 0 1

/-- No operation makes anything but operands. -/
theorem kept_ofOperands : Kept (fun editor => editor.members.OfOperands) where
  add editor op operands := by
    rcases editor.addOperation_cases op with ⟨-, added⟩ | refused
    · rw [added]
      refine operands.append (Expression.ofOperands_cons_operator op ?_)
      intro number member
      cases List.mem_singleton.mp member
      exact isOperand_neutralOperand op
    · rw [refused]
      exact operands
  delete editor index operands number member :=
    operands number (List.mem_of_mem_eraseIdx member)
  reset editor _ := Expression.ofOperands_nil
  clear editor operands := operands
  type editor text operands := operands
  importEntry editor operands := by
    rcases editor.importEntry_cases with ⟨members, isRead, -, imported⟩ | ⟨notice, refused⟩
    · rw [imported]
      exact Expression.ofOperands_of_ofChars isRead
    · rw [refused]
      exact operands
  evaluate editor operands := by
    rw [members_evaluate]
    exact operands
  draw editor acts operands := operands.drawMembers acts
  unfocus editor operands := operands

theorem Reachable.ofOperands {editor : Editor} (reachable : Reachable editor) :
    editor.members.OfOperands := by
  refine reachable.of_kept kept_ofOperands ?_
  exact Expression.ofOperands_cons_positive 5 3 4 (Expression.ofOperands_cons_operator .minus
    (Expression.ofOperands_cons_positive 6 2 3 Expression.ofOperands_nil))

end Editor

end MixedCalculator

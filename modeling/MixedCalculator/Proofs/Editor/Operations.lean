import MixedCalculator.Editor

namespace MixedCalculator
namespace Editor

/-!
# What an operation can do

Three operations may be refused.  Each of them then does nothing to the editor but give notice
and move to the line of text, and otherwise it does one thing only.  What is said here about
the three is all that the invariants of the editor need to know of them.
-/

theorem addOperation_cases (editor : Editor) (op : Operator) :
    (editor.members.length + 2 ≤ memberLimit ∧
        editor.addOperation op = (true, { editor with
          members := editor.members ++ [.operator op, .number (neutralOperand op)] })) ∨
      editor.addOperation op = (false, editor.refuse .tooLong) := by
  unfold addOperation
  by_cases tooLong : memberLimit < editor.members.length + 2
  · exact Or.inr (if_pos tooLong)
  · exact Or.inl ⟨Nat.le_of_not_lt tooLong, if_neg tooLong⟩

theorem importEntry_cases (editor : Editor) :
    (∃ members, Expression.ofChars (Text.trim editor.entry.toList) = .ok members ∧
        members.length ≤ memberLimit ∧
        editor.importEntry = (true, { editor with members := members, notice := none })) ∨
      ∃ notice, editor.importEntry = (false, editor.refuse notice) := by
  unfold importEntry
  cases Expression.ofChars (Text.trim editor.entry.toList) with
  | error fault => exact Or.inr ⟨.fault fault, rfl⟩
  | ok members =>
      by_cases tooLong : memberLimit < members.length
      · exact Or.inr ⟨.tooLong, if_pos tooLong⟩
      · exact Or.inl ⟨members, rfl, Nat.le_of_not_lt tooLong, if_neg tooLong⟩

theorem evaluate_cases (editor : Editor) :
    (∃ total, editor.members.evaluate = .ok total ∧
        editor.evaluate = editor.present total.toMixed.asReadOnly) ∨
      ∃ fault, editor.members.evaluate = .error fault ∧
        editor.evaluate = editor.refuse (.fault fault) := by
  cases evaluated : editor.members.evaluate with
  | ok total => exact Or.inl ⟨total, rfl, evaluate_of_ok evaluated⟩
  | error fault => exact Or.inr ⟨fault, rfl, evaluate_of_error evaluated⟩

/-- A calculation leaves the members as they are. -/
theorem members_evaluate (editor : Editor) : editor.evaluate.members = editor.members := by
  rcases editor.evaluate_cases with ⟨total, -, same⟩ | ⟨fault, -, same⟩
  · rw [same]
    rfl
  · rw [same]
    rfl

end Editor
end MixedCalculator

import MixedCalculator.Proofs.Editor.Operands
import MixedCalculator.Proofs.MixedNumber.Normal

namespace MixedCalculator
namespace Editor

/-!
# The invariant of the editor

Whatever is done to an editor, its expression is no longer than the limit and its numbers are
operands, and its result is a result: marked, in normal form, and the mixed form of a fraction.
The limit is checked where members are added, and again where they are read.  Everything else
that touches the members keeps their number or lowers it.
-/

/-- Nothing makes an expression longer than the limit. -/
theorem kept_length_le : Kept (fun editor => editor.members.length ≤ memberLimit) where
  add editor op short := by
    rcases editor.addOperation_cases op with ⟨fits, added⟩ | refused
    · rw [added]
      simp only [List.length_append, List.length_cons, List.length_nil]
      exact fits
    · rw [refused]
      exact short
  delete editor index short := Nat.le_trans (List.eraseIdx_sublist _ _).length_le short
  reset editor _ := Nat.zero_le memberLimit
  clear editor short := short
  type editor text short := short
  importEntry editor short := by
    rcases editor.importEntry_cases with ⟨members, -, fits, imported⟩ | ⟨notice, refused⟩
    · rw [imported]
      exact fits
    · rw [refused]
      exact short
  evaluate editor short := by
    rw [members_evaluate]
    exact short
  draw editor acts short := by
    change (Screen.drawMembers acts editor.members).length ≤ memberLimit
    rw [Screen.drawMembers, List.length_mapIdx]
    exact short
  unfocus editor short := short

theorem toMixed_zero : Fraction.zero.toMixed = MixedNumber.zero := by decide

/-- The result is the mixed form of a fraction, marked as a result. -/
def ShowsFraction (editor : Editor) : Prop :=
  ∃ total : Fraction, editor.result = total.toMixed.asReadOnly

/-- Only an evaluation and a fresh start give another result. -/
theorem kept_showsFraction : Kept ShowsFraction where
  add editor op shown := by
    rcases editor.addOperation_cases op with ⟨-, added⟩ | refused
    · rw [added]
      exact shown
    · rw [refused]
      exact shown
  delete editor index shown := shown
  reset editor _ := ⟨.zero, congrArg MixedNumber.asReadOnly toMixed_zero.symm⟩
  clear editor shown := shown
  type editor text shown := shown
  importEntry editor shown := by
    rcases editor.importEntry_cases with ⟨members, -, -, imported⟩ | ⟨notice, refused⟩
    · rw [imported]
      exact shown
    · rw [refused]
      exact shown
  evaluate editor shown := by
    rcases editor.evaluate_cases with ⟨total, -, presented⟩ | ⟨fault, -, refused⟩
    · rw [presented]
      exact ⟨total, rfl⟩
    · rw [refused]
      exact shown
  draw editor acts shown := shown
  unfocus editor shown := shown

theorem Reachable.length_le {editor : Editor} (reachable : Reachable editor) :
    editor.members.length ≤ memberLimit :=
  reachable.of_kept kept_length_le (by decide)

theorem Reachable.showsFraction {editor : Editor} (reachable : Reachable editor) :
    editor.ShowsFraction :=
  reachable.of_kept kept_showsFraction ⟨⟨-11, 12, by decide⟩, by decide⟩

/-- What holds of an editor after any requests: its expression is bounded and made of operands,
and its result is the normal form of a fraction. -/
theorem bounded_operands_and_normal_result {editor : Editor} (reachable : Reachable editor) :
    editor.members.length ≤ 256 ∧
      (∀ number, .number number ∈ editor.members ->
        number.sign = .positive ∧ number.readOnly = false) ∧
      editor.result.readOnly = true ∧ editor.result.Normal ∧
      ∃ total : Fraction, editor.result = total.toMixed.asReadOnly := by
  have operands := reachable.ofOperands
  rcases reachable.showsFraction with ⟨total, shown⟩
  refine ⟨reachable.length_le, ?_, ?_, ?_, total, shown⟩
  · intro number member
    exact ⟨(operands number member).positive, (operands number member).editable⟩
  · rw [shown]
    rfl
  · rw [shown]
    exact total.normal_toMixed.asReadOnly

/-- `3/4 * 2 - 7`, where a frame makes the second number `2 5/3`, divides the last one and
evaluates, and where the first number is removed thereafter. -/
def editedAndDivided : Editor :=
  (((initial.perform (.type "3/4 * 2 - 7")).perform .importEntry).perform
    (.frame [.set 2 .num 5, .set 2 .den 3, .press (.operation .dividedBy), .press .equals])).perform
      (.delete 0)

/-- The members that are left are no sum, but they are operands, and the result `-4 1/4` is
that of the frame. -/
theorem invariant_after_frame :
    editedAndDivided.Reachable ∧
      Expression.text editedAndDivided.members = "* 2 5/3 - 7 / 1" ∧
      editedAndDivided.result = ⟨.negative, 4, 1, 4, true⟩ ∧
      editedAndDivided.members.length ≤ 256 ∧
      (∀ number, .number number ∈ editedAndDivided.members ->
        number.sign = .positive ∧ number.readOnly = false) ∧
      editedAndDivided.result.readOnly = true ∧ editedAndDivided.result.Normal ∧
      ∃ total : Fraction, editedAndDivided.result = total.toMixed.asReadOnly := by
  have reachable : editedAndDivided.Reachable :=
    .perform _ (.perform _ (.perform _ (.perform _ .initial)))
  exact ⟨reachable, by decide, by decide, bounded_operands_and_normal_result reachable⟩

end Editor
end MixedCalculator

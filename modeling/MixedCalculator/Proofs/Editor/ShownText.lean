import MixedCalculator.Proofs.Editor.Operands
import MixedCalculator.Proofs.Evaluation.Rereading

namespace MixedCalculator

/-!
# The text that an editor shows

No request makes a number negative, so the text that a reachable editor shows for its members
can always be read back.  It means what the members mean, except where the removal of an
operator has left a whole number before a bare fraction: as a text, the two are one number.
-/

namespace Editor

theorem Reachable.plain {editor : Editor} (reachable : Reachable editor) :
    editor.members.Plain :=
  reachable.ofOperands.plain

/-- The text shown by a reachable editor can be read, and it comes to the same as the members,
exactly when both fail alike at every exposed pair. -/
theorem shown_text_means_members_iff {editor : Editor} (reachable : Reachable editor) :
    ∃ read, Expression.ofText (Expression.text editor.members) = .ok read ∧
      (SameOutcome read.evaluate editor.members.evaluate ↔
        ∀ before first second after,
          Expression.ExposedPair editor.members before first second after ->
            (∃ fault, Expression.evaluate (before ++ [.number first]) = .error fault ∧
              read.evaluate = .error fault) ∨
            (∃ total, Expression.evaluate (before ++ [.number first]) = .ok total) ∧
              (∃ total, Expression.evaluate (before ++ [.number (first.join second)]) =
                .ok total) ∧
              ∃ third later, after = .number third :: later) := by
  have isRead := Expression.ofText_text_of_plain reachable.plain
  exact ⟨editor.members.reread, isRead, Expression.sameOutcome_reread_iff editor.members⟩

/-- `1 + 3/4 - 5` without its operators: `1`, `3/4` and `5`. -/
def threeNumbers : Editor :=
  (((initial.perform (.type "1 + 3/4 - 5")).perform .importEntry).perform (.delete 3)).perform
    (.delete 1)

/-- The text `1 3/4 5` has two numbers only, but it misses its operator where the members do. -/
theorem shown_text_of_three_numbers :
    threeNumbers.Reachable ∧
      ∃ read, Expression.ofText (Expression.text threeNumbers.members) = .ok read ∧
        SameOutcome read.evaluate threeNumbers.members.evaluate := by
  have reachable : threeNumbers.Reachable :=
    .perform _ (.perform _ (.perform _ (.perform _ .initial)))
  rcases shown_text_means_members_iff reachable with ⟨read, isRead, same⟩
  refine ⟨reachable, read, isRead, same.mpr ?_⟩
  intro before first second after exposed
  have members : threeNumbers.members =
      [.number (.positive 1 0 1), .number (.positive 0 3 4), .number (.positive 5 0 1)] := rfl
  have split := members.symm.trans exposed.split
  cases before with
  | nil =>
      cases split
      exact Or.inr ⟨⟨⟨1, 1, by decide⟩, rfl⟩, ⟨⟨7, 4, by decide⟩, rfl⟩, _, _, rfl⟩
  | cons member earlier =>
      cases earlier with
      | nil =>
          cases split
          exact absurd exposed.joins (by decide)
      | cons other more =>
          have lengths := congrArg List.length split
          simp only [List.length_cons, List.length_append, List.length_nil] at lengths
          omega

/-- `1 + 3/4` without its operator: `1` and `3/4`. -/
def twoNumbers : Editor :=
  ((initial.perform (.type "1 + 3/4")).perform .importEntry).perform (.delete 1)

/-- The members miss an operator, whereas the text `1 3/4` that is shown for them is a number. -/
theorem shown_text_of_two_numbers :
    twoNumbers.Reachable ∧
      twoNumbers.members.evaluate = .error (.operatorExpected 1) ∧
      Expression.text twoNumbers.members = "1 3/4" ∧
      ∃ read, Expression.ofText "1 3/4" = .ok read ∧ read.evaluate = .ok ⟨7, 4, by decide⟩ ∧
        ¬ SameOutcome read.evaluate twoNumbers.members.evaluate :=
  ⟨.perform _ (.perform _ (.perform _ .initial)), rfl, by decide,
    [.number (.positive 1 3 4)], by decide, rfl, fun same => same⟩

end Editor

end MixedCalculator

import Mathlib.Data.List.Forall2
import MixedCalculator.Proofs.Evaluation.Progression

namespace MixedCalculator

/-!
# Members that an evaluation cannot tell apart

A number takes part in an evaluation only through what it converts to.  Hence the parts of a
number may be exchanged for others, as long as they convert alike: neither the value of an
expression nor the fault that is found first depends on them.
-/

variable {Value : Type} {arithmetic : Arithmetic Value}

/-- The same operator, or numbers that convert alike. -/
inductive Member.Alike (arithmetic : Arithmetic Value) : Member -> Member -> Prop
  | number {first second : MixedNumber} :
      arithmetic.ofMixed first = arithmetic.ofMixed second ->
        Alike arithmetic (.number first) (.number second)
  | operator (op : Operator) : Alike arithmetic (.operator op) (.operator op)

/-- Expressions whose members are alike, one by one. -/
def Expression.Alike (arithmetic : Arithmetic Value) : Expression -> Expression -> Prop :=
  List.Forall₂ (Member.Alike arithmetic)

/-- A change of the members one by one, with what they convert to left as it is. -/
theorem Expression.alike_map {change : Member -> Member} {members : Expression}
    (alike : ∀ member, member ∈ members -> (change member).Alike arithmetic member) :
    Expression.Alike arithmetic (members.map change) members :=
  List.forall₂_map_left_iff.mpr (List.forall₂_same.mpr alike)

namespace Evaluation

theorem outcome_step_of_alike {first second : Member} (alike : first.Alike arithmetic second)
    (progress : Progress Value) :
    (step arithmetic progress first).outcome = (step arithmetic progress second).outcome := by
  cases alike with
  | operator op => rfl
  | number same =>
      rcases progress with ⟨position, sum, phase⟩
      cases phase <;> simp only [step, applyFactor, same]

theorem outcome_advance_of_alike {first second : Expression}
    (alike : Expression.Alike arithmetic first second) (progress : Progress Value) :
    (advance arithmetic progress first).outcome = (advance arithmetic progress second).outcome := by
  induction alike generalizing progress with
  | nil => rfl
  | cons members _ inductionHypothesis =>
      rw [outcome_advance_cons, outcome_advance_cons, outcome_step_of_alike members]
      exact congrArg _ (funext inductionHypothesis)

theorem outcome_run_of_alike {first second : Expression}
    (alike : Expression.Alike arithmetic first second) :
    (run arithmetic first).outcome = (run arithmetic second).outcome := by
  rw [outcome_run, outcome_run, outcome_advance_of_alike alike]

end Evaluation

end MixedCalculator

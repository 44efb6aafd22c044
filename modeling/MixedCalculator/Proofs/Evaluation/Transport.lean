import MixedCalculator.Evaluation.Basic
import MixedCalculator.Proofs.Outcome

namespace MixedCalculator

/-!
# Evaluation under a change of values

An evaluation looks at its values only through its arithmetic.  A map between two kinds of
values that respects zero, the values of numbers and the four operations therefore carries the
outcome of every evaluation over the one to the outcome over the other, faults included.  This
is what allows an evaluation over fractions to be studied over rational numbers.
-/

variable {Value Image : Type}

/-- A map of values that respects two arithmetics.  An operation is refused under the one
exactly when it is refused under the other, and with the same fault. -/
structure Arithmetic.Homomorphism (map : Value -> Image) (source : Arithmetic Value)
    (target : Arithmetic Image) : Prop where
  zero : map source.zero = target.zero
  ofMixed : ∀ number, (source.ofMixed number).map map = target.ofMixed number
  apply : ∀ op a b, (source.apply op a b).map map = target.apply op (map a) (map b)

/-- The same phase over other values. -/
def Phase.map (map : Value -> Image) : Phase Value -> Phase Image
  | opening => .opening
  | signed sign => .signed sign
  | term sign product => .term sign (map product)
  | factor sign product op => .factor sign (map product) op

/-- The same progress over other values. -/
def Progress.map (map : Value -> Image) (progress : Progress Value) : Progress Image where
  position := progress.position
  sum := map progress.sum
  phase := progress.phase.map map

namespace Evaluation

variable {map : Value -> Image} {source : Arithmetic Value} {target : Arithmetic Image}

theorem addTerm_map (hom : source.Homomorphism map target) (sum : Value) (sign : Sign)
    (product : Value) :
    (addTerm source sum sign product).outcome.map map =
      (addTerm target (map sum) sign (map product)).outcome := by
  simp only [addTerm, Traced.outcome_bind, Traced.outcome_silently]
  exact Except.map_bind (hom.apply _ _ _) (fun _ => rfl)

theorem applyFactor_map (hom : source.Homomorphism map target) (product : Value)
    (op : Operator) (number : MixedNumber) :
    (applyFactor source product op number).outcome.map map =
      (applyFactor target (map product) op number).outcome := by
  simp only [applyFactor, Traced.outcome_bind, Traced.outcome_silently]
  exact Except.map_bind (hom.ofMixed number)
    (fun _ => Except.map_bind (hom.apply _ _ _) (fun _ => rfl))

/-- Reading one member corresponds.  The cases are those of the phase and the member. -/
theorem step_map (hom : source.Homomorphism map target) (progress : Progress Value)
    (member : Member) :
    (step source progress member).outcome.map (Progress.map map) =
      (step target (progress.map map) member).outcome := by
  rcases progress with ⟨position, sum, phase⟩
  cases phase with
  | opening =>
      cases member with
      | number number =>
          simp only [step, Progress.map, Phase.map, Traced.outcome_bind, Traced.outcome_silently]
          exact Except.map_bind (hom.ofMixed number) (fun _ => rfl)
      | operator op => cases op <;> rfl
  | signed sign =>
      cases member with
      | number number =>
          simp only [step, Progress.map, Phase.map, Traced.outcome_bind, Traced.outcome_silently]
          exact Except.map_bind (hom.ofMixed number) (fun _ => rfl)
      | operator op => rfl
  | term sign product =>
      cases member with
      | number number =>
          simp only [step, Progress.map, Phase.map, Traced.outcome_bind]
          exact Except.map_bind (addTerm_map hom sum sign product) (fun _ => rfl)
      | operator op =>
          cases following : op.sign? with
          | none =>
              simp only [step, Progress.map, Phase.map, following]
              rfl
          | some next =>
              simp only [step, Progress.map, Phase.map, following, Traced.outcome_bind]
              exact Except.map_bind (addTerm_map hom sum sign product) (fun _ => rfl)
  | factor sign product op =>
      cases member with
      | number number =>
          simp only [step, Progress.map, Phase.map, Traced.outcome_bind]
          exact Except.map_bind (applyFactor_map hom product op number) (fun _ => rfl)
      | operator op => rfl

theorem advance_map (hom : source.Homomorphism map target) (progress : Progress Value)
    (members : Expression) :
    (advance source progress members).outcome.map (Progress.map map) =
      (advance target (progress.map map) members).outcome := by
  induction members generalizing progress with
  | nil => rfl
  | cons member rest inductionHypothesis =>
      simp only [advance, List.foldlM_cons, Traced.outcome_bind]
      exact Except.map_bind (step_map hom progress member) inductionHypothesis

theorem finish_map (hom : source.Homomorphism map target) (progress : Progress Value) :
    (finish source progress).outcome.map map =
      (finish target (progress.map map)).outcome := by
  rcases progress with ⟨position, sum, phase⟩
  cases phase with
  | opening => rfl
  | signed sign => rfl
  | factor sign product op => rfl
  | term sign product =>
      simp only [finish, Progress.map, Phase.map, Traced.outcome_bind]
      exact Except.map_bind (addTerm_map hom sum sign product) (fun _ => rfl)

/-- Whole evaluations correspond: equal faults, or values that correspond. -/
theorem run_map (hom : source.Homomorphism map target) (members : Expression) :
    (run source members).outcome.map map = (run target members).outcome := by
  have started : (start source).map map = start target := by
    simp only [start, Progress.map, Phase.map, hom.zero]
  simp only [run, Traced.outcome_bind, ← started]
  exact Except.map_bind (advance_map hom _ members) (finish_map hom)

end Evaluation

end MixedCalculator

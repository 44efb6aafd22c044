import MixedCalculator.Evaluation.Basic

namespace MixedCalculator

/-!
# Calculations

A calculation evaluates on behalf of a host.  The host holds the members of an expression and
takes either a fault or a result, exactly one of the two for each calculation.  Its members
are read once, before anything is handed back.
-/

/-- Whoever holds an expression and is told what became of it. -/
class Host (σ : Type) where
  members : σ -> Expression
  refuse : σ -> Fault -> σ
  present : σ -> MixedNumber -> σ

/-- What a calculation reports and answers, and the host after it. -/
structure Calculation (σ : Type) where
  events : List (Event Fraction)
  answer : Except Fault MixedNumber
  host : σ

/-- Evaluate the members of a host.  A result is presented in lowest terms and marked
read-only, because it is not an operand to be edited. -/
def calculate {σ : Type} [Host σ] (host : σ) : Calculation σ :=
  let evaluation := Expression.evaluation (Host.members host)
  match evaluation.outcome with
  | .ok total =>
      let result := total.toMixed.asReadOnly
      ⟨evaluation.events, .ok result, Host.present host result⟩
  | .error fault =>
      ⟨evaluation.events ++ [.refused fault (Host.members host).length], .error fault,
        Host.refuse host fault⟩

theorem calculate_of_ok {σ : Type} [Host σ] {host : σ} {total : Fraction}
    (evaluated : (Host.members host).evaluate = .ok total) :
    calculate host =
      ⟨(Host.members host).evaluation.events, .ok total.toMixed.asReadOnly,
        Host.present host total.toMixed.asReadOnly⟩ := by
  simp only [Expression.evaluate] at evaluated
  simp only [calculate, evaluated]

theorem calculate_of_error {σ : Type} [Host σ] {host : σ} {fault : Fault}
    (evaluated : (Host.members host).evaluate = .error fault) :
    calculate host =
      ⟨(Host.members host).evaluation.events ++ [.refused fault (Host.members host).length],
        .error fault, Host.refuse host fault⟩ := by
  simp only [Expression.evaluate] at evaluated
  simp only [calculate, evaluated]

/-- A host that only keeps account of what it was told, in order. -/
structure Transcript where
  members : Expression
  faults : List Fault := []
  results : List MixedNumber := []
  deriving DecidableEq, Repr

instance : Host Transcript where
  members transcript := transcript.members
  refuse transcript fault := { transcript with faults := transcript.faults ++ [fault] }
  present transcript result := { transcript with results := transcript.results ++ [result] }

end MixedCalculator

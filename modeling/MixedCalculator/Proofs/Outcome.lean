namespace MixedCalculator

/-!
# Outcomes

Reading and evaluating either come to a result or stop at a fault.  How the two kinds of outcome
pass through a sequence of computations, or through a change of results and faults, depends on
neither texts nor fractions.
-/

namespace Except

variable {ε α β : Type}

/-- A sequence comes to a result only through a result of its first step. -/
theorem bind_eq_ok_iff {first : Except ε α} {next : α -> Except ε β} {result : β} :
    first.bind next = .ok result ↔ ∃ a, first = .ok a ∧ next a = .ok result := by
  cases first <;> simp [Except.bind]

/-- A sequence stops where its first step does, or else later on. -/
theorem bind_eq_error_iff {first : Except ε α} {next : α -> Except ε β} {fault : ε} :
    first.bind next = .error fault ↔
      first = .error fault ∨ ∃ a, first = .ok a ∧ next a = .error fault := by
  cases first <;> simp [Except.bind]

/-- If the first steps of two computations correspond, and so does all that may follow, the
computations correspond. -/
theorem map_bind {Next Following : Type} {map : α -> β} {mapNext : Next -> Following}
    {first : Except ε α} {image : Except ε β} {next : α -> Except ε Next}
    {following : β -> Except ε Following} (same : first.map map = image)
    (follow : ∀ a, (next a).map mapNext = following (map a)) :
    (first.bind next).map mapNext = image.bind following := by
  subst same
  cases first with
  | error fault => rfl
  | ok a => exact follow a

/-- Which result there is, if any, does not depend on the faults. -/
theorem toOption_map (change : α -> β) (outcome : Except ε α) :
    (outcome.map change).toOption = outcome.toOption.map change := by
  cases outcome <;> rfl

/-- Results and faults change independently of each other. -/
theorem map_mapError (change : α -> β) (blame : ε -> ε) (outcome : Except ε α) :
    (outcome.mapError blame).map change = (outcome.map change).mapError blame := by
  cases outcome <;> rfl

end Except

end MixedCalculator
